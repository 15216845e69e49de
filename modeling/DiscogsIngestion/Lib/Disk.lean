import Mathlib.Logic.Function.Basic

/-!
# A disk that may lose power

Files are inodes with names in one directory. What was written is safe when the file has been synchronized, renames
are atomic, and a change of the directory is safe when the directory has been synchronized.

* `Disk`, `Disk.dirs` : inodes, and the directories that a loss of power may bring back;
* `create`, `write`, `sync`, `rename`, `syncDir` : what a program does;
* `crash` : a loss of power;
* `Keeps` : a name has safe contents of a certain kind, whatever happens, while another name is written to;
* `Keeps.create`, …, `Keeps.crash` : replacing a file by renaming a synchronized one keeps contents safe.
-/

/-- A file: what a reader sees, and whether it would see the same after a loss of power. -/
structure Inode (γ : Type) where
  content : γ
  synced : Bool
  deriving DecidableEq

/-- Files by their numbers, the directory, and the directories since it was last synchronized. -/
structure Disk (γ : Type) where
  inode : Nat → Inode γ
  nextInode : Nat
  dir : String → Option Nat
  older : List (String → Option Nat)

namespace Disk

variable {γ : Type}

def blank (content : γ) : Disk γ := ⟨fun _ => ⟨content, true⟩, 0, fun _ => none, []⟩

variable (d : Disk γ)

/-- The directories that a loss of power may bring back. -/
def dirs : List (String → Option Nat) := d.dir :: d.older

/-- What a reader of a file finds. -/
def read (name : String) : Option γ := (d.dir name).map fun i => (d.inode i).content

/-- Open a file for writing: it is truncated, or new. -/
def create (name : String) (empty : γ) : Disk γ :=
  match d.dir name with
  | some i => { d with inode := Function.update d.inode i ⟨empty, false⟩ }
  | none =>
    { inode := Function.update d.inode d.nextInode ⟨empty, false⟩
      nextInode := d.nextInode + 1
      dir := Function.update d.dir name (some d.nextInode)
      older := d.dirs }

def write (name : String) (content : γ) : Disk γ :=
  match d.dir name with
  | some i => { d with inode := Function.update d.inode i ⟨content, false⟩ }
  | none => d

def sync (name : String) : Disk γ :=
  match d.dir name with
  | some i => { d with inode := Function.update d.inode i ⟨(d.inode i).content, true⟩ }
  | none => d

def rename (source target : String) : Disk γ :=
  { d with
    dir := Function.update (Function.update d.dir source none) target (d.dir source)
    older := d.dirs }

def syncDir : Disk γ := { d with older := [] }

/-- A loss of power brings back one of the directories, and leaves anything in a file that is not safe. -/
def crash (dir : String → Option Nat) (garbage : Nat → γ) : Disk γ :=
  { d with
    inode := fun i => if (d.inode i).synced then d.inode i else ⟨garbage i, true⟩
    dir
    older := [] }

theorem create_dir (name : String) (empty : γ) : ∃ k, (d.create name empty).dir name = some k := by
  unfold create
  cases hk : d.dir name with
  | some k => exact ⟨k, hk⟩
  | none => exact ⟨d.nextInode, Function.update_self ..⟩

variable {d} in
theorem write_dir {name : String} {k : Nat} (hk : d.dir name = some k) (content : γ) :
    ((d.write name content).dir name).map (d.write name content).inode = some ⟨content, false⟩ := by
  unfold write
  rw [hk]
  simp [hk]

variable {d} in
theorem sync_dir {name : String} {c : γ} {b : Bool} (h : (d.dir name).map d.inode = some ⟨c, b⟩) :
    ((d.sync name).dir name).map (d.sync name).inode = some ⟨c, true⟩ := by
  obtain ⟨k, hk, hinode⟩ := Option.map_eq_some_iff.1 h
  unfold sync
  rw [hk]
  simp [hk, hinode]

/-- In whatever directory comes back, a name has no file, or one with safe contents, of this kind; the file is not
the one that is written to under another name. -/
structure Keeps (name temp : String) (P : Option γ → Prop) : Prop where
  safe : ∀ D ∈ d.dirs, ∃ c, P c ∧ (D name).map d.inode = c.map (⟨·, true⟩)
  apart : ∀ D ∈ d.dirs, ∀ i, D name = some i → D temp ≠ some i
  untouched : ∀ D ∈ d.dirs, ∀ i, D name = some i → d.dir temp ≠ some i
  bounded : ∀ D ∈ d.dirs, ∀ f i, D f = some i → i < d.nextInode

variable {d} {name temp : String} {P Q : Option γ → Prop}

theorem Keeps.mono (h : d.Keeps name temp P) (hPQ : ∀ c, P c → Q c) : d.Keeps name temp Q where
  safe D hD := by
    obtain ⟨c, hc, heq⟩ := h.safe D hD
    exact ⟨c, hPQ c hc, heq⟩
  apart := h.apart
  untouched := h.untouched
  bounded := h.bounded

theorem keeps_blank (name temp : String) (content : γ) :
    (blank content).Keeps name temp fun c => c = (blank content).read name := by
  have hnone : ∀ D ∈ (blank content).dirs, ∀ f, D f = none := by
    intro D hD f
    obtain rfl := List.mem_singleton.1 hD
    rfl
  constructor
  · intro D hD
    exact ⟨none, rfl, by rw [hnone D hD name]; rfl⟩
  · intro D hD i hi
    exact nomatch (hnone D hD name).symm.trans hi
  · intro D hD i hi
    exact nomatch (hnone D hD name).symm.trans hi
  · intro D hD f i hi
    exact nomatch (hnone D hD f).symm.trans hi

theorem Keeps.read (h : d.Keeps name temp P) : P (d.read name) := by
  obtain ⟨c, hc, heq⟩ := h.safe d.dir (List.mem_cons_self ..)
  have hread : d.read name = c := by
    have hcontent := congrArg (Option.map Inode.content) heq
    rw [Option.map_map, Option.map_map] at hcontent
    exact hcontent.trans (by cases c <;> rfl)
  rw [hread]
  exact hc

theorem Keeps.touch (h : d.Keeps name temp P) {k : Nat} (hk : d.dir temp = some k) (file : Inode γ) :
    ({ d with inode := Function.update d.inode k file } : Disk γ).Keeps name temp P where
  safe D hD := by
    obtain ⟨c, hc, heq⟩ := h.safe D hD
    refine ⟨c, hc, ?_⟩
    rw [← heq]
    cases hD' : D name with
    | none => rfl
    | some i =>
      have hne : i ≠ k := by
        rintro rfl
        exact h.untouched D hD i hD' hk
      simp only [Option.map_some, Function.update_of_ne hne]
  apart := h.apart
  untouched := h.untouched
  bounded := h.bounded

theorem Keeps.write (h : d.Keeps name temp P) (content : γ) : (d.write temp content).Keeps name temp P := by
  unfold Disk.write
  cases hk : d.dir temp with
  | none => exact h
  | some k => exact h.touch hk _

theorem Keeps.sync (h : d.Keeps name temp P) : (d.sync temp).Keeps name temp P := by
  unfold Disk.sync
  cases hk : d.dir temp with
  | none => exact h
  | some k => exact h.touch hk _

theorem Keeps.create (h : d.Keeps name temp P) (hne : name ≠ temp) (empty : γ) :
    (d.create temp empty).Keeps name temp P := by
  unfold Disk.create
  cases hk : d.dir temp with
  | some k => exact h.touch hk _
  | none =>
    have hfresh : ∀ D ∈ d.dirs, ∀ f i, D f = some i → i ≠ d.nextInode := by
      intro D hD f i hi
      have := h.bounded D hD f i hi
      omega
    have hnew : ∀ D ∈ Function.update d.dir temp (some d.nextInode) :: d.dirs, ∃ D' ∈ d.dirs, D name = D' name := by
      intro D hD
      rcases List.mem_cons.1 hD with rfl | hold
      · exact ⟨d.dir, List.mem_cons_self .., Function.update_of_ne hne _ _⟩
      · exact ⟨D, hold, rfl⟩
    constructor
    · intro D hD
      obtain ⟨D', hD', hsame⟩ := hnew D hD
      obtain ⟨c, hc, heq⟩ := h.safe D' hD'
      refine ⟨c, hc, ?_⟩
      rw [← heq, hsame]
      cases hi : D' name with
      | none => rfl
      | some i => simp only [Option.map_some, Function.update_of_ne (hfresh D' hD' name i hi)]
    · intro D hD i hi
      rcases List.mem_cons.1 hD with rfl | hold
      · have hi : Function.update d.dir temp (some d.nextInode) name = some i := hi
        show Function.update d.dir temp (some d.nextInode) temp ≠ some i
        rw [Function.update_of_ne hne] at hi
        rw [Function.update_self]
        intro hno
        exact hfresh d.dir (List.mem_cons_self ..) name i hi (Option.some.inj hno).symm
      · exact h.apart D hold i hi
    · intro D hD i hi
      obtain ⟨D', hD', hsame⟩ := hnew D hD
      show Function.update d.dir temp (some d.nextInode) temp ≠ some i
      rw [Function.update_self]
      intro hno
      exact hfresh D' hD' name i (hsame ▸ hi) (Option.some.inj hno).symm
    · intro D hD f i hi
      show i < d.nextInode + 1
      rcases List.mem_cons.1 hD with rfl | hold
      · have hi : Function.update d.dir temp (some d.nextInode) f = some i := hi
        rw [Function.update_apply] at hi
        split at hi
        · obtain rfl := Option.some.inj hi
          omega
        · have := h.bounded d.dir (List.mem_cons_self ..) f i hi
          omega
      · have := h.bounded D hold f i hi
        omega

/-- The file under the other name takes over, if it is safe. -/
theorem Keeps.rename (h : d.Keeps name temp P) (hne : name ≠ temp) {c : γ}
    (hsafe : (d.dir temp).map d.inode = some ⟨c, true⟩) :
    (d.rename temp name).Keeps name temp (fun c' => P c' ∨ c' = some c) ∧ (d.rename temp name).read name = some c := by
  obtain ⟨k, hk, hinode⟩ := Option.map_eq_some_iff.1 hsafe
  have hname : (d.rename temp name).dir name = some k := by
    show Function.update (Function.update d.dir temp none) name (d.dir temp) name = some k
    rw [Function.update_self, hk]
  have htemp : (d.rename temp name).dir temp = none := by
    show Function.update (Function.update d.dir temp none) name (d.dir temp) temp = none
    rw [Function.update_of_ne hne.symm, Function.update_self]
  refine ⟨⟨?_, ?_, ?_, ?_⟩, ?_⟩
  · intro D hD
    rcases List.mem_cons.1 hD with rfl | hold
    · refine ⟨some c, .inr rfl, ?_⟩
      rw [hname]
      exact congrArg some hinode
    · obtain ⟨c', hc', heq⟩ := h.safe D hold
      exact ⟨c', .inl hc', heq⟩
  · intro D hD i hi
    rcases List.mem_cons.1 hD with rfl | hold
    · rw [htemp]
      exact fun h => nomatch h
    · exact h.apart D hold i hi
  · intro D _ i _
    rw [htemp]
    exact fun h => nomatch h
  · intro D hD f i hi
    show i < d.nextInode
    rcases List.mem_cons.1 hD with rfl | hold
    · have hmem : d.dir ∈ d.dirs := List.mem_cons_self ..
      have hi : Function.update (Function.update d.dir temp none) name (d.dir temp) f = some i := hi
      rw [Function.update_apply] at hi
      split at hi
      · exact h.bounded d.dir hmem temp i hi
      · rw [Function.update_apply] at hi
        split at hi
        · exact nomatch hi
        · exact h.bounded d.dir hmem f i hi
    · exact h.bounded D hold f i hi
  · unfold Disk.read
    rw [hname]
    exact congrArg (fun f : Inode γ => some f.content) hinode

/-- With the directory safe too, what a reader finds is what there is. -/
theorem Keeps.syncDir (h : d.Keeps name temp P) : d.syncDir.Keeps name temp (fun c => c = d.read name) := by
  have hmem : ∀ D ∈ d.syncDir.dirs, D = d.dir ∧ d.dir ∈ d.dirs := by
    intro D hD
    exact ⟨List.mem_singleton.1 hD, List.mem_cons_self ..⟩
  constructor
  · intro D hD
    obtain ⟨rfl, hlive⟩ := hmem D hD
    obtain ⟨c, -, heq⟩ := h.safe d.dir hlive
    refine ⟨d.read name, rfl, ?_⟩
    have hread : d.read name = c := by
      have hcontent := congrArg (Option.map Inode.content) heq
      rw [Option.map_map, Option.map_map] at hcontent
      exact hcontent.trans (by cases c <;> rfl)
    rw [hread]
    exact heq
  · intro D hD
    obtain ⟨rfl, hlive⟩ := hmem D hD
    exact h.apart d.dir hlive
  · intro D hD
    obtain ⟨rfl, hlive⟩ := hmem D hD
    exact h.untouched d.dir hlive
  · intro D hD
    obtain ⟨rfl, hlive⟩ := hmem D hD
    exact h.bounded d.dir hlive

/-- After a loss of power a name has what one of the directories had. -/
theorem Keeps.crash (h : d.Keeps name temp P) {dir : String → Option Nat} (hdir : dir ∈ d.dirs) (garbage : Nat → γ) :
    (d.crash dir garbage).Keeps name temp (fun c => c = (d.crash dir garbage).read name) ∧
      P ((d.crash dir garbage).read name) := by
  have hkeeps : (d.crash dir garbage).Keeps name temp P := by
    constructor
    · intro D hD
      obtain rfl := List.mem_singleton.1 hD
      obtain ⟨c, hc, heq⟩ := h.safe D hdir
      refine ⟨c, hc, ?_⟩
      cases hi : D name with
      | none =>
        rw [hi] at heq
        exact heq
      | some i =>
        rw [hi] at heq
        cases c with
        | none => cases heq
        | some c =>
          have hsafe : d.inode i = ⟨c, true⟩ := Option.some.inj heq
          simp [Disk.crash, hsafe]
    · intro D hD
      obtain rfl := List.mem_singleton.1 hD
      exact h.apart D hdir
    · intro D hD
      obtain rfl := List.mem_singleton.1 hD
      exact h.apart D hdir
    · intro D hD
      obtain rfl := List.mem_singleton.1 hD
      exact h.bounded D hdir
  exact ⟨hkeeps.syncDir, hkeeps.read⟩

end Disk
