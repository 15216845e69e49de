import DiscogsIngestion.Lib.Disk
import DiscogsIngestion.Lib.Machine
import DiscogsIngestion.Marker.Encoding

/-!
# Saving the state marker

Write a temporary file, synchronize it, rename it over the marker, synchronize the directory. Any step may fail, and
the machine may lose power between any two.

* `fileName`, `tmpName` : the marker file of a version and its temporary file;
* `load` : what is read back, where anything unreadable is no marker;
* `Phase`, `Action`, `step` : one writer that saves one marker after the other;
* `Lossless`, `save_lossless` : what is found is the last marker saved, or the one that was being saved.
-/

namespace DiscogsIngestion

namespace StateMarker

/-! ## Files -/

/-- The name without what stands behind its last dot. A dot that the name begins with does not count. -/
def fileStem (name : List Char) : List Char :=
  match name.reverse.dropWhile (· ≠ '.') with
  | _ :: stem => if stem = [] then name else stem.reverse
  | [] => name

def withExtension (name extension : List Char) : List Char := fileStem name ++ '.' :: extension

def fileName (version : String) : String := ".extraction_status_" ++ version ++ ".json"

def tmpName (version : String) : String := String.ofList (withExtension (fileName version).toList "json.tmp".toList)

theorem fileStem_append {stem extension : List Char} (hstem : stem ≠ []) (hdot : '.' ∉ extension) :
    fileStem (stem ++ '.' :: extension) = stem := by
  have hdrop : (stem ++ '.' :: extension).reverse.dropWhile (· ≠ '.') = '.' :: stem.reverse := by
    rw [List.reverse_append, List.reverse_cons, List.append_assoc, List.dropWhile_append_of_pos]
    · rfl
    · intro c hc
      have hne : c ≠ '.' := by
        rintro rfl
        exact hdot (List.mem_reverse.1 hc)
      simpa using hne
  unfold fileStem
  rw [hdrop]
  simp [hstem]

theorem tmpName_eq (version : String) : tmpName version = fileName version ++ ".tmp" := by
  have hname : (fileName version).toList = (".extraction_status_" ++ version).toList ++ '.' :: "json".toList := by
    unfold fileName
    rw [String.toList_append]
    rfl
  have hstem : (".extraction_status_" ++ version).toList ≠ [] := by
    rw [String.toList_append]
    exact List.append_ne_nil_of_left_ne_nil (by decide) _
  apply String.toList_injective
  unfold tmpName withExtension
  rw [String.toList_ofList, String.toList_append, hname, fileStem_append hstem (by decide), List.append_assoc]
  rfl

theorem fileName_ne_tmpName (version : String) : fileName version ≠ tmpName version := by
  intro h
  have hlength := congrArg String.length (h.trans (tmpName_eq version))
  rw [String.length_append] at hlength
  have htmp : ".tmp".length = 4 := by decide
  omega

/-! ## Loading -/

abbrev Text := List (Token Primitive)

def parse (text : Text) : Option StateMarker :=
  match Json.parse text with
  | some j => fromJson j
  | none => none

/-- Load the state marker from its file; what cannot be read or parsed is no marker. -/
def load (version : String) (disk : Disk Text) : Option StateMarker := (disk.read (fileName version)).bind parse

theorem parse_tokens (m : StateMarker) : parse m.toJson.tokens = some m := by
  unfold parse
  rw [Json.parse_tokens]
  exact fromJson_toJson m

end StateMarker

/-! ## Saving -/

namespace Save

open StateMarker

structure Call where
  marker : StateMarker
  now : DateTime

/-- The marker that a call writes. -/
def Call.stamped (c : Call) : StateMarker := { c.marker with lastUpdated := c.now }

def Call.json (c : Call) : Text := c.stamped.toJson.tokens

inductive Phase where
  | idle
  | serialized (c : Call)
  | created (c : Call)
  | written (c : Call)
  | synced (c : Call)
  | renamed (c : Call)

def Phase.call : Phase → Option Call
  | idle => none
  | serialized c | created c | written c | synced c | renamed c => some c

/-- How a call ended, or what was found after a loss of power. -/
inductive Outcome where
  | ok (c : Call)
  | err (c : Call)
  | crash (saving : Option Call) (found : Option StateMarker)

structure State where
  disk : Disk Text
  phase : Phase
  history : List Outcome

inductive Action where
  | save (c : Call)
  | createTemp
  | writeTemp
  | syncTemp
  | rename
  | syncDir
  /-- The step that is due fails. What it leaves in the temporary file is of no kind in particular. -/
  | fail (left : Text)
  /-- The machine loses power: the number of directory changes that are lost, and what files that were not
  synchronized hold afterwards. -/
  | crash (lost : Nat) (garbage : Nat → Text)

def start (disk : Disk Text) : State := ⟨disk, .idle, []⟩

/-- One step of `save`, a failure of it, or a loss of power. -/
def step (version : String) (s : State) : Action → Option State
  | .save c =>
    match s.phase with
    | .idle => some { s with phase := .serialized c }
    | _ => none
  | .createTemp =>
    match s.phase with
    | .serialized c => some { s with disk := s.disk.create (tmpName version) [], phase := .created c }
    | _ => none
  | .writeTemp =>
    match s.phase with
    | .created c => some { s with disk := s.disk.write (tmpName version) c.json, phase := .written c }
    | _ => none
  | .syncTemp =>
    match s.phase with
    | .written c => some { s with disk := s.disk.sync (tmpName version), phase := .synced c }
    | _ => none
  | .rename =>
    match s.phase with
    | .synced c => some { s with disk := s.disk.rename (tmpName version) (fileName version), phase := .renamed c }
    | _ => none
  | .syncDir =>
    match s.phase with
    | .renamed c => some ⟨s.disk.syncDir, .idle, s.history ++ [.ok c]⟩
    | _ => none
  | .fail left =>
    match s.phase with
    | .serialized c | .synced c => some ⟨s.disk, .idle, s.history ++ [.err c]⟩
    | .created c | .written c => some ⟨s.disk.write (tmpName version) left, .idle, s.history ++ [.err c]⟩
    -- After the rename, errors of the directory are only logged.
    | .idle | .renamed _ => none
  | .crash lost garbage =>
    match s.disk.dirs[lost]? with
    | some dir =>
      let disk := s.disk.crash dir garbage
      some ⟨disk, .idle, s.history ++ [.crash s.phase.call (load version disk)]⟩
    | none => none

/-- The marker that there is after these outcomes. -/
def value (first : Option StateMarker) (history : List Outcome) : Option StateMarker :=
  history.foldl (fun current => fun
    | .ok c => some c.stamped
    | .err _ => current
    | .crash _ found => found) first

/-- The markers that may have been written in full. -/
def saves (history : List Outcome) : List Call :=
  history.filterMap fun
    | .ok c => some c
    | .err _ => none
    | .crash saving _ => saving

theorem value_append (first : Option StateMarker) (history : List Outcome) (o : Outcome) :
    value first (history ++ [o]) =
      match o with
      | .ok c => some c.stamped
      | .err _ => value first history
      | .crash _ found => found := by
  unfold value
  rw [List.foldl_append]
  cases o <;> rfl

/-- What a loss of power may bring back, and what a reader finds. -/
structure Lossless (version : String) (first : Option StateMarker) (s : State) : Prop where
  /-- A reader finds the last value, or the marker of the call that is running. -/
  load_eq : load version s.disk = value first s.history ∨
    ∃ c, s.phase.call = some c ∧ load version s.disk = some c.stamped
  /-- So does whoever comes after a loss of power. -/
  found_eq : ∀ pre saving found post, s.history = pre ++ .crash saving found :: post →
    found = value first pre ∨ ∃ c, saving = some c ∧ found = some c.stamped
  /-- Once a call has returned without an error, this is a marker that was saved. -/
  saved : ∀ pre post, s.history = pre ++ post → (∃ c, .ok c ∈ pre) →
    ∃ c ∈ saves pre, value first pre = some c.stamped

/-! ## The invariant -/

variable {version : String} {first : Option StateMarker} {s s' : State} {a : Action}

def Phase.Achieved (version : String) (disk : Disk Text) : Phase → Prop
  | idle | serialized _ => True
  | created _ => ∃ k, disk.dir (tmpName version) = some k
  | written c => (disk.dir (tmpName version)).map disk.inode = some ⟨c.json, false⟩
  | synced c => (disk.dir (tmpName version)).map disk.inode = some ⟨c.json, true⟩
  | renamed c => disk.read (fileName version) = some c.json

/-- The text of the marker file is that of the last value, or the rename has put another one in its place. -/
def Current (first : Option StateMarker) (s : State) (text : Option Text) : Prop :=
  text.bind parse = value first s.history ∨ ∃ c, s.phase = .renamed c ∧ text = some c.json

structure Ready (version : String) (first : Option StateMarker) (s : State) : Prop where
  keeps : s.disk.Keeps (fileName version) (tmpName version) (Current first s)
  achieved : s.phase.Achieved version s.disk

theorem Call.parse_json (c : Call) : parse c.json = some c.stamped := parse_tokens c.stamped

/-- Before the rename there is but the last value. -/
theorem Ready.old (h : Ready version first s) (hne : ∀ c, s.phase ≠ .renamed c) :
    s.disk.Keeps (fileName version) (tmpName version) fun text => text.bind parse = value first s.history :=
  h.keeps.mono fun _ hcurrent => hcurrent.resolve_right fun ⟨c, hphase, _⟩ => hne c hphase

theorem Ready.of_old {disk : Disk Text} {phase : Phase} {history : List Outcome}
    (hold : disk.Keeps (fileName version) (tmpName version) fun text => text.bind parse = value first history)
    (hachieved : phase.Achieved version disk) : Ready version first ⟨disk, phase, history⟩ :=
  ⟨hold.mono fun _ htext => .inl htext, hachieved⟩

theorem Current.load (h : Current first s (s.disk.read (fileName version))) :
    load version s.disk = value first s.history ∨
      ∃ c, s.phase.call = some c ∧ load version s.disk = some c.stamped := by
  rcases h with hvalue | ⟨c, hphase, htext⟩
  · exact .inl hvalue
  · refine .inr ⟨c, by rw [hphase]; rfl, ?_⟩
    unfold StateMarker.load
    rw [htext]
    exact c.parse_json

theorem step_crash {lost : Nat} {garbage : Nat → Text} (h : step version s (.crash lost garbage) = some s') :
    ∃ dir ∈ s.disk.dirs, s' = ⟨s.disk.crash dir garbage, .idle,
      s.history ++ [.crash s.phase.call (load version (s.disk.crash dir garbage))]⟩ := by
  simp only [step] at h
  split at h
  · next dir hdir => exact ⟨dir, List.mem_of_getElem? hdir, (Option.some.inj h).symm⟩
  · exact nomatch h

/-- Every step of a call, every failure and every loss of power leaves a marker in place. -/
theorem ready_step (hready : Ready version first s) (h : step version s a = some s') : Ready version first s' := by
  obtain ⟨disk, phase, history⟩ := s
  have hne := fileName_ne_tmpName version
  cases a with
  | save c =>
    cases phase with
    | idle =>
      obtain rfl := Option.some.inj h
      exact .of_old (hready.old (by simp)) trivial
    | _ => exact nomatch h
  | createTemp =>
    cases phase with
    | serialized c =>
      obtain rfl := Option.some.inj h
      exact .of_old ((hready.old (by simp)).create hne []) (disk.create_dir _ _)
    | _ => exact nomatch h
  | writeTemp =>
    cases phase with
    | created c =>
      obtain rfl := Option.some.inj h
      obtain ⟨k, hk⟩ := hready.achieved
      exact .of_old ((hready.old (by simp)).write c.json) (Disk.write_dir hk _)
    | _ => exact nomatch h
  | syncTemp =>
    cases phase with
    | written c =>
      obtain rfl := Option.some.inj h
      exact .of_old (hready.old (by simp)).sync (Disk.sync_dir hready.achieved)
    | _ => exact nomatch h
  | rename =>
    cases phase with
    | synced c =>
      obtain rfl := Option.some.inj h
      obtain ⟨hkeeps, hread⟩ := (hready.old (by simp)).rename hne hready.achieved
      refine ⟨hkeeps.mono fun text htext => ?_, hread⟩
      exact htext.imp_right fun hnew => ⟨c, rfl, hnew⟩
    | _ => exact nomatch h
  | syncDir =>
    cases phase with
    | renamed c =>
      obtain rfl := Option.some.inj h
      have hread : disk.read (fileName version) = some c.json := hready.achieved
      refine .of_old (hready.keeps.syncDir.mono fun text htext => ?_) trivial
      rw [value_append, htext, hread]
      exact c.parse_json
    | _ => exact nomatch h
  | fail left =>
    have hsame : ∀ c, value first (history ++ [.err c]) = value first history := fun c => value_append ..
    cases phase with
    | serialized c | synced c =>
      obtain rfl := Option.some.inj h
      refine .of_old ?_ trivial
      rw [hsame]
      exact hready.old (by simp)
    | created c | written c =>
      obtain rfl := Option.some.inj h
      refine .of_old ?_ trivial
      rw [hsame]
      exact (hready.old (by simp)).write left
    | idle | renamed c => exact nomatch h
  | crash lost garbage =>
    obtain ⟨dir, hdir, rfl⟩ := step_crash h
    refine .of_old ((hready.keeps.crash hdir garbage).1.mono fun text htext => ?_) trivial
    rw [value_append, htext]
    rfl

/-- What is found after a loss of power. -/
def Found (first : Option StateMarker) (history : List Outcome) : Prop :=
  ∀ pre saving found post, history = pre ++ .crash saving found :: post →
    found = value first pre ∨ ∃ c, saving = some c ∧ found = some c.stamped

theorem Found.append {history : List Outcome} {o : Outcome} (h : Found first history)
    (ho : ∀ saving found, o = .crash saving found →
      found = value first history ∨ ∃ c, saving = some c ∧ found = some c.stamped) :
    Found first (history ++ [o]) := by
  intro pre saving found post hsplit
  rcases Machine.split_append hsplit with ⟨rest, hold, -⟩ | ⟨mid, hpre, hnew⟩
  · exact h pre saving found rest hold
  · obtain ⟨rfl, ho', -⟩ : mid = [] ∧ o = .crash saving found ∧ post = [] := by
      cases mid with
      | nil => simpa using hnew
      | cons => simp at hnew
    rw [hpre, List.append_nil]
    exact ho saving found ho'

theorem found_step (hready : Ready version first s) (hfound : Found first s.history)
    (h : step version s a = some s') : Found first s'.history := by
  cases a with
  | crash lost garbage =>
    obtain ⟨dir, hdir, rfl⟩ := step_crash h
    refine hfound.append fun saving found ho => ?_
    obtain ⟨rfl, rfl⟩ := Outcome.crash.inj ho
    rcases (hready.keeps.crash hdir garbage).2 with hvalue | ⟨c, hphase, htext⟩
    · exact .inl hvalue
    · refine .inr ⟨c, by rw [hphase]; rfl, ?_⟩
      unfold StateMarker.load
      rw [htext]
      exact c.parse_json
  | syncDir | fail left =>
    simp only [step] at h
    split at h
    all_goals first
      | contradiction
      | obtain rfl := Option.some.inj h
        exact hfound.append fun _ _ ho => nomatch ho
  | save | createTemp | writeTemp | syncTemp | rename =>
    simp only [step] at h
    split at h
    · obtain rfl := Option.some.inj h
      exact hfound
    · exact nomatch h

/-- A call that returned without an error has left a marker, and only markers that were saved come after it. -/
theorem saved_of_found {history : List Outcome} (h : Found first history) (hok : ∃ c, .ok c ∈ history) :
    ∃ c ∈ saves history, value first history = some c.stamped := by
  induction history using List.reverseRecOn with
  | nil =>
    obtain ⟨c, hc⟩ := hok
    exact absurd hc List.not_mem_nil
  | append_singleton history o ih =>
    have hbefore : Found first history := fun pre saving found post hsplit =>
      h pre saving found (post ++ [o]) (by rw [hsplit]; simp)
    have hearlier : ∀ c, .ok c ∈ history ++ [o] → (∃ c, .ok c ∈ history) ∨ o = .ok c := by
      intro c hc
      rcases List.mem_append.1 hc with hc | hc
      · exact .inl ⟨c, hc⟩
      · exact .inr (List.mem_singleton.1 hc).symm
    have hsaves : ∀ c ∈ saves history, c ∈ saves (history ++ [o]) := by
      intro c hc
      unfold saves at hc ⊢
      rw [List.filterMap_append]
      exact List.mem_append_left _ hc
    obtain ⟨c₀, hc₀⟩ := hok
    rw [value_append]
    cases o with
    | ok c => exact ⟨c, by simp [saves], rfl⟩
    | err c =>
      obtain ⟨c', hc', hvalue⟩ := ih hbefore ((hearlier c₀ hc₀).resolve_right (by simp))
      exact ⟨c', hsaves c' hc', hvalue⟩
    | crash saving found =>
      obtain ⟨c', hc', hvalue⟩ := ih hbefore ((hearlier c₀ hc₀).resolve_right (by simp))
      rcases h history saving found [] rfl with hsame | ⟨c, rfl, hnew⟩
      · exact ⟨c', hsaves c' hc', hsame.trans hvalue⟩
      · exact ⟨c, by simp [saves], hnew⟩

/-- Whatever fails and whenever power is lost, a reader finds the last marker saved or the one that was being
saved. -/
theorem save_lossless (disk : Disk Text)
    (hdisk : disk.Keeps (fileName version) (tmpName version) fun text => text = disk.read (fileName version))
    (h : Machine.Reach (step version) Machine.always (start disk) s) : Lossless version (load version disk) s := by
  have hinv : Ready version (load version disk) s ∧ Found (load version disk) s.history := by
    refine h.invariant (I := fun s => Ready version (load version disk) s ∧ Found (load version disk) s.history)
      ⟨.of_old (hdisk.mono fun text htext => ?_) trivial, ?_⟩ ?_
    · rw [htext]
      rfl
    · intro pre saving found post hsplit
      exact absurd hsplit (by simp [start])
    · rintro s a s' ⟨hready, hfound⟩ - hs
      exact ⟨ready_step hready hs, found_step hready hfound hs⟩
  obtain ⟨hready, hfound⟩ := hinv
  refine ⟨hready.keeps.read.load, hfound, ?_⟩
  intro pre post hsplit hok
  refine saved_of_found (fun pre' saving found post' hpre => ?_) hok
  exact hfound pre' saving found (post' ++ post) (by rw [hsplit, hpre]; simp)

/-- A first marker, a second one that cannot be written, and a third whose rename is lost with the power. -/
def lostRename : List Action :=
  let call (now : DateTime) : Call := ⟨.new "20260101" 0, now⟩
  [.save (call 1), .createTemp, .writeTemp, .syncTemp, .rename, .syncDir,
    .save (call 2), .createTemp, .fail [.junk],
    .save (call 3), .createTemp, .writeTemp, .syncTemp, .rename, .crash 1 fun _ => []]

theorem lostRename_lossless : ∃ s, Machine.run (step "20260101") (start (.blank [])) lostRename = some s ∧
    s.history.length = 3 ∧ Lossless "20260101" none s := by
  have hrun : (Machine.run (step "20260101") (start (.blank [])) lostRename).any (·.history.length = 3) = true := by
    decide +kernel
  obtain ⟨s, hs, hlength⟩ := (Option.any_eq_true ..).1 hrun
  exact ⟨s, hs, of_decide_eq_true hlength, save_lossless (.blank []) (Disk.keeps_blank ..) (.of_run _ hs)⟩

end Save

end DiscogsIngestion
