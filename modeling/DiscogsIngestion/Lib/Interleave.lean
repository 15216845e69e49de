import Mathlib.Data.List.Nodup
import Mathlib.Data.List.Perm.Basic

/-!
# Interleavings

Programs that run side by side, each under a key of its own.

* `own`, `Interleaves` : what one of them does in a trace, and the traces in which each does what its program says;
* `oneByOne`, `interleaves_oneByOne` : the trace in which one program runs after another;
* `Interleaves.perm` : two interleavings of the same programs take the same steps;
* `component_run` : what only the steps under one key change depends on its program alone;
* `register_run`, `Interleaves.register` : a register that every program leaves at one value is left at that value.
-/

namespace Interleave

variable {κ ω : Type} [DecidableEq κ] {programs : κ → List ω} {trace trace' : List (κ × ω)} {k : κ} {o : ω}

/-- What the program under this key does in a trace. -/
def own (k : κ) (trace : List (κ × ω)) : List ω := trace.filterMap fun e => if e.1 = k then some e.2 else none

/-- Each program does what it says, in its order. -/
def Interleaves (programs : κ → List ω) (trace : List (κ × ω)) : Prop := ∀ k, own k trace = programs k

def oneByOne (keys : List κ) (programs : κ → List ω) : List (κ × ω) := keys.flatMap fun k => (programs k).map (k, ·)

theorem own_cons (k : κ) (e : κ × ω) : own k (e :: trace) = if e.1 = k then e.2 :: own k trace else own k trace := by
  unfold own
  rw [List.filterMap_cons]
  split_ifs <;> rfl

theorem own_append (k : κ) (trace trace' : List (κ × ω)) : own k (trace ++ trace') = own k trace ++ own k trace' := by
  unfold own
  rw [List.filterMap_append]

theorem mem_own : o ∈ own k trace ↔ (k, o) ∈ trace := by
  unfold own
  rw [List.mem_filterMap]
  constructor
  · rintro ⟨⟨k', o'⟩, he, heq⟩
    split_ifs at heq with hk
    subst hk
    obtain rfl := Option.some.inj heq
    exact he
  · intro he
    exact ⟨(k, o), he, if_pos rfl⟩

/-! ## One by one -/

theorem own_program (k k' : κ) (program : List ω) :
    own k (program.map (k', ·)) = if k' = k then program else [] := by
  induction program with
  | nil => simp [own]
  | cons o rest ih =>
    rw [List.map_cons, own_cons, ih]
    dsimp only
    split_ifs <;> rfl

theorem own_oneByOne (keys : List κ) (programs : κ → List ω) (hnodup : keys.Nodup) (k : κ) :
    own k (oneByOne keys programs) = if k ∈ keys then programs k else [] := by
  unfold oneByOne
  induction keys with
  | nil => rfl
  | cons k' rest ih =>
    obtain ⟨hnew, hrest⟩ := List.nodup_cons.1 hnodup
    rw [List.flatMap_cons, own_append, own_program, ih hrest]
    by_cases hk : k' = k
    · subst hk
      simp [hnew]
    · have hk' : k ≠ k' := fun h => hk h.symm
      simp [hk, hk']

theorem interleaves_oneByOne {keys : List κ} (hnodup : keys.Nodup) (hrest : ∀ k, k ∉ keys → programs k = []) :
    Interleaves programs (oneByOne keys programs) := by
  intro k
  rw [own_oneByOne keys programs hnodup]
  split_ifs with hk
  · rfl
  · exact (hrest k hk).symm

/-! ## All interleavings of the same programs -/

theorem interleaves_of_keys {keys : List κ} (hrest : ∀ k, k ∉ keys → programs k = [])
    (htrace : ∀ e ∈ trace, e.1 ∈ keys) (hkeys : ∀ k ∈ keys, own k trace = programs k) : Interleaves programs trace := by
  intro k
  by_cases hk : k ∈ keys
  · exact hkeys k hk
  · rw [hrest k hk, List.eq_nil_iff_forall_not_mem]
    intro o ho
    exact hk (htrace _ (mem_own.1 ho))

theorem Interleaves.mem_iff (h : Interleaves programs trace) : (k, o) ∈ trace ↔ o ∈ programs k := by
  rw [← mem_own, h k]

theorem count_own [DecidableEq ω] (k : κ) (o : ω) (trace : List (κ × ω)) :
    (own k trace).count o = trace.count (k, o) := by
  induction trace with
  | nil => rfl
  | cons e rest ih =>
    obtain ⟨k', o'⟩ := e
    rw [own_cons, List.count_cons, ← ih]
    by_cases hk : k' = k
    · subst hk
      simp [List.count_cons]
    · simp [hk]

/-- Two interleavings of the same programs take the same steps. -/
theorem Interleaves.perm (h : Interleaves programs trace) (h' : Interleaves programs trace') :
    trace.Perm trace' := by
  classical
  rw [List.perm_iff_count]
  rintro ⟨k, o⟩
  rw [← count_own, ← count_own, h k, h' k]

/-- What a program has done before a step, and what it has left. -/
theorem Interleaves.split {before after : List (κ × ω)} (h : Interleaves programs trace)
    (htrace : trace = before ++ (k, o) :: after) : programs k = own k before ++ o :: own k after := by
  rw [← h k, htrace, own_append, own_cons, if_pos rfl]

/-! ## Runs -/

section Run

variable {σ τ ε : Type} {step : σ → ε → σ} {label : ε → κ × ω}

/-- A part of the state that only the steps under one key change depends on the program under that key. -/
theorem component_run {part : σ → τ} {partStep : τ → ω → τ}
    (hown : ∀ s e, (label e).1 = k → part (step s e) = partStep (part s) (label e).2)
    (hother : ∀ s e, (label e).1 ≠ k → part (step s e) = part s) (s : σ) (events : List ε) :
    part (events.foldl step s) = (own k (events.map label)).foldl partStep (part s) := by
  induction events generalizing s with
  | nil => rfl
  | cons e rest ih =>
    rw [List.foldl_cons, ih, List.map_cons, own_cons]
    by_cases hk : (label e).1 = k
    · rw [if_pos hk, List.foldl_cons, hown s e hk]
    · rw [if_neg hk, hother s e hk]

omit [DecidableEq κ] in
/-- A register holds what was written to it last. -/
theorem register_run {register : σ → τ} {write : κ × ω → Option τ}
    (hstep : ∀ s e, register (step s e) = (write (label e)).getD (register s)) (s : σ) (events : List ε) :
    register (events.foldl step s) = (((events.map label).filterMap write).getLast?).getD (register s) := by
  induction events generalizing s with
  | nil => rfl
  | cons e rest ih =>
    rw [List.foldl_cons, ih, hstep, List.map_cons, List.filterMap_cons]
    cases write (label e) with
    | none => rfl
    | some v =>
      dsimp only
      rw [List.getLast?_cons]
      cases ((rest.map label).filterMap write).getLast? <;> rfl

end Run

/-- Whatever a program writes, it leaves this value. -/
def Leaves {τ : Type} (write : κ × ω → Option τ) (v : τ) (k : κ) (program : List ω) : Prop :=
  ∀ before o after w, program = before ++ o :: after → write (k, o) = some w →
    w = v ∨ ∃ o' ∈ after, (write (k, o')).isSome = true

/-- When every program leaves the same value, that is what every interleaving of them leaves. -/
theorem Interleaves.register {τ : Type} {write : κ × ω → Option τ} {v w : τ} (h : Interleaves programs trace)
    (hleaves : ∀ k, Leaves write v k (programs k)) (hlast : (trace.filterMap write).getLast? = some w) : w = v := by
  obtain ⟨front, hfront⟩ := List.getLast?_eq_some_iff.1 hlast
  obtain ⟨before, last, hbefore, -, hlast⟩ := List.filterMap_eq_append_iff.1 hfront
  obtain ⟨skipped, ⟨k, o⟩, after, hsplit, hskipped, hwrite, hnone⟩ := List.filterMap_eq_cons_iff.1 hlast
  have htrace : trace = (before ++ skipped) ++ (k, o) :: after := by rw [hbefore, hsplit, List.append_assoc]
  obtain hv | ⟨o', ho', hsome⟩ := hleaves k _ o _ w (h.split htrace) hwrite
  · exact hv
  · have hno : write (k, o') = none := List.filterMap_eq_nil_iff.1 hnone _ (mem_own.1 ho')
    rw [hno] at hsome
    exact absurd hsome Bool.false_ne_true

end Interleave
