import Mathlib.Logic.Function.Basic

/-!
# Machines with partial steps

A machine takes a step when the chosen action is enabled in its state.

* `run` : the state after a list of actions, if each is enabled in turn;
* `Reach` : the states reached by runs whose every step is allowed;
* `Reach.invariant` : what holds at first and is kept by every such step holds in every such state;
* `Reach.of_run`, `exists_reach` : a run that can be evaluated reaches its last state;
* `history`, `Reach.of_history` : a machine with a history variable, and what it reaches;
* `split_append` : where an event of a growing log stands.
-/

namespace Machine

variable {σ α : Type} (step : σ → α → Option σ)

/-- The state after a list of actions. -/
def run : σ → List α → Option σ
  | s, [] => some s
  | s, a :: as =>
    match step s a with
    | some s' => run s' as
    | none => none

/-- The states reached from `init` by steps that satisfy `ok`. -/
inductive Reach (ok : σ → α → Prop) (init : σ) : σ → Prop where
  | init : Reach ok init init
  | step {s s' : σ} {a : α} : Reach ok init s → ok s a → step s a = some s' → Reach ok init s'

def always : σ → α → Prop := fun _ _ => True

variable {step}

theorem Reach.invariant {ok : σ → α → Prop} {init s : σ} {I : σ → Prop} (h : Reach step ok init s)
    (hinit : I init) (hstep : ∀ s a s', I s → ok s a → step s a = some s' → I s') : I s := by
  induction h with
  | init => exact hinit
  | step _ hok hs ih => exact hstep _ _ _ ih hok hs

/-- An invariant may rely on another one that is already known. -/
theorem Reach.invariant_of {ok : σ → α → Prop} {init s : σ} {K I : σ → Prop} (h : Reach step ok init s)
    (hK : ∀ s, Reach step ok init s → K s) (hinit : I init)
    (hstep : ∀ s a s', K s → I s → ok s a → step s a = some s' → I s') : I s := by
  induction h with
  | init => exact hinit
  | step hr hok hs ih => exact hstep _ _ _ (hK _ hr) ih hok hs

theorem Reach.mono {ok ok' : σ → α → Prop} {init s : σ} (h : Reach step ok init s)
    (hok : ∀ s a, ok s a → ok' s a) : Reach step ok' init s := by
  induction h with
  | init => exact .init
  | step _ ho hs ih => exact .step ih (hok _ _ ho) hs

theorem Reach.trans {ok : σ → α → Prop} {init s s' : σ} (h : Reach step ok init s) (h' : Reach step ok s s') :
    Reach step ok init s' := by
  induction h' with
  | init => exact h
  | step _ hok hs ih => exact .step ih hok hs

theorem Reach.single {init s : σ} {a : α} (h : step init a = some s) : Reach step always init s :=
  .step .init trivial h

theorem run_cons {s s' : σ} {a : α} {as : List α} (h : run step s (a :: as) = some s') :
    ∃ mid, step s a = some mid ∧ run step mid as = some s' := by
  cases hs : step s a with
  | none => simp [run, hs] at h
  | some mid => exact ⟨mid, rfl, by simpa [run, hs] using h⟩

/-- A machine whose every step is a run of another one reaches nothing else. -/
theorem Reach.project {τ β : Type} {step' : τ → β → Option τ} {ok : σ → α → Prop} {init s : σ} (f : σ → τ)
    (h : Reach step ok init s)
    (hstep : ∀ s a s', step s a = some s' → Reach step' always (f s) (f s')) : Reach step' always (f init) (f s) := by
  induction h with
  | init => exact .init
  | step _ _ hs ih => exact ih.trans (hstep _ _ _ hs)

theorem Reach.append_run {ok : σ → α → Prop} {init s s' : σ} (h : Reach step ok init s) (as : List α)
    (hok : ∀ a ∈ as, ∀ s, ok s a) (hrun : run step s as = some s') : Reach step ok init s' := by
  induction as generalizing s with
  | nil =>
    obtain rfl := Option.some.inj hrun
    exact h
  | cons a as ih =>
    obtain ⟨mid, hs, hrest⟩ := run_cons hrun
    exact ih (.step h (hok a (by simp) s) hs) (fun b hb => hok b (by simp [hb])) hrest

theorem Reach.of_run {init s : σ} (as : List α) (hrun : run step init as = some s) :
    Reach step always init s := Reach.init.append_run as (fun _ _ _ => trivial) hrun

/-- The machine that takes allowed steps alone. -/
def guarded (ok : σ → α → Prop) [∀ s a, Decidable (ok s a)] (step : σ → α → Option σ) (s : σ) (a : α) : Option σ :=
  if ok s a then step s a else none

theorem Reach.append_guarded {ok : σ → α → Prop} [∀ s a, Decidable (ok s a)] {init s s' : σ}
    (h : Reach step ok init s) (as : List α) (hrun : run (guarded ok step) s as = some s') :
    Reach step ok init s' := by
  induction as generalizing s with
  | nil =>
    obtain rfl := Option.some.inj hrun
    exact h
  | cons a as ih =>
    obtain ⟨mid, hs, hrest⟩ := run_cons hrun
    unfold guarded at hs
    split at hs
    · next hok => exact ih (.step h hok hs) hrest
    · exact nomatch hs

/-- A run of allowed steps into a state with this property, found by evaluation. -/
theorem exists_reach {ok : σ → α → Prop} [∀ s a, Decidable (ok s a)] {init : σ} {p : σ → Bool} (as : List α)
    (h : (run (guarded ok step) init as).any p = true) : ∃ s, Reach step ok init s ∧ p s = true := by
  cases hrun : run (guarded ok step) init as with
  | none => simp [hrun] at h
  | some s => exact ⟨s, Reach.init.append_guarded as hrun, by simpa [hrun] using h⟩

instance (s : σ) (a : α) : Decidable (always s a) := .isTrue trivial

/-! ## History -/

/-- The machine that also keeps a history of its steps. -/
def history {γ : Type} (note : γ → σ → α → γ) (step : σ → α → Option σ) (x : σ × γ) (a : α) : Option (σ × γ) :=
  (step x.1 a).map fun s' => (s', note x.2 x.1 a)

theorem history_step {γ : Type} {note : γ → σ → α → γ} {x x' : σ × γ} {a : α}
    (h : history note step x a = some x') : step x.1 a = some x'.1 ∧ x'.2 = note x.2 x.1 a := by
  obtain ⟨s', hs, rfl⟩ := Option.map_eq_some_iff.1 h
  exact ⟨hs, rfl⟩

/-- A history adds no states. -/
theorem Reach.of_history {γ : Type} {note : γ → σ → α → γ} {ok : σ × γ → α → Prop} {x₀ x : σ × γ}
    (h : Reach (history note step) ok x₀ x) : Reach step always x₀.1 x.1 := by
  refine h.invariant (I := fun x => Reach step always x₀.1 x.1) .init ?_
  intro x a x' hI _ hs
  exact .step hI trivial (history_step hs).1

/-! ## Logs -/

theorem split_append {β : Type} {log events pre post : List β} {e : β} (h : log ++ events = pre ++ e :: post) :
    (∃ rest, log = pre ++ e :: rest ∧ post = rest ++ events) ∨ ∃ mid, pre = log ++ mid ∧ events = mid ++ e :: post := by
  obtain hmid | ⟨rest, hlog, hrest⟩ := List.append_eq_append_iff.1 h
  · exact .inr hmid
  · cases rest with
    | nil => exact .inr ⟨[], by simpa using hlog.symm, by simpa using hrest.symm⟩
    | cons e' rest =>
      obtain ⟨rfl, hpost⟩ := List.cons.inj hrest
      exact .inl ⟨rest, hlog, hpost⟩

end Machine
