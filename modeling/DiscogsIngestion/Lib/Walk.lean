import Mathlib.Data.List.ReduceOption

/-!
# Walks along a path

A path is taken from a place step by step. A step may lead to several places, or it may not be possible.

* `places` : where a walk comes to when every step is taken from all places at once;
* `branches` : what becomes of each branch of the walk by itself;
* `places_eq` : the places are those of the branches that come to the end of the path;
* `mem_branches_cons` : the branches behind the first step.
-/

namespace Walk

variable {κ σ : Type} (step : κ → σ → Option (List σ)) {path : List κ} {k : κ} {s : σ}

def advance (places : List σ) (k : κ) : List σ := places.flatMap fun s => (step k s).getD []

/-- The places at the end of the path. -/
def places (path : List κ) (s : σ) : List σ := path.foldl (advance step) [s]

/-- The branches of a walk: the place a branch comes to, or none when a step on it is not possible. -/
def branches : List κ → σ → List (Option σ)
  | [], s => [some s]
  | k :: path, s =>
    match step k s with
    | none => [none]
    | some ss => ss.flatMap (branches path)

theorem advance_append (ss ss' : List σ) (k : κ) :
    advance step (ss ++ ss') k = advance step ss k ++ advance step ss' k := by
  unfold advance
  rw [List.flatMap_append]

theorem foldl_advance_append (path : List κ) (ss ss' : List σ) :
    path.foldl (advance step) (ss ++ ss') = path.foldl (advance step) ss ++ path.foldl (advance step) ss' := by
  induction path generalizing ss ss' with
  | nil => rfl
  | cons k path ih => rw [List.foldl_cons, List.foldl_cons, List.foldl_cons, advance_append, ih]

theorem foldl_advance (path : List κ) (ss : List σ) :
    path.foldl (advance step) ss = ss.flatMap (places step path) := by
  induction ss with
  | nil =>
    induction path with
    | nil => rfl
    | cons k path ih => exact ih
  | cons s ss ih =>
    rw [← List.singleton_append, foldl_advance_append, ih, List.singleton_append, List.flatMap_cons]
    rfl

theorem places_cons (k : κ) (path : List κ) (s : σ) :
    places step (k :: path) s = ((step k s).getD []).flatMap (places step path) := by
  unfold places
  rw [List.foldl_cons, foldl_advance]
  unfold advance
  rw [List.flatMap_cons, List.flatMap_nil, List.append_nil]
  rfl

theorem reduceOption_flatMap {τ : Type} (f : σ → List (Option τ)) (ss : List σ) :
    (ss.flatMap f).reduceOption = ss.flatMap fun s => (f s).reduceOption := by
  induction ss with
  | nil => rfl
  | cons s ss ih => rw [List.flatMap_cons, List.flatMap_cons, List.reduceOption_append, ih]

theorem places_eq (path : List κ) (s : σ) : places step path s = (branches step path s).reduceOption := by
  induction path generalizing s with
  | nil => rfl
  | cons k path ih =>
    rw [places_cons]
    unfold branches
    cases step k s with
    | none => rfl
    | some ss =>
      dsimp only [Option.getD_some]
      rw [reduceOption_flatMap]
      exact congrArg ss.flatMap (funext ih)

theorem mem_places {t : σ} : t ∈ places step path s ↔ some t ∈ branches step path s := by
  rw [places_eq, List.reduceOption_mem_iff]

theorem mem_branches_cons {b : Option σ} : b ∈ branches step (k :: path) s ↔
    (step k s = none ∧ b = none) ∨ ∃ ss, step k s = some ss ∧ ∃ s' ∈ ss, b ∈ branches step path s' := by
  cases hstep : step k s with
  | none => simp [branches, hstep]
  | some ss => simp [branches, hstep]

end Walk
