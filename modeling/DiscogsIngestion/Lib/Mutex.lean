import Mathlib.Logic.Function.Basic

/-!
# Mutexes

Processes that go through a section one at a time.

* `Owned` : a process is in the section exactly if it holds the mutex;
* `Owned.unique` : so there is at most one;
* `Owned.enter`, `Owned.leave`, `Owned.move` : what one process may do;
* `Protocol`, `Lawful` : processes that share a state, and the steps that respect its mutex;
* `Inv`, `Inv.step` : what is known of the state and of each process is kept by lawful steps.
-/

namespace Mutex

variable {ι π : Type} [DecidableEq ι] {Inside : π → Prop} {lock : Option ι} {pc : ι → π} {i j : ι} {p : π}

/-- A process is in the section exactly if it holds the mutex. -/
def Owned (Inside : π → Prop) (lock : Option ι) (pc : ι → π) : Prop := ∀ i, Inside (pc i) ↔ lock = some i

omit [DecidableEq ι] in
theorem Owned.unique (h : Owned Inside lock pc) (hi : Inside (pc i)) (hj : Inside (pc j)) : i = j :=
  Option.some.inj (((h i).1 hi).symm.trans ((h j).1 hj))

omit [DecidableEq ι] in
theorem Owned.free (h : Owned Inside none pc) : ¬Inside (pc i) :=
  fun hi => absurd ((h i).1 hi).symm (Option.some_ne_none i)

theorem Owned.enter (h : Owned Inside none pc) (hp : Inside p) : Owned Inside (some i) (Function.update pc i p) := by
  intro j
  by_cases hj : j = i
  · subst hj
    simp [hp]
  · rw [Function.update_of_ne hj]
    refine ⟨fun hin => absurd hin h.free, fun heq => ?_⟩
    exact absurd (Option.some.inj heq).symm hj

theorem Owned.leave (h : Owned Inside lock pc) (hi : Inside (pc i)) (hp : ¬Inside p) :
    Owned Inside none (Function.update pc i p) := by
  intro j
  by_cases hj : j = i
  · subst hj
    simp [hp]
  · rw [Function.update_of_ne hj]
    refine ⟨fun hin => absurd (h.unique hin hi) hj, fun heq => ?_⟩
    exact absurd heq.symm (Option.some_ne_none j)

/-- A step that neither enters nor leaves the section. -/
theorem Owned.move (h : Owned Inside lock pc) (hp : Inside p ↔ Inside (pc i)) :
    Owned Inside lock (Function.update pc i p) := by
  intro j
  by_cases hj : j = i
  · subst hj
    rw [Function.update_self, hp]
    exact h j
  · rw [Function.update_of_ne hj]
    exact h j

/-! ## Protocols -/

/-- Processes that share a state of which a mutex is a part. -/
structure Protocol (σ ι π : Type) where
  lock : σ → Option ι
  inside : π → Bool
  /-- What holds of the shared state. -/
  Tidy : σ → Prop
  /-- What is known of a process at this place. -/
  Placed : σ → π → Prop

variable {σ : Type} {P : Protocol σ ι π} {x x' : σ} {q : π}

/-- A step of a process that changes the shared state behind the mutex alone. -/
structure Lawful (P : Protocol σ ι π) (i : ι) (x x' : σ) (p q : π) : Prop where
  tidy : P.Tidy x → P.Placed x p → P.Tidy x'
  placed : P.Tidy x → P.Placed x p → P.Placed x' q
  outside : P.inside p = false →
    (x' = x ∧ P.inside q = false) ∨ (P.lock x = none ∧ P.inside q = true ∧ P.lock x' = some i)
  inside : P.inside p = true → (P.lock x' = P.lock x ∧ P.inside q = true) ∨ (P.lock x' = none ∧ P.inside q = false)
  others : ∀ r, P.inside r = false → P.Placed x r → P.Placed x' r

/-- The process that has the mutex is inside, and all that is known of the others holds. -/
structure Inv (P : Protocol σ ι π) (x : σ) (pc : ι → π) : Prop where
  owned : Owned (P.inside · = true) (P.lock x) pc
  tidy : P.Tidy x
  placed : ∀ i, P.Placed x (pc i)

/-- What is known of the others is kept, because none of them is inside while the state changes. -/
theorem Inv.step (h : Inv P x pc) (hs : Lawful P i x x' (pc i) q) : Inv P x' (Function.update pc i q) := by
  have htidy := hs.tidy h.tidy (h.placed i)
  have hothers : (∀ j, j ≠ i → P.Placed x' (pc j)) → ∀ j, P.Placed x' (Function.update pc i q j) := by
    intro hkeep j
    by_cases hj : j = i
    · rw [hj, Function.update_self]
      exact hs.placed h.tidy (h.placed i)
    · rw [Function.update_of_ne hj]
      exact hkeep j hj
  cases hin : P.inside (pc i) with
  | true =>
    have howned : Owned (P.inside · = true) (P.lock x') (Function.update pc i q) := by
      obtain ⟨hlock, hin'⟩ | ⟨hlock, hout⟩ := hs.inside hin
      · rw [hlock]
        exact h.owned.move (by simp [hin, hin'])
      · rw [hlock]
        exact h.owned.leave hin (Bool.eq_false_iff.1 hout)
    refine ⟨howned, htidy, hothers fun j hj => ?_⟩
    refine hs.others _ (Bool.eq_false_iff.2 fun hin' => hj ?_) (h.placed j)
    exact h.owned.unique hin' hin
  | false =>
    obtain ⟨rfl, hout⟩ | ⟨hfree, hin', hlock⟩ := hs.outside hin
    · exact ⟨h.owned.move (by simp [hin, hout]), htidy, hothers fun j _ => h.placed j⟩
    · have hnone := hfree ▸ h.owned
      have howned : Owned (P.inside · = true) (P.lock x') (Function.update pc i q) := by
        rw [hlock]
        exact hnone.enter hin'
      refine ⟨howned, htidy, hothers fun j _ => ?_⟩
      exact hs.others _ (Bool.eq_false_iff.2 hnone.free) (h.placed j)

omit [DecidableEq ι] in
theorem Inv.env (h : Inv P x pc) (hlock : P.lock x' = P.lock x) (htidy : P.Tidy x')
    (hplaced : ∀ r, P.Placed x r → P.Placed x' r) : Inv P x' pc :=
  ⟨hlock ▸ h.owned, htidy, fun i => hplaced _ (h.placed i)⟩

end Mutex
