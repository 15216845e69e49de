import Mathlib.Algebra.Order.Field.Basic
import Mathlib.Data.List.Chain
import Mathlib.Tactic.Linarith
import Mathlib.Tactic.Ring

/-!
# Reserved slots

A bucket of tokens that is refilled at a rate, from which slots are reserved: a reservation takes a token at once, and
is released when the bucket is no longer in debt.

* `Slot` : a reservation, with what is left in the bucket; `Slot.release` : when it may be used;
* `Spends` : between two reservations the bucket has at most been refilled at the rate;
* `release_mono`, `length_window_le` : the order of the releases, and how many there are in a window of time.
-/

namespace Reservations

variable {K : Type} [Field K] [LinearOrder K] [IsStrictOrderedRing K]

/-- A reservation: when it is made, and what is left then. -/
structure Slot (K : Type) where
  time : K
  level : K

/-- What is owed is waited for. -/
def Slot.release (rate : K) (s : Slot K) : K := s.time + max 0 (-s.level / rate)

/-- The second slot is made no earlier, and from a bucket that has been refilled at most at the rate since. -/
structure Spends (rate : K) (s s' : Slot K) : Prop where
  time : s.time ≤ s'.time
  level : s'.level ≤ s.level + rate * (s'.time - s.time) - 1

variable {rate : K} {s s' s'' : Slot K}

theorem Spends.trans (h : Spends rate s s') (h' : Spends rate s' s'') : Spends rate s s'' where
  time := h.time.trans h'.time
  level := by
    have hsum : rate * (s''.time - s.time) = rate * (s''.time - s'.time) + rate * (s'.time - s.time) := by ring
    have hfirst := h.level
    have hsecond := h'.level
    linarith

instance : IsTrans (Slot K) (Spends rate) := ⟨fun _ _ _ => Spends.trans⟩

/-- A slot is not released before its debt is paid. -/
theorem debt_le_release (hrate : 0 < rate) (s : Slot K) : rate * (s.time - s.release rate) ≤ s.level := by
  have hwait : -s.level / rate ≤ s.release rate - s.time := by
    unfold Slot.release
    rw [add_sub_cancel_left]
    exact le_max_right ..
  have hdebt : -s.level ≤ (s.release rate - s.time) * rate := (div_le_iff₀ hrate).1 hwait
  have hflip : rate * (s.time - s.release rate) = -((s.release rate - s.time) * rate) := by ring
  linarith

theorem release_mono (hrate : 0 < rate) (h : Spends rate s s') : s.release rate ≤ s'.release rate := by
  have htime := h.time
  have hlevel := h.level
  unfold Slot.release
  have hdebt : -s.level / rate ≤ s'.time - s.time + -s'.level / rate := by
    rw [div_le_iff₀ hrate, add_mul, div_mul_cancel₀ _ hrate.ne']
    have hcomm : (s'.time - s.time) * rate = rate * (s'.time - s.time) := mul_comm ..
    linarith
  have hnonneg : 0 ≤ max 0 (-s'.level / rate) := le_max_left ..
  have howed : -s'.level / rate ≤ max 0 (-s'.level / rate) := le_max_right ..
  rcases max_cases 0 (-s.level / rate) with ⟨heq, -⟩ | ⟨heq, -⟩
  · linarith
  · linarith

/-- Along a row of slots every one but the first has spent a token. -/
theorem level_getLast_le {l : List (Slot K)} (h : (s :: l).IsChain (Spends rate)) :
    ((s :: l).getLast (List.cons_ne_nil _ _)).level + l.length ≤
      s.level + rate * (((s :: l).getLast (List.cons_ne_nil _ _)).time - s.time) := by
  induction l generalizing s with
  | nil => simp
  | cons s' l ih =>
    obtain ⟨hstep, hrest⟩ := List.isChain_cons_cons.1 h
    have hlast := ih hrest
    have hlevel := hstep.level
    rw [List.getLast_cons (List.cons_ne_nil s' l), List.length_cons]
    push_cast
    generalize (s' :: l).getLast (List.cons_ne_nil s' l) = last at hlast ⊢
    have hsum : rate * (last.time - s.time) = rate * (last.time - s'.time) + rate * (s'.time - s.time) := by ring
    linarith

/-- Of slots that are all released in a window of time, there are at most as many as the bucket holds when it is full
and is refilled with in that time. -/
theorem length_le_of_released (hrate : 0 < rate) {capacity : K} (hcapacity : 1 ≤ capacity) {a b : K} (hab : a ≤ b)
    {l : List (Slot K)} (h : l.IsChain (Spends rate)) (hlevel : ∀ s ∈ l, s.level ≤ capacity - 1)
    (hreleased : ∀ s ∈ l, a ≤ s.release rate ∧ s.release rate ≤ b) : (l.length : K) ≤ capacity + rate * (b - a) := by
  have hwindow : 0 ≤ rate * (b - a) := mul_nonneg hrate.le (sub_nonneg.2 hab)
  cases l with
  | nil =>
    rw [List.length_nil, Nat.cast_zero]
    linarith
  | cons s l =>
    have hspent := level_getLast_le h
    have hlast := (hreleased _ (List.getLast_mem (List.cons_ne_nil s l))).2
    generalize (s :: l).getLast (List.cons_ne_nil s l) = last at hspent hlast
    -- the last slot bounds the debt by the end of the window
    have hdebt : rate * (last.time - b) ≤ last.level :=
      (mul_le_mul_of_nonneg_left (sub_le_sub_left hlast _) hrate.le).trans (debt_le_release hrate last)
    have hcount : (l.length : K) ≤ s.level + rate * (b - s.time) := by
      have hsum : rate * (last.time - s.time) = rate * (last.time - b) + rate * (b - s.time) := by ring
      linarith
    rw [List.length_cons]
    push_cast
    have hfirst := (hreleased s (List.mem_cons_self ..)).1
    -- the first slot is released at once, or pays a debt until the window begins
    unfold Slot.release at hfirst
    rcases max_cases 0 (-s.level / rate) with ⟨heq, -⟩ | ⟨heq, -⟩
    · rw [heq, add_zero] at hfirst
      have hbegin : rate * (b - s.time) ≤ rate * (b - a) :=
        mul_le_mul_of_nonneg_left (sub_le_sub_left hfirst _) hrate.le
      have hfull := hlevel s (List.mem_cons_self ..)
      linarith
    · rw [heq, ← sub_le_iff_le_add', le_div_iff₀ hrate] at hfirst
      have hsum : rate * (b - s.time) = rate * (b - a) + (a - s.time) * rate := by ring
      linarith

/-- How many of a row of slots are released in a closed window of time. -/
theorem length_window_le (hrate : 0 < rate) {capacity : K} (hcapacity : 1 ≤ capacity) {a b : K} (hab : a ≤ b)
    {l : List (Slot K)} (h : l.Pairwise (Spends rate)) (hlevel : ∀ s ∈ l, s.level ≤ capacity - 1) :
    ((l.filter fun s => a ≤ s.release rate ∧ s.release rate ≤ b).length : K) ≤ capacity + rate * (b - a) := by
  refine length_le_of_released hrate hcapacity hab (h.sublist List.filter_sublist).isChain
    (fun s hs => hlevel s (List.mem_filter.1 hs).1) fun s hs => ?_
  exact of_decide_eq_true (List.mem_filter.1 hs).2

end Reservations
