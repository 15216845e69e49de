import Mathlib.Data.List.Pairwise
import Mathlib.Tactic

/-!
# Instants with a gap

* `Spaced` : any two of these instants, the last one first, are a gap apart;
* `Spaced.countP_le` : so few of them are within a window.
-/

namespace Spacing

variable {gap : Nat} {l : List Nat} {t : Nat}

/-- Any two of these instants, the last one first, are this gap apart. -/
def Spaced (gap : Nat) (l : List Nat) : Prop := l.Pairwise fun newer older => older + gap ≤ newer

/-- The gap to the last one is enough. -/
theorem Spaced.cons (h : Spaced gap l) (hgap : ∀ last ∈ l.head?, last + gap ≤ t) : Spaced gap (t :: l) := by
  refine List.pairwise_cons.2 ⟨fun older hmem => ?_, h⟩
  cases l with
  | nil => exact absurd hmem List.not_mem_nil
  | cons last l =>
    have hlast := hgap last rfl
    obtain rfl | hmem := List.mem_cons.1 hmem
    · exact hlast
    · have hbefore := (List.pairwise_cons.1 h).1 older hmem
      omega

theorem Spaced.length_mul_le (h : Spaced gap (t :: l)) {first : Nat} (hfirst : ∀ x ∈ t :: l, first ≤ x) :
    first + l.length * gap ≤ t := by
  induction l generalizing t with
  | nil =>
    rw [List.length_nil, Nat.zero_mul]
    exact hfirst t List.mem_cons_self
  | cons last l ih =>
    obtain ⟨hgap, hrest⟩ := List.pairwise_cons.1 h
    have hlast := ih hrest fun x hx => hfirst x (List.mem_cons_of_mem t hx)
    have hnext := hgap last List.mem_cons_self
    rw [List.length_cons, Nat.succ_mul]
    omega

/-- The gaps between those within a window are within it too. -/
theorem Spaced.countP_le (h : Spaced gap l) (first length : Nat) :
    (l.countP (fun x => first ≤ x ∧ x ≤ first + length) - 1) * gap ≤ length := by
  rw [List.countP_eq_length_filter]
  have hspaced : Spaced gap (l.filter fun x => first ≤ x ∧ x ≤ first + length) := List.Pairwise.filter _ h
  have hwindow : ∀ x ∈ l.filter fun x => first ≤ x ∧ x ≤ first + length, first ≤ x ∧ x ≤ first + length :=
    fun x hx => of_decide_eq_true (List.mem_filter.1 hx).2
  generalize l.filter (fun x => first ≤ x ∧ x ≤ first + length) = within at hspaced hwindow
  cases within with
  | nil => simp
  | cons t rest =>
    have hle := hspaced.length_mul_le fun x hx => (hwindow x hx).1
    have hlast := (hwindow t List.mem_cons_self).2
    rw [List.length_cons, Nat.add_sub_cancel]
    omega

end Spacing
