import Mathlib.Data.List.Chain
import Mathlib.Data.List.Infix
import Mathlib.Tactic.SplitIfs

/-!
# Pairs of an element

Lists in which an element stands next to itself, and what becomes of them when its pairs are replaced from the left,
as a text replacement does it.

* `NoPair` : the element stands next to itself nowhere;
* `replacePair` : the replacement; `noPair_replacePair`, `replacePair_of_noPair` : it leaves no pair, and then nothing
  to replace.
-/

namespace Pairs

variable {α : Type} [DecidableEq α] {d u : α}

/-- Replace each pair of an element, from the left and without overlap. -/
def replacePair (d u : α) : List α → List α
  | a :: b :: rest => if a = d ∧ b = d then u :: replacePair d u rest else a :: replacePair d u (b :: rest)
  | l => l

def NoPair (d : α) (l : List α) : Prop := l.IsChain fun a b => ¬(a = d ∧ b = d)

theorem mem_replacePair {l : List α} {a : α} (h : a ∈ replacePair d u l) : a = u ∨ a ∈ l := by
  fun_induction replacePair d u l with
  | case1 x y rest hpair ih =>
    rcases List.mem_cons.1 h with rfl | h
    · exact .inl rfl
    · exact (ih h).imp_right fun hmem => List.mem_cons_of_mem _ (List.mem_cons_of_mem _ hmem)
  | case2 x y rest hpair ih =>
    rcases List.mem_cons.1 h with rfl | h
    · exact .inr (List.mem_cons_self ..)
    · exact (ih h).imp_right (List.mem_cons_of_mem _)
  | case3 l hl => exact .inr h

/-- The element is at the head of the result only where it was at the head. -/
theorem head_replacePair (hu : u ≠ d) {l : List α} (h : (replacePair d u l).head? = some d) : l.head? = some d := by
  fun_induction replacePair d u l with
  | case1 x y rest hpair ih => exact absurd (Option.some.inj h) hu
  | case2 x y rest hpair ih => exact h
  | case3 l hl => exact h

/-- No pair is left, nor does a replacement make one. -/
theorem noPair_replacePair (hu : u ≠ d) (l : List α) : NoPair d (replacePair d u l) := by
  unfold NoPair
  fun_induction replacePair d u l with
  | case1 x y rest hpair ih => exact List.isChain_cons.2 ⟨fun b _ hb => hu hb.1, ih⟩
  | case2 x y rest hpair ih =>
    refine List.isChain_cons.2 ⟨fun b hb hd => hpair ⟨hd.1, ?_⟩, ih⟩
    have hhead : (replacePair d u (y :: rest)).head? = some d :=
      (Option.mem_def.1 hb).trans (congrArg some hd.2)
    exact Option.some.inj (head_replacePair hu hhead)
  | case3 l hl =>
    rcases l with - | ⟨a, - | ⟨b, rest⟩⟩
    · exact .nil
    · exact .singleton a
    · exact absurd rfl (hl a b rest)

theorem replacePair_of_noPair {l : List α} (h : NoPair d l) : replacePair d u l = l := by
  unfold NoPair at h
  fun_induction replacePair d u l with
  | case1 x y rest hpair ih => exact absurd hpair (List.isChain_cons_cons.1 h).1
  | case2 x y rest hpair ih => rw [ih (List.isChain_cons_cons.1 h).2]
  | case3 l hl => rfl

omit [DecidableEq α] in
theorem noPair_iff {l : List α} : NoPair d l ↔ ¬[d, d] <:+: l := by
  unfold NoPair
  constructor
  · rintro h ⟨before, rest, rfl⟩
    rw [List.append_assoc] at h
    exact (List.isChain_cons_cons.1 (List.isChain_append.1 h).2.1).1 ⟨rfl, rfl⟩
  · intro h
    induction l with
    | nil => exact .nil
    | cons a l ih =>
      refine List.isChain_cons.2 ⟨fun b hb hd => h ?_, ih fun hpart => h (hpart.trans (List.suffix_cons a l).isInfix)⟩
      obtain ⟨rest, rfl⟩ := List.head?_eq_some_iff.1 hb
      rw [hd.1, hd.2]
      exact ⟨[], rest, rfl⟩

end Pairs
