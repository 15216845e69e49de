import Mathlib.Data.List.Defs
import Mathlib.Data.List.DropRight
import Mathlib.Data.List.TakeWhile
import Mathlib.Tactic.SplitIfs

/-!
# Words

Lists cut into words by separators, and the normal form in which one separator stands between two words.

* `IsWord`, `words` : a word, and the words of a list; `splitOn_append_cons` : the part before a separator;
* `words_intercalate` : words that are joined are found again;
* `strip` : what is between the separators at both ends;
* `squeeze` : the normal form; `squeeze_squeeze`, `squeeze_flatMap` : what is in it, and what stays in it;
* `scan` : the matches of a pattern.
-/

namespace Words

variable {α β : Type} {p : α → Bool} {sep : α}

def IsWord (p : α → Bool) (w : List α) : Prop := w ≠ [] ∧ ∀ a ∈ w, p a = false

def words [DecidableEq α] (p : α → Bool) (l : List α) : List (List α) := (l.splitOnP p).filter (· ≠ [])

theorem not_separator_of_mem_splitOnP (l : List α) : ∀ w ∈ l.splitOnP p, ∀ a ∈ w, p a = false := by
  induction l with
  | nil =>
    rw [List.splitOnP_nil]
    exact List.forall_mem_singleton.2 nofun
  | cons b l ih =>
    rw [List.splitOnP_cons_eq_if_modifyHead]
    split_ifs with hb
    · exact List.forall_mem_cons.2 ⟨nofun, ih⟩
    · -- the element goes to the first part of the rest
      cases hparts : l.splitOnP p with
      | nil => exact absurd hparts (List.splitOnP_ne_nil p l)
      | cons first rest =>
        rw [hparts] at ih
        obtain ⟨hfirst, hrest⟩ := List.forall_mem_cons.1 ih
        rw [List.modifyHead_cons]
        exact List.forall_mem_cons.2 ⟨List.forall_mem_cons.2 ⟨Bool.eq_false_iff.2 hb, hfirst⟩, hrest⟩

section SplitOn

variable [BEq α] [LawfulBEq α] {w : List α}

theorem splitOn_of_not_mem (h : sep ∉ w) : w.splitOn sep = [w] := by
  rw [List.splitOn_eq_splitOnP]
  refine List.splitOnP_eq_singleton fun a ha => beq_eq_false_iff_ne.2 ?_
  rintro rfl
  exact h ha

theorem splitOn_append_cons (h : sep ∉ w) (l : List α) : (w ++ sep :: l).splitOn sep = w :: l.splitOn sep := by
  rw [List.splitOn_eq_splitOnP, List.splitOn_eq_splitOnP]
  have hfree : ∀ a ∈ w, (a == sep) = false := by
    intro a ha
    rw [beq_eq_false_iff_ne]
    rintro rfl
    exact h ha
  exact List.splitOnP_append_cons_of_forall_mem (p := (· == sep)) hfree sep (beq_self_eq_true sep) l

end SplitOn

/-! ## Separators at the ends -/

def strip (p : α → Bool) (l : List α) : List α := (l.dropWhile p).rdropWhile p

theorem rdropWhile_append_of_all {l ws : List α} (h : ∀ a ∈ ws, p a = true) :
    (l ++ ws).rdropWhile p = l.rdropWhile p := by
  unfold List.rdropWhile
  rw [List.reverse_append, List.dropWhile_append_of_pos fun a ha => h a (List.mem_reverse.1 ha)]

theorem strip_append_of_all {l ws : List α} (h : ∀ a ∈ ws, p a = true) : strip p (l ++ ws) = strip p l := by
  unfold strip
  rw [List.dropWhile_append]
  split_ifs with hl
  · rw [List.dropWhile_eq_nil_iff.2 h, List.isEmpty_iff.1 hl]
  · exact rdropWhile_append_of_all h

theorem strip_of_all_append {l ws : List α} (h : ∀ a ∈ ws, p a = true) : strip p (ws ++ l) = strip p l := by
  unfold strip
  rw [List.dropWhile_append_of_pos h]

/-- Before an element that is no separator, separators are only dropped at the head. -/
theorem strip_concat {a : α} (ha : p a = false) (l : List α) : strip p (l ++ [a]) = (l ++ [a]).dropWhile p := by
  unfold strip
  have hna : ¬p a = true := Bool.eq_false_iff.1 ha
  rw [List.dropWhile_append, List.dropWhile_cons_of_neg hna]
  split_ifs
  · exact List.rdropWhile_concat_neg p [] a hna
  · exact List.rdropWhile_concat_neg p _ a hna

variable [DecidableEq α]

theorem isWord_of_mem_words {l w : List α} (hw : w ∈ words p l) : IsWord p w := by
  unfold words at hw
  obtain ⟨hmem, hne⟩ := List.mem_filter.1 hw
  exact ⟨of_decide_eq_true hne, not_separator_of_mem_splitOnP l w hmem⟩

theorem words_of_isWord {w : List α} (hw : IsWord p w) : words p w = [w] := by
  unfold words
  rw [List.splitOnP_eq_singleton hw.2]
  exact List.filter_cons_of_pos (decide_eq_true hw.1)

theorem words_append_cons {w : List α} (hw : IsWord p w) (hsep : p sep = true) (l : List α) :
    words p (w ++ sep :: l) = w :: words p l := by
  unfold words
  rw [List.splitOnP_append_cons_of_forall_mem hw.2 sep hsep]
  exact List.filter_cons_of_pos (decide_eq_true hw.1)

theorem words_intercalate (hsep : p sep = true) {ws : List (List α)} (h : ∀ w ∈ ws, IsWord p w) :
    words p ([sep].intercalate ws) = ws := by
  induction ws with
  | nil => rfl
  | cons w ws ih =>
    obtain ⟨hw, hws⟩ := List.forall_mem_cons.1 h
    cases ws with
    | nil =>
      rw [List.intercalate_singleton]
      exact words_of_isWord hw
    | cons w' ws =>
      rw [List.intercalate_cons_cons, List.append_assoc, List.singleton_append, words_append_cons hw hsep, ih hws]

/-! ## The normal form -/

/-- The words with one separator between each two. -/
def squeeze (p : α → Bool) (sep : α) (l : List α) : List α := [sep].intercalate (words p l)

theorem squeeze_intercalate (hsep : p sep = true) {ws : List (List α)} (h : ∀ w ∈ ws, IsWord p w) :
    squeeze p sep ([sep].intercalate ws) = [sep].intercalate ws := by
  unfold squeeze
  rw [words_intercalate hsep h]

theorem squeeze_squeeze (hsep : p sep = true) (l : List α) : squeeze p sep (squeeze p sep l) = squeeze p sep l :=
  squeeze_intercalate hsep fun _ => isWord_of_mem_words

omit [DecidableEq α] in
theorem flatMap_intercalate (f : α → List β) (sep : α) (ws : List (List α)) :
    ([sep].intercalate ws).flatMap f = (f sep).intercalate (ws.map fun w => w.flatMap f) := by
  induction ws with
  | nil => rfl
  | cons w ws ih =>
    cases ws with
    | nil => simp
    | cons w' ws =>
      rw [List.intercalate_cons_cons, List.flatMap_append, List.flatMap_append, ih,
        List.flatMap_singleton]
      simp only [List.map_cons, List.intercalate_cons_cons]

omit [DecidableEq α] in
theorem isWord_flatMap {f : α → List α} (hf : ∀ a, p a = false → IsWord p (f a)) {w : List α} (hw : IsWord p w) :
    IsWord p (w.flatMap f) := by
  obtain ⟨hne, hall⟩ := hw
  constructor
  · obtain ⟨a, rest, rfl⟩ := List.exists_cons_of_ne_nil hne
    rw [List.flatMap_cons]
    exact List.append_ne_nil_of_left_ne_nil (hf a (hall a (List.mem_cons_self ..))).1 _
  · intro b hb
    obtain ⟨a, ha, hb⟩ := List.mem_flatMap.1 hb
    exact (hf a (hall a ha)).2 b hb

/-- A change of the elements that keeps the separator, and words as words, keeps the normal form. -/
theorem squeeze_flatMap (hsep : p sep = true) {f : α → List α} (hfsep : f sep = [sep])
    (hf : ∀ a, p a = false → IsWord p (f a)) (l : List α) :
    squeeze p sep ((squeeze p sep l).flatMap f) = (squeeze p sep l).flatMap f := by
  have hflat : (squeeze p sep l).flatMap f = [sep].intercalate ((words p l).map fun w => w.flatMap f) := by
    unfold squeeze
    rw [flatMap_intercalate, hfsep]
  rw [hflat]
  refine squeeze_intercalate hsep fun w hw => ?_
  obtain ⟨w', hw', rfl⟩ := List.mem_map.1 hw
  exact isWord_flatMap hf (isWord_of_mem_words hw')

/-! ## Matches -/

/-- The matches of a pattern from left to right, behind so many elements. The pattern gives a match at the head of a
list and what follows it, from where the search goes on. -/
def scan (pattern : List α → Option (β × List α)) : Nat → List α → List β
  | _, [] => []
  | skip + 1, _ :: rest => scan pattern skip rest
  | 0, a :: rest =>
    match pattern (a :: rest) with
    | some (b, after) => b :: scan pattern (rest.length - after.length) rest
    | none => scan pattern 0 rest

omit [DecidableEq α] in
theorem exists_of_mem_scan {pattern : List α → Option (β × List α)} {skip : Nat} {l : List α} {b : β}
    (h : b ∈ scan pattern skip l) : ∃ start after, start <:+ l ∧ pattern start = some (b, after) := by
  induction l generalizing skip with
  | nil => cases skip <;> exact absurd h List.not_mem_nil
  | cons a rest ih =>
    have hrest : ∀ skip, b ∈ scan pattern skip rest →
        ∃ start after, start <:+ a :: rest ∧ pattern start = some (b, after) := by
      intro skip h
      obtain ⟨start, after, hstart, hmatch⟩ := ih h
      exact ⟨start, after, hstart.trans (List.suffix_cons ..), hmatch⟩
    cases skip with
    | succ skip => exact hrest skip h
    | zero =>
      unfold scan at h
      split at h
      next b' after hmatch =>
        obtain rfl | h := List.mem_cons.1 h
        · exact ⟨a :: rest, after, List.suffix_refl _, hmatch⟩
        · exact hrest _ h
      next => exact hrest 0 h

section Scan

variable {pattern : List α → Option (β × List α)} {l rest : List α}

omit [DecidableEq α]

theorem scan_append_of_none (h : ∀ a ∈ l, ∀ rest, pattern (a :: rest) = none) :
    scan pattern 0 (l ++ rest) = scan pattern 0 rest := by
  induction l with
  | nil => rfl
  | cons a l ih =>
    obtain ⟨ha, hl⟩ := List.forall_mem_cons.1 h
    rw [List.cons_append, scan, ha]
    exact ih hl

theorem scan_skip (l rest : List α) : scan pattern l.length (l ++ rest) = scan pattern 0 rest := by
  induction l with
  | nil => rfl
  | cons a l ih => rw [List.length_cons, List.cons_append, scan, ih]

theorem scan_append_of_some {b : β} (hne : l ≠ []) (h : pattern (l ++ rest) = some (b, rest)) :
    scan pattern 0 (l ++ rest) = b :: scan pattern 0 rest := by
  obtain ⟨a, l, rfl⟩ := List.exists_cons_of_ne_nil hne
  rw [List.cons_append] at h
  rw [List.cons_append, scan, h]
  dsimp only
  rw [List.length_append, Nat.add_sub_cancel, scan_skip]

end Scan

end Words
