import Mathlib.Data.List.Infix
import Mathlib.Data.Nat.Digits.Defs
import DiscogsIngestion.Lib.Words

/-!
# Text

* `isWhitespace`, `isBlank`, `trim` : whitespace, and strings without it around them;
* `lines` : the lines of a text; `splitLines_append_newline` : the line before a line feed;
* `stripPrefix`, `stripSuffix`, `splitOnce` : parts of a string;
* `parseU64`, `Numeral` : unsigned numbers;
* `utf8ByteSize_ofList`, `utf8ByteSize_eq_length` : the bytes of a string;
* `bytePrefix` : its first bytes; `bytePrefix_eq_some` : where they end between characters.
-/

namespace DiscogsIngestion

/-! ## Whitespace -/

/-- The Unicode `White_Space` property, which `str::trim` removes. -/
def isWhitespace (c : Char) : Bool :=
  let n := c.toNat
  (9 ≤ n && n ≤ 13) || n = 0x20 || n = 0x85 || n = 0xA0 || n = 0x1680 || (0x2000 ≤ n && n ≤ 0x200A) ||
    n = 0x2028 || n = 0x2029 || n = 0x202F || n = 0x205F || n = 0x3000

/-- `text.trim().is_empty()`. -/
def isBlank (s : String) : Bool := s.toList.all isWhitespace

def trimStart (s : String) : String := String.ofList (s.toList.dropWhile isWhitespace)

def trim (s : String) : String :=
  String.ofList ((s.toList.dropWhile isWhitespace).reverse.dropWhile isWhitespace).reverse

theorem toList_trim (s : String) : (trim s).toList = Words.strip isWhitespace s.toList := String.toList_ofList

theorem trim_eq_of_strip {s t : String} (h : Words.strip isWhitespace s.toList = Words.strip isWhitespace t.toList) :
    trim s = trim t := by
  apply String.toList_injective
  rw [toList_trim, toList_trim, h]

/-! ## Lines -/

def splitLines : List Char → List (List Char)
  | [] => []
  | '\n' :: rest => [] :: splitLines rest
  | '\r' :: '\n' :: rest => [] :: splitLines rest
  | c :: rest =>
    match splitLines rest with
    | [] => [[c]]
    | line :: others => (c :: line) :: others

def lines (text : String) : List String := (splitLines text.toList).map String.ofList

/-- A line without a line feed, with what it keeps of a carriage return at its end. -/
theorem splitLines_append_newline {line : List Char} (h : '\n' ∉ line) (rest : List Char) :
    ∃ kept, splitLines (line ++ '\n' :: rest) = kept :: splitLines rest ∧ (kept = line ∨ kept ++ ['\r'] = line) := by
  induction line with
  | nil => exact ⟨[], rfl, .inl rfl⟩
  | cons c line ih =>
    obtain ⟨hc, hline⟩ := not_or.1 (mt List.mem_cons.2 h)
    obtain ⟨kept, hsplit, hkept⟩ := ih hline
    by_cases hend : c = '\r' ∧ line = []
    · obtain ⟨rfl, rfl⟩ := hend
      exact ⟨[], rfl, .inr rfl⟩
    · refine ⟨c :: kept, ?_, hkept.imp (congrArg _) (congrArg _)⟩
      rw [List.cons_append, splitLines, hsplit]
      · exact fun heq => hc heq.symm
      · intro rest' hcr heq
        cases line with
        | nil => exact hend ⟨hcr, rfl⟩
        | cons d line => exact hline (List.mem_cons.2 (.inl (List.cons.inj heq).1.symm))

theorem splitLines_of_not_mem {line : List Char} (h : '\n' ∉ line) (hne : line ≠ []) : splitLines line = [line] := by
  induction line with
  | nil => exact absurd rfl hne
  | cons c line ih =>
    obtain ⟨hc, hline⟩ := not_or.1 (mt List.mem_cons.2 h)
    have hrest : splitLines line = if line = [] then [] else [line] := by
      split_ifs with hempty
      · rw [hempty]
        rfl
      · exact ih hline hempty
    rw [splitLines, hrest]
    · cases line <;> rfl
    · exact fun heq => hc heq.symm
    · rintro rest' - rfl
      exact hline (List.mem_cons_self ..)

/-! ## Parts -/

def stripPrefix (start s : String) : Option String :=
  if start.toList <+: s.toList then some (String.ofList (s.toList.drop start.toList.length)) else none

def stripSuffix (ending s : String) : Option String :=
  if ending.toList <:+ s.toList then
    some (String.ofList (s.toList.take (s.toList.length - ending.toList.length)))
  else none

/-- What stands before the first occurrence of a character, and what follows it. -/
def splitOnce (c : Char) (s : String) : Option (String × String) :=
  match s.toList.dropWhile (· ≠ c) with
  | [] => none
  | _ :: rest => some (String.ofList (s.toList.takeWhile (· ≠ c)), String.ofList rest)

theorem stripPrefix_eq_some {start s t : String} : stripPrefix start s = some t ↔ s = start ++ t := by
  unfold stripPrefix
  constructor
  · intro h
    split_ifs at h with hstart
    rw [← Option.some.inj h]
    apply String.toList_injective
    rw [String.toList_append, String.toList_ofList]
    exact (List.prefix_iff_eq_append.1 hstart).symm
  · rintro rfl
    rw [String.toList_append, if_pos (List.prefix_append ..), List.drop_left, String.ofList_toList]

theorem stripSuffix_eq_some {ending s t : String} : stripSuffix ending s = some t ↔ s = t ++ ending := by
  unfold stripSuffix
  constructor
  · intro h
    split_ifs at h with hending
    rw [← Option.some.inj h]
    apply String.toList_injective
    rw [String.toList_append, String.toList_ofList]
    exact (List.suffix_iff_eq_append.1 hending).symm
  · rintro rfl
    rw [String.toList_append, if_pos (List.suffix_append ..), List.length_append, Nat.add_sub_cancel, List.take_left,
      String.ofList_toList]

theorem splitOnce_eq_some {c : Char} {s a b : String} :
    splitOnce c s = some (a, b) ↔ s = a ++ String.singleton c ++ b ∧ c ∉ a.toList := by
  unfold splitOnce
  constructor
  · intro h
    have hsplit := List.takeWhile_append_dropWhile (p := (· ≠ c)) (l := s.toList)
    cases hrest : s.toList.dropWhile (· ≠ c) with
    | nil =>
      rw [hrest] at h
      exact nomatch h
    | cons d rest =>
      rw [hrest] at h hsplit
      obtain ⟨rfl, rfl⟩ := Prod.mk.inj (Option.some.inj h)
      have hd : d = c := by
        have hhead := List.head?_dropWhile_not (· ≠ c) s.toList
        rw [hrest] at hhead
        exact not_not.1 (of_decide_eq_false hhead)
      subst hd
      refine ⟨String.toList_injective ?_, fun hmem => ?_⟩
      · rw [String.toList_append, String.toList_append, String.toList_ofList, String.toList_ofList, List.append_assoc,
          String.toList_singleton]
        exact hsplit.symm
      · rw [String.toList_ofList] at hmem
        exact absurd rfl (of_decide_eq_true (List.mem_takeWhile_imp (p := (· ≠ d)) hmem))
  · rintro ⟨rfl, hc⟩
    have hbefore : ∀ d ∈ a.toList, decide (d ≠ c) = true := by
      intro d hd
      exact decide_eq_true fun heq => hc (heq ▸ hd)
    have hstop : ¬decide (c ≠ c) = true := by simp
    rw [String.toList_append, String.toList_append, String.toList_singleton, List.append_assoc, List.singleton_append,
      List.dropWhile_append_of_pos hbefore, List.takeWhile_append_of_pos hbefore,
      List.dropWhile_cons_of_neg (p := (· ≠ c)) hstop, List.takeWhile_cons_of_neg (p := (· ≠ c)) hstop, List.append_nil]
    dsimp only
    rw [String.ofList_toList, String.ofList_toList]

/-! ## Numbers -/

def digitsValue (digits : List Char) : Nat := digits.foldl (fun n c => 10 * n + (c.toNat - '0'.toNat)) 0

/-- Read an unsigned 64-bit number: digits alone, behind one plus sign at most. -/
def parseU64 (s : String) : Option Nat :=
  let digits := match s.toList with
    | '+' :: rest => rest
    | chars => chars
  if digits ≠ [] ∧ digits.all Char.isDigit ∧ digitsValue digits < 2 ^ 64 then some (digitsValue digits) else none

/-- The number that a row of digits denotes in base ten. -/
def denoted (digits : List Char) : Nat := Nat.ofDigits 10 (digits.reverse.map fun c => c.toNat - '0'.toNat)

theorem digitsValue_eq_denoted (digits : List Char) : digitsValue digits = denoted digits := by
  have hfold : ∀ n : Nat, digits.foldl (fun n c => 10 * n + (c.toNat - '0'.toNat)) n =
      denoted digits + 10 ^ digits.length * n := by
    induction digits with
    | nil => simp [denoted]
    | cons c digits ih =>
      intro n
      have hcons : denoted (c :: digits) = denoted digits + 10 ^ digits.length * (c.toNat - '0'.toNat) := by
        unfold denoted
        rw [List.reverse_cons, List.map_append, Nat.ofDigits_append, List.length_map, List.length_reverse]
        simp
      rw [List.foldl_cons, ih, hcons, List.length_cons, pow_succ]
      ring
  unfold digitsValue
  rw [hfold, Nat.mul_zero, Nat.add_zero]

/-- The text is a decimal numeral of the number, behind a plus sign or not. -/
def Numeral (s : String) (n : Nat) : Prop :=
  ∃ digits, (s.toList = digits ∨ s.toList = '+' :: digits) ∧ digits ≠ [] ∧ digits.all Char.isDigit = true ∧
    denoted digits = n

/-- What is read are the numerals of the numbers of 64 bits. -/
theorem parseU64_eq_some_iff {s : String} {n : Nat} : parseU64 s = some n ↔ Numeral s n ∧ n < 2 ^ 64 := by
  unfold parseU64
  dsimp only
  rw [Option.ite_none_right_eq_some, digitsValue_eq_denoted]
  constructor
  · rintro ⟨⟨hne, hall, hlt⟩, heq⟩
    have hn := Option.some.inj heq
    refine ⟨⟨_, ?_, hne, hall, hn⟩, hn ▸ hlt⟩
    split
    · next rest hs => exact .inr hs
    · exact .inl rfl
  · rintro ⟨⟨digits, hs | hs, hne, hall, rfl⟩, hlt⟩
    · rw [hs]
      split
      · simp [show Char.isDigit '+' = false from rfl] at hall
      · exact ⟨⟨hne, hall, hlt⟩, rfl⟩
    · rw [hs]
      exact ⟨⟨hne, hall, hlt⟩, rfl⟩

theorem toList_repr_ne_nil (n : Nat) : n.repr.toList ≠ [] := by
  rw [Nat.toList_repr]
  exact Nat.toDigits_ne_nil

theorem all_isDigit_repr (n : Nat) : n.repr.toList.all Char.isDigit = true := by
  refine List.all_eq_true.2 fun c hc => ?_
  rw [Nat.toList_repr] at hc
  exact Nat.isDigit_of_mem_toDigits (by decide) (by decide) hc

theorem parseU64_repr {n : Nat} (h : n < 2 ^ 64) : parseU64 n.repr = some n := by
  refine parseU64_eq_some_iff.2 ⟨⟨n.repr.toList, .inl rfl, toList_repr_ne_nil n, all_isDigit_repr n, ?_⟩, h⟩
  rw [Nat.toList_repr, ← digitsValue_eq_denoted]
  exact Nat.ofDigitChars_toDigits (by decide) (by decide)

/-! ## Bytes -/

theorem utf8ByteSize_ofList (l : List Char) : (String.ofList l).utf8ByteSize = (l.map Char.utf8Size).sum := by
  induction l with
  | nil => rfl
  | cons c l ih =>
    rw [← List.singleton_append, String.ofList_append, String.utf8ByteSize_append, ih, List.map_append,
      List.sum_append, List.map_singleton, List.sum_singleton, ← String.singleton_eq_ofList,
      String.utf8ByteSize_singleton]

/-- The characters in the first bytes of a string, if these end between two characters. -/
def bytePrefix : List Char → Nat → Option (List Char)
  | _, 0 => some []
  | [], _ + 1 => none
  | c :: rest, n + 1 =>
    if c.utf8Size ≤ n + 1 then (bytePrefix rest (n + 1 - c.utf8Size)).map (c :: ·) else none

theorem bytePrefix_append (start rest : List Char) :
    bytePrefix (start ++ rest) (start.map Char.utf8Size).sum = some start := by
  induction start with
  | nil => cases rest <;> rfl
  | cons c start ih =>
    obtain ⟨k, hk⟩ := Nat.exists_eq_add_of_lt (Char.utf8Size_pos c)
    have hsum : ((c :: start).map Char.utf8Size).sum = (start.map Char.utf8Size).sum + k + 1 := by
      rw [List.map_cons, List.sum_cons]
      omega
    have hleft : (start.map Char.utf8Size).sum + k + 1 - c.utf8Size = (start.map Char.utf8Size).sum := by omega
    rw [hsum, List.cons_append, bytePrefix, if_pos (by omega), hleft, ih, Option.map_some]

/-- There are such characters exactly if a part of the string has so many bytes. -/
theorem bytePrefix_eq_some {l start : List Char} {n : Nat} :
    bytePrefix l n = some start ↔ start <+: l ∧ (start.map Char.utf8Size).sum = n := by
  constructor
  · intro h
    fun_induction bytePrefix l n generalizing start with
    | case1 l =>
      obtain rfl := Option.some.inj h
      exact ⟨List.nil_prefix, rfl⟩
    | case2 => exact nomatch h
    | case3 c rest n hle ih =>
      obtain ⟨start', hstart', rfl⟩ := Option.map_eq_some_iff.1 h
      obtain ⟨hstart, hsum⟩ := ih hstart'
      refine ⟨List.cons_prefix_cons.2 ⟨rfl, hstart⟩, ?_⟩
      rw [List.map_cons, List.sum_cons, hsum]
      omega
    | case4 => exact nomatch h
  · rintro ⟨⟨rest, rfl⟩, rfl⟩
    exact bytePrefix_append start rest

/-- Of ASCII characters there are as many as there are bytes. -/
theorem utf8ByteSize_eq_length {s : String} (h : ∀ c ∈ s.toList, c.toNat ≤ 127) :
    s.utf8ByteSize = s.toList.length := by
  have hone : s.toList.map Char.utf8Size = s.toList.map fun _ => 1 := by
    refine List.map_congr_left fun c hc => ?_
    exact Char.utf8Size_eq_one_iff.2 (UInt32.le_iff_toNat_le.2 (h c hc))
  have hsum := utf8ByteSize_ofList s.toList
  rw [String.ofList_toList, hone, List.map_const', List.sum_replicate_nat, Nat.mul_one] at hsum
  exact hsum

end DiscogsIngestion
