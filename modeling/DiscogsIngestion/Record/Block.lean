import Mathlib.Algebra.Group.Int.Defs
import Mathlib.Data.List.Dedup
import Mathlib.Data.List.Sort
import DiscogsIngestion.Map
import DiscogsIngestion.Parser.Element

/-!
# What the canonical blocks share

* `trimmed` : string fields that are not blank;
* `entriesOf`, `sortedUnique` : the entries of a list field, and sorted lists without repetitions;
* `asU64` : unsigned numbers in JSON;
* `Value.record`, `Value.strings`, `Value.optional` : structures as JSON.
-/

namespace DiscogsIngestion

/-! ## Strings -/

/-- The trimmed string a field holds, if it is a string and not blank. -/
def trimmed (entry : Map) (key : String) : Option String :=
  match Map.get key entry with
  | some (.string s) => if trim s = "" then none else some (trim s)
  | _ => none

theorem trimmed_eq_some {entry : Map} {key s : String} :
    trimmed entry key = some s ↔ ∃ text, Map.get key entry = some (.string text) ∧ trim text = s ∧ s ≠ "" := by
  unfold trimmed
  cases hget : Map.get key entry with
  | none => simp
  | some v =>
    cases v with
    | string text =>
      dsimp only
      split_ifs with hblank
      · constructor
        · exact fun h => absurd h (by simp)
        · rintro ⟨text', htext, rfl, hne⟩
          obtain rfl : text = text' := by simpa using htext
          exact absurd hblank hne
      · constructor
        · intro h
          obtain rfl := Option.some.inj h
          exact ⟨text, rfl, rfl, hblank⟩
        · rintro ⟨text', htext, rfl, -⟩
          obtain rfl : text = text' := by simpa using htext
          rfl
    | _ => simp

/-- The entries of a list field, or nothing at all when the field is absent or is not a list. -/
def entriesOf : Option Value → List Value
  | some (.array items) => items
  | _ => []

def sortedUnique (values : List String) : List String := (values.insertionSort (· ≤ ·)).dedup

theorem mem_sortedUnique {values : List String} {s : String} : s ∈ sortedUnique values ↔ s ∈ values := by
  unfold sortedUnique
  rw [List.mem_dedup, List.mem_insertionSort]

theorem sortedUnique_strict (values : List String) : (sortedUnique values).Pairwise (· < ·) := by
  unfold sortedUnique
  have hsorted : (values.insertionSort (· ≤ ·)).dedup.Pairwise (· ≤ ·) :=
    (List.pairwise_insertionSort _ values).sublist (List.dedup_sublist _)
  have hnodup : (values.insertionSort (· ≤ ·)).dedup.Pairwise (· ≠ ·) := List.nodup_dedup _
  exact (hsorted.and hnodup).imp fun h => lt_of_le_of_ne h.1 h.2

/-! ## Numbers -/

/-- The number as an unsigned 64-bit one. -/
def Number.asU64 : Number → Option Nat
  | .integer n => if 0 ≤ n ∧ n < 2 ^ 64 then some n.toNat else none
  | .decimal _ => none

/-! ## Structures -/

namespace Value

def record (fields : List (String × Value)) : Value := .object (Map.insertAll fields [])

def strings (values : List String) : Value := .array (values.map .string)

def optional : Option String → Value
  | some s => .string s
  | none => .null

def optionalNumber : Option Number → Value
  | some n => .number n
  | none => .null

def nat (n : Nat) : Value := .number (.integer n)

theorem record_ordered {fields : List (String × Value)} (h : ∀ e ∈ fields, e.2.Ordered) : (record fields).Ordered := by
  refine .object (Map.insertAll_sorted fields Map.sorted_nil) fun e he => ?_
  rcases Map.mem_insertAll he with he | he
  · exact h e he
  · exact absurd he List.not_mem_nil

@[simp] theorem strings_ordered (values : List String) : (strings values).Ordered := by
  refine .array fun v hv => ?_
  obtain ⟨s, -, rfl⟩ := List.mem_map.1 hv
  exact .string s

@[simp] theorem optional_ordered (s : Option String) : (optional s).Ordered := by
  cases s with
  | none => exact .null
  | some s => exact .string s

@[simp] theorem optionalNumber_ordered (n : Option Number) : (optionalNumber n).Ordered := by
  cases n with
  | none => exact .null
  | some n => exact .number n

@[simp] theorem nat_ordered (n : Nat) : (nat n).Ordered := .number _

theorem array_map_ordered {τ : Type} {encode : τ → Value} (h : ∀ v, (encode v).Ordered) (items : List τ) :
    Ordered (.array (items.map encode)) := by
  refine .array fun v hv => ?_
  obtain ⟨item, -, rfl⟩ := List.mem_map.1 hv
  exact h item

end Value

attribute [simp] Value.Ordered.null Value.Ordered.string

end DiscogsIngestion
