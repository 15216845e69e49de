import Mathlib.Data.List.Defs

/-!
# Schemas for JSON values

A part of JSON Schema, over any type of values that can be looked at one level deep.

* `Shape`, `Kind` : a value one level deep, and its type;
* `Schema` : the keywords; `all`, `properties`, `object`, `array` : the ways in which they are written together;
* `Valid` : the values that satisfy a schema;
* `valid_object`, `valid_array`, `valid_string` : the rules for what is written together.
-/

namespace Schema

inductive Kind where
  | null
  | boolean
  | number
  | string
  | array
  | object
  deriving DecidableEq, Repr

/-- A value one level deep. -/
inductive Shape (ν : Type) where
  | null
  | bool (b : Bool)
  | number
  | string (s : String)
  | array (items : List ν)
  | object (fields : List (String × ν))

def Shape.kind {ν : Type} : Shape ν → Kind
  | null => .null
  | bool _ => .boolean
  | number => .number
  | string _ => .string
  | array _ => .array
  | object _ => .object

end Schema

open Schema

/-- The validation keywords. A keyword says nothing of values of other types than its own. -/
inductive Schema (ν : Type) where
  | any
  | type (kinds : List Kind)
  | enum (values : List ν)
  | minLength (n : Nat)
  | items (schema : Schema ν)
  | uniqueItems
  | required (names : List String)
  | property (name : String) (schema : Schema ν)
  /-- `additionalProperties: false` beside these properties. -/
  | closed (names : List String)
  | both (s t : Schema ν)

namespace Schema

variable {ν : Type}

def all : List (Schema ν) → Schema ν
  | [] => any
  | s :: rest => both s (all rest)

def properties (fields : List (String × Schema ν)) : Schema ν := all (fields.map fun field => property field.1 field.2)

def object (fields : List (String × Schema ν)) : Schema ν :=
  all [type [.object], closed (fields.map Prod.fst), required (fields.map Prod.fst), properties fields]

def array (schema : Schema ν) : Schema ν := all [type [.array], items schema]

/-- An array of such items, all of them different. -/
def set (schema : Schema ν) : Schema ν := all [type [.array], uniqueItems, items schema]

variable (view : ν → Shape ν)

def Valid : Schema ν → ν → Prop
  | any, _ => True
  | type kinds, v => (view v).kind ∈ kinds
  | enum values, v => v ∈ values
  | minLength n, v => ∀ s, view v = .string s → n ≤ s.length
  | items schema, v => ∀ vs, view v = .array vs → ∀ w ∈ vs, Valid schema w
  | uniqueItems, v => ∀ vs, view v = .array vs → vs.Nodup
  | required names, v => ∀ fields, view v = .object fields → ∀ name ∈ names, name ∈ fields.map Prod.fst
  | property name schema, v => ∀ fields, view v = .object fields → ∀ w, (name, w) ∈ fields → Valid schema w
  | closed names, v => ∀ fields, view v = .object fields → ∀ field ∈ fields, field.1 ∈ names
  | both s t, v => Valid s v ∧ Valid t v

variable {view} {v : ν}

theorem valid_all {ss : List (Schema ν)} : Valid view (all ss) v ↔ ∀ s ∈ ss, Valid view s v := by
  induction ss with
  | nil => exact iff_of_true trivial fun s hs => absurd hs List.not_mem_nil
  | cons s rest ih =>
    rw [List.forall_mem_cons, ← ih]
    rfl

theorem valid_object {fields : List (String × ν)} {schemas : List (String × Schema ν)} (hv : view v = .object fields)
    (hnames : ∀ name, name ∈ fields.map Prod.fst ↔ name ∈ schemas.map Prod.fst)
    (hfields : ∀ field ∈ schemas, ∀ w, (field.1, w) ∈ fields → Valid view field.2 w) :
    Valid view (object schemas) v := by
  refine valid_all.2 (List.forall_mem_cons.2 ⟨?_, List.forall_mem_cons.2 ⟨?_, List.forall_mem_cons.2 ⟨?_,
    List.forall_mem_cons.2 ⟨?_, fun s hs => absurd hs List.not_mem_nil⟩⟩⟩⟩)
  · show (view v).kind ∈ [Kind.object]
    rw [hv]
    exact List.mem_singleton_self _
  · intro fields' hv' field hfield
    obtain rfl := Shape.object.inj (hv.symm.trans hv')
    exact (hnames field.1).1 (List.mem_map_of_mem hfield)
  · intro fields' hv' name hname
    obtain rfl := Shape.object.inj (hv.symm.trans hv')
    exact (hnames name).2 hname
  · refine valid_all.2 fun s hs => ?_
    obtain ⟨field, hfield, rfl⟩ := List.mem_map.1 hs
    intro fields' hv' w hw
    obtain rfl := Shape.object.inj (hv.symm.trans hv')
    exact hfields field hfield w hw

theorem valid_array {schema : Schema ν} {vs : List ν} (hv : view v = .array vs) (h : ∀ w ∈ vs, Valid view schema w) :
    Valid view (array schema) v := by
  refine valid_all.2 (List.forall_mem_cons.2 ⟨?_, List.forall_mem_cons.2 ⟨?_, fun s hs => absurd hs List.not_mem_nil⟩⟩)
  · show (view v).kind ∈ [Kind.array]
    rw [hv]
    exact List.mem_singleton_self _
  · intro vs' hv'
    obtain rfl := Shape.array.inj (hv.symm.trans hv')
    exact h

theorem valid_set {schema : Schema ν} {vs : List ν} (hv : view v = .array vs) (hnodup : vs.Nodup)
    (h : ∀ w ∈ vs, Valid view schema w) : Valid view (set schema) v := by
  refine valid_all.2 (List.forall_mem_cons.2 ⟨?_, List.forall_mem_cons.2 ⟨?_, List.forall_mem_cons.2 ⟨?_,
    fun s hs => absurd hs List.not_mem_nil⟩⟩⟩)
  · show (view v).kind ∈ [Kind.array]
    rw [hv]
    exact List.mem_singleton_self _
  · intro vs' hv'
    obtain rfl := Shape.array.inj (hv.symm.trans hv')
    exact hnodup
  · intro vs' hv'
    obtain rfl := Shape.array.inj (hv.symm.trans hv')
    exact h

theorem valid_string {kinds : List Kind} {n : Nat} {s : String} (hv : view v = .string s) (hkind : .string ∈ kinds)
    (hlength : n ≤ s.length) : Valid view (all [type kinds, minLength n]) v := by
  refine valid_all.2 (List.forall_mem_cons.2 ⟨?_, List.forall_mem_cons.2 ⟨?_, fun s hs => absurd hs List.not_mem_nil⟩⟩)
  · show (view v).kind ∈ kinds
    rw [hv]
    exact hkind
  · intro s' hv'
    obtain rfl := Shape.string.inj (hv.symm.trans hv')
    exact hlength

/-- Null, where it is allowed: the length of a string says nothing of it. -/
theorem valid_null {kinds : List Kind} {n : Nat} (hv : view v = .null) (hkind : .null ∈ kinds) :
    Valid view (all [type kinds, minLength n]) v := by
  refine valid_all.2 (List.forall_mem_cons.2 ⟨?_, List.forall_mem_cons.2 ⟨?_, fun s hs => absurd hs List.not_mem_nil⟩⟩)
  · show (view v).kind ∈ kinds
    rw [hv]
    exact hkind
  · intro s' hv'
    exact nomatch hv.symm.trans hv'

end Schema
