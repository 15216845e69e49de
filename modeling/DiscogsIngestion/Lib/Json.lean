import DiscogsIngestion.Lib.Table

/-!
# JSON documents

Documents over a type of primitive values, as text and as trees.

* `Json` : a document; the fields of an object stand as they are written, also repeated ones;
* `Token`, `Json.tokens`, `Json.parse` : its text, and `parse_tokens` : reading what was written;
* `Json.field` : a named field of an object, where a repeated one is an error;
* `Json.ofTable`, `Json.toTable` : tables as objects; the last entry for a key stands;
* `Json.ofList`, `Json.toList` : lists as arrays.
-/

inductive Json (α : Type) where
  | atom (a : α)
  | array (items : List (Json α))
  | object (fields : List (String × Json α))

/-- A piece of text. Separators carry no meaning and are left out; `junk` is a piece that is none of the others. -/
inductive Token (α : Type) where
  | atom (a : α)
  | key (name : String)
  | openArray
  | closeArray
  | openObject
  | closeObject
  | junk
  deriving DecidableEq

namespace Json

variable {α τ : Type}

/-! ## Text -/

mutual

def tokens : Json α → List (Token α)
  | atom a => [.atom a]
  | array items => .openArray :: (itemTokens items ++ [.closeArray])
  | object fields => .openObject :: (fieldTokens fields ++ [.closeObject])

def itemTokens : List (Json α) → List (Token α)
  | [] => []
  | j :: rest => j.tokens ++ itemTokens rest

def fieldTokens : List (String × Json α) → List (Token α)
  | [] => []
  | (name, j) :: rest => .key name :: (j.tokens ++ fieldTokens rest)

end

mutual

/-- Read a document and return the text behind it. -/
def parseValue : Nat → List (Token α) → Option (Json α × List (Token α))
  | _ + 1, .atom a :: rest => some (atom a, rest)
  | n + 1, .openArray :: rest => (parseItems n rest).map fun r => (array r.1, r.2)
  | n + 1, .openObject :: rest => (parseFields n rest).map fun r => (object r.1, r.2)
  | _, _ => none

def parseItems : Nat → List (Token α) → Option (List (Json α) × List (Token α))
  | 0, _ => none
  | _ + 1, .closeArray :: rest => some ([], rest)
  | n + 1, text =>
    match parseValue n text with
    | some (j, rest) => (parseItems n rest).map fun r => (j :: r.1, r.2)
    | none => none

def parseFields : Nat → List (Token α) → Option (List (String × Json α) × List (Token α))
  | 0, _ => none
  | _ + 1, .closeObject :: rest => some ([], rest)
  | n + 1, .key name :: text =>
    match parseValue n text with
    | some (j, rest) => (parseFields n rest).map fun r => ((name, j) :: r.1, r.2)
    | none => none
  | _, _ => none

end

def parse (text : List (Token α)) : Option (Json α) :=
  match parseValue text.length text with
  | some (j, []) => some j
  | _ => none

/-- No document begins with a closing bracket. -/
theorem tokens_eq_cons (j : Json α) : ∃ t rest, j.tokens = t :: rest ∧ t ≠ .closeArray := by
  cases j with
  | atom a => exact ⟨_, _, by rw [tokens], by simp⟩
  | array items => exact ⟨_, _, by rw [tokens], by simp⟩
  | object fields => exact ⟨_, _, by rw [tokens], by simp⟩

theorem parseItems_of_ne {n : Nat} {t : Token α} (h : t ≠ .closeArray) (text : List (Token α)) :
    parseItems (n + 1) (t :: text) =
      match parseValue n (t :: text) with
      | some (j, rest) => (parseItems n rest).map fun r => (j :: r.1, r.2)
      | none => none := by
  cases t <;> first | exact absurd rfl h | rw [parseItems]; simp

mutual

theorem parseValue_tokens (j : Json α) (rest : List (Token α)) {n : Nat} (hn : j.tokens.length ≤ n) :
    parseValue n (j.tokens ++ rest) = some (j, rest) := by
  match j with
  | atom a =>
    obtain ⟨n, rfl⟩ : ∃ m, n = m + 1 := ⟨n - 1, by simp [tokens] at hn; omega⟩
    simp [tokens, parseValue]
  | array items =>
    simp only [tokens, List.length_cons, List.length_append, List.length_nil] at hn
    obtain ⟨n, rfl⟩ : ∃ m, n = m + 1 := ⟨n - 1, by omega⟩
    have hitems := parseItems_tokens items rest (show (itemTokens items).length + 1 ≤ n by omega)
    simp only [tokens, List.cons_append, List.append_assoc, List.nil_append, parseValue, hitems, Option.map_some]
  | object fields =>
    simp only [tokens, List.length_cons, List.length_append, List.length_nil] at hn
    obtain ⟨n, rfl⟩ : ∃ m, n = m + 1 := ⟨n - 1, by omega⟩
    have hfields := parseFields_tokens fields rest (show (fieldTokens fields).length + 1 ≤ n by omega)
    simp only [tokens, List.cons_append, List.append_assoc, List.nil_append, parseValue, hfields, Option.map_some]

theorem parseItems_tokens (items : List (Json α)) (rest : List (Token α)) {n : Nat}
    (hn : (itemTokens items).length + 1 ≤ n) :
    parseItems n (itemTokens items ++ .closeArray :: rest) = some (items, rest) := by
  obtain ⟨n, rfl⟩ : ∃ m, n = m + 1 := ⟨n - 1, by omega⟩
  match items with
  | [] => simp [itemTokens, parseItems]
  | j :: items =>
    obtain ⟨t, more, htokens, hne⟩ := tokens_eq_cons j
    simp only [itemTokens, List.length_append] at hn
    have hpos : 1 ≤ j.tokens.length := by simp [htokens]
    have hj := parseValue_tokens j (itemTokens items ++ .closeArray :: rest) (show j.tokens.length ≤ n by omega)
    have hitems := parseItems_tokens items rest (show (itemTokens items).length + 1 ≤ n by omega)
    rw [itemTokens, List.append_assoc]
    rw [htokens, List.cons_append] at hj ⊢
    simp only [parseItems_of_ne hne, hj, hitems, Option.map_some]

theorem parseFields_tokens (fields : List (String × Json α)) (rest : List (Token α)) {n : Nat}
    (hn : (fieldTokens fields).length + 1 ≤ n) :
    parseFields n (fieldTokens fields ++ .closeObject :: rest) = some (fields, rest) := by
  obtain ⟨n, rfl⟩ : ∃ m, n = m + 1 := ⟨n - 1, by omega⟩
  match fields with
  | [] => simp [fieldTokens, parseFields]
  | (name, j) :: fields =>
    simp only [fieldTokens, List.length_cons, List.length_append] at hn
    have hj := parseValue_tokens j (fieldTokens fields ++ .closeObject :: rest) (show j.tokens.length ≤ n by omega)
    have hfields := parseFields_tokens fields rest (show (fieldTokens fields).length + 1 ≤ n by omega)
    rw [fieldTokens, List.cons_append, List.append_assoc, parseFields]
    simp only [hj, hfields, Option.map_some]

end

theorem parse_tokens (j : Json α) : parse j.tokens = some j := by
  have h := parseValue_tokens j [] (le_refl j.tokens.length)
  rw [List.append_nil] at h
  unfold parse
  rw [h]

/-! ## Fields -/

/-- The field of an object with this name, if there is one; a repeated field is an error. -/
def field (name : String) (fields : List (String × Json α)) : Option (Option (Json α)) :=
  match fields.filter fun f => f.1 = name with
  | [] => some none
  | [f] => some (some f.2)
  | _ => none

def required (decode : Json α → Option τ) (name : String) (fields : List (String × Json α)) : Option τ :=
  match field name fields with
  | some (some j) => decode j
  | _ => none

theorem field_eq_of_mem {name : String} {fields : List (String × Json α)} {j : Json α}
    (hnodup : (fields.map Prod.fst).Nodup) (hmem : (name, j) ∈ fields) : field name fields = some (some j) := by
  have hfilter : (fields.filter fun f => f.1 = name) = [(name, j)] := by
    induction fields with
    | nil => exact absurd hmem (List.not_mem_nil)
    | cons f fields ih =>
      obtain ⟨hnot, hrest⟩ := List.nodup_cons.1 hnodup
      rcases List.mem_cons.1 hmem with rfl | hmem
      · have hnone : (fields.filter fun f => f.1 = name) = [] := by
          rw [List.filter_eq_nil_iff]
          intro f hf heq
          exact hnot (List.mem_map.2 ⟨f, hf, of_decide_eq_true heq⟩)
        rw [List.filter_cons_of_pos (by simp), hnone]
      · have hne : f.1 ≠ name := by
          rintro rfl
          exact hnot (List.mem_map.2 ⟨_, hmem, rfl⟩)
        rw [List.filter_cons_of_neg (by simpa using hne)]
        exact ih hrest hmem
  unfold field
  rw [hfilter]

theorem required_eq {decode : Json α → Option τ} {name : String} {fields : List (String × Json α)} {j : Json α}
    (hnodup : (fields.map Prod.fst).Nodup) (hmem : (name, j) ∈ fields) : required decode name fields = decode j := by
  unfold required
  rw [field_eq_of_mem hnodup hmem]

/-! ## Tables and lists -/

/-- A table as an object. The entries stand in the order in which an iteration meets them. -/
def ofTable (encode : τ → Json α) (t : Table String τ) : Json α :=
  object (t.entries.map fun e => (e.1, encode e.2))

def collectFields (decode : Json α → Option τ) : List (String × Json α) → Option (Table String τ)
  | [] => some ∅
  | (name, j) :: rest =>
    match decode j, collectFields decode rest with
    | some v, some t => some (if name ∈ t then t else t.insert name v)
    | _, _ => none

def toTable (decode : Json α → Option τ) : Json α → Option (Table String τ)
  | object fields => collectFields decode fields
  | _ => none

theorem toTable_ofTable {encode : τ → Json α} {decode : Json α → Option τ} (h : ∀ v, decode (encode v) = some v)
    (t : Table String τ) : toTable decode (ofTable encode t) = some t := by
  obtain ⟨entries, hnodup⟩ := t
  show collectFields decode (entries.map fun e => (e.1, encode e.2)) = some ⟨entries, hnodup⟩
  induction entries with
  | nil => rfl
  | cons e entries ih =>
    obtain ⟨hnot, hrest⟩ := List.nodupKeys_cons.1 hnodup
    have hnot' : e.1 ∉ (⟨entries, hrest⟩ : Table String τ) := hnot
    simp only [List.map_cons, collectFields, h, ih hrest, if_neg hnot']
    congr 1
    apply AList.ext
    rw [AList.entries_insert_of_notMem hnot']

def ofList (encode : τ → Json α) (l : List τ) : Json α := array (l.map encode)

def toList (decode : Json α → Option τ) : Json α → Option (List τ)
  | array items => items.mapM decode
  | _ => none

theorem toList_ofList {encode : τ → Json α} {decode : Json α → Option τ} (h : ∀ v, decode (encode v) = some v)
    (l : List τ) : toList decode (ofList encode l) = some l := by
  show (l.map encode).mapM decode = some l
  induction l with
  | nil => rfl
  | cons v l ih => simp [h, ih]

end Json
