import DiscogsIngestion.Lib.Schema
import DiscogsIngestion.Record.IdentifierBlock

/-!
# The schema of the identifiers block

* `Value.shape` : JSON values one level deep;
* `valid_record` : a structure whose fields satisfy the schemas of its properties;
* `blockSchema` : the vendored schema, less its annotations;
* `mapDiscogsIdentifiers_exact` : the block that is attached is exact, and satisfies the schema.
-/

namespace DiscogsIngestion

def Value.shape : Value → Schema.Shape Value
  | null => .null
  | bool b => .bool b
  | number _ => .number
  | string s => .string s
  | array items => .array items
  | object entries => .object entries

theorem valid_record {fields : List (String × Value)} {schemas : List (String × Schema Value)}
    (hnodup : (schemas.map Prod.fst).Nodup)
    (h : List.Forall₂ (fun field schema => field.1 = schema.1 ∧ Schema.Valid Value.shape schema.2 field.2)
      fields schemas) : Schema.Valid Value.shape (.object schemas) (.record fields) := by
  have hnames : fields.map Prod.fst = schemas.map Prod.fst := by
    induction h with
    | nil => rfl
    | cons hfield _ ih =>
      rw [List.map_cons, List.map_cons, hfield.1, ih (List.nodup_cons.1 hnodup).2]
  refine Schema.valid_object rfl (fun name => ?_) fun schema hschema w hw => ?_
  · rw [Map.mem_keys_insertAll, hnames]
    simp
  · have hfield : (schema.1, w) ∈ fields := (Map.mem_insertAll hw).resolve_right List.not_mem_nil
    obtain ⟨schema', hschema', heq, hvalid⟩ := Identifiers.exists_of_forall₂ h.flip _ hfield
    rwa [List.inj_on_of_nodup_map hnodup hschema hschema' heq]

/-- Structures with the same fields are told apart by them. -/
theorem get_of_record_eq {fields fields' : List (String × Value)} (h : Value.record fields = .record fields')
    (hnodup : (fields.map Prod.fst).Nodup) (hnodup' : (fields'.map Prod.fst).Nodup) (key : String) :
    Map.get key fields = Map.get key fields' := by
  have hget := congrArg (Map.get key) (Value.object.inj h)
  rw [Map.get_insertAll_of_nodup hnodup, Map.get_insertAll_of_nodup hnodup'] at hget
  simpa only [Map.get, Option.or_none] using hget

theorem IdentifierAlias.toValue_injective : Function.Injective IdentifierAlias.toValue := by
  intro a b h
  have hnodup : ["provider", "external_id"].Nodup := by decide
  have hget := get_of_record_eq h hnodup hnodup
  have hprovider := hget "provider"
  have hexternal := hget "external_id"
  simp [Map.get] at hprovider hexternal
  cases a
  cases b
  exact congrArg₂ mk hprovider hexternal

/-! ## The schema -/

namespace Identifiers

open Schema

def identifierTypeId : Schema Value :=
  .enum [.string "barcode", .string "matrix_runout", .string "label_code", .string "rights_society", .string "asin",
    .string "other", .string "catalog_number"]

def nonemptyString : Schema Value := all [type [.string], minLength 1]

def nonemptyStringOrNull : Schema Value := all [type [.string, .null], minLength 1]

def sourceSchema : Schema Value := .object [
  ("provider", .enum [.string "discogs", .string "musicbrainz"]),
  ("type", nonemptyStringOrNull),
  ("field", .enum [.string "identifiers", .string "labels[].catno", .string "barcode",
    .string "label-info[].catalog-number"])]

def itemSchema : Schema Value := .object [
  ("type", identifierTypeId),
  ("value", nonemptyString),
  ("description", nonemptyStringOrNull),
  ("source", sourceSchema)]

def aliasSchema : Schema Value := .object [
  ("provider", .enum [.string "barcode", .string "catalog_number", .string "matrix"]),
  ("external_id", nonemptyString)]

def blockSchema : Schema Value := .object [
  ("identifiers_version", .enum [.string "1"]),
  ("items", .array itemSchema),
  ("types", .set identifierTypeId),
  ("aliases", .set aliasSchema),
  ("unmapped", .object [("types", .set nonemptyString)])]

theorem one_le_length {s : String} (h : s ≠ "") : 1 ≤ s.length := by
  refine Nat.one_le_iff_ne_zero.2 fun hlength => h ?_
  exact String.length_eq_zero_iff.1 hlength

theorem nonemptyString_valid {s : String} (h : s ≠ "") : Valid Value.shape nonemptyString (.string s) :=
  valid_string rfl (List.mem_singleton_self _) (one_le_length h)

theorem nonemptyStringOrNull_valid {s : Option String} (h : ∀ t, s = some t → t ≠ "") :
    Valid Value.shape nonemptyStringOrNull (.optional s) := by
  cases s with
  | none => exact valid_null rfl (by decide)
  | some t => exact valid_string rfl (by decide) (one_le_length (h t rfl))

theorem identifierTypeId_valid {s : String} (h : s ∈ vendoredVocabulary.typeIds) :
    Valid Value.shape identifierTypeId (.string s) := by
  show Value.string s ∈ vendoredVocabulary.typeIds.map Value.string
  exact List.mem_map_of_mem h

theorem itemSchema_valid {item : IdentifierItem} (h : Sound vendoredVocabulary item) :
    Valid Value.shape itemSchema item.toValue := by
  have hsource : Valid Value.shape sourceSchema (.record [
      ("provider", .string item.source.provider),
      ("type", .optional item.source.typeName),
      ("field", .string item.source.field)]) := by
    refine valid_record (by decide) (.cons ⟨rfl, ?_⟩ (.cons ⟨rfl, ?_⟩ (.cons ⟨rfl, ?_⟩ .nil)))
    · rw [h.provider]
      exact List.mem_cons_self ..
    · exact nonemptyStringOrNull_valid h.typeName
    · rcases h.field with hfield | hfield
      · rw [hfield]
        exact List.mem_cons_self ..
      · rw [hfield]
        exact List.mem_cons_of_mem _ (List.mem_cons_self ..)
  refine valid_record (by decide) (.cons ⟨rfl, ?_⟩ (.cons ⟨rfl, ?_⟩ (.cons ⟨rfl, ?_⟩ (.cons ⟨rfl, hsource⟩ .nil))))
  · exact identifierTypeId_valid h.typeId
  · exact nonemptyString_valid h.value
  · exact nonemptyStringOrNull_valid h.description

theorem aliasSchema_valid {a : IdentifierAlias} {ns : AliasNamespace} (hns : ns ∈ vendoredVocabulary.aliasNamespaces)
    (hprovider : ns.provider = a.provider) (hne : a.externalId ≠ "") : Valid Value.shape aliasSchema a.toValue := by
  refine valid_record (by decide) (.cons ⟨rfl, ?_⟩ (.cons ⟨rfl, nonemptyString_valid hne⟩ .nil))
  show Value.string a.provider ∈ (vendoredVocabulary.aliasNamespaces.map AliasNamespace.provider).map Value.string
  rw [← hprovider]
  exact List.mem_map_of_mem (List.mem_map_of_mem hns)

theorem strings_valid {schema : Schema Value} {values : List String} (hsorted : values.Pairwise (· < ·))
    (h : ∀ s ∈ values, Valid Value.shape schema (.string s)) : Valid Value.shape (.set schema) (.strings values) := by
  have hnodup : values.Nodup := hsorted.imp fun hlt => hlt.ne
  refine valid_set rfl ?_ fun v hv => ?_
  · exact hnodup.map fun a b heq => Value.string.inj heq
  · obtain ⟨s, hs, rfl⟩ := List.mem_map.1 hv
    exact h s hs

theorem aliases_nodup {aliases : List IdentifierAlias} (h : aliases.Pairwise IdentifierAlias.Lt) : aliases.Nodup := by
  refine h.imp fun {a b} hlt heq => ?_
  rw [heq, IdentifierAlias.lt_iff] at hlt
  exact lt_irrefl _ hlt

/-- An exact block of sound items satisfies the schema. -/
theorem Exact.valid {casing : CaseMapping} {identifiers labels : Option Value} {block : IdentifiersBlock}
    (h : Exact casing vendoredVocabulary identifiers labels block)
    (hsound : ∀ item ∈ block.items, Sound vendoredVocabulary item) :
    Valid Value.shape blockSchema block.toValue := by
  refine valid_record (by decide) (.cons ⟨rfl, ?_⟩ (.cons ⟨rfl, ?_⟩ (.cons ⟨rfl, ?_⟩ (.cons ⟨rfl, ?_⟩
    (.cons ⟨rfl, ?_⟩ .nil)))))
  · rw [h.version]
    exact List.mem_singleton_self _
  · refine valid_array rfl fun v hv => ?_
    obtain ⟨item, hitem, rfl⟩ := List.mem_map.1 hv
    exact itemSchema_valid (hsound item hitem)
  · refine strings_valid h.types_sorted fun s hs => ?_
    obtain ⟨item, hitem, rfl⟩ := (h.types s).1 hs
    exact identifierTypeId_valid (h.known item hitem)
  · refine valid_set rfl ((aliases_nodup h.aliases_sorted).map IdentifierAlias.toValue_injective) fun v hv => ?_
    obtain ⟨a, ha, rfl⟩ := List.mem_map.1 hv
    obtain ⟨item, -, ns, hns, -, hprovider, -, hne⟩ := (h.aliases a).1 ha
    exact aliasSchema_valid hns hprovider hne
  · refine valid_record (by decide) (.cons ⟨rfl, strings_valid h.unmappedTypes_sorted fun s hs => ?_⟩ .nil)
    obtain ⟨-, item, hitem, htype⟩ := (h.unmappedTypes s).1 hs
    exact nonemptyString_valid ((hsound item hitem).typeName s htype)

/-- The identifiers block of any two lists. -/
theorem mapDiscogsIdentifiers_exact {casing : CaseMapping} (hcasing : casing.UpperLaws)
    (identifiers labels : Option Value) :
    Exact casing vendoredVocabulary identifiers labels
        (mapDiscogsIdentifiers casing (.ofDocument casing vendoredVocabulary) identifiers labels) ∧
      Valid Value.shape blockSchema
        (mapDiscogsIdentifiers casing (.ofDocument casing vendoredVocabulary) identifiers labels).toValue := by
  have hexact := exact_of_wellFormed vendoredVocabulary_wellFormed hcasing identifiers labels
  exact ⟨hexact, hexact.valid (sound_of_mem_items vendoredVocabulary_wellFormed identifiers labels)⟩

/-! ## ASCII text -/

theorem toUpper_cases (c : Char) : c.toUpper = c ∨ 65 ≤ c.toUpper.toNat ∧ c.toUpper.toNat ≤ 90 := by
  unfold Char.toUpper
  split_ifs with h
  · right
    have hlow : ('a'.val).toNat ≤ c.val.toNat := UInt32.le_iff_toNat_le.1 h.1
    have hhigh : c.val.toNat ≤ ('z'.val).toNat := UInt32.le_iff_toNat_le.1 h.2
    have ha : ('a'.val).toNat = 97 := rfl
    have hz : ('z'.val).toNat = 122 := rfl
    have hshift : ('A'.val - 'a'.val).toNat = 2 ^ 32 - 32 := by decide
    show 65 ≤ (c.val + ('A'.val - 'a'.val)).toNat ∧ (c.val + ('A'.val - 'a'.val)).toNat ≤ 90
    rw [UInt32.toNat_add, hshift]
    omega
  · exact .inl rfl

theorem toUpper_of_upper {c : Char} (h : c.toNat ≤ 90) : c.toUpper = c := by
  unfold Char.toUpper
  refine dif_neg fun hlower => ?_
  have hlow : ('a'.val).toNat ≤ c.toNat := UInt32.le_iff_toNat_le.1 hlower.1
  have ha : ('a'.val).toNat = 97 := rfl
  omega

theorem toList_toUppercase_ascii (s : String) :
    (asciiCasing.toUppercase s).toList = s.toList.map Char.toUpper := String.toList_ofList

theorem toList_toUppercase_singleton (c : Char) :
    (asciiCasing.toUppercase (String.singleton c)).toList = [c.toUpper] := by
  rw [toList_toUppercase_ascii, String.toList_singleton, List.map_singleton]

theorem asciiCasing_upperLaws : asciiCasing.UpperLaws where
  charwise s := by
    rw [toList_toUppercase_ascii, List.map_eq_flatMap]
    simp only [toList_toUppercase_singleton]
  nonempty c h := by
    have hlist := toList_toUppercase_singleton c
    rw [h] at hlist
    exact nomatch hlist
  space := by decide
  noWhitespace c hc d hd := by
    rw [toList_toUppercase_singleton, List.mem_singleton] at hd
    rw [hd]
    rcases toUpper_cases c with hsame | hupper
    · rw [hsame]
      exact hc
    · unfold isWhitespace
      simp only [Bool.or_eq_false_iff, Bool.and_eq_false_iff, decide_eq_false_iff_not]
      omega
  idempotent s := by
    have htwice : Char.toUpper ∘ Char.toUpper = Char.toUpper := by
      funext c
      rcases toUpper_cases c with hsame | hupper
      · exact congrArg Char.toUpper hsame
      · exact toUpper_of_upper hupper.2
    apply String.toList_injective
    rw [toList_toUppercase_ascii, toList_toUppercase_ascii, List.map_map, htwice]

/-- A barcode, an identifier of a type that the vocabulary has not, a catalogue number and an absent one. -/
theorem mapDiscogsIdentifiers_exact_ascii :
    let identifiers := some (.array [
      .object [("type", .string "Barcode"), ("value", .string " 5 012-394")],
      .object [("type", .string "Stamp"), ("value", .string "x")]])
    let labels := some (.array [.object [("catno", .string "cat  7")], .object [("catno", .string "NONE")]])
    let block := mapDiscogsIdentifiers asciiCasing (.ofDocument asciiCasing vendoredVocabulary) identifiers labels
    block.aliases = [⟨"barcode", "5012394"⟩, ⟨"catalog_number", "CAT 7"⟩] ∧ block.unmappedTypes = ["Stamp"] ∧
      Exact asciiCasing vendoredVocabulary identifiers labels block ∧
      Valid Value.shape blockSchema block.toValue :=
  ⟨by decide +kernel, by decide +kernel, mapDiscogsIdentifiers_exact asciiCasing_upperLaws _ _⟩

end Identifiers

end DiscogsIngestion
