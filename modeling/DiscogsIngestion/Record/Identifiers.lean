import DiscogsIngestion.Lib.Table
import DiscogsIngestion.Record.Block

/-!
# The canonical identifiers block

* `Identifiers.Vocabulary` : the type of a raw type string, and the alias namespace a type mints into;
* `IdentifierItem`, `IdentifierAlias`, `IdentifiersBlock` : the block;
* `normalizeAliasValue` : the three rules for alias values;
* `mapDiscogsIdentifiers`, `attachIdentifiersBlock` : the mapper.
-/

namespace DiscogsIngestion

/-- The case mappings of Unicode. -/
structure CaseMapping where
  toLowercase : String → String
  toUppercase : String → String

/-- The one canonical type with no raw string behind it. -/
def catalogNumberType : String := "catalog_number"

namespace Identifiers

def asciiCasing : CaseMapping where
  toLowercase := DataType.lowercase
  toUppercase s := String.ofList (s.toList.map Char.toUpper)

/-- An alias namespace, and how a value is normalized before it becomes an alias. -/
structure AliasNamespace where
  provider : String
  typeId : String
  normalization : String
  deriving DecidableEq, Repr

/-- The vocabulary indexed for lookup. The marker of an absent catalogue number is in lower case. -/
structure Vocabulary where
  vocabularyVersion : String
  unmappedType : String
  namespaces : Table String AliasNamespace
  identifierField : String
  catalogNumberField : String
  absentCatalogNumber : String
  types : Table String String

end Identifiers

/-- Where one item came from. A catalogue number has no raw type. -/
structure IdentifierSource where
  provider : String
  typeName : Option String
  field : String
  deriving DecidableEq, Repr

structure IdentifierItem where
  typeId : String
  value : String
  description : Option String
  source : IdentifierSource
  deriving DecidableEq, Repr

structure IdentifierAlias where
  provider : String
  externalId : String
  deriving DecidableEq, Repr

structure IdentifiersBlock where
  identifiersVersion : String
  items : List IdentifierItem
  types : List String
  aliases : List IdentifierAlias
  unmappedTypes : List String
  deriving DecidableEq, Repr

def splitWhitespace (s : String) : List String :=
  ((s.toList.splitOnP isWhitespace).filter (· ≠ [])).map String.ofList

/-- Trim the value and collapse every run of whitespace to one space. -/
def collapseSpace (value : String) : String := " ".intercalate (splitWhitespace value)

/-- Apply an alias namespace's declared normalization. An unknown rule mints nothing. -/
def normalizeAliasValue (casing : CaseMapping) (normalization value : String) : Option String :=
  let normalized :=
    if normalization = "digits_only" then some (String.ofList (value.toList.filter Char.isDigit))
    else if normalization = "collapse_space" then some (collapseSpace value)
    else if normalization = "upper_collapse_space" then some (casing.toUppercase (collapseSpace value))
    else none
  normalized.filter (· ≠ "")

def IdentifierAlias.le (a b : IdentifierAlias) : Bool :=
  a.provider < b.provider || (a.provider = b.provider && a.externalId ≤ b.externalId)

namespace Identifiers

variable (casing : CaseMapping) (vocabulary : Vocabulary)

/-- The item of an entry that has a type and a value, and the type if the vocabulary does not know it. -/
def mapEntry : Value → Option (IdentifierItem × Option String)
  | .object entry =>
    match trimmed entry "type", trimmed entry "value" with
    | some rawType, some value =>
      let mapped := vocabulary.types.lookup rawType
      some (⟨mapped.getD vocabulary.unmappedType, value, trimmed entry "description",
        ⟨"discogs", some rawType, vocabulary.identifierField⟩⟩, if mapped.isNone then some rawType else none)
    | _, _ => none
  | _ => none

/-- The item of a label's catalogue number, unless it is the marker of an absent one. -/
def mapLabel : Value → Option IdentifierItem
  | .object entry =>
    match trimmed entry "catno" with
    | some catno =>
      if casing.toLowercase catno = vocabulary.absentCatalogNumber then none
      else some ⟨catalogNumberType, catno, none, ⟨"discogs", none, vocabulary.catalogNumberField⟩⟩
    | none => none
  | _ => none

def mintAlias (item : IdentifierItem) : Option IdentifierAlias :=
  match vocabulary.namespaces.lookup item.typeId with
  | some ns => (normalizeAliasValue casing ns.normalization item.value).map (⟨ns.provider, ·⟩)
  | none => none

/-- Map a normalized `identifiers` list and `labels` list onto the canonical block. -/
def mapDiscogsIdentifiers (identifiers labels : Option Value) : IdentifiersBlock :=
  let mapped := (entriesOf identifiers).filterMap (mapEntry vocabulary)
  let items := mapped.map Prod.fst ++ (entriesOf labels).filterMap (mapLabel casing vocabulary)
  { identifiersVersion := vocabulary.vocabularyVersion
    items
    types := sortedUnique (items.map IdentifierItem.typeId)
    aliases := ((items.filterMap (mintAlias casing vocabulary)).insertionSort fun a b => a.le b).dedup
    unmappedTypes := sortedUnique (mapped.filterMap Prod.snd) }

end Identifiers

def IdentifierItem.toValue (item : IdentifierItem) : Value :=
  .record [
    ("type", .string item.typeId),
    ("value", .string item.value),
    ("description", .optional item.description),
    ("source", .record [
      ("provider", .string item.source.provider),
      ("type", .optional item.source.typeName),
      ("field", .string item.source.field)])]

def IdentifierAlias.toValue (a : IdentifierAlias) : Value :=
  .record [("provider", .string a.provider), ("external_id", .string a.externalId)]

def IdentifiersBlock.toValue (block : IdentifiersBlock) : Value :=
  .record [
    ("identifiers_version", .string block.identifiersVersion),
    ("items", .array (block.items.map IdentifierItem.toValue)),
    ("types", .strings block.types),
    ("aliases", .array (block.aliases.map IdentifierAlias.toValue)),
    ("unmapped", .record [("types", .strings block.unmappedTypes)])]

/-- The block takes the place of the list. -/
def attachIdentifiersBlock (casing : CaseMapping) (vocabulary : Identifiers.Vocabulary) : Value → Value
  | .object map => .object
    (Map.insert "identifiers"
      (Identifiers.mapDiscogsIdentifiers casing vocabulary (Map.get "identifiers" map) (Map.get "labels" map)).toValue
      map)
  | record => record

theorem IdentifierItem.toValue_ordered (item : IdentifierItem) : item.toValue.Ordered := by
  have hsource : Value.Ordered (.record [("provider", .string item.source.provider),
      ("type", .optional item.source.typeName), ("field", .string item.source.field)]) :=
    Value.record_ordered (by simp)
  apply Value.record_ordered
  simp [hsource]

theorem IdentifierAlias.toValue_ordered (a : IdentifierAlias) : a.toValue.Ordered := by
  apply Value.record_ordered
  simp

theorem IdentifiersBlock.toValue_ordered (block : IdentifiersBlock) : block.toValue.Ordered := by
  have hitems := Value.array_map_ordered IdentifierItem.toValue_ordered block.items
  have haliases := Value.array_map_ordered IdentifierAlias.toValue_ordered block.aliases
  have hunmapped : Value.Ordered (.record [("types", .strings block.unmappedTypes)]) :=
    Value.record_ordered (by simp)
  apply Value.record_ordered
  simp [hitems, haliases, hunmapped]

end DiscogsIngestion
