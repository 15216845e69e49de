import DiscogsIngestion.Record.Identifiers

/-!
# The vendored identifier vocabulary

* `VocabularyDocument`, `Vocabulary.ofDocument` : the document, and its index;
* `WellFormed` : a document without repetitions that names no type it does not declare;
* `lookup_types`, `lookup_namespaces` : what the index of such a document finds;
* `vendoredVocabulary` : the document as vendored, less what is only for other readers.
-/

namespace DiscogsIngestion.Identifiers

/-- A canonical type, and the namespace it mints into if it is not stored in the block only. -/
structure IdentifierTypeDefinition where
  id : String
  aliasProvider : Option String := none
  deriving DecidableEq, Repr

/-- The Discogs section: which fields the values come from, the marker of an absent catalogue number, and
the canonical type of each raw type string. -/
structure DiscogsVocabulary where
  identifierField : Option String
  catalogNumberField : Option String
  absentCatalogNumber : Option String
  types : List (String × String)

structure VocabularyDocument where
  vocabularyVersion : String
  unmappedType : String
  identifierTypes : List IdentifierTypeDefinition
  aliasNamespaces : List AliasNamespace
  discogs : DiscogsVocabulary

namespace VocabularyDocument

variable (document : VocabularyDocument)

def typeIds : List String := document.identifierTypes.map IdentifierTypeDefinition.id

def identifierField : String := document.discogs.identifierField.getD "identifiers"

def catalogNumberField : String := document.discogs.catalogNumberField.getD "labels[].catno"

def absentCatalogNumber : String := document.discogs.absentCatalogNumber.getD ""

def declared : Table String (Option String) :=
  Table.collect (fun entry => some (entry.id, entry.aliasProvider)) document.identifierTypes

/-- No type, namespace or raw type string stands twice, and every type named is declared. -/
structure WellFormed : Prop where
  typeIds : document.typeIds.Nodup
  namespaceTypes : (document.aliasNamespaces.map AliasNamespace.typeId).Nodup
  providers : (document.aliasNamespaces.map AliasNamespace.provider).Nodup
  declares : ∀ ns ∈ document.aliasNamespaces, ⟨ns.typeId, some ns.provider⟩ ∈ document.identifierTypes
  rawTypes : (document.discogs.types.map Prod.fst).Nodup
  mapped : ∀ entry ∈ document.discogs.types, entry.2 ∈ document.typeIds
  unmapped : document.unmappedType ∈ document.typeIds
  catalogNumber : catalogNumberType ∈ document.typeIds

end VocabularyDocument

/-- The index. A namespace counts only when the type that declares it agrees. -/
def Vocabulary.ofDocument (casing : CaseMapping) (document : VocabularyDocument) : Vocabulary where
  vocabularyVersion := document.vocabularyVersion
  unmappedType := document.unmappedType
  namespaces := Table.collect (fun ns => some (ns.typeId, ns))
    (document.aliasNamespaces.filter fun ns => document.declared.lookup ns.typeId = some (some ns.provider))
  identifierField := document.identifierField
  catalogNumberField := document.catalogNumberField
  absentCatalogNumber := casing.toLowercase document.absentCatalogNumber
  types := Table.collect some document.discogs.types

/-! ## Lookups -/

variable {casing : CaseMapping} {document : VocabularyDocument}

theorem lookup_types (h : document.WellFormed) {raw typeId : String} :
    (Vocabulary.ofDocument casing document).types.lookup raw = some typeId ↔
      (raw, typeId) ∈ document.discogs.types := by
  show (Table.collect (fun entry : String × String => some (entry.1, entry.2)) document.discogs.types).lookup raw =
    some typeId ↔ _
  rw [Table.lookup_collect_of_nodup h.rawTypes]
  constructor
  · rintro ⟨⟨raw', typeId'⟩, hmem, rfl, rfl⟩
    exact hmem
  · exact fun hmem => ⟨_, hmem, rfl, rfl⟩

theorem lookup_types_eq_none (h : document.WellFormed) {raw : String} :
    (Vocabulary.ofDocument casing document).types.lookup raw = none ↔
      raw ∉ document.discogs.types.map Prod.fst := by
  rw [Option.eq_none_iff_forall_ne_some]
  constructor
  · intro hnone hmem
    obtain ⟨⟨raw', typeId⟩, hentry, rfl⟩ := List.mem_map.1 hmem
    exact hnone typeId ((lookup_types h).2 hentry)
  · intro hnot typeId hsome
    exact hnot (List.mem_map.2 ⟨_, (lookup_types h).1 hsome, rfl⟩)

theorem lookup_declared (h : document.WellFormed) {ns : AliasNamespace} (hns : ns ∈ document.aliasNamespaces) :
    document.declared.lookup ns.typeId = some (some ns.provider) := by
  unfold VocabularyDocument.declared
  exact (Table.lookup_collect_of_nodup h.typeIds).2 ⟨_, h.declares ns hns, rfl, rfl⟩

theorem lookup_namespaces (h : document.WellFormed) {typeId : String} {ns : AliasNamespace} :
    (Vocabulary.ofDocument casing document).namespaces.lookup typeId = some ns ↔
      ns ∈ document.aliasNamespaces ∧ ns.typeId = typeId := by
  have hfilter : (document.aliasNamespaces.filter fun ns =>
      document.declared.lookup ns.typeId = some (some ns.provider)) = document.aliasNamespaces :=
    List.filter_eq_self.2 fun ns hns => decide_eq_true (lookup_declared h hns)
  show (Table.collect (fun ns : AliasNamespace => some (ns.typeId, ns))
    (document.aliasNamespaces.filter fun ns => document.declared.lookup ns.typeId = some (some ns.provider))).lookup
      typeId = some ns ↔ _
  rw [hfilter, Table.lookup_collect_of_nodup h.namespaceTypes]
  constructor
  · rintro ⟨ns', hns, htype, rfl⟩
    exact ⟨hns, htype⟩
  · exact fun ⟨hns, htype⟩ => ⟨ns, hns, htype, rfl⟩

/-! ## The vendored document -/

def vendoredVocabulary : VocabularyDocument where
  vocabularyVersion := "1"
  unmappedType := "other"
  identifierTypes := [
    ⟨"barcode", some "barcode"⟩,
    ⟨"matrix_runout", some "matrix"⟩,
    ⟨"label_code", none⟩,
    ⟨"rights_society", none⟩,
    ⟨"asin", none⟩,
    ⟨"other", none⟩,
    ⟨"catalog_number", some "catalog_number"⟩]
  aliasNamespaces := [
    ⟨"barcode", "barcode", "digits_only"⟩,
    ⟨"catalog_number", "catalog_number", "upper_collapse_space"⟩,
    ⟨"matrix", "matrix_runout", "collapse_space"⟩]
  discogs := {
    identifierField := some "identifiers"
    catalogNumberField := some "labels[].catno"
    absentCatalogNumber := some "none"
    types := [
      ("ASIN", "asin"),
      ("Barcode", "barcode"),
      ("ISRC", "other"),
      ("Label Code", "label_code"),
      ("Mastering SID Code", "other"),
      ("Matrix / Runout", "matrix_runout"),
      ("Mould SID Code", "other"),
      ("Other", "other"),
      ("Pressing Plant ID", "other"),
      ("Price Code", "other"),
      ("Rights Society", "rights_society"),
      ("SPARS Code", "other")] }

theorem vendoredVocabulary_wellFormed : vendoredVocabulary.WellFormed where
  typeIds := by decide
  namespaceTypes := by decide
  providers := by decide
  declares := by decide
  rawTypes := by decide
  mapped := by decide
  unmapped := by decide
  catalogNumber := by decide

end DiscogsIngestion.Identifiers
