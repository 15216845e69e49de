import DiscogsIngestion.Record.Event

/-!
# Blocks of a published release

* `rawEntries` : the elements of the parsed record of which normalization makes the entries of a list;
* `identifiersBlock`, `companiesBlock`, `mediaBlock` : the blocks that take their place or stand beside them;
* `entriesOf_identifiers`, `entriesOf_companies`, `entriesOf_formats` : the entries from which a block is made;
* `get_apply_releases` : where the blocks are in the published record.
-/

namespace DiscogsIngestion

variable {m : Map} {field key : String}

/-- The elements of which normalization makes the entries of a list. -/
def rawEntries (field key : String) (record : Value) : List Value :=
  match stripAtPrefixes record with
  | .object map => (Map.get field map).elim [] fun container => entriesOf (some (unwrapContainer key container))
  | _ => []

/-! ## Lists -/

theorem unwrapContainer_eq_array (key : String) (container : Value) :
    unwrapContainer key container = .array (entriesOf (some (unwrapContainer key container))) := by
  have hensure : ∀ value, ensureList value = .array (entriesOf (some (ensureList value))) := by
    intro value
    cases value <;> rfl
  cases container with
  | object map =>
    unfold unwrapContainer
    dsimp only
    cases Map.get key map with
    | none => rfl
    | some inner => exact hensure inner
  | _ => rfl

theorem entriesOf_insertIfNonempty (field : String) (items : List Value) (m : Map) (h : Map.get field m = none) :
    entriesOf (Map.get field (insertIfNonempty field (.array items) m)) = items := by
  cases items with
  | nil =>
    show entriesOf (Map.get field m) = []
    rw [h]
    rfl
  | cons item items =>
    show entriesOf (Map.get field (Map.insert field _ m)) = _
    rw [Map.get_insert_self]
    rfl

theorem entriesOf_normalizeField {f : Value → Value} {normalizer : Value → Value}
    (hnorm : ∀ container, normalizer container = .array ((entriesOf (some (unwrapContainer key container))).map f)) :
    entriesOf (Map.get field (normalizeField normalizer field m)) =
      ((Map.get field m).elim [] fun container => entriesOf (some (unwrapContainer key container))).map f := by
  unfold normalizeField
  cases hget : Map.get field m with
  | none =>
    dsimp only
    rw [hget]
    rfl
  | some container =>
    dsimp only
    rw [hnorm, entriesOf_insertIfNonempty]
    · rfl
    · rw [Map.get_remove, if_pos rfl]

theorem normalizeItemList_eq (key : String) (container : Value) :
    normalizeItemList key container =
      .array ((entriesOf (some (unwrapContainer key container))).map normalizeItem) := by
  unfold normalizeItemList
  rw [unwrapContainer_eq_array]
  rfl

theorem normalizeFormats_eq (container : Value) :
    normalizeFormats container =
      .array ((entriesOf (some (unwrapContainer "format" container))).map stripAtPrefixes) := by
  unfold normalizeFormats
  rw [unwrapContainer_eq_array]
  rfl

/-! ## Releases -/

def normalizedRelease (record : Value) : Map :=
  match normalizeRecord .releases record with
  | .object map => map
  | _ => []

theorem normalizedRelease_eq {record : Value} {map : Map} (h : stripAtPrefixes record = .object map) :
    normalizedRelease record =
      normalizeField normalizeFormats "formats"
        (normalizeField (normalizeItemList "company") "companies"
          (normalizeField (normalizeItemList "identifier") "identifiers"
            (normalizeField (normalizeItemList "artist") "extraartists"
              (normalizeField (normalizeStringList "style") "styles"
                (normalizeField (normalizeStringList "genre") "genres"
                  (normalizeMasterId
                    (normalizeField (normalizeItemList "label") "labels"
                      (normalizeField (normalizeItemList "artist") "artists" map)))))))) := by
  have hrelease : normalizedRelease record =
      match normalizeRelease record with
      | .object map => map
      | _ => [] := rfl
  rw [hrelease]
  unfold normalizeRelease
  rw [h]

theorem rawEntries_eq {record : Value} {map : Map} (h : stripAtPrefixes record = .object map) (field key : String) :
    rawEntries field key record =
      (Map.get field map).elim [] fun container => entriesOf (some (unwrapContainer key container)) := by
  unfold rawEntries
  rw [h]

theorem entriesOf_identifiers (m : Map) : entriesOf (Map.get "identifiers" (normalizedRelease (.object m))) =
    (rawEntries "identifiers" "identifier" (.object m)).map normalizeItem := by
  obtain ⟨map, hmap⟩ : ∃ map, stripAtPrefixes (.object m) = .object map := ⟨_, rfl⟩
  rw [normalizedRelease_eq hmap, rawEntries_eq hmap, get_normalizeField (by decide), get_normalizeField (by decide),
    entriesOf_normalizeField (normalizeItemList_eq "identifier"), get_normalizeField (by decide),
    get_normalizeField (by decide), get_normalizeField (by decide), get_normalizeMasterId (by decide),
    get_normalizeField (by decide), get_normalizeField (by decide)]

theorem entriesOf_companies (m : Map) : entriesOf (Map.get "companies" (normalizedRelease (.object m))) =
    (rawEntries "companies" "company" (.object m)).map normalizeItem := by
  obtain ⟨map, hmap⟩ : ∃ map, stripAtPrefixes (.object m) = .object map := ⟨_, rfl⟩
  rw [normalizedRelease_eq hmap, rawEntries_eq hmap, get_normalizeField (by decide),
    entriesOf_normalizeField (normalizeItemList_eq "company"), get_normalizeField (by decide),
    get_normalizeField (by decide), get_normalizeField (by decide), get_normalizeField (by decide),
    get_normalizeMasterId (by decide), get_normalizeField (by decide), get_normalizeField (by decide)]

theorem entriesOf_formats (m : Map) : entriesOf (Map.get "formats" (normalizedRelease (.object m))) =
    (rawEntries "formats" "format" (.object m)).map stripAtPrefixes := by
  obtain ⟨map, hmap⟩ : ∃ map, stripAtPrefixes (.object m) = .object map := ⟨_, rfl⟩
  rw [normalizedRelease_eq hmap, rawEntries_eq hmap, entriesOf_normalizeField normalizeFormats_eq,
    get_normalizeField (by decide), get_normalizeField (by decide), get_normalizeField (by decide),
    get_normalizeField (by decide), get_normalizeField (by decide), get_normalizeMasterId (by decide),
    get_normalizeField (by decide), get_normalizeField (by decide)]

/-! ## Blocks -/

namespace Normalizer

variable (n : Normalizer) (record : Value)

def identifiersBlock : IdentifiersBlock :=
  Identifiers.mapDiscogsIdentifiers n.casing n.identifiers (Map.get "identifiers" (normalizedRelease record))
    (Map.get "labels" (normalizedRelease record))

def companiesBlock : CompaniesBlock :=
  Companies.mapDiscogsCompanies n.companies (Map.get "companies" (normalizedRelease record))

def mediaBlock : MediaBlock := Media.mapDiscogsFormats n.taxonomy (Map.get "formats" (normalizedRelease record))

/-- The blocks stand in the published record, under the keys of the lists and beside the formats. -/
theorem get_apply_releases {m : DataMessage} {record : Map} (h : m.data = .object record) :
    ∃ map, (n.apply .releases m).data = .object map ∧
      Map.get "identifiers" map = some (n.identifiersBlock m.data).toValue ∧
      Map.get "companies" map = some (n.companiesBlock m.data).toValue ∧
      Map.get "media" map = some (n.mediaBlock m.data).toValue := by
  have hnormalized : normalizeRecord .releases m.data = .object (normalizedRelease m.data) := by
    obtain ⟨map, hmap⟩ := normalizeRecord_object .releases record
    unfold normalizedRelease
    rw [h, hmap]
  unfold Normalizer.apply
  dsimp only
  rw [if_pos rfl, hnormalized]
  refine ⟨_, rfl, ?_, ?_, ?_⟩
  · rw [Map.get_insert_of_ne (by decide), Map.get_insert_self, Map.get_insert_of_ne (by decide),
      Map.get_insert_of_ne (by decide)]
    rfl
  · rw [Map.get_insert_self, Map.get_insert_of_ne (by decide), Map.get_insert_of_ne (by decide)]
    rfl
  · rw [Map.get_insert_of_ne (by decide), Map.get_insert_of_ne (by decide), Map.get_insert_self]
    rfl

end Normalizer

end DiscogsIngestion
