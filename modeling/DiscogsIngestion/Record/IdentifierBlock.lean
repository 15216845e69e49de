import DiscogsIngestion.Record.Canonical

/-!
# What the identifiers block says

* `identified`, `Describes` : the entries that name an identifier, and the item of such an entry;
* `numbered`, `Numbers` : the label entries that carry a catalogue number, and the item of such an entry;
* `Exact` : a block that says what the two lists say, in canonical form;
* `Sound` : what is known of an item wherever it comes from;
* `exact_of_wellFormed` : the block that is attached is exact.
-/

namespace DiscogsIngestion

namespace Identifiers

def objectsOf (entries : List Value) : List Map :=
  entries.filterMap fun entry =>
    match entry with
    | .object map => some map
    | _ => none

/-- The entry has a type and a value that are strings and not blank. -/
def identified (entry : Map) : Bool := (trimmed entry "type").isSome && (trimmed entry "value").isSome

/-- The item says what the entry says. -/
structure Describes (document : VocabularyDocument) (entry : Map) (item : IdentifierItem) : Prop where
  typeName : trimmed entry "type" = item.source.typeName
  value : trimmed entry "value" = some item.value
  description : trimmed entry "description" = item.description
  typeId : ∀ raw, trimmed entry "type" = some raw → (raw, item.typeId) ∈ document.discogs.types ∨
    raw ∉ document.discogs.types.map Prod.fst ∧ item.typeId = document.unmappedType
  provider : item.source.provider = "discogs"
  field : item.source.field = document.identifierField

/-- The entry has a catalogue number that is a string and not blank, nor the marker in any letter case. -/
def numbered (casing : CaseMapping) (document : VocabularyDocument) (entry : Map) : Bool :=
  (trimmed entry "catno").any fun catno => casing.toLowercase catno ≠ casing.toLowercase document.absentCatalogNumber

/-- The item says what the label entry says. -/
structure Numbers (document : VocabularyDocument) (entry : Map) (item : IdentifierItem) : Prop where
  value : trimmed entry "catno" = some item.value
  typeId : item.typeId = catalogNumberType
  description : item.description = none
  source : item.source = ⟨"discogs", none, document.catalogNumberField⟩

/-- The block has one item for each entry that names an identifier, then one for each label entry that carries a
catalogue number. The summaries are those of its items, and the aliases what their types mint. -/
structure Exact (casing : CaseMapping) (document : VocabularyDocument) (identifiers labels : Option Value)
    (block : IdentifiersBlock) : Prop where
  version : block.identifiersVersion = document.vocabularyVersion
  items : ∃ first second, block.items = first ++ second ∧
    List.Forall₂ (Describes document) ((objectsOf (entriesOf identifiers)).filter identified) first ∧
    List.Forall₂ (Numbers document) ((objectsOf (entriesOf labels)).filter (numbered casing document)) second
  known : ∀ item ∈ block.items, item.typeId ∈ document.typeIds
  types_sorted : block.types.Pairwise (· < ·)
  types : ∀ s, s ∈ block.types ↔ ∃ item ∈ block.items, item.typeId = s
  unmappedTypes_sorted : block.unmappedTypes.Pairwise (· < ·)
  unmappedTypes : ∀ s, s ∈ block.unmappedTypes ↔
    s ∉ document.discogs.types.map Prod.fst ∧ ∃ item ∈ block.items, item.source.typeName = some s
  aliases_sorted : block.aliases.Pairwise IdentifierAlias.Lt
  aliases : ∀ a, a ∈ block.aliases ↔ ∃ item ∈ block.items, ∃ ns ∈ document.aliasNamespaces,
    ns.typeId = item.typeId ∧ ns.provider = a.provider ∧
      Normalizes casing ns.normalization item.value a.externalId ∧ a.externalId ≠ ""
  fixed : ∀ a ∈ block.aliases, ∀ ns ∈ document.aliasNamespaces, ns.provider = a.provider →
    normalizeAliasValue casing ns.normalization a.externalId = some a.externalId

/-! ## The items -/

section Items

variable {casing : CaseMapping} {document : VocabularyDocument} {entry : Map}

/-- What is known of an item wherever it comes from. -/
structure Sound (document : VocabularyDocument) (item : IdentifierItem) : Prop where
  typeId : item.typeId ∈ document.typeIds
  value : item.value ≠ ""
  description : ∀ s, item.description = some s → s ≠ ""
  provider : item.source.provider = "discogs"
  typeName : ∀ s, item.source.typeName = some s → s ≠ ""
  field : item.source.field = document.identifierField ∨ item.source.field = document.catalogNumberField

theorem trimmed_ne_empty {key s : String} (h : trimmed entry key = some s) : s ≠ "" := by
  obtain ⟨text, -, -, hne⟩ := trimmed_eq_some.1 h
  exact hne

theorem Describes.sound (hdocument : document.WellFormed) {item : IdentifierItem} (h : Describes document entry item)
    (hentry : identified entry = true) : Sound document item := by
  refine ⟨?_, trimmed_ne_empty h.value, fun s hs => ?_, h.provider, fun s hs => ?_, .inl h.field⟩
  · obtain ⟨htype, -⟩ := Bool.and_eq_true_iff.1 hentry
    obtain ⟨raw, hraw⟩ := Option.isSome_iff_exists.1 htype
    rcases h.typeId raw hraw with hmem | ⟨-, hunmapped⟩
    · exact hdocument.mapped _ hmem
    · rw [hunmapped]
      exact hdocument.unmapped
  · exact trimmed_ne_empty (h.description.trans hs)
  · exact trimmed_ne_empty (h.typeName.trans hs)

theorem Numbers.sound (hdocument : document.WellFormed) {item : IdentifierItem} (h : Numbers document entry item) :
    Sound document item := by
  refine ⟨?_, trimmed_ne_empty h.value, fun s hs => ?_, ?_, fun s hs => ?_, .inr ?_⟩
  · rw [h.typeId]
    exact hdocument.catalogNumber
  · rw [h.description] at hs
    exact nomatch hs
  · rw [h.source]
  · rw [h.source] at hs
    exact nomatch hs
  · rw [h.source]

theorem mapEntry_of_identified (hdocument : document.WellFormed) (h : identified entry = true) :
    ∃ mapped, mapEntry (.ofDocument casing document) (.object entry) = some mapped ∧
      Describes document entry mapped.1 := by
  obtain ⟨htype, hvalue⟩ := Bool.and_eq_true_iff.1 h
  obtain ⟨raw, htype⟩ := Option.isSome_iff_exists.1 htype
  obtain ⟨value, hvalue⟩ := Option.isSome_iff_exists.1 hvalue
  unfold mapEntry
  dsimp only
  rw [htype, hvalue]
  refine ⟨_, rfl, ⟨htype, hvalue, rfl, fun raw' hraw => ?_, rfl, rfl⟩⟩
  obtain rfl := Option.some.inj (htype.symm.trans hraw)
  cases hlookup : (Vocabulary.ofDocument casing document).types.lookup raw with
  | some typeId =>
    left
    exact (lookup_types hdocument).1 hlookup
  | none =>
    right
    exact ⟨(lookup_types_eq_none hdocument).1 hlookup, rfl⟩

theorem mapEntry_of_not_identified (h : identified entry = false) :
    mapEntry (.ofDocument casing document) (.object entry) = none := by
  unfold mapEntry
  dsimp only
  split
  · next raw value htype hvalue =>
    unfold identified at h
    rw [htype, hvalue] at h
    exact nomatch h
  · rfl

/-- The type that comes with an item is its raw type, when the vocabulary has it not. -/
theorem unmapped_of_mapEntry (hdocument : document.WellFormed) {v : Value} {mapped : IdentifierItem × Option String}
    (h : mapEntry (.ofDocument casing document) v = some mapped) (s : String) :
    mapped.2 = some s ↔ s ∉ document.discogs.types.map Prod.fst ∧ mapped.1.source.typeName = some s := by
  unfold mapEntry at h
  split at h
  · split at h
    · next raw value htype hvalue =>
      obtain rfl := Option.some.inj h
      dsimp only
      rw [Option.some.injEq]
      cases hlookup : (Vocabulary.ofDocument casing document).types.lookup raw with
      | some typeId =>
        refine iff_of_false (fun hs => nomatch hs) ?_
        rintro ⟨hnot, rfl⟩
        exact hnot (List.mem_map_of_mem ((lookup_types hdocument).1 hlookup))
      | none =>
        have hnot := (lookup_types_eq_none hdocument).1 hlookup
        show some raw = some s ↔ _
        rw [Option.some.injEq]
        constructor
        · rintro rfl
          exact ⟨hnot, rfl⟩
        · exact And.right
    · exact nomatch h
  · exact nomatch h

theorem mapLabel_of_numbered (h : numbered casing document entry = true) :
    ∃ item, mapLabel casing (.ofDocument casing document) (.object entry) = some item ∧
      Numbers document entry item := by
  obtain ⟨catno, hcatno, hpresent⟩ := (Option.any_eq_true ..).1 h
  unfold mapLabel
  dsimp only
  rw [hcatno]
  refine ⟨_, if_neg (of_decide_eq_true hpresent), ⟨hcatno, rfl, rfl, rfl⟩⟩

theorem mapLabel_of_not_numbered (h : numbered casing document entry = false) :
    mapLabel casing (.ofDocument casing document) (.object entry) = none := by
  unfold mapLabel
  dsimp only
  cases hcatno : trimmed entry "catno" with
  | none => rfl
  | some catno =>
    unfold numbered at h
    rw [hcatno] at h
    exact if_pos (not_not.1 (of_decide_eq_false h))

end Items

/-! ## The lists -/

section Lists

variable {α β : Type} {R : α → β → Prop}

/-- One result for each entry that is chosen. -/
theorem forall₂_filter_filterMap {chosen : α → Bool} {g : α → Option β}
    (hsome : ∀ a, chosen a = true → ∃ b, g a = some b ∧ R a b) (hnone : ∀ a, chosen a = false → g a = none)
    (l : List α) : List.Forall₂ R (l.filter chosen) (l.filterMap g) := by
  induction l with
  | nil => exact .nil
  | cons a l ih =>
    cases h : chosen a with
    | true =>
      obtain ⟨b, hb, hab⟩ := hsome a h
      rw [List.filter_cons_of_pos h, List.filterMap_cons_some hb]
      exact .cons hab ih
    | false =>
      rw [List.filter_cons_of_neg (Bool.eq_false_iff.1 h), List.filterMap_cons_none (hnone a h)]
      exact ih

theorem exists_of_forall₂ {l : List α} {l' : List β} (h : List.Forall₂ R l l') : ∀ b ∈ l', ∃ a ∈ l, R a b := by
  induction h with
  | nil => exact fun b hb => absurd hb List.not_mem_nil
  | @cons a b l l' hab _ ih =>
    refine List.forall_mem_cons.2 ⟨⟨a, List.mem_cons_self .., hab⟩, fun b' hb' => ?_⟩
    obtain ⟨a', ha', hab'⟩ := ih b' hb'
    exact ⟨a', List.mem_cons_of_mem _ ha', hab'⟩

end Lists

theorem filterMap_objectsOf {β : Type} {f : Value → Option β} (h : ∀ v, v.isObject = false → f v = none)
    (entries : List Value) : entries.filterMap f = (objectsOf entries).filterMap fun map => f (.object map) := by
  unfold objectsOf
  rw [List.filterMap_filterMap]
  refine List.filterMap_congr fun v _ => ?_
  cases v with
  | object map => rfl
  | _ => exact h _ rfl

section Exact

variable {casing : CaseMapping} {document : VocabularyDocument}

theorem describes_items (hdocument : document.WellFormed) (entries : List Value) :
    List.Forall₂ (Describes document) ((objectsOf entries).filter identified)
      ((entries.filterMap (mapEntry (.ofDocument casing document))).map Prod.fst) := by
  have hnone : ∀ v : Value, v.isObject = false → mapEntry (.ofDocument casing document) v = none := by
    intro v hv
    cases v with
    | object map => exact nomatch hv
    | _ => rfl
  rw [filterMap_objectsOf hnone, List.forall₂_map_right_iff]
  exact forall₂_filter_filterMap (fun _ => mapEntry_of_identified hdocument)
    (fun _ => mapEntry_of_not_identified) _

theorem numbers_items (entries : List Value) :
    List.Forall₂ (Numbers document) ((objectsOf entries).filter (numbered casing document))
      (entries.filterMap (mapLabel casing (.ofDocument casing document))) := by
  have hnone : ∀ v : Value, v.isObject = false → mapLabel casing (.ofDocument casing document) v = none := by
    intro v hv
    cases v with
    | object map => exact nomatch hv
    | _ => rfl
  rw [filterMap_objectsOf hnone]
  exact forall₂_filter_filterMap (fun _ => mapLabel_of_numbered) (fun _ => mapLabel_of_not_numbered) _

theorem sound_of_mem_items (hdocument : document.WellFormed) (identifiers labels : Option Value) :
    ∀ item ∈ (mapDiscogsIdentifiers casing (.ofDocument casing document) identifiers labels).items,
      Sound document item := by
  intro item hitem
  rcases List.mem_append.1 hitem with hitem | hitem
  · obtain ⟨entry, hentry, hdescribes⟩ := exists_of_forall₂ (describes_items hdocument _) item hitem
    exact hdescribes.sound hdocument (List.mem_filter.1 hentry).2
  · obtain ⟨entry, -, hnumbers⟩ := exists_of_forall₂ (numbers_items _) item hitem
    exact hnumbers.sound hdocument

/-- The raw types without a canonical type are those of items that the vocabulary has not. -/
theorem mem_unmapped (hdocument : document.WellFormed) (identifiers labels : Option Value) (s : String) :
    s ∈ ((entriesOf identifiers).filterMap (mapEntry (.ofDocument casing document))).filterMap Prod.snd ↔
      s ∉ document.discogs.types.map Prod.fst ∧
        ∃ item ∈ (mapDiscogsIdentifiers casing (.ofDocument casing document) identifiers labels).items,
          item.source.typeName = some s := by
  rw [List.mem_filterMap]
  constructor
  · rintro ⟨mapped, hmapped, hs⟩
    obtain ⟨v, -, hv⟩ := List.mem_filterMap.1 hmapped
    obtain ⟨hnot, htype⟩ := (unmapped_of_mapEntry hdocument hv s).1 hs
    exact ⟨hnot, mapped.1, List.mem_append_left _ (List.mem_map_of_mem hmapped), htype⟩
  · rintro ⟨hnot, item, hitem, htype⟩
    rcases List.mem_append.1 hitem with hitem | hitem
    · obtain ⟨mapped, hmapped, rfl⟩ := List.mem_map.1 hitem
      obtain ⟨v, -, hv⟩ := List.mem_filterMap.1 hmapped
      exact ⟨mapped, hmapped, (unmapped_of_mapEntry hdocument hv s).2 ⟨hnot, htype⟩⟩
    · -- no raw type stands behind a catalogue number
      obtain ⟨entry, -, hnumbers⟩ := exists_of_forall₂ (numbers_items _) item hitem
      rw [hnumbers.source] at htype
      exact nomatch htype

theorem mintAlias_eq_some_iff (hdocument : document.WellFormed) {item : IdentifierItem} {a : IdentifierAlias} :
    mintAlias casing (.ofDocument casing document) item = some a ↔ ∃ ns ∈ document.aliasNamespaces,
      ns.typeId = item.typeId ∧ ns.provider = a.provider ∧
        Normalizes casing ns.normalization item.value a.externalId ∧ a.externalId ≠ "" := by
  unfold mintAlias
  constructor
  · intro h
    split at h
    · next ns hlookup =>
      obtain ⟨hns, htype⟩ := (lookup_namespaces hdocument).1 hlookup
      obtain ⟨normalized, hnormalized, rfl⟩ := Option.map_eq_some_iff.1 h
      exact ⟨ns, hns, htype, rfl, normalizeAliasValue_eq_some_iff.1 hnormalized⟩
    · exact nomatch h
  · rintro ⟨ns, hns, htype, hprovider, hnormalized⟩
    have hlookup : (Vocabulary.ofDocument casing document).namespaces.lookup item.typeId = some ns :=
      (lookup_namespaces hdocument).2 ⟨hns, htype⟩
    rw [hlookup]
    dsimp only
    rw [normalizeAliasValue_eq_some_iff.2 hnormalized, Option.map_some, hprovider]

/-- The block of any two lists under any vocabulary that is well formed. -/
theorem exact_of_wellFormed (hdocument : document.WellFormed) (hcasing : casing.UpperLaws)
    (identifiers labels : Option Value) :
    Exact casing document identifiers labels
      (mapDiscogsIdentifiers casing (.ofDocument casing document) identifiers labels) := by
  have haliases : ∀ a, a ∈ (mapDiscogsIdentifiers casing (.ofDocument casing document) identifiers labels).aliases ↔
      ∃ item ∈ (mapDiscogsIdentifiers casing (.ofDocument casing document) identifiers labels).items,
        ∃ ns ∈ document.aliasNamespaces, ns.typeId = item.typeId ∧ ns.provider = a.provider ∧
          Normalizes casing ns.normalization item.value a.externalId ∧ a.externalId ≠ "" := by
    intro a
    show a ∈ (List.insertionSort _ _).dedup ↔ _
    rw [List.mem_dedup, List.mem_insertionSort, List.mem_filterMap]
    simp only [mintAlias_eq_some_iff hdocument]
    rfl
  refine ⟨rfl, ⟨_, _, rfl, describes_items hdocument _, numbers_items _⟩,
    fun item hitem => (sound_of_mem_items hdocument identifiers labels item hitem).typeId, sortedUnique_strict _,
    fun s => ?_, sortedUnique_strict _, fun s => ?_, sorted_dedup_strict _, haliases, ?_⟩
  · show s ∈ sortedUnique _ ↔ _
    rw [mem_sortedUnique]
    exact List.mem_map
  · show s ∈ sortedUnique _ ↔ _
    rw [mem_sortedUnique]
    exact mem_unmapped hdocument identifiers labels s
  · intro a ha ns hns hprovider
    obtain ⟨item, -, ns', hns', -, hprovider', hnormalized, hne⟩ := (haliases a).1 ha
    obtain rfl : ns = ns' := List.inj_on_of_nodup_map hdocument.providers hns hns' (hprovider.trans hprovider'.symm)
    exact normalizeAliasValue_eq_some_iff.2 ⟨hnormalized.fixed hcasing, hne⟩

end Exact

end Identifiers

end DiscogsIngestion
