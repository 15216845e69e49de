import DiscogsIngestion.Record.Published
import DiscogsIngestion.Rules.Required

/-!
# Unrecognised strings in rules and blocks

The enum rules look at the parsed record, the canonical blocks at the normalized one.

* `identifierTypeRule`, `companyRoleRule`, `formatRule`, `ShipsRule` : the rules on the vocabularies' keys;
* `flagged` : the values for which a rule is reported;
* `Stated`, `Entitled`, `Named` : what the parsed record has at a field, and what an entry says to a block;
* `mem_identifiersBlock_unmapped`, `mem_companiesBlock_unmapped`, `mem_mediaBlock_unmapped` : what the blocks leave
  unmapped;
* `unmapped_agree_iff` : the records on which rules and blocks agree.
-/

namespace DiscogsIngestion.Rules

variable {F : Type} [Double F]

/-! ## The shipped rules -/

def identifierTypeRule (values : List String) : CompiledRule F :=
  ⟨"identifier-type-not-recognized", "identifiers.identifier.@type", .enum values, .warning⟩

def companyRoleRule (values : List String) : CompiledRule F :=
  ⟨"company-role-not-recognized", "companies.company.entity_type_name", .enum values, .warning⟩

def formatRule (values : List String) : CompiledRule F :=
  ⟨"format-not-recognized", "formats.format.@name", .enum values, .warning⟩

/-- The configuration has this rule under its name, and no other, and its values are the keys of a vocabulary. -/
def ShipsRule {τ : Type} (config : CompiledRulesConfig F) (rule : List String → CompiledRule F)
    (vocabulary : Table String τ) : Prop :=
  ∃ values, (config.rulesFor "releases").filter (fun r => r.name = (rule values).name) = [rule values] ∧
    ∀ s, s ∈ values ↔ (vocabulary.lookup s).isSome = true

/-- The values for which a rule of this name is reported. -/
def flagged (config : CompiledRulesConfig F) (name : String) (record : Value) : List String :=
  ((evaluateRules config "releases" record).filter fun v => v.ruleName = name).map Violation.fieldValue

/-! ## What record and entries say -/

/-- The parsed record has this string at the field. Null counts as the empty string. -/
def Stated (field : String) (record : Value) (s : String) : Prop :=
  some (.string s) ∈ branches field record ∨ s = "" ∧ some .null ∈ branches field record

/-- Without prefixes, the entry has this string under the key, up to whitespace, and something under another key. -/
def Entitled (key needed : String) (s : String) (entry : Value) : Prop :=
  ∃ map text other, stripAtPrefixes entry = .object map ∧ Map.get key map = some (.string text) ∧ trim text = s ∧
    s ≠ "" ∧ Map.get needed map = some (.string other) ∧ trim other ≠ ""

def Named (s : String) (entry : Value) : Prop :=
  ∃ map, stripAtPrefixes entry = .object map ∧ Map.get "name" map = some (.string s)

/-! ## Rules -/

theorem mem_evaluateRule_enum {name field s : String} {values : List String} {severity : Severity} {record : Value} :
    (∃ v ∈ evaluateRule (⟨name, field, .enum values, severity⟩ : CompiledRule F) record, v.fieldValue = s) ↔
      s ∈ resolveField record field ∧ s ∉ values := by
  unfold evaluateRule
  dsimp only
  constructor
  · rintro ⟨v, hv, rfl⟩
    obtain ⟨val, hval, rfl⟩ := List.mem_map.1 hv
    obtain ⟨hmem, hcheck⟩ := List.mem_filter.1 hval
    show val ∈ _ ∧ val ∉ values
    exact ⟨hmem, fun hval => by simp [checkCondition, hval] at hcheck⟩
  · rintro ⟨hmem, hnot⟩
    refine ⟨_, List.mem_map.2 ⟨s, List.mem_filter.2 ⟨hmem, ?_⟩, rfl⟩, rfl⟩
    simpa [checkCondition] using hnot

theorem ruleName_of_mem {rule : CompiledRule F} {record : Value} {v : Violation} (h : v ∈ evaluateRule rule record) :
    v.ruleName = rule.name := by
  unfold evaluateRule at h
  dsimp only at h
  split at h
  · split_ifs at h
    · rw [List.mem_singleton.1 h]
      rfl
    · obtain ⟨val, -, rfl⟩ := List.mem_map.1 h
      rfl
  · obtain ⟨val, -, rfl⟩ := List.mem_map.1 h
    rfl

theorem mem_flagged {config : CompiledRulesConfig F} {rule : CompiledRule F} {record : Value} {s : String}
    (h : (config.rulesFor "releases").filter (fun r => r.name = rule.name) = [rule]) :
    s ∈ flagged config rule.name record ↔ ∃ v ∈ evaluateRule rule record, v.fieldValue = s := by
  have honly : ∀ r, r ∈ config.rulesFor "releases" ∧ r.name = rule.name ↔ r = rule := by
    intro r
    have hmem : r ∈ [rule] ↔ r = rule := List.mem_singleton
    rw [← hmem, ← h, List.mem_filter, decide_eq_true_iff]
  unfold flagged evaluateRules
  simp only [List.mem_map, List.mem_filter, List.mem_flatMap, decide_eq_true_iff]
  constructor
  · rintro ⟨v, ⟨⟨r, hr, hv⟩, hname⟩, rfl⟩
    obtain rfl := (honly r).1 ⟨hr, (ruleName_of_mem hv).symm.trans hname⟩
    exact ⟨v, hv, rfl⟩
  · rintro ⟨v, hv, rfl⟩
    exact ⟨v, ⟨⟨rule, ((honly rule).2 rfl).1, hv⟩, ruleName_of_mem hv⟩, rfl⟩

theorem stated_iff {field s : String} {record : Value} (h : Parsed record) :
    Stated field record s ↔ s ∈ resolveField record field := by
  unfold Stated
  rw [mem_resolveField]
  constructor
  · rintro (hstring | ⟨rfl, hnull⟩)
    · exact ⟨_, hstring, rfl⟩
    · exact ⟨_, hnull, rfl⟩
  · rintro ⟨w, hw, hscalar⟩
    obtain hshaped | ⟨t, rfl⟩ := parsed_branches h hw
    · cases hshaped with
      | null => exact .inr ⟨(Option.some.inj hscalar).symm, hw⟩
      | string => exact .inl (Option.some.inj hscalar ▸ hw)
      | object => exact absurd hscalar (by simp [scalar])
    · exact .inl (Option.some.inj hscalar ▸ hw)

/-- A shipped rule flags the strings at its field that the vocabulary does not have. -/
theorem mem_flagged_of_ships {τ : Type} {config : CompiledRulesConfig F} {name field s : String} {severity : Severity}
    {vocabulary : Table String τ} {record : Value}
    (h : ShipsRule config (fun values => ⟨name, field, .enum values, severity⟩) vocabulary) (hrecord : Parsed record) :
    s ∈ flagged config name record ↔ vocabulary.lookup s = none ∧ Stated field record s := by
  obtain ⟨values, hrule, hvalues⟩ := h
  rw [stated_iff hrecord, ← Option.not_isSome_iff_eq_none, ← hvalues, and_comm]
  exact (mem_flagged hrule).trans mem_evaluateRule_enum

/-- A shipped rule flags what a block leaves unmapped exactly if each string that the vocabulary does not have stands at
the field when it is in the entries. -/
theorem flagged_eq_unmapped_iff {τ : Type} {config : CompiledRulesConfig F} {name field : String} {severity : Severity}
    {vocabulary : Table String τ} {record : Value} {unmapped : List String} {Has : String → Prop}
    (h : ShipsRule config (fun values => ⟨name, field, .enum values, severity⟩) vocabulary) (hrecord : Parsed record)
    (hblock : ∀ s, s ∈ unmapped ↔ vocabulary.lookup s = none ∧ Has s) :
    (∀ s, s ∈ flagged config name record ↔ s ∈ unmapped) ↔
      ∀ s, vocabulary.lookup s = none → (Stated field record s ↔ Has s) := by
  apply forall_congr'
  intro s
  rw [mem_flagged_of_ships h hrecord, hblock]
  exact and_congr_right_iff

/-! ## Blocks -/

/-- What an entry says to a block: a string that is not blank, beside another one. -/
theorem entitled_iff {key needed s : String} {entry : Value} (hkey : key ≠ "id") :
    Entitled key needed s entry ↔
      ∃ map other, normalizeItem entry = .object map ∧ trimmed map key = some s ∧ trimmed map needed = some other := by
  simp only [trimmed_eq_some]
  unfold Entitled
  cases entry with
  | object entries =>
    have hitem : normalizeItem (.object entries) = stripAtPrefixes (.object entries) := rfl
    rw [hitem]
    constructor
    · rintro ⟨map, text, other, hmap, htext, hs, hne, hother, hblank⟩
      exact ⟨map, trim other, hmap, ⟨text, htext, hs, hne⟩, other, hother, rfl, hblank⟩
    · rintro ⟨map, t, hmap, ⟨text, htext, hs, hne⟩, other, hother, rfl, hblank⟩
      exact ⟨map, text, other, hmap, htext, hs, hne, hother, hblank⟩
  | string text =>
    constructor
    · rintro ⟨map, -, -, hmap, -⟩
      exact absurd hmap (by simp [stripAtPrefixes])
    · rintro ⟨map, -, hmap, ⟨text', htext, -⟩, -⟩
      obtain rfl := Value.object.inj hmap
      exact absurd htext (by simp [Map.get, hkey.symm])
  | _ =>
    constructor
    · rintro ⟨map, -, -, hmap, -⟩
      exact absurd hmap (by simp [stripAtPrefixes])
    · rintro ⟨map, -, hmap, -⟩
      exact absurd hmap (by simp [normalizeItem])

/-- An entry that has both strings leaves the first unmapped, if the vocabulary does not have it. -/
theorem pair_unmapped {σ τ : Type} {lookup : String → Option τ} {item : String → String → σ}
    {key needed : Option String} {s : String} :
    (∃ i, (key.bind fun k => needed.map fun other => (item k other, if (lookup k).isNone then some k else none)) =
        some (i, some s)) ↔ lookup s = none ∧ key = some s ∧ ∃ other, needed = some other := by
  constructor
  · rintro ⟨i, hitem⟩
    obtain ⟨k, rfl, hneeded⟩ := Option.bind_eq_some_iff.1 hitem
    obtain ⟨other, rfl, heq⟩ := Option.map_eq_some_iff.1 hneeded
    have hunmapped := congrArg Prod.snd heq
    dsimp only at hunmapped
    split_ifs at hunmapped with hnone
    obtain rfl := Option.some.inj hunmapped
    exact ⟨Option.isNone_iff_eq_none.1 hnone, rfl, other, rfl⟩
  · rintro ⟨hnone, rfl, other, rfl⟩
    refine ⟨item s other, ?_⟩
    show some (item s other, if (lookup s).isNone then some s else none) = _
    rw [hnone]
    rfl

theorem identifiers_unmapped {vocabulary : Identifiers.Vocabulary} {entry : Value} {s : String} :
    (∃ item, Identifiers.mapEntry vocabulary (normalizeItem entry) = some (item, some s)) ↔
      vocabulary.types.lookup s = none ∧ Entitled "type" "value" s entry := by
  rw [entitled_iff (by decide)]
  cases normalizeItem entry with
  | object map =>
    have hentry : Identifiers.mapEntry vocabulary (.object map) =
        (trimmed map "type").bind fun k => (trimmed map "value").map fun other =>
          (⟨(vocabulary.types.lookup k).getD vocabulary.unmappedType, other, trimmed map "description",
            ⟨"discogs", some k, vocabulary.identifierField⟩⟩,
            if (vocabulary.types.lookup k).isNone then some k else none) := by
      unfold Identifiers.mapEntry
      dsimp only
      cases trimmed map "type" <;> cases trimmed map "value" <;> rfl
    rw [hentry, pair_unmapped]
    simp
  | _ => simp [Identifiers.mapEntry]

theorem companies_unmapped {vocabulary : Companies.Vocabulary} {entry : Value} {s : String} :
    (∃ item, Companies.mapEntry vocabulary (normalizeItem entry) = some (item, some s)) ↔
      vocabulary.roles.lookup s = none ∧ Entitled "entity_type_name" "name" s entry := by
  rw [entitled_iff (by decide)]
  cases normalizeItem entry with
  | object map =>
    have hentry : Companies.mapEntry vocabulary (.object map) =
        (trimmed map "entity_type_name").bind fun k => (trimmed map "name").map fun other =>
          (⟨other, discogsId map, k, (vocabulary.roles.lookup k).getD vocabulary.unmappedCategory, trimmed map "catno",
            ⟨"discogs", entityType map⟩⟩, if (vocabulary.roles.lookup k).isNone then some k else none) := by
      unfold Companies.mapEntry
      dsimp only
      cases trimmed map "name" <;> cases trimmed map "entity_type_name" <;> rfl
    rw [hentry, pair_unmapped]
    simp
  | _ => simp [Companies.mapEntry]

theorem mem_unmapped {σ : Type} {mapEntry : Value → Option (σ × Option String)} {entries : List Value} {s : String}
    {Unknown : Prop} {Has : Value → Prop}
    (h : ∀ entry, (∃ item, mapEntry (normalizeItem entry) = some (item, some s)) ↔ Unknown ∧ Has entry) :
    s ∈ sortedUnique (((entries.map normalizeItem).filterMap mapEntry).filterMap Prod.snd) ↔
      Unknown ∧ ∃ entry ∈ entries, Has entry := by
  rw [mem_sortedUnique]
  simp only [List.mem_filterMap, List.mem_map]
  constructor
  · rintro ⟨⟨item, -⟩, ⟨-, ⟨entry, hentry, rfl⟩, hitem⟩, rfl⟩
    obtain ⟨hunknown, hhas⟩ := (h entry).1 ⟨item, hitem⟩
    exact ⟨hunknown, entry, hentry, hhas⟩
  · rintro ⟨hunknown, entry, hentry, hhas⟩
    obtain ⟨item, hitem⟩ := (h entry).2 ⟨hunknown, hhas⟩
    exact ⟨_, ⟨_, ⟨entry, hentry, rfl⟩, hitem⟩, rfl⟩

/-- The identifiers block records as unmapped the types of the raw entries that have a value. -/
theorem mem_identifiersBlock_unmapped {n : Normalizer} {m : Map} {s : String} :
    s ∈ (n.identifiersBlock (.object m)).unmappedTypes ↔ n.identifiers.types.lookup s = none ∧
      ∃ entry ∈ rawEntries "identifiers" "identifier" (.object m), Entitled "type" "value" s entry := by
  unfold Normalizer.identifiersBlock Identifiers.mapDiscogsIdentifiers
  dsimp only
  rw [entriesOf_identifiers]
  exact mem_unmapped fun _ => identifiers_unmapped

theorem mem_companiesBlock_unmapped {n : Normalizer} {m : Map} {s : String} :
    s ∈ (n.companiesBlock (.object m)).unmappedRoles ↔ n.companies.roles.lookup s = none ∧
      ∃ entry ∈ rawEntries "companies" "company" (.object m), Entitled "entity_type_name" "name" s entry := by
  unfold Normalizer.companiesBlock Companies.mapDiscogsCompanies
  dsimp only
  rw [entriesOf_companies]
  exact mem_unmapped fun _ => companies_unmapped

/-! ## Media -/

theorem applyDescription_unmappedFormats (state : MediaBlock × Option MediaItem)
    (rule : Media.DescriptionRule) :
    (applyDescription state rule).1.unmappedFormats = state.1.unmappedFormats := by
  have hite : ∀ {c : Prop} [Decidable c] {x y : MediaBlock × Option MediaItem},
      x.1.unmappedFormats = state.1.unmappedFormats → y.1.unmappedFormats = state.1.unmappedFormats →
        (if c then x else y).1.unmappedFormats = state.1.unmappedFormats := by
    intro c _ x y hx hy
    split
    · exact hx
    · exact hy
  unfold applyDescription
  refine hite rfl (hite rfl ?_)
  cases rule.value.asStr with
  | none => rfl
  | some value => exact hite rfl (hite rfl (hite rfl (hite rfl (hite rfl (hite rfl (hite rfl (hite rfl rfl)))))))

theorem routeDescription_unmappedFormats (taxonomy : Media.Taxonomy) (state : MediaBlock × Option MediaItem)
    (description : String) :
    (Media.routeDescription taxonomy state description).1.unmappedFormats = state.1.unmappedFormats := by
  unfold Media.routeDescription
  split
  · exact applyDescription_unmappedFormats ..
  · rfl

theorem foldl_routeDescription_unmappedFormats (taxonomy : Media.Taxonomy) (descriptions : List String)
    (state : MediaBlock × Option MediaItem) :
    (descriptions.foldl (Media.routeDescription taxonomy) state).1.unmappedFormats = state.1.unmappedFormats := by
  induction descriptions generalizing state with
  | nil => rfl
  | cons description descriptions ih => exact (ih _).trans (routeDescription_unmappedFormats ..)

theorem mem_mapFormat_unmappedFormats {taxonomy : Media.Taxonomy} {block : MediaBlock} {format : Value} {s : String} :
    s ∈ (Media.mapFormat taxonomy block format).unmappedFormats ↔ s ∈ block.unmappedFormats ∨
      taxonomy.formats.lookup s = none ∧ ∃ map, format = .object map ∧ Map.get "name" map = some (.string s) := by
  cases format with
  | object map =>
    have hname : (Map.get "name" map).bind Value.asStr = some s ↔ Map.get "name" map = some (.string s) := by
      cases Map.get "name" map with
      | none => simp
      | some v => cases v <;> simp [Value.asStr]
    unfold Media.mapFormat
    dsimp only
    rw [foldl_routeDescription_unmappedFormats]
    cases hbind : (Map.get "name" map).bind Value.asStr with
    | none =>
      have hno : Map.get "name" map ≠ some (.string s) := fun h => by simp [hname.2 h] at hbind
      simp [hno]
    | some name =>
      have hiff : Map.get "name" map = some (.string s) ↔ s = name := by
        rw [← hname, hbind, Option.some.injEq, eq_comm]
      cases hlookup : taxonomy.formats.lookup name with
      | none =>
        simp only [Option.bind_some, hlookup, List.mem_append, Option.toList_some, List.mem_singleton,
          Value.object.injEq, exists_eq_left', hiff]
        constructor
        · rintro (hblock | rfl)
          · exact .inl hblock
          · exact .inr ⟨hlookup, rfl⟩
        · rintro (hblock | ⟨-, rfl⟩)
          · exact .inl hblock
          · exact .inr rfl
      | some entry =>
        simp only [Option.bind_some, hlookup, Value.object.injEq, exists_eq_left', hiff]
        have hblock : ∀ item, (applyFormatEntry block entry item).1.unmappedFormats = block.unmappedFormats := by
          intro item
          unfold applyFormatEntry
          dsimp only
          split <;> rfl
        rw [hblock]
        constructor
        · exact .inl
        · rintro (hmem | ⟨hnone, rfl⟩)
          · exact hmem
          · exact absurd (hlookup.symm.trans hnone) (by simp)
  | _ => simp [Media.mapFormat]

theorem mem_foldl_mapFormat_unmappedFormats {taxonomy : Media.Taxonomy} {block : MediaBlock} {formats : List Value}
    {s : String} :
    s ∈ (formats.foldl (Media.mapFormat taxonomy) block).unmappedFormats ↔ s ∈ block.unmappedFormats ∨
      taxonomy.formats.lookup s = none ∧
        ∃ format ∈ formats, ∃ map, format = .object map ∧ Map.get "name" map = some (.string s) := by
  induction formats generalizing block with
  | nil => simp
  | cons format formats ih =>
    rw [List.foldl_cons, ih, mem_mapFormat_unmappedFormats, List.exists_mem_cons_iff, or_assoc, and_or_left]

theorem mem_mediaBlock_unmapped {n : Normalizer} {m : Map} {s : String} :
    s ∈ (n.mediaBlock (.object m)).unmappedFormats ↔ n.taxonomy.formats.lookup s = none ∧
      ∃ entry ∈ rawEntries "formats" "format" (.object m), Named s entry := by
  unfold Normalizer.mediaBlock Media.mapDiscogsFormats Media.finishBlock Named
  dsimp only
  rw [mem_sortedUnique, mem_foldl_mapFormat_unmappedFormats, entriesOf_formats]
  simp only [List.not_mem_nil, false_or, List.mem_map, exists_exists_and_eq_and]

/-! ## Published records -/

def elements : Value → List Value
  | .array arr => arr
  | other => [other]

theorem child_object {map : Map} {key : String} {v : Value} (h : Map.get key map = some v) :
    child key (.object map) = some (elements v) := by
  unfold child
  dsimp only
  rw [h]
  cases v <;> rfl

theorem child_record {fields : List (String × Value)} {key : String} {v : Value}
    (h : Map.get key fields.reverse = some v) : child key (.record fields) = some (elements v) := by
  apply child_object
  rw [Map.get_insertAll, h]
  rfl

/-- The list in the `unmapped` part of a block. -/
theorem places_unmapped {published : Map} {fields unmapped : List (String × Value)} {values : List String}
    {block list : String} (hblock : Map.get block published = some (.record fields))
    (hunmapped : Map.get "unmapped" fields.reverse = some (.record unmapped))
    (hlist : Map.get list unmapped.reverse = some (.strings values)) :
    Walk.places child [block, "unmapped", list] (.object published) = values.map .string := by
  have hone : Walk.advance child [.object published] block = [.record fields] := by
    unfold Walk.advance
    rw [List.flatMap_singleton, child_object hblock]
    rfl
  have htwo : Walk.advance child [.record fields] "unmapped" = [.record unmapped] := by
    unfold Walk.advance
    rw [List.flatMap_singleton, child_record hunmapped]
    rfl
  have hthree : Walk.advance child [.record unmapped] list = values.map .string := by
    unfold Walk.advance
    rw [List.flatMap_singleton, child_record hlist]
    rfl
  unfold Walk.places
  rw [List.foldl_cons, hone, List.foldl_cons, htwo, List.foldl_cons, hthree, List.foldl_nil]

theorem filterMap_scalar_strings (values : List String) : (values.map Value.string).filterMap scalar = values := by
  rw [List.filterMap_map]
  exact List.filterMap_some

/-- What the published record has under the `unmapped` parts of its blocks. -/
theorem resolveField_unmapped (n : Normalizer) {m : DataMessage} {record : Map} (h : m.data = .object record) :
    resolveField (n.apply .releases m).data "identifiers.unmapped.types" = (n.identifiersBlock m.data).unmappedTypes ∧
      resolveField (n.apply .releases m).data "companies.unmapped.roles" = (n.companiesBlock m.data).unmappedRoles ∧
      resolveField (n.apply .releases m).data "media.unmapped.formats" = (n.mediaBlock m.data).unmappedFormats := by
  obtain ⟨map, hmap, hidentifiers, hcompanies, hmedia⟩ := n.get_apply_releases h
  have htypes : segments "identifiers.unmapped.types" = ["identifiers", "unmapped", "types"] := by decide
  have hroles : segments "companies.unmapped.roles" = ["companies", "unmapped", "roles"] := by decide
  have hformats : segments "media.unmapped.formats" = ["media", "unmapped", "formats"] := by decide
  unfold resolveField
  rw [hmap, htypes, hroles, hformats, places_unmapped hidentifiers rfl rfl, places_unmapped hcompanies rfl rfl,
    places_unmapped hmedia rfl rfl]
  exact ⟨filterMap_scalar_strings _, filterMap_scalar_strings _, filterMap_scalar_strings _⟩

/-! ## Agreement -/

/-- The enum rules report of the parsed record what the blocks of the published record have as unmapped. -/
structure Agree (n : Normalizer) (config : CompiledRulesConfig F) (m : DataMessage) : Prop where
  types : ∀ s, s ∈ flagged config "identifier-type-not-recognized" m.data ↔
    s ∈ resolveField (n.apply .releases m).data "identifiers.unmapped.types"
  roles : ∀ s, s ∈ flagged config "company-role-not-recognized" m.data ↔
    s ∈ resolveField (n.apply .releases m).data "companies.unmapped.roles"
  formats : ∀ s, s ∈ flagged config "format-not-recognized" m.data ↔
    s ∈ resolveField (n.apply .releases m).data "media.unmapped.formats"

/-- The strings that a vocabulary does not have stand at the rules' fields exactly if the raw entries say them to the
blocks. -/
structure Told (n : Normalizer) (record : Value) : Prop where
  types : ∀ s, n.identifiers.types.lookup s = none → (Stated "identifiers.identifier.@type" record s ↔
    ∃ entry ∈ rawEntries "identifiers" "identifier" record, Entitled "type" "value" s entry)
  roles : ∀ s, n.companies.roles.lookup s = none → (Stated "companies.company.entity_type_name" record s ↔
    ∃ entry ∈ rawEntries "companies" "company" record, Entitled "entity_type_name" "name" s entry)
  formats : ∀ s, n.taxonomy.formats.lookup s = none → (Stated "formats.format.@name" record s ↔
    ∃ entry ∈ rawEntries "formats" "format" record, Named s entry)

theorem agree_iff_told {n : Normalizer} {config : CompiledRulesConfig F}
    (htypes : ShipsRule config identifierTypeRule n.identifiers.types)
    (hroles : ShipsRule config companyRoleRule n.companies.roles)
    (hformats : ShipsRule config formatRule n.taxonomy.formats) {m : DataMessage} {record : Map}
    (hdata : m.data = .object record) (hparsed : Parsed m.data) : Agree n config m ↔ Told n m.data := by
  obtain ⟨hidentifiers, hcompanies, hmedia⟩ := resolveField_unmapped n hdata
  have htype := flagged_eq_unmapped_iff htypes hparsed fun s => hidentifiers ▸ hdata ▸ mem_identifiersBlock_unmapped
  have hrole := flagged_eq_unmapped_iff hroles hparsed fun s => hcompanies ▸ hdata ▸ mem_companiesBlock_unmapped
  have hformat := flagged_eq_unmapped_iff hformats hparsed fun s => hmedia ▸ hdata ▸ mem_mediaBlock_unmapped
  constructor
  · intro hagree
    exact ⟨htype.1 hagree.types, hrole.1 hagree.roles, hformat.1 hagree.formats⟩
  · intro htold
    exact ⟨htype.2 htold.types, hrole.2 htold.roles, hformat.2 htold.formats⟩

/-- On a record that the parser emits, rules and blocks agree exactly if each string that a vocabulary does not have
stands where the rule looks for it whenever an entry has it, whole, for the block. -/
theorem unmapped_agree_iff (n : Normalizer) (config : CompiledRulesConfig F)
    (htypes : ShipsRule config identifierTypeRule n.identifiers.types)
    (hroles : ShipsRule config companyRoleRule n.companies.roles)
    (hformats : ShipsRule config formatRule n.taxonomy.formats) (p : XmlParser) (receiver : Nat → Bool)
    (results : Option (List ReadResult)) (m : DataMessage) (h : m ∈ (p.parseFile receiver results).2) :
    Agree n config m ↔ Told n m.data := by
  obtain ⟨record, hdata, hshaped, -, -⟩ := (XmlParser.parseFile_emitted h).entries
  exact agree_iff_told htypes hroles hformats hdata (hdata ▸ .inl hshaped)

/-- The three rules, for vocabularies that are empty. -/
def shippedRules : CompiledRulesConfig Nat :=
  ⟨AList.insert "releases" [identifierTypeRule [], companyRoleRule [], formatRule []] ∅, ∅, ∅⟩

theorem shippedRules_ships : ShipsRule shippedRules identifierTypeRule blankNormalizer.identifiers.types ∧
    ShipsRule shippedRules companyRoleRule blankNormalizer.companies.roles ∧
      ShipsRule shippedRules formatRule blankNormalizer.taxonomy.formats := by
  have hnone : ∀ {τ : Type} (s : String), s ∈ ([] : List String) ↔
      ((∅ : Table String τ).lookup s).isSome = true := by
    intro τ s
    rw [AList.lookup_empty]
    simp
  exact ⟨⟨[], rfl, hnone⟩, ⟨[], rfl, hnone⟩, ⟨[], rfl, hnone⟩⟩

def identifierRelease (attributes : List (Option Attr)) : List ReadResult :=
  [.event (.start ⟨"releases", []⟩), .event (.start ⟨"release", [some ⟨"id", "1", some "1"⟩]⟩),
    .event (.start ⟨"identifiers", []⟩), .event (.empty ⟨"identifier", attributes⟩), .event (.endTag "identifiers"),
    .event (.endTag "release"), .event (.endTag "releases")]

def identifierMessage (identifier : Map) : DataMessage :=
  ⟨"1", "", .object [("@id", .string "1"), ("identifiers", .object [("identifier", .object identifier)])], none⟩

def soldIdentifier : Map := [("@type", .string "X"), ("@value", .string "1")]

theorem identifier_agrees : Agree blankNormalizer shippedRules (identifierMessage soldIdentifier) := by
  obtain ⟨htypes, hroles, hformats⟩ := shippedRules_ships
  have hsent : identifierMessage soldIdentifier ∈ ((⟨.releases, false⟩ : XmlParser).parseFile XmlParser.alive
      (some (identifierRelease [some ⟨"type", "X", some "X"⟩, some ⟨"value", "1", some "1"⟩]))).2 :=
    List.mem_singleton.2 rfl
  refine (unmapped_agree_iff _ _ htypes hroles hformats ⟨.releases, false⟩ XmlParser.alive _ _ hsent).2 ⟨?_, ?_, ?_⟩
  · intro s _
    have hbranches : branches "identifiers.identifier.@type" (identifierMessage soldIdentifier).data =
        [some (.string "X")] := rfl
    have hraw : rawEntries "identifiers" "identifier" (identifierMessage soldIdentifier).data =
        [.object soldIdentifier] := rfl
    have hstrip : stripAtPrefixes (.object soldIdentifier) = .object [("type", .string "X"), ("value", .string "1")] :=
      rfl
    unfold Stated
    rw [hbranches, hraw]
    constructor
    · rintro (hs | ⟨-, hnull⟩)
      · obtain rfl : s = "X" := by simpa using hs
        exact ⟨_, List.mem_singleton.2 rfl, _, "X", "1", hstrip, rfl, by decide, by decide, rfl, by decide⟩
      · simp at hnull
    · rintro ⟨entry, hentry, map, text, other, hmap, htext, rfl, -⟩
      rw [List.mem_singleton.1 hentry, hstrip] at hmap
      obtain rfl := Value.object.inj hmap
      obtain rfl : "X" = text := by simpa [Map.get] using htext
      exact .inl (List.mem_singleton.2 rfl)
  · intro s _
    have hbranches : branches "companies.company.entity_type_name" (identifierMessage soldIdentifier).data = [none] :=
      rfl
    have hraw : rawEntries "companies" "company" (identifierMessage soldIdentifier).data = [] := rfl
    unfold Stated
    rw [hbranches, hraw]
    simp
  · intro s _
    have hbranches : branches "formats.format.@name" (identifierMessage soldIdentifier).data = [none] := rfl
    have hraw : rawEntries "formats" "format" (identifierMessage soldIdentifier).data = [] := rfl
    unfold Stated
    rw [hbranches, hraw]
    simp

/-- A type with spaces around it is flagged with them, and the block has it without. -/
theorem paddedIdentifier_not_agree :
    let m := identifierMessage [("@type", .string " X "), ("@value", .string "1")]
    m ∈ ((⟨.releases, false⟩ : XmlParser).parseFile XmlParser.alive
        (some (identifierRelease [some ⟨"type", " X ", some " X "⟩, some ⟨"value", "1", some "1"⟩]))).2 ∧
      (ShipsRule shippedRules identifierTypeRule blankNormalizer.identifiers.types ∧
        ShipsRule shippedRules companyRoleRule blankNormalizer.companies.roles ∧
          ShipsRule shippedRules formatRule blankNormalizer.taxonomy.formats) ∧
      ¬Agree blankNormalizer shippedRules m := by
  intro m
  refine ⟨List.mem_singleton.2 rfl, shippedRules_ships, fun hagree => ?_⟩
  have hflagged : " X " ∈ flagged shippedRules "identifier-type-not-recognized" m.data := by decide +kernel
  have hunmapped : " X " ∉ resolveField (blankNormalizer.apply .releases m).data "identifiers.unmapped.types" := by
    decide +kernel
  exact hunmapped ((hagree.types " X ").1 hflagged)

end DiscogsIngestion.Rules
