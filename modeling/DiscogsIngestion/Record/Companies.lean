import DiscogsIngestion.Lib.Table
import DiscogsIngestion.Record.Block

/-!
# The canonical companies block

* `Companies.Vocabulary` : which category a raw role belongs to;
* `CompanyItem`, `CompaniesBlock` : the block;
* `mapDiscogsCompanies`, `attachCompaniesBlock` : the mapper;
* `Describes`, `Exact` : an item that says what its entry says, and a block that says what the list says;
* `mapDiscogsCompanies_exact` : the block that is attached does.
-/

namespace DiscogsIngestion

/-- The vocabulary indexed for lookup. -/
structure Companies.Vocabulary where
  vocabularyVersion : String
  unmappedCategory : String
  roles : Table String String

structure CompanySource where
  provider : String
  entityType : Option String
  deriving DecidableEq, Repr

/-- One company. The role is the raw string. -/
structure CompanyItem where
  name : String
  discogsId : Option Nat
  role : String
  roleCategory : String
  catno : Option String
  source : CompanySource
  deriving DecidableEq, Repr

structure CompaniesBlock where
  companiesVersion : String
  items : List CompanyItem
  roleCategories : List String
  unmappedRoles : List String
  deriving DecidableEq, Repr

/-- The Discogs label id of the company, a whole number of at least one. -/
def discogsId (entry : Map) : Option Nat :=
  let id := match Map.get "id" entry with
    | some (.number n) => n.asU64
    | some (.string text) => parseU64 (trim text)
    | _ => none
  id.filter (1 ≤ ·)

def IsCode (s : String) : Prop := s ≠ "" ∧ s.toList.all Char.isDigit = true

/-- The numeric relationship code as received: digits and nothing else. -/
def entityType (entry : Map) : Option String :=
  let code := match Map.get "entity_type" entry with
    | some (.string text) => some (trim text)
    | some (.number (.integer n)) => if -2 ^ 63 ≤ n ∧ n < 2 ^ 64 then some n.repr else none
    | _ => none
  code.filter fun code => code ≠ "" ∧ code.toList.all Char.isDigit

namespace Companies

variable (vocabulary : Vocabulary)

/-- The item of an entry that names a company and a role, and the role if the vocabulary does not know it. -/
def mapEntry : Value → Option (CompanyItem × Option String)
  | .object entry =>
    match trimmed entry "name", trimmed entry "entity_type_name" with
    | some name, some role =>
      let category := vocabulary.roles.lookup role
      some (⟨name, discogsId entry, role, category.getD vocabulary.unmappedCategory, trimmed entry "catno",
        ⟨"discogs", entityType entry⟩⟩, if category.isNone then some role else none)
    | _, _ => none
  | _ => none

/-- Map a normalized `companies` list onto the canonical block. -/
def mapDiscogsCompanies (companies : Option Value) : CompaniesBlock :=
  let mapped := (entriesOf companies).filterMap (mapEntry vocabulary)
  let items := mapped.map Prod.fst
  { companiesVersion := vocabulary.vocabularyVersion
    items
    roleCategories := sortedUnique (items.map CompanyItem.roleCategory)
    unmappedRoles := sortedUnique (mapped.filterMap Prod.snd) }

end Companies

def CompanyItem.toValue (item : CompanyItem) : Value :=
  .record [
    ("name", .string item.name),
    ("discogs_id", match item.discogsId with
      | some id => .nat id
      | none => .null),
    ("role", .string item.role),
    ("role_category", .string item.roleCategory),
    ("catno", .optional item.catno),
    ("source", .record [
      ("provider", .string item.source.provider),
      ("entity_type", .optional item.source.entityType)])]

def CompaniesBlock.toValue (block : CompaniesBlock) : Value :=
  .record [
    ("companies_version", .string block.companiesVersion),
    ("items", .array (block.items.map CompanyItem.toValue)),
    ("role_categories", .strings block.roleCategories),
    ("unmapped", .record [("roles", .strings block.unmappedRoles)])]

/-- The block takes the place of the list. -/
def attachCompaniesBlock (vocabulary : Companies.Vocabulary) : Value → Value
  | .object map => .object
    (Map.insert "companies" (Companies.mapDiscogsCompanies vocabulary (Map.get "companies" map)).toValue map)
  | record => record

theorem CompanyItem.toValue_ordered (item : CompanyItem) : item.toValue.Ordered := by
  have hid : Value.Ordered (match item.discogsId with | some id => .nat id | none => .null) := by
    cases item.discogsId <;> simp
  have hsource : Value.Ordered (.record [("provider", .string item.source.provider),
      ("entity_type", .optional item.source.entityType)]) := Value.record_ordered (by simp)
  apply Value.record_ordered
  simp [hid, hsource]

theorem CompaniesBlock.toValue_ordered (block : CompaniesBlock) : block.toValue.Ordered := by
  have hitems := Value.array_map_ordered CompanyItem.toValue_ordered block.items
  have hunmapped : Value.Ordered (.record [("roles", .strings block.unmappedRoles)]) :=
    Value.record_ordered (by simp)
  apply Value.record_ordered
  simp [hitems, hunmapped]

/-! ## Exactness -/

namespace Companies

/-- The entry has a name and a role that are strings and not blank. -/
def Credited (entry : Map) : Prop := (trimmed entry "name").isSome ∧ (trimmed entry "entity_type_name").isSome

instance : DecidablePred Credited := fun entry =>
  inferInstanceAs (Decidable ((trimmed entry "name").isSome ∧ (trimmed entry "entity_type_name").isSome))

def credited (entries : List Value) : List Map :=
  entries.filterMap fun entry =>
    match entry with
    | .object map => if Credited map then some map else none
    | _ => none

/-- The number is an integer in JSON, of 64 bits as every integer of a JSON document is, or a numeral in a string. -/
def IsNumber (v : Option Value) (n : Nat) : Prop :=
  v = some (.number (.integer n)) ∨ ∃ text, v = some (.string text) ∧ Numeral (trim text) n

/-- The code is an integer of JSON that is not negative, or a string of digits. -/
def IsEntityType (v : Option Value) (code : String) : Prop :=
  (∃ n : Nat, n < 2 ^ 64 ∧ v = some (.number (.integer n)) ∧ code = n.repr) ∨
    ∃ text, v = some (.string text) ∧ trim text = code ∧ IsCode code

/-- The item says what the entry says. -/
structure Describes (vocabulary : Vocabulary) (entry : Map) (item : CompanyItem) : Prop where
  name : trimmed entry "name" = some item.name
  role : trimmed entry "entity_type_name" = some item.role
  roleCategory : item.roleCategory = (vocabulary.roles.lookup item.role).getD vocabulary.unmappedCategory
  discogsId : ∀ n, item.discogsId = some n ↔ IsNumber (Map.get "id" entry) n ∧ 1 ≤ n ∧ n < 2 ^ 64
  catno : item.catno = trimmed entry "catno"
  provider : item.source.provider = "discogs"
  entityType : ∀ code, item.source.entityType = some code ↔ IsEntityType (Map.get "entity_type" entry) code

end Companies

theorem Number.asU64_eq_some_iff {number : Number} {n : Nat} :
    number.asU64 = some n ↔ number = .integer n ∧ n < 2 ^ 64 := by
  cases number with
  | decimal text => exact iff_of_false (fun h => nomatch h) fun h => nomatch h.1
  | integer k =>
    unfold asU64
    rw [Option.ite_none_right_eq_some, Number.integer.injEq]
    constructor
    · rintro ⟨⟨hnonneg, hlt⟩, heq⟩
      obtain rfl := Option.some.inj heq
      omega
    · rintro ⟨rfl, hlt⟩
      exact ⟨⟨by omega, by omega⟩, by simp⟩

theorem discogsId_eq_some_iff {entry : Map} {n : Nat} :
    discogsId entry = some n ↔ Companies.IsNumber (Map.get "id" entry) n ∧ 1 ≤ n ∧ n < 2 ^ 64 := by
  have hread : (match Map.get "id" entry with
      | some (.number number) => number.asU64
      | some (.string text) => parseU64 (trim text)
      | _ => none) = some n ↔ Companies.IsNumber (Map.get "id" entry) n ∧ n < 2 ^ 64 := by
    unfold Companies.IsNumber
    cases Map.get "id" entry with
    | none => simp
    | some v =>
      cases v with
      | number number => simp [Number.asU64_eq_some_iff]
      | string text => simp [parseU64_eq_some_iff]
      | _ => simp
  unfold discogsId
  dsimp only
  rw [Option.filter_eq_some_iff, hread, and_assoc, and_comm (a := n < 2 ^ 64)]
  simp

theorem isCode_repr (n : Nat) : IsCode n.repr :=
  ⟨fun h => toList_repr_ne_nil n (congrArg String.toList h), all_isDigit_repr n⟩

/-- That of a negative one has its sign. -/
theorem not_isCode_repr_negSucc (n : Nat) : ¬IsCode (Int.negSucc n).repr := by
  rintro ⟨-, hall⟩
  have hsign : (Int.negSucc n).repr.toList = '-' :: (n + 1).repr.toList := by
    show ("-" ++ (n + 1).repr).toList = _
    rw [String.toList_append]
    rfl
  rw [hsign, List.all_cons] at hall
  simp [show Char.isDigit '-' = false from rfl] at hall

theorem entityType_eq_some_iff {entry : Map} {code : String} :
    entityType entry = some code ↔ Companies.IsEntityType (Map.get "entity_type" entry) code := by
  unfold entityType Companies.IsEntityType
  dsimp only
  rw [Option.filter_eq_some_iff]
  have hcode : (decide (code ≠ "" ∧ code.toList.all Char.isDigit = true)) = true ↔ IsCode code := decide_eq_true_iff
  rw [hcode]
  cases Map.get "entity_type" entry with
  | none => simp
  | some v =>
    cases v with
    | string text => simp
    | number number =>
      cases number with
      | decimal text => simp
      | integer k =>
        rw [Option.ite_none_right_eq_some]
        constructor
        · rintro ⟨⟨⟨-, hlt⟩, heq⟩, hcode⟩
          obtain rfl := Option.some.inj heq
          cases k with
          | ofNat n => exact .inl ⟨n, Int.ofNat_lt.1 hlt, rfl, rfl⟩
          | negSucc n => exact absurd hcode (not_isCode_repr_negSucc n)
        · rintro (⟨n, hlt, heq, rfl⟩ | ⟨text, heq, -⟩)
          · obtain rfl : k = n := by simpa using heq
            exact ⟨⟨⟨by omega, by omega⟩, rfl⟩, isCode_repr n⟩
          · simp at heq
    | _ => simp

namespace Companies

/-- The block has one item for each entry that names a credit, and the summaries are those of its items. -/
structure Exact (vocabulary : Vocabulary) (companies : Option Value) (block : CompaniesBlock) : Prop where
  version : block.companiesVersion = vocabulary.vocabularyVersion
  items : List.Forall₂ (Describes vocabulary) (credited (entriesOf companies)) block.items
  roleCategories_sorted : block.roleCategories.Pairwise (· < ·)
  roleCategories : ∀ s, s ∈ block.roleCategories ↔ ∃ item ∈ block.items, item.roleCategory = s
  unmappedRoles_sorted : block.unmappedRoles.Pairwise (· < ·)
  unmappedRoles : ∀ s, s ∈ block.unmappedRoles ↔ s ∉ vocabulary.roles ∧ ∃ item ∈ block.items, item.role = s

variable (vocabulary : Vocabulary)

theorem mapEntry_of_not_credited {entry : Map} (h : ¬Credited entry) : mapEntry vocabulary (.object entry) = none := by
  unfold mapEntry
  dsimp only
  split
  · next name role hname hrole =>
    refine absurd ⟨?_, ?_⟩ h
    · rw [hname]
      rfl
    · rw [hrole]
      rfl
  · rfl

theorem mapEntry_of_credited {entry : Map} (h : Credited entry) :
    ∃ item, Describes vocabulary entry item ∧ mapEntry vocabulary (.object entry) =
      some (item, if (vocabulary.roles.lookup item.role).isNone then some item.role else none) := by
  obtain ⟨name, hname⟩ := Option.isSome_iff_exists.1 h.1
  obtain ⟨role, hrole⟩ := Option.isSome_iff_exists.1 h.2
  refine ⟨⟨name, discogsId entry, role, (vocabulary.roles.lookup role).getD vocabulary.unmappedCategory,
    trimmed entry "catno", ⟨"discogs", entityType entry⟩⟩, ⟨hname, hrole, rfl, ?_, rfl, rfl, ?_⟩, ?_⟩
  · exact fun n => discogsId_eq_some_iff
  · exact fun code => entityType_eq_some_iff
  · unfold mapEntry
    dsimp only
    rw [hname, hrole]

/-- One item for each entry that names a credit, and the roles of those that the vocabulary has not. -/
theorem filterMap_mapEntry (entries : List Value) :
    let mapped := entries.filterMap (mapEntry vocabulary)
    List.Forall₂ (Describes vocabulary) (credited entries) (mapped.map Prod.fst) ∧
      ∀ s, s ∈ mapped.filterMap Prod.snd ↔ s ∉ vocabulary.roles ∧ ∃ item ∈ mapped.map Prod.fst, item.role = s := by
  induction entries with
  | nil => exact ⟨.nil, fun s => by simp⟩
  | cons entry entries ih =>
    obtain ⟨hitems, hroles⟩ := ih
    dsimp only at hitems hroles ⊢
    cases entry with
    | object map =>
      by_cases h : Credited map
      · obtain ⟨item, hitem, hmap⟩ := mapEntry_of_credited vocabulary h
        have hcredited : credited (.object map :: entries) = map :: credited entries :=
          List.filterMap_cons_some (if_pos h)
        rw [hcredited, List.filterMap_cons_some hmap]
        refine ⟨.cons hitem hitems, fun s => ?_⟩
        have hlookup : (vocabulary.roles.lookup item.role).isNone = true ↔ item.role ∉ vocabulary.roles := by
          rw [Option.isNone_iff_eq_none, AList.lookup_eq_none]
        by_cases hknown : item.role ∈ vocabulary.roles
        · rw [if_neg fun hnone => hlookup.1 hnone hknown, List.filterMap_cons_none rfl, hroles, List.map_cons]
          simp only [List.mem_cons, exists_eq_or_imp]
          constructor
          · exact fun ⟨hnot, hitem⟩ => ⟨hnot, .inr hitem⟩
          · rintro ⟨hnot, rfl | hitem⟩
            · exact absurd hknown hnot
            · exact ⟨hnot, hitem⟩
        · rw [if_pos (hlookup.2 hknown)]
          show s ∈ item.role :: (entries.filterMap (mapEntry vocabulary)).filterMap Prod.snd ↔ _
          rw [List.mem_cons, hroles, List.map_cons]
          simp only [List.mem_cons, exists_eq_or_imp]
          constructor
          · rintro (rfl | ⟨hnot, hitem⟩)
            · exact ⟨hknown, .inl rfl⟩
            · exact ⟨hnot, .inr hitem⟩
          · rintro ⟨hnot, rfl | hitem⟩
            · exact .inl rfl
            · exact .inr ⟨hnot, hitem⟩
      · have hcredited : credited (.object map :: entries) = credited entries :=
          List.filterMap_cons_none (if_neg h)
        rw [hcredited, List.filterMap_cons_none (mapEntry_of_not_credited vocabulary h)]
        exact ⟨hitems, hroles⟩
    | _ => exact ⟨hitems, hroles⟩

theorem mapDiscogsCompanies_exact (companies : Option Value) :
    Exact vocabulary companies (mapDiscogsCompanies vocabulary companies) := by
  obtain ⟨hitems, hroles⟩ := filterMap_mapEntry vocabulary (entriesOf companies)
  refine ⟨rfl, hitems, sortedUnique_strict _, fun s => ?_, sortedUnique_strict _, fun s => ?_⟩
  · exact mem_sortedUnique.trans List.mem_map
  · exact mem_sortedUnique.trans (hroles s)

end Companies

end DiscogsIngestion
