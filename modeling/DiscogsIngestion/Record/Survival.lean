import DiscogsIngestion.Record.Published

/-!
# What survives in the blocks

The blocks take the place of the only copies of two lists.

* `texts` : the strings and the numbers anywhere in a value;
* `Complete` : the entries of which a block makes an item;
* `Keeps`, `IsId` : a string of an entry is in an item, as far as it can be used there;
* `identifiers_keeps`, `companies_keeps` : what the item of an entry keeps;
* `publishedBlock`, `publishedItems` : a block of the published record, and its items;
* `blocks_keep` : what the items of a published release keep of the entries of the lists.
-/

namespace DiscogsIngestion

/-! ## Strings in values -/

mutual

/-- The strings anywhere in a value, and its numbers as they are written. -/
def texts : Value → List String
  | .string s => [s]
  | .number n => [n.toString]
  | .array items => textsOfItems items
  | .object entries => textsOfEntries entries
  | _ => []

def textsOfItems : List Value → List String
  | [] => []
  | item :: items => texts item ++ textsOfItems items

def textsOfEntries : List (String × Value) → List String
  | [] => []
  | (_, v) :: rest => texts v ++ textsOfEntries rest

end

theorem mem_textsOfEntries {m : Map} {key s : String} {v : Value} (h : Map.get key m = some v) (hs : s ∈ texts v) :
    s ∈ textsOfEntries m := by
  induction m with
  | nil => exact absurd h (by simp [Map.get])
  | cons e rest ih =>
    unfold textsOfEntries
    unfold Map.get at h
    split_ifs at h with hkey
    · obtain rfl := Option.some.inj h
      exact List.mem_append_left _ hs
    · exact List.mem_append_right _ (ih h)

theorem mem_texts_record {fields : List (String × Value)} {s : String} {v : Value} (key : String)
    (h : Map.get key fields.reverse = some v) (hs : s ∈ texts v) : s ∈ texts (.record fields) := by
  have hget : Map.get key (Map.insertAll fields []) = some v := by
    rw [Map.get_insertAll, h]
    rfl
  unfold Value.record texts
  exact mem_textsOfEntries hget hs

theorem mem_texts_string (s : String) : s ∈ texts (.string s) := List.mem_singleton.2 rfl

theorem mem_texts_optional {o : Option String} {s : String} (h : o = some s) : s ∈ texts (.optional o) := by
  rw [h]
  exact mem_texts_string s

/-! ## Items -/

/-- The entry has a string that is not blank under both keys. -/
def Complete (key needed : String) (entry : Map) : Prop :=
  (∃ text, Map.get key entry = some (.string text) ∧ trim text ≠ "") ∧
    ∃ text, Map.get needed entry = some (.string text) ∧ trim text ≠ ""

/-- The string of the entry under the key is in the item without the whitespace around it, if it can be used. -/
def Keeps (usable : String → Prop) (key : String) (entry : Map) (item : Value) : Prop :=
  ∀ text, Map.get key entry = some (.string text) → usable (trim text) → trim text ∈ texts item

/-- The decimal notation of an unsigned 64-bit number of at least one. -/
def IsId (s : String) : Prop := ∃ n : Nat, 1 ≤ n ∧ n < 2 ^ 64 ∧ s = n.repr

theorem trimmed_of_get {entry : Map} {key text : String} (h : Map.get key entry = some (.string text))
    (hblank : trim text ≠ "") : trimmed entry key = some (trim text) :=
  trimmed_eq_some.2 ⟨text, h, rfl, hblank⟩

theorem discogsId_of_get {entry : Map} {text : String} {n : Nat} (h : Map.get "id" entry = some (.string text))
    (htext : trim text = n.repr) (hpos : 1 ≤ n) (hlt : n < 2 ^ 64) : discogsId entry = some n := by
  unfold discogsId
  rw [h]
  dsimp only
  rw [htext, parseU64_repr hlt]
  simpa using hpos

theorem entityType_of_get {entry : Map} {text : String} (h : Map.get "entity_type" entry = some (.string text))
    (hcode : IsCode (trim text)) : entityType entry = some (trim text) := by
  unfold entityType
  rw [h]
  dsimp only
  rw [Option.filter_some, if_pos]
  simpa [IsCode] using hcode

theorem IdentifierItem.mem_texts_toValue (item : IdentifierItem) :
    (∀ s, item.source.typeName = some s → s ∈ texts item.toValue) ∧ item.value ∈ texts item.toValue ∧
      ∀ s, item.description = some s → s ∈ texts item.toValue := by
  unfold toValue
  refine ⟨fun s h => ?_, ?_, fun s h => ?_⟩
  · exact mem_texts_record "source" rfl (mem_texts_record "type" rfl (mem_texts_optional h))
  · exact mem_texts_record "value" rfl (mem_texts_string _)
  · exact mem_texts_record "description" rfl (mem_texts_optional h)

theorem CompanyItem.mem_texts_toValue (item : CompanyItem) :
    item.name ∈ texts item.toValue ∧ (∀ n, item.discogsId = some n → n.repr ∈ texts item.toValue) ∧
      item.role ∈ texts item.toValue ∧ (∀ s, item.catno = some s → s ∈ texts item.toValue) ∧
        ∀ s, item.source.entityType = some s → s ∈ texts item.toValue := by
  unfold toValue
  refine ⟨?_, fun n h => ?_, ?_, fun s h => ?_, fun s h => ?_⟩
  · exact mem_texts_record "name" rfl (mem_texts_string _)
  · rw [h]
    exact mem_texts_record "discogs_id" rfl (List.mem_singleton.2 rfl)
  · exact mem_texts_record "role" rfl (mem_texts_string _)
  · exact mem_texts_record "catno" rfl (mem_texts_optional h)
  · exact mem_texts_record "source" rfl (mem_texts_record "entity_type" rfl (mem_texts_optional h))

theorem identifiers_keeps (vocabulary : Identifiers.Vocabulary) {entry : Map} (h : Complete "type" "value" entry) :
    ∃ item unmapped, Identifiers.mapEntry vocabulary (.object entry) = some (item, unmapped) ∧
      ∀ key ∈ ["type", "value", "description"], Keeps (· ≠ "") key entry item.toValue := by
  obtain ⟨⟨rawType, htype, hrawType⟩, value, hvalue, hblank⟩ := h
  have htypeTrimmed := trimmed_of_get htype hrawType
  have hvalueTrimmed := trimmed_of_get hvalue hblank
  unfold Identifiers.mapEntry
  dsimp only
  rw [htypeTrimmed, hvalueTrimmed]
  refine ⟨_, _, rfl, ?_⟩
  obtain ⟨hsource, hitem, hdescription⟩ := IdentifierItem.mem_texts_toValue
    ⟨(vocabulary.types.lookup (trim rawType)).getD vocabulary.unmappedType, trim value, trimmed entry "description",
      ⟨"discogs", some (trim rawType), vocabulary.identifierField⟩⟩
  intro key hkey text htext husable
  simp only [List.mem_cons, List.not_mem_nil, or_false] at hkey
  rcases hkey with rfl | rfl | rfl
  · obtain rfl : rawType = text := by simpa using htype.symm.trans htext
    exact hsource _ rfl
  · obtain rfl : value = text := by simpa using hvalue.symm.trans htext
    exact hitem
  · exact hdescription _ (trimmed_of_get htext husable)

/-- The item of an entry of companies that is complete. -/
theorem companies_keeps (vocabulary : Companies.Vocabulary) {entry : Map}
    (h : Complete "entity_type_name" "name" entry) :
    ∃ item unmapped, Companies.mapEntry vocabulary (.object entry) = some (item, unmapped) ∧
      (∀ key ∈ ["name", "entity_type_name", "catno"], Keeps (· ≠ "") key entry item.toValue) ∧
        Keeps IsId "id" entry item.toValue ∧ Keeps IsCode "entity_type" entry item.toValue := by
  obtain ⟨⟨role, hrole, hroleBlank⟩, name, hname, hnameBlank⟩ := h
  have hroleTrimmed := trimmed_of_get hrole hroleBlank
  have hnameTrimmed := trimmed_of_get hname hnameBlank
  unfold Companies.mapEntry
  dsimp only
  rw [hroleTrimmed, hnameTrimmed]
  refine ⟨_, _, rfl, ?_⟩
  obtain ⟨hitemName, hid, hitemRole, hcatno, htype⟩ := CompanyItem.mem_texts_toValue ⟨trim name, discogsId entry,
    trim role, (vocabulary.roles.lookup (trim role)).getD vocabulary.unmappedCategory, trimmed entry "catno",
    ⟨"discogs", entityType entry⟩⟩
  refine ⟨?_, ?_, ?_⟩
  · intro key hkey text htext husable
    simp only [List.mem_cons, List.not_mem_nil, or_false] at hkey
    rcases hkey with rfl | rfl | rfl
    · obtain rfl : name = text := by simpa using hname.symm.trans htext
      exact hitemName
    · obtain rfl : role = text := by simpa using hrole.symm.trans htext
      exact hitemRole
    · exact hcatno _ (trimmed_of_get htext husable)
  · rintro text htext ⟨n, hpos, hlt, hn⟩
    rw [hn]
    exact hid n (discogsId_of_get htext hn hpos hlt)
  · intro text htext hcode
    exact htype _ (entityType_of_get htext hcode)

/-! ## Published releases -/

def publishedBlock (field : String) : Value → Option Value
  | .object record => Map.get field record
  | _ => none

def publishedItems (field : String) (record : Value) : List Value :=
  match publishedBlock field record with
  | some (.object block) => entriesOf (Map.get "items" block)
  | _ => []

theorem publishedItems_eq {record : Map} {field : String} {fields : List (String × Value)} {items : List Value}
    (hblock : Map.get field record = some (.record fields))
    (hitems : Map.get "items" fields.reverse = some (.array items)) :
    publishedItems field (.object record) = items := by
  have hget : Map.get "items" (Map.insertAll fields []) = some (.array items) := by
    rw [Map.get_insertAll, hitems]
    rfl
  unfold publishedItems publishedBlock
  dsimp only
  rw [hblock]
  show entriesOf (Map.get "items" (Map.insertAll fields [])) = items
  rw [hget]
  rfl

theorem mem_identifiersBlock_items {n : Normalizer} {m : Map} {entry : Value} {item : IdentifierItem}
    {unmapped : Option String} (hentry : entry ∈ rawEntries "identifiers" "identifier" (.object m))
    (hitem : Identifiers.mapEntry n.identifiers (normalizeItem entry) = some (item, unmapped)) :
    item ∈ (n.identifiersBlock (.object m)).items := by
  unfold Normalizer.identifiersBlock Identifiers.mapDiscogsIdentifiers
  dsimp only
  rw [entriesOf_identifiers]
  apply List.mem_append_left
  exact List.mem_map.2 ⟨_, List.mem_filterMap.2 ⟨_, List.mem_map_of_mem hentry, hitem⟩, rfl⟩

theorem mem_companiesBlock_items {n : Normalizer} {m : Map} {entry : Value} {item : CompanyItem}
    {unmapped : Option String} (hentry : entry ∈ rawEntries "companies" "company" (.object m))
    (hitem : Companies.mapEntry n.companies (normalizeItem entry) = some (item, unmapped)) :
    item ∈ (n.companiesBlock (.object m)).items := by
  unfold Normalizer.companiesBlock Companies.mapDiscogsCompanies
  dsimp only
  rw [entriesOf_companies]
  exact List.mem_map.2 ⟨_, List.mem_filterMap.2 ⟨_, List.mem_map_of_mem hentry, hitem⟩, rfl⟩

theorem normalizeItem_of_object {entry : Value} {map : Map} (h : stripAtPrefixes entry = .object map) :
    normalizeItem entry = .object map := by
  cases entry with
  | object entries => exact h
  | _ => exact absurd h (by simp [stripAtPrefixes])

/-- Of every complete entry of the lists, without its prefixes, one item of the published blocks keeps what it can
use. -/
theorem blocks_keep (n : Normalizer) (p : XmlParser) (receiver : Nat → Bool) (results : Option (List ReadResult))
    (m : DataMessage) (h : m ∈ (p.parseFile receiver results).2) :
    (∀ entry ∈ rawEntries "identifiers" "identifier" m.data, ∀ map, stripAtPrefixes entry = .object map →
      Complete "type" "value" map → ∃ item ∈ publishedItems "identifiers" (n.apply .releases m).data,
        ∀ key ∈ ["type", "value", "description"], Keeps (· ≠ "") key map item) ∧
    ∀ entry ∈ rawEntries "companies" "company" m.data, ∀ map, stripAtPrefixes entry = .object map →
      Complete "entity_type_name" "name" map → ∃ item ∈ publishedItems "companies" (n.apply .releases m).data,
        (∀ key ∈ ["name", "entity_type_name", "catno"], Keeps (· ≠ "") key map item) ∧ Keeps IsId "id" map item ∧
          Keeps IsCode "entity_type" map item := by
  obtain ⟨record, hdata, -, -, -⟩ := (XmlParser.parseFile_emitted h).entries
  obtain ⟨published, hpublished, hidentifiers, hcompanies, -⟩ := n.get_apply_releases hdata
  rw [hpublished, publishedItems_eq hidentifiers rfl, publishedItems_eq hcompanies rfl, hdata]
  constructor
  · intro entry hentry map hmap hcomplete
    obtain ⟨item, unmapped, hitem, hkeeps⟩ := identifiers_keeps n.identifiers hcomplete
    rw [← normalizeItem_of_object hmap] at hitem
    exact ⟨_, List.mem_map_of_mem (mem_identifiersBlock_items hentry hitem), hkeeps⟩
  · intro entry hentry map hmap hcomplete
    obtain ⟨item, unmapped, hitem, hkeeps⟩ := companies_keeps n.companies hcomplete
    rw [← normalizeItem_of_object hmap] at hitem
    exact ⟨_, List.mem_map_of_mem (mem_companiesBlock_items hentry hitem), hkeeps⟩

def creditedRelease (attributes : List (Option Attr)) (fields : List (String × String)) : List ReadResult :=
  [Event.start ⟨"releases", []⟩, .start ⟨"release", [some ⟨"id", "1", some "1"⟩]⟩, .start ⟨"identifiers", []⟩,
    .empty ⟨"identifier", attributes⟩, .endTag "identifiers", .start ⟨"companies", []⟩, .start ⟨"company", []⟩].map
      .event ++
    fields.flatMap (fun e => [.event (.start ⟨e.1, []⟩), .event (.chars (.text e.2)), .event (.endTag e.1)]) ++
    [Event.endTag "company", .endTag "companies", .endTag "release", .endTag "releases"].map .event

def creditedMessage (identifier company : Map) : DataMessage :=
  ⟨"1", "", .object [("@id", .string "1"), ("companies", .object [("company", .object company)]),
    ("identifiers", .object [("identifier", .object identifier)])], none⟩

/-- The value of the identifier and the id of the company are in the blocks. -/
theorem credited_kept :
    let m := creditedMessage [("@type", .string "Barcode"), ("@value", .string " 1 ")]
      [("entity_type_name", .string "Pressed By"), ("id", .string "7"), ("name", .string "Press")]
    (∃ item ∈ publishedItems "identifiers" (blankNormalizer.apply .releases m).data, "1" ∈ texts item) ∧
      ∃ item ∈ publishedItems "companies" (blankNormalizer.apply .releases m).data, "7" ∈ texts item := by
  intro m
  obtain ⟨hidentifiers, hcompanies⟩ := blocks_keep blankNormalizer ⟨.releases, false⟩ XmlParser.alive
    (some (creditedRelease [some ⟨"type", "Barcode", some "Barcode"⟩, some ⟨"value", " 1 ", some " 1 "⟩]
      [("name", "Press"), ("entity_type_name", "Pressed By"), ("id", "7")])) m (List.mem_singleton.2 rfl)
  constructor
  · obtain ⟨item, hitem, hkeeps⟩ := hidentifiers _ (List.mem_singleton.2 rfl)
      [("type", .string "Barcode"), ("value", .string " 1 ")] rfl ⟨⟨_, rfl, by decide⟩, _, rfl, by decide⟩
    exact ⟨item, hitem, hkeeps "value" (by decide) " 1 " rfl (by decide)⟩
  · obtain ⟨item, hitem, -, hid, -⟩ := hcompanies _ (List.mem_singleton.2 rfl)
      [("entity_type_name", .string "Pressed By"), ("id", .string "7"), ("name", .string "Press")] rfl
      ⟨⟨_, rfl, by decide⟩, _, rfl, by decide⟩
    exact ⟨item, hitem, hid "7" rfl ⟨7, by decide, by decide, rfl⟩⟩

/-- Neither block has the type of an identifier without a value, or what else a company says. -/
theorem incomplete_lost :
    let m := creditedMessage [("@type", .string "Barcode")] [("entity_type", .string "x"),
      ("entity_type_name", .string "Pressed By"), ("id", .string "none"), ("name", .string "Press"),
      ("resource_url", .string "link")]
    m ∈ ((⟨.releases, false⟩ : XmlParser).parseFile XmlParser.alive
      (some (creditedRelease [some ⟨"type", "Barcode", some "Barcode"⟩] [("name", "Press"),
        ("entity_type_name", "Pressed By"), ("id", "none"), ("entity_type", "x"), ("resource_url", "link")]))).2 ∧
      (∀ s ∈ ["Barcode"], s ∈ (rawEntries "identifiers" "identifier" m.data).flatMap texts) ∧
      (∀ s ∈ ["none", "x", "link"], s ∈ (rawEntries "companies" "company" m.data).flatMap texts) ∧
      ∀ s ∈ ["Barcode", "none", "x", "link"], ∀ field ∈ ["identifiers", "companies"],
        ∃ block ∈ publishedBlock field (blankNormalizer.apply .releases m).data, s ∉ texts block := by
  intro m
  refine ⟨List.mem_singleton.2 rfl, ?_, ?_, ?_⟩
  · decide +kernel
  · decide +kernel
  · decide +kernel

end DiscogsIngestion
