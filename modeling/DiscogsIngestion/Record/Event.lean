import DiscogsIngestion.Lib.Json
import DiscogsIngestion.Parser.Shape
import DiscogsIngestion.Record.Companies
import DiscogsIngestion.Record.Identifiers
import DiscogsIngestion.Record.Media
import DiscogsIngestion.Record.Normalize

/-!
# Published events

A parsed record is normalized, hashed and written as a JSON object in which the envelope and the data share one key
space.

* `Value.toJson`, `Value.ofJson` : JSON values as documents;
* `Normalizer`, `calculateContentHash`, `Normalizer.apply` : `message_normalizer` on one record;
* `DataMessage.toJson`, `DataMessage.fromJson` : what `serde` derives for a data message;
* `Collides` : a record that has a key of the envelope;
* `published_iff` : the event of a record reads back as it was written exactly if the record does not collide.
-/

namespace DiscogsIngestion

/-! ## Values as documents -/

/-- What stands at the leaves of an event. -/
inductive Scalar where
  | null
  | bool (b : Bool)
  | number (n : Number)
  | string (s : String)
  deriving DecidableEq, Repr

namespace Value

mutual

def toJson : Value → Json Scalar
  | .null => .atom .null
  | .bool b => .atom (.bool b)
  | .number n => .atom (.number n)
  | .string s => .atom (.string s)
  | .array items => .array (itemsToJson items)
  | .object entries => .object (entriesToJson entries)

def itemsToJson : List Value → List (Json Scalar)
  | [] => []
  | v :: rest => v.toJson :: itemsToJson rest

def entriesToJson : List (String × Value) → List (String × Json Scalar)
  | [] => []
  | (key, v) :: rest => (key, v.toJson) :: entriesToJson rest

end

mutual

/-- The value of a document. A repeated key keeps its last entry. -/
def ofJson : Json Scalar → Value
  | .atom .null => .null
  | .atom (.bool b) => .bool b
  | .atom (.number n) => .number n
  | .atom (.string s) => .string s
  | .array items => .array (itemsOfJson items)
  | .object fields => .object (Map.insertAll (entriesOfJson fields) [])

def itemsOfJson : List (Json Scalar) → List Value
  | [] => []
  | j :: rest => ofJson j :: itemsOfJson rest

def entriesOfJson : List (String × Json Scalar) → List (String × Value)
  | [] => []
  | (key, j) :: rest => (key, ofJson j) :: entriesOfJson rest

end

mutual

theorem ofJson_toJson {v : Value} (h : v.Ordered) : ofJson v.toJson = v := by
  match v with
  | .null | .bool _ | .number _ | .string _ => rw [toJson, ofJson]
  | .array items => rw [toJson, ofJson, itemsOfJson_itemsToJson h.items]
  | .object entries =>
    rw [toJson, ofJson, entriesOfJson_entriesToJson h.entries, Map.insertAll_nil h.sorted]

theorem itemsOfJson_itemsToJson {items : List Value} (h : ∀ v ∈ items, v.Ordered) :
    itemsOfJson (itemsToJson items) = items := by
  match items with
  | [] => rfl
  | v :: rest =>
    rw [itemsToJson, itemsOfJson, ofJson_toJson (h v (List.mem_cons_self ..)),
      itemsOfJson_itemsToJson fun w hw => h w (List.mem_cons_of_mem _ hw)]

theorem entriesOfJson_entriesToJson {entries : List (String × Value)} (h : ∀ e ∈ entries, e.2.Ordered) :
    entriesOfJson (entriesToJson entries) = entries := by
  match entries with
  | [] => rfl
  | (key, v) :: rest =>
    rw [entriesToJson, entriesOfJson, ofJson_toJson (h (key, v) (List.mem_cons_self ..)),
      entriesOfJson_entriesToJson fun e he => h e (List.mem_cons_of_mem _ he)]

end

theorem map_fst_entriesToJson (entries : List (String × Value)) :
    (entriesToJson entries).map Prod.fst = entries.map Prod.fst := by
  induction entries with
  | nil => rfl
  | cons e rest ih =>
    rw [entriesToJson, List.map_cons, List.map_cons, ih]

end Value

/-! ## Normalized records -/

/-- The vocabularies, and the hash of a text in hexadecimal digits. -/
structure Normalizer where
  casing : CaseMapping
  taxonomy : Media.Taxonomy
  identifiers : Identifiers.Vocabulary
  companies : Companies.Vocabulary
  sha256 : List (Token Scalar) → String

def calculateContentHash (n : Normalizer) (data : Value) : String := n.sha256 data.toJson.tokens

/-- Normalize a record, attach the blocks of a release, and compute the content hash. -/
def Normalizer.apply (n : Normalizer) (dt : DataType) (m : DataMessage) : DataMessage :=
  let data := normalizeRecord dt m.data
  let data := if dt = .releases then
      attachCompaniesBlock n.companies
        (attachIdentifiersBlock n.casing n.identifiers (attachMediaBlock n.taxonomy data))
    else data
  { m with data, sha256 := calculateContentHash n data }

/-! ## Data messages as JSON -/

namespace DataMessage

def string (s : String) : Json Scalar := .atom (.string s)

def toStr : Json Scalar → Option String
  | .atom (.string s) => some s
  | _ => none

/-- The tag, the named fields, and the entries of the data. The data of a parsed record is an object; none stands
for any other value. -/
def toJson (m : DataMessage) : Option (Json Scalar) :=
  match m.data with
  | .object entries => some (.object
    ([("type", string "data"), ("id", string m.id), ("sha256", string m.sha256)] ++ Value.entriesToJson entries))
  | _ => none

/-- The data message in a document: what is neither the tag nor a named field is data. -/
def fromJson : Json Scalar → Option DataMessage
  | .object fields => do
    let tag ← Json.required toStr "type" fields
    if tag = "data" then
      let fields := fields.filter fun f => f.1 ≠ "type"
      return {
        id := ← Json.required toStr "id" fields
        sha256 := ← Json.required toStr "sha256" fields
        data := Value.ofJson (.object (fields.filter fun f => f.1 ≠ "id" ∧ f.1 ≠ "sha256"))
        rawXml := none }
    else none
  | _ => none

end DataMessage

/-! ## The envelope -/

/-- The keys that the envelope takes. -/
def envelope : List String := ["type", "id", "sha256"]

/-- A record that has a key of the envelope, once its attributes have lost their prefixes if it is a master or a
release. -/
def Collides (dt : DataType) (record : Map) : Prop :=
  ∃ key ∈ envelope, Map.containsKey key record = true ∨
    ((dt = .masters ∨ dt = .releases) ∧ Map.containsKey ("@" ++ key) record = true)

instance (dt : DataType) (record : Map) : Decidable (Collides dt record) :=
  inferInstanceAs (Decidable (∃ key ∈ envelope, _))

/-- The event of a record: distinct keys, the tag, the id and the content hash in their places, and what is read back
is what was written. -/
def Published (n : Normalizer) (dt : DataType) (m : DataMessage) : Prop :=
  ∃ fields, (n.apply dt m).toJson = some (.object fields) ∧
    (fields.map Prod.fst).Nodup ∧
    ("type", DataMessage.string "data") ∈ fields ∧
    ("id", DataMessage.string m.id) ∈ fields ∧
    ("sha256", DataMessage.string (calculateContentHash n (n.apply dt m).data)) ∈ fields ∧
    (Json.parse (Json.object fields).tokens).bind DataMessage.fromJson = some { n.apply dt m with rawXml := none }

variable {m : DataMessage} {record : Map}

/-- A block goes under a key that is none of the envelope. -/
theorem containsKey_insert_block {key field : String} (hkey : key ∈ envelope) (hfield : field ∉ envelope)
    (block : Value) (m : Map) : Map.containsKey key (Map.insert field block m) = Map.containsKey key m := by
  have hne : key ≠ field := by
    rintro rfl
    exact hfield hkey
  unfold Map.containsKey
  rw [Map.get_insert, if_neg hne]

/-- The data of an event is an object. It has a key of the envelope if the record collides there. -/
theorem Normalizer.apply_data (n : Normalizer) (dt : DataType) (hdata : m.data = .object record)
    (hm : (Value.object record).Ordered) :
    ∃ out, (n.apply dt m).data = .object out ∧ (Value.object out).Ordered ∧
      ((∃ key ∈ envelope, Map.containsKey key out = true) ↔ Collides dt record) := by
  obtain ⟨out, hout⟩ := normalizeRecord_object dt record
  have hordered : (Value.object out).Ordered := hout ▸ normalizeRecord_ordered dt hm
  have hcollides : (∃ key ∈ envelope, Map.containsKey key out = true) ↔ Collides dt record := by
    unfold Collides
    refine exists_congr fun key => and_congr_right fun hkey => ?_
    exact containsKey_normalizeRecord dt hm.sorted hkey hout
  unfold Normalizer.apply
  simp only [hdata, hout]
  split_ifs with hdt
  · refine ⟨_, rfl, ?_, ?_⟩
    · exact ((hordered.insert _ (MediaBlock.toValue_ordered _)).insert _ (IdentifiersBlock.toValue_ordered _)).insert _
        (CompaniesBlock.toValue_ordered _)
    · rw [← hcollides]
      refine exists_congr fun key => and_congr_right fun hkey => ?_
      rw [containsKey_insert_block hkey (by decide), containsKey_insert_block hkey (by decide),
        containsKey_insert_block hkey (by decide)]
  · exact ⟨out, rfl, hordered, hcollides⟩

/-- A message whose data has no key of the envelope reads back as it was written. -/
theorem DataMessage.fromJson_toJson {out : Map} {fields : List (String × Json Scalar)} (hdata : m.data = .object out)
    (hout : (Value.object out).Ordered) (hjson : m.toJson = some (.object fields))
    (hnodup : (fields.map Prod.fst).Nodup) : fromJson (.object fields) = some { m with rawXml := none } := by
  unfold toJson at hjson
  rw [hdata] at hjson
  obtain rfl := Json.object.inj (Option.some.inj hjson)
  have hkeys : ∀ f ∈ Value.entriesToJson out, f.1 ≠ "type" ∧ f.1 ≠ "id" ∧ f.1 ≠ "sha256" := by
    intro f hf
    have hapart := (List.nodup_append.1 (by rwa [List.map_append] at hnodup)).2.2
    have hmem : f.1 ∈ (Value.entriesToJson out).map Prod.fst := List.mem_map.2 ⟨f, hf, rfl⟩
    exact ⟨(hapart "type" (by simp) f.1 hmem).symm, (hapart "id" (by simp) f.1 hmem).symm,
      (hapart "sha256" (by simp) f.1 hmem).symm⟩
  have htag : ([("type", string "data"), ("id", string m.id), ("sha256", string m.sha256)] ++
      Value.entriesToJson out).filter (fun f => f.1 ≠ "type") =
      [("id", string m.id), ("sha256", string m.sha256)] ++ Value.entriesToJson out := by
    rw [List.filter_append, List.filter_eq_self.2 fun f hf => decide_eq_true (hkeys f hf).1]
    rfl
  have hrest : ([("id", string m.id), ("sha256", string m.sha256)] ++ Value.entriesToJson out).filter
      (fun f => f.1 ≠ "id" ∧ f.1 ≠ "sha256") = Value.entriesToJson out := by
    rw [List.filter_append, List.filter_eq_self.2 fun f hf => decide_eq_true (hkeys f hf).2]
    rfl
  have hnodup' : (([("id", string m.id), ("sha256", string m.sha256)] ++ Value.entriesToJson out).map
      Prod.fst).Nodup := (List.nodup_cons.1 hnodup).2
  have hvalue : Value.ofJson (.object (Value.entriesToJson out)) = .object out := by
    rw [← Value.toJson]
    exact Value.ofJson_toJson hout
  have htype : Json.required toStr "type"
      ([("type", string "data"), ("id", string m.id), ("sha256", string m.sha256)] ++ Value.entriesToJson out) =
      toStr (string "data") := Json.required_eq hnodup (by simp)
  have hid : Json.required toStr "id" ([("id", string m.id), ("sha256", string m.sha256)] ++
      Value.entriesToJson out) = toStr (string m.id) := Json.required_eq hnodup' (by simp)
  have hhash : Json.required toStr "sha256" ([("id", string m.id), ("sha256", string m.sha256)] ++
      Value.entriesToJson out) = toStr (string m.sha256) := Json.required_eq hnodup' (by simp)
  unfold fromJson
  simp only [htype, htag, hid, hhash, hrest, hvalue, ← hdata]
  rfl

theorem published_iff_not_collides (n : Normalizer) (dt : DataType) (hdata : m.data = .object record)
    (hm : (Value.object record).Ordered) :
    Published n dt m ↔ ¬Collides dt record := by
  obtain ⟨out, happly, hout, hcollides⟩ := n.apply_data dt hdata hm
  have hjson : (n.apply dt m).toJson = some (.object
      ([("type", DataMessage.string "data"), ("id", DataMessage.string m.id),
        ("sha256", DataMessage.string (calculateContentHash n (n.apply dt m).data))] ++
        Value.entriesToJson out)) := by
    have hhash : (n.apply dt m).sha256 = calculateContentHash n (n.apply dt m).data := rfl
    rw [← hhash]
    unfold DataMessage.toJson
    rw [happly]
    rfl
  have hkeys : ([("type", DataMessage.string "data"), ("id", DataMessage.string m.id),
        ("sha256", DataMessage.string (calculateContentHash n (n.apply dt m).data))] ++
        Value.entriesToJson out).map Prod.fst = envelope ++ out.map Prod.fst := by
    rw [List.map_append, Value.map_fst_entriesToJson]
    rfl
  have hthere : ∀ {key : String}, Map.containsKey key out = true ↔ key ∈ out.map Prod.fst := by
    intro key
    rw [Map.containsKey_iff, List.mem_map]
    constructor
    · rintro ⟨v, hv⟩
      exact ⟨_, Map.mem_of_get hv, rfl⟩
    · rintro ⟨e, he, rfl⟩
      exact ⟨e.2, (Map.get_eq_some_iff hout.sorted).2 he⟩
  constructor
  · rintro ⟨fields, hfields, hnodup, -⟩ hno
    obtain rfl := Json.object.inj (Option.some.inj (hjson.symm.trans hfields))
    rw [hkeys] at hnodup
    obtain ⟨key, hkey, hin⟩ := hcollides.2 hno
    exact (List.nodup_append.1 hnodup).2.2 key hkey key (hthere.1 hin) rfl
  · intro hno
    have hnodup : (envelope ++ out.map Prod.fst).Nodup := by
      refine List.nodup_append.2 ⟨by decide, hout.sorted.nodup_keys, ?_⟩
      rintro key hkey key' hkey' rfl
      exact hno (hcollides.1 ⟨key, hkey, hthere.2 hkey'⟩)
    refine ⟨_, hjson, hkeys ▸ hnodup, by simp, by simp, by simp, ?_⟩
    rw [Json.parse_tokens]
    exact DataMessage.fromJson_toJson happly hout hjson (hkeys ▸ hnodup)

/-- The event of a record that the parser emits is what it has to be exactly if the record does not have a key of the
envelope. -/
theorem published_iff (n : Normalizer) (p : XmlParser) (receiver : Nat → Bool) (results : Option (List ReadResult))
    (m : DataMessage) (h : m ∈ (p.parseFile receiver results).2) :
    Published n p.dataType m ↔ ∃ record, m.data = .object record ∧ ¬Collides p.dataType record := by
  obtain ⟨record, hdata, hshaped, -, -⟩ := (XmlParser.parseFile_emitted h).entries
  rw [published_iff_not_collides n p.dataType hdata hshaped.ordered]
  constructor
  · exact fun hno => ⟨record, hdata, hno⟩
  · rintro ⟨record', hdata', hno⟩
    obtain rfl := Value.object.inj (hdata'.symm.trans hdata)
    exact hno

/-- Empty vocabularies and a hash that tells nothing apart. -/
def blankNormalizer : Normalizer where
  casing := ⟨id, id⟩
  taxonomy := ⟨"", ∅, ∅, ∅, ∅⟩
  identifiers := ⟨"", "other", ∅, "identifiers", "labels[].catno", "none", ∅⟩
  companies := ⟨"", "other", ∅⟩
  sha256 := fun _ => ""

/-- A dump with one record: `<root><name id="1"/></root>`. -/
def oneRecord (name : String) : List ReadResult :=
  [.event (.start ⟨"root", []⟩), .event (.empty ⟨name, [some ⟨"id", "1", some "1"⟩]⟩), .event (.endTag "root")]

def oneMessage : DataMessage := ⟨"1", "", .object [("@id", .string "1")], none⟩

theorem artist_published : Published blankNormalizer .artists oneMessage :=
  (published_iff blankNormalizer ⟨.artists, false⟩ XmlParser.alive (some (oneRecord "artist")) oneMessage
    (List.mem_singleton.2 rfl)).2 ⟨_, rfl, by decide⟩

/-- The `@id` of a release becomes an `id` beside the one of the envelope. -/
theorem release_not_published :
    oneMessage ∈ ((⟨.releases, false⟩ : XmlParser).parseFile XmlParser.alive (some (oneRecord "release"))).2 ∧
      ¬Published blankNormalizer .releases oneMessage := by
  refine ⟨List.mem_singleton.2 rfl, ?_⟩
  have hordered : (Value.object [("@id", .string "1")]).Ordered :=
    .object (List.pairwise_singleton ..) fun e he => (List.mem_singleton.1 he) ▸ .string _
  rw [published_iff_not_collides blankNormalizer .releases rfl hordered]
  decide

end DiscogsIngestion
