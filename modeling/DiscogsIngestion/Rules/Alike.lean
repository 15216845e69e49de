import DiscogsIngestion.Record.Lists
import DiscogsIngestion.Rules.Unmapped

/-!
# Entries that rules and blocks read alike

* `entriesAt` : the elements of a list, where the rules look for them;
* `Clear`, `Entitling` : entries that have one string for the rule and for the block, or none for both;
* `Alike` : records whose lists stand in one container each, of such entries;
* `agree_of_alike` : rules and blocks agree on them.
-/

namespace DiscogsIngestion.Rules

open Value (Shaped)

variable {record map : Map} {field key leaf s : String}

/-! ## Where the entries stand -/

/-- The elements of the containers of a list. -/
def entriesAt (field key : String) (record : Value) : List Value :=
  (childElements field record).flatMap (childElements key)

theorem getD_child (key : String) (v : Value) : (child key v).getD [] = childElements key v := by
  cases v with
  | object map =>
    unfold child childElements
    dsimp only
    cases Map.get key map with
    | none => rfl
    | some v => cases v <;> rfl
  | _ => rfl

theorem mem_branches_child {path : List String} {v w : Value} :
    some w ∈ Walk.branches child (key :: path) v ↔ ∃ x ∈ childElements key v, some w ∈ Walk.branches child path x := by
  rw [Walk.mem_branches_cons, ← getD_child]
  cases child key v <;> simp

theorem some_mem_branches {path : String} (h : segments path = [field, key, leaf]) {v w : Value} :
    some w ∈ branches path v ↔ ∃ entry ∈ entriesAt field key v, w ∈ childElements leaf entry := by
  have hleaf : ∀ entry, some w ∈ Walk.branches child [leaf] entry ↔ w ∈ childElements leaf entry := by
    intro entry
    rw [mem_branches_child]
    simp [Walk.branches]
  unfold branches entriesAt
  rw [h]
  simp only [mem_branches_child, hleaf, List.mem_flatMap]
  constructor
  · rintro ⟨container, hcontainer, entry, hentry, hw⟩
    exact ⟨entry, ⟨container, hcontainer, hentry⟩, hw⟩
  · rintro ⟨entry, ⟨container, hcontainer, hentry⟩, hw⟩
    exact ⟨container, hcontainer, entry, hentry, hw⟩

/-- What a rule reads in an entry. -/
def Says (leaf s : String) (entry : Value) : Prop :=
  .string s ∈ childElements leaf entry ∨ s = "" ∧ .null ∈ childElements leaf entry

theorem stated_iff_entriesAt {path : String} (h : segments path = [field, key, leaf]) {v : Value} :
    Stated path v s ↔ ∃ entry ∈ entriesAt field key v, Says leaf s entry := by
  unfold Stated Says
  rw [some_mem_branches h, some_mem_branches h]
  constructor
  · rintro (⟨entry, hentry, hstring⟩ | ⟨hs, entry, hentry, hnull⟩)
    · exact ⟨entry, hentry, .inl hstring⟩
    · exact ⟨entry, hentry, .inr ⟨hs, hnull⟩⟩
  · rintro ⟨entry, hentry, hstring | ⟨hs, hnull⟩⟩
    · exact .inl ⟨entry, hentry, hstring⟩
    · exact .inr ⟨hs, entry, hentry, hnull⟩

theorem object_mem_rawEntries {lf : ListField} (h : lf ∈ listFields .releases) (hrecord : Shaped (.object record))
    (hsingle : ¬(Replaced .releases lf.field record ∨ Repeated lf.field record)) :
    .object map ∈ rawEntries lf.field lf.containerKey (.object record) ↔
      .object map ∈ entriesAt lf.field lf.containerKey (.object record) := by
  obtain ⟨hfield, -, -, hkey⟩ := listField_plain h
  obtain ⟨hreplaced, hrepeated⟩ := not_or.1 hsingle
  show _ ∈ taken lf.containerKey (Map.get lf.field (recordMap .releases record)) ↔ _
  rw [get_recordMap h hreplaced]
  unfold entriesAt taken
  cases hget : Map.get lf.field record with
  | none => simp [childElements, hget]
  | some container =>
    have hcontainer := (shaped_under hrecord hfield hget).resolve_right fun ⟨containers, heq, _⟩ =>
      hrepeated ⟨containers, heq ▸ hget⟩
    have helements : childElements lf.field (.object record) = [container] := by
      unfold childElements
      dsimp only
      rw [hget]
      cases hcontainer <;> rfl
    rw [helements, List.flatMap_singleton]
    cases hcontainer with
    | null => exact Iff.rfl
    | string => simp [childElements, unwrapContainer, entriesOf]
    | @object inner hs hne hentries =>
      unfold unwrapContainer childElements
      dsimp only [Option.elim]
      cases hinner : Map.get lf.containerKey inner with
      | none => exact Iff.rfl
      | some v => cases v <;> simp [ensureList, entriesOf]

/-! ## What the entries say -/

/-- The entry has under this key a string or nothing, and no other of its keys is renamed to the same. -/
structure Clear (leaf : String) (map : Map) : Prop where
  apart : ¬Clash (map.map Prod.fst)
  only : ∀ key ∈ map.map Prod.fst, renamed (map.map Prod.fst) key = renamed (map.map Prod.fst) leaf → key = leaf
  text : ∀ v, Map.get leaf map = some v → ∃ s, v = .string s

/-- The string has no space around it, and the other one that the block needs is there. -/
structure Entitling (leaf needed : String) (map : Map) : Prop extends Clear leaf map where
  trimmed : ∀ s, Map.get leaf map = some (.string s) → trim s = s ∧ s ≠ ""
  needed : ∀ s, Map.get leaf map = some (.string s) →
    ∃ other, Map.get needed map = some (.string other) ∧ trim other ≠ ""

theorem says_object_iff (h : Clear leaf map) : Says leaf s (.object map) ↔ Map.get leaf map = some (.string s) := by
  unfold Says childElements
  dsimp only
  cases hget : Map.get leaf map with
  | none => simp
  | some v =>
    obtain ⟨t, rfl⟩ := h.text v hget
    simp [eq_comm]

/-- Without prefixes, the entry has the string under the new name of its key. -/
theorem Clear.get_stripped (h : Clear leaf map) (hm : map.Sorted) (hleaf : renamed (map.map Prod.fst) leaf = key)
    (hkey : renamed (map.map Prod.fst) key = key) :
    Map.get key ((renames (map.map Prod.fst)).foldl applyRename map) = Map.get leaf map := by
  cases hget : Map.get leaf map with
  | some v =>
    have hlossless := (lossless_iff_free hm).2 ((free_iff_not_clash hm).2 h.apart)
    exact hleaf ▸ hlossless.values leaf v hget
  | none =>
    have habsent : leaf ∉ map.map Prod.fst := by
      rw [← Map.containsKey_iff_mem, Map.containsKey_iff, hget]
      simp
    have huntouched : ∀ r ∈ renames (map.map Prod.fst), r.1 ≠ key ∧ r.2 ≠ key := by
      intro r hr
      obtain ⟨hmem, hnew, hne⟩ := mem_renames_iff.1 hr
      constructor
      · rintro heq
        rw [heq, hkey] at hnew
        exact hne (hnew.symm.trans heq.symm)
      · rintro heq
        exact habsent (h.only r.1 hmem (by rw [hnew, heq, hleaf]) ▸ hmem)
    rw [get_foldl_of_untouched huntouched]
    by_contra hthere
    obtain ⟨v, hv⟩ := Option.ne_none_iff_exists'.1 hthere
    have hmem : key ∈ map.map Prod.fst := Map.containsKey_iff_mem.1 (Map.containsKey_iff.2 ⟨v, hv⟩)
    exact habsent (h.only key hmem (by rw [hkey, hleaf]) ▸ hmem)

theorem Clear.says_iff_named (h : Clear "@name" map) (hm : map.Sorted) :
    Says "@name" s (.object map) ↔ Named s (.object map) := by
  have hget := h.get_stripped hm (renamed_prefixed _ "name") rfl
  rw [says_object_iff h, ← hget]
  constructor
  · exact fun hs => ⟨_, rfl, hs⟩
  · rintro ⟨map', hmap', hs⟩
    exact Value.object.inj hmap' ▸ hs

theorem Entitling.says_iff_entitled {needed other : String} (h : Entitling leaf needed map) (hm : map.Sorted)
    (hleaf : renamed (map.map Prod.fst) leaf = key) (hkey : renamed (map.map Prod.fst) key = key)
    (hneeded : renamed (map.map Prod.fst) needed = other) :
    Says leaf s (.object map) ↔ Entitled key other s (.object map) := by
  have hget := h.get_stripped hm hleaf hkey
  rw [says_object_iff h.toClear]
  constructor
  · intro hs
    obtain ⟨htrim, hne⟩ := h.trimmed s hs
    obtain ⟨text, htext, hblank⟩ := h.needed s hs
    have hlossless := (lossless_iff_free hm).2 ((free_iff_not_clash hm).2 h.apart)
    exact ⟨_, s, text, rfl, hget.trans hs, htrim, hne, hneeded ▸ hlossless.values needed _ htext, hblank⟩
  · rintro ⟨map', text, -, hmap', htext, rfl, -⟩
    have hs : Map.get leaf map = some (.string text) := by
      rw [← hget]
      exact Value.object.inj hmap' ▸ htext
    rw [(h.trimmed text hs).1]
    exact hs

/-! ## Agreement -/

/-- The lists of the three vocabularies stand in one container each, and none of their entries is read in two ways. -/
structure Alike (record : Map) : Prop where
  single : ∀ field ∈ ["identifiers", "companies", "formats"], ¬(Replaced .releases field record ∨ Repeated field record)
  identifiers : ∀ map, .object map ∈ entriesAt "identifiers" "identifier" (.object record) →
    Entitling "@type" "@value" map
  companies : ∀ map, .object map ∈ entriesAt "companies" "company" (.object record) →
    Entitling "entity_type_name" "name" map
  formats : ∀ map, .object map ∈ entriesAt "formats" "format" (.object record) → Clear "@name" map

theorem Says.object {entry : Value} (h : Says leaf s entry) : ∃ map, entry = .object map := by
  cases entry with
  | object map => exact ⟨map, rfl⟩
  | _ => exact absurd h (by simp [Says, childElements])

theorem object_of_stripped {entry : Value} (h : stripAtPrefixes entry = .object map) :
    ∃ map', entry = .object map' := by
  cases entry with
  | object map' => exact ⟨map', rfl⟩
  | _ => exact nomatch h

/-- Rule and block have the same strings from a single container, when they have the same from each of its entries. -/
theorem stated_iff_of_single {path : String} {lf : ListField} (h : lf ∈ listFields .releases)
    (hpath : segments path = [lf.field, lf.containerKey, leaf]) (hrecord : Shaped (.object record))
    (hsingle : ¬(Replaced .releases lf.field record ∨ Repeated lf.field record)) {Has : Value → Prop}
    (hobject : ∀ entry, Has entry → ∃ map, entry = .object map)
    (hentry : ∀ map : Map, map.Sorted → .object map ∈ entriesAt lf.field lf.containerKey (.object record) →
      (Says leaf s (.object map) ↔ Has (.object map))) :
    Stated path (.object record) s ↔ ∃ entry ∈ rawEntries lf.field lf.containerKey (.object record), Has entry := by
  obtain ⟨hfield, -, -, hkey⟩ := listField_plain h
  have hsorted : ∀ map : Map, .object map ∈ entriesAt lf.field lf.containerKey (.object record) → map.Sorted := by
    intro map hmem
    obtain ⟨container, hcontainer, hmem⟩ := List.mem_flatMap.1 hmem
    cases childElements_shaped (childElements_shaped hrecord hfield _ hcontainer) hkey _ hmem with
    | object hs _ _ => exact hs
  rw [stated_iff_entriesAt hpath]
  constructor
  · rintro ⟨entry, hmem, hsays⟩
    obtain ⟨map, rfl⟩ := hsays.object
    exact ⟨_, (object_mem_rawEntries h hrecord hsingle).2 hmem, (hentry map (hsorted map hmem) hmem).1 hsays⟩
  · rintro ⟨entry, hraw, hhas⟩
    obtain ⟨map, rfl⟩ := hobject entry hhas
    have hmem := (object_mem_rawEntries h hrecord hsingle).1 hraw
    exact ⟨_, hmem, (hentry map (hsorted map hmem) hmem).2 hhas⟩

theorem stated_iff_entitled {path needed other : String} {lf : ListField} (h : lf ∈ listFields .releases)
    (hpath : segments path = [lf.field, lf.containerKey, leaf]) (hrecord : Shaped (.object record))
    (hsingle : ¬(Replaced .releases lf.field record ∨ Repeated lf.field record))
    (hentries : ∀ map, .object map ∈ entriesAt lf.field lf.containerKey (.object record) → Entitling leaf needed map)
    (hleaf : ∀ keys, renamed keys leaf = key) (hkey : ∀ keys, renamed keys key = key)
    (hneeded : ∀ keys, renamed keys needed = other) :
    Stated path (.object record) s ↔
      ∃ entry ∈ rawEntries lf.field lf.containerKey (.object record), Entitled key other s entry := by
  refine stated_iff_of_single h hpath hrecord hsingle (fun entry hhas => ?_) fun map hm hmem => ?_
  · obtain ⟨map, -, -, hmap, -⟩ := hhas
    exact object_of_stripped hmap
  · exact (hentries map hmem).says_iff_entitled hm (hleaf _) (hkey _) (hneeded _)

theorem told_of_alike (n : Normalizer) (hrecord : Shaped (.object record)) (h : Alike record) :
    Told n (.object record) := by
  constructor
  · intro s _
    have hlf : (⟨"identifiers", "identifier", .items⟩ : ListField) ∈ listFields .releases := by decide
    exact stated_iff_entitled hlf (by decide) hrecord (h.single _ (by decide)) h.identifiers
      (renamed_prefixed · "type") (fun _ => rfl) (renamed_prefixed · "value")
  · intro s _
    have hlf : (⟨"companies", "company", .items⟩ : ListField) ∈ listFields .releases := by decide
    exact stated_iff_entitled hlf (by decide) hrecord (h.single _ (by decide)) h.companies (fun _ => rfl)
      (fun _ => rfl) (fun _ => rfl)
  · intro s _
    have hlf : (⟨"formats", "format", .formats⟩ : ListField) ∈ listFields .releases := by decide
    have hpath : segments "formats.format.@name" = ["formats", "format", "@name"] := by decide
    refine stated_iff_of_single hlf hpath hrecord (h.single _ (by decide))
      (fun entry hhas => ?_) fun map hm hmem => ?_
    · obtain ⟨map, hmap, -⟩ := hhas
      exact object_of_stripped hmap
    · exact (h.formats map hmem).says_iff_named hm

variable {F : Type} [Double F]

/-- Rules and blocks agree on a record whose entries they read alike. -/
theorem agree_of_alike {n : Normalizer} {config : CompiledRulesConfig F}
    (htypes : ShipsRule config identifierTypeRule n.identifiers.types)
    (hroles : ShipsRule config companyRoleRule n.companies.roles)
    (hformats : ShipsRule config formatRule n.taxonomy.formats) {p : XmlParser} {receiver : Nat → Bool}
    {results : Option (List ReadResult)} {m : DataMessage} (h : m ∈ (p.parseFile receiver results).2)
    (hdata : m.data = .object record) (halike : Alike record) : Agree n config m := by
  obtain ⟨record', hdata', hshaped, -, -⟩ := (XmlParser.parseFile_emitted h).entries
  obtain rfl := Value.object.inj (hdata.symm.trans hdata')
  refine (agree_iff_told htypes hroles hformats hdata (hdata ▸ .inl hshaped)).2 ?_
  rw [hdata]
  exact told_of_alike n hshaped halike

example : Alike [("@id", .string "1"), ("identifiers", .object [("identifier", .object soldIdentifier)])] where
  single := by
    rintro field hfield (⟨-, hreplaced⟩ | ⟨containers, hrepeated⟩)
    · have hkeys : ∀ field ∈ ["identifiers", "companies", "formats"], "@" ++ field ∉ ["@id", "identifiers"] := by decide
      exact hkeys field hfield hreplaced
    · rcases List.mem_cons.1 hfield with rfl | hfield
      · exact nomatch hrepeated
      · rcases List.mem_pair.1 hfield with rfl | rfl <;> exact nomatch hrepeated
  identifiers map hmap := by
    obtain rfl := Value.object.inj (List.mem_singleton.1 hmap)
    refine ⟨⟨by decide, by decide, fun v hv => ⟨"X", (Option.some.inj hv).symm⟩⟩, fun s hs => ?_, fun s _ => ?_⟩
    · obtain rfl := Value.string.inj (Option.some.inj hs)
      decide
    · exact ⟨"1", rfl, by decide⟩
  companies map hmap := absurd hmap List.not_mem_nil
  formats map hmap := absurd hmap List.not_mem_nil

end DiscogsIngestion.Rules
