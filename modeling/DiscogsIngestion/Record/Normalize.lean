import DiscogsIngestion.Map
import DiscogsIngestion.Parser.Element

/-!
# Record normalization

XML-shaped records become flat ones before they are published.

* `stripAtPrefixes` : drop the `@` of the top-level keys and rename `#text`;
* `unwrapContainer`, `ensureList`, `normalizeItemList`, `normalizeStringList` : containers become lists;
* `normalizeArtist`, `normalizeLabel`, `normalizeMaster`, `normalizeRelease`, `normalizeRecord` : the records;
* `containsKey_normalizeRecord` : which of the keys `type`, `id` and `sha256` a normalized record has;
* `normalizeRecord_ordered` : a sorted record stays one.
-/

namespace DiscogsIngestion

/-! ## Keys -/

/-- The renames of an object with these keys. `#text` becomes `name` only if there is no `name` yet. -/
def renames (keys : List String) : List (String × String) :=
  keys.filterMap fun key =>
    match stripAt key with
    | some stripped => some (key, stripped)
    | none => if key = "#text" ∧ "name" ∉ keys then some (key, "name") else none

def applyRename (m : Map) (rename : String × String) : Map :=
  match Map.get rename.1 m with
  | some val => Map.insert rename.2 val (Map.remove rename.1 m)
  | none => m

/-- Remove `@` prefixes from top-level keys and rename `#text` to `name`. -/
def stripAtPrefixes : Value → Value
  | .object map => .object ((renames (map.map Prod.fst)).foldl applyRename map)
  | value => value

/-! ## Containers -/

def ensureList : Value → Value
  | .array items => .array items
  | .null => .array []
  | value => .array [value]

/-- Unwrap a container value into an array. -/
def unwrapContainer (key : String) : Value → Value
  | .null => .array []
  | .array items => .array items
  | .object map =>
    match Map.get key map with
    | some inner => ensureList inner
    | none => .array []
  | value => .array [value]

def insertIfNonempty (key : String) (value : Value) (m : Map) : Map :=
  match value with
  | .array (_ :: _) => Map.insert key value m
  | _ => m

def normalizeItem : Value → Value
  | .object entries => stripAtPrefixes (.object entries)
  | .string s => .object [("id", .string s)]
  | item => item

/-- Normalize a list of items from a container. -/
def normalizeItemList (containerKey : String) (value : Value) : Value :=
  match unwrapContainer containerKey value with
  | .array items => .array (items.map normalizeItem)
  | _ => .array []

/-- Normalize a simple string list from a container. -/
def normalizeStringList (containerKey : String) (value : Value) : Value := unwrapContainer containerKey value

/-- The items of a container, of which only objects lose their prefixes. -/
def normalizeFormats (value : Value) : Value :=
  match unwrapContainer "format" value with
  | .array items => .array (items.map stripAtPrefixes)
  | other => other

/-- A field that holds a container becomes a list, or goes if the list is empty. -/
def normalizeField (normalizer : Value → Value) (field : String) (m : Map) : Map :=
  match Map.get field m with
  | some val => insertIfNonempty field (normalizer val) (Map.remove field m)
  | none => m

/-! ## Records -/

def normalizeArtist : Value → Value
  | .object map => .object (["members", "groups", "aliases"].foldl
      (fun m field => normalizeField (normalizeItemList "name") field m) map)
  | record => record

/-- A parent label that is an object loses its prefixes. -/
def normalizeParent (m : Map) : Map :=
  match Map.get "parentLabel" m with
  | some parent => if parent.isObject then Map.insert "parentLabel" (stripAtPrefixes parent) m else m
  | none => m

def normalizeLabel : Value → Value
  | .object map => .object (normalizeField (normalizeItemList "label") "sublabels" (normalizeParent map))
  | record => record

def normalizeMaster (record : Value) : Value :=
  match stripAtPrefixes record with
  | .object map => .object
    (normalizeField (normalizeStringList "style") "styles"
      (normalizeField (normalizeStringList "genre") "genres"
        (normalizeField (normalizeItemList "artist") "artists" map)))
  | record => record

def normalizeMasterId (m : Map) : Map :=
  match Map.get "master_id" m with
  | some (.object entries) =>
    match (Map.get "#text" entries).or (Map.get "id" entries) with
    | some v => Map.insert "master_id" v m
    | none => m
  | _ => m

def normalizeRelease (record : Value) : Value :=
  match stripAtPrefixes record with
  | .object map =>
    let m := normalizeField (normalizeItemList "artist") "artists" map
    let m := normalizeField (normalizeItemList "label") "labels" m
    let m := normalizeMasterId m
    let m := normalizeField (normalizeStringList "genre") "genres" m
    let m := normalizeField (normalizeStringList "style") "styles" m
    let m := normalizeField (normalizeItemList "artist") "extraartists" m
    let m := normalizeField (normalizeItemList "identifier") "identifiers" m
    let m := normalizeField (normalizeItemList "company") "companies" m
    .object (normalizeField normalizeFormats "formats" m)
  | record => record

/-- Normalize a record based on its data type. -/
def normalizeRecord : DataType → Value → Value
  | .artists => normalizeArtist
  | .labels => normalizeLabel
  | .masters => normalizeMaster
  | .releases => normalizeRelease

/-! ## What is found under a key -/

variable {m : Map} {key field : String}

theorem get_insertIfNonempty (h : key ≠ field) (value : Value) (m : Map) :
    Map.get key (insertIfNonempty field value m) = Map.get key m := by
  unfold insertIfNonempty
  split
  · exact Map.get_insert_of_ne h _ m
  · rfl

theorem get_normalizeField (h : key ≠ field) (normalizer : Value → Value) (m : Map) :
    Map.get key (normalizeField normalizer field m) = Map.get key m := by
  unfold normalizeField
  split
  · rw [get_insertIfNonempty h, Map.get_remove, if_neg h]
  · rfl

theorem get_normalizeParent (h : key ≠ "parentLabel") (m : Map) :
    Map.get key (normalizeParent m) = Map.get key m := by
  unfold normalizeParent
  split
  · split
    · exact Map.get_insert_of_ne h _ m
    · rfl
  · rfl

theorem get_normalizeMasterId (h : key ≠ "master_id") (m : Map) :
    Map.get key (normalizeMasterId m) = Map.get key m := by
  unfold normalizeMasterId
  split
  · split
    · exact Map.get_insert_of_ne h _ m
    · rfl
  · rfl

theorem containsKey_applyRename {rename : String × String} (hne : rename.1 ≠ key) :
    Map.containsKey key (applyRename m rename) = true ↔
      Map.containsKey key m = true ∨ (rename.2 = key ∧ Map.containsKey rename.1 m = true) := by
  unfold applyRename Map.containsKey
  cases hget : Map.get rename.1 m with
  | none => simp
  | some val =>
    simp only [Map.get_insert, Map.get_remove]
    by_cases hkey : key = rename.2
    · simp [hkey]
    · simp [hkey, Ne.symm hne, Ne.symm hkey]

/-- A key that is not renamed itself is there when it was, or when another one is renamed to it. -/
theorem containsKey_foldl_applyRename {rs : List (String × String)} (hnodup : (rs.map Prod.fst).Nodup)
    (hkey : ∀ r ∈ rs, r.1 ≠ key) (hthere : ∀ r ∈ rs, Map.containsKey r.1 m = true) :
    Map.containsKey key (rs.foldl applyRename m) = true ↔
      Map.containsKey key m = true ∨ ∃ r ∈ rs, r.2 = key := by
  induction rs generalizing m with
  | nil => simp
  | cons r rs ih =>
    obtain ⟨hnot, hrest⟩ := List.nodup_cons.1 hnodup
    have hne : r.1 ≠ key := hkey r (List.mem_cons_self ..)
    have hr : Map.containsKey r.1 m = true := hthere r (List.mem_cons_self ..)
    have hstill : ∀ r' ∈ rs, Map.containsKey r'.1 (applyRename m r) = true := by
      intro r' hr'
      have hother : r.1 ≠ r'.1 := fun heq => hnot (heq ▸ List.mem_map.2 ⟨r', hr', rfl⟩)
      exact (containsKey_applyRename hother).2 (.inl (hthere r' (List.mem_cons_of_mem _ hr')))
    rw [List.foldl_cons, ih hrest (fun r' hr' => hkey r' (List.mem_cons_of_mem _ hr')) hstill,
      containsKey_applyRename hne, or_assoc]
    simp [hr]

theorem mem_renames {keys : List String} {r : String × String} (h : r ∈ renames keys) :
    r.1 ∈ keys ∧ (stripAt r.1 = some r.2 ∨ (r.1 = "#text" ∧ r.2 = "name")) := by
  obtain ⟨key, hkey, hr⟩ := List.mem_filterMap.1 h
  split at hr
  · next stripped hstrip =>
    obtain rfl := Option.some.inj hr
    exact ⟨hkey, .inl hstrip⟩
  · split_ifs at hr with htext
    obtain rfl := Option.some.inj hr
    exact ⟨hkey, .inr ⟨htext.1, rfl⟩⟩

theorem renames_sublist (keys : List String) : ((renames keys).map Prod.fst).Sublist keys := by
  have hfst : ∀ {f : String → Option (String × String)}, (∀ key r, f key = some r → r.1 = key) →
      ∀ l : List String, ((l.filterMap f).map Prod.fst).Sublist l := by
    intro f hf l
    induction l with
    | nil => exact List.Sublist.refl _
    | cons key rest ih =>
      cases hr : f key with
      | none => simpa [List.filterMap_cons, hr] using ih.cons key
      | some r => simpa [List.filterMap_cons, hr, hf key r hr] using ih
  refine hfst (fun key r hr => ?_) keys
  split at hr
  · exact congrArg Prod.fst (Option.some.inj hr).symm
  · split_ifs at hr
    exact congrArg Prod.fst (Option.some.inj hr).symm

theorem renames_nodup {keys : List String} (h : keys.Nodup) : ((renames keys).map Prod.fst).Nodup :=
  (renames_sublist keys).nodup h

/-- A key that begins with no prefix is there when it was, with the prefix or without. -/
theorem containsKey_stripAtPrefixes (hm : m.Sorted) (hplain : stripAt key = none) (htext : key ≠ "#text")
    (hname : key ≠ "name") : Map.containsKey key ((renames (m.map Prod.fst)).foldl applyRename m) = true ↔
      Map.containsKey key m = true ∨ Map.containsKey ("@" ++ key) m = true := by
  rw [containsKey_foldl_applyRename (renames_nodup hm.nodup_keys)]
  · refine or_congr_right ⟨?_, fun h => ?_⟩
    · rintro ⟨r, hr, rfl⟩
      obtain ⟨hkeys, hstrip | ⟨-, hno⟩⟩ := mem_renames hr
      · rw [← stripAt_eq_some_iff.1 hstrip]
        exact Map.containsKey_iff_mem.2 hkeys
      · exact absurd hno hname
    · refine ⟨("@" ++ key, key), List.mem_filterMap.2 ⟨"@" ++ key, Map.containsKey_iff_mem.1 h, ?_⟩, rfl⟩
      rw [stripAt_eq_some_iff.2 rfl]
  · rintro r hr rfl
    obtain ⟨-, hstrip | ⟨hno, -⟩⟩ := mem_renames hr
    · exact nomatch hplain.symm.trans hstrip
    · exact htext hno
  · exact fun r hr => Map.containsKey_iff_mem.2 (mem_renames hr).1

/-! ## Order -/

open Value (Ordered)

theorem applyRename_ordered (h : Ordered (.object m)) (rename : String × String) :
    Ordered (.object (applyRename m rename)) := by
  unfold applyRename
  split
  · next hget => exact (h.remove _).insert _ (h.get hget)
  · exact h

theorem stripAtPrefixes_ordered {value : Value} (h : value.Ordered) : (stripAtPrefixes value).Ordered := by
  unfold stripAtPrefixes
  split
  · next m =>
    generalize renames (m.map Prod.fst) = rs
    induction rs generalizing m with
    | nil => exact h
    | cons r rs ih => exact ih _ (applyRename_ordered h r)
  · exact h

theorem ensureList_ordered {value : Value} (h : value.Ordered) :
    ∃ items, ensureList value = .array items ∧ ∀ v ∈ items, v.Ordered := by
  unfold ensureList
  split
  · exact ⟨_, rfl, h.items⟩
  · exact ⟨[], rfl, fun v hv => absurd hv List.not_mem_nil⟩
  · refine ⟨_, rfl, fun v hv => ?_⟩
    obtain rfl := List.mem_singleton.1 hv
    exact h

theorem unwrapContainer_ordered {value : Value} (h : value.Ordered) (containerKey : String) :
    ∃ items, unwrapContainer containerKey value = .array items ∧ ∀ v ∈ items, v.Ordered := by
  unfold unwrapContainer
  split
  · exact ⟨[], rfl, fun v hv => absurd hv List.not_mem_nil⟩
  · exact ⟨_, rfl, h.items⟩
  · split
    · next hget => exact ensureList_ordered (h.get hget)
    · exact ⟨[], rfl, fun v hv => absurd hv List.not_mem_nil⟩
  · refine ⟨_, rfl, fun v hv => ?_⟩
    obtain rfl := List.mem_singleton.1 hv
    exact h

theorem normalizeItem_ordered {value : Value} (h : value.Ordered) : (normalizeItem value).Ordered := by
  unfold normalizeItem
  split
  · exact stripAtPrefixes_ordered h
  · refine .object (List.pairwise_singleton ..) fun e he => ?_
    obtain rfl := List.mem_singleton.1 he
    exact .string _
  · exact h

theorem map_ordered {items : List Value} {f : Value → Value} (h : ∀ v ∈ items, v.Ordered)
    (hf : ∀ {v : Value}, v.Ordered → (f v).Ordered) : Ordered (.array (items.map f)) := by
  refine .array fun v hv => ?_
  obtain ⟨item, hitem, rfl⟩ := List.mem_map.1 hv
  exact hf (h item hitem)

theorem normalizeItemList_ordered {value : Value} (containerKey : String) (h : value.Ordered) :
    (normalizeItemList containerKey value).Ordered := by
  obtain ⟨items, hunwrap, hitems⟩ := unwrapContainer_ordered h containerKey
  unfold normalizeItemList
  rw [hunwrap]
  exact map_ordered hitems normalizeItem_ordered

theorem normalizeStringList_ordered {value : Value} (containerKey : String) (h : value.Ordered) :
    (normalizeStringList containerKey value).Ordered := by
  obtain ⟨items, hunwrap, hitems⟩ := unwrapContainer_ordered h containerKey
  unfold normalizeStringList
  rw [hunwrap]
  exact .array hitems

theorem normalizeFormats_ordered {value : Value} (h : value.Ordered) : (normalizeFormats value).Ordered := by
  obtain ⟨items, hunwrap, hitems⟩ := unwrapContainer_ordered h "format"
  unfold normalizeFormats
  rw [hunwrap]
  exact map_ordered hitems stripAtPrefixes_ordered

theorem normalizeField_ordered {normalizer : Value → Value} (h : Ordered (.object m)) (field : String)
    (hnorm : ∀ {v : Value}, v.Ordered → (normalizer v).Ordered) :
    Ordered (.object (normalizeField normalizer field m)) := by
  unfold normalizeField
  split
  · next hget =>
    have hval := hnorm (h.get hget)
    unfold insertIfNonempty
    split
    · next hlist => exact (h.remove _).insert _ (hlist ▸ hval)
    · exact h.remove _
  · exact h

theorem normalizeParent_ordered (h : Ordered (.object m)) : Ordered (.object (normalizeParent m)) := by
  unfold normalizeParent
  split
  · next hget =>
    split
    · exact h.insert _ (stripAtPrefixes_ordered (h.get hget))
    · exact h
  · exact h

theorem normalizeMasterId_ordered (h : Ordered (.object m)) : Ordered (.object (normalizeMasterId m)) := by
  unfold normalizeMasterId
  split
  · next entries hget =>
    have hinner : Ordered (.object entries) := h.get hget
    split
    · next v hv =>
      refine h.insert _ ?_
      rcases Option.or_eq_some_iff.1 hv with htext | ⟨-, hid⟩
      · exact hinner.get htext
      · exact hinner.get hid
    · exact h
  · exact h

theorem normalizeRecord_object (dt : DataType) (m : Map) : ∃ m', normalizeRecord dt (.object m) = .object m' := by
  cases dt <;> exact ⟨_, rfl⟩

theorem normalizeRecord_ordered (dt : DataType) (h : Ordered (.object m)) :
    (normalizeRecord dt (.object m)).Ordered := by
  have hstrip : Ordered (.object ((renames (m.map Prod.fst)).foldl applyRename m)) := stripAtPrefixes_ordered h
  cases dt with
  | artists =>
    have hlist : ∀ {v : Value}, v.Ordered → (normalizeItemList "name" v).Ordered := normalizeItemList_ordered "name"
    exact normalizeField_ordered (normalizeField_ordered (normalizeField_ordered h "members" hlist) "groups" hlist)
      "aliases" hlist
  | labels => exact normalizeField_ordered (normalizeParent_ordered h) "sublabels" (normalizeItemList_ordered "label")
  | masters =>
    have hartists := normalizeField_ordered hstrip "artists" (normalizeItemList_ordered "artist")
    have hgenres := normalizeField_ordered hartists "genres" (normalizeStringList_ordered "genre")
    exact normalizeField_ordered hgenres "styles" (normalizeStringList_ordered "style")
  | releases =>
    have hartists := normalizeField_ordered hstrip "artists" (normalizeItemList_ordered "artist")
    have hlabels := normalizeField_ordered hartists "labels" (normalizeItemList_ordered "label")
    have hgenres := normalizeField_ordered (normalizeMasterId_ordered hlabels) "genres"
      (normalizeStringList_ordered "genre")
    have hstyles := normalizeField_ordered hgenres "styles" (normalizeStringList_ordered "style")
    have hextra := normalizeField_ordered hstyles "extraartists" (normalizeItemList_ordered "artist")
    have hidentifiers := normalizeField_ordered hextra "identifiers" (normalizeItemList_ordered "identifier")
    have hcompanies := normalizeField_ordered hidentifiers "companies" (normalizeItemList_ordered "company")
    exact normalizeField_ordered hcompanies "formats" normalizeFormats_ordered

/-! ## Names of the envelope -/

/-- The normalization of the fields of a record rewrites no other key. -/
theorem containsKey_normalizeRecord (dt : DataType) (hm : m.Sorted) (hkey : key ∈ ["type", "id", "sha256"]) {m' : Map}
    (h : normalizeRecord dt (.object m) = .object m') : Map.containsKey key m' = true ↔
      Map.containsKey key m = true ∨ ((dt = .masters ∨ dt = .releases) ∧ Map.containsKey ("@" ++ key) m = true) := by
  have hne : ∀ field ∈ ["members", "groups", "aliases", "parentLabel", "sublabels", "artists", "labels", "master_id",
      "genres", "styles", "extraartists", "identifiers", "companies", "formats", "name", "#text"], key ≠ field := by
    revert key
    decide
  have hplain : stripAt key = none := by
    revert key
    decide
  have hstrip := containsKey_stripAtPrefixes hm hplain (hne _ (by decide)) (hne _ (by decide))
  unfold Map.containsKey at hstrip ⊢
  cases dt with
  | artists =>
    obtain rfl := Value.object.inj h
    rw [List.foldl_cons, List.foldl_cons, List.foldl_cons, List.foldl_nil, get_normalizeField (hne _ (by decide)),
      get_normalizeField (hne _ (by decide)), get_normalizeField (hne _ (by decide))]
    simp
  | labels =>
    obtain rfl := Value.object.inj h
    rw [get_normalizeField (hne _ (by decide)), get_normalizeParent (hne _ (by decide))]
    simp
  | masters =>
    obtain rfl := Value.object.inj h
    rw [get_normalizeField (hne _ (by decide)), get_normalizeField (hne _ (by decide)),
      get_normalizeField (hne _ (by decide)), hstrip]
    simp
  | releases =>
    obtain rfl := Value.object.inj h
    have hfields : ∀ (normalizer : Value → Value) (field : String) (m : Map), field ∈ ["artists", "labels", "genres",
        "styles", "extraartists", "identifiers", "companies", "formats"] →
        Map.get key (normalizeField normalizer field m) = Map.get key m := by
      intro normalizer field m hfield
      refine get_normalizeField (hne field ?_) normalizer m
      revert field
      decide
    simp only [hfields, get_normalizeMasterId (hne _ _), List.mem_cons, true_or, or_true, hstrip]
    simp

end DiscogsIngestion
