import DiscogsIngestion.Record.Prefixes
import DiscogsIngestion.Record.Published

/-!
# Lists of a normalized record

* `ListKind`, `ListField`, `listFields` : the list fields of each data type, and what becomes of their elements;
* `childElements`, `children` : the child elements of a name, and those of the containers of a list that are not empty;
* `Faithful` : the list field holds those children, or is absent if there are none;
* `taken` : what normalization takes for the children;
* `Plain`, `FaithfulWhen` : the containers for which this is the same;
* `faithful_iff_plain` : the condition on a single container;
* `listsFaithful_iff` : the list fields of a record of the parser are faithful exactly for these.
-/

namespace DiscogsIngestion

/-! ## List fields -/

inductive ListKind where
  | strings
  | items
  | formats
  deriving DecidableEq, Repr

namespace ListKind

def normalizer (containerKey : String) : ListKind → Value → Value
  | strings => normalizeStringList containerKey
  | items => normalizeItemList containerKey
  | formats => normalizeFormats

def element : ListKind → Value → Value
  | strings => id
  | items => normalizeItem
  | formats => stripAtPrefixes

/-- What an element of the list has to be: text, or an object without prefixes. -/
def Fits : ListKind → Value → Prop
  | strings, v => ∃ s, v = .string s ∧ s ≠ ""
  | _, v => ∃ map, v = .object map ∧ ∀ e ∈ map, stripAt e.1 = none

/-- The child can become such an element. -/
def Usable : ListKind → Value → Prop
  | strings, .string _ => True
  | items, .string _ => True
  | items, .object map => ¬Residue (map.map Prod.fst)
  | formats, .object map => ¬Residue (map.map Prod.fst)
  | _, _ => False

end ListKind

structure ListField where
  field : String
  containerKey : String
  kind : ListKind
  deriving DecidableEq, Repr

/-- The list fields of a record, with the name of the elements of their containers. -/
def listFields : DataType → List ListField
  | .artists => [⟨"members", "name", .items⟩, ⟨"groups", "name", .items⟩, ⟨"aliases", "name", .items⟩]
  | .labels => [⟨"sublabels", "label", .items⟩]
  | .masters => [⟨"artists", "artist", .items⟩, ⟨"genres", "genre", .strings⟩, ⟨"styles", "style", .strings⟩]
  | .releases =>
    [⟨"artists", "artist", .items⟩, ⟨"labels", "label", .items⟩, ⟨"genres", "genre", .strings⟩,
      ⟨"styles", "style", .strings⟩, ⟨"extraartists", "artist", .items⟩, ⟨"identifiers", "identifier", .items⟩,
      ⟨"companies", "company", .items⟩, ⟨"formats", "format", .formats⟩]

/-! ## Children -/

def childElements (name : String) : Value → List Value
  | .object map =>
    match Map.get name map with
    | some (.array items) => items
    | some v => [v]
    | none => []
  | _ => []

def isNull : Value → Bool
  | .null => true
  | _ => false

/-- The child elements in the containers of the list that are not empty, in document order. -/
def children (lf : ListField) (record : Value) : List Value :=
  (childElements lf.field record).flatMap fun container =>
    (childElements lf.containerKey container).filter fun child => !isNull child

/-- The list field of the normalized record is absent if there are no children, and otherwise it has one element for
each, of the kind that the list has. -/
structure Faithful (dt : DataType) (lf : ListField) (record : Value) (map : Map) : Prop where
  normalized : normalizeRecord dt record = .object map
  absent : Map.get lf.field map = none ↔ children lf record = []
  elements : ∀ list, Map.get lf.field map = some list → list = .array ((children lf record).map lf.kind.element)
  fits : ∀ child ∈ children lf record, lf.kind.Fits (lf.kind.element child)

/-! ## What normalization takes -/

def recordMap : DataType → Map → Map
  | .artists, m => m
  | .labels, m => m
  | .masters, m => (renames (m.map Prod.fst)).foldl applyRename m
  | .releases, m => (renames (m.map Prod.fst)).foldl applyRename m

/-- What normalization takes for the children of the list. -/
def taken (containerKey : String) (found : Option Value) : List Value :=
  found.elim [] fun container => entriesOf (some (unwrapContainer containerKey container))

/-- The field for these elements: a list, or nothing at all. -/
def listed (f : Value → Value) : List Value → Option Value
  | [] => none
  | item :: items => some (.array ((item :: items).map f))

variable {m : Map} {key field : String} {dt : DataType} {lf : ListField}

theorem normalizer_eq (h : lf ∈ listFields dt) (container : Value) : lf.kind.normalizer lf.containerKey container =
    .array ((entriesOf (some (unwrapContainer lf.containerKey container))).map lf.kind.element) := by
  cases hkind : lf.kind with
  | strings =>
    show unwrapContainer lf.containerKey container = _
    rw [unwrapContainer_eq_array]
    exact congrArg _ (List.map_id _).symm
  | items => exact normalizeItemList_eq ..
  | formats =>
    have hname : lf.containerKey = "format" := by
      revert lf
      cases dt <;> decide
    rw [hname]
    exact normalizeFormats_eq container

theorem get_normalizeField_self {f : Value → Value} {normalizer : Value → Value} {containerKey : String}
    (hnorm : ∀ container, normalizer container =
      .array ((entriesOf (some (unwrapContainer containerKey container))).map f)) (m : Map) :
    Map.get field (normalizeField normalizer field m) =
      listed f (taken containerKey (Map.get field m)) := by
  unfold normalizeField taken
  cases hget : Map.get field m with
  | none =>
    dsimp only [Option.elim]
    exact hget
  | some container =>
    dsimp only [Option.elim]
    rw [hnorm]
    have hgone : Map.get field (Map.remove field m) = none := by rw [Map.get_remove, if_pos rfl]
    cases entriesOf (some (unwrapContainer containerKey container)) with
    | nil => exact hgone
    | cons item items => exact Map.get_insert_self ..

def normalizeFields (fields : List ListField) (m : Map) : Map :=
  fields.foldl (fun m lf => normalizeField (lf.kind.normalizer lf.containerKey) lf.field m) m

theorem get_normalizeFields_of_ne {fields : List ListField} (h : ∀ lf ∈ fields, key ≠ lf.field) (m : Map) :
    Map.get key (normalizeFields fields m) = Map.get key m := by
  induction fields generalizing m with
  | nil => rfl
  | cons lf fields ih =>
    have hrest := ih (fun lf' hlf' => h lf' (List.mem_cons_of_mem _ hlf'))
    refine (hrest _).trans ?_
    exact get_normalizeField (h lf (List.mem_cons_self ..)) _ m

theorem get_normalizeFields {fields : List ListField} (hnodup : (fields.map ListField.field).Nodup) (hlf : lf ∈ fields)
    (h : lf ∈ listFields dt) (m : Map) : Map.get lf.field (normalizeFields fields m) =
      listed lf.kind.element (taken lf.containerKey (Map.get lf.field m)) := by
  induction fields generalizing m with
  | nil => exact absurd hlf List.not_mem_nil
  | cons first fields ih =>
    obtain ⟨hnot, hrest⟩ := List.nodup_cons.1 hnodup
    rcases List.mem_cons.1 hlf with rfl | hlf
    · have hothers : ∀ other ∈ fields, lf.field ≠ other.field := by
        intro other hother heq
        exact hnot (heq ▸ List.mem_map_of_mem hother)
      refine (get_normalizeFields_of_ne hothers _).trans ?_
      exact get_normalizeField_self (normalizer_eq h) m
    · have hne : lf.field ≠ first.field := fun heq => hnot (heq ▸ List.mem_map_of_mem hlf)
      refine (ih hrest hlf _).trans ?_
      rw [get_normalizeField hne]

theorem get_normalizeRecord (h : lf ∈ listFields dt) (m : Map) : ∃ map, normalizeRecord dt (.object m) = .object map ∧
    Map.get lf.field map =
      listed lf.kind.element (taken lf.containerKey (Map.get lf.field (recordMap dt m))) := by
  cases dt with
  | artists => exact ⟨normalizeFields (listFields .artists) m, rfl, get_normalizeFields (by decide) h h m⟩
  | labels =>
    refine ⟨normalizeFields (listFields .labels) (normalizeParent m), rfl, ?_⟩
    have hne : lf.field ≠ "parentLabel" := by
      revert lf
      decide
    rw [get_normalizeFields (by decide) h h, get_normalizeParent hne]
    rfl
  | masters =>
    exact ⟨normalizeFields (listFields .masters) (recordMap .masters m), rfl, get_normalizeFields (by decide) h h _⟩
  | releases =>
    -- the id of the master comes between the second list and the third
    refine ⟨normalizeFields ((listFields .releases).drop 2) (normalizeMasterId
      (normalizeFields ((listFields .releases).take 2) (recordMap .releases m))), rfl, ?_⟩
    have hne : lf.field ≠ "master_id" := by
      revert lf
      decide
    rcases List.mem_append.1 (List.take_append_drop 2 (listFields .releases) ▸ h) with hlf | hlf
    · have hothers : ∀ other ∈ (listFields .releases).drop 2, lf.field ≠ other.field := by
        revert lf
        decide
      rw [get_normalizeFields_of_ne hothers, get_normalizeMasterId hne, get_normalizeFields (by decide) hlf h]
    · have hothers : ∀ other ∈ (listFields .releases).take 2, lf.field ≠ other.field := by
        revert lf
        decide
      rw [get_normalizeFields (by decide) hlf h, get_normalizeMasterId hne, get_normalizeFields_of_ne hothers]

/-! ## Plain containers -/

/-- An attribute of the record takes the place of the container. -/
def Replaced (dt : DataType) (field : String) (m : Map) : Prop :=
  (dt = .masters ∨ dt = .releases) ∧ "@" ++ field ∈ m.map Prod.fst

def Repeated (field : String) (m : Map) : Prop := ∃ containers, Map.get field m = some (.array containers)

/-- The container, if there is one, is not mere text and has no empty child beside another. -/
def Plain (lf : ListField) (m : Map) : Prop :=
  ∀ container, Map.get lf.field m = some container →
    (∀ s, container ≠ .string s) ∧
      (2 ≤ (childElements lf.containerKey container).length →
        ∀ child ∈ childElements lf.containerKey container, child ≠ .null)

/-- The children can be elements of the list, and the container is plain. What takes the place of a container, or
several of them, are taken for the children themselves, which is right only where they become the same elements. -/
def FaithfulWhen (dt : DataType) (lf : ListField) (m : Map) : Prop :=
  (∀ child ∈ children lf (.object m), lf.kind.Usable child) ∧
    ((Replaced dt lf.field m ∨ Repeated lf.field m) →
      (taken lf.containerKey (Map.get lf.field (recordMap dt m))).map lf.kind.element =
        (children lf (.object m)).map lf.kind.element) ∧
    (¬(Replaced dt lf.field m ∨ Repeated lf.field m) → Plain lf m)

/-- The list is faithful if normalization takes the children. -/
theorem faithful_iff_taken (h : lf ∈ listFields dt) (m : Map) : (∃ map, Faithful dt lf (.object m) map) ↔
    (taken lf.containerKey (Map.get lf.field (recordMap dt m))).map lf.kind.element =
        (children lf (.object m)).map lf.kind.element ∧
      ∀ child ∈ children lf (.object m), lf.kind.Fits (lf.kind.element child) := by
  obtain ⟨map, hnormal, hget⟩ := get_normalizeRecord h m
  generalize taken lf.containerKey (Map.get lf.field (recordMap dt m)) = items at hget ⊢
  constructor
  · rintro ⟨map', hmap', habsent, helements, hfits⟩
    obtain rfl := Value.object.inj (hnormal.symm.trans hmap')
    refine ⟨?_, hfits⟩
    cases items with
    | nil =>
      rw [habsent.1 hget]
    | cons item items => exact Value.array.inj (helements _ hget)
  · rintro ⟨heq, hfits⟩
    refine ⟨map, hnormal, ?_, fun list hlist => ?_, hfits⟩
    · rw [hget, ← List.map_eq_nil_iff (f := lf.kind.element), ← heq, List.map_eq_nil_iff]
      cases items with
      | nil => exact iff_of_true rfl rfl
      | cons item items => exact iff_of_false (fun hno => nomatch hno) (fun hno => nomatch hno)
    · rw [hget] at hlist
      cases items with
      | nil => exact nomatch hlist
      | cons item items =>
        rw [← Option.some.inj hlist, heq]

open Value (Shaped)

theorem isNull_iff {v : Value} : isNull v = true ↔ v = .null := by
  cases v <;> simp [isNull]

theorem fits_iff (kind : ListKind) {child : Value} (h : child.Shaped) (hne : child ≠ .null) :
    kind.Fits (kind.element child) ↔ kind.Usable child := by
  have hobject : ∀ {map : Map}, map.Sorted →
      ((∃ map', stripAtPrefixes (.object map) = .object map' ∧ ∀ e ∈ map', stripAt e.1 = none) ↔
        ¬Residue (map.map Prod.fst)) := by
    intro map hs
    rw [← unprefixed_iff hs]
    constructor
    · rintro ⟨map', heq, hplain⟩
      exact Value.object.inj heq ▸ hplain
    · exact fun hplain => ⟨_, rfl, hplain⟩
  cases h with
  | null => exact absurd rfl hne
  | @string s hblank =>
    cases kind with
    | strings =>
      refine iff_of_true ⟨s, rfl, ?_⟩ trivial
      rintro rfl
      exact absurd hblank (by decide)
    | items =>
      refine iff_of_true ⟨_, rfl, fun e he => ?_⟩ trivial
      obtain rfl := List.mem_singleton.1 he
      show stripAt "id" = none
      decide
    | formats => exact iff_of_false (fun ⟨map, heq, _⟩ => nomatch heq) id
  | @object map hs _ _ =>
    cases kind with
    | strings => exact iff_of_false (fun ⟨s, heq, _⟩ => nomatch heq) id
    | items => exact hobject hs
    | formats => exact hobject hs

theorem shaped_under {map : Map} (h : Shaped (.object map)) {name : String} (hname : stripAt name = none) {v : Value}
    (hget : Map.get name map = some v) : v.ChildShaped := by
  cases h with
  | object _ _ hentries =>
    cases hentries _ (Map.mem_of_get hget) with
    | attr hstrip => exact nomatch hname.symm.trans hstrip
    | child hv => exact .inl hv
    | children hlen hitems => exact .inr ⟨_, rfl, hlen, hitems⟩

theorem childElements_shaped {v : Value} (h : v.Shaped) {name : String} (hname : stripAt name = none) :
    ∀ child ∈ childElements name v, child.Shaped := by
  cases h with
  | null => exact fun child hchild => absurd hchild List.not_mem_nil
  | string => exact fun child hchild => absurd hchild List.not_mem_nil
  | @object map hs hne hentries =>
    unfold childElements
    dsimp only
    split
    · next items hget =>
      rcases shaped_under (.object hs hne hentries) hname hget with hv | ⟨items', heq, -, hitems⟩
      · exact nomatch hv
      · exact Value.array.inj heq ▸ hitems
    · next v harray hget =>
      intro child hchild
      rw [List.mem_singleton.1 hchild]
      refine (shaped_under (.object hs hne hentries) hname hget).resolve_right ?_
      rintro ⟨items, rfl, -⟩
      exact harray items rfl
    · exact fun child hchild => absurd hchild List.not_mem_nil

/-- A single container is taken right exactly if it is plain. -/
theorem taken_eq_iff {container : Value} (h : container.Shaped) {name : String} (hname : stripAt name = none)
    (f : Value → Value) :
    (taken name (some container)).map f = ((childElements name container).filter fun child => !isNull child).map f ↔
      (∀ s, container ≠ .string s) ∧
        (2 ≤ (childElements name container).length → ∀ child ∈ childElements name container, child ≠ .null) := by
  cases h with
  | null =>
    refine iff_of_true rfl ⟨fun s => nofun, fun _ child hchild => absurd hchild List.not_mem_nil⟩
  | @string s _ => exact iff_of_false (fun hno => nomatch hno) fun hno => hno.1 s rfl
  | @object map hs hne hentries =>
    have hstring : ∀ s, Value.object map ≠ .string s := fun s => nofun
    unfold taken childElements unwrapContainer
    dsimp only [Option.elim]
    cases hget : Map.get name map with
    | none => exact iff_of_true rfl ⟨hstring, fun _ child hchild => absurd hchild List.not_mem_nil⟩
    | some v =>
      rcases shaped_under (.object hs hne hentries) hname hget with hv | ⟨items, rfl, hlen, hitems⟩
      · have hsingle : ∀ w : Value, 2 ≤ [w].length → ∀ child ∈ [w], child ≠ .null := fun w hlen => absurd hlen (by simp)
        cases hv with
        | null => exact iff_of_true rfl ⟨hstring, hsingle _⟩
        | string => exact iff_of_true rfl ⟨hstring, hsingle _⟩
        | object => exact iff_of_true rfl ⟨hstring, hsingle _⟩
      · show items.map f = (items.filter fun child => !isNull child).map f ↔
          (∀ s, Value.object map ≠ .string s) ∧ (2 ≤ items.length → ∀ child ∈ items, child ≠ .null)
        have hkept : (∀ child ∈ items, child ≠ .null) ↔ ∀ child ∈ items, (!isNull child) = true := by
          simp only [Bool.not_eq_true', ← Bool.not_eq_true, isNull_iff, ne_eq]
        constructor
        · intro heq
          refine ⟨hstring, fun _ => hkept.2 ?_⟩
          have hlength := congrArg List.length heq
          rw [List.length_map, List.length_map] at hlength
          exact List.length_filter_eq_length_iff.1 hlength.symm
        · rintro ⟨-, hnull⟩
          rw [List.filter_eq_self.2 (hkept.1 (hnull hlen))]

theorem listField_plain (h : lf ∈ listFields dt) :
    stripAt lf.field = none ∧ lf.field ≠ "name" ∧ lf.field ≠ "#text" ∧ stripAt lf.containerKey = none := by
  cases dt <;> revert lf <;> decide

/-- Without such an attribute, the record has its container where it was. -/
theorem get_recordMap (h : lf ∈ listFields dt) (hreplaced : ¬Replaced dt lf.field m) :
    Map.get lf.field (recordMap dt m) = Map.get lf.field m := by
  obtain ⟨hplain, hname, htext, -⟩ := listField_plain h
  have hstrip : "@" ++ lf.field ∉ m.map Prod.fst →
      Map.get lf.field ((renames (m.map Prod.fst)).foldl applyRename m) = Map.get lf.field m := by
    intro hno
    refine get_foldl_of_untouched fun r hr => ?_
    obtain ⟨hkey, hold | ⟨hold, hnew, -⟩⟩ := (mem_renames_iff.1 hr).imp_right renamed_ne_iff.1
    · constructor
      · intro heq
        rw [heq, ← stripAt_eq_some_iff, hplain] at hold
        exact nomatch hold
      · intro heq
        rw [hold, heq] at hkey
        exact hno hkey
    · exact ⟨fun heq => htext (heq.symm.trans hold), fun heq => hname (heq.symm.trans hnew)⟩
  unfold recordMap
  split
  · rfl
  · rfl
  · exact hstrip fun hmem => hreplaced ⟨.inl rfl, hmem⟩
  · exact hstrip fun hmem => hreplaced ⟨.inr rfl, hmem⟩

theorem mem_children {record : Value} (h : lf ∈ listFields dt) (hrecord : record.Shaped) {child : Value}
    (hchild : child ∈ children lf record) : child.Shaped ∧ child ≠ .null := by
  obtain ⟨hfield, -, -, hkey⟩ := listField_plain h
  obtain ⟨container, hcontainer, hchild⟩ := List.mem_flatMap.1 hchild
  obtain ⟨hmem, hnull⟩ := List.mem_filter.1 hchild
  refine ⟨childElements_shaped (childElements_shaped hrecord hfield _ hcontainer) hkey _ hmem, ?_⟩
  rintro rfl
  exact absurd hnull (by decide)

/-- With no attribute in its place and no second container, the children are taken exactly if the container is
plain. -/
theorem taken_recordMap_iff (h : lf ∈ listFields dt) (hrecord : Shaped (.object m))
    (hsingle : ¬(Replaced dt lf.field m ∨ Repeated lf.field m)) :
    (taken lf.containerKey (Map.get lf.field (recordMap dt m))).map lf.kind.element =
      (children lf (.object m)).map lf.kind.element ↔ Plain lf m := by
  obtain ⟨hfield, -, -, hkey⟩ := listField_plain h
  obtain ⟨hreplaced, hrepeated⟩ := not_or.1 hsingle
  rw [get_recordMap h hreplaced]
  unfold Plain children
  cases hget : Map.get lf.field m with
  | none =>
    have hcontainers : childElements lf.field (.object m) = [] := by
      unfold childElements
      dsimp only
      rw [hget]
    rw [hcontainers]
    exact iff_of_true rfl fun container hno => nomatch hno
  | some container =>
    rcases shaped_under hrecord hfield hget with hcontainer | ⟨containers, rfl, -⟩
    · have hcontainers : childElements lf.field (.object m) = [container] := by
        unfold childElements
        dsimp only
        rw [hget]
        cases hcontainer <;> rfl
      rw [hcontainers, List.flatMap_singleton, taken_eq_iff hcontainer hkey]
      constructor
      · rintro hplain container' heq
        exact Option.some.inj heq ▸ hplain
      · exact fun hplain => hplain container rfl
    · exact absurd ⟨containers, hget⟩ hrepeated

/-- The list of a record is faithful if its children can be elements and are taken. -/
theorem faithful_iff_usable (h : lf ∈ listFields dt) (hrecord : Shaped (.object m)) :
    (∃ map, Faithful dt lf (.object m) map) ↔ (∀ child ∈ children lf (.object m), lf.kind.Usable child) ∧
      (taken lf.containerKey (Map.get lf.field (recordMap dt m))).map lf.kind.element =
        (children lf (.object m)).map lf.kind.element := by
  have hfits : (∀ child ∈ children lf (.object m), lf.kind.Fits (lf.kind.element child)) ↔
      ∀ child ∈ children lf (.object m), lf.kind.Usable child := by
    refine forall₂_congr fun child hchild => ?_
    obtain ⟨hchildShaped, hne⟩ := mem_children h hrecord hchild
    exact fits_iff lf.kind hchildShaped hne
  rw [faithful_iff_taken h, hfits, and_comm]

/-- With at most one container, and no attribute in its place, the list is faithful exactly if the container is plain
and its children can be elements. -/
theorem faithful_iff_plain {p : XmlParser} {receiver : Nat → Bool} {results : Option (List ReadResult)}
    {message : DataMessage} (hmessage : message ∈ (p.parseFile receiver results).2) (h : lf ∈ listFields p.dataType)
    {record : Map} (hdata : message.data = .object record)
    (hsingle : ¬(Replaced p.dataType lf.field record ∨ Repeated lf.field record)) :
    (∃ map, Faithful p.dataType lf message.data map) ↔
      (∀ child ∈ children lf message.data, lf.kind.Usable child) ∧ Plain lf record := by
  obtain ⟨record', hdata', hshaped, -⟩ := (XmlParser.parseFile_emitted hmessage).entries
  obtain rfl := Value.object.inj (hdata.symm.trans hdata')
  rw [hdata, faithful_iff_usable h hshaped, taken_recordMap_iff h hshaped hsingle]

/-- The list fields of a record of the parser are faithful exactly if the children can be elements and are taken. -/
theorem listsFaithful_iff {p : XmlParser} {receiver : Nat → Bool} {results : Option (List ReadResult)}
    {message : DataMessage} (hmessage : message ∈ (p.parseFile receiver results).2) (h : lf ∈ listFields p.dataType) :
    ∃ record, message.data = .object record ∧
      ((∃ map, Faithful p.dataType lf message.data map) ↔ FaithfulWhen p.dataType lf record) := by
  obtain ⟨record, hdata, hshaped, -⟩ := (XmlParser.parseFile_emitted hmessage).entries
  refine ⟨record, hdata, ?_⟩
  rw [hdata, faithful_iff_usable h hshaped]
  unfold FaithfulWhen
  refine and_congr_right fun _ => ?_
  by_cases hodd : Replaced p.dataType lf.field record ∨ Repeated lf.field record
  · exact ⟨fun heq => ⟨fun _ => heq, fun hno => absurd hodd hno⟩, fun heq => heq.1 hodd⟩
  · rw [taken_recordMap_iff h hshaped hodd]
    exact ⟨fun hplain => ⟨fun hno => absurd hno hodd, fun _ => hplain⟩, fun hplain => hplain.2 hodd⟩

def genresRelease (genres : List ReadResult) : List ReadResult :=
  [.event (.start ⟨"releases", []⟩), .event (.start ⟨"release", [some ⟨"id", "1", some "1"⟩]⟩),
    .event (.start ⟨"genres", []⟩)] ++ genres ++
    [.event (.endTag "genres"), .event (.endTag "release"), .event (.endTag "releases")]

def rockElement : List ReadResult :=
  [.event (.start ⟨"genre", []⟩), .event (.chars (.text "Rock")), .event (.endTag "genre")]

def genresMessage (genre : Value) : DataMessage :=
  ⟨"1", "", .object [("@id", .string "1"), ("genres", .object [("genre", genre)])], none⟩

def genresField : ListField := ⟨"genres", "genre", .strings⟩

theorem rock_faithful : ∃ map, Faithful .releases genresField (genresMessage (.string "Rock")).data map := by
  have hsent : genresMessage (.string "Rock") ∈ ((⟨.releases, false⟩ : XmlParser).parseFile XmlParser.alive
      (some (genresRelease rockElement))).2 := List.mem_singleton.2 rfl
  have hfield : genresField ∈ listFields .releases := by decide
  obtain ⟨record, hdata, hiff⟩ := listsFaithful_iff hsent hfield
  obtain rfl := Value.object.inj hdata
  refine hiff.2 ⟨fun child hchild => ?_, fun hodd => ?_, fun _ container hcontainer => ?_⟩
  · obtain rfl := List.mem_singleton.1 hchild
    trivial
  · rcases hodd with ⟨-, hreplaced⟩ | ⟨containers, hrepeated⟩
    · exact absurd hreplaced (by decide)
    · exact nomatch hrepeated
  · obtain rfl := Option.some.inj hcontainer
    exact ⟨fun s => nofun, fun hlen => absurd hlen (by decide)⟩

/-- Beside another genre, an empty one becomes an element. -/
theorem emptyGenre_not_faithful :
    genresMessage (.array [.null, .string "Rock"]) ∈ ((⟨.releases, false⟩ : XmlParser).parseFile XmlParser.alive
        (some (genresRelease (.event (.empty ⟨"genre", []⟩) :: rockElement)))).2 ∧
      genresField ∈ listFields .releases ∧
      ¬∃ map, Faithful .releases genresField (genresMessage (.array [.null, .string "Rock"])).data map := by
  refine ⟨List.mem_singleton.2 rfl, by decide, ?_⟩
  rintro ⟨map, hmap, -, helements, -⟩
  obtain rfl := Value.object.inj hmap
  have hlist := helements (.array [.null, .string "Rock"]) rfl
  exact nomatch Value.array.inj hlist

end DiscogsIngestion
