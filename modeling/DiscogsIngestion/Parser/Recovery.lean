import DiscogsIngestion.Parser.Evidence

/-!
# When evidence is complete

The writer drops an `id` child beside an `@id` in every object, while the parser drops it in a record alone.

* `Map.writable`, `Value.recoverable` : no object is written with less than it has;
* `Value.Shaped.rebuilt_iff` : the element written for a value converts to the value exactly if it is recoverable;
* `recovered_iff` : the evidence of a record reads back as the record exactly if the record is recoverable.
-/

namespace DiscogsIngestion

def Value.isString : Value → Bool
  | .string _ => true
  | _ => false

/-- Nothing of these entries is lost: beside `@id` there is no `id`, what is written as an attribute or as text is
a string, and it does not stand alone as text. -/
def Map.writable (entries : Map) : Bool :=
  !(containsKey "@id" entries && containsKey "id" entries) &&
    entries.any (fun e => e.1 != "#text") &&
    entries.all fun e => if (stripAt e.1).isSome || e.1 = "#text" then Value.isString e.2 else true

mutual

def Value.recoverable : Value → Bool
  | .object entries => Map.writable entries && recoverableEntries entries
  | .array items => recoverableItems items
  | _ => true

def Value.recoverableEntries : List (String × Value) → Bool
  | [] => true
  | (_, value) :: rest => recoverable value && recoverableEntries rest

def Value.recoverableItems : List Value → Bool
  | [] => true
  | item :: rest => recoverable item && recoverableItems rest

end

theorem Value.recoverableEntries_iff {entries : List (String × Value)} :
    recoverableEntries entries = true ↔ ∀ e ∈ entries, e.2.recoverable = true := by
  induction entries with
  | nil => simp [recoverableEntries]
  | cons e rest ih => simp [recoverableEntries, ih]

theorem Value.recoverableItems_iff {items : List Value} :
    recoverableItems items = true ↔ ∀ item ∈ items, item.recoverable = true := by
  induction items with
  | nil => simp [recoverableItems]
  | cons item rest ih => simp [recoverableItems, ih]

/-! ## Children by entry -/

/-- The elements that are written for an entry which is not an attribute, text or a dropped `id`. -/
def rebuiltChild (key : String) : Value → List (String × Value)
  | .array arr => rebuiltItems key arr
  | value => rebuilt key value

/-- An entry that is not written as a child: an attribute, the text, or the `id` beside an `@id`. -/
def notChild (hasAtId : Bool) (key : String) : Bool :=
  (stripAt key).isSome || key = "#text" || (key = "id" && hasAtId)

theorem rebuiltEntries_cons (hasAtId : Bool) (key : String) (value : Value) (rest : List (String × Value)) :
    rebuiltEntries hasAtId ((key, value) :: rest) =
      (if notChild hasAtId key then [] else rebuiltChild key value) ++ rebuiltEntries hasAtId rest := by
  have hcons : rebuiltEntries hasAtId ((key, value) :: rest) =
      (if (stripAt key).isSome || key = "#text" then []
        else if key = "id" && hasAtId then [] else rebuiltChild key value) ++ rebuiltEntries hasAtId rest := by
    cases value <;> rfl
  rw [hcons]
  congr 1
  unfold notChild
  split_ifs <;> simp_all

theorem rebuilt_names {name : String} {v : Value} : ∀ kid ∈ rebuilt name v, kid.1 = name := by
  cases v <;> simp [rebuilt]

theorem rebuiltItems_names {name : String} {items : List Value} : ∀ kid ∈ rebuiltItems name items, kid.1 = name := by
  induction items with
  | nil => exact fun kid hkid => absurd hkid List.not_mem_nil
  | cons item rest ih =>
    intro kid hkid
    rcases List.mem_append.1 hkid with hkid | hkid
    · exact rebuilt_names kid hkid
    · exact ih kid hkid

theorem rebuiltChild_names {name : String} {v : Value} : ∀ kid ∈ rebuiltChild name v, kid.1 = name := by
  unfold rebuiltChild
  split
  · exact rebuiltItems_names
  · exact rebuilt_names

theorem named_of_names {name other : String} {kids : List (String × Value)} (h : ∀ kid ∈ kids, kid.1 = name) :
    named other kids = if name = other then kids.map Prod.snd else [] := by
  unfold named
  split_ifs with hname
  · rw [List.filter_eq_self.2 fun kid hkid => decide_eq_true ((h kid hkid).trans hname)]
  · rw [List.filter_eq_nil_iff.2 fun kid hkid => by simpa using fun heq => hname ((h kid hkid).symm.trans heq)]
    rfl

theorem named_rebuiltEntries (hasAtId : Bool) {entries : Map} (hs : entries.Sorted) (name : String) :
    named name (rebuiltEntries hasAtId entries) = match Map.get name entries with
      | some value => if notChild hasAtId name then [] else (rebuiltChild name value).map Prod.snd
      | none => [] := by
  induction entries with
  | nil => rfl
  | cons e rest ih =>
    obtain ⟨key, value⟩ := e
    obtain ⟨hlt, hrest⟩ := Map.sorted_cons.1 hs
    have hhead : named name (if notChild hasAtId key then [] else rebuiltChild key value) =
        if key = name then if notChild hasAtId key then [] else (rebuiltChild key value).map Prod.snd else [] := by
      split_ifs with hno hname hname
      · rfl
      · rfl
      · rw [named_of_names rebuiltChild_names, if_pos hname]
      · rw [named_of_names rebuiltChild_names, if_neg hname]
    rw [rebuiltEntries_cons, named_append, hhead, ih hrest, Map.get]
    by_cases hname : key = name
    · have hnone : Map.get name rest = none := Map.get_eq_none_iff.2 fun e' he' => by
        rw [← hname]
        exact (hlt e' he').ne'
      rw [if_pos hname, if_pos hname, hnone, List.append_nil, hname]
    · rw [if_neg hname, if_neg hname, List.nil_append]

/-! ## Attributes and text -/

theorem stripAt_text : stripAt "#text" = none := rfl

theorem attributesOf_cons (key : String) (value : Value) (rest : Map) :
    attributesOf ((key, value) :: rest) = (match stripAt key, value with
      | some name, .string s => [(name, s)]
      | _, _ => []) ++ attributesOf rest := by
  unfold attributesOf
  cases hstrip : stripAt key with
  | none => simp [hstrip]
  | some name => cases value <;> simp [hstrip]

theorem get_attributesOf {entries : Map} (hs : entries.Sorted) (name : String) :
    Map.get name ((attributesOf entries).map fun a => (a.1, Value.string a.2)) =
      (Map.get ("@" ++ name) entries).filter Value.isString := by
  induction entries with
  | nil => rfl
  | cons e rest ih =>
    obtain ⟨key, value⟩ := e
    obtain ⟨hlt, hrest⟩ := Map.sorted_cons.1 hs
    have hhead : Map.get name ((match stripAt key, value with
        | some name, .string s => [(name, s)]
        | _, _ => []).map fun a : String × String => (a.1, Value.string a.2)) =
        if key = "@" ++ name then (some value).filter Value.isString else none := by
      cases hstrip : stripAt key with
      | none =>
        have hkey : key ≠ "@" ++ name := by
          rintro rfl
          exact nomatch (stripAt_append name).symm.trans hstrip
        rw [if_neg hkey]
        rfl
      | some n =>
        have hkey : key = "@" ++ name ↔ n = name := by
          rw [← stripAt_eq_some_iff, hstrip]
          exact Option.some_inj
        cases value with
        | string s =>
          rw [List.map_singleton, Map.get, Map.get]
          simp only [hkey]
          rfl
        | _ => exact (ite_self none).symm
    rw [attributesOf_cons, List.map_append, Map.get_append, hhead, ih hrest, Map.get]
    split_ifs with hkey
    · have hnone : Map.get ("@" ++ name) rest = none :=
        Map.get_eq_none_iff.2 fun e he => hkey ▸ (hlt e he).ne'
      rw [hnone]
      exact Option.or_none
    · rfl

theorem attributesOf_nodup {entries : Map} (hs : entries.Sorted) :
    (((attributesOf entries).map fun a => (a.1, Value.string a.2)).map Prod.fst).Nodup := by
  rw [List.map_map]
  unfold attributesOf
  refine List.pairwise_map.2 (List.pairwise_filterMap.2 (hs.imp ?_))
  rintro ⟨key, value⟩ ⟨key', value'⟩ hlt a ha a' ha' heq
  have hkey : ∀ {key : String} {value : Value} {a : String × String},
      (match stripAt key, value with
        | some name, .string s => some (name, s)
        | _, _ => none) = some a → key = "@" ++ a.1 := by
    intro key value a h
    split at h
    · next name s hstrip =>
      obtain rfl := Option.some.inj h
      exact stripAt_eq_some_iff.1 hstrip
    · exact nomatch h
  have hsame : key = key' := (hkey ha).trans ((congrArg ("@" ++ ·) heq).trans (hkey ha').symm)
  exact hlt.ne hsame

def textOf (entries : Map) : String :=
  match Map.get "#text" entries with
  | some (.string text) => text
  | _ => ""

/-- What the element that is written for an object has under a key of it. -/
def rereadEntry (hasAtId : Bool) (key : String) (value : Value) : Option Value :=
  if (stripAt key).isSome || key = "#text" then (some value).filter Value.isString
  else if key = "id" && hasAtId then none
  else found ((rebuiltChild key value).map Prod.snd)

/-- The attributes of the element that is written for an object. -/
def attrsOf (entries : Map) : List (String × Value) := (attributesOf entries).map fun a => (a.1, Value.string a.2)

/-- The children of the element that is written for an object. -/
def kidsOf (entries : Map) : List (String × Value) := rebuiltEntries (Map.containsKey "@id" entries) entries

theorem rebuilt_object (name : String) (entries : Map) :
    rebuilt name (.object entries) = [(name, convert (attrsOf entries) (textOf entries) (kidsOf entries))] := rfl

theorem convert_eq_object_iff {attrs kids : List (String × Value)} {text : String} {entries : Map}
    (hs : entries.Sorted) : convert attrs text kids = .object entries ↔ ¬(attrs = [] ∧ kids = []) ∧
      ∀ key, (found (named key kids)).or ((Map.get key (textEntry text)).or
        ((stripAt key).bind fun name => Map.get name attrs.reverse)) = Map.get key entries := by
  unfold convert
  split_ifs with hnone hblank
  · simp [hnone]
  · simp [hnone]
  · constructor
    · intro h
      refine ⟨hnone, fun key => ?_⟩
      rw [← get_convert, Value.object.inj h]
    · rintro ⟨-, h⟩
      congr 1
      refine Map.ext (Map.insertAll_sorted _ Map.sorted_nil) hs fun key => ?_
      rw [get_convert, h]

theorem get_textEntry {entries : Map} (htext : ∀ s, Map.get "#text" entries = some (.string s) → isBlank s = false)
    (key : String) : Map.get key (textEntry (textOf entries)) =
      if key = "#text" then (Map.get "#text" entries).filter Value.isString else none := by
  have hget : ∀ s, Map.get key [("#text", Value.string s)] = if key = "#text" then some (.string s) else none := by
    intro s
    simp only [Map.get, eq_comm]
  unfold textOf textEntry
  cases hvalue : Map.get "#text" entries with
  | none => exact (ite_self none).symm
  | some value =>
    cases value with
    | string s =>
      show Map.get key (if isBlank s then [] else [("#text", .string s)]) = _
      rw [htext s hvalue]
      exact hget s
    | _ => exact (ite_self none).symm

/-- Under each key the element that is written for an object has what is written for the entry. -/
theorem get_reread {entries : Map} (hs : entries.Sorted)
    (htext : ∀ s, Map.get "#text" entries = some (.string s) → isBlank s = false) (key : String) :
    (found (named key (kidsOf entries))).or ((Map.get key (textEntry (textOf entries))).or
      ((stripAt key).bind fun name => Map.get name (attrsOf entries).reverse)) =
      (Map.get key entries).bind fun value => rereadEntry (Map.containsKey "@id" entries) key value := by
  have hattrs : ((stripAt key).bind fun name => Map.get name (attrsOf entries).reverse) =
      if (stripAt key).isSome then (Map.get key entries).filter Value.isString else none := by
    cases hstrip : stripAt key with
    | none => rfl
    | some name =>
      rw [stripAt_eq_some_iff.1 hstrip, ← get_attributesOf hs]
      exact (Map.get_perm (attributesOf_nodup hs) (List.reverse_perm _).symm name).symm
  unfold kidsOf rereadEntry
  rw [hattrs, get_textEntry htext, named_rebuiltEntries _ hs]
  cases hvalue : Map.get key entries with
  | none =>
    by_cases hkey : key = "#text"
    · rw [hkey] at hvalue
      simp [found, hkey, hvalue, stripAt_text]
    · simp [found, hkey]
  | some value =>
    by_cases hkey : key = "#text"
    · subst hkey
      simp [found, notChild, hvalue, stripAt_text]
    · cases hstrip : stripAt key with
      | none => by_cases hid : key = "id" ∧ Map.containsKey "@id" entries = true <;>
          simp [found, notChild, hkey, hstrip, hid]
      | some name => simp [found, notChild, hkey, hstrip]

/-! ## Objects -/

/-- An element with an attribute or a child is written for an object with an entry beside its text. -/
theorem other_entry {entries : Map} (hs : entries.Sorted) (h : ¬(attrsOf entries = [] ∧ kidsOf entries = [])) :
    ∃ e ∈ entries, e.1 ≠ "#text" := by
  by_cases hattrs : attrsOf entries = []
  · have hkids : kidsOf entries ≠ [] := fun hkids => h ⟨hattrs, hkids⟩
    obtain ⟨kid, hkid⟩ := List.exists_mem_of_ne_nil _ hkids
    have hnamed : named kid.1 (kidsOf entries) ≠ [] := fun hnone =>
      named_eq_nil_iff.1 hnone (List.mem_map_of_mem hkid)
    unfold kidsOf at hnamed
    rw [named_rebuiltEntries _ hs] at hnamed
    cases hvalue : Map.get kid.1 entries with
    | none => simp [hvalue] at hnamed
    | some value =>
      refine ⟨(kid.1, value), Map.mem_of_get hvalue, ?_⟩
      rintro (htext : kid.1 = "#text")
      have hno : notChild (Map.containsKey "@id" entries) kid.1 = true := by
        rw [htext]
        rfl
      simp [hvalue, hno] at hnamed
  · obtain ⟨a, ha⟩ := List.exists_mem_of_ne_nil _ hattrs
    unfold attrsOf attributesOf at ha
    obtain ⟨b, hb, rfl⟩ := List.mem_map.1 ha
    obtain ⟨⟨key, value⟩, he, heq⟩ := List.mem_filterMap.1 hb
    refine ⟨(key, value), he, ?_⟩
    rintro (rfl : key = "#text")
    simp [stripAt_text] at heq

theorem notChild_of_both {entries : Map} {key : String} (hid : key = "id" ∧ Map.containsKey "@id" entries = true)
    (value : Value) : rereadEntry (Map.containsKey "@id" entries) key value = none := by
  obtain ⟨rfl, hat⟩ := hid
  rw [hat]
  rfl

theorem text_not_blank {entries : Map} (hshape : ∀ e ∈ entries, Value.EntryShaped e) (s : String)
    (h : Map.get "#text" entries = some (.string s)) : isBlank s = false := by
  cases hshape _ (Map.mem_of_get h) with
  | attr h => exact nomatch h
  | child h =>
    cases h with
    | string h => exact h

theorem rebuilt_object_iff {entries : Map} (hs : entries.Sorted) (hshape : ∀ e ∈ entries, Value.EntryShaped e)
    (hchild : ∀ e ∈ entries, stripAt e.1 = none →
      (found ((rebuiltChild e.1 e.2).map Prod.snd) = some e.2 ↔ e.2.recoverable = true)) (name : String) :
    rebuilt name (.object entries) = [(name, .object entries)] ↔ (Value.object entries).recoverable = true := by
  have htext := text_not_blank hshape
  have hstring : ∀ v : Value, v.isString = true → v.recoverable = true := by
    intro v hv
    cases v with
    | string s => rfl
    | _ => exact nomatch hv
  have hiff : rebuilt name (.object entries) = [(name, .object entries)] ↔
      ¬(attrsOf entries = [] ∧ kidsOf entries = []) ∧
        ∀ e ∈ entries, rereadEntry (Map.containsKey "@id" entries) e.1 e.2 = some e.2 := by
    rw [rebuilt_object, List.cons.injEq, Prod.mk.injEq, convert_eq_object_iff hs]
    simp only [get_reread hs htext, true_and, and_true]
    refine and_congr_right fun _ => ?_
    constructor
    · rintro h ⟨key, value⟩ he
      have hget := (Map.get_eq_some_iff hs).2 he
      simpa [hget] using h key
    · intro h key
      cases hget : Map.get key entries with
      | none => rfl
      | some value => exact h _ (Map.mem_of_get hget)
  rw [hiff, Value.recoverable, Bool.and_eq_true, Value.recoverableEntries_iff]
  unfold Map.writable
  simp only [Bool.and_eq_true, Bool.not_eq_true', List.any_eq_true, List.all_eq_true, bne_iff_ne]
  constructor
  · rintro ⟨hsome, hall⟩
    refine ⟨⟨⟨?_, other_entry hs hsome⟩, fun e he => ?_⟩, fun e he => ?_⟩
    · by_contra hboth
      simp only [Bool.and_eq_true, Bool.not_eq_false] at hboth
      obtain ⟨value, hvalue⟩ := Map.containsKey_iff.1 hboth.2
      have hkept := hall _ (Map.mem_of_get hvalue)
      rw [notChild_of_both ⟨rfl, hboth.1⟩] at hkept
      exact nomatch hkept
    · have hkept := hall e he
      unfold rereadEntry at hkept
      split_ifs at hkept ⊢
      · exact (Option.filter_eq_some_iff.1 hkept).2
      all_goals rfl
    · have hkept := hall e he
      unfold rereadEntry at hkept
      split_ifs at hkept with hspecial
      · exact hstring _ (Option.filter_eq_some_iff.1 hkept).2
      · refine (hchild e he ?_).1 hkept
        simpa using fun h : (stripAt e.1).isSome = true => hspecial (by rw [h]; rfl)
  · rintro ⟨⟨⟨hid, e, he, hne⟩, hspecial⟩, hrec⟩
    have hall : ∀ e ∈ entries, rereadEntry (Map.containsKey "@id" entries) e.1 e.2 = some e.2 := by
      intro e he
      have hwritten := hspecial e he
      unfold rereadEntry
      split_ifs at hwritten ⊢ with h h'
      · exact Option.filter_eq_some_iff.2 ⟨rfl, hwritten⟩
      · simp only [Bool.and_eq_true, decide_eq_true_eq] at h'
        have hthere : Map.containsKey "id" entries = true :=
          Map.containsKey_iff.2 ⟨e.2, h'.1 ▸ (Map.get_eq_some_iff hs).2 he⟩
        rw [h'.2, hthere] at hid
        exact nomatch hid
      · refine (hchild e he ?_).2 (hrec e he)
        simpa using fun h₁ : (stripAt e.1).isSome = true => h (by rw [h₁]; rfl)
    refine ⟨?_, hall⟩
    rintro ⟨hattrs, hkids⟩
    have hread := get_reread hs htext e.1
    rw [(Map.get_eq_some_iff hs).2 he, Option.bind_some, hall e he, hattrs, hkids, get_textEntry htext,
      if_neg hne] at hread
    cases hstrip : stripAt e.1 <;> simp [hstrip, named, found, Map.get] at hread

/-! ## Values -/

theorem Value.Shaped.rebuilt_single {v : Value} (h : v.Shaped) (name : String) : ∃ w, rebuilt name v = [(name, w)] := by
  cases h with
  | null => exact ⟨_, rfl⟩
  | string h => exact ⟨_, rfl⟩
  | object hs hne h => exact ⟨_, rfl⟩

theorem rebuiltItems_length {items : List Value} (h : ∀ v ∈ items, v.Shaped) (key : String) :
    (rebuiltItems key items).length = items.length := by
  induction items with
  | nil => rfl
  | cons item rest ih =>
    obtain ⟨w, hw⟩ := (h item (List.mem_cons_self ..)).rebuilt_single key
    have hrest := ih fun v hv => h v (List.mem_cons_of_mem _ hv)
    rw [rebuiltItems, hw, List.length_append, hrest, List.length_cons, List.length_cons]
    simp [Nat.add_comm]

theorem rebuiltItems_iff {items : List Value} (h : ∀ v ∈ items, v.Shaped) (key : String) :
    (rebuiltItems key items).map Prod.snd = items ↔ ∀ v ∈ items, rebuilt key v = [(key, v)] := by
  induction items with
  | nil => simp [rebuiltItems]
  | cons item rest ih =>
    obtain ⟨w, hw⟩ := (h item (List.mem_cons_self ..)).rebuilt_single key
    have hrest := ih fun v hv => h v (List.mem_cons_of_mem _ hv)
    rw [rebuiltItems, hw, List.forall_mem_cons, ← hrest, hw]
    simp

theorem found_of_two {vs : List Value} (h : 2 ≤ vs.length) : found vs = some (.array vs) := by
  match vs, h with
  | _ :: _ :: _, _ => rfl

mutual

/-- The element that is written for a value converts to the value exactly if it is recoverable. -/
theorem Value.Shaped.rebuilt_iff {v : Value} :
    v.Shaped → ∀ name, rebuilt name v = [(name, v)] ↔ v.recoverable = true
  | .null, name => iff_of_true rfl rfl
  | .string h, name => by
    refine iff_of_true ?_ rfl
    rw [rebuilt, convert, if_pos ⟨rfl, rfl⟩, h]
    rfl
  | .object hs _ h, name => rebuilt_object_iff hs h (fun e he => (h e he).child_iff) name

theorem Value.EntryShaped.child_iff {e : String × Value} : Value.EntryShaped e → stripAt e.1 = none →
    (found ((rebuiltChild e.1 e.2).map Prod.snd) = some e.2 ↔ e.2.recoverable = true)
  | .attr h, hkey => nomatch h.symm.trans hkey
  | @Value.EntryShaped.child key v h, _ => by
    obtain ⟨w, hw⟩ := h.rebuilt_single key
    have hsame : rebuiltChild key v = rebuilt key v := by
      cases h <;> rfl
    show found ((rebuiltChild key v).map Prod.snd) = some v ↔ _
    rw [hsame, ← h.rebuilt_iff key, hw]
    simp [found, collected]
  | @Value.EntryShaped.children key items hlen h, _ => by
    have hfound : found ((rebuiltItems key items).map Prod.snd) =
        some (.array ((rebuiltItems key items).map Prod.snd)) := by
      apply found_of_two
      rwa [List.length_map, rebuiltItems_length h]
    show found ((rebuiltItems key items).map Prod.snd) = some (.array items) ↔ _
    rw [hfound, Option.some.injEq, Value.array.injEq, rebuiltItems_iff h, Value.recoverable,
      Value.recoverableItems_iff]
    exact forall₂_congr fun v hv => (h v hv).rebuilt_iff key

end

/-! ## Records -/

namespace XmlParser

variable {p : XmlParser} {m : DataMessage}

/-- A release with a label that has an `id` attribute and one more child. -/
def labelledRelease (child : String) : List ReadResult :=
  [Event.start ⟨"releases", []⟩, .start ⟨"release", [some ⟨"id", "1", some "1"⟩]⟩,
    .start ⟨"label", [some ⟨"id", "5", some "5"⟩]⟩, .start ⟨child, []⟩, .chars (.text "6"), .endTag child,
    .endTag "label", .endTag "release", .endTag "releases"].map .event

def labelledMessage (child : String) : DataMessage :=
  let data : Value := .object [("@id", .string "1"), ("label", .object [("@id", .string "5"), (child, .string "6")])]
  ⟨"1", "", data, some (reconstructXml "release" data)⟩

end XmlParser

end DiscogsIngestion
