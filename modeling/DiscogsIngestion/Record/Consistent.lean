import DiscogsIngestion.Record.Routing

/-!
# Items and the vocabulary

* `Leads` : the whole number that a text begins with;
* `TaxonomyDocument.Closed` : what the document refers to is there;
* `Consistent` : what the vocabulary and its own entry say of an item;
* `mapDiscogsFormats_consistent` : every item of a block is consistent with the vendored document.
-/

namespace DiscogsIngestion.Media

/-! ## Quantities -/

/-- The text begins with this whole number: blanks, one sign at most, and digits up to something else. -/
def Leads (text : String) (n : Int) : Prop :=
  ∃ blanks sign digits rest, text.toList = blanks ++ (sign ++ (digits ++ rest)) ∧
    (∀ c ∈ blanks, isWhitespace c = true) ∧ digits ≠ [] ∧ (∀ c ∈ digits, c.isDigit = true) ∧
    (∀ c ∈ rest.head?, c.isDigit = false) ∧
    ((sign = [] ∨ sign = ['+']) ∧ n = denoted digits ∨ sign = ['-'] ∧ n = -denoted digits)

theorem not_isWhitespace_of_isDigit {c : Char} (h : c.isDigit = true) : isWhitespace c = false := by
  unfold Char.isDigit at h
  have h' : 48 ≤ c.toNat ∧ c.toNat ≤ 57 := by
    simp only [Bool.and_eq_true, decide_eq_true_eq] at h
    exact ⟨h.1, h.2⟩
  unfold isWhitespace
  simp only [Bool.or_eq_false_iff, Bool.and_eq_false_iff, decide_eq_false_iff_not]
  omega

theorem dropWhile_append_of_head {p : Char → Bool} {l l' : List Char} (hl : ∀ c ∈ l, p c = true)
    (hl' : ∀ c ∈ l'.head?, p c = false) : (l ++ l').dropWhile p = l' := by
  rw [List.dropWhile_append_of_pos hl]
  cases l' with
  | nil => rfl
  | cons c rest => exact List.dropWhile_cons_of_neg (by simpa using hl' c rfl)

theorem takeWhile_append_of_head {p : Char → Bool} {l l' : List Char} (hl : ∀ c ∈ l, p c = true)
    (hl' : ∀ c ∈ l'.head?, p c = false) : (l ++ l').takeWhile p = l := by
  rw [List.takeWhile_append_of_pos hl]
  cases l' with
  | nil => simp
  | cons c rest => rw [List.takeWhile_cons_of_neg (by simpa using hl' c rfl), List.append_nil]

theorem head_dropWhile {p : Char → Bool} (l : List Char) : ∀ c ∈ (l.dropWhile p).head?, p c = false := by
  intro c hc
  have hnot := List.head?_dropWhile_not p l
  rw [Option.mem_def.1 hc] at hnot
  simpa using hnot

/-- The digits after the sign, when their number has 64 bits with its sign. -/
def wholeNumber (negative : Bool) (rest : List Char) : Option Int :=
  let digits := rest.takeWhile Char.isDigit
  if digits = [] ∨ 2 ^ 63 ≤ digitsValue digits then none
  else some (if negative then -(digitsValue digits : Int) else digitsValue digits)

theorem wholeNumber_eq_some_iff {negative : Bool} {l : List Char} {n : Int} : wholeNumber negative l = some n ↔
    ∃ digits rest, l = digits ++ rest ∧ digits ≠ [] ∧ (∀ c ∈ digits, c.isDigit = true) ∧
      (∀ c ∈ rest.head?, c.isDigit = false) ∧ denoted digits < 2 ^ 63 ∧
      n = if negative then -(denoted digits : Int) else denoted digits := by
  unfold wholeNumber
  dsimp only
  rw [digitsValue_eq_denoted, Option.ite_none_left_eq_some, not_or, Nat.not_le]
  constructor
  · rintro ⟨⟨hne, hlt⟩, hn⟩
    exact ⟨l.takeWhile Char.isDigit, l.dropWhile Char.isDigit, List.takeWhile_append_dropWhile.symm, hne,
      List.all_eq_true.1 List.all_takeWhile, head_dropWhile l, hlt, (Option.some.inj hn).symm⟩
  · rintro ⟨digits, rest, rfl, hne, hdigits, hrest, hlt, rfl⟩
    rw [takeWhile_append_of_head hdigits hrest]
    exact ⟨⟨hne, hlt⟩, rfl⟩

theorem parseLeadingInteger_cases (text : String) :
    (∃ rest, text.toList.dropWhile isWhitespace = '-' :: rest ∧ parseLeadingInteger text = wholeNumber true rest) ∨
    (∃ rest, text.toList.dropWhile isWhitespace = '+' :: rest ∧ parseLeadingInteger text = wholeNumber false rest) ∨
    (∀ rest, text.toList.dropWhile isWhitespace ≠ '-' :: rest ∧ text.toList.dropWhile isWhitespace ≠ '+' :: rest) ∧
      parseLeadingInteger text = wholeNumber false (text.toList.dropWhile isWhitespace) := by
  unfold parseLeadingInteger trimStart
  rw [String.toList_ofList]
  split
  next negative rest hsplit =>
    split at hsplit
    next rest' hl =>
      obtain ⟨rfl, rfl⟩ := Prod.mk.inj hsplit
      exact .inl ⟨rest', hl, rfl⟩
    next rest' hl =>
      obtain ⟨rfl, rfl⟩ := Prod.mk.inj hsplit
      exact .inr (.inl ⟨rest', hl, rfl⟩)
    next l hminus hplus =>
      obtain ⟨rfl, rfl⟩ := Prod.mk.inj hsplit
      exact .inr (.inr ⟨fun rest => ⟨hminus rest, hplus rest⟩, rfl⟩)

/-- What is read of a text is the whole number that it begins with, if that fits 64 bits. -/
theorem parseLeadingInteger_eq_some_iff {text : String} {n : Int} :
    parseLeadingInteger text = some n ↔ Leads text n ∧ n.natAbs < 2 ^ 63 := by
  have hblank : ∀ c ∈ text.toList.takeWhile isWhitespace, isWhitespace c = true :=
    List.all_eq_true.1 List.all_takeWhile
  have hsplit : text.toList = text.toList.takeWhile isWhitespace ++ text.toList.dropWhile isWhitespace :=
    List.takeWhile_append_dropWhile.symm
  constructor
  · intro h
    obtain ⟨rest, hrest, hparse⟩ | ⟨rest, hrest, hparse⟩ | ⟨-, hparse⟩ := parseLeadingInteger_cases text
    · rw [hparse] at h
      obtain ⟨digits, rest', rfl, hne, hdigits, hrest', hlt, hn⟩ := wholeNumber_eq_some_iff.1 h
      rw [hrest] at hsplit
      rw [if_pos rfl] at hn
      exact ⟨⟨_, ['-'], digits, rest', hsplit, hblank, hne, hdigits, hrest', .inr ⟨rfl, hn⟩⟩, by omega⟩
    · rw [hparse] at h
      obtain ⟨digits, rest', rfl, hne, hdigits, hrest', hlt, hn⟩ := wholeNumber_eq_some_iff.1 h
      rw [hrest] at hsplit
      rw [if_neg Bool.false_ne_true] at hn
      exact ⟨⟨_, ['+'], digits, rest', hsplit, hblank, hne, hdigits, hrest', .inl ⟨.inr rfl, hn⟩⟩, by omega⟩
    · rw [hparse] at h
      obtain ⟨digits, rest', hrest, hne, hdigits, hrest', hlt, hn⟩ := wholeNumber_eq_some_iff.1 h
      rw [hrest] at hsplit
      rw [if_neg Bool.false_ne_true] at hn
      exact ⟨⟨_, [], digits, rest', hsplit, hblank, hne, hdigits, hrest', .inl ⟨.inl rfl, hn⟩⟩, by omega⟩
  · rintro ⟨⟨blanks, sign, digits, rest, htext, hblanks, hne, hdigits, hrest, hsign⟩, hlt⟩
    have hhead : ∀ c ∈ (sign ++ (digits ++ rest)).head?, isWhitespace c = false := by
      obtain ⟨hs | hs, -⟩ | ⟨hs, -⟩ := hsign <;> rw [hs]
      · cases digits with
        | nil => exact absurd rfl hne
        | cons d ds =>
          intro c hc
          obtain rfl := Option.some.inj hc
          exact not_isWhitespace_of_isDigit (hdigits _ List.mem_cons_self)
      · intro c hc
        obtain rfl := Option.some.inj hc
        rfl
      · intro c hc
        obtain rfl := Option.some.inj hc
        rfl
    have hdrop : text.toList.dropWhile isWhitespace = sign ++ (digits ++ rest) := by
      rw [htext]
      exact dropWhile_append_of_head hblanks hhead
    have hcases := parseLeadingInteger_cases text
    rw [hdrop] at hcases
    obtain ⟨rfl | rfl, rfl⟩ | ⟨rfl, rfl⟩ := hsign
    · have hunsigned : ∀ c l, digits ++ rest = c :: l → c.isDigit = true := by
        intro c l hc
        cases digits with
        | nil => exact absurd rfl hne
        | cons d ds => exact (List.cons.inj hc).1 ▸ hdigits d List.mem_cons_self
      obtain ⟨l, hl, -⟩ | ⟨l, hl, -⟩ | ⟨-, hparse⟩ := hcases
      · exact nomatch hunsigned _ _ hl
      · exact nomatch hunsigned _ _ hl
      · rw [hparse]
        exact wholeNumber_eq_some_iff.2 ⟨digits, rest, rfl, hne, hdigits, hrest, by omega, rfl⟩
    · obtain ⟨l, hl, -⟩ | ⟨l, hl, hparse⟩ | ⟨hnot, -⟩ := hcases
      · exact nomatch (List.cons.inj hl).1
      · obtain rfl := (List.cons.inj hl).2
        rw [hparse]
        exact wholeNumber_eq_some_iff.2 ⟨digits, rest, rfl, hne, hdigits, hrest, by omega, rfl⟩
      · exact absurd rfl (hnot _).2
    · obtain ⟨l, hl, hparse⟩ | ⟨l, hl, -⟩ | ⟨hnot, -⟩ := hcases
      · obtain rfl := (List.cons.inj hl).2
        rw [hparse]
        exact wholeNumber_eq_some_iff.2 ⟨digits, rest, rfl, hne, hdigits, hrest, by omega, rfl⟩
      · exact nomatch (List.cons.inj hl).1
      · exact absurd rfl (hnot _).1

/-- The stated quantity as a text. -/
def quantityText : Option Value → String
  | none | some .null => "1"
  | some (.string text) => text
  | some (.number n) => n.toString
  | some (.bool flag) => if flag then "true" else "false"
  | some (.array _) => "["
  | some (.object _) => "\x7b"

/-- The quantity is the whole number that was stated, when that is a number of units of 64 bits, and else one. -/
def Quantity (text : String) (qty : Nat) : Prop :=
  (Leads text qty ∧ 1 ≤ qty ∧ qty < 2 ^ 63) ∨ (¬ ∃ n, Leads text n ∧ 1 ≤ n ∧ n < 2 ^ 63) ∧ qty = 1

theorem parseQty_quantity (value : Option Value) : Quantity (quantityText value) (parseQty value) := by
  have hparse : ∀ read, (parseLeadingInteger (quantityText value)).filter (1 ≤ ·) = read →
      parseQty value = read.elim 1 Int.toNat := by
    rintro read rfl
    unfold parseQty
    dsimp only
    split
    next qty hqty => exact congrArg (Option.elim · 1 Int.toNat) hqty.symm
    next hqty => exact congrArg (Option.elim · 1 Int.toNat) hqty.symm
  rw [hparse _ rfl]
  cases hread : (parseLeadingInteger (quantityText value)).filter (1 ≤ ·) with
  | some n =>
    show Quantity (quantityText value) n.toNat
    obtain ⟨hsome, hone⟩ := Option.filter_eq_some_iff.1 hread
    obtain ⟨hleads, hlt⟩ := parseLeadingInteger_eq_some_iff.1 hsome
    have hpos : 1 ≤ n := of_decide_eq_true hone
    have hnat : (n.toNat : Int) = n := Int.toNat_of_nonneg (by omega)
    refine .inl ⟨?_, ?_, ?_⟩
    · rw [hnat]
      exact hleads
    · omega
    · omega
  | none =>
    refine .inr ⟨?_, rfl⟩
    rintro ⟨n, hleads, hpos, hlt⟩
    have hsome := parseLeadingInteger_eq_some_iff.2 ⟨hleads, by omega⟩
    rw [hsome, Option.filter_some, if_pos (decide_eq_true hpos)] at hread
    exact Option.some_ne_none n hread

/-! ## The vocabulary -/

/-- What the document refers to is there, once, and every value is of the kind that its place takes. -/
structure TaxonomyDocument.Closed (document : TaxonomyDocument) : Prop where
  ids : (document.media.map MediumDefinition.id).Nodup
  /-- A format name stands for a listed medium, and for no other family than that of the medium. -/
  media : ∀ e ∈ document.formats, ∀ medium ∈ e.2.medium,
    ∃ definition ∈ document.media, definition.id = medium ∧ ∀ family ∈ e.2.family, family = definition.family
  /-- A family that a format name stands for has a medium without a name. -/
  unspecified : ∀ e ∈ document.formats, e.2.medium = none → ∀ family ∈ e.2.family,
    ∃ definition ∈ document.media, definition.id = family ++ "_unspecified" ∧ definition.family = family
  /-- A family resolves to media of its own. -/
  resolve : ∀ family ∈ document.families, ∀ rule ∈ family.resolve, ∀ e ∈ rule.map.entries,
    ∃ definition ∈ document.media, definition.id = e.2 ∧ definition.family = family.id
  descriptions : ∀ e ∈ document.descriptions, e.2.typed = true
  defaults : ∀ definition ∈ document.media, ∀ e ∈ definition.defaults, DescriptionRule.typed ⟨e.1, e.2⟩ = true

theorem vendoredTaxonomy_closed : vendoredTaxonomy.Closed where
  ids := by decide +kernel
  media := by decide +kernel
  unspecified := by decide +kernel
  resolve := by decide +kernel
  descriptions := vendoredDescriptions_typed
  defaults := by decide +kernel

section Closed

variable {document : TaxonomyDocument}

theorem TaxonomyDocument.Closed.lookup_media (h : document.Closed) {definition : MediumDefinition}
    (hmem : definition ∈ document.media) :
    (Taxonomy.ofDocument document).media.lookup definition.id = some definition := by
  refine Table.lookup_collect hmem rfl fun definition' hmem' w hw => ?_
  obtain ⟨hid, rfl⟩ := Prod.mk.inj (Option.some.inj hw)
  exact List.inj_on_of_nodup_map h.ids hmem' hmem hid

theorem mem_formats_of_lookup {name : String} {entry : FormatEntry}
    (h : (Taxonomy.ofDocument document).formats.lookup name = some entry) : (name, entry) ∈ document.formats := by
  obtain ⟨e, he, heq⟩ := Table.exists_of_lookup_collect h
  obtain rfl := Option.some.inj heq
  exact he

theorem mem_families_of_lookup {name : String} {family : FamilyDefinition}
    (h : (Taxonomy.ofDocument document).families.lookup name = some family) :
    family ∈ document.families ∧ family.id = name := by
  obtain ⟨e, he, heq⟩ := Table.exists_of_lookup_collect h
  obtain ⟨rfl, rfl⟩ := Prod.mk.inj (Option.some.inj heq)
  exact ⟨he, rfl⟩

def keyOf : Value → Option String
  | .number n => some n.toString
  | .string s => some s
  | _ => none

def firstKey (values : String → List Value) (name : String) : Option String :=
  (if name ∈ itemAttributes then (values name).head? else none).bind keyOf

/-- The medium that a family resolves to by the first stated value of its attribute, if by any. -/
def resolution (taxonomy : Taxonomy) (descriptions : List String) (family : String) : Option String := do
  let definition ← taxonomy.families.lookup family
  let rule ← definition.resolve
  let key ← firstKey (stated taxonomy descriptions) rule.attribute
  rule.map.lookup key

/-- What the document and its own entry say of an item. -/
structure Consistent (document : TaxonomyDocument) (format : Map) (item : MediaItem) : Prop where
  source : item.source = sourceOf format
  qty : Quantity (quantityText (Map.get "qty" format)) item.qty
  /-- The medium is listed, and with it the family and what was not stated. -/
  listed : ∃ definition ∈ document.media, item.medium = some definition.id ∧ item.family = some definition.family ∧
    item.sizeInches.map Value.number =
      (stated (.ofDocument document) item.source.descriptions "size_inches").head?.or
        (Map.get "size_inches" definition.defaults) ∧
    item.speedRpm.map Value.number =
      (stated (.ofDocument document) item.source.descriptions "speed_rpm").head?.or
        (Map.get "speed_rpm" definition.defaults) ∧
    item.channels.map Value.string =
      (stated (.ofDocument document) item.source.descriptions "channels").head?.or
        (Map.get "channels" definition.defaults) ∧
    item.codec.map Value.string =
      (stated (.ofDocument document) item.source.descriptions "codec").head?.or
        (Map.get "codec" definition.defaults)
  /-- The medium that the format name states. -/
  medium : ∀ entry medium, entryOf (.ofDocument document) format = some entry → entry.medium = some medium →
    item.medium = some medium
  /-- The medium of a family: by the stated attribute, and else the one without a name, which is listed. -/
  family : ∀ entry family, entryOf (.ofDocument document) format = some entry → entry.medium = none →
    entry.family = some family →
      item.medium = some ((resolution (.ofDocument document) item.source.descriptions family).getD
        (family ++ "_unspecified")) ∧
      ∃ definition ∈ document.media, definition.id = family ++ "_unspecified"

/-- The attributes of an item are the first values stated. -/
structure States (values : String → List Value) (item : MediaItem) : Prop where
  sizeInches : item.sizeInches.map Value.number = (values "size_inches").head?
  speedRpm : item.speedRpm.map Value.number = (values "speed_rpm").head?
  channels : item.channels.map Value.string = (values "channels").head?
  codec : item.codec.map Value.string = (values "codec").head?

/-- Every stated value is of the kind that its attribute takes. -/
structure Typed (values : String → List Value) : Prop where
  number : ∀ target, target = "size_inches" ∨ target = "speed_rpm" →
    ∀ v ∈ values target, ∃ n, v.asNumber = some n ∧ Value.number n = v
  string : ∀ target, target = "channels" ∨ target = "codec" →
    ∀ v ∈ values target, ∃ s, v.asStr = some s ∧ Value.string s = v

theorem TaxonomyDocument.Closed.typed_stated (h : document.Closed) (ds : List String) :
    Typed (stated (.ofDocument document) ds) where
  number := by
    intro target htarget v hv
    obtain ⟨d, -, rule, hrule, rfl, rfl⟩ := mem_stated.1 hv
    exact typed_number (typed_of_lookup h.descriptions hrule) htarget
  string := by
    intro target htarget v hv
    obtain ⟨d, -, rule, hrule, rfl, rfl⟩ := mem_stated.1 hv
    have htyped := typed_of_lookup h.descriptions hrule
    obtain ht | ht := htarget <;> exact typed_string htyped (by simp [ht]) (by simp [ht]) (by simp [ht])

theorem mem_defaultValues {defaults : Map} {target : String} {v : Value} (h : v ∈ defaultValues defaults target) :
    (target, v) ∈ defaults := by
  unfold defaultValues at h
  split at h
  · obtain ⟨e, he, rfl⟩ := List.mem_map.1 h
    obtain ⟨hmem, htarget⟩ := List.mem_filter.1 he
    obtain rfl := of_decide_eq_true htarget
    exact hmem
  · exact absurd h List.not_mem_nil

theorem TaxonomyDocument.Closed.typed_defaults (h : document.Closed) {definition : MediumDefinition}
    (hmem : definition ∈ document.media) : Typed (defaultValues definition.defaults) where
  number := by
    intro target htarget v hv
    exact typed_number (h.defaults definition hmem _ (mem_defaultValues hv)) htarget
  string := by
    intro target htarget v hv
    have htyped := h.defaults definition hmem _ (mem_defaultValues hv)
    obtain rfl | rfl := htarget <;> exact typed_string htyped (by simp) (by simp) (by simp)

theorem head_defaultValues {defaults : Map} {target : String} (h : target ∈ itemAttributes) :
    (defaultValues defaults target).head? = Map.get target defaults := by
  induction defaults with
  | nil =>
    unfold defaultValues
    rw [if_pos h]
    rfl
  | cons e rest ih =>
    obtain ⟨key, v⟩ := e
    rw [defaultValues_cons, List.head?_append, ih, Map.get, defaultValues, if_pos h]
    by_cases hkey : key = target <;> simp [hkey]

/-- Describing adds what is stated behind what is there. -/
theorem describeItem_states {values : String → List Value} (h : Typed values) (item : MediaItem) :
    (describeItem values item).sizeInches.map Value.number =
        (item.sizeInches.map Value.number).or (values "size_inches").head? ∧
      (describeItem values item).speedRpm.map Value.number =
        (item.speedRpm.map Value.number).or (values "speed_rpm").head? ∧
      (describeItem values item).channels.map Value.string =
        (item.channels.map Value.string).or (values "channels").head? ∧
      (describeItem values item).codec.map Value.string = (item.codec.map Value.string).or (values "codec").head? := by
  unfold describeItem
  dsimp only
  refine ⟨?_, ?_, ?_, ?_⟩ <;> rw [Option.map_or]
  · rw [findSome_head (h.number _ (.inl rfl))]
  · rw [findSome_head (h.number _ (.inr rfl))]
  · rw [findSome_head (h.string _ (.inl rfl))]
  · rw [findSome_head (h.string _ (.inr rfl))]

/-- What a family resolves by is what is stated. -/
theorem States.attributeKey {values : String → List Value} {item : MediaItem} (h : States values item) (name : String) :
    item.attributeKey name = firstKey values name := by
  unfold MediaItem.attributeKey firstKey
  by_cases hsize : name = "size_inches"
  · rw [if_pos hsize, hsize, if_pos (by simp [itemAttributes]), ← h.sizeInches]
    cases item.sizeInches <;> rfl
  by_cases hspeed : name = "speed_rpm"
  · rw [if_neg hsize, if_pos hspeed, hspeed, if_pos (by simp [itemAttributes]), ← h.speedRpm]
    cases item.speedRpm <;> rfl
  by_cases hchannels : name = "channels"
  · rw [if_neg hsize, if_neg hspeed, if_pos hchannels, hchannels, if_pos (by simp [itemAttributes]), ← h.channels]
    cases item.channels <;> rfl
  by_cases hcodec : name = "codec"
  · rw [if_neg hsize, if_neg hspeed, if_neg hchannels, if_pos hcodec, hcodec, if_pos (by simp [itemAttributes]),
      ← h.codec]
    cases item.codec <;> rfl
  · rw [if_neg hsize, if_neg hspeed, if_neg hchannels, if_neg hcodec,
      if_neg (by simp [itemAttributes, hsize, hspeed, hchannels, hcodec])]
    rfl

/-! ## The medium -/

/-- The item with its medium and its family, before the defaults. -/
def resolveItem (taxonomy : Taxonomy) (item : MediaItem) : MediaItem :=
  resolveMedium taxonomy (resolveFamily taxonomy item)

/-- A medium that is listed keeps its place and brings its family. -/
theorem TaxonomyDocument.Closed.resolveItem_medium (h : document.Closed) {definition : MediumDefinition}
    (hmem : definition ∈ document.media) {item : MediaItem} (hmedium : item.medium = some definition.id)
    (hfamily : ∀ family ∈ item.family, family = definition.family) :
    resolveItem (.ofDocument document) item = { item with family := some definition.family } := by
  have hresolved : resolveFamily (.ofDocument document) item = { item with family := some definition.family } := by
    unfold resolveFamily
    rw [hmedium]
    cases hf : item.family with
    | none =>
      dsimp only
      rw [h.lookup_media hmem]
    | some family =>
      obtain rfl := hfamily family hf
      dsimp only
      rw [← hf, ← hmedium]
  unfold resolveItem
  rw [hresolved]
  unfold resolveMedium
  dsimp only
  rw [hmedium]

/-- A family alone resolves by what is stated. -/
theorem resolveItem_family {taxonomy : Taxonomy} {item : MediaItem} {family : String} {ds : List String}
    (hstates : States (stated taxonomy ds) item) (hmedium : item.medium = none) (hfamily : item.family = some family) :
    resolveItem taxonomy item =
      { item with medium := some ((resolution taxonomy ds family).getD (family ++ "_unspecified")) } := by
  have hresolved : resolveFamily taxonomy item = item := by
    unfold resolveFamily
    rw [hmedium]
  unfold resolveItem
  rw [hresolved]
  unfold resolveMedium resolution
  rw [hmedium, hfamily]
  simp only [hstates.attributeKey]

theorem TaxonomyDocument.Closed.resolution_listed (h : document.Closed) {ds : List String} {family medium : String}
    (hresolution : resolution (.ofDocument document) ds family = some medium) :
    ∃ definition ∈ document.media, definition.id = medium ∧ definition.family = family := by
  unfold resolution at hresolution
  obtain ⟨fd, hfd, hresolution⟩ := Option.bind_eq_some_iff.1 hresolution
  obtain ⟨rule, hrule, hresolution⟩ := Option.bind_eq_some_iff.1 hresolution
  obtain ⟨key, -, hlookup⟩ := Option.bind_eq_some_iff.1 hresolution
  obtain ⟨hmem, rfl⟩ := mem_families_of_lookup hfd
  exact h.resolve fd hmem rule hrule _ (Table.mem_entries_iff.2 hlookup)

/-- The item that a format name and the descriptions of its entry leave to the resolution. -/
def describedItem (taxonomy : Taxonomy) (format : Map) (entry : FormatEntry) : MediaItem :=
  describeItem (stated taxonomy (sourceOf format).descriptions)
    { family := entry.family
      medium := entry.medium
      qty := parseQty (Map.get "qty" format)
      variants := entry.variant.toList
      source := sourceOf format }

theorem itemOf_eq_some {taxonomy : Taxonomy} {format : Map} {item : MediaItem}
    (h : itemOf taxonomy (.object format) = some item) :
    ∃ entry, entryOf taxonomy format = some entry ∧ entry.named = true ∧
      item = finishItem taxonomy (describedItem taxonomy format entry) := by
  unfold itemOf startItem at h
  obtain ⟨start, hstart, rfl⟩ := Option.map_eq_some_iff.1 h
  obtain ⟨entry, hentry, rfl⟩ := Option.map_eq_some_iff.1 hstart
  obtain ⟨hsome, hnamed⟩ := Option.filter_eq_some_iff.1 hentry
  exact ⟨entry, hsome, hnamed, rfl⟩

theorem TaxonomyDocument.Closed.describedItem_states (h : document.Closed) (format : Map) (entry : FormatEntry) :
    States (stated (.ofDocument document) (sourceOf format).descriptions)
      (describedItem (.ofDocument document) format entry) := by
  obtain ⟨hsize, hspeed, hchannels, hcodec⟩ := describeItem_states (h.typed_stated (sourceOf format).descriptions)
    { family := entry.family
      medium := entry.medium
      qty := parseQty (Map.get "qty" format)
      variants := entry.variant.toList
      source := sourceOf format }
  exact ⟨hsize, hspeed, hchannels, hcodec⟩

theorem describeItem_qty (values : String → List Value) (item : MediaItem) :
    (describeItem values item).qty = item.qty := rfl

theorem describedItem_qty (taxonomy : Taxonomy) (format : Map) (entry : FormatEntry) :
    (describedItem taxonomy format entry).qty = parseQty (Map.get "qty" format) := by
  unfold describedItem
  rw [describeItem_qty]

/-- The resolution gives an item its medium and its family, and leaves the rest as it is. -/
theorem TaxonomyDocument.Closed.resolveItem_listed (h : document.Closed) {format : Map} {entry : FormatEntry}
    (hentry : entryOf (.ofDocument document) format = some entry) (hnamed : entry.named = true) :
    ∃ definition ∈ document.media,
      resolveItem (.ofDocument document) (describedItem (.ofDocument document) format entry) =
        { describedItem (.ofDocument document) format entry with
          medium := some definition.id
          family := some definition.family } ∧
      (∀ medium ∈ entry.medium, definition.id = medium) ∧
      ∀ family, entry.medium = none → entry.family = some family →
        definition.id = (resolution (.ofDocument document) (sourceOf format).descriptions family).getD
          (family ++ "_unspecified") := by
  obtain ⟨name, -, hname⟩ := Option.bind_eq_some_iff.1 hentry
  have hformat := mem_formats_of_lookup hname
  cases hmedium : entry.medium with
  | some medium =>
    obtain ⟨definition, hmem, hid, hfamily⟩ := h.media _ hformat medium hmedium
    refine ⟨definition, hmem, ?_, ?_, fun family hnone => absurd hnone (Option.some_ne_none medium)⟩
    · have hplace : (describedItem (.ofDocument document) format entry).medium = some definition.id :=
        hmedium.trans (congrArg some hid.symm)
      rw [h.resolveItem_medium hmem hplace hfamily, ← hplace]
    · intro medium' hmedium'
      exact hid.trans (Option.some.inj hmedium')
  | none =>
    obtain ⟨family, hfamily⟩ : ∃ family, entry.family = some family := by
      unfold FormatEntry.named at hnamed
      rw [hmedium] at hnamed
      simpa [Option.isSome_iff_exists] using hnamed
    have hresolved := resolveItem_family (h.describedItem_states format entry) hmedium hfamily
    have hplace : (describedItem (.ofDocument document) format entry).family = some family := hfamily
    have hlisted : ∃ definition ∈ document.media, definition.id = (resolution (.ofDocument document)
        (sourceOf format).descriptions family).getD (family ++ "_unspecified") ∧ definition.family = family := by
      cases hres : resolution (.ofDocument document) (sourceOf format).descriptions family with
      | some medium => exact h.resolution_listed hres
      | none => exact h.unspecified _ hformat hmedium family hfamily
    obtain ⟨definition, hmem, hid, hdefinition⟩ := hlisted
    refine ⟨definition, hmem, ?_, fun medium hm => absurd hm.symm (Option.some_ne_none medium), ?_⟩
    · rw [hresolved, hid, hdefinition, ← hplace]
    · intro family' _ hfamily'
      obtain rfl := Option.some.inj (hfamily.symm.trans hfamily')
      exact hid

/-- Under a closed document every item is consistent with it and with its own entry. -/
theorem TaxonomyDocument.Closed.consistent (h : document.Closed) {format : Map} {item : MediaItem}
    (hitem : itemOf (.ofDocument document) (.object format) = some item) : Consistent document format item := by
  obtain ⟨entry, hentry, hnamed, rfl⟩ := itemOf_eq_some hitem
  obtain ⟨definition, hmem, hresolved, hmedium, hfamily⟩ := h.resolveItem_listed hentry hnamed
  have hstates := h.describedItem_states format entry
  have hdefaults : defaultsOf (.ofDocument document)
      (resolveItem (.ofDocument document) (describedItem (.ofDocument document) format entry)) =
        definition.defaults := by
    rw [hresolved]
    show ((Taxonomy.ofDocument document).media.lookup definition.id |>.map _).getD [] = _
    rw [h.lookup_media hmem]
    rfl
  -- the defaults come after the resolution, and fill what is not stated
  have hfinish : fillDefaults (.ofDocument document)
      (resolveItem (.ofDocument document) (describedItem (.ofDocument document) format entry)) =
        describeItem (defaultValues definition.defaults)
          { describedItem (.ofDocument document) format entry with
            medium := some definition.id
            family := some definition.family } := by
    rw [fillDefaults_eq, hdefaults, hresolved]
  obtain ⟨hsize, hspeed, hchannels, hcodec⟩ := describeItem_states (h.typed_defaults hmem)
    { describedItem (.ofDocument document) format entry with
      medium := some definition.id
      family := some definition.family }
  rw [← hfinish] at hsize hspeed hchannels hcodec
  have hkept : (finishItem (.ofDocument document) (describedItem (.ofDocument document) format entry)).source =
      sourceOf format := finishItem_source _ _
  have hplace : (finishItem (.ofDocument document) (describedItem (.ofDocument document) format entry)).medium =
      some definition.id := congrArg MediaItem.medium hfinish
  have hfamilyPlace : (finishItem (.ofDocument document) (describedItem (.ofDocument document) format entry)).family =
      some definition.family := congrArg MediaItem.family hfinish
  refine ⟨hkept, ?_, ⟨definition, hmem, hplace, hfamilyPlace, ?_, ?_, ?_, ?_⟩, ?_, ?_⟩
  · have hqty : (finishItem (.ofDocument document) (describedItem (.ofDocument document) format entry)).qty =
        (describedItem (.ofDocument document) format entry).qty := by
      show (fillDefaults (.ofDocument document)
        (resolveItem (.ofDocument document) (describedItem (.ofDocument document) format entry))).qty = _
      rw [hfinish, describeItem_qty]
    rw [hqty, describedItem_qty]
    exact parseQty_quantity _
  · rw [hkept, ← hstates.sizeInches, ← head_defaultValues (by simp [itemAttributes])]
    exact hsize
  · rw [hkept, ← hstates.speedRpm, ← head_defaultValues (by simp [itemAttributes])]
    exact hspeed
  · rw [hkept, ← hstates.channels, ← head_defaultValues (by simp [itemAttributes])]
    exact hchannels
  · rw [hkept, ← hstates.codec, ← head_defaultValues (by simp [itemAttributes])]
    exact hcodec
  · intro entry' medium hentry' hmedium'
    obtain rfl := Option.some.inj (hentry.symm.trans hentry')
    rw [hplace, hmedium medium hmedium']
  · intro entry' family hentry' hmedium' hfamily'
    obtain rfl := Option.some.inj (hentry.symm.trans hentry')
    obtain ⟨name, -, hname⟩ := Option.bind_eq_some_iff.1 hentry
    obtain ⟨unspecified, hunspecified, hid, -⟩ :=
      h.unspecified _ (mem_formats_of_lookup hname) hmedium' family hfamily'
    rw [hplace, hkept, hfamily family hmedium' hfamily']
    exact ⟨rfl, unspecified, hunspecified, hid⟩

end Closed

/-- Every item of any list of formats is consistent with the vendored document. -/
theorem mapDiscogsFormats_consistent (formats : Option Value) :
    ∀ item ∈ (mapDiscogsFormats (.ofDocument vendoredTaxonomy) formats).items,
      ∃ format, .object format ∈ entriesOf formats ∧ Consistent vendoredTaxonomy format item := by
  intro item hitem
  have hitems : (mapDiscogsFormats (.ofDocument vendoredTaxonomy) formats).items =
      (entriesOf formats).filterMap (itemOf (.ofDocument vendoredTaxonomy)) := items_eq formats
  rw [hitems] at hitem
  obtain ⟨v, hv, hsome⟩ := List.mem_filterMap.1 hitem
  cases v with
  | object format => exact ⟨format, hv, vendoredTaxonomy_closed.consistent hsome⟩
  | _ => exact nomatch hsome

/-- Two twelve-inch records: the medium is resolved by the stated size. -/
theorem mapDiscogsFormats_consistent_vinyl :
    let format : Map := [("descriptions", .array [.string "LP"]), ("name", .string "Vinyl"), ("qty", .string "2")]
    ∃ item ∈ (mapDiscogsFormats (.ofDocument vendoredTaxonomy) (some (.array [.object format]))).items,
      item.medium = some "vinyl_12" ∧ item.qty = 2 ∧
      ∃ format', .object format' ∈ entriesOf (some (.array [.object format])) ∧
        Consistent vendoredTaxonomy format' item := by
  intro format
  have hpairs : (mapDiscogsFormats (.ofDocument vendoredTaxonomy) (some (.array [.object format]))).items.map
      (fun item => (item.medium, item.qty)) = [(some "vinyl_12", 2)] := by decide +kernel
  obtain ⟨item, hitem, heq⟩ := List.mem_map.1 (hpairs ▸ List.mem_singleton_self (some "vinyl_12", 2))
  obtain ⟨hmedium, hqty⟩ := Prod.mk.inj heq
  exact ⟨item, hitem, hmedium, hqty, mapDiscogsFormats_consistent _ item hitem⟩

end DiscogsIngestion.Media
