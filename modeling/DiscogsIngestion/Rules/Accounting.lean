import DiscogsIngestion.Lib.Passes
import DiscogsIngestion.Record.Survival
import DiscogsIngestion.Rules.Reach

/-!
# What the filters remove

* `isName`, `isSegment` : XML names, and the segments of a field that are names, with an `@` or without;
* `Strikes` : one text struck out of a value: a string of an array, the only string under a key, or a scalar that
  becomes null;
* `target` : the value at a path of keys;
* `Settled` : a filter that finds nothing to remove;
* `settling` : each filter removes what it reports, and no filter gives another one work;
* `applyFilters_accounted` : the filters are idempotent, and what they report is what is gone.
-/

namespace DiscogsIngestion.Rules

/-! ## Names -/

def isNameStart (c : Char) : Bool :=
  let n := c.toNat
  n = 0x3A || (0x41 ≤ n && n ≤ 0x5A) || n = 0x5F || (0x61 ≤ n && n ≤ 0x7A) || (0xC0 ≤ n && n ≤ 0xD6) ||
    (0xD8 ≤ n && n ≤ 0xF6) || (0xF8 ≤ n && n ≤ 0x2FF) || (0x370 ≤ n && n ≤ 0x37D) || (0x37F ≤ n && n ≤ 0x1FFF) ||
    (0x200C ≤ n && n ≤ 0x200D) || (0x2070 ≤ n && n ≤ 0x218F) || (0x2C00 ≤ n && n ≤ 0x2FEF) ||
    (0x3001 ≤ n && n ≤ 0xD7FF) || (0xF900 ≤ n && n ≤ 0xFDCF) || (0xFDF0 ≤ n && n ≤ 0xFFFD) ||
    (0x10000 ≤ n && n ≤ 0xEFFFF)

def isNameChar (c : Char) : Bool :=
  let n := c.toNat
  isNameStart c || n = 0x2D || n = 0x2E || (0x30 ≤ n && n ≤ 0x39) || n = 0xB7 || (0x300 ≤ n && n ≤ 0x36F) ||
    (0x203F ≤ n && n ≤ 0x2040)

def isName (s : String) : Bool :=
  match s.toList with
  | c :: rest => isNameStart c && rest.all isNameChar
  | [] => false

/-- A name, with an `@` before it or without. -/
def isSegment (s : String) : Bool := isName ((stripAt s).getD s)

/-- The segments of all fields of these filters are names. -/
def NamedFields {F : Type} (filters : List (CompiledFilterCondition F)) : Prop :=
  ∀ cond ∈ filters, ∀ segment ∈ segments cond.field, isSegment segment = true

theorem parseIndex_of_head {s : String} {c : Char} {rest : List Char} (hs : s.toList = c :: rest)
    (hdigit : c.isDigit = false) : parseIndex s = none := by
  unfold parseIndex
  rw [hs]
  split
  · rfl
  · rfl
  · next hplus _ =>
    unfold parseU64
    rw [hs]
    dsimp only
    rw [if_neg]
    rintro ⟨-, hall, -⟩
    split at hall
    · next rest' heq => exact hplus rest' heq
    · rw [List.all_cons, hdigit] at hall
      exact nomatch hall

theorem isName_cases {s : String} (h : isName s = true) :
    ∃ c rest, s.toList = c :: rest ∧ isNameStart c = true ∧ rest.all isNameChar = true := by
  unfold isName at h
  split at h
  · next c rest hs => exact ⟨c, rest, hs, by simpa using h⟩
  · exact absurd h (by decide)

theorem isName_token {s : String} (h : isName s = true) : '/' ∉ s.toList ∧ '~' ∉ s.toList := by
  obtain ⟨c, rest, hs, hstart, hrest⟩ := isName_cases h
  have hnot : ∀ d : Char, isNameChar d = false → isNameStart d = false → d ∉ s.toList := by
    intro d hchar hfirst hd
    rw [hs] at hd
    rcases List.mem_cons.1 hd with rfl | hd
    · rw [hstart] at hfirst
      exact nomatch hfirst
    · rw [List.all_eq_true.1 hrest d hd] at hchar
      exact nomatch hchar
  exact ⟨hnot '/' (by decide) (by decide), hnot '~' (by decide) (by decide)⟩

/-- Such a segment has no character that a JSON pointer reads as another one, and is no index. -/
theorem isSegment_token {s : String} (h : isSegment s = true) :
    '/' ∉ s.toList ∧ '~' ∉ s.toList ∧ parseIndex s = none := by
  unfold isSegment at h
  cases hstrip : stripAt s with
  | some name =>
    rw [hstrip] at h
    obtain ⟨hslash, htilde⟩ := isName_token h
    obtain rfl := stripAt_eq_some_iff.1 hstrip
    have hchars : ("@" ++ name).toList = '@' :: name.toList := String.toList_append
    refine ⟨?_, ?_, parseIndex_of_head hchars (by decide)⟩
    · rw [hchars]
      simpa using hslash
    · rw [hchars]
      simpa using htilde
  | none =>
    rw [hstrip] at h
    obtain ⟨c, rest, hs, hstart, -⟩ := isName_cases h
    refine ⟨(isName_token h).1, (isName_token h).2, parseIndex_of_head hs ?_⟩
    rw [← Bool.not_eq_true, Char.isDigit_iff_toNat]
    simp only [isNameStart, Bool.or_eq_true, Bool.and_eq_true, decide_eq_true_eq] at hstart
    rintro ⟨hlow, hhigh⟩
    have hzero : '0'.toNat = 48 := rfl
    have hnine : '9'.toNat = 57 := rfl
    omega

theorem replacePair_of_notMem {a b c : Char} {chars : List Char} (h : a ∉ chars) : replacePair a b c chars = chars := by
  induction chars with
  | nil => rfl
  | cons x rest ih =>
    obtain ⟨hne, hrest⟩ := not_or.1 (mt List.mem_cons.2 h)
    cases rest with
    | nil => rfl
    | cons y rest =>
      unfold replacePair
      rw [if_neg fun heq => hne heq.1.symm, ih hrest]

theorem pointerTokens_eq {segments : List String} (hne : segments ≠ [])
    (h : ∀ segment ∈ segments, isSegment segment = true) : pointerTokens segments = segments := by
  have hslash : ∀ l ∈ segments.map String.toList, '/' ∉ l := by
    intro l hl
    obtain ⟨segment, hsegment, rfl⟩ := List.mem_map.1 hl
    exact (isSegment_token (h segment hsegment)).1
  unfold pointerTokens
  rw [String.toList_intercalate]
  have hsplit : (['/'].intercalate (segments.map String.toList)).splitOn '/' = segments.map String.toList :=
    List.splitOn_intercalate '/' hslash (by simpa using hne)
  have hsep : "/".toList = ['/'] := rfl
  rw [hsep, hsplit, List.map_map]
  conv_rhs => rw [← List.map_id segments]
  refine List.map_congr_left fun segment hsegment => ?_
  have htilde := (isSegment_token (h segment hsegment)).2.1
  show String.ofList (replacePair '~' '0' '~' (replacePair '~' '1' '/' segment.toList)) = segment
  rw [replacePair_of_notMem htilde, replacePair_of_notMem htilde, String.ofList_toList]

theorem segments_ne_nil (field : String) : segments field ≠ [] := by
  unfold segments
  rw [Ne, List.map_eq_nil_iff]
  exact List.splitOn_ne_nil _ _

theorem parentTokens_eq {field : String} (h : ∀ segment ∈ segments field, isSegment segment = true) :
    parentTokens field ++ [leafOf field] = segments field ∧ ∀ token ∈ parentTokens field, parseIndex token = none := by
  have htokens : parentTokens field = (segments field).dropLast := by
    unfold parentTokens
    split
    · next hnil => exact hnil.symm
    · next hne => exact pointerTokens_eq hne fun segment hsegment => h segment (List.dropLast_subset _ hsegment)
  rw [htokens]
  constructor
  · have hleaf : leafOf field = (segments field).getLast (segments_ne_nil field) := by
      unfold leafOf
      rw [List.getLastD_eq_getLast?, List.getLast?_eq_getLast_of_ne_nil (segments_ne_nil field)]
      rfl
    rw [hleaf, List.dropLast_append_getLast]
  · intro token htoken
    exact (isSegment_token (h token (List.dropLast_subset _ htoken))).2.2

/-! ## Struck texts -/

/-- One text is struck out of the value, and everything else is as it was: a string of an array, the only string under
a key, or a scalar that becomes null. -/
inductive Strikes (text : String) : Value → Value → Prop where
  | item (pre post : List Value) : Strikes text (.array (pre ++ .string text :: post)) (.array (pre ++ post))
  | entry (pre post : Map) (key : String) :
    Strikes text (.object (pre ++ (key, .string text) :: post)) (.object (pre ++ post))
  | scalar {v : Value} (h : compared v = some text) : Strikes text v .null
  | under {v v' : Value} (pre post : Map) (key : String) (h : Strikes text v v') :
    Strikes text (.object (pre ++ (key, v) :: post)) (.object (pre ++ (key, v') :: post))

theorem textsOfItems_append (items items' : List Value) :
    textsOfItems (items ++ items') = textsOfItems items ++ textsOfItems items' := by
  induction items with
  | nil => rfl
  | cons item items ih =>
    show texts item ++ textsOfItems (items ++ items') = (texts item ++ textsOfItems items) ++ textsOfItems items'
    rw [ih, List.append_assoc]

theorem textsOfEntries_append (m m' : Map) : textsOfEntries (m ++ m') = textsOfEntries m ++ textsOfEntries m' := by
  induction m with
  | nil => rfl
  | cons e m ih =>
    show texts e.2 ++ textsOfEntries (m ++ m') = (texts e.2 ++ textsOfEntries m) ++ textsOfEntries m'
    rw [ih, List.append_assoc]

namespace Strikes

variable {text : String} {v v' : Value}

theorem perm (h : Strikes text v v') : (texts v).Perm (text :: texts v') := by
  induction h with
  | item pre post =>
    show (textsOfItems (pre ++ .string text :: post)).Perm (text :: textsOfItems (pre ++ post))
    rw [textsOfItems_append, textsOfItems_append]
    exact List.perm_middle
  | entry pre post key =>
    show (textsOfEntries (pre ++ (key, .string text) :: post)).Perm (text :: textsOfEntries (pre ++ post))
    rw [textsOfEntries_append, textsOfEntries_append]
    exact List.perm_middle
  | @scalar v hv =>
    cases v with
    | string s => exact Option.some.inj hv ▸ List.Perm.refl _
    | number n => exact Option.some.inj hv ▸ List.Perm.refl _
    | _ => exact nomatch hv
  | @under v v' pre post key _ ih =>
    show (textsOfEntries (pre ++ (key, v) :: post)).Perm (text :: textsOfEntries (pre ++ (key, v') :: post))
    rw [textsOfEntries_append, textsOfEntries_append]
    exact (List.Perm.append_left _ (ih.append_right _)).trans List.perm_middle

theorem ordered (h : Strikes text v v') (hv : v.Ordered) : v'.Ordered := by
  induction h with
  | item pre post =>
    refine .array fun w hw => hv.items w ?_
    exact ((List.sublist_cons_self _ post).append_left pre).subset hw
  | entry pre post key =>
    have hsub : (pre ++ post).Sublist (pre ++ (key, .string text) :: post) :=
      (List.sublist_cons_self _ post).append_left pre
    exact .object (hv.sorted.sublist hsub) fun e he => hv.entries e (hsub.subset he)
  | scalar => exact .null
  | @under v v' pre post key _ ih =>
    have hmem : (key, v) ∈ pre ++ (key, v) :: post := List.mem_append_right _ (List.mem_cons_self ..)
    refine .object (Map.Sorted.middle hv.sorted v') fun e he => ?_
    rcases List.mem_append.1 he with he | he
    · exact hv.entries e (List.mem_append_left _ he)
    rcases List.mem_cons.1 he with rfl | he
    · exact ih (hv.entries _ hmem)
    · exact hv.entries e (List.mem_append_right _ (List.mem_cons_of_mem _ he))

end Strikes

/-! ## Targets -/

def target : List String → Value → Option Value
  | [], v => some v
  | key :: path, .object m => (Map.get key m).bind (target path)
  | _ :: _, _ => none

theorem get_middle {pre post : Map} {key : String} {v : Value} (h : Map.Sorted (pre ++ (key, v) :: post))
    (key' : String) : Map.get key' (pre ++ (key, v) :: post) =
      if key' = key then some v else Map.get key' (pre ++ post) := by
  rw [Map.get_append, Map.get_append, Map.get]
  by_cases hkey : key' = key
  · have hpre : Map.get key' pre = none := by
      rw [Map.get_eq_none_iff]
      intro e he heq
      have hlt := (List.pairwise_append.1 h).2.2 e he (key, v) (List.mem_cons_self ..)
      exact absurd (heq.trans hkey) hlt.ne
    rw [hpre, if_pos hkey.symm, if_pos hkey]
    rfl
  · rw [if_neg (Ne.symm hkey), if_neg hkey]

theorem get_removed {pre post : Map} {key : String} {v : Value} (h : Map.Sorted (pre ++ (key, v) :: post)) :
    Map.get key (pre ++ post) = none := by
  obtain ⟨-, hpost, hlt⟩ := List.pairwise_append.1 h
  rw [Map.get_eq_none_iff]
  intro e he
  rcases List.mem_append.1 he with he | he
  · exact (hlt e he (key, v) (List.mem_cons_self ..)).ne
  · exact ((List.pairwise_cons.1 hpost).1 e he).ne'

/-- What stands at a path after a text has been struck out stood there before, but for that text. -/
theorem target_of_strikes {text : String} {v v' : Value} (h : Strikes text v v') (hv : v.Ordered) {path : List String}
    {w' : Value} (hw : target path v' = some w') : ∃ w, target path v = some w ∧ (w = w' ∨ Strikes text w w') := by
  induction path generalizing v v' with
  | nil =>
    obtain rfl := Option.some.inj hw
    exact ⟨v, rfl, .inr h⟩
  | cons key path ih =>
    cases h with
    | item => exact nomatch hw
    | scalar => exact nomatch hw
    | entry pre post key' =>
      refine ⟨w', ?_, .inl rfl⟩
      obtain ⟨x, hget, hx⟩ := Option.bind_eq_some_iff.1 hw
      have hne : key ≠ key' := by
        rintro rfl
        exact nomatch (get_removed hv.sorted).symm.trans hget
      show (Map.get key (pre ++ (key', _) :: post)).bind (target path) = some w'
      rw [get_middle hv.sorted, if_neg hne, hget]
      exact hx
    | @under x x' pre post key' hx =>
      have hsorted := (Strikes.under pre post key' hx).ordered hv
      obtain ⟨y', hget, hy⟩ := Option.bind_eq_some_iff.1 hw
      rw [get_middle hsorted.sorted] at hget
      have htarget : ∀ y, Map.get key (pre ++ (key', x) :: post) = some y →
          target (key :: path) (.object (pre ++ (key', x) :: post)) = target path y := by
        intro y hy
        show (Map.get key _).bind (target path) = _
        rw [hy]
        rfl
      split_ifs at hget with hkey
      · obtain rfl := Option.some.inj hget
        have hthere : Map.get key (pre ++ (key', x) :: post) = some x := by rw [get_middle hv.sorted, if_pos hkey]
        rw [htarget x hthere]
        exact ih hx (hv.get hthere) hy
      · have hthere : Map.get key (pre ++ (key', x) :: post) = some y' := by
          rw [get_middle hv.sorted, if_neg hkey, hget]
        rw [htarget y' hthere]
        exact ⟨w', hy, .inl rfl⟩

/-! ## Removals -/

variable {F : Type} {isMatch : String → Bool}

/-- Nothing to remove is at the end of the path: no string of an array, and no string by itself. -/
def Silent (isMatch : String → Bool) : Value → Prop
  | .array arr => ∀ elem ∈ arr, matching isMatch elem = none
  | .string s => isMatch s = false
  | _ => True

theorem Silent.of_strikes {text : String} {v v' : Value} (h : Strikes text v v') (hv : Silent isMatch v) :
    Silent isMatch v' := by
  cases h with
  | item pre post =>
    intro elem helem
    exact hv elem (((List.sublist_cons_self _ post).append_left pre).subset helem)
  | _ => trivial

open Passes (Chain)

/-- The strings that match are struck out of an array one after the other. -/
theorem chain_filter (isMatch : String → Bool) (pre arr : List Value) :
    Chain Strikes (arr.filterMap (matching isMatch)) (.array (pre ++ arr))
      (.array (pre ++ arr.filter fun elem => (matching isMatch elem).isNone)) := by
  induction arr generalizing pre with
  | nil => exact .nil _
  | cons elem arr ih =>
    cases hmatch : matching isMatch elem with
    | none =>
      rw [List.filterMap_cons_none hmatch, List.filter_cons_of_pos (by rw [hmatch]; rfl)]
      have hrest := ih (pre ++ [elem])
      simpa using hrest
    | some s =>
      rw [List.filterMap_cons_some hmatch, List.filter_cons_of_neg (by rw [hmatch]; simp)]
      obtain ⟨rfl, -⟩ := matching_eq_some hmatch
      exact .cons (.item pre arr) (ih pre)

theorem length_matching (isMatch : String → Bool) (arr : List Value) :
    (arr.filterMap (matching isMatch)).length + (arr.filter fun elem => (matching isMatch elem).isNone).length =
      arr.length := by
  induction arr with
  | nil => rfl
  | cons elem arr ih =>
    cases hmatch : matching isMatch elem with
    | none =>
      rw [List.filterMap_cons_none hmatch, List.filter_cons_of_pos (by rw [hmatch]; rfl), List.length_cons,
        List.length_cons]
      omega
    | some s =>
      rw [List.filterMap_cons_some hmatch, List.filter_cons_of_neg (by rw [hmatch]; simp), List.length_cons,
        List.length_cons]
      omega

theorem insert_middle {pre post : Map} {key : String} {v : Value} (h : Map.Sorted (pre ++ (key, v) :: post))
    (v' : Value) : Map.insert key v' (pre ++ (key, v) :: post) = pre ++ (key, v') :: post := by
  refine Map.ext (Map.insert_sorted h key v') (h.middle v') fun other => ?_
  rw [Map.get_insert, get_middle h, get_middle (h.middle v')]
  split_ifs <;> rfl

theorem remove_middle {pre post : Map} {key : String} {v : Value} (h : Map.Sorted (pre ++ (key, v) :: post)) :
    Map.remove key (pre ++ (key, v) :: post) = pre ++ post := by
  have hsub : (pre ++ post).Sublist (pre ++ (key, v) :: post) := (List.sublist_cons_self _ post).append_left pre
  refine Map.ext (Map.remove_sorted h key) (h.sublist hsub) fun other => ?_
  rw [Map.get_remove, get_middle h]
  split_ifs with hkey
  · rw [hkey, get_removed h]
  · rfl

/-- What is struck out under a key of an object is struck out of the object. -/
theorem chain_insert {map : Map} (hs : map.Sorted) {key : String} {v v' : Value} {removed : List String}
    (hget : Map.get key map = some v) (h : Chain Strikes removed v v') :
    Chain Strikes removed (.object map) (.object (Map.insert key v' map)) := by
  obtain ⟨pre, post, rfl⟩ := List.append_of_mem (Map.mem_of_get hget)
  rw [insert_middle hs]
  exact h.map (f := fun w => .object (pre ++ (key, w) :: post)) fun hstep => .under pre post key hstep

/-- Nothing that a removal looks for stands at the path. -/
def SilentAt (isMatch : String → Bool) (path : List String) (v : Value) : Prop :=
  ∀ t, target path v = some t → Silent isMatch t

/-- A removal strikes out what it reports. Afterwards there is nothing to remove, and if there was nothing before, it
strikes out nothing. -/
structure Removal (isMatch : String → Bool) (path : List String) (v v' : Value) (r : Nat × List String) : Prop where
  chain : Chain Strikes r.2 v v'
  count : r.1 = r.2.length
  silent : SilentAt isMatch path v'
  idle : SilentAt isMatch path v → r.2 = []

theorem target_singleton (leaf : String) (map : Map) : target [leaf] (.object map) = Map.get leaf map := by
  show (Map.get leaf map).bind some = _
  cases Map.get leaf map <;> rfl

theorem removeAt_removal {leaf : String} {v v' : Value} {r : Nat × List String} (hv : v.Ordered)
    (h : removeAt leaf isMatch v = some (v', r)) : Removal isMatch [leaf] v v' r := by
  unfold removeAt at h
  split at h
  · next map =>
    split at h
    · next arr hget =>
      obtain ⟨rfl, rfl⟩ := Prod.mk.inj (Option.some.inj h)
      have hchain : Chain Strikes (arr.filterMap (matching isMatch)) (.array arr)
          (.array (arr.filter fun elem => (matching isMatch elem).isNone)) := chain_filter isMatch [] arr
      refine ⟨chain_insert hv.sorted hget hchain, ?_, fun t ht => ?_, fun hidle => ?_⟩
      · have hlength := length_matching isMatch arr
        dsimp only
        omega
      · rw [target_singleton, Map.get_insert_self] at ht
        obtain rfl := Option.some.inj ht
        intro elem helem
        exact Option.isNone_iff_eq_none.1 (List.mem_filter.1 helem).2
      · have hsilent : Silent isMatch (.array arr) := hidle _ (by rw [target_singleton, hget])
        exact List.filterMap_eq_nil_iff.2 hsilent
    · next s hget =>
      split_ifs at h with hmatch
      obtain ⟨rfl, rfl⟩ := Prod.mk.inj (Option.some.inj h)
      refine ⟨?_, rfl, fun t ht => ?_, fun hidle => ?_⟩
      · obtain ⟨pre, post, rfl⟩ := List.append_of_mem (Map.mem_of_get hget)
        rw [remove_middle hv.sorted]
        exact .single (.entry pre post leaf)
      · rw [target_singleton, Map.get_remove, if_pos rfl] at ht
        exact nomatch ht
      · have hsilent : Silent isMatch (.string s) := hidle _ (by rw [target_singleton, hget])
        exact nomatch hmatch.symm.trans hsilent
    · exact nomatch h
  · exact nomatch h

theorem silent_of_removeAt_none {leaf : String} {v : Value} (h : removeAt leaf isMatch v = none) :
    SilentAt isMatch [leaf] v := by
  intro t ht
  cases v with
  | object map =>
    rw [target_singleton] at ht
    unfold removeAt at h
    dsimp only at h
    rw [ht] at h
    cases t with
    | array arr => exact nomatch h
    | string s =>
      dsimp only at h
      split_ifs at h with hmatch
      exact Bool.eq_false_of_not_eq_true hmatch
    | _ => trivial
  | _ => exact nomatch ht

theorem pointerMut_removal {leaf : String} {tokens : List String} (htokens : ∀ token ∈ tokens, parseIndex token = none)
    {v v' : Value} {r : Nat × List String} (hv : v.Ordered)
    (h : pointerMut (removeAt leaf isMatch) tokens v = some (v', r)) :
    Removal isMatch (tokens ++ [leaf]) v v' r := by
  induction tokens generalizing v v' with
  | nil => exact removeAt_removal hv h
  | cons token tokens ih =>
    obtain ⟨map, x, x', rfl, hget, hx, rfl⟩ | ⟨items, i, x, x', rfl, hindex, -, -, -⟩ := pointerMut_cons h
    · obtain ⟨hchain, hcount, hsilent, hidle⟩ :=
        ih (fun t ht => htokens t (List.mem_cons_of_mem _ ht)) (hv.get hget) hx
      have hunder : ∀ (map : Map) (y : Value), Map.get token map = some y →
          target (token :: tokens ++ [leaf]) (.object map) = target (tokens ++ [leaf]) y := by
        intro map y hy
        show (Map.get token map).bind (target (tokens ++ [leaf])) = _
        rw [hy]
        rfl
      refine ⟨chain_insert hv.sorted hget hchain, hcount, fun t ht => ?_, fun hbefore => ?_⟩
      · rw [hunder _ x' (Map.get_insert_self ..)] at ht
        exact hsilent t ht
      · refine hidle fun t ht => hbefore t ?_
        rw [hunder _ x hget]
        exact ht
    · exact nomatch (htokens token (List.mem_cons_self ..)).symm.trans hindex

theorem silent_of_pointerMut_none {leaf : String} {tokens : List String} {v : Value}
    (h : pointerMut (removeAt leaf isMatch) tokens v = none) : SilentAt isMatch (tokens ++ [leaf]) v := by
  induction tokens generalizing v with
  | nil => exact silent_of_removeAt_none h
  | cons token tokens ih =>
    intro t ht
    cases v with
    | object map =>
      obtain ⟨x, hget, hx⟩ := Option.bind_eq_some_iff.1 ht
      refine ih ?_ t hx
      simpa [pointerMut, hget] using h
    | _ => exact absurd ht (Option.some_ne_none t).symm

/-! ## Filters -/

variable [Double F] {cond : CompiledFilterCondition F} {filters : List (CompiledFilterCondition F)}

/-- The filter finds nothing to remove. -/
def Settled (cond : CompiledFilterCondition F) (record : Value) : Prop :=
  match cond with
  | .removeMatching field isMatch _ => SilentAt isMatch (segments field) record
  | .nullifyWhen field below above _ => ∀ v, target [field] record = some v →
    ∀ s, compared v = some s → (numberOf s).any (outside below above) = false

theorem Settled.of_strikes {text : String} {v v' : Value} (h : Strikes text v v') (hv : v.Ordered)
    (hsettled : Settled cond v) : Settled cond v' := by
  cases cond with
  | removeMatching field isMatch reason =>
    intro t' ht'
    obtain ⟨t, ht, rfl | hstrikes⟩ := target_of_strikes h hv ht'
    · exact hsettled t ht
    · exact (hsettled t ht).of_strikes hstrikes
  | nullifyWhen field below above reason =>
    intro t' ht' s hs
    obtain ⟨t, ht, rfl | hstrikes⟩ := target_of_strikes h hv ht'
    · exact hsettled t ht s hs
    · cases hstrikes <;> exact nomatch hs

theorem chain_nil {v v' : Value} (h : Chain Strikes [] v v') : v' = v := by
  cases h
  rfl

/-- What one filter does. -/
structure FilterSpec (cond : CompiledFilterCondition F) (record : Value) : Prop where
  chain : Chain Strikes ((applyFilter cond record).2.flatMap FilterAction.removedValues) record
    (applyFilter cond record).1
  counts : ∀ action ∈ (applyFilter cond record).2, action.removedCount = action.removedValues.length
  settles : Settled cond (applyFilter cond record).1
  idle : Settled cond record → applyFilter cond record = (record, [])

theorem spec_of_unchanged {record : Value} (happly : applyFilter cond record = (record, []))
    (hsettled : Settled cond record) : FilterSpec cond record := by
  refine ⟨?_, ?_, ?_, fun _ => happly⟩
  · rw [happly]
    exact .nil record
  · rw [happly]
    exact fun action haction => absurd haction List.not_mem_nil
  · rw [happly]
    exact hsettled

theorem removeMatching_spec {field : String} (hnames : ∀ segment ∈ segments field, isSegment segment = true)
    (isMatch : String → Bool) (reason : String) {record : Value} (hrecord : record.Ordered) :
    FilterSpec (.removeMatching (F := F) field isMatch reason) record := by
  obtain ⟨hpath, htokens⟩ := parentTokens_eq hnames
  cases h : pointerMut (removeAt (leafOf field) isMatch) (parentTokens field) record with
  | none =>
    apply spec_of_unchanged
    · unfold applyFilter
      dsimp only
      rw [h]
    · show SilentAt isMatch (segments field) record
      exact hpath ▸ silent_of_pointerMut_none h
  | some result =>
    obtain ⟨record', count, values⟩ := result
    obtain ⟨hchain, hcount, hsilent, hidle⟩ := pointerMut_removal htokens hrecord h
    rw [hpath] at hsilent hidle
    dsimp only at hchain hcount hidle
    have happly : applyFilter (.removeMatching (F := F) field isMatch reason) record =
        (record', if 0 < count then [⟨field, count, values, reason⟩] else []) := by
      unfold applyFilter
      dsimp only
      rw [h]
    have hactions : (if 0 < count then [(⟨field, count, values, reason⟩ : FilterAction)] else []).flatMap
        FilterAction.removedValues = values := by
      split_ifs with hpos
      · exact List.flatMap_singleton ..
      · exact (List.length_eq_zero_iff.1 (by omega)).symm
    refine ⟨?_, ?_, ?_, fun hsettled => ?_⟩
    · rw [happly, hactions]
      exact hchain
    · rw [happly]
      intro action haction
      split_ifs at haction
      · obtain rfl := List.mem_singleton.1 haction
        exact hcount
      · exact absurd haction List.not_mem_nil
    · rw [happly]
      exact hsilent
    · obtain rfl := hidle hsettled
      obtain rfl := chain_nil hchain
      obtain rfl : count = 0 := hcount
      exact happly

theorem nullifyWhen_spec (field : String) (low high : Option F) (reason : String) {record : Value}
    (hrecord : record.Ordered) : FilterSpec (.nullifyWhen field low high reason) record := by
  cases record with
  | object obj =>
    cases hv : (Map.get field obj).bind compared with
    | none =>
      apply spec_of_unchanged
      · unfold applyFilter
        dsimp only
        rw [hv]
      · intro v hget s hs
        rw [target_singleton] at hget
        rw [hget] at hv
        exact nomatch hv.symm.trans hs
    | some strVal =>
      obtain ⟨v, hget, hcompared⟩ := Option.bind_eq_some_iff.1 hv
      cases houtside : (numberOf strVal).any (outside low high) with
      | false =>
        apply spec_of_unchanged
        · unfold applyFilter
          dsimp only
          rw [hv]
          dsimp only
          rw [houtside]
          rfl
        · intro v' hget' s hs
          rw [target_singleton, hget] at hget'
          obtain rfl := Option.some.inj hget'
          obtain rfl := Option.some.inj (hcompared.symm.trans hs)
          exact houtside
      | true =>
        have happly : applyFilter (.nullifyWhen field low high reason) (.object obj) =
            (.object (Map.insert field .null obj), [⟨field, 1, [strVal], reason⟩]) := by
          unfold applyFilter
          dsimp only
          rw [hv]
          dsimp only
          rw [houtside]
          rfl
        refine ⟨?_, ?_, ?_, fun hsettled => ?_⟩
        · rw [happly]
          exact chain_insert hrecord.sorted hget (.single (.scalar hcompared))
        · rw [happly]
          intro action haction
          obtain rfl := List.mem_singleton.1 haction
          rfl
        · rw [happly]
          intro v' hget' s hs
          rw [target_singleton, Map.get_insert_self] at hget'
          obtain rfl := Option.some.inj hget'
          exact nomatch hs
        · have hno := hsettled v (by rw [target_singleton, hget]) strVal hcompared
          exact nomatch houtside.symm.trans hno
  | _ => exact spec_of_unchanged rfl fun v hget => nomatch hget

theorem applyFilter_spec (hnames : NamedFields filters) (hcond : cond ∈ filters) {record : Value}
    (hrecord : record.Ordered) : FilterSpec cond record := by
  cases cond with
  | removeMatching field isMatch reason => exact removeMatching_spec (hnames _ hcond) isMatch reason hrecord
  | nullifyWhen field low high reason => exact nullifyWhen_spec field low high reason hrecord

/-! ## All filters -/

open Passes (run)

/-- Each filter does its work once, and no other gives it work again. -/
theorem settling (hnames : NamedFields filters) :
    Passes.Settling applyFilter Strikes FilterAction.removedValues Value.Ordered Settled filters where
  keeps hs hstep := hstep.ordered hs
  stays _ _ _ _ _ hs hstep hsettled := hsettled.of_strikes hstep hs
  chain _ hc _ hs := (applyFilter_spec hnames hc hs).chain
  settles _ hc _ hs := (applyFilter_spec hnames hc hs).settles
  idle _ hc _ hs := (applyFilter_spec hnames hc hs).idle

theorem applyFilters_eq (config : CompiledRulesConfig F) (dataType : String) (record : Value) :
    applyFilters config dataType record = run applyFilter (config.filtersFor dataType) record := by
  have hfold : ∀ (filters : List (CompiledFilterCondition F)) (state : Value × List FilterAction),
      filters.foldl (fun state cond =>
        ((applyFilter cond state.1).1, state.2 ++ (applyFilter cond state.1).2)) state =
          ((run applyFilter filters state.1).1, state.2 ++ (run applyFilter filters state.1).2) := by
    intro filters
    induction filters with
    | nil => exact fun state => by simp [run]
    | cons cond filters ih =>
      intro state
      refine (ih _).trans ?_
      rw [List.append_assoc]
      rfl
  exact hfold _ (record, [])

/-- The actions account for what a run of the filters has taken out of a record. -/
structure Accounted (record record' : Value) (actions : List FilterAction) : Prop where
  counts : ∀ action ∈ actions, action.removedCount = action.removedValues.length
  texts : (texts record).Perm (actions.flatMap FilterAction.removedValues ++ texts record')
  strikes : Chain Strikes (actions.flatMap FilterAction.removedValues) record record'

theorem perm_of_chain {removed : List String} {v v' : Value} (h : Chain Strikes removed v v') :
    (texts v).Perm (removed ++ texts v') := by
  induction h with
  | nil => exact List.Perm.refl _
  | cons hstep _ ih => exact hstep.perm.trans (ih.cons _)

/-- The filters do nothing the second time. The first time they take out what they report and nothing else. -/
theorem applyFilters_accounted (config : CompiledRulesConfig F) (dataType : String)
    (hnames : NamedFields (config.filtersFor dataType)) {record : Value} (hrecord : record.Ordered) :
    let result := applyFilters config dataType record
    applyFilters config dataType result.1 = (result.1, []) ∧ Accounted record result.1 result.2 := by
  dsimp only
  rw [applyFilters_eq, applyFilters_eq]
  have hchain := (settling hnames).run_chain hrecord
  have hcounts := (settling hnames).run_reports
    (fun cond hcond _ hs => (applyFilter_spec hnames hcond hs).counts) hrecord
  exact ⟨(settling hnames).run_run hrecord, hcounts, perm_of_chain hchain, hchain⟩

def withoutRock : CompiledRulesConfig Nat where
  rules := ∅
  skipConditions := ∅
  filters := AList.insert "releases" [.removeMatching "genres.genre" (· == "Rock") "Strip rock"] ∅

def rockRecord : Value := .record [("genres", .record [("genre", .strings ["Rock", "Pop"])])]

theorem rock_accounted :
    let result := applyFilters withoutRock "releases" rockRecord
    applyFilters withoutRock "releases" result.1 = (result.1, []) ∧ Accounted rockRecord result.1 result.2 := by
  have hnames : NamedFields (withoutRock.filtersFor "releases") := by
    unfold NamedFields
    decide
  have hgenres : Value.Ordered (.record [("genre", .strings ["Rock", "Pop"])]) := Value.record_ordered (by simp)
  have hrecord : rockRecord.Ordered := Value.record_ordered (by simpa using hgenres)
  exact applyFilters_accounted withoutRock "releases" hnames hrecord

end DiscogsIngestion.Rules
