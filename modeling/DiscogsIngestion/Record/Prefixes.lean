import DiscogsIngestion.Parser.Shape
import DiscogsIngestion.Record.Normalize

/-!
# What de-prefixing keeps

* `Value.Within` : a value that stands somewhere in another one;
* `renamed`, `Lossless` : the new name of a key, and a result that has every value under it;
* `Free` : a run of renames each of which finds its new name free;
* `Clash` : two keys of an object of which one value overwrites the other;
* `Residue` : the keys of which one stays with a prefix;
* `stripAtPrefixes_lossless_iff` : nothing is overwritten in an object of the parser unless two keys clash.
-/

namespace DiscogsIngestion

/-- The first value is the second one or stands somewhere in it. -/
inductive Value.Within (v : Value) : Value → Prop where
  | self : Within v v
  | item {items : List Value} {w : Value} (hw : w ∈ items) (h : Within v w) : Within v (.array items)
  | entry {entries : Map} {e : String × Value} (he : e ∈ entries) (h : Within v e.2) : Within v (.object entries)

theorem Value.Within.ordered {v w : Value} (h : v.Within w) (hw : w.Ordered) : v.Ordered := by
  induction h with
  | self => exact hw
  | item hmem _ ih => exact ih (hw.items _ hmem)
  | entry hmem _ ih => exact ih (hw.entries _ hmem)

def renamed (keys : List String) (key : String) : String :=
  match stripAt key with
  | some stripped => stripped
  | none => if key = "#text" ∧ "name" ∉ keys then "name" else key

/-- There are as many entries as before, and each value is under the new name of its key, which is no other key's. -/
structure Lossless (map map' : Map) : Prop where
  length : map'.length = map.length
  distinct : ∀ key ∈ map.map Prod.fst, ∀ other ∈ map.map Prod.fst,
    renamed (map.map Prod.fst) key = renamed (map.map Prod.fst) other → key = other
  values : ∀ key value, Map.get key map = some value → Map.get (renamed (map.map Prod.fst) key) map' = some value

/-! ## Runs of renames -/

variable {rs : List (String × String)} {m : Map} {key other : String} {value : Value}

/-- The name of a key after a run of renames of different keys. -/
def moved (rs : List (String × String)) (key : String) : String := (rs.lookup key).getD key

theorem moved_cons_self (r : String × String) (rs : List (String × String)) : moved (r :: rs) r.1 = r.2 := by
  unfold moved
  rw [List.lookup_cons_self]
  rfl

theorem moved_cons_of_ne {r : String × String} (h : key ≠ r.1) (rs : List (String × String)) :
    moved (r :: rs) key = moved rs key := by
  unfold moved
  rw [List.lookup_cons, beq_false_of_ne h]

theorem moved_of_notMem (h : ∀ r ∈ rs, r.1 ≠ key) : moved rs key = key := by
  induction rs with
  | nil => rfl
  | cons r rs ih =>
    rw [moved_cons_of_ne (h r (List.mem_cons_self ..)).symm]
    exact ih fun r' hr' => h r' (List.mem_cons_of_mem _ hr')

/-- The renames are of different keys, which are all there, and none is to the key itself. -/
structure Proper (rs : List (String × String)) (m : Map) : Prop where
  nodup : (rs.map Prod.fst).Nodup
  there : ∀ r ∈ rs, ∃ value, Map.get r.1 m = some value
  moves : ∀ r ∈ rs, r.2 ≠ r.1

theorem moved_of_mem (hnodup : (rs.map Prod.fst).Nodup) {r : String × String} (h : r ∈ rs) : moved rs r.1 = r.2 := by
  induction rs with
  | nil => exact absurd h List.not_mem_nil
  | cons r' rs ih =>
    obtain ⟨hnot, hrest⟩ := List.nodup_cons.1 hnodup
    rcases List.mem_cons.1 h with rfl | h
    · exact moved_cons_self ..
    · have hne : r.1 ≠ r'.1 := fun heq => hnot (heq ▸ List.mem_map_of_mem h)
      rw [moved_cons_of_ne hne]
      exact ih hrest h

/-- At its turn, each rename finds its new name free. -/
def Free : List (String × String) → Map → Prop
  | [], _ => True
  | r :: rs, m => Map.get r.2 m = none ∧ Free rs (applyRename m r)

theorem get_applyRename {r : String × String} (hget : Map.get r.1 m = some value) (key : String) :
    Map.get key (applyRename m r) =
      if key = r.2 then some value else if key = r.1 then none else Map.get key m := by
  unfold applyRename
  rw [hget]
  dsimp only
  rw [Map.get_insert, Map.get_remove]

theorem get_applyRename_self {r : String × String} (h : r.2 ≠ r.1) : Map.get r.1 (applyRename m r) = none := by
  cases hget : Map.get r.1 m with
  | none =>
    unfold applyRename
    rw [hget]
    exact hget
  | some value => rw [get_applyRename hget, if_neg h.symm, if_pos rfl]

theorem applyRename_sorted (hm : m.Sorted) (r : String × String) : (applyRename m r).Sorted := by
  unfold applyRename
  split
  · exact Map.insert_sorted (Map.remove_sorted hm _) _ _
  · exact hm

namespace Proper

variable {r : String × String}

theorem head (h : Proper (r :: rs) m) : ∃ value, Map.get r.1 m = some value := h.there r (List.mem_cons_self ..)

theorem head_ne (h : Proper (r :: rs) m) : ∀ r' ∈ rs, r'.1 ≠ r.1 := by
  intro r' hr' heq
  exact (List.nodup_cons.1 h.nodup).1 (heq ▸ List.mem_map_of_mem hr')

/-- The keys that wait for their turn stay where they are. -/
theorem tail (h : Proper (r :: rs) m) : Proper rs (applyRename m r) := by
  refine ⟨(List.nodup_cons.1 h.nodup).2, fun r' hr' => ?_, fun r' hr' => h.moves r' (List.mem_cons_of_mem _ hr')⟩
  obtain ⟨value, hget⟩ := h.head
  rw [get_applyRename hget, if_neg (h.head_ne r' hr')]
  split_ifs
  · exact ⟨value, rfl⟩
  · exact h.there r' (List.mem_cons_of_mem _ hr')

/-- A rename to a free name keeps the number of entries, one to a name in use loses one. -/
theorem length_applyRename (h : Proper (r :: rs) m) (hm : m.Sorted) :
    (applyRename m r).length ≤ m.length ∧ ((applyRename m r).length = m.length ↔ Map.get r.2 m = none) := by
  obtain ⟨value, hget⟩ := h.head
  have hremove : (Map.remove r.1 m).length + 1 = m.length := Map.length_remove_of_get hm hget
  have hother : Map.get r.2 (Map.remove r.1 m) = Map.get r.2 m := by
    rw [Map.get_remove, if_neg (h.moves r (List.mem_cons_self ..))]
  unfold applyRename
  rw [hget]
  dsimp only
  cases hfree : Map.get r.2 m with
  | none =>
    rw [Map.length_insert_of_new (hother.trans hfree)]
    exact ⟨by omega, by simpa using hremove⟩
  | some old =>
    rw [Map.length_insert_of_get (Map.remove_sorted hm _) (hother.trans hfree)]
    refine ⟨by omega, ⟨fun heq => ?_, fun hno => nomatch hno⟩⟩
    omega

/-- The number of entries is kept exactly if every new name is free at its turn. -/
theorem length_foldl (h : Proper rs m) (hm : m.Sorted) :
    (rs.foldl applyRename m).length ≤ m.length ∧ ((rs.foldl applyRename m).length = m.length ↔ Free rs m) := by
  induction rs generalizing m with
  | nil => exact ⟨le_rfl, by simp [Free]⟩
  | cons r rs ih =>
    obtain ⟨hle, hiff⟩ := h.length_applyRename hm
    obtain ⟨hle', hiff'⟩ := ih h.tail (applyRename_sorted hm r)
    rw [List.foldl_cons]
    unfold Free
    rw [← hiff, ← hiff']
    refine ⟨hle'.trans hle, ?_⟩
    omega

/-- If the first new name is free, the other renames go on from where the first leaves the keys. -/
theorem moved_cons (h : Proper (r :: rs) m) (hfree : Map.get r.2 m = none) (key : String) :
    moved (r :: rs) key = moved rs (if key = r.1 then r.2 else key) := by
  have hlater : ∀ r' ∈ rs, r'.1 ≠ r.2 := by
    intro r' hr' heq
    obtain ⟨_, hthere⟩ := h.there r' (List.mem_cons_of_mem _ hr')
    rw [heq, hfree] at hthere
    exact nomatch hthere
  split_ifs with heq
  · rw [heq, moved_cons_self, moved_of_notMem hlater]
  · exact moved_cons_of_ne heq rs

theorem get_applyRename_moved (h : Proper (r :: rs) m) (hfree : Map.get r.2 m = none)
    (hkey : Map.get key m = some value) :
    Map.get (if key = r.1 then r.2 else key) (applyRename m r) = some value := by
  obtain ⟨old, hget⟩ := h.head
  rw [get_applyRename hget]
  by_cases heq : key = r.1
  · rw [if_pos heq, if_pos rfl, ← hget, ← heq, hkey]
  · have hne : key ≠ r.2 := by
      rintro rfl
      exact nomatch hfree.symm.trans hkey
    rw [if_neg heq, if_neg hne, if_neg heq, hkey]

theorem get_foldl (h : Proper rs m) (hfree : Free rs m) (hkey : Map.get key m = some value) :
    Map.get (moved rs key) (rs.foldl applyRename m) = some value := by
  induction rs generalizing m key with
  | nil => exact hkey
  | cons r rs ih =>
    rw [h.moved_cons hfree.1]
    exact ih h.tail hfree.2 (h.get_applyRename_moved hfree.1 hkey)

theorem moved_injective (h : Proper rs m) (hfree : Free rs m) {value' : Value} (hkey : Map.get key m = some value)
    (hother : Map.get other m = some value') (heq : moved rs key = moved rs other) : key = other := by
  induction rs generalizing m key other with
  | nil => exact heq
  | cons r rs ih =>
    rw [h.moved_cons hfree.1, h.moved_cons hfree.1] at heq
    have hsame := ih h.tail hfree.2 (h.get_applyRename_moved hfree.1 hkey) (h.get_applyRename_moved hfree.1 hother) heq
    split_ifs at hsame with hk ho ho
    · rw [hk, ho]
    · rw [← hsame, hfree.1] at hother
      exact nomatch hother
    · rw [hsame, hfree.1] at hkey
      exact nomatch hkey
    · exact hsame

end Proper

/-! ## The renames of an object -/

section Renames

variable {keys : List String}

theorem renamed_prefixed (keys : List String) (name : String) : renamed keys ("@" ++ name) = name := by
  unfold renamed
  rw [stripAt_append]

theorem prefixed_ne (name : String) : "@" ++ name ≠ name := by
  intro h
  have hlength := congrArg String.length h
  rw [String.length_append] at hlength
  have hat : "@".length = 1 := rfl
  omega

/-- Only prefixed keys and the text get another name. -/
theorem renamed_ne_iff {name : String} : renamed keys key = name ∧ name ≠ key ↔
    key = "@" ++ name ∨ (key = "#text" ∧ name = "name" ∧ "name" ∉ keys) := by
  unfold renamed
  cases hstrip : stripAt key with
  | some stripped =>
    obtain rfl := stripAt_eq_some_iff.1 hstrip
    have htext : "@" ++ stripped ≠ "#text" := by
      intro h
      have hat := stripAt_append stripped
      rw [h] at hat
      have hno : stripAt "#text" = none := by decide
      exact nomatch hno.symm.trans hat
    dsimp only
    constructor
    · rintro ⟨rfl, -⟩
      exact .inl rfl
    · rintro (h | ⟨h, -⟩)
      · rw [← stripAt_eq_some_iff, hstrip] at h
        obtain rfl := Option.some.inj h
        exact ⟨rfl, (prefixed_ne stripped).symm⟩
      · exact absurd h htext
  | none =>
    have hplain : key ≠ "@" ++ name := fun h => nomatch hstrip.symm.trans (stripAt_eq_some_iff.2 h)
    dsimp only
    split_ifs with htext
    · constructor
      · rintro ⟨rfl, -⟩
        exact .inr ⟨htext.1, rfl, htext.2⟩
      · rintro (h | ⟨rfl, rfl, -⟩)
        · exact absurd h hplain
        · exact ⟨rfl, by decide⟩
    · constructor
      · rintro ⟨rfl, hne⟩
        exact absurd rfl hne
      · rintro (h | ⟨rfl, -, hno⟩)
        · exact absurd h hplain
        · exact absurd ⟨rfl, hno⟩ htext

theorem mem_renames_iff {r : String × String} :
    r ∈ renames keys ↔ r.1 ∈ keys ∧ renamed keys r.1 = r.2 ∧ r.2 ≠ r.1 := by
  rw [renamed_ne_iff]
  unfold renames
  rw [List.mem_filterMap]
  constructor
  · rintro ⟨key, hkey, hr⟩
    cases hstrip : stripAt key with
    | some stripped =>
      rw [hstrip] at hr
      obtain rfl := Option.some.inj hr
      exact ⟨hkey, .inl (stripAt_eq_some_iff.1 hstrip)⟩
    | none =>
      rw [hstrip] at hr
      dsimp only at hr
      split_ifs at hr with htext
      obtain rfl := Option.some.inj hr
      exact ⟨hkey, .inr ⟨htext.1, rfl, htext.2⟩⟩
  · rintro ⟨hkey, hname⟩
    refine ⟨r.1, hkey, ?_⟩
    rcases hname with hname | ⟨htext, hname, hno⟩
    · rw [stripAt_eq_some_iff.2 hname]
    · have hplain : stripAt r.1 = none := htext ▸ by decide
      rw [hplain]
      dsimp only
      rw [if_pos ⟨htext, hno⟩, ← hname]

theorem proper_renames (hm : m.Sorted) : Proper (renames (m.map Prod.fst)) m := by
  refine ⟨renames_nodup hm.nodup_keys, fun r hr => ?_, fun r hr => (mem_renames_iff.1 hr).2.2⟩
  rw [← Map.containsKey_iff, Map.containsKey_iff_mem]
  exact (mem_renames_iff.1 hr).1

theorem moved_renames (hnodup : keys.Nodup) (hkey : key ∈ keys) : moved (renames keys) key = renamed keys key := by
  by_cases hsame : renamed keys key = key
  · rw [hsame]
    refine moved_of_notMem fun r hr heq => ?_
    obtain ⟨-, hname, hne⟩ := mem_renames_iff.1 hr
    rw [heq, hsame] at hname
    exact hne (hname.symm.trans heq.symm)
  · exact moved_of_mem (renames_nodup hnodup) (r := (key, _)) (mem_renames_iff.2 ⟨hkey, rfl, hsame⟩)

end Renames

/-- An object keeps every value exactly if each new name is free at its turn. -/
theorem lossless_iff_free (hm : m.Sorted) :
    Lossless m ((renames (m.map Prod.fst)).foldl applyRename m) ↔ Free (renames (m.map Prod.fst)) m := by
  have hproper : Proper (renames (m.map Prod.fst)) m := proper_renames hm
  have hmoved : ∀ {key : String}, key ∈ m.map Prod.fst →
      moved (renames (m.map Prod.fst)) key = renamed (m.map Prod.fst) key := moved_renames hm.nodup_keys
  have hthere : ∀ {key : String}, key ∈ m.map Prod.fst → ∃ value, Map.get key m = some value := by
    intro key hkey
    rwa [← Map.containsKey_iff, Map.containsKey_iff_mem]
  refine ⟨fun h => (hproper.length_foldl hm).2.1 h.length, fun h => ?_⟩
  refine ⟨(hproper.length_foldl hm).2.2 h, fun key hkey other hother heq => ?_, fun key value hget => ?_⟩
  · obtain ⟨_, hget⟩ := hthere hkey
    obtain ⟨_, hget'⟩ := hthere hother
    rw [← hmoved hkey, ← hmoved hother] at heq
    exact hproper.moved_injective h hget hget' heq
  · rw [← hmoved (List.mem_map_of_mem (Map.mem_of_get hget))]
    exact hproper.get_foldl h hget

/-! ## Clashes -/

/-- Two keys of the object end under one name: the text and the attribute `name`, or an attribute and the child of its
name. That child is safe only if it is renamed itself before its place is taken. -/
def Clash (keys : List String) : Prop :=
  ("#text" ∈ keys ∧ "@name" ∈ keys ∧ "name" ∉ keys) ∨
    ∃ name ∈ keys, "@" ++ name ∈ keys ∧ (renamed keys name = name ∨ "@" ++ name < name)

instance : DecidablePred Clash := fun keys =>
  inferInstanceAs (Decidable (("#text" ∈ keys ∧ "@name" ∈ keys ∧ "name" ∉ keys) ∨
    ∃ name ∈ keys, "@" ++ name ∈ keys ∧ (renamed keys name = name ∨ "@" ++ name < name)))

theorem free_append {pre : List (String × String)} :
    Free (pre ++ rs) m ↔ Free pre m ∧ Free rs (pre.foldl applyRename m) := by
  induction pre generalizing m with
  | nil => simp [Free]
  | cons r pre ih =>
    rw [List.cons_append, List.foldl_cons]
    show Map.get r.2 m = none ∧ Free (pre ++ rs) (applyRename m r) ↔
      (Map.get r.2 m = none ∧ Free pre (applyRename m r)) ∧ Free rs (pre.foldl applyRename (applyRename m r))
    rw [ih, and_assoc]

theorem exists_of_not_free (h : ¬Free rs m) :
    ∃ pre r post, rs = pre ++ r :: post ∧ ∃ value, Map.get r.2 (pre.foldl applyRename m) = some value := by
  induction rs generalizing m with
  | nil => exact absurd trivial h
  | cons r rs ih =>
    cases hget : Map.get r.2 m with
    | some value => exact ⟨[], r, rs, rfl, value, hget⟩
    | none =>
      obtain ⟨pre, r', post, rfl, hvalue⟩ := ih (m := applyRename m r) fun hfree => h ⟨hget, hfree⟩
      exact ⟨r :: pre, r', post, rfl, hvalue⟩

theorem get_foldl_of_untouched (h : ∀ r ∈ rs, r.1 ≠ key ∧ r.2 ≠ key) :
    Map.get key (rs.foldl applyRename m) = Map.get key m := by
  induction rs generalizing m with
  | nil => rfl
  | cons r rs ih =>
    obtain ⟨hold, hnew⟩ := h r (List.mem_cons_self ..)
    refine (ih fun r' hr' => h r' (List.mem_cons_of_mem _ hr')).trans ?_
    cases hget : Map.get r.1 m with
    | none =>
      unfold applyRename
      rw [hget]
    | some value => rw [get_applyRename hget, if_neg hnew.symm, if_neg hold.symm]

/-- A key that waits for its turn is still there, though maybe with another value. -/
theorem get_foldl_of_wait (hkey : ∀ r ∈ rs, r.1 ≠ key) (h : ∃ value, Map.get key m = some value) :
    ∃ value, Map.get key (rs.foldl applyRename m) = some value := by
  induction rs generalizing m with
  | nil => exact h
  | cons r rs ih =>
    refine ih (fun r' hr' => hkey r' (List.mem_cons_of_mem _ hr')) ?_
    cases hget : Map.get r.1 m with
    | none =>
      unfold applyRename
      rw [hget]
      exact h
    | some value =>
      rw [get_applyRename hget, if_neg (hkey r (List.mem_cons_self ..)).symm]
      split_ifs
      · exact ⟨value, rfl⟩
      · exact h

/-- A key that is there was there and waits for its turn, or it is the new name of another. -/
theorem of_get_foldl (h : ∃ value, Map.get key (rs.foldl applyRename m) = some value) :
    (∃ r ∈ rs, r.2 = key) ∨ ((∃ value, Map.get key m = some value) ∧ ∀ r ∈ rs, r.1 ≠ key) := by
  induction rs generalizing m with
  | nil => exact .inr ⟨h, fun r hr => absurd hr List.not_mem_nil⟩
  | cons r rs ih =>
    rcases ih h with ⟨r', hr', heq⟩ | ⟨⟨value, hthere⟩, hwait⟩
    · exact .inl ⟨r', List.mem_cons_of_mem _ hr', heq⟩
    cases hget : Map.get r.1 m with
    | none =>
      have hsame : applyRename m r = m := by
        unfold applyRename
        rw [hget]
      rw [hsame] at hthere
      refine .inr ⟨⟨value, hthere⟩, fun r' hr' => ?_⟩
      rcases List.mem_cons.1 hr' with rfl | hr'
      · rintro rfl
        exact nomatch hget.symm.trans hthere
      · exact hwait r' hr'
    | some old =>
      rw [get_applyRename hget] at hthere
      split_ifs at hthere with hnew hold
      · exact .inl ⟨r, List.mem_cons_self .., hnew.symm⟩
      · refine .inr ⟨⟨value, hthere⟩, fun r' hr' => ?_⟩
        rcases List.mem_cons.1 hr' with rfl | hr'
        · exact fun heq => hold heq.symm
        · exact hwait r' hr'

/-- The renames stand in the order of the keys. -/
theorem renames_split (hm : m.Sorted) {pre post : List (String × String)} {r : String × String}
    (hsplit : renames (m.map Prod.fst) = pre ++ r :: post) : (∀ r' ∈ pre, r'.1 < r.1) ∧ ∀ r' ∈ post, r.1 < r'.1 := by
  have hordered : ((renames (m.map Prod.fst)).map Prod.fst).Pairwise (· < ·) :=
    (List.pairwise_map.2 hm).sublist (renames_sublist _)
  rw [hsplit, List.map_append, List.pairwise_append] at hordered
  constructor
  · intro r' hr'
    exact hordered.2.2 r'.1 (List.mem_map_of_mem hr') r.1 (List.mem_map_of_mem (List.mem_cons_self ..))
  · intro r' hr'
    exact (List.pairwise_cons.1 hordered.2.1).1 _ (List.mem_map_of_mem hr')

/-- A key that clashes with a later one finds its place taken. -/
theorem not_free_of_taken (hm : m.Sorted) {name : String} (hprefixed : "@" ++ name ∈ m.map Prod.fst)
    (hname : name ∈ m.map Prod.fst) (h : renamed (m.map Prod.fst) name = name ∨ "@" ++ name < name) :
    ¬Free (renames (m.map Prod.fst)) m := by
  have hmem : ("@" ++ name, name) ∈ renames (m.map Prod.fst) :=
    mem_renames_iff.2 ⟨hprefixed, renamed_prefixed _ name, (prefixed_ne name).symm⟩
  obtain ⟨pre, post, hsplit⟩ := List.append_of_mem hmem
  have hwait : ∀ r ∈ pre, r.1 ≠ name := by
    rintro r hr rfl
    rcases h with h | h
    · obtain ⟨-, hr, hne⟩ := mem_renames_iff.1 (hsplit ▸ List.mem_append_left _ hr)
      exact hne (hr.symm.trans h)
    · have hlt : r.1 < "@" ++ r.1 := (renames_split hm hsplit).1 r hr
      exact absurd hlt h.asymm
  rw [hsplit, free_append]
  rintro ⟨-, hnone, -⟩
  obtain ⟨value, hget⟩ := get_foldl_of_wait hwait
    (Map.containsKey_iff.1 (Map.containsKey_iff_mem.2 hname))
  exact nomatch hnone.symm.trans hget

/-- The text takes the new name of an attribute, or the other way round. -/
theorem not_free_of_text (hm : m.Sorted) (htext : "#text" ∈ m.map Prod.fst) (hname : "@name" ∈ m.map Prod.fst)
    (hno : "name" ∉ m.map Prod.fst) : ¬Free (renames (m.map Prod.fst)) m := by
  intro hfree
  have hrenamed : renamed (m.map Prod.fst) "#text" = "name" := (renamed_ne_iff.2 (.inr ⟨rfl, rfl, hno⟩)).1
  have hsame : "#text" = "@name" := by
    apply ((lossless_iff_free hm).2 hfree).distinct _ htext _ hname
    rw [hrenamed]
    exact (renamed_prefixed _ "name").symm
  exact absurd hsame (by decide)

/-- A rename to a name in use comes from a clash. -/
theorem clash_of_taken (hm : m.Sorted) {pre post : List (String × String)} {r : String × String}
    (hsplit : renames (m.map Prod.fst) = pre ++ r :: post)
    (h : ∃ value, Map.get r.2 (pre.foldl applyRename m) = some value) : Clash (m.map Prod.fst) := by
  have hmem : r ∈ renames (m.map Prod.fst) := hsplit ▸ List.mem_append_right _ (List.mem_cons_self ..)
  have hname : r.1 = "@" ++ r.2 ∨ (r.1 = "#text" ∧ r.2 = "name" ∧ "name" ∉ m.map Prod.fst) :=
    renamed_ne_iff.1 (mem_renames_iff.1 hmem).2
  obtain ⟨hbefore, hafter⟩ := renames_split hm hsplit
  rcases of_get_foldl h with ⟨r', hr', heq⟩ | ⟨hthere, hwait⟩
  · -- two renames to one name: of the text and of the attribute
    have hmem' : r' ∈ renames (m.map Prod.fst) := hsplit ▸ List.mem_append_left _ hr'
    have hname' := renamed_ne_iff.1 (mem_renames_iff.1 hmem').2
    have hlt : r'.1 < r.1 := hbefore r' hr'
    rw [heq] at hname'
    rcases hname with hname | ⟨htext, hto, hno⟩ <;> rcases hname' with hname' | ⟨htext', hto', hno'⟩
    · exact absurd (hname'.trans hname.symm) hlt.ne
    · refine .inl ⟨htext' ▸ (mem_renames_iff.1 hmem').1, ?_, hno'⟩
      have hkey := (mem_renames_iff.1 hmem).1
      rwa [hname, hto'] at hkey
    · refine .inl ⟨htext ▸ (mem_renames_iff.1 hmem).1, ?_, hno⟩
      have hkey := (mem_renames_iff.1 hmem').1
      rwa [hname', hto] at hkey
    · exact absurd (htext'.trans htext.symm) hlt.ne
  · -- the name is a key that has not been renamed yet
    have hkey : r.2 ∈ m.map Prod.fst := Map.containsKey_iff_mem.1 (Map.containsKey_iff.2 hthere)
    rcases hname with hname | ⟨-, hto, hno⟩
    · refine .inr ⟨r.2, hkey, hname ▸ (mem_renames_iff.1 hmem).1, ?_⟩
      by_cases hsame : renamed (m.map Prod.fst) r.2 = r.2
      · exact .inl hsame
      · have hlater : (r.2, renamed (m.map Prod.fst) r.2) ∈ pre ++ r :: post :=
          hsplit ▸ mem_renames_iff.2 ⟨hkey, rfl, hsame⟩
        rcases List.mem_append.1 hlater with hpre | hlater
        · exact absurd rfl (hwait _ hpre)
        rcases List.mem_cons.1 hlater with heq | hpost
        · exact absurd (congrArg Prod.fst heq) (mem_renames_iff.1 hmem).2.2
        · right
          rw [← hname]
          exact hafter _ hpost
    · exact absurd (hto ▸ hkey) hno

theorem free_iff_not_clash (hm : m.Sorted) : Free (renames (m.map Prod.fst)) m ↔ ¬Clash (m.map Prod.fst) := by
  constructor
  · rintro hfree (⟨htext, hname, hno⟩ | ⟨name, hname, hprefixed, h⟩)
    · exact not_free_of_text hm htext hname hno hfree
    · exact not_free_of_taken hm hprefixed hname h hfree
  · intro hclash
    by_contra hfree
    obtain ⟨pre, r, post, hsplit, hthere⟩ := exists_of_not_free hfree
    exact hclash (clash_of_taken hm hsplit hthere)

/-! ## Prefixes that stay -/

/-- A key has two prefixes, and its new name is not renamed after it. -/
def Residue (keys : List String) : Prop :=
  ∃ key ∈ keys, (stripAt (renamed keys key)).isSome ∧ ¬(renamed keys key ∈ keys ∧ key < renamed keys key)

instance : DecidablePred Residue := fun keys =>
  inferInstanceAs (Decidable (∃ key ∈ keys, (stripAt (renamed keys key)).isSome ∧
    ¬(renamed keys key ∈ keys ∧ key < renamed keys key)))

theorem renamed_ne_of_prefixed {keys : List String} (h : (stripAt key).isSome) : renamed keys key ≠ key := by
  obtain ⟨name, hname⟩ := Option.isSome_iff_exists.1 h
  obtain rfl := stripAt_eq_some_iff.1 hname
  rw [renamed_prefixed]
  exact (prefixed_ne name).symm

theorem prefixed_of_residue (hm : m.Sorted) (h : Residue (m.map Prod.fst)) :
    ∃ e ∈ (renames (m.map Prod.fst)).foldl applyRename m, (stripAt e.1).isSome := by
  obtain ⟨key, hkey, hprefixed, hlate⟩ := h
  have hne : renamed (m.map Prod.fst) key ≠ key := by
    intro heq
    rw [heq] at hprefixed
    exact renamed_ne_of_prefixed hprefixed heq
  have hmem : (key, renamed (m.map Prod.fst) key) ∈ renames (m.map Prod.fst) := mem_renames_iff.2 ⟨hkey, rfl, hne⟩
  obtain ⟨pre, post, hsplit⟩ := List.append_of_mem hmem
  have hwait : ∀ r ∈ post, r.1 ≠ renamed (m.map Prod.fst) key := by
    intro r hr heq
    have hr' : r ∈ renames (m.map Prod.fst) := hsplit ▸ List.mem_append_right _ (List.mem_cons_of_mem _ hr)
    exact hlate ⟨heq ▸ (mem_renames_iff.1 hr').1, heq ▸ (renames_split hm hsplit).2 r hr⟩
  have hstays : ∃ value, Map.get key (pre.foldl applyRename m) = some value := by
    refine get_foldl_of_wait (fun r hr => ?_) (Map.containsKey_iff.1 (Map.containsKey_iff_mem.2 hkey))
    exact ((renames_split hm hsplit).1 r hr).ne
  obtain ⟨value, hvalue⟩ := hstays
  have hthere := get_foldl_of_wait (m := applyRename (pre.foldl applyRename m) (key, renamed (m.map Prod.fst) key))
    hwait ⟨value, by rw [get_applyRename hvalue, if_pos rfl]⟩
  obtain ⟨last, hlast⟩ := hthere
  rw [hsplit, List.foldl_append, List.foldl_cons]
  exact ⟨_, Map.mem_of_get hlast, hprefixed⟩

theorem residue_of_prefixed (hm : m.Sorted) (hthere : ∃ value,
    Map.get key ((renames (m.map Prod.fst)).foldl applyRename m) = some value) (hprefixed : (stripAt key).isSome) :
    Residue (m.map Prod.fst) := by
  have hfrom : ∀ r ∈ renames (m.map Prod.fst), r.2 = key → r.1 = "@" ++ key := by
    rintro r hr rfl
    rcases renamed_ne_iff.1 (mem_renames_iff.1 hr).2 with h | ⟨-, hname, -⟩
    · exact h
    · rw [hname] at hprefixed
      exact absurd hprefixed (by decide)
  have hleaves : key ∈ m.map Prod.fst →
      (key, renamed (m.map Prod.fst) key) ∈ renames (m.map Prod.fst) := fun hkey =>
    mem_renames_iff.2 ⟨hkey, rfl, renamed_ne_of_prefixed hprefixed⟩
  rcases of_get_foldl hthere with ⟨r, hr, rfl⟩ | ⟨hkey, hwait⟩
  · obtain ⟨hkeys, hname, -⟩ := mem_renames_iff.1 hr
    refine ⟨r.1, hkeys, hname ▸ hprefixed, ?_⟩
    rw [hname]
    rintro ⟨hkey, hlt⟩
    obtain ⟨pre, post, hsplit⟩ := List.append_of_mem (hleaves hkey)
    rw [hsplit, List.foldl_append, List.foldl_cons] at hthere
    rcases of_get_foldl hthere with ⟨r', hr', heq⟩ | ⟨⟨value, hget⟩, -⟩
    · have hmem : r' ∈ renames (m.map Prod.fst) := hsplit ▸ List.mem_append_right _ (List.mem_cons_of_mem _ hr')
      have hgt : r.2 < r'.1 := (renames_split hm hsplit).2 r' hr'
      rw [hfrom r' hmem heq, ← hfrom r hr rfl] at hgt
      exact absurd hgt hlt.asymm
    · have hne : renamed (m.map Prod.fst) r.2 ≠ r.2 := renamed_ne_of_prefixed hprefixed
      have hgone := get_applyRename_self (m := pre.foldl applyRename m) (r := (r.2, renamed (m.map Prod.fst) r.2)) hne
      exact nomatch hgone.symm.trans hget
  · have hmem := hleaves (Map.containsKey_iff_mem.1 (Map.containsKey_iff.2 hkey))
    exact absurd rfl (hwait _ hmem)

/-- No key of the result has a prefix exactly if none of the object stays with one. -/
theorem unprefixed_iff (hm : m.Sorted) :
    (∀ e ∈ (renames (m.map Prod.fst)).foldl applyRename m, stripAt e.1 = none) ↔ ¬Residue (m.map Prod.fst) := by
  constructor
  · intro h hresidue
    obtain ⟨e, he, hprefixed⟩ := prefixed_of_residue hm hresidue
    rw [h e he] at hprefixed
    exact absurd hprefixed (by decide)
  · intro h e he
    by_contra hprefixed
    have hget := Map.containsKey_iff.1 (Map.containsKey_iff_mem.2 (List.mem_map_of_mem he))
    exact h (residue_of_prefixed hm hget (Option.isSome_iff_ne_none.2 hprefixed))

/-- In an object that the parser makes, no value is overwritten by another exactly if no two of its keys clash. -/
theorem stripAtPrefixes_lossless_iff {p : XmlParser} {receiver : Nat → Bool} {results : Option (List ReadResult)}
    {message : DataMessage} (hmessage : message ∈ (p.parseFile receiver results).2) {map : Map}
    (hwithin : Value.Within (.object map) message.data) :
    (∃ map', stripAtPrefixes (.object map) = .object map' ∧ Lossless map map') ↔ ¬Clash (map.map Prod.fst) := by
  obtain ⟨entries, hdata, hshaped, -⟩ := (XmlParser.parseFile_emitted hmessage).entries
  have hm : map.Sorted := (hwithin.ordered (hdata ▸ hshaped.ordered)).sorted
  rw [← free_iff_not_clash hm, ← lossless_iff_free hm]
  constructor
  · rintro ⟨map', heq, h⟩
    exact Value.object.inj heq ▸ h
  · exact fun h => ⟨_, rfl, h⟩

/-- `<label id="1"><sublabels><label ..>y</label></sublabels></label>`, the sublabel with one attribute. -/
def sublabelLabel (attr : String) : List ReadResult :=
  [.event (.start ⟨"labels", []⟩), .event (.start ⟨"label", [some ⟨"id", "1", some "1"⟩]⟩),
    .event (.start ⟨"sublabels", []⟩), .event (.start ⟨"label", [some ⟨attr, "x", some "x"⟩]⟩),
    .event (.chars (.text "y")), .event (.endTag "label"), .event (.endTag "sublabels"), .event (.endTag "label"),
    .event (.endTag "labels")]

def sublabel (attr : String) : Map := [("#text", .string "y"), ("@" ++ attr, .string "x")]

def sublabelMessage (attr : String) : DataMessage :=
  ⟨"1", "", .object [("@id", .string "1"), ("sublabels", .object [("label", .object (sublabel attr))])], none⟩

theorem sublabel_within (attr : String) :
    Value.Within (.object (sublabel attr)) (sublabelMessage attr).data := by
  apply Value.Within.entry (List.mem_cons_of_mem _ (List.mem_singleton_self _))
  apply Value.Within.entry (List.mem_singleton_self _)
  exact .self

theorem sublabel_id_lossless : ∃ map', stripAtPrefixes (.object (sublabel "id")) = .object map' ∧
    Lossless (sublabel "id") map' := by
  have hsent : sublabelMessage "id" ∈ ((⟨.labels, false⟩ : XmlParser).parseFile XmlParser.alive
      (some (sublabelLabel "id"))).2 := List.mem_singleton.2 rfl
  refine (stripAtPrefixes_lossless_iff hsent (sublabel_within "id")).2 ?_
  decide

/-- The text of a sublabel with a `name` attribute is overwritten. -/
theorem sublabel_name_not_lossless :
    sublabelMessage "name" ∈ ((⟨.labels, false⟩ : XmlParser).parseFile XmlParser.alive
        (some (sublabelLabel "name"))).2 ∧
      Value.Within (.object (sublabel "name")) (sublabelMessage "name").data ∧
      ¬∃ map', stripAtPrefixes (.object (sublabel "name")) = .object map' ∧ Lossless (sublabel "name") map' := by
  refine ⟨List.mem_singleton.2 rfl, sublabel_within "name", ?_⟩
  rintro ⟨map', heq, h⟩
  have hstrip : stripAtPrefixes (.object (sublabel "name")) = .object [("name", .string "x")] := rfl
  obtain rfl := Value.object.inj (hstrip.symm.trans heq)
  exact absurd h.length (by decide)

end DiscogsIngestion
