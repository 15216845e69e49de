import Mathlib.Data.String.Basic
import DiscogsIngestion.Types

/-!
# JSON objects as sorted maps

* `Map.Sorted` : the entries stand in the strict order of their keys, as a `BTreeMap` has them;
* `Map.ext` : a sorted map is known by what is found under each key;
* `Map.insertAll` : a run of insertions, and what is found after it;
* `Value.Ordered` : a value all of whose objects are sorted.
-/

namespace DiscogsIngestion

namespace Map

def Sorted (m : Map) : Prop := m.Pairwise fun a b => a.1 < b.1

variable {m m' : Map} {key other : String} {value old : Value}

theorem sorted_nil : Sorted [] := List.Pairwise.nil

theorem sorted_cons {e : String × Value} {rest : Map} :
    Sorted (e :: rest) ↔ (∀ e' ∈ rest, e.1 < e'.1) ∧ Sorted rest := List.pairwise_cons

/-- Another value under one of its keys leaves a map sorted. -/
theorem Sorted.middle {pre post : Map} (h : Sorted (pre ++ (key, value) :: post)) (value' : Value) :
    Sorted (pre ++ (key, value') :: post) := by
  have hkeys : ((pre ++ (key, value) :: post).map Prod.fst).Pairwise (· < ·) := List.pairwise_map.2 h
  apply List.pairwise_map.1
  rw [List.map_append, List.map_cons] at hkeys ⊢
  exact hkeys

/-! ## Lookups -/

theorem get_insert (key other : String) (value : Value) (m : Map) :
    get other (insert key value m) = if other = key then some value else get other m := by
  split_ifs with h
  · rw [h, get_insert_self]
  · exact get_insert_of_ne h value m

theorem get_eq_none_iff : get key m = none ↔ ∀ e ∈ m, e.1 ≠ key := by
  induction m with
  | nil => simp [get]
  | cons e rest ih =>
    unfold get
    split_ifs with h
    · simp [h]
    · simp [h, ih]

theorem mem_of_get (h : get key m = some value) : (key, value) ∈ m := by
  induction m with
  | nil => exact nomatch h
  | cons e rest ih =>
    unfold get at h
    split_ifs at h with hk
    · obtain rfl := Option.some.inj h
      exact hk ▸ List.mem_cons_self ..
    · exact List.mem_cons_of_mem _ (ih h)

theorem get_eq_some_iff (hm : m.Sorted) : get key m = some value ↔ (key, value) ∈ m := by
  refine ⟨mem_of_get, fun h => ?_⟩
  induction m with
  | nil => exact absurd h List.not_mem_nil
  | cons e rest ih =>
    obtain ⟨hlt, hrest⟩ := sorted_cons.1 hm
    unfold get
    rcases List.mem_cons.1 h with rfl | hmem
    · exact if_pos rfl
    · rw [if_neg (hlt _ hmem).ne]
      exact ih hrest hmem

theorem ext (hm : m.Sorted) (hm' : m'.Sorted) (h : ∀ key, get key m = get key m') : m = m' := by
  have hnodup : ∀ {m : Map}, m.Sorted → m.Nodup := fun hm => hm.imp fun hlt heq => (heq ▸ hlt).ne rfl
  refine List.Perm.eq_of_pairwise ?_ hm hm' ((List.perm_ext_iff_of_nodup (hnodup hm) (hnodup hm')).2 ?_)
  · intro a b _ _ hab hba
    exact absurd hba hab.asymm
  · rintro ⟨key, value⟩
    rw [← get_eq_some_iff hm, ← get_eq_some_iff hm', h]

/-! ## Operations -/

theorem mem_insert {e : String × Value} (h : e ∈ insert key value m) : e = (key, value) ∨ e ∈ m := by
  induction m with
  | nil => exact .inl (List.mem_singleton.1 h)
  | cons e' rest ih =>
    unfold insert at h
    split_ifs at h
    · exact (List.mem_cons.1 h).imp_right (List.mem_cons_of_mem _)
    · exact List.mem_cons.1 h
    · rcases List.mem_cons.1 h with rfl | h
      · exact .inr (List.mem_cons_self ..)
      · exact (ih h).imp_right (List.mem_cons_of_mem _)

theorem insert_sorted (hm : m.Sorted) (key : String) (value : Value) : (insert key value m).Sorted := by
  induction m with
  | nil => exact List.pairwise_singleton ..
  | cons e rest ih =>
    obtain ⟨hlt, hrest⟩ := sorted_cons.1 hm
    unfold insert
    split_ifs with heq hkey
    · exact sorted_cons.2 ⟨fun e' he' => heq ▸ hlt e' he', hrest⟩
    · refine sorted_cons.2 ⟨fun e' he' => ?_, hm⟩
      rcases List.mem_cons.1 he' with rfl | he'
      · exact hkey
      · exact hkey.trans (hlt e' he')
    · refine sorted_cons.2 ⟨fun e' he' => ?_, ih hrest⟩
      rcases mem_insert he' with rfl | he'
      · exact lt_of_le_of_ne (not_lt.1 hkey) heq
      · exact hlt e' he'

theorem remove_sorted (hm : m.Sorted) (key : String) : (remove key m).Sorted := hm.filter _

theorem get_remove (key other : String) (m : Map) :
    get other (remove key m) = if other = key then none else get other m := by
  induction m with
  | nil => simp [remove, get]
  | cons e rest ih =>
    unfold remove at ih ⊢
    by_cases hk : e.1 = key
    · rw [List.filter_cons_of_neg (by simpa using hk), ih, get]
      by_cases ho : other = key
      · rw [if_pos ho, if_pos ho]
      · rw [if_neg ho, if_neg ho, if_neg fun heq => ho (heq.symm.trans hk)]
    · rw [List.filter_cons_of_pos (by simpa using hk), get, ih, get]
      by_cases ho : e.1 = other
      · rw [if_pos ho, if_pos ho, if_neg fun heq => hk (ho.trans heq)]
      · rw [if_neg ho, if_neg ho]

theorem get_ne_none_iff : get key m ≠ none ↔ key ∈ m.map Prod.fst := by
  rw [Ne, get_eq_none_iff]
  simp

theorem containsKey_iff : containsKey key m = true ↔ ∃ value, get key m = some value := Option.isSome_iff_exists

theorem containsKey_iff_mem : containsKey key m = true ↔ key ∈ m.map Prod.fst := by
  unfold containsKey
  rw [Option.isSome_iff_ne_none, get_ne_none_iff]

theorem length_insert_of_new (h : get key m = none) (value : Value) : (insert key value m).length = m.length + 1 := by
  induction m with
  | nil => rfl
  | cons e rest ih =>
    have hne : ∀ e' ∈ e :: rest, e'.1 ≠ key := get_eq_none_iff.1 h
    unfold insert
    rw [if_neg (hne e (List.mem_cons_self ..))]
    split_ifs
    · rfl
    · rw [List.length_cons, List.length_cons, ih (get_eq_none_iff.2 fun e' he' => hne e' (List.mem_cons_of_mem _ he'))]

theorem length_insert_of_get (hm : m.Sorted) (h : get key m = some old) (value : Value) :
    (insert key value m).length = m.length := by
  induction m with
  | nil => exact nomatch h
  | cons e rest ih =>
    obtain ⟨hlt, hrest⟩ := sorted_cons.1 hm
    unfold insert
    split_ifs with heq hkey
    · rfl
    · rcases List.mem_cons.1 (mem_of_get h) with hmem | hmem
      · exact absurd (congrArg Prod.fst hmem).symm heq
      · exact absurd (hlt _ hmem) hkey.asymm
    · unfold get at h
      rw [if_neg heq] at h
      rw [List.length_cons, List.length_cons, ih hrest h]

theorem length_remove_of_get (hm : m.Sorted) (h : get key m = some old) : (remove key m).length + 1 = m.length := by
  have hinsert : insert key old (remove key m) = m := by
    refine ext (insert_sorted (remove_sorted hm key) key old) hm fun other => ?_
    rw [get_insert, get_remove]
    split_ifs with hkey
    · rw [hkey, h]
    · rfl
  have hnone : get key (remove key m) = none := by rw [get_remove, if_pos rfl]
  rw [← length_insert_of_new hnone old, hinsert]

/-! ## Runs of insertions -/

def insertAll (entries : List (String × Value)) (m : Map) : Map :=
  entries.foldl (fun m e => insert e.1 e.2 m) m

theorem insertAll_sorted (entries : List (String × Value)) (hm : m.Sorted) : (insertAll entries m).Sorted := by
  induction entries generalizing m with
  | nil => exact hm
  | cons e entries ih => exact ih (insert_sorted hm e.1 e.2)

theorem insertAll_eq_nil_iff {entries : List (String × Value)} : insertAll entries m = [] ↔ entries = [] ∧ m = [] := by
  induction entries generalizing m with
  | nil => simp [insertAll]
  | cons e entries ih =>
    have hrun : insertAll (e :: entries) m = insertAll entries (insert e.1 e.2 m) := rfl
    rw [hrun, ih]
    simp [insert_ne_nil]

theorem get_append (key : String) (m m' : Map) : get key (m ++ m') = (get key m).or (get key m') := by
  induction m with
  | nil => rfl
  | cons e rest ih =>
    rw [List.cons_append, get, get]
    split_ifs
    · rfl
    · exact ih

/-- The last entry for a key is found. -/
theorem get_insertAll (key : String) (entries : List (String × Value)) (m : Map) :
    get key (insertAll entries m) = (get key entries.reverse).or (get key m) := by
  induction entries generalizing m with
  | nil => rfl
  | cons e entries ih =>
    have hrun : insertAll (e :: entries) m = insertAll entries (insert e.1 e.2 m) := rfl
    rw [hrun, ih, List.reverse_cons, get_append, get_insert, Option.or_assoc]
    congr 1
    by_cases h : key = e.1
    · simp [get, h]
    · simp [get, h, Ne.symm h]

theorem get_perm {entries entries' : List (String × Value)} (hnodup : (entries.map Prod.fst).Nodup)
    (h : entries.Perm entries') (key : String) : get key entries = get key entries' := by
  induction h with
  | nil => rfl
  | cons e h ih =>
    unfold get
    rw [ih (List.nodup_cons.1 hnodup).2]
  | swap e e' l =>
    have hne : e.1 ≠ e'.1 := by
      intro heq
      exact (List.nodup_cons.1 hnodup).1 (heq ▸ List.mem_cons_self ..)
    simp only [get]
    split_ifs with h₁ h₂
    · exact absurd (h₂.trans h₁.symm) hne
    all_goals rfl
  | trans h₁ _ ih₁ ih₂ => exact (ih₁ hnodup).trans (ih₂ ((h₁.map Prod.fst).nodup_iff.1 hnodup))

theorem get_insertAll_of_nodup {entries : List (String × Value)} (hnodup : (entries.map Prod.fst).Nodup)
    (key : String) (m : Map) : get key (insertAll entries m) = (get key entries).or (get key m) := by
  rw [get_insertAll, get_perm hnodup (List.reverse_perm entries).symm]

theorem Sorted.nodup_keys (hm : m.Sorted) : (m.map Prod.fst).Nodup := by
  refine List.pairwise_map.2 (hm.imp fun hlt => ?_)
  exact hlt.ne

theorem insertAll_nil (hm : m.Sorted) : insertAll m [] = m := by
  refine ext (insertAll_sorted m sorted_nil) hm fun key => ?_
  rw [get_insertAll_of_nodup hm.nodup_keys]
  exact Option.or_none

theorem mem_insertAll {e : String × Value} {entries : List (String × Value)} (h : e ∈ insertAll entries m) :
    e ∈ entries ∨ e ∈ m := by
  induction entries generalizing m with
  | nil => exact .inr h
  | cons e' entries ih =>
    rcases ih h with h | h
    · exact .inl (List.mem_cons_of_mem _ h)
    · refine (mem_insert h).imp_left fun heq => ?_
      rw [heq]
      exact List.mem_cons_self ..

theorem mem_keys_insertAll {entries : List (String × Value)} :
    key ∈ (insertAll entries m).map Prod.fst ↔ key ∈ entries.map Prod.fst ∨ key ∈ m.map Prod.fst := by
  rw [← get_ne_none_iff, get_insertAll, Ne, Option.or_eq_none_iff, not_and_or, ← Ne, ← Ne, get_ne_none_iff,
    get_ne_none_iff, List.map_reverse, List.mem_reverse]

end Map

namespace Value

inductive Ordered : Value → Prop where
  | null : Ordered .null
  | bool (b : Bool) : Ordered (.bool b)
  | number (n : Number) : Ordered (.number n)
  | string (s : String) : Ordered (.string s)
  | array {items : List Value} (h : ∀ v ∈ items, Ordered v) : Ordered (.array items)
  | object {entries : Map} (hs : Map.Sorted entries) (h : ∀ e ∈ entries, Ordered e.2) : Ordered (.object entries)

theorem Ordered.items {items : List Value} (h : Ordered (.array items)) : ∀ v ∈ items, v.Ordered := by
  cases h with
  | array h => exact h

theorem Ordered.sorted {entries : Map} (h : Ordered (.object entries)) : entries.Sorted := by
  cases h with
  | object hs _ => exact hs

theorem Ordered.entries {entries : Map} (h : Ordered (.object entries)) : ∀ e ∈ entries, e.2.Ordered := by
  cases h with
  | object _ h => exact h

variable {m : Map} {key : String} {value : Value}

theorem Ordered.get (h : Ordered (.object m)) (hget : Map.get key m = some value) : value.Ordered :=
  h.entries _ (Map.mem_of_get hget)

theorem Ordered.insert (h : Ordered (.object m)) (key : String) (hv : value.Ordered) :
    Ordered (.object (Map.insert key value m)) := by
  refine .object (Map.insert_sorted h.sorted _ _) fun e he => ?_
  rcases Map.mem_insert he with rfl | he
  · exact hv
  · exact h.entries e he

theorem Ordered.remove (h : Ordered (.object m)) (key : String) : Ordered (.object (Map.remove key m)) :=
  .object (Map.remove_sorted h.sorted _) fun e he => h.entries e (List.mem_of_mem_filter he)

end Value

end DiscogsIngestion
