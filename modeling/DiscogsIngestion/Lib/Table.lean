import Mathlib.Algebra.GroupWithZero.Nat
import Mathlib.Data.List.AList

/-!
# Tables

Finite maps from keys to values, after the hash maps of a program that reads, changes and sums them.

* `Table` : an association list without repeated keys;
* `modify`, `upsert`, `mapValues` : a change in place, when the key is there or in any case, and one of every value;
* `values`, `count`, `total` : the values, how many satisfy a predicate, and the sum of a number that each has;
* `absorb` : the entries of another table are added;
* `IsListing` : the entries in the order in which an iteration happens to meet them;
* `collect` : the table that an iteration fills; the last entry for a key stands;
* `group` : the table that has, for each key, the list of its values.
-/

abbrev Table (κ α : Type) := AList fun _ : κ => α

namespace Table

variable {κ α γ : Type} [DecidableEq κ] {t : Table κ α} {k j : κ} {v : α}

def modify (t : Table κ α) (k : κ) (f : α → α) : Table κ α :=
  match t.lookup k with
  | some v => t.insert k (f v)
  | none => t

/-- Change the value under a key, which is taken to be the default if there is none. -/
def upsert (t : Table κ α) (k : κ) (default : α) (f : α → α) : Table κ α := t.insert k (f ((t.lookup k).getD default))

def mapValues (g : α → γ) (t : Table κ α) : Table κ γ := ⟨t.entries.map (.map id fun _ => g), t.nodupKeys.map₂ _ _⟩

def values (t : Table κ α) : List α := t.entries.map Sigma.snd

def count (p : α → Bool) (t : Table κ α) : Nat := (t.values.filter p).length

def total (n : α → Nat) (t : Table κ α) : Nat := (t.values.map n).sum

theorem lookup_insert_eq (t : Table κ α) (k j : κ) (v : α) :
    (t.insert k v).lookup j = if j = k then some v else t.lookup j := by
  split_ifs with h
  · rw [h, AList.lookup_insert]
  · rw [AList.lookup_insert_ne h]

theorem lookup_erase_eq (t : Table κ α) (k j : κ) :
    (t.erase k).lookup j = if j = k then none else t.lookup j := by
  split_ifs with h
  · rw [h, AList.lookup_erase]
  · rw [AList.lookup_erase_ne h]

theorem lookup_modify (t : Table κ α) (k j : κ) (f : α → α) :
    (t.modify k f).lookup j = if j = k then (t.lookup k).map f else t.lookup j := by
  cases h : t.lookup k with
  | none =>
    have hmod : t.modify k f = t := by simp [modify, h]
    rw [hmod]
    split_ifs with hj
    · rw [hj, h, Option.map_none]
    · rfl
  | some v =>
    have hmod : t.modify k f = t.insert k (f v) := by simp [modify, h]
    rw [hmod, lookup_insert_eq, Option.map_some]

theorem lookup_upsert (t : Table κ α) (k j : κ) (default : α) (f : α → α) :
    (t.upsert k default f).lookup j = if j = k then some (f ((t.lookup k).getD default)) else t.lookup j := by
  unfold upsert
  exact lookup_insert_eq ..

theorem lookup_mapValues (g : α → γ) (t : Table κ α) (k : κ) : (t.mapValues g).lookup k = (t.lookup k).map g :=
  List.dlookup_map₂ k

theorem mem_entries_iff : ⟨k, v⟩ ∈ t.entries ↔ t.lookup k = some v := (AList.mem_lookup_iff).symm

theorem count_pos_iff {p : α → Bool} : 0 < t.count p ↔ ∃ k v, t.lookup k = some v ∧ p v = true := by
  constructor
  · intro h
    obtain ⟨v, hv⟩ := List.exists_mem_of_length_pos h
    obtain ⟨hmem, hp⟩ := List.mem_filter.1 hv
    obtain ⟨⟨k, v'⟩, he, rfl⟩ := List.mem_map.1 hmem
    exact ⟨k, v', mem_entries_iff.1 he, hp⟩
  · rintro ⟨k, v, hv, hp⟩
    exact List.length_pos_of_mem (List.mem_filter.2 ⟨List.mem_map.2 ⟨_, mem_entries_iff.2 hv, rfl⟩, hp⟩)

/-! ## Sums -/

section Total

variable {n : α → Nat}

theorem total_congr {t t' : Table κ α} (h : ∀ k, t.lookup k = t'.lookup k) : total n t = total n t' := by
  have hperm : t.entries.Perm t'.entries := by
    refine List.lookup_ext t.nodupKeys t'.nodupKeys fun k v => ?_
    show v ∈ t.lookup k ↔ v ∈ t'.lookup k
    rw [h k]
  exact ((hperm.map Sigma.snd).map n).sum_nat

omit [DecidableEq κ] in
theorem total_comp (g : α → γ) (n : γ → Nat) (t : Table κ α) :
    total (fun v => n (g v)) t = total n (t.mapValues g) := by
  unfold total values mapValues
  rw [List.map_map, List.map_map, List.map_map]
  rfl

theorem total_eq_zero {t : Table κ α} (h : ∀ k, t.lookup k = none) : total n t = 0 := by
  have hempty : total n t = total n ∅ := total_congr h
  rw [hempty]
  rfl

theorem total_erase (t : Table κ α) (k : κ) (n : α → Nat) :
    total n (t.erase k) + (t.lookup k).elim 0 n = total n t := by
  obtain ⟨entries, hnodup⟩ := t
  show (((entries.kerase k).map Sigma.snd).map n).sum + (entries.dlookup k).elim 0 n =
    ((entries.map Sigma.snd).map n).sum
  clear hnodup
  induction entries with
  | nil => rfl
  | cons e rest ih =>
    obtain ⟨j, v⟩ := e
    by_cases hj : k = j
    · subst hj
      have hrest : (⟨k, v⟩ :: rest : List (Σ _ : κ, α)).kerase k = rest := List.kerase_cons_eq rfl
      rw [hrest, List.dlookup_cons_eq]
      simp only [List.map_cons, List.sum_cons, Option.elim_some]
      omega
    · rw [List.kerase_cons_ne hj, List.dlookup_cons_ne _ _ hj]
      simp only [List.map_cons, List.sum_cons]
      omega

theorem total_insert_eq (t : Table κ α) (k : κ) (v : α) (n : α → Nat) :
    total n (t.insert k v) = n v + total n (t.erase k) := by
  unfold total values
  rw [AList.entries_insert, List.map_cons, List.map_cons, List.sum_cons]
  rfl

theorem total_insert (t : Table κ α) (k : κ) (v : α) (n : α → Nat) :
    total n (t.insert k v) + (t.lookup k).elim 0 n = total n t + n v := by
  rw [total_insert_eq, ← total_erase t k n]
  omega

theorem total_modify (t : Table κ α) (k : κ) (f : α → α) (n : α → Nat) :
    total n (t.modify k f) + (t.lookup k).elim 0 n = total n t + (t.lookup k).elim 0 fun v => n (f v) := by
  unfold modify
  cases h : t.lookup k with
  | none => rfl
  | some v =>
    have hinsert := total_insert t k (f v) n
    rw [h] at hinsert
    exact hinsert

/-- A change that keeps the number of each value keeps the sum. -/
theorem total_modify_of_eq {f : α → α} (h : ∀ v, n (f v) = n v) (t : Table κ α) (k : κ) :
    total n (t.modify k f) = total n t := by
  have hmodify := total_modify t k f n
  have hsame : (fun v => n (f v)) = n := funext h
  rw [hsame] at hmodify
  omega

omit [DecidableEq κ] in
theorem count_eq_total (p : α → Bool) (t : Table κ α) : t.count p = total (fun v => if p v then 1 else 0) t := by
  unfold count total
  generalize t.values = values
  induction values with
  | nil => rfl
  | cons v rest ih =>
    rw [List.filter_cons, List.map_cons, List.sum_cons, ← ih]
    split_ifs with hp
    · rw [List.length_cons]
      omega
    · omega

end Total

/-! ## Merging -/

/-- Add the entries of another table, each to what is there for its key. -/
def absorb (t : Table κ α) (add : α → α → α) (default : α) (other : Table κ α) : Table κ α :=
  other.entries.foldl (fun t e => t.upsert e.1 default (add · e.2)) t

theorem getD_absorb {add : α → α → α} {default : α} (hadd : ∀ v, add v default = v) (t other : Table κ α) (k : κ) :
    ((t.absorb add default other).lookup k).getD default =
      add ((t.lookup k).getD default) ((other.lookup k).getD default) := by
  obtain ⟨entries, hnodup⟩ := other
  show ((entries.foldl _ t).lookup k).getD default = add _ ((entries.dlookup k).getD default)
  induction entries generalizing t with
  | nil => exact (hadd _).symm
  | cons e rest ih =>
    obtain ⟨j, v⟩ := e
    obtain ⟨hj, hrest⟩ := List.nodupKeys_cons.1 hnodup
    rw [List.foldl_cons, ih _ hrest, lookup_upsert]
    by_cases hk : k = j
    · subst hk
      rw [if_pos rfl, Option.getD_some, List.dlookup_cons_eq, List.dlookup_eq_none.2 hj, Option.getD_none, hadd,
        Option.getD_some]
    · rw [if_neg hk, List.dlookup_cons_ne _ _ hk]

/-! ## Iteration -/

/-- The entries of a table in some order. -/
def IsListing (t : Table κ α) (l : List (κ × α)) : Prop := (t.entries.map fun e => (e.1, e.2)).Perm l

instance [DecidableEq α] (t : Table κ α) (l : List (κ × α)) : Decidable (t.IsListing l) :=
  inferInstanceAs (Decidable (List.Perm _ _))

theorem IsListing.mem_iff {l : List (κ × α)} (h : t.IsListing l) : (k, v) ∈ l ↔ t.lookup k = some v := by
  rw [← List.Perm.mem_iff h, ← mem_entries_iff]
  constructor
  · rintro hm
    obtain ⟨⟨k', v'⟩, he, heq⟩ := List.mem_map.1 hm
    cases heq
    exact he
  · exact fun hm => List.mem_map.2 ⟨_, hm, rfl⟩

/-- Insert what an entry maps to, if anything. -/
def collectOne (f : α → Option (κ × γ)) (t : Table κ γ) (e : α) : Table κ γ :=
  match f e with
  | some (k, v) => t.insert k v
  | none => t

/-- The table filled by an iteration that maps each entry to a new one, if to any. -/
def collect (f : α → Option (κ × γ)) (l : List α) : Table κ γ := l.foldl (collectOne f) ∅

/-- An entry that maps to nothing changes nothing. -/
theorem collect_filter {f : α → Option (κ × γ)} {p : α → Bool} (h : ∀ e, p e = false → f e = none) (l : List α) :
    collect f (l.filter p) = collect f l := by
  unfold collect
  generalize (∅ : Table κ γ) = t
  induction l generalizing t with
  | nil => rfl
  | cons e l ih =>
    cases hp : p e with
    | true =>
      rw [List.filter_cons_of_pos hp]
      exact ih (collectOne f t e)
    | false =>
      have hone : collectOne f t e = t := by
        unfold collectOne
        rw [h e hp]
      rw [List.filter_cons_of_neg (Bool.eq_false_iff.1 hp), List.foldl_cons, hone]
      exact ih t

theorem collect_eq_collect_filterMap (f : α → Option (κ × γ)) (l : List α) :
    collect f l = collect some (l.filterMap f) := by
  unfold collect
  generalize (∅ : Table κ γ) = t
  induction l generalizing t with
  | nil => rfl
  | cons e l ih =>
    rw [List.foldl_cons, ih]
    cases h : f e with
    | none => rw [List.filterMap_cons_none h, collectOne, h]
    | some entry => rw [List.filterMap_cons_some h, List.foldl_cons, collectOne, h, collectOne]

/-- What is in the table comes from an entry. -/
theorem exists_of_lookup_collect {f : α → Option (κ × γ)} {l : List α} {w : γ}
    (h : (collect f l).lookup k = some w) : ∃ e ∈ l, f e = some (k, w) := by
  suffices hfold : ∀ t : Table κ γ, (l.foldl (collectOne f) t).lookup k = some w →
      (∃ e ∈ l, f e = some (k, w)) ∨ t.lookup k = some w from
    (hfold ∅ h).resolve_right (by rw [AList.lookup_empty]; exact nofun)
  clear h
  induction l with
  | nil => exact fun t h => .inr h
  | cons e rest ih =>
    intro t h
    obtain ⟨e', he', hf⟩ | hone := ih _ h
    · exact .inl ⟨e', List.mem_cons_of_mem _ he', hf⟩
    · unfold collectOne at hone
      split at hone
      next k' w' hf =>
        rw [lookup_insert_eq] at hone
        split_ifs at hone with hk
        · obtain rfl := Option.some.inj hone
          exact .inl ⟨e, List.mem_cons_self, by rw [hf, hk]⟩
        · exact .inr hone
      next => exact .inr hone

/-- When all entries for a key agree on its value, the table has that value, whatever their order. -/
theorem lookup_collect {f : α → Option (κ × γ)} {l : List α} {e : α} {w : γ} (he : e ∈ l)
    (hf : f e = some (k, w)) (hagree : ∀ e' ∈ l, ∀ w', f e' = some (k, w') → w' = w) :
    (collect f l).lookup k = some w := by
  suffices h : ∀ t : Table κ γ, (∃ e' ∈ l, f e' = some (k, w)) ∨ t.lookup k = some w →
      (l.foldl (collectOne f) t).lookup k = some w from h ∅ (.inl ⟨e, he, hf⟩)
  clear he hf
  induction l with
  | nil => exact fun t h => h.resolve_left (by simp)
  | cons e' rest ih =>
    intro t h
    refine ih (fun e'' hmem => hagree e'' (List.mem_cons_of_mem _ hmem)) _ ?_
    by_cases hlater : ∃ e'' ∈ rest, f e'' = some (k, w)
    · exact .inl hlater
    right
    cases hf : f e' with
    | none =>
      have hold : t.lookup k = some w := h.resolve_left (by
        rintro ⟨e'', hmem, he''⟩
        obtain rfl | hmem := List.mem_cons.1 hmem
        · simp [hf] at he''
        · exact hlater ⟨e'', hmem, he''⟩)
      simpa [collectOne, hf] using hold
    | some kv =>
      obtain ⟨k', w'⟩ := kv
      have hone : collectOne f t e' = t.insert k' w' := by simp [collectOne, hf]
      rw [hone, lookup_insert_eq]
      split_ifs with hk
      · rw [hagree e' (List.mem_cons_self ..) w' (by rw [hf, hk])]
      · refine h.resolve_left ?_
        rintro ⟨e'', hmem, he''⟩
        obtain rfl | hmem := List.mem_cons.1 hmem
        · simp [hf] at he''
          exact hk he''.1.symm
        · exact hlater ⟨e'', hmem, he''⟩

/-- Where no two entries for the key disagree, the table has what an entry says. -/
theorem lookup_collect_iff {f : α → Option (κ × γ)} {l : List α} {w : γ}
    (hagree : ∀ e ∈ l, ∀ e' ∈ l, ∀ v v', f e = some (k, v) → f e' = some (k, v') → v = v') :
    (collect f l).lookup k = some w ↔ ∃ e ∈ l, f e = some (k, w) := by
  constructor
  · exact exists_of_lookup_collect
  · rintro ⟨e, he, hf⟩
    exact lookup_collect he hf fun e' he' w' hf' => hagree e' he' e he w' w hf' hf

theorem lookup_collect_of_nodup {key : α → κ} {value : α → γ} {l : List α} {w : γ} (h : (l.map key).Nodup) :
    (collect (fun e => some (key e, value e)) l).lookup k = some w ↔ ∃ e ∈ l, key e = k ∧ value e = w := by
  rw [lookup_collect_iff]
  · simp only [Option.some.injEq, Prod.mk.injEq]
  · intro e he e' he' v v' hf hf'
    obtain ⟨hk, rfl⟩ := Prod.mk.inj (Option.some.inj hf)
    obtain ⟨hk', rfl⟩ := Prod.mk.inj (Option.some.inj hf')
    rw [List.inj_on_of_nodup_map h he he' (hk.trans hk'.symm)]

/-! ## Groups -/

def push (t : Table κ (List α)) (e : κ × α) : Table κ (List α) := t.upsert e.1 [] (· ++ [e.2])

def group (l : List (κ × α)) : Table κ (List α) := l.foldl push ∅

/-- Each key has its values, in the order of the list. -/
theorem lookup_group (l : List (κ × α)) (k : κ) :
    ((group l).lookup k).getD [] = (l.filter fun e => e.1 = k).map (·.2) := by
  suffices hfold : ∀ t : Table κ (List α), ((l.foldl push t).lookup k).getD [] =
      (t.lookup k).getD [] ++ (l.filter fun e => e.1 = k).map (·.2) from hfold ∅
  induction l with
  | nil => exact fun t => (List.append_nil _).symm
  | cons e l ih =>
    intro t
    rw [List.foldl_cons, ih]
    unfold push
    rw [lookup_upsert, List.filter_cons]
    by_cases hk : k = e.1
    · subst hk
      simp
    · simp [hk, Ne.symm hk]

theorem mem_values_group {l : List (κ × α)} {e : κ × α} (he : e ∈ l) :
    (l.filter fun e' => e'.1 = e.1).map (·.2) ∈ (group l).values := by
  have hlookup := lookup_group l e.1
  have hmem : e.2 ∈ (l.filter fun e' => e'.1 = e.1).map (·.2) :=
    List.mem_map_of_mem (List.mem_filter.2 ⟨he, decide_eq_true rfl⟩)
  cases hgroup : (group l).lookup e.1 with
  | none =>
    rw [hgroup] at hlookup
    rw [← hlookup] at hmem
    exact absurd hmem List.not_mem_nil
  | some vs =>
    rw [hgroup, Option.getD_some] at hlookup
    rw [← hlookup]
    exact List.mem_map.2 ⟨_, mem_entries_iff.2 hgroup, rfl⟩

theorem flatten_values_push (t : Table κ (List α)) (e : κ × α) :
    (push t e).values.flatten.Perm (t.values.flatten ++ [e.2]) := by
  unfold push upsert values
  rw [AList.entries_insert, List.map_cons, List.flatten_cons]
  cases hlookup : t.lookup e.1 with
  | none =>
    have hkeys : e.1 ∉ t.entries.keys := List.dlookup_eq_none.1 hlookup
    rw [List.kerase_of_notMem_keys hkeys]
    exact List.perm_append_comm
  | some old =>
    have hkeys : e.1 ∈ t.entries.keys := List.mem_keys_of_mem (mem_entries_iff.2 hlookup)
    obtain ⟨old', front, back, -, hentries, hrest⟩ := List.exists_of_kerase hkeys
    obtain rfl : old' = old := by
      have hlookup' : t.lookup e.1 = some old' := mem_entries_iff.1 (by simp [hentries])
      rw [hlookup] at hlookup'
      exact (Option.some.inj hlookup').symm
    have hperm : t.entries.Perm (⟨e.1, old'⟩ :: t.entries.kerase e.1) := by
      rw [hrest, hentries]
      exact List.perm_middle
    have hvalues := ((hperm.map Sigma.snd).flatten).append_right [e.2]
    refine List.Perm.trans ?_ hvalues.symm
    rw [Option.getD_some, List.map_cons, List.flatten_cons, List.append_assoc, List.append_assoc]
    exact List.perm_append_comm.append_left old'

theorem flatten_values_group (l : List (κ × α)) : (group l).values.flatten.Perm (l.map (·.2)) := by
  suffices hfold : ∀ t : Table κ (List α), (l.foldl push t).values.flatten.Perm (t.values.flatten ++ l.map (·.2)) from
    hfold ∅
  induction l with
  | nil => exact fun t => List.Perm.of_eq (List.append_nil _).symm
  | cons e l ih =>
    intro t
    have hpush := (flatten_values_push t e).append_right (l.map (·.2))
    rw [List.append_assoc] at hpush
    exact (ih (push t e)).trans hpush

end Table
