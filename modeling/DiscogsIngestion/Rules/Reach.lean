import DiscogsIngestion.Parser.Machine
import DiscogsIngestion.Rules.Engine

/-!
# What the filters reach

Rules expand every array on the way to a field. The filters find their way to it by themselves.

* `leaves` : the scalars at a field, with the arrays that have been expanded on the way;
* `hits`, `left` : a filter that gets to a scalar and takes it, and what the filters leave of a scalar;
* `leaves_applyFilter`, `leaves_applyAll` : the scalars at any field after one filter, and after all of them;
* `Clean`, `Reached` : no filter finds anything at its field afterwards, and the scalars for which that is so;
* `filters_reach_iff` : the one against the other.
-/

namespace DiscogsIngestion.Rules

variable {F : Type} {record : Value} {path : List String}

/-- The arrays on the way to a scalar: none, one that holds the scalar itself, or one before the last segment. -/
inductive Place where
  | plain
  | listed
  | nested
  deriving DecidableEq, Repr

def below (isLast : Bool) (rest : Value → List (Place × Value)) : Value → List (Place × Value)
  | .array items => (items.flatMap rest).map fun leaf => (if isLast then .listed else .nested, leaf.2)
  | value => rest value

/-- The scalars at the end of a path. -/
def leaves : List String → Value → List (Place × Value)
  | [], value => if (scalar value).isSome then [(.plain, value)] else []
  | segment :: path, .object map => (Map.get segment map).elim [] (below path.isEmpty (leaves path))
  | _ :: _, _ => []

/-! ## Leaves and fields -/

theorem leaves_object (segment : String) (path : List String) (map : Map) :
    leaves (segment :: path) (.object map) = (Map.get segment map).elim [] (below path.isEmpty (leaves path)) := rfl

theorem leaves_cons (segment : String) (path : List String) (value : Value) :
    (leaves (segment :: path) value).map Prod.snd =
      ((child segment value).getD []).flatMap fun v => (leaves path v).map Prod.snd := by
  cases value with
  | object map =>
    rw [leaves_object]
    unfold child
    dsimp only
    cases Map.get segment map with
    | none => rfl
    | some v =>
      cases v with
      | array items =>
        show ((items.flatMap (leaves path)).map _).map Prod.snd = items.flatMap _
        rw [List.map_map, List.map_flatMap]
        rfl
      | _ => exact (List.flatMap_singleton _ _).symm
  | _ => rfl

theorem resolveField_eq (record : Value) (field : String) :
    resolveField record field = (leaves (segments field) record).filterMap fun leaf => scalar leaf.2 := by
  have hplaces : ∀ path value, (Walk.places child path value).filterMap scalar =
      ((leaves path value).map Prod.snd).filterMap scalar := by
    intro path
    induction path with
    | nil =>
      intro value
      cases hscalar : scalar value <;> simp [Walk.places, leaves, hscalar]
    | cons segment path ih =>
      intro value
      rw [Walk.places_cons, leaves_cons, List.filterMap_flatMap, List.filterMap_flatMap]
      exact congrArg (((child segment value).getD []).flatMap ·) (funext ih)
  unfold resolveField
  rw [hplaces, List.filterMap_map]
  rfl

/-! ## Struck leaves -/

/-- A removal at this very path strikes out the scalar. It does not get past an array to the parent of the leaf. -/
def struck (isMatch : String → Bool) (here : Bool) (leaf : Place × Value) : Bool :=
  here && leaf.1 ≠ .nested && (matching isMatch leaf.2).isSome

variable {isMatch : String → Bool}

def kept (isMatch : String → Bool) (here : Bool) (l : List (Place × Value)) : List (Place × Value) :=
  l.filter fun leaf => !struck isMatch here leaf

theorem kept_sublist (isMatch : String → Bool) (here : Bool) (l : List (Place × Value)) :
    (kept isMatch here l).Sublist l := List.filter_sublist

theorem kept_eq_self {here : Bool} {l : List (Place × Value)} (h : ∀ leaf ∈ l, struck isMatch here leaf = false) :
    kept isMatch here l = l := by
  apply List.filter_eq_self.2
  intro leaf hleaf
  rw [h leaf hleaf]
  rfl

theorem kept_of_not_here (isMatch : String → Bool) (l : List (Place × Value)) : kept isMatch false l = l :=
  kept_eq_self fun _ _ => rfl

theorem matching_eq_some {v : Value} {s : String} (h : matching isMatch v = some s) :
    v = .string s ∧ isMatch s = true := by
  unfold matching at h
  split at h
  · split_ifs at h with hmatch
    obtain rfl := Option.some.inj h
    exact ⟨rfl, hmatch⟩
  · exact absurd h (by simp)

/-- Removing strings of an array strikes them out at the array, and changes nothing further down. -/
theorem below_kept (path : List String) (arr : List Value) :
    below path.isEmpty (leaves path) (.array (arr.filter fun elem => (matching isMatch elem).isNone)) =
      kept isMatch path.isEmpty (below path.isEmpty (leaves path) (.array arr)) := by
  unfold below kept
  dsimp only
  induction arr with
  | nil => rfl
  | cons elem arr ih =>
    rw [List.flatMap_cons, List.map_append, List.filter_append, ← ih]
    cases hmatch : matching isMatch elem with
    | none =>
      rw [List.filter_cons_of_pos (by rw [hmatch]; rfl), List.flatMap_cons, List.map_append]
      congr 1
      apply Eq.symm
      apply kept_eq_self
      intro leaf hleaf
      cases path with
      | nil =>
        obtain ⟨leaf', hleaf', rfl⟩ := List.mem_map.1 hleaf
        unfold leaves at hleaf'
        split_ifs at hleaf' with hscalar
        · obtain rfl := List.mem_singleton.1 hleaf'
          simp [struck, hmatch]
        · exact absurd hleaf' List.not_mem_nil
      | cons segment path => rfl
    | some s =>
      rw [List.filter_cons_of_neg (by rw [hmatch]; simp)]
      obtain ⟨rfl, hs⟩ := matching_eq_some hmatch
      cases path with
      | nil => simp [leaves, scalar, struck, hmatch]
      | cons segment path => simp [leaves]

/-! ## Pointers -/

theorem removeAt_cases {leaf : String} {v v' : Value} {r : Nat × List String}
    (h : removeAt leaf isMatch v = some (v', r)) : ∃ map map', v = .object map ∧ v' = .object map' ∧
      (∀ segment, segment ≠ leaf → Map.get segment map' = Map.get segment map) ∧
      ((∃ arr, Map.get leaf map = some (.array arr) ∧
          Map.get leaf map' = some (.array (arr.filter fun elem => (matching isMatch elem).isNone))) ∨
        ∃ s, Map.get leaf map = some (.string s) ∧ isMatch s = true ∧ Map.get leaf map' = none) := by
  unfold removeAt at h
  split at h
  · next map =>
    split at h
    · next arr hget =>
      obtain ⟨rfl, -⟩ := Prod.mk.inj (Option.some.inj h)
      refine ⟨map, _, rfl, rfl, fun segment hne => Map.get_insert_of_ne hne _ _, .inl ⟨arr, hget, ?_⟩⟩
      exact Map.get_insert_self _ _ _
    · next s hget =>
      split_ifs at h with hmatch
      obtain ⟨rfl, -⟩ := Prod.mk.inj (Option.some.inj h)
      refine ⟨map, _, rfl, rfl, fun segment hne => ?_, .inr ⟨s, hget, hmatch, ?_⟩⟩
      · rw [Map.get_remove, if_neg hne]
      · rw [Map.get_remove, if_pos rfl]
    · exact absurd h (by simp)
  · exact absurd h (by simp)

theorem leaves_removeAt {leaf : String} {v v' : Value} {r : Nat × List String}
    (h : removeAt leaf isMatch v = some (v', r)) (path : List String) :
    leaves path v' = kept isMatch (path = [leaf]) (leaves path v) := by
  obtain ⟨map, map', rfl, rfl, hother, hleaf⟩ := removeAt_cases h
  cases path with
  | nil => rfl
  | cons segment path =>
    rw [leaves_object, leaves_object]
    by_cases hsegment : segment = leaf
    · subst hsegment
      have hhere : decide (segment :: path = [segment]) = path.isEmpty := by cases path <;> simp
      rw [hhere]
      obtain ⟨arr, hget, hget'⟩ | ⟨s, hget, hmatch, hget'⟩ := hleaf
      · rw [hget, hget']
        exact below_kept path arr
      · rw [hget, hget']
        cases path with
        | nil => simp [below, leaves, scalar, kept, struck, matching, hmatch]
        | cons segment' path => rfl
    · have hhere : decide (segment :: path = [leaf]) = false := by simp [hsegment]
      rw [hhere, kept_of_not_here, hother segment hsegment]

/-- The pointer gets to an array and goes on with an index into it. -/
def entersArray : List String → Value → Bool
  | token :: _, .array _ => (parseIndex token).isSome
  | token :: tokens, .object map => (Map.get token map).any (entersArray tokens)
  | _, _ => false

theorem pointerMut_cons {γ : Type} {change : Value → Option (Value × γ)} {token : String} {tokens : List String}
    {v v' : Value} {r : γ} (h : pointerMut change (token :: tokens) v = some (v', r)) :
    (∃ map x x', v = .object map ∧ Map.get token map = some x ∧ pointerMut change tokens x = some (x', r) ∧
      v' = .object (Map.insert token x' map)) ∨
    ∃ items i x x', v = .array items ∧ parseIndex token = some i ∧ items[i]? = some x ∧
      pointerMut change tokens x = some (x', r) ∧ v' = .array (items.set i x') := by
  cases v with
  | object map =>
    cases hget : Map.get token map with
    | none => exact absurd h (by simp [pointerMut, hget])
    | some x =>
      obtain ⟨x', hx, rfl⟩ : ∃ x', pointerMut change tokens x = some (x', r) ∧
          .object (Map.insert token x' map) = v' := by
        simpa [pointerMut, hget] using h
      exact .inl ⟨map, x, x', rfl, hget, hx, rfl⟩
  | array items =>
    cases hindex : parseIndex token with
    | none => exact absurd h (by simp [pointerMut, hindex])
    | some i =>
      cases hget : items[i]? with
      | none => exact absurd h (by simp [pointerMut, hindex, hget])
      | some x =>
        obtain ⟨x', hx, rfl⟩ : ∃ x', pointerMut change tokens x = some (x', r) ∧
            .array (items.set i x') = v' := by
          simpa [pointerMut, hindex, hget] using h
        exact .inr ⟨items, i, x, x', rfl, rfl, hget, hx, rfl⟩
  | _ => exact absurd h (by simp [pointerMut])

theorem flatMap_set_sublist {τ : Type} {f : Value → List τ} {items : List Value} {i : Nat} {x x' : Value}
    (hget : items[i]? = some x) (h : (f x').Sublist (f x)) :
    ((items.set i x').flatMap f).Sublist (items.flatMap f) := by
  induction items generalizing i with
  | nil => exact absurd hget (by simp)
  | cons y items ih =>
    cases i with
    | zero =>
      obtain rfl : y = x := by simpa using hget
      exact h.append (List.Sublist.refl _)
    | succ i => exact (List.Sublist.refl (f y)).append (ih (by simpa using hget))

theorem kept_below_array {here : Bool} (hhere : path = [] → here = false) (items : List Value) :
    kept isMatch here (below path.isEmpty (leaves path) (.array items)) =
      below path.isEmpty (leaves path) (.array items) := by
  cases path with
  | nil =>
    rw [hhere rfl]
    exact kept_of_not_here _ _
  | cons segment path =>
    apply kept_eq_self
    intro leaf hleaf
    obtain ⟨leaf', -, rfl⟩ := List.mem_map.1 hleaf
    simp [struck]

/-- A removal behind a pointer strikes out the scalars at its path. Behind an index into an array there may be more. -/
theorem leaves_pointerMut {leaf : String} (tokens : List String) :
    ∀ {path : List String} {v v' : Value} {r : Nat × List String},
      pointerMut (removeAt leaf isMatch) tokens v = some (v', r) →
      ((leaves path v').Sublist (kept isMatch (path = tokens ++ [leaf]) (leaves path v)) ∧
        (entersArray tokens v = false → leaves path v' = kept isMatch (path = tokens ++ [leaf]) (leaves path v))) ∧
      ((below path.isEmpty (leaves path) v').Sublist
          (kept isMatch (path = tokens ++ [leaf]) (below path.isEmpty (leaves path) v)) ∧
        (entersArray tokens v = false → below path.isEmpty (leaves path) v' =
          kept isMatch (path = tokens ++ [leaf]) (below path.isEmpty (leaves path) v))) := by
  induction tokens with
  | nil =>
    intro path v v' r h
    have heq := leaves_removeAt h path
    obtain ⟨map, map', rfl, rfl, -⟩ := removeAt_cases h
    exact ⟨⟨heq ▸ List.Sublist.refl _, fun _ => heq⟩, heq ▸ List.Sublist.refl _, fun _ => heq⟩
  | cons token tokens ih =>
    intro path v v' r h
    obtain ⟨map, x, x', rfl, hget, hx, rfl⟩ | ⟨items, i, x, x', rfl, hindex, hget, hx, rfl⟩ := pointerMut_cons h
    · have hleaves : (leaves path (.object (Map.insert token x' map))).Sublist
            (kept isMatch (path = token :: tokens ++ [leaf]) (leaves path (.object map))) ∧
          (entersArray (token :: tokens) (.object map) = false → leaves path (.object (Map.insert token x' map)) =
            kept isMatch (path = token :: tokens ++ [leaf]) (leaves path (.object map))) := by
        have henters : entersArray (token :: tokens) (.object map) = entersArray tokens x := by
          show (Map.get token map).any _ = _
          rw [hget]
          rfl
        cases path with
        | nil => exact ⟨List.Sublist.refl _, fun _ => rfl⟩
        | cons segment path =>
          rw [leaves_object, leaves_object, henters]
          by_cases hsegment : segment = token
          · subst hsegment
            have hhere : decide (segment :: path = segment :: tokens ++ [leaf]) = decide (path = tokens ++ [leaf]) := by
              simp
            rw [hhere, hget, Map.get_insert_self]
            exact (ih hx).2
          · have hhere : decide (segment :: path = token :: tokens ++ [leaf]) = false := by simp [hsegment]
            rw [hhere, kept_of_not_here, Map.get_insert_of_ne hsegment]
            exact ⟨List.Sublist.refl _, fun _ => rfl⟩
      exact ⟨hleaves, hleaves⟩
    · have hnone : ∀ items : List Value, leaves path (.array items) = [] := by
        intro items
        cases path <;> rfl
      have henters : entersArray (token :: tokens) (.array items) ≠ false := by
        show (parseIndex token).isSome ≠ false
        rw [hindex]
        simp
      refine ⟨⟨?_, fun hno => absurd hno henters⟩, ?_, fun hno => absurd hno henters⟩
      · rw [hnone, hnone]
        exact List.Sublist.refl _
      · rw [kept_below_array (by rintro rfl; simp)]
        unfold below
        dsimp only
        apply List.Sublist.map
        apply flatMap_set_sublist hget
        exact (ih hx).1.1.trans (kept_sublist _ _ _)

/-- A pointer that does not lead to a removal leads to nothing that would be struck out. -/
theorem kept_of_pointerMut_none {leaf : String} {tokens : List String} {v : Value}
    (h : pointerMut (removeAt leaf isMatch) tokens v = none) :
    kept isMatch true (leaves (tokens ++ [leaf]) v) = leaves (tokens ++ [leaf]) v := by
  induction tokens generalizing v with
  | nil =>
    cases v with
    | object map =>
      show kept isMatch true ((Map.get leaf map).elim [] (below true (leaves []))) = (Map.get leaf map).elim [] _
      unfold pointerMut removeAt at h
      dsimp only at h
      cases hget : Map.get leaf map with
      | none => rfl
      | some v =>
        rw [hget] at h
        cases v with
        | string s =>
          dsimp only at h
          split_ifs at h with hmatch
          simp [below, leaves, scalar, kept, struck, matching, hmatch]
        | array arr => exact absurd h (by simp)
        | _ => simp [below, leaves, scalar, kept, struck, matching]
    | _ => rfl
  | cons token tokens ih =>
    cases v with
    | object map =>
      rw [List.cons_append, leaves_object]
      cases hget : Map.get token map with
      | none => rfl
      | some x =>
        have hx : pointerMut (removeAt leaf isMatch) tokens x = none := by simpa [pointerMut, hget] using h
        cases x with
        | array items => exact kept_below_array (by simp) items
        | _ => exact ih hx
    | _ => rfl

/-! ## Filters -/

variable [Double F] {cond : CompiledFilterCondition F} {filters : List (CompiledFilterCondition F)}

namespace CompiledFilterCondition

def field : CompiledFilterCondition F → String
  | removeMatching field _ _ => field
  | nullifyWhen field _ _ _ => field

/-- What is not to be found at the field of a filter. -/
def bad : CompiledFilterCondition F → String → Bool
  | removeMatching _ isMatch _, s => isMatch s
  | nullifyWhen _ below above _, s => (numberOf s).any (outside below above)

/-- The filter gets to the scalar at the end of this path, and takes it. A range is compared with the value under a key
of the record itself. -/
def hits (path : List String) (leaf : Place × Value) : CompiledFilterCondition F → Bool
  | removeMatching field isMatch _ => struck isMatch (path = parentTokens field ++ [leafOf field]) leaf
  | nullifyWhen field below above _ =>
    path = [field] && leaf.1 = .plain && (compared leaf.2).any fun s => (numberOf s).any (outside below above)

/-- What the filter leaves of a scalar that it has taken. -/
def remains : CompiledFilterCondition F → Option Value
  | removeMatching .. => none
  | nullifyWhen .. => some .null

/-- A filter that goes by index into an array. -/
def indexes (record : Value) : CompiledFilterCondition F → Bool
  | removeMatching field _ _ => entersArray (parentTokens field) record
  | nullifyWhen .. => false

end CompiledFilterCondition

/-- What all the filters leave of a scalar: the first one that gets to it and takes it decides. -/
def left (filters : List (CompiledFilterCondition F)) (path : List String) (leaf : Place × Value) : Option Value :=
  match filters.find? (·.hits path leaf) with
  | some cond => cond.remains
  | none => some leaf.2

def filtered (path : List String) (cond : CompiledFilterCondition F) (leaf : Place × Value) :
    Option (Place × Value) :=
  if cond.hits path leaf then cond.remains.map (leaf.1, ·) else some leaf

theorem filterMap_filtered_removeMatching (field reason : String) (path : List String) (l : List (Place × Value)) :
    l.filterMap (filtered path (.removeMatching (F := F) field isMatch reason)) =
      kept isMatch (path = parentTokens field ++ [leafOf field]) l := by
  unfold kept
  induction l with
  | nil => rfl
  | cons leaf l ih =>
    rw [List.filterMap_cons, List.filter_cons, ih]
    have hfiltered : filtered path (.removeMatching (F := F) field isMatch reason) leaf =
        if struck isMatch (path = parentTokens field ++ [leafOf field]) leaf then none else some leaf := rfl
    rw [hfiltered]
    cases hstruck : struck isMatch (path = parentTokens field ++ [leafOf field]) leaf <;> simp

theorem filterMap_filtered_eq_self {l : List (Place × Value)} (h : ∀ leaf ∈ l, cond.hits path leaf = false) :
    l.filterMap (filtered path cond) = l := by
  have hsome : ∀ leaf ∈ l, filtered path cond leaf = some leaf := by
    intro leaf hleaf
    unfold filtered
    rw [h leaf hleaf]
    rfl
  rw [List.filterMap_congr hsome, List.filterMap_some]

/-- At its own key, a filter on a range takes the scalars that are plain and outside of it. -/
theorem hits_nullifyWhen_self {field reason : String} {low high : Option F} {leaf : Place × Value}
    (h : leaf.1 = .plain → (compared leaf.2).any (fun s => (numberOf s).any (outside low high)) = false) :
    (CompiledFilterCondition.nullifyWhen field low high reason).hits [field] leaf = false := by
  unfold CompiledFilterCondition.hits
  by_cases hplace : leaf.1 = .plain
  · simp [hplace, h hplace]
  · simp [hplace]

theorem hits_nullifyWhen_of_ne {field reason : String} {low high : Option F} (hpath : path ≠ [field])
    (leaf : Place × Value) : (CompiledFilterCondition.nullifyWhen field low high reason).hits path leaf = false := by
  unfold CompiledFilterCondition.hits
  simp [hpath]

/-- A value that is compared is the one scalar at its path. -/
theorem leaves_of_compared {field strVal : String} {obj : Map} {v : Value} (hget : Map.get field obj = some v)
    (hcompared : compared v = some strVal) : leaves [field] (.object obj) = [(.plain, v)] := by
  rw [leaves_object, hget]
  cases v with
  | string s => rfl
  | number n => rfl
  | _ => exact absurd hcompared (by simp [compared])

theorem not_compared_of_mem_leaves {field : String} {obj : Map} (h : (Map.get field obj).bind compared = none)
    {leaf : Place × Value} (hleaf : leaf ∈ leaves [field] (.object obj)) (hplace : leaf.1 = .plain) :
    compared leaf.2 = none := by
  rw [leaves_object] at hleaf
  cases hget : Map.get field obj with
  | none =>
    rw [hget] at hleaf
    exact absurd hleaf List.not_mem_nil
  | some v =>
    rw [hget] at hleaf h
    cases v with
    | array items =>
      obtain ⟨leaf', -, rfl⟩ := List.mem_map.1 hleaf
      exact absurd hplace (by simp)
    | null =>
      obtain rfl := List.mem_singleton.1 hleaf
      rfl
    | string s => exact absurd h (by simp [compared])
    | number n => exact absurd h (by simp [compared])
    | _ => exact absurd hleaf List.not_mem_nil

/-- A value that is compared ends its path, so that at other paths nothing changes with it. -/
theorem leaves_insert_of_compared {field strVal : String} {obj : Map}
    (h : (Map.get field obj).bind compared = some strVal) (hpath : path ≠ [field]) :
    leaves path (.object (Map.insert field .null obj)) = leaves path (.object obj) := by
  cases path with
  | nil => rfl
  | cons segment path =>
    rw [leaves_object, leaves_object]
    by_cases hsegment : segment = field
    · subst hsegment
      obtain ⟨v, hget, hcompared⟩ := Option.bind_eq_some_iff.1 h
      rw [Map.get_insert_self, hget]
      cases path with
      | nil => exact absurd rfl hpath
      | cons segment' path =>
        cases v with
        | string s => rfl
        | number n => rfl
        | _ => exact absurd hcompared (by simp [compared])
    · rw [Map.get_insert_of_ne hsegment]

theorem leaves_nullifyWhen (field : String) (low high : Option F) (reason : String) (record : Value)
    (path : List String) : leaves path (applyFilter (.nullifyWhen field low high reason) record).1 =
      (leaves path record).filterMap (filtered path (.nullifyWhen field low high reason)) := by
  cases record with
  | object obj =>
    unfold applyFilter
    dsimp only
    by_cases hpath : path = [field]
    · subst hpath
      cases hv : (Map.get field obj).bind compared with
      | none =>
        refine (filterMap_filtered_eq_self fun leaf hleaf => hits_nullifyWhen_self fun hplace => ?_).symm
        rw [not_compared_of_mem_leaves hv hleaf hplace]
        rfl
      | some strVal =>
        obtain ⟨v, hget, hcompared⟩ := Option.bind_eq_some_iff.1 hv
        have hleaves := leaves_of_compared hget hcompared
        dsimp only
        split_ifs with houtside
        · have hfiltered : filtered [field] (.nullifyWhen field low high reason) (.plain, v) =
              some (.plain, .null) := by
            unfold filtered CompiledFilterCondition.hits
            simp [hcompared, houtside, CompiledFilterCondition.remains]
          rw [hleaves, leaves_object, Map.get_insert_self, List.filterMap_cons, hfiltered]
          rfl
        · refine (filterMap_filtered_eq_self fun leaf hleaf => hits_nullifyWhen_self fun _ => ?_).symm
          rw [hleaves] at hleaf
          obtain rfl := List.mem_singleton.1 hleaf
          rw [hcompared]
          simpa using houtside
    · rw [filterMap_filtered_eq_self fun leaf _ => hits_nullifyWhen_of_ne hpath leaf]
      cases hv : (Map.get field obj).bind compared with
      | none => rfl
      | some strVal =>
        dsimp only
        split_ifs
        · exact leaves_insert_of_compared hv hpath
        · rfl
  | _ =>
    cases path with
    | nil => exact (filterMap_filtered_eq_self fun leaf _ => hits_nullifyWhen_of_ne (by simp) leaf).symm
    | cons segment path => rfl

theorem leaves_applyFilter (cond : CompiledFilterCondition F) (record : Value) (path : List String) :
    (leaves path (applyFilter cond record).1).Sublist ((leaves path record).filterMap (filtered path cond)) ∧
      (cond.indexes record = false →
        leaves path (applyFilter cond record).1 = (leaves path record).filterMap (filtered path cond)) := by
  cases cond with
  | removeMatching field isMatch reason =>
    rw [filterMap_filtered_removeMatching]
    unfold applyFilter
    dsimp only
    cases h : pointerMut (removeAt (leafOf field) isMatch) (parentTokens field) record with
    | none =>
      have heq : leaves path record =
          kept isMatch (path = parentTokens field ++ [leafOf field]) (leaves path record) := by
        by_cases hpath : path = parentTokens field ++ [leafOf field]
        · subst hpath
          rw [decide_eq_true rfl]
          exact (kept_of_pointerMut_none h).symm
        · rw [decide_eq_false hpath]
          exact (kept_of_not_here _ _).symm
      exact ⟨heq ▸ List.Sublist.refl _, fun _ => heq⟩
    | some result =>
      obtain ⟨record', r⟩ := result
      exact (leaves_pointerMut _ h).1
  | nullifyWhen field low high reason =>
    have heq := leaves_nullifyWhen field low high reason record path
    exact ⟨heq ▸ List.Sublist.refl _, fun _ => heq⟩

/-! ## All filters -/

def applyAll (filters : List (CompiledFilterCondition F)) (record : Value) : Value :=
  filters.foldl (fun record cond => (applyFilter cond record).1) record

theorem applyFilters_fst (config : CompiledRulesConfig F) (dataType : String) (record : Value) :
    (applyFilters config dataType record).1 = applyAll (config.filtersFor dataType) record := by
  have hfold : ∀ (filters : List (CompiledFilterCondition F)) (state : Value × List FilterAction),
      (filters.foldl (fun state cond =>
        ((applyFilter cond state.1).1, state.2 ++ (applyFilter cond state.1).2)) state).1 =
          applyAll filters state.1 := by
    intro filters
    induction filters with
    | nil => exact fun _ => rfl
    | cons cond filters ih => exact fun state => ih _
  exact hfold _ _

theorem hits_null (cond : CompiledFilterCondition F) (path : List String) (place : Place) :
    cond.hits path (place, .null) = false := by
  cases cond with
  | removeMatching field isMatch reason =>
    show struck isMatch _ (place, .null) = false
    simp [struck, matching]
  | nullifyWhen field low high reason =>
    show (_ && _ && (compared .null).any _) = false
    simp [compared]

theorem left_of_hits {leaf : Place × Value} (h : cond.hits path leaf = true) :
    left (cond :: filters) path leaf = cond.remains := by
  unfold left
  rw [List.find?_cons_of_pos h]

theorem left_of_not_hits {leaf : Place × Value} (h : cond.hits path leaf = false) :
    left (cond :: filters) path leaf = left filters path leaf := by
  unfold left
  rw [List.find?_cons_of_neg (by rw [h]; simp)]

theorem left_null (filters : List (CompiledFilterCondition F)) (path : List String) (place : Place) :
    left filters path (place, .null) = some .null := by
  unfold left
  rw [List.find?_eq_none.2 fun cond _ => by rw [hits_null]; simp]

/-- What is left of a scalar is found by taking the filters one after the other. -/
theorem left_cons (cond : CompiledFilterCondition F) (filters : List (CompiledFilterCondition F)) (path : List String)
    (leaf : Place × Value) : (left (cond :: filters) path leaf).map (leaf.1, ·) =
      (filtered path cond leaf).bind fun leaf' => (left filters path leaf').map (leaf'.1, ·) := by
  unfold filtered
  cases hhits : cond.hits path leaf with
  | false =>
    rw [left_of_not_hits hhits]
    rfl
  | true =>
    rw [left_of_hits hhits, if_pos rfl]
    cases cond with
    | removeMatching field isMatch reason => rfl
    | nullifyWhen field low high reason =>
      show some (leaf.1, Value.null) = (left filters path (leaf.1, .null)).map _
      rw [left_null]
      rfl

theorem entersArray_removeAt {leaf : String} {v v' : Value} {r : Nat × List String}
    (h : removeAt leaf isMatch v = some (v', r)) (path : List String) : entersArray path v' = entersArray path v := by
  obtain ⟨map, map', rfl, rfl, hother, hleaf⟩ := removeAt_cases h
  cases path with
  | nil => rfl
  | cons token path =>
    show (Map.get token map').any (entersArray path) = (Map.get token map).any (entersArray path)
    by_cases htoken : token = leaf
    · subst htoken
      obtain ⟨arr, hget, hget'⟩ | ⟨s, hget, -, hget'⟩ := hleaf
      · rw [hget, hget']
        cases path <;> rfl
      · rw [hget, hget']
        cases path <;> rfl
    · rw [hother token htoken]

theorem entersArray_pointerMut {leaf : String} (tokens : List String) : ∀ {path : List String} {v v' : Value}
    {r : Nat × List String}, pointerMut (removeAt leaf isMatch) tokens v = some (v', r) →
    entersArray path v' = entersArray path v := by
  induction tokens with
  | nil => exact fun h => entersArray_removeAt h _
  | cons token tokens ih =>
    intro path v v' r h
    obtain ⟨map, x, x', rfl, hget, hx, rfl⟩ | ⟨items, i, x, x', rfl, -, -, -, rfl⟩ := pointerMut_cons h
    · cases path with
      | nil => rfl
      | cons token' path =>
        show (Map.get token' _).any (entersArray path) = (Map.get token' map).any (entersArray path)
        by_cases htoken : token' = token
        · subst htoken
          rw [Map.get_insert_self, hget]
          exact ih hx
        · rw [Map.get_insert_of_ne htoken]
    · cases path <;> rfl

/-- Filters change no array into anything else. -/
theorem indexes_applyFilter (cond cond' : CompiledFilterCondition F) (record : Value) :
    cond'.indexes (applyFilter cond record).1 = cond'.indexes record := by
  cases cond' with
  | nullifyWhen => rfl
  | removeMatching field' isMatch' reason' =>
    show entersArray _ _ = entersArray _ _
    cases cond with
    | removeMatching field isMatch reason =>
      unfold applyFilter
      dsimp only
      cases h : pointerMut (removeAt (leafOf field) isMatch) (parentTokens field) record with
      | none => rfl
      | some result => exact entersArray_pointerMut _ h
    | nullifyWhen field low high reason =>
      cases record with
      | object obj =>
        unfold applyFilter
        dsimp only
        cases hv : (Map.get field obj).bind compared with
        | none => rfl
        | some strVal =>
          obtain ⟨v, hget, hcompared⟩ := Option.bind_eq_some_iff.1 hv
          dsimp only
          split_ifs
          · cases parentTokens field' with
            | nil => rfl
            | cons token path =>
              show (Map.get token _).any (entersArray path) = (Map.get token obj).any (entersArray path)
              by_cases htoken : token = field
              · subst htoken
                rw [Map.get_insert_self, hget]
                cases v with
                | string s => cases path <;> rfl
                | number n => cases path <;> rfl
                | _ => exact absurd hcompared (by simp [compared])
              · rw [Map.get_insert_of_ne htoken]
          · rfl
      | _ => rfl

/-- The scalars at any path after all filters. -/
theorem leaves_applyAll (filters : List (CompiledFilterCondition F)) (record : Value) (path : List String) :
    (leaves path (applyAll filters record)).Sublist
        ((leaves path record).filterMap fun leaf => (left filters path leaf).map (leaf.1, ·)) ∧
      ((∀ cond ∈ filters, cond.indexes record = false) → leaves path (applyAll filters record) =
        (leaves path record).filterMap fun leaf => (left filters path leaf).map (leaf.1, ·)) := by
  induction filters generalizing record with
  | nil =>
    have hleft : (fun leaf : Place × Value =>
        (left ([] : List (CompiledFilterCondition F)) path leaf).map (leaf.1, ·)) = some := rfl
    rw [hleft, List.filterMap_some]
    exact ⟨List.Sublist.refl _, fun _ => rfl⟩
  | cons cond filters ih =>
    have hrun : applyAll (cond :: filters) record = applyAll filters (applyFilter cond record).1 := rfl
    obtain ⟨hsub, heq⟩ := leaves_applyFilter cond record path
    obtain ⟨ihsub, iheq⟩ := ih (applyFilter cond record).1
    have hcons : (fun leaf : Place × Value => (left (cond :: filters) path leaf).map (leaf.1, ·)) =
        fun leaf => (filtered path cond leaf).bind fun leaf' => (left filters path leaf').map (leaf'.1, ·) :=
      funext fun leaf => left_cons cond filters path leaf
    rw [hrun, hcons, ← List.filterMap_filterMap]
    refine ⟨ihsub.trans (hsub.filterMap _), fun hindexes => ?_⟩
    rw [iheq fun cond' hcond' => ?_, heq (hindexes cond (List.mem_cons_self ..))]
    rw [indexes_applyFilter]
    exact hindexes cond' (List.mem_cons_of_mem _ hcond')

/-- No filter finds anything at its field. -/
def Clean (filters : List (CompiledFilterCondition F)) (record : Value) : Prop :=
  ∀ cond ∈ filters, ∀ s ∈ resolveField record cond.field, cond.bad s = false

/-- What the filters leave of the scalars at the field of a filter is nothing to it. -/
def Reached (filters : List (CompiledFilterCondition F)) (record : Value) : Prop :=
  ∀ cond ∈ filters, ∀ leaf ∈ leaves (segments cond.field) record,
    ((left filters (segments cond.field) leaf).bind scalar).any cond.bad = false

instance (filters : List (CompiledFilterCondition F)) (record : Value) : Decidable (Clean filters record) :=
  inferInstanceAs (Decidable (∀ cond ∈ filters, _))

instance (filters : List (CompiledFilterCondition F)) (record : Value) : Decidable (Reached filters record) :=
  inferInstanceAs (Decidable (∀ cond ∈ filters, _))

/-- The filters reach what the rules reach if every scalar at the field of a filter is left harmless to it by the first
filter that gets to it and takes it; and only then, unless some filter goes by index into an array. -/
theorem filters_reach_iff (config : CompiledRulesConfig F) (dataType : String) (record : Value) :
    (Reached (config.filtersFor dataType) record →
      Clean (config.filtersFor dataType) (applyFilters config dataType record).1) ∧
    (Clean (config.filtersFor dataType) (applyFilters config dataType record).1 →
      Reached (config.filtersFor dataType) record ∨
        ∃ cond ∈ config.filtersFor dataType, cond.indexes record = true) := by
  rw [applyFilters_fst]
  generalize config.filtersFor dataType = filters
  constructor
  · intro hreached cond hcond s hs
    rw [resolveField_eq, List.mem_filterMap] at hs
    obtain ⟨leaf, hleaf, hscalar⟩ := hs
    obtain ⟨leaf₀, hleaf₀, hleft⟩ := List.mem_filterMap.1 ((leaves_applyAll filters record _).1.subset hleaf)
    obtain ⟨v, hv, rfl⟩ := Option.map_eq_some_iff.1 hleft
    have hbad := hreached cond hcond leaf₀ hleaf₀
    rw [hv, Option.bind_some, hscalar] at hbad
    exact hbad
  · intro hclean
    by_cases hindexes : ∃ cond ∈ filters, cond.indexes record = true
    · exact .inr hindexes
    · have hnone : ∀ cond ∈ filters, cond.indexes record = false := by
        intro cond hcond
        exact Bool.eq_false_of_not_eq_true fun h => hindexes ⟨cond, hcond, h⟩
      left
      intro cond hcond leaf hleaf
      cases hs : (left filters (segments cond.field) leaf).bind scalar with
      | none => rfl
      | some s =>
        obtain ⟨v, hv, hscalar⟩ := Option.bind_eq_some_iff.1 hs
        apply hclean cond hcond s
        rw [resolveField_eq, (leaves_applyAll filters record _).2 hnone]
        refine List.mem_filterMap.2 ⟨(leaf.1, v), List.mem_filterMap.2 ⟨leaf, hleaf, ?_⟩, hscalar⟩
        rw [hv]
        rfl

def labelsRelease (names : List String) : List ReadResult :=
  ([Event.start ⟨"releases", []⟩, .start ⟨"release", [some ⟨"id", "1", some "1"⟩]⟩] ++
    names.map (fun name => Event.empty ⟨"label", [some ⟨"name", name, some name⟩]⟩) ++
    [Event.endTag "release", .endTag "releases"]).map .event

def labelsMessage (label : Value) : DataMessage := ⟨"1", "", .object [("@id", .string "1"), ("label", label)], none⟩

def withoutX : CompiledRulesConfig Nat where
  rules := ∅
  skipConditions := ∅
  filters := AList.insert "releases" [.removeMatching "label.@name" (· == "x") "Strip x"] ∅

theorem oneLabel_clean : Clean (withoutX.filtersFor "releases")
    (applyFilters withoutX "releases" (labelsMessage (.object [("@name", .string "x")])).data).1 :=
  (filters_reach_iff withoutX "releases" _).1 (by decide)

/-- Beside another label, the name is not filtered. -/
theorem twoLabels_not_clean :
    let m := labelsMessage (.array [.object [("@name", .string "x")], .object [("@name", .string "y")]])
    m ∈ ((⟨.releases, false⟩ : XmlParser).parseFile XmlParser.alive (some (labelsRelease ["x", "y"]))).2 ∧
      ¬Clean (withoutX.filtersFor "releases") (applyFilters withoutX "releases" m.data).1 :=
  ⟨List.mem_singleton.2 rfl, by decide⟩

end DiscogsIngestion.Rules
