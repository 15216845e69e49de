import DiscogsIngestion.Parser.Recovery
import DiscogsIngestion.Rules.Engine

/-!
# Required fields

A required rule looks at all the scalars at its field at once, not at each branch by itself.

* `branches` : what is at a field on each branch of the path, arrays expanded;
* `Unmet` : some branch does not carry the field, or carries it without a value;
* `Reported` : the evaluation of the rules reports this rule;
* `reported_iff` : what is reported: a branch with an empty value, or no branch with a text;
* `required_exact_iff` : the records and fields for which the two are the same.
-/

namespace DiscogsIngestion.Rules

variable {F : Type} [Double F] {record : Value} {field : String} {rule : CompiledRule F}

/-- The values at a field, branch by branch. A branch that cannot be followed has none. -/
def branches (field : String) (record : Value) : List (Option Value) := Walk.branches child (segments field) record

def isEmpty : Option Value → Bool
  | some .null => true
  | some (.string s) => s = ""
  | _ => false

def isText : Option Value → Bool
  | some (.string s) => s ≠ ""
  | _ => false

/-- Some branch cannot be followed to the field. -/
def Missing (field : String) (record : Value) : Prop := (branches field record).any Option.isNone = true

/-- Some branch carries null or the empty string. -/
def Blank (field : String) (record : Value) : Prop := (branches field record).any isEmpty = true

def Text (field : String) (record : Value) : Prop := (branches field record).any isText = true

/-- What the required condition is about. -/
def Unmet (field : String) (record : Value) : Prop := Missing field record ∨ Blank field record

instance : Decidable (Missing field record) := inferInstanceAs (Decidable (_ = true))

instance : Decidable (Blank field record) := inferInstanceAs (Decidable (_ = true))

instance : Decidable (Text field record) := inferInstanceAs (Decidable (_ = true))

instance : Decidable (Unmet field record) := inferInstanceAs (Decidable (_ ∨ _))

/-- The evaluation of the rules reports this rule. -/
def Reported (config : CompiledRulesConfig F) (dataType : String) (rule : CompiledRule F) (record : Value) : Prop :=
  ∃ v ∈ evaluateRules config dataType record, v ∈ evaluateRule rule record

/-! ## What is at a field of a parsed record -/

/-- A value that the parser emits, or the value of an attribute. -/
def Parsed (v : Value) : Prop := v.Shaped ∨ ∃ s, v = .string s

theorem parsed_child {v w : Value} {segment : String} {ws : List Value} (hv : Parsed v)
    (hchild : child segment v = some ws) (hw : w ∈ ws) : Parsed w := by
  unfold child at hchild
  split at hchild
  · next map =>
    obtain hshaped | ⟨s, hs⟩ := hv
    · cases hshaped with
      | object _ _ hentries =>
        split at hchild
        · next arr hget =>
          obtain rfl := Option.some.inj hchild
          cases hentries _ (Map.mem_of_get hget) with
          | child h => exact nomatch h
          | children _ h => exact .inl (h w hw)
        · next other hne hget =>
          obtain rfl := Option.some.inj hchild
          obtain rfl := List.mem_singleton.1 hw
          cases hentries _ (Map.mem_of_get hget) with
          | attr => exact .inr ⟨_, rfl⟩
          | child h => exact .inl h
          | @children _ items _ _ => exact absurd rfl (hne items)
        · exact absurd hchild (by simp)
    · exact absurd hs (by simp)
  · exact absurd hchild (by simp)

theorem parsed_branches {path : List String} {v w : Value} (hv : Parsed v)
    (hw : some w ∈ Walk.branches child path v) : Parsed w := by
  induction path generalizing v with
  | nil =>
    obtain rfl := Option.some.inj (List.mem_singleton.1 hw)
    exact hv
  | cons segment path ih =>
    obtain ⟨-, hnone⟩ | ⟨ws, hstep, v', hv', hw⟩ := (Walk.mem_branches_cons child).1 hw
    · exact absurd hnone (by simp)
    · exact ih (parsed_child hv hstep hv') hw

theorem isEmpty_iff {w : Value} (hw : Parsed w) : isEmpty (some w) = true ↔ scalar w = some "" := by
  obtain hshaped | ⟨s, rfl⟩ := hw
  · cases hshaped <;> simp [isEmpty, scalar]
  · simp [isEmpty, scalar]

theorem isText_iff {w : Value} (hw : Parsed w) : isText (some w) = true ↔ ∃ s, s ≠ "" ∧ scalar w = some s := by
  obtain hshaped | ⟨s, rfl⟩ := hw
  · cases hshaped <;> simp [isText, scalar]
  · simp [isText, scalar]

/-! ## What is reported -/

theorem mem_resolveField {s : String} :
    s ∈ resolveField record field ↔ ∃ w, some w ∈ branches field record ∧ scalar w = some s := by
  unfold resolveField branches
  rw [List.mem_filterMap]
  simp only [Walk.mem_places]

theorem blank_iff (h : Parsed record) : Blank field record ↔ "" ∈ resolveField record field := by
  unfold Blank
  rw [List.any_eq_true, mem_resolveField]
  constructor
  · rintro ⟨b, hb, hempty⟩
    cases b with
    | none => exact absurd hempty (by simp [isEmpty])
    | some w => exact ⟨w, hb, (isEmpty_iff (parsed_branches h hb)).1 hempty⟩
  · rintro ⟨w, hw, hscalar⟩
    exact ⟨some w, hw, (isEmpty_iff (parsed_branches h hw)).2 hscalar⟩

theorem text_iff (h : Parsed record) : Text field record ↔ ∃ s ∈ resolveField record field, s ≠ "" := by
  unfold Text
  rw [List.any_eq_true]
  constructor
  · rintro ⟨b, hb, htext⟩
    cases b with
    | none => exact absurd htext (by simp [isText])
    | some w =>
      obtain ⟨s, hne, hscalar⟩ := (isText_iff (parsed_branches h hb)).1 htext
      exact ⟨s, mem_resolveField.2 ⟨w, hb, hscalar⟩, hne⟩
  · rintro ⟨s, hs, hne⟩
    obtain ⟨w, hw, hscalar⟩ := mem_resolveField.1 hs
    exact ⟨some w, hw, (isText_iff (parsed_branches h hw)).2 ⟨s, hne, hscalar⟩⟩

theorem reported_of_mem {config : CompiledRulesConfig F} {dataType : String}
    (hrule : rule ∈ config.rulesFor dataType) :
    Reported config dataType rule record ↔ evaluateRule rule record ≠ [] := by
  unfold Reported evaluateRules
  constructor
  · rintro ⟨v, -, hv⟩
    exact List.ne_nil_of_mem hv
  · intro hne
    obtain ⟨v, hv⟩ := List.exists_mem_of_ne_nil _ hne
    exact ⟨v, List.mem_flatMap.2 ⟨rule, hrule, hv⟩, hv⟩

/-- A required rule is reported for a branch with an empty value, or when there is no branch with a text. -/
theorem reported_iff {config : CompiledRulesConfig F} {dataType : String} (h : Parsed record)
    (hrule : rule ∈ config.rulesFor dataType) (hcondition : rule.condition = .required) :
    Reported config dataType rule record ↔ Blank rule.field record ∨ ¬Text rule.field record := by
  rw [reported_of_mem hrule, blank_iff h, text_iff h]
  unfold evaluateRule
  rw [hcondition]
  dsimp only
  split_ifs with hnone
  · simp [hnone]
  · rw [ne_eq, List.map_eq_nil_iff, List.filter_eq_nil_iff]
    obtain ⟨val, hval⟩ := List.exists_mem_of_ne_nil _ hnone
    constructor
    · intro hfilter
      left
      by_contra hno
      apply hfilter
      intro s hs hempty
      obtain rfl : s = "" := by simpa using hempty
      exact hno hs
    · intro hsome hfilter
      have hempty : "" ∉ resolveField record rule.field := fun hmem => hfilter "" hmem (by simp)
      refine hsome.elim hempty fun htext => htext ⟨val, hval, ?_⟩
      rintro rfl
      exact hempty hval

/-- On a record that the parser emits, a required rule is exact if some branch carries an empty value, or else if there
is a branch that lacks the field exactly when there is none that carries a text. -/
theorem required_exact_iff (config : CompiledRulesConfig F) (dataType : String)
    (hrule : rule ∈ config.rulesFor dataType) (hcondition : rule.condition = .required) (p : XmlParser)
    (receiver : Nat → Bool) (results : Option (List ReadResult)) (m : DataMessage)
    (h : m ∈ (p.parseFile receiver results).2) :
    (Reported config dataType rule m.data ↔ Unmet rule.field m.data) ↔
      Blank rule.field m.data ∨ (Missing rule.field m.data ↔ ¬Text rule.field m.data) := by
  obtain ⟨entries, hdata, hshaped, -, -⟩ := (XmlParser.parseFile_emitted h).entries
  rw [reported_iff (hdata ▸ .inl hshaped) hrule hcondition]
  unfold Unmet
  by_cases hblank : Blank rule.field m.data
  · simp only [hblank, true_or, or_true]
  · simp only [hblank, false_or, or_false]
    exact Iff.comm

def requiring (field : String) : CompiledRule Nat := ⟨"required", field, .required, .error⟩

def oneRule (rule : CompiledRule Nat) : CompiledRulesConfig Nat := ⟨AList.insert "releases" [rule] ∅, ∅, ∅⟩

theorem labelId_exact : Reported (oneRule (requiring "label.@id")) "releases" (requiring "label.@id")
    (XmlParser.labelledMessage "name").data ↔ Unmet "label.@id" (XmlParser.labelledMessage "name").data := by
  have hsent : XmlParser.labelledMessage "name" ∈ ((⟨.releases, true⟩ : XmlParser).parseFile XmlParser.alive
      (some (XmlParser.labelledRelease "name"))).2 := List.mem_singleton.2 rfl
  have hrule : requiring "label.@id" ∈ (oneRule (requiring "label.@id")).rulesFor "releases" :=
    List.mem_singleton.2 rfl
  refine (required_exact_iff _ _ hrule rfl ⟨.releases, true⟩ XmlParser.alive _ _ hsent).2 ?_
  show Blank "label.@id" _ ∨ (Missing "label.@id" _ ↔ ¬Text "label.@id" _)
  decide

/-- A label that is an element with an attribute and a child is there, and yet it is reported. -/
theorem label_not_exact : XmlParser.labelledMessage "name" ∈
      ((⟨.releases, true⟩ : XmlParser).parseFile XmlParser.alive (some (XmlParser.labelledRelease "name"))).2 ∧
    Reported (oneRule (requiring "label")) "releases" (requiring "label") (XmlParser.labelledMessage "name").data ∧
      ¬Unmet "label" (XmlParser.labelledMessage "name").data := by
  refine ⟨List.mem_singleton.2 rfl, ⟨⟨"required", .error, "label", ""⟩, ?_, ?_⟩, ?_⟩
  · decide
  · decide
  · decide

end DiscogsIngestion.Rules
