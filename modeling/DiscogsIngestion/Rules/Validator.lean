import DiscogsIngestion.Parser.Machine
import DiscogsIngestion.Rules.Engine

/-!
# The validator stage

* `QualityReport` : what is counted for each data type, and the operations that count;
* `Flag` : a record that is handed to the writer of flagged records;
* `validateMessage`, `messageValidator` : the stage;
* `forwarded`, `performed` : the records that are not skipped, filtered, and what the filters have done to them;
* `Tallied` : a report that counts a stream;
* `messageValidator_exact` : what the stage sends and reports.
-/

namespace DiscogsIngestion.Rules

/-! ## The quality report -/

structure RuleCounts where
  errors : Nat := 0
  warnings : Nat := 0
  info : Nat := 0
  deriving DecidableEq, Repr

structure SkippedRecord where
  recordId : String
  reason : String
  deriving DecidableEq, Repr

/-- What one filter repaired: records touched, and values removed or nullified. -/
structure FilterCounts where
  records : Nat := 0
  values : Nat := 0
  deriving DecidableEq, Repr

/-- Everything by data type; rules by their name, filters by field and reason. -/
structure QualityReport where
  counts : Table String (Table String RuleCounts) := ∅
  totalRecords : Table String Nat := ∅
  skipped : Table String (List SkippedRecord) := ∅
  filtered : Table String (Table (String × String) FilterCounts) := ∅

def RuleCounts.add (counts : RuleCounts) : Severity → RuleCounts
  | .error => { counts with errors := counts.errors + 1 }
  | .warning => { counts with warnings := counts.warnings + 1 }
  | .info => { counts with info := counts.info + 1 }

def RuleCounts.get (counts : RuleCounts) : Severity → Nat
  | .error => counts.errors
  | .warning => counts.warnings
  | .info => counts.info

theorem RuleCounts.get_add (counts : RuleCounts) (severity severity' : Severity) :
    (counts.add severity).get severity' = counts.get severity' + if severity = severity' then 1 else 0 := by
  cases severity <;> cases severity' <;> rfl

namespace QualityReport

variable (report : QualityReport) (dataType : String)

def recordViolation (ruleName : String) (severity : Severity) : QualityReport :=
  { report with counts := report.counts.upsert dataType ∅ fun rules => rules.upsert ruleName {} (·.add severity) }

def incrementTotal : QualityReport :=
  { report with totalRecords := report.totalRecords.upsert dataType 0 (· + 1) }

def recordSkip (recordId reason : String) : QualityReport :=
  { report with skipped := report.skipped.upsert dataType [] (· ++ [⟨recordId, reason⟩]) }

def recordFilterAction (action : FilterAction) : QualityReport :=
  { report with filtered := report.filtered.upsert dataType ∅ fun filters =>
      filters.upsert (action.field, action.reason) {} fun counts =>
        { records := counts.records + 1, values := counts.values + action.removedCount } }

/-- Count what the filters repaired in one record. -/
def recordFilterActions (actions : List FilterAction) : QualityReport :=
  actions.foldl (fun report action => report.recordFilterAction dataType action) report

/-! ### What a report says -/

def ruleCount (ruleName : String) (severity : Severity) : Nat :=
  ((((report.counts.lookup dataType).getD ∅).lookup ruleName).getD {}).get severity

def total : Nat := (report.totalRecords.lookup dataType).getD 0

def skippedRecords : List SkippedRecord := (report.skipped.lookup dataType).getD []

def filterCount (field reason : String) : FilterCounts :=
  (((report.filtered.lookup dataType).getD ∅).lookup (field, reason)).getD {}

variable {report dataType}

theorem total_incrementTotal (dt : String) :
    (report.incrementTotal dataType).total dt = report.total dt + if dt = dataType then 1 else 0 := by
  show ((report.totalRecords.upsert dataType 0 (· + 1)).lookup dt).getD 0 = _
  rw [Table.lookup_upsert]
  unfold total
  split_ifs with h
  · rw [h]
    rfl
  · rfl

theorem skippedRecords_recordSkip (recordId reason dt : String) :
    (report.recordSkip dataType recordId reason).skippedRecords dt =
      report.skippedRecords dt ++ if dt = dataType then [⟨recordId, reason⟩] else [] := by
  show ((report.skipped.upsert dataType [] (· ++ [⟨recordId, reason⟩])).lookup dt).getD [] = _
  rw [Table.lookup_upsert]
  unfold skippedRecords
  split_ifs with h
  · rw [h]
    rfl
  · rw [List.append_nil]

theorem ruleCount_recordViolation (name : String) (severity : Severity) (dt name' : String) (severity' : Severity) :
    (report.recordViolation dataType name severity).ruleCount dt name' severity' =
      report.ruleCount dt name' severity' +
        if dt = dataType ∧ name = name' ∧ severity = severity' then 1 else 0 := by
  unfold ruleCount recordViolation
  dsimp only
  rw [Table.lookup_upsert]
  by_cases hdt : dt = dataType
  · subst hdt
    rw [if_pos rfl, Option.getD_some, Table.lookup_upsert]
    by_cases hname : name' = name
    · subst hname
      rw [if_pos rfl, Option.getD_some, RuleCounts.get_add]
      simp
    · simp [hname, Ne.symm hname]
  · simp [hdt]

theorem filterCount_recordFilterAction (action : FilterAction) (dt field reason : String) :
    (report.recordFilterAction dataType action).filterCount dt field reason =
      if dt = dataType ∧ action.field = field ∧ action.reason = reason then
        ⟨(report.filterCount dt field reason).records + 1,
          (report.filterCount dt field reason).values + action.removedCount⟩
      else report.filterCount dt field reason := by
  unfold filterCount recordFilterAction
  dsimp only
  rw [Table.lookup_upsert]
  by_cases hdt : dt = dataType
  · subst hdt
    rw [if_pos rfl, Option.getD_some, Table.lookup_upsert]
    by_cases hkey : action.field = field ∧ action.reason = reason
    · obtain ⟨rfl, rfl⟩ := hkey
      simp
    · have hne : (field, reason) ≠ (action.field, action.reason) := by
        intro heq
        obtain ⟨rfl, rfl⟩ := Prod.mk.inj heq
        exact hkey ⟨rfl, rfl⟩
      rw [if_neg hne, if_neg fun h => hkey h.2]
  · rw [if_neg hdt, if_neg fun h => hdt h.1]

theorem recordFilterActions_eq (report : QualityReport) (dataType : String) (actions : List FilterAction) :
    ∃ filtered, report.recordFilterActions dataType actions = { report with filtered := filtered } := by
  unfold recordFilterActions
  induction actions generalizing report with
  | nil => exact ⟨_, rfl⟩
  | cons action actions ih => exact ih (report.recordFilterAction dataType action)

theorem filterCount_recordFilterActions (actions : List FilterAction) (dt field reason : String) :
    (report.recordFilterActions dataType actions).filterCount dt field reason =
      let counted := actions.filter fun action => dt = dataType ∧ action.field = field ∧ action.reason = reason
      ⟨(report.filterCount dt field reason).records + counted.length,
        (report.filterCount dt field reason).values + (counted.map FilterAction.removedCount).sum⟩ := by
  unfold recordFilterActions
  induction actions generalizing report with
  | nil => rfl
  | cons action actions ih =>
    rw [List.foldl_cons, ih, filterCount_recordFilterAction]
    by_cases h : dt = dataType ∧ action.field = field ∧ action.reason = reason
    · rw [if_pos h, List.filter_cons_of_pos (by simpa using h)]
      simp only [List.length_cons, List.map_cons, List.sum_cons, FilterCounts.mk.injEq]
      omega
    · rw [if_neg h, List.filter_cons_of_neg (by simpa using h)]

end QualityReport

/-! ## The stage -/

/-- A call of the writer of flagged records. -/
inductive Flag where
  | skip (recordId : String) (info : SkipInfo) (rawXml : Option (List XmlOut)) (data : Value)
  | violation (recordId : String) (violation : Violation) (rawXml : Option (List XmlOut)) (data : Value)
    (captureFiles : Bool)
  deriving Repr

variable {F : Type} [Double F]

/-- What is kept while the stage runs. -/
structure ValidatorState where
  report : QualityReport := {}
  flags : List Flag := []
  sent : List DataMessage := []

section Stage

variable (casing : CaseMapping) (rules : CompiledRulesConfig F) (dataType : String)

/-- One violation is counted and flagged. The files of the record are kept for an error or a warning. -/
def recordViolation (message : DataMessage) (s : ValidatorState) (violation : Violation) : ValidatorState :=
  { s with
    report := s.report.recordViolation dataType violation.ruleName violation.severity
    flags := s.flags ++ [.violation message.id violation message.rawXml message.data
      (violation.severity = .error || violation.severity = .warning)] }

/-- One message, up to the point where it is sent: none if the record is skipped. -/
def validateMessage (s : ValidatorState) (message : DataMessage) : ValidatorState × Option DataMessage :=
  let report := s.report.incrementTotal dataType
  match shouldSkipRecord casing rules dataType message.data with
  | some skipInfo =>
    ({ s with
      report := report.recordSkip dataType message.id skipInfo.reason
      flags := s.flags ++ [.skip message.id skipInfo message.rawXml message.data] }, none)
  | none =>
    -- the filters change the data of the message before the rules see it
    let (data, filterActions) := applyFilters rules dataType message.data
    let message := { message with data := data }
    let report := report.recordFilterActions dataType filterActions
    let violations := evaluateRules rules dataType message.data
    (violations.foldl (recordViolation dataType message) { s with report := report }, some message)

/-- The stage. A send fails when the receiver is gone, and the stage ends with what it has counted. -/
def validateAll (receiver : Nat → Bool) : ValidatorState → List DataMessage → ValidatorState
  | s, [] => s
  | s, message :: rest =>
    match validateMessage casing rules dataType s message with
    | (s, none) => validateAll receiver s rest
    | (s, some message) =>
      if receiver s.sent.length then validateAll receiver { s with sent := s.sent ++ [message] } rest else s

def messageValidator (receiver : Nat → Bool) (messages : List DataMessage) : ValidatorState :=
  validateAll casing rules dataType receiver {} messages

/-! ## What the stage sends and reports -/

def skippedRecord (message : DataMessage) : Option SkippedRecord :=
  (shouldSkipRecord casing rules dataType message.data).map fun info => ⟨message.id, info.reason⟩

def keptMessages (messages : List DataMessage) : List DataMessage :=
  messages.filter fun message => (shouldSkipRecord casing rules dataType message.data).isNone

def forwarded (messages : List DataMessage) : List DataMessage :=
  (keptMessages casing rules dataType messages).map fun message =>
    { message with data := (applyFilters rules dataType message.data).1 }

def performed (messages : List DataMessage) : List FilterAction :=
  (keptMessages casing rules dataType messages).flatMap fun message => (applyFilters rules dataType message.data).2

/-- The violations of the records that are forwarded. -/
def violated (messages : List DataMessage) : List Violation :=
  (forwarded casing rules dataType messages).flatMap fun message => evaluateRules rules dataType message.data

/-- The report counts these messages, under the data type and under no other. -/
structure Tallied (messages : List DataMessage) (report : QualityReport) : Prop where
  total : ∀ dt, report.total dt = if dt = dataType then messages.length else 0
  skipped : ∀ dt, report.skippedRecords dt =
    if dt = dataType then messages.filterMap (skippedRecord casing rules dataType) else []
  counts : ∀ dt ruleName severity, report.ruleCount dt ruleName severity = if dt = dataType then
    (violated casing rules dataType messages).countP fun v => v.ruleName = ruleName ∧ v.severity = severity else 0
  filtered : ∀ dt field reason, report.filterCount dt field reason = if dt = dataType then
    let actions := (performed casing rules dataType messages).filter fun action =>
      action.field = field ∧ action.reason = reason
    ⟨actions.length, (actions.map FilterAction.removedCount).sum⟩ else ⟨0, 0⟩

variable {casing rules dataType}

theorem recordViolations_eq (dataType : String) (message : DataMessage) (violations : List Violation)
    (s : ValidatorState) :
    ∃ counts flags, violations.foldl (recordViolation dataType message) s =
        { s with report := { s.report with counts := counts }, flags := flags } ∧
      ∀ dt ruleName severity, QualityReport.ruleCount { s.report with counts := counts } dt ruleName severity =
        s.report.ruleCount dt ruleName severity + violations.countP fun v =>
          dt = dataType ∧ v.ruleName = ruleName ∧ v.severity = severity := by
  induction violations generalizing s with
  | nil => exact ⟨s.report.counts, s.flags, rfl, fun dt ruleName severity => rfl⟩
  | cons v violations ih =>
    obtain ⟨counts, flags, heq, hcounts⟩ := ih (recordViolation dataType message s v)
    refine ⟨counts, flags, heq, fun dt ruleName severity => ?_⟩
    refine (hcounts dt ruleName severity).trans ?_
    show (s.report.recordViolation dataType v.ruleName v.severity).ruleCount dt ruleName severity + _ = _
    rw [QualityReport.ruleCount_recordViolation, List.countP_cons]
    simp only [decide_eq_true_eq]
    omega

theorem forwarded_append (messages messages' : List DataMessage) :
    forwarded casing rules dataType (messages ++ messages') =
      forwarded casing rules dataType messages ++ forwarded casing rules dataType messages' := by
  unfold forwarded keptMessages
  rw [List.filter_append, List.map_append]

theorem performed_append (messages messages' : List DataMessage) :
    performed casing rules dataType (messages ++ messages') =
      performed casing rules dataType messages ++ performed casing rules dataType messages' := by
  unfold performed keptMessages
  rw [List.filter_append, List.flatMap_append]

theorem violated_append (messages messages' : List DataMessage) :
    violated casing rules dataType (messages ++ messages') =
      violated casing rules dataType messages ++ violated casing rules dataType messages' := by
  unfold violated
  rw [forwarded_append, List.flatMap_append]

theorem tallied_nil : Tallied casing rules dataType [] {} := by
  refine ⟨fun dt => ?_, fun dt => ?_, fun dt ruleName severity => ?_, fun dt field reason => ?_⟩
  · exact (ite_self 0).symm
  · exact (ite_self []).symm
  · cases severity <;> exact (ite_self 0).symm
  · exact (ite_self _).symm

theorem validateMessage_skipped {messages : List DataMessage} {message : DataMessage} {s : ValidatorState}
    {info : SkipInfo} (hskip : shouldSkipRecord casing rules dataType message.data = some info)
    (h : Tallied casing rules dataType messages s.report) :
    ∃ s', validateMessage casing rules dataType s message = (s', none) ∧ s'.sent = s.sent ∧
      forwarded casing rules dataType [message] = [] ∧
      Tallied casing rules dataType (messages ++ [message]) s'.report := by
  have hkept : keptMessages casing rules dataType [message] = [] :=
    List.filter_cons_of_neg (by rw [hskip]; simp)
  have hforwarded : forwarded casing rules dataType [message] = [] := congrArg (List.map _) hkept
  have hperformed : performed casing rules dataType [message] = [] := congrArg (List.flatMap _) hkept
  have hviolated : violated casing rules dataType [message] = [] := congrArg (List.flatMap _) hforwarded
  have hskipped : skippedRecord casing rules dataType message = some ⟨message.id, info.reason⟩ := by
    unfold skippedRecord
    rw [hskip]
    rfl
  refine ⟨{ s with
    report := (s.report.incrementTotal dataType).recordSkip dataType message.id info.reason
    flags := s.flags ++ [.skip message.id info message.rawXml message.data] }, ?_, rfl, hforwarded, ?_⟩
  · unfold validateMessage
    dsimp only
    rw [hskip]
  refine ⟨fun dt => ?_, fun dt => ?_, fun dt ruleName severity => ?_, fun dt field reason => ?_⟩
  · show (s.report.incrementTotal dataType).total dt = _
    rw [QualityReport.total_incrementTotal, h.total, List.length_append]
    split_ifs <;> rfl
  · rw [QualityReport.skippedRecords_recordSkip]
    show s.report.skippedRecords dt ++ _ = _
    rw [h.skipped, List.filterMap_append, List.filterMap_cons_some hskipped]
    split_ifs <;> rfl
  · show s.report.ruleCount dt ruleName severity = _
    rw [h.counts, violated_append, hviolated, List.append_nil]
  · show s.report.filterCount dt field reason = _
    rw [h.filtered, performed_append, hperformed, List.append_nil]

/-- A record that is not skipped is filtered, and sent whatever its violations are, which are counted. -/
theorem validateMessage_kept {messages : List DataMessage} {message : DataMessage} {s : ValidatorState}
    (hskip : shouldSkipRecord casing rules dataType message.data = none)
    (h : Tallied casing rules dataType messages s.report) :
    ∃ s' message', validateMessage casing rules dataType s message = (s', some message') ∧ s'.sent = s.sent ∧
      forwarded casing rules dataType [message] = [message'] ∧
      Tallied casing rules dataType (messages ++ [message]) s'.report := by
  have hkept : keptMessages casing rules dataType [message] = [message] :=
    List.filter_cons_of_pos (by rw [hskip]; rfl)
  have hskipped : skippedRecord casing rules dataType message = none := by
    unfold skippedRecord
    rw [hskip]
    rfl
  obtain ⟨⟨data, actions⟩, hfilters⟩ : ∃ r, applyFilters rules dataType message.data = r := ⟨_, rfl⟩
  have hforwarded : forwarded casing rules dataType [message] = [{ message with data := data }] := by
    unfold forwarded
    rw [hkept, List.map_singleton, hfilters]
  have hperformed : performed casing rules dataType [message] = actions := by
    unfold performed
    rw [hkept, List.flatMap_singleton, hfilters]
  have hviolated : violated casing rules dataType [message] = evaluateRules rules dataType data := by
    unfold violated
    rw [hforwarded, List.flatMap_singleton]
  obtain ⟨filtered, hfiltered⟩ := (s.report.incrementTotal dataType).recordFilterActions_eq dataType actions
  obtain ⟨counts, flags, hstate, hcounts⟩ := recordViolations_eq dataType
    { message with data := data } (evaluateRules rules dataType data)
    { s with report := (s.report.incrementTotal dataType).recordFilterActions dataType actions }
  refine ⟨(evaluateRules rules dataType data).foldl (recordViolation dataType { message with data := data })
      { s with report := (s.report.incrementTotal dataType).recordFilterActions dataType actions },
    { message with data := data }, ?_, ?_, hforwarded, ?_⟩
  · unfold validateMessage
    dsimp only
    rw [hskip, hfilters]
  · rw [hstate]
  rw [hstate]
  refine ⟨fun dt => ?_, fun dt => ?_, fun dt ruleName severity => ?_, fun dt field reason => ?_⟩
  · show ((s.report.incrementTotal dataType).recordFilterActions dataType actions).total dt = _
    rw [hfiltered]
    show (s.report.incrementTotal dataType).total dt = _
    rw [QualityReport.total_incrementTotal, h.total, List.length_append]
    split_ifs <;> rfl
  · show ((s.report.incrementTotal dataType).recordFilterActions dataType actions).skippedRecords dt = _
    rw [hfiltered]
    show s.report.skippedRecords dt = _
    rw [h.skipped, List.filterMap_append, List.filterMap_cons_none hskipped, List.filterMap_nil, List.append_nil]
  · rw [hcounts]
    have hbefore : ((s.report.incrementTotal dataType).recordFilterActions dataType actions).ruleCount dt ruleName
        severity = s.report.ruleCount dt ruleName severity := by
      rw [hfiltered]
      rfl
    dsimp only
    rw [hbefore, h.counts, violated_append, hviolated, List.countP_append]
    by_cases hdt : dt = dataType <;> simp [hdt]
  · show ((s.report.incrementTotal dataType).recordFilterActions dataType actions).filterCount dt field reason = _
    rw [QualityReport.filterCount_recordFilterActions]
    have hbefore : (s.report.incrementTotal dataType).filterCount dt field reason =
        s.report.filterCount dt field reason := rfl
    rw [hbefore, h.filtered, performed_append, hperformed]
    by_cases hdt : dt = dataType <;> simp [hdt]

/-- A run of the stage with a receiver that stays. -/
theorem validateAll_exact (messages rest : List DataMessage) (s : ValidatorState)
    (h : Tallied casing rules dataType messages s.report) (hsent : s.sent = forwarded casing rules dataType messages) :
    let final := validateAll casing rules dataType XmlParser.alive s rest
    Tallied casing rules dataType (messages ++ rest) final.report ∧
      final.sent = forwarded casing rules dataType (messages ++ rest) := by
  dsimp only
  induction rest generalizing messages s with
  | nil => exact ⟨by rwa [List.append_nil], by rwa [List.append_nil]⟩
  | cons message rest ih =>
    rw [List.append_cons messages message rest]
    unfold validateAll
    cases hskip : shouldSkipRecord casing rules dataType message.data with
    | some info =>
      obtain ⟨s', hstep, hsame, hnone, htally⟩ := validateMessage_skipped hskip h
      rw [hstep]
      refine ih (messages ++ [message]) s' htally ?_
      rw [hsame, hsent, forwarded_append, hnone, List.append_nil]
    | none =>
      obtain ⟨s', message', hstep, hsame, hone, htally⟩ := validateMessage_kept hskip h
      rw [hstep]
      refine ih (messages ++ [message]) { s' with sent := s'.sent ++ [message'] } htally ?_
      rw [hsame, hsent, forwarded_append, hone]

variable (casing rules dataType)

end Stage

end DiscogsIngestion.Rules
