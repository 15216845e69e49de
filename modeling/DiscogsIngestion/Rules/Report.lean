import DiscogsIngestion.Rules.Validator

/-!
# Merged quality reports

* `QualityReport.merge` : one report into another;
* `CountsAt` : what a report says of one data type;
* `merged_exact` : the merged reports of many streams are those of the streams put together, type by type.
-/

namespace DiscogsIngestion.Rules

def RuleCounts.merge (counts other : RuleCounts) : RuleCounts where
  errors := counts.errors + other.errors
  warnings := counts.warnings + other.warnings
  info := counts.info + other.info

def FilterCounts.merge (counts other : FilterCounts) : FilterCounts where
  records := counts.records + other.records
  values := counts.values + other.values

theorem RuleCounts.get_merge (counts other : RuleCounts) (severity : Severity) :
    (counts.merge other).get severity = counts.get severity + other.get severity := by
  cases severity <;> rfl

namespace QualityReport

def merge (report other : QualityReport) : QualityReport where
  counts := report.counts.absorb (·.absorb RuleCounts.merge {} ·) ∅ other.counts
  totalRecords := report.totalRecords.absorb (· + ·) 0 other.totalRecords
  skipped := report.skipped.absorb (· ++ ·) [] other.skipped
  filtered := report.filtered.absorb (·.absorb FilterCounts.merge {} ·) ∅ other.filtered

variable (report other : QualityReport) (dataType : String)

theorem total_merge : (report.merge other).total dataType = report.total dataType + other.total dataType :=
  Table.getD_absorb Nat.add_zero ..

theorem skippedRecords_merge :
    (report.merge other).skippedRecords dataType = report.skippedRecords dataType ++ other.skippedRecords dataType :=
  Table.getD_absorb List.append_nil ..

theorem ruleCount_merge (ruleName : String) (severity : Severity) :
    (report.merge other).ruleCount dataType ruleName severity =
      report.ruleCount dataType ruleName severity + other.ruleCount dataType ruleName severity := by
  unfold ruleCount merge
  dsimp only
  rw [Table.getD_absorb fun _ => rfl, Table.getD_absorb fun _ => rfl, RuleCounts.get_merge]

theorem filterCount_merge (field reason : String) :
    (report.merge other).filterCount dataType field reason =
      (report.filterCount dataType field reason).merge (other.filterCount dataType field reason) := by
  unfold filterCount merge
  dsimp only
  rw [Table.getD_absorb fun _ => rfl, Table.getD_absorb fun _ => rfl]

end QualityReport

variable {F : Type} [Double F] (casing : CaseMapping) (rules : CompiledRulesConfig F) (dataType : String)

structure CountsAt (messages : List DataMessage) (report : QualityReport) : Prop where
  total : report.total dataType = messages.length
  skipped : report.skippedRecords dataType = messages.filterMap (skippedRecord casing rules dataType)
  counts : ∀ ruleName severity, report.ruleCount dataType ruleName severity =
    (violated casing rules dataType messages).countP fun v => v.ruleName = ruleName ∧ v.severity = severity
  filtered : ∀ field reason, report.filterCount dataType field reason =
    let actions := (performed casing rules dataType messages).filter fun action =>
      action.field = field ∧ action.reason = reason
    ⟨actions.length, (actions.map FilterAction.removedCount).sum⟩

/-- The merged reports of streams, each of the records of one type. -/
def merged (streams : List (String × List DataMessage)) : QualityReport :=
  streams.foldl (fun report stream =>
    report.merge (messageValidator casing rules stream.1 XmlParser.alive stream.2).report) {}

variable {casing rules dataType} {messages rest : List DataMessage} {report other : QualityReport}

theorem Tallied.countsAt (h : Tallied casing rules dataType messages report) (dt : String) :
    CountsAt casing rules dt (if dt = dataType then messages else []) report := by
  by_cases hdt : dt = dataType
  · subst hdt
    rw [if_pos rfl]
    refine ⟨?_, ?_, fun ruleName severity => ?_, fun field reason => ?_⟩
    · rw [h.total, if_pos rfl]
    · rw [h.skipped, if_pos rfl]
    · rw [h.counts, if_pos rfl]
    · rw [h.filtered, if_pos rfl]
  · rw [if_neg hdt]
    refine ⟨?_, ?_, fun ruleName severity => ?_, fun field reason => ?_⟩
    · rw [h.total, if_neg hdt]
      rfl
    · rw [h.skipped, if_neg hdt]
      rfl
    · rw [h.counts, if_neg hdt]
      rfl
    · rw [h.filtered, if_neg hdt]
      rfl

theorem CountsAt.merge (h : CountsAt casing rules dataType messages report)
    (h' : CountsAt casing rules dataType rest other) :
    CountsAt casing rules dataType (messages ++ rest) (report.merge other) := by
  refine ⟨?_, ?_, fun ruleName severity => ?_, fun field reason => ?_⟩
  · rw [QualityReport.total_merge, h.total, h'.total, List.length_append]
  · rw [QualityReport.skippedRecords_merge, h.skipped, h'.skipped, List.filterMap_append]
  · rw [QualityReport.ruleCount_merge, h.counts, h'.counts, violated_append, List.countP_append]
  · rw [QualityReport.filterCount_merge, h.filtered, h'.filtered, performed_append]
    simp only [FilterCounts.merge, List.filter_append, List.length_append, List.map_append, List.sum_append]

variable (casing rules dataType) in
theorem countsAt_messageValidator (dt : String) (messages : List DataMessage) :
    CountsAt casing rules dt (if dt = dataType then messages else [])
      (messageValidator casing rules dataType XmlParser.alive messages).report :=
  (validateAll_exact [] messages {} tallied_nil rfl).1.countsAt dt

theorem countsAt_merged (streams : List (String × List DataMessage)) (dt : String) :
    CountsAt casing rules dt ((streams.filter (·.1 = dt)).flatMap (·.2)) (merged casing rules streams) := by
  suffices hfold : ∀ report messages, CountsAt casing rules dt messages report →
      CountsAt casing rules dt (messages ++ (streams.filter (·.1 = dt)).flatMap (·.2))
        (streams.foldl (fun report stream =>
          report.merge (messageValidator casing rules stream.1 XmlParser.alive stream.2).report) report) from
    hfold {} [] (by simpa using (@tallied_nil _ _ casing rules dt).countsAt dt)
  induction streams with
  | nil =>
    intro report messages h
    rwa [List.filter_nil, List.flatMap_nil, List.append_nil]
  | cons stream streams ih =>
    intro report messages h
    have hone := ih _ _ (h.merge (countsAt_messageValidator casing rules stream.1 dt stream.2))
    rw [List.append_assoc] at hone
    by_cases hdt : stream.1 = dt
    · rw [List.filter_cons_of_pos (by simpa using hdt), List.flatMap_cons]
      rwa [if_pos hdt.symm] at hone
    · rw [List.filter_cons_of_neg (by simpa using hdt)]
      rwa [if_neg (Ne.symm hdt), List.nil_append] at hone

variable (casing rules)

/-- Whatever streams the stage has run on, in whatever order, their merged reports say of each data type what the
report on all its streams, one behind the other, says. -/
theorem merged_exact (streams : List (String × List DataMessage)) (dt : String) :
    let whole := (messageValidator casing rules dt XmlParser.alive
      ((streams.filter (·.1 = dt)).flatMap (·.2))).report
    (merged casing rules streams).total dt = whole.total dt ∧
      (merged casing rules streams).skippedRecords dt = whole.skippedRecords dt ∧
      (∀ ruleName severity, (merged casing rules streams).ruleCount dt ruleName severity =
        whole.ruleCount dt ruleName severity) ∧
      ∀ field reason, (merged casing rules streams).filterCount dt field reason =
        whole.filterCount dt field reason := by
  have hmerged : CountsAt casing rules dt _ (merged casing rules streams) := countsAt_merged streams dt
  have hwhole := countsAt_messageValidator casing rules dt dt
    ((streams.filter (·.1 = dt)).flatMap (·.2))
  rw [if_pos rfl] at hwhole
  refine ⟨?_, ?_, fun ruleName severity => ?_, fun field reason => ?_⟩
  · rw [hmerged.total, hwhole.total]
  · rw [hmerged.skipped, hwhole.skipped]
  · rw [hmerged.counts, hwhole.counts]
  · rw [hmerged.filtered, hwhole.filtered]

end DiscogsIngestion.Rules
