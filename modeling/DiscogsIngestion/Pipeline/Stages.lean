import DiscogsIngestion.Pipeline.NoLoss
import DiscogsIngestion.Record.Event
import DiscogsIngestion.Rules.Validator

/-!
# The stages between parser and batcher

The pipeline with `message_validator` and `message_normalizer` as its transforms.

* `compiledRules`, `Config.ofStages` : what the two stages do to a record;
* `validateMessage_sent` : the first transform sends what the validator sends;
* `expected_ofStages`, `published_ofStages` : what is published is what the stages make of the parsed records.
-/

namespace DiscogsIngestion.Pipeline

open DiscogsIngestion.Rules (CompiledRulesConfig Double ValidatorState applyFilters forwarded keptMessages
  messageValidator shouldSkipRecord tallied_nil validateAll_exact validateMessage)

variable {F : Type} [Double F] (casing : CaseMapping) (n : Normalizer) (dt : DataType)

/-- What the rules of a configuration do to the records of a data type. -/
def compiledRules (rules : CompiledRulesConfig F) : Rules DataMessage where
  shouldSkip m := (shouldSkipRecord casing rules dt.asStr m.data).isSome
  applyFilters m := { m with data := (applyFilters rules dt.asStr m.data).1 }

/-- The pipeline for a file, with its settings. -/
def Config.ofStages (rules : Option (CompiledRulesConfig F)) (settings : Config DataMessage) : Config DataMessage :=
  { settings with rules := rules.map (compiledRules casing dt), normalize := n.apply dt }

/-- The records that reach the normalizer. -/
def validated (rules : Option (CompiledRulesConfig F)) (records : List DataMessage) : List DataMessage :=
  match rules with
  | some rules => (messageValidator casing rules dt.asStr XmlParser.alive records).sent
  | none => records

variable {casing n dt} {rules : Option (CompiledRulesConfig F)} {settings : Config DataMessage}
  {records : List DataMessage}

/-- What the validator sends of one record does not depend on what it has counted. -/
theorem validateMessage_sent (rules : CompiledRulesConfig F) (s : ValidatorState) (m : DataMessage) :
    (validateMessage casing rules dt.asStr s m).2 = Config.validator (compiledRules casing dt rules) m := by
  unfold validateMessage Config.validator compiledRules
  cases hskip : shouldSkipRecord casing rules dt.asStr m.data with
  | some info => simp [hskip]
  | none => simp [hskip]

theorem validated_eq (rules : CompiledRulesConfig F) (records : List DataMessage) :
    validated casing dt (some rules) records = forwarded casing rules dt.asStr records :=
  (validateAll_exact [] records {} tallied_nil rfl).2

theorem expected_ofStages : (Config.ofStages casing n dt rules settings).expected records =
    (validated casing dt rules records).map (n.apply dt) := by
  cases rules with
  | none => rfl
  | some rules =>
    have hkept : ∀ m : DataMessage, (shouldSkipRecord casing rules dt.asStr m.data).isNone =
        !(shouldSkipRecord casing rules dt.asStr m.data).isSome := by
      intro m
      rw [Option.not_isSome]
    rw [validated_eq]
    unfold forwarded keptMessages
    simp only [hkept]
    rfl

/-- Whatever reports the file as complete, each record that the validator sends has been published before it, once
and in order, normalized and hashed. -/
theorem published_ofStages {s : State DataMessage}
    (h : Reachable (Config.ofStages casing n dt rules settings) records s)
    {pre post : List (Event DataMessage)} {e : Event DataMessage} {total : Nat} (hlog : s.log = pre ++ e :: post)
    (he : e.reports = some total) :
    (publishedIn pre).flatten = (validated casing dt rules records).map (n.apply dt) ∧ total = records.length := by
  obtain ⟨hpublished, htotal⟩ := reportsPublished_of_reachable h pre e post total hlog he
  exact ⟨hpublished.trans expected_ofStages, htotal⟩

end DiscogsIngestion.Pipeline
