import Mathlib.Data.Finset.Insert
import DiscogsIngestion.StateMarker

/-!
# The task of a file

`process_single_file` holds an entry of `active_connections` and a connection to the broker.

* `Outcomes` : what its external steps return, and what other tasks do to the shared marker meanwhile;
* `stages`, `pipeline`, `processSingleFile` : the two variants of the pipeline, its end, and the whole task;
* `Released` : the connection closed once, no active connection left, and the file recorded if all went well;
* `released_iff` : the task releases what it holds exactly if it gets as far as its pipeline.
-/

namespace DiscogsIngestion.FileTask

inductive Call where
  | save (marker : StateMarker)
  | setupExchange (dataType : DataType)
  | sendFileComplete (dataType : DataType) (file : String) (total : Nat)
  | close (ok : Bool)
  deriving DecidableEq

def Call.isClose : Call → Bool
  | close _ => true
  | _ => false

/-- What the task shares with the other tasks, and the calls that it has made. -/
structure State where
  activeConnections : Table DataType String
  completedFiles : Finset String
  marker : StateMarker
  calls : List Call

/-- What the steps of the task return. A stage of the pipeline may panic, or return an error. -/
structure Outcomes where
  startedAt : DateTime
  saveStarted : Except String Unit
  setupExchange : Except String Unit
  parser : Except String (Except String Nat)
  validator : Except String (Except String Unit)
  normalizer : Except String (Except String Unit)
  batcher : Except String (Except String Unit)
  publisher : Except String (Except String Unit)
  /-- What the batcher and the other tasks do to the marker while the pipeline runs. -/
  meanwhile : StateMarker → StateMarker
  sendFileComplete : Except String Unit
  completedAt : DateTime
  saveCompleted : Except String Unit
  close : Except String Unit

/-- A stage ran to its end, without a panic or an error. -/
def ran {α : Type} (handle : Except String (Except String α)) : Bool :=
  match handle with
  | .ok (.ok _) => true
  | _ => false

def Outcomes.stagesRan (o : Outcomes) (rules : Bool) : Bool :=
  ran o.parser && (!rules || ran o.validator) && ran o.normalizer && ran o.batcher && ran o.publisher

/-- No step from the parser to the save behind the pipeline fails. -/
def Outcomes.succeed (o : Outcomes) (rules : Bool) : Bool :=
  o.stagesRan rules && o.sendFileComplete.isOk && o.saveCompleted.isOk

namespace State

variable (s : State)

def call (c : Call) : State := { s with calls := s.calls ++ [c] }

def save (marker : StateMarker) (now : DateTime) : State :=
  let marker := { marker with lastUpdated := now }
  { s with marker }.call (.save marker)

def track (dataType : DataType) (file : String) : State :=
  { s with activeConnections := s.activeConnections.insert dataType file }

/-- Only `completed_files` depends on the result. -/
def release (dataType : DataType) (file : String) (ok : Bool) : State :=
  { s with
    completedFiles := if ok then insert file s.completedFiles else s.completedFiles
    activeConnections := s.activeConnections.erase dataType }

/-- How often the connection has been closed. -/
def closes : Nat := s.calls.countP (·.isClose)

end State

/-- The stages of the pipeline: joined all at once behind a validator, or one after another. Which error it is when
several stages panic depends on their timing; here it is the first of the list. -/
def stages (rules : Bool) (o : Outcomes) : Except String Nat :=
  if rules then do
    let parserResult ← o.parser
    let validatorResult ← o.validator
    let normalizerResult ← o.normalizer
    let batcherResult ← o.batcher
    let publisherResult ← o.publisher
    let totalCount ← parserResult
    validatorResult
    normalizerResult
    batcherResult
    publisherResult
    return totalCount
  else do
    let totalCount ← (← o.parser)
    (← o.normalizer)
    (← o.batcher)
    (← o.publisher)
    return totalCount

/-- The block whose result decides what is recorded. -/
def pipeline (rules : Bool) (dataType : DataType) (file : String) (o : Outcomes) (s : State) :
    State × Except String Nat :=
  let s := { s with marker := o.meanwhile s.marker }
  match stages rules o with
  | .error e => (s, .error e)
  | .ok totalCount =>
    let s := s.call (.sendFileComplete dataType file totalCount)
    match o.sendFileComplete with
    | .error e => (s, .error e)
    | .ok _ =>
      let s := s.save (s.marker.completeFileProcessing file totalCount o.completedAt) o.completedAt
      match o.saveCompleted with
      | .error e => (s, .error e)
      | .ok _ => (s, .ok totalCount)

def processSingleFile (rules : Bool) (file : String) (o : Outcomes) (s : State) : State × Except String Unit :=
  match extractDataType file with
  | none => (s, .error ("Invalid file format: " ++ file))
  | some dataType =>
    let s := s.save (s.marker.startFileProcessing file o.startedAt) o.startedAt
    match o.saveStarted with
    | .error e => (s, .error e)
    | .ok _ =>
      let s := s.call (.setupExchange dataType)
      match o.setupExchange with
      | .error e => (s, .error e)
      | .ok _ =>
        let (s, pipelineResult) := pipeline rules dataType file o (s.track dataType file)
        let s := s.release dataType file pipelineResult.isOk
        -- a close that fails is only logged
        let s := s.call (.close o.close.isOk)
        (s, pipelineResult.map fun _ => ())

/-- What the task leaves behind: the connection closed once, no active connection of its data type, and the file
recorded exactly if the task succeeded. -/
structure Released (file : String) (before after : State) (result : Except String Unit) : Prop where
  closed : after.closes = before.closes + 1
  inactive : ∀ dataType ∈ extractDataType file, after.activeConnections.lookup dataType = none
  recorded : file ∈ after.completedFiles ↔ result.isOk = true

variable {rules : Bool} {dataType : DataType} {file : String} {o : Outcomes} {s : State}

/-! ## The pipeline -/

theorem isOk_bind {α γ : Type} {x : Except String α} {f : α → Except String γ} :
    (x >>= f).isOk = true ↔ ∃ a, x = .ok a ∧ (f a).isOk = true := by
  cases x with
  | error e => simp [bind, Except.bind, Except.isOk, Except.toBool]
  | ok a => simp [bind, Except.bind]

theorem isOk_iff {α : Type} {x : Except String α} : x.isOk = true ↔ ∃ a, x = .ok a := by
  cases x <;> simp [Except.isOk, Except.toBool]

theorem ran_iff {α : Type} {handle : Except String (Except String α)} :
    ran handle = true ↔ ∃ result a, handle = .ok result ∧ result = .ok a := by
  unfold ran
  constructor
  · intro h
    split at h
    · exact ⟨_, _, rfl, rfl⟩
    · exact absurd h Bool.false_ne_true
  · rintro ⟨result, a, rfl, rfl⟩
    rfl

/-- Both variants need all their stages. -/
theorem stages_isOk (rules : Bool) (o : Outcomes) : (stages rules o).isOk = o.stagesRan rules := by
  rw [Bool.eq_iff_iff]
  unfold stages Outcomes.stagesRan
  simp only [Bool.and_eq_true, Bool.or_eq_true, Bool.not_eq_true', and_assoc]
  cases rules with
  | true =>
    rw [if_pos rfl]
    simp only [isOk_bind, ran_iff, Bool.true_eq_false, false_or]
    constructor
    · rintro ⟨_, hp, _, hv, _, hn, _, hb, _, hq, _, rfl, _, rfl, _, rfl, _, rfl, _, rfl, -⟩
      exact ⟨⟨_, _, hp, rfl⟩, ⟨_, _, hv, rfl⟩, ⟨_, _, hn, rfl⟩, ⟨_, _, hb, rfl⟩, ⟨_, _, hq, rfl⟩⟩
    · rintro ⟨⟨_, _, hp, rfl⟩, ⟨_, _, hv, rfl⟩, ⟨_, _, hn, rfl⟩, ⟨_, _, hb, rfl⟩, ⟨_, _, hq, rfl⟩⟩
      exact ⟨_, hp, _, hv, _, hn, _, hb, _, hq, _, rfl, _, rfl, _, rfl, _, rfl, _, rfl, rfl⟩
  | false =>
    rw [if_neg Bool.false_ne_true]
    simp only [isOk_bind, ran_iff, true_or, true_and]
    constructor
    · rintro ⟨_, hp, _, rfl, _, hn, _, rfl, _, hb, _, rfl, _, hq, _, rfl, -⟩
      exact ⟨⟨_, _, hp, rfl⟩, ⟨_, _, hn, rfl⟩, ⟨_, _, hb, rfl⟩, ⟨_, _, hq, rfl⟩⟩
    · rintro ⟨⟨_, _, hp, rfl⟩, ⟨_, _, hn, rfl⟩, ⟨_, _, hb, rfl⟩, ⟨_, _, hq, rfl⟩⟩
      exact ⟨_, hp, _, rfl, _, hn, _, rfl, _, hb, _, rfl, _, hq, _, rfl, rfl⟩

theorem pipeline_isOk (rules : Bool) (dataType : DataType) (file : String) (o : Outcomes) (s : State) :
    (pipeline rules dataType file o s).2.isOk = o.succeed rules := by
  unfold pipeline Outcomes.succeed
  rw [← stages_isOk]
  cases stages rules o with
  | error e => rfl
  | ok total =>
    dsimp only
    cases o.sendFileComplete with
    | error e => rfl
    | ok sent =>
      dsimp only
      cases o.saveCompleted <;> rfl

theorem closes_call (s : State) (c : Call) : (s.call c).closes = s.closes + if c.isClose then 1 else 0 := by
  unfold State.closes State.call
  rw [List.countP_append, List.countP_singleton]

/-- What is acquired before the pipeline, and what is recorded behind it. -/
def State.held (s : State) : Nat × Table DataType String × Finset String :=
  (s.closes, s.activeConnections, s.completedFiles)

theorem held_call {c : Call} (hc : c.isClose = false) : (s.call c).held = s.held := by
  unfold State.held
  rw [closes_call, hc]
  rfl

theorem held_save (s : State) (marker : StateMarker) (now : DateTime) : (s.save marker now).held = s.held :=
  held_call rfl

theorem pipeline_held (rules : Bool) (dataType : DataType) (file : String) (o : Outcomes) (s : State) :
    (pipeline rules dataType file o s).1.held = s.held := by
  unfold pipeline
  cases stages rules o with
  | error e => rfl
  | ok total =>
    dsimp only
    cases o.sendFileComplete with
    | error e => exact held_call rfl
    | ok sent =>
      dsimp only
      cases o.saveCompleted with
      | error e => exact (held_save ..).trans (held_call rfl)
      | ok saved => exact (held_save ..).trans (held_call rfl)

/-! ## The task -/

def Outcomes.entered (o : Outcomes) (file : String) : Bool :=
  (extractDataType file).isSome && o.saveStarted.isOk && o.setupExchange.isOk

/-- A task that does not get as far leaves its connection open. -/
theorem closes_of_not_entered (rules : Bool) (s : State) (h : o.entered file = false) :
    (processSingleFile rules file o s).1.closes = s.closes := by
  unfold processSingleFile
  unfold Outcomes.entered at h
  cases hdt : extractDataType file with
  | none => rfl
  | some dt =>
    dsimp only
    cases hsave : o.saveStarted with
    | error e => exact congrArg Prod.fst (held_save ..)
    | ok saved =>
      dsimp only
      cases hsetup : o.setupExchange with
      | error e => exact congrArg Prod.fst ((held_call rfl).trans (held_save ..))
      | ok declared => simp [hdt, hsave, hsetup, Except.isOk, Except.toBool] at h

theorem held_track (s : State) (dataType : DataType) (file : String) :
    (s.track dataType file).held = (s.closes, s.activeConnections.insert dataType file, s.completedFiles) := rfl

theorem held_release (s : State) (dataType : DataType) (file : String) (ok closed : Bool) :
    ((s.release dataType file ok).call (.close closed)).held =
      (s.closes + 1, s.activeConnections.erase dataType,
        if ok then insert file s.completedFiles else s.completedFiles) := by
  unfold State.held
  rw [closes_call]
  rfl

/-- A task that does closes its connection, drops its entry and records its success. -/
theorem held_of_entered (rules : Bool) (s : State) (h : o.entered file = true) : ∃ dataType,
    extractDataType file = some dataType ∧ (processSingleFile rules file o s).2.isOk = o.succeed rules ∧
      (processSingleFile rules file o s).1.held = (s.closes + 1,
        (s.activeConnections.insert dataType file).erase dataType,
        if o.succeed rules then insert file s.completedFiles else s.completedFiles) := by
  simp only [Outcomes.entered, Bool.and_eq_true, Option.isSome_iff_exists, isOk_iff] at h
  obtain ⟨⟨⟨dt, hdt⟩, ⟨saved, hsave⟩⟩, ⟨declared, hsetup⟩⟩ := h
  refine ⟨dt, hdt, ?_⟩
  let started := s.save (s.marker.startFileProcessing file o.startedAt) o.startedAt
  let tracked := (started.call (.setupExchange dt)).track dt file
  have htracked : tracked.held = (s.closes, s.activeConnections.insert dt file, s.completedFiles) := by
    have hcalled : (started.call (.setupExchange dt)).held = s.held := (held_call rfl).trans (held_save ..)
    simp only [State.held, Prod.mk.injEq] at hcalled
    rw [held_track, hcalled.1, hcalled.2.1, hcalled.2.2]
  have hresult := pipeline_isOk rules dt file o tracked
  have hpipeline := (pipeline_held rules dt file o tracked).trans htracked
  simp only [State.held, Prod.mk.injEq] at hpipeline
  obtain ⟨hcloses, hactive, hcompleted⟩ := hpipeline
  have hrun : processSingleFile rules file o s =
      (((pipeline rules dt file o tracked).1.release dt file (pipeline rules dt file o tracked).2.isOk).call
        (.close o.close.isOk), (pipeline rules dt file o tracked).2.map fun _ => ()) := by
    unfold processSingleFile
    rw [hdt, hsave, hsetup]
  rw [hrun]
  constructor
  · rw [← hresult]
    cases (pipeline rules dt file o tracked).2 <;> rfl
  · rw [held_release, hresult, hcloses, hactive, hcompleted]

/-- The task releases what it holds exactly if it gets as far as its pipeline, and does not fail on a file that is
recorded already. -/
theorem released_iff (rules : Bool) (file : String) (o : Outcomes) (s : State) :
    Released file s (processSingleFile rules file o s).1 (processSingleFile rules file o s).2 ↔
      o.entered file = true ∧ (file ∈ s.completedFiles → o.succeed rules = true) := by
  cases hentered : o.entered file with
  | false =>
    have hopen := closes_of_not_entered rules s hentered
    constructor
    · intro h
      have hclosed := h.closed
      omega
    · rintro ⟨hno, -⟩
      exact absurd hno Bool.false_ne_true
  | true =>
    obtain ⟨dt, hdt, hresult, hheld⟩ := held_of_entered rules s hentered
    simp only [State.held, Prod.mk.injEq] at hheld
    obtain ⟨hcloses, hactive, hcompleted⟩ := hheld
    have hrecorded : file ∈ (processSingleFile rules file o s).1.completedFiles ↔
        o.succeed rules = true ∨ file ∈ s.completedFiles := by
      rw [hcompleted]
      cases o.succeed rules <;> simp
    constructor
    · intro h
      refine ⟨rfl, fun hmem => ?_⟩
      rw [← hresult]
      exact h.recorded.1 (hrecorded.2 (.inr hmem))
    · rintro ⟨-, honce⟩
      refine ⟨hcloses, ?_, ?_⟩
      · intro dataType hdataType
        obtain rfl := Option.some.inj (hdt.symm.trans hdataType)
        rw [hactive, AList.lookup_erase]
      · rw [hrecorded, hresult]
        exact ⟨fun hmem => hmem.elim id honce, .inl⟩

def undeclared : Outcomes where
  startedAt := 0
  saveStarted := .ok ()
  setupExchange := .error "channel closed"
  parser := .ok (.ok 2)
  validator := .ok (.ok ())
  normalizer := .ok (.ok ())
  batcher := .ok (.ok ())
  publisher := .ok (.ok ())
  meanwhile := id
  sendFileComplete := .ok ()
  completedAt := 1
  saveCompleted := .ok ()
  close := .ok ()

/-- When the exchange cannot be declared the connection is left open. -/
theorem undeclared_not_released :
    let s : State := ⟨∅, ∅, .new "20260101" 0, []⟩
    let after := processSingleFile true "discogs_20260101_artists.xml.gz" undeclared s
    ¬Released "discogs_20260101_artists.xml.gz" s after.1 after.2 := by
  intro s after h
  have hopen : after.1.closes = s.closes := closes_of_not_entered true s (by decide)
  have hclosed := h.closed
  omega

end DiscogsIngestion.FileTask
