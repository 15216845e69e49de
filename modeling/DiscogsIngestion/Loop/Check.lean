import DiscogsIngestion.Paths
import DiscogsIngestion.StateMarker

/-!
# One check

How `process_discogs_data` ends, and in which status it leaves the extractor.

* `ExtractionStatus`, `StatusM` : computations that set the status and may fail;
* `Answers` : what a check hears from the data source, the disk, its file tasks and the broker;
* `processDiscogsData` : the check behind its entry, where the status is `running`;
* `processDiscogsData_ends` : it returns `true` with the status `completed`, `false` with `failed`, and an error with
  the status as it was.
-/

namespace DiscogsIngestion

/-- Lifecycle status of the extraction process. -/
inductive ExtractionStatus where
  | idle
  | running
  | completed
  | waiting
  | failed
  deriving DecidableEq, Repr

/-- Computations that set the status, and may end with an error. -/
abbrev StatusM := ExceptT Unit (StateM ExtractionStatus)

namespace Loop

/-- What a check hears from the calls that it makes. `none` and `false` are errors. -/
structure Answers where
  now : DateTime
  listS3Files : Option (List String)
  getLatestMonthlyFiles : List String → Option (List String)
  load : Option (Option StateMarker)
  downloadDiscogsData : Option (List String)
  takeStateMarker : Option StateMarker
  /-- The save at the start of the processing phase, the one at its end, and the last one. -/
  savePhase : Bool
  saveProcessing : Bool
  saveExtraction : Bool
  /-- The result of the task of a file. -/
  task : String → Bool
  /-- The shutdown flag, read when the tasks have ended. -/
  shutdownRequested : Bool
  connect : Bool
  sendExtractionComplete : Bool

def call {α : Type} : Option α → StatusM α
  | some v => pure v
  | none => throw ()

def finish (status : ExtractionStatus) (success : Bool) : StatusM Bool := do
  set status
  return success

def loadMarker (a : Answers) (forceReprocess : Bool) (version : String) : StatusM StateMarker :=
  if forceReprocess then return .new version a.now
  else do
    let loaded ← call a.load
    return loaded.getD (.new version a.now)

/-- Start the processing phase or resume it. -/
def startPhase (a : Answers) (m : StateMarker) (dataFiles : List String) : StatusM StateMarker :=
  if m.processingPhase.status = .pending then do
    call (if a.savePhase then some () else none)
    return m.startProcessing dataFiles.length a.now
  else if m.processingPhase.status = .inProgress then do
    call (if a.savePhase then some () else none)
    return m.setFilesTotal dataFiles.length
  else return m

/-- No file is pending: what is missing is `extraction_complete`, if anything. -/
def announceAll (a : Answers) (m : StateMarker) : StatusM Bool :=
  if m.summary.overallStatus = .completed then finish .completed true
  else do
    call (if a.saveProcessing then some () else none)
    if a.connect && a.sendExtractionComplete then
      call (if a.saveExtraction then some () else none)
      finish .completed true
    else finish .failed false

/-- Process the pending files, then announce that the extraction is complete. -/
def processFiles (a : Answers) (pendingFiles : List String) : StatusM Bool := do
  let success := pendingFiles.all a.task && !a.shutdownRequested
  call (if a.saveProcessing then some () else none)
  if success && a.connect && a.sendExtractionComplete then
    call (if a.saveExtraction then some () else none)
    finish .completed true
  else finish .failed false

/-- `process_discogs_data` once it has set the status to `running`. -/
def processDiscogsData (a : Answers) (forceReprocess : Bool) : StatusM Bool := do
  let availableFiles ← call a.listS3Files
  let latestFiles ← call (a.getLatestMonthlyFiles availableFiles)
  if latestFiles.isEmpty then finish .completed true
  else
    let firstFilename ← call (latestFiles.head?.bind Path.fileName)
    let version ← call (extractVersionFromFilename firstFilename)
    let stateMarker ← loadMarker a forceReprocess version
    -- whether it continues or reprocesses, the marker goes to the data source, which answers with its own
    if stateMarker.shouldProcess = .skip then finish .completed true
    else
      let dataFiles ← call a.downloadDiscogsData
      let stateMarker ← call a.takeStateMarker
      let dataFiles := dataFiles.filter fun file => !isChecksum file
      if dataFiles.isEmpty then finish .completed true
      else
        let stateMarker ← startPhase a stateMarker dataFiles
        let pendingFiles := stateMarker.pendingFiles dataFiles
        if pendingFiles.isEmpty then announceAll a stateMarker else processFiles a pendingFiles

def noFiles : Answers where
  now := 0
  listS3Files := some []
  getLatestMonthlyFiles := some
  load := some none
  downloadDiscogsData := some []
  takeStateMarker := none
  savePhase := true
  saveProcessing := true
  saveExtraction := true
  task := fun _ => true
  shutdownRequested := false
  connect := true
  sendExtractionComplete := true

/-! ## Endings -/

def outcome {α : Type} (x : StatusM α) (status : ExtractionStatus) : Except Unit α × ExtractionStatus :=
  x.run.run status

/-- The status fits the result. An error leaves the status as it was. -/
structure Ends (x : StatusM Bool) : Prop where
  fits : ∀ status, (outcome x status).2 = match (outcome x status).1 with
    | .ok true => .completed
    | .ok false => .failed
    | .error _ => status

theorem ends_call {α : Type} {k : α → StatusM Bool} (h : ∀ v, Ends (k v)) (answer : Option α) :
    Ends (call answer >>= k) := by
  cases answer with
  | some v => exact h v
  | none => exact ⟨fun _ => rfl⟩

theorem ends_completed : Ends (finish .completed true) := ⟨fun _ => rfl⟩

theorem ends_failed : Ends (finish .failed false) := ⟨fun _ => rfl⟩

theorem ends_ite {c : Prop} [Decidable c] {x y : StatusM Bool} (hx : Ends x) (hy : Ends y) :
    Ends (if c then x else y) := by
  split
  · exact hx
  · exact hy

theorem ends_loadMarker {a : Answers} {force : Bool} {version : String} {k : StateMarker → StatusM Bool}
    (h : ∀ m, Ends (k m)) : Ends (loadMarker a force version >>= k) := by
  unfold loadMarker
  split
  · exact h _
  · cases a.load with
    | some loaded => exact h _
    | none => exact ⟨fun _ => rfl⟩

theorem ends_startPhase {a : Answers} {m : StateMarker} {files : List String} {k : StateMarker → StatusM Bool}
    (h : ∀ m, Ends (k m)) : Ends (startPhase a m files >>= k) := by
  unfold startPhase
  split
  · cases a.savePhase with
    | true => exact h _
    | false => exact ⟨fun _ => rfl⟩
  · split
    · cases a.savePhase with
      | true => exact h _
      | false => exact ⟨fun _ => rfl⟩
    · exact h _

theorem ends_announceAll (a : Answers) (m : StateMarker) : Ends (announceAll a m) := by
  unfold announceAll
  refine ends_ite ends_completed (ends_call (fun _ => ends_ite (ends_call (fun _ => ends_completed) _) ends_failed) _)

theorem ends_processFiles (a : Answers) (files : List String) : Ends (processFiles a files) := by
  unfold processFiles
  exact ends_call (fun _ => ends_ite (ends_call (fun _ => ends_completed) _) ends_failed) _

/-- The status fits the result of every check. -/
theorem processDiscogsData_ends (a : Answers) (force : Bool) : Ends (processDiscogsData a force) := by
  unfold processDiscogsData
  refine ends_call (fun available => ends_call (fun latest => ends_ite ends_completed ?_) _) _
  refine ends_call (fun first => ends_call (fun version => ends_loadMarker fun m => ?_) _) _
  refine ends_ite ends_completed (ends_call (fun files => ends_call (fun m => ?_) _) _)
  refine ends_ite ends_completed (ends_startPhase fun m => ?_)
  exact ends_ite (ends_announceAll a m) (ends_processFiles a _)

end Loop

end DiscogsIngestion
