import DiscogsIngestion.Lib.Machine
import DiscogsIngestion.StateMarker

/-!
# Runs of `process_discogs_data`

Runs that share one `DISCOGS_ROOT`, with crashes between any two steps.

* `Config` : how contents are hashed and measured, and how many files are processed at once;
* `Run` : the local variables of a run, the markers in memory and the file tasks included;
* `State` : the files of `DISCOGS_ROOT`, the clock, the shutdown flag, the run, and a log;
* `Action`, `step` : one atomic step of the run, of one of its tasks or of the surroundings;
* `Tracked` : a marker, with what the log says about it.

A run starts when the tasks of the run before it have ended. The pipeline of a file is one task here: while it
runs it publishes and saves its progress any number of times, and when it has failed what is left of it may go
on doing so.
-/

namespace DiscogsIngestion.Session

/-- What the extractor is given. -/
structure Config (β : Type) where
  sha256 : β → String
  size : β → Nat
  maxWorkers : Nat

def Config.plain : Config String := ⟨id, String.length, 2⟩

/-- What a run reads of an entry of `.discogs_metadata.json`. -/
structure TrustedFile where
  checksum : String
  size : Nat
  deriving DecidableEq, Repr

/-- Where a run gets its files from: the Discogs site, or one staged file with its declared hash. -/
inductive Source where
  | downloader
  | localManifest (expectedSha256 : String) (size : Nat)
  deriving DecidableEq, Repr

/-- A marker, the data files of the run that holds or wrote it, and the processing attempt that each of its
entries comes from. Only the marker is in memory or on disk. -/
structure Tracked where
  marker : StateMarker
  dataFiles : List String
  attempts : String → Nat

/-- What became of a message: confirmed, taken by the broker without a confirmation, or not taken. -/
inductive Outcome where
  | confirmed
  | unconfirmed
  | refused
  deriving DecidableEq, Repr

def Outcome.accepted (o : Outcome) : Bool := o ≠ refused

inductive Event (β : Type) where
  | decided (version : String) (decision : ProcessingDecision) (latest : List String) (loaded : Tracked)
  | bytesVerified (version file checksum : String) (processed : Option String)
  | saved (version : String) (tracked : Tracked)
  | started (file : String) (attempt : Nat) (sourceChecksum : Option String)
  | opened (file : String) (attempt : Nat) (content : β)
  | published (file : String) (attempt : Nat) (time : DateTime)
  | fileComplete (file : String) (attempt total : Nat)
  | extractionComplete (version : String) (dataType : DataType) (startedAt : DateTime)
      (recordCounts : Table String Nat)

/-- What was published: file, attempt and time. -/
def Event.publication {β : Type} : Event β → Option (String × Nat × DateTime)
  | published file attempt time => some (file, attempt, time)
  | _ => none

theorem Event.mem_publication {β : Type} {log : List (Event β)} {file : String} {attempt : Nat} {time : DateTime} :
    (file, attempt, time) ∈ log.filterMap publication ↔ .published file attempt time ∈ log := by
  simp only [List.mem_filterMap]
  constructor
  · rintro ⟨e, he, hpub⟩
    cases e <;> simp only [publication, reduceCtorEq, Option.some.injEq, Prod.mk.injEq] at hpub
    obtain ⟨rfl, rfl, rfl⟩ := hpub
    exact he
  · exact fun he => ⟨_, he, rfl⟩

/-- Where the task of a file is. A task that has failed behind its pipeline's back may linger. -/
inductive TaskPc where
  | queued
  | connected
  | started
  | running
  | piped (total : Nat)
  | announced (total : Nat)
  | done
  | skipped
  | failed
  | lingering
  deriving DecidableEq, Repr

namespace TaskPc

/-- The task holds a permit of the semaphore. -/
def active : TaskPc → Bool
  | connected | started | running | piped _ | announced _ => true
  | _ => false

def returned : TaskPc → Bool
  | done | skipped | failed | lingering => true
  | _ => false

def ended : TaskPc → Bool
  | done | skipped | failed => true
  | _ => false

def waiting : TaskPc → Bool
  | queued | connected => true
  | _ => false

/-- The task has started on its file and may go on. -/
def working : TaskPc → Bool
  | started | running | piped _ | announced _ | lingering => true
  | _ => false

def ok : TaskPc → Bool
  | done | skipped => true
  | _ => false

/-- Batcher and publisher of the task may be at work. -/
def piping : TaskPc → Bool
  | running | lingering => true
  | _ => false

end TaskPc

structure Task where
  file : String
  attempt : Nat
  pc : TaskPc
  deriving DecidableEq, Repr

/-- Where a run is. -/
inductive Pc where
  /-- No run, or one that has returned. -/
  | idle
  /-- The decision is to go on, and the source has been given the marker. -/
  | starting
  /-- At the head of the download loop. -/
  | downloading
  /-- In an attempt at the first file of the loop. -/
  | fetching (attempt : Nat)
  /-- The first file has been downloaded. -/
  | fetched (size : Nat)
  /-- Its checksum has been accepted and the metadata saved. -/
  | recording (size : Nat)
  /-- The download phase is complete. -/
  | closing
  /-- The one file of a local manifest is in place. -/
  | staged
  /-- `download_discogs_data` has returned its files. -/
  | downloaded
  /-- No file is pending. -/
  | allDone
  /-- The tasks have been spawned. -/
  | processing
  /-- The processing phase is complete and saved. -/
  | completed
  /-- Sending `extraction_complete` to the exchanges of these types. -/
  | announcing (rest : List DataType) (sent : Bool) (recordCounts : Table String Nat)
  /-- It has been sent. -/
  | finalizing
  deriving DecidableEq

/-- The file tasks have yet to be spawned. -/
def Pc.early : Pc → Bool
  | starting | downloading | fetching _ | fetched _ | recording _ | closing | staged | downloaded => true
  | _ => false

/-- An `extraction_complete` is about to be sent. -/
def Pc.sending : Pc → Bool
  | announcing (_ :: _) _ _ => true
  | _ => false

theorem Pc.sending_iff {pc : Pc} :
    pc.sending = true ↔ ∃ dt rest sent counts, pc = .announcing (dt :: rest) sent counts := by
  constructor
  · intro h
    unfold sending at h
    split at h
    · exact ⟨_, _, _, _, rfl⟩
    · cases h
  · rintro ⟨dt, rest, sent, counts, rfl⟩
    rfl

structure Run where
  source : Source
  version : String
  latest : List String
  startedAt : DateTime
  metadata : Table String TrustedFile
  published : Option (Table String String)
  /-- The files that the download loop has yet to visit, and those it has visited. -/
  todo : List String
  downloaded : List String
  tracked : Tracked
  processingStartedAt : DateTime
  tasks : List Task
  pc : Pc

structure State (β : Type) where
  clock : DateTime
  shutdown : Bool
  /-- The dumps in `DISCOGS_ROOT`. -/
  disk : String → Option β
  metadata : Table String TrustedFile
  /-- The marker file of each version. -/
  markers : String → Option Tracked
  run : Run
  nextAttempt : Nat
  log : List (Event β)

def Tracked.new (version : String) (now : DateTime) : Tracked := ⟨.new version now, [], fun _ => 0⟩

/-- The extractor on a `DISCOGS_ROOT` with these dumps, metadata and markers. -/
def State.init {β : Type} (disk : String → Option β) (metadata : Table String TrustedFile)
    (found : List (String × StateMarker)) : State β where
  clock := 0
  shutdown := false
  disk
  metadata
  markers version := (found.lookup version).map fun marker => ⟨marker, [], fun _ => 0⟩
  run :=
    { source := .downloader, version := "", latest := [], startedAt := 0, metadata := ∅, published := none,
      todo := [], downloaded := [], tracked := .new "" 0, processingStartedAt := 0, tasks := [], pc := .idle }
  nextAttempt := 1
  log := found.map fun entry => .saved entry.1 ⟨entry.2, [], fun _ => 0⟩

abbrev State.empty : State String := State.init (fun _ => none) ∅ []

inductive TaskAction where
  | skip
  | connect (ok : Bool)
  | start (saved : Bool)
  | setupExchange (ok : Bool)
  | publish (outcome : Outcome)
  | checkpoint (records batches : Nat) (saved : Bool)
  | pipelineFailed
  | pipelineDone (total : Nat)
  | settle
  | sendFileComplete (outcome : Outcome)
  | completeFile (saved : Bool)
  deriving DecidableEq, Repr

inductive Action (β : Type) where
  | tick (duration : Nat)
  | requestShutdown
  /-- The process ends or is killed, and a new one starts. -/
  | crash
  | changeFile (file : String) (content : Option β)
  | changeMetadata (metadata : Table String TrustedFile)
  | begin (source : Source) (force : Bool) (latest : List String) (readable : Bool)
  | downloadFailed
  | startDownload (published : Option (Table String String)) (saved : Bool)
  | alreadyHave (saved : Bool)
  | startFile (saved : Bool)
  | attemptFailed (left : Option β)
  | attemptDone (content : β)
  | rejectFile (removed : Bool)
  | saveFileMetadata (ok : Bool)
  | recordFile (saved : Bool)
  | completeDownload (saved : Bool)
  | saveMetadata (ok : Bool)
  | stage (content : β)
  | recordStaged (saved : Bool)
  | prepare (saved : Bool)
  | task (i : Nat) (action : TaskAction)
  | completeAll (saved : Bool)
  | join (saved : Bool)
  | connect (listing : Option (List (String × FileProcessingStatus)))
  | broadcast (outcome : Outcome)
  | endBroadcast
  | finalize (saved : Bool)

def maxDownloadRetries : Nat := 3

section Step

variable {β : Type} (cfg : Config β)

namespace State

variable (s : State β)

abbrev marker : StateMarker := s.run.tracked.marker

def goto (pc : Pc) : State β := { s with run := { s.run with pc } }

def record (e : Event β) : State β := { s with log := s.log ++ [e] }

def update (f : StateMarker → StateMarker) : State β :=
  { s with run := { s.run with tracked := { s.run.tracked with marker := f s.marker } } }

/-- `StateMarker::save`, which leaves the file as it was when it fails. -/
def save (ok : Bool) : State β :=
  let s := s.update fun m => { m with lastUpdated := s.clock }
  { s with
    markers := if ok then Function.update s.markers s.run.version (some s.run.tracked) else s.markers
    log := if ok then s.log ++ [.saved s.run.version s.run.tracked] else s.log }

/-- Count an entry of the marker as this attempt's. -/
def credit (file : String) (attempt : Nat) : State β :=
  { s with run := { s.run with tracked :=
    { s.run.tracked with attempts := Function.update s.run.tracked.attempts file attempt } } }

/-- `start_file_processing`, which is a new attempt at the file. -/
def openEntry (file : String) : State β :=
  let started : Event β := .started file s.nextAttempt ((s.marker.download file).bind (·.checksum))
  { ((s.record started).update (·.startFileProcessing file s.clock)).credit file s.nextAttempt with
    nextAttempt := s.nextAttempt + 1 }

def writeFile (file : String) (content : Option β) : State β :=
  { s with disk := Function.update s.disk file content }

def setTask (i : Nat) (t : Task) : State β := { s with run := { s.run with tasks := s.run.tasks.set i t } }

/-- `file_bytes_verified`. -/
def verify (file checksum : String) : State β :=
  (s.record (.bytesVerified s.run.version file checksum (s.marker.processedChecksum file))).update
    (·.fileBytesVerified file checksum)

/-- No task of the last run is left. -/
def settled : Bool := s.run.tasks.all (·.pc.ended)

def shouldDownload (file : String) : Bool :=
  match s.disk file, s.run.metadata.lookup file with
  | some content, some info => cfg.sha256 content ≠ info.checksum
  | _, _ => true

/-- The published hash of a file, if there is one, is the one that the metadata has. -/
def publishedAgrees (file : String) : Bool :=
  match s.run.published.bind (·.lookup file) with
  | some expected => (s.run.metadata.lookup file).map (·.checksum) = some expected
  | none => true

def needsDownload (file : String) : Bool := s.shouldDownload cfg file || !s.publishedAgrees file

/-- Go to the head of the download loop. -/
def enterLoop (published : Option (Table String String)) : State β :=
  { s with run := { s.run with published, todo := s.run.latest, pc := .downloading } }

/-- An attempt at a download that has succeeded. -/
def receive (file : String) (content : β) : State β :=
  let info : TrustedFile := ⟨cfg.sha256 content, cfg.size content⟩
  { s.writeFile file (some content) with run :=
    { s.run with metadata := s.run.metadata.insert file info, pc := .fetched (cfg.size content) } }

/-- A download that does not have the published hash is given up, and deleted if that is possible. -/
def reject (file : String) (removed : Bool) : State β :=
  { s.writeFile file (if removed then none else s.disk file) with run :=
    { s.run with metadata := s.run.metadata.erase file, pc := .idle } }

/-- Move on behind the first file of the loop. -/
def advance (file : String) (rest : List String) : State β :=
  { s with run := { s.run with todo := rest, downloaded := s.run.downloaded ++ [file], pc := .downloading } }

/-- `file_downloaded` and, when the metadata has a checksum, `file_bytes_verified`; then a save whose failure
is only logged. -/
def recordDownload (file : String) (size : Nat) (saved : Bool) : State β :=
  let s := s.update (·.fileDownloaded file size s.clock)
  let s := match s.run.metadata.lookup file with
    | some info => s.verify file info.checksum
    | none => s
  s.save saved

/-- The download phase of a local manifest, whose one file is in place. -/
def recordStaged (file expectedSha256 : String) (size : Nat) (saved : Bool) : State β :=
  let s := s.update fun m =>
    ((m.startDownload 1 s.clock).startFileDownload file s.clock).fileDownloaded file size s.clock
  let s := (s.verify file expectedSha256).update (·.completeDownload s.clock)
  s.save saved

def finishStaged (file : String) : State β :=
  { s with run := { s.run with downloaded := [file], pc := .downloaded } }

def startRun (source : Source) (version : String) (latest : List String) (tracked : Tracked) :
    State β :=
  { s with run :=
    { source, version, latest, startedAt := s.clock, metadata := s.metadata, published := none, todo := [],
      downloaded := [], tracked := { tracked with dataFiles := [] }, processingStartedAt := s.clock, tasks := [],
      pc := .starting } }

def setDataFiles : State β :=
  { s with run := { s.run with tracked :=
    { s.run.tracked with dataFiles := s.run.downloaded.filter fun file => !isChecksum file } } }

end State

/-- The record counts of a broadcast, from the entries of the marker as the iteration meets them. -/
def recordCounts (listing : List (String × FileProcessingStatus)) : Table String Nat :=
  Table.collect (fun entry => (extractDataType entry.1).map fun dt => (dt.asStr, entry.2.recordsExtracted)) listing

/-- The marker that a run finds, or a new one. -/
def loadMarker (s : State β) (force readable : Bool) (version : String) : Tracked :=
  (if force || !readable then none else s.markers version).getD (.new version s.clock)

/-- `process_discogs_data` up to the call of `download_discogs_data`. -/
def beginRun (s : State β) (source : Source) (force : Bool) (latest : List String) (readable : Bool)
    (version : String) : State β :=
  let tracked := loadMarker s force readable version
  let decision := tracked.marker.shouldProcess
  let s := s.record (.decided version decision latest tracked)
  match decision with
  | .skip => s
  | .reprocess => s.startRun source version latest (.new version s.clock)
  | .continue => s.startRun source version latest tracked

/-- Start the processing phase or resume it, and save the marker. A phase that is complete stays as it is. -/
def openProcessing (s : State β) (saved : Bool) : State β × Bool :=
  let filesTotal := s.run.tracked.dataFiles.length
  match s.marker.processingPhase.status with
  | .pending => ((s.update (·.startProcessing filesTotal s.clock)).save saved, saved)
  | .inProgress => ((s.update (·.setFilesTotal filesTotal)).save saved, saved)
  | _ => (s, true)

def spawn (s : State β) : State β :=
  let pending := s.marker.pendingFiles s.run.tracked.dataFiles
  { s with run :=
    { s.run with
      processingStartedAt := s.marker.processingPhase.startedAt.getD s.run.startedAt
      tasks := pending.map fun file => ⟨file, 0, .queued⟩
      pc := if pending.isEmpty then .allDone else .processing } }

/-- `process_discogs_data` between the download and the file tasks. -/
def prepare (s : State β) (saved : Bool) : State β :=
  let s := s.setDataFiles
  if s.run.tracked.dataFiles.isEmpty then s.goto .idle
  else
    match openProcessing s saved with
    | (s, true) => spawn s
    | (s, false) => s.goto .idle

def taskStep (s : State β) (i : Nat) (t : Task) : TaskAction → Option (State β)
  | .skip =>
    if t.pc = .queued && s.shutdown && s.run.tasks.countP (·.pc.active) < cfg.maxWorkers then
      some (s.setTask i { t with pc := .skipped })
    else none
  | .connect ok =>
    if t.pc = .queued && !s.shutdown && s.run.tasks.countP (·.pc.active) < cfg.maxWorkers then
      some (s.setTask i { t with pc := if ok then .connected else .failed })
    else none
  | .start saved =>
    if t.pc = .connected then
      match extractDataType t.file with
      | none => some (s.setTask i { t with pc := .failed })
      | some _ =>
        let attempt := s.nextAttempt
        some ((s.openEntry t.file).save saved |>.setTask i
          { t with attempt, pc := if saved then .started else .failed })
    else none
  | .setupExchange ok =>
    if t.pc = .started then
      if ok then
        let s := match s.disk t.file with
          | some content => s.record (.opened t.file t.attempt content)
          | none => s
        some (s.setTask i { t with pc := .running })
      else some (s.setTask i { t with pc := .failed })
    else none
  | .publish outcome =>
    if t.pc.piping then
      some (if outcome.accepted then s.record (.published t.file t.attempt s.clock) else s)
    else none
  | .checkpoint records batches saved =>
    if t.pc.piping then
      some ((s.update (·.updateFileProgress t.file records records batches s.clock)).save saved)
    else none
  | .pipelineFailed => if t.pc = .running then some (s.setTask i { t with pc := .lingering }) else none
  | .pipelineDone total => if t.pc = .running then some (s.setTask i { t with pc := .piped total }) else none
  | .settle => if t.pc = .lingering then some (s.setTask i { t with pc := .failed }) else none
  | .sendFileComplete outcome =>
    match t.pc with
    | .piped total =>
      let s := if outcome.accepted then s.record (.fileComplete t.file t.attempt total) else s
      some (s.setTask i { t with pc := if outcome = .confirmed then .announced total else .failed })
    | _ => none
  | .completeFile saved =>
    match t.pc with
    | .announced total =>
      let s := (s.update (·.completeFileProcessing t.file total s.clock)).credit t.file t.attempt
      some ((s.save saved).setTask i { t with pc := if saved then .done else .failed })
    | _ => none

def step (s : State β) : Action β → Option (State β)
  | .tick duration => some { s with clock := s.clock + duration }
  | .requestShutdown => some { s with shutdown := true }
  | .crash => some { s with shutdown := false, run := { s.run with tasks := [], pc := .idle } }
  | .changeFile file content => if s.run.pc = .idle && s.settled then some (s.writeFile file content) else none
  | .changeMetadata metadata => if s.run.pc = .idle && s.settled then some { s with metadata } else none
  | .begin source force latest readable =>
    match latest.head?.bind extractVersionFromFilename with
    | some version =>
      if s.run.pc = .idle && s.settled && !s.shutdown then
        some (beginRun s source force latest readable version)
      else none
    | none => none
  | .downloadFailed =>
    match s.run.pc with
    | .starting | .downloading | .fetching _ => some (s.goto .idle)
    | _ => none
  | .startDownload published saved =>
    if s.run.pc = .starting && s.run.source = .downloader then
      some (((s.update (·.startDownload s.run.latest.length s.clock)).save saved).enterLoop published)
    else none
  | .alreadyHave saved =>
    match s.run.todo with
    | file :: rest =>
      if s.run.pc = .downloading && !s.needsDownload cfg file then
        some ((s.recordDownload file ((s.disk file).elim 0 cfg.size) saved).advance file rest)
      else none
    | [] => none
  | .startFile saved =>
    match s.run.todo with
    | file :: _ =>
      if s.run.pc = .downloading && s.needsDownload cfg file then
        some (((s.update (·.startFileDownload file s.clock)).save saved).goto (.fetching 1))
      else none
    | [] => none
  | .attemptFailed left =>
    match s.run.pc, s.run.todo with
    | .fetching attempt, file :: _ =>
      some ((s.writeFile file left).goto (if attempt < maxDownloadRetries then .fetching (attempt + 1) else .idle))
    | _, _ => none
  | .attemptDone content =>
    match s.run.pc, s.run.todo with
    | .fetching _, file :: _ =>
      some (s.receive cfg file content)
    | _, _ => none
  | .rejectFile removed =>
    match s.run.pc, s.run.todo with
    | .fetched _, file :: _ =>
      if s.publishedAgrees file then none
      else some (s.reject file removed)
    | _, _ => none
  | .saveFileMetadata ok =>
    match s.run.pc, s.run.todo with
    | .fetched size, file :: _ =>
      if s.publishedAgrees file then
        some ({ s with metadata := if ok then s.run.metadata else s.metadata }.goto (.recording size))
      else none
    | _, _ => none
  | .recordFile saved =>
    match s.run.pc, s.run.todo with
    | .recording size, file :: rest => some ((s.recordDownload file size saved).advance file rest)
    | _, _ => none
  | .completeDownload saved =>
    if s.run.pc = .downloading && s.run.todo.isEmpty then
      some (((s.update (·.completeDownload s.clock)).save saved).goto .closing)
    else none
  | .saveMetadata ok =>
    if s.run.pc = .closing then
      some (if ok then { s with metadata := s.run.metadata }.goto .downloaded else s.goto .idle)
    else none
  | .stage content =>
    match s.run.pc, s.run.source, s.run.latest with
    | .starting, .localManifest expectedSha256 _, [file] =>
      if cfg.sha256 content = expectedSha256 then some ((s.writeFile file (some content)).goto .staged) else none
    | _, _, _ => none
  | .recordStaged saved =>
    match s.run.pc, s.run.source, s.run.latest with
    | .staged, .localManifest expectedSha256 size, [file] =>
      let s := s.recordStaged file expectedSha256 size saved
      some (if saved then s.finishStaged file else s.goto .idle)
    | _, _, _ => none
  | .prepare saved => if s.run.pc = .downloaded then some (prepare s saved) else none
  | .task i action =>
    match s.run.tasks[i]? with
    | some t => taskStep cfg s i t action
    | none => none
  | .completeAll saved =>
    if s.run.pc = .allDone then
      if s.marker.summary.overallStatus = .completed then some (s.goto .idle)
      else
        let s := (s.update (·.completeProcessing s.clock)).save saved
        some (s.goto (if saved then .completed else .idle))
    else none
  | .join saved =>
    if s.run.pc = .processing && s.run.tasks.all (·.pc.returned) then
      -- a shutdown request counts as no success, whatever the tasks returned
      if s.run.tasks.all (·.pc.ok) && !s.shutdown then
        let s := (s.update (·.completeProcessing s.clock)).save saved
        some (s.goto (if saved then .completed else .idle))
      else some ((s.save saved).goto .idle)
    else none
  | .connect listing =>
    if s.run.pc = .completed then
      match listing with
      | some listing =>
        if s.marker.processingPhase.progressByFile.IsListing listing then
          some (s.goto (.announcing DataType.discogs true (recordCounts listing)))
        else none
      | none => some (s.goto .idle)
    else none
  | .broadcast outcome =>
    match s.run.pc with
    | .announcing (dt :: rest) sent counts =>
      let s := if outcome.accepted then
        s.record (.extractionComplete s.run.version dt s.run.processingStartedAt counts) else s
      some (s.goto (.announcing rest (sent && outcome = .confirmed) counts))
    | _ => none
  | .endBroadcast =>
    match s.run.pc with
    | .announcing [] sent _ => some (s.goto (if sent then .finalizing else .idle))
    | _ => none
  | .finalize saved =>
    if s.run.pc = .finalizing then some (((s.update (·.completeExtraction)).save saved).goto .idle) else none

end Step

end DiscogsIngestion.Session
