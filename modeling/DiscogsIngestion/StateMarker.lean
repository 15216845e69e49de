import Mathlib.Algebra.GroupWithZero.Nat
import DiscogsIngestion.Lib.Table
import DiscogsIngestion.Names

/-!
# The state marker

Three phases and a summary in one file per version, advanced by the operations below.

* `StateMarker` : the marker, with `StateMarker.new`;
* `shouldProcess` : skip, continue or reprocess;
* `startDownload`, `startFileDownload`, `fileDownloaded`, `fileBytesVerified`, `completeDownload` : the
  download phase, of which `fileBytesVerified` reaches into the processing phase;
* `startProcessing`, `startFileProcessing`, `updateFileProgress`, `completeFileProcessing`,
  `completeProcessing`, `completeExtraction` : the processing phase and the summary;
* `pendingFiles` : what is left to process.
-/

namespace DiscogsIngestion

/-- A point of the wall clock, in nanoseconds. -/
abbrev DateTime := Nat

inductive PhaseStatus where
  | pending
  | inProgress
  | completed
  | failed
  deriving DecidableEq, Repr

structure FileDownloadStatus where
  status : PhaseStatus := .pending
  bytesDownloaded : Nat := 0
  startedAt : Option DateTime := none
  completedAt : Option DateTime := none
  /-- SHA-256 of the bytes on disk, once verified. -/
  checksum : Option String := none
  deriving DecidableEq, Repr

structure DownloadPhase where
  status : PhaseStatus := .pending
  startedAt : Option DateTime := none
  completedAt : Option DateTime := none
  filesDownloaded : Nat := 0
  filesTotal : Nat := 0
  bytesDownloaded : Nat := 0
  downloadsByFile : Table String FileDownloadStatus := ∅
  errors : List String := []
  deriving DecidableEq

structure FileProcessingStatus where
  status : PhaseStatus := .pending
  recordsExtracted : Nat := 0
  messagesPublished : Nat := 0
  batchesSent : Nat := 0
  startedAt : Option DateTime := none
  completedAt : Option DateTime := none
  /-- Checksum of the bytes that this status was computed from, unknown in markers written before the field
  existed. -/
  sourceChecksum : Option String := none
  deriving DecidableEq, Repr

structure ProcessingPhase where
  status : PhaseStatus := .pending
  startedAt : Option DateTime := none
  completedAt : Option DateTime := none
  filesProcessed : Nat := 0
  filesTotal : Nat := 0
  recordsExtracted : Nat := 0
  currentFile : Option String := none
  progressByFile : Table String FileProcessingStatus := ∅
  errors : List String := []
  deriving DecidableEq

structure PublishingPhase where
  status : PhaseStatus := .pending
  messagesPublished : Nat := 0
  batchesSent : Nat := 0
  errors : List String := []
  lastAmqpHeartbeat : Option DateTime := none
  deriving DecidableEq, Repr

structure ExtractionSummary where
  overallStatus : PhaseStatus := .pending
  totalDurationSeconds : Option Int := none
  filesByType : Table String PhaseStatus := ∅
  deriving DecidableEq

structure StateMarker where
  metadataVersion : String
  lastUpdated : DateTime
  currentVersion : String
  downloadPhase : DownloadPhase
  processingPhase : ProcessingPhase
  publishingPhase : PublishingPhase
  summary : ExtractionSummary
  deriving DecidableEq

/-- How to handle a version. -/
inductive ProcessingDecision where
  | reprocess
  | continue
  | skip
  deriving DecidableEq, Repr

namespace StateMarker

def new (version : String) (now : DateTime) : StateMarker where
  metadataVersion := "1.0"
  lastUpdated := now
  currentVersion := version
  downloadPhase := {}
  processingPhase := {}
  publishingPhase := {}
  summary := {}

variable (m : StateMarker)

def progress (filename : String) : Option FileProcessingStatus := m.processingPhase.progressByFile.lookup filename

def download (filename : String) : Option FileDownloadStatus := m.downloadPhase.downloadsByFile.lookup filename

def isCompleted (filename : String) : Bool := (m.progress filename).any (·.status = .completed)

def completedFileCount : Nat := m.processingPhase.progressByFile.count (·.status = .completed)

/-- Check if we should re-process, continue, or skip. -/
def shouldProcess : ProcessingDecision :=
  if m.downloadPhase.status = .failed ∨ m.downloadPhase.status = .inProgress then
    if 0 < m.completedFileCount then .continue else .reprocess
  else if m.processingPhase.status = .failed then .continue
  else if m.processingPhase.status = .inProgress then .continue
  else if m.summary.overallStatus = .completed then .skip
  else .continue

/-! ## Download phase -/

def startDownload (filesTotal : Nat) (now : DateTime) : StateMarker :=
  { m with downloadPhase :=
    { m.downloadPhase with
      status := .inProgress
      startedAt := some now
      filesTotal
      filesDownloaded := 0
      bytesDownloaded := 0
      downloadsByFile := ∅ } }

def startFileDownload (filename : String) (now : DateTime) : StateMarker :=
  { m with downloadPhase :=
    { m.downloadPhase with
      downloadsByFile := m.downloadPhase.downloadsByFile.insert filename
        { status := .inProgress, startedAt := some now } } }

/-- Mark a file as downloaded. Only a file that was not already downloaded is counted. -/
def fileDownloaded (filename : String) (bytes : Nat) (now : DateTime) : StateMarker :=
  let phase := m.downloadPhase
  let alreadyCompleted := (m.download filename).any (·.status = .completed)
  let downloads := match m.download filename with
    | some status => phase.downloadsByFile.insert filename
        { status with status := .completed, bytesDownloaded := bytes, completedAt := some now }
    | none => phase.downloadsByFile.insert filename
        { status := .completed, bytesDownloaded := bytes, startedAt := some now, completedAt := some now }
  { m with downloadPhase :=
    { phase with
      downloadsByFile := downloads
      filesDownloaded := if alreadyCompleted then phase.filesDownloaded else phase.filesDownloaded + 1
      bytesDownloaded := (downloads.values.map (·.bytesDownloaded)).sum } }

def completeDownload (now : DateTime) : StateMarker :=
  { m with downloadPhase := { m.downloadPhase with status := .completed, completedAt := some now } }

/-- Sync processing and publishing phase totals from per-file progress. -/
def syncPhaseTotals : StateMarker :=
  let files := m.processingPhase.progressByFile.values
  { m with
    processingPhase := { m.processingPhase with recordsExtracted := (files.map (·.recordsExtracted)).sum }
    publishingPhase :=
      { m.publishingPhase with
        messagesPublished := (files.map (·.messagesPublished)).sum
        batchesSent := (files.map (·.batchesSent)).sum } }

def setTypeStatus (filename : String) (status : PhaseStatus) : StateMarker :=
  match extractDataType filename with
  | some dataType =>
    { m with summary := { m.summary with filesByType := m.summary.filesByType.insert dataType status } }
  | none => m

/-- The checksum of the bytes that a finished file was computed from, if that is known. -/
def processedChecksum (filename : String) : Option String :=
  match m.progress filename with
  | some status => if status.status = .completed then status.sourceChecksum else none
  | none => none

def recordChecksum (filename checksum : String) : StateMarker :=
  { m with downloadPhase :=
    { m.downloadPhase with
      downloadsByFile := m.downloadPhase.downloadsByFile.modify filename fun status =>
        { status with checksum := some checksum } } }

/-- Drop the processing status of a file, and with it the completion of the version. -/
def requeue (filename : String) : StateMarker :=
  let m := { m with processingPhase :=
    { m.processingPhase with
      progressByFile := m.processingPhase.progressByFile.erase filename
      filesProcessed := m.processingPhase.filesProcessed - 1 } }
  let m := (m.setTypeStatus filename .pending).syncPhaseTotals
  let m := if m.summary.overallStatus = .completed then
    { m with summary := { m.summary with overallStatus := .inProgress } } else m
  if m.processingPhase.status = .completed then
    { m with processingPhase := { m.processingPhase with status := .inProgress, completedAt := none } } else m

/-- Record the checksum of the bytes on disk. A file that was processed from other bytes is processed
again. -/
def fileBytesVerified (filename checksum : String) : StateMarker :=
  let stale := (m.processedChecksum filename).any (· ≠ checksum)
  let m := m.recordChecksum filename checksum
  if stale then m.requeue filename else m

/-! ## Processing phase -/

def startProcessing (filesTotal : Nat) (now : DateTime) : StateMarker :=
  { m with
    processingPhase :=
      { m.processingPhase with
        status := .inProgress
        startedAt := some now
        filesTotal
        filesProcessed := 0
        recordsExtracted := 0 }
    summary := { m.summary with overallStatus := .inProgress } }

/-- A resumed processing phase may have another number of files. -/
def setFilesTotal (filesTotal : Nat) : StateMarker :=
  { m with processingPhase := { m.processingPhase with filesTotal } }

/-- Mark a file processing as started, on the bytes that the download phase has verified. -/
def startFileProcessing (filename : String) (now : DateTime) : StateMarker :=
  let status : FileProcessingStatus :=
    { status := .inProgress, startedAt := some now, sourceChecksum := (m.download filename).bind (·.checksum) }
  let m := { m with processingPhase :=
    { m.processingPhase with
      currentFile := some filename
      progressByFile := m.processingPhase.progressByFile.insert filename status } }
  m.setTypeStatus filename .inProgress

def updateFileProgress (filename : String) (records messages batches : Nat) (now : DateTime) : StateMarker :=
  let m := { m with processingPhase :=
    { m.processingPhase with
      progressByFile := m.processingPhase.progressByFile.modify filename fun status =>
        { status with recordsExtracted := records, messagesPublished := messages, batchesSent := batches } } }
  let m := m.syncPhaseTotals
  if 0 < m.publishingPhase.messagesPublished then
    { m with publishingPhase := { m.publishingPhase with status := .inProgress, lastAmqpHeartbeat := some now } }
  else m

def completeFileProcessing (filename : String) (records : Nat) (now : DateTime) : StateMarker :=
  let m := { m with processingPhase :=
    { m.processingPhase with
      progressByFile := m.processingPhase.progressByFile.modify filename fun status =>
        { status with
          status := .completed
          completedAt := some now
          recordsExtracted := records
          messagesPublished := if status.messagesPublished = 0 then records else status.messagesPublished }
      filesProcessed := m.processingPhase.filesProcessed + 1 } }
  m.syncPhaseTotals.setTypeStatus filename .completed

def completeProcessing (now : DateTime) : StateMarker :=
  { m with processingPhase :=
    { m.processingPhase with status := .completed, completedAt := some now, currentFile := none } }

def completeExtraction : StateMarker :=
  { m with
    publishingPhase := { m.publishingPhase with status := .completed }
    summary :=
      { m.summary with
        overallStatus := .completed
        totalDurationSeconds :=
          match m.downloadPhase.startedAt, m.processingPhase.completedAt with
          | some start, some finish => some (((finish : Int) - start).tdiv 1000000000)
          | _, _ => m.summary.totalDurationSeconds } }

/-- The files that still need processing. -/
def pendingFiles (allFiles : List String) : List String := allFiles.filter fun file => !m.isCompleted file

/-! ## What the operations keep -/

variable {m} {f filename checksum : String} {now : DateTime} {n : Nat} {status : PhaseStatus}

@[simp] theorem progress_new {version : String} : (new version now).progress f = none := rfl

theorem isCompleted_iff :
    m.isCompleted f = true ↔ ∃ status, m.progress f = some status ∧ status.status = .completed := by
  cases h : m.progress f <;> simp [isCompleted, h]

theorem isCompleted_congr {m' : StateMarker} (h : m'.progress f = m.progress f) :
    m'.isCompleted f = m.isCompleted f := by
  rw [isCompleted, h, isCompleted]

theorem mem_pendingFiles {files : List String} :
    f ∈ m.pendingFiles files ↔ f ∈ files ∧ m.isCompleted f = false := by
  simp [pendingFiles]

theorem completedFileCount_pos : 0 < m.completedFileCount ↔ ∃ f, m.isCompleted f = true := by
  simp only [completedFileCount, Table.count_pos_iff, isCompleted_iff, decide_eq_true_eq]
  rfl

@[simp] theorem setTypeStatus_processingPhase :
    (m.setTypeStatus filename status).processingPhase = m.processingPhase := by
  cases h : extractDataType filename <;> simp [setTypeStatus, h]

@[simp] theorem setTypeStatus_downloadPhase :
    (m.setTypeStatus filename status).downloadPhase = m.downloadPhase := by
  cases h : extractDataType filename <;> simp [setTypeStatus, h]

@[simp] theorem setTypeStatus_overallStatus :
    (m.setTypeStatus filename status).summary.overallStatus = m.summary.overallStatus := by
  cases h : extractDataType filename <;> simp [setTypeStatus, h]

/-- The processing status of a file, and what the processing phase as a whole is at. -/
structure SameProcessing (m m' : StateMarker) : Prop where
  progress : ∀ f, m'.progress f = m.progress f
  status : m'.processingPhase.status = m.processingPhase.status
  startedAt : m'.processingPhase.startedAt = m.processingPhase.startedAt
  overallStatus : m'.summary.overallStatus = m.summary.overallStatus

theorem sameProcessing_startDownload : SameProcessing m (m.startDownload n now) := ⟨fun _ => rfl, rfl, rfl, rfl⟩

theorem sameProcessing_startFileDownload : SameProcessing m (m.startFileDownload filename now) :=
  ⟨fun _ => rfl, rfl, rfl, rfl⟩

theorem sameProcessing_fileDownloaded : SameProcessing m (m.fileDownloaded filename n now) :=
  ⟨fun _ => rfl, rfl, rfl, rfl⟩

theorem sameProcessing_recordChecksum : SameProcessing m (m.recordChecksum filename checksum) :=
  ⟨fun _ => rfl, rfl, rfl, rfl⟩

theorem sameProcessing_completeDownload : SameProcessing m (m.completeDownload now) :=
  ⟨fun _ => rfl, rfl, rfl, rfl⟩

theorem sameProcessing_setFilesTotal : SameProcessing m (m.setFilesTotal n) := ⟨fun _ => rfl, rfl, rfl, rfl⟩

theorem sameProcessing_lastUpdated : SameProcessing m { m with lastUpdated := now } := ⟨fun _ => rfl, rfl, rfl, rfl⟩

theorem SameProcessing.refl : SameProcessing m m := ⟨fun _ => rfl, rfl, rfl, rfl⟩

theorem SameProcessing.trans {m' m'' : StateMarker} (h : SameProcessing m m') (h' : SameProcessing m' m'') :
    SameProcessing m m'' where
  progress f := (h'.progress f).trans (h.progress f)
  status := h'.status.trans h.status
  startedAt := h'.startedAt.trans h.startedAt
  overallStatus := h'.overallStatus.trans h.overallStatus

theorem SameProcessing.isCompleted {m' : StateMarker} (h : SameProcessing m m') :
    m'.isCompleted f = m.isCompleted f := isCompleted_congr (h.progress f)

theorem SameProcessing.processedChecksum {m' : StateMarker} (h : SameProcessing m m') :
    m'.processedChecksum f = m.processedChecksum f := by
  rw [StateMarker.processedChecksum, h.progress, StateMarker.processedChecksum]

/-- A change of what the processing phase as a whole is at. -/
structure ChangesPhase (m m' : StateMarker) (startedAt : Option DateTime) (status overallStatus : PhaseStatus) :
    Prop where
  progress : ∀ f, m'.progress f = m.progress f
  startedAt : m'.processingPhase.startedAt = startedAt
  status : m'.processingPhase.status = status
  overallStatus : m'.summary.overallStatus = overallStatus

theorem ChangesPhase.isCompleted {m' : StateMarker} {startedAt : Option DateTime} {status overall : PhaseStatus}
    (h : ChangesPhase m m' startedAt status overall) : m'.isCompleted f = m.isCompleted f :=
  isCompleted_congr (h.progress f)

theorem changesPhase_startProcessing : ChangesPhase m { m.startProcessing n now with lastUpdated := now }
    (some now) .inProgress .inProgress := ⟨fun _ => rfl, rfl, rfl, rfl⟩

theorem changesPhase_completeProcessing : ChangesPhase m { m.completeProcessing now with lastUpdated := now }
    m.processingPhase.startedAt .completed m.summary.overallStatus := ⟨fun _ => rfl, rfl, rfl, rfl⟩

theorem changesPhase_completeExtraction : ChangesPhase m { m.completeExtraction with lastUpdated := now }
    m.processingPhase.startedAt m.processingPhase.status .completed := ⟨fun _ => rfl, rfl, rfl, rfl⟩

theorem progress_requeue : (m.requeue filename).progress f = if f = filename then none else m.progress f := by
  have hstep : (m.requeue filename).processingPhase.progressByFile =
      m.processingPhase.progressByFile.erase filename := by
    simp only [requeue]
    split_ifs <;> simp [syncPhaseTotals]
  rw [progress, hstep, Table.lookup_erase_eq]
  rfl

/-- A file that is processed again, and with it the version. -/
structure Requeues (m m' : StateMarker) (filename : String) : Prop where
  progress : ∀ f, m'.progress f = if f = filename then none else m.progress f
  startedAt : m'.processingPhase.startedAt = m.processingPhase.startedAt
  status : m'.processingPhase.status =
    if m.processingPhase.status = .completed then .inProgress else m.processingPhase.status
  overallStatus : m'.summary.overallStatus =
    if m.summary.overallStatus = .completed then .inProgress else m.summary.overallStatus

theorem requeues_requeue : Requeues m (m.requeue filename) filename where
  progress _ := progress_requeue
  startedAt := by
    simp only [requeue]
    split_ifs <;> simp [syncPhaseTotals]
  status := by
    simp only [requeue]
    split_ifs <;> simp_all [syncPhaseTotals]
  overallStatus := by
    simp only [requeue]
    split_ifs <;> simp_all [syncPhaseTotals]

theorem downloadPhase_requeue : (m.requeue filename).downloadPhase = m.downloadPhase := by
  simp only [requeue]
  split_ifs <;> simp [syncPhaseTotals]

theorem Requeues.isCompleted {m' : StateMarker} (h : Requeues m m' filename) :
    m'.isCompleted f = if f = filename then false else m.isCompleted f := by
  rw [StateMarker.isCompleted, h.progress, StateMarker.isCompleted]
  split_ifs <;> rfl

theorem Requeues.trans_same {m' m'' : StateMarker} (h : Requeues m m' filename) (h' : SameProcessing m' m'') :
    Requeues m m'' filename where
  progress f := (h'.progress f).trans (h.progress f)
  startedAt := h'.startedAt.trans h.startedAt
  status := h'.status.trans h.status
  overallStatus := h'.overallStatus.trans h.overallStatus

theorem SameProcessing.trans_requeues {m' m'' : StateMarker} (h : SameProcessing m m')
    (h' : Requeues m' m'' filename) : Requeues m m'' filename where
  progress f := by rw [h'.progress, h.progress]
  startedAt := h'.startedAt.trans h.startedAt
  status := by rw [h'.status, h.status]
  overallStatus := by rw [h'.overallStatus, h.overallStatus]

/-- The checksum of a finished file is known and is another one. -/
def IsStale (m : StateMarker) (filename checksum : String) : Prop :=
  ∃ processed, m.processedChecksum filename = some processed ∧ processed ≠ checksum

instance : Decidable (m.IsStale filename checksum) :=
  decidable_of_iff ((m.processedChecksum filename).any (· ≠ checksum) = true) (by simp [IsStale, Option.any_eq_true])

theorem fileBytesVerified_of_stale (h : m.IsStale filename checksum) :
    m.fileBytesVerified filename checksum = (m.recordChecksum filename checksum).requeue filename := by
  obtain ⟨processed, hp, hne⟩ := h
  simp [fileBytesVerified, hp, hne]

theorem fileBytesVerified_of_not_stale (h : ¬m.IsStale filename checksum) :
    m.fileBytesVerified filename checksum = m.recordChecksum filename checksum := by
  rw [fileBytesVerified, if_neg]
  rw [Option.any_eq_true]
  rintro ⟨processed, hp, hne⟩
  exact h ⟨processed, hp, by simpa using hne⟩

theorem progress_fileBytesVerified : (m.fileBytesVerified filename checksum).progress f =
    if f = filename ∧ m.IsStale filename checksum then none else m.progress f := by
  by_cases h : m.IsStale filename checksum
  · rw [fileBytesVerified_of_stale h, progress_requeue]
    simp only [h, and_true]
    rfl
  · rw [fileBytesVerified_of_not_stale h]
    simp only [h, and_false, if_false]
    rfl

/-- A change of one entry, and of nothing that concerns the processing phase as a whole. -/
structure ChangesEntry (m m' : StateMarker) (filename : String) (entry : Option FileProcessingStatus) :
    Prop where
  progress : ∀ f, m'.progress f = if f = filename then entry else m.progress f
  status : m'.processingPhase.status = m.processingPhase.status
  startedAt : m'.processingPhase.startedAt = m.processingPhase.startedAt
  downloadPhase : m'.downloadPhase = m.downloadPhase
  overallStatus : m'.summary.overallStatus = m.summary.overallStatus

def startedEntry (m : StateMarker) (filename : String) (now : DateTime) : FileProcessingStatus :=
  { status := .inProgress, startedAt := some now, sourceChecksum := (m.download filename).bind (·.checksum) }

theorem ChangesEntry.progress_self {m' : StateMarker} {entry : Option FileProcessingStatus}
    (h : ChangesEntry m m' filename entry) : m'.progress filename = entry := (h.progress filename).trans (if_pos rfl)

theorem ChangesEntry.isCompleted {m' : StateMarker} {entry : Option FileProcessingStatus}
    (h : ChangesEntry m m' filename entry) :
    m'.isCompleted f = if f = filename then entry.any (·.status = .completed) else m.isCompleted f := by
  rw [StateMarker.isCompleted, h.progress, StateMarker.isCompleted]
  split_ifs <;> rfl

theorem ChangesEntry.isCompleted_of_ne {m' : StateMarker} {entry : Option FileProcessingStatus}
    (h : ChangesEntry m m' filename entry) (hf : f ≠ filename) : m'.isCompleted f = m.isCompleted f := by
  rw [h.isCompleted, if_neg hf]

theorem ChangesEntry.trans_same {m' m'' : StateMarker} {entry : Option FileProcessingStatus}
    (h : ChangesEntry m m' filename entry) (h' : SameProcessing m' m'')
    (hdownload : m''.downloadPhase = m'.downloadPhase) : ChangesEntry m m'' filename entry where
  progress f := (h'.progress f).trans (h.progress f)
  status := h'.status.trans h.status
  startedAt := h'.startedAt.trans h.startedAt
  downloadPhase := hdownload.trans h.downloadPhase
  overallStatus := h'.overallStatus.trans h.overallStatus

theorem changesEntry_startFileProcessing :
    ChangesEntry m (m.startFileProcessing filename now) filename (some (m.startedEntry filename now)) where
  progress f := by
    rw [progress, startFileProcessing, setTypeStatus_processingPhase, Table.lookup_insert_eq]
    rfl
  status := by simp [startFileProcessing]
  startedAt := by simp [startFileProcessing]
  downloadPhase := by simp [startFileProcessing]
  overallStatus := by simp [startFileProcessing]

/-- The entry of a file with these counts. -/
def countedEntry (records messages batches : Nat) (status : FileProcessingStatus) : FileProcessingStatus :=
  { status with recordsExtracted := records, messagesPublished := messages, batchesSent := batches }

theorem changesEntry_updateFileProgress {records messages batches : Nat} :
    ChangesEntry m (m.updateFileProgress filename records messages batches now) filename
      ((m.progress filename).map (countedEntry records messages batches)) where
  progress f := by
    rw [progress, updateFileProgress]
    split_ifs <;> simp only [syncPhaseTotals, Table.lookup_modify] <;> split_ifs <;> simp_all <;> rfl
  status := by simp only [updateFileProgress]; split_ifs <;> rfl
  startedAt := by simp only [updateFileProgress]; split_ifs <;> rfl
  downloadPhase := by simp only [updateFileProgress]; split_ifs <;> rfl
  overallStatus := by simp only [updateFileProgress]; split_ifs <;> rfl

theorem isCompleted_countedEntry {records messages batches : Nat} :
    ((m.progress filename).map (countedEntry records messages batches)).any (·.status = .completed) =
      m.isCompleted filename := by
  rw [isCompleted]
  cases m.progress filename <;> rfl

def completedEntry (records : Nat) (now : DateTime) (status : FileProcessingStatus) : FileProcessingStatus :=
  { status with
    status := .completed
    completedAt := some now
    recordsExtracted := records
    messagesPublished := if status.messagesPublished = 0 then records else status.messagesPublished }

theorem changesEntry_completeFileProcessing {records : Nat} :
    ChangesEntry m (m.completeFileProcessing filename records now) filename
      ((m.progress filename).map (completedEntry records now)) where
  progress f := by
    rw [progress, completeFileProcessing, setTypeStatus_processingPhase]
    simp only [syncPhaseTotals, Table.lookup_modify]
    rfl
  status := by simp [completeFileProcessing, syncPhaseTotals]
  startedAt := by simp [completeFileProcessing, syncPhaseTotals]
  downloadPhase := by simp [completeFileProcessing, syncPhaseTotals]
  overallStatus := by simp [completeFileProcessing, syncPhaseTotals]

/-! ## What the operations do to the download phase -/

theorem status_completeDownload : (m.completeDownload now).downloadPhase.status = .completed := rfl

theorem downloadPhase_startProcessing : (m.startProcessing n now).downloadPhase = m.downloadPhase := rfl

theorem downloadPhase_setFilesTotal : (m.setFilesTotal n).downloadPhase = m.downloadPhase := rfl

theorem downloadPhase_completeProcessing : (m.completeProcessing now).downloadPhase = m.downloadPhase := rfl

theorem downloadPhase_completeExtraction : m.completeExtraction.downloadPhase = m.downloadPhase := rfl

theorem download_of_downloadPhase {m' : StateMarker} (h : m'.downloadPhase = m.downloadPhase) :
    m'.download f = m.download f := by
  unfold download
  rw [h]

theorem download_completeDownload : (m.completeDownload now).download f = m.download f := rfl

theorem download_startFileDownload (h : f ≠ filename) :
    (m.startFileDownload filename now).download f = m.download f := by
  show (m.downloadPhase.downloadsByFile.insert filename _).lookup f = m.downloadPhase.downloadsByFile.lookup f
  rw [Table.lookup_insert_eq, if_neg h]

theorem download_fileDownloaded (h : f ≠ filename) :
    (m.fileDownloaded filename n now).download f = m.download f := by
  cases hd : m.download filename <;> simp only [download, fileDownloaded] at hd ⊢ <;>
    simp only [hd, Table.lookup_insert_eq, if_neg h]

theorem download_fileDownloaded_self : ((m.fileDownloaded filename n now).download filename).isSome = true := by
  cases hd : m.download filename <;> simp only [download, fileDownloaded] at hd ⊢ <;>
    simp only [hd, Table.lookup_insert_eq, if_true, Option.isSome_some]

theorem download_recordChecksum : (m.recordChecksum filename checksum).download f =
    if f = filename then (m.download f).map fun status => { status with checksum := some checksum }
    else m.download f := by
  show (m.downloadPhase.downloadsByFile.modify filename _).lookup f = _
  rw [Table.lookup_modify]
  split_ifs with hf
  · rw [hf]
    rfl
  · rfl

theorem download_fileBytesVerified : (m.fileBytesVerified filename checksum).download f =
    if f = filename then (m.download f).map fun status => { status with checksum := some checksum }
    else m.download f := by
  rw [← download_recordChecksum]
  by_cases h : m.IsStale filename checksum
  · rw [fileBytesVerified_of_stale h]
    exact download_of_downloadPhase downloadPhase_requeue
  · rw [fileBytesVerified_of_not_stale h]

/-- After a verification a finished file has this checksum or an unknown one. -/
theorem processedChecksum_fileBytesVerified {processed : String}
    (h : (m.fileBytesVerified filename checksum).processedChecksum filename = some processed) :
    processed = checksum := by
  by_cases hstale : m.IsStale filename checksum
  · unfold processedChecksum at h
    rw [progress_fileBytesVerified, if_pos ⟨rfl, hstale⟩] at h
    cases h
  · by_contra hne
    apply hstale
    refine ⟨processed, ?_, hne⟩
    unfold processedChecksum at h ⊢
    rwa [progress_fileBytesVerified, if_neg fun hno => hstale hno.2] at h

-- from here on the operations are known by these lemmas alone
attribute [irreducible] startDownload startFileDownload fileDownloaded recordChecksum fileBytesVerified completeDownload
  startProcessing setFilesTotal startFileProcessing updateFileProgress completeFileProcessing completeProcessing
  completeExtraction

end StateMarker

end DiscogsIngestion
