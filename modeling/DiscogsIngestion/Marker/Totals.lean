import DiscogsIngestion.StateMarker

/-!
# The derived counters of the marker

The counters of the phases repeat what the per-file entries say.

* `Balanced` : each derived counter agrees with the entries;
* `counters` : all that `Balanced` looks at, with the operations that leave it alone;
* `Unspent` : an entry of a file, if there is one, that no counter counts;
* `Balanced.updateFileProgress`, `Balanced.fileBytesVerified`, `Balanced.completeFileProcessing_iff` : operations that
  count the entries anew;
* `Balanced.startProcessing`, `Balanced.startFileProcessing_iff` : operations that do not.
-/

namespace DiscogsIngestion.StateMarker

variable {m m' : StateMarker} {filename checksum : String} {now : DateTime} {n : Nat}

abbrev entries (m : StateMarker) : Table String FileProcessingStatus := m.processingPhase.progressByFile

/-- The derived counters agree with the entries. -/
structure Balanced (m : StateMarker) : Prop where
  filesProcessed : m.processingPhase.filesProcessed = m.completedFileCount
  recordsExtracted : m.processingPhase.recordsExtracted = Table.total (·.recordsExtracted) m.entries
  messagesPublished : m.publishingPhase.messagesPublished = Table.total (·.messagesPublished) m.entries
  batchesSent : m.publishingPhase.batchesSent = Table.total (·.batchesSent) m.entries

/-- The entries, the files that are finished, and the three sums. -/
def counters (m : StateMarker) : Table String FileProcessingStatus × Nat × Nat × Nat × Nat :=
  (m.entries, m.processingPhase.filesProcessed, m.processingPhase.recordsExtracted,
    m.publishingPhase.messagesPublished, m.publishingPhase.batchesSent)

/-- What an entry adds to the number of finished files. -/
def finishedOne (status : FileProcessingStatus) : Nat := if status.status = .completed then 1 else 0

theorem completedFileCount_eq : m.completedFileCount = Table.total finishedOne m.entries := by
  unfold completedFileCount
  rw [Table.count_eq_total]
  congr
  funext status
  simp [finishedOne]

theorem finishedOne_eq : (m.progress filename).elim 0 finishedOne = if m.isCompleted filename then 1 else 0 := by
  unfold isCompleted
  cases m.progress filename with
  | none => rfl
  | some status => simp [finishedOne]

/-- What has to agree, as an equation between numbers. -/
theorem balanced_iff {t : Table String FileProcessingStatus} {files records messages batches : Nat}
    (h : m.counters = (t, files, records, messages, batches)) :
    m.Balanced ↔ files = Table.total finishedOne t ∧ records = Table.total (·.recordsExtracted) t ∧
      messages = Table.total (·.messagesPublished) t ∧ batches = Table.total (·.batchesSent) t := by
  simp only [counters, Prod.mk.injEq] at h
  obtain ⟨rfl, rfl, rfl, rfl, rfl⟩ := h
  rw [← completedFileCount_eq]
  constructor
  · intro h
    exact ⟨h.filesProcessed, h.recordsExtracted, h.messagesPublished, h.batchesSent⟩
  · rintro ⟨hfiles, hrecords, hmessages, hbatches⟩
    exact ⟨hfiles, hrecords, hmessages, hbatches⟩

theorem Balanced.congr (h : m.Balanced) (heq : m'.counters = m.counters) : m'.Balanced :=
  (balanced_iff heq).2 ((balanced_iff rfl).1 h)

theorem balanced_congr (heq : m'.counters = m.counters) : m'.Balanced ↔ m.Balanced :=
  ⟨fun h => h.congr heq.symm, fun h => h.congr heq⟩

/-! ## Operations that leave the counters alone -/

@[simp] theorem counters_setTypeStatus {status : PhaseStatus} :
    (m.setTypeStatus filename status).counters = m.counters := by
  unfold setTypeStatus
  split <;> rfl

theorem counters_startDownload : (m.startDownload n now).counters = m.counters := by
  unfold startDownload
  rfl

theorem counters_startFileDownload : (m.startFileDownload filename now).counters = m.counters := by
  unfold startFileDownload
  rfl

theorem counters_fileDownloaded : (m.fileDownloaded filename n now).counters = m.counters := by
  unfold fileDownloaded
  rfl

theorem counters_recordChecksum : (m.recordChecksum filename checksum).counters = m.counters := by
  unfold recordChecksum
  rfl

theorem counters_completeDownload : (m.completeDownload now).counters = m.counters := by
  unfold completeDownload
  rfl

theorem counters_setFilesTotal : (m.setFilesTotal n).counters = m.counters := by
  unfold setFilesTotal
  rfl

theorem counters_completeProcessing : (m.completeProcessing now).counters = m.counters := by
  unfold completeProcessing
  rfl

theorem counters_completeExtraction : m.completeExtraction.counters = m.counters := by
  unfold completeExtraction
  rfl

theorem counters_lastUpdated : ({ m with lastUpdated := now } : StateMarker).counters = m.counters := rfl

/-! ## Operations that count anew -/

/-- The counters of these entries, when the sums are counted anew. -/
def countedAnew (t : Table String FileProcessingStatus) (files : Nat) :
    Table String FileProcessingStatus × Nat × Nat × Nat × Nat :=
  (t, files, Table.total (·.recordsExtracted) t, Table.total (·.messagesPublished) t, Table.total (·.batchesSent) t)

theorem balanced_of_countedAnew {t : Table String FileProcessingStatus} {files : Nat}
    (h : m.counters = countedAnew t files) : m.Balanced ↔ files = Table.total finishedOne t := by
  rw [balanced_iff h]
  simp

theorem counters_requeue : (m.requeue filename).counters =
    countedAnew (m.entries.erase filename) (m.processingPhase.filesProcessed - 1) := by
  unfold requeue setTypeStatus
  cases extractDataType filename with
  | none =>
    dsimp only
    split_ifs <;> rfl
  | some dt =>
    dsimp only
    split_ifs <;> rfl

theorem counters_updateFileProgress {records messages batches : Nat} :
    (m.updateFileProgress filename records messages batches now).counters =
      countedAnew (m.entries.modify filename (countedEntry records messages batches))
        m.processingPhase.filesProcessed := by
  unfold updateFileProgress
  dsimp only
  split_ifs <;> rfl

theorem counters_completeFileProcessing {records : Nat} : (m.completeFileProcessing filename records now).counters =
    countedAnew (m.entries.modify filename (completedEntry records now)) (m.processingPhase.filesProcessed + 1) := by
  unfold completeFileProcessing
  rw [counters_setTypeStatus]
  rfl

theorem balanced_new {version : String} : (new version now).Balanced := ⟨rfl, rfl, rfl, rfl⟩

/-- A checkpoint counts anew, and finishes no file. -/
theorem Balanced.updateFileProgress (h : m.Balanced) (records messages batches : Nat) :
    (m.updateFileProgress filename records messages batches now).Balanced := by
  rw [balanced_of_countedAnew counters_updateFileProgress, h.filesProcessed, completedFileCount_eq]
  exact (Table.total_modify_of_eq (f := countedEntry records messages batches) (fun _ => rfl) m.entries filename).symm

/-- A file that is processed again is one finished file less. -/
theorem Balanced.requeue (h : m.Balanced) (hdone : m.isCompleted filename = true) :
    (m.requeue filename).Balanced := by
  have hone : (m.entries.lookup filename).elim 0 finishedOne = 1 := finishedOne_eq.trans (if_pos hdone)
  have hcount := Table.total_erase m.entries filename finishedOne
  rw [balanced_of_countedAnew counters_requeue, h.filesProcessed, completedFileCount_eq]
  omega

theorem IsStale.isCompleted (h : m.IsStale filename checksum) : m.isCompleted filename = true := by
  obtain ⟨processed, hp, -⟩ := h
  cases hm : m.progress filename with
  | none => simp [processedChecksum, hm] at hp
  | some status =>
    rw [isCompleted_iff]
    refine ⟨status, hm, ?_⟩
    by_contra hne
    simp [processedChecksum, hm, hne] at hp

theorem Balanced.fileBytesVerified (h : m.Balanced) : (m.fileBytesVerified filename checksum).Balanced := by
  have hrecord : (m.recordChecksum filename checksum).Balanced := h.congr counters_recordChecksum
  by_cases hstale : m.IsStale filename checksum
  · rw [fileBytesVerified_of_stale hstale]
    apply hrecord.requeue
    rw [sameProcessing_recordChecksum.isCompleted]
    exact hstale.isCompleted
  · rw [fileBytesVerified_of_not_stale hstale]
    exact hrecord

/-- A file is finished once. -/
theorem Balanced.completeFileProcessing_iff (h : m.Balanced) {records : Nat} :
    (m.completeFileProcessing filename records now).Balanced ↔
      (m.progress filename).isSome = true ∧ m.isCompleted filename = false := by
  have hbefore : (m.entries.lookup filename).elim 0 finishedOne = _ := finishedOne_eq
  have hcount := Table.total_modify m.entries filename (completedEntry records now) finishedOne
  have hafter : ((m.entries.lookup filename).elim 0 fun status => finishedOne (completedEntry records now status)) =
      if (m.progress filename).isSome then 1 else 0 := by
    show (m.progress filename).elim 0 _ = _
    cases m.progress filename <;> rfl
  rw [balanced_of_countedAnew counters_completeFileProcessing, h.filesProcessed, completedFileCount_eq]
  rw [hbefore, hafter] at hcount
  cases hdone : m.isCompleted filename <;> cases hentry : (m.progress filename).isSome <;>
    simp only [hdone, hentry, if_true, Bool.false_eq_true, if_false] at hcount <;> simp <;> omega

/-! ## Operations that do not -/

theorem Balanced.startProcessing (h : m.Balanced) (hnone : ∀ f, m.progress f = none) :
    (m.startProcessing n now).Balanced := by
  unfold StateMarker.startProcessing
  constructor
  · rw [completedFileCount_eq]
    exact (Table.total_eq_zero hnone).symm
  · exact (Table.total_eq_zero hnone).symm
  · exact h.messagesPublished
  · exact h.batchesSent

/-- No counter counts what the file has so far. -/
def Unspent (m : StateMarker) (filename : String) : Prop :=
  ∀ status ∈ m.progress filename, status.status ≠ .completed ∧ status.recordsExtracted = 0 ∧
    status.messagesPublished = 0 ∧ status.batchesSent = 0

theorem counters_startFileProcessing : (m.startFileProcessing filename now).counters =
    (m.entries.insert filename (m.startedEntry filename now), m.counters.2) := by
  unfold startFileProcessing
  rw [counters_setTypeStatus]
  rfl

/-- The entry that a start puts in place of another adds nothing to any counter. -/
theorem Balanced.startFileProcessing_iff (h : m.Balanced) :
    (m.startFileProcessing filename now).Balanced ↔ m.Unspent filename := by
  have hinsert : ∀ count : FileProcessingStatus → Nat, count (m.startedEntry filename now) = 0 →
      Table.total count (m.entries.insert filename (m.startedEntry filename now)) +
        (m.progress filename).elim 0 count = Table.total count m.entries := by
    intro count hcount
    have htotal := Table.total_insert m.entries filename (m.startedEntry filename now) count
    rw [hcount] at htotal
    exact htotal
  have hfiles := hinsert finishedOne rfl
  have hrecords := hinsert (·.recordsExtracted) rfl
  have hmessages := hinsert (·.messagesPublished) rfl
  have hbatches := hinsert (·.batchesSent) rfl
  rw [balanced_iff counters_startFileProcessing]
  obtain ⟨h₁, h₂, h₃, h₄⟩ := (balanced_iff rfl).1 h
  unfold Unspent
  cases hentry : m.progress filename with
  | none =>
    simp only [hentry, Option.elim_none, Nat.add_zero] at hfiles hrecords hmessages hbatches
    simp [h₁, h₂, h₃, h₄, hfiles, hrecords, hmessages, hbatches]
  | some status =>
    have hfinished : finishedOne status = 0 ↔ status.status ≠ .completed := by simp [finishedOne]
    simp only [hentry, Option.elim_some] at hfiles hrecords hmessages hbatches
    simp only [Option.mem_def, Option.some.injEq, forall_eq', ← hfinished]
    omega

end DiscogsIngestion.StateMarker
