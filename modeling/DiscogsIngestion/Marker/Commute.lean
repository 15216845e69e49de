import DiscogsIngestion.Lib.Interleave
import DiscogsIngestion.Marker.Totals

/-!
# File tasks on a shared marker

The tasks of a run take turns at the one marker. What is left when all have finished does not depend on the turns.

* `FileOp`, `FileWork` : what a task does to the marker, and with which counts;
* `apply`, `applyAll`, `finish` : one operation, a sequence of them, and the end of the run;
* `SameButTimes` : two markers that differ in timestamps and the total duration alone;
* `filesByType_applyAll`, `taskPart_applyAll`, `counted_applyAll` : the parts of the marker after an interleaving;
* `sameButTimes_oneByOne` : every interleaving ends as one file after another does.
-/

namespace DiscogsIngestion.StateMarker

open Interleave

/-- What a file task does to the marker. -/
inductive FileOp where
  | start
  | progress (records messages batches : Nat)
  | complete (records : Nat)
  deriving DecidableEq, Repr

/-- The files that an operation finishes. -/
def FileOp.finished : FileOp → Nat
  | complete _ => 1
  | _ => 0

/-- The checkpoints of a file task, and the records at its end. -/
structure FileWork where
  updates : List (Nat × Nat × Nat)
  records : Nat

def FileWork.ops (work : FileWork) : List FileOp :=
  .start :: work.updates.map (fun (records, messages, batches) => .progress records messages batches) ++
    [.complete work.records]

/-- The operations on each of these files. -/
def program (files : List String) (work : String → FileWork) (file : String) : List FileOp :=
  if file ∈ files then (work file).ops else []

def apply (m : StateMarker) (now : DateTime) (file : String) : FileOp → StateMarker
  | .start => m.startFileProcessing file now
  | .progress records messages batches => m.updateFileProgress file records messages batches now
  | .complete records => m.completeFileProcessing file records now

/-- Operations on files, each at its time. -/
def applyAll (m : StateMarker) (events : List (DateTime × String × FileOp)) : StateMarker :=
  events.foldl (fun m e => m.apply e.1 e.2.1 e.2.2) m

def finish (m : StateMarker) (now : DateTime) : StateMarker := (m.completeProcessing now).completeExtraction

def timeless (status : FileProcessingStatus) : FileProcessingStatus :=
  { status with startedAt := none, completedAt := none }

/-- Equal up to timestamps, the total duration and the last heartbeat. -/
structure SameButTimes (m m' : StateMarker) : Prop where
  metadataVersion : m'.metadataVersion = m.metadataVersion
  currentVersion : m'.currentVersion = m.currentVersion
  downloadPhase : m'.downloadPhase = m.downloadPhase
  processingStatus : m'.processingPhase.status = m.processingPhase.status
  filesProcessed : m'.processingPhase.filesProcessed = m.processingPhase.filesProcessed
  filesTotal : m'.processingPhase.filesTotal = m.processingPhase.filesTotal
  recordsExtracted : m'.processingPhase.recordsExtracted = m.processingPhase.recordsExtracted
  currentFile : m'.processingPhase.currentFile = m.processingPhase.currentFile
  progress : ∀ file, (m'.progress file).map timeless = (m.progress file).map timeless
  processingErrors : m'.processingPhase.errors = m.processingPhase.errors
  publishingStatus : m'.publishingPhase.status = m.publishingPhase.status
  messagesPublished : m'.publishingPhase.messagesPublished = m.publishingPhase.messagesPublished
  batchesSent : m'.publishingPhase.batchesSent = m.publishingPhase.batchesSent
  publishingErrors : m'.publishingPhase.errors = m.publishingPhase.errors
  overallStatus : m'.summary.overallStatus = m.summary.overallStatus
  filesByType : ∀ dt, m'.summary.filesByType.lookup dt = m.summary.filesByType.lookup dt

variable {m : StateMarker} {file f dt : String} {now : DateTime} {op : FileOp}
  {files : List String} {work : String → FileWork} {events events' : List (DateTime × String × FileOp)}

/-! ## One operation -/

def entryAfter (checksum : Option String) (now : DateTime) (entry : Option FileProcessingStatus) :
    FileOp → Option FileProcessingStatus
  | .start => some { status := .inProgress, startedAt := some now, sourceChecksum := checksum }
  | .progress records messages batches => entry.map (countedEntry records messages batches)
  | .complete records => entry.map (completedEntry records now)

theorem changesEntry_apply (m : StateMarker) (now : DateTime) (file : String) (op : FileOp) :
    ChangesEntry m (m.apply now file op) file
      (entryAfter ((m.download file).bind (·.checksum)) now (m.progress file) op) := by
  cases op with
  | start => exact changesEntry_startFileProcessing
  | progress records messages batches => exact changesEntry_updateFileProgress
  | complete records => exact changesEntry_completeFileProcessing

/-- What no operation on a file changes. -/
def frame (m : StateMarker) : String × String × DownloadPhase × Nat × List String × List String :=
  (m.metadataVersion, m.currentVersion, m.downloadPhase, m.processingPhase.filesTotal, m.processingPhase.errors,
    m.publishingPhase.errors)

theorem frame_setTypeStatus {status : PhaseStatus} : (m.setTypeStatus file status).frame = m.frame := by
  unfold setTypeStatus
  split <;> rfl

theorem frame_apply : (m.apply now file op).frame = m.frame := by
  cases op with
  | start =>
    unfold apply startFileProcessing
    rw [frame_setTypeStatus]
    rfl
  | progress records messages batches =>
    unfold apply updateFileProgress
    dsimp only
    split_ifs <;> rfl
  | complete records =>
    unfold apply completeFileProcessing
    rw [frame_setTypeStatus]
    rfl

theorem filesProcessed_apply : (m.apply now file op).processingPhase.filesProcessed =
    m.processingPhase.filesProcessed + op.finished := by
  cases op with
  | start =>
    unfold apply startFileProcessing
    rw [setTypeStatus_processingPhase]
    rfl
  | progress records messages batches =>
    have hcounters : (m.updateFileProgress file records messages batches now).counters = _ :=
      counters_updateFileProgress
    exact congrArg (fun c => c.2.1) hcounters
  | complete records =>
    have hcounters : (m.completeFileProcessing file records now).counters = _ := counters_completeFileProcessing
    exact congrArg (fun c => c.2.1) hcounters

/-- What an operation writes to the status of a data type. -/
def writesType (dt : String) (e : String × FileOp) : Option (Option PhaseStatus) :=
  if StateMarker.extractDataType e.1 = some dt then
    match e.2 with
    | .start => some (some .inProgress)
    | .progress .. => none
    | .complete _ => some (some .completed)
  else none

theorem filesByType_setTypeStatus {status : PhaseStatus} :
    (m.setTypeStatus file status).summary.filesByType.lookup dt =
      if StateMarker.extractDataType file = some dt then some status else m.summary.filesByType.lookup dt := by
  unfold setTypeStatus
  cases StateMarker.extractDataType file with
  | none => rfl
  | some dt' =>
    dsimp only
    rw [Table.lookup_insert_eq]
    by_cases heq : dt' = dt
    · simp [heq]
    · have heq' : dt ≠ dt' := fun h => heq h.symm
      simp [heq, heq']

theorem filesByType_apply : (m.apply now file op).summary.filesByType.lookup dt =
    (writesType dt (file, op)).getD (m.summary.filesByType.lookup dt) := by
  cases op with
  | start =>
    unfold apply startFileProcessing writesType
    dsimp only
    rw [filesByType_setTypeStatus]
    split_ifs <;> rfl
  | progress records messages batches =>
    unfold apply updateFileProgress writesType
    dsimp only
    split_ifs <;> rfl
  | complete records =>
    unfold apply completeFileProcessing writesType
    dsimp only
    rw [filesByType_setTypeStatus]
    split_ifs <;> rfl

/-! ## All operations -/

abbrev stepsOf (events : List (DateTime × String × FileOp)) : List (String × FileOp) := events.map Prod.snd

theorem frame_applyAll : (m.applyAll events).frame = m.frame := by
  unfold applyAll
  induction events generalizing m with
  | nil => rfl
  | cons e rest ih => rw [List.foldl_cons, ih, frame_apply]

theorem filesProcessed_applyAll : (m.applyAll events).processingPhase.filesProcessed =
    m.processingPhase.filesProcessed + ((stepsOf events).map fun e => e.2.finished).sum := by
  unfold applyAll stepsOf
  induction events generalizing m with
  | nil => rfl
  | cons e rest ih =>
    rw [List.foldl_cons, ih, filesProcessed_apply, List.map_cons, List.map_cons, List.sum_cons]
    omega

/-- What a task reads and changes of the marker: its checksum, and its entry without its timestamps. -/
def taskPart (file : String) (m : StateMarker) : Option String × Option FileProcessingStatus :=
  ((m.download file).bind (·.checksum), (m.progress file).map timeless)

def taskStep (part : Option String × Option FileProcessingStatus) (op : FileOp) :
    Option String × Option FileProcessingStatus := (part.1, (entryAfter part.1 0 part.2 op).map timeless)

theorem timeless_entryAfter (checksum : Option String) (entry : Option FileProcessingStatus) :
    (entryAfter checksum now entry op).map timeless =
      (entryAfter checksum 0 (entry.map timeless) op).map timeless := by
  cases op <;> cases entry <;> rfl

/-- The part of a task depends on what the task itself does. -/
theorem taskPart_applyAll : taskPart file (m.applyAll events) =
    (own file (stepsOf events)).foldl taskStep (taskPart file m) := by
  unfold applyAll
  apply component_run
  · intro m e hfile
    have hchange := changesEntry_apply m e.1 e.2.1 e.2.2
    unfold taskPart taskStep
    rw [← hfile, hchange.progress_self, download_of_downloadPhase hchange.downloadPhase, timeless_entryAfter]
  · intro m e hfile
    have hchange := changesEntry_apply m e.1 e.2.1 e.2.2
    unfold taskPart
    rw [hchange.progress, if_neg fun heq => hfile heq.symm, download_of_downloadPhase hchange.downloadPhase]

theorem getLast?_ops (work : FileWork) : work.ops.getLast? = some (.complete work.records) := by
  unfold FileWork.ops
  rw [List.getLast?_append]
  rfl

theorem mem_program {o : FileOp} (h : o ∈ program files work file) : file ∈ files := by
  unfold program at h
  split_ifs at h with hfile
  · exact hfile
  · exact absurd h List.not_mem_nil

theorem getLast?_program (work : String → FileWork) (hfile : file ∈ files) :
    (program files work file).getLast? = some (.complete (work file).records) := by
  unfold program
  rw [if_pos hfile, getLast?_ops]

theorem leaves_program (file : String) :
    Leaves (writesType dt) (some .completed) file (program files work file) := by
  intro before o after w hprogram hwrite
  have hfile : file ∈ files := mem_program (hprogram ▸ List.mem_append_right _ (List.mem_cons_self ..))
  have hlast := getLast?_program work hfile
  rw [hprogram, List.getLast?_append, List.getLast?_cons] at hlast
  unfold writesType at hwrite ⊢
  split_ifs at hwrite with hdt
  cases hafter : after.getLast? with
  | none =>
    obtain rfl : o = .complete (work file).records := by simpa [hafter] using hlast
    exact .inl (Option.some.inj hwrite).symm
  | some last =>
    obtain rfl : last = .complete (work file).records := by simpa [hafter] using hlast
    refine .inr ⟨_, List.mem_of_getLast? hafter, ?_⟩
    rw [if_pos hdt]
    rfl

/-- A data type of a file that is processed is finished in the end. -/
theorem filesByType_applyAll (h : Interleaves (program files work) (stepsOf events)) :
    (m.applyAll events).summary.filesByType.lookup dt =
      if ∃ file ∈ files, StateMarker.extractDataType file = some dt then some .completed
      else m.summary.filesByType.lookup dt := by
  have hrun : (m.applyAll events).summary.filesByType.lookup dt =
      (((stepsOf events).filterMap (writesType dt)).getLast?).getD (m.summary.filesByType.lookup dt) := by
    let typeStatus (m : StateMarker) := m.summary.filesByType.lookup dt
    have hstep : ∀ (m : StateMarker) (e : DateTime × String × FileOp),
        typeStatus (m.apply e.1 e.2.1 e.2.2) = (writesType dt e.2).getD (typeStatus m) := fun _ _ => filesByType_apply
    exact register_run hstep m events
  rw [hrun]
  cases hlast : ((stepsOf events).filterMap (writesType dt)).getLast? with
  | none =>
    rw [if_neg]
    · rfl
    · rintro ⟨file, hfile, hdt⟩
      have hstart : (file, FileOp.start) ∈ stepsOf events := by
        rw [h.mem_iff, program, if_pos hfile]
        exact List.mem_cons_self ..
      have hwrite := List.filterMap_eq_nil_iff.1 (List.getLast?_eq_none_iff.1 hlast) _ hstart
      rw [writesType, if_pos hdt] at hwrite
      exact absurd hwrite (by simp)
  | some w =>
    obtain rfl := h.register (fun file => leaves_program file) hlast
    obtain ⟨⟨file, o⟩, hstep, hwrite⟩ := List.mem_filterMap.1 (List.mem_of_getLast? hlast)
    rw [if_pos]
    · rfl
    · refine ⟨file, mem_program (h.mem_iff.1 hstep), ?_⟩
      unfold writesType at hwrite
      split_ifs at hwrite with hdt
      exact hdt

/-- The sums have been counted anew. -/
def Counted (m : StateMarker) : Prop := m.counters = countedAnew m.entries m.processingPhase.filesProcessed

theorem counted_completeFileProcessing {records : Nat} : (m.completeFileProcessing file records now).Counted := by
  have hcounters : (m.completeFileProcessing file records now).counters = _ := counters_completeFileProcessing
  have hentries : (m.completeFileProcessing file records now).entries = _ := congrArg Prod.fst hcounters
  have hfiles : (m.completeFileProcessing file records now).processingPhase.filesProcessed = _ :=
    congrArg (fun c => c.2.1) hcounters
  unfold Counted
  rw [hcounters, hentries, hfiles]
  rfl

/-- The last operation of an interleaving finishes a file. -/
theorem counted_applyAll (h : Interleaves (program files work) (stepsOf events)) (hne : events ≠ []) :
    (m.applyAll events).Counted := by
  obtain ⟨front, ⟨now, file, op⟩, rfl⟩ := List.eq_nil_or_concat' events |>.resolve_left hne
  have hlastStep : stepsOf (front ++ [(now, file, op)]) = stepsOf front ++ (file, op) :: [] := List.map_append
  have hsplit : program files work file = own file (stepsOf front) ++ [op] := h.split hlastStep
  have hfile : file ∈ files := mem_program (hsplit ▸ List.mem_append_right _ (List.mem_singleton_self op))
  have hlast := getLast?_program work hfile
  rw [hsplit, List.getLast?_concat] at hlast
  obtain rfl := Option.some.inj hlast
  unfold applyAll
  rw [List.foldl_append]
  exact counted_completeFileProcessing

/-! ## All interleavings -/

theorem sameButTimes_finish {m m' : StateMarker} (now now' : DateTime) (hframe : m'.frame = m.frame)
    (hfiles : m'.processingPhase.filesProcessed = m.processingPhase.filesProcessed)
    (hrecords : m'.processingPhase.recordsExtracted = m.processingPhase.recordsExtracted)
    (hmessages : m'.publishingPhase.messagesPublished = m.publishingPhase.messagesPublished)
    (hbatches : m'.publishingPhase.batchesSent = m.publishingPhase.batchesSent)
    (hprogress : ∀ file, (m'.progress file).map timeless = (m.progress file).map timeless)
    (htypes : ∀ dt, m'.summary.filesByType.lookup dt = m.summary.filesByType.lookup dt) :
    SameButTimes (m.finish now) (m'.finish now') := by
  simp only [frame, Prod.mk.injEq] at hframe
  obtain ⟨hmetadata, hversion, hdownload, htotal, herrors, hpublishing⟩ := hframe
  unfold finish completeExtraction completeProcessing
  constructor <;> dsimp only <;> assumption

theorem total_timeless {m m' : StateMarker} {n : FileProcessingStatus → Nat}
    (hn : ∀ status, n (timeless status) = n status)
    (hprogress : ∀ file, (m'.progress file).map timeless = (m.progress file).map timeless) :
    Table.total n m'.entries = Table.total n m.entries := by
  have hsame : (fun status => n (timeless status)) = n := funext hn
  rw [← hsame, Table.total_comp timeless n, Table.total_comp timeless n]
  apply Table.total_congr
  intro file
  rw [Table.lookup_mapValues, Table.lookup_mapValues]
  exact hprogress file

theorem program_of_not_mem (work : String → FileWork) (hfile : file ∉ files) : program files work file = [] := by
  unfold program
  rw [if_neg hfile]

/-- Two interleavings of the same tasks end alike. -/
theorem sameButTimes_of_interleaves (h : Interleaves (program files work) (stepsOf events))
    (h' : Interleaves (program files work) (stepsOf events')) (now now' : DateTime) :
    SameButTimes ((m.applyAll events).finish now) ((m.applyAll events').finish now') := by
  have hperm : (stepsOf events').Perm (stepsOf events) := h'.perm h
  have hprogress : ∀ file,
      ((m.applyAll events').progress file).map timeless = ((m.applyAll events).progress file).map timeless := by
    intro file
    have hpart : taskPart file (m.applyAll events') = taskPart file (m.applyAll events) := by
      rw [taskPart_applyAll, taskPart_applyAll, h file, h' file]
    exact congrArg Prod.snd hpart
  have hfiles : (m.applyAll events').processingPhase.filesProcessed =
      (m.applyAll events).processingPhase.filesProcessed := by
    rw [filesProcessed_applyAll, filesProcessed_applyAll, (hperm.map _).sum_nat]
  have hsums : (m.applyAll events').counters.2.2 = (m.applyAll events).counters.2.2 := by
    by_cases hnil : events = []
    · subst hnil
      obtain rfl : events' = [] := List.map_eq_nil_iff.1 hperm.eq_nil
      rfl
    · have hnil' : events' ≠ [] := by
        rintro rfl
        exact hnil (List.map_eq_nil_iff.1 hperm.symm.eq_nil)
      rw [counted_applyAll h hnil, counted_applyAll h' hnil']
      unfold countedAnew
      rw [total_timeless (fun _ => rfl) hprogress, total_timeless (fun _ => rfl) hprogress,
        total_timeless (fun _ => rfl) hprogress]
  simp only [counters, Prod.mk.injEq] at hsums
  obtain ⟨hrecords, hmessages, hbatches⟩ := hsums
  apply sameButTimes_finish now now' _ hfiles hrecords hmessages hbatches hprogress
  · intro dt
    rw [filesByType_applyAll h, filesByType_applyAll h']
  · rw [frame_applyAll, frame_applyAll]

/-- However the tasks of distinct files take turns, the marker ends as when one file is processed after another. -/
theorem sameButTimes_oneByOne (m : StateMarker) (work : String → FileWork) (hnodup : files.Nodup)
    (h : Interleaves (program files work) (stepsOf events))
    (hone : stepsOf events' = oneByOne files (program files work)) (now now' : DateTime) :
    SameButTimes ((m.applyAll events').finish now') ((m.applyAll events).finish now) := by
  have hone' : Interleaves (program files work) (stepsOf events') :=
    hone ▸ interleaves_oneByOne hnodup fun _ hfile => program_of_not_mem work hfile
  exact sameButTimes_of_interleaves hone' h now' now

/-- Two tasks that take turns, with a checkpoint of the first between the two operations of the second. -/
theorem twoFiles_sameButTimes :
    let artists := "discogs_20260101_artists.xml.gz"
    let labels := "discogs_20260101_labels.xml.gz"
    SameButTimes
      (((new "20260101" 0).applyAll [(1, artists, .start), (2, artists, .progress 2 2 1), (3, artists, .complete 3),
        (4, labels, .start), (5, labels, .complete 5)]).finish 6)
      (((new "20260101" 0).applyAll [(1, labels, .start), (2, artists, .start), (3, artists, .progress 2 2 1),
        (4, labels, .complete 5), (5, artists, .complete 3)]).finish 6) := by
  intro artists labels
  let work : String → FileWork := fun file => if file = artists then ⟨[(2, 2, 1)], 3⟩ else ⟨[], 5⟩
  have hnodup : [artists, labels].Nodup := by decide
  refine sameButTimes_oneByOne _ work hnodup ?_ (by decide) 6 6
  exact interleaves_of_keys (fun _ hfile => program_of_not_mem work hfile) (by decide) (by decide)

end DiscogsIngestion.StateMarker
