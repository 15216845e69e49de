import DiscogsIngestion.Session.Step

/-!
# What a step does to the marker in memory

* `Advance` : the ways in which the marker in memory changes;
* `step_advance` : every step is one of them;
* `save_markers`, `save_log` : a save changes a marker file to the marker in memory, and is logged.
-/

namespace DiscogsIngestion.Session

open StateMarker

variable {β : Type} {cfg : Config β} {s s' : State β} {a : Action β}

/-! ## Saves -/

namespace State

@[simp] theorem save_run (ok : Bool) : (s.save ok).run =
    { s.run with tracked := { s.run.tracked with marker := { s.marker with lastUpdated := s.clock } } } := rfl

theorem save_log (ok : Bool) : (s.save ok).log =
    s.log ++ if ok then [.saved s.run.version (s.save ok).run.tracked] else [] := by
  cases ok
  · exact (List.append_nil _).symm
  · rfl

theorem save_markers (ok : Bool) : (s.save ok).markers =
    if ok then Function.update s.markers s.run.version (some (s.save ok).run.tracked) else s.markers := rfl

@[simp] theorem save_marker (ok : Bool) : (s.save ok).marker = { s.marker with lastUpdated := s.clock } := rfl

section Fields

variable (f : StateMarker → StateMarker) (file checksum : String)

@[simp] theorem update_marker : (s.update f).marker = f s.marker := rfl

@[simp] theorem update_log : (s.update f).log = s.log := rfl

@[simp] theorem update_markers : (s.update f).markers = s.markers := rfl

@[simp] theorem update_version : (s.update f).run.version = s.run.version := rfl

@[simp] theorem verify_log : (s.verify file checksum).log =
    s.log ++ [.bytesVerified s.run.version file checksum (s.marker.processedChecksum file)] := rfl

@[simp] theorem verify_markers : (s.verify file checksum).markers = s.markers := rfl

@[simp] theorem verify_version : (s.verify file checksum).run.version = s.run.version := rfl

end Fields

def now : DateTime × Bool × Nat := (s.clock, s.shutdown, s.nextAttempt)

theorem save_now (ok : Bool) : (s.save ok).now = s.now := rfl

theorem update_now (f : StateMarker → StateMarker) : (s.update f).now = s.now := rfl

theorem verify_now (file checksum : String) : (s.verify file checksum).now = s.now := rfl

theorem credit_now (file : String) (attempt : Nat) : (s.credit file attempt).now = s.now := rfl

theorem setTask_now (i : Nat) (t : Task) : (s.setTask i t).now = s.now := rfl

theorem openEntry_now (file : String) : (s.openEntry file).now = (s.clock, s.shutdown, s.nextAttempt + 1) := rfl

theorem goto_now (pc : Pc) : (s.goto pc).now = s.now := rfl

theorem advance_now (file : String) (rest : List String) : (s.advance file rest).now = s.now := rfl

theorem finishStaged_now (file : String) : (s.finishStaged file).now = s.now := rfl

theorem goto_tracked (pc : Pc) : (s.goto pc).run.tracked = s.run.tracked := rfl

theorem advance_tracked (file : String) (rest : List String) :
    (s.advance file rest).run.tracked = s.run.tracked := rfl

theorem finishStaged_tracked (file : String) : (s.finishStaged file).run.tracked = s.run.tracked := rfl

theorem goto_tasks (pc : Pc) : (s.goto pc).run.tasks = s.run.tasks := rfl

theorem advance_tasks (file : String) (rest : List String) : (s.advance file rest).run.tasks = s.run.tasks := rfl

theorem finishStaged_tasks (file : String) : (s.finishStaged file).run.tasks = s.run.tasks := rfl

end State

/-! ## The marker in memory -/

/-- The registers of a run that are set at its start and when it opens the processing phase. -/
structure SameRegs (s s' : State β) : Prop where
  version : s'.run.version = s.run.version
  dataFiles : s'.run.tracked.dataFiles = s.run.tracked.dataFiles
  processingStartedAt : s'.run.processingStartedAt = s.run.processingStartedAt

/-- A run starts with the marker that it finds, or with a new one when there is none to go on with. -/
inductive Starts (s : State β) (a : Action β) (s' : State β) : Prop where
  | found {version : String} {tracked : Tracked} : s.markers version = some tracked →
      tracked.marker.shouldProcess = .continue → s'.run.version = version → s'.marker = tracked.marker →
      s'.run.tracked.attempts = tracked.attempts → Starts s a s'
  | fresh {source : Source} {force readable : Bool} {latest : List String} {version : String} :
      a = .begin source force latest readable → force = true ∨ readable = false ∨
        (∀ tracked, s.markers version = some tracked → tracked.marker.shouldProcess = .reprocess) →
      s'.run.version = version → s'.marker = .new version s.clock → s'.run.tracked.attempts = (fun _ => 0) →
      Starts s a s'

/-- How the marker in memory changes in a step. -/
inductive Advance (s : State β) (a : Action β) (s' : State β) : Prop where
  /-- No change that concerns processing. -/
  | keep : SameProcessing s.marker s'.marker → s'.run.tracked.attempts = s.run.tracked.attempts → Advance s a s'
  | start : s.run.pc = .idle → s'.run.tasks = [] → Starts s a s' → Advance s a s'
  /-- A file that had been processed from other bytes. -/
  | requeue {file checksum : String} {rest : List (Event β)} : s.run.pc.early = true →
      s.marker.IsStale file checksum → Requeues s.marker s'.marker file →
      s'.log = s.log ++ .bytesVerified s.run.version file checksum (s.marker.processedChecksum file) :: rest →
      s'.run.tracked.attempts = s.run.tracked.attempts → Advance s a s'
  | startProcessing : s.run.pc = .downloaded → s.marker.processingPhase.status = .pending →
      ChangesPhase s.marker s'.marker (some s.clock) .inProgress .inProgress →
      s'.run.tracked.attempts = s.run.tracked.attempts → Advance s a s'
  | startFile {i : Nat} {t : Task} : s.run.tasks[i]? = some t → t.pc = .connected →
      ChangesEntry s.marker s'.marker t.file (some (s.marker.startedEntry t.file s.clock)) →
      s'.run.tracked.attempts = Function.update s.run.tracked.attempts t.file s.nextAttempt →
      s'.nextAttempt = s.nextAttempt + 1 →
      .started t.file s.nextAttempt ((s.marker.download t.file).bind (·.checksum)) ∈ s'.log →
      (∃ t' ∈ s'.run.tasks, t'.file = t.file ∧ t'.pc ≠ .done) → Advance s a s'
  | count {i : Nat} {t : Task} (records batches : Nat) : s.run.tasks[i]? = some t →
      t.pc = .running ∨ t.pc = .lingering →
      ChangesEntry s.marker s'.marker t.file ((s.marker.progress t.file).map (countedEntry records records batches)) →
      s'.run.tracked.attempts = s.run.tracked.attempts → Advance s a s'
  | completeFile {i : Nat} {t : Task} {total : Nat} : s.run.tasks[i]? = some t → t.pc = .announced total →
      ChangesEntry s.marker s'.marker t.file ((s.marker.progress t.file).map (completedEntry total s.clock)) →
      s'.run.tracked.attempts = Function.update s.run.tracked.attempts t.file t.attempt → Advance s a s'
  | completeProcessing : s.run.pc = .allDone ∨ s.run.pc = .processing →
      ChangesPhase s.marker s'.marker s.marker.processingPhase.startedAt .completed s.marker.summary.overallStatus →
      s'.run.tracked.attempts = s.run.tracked.attempts → Advance s a s'
  | completeExtraction : s.run.pc = .finalizing →
      ChangesPhase s.marker s'.marker s.marker.processingPhase.startedAt s.marker.processingPhase.status .completed →
      s'.run.tracked.attempts = s.run.tracked.attempts → s'.run.pc = .idle → SameRegs s s' →
      s'.run.tasks = s.run.tasks → Advance s a s'

theorem Advance.same (hm : s'.marker = s.marker) (ha : s'.run.tracked.attempts = s.run.tracked.attempts) :
    Advance s a s' := .keep (hm ▸ .refl) ha

theorem Advance.saveSame {f : StateMarker → StateMarker} (ok : Bool)
    (htracked : s'.run.tracked = ((s.update f).save ok).run.tracked) (hf : SameProcessing s.marker (f s.marker)) :
    Advance s a s' := by
  have hm : s'.marker = { f s.marker with lastUpdated := s.clock } := congrArg Tracked.marker htracked
  exact .keep (hm ▸ hf.trans sameProcessing_lastUpdated) ((congrArg Tracked.attempts htracked).trans rfl)

/-- A verification requeues a file or changes nothing that concerns processing. -/
theorem Advance.verify {file checksum : String} {m : StateMarker} {rest : List (Event β)}
    (hpc : s.run.pc.early = true) (hm : SameProcessing s.marker m)
    (hs' : SameProcessing (m.fileBytesVerified file checksum) s'.marker)
    (hlog : s'.log = s.log ++ .bytesVerified s.run.version file checksum (m.processedChecksum file) :: rest)
    (ha : s'.run.tracked.attempts = s.run.tracked.attempts) : Advance s a s' := by
  have hrec : SameProcessing s.marker (m.recordChecksum file checksum) := hm.trans sameProcessing_recordChecksum
  by_cases h : m.IsStale file checksum
  · rw [fileBytesVerified_of_stale h] at hs'
    have hstale : s.marker.IsStale file checksum := by rwa [IsStale, hm.processedChecksum] at h
    exact .requeue hpc hstale (hrec.trans_requeues (requeues_requeue.trans_same hs'))
      (hm.processedChecksum ▸ hlog) ha
  · rw [fileBytesVerified_of_not_stale h] at hs'
    exact .keep (hrec.trans hs') ha

/-! ## The steps that verify bytes -/

theorem recordDownload_unknown {file : String} (size : Nat) (saved : Bool)
    (h : s.run.metadata.lookup file = none) :
    s.recordDownload file size saved = (s.update (·.fileDownloaded file size s.clock)).save saved := by
  simp only [State.recordDownload, State.update, h]

theorem recordDownload_known {file : String} {info : TrustedFile} (size : Nat) (saved : Bool)
    (h : s.run.metadata.lookup file = some info) :
    s.recordDownload file size saved =
      ((s.update (·.fileDownloaded file size s.clock)).verify file info.checksum).save saved := by
  simp only [State.recordDownload, State.update, h]

/-- A run that has changed its marker and is where it was. -/
def SameButMarker (r r' : Run) : Prop := ∃ m, r' = { r with tracked := { r.tracked with marker := m } }

theorem recordDownload_run (file : String) (size : Nat) (saved : Bool) :
    SameButMarker s.run (s.recordDownload file size saved).run := by
  refine ⟨(s.recordDownload file size saved).marker, ?_⟩
  cases hinfo : s.run.metadata.lookup file with
  | none => rw [recordDownload_unknown size saved hinfo]; rfl
  | some info => rw [recordDownload_known size saved hinfo]; rfl

theorem recordDownload_now (file : String) (size : Nat) (saved : Bool) :
    (s.recordDownload file size saved).now = s.now := by
  cases hinfo : s.run.metadata.lookup file with
  | none => rw [recordDownload_unknown size saved hinfo, State.save_now, State.update_now]
  | some info => rw [recordDownload_known size saved hinfo, State.save_now, State.verify_now, State.update_now]

theorem advance_recordDownload (file : String) (size : Nat) (saved : Bool) (hpc : s.run.pc.early = true)
    (htracked : s'.run.tracked = (s.recordDownload file size saved).run.tracked)
    (hlog : s'.log = (s.recordDownload file size saved).log) : Advance s a s' := by
  cases hinfo : s.run.metadata.lookup file with
  | none =>
    rw [recordDownload_unknown size saved hinfo] at htracked
    exact .saveSame saved htracked sameProcessing_fileDownloaded
  | some info =>
    rw [recordDownload_known size saved hinfo] at htracked hlog
    have hm : s'.marker = { (s.marker.fileDownloaded file size s.clock).fileBytesVerified file info.checksum with
        lastUpdated := s.clock } := congrArg Tracked.marker htracked
    rw [State.save_log] at hlog
    exact .verify hpc sameProcessing_fileDownloaded (hm ▸ sameProcessing_lastUpdated)
      (hlog.trans (List.append_assoc s.log _ _)) ((congrArg Tracked.attempts htracked).trans rfl)

theorem recordStaged_run (file expected : String) (size : Nat) (saved : Bool) :
    SameButMarker s.run (s.recordStaged file expected size saved).run :=
  ⟨(s.recordStaged file expected size saved).marker, rfl⟩

theorem recordStaged_now (file expected : String) (size : Nat) (saved : Bool) :
    (s.recordStaged file expected size saved).now = s.now := by
  simp only [State.recordStaged, State.save_now, State.update_now, State.verify_now]

theorem recordStaged_marker (file expected : String) (size : Nat) (saved : Bool) :
    (s.recordStaged file expected size saved).marker =
      { ((((s.marker.startDownload 1 s.clock).startFileDownload file s.clock).fileDownloaded file size
        s.clock).fileBytesVerified file expected).completeDownload s.clock with lastUpdated := s.clock } := rfl

theorem advance_recordStaged (file expected : String) (size : Nat) (saved : Bool) (hpc : s.run.pc.early = true)
    (htracked : s'.run.tracked = (s.recordStaged file expected size saved).run.tracked)
    (hlog : s'.log = (s.recordStaged file expected size saved).log) : Advance s a s' := by
  have hm : s'.marker = (s.recordStaged file expected size saved).marker := congrArg Tracked.marker htracked
  rw [recordStaged_marker] at hm
  have hbefore : SameProcessing s.marker (((s.marker.startDownload 1 s.clock).startFileDownload file
      s.clock).fileDownloaded file size s.clock) :=
    (sameProcessing_startDownload.trans sameProcessing_startFileDownload).trans sameProcessing_fileDownloaded
  rw [State.recordStaged, State.save_log] at hlog
  refine .verify hpc hbefore ?_ (hlog.trans (List.append_assoc s.log _ _))
    ((congrArg Tracked.attempts htracked).trans rfl)
  rw [hm]
  exact sameProcessing_completeDownload.trans sameProcessing_lastUpdated

/-! ## Every step -/

theorem advance_task {i : Nat} {t : Task} {action : TaskAction} (ht : s.run.tasks[i]? = some t)
    (h : TaskStep cfg s i t action s') : Advance s a s' := by
  cases h with
  | start saved hpc hdt =>
    refine .startFile ht hpc (changesEntry_startFileProcessing.trans_same sameProcessing_lastUpdated rfl) rfl rfl ?_ ?_
    · cases saved
      · exact List.mem_append_right _ (List.mem_singleton_self _)
      · exact List.mem_append_left _ (List.mem_append_right _ (List.mem_singleton_self _))
    · refine ⟨{ t with attempt := s.nextAttempt, pc := if saved then .started else .failed }, ?_, rfl, ?_⟩
      · exact List.mem_set (List.getElem?_eq_some_iff.1 ht).1 _
      · cases saved <;> exact TaskPc.noConfusion
  | checkpoint records batches saved hpc =>
    exact .count records batches ht hpc
      (changesEntry_updateFileProgress.trans_same sameProcessing_lastUpdated rfl) rfl
  | completeFile saved hpc =>
    exact .completeFile ht hpc
      (changesEntry_completeFileProcessing.trans_same sameProcessing_lastUpdated rfl) rfl
  | _ => exact .same rfl rfl

theorem openProcessing_eq (saved : Bool) : openProcessing s saved =
    if s.marker.processingPhase.status = .pending then
      ((s.update (·.startProcessing s.run.tracked.dataFiles.length s.clock)).save saved, saved)
    else if s.marker.processingPhase.status = .inProgress then
      ((s.update (·.setFilesTotal s.run.tracked.dataFiles.length)).save saved, saved)
    else (s, true) := by
  cases h : s.marker.processingPhase.status <;> simp [openProcessing, h]

theorem openProcessing_run (saved : Bool) : SameButMarker s.run (openProcessing s saved).1.run := by
  refine ⟨(openProcessing s saved).1.marker, ?_⟩
  rw [openProcessing_eq]
  split_ifs <;> rfl

theorem openProcessing_now (saved : Bool) : (openProcessing s saved).1.now = s.now := by
  rw [openProcessing_eq]
  split_ifs <;> rfl

theorem advance_openProcessing (saved : Bool) (hpc : s.run.pc = .downloaded)
    (htracked : s'.run.tracked = (openProcessing s.setDataFiles saved).1.run.tracked) : Advance s a s' := by
  rw [openProcessing_eq] at htracked
  split_ifs at htracked with hpending hprogress
  · have hm : s'.marker = { s.marker.startProcessing s.setDataFiles.run.tracked.dataFiles.length s.clock with
        lastUpdated := s.clock } := congrArg Tracked.marker htracked
    exact .startProcessing hpc hpending (hm ▸ changesPhase_startProcessing)
      ((congrArg Tracked.attempts htracked).trans rfl)
  · have hm : s'.marker = { s.marker.setFilesTotal s.setDataFiles.run.tracked.dataFiles.length with
        lastUpdated := s.clock } := congrArg Tracked.marker htracked
    exact .keep (hm ▸ sameProcessing_setFilesTotal.trans sameProcessing_lastUpdated)
      ((congrArg Tracked.attempts htracked).trans rfl)
  · exact .same ((congrArg Tracked.marker htracked).trans rfl) ((congrArg Tracked.attempts htracked).trans rfl)

/-- The marker that a run goes on with is new when it is told so or finds none, and on disk otherwise. -/
theorem loadMarker_cases (s : State β) (force readable : Bool) (version : String) :
    (loadMarker s force readable version = .new version s.clock ∧
      (force = true ∨ readable = false ∨ s.markers version = none)) ∨
    (force = false ∧ readable = true ∧ s.markers version = some (loadMarker s force readable version)) := by
  cases force with
  | true => exact .inl ⟨rfl, .inl rfl⟩
  | false =>
    cases readable with
    | false => exact .inl ⟨rfl, .inr (.inl rfl)⟩
    | true =>
      cases hm : s.markers version with
      | none => exact .inl ⟨by simp [loadMarker, hm], .inr (.inr rfl)⟩
      | some tracked => exact .inr ⟨rfl, rfl, by simp [loadMarker, hm]⟩

theorem starts_reprocess {source : Source} {force readable : Bool} {latest : List String} {version : String}
    (hdec : (loadMarker s force readable version).marker.shouldProcess = .reprocess)
    (hversion : s'.run.version = version) (hmarker : s'.marker = .new version s.clock)
    (hattempts : s'.run.tracked.attempts = fun _ => 0) : Starts s (.begin source force latest readable) s' := by
  refine .fresh rfl ?_ hversion hmarker hattempts
  obtain ⟨-, hforce | hread | hnone⟩ | ⟨-, -, hfound⟩ := loadMarker_cases s force readable version
  · exact .inl hforce
  · exact .inr (.inl hread)
  · exact .inr (.inr fun tracked hm => by simp [hnone] at hm)
  · exact .inr (.inr fun tracked hm => by rwa [Option.some.inj (hfound.symm.trans hm)] at hdec)

theorem starts_continue {source : Source} {force readable : Bool} {latest : List String} {version : String}
    (hdec : (loadMarker s force readable version).marker.shouldProcess = .continue)
    (hversion : s'.run.version = version) (hmarker : s'.marker = (loadMarker s force readable version).marker)
    (hattempts : s'.run.tracked.attempts = (loadMarker s force readable version).attempts) :
    Starts s (.begin source force latest readable) s' := by
  obtain ⟨hnew, hwhy⟩ | ⟨-, -, hfound⟩ := loadMarker_cases s force readable version
  · rw [hnew] at hmarker hattempts
    refine .fresh rfl (hwhy.imp_right fun hwhy => hwhy.imp_right fun hnone tracked hm => ?_) hversion hmarker hattempts
    simp [hnone] at hm
  · exact .found hfound hdec hversion hmarker hattempts

theorem step_advance (h : step cfg s a = some s') : Advance s a s' := by
  cases Step.of_step h with
  | beginReprocess _ _ _ _ hpc _ _ hdec => exact .start hpc rfl (starts_reprocess hdec rfl rfl rfl)
  | beginContinue _ _ _ _ hpc _ _ hdec => exact .start hpc rfl (starts_continue hdec rfl rfl rfl)
  | startDownload _ saved => exact .saveSame saved rfl sameProcessing_startDownload
  | alreadyHave saved hpc => exact advance_recordDownload _ _ saved (by rw [hpc]; rfl) (State.advance_tracked ..) rfl
  | startFile saved => exact .saveSame saved rfl sameProcessing_startFileDownload
  | recordFile saved hpc => exact advance_recordDownload _ _ saved (by rw [hpc]; rfl) (State.advance_tracked ..) rfl
  | completeDownload saved => exact .saveSame saved rfl sameProcessing_completeDownload
  | recordStaged hpc => exact advance_recordStaged _ _ _ true (by rw [hpc]; rfl) (State.finishStaged_tracked ..) rfl
  | recordStagedFailed hpc => exact advance_recordStaged _ _ _ false (by rw [hpc]; rfl) (State.goto_tracked ..) rfl
  | prepareFailed saved hpc => exact advance_openProcessing saved hpc rfl
  | prepare saved hpc => exact advance_openProcessing saved hpc rfl
  | task ht htask => exact advance_task ht htask
  | completeAll saved hpc => exact .completeProcessing (.inl hpc) changesPhase_completeProcessing rfl
  | joinOk saved hpc => exact .completeProcessing (.inr hpc) changesPhase_completeProcessing rfl
  | joinErr saved => exact .saveSame (f := id) saved rfl .refl
  | finalize saved hpc => exact .completeExtraction hpc changesPhase_completeExtraction rfl rfl ⟨rfl, rfl, rfl⟩ rfl
  | _ => exact .same rfl rfl

end DiscogsIngestion.Session
