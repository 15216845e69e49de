import DiscogsIngestion.Marker.Totals
import DiscogsIngestion.Session.Completion

/-!
# Derived counters over whole runs

* `countsOnce` : a start replaces no entry that has been counted, and a file is finished once;
* `Accounted`, `allAccounted_step` : the marker in memory and those on disk are balanced;
* `balanced_task_iff` : a step of a task keeps the balance exactly if it counts once;
* `saved_balanced` : every saved marker is balanced, in all runs of such steps;
* `reopenedRun_not_balanced` : the totals keep what the entry of a file that is taken up again has lost.
-/

namespace DiscogsIngestion.Session

open StateMarker

variable {β : Type} {cfg : Config β} {s s' : State β} {a : Action β}

instance (m : StateMarker) (file : String) : Decidable (m.Unspent file) :=
  inferInstanceAs (Decidable (∀ status ∈ m.progress file, _))

/-- What a task starts has not been counted, and what it finishes is not finished. -/
def countsOnce (s : State β) : Action β → Bool
  | .task i (.start _) => (s.run.tasks[i]?).all fun t =>
    (extractDataType t.file).isNone || decide (s.marker.Unspent t.file)
  | .task i (.completeFile _) => (s.run.tasks[i]?).all fun t => !s.marker.isCompleted t.file
  | _ => true

/-- A marker with balanced counters, and without entries before its processing phase. -/
structure Accounted (m : StateMarker) : Prop where
  balanced : m.Balanced
  pending : m.processingPhase.status = .pending → ∀ file, m.progress file = none

theorem accounted_new (version : String) (now : DateTime) : Accounted (.new version now) :=
  ⟨balanced_new, fun _ _ => rfl⟩

/-- What holds of the marker in memory and of those on disk. -/
structure AllAccounted (s : State β) : Prop where
  memory : Accounted s.marker
  opened : ∀ t ∈ s.run.tasks, s.marker.processingPhase.status ≠ .pending
  disk : ∀ version tracked, s.markers version = some tracked → Accounted tracked.marker
  saved : ∀ version tracked, .saved version tracked ∈ s.log → Accounted tracked.marker

/-! ## The operations of a run -/

theorem balanced_recordDownload (h : s.marker.Balanced) (file : String) (size : Nat) (saved : Bool) :
    (s.recordDownload file size saved).marker.Balanced := by
  have hdownloaded : (s.marker.fileDownloaded file size s.clock).Balanced := h.congr counters_fileDownloaded
  cases hinfo : s.run.metadata.lookup file with
  | none =>
    rw [recordDownload_unknown size saved hinfo]
    exact hdownloaded.congr counters_lastUpdated
  | some info =>
    rw [recordDownload_known size saved hinfo]
    exact hdownloaded.fileBytesVerified.congr counters_lastUpdated

theorem balanced_recordStaged (h : s.marker.Balanced) (file expected : String) (size : Nat) (saved : Bool) :
    (s.recordStaged file expected size saved).marker.Balanced := by
  have hstarted : ((s.marker.startDownload 1 s.clock).startFileDownload file s.clock).Balanced :=
    (h.congr counters_startDownload).congr counters_startFileDownload
  have hdownloaded : (((s.marker.startDownload 1 s.clock).startFileDownload file s.clock).fileDownloaded file size
      s.clock).Balanced := hstarted.congr counters_fileDownloaded
  rw [recordStaged_marker]
  exact hdownloaded.fileBytesVerified.congr counters_completeDownload

theorem balanced_openProcessing (h : Accounted s.marker) (saved : Bool) :
    (openProcessing s.setDataFiles saved).1.marker.Balanced := by
  rw [openProcessing_eq]
  split_ifs with hpending
  · exact (h.balanced.startProcessing (h.pending hpending)).congr counters_lastUpdated
  · exact h.balanced.congr counters_setFilesTotal
  · exact h.balanced

theorem accounted_loadMarker (h : AllAccounted s) (force readable : Bool) (version : String) :
    Accounted (loadMarker s force readable version).marker := by
  obtain ⟨hnew, -⟩ | ⟨-, -, hfound⟩ := loadMarker_cases s force readable version
  · rw [hnew]
    exact accounted_new version s.clock
  · exact h.disk version _ hfound

/-! ## Balance -/

/-- A step of a task keeps the balance exactly if it counts once. -/
theorem balanced_task_iff (h : s.marker.Balanced) {i : Nat} {t : Task} {action : TaskAction}
    (ht : s.run.tasks[i]? = some t) (hentry : t.pc.working = true → (s.marker.progress t.file).isSome = true)
    (hs : TaskStep cfg s i t action s') : s'.marker.Balanced ↔ countsOnce s (.task i action) = true := by
  cases hs with
  | startInvalid saved _ hnone =>
    have hok : countsOnce s (.task i (.start saved)) = true := by simp [countsOnce, ht, hnone]
    exact iff_of_true h hok
  | start saved _ hdt =>
    have hstarted : (s.marker.startFileProcessing t.file s.clock).Balanced ↔ s.marker.Unspent t.file :=
      h.startFileProcessing_iff
    have hsaved : (((s.openEntry t.file).save saved).setTask i
        { t with attempt := s.nextAttempt, pc := if saved then .started else .failed }).marker.Balanced ↔
          (s.marker.startFileProcessing t.file s.clock).Balanced := balanced_congr rfl
    rw [hsaved, hstarted]
    simp [countsOnce, ht, hdt]
  | checkpoint records batches saved =>
    have hcounted : (s.marker.updateFileProgress t.file records records batches s.clock).Balanced :=
      h.updateFileProgress records records batches
    exact iff_of_true (hcounted.congr counters_lastUpdated) rfl
  | @completeFile saved total hpc =>
    have hworking : t.pc.working = true := by
      rw [hpc]
      rfl
    have hdone : (s.marker.completeFileProcessing t.file total s.clock).Balanced ↔
        (s.marker.progress t.file).isSome = true ∧ s.marker.isCompleted t.file = false :=
      h.completeFileProcessing_iff
    have hsaved : ((((s.update (·.completeFileProcessing t.file total s.clock)).credit t.file t.attempt).save
        saved).setTask i { t with pc := if saved then .done else .failed }).marker.Balanced ↔
          (s.marker.completeFileProcessing t.file total s.clock).Balanced := balanced_congr rfl
    rw [hsaved, hdone]
    simp [countsOnce, ht, hentry hworking]
  | _ => exact iff_of_true h rfl

theorem balanced_save {f : StateMarker → StateMarker} (hf : (f s.marker).Balanced) (saved : Bool) :
    ((s.update f).save saved).marker.Balanced := by
  rw [State.save_marker]
  exact hf.congr counters_lastUpdated

theorem balanced_of_tracked (h : s.marker.Balanced) (htracked : s'.run.tracked = s.run.tracked) :
    s'.marker.Balanced := by
  unfold State.marker
  rw [htracked]
  exact h

/-- A step that counts once keeps the balance. -/
theorem AllAccounted.balanced_step (h : AllAccounted s)
    (hentries : ∀ t ∈ s.run.tasks, t.pc.working = true → (s.marker.progress t.file).isSome = true)
    (hok : countsOnce s a = true) (hs : step cfg s a = some s') : s'.marker.Balanced := by
  have hm := h.memory.balanced
  cases Step.of_step hs with
  | beginReprocess => exact balanced_new
  | beginContinue _ force _ readable => exact (accounted_loadMarker h force readable _).balanced
  | startDownload _ saved => exact balanced_save (hm.congr counters_startDownload) saved
  | alreadyHave saved => exact balanced_of_tracked (balanced_recordDownload hm _ _ saved) (State.advance_tracked ..)
  | startFile saved => exact balanced_save (hm.congr counters_startFileDownload) saved
  | recordFile saved => exact balanced_of_tracked (balanced_recordDownload hm _ _ saved) (State.advance_tracked ..)
  | completeDownload saved => exact balanced_save (hm.congr counters_completeDownload) saved
  | recordStaged => exact balanced_of_tracked (balanced_recordStaged hm _ _ _ true) (State.finishStaged_tracked ..)
  | recordStagedFailed => exact balanced_of_tracked (balanced_recordStaged hm _ _ _ false) (State.goto_tracked ..)
  | prepareFailed saved => exact balanced_openProcessing h.memory saved
  | prepare saved => exact balanced_openProcessing h.memory saved
  | task ht htask => exact (balanced_task_iff hm ht (hentries _ (List.mem_of_getElem? ht)) htask).2 hok
  | completeAll saved => exact balanced_save (hm.congr counters_completeProcessing) saved
  | joinOk saved => exact balanced_save (hm.congr counters_completeProcessing) saved
  | joinErr saved => exact balanced_save (f := id) hm saved
  | finalize saved => exact balanced_save (hm.congr counters_completeExtraction) saved
  | _ => exact hm

/-! ## The processing phase -/

theorem AllAccounted.starts (h : AllAccounted s) (hstarts : Starts s a s') : Accounted s'.marker := by
  cases hstarts with
  | found hfound _ _ hmarker => exact hmarker ▸ h.disk _ _ hfound
  | fresh _ _ _ hmarker => exact hmarker ▸ accounted_new _ _

theorem AllAccounted.pending_step (h : AllAccounted s) (hs : step cfg s a = some s')
    (hpending : s'.marker.processingPhase.status = .pending) (file : String) : s'.marker.progress file = none := by
  have hopen : ∀ {i : Nat} {t : Task}, s.run.tasks[i]? = some t → s.marker.processingPhase.status ≠ .pending :=
    fun ht => h.opened _ (List.mem_of_getElem? ht)
  cases step_advance hs with
  | keep hsame =>
    rw [hsame.progress]
    exact h.memory.pending (hsame.status ▸ hpending) file
  | start _ _ hstarts => exact (h.starts hstarts).pending hpending file
  | requeue _ _ hrequeue =>
    have hbefore : s.marker.processingPhase.status = .pending := by
      rw [hrequeue.status] at hpending
      split_ifs at hpending
      exact hpending
    rw [hrequeue.progress, h.memory.pending hbefore, ite_self]
  | startProcessing _ _ hchange => exact absurd (hchange.status ▸ hpending) PhaseStatus.noConfusion
  | startFile ht _ hchange => exact absurd (hchange.status ▸ hpending) (hopen ht)
  | count _ _ ht _ hchange => exact absurd (hchange.status ▸ hpending) (hopen ht)
  | completeFile ht _ hchange => exact absurd (hchange.status ▸ hpending) (hopen ht)
  | completeProcessing _ hchange => exact absurd (hchange.status ▸ hpending) PhaseStatus.noConfusion
  | completeExtraction _ hchange =>
    rw [hchange.progress]
    exact h.memory.pending (hchange.status ▸ hpending) file

theorem AllAccounted.opened_step (h : AllAccounted s) (hearly : s.run.pc.early = true → s.run.tasks = [])
    (hs : step cfg s a = some s') {t' : Task} (ht' : t' ∈ s'.run.tasks) :
    s'.marker.processingPhase.status ≠ .pending := by
  have hkept : ∀ t ∈ s.run.tasks, s'.marker.processingPhase.status ≠ .pending := by
    intro t ht
    have hopen := h.opened t ht
    cases step_advance hs with
    | keep hsame => exact hsame.status ▸ hopen
    | start _ hnone => exact absurd hnone (List.ne_nil_of_mem ht')
    | requeue hpc => exact absurd hpc (by simp [not_early_of_task hearly ht])
    | startProcessing _ _ hchange => exact hchange.status ▸ PhaseStatus.noConfusion
    | startFile _ _ hchange => exact hchange.status ▸ hopen
    | count _ _ _ _ hchange => exact hchange.status ▸ hopen
    | completeFile _ _ hchange => exact hchange.status ▸ hopen
    | completeProcessing _ hchange => exact hchange.status ▸ PhaseStatus.noConfusion
    | completeExtraction _ hchange => exact hchange.status ▸ hopen
  obtain hold | ⟨t, ht, -⟩ | ⟨-, hstatus, -⟩ := (step_moves hs).task_cases ht'
  · exact hkept t' hold
  · exact hkept t ht
  · exact hstatus

/-! ## Every run -/

theorem allAccounted_step (h : AllAccounted s) (hsound : Sound False s)
    (hearly : s.run.pc.early = true → s.run.tasks = []) (hok : countsOnce s a = true)
    (hs : step cfg s a = some s') : AllAccounted s' := by
  have hmemory : Accounted s'.marker := ⟨h.balanced_step hsound.entries hok hs, h.pending_step hs⟩
  refine ⟨hmemory, fun t' ht' => h.opened_step hearly hs ht', ?_, ?_⟩
  · intro version tracked hfound
    obtain hold | ⟨-, -, -, rfl⟩ := (step_logs hs).markers_cases hfound
    · exact h.disk version tracked hold
    · exact hmemory
  · intro version tracked hsaved
    obtain hold | hnew | hlast := (step_logs hs).mem_cases hsaved
    · exact h.saved version tracked hold
    · cases hnew
    · obtain ⟨-, rfl⟩ := Event.saved.inj hlast
      exact hmemory

theorem allAccounted_init (disk : String → Option β) (metadata : Table String TrustedFile) :
    AllAccounted (State.init disk metadata []) where
  memory := accounted_new "" 0
  opened _ ht := absurd ht List.not_mem_nil
  disk _ _ hfound := by simp [State.init] at hfound
  saved _ _ hsaved := by simp [State.init] at hsaved

section Reach

variable {disk : String → Option β} {metadata : Table String TrustedFile}

/-- In runs that replace no counted entry, every saved marker is balanced. -/
theorem saved_balanced {version : String} {tracked : Tracked}
    (h : Machine.Reach (step cfg) (fun s a => countsOnce s a = true) (State.init disk metadata []) s)
    (hsaved : .saved version tracked ∈ s.log) : tracked.marker.Balanced := by
  have hknown : ∀ s, Machine.Reach (step cfg) (fun s a => countsOnce s a = true) (State.init disk metadata []) s →
      Sound False s ∧ (s.run.pc.early = true → s.run.tasks = []) :=
    fun s hr => ⟨sound_of_reach (fun hno => hno.elim) hr, fun hpc => early_tasks hr hpc⟩
  have haccounted : AllAccounted s := by
    refine h.invariant_of hknown (allAccounted_init disk metadata) ?_
    intro s a s' ⟨hsound, hearly⟩ hI hok hs
    exact allAccounted_step hI hsound hearly hok hs
  exact (haccounted.saved version tracked hsaved).balanced

end Reach

def Event.savedMarker : Event β → Option StateMarker
  | saved _ tracked => some tracked.marker
  | _ => none

theorem Event.mem_savedMarker {log : List (Event β)} {m : StateMarker} (h : m ∈ log.filterMap savedMarker) :
    ∃ version tracked, .saved version tracked ∈ log ∧ tracked.marker = m := by
  obtain ⟨e, he, hmarker⟩ := List.mem_filterMap.1 h
  cases e <;> simp only [savedMarker, reduceCtorEq, Option.some.injEq] at hmarker
  exact ⟨_, _, he, hmarker⟩

/-- A run that dies in the middle of its file, and another that takes the file up again. -/
def reopenedRun (before : List TaskAction) : List (Action String) :=
  let run := localDownload "discogs_20260101_artists.xml.gz" "dump" ++ [.task 0 (.connect true), .task 0 (.start true)]
  run ++ before.map (.task 0) ++ [.crash] ++ run

/-- A file that is taken up again before anything of it has been counted. -/
theorem reopenedRun_balanced : ∃ s : State String,
    Machine.Reach (step .plain) (fun s a => countsOnce s a = true) .empty s ∧
      ∃ version tracked, .saved version tracked ∈ s.log ∧ tracked.marker.processingPhase.filesProcessed = 1 ∧
        tracked.marker.Balanced := by
  let actions : List (Action String) := reopenedRun [.setupExchange true] ++
    [.task 0 (.setupExchange true), .task 0 (.checkpoint 2 1 true), .task 0 (.pipelineDone 3),
      .task 0 (.sendFileComplete .confirmed), .task 0 (.completeFile true)]
  have hrun : ∃ s : State String, Machine.Reach (step .plain) (fun s a => countsOnce s a = true) .empty s ∧
      (s.log.filterMap Event.savedMarker).any (·.processingPhase.filesProcessed = 1) = true :=
    Machine.exists_reach actions (by decide +kernel)
  obtain ⟨s, hreach, hmarker⟩ := hrun
  obtain ⟨m, hm, hone⟩ := List.any_eq_true.1 hmarker
  obtain ⟨version, tracked, hsaved, rfl⟩ := Event.mem_savedMarker hm
  exact ⟨s, hreach, version, tracked, hsaved, of_decide_eq_true hone, saved_balanced hreach hsaved⟩

/-- The entry of a file that is taken up again behind a checkpoint is dropped, and the totals still count it. -/
theorem reopenedRun_not_balanced : ∃ s : State String, Machine.Reach (step .plain) Machine.always .empty s ∧
    ∃ version tracked, .saved version tracked ∈ s.log ∧ ¬tracked.marker.Balanced := by
  have hrun : ∃ s : State String, Machine.Reach (step .plain) Machine.always .empty s ∧
      (s.log.filterMap Event.savedMarker).any (fun m =>
        m.processingPhase.recordsExtracted = 2 ∧ Table.total (·.recordsExtracted) m.entries = 0) = true :=
    Machine.exists_reach (reopenedRun [.setupExchange true, .checkpoint 2 1 true]) (by decide +kernel)
  obtain ⟨s, hreach, hmarker⟩ := hrun
  obtain ⟨m, hm, htotals⟩ := List.any_eq_true.1 hmarker
  obtain ⟨version, tracked, hsaved, rfl⟩ := Event.mem_savedMarker hm
  obtain ⟨hphase, hentries⟩ := of_decide_eq_true htotals
  refine ⟨s, hreach, version, tracked, hsaved, fun hbalanced => ?_⟩
  have hagree := hbalanced.recordsExtracted
  omega

end DiscogsIngestion.Session
