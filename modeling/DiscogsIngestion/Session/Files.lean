import DiscogsIngestion.Session.Progress
import DiscogsIngestion.Session.Provenance

/-!
# Runs over the same files

* `SameList` : every run gets the same list of files;
* `Run.Ordered`, `ordered_step` : where the lists of a run stand, from the download to the file tasks;
* `Unfinished`, `unfinished_step` : a task that is not over has a file that is not finished;
* `Orderly`, `orderly_of_reach` : both, with the files of the tasks, and that a run goes on to complete its version
  only when all of its tasks are done.
-/

namespace DiscogsIngestion.Session

open StateMarker

variable {β : Type} {cfg : Config β} {s s' : State β} {a : Action β} {files : List String}

/-- Runs get these files. -/
def SameList (files : List String) (_ : State β) : Action β → Prop
  | .begin _ _ latest _ => latest = files
  | _ => True

def dataFiles (files : List String) : List String := files.filter fun file => !isChecksum file

/-! ## The lists of a run -/

/-- Where the lists of a run stand. -/
def Run.Ordered (files : List String) (r : Run) : Prop :=
  match r.pc with
  | .idle => True
  | .starting | .staged => r.latest = files ∧ r.downloaded = [] ∧ r.todo = []
  | .downloading | .fetching _ | .fetched _ | .recording _ => r.latest = files ∧ r.downloaded ++ r.todo = files
  | .closing | .downloaded => r.downloaded = files
  | _ => r.tracked.dataFiles = dataFiles files

theorem Run.Ordered.idle {r : Run} (hpc : r.pc = .idle) : r.Ordered files := by
  unfold Run.Ordered
  rw [hpc]
  trivial

theorem Run.Ordered.congr {r r' : Run} (h : r.Ordered files) (hpc : r'.pc = r.pc) (hlists : r'.lists = r.lists)
    (hdata : r'.tracked.dataFiles = r.tracked.dataFiles) : r'.Ordered files := by
  simp only [Run.lists, Prod.mk.injEq] at hlists
  obtain ⟨hlatest, hdownloaded, htodo⟩ := hlists
  unfold Run.Ordered at h ⊢
  rwa [hpc, hlatest, hdownloaded, htodo, hdata]

/-- Behind the first file of the loop. -/
theorem Run.Ordered.advance (h : s.run.latest = files ∧ s.run.downloaded ++ s.run.todo = files) {base : State β}
    (hbase : SameButMarker s.run base.run) {file : String} {rest : List String} (htodo : s.run.todo = file :: rest) :
    (base.advance file rest).run.Ordered files := by
  obtain ⟨m, hrun⟩ := hbase
  show base.run.latest = files ∧ (base.run.downloaded ++ [file]) ++ rest = files
  rw [hrun]
  refine ⟨h.1, ?_⟩
  rw [List.append_assoc, List.singleton_append, ← htodo]
  exact h.2

/-- What the run has been at before a step says where its lists stand. -/
theorem Run.Ordered.at {r : Run} (h : r.Ordered files) {pc : Pc} (hpc : r.pc = pc) :
    ({ r with pc } : Run).Ordered files := hpc ▸ h

theorem ordered_step (h : s.run.Ordered files) (hok : SameList files s a) (hs : step cfg s a = some s') :
    s'.run.Ordered files := by
  cases Step.of_step hs with
  | beginReprocess => exact ⟨hok, rfl, rfl⟩
  | beginContinue => exact ⟨hok, rfl, rfl⟩
  | startDownload _ _ hpc =>
    obtain ⟨hlatest, hdownloaded, -⟩ := h.at hpc
    refine ⟨hlatest, ?_⟩
    show s.run.downloaded ++ s.run.latest = files
    rw [hdownloaded, hlatest, List.nil_append]
  | alreadyHave saved hpc htodo => exact .advance (h.at hpc) (recordDownload_run _ _ saved) htodo
  | startFile _ hpc => exact (h.at hpc :)
  | @attemptFailed _ n _ _ hpc =>
    by_cases hn : n < maxDownloadRetries
    · rw [if_pos hn]
      exact (h.at hpc :)
    · rw [if_neg hn]
      exact trivial
  | attemptDone _ hpc => exact (h.at hpc :)
  | saveFileMetadata _ hpc => exact (h.at hpc :)
  | recordFile saved hpc htodo => exact .advance (h.at hpc) (recordDownload_run _ _ saved) htodo
  | completeDownload _ hpc htodo =>
    have hlists := (h.at hpc).2
    rwa [htodo, List.append_nil] at hlists
  | metadataSaved hpc => exact (h.at hpc :)
  | stage _ hpc => exact (h.at hpc :)
  | recordStaged hpc _ hlatest => exact hlatest.symm.trans (h.at hpc).1
  | prepare saved hpc =>
    have hdata : (openProcessing s.setDataFiles saved).1.run.tracked.dataFiles = dataFiles files := by
      obtain ⟨m, hrun⟩ := openProcessing_run (s := s.setDataFiles) saved
      rw [hrun]
      exact congrArg dataFiles (h.at hpc)
    simp only [spawn]
    split_ifs <;> exact hdata
  | task ht htask => exact h.congr htask.pc htask.lists htask.regs.dataFiles
  | completeAll saved hpc =>
    cases saved with
    | true => exact (h.at hpc :)
    | false => exact trivial
  | joinOk saved hpc =>
    cases saved with
    | true => exact (h.at hpc :)
    | false => exact trivial
  | connected hpc => exact (h.at hpc :)
  | broadcast _ hpc => exact (h.at hpc :)
  | broadcastRefused hpc => exact (h.at hpc :)
  | @endBroadcast sent _ hpc =>
    cases sent with
    | true => exact (h.at hpc :)
    | false => exact trivial
  | tick => exact h
  | requestShutdown => exact h
  | changeFile => exact h
  | changeMetadata => exact h
  | beginSkip => exact h
  | _ => exact trivial

theorem Run.Ordered.dataFiles {r : Run} (h : r.Ordered files) (hlate : r.pc.late = true) :
    r.tracked.dataFiles = Session.dataFiles files := by
  unfold Run.Ordered at h
  cases hpc : r.pc <;> simp only [hpc, Pc.late, Pc.early] at h hlate <;> first | exact h | simp at hlate

/-! ## Tasks that are not over -/

/-- The files of the tasks that are not over are not finished. -/
def Unfinished (s : State β) : Prop := ∀ t ∈ s.run.tasks, t.pc.ended = false → s.marker.isCompleted t.file = false

theorem TaskStep.completed {i : Nat} {t : Task} {action : TaskAction} (h : TaskStep cfg s i t action s') :
    (∀ file, s'.marker.isCompleted file = true → s.marker.isCompleted file = true) ∨
      ∃ t', s'.run.tasks = s.run.tasks.set i t' ∧ t'.file = t.file ∧ t'.pc.ended = true ∧
        ∀ file, s'.marker.isCompleted file = true → s.marker.isCompleted file = true ∨ file = t.file := by
  cases h with
  | start saved =>
    refine .inl fun file hfile => ?_
    have hchange : ChangesEntry s.marker
        { s.marker.startFileProcessing t.file s.clock with lastUpdated := s.clock } t.file _ :=
      changesEntry_startFileProcessing.trans_same sameProcessing_lastUpdated rfl
    have hentry := hchange.isCompleted.symm.trans hfile
    split_ifs at hentry
    · exact absurd hentry Bool.false_ne_true
    · exact hentry
  | checkpoint records batches saved =>
    refine .inl fun file hfile => ?_
    have hchange : ChangesEntry s.marker
        { s.marker.updateFileProgress t.file records records batches s.clock with lastUpdated := s.clock }
        t.file _ :=
      changesEntry_updateFileProgress.trans_same sameProcessing_lastUpdated rfl
    have hentry := hchange.isCompleted.symm.trans hfile
    rw [isCompleted_countedEntry] at hentry
    split_ifs at hentry with hf
    · exact hf ▸ hentry
    · exact hentry
  | @completeFile saved total hpc =>
    refine .inr ⟨{ t with pc := if saved then .done else .failed }, rfl, rfl, by cases saved <;> rfl, ?_⟩
    intro file hfile
    have hchange : ChangesEntry s.marker
        { s.marker.completeFileProcessing t.file total s.clock with lastUpdated := s.clock } t.file _ :=
      changesEntry_completeFileProcessing.trans_same sameProcessing_lastUpdated rfl
    have hentry := hchange.isCompleted.symm.trans hfile
    split_ifs at hentry with hf
    · exact .inr hf
    · exact .inl hentry
  | _ => exact .inl fun _ hfile => hfile

/-- Behind the download phase a file is finished by the last step of its task alone. -/
theorem step_completed (h : step cfg s a = some s') (hearly : s.run.pc.early = false) :
    (∀ file, s'.marker.isCompleted file = true → s.marker.isCompleted file = true) ∨ s'.run.tasks = [] ∨
      ∃ t t' i, s.run.tasks[i]? = some t ∧ s'.run.tasks = s.run.tasks.set i t' ∧ t'.file = t.file ∧
        t'.pc.ended = true ∧
          ∀ file, s'.marker.isCompleted file = true → s.marker.isCompleted file = true ∨ file = t.file := by
  have hphase : ∀ {pc : Pc} {P : Prop}, s.run.pc = pc → pc.early = true → P :=
    fun hpc he => absurd (hearly.symm.trans (hpc ▸ he)) Bool.false_ne_true
  cases Step.of_step h with
  | beginReprocess => exact .inr (.inl rfl)
  | beginContinue => exact .inr (.inl rfl)
  | startDownload _ _ hpc => exact hphase hpc rfl
  | alreadyHave _ hpc => exact hphase hpc rfl
  | startFile _ hpc => exact hphase hpc rfl
  | recordFile _ hpc => exact hphase hpc rfl
  | completeDownload _ hpc => exact hphase hpc rfl
  | recordStaged hpc => exact hphase hpc rfl
  | recordStagedFailed hpc => exact hphase hpc rfl
  | prepareFailed _ hpc => exact hphase hpc rfl
  | prepare _ hpc => exact hphase hpc rfl
  | task ht htask =>
    exact htask.completed.imp_right fun ⟨t', htasks, hfile, hended, hcompleted⟩ =>
      .inr ⟨_, t', _, ht, htasks, hfile, hended, hcompleted⟩
  | completeAll => exact .inl fun file hfile => (changesPhase_completeProcessing.isCompleted (f := file)) ▸ hfile
  | joinOk => exact .inl fun file hfile => (changesPhase_completeProcessing.isCompleted (f := file)) ▸ hfile
  | finalize => exact .inl fun file hfile => (changesPhase_completeExtraction.isCompleted (f := file)) ▸ hfile
  | _ => exact .inl fun _ hfile => hfile

theorem unfinished_step (h : Unfinished s) (hearly : s.run.pc.early = true → s.run.tasks = [])
    (honce : Waiting s') (hs : step cfg s a = some s') : Unfinished s' := by
  intro t' ht' hopen
  obtain ⟨t, ht, hfile, hended⟩ | ⟨hpc, -⟩ := (step_moves hs).open_cases ht' hopen
  · by_contra hdone
    rw [Bool.not_eq_false] at hdone
    have hold : ¬s.marker.isCompleted t'.file = true := by
      rw [← hfile, h t ht hended]
      exact Bool.false_ne_true
    obtain hsame | hnone | ⟨t₁, t₁', i, ht₁, htasks, hfile₁, hended₁, hcompleted⟩ :=
      step_completed hs (not_early_of_task hearly ht)
    · exact hold (hsame _ hdone)
    · simp [hnone] at ht'
    · -- the file's own task, which is over now
      have hsame := (hcompleted _ hdone).resolve_left hold
      have hmem : t₁' ∈ s'.run.tasks := htasks ▸ List.mem_set (List.getElem?_eq_some_iff.1 ht₁).1 _
      obtain rfl := List.inj_on_of_nodup_map honce.once hmem ht' (hfile₁.trans hsame.symm)
      exact absurd (hended₁.symm.trans hopen) Bool.true_eq_false.mp
  · obtain hold | ⟨t, ht, -⟩ | ⟨-, -, -, hpending⟩ := (step_moves hs).task_cases ht'
    · simp [hearly (by rw [hpc]; rfl)] at hold
    · simp [hearly (by rw [hpc]; rfl)] at ht
    · exact (mem_pendingFiles.1 hpending).2

/-! ## The tasks of a run -/

def Finished (s : State β) : Prop := s.run.pc.finished = true → ∀ t ∈ s.run.tasks, t.pc = .done

theorem TaskPc.done_of_ok {pc : TaskPc} (h : pc.ok = true) (hskipped : pc ≠ .skipped) : pc = .done := by
  cases pc <;> simp_all [ok]

theorem finished_step (h : Finished s) (hskipped : ∀ t ∈ s.run.tasks, t.pc = .skipped → s.shutdown = true)
    (hs : step cfg s a = some s') : Finished s' := by
  intro hpc'
  have hkeep : s.run.pc.finished = true → s'.run.tasks = s.run.tasks → ∀ t ∈ s'.run.tasks, t.pc = .done :=
    fun hpc htasks => htasks ▸ h hpc
  cases step_moves hs with
  | stay hpc _ htasks =>
    rw [hpc] at hpc'
    cases htasks with
    | same htasks => exact hkeep hpc' htasks
    | moved ht _ hended => simp [h hpc' _ (List.mem_of_getElem? ht), TaskPc.ended] at hended
  | stop hpc => simp [hpc, Pc.finished, Pc.processed] at hpc'
  | start _ hpc => simp [hpc, Pc.finished, Pc.processed] at hpc'
  | early _ hpc => exact absurd (Pc.late_of_finished hpc') (by simp [Pc.late, hpc])
  | spawn _ _ _ hpc =>
    obtain ⟨-, hnone⟩ | hpc := hpc
    · simp [hnone]
    · simp [hpc, Pc.finished, Pc.processed] at hpc'
  | complete hpc _ _ _ htasks =>
    obtain hpc | ⟨-, hok, hup⟩ := hpc
    · exact hkeep (by simp [Pc.finished, hpc]) htasks
    · rw [htasks]
      refine fun t ht => TaskPc.done_of_ok (hok t ht) fun hpc => ?_
      exact absurd ((hskipped t ht hpc).symm.trans hup) Bool.true_eq_false.mp
  | announce hpc _ _ _ _ htasks => exact hkeep (by rw [hpc]; rfl) htasks
  | broadcast hpc _ _ _ htasks => exact hkeep (by rw [hpc]; rfl) htasks
  | sent hpc _ _ htasks => exact hkeep (by rw [hpc]; rfl) htasks

/-- What holds of runs over the same files, each of them listed once. -/
structure Orderly (files : List String) (s : State β) : Prop where
  once : Lists s
  ordered : s.run.Ordered files
  waiting : Waiting s
  unfinished : Unfinished s
  files : ∀ t ∈ s.run.tasks, t.file ∈ dataFiles files
  finished : Finished s

theorem orderly_step (h : Orderly files s) (hfiles : files.Nodup) (hearly : s.run.pc.early = true → s.run.tasks = [])
    (hskipped : ∀ t ∈ s.run.tasks, t.pc = .skipped → s.shutdown = true) (hok : SameList files s a)
    (hs : step cfg s a = some s') : Orderly files s' where
  once := by
    refine lists_step h.once ?_ hs
    cases a with
    | begin => exact hok.symm ▸ hfiles
    | _ => trivial
  ordered := ordered_step h.ordered hok hs
  waiting := waiting_step h.waiting h.once hs
  unfinished := unfinished_step h.unfinished hearly (waiting_step h.waiting h.once hs) hs
  files t' ht' := by
    have hmem := List.mem_map_of_mem (f := Task.file) ht'
    obtain hsame | hnone | ⟨hpc, hdata, hspawned⟩ := (step_moves hs).files
    · rw [hsame] at hmem
      obtain ⟨t, ht, hfile⟩ := List.mem_map.1 hmem
      exact hfile ▸ h.files t ht
    · simp [hnone] at ht'
    · rw [hspawned, mem_pendingFiles, hdata] at hmem
      have hdownloaded : s.run.downloaded = files := h.ordered.at hpc
      exact hdownloaded ▸ hmem.1
  finished := finished_step h.finished hskipped hs

theorem orderly_of_reach (hfiles : files.Nodup) {disk : String → Option β} {metadata : Table String TrustedFile}
    (h : Machine.Reach (step cfg) (SameList files) (State.init disk metadata []) s) : Orderly files s := by
  refine h.invariant_of (K := fun s => Sound False s ∧ (s.run.pc.early = true → s.run.tasks = []))
    (fun s hr => ⟨sound_of_reach (fun hno => hno.elim) hr, early_tasks hr⟩) ?_
    fun s a s' ⟨hsound, hearly⟩ hI hok hs => orderly_step hI hfiles hearly hsound.skipped hok hs
  exact
    { once := ⟨List.nodup_nil, List.nodup_nil, fun _ => ⟨rfl, rfl⟩⟩
      ordered := .idle rfl
      waiting := ⟨fun _ ht => (nomatch ht), List.nodup_nil⟩
      unfinished := fun _ ht => nomatch ht
      files := fun _ ht => nomatch ht
      finished := fun _ _ ht => nomatch ht }

end DiscogsIngestion.Session
