import DiscogsIngestion.Session.Health

/-!
# Is the progress of a resumed run that of an uninterrupted one?

* `HasTotals` : the entries of finished files have the parser's counts;
* `Tallied`, `tallied_step` : what the tally is made of, in every run over the same files;
* `ReportsAsUninterrupted` : a run that completes the version reports what a single run would have;
* `Health.Faithful`, `progress_eq_iff` : exactly when it does;
* `skippedRecord_miscounted`, `failedBroadcast_miscounted` : a skipped record counts once the run has been resumed,
  and nothing counts once the broadcast alone is repeated.
-/

namespace DiscogsIngestion.Session

open StateMarker

variable {β α : Type} {cfg : Config β} {d : Dumps β α} {files : List String} {contents : String → β}

/-! ## The counts in the markers -/

/-- The entries of finished files are those of data files, with the parser's counts. -/
def HasTotals (d : Dumps β α) (files : List String) (contents : String → β) (m : StateMarker) : Prop :=
  ∀ file entry, m.progress file = some entry → entry.status = .completed →
    file ∈ dataFiles files ∧ entry.recordsExtracted = d.total (contents file)

theorem HasTotals.congr {m m' : StateMarker} (h : HasTotals d files contents m)
    (hprogress : ∀ file, m'.progress file = m.progress file) : HasTotals d files contents m' :=
  fun file entry hentry => h file entry (hprogress file ▸ hentry)

theorem hasTotals_new {version : String} {now : DateTime} : HasTotals d files contents (.new version now) :=
  fun _ _ hentry => nomatch hentry

theorem HasTotals.changesEntry {m m' : StateMarker} {changed : String} {new : Option FileProcessingStatus}
    (h : HasTotals d files contents m) (hchange : ChangesEntry m m' changed new)
    (hnew : ∀ entry, new = some entry → entry.status = .completed →
      changed ∈ dataFiles files ∧ entry.recordsExtracted = d.total (contents changed)) :
    HasTotals d files contents m' := by
  intro file entry hentry hdone
  rw [hchange.progress] at hentry
  split_ifs at hentry with hf
  · exact hf ▸ hnew entry hentry hdone
  · exact h file entry hentry hdone

theorem Advance.hasTotals {s s' : State β} {a : Action β} (h : Advance s a s')
    (hmemory : HasTotals d files contents s.marker)
    (hsaved : ∀ version tracked, s.markers version = some tracked → HasTotals d files contents tracked.marker)
    (hopen : Unfinished s)
    (htotal : ∀ t ∈ s.run.tasks, ∀ total, t.pc = .announced total →
      t.file ∈ dataFiles files ∧ total = d.total (contents t.file)) : HasTotals d files contents s'.marker := by
  cases h with
  | keep hsame => exact hmemory.congr hsame.progress
  | start _ _ hstarts =>
    cases hstarts with
    | found hm _ _ hmarker => exact hmarker ▸ hsaved _ _ hm
    | fresh _ _ _ hmarker => exact hmarker ▸ hasTotals_new
  | requeue _ _ hrequeue =>
    intro file entry hentry
    rw [hrequeue.progress] at hentry
    split_ifs at hentry
    exact hmemory file entry hentry
  | startProcessing _ _ hchange => exact hmemory.congr hchange.progress
  | startFile _ _ hchange =>
    refine hmemory.changesEntry hchange fun entry hentry hdone => ?_
    rw [← Option.some.inj hentry] at hdone
    exact PhaseStatus.noConfusion hdone
  | @count _ t _ _ ht hpc hchange =>
    refine hmemory.changesEntry hchange fun entry hentry hdone => ?_
    obtain ⟨old, hold, rfl⟩ := Option.map_eq_some_iff.1 hentry
    have hundone := hopen t (List.mem_of_getElem? ht) (by rcases hpc with hpc | hpc <;> rw [hpc] <;> rfl)
    exact absurd (hundone.symm.trans (isCompleted_iff.2 ⟨old, hold, hdone⟩)) Bool.false_ne_true
  | @completeFile _ t _ ht hpc hchange =>
    obtain ⟨hfile, rfl⟩ := htotal t (List.mem_of_getElem? ht) _ hpc
    refine hmemory.changesEntry hchange fun entry hentry _ => ?_
    obtain ⟨old, -, rfl⟩ := Option.map_eq_some_iff.1 hentry
    exact ⟨hfile, rfl⟩
  | completeProcessing _ hchange => exact hmemory.congr hchange.progress
  | completeExtraction _ hchange => exact hmemory.congr hchange.progress

/-! ## The tasks -/

/-- How a task has come to have counted its file. -/
theorem TaskStep.counts {s s' : State β} {i : Nat} {t t' : Task} {action : TaskAction}
    (h : TaskStep cfg s i t action s') (ht' : t' ∈ s'.run.tasks) : t' ∈ s.run.tasks ∨ t'.file = t.file ∧
      (∀ total, t'.pc = .piped total → action = .pipelineDone total) ∧
      (∀ total, t'.pc = .announced total → t.pc = .piped total) ∧
      (t'.pc = .done → ∃ total, t.pc = .announced total) := by
  cases h with
  | published => exact .inl ht'
  | notPublished => exact .inl ht'
  | checkpoint => exact .inl ht'
  | start saved =>
    refine (List.mem_or_eq_of_mem_set ht').imp_right ?_
    rintro rfl
    cases saved <;> simp
  | completeFile saved hpc =>
    refine (List.mem_or_eq_of_mem_set ht').imp_right ?_
    rintro rfl
    cases saved <;> simp [hpc]
  | _ =>
    refine (List.mem_or_eq_of_mem_set ht').imp_right ?_
    rintro rfl
    simp_all

/-- What the tally is made of. -/
structure Tallied (d : Dumps β α) (files : List String) (contents : String → β) (s : Health β) : Prop where
  memory : HasTotals d files contents s.state.marker
  saved : ∀ version tracked, s.state.markers version = some tracked → HasTotals d files contents tracked.marker
  piped : ∀ t ∈ s.state.run.tasks, ∀ total, t.pc = .piped total ∨ t.pc = .announced total →
    total = d.total (contents t.file) ∧ s.counted t.file = d.batched t.file (contents t.file)
  done : s.state.run.pc.late = true → ∀ t ∈ s.state.run.tasks, t.pc = .done →
    s.counted t.file = d.batched t.file (contents t.file)
  fresh : s.state.run.pc.early = true → s.progress = {} ∧ s.counted = fun _ => 0
  split : s.state.run.pc.late = true →
    (s.carried ++ s.state.run.tasks.map (·.file)).Perm s.state.run.tracked.dataFiles
  tally : s.state.run.pc.late = true → ∀ dt, s.progress.get dt =
    (if s.found = .inProgress then typeSum (fun file => d.total (contents file)) s.carried dt else 0) +
      typeSum s.counted (s.state.run.tasks.map (·.file)) dt

section Step

variable {s : Health β}

theorem Tallied.markers (h : Tallied d files contents s) (horderly : Orderly files s.state) {a : Action β}
    {s' : State β} (hs : step cfg s.state a = some s') : HasTotals d files contents s'.marker ∧
      ∀ version tracked, s'.markers version = some tracked → HasTotals d files contents tracked.marker := by
  have hmemory : HasTotals d files contents s'.marker :=
    (step_advance hs).hasTotals h.memory h.saved horderly.unfinished fun t ht total hpc =>
      ⟨horderly.files t ht, (h.piped t ht total (.inr hpc)).1⟩
  refine ⟨hmemory, fun version tracked hm => ?_⟩
  obtain hold | ⟨-, -, -, rfl⟩ := (step_logs hs).markers_cases hm
  · exact h.saved version tracked hold
  · exact hmemory

theorem Tallied.receive (h : Tallied d files contents s) (horderly : Orderly files s.state)
    (hearly : s.state.run.pc.early = true → s.state.run.tasks = []) {i : Nat} {t : Task} {dt : DataType}
    (ht : s.state.run.tasks[i]? = some t) (hpc : t.pc.piping = true) (hdt : extractDataType t.file = some dt) :
    Tallied d files contents (s.receive t.file dt) := by
  have hmem := List.mem_of_getElem? ht
  -- a task that has counted its file is another one, with another file
  have hother : ∀ t' ∈ s.state.run.tasks, t'.pc.piping = false →
      Function.update s.counted t.file (s.counted t.file + 1) t'.file = s.counted t'.file := by
    intro t' ht' hpc'
    refine Function.update_of_ne (fun (hfile : t'.file = t.file) => ?_) ..
    obtain rfl := List.inj_on_of_nodup_map horderly.waiting.once ht' hmem hfile
    exact Bool.false_ne_true (hpc'.symm.trans hpc)
  refine
    { memory := h.memory
      saved := h.saved
      piped := fun t' ht' total hpc' => ?_
      done := fun hlate t' ht' hpc' => ?_
      fresh := fun hpc' => ?_
      split := h.split
      tally := fun hlate other => ?_ }
  · obtain ⟨htotal, hcounted⟩ := h.piped t' ht' total hpc'
    exact ⟨htotal, (hother t' ht' (by rcases hpc' with hpc' | hpc' <;> rw [hpc'] <;> rfl)).trans hcounted⟩
  · exact (hother t' ht' (by rw [hpc']; rfl)).trans (h.done hlate t' ht' hpc')
  · exact absurd hmem (by simp [hearly hpc'])
  · have hadd : typeSum (Function.update s.counted t.file (s.counted t.file + 1)) (s.state.run.tasks.map (·.file))
        other = _ := typeSum_update (List.mem_map_of_mem hmem) horderly.waiting.once hdt
    simp only [Health.receive, ExtractionProgress.increment, ExtractionProgress.get_add, h.tally hlate other, hadd]
    exact Nat.add_assoc ..

theorem Tallied.reset (h : Tallied d files contents s) (horderly : Orderly files s.state) {a : Action β}
    {s' : State β} (hs : step cfg s.state a = some s') (hlate : s'.run.pc.late = false)
    (hended : ∀ t ∈ s'.run.tasks, t.pc.ended = true) : Tallied d files contents (.init s') where
  memory := (h.markers horderly hs).1
  saved := (h.markers horderly hs).2
  piped t ht total hpc := by
    have ht' := hended t ht
    rcases hpc with hpc | hpc <;> simp [hpc, TaskPc.ended] at ht'
  done hpc := absurd (hlate.symm.trans hpc) Bool.false_ne_true
  fresh _ := ⟨rfl, rfl⟩
  split hpc := absurd (hlate.symm.trans hpc) Bool.false_ne_true
  tally hpc := absurd (hlate.symm.trans hpc) Bool.false_ne_true

/-- The finished files of the marker are those that the run finds among its data files. -/
theorem finishedFiles_perm {s : State β} (h : HasTotals d files contents s.marker)
    (hdata : s.run.tracked.dataFiles = dataFiles files) (honce : files.Nodup) :
    (finishedFiles s.marker).Perm (s.run.tracked.dataFiles.filter s.marker.isCompleted) := by
  rw [hdata]
  refine (List.perm_ext_iff_of_nodup nodup_finishedFiles ((honce.filter _).filter _)).2 fun file => ?_
  rw [mem_finishedFiles, List.mem_filter]
  refine ⟨fun hdone => ⟨?_, hdone⟩, And.right⟩
  obtain ⟨entry, hentry, hstatus⟩ := isCompleted_iff.1 hdone
  exact (h file entry hentry hstatus).1

theorem get_default (dt : DataType) : ExtractionProgress.get {} dt = 0 := by
  cases dt <;> rfl

/-- A run comes to its file tasks with a tally of nothing, or of what it resumes. -/
theorem Tallied.enter (h : Tallied d files contents s) (horderly : Orderly files s.state) (honce : files.Nodup)
    (hearly : s.state.run.pc.early = true → s.state.run.tasks = []) {saved : Bool} {s' : State β}
    (horderly' : Orderly files s') (hs : step cfg s.state (.prepare saved) = some s')
    (hpc : s.state.run.pc = .downloaded) (hlate : s'.run.pc.late = true)
    (hfiles : s'.run.tasks.map (·.file) = s'.marker.pendingFiles s'.run.tracked.dataFiles) :
    Tallied d files contents (s.enter s') := by
  obtain ⟨hmemory, hsaved⟩ := h.markers horderly hs
  have hbefore : s.state.run.pc.early = true := by rw [hpc]; rfl
  obtain ⟨hprogress, hcounted⟩ := h.fresh hbefore
  have hqueued : ∀ t ∈ s'.run.tasks, t.pc = .queued := by
    intro t ht
    obtain hold | ⟨t', ht', -⟩ | ⟨-, -, hqueued, -⟩ := (step_moves hs).task_cases ht
    · simp [hearly hbefore] at hold
    · simp [hearly hbefore] at ht'
    · exact hqueued
  refine
    { memory := hmemory
      saved := hsaved
      piped := fun t ht total hpc' => by simp [hqueued t ht] at hpc'
      done := fun _ t ht hpc' => by simp [hqueued t ht] at hpc'
      fresh := fun hpc' => absurd (Pc.late_not_early hlate) (by simp [show s'.run.pc.early = true from hpc'])
      split := fun _ => ?_
      tally := fun _ dt => ?_ }
  · show ((s'.run.tracked.dataFiles.filter s'.marker.isCompleted) ++ s'.run.tasks.map (·.file)).Perm _
    rw [hfiles]
    exact List.filter_append_perm s'.marker.isCompleted s'.run.tracked.dataFiles
  · have hdata := horderly'.ordered.dataFiles hlate
    have hperm := finishedFiles_perm hmemory hdata honce
    simp only [Health.enter, hprogress, hcounted, typeSum_zero, Nat.add_zero]
    split_ifs
    · rw [get_rehydrate fun file entry hentry hdone => (hmemory file entry hentry hdone).2, get_default, Nat.zero_add]
      exact typeSum_perm hperm
    · exact get_default dt

theorem TaskStep.taskFiles {s s' : State β} {i : Nat} {t : Task} {action : TaskAction} (ht : s.run.tasks[i]? = some t)
    (h : TaskStep cfg s i t action s') : s'.run.tasks.map (·.file) = s.run.tasks.map (·.file) := by
  cases h.tasks ht with
  | same heq => rw [heq]
  | moved ht' heq _ hfile => rw [heq, map_file_set ht' hfile]

/-- A task ends its pipeline with the counts of its file, and keeps them. -/
theorem Tallied.task (h : Tallied d files contents s) (horderly : Orderly files s.state)
    (hearly : s.state.run.pc.early = true → s.state.run.tasks = []) {i : Nat} {t : Task} {action : TaskAction}
    {s' : State β} (hs : step cfg s.state (.task i action) = some s') (ht : s.state.run.tasks[i]? = some t)
    (htask : TaskStep cfg s.state i t action s')
    (hdone : ∀ total, action = .pipelineDone total →
      total = d.total (contents t.file) ∧ s.counted t.file = d.batched t.file (contents t.file)) :
    Tallied d files contents { s with state := s' } := by
  have hmem := List.mem_of_getElem? ht
  refine
    { memory := (h.markers horderly hs).1
      saved := (h.markers horderly hs).2
      piped := fun t' ht' total hpc => ?_
      done := fun hlate t' ht' hpc => ?_
      fresh := fun hpc => ?_
      split := fun hlate => ?_
      tally := fun hlate dt => ?_ }
  · obtain hold | ⟨hfile, hpiped, hannounced, -⟩ := htask.counts ht'
    · exact h.piped t' hold total hpc
    · show total = d.total (contents t'.file) ∧ s.counted t'.file = d.batched t'.file (contents t'.file)
      rw [hfile]
      obtain hpc | hpc := hpc
      · exact hdone total (hpiped total hpc)
      · exact h.piped t hmem total (.inl (hannounced total hpc))
  · have hlate : s.state.run.pc.late = true := htask.pc ▸ hlate
    obtain hold | ⟨hfile, -, -, hannounced⟩ := htask.counts ht'
    · exact h.done hlate t' hold hpc
    · show s.counted t'.file = d.batched t'.file (contents t'.file)
      obtain ⟨total, hpc⟩ := hannounced hpc
      rw [hfile]
      exact (h.piped t hmem total (.inr hpc)).2
  · have hpc : s.state.run.pc.early = true := htask.pc ▸ hpc
    exact absurd hmem (by simp [hearly hpc])
  · have hlate : s.state.run.pc.late = true := htask.pc ▸ hlate
    show (s.carried ++ s'.run.tasks.map (·.file)).Perm s'.run.tracked.dataFiles
    rw [htask.taskFiles ht, htask.regs.dataFiles]
    exact h.split hlate
  · have hlate : s.state.run.pc.late = true := htask.pc ▸ hlate
    show s.progress.get dt = _ + typeSum s.counted (s'.run.tasks.map (·.file)) dt
    rw [htask.taskFiles ht]
    exact h.tally hlate dt

theorem Tallied.quiet (h : Tallied d files contents s) (horderly : Orderly files s.state) {a : Action β}
    {s' : State β} (hs : step cfg s.state a = some s') (hquiet : Quiet s.state s') :
    Tallied d files contents { s with state := s' } where
  memory := (h.markers horderly hs).1
  saved := (h.markers horderly hs).2
  piped t ht := h.piped t (hquiet.tasks ▸ ht)
  done hlate t ht := h.done (hquiet.late hlate).1 t (hquiet.tasks ▸ ht)
  fresh hpc := h.fresh (hquiet.early hpc)
  split hlate := by
    obtain ⟨hlate, hregs⟩ := hquiet.late hlate
    show (s.carried ++ s'.run.tasks.map (·.file)).Perm s'.run.tracked.dataFiles
    rw [hquiet.tasks, hregs.dataFiles]
    exact h.split hlate
  tally hlate dt := by
    show s.progress.get dt = _ + typeSum s.counted (s'.run.tasks.map (·.file)) dt
    rw [hquiet.tasks]
    exact h.tally (hquiet.late hlate).1 dt

theorem tallied_step {s' : Health β} {a : HealthAction β} (h : Tallied d files contents s)
    (horderly : Orderly files s.state) (honce : files.Nodup)
    (hearly : s.state.run.pc.early = true → s.state.run.tasks = []) (horderly' : Orderly files s'.state)
    (hok : SameFiles files contents s a) (hs : healthStep cfg d s a = some s') : Tallied d files contents s' := by
  cases HealthStep.of_healthStep hs with
  | count ht hpc hdt => exact h.receive horderly hearly ht hpc hdt
  | reset hrun hlate hended => exact h.reset horderly hrun hlate hended
  | enter hrun hpc hlate hfiles => exact h.enter horderly honce hearly horderly' hrun hpc hlate hfiles
  | @task _ t _ _ hrun ht htask hdone =>
    refine h.task horderly hearly hrun ht htask ?_
    rintro total rfl
    obtain ⟨content, hdisk, htotal, hcounted⟩ := hdone total rfl
    obtain rfl := Option.some.inj (hdisk.symm.trans (hok t ht))
    exact ⟨htotal, hcounted⟩
  | quiet hrun hquiet => exact h.quiet horderly hrun hquiet

end Step

/-! ## Whole runs -/

section Reach

variable {disk : String → Option β} {metadata : Table String TrustedFile} {s s' : Health β}

theorem orderly_of_health (honce : files.Nodup)
    (h : Machine.Reach (healthStep cfg d) (SameFiles files contents) (.init (State.init disk metadata [])) s) :
    Orderly files s.state := orderly_of_reach honce (reach_of_health h)

theorem tallied_of_reach (honce : files.Nodup)
    (h : Machine.Reach (healthStep cfg d) (SameFiles files contents) (.init (State.init disk metadata [])) s) :
    Tallied d files contents s := by
  induction h with
  | init =>
    exact
      { memory := hasTotals_new
        saved := fun _ _ hm => nomatch hm
        piped := fun _ ht => nomatch ht
        done := fun _ _ ht => nomatch ht
        fresh := fun _ => ⟨rfl, rfl⟩
        split := fun hlate => absurd hlate Bool.false_ne_true
        tally := fun hlate => absurd hlate Bool.false_ne_true }
  | step hr hok hs ih =>
    exact tallied_step ih (orderly_of_health honce hr) honce (early_tasks (reach_of_health hr))
      (orderly_of_health honce (hr.step hok hs)) hok hs

/-- What is reported when the version is completed: what has been carried over stands in the place of what its
batchers had counted. -/
theorem Tallied.finalizing (h : Tallied d files contents s) (horderly : Orderly files s.state)
    (hpc : s.state.run.pc = .finalizing) (dt : DataType) :
    s.progress.get dt + typeSum (fun file => d.batched file (contents file)) s.carried dt =
      (if s.found = .inProgress then typeSum (fun file => d.total (contents file)) s.carried dt else 0) +
        typeSum (fun file => d.batched file (contents file)) (dataFiles files) dt := by
  have hlate : s.state.run.pc.late = true := by rw [hpc]; rfl
  have hdone : ∀ file ∈ s.state.run.tasks.map (·.file), s.counted file = d.batched file (contents file) := by
    intro file hfile
    obtain ⟨t, ht, rfl⟩ := List.mem_map.1 hfile
    exact h.done hlate t ht (horderly.finished (by rw [hpc]; rfl) t ht)
  have hsplit := h.split hlate
  rw [horderly.ordered.dataFiles hlate] at hsplit
  rw [h.tally hlate dt, typeSum_congr hdone, ← typeSum_perm hsplit, typeSum_append]
  omega

theorem finalize_progress (h : healthStep cfg d s (.run (.finalize true)) = some s') :
    s.state.run.pc = .finalizing ∧ s'.progress = s.progress := by
  simp only [healthStep, Health.allows, if_true, Option.map_eq_some_iff] at h
  obtain ⟨state, hs, rfl⟩ := h
  cases Step.of_step hs with
  | finalize _ hpc => exact ⟨hpc, rfl⟩

/-! ## A single run -/

/-- The same files, in the first run that there is. -/
def Uninterrupted (files : List String) (contents : String → β) (s : Health β) (a : HealthAction β) : Prop :=
  SameFiles files contents s a ∧
    match a with
    | .run (.begin ..) => s.state.log.isEmpty = true
    | _ => True

def HealthAction.begins : HealthAction β → Bool
  | .run (.begin ..) => true
  | _ => false

theorem uninterrupted_iff {s : Health β} {a : HealthAction β} : Uninterrupted files contents s a ↔
    SameFiles files contents s a ∧ (a.begins = true → s.state.log.isEmpty = true) := by
  unfold Uninterrupted HealthAction.begins
  split <;> simp

instance [DecidableEq β] (s : Health β) (a : HealthAction β) : Decidable (Uninterrupted files contents s a) :=
  decidable_of_iff _ uninterrupted_iff.symm

/-- Nothing was finished when the run began. -/
structure Unresumed (s : Health β) : Prop where
  early : s.state.run.pc.early = true → ∀ file, s.state.marker.isCompleted file = false
  carried : s.carried = []

theorem markers_of_empty_log {s : State β} (h : ∀ version, LastSaved s.log version (s.markers version))
    (hlog : s.log = []) (version : String) : s.markers version = none := by
  have hlast := h version
  cases hm : s.markers version with
  | none => rfl
  | some tracked =>
    rw [hm, hlog] at hlast
    obtain ⟨pre, post, hsplit, -⟩ := hlast
    simp at hsplit

theorem not_completed_of_early {s s' : State β} {a : Action β} (hs : step cfg s a = some s')
    (hearly : s.run.pc.early = true → s.run.tasks = []) (hpc : s.run.pc.early = true) {file : String}
    (hfile : s.marker.isCompleted file = false) : s'.marker.isCompleted file = false := by
  have hno : ∀ {i : Nat} {t : Task} {P : Prop}, s.run.tasks[i]? = some t → P := by
    intro i t P ht
    simp [hearly hpc] at ht
  cases step_advance hs with
  | keep hsame => exact hsame.isCompleted.trans hfile
  | start hidle => simp [hidle, Pc.early] at hpc
  | requeue _ _ hrequeue =>
    rw [hrequeue.isCompleted]
    split_ifs
    · rfl
    · exact hfile
  | startProcessing _ _ hchange => exact hchange.isCompleted.trans hfile
  | startFile ht => exact hno ht
  | count _ _ ht => exact hno ht
  | completeFile ht => exact hno ht
  | completeProcessing _ hchange => exact hchange.isCompleted.trans hfile
  | completeExtraction _ hchange => exact hchange.isCompleted.trans hfile

theorem unresumed_step {a : HealthAction β} (h : Unresumed s)
    (hearly : s.state.run.pc.early = true → s.state.run.tasks = [])
    (hsaved : ∀ version, LastSaved s.state.log version (s.state.markers version))
    (hok : Uninterrupted files contents s a) (hs : healthStep cfg d s a = some s') : Unresumed s' := by
  cases HealthStep.of_healthStep hs with
  | count => exact ⟨h.early, h.carried⟩
  | reset hrun _ _ hbegin =>
    refine ⟨fun hpc file => ?_, rfl⟩
    obtain ⟨source, force, latest, readable, rfl⟩ := hbegin hpc
    have hnone := markers_of_empty_log hsaved (List.isEmpty_iff.1 hok.2)
    cases Step.of_step hrun with
    | beginSkip _ _ _ _ hidle => simp [Health.init, State.record, hidle, Pc.early] at hpc
    | beginReprocess => rfl
    | @beginContinue _ _ _ _ version =>
      obtain ⟨hnew, -⟩ | ⟨-, -, hfound⟩ := loadMarker_cases s.state force readable version
      · show (loadMarker s.state force readable version).marker.isCompleted file = false
        rw [hnew]
        rfl
      · simp [hnone] at hfound
  | @enter _ state hrun hpc hlate =>
    have hbefore : s.state.run.pc.early = true := by rw [hpc]; rfl
    have hnew : ∀ file, state.marker.isCompleted file = false := fun file =>
      not_completed_of_early hrun hearly hbefore (h.early hbefore file)
    refine ⟨fun _ => hnew, ?_⟩
    show state.run.tracked.dataFiles.filter state.marker.isCompleted = []
    exact List.filter_eq_nil_iff.2 fun file _ => by simp [hnew file]
  | task hrun _ htask =>
    exact ⟨fun hpc file => not_completed_of_early hrun hearly (htask.pc ▸ hpc) (h.early (htask.pc ▸ hpc) file),
      h.carried⟩
  | quiet hrun hquiet =>
    exact ⟨fun hpc file => not_completed_of_early hrun hearly (hquiet.early hpc) (h.early (hquiet.early hpc) file),
      h.carried⟩

theorem unresumed_of_reach
    (h : Machine.Reach (healthStep cfg d) (Uninterrupted files contents) (.init (State.init disk metadata [])) s) :
    Unresumed s := by
  refine h.invariant_of (K := fun s => (s.state.run.pc.early = true → s.state.run.tasks = []) ∧
    ∀ version, LastSaved s.state.log version (s.state.markers version)) (fun s hr => ?_) ⟨fun hpc => ?_, rfl⟩
    fun s a s' ⟨hearly, hsaved⟩ hI hok hs => unresumed_step hI hearly hsaved hok hs
  · have hreach := reach_of_health (hr.mono fun _ _ hok => hok.1)
    have hsaved : ∀ version, LastSaved s.state.log version (s.state.markers version) :=
      hreach.invariant (I := fun s => ∀ version, LastSaved s.log version (s.markers version))
        (@lastSaved_init β disk metadata [] List.nodup_nil) fun _ _ _ hI _ hs => lastSaved_step hI hs
    exact ⟨early_tasks hreach, hsaved⟩
  · exact absurd hpc Bool.false_ne_true

end Reach

/-! ## When the progress is the same -/

/-- Whenever a run completes the version, `/health` reports, for each data type, what it does at the end of a single
uninterrupted run over the same files. -/
def ReportsAsUninterrupted (cfg : Config β) (d : Dumps β α) (files : List String) (contents : String → β) : Prop :=
  ∀ disk metadata disk₀ metadata₀ s s' s₀ s₀',
    Machine.Reach (healthStep cfg d) (SameFiles files contents) (.init (State.init disk metadata [])) s →
    healthStep cfg d s (.run (.finalize true)) = some s' →
    Machine.Reach (healthStep cfg d) (Uninterrupted files contents) (.init (State.init disk₀ metadata₀ [])) s₀ →
    healthStep cfg d s₀ (.run (.finalize true)) = some s₀' → ∀ dt, s'.progress.get dt = s₀'.progress.get dt

/-- No record of a file that was finished before is skipped, if its run resumes a processing phase, and otherwise,
when the phase was complete, every one is. -/
def Health.Faithful (d : Dumps β α) (contents : String → β) (s : Health β) : Prop :=
  ∀ file ∈ s.carried, ∀ dt, extractDataType file = some dt → ∀ record ∈ d.records (contents file),
    (d.pipeline dt).skips record = decide (s.found ≠ .inProgress)

theorem batched_eq {file : String} {content : β} {dt : DataType} (h : extractDataType file = some dt) :
    d.batched file content = ((d.records content).filter fun record => !(d.pipeline dt).skips record).length := by
  simp only [Dumps.batched, h, Pipeline.length_expected]

theorem batched_le {file : String} {content : β} {dt : DataType} (h : extractDataType file = some dt) :
    d.batched file content ≤ d.total content := by
  rw [batched_eq h]
  exact List.length_filter_le _ _

theorem batched_eq_total {file : String} {content : β} {dt : DataType} (h : extractDataType file = some dt) :
    d.batched file content = d.total content ↔
      ∀ record ∈ d.records content, (d.pipeline dt).skips record = false := by
  rw [batched_eq h]
  simp [Dumps.total, List.length_filter_eq_length_iff]

theorem batched_eq_zero {file : String} {content : β} {dt : DataType} (h : extractDataType file = some dt) :
    0 = d.batched file content ↔ ∀ record ∈ d.records content, (d.pipeline dt).skips record = true := by
  rw [batched_eq h, eq_comm, List.length_eq_zero_iff, List.filter_eq_nil_iff]
  simp

/-- What is carried over counts as much as the batchers had counted, exactly when the run is faithful. -/
theorem faithful_iff {s : Health β} : (∀ dt, typeSum (fun file => d.batched file (contents file)) s.carried dt =
    if s.found = .inProgress then typeSum (fun file => d.total (contents file)) s.carried dt else 0) ↔
      s.Faithful d contents := by
  unfold Health.Faithful
  by_cases hfound : s.found = .inProgress
  · simp only [hfound, if_true, ne_eq, not_true_eq_false, decide_false]
    have hsums : ∀ dt, typeSum (fun file => d.batched file (contents file)) s.carried dt =
        typeSum (fun file => d.total (contents file)) s.carried dt ↔ _ :=
      fun dt => typeSum_eq_iff fun file _ htype => batched_le htype
    simp only [hsums]
    exact ⟨fun h file hfile dt htype => (batched_eq_total htype).1 (h dt file hfile htype),
      fun h dt file hfile htype => (batched_eq_total htype).2 (h file hfile dt htype)⟩
  · simp only [hfound, if_false, ne_eq, not_false_eq_true, decide_true]
    have hsums : ∀ dt, typeSum (fun _ => 0) s.carried dt =
        typeSum (fun file => d.batched file (contents file)) s.carried dt ↔ _ :=
      fun dt => typeSum_eq_iff fun file _ _ => Nat.zero_le _
    simp only [typeSum_zero] at hsums
    constructor
    · exact fun h file hfile dt htype => (batched_eq_zero htype).1 ((hsums dt).1 (h dt).symm file hfile htype)
    · exact fun h dt => ((hsums dt).2 fun file hfile htype => (batched_eq_zero htype).2 (h file hfile dt htype)).symm

/-- Over the same files, with crashes and failures anywhere and whatever number of resumes, a run that completes the
version reports what a single uninterrupted run reports exactly when it is faithful. -/
theorem progress_eq_iff (honce : files.Nodup) {disk disk₀ : String → Option β}
    {metadata metadata₀ : Table String TrustedFile} {s s' s₀ s₀' : Health β}
    (h : Machine.Reach (healthStep cfg d) (SameFiles files contents) (.init (State.init disk metadata [])) s)
    (hend : healthStep cfg d s (.run (.finalize true)) = some s')
    (h₀ : Machine.Reach (healthStep cfg d) (Uninterrupted files contents) (.init (State.init disk₀ metadata₀ [])) s₀)
    (hend₀ : healthStep cfg d s₀ (.run (.finalize true)) = some s₀') :
    (∀ dt, s'.progress.get dt = s₀'.progress.get dt) ↔ s.Faithful d contents := by
  have hsame := h₀.mono fun _ _ hok => hok.1
  obtain ⟨hpc, hprogress⟩ := finalize_progress hend
  obtain ⟨hpc₀, hprogress₀⟩ := finalize_progress hend₀
  have hsum := (tallied_of_reach honce h).finalizing (orderly_of_health honce h) hpc
  have hsum₀ := (tallied_of_reach honce hsame).finalizing (orderly_of_health honce hsame) hpc₀
  rw [(unresumed_of_reach h₀).carried] at hsum₀
  rw [← faithful_iff, hprogress, hprogress₀]
  refine forall_congr' fun dt => ?_
  have hall : s₀.progress.get dt = typeSum (fun file => d.batched file (contents file)) (dataFiles files) dt := by
    have hdt := hsum₀ dt
    simpa [typeSum] using hdt
  have hdt := hsum dt
  rw [← hall] at hdt
  omega

/-! ## Runs -/

def characters (rules : Option (Pipeline.Rules Char)) : Dumps String Char where
  records := String.toList
  pipeline _ :=
    { rules
      normalize := id
      queueSize := 1
      batchSize := 1
      stateSaveInterval := 1
      queueSize_pos := Nat.one_pos
      batchSize_pos := Nat.one_pos
      stateSaveInterval_pos := Nat.one_pos }

def hashRule : Option (Pipeline.Rules Char) := some ⟨(· == '#'), id⟩

def artists : String := "discogs_20260101_artists.xml.gz"

/-- A task whose batcher receives this many of the records of its file. -/
def countFile (i batched total : Nat) : List (HealthAction String) :=
  [.run (.task i (.connect true)), .run (.task i (.start true)), .run (.task i (.setupExchange true))] ++
    List.replicate batched (.count i) ++
    [.run (.task i (.pipelineDone total)), .run (.task i (.sendFileComplete .confirmed)),
      .run (.task i (.completeFile true))]

def announce (content : String) (total : Nat) : List (HealthAction String) :=
  .run (.connect (some [(artists, processedEntry content total)])) :: broadcastAll.dropLast.map .run

def stageArtists (content : String) : List (HealthAction String) := (localDownload artists content).map .run

def singleRun (content : String) (batched total : Nat) : List (HealthAction String) :=
  stageArtists content ++ countFile 0 batched total ++ [.run (.join true)] ++ announce content total

/-- The process is killed when its file is finished, and the next one resumes. -/
def killedAndResumed (content : String) (batched total : Nat) : List (HealthAction String) :=
  stageArtists content ++ countFile 0 batched total ++ [.run .crash] ++ stageArtists content ++
    [.run (.completeAll true)] ++ announce content total

/-- The broker cannot be reached for the broadcast, and the next run repeats it. -/
def announcedLater (content : String) (batched total : Nat) : List (HealthAction String) :=
  stageArtists content ++ countFile 0 batched total ++ [.run (.join true), .run (.connect none)] ++
    stageArtists content ++ [.run (.completeAll true)] ++ announce content total

/-- The run completes the version in its next step, and reports this many artists. -/
def reports (d : Dumps String Char) (n : Nat) (s : Health String) : Bool :=
  (healthStep .plain d s (.run (.finalize true))).any fun s => s.progress.artists = n

theorem reports_step {d : Dumps String Char} {n : Nat} {s : Health String} (h : reports d n s = true) :
    ∃ s', healthStep .plain d s (.run (.finalize true)) = some s' ∧ s'.progress.get .artists = n := by
  obtain ⟨s', hs', hn⟩ := (Option.any_eq_true ..).1 h
  exact ⟨s', hs', of_decide_eq_true hn⟩

/-- Runs that report different numbers of artists. -/
theorem not_reportsAsUninterrupted {d : Dumps String Char} {content : String} {n m : Nat} (hne : n ≠ m)
    (hrun : ∃ s : Health String, Machine.Reach (healthStep .plain d) (SameFiles [artists] fun _ => content)
      (.init .empty) s ∧ reports d n s = true)
    (hsingle : ∃ s : Health String, Machine.Reach (healthStep .plain d) (Uninterrupted [artists] fun _ => content)
      (.init .empty) s ∧ reports d m s = true) : ¬ReportsAsUninterrupted .plain d [artists] fun _ => content := by
  intro hclaim
  obtain ⟨s, h, hs⟩ := hrun
  obtain ⟨s₀, h₀, hs₀⟩ := hsingle
  obtain ⟨s', hend, hn⟩ := reports_step hs
  obtain ⟨s₀', hend₀, hm⟩ := reports_step hs₀
  have heq := hclaim _ _ _ _ _ _ _ _ h hend h₀ hend₀ .artists
  omega

/-- With a rule, three artists are reported by a resumed run and two by a single one. -/
theorem skippedRecord_miscounted :
    ¬ReportsAsUninterrupted .plain (characters hashRule) [artists] fun _ => "ab#" := by
  refine not_reportsAsUninterrupted (n := 3) (m := 2) (by decide) ?_ ?_
  · exact Machine.exists_reach (killedAndResumed "ab#" 2 3) (by decide +kernel)
  · exact Machine.exists_reach (singleRun "ab#" 2 3) (by decide +kernel)

/-- Without rules, none are reported by a run that repeats the broadcast and two by a single one. -/
theorem failedBroadcast_miscounted :
    ¬ReportsAsUninterrupted .plain (characters none) [artists] fun _ => "ab" := by
  refine not_reportsAsUninterrupted (n := 0) (m := 2) (by decide) ?_ ?_
  · exact Machine.exists_reach (announcedLater "ab" 2 2) (by decide +kernel)
  · exact Machine.exists_reach (singleRun "ab" 2 2) (by decide +kernel)

/-- When the rule has nothing to skip, a resumed run reports what a single one does. -/
theorem resumedRun_reports : ∃ s s' s₀ s₀' : Health String, s.carried = [artists] ∧
    healthStep .plain (characters hashRule) s (.run (.finalize true)) = some s' ∧
    healthStep .plain (characters hashRule) s₀ (.run (.finalize true)) = some s₀' ∧
    ∀ dt, s'.progress.get dt = s₀'.progress.get dt := by
  have hrun : ∃ s : Health String, Machine.Reach (healthStep .plain (characters hashRule))
      (SameFiles [artists] fun _ => "ab") (.init .empty) s ∧
      (reports (characters hashRule) 2 s && s.carried = [artists] && s.found = .inProgress) = true :=
    Machine.exists_reach (killedAndResumed "ab" 2 2) (by decide +kernel)
  have hsingle : ∃ s : Health String, Machine.Reach (healthStep .plain (characters hashRule))
      (Uninterrupted [artists] fun _ => "ab") (.init .empty) s ∧ reports (characters hashRule) 2 s = true :=
    Machine.exists_reach (singleRun "ab" 2 2) (by decide +kernel)
  obtain ⟨s, h, hfacts⟩ := hrun
  obtain ⟨s₀, h₀, hs₀⟩ := hsingle
  simp only [Bool.and_eq_true, decide_eq_true_eq] at hfacts
  obtain ⟨⟨hs, hcarried⟩, hfound⟩ := hfacts
  obtain ⟨s', hend, -⟩ := reports_step hs
  obtain ⟨s₀', hend₀, -⟩ := reports_step hs₀
  have hfaithful : s.Faithful (characters hashRule) fun _ => "ab" := by
    intro file _ dt _ record hrecord
    have hmem : record ∈ "ab".toList := by simpa only [characters] using hrecord
    have hskips : ∀ c ∈ "ab".toList, (c == '#') = false := by simp
    simpa [hfound, Pipeline.Config.skips, characters, hashRule] using hskips record hmem
  exact ⟨s, s', s₀, s₀', hcarried, hend, hend₀,
    (progress_eq_iff (List.nodup_singleton artists) h hend h₀ hend₀).2 hfaithful⟩

end DiscogsIngestion.Session
