import DiscogsIngestion.Session.Trace

/-!
# What a completed marker stands for

* `Backed` : what the log has to say of a marker: that of every finished file a `file_complete` was sent, and,
  when the version is completed, that all its data files are finished and that `extraction_complete` was sent;
* `Counted` : the record counts that were sent are those of the data files;
* `Sound`, `sound_step` : the invariant of the runs that start without markers;
* `vouched` : every marker that has been saved was backed by the log at that point.
-/

namespace DiscogsIngestion.Session

open StateMarker

variable {β : Type} {cfg : Config β} {s s' : State β} {a : Action β}

/-- A message carries, for each data file, the number of records that its entry has. -/
def Counted (tracked : Tracked) (recordCounts : Table String Nat) : Prop :=
  ∀ file ∈ tracked.dataFiles, ∀ dt, extractDataType file = some dt →
    recordCounts.lookup dt.asStr = (tracked.marker.progress file).map (·.recordsExtracted)

/-- What has been sent about a marker. The counts are looked at when they are `strict`. -/
structure Backed (strict : Prop) (log : List (Event β)) (version : String) (tracked : Tracked) : Prop where
  announced : ∀ file, tracked.marker.isCompleted file = true →
    ∃ total, .fileComplete file (tracked.attempts file) total ∈ log
  complete : tracked.marker.summary.overallStatus = .completed →
    tracked.marker.downloadPhase.status = .completed ∧ tracked.marker.processingPhase.status = .completed ∧
    (∀ file ∈ tracked.dataFiles, tracked.marker.isCompleted file = true) ∧
    ∃ startedAt recordCounts, (strict → Counted tracked recordCounts) ∧
      ∀ dt ∈ DataType.discogs, .extractionComplete version dt startedAt recordCounts ∈ log

/-- The processing phase is complete and saved. -/
def Pc.processed : Pc → Bool
  | completed | announcing .. | finalizing => true
  | _ => false

def Pc.finished (pc : Pc) : Bool := pc = .allDone || pc.processed

def Pc.acquired (pc : Pc) : Bool := pc = .closing || pc = .downloaded || pc.late

/-- What holds of the runs that start without markers. -/
structure Sound (strict : Prop) (s : State β) : Prop where
  announced : ∀ file, s.marker.isCompleted file = true →
    ∃ total, .fileComplete file (s.run.tracked.attempts file) total ∈ s.log
  saved : ∀ version tracked, s.markers version = some tracked → Backed strict s.log version tracked
  entries : ∀ t ∈ s.run.tasks, t.pc.working = true → (s.marker.progress t.file).isSome = true
  sentFile : ∀ t ∈ s.run.tasks, ∀ total, t.pc = .announced total → .fileComplete t.file t.attempt total ∈ s.log
  skipped : ∀ t ∈ s.run.tasks, t.pc = .skipped → s.shutdown = true
  processing : s.run.pc = .processing → ∀ file ∈ s.run.tracked.dataFiles,
    s.marker.isCompleted file = true ∨ ∃ t ∈ s.run.tasks, t.file = file ∧ t.pc ≠ .done
  finished : s.run.pc.finished = true → (∀ file ∈ s.run.tracked.dataFiles, s.marker.isCompleted file = true) ∧
    ∀ t ∈ s.run.tasks, t.pc.ended = true
  unfinished : s.Live → s.marker.summary.overallStatus ≠ .completed
  acquired : s.run.pc.acquired = true → s.marker.downloadPhase.status = .completed
  processed : s.run.pc.processed = true → s.marker.processingPhase.status = .completed
  counted : ∀ rest sent recordCounts, s.run.pc = .announcing rest sent recordCounts →
    strict → Counted s.run.tracked recordCounts
  broadcast : ∀ rest recordCounts, s.run.pc = .announcing rest true recordCounts → ∀ dt ∈ DataType.discogs,
    dt ∈ rest ∨ .extractionComplete s.run.version dt s.run.processingStartedAt recordCounts ∈ s.log
  sent : s.run.pc = .finalizing → ∃ recordCounts, (strict → Counted s.run.tracked recordCounts) ∧
    ∀ dt ∈ DataType.discogs, .extractionComplete s.run.version dt s.run.processingStartedAt recordCounts ∈ s.log

theorem Backed.grow {strict : Prop} {log log' : List (Event β)} {version : String} {tracked : Tracked}
    (h : Backed strict log version tracked) (hlog : ∀ e ∈ log, e ∈ log') : Backed strict log' version tracked where
  announced file hfile := (h.announced file hfile).imp fun _ he => hlog _ he
  complete hoverall := by
    obtain ⟨hdownload, hprocessing, hfiles, startedAt, counts, hcounted, hsent⟩ := h.complete hoverall
    exact ⟨hdownload, hprocessing, hfiles, startedAt, counts, hcounted, fun dt hdt => hlog _ (hsent dt hdt)⟩

/-- A marker that stands for a completed version is not gone on with. -/
theorem Backed.not_completed {strict : Prop} {log : List (Event β)} {version : String} {tracked : Tracked}
    (h : Backed strict log version tracked) (hgo : tracked.marker.shouldProcess ≠ .skip) :
    tracked.marker.summary.overallStatus ≠ .completed := by
  intro hoverall
  obtain ⟨hdownload, hprocessing, -⟩ := h.complete hoverall
  exact hgo (by simp [shouldProcess, hdownload, hprocessing, hoverall])

/-! ## The marker in memory -/

theorem Advance.progress_eq (h : Advance s a s') (hlate : s.run.pc.late = true)
    (htasks : ∀ t ∈ s.run.tasks, t.pc.ended = true) (file : String) :
    s'.marker.progress file = s.marker.progress file := by
  have hno : ∀ {i : Nat} {t : Task}, s.run.tasks[i]? = some t → t.pc.ended ≠ false :=
    fun ht hended => Bool.false_ne_true (hended.symm.trans (htasks _ (List.mem_of_getElem? ht)))
  cases h with
  | keep hsame => exact hsame.progress file
  | start hpc => exact absurd hpc (Pc.late_ne_idle hlate)
  | requeue hpc => exact absurd hpc (by simp [Pc.late_not_early hlate])
  | startProcessing hpc => exact absurd hpc (Pc.late_ne_downloaded hlate)
  | startFile ht hpc => exact absurd (by rw [hpc]; rfl) (hno ht)
  | count _ _ ht hpc => exact absurd (by rcases hpc with hpc | hpc <;> rw [hpc] <;> rfl) (hno ht)
  | completeFile ht hpc => exact absurd (by rw [hpc]; rfl) (hno ht)
  | completeProcessing _ hchange => exact hchange.progress file
  | completeExtraction _ hchange => exact hchange.progress file

theorem Advance.isCompleted_eq (h : Advance s a s') (hlate : s.run.pc.late = true)
    (htasks : ∀ t ∈ s.run.tasks, t.pc.ended = true) (file : String) :
    s'.marker.isCompleted file = s.marker.isCompleted file := isCompleted_congr (h.progress_eq hlate htasks file)

theorem Advance.progress_isSome (h : Advance s a s') (htasks' : s'.run.tasks ≠ []) (hearly : s.run.pc.early = false)
    {file : String} (hfile : (s.marker.progress file).isSome = true) :
    (s'.marker.progress file).isSome = true := by
  cases h with
  | keep hsame => rwa [hsame.progress]
  | start _ hnone => exact absurd hnone htasks'
  | requeue hpc => exact absurd hpc (by simp [hearly])
  | startProcessing _ _ hchange => rwa [hchange.progress]
  | startFile _ _ hchange =>
    rw [hchange.progress]
    split_ifs
    · rfl
    · exact hfile
  | count _ _ _ _ hchange =>
    rw [hchange.progress]
    split_ifs with hf
    · rwa [Option.isSome_map, ← hf]
    · exact hfile
  | completeFile _ _ hchange =>
    rw [hchange.progress]
    split_ifs with hf
    · rwa [Option.isSome_map, ← hf]
    · exact hfile
  | completeProcessing _ hchange => rwa [hchange.progress]
  | completeExtraction _ hchange => rwa [hchange.progress]

theorem Sound.announced_step {strict : Prop} (h : Sound strict s) (hs : step cfg s a = some s') {file : String}
    (hfile : s'.marker.isCompleted file = true) :
    ∃ total, .fileComplete file (s'.run.tracked.attempts file) total ∈ s'.log := by
  have hlogs := step_logs hs
  have hold : s.marker.isCompleted file = true →
      ∃ total, .fileComplete file (s.run.tracked.attempts file) total ∈ s'.log :=
    fun hfile => (h.announced file hfile).imp fun _ he => hlogs.mem he
  cases step_advance hs with
  | keep hsame hattempts => exact hattempts ▸ hold (hsame.isCompleted ▸ hfile)
  | start _ _ hstarts =>
    cases hstarts with
    | found hm _ _ hmarker hattempts =>
      rw [hmarker] at hfile
      exact hattempts ▸ ((h.saved _ _ hm).announced file hfile).imp fun _ he => hlogs.mem he
    | fresh _ _ _ hmarker =>
      rw [hmarker] at hfile
      exact absurd hfile Bool.false_ne_true
  | requeue _ _ hrequeue _ hattempts =>
    rw [hrequeue.isCompleted] at hfile
    split_ifs at hfile
    exact hattempts ▸ hold hfile
  | startProcessing _ _ hchange hattempts => exact hattempts ▸ hold (hchange.isCompleted ▸ hfile)
  | startFile _ _ hchange hattempts =>
    rw [hchange.isCompleted] at hfile
    split_ifs at hfile with hf
    · exact absurd hfile Bool.false_ne_true
    · rw [hattempts, Function.update_of_ne hf]
      exact hold hfile
  | count _ _ _ _ hchange hattempts =>
    rw [hchange.isCompleted, isCompleted_countedEntry] at hfile
    rw [hattempts]
    split_ifs at hfile with hf
    · exact hold (hf ▸ hfile)
    · exact hold hfile
  | completeFile ht hpc hchange hattempts =>
    rw [hchange.isCompleted] at hfile
    rw [hattempts]
    split_ifs at hfile with hf
    · subst hf
      rw [Function.update_self]
      exact ⟨_, hlogs.mem (h.sentFile _ (List.mem_of_getElem? ht) _ hpc)⟩
    · rw [Function.update_of_ne hf]
      exact hold hfile
  | completeProcessing _ hchange hattempts => exact hattempts ▸ hold (hchange.isCompleted ▸ hfile)
  | completeExtraction _ hchange hattempts => exact hattempts ▸ hold (hchange.isCompleted ▸ hfile)

/-! ## The tasks -/

theorem not_early_of_task (hearly : s.run.pc.early = true → s.run.tasks = []) {t : Task} (ht : t ∈ s.run.tasks) :
    s.run.pc.early = false := by
  by_contra hpc
  simp [hearly (by simpa using hpc)] at ht

theorem Sound.entries_step {strict : Prop} (h : Sound strict s) (hearly : s.run.pc.early = true → s.run.tasks = [])
    (hs : step cfg s a = some s') {t' : Task} (ht' : t' ∈ s'.run.tasks) (hpc : t'.pc.working = true) :
    (s'.marker.progress t'.file).isSome = true := by
  have hkept : ∀ t ∈ s.run.tasks, t.pc.working = true → (s'.marker.progress t.file).isSome = true :=
    fun t ht hpc => (step_advance hs).progress_isSome (List.ne_nil_of_mem ht') (not_early_of_task hearly ht)
      (h.entries t ht hpc)
  obtain hold | ⟨t, ht, hfile, hmove⟩ | ⟨-, -, hqueued, -⟩ := (step_moves hs).task_cases ht'
  · exact hkept t' hold hpc
  · rw [hfile]
    cases hmove with
    | skip _ hpc' => simp [hpc', TaskPc.working] at hpc
    | start _ _ _ _ hentry => rw [hentry]; rfl
    | announce hpiped => exact hkept t ht (by rw [hpiped]; rfl)
    | finish _ hpc' => simp [hpc', TaskPc.working] at hpc
    | goOn _ hworking => exact hkept t ht (hworking hpc)
  · simp [hqueued, TaskPc.working] at hpc

theorem Sound.sentFile_step {strict : Prop} (h : Sound strict s) (hs : step cfg s a = some s') {t' : Task}
    (ht' : t' ∈ s'.run.tasks) {total : Nat} (hpc : t'.pc = .announced total) :
    .fileComplete t'.file t'.attempt total ∈ s'.log := by
  obtain hold | ⟨t, ht, hfile, hmove⟩ | ⟨-, -, hqueued, -⟩ := (step_moves hs).task_cases ht'
  · exact (step_logs hs).mem (h.sentFile t' hold total hpc)
  · cases hmove with
    | skip _ hpc' => simp [hpc] at hpc'
    | start _ hpc' => simp [hpc] at hpc'
    | announce _ hpc' hattempt he =>
      obtain rfl := TaskPc.announced.inj (hpc'.symm.trans hpc)
      rw [hfile, hattempt]
      exact he
    | finish _ hpc' => simp [hpc] at hpc'
    | goOn _ _ _ _ hpc' => exact absurd hpc (hpc' total)
  · simp [hqueued] at hpc

theorem Sound.skipped_step {strict : Prop} (h : Sound strict s) (hs : step cfg s a = some s') {t' : Task}
    (ht' : t' ∈ s'.run.tasks) (hpc : t'.pc = .skipped) : s'.shutdown = true := by
  have hdown : s.shutdown = true → s'.shutdown = true := fun hdown =>
    ((step_now hs).2.2 hdown).resolve_right (List.ne_nil_of_mem ht')
  obtain hold | ⟨t, ht, hfile, hmove⟩ | ⟨-, -, hqueued, -⟩ := (step_moves hs).task_cases ht'
  · exact hdown (h.skipped t' hold hpc)
  · cases hmove with
    | skip hup => exact hdown hup
    | start _ hpc' => simp [hpc] at hpc'
    | announce _ hpc' => simp [hpc] at hpc'
    | finish _ hpc' => simp [hpc] at hpc'
    | goOn _ _ _ hpc' => simp [hpc, TaskPc.ok] at hpc'
  · simp [hqueued] at hpc

/-- A file of the run is finished, or a task has yet to finish it. -/
theorem Sound.processing_step {strict : Prop} (h : Sound strict s) (hs : step cfg s a = some s')
    (hpc' : s'.run.pc = .processing) : ∀ file ∈ s'.run.tracked.dataFiles,
      s'.marker.isCompleted file = true ∨ ∃ t ∈ s'.run.tasks, t.file = file ∧ t.pc ≠ .done := by
  intro file hfile
  cases step_moves hs with
  | stay hpc hregs htasks =>
    rw [hpc'] at hpc
    rw [hregs.dataFiles] at hfile
    obtain hdone | ⟨t, ht, rfl, hundone⟩ := h.processing hpc.symm file hfile
    · cases step_advance hs with
      | keep hsame => exact .inl (hsame.isCompleted ▸ hdone)
      | start hidle => exact absurd (hpc.trans hidle) Pc.noConfusion
      | requeue hearly => simp [← hpc, Pc.early] at hearly
      | startProcessing hdl => exact absurd (hpc.trans hdl) Pc.noConfusion
      | @startFile _ t₁ _ _ hchange _ _ _ htask =>
        by_cases hf : file = t₁.file
        · obtain ⟨t', ht', hfile', hpc'⟩ := htask
          exact .inr ⟨t', ht', hfile'.trans hf.symm, hpc'⟩
        · exact .inl ((hchange.isCompleted_of_ne hf).trans hdone)
      | count _ _ _ _ hchange =>
        rw [hchange.isCompleted, isCompleted_countedEntry]
        split_ifs with hf
        · exact .inl (hf ▸ hdone)
        · exact .inl hdone
      | completeFile _ _ hchange =>
        rw [hchange.isCompleted]
        split_ifs with hf
        · obtain ⟨status, hstatus, -⟩ := isCompleted_iff.1 hdone
          rw [← hf, hstatus]
          exact .inl rfl
        · exact .inl hdone
      | completeProcessing _ hchange => exact .inl (hchange.isCompleted ▸ hdone)
      | completeExtraction _ hchange => exact .inl (hchange.isCompleted ▸ hdone)
    · cases htasks with
      | same htasks => exact .inr ⟨t, htasks ▸ ht, rfl, hundone⟩
      | @moved i t₀ t₀' ht₀ htasks hended hfile₀ hmove =>
        obtain ⟨j, hj, rfl⟩ := List.getElem_of_mem ht
        by_cases hij : i = j
        · subst hij
          obtain rfl := Option.some.inj (ht₀.symm.trans (List.getElem?_eq_getElem hj))
          have hmem : t₀' ∈ s'.run.tasks := htasks ▸ List.mem_set hj _
          cases hmove with
          | skip _ hpc => exact .inr ⟨t₀', hmem, hfile₀, by simp [hpc]⟩
          | start _ hpc => exact .inr ⟨t₀', hmem, hfile₀, by rcases hpc with hpc | hpc <;> simp [hpc]⟩
          | announce _ hpc => exact .inr ⟨t₀', hmem, hfile₀, by simp [hpc]⟩
          | finish hannounced _ _ hentry =>
            obtain ⟨status, hstatus⟩ := Option.isSome_iff_exists.1 (h.entries _ ht (by rw [hannounced]; rfl))
            rw [hstatus] at hentry
            exact .inl (isCompleted_iff.2 ⟨_, hentry, rfl⟩)
          | goOn _ _ _ hok => exact .inr ⟨t₀', hmem, hfile₀, fun hpc => by simp [hpc, TaskPc.ok] at hok⟩
        · refine .inr ⟨s.run.tasks[j], ?_, rfl, hundone⟩
          rw [htasks]
          exact List.mem_iff_getElem.2 ⟨j, by simpa using hj, by rw [List.getElem_set_ne hij]⟩
  | spawn _ _ htasks =>
    by_cases hdone : s'.marker.isCompleted file = true
    · exact .inl hdone
    · refine .inr ⟨⟨file, 0, .queued⟩, ?_, rfl, TaskPc.noConfusion⟩
      rw [htasks]
      exact List.mem_map.2 ⟨file, mem_pendingFiles.2 ⟨hfile, by simpa using hdone⟩, rfl⟩
  | stop hpc => exact absurd (hpc'.symm.trans hpc) Pc.noConfusion
  | start _ hpc => exact absurd (hpc'.symm.trans hpc) Pc.noConfusion
  | early _ hpc => simp [hpc', Pc.early] at hpc
  | complete _ hpc => exact absurd (hpc'.symm.trans hpc) Pc.noConfusion
  | announce _ _ _ hpc => exact absurd (hpc'.symm.trans hpc) Pc.noConfusion
  | broadcast _ hpc => exact absurd (hpc'.symm.trans hpc) Pc.noConfusion
  | sent _ hpc => exact absurd (hpc'.symm.trans hpc) Pc.noConfusion

/-! ## The end of a run -/

theorem Pc.late_of_processed {pc : Pc} (h : pc.processed = true) : pc.late = true := by
  cases pc <;> simp_all [processed, late, early]

theorem Pc.late_of_finished {pc : Pc} (h : pc.finished = true) : pc.late = true := by
  cases pc <;> simp_all [finished, processed, late, early]

/-- When nothing is left, nothing changes. -/
theorem Sound.finished_keep {strict : Prop} (h : Sound strict s) (hs : step cfg s a = some s')
    (hpc : s.run.pc.finished = true) (hregs : SameRegs s s') (htasks : s'.run.tasks = s.run.tasks) :
    (∀ file ∈ s'.run.tracked.dataFiles, s'.marker.isCompleted file = true) ∧
      ∀ t ∈ s'.run.tasks, t.pc.ended = true := by
  obtain ⟨hfiles, hended⟩ := h.finished hpc
  refine ⟨fun file hfile => ?_, htasks ▸ hended⟩
  rw [(step_advance hs).isCompleted_eq (Pc.late_of_finished hpc) hended]
  exact hfiles file (hregs.dataFiles ▸ hfile)

/-- When all tasks have returned without an error and no shutdown was requested, all files are finished. -/
theorem Sound.all_completed {strict : Prop} (h : Sound strict s) (hpc : s.run.pc = .processing)
    (hok : ∀ t ∈ s.run.tasks, t.pc.ok = true) (hup : s.shutdown = false) {file : String}
    (hfile : file ∈ s.run.tracked.dataFiles) : s.marker.isCompleted file = true := by
  refine (h.processing hpc file hfile).resolve_right ?_
  rintro ⟨t, ht, -, hundone⟩
  have htok := hok t ht
  cases htpc : t.pc <;> simp only [htpc, TaskPc.ok, Bool.false_eq_true] at htok
  · exact hundone htpc
  · simp [h.skipped t ht htpc] at hup

theorem TaskPc.ended_of_ok {pc : TaskPc} (h : pc.ok = true) : pc.ended = true := by
  cases pc <;> simp_all [ok, ended]

theorem Sound.finished_step {strict : Prop} (h : Sound strict s) (hs : step cfg s a = some s')
    (hpc' : s'.run.pc.finished = true) : (∀ file ∈ s'.run.tracked.dataFiles, s'.marker.isCompleted file = true) ∧
      ∀ t ∈ s'.run.tasks, t.pc.ended = true := by
  cases step_moves hs with
  | stay hpc hregs htasks =>
    rw [hpc] at hpc'
    cases htasks with
    | same htasks => exact h.finished_keep hs hpc' hregs htasks
    | moved ht _ hended =>
      exact absurd ((h.finished hpc').2 _ (List.mem_of_getElem? ht)) (by simp [hended])
  | stop hpc => simp [hpc, Pc.finished, Pc.processed] at hpc'
  | start _ hpc => simp [hpc, Pc.finished, Pc.processed] at hpc'
  | early _ hpc => exact absurd (Pc.late_of_finished hpc') (by simp [Pc.late, hpc])
  | spawn _ _ htasks hpc =>
    obtain ⟨-, hnone⟩ | hpc := hpc
    · refine ⟨fun file hfile => ?_, by simp [hnone]⟩
      by_contra hundone
      rw [hnone] at htasks
      have hpending : file ∈ s'.marker.pendingFiles s'.run.tracked.dataFiles :=
        mem_pendingFiles.2 ⟨hfile, by simpa using hundone⟩
      rw [List.map_eq_nil_iff.1 htasks.symm] at hpending
      simp at hpending
    · simp [hpc, Pc.finished, Pc.processed] at hpc'
  | complete hpc _ _ hregs htasks =>
    obtain hpc | ⟨hpc, hok, hup⟩ := hpc
    · exact h.finished_keep hs (by simp [Pc.finished, hpc]) hregs htasks
    · have hended : ∀ t ∈ s.run.tasks, t.pc.ended = true := fun t ht => TaskPc.ended_of_ok (hok t ht)
      refine ⟨fun file hfile => ?_, htasks ▸ hended⟩
      rw [(step_advance hs).isCompleted_eq (by rw [hpc]; rfl) hended]
      exact h.all_completed hpc hok hup (hregs.dataFiles ▸ hfile)
  | announce hpc _ _ _ hregs htasks => exact h.finished_keep hs (by rw [hpc]; rfl) hregs htasks
  | broadcast hpc _ _ hregs htasks => exact h.finished_keep hs (by rw [hpc]; rfl) hregs htasks
  | sent hpc _ hregs htasks => exact h.finished_keep hs (by rw [hpc]; rfl) hregs htasks

/-- A run that goes on has gone on before, or has just started. -/
theorem Moves.live (h : Moves s a s') (hlive : s'.Live) : s.Live ∨ Starts s a s' := by
  have htasks : s'.run.tasks = s.run.tasks → (∃ t ∈ s'.run.tasks, t.pc.ended = false) → s.Live :=
    fun htasks hlive => .inr (htasks ▸ hlive)
  cases h with
  | stay hpc _ htasks' =>
    by_cases hidle : s.run.pc = .idle
    · cases htasks' with
      | same heq => exact .inl (htasks heq (hlive.resolve_left (by simp [hpc, hidle])))
      | moved ht _ hended => exact .inl (State.live_of_task ht hended)
    · exact .inl (.inl hidle)
  | stop hpc _ htasks' =>
    obtain heq | hnone := htasks'
    · exact .inl (htasks heq (hlive.resolve_left (by simp [hpc])))
    · exact absurd hlive (by simp [State.Live, hpc, hnone])
  | start _ _ _ hstarts => exact .inr hstarts
  | early hpc => exact .inl (.inl (by rintro hidle; simp [hidle, Pc.early] at hpc))
  | spawn hpc => exact .inl (.inl (by simp [hpc]))
  | complete hpc => exact .inl (.inl (by rcases hpc with hpc | ⟨hpc, -⟩ <;> simp [hpc]))
  | announce hpc => exact .inl (.inl (by simp [hpc]))
  | broadcast hpc => exact .inl (.inl (by simp [hpc]))
  | sent hpc => exact .inl (.inl (by simp [hpc]))

theorem Sound.not_completed_of_starts {strict : Prop} (h : Sound strict s) (hstarts : Starts s a s') :
    s'.marker.summary.overallStatus ≠ .completed := by
  cases hstarts with
  | found hm hgo _ hmarker => exact hmarker ▸ (h.saved _ _ hm).not_completed (by simp [hgo])
  | fresh _ _ _ hmarker =>
    rw [hmarker]
    exact PhaseStatus.noConfusion

theorem Sound.unfinished_step {strict : Prop} (h : Sound strict s) (hs : step cfg s a = some s')
    (hlive' : s'.Live) : s'.marker.summary.overallStatus ≠ .completed := by
  obtain hlive | hstarts := (step_moves hs).live hlive'
  · have hopen := h.unfinished hlive
    cases step_advance hs with
    | keep hsame => exact hsame.overallStatus ▸ hopen
    | start _ _ hstarts => exact h.not_completed_of_starts hstarts
    | requeue _ _ hrequeue => rwa [hrequeue.overallStatus, if_neg hopen]
    | startProcessing _ _ hchange =>
      rw [hchange.overallStatus]
      exact PhaseStatus.noConfusion
    | startFile _ _ hchange => exact hchange.overallStatus ▸ hopen
    | count _ _ _ _ hchange => exact hchange.overallStatus ▸ hopen
    | completeFile _ _ hchange => exact hchange.overallStatus ▸ hopen
    | completeProcessing _ hchange => exact hchange.overallStatus ▸ hopen
    | completeExtraction hpc _ _ hidle _ htasks =>
      obtain ⟨t, ht, hended⟩ := hlive'.resolve_left (by simp [hidle])
      rw [htasks] at ht
      exact absurd ((h.finished (by rw [hpc]; rfl)).2 t ht) (by simp [hended])
  · exact h.not_completed_of_starts hstarts

/-! ## The phases -/

theorem downloadPhase_openProcessing (saved : Bool) :
    (openProcessing s saved).1.marker.downloadPhase = s.marker.downloadPhase := by
  rw [openProcessing_eq]
  split_ifs
  · rw [State.save_marker, State.update_marker]
    exact downloadPhase_startProcessing
  · rw [State.save_marker, State.update_marker]
    exact downloadPhase_setFilesTotal
  · rfl

theorem TaskStep.downloadPhase {i : Nat} {t : Task} {action : TaskAction} (h : TaskStep cfg s i t action s') :
    s'.marker.downloadPhase = s.marker.downloadPhase := by
  cases h with
  | start => exact changesEntry_startFileProcessing.downloadPhase
  | checkpoint => exact changesEntry_updateFileProgress.downloadPhase
  | completeFile => exact changesEntry_completeFileProcessing.downloadPhase
  | _ => rfl

/-- Where the download phase changes, and how it gets complete. -/
inductive Downloads (s s' : State β) : Prop where
  | same : s'.marker.downloadPhase = s.marker.downloadPhase →
      (s'.run.pc.acquired = true → s.run.pc.acquired = true) → Downloads s s'
  | change : s.run.pc.early = true → s.run.pc.acquired = false →
      (s'.run.pc.acquired = true → s'.marker.downloadPhase.status = .completed) → Downloads s s'
  | start : s.run.pc = .idle → s'.run.pc = .starting → s'.run.tasks = [] → Downloads s s'

theorem Downloads.stop (hmarker : s'.marker.downloadPhase = s.marker.downloadPhase) (hpc : s'.run.pc = .idle) :
    Downloads s s' := .same hmarker fun h => by simp [hpc, Pc.acquired, Pc.late] at h

theorem step_downloads (h : step cfg s a = some s') : Downloads s s' := by
  have hnot : ∀ {P : Prop} {pc : Pc}, pc.acquired = false → pc.acquired = true → P :=
    fun hno hyes => absurd (hno.symm.trans hyes) Bool.false_ne_true
  cases Step.of_step h with
  | crash => exact .stop rfl rfl
  | beginReprocess _ _ _ _ hpc => exact .start hpc rfl rfl
  | beginContinue _ _ _ _ hpc => exact .start hpc rfl rfl
  | downloadFailed => exact .stop rfl rfl
  | startDownload _ _ hpc => exact .change (by rw [hpc]; rfl) (by rw [hpc]; rfl) (hnot rfl)
  | alreadyHave _ hpc => exact .change (by rw [hpc]; rfl) (by rw [hpc]; rfl) (hnot rfl)
  | startFile _ hpc => exact .change (by rw [hpc]; rfl) (by rw [hpc]; rfl) (hnot rfl)
  | @attemptFailed _ n =>
    refine .same rfl (hnot ?_)
    by_cases hn : n < maxDownloadRetries <;> simp [State.goto, hn, Pc.acquired, Pc.late, Pc.early]
  | attemptDone => exact .same rfl (hnot rfl)
  | rejectFile => exact .stop rfl rfl
  | saveFileMetadata => exact .same rfl (hnot rfl)
  | recordFile _ hpc => exact .change (by rw [hpc]; rfl) (by rw [hpc]; rfl) (hnot rfl)
  | completeDownload _ hpc => exact .change (by rw [hpc]; rfl) (by rw [hpc]; rfl) fun _ => status_completeDownload
  | metadataSaved hpc => exact .same rfl fun _ => by rw [hpc]; rfl
  | metadataFailed => exact .stop rfl rfl
  | stage => exact .same rfl (hnot rfl)
  | recordStaged hpc =>
    refine .change (by rw [hpc]; rfl) (by rw [hpc]; rfl) fun _ => ?_
    rw [State.marker, State.finishStaged_tracked, ← State.marker, recordStaged_marker]
    exact status_completeDownload
  | recordStagedFailed hpc => exact .change (by rw [hpc]; rfl) (by rw [hpc]; rfl) (hnot rfl)
  | prepareNone => exact .stop rfl rfl
  | prepareFailed saved => exact .stop (downloadPhase_openProcessing saved) rfl
  | prepare saved hpc => exact .same (downloadPhase_openProcessing saved) fun _ => by rw [hpc]; rfl
  | task ht htask => exact .same htask.downloadPhase fun h => htask.pc ▸ h
  | alreadyComplete => exact .stop rfl rfl
  | completeAll _ hpc => exact .same downloadPhase_completeProcessing fun _ => by rw [hpc]; rfl
  | joinOk _ hpc => exact .same downloadPhase_completeProcessing fun _ => by rw [hpc]; rfl
  | joinErr => exact .stop rfl rfl
  | connected hpc => exact .same rfl fun _ => by rw [hpc]; rfl
  | connectFailed => exact .stop rfl rfl
  | broadcast _ hpc => exact .same rfl fun _ => by rw [hpc]; rfl
  | broadcastRefused hpc => exact .same rfl fun _ => by rw [hpc]; rfl
  | endBroadcast hpc => exact .same rfl fun _ => by rw [hpc]; rfl
  | finalize => exact .stop downloadPhase_completeExtraction rfl
  | _ => exact .same rfl id

theorem Sound.acquired_step {strict : Prop} (h : Sound strict s) (hs : step cfg s a = some s')
    (hpc' : s'.run.pc.acquired = true) : s'.marker.downloadPhase.status = .completed := by
  cases step_downloads hs with
  | same heq hpc => rw [heq, h.acquired (hpc hpc')]
  | change _ _ hcompleted => exact hcompleted hpc'
  | start _ hpc => simp [hpc, Pc.acquired, Pc.late, Pc.early] at hpc'

theorem Advance.processed (h : Advance s a s') (hlate : s.run.pc.late = true)
    (hstatus : s.marker.processingPhase.status = .completed) : s'.marker.processingPhase.status = .completed := by
  cases h with
  | keep hsame => rw [hsame.status, hstatus]
  | start hpc => exact absurd hpc (Pc.late_ne_idle hlate)
  | requeue hpc => exact absurd hpc (by simp [Pc.late_not_early hlate])
  | startProcessing hpc => exact absurd hpc (Pc.late_ne_downloaded hlate)
  | startFile _ _ hchange => rw [hchange.status, hstatus]
  | count _ _ _ _ hchange => rw [hchange.status, hstatus]
  | completeFile _ _ hchange => rw [hchange.status, hstatus]
  | completeProcessing _ hchange => exact hchange.status
  | completeExtraction _ hchange => rw [hchange.status, hstatus]

theorem Sound.processed_step {strict : Prop} (h : Sound strict s) (hs : step cfg s a = some s')
    (hpc' : s'.run.pc.processed = true) : s'.marker.processingPhase.status = .completed := by
  have hkeep : s.run.pc.processed = true → s'.marker.processingPhase.status = .completed := fun hpc =>
    (step_advance hs).processed (Pc.late_of_processed hpc) (h.processed hpc)
  cases step_moves hs with
  | stay hpc => exact hkeep (hpc ▸ hpc')
  | stop hpc => simp [hpc, Pc.processed] at hpc'
  | start _ hpc => simp [hpc, Pc.processed] at hpc'
  | early _ hpc => exact absurd (Pc.late_of_processed hpc') (by simp [Pc.late, hpc])
  | spawn _ _ _ hpc => rcases hpc with ⟨hpc, -⟩ | hpc <;> simp [hpc, Pc.processed] at hpc'
  | complete _ _ hstatus => exact hstatus
  | announce hpc => exact hkeep (by rw [hpc]; rfl)
  | broadcast hpc => exact hkeep (by rw [hpc]; rfl)
  | sent hpc => exact hkeep (by rw [hpc]; rfl)

/-! ## The broadcast -/

/-- All entries of a data type have as many records as the run's file of that type. -/
def EntriesAgree (tracked : Tracked) : Prop :=
  ∀ file ∈ tracked.dataFiles, ∀ dt, extractDataType file = some dt →
    ∀ other status, tracked.marker.progress other = some status → extractDataType other = some dt →
      (tracked.marker.progress file).map (·.recordsExtracted) = some status.recordsExtracted

/-- A broadcast begins when the entries of the marker agree. -/
def AgreesAtConnect (s : State β) : Action β → Prop
  | .connect (some _) => EntriesAgree s.run.tracked
  | _ => True

theorem counted_recordCounts {tracked : Tracked} {listing : List (String × FileProcessingStatus)}
    (hagree : EntriesAgree tracked) (hlist : tracked.marker.processingPhase.progressByFile.IsListing listing)
    (hfiles : ∀ file ∈ tracked.dataFiles, tracked.marker.isCompleted file = true) :
    Counted tracked (recordCounts listing) := by
  intro file hfile dt hdt
  obtain ⟨status, hstatus, -⟩ := isCompleted_iff.1 (hfiles file hfile)
  rw [hstatus]
  refine Table.lookup_collect (hlist.mem_iff.2 hstatus) (by simp [hdt]) ?_
  rintro ⟨other, status'⟩ hmem records hrecords
  obtain ⟨dt', hdt', heq⟩ := Option.map_eq_some_iff.1 hrecords
  obtain ⟨hname, rfl⟩ := Prod.mk.inj heq
  have hagrees := hagree file hfile dt hdt other status' (hlist.mem_iff.1 hmem) (hdt'.trans (by
    rw [DataType.asStr_injective hname]))
  rw [hstatus] at hagrees
  exact (Option.some.inj hagrees).symm

theorem Counted.keep {tracked tracked' : Tracked} {counts : Table String Nat} (h : Counted tracked counts)
    (hfiles : tracked'.dataFiles = tracked.dataFiles)
    (hprogress : ∀ file, tracked'.marker.progress file = tracked.marker.progress file) : Counted tracked' counts := by
  intro file hfile dt hdt
  rw [hprogress]
  exact h file (hfiles ▸ hfile) dt hdt

/-- What has been counted stays counted when nothing is left. -/
theorem Sound.counted_keep {strict : Prop} (h : Sound strict s) (hs : step cfg s a = some s')
    (hpc : s.run.pc.finished = true) (hregs : SameRegs s s') {counts : Table String Nat}
    (hcounted : strict → Counted s.run.tracked counts) : strict → Counted s'.run.tracked counts := fun hstrict =>
  (hcounted hstrict).keep hregs.dataFiles
    ((step_advance hs).progress_eq (Pc.late_of_finished hpc) (h.finished hpc).2)

theorem Sound.counted_step {strict : Prop} (h : Sound strict s) (hok : strict → AgreesAtConnect s a)
    (hs : step cfg s a = some s') {rest : List DataType} {sent : Bool} {counts : Table String Nat}
    (hpc' : s'.run.pc = .announcing rest sent counts) : strict → Counted s'.run.tracked counts := by
  cases step_moves hs with
  | stay hpc hregs =>
    rw [hpc] at hpc'
    exact h.counted_keep hs (by rw [hpc']; rfl) hregs (h.counted _ _ _ hpc')
  | announce hpc ha hlist hpc₂ hregs =>
    obtain ⟨-, -, rfl⟩ := Pc.announcing.inj (hpc₂.symm.trans hpc')
    have hfin : s.run.pc.finished = true := by rw [hpc]; rfl
    refine h.counted_keep hs hfin hregs fun hstrict => ?_
    have hagree : AgreesAtConnect s a := hok hstrict
    rw [ha] at hagree
    exact counted_recordCounts hagree hlist (h.finished hfin).1
  | broadcast hpc hpc₂ _ hregs =>
    obtain ⟨-, -, rfl⟩ := Pc.announcing.inj (hpc₂.symm.trans hpc')
    exact h.counted_keep hs (by rw [hpc]; rfl) hregs (h.counted _ _ _ hpc)
  | stop hpc => exact absurd (hpc'.symm.trans hpc) Pc.noConfusion
  | start _ hpc => exact absurd (hpc'.symm.trans hpc) Pc.noConfusion
  | early _ hpc => simp [hpc', Pc.early] at hpc
  | spawn _ _ _ hpc => rcases hpc with ⟨hpc, -⟩ | hpc <;> exact absurd (hpc'.symm.trans hpc) Pc.noConfusion
  | complete _ hpc => exact absurd (hpc'.symm.trans hpc) Pc.noConfusion
  | sent _ hpc => exact absurd (hpc'.symm.trans hpc) Pc.noConfusion

theorem Sound.broadcast_step {strict : Prop} (h : Sound strict s) (hs : step cfg s a = some s') {rest : List DataType}
    {counts : Table String Nat} (hpc' : s'.run.pc = .announcing rest true counts) : ∀ dt ∈ DataType.discogs,
      dt ∈ rest ∨ .extractionComplete s'.run.version dt s'.run.processingStartedAt counts ∈ s'.log := by
  intro dt hdt
  cases step_moves hs with
  | stay hpc hregs =>
    rw [hregs.version, hregs.processingStartedAt]
    exact (h.broadcast _ _ (hpc.symm.trans hpc') dt hdt).imp_right (step_logs hs).mem
  | announce _ _ _ hpc =>
    obtain ⟨rfl, -⟩ := Pc.announcing.inj (hpc.symm.trans hpc')
    exact .inl hdt
  | broadcast hpc hpc₂ hsent hregs =>
    obtain ⟨rfl, rfl, rfl⟩ := Pc.announcing.inj (hpc₂.symm.trans hpc')
    obtain ⟨rfl, hevent⟩ := hsent rfl
    rw [hregs.version, hregs.processingStartedAt]
    obtain hmem | he := h.broadcast _ _ hpc dt hdt
    · obtain rfl | hmem := List.mem_cons.1 hmem
      · exact .inr hevent
      · exact .inl hmem
    · exact .inr ((step_logs hs).mem he)
  | stop hpc => exact absurd (hpc'.symm.trans hpc) Pc.noConfusion
  | start _ hpc => exact absurd (hpc'.symm.trans hpc) Pc.noConfusion
  | early _ hpc => simp [hpc', Pc.early] at hpc
  | spawn _ _ _ hpc => rcases hpc with ⟨hpc, -⟩ | hpc <;> exact absurd (hpc'.symm.trans hpc) Pc.noConfusion
  | complete _ hpc => exact absurd (hpc'.symm.trans hpc) Pc.noConfusion
  | sent _ hpc => exact absurd (hpc'.symm.trans hpc) Pc.noConfusion

theorem Sound.sent_step {strict : Prop} (h : Sound strict s) (hs : step cfg s a = some s')
    (hpc' : s'.run.pc = .finalizing) : ∃ counts, (strict → Counted s'.run.tracked counts) ∧
      ∀ dt ∈ DataType.discogs, .extractionComplete s'.run.version dt s'.run.processingStartedAt counts ∈ s'.log := by
  cases step_moves hs with
  | stay hpc hregs =>
    rw [hpc] at hpc'
    obtain ⟨counts, hcounted, hsent⟩ := h.sent hpc'
    rw [hregs.version, hregs.processingStartedAt]
    exact ⟨counts, h.counted_keep hs (by rw [hpc']; rfl) hregs hcounted,
      fun dt hdt => (step_logs hs).mem (hsent dt hdt)⟩
  | @sent counts hpc _ hregs =>
    rw [hregs.version, hregs.processingStartedAt]
    refine ⟨counts, h.counted_keep hs (by rw [hpc]; rfl) hregs (h.counted _ _ _ hpc), fun dt hdt => ?_⟩
    exact (step_logs hs).mem ((h.broadcast _ _ hpc dt hdt).resolve_left (by simp))
  | stop hpc => exact absurd (hpc'.symm.trans hpc) Pc.noConfusion
  | start _ hpc => exact absurd (hpc'.symm.trans hpc) Pc.noConfusion
  | early _ hpc => simp [hpc', Pc.early] at hpc
  | spawn _ _ _ hpc => rcases hpc with ⟨hpc, -⟩ | hpc <;> exact absurd (hpc'.symm.trans hpc) Pc.noConfusion
  | complete _ hpc => exact absurd (hpc'.symm.trans hpc) Pc.noConfusion
  | announce _ _ _ hpc => exact absurd (hpc'.symm.trans hpc) Pc.noConfusion
  | broadcast _ hpc => exact absurd (hpc'.symm.trans hpc) Pc.noConfusion

/-! ## The marker files -/

/-- A version is completed by the last step of a run alone. -/
theorem Sound.finalized {strict : Prop} (h : Sound strict s) (hs : step cfg s a = some s') (hlive : s.Live)
    (hoverall : s'.marker.summary.overallStatus = .completed) : s.run.pc = .finalizing ∧ SameRegs s s' := by
  have hopen := h.unfinished hlive
  cases step_advance hs with
  | keep hsame => exact absurd (hsame.overallStatus ▸ hoverall) hopen
  | start _ _ hstarts => exact absurd hoverall (h.not_completed_of_starts hstarts)
  | requeue _ _ hrequeue =>
    rw [hrequeue.overallStatus, if_neg hopen] at hoverall
    exact absurd hoverall hopen
  | startProcessing _ _ hchange =>
    rw [hchange.overallStatus] at hoverall
    exact PhaseStatus.noConfusion hoverall
  | startFile _ _ hchange => exact absurd (hchange.overallStatus ▸ hoverall) hopen
  | count _ _ _ _ hchange => exact absurd (hchange.overallStatus ▸ hoverall) hopen
  | completeFile _ _ hchange => exact absurd (hchange.overallStatus ▸ hoverall) hopen
  | completeProcessing _ hchange => exact absurd (hchange.overallStatus ▸ hoverall) hopen
  | completeExtraction hpc _ _ _ hregs => exact ⟨hpc, hregs⟩

theorem Sound.backed_step {strict : Prop} (h : Sound strict s) (hs : step cfg s a = some s') (hlive : s.Live) :
    Backed strict s'.log s.run.version s'.run.tracked where
  announced _ hfile := h.announced_step hs hfile
  complete hoverall := by
    obtain ⟨hpc, hregs⟩ := h.finalized hs hlive hoverall
    have hfin : s.run.pc.finished = true := by rw [hpc]; rfl
    have hlate : s.run.pc.late = true := Pc.late_of_finished hfin
    obtain ⟨hfiles, hended⟩ := h.finished hfin
    obtain ⟨counts, hcounted, hsent⟩ := h.sent hpc
    refine ⟨?_, ?_, ?_, s.run.processingStartedAt, counts, ?_, ?_⟩
    · cases step_downloads hs with
      | same heq => rw [heq, h.acquired (by rw [hpc]; rfl)]
      | change hearly => exact absurd hearly (by simp [Pc.late_not_early hlate])
      | start hidle => exact absurd hidle (Pc.late_ne_idle hlate)
    · exact (step_advance hs).processed hlate (h.processed (by rw [hpc]; rfl))
    · intro file hfile
      rw [(step_advance hs).isCompleted_eq hlate hended]
      exact hfiles file (hregs.dataFiles ▸ hfile)
    · exact h.counted_keep hs hfin hregs hcounted
    · exact fun dt hdt => (step_logs hs).mem (hsent dt hdt)

theorem sound_step {strict : Prop} (h : Sound strict s) (hearly : s.run.pc.early = true → s.run.tasks = [])
    (hok : strict → AgreesAtConnect s a) (hs : step cfg s a = some s') : Sound strict s' where
  announced _ := h.announced_step hs
  saved version tracked hm := by
    obtain hold | ⟨hlive, -, rfl, rfl⟩ := (step_logs hs).markers_cases hm
    · exact (h.saved version tracked hold).grow fun _ => (step_logs hs).mem
    · exact h.backed_step hs hlive
  entries _ ht := h.entries_step hearly hs ht
  sentFile _ ht _ := h.sentFile_step hs ht
  skipped _ ht := h.skipped_step hs ht
  processing := h.processing_step hs
  finished := h.finished_step hs
  unfinished := h.unfinished_step hs
  acquired := h.acquired_step hs
  processed := h.processed_step hs
  counted _ _ _ := h.counted_step hok hs
  broadcast _ _ := h.broadcast_step hs
  sent := h.sent_step hs

theorem sound_init (strict : Prop) (disk : String → Option β) (metadata : Table String TrustedFile) :
    Sound strict (State.init disk metadata []) where
  announced _ hfile := absurd hfile Bool.false_ne_true
  saved _ _ hm := nomatch hm
  entries _ ht := nomatch ht
  sentFile _ ht := nomatch ht
  skipped _ ht := nomatch ht
  processing hpc := nomatch hpc
  finished hpc := absurd hpc Bool.false_ne_true
  unfinished _ := PhaseStatus.noConfusion
  acquired hpc := absurd hpc Bool.false_ne_true
  processed hpc := absurd hpc Bool.false_ne_true
  counted _ _ _ hpc := nomatch hpc
  broadcast _ _ hpc := nomatch hpc
  sent hpc := nomatch hpc

section Reach

variable {ok : State β → Action β → Prop} {disk : String → Option β} {metadata : Table String TrustedFile}

theorem sound_of_reach {strict : Prop} (hok : strict → ∀ s a, ok s a → AgreesAtConnect s a)
    (h : Machine.Reach (step cfg) ok (State.init disk metadata []) s) : Sound strict s :=
  h.invariant_of (fun _ hr hpc => early_tasks hr hpc) (sound_init strict disk metadata)
    fun s a _ hearly hI hstep hs => sound_step hI hearly (fun hstrict => hok hstrict s a hstep) hs

/-! ## The log -/

/-- Every marker that has been saved was backed by the log at that point, and the marker files are such markers. -/
structure Vouched (s : State β) : Prop where
  logged : ∀ version tracked, s.markers version = some tracked → .saved version tracked ∈ s.log
  backed : ∀ pre version tracked post, s.log = pre ++ .saved version tracked :: post →
    Backed True pre version tracked

/-- A save does not back itself. -/
theorem Backed.without_save {strict : Prop} {log : List (Event β)} {version v : String} {tracked T : Tracked}
    (h : Backed strict (log ++ [.saved v T]) version tracked) : Backed strict log version tracked where
  announced file hfile := by
    obtain ⟨total, he⟩ := h.announced file hfile
    exact ⟨total, by simpa using he⟩
  complete hoverall := by
    obtain ⟨hdownload, hprocessing, hfiles, startedAt, counts, hcounted, hsent⟩ := h.complete hoverall
    exact ⟨hdownload, hprocessing, hfiles, startedAt, counts, hcounted, fun dt hdt => by simpa using hsent dt hdt⟩

theorem vouched_step (h : Vouched s) (hsound : Sound True s) (hs : step cfg s a = some s') : Vouched s' where
  logged version tracked hm := by
    cases step_logs hs with
    | quiet new hlog _ hmarkers =>
      rw [hmarkers] at hm
      exact hlog ▸ List.mem_append_left _ (h.logged version tracked hm)
    | saving new hlog _ hmarkers =>
      rw [hlog]
      rw [hmarkers, Function.update_apply] at hm
      split_ifs at hm with hv
      · obtain rfl := Option.some.inj hm
        exact List.mem_append_right _ (hv ▸ List.mem_singleton_self _)
      · exact List.mem_append_left _ (List.mem_append_left _ (h.logged version tracked hm))
  backed pre version tracked post hsplit := by
    obtain ⟨rest, -, hold, -, -⟩ | ⟨hlive, rfl, -, rfl, -, -, new, rfl, hlog⟩ := (step_logs hs).saved_cases hsplit
    · exact h.backed pre version tracked rest hold
    · have hbacked := hsound.backed_step hs hlive
      rw [hlog] at hbacked
      exact hbacked.without_save

/-- In every run whose broadcasts begin with entries that agree, a marker is saved only when all that it says has
been sent. -/
theorem vouched (h : Machine.Reach (step cfg) AgreesAtConnect (State.init disk metadata []) s) : Vouched s := by
  refine h.invariant_of (K := Sound True) (fun s hr => sound_of_reach (fun _ _ _ h => h) hr) ⟨?_, ?_⟩
    fun _ _ _ hsound hI _ hs => vouched_step hI hsound hs
  · exact fun _ _ hm => nomatch hm
  · exact fun pre version tracked post hsplit => absurd hsplit.symm (by simp [State.init])

end Reach

theorem entriesAgree_single {tracked : Tracked} {file : String} (hfiles : tracked.dataFiles = [file])
    (hkeys : tracked.marker.processingPhase.progressByFile.keys = [file]) : EntriesAgree tracked := by
  intro f hf dt _ other status hother _
  rw [hfiles, List.mem_singleton] at hf
  have hmem : other ∈ tracked.marker.processingPhase.progressByFile.keys := by
    by_contra hno
    have hnone : tracked.marker.progress other = none := AList.lookup_eq_none.2 hno
    simp [hnone] at hother
  rw [hkeys, List.mem_singleton] at hmem
  rw [hf, ← hmem, hother]
  rfl

/-- The download of a local manifest, up to the file tasks. -/
def localDownload (file content : String) : List (Action String) :=
  [.begin (.localManifest content content.length) false [file] true, .stage content, .recordStaged true, .prepare true]

def processFile (i total : Nat) : List (Action String) :=
  [.task i (.connect true), .task i (.start true), .task i (.setupExchange true), .task i (.publish .confirmed),
    .task i (.pipelineDone total), .task i (.sendFileComplete .confirmed), .task i (.completeFile true)]

def broadcastAll : List (Action String) :=
  [.broadcast .confirmed, .broadcast .confirmed, .broadcast .confirmed, .broadcast .confirmed, .endBroadcast,
    .finalize true]

/-- The entry of a file with this content that was processed at time zero. -/
def processedEntry (content : String) (records : Nat) : FileProcessingStatus :=
  { status := .completed, recordsExtracted := records, messagesPublished := records, startedAt := some 0,
    completedAt := some 0, sourceChecksum := some content }

/-- One local manifest, from beginning to end. -/
theorem localRun_vouched : ∃ s : State String, Machine.Reach (step .plain) AgreesAtConnect
    .empty s ∧ (s.markers "20260101").any (·.marker.summary.overallStatus = .completed) ∧
      Vouched s := by
  let file := "discogs_20260101_artists.xml.gz"
  let before := localDownload file "dump" ++ processFile 0 2 ++ [.join true]
  have hbefore : (Machine.run (step .plain) .empty before).any (fun s =>
      s.run.tracked.dataFiles = [file] ∧ s.marker.processingPhase.progressByFile.keys = [file] ∧
        (Machine.run (step .plain) s (.connect (some [(file, processedEntry "dump" 2)]) :: broadcastAll)).any (fun s =>
          (s.markers "20260101").any (·.marker.summary.overallStatus = .completed))) = true := by
    decide +kernel
  obtain ⟨s₁, hs₁, hfacts⟩ := (Option.any_eq_true ..).1 hbefore
  obtain ⟨hfiles, hkeys, hafter⟩ := of_decide_eq_true hfacts
  obtain ⟨s₂, hs₂, hdone⟩ := (Option.any_eq_true ..).1 hafter
  obtain ⟨mid, hconnect, hrest⟩ := Machine.run_cons hs₂
  have hreach₁ : Machine.Reach (step .plain) AgreesAtConnect .empty s₁ :=
    Machine.Reach.init.append_run before (by simp [before, localDownload, processFile, AgreesAtConnect]) hs₁
  have hagree : AgreesAtConnect s₁ (.connect (some [(file, processedEntry "dump" 2)])) :=
    entriesAgree_single hfiles hkeys
  have hreach₂ : Machine.Reach (step .plain) AgreesAtConnect .empty s₂ :=
    (hreach₁.step hagree hconnect).append_run broadcastAll (by simp [broadcastAll, AgreesAtConnect]) hrest
  exact ⟨s₂, hreach₂, hdone, vouched hreach₂⟩

/-- The count that a broadcast has for a data type. -/
def Event.sentCount {β : Type} (dt : DataType) : Event β → Option (Option Nat)
  | extractionComplete _ dataType _ counts => if dataType = dt then some (counts.lookup dt.asStr) else none
  | _ => none

/-- A local manifest whose run dies, and one with a file of the same type and version under another name. -/
def renamedRun : List (Action String) :=
  let started : FileProcessingStatus := { status := .inProgress, startedAt := some 0, sourceChecksum := some "sample" }
  localDownload "discogs_20260101_Artists.xml.gz" "sample" ++
    [.task 0 (.connect true), .task 0 (.start true), .crash] ++
    localDownload "discogs_20260101_artists.xml.gz" "dump" ++ processFile 0 2 ++
    [.join true, .connect (some [("discogs_20260101_artists.xml.gz", processedEntry "dump" 2),
      ("discogs_20260101_Artists.xml.gz", started)])] ++ broadcastAll

/-- The broadcast of the second run says that there are no artists, as the entry of the first run has it. -/
theorem renamedRun_not_vouched : ∃ s : State String,
    Machine.Reach (step .plain) Machine.always .empty s ∧ ¬Vouched s := by
  have hrun : (Machine.run (step .plain) .empty renamedRun).any (fun s =>
      s.log.filterMap (Event.sentCount .artists) = [some 0] ∧
        (s.markers "20260101").any (fun tracked => tracked.marker.summary.overallStatus = .completed ∧
          tracked.dataFiles = ["discogs_20260101_artists.xml.gz"] ∧
          (tracked.marker.progress "discogs_20260101_artists.xml.gz").map (·.recordsExtracted) = some 2)) = true := by
    decide +kernel
  obtain ⟨s, hs, hfacts⟩ := (Option.any_eq_true ..).1 hrun
  obtain ⟨hsent, hmarker⟩ := of_decide_eq_true hfacts
  obtain ⟨tracked, hm, hfacts⟩ := (Option.any_eq_true ..).1 hmarker
  obtain ⟨hoverall, hfiles, hrecords⟩ := of_decide_eq_true hfacts
  refine ⟨s, .of_run renamedRun hs, fun h => ?_⟩
  obtain ⟨pre, post, hsplit⟩ := List.append_of_mem (h.logged _ _ hm)
  obtain ⟨-, -, -, startedAt, counts, hcounted, hlog⟩ := (h.backed pre _ _ post hsplit).complete hoverall
  have hcount := hcounted trivial _ (hfiles ▸ List.mem_singleton_self _) .artists (by decide)
  have hevent : counts.lookup DataType.artists.asStr ∈ s.log.filterMap (Event.sentCount .artists) :=
    List.mem_filterMap.2 ⟨_, hsplit ▸ List.mem_append_left _ (hlog .artists (by decide)), rfl⟩
  rw [hsent, List.mem_singleton, hcount, hrecords] at hevent
  simp at hevent

end DiscogsIngestion.Session
