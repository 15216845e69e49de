import DiscogsIngestion.Session.Trace

/-!
# The start time of a broadcast

`extraction_complete` carries the time at which the processing phase was started. A consumer takes what it has
not seen since then for stale.

* `Timely` : no record of a finished file was published before the processing phase of its marker started;
* `Purgeable`, `purgeable_step` : the invariant of the runs that start without markers;
* `extractionComplete_startedAt_le` : the time in a broadcast is not later than any record of a finished file.
-/

namespace DiscogsIngestion.Session

open StateMarker

variable {β : Type} {cfg : Config β} {s s' : State β} {a : Action β}

/-- No record of a finished file is older than the processing phase. -/
structure Timely (log : List (Event β)) (clock : DateTime) (tracked : Tracked) : Prop where
  pending : tracked.marker.processingPhase.status = .pending → ∀ file, tracked.marker.progress file = none
  started : tracked.marker.processingPhase.status ≠ .pending →
    ∃ time ≤ clock, tracked.marker.processingPhase.startedAt = some time
  published : ∀ file started time, tracked.marker.isCompleted file = true →
    tracked.marker.processingPhase.startedAt = some started →
    .published file (tracked.attempts file) time ∈ log → started ≤ time

/-- What was published since processing started is not older. -/
structure Purgeable (s : State β) : Prop where
  held : Timely s.log s.clock s.run.tracked
  saved : ∀ version tracked, s.markers version = some tracked → Timely s.log s.clock tracked
  numbered : ∀ file attempt time, .published file attempt time ∈ s.log → attempt < s.nextAttempt
  opened : s.run.pc.late = true ∨ s.run.tasks ≠ [] → s.marker.processingPhase.status ≠ .pending
  tasks : ∀ t ∈ s.run.tasks, t.pc.working = true → t.attempt < s.nextAttempt ∧
    ∀ started time, s.marker.processingPhase.startedAt = some started →
      .published t.file t.attempt time ∈ s.log → started ≤ time
  startedAt : s.run.pc.late = true → s.marker.processingPhase.startedAt = some s.run.processingStartedAt

/-! ## Publishing -/

/-- A record is published by a task that works on the file, at the time of the step. -/
theorem Logs.published_cases (h : Logs s a s') {file : String} {attempt : Nat} {time : DateTime}
    (he : .published file attempt time ∈ s'.log) : .published file attempt time ∈ s.log ∨
      (time = s.clock ∧ ∃ t ∈ s.run.tasks, t.pc.working = true ∧ t.attempt = attempt) := by
  obtain hold | hnew | hsaved := h.mem_cases he
  · exact .inl hold
  · cases hnew with
    | published ht hpc => exact .inr ⟨rfl, _, List.mem_of_getElem? ht, hpc, rfl⟩
  · cases hsaved

theorem Timely.startedAt_le {log : List (Event β)} {clock : DateTime} {tracked : Tracked} (h : Timely log clock tracked)
    {file : String} (hfile : tracked.marker.isCompleted file = true) {started : DateTime}
    (hstarted : tracked.marker.processingPhase.startedAt = some started) : started ≤ clock := by
  have hopen : tracked.marker.processingPhase.status ≠ .pending := by
    intro hpending
    obtain ⟨status, hstatus, -⟩ := isCompleted_iff.1 hfile
    simp [h.pending hpending] at hstatus
  obtain ⟨time, hle, htime⟩ := h.started hopen
  rw [hstarted] at htime
  exact Option.some.inj htime ▸ hle

theorem Timely.grow {tracked : Tracked} (h : Timely s.log s.clock tracked) (hlogs : Logs s a s')
    (hclock : s.clock ≤ s'.clock) : Timely s'.log s'.clock tracked where
  pending := h.pending
  started hopen := by
    obtain ⟨time, hle, htime⟩ := h.started hopen
    exact ⟨time, hle.trans hclock, htime⟩
  published file started time hfile hstarted he := by
    obtain hold | ⟨rfl, -⟩ := hlogs.published_cases he
    · exact h.published file started time hfile hstarted hold
    · exact h.startedAt_le hfile hstarted

/-! ## The start time -/

theorem Advance.startedAt_eq (h : Advance s a s') (hidle : s.run.pc = .idle → s'.run.tasks ≠ [])
    (hpc : s.run.pc ≠ .downloaded) : s'.marker.processingPhase.startedAt = s.marker.processingPhase.startedAt := by
  cases h with
  | keep hsame => exact hsame.startedAt
  | start hp htasks => exact absurd htasks (hidle hp)
  | requeue _ _ hrequeue => exact hrequeue.startedAt
  | startProcessing hp => exact absurd hp hpc
  | startFile _ _ hchange => exact hchange.startedAt
  | count _ _ _ _ hchange => exact hchange.startedAt
  | completeFile _ _ hchange => exact hchange.startedAt
  | completeProcessing _ hchange => exact hchange.startedAt
  | completeExtraction _ hchange => exact hchange.startedAt

theorem Advance.opened (h : Advance s a s') (hidle : s.run.pc = .idle → s'.run.tasks ≠ [])
    (hopen : s.marker.processingPhase.status ≠ .pending) : s'.marker.processingPhase.status ≠ .pending := by
  cases h with
  | keep hsame => exact hsame.status ▸ hopen
  | start hp htasks => exact absurd htasks (hidle hp)
  | requeue _ _ hrequeue =>
    rw [hrequeue.status]
    split_ifs
    · exact PhaseStatus.noConfusion
    · exact hopen
  | startProcessing _ _ hchange => exact hchange.status ▸ PhaseStatus.noConfusion
  | startFile _ _ hchange => exact hchange.status ▸ hopen
  | count _ _ _ _ hchange => exact hchange.status ▸ hopen
  | completeFile _ _ hchange => exact hchange.status ▸ hopen
  | completeProcessing _ hchange => exact hchange.status ▸ PhaseStatus.noConfusion
  | completeExtraction _ hchange => exact hchange.status ▸ hopen

/-! ## The marker in memory -/

theorem timely_new (log : List (Event β)) (version : String) (now clock : DateTime) (attempts : String → Nat)
    (dataFiles : List String) : Timely log clock ⟨.new version now, dataFiles, attempts⟩ where
  pending _ _ := rfl
  started hopen := absurd rfl hopen
  published _ _ _ hfile := absurd hfile Bool.false_ne_true

theorem Timely.same {log : List (Event β)} {clock : DateTime} {tracked tracked' : Tracked}
    (h : Timely log clock tracked) (hsame : SameProcessing tracked.marker tracked'.marker)
    (hattempts : tracked'.attempts = tracked.attempts) : Timely log clock tracked' where
  pending hpending file := by rw [hsame.progress, h.pending (hsame.status ▸ hpending)]
  started hopen := by
    rw [hsame.startedAt]
    exact h.started (hsame.status ▸ hopen)
  published file started time hfile hstarted he := by
    rw [hsame.isCompleted] at hfile
    rw [hsame.startedAt] at hstarted
    rw [hattempts] at he
    exact h.published file started time hfile hstarted he

theorem Timely.requeues {log : List (Event β)} {clock : DateTime} {tracked tracked' : Tracked} {file : String}
    (h : Timely log clock tracked) (hrequeue : Requeues tracked.marker tracked'.marker file)
    (hattempts : tracked'.attempts = tracked.attempts) : Timely log clock tracked' where
  pending hpending f := by
    rw [hrequeue.status] at hpending
    split_ifs at hpending
    rw [hrequeue.progress, h.pending hpending, ite_self]
  started hopen := by
    rw [hrequeue.startedAt]
    refine h.started fun hpending => hopen ?_
    rw [hrequeue.status, hpending]
    rfl
  published f started time hfile hstarted he := by
    rw [hrequeue.isCompleted] at hfile
    split_ifs at hfile
    rw [hrequeue.startedAt] at hstarted
    rw [hattempts] at he
    exact h.published f started time hfile hstarted he

theorem Timely.changesEntry {log : List (Event β)} {clock : DateTime} {tracked tracked' : Tracked} {file : String}
    {entry : Option FileProcessingStatus} (h : Timely log clock tracked)
    (hopen : tracked.marker.processingPhase.status ≠ .pending)
    (hchange : ChangesEntry tracked.marker tracked'.marker file entry)
    (hattempts : ∀ f, f ≠ file → tracked'.attempts f = tracked.attempts f)
    (hfile : entry.any (·.status = .completed) = true → ∀ started time,
      tracked.marker.processingPhase.startedAt = some started →
      .published file (tracked'.attempts file) time ∈ log → started ≤ time) : Timely log clock tracked' where
  pending hpending := absurd (hchange.status ▸ hpending) hopen
  started _ := by
    rw [hchange.startedAt]
    exact h.started hopen
  published f started time hcompleted hstarted he := by
    rw [hchange.isCompleted] at hcompleted
    rw [hchange.startedAt] at hstarted
    split_ifs at hcompleted with hf
    · subst hf
      exact hfile hcompleted started time hstarted he
    · rw [hattempts f hf] at he
      exact h.published f started time hcompleted hstarted he

/-- A phase that has been opened may be completed. -/
theorem Timely.changesPhase {log : List (Event β)} {clock : DateTime} {tracked tracked' : Tracked}
    {status overall : PhaseStatus} (h : Timely log clock tracked)
    (hopen : tracked.marker.processingPhase.status ≠ .pending) (hstatus : status ≠ .pending)
    (hchange : ChangesPhase tracked.marker tracked'.marker tracked.marker.processingPhase.startedAt status overall)
    (hattempts : tracked'.attempts = tracked.attempts) : Timely log clock tracked' where
  pending hpending := absurd (hchange.status ▸ hpending) hstatus
  started _ := by
    rw [hchange.startedAt]
    exact h.started hopen
  published f started time hcompleted hstarted he := by
    rw [hchange.isCompleted] at hcompleted
    rw [hchange.startedAt] at hstarted
    rw [hattempts] at he
    exact h.published f started time hcompleted hstarted he

/-- The phase starts when nothing has been processed. -/
theorem Timely.startProcessing {log : List (Event β)} {clock now : DateTime} {tracked tracked' : Tracked}
    {status overall : PhaseStatus} (h : Timely log clock tracked) (hnow : now ≤ clock)
    (hpending : tracked.marker.processingPhase.status = .pending) (hstatus : status ≠ .pending)
    (hchange : ChangesPhase tracked.marker tracked'.marker (some now) status overall) : Timely log clock tracked' where
  pending hno := absurd (hchange.status ▸ hno) hstatus
  started _ := ⟨now, hnow, hchange.startedAt⟩
  published f started time hcompleted := by
    rw [hchange.isCompleted] at hcompleted
    obtain ⟨entry, hentry, -⟩ := isCompleted_iff.1 hcompleted
    simp [h.pending hpending] at hentry

theorem Purgeable.opened_of_task (h : Purgeable s) {i : Nat} {t : Task} (ht : s.run.tasks[i]? = some t) :
    s.marker.processingPhase.status ≠ .pending :=
  h.opened (.inr (List.ne_nil_of_mem (List.mem_of_getElem? ht)))

theorem Purgeable.held_start (h : Purgeable s) (hlogs : Logs s a s') (hclock : s.clock ≤ s'.clock)
    (hstarts : Starts s a s') : Timely s'.log s'.clock s'.run.tracked := by
  cases hstarts with
  | found hm _ _ hmarker hattempts =>
    refine ((h.saved _ _ hm).grow hlogs hclock).same ?_ hattempts
    rw [← hmarker]
    exact .refl
  | @fresh _ _ _ _ version _ _ _ hmarker =>
    refine (timely_new s'.log version s.clock s'.clock s'.run.tracked.attempts []).same ?_ rfl
    rw [← hmarker]
    exact .refl

/-- The marker in memory stays timely. -/
theorem Purgeable.held_step (h : Purgeable s) (hs : step cfg s a = some s') :
    Timely s'.log s'.clock s'.run.tracked := by
  have hlogs := step_logs hs
  have hclock := (step_now hs).1
  have hheld := h.held.grow hlogs hclock
  cases step_advance hs with
  | keep hsame hattempts => exact hheld.same hsame hattempts
  | start _ _ hstarts => exact h.held_start hlogs hclock hstarts
  | requeue _ _ hrequeue _ hattempts => exact hheld.requeues hrequeue hattempts
  | startProcessing _ hpending hchange _ =>
    exact hheld.startProcessing hclock hpending PhaseStatus.noConfusion hchange
  | startFile ht _ hchange hattempts =>
    refine hheld.changesEntry (h.opened_of_task ht) hchange (fun f hf => ?_) (fun hno => ?_)
    · rw [hattempts, Function.update_of_ne hf]
    · exact absurd hno Bool.false_ne_true
  | count _ _ ht _ hchange hattempts =>
    refine hheld.changesEntry (h.opened_of_task ht) hchange (fun f _ => by rw [hattempts]) ?_
    intro hcompleted started time hstarted he
    rw [isCompleted_countedEntry] at hcompleted
    rw [hattempts] at he
    exact hheld.published _ started time hcompleted hstarted he
  | completeFile ht hpc hchange hattempts =>
    refine hheld.changesEntry (h.opened_of_task ht) hchange (fun f hf => ?_) ?_
    · rw [hattempts, Function.update_of_ne hf]
    · intro _ started time hstarted he
      rw [hattempts, Function.update_self] at he
      obtain hold | ⟨rfl, -⟩ := hlogs.published_cases he
      · exact (h.tasks _ (List.mem_of_getElem? ht) (by rw [hpc]; rfl)).2 started time hstarted hold
      · obtain ⟨time, hle, htime⟩ := h.held.started (h.opened_of_task ht)
        rw [hstarted] at htime
        exact Option.some.inj htime ▸ hle
  | completeProcessing hpc hchange hattempts =>
    have hlate : s.run.pc.late = true := by rcases hpc with hpc | hpc <;> rw [hpc] <;> rfl
    exact hheld.changesPhase (h.opened (.inl hlate)) PhaseStatus.noConfusion hchange hattempts
  | completeExtraction hpc hchange hattempts =>
    have hopen := h.opened (.inl (by rw [hpc]; rfl))
    exact hheld.changesPhase hopen hopen hchange hattempts

/-! ## The run -/

/-- A task of the step before has nothing to do with a start of the processing phase. -/
theorem startedAt_eq_of_task (hearly : s.run.pc.early = true → s.run.tasks = [])
    (hs : step cfg s a = some s') {t t' : Task} (ht : t ∈ s.run.tasks) (ht' : t' ∈ s'.run.tasks) :
    s'.marker.processingPhase.startedAt = s.marker.processingPhase.startedAt := by
  refine (step_advance hs).startedAt_eq (fun _ => List.ne_nil_of_mem ht') fun hpc => ?_
  exact List.ne_nil_of_mem ht (hearly (by rw [hpc]; rfl))

theorem Purgeable.tasks_step (h : Purgeable s) (hearly : s.run.pc.early = true → s.run.tasks = [])
    (hs : step cfg s a = some s') : ∀ t ∈ s'.run.tasks, t.pc.working = true → t.attempt < s'.nextAttempt ∧
      ∀ started time, s'.marker.processingPhase.startedAt = some started →
        .published t.file t.attempt time ∈ s'.log → started ≤ time := by
  intro t' ht' hworking
  have hlogs := step_logs hs
  have hnext := (step_now hs).2.1
  -- what holds of a task that was already at work holds of it still
  have hkept : ∀ t ∈ s.run.tasks, t.pc.working = true → t.attempt < s'.nextAttempt ∧
      ∀ started time, s'.marker.processingPhase.startedAt = some started →
        .published t.file t.attempt time ∈ s'.log → started ≤ time := by
    intro t ht hpc
    refine ⟨(h.tasks t ht hpc).1.trans_le hnext, fun started time hstarted he => ?_⟩
    rw [startedAt_eq_of_task hearly hs ht ht'] at hstarted
    obtain hold | ⟨rfl, -⟩ := hlogs.published_cases he
    · exact (h.tasks t ht hpc).2 started time hstarted hold
    · obtain ⟨time, hle, htime⟩ := h.held.started (h.opened (.inr (List.ne_nil_of_mem ht)))
      rw [hstarted] at htime
      exact Option.some.inj htime ▸ hle
  obtain hold | ⟨t, ht, hfile, hmove⟩ | ⟨-, -, hqueued, -⟩ := (step_moves hs).task_cases ht'
  · exact hkept t' hold hworking
  · rw [hfile]
    cases hmove with
    | skip _ hpc => simp [hpc, TaskPc.working] at hworking
    | start _ _ hattempt hnew _ =>
      rw [hattempt, hnew]
      refine ⟨Nat.lt_succ_self _, fun started time _ he => ?_⟩
      obtain hold | ⟨-, t₂, ht₂, hpc₂, hattempt₂⟩ := hlogs.published_cases he
      · exact absurd (h.numbered _ _ _ hold) (lt_irrefl _)
      · exact absurd (hattempt₂ ▸ (h.tasks t₂ ht₂ hpc₂).1) (lt_irrefl _)
    | announce hpc _ hattempt =>
      rw [hattempt]
      exact hkept t ht (by rw [hpc]; rfl)
    | finish _ hpc => simp [hpc, TaskPc.working] at hworking
    | goOn hattempt hpc =>
      rw [hattempt]
      exact hkept t ht (hpc hworking)
  · simp [hqueued, TaskPc.working] at hworking

theorem Purgeable.opened_step (h : Purgeable s) (hs : step cfg s a = some s')
    (hopen : s'.run.pc.late = true ∨ s'.run.tasks ≠ []) : s'.marker.processingPhase.status ≠ .pending := by
  have hadvance := step_advance hs
  have hmoves := step_moves hs
  rcases hopen with hlate | htasks
  · obtain ⟨hold, -⟩ | ⟨-, -, hstatus⟩ := hmoves.late_cases hlate
    · exact hadvance.opened (fun hidle => absurd hidle (Pc.late_ne_idle hold)) (h.opened (.inl hold))
    · exact hstatus
  · obtain ⟨t', ht'⟩ := List.exists_mem_of_ne_nil _ htasks
    obtain hold | ⟨t, ht, -⟩ | ⟨-, hstatus, -⟩ := hmoves.task_cases ht'
    · exact hadvance.opened (fun _ => htasks) (h.opened (.inr (List.ne_nil_of_mem hold)))
    · exact hadvance.opened (fun _ => htasks) (h.opened (.inr (List.ne_nil_of_mem ht)))
    · exact hstatus

theorem Purgeable.startedAt_step (h : Purgeable s) (hs : step cfg s a = some s') (hlate : s'.run.pc.late = true) :
    s'.marker.processingPhase.startedAt = some s'.run.processingStartedAt := by
  obtain ⟨hold, hregs⟩ | ⟨-, hstarted, hstatus⟩ := (step_moves hs).late_cases hlate
  · rw [(step_advance hs).startedAt_eq (fun hidle => absurd hidle (Pc.late_ne_idle hold))
      (Pc.late_ne_downloaded hold), h.startedAt hold, hregs.processingStartedAt]
  · obtain ⟨time, -, htime⟩ := (h.held_step hs).started hstatus
    rw [hstarted, htime]
    rfl

theorem purgeable_step (h : Purgeable s) (hearly : s.run.pc.early = true → s.run.tasks = [])
    (hs : step cfg s a = some s') : Purgeable s' where
  held := h.held_step hs
  saved version tracked hm := by
    obtain hold | ⟨-, -, -, rfl⟩ := (step_logs hs).markers_cases hm
    · exact (h.saved version tracked hold).grow (step_logs hs) (step_now hs).1
    · exact h.held_step hs
  numbered file attempt time he := by
    obtain hold | ⟨-, t, ht, hpc, rfl⟩ := (step_logs hs).published_cases he
    · exact (h.numbered file attempt time hold).trans_le (step_now hs).2.1
    · exact (h.tasks t ht hpc).1.trans_le (step_now hs).2.1
  opened := h.opened_step hs
  tasks := h.tasks_step hearly hs
  startedAt := h.startedAt_step hs

theorem purgeable_init (disk : String → Option β) (metadata : Table String TrustedFile) :
    Purgeable (State.init disk metadata []) where
  held := timely_new ..
  saved _ _ hm := nomatch hm
  numbered _ _ _ he := nomatch he
  opened hopen := hopen.elim (fun hlate => absurd hlate Bool.false_ne_true) (absurd rfl)
  tasks _ ht := nomatch ht
  startedAt hlate := absurd hlate Bool.false_ne_true

/-! ## The broadcast -/

variable {disk : String → Option β} {metadata : Table String TrustedFile}

/-- A broadcast does not carry a time later than any record of a file that is finished, whatever runs, crashes
and downloads there have been. -/
theorem extractionComplete_startedAt_le
    (h : Machine.Reach (step cfg) Machine.always (State.init disk metadata []) s)
    {outcome : Outcome} (hs : step cfg s (.broadcast outcome) = some s') {version : String} {dt : DataType}
    {startedAt : DateTime} {counts : Table String Nat}
    (hsent : s'.log = s.log ++ [.extractionComplete version dt startedAt counts])
    {file : String} (hfile : s.marker.isCompleted file = true) {time : DateTime}
    (hpublished : .published file (s.run.tracked.attempts file) time ∈ s.log) : startedAt ≤ time := by
  have hinv : Purgeable s := h.invariant_of (fun _ hr hpc => early_tasks hr hpc) (purgeable_init disk metadata)
    fun _ _ _ hearly hI _ hstep => purgeable_step hI hearly hstep
  cases Step.of_step hs with
  | broadcast outcome hpc =>
    have hevent := List.append_cancel_left hsent
    simp only [List.cons.injEq, Event.extractionComplete.injEq, and_true] at hevent
    obtain ⟨-, -, rfl, -⟩ := hevent
    exact hinv.held.published file _ time hfile (hinv.startedAt (by rw [hpc]; rfl)) hpublished
  | broadcastRefused => exact absurd (congrArg List.length hsent) (by simp [State.goto])

/-- A run that dies after it has finished its file, and one that only has to broadcast. -/
def resumedRun : List (Action String) :=
  let file := "discogs_20260101_artists.xml.gz"
  let download : List (Action String) :=
    [.begin (.localManifest "dump" 4) false [file] true, .stage "dump", .recordStaged true, .tick 5, .prepare true]
  let process : List (Action String) :=
    [.task 0 (.connect true), .task 0 (.start true), .task 0 (.setupExchange true), .tick 1,
      .task 0 (.publish .confirmed), .task 0 (.pipelineDone 1), .task 0 (.sendFileComplete .confirmed),
      .task 0 (.completeFile true)]
  let entry : FileProcessingStatus :=
    { status := .completed, recordsExtracted := 1, messagesPublished := 1, startedAt := some 5, completedAt := some 6,
      sourceChecksum := some "dump" }
  download ++ process ++ [.crash] ++ download ++ [.completeAll true, .connect (some [(file, entry)])]

/-- The second run broadcasts at 11 what was published at 6, and says that it started at 5. -/
theorem resumedRun_startedAt_le : ∃ s : State String,
    Machine.run (step .plain) .empty resumedRun = some s ∧ s.clock = 11 ∧
      .published "discogs_20260101_artists.xml.gz" 1 6 ∈ s.log ∧ s.run.processingStartedAt = 5 ∧
      s.run.processingStartedAt ≤ 6 := by
  have hrun : (Machine.run (step .plain) .empty resumedRun).any (fun s =>
      s.clock = 11 ∧ s.log.filterMap Event.publication = [("discogs_20260101_artists.xml.gz", 1, 6)] ∧
        s.run.processingStartedAt = 5 ∧ s.marker.isCompleted "discogs_20260101_artists.xml.gz" = true ∧
        s.run.tracked.attempts "discogs_20260101_artists.xml.gz" = 1 ∧ s.run.pc.sending = true) = true := by
    decide +kernel
  obtain ⟨s, hs, hfacts⟩ := (Option.any_eq_true ..).1 hrun
  obtain ⟨hclock, hlog, hstarted, hfile, hattempt, hsending⟩ := of_decide_eq_true hfacts
  have hpublished : .published "discogs_20260101_artists.xml.gz" 1 6 ∈ s.log :=
    Event.mem_publication.1 (by rw [hlog]; exact List.mem_singleton_self _)
  obtain ⟨dt, rest, sent, counts, hpc⟩ := Pc.sending_iff.1 hsending
  have hstep : step .plain s (.broadcast .confirmed) =
      some ((s.record (.extractionComplete s.run.version dt s.run.processingStartedAt counts)).goto
        (.announcing rest (sent && true) counts)) := by
    simp only [step, hpc]
    rfl
  refine ⟨s, hs, hclock, hpublished, hstarted, ?_⟩
  exact extractionComplete_startedAt_le (.of_run resumedRun hs) hstep rfl hfile (hattempt ▸ hpublished)

end DiscogsIngestion.Session
