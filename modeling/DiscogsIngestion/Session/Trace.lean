import DiscogsIngestion.Session.Advance

/-!
# What a step logs, and what it does to the tasks

* `NewEvent`, `Logs`, `step_logs` : the events of a step, and the marker file that it saves at its end;
* `TaskMove`, `Tasks` : how one of the tasks moves on;
* `Moves`, `step_moves` : how the run moves on, and when tasks come and go.
-/

namespace DiscogsIngestion.Session

open StateMarker

variable {β : Type} {cfg : Config β} {s s' : State β} {a : Action β}

/-- The marker in memory may still be saved. -/
def State.Live (s : State β) : Prop := s.run.pc ≠ .idle ∨ ∃ t ∈ s.run.tasks, t.pc.ended = false

theorem State.live_of_task {i : Nat} {t : Task} (ht : s.run.tasks[i]? = some t) (h : t.pc.ended = false) : s.Live :=
  .inr ⟨t, List.mem_of_getElem? ht, h⟩

/-! ## Events -/

/-- The events of a step, saves apart. -/
inductive NewEvent (s : State β) : Action β → Event β → Prop where
  | decided {source : Source} {force readable : Bool} {latest : List String} {version : String} :
      latest.head?.bind extractVersionFromFilename = some version →
      NewEvent s (.begin source force latest readable)
        (.decided version (loadMarker s force readable version).marker.shouldProcess latest
          (loadMarker s force readable version))
  | bytesVerified {a : Action β} (file checksum : String) :
      NewEvent s a (.bytesVerified s.run.version file checksum (s.marker.processedChecksum file))
  | started {i : Nat} {t : Task} {dt : DataType} (saved : Bool) : s.run.tasks[i]? = some t → t.pc = .connected →
      extractDataType t.file = some dt → NewEvent s (.task i (.start saved))
        (.started t.file s.nextAttempt ((s.marker.download t.file).bind (·.checksum)))
  | opened {a : Action β} {i : Nat} {t : Task} {content : β} : s.run.tasks[i]? = some t → t.pc = .started →
      s.disk t.file = some content → NewEvent s a (.opened t.file t.attempt content)
  | published {a : Action β} {i : Nat} {t : Task} : s.run.tasks[i]? = some t → t.pc.working = true →
      NewEvent s a (.published t.file t.attempt s.clock)
  | fileComplete {a : Action β} {i : Nat} {t : Task} {total : Nat} : s.run.tasks[i]? = some t →
      t.pc = .piped total → NewEvent s a (.fileComplete t.file t.attempt total)
  | extractionComplete {a : Action β} {dt : DataType} {rest : List DataType} {sent : Bool}
      {counts : Table String Nat} : s.run.pc = .announcing (dt :: rest) sent counts →
      NewEvent s a (.extractionComplete s.run.version dt s.run.processingStartedAt counts)

/-- What a step adds to the log. A save comes last. -/
inductive Logs (s : State β) (a : Action β) (s' : State β) : Prop where
  | quiet (new : List (Event β)) : s'.log = s.log ++ new → (∀ e ∈ new, NewEvent s a e) →
      s'.markers = s.markers → Logs s a s'
  | saving (new : List (Event β)) : s'.log = s.log ++ new ++ [.saved s'.run.version s'.run.tracked] →
      (∀ e ∈ new, NewEvent s a e) →
      s'.markers = Function.update s.markers s'.run.version (some s'.run.tracked) →
      s.Live → s'.run.version = s.run.version → Logs s a s'

theorem Logs.none (hlog : s'.log = s.log) (hmarkers : s'.markers = s.markers) : Logs s a s' :=
  .quiet [] (by rw [hlog, List.append_nil]) (by simp) hmarkers

theorem Logs.one {e : Event β} (he : NewEvent s a e) (hlog : s'.log = s.log ++ [e])
    (hmarkers : s'.markers = s.markers) : Logs s a s' :=
  .quiet [e] hlog (by simpa using he) hmarkers

/-- What a save reads and writes. -/
def State.durable (s : State β) : List (Event β) × (String → Option Tracked) × String × Tracked :=
  (s.log, s.markers, s.run.version, s.run.tracked)

theorem State.goto_durable (pc : Pc) : (s.goto pc).durable = s.durable := rfl

theorem State.advance_durable (file : String) (rest : List String) :
    (s.advance file rest).durable = s.durable := rfl

theorem State.finishStaged_durable (file : String) : (s.finishStaged file).durable = s.durable := rfl

theorem Logs.save (base : State β) (new : List (Event β)) (ok : Bool) (hnew : ∀ e ∈ new, NewEvent s a e)
    (hlive : s.Live) (hlog : base.log = s.log ++ new) (hmarkers : base.markers = s.markers)
    (hversion : base.run.version = s.run.version) (hs' : s'.durable = (base.save ok).durable) : Logs s a s' := by
  simp only [State.durable, Prod.mk.injEq] at hs'
  obtain ⟨hlog', hmarkers', hversion', htracked⟩ := hs'
  rw [State.save_log, hlog, hversion, ← htracked] at hlog'
  rw [State.save_markers, hmarkers, hversion, ← htracked] at hmarkers'
  have hv : s'.run.version = s.run.version := hversion'.trans hversion
  rw [← hv] at hlog' hmarkers'
  cases ok with
  | true => exact .saving new hlog' hnew hmarkers' hlive hv
  | false => exact .quiet new (by simpa using hlog') hnew hmarkers'

theorem Logs.update (f : StateMarker → StateMarker) (ok : Bool) (hlive : s.Live)
    (hs' : s'.durable = ((s.update f).save ok).durable) : Logs s a s' :=
  .save (s.update f) [] ok (by simp) hlive (List.append_nil _).symm rfl rfl hs'

theorem logs_recordDownload (file : String) (size : Nat) (saved : Bool) (hlive : s.Live)
    (hs' : s'.durable = (s.recordDownload file size saved).durable) : Logs s a s' := by
  cases hinfo : s.run.metadata.lookup file with
  | none =>
    rw [recordDownload_unknown size saved hinfo] at hs'
    exact .update _ saved hlive hs'
  | some info =>
    rw [recordDownload_known size saved hinfo] at hs'
    refine .save ((s.update (·.fileDownloaded file size s.clock)).verify file info.checksum)
      [.bytesVerified s.run.version file info.checksum (s.marker.processedChecksum file)] saved ?_ hlive
      ?_ rfl rfl hs'
    · simpa using NewEvent.bytesVerified file info.checksum
    · rw [State.verify_log, State.update_marker, sameProcessing_fileDownloaded.processedChecksum]
      rfl

theorem logs_recordStaged (file expected : String) (size : Nat) (saved : Bool) (hlive : s.Live)
    (hs' : s'.durable = (s.recordStaged file expected size saved).durable) : Logs s a s' := by
  refine .save (((s.update fun m => ((m.startDownload 1 s.clock).startFileDownload file s.clock).fileDownloaded file
      size s.clock).verify file expected).update (·.completeDownload s.clock))
    [.bytesVerified s.run.version file expected (s.marker.processedChecksum file)] saved ?_ hlive ?_ ?_ ?_ hs'
  · simpa using NewEvent.bytesVerified file expected
  · simp only [State.update_log, State.verify_log, State.update_marker, State.update_version,
      sameProcessing_fileDownloaded.processedChecksum, sameProcessing_startFileDownload.processedChecksum,
      sameProcessing_startDownload.processedChecksum]
  · simp only [State.update_markers, State.verify_markers]
  · simp only [State.update_version, State.verify_version]

theorem logs_openProcessing (saved : Bool) (hlive : s.Live)
    (hs' : s'.durable = (openProcessing s.setDataFiles saved).1.durable) : Logs s a s' := by
  rw [openProcessing_eq] at hs'
  split_ifs at hs'
  · exact .save (s.setDataFiles.update (·.startProcessing s.setDataFiles.run.tracked.dataFiles.length s.clock)) []
      saved (by simp) hlive (List.append_nil _).symm rfl rfl hs'
  · exact .save (s.setDataFiles.update (·.setFilesTotal s.setDataFiles.run.tracked.dataFiles.length)) [] saved
      (by simp) hlive (List.append_nil _).symm rfl rfl hs'
  · simp only [State.durable, Prod.mk.injEq] at hs'
    exact .none hs'.1 hs'.2.1

theorem logs_task {i : Nat} {t : Task} {action : TaskAction} (ht : s.run.tasks[i]? = some t)
    (h : TaskStep cfg s i t action s') : Logs s (.task i action) s' := by
  cases h with
  | start saved hpc hdt =>
    refine .save (s.openEntry t.file)
      [.started t.file s.nextAttempt ((s.marker.download t.file).bind (·.checksum))] saved ?_
      (State.live_of_task ht (by rw [hpc]; rfl)) rfl rfl rfl rfl
    simpa using NewEvent.started saved ht hpc hdt
  | setupAndOpen hpc hdisk => exact .one (.opened ht hpc hdisk) rfl rfl
  | published outcome hpc =>
    exact .one (.published ht (by rcases hpc with hpc | hpc <;> rw [hpc] <;> rfl)) rfl rfl
  | checkpoint records batches saved hpc =>
    have hlive : s.Live := State.live_of_task ht (by rcases hpc with hpc | hpc <;> rw [hpc] <;> rfl)
    exact .update _ saved hlive rfl
  | fileComplete hpc => exact .one (.fileComplete ht hpc) rfl rfl
  | fileCompleteUnconfirmed hpc => exact .one (.fileComplete ht hpc) rfl rfl
  | @completeFile saved total hpc =>
    exact .save ((s.update (·.completeFileProcessing t.file total s.clock)).credit t.file t.attempt) [] saved
      (by simp) (State.live_of_task ht (by rw [hpc]; rfl)) (List.append_nil _).symm rfl rfl rfl
  | _ => exact .none rfl rfl

theorem step_logs (h : step cfg s a = some s') : Logs s a s' := by
  cases Step.of_step h with
  | beginSkip source force latest readable hpc hset hv hdec =>
    exact .one (hdec ▸ .decided hv) rfl rfl
  | beginReprocess source force latest readable hpc hset hv hdec =>
    exact .one (hdec ▸ .decided hv) rfl rfl
  | beginContinue source force latest readable hpc hset hv hdec =>
    exact .one (hdec ▸ .decided hv) rfl rfl
  | startDownload _ saved hpc =>
    exact .update (·.startDownload s.run.latest.length s.clock) saved (.inl (by simp [hpc])) rfl
  | alreadyHave saved hpc => exact logs_recordDownload _ _ saved (.inl (by simp [hpc])) (State.advance_durable ..)
  | @startFile saved file _ hpc => exact .update (·.startFileDownload file s.clock) saved (.inl (by simp [hpc])) rfl
  | recordFile saved hpc => exact logs_recordDownload _ _ saved (.inl (by simp [hpc])) (State.advance_durable ..)
  | completeDownload saved hpc => exact .update (·.completeDownload s.clock) saved (.inl (by simp [hpc])) rfl
  | recordStaged hpc => exact logs_recordStaged _ _ _ true (.inl (by simp [hpc])) (State.finishStaged_durable ..)
  | recordStagedFailed hpc => exact logs_recordStaged _ _ _ false (.inl (by simp [hpc])) (State.goto_durable ..)
  | prepareFailed saved hpc => exact logs_openProcessing saved (.inl (by simp [hpc])) rfl
  | prepare saved hpc => exact logs_openProcessing saved (.inl (by simp [hpc])) rfl
  | task ht htask => exact logs_task ht htask
  | completeAll saved hpc => exact .update (·.completeProcessing s.clock) saved (.inl (by simp [hpc])) rfl
  | joinOk saved hpc => exact .update (·.completeProcessing s.clock) saved (.inl (by simp [hpc])) rfl
  | joinErr saved hpc => exact .update id saved (.inl (by simp [hpc])) rfl
  | broadcast outcome hpc => exact .one (.extractionComplete hpc) rfl rfl
  | finalize saved hpc => exact .update (·.completeExtraction) saved (.inl (by simp [hpc])) rfl
  | _ => exact .none rfl rfl

theorem Logs.mem (h : Logs s a s') {e : Event β} (he : e ∈ s.log) : e ∈ s'.log := by
  cases h with
  | quiet new hlog => exact hlog ▸ List.mem_append_left _ he
  | saving new hlog => exact hlog ▸ List.mem_append_left _ (List.mem_append_left _ he)

theorem Logs.mem_cases (h : Logs s a s') {e : Event β} (he : e ∈ s'.log) :
    e ∈ s.log ∨ NewEvent s a e ∨ e = .saved s'.run.version s'.run.tracked := by
  cases h with
  | quiet new hlog hnew =>
    rw [hlog, List.mem_append] at he
    exact he.imp_right fun he => .inl (hnew e he)
  | saving new hlog hnew =>
    rw [hlog, List.mem_append, List.mem_append, List.mem_singleton, or_assoc] at he
    exact he.imp_right fun he => he.imp_left (hnew e)

/-- Where the marker files come from. -/
theorem Logs.markers_cases (h : Logs s a s') {version : String} {tracked : Tracked}
    (hm : s'.markers version = some tracked) :
    s.markers version = some tracked ∨
      (s.Live ∧ version = s'.run.version ∧ version = s.run.version ∧ tracked = s'.run.tracked) := by
  cases h with
  | quiet new hlog hnew hmarkers => exact .inl (hmarkers ▸ hm)
  | saving new hlog hnew hmarkers hlive hversion =>
    rw [hmarkers, Function.update_apply] at hm
    split_ifs at hm with hv
    · exact .inr ⟨hlive, hv, hv.trans hversion, (Option.some.inj hm).symm⟩
    · exact .inl hm

/-- A new attempt has a number of its own. -/
theorem NewEvent.started_cases {file : String} {n : Nat} {checksum : Option String}
    (h : NewEvent s a (.started file n checksum)) (hs : step cfg s a = some s') :
    n = s.nextAttempt ∧ s'.nextAttempt = s.nextAttempt + 1 ∧ checksum = (s.marker.download file).bind (·.checksum) := by
  cases h with
  | started saved ht hpc hdt =>
    cases Step.of_step hs with
    | task ht' htask =>
      obtain rfl := Option.some.inj (ht.symm.trans ht')
      cases htask with
      | startInvalid _ _ hnone => rw [hdt] at hnone; cases hnone
      | start => exact ⟨rfl, rfl, rfl⟩

theorem NewEvent.not_saved {version : String} {tracked : Tracked} : ¬NewEvent s a (.saved version tracked) :=
  fun h => nomatch h

theorem NewEvent.decided_iff {version : String} {decision : ProcessingDecision} {latest : List String}
    {tracked : Tracked} : NewEvent s a (.decided version decision latest tracked) ↔
      ∃ source force readable, a = .begin source force latest readable ∧
        latest.head?.bind extractVersionFromFilename = some version ∧ tracked = loadMarker s force readable version ∧
        decision = tracked.marker.shouldProcess := by
  constructor
  · intro h
    cases h with
    | decided hv => exact ⟨_, _, _, rfl, hv, rfl, rfl⟩
  · rintro ⟨source, force, readable, rfl, hv, rfl, rfl⟩
    exact .decided hv

/-- Where a save stands in the log. -/
theorem Logs.saved_cases (h : Logs s a s') {pre post : List (Event β)} {version : String} {tracked : Tracked}
    (hsplit : s'.log = pre ++ .saved version tracked :: post) :
    (∃ rest new, s.log = pre ++ .saved version tracked :: rest ∧ post = rest ++ new ∧ s'.log = s.log ++ new) ∨
      (s.Live ∧ version = s.run.version ∧ s'.run.version = s.run.version ∧ tracked = s'.run.tracked ∧ post = [] ∧
        s'.markers version = some tracked ∧
        ∃ new, pre = s.log ++ new ∧ s'.log = s.log ++ new ++ [.saved version tracked]) := by
  cases h with
  | quiet new hlog hnew =>
    obtain ⟨rest, hold, hpost⟩ | ⟨mid, -, hmid⟩ := Machine.split_append (hlog ▸ hsplit)
    · exact .inl ⟨rest, new, hold, hpost, hlog⟩
    · exact absurd (hnew _ (hmid ▸ List.mem_append_right _ (List.mem_cons_self ..))) NewEvent.not_saved
  | saving new hlog hnew hmarkers hlive hversion =>
    obtain ⟨rest, hold, hpost⟩ | ⟨mid, hpre, hmid⟩ := Machine.split_append (hlog ▸ hsplit)
    · obtain ⟨rest', hold, hrest⟩ | ⟨mid, -, hmid⟩ := Machine.split_append hold
      · exact .inl ⟨rest', new ++ [.saved s'.run.version s'.run.tracked], hold, by rw [hpost, hrest, List.append_assoc],
          by rw [hlog, List.append_assoc]⟩
      · exact absurd (hnew _ (hmid ▸ List.mem_append_right _ (List.mem_cons_self ..))) NewEvent.not_saved
    · cases mid with
      | nil =>
        obtain ⟨hevent, hpost⟩ := List.cons.inj hmid
        obtain ⟨hv, htracked⟩ := Event.saved.inj hevent
        refine .inr ⟨hlive, hv ▸ hversion, hversion, htracked.symm, hpost.symm, ?_, new, by simpa using hpre, ?_⟩
        · rw [hmarkers, ← hv, Function.update_self, htracked]
        · rw [hlog, ← hv, htracked]
      | cons e mid => simp at hmid

/-! ## Tasks -/

/-- How a task moves on. -/
inductive TaskMove (s s' : State β) (t t' : Task) : Prop where
  | skip : s.shutdown = true → t'.pc = .skipped → t'.attempt = t.attempt → TaskMove s s' t t'
  | start : t.pc = .connected → t'.pc = .started ∨ t'.pc = .failed → t'.attempt = s.nextAttempt →
      s'.nextAttempt = s.nextAttempt + 1 →
      s'.marker.progress t.file = some (s.marker.startedEntry t.file s.clock) →
      .started t.file s.nextAttempt ((s.marker.download t.file).bind (·.checksum)) ∈ s'.log → TaskMove s s' t t'
  | announce {total : Nat} : t.pc = .piped total → t'.pc = .announced total → t'.attempt = t.attempt →
      .fileComplete t.file t.attempt total ∈ s'.log → TaskMove s s' t t'
  | finish {total : Nat} : t.pc = .announced total → t'.pc = .done → t'.attempt = t.attempt →
      s'.marker.progress t.file = (s.marker.progress t.file).map (completedEntry total s.clock) → TaskMove s s' t t'
  | goOn : t'.attempt = t.attempt → (t'.pc.working = true → t.pc.working = true) →
      (t'.pc.waiting = true → t.pc.waiting = true) → t'.pc.ok = false → (∀ total, t'.pc ≠ .announced total) →
      TaskMove s s' t t'

/-- How the tasks of a run change while it goes on. -/
inductive Tasks (s s' : State β) : Prop where
  | same : s'.run.tasks = s.run.tasks → Tasks s s'
  | moved {i : Nat} {t t' : Task} : s.run.tasks[i]? = some t → s'.run.tasks = s.run.tasks.set i t' →
      t.pc.ended = false → t'.file = t.file → TaskMove s s' t t' → Tasks s s'

theorem TaskStep.tasks {i : Nat} {t : Task} {action : TaskAction} (ht : s.run.tasks[i]? = some t)
    (h : TaskStep cfg s i t action s') : Tasks s s' := by
  cases h with
  | published => exact .same rfl
  | notPublished => exact .same rfl
  | checkpoint => exact .same rfl
  | skip hpc hdown => exact .moved ht rfl (by rw [hpc]; rfl) rfl (.skip hdown rfl rfl)
  | start saved hpc =>
    refine .moved ht rfl (by rw [hpc]; rfl) rfl (.start hpc (by cases saved <;> simp) rfl rfl ?_ ?_)
    · exact changesEntry_startFileProcessing.progress_self
    · cases saved
      · exact List.mem_append_right _ (List.mem_singleton_self _)
      · exact List.mem_append_left _ (List.mem_append_right _ (List.mem_singleton_self _))
  | fileComplete hpc =>
    exact .moved ht rfl (by rw [hpc]; rfl) rfl
      (.announce hpc rfl rfl (List.mem_append_right _ (List.mem_singleton_self _)))
  | @completeFile saved total hpc =>
    cases saved with
    | true =>
      refine .moved ht rfl (by rw [hpc]; rfl) rfl (.finish hpc rfl rfl ?_)
      exact changesEntry_completeFileProcessing.progress_self
    | false =>
      exact .moved ht rfl (by rw [hpc]; rfl) rfl
        (.goOn rfl (by simp [TaskPc.working]) (by simp [TaskPc.waiting]) rfl (by simp))
  | _ =>
    exact .moved ht rfl (by simp_all [TaskPc.ended]) rfl
      (.goOn rfl (by simp_all [TaskPc.working]) (by simp_all [TaskPc.waiting]) rfl (by simp))

/-! ## The run -/

theorem TaskStep.regs {i : Nat} {t : Task} {action : TaskAction} (h : TaskStep cfg s i t action s') :
    SameRegs s s' := by
  cases h <;> exact ⟨rfl, rfl, rfl⟩

theorem TaskStep.pc {i : Nat} {t : Task} {action : TaskAction} (h : TaskStep cfg s i t action s') :
    s'.run.pc = s.run.pc := by
  cases h <;> rfl

/-- How a run moves on. -/
inductive Moves (s : State β) (a : Action β) (s' : State β) : Prop where
  | stay : s'.run.pc = s.run.pc → SameRegs s s' → Tasks s s' → Moves s a s'
  | stop : s'.run.pc = .idle → s'.run.version = s.run.version →
      s'.run.tasks = s.run.tasks ∨ s'.run.tasks = [] → Moves s a s'
  | start : s.run.pc = .idle → s'.run.pc = .starting → s'.run.tasks = [] → Starts s a s' → Moves s a s'
  | early : s.run.pc.early = true → s'.run.pc.early = true → SameRegs s s' → s'.run.tasks = s.run.tasks → Moves s a s'
  | spawn : s.run.pc = .downloaded → s'.run.version = s.run.version →
      s'.run.tasks = (s'.marker.pendingFiles s'.run.tracked.dataFiles).map (⟨·, 0, .queued⟩) →
      s'.run.pc = .allDone ∧ s'.run.tasks = [] ∨ s'.run.pc = .processing →
      s'.run.processingStartedAt = s'.marker.processingPhase.startedAt.getD s.run.startedAt →
      s'.marker.processingPhase.status ≠ .pending →
      s'.run.tracked.dataFiles = s.run.downloaded.filter (fun file => !isChecksum file) → Moves s a s'
  | complete : s.run.pc = .allDone ∨ s.run.pc = .processing ∧ (∀ t ∈ s.run.tasks, t.pc.ok = true) ∧
      s.shutdown = false → s'.run.pc = .completed → s'.marker.processingPhase.status = .completed →
      SameRegs s s' → s'.run.tasks = s.run.tasks → Moves s a s'
  | announce {listing : List (String × FileProcessingStatus)} : s.run.pc = .completed → a = .connect (some listing) →
      s.marker.processingPhase.progressByFile.IsListing listing →
      s'.run.pc = .announcing DataType.discogs true (recordCounts listing) → SameRegs s s' →
      s'.run.tasks = s.run.tasks → Moves s a s'
  | broadcast {dt : DataType} {rest : List DataType} {sent sent' : Bool} {counts : Table String Nat} :
      s.run.pc = .announcing (dt :: rest) sent counts → s'.run.pc = .announcing rest sent' counts →
      (sent' = true → sent = true ∧
        .extractionComplete s.run.version dt s.run.processingStartedAt counts ∈ s'.log) →
      SameRegs s s' → s'.run.tasks = s.run.tasks → Moves s a s'
  | sent {counts : Table String Nat} : s.run.pc = .announcing [] true counts → s'.run.pc = .finalizing →
      SameRegs s s' → s'.run.tasks = s.run.tasks → Moves s a s'

section Marker

variable {base : State β}

theorem SameButMarker.regs (h : SameButMarker s.run base.run) : SameRegs s base := by
  obtain ⟨m, h⟩ := h
  exact ⟨by rw [h], by rw [h], by rw [h]⟩

theorem SameButMarker.tasks (h : SameButMarker s.run base.run) : base.run.tasks = s.run.tasks := by
  obtain ⟨m, h⟩ := h
  rw [h]

theorem SameButMarker.moves_advance (h : SameButMarker s.run base.run) (hpc : s.run.pc.early = true) (file : String)
    (rest : List String) : Moves s a (base.advance file rest) :=
  .early hpc rfl ⟨h.regs.version, h.regs.dataFiles, h.regs.processingStartedAt⟩ h.tasks

theorem SameButMarker.moves_finishStaged (h : SameButMarker s.run base.run) (hpc : s.run.pc.early = true)
    (file : String) : Moves s a (base.finishStaged file) :=
  .early hpc rfl ⟨h.regs.version, h.regs.dataFiles, h.regs.processingStartedAt⟩ h.tasks

theorem SameButMarker.moves_idle (h : SameButMarker s.run base.run) : Moves s a (base.goto .idle) :=
  .stop rfl h.regs.version (.inl h.tasks)

end Marker

theorem openProcessing_status (saved : Bool) : (openProcessing s saved).1.marker.processingPhase.status ≠ .pending := by
  rw [openProcessing_eq]
  split_ifs with hpending hprogress
  · rw [State.save_marker]
    exact fun hno => nomatch changesPhase_startProcessing.status.symm.trans hno
  · rw [State.save_marker]
    exact fun hno => hpending (sameProcessing_setFilesTotal.status.symm.trans hno)
  · exact hpending

theorem moves_spawn (saved : Bool) (hpc : s.run.pc = .downloaded) :
    Moves s a (spawn (openProcessing s.setDataFiles saved).1) := by
  obtain ⟨m, hrun⟩ := openProcessing_run (s := s.setDataFiles) saved
  refine .spawn hpc ((congrArg Run.version hrun).trans rfl) rfl ?_ ?_ (openProcessing_status saved)
    ((congrArg (fun r : Run => r.tracked.dataFiles) hrun).trans rfl)
  · simp only [spawn, List.isEmpty_iff]
    split_ifs with hempty
    · exact .inl ⟨rfl, by rw [hempty]; rfl⟩
    · exact .inr rfl
  · have hstart : (openProcessing s.setDataFiles saved).1.run.startedAt = s.run.startedAt := by rw [hrun]; rfl
    simp only [spawn, hstart]

theorem step_moves (h : step cfg s a = some s') : Moves s a s' := by
  cases Step.of_step h with
  | crash => exact .stop rfl rfl (.inr rfl)
  | beginReprocess _ _ _ _ hpc _ _ hdec => exact .start hpc rfl rfl (starts_reprocess hdec rfl rfl rfl)
  | beginContinue _ _ _ _ hpc _ _ hdec => exact .start hpc rfl rfl (starts_continue hdec rfl rfl rfl)
  | downloadFailed => exact .stop rfl rfl (.inl rfl)
  | startDownload _ _ hpc => exact .early (by rw [hpc]; rfl) rfl ⟨rfl, rfl, rfl⟩ rfl
  | alreadyHave saved hpc => exact (recordDownload_run _ _ saved).moves_advance (by rw [hpc]; rfl) _ _
  | startFile _ hpc => exact .early (by rw [hpc]; rfl) rfl ⟨rfl, rfl, rfl⟩ rfl
  | @attemptFailed _ n _ _ hpc =>
    by_cases hn : n < maxDownloadRetries
    · exact .early (by rw [hpc]; rfl) (by simp [State.goto, hn]; rfl) ⟨rfl, rfl, rfl⟩ rfl
    · exact .stop (by simp [State.goto, hn]) rfl (.inl rfl)
  | attemptDone _ hpc => exact .early (by rw [hpc]; rfl) rfl ⟨rfl, rfl, rfl⟩ rfl
  | rejectFile => exact .stop rfl rfl (.inl rfl)
  | saveFileMetadata _ hpc => exact .early (by rw [hpc]; rfl) rfl ⟨rfl, rfl, rfl⟩ rfl
  | recordFile saved hpc => exact (recordDownload_run _ _ saved).moves_advance (by rw [hpc]; rfl) _ _
  | completeDownload _ hpc => exact .early (by rw [hpc]; rfl) rfl ⟨rfl, rfl, rfl⟩ rfl
  | metadataSaved hpc => exact .early (by rw [hpc]; rfl) rfl ⟨rfl, rfl, rfl⟩ rfl
  | metadataFailed => exact .stop rfl rfl (.inl rfl)
  | stage _ hpc => exact .early (by rw [hpc]; rfl) rfl ⟨rfl, rfl, rfl⟩ rfl
  | recordStaged hpc =>
    exact (recordStaged_run _ _ _ true).moves_finishStaged (by rw [hpc]; rfl) _
  | recordStagedFailed => exact (recordStaged_run _ _ _ false).moves_idle
  | prepareNone => exact .stop rfl rfl (.inl rfl)
  | prepareFailed saved =>
    have hrun := openProcessing_run (s := s.setDataFiles) saved
    exact .stop rfl hrun.regs.version (.inl hrun.tasks)
  | prepare saved hpc => exact moves_spawn saved hpc
  | task ht htask => exact .stay htask.pc htask.regs (htask.tasks ht)
  | alreadyComplete => exact .stop rfl rfl (.inl rfl)
  | completeAll saved hpc =>
    cases saved with
    | true => exact .complete (.inl hpc) rfl changesPhase_completeProcessing.status ⟨rfl, rfl, rfl⟩ rfl
    | false => exact .stop rfl rfl (.inl rfl)
  | joinOk saved hpc hok hup =>
    cases saved with
    | true => exact .complete (.inr ⟨hpc, hok, hup⟩) rfl changesPhase_completeProcessing.status ⟨rfl, rfl, rfl⟩ rfl
    | false => exact .stop rfl rfl (.inl rfl)
  | joinErr => exact .stop rfl rfl (.inl rfl)
  | connected hpc hlist => exact .announce hpc rfl hlist rfl ⟨rfl, rfl, rfl⟩ rfl
  | connectFailed => exact .stop rfl rfl (.inl rfl)
  | broadcast outcome hpc =>
    refine .broadcast hpc rfl (fun hsent => ⟨(Bool.and_eq_true .. ▸ hsent).1, ?_⟩) ⟨rfl, rfl, rfl⟩ rfl
    exact List.mem_append_right _ (List.mem_singleton_self _)
  | broadcastRefused hpc => exact .broadcast hpc rfl (fun hsent => nomatch hsent) ⟨rfl, rfl, rfl⟩ rfl
  | @endBroadcast sent counts hpc =>
    cases sent with
    | true => exact .sent hpc rfl ⟨rfl, rfl, rfl⟩ rfl
    | false => exact .stop rfl rfl (.inl rfl)
  | finalize => exact .stop rfl rfl (.inl rfl)
  | _ => exact .stay rfl ⟨rfl, rfl, rfl⟩ (.same rfl)

/-- Where the tasks come from. -/
theorem Moves.task_cases (h : Moves s a s') {t' : Task} (ht' : t' ∈ s'.run.tasks) :
    t' ∈ s.run.tasks ∨ (∃ t ∈ s.run.tasks, t'.file = t.file ∧ TaskMove s s' t t') ∨
      (s.run.pc = .downloaded ∧ s'.marker.processingPhase.status ≠ .pending ∧ t'.pc = .queued ∧
        t'.file ∈ s'.marker.pendingFiles s'.run.tracked.dataFiles) := by
  cases h with
  | stay _ _ htasks =>
    cases htasks with
    | same htasks => exact .inl (htasks ▸ ht')
    | moved ht htasks _ hfile hmove =>
      rw [htasks] at ht'
      obtain hold | rfl := List.mem_or_eq_of_mem_set ht'
      · exact .inl hold
      · exact .inr (.inl ⟨_, List.mem_of_getElem? ht, hfile, hmove⟩)
  | stop _ _ htasks =>
    obtain htasks | htasks := htasks
    · exact .inl (htasks ▸ ht')
    · simp [htasks] at ht'
  | start _ _ htasks _ => simp [htasks] at ht'
  | early _ _ _ htasks => exact .inl (htasks ▸ ht')
  | spawn hpc _ htasks _ _ hstatus =>
    rw [htasks] at ht'
    obtain ⟨file, hfile, rfl⟩ := List.mem_map.1 ht'
    exact .inr (.inr ⟨hpc, hstatus, rfl, hfile⟩)
  | complete _ _ _ _ htasks => exact .inl (htasks ▸ ht')
  | announce _ _ _ _ _ htasks => exact .inl (htasks ▸ ht')
  | broadcast _ _ _ _ htasks => exact .inl (htasks ▸ ht')
  | sent _ _ _ htasks => exact .inl (htasks ▸ ht')

/-- The file tasks have been spawned, and the run goes on. -/
def Pc.late (pc : Pc) : Bool := pc ≠ .idle && !pc.early

theorem Pc.late_ne_idle {pc : Pc} (h : pc.late = true) : pc ≠ .idle := by
  rintro rfl
  exact absurd h Bool.false_ne_true

theorem Pc.late_not_early {pc : Pc} (h : pc.late = true) : pc.early = false := by
  simpa [Pc.late] using (Bool.and_eq_true_iff.1 h).2

theorem Pc.late_ne_downloaded {pc : Pc} (h : pc.late = true) : pc ≠ .downloaded := by
  rintro rfl
  exact absurd h Bool.false_ne_true

/-- A run whose tasks have been spawned had them spawned before or has just done it. -/
theorem Moves.late_cases (h : Moves s a s') (hlate : s'.run.pc.late = true) :
    (s.run.pc.late = true ∧ SameRegs s s') ∨ (s.run.pc = .downloaded ∧
      s'.run.processingStartedAt = s'.marker.processingPhase.startedAt.getD s.run.startedAt ∧
      s'.marker.processingPhase.status ≠ .pending) := by
  cases h with
  | stay hpc hregs => exact .inl ⟨hpc ▸ hlate, hregs⟩
  | stop hpc => exact absurd hpc (Pc.late_ne_idle hlate)
  | start _ hpc => simp [hpc, Pc.late, Pc.early] at hlate
  | early _ hpc => simp [hpc, Pc.late] at hlate
  | spawn hpc _ _ _ hstarted hstatus => exact .inr ⟨hpc, hstarted, hstatus⟩
  | complete hpc _ _ hregs => exact .inl ⟨by rcases hpc with hpc | ⟨hpc, -⟩ <;> rw [hpc] <;> rfl, hregs⟩
  | announce hpc _ _ _ hregs => exact .inl ⟨by rw [hpc]; rfl, hregs⟩
  | broadcast hpc _ _ hregs => exact .inl ⟨by rw [hpc]; rfl, hregs⟩
  | sent hpc _ hregs => exact .inl ⟨by rw [hpc]; rfl, hregs⟩

theorem early_tasks_step (h : s.run.pc.early = true → s.run.tasks = []) (hs : step cfg s a = some s')
    (hpc' : s'.run.pc.early = true) : s'.run.tasks = [] := by
  cases step_moves hs with
  | stay hpc _ htasks =>
    have hnone := h (hpc ▸ hpc')
    cases htasks with
    | same htasks => rw [htasks, hnone]
    | moved ht => simp [hnone] at ht
  | stop hpc => simp [hpc, Pc.early] at hpc'
  | start _ _ htasks _ => exact htasks
  | early hpc _ _ htasks => rw [htasks, h hpc]
  | spawn _ _ _ hpc =>
    obtain ⟨-, htasks⟩ | hpc := hpc
    · exact htasks
    · simp [hpc, Pc.early] at hpc'
  | complete _ hpc => simp [hpc, Pc.early] at hpc'
  | announce _ _ _ hpc => simp [hpc, Pc.early] at hpc'
  | broadcast _ hpc => simp [hpc, Pc.early] at hpc'
  | sent _ hpc => simp [hpc, Pc.early] at hpc'

theorem early_tasks {ok : State β → Action β → Prop} {disk : String → Option β}
    {metadata : Table String TrustedFile} {found : List (String × StateMarker)}
    (h : Machine.Reach (step cfg) ok (State.init disk metadata found) s) (hpc : s.run.pc.early = true) :
    s.run.tasks = [] := by
  revert hpc
  refine h.invariant (I := fun s => s.run.pc.early = true → s.run.tasks = []) (fun _ => rfl) ?_
  intro s a s' hI _ hs hpc'
  exact early_tasks_step hI hs hpc'

theorem TaskStep.now {i : Nat} {t : Task} {action : TaskAction} (h : TaskStep cfg s i t action s') :
    s'.now = s.now ∨ s'.now = (s.clock, s.shutdown, s.nextAttempt + 1) := by
  cases h with
  | start => exact .inr (by rw [State.setTask_now, State.save_now, State.openEntry_now])
  | checkpoint => exact .inl (by rw [State.save_now, State.update_now])
  | completeFile => exact .inl (by rw [State.setTask_now, State.save_now, State.credit_now, State.update_now])
  | _ => exact .inl rfl

/-- Time goes on, attempts are numbered upwards, and only a crash makes a shutdown request void. -/
theorem step_now (h : step cfg s a = some s') : s.clock ≤ s'.clock ∧ s.nextAttempt ≤ s'.nextAttempt ∧
    (s.shutdown = true → s'.shutdown = true ∨ s'.run.tasks = []) := by
  suffices hnow : s'.now = s.now ∨ s'.now = (s.clock, s.shutdown, s.nextAttempt + 1) ∨
      (s.clock ≤ s'.clock ∧ s'.nextAttempt = s.nextAttempt ∧
        (s'.shutdown = s.shutdown ∨ s'.shutdown = true ∨ s'.run.tasks = [])) by
    simp only [State.now, Prod.mk.injEq] at hnow
    obtain ⟨hclock, hdown, hnext⟩ | ⟨hclock, hdown, hnext⟩ | ⟨hclock, hnext, hdown⟩ := hnow
    · exact ⟨hclock.ge, hnext.ge, fun h => .inl (hdown.trans h)⟩
    · exact ⟨hclock.ge, hnext ▸ Nat.le_succ _, fun h => .inl (hdown.trans h)⟩
    · refine ⟨hclock, hnext.ge, fun h => ?_⟩
      obtain hdown | hdown := hdown
      · exact .inl (hdown.trans h)
      · exact hdown
  cases Step.of_step h with
  | tick => exact .inr (.inr ⟨Nat.le_add_right .., rfl, .inl rfl⟩)
  | requestShutdown => exact .inr (.inr ⟨le_rfl, rfl, .inr (.inl rfl)⟩)
  | crash => exact .inr (.inr ⟨le_rfl, rfl, .inr (.inr rfl)⟩)
  | alreadyHave saved => exact .inl ((State.advance_now ..).trans (recordDownload_now ..))
  | recordFile saved => exact .inl ((State.advance_now ..).trans (recordDownload_now ..))
  | recordStaged => exact .inl ((State.finishStaged_now ..).trans (recordStaged_now ..))
  | recordStagedFailed => exact .inl ((State.goto_now ..).trans (recordStaged_now ..))
  | prepareFailed saved => exact .inl (openProcessing_now saved)
  | prepare saved => exact .inl (openProcessing_now saved)
  | task ht htask => exact htask.now.imp_right .inl
  | _ => exact .inl rfl

end DiscogsIngestion.Session
