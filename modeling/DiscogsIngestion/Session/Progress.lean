import DiscogsIngestion.Session.Completion

/-!
# Finished work stays finished

* `Ordinary` : runs that are not forced, find a readable marker and list no file twice;
* `Lists`, `lists_step` : no file is downloaded twice in such a run;
* `Stale` : bytes of a finished file were verified that are not the ones it was processed from;
* `Keeps`, `keeps_step` : the invariant that ties the marker files to the marker in memory;
* `keepsProgress` : a finished file is finished in every later marker file, unless its bytes have changed, and no
  marker with a finished file is thrown away.
-/

namespace DiscogsIngestion.Session

open StateMarker

variable {β : Type} {cfg : Config β} {s s' : State β} {a : Action β} {file : String}

/-- Runs are not forced, and markers can be read. -/
def Unforced (_ : State β) : Action β → Prop
  | .begin _ force _ readable => force = false ∧ readable = true
  | _ => True

/-- The files of a run have different names besides. -/
def Ordinary (_ : State β) : Action β → Prop
  | .begin _ force latest readable => force = false ∧ readable = true ∧ latest.Nodup
  | _ => True

/-! ## The files of a run -/

/-- No file is in the lists of a run twice. -/
structure Lists (s : State β) : Prop where
  latest : s.run.latest.Nodup
  visited : (s.run.downloaded ++ s.run.todo).Nodup
  fresh : s.run.pc = .starting ∨ s.run.pc = .staged → s.run.downloaded = [] ∧ s.run.todo = []

def Run.lists (r : Run) : List String × List String × List String := (r.latest, r.downloaded, r.todo)

theorem Lists.keep (h : Lists s) (hlists : s'.run.lists = s.run.lists)
    (hpc : s'.run.pc = .starting ∨ s'.run.pc = .staged → s.run.pc = .starting ∨ s.run.pc = .staged) : Lists s' := by
  simp only [Run.lists, Prod.mk.injEq] at hlists
  obtain ⟨hlatest, hdownloaded, htodo⟩ := hlists
  refine ⟨hlatest ▸ h.latest, ?_, fun hp => ?_⟩
  · rw [hdownloaded, htodo]
    exact h.visited
  · rw [hdownloaded, htodo]
    exact h.fresh (hpc hp)

theorem Lists.advance (h : Lists s) {base : State β} (hbase : SameButMarker s.run base.run) {file : String}
    {rest : List String} (htodo : s.run.todo = file :: rest) : Lists (base.advance file rest) := by
  obtain ⟨m, hrun⟩ := hbase
  refine ⟨?_, ?_, fun hpc => absurd hpc (by simp [State.advance])⟩
  · show base.run.latest.Nodup
    rw [hrun]
    exact h.latest
  · show ((base.run.downloaded ++ [file]) ++ rest).Nodup
    rw [hrun, List.append_assoc]
    exact htodo ▸ h.visited

theorem Lists.finishStaged (h : Lists s) {base : State β} (hbase : SameButMarker s.run base.run)
    (hpc : s.run.pc = .staged) (file : String) : Lists (base.finishStaged file) := by
  obtain ⟨m, hrun⟩ := hbase
  refine ⟨?_, ?_, fun hpc => absurd hpc (by simp [State.finishStaged])⟩
  · show base.run.latest.Nodup
    rw [hrun]
    exact h.latest
  · show ([file] ++ base.run.todo).Nodup
    have htodo : base.run.todo = [] := by
      rw [hrun]
      exact (h.fresh (.inr hpc)).2
    rw [htodo]
    exact List.nodup_singleton file

theorem SameButMarker.lists {base : State β} (h : SameButMarker s.run base.run) : base.run.lists = s.run.lists := by
  obtain ⟨m, h⟩ := h
  rw [h]
  rfl

theorem State.goto_lists (pc : Pc) : (s.goto pc).run.lists = s.run.lists := rfl

theorem State.setTask_lists (i : Nat) (t : Task) : (s.setTask i t).run.lists = s.run.lists := rfl

theorem State.save_lists (ok : Bool) : (s.save ok).run.lists = s.run.lists := rfl

theorem State.update_lists (f : StateMarker → StateMarker) : (s.update f).run.lists = s.run.lists := rfl

theorem State.credit_lists (file : String) (attempt : Nat) : (s.credit file attempt).run.lists = s.run.lists := rfl

theorem State.openEntry_lists (file : String) : (s.openEntry file).run.lists = s.run.lists := rfl

theorem TaskStep.lists {i : Nat} {t : Task} {action : TaskAction} (h : TaskStep cfg s i t action s') :
    s'.run.lists = s.run.lists := by
  cases h with
  | start => rw [State.setTask_lists, State.save_lists, State.openEntry_lists]
  | checkpoint => rw [State.save_lists, State.update_lists]
  | completeFile => rw [State.setTask_lists, State.save_lists, State.credit_lists, State.update_lists]
  | _ => rfl

def NoTwice (_ : State β) : Action β → Prop
  | .begin _ _ latest _ => latest.Nodup
  | _ => True

theorem Ordinary.noTwice (h : Ordinary s a) : NoTwice s a := by
  cases a with
  | begin => exact h.2.2
  | _ => trivial

theorem lists_step (h : Lists s) (hok : NoTwice s a) (hs : step cfg s a = some s') : Lists s' := by
  cases Step.of_step hs with
  | beginReprocess => exact ⟨hok, List.nodup_nil, fun _ => ⟨rfl, rfl⟩⟩
  | beginContinue => exact ⟨hok, List.nodup_nil, fun _ => ⟨rfl, rfl⟩⟩
  | startDownload _ _ hpc =>
    refine ⟨h.latest, ?_, fun hpc' => absurd hpc' (by simp [State.enterLoop])⟩
    show (s.run.downloaded ++ s.run.latest).Nodup
    rw [(h.fresh (.inl hpc)).1]
    exact h.latest
  | alreadyHave saved _ htodo => exact h.advance (recordDownload_run _ _ saved) htodo
  | recordFile saved _ htodo => exact h.advance (recordDownload_run _ _ saved) htodo
  | recordStaged hpc => exact h.finishStaged (recordStaged_run _ _ _ true) hpc _
  | recordStagedFailed =>
    exact h.keep ((State.goto_lists ..).trans (recordStaged_run _ _ _ false).lists)
      fun hpc => absurd hpc (by simp [State.goto])
  | @attemptFailed _ n =>
    refine h.keep rfl fun hpc => ?_
    by_cases hn : n < maxDownloadRetries <;> simp [State.goto, hn] at hpc
  | stage _ hpc => exact h.keep rfl fun _ => .inl hpc
  | prepareFailed saved =>
    exact h.keep (openProcessing_run saved).lists fun hpc => absurd hpc (by simp [State.goto])
  | prepare saved =>
    refine h.keep (openProcessing_run saved).lists fun hpc => ?_
    simp only [spawn] at hpc
    split_ifs at hpc <;> simp at hpc
  | task ht htask => exact h.keep htask.lists fun hpc => htask.pc ▸ hpc
  | completeAll saved => exact h.keep rfl fun hpc => absurd hpc (by cases saved <;> simp [State.goto])
  | joinOk saved => exact h.keep rfl fun hpc => absurd hpc (by cases saved <;> simp [State.goto])
  | @endBroadcast sent => exact h.keep rfl fun hpc => absurd hpc (by cases sent <;> simp [State.goto])
  | tick => exact h.keep rfl id
  | requestShutdown => exact h.keep rfl id
  | changeFile => exact h.keep rfl id
  | changeMetadata => exact h.keep rfl id
  | beginSkip => exact h.keep rfl id
  | _ => exact h.keep rfl fun hpc => absurd hpc (by simp [State.goto, State.receive, State.reject])

/-! ## The marker in memory -/

/-- The run has a marker in memory that it may go on with. -/
def State.Busy (s : State β) : Prop := s.run.pc ≠ .idle ∨ s.run.tasks ≠ []

theorem State.Live.busy (h : s.Live) : s.Busy := by
  obtain hpc | ⟨t, ht, -⟩ := h
  · exact .inl hpc
  · exact .inr (List.ne_nil_of_mem ht)

/-- A run that is busy has just started, or was busy before with the same version. -/
theorem Moves.busy_cases (h : Moves s a s') (hbusy : s.Busy ∨ s'.Busy) :
    Starts s a s' ∨ s.Busy ∧ s'.run.version = s.run.version := by
  cases h with
  | stay hpc hregs htasks =>
    refine .inr ⟨?_, hregs.version⟩
    obtain hbusy | hp | ht := hbusy
    · exact hbusy
    · exact .inl (hpc ▸ hp)
    · cases htasks with
      | same heq => exact .inr (heq ▸ ht)
      | moved ht => exact .inr (List.ne_nil_of_mem (List.mem_of_getElem? ht))
  | stop hpc hversion htasks =>
    refine .inr ⟨?_, hversion⟩
    obtain hbusy | hp | ht := hbusy
    · exact hbusy
    · exact absurd hpc hp
    · obtain heq | hnone := htasks
      · exact .inr (heq ▸ ht)
      · exact absurd hnone ht
  | start _ _ _ hstarts => exact .inl hstarts
  | early hpc _ hregs =>
    refine .inr ⟨.inl ?_, hregs.version⟩
    rintro hidle
    simp [hidle, Pc.early] at hpc
  | spawn hpc hversion => exact .inr ⟨.inl (by simp [hpc]), hversion⟩
  | complete hpc _ _ hregs => exact .inr ⟨.inl (by rcases hpc with hpc | ⟨hpc, -⟩ <;> simp [hpc]), hregs.version⟩
  | announce hpc _ _ _ hregs => exact .inr ⟨.inl (by simp [hpc]), hregs.version⟩
  | broadcast hpc _ _ hregs => exact .inr ⟨.inl (by simp [hpc]), hregs.version⟩
  | sent hpc _ hregs => exact .inr ⟨.inl (by simp [hpc]), hregs.version⟩

theorem completed_of_reprocess {m : StateMarker} (h : m.shouldProcess = .reprocess) (file : String) :
    m.isCompleted file = false := by
  by_contra hno
  have hpos : 0 < m.completedFileCount := completedFileCount_pos.2 ⟨file, by simpa using hno⟩
  simp only [shouldProcess, hpos, if_true] at h
  split_ifs at h

theorem Ordinary.unforced (h : Ordinary s a) : Unforced s a := by
  cases a with
  | begin => exact ⟨h.1, h.2.1⟩
  | _ => trivial

/-- A run that is not forced starts with what it finds, if a file is finished there. -/
theorem Starts.marker_eq (h : Starts s a s') (hok : Unforced s a) {tracked : Tracked}
    (hm : s.markers s'.run.version = some tracked) {file : String} (hfile : tracked.marker.isCompleted file = true) :
    s'.marker = tracked.marker := by
  cases h with
  | found hfound _ hversion hmarker =>
    rw [hversion, hfound] at hm
    rw [hmarker, Option.some.inj hm]
  | fresh ha hwhy hversion =>
    subst ha
    obtain ⟨rfl, rfl⟩ := hok
    obtain hno | hno | hreprocess := hwhy
    · cases hno
    · cases hno
    · rw [completed_of_reprocess (hreprocess tracked (hversion ▸ hm)) file] at hfile
      cases hfile

/-- The bytes of a finished file were verified, and they are not those that it was processed from. -/
def Stale (version file : String) (log : List (Event β)) : Prop :=
  ∃ checksum processed, .bytesVerified version file checksum (some processed) ∈ log ∧ processed ≠ checksum

/-- Tasks that have yet to start are for files that are not finished, and no file has two tasks. -/
structure Waiting (s : State β) : Prop where
  waiting : ∀ t ∈ s.run.tasks, t.pc.waiting = true → s.marker.isCompleted t.file = false
  once : (s.run.tasks.map (·.file)).Nodup

theorem Advance.completed (h : Advance s a s') (hstart : Starts s a s' → s'.marker.isCompleted file = true)
    (hwaiting : Waiting s) (hfile : s.marker.isCompleted file = true) :
    s'.marker.isCompleted file = true ∨
      ∃ rest checksum processed, s'.log = s.log ++
        .bytesVerified s.run.version file checksum (some processed) :: rest ∧ processed ≠ checksum := by
  cases h with
  | keep hsame => exact .inl (hsame.isCompleted ▸ hfile)
  | start _ _ hstarts => exact .inl (hstart hstarts)
  | @requeue f checksum rest _ hstale hrequeue hlog =>
    by_cases hf : file = f
    · obtain ⟨processed, hprocessed, hne⟩ := hstale
      rw [hprocessed] at hlog
      exact .inr ⟨rest, checksum, processed, hf ▸ hlog, hne⟩
    · rw [hrequeue.isCompleted, if_neg hf]
      exact .inl hfile
  | startProcessing _ _ hchange => exact .inl (hchange.isCompleted ▸ hfile)
  | @startFile i t ht hpc hchange =>
    by_cases hf : file = t.file
    · rw [hf, hwaiting.waiting t (List.mem_of_getElem? ht) (by rw [hpc]; rfl)] at hfile
      cases hfile
    · exact .inl ((hchange.isCompleted_of_ne hf).trans hfile)
  | count _ _ _ _ hchange =>
    rw [hchange.isCompleted, isCompleted_countedEntry]
    split_ifs with hf
    · exact .inl (hf ▸ hfile)
    · exact .inl hfile
  | completeFile _ _ hchange =>
    rw [hchange.isCompleted]
    split_ifs with hf
    · obtain ⟨status, hstatus, -⟩ := isCompleted_iff.1 hfile
      rw [← hf, hstatus]
      exact .inl rfl
    · exact .inl hfile
  | completeProcessing _ hchange => exact .inl (hchange.isCompleted ▸ hfile)
  | completeExtraction _ hchange => exact .inl (hchange.isCompleted ▸ hfile)

/-! ## Tasks that wait -/

theorem Advance.completed_cases (h : Advance s a s') (htasks' : s'.run.tasks ≠ [])
    (hfile : s'.marker.isCompleted file = true) :
    s.marker.isCompleted file = true ∨ ∃ t ∈ s.run.tasks, t.file = file ∧ t.pc.waiting = false := by
  cases h with
  | keep hsame => exact .inl (hsame.isCompleted ▸ hfile)
  | start _ hnone => exact absurd hnone htasks'
  | requeue _ _ hrequeue =>
    rw [hrequeue.isCompleted] at hfile
    split_ifs at hfile
    exact .inl hfile
  | startProcessing _ _ hchange => exact .inl (hchange.isCompleted ▸ hfile)
  | startFile _ _ hchange =>
    rw [hchange.isCompleted] at hfile
    split_ifs at hfile with hf
    · exact absurd hfile Bool.false_ne_true
    · exact .inl hfile
  | count _ _ _ _ hchange =>
    rw [hchange.isCompleted, isCompleted_countedEntry] at hfile
    split_ifs at hfile with hf
    · exact .inl (hf ▸ hfile)
    · exact .inl hfile
  | completeFile ht hpc hchange =>
    rw [hchange.isCompleted] at hfile
    split_ifs at hfile with hf
    · exact .inr ⟨_, List.mem_of_getElem? ht, hf.symm, by rw [hpc]; rfl⟩
    · exact .inl hfile
  | completeProcessing _ hchange => exact .inl (hchange.isCompleted ▸ hfile)
  | completeExtraction _ hchange => exact .inl (hchange.isCompleted ▸ hfile)

theorem Waiting.waiting_step (h : Waiting s) (hs : step cfg s a = some s') {t' : Task} (ht' : t' ∈ s'.run.tasks)
    (hpc : t'.pc.waiting = true) : s'.marker.isCompleted t'.file = false := by
  have hkept : ∀ t ∈ s.run.tasks, t.pc.waiting = true → s'.marker.isCompleted t.file = false := by
    intro t ht hwaiting
    by_contra hno
    obtain hold | ⟨t₂, ht₂, hfile, hpc₂⟩ :=
      (step_advance hs).completed_cases (List.ne_nil_of_mem ht') (by simpa using hno)
    · simp [h.waiting t ht hwaiting] at hold
    · obtain rfl := List.inj_on_of_nodup_map h.once ht₂ ht hfile
      simp [hwaiting] at hpc₂
  obtain hold | ⟨t, ht, hfile, hmove⟩ | ⟨-, -, -, hpending⟩ := (step_moves hs).task_cases ht'
  · exact hkept t' hold hpc
  · rw [hfile]
    cases hmove with
    | skip _ hpc' => simp [hpc', TaskPc.waiting] at hpc
    | start _ hpc' => rcases hpc' with hpc' | hpc' <;> simp [hpc', TaskPc.waiting] at hpc
    | announce _ hpc' => simp [hpc', TaskPc.waiting] at hpc
    | finish _ hpc' => simp [hpc', TaskPc.waiting] at hpc
    | goOn _ _ hwaiting => exact hkept t ht (hwaiting hpc)
  · exact (mem_pendingFiles.1 hpending).2

theorem map_file_set {tasks : List Task} {i : Nat} {t t' : Task} (ht : tasks[i]? = some t) (hfile : t'.file = t.file) :
    (tasks.set i t').map (·.file) = tasks.map (·.file) := by
  obtain ⟨hi, rfl⟩ := List.getElem?_eq_some_iff.1 ht
  rw [List.map_set, hfile]
  exact List.ext_getElem (by simp) fun j _ _ => by
    rw [List.getElem_set]
    split_ifs with hij
    · subst hij
      simp
    · rfl

/-- The files of the tasks stay the same, unless the tasks are gone or have just been spawned. -/
theorem Moves.files (h : Moves s a s') : s'.run.tasks.map (·.file) = s.run.tasks.map (·.file) ∨ s'.run.tasks = [] ∨
    (s.run.pc = .downloaded ∧ s'.run.tracked.dataFiles = s.run.downloaded.filter (fun file => !isChecksum file) ∧
      s'.run.tasks.map (·.file) = s'.marker.pendingFiles s'.run.tracked.dataFiles) := by
  have hsame : s'.run.tasks = s.run.tasks → s'.run.tasks.map (·.file) = s.run.tasks.map (·.file) :=
    fun heq => by rw [heq]
  cases h with
  | stay _ _ htasks =>
    cases htasks with
    | same heq => exact .inl (hsame heq)
    | moved ht heq _ hfile => exact .inl (by rw [heq, map_file_set ht hfile])
  | stop _ _ htasks => exact htasks.imp hsame .inl
  | start _ _ hnone => exact .inr (.inl hnone)
  | early _ _ _ heq => exact .inl (hsame heq)
  | spawn hpc _ htasks _ _ _ hfiles =>
    refine .inr (.inr ⟨hpc, hfiles, ?_⟩)
    rw [htasks, List.map_map]
    exact List.map_id' _
  | complete _ _ _ _ heq => exact .inl (hsame heq)
  | announce _ _ _ _ _ heq => exact .inl (hsame heq)
  | broadcast _ _ _ _ heq => exact .inl (hsame heq)
  | sent _ _ _ heq => exact .inl (hsame heq)

theorem waiting_step (h : Waiting s) (hlists : Lists s) (hs : step cfg s a = some s') : Waiting s' where
  waiting _ ht := h.waiting_step hs ht
  once := by
    obtain hsame | hnone | ⟨-, hfiles, hspawned⟩ := (step_moves hs).files
    · rw [hsame]
      exact h.once
    · rw [hnone]
      exact List.nodup_nil
    · rw [hspawned, hfiles]
      exact (hlists.visited.of_append_left.filter _).filter _

/-! ## What is kept -/

/-- A file finished in a saved marker is finished in the marker file and in memory, unless its bytes have changed. -/
def Keeps (s : State β) : Prop :=
  ∀ pre version tracked mid file, s.log = pre ++ .saved version tracked :: mid →
    tracked.marker.isCompleted file = true → Stale version file mid ∨
      ((∃ durable, s.markers version = some durable ∧ durable.marker.isCompleted file = true) ∧
        (s.Busy → s.run.version = version → s.marker.isCompleted file = true))

theorem Stale.append {version : String} {mid : List (Event β)} (h : Stale version file mid) (new : List (Event β)) :
    Stale version file (mid ++ new) := by
  obtain ⟨checksum, processed, hmem, hne⟩ := h
  exact ⟨checksum, processed, List.mem_append_left _ hmem, hne⟩

/-- What was finished on disk and in memory is still finished in memory, unless its bytes have just changed. -/
theorem completed_step (hok : Ordinary s a) (hwaiting : Waiting s) (hs : step cfg s a = some s') {version : String}
    {new : List (Event β)} (hlog : s'.log = s.log ++ new)
    (hdisk : ∃ durable, s.markers version = some durable ∧ durable.marker.isCompleted file = true)
    (hmemory : s.Busy → s.run.version = version → s.marker.isCompleted file = true)
    (hbusy : s.Busy ∨ s'.Busy) (hversion : s'.run.version = version) :
    s'.marker.isCompleted file = true ∨ Stale version file new := by
  obtain ⟨durable, hm, hfile⟩ := hdisk
  subst hversion
  have hstart : Starts s a s' → s'.marker.isCompleted file = true := fun h => by
    rw [h.marker_eq hok.unforced hm hfile, hfile]
  obtain hstarts | ⟨hold, hsame⟩ := (step_moves hs).busy_cases hbusy
  · exact .inl (hstart hstarts)
  · obtain hkept | ⟨rest, checksum, processed, hnew, hne⟩ :=
      (step_advance hs).completed hstart hwaiting (hmemory hold hsame.symm)
    · exact .inl hkept
    · obtain rfl := List.append_cancel_left (hlog.symm.trans hnew)
      exact .inr ⟨checksum, processed, hsame ▸ List.mem_cons_self .., hne⟩

theorem keeps_step (h : Keeps s) (hok : Ordinary s a) (hwaiting : Waiting s) (hs : step cfg s a = some s') :
    Keeps s' := by
  intro pre version tracked mid file hsplit hfile
  obtain ⟨rest, new, hold, rfl, hlog⟩ | ⟨-, rfl, -, rfl, -, hm, -⟩ := (step_logs hs).saved_cases hsplit
  · obtain hstale | ⟨hdisk, hmemory⟩ := h pre version tracked rest file hold hfile
    · exact .inl (hstale.append new)
    · have hnow := completed_step hok hwaiting hs hlog hdisk hmemory
      by_cases hstale : Stale version file new
      · obtain ⟨checksum, processed, hmem, hne⟩ := hstale
        exact .inl ⟨checksum, processed, List.mem_append_right _ hmem, hne⟩
      · refine .inr ⟨?_, fun hbusy hv => (hnow (.inr hbusy) hv).resolve_right hstale⟩
        cases step_logs hs with
        | quiet _ _ _ hmarkers => exact hmarkers ▸ hdisk
        | saving _ _ _ hmarkers hlive =>
          rw [hmarkers, Function.update_apply]
          split_ifs with hv
          · exact ⟨_, rfl, (hnow (.inl hlive.busy) hv.symm).resolve_right hstale⟩
          · exact hdisk
  · exact .inr ⟨⟨_, hm, hfile⟩, fun _ _ => hfile⟩

/-- This is what a version's marker file holds, by the log. -/
def LastSaved (log : List (Event β)) (version : String) : Option Tracked → Prop
  | some durable => ∃ pre post, log = pre ++ .saved version durable :: post ∧ ∀ tracked, .saved version tracked ∉ post
  | none => ∀ tracked, .saved version tracked ∉ log

theorem LastSaved.append {log new : List (Event β)} {version : String} {file : Option Tracked}
    (h : LastSaved log version file) (hnew : ∀ tracked, .saved version tracked ∉ new) :
    LastSaved (log ++ new) version file := by
  cases file with
  | none => exact fun tracked hmem => (List.mem_append.1 hmem).elim (h tracked) (hnew tracked)
  | some durable =>
    obtain ⟨pre, post, rfl, hlast⟩ := h
    refine ⟨pre, post ++ new, by simp, fun tracked hmem => ?_⟩
    exact (List.mem_append.1 hmem).elim (hlast tracked) (hnew tracked)

theorem lastSaved_step (h : ∀ version, LastSaved s.log version (s.markers version)) (hs : step cfg s a = some s')
    (version : String) : LastSaved s'.log version (s'.markers version) := by
  cases step_logs hs with
  | quiet new hlog hnew hmarkers =>
    rw [hlog, hmarkers]
    exact (h version).append fun tracked hmem => (hnew _ hmem).not_saved
  | saving new hlog hnew hmarkers =>
    have hold := (h version).append fun tracked hmem => (hnew _ hmem).not_saved
    rw [hlog, hmarkers, Function.update_apply]
    split_ifs with hv
    · exact ⟨s.log ++ new, [], by rw [hv], by simp⟩
    · exact hold.append fun tracked hmem => hv (Event.saved.inj (List.mem_singleton.1 hmem)).1

/-- Finished files stay finished, and no marker that has one is thrown away. -/
structure KeepsProgress (s : State β) : Prop where
  durable (version : String) : LastSaved s.log version (s.markers version)
  /-- A file finished in a marker file is finished in every later one, unless bytes of it were verified that are
  not those it was processed from. -/
  completed {pre mid post : List (Event β)} {version file : String} {earlier later : Tracked} :
    s.log = pre ++ .saved version earlier :: mid ++ .saved version later :: post →
    earlier.marker.isCompleted file = true → later.marker.isCompleted file = true ∨ Stale version file mid
  reprocess {version : String} {latest : List String} {loaded : Tracked} :
    .decided version .reprocess latest loaded ∈ s.log → ∀ file, loaded.marker.isCompleted file = false

/-- What the proof of `keepsProgress` carries. -/
structure Progressing (s : State β) : Prop where
  lists : Lists s
  waiting : Waiting s
  keeps : Keeps s
  progress : KeepsProgress s

theorem Stale.of_saved {version file v : String} {tracked : Tracked} {mid : List (Event β)}
    (h : Stale version file (mid ++ [.saved v tracked])) : Stale version file mid := by
  obtain ⟨checksum, processed, hmem, hne⟩ := h
  obtain hmem | hmem := List.mem_append.1 hmem
  · exact ⟨checksum, processed, hmem, hne⟩
  · cases List.mem_singleton.1 hmem

theorem keepsProgress_step (h : KeepsProgress s) (hkeeps : Keeps s') (hs : step cfg s a = some s') :
    KeepsProgress s' where
  durable := lastSaved_step h.durable hs
  completed {pre mid post version file earlier later} hsplit hfile := by
    obtain ⟨rest, new, hold, -, -⟩ | ⟨-, -, -, -, rfl, hm, -⟩ := (step_logs hs).saved_cases hsplit
    · exact h.completed hold hfile
    · rw [List.append_assoc, List.cons_append] at hsplit
      obtain hstale | ⟨⟨durable, hdurable, hkept⟩, -⟩ := hkeeps _ _ _ _ _ hsplit hfile
      · exact .inr hstale.of_saved
      · obtain rfl := Option.some.inj (hdurable.symm.trans hm)
        exact .inl hkept
  reprocess {version latest loaded} he := by
    obtain hold | hnew | hsaved := (step_logs hs).mem_cases he
    · exact h.reprocess hold
    · obtain ⟨_, _, _, -, -, -, hdec⟩ := NewEvent.decided_iff.1 hnew
      exact completed_of_reprocess hdec.symm
    · cases hsaved

theorem progressing_step (h : Progressing s) (hok : Ordinary s a) (hs : step cfg s a = some s') :
    Progressing s' where
  lists := lists_step h.lists hok.noTwice hs
  waiting := waiting_step h.waiting h.lists hs
  keeps := keeps_step h.keeps hok h.waiting hs
  progress := keepsProgress_step h.progress (keeps_step h.keeps hok h.waiting hs) hs

section Init

variable {disk : String → Option β} {metadata : Table String TrustedFile} {found : List (String × StateMarker)}

theorem saved_init {pre mid : List (Event β)} {version : String} {tracked : Tracked}
    (h : (State.init disk metadata found).log = pre ++ .saved version tracked :: mid) :
    ∃ before after marker, found = before ++ (version, marker) :: after ∧ tracked = ⟨marker, [], fun _ => 0⟩ ∧
      mid = after.map fun entry => .saved entry.1 ⟨entry.2, [], fun _ => 0⟩ := by
  obtain ⟨before, rest, rfl, -, hrest⟩ := List.map_eq_append_iff.1 h
  obtain ⟨⟨v, marker⟩, after, rfl, hevent, hafter⟩ := List.map_eq_cons_iff.1 hrest
  obtain ⟨rfl, rfl⟩ := Event.saved.inj hevent
  exact ⟨before, after, marker, rfl, rfl, hafter.symm⟩

theorem lookup_of_split {before after : List (String × StateMarker)} {version : String} {marker : StateMarker}
    (hfound : ((before ++ (version, marker) :: after).map Prod.fst).Nodup) :
    (before ++ (version, marker) :: after).lookup version = some marker := by
  induction before with
  | nil => simp
  | cons entry before ih =>
    simp only [List.cons_append, List.map_cons, List.nodup_cons] at hfound
    have hne : version ≠ entry.1 := by
      rintro rfl
      exact hfound.1 (by simp)
    rw [List.cons_append, List.lookup_cons, beq_eq_false_iff_ne.2 hne]
    exact ih hfound.2

theorem version_of_saved {after : List (String × StateMarker)} {version : String} {tracked : Tracked}
    (h : Event.saved (β := β) version tracked ∈ after.map fun entry => .saved entry.1 ⟨entry.2, [], fun _ => 0⟩) :
    version ∈ after.map Prod.fst := by
  obtain ⟨entry, hmem, hevent⟩ := List.mem_map.1 h
  exact List.mem_map.2 ⟨entry, hmem, (Event.saved.inj hevent).1⟩

theorem lastSaved_init (hfound : (found.map Prod.fst).Nodup) (version : String) :
    LastSaved (State.init disk metadata found).log version ((State.init disk metadata found).markers version) := by
  by_cases hmem : version ∈ found.map Prod.fst
  · obtain ⟨⟨v, marker⟩, hentry, rfl⟩ := List.mem_map.1 hmem
    obtain ⟨before, after, rfl⟩ := List.append_of_mem hentry
    have hlookup := lookup_of_split hfound
    simp only [State.init, hlookup, Option.map_some, List.map_append, List.map_cons]
    refine ⟨_, _, rfl, fun tracked hsaved => ?_⟩
    have hlater := version_of_saved hsaved
    simp only [List.map_append, List.map_cons] at hfound
    exact (List.nodup_cons.1 hfound.of_append_right).1 hlater
  · have hnone : found.lookup version = none := by
      refine List.lookup_eq_none_iff.2 fun entry hentry => ?_
      refine bne_iff_ne.2 fun heq => hmem (List.mem_map.2 ⟨entry, hentry, heq.symm⟩)
    simp only [State.init, hnone, Option.map_none]
    exact fun tracked hsaved => hmem (version_of_saved hsaved)

theorem progressing_init (hfound : (found.map Prod.fst).Nodup) :
    Progressing (State.init disk metadata found) where
  lists := ⟨List.nodup_nil, List.nodup_nil, fun _ => ⟨rfl, rfl⟩⟩
  waiting := ⟨by simp [State.init], List.nodup_nil⟩
  keeps pre version tracked mid file hsplit hfile := by
    obtain ⟨before, after, marker, rfl, rfl, -⟩ := saved_init hsplit
    refine .inr ⟨⟨_, congrArg (Option.map _) (lookup_of_split hfound), hfile⟩, fun hbusy => ?_⟩
    simp [State.Busy, State.init] at hbusy
  progress :=
    { durable := lastSaved_init hfound
      completed := fun {pre mid post version file earlier later} hsplit _ => by
        rw [List.append_assoc, List.cons_append] at hsplit
        obtain ⟨before, after, marker, rfl, -, hafter⟩ := saved_init hsplit
        have hlater : version ∈ after.map Prod.fst :=
          @version_of_saved β after version later (hafter ▸ List.mem_append_right _ (List.mem_cons_self ..))
        simp only [List.map_append, List.map_cons] at hfound
        exact absurd hlater (List.nodup_cons.1 hfound.of_append_right).1
      reprocess := fun he => by simp [State.init] at he }

end Init

/-- In ordinary runs on what an earlier version of the extractor may have left, with crashes anywhere, a finished
file stays finished in every later marker file until other bytes of it have been verified, and only markers without
a finished file are thrown away. Each version has one marker file. -/
theorem keepsProgress {disk : String → Option β} {metadata : Table String TrustedFile}
    {found : List (String × StateMarker)} (hfound : (found.map Prod.fst).Nodup)
    (h : Machine.Reach (step cfg) Ordinary (State.init disk metadata found) s) : KeepsProgress s :=
  (h.invariant (progressing_init hfound) fun _ _ _ h hok hs => progressing_step h hok hs).progress

/-- A local manifest that is processed, and its run killed before the phase is complete; then a second run. -/
def killedRun : List (Action String) :=
  localDownload "discogs_20260101_artists.xml.gz" "dump" ++ processFile 0 2 ++ [.crash] ++
    localDownload "discogs_20260101_artists.xml.gz" "dump" ++ [.completeAll true]

/-- The second run keeps what the first has finished. -/
theorem killedRun_keepsProgress : ∃ s : State String, Machine.Reach (step .plain) Ordinary .empty s ∧
    (s.markers "20260101").any (·.marker.isCompleted "discogs_20260101_artists.xml.gz") = true ∧
      KeepsProgress s := by
  have hrun : (Machine.run (step .plain) .empty killedRun).any (fun s =>
      (s.markers "20260101").any (·.marker.isCompleted "discogs_20260101_artists.xml.gz")) = true := by
    decide +kernel
  obtain ⟨s, hs, hfacts⟩ := (Option.any_eq_true ..).1 hrun
  have hreach : Machine.Reach (step .plain) Ordinary .empty s :=
    Machine.Reach.init.append_run killedRun (by simp [killedRun, localDownload, processFile, Ordinary]) hs
  exact ⟨s, hreach, hfacts, @keepsProgress String _ _ _ _ [] List.nodup_nil hreach⟩

end DiscogsIngestion.Session
