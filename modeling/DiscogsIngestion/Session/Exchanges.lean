import DiscogsIngestion.Session.Completion

/-!
# Exchanges

Each file task declares the exchange of its data type, and the broadcast at the end of a run goes to all four.

* `Exchanges` : what has been declared, and what was published to without, as a history of the runs;
* `exchangeOf`, `declares` : the exchange that a step publishes to, and the one that it declares;
* `coversBroadcast` : each type has a data file in the run that is about to broadcast, or had been declared before;
* `Known`, `known_step` : what a run has started on, finished or announced has been declared;
* `missed_eq_nil` : nothing is published to an undeclared exchange, in all runs that cover their broadcasts;
* `singleFile_missed` : a local manifest on a fresh broker broadcasts to exchanges that no one declared.
-/

namespace DiscogsIngestion.Session

open StateMarker

variable {β : Type} {cfg : Config β} {s s' : State β} {a : Action β}

/-- The exchanges that have been declared, and those that were published to before. -/
structure Exchanges where
  declared : List DataType
  missed : List DataType
  deriving DecidableEq

def State.taskType (s : State β) (i : Nat) : Option DataType := (s.run.tasks[i]?).bind fun t => extractDataType t.file

/-- The exchange that a step publishes to. -/
def exchangeOf (s : State β) : Action β → Option DataType
  | .task i (.publish _) => s.taskType i
  | .task i (.sendFileComplete _) => s.taskType i
  | .broadcast _ =>
    match s.run.pc with
    | .announcing (dt :: _) _ _ => some dt
    | _ => none
  | _ => none

def declares (s : State β) : Action β → Option DataType
  | .task i (.setupExchange true) => s.taskType i
  | _ => none

def Exchanges.note (e : Exchanges) (s : State β) (a : Action β) : Exchanges where
  declared := e.declared ++ (declares s a).toList
  missed := e.missed ++ (exchangeOf s a).toList.filter fun dt => dt ∉ e.declared

/-- When a broadcast begins, each type has a data file in the run or has been declared. -/
def coversBroadcast (x : State β × Exchanges) : Action β → Bool
  | .connect (some _) => DataType.discogs.all fun dt =>
    x.1.run.tracked.dataFiles.any (fun file => extractDataType file = some dt) || decide (dt ∈ x.2.declared)
  | _ => true

/-! ## What has been declared -/

def TaskPc.declared : TaskPc → Bool
  | running | piped _ | announced _ | done | lingering => true
  | _ => false

/-- The exchanges of the finished files of a marker have been declared. -/
def Covers (declared : List DataType) (m : StateMarker) : Prop :=
  ∀ file, m.isCompleted file = true → ∀ dt ∈ extractDataType file, dt ∈ declared

structure Known (s : State β) (e : Exchanges) : Prop where
  memory : Covers e.declared s.marker
  disk : ∀ version tracked, s.markers version = some tracked → Covers e.declared tracked.marker
  tasks : ∀ t ∈ s.run.tasks, t.pc.declared = true → ∀ dt ∈ extractDataType t.file, dt ∈ e.declared
  broadcast : ∀ rest sent counts, s.run.pc = .announcing rest sent counts → ∀ dt ∈ rest, dt ∈ e.declared
  missed : e.missed = []

theorem Covers.mono {declared declared' : List DataType} {m : StateMarker} (h : Covers declared m)
    (hsub : declared ⊆ declared') : Covers declared' m :=
  fun file hfile dt hdt => hsub (h file hfile dt hdt)

theorem covers_new (declared : List DataType) (version : String) (now : DateTime) :
    Covers declared (.new version now) := fun _ hfile => absurd hfile Bool.false_ne_true

theorem declared_subset_note (e : Exchanges) (s : State β) (a : Action β) : e.declared ⊆ (e.note s a).declared :=
  List.subset_append_left _ _

theorem Known.memory_step {e : Exchanges} (h : Known s e) (hs : step cfg s a = some s') :
    Covers e.declared s'.marker := by
  cases step_advance hs with
  | keep hsame => exact fun file hfile => h.memory file (hsame.isCompleted ▸ hfile)
  | start _ _ hstarts =>
    cases hstarts with
    | found hm _ _ hmarker => exact hmarker ▸ h.disk _ _ hm
    | fresh _ _ _ hmarker => exact hmarker ▸ covers_new _ _ _
  | requeue _ _ hrequeue =>
    intro file hfile
    rw [hrequeue.isCompleted] at hfile
    split_ifs at hfile
    exact h.memory file hfile
  | startProcessing _ _ hchange => exact fun file hfile => h.memory file (hchange.isCompleted ▸ hfile)
  | startFile _ _ hchange =>
    intro file hfile
    rw [hchange.isCompleted] at hfile
    split_ifs at hfile
    · exact absurd hfile Bool.false_ne_true
    · exact h.memory file hfile
  | count _ _ _ _ hchange =>
    intro file hfile
    rw [hchange.isCompleted, isCompleted_countedEntry] at hfile
    split_ifs at hfile with hf
    · exact h.memory file (hf ▸ hfile)
    · exact h.memory file hfile
  | @completeFile i t total ht hpc hchange =>
    intro file hfile
    rw [hchange.isCompleted] at hfile
    split_ifs at hfile with hf
    · subst hf
      exact h.tasks t (List.mem_of_getElem? ht) (by rw [hpc]; rfl)
    · exact h.memory file hfile
  | completeProcessing _ hchange => exact fun file hfile => h.memory file (hchange.isCompleted ▸ hfile)
  | completeExtraction _ hchange => exact fun file hfile => h.memory file (hchange.isCompleted ▸ hfile)

theorem TaskStep.declared {i : Nat} {t : Task} {action : TaskAction} (h : TaskStep cfg s i t action s') {t' : Task}
    (ht' : t' ∈ s'.run.tasks) : t' ∈ s.run.tasks ∨
      t'.file = t.file ∧ (t'.pc.declared = true → t.pc.declared = true ∨ action = .setupExchange true) := by
  cases h with
  | published => exact .inl ht'
  | notPublished => exact .inl ht'
  | checkpoint => exact .inl ht'
  | start saved =>
    refine (List.mem_or_eq_of_mem_set ht').imp_right ?_
    rintro rfl
    exact ⟨rfl, by cases saved <;> exact fun hno => absurd hno Bool.false_ne_true⟩
  | completeFile saved hpc =>
    refine (List.mem_or_eq_of_mem_set ht').imp_right ?_
    rintro rfl
    exact ⟨rfl, fun _ => .inl (by rw [hpc]; rfl)⟩
  | _ =>
    refine (List.mem_or_eq_of_mem_set ht').imp_right ?_
    rintro rfl
    simp_all [TaskPc.declared]

theorem Known.tasks_step {e : Exchanges} (h : Known s e) (hs : step cfg s a = some s') {t' : Task}
    (ht' : t' ∈ s'.run.tasks) (hpc : t'.pc.declared = true) {dt : DataType} (hdt : dt ∈ extractDataType t'.file) :
    dt ∈ (e.note s a).declared := by
  have hold : ∀ t ∈ s.run.tasks, t.pc.declared = true → ∀ dt ∈ extractDataType t.file, dt ∈ (e.note s a).declared :=
    fun t ht hpc dt hdt => declared_subset_note e s a (h.tasks t ht hpc dt hdt)
  have hkeep : s'.run.tasks = s.run.tasks → dt ∈ (e.note s a).declared :=
    fun heq => hold t' (heq ▸ ht') hpc dt hdt
  cases Step.of_step hs with
  | task ht htask =>
    have hmem := List.mem_of_getElem? ht
    obtain hmem' | ⟨hfile, hdeclared⟩ := htask.declared ht'
    · exact hold t' hmem' hpc dt hdt
    · rw [hfile] at hdt
      obtain hpc | rfl := hdeclared hpc
      · exact hold _ hmem hpc dt hdt
      · refine List.mem_append_right _ ?_
        simp only [declares, State.taskType, ht, Option.bind_some, Option.mem_toList]
        exact hdt
  | crash => exact absurd ht' List.not_mem_nil
  | beginReprocess => exact absurd ht' List.not_mem_nil
  | beginContinue => exact absurd ht' List.not_mem_nil
  | alreadyHave saved => exact hkeep ((State.advance_tasks ..).trans (recordDownload_run _ _ saved).tasks)
  | recordFile saved => exact hkeep ((State.advance_tasks ..).trans (recordDownload_run _ _ saved).tasks)
  | recordStaged => exact hkeep ((State.finishStaged_tasks ..).trans (recordStaged_run _ _ _ true).tasks)
  | recordStagedFailed => exact hkeep ((State.goto_tasks ..).trans (recordStaged_run _ _ _ false).tasks)
  | prepareFailed saved =>
    have hrun := (openProcessing_run (s := s.setDataFiles) saved).tasks
    exact hkeep ((State.goto_tasks ..).trans hrun)
  | prepare saved =>
    obtain ⟨file, -, rfl⟩ := List.mem_map.1 ht'
    exact absurd hpc Bool.false_ne_true
  | _ => exact hkeep rfl

theorem Known.broadcast_step {e : Exchanges} {strict : Prop} (h : Known s e) (hsound : Sound strict s)
    (hok : coversBroadcast (s, e) a = true) (hs : step cfg s a = some s') {rest : List DataType} {sent : Bool}
    {counts : Table String Nat} (hpc' : s'.run.pc = .announcing rest sent counts) {dt : DataType} (hdt : dt ∈ rest) :
    dt ∈ e.declared := by
  cases step_moves hs with
  | stay hpc => exact h.broadcast rest sent counts (hpc ▸ hpc') dt hdt
  | stop hpc => simp [hpc] at hpc'
  | start _ hpc => simp [hpc] at hpc'
  | early _ hpc => simp [hpc', Pc.early] at hpc
  | spawn _ _ _ hpc =>
    obtain ⟨hpc, -⟩ | hpc := hpc <;> simp [hpc] at hpc'
  | complete _ hpc => simp [hpc] at hpc'
  | announce hpc haction _ hannounce =>
    subst haction
    obtain ⟨rfl, -, -⟩ : DataType.discogs = rest ∧ true = sent ∧ _ := by simpa using hannounce.symm.trans hpc'
    have hcovered := List.all_eq_true.1 hok dt hdt
    obtain hfile | hdeclared := Bool.or_eq_true_iff.1 hcovered
    · obtain ⟨file, hmem, htype⟩ := List.any_eq_true.1 hfile
      have hdone := (hsound.finished (by rw [hpc]; rfl)).1 file hmem
      exact h.memory file hdone dt (of_decide_eq_true htype)
    · exact of_decide_eq_true hdeclared
  | broadcast hpc hpc₁ =>
    obtain ⟨rfl, -, -⟩ : _ = rest ∧ _ ∧ _ := by simpa using hpc₁.symm.trans hpc'
    exact h.broadcast _ _ _ hpc dt (List.mem_cons_of_mem _ hdt)
  | sent _ hpc => simp [hpc] at hpc'

theorem State.taskType_eq {i : Nat} {t : Task} (ht : s.run.tasks[i]? = some t) :
    s.taskType i = extractDataType t.file := by
  unfold State.taskType
  rw [ht]
  rfl

/-- A task publishes while it pipes. -/
theorem piping_of_publish {i : Nat} {outcome : Outcome} (hs : step cfg s (.task i (.publish outcome)) = some s') :
    ∃ t, s.run.tasks[i]? = some t ∧ t.pc.piping = true := by
  cases ht : s.run.tasks[i]? with
  | none => simp [step, ht] at hs
  | some t =>
    simp only [step, ht, taskStep, Option.ite_none_right_eq_some] at hs
    exact ⟨t, rfl, hs.1⟩

theorem Known.exchangeOf {e : Exchanges} (h : Known s e) (hs : step cfg s a = some s') {dt : DataType}
    (hdt : exchangeOf s a = some dt) : dt ∈ e.declared := by
  unfold Session.exchangeOf at hdt
  split at hdt
  · obtain ⟨t, ht, hpc⟩ := piping_of_publish hs
    have hdeclared : t.pc.declared = true := by
      cases hp : t.pc <;> simp_all [TaskPc.piping, TaskPc.declared]
    exact h.tasks t (List.mem_of_getElem? ht) hdeclared dt (State.taskType_eq ht ▸ hdt)
  · cases Step.of_step hs with
    | task ht htask =>
      have hdeclared : ∀ {total : Nat} {pc : TaskPc}, pc = .piped total → pc.declared = true := by
        rintro total pc rfl
        rfl
      have htype := State.taskType_eq ht ▸ hdt
      cases htask with
      | fileComplete hpc => exact h.tasks _ (List.mem_of_getElem? ht) (hdeclared hpc) dt htype
      | fileCompleteUnconfirmed hpc => exact h.tasks _ (List.mem_of_getElem? ht) (hdeclared hpc) dt htype
      | fileCompleteRefused hpc => exact h.tasks _ (List.mem_of_getElem? ht) (hdeclared hpc) dt htype
  · split at hdt
    · next hpc =>
      obtain rfl := Option.some.inj hdt
      exact h.broadcast _ _ _ hpc _ (List.mem_cons_self ..)
    · exact absurd hdt (by simp)
  · exact absurd hdt (by simp)

theorem known_step {e : Exchanges} {strict : Prop} (h : Known s e) (hsound : Sound strict s)
    (hok : coversBroadcast (s, e) a = true) (hs : step cfg s a = some s') : Known s' (e.note s a) where
  memory := (h.memory_step hs).mono (declared_subset_note e s a)
  disk version tracked hm := by
    obtain hold | ⟨-, -, -, rfl⟩ := (step_logs hs).markers_cases hm
    · exact (h.disk version tracked hold).mono (declared_subset_note e s a)
    · exact (h.memory_step hs).mono (declared_subset_note e s a)
  tasks t ht hpc dt hdt := h.tasks_step hs ht hpc hdt
  broadcast rest sent counts hpc dt hdt := declared_subset_note e s a (h.broadcast_step hsound hok hs hpc hdt)
  missed := by
    unfold Exchanges.note
    dsimp only
    rw [h.missed, List.nil_append, List.filter_eq_nil_iff]
    intro dt hdt
    have hdeclared := h.exchangeOf hs (Option.mem_toList.1 hdt)
    simpa using hdeclared

theorem known_init (disk : String → Option β) (metadata : Table String TrustedFile) :
    Known (State.init disk metadata []) ⟨[], []⟩ where
  memory := covers_new _ _ _
  disk _ _ hm := by simp [State.init] at hm
  tasks _ ht := absurd ht List.not_mem_nil
  broadcast _ _ _ hpc := by simp [State.init] at hpc
  missed := rfl

/-! ## All runs -/

section Reach

variable {disk : String → Option β} {metadata : Table String TrustedFile} {x : State β × Exchanges}

/-- In runs that cover their broadcasts, nothing is published to an exchange that has not been declared. -/
theorem missed_eq_nil
    (h : Machine.Reach (Machine.history Exchanges.note (step cfg)) (fun x a => coversBroadcast x a = true)
      (State.init disk metadata [], ⟨[], []⟩) x) : x.2.missed = [] := by
  have hsound : ∀ x, Machine.Reach (Machine.history Exchanges.note (step cfg))
      (fun x a => coversBroadcast x a = true) (State.init disk metadata [], ⟨[], []⟩) x → Sound False x.1 :=
    fun x hr => sound_of_reach (fun hno => hno.elim) hr.of_history
  have hknown : Known x.1 x.2 := by
    refine h.invariant_of (I := fun x => Known x.1 x.2) hsound (known_init disk metadata) ?_
    intro x a x' hsound hI hok hs
    obtain ⟨hstep, hnote⟩ := Machine.history_step hs
    rw [hnote]
    exact known_step hI hsound hok hstep
  exact hknown.missed

end Reach

/-- A monthly set, from its download to the end of its broadcast. -/
def monthlyRun : List (Action String) :=
  let files := ["discogs_20260101_artists.xml.gz", "discogs_20260101_labels.xml.gz", "discogs_20260101_masters.xml.gz",
    "discogs_20260101_releases.xml.gz"]
  let download : List (Action String) :=
    [.startFile true, .attemptDone "dump", .saveFileMetadata true, .recordFile true]
  [.begin .downloader false files true, .startDownload none true] ++ download ++ download ++ download ++ download ++
    [.completeDownload true, .saveMetadata true, .prepare true] ++
    processFile 0 2 ++ processFile 1 2 ++ processFile 2 2 ++ processFile 3 2 ++
    [.join true, .connect (some (files.map fun file => (file, processedEntry "dump" 2)))] ++ broadcastAll

/-- A monthly set declares the exchanges that it announces its end to. -/
theorem monthlyRun_missed : ∃ x : State String × Exchanges,
    Machine.Reach (Machine.history Exchanges.note (step .plain)) (fun x a => coversBroadcast x a = true)
        (.empty, ⟨[], []⟩) x ∧
      (x.1.markers "20260101").any (·.marker.summary.overallStatus = .completed) ∧ x.2.missed = [] := by
  have hrun : ∃ x : State String × Exchanges,
      Machine.Reach (Machine.history Exchanges.note (step .plain)) (fun x a => coversBroadcast x a = true)
          (.empty, ⟨[], []⟩) x ∧
        (x.1.markers "20260101").any (·.marker.summary.overallStatus = .completed) = true :=
    Machine.exists_reach monthlyRun (by decide +kernel)
  obtain ⟨x, hreach, hdone⟩ := hrun
  exact ⟨x, hreach, hdone, missed_eq_nil hreach⟩

/-- A local manifest, from its download to the first message of its broadcast. -/
def singleFileRun : List (Action String) :=
  localDownload "discogs_20260101_releases.xml.gz" "dump" ++ processFile 0 2 ++
    [.join true, .connect (some [("discogs_20260101_releases.xml.gz", processedEntry "dump" 2)]), .broadcast .refused]

/-- On a fresh broker a local manifest of releases announces its end to artists, which no one has declared. -/
theorem singleFile_missed : ∃ x : State String × Exchanges,
    Machine.Reach (Machine.history Exchanges.note (step .plain)) Machine.always (.empty, ⟨[], []⟩) x ∧
      x.2.missed ≠ [] := by
  have hrun : ∃ x : State String × Exchanges,
      Machine.Reach (Machine.history Exchanges.note (step .plain)) Machine.always (.empty, ⟨[], []⟩) x ∧
        decide (x.2 = ⟨[.releases], [.artists]⟩) = true :=
    Machine.exists_reach singleFileRun (by decide +kernel)
  obtain ⟨x, hreach, hmissed⟩ := hrun
  rw [decide_eq_true_iff] at hmissed
  exact ⟨x, hreach, by simp [hmissed]⟩

end DiscogsIngestion.Session
