import DiscogsIngestion.Pipeline.NoLoss
import DiscogsIngestion.Session.Files

/-!
# The progress that `/health` reports

The tally has two sources: the batchers count the records that they receive, and a run that resumes a processing
phase adds the counts that the marker has of the finished files.

* `Dumps` : what is in the files, and the pipeline of each data type;
* `Health`, `healthStep` : a state with the tally, one record or one step of the run at a time;
* `HealthStep` : what such a step can do;
* `SameFiles` : every run gets the same files, with the same contents;
* `typeSum` : numbers of the files of one data type, added up.
-/

namespace DiscogsIngestion.Session

/-- What the parser finds in the files, and the pipeline that the records of each data type go through. -/
structure Dumps (β α : Type) where
  records : β → List α
  pipeline : DataType → Pipeline.Config α

namespace Dumps

variable {β α : Type} (d : Dumps β α)

def total (content : β) : Nat := (d.records content).length

/-- The batcher's count of a file. -/
def batched (file : String) (content : β) : Nat :=
  match extractDataType file with
  | some dt => ((d.pipeline dt).expected (d.records content)).length
  | none => 0

end Dumps

/-- A state, with what `/health` reports and what the current run has found when it came to the file tasks. -/
structure Health (β : Type) where
  state : State β
  progress : ExtractionProgress
  /-- The records of each file that its batcher has received in this run. -/
  counted : String → Nat
  /-- The status of the processing phase. -/
  found : PhaseStatus
  /-- The data files that were finished already. -/
  carried : List String

inductive HealthAction (β : Type) where
  | run (a : Action β)
  /-- The batcher of the task at position `i` receives a record. -/
  | count (i : Nat)

/-- Add the counts of the finished files to the tally. The map is iterated in no particular order. -/
def rehydrate (m : StateMarker) (progress : ExtractionProgress) : ExtractionProgress :=
  m.processingPhase.progressByFile.entries.foldl
    (fun progress entry =>
      if entry.2.status = .completed then
        match extractDataType entry.1 with
        | some dt => progress.add dt entry.2.recordsExtracted
        | none => progress
      else progress)
    progress

namespace Health

variable {β : Type}

def init (s : State β) : Health β :=
  { state := s, progress := {}, counted := fun _ => 0, found := .pending, carried := [] }

variable (s : Health β)

/-- A run comes to its file tasks. Only a phase that is in progress is a resumed one. -/
def enter (s' : State β) : Health β :=
  let found := s.state.marker.processingPhase.status
  { s with
    state := s'
    progress := if found = .inProgress then rehydrate s'.marker s.progress else s.progress
    found
    carried := s'.run.tracked.dataFiles.filter s'.marker.isCompleted }

/-- What a step of the run does to the tally. -/
def observe (a : Action β) (s' : State β) : Health β :=
  match a with
  | .begin .. | .crash => init s'
  | .prepare _ => if s'.run.pc = .idle then { s with state := s' } else s.enter s'
  | _ => { s with state := s' }

def receive (file : String) (dt : DataType) : Health β :=
  { s with
    progress := s.progress.increment dt
    counted := Function.update s.counted file (s.counted file + 1) }

/-- A pipeline returns `Ok` when its parser and its batcher have counted all there is to count. -/
def allows {α : Type} (d : Dumps β α) : Action β → Bool
  | .task i (.pipelineDone total) =>
    match s.state.run.tasks[i]? with
    | some t =>
      match s.state.disk t.file with
      | some content => total = d.total content && s.counted t.file = d.batched t.file content
      | none => false
    | none => false
  | _ => true

end Health

def healthStep {β α : Type} (cfg : Config β) (d : Dumps β α) (s : Health β) : HealthAction β → Option (Health β)
  | .run a => if s.allows d a then (step cfg s.state a).map (s.observe a) else none
  | .count i =>
    match s.state.run.tasks[i]? with
    | some t =>
      match extractDataType t.file, s.state.disk t.file with
      | some dt, some content =>
        if t.pc.piping && s.counted t.file < d.batched t.file content then some (s.receive t.file dt) else none
      | _, _ => none
    | none => none

open StateMarker

variable {β α : Type} {cfg : Config β} {d : Dumps β α} {files : List String} {contents : String → β}

section Step

variable {s s' : Health β} {a : HealthAction β}

/-! ## Steps -/

/-- A step that leaves the tasks alone and does not come to the file tasks. -/
structure Quiet (s s' : State β) : Prop where
  tasks : s'.run.tasks = s.run.tasks
  late : s'.run.pc.late = true → s.run.pc.late = true ∧ SameRegs s s'
  early : s'.run.pc.early = true → s.run.pc.early = true

inductive HealthStep (cfg : Config β) (d : Dumps β α) (s : Health β) : HealthAction β → Health β → Prop where
  | count {i : Nat} {t : Task} {dt : DataType} {content : β} : s.state.run.tasks[i]? = some t → t.pc.piping = true →
      extractDataType t.file = some dt → s.state.disk t.file = some content →
      s.counted t.file < d.batched t.file content → HealthStep cfg d s (.count i) (s.receive t.file dt)
  | reset {a : Action β} {s' : State β} : step cfg s.state a = some s' → s'.run.pc.late = false →
      (∀ t ∈ s'.run.tasks, t.pc.ended = true) → (s'.run.pc.early = true → ∃ source force latest readable,
        a = .begin source force latest readable) → HealthStep cfg d s (.run a) (.init s')
  | enter {saved : Bool} {s' : State β} : step cfg s.state (.prepare saved) = some s' →
      s.state.run.pc = .downloaded → s'.run.pc.late = true →
      s'.run.tasks.map (·.file) = s'.marker.pendingFiles s'.run.tracked.dataFiles →
      HealthStep cfg d s (.run (.prepare saved)) (s.enter s')
  | task {i : Nat} {t : Task} {action : TaskAction} {s' : State β} : step cfg s.state (.task i action) = some s' →
      s.state.run.tasks[i]? = some t → TaskStep cfg s.state i t action s' →
      (∀ total, action = .pipelineDone total → ∃ content, s.state.disk t.file = some content ∧
        total = d.total content ∧ s.counted t.file = d.batched t.file content) →
      HealthStep cfg d s (.run (.task i action)) { s with state := s' }
  | quiet {a : Action β} {s' : State β} : step cfg s.state a = some s' → Quiet s.state s' →
      HealthStep cfg d s (.run a) { s with state := s' }

theorem Quiet.idle {s s' : State β} (htasks : s'.run.tasks = s.run.tasks) (hpc : s'.run.pc = .idle) : Quiet s s' where
  tasks := htasks
  late h := by simp [hpc, Pc.late] at h
  early h := by simp [hpc, Pc.early] at h

theorem Quiet.same {s s' : State β} (hrun : s'.run = s.run) : Quiet s s' where
  tasks := congrArg Run.tasks hrun
  late h := ⟨hrun ▸ h, by rw [hrun], by rw [hrun], by rw [hrun]⟩
  early h := hrun ▸ h

theorem Quiet.download {s s' : State β} (htasks : s'.run.tasks = s.run.tasks) (hpc : s.run.pc.early = true)
    (hpc' : s'.run.pc.early = true ∨ s'.run.pc = .idle) : Quiet s s' where
  tasks := htasks
  late h := by
    obtain hearly | hidle := hpc'
    · simp [Pc.late, hearly] at h
    · exact absurd hidle (Pc.late_ne_idle h)
  early _ := hpc

theorem Quiet.complete {s s' : State β} (htasks : s'.run.tasks = s.run.tasks) (hpc : s.run.pc.late = true)
    (hpc' : s'.run.pc.early = false) (hregs : SameRegs s s') : Quiet s s' where
  tasks := htasks
  late _ := ⟨hpc, hregs⟩
  early h := absurd (hpc'.symm.trans h) Bool.false_ne_true

/-- Neither does a run or a process begin, nor does the run come to the file tasks, nor does one of them act. -/
def Action.quiet : Action β → Bool
  | .begin .. | .crash | .prepare _ | .task .. => false
  | _ => true

theorem quiet_step {s s' : State β} {a : Action β} (h : step cfg s a = some s') (hquiet : a.quiet = true) :
    Quiet s s' := by
  cases Step.of_step h with
  | tick => exact .same rfl
  | requestShutdown => exact .same rfl
  | crash => exact absurd hquiet Bool.false_ne_true
  | changeFile => exact .same rfl
  | changeMetadata => exact .same rfl
  | beginSkip => exact absurd hquiet Bool.false_ne_true
  | beginReprocess => exact absurd hquiet Bool.false_ne_true
  | beginContinue => exact absurd hquiet Bool.false_ne_true
  | startDownload _ _ hpc => exact .download rfl (by rw [hpc]; rfl) (.inl rfl)
  | alreadyHave saved hpc =>
    exact .download ((State.advance_tasks ..).trans (recordDownload_run _ _ saved).tasks) (by rw [hpc]; rfl)
      (.inl rfl)
  | startFile _ hpc => exact .download rfl (by rw [hpc]; rfl) (.inl rfl)
  | @attemptFailed _ n _ _ hpc =>
    refine .download rfl (by rw [hpc]; rfl) ?_
    by_cases hn : n < maxDownloadRetries
    · rw [if_pos hn]
      exact .inl rfl
    · rw [if_neg hn]
      exact .inr rfl
  | attemptDone _ hpc => exact .download rfl (by rw [hpc]; rfl) (.inl rfl)
  | saveFileMetadata _ hpc => exact .download rfl (by rw [hpc]; rfl) (.inl rfl)
  | recordFile saved hpc =>
    exact .download ((State.advance_tasks ..).trans (recordDownload_run _ _ saved).tasks) (by rw [hpc]; rfl)
      (.inl rfl)
  | completeDownload _ hpc => exact .download rfl (by rw [hpc]; rfl) (.inl rfl)
  | metadataSaved hpc => exact .download rfl (by rw [hpc]; rfl) (.inl rfl)
  | stage _ hpc => exact .download rfl (by rw [hpc]; rfl) (.inl rfl)
  | recordStaged hpc =>
    exact .download ((State.finishStaged_tasks ..).trans (recordStaged_run _ _ _ true).tasks) (by rw [hpc]; rfl)
      (.inl rfl)
  | recordStagedFailed => exact .idle ((State.goto_tasks ..).trans (recordStaged_run _ _ _ false).tasks) rfl
  | prepareNone => exact absurd hquiet Bool.false_ne_true
  | prepareFailed => exact absurd hquiet Bool.false_ne_true
  | prepare => exact absurd hquiet Bool.false_ne_true
  | task => exact absurd hquiet Bool.false_ne_true
  | completeAll saved hpc =>
    cases saved with
    | true => exact .complete rfl (by rw [hpc]; rfl) rfl ⟨rfl, rfl, rfl⟩
    | false => exact .idle rfl rfl
  | joinOk saved hpc =>
    cases saved with
    | true => exact .complete rfl (by rw [hpc]; rfl) rfl ⟨rfl, rfl, rfl⟩
    | false => exact .idle rfl rfl
  | connected hpc => exact .complete rfl (by rw [hpc]; rfl) rfl ⟨rfl, rfl, rfl⟩
  | broadcast _ hpc => exact .complete rfl (by rw [hpc]; rfl) rfl ⟨rfl, rfl, rfl⟩
  | broadcastRefused hpc => exact .complete rfl (by rw [hpc]; rfl) rfl ⟨rfl, rfl, rfl⟩
  | @endBroadcast sent _ hpc =>
    cases sent with
    | true => exact .complete rfl (by rw [hpc]; rfl) rfl ⟨rfl, rfl, rfl⟩
    | false => exact .idle rfl rfl
  | _ => exact .idle rfl rfl

theorem HealthStep.begin {source : Source} {force readable : Bool} {latest : List String} {s' : State β}
    (h : step cfg s.state (.begin source force latest readable) = some s') :
    HealthStep cfg d s (.run (.begin source force latest readable)) (.init s') := by
  have hended : s.state.settled = true → ∀ t ∈ s.state.run.tasks, t.pc.ended = true := fun h => List.all_eq_true.1 h
  cases Step.of_step h with
  | beginSkip _ _ _ _ hpc hset =>
    exact .reset h (by simp [State.record, hpc, Pc.late]) (hended hset) fun _ => ⟨_, _, _, _, rfl⟩
  | beginReprocess => exact .reset h rfl (fun _ ht => absurd ht List.not_mem_nil) fun _ => ⟨_, _, _, _, rfl⟩
  | beginContinue => exact .reset h rfl (fun _ ht => absurd ht List.not_mem_nil) fun _ => ⟨_, _, _, _, rfl⟩

theorem Health.observe_prepare {saved : Bool} {s' : State β} (h : s'.run.pc ≠ .idle) :
    s.observe (.prepare saved) s' = s.enter s' := if_neg h

/-- A run comes to its file tasks, or it ends before them. -/
theorem HealthStep.prepare {saved : Bool} {s' : State β} (h : step cfg s.state (.prepare saved) = some s') :
    HealthStep cfg d s (.run (.prepare saved)) (s.observe (.prepare saved) s') := by
  cases Step.of_step h with
  | prepareNone => exact .quiet h (.idle rfl rfl)
  | prepareFailed =>
    have htasks := (openProcessing_run (s := s.state.setDataFiles) saved).tasks
    exact .quiet h (.idle ((State.goto_tasks ..).trans htasks) rfl)
  | prepare _ hpc =>
    have hlate : (spawn (openProcessing s.state.setDataFiles saved).1).run.pc.late = true := by
      simp only [spawn]
      split_ifs <;> rfl
    rw [Health.observe_prepare (Pc.late_ne_idle hlate)]
    exact .enter h hpc hlate (List.map_map.trans (List.map_id' _))

theorem HealthStep.of_healthStep (h : healthStep cfg d s a = some s') : HealthStep cfg d s a s' := by
  cases a with
  | count i =>
    simp only [healthStep] at h
    split at h
    · next t ht =>
      split at h
      · next dt content hdt hdisk =>
        obtain ⟨⟨hpc, hlt⟩, rfl⟩ := by simpa using h
        exact .count ht hpc hdt hdisk hlt
      · exact nomatch h
    · exact nomatch h
  | run a =>
    simp only [healthStep, Option.ite_none_right_eq_some, Option.map_eq_some_iff] at h
    obtain ⟨hallows, s', hs, rfl⟩ := h
    have hquiet : a.quiet = true → HealthStep cfg d s (.run a) { s with state := s' } :=
      fun ha => .quiet hs (quiet_step hs ha)
    cases a with
    | «begin» => exact .begin hs
    | crash =>
      cases Step.of_step hs with
      | crash => exact .reset hs rfl (fun _ ht => nomatch ht) fun hpc => absurd hpc Bool.false_ne_true
    | prepare saved => exact .prepare hs
    | task i action =>
      cases Step.of_step hs with
      | @task _ t _ _ ht htask =>
        refine .task hs ht htask ?_
        rintro total rfl
        simp only [Health.allows, ht] at hallows
        split at hallows
        · next content hdisk =>
          obtain ⟨htotal, hcounted⟩ := by simpa using hallows
          exact ⟨content, hdisk, htotal, hcounted⟩
        · exact nomatch hallows
    | _ => exact hquiet rfl

theorem HealthStep.state (h : HealthStep cfg d s a s') : (∃ a', a = .run a' ∧ step cfg s.state a' = some s'.state) ∨
    ∃ i, a = .count i ∧ s'.state = s.state := by
  cases h with
  | count => exact .inr ⟨_, rfl, rfl⟩
  | reset hs => exact .inl ⟨_, rfl, hs⟩
  | enter hs => exact .inl ⟨_, rfl, hs⟩
  | task hs => exact .inl ⟨_, rfl, hs⟩
  | quiet hs => exact .inl ⟨_, rfl, hs⟩

end Step

/-! ## The same files -/

/-- What the task at position `i` reads is what is in the files of these names. -/
def Reads (contents : String → β) (s : Health β) (i : Nat) : Prop :=
  ∀ t ∈ s.state.run.tasks[i]?, s.state.disk t.file = some (contents t.file)

/-- Every run gets the same files, and the tasks find the same contents in them. -/
def SameFiles (files : List String) (contents : String → β) (s : Health β) : HealthAction β → Prop
  | .run (.begin _ _ latest _) => latest = files
  | .run (.task i (.pipelineDone _)) => Reads contents s i
  | .count i => Reads contents s i
  | _ => True

instance [DecidableEq β] (s : Health β) (i : Nat) : Decidable (Reads contents s i) :=
  inferInstanceAs (Decidable (∀ t ∈ s.state.run.tasks[i]?, s.state.disk t.file = some (contents t.file)))

instance [DecidableEq β] (s : Health β) (a : HealthAction β) : Decidable (SameFiles files contents s a) := by
  unfold SameFiles
  split <;> infer_instance

theorem SameFiles.sameList {s : Health β} {a : Action β} (h : SameFiles files contents s (.run a)) :
    SameList files s.state a := by
  cases a with
  | «begin» => exact h
  | _ => trivial

/-- The states with a tally are those of the runs. -/
theorem reach_of_health {s₀ : State β} {s : Health β}
    (h : Machine.Reach (healthStep cfg d) (SameFiles files contents) (.init s₀) s) :
    Machine.Reach (step cfg) (SameList files) s₀ s.state := by
  induction h with
  | init => exact .init
  | step _ hok hs ih =>
    obtain ⟨a, rfl, hs'⟩ | ⟨i, -, hsame⟩ := (HealthStep.of_healthStep hs).state
    · exact ih.step hok.sameList hs'
    · exact hsame ▸ ih

/-! ## Sums -/

/-- The sum of these numbers over the files of one data type. -/
def typeSum (n : String → Nat) (files : List String) (dt : DataType) : Nat :=
  ((files.filter fun file => extractDataType file = some dt).map n).sum

section Sums

variable {n m : String → Nat} {dt : DataType} {file : String}

theorem typeSum_cons : typeSum n (file :: files) dt =
    (if extractDataType file = some dt then n file else 0) + typeSum n files dt := by
  unfold typeSum
  by_cases h : extractDataType file = some dt <;> simp [h]

theorem typeSum_append {rest : List String} :
    typeSum n (files ++ rest) dt = typeSum n files dt + typeSum n rest dt := by
  simp [typeSum]

theorem typeSum_perm {files' : List String} (h : files.Perm files') : typeSum n files dt = typeSum n files' dt :=
  ((h.filter _).map n).sum_nat

theorem typeSum_congr (h : ∀ file ∈ files, n file = m file) : typeSum n files dt = typeSum m files dt := by
  unfold typeSum
  exact congrArg List.sum (List.map_congr_left fun file hfile => h file (List.mem_of_mem_filter hfile))

theorem typeSum_zero : typeSum (fun _ => 0) files dt = 0 := by
  simp [typeSum]

theorem typeSum_update {other : DataType} (hfile : file ∈ files) (honce : files.Nodup)
    (htype : extractDataType file = some other) :
    typeSum (Function.update n file (n file + 1)) files dt = typeSum n files dt + if dt = other then 1 else 0 := by
  induction files with
  | nil => exact nomatch hfile
  | cons f rest ih =>
    obtain ⟨hnot, hrest⟩ := List.nodup_cons.1 honce
    rw [typeSum_cons, typeSum_cons]
    by_cases hf : file = f
    · subst hf
      have hsame : typeSum (Function.update n file (n file + 1)) rest dt = typeSum n rest dt :=
        typeSum_congr fun g hg => Function.update_of_ne (fun (heq : g = file) => hnot (heq ▸ hg)) ..
      rw [hsame, Function.update_self, htype]
      by_cases hdt : dt = other
      · simp only [hdt, if_true]
        omega
      · simp [hdt, Ne.symm hdt]
    · rw [ih ((List.mem_cons.1 hfile).resolve_left hf) hrest, Function.update_of_ne (Ne.symm hf)]
      omega

theorem typeSum_le (h : ∀ file ∈ files, extractDataType file = some dt → n file ≤ m file) :
    typeSum n files dt ≤ typeSum m files dt := by
  induction files with
  | nil => exact le_rfl
  | cons f rest ih =>
    have hrest := ih fun g hg => h g (List.mem_cons_of_mem f hg)
    rw [typeSum_cons, typeSum_cons]
    split_ifs with hf
    · exact Nat.add_le_add (h f (List.mem_cons_self ..) hf) hrest
    · exact Nat.add_le_add_left hrest 0

/-- When no number is larger than its counterpart, the sums are the same only if all numbers are. -/
theorem typeSum_eq_iff (h : ∀ file ∈ files, extractDataType file = some dt → n file ≤ m file) :
    typeSum n files dt = typeSum m files dt ↔ ∀ file ∈ files, extractDataType file = some dt → n file = m file := by
  induction files with
  | nil => simp [typeSum]
  | cons f rest ih =>
    have htail : ∀ g ∈ rest, extractDataType g = some dt → n g ≤ m g := fun g hg => h g (List.mem_cons_of_mem f hg)
    have hle := typeSum_le htail
    rw [typeSum_cons, typeSum_cons, List.forall_mem_cons, ← ih htail]
    by_cases hf : extractDataType f = some dt
    · have hhead := h f (List.mem_cons_self ..) hf
      simp only [hf, if_true, forall_const]
      omega
    · simp [hf]

end Sums

/-! ## Rehydration -/

def finishedFiles (m : StateMarker) : List String :=
  (m.processingPhase.progressByFile.entries.filter fun entry => entry.2.status = .completed).map Sigma.fst

theorem mem_finishedFiles {m : StateMarker} {file : String} : file ∈ finishedFiles m ↔ m.isCompleted file = true := by
  rw [isCompleted_iff]
  simp only [finishedFiles, List.mem_map, List.mem_filter, decide_eq_true_eq]
  constructor
  · rintro ⟨⟨f, entry⟩, ⟨hmem, hdone⟩, rfl⟩
    exact ⟨entry, Table.mem_entries_iff.1 hmem, hdone⟩
  · rintro ⟨entry, hentry, hdone⟩
    exact ⟨⟨file, entry⟩, ⟨Table.mem_entries_iff.2 hentry, hdone⟩, rfl⟩

theorem nodup_finishedFiles {m : StateMarker} : (finishedFiles m).Nodup :=
  m.processingPhase.progressByFile.keys_nodup.sublist (List.filter_sublist.map Sigma.fst)

/-- What a resumed run adds to the tally, when the entries of the finished files have these counts. -/
theorem get_rehydrate {m : StateMarker} {progress : ExtractionProgress} {n : String → Nat} {dt : DataType}
    (h : ∀ file entry, m.progress file = some entry → entry.status = .completed → entry.recordsExtracted = n file) :
    (rehydrate m progress).get dt = progress.get dt + typeSum n (finishedFiles m) dt := by
  have hcounts : ∀ entry ∈ m.processingPhase.progressByFile.entries, entry.2.status = .completed →
      entry.2.recordsExtracted = n entry.1 := fun entry hmem => h entry.1 entry.2 (Table.mem_entries_iff.1 hmem)
  unfold rehydrate finishedFiles
  generalize m.processingPhase.progressByFile.entries = entries at hcounts
  induction entries generalizing progress with
  | nil => exact (Nat.add_zero _).symm
  | cons entry rest ih =>
    have hrest := fun p => @ih p fun e he => hcounts e (List.mem_cons_of_mem _ he)
    rw [List.foldl_cons, hrest, List.filter_cons]
    by_cases hdone : entry.2.status = .completed
    · simp only [hdone, if_true, decide_true, List.map_cons, typeSum_cons]
      cases hdt : extractDataType entry.1 with
      | none => simp
      | some other =>
        rw [ExtractionProgress.get_add, hcounts entry (List.mem_cons_self ..) hdone]
        by_cases heq : dt = other
        · simp [heq, Nat.add_assoc]
        · simp [heq, Ne.symm heq]
    · simp [hdone]

end DiscogsIngestion.Session
