import DiscogsIngestion.Pipeline.Quiescence
import DiscogsIngestion.Session.Completion
import DiscogsIngestion.Session.Health

/-!
# Runs whose files go through their pipelines

A run takes the pipeline of a file for one task. Here each task has its pipeline, stage by stage.

* `Pipe`, `effects` : the pipeline of a task, and what its steps are to the run;
* `System`, `systemStep` : the run with its pipelines;
* `Linked`, `Delivered` : where task and pipeline are, and what the finished pipelines have published;
* `pipe_enabled` : whatever a pipeline does, the run can do too, so that all that holds of runs holds here;
* `completed_published` : of a file that a marker has as finished, all records have been published.
-/

namespace DiscogsIngestion.Session

open Pipeline (Main)

/-- The pipeline of a task: the type of the records, those that the parser finds, and how far it is. -/
structure Pipe (α : Type) where
  dataType : DataType
  records : List α
  state : Pipeline.State α

/-- The pipeline of a file with this content. Without the file the parser fails. -/
def Pipe.spawn {β α : Type} (d : Dumps β α) (dataType : DataType) : Option β → Pipe α
  | some content => ⟨dataType, d.records content, .init (d.pipeline dataType) (d.records content)⟩
  | none => ⟨dataType, [], (Pipeline.State.init (d.pipeline dataType) []).setStatus 0 .err⟩

/-- What a step of a pipeline is to the run. The outcomes are those of the messages that it publishes. -/
def effects {α : Type} (cfg : Pipeline.Config α) (p p' : Pipeline.State α) (outcomes : List Outcome) :
    Pipeline.Action → List TaskAction
  | .batcherReceive saved =>
    if p'.totalRecords % cfg.stateSaveInterval = 0 then [.checkpoint p'.totalRecords p'.totalBatches saved] else []
  | .batcherFinish saved => [.checkpoint p.totalRecords p.totalBatches saved]
  | .publisherSettle _ => outcomes.map .publish
  | .join | .joinPanic _ | .await =>
    match p'.main with
    | .completing total => [.pipelineDone total]
    | .closing _ => [.pipelineFailed]
    | _ => []
  | .sendFileComplete _ => outcomes.map .sendFileComplete
  | .completeFile saved => [.completeFile saved]
  | _ => []

/-- The outcomes that a step can have. A batch that is published is confirmed, one that is not may be in part. -/
def possible {α : Type} (p : Pipeline.State α) (outcomes : List Outcome) : Pipeline.Action → Bool
  | .publisherSettle true => outcomes = List.replicate (p.publishing.getD []).length .confirmed
  | .publisherSettle false => outcomes.length ≤ (p.publishing.getD []).length
  | .sendFileComplete true => outcomes = [.confirmed]
  | .sendFileComplete false => outcomes = [.unconfirmed] || outcomes = [.refused]
  | _ => outcomes = []

/-- A run with the pipelines of its tasks. -/
structure System (β α : Type) where
  session : State β
  pipes : Nat → Option (Pipe α)
  /-- What the pipelines that have ended well have published, with the file and the attempt. -/
  published : List (String × Nat × List α)

inductive SystemAction (β : Type) where
  | run (a : Action β)
  | pipe (i : Nat) (a : Pipeline.Action) (outcomes : List Outcome)

/-- The steps of a run that are its pipelines'. -/
def Action.isPipe {β : Type} : Action β → Bool
  | .task _ (.publish _) | .task _ (.checkpoint ..) | .task _ .pipelineFailed | .task _ (.pipelineDone _)
  | .task _ (.sendFileComplete _) | .task _ (.completeFile _) => true
  | _ => false

section Step

variable {β α : Type} (cfg : Config β) (d : Dumps β α)

namespace System

variable (s : System β α)

/-- A task settles when its pipeline has ended. -/
def allows : Action β → Bool
  | .task i .settle => (s.pipes i).all fun pipe => pipe.state.allEnded (d.pipeline pipe.dataType)
  | a => !a.isPipe

/-- The pipelines behind a step of the run. -/
def pipesAfter : Action β → Nat → Option (Pipe α)
  | .task i (.setupExchange true) =>
    let pipe := (s.session.run.tasks[i]?).bind fun t =>
      (extractDataType t.file).map fun dt => Pipe.spawn d dt (s.session.disk t.file)
    Function.update s.pipes i pipe
  | .prepare _ => fun _ => none
  | _ => s.pipes

end System

/-- What a pipeline has published when it has ended well. -/
def publishedBy {α : Type} (t : Task) (p p' : Pipeline.State α) : List (String × Nat × List α) :=
  match p.main, p'.main with
  | .joining, .completing _ | .awaiting _, .completing _ =>
    [(t.file, t.attempt, (Pipeline.publishedIn p'.log).flatten)]
  | _, _ => []

def systemStep (s : System β α) : SystemAction β → Option (System β α)
  | .run a =>
    if s.allows d a then (step cfg s.session a).map fun session => { s with session, pipes := s.pipesAfter d a }
    else none
  | .pipe i a outcomes =>
    match s.session.run.tasks[i]?, s.pipes i with
    | some t, some pipe =>
      if possible pipe.state outcomes a then
        match Pipeline.step (d.pipeline pipe.dataType) pipe.state a with
        | some p' =>
          let actions := (effects (d.pipeline pipe.dataType) pipe.state p' outcomes a).map (.task i)
          (Machine.run (step cfg) s.session actions).map fun session =>
            { session
              pipes := Function.update s.pipes i (some { pipe with state := p' })
              published := s.published ++ publishedBy t pipe.state p' }
        | none => none
      else none
    | _, _ => none

def System.init (disk : String → Option β) (metadata : Table String TrustedFile) : System β α :=
  ⟨.init disk metadata [], fun _ => none, []⟩

end Step

/-! ## The tasks of a run -/

section Tasks

variable {β : Type} {cfg : Config β} {s s' base : State β} {a : Action β} {i j : Nat} {t t' : Task}

/-- The steps that are no task's and spawn none. -/
def Action.spares : Action β → Bool
  | .task .. | .prepare _ => false
  | _ => true

/-- What a step of a run does to its tasks. -/
inductive TaskList (cfg : Config β) (s : State β) : Action β → State β → Prop
  | same {a : Action β} {s' : State β} : a.spares = true → s'.run.tasks = s.run.tasks → TaskList cfg s a s'
  | gone {a : Action β} {s' : State β} : s'.run.tasks = [] → TaskList cfg s a s'
  | prepared (saved : Bool) {s' : State β} : s.run.pc = .downloaded →
      s'.run.tasks = s.run.tasks ∨ (∀ t ∈ s'.run.tasks, t.pc = .queued) → TaskList cfg s (.prepare saved) s'
  | task {i : Nat} {t : Task} {action : TaskAction} {s' : State β} : s.run.tasks[i]? = some t →
      TaskStep cfg s i t action s' → TaskList cfg s (.task i action) s'

theorem step_taskList (h : step cfg s a = some s') : TaskList cfg s a s' := by
  cases Step.of_step h with
  | crash => exact .gone rfl
  | beginReprocess => exact .gone rfl
  | beginContinue => exact .gone rfl
  | alreadyHave saved => exact .same rfl ((State.advance_tasks ..).trans (recordDownload_run _ _ saved).tasks)
  | recordFile saved => exact .same rfl ((State.advance_tasks ..).trans (recordDownload_run _ _ saved).tasks)
  | recordStaged => exact .same rfl ((State.finishStaged_tasks ..).trans (recordStaged_run _ _ _ true).tasks)
  | recordStagedFailed => exact .same rfl ((State.goto_tasks ..).trans (recordStaged_run _ _ _ false).tasks)
  | prepareNone saved hpc => exact .prepared saved hpc (.inl rfl)
  | prepareFailed saved hpc =>
    have hopened := openProcessing_run (s := s.setDataFiles) saved
    exact .prepared saved hpc (.inl ((State.goto_tasks ..).trans hopened.tasks))
  | prepare saved hpc =>
    refine .prepared saved hpc (.inr fun t ht => ?_)
    obtain ⟨file, -, rfl⟩ := List.mem_map.1 ht
    rfl
  | task ht htask => exact .task ht htask
  | _ => exact .same rfl rfl

theorem getElem?_setTask (ht : s.run.tasks[i]? = some t) (hbase : base.run.tasks = s.run.tasks) (j : Nat) :
    (base.setTask i t').run.tasks[j]? = if j = i then some t' else s.run.tasks[j]? := by
  have hlt : i < s.run.tasks.length := (List.getElem?_eq_some_iff.1 ht).1
  simp only [State.setTask, hbase, List.getElem?_set, hlt, if_true, eq_comm]

theorem step_task (ht : s.run.tasks[i]? = some t) (action : TaskAction) :
    step cfg s (.task i action) = taskStep cfg s i t action := by
  simp only [step, ht]

/-- Only a task whose pipeline has returned sends `file_complete`. -/
theorem sent_step (h : step cfg s a = some s') {file : String} {n total : Nat}
    (he : .fileComplete file n total ∈ s'.log) : .fileComplete file n total ∈ s.log ∨
      ∃ t ∈ s.run.tasks, t.pc = .piped total ∧ t.file = file ∧ t.attempt = n := by
  obtain hold | hnew | hsaved := (step_logs h).mem_cases he
  · exact .inl hold
  · cases hnew with
    | fileComplete ht hpc => exact .inr ⟨_, List.mem_of_getElem? ht, hpc, rfl, rfl⟩
  · cases hsaved

end Tasks

/-! ## What a step of a pipeline is to its task -/

/-- The call no longer has anything to do with the file. -/
def callOver : Main → Bool
  | .closing _ | .returning _ | .returned _ => true
  | _ => false

/-- What batcher and publisher do. -/
def TaskAction.reports : TaskAction → Bool
  | .publish _ | .checkpoint .. => true
  | _ => false

section Moves

variable {α : Type} {c : Pipeline.Config α} {p p' : Pipeline.State α} {a : Pipeline.Action} {outcomes : List Outcome}

/-- How the call moves on, with what that is to the task. -/
inductive PipeMove (c : Pipeline.Config α) (p p' : Pipeline.State α) : List TaskAction → Prop
  | atWork {actions : List TaskAction} : p'.main = p.main →
      (∀ action ∈ actions, action.reports = true ∧ p.allEnded c = false) → PipeMove c p p' actions
  | waiting : ¬p.main.Left → ¬p'.main.Left → PipeMove c p p' []
  | done {total : Nat} : ¬p.main.Left → p'.main = .completing total → PipeMove c p p' [.pipelineDone total]
  | failed : ¬p.main.Left → p'.main = .closing false → PipeMove c p p' [.pipelineFailed]
  | sent {total : Nat} : p.main = .completing total → p'.main = .marking total →
      PipeMove c p p' [.sendFileComplete .confirmed]
  | notSent {total : Nat} {outcome : Outcome} : p.main = .completing total → p'.main = .closing false →
      outcome ≠ .confirmed → PipeMove c p p' [.sendFileComplete outcome]
  | marked {total : Nat} (saved : Bool) : p.main = .marking total → p'.main = .closing saved →
      PipeMove c p p' [.completeFile saved]
  | leaving : callOver p.main = true → callOver p'.main = true → PipeMove c p p' []

theorem allEnded_of_running {k : Nat} (hk : k ≤ c.publisher) (hrun : p.status k = .running) :
    p.allEnded c = false := by
  by_contra hended
  exact (Pipeline.State.allEnded_iff.1 (by simpa using hended)) k hk hrun

theorem pipeMove (h : Pipeline.step c p a = some p') (hout : possible p outcomes a = true) :
    PipeMove c p p' (effects c p p' outcomes a) := by
  have hleft {k : Nat} (hmain : p.main = .awaiting k) : ¬p.main.Left := by
    rw [hmain]
    exact id
  have hjoin (hmain : p.main = .joining) : ¬p.main.Left := by
    rw [hmain]
    exact id
  cases Pipeline.Step.of_step h with
  | @batcherReceive m rest saved _ hrun =>
    have hmain := (@Pipeline.batcherTake_frame _ c (p.setChan c.n rest) m saved).2.2.2.2.2.2.2.1
    refine .atWork (hmain.trans rfl) fun action haction => ⟨?_, allEnded_of_running (Nat.le_succ _) hrun⟩
    simp only [effects] at haction
    split at haction
    · rw [List.mem_singleton.1 haction]
      rfl
    · exact absurd haction List.not_mem_nil
  | batcherFinish saved hrun =>
    refine .atWork rfl fun action haction => ⟨?_, allEnded_of_running (Nat.le_succ _) hrun⟩
    rw [List.mem_singleton.1 haction]
    rfl
  | publisherSettled _ hrun =>
    refine .atWork rfl fun action haction => ⟨?_, allEnded_of_running le_rfl hrun⟩
    obtain ⟨outcome, -, rfl⟩ := List.mem_map.1 haction
    rfl
  | publisherFailed _ hrun =>
    refine .atWork rfl fun action haction => ⟨?_, allEnded_of_running le_rfl hrun⟩
    obtain ⟨outcome, -, rfl⟩ := List.mem_map.1 haction
    rfl
  | joinOk hmain => exact .done (hjoin hmain) rfl
  | joinErr hmain => exact .failed (hjoin hmain) rfl
  | joinPanic hmain => exact .failed (hjoin hmain) rfl
  | awaitNext hmain => exact .waiting (hleft hmain) id
  | awaitLast hmain => exact .done (hleft hmain) rfl
  | awaitErr hmain => exact .failed (hleft hmain) rfl
  | fileCompleteSent hmain =>
    obtain rfl : outcomes = [.confirmed] := of_decide_eq_true hout
    exact .sent hmain rfl
  | fileCompleteFailed hmain =>
    simp only [possible, Bool.or_eq_true, decide_eq_true_eq] at hout
    obtain rfl | rfl := hout
    · exact .notSent hmain rfl Outcome.noConfusion
    · exact .notSent hmain rfl Outcome.noConfusion
  | completeFile saved hmain => exact .marked saved hmain rfl
  | close hmain => exact .leaving (by rw [hmain]; rfl) rfl
  | «return» hmain => exact .leaving (by rw [hmain]; rfl) rfl
  | _ => exact .atWork rfl (by simp [effects])

end Moves

/-! ## Task and pipeline -/

section Linked

variable {β α : Type} {cfg : Config β} {d : Dumps β α} {s : State β} {i : Nat} {t t' : Task} {pipe : Pipe α}
  {log log' : List (Event β)} {published published' : List (String × Nat × List α)} {file : String} {n total : Nat}

/-- All that the file had for the broker when this attempt read it has been published, and `total` is the number of
its records. -/
def Delivered (d : Dumps β α) (log : List (Event β)) (published : List (String × Nat × List α)) (file : String)
    (n total : Nat) : Prop :=
  ∃ dt content, extractDataType file = some dt ∧ .opened file n content ∈ log ∧ total = d.total content ∧
    (file, n, (d.pipeline dt).expected (d.records content)) ∈ published

/-- The pipeline is that of the file which the task has opened, and has come to its state by itself. -/
structure Fits (d : Dumps β α) (log : List (Event β)) (t : Task) (pipe : Pipe α) : Prop where
  dataType : extractDataType t.file = some pipe.dataType
  reachable : Pipeline.Reachable (d.pipeline pipe.dataType) pipe.records pipe.state
  opened : (∃ content, .opened t.file t.attempt content ∈ log ∧ pipe.records = d.records content) ∨
    pipe.state.status 0 = .err

def Pipe.ended (d : Dumps β α) (pipe : Pipe α) : Bool := pipe.state.allEnded (d.pipeline pipe.dataType)

/-- Where task and pipeline are. -/
def Linked (d : Dumps β α) (log : List (Event β)) (published : List (String × Nat × List α)) (t : Task) :
    Option (Pipe α) → Prop
  | none => match t.pc with
    | .queued | .connected | .skipped | .failed => True
    | .started => (extractDataType t.file).isSome = true
    | _ => False
  | some pipe => match pipe.state.main with
    | .joining | .awaiting _ => t.pc = .running ∧ Fits d log t pipe
    | .completing total =>
      t.pc = .piped total ∧ pipe.ended d = true ∧ Delivered d log published t.file t.attempt total
    | .marking total => t.pc = .announced total ∧ pipe.ended d = true
    | .closing _ | .returning _ | .returned _ =>
      t.pc = .lingering ∨ (t.pc = .done ∨ t.pc = .failed) ∧ pipe.ended d = true

theorem Delivered.grow (h : Delivered d log published file n total) (hlog : ∀ e ∈ log, e ∈ log')
    (hpublished : ∀ x ∈ published, x ∈ published') : Delivered d log' published' file n total := by
  obtain ⟨dt, content, hdt, hopened, htotal, hall⟩ := h
  exact ⟨dt, content, hdt, hlog _ hopened, htotal, hpublished _ hall⟩

theorem Fits.grow (h : Fits d log t pipe) (hlog : ∀ e ∈ log, e ∈ log') : Fits d log' t pipe where
  dataType := h.dataType
  reachable := h.reachable
  opened := h.opened.imp_left fun ⟨content, hopened, hrecords⟩ => ⟨content, hlog _ hopened, hrecords⟩

theorem Linked.grow {found : Option (Pipe α)} (h : Linked d log published t found) (hlog : ∀ e ∈ log, e ∈ log')
    (hpublished : ∀ x ∈ published, x ∈ published') : Linked d log' published' t found := by
  cases found with
  | none => exact h
  | some pipe =>
    cases hmain : pipe.state.main <;> simp only [Linked, hmain] at h ⊢
    case joining | awaiting => exact ⟨h.1, h.2.grow hlog⟩
    case completing => exact ⟨h.1, h.2.1, h.2.2.grow hlog hpublished⟩
    all_goals exact h

theorem Linked.waiting (h : Linked d log published t (some pipe)) (hmain : ¬pipe.state.main.Left) :
    t.pc = .running ∧ Fits d log t pipe := by
  cases hm : pipe.state.main <;> simp only [hm, Main.Left, not_true_eq_false] at hmain <;>
    simpa only [Linked, hm] using h

theorem Linked.over (h : Linked d log published t (some pipe)) (hmain : callOver pipe.state.main = true) :
    t.pc = .lingering ∨ (t.pc = .done ∨ t.pc = .failed) ∧ pipe.ended d = true := by
  cases hm : pipe.state.main <;> simp only [hm, callOver, Bool.false_eq_true] at hmain <;>
    simpa only [Linked, hm] using h

theorem linked_waiting (hmain : ¬pipe.state.main.Left) (hpc : t.pc = .running) (hfits : Fits d log t pipe) :
    Linked d log published t (some pipe) := by
  cases hm : pipe.state.main <;> simp only [hm, Main.Left, not_true_eq_false] at hmain <;>
    simpa only [Linked, hm] using And.intro hpc hfits

theorem linked_over (hmain : callOver pipe.state.main = true)
    (hpc : t.pc = .lingering ∨ (t.pc = .done ∨ t.pc = .failed) ∧ pipe.ended d = true) :
    Linked d log published t (some pipe) := by
  cases hm : pipe.state.main <;> simp only [hm, callOver, Bool.false_eq_true] at hmain <;>
    simpa only [Linked, hm] using hpc

variable {p' : Pipeline.State α} {a : Pipeline.Action}

theorem Fits.step (h : Fits d log t pipe) (hs : Pipeline.step (d.pipeline pipe.dataType) pipe.state a = some p') :
    Fits d log t { pipe with state := p' } where
  dataType := h.dataType
  reachable := .step h.reachable trivial hs
  opened := h.opened.imp_right fun herr =>
    (Pipeline.step_status_of_ended hs (by rw [herr]; exact Pipeline.Status.noConfusion)).trans herr

theorem ended_step (h : pipe.ended d = true)
    (hs : Pipeline.step (d.pipeline pipe.dataType) pipe.state a = some p') :
    ({ pipe with state := p' } : Pipe α).ended d = true := by
  refine Pipeline.State.allEnded_iff.2 fun k hk => ?_
  have hended := Pipeline.State.allEnded_iff.1 h k hk
  rw [Pipeline.step_status_of_ended hs hended]
  exact hended

theorem lossless_of_reachable {c : Pipeline.Config α} {records : List α} {p : Pipeline.State α}
    (h : Pipeline.Reachable c records p) : Pipeline.Lossless c records p ∧ p.main.Knows c p := by
  refine h.invariant (I := fun p => Pipeline.Lossless c records p ∧ p.main.Knows c p)
    ⟨Pipeline.lossless_init, Pipeline.knows_init⟩ ?_
  rintro p a p' ⟨hlossless, hknows⟩ _ hs
  exact ⟨hlossless.step hs, Pipeline.step_knows hs hknows⟩

/-- A pipeline that ends well has published all that its file had. -/
theorem Fits.delivered (h : Fits d log t pipe)
    (hs : Pipeline.step (d.pipeline pipe.dataType) pipe.state a = some p') (hmain : ¬pipe.state.main.Left)
    (hmain' : p'.main = .completing total) :
    ({ pipe with state := p' } : Pipe α).ended d = true ∧
      Delivered d log (published ++ publishedBy t pipe.state p') t.file t.attempt total := by
  have h' := h.step hs
  obtain ⟨hlossless, hknows⟩ := lossless_of_reachable h'.reachable
  simp only [hmain', Main.Knows] at hknows
  obtain ⟨hok, htotal⟩ := hknows
  obtain ⟨hall, hcount⟩ := hlossless.published hok
  have hended : ({ pipe with state := p' } : Pipe α).ended d = true := by
    refine Pipeline.State.allEnded_iff.2 fun k hk (hrun : p'.status k = .running) => ?_
    have hdone := hok k hk
    rw [hrun] at hdone
    exact Bool.false_ne_true hdone
  refine ⟨hended, ?_⟩
  obtain ⟨content, hopened, hrecords⟩ | herr := h'.opened
  · refine ⟨pipe.dataType, content, h.dataType, hopened, ?_, List.mem_append_right _ ?_⟩
    · rw [htotal, hcount, hrecords]
      rfl
    · have hnew : publishedBy t pipe.state p' = [(t.file, t.attempt, (Pipeline.publishedIn p'.log).flatten)] := by
        cases hm : pipe.state.main <;> simp only [hm, Main.Left, not_true_eq_false] at hmain <;>
          simp only [publishedBy, hm, hmain']
      rw [hnew, hall, hrecords]
      exact List.mem_singleton_self _
  · have hfirst := hok 0 (Nat.zero_le _)
    rw [herr] at hfirst
    exact absurd hfirst Bool.false_ne_true

/-! ## What the pipelines do to the run -/

/-- The run does what a pipeline has done, and nothing but the task changes. -/
structure Does (cfg : Config β) (s : State β) (i : Nat) (t' : Task) (actions : List TaskAction) (s' : State β) :
    Prop where
  run : Machine.run (step cfg) s (actions.map (.task i)) = some s'
  tasks : ∀ j, s'.run.tasks[j]? = if j = i then some t' else s.run.tasks[j]?
  log : ∀ e ∈ s.log, e ∈ s'.log
  sent {file : String} {n total : Nat} : .fileComplete file n total ∈ s'.log → .fileComplete file n total ∈ s.log ∨
    ∃ t ∈ s.run.tasks, t.pc = .piped total ∧ t.file = file ∧ t.attempt = n

variable {base s' : State β} {action : TaskAction} {actions : List TaskAction}

theorem does_none (ht : s.run.tasks[i]? = some t) : Does cfg s i t [] s where
  run := rfl
  tasks j := by
    split_ifs with hj
    · rw [hj, ht]
    · rfl
  log _ he := he
  sent he := .inl he

variable (t' base) in
theorem does_one (ht : s.run.tasks[i]? = some t) (hs : taskStep cfg s i t action = some (base.setTask i t'))
    (hbase : base.run.tasks = s.run.tasks) : Does cfg s i t' [action] (base.setTask i t') := by
  have hstep : step cfg s (.task i action) = some (base.setTask i t') := (step_task ht action).trans hs
  exact
    { run := by simp only [List.map_cons, List.map_nil, Machine.run, hstep]
      tasks := getElem?_setTask ht hbase
      log := fun _ he => (step_logs hstep).mem he
      sent := sent_step hstep }

variable (cfg s i) in
/-- What batcher and publisher do leaves the tasks as they are. -/
theorem taskStep_reports (hpc : t.pc.piping = true) (haction : action.reports = true) :
    ∃ s', taskStep cfg s i t action = some s' ∧ s'.run.tasks = s.run.tasks := by
  cases action <;> simp only [TaskAction.reports, Bool.false_eq_true] at haction
  case publish outcome =>
    refine ⟨if outcome.accepted then s.record (.published t.file t.attempt s.clock) else s, ?_, ?_⟩
    · simp only [taskStep, hpc, if_true]
    · split <;> rfl
  case checkpoint records batches saved =>
    exact ⟨(s.update (·.updateFileProgress t.file records records batches s.clock)).save saved,
      by simp only [taskStep, hpc, if_true], rfl⟩

variable (cfg) in
theorem does_reports (ht : s.run.tasks[i]? = some t) (hpc : t.pc.piping = true)
    (hall : ∀ action ∈ actions, action.reports = true) : ∃ s', Does cfg s i t actions s' := by
  induction actions generalizing s with
  | nil => exact ⟨s, does_none ht⟩
  | cons action rest ih =>
    obtain ⟨mid, hmid, htasks⟩ := taskStep_reports cfg s i hpc (hall action List.mem_cons_self)
    have hstep : step cfg s (.task i action) = some mid := (step_task ht action).trans hmid
    obtain ⟨s', hrest⟩ := ih (by rw [htasks, ht]) fun action h => hall action (List.mem_cons_of_mem _ h)
    refine ⟨s', ?_, ?_, fun e he => hrest.log e ((step_logs hstep).mem he), fun he => ?_⟩
    · simp only [List.map_cons, Machine.run, hstep, hrest.run]
    · rw [← htasks]
      exact hrest.tasks
    · obtain hmiddle | hpiped := hrest.sent he
      · exact sent_step hstep hmiddle
      · exact .inr (htasks ▸ hpiped)

variable (cfg) in
/-- Whatever a pipeline does, the run can do too, and task and pipeline stay together. -/
theorem Linked.move (h : Linked d s.log published t (some pipe)) (ht : s.run.tasks[i]? = some t)
    (hs : Pipeline.step (d.pipeline pipe.dataType) pipe.state a = some p')
    (hmove : PipeMove (d.pipeline pipe.dataType) pipe.state p' actions) :
    ∃ s' t', Does cfg s i t' actions s' ∧
      Linked d s'.log (published ++ publishedBy t pipe.state p') t' (some { pipe with state := p' }) := by
  have hgrown : ∀ {s' : State β} {t' : Task}, Does cfg s i t' actions s' →
      Linked d s.log (published ++ publishedBy t pipe.state p') t' (some { pipe with state := p' }) →
      ∃ s' t', Does cfg s i t' actions s' ∧
        Linked d s'.log (published ++ publishedBy t pipe.state p') t' (some { pipe with state := p' }) :=
    fun hdoes hlinked => ⟨_, _, hdoes, hlinked.grow hdoes.log fun _ hx => hx⟩
  cases hmove with
  | atWork hmain hall =>
    have hreports : ∀ action ∈ actions, action.reports = true := fun action haction => (hall action haction).1
    have hidle (hended : pipe.ended d = true) : actions = [] := by
      refine List.eq_nil_iff_forall_not_mem.2 fun action haction => ?_
      have hopen := (hall action haction).2
      rw [Pipe.ended] at hended
      exact Bool.false_ne_true (hopen.symm.trans hended)
    cases hm : pipe.state.main with
    | completing total =>
      simp only [Linked, hm] at h
      obtain rfl := hidle h.2.1
      refine hgrown (does_none ht) ?_
      simp only [Linked, hmain.trans hm]
      exact ⟨h.1, ended_step h.2.1 hs, h.2.2.grow (fun _ he => he) fun _ hx => List.mem_append_left _ hx⟩
    | marking total =>
      simp only [Linked, hm] at h
      obtain rfl := hidle h.2
      refine hgrown (does_none ht) ?_
      simp only [Linked, hmain.trans hm]
      exact ⟨h.1, ended_step h.2 hs⟩
    | joining | awaiting =>
      have hwait : ¬pipe.state.main.Left := by
        rw [hm]
        exact id
      obtain ⟨hpc, hfits⟩ := h.waiting hwait
      obtain ⟨s', hdoes⟩ := does_reports cfg ht (by rw [hpc]; rfl) hreports
      exact hgrown hdoes (linked_waiting (hmain ▸ hwait) hpc (hfits.step hs))
    | closing | returning | returned =>
      have hover : callOver pipe.state.main = true := by
        rw [hm]
        rfl
      obtain hpc | ⟨hpc, hended⟩ := h.over hover
      · obtain ⟨s', hdoes⟩ := does_reports cfg ht (by rw [hpc]; rfl) hreports
        exact hgrown hdoes (linked_over (hmain ▸ hover) (.inl hpc))
      · obtain rfl := hidle hended
        exact hgrown (does_none ht) (linked_over (hmain ▸ hover) (.inr ⟨hpc, ended_step hended hs⟩))
  | waiting hmain hmain' =>
    obtain ⟨hpc, hfits⟩ := h.waiting hmain
    exact hgrown (does_none ht) (linked_waiting hmain' hpc (hfits.step hs))
  | @done total hmain hmain' =>
    obtain ⟨hpc, hfits⟩ := h.waiting hmain
    refine hgrown (does_one { t with pc := .piped total } s ht ?_ rfl) ?_
    · simp only [taskStep, hpc, if_true]
    · simp only [Linked, hmain']
      exact ⟨trivial, hfits.delivered hs hmain hmain'⟩
  | failed hmain hmain' =>
    obtain ⟨hpc, -⟩ := h.waiting hmain
    refine hgrown (does_one { t with pc := .lingering } s ht ?_ rfl) (linked_over ?_ (.inl rfl))
    · simp only [taskStep, hpc, if_true]
    · exact congrArg callOver hmain'
  | @sent total hmain hmain' =>
    simp only [Linked, hmain] at h
    refine hgrown (does_one { t with pc := .announced total }
      (s.record (.fileComplete t.file t.attempt total)) ht ?_ rfl) ?_
    · simp only [taskStep, h.1]
      rfl
    · simp only [Linked, hmain']
      exact ⟨trivial, ended_step h.2.1 hs⟩
  | @notSent total outcome hmain hmain' hout =>
    simp only [Linked, hmain] at h
    refine hgrown (does_one { t with pc := .failed }
      (if outcome.accepted then s.record (.fileComplete t.file t.attempt total) else s) ht ?_ (by split <;> rfl))
      (linked_over ?_ (.inr ⟨.inr rfl, ended_step h.2.1 hs⟩))
    · simp only [taskStep, h.1, if_neg hout]
    · exact congrArg callOver hmain'
  | @marked total saved hmain hmain' =>
    simp only [Linked, hmain] at h
    refine hgrown (does_one { t with pc := if saved then .done else .failed }
      (((s.update (·.completeFileProcessing t.file total s.clock)).credit t.file t.attempt).save saved) ht ?_ rfl)
      (linked_over (congrArg callOver hmain') (.inr ⟨?_, ended_step h.2 hs⟩))
    · simp only [taskStep, h.1]
    · cases saved
      · exact .inr rfl
      · exact .inl rfl
  | leaving hmain hmain' =>
    refine hgrown (does_none ht) (linked_over hmain' ((h.over hmain).imp_right fun hended => ?_))
    exact ⟨hended.1, ended_step hended.2 hs⟩

end Linked

/-! ## The system -/

section System

variable {β α : Type} {cfg : Config β} {d : Dumps β α} {s s' : System β α} {a : SystemAction β}

inductive SystemStep (cfg : Config β) (d : Dumps β α) (s : System β α) : SystemAction β → System β α → Prop where
  | run {a : Action β} {session : State β} : s.allows d a = true → step cfg s.session a = some session →
      SystemStep cfg d s (.run a) { s with session, pipes := s.pipesAfter d a }
  | pipe {i : Nat} {a : Pipeline.Action} {outcomes : List Outcome} {t : Task} {pipe : Pipe α}
      {p' : Pipeline.State α} {session : State β} : s.session.run.tasks[i]? = some t → s.pipes i = some pipe →
      possible pipe.state outcomes a = true → Pipeline.step (d.pipeline pipe.dataType) pipe.state a = some p' →
      Machine.run (step cfg) s.session
        ((effects (d.pipeline pipe.dataType) pipe.state p' outcomes a).map (.task i)) = some session →
      SystemStep cfg d s (.pipe i a outcomes)
        { session
          pipes := Function.update s.pipes i (some { pipe with state := p' })
          published := s.published ++ publishedBy t pipe.state p' }

theorem SystemStep.of_systemStep (h : systemStep cfg d s a = some s') : SystemStep cfg d s a s' := by
  cases a with
  | run a =>
    simp only [systemStep] at h
    split at h
    · next hallows =>
      obtain ⟨session, hs, rfl⟩ := Option.map_eq_some_iff.1 h
      exact .run hallows hs
    · exact absurd h.symm (Option.some_ne_none _)
  | pipe i a outcomes =>
    cases ht : s.session.run.tasks[i]? with
    | none => simp [systemStep, ht] at h
    | some t =>
      cases hpipe : s.pipes i with
      | none => simp [systemStep, ht, hpipe] at h
      | some pipe =>
        cases hp : Pipeline.step (d.pipeline pipe.dataType) pipe.state a with
        | none => simp [systemStep, ht, hpipe, hp] at h
        | some p' =>
          simp only [systemStep, ht, hpipe, hp, Option.ite_none_right_eq_some] at h
          obtain ⟨hout, hrun⟩ := h
          obtain ⟨session, hs, rfl⟩ := Option.map_eq_some_iff.1 hrun
          exact .pipe ht hpipe hout hp hs

/-- The run of a system is a run. -/
theorem reach_session {disk : String → Option β} {metadata : Table String TrustedFile}
    (h : Machine.Reach (systemStep cfg d) Machine.always (System.init disk metadata) s) :
    Machine.Reach (step cfg) Machine.always (State.init disk metadata []) s.session := by
  refine h.project System.session fun s a s' hs => ?_
  cases SystemStep.of_systemStep hs with
  | run _ hstep => exact .single hstep
  | pipe _ _ _ _ hrun => exact .of_run _ hrun

/-- Tasks and pipelines go together, and what has been reported as complete has been delivered. -/
structure Composed (d : Dumps β α) (s : System β α) : Prop where
  linked {i : Nat} {t : Task} : s.session.run.tasks[i]? = some t →
    Linked d s.session.log s.published t (s.pipes i)
  sent {file : String} {n total : Nat} : .fileComplete file n total ∈ s.session.log →
    Delivered d s.session.log s.published file n total

variable {log : List (Event β)} {published : List (String × Nat × List α)} {t : Task} {found : Option (Pipe α)}

theorem Linked.piped (h : Linked d log published t found) {total : Nat} (hpc : t.pc = .piped total) :
    Delivered d log published t.file t.attempt total := by
  cases found with
  | none => simp [Linked, hpc] at h
  | some pipe =>
    cases hm : pipe.state.main <;> simp only [Linked, hm, hpc, reduceCtorEq, false_and, or_self] at h
    obtain ⟨htotal, -, hdelivered⟩ := h
    obtain rfl := TaskPc.piped.inj htotal
    exact hdelivered

theorem Linked.unopened (h : Linked d log published t found)
    (hpc : t.pc = .queued ∨ t.pc = .connected ∨ t.pc = .started) :
    found = none ∧ (t.pc = .started → (extractDataType t.file).isSome = true) := by
  cases found with
  | none =>
    refine ⟨rfl, fun hstarted => ?_⟩
    simpa only [Linked, hstarted] using h
  | some pipe =>
    rcases hpc with hpc | hpc | hpc <;> cases hm : pipe.state.main <;>
      simp [Linked, hm, hpc] at h

theorem Linked.lingering (h : Linked d log published t found) (hpc : t.pc = .lingering) :
    ∃ pipe, found = some pipe ∧ callOver pipe.state.main = true := by
  cases found with
  | none => simp [Linked, hpc] at h
  | some pipe =>
    refine ⟨pipe, rfl, ?_⟩
    cases hm : pipe.state.main <;> simp only [Linked, hm, hpc, reduceCtorEq, false_and] at h <;> rfl

theorem Composed.sent_step (h : Composed d s) {session : State β} {a : Action β}
    (hs : step cfg s.session a = some session) {file : String} {n total : Nat}
    (he : .fileComplete file n total ∈ session.log) : Delivered d session.log s.published file n total := by
  have hlog : ∀ e ∈ s.session.log, e ∈ session.log := fun _ he => (step_logs hs).mem he
  obtain hold | ⟨t, ht, hpc, rfl, rfl⟩ := Session.sent_step hs he
  · exact (h.sent hold).grow hlog fun _ hx => hx
  · obtain ⟨i, hi⟩ := List.mem_iff_getElem?.1 ht
    exact ((h.linked hi).piped hpc).grow hlog fun _ hx => hx

theorem pipesAfter_spares {a : Action β} (ha : a.spares = true) : s.pipesAfter d a = s.pipes := by
  cases a with
  | task | prepare => exact absurd ha Bool.false_ne_true
  | _ => rfl

theorem linked_spawn {dt : DataType} {content : Option β} (hpc : t.pc = .running)
    (hdt : extractDataType t.file = some dt)
    (hopened : ∀ bytes, content = some bytes → .opened t.file t.attempt bytes ∈ log) :
    Linked d log published t (some (Pipe.spawn d dt content)) := by
  have hmain (records : List α) : ¬(Pipeline.State.init (d.pipeline dt) records).main.Left := by
    simp only [Pipeline.State.init]
    split <;> exact id
  cases content with
  | none =>
    have hfail : Pipeline.step (d.pipeline dt) (.init (d.pipeline dt) []) (.fail 0) =
        some ((Pipeline.State.init (d.pipeline dt) []).setStatus 0 .err) := by
      simp only [Pipeline.step, Nat.zero_le, decide_true, Bool.true_and, Pipeline.State.init, if_true]
    exact linked_waiting (hmain []) hpc ⟨hdt, .step .init trivial hfail, .inr rfl⟩
  | some bytes => exact linked_waiting (hmain _) hpc ⟨hdt, .init, .inl ⟨bytes, hopened bytes rfl, rfl⟩⟩

/-- A step of a task, whose pipeline is the only one that may be another. -/
theorem Composed.linked_task (h : Composed d s) (base : State β) {i : Nat} {t' : Task}
    {pipes : Nat → Option (Pipe α)} (ht : s.session.run.tasks[i]? = some t)
    (hbase : base.run.tasks = s.session.run.tasks) (hlog : ∀ e ∈ s.session.log, e ∈ base.log)
    (hpipes : ∀ j ≠ i, pipes j = s.pipes j) (hlinked : Linked d base.log s.published t' (pipes i)) {j : Nat} {u : Task}
    (hu : (base.setTask i t').run.tasks[j]? = some u) : Linked d base.log s.published u (pipes j) := by
  rw [getElem?_setTask ht hbase] at hu
  split_ifs at hu with hj
  · obtain rfl := Option.some.inj hu
    exact hj ▸ hlinked
  · rw [hpipes j hj]
    exact (h.linked hu).grow hlog fun _ hx => hx

theorem Composed.task_step (h : Composed d s) {i : Nat} {action : TaskAction} {session : State β}
    (ht : s.session.run.tasks[i]? = some t) (hs : TaskStep cfg s.session i t action session)
    (hallows : s.allows d (.task i action) = true) {j : Nat} {u : Task} (hu : session.run.tasks[j]? = some u) :
    Linked d session.log s.published u (s.pipesAfter d (.task i action) j) := by
  have hsame : ∀ j ≠ i, s.pipes j = s.pipes j := fun _ _ => rfl
  have hkept : ∀ e ∈ s.session.log, e ∈ s.session.log := fun _ he => he
  have hspawned : ∀ j ≠ i, s.pipesAfter d (.task i (.setupExchange true)) j = s.pipes j :=
    fun j hj => Function.update_of_ne hj ..
  have hspawn {dt : DataType} (hdt : extractDataType t.file = some dt) :
      s.pipesAfter d (.task i (.setupExchange true)) i = some (Pipe.spawn d dt (s.session.disk t.file)) := by
    simp only [System.pipesAfter, Function.update_self, ht, Option.bind_some, hdt, Option.map_some]
  cases hs with
  | skip hpc =>
    refine h.linked_task _ ht rfl hkept hsame ?_ hu
    rw [((h.linked ht).unopened (.inl hpc)).1]
    trivial
  | connected hpc =>
    refine h.linked_task _ ht rfl hkept hsame ?_ hu
    rw [((h.linked ht).unopened (.inl hpc)).1]
    trivial
  | connectFailed hpc =>
    refine h.linked_task _ ht rfl hkept hsame ?_ hu
    rw [((h.linked ht).unopened (.inl hpc)).1]
    trivial
  | startInvalid saved hpc =>
    refine h.linked_task _ ht rfl hkept hsame ?_ hu
    rw [((h.linked ht).unopened (.inr (.inl hpc))).1]
    trivial
  | start saved hpc hdt =>
    refine h.linked_task ((s.session.openEntry t.file).save saved) ht rfl ?_ hsame ?_ hu
    · intro e he
      cases saved
      · exact List.mem_append_left _ he
      · exact List.mem_append_left _ (List.mem_append_left _ he)
    · rw [((h.linked ht).unopened (.inr (.inl hpc))).1]
      cases saved
      · trivial
      · simp only [Linked, if_true, hdt, Option.isSome_some]
  | setupExchange hpc hdisk =>
    obtain ⟨dt, hdt⟩ := Option.isSome_iff_exists.1 (((h.linked ht).unopened (.inr (.inr hpc))).2 hpc)
    refine h.linked_task _ ht rfl hkept hspawned ?_ hu
    rw [hspawn hdt]
    exact linked_spawn rfl hdt fun bytes hbytes => absurd (hdisk.symm.trans hbytes).symm (Option.some_ne_none _)
  | @setupAndOpen content hpc hdisk =>
    obtain ⟨dt, hdt⟩ := Option.isSome_iff_exists.1 (((h.linked ht).unopened (.inr (.inr hpc))).2 hpc)
    refine h.linked_task (s.session.record (.opened t.file t.attempt content)) ht rfl
      (fun _ he => List.mem_append_left _ he) hspawned ?_ hu
    rw [hspawn hdt]
    refine linked_spawn rfl hdt fun bytes hbytes => List.mem_append_right _ ?_
    obtain rfl := Option.some.inj (hdisk.symm.trans hbytes)
    exact List.mem_singleton_self _
  | setupFailed hpc =>
    refine h.linked_task _ ht rfl hkept hsame ?_ hu
    rw [((h.linked ht).unopened (.inr (.inr hpc))).1]
    trivial
  | settle hpc =>
    refine h.linked_task _ ht rfl hkept hsame ?_ hu
    obtain ⟨pipe, hpipe, hover⟩ := (h.linked ht).lingering hpc
    rw [hpipe]
    refine linked_over hover (.inr ⟨.inr rfl, ?_⟩)
    simpa only [System.allows, hpipe, Option.all_some, Pipe.ended] using hallows
  | _ => exact absurd hallows Bool.false_ne_true

theorem Composed.step (h : Composed d s) (hearly : s.session.run.pc.early = true → s.session.run.tasks = [])
    (hs : systemStep cfg d s a = some s') : Composed d s' := by
  cases SystemStep.of_systemStep hs with
  | @run a session hallows hstep =>
    refine ⟨?_, fun he => h.sent_step hstep he⟩
    intro i t ht
    have hlog : ∀ e ∈ s.session.log, e ∈ session.log := fun _ he => (step_logs hstep).mem he
    cases step_taskList hstep with
    | same ha htasks =>
      simp only [htasks] at ht
      rw [pipesAfter_spares ha]
      exact (h.linked ht).grow hlog fun _ hx => hx
    | gone htasks => simp [htasks] at ht
    | prepared saved hpc htasks =>
      obtain hsame | hqueued := htasks
      · simp [hsame, hearly (by rw [hpc]; rfl)] at ht
      · have hwaiting := hqueued t (List.mem_of_getElem? ht)
        simp only [System.pipesAfter, Linked, hwaiting]
    | task ht' htask => exact h.task_step ht' htask hallows ht
  | @pipe i a outcomes t pipe p' session ht hpipe hout hp hrun =>
    have hlinked := h.linked ht
    rw [hpipe] at hlinked
    obtain ⟨session', t', hdoes, hlinked'⟩ := hlinked.move cfg ht hp (pipeMove hp hout)
    obtain rfl := Option.some.inj (hrun.symm.trans hdoes.run)
    have hpublished : ∀ x ∈ s.published, x ∈ s.published ++ publishedBy t pipe.state p' :=
      fun _ hx => List.mem_append_left _ hx
    constructor
    · intro j u hu
      simp only [hdoes.tasks] at hu
      split_ifs at hu with hj
      · obtain rfl := Option.some.inj hu
        simpa only [hj, Function.update_self] using hlinked'
      · simpa only [Function.update_of_ne hj] using (h.linked hu).grow hdoes.log hpublished
    · intro file n total he
      obtain hold | ⟨u, hu, hpc, rfl, rfl⟩ := hdoes.sent he
      · exact (h.sent hold).grow hdoes.log hpublished
      · obtain ⟨j, hj⟩ := List.mem_iff_getElem?.1 hu
        exact ((h.linked hj).piped hpc).grow hdoes.log hpublished

theorem Composed.follows (h : Composed d s) {i : Nat} {pipe : Pipe α} {a : Pipeline.Action} {p' : Pipeline.State α}
    (outcomes : List Outcome) (ht : s.session.run.tasks[i]? = some t) (hpipe : s.pipes i = some pipe)
    (hp : Pipeline.step (d.pipeline pipe.dataType) pipe.state a = some p')
    (hout : possible pipe.state outcomes a = true) :
    ∃ s', systemStep cfg d s (.pipe i a outcomes) = some s' ∧ s'.pipes i = some { pipe with state := p' } ∧
      Machine.run (Session.step cfg) s.session
        ((effects (d.pipeline pipe.dataType) pipe.state p' outcomes a).map (.task i)) = some s'.session := by
  have hlinked := h.linked ht
  rw [hpipe] at hlinked
  obtain ⟨session, t', hdoes, -⟩ := hlinked.move cfg ht hp (pipeMove hp hout)
  refine ⟨⟨session, Function.update s.pipes i (some { pipe with state := p' }),
    s.published ++ publishedBy t pipe.state p'⟩, ?_, Function.update_self .., hdoes.run⟩
  simp only [systemStep, ht, hpipe, hout, if_true, hp, hdoes.run, Option.map_some]

section Reach

variable {disk : String → Option β} {metadata : Table String TrustedFile}

theorem composed_of_reach
    (h : Machine.Reach (systemStep cfg d) Machine.always (System.init disk metadata) s) : Composed d s := by
  refine h.invariant_of (fun s hr => early_tasks (s := s.session) (reach_session hr)) ⟨?_, ?_⟩ ?_
  · intro i t ht
    simp [System.init, State.init] at ht
  · intro file n total he
    simp [System.init, State.init] at he
  · intro s a s' hearly hI _ hs
    exact hI.step hearly hs

/-- Whatever a task of the pipeline of a file does, and whatever the broker does with the messages: it is a step of
the system, in which the run takes the corresponding steps of the file's task. -/
theorem pipe_enabled {i : Nat} {pipe : Pipe α} {a : Pipeline.Action} {p' : Pipeline.State α} (outcomes : List Outcome)
    (h : Machine.Reach (systemStep cfg d) Machine.always (System.init disk metadata) s)
    (ht : s.session.run.tasks[i]? = some t) (hpipe : s.pipes i = some pipe)
    (hp : Pipeline.step (d.pipeline pipe.dataType) pipe.state a = some p')
    (hout : possible pipe.state outcomes a = true) :
    ∃ s', systemStep cfg d s (.pipe i a outcomes) = some s' ∧ s'.pipes i = some { pipe with state := p' } ∧
      Machine.run (step cfg) s.session
        ((effects (d.pipeline pipe.dataType) pipe.state p' outcomes a).map (.task i)) = some s'.session :=
  (composed_of_reach h).follows outcomes ht hpipe hp hout

/-- Of every file that a marker on disk has as finished, the broker has confirmed all there was: the attempt that the
entry is from has read contents with the entry's checksum, every record of them that no rule skips has been published,
filtered and normalized, once and in order, and `file_complete` was sent with their number. -/
theorem completed_published {version : String} {tracked : Tracked} {file : String} {entry : FileProcessingStatus}
    (h : Machine.Reach (systemStep cfg d) Machine.always (System.init disk metadata) s)
    (hsaved : s.session.markers version = some tracked) (hentry : tracked.marker.progress file = some entry)
    (hdone : entry.status = .completed) :
    ∃ dt content, extractDataType file = some dt ∧ entry.sourceChecksum = some (cfg.sha256 content) ∧
      (file, tracked.attempts file, (d.pipeline dt).expected (d.records content)) ∈ s.published ∧
      .fileComplete file (tracked.attempts file) (d.total content) ∈ s.session.log := by
  have hreach := reach_session h
  have hsound : Sound False s.session := sound_of_reach (fun hno => hno.elim) hreach
  have horigin := origin_of_reach hreach
  obtain ⟨total, hsent⟩ :=
    (hsound.saved version tracked hsaved).announced file (StateMarker.isCompleted_iff.2 ⟨entry, hentry, hdone⟩)
  obtain ⟨dt, content, hdt, hopened, rfl, hall⟩ := (composed_of_reach h).sent hsent
  refine ⟨dt, content, hdt, ?_, hall, hsent⟩
  rcases horigin.saved hsaved file entry hentry with hzero | hstarted
  · have hpos := (horigin.opened hopened).1
    omega
  · exact horigin.bytes hstarted hopened

end Reach

end System

def plainDumps : Dumps String Nat := ⟨fun content => [content.length], fun _ => Pipeline.plainConfig⟩

def openedRun : List (SystemAction String) :=
  let session : List (Action String) := localDownload "discogs_20260101_artists.xml.gz" "dump" ++
    [.task 0 (.connect true), .task 0 (.start true), .task 0 (.setupExchange true)]
  session.map .run

/-- The parser can send the record. -/
theorem openedRun_enabled : ∃ s : System String Nat,
    Machine.Reach (systemStep .plain plainDumps) Machine.always (System.init (fun _ => none) ∅) s ∧
      ∃ s', systemStep .plain plainDumps s (.pipe 0 .parserSend []) = some s' := by
  have hrun : ∃ s : System String Nat,
      Machine.Reach (systemStep .plain plainDumps) Machine.always (System.init (fun _ => none) ∅) s ∧
      ((s.session.run.tasks[0]?).isSome && (s.pipes 0).any fun pipe =>
        (Pipeline.step (plainDumps.pipeline pipe.dataType) pipe.state .parserSend).isSome) = true :=
    Machine.exists_reach openedRun (by decide +kernel)
  obtain ⟨s, hreach, hfacts⟩ := hrun
  obtain ⟨htask, hfound⟩ := (Bool.and_eq_true ..).mp hfacts
  obtain ⟨t, ht⟩ := Option.isSome_iff_exists.1 htask
  obtain ⟨pipe, hpipe, hsome⟩ := (Option.any_eq_true ..).1 hfound
  obtain ⟨p', hp⟩ := Option.isSome_iff_exists.1 hsome
  obtain ⟨s', hs, -⟩ := pipe_enabled [] hreach ht hpipe hp rfl
  exact ⟨s, hreach, s', hs⟩

def pipedRun : List (SystemAction String) :=
  let pipe (a : Pipeline.Action) : SystemAction String := .pipe 0 a []
  openedRun ++
    [.parserSend, .parserEof, .receive 1, .forward 1, .drain 1, .batcherReceive true, .batcherSend,
      .publisherTake].map pipe ++ [.pipe 0 (.publisherSettle true) [.confirmed]] ++
    [.batcherEnd, .batcherFinish true, .publisherDrain, .await, .await, .await, .await].map pipe ++
    [.pipe 0 (.sendFileComplete true) [.confirmed]] ++ [.completeFile true, .close].map pipe

/-- Its marker has the file as finished, and the one record has been published. -/
theorem pipedRun_published : ∃ s : System String Nat,
    Machine.Reach (systemStep .plain plainDumps) Machine.always (System.init (fun _ => none) ∅) s ∧
      ∃ n, ("discogs_20260101_artists.xml.gz", n, [4]) ∈ s.published ∧
        .fileComplete "discogs_20260101_artists.xml.gz" n 1 ∈ s.session.log := by
  have hrun : ∃ s : System String Nat,
      Machine.Reach (systemStep .plain plainDumps) Machine.always (System.init (fun _ => none) ∅) s ∧
      (s.session.markers "20260101").any (fun tracked =>
        (tracked.marker.progress "discogs_20260101_artists.xml.gz").any fun entry =>
          entry.status = .completed ∧ entry.sourceChecksum = some "dump") = true :=
    Machine.exists_reach pipedRun (by decide +kernel)
  obtain ⟨s, hreach, hmarker⟩ := hrun
  obtain ⟨tracked, hsaved, hmarker⟩ := (Option.any_eq_true ..).1 hmarker
  obtain ⟨entry, hentry, hfacts⟩ := (Option.any_eq_true ..).1 hmarker
  obtain ⟨hdone, hsource⟩ := of_decide_eq_true hfacts
  obtain ⟨dt, content, -, hchecksum, hall, hsent⟩ := completed_published hreach hsaved hentry hdone
  obtain rfl : content = "dump" := (Option.some.inj (hsource.symm.trans hchecksum)).symm
  exact ⟨s, hreach, _, hall, hsent⟩

end DiscogsIngestion.Session
