import DiscogsIngestion.Pipeline.Progress
import DiscogsIngestion.Session.System

/-!
# The processing phase comes to its end

The file tasks of a run share the permits of a semaphore, and each has a pipeline of five tasks.

* `SystemAction.works`, `ambient`, `fails` : the steps of the tasks and of the pipelines, and those around them;
* `System.rank`, `pays_rank` : each step of a task or of a pipeline brings the phase nearer to its end;
* `Composed.moves` : until the tasks are joined, one of them or its pipeline can take a step;
* `processing_ends` : so the steps of a phase are bounded, and it can always be brought to its end.
-/

namespace DiscogsIngestion.Session

variable {β α : Type} {cfg : Config β} {d : Dumps β α}

/-- The steps of the tasks and of their pipelines, and the end of the phase. -/
def SystemAction.works : SystemAction β → Bool
  | .run (.task ..) | .run (.join _) | .pipe .. => true
  | _ => false

/-- What goes on around them. -/
def SystemAction.ambient : SystemAction β → Bool
  | .run (.tick _) | .run .requestShutdown => true
  | _ => false

def SystemAction.fails : SystemAction β → Bool
  | .run (.task _ (.connect false)) | .run (.task _ (.start false)) | .run (.task _ (.setupExchange false))
  | .run (.join false) => true
  | .pipe _ a _ => a.fails
  | _ => false

/-! ## The rank -/

def openRank (d : Dumps β α) (disk : String → Option β) (file : String) : Nat :=
  match extractDataType file with
  | some dt => (Pipe.spawn d dt (disk file)).state.rank (d.pipeline dt)
  | none => 0

def pipeRank (d : Dumps β α) : Option (Pipe α) → Nat
  | some pipe => pipe.state.rank (d.pipeline pipe.dataType)
  | none => 0

/-- What is left to do for a task. A step of its pipeline is worth two, since the task may then have to be settled. -/
def taskRank (d : Dumps β α) (disk : String → Option β) (t : Task) (found : Option (Pipe α)) : Nat :=
  match t.pc with
  | .queued => 2 * openRank d disk t.file + 4
  | .connected => 2 * openRank d disk t.file + 3
  | .started => 2 * openRank d disk t.file + 2
  | .running | .piped _ | .announced _ | .lingering => 2 * pipeRank d found + 1
  | .done | .failed | .skipped => 2 * pipeRank d found

namespace System

variable (d) (s : System β α)

def rankAt (i : Nat) : Nat := (s.session.run.tasks[i]?).elim 0 fun t => taskRank d s.session.disk t (s.pipes i)

/-- What is left to do in the processing phase. -/
def rank : Nat :=
  ∑ i ∈ Finset.range s.session.run.tasks.length, s.rankAt d i + (decide (s.session.run.pc = .processing)).toNat

end System

variable {s s' : System β α} {a : SystemAction β} {i : Nat} {t t' : Task} {found : Option (Pipe α)}
  {log : List (Event β)} {published : List (String × Nat × List α)} {pipe : Pipe α}

theorem Linked.rank (h : Linked d log published t (some pipe)) (disk : String → Option β) :
    2 * pipeRank d (some pipe) ≤ taskRank d disk t (some pipe) ∧
      taskRank d disk t (some pipe) ≤ 2 * pipeRank d (some pipe) + 1 := by
  have hpc : t.pc ≠ .queued ∧ t.pc ≠ .connected ∧ t.pc ≠ .started := by
    refine ⟨fun hpc => ?_, fun hpc => ?_, fun hpc => ?_⟩
    · exact absurd (h.unopened (.inl hpc)).1 (Option.some_ne_none _)
    · exact absurd (h.unopened (.inr (.inl hpc))).1 (Option.some_ne_none _)
    · exact absurd (h.unopened (.inr (.inr hpc))).1 (Option.some_ne_none _)
  obtain ⟨hqueued, hconnected, hstarted⟩ := hpc
  cases hp : t.pc <;> simp only [taskRank, hp] <;> first | omega | exact absurd hp ‹_›

theorem Linked.inRange (h : Linked d log published t (some pipe)) :
    pipe.state.InRange (d.pipeline pipe.dataType) := by
  intro k hk
  have hfits := (h.waiting (by rw [hk]; exact id)).2
  exact hfits.reachable.invariant (I := Pipeline.State.InRange (d.pipeline pipe.dataType)) Pipeline.inRange_init
    (fun _ _ _ hI _ hs => Pipeline.step_inRange hs hI) k hk

theorem rank_change (hdisk : s'.session.disk = s.session.disk)
    (ht : s.session.run.tasks[i]? = some t)
    (htasks : ∀ j, s'.session.run.tasks[j]? = if j = i then some t' else s.session.run.tasks[j]?)
    (hlength : s'.session.run.tasks.length = s.session.run.tasks.length)
    (hpc : s'.session.run.pc = s.session.run.pc) (hpipes : ∀ j ≠ i, s'.pipes j = s.pipes j)
    (hless : taskRank d s.session.disk t' (s'.pipes i) < taskRank d s.session.disk t (s.pipes i)) :
    s'.rank d + 1 ≤ s.rank d := by
  have hmem : i ∈ Finset.range s.session.run.tasks.length :=
    Finset.mem_range.2 (List.getElem?_eq_some_iff.1 ht).1
  have hchange := @Machine.sum_change _ i (s.rankAt d) (s'.rankAt d) hmem fun j _ hj => by
    simp only [System.rankAt, htasks j, if_neg hj, hpipes j hj, hdisk]
  have hold : s.rankAt d i = taskRank d s.session.disk t (s.pipes i) := by
    simp only [System.rankAt, ht, Option.elim_some]
  have hnew : s'.rankAt d i = taskRank d s.session.disk t' (s'.pipes i) := by
    simp only [System.rankAt, htasks i, if_true, Option.elim_some, hdisk]
  simp only [System.rank, hlength, hpc]
  omega

theorem TaskStep.length {s s' : State β} {action : TaskAction} (h : TaskStep cfg s i t action s') :
    s'.run.tasks.length = s.run.tasks.length := by
  cases h <;> first | rfl | exact List.length_set

theorem Composed.task_pays (h : Composed d s) {action : TaskAction} {session : State β}
    (ht : s.session.run.tasks[i]? = some t) (hs : TaskStep cfg s.session i t action session)
    (hallows : s.allows d (.task i action) = true) :
    ({ s with session, pipes := s.pipesAfter d (.task i action) } : System β α).rank d + 1 ≤ s.rank d := by
  have hwaiting (hpc : t.pc = .queued ∨ t.pc = .connected ∨ t.pc = .started) : pipeRank d (s.pipes i) = 0 := by
    rw [((h.linked ht).unopened hpc).1]
    rfl
  have hspawned : ∀ j ≠ i, s.pipesAfter d (.task i (.setupExchange true)) j = s.pipes j :=
    fun j hj => Function.update_of_ne hj ..
  have hspawn (hpc : t.pc = .started) :
      pipeRank d (s.pipesAfter d (.task i (.setupExchange true)) i) = openRank d s.session.disk t.file := by
    obtain ⟨dt, hdt⟩ := Option.isSome_iff_exists.1 (((h.linked ht).unopened (.inr (.inr hpc))).2 hpc)
    simp only [System.pipesAfter, Function.update_self, ht, Option.bind_some, hdt, Option.map_some, openRank, pipeRank]
    cases s.session.disk t.file <;> rfl
  -- the task is the only one that changes, and its pipeline the only one that may be another
  have hfalls {t' : Task} (htasks : ∀ j, session.run.tasks[j]? = if j = i then some t' else s.session.run.tasks[j]?)
      (hpipes : ∀ j ≠ i, s.pipesAfter d (.task i action) j = s.pipes j)
      (hless : taskRank d s.session.disk t' (s.pipesAfter d (.task i action) i) <
        taskRank d s.session.disk t (s.pipes i)) :
      ({ s with session, pipes := s.pipesAfter d (.task i action) } : System β α).rank d + 1 ≤ s.rank d :=
    rank_change hs.disk ht htasks hs.length hs.pc hpipes hless
  cases hs with
  | skip hpc =>
    refine hfalls (getElem?_setTask ht rfl) (fun _ _ => rfl) ?_
    simp only [taskRank, hpc, System.pipesAfter, hwaiting (.inl hpc)]
    omega
  | connected hpc =>
    refine hfalls (getElem?_setTask ht rfl) (fun _ _ => rfl) ?_
    simp only [taskRank, hpc]
    omega
  | connectFailed hpc =>
    refine hfalls (getElem?_setTask ht rfl) (fun _ _ => rfl) ?_
    simp only [taskRank, hpc, System.pipesAfter, hwaiting (.inl hpc)]
    omega
  | startInvalid saved hpc =>
    refine hfalls (getElem?_setTask ht rfl) (fun _ _ => rfl) ?_
    simp only [taskRank, hpc, System.pipesAfter, hwaiting (.inr (.inl hpc))]
    omega
  | start saved hpc =>
    refine hfalls (getElem?_setTask ht rfl) (fun _ _ => rfl) ?_
    cases saved <;> simp only [taskRank, hpc, System.pipesAfter, hwaiting (.inr (.inl hpc)), if_true, if_false,
      Bool.false_eq_true] <;> omega
  | setupExchange hpc =>
    refine hfalls (getElem?_setTask ht rfl) hspawned ?_
    simp only [taskRank, hpc, hspawn hpc]
    omega
  | setupAndOpen hpc =>
    refine hfalls (getElem?_setTask ht rfl) hspawned ?_
    simp only [taskRank, hpc, hspawn hpc]
    omega
  | setupFailed hpc =>
    refine hfalls (getElem?_setTask ht rfl) (fun _ _ => rfl) ?_
    simp only [taskRank, hpc, System.pipesAfter, hwaiting (.inr (.inr hpc))]
    omega
  | settle hpc =>
    refine hfalls (getElem?_setTask ht rfl) (fun _ _ => rfl) ?_
    simp only [taskRank, hpc, System.pipesAfter]
    omega
  | _ => exact absurd hallows Bool.false_ne_true

theorem run_frame {s s' : State β} {actions : List TaskAction}
    (hrun : Machine.run (step cfg) s (actions.map (.task i)) = some s') :
    s'.disk = s.disk ∧ s'.run.tasks.length = s.run.tasks.length ∧ s'.run.pc = s.run.pc := by
  induction actions generalizing s with
  | nil =>
    obtain rfl := Option.some.inj hrun
    exact ⟨rfl, rfl, rfl⟩
  | cons action rest ih =>
    obtain ⟨mid, hstep, hrest⟩ := Machine.run_cons hrun
    obtain ⟨hdisk, hlength, hpc⟩ := ih hrest
    cases Step.of_step hstep with
    | task _ htask => exact ⟨hdisk.trans htask.disk, hlength.trans htask.length, hpc.trans htask.pc⟩

theorem Composed.pipe_pays (h : Composed d s) {a : Pipeline.Action} {outcomes : List Outcome}
    {p' : Pipeline.State α} {session : State β} (ht : s.session.run.tasks[i]? = some t) (hpipe : s.pipes i = some pipe)
    (hout : possible pipe.state outcomes a = true)
    (hp : Pipeline.step (d.pipeline pipe.dataType) pipe.state a = some p')
    (hrun : Machine.run (Session.step cfg) s.session
      ((effects (d.pipeline pipe.dataType) pipe.state p' outcomes a).map (.task i)) = some session) :
    (⟨session, Function.update s.pipes i (some { pipe with state := p' }),
      s.published ++ publishedBy t pipe.state p'⟩ : System β α).rank d + 1 ≤ s.rank d := by
  have hlinked := h.linked ht
  rw [hpipe] at hlinked
  obtain ⟨session', t', hdoes, hlinked'⟩ := hlinked.move cfg ht hp (pipeMove hp hout)
  obtain rfl := Option.some.inj (hrun.symm.trans hdoes.run)
  obtain ⟨hdisk, hlength, hpc⟩ := run_frame hrun
  refine rank_change hdisk ht hdoes.tasks hlength hpc (fun j hj => Function.update_of_ne hj ..) ?_
  have hless := Pipeline.rank_step hp hlinked.inRange
  have hbefore := (hlinked.rank s.session.disk).1
  have hafter := (hlinked'.rank s.session.disk).2
  simp only [pipeRank] at hbefore hafter
  simp only [Function.update_self, hpipe]
  omega

theorem rank_joined (htasks : s'.session.run.tasks = s.session.run.tasks) (hpipes : s'.pipes = s.pipes)
    (hdisk : s'.session.disk = s.session.disk) (hpc : s.session.run.pc = .processing)
    (hpc' : s'.session.run.pc ≠ .processing) : s'.rank d + 1 ≤ s.rank d := by
  have hsame : s'.rankAt d = s.rankAt d := by
    funext i
    simp only [System.rankAt, htasks, hpipes, hdisk]
  simp only [System.rank, hsame, htasks, hpc, hpc', decide_true, decide_false, Bool.toNat_true, Bool.toNat_false]
  omega

/-! ## No deadlock -/

/-- A task or its pipeline can go on without a failure, or the tasks can be joined. -/
def System.Moves (cfg : Config β) (d : Dumps β α) (s : System β α) : Prop :=
  ∃ a : SystemAction β, a.works = true ∧ a.fails = false ∧ (systemStep cfg d s a).isSome = true

theorem exists_possible (p : Pipeline.State α) {a : Pipeline.Action} (ha : a.fails = false) :
    ∃ outcomes, possible p outcomes a = true := by
  cases a with
  | publisherSettle ok =>
    cases ok with
    | true => exact ⟨List.replicate (p.publishing.getD []).length .confirmed, by simp [possible]⟩
    | false => exact absurd ha.symm Bool.false_ne_true
  | sendFileComplete ok =>
    cases ok with
    | true => exact ⟨[.confirmed], rfl⟩
    | false => exact absurd ha.symm Bool.false_ne_true
  | _ => exact ⟨[], rfl⟩

theorem moves_task (action : TaskAction) (ht : s.session.run.tasks[i]? = some t)
    (hfails : (SystemAction.run (.task i action) : SystemAction β).fails = false)
    (hallows : s.allows d (.task i action) = true) (hs : (taskStep cfg s.session i t action).isSome = true) :
    s.Moves cfg d := by
  refine ⟨.run (.task i action), rfl, hfails, ?_⟩
  simp only [systemStep, hallows, if_true, step_task ht, Option.isSome_map, hs]

theorem Linked.enabled (h : Linked d log published t found) (hpc : t.pc.active = true)
    (hconnected : t.pc ≠ .connected) (hstarted : t.pc ≠ .started) :
    ∃ pipe, found = some pipe ∧ Pipeline.Enabled (d.pipeline pipe.dataType) pipe.state := by
  cases found with
  | none =>
    cases hp : t.pc <;> simp_all [Linked, TaskPc.active]
  | some pipe =>
    refine ⟨pipe, rfl, Pipeline.enabled_of_not_returned (fun ok hmain => ?_) h.inRange⟩
    obtain hlingering | ⟨hdone | hfailed, -⟩ := h.over (by rw [hmain]; rfl)
    · rw [hlingering] at hpc
      exact Bool.false_ne_true hpc
    · rw [hdone] at hpc
      exact Bool.false_ne_true hpc
    · rw [hfailed] at hpc
      exact Bool.false_ne_true hpc

/-- A task that holds a permit can go on, or its pipeline can. -/
theorem Composed.moves_active (h : Composed d s) (ht : s.session.run.tasks[i]? = some t) (hpc : t.pc.active = true) :
    s.Moves cfg d := by
  by_cases hconnected : t.pc = .connected
  · refine moves_task (.start true) ht rfl rfl ?_
    simp only [taskStep, hconnected, if_true]
    split <;> rfl
  by_cases hstarted : t.pc = .started
  · refine moves_task (.setupExchange true) ht rfl rfl ?_
    simp only [taskStep, hstarted, if_true, Option.isSome_some]
  obtain ⟨pipe, hpipe, a, hfails, hsome⟩ := (h.linked ht).enabled hpc hconnected hstarted
  obtain ⟨p', hp⟩ := Option.isSome_iff_exists.1 hsome
  obtain ⟨outcomes, hout⟩ := exists_possible pipe.state hfails
  obtain ⟨s', hs, -⟩ := @Composed.follows _ _ cfg _ _ _ h _ _ _ _ outcomes ht hpipe hp hout
  exact ⟨.pipe i a outcomes, rfl, hfails, by rw [hs]; rfl⟩

/-- Until the tasks are joined, one of them or its pipeline can take a step. -/
theorem Composed.moves (h : Composed d s) (hworkers : 0 < cfg.maxWorkers) (hpc : s.session.run.pc = .processing) :
    s.Moves cfg d := by
  by_cases hall : s.session.run.tasks.all (·.pc.returned) = true
  · refine ⟨.run (.join true), rfl, rfl, ?_⟩
    simp only [systemStep, System.allows, Action.isPipe, Bool.not_false, if_true, Session.step, hpc, hall, decide_true,
      Bool.and_self, Option.isSome_map]
    split <;> rfl
  by_cases hactive : ∃ t ∈ s.session.run.tasks, t.pc.active = true
  · obtain ⟨t, hmem, hactive⟩ := hactive
    obtain ⟨i, ht⟩ := List.mem_iff_getElem?.1 hmem
    exact h.moves_active ht hactive
  -- all permits are free, and there is a task that waits for one
  push Not at hactive
  have hfree : s.session.run.tasks.countP (·.pc.active) < cfg.maxWorkers := by
    rwa [List.countP_eq_zero.2 hactive]
  obtain ⟨t, hmem, hreturned⟩ : ∃ t ∈ s.session.run.tasks, t.pc.returned = false := by
    simpa using hall
  obtain ⟨i, ht⟩ := List.mem_iff_getElem?.1 hmem
  have hqueued : t.pc = .queued := by
    have hidle := hactive t hmem
    cases hp : t.pc <;> simp_all [TaskPc.active, TaskPc.returned]
  cases hshutdown : s.session.shutdown with
  | true =>
    refine moves_task .skip ht rfl rfl ?_
    simp only [taskStep, hqueued, hshutdown, hfree, decide_true, Bool.and_self, if_true, Option.isSome_some]
  | false =>
    refine moves_task (.connect true) ht rfl rfl ?_
    simp only [taskStep, hqueued, hshutdown, hfree, decide_true, Bool.not_false, Bool.and_self, if_true,
      Option.isSome_some]

section Reach

variable {disk : String → Option β} {metadata : Table String TrustedFile}

/-- The rank pays for what tasks and pipelines do, and is not raised by what goes on around them. -/
theorem pays_rank : Machine.Pays (systemStep cfg d) (fun a => a.works = true ∨ a.ambient = true) SystemAction.works
    (Machine.Reach (systemStep cfg d) Machine.always (System.init disk metadata)) (System.rank d) := by
  intro s a s' hreach hok hs
  refine ⟨hreach.step trivial hs, ?_⟩
  have hcomposed := composed_of_reach hreach
  cases SystemStep.of_systemStep hs with
  | @run a session hallows hstep =>
    cases Step.of_step hstep with
    | tick | requestShutdown => exact le_rfl
    | task ht htask => exact hcomposed.task_pays ht htask hallows
    | joinOk saved hpc =>
      refine rank_joined ?_ rfl ?_ hpc ?_
      all_goals cases saved <;> first | rfl | exact Pc.noConfusion
    | joinErr saved hpc =>
      refine rank_joined ?_ rfl ?_ hpc ?_
      all_goals cases saved <;> first | rfl | exact Pc.noConfusion
    | _ => exact absurd hok (by simp [SystemAction.works, SystemAction.ambient])
  | pipe ht hpipe hout hp hrun => exact hcomposed.pipe_pays ht hpipe hout hp hrun

/-- The processing phase neither hangs nor goes on forever, whatever fails in its tasks and their pipelines: what is
left to do bounds their steps, however much goes on around them, and from where they are the phase can be brought to
its end without a failure. -/
theorem processing_ends (hworkers : 0 < cfg.maxWorkers)
    (h : Machine.Reach (systemStep cfg d) Machine.always (System.init disk metadata) s)
    {as : List (SystemAction β)} (has : ∀ a ∈ as, a.works = true ∨ a.ambient = true)
    (hrun : Machine.run (systemStep cfg d) s as = some s') :
    as.countP SystemAction.works ≤ s.rank d ∧
      ∃ bs s'', (∀ b ∈ bs, SystemAction.works b = true ∧ b.fails = false) ∧
        Machine.run (systemStep cfg d) s' bs = some s'' ∧ s''.session.run.pc ≠ .processing := by
  have hpaid := Machine.run_countP_le pays_rank h has hrun
  have hreach' := h.trans (.of_run as hrun)
  obtain ⟨bs, s'', hrest, hbs, hmax⟩ := Machine.exists_maximal pays_rank
    (fun b : SystemAction β => b.works = true ∧ b.fails = false) (fun b hb => ⟨.inl hb.1, hb.1⟩) hreach'
  refine ⟨by omega, bs, s'', hbs, hrest, fun hpc => ?_⟩
  obtain ⟨b, hworks, hfails, hsome⟩ := (composed_of_reach (hreach'.trans (.of_run bs hrest))).moves hworkers hpc
  rw [hmax b ⟨hworks, hfails⟩] at hsome
  exact Bool.false_ne_true hsome

end Reach

/-- The parser fails, and a signal arrives. -/
def brokenOff : List (SystemAction String) := [.pipe 0 (.fail 0) [], .run .requestShutdown]

/-- The tasks are joined nevertheless. -/
theorem brokenOff_ends : ∃ s s' : System String Nat,
    Machine.Reach (systemStep .plain plainDumps) Machine.always (System.init (fun _ => none) ∅) s ∧
      Machine.run (systemStep .plain plainDumps) s brokenOff = some s' ∧ s'.session.run.pc = .processing ∧
      1 ≤ s.rank plainDumps ∧ ∃ bs s'', Machine.run (systemStep .plain plainDumps) s' bs = some s'' ∧
        s''.session.run.pc ≠ .processing := by
  have hreached : ∃ s : System String Nat,
      Machine.Reach (systemStep .plain plainDumps) Machine.always (System.init (fun _ => none) ∅) s ∧
      (Machine.run (systemStep .plain plainDumps) s brokenOff).any (fun s' => s'.session.run.pc = .processing) = true :=
    Machine.exists_reach openedRun (by decide +kernel)
  obtain ⟨s, hreach, hbroken⟩ := hreached
  obtain ⟨s', hrun, hpc⟩ := (Option.any_eq_true ..).1 hbroken
  have has : ∀ a ∈ brokenOff, SystemAction.works a = true ∨ a.ambient = true := by decide
  obtain ⟨hcount, bs, s'', -, hrest, hleft⟩ := processing_ends (by decide) hreach has hrun
  exact ⟨s, s', hreach, hrun, of_decide_eq_true hpc, hcount, bs, s'', hrest, hleft⟩

end DiscogsIngestion.Session
