import DiscogsIngestion.Lib.Machine
import DiscogsIngestion.Lib.Notify
import DiscogsIngestion.Loop.Check

/-!
# The extraction loop and what runs beside it

* `LoopPc` : where `run_extraction_loop` is;
* `Handler` : a request to `POST /trigger`, from its arrival to its answer;
* `State` : the status, the trigger, the shutdown flag and its `Notify`, and a log;
* `Action`, `step` : one step of the loop, of a handler, of the signal task or of the flag monitor;
* `lockFree` : no handler holds the trigger.

A step is what a task does between two awaits. The checks of the loop read and write the status at their two ends; in
between they are one step, `finish`.
-/

namespace DiscogsIngestion.Loop

/-- What started a check. -/
inductive Kind where
  | initial
  | periodic
  | triggered
  deriving DecidableEq, Repr

/-- Where the loop is. -/
inductive LoopPc where
  /-- The flag monitor has yet to be spawned. -/
  | begun
  /-- In `Downloader::new`, or in `LocalManifestSource::from_manifest`. -/
  | building (kind : Kind) (force : Bool)
  /-- At the entry of `process_discogs_data`. -/
  | called (kind : Kind) (force : Bool)
  /-- About to set the status to `running`. -/
  | resetting (kind : Kind) (force : Bool)
  | processing (kind : Kind) (force : Bool)
  | returned (kind : Kind) (result : Except Unit Bool)
  /-- In `reset_status_after_failed_check`. -/
  | failing
  /-- At the head of the loop, about to read the shutdown flag. -/
  | checking
  /-- The flag was not set. -/
  | settling
  /-- About to create the futures of the `select!`. -/
  | opening
  /-- In the `select!`. -/
  | parked
  | stopped (ok : Bool)
  deriving DecidableEq

inductive HandlerPc where
  | arrived
  /-- It holds the trigger. -/
  | locked
  /-- It holds the trigger, and has seen that no check was running. -/
  | checked
  /-- `202`. -/
  | accepted
  /-- `409`. -/
  | conflict
  deriving DecidableEq, Repr

def HandlerPc.holds : HandlerPc → Bool
  | locked | checked => true
  | _ => false

structure Handler where
  force : Bool
  pc : HandlerPc
  deriving DecidableEq, Repr

/-- Who waits for the shutdown notification. -/
inductive Waiter where
  | monitor
  | loop
  deriving DecidableEq, Repr

inductive Event where
  | accepted (force : Bool)
  | consumed
  | called (kind : Kind) (force : Bool)
  /-- A check has ended, with a failure that no shutdown explains or without one. -/
  | ended (failed : Bool)
  deriving DecidableEq, Repr

structure State where
  localManifest : Bool
  forceReprocess : Bool
  status : ExtractionStatus
  trigger : Option Bool
  handlers : List Handler
  monitorSpawned : Bool
  shutdown : Notify Waiter
  /-- The signal has arrived. -/
  fired : Bool
  shutdownFlag : Bool
  pc : LoopPc
  log : List Event

def State.init (localManifest forceReprocess : Bool) : State where
  localManifest
  forceReprocess
  status := .idle
  trigger := none
  handlers := []
  monitorSpawned := false
  shutdown := .new
  fired := false
  shutdownFlag := false
  pc := .begun
  log := []

inductive HandlerAction where
  | lock
  | readStatus
  | store
  deriving DecidableEq, Repr

inductive Action where
  | spawnMonitor
  | build (ok : Bool)
  | enter
  | reset
  | finish (answers : Answers)
  | return
  | resetStatus
  | readFlag
  | settle
  | park
  | timer
  | pollTrigger
  | shutdownArm
  | signal
  | pollMonitor
  | storeFlag
  | post (body : Option Bool)
  | handler (i : Nat) (action : HandlerAction)

namespace State

variable (s : State)

def record (e : Event) : State := { s with log := s.log ++ [e] }

def lockFree : Bool := s.handlers.all fun h => !h.pc.holds

def setHandler (i : Nat) (h : Handler) : State := { s with handlers := s.handlers.set i h }

/-- Leave the `select!`, which drops its futures. -/
def leave (pc : LoopPc) : State := { s with pc, shutdown := s.shutdown.dropped .loop }

/-- `process_discogs_data` is called. -/
def call (kind : Kind) (force : Bool) : State := { s.record (.called kind force) with pc := .called kind force }

/-- The rest of a check, with these answers. -/
def finish (kind : Kind) (force : Bool) (a : Answers) : State :=
  let (result, status) := outcome (processDiscogsData a force) s.status
  let failed := match result with
    | .ok success => !success && !a.shutdownRequested
    | .error _ => true
  { s.record (.ended failed) with status, pc := .returned kind result }

/-- After the first check: `initial_run_outcome`, and the end if there is no loop to enter. -/
def initialOutcome (success : Bool) : State :=
  if !s.shutdownFlag && !success then { s with pc := .stopped false }
  else { s with pc := if s.localManifest then .stopped true else .checking }

end State

def handlerStep (s : State) (i : Nat) (h : Handler) : HandlerAction → Option State
  | .lock => if h.pc = .arrived && s.lockFree then some (s.setHandler i { h with pc := .locked }) else none
  | .readStatus =>
    if h.pc = .locked then
      some (s.setHandler i { h with pc := if s.status = .running then .conflict else .checked })
    else none
  | .store =>
    if h.pc = .checked then
      some ({ s.record (.accepted h.force) with trigger := some h.force }.setHandler i { h with pc := .accepted })
    else none

def step (s : State) : Action → Option State
  | .spawnMonitor =>
    match s.pc with
    | .begun => some { s with monitorSpawned := true, pc := .building .initial s.forceReprocess }
    | _ => none
  | .build ok =>
    match s.pc with
    | .building kind force =>
      if ok then some (s.call kind force)
      else if kind = .initial then some { s with pc := .stopped false }
      else some { s.record (.ended true) with pc := .failing }
    | _ => none
  | .enter =>
    match s.pc with
    | .called kind force =>
      if s.shutdownFlag then some { s.record (.ended false) with pc := .returned kind (.ok false) }
      else some { s with pc := .resetting kind force }
    | _ => none
  | .reset =>
    match s.pc with
    | .resetting kind force => some { s with status := .running, pc := .processing kind force }
    | _ => none
  | .finish a =>
    match s.pc with
    | .processing kind force =>
      -- the flag is read before the check ends
      if a.shutdownRequested && !s.shutdownFlag then none else some (s.finish kind force a)
    | _ => none
  | .return =>
    match s.pc with
    | .returned .initial (.ok success) => some (s.initialOutcome success)
    | .returned .initial (.error _) => some { s with pc := .stopped false }
    | .returned _ (.ok _) => some { s with pc := .checking }
    | .returned _ (.error _) => some { s with pc := .failing }
    | _ => none
  | .resetStatus =>
    match s.pc with
    | .failing => some { s with status := .failed, pc := .checking }
    | _ => none
  | .readFlag =>
    match s.pc with
    | .checking => some { s with pc := if s.shutdownFlag then .stopped true else .settling }
    | _ => none
  | .settle =>
    match s.pc with
    | .settling =>
      some { s with status := if s.status = .completed then .waiting else s.status, pc := .opening }
    | _ => none
  | .park =>
    match s.pc with
    | .opening => some { s with shutdown := s.shutdown.notified .loop, pc := .parked }
    | _ => none
  | .timer =>
    match s.pc with
    | .parked => some (s.leave (.building .periodic false))
    | _ => none
  | .pollTrigger =>
    match s.pc, s.trigger with
    | .parked, some force =>
      if s.lockFree then some { (s.record .consumed).leave (.building .triggered force) with trigger := none }
      else none
    | _, _ => none
  | .shutdownArm =>
    match s.pc with
    | .parked => if s.shutdown.woken .loop then some (s.leave (.stopped true)) else none
    | _ => none
  | .signal => if s.fired then none else some { s with fired := true, shutdown := s.shutdown.notifyWaiters }
  | .pollMonitor =>
    -- the future is created when the task is first polled
    if s.monitorSpawned && !s.shutdown.waits .monitor then
      some { s with shutdown := s.shutdown.notified .monitor }
    else none
  | .storeFlag => if s.shutdown.woken .monitor then some { s with shutdownFlag := true } else none
  | .post body => some { s with handlers := s.handlers ++ [⟨body.getD false, .arrived⟩] }
  | .handler i action =>
    match s.handlers[i]? with
    | some h => handlerStep s i h action
    | none => none

/-- The states that the service may reach, however its tasks interleave. -/
abbrev Reachable (localManifest forceReprocess : Bool) (s : State) : Prop :=
  Machine.Reach step Machine.always (State.init localManifest forceReprocess) s

/-- The first check finds no files, and the loop is about to read the flag. -/
def firstCheck : List Action := [.spawnMonitor, .pollMonitor, .build true, .enter, .reset, .finish noFiles, .return]

/-! ## Steps -/

variable {s s' : State}

/-- A handler's step changes nothing but the trigger, the handlers and the log. -/
structure HandlerStep (s s' : State) : Prop where
  status : s'.status = s.status
  pc : s'.pc = s.pc
  shutdown : s'.shutdown = s.shutdown
  fired : s'.fired = s.fired
  shutdownFlag : s'.shutdownFlag = s.shutdownFlag
  stored : s'.trigger = s.trigger ∧ s'.log = s.log ∨
    ∃ force, s'.trigger = some force ∧ s'.log = s.log ++ [.accepted force]

theorem handlerStep_spec {i : Nat} {h : Handler} {a : HandlerAction} (hs : handlerStep s i h a = some s') :
    HandlerStep s s' := by
  unfold handlerStep at hs
  split at hs
  · split at hs
    · obtain rfl := Option.some.inj hs
      exact ⟨rfl, rfl, rfl, rfl, rfl, .inl ⟨rfl, rfl⟩⟩
    · exact nomatch hs
  · split at hs
    · obtain rfl := Option.some.inj hs
      exact ⟨rfl, rfl, rfl, rfl, rfl, .inl ⟨rfl, rfl⟩⟩
    · exact nomatch hs
  · split at hs
    · obtain rfl := Option.some.inj hs
      exact ⟨rfl, rfl, rfl, rfl, rfl, .inr ⟨h.force, rfl, rfl⟩⟩
    · exact nomatch hs

/-- What a step does, by what the loop, a handler, the signal task or the monitor does. -/
inductive Move (s : State) : Action → State → Prop where
  | spawnMonitor (hpc : s.pc = .begun) :
    Move s .spawnMonitor { s with monitorSpawned := true, pc := .building .initial s.forceReprocess }
  | build {kind : Kind} {force : Bool} (hpc : s.pc = .building kind force) : Move s (.build true) (s.call kind force)
  | giveUp {force : Bool} (hpc : s.pc = .building .initial force) :
    Move s (.build false) { s with pc := .stopped false }
  | buildFailed {kind : Kind} {force : Bool} (hpc : s.pc = .building kind force) (hkind : kind ≠ .initial) :
    Move s (.build false) { s.record (.ended true) with pc := .failing }
  | refuse {kind : Kind} {force : Bool} (hpc : s.pc = .called kind force) (hflag : s.shutdownFlag = true) :
    Move s .enter { s.record (.ended false) with pc := .returned kind (.ok false) }
  | enter {kind : Kind} {force : Bool} (hpc : s.pc = .called kind force) (hflag : s.shutdownFlag = false) :
    Move s .enter { s with pc := .resetting kind force }
  | reset {kind : Kind} {force : Bool} (hpc : s.pc = .resetting kind force) :
    Move s .reset { s with status := .running, pc := .processing kind force }
  | finish {kind : Kind} {force : Bool} {a : Answers} (hpc : s.pc = .processing kind force)
    (hflag : a.shutdownRequested = true → s.shutdownFlag = true) : Move s (.finish a) (s.finish kind force a)
  | returnInitial {success : Bool} (hpc : s.pc = .returned .initial (.ok success)) :
    Move s .return (s.initialOutcome success)
  | returnError (hpc : s.pc = .returned .initial (.error ())) : Move s .return { s with pc := .stopped false }
  | returned {kind : Kind} {success : Bool} (hpc : s.pc = .returned kind (.ok success)) (hkind : kind ≠ .initial) :
    Move s .return { s with pc := .checking }
  | failed {kind : Kind} (hpc : s.pc = .returned kind (.error ())) (hkind : kind ≠ .initial) :
    Move s .return { s with pc := .failing }
  | resetStatus (hpc : s.pc = .failing) : Move s .resetStatus { s with status := .failed, pc := .checking }
  | stop (hpc : s.pc = .checking) (hflag : s.shutdownFlag = true) : Move s .readFlag { s with pc := .stopped true }
  | goOn (hpc : s.pc = .checking) (hflag : s.shutdownFlag = false) : Move s .readFlag { s with pc := .settling }
  | settle (hpc : s.pc = .settling) :
    Move s .settle { s with status := if s.status = .completed then .waiting else s.status, pc := .opening }
  | park (hpc : s.pc = .opening) : Move s .park { s with shutdown := s.shutdown.notified .loop, pc := .parked }
  | timer (hpc : s.pc = .parked) : Move s .timer (s.leave (.building .periodic false))
  | pollTrigger {force : Bool} (hpc : s.pc = .parked) (htrigger : s.trigger = some force) :
    Move s .pollTrigger { (s.record .consumed).leave (.building .triggered force) with trigger := none }
  | shutdownArm (hpc : s.pc = .parked) : Move s .shutdownArm (s.leave (.stopped true))
  | signal : Move s .signal { s with fired := true, shutdown := s.shutdown.notifyWaiters }
  | pollMonitor (hwait : s.shutdown.waits .monitor = false) :
    Move s .pollMonitor { s with shutdown := s.shutdown.notified .monitor }
  | storeFlag (hwoken : s.shutdown.woken .monitor = true) : Move s .storeFlag { s with shutdownFlag := true }
  | post {body : Option Bool} : Move s (.post body) { s with handlers := s.handlers ++ [⟨body.getD false, .arrived⟩] }
  | handler {i : Nat} {action : HandlerAction} {s' : State} (h : HandlerStep s s') : Move s (.handler i action) s'

theorem step_move {a : Action} (h : step s a = some s') : Move s a s' := by
  cases a with
  | spawnMonitor =>
    simp only [step] at h
    split at h
    · next hpc =>
      obtain rfl := Option.some.inj h
      exact .spawnMonitor hpc
    · exact nomatch h
  | build ok =>
    simp only [step] at h
    split at h
    · next kind force hpc =>
      cases ok with
      | true =>
        obtain rfl := Option.some.inj h
        exact .build hpc
      | false =>
        rw [if_neg Bool.false_ne_true] at h
        split at h
        · next hkind =>
          obtain rfl := Option.some.inj h
          exact .giveUp (hkind ▸ hpc)
        · next hkind =>
          obtain rfl := Option.some.inj h
          exact .buildFailed hpc hkind
    · exact nomatch h
  | enter =>
    simp only [step] at h
    split at h
    · next kind force hpc =>
      split at h
      · next hflag =>
        obtain rfl := Option.some.inj h
        exact .refuse hpc hflag
      · next hflag =>
        obtain rfl := Option.some.inj h
        exact .enter hpc (by simpa using hflag)
    · exact nomatch h
  | reset =>
    simp only [step] at h
    split at h
    · next kind force hpc =>
      obtain rfl := Option.some.inj h
      exact .reset hpc
    · exact nomatch h
  | finish answers =>
    simp only [step] at h
    split at h
    · next kind force hpc =>
      split at h
      · exact nomatch h
      · next hflag =>
        obtain rfl := Option.some.inj h
        exact .finish hpc (by simpa using hflag)
    · exact nomatch h
  | «return» =>
    simp only [step] at h
    split at h
    · next success hpc =>
      obtain rfl := Option.some.inj h
      exact .returnInitial hpc
    · next hpc =>
      obtain rfl := Option.some.inj h
      exact .returnError hpc
    · next kind success hkind hpc =>
      obtain rfl := Option.some.inj h
      exact .returned hpc hkind
    · next kind error hkind hpc =>
      obtain rfl := Option.some.inj h
      exact .failed hpc hkind
    · exact nomatch h
  | resetStatus =>
    simp only [step] at h
    split at h
    · next hpc =>
      obtain rfl := Option.some.inj h
      exact .resetStatus hpc
    · exact nomatch h
  | readFlag =>
    simp only [step] at h
    split at h
    · next hpc =>
      obtain rfl := Option.some.inj h
      by_cases hflag : s.shutdownFlag = true
      · rw [if_pos hflag]
        exact .stop hpc hflag
      · rw [if_neg hflag]
        exact .goOn hpc (by simpa using hflag)
    · exact nomatch h
  | settle =>
    simp only [step] at h
    split at h
    · next hpc =>
      obtain rfl := Option.some.inj h
      exact .settle hpc
    · exact nomatch h
  | park =>
    simp only [step] at h
    split at h
    · next hpc =>
      obtain rfl := Option.some.inj h
      exact .park hpc
    · exact nomatch h
  | timer =>
    simp only [step] at h
    split at h
    · next hpc =>
      obtain rfl := Option.some.inj h
      exact .timer hpc
    · exact nomatch h
  | pollTrigger =>
    simp only [step] at h
    split at h
    · next force hpc htrigger =>
      split at h
      · obtain rfl := Option.some.inj h
        exact .pollTrigger hpc htrigger
      · exact nomatch h
    · exact nomatch h
  | shutdownArm =>
    simp only [step] at h
    split at h
    · next hpc =>
      split at h
      · obtain rfl := Option.some.inj h
        exact .shutdownArm hpc
      · exact nomatch h
    · exact nomatch h
  | signal =>
    simp only [step] at h
    split at h
    · exact nomatch h
    · obtain rfl := Option.some.inj h
      exact .signal
  | pollMonitor =>
    simp only [step] at h
    split at h
    · next hwait =>
      obtain rfl := Option.some.inj h
      rw [Bool.and_eq_true] at hwait
      exact .pollMonitor (by simpa using hwait.2)
    · exact nomatch h
  | storeFlag =>
    simp only [step] at h
    split at h
    · next hwoken =>
      obtain rfl := Option.some.inj h
      exact .storeFlag hwoken
    · exact nomatch h
  | post body =>
    obtain rfl := Option.some.inj h
    exact .post
  | handler i action =>
    simp only [step] at h
    split at h
    · exact .handler (handlerStep_spec h)
    · exact nomatch h

end DiscogsIngestion.Loop
