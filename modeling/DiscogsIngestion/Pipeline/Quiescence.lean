import DiscogsIngestion.Pipeline.Step

/-!
# When the call has returned

* `Quiescent` : nothing happens after the call's return;
* `JoinedAll` : a call that leaves its pipeline early finds batcher and publisher ended;
* `quiescent_of_joinedAll` : runs whose steps are all of this kind are quiescent.

With rules the call joins its five tasks together and leaves early only when one panics. Without rules it
awaits them one after the other and leaves at the first that failed; the others go on by themselves.
-/

namespace DiscogsIngestion.Pipeline

variable {α : Type} {cfg : Config α} {records : List α} {s s' : State α} {a : Action}

/-- No task publishes, obtains a channel, updates the marker or saves it once the call has returned. -/
def Quiescent (log : List (Event α)) : Prop :=
  ∀ pre ok post, log = pre ++ .returned ok :: post → post = []

def State.Still (cfg : Config α) (s : State α) : Prop :=
  s.status cfg.batcher ≠ .running ∧ s.status cfg.publisher ≠ .running

/-- If this step leaves the pipeline through a handle that failed, batcher and publisher have ended. -/
def JoinedAll (cfg : Config α) (s : State α) : Action → Prop
  | .await => ∀ k, s.main = .awaiting k → s.status k = .err ∨ s.status k = .panicked → s.Still cfg
  | .joinPanic _ => s.Still cfg
  | _ => True

/-- The call no longer waits for its tasks. -/
def Main.Left : Main → Prop
  | .joining => False
  | .awaiting _ => False
  | _ => True

def NoReturn (events : List (Event α)) : Prop := ∀ ok, Event.returned ok ∉ events

/-! ## One step -/

theorem batcherTake_noReturn (m : α) (saved : Bool) :
    ∃ events, (batcherTake cfg s m saved).log = s.log ++ events ∧ NoReturn events := by
  simp only [batcherTake, State.checkpoint, State.record, NoReturn]
  split <;> split <;> simp

theorem step_return (h : step cfg s a = some s') :
    (∃ ok, s.main = .returning ok ∧ s'.main = .returned ok ∧ s'.log = s.log ++ [.returned ok]) ∨
      ((∀ ok, s'.main = .returned ok ↔ s.main = .returned ok) ∧
        ∃ events, s'.log = s.log ++ events ∧ NoReturn events) := by
  have hsilent {l : List (Event α)} (hl : l = s.log) : ∃ events, l = s.log ++ events ∧ NoReturn events :=
    ⟨[], by simp [hl], by simp [NoReturn]⟩
  cases Step.of_step h with
  | «return» hmain => exact .inl ⟨_, hmain, rfl, rfl⟩
  | @batcherReceive m rest saved =>
    obtain ⟨-, -, -, -, -, -, -, hmain, -⟩ := @batcherTake_frame _ cfg (s.setChan cfg.n rest) m saved
    exact .inr ⟨fun ok => by rw [hmain]; rfl, batcherTake_noReturn (s := s.setChan cfg.n rest) m saved⟩
  | batcherFinish => exact .inr ⟨fun ok => Iff.rfl, _, List.append_assoc .., by simp [NoReturn]⟩
  | publisherTake | publisherSettled | publisherFailed =>
    exact .inr ⟨fun ok => Iff.rfl, [_], rfl, by simp [NoReturn]⟩
  | fileCompleteSent hmain | fileCompleteFailed hmain | close hmain =>
    exact .inr ⟨fun ok => by simp [hmain], [_], rfl, by simp [NoReturn]⟩
  | completeFile _ hmain =>
    exact .inr ⟨fun ok => by simp [hmain], _, List.append_assoc .., by simp [NoReturn]⟩
  | joinOk hmain | joinErr hmain | joinPanic hmain | awaitNext hmain | awaitLast hmain | awaitErr hmain =>
    exact .inr ⟨fun ok => by simp [hmain], hsilent rfl⟩
  | _ => exact .inr ⟨fun ok => Iff.rfl, hsilent rfl⟩

/-- Once the call has returned and batcher and publisher are still, nothing is recorded any more. -/
theorem step_still {ok : Bool} (h : step cfg s a = some s') (hmain : s.main = .returned ok) (hs : s.Still cfg) :
    s'.log = s.log := by
  cases Step.of_step h with
  | batcherReceive _ _ hrun => exact absurd hrun hs.1
  | batcherFinish _ hrun => exact absurd hrun hs.1
  | publisherTake _ hrun => exact absurd hrun hs.2
  | publisherSettled _ hrun => exact absurd hrun hs.2
  | publisherFailed _ hrun => exact absurd hrun hs.2
  | fileCompleteSent hm | fileCompleteFailed hm | completeFile _ hm | close hm | «return» hm => simp [hmain] at hm
  | _ => rfl

theorem State.Still.step (hs : s.Still cfg) (h : step cfg s a = some s') : s'.Still cfg :=
  ⟨by rw [step_status_of_ended h hs.1]; exact hs.1, by rw [step_status_of_ended h hs.2]; exact hs.2⟩

/-- The call leaves its pipeline when all tasks have ended, or through a handle that failed. -/
theorem step_left (h : step cfg s a = some s') (hok : JoinedAll cfg s a)
    (hknows : s.main.Knows cfg s) (hleft : s'.main.Left) :
    s.main.Left ∨ s.Still cfg := by
  have hle := Nat.le_succ cfg.batcher
  cases Step.of_step h with
  | joinOk _ hall =>
    have hended {k : Nat} (hk : k ≤ cfg.publisher) : s.status k ≠ .running := by
      rintro hr
      simpa [hr] using hall k hk
    exact .inr ⟨hended hle, hended le_rfl⟩
  | joinErr _ hall => exact .inr ⟨hall _ hle, hall _ le_rfl⟩
  | joinPanic => exact .inr hok
  | awaitNext => exact absurd hleft id
  | awaitLast hmain hpub =>
    rw [hmain] at hknows
    have hbatcher := hknows cfg.batcher (Nat.lt_succ_self _)
    exact .inr ⟨fun hr => by simp [hr] at hbatcher, fun hr => by simp [hr] at hpub⟩
  | awaitErr hmain hbad => exact .inr (hok _ hmain hbad)
  | fileCompleteSent hm | fileCompleteFailed hm | completeFile _ hm | close hm | «return» hm =>
    exact .inl (by simp [hm, Main.Left])
  | @batcherReceive m rest saved =>
    rw [(@batcherTake_frame _ cfg (s.setChan cfg.n rest) m saved).2.2.2.2.2.2.2.1] at hleft
    exact .inl hleft
  | _ => exact .inl hleft

/-! ## Runs -/

/-- A call that has left its pipeline has left it still, and its return is the last thing recorded. -/
structure Settled (cfg : Config α) (s : State α) : Prop where
  knows : s.main.Knows cfg s
  still : s.main.Left → s.Still cfg
  before : (∀ ok, s.main ≠ .returned ok) → NoReturn s.log
  after : ∀ ok, s.main = .returned ok → ∃ events, s.log = events ++ [.returned ok] ∧ NoReturn events

theorem settled_init : Settled cfg (State.init cfg records) where
  knows := knows_init
  still h := by
    simp only [State.init] at h
    split at h <;> exact absurd h id
  before _ ok h := nomatch h
  after ok h := by
    simp only [State.init] at h
    split at h <;> cases h

theorem NoReturn.append {events events' : List (Event α)} (h : NoReturn events) (h' : NoReturn events') :
    NoReturn (events ++ events') := fun ok hmem => (List.mem_append.1 hmem).elim (h ok) (h' ok)

theorem Settled.step (hI : Settled cfg s) (hok : JoinedAll cfg s a) (h : step cfg s a = some s') :
    Settled cfg s' where
  knows := step_knows h hI.knows
  still hleft := by
    have hs : s.Still cfg := (step_left h hok hI.knows hleft).elim hI.still id
    exact hs.step h
  before hmain := by
    obtain ⟨ok, -, hm, -⟩ | ⟨hsame, events, hlog, hno⟩ := step_return h
    · exact absurd hm (hmain ok)
    · rw [hlog]
      exact (hI.before fun ok hm => hmain ok ((hsame ok).2 hm)).append hno
  after ok hmain := by
    obtain ⟨ok', hprev, hm, hlog⟩ | ⟨hsame, -⟩ := step_return h
    · obtain rfl : ok' = ok := by simpa [hm] using hmain
      exact ⟨s.log, hlog, hI.before fun ok hm => by simp [hprev] at hm⟩
    · have hprev := (hsame ok).1 hmain
      have hs : s.Still cfg := hI.still (by simp [hprev, Main.Left])
      rw [step_still h hprev hs]
      exact hI.after ok hprev

theorem Settled.quiescent (hI : Settled cfg s) : Quiescent s.log := by
  intro pre ok post hlog
  by_cases hret : ∃ ok, s.main = .returned ok
  · obtain ⟨ok', hmain⟩ := hret
    obtain ⟨events, hevents, hno⟩ := hI.after ok' hmain
    rw [hevents] at hlog
    obtain ⟨rest, hin, -⟩ | ⟨mid, -, hmid⟩ := Machine.split_append hlog
    · exact absurd (by simp [hin]) (hno ok)
    · cases mid <;> simp_all
  · exact absurd (by simp [hlog]) (hI.before (fun ok hm => hret ⟨ok, hm⟩) ok)

/-- When every call that leaves its pipeline early finds batcher and publisher ended, no task does anything
to the connection or to the marker once the call has returned. -/
theorem quiescent_of_joinedAll (cfg : Config α) (records : List α) (s : State α)
    (hs : Machine.Reach (Pipeline.step cfg) (JoinedAll cfg) (State.init cfg records) s) : Quiescent s.log :=
  (hs.invariant (I := Settled cfg) settled_init fun _ _ _ hI hok h => hI.step hok h).quiescent

/-- Records pass one by one, each in a batch of its own, and every one is saved. -/
def plainConfig : Config Nat where
  rules := none
  normalize := id
  queueSize := 1
  batchSize := 1
  stateSaveInterval := 1
  queueSize_pos := Nat.one_pos
  batchSize_pos := Nat.one_pos
  stateSaveInterval_pos := Nat.one_pos

/-- The parser fails behind the first of two records, and the call returns while that one is on its way. -/
def strayRun : List Action :=
  [.parserSend, .receive 1, .forward 1, .fail 0, .await, .close, .return, .batcherReceive true, .batcherSend,
    .publisherTake, .publisherSettle true]

/-- After the call has returned its batcher saves the marker, and its publisher reconnects and publishes. -/
theorem strayRun_not_quiescent :
    ¬∀ (cfg : Config Nat) (records : List Nat) (s : State Nat), Reachable cfg records s → Quiescent s.log := by
  intro h
  have hquiet := h plainConfig [1, 2] _ (Machine.Reach.of_run strayRun rfl)
  have hnil := hquiet [.closed] false
    [.progressUpdated 1 0, .markerSaved true, .channelObtained, .published [1] true] rfl
  cases hnil

/-- The parser fails at once, and the call awaits it only when the others have ended. -/
def tidyRun : List Action := [.fail 0, .drain 1, .batcherEnd, .batcherFinish true, .publisherDrain]

theorem tidyRun_quiescent :
    Quiescent ([.progressUpdated 0 0, .markerSaved true, .closed, .returned false] : List (Event Nat)) := by
  have hinit : Machine.Reach (Pipeline.step plainConfig) (JoinedAll plainConfig) (State.init plainConfig [1])
      (State.init plainConfig [1]) := .init
  have hended := hinit.append_run tidyRun (by simp [tidyRun, JoinedAll]) rfl
  have hawaited := hended.step (a := .await) (by intro _ _ _; exact ⟨by decide, by decide⟩) rfl
  have hleft := hawaited.append_run [.close, .return] (by simp [JoinedAll]) rfl
  exact quiescent_of_joinedAll plainConfig [1] _ hleft

end DiscogsIngestion.Pipeline
