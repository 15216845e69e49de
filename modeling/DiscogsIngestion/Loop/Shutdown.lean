import DiscogsIngestion.Loop.Machine

/-!
# The shutdown signal

* `Lost` : the signal has arrived, and the loop sleeps without having been woken;
* `Timely` : the signal does not fall between the loop's look at the flag and its future, and when the loop looks
  after the signal, the monitor has stored the flag;
* `not_lost` : in runs of timely steps no signal is lost;
* `lost_of_not_timely` : behind a step that is not timely it is.
-/

namespace DiscogsIngestion.Loop

/-- The loop is parked in its `select!`, the signal has been there, and the shutdown arm has not been woken. -/
def Lost (s : State) : Prop := s.fired = true ∧ s.pc = .parked ∧ s.shutdown.woken .loop = false

/-- The signal does not arrive when the loop has found no flag and has no future yet. When the loop reads the flag
behind the signal, the flag is set: the monitor had been polled before the signal, and has stored the flag since. -/
def Timely (s : State) : Action → Prop
  | .signal => s.pc ≠ .settling ∧ s.pc ≠ .opening
  | .readFlag => s.fired = true → s.shutdownFlag = true
  | _ => True

instance (s : State) (a : Action) : Decidable (Timely s a) := by
  cases a <;> unfold Timely <;> infer_instance

/-- On its way into the `select!` the loop has no signal behind it, and in there it hears of one. -/
structure Hears (s : State) : Prop where
  opening : s.pc = .settling ∨ s.pc = .opening → s.fired = false
  waits : s.pc = .parked → s.shutdown.waits .loop = true
  parked : s.pc = .parked → s.fired = true → s.shutdown.woken .loop = true

variable {s s' : State}

theorem Hears.of_pc (h : s.pc ≠ .settling ∧ s.pc ≠ .opening ∧ s.pc ≠ .parked) : Hears s :=
  ⟨fun hpc => absurd hpc (not_or.2 ⟨h.1, h.2.1⟩), fun hpc => absurd hpc h.2.2, fun hpc => absurd hpc h.2.2⟩

theorem Hears.congr (h : Hears s) (hpc : s'.pc = s.pc) (hfired : s'.fired = s.fired)
    (hwaits : s'.shutdown.waits .loop = s.shutdown.waits .loop)
    (hwoken : s'.shutdown.woken .loop = s.shutdown.woken .loop) : Hears s' := by
  refine ⟨?_, ?_, ?_⟩
  · rw [hpc, hfired]
    exact h.opening
  · rw [hpc, hwaits]
    exact h.waits
  · rw [hpc, hfired, hwoken]
    exact h.parked

theorem initialOutcome_pc (success : Bool) : (s.initialOutcome success).pc ≠ .settling ∧
    (s.initialOutcome success).pc ≠ .opening ∧ (s.initialOutcome success).pc ≠ .parked := by
  unfold State.initialOutcome
  split
  · simp
  · split <;> simp

theorem hears_step {a : Action} (h : Hears s) (htimely : Timely s a) (hstep : step s a = some s') : Hears s' := by
  have hmove := step_move hstep
  cases hmove with
  | spawnMonitor | build _ | giveUp _ | buildFailed _ _ | refuse _ _ | enter _ _ | reset _ | finish _ _ =>
    exact .of_pc ⟨nofun, nofun, nofun⟩
  | returnInitial => exact .of_pc (initialOutcome_pc _)
  | returnError _ | returned _ _ | failed _ _ | resetStatus _ | stop _ _ | timer _ | pollTrigger _ _ | shutdownArm _ =>
    exact .of_pc ⟨nofun, nofun, nofun⟩
  | goOn hpc hflag =>
    have hfired : s.fired = false := by
      by_contra hno
      have hset := htimely (by simpa using hno)
      rw [hset] at hflag
      exact nomatch hflag
    exact ⟨fun _ => hfired, nofun, nofun⟩
  | settle hpc => exact ⟨fun _ => h.opening (.inl hpc), nofun, nofun⟩
  | park hpc =>
    have hfired := h.opening (.inr hpc)
    refine ⟨nofun, fun _ => Notify.waits_notified, fun _ hyes => ?_⟩
    rw [hfired] at hyes
    exact nomatch hyes
  | signal =>
    refine ⟨fun hpc => absurd hpc (not_or.2 htimely), fun hpc => ?_, fun hpc _ => ?_⟩
    · rw [← h.waits hpc]
      exact Notify.waits_notifyWaiters
    · exact Notify.woken_notifyWaiters_iff.2 (h.waits hpc)
  | pollMonitor hwait =>
    have hne : Waiter.loop ≠ Waiter.monitor := nofun
    exact h.congr rfl rfl (Notify.waits_notified_of_ne hne) (Notify.woken_notified_of_ne hne)
  | storeFlag hwoken => exact h.congr rfl rfl rfl rfl
  | post => exact h.congr rfl rfl rfl rfl
  | handler hstep =>
    refine h.congr hstep.pc hstep.fired ?_ ?_
    · rw [hstep.shutdown]
    · rw [hstep.shutdown]

/-- In a run whose steps are timely no signal is lost. -/
theorem not_lost {localManifest forceReprocess : Bool}
    (h : Machine.Reach step Timely (State.init localManifest forceReprocess) s) : ¬Lost s := by
  have hhears : Hears s :=
    h.invariant (.of_pc ⟨nofun, nofun, nofun⟩) fun s a s' hs htimely hstep => hears_step hs htimely hstep
  rintro ⟨hfired, hpc, hwoken⟩
  rw [hhears.parked hpc hfired] at hwoken
  exact nomatch hwoken

/-- A step that is not timely is followed by the loss of the signal, if the loop goes on at once. -/
theorem lost_of_not_timely {a : Action} (hno : ¬Timely s a) (hstep : step s a = some s') :
    ∃ as last, Machine.run step s' as = some last ∧ Lost last := by
  have hopening : ∀ s : State, s.fired = true → s.pc = .opening →
      ∃ last, Machine.run step s [.park] = some last ∧ Lost last := by
    intro s hfired hpc
    refine ⟨{ s with shutdown := s.shutdown.notified .loop, pc := .parked }, ?_, hfired, rfl,
      Notify.not_woken_notified⟩
    simp [Machine.run, step, hpc]
  have hsettling : ∀ s : State, s.fired = true → s.pc = .settling →
      ∃ last, Machine.run step s [.settle, .park] = some last ∧ Lost last := by
    intro s hfired hpc
    obtain ⟨last, hrun, hlost⟩ := hopening
      { s with status := if s.status = .completed then .waiting else s.status, pc := .opening } hfired rfl
    refine ⟨last, ?_, hlost⟩
    rw [← hrun]
    simp [Machine.run, step, hpc]
  have hmove := step_move hstep
  cases hmove with
  | signal =>
    by_cases hpc : s.pc = .settling
    · obtain ⟨last, hrun, hlost⟩ := hsettling { s with fired := true, shutdown := s.shutdown.notifyWaiters } rfl hpc
      exact ⟨_, last, hrun, hlost⟩
    · have hpc' : s.pc = .opening := by
        by_contra hne
        exact hno ⟨hpc, hne⟩
      obtain ⟨last, hrun, hlost⟩ := hopening { s with fired := true, shutdown := s.shutdown.notifyWaiters } rfl hpc'
      exact ⟨_, last, hrun, hlost⟩
  | stop hpc hflag => exact absurd (fun _ => hflag) hno
  | goOn hpc hflag =>
    have hfired : s.fired = true := by
      by_contra hne
      exact hno fun hyes => absurd hyes hne
    obtain ⟨last, hrun, hlost⟩ := hsettling { s with pc := .settling } hfired rfl
    exact ⟨_, last, hrun, hlost⟩
  | _ => exact absurd trivial hno

/-- The signal arrives when the loop sleeps. -/
theorem parked_not_lost : ∃ s, s.fired = true ∧ s.pc = .parked ∧ ¬Lost s := by
  have hrun : ∃ s, Machine.Reach step Timely (State.init false false) s ∧
      (s.fired && decide (s.pc = .parked)) = true :=
    Machine.exists_reach (firstCheck ++ [.readFlag, .settle, .park, .signal]) (by decide)
  obtain ⟨s, hreach, hs⟩ := hrun
  rw [Bool.and_eq_true, decide_eq_true_eq] at hs
  exact ⟨s, hs.1, hs.2, not_lost hreach⟩

/-- The signal arrives between the loop's look at the flag and the creation of its future. -/
theorem signal_lost : ∃ s, Reachable false false s ∧ Lost s := by
  have hrun : ∃ s, Reachable false false s ∧
      (s.fired && (decide (s.pc = .parked) && !s.shutdown.woken .loop)) = true :=
    Machine.exists_reach (firstCheck ++ [.readFlag, .settle, .signal, .park, .storeFlag]) (by decide)
  obtain ⟨s, hreach, hs⟩ := hrun
  rw [Bool.and_eq_true, Bool.and_eq_true, decide_eq_true_eq, Bool.not_eq_true'] at hs
  exact ⟨s, hreach, hs⟩

end DiscogsIngestion.Loop
