import DiscogsIngestion.Loop.Machine

/-!
# The status between checks

* `lastEnded` : whether the last check has ended in a failure that no shutdown explains;
* `StatusFits` : the status that belongs to each place of the loop;
* `statusFits_step` : every step keeps it;
* `parked_status` : the parked loop is waiting or has failed, and a failure stays until the next check runs.
-/

namespace DiscogsIngestion.Loop

def Event.failure : Event → Option Bool
  | .ended failed => some failed
  | _ => none

/-- Whether the last check that has ended has failed, other than by a shutdown. -/
def lastEnded (log : List Event) : Option Bool := (log.filterMap Event.failure).getLast?

/-- The status `good` belongs to the end of a check without failure, and `failed` to any. -/
def Rests (s : State) (good : ExtractionStatus) : Prop :=
  s.status = .failed ∨ (s.status = good ∧ lastEnded s.log ≠ some true)

/-- The status that belongs to a place of the loop. When the shutdown flag is set the loop does not park again. -/
def StatusFits (s : State) : Prop :=
  match s.pc with
  | .processing _ _ => s.status = .running
  | .returned _ (.ok true) => s.status = .completed ∧ lastEnded s.log ≠ some true
  | .returned _ (.ok false) => s.shutdownFlag = true ∨ s.status = .failed
  | .checking => s.shutdownFlag = true ∨ Rests s .completed
  | .settling => Rests s .completed
  | .opening => Rests s .waiting
  | .parked => Rests s .waiting
  | _ => True

variable {s s' : State}

theorem lastEnded_append (log : List Event) (e : Event) :
    lastEnded (log ++ [e]) = match e with
      | .ended failed => some failed
      | _ => lastEnded log := by
  unfold lastEnded
  rw [List.filterMap_append]
  cases e with
  | ended failed => exact List.getLast?_concat
  | _ => simp [Event.failure]

theorem StatusFits.congr (h : StatusFits s) (hpc : s'.pc = s.pc) (hstatus : s'.status = s.status)
    (hlog : lastEnded s'.log = lastEnded s.log) (hflag : s.shutdownFlag = true → s'.shutdownFlag = true) :
    StatusFits s' := by
  unfold StatusFits Rests at h ⊢
  rw [hpc, hstatus, hlog]
  split at h
  · exact h
  · exact h
  · exact h.imp_left hflag
  · exact h.imp_left hflag
  · exact h
  · exact h
  · exact h
  · trivial

theorem statusFits_finish (kind : Kind) (force : Bool) (a : Answers) : StatusFits (s.finish kind force a) := by
  have hfits := (processDiscogsData_ends a force).fits s.status
  unfold State.finish
  rcases hout : outcome (processDiscogsData a force) s.status with ⟨result, status⟩
  rw [hout] at hfits
  cases result with
  | error e => trivial
  | ok success =>
    cases success with
    | false => exact .inr hfits
    | true =>
      refine ⟨hfits, ?_⟩
      show lastEnded (s.log ++ [.ended false]) ≠ some true
      rw [lastEnded_append]
      simp

theorem statusFits_step {a : Action} (h : StatusFits s) (hstep : step s a = some s') : StatusFits s' := by
  have hmove := step_move hstep
  unfold StatusFits at h
  cases hmove with
  | spawnMonitor _ | build _ | giveUp _ | buildFailed _ _ | enter _ _ | returnError _ | failed _ _ | stop _ _ | timer _
  | pollTrigger _ _ | shutdownArm _ => trivial
  | refuse hpc hflag => exact .inl hflag
  | reset hpc => exact rfl
  | finish hpc hflag => exact statusFits_finish ..
  | @returnInitial success hpc =>
    rw [hpc] at h
    unfold State.initialOutcome
    split
    · trivial
    · next hgo =>
      by_cases hlocal : s.localManifest = true
      · rw [if_pos hlocal]
        trivial
      · rw [if_neg hlocal]
        cases success with
        | true => exact .inr (.inr h)
        | false => exact .inl (by simpa using hgo)
  | @returned kind success hpc hkind =>
    rw [hpc] at h
    cases success with
    | true => exact .inr (.inr h)
    | false => exact h.imp_right .inl
  | resetStatus hpc => exact .inr (.inl rfl)
  | goOn hpc hflag =>
    rw [hpc] at h
    refine h.resolve_left fun hset => ?_
    rw [hflag] at hset
    exact nomatch hset
  | settle hpc =>
    rw [hpc] at h
    rcases h with hfailed | ⟨hcompleted, hlast⟩
    · refine .inl ?_
      show (if s.status = .completed then ExtractionStatus.waiting else s.status) = .failed
      rw [hfailed]
      rfl
    · refine .inr ⟨?_, hlast⟩
      show (if s.status = .completed then ExtractionStatus.waiting else s.status) = .waiting
      rw [if_pos hcompleted]
  | park hpc =>
    rw [hpc] at h
    exact h
  | signal | pollMonitor _ | post => exact StatusFits.congr h rfl rfl rfl id
  | storeFlag _ => exact StatusFits.congr h rfl rfl rfl fun _ => rfl
  | handler hstep =>
    refine StatusFits.congr h hstep.pc hstep.status ?_ fun hset => hstep.shutdownFlag ▸ hset
    rcases hstep.stored with ⟨-, hlog⟩ | ⟨force, -, hlog⟩
    · rw [hlog]
    · rw [hlog, lastEnded_append]

theorem Reachable.statusFits {localManifest forceReprocess : Bool} (h : Reachable localManifest forceReprocess s) :
    StatusFits s :=
  h.invariant trivial fun _ _ _ hs _ hstep => statusFits_step hs hstep

/-- A failure stays until a check sets the status to `running`. -/
theorem failed_step {a : Action} (h : StatusFits s) (hfailed : s.status = .failed) (hstep : step s a = some s') :
    s'.status = .failed ∨ ((∃ kind force, s.pc = .resetting kind force) ∧ s'.status = .running) := by
  have hmove := step_move hstep
  cases hmove with
  | reset hpc => exact .inr ⟨⟨_, _, hpc⟩, rfl⟩
  | finish hpc hflag =>
    unfold StatusFits at h
    rw [hpc, hfailed] at h
    exact nomatch h
  | resetStatus _ => exact .inl rfl
  | settle _ =>
    refine .inl ?_
    show (if s.status = .completed then ExtractionStatus.waiting else s.status) = .failed
    rw [hfailed]
    rfl
  | returnInitial _ =>
    refine .inl ?_
    unfold State.initialOutcome
    split <;> exact hfailed
  | handler hstep => exact .inl (hstep.status.trans hfailed)
  | _ => exact .inl hfailed

/-- The parked loop is waiting or has failed; it has failed if the last check did, unless by a shutdown; and a failure
stays until a check sets the status to `running`. -/
theorem parked_status {localManifest forceReprocess : Bool} (h : Reachable localManifest forceReprocess s) :
    (s.pc = .parked → (s.status = .waiting ∨ s.status = .failed) ∧
      (lastEnded s.log = some true → s.status = .failed)) ∧
    ∀ a s', step s a = some s' → s.status = .failed →
      s'.status = .failed ∨ ((∃ kind force, s.pc = .resetting kind force) ∧ s'.status = .running) := by
  have hfits := h.statusFits
  refine ⟨fun hpc => ?_, fun a s' hstep hfailed => failed_step hfits hfailed hstep⟩
  unfold StatusFits at hfits
  rw [hpc] at hfits
  rcases hfits with hfailed | ⟨hwaiting, hlast⟩
  · exact ⟨.inr hfailed, fun _ => hfailed⟩
  · exact ⟨.inl hwaiting, fun hyes => absurd hyes hlast⟩

/-- The listing of files fails in the second check. -/
theorem parked_failed : ∃ s : State, s.pc = .parked ∧ lastEnded s.log = some true ∧ s.status = .failed := by
  have hrun : ∃ s, Reachable false false s ∧
      (decide (s.pc = .parked) && decide (lastEnded s.log = some true)) = true :=
    Machine.exists_reach (firstCheck ++ [.readFlag, .settle, .park, .timer, .build true, .enter, .reset,
      .finish { noFiles with listS3Files := none }, .return, .resetStatus, .readFlag, .settle, .park]) (by decide)
  obtain ⟨s, hreach, hs⟩ := hrun
  rw [Bool.and_eq_true, decide_eq_true_eq, decide_eq_true_eq] at hs
  exact ⟨s, hs.1, hs.2, ((parked_status hreach).1 hs.1).2 hs.2⟩

end DiscogsIngestion.Loop
