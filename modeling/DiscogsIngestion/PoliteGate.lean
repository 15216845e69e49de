import DiscogsIngestion.Lib.Machine
import DiscogsIngestion.Lib.Mutex
import DiscogsIngestion.Lib.Spacing
import DiscogsIngestion.PoliteHttp

/-!
# Callers of one polite client

Any number of callers share a client, and with it the instant of its last request.

* `Shared`, `Place`, `callerStep` : `wait_for_polite_gap`, with the loop of `get` around it;
* `State`, `step` : the callers in any order, while time goes on;
* `Placed` : what is known of a caller at its place;
* `gate_spaced` : any two requests are a gap apart, however many callers there are.
-/

namespace DiscogsIngestion.PoliteHttp

/-- What the callers share, with the instants at which one of them has passed the gate, the last one first. -/
structure Shared where
  clock : Nat
  mutex : Option Nat
  lastRequest : Option Nat
  passages : List Nat
  deriving DecidableEq, Repr

/-- Where a caller of `get` is, and how many of its requests have been throttled. -/
inductive Place where
  | idle
  | waiting (throttled : Nat)
  /-- Behind the mutex, before the look at the last request. -/
  | gate (throttled : Nat)
  | pausing (throttled deadline : Nat)
  /-- Behind the pause. -/
  | passing (throttled : Nat)
  | sending (throttled : Nat)
  | cooling (throttled deadline : Nat)
  | done (outcome : Outcome)
  deriving DecidableEq, Repr

def Place.inside : Place → Bool
  | .gate _ | .pausing _ _ | .passing _ => true
  | _ => false

inductive CallerAction where
  | call
  | acquire
  | look
  | resume
  | pass
  /-- The response, if there is one. -/
  | reply (response : Option Response)
  | retry
  /-- The future is dropped. -/
  | cancel
  | return
  deriving DecidableEq, Repr

def afterReply (cfg : PoliteConfig) (x : Shared) (throttled : Nat) : Option Response → Place
  | none => .done .failed
  | some response =>
    if !isThrottled response then .done (.response response)
    else
      match checkedAdd32 throttled 1 with
      | none => .done .arithmetic
      | some attempts =>
        let serverWait := parseRetryAfter response
        match chosenWait cfg attempts serverWait with
        | none => .done .arithmetic
        | some wait =>
          if cfg.maxThrottleRetries.toNat < attempts then
            .done (.rateLimited response.status cfg.maxThrottleRetries.toNat serverWait)
          else .cooling attempts (x.clock + wait)

def callerStep (cfg : PoliteConfig) (x : Shared) (i : Nat) : Place → CallerAction → Option (Place × Shared)
  | .idle, .call => some (.waiting 0, x)
  | .waiting n, .acquire => if x.mutex = none then some (.gate n, { x with mutex := some i }) else none
  | .gate n, .look =>
    match gapWait cfg (x.lastRequest.map (x.clock - ·)) with
    | none => some (.done .arithmetic, { x with mutex := none })
    | some 0 => some (.passing n, x)
    | some wait => some (.pausing n (x.clock + wait), x)
  | .pausing n deadline, .resume => if deadline ≤ x.clock then some (.passing n, x) else none
  | .passing n, .pass =>
    some (.sending n,
      { x with lastRequest := some x.clock, passages := x.clock :: x.passages, mutex := none })
  | .sending n, .reply response => some (afterReply cfg x n response, x)
  | .cooling n deadline, .retry => if deadline ≤ x.clock then some (.waiting n, x) else none
  | .done _, .return => some (.idle, x)
  | p, .cancel => some (.idle, if p.inside then { x with mutex := none } else x)
  | _, _ => none

structure State where
  shared : Shared
  callers : Nat → Place

def State.init : State := ⟨⟨0, none, none, []⟩, fun _ => .idle⟩

inductive Action where
  | caller (i : Nat) (a : CallerAction)
  | tick (duration : Nat)
  deriving DecidableEq, Repr

def step (cfg : PoliteConfig) (s : State) : Action → Option State
  | .caller i a =>
    (callerStep cfg s.shared i (s.callers i) a).map fun (p, shared) => ⟨shared, Function.update s.callers i p⟩
  | .tick duration => some { s with shared := { s.shared with clock := s.shared.clock + duration } }

/-! ## The steps of a caller -/

inductive CallerStep (cfg : PoliteConfig) (x : Shared) (i : Nat) : Place → Place → Shared → Prop
  | call : CallerStep cfg x i .idle (.waiting 0) x
  | acquire (n : Nat) : x.mutex = none → CallerStep cfg x i (.waiting n) (.gate n) { x with mutex := some i }
  | open (n : Nat) : gapWait cfg (x.lastRequest.map (x.clock - ·)) = some 0 →
      CallerStep cfg x i (.gate n) (.passing n) x
  | pause (n wait : Nat) : gapWait cfg (x.lastRequest.map (x.clock - ·)) = some wait →
      CallerStep cfg x i (.gate n) (.pausing n (x.clock + wait)) x
  | resume (n deadline : Nat) : deadline ≤ x.clock → CallerStep cfg x i (.pausing n deadline) (.passing n) x
  | pass (n : Nat) : CallerStep cfg x i (.passing n) (.sending n)
      { x with lastRequest := some x.clock, passages := x.clock :: x.passages, mutex := none }
  | reply (n : Nat) (response : Option Response) :
      CallerStep cfg x i (.sending n) (afterReply cfg x n response) x
  | retry (n deadline : Nat) : deadline ≤ x.clock → CallerStep cfg x i (.cooling n deadline) (.waiting n) x
  | return (outcome : Outcome) : CallerStep cfg x i (.done outcome) .idle x
  | cancelOutside {p : Place} : p.inside = false → CallerStep cfg x i p .idle x
  | cancelInside {p : Place} : p.inside = true → CallerStep cfg x i p .idle { x with mutex := none }

variable {cfg : PoliteConfig} {x x' : Shared} {i : Nat} {p p' : Place} {a : CallerAction}

theorem CallerStep.of_step (h : callerStep cfg x i p a = some (p', x')) : CallerStep cfg x i p p' x' := by
  unfold callerStep at h
  split at h
  · obtain ⟨rfl, rfl⟩ := Prod.mk.inj (Option.some.inj h)
    exact .call
  · split_ifs at h with hfree
    obtain ⟨rfl, rfl⟩ := Prod.mk.inj (Option.some.inj h)
    exact .acquire _ hfree
  · split at h
    next hnone =>
      obtain ⟨wait, hwait⟩ := gapWait_isSome cfg (x.lastRequest.map (x.clock - ·))
      exact absurd (hnone.symm.trans hwait).symm (Option.some_ne_none wait)
    next hzero =>
      obtain ⟨rfl, rfl⟩ := Prod.mk.inj (Option.some.inj h)
      exact .open _ hzero
    next wait _ hwait =>
      obtain ⟨rfl, rfl⟩ := Prod.mk.inj (Option.some.inj h)
      exact .pause _ wait hwait
  · split_ifs at h with hdue
    obtain ⟨rfl, rfl⟩ := Prod.mk.inj (Option.some.inj h)
    exact .resume _ _ hdue
  · obtain ⟨rfl, rfl⟩ := Prod.mk.inj (Option.some.inj h)
    exact .pass _
  · obtain ⟨rfl, rfl⟩ := Prod.mk.inj (Option.some.inj h)
    exact .reply _ _
  · split_ifs at h with hdue
    obtain ⟨rfl, rfl⟩ := Prod.mk.inj (Option.some.inj h)
    exact .retry _ _ hdue
  · obtain ⟨rfl, rfl⟩ := Prod.mk.inj (Option.some.inj h)
    exact .return _
  · split_ifs at h with hin
    · obtain ⟨rfl, rfl⟩ := Prod.mk.inj (Option.some.inj h)
      exact .cancelInside hin
    · obtain ⟨rfl, rfl⟩ := Prod.mk.inj (Option.some.inj h)
      exact .cancelOutside (Bool.eq_false_iff.2 hin)
  · cases h

/-! ## What all steps keep -/

/-- The instants behind the gate are a gap apart, and the last one is stored. -/
structure Tidy (cfg : PoliteConfig) (x : Shared) : Prop where
  spaced : Spacing.Spaced cfg.minGap x.passages
  last : x.lastRequest = x.passages.head?
  past : ∀ t ∈ x.passages, t ≤ x.clock

/-- A request at this instant would keep the gap. -/
def Spares (cfg : PoliteConfig) (x : Shared) (t : Nat) : Prop := ∀ last ∈ x.lastRequest, last + cfg.minGap ≤ t

/-- What is known of a caller at its place. -/
def Placed (cfg : PoliteConfig) (x : Shared) : Place → Prop
  | .idle => True
  | .waiting n | .gate n | .sending n => n ≤ cfg.maxThrottleRetries.toNat
  | .pausing n deadline =>
    n ≤ cfg.maxThrottleRetries.toNat ∧ Spares cfg x deadline ∧ deadline ≤ x.clock + cfg.minGap
  | .passing n => n ≤ cfg.maxThrottleRetries.toNat ∧ Spares cfg x x.clock
  | .cooling n deadline => n ≤ cfg.maxThrottleRetries.toNat ∧ deadline ≤ x.clock + cfg.maxRetryAfter
  | .done outcome => outcome = .arithmetic → 64 ≤ cfg.maxThrottleRetries.toNat

theorem gapWait_spares {wait : Nat} (htidy : Tidy cfg x)
    (h : gapWait cfg (x.lastRequest.map (x.clock - ·)) = some wait) :
    Spares cfg x (x.clock + wait) ∧ wait ≤ cfg.minGap := by
  unfold gapWait checkedSub at h
  cases hlast : x.lastRequest with
  | none =>
    rw [hlast] at h
    obtain rfl := Option.some.inj h
    refine ⟨fun last hmem => ?_, Nat.zero_le _⟩
    rw [hlast] at hmem
    cases hmem
  | some last =>
    have hpast : last ≤ x.clock := by
      refine htidy.past last (List.mem_of_mem_head? ?_)
      rw [← htidy.last, hlast]
      rfl
    rw [hlast, Option.map_some] at h
    have hwait : last + cfg.minGap ≤ x.clock + wait ∧ wait ≤ cfg.minGap := by
      dsimp only at h
      split_ifs at h
      · obtain rfl := Option.some.inj h
        omega
      · obtain rfl := Option.some.inj h
        omega
    refine ⟨fun t ht => ?_, hwait.2⟩
    rw [hlast] at ht
    rw [← Option.some.inj ht]
    exact hwait.1

theorem placed_afterReply {n : Nat} (hn : n ≤ cfg.maxThrottleRetries.toNat) (response : Option Response) :
    Placed cfg x (afterReply cfg x n response) := by
  unfold afterReply
  split
  · exact fun h => Outcome.noConfusion h
  · next response =>
    split_ifs
    · exact fun h => Outcome.noConfusion h
    · have hmax := cfg.maxThrottleRetries.toNat_lt
      split
      next hadd =>
        intro _
        unfold checkedAdd32 at hadd
        split_ifs at hadd
        omega
      next attempts hadd =>
        unfold checkedAdd32 at hadd
        split_ifs at hadd
        obtain rfl := Option.some.inj hadd
        dsimp only
        split
        next hwait =>
          intro _
          exact (chosenWait_eq_none.1 hwait).2.trans hn
        next wait hwait =>
          split_ifs
          · exact fun h => Outcome.noConfusion h
          · exact ⟨by omega, Nat.add_le_add_left (chosenWait_le hwait) _⟩

theorem afterReply_inside (n : Nat) (response : Option Response) : (afterReply cfg x n response).inside = false := by
  unfold afterReply
  cases response with
  | none => rfl
  | some response =>
    dsimp only
    split_ifs
    · rfl
    · cases checkedAdd32 n 1 with
      | none => rfl
      | some attempts =>
        dsimp only
        cases chosenWait cfg attempts (parseRetryAfter response) with
        | none => rfl
        | some wait =>
          dsimp only
          split_ifs <;> rfl

/-- The mutex of the client, and what is known of it and its callers. -/
def protocol (cfg : PoliteConfig) : Mutex.Protocol Shared Nat Place := ⟨(·.mutex), Place.inside, Tidy cfg, Placed cfg⟩

theorem CallerStep.tidy (h : CallerStep cfg x i p p' x') (htidy : Tidy cfg x) (hplaced : Placed cfg x p) :
    Tidy cfg x' := by
  cases h with
  | pass n =>
    refine ⟨htidy.spaced.cons fun last hlast => ?_, rfl, fun t ht => ?_⟩
    · rw [← htidy.last] at hlast
      exact hplaced.2 last hlast
    · obtain rfl | ht := List.mem_cons.1 ht
      · exact le_rfl
      · exact htidy.past t ht
  | _ => exact ⟨htidy.spaced, htidy.last, htidy.past⟩

theorem CallerStep.placed (h : CallerStep cfg x i p p' x') (htidy : Tidy cfg x) (hplaced : Placed cfg x p) :
    Placed cfg x' p' := by
  cases h with
  | call => exact Nat.zero_le _
  | acquire => exact hplaced
  | «open» n hzero => exact ⟨hplaced, (gapWait_spares htidy hzero).1⟩
  | pause n wait hwait =>
    obtain ⟨hspares, hle⟩ := gapWait_spares htidy hwait
    exact ⟨hplaced, hspares, Nat.add_le_add_left hle _⟩
  | resume n deadline hdue => exact ⟨hplaced.1, fun last hlast => (hplaced.2.1 last hlast).trans hdue⟩
  | pass => exact hplaced.1
  | reply n response => exact placed_afterReply hplaced response
  | retry => exact hplaced.1
  | _ => trivial

theorem CallerStep.lawful (h : CallerStep cfg x i p p' x') : Mutex.Lawful (protocol cfg) i x x' p p' where
  tidy := h.tidy
  placed := h.placed
  outside hp := by
    cases h with
    | acquire n hfree => exact .inr ⟨hfree, rfl, rfl⟩
    | call => exact .inl ⟨rfl, rfl⟩
    | reply n response => exact .inl ⟨rfl, afterReply_inside n response⟩
    | retry => exact .inl ⟨rfl, rfl⟩
    | «return» => exact .inl ⟨rfl, rfl⟩
    | cancelOutside => exact .inl ⟨rfl, rfl⟩
    | cancelInside hin => exact absurd (hin.symm.trans hp) Bool.noConfusion
    | _ => cases hp
  inside hp := by
    cases h with
    | «open» => exact .inl ⟨rfl, rfl⟩
    | pause => exact .inl ⟨rfl, rfl⟩
    | resume => exact .inl ⟨rfl, rfl⟩
    | pass => exact .inr ⟨rfl, rfl⟩
    | cancelInside => exact .inr ⟨rfl, rfl⟩
    | cancelOutside hout => exact absurd (hout.symm.trans hp) Bool.noConfusion
    | _ => cases hp
  others r hr hplaced := by
    have hclock : x'.clock = x.clock := by cases h <;> rfl
    cases r with
    | cooling n deadline => exact ⟨hplaced.1, hclock ▸ hplaced.2⟩
    | gate => cases hr
    | pausing => cases hr
    | passing => cases hr
    | _ => exact hplaced

/-! ## Runs -/

def Inv (cfg : PoliteConfig) (s : State) : Prop := Mutex.Inv (protocol cfg) s.shared s.callers

theorem inv_init : Inv cfg .init := by
  refine ⟨fun i => ⟨fun h => Bool.noConfusion h, fun h => absurd h.symm (Option.some_ne_none i)⟩,
    ⟨List.Pairwise.nil, rfl, fun t ht => ?_⟩, fun _ => trivial⟩
  exact absurd ht List.not_mem_nil

theorem inv_step {s s' : State} {a : Action} (h : Inv cfg s) (hs : step cfg s a = some s') : Inv cfg s' := by
  cases a with
  | caller i a =>
    obtain ⟨⟨p', x'⟩, hcaller, rfl⟩ := Option.map_eq_some_iff.1 hs
    exact h.step (CallerStep.of_step hcaller).lawful
  | tick duration =>
    obtain rfl := Option.some.inj hs
    refine h.env rfl ⟨h.tidy.spaced, h.tidy.last, fun t ht => ?_⟩ fun p hp => ?_
    · exact Nat.le_add_right_of_le (h.tidy.past t ht)
    · cases p with
      | pausing n deadline => exact ⟨hp.1, hp.2.1, hp.2.2.trans (Nat.add_le_add_right (Nat.le_add_right ..) _)⟩
      | passing n => exact ⟨hp.1, fun last hlast => Nat.le_add_right_of_le (hp.2 last hlast)⟩
      | cooling n deadline => exact ⟨hp.1, hp.2.trans (Nat.add_le_add_right (Nat.le_add_right ..) _)⟩
      | _ => exact hp

theorem inv_of_reach {s : State} (h : Machine.Reach (step cfg) Machine.always .init s) : Inv cfg s :=
  h.invariant inv_init fun _ _ _ hI _ hs => inv_step hI hs

/-- However many callers share a client, and wherever their futures are dropped: any two requests are a gap apart, so
that a window of time has no more of them than gaps; one caller at a time is in the gate, and pauses there for a gap
at most; each caller goes through it once more than there are retries, at most, and cools down no longer than the cap
on `Retry-After`; and with fewer than 64 retries no backoff leaves its range. -/
theorem gate_spaced {s : State} (h : Machine.Reach (step cfg) Machine.always .init s) :
    Spacing.Spaced cfg.minGap s.shared.passages ∧
    (∀ first length,
      (s.shared.passages.countP (fun t => first ≤ t ∧ t ≤ first + length) - 1) * cfg.minGap ≤ length) ∧
    (∀ i j, (s.callers i).inside = true → (s.callers j).inside = true → i = j) ∧
    (∀ i n deadline, s.callers i = .pausing n deadline → deadline ≤ s.shared.clock + cfg.minGap) ∧
    (∀ i n, s.callers i = .sending n → n ≤ cfg.maxThrottleRetries.toNat) ∧
    (∀ i n deadline, s.callers i = .cooling n deadline → deadline ≤ s.shared.clock + cfg.maxRetryAfter) ∧
    (cfg.maxThrottleRetries.toNat < 64 → ∀ i, s.callers i ≠ .done .arithmetic) := by
  have hinv := inv_of_reach h
  have hplaced : ∀ {i : Nat} {p : Place}, s.callers i = p → Placed cfg s.shared p := by
    rintro i p rfl
    exact hinv.placed i
  exact ⟨hinv.tidy.spaced, hinv.tidy.spaced.countP_le, fun i j hi hj => hinv.owned.unique hi hj,
    fun i n deadline hi => (hplaced hi).2.2, fun i n hi => hplaced hi, fun i n deadline hi => (hplaced hi).2,
    fun hretries i hi => absurd (hplaced hi rfl) (Nat.not_le.2 hretries)⟩

/-- The second of two callers pauses for the gap, while the first one is told to come back. -/
def twoRequests : List Action :=
  [.tick 7, .caller 0 .call, .caller 1 .call, .caller 0 .acquire, .caller 0 .look, .caller 0 .pass,
    .caller 1 .acquire, .caller 1 .look, .caller 0 (.reply (some ⟨429, none⟩)), .tick 5000000000, .caller 1 .resume,
    .caller 1 .pass]

theorem gate_spaced_twoRequests : ∃ s : State, s.shared.passages = [5000000007, 7] ∧
    (∀ first length,
      (s.shared.passages.countP (fun t => first ≤ t ∧ t ≤ first + length) - 1) * 5000000000 ≤ length) := by
  have hrun : ∃ s, Machine.Reach (step .discogs) Machine.always .init s ∧
      decide (s.shared.passages = [5000000007, 7]) = true := Machine.exists_reach twoRequests (by decide)
  obtain ⟨s, hreach, hs⟩ := hrun
  exact ⟨s, of_decide_eq_true hs, (gate_spaced hreach).2.1⟩

end DiscogsIngestion.PoliteHttp
