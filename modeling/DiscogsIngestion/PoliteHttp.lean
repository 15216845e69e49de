import DiscogsIngestion.Text

/-!
# The polite client

Durations are in nanoseconds. Arithmetic on machine integers that leaves their range gives nothing.

* `PoliteConfig`, `Response`, `parseRetryAfter` : the limits, and what the server answers;
* `chosenWait`, `gapWait` : the waits before a retry and before any request;
* `getFrom`, `get` : the retry loop; `Ends`, `getFrom_ends` : how it can end;
* `get_bounded_iff` : the loop keeps its bounds exactly if every wait can be computed.
-/

namespace DiscogsIngestion.PoliteHttp

/-! ## Machine arithmetic -/

def checkedAdd32 (a b : Nat) : Option Nat := if a + b < 2 ^ 32 then some (a + b) else none

def checkedSub (a b : Nat) : Option Nat := if b ≤ a then some (a - b) else none

def checkedShl64 (a n : Nat) : Option Nat := if n < 64 then some (a * 2 ^ n % 2 ^ 64) else none

def saturatingMul64 (a b : Nat) : Nat := min (a * b) (2 ^ 64 - 1)

def fromSecs (secs : Nat) : Nat := secs * 1000000000

/-! ## Requests -/

structure PoliteConfig where
  minGap : Nat
  maxRetryAfter : Nat
  maxThrottleRetries : UInt32
  deriving DecidableEq, Repr

def PoliteConfig.discogs : PoliteConfig where
  minGap := fromSecs 5
  maxRetryAfter := fromSecs (2 * 60 * 60)
  maxThrottleRetries := 5

/-- A response, less its body, with the bytes of the `Retry-After` header. -/
structure Response where
  status : Nat
  retryAfter : Option (List UInt8)
  deriving DecidableEq, Repr

/-- `HeaderValue::to_str` : the visible ASCII characters, spaces and tabs. -/
def toStr (bytes : List UInt8) : Option String :=
  if bytes.all fun b => (32 ≤ b && b < 127) || b = 9 then some (String.ofList (bytes.map fun b => Char.ofNat b.toNat))
  else none

/-- The seconds form of the header. -/
def parseRetryAfter (response : Response) : Option Nat :=
  (response.retryAfter.bind toStr).bind fun s => (parseU64 (trim s)).map fromSecs

/-- The backoff without a hint: thirty seconds, doubled with each attempt. -/
def defaultWait (throttledAttempts : Nat) : Option Nat :=
  (checkedShl64 1 (throttledAttempts - 1)).map fun factor => fromSecs (saturatingMul64 30 factor)

def chosenWait (cfg : PoliteConfig) (throttledAttempts : Nat) (serverWait : Option Nat) : Option Nat :=
  match serverWait with
  | some d => some (min d cfg.maxRetryAfter)
  | none => (defaultWait throttledAttempts).map fun d => min d cfg.maxRetryAfter

/-- The wait before a request, given the time since the last one of the client. -/
def gapWait (cfg : PoliteConfig) (elapsed : Option Nat) : Option Nat :=
  match elapsed with
  | some elapsed => if elapsed < cfg.minGap then checkedSub cfg.minGap elapsed else some 0
  | none => some 0

/-- One request: the time since the last one, and the response if there is one. -/
structure Exchange where
  elapsed : Option Nat
  reply : Option Response

inductive Outcome where
  | response (r : Response)
  | failed
  | rateLimited (status retries : Nat) (serverWait : Option Nat)
  /-- An operation that leaves the range of its integers. -/
  | arithmetic
  deriving DecidableEq, Repr

/-- What a call of `get` has done: how many requests, and the sleeps between them. -/
structure Trace where
  requests : Nat
  sleeps : List Nat
  outcome : Outcome
  deriving DecidableEq, Repr

def isThrottled (response : Response) : Bool := response.status = 429 || response.status = 503

/-- The retry loop. As many requests have been throttled as have been made. -/
def getFrom (cfg : PoliteConfig) (exchanges : Nat → Exchange) (throttledAttempts : Nat) : Trace :=
  match gapWait cfg (exchanges throttledAttempts).elapsed with
  | none => ⟨0, [], .arithmetic⟩
  | some _ =>
    match (exchanges throttledAttempts).reply with
    | none => ⟨1, [], .failed⟩
    | some response =>
      if !isThrottled response then ⟨1, [], .response response⟩
      else
        match _hadd : checkedAdd32 throttledAttempts 1 with
        | none => ⟨1, [], .arithmetic⟩
        | some attempts =>
          let serverWait := parseRetryAfter response
          -- the wait is chosen before the loop may give up
          match chosenWait cfg attempts serverWait with
          | none => ⟨1, [], .arithmetic⟩
          | some wait =>
            if cfg.maxThrottleRetries.toNat < attempts then
              ⟨1, [], .rateLimited response.status cfg.maxThrottleRetries.toNat serverWait⟩
            else
              let rest := getFrom cfg exchanges attempts
              ⟨rest.requests + 1, wait :: rest.sleeps, rest.outcome⟩
termination_by 2 ^ 32 - throttledAttempts
decreasing_by
  unfold checkedAdd32 at _hadd
  split_ifs at _hadd with hlt
  obtain rfl := Option.some.inj _hadd
  omega

def get (cfg : PoliteConfig) (exchanges : Nat → Exchange) : Trace := getFrom cfg exchanges 0

/-! ## The waits -/

theorem gapWait_isSome (cfg : PoliteConfig) (elapsed : Option Nat) : ∃ wait, gapWait cfg elapsed = some wait := by
  unfold gapWait checkedSub
  cases elapsed with
  | none => exact ⟨0, rfl⟩
  | some elapsed =>
    dsimp only
    split_ifs with hlt hle
    · exact ⟨_, rfl⟩
    · exact absurd hlt.le hle
    · exact ⟨0, rfl⟩

theorem chosenWait_le {cfg : PoliteConfig} {attempts wait : Nat} {serverWait : Option Nat}
    (h : chosenWait cfg attempts serverWait = some wait) : wait ≤ cfg.maxRetryAfter := by
  unfold chosenWait at h
  cases serverWait with
  | some d =>
    obtain rfl := Option.some.inj h
    exact min_le_right ..
  | none =>
    obtain ⟨d, -, rfl⟩ := Option.map_eq_some_iff.1 h
    exact min_le_right ..

/-- Without a hint the wait is computed up to the sixty-fourth attempt. -/
theorem chosenWait_eq_none {cfg : PoliteConfig} {attempts : Nat} {serverWait : Option Nat} :
    chosenWait cfg (attempts + 1) serverWait = none ↔ serverWait = none ∧ 64 ≤ attempts := by
  unfold chosenWait defaultWait checkedShl64
  cases serverWait with
  | some d => simp
  | none =>
    rw [Nat.add_sub_cancel]
    split_ifs with hlt
    · simp [hlt]
    · simpa using hlt

/-! ## The loop -/

section Loop

variable {cfg : PoliteConfig} {elapsed : Nat → Option Nat} {responses : Nat → Response}

def answered (elapsed : Nat → Option Nat) (responses : Nat → Response) (i : Nat) : Exchange :=
  ⟨elapsed i, some (responses i)⟩

/-- The wait after this response can be computed. -/
def Waitable (responses : Nat → Response) (i : Nat) : Prop :=
  i + 1 < 2 ^ 32 ∧ (parseRetryAfter (responses i) = none → i < 64)

/-- How the loop ends that has made this many requests. -/
inductive Ends (cfg : PoliteConfig) (responses : Nat → Response) (attempts : Nat) : Outcome → Prop where
  | answered (i : Nat) : attempts ≤ i → i ≤ cfg.maxThrottleRetries.toNat →
      (∀ j, attempts ≤ j → j < i → isThrottled (responses j) = true ∧ Waitable responses j) →
      isThrottled (responses i) = false → Ends cfg responses attempts (.response (responses i))
  | limited : (∀ j, attempts ≤ j → j ≤ cfg.maxThrottleRetries.toNat →
        isThrottled (responses j) = true ∧ Waitable responses j) →
      Ends cfg responses attempts
        (.rateLimited (responses cfg.maxThrottleRetries.toNat).status cfg.maxThrottleRetries.toNat
          (parseRetryAfter (responses cfg.maxThrottleRetries.toNat)))
  | unwaitable (i : Nat) : attempts ≤ i → i ≤ cfg.maxThrottleRetries.toNat →
      (∀ j, attempts ≤ j → j ≤ i → isThrottled (responses j) = true) → ¬Waitable responses i →
      Ends cfg responses attempts .arithmetic

theorem getFrom_answered (attempts : Nat) (h : isThrottled (responses attempts) = false) :
    getFrom cfg (answered elapsed responses) attempts = ⟨1, [], .response (responses attempts)⟩ := by
  obtain ⟨gap, hgap⟩ := gapWait_isSome cfg (elapsed attempts)
  unfold getFrom answered
  simp [hgap, h]

theorem getFrom_throttled {attempts : Nat} (h : isThrottled (responses attempts) = true)
    (hlt : attempts + 1 < 2 ^ 32) : getFrom cfg (answered elapsed responses) attempts =
      match chosenWait cfg (attempts + 1) (parseRetryAfter (responses attempts)) with
      | none => ⟨1, [], .arithmetic⟩
      | some wait =>
        if cfg.maxThrottleRetries.toNat < attempts + 1 then
          ⟨1, [], .rateLimited (responses attempts).status cfg.maxThrottleRetries.toNat
            (parseRetryAfter (responses attempts))⟩
        else
          let rest := getFrom cfg (answered elapsed responses) (attempts + 1)
          ⟨rest.requests + 1, wait :: rest.sleeps, rest.outcome⟩ := by
  obtain ⟨gap, hgap⟩ := gapWait_isSome cfg (elapsed attempts)
  have hadd : checkedAdd32 attempts 1 = some (attempts + 1) := if_pos hlt
  rw [getFrom]
  unfold answered
  dsimp only
  rw [hgap]
  dsimp only
  rw [h, if_neg (by decide)]
  split
  next hnone => exact nomatch hnone.symm.trans hadd
  next attempts' hsome =>
    obtain rfl := Option.some.inj (hsome.symm.trans hadd)
    rfl

theorem getFrom_overflow {attempts : Nat} (h : isThrottled (responses attempts) = true)
    (hlt : ¬attempts + 1 < 2 ^ 32) :
    getFrom cfg (answered elapsed responses) attempts = ⟨1, [], .arithmetic⟩ := by
  obtain ⟨gap, hgap⟩ := gapWait_isSome cfg (elapsed attempts)
  have hadd : checkedAdd32 attempts 1 = none := if_neg hlt
  rw [getFrom]
  unfold answered
  dsimp only
  rw [hgap]
  dsimp only
  rw [h, if_neg (by decide)]
  split
  next hnone => rfl
  next attempts' hsome => exact nomatch hsome.symm.trans hadd

theorem getFrom_unwaitable {attempts : Nat} (h : isThrottled (responses attempts) = true)
    (hwait : ¬Waitable responses attempts) :
    getFrom cfg (answered elapsed responses) attempts = ⟨1, [], .arithmetic⟩ := by
  by_cases hlt : attempts + 1 < 2 ^ 32
  · have hnone : chosenWait cfg (attempts + 1) (parseRetryAfter (responses attempts)) = none := by
      rw [chosenWait_eq_none]
      by_contra hsome
      exact hwait ⟨hlt, fun hhint => by_contra fun hle => hsome ⟨hhint, not_lt.1 hle⟩⟩
    rw [getFrom_throttled h hlt, hnone]
  · exact getFrom_overflow h hlt

variable (cfg) in
theorem chosenWait_of_waitable {attempts : Nat} (hwait : Waitable responses attempts) :
    ∃ wait, chosenWait cfg (attempts + 1) (parseRetryAfter (responses attempts)) = some wait ∧
      wait ≤ cfg.maxRetryAfter := by
  cases hchosen : chosenWait cfg (attempts + 1) (parseRetryAfter (responses attempts)) with
  | none =>
    obtain ⟨hhint, hle⟩ := chosenWait_eq_none.1 hchosen
    exact absurd (hwait.2 hhint) (not_lt.2 hle)
  | some wait => exact ⟨wait, rfl, chosenWait_le hchosen⟩

/-- A first request that is throttled, and whose wait can be computed, goes before what follows. -/
theorem Ends.cons {attempts : Nat} {outcome : Outcome} (h : isThrottled (responses attempts) = true)
    (hwait : Waitable responses attempts) (hends : Ends cfg responses (attempts + 1) outcome) :
    Ends cfg responses attempts outcome := by
  have hfirst : ∀ {p : Nat → Prop} {j : Nat}, p attempts → (attempts + 1 ≤ j → p j) → attempts ≤ j → p j := by
    intro p j hp hrest hj
    rcases hj.eq_or_lt with rfl | hlt
    · exact hp
    · exact hrest hlt
  cases hends with
  | answered i hle hmax hbefore hi =>
    refine .answered i (by omega) hmax (fun j hj hji => ?_) hi
    exact hfirst (p := fun j => isThrottled (responses j) = true ∧ Waitable responses j) ⟨h, hwait⟩
      (fun hlt => hbefore j hlt hji) hj
  | limited hall =>
    refine .limited fun j hj hmax => ?_
    exact hfirst (p := fun j => isThrottled (responses j) = true ∧ Waitable responses j) ⟨h, hwait⟩
      (fun hlt => hall j hlt hmax) hj
  | unwaitable i hle hmax hthrottled hi =>
    refine .unwaitable i (by omega) hmax (fun j hj hji => ?_) hi
    exact hfirst (p := fun j => isThrottled (responses j) = true) h (fun hlt => hthrottled j hlt hji) hj

/-- The loop after these attempts: how many requests it makes, how long it sleeps, and how it ends. -/
structure Runs (cfg : PoliteConfig) (responses : Nat → Response) (attempts : Nat) (t : Trace) : Prop where
  requests : attempts + t.requests ≤ cfg.maxThrottleRetries.toNat + 1
  sleeps : ∀ wait ∈ t.sleeps, wait ≤ cfg.maxRetryAfter
  ends : Ends cfg responses attempts t.outcome

/-- One request, and what follows if the loop goes on. -/
theorem runs_step {attempts : Nat} (hle : attempts ≤ cfg.maxThrottleRetries.toNat)
    (hrest : attempts + 1 ≤ cfg.maxThrottleRetries.toNat →
      Runs cfg responses (attempts + 1) (getFrom cfg (answered elapsed responses) (attempts + 1))) :
    Runs cfg responses attempts (getFrom cfg (answered elapsed responses) attempts) := by
  have hself : ∀ j, attempts ≤ j → j ≤ attempts → j = attempts := fun j hj hji => le_antisymm hji hj
  cases hthrottled : isThrottled (responses attempts) with
  | false =>
    rw [getFrom_answered attempts hthrottled]
    exact ⟨Nat.succ_le_succ hle, nofun,
      .answered attempts le_rfl hle (fun j hj hji => absurd hji (not_lt.2 hj)) hthrottled⟩
  | true =>
    by_cases hwait : Waitable responses attempts
    · obtain ⟨wait, hchosen, hcapped⟩ := chosenWait_of_waitable cfg hwait
      rw [getFrom_throttled hthrottled hwait.1, hchosen]
      dsimp only
      split_ifs with hlast
      · obtain heq : attempts = cfg.maxThrottleRetries.toNat := by omega
        refine ⟨Nat.succ_le_succ hle, nofun, ?_⟩
        subst heq
        exact .limited fun j hj hji => hself j hj hji ▸ ⟨hthrottled, hwait⟩
      · obtain ⟨hrequests, hsleeps, hends⟩ := hrest (not_lt.1 hlast)
        refine ⟨?_, List.forall_mem_cons.2 ⟨hcapped, hsleeps⟩, hends.cons hthrottled hwait⟩
        dsimp only
        omega
    · rw [getFrom_unwaitable hthrottled hwait]
      exact ⟨Nat.succ_le_succ hle, nofun,
        .unwaitable attempts le_rfl hle (fun j hj hji => hself j hj hji ▸ hthrottled) hwait⟩

theorem runs_getFrom (n : Nat) {attempts : Nat} (hn : attempts + n = cfg.maxThrottleRetries.toNat) :
    Runs cfg responses attempts (getFrom cfg (answered elapsed responses) attempts) := by
  induction n generalizing attempts with
  | zero => exact runs_step hn.le fun hlt => absurd hn (by omega)
  | succ n ih => exact runs_step (by omega) fun _ => ih (by omega)

theorem runs_get : Runs cfg responses 0 (get cfg (answered elapsed responses)) :=
  runs_getFrom cfg.maxThrottleRetries.toNat (Nat.zero_add _)

end Loop

/-! ## The bounds -/

/-- What is promised of a call: few requests, short sleeps, the first response that is not throttled or an error, and
no arithmetic out of range. -/
structure Bounded (cfg : PoliteConfig) (responses : Nat → Response) (t : Trace) : Prop where
  requests : t.requests ≤ cfg.maxThrottleRetries.toNat + 1
  sleeps : ∀ wait ∈ t.sleeps, wait ≤ cfg.maxRetryAfter
  first : ∀ i ≤ cfg.maxThrottleRetries.toNat, isThrottled (responses i) = false →
    (∀ j < i, isThrottled (responses j) = true) → t.outcome = .response (responses i)
  error : (∀ i ≤ cfg.maxThrottleRetries.toNat, isThrottled (responses i) = true) →
    ∃ status retries serverWait, t.outcome = .rateLimited status retries serverWait
  arithmetic : t.outcome ≠ .arithmetic

/-- Behind throttled responses every wait can be computed. -/
def AllWaitable (cfg : PoliteConfig) (responses : Nat → Response) : Prop :=
  ∀ i ≤ cfg.maxThrottleRetries.toNat, (∀ j ≤ i, isThrottled (responses j) = true) → Waitable responses i

section Bounds

variable {cfg : PoliteConfig} {responses : Nat → Response} {t : Trace}

theorem Runs.bounded (h : Runs cfg responses 0 t) (hwait : AllWaitable cfg responses) : Bounded cfg responses t := by
  obtain ⟨hrequests, hsleeps, hends⟩ := h
  rw [Nat.zero_add] at hrequests
  cases houtcome : t.outcome with
  | failed =>
    rw [houtcome] at hends
    exact nomatch hends
  | response r =>
    rw [houtcome] at hends
    cases hends with
    | answered i _ hmax hbefore hi =>
      refine ⟨hrequests, hsleeps, fun k hk hresponse hearlier => ?_, fun hall => ?_, ?_⟩
      · rcases lt_trichotomy k i with hlt | rfl | hlt
        · exact absurd (hbefore k (Nat.zero_le k) hlt).1 (by rw [hresponse]; exact nofun)
        · exact houtcome
        · exact absurd (hearlier i hlt) (by rw [hi]; exact nofun)
      · exact absurd (hall i hmax) (by rw [hi]; exact nofun)
      · rw [houtcome]
        exact nofun
  | rateLimited status retries serverWait =>
    rw [houtcome] at hends
    cases hends with
    | limited hall =>
      refine ⟨hrequests, hsleeps, fun k hk hresponse _ => ?_, fun _ => ⟨_, _, _, houtcome⟩, ?_⟩
      · exact absurd (hall k (Nat.zero_le k) hk).1 (by rw [hresponse]; exact nofun)
      · rw [houtcome]
        exact nofun
  | arithmetic =>
    rw [houtcome] at hends
    cases hends with
    | unwaitable i _ hmax hthrottled hi =>
      exact absurd (hwait i hmax fun j hj => hthrottled j (Nat.zero_le j) hj) hi

/-- Where a wait cannot be computed the loop comes to it. -/
theorem Runs.arithmetic (h : Runs cfg responses 0 t) {i : Nat} (hi : i ≤ cfg.maxThrottleRetries.toNat)
    (hthrottled : ∀ j ≤ i, isThrottled (responses j) = true) (hwait : ¬Waitable responses i) :
    t.outcome = .arithmetic := by
  have hends := h.ends
  generalize t.outcome = outcome at hends
  cases hends with
  | answered k _ _ hbefore hk =>
    have hlt : i < k := by
      by_contra hle
      rw [hthrottled k (not_lt.1 hle)] at hk
      exact nomatch hk
    exact absurd (hbefore i (Nat.zero_le i) hlt).2 hwait
  | limited hall => exact absurd (hall i (Nat.zero_le i) hi).2 hwait
  | unwaitable => rfl

theorem Runs.allWaitable (h : Runs cfg responses 0 t) (hbounded : Bounded cfg responses t) :
    AllWaitable cfg responses := by
  intro i hi hthrottled
  by_contra hwait
  exact hbounded.arithmetic (h.arithmetic hi hthrottled hwait)

end Bounds

/-- A call keeps its bounds exactly if, as long as all responses are throttled, none from the sixty-fifth on is without
a hint, and the attempts can be counted. -/
theorem get_bounded_iff (cfg : PoliteConfig) (elapsed : Nat → Option Nat) (responses : Nat → Response) :
    Bounded cfg responses (get cfg (answered elapsed responses)) ↔ AllWaitable cfg responses :=
  ⟨runs_get.allWaitable, runs_get.bounded⟩

/-- A client that does not give up in time, and a server that throttles it without a hint. -/
theorem patient_not_bounded :
    let responses : Nat → Response := fun _ => ⟨429, none⟩
    let t := get ⟨0, fromSecs 30, 64⟩ (answered (fun _ => none) responses)
    t.outcome = .arithmetic ∧ ¬Bounded ⟨0, fromSecs 30, 64⟩ responses t := by
  have hruns : Runs ⟨0, fromSecs 30, 64⟩ (fun _ => ⟨429, none⟩) 0
      (get ⟨0, fromSecs 30, 64⟩ (answered (fun _ => none) fun _ => ⟨429, none⟩)) := runs_get
  have hwait : ¬Waitable (fun _ => ⟨429, none⟩) 64 := fun h => absurd (h.2 rfl) (by decide)
  have houtcome := hruns.arithmetic (by decide) (fun _ _ => rfl) hwait
  exact ⟨houtcome, fun hbounded => hbounded.arithmetic houtcome⟩

end DiscogsIngestion.PoliteHttp
