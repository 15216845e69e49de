import Mathlib.Algebra.Order.Ring.Rat
import Mathlib.Data.Rat.Floor
import DiscogsIngestion.Lib.Reservations

/-!
# Pacing

Times and durations are exact, in seconds.

* `TokenBucket`, `TokenBucket.take` : the bucket;
* `pace`, `releases` : publishers that share a bucket, each with the times of its takes;
* `reservations` : the takes as slots that are reserved; `pairwise_reservations` : each spends a token;
* `releases_paced` : the releases are in order, and are limited in every window of time.
-/

namespace DiscogsIngestion.MessageQueue

def publishBurstSeconds : ℚ := 1 / 10

/-- One token per record. Tokens below zero are slots that are reserved. -/
structure TokenBucket where
  rate : ℚ
  capacity : ℚ
  tokens : ℚ
  last : ℚ
  deriving DecidableEq, Repr

namespace TokenBucket

def new (rate now : ℚ) : TokenBucket :=
  let capacity := max (rate * publishBurstSeconds) 1
  { rate, capacity, tokens := capacity, last := now }

/-- Reserve a token: how long to wait before it is used, and the bucket that is left. -/
def take (b : TokenBucket) (now : ℚ) : ℚ × TokenBucket :=
  -- a saturating difference of times
  let elapsed := max 0 (now - b.last)
  let tokens := min (b.tokens + elapsed * b.rate) b.capacity - 1
  (if 0 ≤ tokens then 0 else -tokens / b.rate, { b with last := now, tokens })

end TokenBucket

def pace (pacer : Option TokenBucket) (now : ℚ) : ℚ × Option TokenBucket :=
  match pacer with
  | some bucket => ((bucket.take now).1, some (bucket.take now).2)
  | none => (0, none)

section Shared

variable {Publisher : Type}

/-- The takes of publishers that share a pacer, in the order in which they have the lock: when each is released. -/
def releases : Option TokenBucket → List (Publisher × ℚ) → List (Publisher × ℚ)
  | _, [] => []
  | pacer, (publisher, now) :: rest => (publisher, now + (pace pacer now).1) :: releases (pace pacer now).2 rest

/-- The slots that these takes reserve. -/
def reservations : TokenBucket → List (Publisher × ℚ) → List (Reservations.Slot ℚ)
  | _, [] => []
  | bucket, (_, now) :: rest => ⟨now, (bucket.take now).2.tokens⟩ :: reservations (bucket.take now).2 rest

end Shared

/-! ## One take -/

namespace TokenBucket

variable (b : TokenBucket) (now : ℚ)

@[simp] theorem take_rate : (b.take now).2.rate = b.rate := rfl

@[simp] theorem take_capacity : (b.take now).2.capacity = b.capacity := rfl

@[simp] theorem take_last : (b.take now).2.last = now := rfl

/-- The bucket overflows at its capacity. -/
theorem take_tokens_le : (b.take now).2.tokens ≤ b.capacity - 1 := by
  have hfull : min (b.tokens + max 0 (now - b.last) * b.rate) b.capacity ≤ b.capacity := min_le_right ..
  exact sub_le_sub_right hfull 1

/-- A take later than the last refills the bucket at its rate, and takes a token. -/
theorem take_tokens_le_refill {b : TokenBucket} {now : ℚ} (hlast : b.last ≤ now) :
    (b.take now).2.tokens ≤ b.tokens + b.rate * (now - b.last) - 1 := by
  have hrefill : min (b.tokens + max 0 (now - b.last) * b.rate) b.capacity ≤
      b.tokens + max 0 (now - b.last) * b.rate := min_le_left ..
  rw [max_eq_right (sub_nonneg.2 hlast), mul_comm] at hrefill
  unfold take
  dsimp only
  rw [max_eq_right (sub_nonneg.2 hlast), mul_comm]
  exact sub_le_sub_right hrefill 1

theorem add_take_fst (hrate : 0 < b.rate) :
    now + (b.take now).1 = Reservations.Slot.release b.rate ⟨now, (b.take now).2.tokens⟩ := by
  unfold Reservations.Slot.release
  show now + (if 0 ≤ (b.take now).2.tokens then 0 else -(b.take now).2.tokens / b.rate) = _
  generalize (b.take now).2.tokens = tokens
  split_ifs with htokens
  · rw [max_eq_left]
    exact div_nonpos_of_nonpos_of_nonneg (neg_nonpos.2 htokens) hrate.le
  · rw [max_eq_right]
    exact div_nonneg (neg_nonneg.2 (le_of_not_ge htokens)) hrate.le

end TokenBucket

/-! ## Many takes -/

section Shared

variable {Publisher : Type}

theorem releases_eq {rate : ℚ} (hrate : 0 < rate) (bucket : TokenBucket) (hbucket : bucket.rate = rate)
    (takes : List (Publisher × ℚ)) :
    (releases (some bucket) takes).map Prod.snd =
      (reservations bucket takes).map (Reservations.Slot.release rate) := by
  induction takes generalizing bucket with
  | nil => rfl
  | cons take takes ih =>
    subst hbucket
    unfold releases reservations
    rw [List.map_cons, List.map_cons, ← bucket.add_take_fst _ hrate]
    exact congrArg _ (ih (bucket.take take.2).2 rfl)

theorem publishers_releases (pacer : Option TokenBucket) (takes : List (Publisher × ℚ)) :
    (releases pacer takes).map Prod.fst = takes.map Prod.fst := by
  induction takes generalizing pacer with
  | nil => rfl
  | cons take takes ih =>
    unfold releases
    rw [List.map_cons, List.map_cons, ih]

theorem level_reservations (bucket : TokenBucket) (takes : List (Publisher × ℚ)) :
    ∀ slot ∈ reservations bucket takes, slot.level ≤ bucket.capacity - 1 := by
  induction takes generalizing bucket with
  | nil => exact nofun
  | cons take takes ih =>
    intro slot hslot
    rcases List.mem_cons.1 hslot with rfl | hslot
    · exact bucket.take_tokens_le take.2
    · exact ih (bucket.take take.2).2 slot hslot

/-- Each take spends a token of what the one before it has left. -/
theorem isChain_reservations (bucket : TokenBucket) (takes : List (Publisher × ℚ))
    (htakes : (bucket.last :: takes.map Prod.snd).Pairwise (· ≤ ·)) :
    (⟨bucket.last, bucket.tokens⟩ :: reservations bucket takes).IsChain (Reservations.Spends bucket.rate) := by
  induction takes generalizing bucket with
  | nil => exact .singleton _
  | cons take takes ih =>
    obtain ⟨hlast, hrest⟩ := List.pairwise_cons.1 htakes
    have htake : bucket.last ≤ take.2 := hlast _ (List.mem_cons_self ..)
    exact List.isChain_cons_cons.2 ⟨⟨htake, TokenBucket.take_tokens_le_refill htake⟩, ih (bucket.take take.2).2 hrest⟩

/-- The first take may be earlier than the bucket. -/
theorem pairwise_reservations (bucket : TokenBucket) (takes : List (Publisher × ℚ))
    (htakes : (takes.map Prod.snd).Pairwise (· ≤ ·)) :
    (reservations bucket takes).Pairwise (Reservations.Spends bucket.rate) := by
  cases takes with
  | nil => exact .nil
  | cons take takes => exact (isChain_reservations (bucket.take take.2).2 takes htakes).pairwise

/-- Publishers that share a bucket are released in the order of their takes, and in a closed window of time at most as
many are released as the bucket holds and is refilled with. -/
theorem releases_paced {rate : ℚ} (hrate : 0 < rate) (start : ℚ) (takes : List (Publisher × ℚ))
    (htakes : (takes.map Prod.snd).Pairwise (· ≤ ·)) :
    let released := releases (some (.new rate start)) takes
    released.map Prod.fst = takes.map Prod.fst ∧
    (released.map Prod.snd).Pairwise (· ≤ ·) ∧
    ∀ a b, a ≤ b → ((released.filter fun r => a ≤ r.2 ∧ r.2 ≤ b).length : ℚ) ≤ max 1 (rate / 10) + rate * (b - a) := by
  have hspends := pairwise_reservations (.new rate start) takes htakes
  have hreleases := releases_eq hrate (.new rate start) rfl takes
  have hcapacity : (TokenBucket.new rate start).capacity = max 1 (rate / 10) := by
    unfold TokenBucket.new publishBurstSeconds
    rw [max_comm, mul_one_div]
  refine ⟨publishers_releases _ takes, ?_, fun a b hab => ?_⟩
  · rw [hreleases]
    exact List.pairwise_map.2 (hspends.imp fun h => Reservations.release_mono hrate h)
  · have hcount : ((releases (some (.new rate start)) takes).filter fun r => a ≤ r.2 ∧ r.2 ≤ b).length =
        ((reservations (.new rate start) takes).filter fun s => a ≤ s.release rate ∧ s.release rate ≤ b).length := by
      have hfiltered := congrArg (fun times => (times.filter fun t => a ≤ t ∧ t ≤ b).length) hreleases
      rw [List.filter_map, List.filter_map, List.length_map, List.length_map] at hfiltered
      exact hfiltered
    rw [hcount, ← hcapacity]
    refine Reservations.length_window_le hrate ?_ hab hspends (level_reservations _ takes)
    rw [hcapacity]
    exact le_max_left ..

/-- Two publishers that take three tokens at once, at two tokens per second. -/
theorem releases_paced_pair :
    let released := releases (some (.new 2 0)) [("artists", (0 : ℚ)), ("labels", 0), ("artists", 0)]
    released = [("artists", 0), ("labels", 1 / 2), ("artists", 1)] ∧ (released.map Prod.snd).Pairwise (· ≤ ·) ∧
    ∀ a b, a ≤ b → ((released.filter fun r => a ≤ r.2 ∧ r.2 ≤ b).length : ℚ) ≤ max 1 (2 / 10) + 2 * (b - a) := by
  refine ⟨by decide +kernel, ?_⟩
  exact (releases_paced (by decide +kernel) 0 _ (by decide +kernel)).2

end Shared

end DiscogsIngestion.MessageQueue
