import DiscogsIngestion.Lib.Machine
import DiscogsIngestion.Lib.Mutex
import Mathlib.Data.List.Nodup
import Mathlib.Tactic

/-!
# The channel of a message queue

Any number of tasks ask one queue for its channel, while the broker may drop connections and the queue may be closed.

* `Shared`, `Place`, `callerStep` : what the callers share, and where one of them is in `get_channel`;
* `State`, `step` : callers, broker and `close` in any order;
* `CallerStep` : what one step of a caller can do;
* `Tried`, `Placed`, `Reconnecting` : what all steps keep;
* `reconnect_safe` : reconnections are made one at a time, and only behind a channel that is lost or closed;
* `reconnect_progress` : no caller is ever stuck, and none keeps the mutex forever.
-/

namespace DiscogsIngestion.Reconnect

/-- What the callers share. Connections are numbered, each with its one channel. -/
structure Shared where
  /-- How many connections have been opened so far. -/
  opened : Nat
  /-- Those whose channel is no longer connected. -/
  lost : List Nat
  connection : Option Nat
  channel : Option Nat
  reconnectMutex : Option Nat
  /-- The channels that have been stored, the last one first. -/
  stored : List Nat
  /-- Those that `close` has taken. -/
  taken : List Nat
  deriving DecidableEq, Repr

def Shared.connected (x : Shared) : Option Nat := x.channel.filter (· ∉ x.lost)

inductive Answer where
  | channel (n : Nat)
  /-- No connection after this many attempts. -/
  | notConnected (attempts : Nat)
  | noChannel
  deriving DecidableEq, Repr

/-- Where a caller of `get_channel` is. -/
inductive Place where
  | idle
  | waiting
  | locked
  | connecting (retryCount backoff : Nat)
  | opening (retryCount backoff n : Nat)
  | confirming (retryCount backoff n : Nat)
  | confirmed (n : Nat)
  | storing (n : Nat)
  | sleeping (retryCount backoff : Nat)
  | connected (n : Nat)
  | done (answer : Answer)
  deriving DecidableEq, Repr

def Place.inside : Place → Bool
  | .idle | .waiting | .done _ => false
  | _ => true

inductive CallerAction where
  /-- The first look at the channel. -/
  | call
  | acquire
  /-- The second one. -/
  | recheck
  | connect (ok : Bool)
  | createChannel (ok : Bool)
  | confirmSelect (ok : Bool)
  | storeConnection
  | storeChannel
  | wake
  | read
  /-- The future is dropped. -/
  | cancel
  | return
  deriving DecidableEq, Repr

/-- Behind an attempt of `connect` that failed. -/
def afterFailure (maxRetries retryCount backoff : Nat) (x : Shared) : Place × Shared :=
  if maxRetries ≤ retryCount + 1 then (.done (.notConnected (retryCount + 1)), { x with reconnectMutex := none })
  else (.sleeping (retryCount + 1) backoff, x)

def callerStep (maxRetries : Nat) (x : Shared) (i : Nat) : Place → CallerAction → Option (Place × Shared)
  | .idle, .call =>
    match x.connected with
    | some n => some (.done (.channel n), x)
    | none => some (.waiting, x)
  | .waiting, .acquire => if x.reconnectMutex = none then some (.locked, { x with reconnectMutex := some i }) else none
  | .locked, .recheck =>
    match x.connected with
    | some n => some (.done (.channel n), { x with reconnectMutex := none })
    | none => some (.connecting 0 1, x)
  | .connecting retryCount backoff, .connect ok =>
    if ok then some (.opening retryCount backoff x.opened, { x with opened := x.opened + 1 })
    else some (afterFailure maxRetries retryCount backoff x)
  | .opening retryCount backoff n, .createChannel ok =>
    if ok then some (.confirming retryCount backoff n, x) else some (afterFailure maxRetries retryCount backoff x)
  | .confirming retryCount backoff n, .confirmSelect ok =>
    if ok then some (.confirmed n, x) else some (afterFailure maxRetries retryCount backoff x)
  | .confirmed n, .storeConnection => some (.storing n, { x with connection := some n })
  | .storing n, .storeChannel => some (.connected n, { x with channel := some n, stored := n :: x.stored })
  | .sleeping retryCount backoff, .wake => some (.connecting retryCount (min (backoff * 2) 30), x)
  | .connected _, .read =>
    match x.channel with
    | some n => some (.done (.channel n), { x with reconnectMutex := none })
    | none => some (.done .noChannel, { x with reconnectMutex := none })
  | .done _, .return => some (.idle, x)
  | p, .cancel => some (.idle, if p.inside then { x with reconnectMutex := none } else x)
  | _, _ => none

structure State where
  shared : Shared
  callers : Nat → Place

def State.init : State := ⟨⟨1, [], some 0, some 0, none, [0], []⟩, fun _ => .idle⟩

inductive Action where
  | caller (i : Nat) (a : CallerAction)
  /-- The broker, or the network, drops a channel. -/
  | lose (n : Nat)
  /-- `close` takes the channel, and closes it if the broker answers. -/
  | takeChannel (closed : Bool)
  | takeConnection
  deriving DecidableEq, Repr

def step (maxRetries : Nat) (s : State) : Action → Option State
  | .caller i a =>
    (callerStep maxRetries s.shared i (s.callers i) a).map fun (p, shared) => ⟨shared, Function.update s.callers i p⟩
  | .lose n =>
    if n < s.shared.opened ∧ n ∉ s.shared.lost then
      some { s with shared := { s.shared with lost := n :: s.shared.lost } }
    else none
  | .takeChannel closed =>
    match s.shared.channel with
    | none => none
    | some n =>
      let lost := if closed ∧ n ∉ s.shared.lost then n :: s.shared.lost else s.shared.lost
      some { s with shared := { s.shared with channel := none, taken := n :: s.shared.taken, lost } }
  | .takeConnection => some { s with shared := { s.shared with connection := none } }

theorem step_caller {maxRetries : Nat} {s : State} {i : Nat} {a : CallerAction} {p' : Place} {x' : Shared}
    (h : callerStep maxRetries s.shared i (s.callers i) a = some (p', x')) :
    step maxRetries s (.caller i a) = some ⟨x', Function.update s.callers i p'⟩ :=
  Option.map_eq_some_iff.2 ⟨_, h, rfl⟩

/-! ## The steps of a caller -/

/-- An attempt of `connect`, with the number of those that failed and the next backoff. -/
def Place.attempt : Place → Option (Nat × Nat)
  | .connecting r b | .opening r b _ | .confirming r b _ => some (r, b)
  | _ => none

theorem Place.inside_of_attempt {p : Place} {tried : Nat × Nat} (h : p.attempt = some tried) : p.inside = true := by
  cases p with
  | connecting => rfl
  | opening => rfl
  | confirming => rfl
  | _ => cases h

inductive CallerStep (maxRetries : Nat) (x : Shared) (i : Nat) : Place → CallerAction → Place → Shared → Prop
  | fast (n : Nat) : x.connected = some n → CallerStep maxRetries x i .idle .call (.done (.channel n)) x
  | slow : x.connected = none → CallerStep maxRetries x i .idle .call .waiting x
  | acquire : x.reconnectMutex = none →
      CallerStep maxRetries x i .waiting .acquire .locked { x with reconnectMutex := some i }
  | found (n : Nat) : x.connected = some n →
      CallerStep maxRetries x i .locked .recheck (.done (.channel n)) { x with reconnectMutex := none }
  | lost : x.connected = none → CallerStep maxRetries x i .locked .recheck (.connecting 0 1) x
  | connect (r b : Nat) : CallerStep maxRetries x i (.connecting r b) (.connect true) (.opening r b x.opened)
      { x with opened := x.opened + 1 }
  | createChannel (r b n : Nat) :
      CallerStep maxRetries x i (.opening r b n) (.createChannel true) (.confirming r b n) x
  | confirmSelect (r b n : Nat) : CallerStep maxRetries x i (.confirming r b n) (.confirmSelect true) (.confirmed n) x
  | retry {p : Place} {a : CallerAction} (r b : Nat) : p.attempt = some (r, b) → r + 1 < maxRetries →
      CallerStep maxRetries x i p a (.sleeping (r + 1) b) x
  | giveUp {p : Place} {a : CallerAction} (r b : Nat) : p.attempt = some (r, b) → maxRetries ≤ r + 1 →
      CallerStep maxRetries x i p a (.done (.notConnected (r + 1))) { x with reconnectMutex := none }
  | storeConnection (n : Nat) :
      CallerStep maxRetries x i (.confirmed n) .storeConnection (.storing n) { x with connection := some n }
  | storeChannel (n : Nat) : CallerStep maxRetries x i (.storing n) .storeChannel (.connected n)
      { x with channel := some n, stored := n :: x.stored }
  | wake (r b : Nat) : CallerStep maxRetries x i (.sleeping r b) .wake (.connecting r (min (b * 2) 30)) x
  | read (n m : Nat) : x.channel = some m →
      CallerStep maxRetries x i (.connected n) .read (.done (.channel m)) { x with reconnectMutex := none }
  | unread (n : Nat) : x.channel = none →
      CallerStep maxRetries x i (.connected n) .read (.done .noChannel) { x with reconnectMutex := none }
  | return (answer : Answer) : CallerStep maxRetries x i (.done answer) .return .idle x
  | cancelOutside {p : Place} : p.inside = false → CallerStep maxRetries x i p .cancel .idle x
  | cancelInside {p : Place} : p.inside = true →
      CallerStep maxRetries x i p .cancel .idle { x with reconnectMutex := none }

variable {maxRetries : Nat} {x x' : Shared} {i : Nat} {p p' : Place} {a : CallerAction}

theorem CallerStep.of_failure {r b : Nat} (hp : p.attempt = some (r, b))
    (h : afterFailure maxRetries r b x = (p', x')) : CallerStep maxRetries x i p a p' x' := by
  unfold afterFailure at h
  split_ifs at h with hmax
  · obtain ⟨rfl, rfl⟩ := Prod.mk.inj h
    exact .giveUp r b hp hmax
  · obtain ⟨rfl, rfl⟩ := Prod.mk.inj h
    exact .retry r b hp (by omega)

theorem CallerStep.of_step (h : callerStep maxRetries x i p a = some (p', x')) :
    CallerStep maxRetries x i p a p' x' := by
  unfold callerStep at h
  split at h
  · split at h
    next n hn =>
      obtain ⟨rfl, rfl⟩ := Prod.mk.inj (Option.some.inj h)
      exact .fast n hn
    next hn =>
      obtain ⟨rfl, rfl⟩ := Prod.mk.inj (Option.some.inj h)
      exact .slow hn
  · split_ifs at h with hfree
    obtain ⟨rfl, rfl⟩ := Prod.mk.inj (Option.some.inj h)
    exact .acquire hfree
  · split at h
    next n hn =>
      obtain ⟨rfl, rfl⟩ := Prod.mk.inj (Option.some.inj h)
      exact .found n hn
    next hn =>
      obtain ⟨rfl, rfl⟩ := Prod.mk.inj (Option.some.inj h)
      exact .lost hn
  · split_ifs at h with hok
    · obtain ⟨rfl, rfl⟩ := Prod.mk.inj (Option.some.inj h)
      obtain rfl := hok
      exact .connect _ _
    · exact .of_failure rfl (Option.some.inj h)
  · split_ifs at h with hok
    · obtain ⟨rfl, rfl⟩ := Prod.mk.inj (Option.some.inj h)
      obtain rfl := hok
      exact .createChannel _ _ _
    · exact .of_failure rfl (Option.some.inj h)
  · split_ifs at h with hok
    · obtain ⟨rfl, rfl⟩ := Prod.mk.inj (Option.some.inj h)
      obtain rfl := hok
      exact .confirmSelect _ _ _
    · exact .of_failure rfl (Option.some.inj h)
  · obtain ⟨rfl, rfl⟩ := Prod.mk.inj (Option.some.inj h)
    exact .storeConnection _
  · obtain ⟨rfl, rfl⟩ := Prod.mk.inj (Option.some.inj h)
    exact .storeChannel _
  · obtain ⟨rfl, rfl⟩ := Prod.mk.inj (Option.some.inj h)
    exact .wake _ _
  · split at h
    next m hm =>
      obtain ⟨rfl, rfl⟩ := Prod.mk.inj (Option.some.inj h)
      exact .read _ m hm
    next hm =>
      obtain ⟨rfl, rfl⟩ := Prod.mk.inj (Option.some.inj h)
      exact .unread _ hm
  · obtain ⟨rfl, rfl⟩ := Prod.mk.inj (Option.some.inj h)
    exact .return _
  · split_ifs at h with hin
    · obtain ⟨rfl, rfl⟩ := Prod.mk.inj (Option.some.inj h)
      exact .cancelInside hin
    · obtain ⟨rfl, rfl⟩ := Prod.mk.inj (Option.some.inj h)
      exact .cancelOutside (Bool.eq_false_iff.2 hin)
  · cases h

/-! ## What all steps keep -/

/-- A channel is no longer connected, or `close` has taken it. -/
def Gone (x : Shared) (n : Nat) : Prop := n ∈ x.lost ∨ n ∈ x.taken

/-- All channels that have been stored are gone. -/
def Reconnecting (x : Shared) : Prop := ∀ n ∈ x.stored, Gone x n

/-- What the callers share: a stored channel stays stored until it is gone. -/
structure Tidy (x : Shared) : Prop where
  fresh : ∀ n ∈ x.stored, n < x.opened
  nodup : x.stored.Nodup
  current : ∀ n, x.channel = some n → n ∈ x.stored
  replaced : ∀ n ∈ x.stored, x.channel = some n ∨ Gone x n

/-- The attempts of a `connect`, and the wait behind the next failure. -/
def Tried (maxRetries retryCount backoff : Nat) : Prop :=
  retryCount < max 1 maxRetries ∧ backoff = min (2 ^ retryCount) 30

/-- What is known of a caller at its place. -/
def Placed (maxRetries : Nat) (x : Shared) : Place → Prop
  | .idle | .waiting | .locked => True
  | .connecting r b => Tried maxRetries r b ∧ Reconnecting x
  | .opening r b n | .confirming r b n => Tried maxRetries r b ∧ Reconnecting x ∧ n < x.opened ∧ n ∉ x.stored
  | .confirmed n | .storing n => Reconnecting x ∧ n < x.opened ∧ n ∉ x.stored
  | .sleeping r b => ∃ k, r = k + 1 ∧ r < max 1 maxRetries ∧ b = min (2 ^ k) 30 ∧ Reconnecting x
  | .connected n => x.channel = some n ∨ n ∈ x.taken
  | .done (.channel n) => n ∈ x.stored
  | .done (.notConnected attempts) => attempts = max 1 maxRetries
  | .done .noChannel => x.taken ≠ []

/-- Nothing is forgotten. -/
structure Grows (x x' : Shared) : Prop where
  stored : x.stored ⊆ x'.stored
  taken : x.taken ⊆ x'.taken

theorem Placed.attempt (h : Placed maxRetries x p) {r b : Nat} (hp : p.attempt = some (r, b)) :
    Tried maxRetries r b ∧ Reconnecting x := by
  cases p with
  | connecting => cases hp; exact h
  | opening => cases hp; exact ⟨h.1, h.2.1⟩
  | confirming => cases hp; exact ⟨h.1, h.2.1⟩
  | _ => cases hp

theorem Placed.outside (h : Placed maxRetries x p) (hp : p.inside = false) (hgrows : Grows x x') :
    Placed maxRetries x' p := by
  cases p with
  | idle => trivial
  | waiting => trivial
  | done answer =>
    cases answer with
    | channel n => exact hgrows.stored h
    | notConnected attempts => exact h
    | noChannel =>
      obtain ⟨n, hn⟩ := List.exists_mem_of_ne_nil _ h
      exact List.ne_nil_of_mem (hgrows.taken hn)
  | _ => cases hp

theorem Shared.connected_eq_some {n : Nat} : x.connected = some n ↔ x.channel = some n ∧ n ∉ x.lost := by
  simp [Shared.connected, Option.filter_eq_some_iff]

theorem Tidy.reconnecting (h : Tidy x) (hno : x.connected = none) : Reconnecting x := by
  intro n hn
  obtain hchannel | hgone := h.replaced n hn
  · by_contra hgone
    have hconnected := Shared.connected_eq_some.2 ⟨hchannel, fun hlost => hgone (.inl hlost)⟩
    exact absurd (hno.symm.trans hconnected).symm (Option.some_ne_none n)
  · exact hgone

theorem CallerStep.tidy (h : CallerStep maxRetries x i p a p' x') (htidy : Tidy x) (hplaced : Placed maxRetries x p) :
    Tidy x' := by
  cases h with
  | connect => exact ⟨fun n hn => Nat.lt_succ_of_lt (htidy.fresh n hn), htidy.nodup, htidy.current, htidy.replaced⟩
  | storeChannel n =>
    obtain ⟨hgone, hopened, hnew⟩ := hplaced
    refine ⟨?_, List.nodup_cons.2 ⟨hnew, htidy.nodup⟩, ?_, ?_⟩
    · intro m hm
      obtain rfl | hm := List.mem_cons.1 hm
      · exact hopened
      · exact htidy.fresh m hm
    · intro m hm
      rw [← Option.some.inj hm]
      exact List.mem_cons_self
    · intro m hm
      obtain rfl | hm := List.mem_cons.1 hm
      · exact .inl rfl
      · exact .inr (hgone m hm)
  | _ => exact ⟨htidy.fresh, htidy.nodup, htidy.current, htidy.replaced⟩

theorem CallerStep.placed (h : CallerStep maxRetries x i p a p' x') (htidy : Tidy x)
    (hplaced : Placed maxRetries x p) : Placed maxRetries x' p' := by
  cases h with
  | fast n hn => exact htidy.current n (Shared.connected_eq_some.1 hn).1
  | found n hn => exact htidy.current n (Shared.connected_eq_some.1 hn).1
  | lost hno => exact ⟨⟨by omega, rfl⟩, htidy.reconnecting hno⟩
  | connect =>
    obtain ⟨htried, hgone⟩ := hplaced
    exact ⟨htried, hgone, Nat.lt_succ_self _, fun hmem => absurd (htidy.fresh _ hmem) (Nat.lt_irrefl _)⟩
  | createChannel => exact hplaced
  | confirmSelect => exact hplaced.2
  | retry r b hp hmax =>
    obtain ⟨⟨-, hb⟩, hgone⟩ := hplaced.attempt hp
    exact ⟨r, rfl, by omega, hb, hgone⟩
  | giveUp r b hp hmax =>
    obtain ⟨⟨hr, -⟩, -⟩ := hplaced.attempt hp
    show r + 1 = max 1 maxRetries
    omega
  | storeConnection => exact hplaced
  | storeChannel => exact .inl rfl
  | wake r b =>
    obtain ⟨k, rfl, hr, rfl, hgone⟩ := hplaced
    refine ⟨⟨hr, ?_⟩, hgone⟩
    rw [pow_succ]
    omega
  | read n m hm => exact htidy.current m hm
  | unread n hno =>
    obtain hchannel | htaken := hplaced
    · exact absurd (hno.symm.trans hchannel).symm (Option.some_ne_none n)
    · exact List.ne_nil_of_mem htaken
  | _ => trivial

theorem CallerStep.grows (h : CallerStep maxRetries x i p a p' x') : Grows x x' := by
  cases h with
  | storeChannel n => exact ⟨List.subset_cons_self _ _, List.Subset.refl _⟩
  | _ => exact ⟨List.Subset.refl _, List.Subset.refl _⟩

/-- A step outside the mutex changes nothing that is shared. -/
theorem CallerStep.outside (h : CallerStep maxRetries x i p a p' x') (hp : p.inside = false) :
    (x' = x ∧ p'.inside = false) ∨ (x.reconnectMutex = none ∧ p' = .locked ∧ x'.reconnectMutex = some i) := by
  cases h with
  | fast => exact .inl ⟨rfl, rfl⟩
  | slow => exact .inl ⟨rfl, rfl⟩
  | acquire hfree => exact .inr ⟨hfree, rfl, rfl⟩
  | «return» => exact .inl ⟨rfl, rfl⟩
  | cancelOutside => exact .inl ⟨rfl, rfl⟩
  | cancelInside hin => exact absurd (hin.symm.trans hp) Bool.noConfusion
  | retry r b hattempt => exact absurd ((Place.inside_of_attempt hattempt).symm.trans hp) Bool.noConfusion
  | giveUp r b hattempt => exact absurd ((Place.inside_of_attempt hattempt).symm.trans hp) Bool.noConfusion
  | _ => cases hp

/-- And one inside stays there, or lets the mutex go. -/
theorem CallerStep.inside (h : CallerStep maxRetries x i p a p' x') (hp : p.inside = true) :
    (x'.reconnectMutex = x.reconnectMutex ∧ p'.inside = true) ∨ (x'.reconnectMutex = none ∧ p'.inside = false) := by
  cases h with
  | found => exact .inr ⟨rfl, rfl⟩
  | giveUp => exact .inr ⟨rfl, rfl⟩
  | read => exact .inr ⟨rfl, rfl⟩
  | unread => exact .inr ⟨rfl, rfl⟩
  | cancelInside => exact .inr ⟨rfl, rfl⟩
  | cancelOutside hout => exact absurd (hout.symm.trans hp) Bool.noConfusion
  | retry => exact .inl ⟨rfl, rfl⟩
  | fast => cases hp
  | slow => cases hp
  | acquire => cases hp
  | «return» => cases hp
  | _ => exact .inl ⟨rfl, rfl⟩

/-! ## Runs -/

/-- The mutex of the queue, and what is known of it and its callers. -/
def protocol (maxRetries : Nat) : Mutex.Protocol Shared Nat Place :=
  ⟨(·.reconnectMutex), Place.inside, Tidy, Placed maxRetries⟩

def Inv (maxRetries : Nat) (s : State) : Prop := Mutex.Inv (protocol maxRetries) s.shared s.callers

theorem inv_init : Inv maxRetries .init := by
  refine ⟨fun i => ⟨fun h => Bool.noConfusion h, fun h => absurd h.symm (Option.some_ne_none i)⟩, ⟨?_, ?_, ?_, ?_⟩,
    fun _ => trivial⟩
  · intro n hn
    rw [List.mem_singleton.1 hn]
    exact Nat.one_pos
  · exact List.nodup_singleton 0
  · intro n hn
    rw [← Option.some.inj hn]
    exact List.mem_singleton_self 0
  · intro n hn
    rw [List.mem_singleton.1 hn]
    exact .inl rfl

theorem CallerStep.lawful (h : CallerStep maxRetries x i p a p' x') :
    Mutex.Lawful (protocol maxRetries) i x x' p p' where
  tidy := h.tidy
  placed := h.placed
  outside hp := (h.outside hp).imp_right fun ⟨hfree, hp', hlock⟩ => ⟨hfree, hp' ▸ rfl, hlock⟩
  inside := h.inside
  others _ hr hplaced := hplaced.outside hr h.grows

/-- What becomes of the channels outside the callers. -/
theorem Placed.env (h : Placed maxRetries x p) (hopened : x'.opened = x.opened) (hstored : x'.stored = x.stored)
    (hgone : ∀ n, Gone x n → Gone x' n) (htaken : x.taken ⊆ x'.taken)
    (hchannel : ∀ n, x.channel = some n → x'.channel = some n ∨ n ∈ x'.taken) : Placed maxRetries x' p := by
  have hreconnecting : Reconnecting x → Reconnecting x' := by
    intro hall n hn
    rw [hstored] at hn
    exact hgone n (hall n hn)
  cases p with
  | connecting => exact ⟨h.1, hreconnecting h.2⟩
  | opening => exact ⟨h.1, hreconnecting h.2.1, hopened ▸ h.2.2.1, hstored ▸ h.2.2.2⟩
  | confirming => exact ⟨h.1, hreconnecting h.2.1, hopened ▸ h.2.2.1, hstored ▸ h.2.2.2⟩
  | confirmed => exact ⟨hreconnecting h.1, hopened ▸ h.2.1, hstored ▸ h.2.2⟩
  | storing => exact ⟨hreconnecting h.1, hopened ▸ h.2.1, hstored ▸ h.2.2⟩
  | sleeping =>
    obtain ⟨k, hk, hr, hb, hall⟩ := h
    exact ⟨k, hk, hr, hb, hreconnecting hall⟩
  | connected n =>
    obtain hn | hn := h
    · exact hchannel n hn
    · exact .inr (htaken hn)
  | done answer => exact h.outside rfl ⟨hstored ▸ List.Subset.refl _, htaken⟩
  | _ => trivial

theorem inv_step {s s' : State} {a : Action} (h : Inv maxRetries s) (hs : step maxRetries s a = some s') :
    Inv maxRetries s' := by
  cases a with
  | caller i a =>
    obtain ⟨⟨p', x'⟩, hcaller, rfl⟩ := Option.map_eq_some_iff.1 hs
    exact h.step (CallerStep.of_step hcaller).lawful
  | lose n =>
    unfold step at hs
    dsimp only at hs
    split_ifs at hs
    obtain rfl := Option.some.inj hs
    have hgone : ∀ m, Gone s.shared m → Gone { s.shared with lost := n :: s.shared.lost } m :=
      fun m hm => hm.imp_left (List.mem_cons_of_mem n)
    refine h.env rfl ⟨h.tidy.fresh, h.tidy.nodup, h.tidy.current, fun m hm => ?_⟩ fun p hp => ?_
    · exact (h.tidy.replaced m hm).imp_right (hgone m)
    · exact Placed.env hp rfl rfl hgone (List.Subset.refl _) fun m hm => .inl hm
  | takeChannel closed =>
    unfold step at hs
    cases hchannel : s.shared.channel with
    | none =>
      rw [hchannel] at hs
      cases hs
    | some n =>
      rw [hchannel] at hs
      obtain rfl := Option.some.inj hs
      have hgone : ∀ m, Gone s.shared m → Gone
          { s.shared with
            channel := none, taken := n :: s.shared.taken
            lost := if closed ∧ n ∉ s.shared.lost then n :: s.shared.lost else s.shared.lost } m := by
        rintro m (hm | hm)
        · refine .inl ?_
          dsimp only
          split_ifs
          · exact List.mem_cons_of_mem n hm
          · exact hm
        · exact .inr (List.mem_cons_of_mem n hm)
      refine h.env rfl ⟨h.tidy.fresh, h.tidy.nodup, fun m hm => ?_, fun m hm => .inr ?_⟩ fun p hp => ?_
      · exact absurd hm.symm (Option.some_ne_none m)
      · obtain hm | hm := h.tidy.replaced m hm
        · rw [hchannel] at hm
          rw [← Option.some.inj hm]
          exact .inr List.mem_cons_self
        · exact hgone m hm
      · refine Placed.env hp rfl rfl hgone (List.subset_cons_self _ _) fun m hm => .inr ?_
        rw [hchannel] at hm
        rw [← Option.some.inj hm]
        exact List.mem_cons_self
  | takeConnection =>
    obtain rfl := Option.some.inj hs
    refine h.env rfl ⟨h.tidy.fresh, h.tidy.nodup, h.tidy.current, h.tidy.replaced⟩ fun p hp => ?_
    exact Placed.env hp rfl rfl (fun _ hm => hm) (List.Subset.refl _) fun m hm => .inl hm

theorem inv_of_reach {s : State} (h : Machine.Reach (step maxRetries) Machine.always .init s) : Inv maxRetries s :=
  h.invariant inv_init fun _ _ _ hI _ hs => inv_step hI hs

/-- There are no more reconnections than channels that were lost or closed. -/
theorem Tidy.stored_le (h : Tidy x) : x.stored.length ≤ x.lost.length + x.taken.length + 1 := by
  have hsubset : x.stored ⊆ x.channel.toList ++ (x.lost ++ x.taken) := by
    intro n hn
    obtain hchannel | hlost | htaken := h.replaced n hn
    · simp [hchannel]
    · simp [hlost]
    · simp [htaken]
  have hle := (List.subperm_of_subset h.nodup hsubset).length_le
  have hchannel : x.channel.toList.length ≤ 1 := by
    cases x.channel <;> simp
  simp only [List.length_append] at hle
  omega

/-- Whatever the callers, the broker and `close` do, one caller at a time makes connections; a channel is stored only
when those before it are lost or closed; a caller gets a channel that has been stored, unless its attempts are used up
or the queue has been closed; and behind the `k`-th attempt that fails it waits for `2 ^ (k - 1)` seconds, or 30. -/
theorem reconnect_safe {s : State} (h : Machine.Reach (step maxRetries) Machine.always .init s) :
    (∀ i j, (s.callers i).inside = true → (s.callers j).inside = true → i = j) ∧
    (∀ n ∈ s.shared.stored, s.shared.channel = some n ∨ n ∈ s.shared.lost ∨ n ∈ s.shared.taken) ∧
    s.shared.stored.length ≤ s.shared.lost.length + s.shared.taken.length + 1 ∧
    (∀ i answer, s.callers i = .done answer → (∃ n ∈ s.shared.stored, answer = .channel n) ∨
      answer = .notConnected (max 1 maxRetries) ∨ (answer = .noChannel ∧ s.shared.taken ≠ [])) ∧
    (∀ i r b, s.callers i = .sleeping r b → 0 < r ∧ r < max 1 maxRetries ∧ b = min (2 ^ (r - 1)) 30) := by
  have hinv := inv_of_reach h
  refine ⟨fun i j hi hj => hinv.owned.unique hi hj, hinv.tidy.replaced, hinv.tidy.stored_le, ?_, ?_⟩
  · intro i answer hi
    have hplaced := hinv.placed i
    rw [hi] at hplaced
    cases answer with
    | channel n => exact .inl ⟨n, hplaced, rfl⟩
    | notConnected attempts => exact .inr (.inl (congrArg _ hplaced))
    | noChannel => exact .inr (.inr ⟨rfl, hplaced⟩)
  · intro i r b hi
    have hplaced := hinv.placed i
    rw [hi] at hplaced
    obtain ⟨k, rfl, hr, hb, -⟩ := hplaced
    exact ⟨Nat.succ_pos k, hr, hb⟩

/-! ## Progress -/

/-- How far a caller is from letting the mutex go. -/
def rank (maxRetries : Nat) : Place → Nat
  | .idle | .waiting | .done _ => 0
  | .locked => 6 * max 1 maxRetries + 6
  | .sleeping r _ => 6 * (max 1 maxRetries - r) + 5
  | .connecting r _ => 6 * (max 1 maxRetries - r) + 4
  | .opening r _ _ => 6 * (max 1 maxRetries - r) + 3
  | .confirming r _ _ => 6 * (max 1 maxRetries - r) + 2
  | .confirmed _ => 3
  | .storing _ => 2
  | .connected _ => 1

variable (maxRetries) in
theorem rank_attempt {r b : Nat} (h : p.attempt = some (r, b)) :
    6 * (max 1 maxRetries - r) + 2 ≤ rank maxRetries p := by
  cases p with
  | connecting => cases h; exact Nat.add_le_add_left (by omega) _
  | opening => cases h; exact Nat.add_le_add_left (by omega) _
  | confirming => cases h; exact le_rfl
  | _ => cases h

theorem CallerStep.rank_lt (h : CallerStep maxRetries x i p a p' x') (hplaced : Placed maxRetries x p)
    (hin : p'.inside = true) (hp : p.inside = true) : rank maxRetries p' < rank maxRetries p := by
  cases h with
  | retry r b hattempt hmax =>
    have hle := rank_attempt maxRetries hattempt
    show 6 * (max 1 maxRetries - (r + 1)) + 5 < _
    omega
  | lost => simp only [rank]; omega
  | connect => simp only [rank]; omega
  | createChannel => simp only [rank]; omega
  | confirmSelect r b n =>
    obtain ⟨⟨hr, -⟩, -⟩ := hplaced
    simp only [rank]
    omega
  | storeConnection => simp only [rank]; omega
  | storeChannel => simp only [rank]; omega
  | wake => simp only [rank]; omega
  | acquire => cases hp
  | _ => cases hin

/-- What the broker has answered to an attempt. -/
def CallerAction.answer : CallerAction → Option Bool
  | .connect ok | .createChannel ok | .confirmSelect ok => some ok
  | _ => none

variable (maxRetries x i) in
/-- A caller that has the mutex can go on, whatever the broker answers. -/
theorem callerStep_isSome (hp : p.inside = true) (ok : Bool) :
    ∃ a, a ≠ .cancel ∧ (∀ answer ∈ a.answer, answer = ok) ∧ (callerStep maxRetries x i p a).isSome = true := by
  cases p with
  | locked =>
    refine ⟨.recheck, by decide, by simp [CallerAction.answer], ?_⟩
    unfold callerStep
    cases x.connected <;> rfl
  | connecting =>
    refine ⟨.connect ok, by simp, by simp [CallerAction.answer], ?_⟩
    unfold callerStep
    cases ok <;> rfl
  | opening =>
    refine ⟨.createChannel ok, by simp, by simp [CallerAction.answer], ?_⟩
    unfold callerStep
    cases ok <;> rfl
  | confirming =>
    refine ⟨.confirmSelect ok, by simp, by simp [CallerAction.answer], ?_⟩
    unfold callerStep
    cases ok <;> rfl
  | confirmed => exact ⟨.storeConnection, by decide, by simp [CallerAction.answer], rfl⟩
  | storing => exact ⟨.storeChannel, by decide, by simp [CallerAction.answer], rfl⟩
  | sleeping => exact ⟨.wake, by decide, by simp [CallerAction.answer], rfl⟩
  | connected =>
    refine ⟨.read, by decide, by simp [CallerAction.answer], ?_⟩
    unfold callerStep
    cases x.channel <;> rfl
  | _ => cases hp

/-- The steps that a caller takes itself. -/
def Action.own (i : Nat) : Action → Bool
  | .caller j _ => i = j
  | _ => false

theorem rank_step {s s' : State} {a : Action} (h : Inv maxRetries s) (hs : step maxRetries s a = some s')
    (hin : (s.callers i).inside = true) (hin' : (s'.callers i).inside = true) :
    (if a.own i then 1 else 0) + rank maxRetries (s'.callers i) ≤ rank maxRetries (s.callers i) := by
  have hkeep : s'.callers i = s.callers i → a.own i = false →
      (if a.own i then 1 else 0) + rank maxRetries (s'.callers i) ≤ rank maxRetries (s.callers i) := by
    intro heq hown
    rw [heq, hown]
    exact (Nat.zero_add _).le
  cases a with
  | caller j a =>
    obtain ⟨⟨p', x'⟩, hcaller, rfl⟩ := Option.map_eq_some_iff.1 hs
    by_cases hj : i = j
    · subst hj
      have hplace : Function.update s.callers i p' i = p' := Function.update_self ..
      dsimp only at hin' ⊢
      rw [hplace] at hin' ⊢
      have hlt := (CallerStep.of_step hcaller).rank_lt (h.placed i) hin' hin
      rw [if_pos (by simp [Action.own])]
      omega
    · exact hkeep (Function.update_of_ne hj _ _) (decide_eq_false hj)
  | lose n =>
    unfold step at hs
    dsimp only at hs
    split_ifs at hs
    obtain rfl := Option.some.inj hs
    exact hkeep rfl rfl
  | takeChannel closed =>
    unfold step at hs
    dsimp only at hs
    split at hs
    · cases hs
    · obtain rfl := Option.some.inj hs
      exact hkeep rfl rfl
  | takeConnection =>
    obtain rfl := Option.some.inj hs
    exact hkeep rfl rfl

/-- What a caller does while it has the mutex, by induction on the run. -/
theorem own_le {as : List Action} {s s' : State} (h : Inv maxRetries s)
    (hrun : Machine.run (step maxRetries) s as = some s')
    (hin : ∀ bs cs mid, as = bs ++ cs → Machine.run (step maxRetries) s bs = some mid →
      (mid.callers i).inside = true) :
    as.countP (·.own i) + rank maxRetries (s'.callers i) ≤ rank maxRetries (s.callers i) := by
  induction as generalizing s with
  | nil =>
    obtain rfl := Option.some.inj hrun
    exact (Nat.zero_add _).le
  | cons a as ih =>
    obtain ⟨mid, hs, hrest⟩ := Machine.run_cons hrun
    have hstart := hin [] (a :: as) s rfl rfl
    have hmid : ∀ bs cs last, as = bs ++ cs → Machine.run (step maxRetries) mid bs = some last →
        (last.callers i).inside = true := by
      intro bs cs last heq hbs
      refine hin (a :: bs) cs last (congrArg (a :: ·) heq) ?_
      unfold Machine.run
      rw [hs]
      exact hbs
    have hlast := ih (inv_step h hs) hrest hmid
    have hfirst := rank_step h hs hstart (hmid [] as mid rfl rfl)
    rw [List.countP_cons]
    omega

variable (maxRetries) in
theorem rank_le (p : Place) : rank maxRetries p ≤ 6 * max 1 maxRetries + 6 := by
  cases p <;> simp only [rank] <;> omega

/-- No caller is stuck: it can go on itself, whatever the broker answers, or it waits for one that can. And none keeps
the mutex for more than these of its own steps. -/
theorem reconnect_progress {s : State} (h : Machine.Reach (step maxRetries) Machine.always .init s) :
    (∀ i ok, s.callers i ≠ .idle → (∀ answer, s.callers i ≠ .done answer) →
      ∃ j a s', a ≠ .cancel ∧ (∀ answer ∈ a.answer, answer = ok) ∧ step maxRetries s (.caller j a) = some s' ∧
        (j = i ∨ (s.callers i = .waiting ∧ (s.callers j).inside = true))) ∧
    (∀ i as s', Machine.run (step maxRetries) s as = some s' →
      (∀ bs cs mid, as = bs ++ cs → Machine.run (step maxRetries) s bs = some mid →
        (mid.callers i).inside = true) →
      as.countP (·.own i) ≤ 6 * max 1 maxRetries + 6) := by
  have hinv := inv_of_reach h
  have hgo : ∀ j ok, (s.callers j).inside = true → ∃ a s', a ≠ .cancel ∧
      (∀ answer ∈ a.answer, answer = ok) ∧ step maxRetries s (.caller j a) = some s' := by
    intro j ok hj
    obtain ⟨a, hcancel, hanswer, hsome⟩ := callerStep_isSome maxRetries s.shared j hj ok
    obtain ⟨⟨p', x'⟩, hstep⟩ := Option.isSome_iff_exists.1 hsome
    exact ⟨a, _, hcancel, hanswer, step_caller hstep⟩
  refine ⟨fun i ok hidle hdone => ?_, fun i as s' hrun hin => ?_⟩
  · cases hplace : s.callers i with
    | idle => exact absurd hplace hidle
    | done answer => exact absurd hplace (hdone answer)
    | waiting =>
      cases hmutex : s.shared.reconnectMutex with
      | none =>
        have hstep : callerStep maxRetries s.shared i (s.callers i) .acquire =
            some (.locked, { s.shared with reconnectMutex := some i }) := by
          rw [hplace]
          exact if_pos hmutex
        exact ⟨i, .acquire, _, by decide, by simp [CallerAction.answer], step_caller hstep, .inl rfl⟩
      | some j =>
        have hj : (s.callers j).inside = true := (hinv.owned j).2 hmutex
        obtain ⟨a, s', hcancel, hanswer, hs⟩ := hgo j ok hj
        exact ⟨j, a, s', hcancel, hanswer, hs, .inr ⟨rfl, hj⟩⟩
    | _ =>
      obtain ⟨a, s', hcancel, hanswer, hs⟩ := hgo i ok (by rw [hplace]; rfl)
      exact ⟨i, a, s', hcancel, hanswer, hs, .inl rfl⟩
  · have hle := own_le hinv hrun hin
    have hrank := rank_le maxRetries (s.callers i)
    omega

/-- The channel is lost, and of two callers the first one reconnects with its second attempt. -/
def lostChannel : List Action :=
  [.lose 0, .caller 0 .call, .caller 1 .call, .caller 0 .acquire, .caller 0 .recheck, .caller 0 (.connect false),
    .caller 0 .wake, .caller 0 (.connect true), .caller 0 (.createChannel true), .caller 0 (.confirmSelect true)]

def foundChannel : List Action :=
  [.caller 0 .storeConnection, .caller 0 .storeChannel, .caller 0 .read, .caller 1 .acquire, .caller 1 .recheck]

theorem reconnect_safe_lostChannel : ∃ s : State,
    (s.callers 0 = .done (.channel 1) ∧ s.callers 1 = .done (.channel 1)) ∧
      s.shared.stored.length ≤ s.shared.lost.length + s.shared.taken.length + 1 := by
  have hrun : ∃ s, Machine.Reach (step 5) Machine.always .init s ∧
      decide (s.callers 0 = .done (.channel 1) ∧ s.callers 1 = .done (.channel 1)) = true :=
    Machine.exists_reach (lostChannel ++ foundChannel) (by decide)
  obtain ⟨s, hreach, hs⟩ := hrun
  exact ⟨s, of_decide_eq_true hs, (reconnect_safe hreach).2.2.1⟩

theorem reconnect_progress_lostChannel : ∃ s : State, s.callers 1 = .waiting ∧
    ∃ j a s', step 5 s (.caller j a) = some s' ∧ (j = 1 ∨ (s.callers j).inside = true) := by
  have hrun : ∃ s, Machine.Reach (step 5) Machine.always .init s ∧ decide (s.callers 1 = .waiting) = true :=
    Machine.exists_reach lostChannel (by decide)
  obtain ⟨s, hreach, hs⟩ := hrun
  have hwaiting : s.callers 1 = .waiting := of_decide_eq_true hs
  obtain ⟨j, a, s', -, -, hstep, hj⟩ := (reconnect_progress hreach).1 1 true
    (by rw [hwaiting]; exact Place.noConfusion) (by rw [hwaiting]; exact fun _ => Place.noConfusion)
  exact ⟨s, hwaiting, j, a, s', hstep, hj.imp_right (·.2)⟩

end DiscogsIngestion.Reconnect
