import DiscogsIngestion.Pipeline.NoLoss

/-!
# Publishing to the broker

* `Confirm`, `Publish` : what the broker does with one message;
* `sendPayload`, `settleConfirm`, `publishPayload` : one message, in two halves and in one piece;
* `publishBatch` : all messages are sent, then their confirms are settled in order;
* `publishEach` : the messages one at a time;
* `publishBatch_refines` : both succeed on the same batches, and then do the same;
* `reported_confirmed` : when the pipeline reports a file, the broker has confirmed all its records.
-/

namespace DiscogsIngestion.MessageQueue

/-- A publisher confirm: whether the broker acked, and the `basic.return` that came with it. -/
structure Confirmation where
  isAck : Bool
  takeMessage : Option (Nat × String)
  deriving DecidableEq, Repr

/-- What becomes of a pending confirm within the deadline. -/
inductive Confirm where
  | confirmed (confirmation : Confirmation)
  | failed
  | timedOut
  deriving DecidableEq, Repr

/-- What becomes of a `basic_publish` within the deadline. One that fails or times out may have left its frame
on the wire. -/
inductive Publish where
  | written (confirm : Confirm)
  | failed (onWire : Bool)
  | timedOut (onWire : Bool)
  deriving DecidableEq, Repr

/-- A published message, less its trace context. -/
structure Frame (β : Type) where
  exchange : String
  routingKey : String
  mandatory : Bool
  contentType : String
  contentEncoding : String
  deliveryMode : Nat
  payload : β
  deriving DecidableEq, Repr

/-- `publish_options` and `message_properties` around a payload. -/
def frame {β : Type} (exchangeName : String) (payload : β) : Frame β where
  exchange := exchangeName
  routingKey := ""
  mandatory := true
  contentType := "application/json"
  contentEncoding := "UTF-8"
  deliveryMode := 2
  payload := payload

/-- The frames on the wire, in order, and how many messages count as sent. -/
structure Wire (β : Type) where
  frames : List (Frame β)
  messagesSent : Nat

namespace Wire

variable {β : Type}

def puts (w : Wire β) (frames : List (Frame β)) : Wire β := { w with frames := w.frames ++ frames }

def count (w : Wire β) (n : Nat) : Wire β := { w with messagesSent := w.messagesSent + n }

theorem puts_nil (w : Wire β) : w.puts [] = w := by
  unfold puts
  rw [List.append_nil]

theorem puts_puts (w : Wire β) (frames frames' : List (Frame β)) :
    (w.puts frames).puts frames' = w.puts (frames ++ frames') := by
  unfold puts
  rw [List.append_assoc]

theorem count_count (w : Wire β) (n n' : Nat) : (w.count n).count n' = w.count (n + n') := by
  unfold count
  rw [Nat.add_assoc]

theorem count_puts (w : Wire β) (n : Nat) (frames : List (Frame β)) :
    (w.count n).puts frames = (w.puts frames).count n := rfl

end Wire

def exchangeName (exchangePrefix : String) (dataType : DataType) : String :=
  exchangePrefix ++ "-" ++ dataType.asStr

/-- Whether a confirm proves delivery: a broker ack alone does not say that the message was routed. -/
def checkConfirmation (exchangeName : String) (acked : Bool) (returned : Option (Nat × String)) :
    Except String Unit :=
  match returned with
  | some (replyCode, replyText) =>
    .error ("Message to exchange '" ++ exchangeName ++ "' was returned as unroutable (" ++ toString replyCode ++ " " ++
      replyText ++ ") — no consumer queue is bound")
  | none => if acked then .ok () else .error "Message was not acknowledged by broker"

def awaitConfirm (confirm : Confirm) : Except String Confirmation :=
  match confirm with
  | .confirmed confirmation => .ok confirmation
  | .failed => .error "Failed to confirm message delivery"
  | .timedOut => .error "Timed out after 30s waiting for publisher confirm"

section Publish

variable {α β : Type}

/-- Writes the frame and returns its pending confirm. -/
def sendPayload (exchangeName : String) (payload : β) (broker : Publish) (w : Wire β) :
    Except String Confirm × Wire β :=
  match broker with
  | .written confirm => (.ok confirm, w.puts [frame exchangeName payload])
  | .failed onWire =>
    (.error "Failed to publish message", if onWire then w.puts [frame exchangeName payload] else w)
  | .timedOut onWire =>
    (.error "Timed out after 30s sending publish", if onWire then w.puts [frame exchangeName payload] else w)

/-- Requires a broker ack and proof that the message was routable. -/
def settleConfirm (exchangeName : String) (publish : Confirm) (w : Wire β) : Except String Unit × Wire β :=
  match awaitConfirm publish with
  | .error error => (.error error, w)
  | .ok confirm =>
    match checkConfirmation exchangeName confirm.isAck confirm.takeMessage with
    | .error error => (.error error, w)
    -- only a confirmed, routable message counts as sent
    | .ok () => (.ok (), w.count 1)

def publishPayload (exchangeName : String) (payload : β) (broker : Publish) (w : Wire β) :
    Except String Unit × Wire β :=
  match sendPayload exchangeName payload broker w with
  | (.error error, w) => (.error error, w)
  | (.ok publish, w) => settleConfirm exchangeName publish w

variable (toVec : α → Option β)

/-- The first loop of `publish_batch`: what is pending after it, in publish order. -/
def sendAll (exchangeName : String) : List (α × Publish) → Wire β → Except String (List Confirm) × Wire β
  | [], w => (.ok [], w)
  | (message, broker) :: rest, w =>
    match toVec message with
    | none => (.error "Failed to serialize message", w)
    | some payload =>
      match sendPayload exchangeName payload broker w with
      | (.error error, w) => (.error error, w)
      | (.ok publish, w) =>
        match sendAll exchangeName rest w with
        | (.error error, w) => (.error error, w)
        | (.ok pending, w) => (.ok (publish :: pending), w)

/-- The second loop. -/
def settleAll (exchangeName : String) : List Confirm → Wire β → Except String Unit × Wire β
  | [], w => (.ok (), w)
  | publish :: pending, w =>
    match settleConfirm exchangeName publish w with
    | (.error error, w) => (.error error, w)
    | (.ok (), w) => settleAll exchangeName pending w

/-- `publish_batch` of messages, each with what the broker does with it. `channel` is the result of
`get_channel`. -/
def publishBatch (channel : Except String Unit) (exchangePrefix : String) (dataType : DataType)
    (messages : List (α × Publish)) (w : Wire β) : Except String Unit × Wire β :=
  match channel with
  | .error error => (.error error, w)
  | .ok () =>
    match sendAll toVec (exchangeName exchangePrefix dataType) messages w with
    | (.error error, w) => (.error error, w)
    | (.ok pending, w) => settleAll (exchangeName exchangePrefix dataType) pending w

/-- One message by itself, serialized and published with `publish_payload`. -/
def publishOne (exchangeName : String) (message : α × Publish) (w : Wire β) : Except String Unit × Wire β :=
  match toVec message.1 with
  | none => (.error "Failed to serialize message", w)
  | some payload => publishPayload exchangeName payload message.2 w

/-- The messages one at a time, with the result of each. -/
def publishEach (exchangeName : String) : List (α × Publish) → Wire β → List (Except String Unit) × Wire β
  | [], w => ([], w)
  | message :: rest, w =>
    let one := publishOne toVec exchangeName message w
    let each := publishEach exchangeName rest one.2
    (one.1 :: each.1, each.2)

end Publish

section Refinement

variable {α β : Type} {toVec : α → Option β} (exchange : String)

/-- The broker acked the message and returned nothing. -/
def Confirm.Routed (confirm : Confirm) : Prop := confirm = .confirmed ⟨true, none⟩

/-- The message can be serialized, and the broker takes it and confirms it. -/
def Confirmed (toVec : α → Option β) (message : α × Publish) : Prop :=
  (toVec message.1).isSome = true ∧ ∃ confirm, message.2 = .written confirm ∧ confirm.Routed

/-- These frames carry these messages, one each, in order. -/
def Carries (toVec : α → Option β) (exchange : String) (messages : List (α × Publish)) (frames : List (Frame β)) :
    Prop :=
  List.Forall₂ (fun message f => ∃ payload, toVec message.1 = some payload ∧ f = frame exchange payload)
    messages frames

theorem settleConfirm_of_routed {confirm : Confirm} (h : confirm.Routed) (w : Wire β) :
    settleConfirm exchange confirm w = (.ok (), w.count 1) := by
  unfold Confirm.Routed at h
  rw [h]
  rfl

theorem settleConfirm_of_not_routed {confirm : Confirm} (h : ¬ confirm.Routed) (w : Wire β) :
    ∃ error, settleConfirm exchange confirm w = (.error error, w) := by
  match confirm with
  | .failed => exact ⟨_, rfl⟩
  | .timedOut => exact ⟨_, rfl⟩
  | .confirmed ⟨_, some returned⟩ => exact ⟨_, rfl⟩
  | .confirmed ⟨false, none⟩ => exact ⟨_, rfl⟩
  | .confirmed ⟨true, none⟩ => exact absurd rfl h

/-- A send that returns no pending confirm is an error, and its frame may be on the wire. -/
theorem sendPayload_of_not_written {broker : Publish} (h : ∀ confirm, broker ≠ .written confirm) (payload : β)
    (w : Wire β) :
    ∃ error frames, sendPayload exchange payload broker w = (.error error, w.puts frames) ∧
      (frames = [] ∨ frames = [frame exchange payload]) := by
  cases broker with
  | written confirm => exact absurd rfl (h confirm)
  | failed onWire =>
    cases onWire with
    | false => exact ⟨_, [], congrArg (Prod.mk _) w.puts_nil.symm, .inl rfl⟩
    | true => exact ⟨_, [frame exchange payload], rfl, .inr rfl⟩
  | timedOut onWire =>
    cases onWire with
    | false => exact ⟨_, [], congrArg (Prod.mk _) w.puts_nil.symm, .inl rfl⟩
    | true => exact ⟨_, [frame exchange payload], rfl, .inr rfl⟩

/-- A message that is not confirmed fails by itself, whatever was on the wire before. -/
theorem publishOne_of_not_confirmed {message : α × Publish} (h : ¬ Confirmed toVec message) (w : Wire β) :
    ∃ error, (publishOne toVec exchange message w).1 = .error error := by
  unfold publishOne
  cases hpayload : toVec message.1 with
  | none => exact ⟨_, rfl⟩
  | some payload =>
    dsimp only
    unfold publishPayload
    by_cases hwritten : ∃ confirm, message.2 = .written confirm
    · obtain ⟨confirm, hconfirm⟩ := hwritten
      have hrouted : ¬ confirm.Routed := fun hr => h ⟨by rw [hpayload]; rfl, confirm, hconfirm, hr⟩
      obtain ⟨error, herror⟩ := settleConfirm_of_not_routed exchange hrouted
        (w.puts [frame exchange payload])
      rw [hconfirm]
      exact ⟨error, congrArg Prod.fst herror⟩
    · obtain ⟨error, frames, herror, -⟩ := sendPayload_of_not_written exchange
        (fun confirm hc => hwritten ⟨confirm, hc⟩) payload w
      rw [herror]
      exact ⟨error, rfl⟩

theorem publishOne_of_confirmed {message : α × Publish} (h : Confirmed toVec message) (w : Wire β) :
    ∃ payload, toVec message.1 = some payload ∧
      publishOne toVec exchange message w = (.ok (), (w.puts [frame exchange payload]).count 1) := by
  obtain ⟨hsome, confirm, hconfirm, hrouted⟩ := h
  obtain ⟨payload, hpayload⟩ := Option.isSome_iff_exists.1 hsome
  refine ⟨payload, hpayload, ?_⟩
  unfold publishOne
  rw [hpayload]
  dsimp only
  unfold publishPayload
  rw [hconfirm]
  exact settleConfirm_of_routed exchange hrouted _

/-- One at a time, all are Ok exactly when all are confirmed. -/
theorem publishEach_ok_iff (messages : List (α × Publish)) (w : Wire β) :
    (∀ r ∈ (publishEach toVec exchange messages w).1, r = .ok ()) ↔ ∀ m ∈ messages, Confirmed toVec m := by
  induction messages generalizing w with
  | nil => simp [publishEach]
  | cons message rest ih =>
    rw [publishEach, List.forall_mem_cons, List.forall_mem_cons, ih]
    refine and_congr_left fun _ => ⟨?_, ?_⟩
    · intro hok
      by_contra hnot
      obtain ⟨error, herror⟩ := publishOne_of_not_confirmed exchange hnot w
      rw [herror] at hok
      exact nomatch hok
    · intro hconfirmed
      obtain ⟨payload, -, hone⟩ := publishOne_of_confirmed exchange hconfirmed w
      rw [hone]

theorem publishEach_of_confirmed {messages : List (α × Publish)} (h : ∀ m ∈ messages, Confirmed toVec m)
    (w : Wire β) :
    ∃ frames, Carries toVec exchange messages frames ∧
      (publishEach toVec exchange messages w).2 = (w.puts frames).count messages.length := by
  induction messages generalizing w with
  | nil => exact ⟨[], .nil, by rw [Wire.puts_nil]; rfl⟩
  | cons message rest ih =>
    rw [List.forall_mem_cons] at h
    obtain ⟨payload, hpayload, hone⟩ := publishOne_of_confirmed exchange h.1 w
    obtain ⟨frames, hcarries, hrest⟩ := ih h.2 ((w.puts [frame exchange payload]).count 1)
    refine ⟨frame exchange payload :: frames, .cons ⟨payload, hpayload, rfl⟩ hcarries, ?_⟩
    rw [publishEach, hone, hrest, Wire.count_puts, Wire.count_count, Wire.puts_puts, List.length_cons, Nat.add_comm]
    rfl

/-- The first loop puts all messages on the wire, or stops at one that is not confirmed with a first part of
them on the wire. -/
theorem sendAll_cases (toVec : α → Option β) (messages : List (α × Publish)) (w : Wire β) :
    (∃ pending frames, sendAll toVec exchange messages w = (.ok pending, w.puts frames) ∧
      messages.map Prod.snd = pending.map .written ∧ Carries toVec exchange messages frames) ∨
    ∃ error sent frames, sendAll toVec exchange messages w = (.error error, w.puts frames) ∧
      (∃ m ∈ messages, ¬ Confirmed toVec m) ∧ sent <+: messages ∧ Carries toVec exchange sent frames := by
  induction messages generalizing w with
  | nil => exact .inl ⟨[], [], congrArg (Prod.mk _) w.puts_nil.symm, rfl, .nil⟩
  | cons message rest ih =>
    obtain ⟨m, broker⟩ := message
    rw [sendAll]
    cases hpayload : toVec m with
    | none =>
      have hnot : ¬ Confirmed toVec (m, broker) := by
        intro h
        rw [Confirmed, hpayload] at h
        exact nomatch h.1
      exact .inr ⟨_, [], [], congrArg (Prod.mk _) w.puts_nil.symm, ⟨_, List.mem_cons_self, hnot⟩, List.nil_prefix, .nil⟩
    | some payload =>
      dsimp only
      by_cases hwritten : ∃ confirm, broker = .written confirm
      · obtain ⟨confirm, rfl⟩ := hwritten
        dsimp only [sendPayload]
        obtain ⟨pending, frames, hsend, hpending, hcarries⟩ |
            ⟨error, sent, frames, hsend, ⟨m', hm', hnot⟩, hsent, hcarries⟩ :=
          ih (w.puts [frame exchange payload])
        · rw [hsend, Wire.puts_puts]
          refine .inl ⟨confirm :: pending, _, rfl, ?_, .cons ⟨payload, hpayload, rfl⟩ hcarries⟩
          rw [List.map_cons, List.map_cons, hpending]
        · rw [hsend, Wire.puts_puts]
          exact .inr ⟨error, (m, .written confirm) :: sent, _, rfl, ⟨m', List.mem_cons_of_mem _ hm', hnot⟩,
            List.cons_prefix_cons.2 ⟨rfl, hsent⟩, .cons ⟨payload, hpayload, rfl⟩ hcarries⟩
      · obtain ⟨error, frames, herror, hframes⟩ := sendPayload_of_not_written exchange
          (fun confirm hc => hwritten ⟨confirm, hc⟩) payload w
        have hnot : ¬ Confirmed toVec (m, broker) := fun h => hwritten (h.2.imp fun _ hc => hc.1)
        rw [herror]
        obtain rfl | rfl := hframes
        · exact .inr ⟨error, [], [], rfl, ⟨_, List.mem_cons_self, hnot⟩, List.nil_prefix, .nil⟩
        · exact .inr ⟨error, [(m, broker)], _, rfl, ⟨_, List.mem_cons_self, hnot⟩,
            List.cons_prefix_cons.2 ⟨rfl, List.nil_prefix⟩, .cons ⟨payload, hpayload, rfl⟩ .nil⟩

/-- The second loop goes through if all that is pending is routed, and stops at the first confirm that is not. -/
theorem settleAll_cases (pending : List Confirm) (w : Wire β) :
    ((∀ confirm ∈ pending, confirm.Routed) ∧ settleAll exchange pending w = (.ok (), w.count pending.length)) ∨
    (∃ confirm ∈ pending, ¬ confirm.Routed) ∧ ∃ error n, settleAll exchange pending w = (.error error, w.count n) := by
  induction pending generalizing w with
  | nil => exact .inl ⟨fun _ h => absurd h List.not_mem_nil, rfl⟩
  | cons confirm rest ih =>
    rw [settleAll]
    by_cases hrouted : confirm.Routed
    · rw [settleConfirm_of_routed exchange hrouted]
      obtain ⟨hall, hok⟩ | ⟨⟨c, hc, hnot⟩, error, n, herror⟩ := ih (w.count 1)
      · refine .inl ⟨List.forall_mem_cons.2 ⟨hrouted, hall⟩, ?_⟩
        show settleAll exchange rest (w.count 1) = _
        rw [hok, Wire.count_count, List.length_cons, Nat.add_comm]
      · refine .inr ⟨⟨c, List.mem_cons_of_mem _ hc, hnot⟩, error, 1 + n, ?_⟩
        show settleAll exchange rest (w.count 1) = _
        rw [herror, Wire.count_count]
    · obtain ⟨error, herror⟩ := settleConfirm_of_not_routed exchange hrouted w
      rw [herror]
      exact .inr ⟨⟨confirm, List.mem_cons_self, hrouted⟩, error, 0, rfl⟩

variable {exchange}

theorem Carries.isSome {messages : List (α × Publish)} {frames : List (Frame β)}
    (h : Carries toVec exchange messages frames) : ∀ m ∈ messages, (toVec m.1).isSome = true := by
  unfold Carries at h
  induction h with
  | nil => exact fun _ hm => absurd hm List.not_mem_nil
  | cons hhead _ ih =>
    obtain ⟨payload, hpayload, -⟩ := hhead
    exact List.forall_mem_cons.2 ⟨by rw [hpayload]; rfl, ih⟩

/-- Messages carry the same frames wherever they go. -/
theorem Carries.unique {messages : List (α × Publish)} {frames frames' : List (Frame β)}
    (h : Carries toVec exchange messages frames) (h' : Carries toVec exchange messages frames') :
    frames = frames' := by
  unfold Carries at h h'
  induction h generalizing frames' with
  | nil =>
    cases h'
    rfl
  | cons hhead _ ih =>
    obtain ⟨payload, hpayload, rfl⟩ := hhead
    cases h' with
    | cons hhead' htail' =>
      obtain ⟨payload', hpayload', rfl⟩ := hhead'
      obtain rfl := Option.some.inj (hpayload.symm.trans hpayload')
      rw [ih htail']

/-- What `publish_batch` does, in terms of what the broker does with each message. -/
theorem publishBatch_cases (toVec : α → Option β) (exchangePrefix : String) (dataType : DataType)
    (messages : List (α × Publish)) (w : Wire β) :
    ((∀ m ∈ messages, Confirmed toVec m) ∧ ∃ frames,
      Carries toVec (exchangeName exchangePrefix dataType) messages frames ∧
        publishBatch toVec (.ok ()) exchangePrefix dataType messages w =
          (.ok (), (w.puts frames).count messages.length)) ∨
    (∃ m ∈ messages, ¬ Confirmed toVec m) ∧ ∃ error sent frames n, sent <+: messages ∧
      Carries toVec (exchangeName exchangePrefix dataType) sent frames ∧
        publishBatch toVec (.ok ()) exchangePrefix dataType messages w = (.error error, (w.puts frames).count n) := by
  unfold publishBatch
  dsimp only
  obtain ⟨pending, frames, hsend, hpending, hcarries⟩ | ⟨error, sent, frames, hsend, hnot, hsent, hcarries⟩ :=
    sendAll_cases (exchangeName exchangePrefix dataType) toVec messages w
  · have hlength : pending.length = messages.length := by
      rw [← List.length_map (f := Publish.written), ← hpending, List.length_map]
    rw [hsend]
    dsimp only
    obtain ⟨hall, hok⟩ | ⟨⟨confirm, hconfirm, hnot⟩, error, n, herror⟩ :=
      settleAll_cases (exchangeName exchangePrefix dataType) pending (w.puts frames)
    · refine .inl ⟨?_, frames, hcarries, by rw [hok, hlength]⟩
      intro m hm
      have hwritten : m.2 ∈ pending.map Publish.written := hpending ▸ List.mem_map_of_mem hm
      obtain ⟨confirm, hconfirm, hbroker⟩ := List.mem_map.1 hwritten
      exact ⟨hcarries.isSome m hm, confirm, hbroker.symm, hall confirm hconfirm⟩
    · have hbroker : Publish.written confirm ∈ messages.map Prod.snd := by
        rw [hpending]
        exact List.mem_map_of_mem hconfirm
      obtain ⟨m, hm, hwritten⟩ := List.mem_map.1 hbroker
      refine .inr ⟨⟨m, hm, ?_⟩, error, messages, frames, n, List.prefix_refl _, hcarries, herror⟩
      rintro ⟨-, confirm', hconfirm', hrouted⟩
      obtain rfl := Publish.written.inj (hwritten.symm.trans hconfirm')
      exact hnot hrouted
  · rw [hsend]
    exact .inr ⟨hnot, error, sent, frames, 0, hsent, hcarries, rfl⟩

/-- `publish_batch` is Ok exactly when publishing the messages one at a time is Ok for each. Then it leaves the
same on the wire, every message once and in order, and all are confirmed. When it is an error, some message is
not confirmed and a first part of the messages is on the wire. -/
theorem publishBatch_refines (toVec : α → Option β) (exchangePrefix : String) (dataType : DataType)
    (messages : List (α × Publish)) (w : Wire β) :
    ((publishBatch toVec (.ok ()) exchangePrefix dataType messages w).1 = .ok () ↔
      ∀ r ∈ (publishEach toVec (exchangeName exchangePrefix dataType) messages w).1, r = .ok ()) ∧
    ((publishBatch toVec (.ok ()) exchangePrefix dataType messages w).1 = .ok () →
      (publishBatch toVec (.ok ()) exchangePrefix dataType messages w).2 =
          (publishEach toVec (exchangeName exchangePrefix dataType) messages w).2 ∧
        (∃ frames, Carries toVec (exchangeName exchangePrefix dataType) messages frames ∧
          (publishBatch toVec (.ok ()) exchangePrefix dataType messages w).2.frames = w.frames ++ frames) ∧
        ∀ m ∈ messages, Confirmed toVec m) ∧
    ∀ error, (publishBatch toVec (.ok ()) exchangePrefix dataType messages w).1 = .error error →
      (∃ m ∈ messages, ¬ Confirmed toVec m) ∧
        ∃ sent frames, sent <+: messages ∧ Carries toVec (exchangeName exchangePrefix dataType) sent frames ∧
          (publishBatch toVec (.ok ()) exchangePrefix dataType messages w).2.frames = w.frames ++ frames := by
  rw [publishEach_ok_iff]
  obtain ⟨hall, frames, hcarries, hrun⟩ | ⟨⟨m, hm, hnot⟩, error, sent, frames, n, hsent, hcarries, hrun⟩ :=
    publishBatch_cases toVec exchangePrefix dataType messages w
  · rw [hrun]
    refine ⟨⟨fun _ => hall, fun _ => rfl⟩, fun _ => ⟨?_, ⟨frames, hcarries, rfl⟩, hall⟩, fun _ h => nomatch h⟩
    obtain ⟨frames', hcarries', heach⟩ :=
      publishEach_of_confirmed (exchangeName exchangePrefix dataType) hall w
    rw [heach, hcarries.unique hcarries']
  · rw [hrun]
    refine ⟨⟨fun h => (nomatch h), fun hall => absurd (hall m hm) hnot⟩, fun h => (nomatch h), fun _ _ => ?_⟩
    exact ⟨⟨m, hm, hnot⟩, sent, frames, hsent, hcarries, rfl⟩

/-- What the broker did with the batches that this log of the pipeline has as published, message by message. -/
def Settled (toVec : α → Option β) (exchangePrefix : String) (dataType : DataType)
    (log : List (Pipeline.Event α)) (history : List (List (α × Publish))) : Prop :=
  Pipeline.publishedIn log = history.map (·.map Prod.fst) ∧
    ∀ messages ∈ history, ∃ w, (publishBatch toVec (.ok ()) exchangePrefix dataType messages w).1 = .ok ()

/-- When the pipeline reports a file, the messages that the broker got are the records that were to be published, and
it has confirmed each of them. -/
theorem reported_confirmed {cfg : Pipeline.Config α} {records : List α} {s : Pipeline.State α}
    (hs : Pipeline.Reachable cfg records s) (pre : List (Pipeline.Event α)) (e : Pipeline.Event α)
    (post : List (Pipeline.Event α)) (total : Nat) (hlog : s.log = pre ++ e :: post) (hreports : e.reports = some total)
    {toVec : α → Option β} {exchangePrefix : String} {dataType : DataType} {history : List (List (α × Publish))}
    (hsettled : Settled toVec exchangePrefix dataType pre history) :
    history.flatten.map Prod.fst = cfg.expected records ∧ ∀ message ∈ history.flatten, Confirmed toVec message := by
  obtain ⟨hbatches, hok⟩ := hsettled
  constructor
  · rw [← (Pipeline.reportsPublished_of_reachable hs pre e post total hlog hreports).1, hbatches, List.map_flatten]
  · intro message hmessage
    obtain ⟨messages, hbatch, hmem⟩ := List.mem_flatten.1 hmessage
    obtain ⟨w, hdone⟩ := hok messages hbatch
    obtain ⟨hall, -⟩ | ⟨-, error, sent, frames, n, -, -, hrun⟩ :=
      publishBatch_cases toVec exchangePrefix dataType messages w
    · exact hall message hmem
    · rw [hrun] at hdone
      cases hdone

theorem smallRun_confirmed :
    [22] = Pipeline.smallConfig.expected [1, 0] ∧ Confirmed some (22, .written (.confirmed ⟨true, none⟩)) := by
  have hsettled : Settled some "discogs-" .releases [.progressUpdated 1 0, .markerSaved true, .channelObtained,
      .published [22] true, .progressUpdated 1 1, .markerSaved true]
      [[(22, .written (.confirmed ⟨true, none⟩))]] := by
    refine ⟨rfl, fun messages hmessages => ⟨⟨[], 0⟩, ?_⟩⟩
    obtain rfl := List.mem_singleton.1 hmessages
    rfl
  obtain ⟨hall, hconfirmed⟩ := @reported_confirmed _ _ Pipeline.smallConfig [1, 0] _
    (Machine.Reach.of_run Pipeline.smallRun rfl) _ (.fileComplete 2 true) [] 2 rfl rfl _ _ _ _ hsettled
  exact ⟨hall, hconfirmed _ (List.mem_singleton_self _)⟩

end Refinement

end DiscogsIngestion.MessageQueue
