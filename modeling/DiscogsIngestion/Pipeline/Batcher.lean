import DiscogsIngestion.Pipeline.Counts

/-!
# The loop of `message_batcher`

* `Turn` : one turn of the loop, which a message or a timeout of the receive begins;
* `BatcherState`, `turn`, `close`, `messageBatcher` : the loop, and what it does to what it shares;
* `Kept` : the buffer, the three counters and the batches sent, after any number of turns;
* `messageBatcher_exact` : nothing is lost, duplicated or reordered, and a closed downstream is an error.
-/

namespace DiscogsIngestion.Pipeline

/-- Provider-neutral batching configuration, less the handles it shares with other tasks. -/
structure BatcherConfig where
  batchSize : Nat
  dataType : DataType
  fileName : String
  stateSaveInterval : Nat

/-- What the batcher does to the shared state, to the marker and to its downstream. -/
inductive Effect (α : Type) where
  /-- One more record of this type, extracted now. -/
  | counted (dt : DataType)
  | progressUpdated (file : String) (records messages batches : Nat)
  /-- A save of the marker, whose failure is only logged. -/
  | saved
  | sent (batch : List α)
  /-- The downstream has closed: `send` returned an error. -/
  | refused (batch : List α)
  deriving DecidableEq

def Effect.batch {α : Type} : Effect α → Option (List α)
  | .sent batch => some batch
  | _ => none

def sentIn {α : Type} (effects : List (Effect α)) : List (List α) := effects.filterMap Effect.batch

def Effect.progress {α : Type} : Effect α → Option (String × Nat × Nat × Nat)
  | .progressUpdated file records messages batches => some (file, records, messages, batches)
  | _ => none

def progressIn {α : Type} (effects : List (Effect α)) : List (String × Nat × Nat × Nat) :=
  effects.filterMap Effect.progress

/-- One turn of the loop: the message that `recv` gave within 100 ms, if any, and two readings of the clock. -/
structure Turn (α : Type) where
  received : Option α
  /-- When `last_flush.elapsed()` is asked. -/
  now : DateTime
  /-- When a batch has been handed over. -/
  flushed : DateTime

def messagesIn {α : Type} (turns : List (Turn α)) : List α := turns.filterMap Turn.received

/-- `Duration::from_secs(1)`, in nanoseconds. -/
def flushAfter : Nat := 1000000000

/-- The variables of `message_batcher`, and what it has done so far. -/
structure BatcherState (α : Type) where
  batch : List α
  lastFlush : DateTime
  totalRecords : Nat
  totalBatches : Nat
  lastStateSave : Nat
  effects : List (Effect α)

namespace BatcherState

variable {α : Type}

def init (start : DateTime) : BatcherState α where
  batch := []
  lastFlush := start
  totalRecords := 0
  totalBatches := 0
  lastStateSave := 0
  effects := []

def effect (b : BatcherState α) (e : Effect α) : BatcherState α := { b with effects := b.effects ++ [e] }

/-- `update_file_progress` and a save. -/
def checkpoint (cfg : BatcherConfig) (b : BatcherState α) : BatcherState α :=
  (b.effect (.progressUpdated cfg.fileName b.totalRecords b.totalRecords b.totalBatches)).effect .saved

/-- The buffer is handed over. `alive k` says that the downstream is there when batch `k` is sent. -/
def send (alive : Nat → Bool) (b : BatcherState α) : Except (BatcherState α) (BatcherState α) :=
  if alive b.totalBatches then
    .ok { b.effect (.sent b.batch) with batch := [], totalBatches := b.totalBatches + 1 }
  else .error (b.effect (.refused b.batch))

def flush (alive : Nat → Bool) (flushed : DateTime) (b : BatcherState α) :
    Except (BatcherState α) (BatcherState α) := do
  let b ← b.send alive
  return { b with lastFlush := flushed }

/-- A message is buffered and counted, and every `state_save_interval` messages the progress is saved. -/
def push (cfg : BatcherConfig) (b : BatcherState α) (m : α) : BatcherState α :=
  let b := { b with batch := b.batch ++ [m], totalRecords := b.totalRecords + 1 }.effect (.counted cfg.dataType)
  if cfg.stateSaveInterval ∣ b.totalRecords ∧ b.totalRecords ≠ b.lastStateSave then
    { b with lastStateSave := b.totalRecords }.checkpoint cfg
  else b

/-- One turn. An error is a state in which the function has returned one. -/
def turn (cfg : BatcherConfig) (alive : Nat → Bool) (b : BatcherState α) (t : Turn α) :
    Except (BatcherState α) (BatcherState α) :=
  match t.received with
  | some m =>
    let b := b.push cfg m
    if cfg.batchSize ≤ b.batch.length then b.flush alive t.flushed else .ok b
  | none =>
    if b.batch ≠ [] ∧ flushAfter < t.now - b.lastFlush then b.flush alive t.flushed else .ok b

/-- The input has ended: what is left in the buffer is handed over. -/
def close (alive : Nat → Bool) (b : BatcherState α) : Except (BatcherState α) (BatcherState α) :=
  if b.batch ≠ [] then b.send alive else .ok b

end BatcherState

/-- `message_batcher` from its start to the end of its input. -/
def messageBatcher {α : Type} (cfg : BatcherConfig) (alive : Nat → Bool) (start : DateTime) (turns : List (Turn α)) :
    Except (BatcherState α) (BatcherState α) := do
  let b ← turns.foldlM (BatcherState.turn cfg alive) (.init start)
  let b ← b.close alive
  return b.checkpoint cfg

section Invariant

variable {α : Type} {cfg : BatcherConfig} {alive : Nat → Bool} {input : List α} {b b' : BatcherState α}

/-- Where the messages so far are, and what the counters count. -/
structure Accounts (cfg : BatcherConfig) (alive : Nat → Bool) (input : List α) (b : BatcherState α) : Prop where
  order : (sentIn b.effects).flatten ++ b.batch = input
  sizes : ∀ batch ∈ sentIn b.effects, 1 ≤ batch.length ∧ batch.length ≤ cfg.batchSize
  records : b.totalRecords = input.length
  batches : b.totalBatches = (sentIn b.effects).length
  saved : b.lastStateSave ≤ b.totalRecords
  accepted : ∀ k < b.totalBatches, alive k = true

/-- Between two turns the buffer has room. -/
structure Kept (cfg : BatcherConfig) (alive : Nat → Bool) (input : List α) (b : BatcherState α) : Prop extends
    Accounts cfg alive input b where
  room : b.batch.length < cfg.batchSize

/-- A buffer that may be handed over. -/
structure Ready (cfg : BatcherConfig) (alive : Nat → Bool) (input : List α) (b : BatcherState α) : Prop extends
    Accounts cfg alive input b where
  fits : 1 ≤ b.batch.length ∧ b.batch.length ≤ cfg.batchSize

/-- The downstream was gone when a batch was due. -/
structure Refused (alive : Nat → Bool) (input : List α) (b : BatcherState α) : Prop where
  dead : alive (sentIn b.effects).length = false
  last : b.effects.getLast? = some (.refused b.batch)
  order : (sentIn b.effects).flatten ++ b.batch <+: input

/-- What has become of the input, whether the function goes on or has returned an error. -/
def Fate (cfg : BatcherConfig) (alive : Nat → Bool) (input : List α) :
    Except (BatcherState α) (BatcherState α) → Prop
  | .ok b => Kept cfg alive input b
  | .error b => Refused alive input b

theorem sentIn_append (effects effects' : List (Effect α)) :
    sentIn (effects ++ effects') = sentIn effects ++ sentIn effects' := by
  unfold sentIn
  exact List.filterMap_append

theorem progressIn_append (effects effects' : List (Effect α)) :
    progressIn (effects ++ effects') = progressIn effects ++ progressIn effects' := by
  unfold progressIn
  exact List.filterMap_append

theorem sentIn_append_of_none {effects effects' : List (Effect α)} (h : ∀ e ∈ effects', e.batch = none) :
    sentIn (effects ++ effects') = sentIn effects := by
  rw [sentIn_append, sentIn, sentIn, List.filterMap_eq_nil_iff.2 h, List.append_nil]

/-- What a message adds to the effects: it is counted, and the progress may be saved. -/
theorem push_effects (cfg : BatcherConfig) (b : BatcherState α) (m : α) :
    ∃ effects, (b.push cfg m).effects = b.effects ++ effects ∧ ∀ e ∈ effects, e.batch = none := by
  unfold BatcherState.push
  dsimp only
  split
  · refine ⟨[.counted cfg.dataType, .progressUpdated cfg.fileName (b.totalRecords + 1) (b.totalRecords + 1)
      b.totalBatches, .saved], ?_, ?_⟩
    · simp [BatcherState.checkpoint, BatcherState.effect]
    · simp [Effect.batch]
  · exact ⟨[.counted cfg.dataType], rfl, by simp [Effect.batch]⟩

@[simp] theorem push_batch (b : BatcherState α) (m : α) : (b.push cfg m).batch = b.batch ++ [m] := by
  unfold BatcherState.push
  dsimp only
  split <;> rfl

@[simp] theorem push_totalRecords (b : BatcherState α) (m : α) :
    (b.push cfg m).totalRecords = b.totalRecords + 1 := by
  unfold BatcherState.push
  dsimp only
  split <;> rfl

@[simp] theorem push_totalBatches (b : BatcherState α) (m : α) :
    (b.push cfg m).totalBatches = b.totalBatches := by
  unfold BatcherState.push
  dsimp only
  split <;> rfl

theorem push_lastStateSave_le (h : b.lastStateSave ≤ b.totalRecords) (m : α) :
    (b.push cfg m).lastStateSave ≤ b.totalRecords + 1 := by
  unfold BatcherState.push
  dsimp only
  split
  · exact le_refl _
  · exact Nat.le_succ_of_le h

@[simp] theorem sentIn_push (b : BatcherState α) (m : α) :
    sentIn (b.push cfg m).effects = sentIn b.effects := by
  obtain ⟨effects, heffects, hnone⟩ := push_effects cfg b m
  rw [heffects, sentIn_append_of_none hnone]

theorem Kept.ready (h : Kept cfg alive input b) (hne : b.batch ≠ []) : Ready cfg alive input b :=
  ⟨h.toAccounts, List.length_pos_iff.2 hne, h.room.le⟩

theorem Kept.push (h : Kept cfg alive input b) (m : α) : Ready cfg alive (input ++ [m]) (b.push cfg m) where
  order := by rw [sentIn_push, push_batch, ← List.append_assoc, h.order]
  sizes := by
    rw [sentIn_push]
    exact h.sizes
  fits := by
    have hroom := h.room
    rw [push_batch, List.length_append, List.length_singleton]
    omega
  records := by rw [push_totalRecords, h.records, List.length_append, List.length_singleton]
  batches := by rw [push_totalBatches, sentIn_push, h.batches]
  saved := by
    rw [push_totalRecords]
    exact push_lastStateSave_le h.saved m
  accepted := by
    rw [push_totalBatches]
    exact h.accepted

theorem Ready.send (h : Ready cfg alive input b) : Fate cfg alive input (b.send alive) := by
  unfold BatcherState.send
  split
  next hlive =>
    have hsent : sentIn (b.effects ++ [.sent b.batch]) = sentIn b.effects ++ [b.batch] := sentIn_append _ _
    have hsize := h.fits
    refine ⟨⟨?_, ?_, h.records, ?_, h.saved, ?_⟩, ?_⟩
    · show (sentIn (b.effects ++ [.sent b.batch])).flatten ++ [] = input
      rw [hsent, List.flatten_concat, List.append_nil, h.order]
    · show ∀ batch ∈ sentIn (b.effects ++ [.sent b.batch]), _
      intro batch hbatch
      rw [hsent, List.mem_append, List.mem_singleton] at hbatch
      obtain hold | rfl := hbatch
      · exact h.sizes batch hold
      · exact hsize
    · show b.totalBatches + 1 = (sentIn (b.effects ++ [.sent b.batch])).length
      rw [hsent, List.length_append, List.length_singleton, h.batches]
    · intro k hk
      obtain hlt | rfl := Nat.lt_succ_iff_lt_or_eq.1 hk
      · exact h.accepted k hlt
      · exact hlive
    · show 0 < cfg.batchSize
      omega
  next hdead =>
    have hsent : sentIn (b.effects ++ [.refused b.batch]) = sentIn b.effects :=
      sentIn_append_of_none (by simp [Effect.batch])
    refine ⟨?_, List.getLast?_concat, ?_⟩
    · show alive (sentIn (b.effects ++ [.refused b.batch])).length = false
      rw [hsent, ← h.batches]
      exact Bool.eq_false_iff.2 hdead
    · show (sentIn (b.effects ++ [.refused b.batch])).flatten ++ b.batch <+: input
      rw [hsent, h.order]

theorem Ready.flush (h : Ready cfg alive input b) (flushed : DateTime) :
    Fate cfg alive input (b.flush alive flushed) := by
  have hfate := h.send
  unfold BatcherState.flush
  cases hsend : b.send alive with
  | error b' =>
    rw [hsend] at hfate
    exact hfate
  | ok b' =>
    rw [hsend] at hfate
    exact ⟨⟨hfate.order, hfate.sizes, hfate.records, hfate.batches, hfate.saved, hfate.accepted⟩, hfate.room⟩

/-- One turn adds its message, if it has one, to the input. -/
theorem Kept.turn (h : Kept cfg alive input b) (t : Turn α) :
    Fate cfg alive (input ++ t.received.toList) (b.turn cfg alive t) := by
  unfold BatcherState.turn
  cases t.received with
  | some m =>
    have hready := h.push m
    dsimp only
    split
    next => exact hready.flush t.flushed
    next hroom => exact ⟨hready.toAccounts, Nat.lt_of_not_le hroom⟩
  | none =>
    rw [Option.toList_none, List.append_nil]
    dsimp only
    split
    next hflush => exact (h.ready hflush.1).flush t.flushed
    next => exact h

theorem messagesIn_cons (t : Turn α) (turns : List (Turn α)) :
    messagesIn (t :: turns) = t.received.toList ++ messagesIn turns := by
  unfold messagesIn
  rw [List.filterMap_cons]
  cases t.received <;> rfl

theorem Refused.more (h : Refused alive input b) (rest : List α) : Refused alive (input ++ rest) b :=
  ⟨h.dead, h.last, h.order.trans (List.prefix_append input rest)⟩

/-- The loop, by induction over its turns. -/
theorem Kept.turns (h : Kept cfg alive input b) (turns : List (Turn α)) :
    Fate cfg alive (input ++ messagesIn turns) (turns.foldlM (BatcherState.turn cfg alive) b) := by
  induction turns generalizing input b with
  | nil =>
    show Kept cfg alive (input ++ []) b
    rw [List.append_nil]
    exact h
  | cons t turns ih =>
    have hturn := h.turn t
    rw [messagesIn_cons, ← List.append_assoc, List.foldlM_cons]
    cases ht : b.turn cfg alive t with
    | error b' =>
      rw [ht] at hturn
      exact hturn.more (messagesIn turns)
    | ok b' =>
      rw [ht] at hturn
      exact ih hturn

theorem Kept.close (h : Kept cfg alive input b) :
    Fate cfg alive input (b.close alive) ∧ ∀ b', b.close alive = .ok b' → b'.batch = [] := by
  unfold BatcherState.close
  split
  next hne =>
    refine ⟨(h.ready hne).send, ?_⟩
    intro b' hb'
    unfold BatcherState.send at hb'
    split at hb'
    · rw [← Except.ok.inj hb']
    · exact nomatch hb'
  next hempty =>
    refine ⟨h, ?_⟩
    intro b' hb'
    rw [← Except.ok.inj hb']
    exact not_not.1 hempty

theorem kept_init (hsize : 1 ≤ cfg.batchSize) (start : DateTime) : Kept cfg alive ([] : List α) (.init start) where
  order := rfl
  sizes := by
    intro batch hbatch
    exact absurd hbatch List.not_mem_nil
  room := hsize
  records := rfl
  batches := rfl
  saved := le_refl 0
  accepted := fun k hk => absurd hk k.not_lt_zero

/-- What `message_batcher` has done for these messages when it returns `Ok`. -/
structure Batched (cfg : BatcherConfig) (messages : List α) (effects : List (Effect α)) : Prop where
  order : (sentIn effects).flatten = messages
  sizes : ∀ batch ∈ sentIn effects, 1 ≤ batch.length ∧ batch.length ≤ cfg.batchSize
  progress : (progressIn effects).getLast? =
    some (cfg.fileName, messages.length, messages.length, (sentIn effects).length)

theorem sentIn_checkpoint (cfg : BatcherConfig) (b : BatcherState α) :
    sentIn (b.checkpoint cfg).effects = sentIn b.effects := by
  show sentIn (b.effects ++ [_] ++ [_]) = sentIn b.effects
  rw [List.append_assoc]
  exact sentIn_append_of_none (by simp [Effect.batch])

theorem progressIn_checkpoint (b : BatcherState α) : (progressIn (b.checkpoint cfg).effects).getLast? =
    some (cfg.fileName, b.totalRecords, b.totalRecords, b.totalBatches) := by
  show (progressIn (b.effects ++ [.progressUpdated _ _ _ _] ++ [.saved])).getLast? = _
  rw [List.append_assoc, progressIn_append]
  exact List.getLast?_concat

/-- The function returns `Ok` with everything handed over, or an error because a batch was refused. -/
theorem messageBatcher_cases (hsize : 1 ≤ cfg.batchSize) (alive : Nat → Bool) (start : DateTime)
    (turns : List (Turn α)) :
    (∃ b, messageBatcher cfg alive start turns = .ok b ∧ Batched cfg (messagesIn turns) b.effects ∧
      ∀ k < (sentIn b.effects).length, alive k = true) ∨
    ∃ b, messageBatcher cfg alive start turns = .error b ∧ Refused alive (messagesIn turns) b := by
  have hinit : Kept cfg alive ([] : List α) (.init start) := kept_init hsize start
  have hturns := hinit.turns turns
  rw [List.nil_append] at hturns
  unfold messageBatcher
  cases hloop : turns.foldlM (BatcherState.turn cfg alive) (.init start) with
  | error b =>
    rw [hloop] at hturns
    exact .inr ⟨b, rfl, hturns⟩
  | ok b =>
    rw [hloop] at hturns
    obtain ⟨hclose, hempty⟩ := Kept.close hturns
    cases hend : b.close alive with
    | error b' =>
      rw [hend] at hclose
      exact .inr ⟨b', by simp [bind, Except.bind, hend], hclose⟩
    | ok b' =>
      rw [hend] at hclose
      have hbatch := hempty b' hend
      refine .inl ⟨b'.checkpoint cfg, by simp [bind, Except.bind, hend, pure, Except.pure], ⟨?_, ?_, ?_⟩, ?_⟩
      · have horder := hclose.order
        rwa [hbatch, List.append_nil, ← sentIn_checkpoint cfg] at horder
      · rw [sentIn_checkpoint]
        exact hclose.sizes
      · rw [progressIn_checkpoint, sentIn_checkpoint, hclose.records, hclose.batches]
      · rw [sentIn_checkpoint, ← hclose.batches]
        exact hclose.accepted

theorem send_always {b' : BatcherState α} (h : b.send alive = .ok b') : b.send (fun _ => true) = .ok b' := by
  unfold BatcherState.send at h
  split at h
  · exact h
  · exact nomatch h

theorem flush_always {flushed : DateTime} (h : b.flush alive flushed = .ok b') :
    b.flush (fun _ => true) flushed = .ok b' := by
  unfold BatcherState.flush at h ⊢
  cases hsend : b.send alive with
  | error b'' =>
    rw [hsend] at h
    exact nomatch h
  | ok b'' =>
    rw [hsend] at h
    rw [send_always hsend]
    exact h

theorem turn_always {t : Turn α} (h : b.turn cfg alive t = .ok b') : b.turn cfg (fun _ => true) t = .ok b' := by
  unfold BatcherState.turn at h ⊢
  cases hm : t.received with
  | some m =>
    rw [hm] at h
    dsimp only at h ⊢
    split at h
    next hfull => exact (if_pos hfull).trans (flush_always h)
    next hroom => exact (if_neg hroom).trans h
  | none =>
    rw [hm] at h
    dsimp only at h ⊢
    split at h
    next hflush => exact (if_pos hflush).trans (flush_always h)
    next hwait => exact (if_neg hwait).trans h

/-- A run that meets no closed downstream is the run in which there is none. -/
theorem turns_always {turns : List (Turn α)} (h : turns.foldlM (BatcherState.turn cfg alive) b = .ok b') :
    turns.foldlM (BatcherState.turn cfg fun _ => true) b = .ok b' := by
  induction turns generalizing b with
  | nil => exact h
  | cons t turns ih =>
    rw [List.foldlM_cons] at h ⊢
    cases ht : b.turn cfg alive t with
    | error b'' =>
      rw [ht] at h
      exact nomatch h
    | ok b'' =>
      rw [ht] at h
      rw [turn_always ht]
      exact ih h

theorem close_always (h : b.close alive = .ok b') : b.close (fun _ => true) = .ok b' := by
  unfold BatcherState.close at h ⊢
  split at h
  next hne => exact (if_pos hne).trans (send_always h)
  next hempty => exact (if_neg hempty).trans h

theorem messageBatcher_always {start : DateTime} {turns : List (Turn α)}
    (h : messageBatcher cfg alive start turns = .ok b') :
    messageBatcher cfg (fun _ => true) start turns = .ok b' := by
  unfold messageBatcher at h ⊢
  cases hloop : turns.foldlM (BatcherState.turn cfg alive) (.init start) with
  | error b =>
    rw [hloop] at h
    exact nomatch h
  | ok b =>
    rw [hloop] at h
    rw [turns_always hloop]
    cases hend : b.close alive with
    | error b'' => simp [bind, Except.bind, hend] at h
    | ok b'' =>
      simp only [bind, Except.bind, hend] at h
      simp only [bind, Except.bind, close_always hend]
      exact h

/-- With a downstream that is alive, the batches are the input in order, each of between one and `batch_size`
messages, and the last progress counts them. A batch that is due when the downstream has closed is an error. -/
theorem messageBatcher_exact (cfg : BatcherConfig) (hsize : 1 ≤ cfg.batchSize) (alive : Nat → Bool)
    (start : DateTime) (turns : List (Turn α)) :
    ((∀ k, alive k = true) → ∃ b, messageBatcher cfg alive start turns = .ok b ∧
      Batched cfg (messagesIn turns) b.effects) ∧
    ∀ due, messageBatcher cfg (fun _ => true) start turns = .ok due →
      (∃ k < (sentIn due.effects).length, alive k = false) →
        ∃ b, messageBatcher cfg alive start turns = .error b ∧ Refused alive (messagesIn turns) b := by
  obtain ⟨b, hok, hbatched, halive⟩ | ⟨b, herror, hrefused⟩ := messageBatcher_cases hsize alive start turns
  · refine ⟨fun _ => ⟨b, hok, hbatched⟩, ?_⟩
    rintro due hdue ⟨k, hk, hdead⟩
    obtain rfl : b = due := Except.ok.inj ((messageBatcher_always hok).symm.trans hdue)
    rw [halive k hk] at hdead
    exact nomatch hdead
  · refine ⟨?_, fun _ _ _ => ⟨b, herror, hrefused⟩⟩
    intro hlive
    have hdead := hrefused.dead
    rw [hlive] at hdead
    exact nomatch hdead

/-- A message, a timeout that is late enough, and two messages: the timeout and the size send a batch each. -/
theorem lateTimeout_exact :
    ∃ b : BatcherState Nat, messageBatcher ⟨2, .releases, "releases.xml.gz", 3⟩ (fun _ => true) 0
        [⟨some 1, 5, 5⟩, ⟨none, 1000000001, 1000000002⟩, ⟨some 2, 1000000003, 1000000003⟩,
          ⟨some 3, 1000000004, 1000000005⟩] = .ok b ∧
      Batched ⟨2, .releases, "releases.xml.gz", 3⟩ [1, 2, 3] b.effects :=
  (messageBatcher_exact ⟨2, .releases, "releases.xml.gz", 3⟩ (by decide) (fun _ => true) 0
    [⟨some 1, 5, 5⟩, ⟨none, 1000000001, 1000000002⟩, ⟨some 2, 1000000003, 1000000003⟩,
      ⟨some 3, 1000000004, 1000000005⟩]).1 fun _ => rfl

end Invariant

end DiscogsIngestion.Pipeline
