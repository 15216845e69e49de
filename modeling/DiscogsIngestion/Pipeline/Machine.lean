import DiscogsIngestion.Lib.Machine
import DiscogsIngestion.Types

/-!
# The pipeline of `process_single_file`

Five tasks joined by bounded channels, and the call that spawns and joins them.

* `Config` : the rules, if any, the normalizer, the channel capacities and the batch size;
* `Status` : how far a task is, and how it ended;
* `State`, `Action`, `step` : one atomic step of one task or of the call.

Stage 0 is the parser, stages `1 … n` the transforms (validator and normalizer, or the normalizer alone),
stage `n + 1` the batcher and stage `n + 2` the publisher. Channel `k` leads from stage `k` to stage
`k + 1`. A channel closes when a task that owns one of its ends has ended.
-/

namespace DiscogsIngestion.Pipeline

/-- What a rules configuration does to a record. -/
structure Rules (α : Type) where
  shouldSkip : α → Bool
  applyFilters : α → α

/-- What one call of `process_single_file` is given. -/
structure Config (α : Type) where
  rules : Option (Rules α)
  /-- `normalize_record`, the canonical blocks and `calculate_content_hash`. -/
  normalize : α → α
  queueSize : Nat
  batchSize : Nat
  stateSaveInterval : Nat
  queueSize_pos : 0 < queueSize
  batchSize_pos : 0 < batchSize
  stateSaveInterval_pos : 0 < stateSaveInterval

def batchQueueSize : Nat := 100

namespace Config

variable {α : Type} (cfg : Config α)

/-- `message_validator` on one record: skipped, or filtered and forwarded. -/
def validator (rules : Rules α) (m : α) : Option α :=
  if rules.shouldSkip m then none else some (rules.applyFilters m)

def normalizer (m : α) : Option α := some (cfg.normalize m)

/-- The stages between parser and batcher. -/
def transforms : List (α → Option α) :=
  match cfg.rules with
  | some rules => [validator rules, cfg.normalizer]
  | none => [cfg.normalizer]

def n : Nat := cfg.transforms.length

def transform (k : Nat) : α → Option α := (cfg.transforms[k - 1]?).getD some

def batcher : Nat := cfg.n + 1

def publisher : Nat := cfg.n + 2

/-- What is to be published for the parsed records. -/
def expected (records : List α) : List α :=
  match cfg.rules with
  | some rules => ((records.filter fun m => !rules.shouldSkip m).map rules.applyFilters).map cfg.normalize
  | none => records.map cfg.normalize

end Config

/-- How far a task is. A task returns `Ok` when its input is exhausted, and the parser and the transforms
also when their receiver is gone. -/
inductive Status where
  | running
  | drained
  | cut
  | err
  | panicked
  deriving DecidableEq, Repr

namespace Status

def ended (t : Status) : Bool := t ≠ running

def ok (t : Status) : Bool := t = drained || t = cut

end Status

/-- Where the call is: joining its tasks (`awaiting` one handle after the other without rules), then
sending the completion signal, marking the file, closing the connection and returning. -/
inductive Main where
  | joining
  | awaiting (k : Nat)
  | completing (total : Nat)
  | marking (total : Nat)
  | closing (ok : Bool)
  | returning (ok : Bool)
  | returned (ok : Bool)
  deriving DecidableEq, Repr

/-- What the tasks and the call do to the broker connection, to the marker and to the marker file. -/
inductive Event (α : Type) where
  | channelObtained
  | published (batch : List α) (ok : Bool)
  | progressUpdated (records batches : Nat)
  | markerSaved (ok : Bool)
  | fileComplete (total : Nat) (ok : Bool)
  | fileCompleted (total : Nat)
  | closed
  | returned (ok : Bool)
  deriving DecidableEq, Repr

structure State (α : Type) where
  status : Nat → Status
  /-- The records that the parser has yet to send. -/
  todo : List α
  recordCount : Nat
  /-- The contents of the channels between parser, transforms and batcher. -/
  chan : Nat → List α
  /-- What a transform has received and processed and not yet sent. -/
  held : Nat → Option α
  batch : List α
  totalRecords : Nat
  totalBatches : Nat
  /-- The batch that the batcher is about to send, and whether its input has ended. -/
  sending : Option (List α)
  inputEnded : Bool
  batchChan : List (List α)
  /-- The batch that the publisher has received and not yet published. -/
  publishing : Option (List α)
  main : Main
  log : List (Event α)

/-- The state in which the tasks have been spawned on these records. -/
def State.init {α : Type} (cfg : Config α) (records : List α) : State α where
  status _ := .running
  todo := records
  recordCount := 0
  chan _ := []
  held _ := none
  batch := []
  totalRecords := 0
  totalBatches := 0
  sending := none
  inputEnded := false
  batchChan := []
  publishing := none
  main := if cfg.rules.isSome then .joining else .awaiting 0
  log := []

/-- The batches for which `publish_batch` returned `Ok`, in order. -/
def publishedIn {α : Type} (log : List (Event α)) : List (List α) :=
  log.filterMap fun e =>
    match e with
    | .published batch true => some batch
    | _ => none

/-- The record count with which an event reports the file as complete. -/
def Event.reports {α : Type} : Event α → Option Nat
  | .fileComplete total _ => some total
  | .fileCompleted total => some total
  | _ => none

inductive Action where
  | parserSend
  | parserCut
  | parserEof
  | receive (k : Nat)
  | forward (k : Nat)
  | cutOff (k : Nat)
  | drain (k : Nat)
  | batcherReceive (saved : Bool)
  | batcherFlush
  | batcherEnd
  | batcherSend
  | batcherRefused
  | batcherFinish (saved : Bool)
  | publisherTake
  | publisherSettle (ok : Bool)
  | publisherDrain
  | fail (k : Nat)
  | panic (k : Nat)
  | join
  | joinPanic (k : Nat)
  | await
  | sendFileComplete (ok : Bool)
  | completeFile (saved : Bool)
  | close
  | return
  deriving DecidableEq, Repr

section Step

variable {α : Type} (cfg : Config α)

namespace State

variable (s : State α)

def setStatus (k : Nat) (t : Status) : State α := { s with status := Function.update s.status k t }

def setChan (k : Nat) (q : List α) : State α := { s with chan := Function.update s.chan k q }

def setHeld (k : Nat) (m : Option α) : State α := { s with held := Function.update s.held k m }

def record (e : Event α) : State α := { s with log := s.log ++ [e] }

/-- Channel `k` takes a record: it has room and its receiver is there. -/
def accepts (k : Nat) : Bool := s.status (k + 1) = .running && (s.chan k).length < cfg.queueSize

/-- `update_file_progress` and a save whose failure is only logged. -/
def checkpoint (saved : Bool) : State α :=
  (s.record (.progressUpdated s.totalRecords s.totalBatches)).record (.markerSaved saved)

def allEnded : Bool := (List.range (cfg.n + 3)).all fun k => (s.status k).ended

def allOk : Bool := (List.range (cfg.n + 3)).all fun k => (s.status k).ok

def anyPanicked : Bool := (List.range (cfg.n + 3)).any fun k => s.status k = .panicked

end State

/-- The batcher takes a record: every `stateSaveInterval` records it saves its progress, and a full batch
is sent. -/
def batcherTake (s : State α) (m : α) (saved : Bool) : State α :=
  let s := { s with batch := s.batch ++ [m], totalRecords := s.totalRecords + 1 }
  let s := if s.totalRecords % cfg.stateSaveInterval = 0 then s.checkpoint saved else s
  if cfg.batchSize ≤ s.batch.length then { s with sending := some s.batch, batch := [] } else s

def step (s : State α) : Action → Option (State α)
  | .parserSend =>
    match s.todo with
    | m :: rest =>
      if s.status 0 = .running && s.accepts cfg 0 then
        some { (s.setChan 0 (s.chan 0 ++ [m])) with todo := rest, recordCount := s.recordCount + 1 }
      else none
    | [] => none
  | .parserCut =>
    -- the receiver is gone: the loop ends with `Ok` and a partial count
    if s.status 0 = .running && !s.todo.isEmpty && (s.status 1).ended then some (s.setStatus 0 .cut) else none
  | .parserEof => if s.status 0 = .running && s.todo.isEmpty then some (s.setStatus 0 .drained) else none
  | .receive k =>
    match s.chan (k - 1) with
    | m :: rest =>
      if 1 ≤ k && k ≤ cfg.n && s.status k = .running && (s.held k).isNone then
        some ((s.setChan (k - 1) rest).setHeld k (cfg.transform k m))
      else none
    | [] => none
  | .forward k =>
    match s.held k with
    | some m =>
      if 1 ≤ k && k ≤ cfg.n && s.status k = .running && s.accepts cfg k then
        some ((s.setHeld k none).setChan k (s.chan k ++ [m]))
      else none
    | none => none
  | .cutOff k =>
    -- the receiver is gone: the stage ends with `Ok`, the record it holds is dropped
    if 1 ≤ k && k ≤ cfg.n && s.status k = .running && (s.held k).isSome && (s.status (k + 1)).ended then
      some (s.setStatus k .cut)
    else none
  | .drain k =>
    if 1 ≤ k && k ≤ cfg.n && s.status k = .running && (s.held k).isNone && (s.chan (k - 1)).isEmpty &&
        (s.status (k - 1)).ended then
      some (s.setStatus k .drained)
    else none
  | .batcherReceive saved =>
    match s.chan cfg.n with
    | m :: rest =>
      if s.status cfg.batcher = .running && s.sending.isNone && !s.inputEnded then
        some (batcherTake cfg (s.setChan cfg.n rest) m saved)
      else none
    | [] => none
  | .batcherFlush =>
    -- a receive timed out and the last flush is more than a second ago
    if s.status cfg.batcher = .running && s.sending.isNone && !s.inputEnded && !s.batch.isEmpty then
      some { s with sending := some s.batch, batch := [] }
    else none
  | .batcherEnd =>
    if s.status cfg.batcher = .running && s.sending.isNone && !s.inputEnded && (s.chan cfg.n).isEmpty &&
        (s.status cfg.n).ended then
      some { s with
        inputEnded := true
        sending := if s.batch.isEmpty then none else some s.batch
        batch := [] }
    else none
  | .batcherSend =>
    match s.sending with
    | some batch =>
      if s.status cfg.batcher = .running && s.status cfg.publisher = .running &&
          s.batchChan.length < batchQueueSize then
        some { s with
          sending := none
          batchChan := s.batchChan ++ [batch]
          totalBatches := s.totalBatches + 1 }
      else none
    | none => none
  | .batcherRefused =>
    if s.status cfg.batcher = .running && s.sending.isSome && (s.status cfg.publisher).ended then
      some (s.setStatus cfg.batcher .err)
    else none
  | .batcherFinish saved =>
    if s.status cfg.batcher = .running && s.sending.isNone && s.inputEnded then
      some ((s.checkpoint saved).setStatus cfg.batcher .drained)
    else none
  | .publisherTake =>
    match s.batchChan with
    | batch :: rest =>
      if s.status cfg.publisher = .running && s.publishing.isNone then
        -- `publish_batch` begins with `get_channel`, which reconnects a closed connection
        some ({ s with batchChan := rest, publishing := some batch }.record .channelObtained)
      else none
    | [] => none
  | .publisherSettle ok =>
    match s.publishing with
    | some batch =>
      if s.status cfg.publisher = .running then
        let s := { s with publishing := none }.record (.published batch ok)
        some (if ok then s else s.setStatus cfg.publisher .err)
      else none
    | none => none
  | .publisherDrain =>
    if s.status cfg.publisher = .running && s.publishing.isNone && s.batchChan.isEmpty &&
        (s.status cfg.batcher).ended then
      some (s.setStatus cfg.publisher .drained)
    else none
  | .fail k =>
    if k ≤ cfg.publisher && s.status k = .running then some (s.setStatus k .err) else none
  | .panic k =>
    if k ≤ cfg.publisher && s.status k = .running then some (s.setStatus k .panicked) else none
  | .join =>
    -- `try_join!` on the handles waits for all of them unless one panics
    if s.main = .joining && s.allEnded cfg && !s.anyPanicked cfg then
      some { s with main := if s.allOk cfg then .completing s.recordCount else .closing false }
    else none
  | .joinPanic k =>
    if s.main = .joining && k ≤ cfg.publisher && s.status k = .panicked then
      some { s with main := .closing false }
    else none
  | .await =>
    match s.main with
    | .awaiting k =>
      if (s.status k).ended then
        some { s with
          main :=
            if (s.status k).ok then
              if k = cfg.publisher then .completing s.recordCount else .awaiting (k + 1)
            else .closing false }
      else none
    | _ => none
  | .sendFileComplete ok =>
    match s.main with
    | .completing total =>
      some { (s.record (.fileComplete total ok)) with main := if ok then .marking total else .closing false }
    | _ => none
  | .completeFile saved =>
    match s.main with
    | .marking total =>
      some { ((s.record (.fileCompleted total)).record (.markerSaved saved)) with main := .closing saved }
    | _ => none
  | .close =>
    match s.main with
    | .closing ok => some { (s.record .closed) with main := .returning ok }
    | _ => none
  | .return =>
    match s.main with
    | .returning ok => some { (s.record (.returned ok)) with main := .returned ok }
    | _ => none

/-- The states of a call on these records. -/
def Reachable (records : List α) (s : State α) : Prop :=
  Machine.Reach (step cfg) Machine.always (State.init cfg records) s

end Step

end DiscogsIngestion.Pipeline
