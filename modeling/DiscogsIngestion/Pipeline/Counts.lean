import DiscogsIngestion.Marker.Commute
import DiscogsIngestion.Pipeline.NoLoss

/-!
# The published-message count of a file

The batcher writes the count of what it has received to the marker, ahead of the publisher.

* `confirmed` : the number of records whose publication has succeeded;
* `Event.marks`, `counts` : what the call does to the entry of its file, and what the entry then says;
* `Batches` : what the batcher has received is confirmed, in a batch that is under way or in the next one;
* `Marked` : the count in the marker against these;
* `messagesPublished_counts` : the count of a completed file is exact, at a checkpoint it is ahead by a bounded number.
-/

namespace DiscogsIngestion.Pipeline

open StateMarker (FileOp stepsOf)
open Interleave (own component_run)

variable {α : Type} {cfg : Config α} {records : List α} {s s' : State α} {a : Action}

/-! ## Counts of a log -/

/-- The number of records for which `publish_batch` returned `Ok`. -/
def confirmed (log : List (Event α)) : Nat := (publishedIn log).flatten.length

def failed (log : List (Event α)) : Nat :=
  (log.filterMap fun e =>
    match e with
    | .published batch false => some batch
    | _ => none).flatten.length

def Event.marks : Event α → Option FileOp
  | .progressUpdated records batches => some (.progress records records batches)
  | .fileCompleted total => some (.complete total)
  | _ => none

/-- `start_file_processing`, and what the call has done to the marker since. -/
def marksOf (log : List (Event α)) : List FileOp := .start :: log.filterMap Event.marks

/-- Status and message count of an entry after an operation of its own file. -/
def countStep (count : PhaseStatus × Nat) : FileOp → PhaseStatus × Nat
  | .start => (.inProgress, 0)
  | .progress _ messages _ => (count.1, messages)
  | .complete records => (.completed, if count.2 = 0 then records else count.2)

/-- Status and message count of the file's entry after this log. -/
def counts (log : List (Event α)) : PhaseStatus × Nat := (log.filterMap Event.marks).foldl countStep (.inProgress, 0)

theorem confirmed_append (log log' : List (Event α)) : confirmed (log ++ log') = confirmed log + confirmed log' := by
  unfold confirmed
  rw [publishedIn_append, List.flatten_append, List.length_append]

theorem failed_append (log log' : List (Event α)) : failed (log ++ log') = failed log + failed log' := by
  unfold failed
  rw [List.filterMap_append, List.flatten_append, List.length_append]

theorem counts_append (log log' : List (Event α)) :
    counts (log ++ log') = (log'.filterMap Event.marks).foldl countStep (counts log) := by
  unfold counts
  rw [List.filterMap_append, List.foldl_append]

/-! ## Batches -/

/-- Where the records are that the batcher has received. -/
structure Batches (cfg : Config α) (s : State α) : Prop where
  total : s.totalRecords = confirmed s.log + failed s.log + (s.publishing.getD []).length + s.batchChan.flatten.length +
    (s.sending.getD []).length + s.batch.length
  /-- The publisher has one batch, also when it has failed to publish it. -/
  publisher : failed s.log + (s.publishing.getD []).length ≤ cfg.batchSize
  failed : s.status cfg.publisher = .running → failed s.log = 0
  chan : ∀ batch ∈ s.batchChan, batch.length ≤ cfg.batchSize
  room : s.batchChan.length ≤ batchQueueSize
  sending : (s.sending.getD []).length ≤ cfg.batchSize
  batch : s.batch.length < cfg.batchSize

theorem batches_init : Batches cfg (State.init cfg records) where
  total := rfl
  publisher := Nat.zero_le _
  failed _ := rfl
  chan _ h := absurd h List.not_mem_nil
  room := Nat.zero_le _
  sending := Nat.zero_le _
  batch := cfg.batchSize_pos

/-- How far the batcher can be ahead of the broker when it takes a record: the publisher, the channel and the batch
that is being filled. -/
def Config.slack (cfg : Config α) : Nat := (batchQueueSize + 2) * cfg.batchSize

theorem Batches.confirmed_le (hI : Batches cfg s) : confirmed s.log ≤ s.totalRecords := by
  have htotal := hI.total
  omega

theorem length_flatten_le {batches : List (List α)} {n : Nat} (h : ∀ batch ∈ batches, batch.length ≤ n) :
    batches.flatten.length ≤ batches.length * n := by
  induction batches with
  | nil => exact Nat.zero_le _
  | cons batch rest ih =>
    have hfirst := h batch (List.mem_cons_self ..)
    have hrest := ih fun b hb => h b (List.mem_cons_of_mem _ hb)
    rw [List.flatten_cons, List.length_append, List.length_cons, Nat.succ_mul]
    omega

theorem Batches.lt_slack (hI : Batches cfg s) (hs : s.sending = none) :
    s.totalRecords < confirmed s.log + cfg.slack := by
  have htotal := hI.total
  have hpublisher := hI.publisher
  have hbatch := hI.batch
  have hchan : s.batchChan.flatten.length ≤ batchQueueSize * cfg.batchSize :=
    (length_flatten_le hI.chan).trans (Nat.mul_le_mul_right _ hI.room)
  have hslack : cfg.slack = batchQueueSize * cfg.batchSize + 2 * cfg.batchSize := Nat.add_mul ..
  rw [hs, Option.getD_none, List.length_nil] at htotal
  omega

theorem running_of_step {k : Nat} (h : step cfg s a = some s') (hk : s'.status k = .running) :
    s.status k = .running := by
  by_contra hended
  rw [step_status_of_ended h hended] at hk
  exact hended hk

theorem Batches.keep (hI : Batches cfg s) (h : step cfg s a = some s') {events : List (Event α)}
    (hlog : s'.log = s.log ++ events) (hconfirmed : confirmed events = 0)
    (hfailed : Pipeline.failed events = 0) (hpub : s'.publishing = s.publishing)
    (hchan : s'.batchChan = s.batchChan) (hsend : s'.sending = s.sending) (hbatch : s'.batch = s.batch)
    (htotal : s'.totalRecords = s.totalRecords) : Batches cfg s' := by
  have hc : confirmed s'.log = confirmed s.log := by
    rw [hlog, confirmed_append, hconfirmed, Nat.add_zero]
  have hf : Pipeline.failed s'.log = Pipeline.failed s.log := by
    rw [hlog, failed_append, hfailed, Nat.add_zero]
  constructor
  · rw [htotal, hc, hf, hpub, hchan, hsend, hbatch]
    exact hI.total
  · rw [hf, hpub]
    exact hI.publisher
  · intro hk
    rw [hf]
    exact hI.failed (running_of_step h hk)
  · rw [hchan]
    exact hI.chan
  · rw [hchan]
    exact hI.room
  · rw [hsend]
    exact hI.sending
  · rw [hbatch]
    exact hI.batch

def takenEvents (cfg : Config α) (s : State α) (saved : Bool) : List (Event α) :=
  if (s.totalRecords + 1) % cfg.stateSaveInterval = 0 then
    [.progressUpdated (s.totalRecords + 1) s.totalBatches, .markerSaved saved]
  else []

theorem batcherTake_takenEvents (m : α) (saved : Bool) :
    (batcherTake cfg s m saved).log = s.log ++ takenEvents cfg s saved := by
  unfold batcherTake takenEvents State.checkpoint State.record
  dsimp only
  split_ifs <;> simp

theorem batcherTake_batch (hs : s.sending = none) (m : α) (saved : Bool) :
    (batcherTake cfg s m saved).sending = none ∧ (batcherTake cfg s m saved).batch = s.batch ++ [m] ∧
        s.batch.length + 1 < cfg.batchSize ∨
      (batcherTake cfg s m saved).sending = some (s.batch ++ [m]) ∧ (batcherTake cfg s m saved).batch = [] ∧
        cfg.batchSize ≤ s.batch.length + 1 := by
  unfold batcherTake State.checkpoint State.record
  dsimp only
  split_ifs <;> simp_all

theorem batches_batcherTake (hI : Batches cfg s) (hs : s.sending = none) (m : α) (saved : Bool) :
    Batches cfg (batcherTake cfg s m saved) := by
  have hlog : (batcherTake cfg s m saved).log = s.log ++ takenEvents cfg s saved := batcherTake_takenEvents m saved
  have hconfirmed : confirmed (batcherTake cfg s m saved).log = confirmed s.log := by
    rw [hlog, confirmed_append]
    unfold takenEvents
    split_ifs <;> rfl
  have hfailed : Pipeline.failed (batcherTake cfg s m saved).log = Pipeline.failed s.log := by
    rw [hlog, failed_append]
    unfold takenEvents
    split_ifs <;> rfl
  obtain ⟨hstatus, -, -, -, -, hchan, hpub, -⟩ := @batcherTake_frame _ cfg s m saved
  have hcount : (batcherTake cfg s m saved).totalRecords = s.totalRecords + 1 := batcherTake_totalRecords m saved
  have htotal := hI.total
  have hbatch := hI.batch
  rw [hs, Option.getD_none, List.length_nil] at htotal
  constructor
  · rw [hcount, hconfirmed, hfailed, hpub, hchan]
    obtain ⟨hsend, hnew, -⟩ | ⟨hsend, hnew, -⟩ := batcherTake_batch hs m saved
    · rw [hsend, hnew, List.length_append, List.length_singleton, Option.getD_none, List.length_nil]
      omega
    · rw [hsend, hnew, Option.getD_some, List.length_append, List.length_singleton, List.length_nil]
      omega
  · rw [hfailed, hpub]
    exact hI.publisher
  · rw [hfailed, hstatus]
    exact hI.failed
  · rw [hchan]
    exact hI.chan
  · rw [hchan]
    exact hI.room
  · obtain ⟨hsend, -, -⟩ | ⟨hsend, -⟩ := batcherTake_batch hs m saved
    · rw [hsend]
      exact Nat.zero_le _
    · rw [hsend, Option.getD_some, List.length_append]
      exact hbatch
  · obtain ⟨-, hnew, hlt⟩ | ⟨-, hnew, -⟩ := batcherTake_batch hs m saved
    · rw [hnew, List.length_append]
      exact hlt
    · rw [hnew]
      exact cfg.batchSize_pos

theorem batchChan_lt (h : step cfg s .batcherSend = some s') : s.batchChan.length < batchQueueSize := by
  unfold step at h
  dsimp only at h
  cases hs : s.sending with
  | none => simp [hs] at h
  | some batch =>
    rw [hs] at h
    simp only [Option.ite_none_right_eq_some, Bool.and_eq_true, decide_eq_true_eq] at h
    exact h.1.2

theorem Batches.step (hI : Batches cfg s) (h : step cfg s a = some s') : Batches cfg s' := by
  obtain ⟨htotal, hpublisher, hfailed, hchan, hroom, hsending, hbatch⟩ := hI
  have hI : Batches cfg s := ⟨htotal, hpublisher, hfailed, hchan, hroom, hsending, hbatch⟩
  cases Step.of_step h with
  | @batcherReceive m rest saved _ _ hs =>
    have hset : Batches cfg (s.setChan cfg.n rest) := ⟨htotal, hpublisher, hfailed, hchan, hroom, hsending, hbatch⟩
    exact batches_batcherTake hset hs m saved
  | batcherFlush _ hs =>
    rw [hs, Option.getD_none, List.length_nil] at htotal
    refine ⟨?_, hpublisher, hfailed, hchan, hroom, hbatch.le, cfg.batchSize_pos⟩
    exact htotal
  | batcherEnd _ hs =>
    rw [hs, Option.getD_none, List.length_nil] at htotal
    cases hb : s.batch with
    | nil =>
      rw [hb] at htotal
      exact ⟨htotal, hpublisher, hfailed, hchan, hroom, Nat.zero_le _, cfg.batchSize_pos⟩
    | cons m rest =>
      rw [hb] at htotal hbatch
      exact ⟨htotal, hpublisher, hfailed, hchan, hroom, hbatch.le, cfg.batchSize_pos⟩
  | @batcherSend batch hs =>
    rw [hs, Option.getD_some] at htotal hsending
    refine ⟨?_, hpublisher, hfailed, ?_, ?_, Nat.zero_le _, hbatch⟩
    · simp only [List.flatten_append, List.flatten_singleton, List.length_append, Option.getD_none, List.length_nil]
      omega
    · intro b hb
      obtain hold | hnew := List.mem_append.1 hb
      · exact hchan b hold
      · rw [List.mem_singleton.1 hnew]
        exact hsending
    · rw [List.length_append]
      exact batchChan_lt h
  | batcherFinish => exact hI.keep h (List.append_assoc ..) rfl rfl rfl rfl rfl rfl rfl
  | @publisherTake batch rest hnext hrun hpub =>
    rw [hnext, List.flatten_cons, List.length_append, hpub, Option.getD_none, List.length_nil] at htotal
    rw [hnext] at hchan hroom
    have hc : confirmed (s.log ++ [.channelObtained]) = confirmed s.log := confirmed_append ..
    have hf : Pipeline.failed (s.log ++ [.channelObtained]) = Pipeline.failed s.log := failed_append ..
    have hfirst : batch.length ≤ cfg.batchSize := hchan batch (List.mem_cons_self ..)
    have hnone := hfailed hrun
    unfold State.record
    refine ⟨?_, ?_, ?_, ?_, ?_, hsending, hbatch⟩
    · rw [hc, hf]
      dsimp only [Option.getD_some]
      omega
    · rw [hf]
      dsimp only [Option.getD_some]
      omega
    · intro _
      rw [hf]
      exact hnone
    · exact fun b hb => hchan b (List.mem_cons_of_mem _ hb)
    · exact (Nat.le_succ _).trans hroom
  | @publisherSettled batch hpub hrun =>
    rw [hpub, Option.getD_some] at htotal hpublisher
    have hc : confirmed (s.log ++ [.published batch true]) = confirmed s.log + batch.length := by
      rw [confirmed_append]
      simp [confirmed, publishedIn]
    have hf : Pipeline.failed (s.log ++ [.published batch true]) = Pipeline.failed s.log := failed_append ..
    have hnone := hfailed hrun
    unfold State.record
    refine ⟨?_, ?_, ?_, hchan, hroom, hsending, hbatch⟩
    · rw [hc, hf]
      dsimp only [Option.getD_none, List.length_nil]
      omega
    · rw [hf, hnone]
      exact Nat.zero_le _
    · intro _
      rw [hf]
      exact hnone
  | @publisherFailed batch hpub hrun =>
    rw [hpub, Option.getD_some] at htotal hpublisher
    have hc : confirmed (s.log ++ [.published batch false]) = confirmed s.log := confirmed_append ..
    have hf : Pipeline.failed (s.log ++ [.published batch false]) = Pipeline.failed s.log + batch.length := by
      rw [failed_append]
      simp [Pipeline.failed]
    unfold State.record State.setStatus
    refine ⟨?_, ?_, ?_, hchan, hroom, hsending, hbatch⟩
    · rw [hc, hf]
      dsimp only [Option.getD_none, List.length_nil]
      omega
    · rw [hf]
      exact hpublisher
    · intro hk
      have herr : Function.update s.status cfg.publisher Status.err cfg.publisher = .err := Function.update_self ..
      exact absurd (herr.symm.trans hk) (by simp)
  | fileCompleteSent | fileCompleteFailed | close | «return» =>
    exact hI.keep h rfl rfl rfl rfl rfl rfl rfl rfl
  | completeFile => exact hI.keep h (List.append_assoc ..) rfl rfl rfl rfl rfl rfl rfl
  | _ => exact hI.keep h (List.append_nil _).symm rfl rfl rfl rfl rfl rfl rfl

/-! ## The count in the marker -/

/-- What a step does to the entry of the file. -/
inductive Marks (cfg : Config α) (s s' : State α) : Prop where
  | quiet {events : List (Event α)} : s'.log = s.log ++ events → events.filterMap Event.marks = [] →
      (s'.status cfg.batcher = .drained → s.status cfg.batcher = .drained ∧ s'.totalRecords = s.totalRecords) →
      Marks cfg s s'
  | checkpoint {batches : Nat} {saved : Bool} :
      s'.log = s.log ++ [.progressUpdated s'.totalRecords batches, .markerSaved saved] →
      s.status cfg.batcher = .running → s.sending = none → s.totalRecords ≤ s'.totalRecords →
      s'.totalRecords ≤ s.totalRecords + 1 → Marks cfg s s'
  | complete {total : Nat} {saved : Bool} : s'.log = s.log ++ [.fileCompleted total, .markerSaved saved] →
      s.main = .marking total → s'.status = s.status → s'.totalRecords = s.totalRecords → Marks cfg s s'

theorem drained_setStatus {j k : Nat} {t : Status} (h : t ≠ .drained ∨ j ≠ k)
    (hd : (s.setStatus j t).status k = .drained) : s.status k = .drained := by
  unfold State.setStatus at hd
  by_cases hjk : k = j
  · subst hjk
    have ht : Function.update s.status k t k = t := Function.update_self ..
    exact absurd (ht.symm.trans hd) (h.resolve_right fun hne => hne rfl)
  · exact (Function.update_of_ne hjk t s.status).symm.trans hd

theorem step_marks (h : step cfg s a = some s') : Marks cfg s s' := by
  have hends : ∀ j t, t ≠ .drained ∨ j ≠ cfg.batcher → s' = s.setStatus j t → Marks cfg s s' := by
    rintro j t ht rfl
    exact .quiet (List.append_nil _).symm rfl fun hd => ⟨drained_setStatus ht hd, rfl⟩
  cases Step.of_step h with
  | @batcherReceive m rest saved _ hrun hs =>
    have htotal : (batcherTake cfg (s.setChan cfg.n rest) m saved).totalRecords = s.totalRecords + 1 :=
      batcherTake_totalRecords m saved
    have hlog : (batcherTake cfg (s.setChan cfg.n rest) m saved).log =
        s.log ++ takenEvents cfg (s.setChan cfg.n rest) saved := batcherTake_takenEvents m saved
    unfold takenEvents at hlog
    split_ifs at hlog with hdue
    · exact .checkpoint (htotal ▸ hlog) hrun hs (by omega) (by omega)
    · refine .quiet hlog rfl fun hd => ?_
      rw [(batcherTake_frame ..).1] at hd
      exact absurd (hrun.symm.trans hd) (by simp)
  | batcherFinish saved hrun hs => exact .checkpoint (List.append_assoc ..) hrun hs le_rfl (Nat.le_succ _)
  | completeFile saved hmain => exact .complete (List.append_assoc ..) hmain rfl rfl
  | parserCut => exact hends _ _ (.inl (by simp)) rfl
  | parserEof => exact hends _ _ (.inr (by rw [Config.batcher_eq]; omega)) rfl
  | cutOff => exact hends _ _ (.inl (by simp)) rfl
  | drain hn => exact hends _ _ (.inr (by rw [Config.batcher_eq]; omega)) rfl
  | batcherRefused => exact hends _ _ (.inl (by simp)) rfl
  | publisherDrain => exact hends _ _ (.inr (by rw [Config.batcher_eq, Config.publisher_eq]; omega)) rfl
  | fail => exact hends _ _ (.inl (by simp)) rfl
  | panic => exact hends _ _ (.inl (by simp)) rfl
  | publisherFailed => exact .quiet rfl rfl fun hd => ⟨drained_setStatus (.inl (by simp)) hd, rfl⟩
  | publisherTake | publisherSettled | fileCompleteSent | fileCompleteFailed | close | «return» =>
    exact .quiet rfl rfl fun hd => ⟨hd, rfl⟩
  | _ => exact .quiet (List.append_nil _).symm rfl fun hd => ⟨hd, rfl⟩

/-- The count that a completed file is left with. When the batcher has counted nothing, completing it writes the
parser's count. -/
def finalCount (cfg : Config α) (records : List α) : Nat :=
  if (cfg.expected records).length = 0 then records.length else (cfg.expected records).length

theorem finalCount_eq (h : records = [] ∨ ∃ m ∈ records, cfg.skips m = false) :
    finalCount cfg records = (cfg.expected records).length := by
  unfold finalCount
  split_ifs with hnone
  · obtain rfl | ⟨m, hm, hskip⟩ := h
    · exact hnone.symm
    · rw [length_expected, List.length_eq_zero_iff, List.filter_eq_nil_iff] at hnone
      exact absurd (by rw [hskip]; rfl) (hnone m hm)
  · rfl

/-- The entry of the file against what has been received and confirmed. -/
structure Marked (cfg : Config α) (records : List α) (s : State α) : Prop where
  drained : s.status cfg.batcher = .drained → (counts s.log).1 = .inProgress → (counts s.log).2 = s.totalRecords
  behind : (counts s.log).1 = .inProgress → (counts s.log).2 ≤ confirmed s.log + cfg.slack
  done : (counts s.log).1 = .inProgress ∨
    (∀ k ≤ cfg.publisher, (s.status k).ok = true) ∧ counts s.log = (.completed, finalCount cfg records)
  checkpoints : ∀ pre count batches post, s.log = pre ++ .progressUpdated count batches :: post →
    confirmed pre ≤ count

theorem marked_init : Marked cfg records (State.init cfg records) where
  drained h := absurd h (by simp [State.init])
  behind _ := Nat.zero_le _
  done := .inl rfl
  checkpoints _ _ _ _ h := absurd h (by simp [State.init])

/-- A checkpoint stands in the log before these events, or among them. -/
theorem Marked.checkpoints_append (hI : Marked cfg records s) {events : List (Event α)}
    (hnew : ∀ first count batches rest, events = first ++ .progressUpdated count batches :: rest →
      confirmed (s.log ++ first) ≤ count) {pre : List (Event α)} {count batches : Nat} {post : List (Event α)}
    (hsplit : s.log ++ events = pre ++ .progressUpdated count batches :: post) : confirmed pre ≤ count := by
  obtain ⟨rest, hold, -⟩ | ⟨first, rfl, hfirst⟩ := Machine.split_append hsplit
  · exact hI.checkpoints pre count batches rest hold
  · exact hnew first count batches post hfirst

theorem Marked.step (hI : Marked cfg records s) (hB : Batches cfg s) (hL : Lossless cfg records s)
    (hK : s.main.Knows cfg s) (hcount : s.totalRecords + (s.inflow cfg cfg.n).length = (cfg.expected records).length)
    (h : step cfg s a = some s') : Marked cfg records s' := by
  have hended : (∀ k ≤ cfg.publisher, (s.status k).ok = true) → s.status cfg.batcher ≠ .running := by
    intro hok hrun
    have hbatcher := hok cfg.batcher (Nat.le_succ _)
    rw [hrun] at hbatcher
    exact absurd hbatcher (by simp)
  cases step_marks h with
  | @quiet events hlog hnone hdrained =>
    have hcounts : counts s'.log = counts s.log := by
      rw [hlog, counts_append, hnone]
      rfl
    constructor
    · intro hd hprogress
      obtain ⟨hold, htotal⟩ := hdrained hd
      rw [hcounts] at hprogress ⊢
      rw [htotal]
      exact hI.drained hold hprogress
    · intro hprogress
      rw [hcounts] at hprogress ⊢
      have hbehind := hI.behind hprogress
      rw [hlog, confirmed_append]
      omega
    · rw [hcounts]
      exact hI.done.imp_right fun ⟨hok, hfinal⟩ => ⟨fun k hk => step_ok h (hok k hk), hfinal⟩
    · rw [hlog]
      refine fun pre count batches post => hI.checkpoints_append fun first count batches rest hevents => ?_
      have hmem : Event.progressUpdated count batches ∈ events := by simp [hevents]
      have hmark := List.filterMap_eq_nil_iff.1 hnone _ hmem
      exact absurd hmark (by simp [Event.marks])
  | @checkpoint batches saved hlog hrun hs hle hle' =>
    have hcounts : counts s'.log = ((counts s.log).1, s'.totalRecords) := by
      rw [hlog, counts_append]
      rfl
    have hconfirmed : confirmed s'.log = confirmed s.log := by
      rw [hlog, confirmed_append]
      rfl
    have hprogress : (counts s.log).1 = .inProgress := hI.done.resolve_right fun ⟨hok, _⟩ => hended hok hrun
    constructor
    · intro _ _
      rw [hcounts]
    · intro _
      have hslack := hB.lt_slack hs
      rw [hcounts, hconfirmed]
      show s'.totalRecords ≤ _
      omega
    · rw [hcounts]
      exact .inl hprogress
    · rw [hlog]
      refine fun pre count batches' post => hI.checkpoints_append fun first count batches' rest hevents => ?_
      have hle := hB.confirmed_le
      obtain _ | ⟨event, first⟩ := first
      · obtain ⟨heq, -⟩ := List.cons.inj hevents
        obtain ⟨rfl, -⟩ := Event.progressUpdated.inj heq
        rw [List.append_nil]
        omega
      · obtain ⟨-, hevents⟩ := List.cons.inj hevents
        have hmem : Event.progressUpdated count batches' ∈ [Event.markerSaved (α := α) saved] := by simp [hevents]
        exact absurd (List.mem_singleton.1 hmem) (by simp)
  | @complete total saved hlog hmain hstatus htotal =>
    rw [hmain] at hK
    obtain ⟨hok, hrecords⟩ := hK
    obtain ⟨-, hparsed⟩ := hL.published hok
    have hdrained : s.status cfg.batcher = .drained := hL.drained hok (Nat.le_succ _)
    rw [hL.inflow hok, List.length_nil, Nat.add_zero] at hcount
    have hcounts : counts s'.log = (.completed, if (counts s.log).2 = 0 then total else (counts s.log).2) := by
      rw [hlog, counts_append]
      rfl
    have hfinal : counts s'.log = (.completed, finalCount cfg records) := by
      rw [hcounts]
      unfold finalCount
      obtain hprogress | ⟨-, hdone⟩ := hI.done
      · rw [hI.drained hdrained hprogress, hcount, hrecords, hparsed]
      · rw [hdone, hrecords, hparsed]
        unfold finalCount
        dsimp only
        split_ifs <;> simp_all
    constructor
    · intro _ hprogress
      rw [hfinal] at hprogress
      exact absurd hprogress (by simp)
    · intro hprogress
      rw [hfinal] at hprogress
      exact absurd hprogress (by simp)
    · rw [hstatus]
      exact .inr ⟨hok, hfinal⟩
    · rw [hlog]
      refine fun pre count batches post => hI.checkpoints_append fun first count batches rest hevents => ?_
      have hmem : .progressUpdated count batches ∈ [Event.fileCompleted (α := α) total, .markerSaved saved] := by
        rw [hevents]
        exact List.mem_append_right _ (List.mem_cons_self ..)
      exact absurd hmem (by simp)

theorem marked_of_reachable (h : Reachable cfg records s) :
    Marked cfg records s ∧ Batches cfg s ∧ Lossless cfg records s := by
  have hinv : (Marked cfg records s ∧ Batches cfg s ∧ Lossless cfg records s) ∧ s.main.Knows cfg s ∧
      s.totalRecords + (s.inflow cfg cfg.n).length = (cfg.expected records).length := by
    refine h.invariant (I := fun s => (Marked cfg records s ∧ Batches cfg s ∧ Lossless cfg records s) ∧
      s.main.Knows cfg s ∧ s.totalRecords + (s.inflow cfg cfg.n).length = (cfg.expected records).length)
      ⟨⟨marked_init, batches_init, lossless_init⟩, knows_init, ?_⟩ ?_
    · rw [← flow_init]
      exact Nat.zero_add _
    · intro s a s' ⟨⟨hM, hB, hL⟩, hK, hcount⟩ _ h
      exact ⟨⟨hM.step hB hL hK hcount h, hB.step h, hL.step h⟩, step_knows h hK,
        (step_totalRecords h).trans hcount⟩
  exact hinv.1

/-! ## The shared marker -/

def countPart (file : String) (m : StateMarker) : Option (PhaseStatus × Nat) :=
  (m.progress file).map fun entry => (entry.status, entry.messagesPublished)

def partStep (part : Option (PhaseStatus × Nat)) : FileOp → Option (PhaseStatus × Nat)
  | .start => some (.inProgress, 0)
  | op => part.map fun count => countStep count op

theorem countPart_apply {file : String} (m : StateMarker) (now : DateTime) (op : FileOp) :
    countPart file (m.apply now file op) = partStep (countPart file m) op := by
  have hchange := StateMarker.changesEntry_apply m now file op
  unfold countPart
  rw [hchange.progress_self]
  cases op with
  | start => rfl
  | progress records messages batches => cases m.progress file <;> rfl
  | complete records => cases m.progress file <;> rfl

theorem foldl_partStep (count : PhaseStatus × Nat) (ops : List FileOp) :
    ops.foldl partStep (some count) = some (ops.foldl countStep count) := by
  induction ops generalizing count with
  | nil => rfl
  | cons op rest ih =>
    have hop : partStep (some count) op = some (countStep count op) := by cases op <;> rfl
    rw [List.foldl_cons, List.foldl_cons, hop, ih]

/-- Whatever the tasks of other files do meanwhile, the file's entry says what its own call has written. -/
theorem countPart_applyAll {file : String} {log : List (Event α)} (m : StateMarker)
    {events : List (DateTime × String × FileOp)} (hown : own file (stepsOf events) = marksOf log) :
    countPart file (m.applyAll events) = some (counts log) := by
  have hrun : countPart file (m.applyAll events) = (own file (stepsOf events)).foldl partStep (countPart file m) := by
    unfold StateMarker.applyAll
    apply component_run
    · intro m e hfile
      rw [← hfile]
      exact countPart_apply m e.1 e.2.2
    · intro m e hfile
      have hchange := StateMarker.changesEntry_apply m e.1 e.2.1 e.2.2
      unfold countPart
      rw [hchange.progress, if_neg fun heq => hfile heq.symm]
  rw [hrun, hown]
  unfold marksOf counts
  rw [List.foldl_cons]
  exact foldl_partStep _ _

/-- When a file is marked Completed and some of its records was not skipped, or there were none, its message count is
the number of records whose publication has been confirmed. Until then the count in the marker, whoever saves it, is
ahead of that number by at most what fits between batcher and broker, and where the file's batcher saves a checkpoint
it is not behind it. -/
theorem messagesPublished_counts (cfg : Config α) (records : List α) (s : State α) (hs : Reachable cfg records s)
    (m : StateMarker) (file : String) (events : List (DateTime × String × FileOp))
    (hown : own file (stepsOf events) = marksOf s.log) :
    ∃ entry, (m.applyAll events).progress file = some entry ∧
      (entry.status = .completed → (records = [] ∨ ∃ r ∈ records, cfg.skips r = false) →
        entry.messagesPublished = confirmed s.log) ∧
      (entry.status ≠ .completed → entry.messagesPublished ≤ confirmed s.log + cfg.slack) ∧
      ∀ log count batches saved, s.log = log ++ [.progressUpdated count batches, .markerSaved saved] →
        entry.messagesPublished = count ∧ confirmed s.log ≤ entry.messagesPublished := by
  obtain ⟨hM, -, hL⟩ := marked_of_reachable hs
  obtain ⟨entry, hentry, hcounts⟩ := Option.map_eq_some_iff.1 (countPart_applyAll m hown)
  have hstatus : entry.status = (counts s.log).1 := congrArg Prod.fst hcounts
  have hmessages : entry.messagesPublished = (counts s.log).2 := congrArg Prod.snd hcounts
  refine ⟨entry, hentry, ?_, ?_, ?_⟩
  · intro hdone hsome
    obtain hprogress | ⟨hok, hfinal⟩ := hM.done
    · rw [hstatus, hprogress] at hdone
      exact absurd hdone (by simp)
    · have hconfirmed : confirmed s.log = (cfg.expected records).length := congrArg List.length (hL.published hok).1
      rw [hmessages, hfinal, hconfirmed]
      exact finalCount_eq hsome
  · intro hrunning
    obtain hprogress | ⟨-, hfinal⟩ := hM.done
    · rw [hmessages]
      exact hM.behind hprogress
    · rw [hstatus, hfinal] at hrunning
      exact absurd rfl hrunning
  · intro log count batches saved hlog
    have hcount : (counts s.log).2 = count := by
      rw [hlog, counts_append]
      rfl
    have hconfirmed : confirmed s.log = confirmed log := by
      rw [hlog, confirmed_append]
      rfl
    rw [hmessages, hcount, hconfirmed]
    exact ⟨rfl, hM.checkpoints log count batches _ hlog⟩

/-- The run on a record and a zero ends with one message published, and one checkpoint ahead of it. -/
theorem smallRun_messagesPublished :
    let file := "discogs_20260101_labels.xml.gz"
    let events : List (DateTime × String × FileOp) :=
      [(1, file, .start), (2, file, .progress 1 1 0), (3, file, .progress 1 1 1), (4, file, .complete 2)]
    ∃ entry, ((StateMarker.new "20260101" 0).applyAll events).progress file = some entry ∧
      entry.status = .completed ∧ entry.messagesPublished = 1 := by
  intro file events
  obtain ⟨entry, hentry, hdone, -⟩ := messagesPublished_counts smallConfig [1, 0] _
    (Machine.Reach.of_run (smallRun ++ [.completeFile true]) rfl) (.new "20260101" 0) file events rfl
  have hstatus : (((StateMarker.new "20260101" 0).applyAll events).progress file).map (·.status) =
      some .completed := by
    decide +kernel
  rw [hentry, Option.map_some, Option.some.injEq] at hstatus
  exact ⟨entry, hentry, hstatus, hdone hstatus (.inr ⟨1, by decide, rfl⟩)⟩

/-- A run on one record up to the first checkpoint: the record is in the batcher. -/
def earlyRun : List Action :=
  [.parserSend, .receive 1, .forward 1, .receive 2, .forward 2, .batcherReceive true]

theorem earlyRun_ahead :
    let file := "discogs_20260101_labels.xml.gz"
    let events : List (DateTime × String × FileOp) := [(1, file, .start), (2, file, .progress 1 1 0)]
    ∃ s, Reachable smallConfig [1] s ∧ s.log = [.progressUpdated 1 0, .markerSaved true] ∧ confirmed s.log = 0 ∧
      own file (stepsOf events) = marksOf s.log ∧
      (((StateMarker.new "20260101" 0).applyAll events).progress file).map (·.messagesPublished) = some 1 :=
  ⟨_, Machine.Reach.of_run earlyRun rfl, rfl, rfl, rfl, by decide +kernel⟩

end DiscogsIngestion.Pipeline
