import DiscogsIngestion.Pipeline.Batcher
import DiscogsIngestion.Pipeline.Progress

/-!
# The batcher of the pipeline

In every run of the pipeline the steps of its batcher are turns of the loop of `message_batcher`.

* `State.handed`, `Follows` : the batches that the publisher has been given, and a loop that has done the same;
* `InLoop` : where in the loop the batcher is, by what it is about to send;
* `looping_step`, `looping_of_reachable` : each step is a part of a turn, and a run is a run of the loop;
* `messageBatcher_of_drained` : a batcher that has ended by itself is a `message_batcher` that has returned.
-/

namespace DiscogsIngestion.Pipeline

variable {α : Type} {cfg : Config α} {records : List α} {s s' : State α} {a : Action} {c : BatcherConfig}
  {b : BatcherState α} {turns : List (Turn α)}

/-! ## The loop and the log -/

def Config.batcherConfig (cfg : Config α) (dataType : DataType) (fileName : String) : BatcherConfig where
  batchSize := cfg.batchSize
  dataType := dataType
  fileName := fileName
  stateSaveInterval := cfg.stateSaveInterval

/-- The calls of `update_file_progress` that the log of the pipeline shows. -/
def Event.progress : Event α → Option (Nat × Nat)
  | .progressUpdated records batches => some (records, batches)
  | _ => none

/-- The batch that `publish_batch` has been called with. -/
def Event.taken : Event α → Option (List α)
  | .published batch _ => some batch
  | _ => none

/-- The batches that the publisher has been given, whatever has become of them. -/
def State.handed (s : State α) : List (List α) := s.log.filterMap Event.taken ++ s.publishing.toList ++ s.batchChan

/-- The loop after these turns, with a downstream that is there. -/
def looped (c : BatcherConfig) (turns : List (Turn α)) : Except (BatcherState α) (BatcherState α) :=
  turns.foldlM (BatcherState.turn c fun _ => true) (.init 0)

theorem looped_concat (h : looped c turns = .ok b) (t : Turn α) :
    looped c (turns ++ [t]) = b.turn c (fun _ => true) t := by
  unfold looped at h ⊢
  rw [List.foldlM_append, h]
  exact bind_pure (b.turn c (fun _ => true) t)

/-- The state after a batch has been handed over. -/
def BatcherState.sent (b : BatcherState α) : BatcherState α :=
  { b.effect (.sent b.batch) with batch := [], totalBatches := b.totalBatches + 1 }

theorem messageBatcher_of_close {b' : BatcherState α} (h : looped c turns = .ok b)
    (hclose : b.close (fun _ => true) = .ok b') :
    messageBatcher c (fun _ => true) 0 turns = .ok (b'.checkpoint c) := by
  unfold messageBatcher
  rw [show turns.foldlM _ _ = _ from h]
  simp [bind, Except.bind, hclose, pure, Except.pure]

/-- The loop has the counters of the batcher and the calls in the log behind it. -/
structure Follows (s : State α) (b : BatcherState α) : Prop where
  totalRecords : s.totalRecords = b.totalRecords
  totalBatches : s.totalBatches = b.totalBatches
  progress : s.log.filterMap Event.progress = (progressIn b.effects).map fun call => (call.2.1, call.2.2.2)
  handed : s.handed = sentIn b.effects
  saved : b.lastStateSave ≤ b.totalRecords

theorem push_progress (hsaved : b.lastStateSave ≤ b.totalRecords) (m : α) :
    progressIn (b.push c m).effects = progressIn b.effects ++
      if c.stateSaveInterval ∣ b.totalRecords + 1 then
        [(c.fileName, b.totalRecords + 1, b.totalRecords + 1, b.totalBatches)] else [] := by
  by_cases hdvd : c.stateSaveInterval ∣ b.totalRecords + 1
  · have hdue : c.stateSaveInterval ∣ b.totalRecords + 1 ∧ b.totalRecords + 1 ≠ b.lastStateSave :=
      ⟨hdvd, by omega⟩
    rw [if_pos hdvd, show b.push c m = _ from if_pos hdue]
    show progressIn (b.effects ++ [.counted _] ++ [.progressUpdated _ _ _ _] ++ [.saved]) = _
    rw [List.append_assoc, List.append_assoc, progressIn_append]
    rfl
  · rw [if_neg hdvd, show b.push c m = _ from if_neg fun hdue => hdvd hdue.1]
    exact progressIn_append _ _

theorem takenEvents_taken (saved : Bool) : (takenEvents cfg s saved).filterMap Event.taken = [] := by
  unfold takenEvents
  split_ifs <;> rfl

theorem batcherTake_totalBatches (m : α) (saved : Bool) :
    (batcherTake cfg s m saved).totalBatches = s.totalBatches := by
  unfold batcherTake State.checkpoint State.record
  dsimp only
  split_ifs <;> rfl

theorem Follows.take (h : Follows s b) (dataType : DataType) (fileName : String) (m : α) (saved : Bool) :
    Follows (batcherTake cfg s m saved) (b.push (cfg.batcherConfig dataType fileName) m) := by
  obtain ⟨-, -, -, -, -, hchan, hpublishing, -, -⟩ := @batcherTake_frame _ cfg s m saved
  refine ⟨?_, ?_, ?_, ?_, ?_⟩
  · rw [batcherTake_totalRecords, push_totalRecords, h.totalRecords]
  · rw [push_totalBatches, ← h.totalBatches, batcherTake_totalBatches]
  · rw [batcherTake_takenEvents, List.filterMap_append, h.progress, push_progress h.saved, List.map_append,
      takenEvents, h.totalRecords, h.totalBatches]
    congr 1
    by_cases hdvd : (cfg.batcherConfig dataType fileName).stateSaveInterval ∣ b.totalRecords + 1
    · have hmod : (b.totalRecords + 1) % cfg.stateSaveInterval = 0 := Nat.mod_eq_zero_of_dvd hdvd
      rw [if_pos hdvd, if_pos hmod]
      rfl
    · have hmod : (b.totalRecords + 1) % cfg.stateSaveInterval ≠ 0 := fun h => hdvd (Nat.dvd_of_mod_eq_zero h)
      rw [if_neg hdvd, if_neg hmod]
      rfl
  · rw [sentIn_push, ← h.handed]
    unfold State.handed
    rw [batcherTake_takenEvents, List.filterMap_append, takenEvents_taken, List.append_nil, hchan, hpublishing]
  · rw [push_totalRecords]
    exact push_lastStateSave_le h.saved m

theorem Follows.keep (h : Follows s b) (hrecords : s'.totalRecords = s.totalRecords)
    (hbatches : s'.totalBatches = s.totalBatches)
    (hprogress : s'.log.filterMap Event.progress = s.log.filterMap Event.progress) (hhanded : s'.handed = s.handed) :
    Follows s' b :=
  ⟨hrecords.trans h.totalRecords, hbatches.trans h.totalBatches, hprogress.trans h.progress,
    hhanded.trans h.handed, h.saved⟩

theorem Follows.send (h : Follows s b) (hbatch : s'.batchChan = s.batchChan ++ [b.batch])
    (hpublishing : s'.publishing = s.publishing) (hlog : s'.log = s.log) (hrecords : s'.totalRecords = s.totalRecords)
    (hbatches : s'.totalBatches = s.totalBatches + 1) : Follows s' b.sent where
  totalRecords := hrecords.trans h.totalRecords
  totalBatches := by rw [hbatches, h.totalBatches]; rfl
  progress := by
    show _ = (progressIn (b.effects ++ [.sent b.batch])).map _
    rw [hlog, h.progress, progressIn_append]
    simp [progressIn, Effect.progress]
  handed := by
    show _ = sentIn (b.effects ++ [.sent b.batch])
    rw [sentIn_append, ← h.handed]
    unfold State.handed
    rw [hbatch, hpublishing, hlog, ← List.append_assoc]
    rfl
  saved := h.saved

theorem Follows.checkpoint (h : Follows s b) (saved : Bool) :
    Follows ((s.checkpoint saved).setStatus cfg.batcher .drained) (b.checkpoint c) where
  totalRecords := h.totalRecords
  totalBatches := h.totalBatches
  progress := by
    show (s.log ++ [_] ++ [_]).filterMap Event.progress = (progressIn (b.effects ++ [_] ++ [_])).map _
    rw [List.append_assoc, List.append_assoc, List.filterMap_append, progressIn_append, List.map_append, h.progress,
      h.totalRecords, h.totalBatches]
    rfl
  handed := by
    rw [sentIn_checkpoint, ← h.handed]
    unfold State.handed
    show (s.log ++ [_] ++ [_]).filterMap Event.taken ++ _ ++ _ = _
    rw [List.append_assoc s.log, List.filterMap_append]
    show s.log.filterMap Event.taken ++ [] ++ s.publishing.toList ++ s.batchChan = _
    rw [List.append_nil]
  saved := h.saved

/-! ## Where in the loop the batcher is -/

/-- Between two turns, in the middle of one that is to end with a batch, or behind the last one, where a batch may be
left. -/
inductive InLoop (c : BatcherConfig) (s : State α) (turns : List (Turn α)) : Prop where
  | top {b : BatcherState α} : looped c turns = .ok b → Follows s b → s.inputEnded = false → s.sending = none →
      s.batch = b.batch → InLoop c s turns
  | flushing {b₀ b : BatcherState α} {t : Turn α} : looped c turns = .ok b₀ →
      b₀.turn c (fun _ => true) t = b.flush (fun _ => true) t.flushed → Follows s b → s.inputEnded = false →
      s.sending = some b.batch → s.batch = [] → InLoop c s turns
  | closing {b : BatcherState α} : looped c turns = .ok b → b.batch ≠ [] → Follows s b → s.inputEnded = true →
      s.sending = some b.batch → InLoop c s turns
  | closed {b b' : BatcherState α} : looped c turns = .ok b → b.close (fun _ => true) = .ok b' → Follows s b' →
      s.inputEnded = true → s.sending = none → InLoop c s turns

/-- A batcher that runs is in its loop, and one that has ended by itself has returned from it. -/
structure Looping (cfg : Config α) (c : BatcherConfig) (s : State α) : Prop where
  running : s.status cfg.batcher = .running → ∃ turns, InLoop c s turns
  drained : s.status cfg.batcher = .drained →
    ∃ turns b, messageBatcher c (fun _ => true) 0 turns = .ok b ∧ Follows s b

theorem InLoop.keep (h : InLoop c s turns) (hrecords : s'.totalRecords = s.totalRecords)
    (hbatches : s'.totalBatches = s.totalBatches)
    (hprogress : s'.log.filterMap Event.progress = s.log.filterMap Event.progress) (hhanded : s'.handed = s.handed)
    (hended : s'.inputEnded = s.inputEnded) (hsending : s'.sending = s.sending) (hbatch : s'.batch = s.batch) :
    InLoop c s' turns := by
  cases h with
  | top hloop hfollows he hs hb =>
    exact .top hloop (hfollows.keep hrecords hbatches hprogress hhanded) (hended.trans he) (hsending.trans hs)
      (hbatch.trans hb)
  | flushing hloop hturn hfollows he hs hb =>
    exact .flushing hloop hturn (hfollows.keep hrecords hbatches hprogress hhanded) (hended.trans he)
      (hsending.trans hs) (hbatch.trans hb)
  | closing hloop hne hfollows he hs =>
    exact .closing hloop hne (hfollows.keep hrecords hbatches hprogress hhanded) (hended.trans he) (hsending.trans hs)
  | closed hloop hclose hfollows he hs =>
    exact .closed hloop hclose (hfollows.keep hrecords hbatches hprogress hhanded) (hended.trans he)
      (hsending.trans hs)

/-- What the other tasks and the call do is no part of the loop. -/
theorem Looping.keep (h : Looping cfg c s) (hstep : step cfg s a = some s')
    (hstatus : s'.status cfg.batcher = s.status cfg.batcher ∨
      s'.status cfg.batcher ≠ .running ∧ s'.status cfg.batcher ≠ .drained)
    (hrecords : s'.totalRecords = s.totalRecords) (hbatches : s'.totalBatches = s.totalBatches)
    (hprogress : s'.log.filterMap Event.progress = s.log.filterMap Event.progress) (hhanded : s'.handed = s.handed)
    (hended : s'.inputEnded = s.inputEnded) (hsending : s'.sending = s.sending) (hbatch : s'.batch = s.batch) :
    Looping cfg c s' where
  running hrun := by
    obtain ⟨turns, hturns⟩ := h.running (running_of_step hstep hrun)
    exact ⟨turns, hturns.keep hrecords hbatches hprogress hhanded hended hsending hbatch⟩
  drained hdone := by
    obtain ⟨turns, b, hreturned, hfollows⟩ := h.drained (by
      rcases hstatus with heq | ⟨-, hno⟩
      · rw [← heq, hdone]
      · exact absurd hdone hno)
    exact ⟨turns, b, hreturned, hfollows.keep hrecords hbatches hprogress hhanded⟩

/-! ## Steps -/

section Step

variable {dataType : DataType} {fileName : String}

/-- A record that is received begins a turn, which ends with it unless it fills the batch. -/
theorem InLoop.receive (h : InLoop (cfg.batcherConfig dataType fileName) s turns) (hsending : s.sending = none)
    (hended : s.inputEnded = false) {m : α} {rest : List α} (saved : Bool) :
    ∃ turns, InLoop (cfg.batcherConfig dataType fileName) (batcherTake cfg (s.setChan cfg.n rest) m saved) turns := by
  cases h with
  | @top b hloop hfollows _ _ hbatch =>
    have hset : Follows (s.setChan cfg.n rest) b := hfollows.keep rfl rfl rfl rfl
    have htake : Follows (batcherTake cfg (s.setChan cfg.n rest) m saved)
        (b.push (cfg.batcherConfig dataType fileName) m) := hset.take dataType fileName m saved
    have hbuffer : (s.setChan cfg.n rest).batch = b.batch := hbatch
    have hlength : (b.push (cfg.batcherConfig dataType fileName) m).batch.length = b.batch.length + 1 := by
      rw [push_batch, List.length_append, List.length_singleton]
    have hmore : (batcherTake cfg (s.setChan cfg.n rest) m saved).inputEnded = false := by
      rw [(batcherTake_frame ..).2.2.2.2.2.2.2.2]
      exact hended
    obtain ⟨hnone, hnew, hlt⟩ | ⟨hsome, hnew, hfull⟩ :=
      @batcherTake_batch _ cfg (s.setChan cfg.n rest) hsending m saved
    · have hturn : b.turn (cfg.batcherConfig dataType fileName) (fun _ => true) ⟨some m, 0, 0⟩ =
          .ok (b.push (cfg.batcherConfig dataType fileName) m) := by
        unfold BatcherState.turn
        dsimp only
        rw [if_neg]
        rw [hlength, ← hbuffer]
        exact Nat.not_le.2 hlt
      refine ⟨turns ++ [⟨some m, 0, 0⟩], .top ((looped_concat hloop _).trans hturn) htake hmore hnone ?_⟩
      rw [hnew, hbuffer, push_batch]
    · have hturn : b.turn (cfg.batcherConfig dataType fileName) (fun _ => true) ⟨some m, 0, 0⟩ =
          (b.push (cfg.batcherConfig dataType fileName) m).flush (fun _ => true) 0 := by
        unfold BatcherState.turn
        dsimp only
        rw [if_pos]
        rw [hlength, ← hbuffer]
        exact hfull
      refine ⟨turns, .flushing hloop hturn htake hmore ?_ hnew⟩
      rw [hsome, hbuffer, push_batch]
  | flushing _ _ _ _ hsome => exact nomatch hsending.symm.trans hsome
  | closing _ _ _ hend => exact nomatch hended.symm.trans hend
  | closed _ _ _ hend => exact nomatch hended.symm.trans hend

/-- A timeout that is late enough begins a turn. -/
theorem InLoop.late (h : InLoop c s turns) (hsending : s.sending = none) (hended : s.inputEnded = false)
    (hne : s.batch ≠ []) : InLoop c { s with sending := some s.batch, batch := [] } turns := by
  cases h with
  | @top b hloop hfollows _ _ hbatch =>
    have hturn : b.turn c (fun _ => true) ⟨none, b.lastFlush + flushAfter + 1, 0⟩ = b.flush (fun _ => true) 0 := by
      have hlate : flushAfter < b.lastFlush + flushAfter + 1 - b.lastFlush := by omega
      unfold BatcherState.turn
      dsimp only
      rw [if_pos ⟨hbatch ▸ hne, hlate⟩]
    exact .flushing hloop hturn (hfollows.keep rfl rfl rfl rfl) hended (congrArg some hbatch) rfl
  | flushing _ _ _ _ hsome => exact nomatch hsending.symm.trans hsome
  | closing _ _ _ hend => exact nomatch hended.symm.trans hend
  | closed _ _ _ hend => exact nomatch hended.symm.trans hend

/-- Behind the last turn the rest of the batch is left. -/
theorem InLoop.finish (h : InLoop c s turns) (hsending : s.sending = none) (hended : s.inputEnded = false) :
    InLoop c { s with
      inputEnded := true
      sending := if s.batch.isEmpty then none else some s.batch
      batch := [] } turns := by
  cases h with
  | @top b hloop hfollows _ _ hbatch =>
    by_cases hempty : b.batch = []
    · have hclose : b.close (fun _ => true) = .ok b := if_neg (not_not.2 hempty)
      refine .closed hloop hclose (hfollows.keep rfl rfl rfl rfl) rfl ?_
      simp [hbatch, hempty]
    · refine .closing hloop hempty (hfollows.keep rfl rfl rfl rfl) rfl ?_
      simp [hbatch, hempty]
  | flushing _ _ _ _ hsome => exact nomatch hsending.symm.trans hsome
  | closing _ _ _ hend => exact nomatch hended.symm.trans hend
  | closed _ _ _ hend => exact nomatch hended.symm.trans hend

/-- A batch that is handed over ends the turn, or the loop. -/
theorem InLoop.send (h : InLoop c s turns) {batch : List α} (hsending : s.sending = some batch) :
    ∃ turns, InLoop c { s with
      sending := none
      batchChan := s.batchChan ++ [batch]
      totalBatches := s.totalBatches + 1 } turns := by
  cases h with
  | top _ _ _ hnone => exact nomatch hnone.symm.trans hsending
  | @flushing b₀ b t hloop hturn hfollows hended hsome hbatch =>
    obtain rfl := Option.some.inj (hsome.symm.trans hsending)
    have hflush : b.flush (fun _ => true) t.flushed = .ok { b.sent with lastFlush := t.flushed } := rfl
    have hsent : Follows { s with
        sending := none
        batchChan := s.batchChan ++ [b.batch]
        totalBatches := s.totalBatches + 1 } b.sent := hfollows.send rfl rfl rfl rfl rfl
    refine ⟨turns ++ [t], .top ((looped_concat hloop t).trans (hturn.trans hflush)) ?_ hended rfl hbatch⟩
    exact ⟨hsent.totalRecords, hsent.totalBatches, hsent.progress, hsent.handed, hsent.saved⟩
  | @closing b hloop hne hfollows hended hsome =>
    obtain rfl := Option.some.inj (hsome.symm.trans hsending)
    have hclose : b.close (fun _ => true) = .ok b.sent := if_pos hne
    exact ⟨turns, .closed hloop hclose (hfollows.send rfl rfl rfl rfl rfl) hended rfl⟩
  | closed _ _ _ _ hnone => exact nomatch hnone.symm.trans hsending

variable (dataType fileName) in
/-- Each step of the batcher is a part of a turn, and no other step has a part in it. -/
theorem looping_step (h : Looping cfg (cfg.batcherConfig dataType fileName) s) (hstep : step cfg s a = some s') :
    Looping cfg (cfg.batcherConfig dataType fileName) s' := by
  have hrunning : ∀ {s'' : State α}, s''.status = s.status → s.status cfg.batcher = .running →
      (∃ turns, InLoop (cfg.batcherConfig dataType fileName) s'' turns) →
        Looping cfg (cfg.batcherConfig dataType fileName) s'' := by
    intro s'' hstatus hrun hturns
    refine ⟨fun _ => hturns, fun hdone => ?_⟩
    rw [hstatus, hrun] at hdone
    exact nomatch hdone
  have hpublisher : cfg.publisher ≠ cfg.batcher := Nat.succ_ne_self _
  have hends : ∀ {k : Nat} {t : Status}, k ≠ cfg.batcher ∨ t ≠ .running ∧ t ≠ .drained →
      step cfg s a = some (s.setStatus k t) → Looping cfg (cfg.batcherConfig dataType fileName) (s.setStatus k t) := by
    intro k t hk hstep
    refine h.keep hstep ?_ rfl rfl rfl rfl rfl rfl rfl
    by_cases heq : k = cfg.batcher
    · subst heq
      have hstatus : (s.setStatus cfg.batcher t).status cfg.batcher = t := Function.update_self ..
      rw [hstatus]
      exact .inr (hk.resolve_left fun hne => hne rfl)
    · exact .inl (Function.update_of_ne (Ne.symm heq) ..)
  cases Step.of_step hstep with
  | @batcherReceive m rest saved _ hrun hsending hended =>
    obtain ⟨turns, hturns⟩ := h.running hrun
    exact hrunning (batcherTake_frame ..).1 hrun (hturns.receive hsending hended saved)
  | batcherFlush hrun hsending hended =>
    obtain ⟨turns, hturns⟩ := h.running hrun
    have hne : s.batch ≠ [] := List.length_pos_iff.1 (batch_of_flush hstep)
    exact hrunning rfl hrun ⟨turns, hturns.late hsending hended hne⟩
  | batcherEnd hrun hsending hended =>
    obtain ⟨turns, hturns⟩ := h.running hrun
    exact hrunning rfl hrun ⟨turns, hturns.finish hsending hended⟩
  | batcherSend hsending hrun =>
    obtain ⟨turns, hturns⟩ := h.running hrun
    exact hrunning rfl hrun (hturns.send hsending)
  | batcherFinish saved hrun hsending hended =>
    obtain ⟨turns, hturns⟩ := h.running hrun
    have hstatus : (s.setStatus cfg.batcher .drained).status cfg.batcher = .drained := Function.update_self ..
    refine ⟨fun hno => absurd (hno.symm.trans hstatus) nofun, fun _ => ?_⟩
    cases hturns with
    | closed hloop hclose hfollows => exact ⟨turns, _, messageBatcher_of_close hloop hclose, hfollows.checkpoint saved⟩
    | top _ _ hno => exact nomatch hended.symm.trans hno
    | flushing _ _ _ hno => exact nomatch hended.symm.trans hno
    | closing _ _ _ _ hno => exact nomatch hsending.symm.trans hno
  | parserCut => exact hends (.inl (Nat.succ_ne_zero _).symm) hstep
  | parserEof => exact hends (.inl (Nat.succ_ne_zero _).symm) hstep
  | cutOff hk => exact hends (.inl (by rw [cfg.batcher_eq]; omega)) hstep
  | drain hk => exact hends (.inl (by rw [cfg.batcher_eq]; omega)) hstep
  | batcherRefused => exact hends (.inr ⟨nofun, nofun⟩) hstep
  | publisherDrain => exact hends (.inl hpublisher) hstep
  | fail => exact hends (.inr ⟨nofun, nofun⟩) hstep
  | panic => exact hends (.inr ⟨nofun, nofun⟩) hstep
  | publisherTake hchan _ hnone =>
    refine h.keep hstep (.inl rfl) rfl rfl ?_ ?_ rfl rfl rfl
    · exact List.filterMap_append.trans (List.append_nil _)
    · unfold State.handed
      rw [hchan, hnone]
      simp [State.record, Event.taken]
  | publisherSettled hsome =>
    refine h.keep hstep (.inl rfl) rfl rfl ?_ ?_ rfl rfl rfl
    · exact List.filterMap_append.trans (List.append_nil _)
    · unfold State.handed
      rw [hsome]
      simp [State.record, Event.taken]
  | publisherFailed hsome =>
    refine h.keep hstep (.inl (Function.update_of_ne hpublisher.symm ..)) rfl rfl ?_ ?_ rfl rfl rfl
    · exact List.filterMap_append.trans (List.append_nil _)
    · unfold State.handed
      rw [hsome]
      simp [State.record, State.setStatus, Event.taken]
  | parserSend => exact h.keep hstep (.inl rfl) rfl rfl rfl rfl rfl rfl rfl
  | receive => exact h.keep hstep (.inl rfl) rfl rfl rfl rfl rfl rfl rfl
  | forward => exact h.keep hstep (.inl rfl) rfl rfl rfl rfl rfl rfl rfl
  | _ =>
    -- the call only adds events to the log that are neither progress nor batches
    refine h.keep hstep (.inl rfl) rfl rfl ?_ ?_ rfl rfl rfl
    · simp [State.record, Event.progress]
    · simp [State.handed, State.record, Event.taken]

end Step

/-! ## Runs -/

theorem looping_init : Looping cfg c (State.init cfg records) where
  running _ := ⟨[], .top rfl ⟨rfl, rfl, rfl, rfl, le_rfl⟩ rfl rfl rfl⟩
  drained h := nomatch h

theorem looping_of_reachable (h : Reachable cfg records s) (dataType : DataType) (fileName : String) :
    Looping cfg (cfg.batcherConfig dataType fileName) s :=
  h.invariant looping_init fun _ _ _ hI _ hs => looping_step dataType fileName hI hs

/-- When the batcher has ended by itself, the publisher has been given the batches of a run of `message_batcher` that
returns `Ok`: all that it has received, in order, in batches that are not too long, and the last progress counts it. -/
theorem messageBatcher_of_drained (h : Reachable cfg records s) (hdone : s.status cfg.batcher = .drained)
    (dataType : DataType) (fileName : String) :
    ∃ turns b, messageBatcher (cfg.batcherConfig dataType fileName) (fun _ => true) 0 turns = .ok b ∧
      s.handed = sentIn b.effects ∧ s.handed.flatten = messagesIn turns ∧
      (∀ batch ∈ s.handed, 1 ≤ batch.length ∧ batch.length ≤ cfg.batchSize) ∧
      (s.log.filterMap Event.progress).getLast? = some (s.handed.flatten.length, s.handed.length) := by
  obtain ⟨turns, b, hreturned, hfollows⟩ := (looping_of_reachable h dataType fileName).drained hdone
  have hbatched : Batched (cfg.batcherConfig dataType fileName) (messagesIn turns) b.effects := by
    obtain ⟨b', hok, hbatched, -⟩ | ⟨b', herror, -⟩ :=
      @messageBatcher_cases _ (cfg.batcherConfig dataType fileName) cfg.batchSize_pos (fun _ => true) 0 turns
    · exact Except.ok.inj (hok.symm.trans hreturned) ▸ hbatched
    · exact nomatch herror.symm.trans hreturned
  refine ⟨turns, b, hreturned, hfollows.handed, ?_, ?_, ?_⟩
  · rw [hfollows.handed, hbatched.order]
  · rw [hfollows.handed]
    exact hbatched.sizes
  · rw [hfollows.progress, List.getLast?_map, hbatched.progress, hfollows.handed, hbatched.order]
    rfl

end DiscogsIngestion.Pipeline
