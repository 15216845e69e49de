import DiscogsIngestion.Pipeline.Machine

/-!
# What a step of the pipeline can do

* `Step` : the enabled steps, one constructor for each action, with their guards as propositions;
* `Step.of_step` : every step of the machine is one of them;
* `Ends`, `step_status` : a step leaves all statuses as they are or ends one running stage;
* `step_todo`, `step_held`, … : what belongs to an ended stage stays as it is;
* `Main.Knows` : what the call has found out about its stages.
-/

namespace DiscogsIngestion.Pipeline

variable {α : Type} {cfg : Config α} {records : List α} {s s' : State α} {a : Action}

/-! ## Statuses and updates -/

@[simp] theorem Status.ended_iff (t : Status) : t.ended = true ↔ t ≠ .running := by simp [Status.ended]

@[simp] theorem Status.ok_iff (t : Status) : t.ok = true ↔ t = .drained ∨ t = .cut := by simp [Status.ok]

theorem Config.batcher_eq (cfg : Config α) : cfg.batcher = cfg.n + 1 := rfl

theorem Config.publisher_eq (cfg : Config α) : cfg.publisher = cfg.n + 2 := rfl

theorem State.accepts_iff (k : Nat) :
    s.accepts cfg k = true ↔ s.status (k + 1) = .running ∧ (s.chan k).length < cfg.queueSize := by
  simp [State.accepts]

/-! ## Inversion -/

inductive Step (cfg : Config α) (s : State α) : Action → State α → Prop where
  | parserSend {m : α} {rest : List α} : s.todo = m :: rest → s.status 0 = .running → s.status 1 = .running →
      Step cfg s .parserSend
        { (s.setChan 0 (s.chan 0 ++ [m])) with todo := rest, recordCount := s.recordCount + 1 }
  | parserCut : s.status 0 = .running → s.status 1 ≠ .running → Step cfg s .parserCut (s.setStatus 0 .cut)
  | parserEof : s.status 0 = .running → s.todo = [] → Step cfg s .parserEof (s.setStatus 0 .drained)
  | receive {k : Nat} {m : α} {rest : List α} : k < cfg.n → s.status (k + 1) = .running → s.chan k = m :: rest →
      s.held (k + 1) = none →
      Step cfg s (.receive (k + 1)) ((s.setChan k rest).setHeld (k + 1) (cfg.transform (k + 1) m))
  | forward {k : Nat} {m : α} : k < cfg.n → s.status (k + 1) = .running → s.status (k + 2) = .running →
      s.held (k + 1) = some m →
      Step cfg s (.forward (k + 1)) ((s.setHeld (k + 1) none).setChan (k + 1) (s.chan (k + 1) ++ [m]))
  | cutOff {k : Nat} : k < cfg.n → s.status (k + 1) = .running → s.status (k + 2) ≠ .running →
      Step cfg s (.cutOff (k + 1)) (s.setStatus (k + 1) .cut)
  | drain {k : Nat} : k < cfg.n → s.status (k + 1) = .running → s.held (k + 1) = none → s.chan k = [] →
      s.status k ≠ .running → Step cfg s (.drain (k + 1)) (s.setStatus (k + 1) .drained)
  | batcherReceive {m : α} {rest : List α} (saved : Bool) : s.chan cfg.n = m :: rest →
      s.status cfg.batcher = .running → s.sending = none → s.inputEnded = false →
      Step cfg s (.batcherReceive saved) (batcherTake cfg (s.setChan cfg.n rest) m saved)
  | batcherFlush : s.status cfg.batcher = .running → s.sending = none → s.inputEnded = false →
      Step cfg s .batcherFlush { s with sending := some s.batch, batch := [] }
  | batcherEnd : s.status cfg.batcher = .running → s.sending = none → s.inputEnded = false →
      s.chan cfg.n = [] → s.status cfg.n ≠ .running →
      Step cfg s .batcherEnd { s with
        inputEnded := true
        sending := if s.batch.isEmpty then none else some s.batch
        batch := [] }
  | batcherSend {batch : List α} : s.sending = some batch → s.status cfg.batcher = .running →
      s.status cfg.publisher = .running →
      Step cfg s .batcherSend { s with
        sending := none
        batchChan := s.batchChan ++ [batch]
        totalBatches := s.totalBatches + 1 }
  | batcherRefused : s.status cfg.batcher = .running → s.status cfg.publisher ≠ .running →
      Step cfg s .batcherRefused (s.setStatus cfg.batcher .err)
  | batcherFinish (saved : Bool) : s.status cfg.batcher = .running → s.sending = none → s.inputEnded = true →
      Step cfg s (.batcherFinish saved) ((s.checkpoint saved).setStatus cfg.batcher .drained)
  | publisherTake {batch : List α} {rest : List (List α)} : s.batchChan = batch :: rest →
      s.status cfg.publisher = .running → s.publishing = none →
      Step cfg s .publisherTake ({ s with batchChan := rest, publishing := some batch }.record .channelObtained)
  | publisherSettled {batch : List α} : s.publishing = some batch → s.status cfg.publisher = .running →
      Step cfg s (.publisherSettle true) ({ s with publishing := none }.record (.published batch true))
  | publisherFailed {batch : List α} : s.publishing = some batch → s.status cfg.publisher = .running →
      Step cfg s (.publisherSettle false)
        (({ s with publishing := none }.record (.published batch false)).setStatus cfg.publisher .err)
  | publisherDrain : s.status cfg.publisher = .running → s.publishing = none → s.batchChan = [] →
      s.status cfg.batcher ≠ .running → Step cfg s .publisherDrain (s.setStatus cfg.publisher .drained)
  | fail {k : Nat} : k ≤ cfg.publisher → s.status k = .running → Step cfg s (.fail k) (s.setStatus k .err)
  | panic {k : Nat} : k ≤ cfg.publisher → s.status k = .running → Step cfg s (.panic k) (s.setStatus k .panicked)
  | joinOk : s.main = .joining → (∀ k ≤ cfg.publisher, (s.status k).ok = true) →
      Step cfg s .join { s with main := .completing s.recordCount }
  | joinErr : s.main = .joining → (∀ k ≤ cfg.publisher, s.status k ≠ .running) →
      Step cfg s .join { s with main := .closing false }
  | joinPanic {k : Nat} : s.main = .joining → k ≤ cfg.publisher → s.status k = .panicked →
      Step cfg s (.joinPanic k) { s with main := .closing false }
  | awaitNext {k : Nat} : s.main = .awaiting k → k ≠ cfg.publisher → (s.status k).ok = true →
      Step cfg s .await { s with main := .awaiting (k + 1) }
  | awaitLast : s.main = .awaiting cfg.publisher → (s.status cfg.publisher).ok = true →
      Step cfg s .await { s with main := .completing s.recordCount }
  | awaitErr {k : Nat} : s.main = .awaiting k → s.status k = .err ∨ s.status k = .panicked →
      Step cfg s .await { s with main := .closing false }
  | fileCompleteSent {total : Nat} : s.main = .completing total →
      Step cfg s (.sendFileComplete true) { (s.record (.fileComplete total true)) with main := .marking total }
  | fileCompleteFailed {total : Nat} : s.main = .completing total →
      Step cfg s (.sendFileComplete false) { (s.record (.fileComplete total false)) with main := .closing false }
  | completeFile {total : Nat} (saved : Bool) : s.main = .marking total →
      Step cfg s (.completeFile saved)
        { ((s.record (.fileCompleted total)).record (.markerSaved saved)) with main := .closing saved }
  | close {ok : Bool} : s.main = .closing ok → Step cfg s .close { (s.record .closed) with main := .returning ok }
  | return {ok : Bool} : s.main = .returning ok →
      Step cfg s .return { (s.record (.returned ok)) with main := .returned ok }

theorem State.allEnded_iff : s.allEnded cfg = true ↔ ∀ k ≤ cfg.publisher, s.status k ≠ .running := by
  simp [State.allEnded, Config.publisher_eq, Nat.lt_succ_iff]

theorem State.allOk_iff : s.allOk cfg = true ↔ ∀ k ≤ cfg.publisher, (s.status k).ok = true := by
  simp [State.allOk, Config.publisher_eq, Nat.lt_succ_iff]

theorem Step.of_step (h : step cfg s a = some s') : Step cfg s a s' := by
  cases a with
  | parserSend =>
    cases htodo : s.todo with
    | nil => simp [step, htodo] at h
    | cons m rest =>
      obtain ⟨⟨h0, h1, -⟩, rfl⟩ : (s.status 0 = .running ∧ s.status 1 = .running ∧ _) ∧ _ = s' := by
        simpa [step, htodo, State.accepts] using h
      exact .parserSend htodo h0 h1
  | parserCut =>
    obtain ⟨⟨⟨h0, -⟩, h1⟩, rfl⟩ := by simpa [step] using h
    exact .parserCut h0 h1
  | parserEof =>
    obtain ⟨⟨h0, htodo⟩, rfl⟩ := by simpa [step] using h
    exact .parserEof h0 htodo
  | receive k =>
    cases hchan : s.chan (k - 1) with
    | nil => simp [step, hchan] at h
    | cons m rest =>
      obtain ⟨⟨⟨⟨hk, hn⟩, hrun⟩, hheld⟩, rfl⟩ := by simpa [step, hchan] using h
      obtain ⟨k, rfl⟩ := Nat.exists_eq_add_of_le' hk
      exact .receive hn hrun hchan hheld
  | forward k =>
    cases hheld : s.held k with
    | none => simp [step, hheld] at h
    | some m =>
      obtain ⟨⟨⟨⟨hk, hn⟩, hrun⟩, hacc⟩, rfl⟩ := by simpa [step, hheld] using h
      obtain ⟨k, rfl⟩ := Nat.exists_eq_add_of_le' hk
      exact .forward hn hrun (State.accepts_iff _ |>.1 hacc).1 hheld
  | cutOff k =>
    obtain ⟨⟨⟨⟨⟨hk, hn⟩, hrun⟩, -⟩, hnext⟩, rfl⟩ := by simpa [step] using h
    obtain ⟨k, rfl⟩ := Nat.exists_eq_add_of_le' hk
    exact .cutOff hn hrun hnext
  | drain k =>
    obtain ⟨⟨⟨⟨⟨⟨hk, hn⟩, hrun⟩, hheld⟩, hchan⟩, hprev⟩, rfl⟩ := by simpa [step] using h
    obtain ⟨k, rfl⟩ := Nat.exists_eq_add_of_le' hk
    exact .drain hn hrun hheld hchan hprev
  | batcherReceive saved =>
    cases hchan : s.chan cfg.n with
    | nil => simp [step, hchan] at h
    | cons m rest =>
      obtain ⟨⟨⟨hrun, hsend⟩, hend⟩, rfl⟩ := by simpa [step, hchan] using h
      exact .batcherReceive saved hchan hrun hsend hend
  | batcherFlush =>
    obtain ⟨⟨⟨⟨hrun, hsend⟩, hend⟩, -⟩, rfl⟩ := by simpa [step] using h
    exact .batcherFlush hrun hsend hend
  | batcherEnd =>
    obtain ⟨⟨⟨⟨⟨hrun, hsend⟩, hend⟩, hchan⟩, hprev⟩, rfl⟩ := by simpa [step] using h
    simpa using Step.batcherEnd hrun hsend hend hchan hprev
  | batcherSend =>
    cases hsend : s.sending with
    | none => simp [step, hsend] at h
    | some batch =>
      obtain ⟨⟨⟨hrun, hpub⟩, -⟩, rfl⟩ := by simpa [step, hsend] using h
      exact .batcherSend hsend hrun hpub
  | batcherRefused =>
    obtain ⟨⟨⟨hrun, -⟩, hpub⟩, rfl⟩ := by simpa [step] using h
    exact .batcherRefused hrun hpub
  | batcherFinish saved =>
    obtain ⟨⟨⟨hrun, hsend⟩, hend⟩, rfl⟩ := by simpa [step] using h
    exact .batcherFinish saved hrun hsend hend
  | publisherTake =>
    cases hchan : s.batchChan with
    | nil => simp [step, hchan] at h
    | cons batch rest =>
      obtain ⟨⟨hrun, hpub⟩, rfl⟩ := by simpa [step, hchan] using h
      exact .publisherTake hchan hrun hpub
  | publisherSettle ok =>
    cases hpub : s.publishing with
    | none => simp [step, hpub] at h
    | some batch =>
      cases ok with
      | true =>
        obtain ⟨hrun, rfl⟩ := by simpa [step, hpub] using h
        exact .publisherSettled hpub hrun
      | false =>
        obtain ⟨hrun, rfl⟩ := by simpa [step, hpub] using h
        exact .publisherFailed hpub hrun
  | publisherDrain =>
    obtain ⟨⟨⟨⟨hrun, hpub⟩, hchan⟩, hprev⟩, rfl⟩ := by simpa [step] using h
    exact .publisherDrain hrun hpub hchan hprev
  | fail k =>
    obtain ⟨⟨hk, hrun⟩, rfl⟩ := by simpa [step] using h
    exact .fail hk hrun
  | panic k =>
    obtain ⟨⟨hk, hrun⟩, rfl⟩ := by simpa [step] using h
    exact .panic hk hrun
  | join =>
    simp only [step, Option.ite_none_right_eq_some, Bool.and_eq_true, decide_eq_true_eq, Option.some.injEq,
      State.allEnded_iff] at h
    obtain ⟨⟨⟨hmain, hended⟩, -⟩, rfl⟩ := h
    by_cases hok : s.allOk cfg = true
    · simpa [hok] using Step.joinOk hmain (State.allOk_iff.1 hok)
    · simpa [hok] using Step.joinErr hmain hended
  | joinPanic k =>
    obtain ⟨⟨⟨hmain, hk⟩, hpanic⟩, rfl⟩ := by simpa [step] using h
    exact .joinPanic hmain hk hpanic
  | await =>
    cases hmain : s.main <;> simp only [step, hmain, reduceCtorEq] at h
    rename_i k
    rw [Option.ite_none_right_eq_some, Option.some.injEq] at h
    obtain ⟨hended, rfl⟩ := h
    by_cases hok : (s.status k).ok = true
    · by_cases hk : k = cfg.publisher
      · subst hk
        simpa only [hok, if_true] using Step.awaitLast hmain hok
      · simpa only [hok, hk, if_true, if_false] using Step.awaitNext hmain hk hok
    · have hbad : s.status k = .err ∨ s.status k = .panicked := by
        cases hst : s.status k <;> simp_all
      simpa only [hok, Bool.false_eq_true, if_false] using Step.awaitErr hmain hbad
  | sendFileComplete ok =>
    cases hmain : s.main <;> simp only [step, hmain, reduceCtorEq, Option.some.injEq] at h
    subst h
    cases ok with
    | true => exact .fileCompleteSent hmain
    | false => exact .fileCompleteFailed hmain
  | completeFile saved =>
    cases hmain : s.main <;> simp only [step, hmain, reduceCtorEq, Option.some.injEq] at h
    subst h
    exact .completeFile saved hmain
  | close =>
    cases hmain : s.main <;> simp only [step, hmain, reduceCtorEq, Option.some.injEq] at h
    subst h
    exact .close hmain
  | «return» =>
    cases hmain : s.main <;> simp only [step, hmain, reduceCtorEq, Option.some.injEq] at h
    subst h
    exact .return hmain

/-! ## Frames -/

/-- How a stage may have ended, and what holds from then on. -/
inductive Ends (cfg : Config α) (s : State α) : Nat → Status → Prop where
  | parser : s.todo = [] → Ends cfg s 0 .drained
  | transform {k : Nat} : k < cfg.n → s.held (k + 1) = none → s.chan k = [] → s.status k ≠ .running →
      Ends cfg s (k + 1) .drained
  | batcher : s.inputEnded = true → s.sending = none → Ends cfg s cfg.batcher .drained
  | publisher : s.publishing = none → s.batchChan = [] → s.status cfg.batcher ≠ .running →
      Ends cfg s cfg.publisher .drained
  | cut {k : Nat} : k ≤ cfg.n → s.status (k + 1) ≠ .running → Ends cfg s k .cut
  | err {k : Nat} : k ≤ cfg.publisher → Ends cfg s k .err
  | panicked {k : Nat} : k ≤ cfg.publisher → Ends cfg s k .panicked

/-- The stage ahead of a drained one has ended. -/
theorem Ends.ahead {k : Nat} (h : Ends cfg s (k + 1) .drained)
    (hend : s.inputEnded = true → s.status cfg.n ≠ .running) : s.status k ≠ .running := by
  generalize hj : k + 1 = j at h
  cases h with
  | parser => omega
  | transform _ _ _ hprev => rwa [Nat.succ.inj hj]
  | batcher he => rw [Nat.succ.inj hj]; exact hend he
  | publisher _ _ hprev => rwa [Nat.succ.inj hj]

theorem Ends.todo (h : Ends cfg s 0 .drained) : s.todo = [] := by
  generalize hj : 0 = j at h
  cases h with
  | parser htodo => exact htodo
  | transform => omega
  | batcher => exact absurd hj (Nat.succ_ne_zero _).symm
  | publisher => exact absurd hj (Nat.succ_ne_zero _).symm

theorem Ends.held_chan {k : Nat} (h : Ends cfg s (k + 1) .drained) (hk : k < cfg.n) :
    s.held (k + 1) = none ∧ s.chan k = [] := by
  generalize hj : k + 1 = j at h
  cases h with
  | parser => omega
  | transform _ hheld hchan =>
    obtain rfl := Nat.succ.inj hj
    exact ⟨hheld, hchan⟩
  | batcher => rw [Config.batcher_eq] at hj; omega
  | publisher => rw [Config.publisher_eq] at hj; omega

theorem Ends.sending (h : Ends cfg s cfg.batcher .drained) : s.inputEnded = true ∧ s.sending = none := by
  generalize hj : cfg.batcher = j at h
  rw [Config.batcher_eq] at hj
  cases h with
  | parser => omega
  | transform => omega
  | batcher hend hsend => exact ⟨hend, hsend⟩
  | publisher => rw [Config.publisher_eq] at hj; omega

theorem Ends.batchChan (h : Ends cfg s cfg.publisher .drained) : s.publishing = none ∧ s.batchChan = [] := by
  generalize hj : cfg.publisher = j at h
  rw [Config.publisher_eq] at hj
  cases h with
  | parser => omega
  | transform => omega
  | batcher => rw [Config.batcher_eq] at hj; omega
  | publisher hpub hchan => exact ⟨hpub, hchan⟩

theorem setStatus_of_ne {j k : Nat} {t : Status} (hjk : j ≠ k) (hj : s.status j ≠ .running) :
    (s.setStatus k t).status j ≠ .running := by
  simpa [State.setStatus, Function.update_of_ne hjk] using hj

theorem batcherTake_frame (m : α) (saved : Bool) :
    (batcherTake cfg s m saved).status = s.status ∧ (batcherTake cfg s m saved).todo = s.todo ∧
      (batcherTake cfg s m saved).recordCount = s.recordCount ∧ (batcherTake cfg s m saved).chan = s.chan ∧
      (batcherTake cfg s m saved).held = s.held ∧ (batcherTake cfg s m saved).batchChan = s.batchChan ∧
      (batcherTake cfg s m saved).publishing = s.publishing ∧ (batcherTake cfg s m saved).main = s.main ∧
      (batcherTake cfg s m saved).inputEnded = s.inputEnded := by
  simp only [batcherTake, State.checkpoint, State.record]
  split <;> split <;> simp

theorem step_status (h : step cfg s a = some s') :
    s'.status = s.status ∨
      ∃ k t, s.status k = .running ∧ s'.status = Function.update s.status k t ∧ Ends cfg s' k t := by
  cases Step.of_step h with
  | parserCut h0 h1 => exact .inr ⟨0, .cut, h0, rfl, .cut (Nat.zero_le _) (setStatus_of_ne (by omega) h1)⟩
  | parserEof h0 htodo => exact .inr ⟨0, .drained, h0, rfl, .parser htodo⟩
  | @cutOff k hn hrun hnext =>
    exact .inr ⟨k + 1, .cut, hrun, rfl, .cut hn (setStatus_of_ne (by omega) hnext)⟩
  | @drain k hn hrun hheld hchan hprev =>
    exact .inr ⟨k + 1, .drained, hrun, rfl, .transform hn hheld hchan (setStatus_of_ne (by omega) hprev)⟩
  | batcherRefused hrun _ => exact .inr ⟨cfg.batcher, .err, hrun, rfl, .err (Nat.le_succ _)⟩
  | batcherFinish _ hrun hsend hend => exact .inr ⟨cfg.batcher, .drained, hrun, rfl, .batcher hend hsend⟩
  | publisherFailed _ hrun => exact .inr ⟨cfg.publisher, .err, hrun, rfl, .err le_rfl⟩
  | publisherDrain hrun hpub hchan hprev =>
    exact .inr ⟨cfg.publisher, .drained, hrun, rfl,
      .publisher hpub hchan (setStatus_of_ne (Nat.ne_of_lt (Nat.lt_succ_self _)) hprev)⟩
  | @fail k hk hrun => exact .inr ⟨k, .err, hrun, rfl, .err hk⟩
  | @panic k hk hrun => exact .inr ⟨k, .panicked, hrun, rfl, .panicked hk⟩
  | batcherReceive => exact .inl (batcherTake_frame ..).1
  | _ => exact .inl rfl

theorem step_status_of_ended {k : Nat} (h : step cfg s a = some s') (hk : s.status k ≠ .running) :
    s'.status k = s.status k := by
  obtain hs | ⟨j, t, hj, hs, -⟩ := step_status h
  · rw [hs]
  · rw [hs, Function.update_of_ne (by rintro rfl; exact hk hj)]

theorem step_todo (h : step cfg s a = some s') (hk : s.status 0 ≠ .running) :
    s'.todo = s.todo ∧ s'.recordCount = s.recordCount := by
  cases Step.of_step h with
  | parserSend _ h0 => exact absurd h0 hk
  | batcherReceive => exact ⟨(batcherTake_frame ..).2.1, (batcherTake_frame ..).2.2.1⟩
  | _ => exact ⟨rfl, rfl⟩

theorem step_held {k : Nat} (h : step cfg s a = some s') (hk : s.status k ≠ .running) : s'.held k = s.held k := by
  cases Step.of_step h with
  | receive _ hrun => exact Function.update_of_ne (by rintro rfl; exact hk hrun) ..
  | forward _ hrun => exact Function.update_of_ne (by rintro rfl; exact hk hrun) ..
  | batcherReceive => exact congrFun (batcherTake_frame ..).2.2.2.2.1 k
  | _ => rfl

theorem step_chan {k : Nat} (h : step cfg s a = some s') (hk : s.status k ≠ .running) (hc : s.chan k = []) :
    s'.chan k = [] := by
  cases Step.of_step h with
  | parserSend _ h0 => exact (Function.update_of_ne (by rintro rfl; exact hk h0) ..).trans hc
  | forward _ hrun => exact (Function.update_of_ne (by rintro rfl; exact hk hrun) ..).trans hc
  | receive _ _ hchan => exact (Function.update_of_ne (by rintro rfl; simp [hc] at hchan) ..).trans hc
  | batcherReceive _ hchan =>
    rw [(batcherTake_frame ..).2.2.2.1]
    exact (Function.update_of_ne (by rintro rfl; simp [hc] at hchan) ..).trans hc
  | _ => exact hc

theorem step_batcher (h : step cfg s a = some s') (hk : s.status cfg.batcher ≠ .running) :
    s'.batch = s.batch ∧ s'.sending = s.sending ∧ s'.inputEnded = s.inputEnded := by
  cases Step.of_step h with
  | batcherReceive _ _ hrun => exact absurd hrun hk
  | batcherFlush hrun => exact absurd hrun hk
  | batcherEnd hrun => exact absurd hrun hk
  | batcherSend _ hrun => exact absurd hrun hk
  | _ => exact ⟨rfl, rfl, rfl⟩

theorem step_batchChan (h : step cfg s a = some s') (hk : s.status cfg.batcher ≠ .running) (hc : s.batchChan = []) :
    s'.batchChan = [] := by
  cases Step.of_step h with
  | batcherReceive _ _ hrun => exact absurd hrun hk
  | batcherSend _ hrun => exact absurd hrun hk
  | publisherTake hchan => simp [hc] at hchan
  | _ => exact hc

theorem step_publisher (h : step cfg s a = some s') (hk : s.status cfg.publisher ≠ .running) :
    s'.publishing = s.publishing := by
  cases Step.of_step h with
  | batcherReceive => exact (batcherTake_frame ..).2.2.2.2.2.2.1
  | publisherTake _ hrun => exact absurd hrun hk
  | publisherSettled _ hrun => exact absurd hrun hk
  | publisherFailed _ hrun => exact absurd hrun hk
  | _ => rfl

/-- How a stage has ended goes on to hold. -/
theorem step_ends {k : Nat} {t : Status} (h : step cfg s a = some s') (hk : s.status k ≠ .running)
    (he : Ends cfg s k t) : Ends cfg s' k t := by
  have hstay {j : Nat} (hj : s.status j ≠ .running) : s'.status j ≠ .running := by
    rwa [step_status_of_ended h hj]
  cases he with
  | parser htodo => exact .parser ((step_todo h hk).1.trans htodo)
  | transform hn hheld hchan hprev =>
    exact .transform hn ((step_held h hk).trans hheld) (step_chan h hprev hchan) (hstay hprev)
  | batcher hend hsend =>
    obtain ⟨-, hs, hi⟩ := step_batcher h hk
    exact .batcher (hi.trans hend) (hs.trans hsend)
  | publisher hpub hchan hprev =>
    exact .publisher ((step_publisher h hk).trans hpub) (step_batchChan h hprev hchan) (hstay hprev)
  | cut hn hnext => exact .cut hn (hstay hnext)
  | err hle => exact .err hle
  | panicked hle => exact .panicked hle

theorem step_count (h : step cfg s a = some s') :
    s'.recordCount + s'.todo.length = s.recordCount + s.todo.length := by
  cases Step.of_step h with
  | parserSend htodo =>
    simp only [htodo, List.length_cons]
    omega
  | batcherReceive => rw [(batcherTake_frame ..).2.1, (batcherTake_frame ..).2.2.1]; rfl
  | _ => rfl

/-! ## What the call knows -/

/-- What the call has found out about its stages where it is. -/
def Main.Knows (cfg : Config α) (s : State α) : Main → Prop
  | .awaiting k => ∀ j < k, (s.status j).ok = true
  | .completing total => (∀ k ≤ cfg.publisher, (s.status k).ok = true) ∧ total = s.recordCount
  | .marking total => (∀ k ≤ cfg.publisher, (s.status k).ok = true) ∧ total = s.recordCount
  | _ => True

theorem step_ok {k : Nat} (h : step cfg s a = some s') (hk : (s.status k).ok = true) : (s'.status k).ok = true := by
  rwa [step_status_of_ended h (by rintro hr; simp [hr] at hk)]

/-- What the call knows goes on to hold. -/
theorem Main.Knows.step {m : Main} (hm : m.Knows cfg s) (h : step cfg s a = some s') : m.Knows cfg s' := by
  have hdone {total : Nat} (hd : (∀ k ≤ cfg.publisher, (s.status k).ok = true) ∧ total = s.recordCount) :
      (∀ k ≤ cfg.publisher, (s'.status k).ok = true) ∧ total = s'.recordCount := by
    have h0 : s.status 0 ≠ .running := by
      rintro hr
      simpa [hr] using hd.1 0 (Nat.zero_le _)
    exact ⟨fun k hk => step_ok h (hd.1 k hk), hd.2.trans (step_todo h h0).2.symm⟩
  cases m with
  | awaiting k => exact fun j hj => step_ok h (hm j hj)
  | completing total => exact hdone hm
  | marking total => exact hdone hm
  | _ => exact trivial

theorem step_knows (h : step cfg s a = some s') (hI : s.main.Knows cfg s) : s'.main.Knows cfg s' := by
  have hstay := hI.step h
  cases Step.of_step h with
  | joinOk _ hok => exact ⟨hok, rfl⟩
  | @awaitNext k hmain _ hok =>
    rw [hmain] at hI
    intro j hj
    obtain hlt | rfl := Nat.lt_succ_iff_lt_or_eq.1 hj
    · exact hI j hlt
    · exact hok
  | awaitLast hmain hok =>
    rw [hmain] at hI
    refine ⟨fun j hj => ?_, rfl⟩
    obtain hlt | rfl := Nat.lt_or_eq_of_le hj
    · exact hI j hlt
    · exact hok
  | fileCompleteSent hmain =>
    rw [hmain] at hI
    exact hI
  | joinErr | joinPanic | awaitErr | fileCompleteFailed | completeFile | close | «return» => exact trivial
  | batcherReceive =>
    rw [(batcherTake_frame ..).2.2.2.2.2.2.2.1]
    exact hstay
  | _ => exact hstay

theorem knows_init : (State.init cfg records).main.Knows cfg (State.init cfg records) := by
  simp only [State.init]
  split
  · exact trivial
  · exact fun j hj => absurd hj (Nat.not_lt_zero j)

end DiscogsIngestion.Pipeline
