import DiscogsIngestion.Lib.Rank
import DiscogsIngestion.Pipeline.NoLoss

/-!
# The pipeline gets to its end

The channels are bounded, and every task may have to wait for the one ahead of it or the one behind it.

* `Action.fails` : the steps with which something outside of the pipeline goes wrong;
* `Enabled`, `enabled_of_running` : as long as a task is running, one of the tasks can take a step;
* `State.rank`, `rank_step` : every step brings the records, the tasks or the call nearer to the end;
* `Faultless` : what holds while nothing goes wrong;
* `processed_of_maximal` : then the file is processed completely, in a bounded number of steps.
-/

namespace DiscogsIngestion.Pipeline

variable {α : Type} {cfg : Config α} {records : List α} {s s' : State α} {a : Action}

/-- A task dies, or the broker or the disk refuses what the file needs. -/
def Action.fails : Action → Bool
  | .fail _ | .panic _ | .publisherSettle false | .sendFileComplete false | .completeFile false => true
  | _ => false

/-! ## No deadlock -/

def Enabled (cfg : Config α) (s : State α) : Prop := ∃ a, a.fails = false ∧ (step cfg s a).isSome = true

/-- The record that stage `k` is to send is taken, or the stage learns that nobody takes it. -/
def State.Open (cfg : Config α) (s : State α) (k : Nat) : Prop :=
  s.status (k + 1) ≠ .running ∨ s.accepts cfg k = true

theorem open_of_empty {k : Nat} (hchan : s.chan k = []) : s.Open cfg k := by
  by_cases hnext : s.status (k + 1) = .running
  · exact .inr ((State.accepts_iff k).2 ⟨hnext, by simpa [hchan] using cfg.queueSize_pos⟩)
  · exact .inl hnext

theorem ended_iff {k : Nat} : (s.status k).ended = true ↔ s.status k ≠ .running := by
  simp [Status.ended]

theorem enabled_first (hrun : s.status 0 = .running) (hopen : s.Open cfg 0) : Enabled cfg s := by
  cases htodo : s.todo with
  | nil => exact ⟨.parserEof, rfl, by simp [step, hrun, htodo]⟩
  | cons m rest =>
    obtain hnext | haccepts := hopen
    · exact ⟨.parserCut, rfl, by simp [step, hrun, htodo, ended_iff.2 hnext]⟩
    · exact ⟨.parserSend, rfl, by simp [step, hrun, htodo, haccepts]⟩

/-- A stage that can send can go on, or waits for one that can. -/
theorem enabled_stage {k : Nat} (hk : k ≤ cfg.n) (hrun : s.status k = .running) (hopen : s.Open cfg k) :
    Enabled cfg s := by
  induction k with
  | zero => exact enabled_first hrun hopen
  | succ k ih =>
    cases hheld : s.held (k + 1) with
    | some m =>
      obtain hnext | haccepts := hopen
      · exact ⟨.cutOff (k + 1), rfl, by simp [step, hk, hrun, hheld, ended_iff.2 hnext]⟩
      · exact ⟨.forward (k + 1), rfl, by simp [step, hk, hrun, hheld, haccepts]⟩
    | none =>
      cases hchan : s.chan k with
      | cons m rest => exact ⟨.receive (k + 1), rfl, by simp [step, hk, hrun, hheld, hchan]⟩
      | nil =>
        by_cases hprev : s.status k = .running
        · exact ih (by omega) hprev (open_of_empty hchan)
        · exact ⟨.drain (k + 1), rfl, by simp [step, hk, hrun, hheld, hchan, ended_iff.2 hprev]⟩

theorem enabled_batcher (hrun : s.status cfg.batcher = .running)
    (hopen : s.status cfg.publisher ≠ .running ∨ s.batchChan.length < batchQueueSize) : Enabled cfg s := by
  cases hsending : s.sending with
  | some batch =>
    by_cases hpub : s.status cfg.publisher = .running
    · have hroom := hopen.resolve_left (not_not_intro hpub)
      exact ⟨.batcherSend, rfl, by simp [step, hrun, hsending, hpub, hroom]⟩
    · exact ⟨.batcherRefused, rfl, by simp [step, hrun, hsending, ended_iff.2 hpub]⟩
  | none =>
    cases hend : s.inputEnded with
    | true => exact ⟨.batcherFinish true, rfl, by simp [step, hrun, hsending, hend]⟩
    | false =>
      cases hchan : s.chan cfg.n with
      | cons m rest => exact ⟨.batcherReceive true, rfl, by simp [step, hrun, hsending, hend, hchan]⟩
      | nil =>
        by_cases hprev : s.status cfg.n = .running
        · exact enabled_stage le_rfl hprev (open_of_empty hchan)
        · exact ⟨.batcherEnd, rfl, by simp [step, hrun, hsending, hend, hchan, ended_iff.2 hprev]⟩

theorem enabled_publisher (hrun : s.status cfg.publisher = .running) : Enabled cfg s := by
  cases hpub : s.publishing with
  | some batch => exact ⟨.publisherSettle true, rfl, by simp [step, hrun, hpub]⟩
  | none =>
    cases hchan : s.batchChan with
    | cons batch rest => exact ⟨.publisherTake, rfl, by simp [step, hrun, hpub, hchan]⟩
    | nil =>
      by_cases hprev : s.status cfg.batcher = .running
      · exact enabled_batcher hprev (.inr (by simp [hchan, batchQueueSize]))
      · exact ⟨.publisherDrain, rfl, by simp [step, hrun, hpub, hchan, ended_iff.2 hprev]⟩

/-- As long as a task is running, one of the tasks can take a step. -/
theorem enabled_of_running {k : Nat} (hk : k ≤ cfg.publisher) (hrun : s.status k = .running) : Enabled cfg s := by
  by_cases hpub : s.status cfg.publisher = .running
  · exact enabled_publisher hpub
  by_cases hbatcher : s.status cfg.batcher = .running
  · exact enabled_batcher hbatcher (.inl hpub)
  -- of the stages before the batcher, take the last one that is running
  have hlast : ∀ d k, k + d = cfg.batcher → s.status k = .running → Enabled cfg s := by
    intro d
    induction d with
    | zero =>
      rintro k rfl hrun
      exact absurd hrun hbatcher
    | succ d ih =>
      intro k hk hrun
      by_cases hnext : s.status (k + 1) = .running
      · exact ih (k + 1) (by omega) hnext
      · exact enabled_stage (by rw [Config.batcher_eq] at hk; omega) hrun (.inl hnext)
  have hne : k ≠ cfg.publisher := by
    rintro rfl
    exact hpub hrun
  refine hlast (cfg.batcher - k) k ?_ hrun
  rw [Config.publisher_eq] at hk hne
  rw [Config.batcher_eq]
  omega

/-- The call waits for a task that is running, or can go on itself. -/
theorem enabled_of_not_returned (hmain : ∀ ok, s.main ≠ .returned ok)
    (hknows : ∀ k, s.main = .awaiting k → k ≤ cfg.publisher) : Enabled cfg s := by
  cases hm : s.main with
  | joining =>
    by_cases hall : s.allEnded cfg = true
    · cases hpanic : s.anyPanicked cfg with
      | false => exact ⟨.join, rfl, by simp [step, hm, hall, hpanic]⟩
      | true =>
        obtain ⟨k, hk, hstatus⟩ := List.any_eq_true.1 hpanic
        have hle : k ≤ cfg.publisher := Nat.lt_succ_iff.1 (List.mem_range.1 hk)
        exact ⟨.joinPanic k, rfl, by simp [step, hm, hle, of_decide_eq_true hstatus]⟩
    · rw [State.allEnded_iff] at hall
      push Not at hall
      obtain ⟨k, hk, hrun⟩ := hall
      exact enabled_of_running hk hrun
  | awaiting k =>
    by_cases hrun : s.status k = .running
    · exact enabled_of_running (hknows k hm) hrun
    · exact ⟨.await, rfl, by simp [step, hm, ended_iff.2 hrun]⟩
  | completing total => exact ⟨.sendFileComplete true, rfl, by simp [step, hm]⟩
  | marking total => exact ⟨.completeFile true, rfl, by simp [step, hm]⟩
  | closing ok => exact ⟨.close, rfl, by simp [step, hm]⟩
  | returning ok => exact ⟨.return, rfl, by simp [step, hm]⟩
  | returned ok => exact absurd hm (hmain ok)

/-! ## No endless run -/

/-- The steps that the call is from its return. -/
def Main.rank (cfg : Config α) : Main → Nat
  | .joining => 5
  | .awaiting k => 5 + (cfg.publisher - k)
  | .completing _ => 4
  | .marking _ => 3
  | .closing _ => 2
  | .returning _ => 1
  | .returned _ => 0

/-- What is left to do to the records, each by its way to the broker, by the tasks and by the call. A record that
waits in channel `k` has to be received and sent by the stages behind it. -/
def State.rank (cfg : Config α) (s : State α) : Nat :=
  (6 + 2 * cfg.n) * s.todo.length +
  ∑ k ∈ Finset.range (cfg.n + 1), (5 + 2 * (cfg.n - k)) * (s.chan k).length +
  ∑ k ∈ Finset.range (cfg.n + 1), (6 + 2 * (cfg.n - k)) * (s.held k).toList.length +
  4 * s.batch.length + 3 * s.sending.toList.length + 2 * s.batchChan.length + s.publishing.toList.length +
  (!s.inputEnded).toNat + ∑ k ∈ Finset.range (cfg.n + 3), (!(s.status k).ended).toNat + s.main.rank cfg

variable (cfg) in
theorem rank_setStatus {k : Nat} {t : Status} (hk : k ≤ cfg.publisher) (hrun : s.status k = .running)
    (ht : t ≠ .running) : (s.setStatus k t).rank cfg + 1 = s.rank cfg := by
  have hmem : k ∈ Finset.range (cfg.n + 3) := by
    rw [Finset.mem_range]
    rw [Config.publisher_eq] at hk
    omega
  have hsum := Machine.sum_update_add hmem (fun _ t => (!(Status.ended t)).toNat) s.status t
  have hold : (!(s.status k).ended).toNat = 1 := by
    rw [hrun]
    rfl
  have hnew : (!t.ended).toNat = 0 := by simp [Status.ended, ht]
  simp only [State.rank, State.setStatus]
  omega

variable (cfg) in
theorem rank_setChan (k : Nat) {q : List α} (hk : k ≤ cfg.n) : (s.setChan k q).rank cfg +
    (5 + 2 * (cfg.n - k)) * (s.chan k).length = s.rank cfg + (5 + 2 * (cfg.n - k)) * q.length := by
  have hmem : k ∈ Finset.range (cfg.n + 1) := Finset.mem_range.2 (by omega)
  have hsum := Machine.sum_update_add hmem (fun j q => (5 + 2 * (cfg.n - j)) * List.length q) s.chan q
  simp only [State.rank, State.setChan]
  omega

variable (cfg) in
theorem rank_setHeld (k : Nat) {m : Option α} (hk : k ≤ cfg.n) : (s.setHeld k m).rank cfg +
    (6 + 2 * (cfg.n - k)) * (s.held k).toList.length =
      s.rank cfg + (6 + 2 * (cfg.n - k)) * m.toList.length := by
  have hmem : k ∈ Finset.range (cfg.n + 1) := Finset.mem_range.2 (by omega)
  have hsum := Machine.sum_update_add hmem (fun j m => (6 + 2 * (cfg.n - j)) * (Option.toList m).length) s.held m
  simp only [State.rank, State.setHeld]
  omega

theorem rank_batcherTake (hs : s.sending = none) (m : α) (saved : Bool) :
    (batcherTake cfg s m saved).rank cfg ≤ s.rank cfg + 4 := by
  simp only [batcherTake, State.checkpoint, State.record]
  split <;> split <;> simp only [State.rank, hs, List.length_append, List.length_cons, List.length_nil,
    Option.toList_some, Option.toList_none] <;> omega

theorem batch_of_flush (h : step cfg s .batcherFlush = some s') : 0 < s.batch.length := by
  simp only [step, Option.ite_none_right_eq_some, Bool.and_eq_true] at h
  obtain ⟨⟨-, hne⟩, -⟩ := h
  exact List.length_pos_iff.2 (by simpa using hne)

/-- Every step brings the call nearer to its return. -/
theorem rank_step (h : step cfg s a = some s') (hrange : ∀ k, s.main = .awaiting k → k ≤ cfg.publisher) :
    s'.rank cfg < s.rank cfg := by
  cases Step.of_step h with
  | @parserSend m rest htodo _ _ =>
    have hchan := rank_setChan cfg 0 (s := s) (q := s.chan 0 ++ [m]) (Nat.zero_le _)
    simp only [List.length_append, List.length_singleton, Nat.mul_add, Nat.mul_one] at hchan
    simp only [State.rank, State.setChan, htodo, List.length_cons, Nat.mul_add, Nat.mul_one] at hchan ⊢
    omega
  | parserCut hrun =>
    have hrank := rank_setStatus cfg (t := .cut) (Nat.zero_le _) hrun Status.noConfusion
    omega
  | parserEof hrun =>
    have hrank := rank_setStatus cfg (t := .drained) (Nat.zero_le _) hrun Status.noConfusion
    omega
  | @receive k m rest hk _ hchan hheld =>
    have hfirst := rank_setChan cfg k (s := s) (q := rest) hk.le
    have hsecond := rank_setHeld cfg (k + 1) (s := s.setChan k rest) (m := cfg.transform (k + 1) m) hk
    have hone : (cfg.transform (k + 1) m).toList.length ≤ 1 := by
      cases cfg.transform (k + 1) m <;> simp
    have hprod := Nat.mul_le_mul_left (6 + 2 * (cfg.n - (k + 1))) hone
    simp only [hchan, List.length_cons, Nat.mul_add, Nat.mul_one] at hfirst hprod
    have hnone : ((s.setChan k rest).held (k + 1)).toList.length = 0 := by
      have hsame : (s.setChan k rest).held (k + 1) = none := hheld
      rw [hsame]
      rfl
    simp only [hnone, Nat.mul_zero] at hsecond
    omega
  | @forward k m hk _ _ hheld =>
    have hfirst := rank_setHeld cfg (k + 1) (s := s) (m := none) hk
    have hsecond := rank_setChan cfg (k + 1) (s := s.setHeld (k + 1) none) (q := s.chan (k + 1) ++ [m]) hk
    have hsame : (s.setHeld (k + 1) none).chan (k + 1) = s.chan (k + 1) := rfl
    simp only [hheld, Option.toList_some, Option.toList_none, List.length_singleton, List.length_nil, Nat.mul_one,
      Nat.mul_zero] at hfirst
    simp only [hsame, List.length_append, List.length_singleton, Nat.mul_add, Nat.mul_one] at hsecond
    omega
  | cutOff hk hrun =>
    have hrank := rank_setStatus cfg (t := .cut) (by rw [Config.publisher_eq]; omega) hrun Status.noConfusion
    omega
  | drain hk hrun =>
    have hrank := rank_setStatus cfg (t := .drained) (by rw [Config.publisher_eq]; omega) hrun Status.noConfusion
    omega
  | @batcherReceive m rest saved hchan _ hsending =>
    have hfirst := rank_setChan cfg cfg.n (s := s) (q := rest) le_rfl
    have hsecond := @rank_batcherTake _ cfg (s.setChan cfg.n rest) hsending m saved
    simp only [hchan, List.length_cons, Nat.mul_add, Nat.mul_one] at hfirst
    omega
  | batcherFlush _ hsending =>
    have hbatch := batch_of_flush h
    simp only [State.rank, hsending, Option.toList_some, Option.toList_none, List.length_singleton, List.length_nil]
    omega
  | batcherEnd _ hsending hend =>
    simp only [State.rank, hsending, hend, Option.toList_none, List.length_nil, Bool.not_false, Bool.not_true,
      Bool.toNat_true, Bool.toNat_false]
    split <;> rename_i hempty
    · simp only [Option.toList_none, List.length_nil]
      omega
    · have hbatch : 0 < s.batch.length := List.length_pos_iff.2 (by simpa using hempty)
      simp only [Option.toList_some, List.length_singleton]
      omega
  | batcherSend hsending =>
    simp only [State.rank, hsending, List.length_append, Option.toList_some, Option.toList_none,
      List.length_singleton, List.length_nil]
    omega
  | batcherRefused hrun =>
    have hrank := rank_setStatus cfg (k := cfg.batcher) (t := .err) (Nat.le_succ _) hrun Status.noConfusion
    omega
  | batcherFinish saved hrun =>
    have hrank := rank_setStatus cfg (k := cfg.batcher) (s := s.checkpoint saved) (t := .drained) (Nat.le_succ _) hrun
      Status.noConfusion
    have hsame : (s.checkpoint saved).rank cfg = s.rank cfg := rfl
    omega
  | publisherTake hchan _ hpub =>
    simp only [State.rank, State.record, hchan, hpub, List.length_cons, Option.toList_some, Option.toList_none,
      List.length_nil]
    omega
  | publisherSettled hpub =>
    simp only [State.rank, State.record, hpub, Option.toList_some, Option.toList_none, List.length_singleton,
      List.length_nil]
    omega
  | @publisherFailed batch hpub hrun =>
    have hrank := rank_setStatus cfg (s := { s with publishing := none }.record (.published batch false)) (t := .err)
      le_rfl hrun Status.noConfusion
    have hless : ({ s with publishing := none }.record (.published batch false)).rank cfg < s.rank cfg := by
      simp only [State.rank, State.record, hpub, Option.toList_some, Option.toList_none, List.length_singleton,
        List.length_nil]
      omega
    omega
  | publisherDrain hrun =>
    have hrank := rank_setStatus cfg (t := .drained) le_rfl hrun Status.noConfusion
    omega
  | fail hk hrun =>
    have hrank := rank_setStatus cfg (t := .err) hk hrun Status.noConfusion
    omega
  | panic hk hrun =>
    have hrank := rank_setStatus cfg (t := .panicked) hk hrun Status.noConfusion
    omega
  | joinOk hmain | joinErr hmain | joinPanic hmain =>
    simp only [State.rank, hmain, Main.rank]
    omega
  | @awaitNext k hmain hne =>
    have hle := hrange k hmain
    simp only [State.rank, hmain, Main.rank]
    omega
  | awaitLast hmain | awaitErr hmain =>
    simp only [State.rank, hmain, Main.rank]
    omega
  | fileCompleteSent hmain | fileCompleteFailed hmain | completeFile _ hmain | close hmain | «return» hmain =>
    simp only [State.rank, State.record, hmain, Main.rank]
    omega

def State.InRange (cfg : Config α) (s : State α) : Prop := ∀ k, s.main = .awaiting k → k ≤ cfg.publisher

theorem step_inRange (h : step cfg s a = some s') (hrange : s.InRange cfg) : s'.InRange cfg := by
  cases Step.of_step h with
  | @awaitNext k hmain hne =>
    intro j hj
    obtain rfl := Main.awaiting.inj hj
    have hle := hrange k hmain
    omega
  | batcherReceive =>
    intro j hj
    rw [(batcherTake_frame ..).2.2.2.2.2.2.2.1] at hj
    exact hrange j hj
  | joinOk | joinErr | joinPanic | awaitLast | awaitErr | fileCompleteSent | fileCompleteFailed | completeFile | close
  | «return» => exact fun j hj => Main.noConfusion hj
  | _ => exact hrange

theorem inRange_init : (State.init cfg records).InRange cfg := by
  intro k hk
  simp only [State.init] at hk
  split at hk
  · exact Main.noConfusion hk
  · obtain rfl := Main.awaiting.inj hk
    exact Nat.zero_le _

theorem lowers_rank : Machine.Lowers (step cfg) (State.InRange cfg) (State.rank cfg) :=
  fun _ _ _ hrange h => ⟨step_inRange h hrange, rank_step h hrange⟩

theorem rank_init : (State.init cfg records).rank cfg ≤ (6 + 2 * cfg.n) * records.length + 2 * cfg.n + 11 := by
  have hmain : (State.init cfg records).main.rank cfg ≤ 7 + cfg.n := by
    simp only [State.init]
    split
    · simp only [Main.rank]
      omega
    · simp only [Main.rank, Config.publisher_eq]
      omega
  have hstatus : ∑ k ∈ Finset.range (cfg.n + 3), (!((State.init cfg records).status k).ended).toNat = cfg.n + 3 := by
    simp [State.init, Status.ended]
  simp only [State.rank, hstatus]
  simp only [State.init, List.length_nil, Nat.mul_zero, Finset.sum_const_zero, Option.toList_none, Bool.not_false,
    Bool.toNat_true]
  simp only [State.init] at hmain
  omega

theorem run_inRange {as : List Action} (hrun : Machine.run (step cfg) (State.init cfg records) as = some s) :
    s.InRange cfg := by
  have hreach : Reachable cfg records s := .of_run as hrun
  exact hreach.invariant (I := State.InRange cfg) inRange_init fun _ _ _ hI _ h => step_inRange h hI

/-- The pipeline neither hangs nor goes on forever, whatever the schedule and whatever fails: a run has at most so many
steps, and until the call has returned there is a next one for which nothing has to fail. -/
theorem steps_bounded (cfg : Config α) (records : List α) (as : List Action) (s : State α)
    (hrun : Machine.run (step cfg) (State.init cfg records) as = some s) :
    as.length ≤ (6 + 2 * cfg.n) * records.length + 2 * cfg.n + 11 ∧
      ((∀ ok, s.main ≠ .returned ok) → Enabled cfg s) := by
  refine ⟨?_, fun hmain => enabled_of_not_returned hmain (run_inRange hrun)⟩
  have hpaid := Machine.run_length_le lowers_rank inRange_init hrun
  have hinit := @rank_init _ cfg records
  omega

theorem smallRun_bounded : ∃ s, Machine.run (step smallConfig) (State.init smallConfig [1, 0]) smallRun = some s ∧
    smallRun.length ≤ (6 + 2 * smallConfig.n) * 2 + 2 * smallConfig.n + 11 ∧ Enabled smallConfig s := by
  have hrun : (Machine.run (step smallConfig) (State.init smallConfig [1, 0]) smallRun).any
      (fun s => s.main = .marking 2) = true := by decide
  obtain ⟨s, hs, hmain⟩ := (Option.any_eq_true ..).1 hrun
  obtain ⟨hlength, henabled⟩ := steps_bounded smallConfig [1, 0] smallRun s hs
  exact ⟨s, hs, hlength, henabled fun ok h => Main.noConfusion ((of_decide_eq_true hmain).symm.trans h)⟩

/-! ## When nothing goes wrong -/

/-- What holds while nothing goes wrong. -/
structure Faultless (cfg : Config α) (s : State α) : Prop where
  status : ∀ k, s.status k ≠ .err ∧ s.status k ≠ .panicked
  closing : ∀ ok, s.main = .closing ok → ok = true
  returning : ∀ ok, s.main = .returning ok → ok = true
  returned : ∀ ok, s.main = .returned ok → ok = true
  sent : ∀ total, s.main = .marking total → .fileComplete total true ∈ s.log
  marked : (s.main = .closing true ∨ s.main = .returning true ∨ s.main = .returned true) →
    ∃ total, .fileComplete total true ∈ s.log ∧ .fileCompleted total ∈ s.log

theorem Faultless.ok (h : Faultless cfg s) {k : Nat} (hk : s.status k ≠ .running) : (s.status k).ok = true := by
  obtain ⟨herr, hpanic⟩ := h.status k
  cases hs : s.status k <;> simp_all [Status.ok]

theorem Faultless.allOk (h : Faultless cfg s) (hall : s.allEnded cfg = true) : s.allOk cfg = true :=
  State.allOk_iff.2 fun k hk => h.ok (State.allEnded_iff.1 hall k hk)

theorem Ends.le_of_cut {k : Nat} (h : Ends cfg s k .cut) : k ≤ cfg.n := by
  cases h with
  | cut hn => exact hn

/-- The publisher does not end before the batcher. -/
theorem Faultless.batcher_ended (h : Faultless cfg s) (hlossless : Lossless cfg records s)
    (hpub : s.status cfg.publisher ≠ .running) : s.status cfg.batcher ≠ .running := by
  have hends := hlossless.ended cfg.publisher hpub
  obtain ⟨herr, hpanic⟩ := h.status cfg.publisher
  cases hs : s.status cfg.publisher with
  | running => exact absurd hs hpub
  | drained =>
    rw [hs] at hends
    exact hends.ahead (k := cfg.batcher) fun hend => (hlossless.inputEnded hend).2.2
  | cut =>
    rw [hs] at hends
    have hle := hends.le_of_cut
    rw [Config.publisher_eq] at hle
    omega
  | err => exact absurd hs herr
  | panicked => exact absurd hs hpanic

theorem Faultless.setStatus (h : Faultless cfg s) (k : Nat) {t : Status} (ht : t = .drained ∨ t = .cut) :
    Faultless cfg (s.setStatus k t) where
  status j := by
    simp only [State.setStatus, Function.update_apply]
    split
    · rcases ht with rfl | rfl <;> exact ⟨Status.noConfusion, Status.noConfusion⟩
    · exact h.status j
  closing := h.closing
  returning := h.returning
  returned := h.returned
  sent := h.sent
  marked := h.marked

/-- Steps that the call does not take keep what it has recorded. -/
theorem Faultless.keep (h : Faultless cfg s) (hstatus : s'.status = s.status) (hmain : s'.main = s.main)
    (hlog : ∀ e ∈ s.log, e ∈ s'.log) : Faultless cfg s' where
  status k := hstatus ▸ h.status k
  closing ok hc := h.closing ok (hmain ▸ hc)
  returning ok hr := h.returning ok (hmain ▸ hr)
  returned ok hr := h.returned ok (hmain ▸ hr)
  sent total hm := hlog _ (h.sent total (hmain ▸ hm))
  marked hover := by
    rw [hmain] at hover
    obtain ⟨total, hsent, hmarked⟩ := h.marked hover
    exact ⟨total, hlog _ hsent, hlog _ hmarked⟩

theorem Faultless.goOn (h : Faultless cfg s) {main : Main}
    (hmain : (∃ k, main = .awaiting k) ∨ ∃ total, main = .completing total) :
    Faultless cfg { s with main := main } where
  status := h.status
  closing ok hc := by rcases hmain with ⟨k, rfl⟩ | ⟨k, rfl⟩ <;> cases hc
  returning ok hc := by rcases hmain with ⟨k, rfl⟩ | ⟨k, rfl⟩ <;> cases hc
  returned ok hc := by rcases hmain with ⟨k, rfl⟩ | ⟨k, rfl⟩ <;> cases hc
  sent total hc := by rcases hmain with ⟨k, rfl⟩ | ⟨k, rfl⟩ <;> cases hc
  marked hc := by rcases hmain with ⟨k, rfl⟩ | ⟨k, rfl⟩ <;> rcases hc with hc | hc | hc <;> cases hc

theorem Faultless.step (h : Faultless cfg s) (hlossless : Lossless cfg records s) (hok : a.fails = false)
    (hs : step cfg s a = some s') : Faultless cfg s' := by
  cases Step.of_step hs with
  | parserCut | cutOff => exact h.setStatus _ (.inr rfl)
  | parserEof | drain | publisherDrain => exact h.setStatus _ (.inl rfl)
  | @batcherReceive m rest saved =>
    obtain ⟨hstatus, -, -, -, -, -, -, hmain, -⟩ := @batcherTake_frame _ cfg (s.setChan cfg.n rest) m saved
    obtain ⟨events, hlog, -⟩ := @batcherTake_log _ cfg (s.setChan cfg.n rest) m saved
    exact h.keep hstatus hmain fun e he => hlog ▸ List.mem_append_left _ he
  | batcherRefused hrun hpub => exact absurd hrun (h.batcher_ended hlossless hpub)
  | batcherFinish saved =>
    have hsaved : Faultless cfg (s.checkpoint saved) :=
      h.keep rfl rfl fun _ he => List.mem_append_left _ (List.mem_append_left _ he)
    exact hsaved.setStatus _ (.inl rfl)
  | publisherFailed | fail | panic | fileCompleteFailed => exact absurd hok.symm Bool.false_ne_true
  | joinOk => exact h.goOn (.inr ⟨_, rfl⟩)
  | joinErr hmain hall =>
    have hended := State.allEnded_iff.2 hall
    simp only [Pipeline.step, h.allOk hended, if_true, Option.ite_none_right_eq_some, Option.some.injEq] at hs
    exact absurd (congrArg State.main hs.2) Main.noConfusion
  | joinPanic _ _ hpanic => exact absurd hpanic (h.status _).2
  | awaitNext => exact h.goOn (.inl ⟨_, rfl⟩)
  | awaitLast => exact h.goOn (.inr ⟨_, rfl⟩)
  | awaitErr _ hbad => exact (hbad.elim (h.status _).1 (h.status _).2).elim
  | @fileCompleteSent total hmain =>
    refine ⟨h.status, ?_, ?_, ?_, ?_, ?_⟩
    · exact fun ok hc => Main.noConfusion hc
    · exact fun ok hc => Main.noConfusion hc
    · exact fun ok hc => Main.noConfusion hc
    · intro total' hc
      obtain rfl := Main.marking.inj hc
      exact List.mem_append_right _ (List.mem_singleton_self _)
    · rintro (hc | hc | hc) <;> exact Main.noConfusion hc
  | @completeFile total saved hmain =>
    cases saved with
    | false => exact absurd hok.symm Bool.false_ne_true
    | true =>
      refine ⟨h.status, ?_, ?_, ?_, ?_, ?_⟩
      · exact fun ok hc => (Main.closing.inj hc).symm
      · exact fun ok hc => Main.noConfusion hc
      · exact fun ok hc => Main.noConfusion hc
      · exact fun total' hc => Main.noConfusion hc
      · intro _
        have hsent := h.sent total hmain
        exact ⟨total, List.mem_append_left _ (List.mem_append_left _ hsent),
          List.mem_append_left _ (List.mem_append_right _ (List.mem_singleton_self _))⟩
  | @close ok hmain =>
    obtain rfl := h.closing ok hmain
    refine ⟨h.status, ?_, ?_, ?_, ?_, ?_⟩
    · exact fun ok hc => Main.noConfusion hc
    · exact fun ok hc => (Main.returning.inj hc).symm
    · exact fun ok hc => Main.noConfusion hc
    · exact fun total hc => Main.noConfusion hc
    · intro _
      obtain ⟨total, hsent, hmarked⟩ := h.marked (.inl hmain)
      exact ⟨total, List.mem_append_left _ hsent, List.mem_append_left _ hmarked⟩
  | @«return» ok hmain =>
    obtain rfl := h.returning ok hmain
    refine ⟨h.status, ?_, ?_, ?_, ?_, ?_⟩
    · exact fun ok hc => Main.noConfusion hc
    · exact fun ok hc => Main.noConfusion hc
    · exact fun ok hc => (Main.returned.inj hc).symm
    · exact fun total hc => Main.noConfusion hc
    · intro _
      obtain ⟨total, hsent, hmarked⟩ := h.marked (.inr (.inl hmain))
      exact ⟨total, List.mem_append_left _ hsent, List.mem_append_left _ hmarked⟩
  | publisherTake | publisherSettled => exact h.keep rfl rfl fun _ he => List.mem_append_left _ he
  | _ => exact h.keep rfl rfl fun _ he => he

theorem faultless_init : Faultless cfg (State.init cfg records) := by
  have hmain : (State.init cfg records).main = .joining ∨ (State.init cfg records).main = .awaiting 0 := by
    simp only [State.init]
    split
    · exact .inl rfl
    · exact .inr rfl
  refine ⟨fun k => ⟨Status.noConfusion, Status.noConfusion⟩, ?_, ?_, ?_, ?_, ?_⟩ <;>
    rcases hmain with hm | hm <;> simp [hm]

/-- The invariants of a run without failures. -/
theorem faultless_run {as : List Action} (hrun : Machine.run (step cfg) (State.init cfg records) as = some s)
    (hok : ∀ a ∈ as, a.fails = false) : Lossless cfg records s ∧ Faultless cfg s := by
  have hreach : Machine.Reach (step cfg) (fun _ a => a.fails = false) (State.init cfg records) s :=
    Machine.Reach.init.append_run as (fun a ha _ => hok a ha) hrun
  refine hreach.invariant (I := fun s => Lossless cfg records s ∧ Faultless cfg s)
    ⟨lossless_init, faultless_init⟩ ?_
  rintro s a s' ⟨hlossless, hfaultless⟩ hfails h
  exact ⟨hlossless.step h, hfaultless.step hlossless hfails h⟩

/-- A file for which nothing goes wrong is processed completely, under every schedule: when there is nothing left to
do, all tasks are through with their inputs, exactly the expected records have been published, the completion signal
and the mark carry the parser's count, and the call has returned `Ok`. -/
theorem processed_of_maximal (cfg : Config α) (records : List α) (as : List Action) (s : State α)
    (hrun : Machine.run (step cfg) (State.init cfg records) as = some s) (hok : ∀ a ∈ as, a.fails = false)
    (hmax : ∀ a, a.fails = false → step cfg s a = none) :
    s.main = .returned true ∧ (∀ k ≤ cfg.publisher, s.status k = .drained) ∧
      (publishedIn s.log).flatten = cfg.expected records ∧
      .fileComplete records.length true ∈ s.log ∧ .fileCompleted records.length ∈ s.log := by
  obtain ⟨hlossless, hfaultless⟩ := faultless_run hrun hok
  have hstuck : ¬Enabled cfg s := by
    rintro ⟨a, hfails, hsome⟩
    rw [hmax a hfails] at hsome
    exact Bool.false_ne_true hsome
  have hreturned : ∃ ok, s.main = .returned ok := by
    by_contra hno
    push Not at hno
    exact hstuck (enabled_of_not_returned hno (run_inRange hrun))
  obtain ⟨ok, hmain⟩ := hreturned
  obtain rfl := hfaultless.returned ok hmain
  have hended : ∀ k ≤ cfg.publisher, s.status k ≠ .running := fun k hk hr => hstuck (enabled_of_running hk hr)
  have hall : ∀ k ≤ cfg.publisher, (s.status k).ok = true := fun k hk => hfaultless.ok (hended k hk)
  obtain ⟨hpublished, -⟩ := hlossless.published hall
  obtain ⟨total, hsent, hmarked⟩ := hfaultless.marked (.inr (.inr hmain))
  obtain ⟨pre, post, hlog⟩ := List.append_of_mem hsent
  have hreports := reportsPublished_of_reachable (.of_run as hrun)
  obtain ⟨-, rfl⟩ := hreports pre _ post total hlog rfl
  exact ⟨hmain, fun k hk => hlossless.drained hall hk, hpublished, hsent, hmarked⟩

/-- Every schedule comes to such an end. -/
theorem smallConfig_processed : ∃ as s, Machine.run (step smallConfig) (State.init smallConfig [1, 0]) as = some s ∧
    s.main = .returned true ∧ (publishedIn s.log).flatten = [22] := by
  obtain ⟨as, s, hrun, hok, hmax⟩ := Machine.exists_maximal lowers_rank.pays (fun a => a.fails = false)
    (fun _ _ => ⟨trivial, rfl⟩) (@inRange_init _ smallConfig [1, 0])
  obtain ⟨hmain, -, hpublished, -⟩ := processed_of_maximal smallConfig [1, 0] as s hrun hok hmax
  exact ⟨as, s, hrun, hmain, hpublished⟩

end DiscogsIngestion.Pipeline
