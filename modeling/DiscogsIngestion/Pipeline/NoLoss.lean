import DiscogsIngestion.Pipeline.Step

/-!
# No silent loss

A file is reported as complete only when every parsed record that no skip condition matched has been
published, once and in parse order.

* `State.flow` : all that has been or can still be published, in order;
* `step_flow` : a step keeps it, unless the publisher drops a batch and fails;
* `Lossless` : why a channel closes early only behind a stage that has failed;
* `reported_only_if_published` : the completion signal and the mark in the state marker come after the
  publication of exactly the expected records;
* `counted_of_reachable` : the batcher counts the expected records, the parser all of them.
-/

namespace DiscogsIngestion.Pipeline

variable {α : Type} {cfg : Config α} {records : List α} {s s' : State α} {a : Action}

/-! ## The records under way -/

/-- What stage `k + 1` is still going to receive. -/
def State.inflow (cfg : Config α) (s : State α) : Nat → List α
  | 0 => s.chan 0 ++ s.todo
  | k + 1 => s.chan (k + 1) ++ ((s.held (k + 1)).toList ++ (s.inflow cfg k).filterMap (cfg.transform (k + 1)))

/-- The published records, followed by those that the batcher has received. -/
def State.batched (s : State α) : List α :=
  (publishedIn s.log).flatten ++
    (s.publishing.getD [] ++ (s.batchChan.flatten ++ (s.sending.getD [] ++ s.batch)))

/-- All that has been or can still be published, in order. -/
def State.flow (cfg : Config α) (s : State α) : List α := s.batched ++ s.inflow cfg cfg.n

theorem inflow_congr {k : Nat} (htodo : s'.todo = s.todo) (hchan : ∀ j ≤ k, s'.chan j = s.chan j)
    (hheld : ∀ j ≤ k, s'.held j = s.held j) : s'.inflow cfg k = s.inflow cfg k := by
  induction k with
  | zero => simp only [State.inflow, htodo, hchan 0 le_rfl]
  | succ k ih =>
    simp only [State.inflow, hchan (k + 1) le_rfl, hheld (k + 1) le_rfl,
      ih (fun j hj => hchan j (by omega)) (fun j hj => hheld j (by omega))]

/-- What agrees at one stage, and behind it stage by stage, agrees at the last. -/
theorem inflow_congr_of_le {j k : Nat} (hjk : j ≤ k) (h : s'.inflow cfg j = s.inflow cfg j)
    (hchan : ∀ i, j < i → s'.chan i = s.chan i) (hheld : ∀ i, j < i → s'.held i = s.held i) :
    s'.inflow cfg k = s.inflow cfg k := by
  induction k, hjk using Nat.le_induction with
  | base => exact h
  | succ k hk ih => simp only [State.inflow, hchan (k + 1) (by omega), hheld (k + 1) (by omega), ih]

/-- The first record of a channel is the first of its inflow. -/
theorem inflow_of_chan {k : Nat} {m : α} {rest : List α} (hm : s.chan k = m :: rest)
    (htodo : s'.todo = s.todo) (hk : s'.chan k = rest) (hchan : ∀ j < k, s'.chan j = s.chan j)
    (hheld : ∀ j ≤ k, s'.held j = s.held j) : s.inflow cfg k = m :: s'.inflow cfg k := by
  cases k with
  | zero => simp only [State.inflow, hm, hk, htodo, List.cons_append]
  | succ k =>
    have hprev : s'.inflow cfg k = s.inflow cfg k :=
      inflow_congr htodo (fun j hj => hchan j (by omega)) (fun j hj => hheld j (by omega))
    simp only [State.inflow, hm, hk, hheld (k + 1) le_rfl, hprev, List.cons_append]

/-! ## What is expected -/

theorem inflow_init (k : Nat) :
    (State.init cfg records).inflow cfg k =
      ((List.range k).foldl (fun l j => l.filterMap (cfg.transform (j + 1))) records) := by
  induction k with
  | zero => rfl
  | succ k ih =>
    rw [List.range_succ, List.foldl_append, ← ih]
    rfl

theorem filterMap_validator (rules : Rules α) :
    records.filterMap (Config.validator rules) =
      (records.filter fun m => !rules.shouldSkip m).map rules.applyFilters := by
  induction records with
  | nil => rfl
  | cons m rest ih => cases hskip : rules.shouldSkip m <;> simp [Config.validator, hskip, ih]

theorem filterMap_normalizer : records.filterMap cfg.normalizer = records.map cfg.normalize :=
  congrFun (List.filterMap_eq_map (f := cfg.normalize)) records

theorem flow_init : (State.init cfg records).flow cfg = cfg.expected records := by
  have hflow : (State.init cfg records).flow cfg = (State.init cfg records).inflow cfg cfg.n := rfl
  rw [hflow, inflow_init]
  cases hrules : cfg.rules with
  | none =>
    have hn : cfg.n = 1 := by simp [Config.n, Config.transforms, hrules]
    have h1 : cfg.transform 1 = cfg.normalizer := by simp [Config.transform, Config.transforms, hrules]
    rw [hn, List.range_one, List.foldl_cons, List.foldl_nil, h1, filterMap_normalizer]
    simp only [Config.expected, hrules]
  | some rules =>
    have hn : cfg.n = 2 := by simp [Config.n, Config.transforms, hrules]
    have h1 : cfg.transform 1 = Config.validator rules := by simp [Config.transform, Config.transforms, hrules]
    have h2 : cfg.transform 2 = cfg.normalizer := by simp [Config.transform, Config.transforms, hrules]
    rw [hn, show List.range 2 = [0, 1] from rfl, List.foldl_cons, List.foldl_cons, List.foldl_nil, h1, h2,
      filterMap_validator, filterMap_normalizer]
    simp only [Config.expected, hrules]

/-! ## One step -/

@[simp] theorem publishedIn_append (log log' : List (Event α)) :
    publishedIn (log ++ log') = publishedIn log ++ publishedIn log' := List.filterMap_append

theorem batcherTake_batched (m : α) (saved : Bool) (hs : s.sending = none) :
    (batcherTake cfg s m saved).batched = s.batched ++ [m] := by
  simp only [batcherTake, State.checkpoint, State.record, State.batched]
  split <;> split <;> simp [hs, publishedIn]

theorem inflow_receive {k : Nat} {m : α} {rest : List α} (hn : k < cfg.n) (hchan : s.chan k = m :: rest)
    (hheld : s.held (k + 1) = none) :
    ((s.setChan k rest).setHeld (k + 1) (cfg.transform (k + 1) m)).inflow cfg cfg.n = s.inflow cfg cfg.n := by
  set s' := (s.setChan k rest).setHeld (k + 1) (cfg.transform (k + 1) m)
  have hfirst : s.inflow cfg k = m :: s'.inflow cfg k :=
    inflow_of_chan hchan rfl (Function.update_self ..)
      (fun j hj => Function.update_of_ne (by omega) ..) (fun j hj => Function.update_of_ne (by omega) ..)
  refine inflow_congr_of_le (j := k + 1) hn ?_ (fun i hi => Function.update_of_ne (by omega) ..)
    (fun i hi => Function.update_of_ne (by omega) ..)
  have hc : s'.chan (k + 1) = s.chan (k + 1) := Function.update_of_ne (by omega) ..
  have hh : s'.held (k + 1) = cfg.transform (k + 1) m := Function.update_self ..
  simp only [State.inflow, hc, hh, hheld, hfirst]
  cases htr : cfg.transform (k + 1) m <;> simp [htr]

theorem inflow_forward {k : Nat} {m : α} (hn : k < cfg.n) (hheld : s.held (k + 1) = some m) :
    ((s.setHeld (k + 1) none).setChan (k + 1) (s.chan (k + 1) ++ [m])).inflow cfg cfg.n = s.inflow cfg cfg.n := by
  set s' := (s.setHeld (k + 1) none).setChan (k + 1) (s.chan (k + 1) ++ [m])
  have hprev : s'.inflow cfg k = s.inflow cfg k :=
    inflow_congr rfl (fun j hj => Function.update_of_ne (by omega) ..)
      (fun j hj => Function.update_of_ne (by omega) ..)
  refine inflow_congr_of_le (j := k + 1) hn ?_ (fun i hi => Function.update_of_ne (by omega) ..)
    (fun i hi => Function.update_of_ne (by omega) ..)
  have hc : s'.chan (k + 1) = s.chan (k + 1) ++ [m] := Function.update_self ..
  have hh : s'.held (k + 1) = none := Function.update_self ..
  simp [State.inflow, hc, hh, hheld, hprev]

theorem inflow_parserSend {m : α} {rest : List α} (htodo : s.todo = m :: rest) (count : Nat) :
    ({ (s.setChan 0 (s.chan 0 ++ [m])) with todo := rest, recordCount := count } : State α).inflow cfg cfg.n =
      s.inflow cfg cfg.n := by
  refine inflow_congr_of_le (Nat.zero_le _) ?_ (fun i hi => Function.update_of_ne (by omega) ..) (fun _ _ => rfl)
  simp [State.inflow, State.setChan, htodo]

/-- A step that only moves batches keeps the flow if it keeps their order. -/
theorem flow_congr (hbatched : s'.batched = s.batched) (htodo : s'.todo = s.todo) (hchan : s'.chan = s.chan)
    (hheld : s'.held = s.held) : s'.flow cfg = s.flow cfg := by
  have hinflow : s'.inflow cfg cfg.n = s.inflow cfg cfg.n :=
    inflow_congr htodo (fun j _ => congrFun hchan j) (fun j _ => congrFun hheld j)
  rw [State.flow, State.flow, hbatched, hinflow]

/-- A step keeps the flow, unless the publisher drops a batch and fails. -/
theorem step_flow (h : step cfg s a = some s') :
    s'.flow cfg = s.flow cfg ∨ s'.status cfg.publisher = .err := by
  cases Step.of_step h with
  | parserSend htodo => exact .inl (congrArg (s.batched ++ ·) (inflow_parserSend htodo _))
  | receive hn _ hchan hheld => exact .inl (congrArg (s.batched ++ ·) (inflow_receive hn hchan hheld))
  | forward hn _ _ hheld => exact .inl (congrArg (s.batched ++ ·) (inflow_forward hn hheld))
  | @batcherReceive m rest saved hchan _ hs =>
    obtain ⟨-, htodo, -, hchan', hheld, -⟩ :=
      @batcherTake_frame _ cfg (s.setChan cfg.n rest) m saved
    have hfirst : s.inflow cfg cfg.n = m :: (batcherTake cfg (s.setChan cfg.n rest) m saved).inflow cfg cfg.n :=
      inflow_of_chan hchan htodo (by rw [hchan']; exact Function.update_self ..)
        (fun j hj => by rw [hchan']; exact Function.update_of_ne (by omega) ..) (fun j _ => congrFun hheld j)
    have hbatched : (s.setChan cfg.n rest).batched = s.batched := rfl
    left
    rw [State.flow, State.flow, hfirst, batcherTake_batched m saved (by exact hs), hbatched, List.append_assoc,
      List.singleton_append]
  | batcherFlush _ hs => exact .inl (flow_congr (by simp [State.batched, hs]) rfl rfl rfl)
  | batcherEnd _ hs =>
    refine .inl (flow_congr ?_ rfl rfl rfl)
    cases hb : s.batch <;> simp [State.batched, hs, hb]
  | batcherSend hs => exact .inl (flow_congr (by simp [State.batched, hs]) rfl rfl rfl)
  | batcherFinish saved => exact .inl (flow_congr (by simp [State.batched, State.checkpoint, State.record,
      State.setStatus, publishedIn]) rfl rfl rfl)
  | publisherTake hchan _ hpub =>
    exact .inl (flow_congr (by simp [State.batched, State.record, publishedIn, hchan, hpub]) rfl rfl rfl)
  | publisherSettled hpub =>
    exact .inl (flow_congr (by simp [State.batched, State.record, publishedIn, hpub]) rfl rfl rfl)
  | publisherFailed => exact .inr (Function.update_self ..)
  | fileCompleteSent | fileCompleteFailed | completeFile | close | «return» =>
    exact .inl (flow_congr (by simp [State.batched, State.record, publishedIn]) rfl rfl rfl)
  | _ => exact .inl (flow_congr rfl rfl rfl rfl)

theorem batcherTake_log (m : α) (saved : Bool) :
    ∃ events, (batcherTake cfg s m saved).log = s.log ++ events ∧ ∀ e ∈ events, e.reports = none := by
  simp only [batcherTake, State.checkpoint, State.record]
  split <;> split <;> simp [Event.reports]

/-- What a step appends to the log. Only the call reports the file, and only while it completes it. -/
theorem step_log (h : step cfg s a = some s') :
    ∃ events, s'.log = s.log ++ events ∧ ((∀ e ∈ events, e.reports = none) ∨
      publishedIn events = [] ∧ ∀ e ∈ events, ∀ total, e.reports = some total →
        s.main = .completing total ∨ s.main = .marking total) := by
  cases Step.of_step h with
  | batcherReceive saved =>
    obtain ⟨events, hlog, hnone⟩ := @batcherTake_log _ cfg (s.setChan cfg.n _) _ saved
    exact ⟨events, hlog, .inl hnone⟩
  | batcherFinish => exact ⟨_, List.append_assoc .., .inl (by simp [Event.reports])⟩
  | publisherTake | publisherSettled | publisherFailed | close | «return» =>
    exact ⟨[_], rfl, .inl (by simp [Event.reports])⟩
  | fileCompleteSent hmain | fileCompleteFailed hmain =>
    exact ⟨[_], rfl, .inr ⟨rfl, by simp [Event.reports, hmain]⟩⟩
  | completeFile _ hmain =>
    exact ⟨_, List.append_assoc .., .inr ⟨rfl, by simp [Event.reports, hmain]⟩⟩
  | _ => exact ⟨[], (List.append_nil _).symm, .inl (by simp)⟩

/-! ## Why channels close early -/

/-- What relates the stages of a call. -/
structure Lossless (cfg : Config α) (records : List α) (s : State α) : Prop where
  ended : ∀ k, s.status k ≠ .running → Ends cfg s k (s.status k)
  /-- A stage that has ended before the one ahead of it was done has failed or is itself cut off. -/
  early : ∀ k, s.status k = .running ∨ s.status k = .cut → s.status (k + 1) ≠ .running →
    s.status (k + 1) ≠ .drained
  inputEnded : s.inputEnded = true → s.batch = [] ∧ s.chan cfg.n = [] ∧ s.status cfg.n ≠ .running
  count : s.recordCount + s.todo.length = records.length
  flow : s.flow cfg = cfg.expected records ∨ s.status cfg.publisher = .err

theorem lossless_init : Lossless cfg records (State.init cfg records) where
  ended _ h := absurd rfl h
  early _ _ h := absurd rfl h
  inputEnded h := nomatch h
  count := Nat.zero_add _
  flow := .inl flow_init

theorem step_inputEnded (h : step cfg s a = some s') (hI : s.inputEnded = true → s.batch = [] ∧
    s.chan cfg.n = [] ∧ s.status cfg.n ≠ .running) (he : s'.inputEnded = true) :
    s'.batch = [] ∧ s.chan cfg.n = [] ∧ s.status cfg.n ≠ .running := by
  cases Step.of_step h with
  | batcherReceive _ _ _ _ hend =>
    rw [(batcherTake_frame ..).2.2.2.2.2.2.2.2] at he
    exact absurd (hend.symm.trans he) Bool.false_ne_true
  | batcherFlush _ _ hend => exact absurd (hend.symm.trans he) Bool.false_ne_true
  | batcherEnd _ _ _ hchan hprev => exact ⟨rfl, hchan, hprev⟩
  | _ => exact hI he

theorem Lossless.step (hI : Lossless cfg records s) (h : step cfg s a = some s') : Lossless cfg records s' where
  ended k hk := by
    by_cases hrun : s.status k = .running
    · obtain hs | ⟨j, t, -, hs, hends⟩ := step_status h
      · rw [hs] at hk
        exact absurd hrun hk
      · by_cases hkj : k = j
        · subst hkj
          rwa [hs, Function.update_self]
        · rw [hs, Function.update_of_ne hkj] at hk
          exact absurd hrun hk
    · rw [step_status_of_ended h hrun]
      exact step_ends h hrun (hI.ended k hrun)
  early k hk hnext := by
    by_cases hrun : s.status (k + 1) = .running
    · obtain hs | ⟨j, t, -, hs, hends⟩ := step_status h
      · rw [hs] at hnext
        exact absurd hrun hnext
      · obtain rfl : k + 1 = j := by
          by_contra hne
          rw [hs, Function.update_of_ne hne] at hnext
          exact hnext hrun
        have hprev : s'.status k = s.status k := by rw [hs, Function.update_of_ne (by omega)]
        -- the stage ahead was not cut off, since its receiver was still there
        have hahead : s'.status k = .running := by
          refine hk.resolve_right fun hc => ?_
          have hends := hI.ended k (by simp [← hprev, hc])
          rw [← hprev, hc] at hends
          cases hends with
          | cut _ hnext' => exact hnext' hrun
        rw [hs, Function.update_self]
        rintro rfl
        refine hends.ahead (fun hend => ?_) hahead
        have hended := (step_inputEnded h hI.inputEnded hend).2.2
        rwa [step_status_of_ended h hended]
    · rw [step_status_of_ended h hrun]
      refine hI.early k ?_ hrun
      by_cases hprev : s.status k = .running
      · exact .inl hprev
      · rwa [step_status_of_ended h hprev] at hk
  inputEnded he := by
    obtain ⟨hbatch, hchan, hprev⟩ := step_inputEnded h hI.inputEnded he
    exact ⟨hbatch, step_chan h hprev hchan, by rwa [step_status_of_ended h hprev]⟩
  count := (step_count h).trans hI.count
  flow := by
    obtain hflow | herr := step_flow h
    · obtain hold | herr := hI.flow
      · exact .inl (hflow.trans hold)
      · exact .inr ((step_status_of_ended h (by simp [herr])).trans herr)
    · exact .inr herr

/-- A stage that was cut off has a stage behind it that failed, so when none failed none was cut off. -/
theorem Lossless.drained (hI : Lossless cfg records s) (hok : ∀ k ≤ cfg.publisher, (s.status k).ok = true)
    {k : Nat} (hk : k ≤ cfg.publisher) : s.status k = .drained := by
  have hcut : ∀ d j, j + d = cfg.publisher → s.status j ≠ .cut := by
    intro d
    induction d with
    | zero =>
      intro j hj hc
      have hends := hI.ended j (by simp [hc])
      rw [hc] at hends
      cases hends with
      | cut hn => rw [Config.publisher_eq] at hj; omega
    | succ d ih =>
      intro j hj hc
      have hnext := (Status.ok_iff _).1 (hok (j + 1) (by omega))
      have hearly : s.status (j + 1) ≠ .drained :=
        hI.early j (.inr hc) (by rcases hnext with h | h <;> simp [h])
      exact ih (j + 1) (by omega) (hnext.resolve_left hearly)
  exact ((Status.ok_iff _).1 (hok k hk)).resolve_right (hcut (cfg.publisher - k) k (by omega))

/-- When no stage failed, nothing is under way to the batcher. -/
theorem Lossless.inflow (hI : Lossless cfg records s) (hok : ∀ k ≤ cfg.publisher, (s.status k).ok = true) :
    s.inflow cfg cfg.n = [] := by
  have hends {k : Nat} (hk : k ≤ cfg.publisher) : Ends cfg s k .drained := by
    have hd := hI.drained hok hk
    exact hd ▸ hI.ended k (by simp [hd])
  have hlast := (hI.inputEnded (hends (Nat.le_succ cfg.batcher)).sending.1).2.1
  have hchan : ∀ k ≤ cfg.n, s.chan k = [] := fun k hk => by
    obtain hlt | rfl := Nat.lt_or_eq_of_le hk
    · exact ((hends (k := k + 1) (by rw [Config.publisher_eq]; omega)).held_chan hlt).2
    · exact hlast
  suffices hinflow : ∀ k ≤ cfg.n, s.inflow cfg k = [] from hinflow _ le_rfl
  intro k hk
  induction k with
  | zero => simp [State.inflow, hchan 0 hk, (hends (Nat.zero_le _)).todo]
  | succ k ih =>
    have hheld := ((hends (k := k + 1) (by rw [Config.publisher_eq]; omega)).held_chan hk).1
    simp [State.inflow, hchan (k + 1) hk, hheld, ih (Nat.le_of_succ_le hk)]

/-- When no stage failed, all that was parsed has been published. -/
theorem Lossless.published (hI : Lossless cfg records s) (hok : ∀ k ≤ cfg.publisher, (s.status k).ok = true) :
    (publishedIn s.log).flatten = cfg.expected records ∧ s.recordCount = records.length := by
  have hends {k : Nat} (hk : k ≤ cfg.publisher) : Ends cfg s k .drained := by
    have hd := hI.drained hok hk
    exact hd ▸ hI.ended k (by simp [hd])
  obtain ⟨hend, hsend⟩ := (hends (Nat.le_succ cfg.batcher)).sending
  obtain ⟨hpub, hbatches⟩ := (hends le_rfl).batchChan
  have hbatch := (hI.inputEnded hend).1
  constructor
  · have hflow := hI.flow.resolve_right (by simp [hI.drained hok le_rfl])
    rw [← hflow, State.flow, hI.inflow hok]
    simp [State.batched, hpub, hbatches, hsend, hbatch]
  · have hcount := hI.count
    rwa [(hends (Nat.zero_le _)).todo] at hcount

/-! ## Reports -/

/-- Whatever event reports the file as complete, the expected records were published before it. -/
def ReportsPublished (cfg : Config α) (records : List α) (log : List (Event α)) : Prop :=
  ∀ pre e post total, log = pre ++ e :: post → e.reports = some total →
    (publishedIn pre).flatten = cfg.expected records ∧ total = records.length

theorem step_reports (h : step cfg s a = some s') (hL : Lossless cfg records s) (hK : s.main.Knows cfg s)
    (hI : ReportsPublished cfg records s.log) : ReportsPublished cfg records s'.log := by
  obtain ⟨events, hlog, hevents⟩ := step_log h
  intro pre e post total hsplit hrep
  rw [hlog] at hsplit
  obtain ⟨rest, hold, -⟩ | ⟨mid, rfl, hmid⟩ := Machine.split_append hsplit
  · exact hI pre e rest total hold hrep
  · have hmem : e ∈ events := by simp [hmid]
    obtain hnone | ⟨hquiet, hmain⟩ := hevents
    · simp [hnone e hmem] at hrep
    · rw [hmid, publishedIn_append] at hquiet
      have hdone : (∀ k ≤ cfg.publisher, (s.status k).ok = true) ∧ total = s.recordCount := by
        obtain hm | hm := hmain e hmem total hrep <;> rw [hm] at hK <;> exact hK
      obtain ⟨hpub, hcount⟩ := hL.published hdone.1
      rw [publishedIn_append, (List.append_eq_nil_iff.1 hquiet).1, List.append_nil]
      exact ⟨hpub, hdone.2.trans hcount⟩

theorem reportsPublished_of_reachable (h : Reachable cfg records s) : ReportsPublished cfg records s.log := by
  have hinv : Lossless cfg records s ∧ s.main.Knows cfg s ∧ ReportsPublished cfg records s.log := by
    refine h.invariant (I := fun s => Lossless cfg records s ∧ s.main.Knows cfg s ∧
      ReportsPublished cfg records s.log) ⟨lossless_init, knows_init, ?_⟩ fun s a s' ⟨hL, hK, hR⟩ _ h =>
      ⟨hL.step h, step_knows h hK, step_reports h hL hK hR⟩
    intro pre e post total hsplit
    simp [State.init] at hsplit
  exact hinv.2.2

/-- `send_file_complete` is called, and the file marked Completed, only when exactly the records that no skip
condition matched have been published, each filtered, normalized and hashed, once and in parse order; the
count reported is the parser's. -/
theorem reported_only_if_published (cfg : Config α) (records : List α) (s : State α)
    (hs : Reachable cfg records s) (pre post : List (Event α)) (e : Event α) (total : Nat)
    (hlog : s.log = pre ++ e :: post) (he : e.reports = some total) :
    (publishedIn pre).flatten = cfg.expected records ∧ total = records.length := by
  exact reportsPublished_of_reachable hs pre e post total hlog he

/-! ## The batcher's count -/

def Config.skips (cfg : Config α) (m : α) : Bool := cfg.rules.any (·.shouldSkip m)

theorem length_expected : (cfg.expected records).length = (records.filter fun m => !cfg.skips m).length := by
  cases hrules : cfg.rules with
  | none => simp [Config.expected, Config.skips, hrules]
  | some rules => simp [Config.expected, Config.skips, hrules]

theorem batcherTake_totalRecords (m : α) (saved : Bool) :
    (batcherTake cfg s m saved).totalRecords = s.totalRecords + 1 := by
  simp only [batcherTake, State.checkpoint, State.record]
  split <;> split <;> rfl

/-- What the batcher has counted and what is under way to it make up the same number after a step. -/
theorem step_totalRecords (h : step cfg s a = some s') :
    s'.totalRecords + (s'.inflow cfg cfg.n).length = s.totalRecords + (s.inflow cfg cfg.n).length := by
  have hsame : s'.totalRecords = s.totalRecords → s'.inflow cfg cfg.n = s.inflow cfg cfg.n →
      s'.totalRecords + (s'.inflow cfg cfg.n).length = s.totalRecords + (s.inflow cfg cfg.n).length :=
    fun htotal hinflow => by rw [htotal, hinflow]
  cases Step.of_step h with
  | parserSend htodo => exact hsame rfl (inflow_parserSend htodo _)
  | receive hn _ hchan hheld => exact hsame rfl (inflow_receive hn hchan hheld)
  | forward hn _ _ hheld => exact hsame rfl (inflow_forward hn hheld)
  | @batcherReceive m rest saved hchan _ hs =>
    obtain ⟨-, htodo, -, hchan', hheld, -⟩ := @batcherTake_frame _ cfg (s.setChan cfg.n rest) m saved
    have hfirst : s.inflow cfg cfg.n = m :: (batcherTake cfg (s.setChan cfg.n rest) m saved).inflow cfg cfg.n :=
      inflow_of_chan hchan htodo (by rw [hchan']; exact Function.update_self ..)
        (fun j hj => by rw [hchan']; exact Function.update_of_ne (by omega) ..) (fun j _ => congrFun hheld j)
    have htotal : (s.setChan cfg.n rest).totalRecords = s.totalRecords := rfl
    rw [hfirst, batcherTake_totalRecords, htotal, List.length_cons]
    omega
  | _ => exact hsame rfl (inflow_congr rfl (fun _ _ => rfl) (fun _ _ => rfl))

/-- The batcher counts no more records than are expected, and when a call has found no failure it has counted them
all, and the parser all that there are. -/
theorem counted_of_reachable (h : Reachable cfg records s) : s.totalRecords ≤ (cfg.expected records).length ∧
    ∀ total, s.main = .completing total →
      s.totalRecords = (cfg.expected records).length ∧ total = records.length := by
  have hinv : (Lossless cfg records s ∧ s.main.Knows cfg s) ∧
      s.totalRecords + (s.inflow cfg cfg.n).length = (cfg.expected records).length := by
    refine h.invariant (I := fun s => (Lossless cfg records s ∧ s.main.Knows cfg s) ∧
      s.totalRecords + (s.inflow cfg cfg.n).length = (cfg.expected records).length)
      ⟨⟨lossless_init, knows_init⟩, ?_⟩ fun s a s' ⟨⟨hL, hK⟩, hcount⟩ _ h =>
      ⟨⟨hL.step h, step_knows h hK⟩, (step_totalRecords h).trans hcount⟩
    rw [← flow_init]
    exact Nat.zero_add _
  obtain ⟨⟨hL, hK⟩, hcount⟩ := hinv
  refine ⟨by omega, fun total hmain => ?_⟩
  rw [hmain] at hK
  rw [hL.inflow hK.1] at hcount
  exact ⟨hcount, hK.2.trans (hL.published hK.1).2⟩

/-- Zero is skipped, the rest shifted and doubled, through channels of one record. -/
def smallConfig : Config Nat where
  rules := some ⟨(· == 0), (· + 10)⟩
  normalize := (2 * ·)
  queueSize := 1
  batchSize := 2
  stateSaveInterval := 1
  queueSize_pos := Nat.one_pos
  batchSize_pos := by decide
  stateSaveInterval_pos := Nat.one_pos

/-- A run on a record and a zero: the record is still on its way when the zero is skipped. -/
def smallRun : List Action :=
  [.parserSend, .receive 1, .forward 1, .parserSend, .receive 1, .parserEof, .drain 1, .receive 2, .forward 2,
    .drain 2, .batcherReceive true, .batcherEnd, .batcherSend, .publisherTake, .publisherSettle true,
    .batcherFinish true, .publisherDrain, .join, .sendFileComplete true]

theorem smallRun_published :
    (publishedIn [.progressUpdated 1 0, .markerSaved true, .channelObtained, .published [22] true,
      .progressUpdated 1 1, .markerSaved true]).flatten = smallConfig.expected [1, 0] ∧ 2 = [1, 0].length :=
  reported_only_if_published smallConfig [1, 0] _ (Machine.Reach.of_run smallRun rfl) _ []
    (.fileComplete 2 true) 2 rfl rfl

/-- Before that, the batcher has counted the one record, and the parser both. -/
theorem smallRun_counted : ∃ s, Reachable smallConfig [1, 0] s ∧ s.main = .completing 2 ∧
    s.totalRecords = (smallConfig.expected [1, 0]).length := by
  have hrun : (Machine.run (step smallConfig) (State.init smallConfig [1, 0]) smallRun.dropLast).any
      (fun s => s.main = .completing 2) = true := by decide
  obtain ⟨s, hs, hmain⟩ := (Option.any_eq_true ..).1 hrun
  have hreach : Reachable smallConfig [1, 0] s := .of_run _ hs
  have hcompleting : s.main = .completing 2 := of_decide_eq_true hmain
  exact ⟨s, hreach, hcompleting, ((counted_of_reachable hreach).2 2 hcompleting).1⟩

end DiscogsIngestion.Pipeline
