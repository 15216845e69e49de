import DiscogsIngestion.Parser.Isolation

/-!
# Dumps with damaged records

* `Record`, `Damage`, `Item`, `Dump` : a root element with records at depth 2, at most 100 of them
  damaged, each error at a fresh position;
* `XmlParser.Isolates` : exactly the undamaged records are sent, each when its last event is read;
* `XmlParser.Recovers` : no damaged record leads the loop astray, as a condition on the dump alone;
* `XmlParser.isolates_iff_recovers` : the one holds exactly when the other does.
-/

namespace DiscogsIngestion

inductive Filler where
  | chars (c : CharData)
  | misc
  deriving DecidableEq, Repr

def Filler.event : Filler → Event
  | chars c => .chars c
  | misc => .misc

/-- A record: its attributes, and its content unless it is self-closing. -/
structure Record where
  attributes : List (Option Attr)
  content : Option Forest
  deriving DecidableEq, Repr

namespace Record

variable (p : XmlParser)

def tag (r : Record) : BytesStart := ⟨p.target, r.attributes⟩

@[simp] theorem tag_name (r : Record) : (r.tag p).name = p.target := rfl

def children (r : Record) : Forest := r.content.getD .nil

def events (r : Record) : List Event :=
  match r.content with
  | some f => .start (r.tag p) :: (f.events ++ [.endTag p.target])
  | none => [.empty (r.tag p)]

/-- The message for the record: its recursive conversion, if that is an object. -/
def message (r : Record) : Option DataMessage :=
  match r.content with
  | some f => p.closedRecord (f.valueOf (r.tag p))
  | none => p.emptyRecord (r.tag p)

end Record

/-- One recoverable error inside a record of `size` events, after the first `delivered` of them. It may
consume the event at which it is found, such as a mismatched end tag. -/
structure Damage (size : Nat) where
  error : IllFormedError
  position : Nat
  delivered : Nat
  consumed : Bool
  started : 0 < delivered
  unfinished : delivered < size

/-- A record of a dump with what stands before it. -/
structure Item (p : XmlParser) where
  filler : List Filler
  record : Record
  damage : Option (Damage (record.events p).length)

namespace Item

variable {p : XmlParser}

/-- What the reader returns while it is in the record. -/
def recordStream (it : Item p) : List ReadResult :=
  match it.damage with
  | none => (it.record.events p).map .event
  | some d =>
    ((it.record.events p).take d.delivered).map .event ++ .error (.illFormed d.error) d.position ::
      ((it.record.events p).drop (d.delivered + d.consumed.toNat)).map .event

def stream (it : Item p) : List ReadResult := it.filler.map (fun x => .event x.event) ++ it.recordStream

def position (it : Item p) : Option Nat := it.damage.map Damage.position

/-- What is to be sent in each iteration: the record's message at its last event if it is undamaged. -/
def expected (it : Item p) : List (List DataMessage) :=
  match it.damage with
  | none => List.replicate (it.stream.length - 1) [] ++ [(it.record.message p).toList]
  | some _ => List.replicate it.stream.length []

/-- What the loop sends after the error, once it has found the target's name again inside the record. -/
def strays (it : Item p) (d : Damage (it.record.events p).length) : Option (List DataMessage) :=
  let at_ := d.delivered + d.consumed.toNat - 1
  if at_ ≤ it.record.children.size then
    (it.record.children.after at_).1.strays p (it.record.children.after at_).2
  else none

end Item

/-- A dump: a root element whose depth-2 elements are records, at most 100 of them damaged, each error at
a position that the reader has not reported before. -/
structure Dump (p : XmlParser) where
  prolog : List Filler
  root : BytesStart
  items : List (Item p)
  tail : List Filler
  epilog : List Filler
  budget : (items.filterMap Item.position).length ≤ maxMalformedRecordsPerFile
  fresh : (u64Max :: items.filterMap Item.position).Nodup

namespace Dump

variable {p : XmlParser}

def head (d : Dump p) : List ReadResult :=
  d.prolog.map (fun x => .event x.event) ++ [.event (.start d.root)]

def foot (d : Dump p) : List ReadResult :=
  d.tail.map (fun x => .event x.event) ++ .event (.endTag d.root.name) ::
    d.epilog.map (fun x => .event x.event)

def stream (d : Dump p) : List ReadResult := d.head ++ d.items.flatMap Item.stream ++ d.foot

def undamaged (d : Dump p) : List DataMessage :=
  (d.items.filter fun it => it.damage.isNone).filterMap fun it => it.record.message p

/-- What is to be sent in each iteration. -/
def expected (d : Dump p) : List (List DataMessage) :=
  List.replicate d.head.length [] ++ d.items.flatMap Item.expected ++ List.replicate d.foot.length []

end Dump

namespace XmlParser

variable {p : XmlParser}

/-- Fault isolation: `parse_file` succeeds, sends the messages of the undamaged records and no others, and
sends each in the iteration that reads the record's last event. -/
structure Isolates (p : XmlParser) (d : Dump p) : Prop where
  ok : ∃ n, (p.parseFile alive (some d.stream)).1 = .ok n
  messages : (p.parseFile alive (some d.stream)).2 = d.undamaged
  inPlace : p.trace {} d.stream = d.expected

/-- The records of a dump, read one after the other. While the loop is astray (its depth is one too low)
an undamaged record must convert to no object, and no child of it may pass for a record. An error ends
that. After one, no element of the same record that then passes for a record may convert to an object. -/
def Recovers (p : XmlParser) : Bool → List (Item p) → Prop
  | _, [] => True
  | astray, it :: rest =>
    match it.damage with
    | none =>
      (astray = true → it.record.message p = none ∧ it.record.children.records p 1 = []) ∧
        Recovers p astray rest
    | some d =>
      (astray = true → (it.record.children.whole (d.delivered - 1)).records p 1 = []) ∧
        match it.strays d with
        | none => Recovers p false rest
        | some sent => sent = [] ∧ Recovers p true rest

/-! ## Traces -/

theorem flatten_eq_nil_iff_replicate {α : Type} {l : List (List α)} {n : Nat} (h : l.length = n) :
    l = List.replicate n [] ↔ l.flatten = [] := by
  rw [List.eq_replicate_iff, List.flatten_eq_nil_iff]
  exact ⟨fun hl => hl.2, fun hl => ⟨h, hl⟩⟩

theorem trace_eq_replicate_iff {s s' : ParseState} {rs : List ReadResult} {sent : List DataMessage}
    (h : p.Runs s rs s' sent) : p.trace s rs = List.replicate rs.length [] ↔ sent = [] := by
  obtain ⟨hlen, hflat⟩ := trace_of_runs h
  rw [flatten_eq_nil_iff_replicate hlen, hflat]

theorem trace_silent {s s' : ParseState} {rs : List ReadResult} (h : p.Runs s rs s' []) :
    p.trace s rs = List.replicate rs.length [] := (trace_eq_replicate_iff h).mpr rfl

/-- A run that sends something at its last event only. -/
theorem trace_last {s mid s' : ParseState} {rs : List ReadResult} {r : ReadResult} {sent : List DataMessage}
    (h : p.Runs s rs mid []) (hstep : p.step alive mid r = .next s' sent) :
    p.trace s (rs ++ [r]) = List.replicate rs.length [] ++ [sent] := by
  rw [trace_append h, trace_silent h]
  simp [trace, hstep]

theorem length_expected (it : Item p) : it.expected.length = it.stream.length := by
  have hpos : 0 < it.recordStream.length := by
    unfold Item.recordStream
    cases it.damage with
    | none => cases hc : it.record.content <;> simp [Record.events, hc]
    | some d =>
      simp only [List.length_append, List.length_cons]
      omega
  unfold Item.expected
  cases it.damage with
  | none =>
    simp only [List.length_append, List.length_replicate, List.length_singleton]
    unfold Item.stream
    simp only [List.length_append, List.length_map]
    omega
  | some d => simp

/-! ## Between two records -/

/-- Outside a record or lost: character data and comments pass without effect. -/
def Quiet (s : ParseState) : Prop := (∃ d, s.Outside d) ∨ s.Lost

theorem step_filler {s : ParseState} (h : Quiet s) (x : Filler) :
    p.step alive s (.event x.event) = .next s [] := by
  cases x with
  | misc => exact step_misc s
  | chars c =>
    rcases h with ⟨d, hd⟩ | hl
    · exact step_chars_outside hd c
    · exact step_resyncing hl.resyncing rfl

theorem runs_filler (xs : List Filler) {s : ParseState} (h : Quiet s) :
    p.Runs s (xs.map fun x => .event x.event) s [] := by
  induction xs with
  | nil => exact Runs.nil s
  | cons x xs ih => exact Runs.silent (step_filler h x) ih

/-- Where the loop stands before a record: at depth 1 or lost, or astray at depth 0. -/
def Boundary (astray : Bool) (s : ParseState) : Prop :=
  if astray then s.Outside 0 else s.Outside 1 ∨ s.Lost

theorem Boundary.quiet {astray : Bool} {s : ParseState} (h : Boundary astray s) : Quiet s := by
  cases astray with
  | true => exact Or.inl ⟨0, h⟩
  | false =>
    rcases h with h | h
    · exact Or.inl ⟨1, h⟩
    · exact Or.inr h

/-! ## One record -/

/-- A record that begins where the loop expects one, or is the first tag a lost loop accepts. -/
theorem enter_record {s : ParseState} (h : Boundary false s) {tag : BytesStart} (htag : tag.name = p.target)
    (rs : List ReadResult) :
    ∃ s₁ : ParseState, s₁.Outside 1 ∧ s₁.errors = s.errors ∧
      (∀ e, e = Event.start tag ∨ e = Event.empty tag →
        ∀ s' sent, p.Runs s₁ (.event e :: rs) s' sent → p.Runs s (.event e :: rs) s' sent) := by
  rcases h with h | h
  · exact ⟨s, h, rfl, fun e _ s' sent hrun => hrun⟩
  · refine ⟨{ s with resyncing := false, depth := 1 }, ⟨h.target, rfl, rfl⟩, rfl, fun e he s' sent hrun => ?_⟩
    refine runs_reanchored h.resyncing ?_ hrun
    rcases he with rfl | rfl <;> simp [isTarget, htag]

/-- An undamaged record read in step: its message goes out with its last event. -/
theorem undamaged_in_step (r : Record) {s : ParseState} (h : Boundary false s) :
    ∃ init last mid s', r.events p = init ++ [last] ∧ p.Runs s (init.map .event) mid [] ∧
      p.step alive mid (.event last) = .next s' (r.message p).toList ∧ s'.Outside 1 ∧ s'.errors = s.errors := by
  cases hc : r.content with
  | some f =>
    obtain ⟨s₁, h₁, e₁, hback⟩ := enter_record h (r.tag_name p) f.stream
    obtain ⟨mid, s', hrun, hstep, hout, e⟩ := runs_record h₁ (r.tag_name p) f
    refine ⟨.start (r.tag p) :: f.events, .endTag p.target, mid, s', by simp [Record.events, hc], ?_, ?_, hout,
      e.trans e₁⟩
    · exact hback _ (Or.inl rfl) _ _ hrun
    · simpa [Record.message, hc, Record.tag] using hstep
  | none =>
    obtain ⟨s₁, h₁, e₁, hback⟩ := enter_record h (r.tag_name p) []
    obtain ⟨s', hstep, hout, e⟩ := step_empty_record h₁ (r.tag_name p)
    refine ⟨[], .empty (r.tag p), s, s', by simp [Record.events, hc], Runs.nil s, ?_, hout, e.trans e₁⟩
    have hrun := hback _ (Or.inr rfl) _ _ (Runs.one hstep)
    obtain ⟨mid, now, later, hstep', ⟨rfl, rfl⟩, hsent⟩ := hrun
    rw [hstep', Record.message, hc, hsent, List.append_nil]

/-- An undamaged record read astray: instead of its message the loop sends those of its children that pass
for records, all before the last event. -/
theorem undamaged_astray (r : Record) {s : ParseState} (h : s.Outside 0) :
    ∃ init last mid s', r.events p = init ++ [last] ∧
      p.Runs s (init.map .event) mid (r.children.records p 1) ∧
      p.step alive mid (.event last) = .next s' [] ∧ s'.Outside 0 ∧ s'.errors = s.errors := by
  have hzero : ¬((0 : Nat) = 1 ∧ (r.tag p).name = p.target) := by simp
  cases hc : r.content with
  | some f =>
    obtain ⟨s₁, hstep₁, h₁, e₁⟩ := step_start_outside (p := p) h hzero
    obtain ⟨s₂, hrun₂, h₂, e₂⟩ := runs_outside (p := p) f h₁
    obtain ⟨s₃, hstep₃, h₃, e₃⟩ := step_end_outside (p := p) h₂ p.target
    refine ⟨.start (r.tag p) :: f.events, .endTag p.target, s₂, s₃, by simp [Record.events, hc], ?_, hstep₃, h₃,
      by rw [e₃, e₂, e₁]⟩
    simpa [Record.children, hc, Forest.stream] using Runs.silent hstep₁ hrun₂
  | none =>
    obtain ⟨s₁, hstep₁, h₁, e₁⟩ := step_empty_outside (p := p) h hzero
    refine ⟨[], .empty (r.tag p), s, s₁, by simp [Record.events, hc], ?_, hstep₁, h₁, e₁⟩
    simpa [Record.children, hc, Forest.records] using Runs.nil s

theorem damaged_before (r : Record) {astray : Bool} {s : ParseState} (h : Boundary astray s) {n : Nat}
    (hpos : 0 < n) (hlt : n < (r.events p).length) :
    ∃ s' sent, p.Runs s (((r.events p).take n).map .event) s' sent ∧ s'.errors = s.errors ∧
      (sent = [] ↔ (astray = true → (r.children.whole (n - 1)).records p 1 = [])) := by
  cases hc : r.content with
  | none => simp [Record.events, hc] at hlt; omega
  | some f =>
    obtain ⟨k, rfl⟩ : ∃ k, n = k + 1 := ⟨n - 1, by omega⟩
    have hk : k ≤ f.events.length := by simp [Record.events, hc] at hlt; omega
    have htake : ((r.events p).take (k + 1)).map ReadResult.event =
        .event (.start (r.tag p)) :: f.stream.take k := by
      simp [Record.events, hc, List.take_append_of_le_length hk, Forest.stream, List.map_take]
    rw [htake]
    cases astray with
    | false =>
      obtain ⟨s₁, h₁, e₁, hback⟩ := enter_record h (r.tag_name p) (f.stream.take k)
      obtain ⟨s₂, hstep₂, h₂, e₂⟩ := step_start_record h₁ (r.tag_name p)
      obtain ⟨s₃, hrun₃, e₃⟩ := runs_inside_take (p := p) f k h₂ le_rfl
      exact ⟨s₃, [], hback _ (Or.inl rfl) _ _ (Runs.silent hstep₂ hrun₃), by rw [e₃, e₂, e₁], by simp⟩
    | true =>
      obtain ⟨s₁, hstep₁, h₁, e₁⟩ := step_start_outside h (show ¬(0 = 1 ∧ (r.tag p).name = p.target) by simp)
      obtain ⟨s₂, hrun₂, e₂⟩ := runs_outside_take (p := p) f k h₁ le_rfl
      exact ⟨s₂, _, Runs.silent hstep₁ hrun₂, e₂.trans e₁, by simp [Record.children, hc]⟩

theorem damaged_after (it : Item p) (d : Damage (it.record.events p).length) {s : ParseState} (h : s.Lost) :
    ∃ s', p.Runs s (((it.record.events p).drop (d.delivered + d.consumed.toNat)).map .event) s'
        ((it.strays d).getD []) ∧
      Boundary (it.strays d).isSome s' ∧ s'.errors = s.errors := by
  cases hc : it.record.content with
  | none =>
    have hlt := d.unfinished
    have hpos := d.started
    simp [Record.events, hc] at hlt
    omega
  | some f =>
    obtain ⟨k, hk⟩ : ∃ k, d.delivered = k + 1 := ⟨d.delivered - 1, by have := d.started; omega⟩
    have hdrop : (it.record.events p).drop (d.delivered + d.consumed.toNat) =
        (f.events ++ [Event.endTag p.target]).drop (k + d.consumed.toNat) := by
      rw [hk, show k + 1 + d.consumed.toNat = (k + d.consumed.toNat) + 1 by omega]
      simp [Record.events, hc]
    have hat : d.delivered + d.consumed.toNat - 1 = k + d.consumed.toNat := by omega
    rw [hdrop]
    unfold Item.strays
    rw [hat, show it.record.children = f by simp [Record.children, hc]]
    by_cases hle : k + d.consumed.toNat ≤ f.size
    · rw [if_pos hle, List.drop_append_of_le_length hle, f.drop_events]
      obtain ⟨s', hrun, hmode, e⟩ :=
        runs_lost_record (p := p) (f.after (k + d.consumed.toNat)).1 (f.after (k + d.consumed.toNat)).2 h p.target
      refine ⟨s', hrun, ?_, e⟩
      unfold Boundary
      split_ifs at hmode ⊢ with hs
      · exact hmode
      · exact Or.inr hmode
    · have hnil : (f.events ++ [Event.endTag p.target]).drop (k + d.consumed.toNat) = [] := by
        rw [List.drop_eq_nil_iff]
        have : f.events.length < k + d.consumed.toNat := not_le.mp hle
        simpa [Nat.succ_le_iff] using this
      rw [if_neg hle, hnil]
      exact ⟨s, Runs.nil s, Or.inr h, rfl⟩

/-- The error arm while the budget lasts and the reader has moved on. -/
theorem step_error {s : ParseState} (e : ReaderError) {position : Nat} (hfresh : s.lastErrorPosition ≠ position)
    (hbudget : s.malformedRecords + 1 ≤ maxMalformedRecordsPerFile) :
    ∃ s', p.step alive s (.error e position) = .next s' [] ∧ s'.Lost ∧
      s'.errors = (s.malformedRecords + 1, position) := by
  refine ⟨{ s with
    malformedRecords := s.malformedRecords + 1, lastErrorPosition := position, elementStack := [],
    inTargetElement := false, resyncing := true }, ?_, ⟨rfl, rfl⟩, rfl⟩
  simp [step, onError, Ne.symm hfresh, not_lt.mpr hbudget]

/-! ## The whole dump -/

theorem undamaged_split (it : Item p) (hd : it.damage = none) {init : List Event} {last : Event}
    (hev : it.record.events p = init ++ [last]) :
    it.stream = it.filler.map (fun x => .event x.event) ++ (init.map .event ++ [.event last]) ∧
      it.expected =
        List.replicate it.filler.length [] ++
          (List.replicate init.length [] ++ [(it.record.message p).toList]) := by
  have hstream : it.stream = it.filler.map (fun x => .event x.event) ++ (init.map .event ++ [.event last]) := by
    simp [Item.stream, Item.recordStream, hd, hev]
  refine ⟨hstream, ?_⟩
  simp [Item.expected, hd, hstream, ← List.append_assoc, List.replicate_append_replicate]

/-- What reading one item gives: the state before the next one, and whether the trace is as expected. -/
theorem item_runs (it : Item p) {astray : Bool} {s : ParseState} (h : Boundary astray s)
    (hbudget : s.malformedRecords + it.position.toList.length ≤ maxMalformedRecordsPerFile)
    (hfresh : ∀ q ∈ it.position, s.lastErrorPosition ≠ q) :
    ∃ s' sent, p.Runs s it.stream s' sent ∧
      s'.malformedRecords = s.malformedRecords + it.position.toList.length ∧
      s'.lastErrorPosition = it.position.getD s.lastErrorPosition ∧
      match it.damage with
      | none =>
        Boundary astray s' ∧ (p.trace s it.stream = it.expected ↔
          (astray = true → it.record.message p = none ∧ it.record.children.records p 1 = []))
      | some d =>
        Boundary (it.strays d).isSome s' ∧ (p.trace s it.stream = it.expected ↔
          (astray = true → (it.record.children.whole (d.delivered - 1)).records p 1 = []) ∧
            (it.strays d).getD [] = []) := by
  have hfiller := runs_filler (p := p) it.filler h.quiet
  have htrace := trace_silent hfiller
  cases hd : it.damage with
  | none =>
    have hpos : it.position = none := by simp [Item.position, hd]
    simp only [hpos, Option.toList_none, List.length_nil, Nat.add_zero, Option.getD_none]
    cases astray with
    | false =>
      obtain ⟨init, last, mid, s', hev, hrun, hstep, hout, e⟩ := undamaged_in_step (p := p) it.record h
      obtain ⟨hstream, hexp⟩ := undamaged_split it hd hev
      have hall := hfiller.append (hrun.append (Runs.one hstep))
      refine ⟨s', _, hstream ▸ hall, congrArg Prod.fst e, congrArg Prod.snd e, Or.inl hout, ?_⟩
      rw [hexp, hstream, trace_append hfiller, htrace, trace_last hrun hstep]
      simp
    | true =>
      obtain ⟨init, last, mid, s', hev, hrun, hstep, hout, e⟩ := undamaged_astray (p := p) it.record h
      obtain ⟨hstream, hexp⟩ := undamaged_split it hd hev
      have hall := hfiller.append (hrun.append (Runs.one hstep))
      refine ⟨s', _, hstream ▸ hall, congrArg Prod.fst e, congrArg Prod.snd e, hout, ?_⟩
      have hinit := trace_eq_replicate_iff hrun
      rw [hexp, hstream, trace_append hfiller, htrace, trace_append hrun]
      simp only [List.length_map] at hinit ⊢
      rw [List.append_cancel_left_eq]
      constructor
      · intro heq _
        have hlen : (p.trace s (init.map .event)).length =
            (List.replicate init.length ([] : List DataMessage)).length := by
          rw [(trace_of_runs hrun).1]; simp
        obtain ⟨h₁, h₂⟩ := List.append_inj heq hlen
        refine ⟨?_, hinit.mp h₁⟩
        simp only [trace, hstep, List.cons.injEq, and_true] at h₂
        exact Option.toList_eq_nil_iff.mp h₂.symm
      · intro hq
        obtain ⟨hm, hr⟩ := hq trivial
        rw [hinit.mpr hr, hm]
        simp [trace, hstep]
  | some d =>
    have hpos : it.position = some d.position := by simp [Item.position, hd]
    simp only [hpos, Option.toList_some, List.length_singleton, Option.mem_def, Option.some.injEq, forall_eq',
      Option.getD_some] at hbudget hfresh ⊢
    obtain ⟨s₁, sent₁, hrun₁, e₁, hsent₁⟩ := damaged_before it.record h d.started d.unfinished
    have hfresh₁ : s₁.lastErrorPosition ≠ d.position := by
      rw [show s₁.lastErrorPosition = s.lastErrorPosition from congrArg Prod.snd e₁]; exact hfresh
    have hbudget₁ : s₁.malformedRecords + 1 ≤ maxMalformedRecordsPerFile := by
      rw [show s₁.malformedRecords = s.malformedRecords from congrArg Prod.fst e₁]; exact hbudget
    obtain ⟨s₂, hstep₂, hlost, e₂⟩ := step_error (p := p) (.illFormed d.error) hfresh₁ hbudget₁
    obtain ⟨s₃, hrun₃, hmode, e₃⟩ := damaged_after it d hlost
    have hstream : it.stream = it.filler.map (fun x => .event x.event) ++
        (((it.record.events p).take d.delivered).map .event ++ .error (.illFormed d.error) d.position ::
          ((it.record.events p).drop (d.delivered + d.consumed.toNat)).map .event) := by
      simp [Item.stream, Item.recordStream, hd]
    have hall := hfiller.append (hrun₁.append (Runs.silent hstep₂ hrun₃))
    rw [← hstream] at hall
    refine ⟨s₃, _, hall, ?_, ?_, hmode, ?_⟩
    · rw [show s₃.malformedRecords = s₁.malformedRecords + 1 from (congrArg Prod.fst e₃).trans (congrArg Prod.fst e₂),
        show s₁.malformedRecords = s.malformedRecords from congrArg Prod.fst e₁]
    · exact (congrArg Prod.snd e₃).trans (congrArg Prod.snd e₂)
    · rw [show it.expected = List.replicate it.stream.length [] by simp [Item.expected, hd],
        trace_eq_replicate_iff hall, ← hsent₁]
      simp

theorem items_run (items : List (Item p)) {astray : Bool} {s : ParseState} (h : Boundary astray s)
    (hbudget : s.malformedRecords + (items.filterMap Item.position).length ≤ maxMalformedRecordsPerFile)
    (hfresh : (s.lastErrorPosition :: items.filterMap Item.position).Nodup) :
    ∃ s' sent, p.Runs s (items.flatMap Item.stream) s' sent ∧ Quiet s' ∧
      (p.trace s (items.flatMap Item.stream) = items.flatMap Item.expected ↔ p.Recovers astray items) := by
  induction items generalizing astray s with
  | nil => exact ⟨s, [], Runs.nil s, h.quiet, by simp [trace, Recovers]⟩
  | cons it rest ih =>
    have hsplit : (it :: rest).filterMap Item.position = it.position.toList ++ rest.filterMap Item.position := by
      cases hp : it.position <;> simp [hp]
    rw [hsplit, List.length_append] at hbudget
    rw [hsplit] at hfresh
    have hne : ∀ q ∈ it.position, s.lastErrorPosition ≠ q := by
      intro q hq heq
      have hmem : q ∈ it.position.toList ++ rest.filterMap Item.position :=
        List.mem_append_left _ (Option.mem_toList.mpr hq)
      exact (List.nodup_cons.mp hfresh).1 (heq ▸ hmem)
    obtain ⟨s₁, sent₁, hrun₁, hmal₁, hlast₁, hrest⟩ := item_runs it h (by omega) hne
    have hbudget₁ : s₁.malformedRecords + (rest.filterMap Item.position).length ≤ maxMalformedRecordsPerFile := by
      omega
    have hfresh₁ : (s₁.lastErrorPosition :: rest.filterMap Item.position).Nodup := by
      rw [hlast₁]
      cases hp : it.position with
      | none => simpa [hp] using hfresh
      | some q => exact (List.nodup_cons.mp (by simpa [hp] using hfresh)).2
    have hlen : (p.trace s it.stream).length = it.expected.length := by
      rw [(trace_of_runs hrun₁).1, length_expected]
    -- the trace splits at the end of the item, where the expectation splits too
    have hcut : ∀ tail, p.trace s it.stream ++ tail = it.expected ++ rest.flatMap Item.expected ↔
        p.trace s it.stream = it.expected ∧ tail = rest.flatMap Item.expected :=
      fun tail => ⟨fun heq => List.append_inj heq hlen, fun heq => by rw [heq.1, heq.2]⟩
    cases hd : it.damage with
    | none =>
      simp only [hd] at hrest
      obtain ⟨hb₁, htrace₁⟩ := hrest
      obtain ⟨s₂, sent₂, hrun₂, hq, htrace₂⟩ := ih hb₁ hbudget₁ hfresh₁
      refine ⟨s₂, _, hrun₁.append hrun₂, hq, ?_⟩
      rw [List.flatMap_cons, List.flatMap_cons, trace_append hrun₁, hcut, htrace₁, htrace₂, Recovers]
      simp only [hd]
    | some d =>
      simp only [hd] at hrest
      obtain ⟨hb₁, htrace₁⟩ := hrest
      obtain ⟨s₂, sent₂, hrun₂, hq, htrace₂⟩ := ih hb₁ hbudget₁ hfresh₁
      refine ⟨s₂, _, hrun₁.append hrun₂, hq, ?_⟩
      rw [List.flatMap_cons, List.flatMap_cons, trace_append hrun₁, hcut, htrace₁, htrace₂, Recovers]
      simp only [hd]
      cases hs : it.strays d with
      | none => simp
      | some sent => simp [and_assoc]

theorem expected_flatten (d : Dump p) : d.expected.flatten = d.undamaged := by
  have hitems : ∀ items : List (Item p), (items.flatMap Item.expected).flatten =
      (items.filter fun it => it.damage.isNone).filterMap fun it => it.record.message p := by
    intro items
    induction items with
    | nil => rfl
    | cons it rest ih =>
      rw [List.flatMap_cons, List.flatten_append, ih]
      cases hd : it.damage with
      | none => cases hm : it.record.message p <;> simp [Item.expected, hd, hm]
      | some _ => simp [Item.expected, hd]
  simp [Dump.expected, Dump.undamaged, hitems]

/-- The loop reads a dump to its end, and its trace is as expected exactly if it is never led astray. -/
theorem dump_runs (d : Dump p) :
    ∃ s sent, p.Runs {} d.stream s sent ∧ (p.trace {} d.stream = d.expected ↔ p.Recovers false d.items) := by
  have hinit : ParseState.Outside {} 0 := ⟨rfl, rfl, rfl⟩
  have hprolog := runs_filler (p := p) d.prolog (Or.inl ⟨0, hinit⟩)
  obtain ⟨s₁, hstep₁, h₁, e₁⟩ :=
    step_start_outside hinit (show ¬(0 = 1 ∧ d.root.name = p.target) by simp)
  have hhead : p.Runs {} d.head s₁ [] := hprolog.append (Runs.one hstep₁)
  have hmal : s₁.malformedRecords = 0 := congrArg Prod.fst e₁
  have hlast : s₁.lastErrorPosition = u64Max := congrArg Prod.snd e₁
  obtain ⟨s₂, sent, hrun₂, hq₂, htrace⟩ := items_run d.items (show Boundary false s₁ from Or.inl h₁)
    (by rw [hmal, Nat.zero_add]; exact d.budget) (by rw [hlast]; exact d.fresh)
  have htail := runs_filler (p := p) d.tail hq₂
  have hend : ∃ s₃, p.step alive s₂ (.event (.endTag d.root.name)) = .next s₃ [] ∧ Quiet s₃ := by
    rcases hq₂ with ⟨n, hout⟩ | hlost
    · obtain ⟨s₃, hstep₃, h₃, -⟩ := step_end_outside (p := p) hout d.root.name
      exact ⟨s₃, hstep₃, Or.inl ⟨n - 1, h₃⟩⟩
    · exact ⟨s₂, step_resyncing hlost.resyncing rfl, Or.inr hlost⟩
  obtain ⟨s₃, hstep₃, hq₃⟩ := hend
  have hfoot : p.Runs s₂ d.foot s₃ [] := htail.append (Runs.silent hstep₃ (runs_filler d.epilog hq₃))
  refine ⟨s₃, _, (hhead.append hrun₂).append hfoot, ?_⟩
  rw [← htrace, Dump.stream, trace_append (hhead.append hrun₂), trace_append hhead, trace_silent hhead,
    trace_silent hfoot, Dump.expected]
  simp

theorem isolates_iff_trace (d : Dump p) : p.Isolates d ↔ p.trace {} d.stream = d.expected := by
  obtain ⟨s, sent, hrun, -⟩ := dump_runs d
  have hparse := parseEvents_of_runs hrun []
  rw [List.append_nil] at hparse
  refine ⟨Isolates.inPlace, fun h => ⟨⟨s.recordCount, congrArg Prod.fst hparse⟩, ?_, h⟩⟩
  rw [← expected_flatten, ← h]
  exact (trace_flatten _ _).symm

/-! ## Fault isolation -/

/-- The loop is not led astray if no target tag follows an error inside the damaged record. -/
theorem recovers_of_no_strays {items : List (Item p)}
    (h : ∀ it ∈ items, ∀ d, it.damage = some d → it.strays d = none) : p.Recovers false items := by
  induction items with
  | nil => trivial
  | cons it rest ih =>
    have hrest := ih fun it' hit => h it' (List.mem_cons_of_mem _ hit)
    unfold Recovers
    cases hd : it.damage with
    | none => exact ⟨nofun, hrest⟩
    | some d =>
      refine ⟨nofun, ?_⟩
      rw [h it List.mem_cons_self d hd]
      exact hrest

/-- An undamaged dump is sent record by record. -/
theorem isolates_of_undamaged (d : Dump p) (h : ∀ it ∈ d.items, it.damage = none) : p.Isolates d := by
  obtain ⟨-, -, -, hiff⟩ := dump_runs d
  refine (isolates_iff_trace d).mpr (hiff.mpr (recovers_of_no_strays fun it hit d hd => ?_))
  rw [h it hit] at hd
  exact absurd hd (by simp)

/-- **Fault isolation**: it holds exactly for the dumps whose damaged records do not lead the loop astray. -/
theorem isolates_iff_recovers (d : Dump p) : p.Isolates d ↔ p.Recovers false d.items := by
  obtain ⟨-, -, -, hiff⟩ := dump_runs d
  exact (isolates_iff_trace d).trans hiff

/-! ## A label with sublabels

`<labels><label><name>A</nam><sublabels><label id="2">B</label></sublabels></label><label><id>9</id></label>
</labels>` -/

def plainTag (name : String) : BytesStart := ⟨name, []⟩

def labelParser : XmlParser := ⟨.labels, false⟩

/-- The first record's name is closed by the wrong end tag; its sublabel follows. -/
def misnamedLabel : Record where
  attributes := []
  content := some <|
    .elem (plainTag "name") (.chars (.text "A") .nil) <|
    .elem (plainTag "sublabels")
      (.elem ⟨"label", [some ⟨"id", "2", some "2"⟩]⟩ (.chars (.text "B") .nil) .nil) .nil

def intactLabel : Record where
  attributes := []
  content := some (.elem (plainTag "id") (.chars (.text "9") .nil) .nil)

def sublabelDump : Dump labelParser where
  prolog := []
  root := plainTag "labels"
  items :=
    [⟨[], misnamedLabel, some ⟨.mismatchedEndTag, 23, 3, true, by decide, by decide⟩⟩, ⟨[], intactLabel, none⟩]
  tail := []
  epilog := []
  budget := by decide
  fresh := by decide

/-- The sublabel is sent as a record, and the intact record that follows is not. -/
theorem sublabelDump_not_isolated : ¬labelParser.Isolates sublabelDump := by
  intro h
  have hids := congrArg (List.map DataMessage.id) h.messages
  exact absurd hids (by decide)

end XmlParser

end DiscogsIngestion
