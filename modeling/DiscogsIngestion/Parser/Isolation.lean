import DiscogsIngestion.Parser.Forest

/-!
# Damaged records

The loop on a forest in which the reader reports an error.

* `Forest.whole`, `Forest.after` : what lies before and after a place in a forest;
* `Forest.anchor` : where a resynchronizing loop finds the target's name again;
* `runs_inside_take`, `runs_outside_take` : the loop reads a forest up to such a place;
* `runs_lost_record` : after an error it reads what is left of a record.
-/

namespace DiscogsIngestion

/-! ## Breaking off inside a forest -/

namespace Forest

def size (f : Forest) : Nat := f.events.length

theorem length_stream (f : Forest) : f.stream.length = f.size := by simp [stream, size]

/-- The leading nodes whose events all lie among the first `n`. -/
def whole : Forest → Nat → Forest
  | nil, _ => nil
  | elem tag children rest, n =>
    if children.size + 2 ≤ n then elem tag children (rest.whole (n - (children.size + 2))) else nil
  | empty _ _, 0 => nil
  | empty tag rest, n + 1 => empty tag (rest.whole n)
  | chars _ _, 0 => nil
  | chars c rest, n + 1 => chars c (rest.whole n)
  | misc _, 0 => nil
  | misc rest, n + 1 => misc (rest.whole n)

/-- What remains after the first `n` events: the rest of the innermost open element, and for every
enclosing one its name and the siblings that follow it, from the inside out. -/
def after : Forest → Nat → Forest × List (String × Forest)
  | nil, _ => (nil, [])
  | elem tag children rest, 0 => (elem tag children rest, [])
  | elem tag children rest, n + 1 =>
    if n ≤ children.size then ((children.after n).1, (children.after n).2 ++ [(tag.name, rest)])
    else rest.after (n - (children.size + 1))
  | empty tag rest, 0 => (empty tag rest, [])
  | empty _ rest, n + 1 => rest.after n
  | chars c rest, 0 => (chars c rest, [])
  | chars _ rest, n + 1 => rest.after n
  | misc rest, 0 => (misc rest, [])
  | misc rest, n + 1 => rest.after n

/-- The events of the enclosing elements' ends and the siblings that follow them. -/
def outerEvents (outer : List (String × Forest)) : List Event :=
  outer.flatMap fun level => .endTag level.1 :: level.2.events

theorem take_stream_elem (tag : BytesStart) (children rest : Forest) (n : Nat) :
    (elem tag children rest).stream.take (n + 1) =
      .event (.start tag) ::
        (if n ≤ children.size then children.stream.take n
          else children.stream ++ .event (.endTag tag.name) :: rest.stream.take (n - (children.size + 1))) := by
  have hstream : (elem tag children rest).stream =
      .event (.start tag) :: (children.stream ++ .event (.endTag tag.name) :: rest.stream) := by
    simp [stream, events]
  rw [hstream, List.take_succ_cons]
  split_ifs with hn
  · rw [List.take_append_of_le_length (by rwa [length_stream])]
  · have hsub : n - children.stream.length = (n - (children.size + 1)) + 1 := by
      rw [length_stream]; omega
    rw [List.take_append, List.take_of_length_le (by rw [length_stream]; omega), hsub, List.take_succ_cons]

theorem drop_events (f : Forest) (n : Nat) :
    f.events.drop n = (f.after n).1.events ++ outerEvents (f.after n).2 := by
  induction f generalizing n with
  | nil => simp [events, after, outerEvents]
  | elem tag children rest ihc ihr =>
    cases n with
    | zero => simp [after, outerEvents]
    | succ n =>
      simp only [events, List.drop_succ_cons, after]
      split_ifs with hn
      · have hlen : n ≤ children.events.length := hn
        rw [List.drop_append_of_le_length hlen, ihc n]
        simp [outerEvents]
      · have hlen : children.events.length ≤ n := by unfold size at hn; omega
        have hsub : n - children.events.length = (n - (children.size + 1)) + 1 := by
          unfold size at hn ⊢; omega
        rw [List.drop_append, List.drop_eq_nil_of_le hlen, List.nil_append, hsub, List.drop_succ_cons, ihr]
  | empty tag rest ih => cases n <;> simp [events, after, outerEvents, ih]
  | chars c rest ih => cases n <;> simp [events, after, outerEvents, ih]
  | misc rest ih => cases n <;> simp [events, after, outerEvents, ih]

/-- The first tag with the target's name: the siblings from it on, and the siblings that follow the
elements around it, from the inside out. -/
def anchor (p : XmlParser) : Forest → Option (Forest × List Forest)
  | nil => none
  | elem tag children rest =>
    if tag.name = p.target then some (elem tag children rest, [])
    else
      match children.anchor p with
      | some (found, outer) => some (found, outer ++ [rest])
      | none => rest.anchor p
  | empty tag rest => if tag.name = p.target then some (empty tag rest, []) else rest.anchor p
  | chars _ rest => rest.anchor p
  | misc rest => rest.anchor p

/-- What a resynchronizing loop sends over the rest of a forest and of the elements around it: nothing
if the target's name does not occur. Otherwise its first tag counts as depth 2, and every end tag that
follows lowers the depth, to 0 at most. -/
def strays (p : XmlParser) : Forest → List (String × Forest) → Option (List DataMessage)
  | f, outer =>
    match f.anchor p with
    | some (found, inner) =>
      some (found.records p 1 ++ (inner ++ outer.map Prod.snd).flatMap (records p 0))
    | none =>
      match outer with
      | [] => none
      | (_, next) :: outer => strays p next outer

end Forest

namespace XmlParser

variable {p : XmlParser}

theorem runs_inside_take (f : Forest) (n : Nat) {s : ParseState} {ctx : ElementContext}
    {stack : List ElementContext} {d : Nat} (h : s.Inside ctx stack d) (hd : 2 ≤ d) :
    ∃ s', p.Runs s (f.stream.take n) s' [] ∧ s'.errors = s.errors := by
  induction f generalizing n s ctx stack d with
  | nil => exact ⟨s, by simpa [Forest.stream, Forest.events] using Runs.nil s, rfl⟩
  | elem tag children rest ihc ihr =>
    cases n with
    | zero => exact ⟨s, by simpa using Runs.nil s, rfl⟩
    | succ n =>
      obtain ⟨s₁, hstep₁, h₁, e₁⟩ := step_start_inside (p := p) h hd tag
      rw [Forest.take_stream_elem]
      split_ifs with hn
      · obtain ⟨s₂, hrun₂, e₂⟩ := ihc n h₁ (by omega)
        exact ⟨s₂, Runs.silent hstep₁ hrun₂, e₂.trans e₁⟩
      · obtain ⟨s₂, hrun₂, h₂, e₂⟩ := runs_inside (p := p) children h₁ (by omega)
        obtain ⟨s₃, hstep₃, h₃, e₃⟩ := step_end_inside (p := p) h₂ hd tag.name
        obtain ⟨s₄, hrun₄, e₄⟩ := ihr (n - (children.size + 1)) h₃ hd
        exact ⟨s₄, Runs.silent hstep₁ (hrun₂.append (Runs.silent hstep₃ hrun₄)), by rw [e₄, e₃, e₂, e₁]⟩
  | empty tag rest ih =>
    cases n with
    | zero => exact ⟨s, by simpa using Runs.nil s, rfl⟩
    | succ n =>
      obtain ⟨s₁, hstep₁, h₁, e₁⟩ := step_empty_inside (p := p) h hd tag
      obtain ⟨s₂, hrun₂, e₂⟩ := ih n h₁ hd
      exact ⟨s₂, Runs.silent hstep₁ hrun₂, e₂.trans e₁⟩
  | chars c rest ih =>
    cases n with
    | zero => exact ⟨s, by simpa using Runs.nil s, rfl⟩
    | succ n =>
      obtain ⟨s₁, hstep₁, h₁, e₁⟩ := step_chars_inside (p := p) h c
      obtain ⟨s₂, hrun₂, e₂⟩ := ih n h₁ hd
      exact ⟨s₂, Runs.silent hstep₁ hrun₂, e₂.trans e₁⟩
  | misc rest ih =>
    cases n with
    | zero => exact ⟨s, by simpa using Runs.nil s, rfl⟩
    | succ n =>
      obtain ⟨s₂, hrun₂, e₂⟩ := ih n h hd
      exact ⟨s₂, Runs.silent (step_misc s) hrun₂, e₂⟩

theorem runs_outside_take (f : Forest) (n : Nat) {s : ParseState} {d : Nat} (h : s.Outside d) (hd : 1 ≤ d) :
    ∃ s', p.Runs s (f.stream.take n) s' ((f.whole n).records p d) ∧ s'.errors = s.errors := by
  induction f generalizing n s d with
  | nil => exact ⟨s, by simpa [Forest.stream, Forest.events, Forest.whole, Forest.records] using Runs.nil s, rfl⟩
  | elem tag children rest ihc ihr =>
    cases n with
    | zero => exact ⟨s, by simpa [Forest.whole, Forest.records] using Runs.nil s, rfl⟩
    | succ n =>
      rw [Forest.take_stream_elem]
      by_cases hn : n ≤ children.size
      · rw [if_pos hn, Forest.whole, if_neg (by omega)]
        by_cases hrec : d = 1 ∧ tag.name = p.target
        · obtain ⟨rfl, htag⟩ := hrec
          obtain ⟨s₁, hstep₁, h₁, e₁⟩ := step_start_record h htag
          obtain ⟨s₂, hrun₂, e₂⟩ := runs_inside_take (p := p) children n h₁ le_rfl
          exact ⟨s₂, Runs.silent hstep₁ hrun₂, e₂.trans e₁⟩
        · obtain ⟨s₁, hstep₁, h₁, e₁⟩ := step_start_outside h hrec
          obtain ⟨s₂, hrun₂, e₂⟩ := ihc n h₁ (by omega)
          rw [Forest.records_deep p _ (by omega : 2 ≤ d + 1)] at hrun₂
          exact ⟨s₂, Runs.silent hstep₁ hrun₂, e₂.trans e₁⟩
      · rw [if_neg hn, Forest.whole, if_pos (by omega)]
        have hsub : n + 1 - (children.size + 2) = n - (children.size + 1) := by omega
        rw [hsub]
        by_cases hrec : d = 1 ∧ tag.name = p.target
        · obtain ⟨rfl, htag⟩ := hrec
          obtain ⟨mid, s₁, hrun₁, hstep₁, h₁, e₁⟩ := runs_record h htag children
          obtain ⟨s₂, hrun₂, e₂⟩ := ihr (n - (children.size + 1)) h₁ le_rfl
          refine ⟨s₂, ?_, e₂.trans e₁⟩
          simpa [Forest.records, htag] using hrun₁.append (Runs.cons hstep₁ hrun₂)
        · obtain ⟨s₁, hstep₁, h₁, e₁⟩ := step_start_outside h hrec
          obtain ⟨s₂, hrun₂, h₂, e₂⟩ := runs_outside (p := p) children h₁
          obtain ⟨s₃, hstep₃, h₃, e₃⟩ := step_end_outside (p := p) h₂ tag.name
          obtain ⟨s₄, hrun₄, e₄⟩ := ihr (d := d) (n - (children.size + 1)) h₃ hd
          refine ⟨s₄, ?_, by rw [e₄, e₃, e₂, e₁]⟩
          simpa [Forest.records, hrec] using
            Runs.silent hstep₁ (hrun₂.append (Runs.silent hstep₃ hrun₄))
  | empty tag rest ih =>
    cases n with
    | zero => exact ⟨s, by simpa [Forest.whole, Forest.records] using Runs.nil s, rfl⟩
    | succ n =>
      by_cases hrec : d = 1 ∧ tag.name = p.target
      · obtain ⟨rfl, htag⟩ := hrec
        obtain ⟨s₁, hstep₁, h₁, e₁⟩ := step_empty_record h htag
        obtain ⟨s₂, hrun₂, e₂⟩ := ih n h₁ le_rfl
        refine ⟨s₂, ?_, e₂.trans e₁⟩
        simpa [Forest.stream, Forest.events, Forest.whole, Forest.records, htag] using Runs.cons hstep₁ hrun₂
      · obtain ⟨s₁, hstep₁, h₁, e₁⟩ := step_empty_outside h hrec
        obtain ⟨s₂, hrun₂, e₂⟩ := ih n h₁ hd
        refine ⟨s₂, ?_, e₂.trans e₁⟩
        simpa [Forest.stream, Forest.events, Forest.whole, Forest.records, hrec] using Runs.silent hstep₁ hrun₂
  | chars c rest ih =>
    cases n with
    | zero => exact ⟨s, by simpa [Forest.whole, Forest.records] using Runs.nil s, rfl⟩
    | succ n =>
      obtain ⟨s₂, hrun₂, e₂⟩ := ih n h hd
      exact ⟨s₂, Runs.silent (step_chars_outside h c) hrun₂, e₂⟩
  | misc rest ih =>
    cases n with
    | zero => exact ⟨s, by simpa [Forest.whole, Forest.records] using Runs.nil s, rfl⟩
    | succ n =>
      obtain ⟨s₂, hrun₂, e₂⟩ := ih n h hd
      exact ⟨s₂, Runs.silent (step_misc s) hrun₂, e₂⟩

/-! ## Resynchronizing -/

theorem step_resyncing {s : ParseState} (h : s.resyncing = true) {e : Event} (he : p.isTarget e = false) :
    p.step alive s (.event e) = .next s [] := by
  simp [step, h, he]

/-- At a tag with the target's name the loop goes on as if it were outside a record at depth 1. -/
theorem runs_reanchored {s s' : ParseState} (h : s.resyncing = true) {e : Event} (he : p.isTarget e = true)
    {rs : List ReadResult} {sent : List DataMessage}
    (hrun : p.Runs { s with resyncing := false, depth := 1 } (.event e :: rs) s' sent) :
    p.Runs s (.event e :: rs) s' sent := by
  obtain ⟨mid, now, later, hstep, hrest, rfl⟩ := hrun
  refine Runs.cons ?_ hrest
  simpa [step, h, he] using hstep

/-- What a lost loop does with a piece of the stream: it stays lost, or it is re-anchored at a tag, where
`anchored` tells what is read from there on. -/
def Resumes (p : XmlParser) (s : ParseState) (rs : List ReadResult) : Option (Forest × List Forest) → Prop
  | none => ∃ s', p.Runs s rs s' [] ∧ s'.Lost ∧ s'.errors = s.errors
  | some (found, inner) =>
    ∃ s', p.Runs s rs s' (found.records p 1 ++ inner.flatMap (Forest.records p 0)) ∧
      s'.Outside (if inner = [] then 1 else 0) ∧ s'.errors = s.errors

/-- What is ignored before does not matter. -/
theorem Resumes.after_skip {s s₁ : ParseState} {xs rs : List ReadResult} {anchored : Option (Forest × List Forest)}
    (hskip : p.Runs s xs s₁ []) (herr : s₁.errors = s.errors) (h : p.Resumes s₁ rs anchored) :
    p.Resumes s (xs ++ rs) anchored := by
  cases anchored with
  | none =>
    obtain ⟨s', hrun, hlost, e⟩ := h
    exact ⟨s', hskip.append hrun, hlost, e.trans herr⟩
  | some a =>
    obtain ⟨s', hrun, hout, e⟩ := h
    exact ⟨s', hskip.append hrun, hout, e.trans herr⟩

theorem Resumes.skip {s : ParseState} {e : Event} {rs : List ReadResult} {anchored : Option (Forest × List Forest)}
    (hlost : s.Lost) (he : p.isTarget e = false) (h : p.Resumes s rs anchored) :
    p.Resumes s (.event e :: rs) anchored :=
  Resumes.after_skip (Runs.one (step_resyncing hlost.resyncing he)) rfl h

theorem Resumes.here {s : ParseState} (hlost : s.Lost) {e : Event} (he : p.isTarget e = true) {f : Forest}
    {rs : List ReadResult} (hf : f.stream = .event e :: rs) : p.Resumes s f.stream (some (f, [])) := by
  have hout : ParseState.Outside { s with resyncing := false, depth := 1 } 1 := ⟨hlost.target, rfl, rfl⟩
  obtain ⟨s₁, hrun₁, h₁, e₁⟩ := runs_outside (p := p) f hout
  refine ⟨s₁, ?_, h₁, e₁⟩
  rw [hf] at hrun₁ ⊢
  simpa using runs_reanchored hlost.resyncing he hrun₁

theorem runs_lost (f : Forest) {s : ParseState} (h : s.Lost) : p.Resumes s f.stream (f.anchor p) := by
  induction f generalizing s with
  | nil => exact ⟨s, Runs.nil s, h, rfl⟩
  | elem tag children rest ihc ihr =>
    have hstream : (Forest.elem tag children rest).stream =
        .event (.start tag) :: (children.stream ++ .event (.endTag tag.name) :: rest.stream) := by
      simp [Forest.stream, Forest.events]
    unfold Forest.anchor
    by_cases htag : tag.name = p.target
    · rw [if_pos htag]
      exact Resumes.here h (by simp [isTarget, htag]) hstream
    · rw [if_neg htag, hstream]
      refine Resumes.skip h (by simp [isTarget, htag]) ?_
      have hchildren := ihc h
      cases hc : children.anchor p with
      | none =>
        rw [hc] at hchildren
        obtain ⟨s₁, hrun₁, h₁, e₁⟩ := hchildren
        exact Resumes.after_skip hrun₁ e₁ (Resumes.skip h₁ rfl (ihr h₁))
      | some a =>
        rw [hc] at hchildren
        obtain ⟨s₁, hrun₁, h₁, e₁⟩ := hchildren
        -- the end tag of this element lowers the depth to 0, whatever was found inside
        obtain ⟨s₂, hstep₂, h₂, e₂⟩ := step_end_outside (p := p) h₁ tag.name
        have hzero : (if a.2 = [] then 1 else 0) - 1 = 0 := by split_ifs <;> rfl
        rw [hzero] at h₂
        obtain ⟨s₃, hrun₃, h₃, e₃⟩ := runs_outside (p := p) rest h₂
        refine ⟨s₃, ?_, by simpa using h₃, by rw [e₃, e₂, e₁]⟩
        simpa using hrun₁.append (Runs.silent hstep₂ hrun₃)
  | empty tag rest ih =>
    unfold Forest.anchor
    by_cases htag : tag.name = p.target
    · rw [if_pos htag]
      exact Resumes.here h (by simp [isTarget, htag]) rfl
    · rw [if_neg htag]
      exact Resumes.skip h (by simp [isTarget, htag]) (ih h)
  | chars c rest ih => exact Resumes.skip h rfl (ih h)
  | misc rest ih => exact Resumes.skip h rfl (ih h)

/-- Outside a record at depth 0, over the ends of enclosing elements and what follows each. -/
theorem runs_outer (outer : List (String × Forest)) {s : ParseState} {d : Nat} (h : s.Outside d) (hd : d ≤ 1) :
    ∃ s', p.Runs s ((Forest.outerEvents outer).map .event) s'
        ((outer.map Prod.snd).flatMap (Forest.records p 0)) ∧
      s'.Outside (if outer = [] then d else 0) ∧ s'.errors = s.errors := by
  induction outer generalizing s d with
  | nil => exact ⟨s, Runs.nil s, h, rfl⟩
  | cons level outer ih =>
    obtain ⟨s₁, hstep₁, h₁, e₁⟩ := step_end_outside (p := p) h level.1
    rw [show d - 1 = 0 by omega] at h₁
    obtain ⟨s₂, hrun₂, h₂, e₂⟩ := runs_outside (p := p) level.2 h₁
    obtain ⟨s₃, hrun₃, h₃, e₃⟩ := ih h₂ (by omega)
    refine ⟨s₃, ?_, by simpa using h₃, by rw [e₃, e₂, e₁]⟩
    have := Runs.silent hstep₁ (hrun₂.append hrun₃)
    simpa [Forest.outerEvents, Forest.stream] using this

/-- A lost loop over the rest of a record: the rest of the innermost open element, the elements around it
and the record's own end tag. -/
theorem runs_lost_record (f : Forest) (outer : List (String × Forest)) {s : ParseState} (h : s.Lost)
    (name : String) :
    ∃ s', p.Runs s ((f.events ++ Forest.outerEvents outer ++ [Event.endTag name]).map .event) s'
        ((f.strays p outer).getD []) ∧
      (if (f.strays p outer).isSome then s'.Outside 0 else s'.Lost) ∧ s'.errors = s.errors := by
  induction outer generalizing f s with
  | nil =>
    have hf := runs_lost (p := p) f h
    unfold Forest.strays
    cases ha : f.anchor p with
    | none =>
      rw [ha] at hf
      obtain ⟨s₁, hrun₁, h₁, e₁⟩ := hf
      refine ⟨s₁, ?_, by simpa using h₁, e₁⟩
      simpa [Forest.outerEvents, Forest.stream] using
        hrun₁.append (Runs.one (step_resyncing h₁.resyncing (e := .endTag name) rfl))
    | some a =>
      rw [ha] at hf
      obtain ⟨s₁, hrun₁, h₁, e₁⟩ := hf
      obtain ⟨s₂, hstep₂, h₂, e₂⟩ := step_end_outside (p := p) h₁ name
      have hzero : (if a.2 = [] then 1 else 0) - 1 = 0 := by split_ifs <;> rfl
      rw [hzero] at h₂
      refine ⟨s₂, ?_, by simpa using h₂, e₂.trans e₁⟩
      simpa [Forest.outerEvents, Forest.stream] using hrun₁.append (Runs.one hstep₂)
  | cons level outer ih =>
    have hf := runs_lost (p := p) f h
    unfold Forest.strays
    cases ha : f.anchor p with
    | none =>
      rw [ha] at hf
      obtain ⟨s₁, hrun₁, h₁, e₁⟩ := hf
      obtain ⟨s₂, hrun₂, h₂, e₂⟩ := ih level.2 h₁
      refine ⟨s₂, ?_, h₂, e₂.trans e₁⟩
      have := hrun₁.append (Runs.silent (step_resyncing h₁.resyncing (e := .endTag level.1) rfl) hrun₂)
      simpa [Forest.outerEvents, Forest.stream] using this
    | some a =>
      rw [ha] at hf
      obtain ⟨s₁, hrun₁, h₁, e₁⟩ := hf
      obtain ⟨s₂, hrun₂, h₂, e₂⟩ :=
        runs_outer (p := p) ((level :: outer) ++ [(name, .nil)]) h₁ (by split_ifs <;> omega)
      refine ⟨s₂, ?_, by simpa using h₂, e₂.trans e₁⟩
      have := hrun₁.append hrun₂
      simpa [Forest.outerEvents, Forest.stream, Forest.events, Forest.records] using this

end XmlParser

end DiscogsIngestion
