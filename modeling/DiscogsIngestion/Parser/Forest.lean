import DiscogsIngestion.Parser.Machine

/-!
# Element trees and the loop that reads them

A well-formed piece of a document is a `Forest`; the reader delivers its `events`.

* `Forest.contents`, `Forest.valueOf` : the recursive conversion of an element's content;
* `runs_inside` : inside a record the loop computes that conversion on top of its stack;
* `Forest.records` : the records the loop finds when it enters a forest at a given depth;
* `runs_outside` : outside a record the loop sends exactly these and returns to its depth.
-/

namespace DiscogsIngestion

/-- A sequence of sibling nodes, first child and next sibling. -/
inductive Forest where
  | nil
  | elem (tag : BytesStart) (children rest : Forest)
  | empty (tag : BytesStart) (rest : Forest)
  | chars (c : CharData) (rest : Forest)
  | misc (rest : Forest)
  deriving DecidableEq, Repr

namespace Forest

def events : Forest → List Event
  | nil => []
  | elem tag children rest => .start tag :: (children.events ++ .endTag tag.name :: rest.events)
  | empty tag rest => .empty tag :: rest.events
  | chars c rest => .chars c :: rest.events
  | misc rest => .misc :: rest.events

def stream (f : Forest) : List ReadResult := f.events.map .event

/-- The context of an element after all of its content. -/
def contents : Forest → ElementContext → ElementContext
  | nil, ctx => ctx
  | elem tag children rest, ctx =>
    rest.contents (ctx.addChild tag.name (children.contents (.withAttributes tag)).intoValue)
  | empty tag rest, ctx => rest.contents (ctx.addChild tag.name (ElementContext.withAttributes tag).intoValue)
  | chars c rest, ctx => rest.contents (ctx.pushChars c)
  | misc rest, ctx => rest.contents ctx

/-- The JSON value of an element with this start tag and content. -/
def valueOf (tag : BytesStart) (children : Forest) : Value :=
  (children.contents (.withAttributes tag)).intoValue

/-- The records that the loop finds in a forest entered outside a record at this depth: the elements
with the target's name that come to lie at depth 2. -/
def records (p : XmlParser) : Nat → Forest → List DataMessage
  | _, nil => []
  | d, elem tag children rest =>
    (if d = 1 ∧ tag.name = p.target then (p.closedRecord (valueOf tag children)).toList
      else records p (d + 1) children) ++ records p d rest
  | d, empty tag rest =>
    (if d = 1 ∧ tag.name = p.target then (p.emptyRecord tag).toList else []) ++ records p d rest
  | d, chars _ rest => records p d rest
  | d, misc rest => records p d rest

theorem records_deep (p : XmlParser) (f : Forest) {d : Nat} (hd : 2 ≤ d) : f.records p d = [] := by
  induction f generalizing d with
  | nil => rfl
  | elem tag children rest ihc ihr =>
    have hne : ¬(d = 1 ∧ tag.name = p.target) := by omega
    simp [records, hne, ihc (by omega : 2 ≤ d + 1), ihr hd]
  | empty tag rest ih =>
    have hne : ¬(d = 1 ∧ tag.name = p.target) := by omega
    simp [records, hne, ih hd]
  | chars c rest ih => simpa [records] using ih hd
  | misc rest ih => simpa [records] using ih hd

end Forest

/-! ## States -/

/-- In a record: the innermost open element `ctx` on top of `stack`, at depth `d`. -/
structure ParseState.Inside (s : ParseState) (ctx : ElementContext) (stack : List ElementContext) (d : Nat) :
    Prop where
  target : s.inTargetElement = true
  synced : s.resyncing = false
  stack_eq : s.elementStack = ctx :: stack
  depth_eq : s.depth = d

/-- Outside any record at depth `d`. -/
structure ParseState.Outside (s : ParseState) (d : Nat) : Prop where
  target : s.inTargetElement = false
  synced : s.resyncing = false
  depth_eq : s.depth = d

/-- Resynchronizing: events are ignored up to the next tag with the target's name. -/
structure ParseState.Lost (s : ParseState) : Prop where
  target : s.inTargetElement = false
  resyncing : s.resyncing = true

/-- The error counters, which only the error arm changes. -/
def ParseState.errors (s : ParseState) : Nat × Nat := (s.malformedRecords, s.lastErrorPosition)

namespace XmlParser

variable {p : XmlParser}

/-! ## One event -/

theorem step_misc (s : ParseState) : p.step alive s (.event .misc) = .next s [] := by
  cases h : s.resyncing <;> simp [step, h, isTarget, onEvent]

theorem step_chars_inside {s : ParseState} {ctx : ElementContext} {stack : List ElementContext} {d : Nat}
    (h : s.Inside ctx stack d) (c : CharData) :
    ∃ s', p.step alive s (.event (.chars c)) = .next s' [] ∧ s'.Inside (ctx.pushChars c) stack d ∧
      s'.errors = s.errors :=
  ⟨{ s with elementStack := ctx.pushChars c :: stack },
    by simp [step, h.synced, onEvent, onChars, h.target, h.stack_eq],
    ⟨h.target, h.synced, rfl, h.depth_eq⟩, rfl⟩

theorem step_chars_outside {s : ParseState} {d : Nat} (h : s.Outside d) (c : CharData) :
    p.step alive s (.event (.chars c)) = .next s [] := by
  simp [step, h.synced, onEvent, onChars, h.target]

theorem step_start_inside {s : ParseState} {ctx : ElementContext} {stack : List ElementContext} {d : Nat}
    (h : s.Inside ctx stack d) (hd : 2 ≤ d) (tag : BytesStart) :
    ∃ s', p.step alive s (.event (.start tag)) = .next s' [] ∧
      s'.Inside (.withAttributes tag) (ctx :: stack) (d + 1) ∧ s'.errors = s.errors := by
  have hne : ¬s.depth + 1 = 2 := by have := h.depth_eq; omega
  refine ⟨{ s with depth := s.depth + 1, elementStack := .withAttributes tag :: s.elementStack }, ?_,
    ⟨h.target, h.synced, by simp [h.stack_eq], by simp [h.depth_eq]⟩, rfl⟩
  simp [step, h.synced, onEvent, onStart, hne, h.target]

theorem step_empty_inside {s : ParseState} {ctx : ElementContext} {stack : List ElementContext} {d : Nat}
    (h : s.Inside ctx stack d) (hd : 2 ≤ d) (tag : BytesStart) :
    ∃ s', p.step alive s (.event (.empty tag)) = .next s' [] ∧
      s'.Inside (ctx.addChild tag.name (ElementContext.withAttributes tag).intoValue) stack d ∧
      s'.errors = s.errors := by
  have hne : ¬s.depth + 1 = 2 := by have := h.depth_eq; omega
  refine ⟨{ s with elementStack := ctx.addChild tag.name (ElementContext.withAttributes tag).intoValue :: stack },
    ?_, ⟨h.target, h.synced, rfl, h.depth_eq⟩, rfl⟩
  simp [step, h.synced, onEvent, onEmpty, hne, h.target, addToParent, h.stack_eq, Iteration.leaveElement]

theorem step_end_inside {s : ParseState} {ctx parent : ElementContext} {stack : List ElementContext} {d : Nat}
    (h : s.Inside ctx (parent :: stack) (d + 1)) (hd : 2 ≤ d) (name : String) :
    ∃ s', p.step alive s (.event (.endTag name)) = .next s' [] ∧
      s'.Inside (parent.addChild name ctx.intoValue) stack d ∧ s'.errors = s.errors := by
  have hne : ¬s.depth = 2 := by have := h.depth_eq; omega
  refine ⟨{ s with elementStack := parent.addChild name ctx.intoValue :: stack, depth := s.depth - 1 }, ?_,
    ⟨h.target, h.synced, rfl, by simp [h.depth_eq]⟩, rfl⟩
  simp [step, h.synced, onEvent, onEnd, hne, h.target, addToParent, h.stack_eq, Iteration.leaveElement]

theorem step_end_record {s : ParseState} {ctx : ElementContext} {stack : List ElementContext}
    (h : s.Inside ctx stack 2) :
    ∃ s', p.step alive s (.event (.endTag p.target)) = .next s' (p.closedRecord ctx.intoValue).toList ∧
      s'.Outside 1 ∧ s'.errors = s.errors := by
  have hd := h.depth_eq
  cases hrec : p.closedRecord ctx.intoValue with
  | none =>
    refine ⟨{ s with elementStack := stack, inTargetElement := false, depth := s.depth - 1 }, ?_,
      ⟨rfl, h.synced, by simp [hd]⟩, rfl⟩
    simp [step, h.synced, onEvent, onEnd, hd, h.target, h.stack_eq, hrec, sendRecord, Iteration.leaveElement]
  | some m =>
    refine ⟨{ s with
        elementStack := stack, inTargetElement := false, recordCount := s.recordCount + 1,
        depth := s.depth - 1 }, ?_, ⟨rfl, h.synced, by simp [hd]⟩, rfl⟩
    simp [step, h.synced, onEvent, onEnd, hd, h.target, h.stack_eq, hrec, sendRecord, alive,
      Iteration.leaveElement]

theorem step_start_record {s : ParseState} (h : s.Outside 1) {tag : BytesStart} (htag : tag.name = p.target) :
    ∃ s', p.step alive s (.event (.start tag)) = .next s' [] ∧ s'.Inside (.withAttributes tag) [] 2 ∧
      s'.errors = s.errors := by
  refine ⟨{ s with depth := 2, inTargetElement := true, elementStack := [.withAttributes tag] }, ?_,
    ⟨rfl, h.synced, rfl, rfl⟩, rfl⟩
  simp [step, h.synced, onEvent, onStart, htag, h.depth_eq]

theorem step_start_outside {s : ParseState} {d : Nat} (h : s.Outside d) {tag : BytesStart}
    (hne : ¬(d = 1 ∧ tag.name = p.target)) :
    ∃ s', p.step alive s (.event (.start tag)) = .next s' [] ∧ s'.Outside (d + 1) ∧ s'.errors = s.errors := by
  refine ⟨{ s with depth := s.depth + 1 }, ?_, ⟨h.target, h.synced, by simp [h.depth_eq]⟩, rfl⟩
  have hcond : ¬(tag.name = p.target ∧ s.depth = 1) := fun hc => hne ⟨h.depth_eq ▸ hc.2, hc.1⟩
  simp [step, h.synced, onEvent, onStart, hcond, h.target]

theorem step_empty_record {s : ParseState} (h : s.Outside 1) {tag : BytesStart} (htag : tag.name = p.target) :
    ∃ s', p.step alive s (.event (.empty tag)) = .next s' (p.emptyRecord tag).toList ∧ s'.Outside 1 ∧
      s'.errors = s.errors := by
  cases hrec : p.emptyRecord tag with
  | none =>
    refine ⟨{ s with elementStack := [], inTargetElement := false, depth := 1 }, ?_, ⟨rfl, h.synced, rfl⟩, rfl⟩
    simp [step, h.synced, onEvent, onEmpty, htag, h.depth_eq, hrec, sendRecord, Iteration.leaveElement]
  | some m =>
    refine ⟨{ s with elementStack := [], inTargetElement := false, recordCount := s.recordCount + 1, depth := 1 },
      ?_, ⟨rfl, h.synced, rfl⟩, rfl⟩
    simp [step, h.synced, onEvent, onEmpty, htag, h.depth_eq, hrec, sendRecord, alive, Iteration.leaveElement]

theorem step_empty_outside {s : ParseState} {d : Nat} (h : s.Outside d) {tag : BytesStart}
    (hne : ¬(d = 1 ∧ tag.name = p.target)) :
    ∃ s', p.step alive s (.event (.empty tag)) = .next s' [] ∧ s'.Outside d ∧ s'.errors = s.errors := by
  refine ⟨{ s with depth := s.depth + 1 - 1 }, ?_, ⟨h.target, h.synced, by simp [h.depth_eq]⟩, rfl⟩
  have hcond : ¬(tag.name = p.target ∧ s.depth = 1) := fun hc => hne ⟨h.depth_eq ▸ hc.2, hc.1⟩
  simp [step, h.synced, onEvent, onEmpty, hcond, h.target, Iteration.leaveElement]

theorem step_end_outside {s : ParseState} {d : Nat} (h : s.Outside d) (name : String) :
    ∃ s', p.step alive s (.event (.endTag name)) = .next s' [] ∧ s'.Outside (d - 1) ∧ s'.errors = s.errors := by
  refine ⟨{ s with depth := s.depth - 1 }, ?_, ⟨h.target, h.synced, by simp [h.depth_eq]⟩, rfl⟩
  simp [step, h.synced, onEvent, onEnd, h.target, Iteration.leaveElement]

/-! ## Forests -/

/-- Inside a record the loop converts a forest silently. -/
theorem runs_inside (f : Forest) {s : ParseState} {ctx : ElementContext} {stack : List ElementContext} {d : Nat}
    (h : s.Inside ctx stack d) (hd : 2 ≤ d) :
    ∃ s', p.Runs s f.stream s' [] ∧ s'.Inside (f.contents ctx) stack d ∧ s'.errors = s.errors := by
  induction f generalizing s ctx stack d with
  | nil => exact ⟨s, Runs.nil s, h, rfl⟩
  | elem tag children rest ihc ihr =>
    obtain ⟨s₁, hstep₁, h₁, e₁⟩ := step_start_inside (p := p) h hd tag
    obtain ⟨s₂, hrun₂, h₂, e₂⟩ := ihc h₁ (by omega)
    obtain ⟨s₃, hstep₃, h₃, e₃⟩ := step_end_inside (p := p) h₂ hd tag.name
    obtain ⟨s₄, hrun₄, h₄, e₄⟩ := ihr h₃ hd
    refine ⟨s₄, ?_, h₄, by rw [e₄, e₃, e₂, e₁]⟩
    have := Runs.silent hstep₁ (hrun₂.append (Runs.silent hstep₃ hrun₄))
    simpa [Forest.stream, Forest.events] using this
  | empty tag rest ih =>
    obtain ⟨s₁, hstep₁, h₁, e₁⟩ := step_empty_inside (p := p) h hd tag
    obtain ⟨s₂, hrun₂, h₂, e₂⟩ := ih h₁ hd
    exact ⟨s₂, Runs.silent hstep₁ hrun₂, h₂, e₂.trans e₁⟩
  | chars c rest ih =>
    obtain ⟨s₁, hstep₁, h₁, e₁⟩ := step_chars_inside (p := p) h c
    obtain ⟨s₂, hrun₂, h₂, e₂⟩ := ih h₁ hd
    exact ⟨s₂, Runs.silent hstep₁ hrun₂, h₂, e₂.trans e₁⟩
  | misc rest ih =>
    obtain ⟨s₂, hrun₂, h₂, e₂⟩ := ih h hd
    exact ⟨s₂, Runs.silent (step_misc s) hrun₂, h₂, e₂⟩

/-- A record entered at its start tag: the loop sends it at its end tag and nothing before. -/
theorem runs_record {s : ParseState} (h : s.Outside 1) {tag : BytesStart} (htag : tag.name = p.target)
    (children : Forest) :
    ∃ mid s', p.Runs s (.event (.start tag) :: children.stream) mid [] ∧
      p.step alive mid (.event (.endTag tag.name)) =
        .next s' (p.closedRecord (Forest.valueOf tag children)).toList ∧
      s'.Outside 1 ∧ s'.errors = s.errors := by
  obtain ⟨s₁, hstep₁, h₁, e₁⟩ := step_start_record h htag
  obtain ⟨s₂, hrun₂, h₂, e₂⟩ := runs_inside (p := p) children h₁ le_rfl
  obtain ⟨s₃, hstep₃, h₃, e₃⟩ := step_end_record (p := p) h₂
  refine ⟨s₂, s₃, Runs.silent hstep₁ hrun₂, ?_, h₃, by rw [e₃, e₂, e₁]⟩
  rw [htag]
  exact hstep₃

/-- Outside a record the loop sends the records of a forest and comes back to its depth. -/
theorem runs_outside (f : Forest) {s : ParseState} {d : Nat} (h : s.Outside d) :
    ∃ s', p.Runs s f.stream s' (f.records p d) ∧ s'.Outside d ∧ s'.errors = s.errors := by
  induction f generalizing s d with
  | nil => exact ⟨s, Runs.nil s, h, rfl⟩
  | elem tag children rest ihc ihr =>
    by_cases hrec : d = 1 ∧ tag.name = p.target
    · obtain ⟨rfl, htag⟩ := hrec
      obtain ⟨mid, s₁, hrun₁, hstep₁, h₁, e₁⟩ := runs_record h htag children
      obtain ⟨s₂, hrun₂, h₂, e₂⟩ := ihr h₁
      refine ⟨s₂, ?_, h₂, e₂.trans e₁⟩
      have := hrun₁.append (Runs.cons hstep₁ hrun₂)
      simpa [Forest.stream, Forest.events, Forest.records, htag] using this
    · obtain ⟨s₁, hstep₁, h₁, e₁⟩ := step_start_outside h hrec
      obtain ⟨s₂, hrun₂, h₂, e₂⟩ := ihc h₁
      obtain ⟨s₃, hstep₃, h₃, e₃⟩ := step_end_outside (p := p) h₂ tag.name
      obtain ⟨s₄, hrun₄, h₄, e₄⟩ := ihr (d := d) h₃
      refine ⟨s₄, ?_, h₄, by rw [e₄, e₃, e₂, e₁]⟩
      have := Runs.silent hstep₁ (hrun₂.append (Runs.silent hstep₃ hrun₄))
      simpa [Forest.stream, Forest.events, Forest.records, hrec] using this
  | empty tag rest ih =>
    by_cases hrec : d = 1 ∧ tag.name = p.target
    · obtain ⟨rfl, htag⟩ := hrec
      obtain ⟨s₁, hstep₁, h₁, e₁⟩ := step_empty_record h htag
      obtain ⟨s₂, hrun₂, h₂, e₂⟩ := ih h₁
      refine ⟨s₂, ?_, h₂, e₂.trans e₁⟩
      simpa [Forest.stream, Forest.events, Forest.records, htag] using Runs.cons hstep₁ hrun₂
    · obtain ⟨s₁, hstep₁, h₁, e₁⟩ := step_empty_outside h hrec
      obtain ⟨s₂, hrun₂, h₂, e₂⟩ := ih h₁
      refine ⟨s₂, ?_, h₂, e₂.trans e₁⟩
      simpa [Forest.stream, Forest.events, Forest.records, hrec] using Runs.silent hstep₁ hrun₂
  | chars c rest ih =>
    obtain ⟨s₂, hrun₂, h₂, e₂⟩ := ih h
    exact ⟨s₂, Runs.silent (step_chars_outside h c) hrun₂, h₂, e₂⟩
  | misc rest ih =>
    obtain ⟨s₂, hrun₂, h₂, e₂⟩ := ih h
    exact ⟨s₂, Runs.silent (step_misc s) hrun₂, h₂, e₂⟩

end XmlParser

end DiscogsIngestion
