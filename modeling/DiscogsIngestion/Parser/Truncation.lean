import DiscogsIngestion.Parser.Machine

/-!
# Truncated and unreadable dumps

* `GzFile`, `XmlReader` : the compressed file and the reader stack over it;
* `CompletelyRead` : the whole decompressed document was read to its true end;
* `GivesUp` : the reader's errors exhaust the budget, or one repeats the position of the one before;
* `parseEvents_ok_iff` : with a live receiver the loop succeeds unless it gives up;
* `reportedOnlyIfComplete_iff` : when a success of `parse_file` means that the dump was read completely.
-/

namespace DiscogsIngestion

/-! ## The reader stack -/

/-- A gzip member: the text it decompresses to, and whether the decoder gets to its end without error. -/
structure GzMember where
  content : String
  intact : Bool
  deriving DecidableEq, Repr

structure GzFile where
  members : List GzMember
  deriving DecidableEq, Repr

namespace GzFile

/-- The text of the first member, and whether it is followed by an error. `GzDecoder` decodes a single
member; a file without one is cut before its header. -/
def decode (f : GzFile) : String × Bool :=
  match f.members with
  | [] => ("", true)
  | m :: _ => (m.content, !m.intact)

end GzFile

/-- The XML reader over a text that may break off with an I/O error. -/
structure XmlReader where
  read : String × Bool → List ReadResult

namespace ReadResult

/-- The elements still open by the reader's own account. A mismatched end tag closes the innermost one. -/
def openElements (rs : List ReadResult) : Nat :=
  rs.foldl (fun n r =>
    match r with
    | .event (.start _) => n + 1
    | .event (.endTag _) => n - 1
    | .error (.illFormed .mismatchedEndTag) _ => n - 1
    | _ => n) 0

def position? : ReadResult → Option Nat
  | .error _ position => some position
  | .event _ => none

def errorPositions (rs : List ReadResult) : List Nat := rs.filterMap position?

end ReadResult

/-- The complete document was read to its true end. -/
structure CompletelyRead (x : XmlReader) (f : GzFile) : Prop where
  nonempty : f.members ≠ []
  intact : ∀ m ∈ f.members, m.intact = true
  singleMember : ∀ m ∈ f.members.tail, m.content = ""
  noFatal : ∀ e position, .error e position ∈ x.read f.decode → e.fatal = false
  closed : ReadResult.openElements (x.read f.decode) = 0

/-- More than 100 errors, or two in a row at the same position. -/
def GivesUp (rs : List ReadResult) : Prop :=
  maxMalformedRecordsPerFile < (ReadResult.errorPositions rs).length ∨
    ¬List.IsChain (· ≠ ·) (u64Max :: ReadResult.errorPositions rs)

namespace XmlParser

variable {p : XmlParser}

/-! ## When the loop succeeds -/

theorem sendRecord_alive (s : ParseState) (record : Option DataMessage) :
    ∃ s' sent, sendRecord alive s record = .next s' sent ∧ s'.malformedRecords = s.malformedRecords ∧
      s'.lastErrorPosition = s.lastErrorPosition := by
  cases record with
  | none => exact ⟨s, [], rfl, rfl, rfl⟩
  | some m => exact ⟨{ s with recordCount := s.recordCount + 1 }, [m], by simp [sendRecord, alive], rfl, rfl⟩

theorem addToParent_errors (s : ParseState) (name : String) (value : Value) :
    (addToParent s name value).malformedRecords = s.malformedRecords ∧
      (addToParent s name value).lastErrorPosition = s.lastErrorPosition := by
  unfold addToParent
  split <;> exact ⟨rfl, rfl⟩

/-- No event ends the loop or touches its error counters while the receiver lives. -/
theorem onEvent_alive (s : ParseState) (e : Event) :
    ∃ s' sent, p.onEvent alive s e = .next s' sent ∧ s'.malformedRecords = s.malformedRecords ∧
      s'.lastErrorPosition = s.lastErrorPosition := by
  cases e with
  | start e =>
    refine ⟨_, [], rfl, ?_, ?_⟩ <;> (dsimp only; split_ifs <;> rfl)
  | empty e =>
    simp only [onEvent, onEmpty]
    split_ifs
    · obtain ⟨s', sent, h, hm, hl⟩ := sendRecord_alive
        { s with depth := s.depth + 1, elementStack := [], inTargetElement := false } (p.emptyRecord e)
      rw [h]
      exact ⟨_, _, rfl, hm, hl⟩
    · exact ⟨_, _, rfl, addToParent_errors { s with depth := s.depth + 1 } e.name
        (ElementContext.withAttributes e).intoValue⟩
    · exact ⟨_, _, rfl, rfl, rfl⟩
  | endTag name =>
    simp only [onEvent, onEnd]
    split
    · rename_i context stack _ _
      split_ifs
      · obtain ⟨s', sent, h, hm, hl⟩ := sendRecord_alive
          { s with elementStack := stack, inTargetElement := false } (p.closedRecord context.intoValue)
        rw [h]
        exact ⟨_, _, rfl, hm, hl⟩
      · exact ⟨_, _, rfl, addToParent_errors { s with elementStack := stack } name context.intoValue⟩
    · exact ⟨_, _, rfl, rfl, rfl⟩
  | chars c =>
    simp only [onEvent, onChars]
    split <;> exact ⟨_, _, rfl, rfl, rfl⟩
  | misc => exact ⟨s, [], rfl, rfl, rfl⟩

theorem step_event_alive (s : ParseState) (e : Event) :
    ∃ s' sent, p.step alive s (.event e) = .next s' sent ∧ s'.malformedRecords = s.malformedRecords ∧
      s'.lastErrorPosition = s.lastErrorPosition := by
  simp only [step]
  split_ifs
  · exact onEvent_alive _ e
  · exact ⟨s, [], rfl, rfl, rfl⟩
  · exact onEvent_alive s e

/-- With a live receiver only the error arm ends the loop early: on a repeated position or past the budget. -/
theorem parseEvents_ok_iff (s : ParseState) (rs : List ReadResult)
    (hs : s.malformedRecords ≤ maxMalformedRecordsPerFile) :
    (∃ n, (p.parseEvents alive s rs).1 = .ok n) ↔
      s.malformedRecords + (ReadResult.errorPositions rs).length ≤ maxMalformedRecordsPerFile ∧
        List.IsChain (· ≠ ·) (s.lastErrorPosition :: ReadResult.errorPositions rs) := by
  induction rs generalizing s with
  | nil => simp [parseEvents, ReadResult.errorPositions, hs]
  | cons r rest ih =>
    cases r with
    | event e =>
      obtain ⟨s', sent, hstep, hm, hl⟩ := step_event_alive (p := p) s e
      have h := ih s' (hm ▸ hs)
      simp only [parseEvents, hstep]
      rw [h, hm, hl]
      rfl
    | error e position =>
      have hpos : ReadResult.errorPositions (.error e position :: rest) =
          position :: ReadResult.errorPositions rest := rfl
      rw [hpos, List.isChain_cons_cons, List.length_cons]
      simp only [parseEvents, step, onError]
      split_ifs with hsame hbudget
      · simp [hsame]
      · constructor
        · rintro ⟨n, h⟩; exact absurd h (by simp)
        · rintro ⟨h, -⟩; omega
      · have h := ih
          { s with
            malformedRecords := s.malformedRecords + 1, lastErrorPosition := position, elementStack := [],
            inTargetElement := false, resyncing := true } (not_lt.mp hbudget)
        rw [h]
        simp only [ne_eq]
        constructor
        · rintro ⟨h₁, h₂⟩; exact ⟨by omega, fun hne => hsame hne.symm, h₂⟩
        · rintro ⟨h₁, -, h₂⟩; exact ⟨by omega, h₂⟩

theorem parseFile_ok_iff (rs : List ReadResult) :
    (∃ n, (p.parseFile alive (some rs)).1 = .ok n) ↔ ¬GivesUp rs := by
  rw [GivesUp, not_or, not_not, not_lt]
  simpa [parseFile] using parseEvents_ok_iff (p := p) {} rs (Nat.zero_le _)

/-! ## Completely read -/

/-- `parse_file` succeeds, its receiver alive, only on a dump that it has read completely. -/
def ReportedOnlyIfComplete (p : XmlParser) (x : XmlReader) (f : GzFile) : Prop :=
  (∃ n, (p.parseFile alive (some (x.read f.decode))).1 = .ok n) → CompletelyRead x f

/-- A success means a complete read only for dumps that are read completely anyway, and for those whose
errors make the parser give up: nothing else turns a cut, a fatal error or an open element into a failure. -/
theorem reportedOnlyIfComplete_iff (p : XmlParser) (x : XmlReader) (f : GzFile) :
    p.ReportedOnlyIfComplete x f ↔ CompletelyRead x f ∨ GivesUp (x.read f.decode) := by
  unfold ReportedOnlyIfComplete
  rw [parseFile_ok_iff, imp_iff_or_not, not_not]

/-! ## A truncated dump -/

/-- A reader that knows one text, `<artists><artist><id>1</id></artist><artist><id>2`. -/
def sampleReader : XmlReader where
  read input :=
    (if input.1 = "<artists><artist><id>1</id></artist><artist><id>2" then
      [.start ⟨"artists", []⟩, .start ⟨"artist", []⟩, .start ⟨"id", []⟩, .chars (.text "1"), .endTag "id",
        .endTag "artist", .start ⟨"artist", []⟩, .start ⟨"id", []⟩].map .event
      else []) ++ if input.2 then [.error .io 49] else []

def truncatedDump : GzFile := ⟨[⟨"<artists><artist><id>1</id></artist><artist><id>2", false⟩]⟩

/-- The cut is tolerated like one malformed record, and the end of the stream then counts as success. -/
theorem truncatedDump_reported :
    ¬(⟨.artists, false⟩ : XmlParser).ReportedOnlyIfComplete sampleReader truncatedDump := by
  intro h
  have hok := h ⟨1, by rfl⟩
  exact absurd (hok.intact _ (List.mem_singleton_self _)) (by decide)

end XmlParser

end DiscogsIngestion
