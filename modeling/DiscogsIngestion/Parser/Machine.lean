import Mathlib.Algebra.Group.Nat.Defs
import DiscogsIngestion.Parser.Element

/-!
# `XmlParser::parse_file`

The event loop as a state machine over the results the XML reader returns.

* `ReaderError`, `ReadResult` : an event, or an error with the byte position of the reader;
* `ParseState` : the local variables of the loop;
* `step` : one iteration, `parseEvents` : the loop, `parseFile` : the loop from its initial state;
* `Runs` : the loop consumes a prefix of the stream, sends these messages and goes on;
* `trace` : what each iteration sends, `trace_flatten` : together they are the messages of the run.
-/

namespace DiscogsIngestion

/-! ## Reader results -/

/-- The errors after which the reader goes on: the document is ill-formed at one place. -/
inductive IllFormedError where
  | missingDeclVersion
  | missingDoctypeName
  | missingEndTag
  | unmatchedEndTag
  | mismatchedEndTag
  | doubleHyphenInComment
  | unclosedReference
  deriving DecidableEq, Repr

/-- An error of the reader. After any but an ill-formed one it reads nothing more. -/
inductive ReaderError where
  | illFormed (e : IllFormedError)
  | io
  | syntaxError
  | encoding
  deriving DecidableEq, Repr

def ReaderError.fatal : ReaderError → Bool
  | .illFormed _ => false
  | _ => true

inductive ReadResult where
  | event (e : Event)
  | error (e : ReaderError) (position : Nat)
  deriving DecidableEq, Repr

/-! ## The loop -/

def maxMalformedRecordsPerFile : Nat := 100

def u64Max : Nat := 2 ^ 64 - 1

/-- How `parse_file` fails. -/
inductive ParseError where
  | openFailed
  | unrecoverable (position : Nat) (cause : ReaderError)
  | budgetExceeded (cause : ReaderError)
  deriving DecidableEq, Repr

/-- The element that holds one record of the data type. -/
def DataType.targetElement : DataType → String
  | .artists => "artist"
  | .labels => "label"
  | .masters => "master"
  | .releases => "release"

structure XmlParser where
  dataType : DataType
  captureRawXml : Bool
  deriving Repr

def XmlParser.target (p : XmlParser) : String := p.dataType.targetElement

/-- The local variables of the loop. The innermost open element heads the stack. -/
structure ParseState where
  recordCount : Nat := 0
  inTargetElement : Bool := false
  elementStack : List ElementContext := []
  depth : Nat := 0
  malformedRecords : Nat := 0
  resyncing : Bool := false
  lastErrorPosition : Nat := u64Max
  deriving Repr

/-- What one iteration does: go on in a new state, having sent these messages, or leave the loop. -/
inductive Iteration where
  | next (s : ParseState) (sent : List DataMessage)
  | stop (result : Except ParseError Nat)
  deriving Repr

namespace XmlParser

/-- The id of a record: its `@id` attribute, else its `id` child, if that is a string. -/
def recordId (entries : Map) : String :=
  let found := (Map.get "@id" entries).or (Map.get "id" entries)
  (found.bind Value.asStr).getD "unknown"

def message (p : XmlParser) (id : String) (data : Value) : DataMessage :=
  { id := id
    sha256 := ""
    data := data
    rawXml := if p.captureRawXml then some (reconstructXml p.target data) else none }

/-- The message of a record that ends, if it is an object: beside `@id` its own `id` child is dropped. -/
def closedRecord (p : XmlParser) : Value → Option DataMessage
  | .object obj =>
    let finalObj := if Map.containsKey "@id" obj then Map.remove "id" obj else obj
    some (p.message (recordId obj) (.object finalObj))
  | _ => none

def emptyRecord (p : XmlParser) (e : BytesStart) : Option DataMessage :=
  match (ElementContext.withAttributes e).intoValue with
  | .object obj => some (p.message (recordId obj) (.object obj))
  | _ => none

/-- Send a record, if there is one; a dropped receiver ends the loop. `receiver n` says whether the
receiver still exists when message number `n` is sent. -/
def sendRecord (receiver : Nat → Bool) (s : ParseState) (record : Option DataMessage) : Iteration :=
  match record with
  | none => .next s []
  | some m =>
    if receiver s.recordCount then .next { s with recordCount := s.recordCount + 1 } [m]
    else .stop (.ok s.recordCount)

/-- Lower the depth after an `Empty` or `End` event, unless the loop was left. -/
def Iteration.leaveElement : Iteration → Iteration
  | .next s sent => .next { s with depth := s.depth - 1 } sent
  | .stop result => .stop result

def addToParent (s : ParseState) (name : String) (value : Value) : ParseState :=
  match s.elementStack with
  | parent :: stack => { s with elementStack := parent.addChild name value :: stack }
  | [] => s

/-- The error arm: drop the record under construction and resynchronize, or give up. -/
def onError (s : ParseState) (e : ReaderError) (position : Nat) : Iteration :=
  let malformedRecords := s.malformedRecords + 1
  if position = s.lastErrorPosition then .stop (.error (.unrecoverable position e))
  else if maxMalformedRecordsPerFile < malformedRecords then .stop (.error (.budgetExceeded e))
  else
    .next { s with
      malformedRecords := malformedRecords
      lastErrorPosition := position
      elementStack := []
      inTargetElement := false
      resyncing := true } []

def onStart (p : XmlParser) (s : ParseState) (e : BytesStart) : Iteration :=
  let s := { s with depth := s.depth + 1 }
  let s :=
    if e.name = p.target && s.depth = 2 then { s with inTargetElement := true, elementStack := [] }
    else s
  let s :=
    if s.inTargetElement then
      { s with elementStack := ElementContext.withAttributes e :: s.elementStack }
    else s
  .next s []

def onEmpty (p : XmlParser) (receiver : Nat → Bool) (s : ParseState) (e : BytesStart) : Iteration :=
  let s := { s with depth := s.depth + 1 }
  let done :=
    if e.name = p.target && s.depth = 2 then
      sendRecord receiver { s with elementStack := [], inTargetElement := false } (p.emptyRecord e)
    else if s.inTargetElement then
      .next (addToParent s e.name (ElementContext.withAttributes e).intoValue) []
    else .next s []
  Iteration.leaveElement done

def onEnd (p : XmlParser) (receiver : Nat → Bool) (s : ParseState) (name : String) : Iteration :=
  let done :=
    match s.inTargetElement, s.elementStack with
    | true, context :: stack =>
      let s := { s with elementStack := stack }
      if name = p.target && s.depth = 2 then
        sendRecord receiver { s with inTargetElement := false } (p.closedRecord context.intoValue)
      else .next (addToParent s name context.intoValue) []
    | _, _ => .next s []
  Iteration.leaveElement done

def onChars (s : ParseState) (c : CharData) : Iteration :=
  match s.inTargetElement, s.elementStack with
  | true, context :: stack => .next { s with elementStack := context.pushChars c :: stack } []
  | _, _ => .next s []

def onEvent (p : XmlParser) (receiver : Nat → Bool) (s : ParseState) : Event → Iteration
  | .start e => p.onStart s e
  | .empty e => p.onEmpty receiver s e
  | .endTag name => p.onEnd receiver s name
  | .chars c => onChars s c
  | .misc => .next s []

def isTarget (p : XmlParser) : Event → Bool
  | .start e => e.name = p.target
  | .empty e => e.name = p.target
  | _ => false

/-- One iteration of the loop. -/
def step (p : XmlParser) (receiver : Nat → Bool) (s : ParseState) : ReadResult → Iteration
  | .error e position => onError s e position
  | .event e =>
    if s.resyncing then
      -- everything up to the next target tag is ignored; there the depth is re-anchored
      if p.isTarget e then p.onEvent receiver { s with resyncing := false, depth := 1 } e
      else .next s []
    else p.onEvent receiver s e

/-- The loop. The end of the stream ends it in every state, also while resyncing. -/
def parseEvents (p : XmlParser) (receiver : Nat → Bool) :
    ParseState → List ReadResult → Except ParseError Nat × List DataMessage
  | s, [] => (.ok s.recordCount, [])
  | s, r :: rest =>
    match p.step receiver s r with
    | .next s' sent =>
      let (result, later) := p.parseEvents receiver s' rest
      (result, sent ++ later)
    | .stop result => (result, [])

/-- `parse_file` on a dump that can be opened and whose reader returns `results`. -/
def parseFile (p : XmlParser) (receiver : Nat → Bool) (results : Option (List ReadResult)) :
    Except ParseError Nat × List DataMessage :=
  match results with
  | none => (.error .openFailed, [])
  | some results => p.parseEvents receiver {} results

/-- A receiver that lives as long as the parser. -/
def alive : Nat → Bool := fun _ => true

/-! ## Runs over a prefix of the stream -/

/-- From `s` the loop consumes `rs`, sends `sent` and goes on in `s'`. -/
def Runs (p : XmlParser) (s : ParseState) : List ReadResult → ParseState → List DataMessage → Prop
  | [], s', sent => s' = s ∧ sent = []
  | r :: rs, s', sent =>
    ∃ mid now later, p.step alive s r = .next mid now ∧ p.Runs mid rs s' later ∧ sent = now ++ later

variable {p : XmlParser}

theorem Runs.nil (s : ParseState) : p.Runs s [] s [] := ⟨rfl, rfl⟩

theorem Runs.cons {s mid s' : ParseState} {r : ReadResult} {rs : List ReadResult}
    {now later : List DataMessage} (h : p.step alive s r = .next mid now) (hr : p.Runs mid rs s' later) :
    p.Runs s (r :: rs) s' (now ++ later) := ⟨mid, now, later, h, hr, rfl⟩

theorem Runs.silent {s mid s' : ParseState} {r : ReadResult} {rs : List ReadResult}
    {later : List DataMessage} (h : p.step alive s r = .next mid []) (hr : p.Runs mid rs s' later) :
    p.Runs s (r :: rs) s' later := Runs.cons h hr

theorem Runs.one {s s' : ParseState} {r : ReadResult} {now : List DataMessage}
    (h : p.step alive s r = .next s' now) : p.Runs s [r] s' now := by
  simpa using Runs.cons h (Runs.nil s')

theorem Runs.append {s mid s' : ParseState} {xs ys : List ReadResult} {sent later : List DataMessage}
    (hx : p.Runs s xs mid sent) (hy : p.Runs mid ys s' later) : p.Runs s (xs ++ ys) s' (sent ++ later) := by
  induction xs generalizing s sent with
  | nil =>
    obtain ⟨rfl, rfl⟩ := hx
    exact hy
  | cons r rs ih =>
    obtain ⟨m, now, tail, hstep, hrest, rfl⟩ := hx
    rw [List.append_assoc]
    exact Runs.cons hstep (ih hrest)

theorem parseEvents_of_runs {s s' : ParseState} {rs : List ReadResult} {sent : List DataMessage}
    (h : p.Runs s rs s' sent) (rest : List ReadResult) :
    p.parseEvents alive s (rs ++ rest) =
      ((p.parseEvents alive s' rest).1, sent ++ (p.parseEvents alive s' rest).2) := by
  induction rs generalizing s sent with
  | nil =>
    obtain ⟨rfl, rfl⟩ := h
    rfl
  | cons r rs ih =>
    obtain ⟨mid, now, later, hstep, hrest, rfl⟩ := h
    simp only [List.cons_append, parseEvents, hstep, ih hrest, List.append_assoc]

/-! ## What each iteration sends -/

/-- The messages sent in each iteration, one entry for every result the loop consumes. -/
def trace (p : XmlParser) : ParseState → List ReadResult → List (List DataMessage)
  | _, [] => []
  | s, r :: rest =>
    match p.step alive s r with
    | .next s' sent => sent :: p.trace s' rest
    | .stop _ => []

theorem trace_flatten (s : ParseState) (rs : List ReadResult) :
    (p.trace s rs).flatten = (p.parseEvents alive s rs).2 := by
  induction rs generalizing s with
  | nil => rfl
  | cons r rest ih =>
    cases h : p.step alive s r with
    | next s' sent => simp [trace, parseEvents, h, ih]
    | stop result => simp [trace, parseEvents, h]

theorem trace_append {s s' : ParseState} {rs : List ReadResult} {sent : List DataMessage}
    (h : p.Runs s rs s' sent) (rest : List ReadResult) :
    p.trace s (rs ++ rest) = p.trace s rs ++ p.trace s' rest := by
  induction rs generalizing s sent with
  | nil =>
    obtain ⟨rfl, rfl⟩ := h
    rfl
  | cons r rs ih =>
    obtain ⟨mid, now, later, hstep, hrest, rfl⟩ := h
    simp only [List.cons_append, trace, hstep, ih hrest]

theorem trace_of_runs {s s' : ParseState} {rs : List ReadResult} {sent : List DataMessage}
    (h : p.Runs s rs s' sent) : (p.trace s rs).length = rs.length ∧ (p.trace s rs).flatten = sent := by
  induction rs generalizing s sent with
  | nil =>
    obtain ⟨rfl, rfl⟩ := h
    exact ⟨rfl, rfl⟩
  | cons r rs ih =>
    obtain ⟨mid, now, later, hstep, hrest, rfl⟩ := h
    obtain ⟨hlen, hflat⟩ := ih hrest
    simp [trace, hstep, hlen, hflat]

end XmlParser

end DiscogsIngestion
