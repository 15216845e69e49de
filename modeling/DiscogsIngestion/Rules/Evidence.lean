import DiscogsIngestion.Rules.Flagged

/-!
# The evidence for flagged records

* `flagsOf`, `handled` : the calls that the validator makes for a record, and the records that it comes to;
* `Kept` : what a run of calls has written; `Kept.write`, `kept_run` : one call and a run;
* `Evident` : every line names a file with the record that caused it, and no two records share a file;
* `evident_iff` : so it is exactly if the ids of flagged records are told apart by what is left of them, and each
  flagged record has its files kept.
-/

namespace DiscogsIngestion.Rules

variable {F : Type} [Double F]

/-! ## The calls for a record -/

section Calls

variable (casing : CaseMapping) (rules : CompiledRulesConfig F) (dataType : String)

/-- The calls of the writer for a record. -/
def flagsOf (message : DataMessage) : List Flag :=
  match shouldSkipRecord casing rules dataType message.data with
  | some info => [.skip message.id info message.rawXml message.data]
  | none =>
    let data := (applyFilters rules dataType message.data).1
    (evaluateRules rules dataType data).map fun v =>
      .violation message.id v message.rawXml data (v.severity = .error || v.severity = .warning)

/-- The parsed JSON of a record, as it is when the record is flagged. -/
def parsedJson (message : DataMessage) : Value :=
  match shouldSkipRecord casing rules dataType message.data with
  | some _ => message.data
  | none => (applyFilters rules dataType message.data).1

/-- The records that the stage comes to, the last of which may find the receiver gone. -/
def handled (receiver : Nat → Bool) : Nat → List DataMessage → List DataMessage
  | _, [] => []
  | sent, message :: rest =>
    if (shouldSkipRecord casing rules dataType message.data).isSome then message :: handled receiver sent rest
    else if receiver sent then message :: handled receiver (sent + 1) rest
    else [message]

variable {casing rules dataType} {message : DataMessage}

theorem of_mem_flagsOf {flag : Flag} (h : flag ∈ flagsOf casing rules dataType message) :
    flag.recordId = message.id ∧ flag.data = parsedJson casing rules dataType message := by
  unfold flagsOf at h
  unfold parsedJson
  cases hskip : shouldSkipRecord casing rules dataType message.data with
  | some info =>
    rw [hskip] at h
    rw [List.mem_singleton.1 h]
    exact ⟨rfl, rfl⟩
  | none =>
    rw [hskip] at h
    obtain ⟨v, -, rfl⟩ := List.mem_map.1 h
    exact ⟨rfl, rfl⟩

theorem flags_recordViolations (message : DataMessage) (violations : List Violation) (s : ValidatorState) :
    (violations.foldl (recordViolation dataType message) s).flags = (s.flags ++ violations.map fun v =>
        Flag.violation message.id v message.rawXml message.data (v.severity = .error || v.severity = .warning)) ∧
      (violations.foldl (recordViolation dataType message) s).sent = s.sent := by
  induction violations generalizing s with
  | nil => exact ⟨(List.append_nil _).symm, rfl⟩
  | cons v violations ih =>
    obtain ⟨hflags, hsent⟩ := ih (recordViolation dataType message s v)
    refine ⟨hflags.trans ?_, hsent⟩
    rw [List.map_cons, List.append_cons]
    rfl

variable (casing rules dataType) in
theorem validateMessage_flags (s : ValidatorState) (message : DataMessage) :
    ∃ s' sent, validateMessage casing rules dataType s message = (s', sent) ∧ s'.sent = s.sent ∧
      s'.flags = s.flags ++ flagsOf casing rules dataType message ∧
      sent.isSome = (shouldSkipRecord casing rules dataType message.data).isNone := by
  unfold validateMessage flagsOf
  cases hskip : shouldSkipRecord casing rules dataType message.data with
  | some info => exact ⟨_, _, rfl, rfl, rfl, rfl⟩
  | none =>
    obtain ⟨hflags, hsent⟩ := flags_recordViolations
      { message with data := (applyFilters rules dataType message.data).1 }
      (evaluateRules rules dataType (applyFilters rules dataType message.data).1)
      { s with
        report := (s.report.incrementTotal dataType).recordFilterActions dataType
          (applyFilters rules dataType message.data).2 }
    exact ⟨_, _, rfl, hsent, hflags, rfl⟩

/-- The calls of the stage are those for the records that it comes to. -/
theorem flags_validateAll (receiver : Nat → Bool) (messages : List DataMessage) (s : ValidatorState) :
    (validateAll casing rules dataType receiver s messages).flags =
      s.flags ++ (handled casing rules dataType receiver s.sent.length messages).flatMap
        (flagsOf casing rules dataType) := by
  induction messages generalizing s with
  | nil => exact (List.append_nil _).symm
  | cons message rest ih =>
    obtain ⟨s', sent, hstep, hsame, hflags, hsent⟩ :=
      validateMessage_flags casing rules dataType s message
    unfold validateAll handled
    rw [hstep, ← Option.not_isNone, ← hsent]
    cases sent with
    | none =>
      rw [if_pos (by decide), List.flatMap_cons, ← List.append_assoc, ← hflags, ← hsame]
      exact ih s'
    | some message' =>
      rw [if_neg (by simp)]
      dsimp only
      rw [hsame]
      by_cases halive : receiver s.sent.length = true
      · rw [if_pos halive, if_pos halive, ih, hflags, List.flatMap_cons, List.append_assoc]
        dsimp only
        rw [List.length_append, List.length_singleton]
      · rw [if_neg halive, if_neg halive, hflags, List.flatMap_singleton]

end Calls

/-! ## What a run has written -/

/-- The call that writes the files of an id. -/
def firstCapture (isAlphanumeric : Char → Bool) (flags : List Flag) (safeId : String) : Option Flag :=
  flags.find? fun flag => flag.captures && flag.safeId isAlphanumeric = safeId

section Run

variable {isAlphanumeric : Char → Bool} {dataType : String} {before w : FlaggedRecordWriter}
  {calls : List (String × Flag)}

/-- The writer after these calls: the files of an id are those of the first call that has them kept. -/
structure Kept (isAlphanumeric : Char → Bool) (dataType : String) (before : FlaggedRecordWriter)
    (calls : List (String × Flag)) (w : FlaggedRecordWriter) : Prop where
  baseDir : w.baseDir = before.baseDir
  written : ∀ safeId, dataType ++ ":" ++ safeId ∈ w.writtenRecords ↔
    (firstCapture isAlphanumeric (calls.map Prod.snd) safeId).isSome
  files : ∀ raw, w.files (before.jsonPath dataType (sanitizeFilename isAlphanumeric raw)) =
    match firstCapture isAlphanumeric (calls.map Prod.snd) (sanitizeFilename isAlphanumeric raw) with
    | some flag => some (.json flag.data.toJson.tokens)
    | none => before.files (before.jsonPath dataType (sanitizeFilename isAlphanumeric raw))
  violations : w.violations = before.violations
  skipped : w.skipped = before.skipped
  violationLines : (w.jsonlWriters.lookup dataType).getD [] =
    calls.filterMap fun call => call.2.violationEntry isAlphanumeric call.1
  skipLines : (w.skipJsonlWriters.lookup dataType).getD [] =
    calls.filterMap fun call => call.2.skipEntry isAlphanumeric call.1

theorem kept_new (discogsRoot version : String) (files : String → Option EvidenceFile)
    (violations : String → List ViolationEntry) (skipped : String → List SkipEntry) :
    Kept isAlphanumeric dataType (.new discogsRoot version files violations skipped) []
      (.new discogsRoot version files violations skipped) :=
  ⟨rfl, fun _ => ⟨nofun, nofun⟩, fun _ => rfl, rfl, rfl, rfl, rfl⟩

theorem firstCapture_concat (flags : List Flag) (flag : Flag) (safeId : String) :
    firstCapture isAlphanumeric (flags ++ [flag]) safeId = (firstCapture isAlphanumeric flags safeId).or
      (if flag.captures ∧ flag.safeId isAlphanumeric = safeId then some flag else none) := by
  unfold firstCapture
  rw [List.find?_append, List.find?_singleton]
  simp

theorem jsonPath_inj (h : AlphanumericLaws isAlphanumeric) {raw raw' : String}
    (heq : w.jsonPath dataType (sanitizeFilename isAlphanumeric raw) =
      w.jsonPath dataType (sanitizeFilename isAlphanumeric raw')) :
    sanitizeFilename isAlphanumeric raw = sanitizeFilename isAlphanumeric raw' := by
  have hname := Path.join_inj (isComponent_sanitizeFilename h raw (by decide) (by decide))
    (isComponent_sanitizeFilename h raw' (by decide) (by decide)) heq
  exact (String.append_left_inj ".json").1 hname

theorem xmlPath_inj (h : AlphanumericLaws isAlphanumeric) {raw raw' : String}
    (heq : w.xmlPath dataType (sanitizeFilename isAlphanumeric raw) =
      w.xmlPath dataType (sanitizeFilename isAlphanumeric raw')) :
    sanitizeFilename isAlphanumeric raw = sanitizeFilename isAlphanumeric raw' := by
  have hname := Path.join_inj (isComponent_sanitizeFilename h raw (by decide) (by decide))
    (isComponent_sanitizeFilename h raw' (by decide) (by decide)) heq
  exact (String.append_left_inj ".xml").1 hname

theorem xmlPath_ne_jsonPath (h : AlphanumericLaws isAlphanumeric) (raw raw' : String) :
    w.xmlPath dataType (sanitizeFilename isAlphanumeric raw) ≠
      w.jsonPath dataType (sanitizeFilename isAlphanumeric raw') := by
  intro heq
  have hname := Path.join_inj (isComponent_sanitizeFilename h raw (by decide) (by decide))
    (isComponent_sanitizeFilename h raw' (by decide) (by decide)) heq
  have hlast := congrArg (fun name : String => name.toList.getLast?) hname
  rw [String.toList_append, String.toList_append, List.getLast?_append, List.getLast?_append] at hlast
  have hxml : ".xml".toList.getLast? = some 'l' := by decide
  have hjson : ".json".toList.getLast? = some 'n' := by decide
  rw [hxml, hjson, Option.some_or, Option.some_or] at hlast
  exact absurd hlast (by decide)

/-- A call for which nothing is kept, or the files are there. -/
theorem Kept.captured_eq_self (hw : Kept isAlphanumeric dataType before calls w) {flag : Flag}
    (hflag : flag.captures = true →
      (firstCapture isAlphanumeric (calls.map Prod.snd) (flag.safeId isAlphanumeric)).isSome) :
    w.captured isAlphanumeric dataType flag = w ∧ ∀ safeId,
      firstCapture isAlphanumeric (calls.map Prod.snd ++ [flag]) safeId =
        firstCapture isAlphanumeric (calls.map Prod.snd) safeId := by
  constructor
  · unfold FlaggedRecordWriter.captured
    split_ifs with hcaptures
    · exact FlaggedRecordWriter.capture_of_written _ _ ((hw.written _).2 (hflag hcaptures))
    · rfl
  · intro safeId
    rw [firstCapture_concat]
    split_ifs with hcase
    · obtain ⟨hcaptures, rfl⟩ := hcase
      exact Option.or_of_isSome (hflag hcaptures)
    · exact Option.or_none

/-- A call that is the first to have the files of its id kept. -/
theorem Kept.captured_first (h : AlphanumericLaws isAlphanumeric) (hw : Kept isAlphanumeric dataType before calls w)
    {flag : Flag} (hcaptures : flag.captures = true)
    (hfirst : firstCapture isAlphanumeric (calls.map Prod.snd) (flag.safeId isAlphanumeric) = none) :
    ∃ files, w.captured isAlphanumeric dataType flag = { w with
        files, writtenRecords := (dataType ++ ":" ++ flag.safeId isAlphanumeric) :: w.writtenRecords } ∧
      ∀ raw, files (before.jsonPath dataType (sanitizeFilename isAlphanumeric raw)) =
        if flag.safeId isAlphanumeric = sanitizeFilename isAlphanumeric raw then some (.json flag.data.toJson.tokens)
        else w.files (before.jsonPath dataType (sanitizeFilename isAlphanumeric raw)) := by
  have hnew : dataType ++ ":" ++ flag.safeId isAlphanumeric ∉ w.writtenRecords := by
    rw [hw.written, hfirst]
    exact nofun
  have hsame : ∀ safeId, before.jsonPath dataType safeId = w.jsonPath dataType safeId := by
    intro safeId
    unfold FlaggedRecordWriter.jsonPath FlaggedRecordWriter.typeDir
    rw [hw.baseDir]
  obtain ⟨files, heq, hown, hfiles⟩ := FlaggedRecordWriter.capture_eq flag.rawXml flag.data hnew
  refine ⟨files, (if_pos hcaptures).trans heq, fun raw => ?_⟩
  rw [hsame]
  split_ifs with hraw
  · rw [← hraw]
    exact hown
  · refine hfiles _ (xmlPath_ne_jsonPath h _ _).symm fun hpath => hraw ?_
    exact (jsonPath_inj h hpath).symm

theorem Kept.captured (h : AlphanumericLaws isAlphanumeric) (hw : Kept isAlphanumeric dataType before calls w)
    (flag : Flag) : ∃ files keys,
    w.captured isAlphanumeric dataType flag = { w with files, writtenRecords := keys } ∧
    (∀ safeId, dataType ++ ":" ++ safeId ∈ keys ↔
      (firstCapture isAlphanumeric (calls.map Prod.snd ++ [flag]) safeId).isSome) ∧
    ∀ raw, files (before.jsonPath dataType (sanitizeFilename isAlphanumeric raw)) =
      match firstCapture isAlphanumeric (calls.map Prod.snd ++ [flag]) (sanitizeFilename isAlphanumeric raw) with
      | some flag => some (.json flag.data.toJson.tokens)
      | none => before.files (before.jsonPath dataType (sanitizeFilename isAlphanumeric raw)) := by
  by_cases hflag : flag.captures = true →
      (firstCapture isAlphanumeric (calls.map Prod.snd) (flag.safeId isAlphanumeric)).isSome
  · obtain ⟨heq, hsame⟩ := hw.captured_eq_self hflag
    refine ⟨w.files, w.writtenRecords, heq, fun safeId => ?_, fun raw => ?_⟩
    · rw [hsame]
      exact hw.written safeId
    · rw [hsame]
      exact hw.files raw
  · obtain ⟨hcaptures, hnone⟩ := Classical.not_imp.1 hflag
    have hfirst := Option.not_isSome_iff_eq_none.1 hnone
    obtain ⟨files, heq, hfiles⟩ := hw.captured_first h hcaptures hfirst
    refine ⟨files, _, heq, fun safeId => ?_, fun raw => ?_⟩
    · rw [List.mem_cons, hw.written, firstCapture_concat]
      by_cases hid : flag.safeId isAlphanumeric = safeId
      · rw [if_pos ⟨hcaptures, hid⟩, hid]
        simp
      · have hkey : dataType ++ ":" ++ safeId ≠ dataType ++ ":" ++ flag.safeId isAlphanumeric :=
          fun heq => hid ((String.append_right_inj _).1 heq).symm
        rw [if_neg fun hcase => hid hcase.2, Option.or_none]
        exact or_iff_right hkey
    · rw [hfiles, firstCapture_concat]
      by_cases hid : flag.safeId isAlphanumeric = sanitizeFilename isAlphanumeric raw
      · rw [if_pos hid, if_pos ⟨hcaptures, hid⟩, ← hid, hfirst, Option.none_or]
      · rw [if_neg hid, if_neg fun hcase => hid hcase.2, Option.or_none]
        exact hw.files raw

/-- What one call does. -/
theorem Kept.write (h : AlphanumericLaws isAlphanumeric) (hw : Kept isAlphanumeric dataType before calls w)
    (now : String) (flag : Flag) :
    Kept isAlphanumeric dataType before (calls ++ [(now, flag)]) (w.write isAlphanumeric now dataType flag) := by
  obtain ⟨files, keys, heq, hwritten, hfiles⟩ := hw.captured h flag
  have hcalls : (calls ++ [(now, flag)]).map Prod.snd = calls.map Prod.snd ++ [flag] := List.map_append
  rw [FlaggedRecordWriter.write_eq, heq]
  refine ⟨hw.baseDir, fun safeId => ?_, fun raw => ?_, hw.violations, hw.skipped, ?_, ?_⟩
  · rw [hcalls]
    exact hwritten safeId
  · rw [hcalls]
    exact hfiles raw
  · rw [List.filterMap_append, ← hw.violationLines]
    cases hentry : flag.violationEntry isAlphanumeric now with
    | none => simp [hentry]
    | some entry => simp [hentry, Table.lookup_upsert]
  · rw [List.filterMap_append, ← hw.skipLines]
    cases hentry : flag.skipEntry isAlphanumeric now with
    | none => simp [hentry]
    | some entry => simp [hentry, Table.lookup_upsert]

theorem kept_run (h : AlphanumericLaws isAlphanumeric) (done : List (String × Flag))
    (hw : Kept isAlphanumeric dataType before done w) (calls : List (String × Flag)) :
    Kept isAlphanumeric dataType before (done ++ calls) (w.run isAlphanumeric dataType calls) := by
  induction calls generalizing done w with
  | nil =>
    rw [List.append_nil]
    exact hw
  | cons call calls ih =>
    rw [List.append_cons]
    exact ih (done ++ [call]) (hw.write h call.1 call.2)

end Run

/-! ## Evidence -/

section Evidence

variable (isAlphanumeric : Char → Bool) (casing : CaseMapping) (rules : CompiledRulesConfig F) (dataType : String)

def IsFlagged (message : DataMessage) : Prop := flagsOf casing rules dataType message ≠ []

/-- The file is there, with the parsed JSON of the record. -/
def Shows (w : FlaggedRecordWriter) (jsonFile : String) (message : DataMessage) : Prop :=
  w.files (Path.join (w.typeDir dataType) jsonFile) =
    some (.json (parsedJson casing rules dataType message).toJson.tokens)

def recordFiles (w : FlaggedRecordWriter) (message : DataMessage) : List String :=
  let safeId := sanitizeFilename isAlphanumeric message.id
  [w.xmlPath dataType safeId, w.jsonPath dataType safeId]

/-- The lines are those of the calls, each names a file with the record that caused it, and the files of different
records are different. -/
structure Evident (before after : FlaggedRecordWriter) (calls : List (String × Flag)) (records : List DataMessage) :
    Prop where
  violations : after.violations dataType =
    before.violations dataType ++ calls.filterMap fun call => call.2.violationEntry isAlphanumeric call.1
  skipped : after.skipped dataType =
    before.skipped dataType ++ calls.filterMap fun call => call.2.skipEntry isAlphanumeric call.1
  violation : ∀ message ∈ records, ∀ flag ∈ flagsOf casing rules dataType message, ∀ now entry,
    flag.violationEntry isAlphanumeric now = some entry →
      entry.recordId = message.id ∧ Shows casing rules dataType after entry.jsonFile message
  skip : ∀ message ∈ records, ∀ flag ∈ flagsOf casing rules dataType message, ∀ now entry,
    flag.skipEntry isAlphanumeric now = some entry →
      entry.recordId = message.id ∧ Shows casing rules dataType after entry.jsonFile message
  apart : ∀ message ∈ records, ∀ message' ∈ records, IsFlagged casing rules dataType message →
    IsFlagged casing rules dataType message' → message ≠ message' →
      (recordFiles isAlphanumeric dataType after message).Disjoint (recordFiles isAlphanumeric dataType after message')

/-- What is left of their ids tells flagged records apart, and each of them has its files kept. -/
structure KeptApart (records : List DataMessage) : Prop where
  apart : ∀ message ∈ records, ∀ message' ∈ records, IsFlagged casing rules dataType message →
    IsFlagged casing rules dataType message' →
      sanitizeFilename isAlphanumeric message.id = sanitizeFilename isAlphanumeric message'.id → message = message'
  kept : ∀ message ∈ records, IsFlagged casing rules dataType message →
    ∃ flag ∈ flagsOf casing rules dataType message, flag.captures = true

variable {isAlphanumeric casing rules dataType} {before after : FlaggedRecordWriter} {calls : List (String × Flag)}
  {records : List DataMessage}

theorem jsonFile_of_mem {message : DataMessage} {flag : Flag} (h : flag ∈ flagsOf casing rules dataType message) :
    flag.jsonFile isAlphanumeric = sanitizeFilename isAlphanumeric message.id ++ ".json" := by
  rw [← (of_mem_flagsOf h).1]
  rfl

theorem Evident.shows (h : Evident isAlphanumeric casing rules dataType before after calls records)
    {message : DataMessage} (hm : message ∈ records) {flag : Flag}
    (hflag : flag ∈ flagsOf casing rules dataType message) :
    Shows casing rules dataType after (flag.jsonFile isAlphanumeric) message := by
  cases flag with
  | violation recordId v rawXml data captureFiles => exact (h.violation message hm _ hflag "" _ rfl).2
  | skip recordId info rawXml data => exact (h.skip message hm _ hflag "" _ rfl).2

/-- Where every line is right, no two flagged records have one file. -/
theorem Evident.eq_of_safeId (h : Evident isAlphanumeric casing rules dataType before after calls records)
    {message message' : DataMessage} (hm : message ∈ records) (hm' : message' ∈ records)
    (hflagged : IsFlagged casing rules dataType message) (hflagged' : IsFlagged casing rules dataType message')
    (hid : sanitizeFilename isAlphanumeric message.id = sanitizeFilename isAlphanumeric message'.id) :
    message = message' := by
  by_contra hne
  refine h.apart message hm message' hm' hflagged hflagged' hne (List.mem_cons_self ..) ?_
  unfold recordFiles
  rw [hid]
  exact List.mem_cons_self ..

/-- The files of an id come from a record that has them kept. -/
theorem exists_of_firstCapture {flag : Flag} {raw : String}
    (h : firstCapture isAlphanumeric (records.flatMap (flagsOf casing rules dataType))
      (sanitizeFilename isAlphanumeric raw) = some flag) :
    ∃ message ∈ records, flag ∈ flagsOf casing rules dataType message ∧ flag.captures = true ∧
      sanitizeFilename isAlphanumeric message.id = sanitizeFilename isAlphanumeric raw := by
  obtain ⟨message, hm, hflag⟩ := List.mem_flatMap.1 (List.mem_of_find?_eq_some h)
  have hfound := List.find?_some h
  rw [Bool.and_eq_true, decide_eq_true_eq] at hfound
  refine ⟨message, hm, hflag, hfound.1, ?_⟩
  rw [← (of_mem_flagsOf hflag).1]
  exact hfound.2

variable (isAlphanumeric) in
theorem isSome_firstCapture {message : DataMessage} (hm : message ∈ records) {flag : Flag}
    (hflag : flag ∈ flagsOf casing rules dataType message) (hcaptures : flag.captures = true) :
    (firstCapture isAlphanumeric (records.flatMap (flagsOf casing rules dataType))
      (sanitizeFilename isAlphanumeric message.id)).isSome := by
  refine List.find?_isSome.2 ⟨flag, List.mem_flatMap.2 ⟨message, hm, hflag⟩, ?_⟩
  have hid : flag.safeId isAlphanumeric = sanitizeFilename isAlphanumeric message.id := by
    rw [← (of_mem_flagsOf hflag).1]
    rfl
  rw [Bool.and_eq_true, decide_eq_true_eq]
  exact ⟨hcaptures, hid⟩

theorem Kept.jsonPath_eq {w : FlaggedRecordWriter} (hw : Kept isAlphanumeric dataType before calls w)
    (safeId : String) :
    w.jsonPath dataType safeId = before.jsonPath dataType safeId := by
  unfold FlaggedRecordWriter.jsonPath FlaggedRecordWriter.typeDir
  rw [hw.baseDir]

section Settled

variable {w : FlaggedRecordWriter} (hw : Kept isAlphanumeric dataType before calls w)
  (hcalls : calls.map Prod.snd = records.flatMap (flagsOf casing rules dataType))

include hw hcalls

theorem shows_iff {message : DataMessage} {flag : Flag} (hflag : flag ∈ flagsOf casing rules dataType message) :
    Shows casing rules dataType w.flush (flag.jsonFile isAlphanumeric) message ↔
      (match firstCapture isAlphanumeric (records.flatMap (flagsOf casing rules dataType))
          (sanitizeFilename isAlphanumeric message.id) with
        | some first => some (.json first.data.toJson.tokens)
        | none => before.files (before.jsonPath dataType (sanitizeFilename isAlphanumeric message.id))) =
        some (EvidenceFile.json (parsedJson casing rules dataType message).toJson.tokens) := by
  rw [← hcalls, ← hw.files, ← hw.jsonPath_eq, jsonFile_of_mem hflag]
  exact Iff.rfl

theorem KeptApart.shows (h : KeptApart isAlphanumeric casing rules dataType records) {message : DataMessage}
    (hm : message ∈ records) {flag : Flag} (hflag : flag ∈ flagsOf casing rules dataType message) :
    Shows casing rules dataType w.flush (flag.jsonFile isAlphanumeric) message := by
  have hflagged : IsFlagged casing rules dataType message := List.ne_nil_of_mem hflag
  obtain ⟨keeps, hkeeps, hcaptures⟩ := h.kept message hm hflagged
  obtain ⟨first, hfirst⟩ := Option.isSome_iff_exists.1 (isSome_firstCapture isAlphanumeric hm hkeeps
    hcaptures)
  obtain ⟨message', hm', hflag', -, hid⟩ := exists_of_firstCapture hfirst
  have hsame : message' = message := h.apart message' hm' message hm (List.ne_nil_of_mem hflag') hflagged hid
  rw [shows_iff hw hcalls hflag, hfirst, ← hsame, ← (of_mem_flagsOf hflag').2]

theorem KeptApart.evident (hlaws : AlphanumericLaws isAlphanumeric)
    (h : KeptApart isAlphanumeric casing rules dataType records) :
    Evident isAlphanumeric casing rules dataType before w.flush calls records where
  violations := by
    rw [← hw.violationLines, ← hw.violations]
    rfl
  skipped := by
    rw [← hw.skipLines, ← hw.skipped]
    rfl
  violation := by
    intro message hm flag hflag now entry hentry
    have hshows := h.shows hw hcalls hm hflag
    have hid := (of_mem_flagsOf hflag).1
    cases flag with
    | skip => exact nomatch hentry
    | violation recordId v rawXml data captureFiles =>
      obtain rfl := Option.some.inj hentry
      exact ⟨hid, hshows⟩
  skip := by
    intro message hm flag hflag now entry hentry
    have hshows := h.shows hw hcalls hm hflag
    have hid := (of_mem_flagsOf hflag).1
    cases flag with
    | violation => exact nomatch hentry
    | skip recordId info rawXml data =>
      obtain rfl := Option.some.inj hentry
      exact ⟨hid, hshows⟩
  apart := by
    intro message hm message' hm' hflagged hflagged' hne path hpath hpath'
    refine hne (h.apart message hm message' hm' hflagged hflagged' ?_)
    simp only [recordFiles, List.mem_cons, List.not_mem_nil, or_false] at hpath hpath'
    rcases hpath with rfl | rfl
    · rcases hpath' with heq | heq
      · exact xmlPath_inj hlaws heq
      · exact absurd heq (xmlPath_ne_jsonPath hlaws _ _)
    · rcases hpath' with heq | heq
      · exact absurd heq.symm (xmlPath_ne_jsonPath hlaws _ _)
      · exact jsonPath_inj hlaws heq

/-- On a disk without files, every file has been written by a call. -/
theorem Evident.keptApart (hempty : ∀ path, before.files path = none)
    (h : Evident isAlphanumeric casing rules dataType before w.flush calls records) :
    KeptApart isAlphanumeric casing rules dataType records where
  apart := fun message hm message' hm' => h.eq_of_safeId hm hm'
  kept := by
    intro message hm hflagged
    obtain ⟨flag, hflag⟩ := List.exists_mem_of_ne_nil _ hflagged
    have hshows := (shows_iff hw hcalls hflag).1 (h.shows hm hflag)
    cases hfirst : firstCapture isAlphanumeric (records.flatMap (flagsOf casing rules dataType))
        (sanitizeFilename isAlphanumeric message.id) with
    | none =>
      rw [hfirst, hempty] at hshows
      exact nomatch hshows
    | some first =>
      obtain ⟨message', hm', hflag', hcaptures, hid⟩ := exists_of_firstCapture hfirst
      have hsame : message' = message := h.eq_of_safeId hm' hm (List.ne_nil_of_mem hflag') hflagged hid
      exact ⟨first, hsame ▸ hflag', hcaptures⟩

end Settled

/-- After a run of the validator every line names a file with the record that caused it, and no two records share
one, exactly if what is left of their ids tells the flagged records apart, and each of them has its files kept. -/
theorem evident_iff (hlaws : AlphanumericLaws isAlphanumeric) (casing : CaseMapping) (rules : CompiledRulesConfig F)
    (dataType : String) (receiver : Nat → Bool) (messages : List DataMessage) (discogsRoot version : String) :
    (∀ files violations skipped calls,
      calls.map Prod.snd = (messageValidator casing rules dataType receiver messages).flags →
        let before := FlaggedRecordWriter.new discogsRoot version files violations skipped
        Evident isAlphanumeric casing rules dataType before (before.run isAlphanumeric dataType calls).flush calls
          (handled casing rules dataType receiver 0 messages)) ↔
      KeptApart isAlphanumeric casing rules dataType (handled casing rules dataType receiver 0 messages) := by
  have hflags : (messageValidator casing rules dataType receiver messages).flags = _ :=
    flags_validateAll receiver messages {}
  rw [hflags]
  constructor
  · intro h
    have hcalls : ((handled casing rules dataType receiver 0 messages).flatMap (flagsOf casing rules dataType)).map
        (Prod.snd ∘ Prod.mk "") = _ := List.map_id _
    rw [← List.map_map] at hcalls
    exact Evident.keptApart (kept_run hlaws [] (kept_new ..) _) hcalls (fun _ => rfl)
      (h (fun _ => none) (fun _ => []) (fun _ => []) _ hcalls)
  · intro h files violations skipped calls hcalls
    exact h.evident (kept_run hlaws [] (kept_new ..) calls) hcalls hlaws

end Evidence

/-! ### Artists without a name -/

/-- A configuration with one rule, for artists, that requires a name. -/
def namedArtists (severity : Severity) : CompiledRulesConfig Nat :=
  ⟨AList.insert "artists" [⟨"named", "name", .required, severity⟩] ∅, ∅, ∅⟩

def namelessArtist (id : String) : DataMessage := ⟨id, "", .object [("id", .string id)], none⟩

theorem isFlagged_namelessArtist (severity : Severity) (id : String) :
    IsFlagged Identifiers.asciiCasing (namedArtists severity) "artists" (namelessArtist id) := by
  cases severity <;> exact List.cons_ne_nil _ _

def numberedArtists : List DataMessage := [namelessArtist "41", namelessArtist "42"]

/-- Two artists that are flagged, and whose ids are kept as they are. -/
theorem numberedArtists_evident :
    (∀ artist ∈ numberedArtists, IsFlagged Identifiers.asciiCasing (namedArtists .error) "artists" artist) ∧
    ∀ files violations skipped calls,
      calls.map Prod.snd = (messageValidator Identifiers.asciiCasing (namedArtists .error) "artists" (fun _ => true)
        numberedArtists).flags →
      let before := FlaggedRecordWriter.new "/data" "20260101" files violations skipped
      Evident Char.isAlphanum Identifiers.asciiCasing (namedArtists .error) "artists" before
        (before.run Char.isAlphanum "artists" calls).flush calls
        (handled Identifiers.asciiCasing (namedArtists .error) "artists" (fun _ => true) 0 numberedArtists) := by
  constructor
  · simp only [numberedArtists, List.forall_mem_cons, List.not_mem_nil, false_implies, implies_true, and_true]
    exact ⟨isFlagged_namelessArtist .error "41", isFlagged_namelessArtist .error "42"⟩
  · refine (evident_iff asciiAlphanumeric_laws ..).2 ⟨?_, ?_⟩
    · have hids : sanitizeFilename Char.isAlphanum "41" ≠ sanitizeFilename Char.isAlphanum "42" := by decide +kernel
      rintro artist hartist artist' hartist' - - hid
      rcases List.mem_pair.1 hartist with rfl | rfl <;> rcases List.mem_pair.1 hartist' with rfl | rfl
      · rfl
      · exact absurd hid hids
      · exact absurd hid.symm hids
      · rfl
    · rintro artist hartist -
      rcases List.mem_pair.1 hartist with rfl | rfl
      · exact ⟨_, List.mem_singleton.2 rfl, rfl⟩
      · exact ⟨_, List.mem_singleton.2 rfl, rfl⟩

def remarkedCalls : List (String × Flag) :=
  [("2026-01-01T00:00:00+00:00", .violation "42" ⟨"named", .info, "name", ""⟩ none (namelessArtist "42").data false)]

def emptyWriter : FlaggedRecordWriter := .new "/data" "20260101" (fun _ => none) (fun _ => []) fun _ => []

/-- A violation that is only a remark writes no files. -/
theorem remarkedArtist_not_evident :
    remarkedCalls.map Prod.snd = (messageValidator Identifiers.asciiCasing (namedArtists .info) "artists"
      (fun _ => true) [namelessArtist "42"]).flags ∧
    ¬Evident Char.isAlphanum Identifiers.asciiCasing (namedArtists .info) "artists" emptyWriter
      (emptyWriter.run Char.isAlphanum "artists" remarkedCalls).flush remarkedCalls
      (handled Identifiers.asciiCasing (namedArtists .info) "artists" (fun _ => true) 0 [namelessArtist "42"]) := by
  refine ⟨rfl, fun h => ?_⟩
  have hkept := Evident.keptApart (kept_run asciiAlphanumeric_laws [] (kept_new ..) remarkedCalls) rfl (fun _ => rfl) h
  obtain ⟨flag, hflag, hcaptures⟩ := hkept.kept (namelessArtist "42") (List.mem_singleton.2 rfl)
    (isFlagged_namelessArtist .info "42")
  obtain rfl := List.mem_singleton.1 hflag
  exact nomatch hcaptures

/-- An artist whose id has a slash, which is dropped, and the artist with the id that is left. -/
def slashedArtists : List DataMessage := [namelessArtist "4/2", namelessArtist "42"]

def slashedCalls : List (String × Flag) :=
  [("2026-01-01T00:00:00+00:00", .violation "4/2" ⟨"named", .error, "name", ""⟩ none (namelessArtist "4/2").data true),
    ("2026-01-01T00:00:01+00:00", .violation "42" ⟨"named", .error, "name", ""⟩ none (namelessArtist "42").data true)]

/-- The line of the second artist names the file of the first. -/
theorem slashedArtists_not_evident :
    slashedCalls.map Prod.snd =
      (messageValidator Identifiers.asciiCasing (namedArtists .error) "artists" (fun _ => true) slashedArtists).flags ∧
    ¬Evident Char.isAlphanum Identifiers.asciiCasing (namedArtists .error) "artists" emptyWriter
      (emptyWriter.run Char.isAlphanum "artists" slashedCalls).flush slashedCalls
      (handled Identifiers.asciiCasing (namedArtists .error) "artists" (fun _ => true) 0 slashedArtists) := by
  refine ⟨rfl, fun h => ?_⟩
  have hid : sanitizeFilename Char.isAlphanum "4/2" = sanitizeFilename Char.isAlphanum "42" := by decide +kernel
  have hsame := h.eq_of_safeId (List.mem_cons_self ..) (List.mem_cons_of_mem _ (List.mem_singleton.2 rfl))
    (isFlagged_namelessArtist .error "4/2") (isFlagged_namelessArtist .error "42") hid
  have hids : "4/2" = "42" := congrArg DataMessage.id hsame
  exact absurd hids (by decide)

end DiscogsIngestion.Rules
