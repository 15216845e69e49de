import DiscogsIngestion.Lib.Pairs
import DiscogsIngestion.Paths
import DiscogsIngestion.Record.Event
import DiscogsIngestion.Rules.Validator

/-!
# Flagged records

* `sanitizeFilename` : a record id as part of a file name;
* `FlaggedRecordWriter` : the writer, with the files below its directory;
* `writeViolation`, `writeSkip`, `flush` : its operations; `FlaggedRecordWriter.write` : one call,
  `run` : a run of them;
* `sanitizeFilename_safe` : what is left of an id, and where the files of a record are.
-/

namespace DiscogsIngestion.Rules

/-! ## File names -/

/-- What is used of `char::is_alphanumeric`: the separators of paths and the null character are not among them. -/
structure AlphanumericLaws (isAlphanumeric : Char → Bool) : Prop where
  slash : isAlphanumeric '/' = false
  backslash : isAlphanumeric '\\' = false
  null : isAlphanumeric '\x00' = false

section Sanitize

variable (isAlphanumeric : Char → Bool)

def retained (c : Char) : Bool := isAlphanumeric c || c = '-' || c = '_' || c = '.'

/-- Retain what may stand in a file name, and collapse each `..` that is left. -/
def sanitizeFilename (raw : String) : String :=
  String.ofList (Pairs.replacePair '.' '_' (raw.toList.filter (retained isAlphanumeric)))

end Sanitize

/-! ## The writer -/

inductive EvidenceFile where
  | xml (out : List XmlOut)
  | json (text : List (Token Scalar))

structure ViolationEntry where
  recordId : String
  rule : String
  severity : Severity
  field : String
  fieldValue : String
  xmlFile : String
  jsonFile : String
  timestamp : String
  deriving DecidableEq, Repr

structure SkipEntry where
  recordId : String
  reason : String
  field : String
  fieldValue : String
  xmlFile : String
  jsonFile : String
  timestamp : String
  deriving DecidableEq, Repr

/-- The writer, with the files by their paths and the logs by the data type in whose directory they are. -/
structure FlaggedRecordWriter where
  baseDir : String
  writtenRecords : List String
  /-- The logs that are open, and the lines that they have yet to flush. -/
  jsonlWriters : Table String (List ViolationEntry)
  skipJsonlWriters : Table String (List SkipEntry)
  files : String → Option EvidenceFile
  violations : String → List ViolationEntry
  skipped : String → List SkipEntry

namespace FlaggedRecordWriter

def new (discogsRoot version : String) (files : String → Option EvidenceFile)
    (violations : String → List ViolationEntry) (skipped : String → List SkipEntry) : FlaggedRecordWriter where
  baseDir := Path.join (Path.join discogsRoot "flagged") version
  writtenRecords := []
  jsonlWriters := ∅
  skipJsonlWriters := ∅
  files
  violations
  skipped

variable (w : FlaggedRecordWriter)

def typeDir (dataType : String) : String := Path.join w.baseDir dataType

def writeFile (path : String) (content : EvidenceFile) : FlaggedRecordWriter :=
  { w with files := Function.update w.files path (some content) }

/-- Write the XML and JSON files of a record, once per key. -/
def capture (dataType safeId : String) (rawXml : Option (List XmlOut)) (parsedJson : Value) : FlaggedRecordWriter :=
  let recordKey := dataType ++ ":" ++ safeId
  if recordKey ∈ w.writtenRecords then w
  else
    let w := match rawXml with
      | some out => w.writeFile (Path.join (w.typeDir dataType) (safeId ++ ".xml")) (.xml out)
      | none => w
    let w := w.writeFile (Path.join (w.typeDir dataType) (safeId ++ ".json")) (.json parsedJson.toJson.tokens)
    { w with writtenRecords := recordKey :: w.writtenRecords }

section Calls

variable (isAlphanumeric : Char → Bool) (now dataType recordId : String)

def writeViolation (violation : Violation) (rawXml : Option (List XmlOut)) (parsedJson : Value)
    (captureFiles : Bool) : FlaggedRecordWriter :=
  let safeId := sanitizeFilename isAlphanumeric recordId
  let w := if captureFiles then w.capture dataType safeId rawXml parsedJson else w
  let entry : ViolationEntry :=
    { recordId, rule := violation.ruleName, severity := violation.severity, field := violation.field
      fieldValue := violation.fieldValue, xmlFile := safeId ++ ".xml", jsonFile := safeId ++ ".json", timestamp := now }
  { w with jsonlWriters := w.jsonlWriters.upsert dataType [] (· ++ [entry]) }

def writeSkip (skipInfo : SkipInfo) (rawXml : Option (List XmlOut)) (parsedJson : Value) : FlaggedRecordWriter :=
  let safeId := sanitizeFilename isAlphanumeric recordId
  let w := w.capture dataType safeId rawXml parsedJson
  let entry : SkipEntry :=
    { recordId, reason := skipInfo.reason, field := skipInfo.field, fieldValue := skipInfo.fieldValue
      xmlFile := safeId ++ ".xml", jsonFile := safeId ++ ".json", timestamp := now }
  { w with skipJsonlWriters := w.skipJsonlWriters.upsert dataType [] (· ++ [entry]) }

/-- One call of the validator, at some time. -/
def write : Flag → FlaggedRecordWriter
  | .violation recordId violation rawXml data captureFiles =>
    w.writeViolation isAlphanumeric now dataType recordId violation rawXml data captureFiles
  | .skip recordId info rawXml data => w.writeSkip isAlphanumeric now dataType recordId info rawXml data

end Calls

/-- The lines that are waiting go to their logs. -/
def flush : FlaggedRecordWriter :=
  { w with
    jsonlWriters := w.jsonlWriters.mapValues fun _ => []
    skipJsonlWriters := w.skipJsonlWriters.mapValues fun _ => []
    violations := fun dataType => w.violations dataType ++ (w.jsonlWriters.lookup dataType).getD []
    skipped := fun dataType => w.skipped dataType ++ (w.skipJsonlWriters.lookup dataType).getD [] }

/-- Calls, each with the time it is made at. -/
def run (isAlphanumeric : Char → Bool) (dataType : String) (calls : List (String × Flag)) : FlaggedRecordWriter :=
  calls.foldl (fun w call => w.write isAlphanumeric call.1 dataType call.2) w

end FlaggedRecordWriter

/-! ## What is left of an id -/

section Sanitize

variable {isAlphanumeric : Char → Bool}

theorem toList_sanitizeFilename (raw : String) : (sanitizeFilename isAlphanumeric raw).toList =
    Pairs.replacePair '.' '_' (raw.toList.filter (retained isAlphanumeric)) := String.toList_ofList

theorem retained_of_mem {raw : String} {c : Char} (hc : c ∈ (sanitizeFilename isAlphanumeric raw).toList) :
    retained isAlphanumeric c = true := by
  rw [toList_sanitizeFilename] at hc
  rcases Pairs.mem_replacePair hc with rfl | hc
  · simp [retained]
  · exact (List.mem_filter.1 hc).2

theorem not_mem_sanitizeFilename {c : Char} (hc : retained isAlphanumeric c = false) (raw : String) :
    c ∉ (sanitizeFilename isAlphanumeric raw).toList := by
  intro hmem
  rw [retained_of_mem hmem] at hc
  exact nomatch hc

theorem noPair_sanitizeFilename (raw : String) : Pairs.NoPair '.' (sanitizeFilename isAlphanumeric raw).toList := by
  rw [toList_sanitizeFilename]
  exact Pairs.noPair_replacePair (by decide) _

theorem sanitizeFilename_idem (raw : String) :
    sanitizeFilename isAlphanumeric (sanitizeFilename isAlphanumeric raw) = sanitizeFilename isAlphanumeric raw := by
  apply String.toList_injective
  rw [toList_sanitizeFilename, List.filter_eq_self.2 fun c => retained_of_mem]
  exact Pairs.replacePair_of_noPair (noPair_sanitizeFilename raw)

/-- Behind an id, an extension makes the name of a file in a directory. -/
theorem isComponent_sanitizeFilename (h : AlphanumericLaws isAlphanumeric) (raw : String) {extension : String}
    (hlength : 3 ≤ extension.length) (hslash : '/' ∉ extension.toList) :
    Path.IsComponent (sanitizeFilename isAlphanumeric raw ++ extension) := by
  have hlong : 3 ≤ (sanitizeFilename isAlphanumeric raw ++ extension).length := by
    rw [String.length_append]
    omega
  refine ⟨fun heq => ?_, fun heq => ?_, fun heq => ?_, fun hmem => ?_⟩
  · rw [heq] at hlong
    exact absurd hlong (by decide)
  · rw [heq] at hlong
    exact absurd hlong (by decide)
  · rw [heq] at hlong
    exact absurd hlong (by decide)
  · rw [String.toList_append] at hmem
    rcases List.mem_append.1 hmem with hmem | hmem
    · exact not_mem_sanitizeFilename (by simp [retained, h.slash]) raw hmem
    · exact hslash hmem

end Sanitize

/-! ## What a call writes -/

namespace Flag

def recordId : Flag → String
  | violation recordId .. | skip recordId .. => recordId

def rawXml : Flag → Option (List XmlOut)
  | violation _ _ rawXml .. | skip _ _ rawXml _ => rawXml

def data : Flag → Value
  | violation _ _ _ data _ | skip _ _ _ data => data

/-- The files of the record are kept. -/
def captures : Flag → Bool
  | violation _ _ _ _ captureFiles => captureFiles
  | skip .. => true

section Lines

variable (isAlphanumeric : Char → Bool) (flag : Flag)

def safeId : String := sanitizeFilename isAlphanumeric flag.recordId

def xmlFile : String := flag.safeId isAlphanumeric ++ ".xml"

def jsonFile : String := flag.safeId isAlphanumeric ++ ".json"

/-- The line of the call in `violations.jsonl`. -/
def violationEntry (now : String) : Flag → Option ViolationEntry
  | flag@(violation recordId v ..) => some
    { recordId, rule := v.ruleName, severity := v.severity, field := v.field, fieldValue := v.fieldValue
      xmlFile := flag.xmlFile isAlphanumeric, jsonFile := flag.jsonFile isAlphanumeric, timestamp := now }
  | skip .. => none

/-- The line of the call in `skipped.jsonl`. -/
def skipEntry (now : String) : Flag → Option SkipEntry
  | violation .. => none
  | flag@(skip recordId info ..) => some
    { recordId, reason := info.reason, field := info.field, fieldValue := info.fieldValue
      xmlFile := flag.xmlFile isAlphanumeric, jsonFile := flag.jsonFile isAlphanumeric, timestamp := now }

end Lines

end Flag

namespace FlaggedRecordWriter

variable (w : FlaggedRecordWriter)

def xmlPath (dataType safeId : String) : String := Path.join (w.typeDir dataType) (safeId ++ ".xml")

def jsonPath (dataType safeId : String) : String := Path.join (w.typeDir dataType) (safeId ++ ".json")

section Capture

variable {w} {dataType safeId : String} (rawXml : Option (List XmlOut)) (data : Value)

theorem capture_of_written (h : dataType ++ ":" ++ safeId ∈ w.writtenRecords) :
    w.capture dataType safeId rawXml data = w := if_pos h

theorem capture_eq (h : dataType ++ ":" ++ safeId ∉ w.writtenRecords) :
    ∃ files, w.capture dataType safeId rawXml data =
        { w with files, writtenRecords := (dataType ++ ":" ++ safeId) :: w.writtenRecords } ∧
      files (w.jsonPath dataType safeId) = some (.json data.toJson.tokens) ∧
      ∀ path, path ≠ w.xmlPath dataType safeId → path ≠ w.jsonPath dataType safeId → files path = w.files path := by
  unfold capture
  dsimp only
  rw [if_neg h]
  cases rawXml with
  | none => exact ⟨_, rfl, Function.update_self .., fun path _ hjson => Function.update_of_ne hjson ..⟩
  | some out =>
    refine ⟨_, rfl, Function.update_self .., fun path hxml hjson => ?_⟩
    exact (Function.update_of_ne hjson ..).trans (Function.update_of_ne hxml ..)

theorem capture_frame : ∃ files keys,
    w.capture dataType safeId rawXml data = { w with files, writtenRecords := keys } ∧
      ∀ path, path ≠ w.xmlPath dataType safeId → path ≠ w.jsonPath dataType safeId → files path = w.files path := by
  by_cases h : dataType ++ ":" ++ safeId ∈ w.writtenRecords
  · rw [capture_of_written rawXml data h]
    exact ⟨w.files, w.writtenRecords, rfl, fun _ _ _ => rfl⟩
  · obtain ⟨files, heq, -, hfiles⟩ := capture_eq rawXml data h
    exact ⟨files, _, heq, hfiles⟩

end Capture

section Write

variable (isAlphanumeric : Char → Bool) (now dataType : String) (flag : Flag)

def captured : FlaggedRecordWriter :=
  if flag.captures then w.capture dataType (flag.safeId isAlphanumeric) flag.rawXml flag.data else w

theorem captured_frame : ∃ files keys, w.captured isAlphanumeric dataType flag =
      { w with files, writtenRecords := keys } ∧
    ∀ path, path ≠ w.xmlPath dataType (flag.safeId isAlphanumeric) →
      path ≠ w.jsonPath dataType (flag.safeId isAlphanumeric) → files path = w.files path := by
  unfold captured
  split_ifs
  · exact capture_frame ..
  · exact ⟨w.files, w.writtenRecords, rfl, fun _ _ _ => rfl⟩

theorem write_eq : w.write isAlphanumeric now dataType flag =
    { w.captured isAlphanumeric dataType flag with
      jsonlWriters := match flag.violationEntry isAlphanumeric now with
        | some entry => (w.captured isAlphanumeric dataType flag).jsonlWriters.upsert dataType [] (· ++ [entry])
        | none => (w.captured isAlphanumeric dataType flag).jsonlWriters
      skipJsonlWriters := match flag.skipEntry isAlphanumeric now with
        | some entry => (w.captured isAlphanumeric dataType flag).skipJsonlWriters.upsert dataType [] (· ++ [entry])
        | none => (w.captured isAlphanumeric dataType flag).skipJsonlWriters } := by
  cases flag <;> rfl

theorem write_files : (w.write isAlphanumeric now dataType flag).files =
    (w.captured isAlphanumeric dataType flag).files := by
  rw [write_eq]

end Write

/-- What a call writes, other than lines, are files of its record in the directory of its data type. -/
theorem isChild_of_written {isAlphanumeric : Char → Bool} (h : AlphanumericLaws isAlphanumeric) (now dataType : String)
    (flag : Flag) {path : String} (hpath : (w.write isAlphanumeric now dataType flag).files path ≠ w.files path) :
    Path.IsChild (w.typeDir dataType) path := by
  have hxml : Path.IsComponent (flag.xmlFile isAlphanumeric) := isComponent_sanitizeFilename h _ (by decide) (by decide)
  have hjson : Path.IsComponent (flag.jsonFile isAlphanumeric) :=
    isComponent_sanitizeFilename h _ (by decide) (by decide)
  rw [write_files] at hpath
  obtain ⟨files, keys, heq, hfiles⟩ := w.captured_frame isAlphanumeric dataType flag
  rw [heq] at hpath
  by_contra hchild
  refine hpath (hfiles path ?_ ?_)
  · rintro rfl
    exact hchild ⟨_, hxml, rfl⟩
  · rintro rfl
    exact hchild ⟨_, hjson, rfl⟩

end FlaggedRecordWriter

/-- A record id leaves nothing that could lead out of the directory in which the files of the record are written. -/
theorem sanitizeFilename_safe {isAlphanumeric : Char → Bool} (h : AlphanumericLaws isAlphanumeric) (raw : String) :
    (∀ c ∈ (sanitizeFilename isAlphanumeric raw).toList, c ≠ '/' ∧ c ≠ '\\' ∧ c ≠ '\x00') ∧
    ¬"..".toList <:+: (sanitizeFilename isAlphanumeric raw).toList ∧
    sanitizeFilename isAlphanumeric (sanitizeFilename isAlphanumeric raw) = sanitizeFilename isAlphanumeric raw ∧
    (∀ directory, Path.IsChild directory (Path.join directory (sanitizeFilename isAlphanumeric raw ++ ".xml")) ∧
      Path.IsChild directory (Path.join directory (sanitizeFilename isAlphanumeric raw ++ ".json"))) ∧
    ∀ (w : FlaggedRecordWriter) (now dataType : String) (flag : Flag), flag.recordId = raw →
      ∀ path, (w.write isAlphanumeric now dataType flag).files path ≠ w.files path →
        Path.IsChild (w.typeDir dataType) path := by
  refine ⟨fun c hc => ⟨?_, ?_, ?_⟩, Pairs.noPair_iff.1 (noPair_sanitizeFilename raw), sanitizeFilename_idem raw,
    fun directory => ⟨?_, ?_⟩, fun w now dataType flag _ path hpath => w.isChild_of_written h now dataType flag hpath⟩
  · rintro rfl
    exact not_mem_sanitizeFilename (by simp [retained, h.slash]) raw hc
  · rintro rfl
    exact not_mem_sanitizeFilename (by simp [retained, h.backslash]) raw hc
  · rintro rfl
    exact not_mem_sanitizeFilename (by simp [retained, h.null]) raw hc
  · exact ⟨_, isComponent_sanitizeFilename h raw (by decide) (by decide), rfl⟩
  · exact ⟨_, isComponent_sanitizeFilename h raw (by decide) (by decide), rfl⟩

theorem asciiAlphanumeric_laws : AlphanumericLaws Char.isAlphanum where
  slash := by decide
  backslash := by decide
  null := by decide

/-- An id that would lead out of the directory. -/
theorem sanitizeFilename_traversal : sanitizeFilename Char.isAlphanum "../a/b...c" = "_ab_.c" ∧
    (∀ directory, Path.IsChild directory
        (Path.join directory (sanitizeFilename Char.isAlphanum "../a/b...c" ++ ".xml")) ∧
      Path.IsChild directory (Path.join directory (sanitizeFilename Char.isAlphanum "../a/b...c" ++ ".json"))) :=
  ⟨by decide +kernel, (sanitizeFilename_safe asciiAlphanumeric_laws "../a/b...c").2.2.2.1⟩

end DiscogsIngestion.Rules
