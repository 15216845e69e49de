import Mathlib.Data.List.Infix
import DiscogsIngestion.Text
import DiscogsIngestion.Types

/-!
# File names

* `extractVersionFromFilename`, `extractDataType` : what the orchestrator reads from a dump's name;
* `StateMarker.extractDataType` : what the state marker reads from it;
* `extractMonthFromFilename` : what the downloader reads from it;
* `isChecksum` : the names that the orchestrator leaves out;
* `HasMonth`, `extractMonthFromFilename_eq_none` : where that panics;
* `stateMarker_extractDataType_iff` : both read the same type exactly if it is spelled in lower case.
-/

namespace DiscogsIngestion

def segments (s : String) : List String := (s.toList.splitOn '_').map String.ofList

def stem (s : String) : String := String.ofList (s.toList.takeWhile (· ≠ '.'))

/-- The version of `discogs_20260101_artists.xml.gz` is `20260101`. -/
def extractVersionFromFilename (filename : String) : Option String := (segments filename)[1]?

/-- The data type of `discogs_YYYYMMDD_datatype.xml.gz`. -/
def extractDataType (filename : String) : Option DataType :=
  (segments filename)[2]?.bind fun part => DataType.fromStr (stem part)

/-- The state marker's own reading, which takes any type. -/
def StateMarker.extractDataType (filename : String) : Option String := (segments filename)[2]?.map stem

/-- The month `YYYYMM` of a version, or else the one of the clock. The slice panics if it ends within a character. -/
def extractMonthFromFilename (month filename : String) : Option String :=
  match (segments filename)[1]? with
  | some datePart => if 6 ≤ datePart.utf8ByteSize then (bytePrefix datePart.toList 6).map String.ofList else some month
  | none => some month

def isChecksum (filename : String) : Bool := "CHECKSUM".toList <:+: filename.toList

/-! ## What the names are made of -/

theorem fromStr_eq_some {s : String} {dt : DataType} :
    DataType.fromStr s = some dt ↔ DataType.lowercase s = dt.asStr := by
  unfold DataType.fromStr
  generalize DataType.lowercase s = lower
  constructor
  · intro h
    split_ifs at h with h1 h2 h3 h4
    all_goals
      obtain rfl := Option.some.inj h
      assumption
  · rintro rfl
    cases dt <;> decide

theorem segments_append {a b : String} (ha : '_' ∉ a.toList) : segments (a ++ "_" ++ b) = a :: segments b := by
  unfold segments
  rw [String.toList_append, String.toList_append, List.append_assoc]
  show ((a.toList ++ '_' :: b.toList).splitOn '_').map String.ofList = _
  rw [Words.splitOn_append_cons ha, List.map_cons, String.ofList_toList]

theorem segments_self {a : String} (ha : '_' ∉ a.toList) : segments a = [a] := by
  unfold segments
  rw [Words.splitOn_of_not_mem ha, List.map_singleton, String.ofList_toList]

theorem stem_append {a b : String} (ha : '.' ∉ a.toList) : stem (a ++ "." ++ b) = a := by
  have hbefore : ∀ c ∈ a.toList, decide (c ≠ '.') = true := by
    intro c hc
    exact decide_eq_true fun heq => ha (heq ▸ hc)
  unfold stem
  rw [String.toList_append, String.toList_append, List.append_assoc, List.takeWhile_append_of_pos hbefore]
  show String.ofList (a.toList ++ ('.' :: b.toList).takeWhile (· ≠ '.')) = a
  rw [List.takeWhile_cons_of_neg (by decide), List.append_nil, String.ofList_toList]

/-- The data type is spelled in lower case. -/
def IsLowerTyped (filename : String) : Prop :=
  ∀ part ∈ (segments filename)[2]?, DataType.lowercase (stem part) = stem part

instance (filename : String) : Decidable (IsLowerTyped filename) :=
  decidable_of_iff ((segments filename)[2]?.all fun part => DataType.lowercase (stem part) = stem part) (by
    unfold IsLowerTyped
    cases (segments filename)[2]? <;> simp)

/-- The orchestrator folds the case of the type, and the state marker does not. -/
theorem stateMarker_extractDataType_iff {filename : String} {dt : DataType} (h : extractDataType filename = some dt) :
    StateMarker.extractDataType filename = some dt.asStr ↔ IsLowerTyped filename := by
  obtain ⟨part, hpart, hdt⟩ := Option.bind_eq_some_iff.1 h
  have hlower := fromStr_eq_some.1 hdt
  unfold StateMarker.extractDataType IsLowerTyped
  rw [hpart, Option.map_some, Option.some.injEq, ← hlower]
  simp only [Option.mem_def, Option.some.injEq, forall_eq']
  exact eq_comm

/-- The part has fewer bytes than a month, or a character ends with its sixth byte. -/
def HasMonth (part : String) : Prop :=
  part.utf8ByteSize < 6 ∨ ∃ month rest : String, part = month ++ rest ∧ month.utf8ByteSize = 6

theorem hasMonth_iff {part : String} : HasMonth part ↔ part.utf8ByteSize < 6 ∨ bytePrefix part.toList 6 ≠ none := by
  unfold HasMonth
  rw [Option.ne_none_iff_exists']
  refine or_congr_right ⟨?_, ?_⟩
  · rintro ⟨month, rest, rfl, hsize⟩
    refine ⟨month.toList, bytePrefix_eq_some.2 ⟨?_, ?_⟩⟩
    · rw [String.toList_append]
      exact List.prefix_append ..
    · rw [← utf8ByteSize_ofList, String.ofList_toList, hsize]
  · rintro ⟨start, hstart⟩
    obtain ⟨⟨rest, hrest⟩, hsum⟩ := bytePrefix_eq_some.1 hstart
    refine ⟨String.ofList start, String.ofList rest, ?_, ?_⟩
    · rw [← String.ofList_append, hrest, String.ofList_toList]
    · rw [utf8ByteSize_ofList, hsum]

instance (part : String) : Decidable (HasMonth part) := decidable_of_iff _ hasMonth_iff.symm

theorem extractMonthFromFilename_eq_none {month filename : String} :
    extractMonthFromFilename month filename = none ↔ ∃ part, (segments filename)[1]? = some part ∧ ¬HasMonth part := by
  unfold extractMonthFromFilename
  cases (segments filename)[1]? with
  | none => simp
  | some part =>
    simp only [Option.some.injEq, exists_eq_left', hasMonth_iff, not_or, not_lt, not_not]
    split_ifs with hlong
    · rw [Option.map_eq_none_iff]
      exact (and_iff_right hlong).symm
    · simp [hlong]

example : extractVersionFromFilename "discogs_20260101_artists.xml.gz" = some "20260101" := by decide

example : extractDataType "discogs_20260101_Artists.xml.gz" = some .artists := by decide

example : isChecksum "discogs_20260101_CHECKSUM.txt" = true := by decide

end DiscogsIngestion
