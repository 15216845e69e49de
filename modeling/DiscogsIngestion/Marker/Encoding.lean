import DiscogsIngestion.Lib.Json
import DiscogsIngestion.StateMarker

/-!
# The state marker as JSON

What `serde` derives for the marker and its parts: the fields in the order of their declaration, a missing optional
field is none, an unknown one is passed over, a repeated one is an error.

* `Primitive`, `MarkerDocument` : what stands in a marker file;
* `toJson`, `fromJson` : for the marker and each of its parts;
* `StateMarker.fromJson_toJson` : every marker reads back as it was written.
-/

namespace DiscogsIngestion

/-- What the leaves of a marker file are. Numbers are integers: the one float of a marker is a number of whole
seconds. -/
inductive Primitive where
  | null
  | number (n : Int)
  | string (s : String)
  | time (t : DateTime)
  deriving DecidableEq

abbrev MarkerDocument := Json Primitive

namespace MarkerDocument

variable {τ : Type}

def ofNat (n : Nat) : MarkerDocument := .atom (.number n)

def toNat : MarkerDocument → Option Nat
  | .atom (.number (.ofNat n)) => some n
  | _ => none

def ofInt (n : Int) : MarkerDocument := .atom (.number n)

def toInt : MarkerDocument → Option Int
  | .atom (.number n) => some n
  | _ => none

def ofString (s : String) : MarkerDocument := .atom (.string s)

def toString : MarkerDocument → Option String
  | .atom (.string s) => some s
  | _ => none

def ofTime (t : DateTime) : MarkerDocument := .atom (.time t)

def toTime : MarkerDocument → Option DateTime
  | .atom (.time t) => some t
  | _ => none

def ofOption (encode : τ → MarkerDocument) : Option τ → MarkerDocument
  | some v => encode v
  | none => .atom .null

def toOption (decode : MarkerDocument → Option τ) : MarkerDocument → Option (Option τ)
  | .atom .null => some none
  | j => (decode j).map some

def optional (decode : MarkerDocument → Option τ) (name : String) (fields : List (String × MarkerDocument)) :
    Option (Option τ) :=
  match Json.field name fields with
  | some (some j) => toOption decode j
  | some none => some none
  | none => none

@[simp] theorem toNat_ofNat (n : Nat) : toNat (ofNat n) = some n := rfl

@[simp] theorem toInt_ofInt (n : Int) : toInt (ofInt n) = some n := rfl

@[simp] theorem toString_ofString (s : String) : toString (ofString s) = some s := rfl

@[simp] theorem toTime_ofTime (t : DateTime) : toTime (ofTime t) = some t := rfl

theorem toOption_ofOption {encode : τ → MarkerDocument} {decode : MarkerDocument → Option τ}
    (h : ∀ v, decode (encode v) = some v) (hnull : decode (.atom .null) = none) (v : Option τ) :
    toOption decode (ofOption encode v) = some v := by
  cases v with
  | none => rfl
  | some v =>
    have hne : encode v ≠ .atom .null := by
      intro heq
      have hv := h v
      rw [heq, hnull] at hv
      exact nomatch hv
    unfold ofOption toOption
    split
    · next heq => exact absurd heq hne
    · rw [h, Option.map_some]

@[simp] theorem toOption_ofTime (v : Option DateTime) : toOption toTime (ofOption ofTime v) = some v :=
  toOption_ofOption toTime_ofTime rfl v

@[simp] theorem toOption_ofString (v : Option String) : toOption toString (ofOption ofString v) = some v :=
  toOption_ofOption toString_ofString rfl v

@[simp] theorem toOption_ofInt (v : Option Int) : toOption toInt (ofOption ofInt v) = some v :=
  toOption_ofOption toInt_ofInt rfl v

@[simp] theorem toList_ofList (l : List String) : Json.toList toString (Json.ofList ofString l) = some l :=
  Json.toList_ofList toString_ofString l

theorem optional_eq {decode : MarkerDocument → Option τ} {name : String} {fields : List (String × MarkerDocument)}
    {j : MarkerDocument} (hnodup : (fields.map Prod.fst).Nodup) (hmem : (name, j) ∈ fields) :
    optional decode name fields = toOption decode j := by
  unfold optional
  rw [Json.field_eq_of_mem hnodup hmem]

end MarkerDocument

open MarkerDocument Json

/-! ## The parts of a marker -/

namespace PhaseStatus

def toJson : PhaseStatus → MarkerDocument
  | pending => ofString "pending"
  | inProgress => ofString "in_progress"
  | completed => ofString "completed"
  | failed => ofString "failed"

def fromJson : MarkerDocument → Option PhaseStatus
  | .atom (.string s) =>
    if s = "pending" then some pending
    else if s = "in_progress" then some inProgress
    else if s = "completed" then some completed
    else if s = "failed" then some failed
    else none
  | _ => none

@[simp] theorem fromJson_toJson (status : PhaseStatus) : fromJson status.toJson = some status := by
  cases status <;> decide

end PhaseStatus

namespace FileDownloadStatus

def toJson (d : FileDownloadStatus) : MarkerDocument :=
  .object [
    ("status", d.status.toJson),
    ("bytes_downloaded", ofNat d.bytesDownloaded),
    ("started_at", ofOption ofTime d.startedAt),
    ("completed_at", ofOption ofTime d.completedAt),
    ("checksum", ofOption ofString d.checksum)]

def fromJson : MarkerDocument → Option FileDownloadStatus
  | .object fields => do
    return {
      status := ← required PhaseStatus.fromJson "status" fields
      bytesDownloaded := ← required toNat "bytes_downloaded" fields
      startedAt := ← optional toTime "started_at" fields
      completedAt := ← optional toTime "completed_at" fields
      checksum := ← optional toString "checksum" fields }
  | _ => none

@[simp] theorem fromJson_toJson (d : FileDownloadStatus) : fromJson d.toJson = some d := by
  unfold fromJson toJson
  simp [required_eq, optional_eq]

end FileDownloadStatus

namespace DownloadPhase

def toJson (p : DownloadPhase) : MarkerDocument :=
  .object [
    ("status", p.status.toJson),
    ("started_at", ofOption ofTime p.startedAt),
    ("completed_at", ofOption ofTime p.completedAt),
    ("files_downloaded", ofNat p.filesDownloaded),
    ("files_total", ofNat p.filesTotal),
    ("bytes_downloaded", ofNat p.bytesDownloaded),
    ("downloads_by_file", ofTable FileDownloadStatus.toJson p.downloadsByFile),
    ("errors", ofList ofString p.errors)]

def fromJson : MarkerDocument → Option DownloadPhase
  | .object fields => do
    return {
      status := ← required PhaseStatus.fromJson "status" fields
      startedAt := ← optional toTime "started_at" fields
      completedAt := ← optional toTime "completed_at" fields
      filesDownloaded := ← required toNat "files_downloaded" fields
      filesTotal := ← required toNat "files_total" fields
      bytesDownloaded := ← required toNat "bytes_downloaded" fields
      downloadsByFile := ← required (toTable FileDownloadStatus.fromJson) "downloads_by_file" fields
      errors := ← required (toList toString) "errors" fields }
  | _ => none

@[simp] theorem fromJson_toJson (p : DownloadPhase) : fromJson p.toJson = some p := by
  unfold fromJson toJson
  simp [required_eq, optional_eq, toTable_ofTable FileDownloadStatus.fromJson_toJson]

end DownloadPhase

namespace FileProcessingStatus

def toJson (f : FileProcessingStatus) : MarkerDocument :=
  .object [
    ("status", f.status.toJson),
    ("records_extracted", ofNat f.recordsExtracted),
    ("messages_published", ofNat f.messagesPublished),
    ("batches_sent", ofNat f.batchesSent),
    ("started_at", ofOption ofTime f.startedAt),
    ("completed_at", ofOption ofTime f.completedAt),
    ("source_checksum", ofOption ofString f.sourceChecksum)]

def fromJson : MarkerDocument → Option FileProcessingStatus
  | .object fields => do
    return {
      status := ← required PhaseStatus.fromJson "status" fields
      recordsExtracted := ← required toNat "records_extracted" fields
      messagesPublished := ← required toNat "messages_published" fields
      batchesSent := ← required toNat "batches_sent" fields
      startedAt := ← optional toTime "started_at" fields
      completedAt := ← optional toTime "completed_at" fields
      sourceChecksum := ← optional toString "source_checksum" fields }
  | _ => none

@[simp] theorem fromJson_toJson (f : FileProcessingStatus) : fromJson f.toJson = some f := by
  unfold fromJson toJson
  simp [required_eq, optional_eq]

end FileProcessingStatus

namespace ProcessingPhase

def toJson (p : ProcessingPhase) : MarkerDocument :=
  .object [
    ("status", p.status.toJson),
    ("started_at", ofOption ofTime p.startedAt),
    ("completed_at", ofOption ofTime p.completedAt),
    ("files_processed", ofNat p.filesProcessed),
    ("files_total", ofNat p.filesTotal),
    ("records_extracted", ofNat p.recordsExtracted),
    ("current_file", ofOption ofString p.currentFile),
    ("progress_by_file", ofTable FileProcessingStatus.toJson p.progressByFile),
    ("errors", ofList ofString p.errors)]

def fromJson : MarkerDocument → Option ProcessingPhase
  | .object fields => do
    return {
      status := ← required PhaseStatus.fromJson "status" fields
      startedAt := ← optional toTime "started_at" fields
      completedAt := ← optional toTime "completed_at" fields
      filesProcessed := ← required toNat "files_processed" fields
      filesTotal := ← required toNat "files_total" fields
      recordsExtracted := ← required toNat "records_extracted" fields
      currentFile := ← optional toString "current_file" fields
      progressByFile := ← required (toTable FileProcessingStatus.fromJson) "progress_by_file" fields
      errors := ← required (toList toString) "errors" fields }
  | _ => none

@[simp] theorem fromJson_toJson (p : ProcessingPhase) : fromJson p.toJson = some p := by
  unfold fromJson toJson
  simp [required_eq, optional_eq, toTable_ofTable FileProcessingStatus.fromJson_toJson]

end ProcessingPhase

namespace PublishingPhase

def toJson (p : PublishingPhase) : MarkerDocument :=
  .object [
    ("status", p.status.toJson),
    ("messages_published", ofNat p.messagesPublished),
    ("batches_sent", ofNat p.batchesSent),
    ("errors", ofList ofString p.errors),
    ("last_amqp_heartbeat", ofOption ofTime p.lastAmqpHeartbeat)]

def fromJson : MarkerDocument → Option PublishingPhase
  | .object fields => do
    return {
      status := ← required PhaseStatus.fromJson "status" fields
      messagesPublished := ← required toNat "messages_published" fields
      batchesSent := ← required toNat "batches_sent" fields
      errors := ← required (toList toString) "errors" fields
      lastAmqpHeartbeat := ← optional toTime "last_amqp_heartbeat" fields }
  | _ => none

@[simp] theorem fromJson_toJson (p : PublishingPhase) : fromJson p.toJson = some p := by
  unfold fromJson toJson
  simp [required_eq, optional_eq]

end PublishingPhase

namespace ExtractionSummary

def toJson (e : ExtractionSummary) : MarkerDocument :=
  .object [
    ("overall_status", e.overallStatus.toJson),
    ("total_duration_seconds", ofOption ofInt e.totalDurationSeconds),
    ("files_by_type", ofTable PhaseStatus.toJson e.filesByType)]

def fromJson : MarkerDocument → Option ExtractionSummary
  | .object fields => do
    return {
      overallStatus := ← required PhaseStatus.fromJson "overall_status" fields
      totalDurationSeconds := ← optional toInt "total_duration_seconds" fields
      filesByType := ← required (toTable PhaseStatus.fromJson) "files_by_type" fields }
  | _ => none

@[simp] theorem fromJson_toJson (e : ExtractionSummary) : fromJson e.toJson = some e := by
  unfold fromJson toJson
  simp [required_eq, optional_eq, toTable_ofTable PhaseStatus.fromJson_toJson]

end ExtractionSummary

/-! ## The marker -/

namespace StateMarker

def toJson (m : StateMarker) : MarkerDocument :=
  .object [
    ("metadata_version", ofString m.metadataVersion),
    ("last_updated", ofTime m.lastUpdated),
    ("current_version", ofString m.currentVersion),
    ("download_phase", m.downloadPhase.toJson),
    ("processing_phase", m.processingPhase.toJson),
    ("publishing_phase", m.publishingPhase.toJson),
    ("summary", m.summary.toJson)]

def fromJson : MarkerDocument → Option StateMarker
  | .object fields => do
    return {
      metadataVersion := ← required toString "metadata_version" fields
      lastUpdated := ← required toTime "last_updated" fields
      currentVersion := ← required toString "current_version" fields
      downloadPhase := ← required DownloadPhase.fromJson "download_phase" fields
      processingPhase := ← required ProcessingPhase.fromJson "processing_phase" fields
      publishingPhase := ← required PublishingPhase.fromJson "publishing_phase" fields
      summary := ← required ExtractionSummary.fromJson "summary" fields }
  | _ => none

theorem fromJson_toJson (m : StateMarker) : fromJson m.toJson = some m := by
  unfold fromJson toJson
  simp [required_eq]

end StateMarker

end DiscogsIngestion
