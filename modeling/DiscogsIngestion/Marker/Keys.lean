import DiscogsIngestion.Marker.Commute

/-!
# The keys of the summary

* `IsKeyed` : the summary has the data types for its keys, and so have the files that the marker lists;
* `IsKeyed.write` : an operation that sets the status of the type of one file;
* `IsKeyed.startFileProcessing_iff` : a start keeps the keys exactly if the type of its file is spelled in lower case.
-/

namespace DiscogsIngestion.StateMarker

/-- What the state marker reads from the name, if it reads anything, is a data type. -/
def IsTyped (filename : String) : Prop :=
  ∀ key ∈ StateMarker.extractDataType filename, ∃ dt : DataType, key = dt.asStr

/-- The keys of the summary are data types, and the files with an entry have such types. -/
structure IsKeyed (m : StateMarker) : Prop where
  keys : ∀ key status, m.summary.filesByType.lookup key = some status → ∃ dt : DataType, key = dt.asStr
  files : ∀ file, (m.progress file).isSome = true → IsTyped file

variable {m m' : StateMarker} {file : String} {status : PhaseStatus} {now : DateTime} {n : Nat}

theorem isKeyed_new (version : String) (now : DateTime) : IsKeyed (.new version now) :=
  ⟨fun _ _ => nofun, fun _ => nofun⟩

def typeView (m : StateMarker) : Table String PhaseStatus × Table String FileProcessingStatus :=
  (m.summary.filesByType, m.processingPhase.progressByFile)

theorem IsKeyed.congr (h : IsKeyed m) (hsame : m'.typeView = m.typeView) : IsKeyed m' := by
  obtain ⟨hsummary, hprogress⟩ := Prod.mk.inj hsame
  refine ⟨fun key status => ?_, fun file => ?_⟩
  · rw [hsummary]
    exact h.keys key status
  · unfold StateMarker.progress
    rw [hprogress]
    exact h.files file

theorem IsKeyed.startDownload (h : IsKeyed m) (n : Nat) (now : DateTime) : IsKeyed (m.startDownload n now) := by
  refine h.congr ?_
  unfold StateMarker.startDownload
  rfl

theorem IsKeyed.startFileDownload (h : IsKeyed m) (file : String) (now : DateTime) :
    IsKeyed (m.startFileDownload file now) := by
  refine h.congr ?_
  unfold StateMarker.startFileDownload
  rfl

theorem IsKeyed.fileDownloaded (h : IsKeyed m) (file : String) (n : Nat) (now : DateTime) :
    IsKeyed (m.fileDownloaded file n now) := by
  refine h.congr ?_
  unfold StateMarker.fileDownloaded
  rfl

theorem IsKeyed.completeDownload (h : IsKeyed m) (now : DateTime) : IsKeyed (m.completeDownload now) := by
  refine h.congr ?_
  unfold StateMarker.completeDownload
  rfl

theorem IsKeyed.startProcessing (h : IsKeyed m) (n : Nat) (now : DateTime) : IsKeyed (m.startProcessing n now) := by
  refine h.congr ?_
  unfold StateMarker.startProcessing
  rfl

theorem IsKeyed.setFilesTotal (h : IsKeyed m) (n : Nat) : IsKeyed (m.setFilesTotal n) := by
  refine h.congr ?_
  unfold StateMarker.setFilesTotal
  rfl

theorem IsKeyed.completeProcessing (h : IsKeyed m) (now : DateTime) : IsKeyed (m.completeProcessing now) := by
  refine h.congr ?_
  unfold StateMarker.completeProcessing
  rfl

theorem IsKeyed.completeExtraction (h : IsKeyed m) : IsKeyed m.completeExtraction := by
  refine h.congr ?_
  unfold StateMarker.completeExtraction
  rfl

theorem IsKeyed.lastUpdated (h : IsKeyed m) (now : DateTime) : IsKeyed { m with lastUpdated := now } := h.congr rfl

theorem IsKeyed.write (h : IsKeyed m) (hfile : IsTyped file)
    (hkeys : ∀ key, m'.summary.filesByType.lookup key =
      if StateMarker.extractDataType file = some key then some status else m.summary.filesByType.lookup key)
    (hfiles : ∀ f, (m'.progress f).isSome = true → f = file ∨ (m.progress f).isSome = true) : IsKeyed m' := by
  refine ⟨fun key status' hlookup => ?_, fun f hf => ?_⟩
  · rw [hkeys] at hlookup
    split_ifs at hlookup with hkey
    · exact hfile key hkey
    · exact h.keys key status' hlookup
  · rcases hfiles f hf with rfl | hold
    · exact hfile
    · exact h.files f hold

theorem filesByType_requeue (m : StateMarker) (file key : String) :
    (m.requeue file).summary.filesByType.lookup key =
      if StateMarker.extractDataType file = some key then some .pending else m.summary.filesByType.lookup key := by
  have hset : (m.requeue file).summary.filesByType = (m.setTypeStatus file .pending).summary.filesByType := by
    unfold StateMarker.requeue setTypeStatus
    cases StateMarker.extractDataType file with
    | none =>
      dsimp only
      split_ifs <;> rfl
    | some dt =>
      dsimp only
      split_ifs <;> rfl
  rw [hset, filesByType_setTypeStatus]

theorem IsKeyed.requeue (h : IsKeyed m) (hfile : IsTyped file) : IsKeyed (m.requeue file) := by
  refine h.write hfile (filesByType_requeue m file) fun f hf => ?_
  rw [progress_requeue] at hf
  split_ifs at hf with heq
  · exact .inl heq
  · exact .inr hf

/-- A file is queued again only where it has an entry. -/
theorem IsKeyed.fileBytesVerified (h : IsKeyed m) (file checksum : String) :
    IsKeyed (m.fileBytesVerified file checksum) := by
  have hrecorded : IsKeyed (m.recordChecksum file checksum) := by
    refine h.congr ?_
    unfold recordChecksum
    rfl
  by_cases hstale : m.IsStale file checksum
  · rw [fileBytesVerified_of_stale hstale]
    refine hrecorded.requeue (h.files file ?_)
    obtain ⟨processed, hprocessed, -⟩ := hstale
    unfold processedChecksum at hprocessed
    cases hentry : m.progress file with
    | some status => rfl
    | none =>
      rw [hentry] at hprocessed
      exact nomatch hprocessed
  · rw [fileBytesVerified_of_not_stale hstale]
    exact hrecorded

theorem IsKeyed.apply (h : IsKeyed m) (hfile : IsTyped file) (now : DateTime) (op : FileOp) :
    IsKeyed (m.apply now file op) := by
  have hprogress := (changesEntry_apply m now file op).progress
  refine ⟨fun key status hlookup => ?_, fun f hf => ?_⟩
  · rw [filesByType_apply] at hlookup
    by_cases hkey : StateMarker.extractDataType file = some key
    · exact hfile key hkey
    · rw [writesType, if_neg hkey] at hlookup
      exact h.keys key status hlookup
  · rw [hprogress] at hf
    split_ifs at hf with heq
    · exact heq ▸ hfile
    · exact h.files f hf

/-- A start keeps the keys exactly if the type of the file is a data type. -/
theorem IsKeyed.startFileProcessing_iff (h : IsKeyed m) :
    IsKeyed (m.startFileProcessing file now) ↔ IsTyped file := by
  constructor
  · intro hstarted
    refine hstarted.files file ?_
    rw [changesEntry_startFileProcessing.progress_self]
    rfl
  · exact fun hfile => h.apply hfile now .start

/-- What is read from the name of a file that is processed is a data type exactly if it is spelled in lower case. -/
theorem isTyped_iff {dt : DataType} (hdt : DiscogsIngestion.extractDataType file = some dt) :
    IsTyped file ↔ IsLowerTyped file := by
  constructor
  · intro h part hpart
    have hkey : StateMarker.extractDataType file = some (stem part) := by
      unfold StateMarker.extractDataType
      rw [Option.mem_def.1 hpart]
      rfl
    obtain ⟨dt', hstem⟩ := h _ hkey
    rw [hstem]
    cases dt' <;> decide
  · intro h key hkey
    rw [(stateMarker_extractDataType_iff hdt).2 h] at hkey
    exact ⟨dt, (Option.some.inj hkey).symm⟩

end DiscogsIngestion.StateMarker
