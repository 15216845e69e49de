import DiscogsIngestion.LocalManifest
import DiscogsIngestion.Marker.Keys
import DiscogsIngestion.Session.Completion

/-!
# The types of the files of a run

* `startsLowerTyped` : the type of a file that is started is spelled in lower case;
* `AllKeyed`, `allKeyed_step` : the marker in memory and those that have been saved have the data types for their keys;
* `NamesAgree` : the three readings of a name agree, and a start keeps the keys;
* `namesAgree_iff` : they agree exactly on the names that are spelled in lower case, and runs on such files keep the
  keys.
-/

namespace DiscogsIngestion.Session

open StateMarker

variable {β : Type} {cfg : Config β} {s s' : State β} {a : Action β}

/-- A file that is started and has a data type has it in lower case. -/
def startsLowerTyped (s : State β) : Action β → Bool
  | .task i (.start _) => (s.run.tasks[i]?).all fun t =>
    (extractDataType t.file).isNone || decide (IsLowerTyped t.file)
  | _ => true

/-- What holds of the marker in memory and of those on disk. -/
structure AllKeyed (s : State β) : Prop where
  memory : IsKeyed s.marker
  disk : ∀ version tracked, s.markers version = some tracked → IsKeyed tracked.marker
  saved : ∀ version tracked, .saved version tracked ∈ s.log → IsKeyed tracked.marker

/-! ## The operations of a run -/

theorem isKeyed_recordDownload (h : IsKeyed s.marker) (file : String) (size : Nat) (saved : Bool) :
    IsKeyed (s.recordDownload file size saved).marker := by
  have hdownloaded := h.fileDownloaded file size s.clock
  cases hinfo : s.run.metadata.lookup file with
  | none =>
    rw [recordDownload_unknown size saved hinfo]
    exact hdownloaded.lastUpdated s.clock
  | some info =>
    rw [recordDownload_known size saved hinfo]
    exact (hdownloaded.fileBytesVerified file info.checksum).lastUpdated s.clock

theorem isKeyed_recordStaged (h : IsKeyed s.marker) (file expected : String) (size : Nat) (saved : Bool) :
    IsKeyed (s.recordStaged file expected size saved).marker := by
  have hstarted := (h.startDownload 1 s.clock).startFileDownload file s.clock
  have hdownloaded := (hstarted.fileDownloaded file size s.clock).fileBytesVerified file expected
  rw [recordStaged_marker]
  exact (hdownloaded.completeDownload s.clock).lastUpdated s.clock

theorem isKeyed_openProcessing (h : IsKeyed s.marker) (saved : Bool) :
    IsKeyed (openProcessing s.setDataFiles saved).1.marker := by
  rw [openProcessing_eq]
  split_ifs
  · exact (h.startProcessing _ _).lastUpdated _
  · exact (h.setFilesTotal _).lastUpdated _
  · exact h

theorem isKeyed_loadMarker (h : AllKeyed s) (force readable : Bool) (version : String) :
    IsKeyed (loadMarker s force readable version).marker := by
  obtain ⟨hnew, -⟩ | ⟨-, -, hfound⟩ := loadMarker_cases s force readable version
  · rw [hnew]
    exact isKeyed_new version s.clock
  · exact h.disk version _ hfound

theorem isKeyed_save {f : StateMarker → StateMarker} (hf : IsKeyed (f s.marker)) (saved : Bool) :
    IsKeyed ((s.update f).save saved).marker := by
  rw [State.save_marker]
  exact hf.lastUpdated _

theorem isKeyed_of_tracked (h : IsKeyed s.marker) (htracked : s'.run.tracked = s.run.tracked) : IsKeyed s'.marker := by
  unfold State.marker
  rw [htracked]
  exact h

/-- A task works on a file that has been started. -/
theorem isKeyed_task (h : IsKeyed s.marker) {i : Nat} {t : Task} {action : TaskAction}
    (ht : s.run.tasks[i]? = some t) (hentry : t.pc.working = true → (s.marker.progress t.file).isSome = true)
    (hok : startsLowerTyped s (.task i action) = true) (hs : TaskStep cfg s i t action s') : IsKeyed s'.marker := by
  cases hs with
  | @start saved dt _ hdt =>
    have hlower : IsLowerTyped t.file := by simpa [startsLowerTyped, ht, hdt] using hok
    exact (h.apply ((isTyped_iff hdt).2 hlower) s.clock .start).lastUpdated s.clock
  | checkpoint records batches saved hpc =>
    have hworking : t.pc.working = true := by rcases hpc with hpc | hpc <;> rw [hpc] <;> rfl
    exact (h.apply (h.files _ (hentry hworking)) s.clock (.progress records records batches)).lastUpdated s.clock
  | @completeFile saved total hpc =>
    have hworking : t.pc.working = true := by
      rw [hpc]
      rfl
    exact (h.apply (h.files _ (hentry hworking)) s.clock (.complete total)).lastUpdated s.clock
  | _ => exact h

/-! ## Every run -/

theorem AllKeyed.memory_step (h : AllKeyed s)
    (hentries : ∀ t ∈ s.run.tasks, t.pc.working = true → (s.marker.progress t.file).isSome = true)
    (hok : startsLowerTyped s a = true) (hs : step cfg s a = some s') : IsKeyed s'.marker := by
  have hm := h.memory
  cases Step.of_step hs with
  | beginReprocess => exact isKeyed_new _ _
  | beginContinue _ force _ readable => exact isKeyed_loadMarker h force readable _
  | startDownload _ saved => exact isKeyed_save (hm.startDownload _ _) saved
  | alreadyHave saved => exact isKeyed_of_tracked (isKeyed_recordDownload hm _ _ saved) (State.advance_tracked ..)
  | startFile saved => exact isKeyed_save (hm.startFileDownload _ _) saved
  | recordFile saved => exact isKeyed_of_tracked (isKeyed_recordDownload hm _ _ saved) (State.advance_tracked ..)
  | completeDownload saved => exact isKeyed_save (hm.completeDownload _) saved
  | recordStaged => exact isKeyed_of_tracked (isKeyed_recordStaged hm _ _ _ true) (State.finishStaged_tracked ..)
  | recordStagedFailed => exact isKeyed_of_tracked (isKeyed_recordStaged hm _ _ _ false) (State.goto_tracked ..)
  | prepareFailed saved => exact isKeyed_openProcessing hm saved
  | prepare saved => exact isKeyed_openProcessing hm saved
  | task ht htask => exact isKeyed_task hm ht (hentries _ (List.mem_of_getElem? ht)) hok htask
  | completeAll saved => exact isKeyed_save (hm.completeProcessing _) saved
  | joinOk saved => exact isKeyed_save (hm.completeProcessing _) saved
  | joinErr saved => exact isKeyed_save (f := id) hm saved
  | finalize saved => exact isKeyed_save hm.completeExtraction saved
  | _ => exact hm

theorem allKeyed_step (h : AllKeyed s) (hsound : Sound False s) (hok : startsLowerTyped s a = true)
    (hs : step cfg s a = some s') : AllKeyed s' := by
  have hmemory : IsKeyed s'.marker := h.memory_step hsound.entries hok hs
  refine ⟨hmemory, ?_, ?_⟩
  · intro version tracked hfound
    obtain hold | ⟨-, -, -, rfl⟩ := (step_logs hs).markers_cases hfound
    · exact h.disk version tracked hold
    · exact hmemory
  · intro version tracked hsaved
    obtain hold | hnew | hlast := (step_logs hs).mem_cases hsaved
    · exact h.saved version tracked hold
    · cases hnew
    · obtain ⟨-, rfl⟩ := Event.saved.inj hlast
      exact hmemory

theorem allKeyed_init (disk : String → Option β) (metadata : Table String TrustedFile) :
    AllKeyed (State.init disk metadata []) where
  memory := isKeyed_new "" 0
  disk _ _ hfound := by simp [State.init] at hfound
  saved _ _ hsaved := by simp [State.init] at hsaved

theorem allKeyed_of_reach {disk : String → Option β} {metadata : Table String TrustedFile}
    (h : Machine.Reach (step cfg) (fun s a => startsLowerTyped s a = true) (State.init disk metadata []) s) :
    AllKeyed s := by
  have hknown : ∀ s, Machine.Reach (step cfg) (fun s a => startsLowerTyped s a = true) (State.init disk metadata []) s →
      Sound False s := fun s hr => sound_of_reach (fun hno => hno.elim) hr
  refine h.invariant_of hknown (allKeyed_init disk metadata) ?_
  intro s a s' hsound hI hok hs
  exact allKeyed_step hI hsound hok hs

/-! ## The readings of a name -/

/-- The state marker and the check of the local manifest read from a name what the orchestrator reads, and the start of
the file keeps the keys of the summary. -/
structure NamesAgree (filename : String) : Prop where
  marker : ∀ dt, extractDataType filename = some dt → StateMarker.extractDataType filename = some dt.asStr
  manifest : ∀ dt, LocalManifest.validateFileName filename = .ok dt → extractDataType filename = some dt ∧
    ∃ version, extractVersionFromFilename filename = some version ∧ LocalManifest.IsVersion version
  keys : ∀ dt, extractDataType filename = some dt → ∀ m now, IsKeyed m → IsKeyed (m.startFileProcessing filename now)

/-- The readings of a name agree exactly if its type, where it has one, is spelled in lower case. A run that starts such
files alone has the data types for the keys of its summary, in memory and in every marker that it saves. -/
theorem namesAgree_iff (cfg : Config β) (disk : String → Option β) (metadata : Table String TrustedFile) :
    (∀ filename, NamesAgree filename ↔ ((extractDataType filename).isSome = true → IsLowerTyped filename)) ∧
    ∀ s, Machine.Reach (step cfg) (fun s a => startsLowerTyped s a = true) (State.init disk metadata []) s →
      ∀ m, m = s.marker ∨ (∃ version tracked, .saved version tracked ∈ s.log ∧ m = tracked.marker) →
        ∀ key status, m.summary.filesByType.lookup key = some status → ∃ dt : DataType, key = dt.asStr := by
  refine ⟨fun filename => ⟨fun h hsome => ?_, fun h => ⟨fun dt hdt => ?_, fun dt => LocalManifest.extract_of_valid,
    fun dt hdt m now hm => ?_⟩⟩, fun s hreach m hm => ?_⟩
  · obtain ⟨dt, hdt⟩ := Option.isSome_iff_exists.1 hsome
    exact (stateMarker_extractDataType_iff hdt).1 (h.marker dt hdt)
  · exact (stateMarker_extractDataType_iff hdt).2 (h (hdt ▸ rfl))
  · exact hm.startFileProcessing_iff.2 ((isTyped_iff hdt).2 (h (hdt ▸ rfl)))
  · have hkeyed := allKeyed_of_reach hreach
    rcases hm with rfl | ⟨version, tracked, hsaved, rfl⟩
    · exact hkeyed.memory.keys
    · exact (hkeyed.saved version tracked hsaved).keys

theorem lowerArtists_namesAgree : NamesAgree "discogs_20260101_artists.xml.gz" :=
  ((namesAgree_iff .plain (fun _ => none) ∅).1 _).2 fun _ => by decide +kernel

/-- A name that the local manifest may have, whose type the state marker does not know. -/
theorem upperArtists_not_namesAgree :
    LocalManifest.validateFileName "discogs_20260101_Artists.xml.gz" = .ok .artists ∧
    extractDataType "discogs_20260101_Artists.xml.gz" = some .artists ∧
    StateMarker.extractDataType "discogs_20260101_Artists.xml.gz" = some "Artists" ∧
    ¬NamesAgree "discogs_20260101_Artists.xml.gz" := by
  have hmarker : StateMarker.extractDataType "discogs_20260101_Artists.xml.gz" = some "Artists" := by decide +kernel
  have hdt : extractDataType "discogs_20260101_Artists.xml.gz" = some .artists := by decide +kernel
  have hvalid : LocalManifest.IsVersion "20260101" := ⟨by decide, List.all_eq_true.1 (by decide)⟩
  refine ⟨LocalManifest.validateFileName_eq_ok.2 ⟨"20260101", "Artists", by decide, hvalid, by decide⟩,
    hdt, hmarker, fun h => ?_⟩
  have hsame := (h.marker .artists hdt).symm.trans hmarker
  exact absurd hsame (by decide)

end DiscogsIngestion.Session
