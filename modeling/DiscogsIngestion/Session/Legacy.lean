import DiscogsIngestion.Session.Progress
import DiscogsIngestion.Session.Skip

/-!
# Finished files of unknown provenance

Markers written before `source_checksum` existed have finished files without one.

* `LegacyEntry`, `Legacy`, `legacy_step` : such an entry is never given one, and its file never gets a task;
* `Reverified` : a run has found a file on disk, and a later one has verified other bytes of it;
* `reverified_not_pending` : the file is not processed again.
-/

namespace DiscogsIngestion.Session

open StateMarker

variable {β : Type} {cfg : Config β} {s s' : State β} {a : Action β} {version file : String}

/-- A finished file whose bytes are unknown. -/
def LegacyEntry (m : StateMarker) (file : String) : Prop :=
  ∃ entry, m.progress file = some entry ∧ entry.status = .completed ∧ entry.sourceChecksum = none

theorem LegacyEntry.isCompleted {m : StateMarker} (h : LegacyEntry m file) : m.isCompleted file = true := by
  obtain ⟨entry, hentry, hdone, -⟩ := h
  exact isCompleted_iff.2 ⟨entry, hentry, hdone⟩

theorem LegacyEntry.not_stale {m : StateMarker} (h : LegacyEntry m file) (checksum : String) :
    ¬m.IsStale file checksum := by
  obtain ⟨entry, hentry, -, hnone⟩ := h
  rintro ⟨processed, hprocessed, -⟩
  unfold processedChecksum at hprocessed
  simp [hentry, hnone] at hprocessed

theorem LegacyEntry.congr {m m' : StateMarker} (h : LegacyEntry m file) (heq : m'.progress file = m.progress file) :
    LegacyEntry m' file := by
  unfold LegacyEntry
  rw [heq]
  exact h

theorem LegacyEntry.of_ne {m m' : StateMarker} (h : LegacyEntry m file) {other : String}
    {entry : Option FileProcessingStatus} (hchange : ChangesEntry m m' other entry) (hne : other ≠ file) :
    LegacyEntry m' file := by
  apply h.congr
  rw [hchange.progress, if_neg fun heq => hne heq.symm]

theorem Advance.legacy (h : Advance s a s') (hstart : Starts s a s' → LegacyEntry s'.marker file)
    (htasks : ∀ t ∈ s.run.tasks, t.file ≠ file) (hentry : LegacyEntry s.marker file) :
    LegacyEntry s'.marker file := by
  cases h with
  | keep hsame => exact hentry.congr (hsame.progress file)
  | start _ _ hstarts => exact hstart hstarts
  | @requeue f checksum _ _ hstale hrequeue =>
    apply hentry.congr
    rw [hrequeue.progress, if_neg]
    rintro rfl
    exact hentry.not_stale checksum hstale
  | startProcessing _ _ hchange => exact hentry.congr (hchange.progress file)
  | startFile ht _ hchange => exact hentry.of_ne hchange (htasks _ (List.mem_of_getElem? ht))
  | count _ _ ht _ hchange => exact hentry.of_ne hchange (htasks _ (List.mem_of_getElem? ht))
  | completeFile ht _ hchange => exact hentry.of_ne hchange (htasks _ (List.mem_of_getElem? ht))
  | completeProcessing _ hchange => exact hentry.congr (hchange.progress file)
  | completeExtraction _ hchange => exact hentry.congr (hchange.progress file)

/-- A file that was found finished, its bytes unknown. -/
structure Legacy (version file : String) (s : State β) : Prop where
  durable : ∃ tracked, s.markers version = some tracked ∧ LegacyEntry tracked.marker file
  memory : s.Busy → s.run.version = version → LegacyEntry s.marker file
  tasks : s.run.version = version → ∀ t ∈ s.run.tasks, t.file ≠ file

theorem Legacy.memory_step (h : Legacy version file s) (hok : Unforced s a) (hs : step cfg s a = some s')
    (hbusy : s.Busy ∨ s'.Busy) (hversion : s'.run.version = version) : LegacyEntry s'.marker file := by
  obtain ⟨tracked, hm, hentry⟩ := h.durable
  have hstart : Starts s a s' → LegacyEntry s'.marker file := by
    intro hstarts
    rw [hstarts.marker_eq hok (hversion ▸ hm) hentry.isCompleted]
    exact hentry
  rcases (step_moves hs).busy_cases hbusy with hstarts | ⟨hold, hsame⟩
  · exact hstart hstarts
  · have hversion' : s.run.version = version := hsame.symm.trans hversion
    exact (step_advance hs).legacy hstart (h.tasks hversion') (h.memory hold hversion')

theorem Legacy.tasks_step (h : Legacy version file s) (hok : Unforced s a) (hs : step cfg s a = some s')
    (hversion : s'.run.version = version) : ∀ t ∈ s'.run.tasks, t.file ≠ file := by
  intro t' ht'
  have hentry : LegacyEntry s'.marker file := h.memory_step hok hs (.inr (.inr (List.ne_nil_of_mem ht'))) hversion
  have hsame : s'.run.version = s.run.version → s'.run.tasks = s.run.tasks → t'.file ≠ file := by
    intro hv htasks
    exact h.tasks (hv.symm.trans hversion) t' (htasks ▸ ht')
  cases step_moves hs with
  | stay _ hregs htasks =>
    cases htasks with
    | same htasks => exact hsame hregs.version htasks
    | moved ht htasks _ hfile =>
      rw [htasks] at ht'
      rcases List.mem_or_eq_of_mem_set ht' with hold | rfl
      · exact h.tasks (hregs.version.symm.trans hversion) t' hold
      · rw [hfile]
        exact h.tasks (hregs.version.symm.trans hversion) _ (List.mem_of_getElem? ht)
  | stop _ hv htasks =>
    rcases htasks with htasks | htasks
    · exact hsame hv htasks
    · simp [htasks] at ht'
  | start _ _ htasks => simp [htasks] at ht'
  | early _ _ hregs htasks => exact hsame hregs.version htasks
  | spawn _ _ htasks =>
    rw [htasks] at ht'
    obtain ⟨f, hf, rfl⟩ := List.mem_map.1 ht'
    rintro rfl
    have hpending := (mem_pendingFiles.1 hf).2
    rw [hentry.isCompleted] at hpending
    cases hpending
  | complete _ _ _ hregs htasks => exact hsame hregs.version htasks
  | announce _ _ _ _ hregs htasks => exact hsame hregs.version htasks
  | broadcast _ _ _ hregs htasks => exact hsame hregs.version htasks
  | sent _ _ hregs htasks => exact hsame hregs.version htasks

theorem legacy_step (h : Legacy version file s) (hok : Unforced s a) (hs : step cfg s a = some s') :
    Legacy version file s' where
  durable := by
    cases step_logs hs with
    | quiet _ _ _ hmarkers => exact hmarkers ▸ h.durable
    | saving _ _ _ hmarkers hlive =>
      rw [hmarkers, Function.update_apply]
      split_ifs with hv
      · exact ⟨_, rfl, h.memory_step hok hs (.inl hlive.busy) hv.symm⟩
      · exact h.durable
  memory hbusy hversion := h.memory_step hok hs (.inr hbusy) hversion
  tasks := h.tasks_step hok hs

section Reach

variable {disk : String → Option β} {metadata : Table String TrustedFile} {found : List (String × StateMarker)}

/-- An earlier run has found the file on disk, with one checksum, and the download phase of a later one has verified
another. -/
def Reverified (cfg : Config β) (init : State β) (version file : String) (s : State β) : Prop :=
  ∃ s₁ s₂ saved c₁ c₂, Machine.Reach (step cfg) Unforced init s₁ ∧ s₁.run.version = version ∧
    s₁.run.todo.head? = some file ∧ (s₁.run.metadata.lookup file).map (·.checksum) = some c₁ ∧
    step cfg s₁ (.alreadyHave saved) = some s₂ ∧ Machine.Reach (step cfg) Unforced s₂ s ∧
    s.run.version = version ∧ s.run.pc = .downloaded ∧ file ∈ s.run.downloaded ∧
    (s.marker.download file).bind (·.checksum) = some c₂ ∧ c₁ ≠ c₂

/-- The later run processes the file again. -/
def AcquiresProvenance (cfg : Config β) (init : State β) (version file : String) : Prop :=
  ∀ s, Reverified cfg init version file s → file ∈ s.marker.pendingFiles s.run.downloaded

theorem legacy_init {marker : StateMarker} (hfound : found.lookup version = some marker)
    (hentry : LegacyEntry marker file) : Legacy version file (State.init disk metadata found) where
  durable := ⟨⟨marker, [], fun _ => 0⟩, congrArg (Option.map _) hfound, hentry⟩
  memory hbusy := by simp [State.Busy, State.init] at hbusy
  tasks _ t ht := by simp [State.init] at ht

theorem legacyEntry_of_reverified {marker : StateMarker} (hfound : found.lookup version = some marker)
    (hentry : LegacyEntry marker file) (h : Reverified cfg (State.init disk metadata found) version file s) :
    LegacyEntry s.marker file := by
  obtain ⟨s₁, s₂, saved, c₁, c₂, hreach₁, -, -, -, hs, hreach₂, hversion, hpc, -⟩ := h
  have hlegacy₁ : Legacy version file s₁ :=
    hreach₁.invariant (legacy_init hfound hentry) fun _ _ _ hI hok hs => legacy_step hI hok hs
  have hlegacy : Legacy version file s :=
    hreach₂.invariant (legacy_step (a := .alreadyHave saved) hlegacy₁ trivial hs)
      fun _ _ _ hI hok hs => legacy_step hI hok hs
  exact hlegacy.memory (.inl (by simp [hpc])) hversion

/-- Whatever bytes a later run verifies, a file that was found finished with unknown provenance is not processed
again. -/
theorem reverified_not_pending {marker : StateMarker} (hfound : found.lookup version = some marker)
    (hentry : LegacyEntry marker file) (h : Reverified cfg (State.init disk metadata found) version file s) :
    file ∉ s.marker.pendingFiles s.run.downloaded := by
  rw [mem_pendingFiles, (legacyEntry_of_reverified hfound hentry h).isCompleted]
  simp

end Reach

/-- A marker with a finished file, written before checksums were. -/
def legacyMarker : StateMarker :=
  { StateMarker.new "20260101" 0 with
    downloadPhase := { status := .completed }
    processingPhase :=
      { status := .inProgress
        startedAt := some 0
        progressByFile :=
          (∅ : Table ..).insert "discogs_20260101_artists.xml.gz" { status := .completed, recordsExtracted := 2 } }
    summary := { overallStatus := .inProgress } }

def legacyRoot : State String :=
  State.init (fun _ => some "one")
    (allDumps.foldl (fun metadata file => metadata.insert file ⟨"one", 3⟩) ∅) [("20260101", legacyMarker)]

def enterDownload (published : Option (Table String String)) : List (Action String) :=
  [.begin .downloader false allDumps true, .startDownload published true]

/-- The first run has found all dumps on disk and dies, and the second downloads new artists. -/
def changedDump : List (Action String) :=
  [.alreadyHave true, .alreadyHave true, .alreadyHave true, .completeDownload true, .saveMetadata true, .crash] ++
    enterDownload (some ((∅ : Table ..).insert "discogs_20260101_artists.xml.gz" "two")) ++
    [.startFile true, .attemptDone "two", .saveFileMetadata true, .recordFile true, .alreadyHave true,
      .alreadyHave true, .alreadyHave true, .completeDownload true, .saveMetadata true]

theorem legacyRoot_reverified :
    ∃ s, Reverified .plain legacyRoot "20260101" "discogs_20260101_artists.xml.gz" s := by
  have hrun : (Machine.run (step .plain) legacyRoot (enterDownload none)).any (fun s₁ =>
      s₁.run.version = "20260101" ∧ s₁.run.todo.head? = some "discogs_20260101_artists.xml.gz" ∧
      (s₁.run.metadata.lookup "discogs_20260101_artists.xml.gz").map (·.checksum) = some "one" ∧
      (step .plain s₁ (.alreadyHave true)).any (fun s₂ => (Machine.run (step .plain) s₂ changedDump).any (fun s =>
        s.run.version = "20260101" ∧ s.run.pc = .downloaded ∧
          "discogs_20260101_artists.xml.gz" ∈ s.run.downloaded ∧
          (s.marker.download "discogs_20260101_artists.xml.gz").bind (·.checksum) = some "two"))) = true := by
    decide +kernel
  obtain ⟨s₁, hs₁, hfacts₁⟩ := (Option.any_eq_true ..).1 hrun
  obtain ⟨hversion₁, htodo, hmetadata, hnext⟩ := of_decide_eq_true hfacts₁
  obtain ⟨s₂, hs₂, hrest⟩ := (Option.any_eq_true ..).1 hnext
  obtain ⟨s, hs, hfacts⟩ := (Option.any_eq_true ..).1 hrest
  obtain ⟨hversion, hpc, hfile, hchecksum⟩ := of_decide_eq_true hfacts
  refine ⟨s, s₁, s₂, true, "one", "two", ?_, hversion₁, htodo, hmetadata, hs₂, ?_, hversion, hpc, hfile, hchecksum,
    by decide⟩
  · exact Machine.Reach.init.append_run (enterDownload none) (by simp [enterDownload, Unforced]) hs₁
  · exact Machine.Reach.init.append_run changedDump (by simp [changedDump, enterDownload, Unforced]) hs

theorem legacyMarker_entry : LegacyEntry legacyMarker "discogs_20260101_artists.xml.gz" :=
  ⟨_, (Table.lookup_insert_eq _ _ _ _).trans (if_pos rfl), rfl, rfl⟩

/-- The artists of the second run are not processed. -/
theorem legacyRoot_not_pending : ∃ s,
    Reverified .plain legacyRoot "20260101" "discogs_20260101_artists.xml.gz" s ∧
      "discogs_20260101_artists.xml.gz" ∉ s.marker.pendingFiles s.run.downloaded := by
  obtain ⟨s, hs⟩ := legacyRoot_reverified
  exact ⟨s, hs, reverified_not_pending rfl legacyMarker_entry hs⟩

/-- Provenance is not acquired. -/
theorem legacyRoot_not_acquires :
    ¬AcquiresProvenance .plain legacyRoot "20260101" "discogs_20260101_artists.xml.gz" := by
  intro h
  obtain ⟨s, hs⟩ := legacyRoot_reverified
  have hpending := (mem_pendingFiles.1 (h s hs)).2
  rw [(legacyEntry_of_reverified rfl legacyMarker_entry hs).isCompleted] at hpending
  cases hpending

end DiscogsIngestion.Session
