import DiscogsIngestion.Session.Completion

/-!
# When a version is skipped

The decision looks at the marker of the version, and not at the files that the run would download.

* `SkipsProcessed` : a version is skipped when all files of the run are finished and the completion was broadcast;
* `CoversAtBegin` : a run that finds a completed version has no files but those of the run that completed it;
* `skipsProcessed` : under that condition no run skips what has not been processed;
* `smokeRun_skips_unprocessed` : a local manifest makes the next regular run skip the other dumps.
-/

namespace DiscogsIngestion.Session

open StateMarker

variable {β : Type} {cfg : Config β} {s s' : State β} {a : Action β}

/-- Whoever skipped a version found all its files finished, and their completion had been broadcast. -/
def SkipsProcessed (s : State β) : Prop :=
  ∀ version latest tracked, .decided version .skip latest tracked ∈ s.log →
    (∀ file ∈ latest, tracked.marker.isCompleted file = true) ∧
      ∃ startedAt counts, ∀ dt ∈ DataType.discogs, .extractionComplete version dt startedAt counts ∈ s.log

/-- A run that finds a completed version has no files but those of the run that completed it. -/
def CoversAtBegin (s : State β) : Action β → Prop
  | .begin _ false latest true => ∀ version tracked, latest.head?.bind extractVersionFromFilename = some version →
      s.markers version = some tracked → tracked.marker.summary.overallStatus = .completed →
      ∀ file ∈ latest, file ∈ tracked.dataFiles
  | _ => True

theorem overallStatus_of_skip {m : StateMarker} (h : m.shouldProcess = .skip) :
    m.summary.overallStatus = .completed := by
  simp only [shouldProcess] at h
  split_ifs at h
  assumption

/-- A version is skipped on account of the marker on disk. -/
theorem loadMarker_of_skip {force readable : Bool} {version : String}
    (h : (loadMarker s force readable version).marker.shouldProcess = .skip) :
    force = false ∧ readable = true ∧ s.markers version = some (loadMarker s force readable version) := by
  obtain ⟨hnew, -⟩ | hfound := loadMarker_cases s force readable version
  · rw [hnew] at h
    simp [Tracked.new, new, shouldProcess] at h
  · exact hfound

theorem skipsProcessed_step (h : SkipsProcessed s) (hsound : Sound False s) (hcovers : CoversAtBegin s a)
    (hs : step cfg s a = some s') : SkipsProcessed s' := by
  intro version latest tracked he
  have hlogs := step_logs hs
  obtain hold | hnew | hsaved := hlogs.mem_cases he
  · obtain ⟨hfiles, startedAt, counts, hsent⟩ := h version latest tracked hold
    exact ⟨hfiles, startedAt, counts, fun dt hdt => hlogs.mem (hsent dt hdt)⟩
  · obtain ⟨source, force, readable, rfl, hv, rfl, hskip⟩ := NewEvent.decided_iff.1 hnew
    obtain ⟨rfl, rfl, hfound⟩ := loadMarker_of_skip hskip.symm
    have hoverall := overallStatus_of_skip hskip.symm
    obtain ⟨-, -, hfiles, startedAt, counts, -, hsent⟩ := (hsound.saved version _ hfound).complete hoverall
    refine ⟨fun file hfile => hfiles file (hcovers version _ hv hfound hoverall file hfile), startedAt, counts, ?_⟩
    exact fun dt hdt => hlogs.mem (hsent dt hdt)
  · cases hsaved

/-- In every run, whatever its sources and crashes, in which no run finds a completed version with fewer files than
its own, nothing is skipped that has not been processed. -/
theorem skipsProcessed {disk : String → Option β} {metadata : Table String TrustedFile}
    (h : Machine.Reach (step cfg) CoversAtBegin (State.init disk metadata []) s) : SkipsProcessed s := by
  refine h.invariant_of (K := Sound False) (fun s hr => sound_of_reach (fun hno => hno.elim) hr) ?_
    fun _ _ _ hsound hI hcovers hs => skipsProcessed_step hI hsound hcovers hs
  exact fun _ _ _ he => (nomatch he)

/-- The files that a run has skipped though they are not finished. -/
def Event.skippedUnprocessed {β : Type} : Event β → List String
  | decided _ .skip latest tracked => tracked.marker.pendingFiles latest
  | _ => []

def smokeRun : List (Action String) :=
  localDownload "discogs_20260101_artists.xml.gz" "dump" ++ processFile 0 2 ++
    [.join true, .connect (some [("discogs_20260101_artists.xml.gz", processedEntry "dump" 2)])] ++ broadcastAll

def allDumps : List String :=
  ["discogs_20260101_artists.xml.gz", "discogs_20260101_labels.xml.gz", "discogs_20260101_masters.xml.gz",
    "discogs_20260101_releases.xml.gz"]

def Event.skips {β : Type} (version : String) : Event β → Bool
  | decided v .skip _ _ => v = version
  | _ => false

/-- The same manifest once more is skipped, and rightly so. -/
theorem smokeRun_twice_skipsProcessed : ∃ s : State String, Machine.Reach (step .plain) CoversAtBegin
    .empty s ∧ s.log.any (Event.skips "20260101") = true ∧ SkipsProcessed s := by
  let file := "discogs_20260101_artists.xml.gz"
  have hrun : (Machine.run (step .plain) .empty smokeRun).any (fun s =>
      (s.markers "20260101").any (·.dataFiles = [file]) = true ∧
        (step .plain s (.begin (.localManifest "dump" 4) false [file] true)).any (fun s =>
          s.log.any (Event.skips "20260101"))) = true := by
    decide +kernel
  obtain ⟨s₁, hs₁, hfacts⟩ := (Option.any_eq_true ..).1 hrun
  obtain ⟨hfiles, hagain⟩ := of_decide_eq_true hfacts
  obtain ⟨s₂, hs₂, hskips⟩ := (Option.any_eq_true ..).1 hagain
  obtain ⟨mid, hbegin, hrest⟩ := @Machine.run_cons _ _ _ _ _ _ smokeRun.tail hs₁
  have hfirst : CoversAtBegin .empty (.begin (.localManifest "dump" 4) false [file] true) :=
    fun _ _ _ hm => nomatch hm
  have hsecond : CoversAtBegin s₁ (.begin (.localManifest "dump" 4) false [file] true) := by
    intro version tracked hv hm _ f hf
    obtain rfl : "20260101" = version := Option.some.inj ((by decide :
      [file].head?.bind extractVersionFromFilename = some "20260101").symm.trans hv)
    simp only [hm, Option.any_some, decide_eq_true_eq] at hfiles
    rwa [hfiles]
  have hreach : Machine.Reach (step .plain) CoversAtBegin .empty s₁ :=
    (Machine.Reach.init.step hfirst hbegin).append_run smokeRun.tail
      (by simp [smokeRun, localDownload, processFile, broadcastAll, CoversAtBegin]) hrest
  exact ⟨s₂, hreach.step hsecond hs₂, hskips, skipsProcessed (hreach.step hsecond hs₂)⟩

/-- After a local manifest has been processed, the next regular run skips the dumps that it did not cover. -/
theorem smokeRun_skips_unprocessed : ∃ s : State String,
    Machine.Reach (step .plain) Machine.always .empty s ∧ ¬SkipsProcessed s := by
  have hrun : (Machine.run (step .plain) .empty
      (smokeRun ++ [.begin .downloader false allDumps true])).any (fun s =>
        "discogs_20260101_releases.xml.gz" ∈ s.log.flatMap Event.skippedUnprocessed) = true := by
    decide +kernel
  obtain ⟨s, hs, hfacts⟩ := (Option.any_eq_true ..).1 hrun
  obtain ⟨e, he, hfile⟩ := List.mem_flatMap.1 (of_decide_eq_true hfacts)
  refine ⟨s, .of_run _ hs, fun h => ?_⟩
  unfold Event.skippedUnprocessed at hfile
  split at hfile
  · obtain ⟨hlatest, hpending⟩ := mem_pendingFiles.1 hfile
    exact absurd ((h _ _ _ he).1 _ hlatest) (by simp [hpending])
  · simp at hfile

end DiscogsIngestion.Session
