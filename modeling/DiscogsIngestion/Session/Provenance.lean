import DiscogsIngestion.Session.Completion

/-!
# Which bytes a finished file was computed from

* `VerifiedFile` : a file whose bytes on disk are the ones that the marker has a checksum of;
* `Verifying`, `verifying_step` : the files that the download loop has visited are verified;
* `Origin`, `origin_step` : each entry comes from an attempt that read bytes with the entry's checksum;
* `completed_fromDisk` : after the download phase, what is finished was computed from the bytes on disk.
-/

namespace DiscogsIngestion.Session

open StateMarker

variable {β : Type} {cfg : Config β} {s s' : State β} {a : Action β} {file g : String}

/-! ## The download loop -/

/-- The bytes on disk are those that the marker has the checksum of, and no finished work is from others. -/
def VerifiedFile (cfg : Config β) (s : State β) (file : String) : Prop :=
  ∃ content, s.disk file = some content ∧
    (s.marker.download file).bind (·.checksum) = some (cfg.sha256 content) ∧
    ∀ processed, s.marker.processedChecksum file = some processed → processed = cfg.sha256 content

/-- A file that a change of the marker is not about. -/
structure SameFile (m m' : StateMarker) (file : String) : Prop where
  download : m'.download file = m.download file
  progress : m'.progress file = m.progress file

theorem SameFile.processedChecksum {m m' : StateMarker} (h : SameFile m m' file) :
    m'.processedChecksum file = m.processedChecksum file := by
  unfold StateMarker.processedChecksum
  rw [h.progress]

theorem VerifiedFile.keep (h : VerifiedFile cfg s file) (hdisk : s'.disk file = s.disk file)
    (hmarker : SameFile s.marker s'.marker file) : VerifiedFile cfg s' file := by
  obtain ⟨content, hcontent, hchecksum, hprocessed⟩ := h
  refine ⟨content, hdisk.trans hcontent, ?_, ?_⟩
  · rw [hmarker.download]
    exact hchecksum
  · intro processed hp
    rw [hmarker.processedChecksum] at hp
    exact hprocessed processed hp

theorem SameFile.refl {m : StateMarker} : SameFile m m file := ⟨rfl, rfl⟩

theorem SameFile.trans {m m' m'' : StateMarker} (h : SameFile m m' file) (h' : SameFile m' m'' file) :
    SameFile m m'' file := ⟨h'.download.trans h.download, h'.progress.trans h.progress⟩

section Marker

variable {m : StateMarker} {checksum : String} {now : DateTime} {n : Nat}

theorem sameFile_lastUpdated : SameFile m { m with lastUpdated := now } file := ⟨rfl, rfl⟩

theorem sameFile_completeDownload : SameFile m (m.completeDownload now) file :=
  ⟨download_completeDownload, sameProcessing_completeDownload.progress file⟩

theorem sameFile_startFileDownload (h : g ≠ file) : SameFile m (m.startFileDownload file now) g :=
  ⟨download_startFileDownload h, sameProcessing_startFileDownload.progress g⟩

theorem sameFile_fileDownloaded (h : g ≠ file) : SameFile m (m.fileDownloaded file n now) g :=
  ⟨download_fileDownloaded h, sameProcessing_fileDownloaded.progress g⟩

theorem sameFile_fileBytesVerified (h : g ≠ file) : SameFile m (m.fileBytesVerified file checksum) g := by
  constructor
  · rw [download_fileBytesVerified, if_neg h]
  · rw [progress_fileBytesVerified, if_neg fun hno => h hno.1]

end Marker

theorem recordDownload_disk (file : String) (size : Nat) (saved : Bool) :
    (s.recordDownload file size saved).disk = s.disk := by
  cases hinfo : s.run.metadata.lookup file with
  | none => rw [recordDownload_unknown size saved hinfo]; rfl
  | some info => rw [recordDownload_known size saved hinfo]; rfl

/-- A file that has just been verified. -/
theorem recordDownload_verifies {content : β} {info : TrustedFile} (size : Nat) (saved : Bool)
    (hdisk : s.disk file = some content) (hinfo : s.run.metadata.lookup file = some info)
    (hsum : info.checksum = cfg.sha256 content) : VerifiedFile cfg (s.recordDownload file size saved) file := by
  refine ⟨content, ?_, ?_, ?_⟩
  · rw [recordDownload_disk]
    exact hdisk
  · rw [recordDownload_known size saved hinfo, ← hsum]
    show (((s.marker.fileDownloaded file size s.clock).fileBytesVerified file info.checksum).download file).bind _ = _
    obtain ⟨status, hstatus⟩ := Option.isSome_iff_exists.1
      (@download_fileDownloaded_self s.marker file s.clock size)
    rw [download_fileBytesVerified, if_pos rfl, hstatus]
    rfl
  · rw [recordDownload_known size saved hinfo, ← hsum]
    intro processed hprocessed
    exact processedChecksum_fileBytesVerified hprocessed

theorem recordDownload_sameFile (size : Nat) (saved : Bool) (h : g ≠ file) :
    SameFile s.marker (s.recordDownload file size saved).marker g := by
  cases hinfo : s.run.metadata.lookup file with
  | none =>
    rw [recordDownload_unknown size saved hinfo]
    exact (sameFile_fileDownloaded h).trans sameFile_lastUpdated
  | some info =>
    rw [recordDownload_known size saved hinfo]
    exact ((sameFile_fileDownloaded h).trans (sameFile_fileBytesVerified h)).trans sameFile_lastUpdated

theorem recordStaged_verifies {content : β} (size : Nat) (saved : Bool) (hdisk : s.disk file = some content) :
    VerifiedFile cfg (s.recordStaged file (cfg.sha256 content) size saved) file := by
  let before := ((s.marker.startDownload 1 s.clock).startFileDownload file s.clock).fileDownloaded file size s.clock
  have hsame : SameFile (before.fileBytesVerified file (cfg.sha256 content))
      (s.recordStaged file (cfg.sha256 content) size saved).marker file := by
    rw [recordStaged_marker]
    exact sameFile_completeDownload.trans sameFile_lastUpdated
  refine ⟨content, hdisk, ?_, ?_⟩
  · obtain ⟨status, hstatus⟩ := Option.isSome_iff_exists.1 (@download_fileDownloaded_self
      ((s.marker.startDownload 1 s.clock).startFileDownload file s.clock) file s.clock size)
    have hbefore : before.download file = some status := hstatus
    rw [hsame.download, download_fileBytesVerified, if_pos rfl, hbefore]
    rfl
  · intro processed hprocessed
    rw [hsame.processedChecksum] at hprocessed
    exact processedChecksum_fileBytesVerified hprocessed

theorem contents_of_needsDownload (h : s.needsDownload cfg file = false) :
    ∃ content info, s.disk file = some content ∧ s.run.metadata.lookup file = some info ∧
      info.checksum = cfg.sha256 content := by
  have hno : s.shouldDownload cfg file = false := by
    unfold State.needsDownload at h
    simp only [Bool.or_eq_false_iff] at h
    exact h.1
  unfold State.shouldDownload at hno
  split at hno
  next content info hdisk hinfo =>
    have hsum : cfg.sha256 content = info.checksum := by simpa using hno
    exact ⟨content, info, hdisk, hinfo, hsum.symm⟩
  next => exact absurd hno (by simp)

/-- The file that an attempt is being made at, or has been. -/
def Run.inFlight (r : Run) : Option String :=
  match r.pc with
  | .fetching _ | .fetched _ | .recording _ => r.todo.head?
  | _ => none

/-- What the download phase has achieved so far. -/
structure Verifying (cfg : Config β) (s : State β) : Prop where
  fresh : s.run.pc = .starting ∨ s.run.pc = .staged → s.run.downloaded = []
  files : s.run.pc.early = true → ∀ file ∈ s.run.downloaded, s.run.inFlight ≠ some file → VerifiedFile cfg s file
  received : ∀ size, s.run.pc = .fetched size ∨ s.run.pc = .recording size → ∀ file, s.run.todo.head? = some file →
    ∃ content info, s.disk file = some content ∧ s.run.metadata.lookup file = some info ∧
      info.checksum = cfg.sha256 content
  staged : s.run.pc = .staged → ∃ file content size, s.run.source = .localManifest (cfg.sha256 content) size ∧
    s.run.latest = [file] ∧ s.disk file = some content

/-- Nothing is asked of a run that is not in its download phase. -/
theorem Verifying.of_not_early (h : s.run.pc.early = false) : Verifying cfg s where
  fresh hpc := by rcases hpc with hpc | hpc <;> simp [hpc, Pc.early] at h
  files hpc := by simp [hpc] at h
  received size hpc := by rcases hpc with hpc | hpc <;> simp [hpc, Pc.early] at h
  staged hpc := by simp [hpc, Pc.early] at h

/-- The file at the head of the loop has been verified. -/
theorem Verifying.advance (h : Verifying cfg s) (hpc : s.run.pc.early = true) {rest : List String} {content : β}
    {info : TrustedFile} (size : Nat) (saved : Bool) (hflight : s.run.inFlight = none ∨ s.run.inFlight = some file)
    (hdisk : s.disk file = some content) (hinfo : s.run.metadata.lookup file = some info)
    (hsum : info.checksum = cfg.sha256 content) :
    Verifying cfg ((s.recordDownload file size saved).advance file rest) := by
  obtain ⟨m, hrun⟩ := recordDownload_run (s := s) file size saved
  refine ⟨fun hpc' => ?_, fun _ g hg _ => ?_, fun _ hpc' => ?_, fun hpc' => ?_⟩
  · simp [State.advance] at hpc'
  · have hself := recordDownload_verifies size saved hdisk hinfo hsum
    by_cases hgf : g = file
    · rw [hgf]
      exact hself
    · have hold : g ∈ s.run.downloaded := by
        have hdownloaded : ((s.recordDownload file size saved).advance file rest).run.downloaded =
            s.run.downloaded ++ [file] := by
          show (s.recordDownload file size saved).run.downloaded ++ [file] = _
          rw [hrun]
        rw [hdownloaded, List.mem_append, List.mem_singleton] at hg
        exact hg.resolve_right hgf
      have hkept : VerifiedFile cfg s g := by
        apply h.files hpc g hold
        rcases hflight with hflight | hflight <;> rw [hflight]
        · simp
        · intro hsame
          exact hgf (Option.some.inj hsame).symm
      exact hkept.keep (congrFun (recordDownload_disk file size saved) g) (recordDownload_sameFile size saved hgf)
  · simp [State.advance] at hpc'
  · simp [State.advance] at hpc'

theorem Verifying.fly (h : Verifying cfg s) (file : String) (hpc : s.run.pc.early = true)
    (hpc' : s'.run.inFlight = some file)
    (hflight : s.run.inFlight = none ∨ s.run.inFlight = some file) (hdownloaded : s'.run.downloaded = s.run.downloaded)
    (hdisk : ∀ g, g ≠ file → s'.disk g = s.disk g) (hmarker : ∀ g, g ≠ file → SameFile s.marker s'.marker g)
    (hreceived : ∀ size, s'.run.pc = .fetched size ∨ s'.run.pc = .recording size →
      ∃ content info, s'.disk file = some content ∧ s'.run.metadata.lookup file = some info ∧
        info.checksum = cfg.sha256 content) : Verifying cfg s' := by
  have hhead : ∀ g, s'.run.todo.head? = some g → g = file := by
    intro g hg
    unfold Run.inFlight at hpc'
    split at hpc'
    all_goals first | exact Option.some.inj (hg.symm.trans hpc') | cases hpc'
  refine ⟨fun hpc'' => ?_, fun _ g hg hne => ?_, fun size hpc'' g hg => ?_, fun hpc'' => ?_⟩
  · rcases hpc'' with hpc'' | hpc'' <;> simp [Run.inFlight, hpc''] at hpc'
  · have hgf : g ≠ file := by
      rintro rfl
      exact hne hpc'
    rw [hdownloaded] at hg
    have hkept : VerifiedFile cfg s g := by
      apply h.files hpc g hg
      rcases hflight with hflight | hflight <;> rw [hflight]
      · simp
      · intro hsame
        exact hgf (Option.some.inj hsame).symm
    exact hkept.keep (hdisk g hgf) (hmarker g hgf)
  · rw [hhead g hg]
    exact hreceived size hpc''
  · simp [Run.inFlight, hpc''] at hpc'

theorem Verifying.rest (h : Verifying cfg s) (hpc : s.run.pc.early = true) (hflight : s.run.inFlight = none)
    (hpc' : s'.run.pc = .downloading ∨ s'.run.pc = .closing ∨ s'.run.pc = .downloaded)
    (hdownloaded : s'.run.downloaded = s.run.downloaded) (hdisk : s'.disk = s.disk)
    (hmarker : ∀ g ∈ s.run.downloaded, SameFile s.marker s'.marker g) : Verifying cfg s' := by
  refine ⟨fun hpc'' => ?_, fun _ g hg _ => ?_, fun size hpc'' => ?_, fun hpc'' => ?_⟩
  · rcases hpc'' with hpc'' | hpc'' <;> simp [hpc''] at hpc'
  · rw [hdownloaded] at hg
    have hkept : VerifiedFile cfg s g := h.files hpc g hg (by simp [hflight])
    exact hkept.keep (congrFun hdisk g) (hmarker g hg)
  · rcases hpc'' with hpc'' | hpc'' <;> simp [hpc''] at hpc'
  · simp [hpc''] at hpc'

theorem Verifying.same (h : Verifying cfg s) (hrun : s'.run = s.run) (hdisk : s'.disk = s.disk) : Verifying cfg s' := by
  refine ⟨?_, ?_, ?_, ?_⟩
  · rw [hrun]
    exact h.fresh
  · intro hpc g hg hne
    rw [hrun] at hpc hg hne
    have hmarker : s'.marker = s.marker := congrArg (fun r : Run => r.tracked.marker) hrun
    exact (h.files hpc g hg hne).keep (congrFun hdisk g) (hmarker ▸ .refl)
  · rw [hrun, hdisk]
    exact h.received
  · rw [hrun, hdisk]
    exact h.staged

theorem verifying_startRun (source : Source) (version : String) (latest : List String) (tracked : Tracked) :
    Verifying cfg (s.startRun source version latest tracked) := by
  refine ⟨fun _ => rfl, fun _ g hg => ?_, fun size hpc => ?_, fun hpc => ?_⟩
  · simp [State.startRun] at hg
  · simp [State.startRun] at hpc
  · simp [State.startRun] at hpc

theorem verifying_step (h : Verifying cfg s) (hearly : s.run.pc.early = true → s.run.tasks = [])
    (hs : step cfg s a = some s') : Verifying cfg s' := by
  have hstep := Step.of_step hs
  cases hstep with
  | tick => exact h.same rfl rfl
  | requestShutdown => exact h.same rfl rfl
  | changeFile _ _ hpc =>
    apply Verifying.of_not_early
    show s.run.pc.early = false
    rw [hpc]
    rfl
  | changeMetadata => exact h.same rfl rfl
  | beginSkip => exact h.same rfl rfl
  | beginReprocess => exact verifying_startRun ..
  | beginContinue => exact verifying_startRun ..
  | startDownload published saved hpc =>
    have hnone : s.run.downloaded = [] := h.fresh (.inl hpc)
    refine h.rest (by rw [hpc]; rfl) (by simp [Run.inFlight, hpc]) (.inl rfl) rfl rfl fun g hg => ?_
    simp [hnone] at hg
  | @alreadyHave saved file rest hpc htodo hneeds =>
    obtain ⟨content, info, hdisk, hinfo, hsum⟩ := contents_of_needsDownload hneeds
    exact h.advance (by rw [hpc]; rfl) _ saved (.inl (by simp [Run.inFlight, hpc])) hdisk hinfo hsum
  | @startFile saved file rest hpc htodo =>
    refine h.fly file (by rw [hpc]; rfl) ?_ (.inl (by simp [Run.inFlight, hpc])) rfl (fun _ _ => rfl) ?_ ?_
    · show s.run.todo.head? = some file
      rw [htodo]
      rfl
    · intro g hg
      exact (sameFile_startFileDownload hg).trans sameFile_lastUpdated
    · intro size hpc'
      simp [State.goto] at hpc'
  | @attemptFailed left n file rest hpc htodo =>
    by_cases hn : n < maxDownloadRetries
    · refine h.fly file (by rw [hpc]; rfl) ?_ (.inr (by simp [Run.inFlight, hpc, htodo])) rfl ?_
        (fun _ _ => .refl) ?_
      · simp [Run.inFlight, State.goto, hn, State.writeFile, htodo]
      · intro g hg
        exact Function.update_of_ne hg _ _
      · intro size hpc'
        simp [State.goto, hn] at hpc'
    · apply Verifying.of_not_early
      simp [State.goto, hn, Pc.early]
  | @attemptDone content n file rest hpc htodo =>
    refine h.fly file (by rw [hpc]; rfl) ?_ (.inr (by simp [Run.inFlight, hpc, htodo])) rfl ?_
      (fun _ _ => .refl) ?_
    · show s.run.todo.head? = some file
      rw [htodo]
      rfl
    · intro g hg
      exact Function.update_of_ne hg _ _
    · intro size _
      refine ⟨content, ⟨cfg.sha256 content, cfg.size content⟩, Function.update_self .., ?_, rfl⟩
      show (s.run.metadata.insert file _).lookup file = _
      rw [Table.lookup_insert_eq, if_pos rfl]
  | @saveFileMetadata ok size file rest hpc htodo =>
    refine h.fly file (by rw [hpc]; rfl) ?_ (.inr (by simp [Run.inFlight, hpc, htodo])) rfl (fun _ _ => rfl)
      (fun _ _ => .refl) ?_
    · show s.run.todo.head? = some file
      rw [htodo]
      rfl
    · intro _ _
      exact h.received size (.inl hpc) file (by rw [htodo]; rfl)
  | @recordFile saved size file rest hpc htodo =>
    obtain ⟨content, info, hdisk, hinfo, hsum⟩ := h.received size (.inr hpc) file (by rw [htodo]; rfl)
    exact h.advance (by rw [hpc]; rfl) size saved (.inr (by simp [Run.inFlight, hpc, htodo])) hdisk hinfo hsum
  | completeDownload saved hpc =>
    exact h.rest (by rw [hpc]; rfl) (by simp [Run.inFlight, hpc]) (.inr (.inl rfl)) rfl rfl
      fun _ _ => sameFile_completeDownload.trans sameFile_lastUpdated
  | metadataSaved hpc =>
    exact h.rest (by rw [hpc]; rfl) (by simp [Run.inFlight, hpc]) (.inr (.inr rfl)) rfl rfl fun _ _ => .refl
  | @stage content expected size file hpc hsource hlatest hsha =>
    have hnone : s.run.downloaded = [] := h.fresh (.inl hpc)
    refine ⟨fun _ => hnone, fun _ g hg => ?_, fun _ hpc' => ?_, fun _ => ?_⟩
    · simp [State.goto, State.writeFile, hnone] at hg
    · simp [State.goto] at hpc'
    · refine ⟨file, content, size, ?_, hlatest, Function.update_self ..⟩
      rw [hsha]
      exact hsource
  | @recordStaged expected size file hpc hsource hlatest =>
    obtain ⟨file', content, size', hsource', hlatest', hdisk⟩ := h.staged hpc
    obtain ⟨rfl, rfl⟩ := Source.localManifest.inj (hsource.symm.trans hsource')
    obtain rfl : file = file' := by
      rw [hlatest] at hlatest'
      exact List.singleton_inj.1 hlatest'
    refine ⟨fun hpc' => ?_, fun _ g hg _ => ?_, fun _ hpc' => ?_, fun hpc' => ?_⟩
    · simp [State.finishStaged] at hpc'
    · have hgf : g = file := List.mem_singleton.1 hg
      rw [hgf]
      have hverified := @recordStaged_verifies β cfg _ _ _ size true hdisk
      exact hverified.keep rfl .refl
    · simp [State.finishStaged] at hpc'
    · simp [State.finishStaged] at hpc'
  | task ht htask =>
    by_cases hpc : s.run.pc.early = true
    · simp [hearly hpc] at ht
    · apply Verifying.of_not_early
      rw [htask.pc]
      simpa using hpc
  | prepare saved =>
    apply Verifying.of_not_early
    unfold spawn
    show Pc.early (if _ then _ else _) = false
    split_ifs <;> rfl
  | completeAll saved => exact .of_not_early (by cases saved <;> rfl)
  | joinOk saved => exact .of_not_early (by cases saved <;> rfl)
  | @endBroadcast sent => exact .of_not_early (by cases sent <;> rfl)
  | _ => exact .of_not_early rfl

/-! ## Attempts -/

/-- The entries of a marker come from attempts on bytes with their checksums, or are from before the log. -/
def FromLog (log : List (Event β)) (tracked : Tracked) : Prop :=
  ∀ file entry, tracked.marker.progress file = some entry →
    tracked.attempts file = 0 ∨ .started file (tracked.attempts file) entry.sourceChecksum ∈ log

theorem FromLog.grow {log log' : List (Event β)} {tracked : Tracked} (h : FromLog log tracked)
    (hlog : ∀ e ∈ log, e ∈ log') : FromLog log' tracked := by
  intro file entry hentry
  rcases h file entry hentry with hzero | hstarted
  · exact .inl hzero
  · exact .inr (hlog _ hstarted)

/-- Where the entries of the markers come from, and what the tasks are reading. -/
structure Origin (cfg : Config β) (s : State β) : Prop where
  next : 0 < s.nextAttempt
  started {file : String} {n : Nat} {checksum : Option String} :
    .started file n checksum ∈ s.log → 0 < n ∧ n < s.nextAttempt
  opened {file : String} {n : Nat} {content : β} : .opened file n content ∈ s.log → 0 < n ∧ n < s.nextAttempt
  once {file : String} {n : Nat} {checksum checksum' : Option String} : .started file n checksum ∈ s.log →
    .started file n checksum' ∈ s.log → checksum = checksum'
  bytes {file : String} {n : Nat} {checksum : Option String} {content : β} : .started file n checksum ∈ s.log →
    .opened file n content ∈ s.log → checksum = some (cfg.sha256 content)
  memory : FromLog s.log s.run.tracked
  saved {version : String} {tracked : Tracked} : s.markers version = some tracked → FromLog s.log tracked
  attempt {t : Task} : t ∈ s.run.tasks → t.pc.working = true →
    .started t.file t.attempt ((s.marker.download t.file).bind (·.checksum)) ∈ s.log
  entry {t : Task} {entry : FileProcessingStatus} : t ∈ s.run.tasks → t.pc.working = true →
    s.marker.progress t.file = some entry → entry.sourceChecksum = (s.marker.download t.file).bind (·.checksum)
  current {t : Task} {content : β} : t ∈ s.run.tasks → t.pc.ended = false → s.disk t.file = some content →
    (s.marker.download t.file).bind (·.checksum) = some (cfg.sha256 content)

theorem State.save_disk (ok : Bool) : (s.save ok).disk = s.disk := rfl

theorem State.update_disk (f : StateMarker → StateMarker) : (s.update f).disk = s.disk := rfl

theorem State.credit_disk (file : String) (attempt : Nat) : (s.credit file attempt).disk = s.disk := rfl

theorem State.openEntry_disk (file : String) : (s.openEntry file).disk = s.disk := rfl

theorem State.setTask_disk (i : Nat) (t : Task) : (s.setTask i t).disk = s.disk := rfl

theorem TaskStep.disk {i : Nat} {t : Task} {action : TaskAction} (h : TaskStep cfg s i t action s') :
    s'.disk = s.disk := by
  cases h with
  | start => rw [State.setTask_disk, State.save_disk, State.openEntry_disk]
  | checkpoint => rw [State.save_disk, State.update_disk]
  | completeFile => rw [State.setTask_disk, State.save_disk, State.credit_disk, State.update_disk]
  | _ => rfl

/-- The bytes on disk change in the download phase, or between runs. -/
theorem step_disk (h : step cfg s a = some s') :
    s'.disk = s.disk ∨ (s.run.pc.early = true ∧ s.run.pc ≠ .downloaded) ∨
      (s.settled = true ∧ s'.run.tasks = s.run.tasks) := by
  have hearly : ∀ {pc : Pc}, s.run.pc = pc → pc.early = true → pc ≠ .downloaded →
      s.run.pc.early = true ∧ s.run.pc ≠ .downloaded := by
    intro pc hpc he hne
    rw [hpc]
    exact ⟨he, hne⟩
  cases Step.of_step h with
  | changeFile _ _ _ hset => exact .inr (.inr ⟨hset, rfl⟩)
  | alreadyHave saved => exact .inl (recordDownload_disk _ _ saved)
  | attemptFailed _ hpc => exact .inr (.inl (hearly hpc rfl Pc.noConfusion))
  | attemptDone _ hpc => exact .inr (.inl (hearly hpc rfl Pc.noConfusion))
  | rejectFile _ hpc => exact .inr (.inl (hearly hpc rfl Pc.noConfusion))
  | recordFile saved => exact .inl (recordDownload_disk _ _ saved)
  | stage _ hpc => exact .inr (.inl (hearly hpc rfl Pc.noConfusion))
  | recordStaged hpc => exact .inr (.inl (hearly hpc rfl Pc.noConfusion))
  | recordStagedFailed hpc => exact .inr (.inl (hearly hpc rfl Pc.noConfusion))
  | prepareFailed saved =>
    left
    show (openProcessing s.setDataFiles saved).1.disk = s.disk
    rw [openProcessing_eq]
    split_ifs <;> rfl
  | prepare saved =>
    left
    show (openProcessing s.setDataFiles saved).1.disk = s.disk
    rw [openProcessing_eq]
    split_ifs <;> rfl
  | task ht htask => exact .inl htask.disk
  | _ => exact .inl rfl

/-- Where a task that is not over comes from. -/
theorem Moves.open_cases (h : Moves s a s') {t' : Task} (ht' : t' ∈ s'.run.tasks) (hopen : t'.pc.ended = false) :
    (∃ t ∈ s.run.tasks, t.file = t'.file ∧ t.pc.ended = false) ∨
      (s.run.pc = .downloaded ∧ t'.file ∈ s.run.downloaded) := by
  have hsame : s'.run.tasks = s.run.tasks → ∃ t ∈ s.run.tasks, t.file = t'.file ∧ t.pc.ended = false :=
    fun htasks => ⟨t', htasks ▸ ht', rfl, hopen⟩
  cases h with
  | stay _ _ htasks =>
    cases htasks with
    | same htasks => exact .inl (hsame htasks)
    | @moved i t _ ht htasks hended hfile =>
      rw [htasks] at ht'
      rcases List.mem_or_eq_of_mem_set ht' with hold | rfl
      · exact .inl ⟨t', hold, rfl, hopen⟩
      · exact .inl ⟨t, List.mem_of_getElem? ht, hfile.symm, hended⟩
  | stop _ _ htasks =>
    rcases htasks with htasks | htasks
    · exact .inl (hsame htasks)
    · simp [htasks] at ht'
  | start _ _ htasks => simp [htasks] at ht'
  | early _ _ _ htasks => exact .inl (hsame htasks)
  | spawn hpc _ htasks _ _ _ hfiles =>
    rw [htasks] at ht'
    obtain ⟨file, hfile, rfl⟩ := List.mem_map.1 ht'
    have hmem := (mem_pendingFiles.1 hfile).1
    rw [hfiles] at hmem
    exact .inr ⟨hpc, List.mem_of_mem_filter hmem⟩
  | complete _ _ _ _ htasks => exact .inl (hsame htasks)
  | announce _ _ _ _ _ htasks => exact .inl (hsame htasks)
  | broadcast _ _ _ _ htasks => exact .inl (hsame htasks)
  | sent _ _ _ htasks => exact .inl (hsame htasks)

/-- What the marker has about the downloads stays as it is while there are tasks. -/
theorem download_of_tasks (hearly : s.run.pc.early = true → s.run.tasks = []) (hs : step cfg s a = some s') {t' : Task}
    (ht' : t' ∈ s'.run.tasks) (file : String) : s'.marker.download file = s.marker.download file := by
  cases step_downloads hs with
  | same heq => exact download_of_downloadPhase heq
  | change hpc hacquired =>
    exfalso
    rcases (step_moves hs).task_cases ht' with hold | ⟨t, hold, -⟩ | ⟨hdownloaded, -⟩
    · simp [hearly hpc] at hold
    · simp [hearly hpc] at hold
    · simp [hdownloaded, Pc.acquired] at hacquired
  | start _ _ hnone => simp [hnone] at ht'

theorem Origin.attempt_step (h : Origin cfg s) (hearly : s.run.pc.early = true → s.run.tasks = [])
    (hs : step cfg s a = some s') {t' : Task} (ht' : t' ∈ s'.run.tasks) (hpc : t'.pc.working = true) :
    .started t'.file t'.attempt ((s'.marker.download t'.file).bind (·.checksum)) ∈ s'.log := by
  rw [download_of_tasks hearly hs ht']
  rcases (step_moves hs).task_cases ht' with hold | ⟨t, ht, hfile, hmove⟩ | ⟨-, -, hqueued, -⟩
  · exact (step_logs hs).mem (h.attempt hold hpc)
  · have hkept : t'.attempt = t.attempt → t.pc.working = true →
        .started t'.file t'.attempt ((s.marker.download t'.file).bind (·.checksum)) ∈ s'.log := by
      intro hattempt hworking
      rw [hfile, hattempt]
      exact (step_logs hs).mem (h.attempt ht hworking)
    cases hmove with
    | skip _ hskipped => simp [hskipped, TaskPc.working] at hpc
    | start _ _ hattempt _ _ hstarted => rwa [hfile, hattempt]
    | announce hpiped _ hattempt => exact hkept hattempt (by rw [hpiped]; rfl)
    | finish _ hdone => simp [hdone, TaskPc.working] at hpc
    | goOn hattempt hworking => exact hkept hattempt (hworking hpc)
  · simp [hqueued, TaskPc.working] at hpc

/-- An entry keeps the checksum that the download phase has. -/
theorem Advance.sourceChecksum (h : Advance s a s') (htasks : s'.run.tasks ≠ [])
    (hentry : ∀ entry, s.marker.progress file = some entry →
      entry.sourceChecksum = (s.marker.download file).bind (·.checksum))
    {entry : FileProcessingStatus} (hfile : s'.marker.progress file = some entry) :
    entry.sourceChecksum = (s.marker.download file).bind (·.checksum) := by
  have hmapped : ∀ {f : FileProcessingStatus → FileProcessingStatus} {m' : StateMarker} {g : String},
      ChangesEntry s.marker m' g ((s.marker.progress g).map f) →
      (∀ e, (f e).sourceChecksum = e.sourceChecksum) → m'.progress file = some entry →
      entry.sourceChecksum = (s.marker.download file).bind (·.checksum) := by
    intro f m' g hchange hf hm
    rw [hchange.progress] at hm
    split_ifs at hm with hg
    · subst hg
      obtain ⟨e, he, rfl⟩ := Option.map_eq_some_iff.1 hm
      rw [hf]
      exact hentry e he
    · exact hentry entry hm
  cases h with
  | keep hsame => exact hentry entry (hsame.progress file ▸ hfile)
  | start _ hnone => exact absurd hnone htasks
  | requeue _ _ hrequeue =>
    rw [hrequeue.progress] at hfile
    split_ifs at hfile
    exact hentry entry hfile
  | startProcessing _ _ hchange => exact hentry entry (hchange.progress file ▸ hfile)
  | startFile _ _ hchange =>
    rw [hchange.progress] at hfile
    split_ifs at hfile with hg
    · subst hg
      obtain rfl := Option.some.inj hfile
      rfl
    · exact hentry entry hfile
  | count _ _ _ _ hchange => exact hmapped hchange (fun _ => rfl) hfile
  | completeFile _ _ hchange => exact hmapped hchange (fun _ => rfl) hfile
  | completeProcessing _ hchange => exact hentry entry (hchange.progress file ▸ hfile)
  | completeExtraction _ hchange => exact hentry entry (hchange.progress file ▸ hfile)

theorem Origin.entry_step (h : Origin cfg s) (hearly : s.run.pc.early = true → s.run.tasks = [])
    (hs : step cfg s a = some s') {t' : Task} (ht' : t' ∈ s'.run.tasks) (hpc : t'.pc.working = true)
    {entry : FileProcessingStatus} (hentry : s'.marker.progress t'.file = some entry) :
    entry.sourceChecksum = (s'.marker.download t'.file).bind (·.checksum) := by
  rw [download_of_tasks hearly hs ht']
  have hkept : ∀ t ∈ s.run.tasks, t.file = t'.file → t.pc.working = true →
      entry.sourceChecksum = (s.marker.download t'.file).bind (·.checksum) := by
    intro t ht hfile hworking
    refine (step_advance hs).sourceChecksum (List.ne_nil_of_mem ht') ?_ hentry
    intro e he
    rw [← hfile] at he ⊢
    exact h.entry ht hworking he
  rcases (step_moves hs).task_cases ht' with hold | ⟨t, ht, hfile, hmove⟩ | ⟨-, -, hqueued, -⟩
  · exact hkept t' hold rfl hpc
  · cases hmove with
    | skip _ hskipped => simp [hskipped, TaskPc.working] at hpc
    | start _ _ _ _ hstarted =>
      rw [hfile, hstarted] at hentry
      obtain rfl := Option.some.inj hentry
      rw [hfile]
      rfl
    | announce hpiped => exact hkept t ht hfile.symm (by rw [hpiped]; rfl)
    | finish _ hdone => simp [hdone, TaskPc.working] at hpc
    | goOn _ hworking => exact hkept t ht hfile.symm (hworking hpc)
  · simp [hqueued, TaskPc.working] at hpc

theorem Origin.current_step (h : Origin cfg s) (hverifying : Verifying cfg s)
    (hearly : s.run.pc.early = true → s.run.tasks = []) (hs : step cfg s a = some s') {t' : Task}
    (ht' : t' ∈ s'.run.tasks) (hopen : t'.pc.ended = false) {content : β} (hdisk' : s'.disk t'.file = some content) :
    (s'.marker.download t'.file).bind (·.checksum) = some (cfg.sha256 content) := by
  rw [download_of_tasks hearly hs ht']
  have hcases := (step_moves hs).open_cases ht' hopen
  have hdisk : s.disk t'.file = some content := by
    rcases step_disk hs with hsame | ⟨hpc, hne⟩ | ⟨hset, htasks⟩
    · rwa [hsame] at hdisk'
    · rcases hcases with ⟨t, ht, -⟩ | ⟨hdownloaded, -⟩
      · simp [hearly hpc] at ht
      · exact absurd hdownloaded hne
    · rw [htasks] at ht'
      have hended : t'.pc.ended = true := List.all_eq_true.1 hset t' ht'
      simp [hended] at hopen
  rcases hcases with ⟨t, ht, hfile, ht'open⟩ | ⟨hpc, hmem⟩
  · rw [← hfile] at hdisk ⊢
    exact h.current ht ht'open hdisk
  · obtain ⟨content', hcontent', hchecksum, -⟩ :=
      hverifying.files (by rw [hpc]; rfl) t'.file hmem (by simp [Run.inFlight, hpc])
    rw [hdisk] at hcontent'
    obtain rfl := Option.some.inj hcontent'
    exact hchecksum

/-- A change of one entry that keeps its checksum, or starts the entry anew. -/
theorem FromLog.changesEntry {log : List (Event β)} {tracked tracked' : Tracked} {g : String} {n : Nat}
    {entry' : Option FileProcessingStatus} (h : FromLog log tracked)
    (hchange : ChangesEntry tracked.marker tracked'.marker g entry')
    (hattempts : tracked'.attempts = Function.update tracked.attempts g n)
    (hentry : ∀ entry, entry' = some entry → n = 0 ∨ .started g n entry.sourceChecksum ∈ log) :
    FromLog log tracked' := by
  intro file entry hfile
  rw [hchange.progress] at hfile
  rw [hattempts, Function.update_apply]
  split_ifs at hfile ⊢ with hg
  · rw [hg]
    exact hentry entry hfile
  · exact h file entry hfile

theorem FromLog.same {log : List (Event β)} {tracked tracked' : Tracked} (h : FromLog log tracked)
    (hprogress : ∀ file, tracked'.marker.progress file = tracked.marker.progress file)
    (hattempts : tracked'.attempts = tracked.attempts) : FromLog log tracked' := by
  intro file entry hentry
  rw [hprogress] at hentry
  rw [hattempts]
  exact h file entry hentry

theorem fromLog_new (log : List (Event β)) (version : String) (now : DateTime) : FromLog log (.new version now) := by
  intro file entry hentry
  simp [Tracked.new] at hentry

theorem Origin.memory_step (h : Origin cfg s) (hs : step cfg s a = some s') : FromLog s'.log s'.run.tracked := by
  have hgrow : FromLog s'.log s.run.tracked := h.memory.grow fun _ => (step_logs hs).mem
  cases step_advance hs with
  | keep hsame hattempts => exact hgrow.same hsame.progress hattempts
  | start _ _ hstarts =>
    cases hstarts with
    | found hfound _ _ hmarker hattempts =>
      have hgrown := (h.saved hfound).grow fun _ => (step_logs hs).mem
      exact hgrown.same (fun file => congrArg (·.progress file) hmarker) hattempts
    | @fresh _ _ _ _ version _ _ _ hmarker hattempts =>
      exact (fromLog_new s'.log version s.clock).same (fun file => congrArg (·.progress file) hmarker) hattempts
  | requeue _ _ hrequeue _ hattempts =>
    intro file entry hentry
    rw [hrequeue.progress] at hentry
    rw [hattempts]
    split_ifs at hentry
    exact hgrow file entry hentry
  | startProcessing _ _ hchange hattempts => exact hgrow.same hchange.progress hattempts
  | startFile _ _ hchange hattempts _ hstarted =>
    refine hgrow.changesEntry hchange hattempts ?_
    intro entry hentry
    obtain rfl := Option.some.inj hentry
    exact .inr hstarted
  | @count i t _ _ _ _ hchange hattempts =>
    refine hgrow.changesEntry hchange (n := s.run.tracked.attempts t.file) ?_ ?_
    · rw [hattempts, Function.update_eq_self]
    · intro entry hentry
      obtain ⟨e, he, rfl⟩ := Option.map_eq_some_iff.1 hentry
      exact hgrow t.file e he
  | @completeFile i t total ht hpc hchange hattempts =>
    refine hgrow.changesEntry hchange hattempts ?_
    intro entry hentry
    obtain ⟨e, he, rfl⟩ := Option.map_eq_some_iff.1 hentry
    have hworking : t.pc.working = true := by rw [hpc]; rfl
    have hsource := h.entry (List.mem_of_getElem? ht) hworking he
    have hstarted := h.attempt (List.mem_of_getElem? ht) hworking
    rw [← hsource] at hstarted
    exact .inr ((step_logs hs).mem hstarted)
  | completeProcessing _ hchange hattempts => exact hgrow.same hchange.progress hattempts
  | completeExtraction _ hchange hattempts => exact hgrow.same hchange.progress hattempts

theorem NewEvent.opened_cases {n : Nat} {content : β} (h : NewEvent s a (.opened file n content)) :
    ∃ t ∈ s.run.tasks, t.file = file ∧ t.attempt = n ∧ t.pc = .started ∧ s.disk file = some content := by
  cases h with
  | @opened _ i t _ ht hpc hdisk => exact ⟨t, List.mem_of_getElem? ht, rfl, rfl, hpc, hdisk⟩

/-- An attempt that has begun to read, begun by a task on the bytes that it was started for. -/
theorem Origin.of_opened (h : Origin cfg s) {n : Nat} {content : β} (hnew : NewEvent s a (.opened file n content)) :
    .started file n (some (cfg.sha256 content)) ∈ s.log := by
  obtain ⟨t, ht, rfl, rfl, hpc, hdisk⟩ := hnew.opened_cases
  have hstarted := h.attempt ht (by rw [hpc]; rfl)
  rwa [h.current ht (by rw [hpc]; rfl) hdisk] at hstarted

theorem origin_step (h : Origin cfg s) (hverifying : Verifying cfg s)
    (hearly : s.run.pc.early = true → s.run.tasks = []) (hs : step cfg s a = some s') : Origin cfg s' := by
  have hlogs := step_logs hs
  have hnext : s.nextAttempt ≤ s'.nextAttempt := (step_now hs).2.1
  have hstarted : ∀ {f : String} {n : Nat} {c : Option String}, .started f n c ∈ s'.log →
      .started f n c ∈ s.log ∨ (0 < s.nextAttempt ∧ n = s.nextAttempt ∧ n < s'.nextAttempt ∧
        c = (s.marker.download f).bind (·.checksum)) := by
    intro f n c he
    rcases hlogs.mem_cases he with hold | hnew | hsaved
    · exact .inl hold
    · obtain ⟨hn, hnew', hc⟩ := hnew.started_cases hs
      exact .inr ⟨h.next, hn, by omega, hc⟩
    · cases hsaved
  have hopened : ∀ {f : String} {n : Nat} {b : β}, .opened f n b ∈ s'.log →
      .opened f n b ∈ s.log ∨ NewEvent s a (.opened f n b) := by
    intro f n b he
    rcases hlogs.mem_cases he with hold | hnew | hsaved
    · exact .inl hold
    · exact .inr hnew
    · cases hsaved
  refine
    { next := lt_of_lt_of_le h.next hnext, started := fun {f n c} he => ?_, opened := fun {f n b} he => ?_,
      once := fun {f n c c'} he he' => ?_, bytes := fun {f n c b} he ho => ?_,
      memory := h.memory_step hs, saved := fun {v T} hm => ?_,
      attempt := h.attempt_step hearly hs, entry := fun ht hpc => h.entry_step hearly hs ht hpc,
      current := fun ht hopen => h.current_step hverifying hearly hs ht hopen }
  · rcases hstarted he with hold | ⟨hpos, hn, hlt, -⟩
    · have := h.started hold
      omega
    · omega
  · rcases hopened he with hold | hnew
    · have := h.opened hold
      omega
    · have := h.started (h.of_opened hnew)
      omega
  · rcases hstarted he with hold | ⟨-, hn, -, hc⟩
    · rcases hstarted he' with hold' | ⟨-, hn, -⟩
      · exact h.once hold hold'
      · have := h.started hold
        omega
    · rcases hstarted he' with hold' | ⟨-, -, -, hc'⟩
      · have := h.started hold'
        omega
      · rw [hc, hc']
  · rcases hstarted he with hold | ⟨-, hn, -⟩
    · rcases hopened ho with hold' | hnew
      · exact h.bytes hold hold'
      · exact h.once hold (h.of_opened hnew)
    · rcases hopened ho with hold' | hnew
      · have := h.opened hold'
        omega
      · have := h.started (h.of_opened hnew)
        omega
  · rcases hlogs.markers_cases hm with hold | ⟨-, -, -, rfl⟩
    · exact (h.saved hold).grow fun _ => hlogs.mem
    · exact h.memory_step hs

section Reach

variable {ok : State β → Action β → Prop} {disk : String → Option β} {metadata : Table String TrustedFile}
  {found : List (String × StateMarker)}

theorem verifying_of_reach (h : Machine.Reach (step cfg) ok (State.init disk metadata found) s) : Verifying cfg s := by
  refine h.invariant_of (fun _ hr hpc => early_tasks hr hpc) (.of_not_early rfl) ?_
  intro s a s' hearly hI _ hs
  exact verifying_step hI hearly hs

theorem origin_init : Origin cfg (State.init disk metadata found) where
  next := Nat.one_pos
  started he := by simp [State.init] at he
  opened he := by simp [State.init] at he
  once he := by simp [State.init] at he
  bytes he := by simp [State.init] at he
  memory := fromLog_new _ _ _
  saved {version tracked} hm := by
    intro file entry _
    left
    simp only [State.init, Option.map_eq_some_iff] at hm
    obtain ⟨marker, -, rfl⟩ := hm
    rfl
  attempt ht := by simp [State.init] at ht
  entry ht := by simp [State.init] at ht
  current ht := by simp [State.init] at ht

theorem origin_of_reach (h : Machine.Reach (step cfg) ok (State.init disk metadata found) s) : Origin cfg s := by
  refine h.invariant_of (K := fun s => Verifying cfg s ∧ (s.run.pc.early = true → s.run.tasks = []))
    (fun s hr => ⟨verifying_of_reach hr, early_tasks hr⟩) origin_init ?_
  rintro s a s' ⟨hverifying, hearly⟩ hI _ hs
  exact origin_step hI hverifying hearly hs

/-- In every run on whatever was in `DISCOGS_ROOT`, when `download_discogs_data` has returned its files, each of them
that is finished and whose bytes are known was computed from the bytes on disk: they have the checksum of the entry,
the download phase has it too, and so have all bytes that the entry's attempt has read. -/
theorem completed_fromDisk {checksum : String} {entry : FileProcessingStatus}
    (h : Machine.Reach (step cfg) Machine.always (State.init disk metadata found) s) (hpc : s.run.pc = .downloaded)
    (hfile : file ∈ s.run.downloaded) (hentry : s.marker.progress file = some entry)
    (hdone : entry.status = .completed) (hsource : entry.sourceChecksum = some checksum) :
    (s.marker.download file).bind (·.checksum) = some checksum ∧
      (∃ content, s.disk file = some content ∧ cfg.sha256 content = checksum) ∧
      ∀ content, .opened file (s.run.tracked.attempts file) content ∈ s.log → cfg.sha256 content = checksum := by
  obtain ⟨content, hdisk, hchecksum, hprocessed⟩ :=
    (verifying_of_reach h).files (by rw [hpc]; rfl) file hfile (by simp [Run.inFlight, hpc])
  have hsum : checksum = cfg.sha256 content := by
    apply hprocessed
    unfold processedChecksum
    rw [hentry]
    simp [hdone, hsource]
  have horigin := origin_of_reach h
  refine ⟨by rw [hchecksum, hsum], ⟨content, hdisk, hsum.symm⟩, ?_⟩
  intro content' hopened
  rcases horigin.memory file entry hentry with hzero | hstarted
  · have hpos := (horigin.opened hopened).1
    omega
  · rw [hsource] at hstarted
    exact (Option.some.inj (horigin.bytes hstarted hopened)).symm

end Reach

def freshDownload (file content : String) : List (Action String) :=
  [.begin .downloader false [file] true, .startDownload none true, .startFile true, .attemptDone content,
    .saveFileMetadata true, .recordFile true, .completeDownload true, .saveMetadata true]

/-- A run that has processed its file and dies, and one that finds the file on disk. -/
def rerun : List (Action String) :=
  freshDownload "discogs_20260101_artists.xml.gz" "dump" ++ [.prepare true] ++ processFile 0 2 ++ [.crash,
    .begin .downloader false ["discogs_20260101_artists.xml.gz"] true, .startDownload none true, .alreadyHave true,
    .completeDownload true, .saveMetadata true]

/-- The second run keeps the finished file, which is from the bytes on disk. -/
theorem rerun_fromDisk : ∃ s : State String, Machine.Reach (step .plain) Machine.always .empty s ∧
    s.marker.isCompleted "discogs_20260101_artists.xml.gz" = true ∧
      (s.marker.download "discogs_20260101_artists.xml.gz").bind (·.checksum) = some "dump" ∧
      (∃ content, s.disk "discogs_20260101_artists.xml.gz" = some content ∧ Config.plain.sha256 content = "dump") ∧
      ∀ content, .opened "discogs_20260101_artists.xml.gz"
        (s.run.tracked.attempts "discogs_20260101_artists.xml.gz") content ∈ s.log →
          Config.plain.sha256 content = "dump" := by
  have hrun : (Machine.run (step .plain) .empty rerun).any (fun s => s.run.pc = .downloaded ∧
      s.run.downloaded = ["discogs_20260101_artists.xml.gz"] ∧
        s.marker.progress "discogs_20260101_artists.xml.gz" = some (processedEntry "dump" 2)) = true := by
    decide +kernel
  obtain ⟨s, hs, hfacts⟩ := (Option.any_eq_true ..).1 hrun
  obtain ⟨hpc, hfiles, hentry⟩ := of_decide_eq_true hfacts
  have hreach := Machine.Reach.of_run rerun hs
  refine ⟨s, hreach, isCompleted_iff.2 ⟨_, hentry, rfl⟩, ?_⟩
  exact completed_fromDisk hreach hpc (hfiles ▸ List.mem_singleton_self _) hentry rfl rfl

end DiscogsIngestion.Session
