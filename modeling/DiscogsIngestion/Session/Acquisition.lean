import DiscogsIngestion.Downloader.Acquisition
import DiscogsIngestion.Session.Integrity

/-!
# The download phase of a run

The download phase, as the downloader goes through it, is made of the steps of a run.

* `Config.ofSha256`, `Trusts`, `Represents` : contents that are bytes, and what a run knows of the downloader;
* `AttemptOutcome`, `retryLoop_run`, `downloadFile_run` : each attempt at a file is a step;
* `fetchFile_run`, `fetchFiles_run`, `downloadDiscogsData_run` : and so is the rest of the phase;
* `downloadDiscogsData_verified` : the files of a phase that succeeds are those that it has hashes of.
-/

namespace DiscogsIngestion.Session

open Downloader (Attempt Acquired Acquisition Body Conditions DownloadEnv Downloaded Downloading HashingLaws Local
  downloadBody downloadFile filename getLatestMonthlyFiles hexEncode localPath retryLoop runAttempt)

def Config.ofSha256 (sha256 : List UInt8 → List UInt8) (maxWorkers : Nat) : Config (List UInt8) :=
  ⟨fun bytes => hexEncode (sha256 bytes), List.length, maxWorkers⟩

/-- What a run keeps of an entry of the trust map. -/
def trusted (info : Downloader.LocalFileInfo) : TrustedFile := ⟨info.checksum, info.size⟩

/-- A trust map of a run, and one of the downloader. -/
def Trusts (known : Table String TrustedFile) (metadata : Table String Downloader.LocalFileInfo) : Prop :=
  ∀ name, known.lookup name = (metadata.lookup name).map trusted

theorem Trusts.insert {known : Table String TrustedFile} {metadata : Table String Downloader.LocalFileInfo}
    (h : Trusts known metadata) (name : String) (info : Downloader.LocalFileInfo) :
    Trusts (known.insert name (trusted info)) (metadata.insert name info) := by
  intro other
  rw [Table.lookup_insert_eq, Table.lookup_insert_eq]
  split_ifs
  · rfl
  · exact h other

theorem Trusts.erase {known : Table String TrustedFile} {metadata : Table String Downloader.LocalFileInfo}
    (h : Trusts known metadata) (name : String) : Trusts (known.erase name) (metadata.erase name) := by
  intro other
  by_cases heq : other = name
  · rw [heq, AList.lookup_erase, AList.lookup_erase]
    rfl
  · rw [AList.lookup_erase_ne heq, AList.lookup_erase_ne heq]
    exact h other

/-! ## Attempts -/

/-- What can come of one attempt that begins with this file and this trust map. -/
inductive AttemptOutcome (fileInfo : S3FileInfo) (sha256 : List UInt8 → List UInt8) (file : Option (List UInt8))
    (metadata : Table String Downloader.LocalFileInfo) : Option Downloaded → Downloading → Prop
  | retry {d : Downloading} : d.metadata = metadata → AttemptOutcome fileInfo sha256 file metadata none d
  | uncreated {d : Downloading} (message : String) : d.file = file → d.metadata = metadata →
      AttemptOutcome fileInfo sha256 file metadata (some (.err message)) d
  | panic {d : Downloading} : d.metadata = metadata → AttemptOutcome fileInfo sha256 file metadata (some .panic) d
  | installed {d : Downloading} (bytes : List UInt8) (info : Downloader.LocalFileInfo) : d.file = some bytes →
      d.metadata = metadata.insert (filename fileInfo) info → trusted info = ⟨hexEncode (sha256 bytes), bytes.length⟩ →
      AttemptOutcome fileInfo sha256 file metadata (some (.ok bytes.length)) d

section Attempts

variable {σ : Type} {env : DownloadEnv σ} {fileInfo : S3FileInfo} {sha256 : List UInt8 → List UInt8}

theorem downloadBody_outcome (laws : HashingLaws env.hashing sha256) (d : Downloading) (body : Body) :
    AttemptOutcome fileInfo sha256 d.file d.metadata (downloadBody env fileInfo d body).1
      (downloadBody env fileInfo d body).2 := by
  unfold downloadBody
  cases hcreate : body.create with
  | some message => exact .uncreated _ rfl rfl
  | none =>
    cases hstream : Downloader.stream env ⟨[], env.hashing.new, 0⟩ body.chunks with
    | failed failure => exact .retry rfl
    | done streamed =>
      obtain ⟨chunks, -, rfl⟩ := Downloader.stream_done hstream
      cases hflush : body.flush with
      | some failure => exact .retry rfl
      | none =>
        cases hsync : body.sync with
        | some failure => exact .retry rfl
        | none =>
          cases hmonth : extractMonthFromFilename env.month (filename fileInfo) with
          | none => exact .panic rfl
          | some version =>
            dsimp only
            rw [Nat.zero_add]
            refine .installed _ _ rfl rfl ?_
            rw [trusted, laws.digest]

variable (fileInfo) in
theorem runAttempt_outcome (laws : HashingLaws env.hashing sha256) (number : Nat) (attempt : Attempt)
    (d : Downloading) : AttemptOutcome fileInfo sha256 (d.beginAttempt number attempt.removable).file d.metadata
      (runAttempt env fileInfo number attempt d).1 (runAttempt env fileInfo number attempt d).2 := by
  obtain ⟨file, delays, hbegin⟩ := Downloader.beginAttempt_eq d number attempt.removable
  unfold runAttempt
  rw [hbegin]
  cases hreply : attempt.reply with
  | failed message => exact .retry rfl
  | response status statusText body =>
    dsimp only
    split_ifs
    · exact downloadBody_outcome laws
        { d with file, delays, gets := d.gets ++ [Downloader.downloadUrl env fileInfo] } body
    · exact .retry rfl

end Attempts

/-! ## The steps of a run at an attempt -/

/-- The run is in this state again, but for a file, its trust map and its place. A panic ends the process, and with it
the tasks and the wish to shut down. -/
def Fetches (s : State (List UInt8)) (name : String) (file : Option (List UInt8)) (known : Table String TrustedFile)
    (pc : Pc) (s' : State (List UInt8)) : Prop :=
  ∃ shutdown tasks, s' =
    { s.writeFile name file with shutdown, run := { s.run with metadata := known, tasks, pc } }

section Steps

variable (cfg : Config (List UInt8)) {s : State (List UInt8)} {number : Nat} {name : String} {rest : List String}

theorem step_attemptFailed (hpc : s.run.pc = .fetching number) (htodo : s.run.todo = name :: rest)
    (left : Option (List UInt8)) : step cfg s (.attemptFailed left) =
      some ((s.writeFile name left).goto (if number < maxDownloadRetries then .fetching (number + 1) else .idle)) := by
  unfold step
  rw [hpc, htodo]

theorem step_attemptDone (hpc : s.run.pc = .fetching number) (htodo : s.run.todo = name :: rest)
    (content : List UInt8) : step cfg s (.attemptDone content) = some (s.receive cfg name content) := by
  unfold step
  rw [hpc, htodo]

theorem step_downloadFailed
    (hpc : s.run.pc = .starting ∨ s.run.pc = .downloading ∨ ∃ number, s.run.pc = .fetching number) :
    step cfg s .downloadFailed = some (s.goto .idle) := by
  unfold step
  obtain hpc | hpc | ⟨number, hpc⟩ := hpc <;> rw [hpc]

theorem step_alreadyHave (hpc : s.run.pc = .downloading) (htodo : s.run.todo = name :: rest)
    (hno : s.needsDownload cfg name = false) (saved : Bool) : step cfg s (.alreadyHave saved) =
      some ((s.recordDownload name ((s.disk name).elim 0 cfg.size) saved).advance name rest) := by
  unfold step
  rw [htodo]
  dsimp only
  rw [if_pos (by simp [hpc, hno])]

theorem step_startFile (hpc : s.run.pc = .downloading) (htodo : s.run.todo = name :: rest)
    (hneeded : s.needsDownload cfg name = true) (saved : Bool) : step cfg s (.startFile saved) =
      some (((s.update (·.startFileDownload name s.clock)).save saved).goto (.fetching 1)) := by
  unfold step
  rw [htodo]
  dsimp only
  rw [if_pos (by simp [hpc, hneeded])]

theorem step_rejectFile (hpc : s.run.pc = .fetched number) (htodo : s.run.todo = name :: rest)
    (hagrees : s.publishedAgrees name = false) (removed : Bool) :
    step cfg s (.rejectFile removed) = some (s.reject name removed) := by
  unfold step
  rw [hpc, htodo]
  dsimp only
  rw [if_neg (Bool.eq_false_iff.1 hagrees)]

theorem step_saveFileMetadata (hpc : s.run.pc = .fetched number) (htodo : s.run.todo = name :: rest)
    (hagrees : s.publishedAgrees name = true) (ok : Bool) : step cfg s (.saveFileMetadata ok) =
      some ({ s with metadata := if ok then s.run.metadata else s.metadata }.goto (.recording number)) := by
  unfold step
  rw [hpc, htodo]
  dsimp only
  rw [if_pos hagrees]

theorem step_recordFile (hpc : s.run.pc = .recording number) (htodo : s.run.todo = name :: rest) (saved : Bool) :
    step cfg s (.recordFile saved) = some ((s.recordDownload name number saved).advance name rest) := by
  unfold step
  rw [hpc, htodo]

theorem step_startDownload (hpc : s.run.pc = .starting) (hsource : s.run.source = .downloader)
    (published : Option (Table String String)) (saved : Bool) : step cfg s (.startDownload published saved) =
      some (((s.update (·.startDownload s.run.latest.length s.clock)).save saved).enterLoop published) := by
  unfold step
  dsimp only
  rw [if_pos (by simp [hpc, hsource])]

theorem step_completeDownload (hpc : s.run.pc = .downloading) (htodo : s.run.todo = []) (saved : Bool) :
    step cfg s (.completeDownload saved) =
      some (((s.update (·.completeDownload s.clock)).save saved).goto .closing) := by
  unfold step
  dsimp only
  rw [if_pos (by simp [hpc, htodo])]

end Steps

/-- Where the run is when a download has ended. -/
def placeOf : Downloaded → Pc
  | .ok downloaded => .fetched downloaded
  | _ => .idle

theorem Fetches.trans {s s' s'' : State (List UInt8)} {name : String} {file file' : Option (List UInt8)}
    {known known' : Table String TrustedFile} {pc pc' : Pc} (h : Fetches s name file known pc s')
    (h' : Fetches s' name file' known' pc' s'') : Fetches s name file' known' pc' s'' := by
  obtain ⟨shutdown, tasks, rfl⟩ := h
  obtain ⟨shutdown', tasks', rfl⟩ := h'
  refine ⟨shutdown', tasks', ?_⟩
  simp only [State.writeFile, Function.update_idem]

section Downloads

variable {σ : Type} {env : DownloadEnv σ} {fileInfo : S3FileInfo} {sha256 : List UInt8 → List UInt8}
  {attempts : Nat → Attempt} {cleanup : Bool} (maxWorkers : Nat) {number : Nat} {s : State (List UInt8)}
  {rest : List String}

/-- An attempt that is the last one takes the run to the end of the download. -/
theorem AttemptOutcome.run {metadata : Table String Downloader.LocalFileInfo} {result : Downloaded} {d : Downloading}
    (h : AttemptOutcome fileInfo sha256 (s.disk (filename fileInfo)) metadata (some result) d)
    (hpc : s.run.pc = .fetching number) (htodo : s.run.todo = filename fileInfo :: rest)
    (htrusts : Trusts s.run.metadata metadata) :
    ∃ s' known, Machine.Reach (step (.ofSha256 sha256 maxWorkers)) Machine.always s s' ∧ Trusts known d.metadata ∧
      Fetches s (filename fileInfo) d.file known (placeOf result) s' := by
  cases h with
  | uncreated message hfile hmetadata =>
    refine ⟨s.goto .idle, s.run.metadata, .single (step_downloadFailed _ (.inr (.inr ⟨number, hpc⟩))), ?_,
      s.shutdown, s.run.tasks, ?_⟩
    · rw [hmetadata]
      exact htrusts
    · rw [hfile, State.writeFile, Function.update_eq_self]
      rfl
  | panic hmetadata =>
    have hfailed := step_attemptFailed (.ofSha256 sha256 maxWorkers) hpc htodo d.file
    refine ⟨_, s.run.metadata, (Machine.Reach.single hfailed).step trivial (a := .crash) rfl, ?_, false, [], rfl⟩
    rw [hmetadata]
    exact htrusts
  | installed bytes info hfile hmetadata htrusted =>
    refine ⟨_, s.run.metadata.insert (filename fileInfo) (trusted info),
      .single (step_attemptDone _ hpc htodo bytes), ?_, s.shutdown, s.run.tasks, ?_⟩
    · rw [hmetadata]
      exact htrusts.insert _ _
    · rw [hfile, htrusted]
      rfl

/-- The attempts that are left, by induction on their number. What a run takes an attempt to leave is what the next one
begins with, or what is left behind the last one. -/
theorem retryLoop_run (laws : HashingLaws env.hashing sha256) {left : Nat} {d : Downloading}
    (hnumber : number + left = maxDownloadRetries) (hpc : s.run.pc = .fetching number)
    (htodo : s.run.todo = filename fileInfo :: rest) (htrusts : Trusts s.run.metadata d.metadata)
    (hfile : s.disk (filename fileInfo) = (d.beginAttempt number (attempts number).removable).file)
    {outcome : Downloaded × Downloading}
    (houtcome : retryLoop env fileInfo attempts cleanup (List.range' number (left + 1)) d = outcome) :
    ∃ s' known, Machine.Reach (step (.ofSha256 sha256 maxWorkers)) Machine.always s s' ∧
      Trusts known outcome.2.metadata ∧ Fetches s (filename fileInfo) outcome.2.file known (placeOf outcome.1) s' := by
  induction left generalizing number s d with
  | zero =>
    have hattempt := runAttempt_outcome fileInfo laws number (attempts number) d
    rw [← hfile] at hattempt
    rw [List.range'_one] at houtcome
    unfold retryLoop at houtcome
    generalize runAttempt env fileInfo number (attempts number) d = attempt at hattempt houtcome
    obtain ⟨_ | result, d'⟩ := attempt
    · cases hattempt with
      | retry hmetadata =>
        obtain rfl := houtcome
        have hfailed := step_attemptFailed (.ofSha256 sha256 maxWorkers) hpc htodo (d'.remove cleanup).file
        rw [if_neg (by omega)] at hfailed
        refine ⟨_, s.run.metadata, .single hfailed, ?_, s.shutdown, s.run.tasks, rfl⟩
        unfold retryLoop Downloading.remove
        split_ifs <;> exact hmetadata ▸ htrusts
    · obtain rfl := houtcome
      exact hattempt.run maxWorkers hpc htodo htrusts
  | succ left ih =>
    have hattempt := runAttempt_outcome fileInfo laws number (attempts number) d
    rw [← hfile] at hattempt
    rw [List.range'_succ] at houtcome
    unfold retryLoop at houtcome
    generalize runAttempt env fileInfo number (attempts number) d = attempt at hattempt houtcome
    obtain ⟨_ | result, d'⟩ := attempt
    · cases hattempt with
      | retry hmetadata =>
        let begun := (d'.beginAttempt (number + 1) (attempts (number + 1)).removable).file
        have hfailed := step_attemptFailed (.ofSha256 sha256 maxWorkers) hpc htodo begun
        rw [if_pos (by omega)] at hfailed
        obtain ⟨s', known, hreach, htrusts', hfetches⟩ := ih (s := (s.writeFile _ begun).goto (.fetching (number + 1)))
          (d := d') (by omega) rfl htodo (hmetadata ▸ htrusts) (Function.update_self ..) houtcome
        exact ⟨s', known, (Machine.Reach.single hfailed).trans hreach, htrusts',
          Fetches.trans ⟨s.shutdown, s.run.tasks, rfl⟩ hfetches⟩
    · obtain rfl := houtcome
      exact hattempt.run maxWorkers hpc htodo htrusts

/-- A download is made by the steps of a run. -/
theorem downloadFile_run (laws : HashingLaws env.hashing sha256) (hpc : s.run.pc = .fetching 1)
    (htodo : s.run.todo = filename fileInfo :: rest) {metadata : Table String Downloader.LocalFileInfo}
    (htrusts : Trusts s.run.metadata metadata) {outcome : Downloaded × Downloading}
    (houtcome : downloadFile env fileInfo attempts cleanup (s.disk (filename fileInfo)) metadata = outcome) :
    ∃ s' known, Machine.Reach (step (.ofSha256 sha256 maxWorkers)) Machine.always s s' ∧
      Trusts known outcome.2.metadata ∧ Fetches s (filename fileInfo) outcome.2.file known (placeOf outcome.1) s' :=
  have hnumber : 1 + 2 = maxDownloadRetries := rfl
  retryLoop_run maxWorkers laws hnumber hpc htodo htrusts rfl houtcome

end Downloads

/-! ## The phase -/

/-- The run has the files, the trust map and the marker of the downloader, in memory and on disk. -/
structure Represents {σ : Type} (env : DownloadEnv σ) (a : Acquisition) (s : State (List UInt8)) : Prop where
  disk : ∀ name, Path.IsComponent name → s.disk name = a.files.disk (Path.join env.outputDirectory name)
  metadata : Trusts s.run.metadata a.files.metadata
  saved : Trusts s.metadata a.savedMetadata
  downloaded : s.run.downloaded = a.files.downloaded
  clock : s.clock = a.clock
  marker : a.marker = some s.marker
  savedMarker : a.savedMarker = (s.markers s.run.version).map (·.marker)

section Represents

variable {σ : Type} {c : Conditions σ} {env : DownloadEnv σ} {a : Acquisition} {s s' : State (List UInt8)}

theorem Represents.goto (h : Represents env a s) (pc : Pc) : Represents env a (s.goto pc) :=
  ⟨h.disk, h.metadata, h.saved, h.downloaded, h.clock, h.marker, h.savedMarker⟩

theorem Represents.write (h : Represents env a s) {moment : Downloader.Moment}
    {f : StateMarker → DateTime → StateMarker} (hdisk : s'.disk = s.disk)
    (hmetadata : s'.run.metadata = s.run.metadata) (hsaved : s'.metadata = s.metadata)
    (hdownloaded : s'.run.downloaded = s.run.downloaded) (hclock : s'.clock = s.clock + c.elapsed moment)
    (hversion : s'.run.version = s.run.version)
    (hmarker : s'.marker = { f s.marker s'.clock with lastUpdated := s'.clock })
    (hmarkers : s'.markers =
      if c.markerSaved moment then Function.update s.markers s.run.version (some s'.run.tracked) else s.markers) :
    Represents env (a.write c moment f) s' := by
  rw [h.clock] at hclock
  have hwrite : a.write c moment f = { a with
      clock := s'.clock
      marker := some s'.marker
      savedMarker := if c.markerSaved moment then some s'.marker else a.savedMarker } := by
    unfold Acquisition.write
    rw [h.marker]
    dsimp only
    rw [hmarker, hclock]
  rw [hwrite]
  refine ⟨?_, ?_, ?_, ?_, rfl, rfl, ?_⟩
  · rw [hdisk]
    exact h.disk
  · rw [hmetadata]
    exact h.metadata
  · rw [hsaved]
    exact h.saved
  · rw [hdownloaded]
    exact h.downloaded
  · rw [hmarkers, hversion]
    split_ifs
    · rw [Function.update_self]
      rfl
    · exact h.savedMarker

theorem Represents.saveMetadata (h : Represents env a s) (ok : Bool) :
    Represents env (a.saveMetadata ok) { s with metadata := if ok then s.run.metadata else s.metadata } := by
  refine ⟨h.disk, h.metadata, ?_, h.downloaded, h.clock, h.marker, h.savedMarker⟩
  unfold Acquisition.saveMetadata
  cases ok
  · exact h.saved
  · exact h.metadata

theorem Represents.update (h : Represents env a s) (file : S3FileInfo) (content : Option (List UInt8)) (name : String)
    (hname : Path.IsComponent name) : Function.update s.disk (filename file) content name =
      Function.update a.files.disk (localPath env file) content (Path.join env.outputDirectory name) := by
  by_cases hsame : name = filename file
  · rw [hsame, Function.update_self]
    exact (Function.update_self (localPath env file) content a.files.disk).symm
  · have hpath : Path.join env.outputDirectory name ≠ localPath env file :=
      fun hpath => hsame (Path.join_inj hname (Downloader.isComponent_filename file) hpath)
    rw [Function.update_of_ne hsame, Function.update_of_ne hpath]
    exact h.disk name hname

theorem Represents.writeFile (h : Represents env a s) {file : S3FileInfo} {content : Option (List UInt8)}
    {known : Table String TrustedFile} {metadata : Table String Downloader.LocalFileInfo} (opened : List String)
    (htrusts : Trusts known metadata) {pc : Pc} (hfetches : Fetches s (filename file) content known pc s') :
    Represents env
      { a with files := { a.files with
        disk := Function.update a.files.disk (localPath env file) content, metadata, opened } } s' := by
  obtain ⟨shutdown, tasks, rfl⟩ := hfetches
  exact ⟨h.update file content, htrusts, h.saved, h.downloaded, h.clock, h.marker, h.savedMarker⟩

theorem Represents.publishedAgrees (h : Represents env a s) (around : Downloader.Surroundings σ)
    (hpublished : s.run.published = around.published) (file : S3FileInfo) :
    s.publishedAgrees (filename file) = Downloader.publishedAgrees around a.files file := by
  unfold State.publishedAgrees Downloader.publishedAgrees
  rw [hpublished, h.metadata (filename file), Option.map_map]
  rfl

theorem Represents.needsDownload (h : Represents c.env a s) {sha256 : List UInt8 → List UInt8}
    (laws : HashingLaws c.env.hashing sha256) (maxWorkers : Nat) {published : Option (Table String String)}
    (hpublished : s.run.published = published) {file : S3FileInfo} {readable needed : Bool}
    (hneeded : Downloader.shouldDownload (c.around published) a.files readable file = some needed) :
    s.needsDownload (.ofSha256 sha256 maxWorkers) (filename file) =
      (needed || !Downloader.publishedAgrees (c.around published) a.files file) := by
  have hshould : s.shouldDownload (.ofSha256 sha256 maxWorkers) (filename file) = needed := by
    unfold Downloader.shouldDownload at hneeded
    unfold State.shouldDownload
    rw [h.disk _ (Downloader.isComponent_filename file), h.metadata]
    have hpath : localPath (c.around published).env file = Path.join c.env.outputDirectory (filename file) := rfl
    rw [hpath] at hneeded
    cases hcontent : a.files.disk (Path.join c.env.outputDirectory (filename file)) with
    | none =>
      rw [hcontent] at hneeded
      exact Option.some.inj hneeded
    | some content =>
      rw [hcontent] at hneeded
      cases hinfo : a.files.metadata.lookup (filename file) with
      | none =>
        rw [hinfo] at hneeded
        exact Option.some.inj hneeded
      | some info =>
        rw [hinfo] at hneeded
        cases readable with
        | false => exact absurd hneeded.symm (Option.some_ne_none needed)
        | true =>
          have heq := Option.some.inj hneeded
          rw [Downloader.calculateFileChecksum_eq laws] at heq
          exact heq
  unfold State.needsDownload
  rw [hshould, h.publishedAgrees (c.around published) hpublished]

def State.after {β : Type} (s : State β) (duration : Nat) : State β := { s with clock := s.clock + duration }

theorem Represents.record (h : Represents env a s) (i : Nat) (file : String) (size : Nat) (rest : List String) :
    Represents env (a.record c i file size)
      (((s.after (c.elapsed (.record i))).recordDownload file size (c.markerSaved (.record i))).advance file rest) := by
  have hinfo := h.metadata file
  have hwrite : Represents env (a.write c (.record i) (Acquisition.recorded file size (a.files.metadata.lookup file)))
      ((s.after (c.elapsed (.record i))).recordDownload file size (c.markerSaved (.record i))) := by
    cases hlookup : a.files.metadata.lookup file with
    | none =>
      rw [hlookup] at hinfo
      rw [recordDownload_unknown (s := s.after (c.elapsed (.record i))) size _ hinfo]
      exact h.write rfl rfl rfl rfl rfl rfl rfl rfl
    | some info =>
      rw [hlookup] at hinfo
      rw [recordDownload_known (s := s.after (c.elapsed (.record i))) size _ hinfo]
      exact h.write rfl rfl rfl rfl rfl rfl rfl rfl
  exact ⟨hwrite.disk, hwrite.metadata, hwrite.saved, congrArg (· ++ [file]) hwrite.downloaded, hwrite.clock,
    hwrite.marker, hwrite.savedMarker⟩

end Represents

/-- Where the run is behind a file of the loop. -/
structure Loops (run : Run) (result : Option Acquired) (rest : List String) (s' : State (List UInt8)) :
    Prop where
  source : s'.run.source = run.source
  next : result = none → s'.run.pc = .downloading ∧ s'.run.todo = rest ∧ s'.run.published = run.published
  halted : ∀ acquired, result = some acquired → s'.run.pc = .idle ∧ ∀ files, acquired ≠ .ok files

theorem Loops.ended {run : Run} {acquired : Acquired} {rest : List String} {s' : State (List UInt8)}
    (hsource : s'.run.source = run.source) (hpc : s'.run.pc = .idle) (hfailed : ∀ files, acquired ≠ .ok files) :
    Loops run (some acquired) rest s' := by
  refine ⟨hsource, fun hno => absurd hno (Option.some_ne_none _), ?_⟩
  rintro _ ⟨⟩
  exact ⟨hpc, hfailed⟩

section Phase

variable {σ : Type} {c : Conditions σ} {sha256 : List UInt8 → List UInt8} (maxWorkers : Nat)
  {published : Option (Table String String)} {a : Acquisition} {s : State (List UInt8)} {rest : List String}

theorem loops_record (file : String) (size : Nat) (saved : Bool) :
    Loops s.run none rest ((s.recordDownload file size saved).advance file rest) := by
  obtain ⟨m, hrun⟩ := recordDownload_run (s := s) file size saved
  refine ⟨?_, fun _ => ⟨rfl, rfl, ?_⟩, fun _ hno => absurd hno.symm (Option.some_ne_none _)⟩
  · show (s.recordDownload file size saved).run.source = _
    rw [hrun]
  · show (s.recordDownload file size saved).run.published = _
    rw [hrun]

theorem step_after {cfg : Config (List UInt8)} (duration : Nat) :
    Machine.Reach (step cfg) Machine.always s (s.after duration) :=
  .single (a := .tick duration) rfl

theorem Loops.congr {run run' : Run} {result : Option Acquired} (h : Loops run result rest s)
    (hsource : run.source = run'.source) (hpublished : run.published = run'.published) :
    Loops run' result rest s :=
  ⟨h.source.trans hsource, fun hnone => ⟨(h.next hnone).1, (h.next hnone).2.1, (h.next hnone).2.2.trans hpublished⟩,
    h.halted⟩

theorem Represents.reject (h : Represents c.env a s) (file : S3FileInfo) (removed : Bool) :
    Represents c.env { a with files := a.files.reject (localPath c.env file) (filename file) removed }
      (s.reject (filename file) removed) := by
  refine ⟨?_, h.metadata.erase (filename file), h.saved, h.downloaded, h.clock, h.marker, h.savedMarker⟩
  cases removed with
  | true => exact h.update file none
  | false =>
    intro name hname
    have hkept : Function.update s.disk (filename file) (s.disk (filename file)) name = s.disk name := by
      rw [Function.update_eq_self]
    exact hkept.trans (h.disk name hname)

variable (sha256) in
theorem settle_run (h : Represents c.env a s) {file : S3FileInfo} {result : Downloaded}
    (hpc : s.run.pc = placeOf result) (htodo : s.run.todo = filename file :: rest)
    (hpublished : s.run.published = published) {i : Nat} {outcome : Option Acquired × Acquisition}
    (houtcome : Acquisition.settle c published i file result a = outcome) :
    ∃ s', Machine.Reach (step (.ofSha256 sha256 maxWorkers)) Machine.always s s' ∧ Represents c.env outcome.2 s' ∧
      Loops s.run outcome.1 rest s' := by
  cases result with
  | panic =>
    obtain rfl := houtcome
    exact ⟨s, .init, h, .ended rfl hpc nofun⟩
  | err message =>
    obtain rfl := houtcome
    exact ⟨s, .init, h, .ended rfl hpc nofun⟩
  | ok downloaded =>
    have hagrees := h.publishedAgrees (c.around published) hpublished file
    unfold Acquisition.settle at houtcome
    dsimp only at houtcome
    cases hpub : Downloader.publishedAgrees (c.around published) a.files file with
    | true =>
      rw [if_pos hpub] at houtcome
      obtain rfl := houtcome
      have hsaved := step_saveFileMetadata (.ofSha256 sha256 maxWorkers) hpc htodo (hagrees.trans hpub)
        (c.metadataSaved (some i))
      let t := ({ s with metadata := if c.metadataSaved (some i) then s.run.metadata else s.metadata }.goto
        (.recording downloaded)).after (c.elapsed (.record i))
      have hrecord := step_recordFile (.ofSha256 sha256 maxWorkers) (s := t) rfl htodo
        (c.markerSaved (.record i))
      refine ⟨_, ((Machine.Reach.single hsaved).trans (step_after _)).step trivial hrecord, ?_,
        (loops_record (s := t) _ _ _).congr rfl rfl⟩
      exact ((h.saveMetadata _).goto (.recording downloaded)).record i _ _ rest
    | false =>
      rw [if_neg (Bool.eq_false_iff.1 hpub)] at houtcome
      obtain rfl := houtcome
      exact ⟨_, .single (step_rejectFile _ hpc htodo (hagrees.trans hpub) (c.removable i)), h.reject file _,
        .ended rfl rfl nofun⟩

/-- One file of the loop is made by the steps of a run. -/
theorem fetchFile_run (laws : HashingLaws c.env.hashing sha256) (h : Represents c.env a s)
    (hpc : s.run.pc = .downloading) {file : S3FileInfo} (htodo : s.run.todo = filename file :: rest)
    (hpublished : s.run.published = published) {i : Nat} {outcome : Option Acquired × Acquisition}
    (houtcome : Acquisition.fetchFile c published i file a = outcome) :
    ∃ s', Machine.Reach (step (.ofSha256 sha256 maxWorkers)) Machine.always s s' ∧ Represents c.env outcome.2 s' ∧
      Loops s.run outcome.1 rest s' := by
  unfold Acquisition.fetchFile at houtcome
  cases hneeded : Downloader.shouldDownload (c.around published) a.files (c.readable i) file with
  | none =>
    rw [hneeded] at houtcome
    obtain rfl := houtcome
    exact ⟨s.goto .idle, .single (step_downloadFailed _ (.inr (.inl hpc))), h.goto _,
      .ended rfl rfl nofun⟩
  | some needed =>
    have hneeds := h.needsDownload laws maxWorkers hpublished hneeded
    rw [hneeded] at houtcome
    dsimp only at houtcome
    by_cases hfetch : (needed || !Downloader.publishedAgrees (c.around published) a.files file) = true
    · rw [if_pos hfetch] at houtcome
      let t := s.after (c.elapsed (.begin i))
      have hstart := step_startFile (.ofSha256 sha256 maxWorkers) (s := t) hpc htodo (hneeds.trans hfetch)
        (c.markerSaved (.begin i))
      let s₁ := ((t.update (·.startFileDownload (filename file) t.clock)).save (c.markerSaved (.begin i))).goto
        (.fetching 1)
      have hbegun : Represents c.env (a.write c (.begin i) (·.startFileDownload (filename file) ·)) s₁ :=
        h.write rfl rfl rfl rfl rfl rfl rfl rfl
      generalize a.write c (.begin i) (·.startFileDownload (filename file) ·) = begun at houtcome hbegun
      have hcontent := hbegun.disk _ (Downloader.isComponent_filename file)
      change _ = begun.files.disk (localPath c.env file) at hcontent
      rw [← hcontent] at houtcome
      generalize hdownload : downloadFile c.env file (c.attempts i) (c.cleanup i) (s₁.disk (filename file))
        begun.files.metadata = download at houtcome
      obtain ⟨s₂, known, hreach, htrusts, hfetches⟩ :=
        downloadFile_run maxWorkers (s := s₁) laws rfl htodo hbegun.metadata hdownload
      have hreceived : Represents c.env (begun.receive c file download.2) s₂ := hbegun.writeFile _ htrusts hfetches
      obtain ⟨shutdown, tasks, rfl⟩ := hfetches
      obtain ⟨s', hreach', hrepresents, hloops⟩ := settle_run sha256 maxWorkers hreceived rfl htodo hpublished houtcome
      exact ⟨s', ((step_after _).step trivial hstart).trans (hreach.trans hreach'), hrepresents,
        hloops.congr rfl rfl⟩
    · rw [if_neg hfetch] at houtcome
      obtain rfl := houtcome
      let t := s.after (c.elapsed (.record i))
      have hno : t.needsDownload (.ofSha256 sha256 maxWorkers) (filename file) = false :=
        hneeds.trans (Bool.eq_false_iff.2 hfetch)
      have hhave := step_alreadyHave (.ofSha256 sha256 maxWorkers) (s := t) hpc htodo hno (c.markerSaved (.record i))
      have hcontent : t.disk (filename file) = a.files.disk (localPath c.env file) :=
        h.disk _ (Downloader.isComponent_filename file)
      rw [hcontent] at hhave
      exact ⟨_, (step_after _).step trivial hhave, h.record i _ _ rest, loops_record (s := t) _ _ _⟩

/-- The files of the loop, by induction on those that are left. -/
theorem fetchFiles_run (laws : HashingLaws c.env.hashing sha256) {files : List S3FileInfo} (h : Represents c.env a s)
    (hpc : s.run.pc = .downloading) (htodo : s.run.todo = files.map filename) (hpublished : s.run.published = published)
    {i : Nat} {outcome : Option Acquired × Acquisition}
    (houtcome : Acquisition.fetchFiles c published i files a = outcome) :
    ∃ s', Machine.Reach (step (.ofSha256 sha256 maxWorkers)) Machine.always s s' ∧ Represents c.env outcome.2 s' ∧
      Loops s.run outcome.1 [] s' := by
  induction files generalizing i a s with
  | nil =>
    obtain rfl := houtcome
    exact ⟨s, .init, h, rfl, fun _ => ⟨hpc, htodo, rfl⟩,
      fun _ hno => absurd hno.symm (Option.some_ne_none _)⟩
  | cons file files ih =>
    unfold Acquisition.fetchFiles at houtcome
    generalize hfile : Acquisition.fetchFile c published i file a = behind at houtcome
    obtain ⟨s', hreach, hrepresents, hloops⟩ :=
      fetchFile_run maxWorkers laws h hpc htodo hpublished hfile
    obtain ⟨_ | result, a'⟩ := behind
    · obtain ⟨hpc', htodo', hpublished'⟩ := hloops.next rfl
      obtain ⟨s'', hreach', hrepresents', hloops'⟩ := ih hrepresents hpc' htodo' (hpublished'.trans hpublished) houtcome
      exact ⟨s'', hreach.trans hreach', hrepresents', hloops'.congr hloops.source hpublished'⟩
    · obtain rfl := houtcome
      exact ⟨s', hreach, hrepresents, hloops.source,
        fun hno => absurd hno (Option.some_ne_none _), hloops.halted⟩

/-- Where the run is behind the phase. -/
structure Ends (run : Run) (published : Option (Table String String)) (result : Acquired) (s' : State (List UInt8)) :
    Prop where
  source : s'.run.source = run.source
  place : s'.run.pc = if result matches .ok _ then .downloaded else .idle
  files : ∀ files, result = .ok files → s'.run.downloaded = files ∧ s'.run.published = published

theorem fetchLatest_run (laws : HashingLaws c.env.hashing sha256) {files : List S3FileInfo} (h : Represents c.env a s)
    (hpc : s.run.pc = .starting) (hsource : s.run.source = .downloader) (hlatest : s.run.latest = files.map filename)
    {outcome : Acquired × Acquisition} (houtcome : Acquisition.fetchLatest c published files a = outcome) :
    ∃ s', Machine.Reach (step (.ofSha256 sha256 maxWorkers)) Machine.always s s' ∧ Represents c.env outcome.2 s' ∧
      Ends s.run published outcome.1 s' := by
  let t := s.after (c.elapsed .start)
  have hstart := step_startDownload (.ofSha256 sha256 maxWorkers) (s := t) hpc hsource published
    (c.markerSaved .start)
  let s₁ := ((t.update (·.startDownload t.run.latest.length t.clock)).save (c.markerSaved .start)).enterLoop published
  have hlength : t.run.latest.length = files.length := (congrArg List.length hlatest).trans (List.length_map ..)
  have hbegun : Represents c.env (a.write c .start (·.startDownload files.length ·)) s₁ :=
    h.write rfl rfl rfl rfl rfl rfl (hlength ▸ rfl) rfl
  unfold Acquisition.fetchLatest at houtcome
  dsimp only at houtcome
  generalize hfiles : Acquisition.fetchFiles c published 0 files (a.write c .start (·.startDownload files.length ·)) =
    behind at houtcome
  obtain ⟨s₂, hreach, hrepresents, hloops⟩ :=
    fetchFiles_run maxWorkers laws hbegun rfl hlatest rfl hfiles
  have hbehind := ((step_after _).step trivial hstart).trans hreach
  obtain ⟨_ | result, a'⟩ := behind
  · obtain ⟨hpc', htodo', hpublished'⟩ := hloops.next rfl
    let t₂ := s₂.after (c.elapsed .finish)
    have hcomplete := step_completeDownload (.ofSha256 sha256 maxWorkers) (s := t₂) hpc' htodo'
      (c.markerSaved .finish)
    let s₃ := ((t₂.update (·.completeDownload t₂.clock)).save (c.markerSaved .finish)).goto .closing
    have hcompleted : Represents c.env (a'.write c .finish (·.completeDownload ·)) s₃ :=
      hrepresents.write rfl rfl rfl rfl rfl rfl rfl rfl
    have hreach₃ := (hbehind.trans (step_after _)).step trivial hcomplete
    obtain rfl := houtcome
    have hsource' : s₃.run.source = s.run.source := hloops.source
    cases hok : c.metadataSaved none with
    | true =>
      have hsaved : step (.ofSha256 sha256 maxWorkers) s₃ (.saveMetadata true) =
        some ({ s₃ with metadata := s₃.run.metadata }.goto .downloaded) := rfl
      refine ⟨_, hreach₃.step trivial hsaved, (hcompleted.saveMetadata true).goto _, hsource', rfl, ?_⟩
      rintro _ ⟨⟩
      exact ⟨hcompleted.downloaded, hpublished'⟩
    | false =>
      have hsaved : step (.ofSha256 sha256 maxWorkers) s₃ (.saveMetadata false) = some (s₃.goto .idle) := rfl
      exact ⟨_, hreach₃.step trivial hsaved, (hcompleted.saveMetadata false).goto _, hsource', rfl, nofun⟩
  · obtain rfl := houtcome
    obtain ⟨hpc', hfailed⟩ := hloops.halted result rfl
    refine ⟨s₂, hbehind, hrepresents, hloops.source, ?_, fun files heq => absurd heq (hfailed files)⟩
    cases result with
    | ok files => exact absurd rfl (hfailed files)
    | err => exact hpc'
    | panic => exact hpc'

/-- The download phase, with whatever it meets, is made by the steps of a run that has got its files from the same
listing. -/
theorem downloadDiscogsData_run (laws : HashingLaws c.env.hashing sha256) {lib : Downloader.Library}
    {site : Downloader.Site} (h : Represents c.env a s) (hpc : s.run.pc = .starting)
    (hsource : s.run.source = .downloader) (hlatest : ∀ files, Downloader.listS3Files lib c.order site = .ok files →
      getLatestMonthlyFiles files ≠ [] ∧ s.run.latest = (getLatestMonthlyFiles files).map filename)
    {outcome : Acquired × Acquisition} (houtcome : Acquisition.downloadDiscogsData c lib site a = outcome) :
    ∃ s', Machine.Reach (step (.ofSha256 sha256 maxWorkers)) Machine.always s s' ∧ Represents c.env outcome.2 s' ∧
      Ends s.run (c.published lib site) outcome.1 s' := by
  have hfailed : ∃ s', Machine.Reach (step (.ofSha256 sha256 maxWorkers)) Machine.always s s' ∧
      Represents c.env a s' ∧ Ends s.run (c.published lib site) .err s' :=
    ⟨s.goto .idle, .single (step_downloadFailed _ (.inl hpc)), h.goto _, rfl, rfl, nofun⟩
  unfold Acquisition.downloadDiscogsData at houtcome
  split_ifs at houtcome
  · unfold Conditions.published at hfailed ⊢
    cases hlisted : Downloader.listS3Files lib c.order site with
    | error e =>
      rw [hlisted] at houtcome hfailed
      obtain rfl := houtcome
      exact hfailed
    | ok files =>
      obtain ⟨hne, hlatest⟩ := hlatest files hlisted
      rw [hlisted] at houtcome
      dsimp only at houtcome ⊢
      cases hfiles : getLatestMonthlyFiles files with
      | nil => exact absurd hfiles hne
      | cons file rest =>
        rw [hfiles] at houtcome hlatest
        dsimp only at houtcome
        cases hmonth : extractMonthFromFilename c.env.month file.name with
        | none =>
          rw [hmonth] at houtcome
          obtain rfl := houtcome
          exact ⟨_, .single (a := .crash) rfl,
            ⟨h.disk, h.metadata, h.saved, h.downloaded, h.clock, h.marker, h.savedMarker⟩, rfl, rfl, nofun⟩
        | some month =>
          rw [hmonth] at houtcome
          exact fetchLatest_run maxWorkers laws h hpc hsource hlatest houtcome
  · obtain rfl := houtcome
    exact hfailed

end Phase

/-! ## What is left by a phase that succeeds -/

/-- A run that is about to download, with what the downloader has. -/
def State.ofAcquisition {σ : Type} (env : DownloadEnv σ) (a : Acquisition) (marker : StateMarker)
    (latest : List String) : State (List UInt8) where
  clock := a.clock
  shutdown := false
  disk name := a.files.disk (Path.join env.outputDirectory name)
  metadata := a.savedMetadata.mapValues trusted
  markers _ := a.savedMarker.map fun m => ⟨m, [], fun _ => 0⟩
  run :=
    { source := .downloader, version := "", latest, startedAt := 0
      metadata := a.files.metadata.mapValues trusted
      published := none, todo := [], downloaded := a.files.downloaded
      tracked := ⟨marker, [], fun _ => 0⟩
      processingStartedAt := 0, tasks := [], pc := .starting }
  nextAttempt := 1
  log := []

theorem represents_ofAcquisition {σ : Type} (env : DownloadEnv σ) {a : Acquisition} {marker : StateMarker}
    (hmarker : a.marker = some marker) (latest : List String) :
    Represents env a (.ofAcquisition env a marker latest) := by
  refine ⟨fun _ _ => rfl, Table.lookup_mapValues _ _, Table.lookup_mapValues _ _, rfl, rfl, hmarker, ?_⟩
  show a.savedMarker = (a.savedMarker.map _).map _
  rw [Option.map_map]
  exact Option.map_id'.symm

section Verified

variable {σ : Type} {c : Conditions σ} {sha256 : List UInt8 → List UInt8} {a : Acquisition}

/-- What a run that begins with the phase keeps. -/
structure Acquiring (cfg : Config (List UInt8)) (s : State (List UInt8)) : Prop where
  verifying : Verifying cfg s
  kept : Kept cfg s
  idle : s.run.pc.early = true → s.run.tasks = []

theorem acquiring_ofAcquisition {cfg : Config (List UInt8)} (env : DownloadEnv σ) (hfresh : a.files.downloaded = [])
    (marker : StateMarker) (latest : List String) : Acquiring cfg (.ofAcquisition env a marker latest) := by
  have hnone : (State.ofAcquisition env a marker latest).run.downloaded = [] := hfresh
  refine ⟨⟨fun _ => hnone, ?_, ?_, ?_⟩, ⟨fun _ => hnone, ?_, ?_, ?_, ?_⟩, fun _ => rfl⟩
  · intro _ file hfile
    simp [hnone] at hfile
  · intro size hpc
    simp [State.ofAcquisition] at hpc
  · intro hpc
    simp [State.ofAcquisition] at hpc
  · intro _ _ file hfile
    simp [hnone] at hfile
  · intro _ file hflight
    simp [State.ofAcquisition, Run.inFlight] at hflight
  · intro size hpc
    simp [State.ofAcquisition] at hpc
  · intro _ hpc
    simp [State.ofAcquisition] at hpc

theorem Acquiring.reach {cfg : Config (List UInt8)} {s s' : State (List UInt8)} (h : Acquiring cfg s)
    (hreach : Machine.Reach (step cfg) Machine.always s s') : Acquiring cfg s' := by
  refine hreach.invariant h ?_
  intro s a s' hI _ hs
  exact ⟨verifying_step hI.verifying hI.idle hs, kept_step hI.kept hI.verifying hI.idle hs,
    early_tasks_step hI.idle hs⟩

/-- Behind a phase that succeeds there are all files of the latest month, each with the hash that the saved trust map,
the marker and, if it is listed there, the checksum file of the month have of it. -/
theorem downloadDiscogsData_verified (laws : HashingLaws c.env.hashing sha256) {lib : Downloader.Library}
    {site : Downloader.Site} (hmarker : a.marker.isSome = true) (hfresh : a.files.downloaded = [])
    {names : List String} {a' : Acquisition} (h : Acquisition.downloadDiscogsData c lib site a = (.ok names, a')) :
    (∃ files, Downloader.listS3Files lib c.order site = .ok files ∧
      names = (getLatestMonthlyFiles files).map filename) ∧
    ∀ name ∈ names, ∃ content info m, a'.files.disk (Path.join c.env.outputDirectory name) = some content ∧
      a'.savedMetadata.lookup name = some info ∧ info.checksum = hexEncode (sha256 content) ∧
      a'.marker = some m ∧ (m.download name).bind (·.checksum) = some (hexEncode (sha256 content)) ∧
      Agrees (c.published lib site) name (hexEncode (sha256 content)) := by
  obtain ⟨marker, hmarker⟩ := Option.isSome_iff_exists.1 hmarker
  obtain ⟨files, hlisted, hnames⟩ := Acquisition.downloadDiscogsData_names hfresh (congrArg Prod.fst h)
  refine ⟨⟨files, hlisted, hnames⟩, fun name hname => ?_⟩
  have hfetched := Acquisition.fetchLatest_of_ok hlisted (List.ne_nil_of_mem hname) h
  obtain ⟨s', hreach, hrepresents, hends⟩ := fetchLatest_run 1 laws
    (represents_ofAcquisition c.env hmarker names) rfl rfl hnames hfetched
  have hacquiring := (acquiring_ofAcquisition c.env hfresh marker names).reach hreach
  have hpc : s'.run.pc = .downloaded := hends.place
  have hearly : s'.run.pc.early = true := by rw [hpc]; rfl
  obtain ⟨hdownloaded, hpublished⟩ := hends.files names rfl
  rw [← hdownloaded] at hname
  have hflight : s'.run.inFlight ≠ some name := by
    unfold Run.inFlight
    rw [hpc]
    exact (Option.some_ne_none name).symm
  obtain ⟨content, hcontent, hchecksum, -⟩ := hacquiring.verifying.files hearly name hname hflight
  have hneeds := hacquiring.kept.files hends.source hearly name hname
  obtain ⟨content', info, hcontent', hinfo, hsum, hagrees⟩ := needsDownload_eq_false (s := .init s') hneeds
  obtain rfl := Option.some.inj (hcontent.symm.trans hcontent')
  have hsaved := hrepresents.saved name
  rw [hacquiring.kept.saved hends.source hpc] at hsaved
  obtain ⟨saved, hlookup, rfl⟩ := Option.map_eq_some_iff.1 (hsaved.symm.trans hinfo)
  have hcomponent : Path.IsComponent name := by
    rw [hdownloaded, hnames] at hname
    obtain ⟨file, -, rfl⟩ := List.mem_map.1 hname
    exact Downloader.isComponent_filename file
  exact ⟨content, saved, s'.marker, (hrepresents.disk name hcomponent).symm.trans hcontent, hlookup, hsum,
    hrepresents.marker, hchecksum, hpublished ▸ hagrees⟩

end Verified

/-! ## A month -/

section Monthly

open Downloader (ChecksumLine IsBasename Rendering abcDigest isComponent_filename listS3Files listed_siteOf
  mathDigits parseChecksums_text publishedChecksums retriedBody retriedEnv retriedEnv_laws siteOf)

def monthlyFiles : List S3FileInfo := ((Downloader.entriesOf "20260101").map (·.2)).take 4

theorem isBasename_monthly {file : S3FileInfo} (h : file ∈ monthlyFiles) : IsBasename (filename file) := by
  have hnames : ∀ file ∈ monthlyFiles, '\n' ∉ (filename file).toList ∧ '\\' ∉ (filename file).toList ∧
      (filename file).toList.head? = some 'd' ∧ (filename file).toList.getLast? = some 'z' := by
    decide +kernel
  obtain ⟨hnewline, hbackslash, hhead, hlast⟩ := hnames file h
  have hblank : isWhitespace 'd' = false ∧ isWhitespace 'z' = false := by decide
  refine ⟨isComponent_filename file, hnewline, hbackslash, ?_, ?_, ?_⟩
  · rw [hhead]
    decide
  · rw [hhead]
    rintro c ⟨⟩
    exact hblank.1
  · rw [hlast]
    rintro c ⟨⟩
    exact hblank.2

def abcLine {name : String} (h : IsBasename name) : ChecksumLine where
  indent := []
  hash := hexEncode (abcDigest [97, 98, 99])
  binary := false
  directory := none
  name
  trail := []
  indent_blank := nofun
  isDigest := ⟨by decide +kernel, List.all_eq_true.1 (by decide +kernel)⟩
  directory_newline := nofun
  isBasename := h
  trail_blank := nofun

def monthlyChecksums : Rendering where
  ended := monthlyFiles.attach.map fun file => (.checksum (abcLine (isBasename_monthly file.2)), .lf)
  last := .blank

/-- The checksum file is there, and each file of the month comes with the first attempt. -/
def monthlyConditions : Conditions (List UInt8) where
  env := retriedEnv
  order := .refl
  directory := true
  checksums _ := some (200, some monthlyChecksums.text)
  readable _ := true
  attempts _ _ := retriedBody [.chunk [97, 98, 99] none] (by decide)
  cleanup _ := true
  removable _ := true
  elapsed _ := 1
  markerSaved _ := true
  metadataSaved _ := true

def monthlyMarker : StateMarker := .new "20260101" 0

def monthlyAcquisition : Acquisition where
  files := .fresh
  clock := 0
  savedMetadata := ∅
  marker := some monthlyMarker
  savedMarker := none

theorem listS3Files_monthly :
    listS3Files mathDigits monthlyConditions.order (siteOf "20260101") =
      .ok ((Downloader.entriesOf "20260101").map (·.2)) := by
  have hlisted : Downloader.listed mathDigits (siteOf "20260101") = some (Downloader.entriesOf "20260101") :=
    listed_siteOf ⟨by decide, List.all_eq_true.1 (by decide)⟩
  exact Downloader.listS3Files_eq_ok.2 ⟨Downloader.entriesOf "20260101", hlisted, by decide, by decide +kernel⟩

theorem getLatestMonthlyFiles_monthly :
    getLatestMonthlyFiles ((Downloader.entriesOf "20260101").map (·.2)) = monthlyFiles := by
  decide +kernel

def monthlyHashes : Table String String :=
  Table.collect some (monthlyFiles.map fun file => (filename file, hexEncode (abcDigest [97, 98, 99])))

theorem checksums_monthly :
    monthlyChecksums.checksums = monthlyFiles.attach.map fun file => abcLine (isBasename_monthly file.2) := by
  unfold monthlyChecksums Rendering.checksums
  simp [List.filterMap_map, Downloader.Line.checksum?, Downloader.Line.blank, Function.comp_def]

theorem publishedChecksums_monthly :
    publishedChecksums monthlyConditions.checksums ((Downloader.entriesOf "20260101").map (·.2)) monthlyFiles =
      some monthlyHashes := by
  have hlines : (monthlyChecksums.checksums.map fun line => (line.name, DataType.lowercase line.hash)) =
      monthlyFiles.map fun file => (filename file, hexEncode (abcDigest [97, 98, 99])) := by
    rw [checksums_monthly, List.map_map]
    conv_rhs => rw [← List.attach_map_subtype_val monthlyFiles, List.map_map]
    refine List.map_congr_left fun file _ => ?_
    have hlower : DataType.lowercase (hexEncode (abcDigest [97, 98, 99])) = hexEncode (abcDigest [97, 98, 99]) := by
      decide +kernel
    exact congrArg (Prod.mk _) hlower
  have hchecksums : Downloader.parseChecksums monthlyChecksums.text = monthlyHashes := by
    rw [parseChecksums_text, hlines]
    rfl
  have hentry : (Downloader.findChecksumEntry ((Downloader.entriesOf "20260101").map (·.2)) monthlyFiles).isSome =
      true := by
    decide +kernel
  obtain ⟨checksumFile, hfound⟩ := Option.isSome_iff_exists.1 hentry
  have hresponse : monthlyConditions.checksums checksumFile = some (200, some monthlyChecksums.text) := rfl
  unfold publishedChecksums Downloader.fetchChecksums
  rw [hfound]
  dsimp only
  rw [hresponse]
  dsimp only
  rw [if_neg (by decide), hchecksums, if_neg (by decide +kernel)]
  rfl

theorem downloadDiscogsData_monthly : (Acquisition.downloadDiscogsData monthlyConditions mathDigits (siteOf "20260101")
    monthlyAcquisition).1 = .ok (monthlyFiles.map filename) := by
  have hmonth : ∃ file rest month, monthlyFiles = file :: rest ∧
      extractMonthFromFilename monthlyConditions.env.month file.name = some month :=
    ⟨_, _, _, rfl, rfl⟩
  obtain ⟨file, rest, month, hfiles, hmonth⟩ := hmonth
  have hpublished := publishedChecksums_monthly
  have hfetched : (Acquisition.fetchLatest monthlyConditions (some monthlyHashes) monthlyFiles monthlyAcquisition).1 =
      .ok (monthlyFiles.map filename) := by
    decide +kernel
  unfold Acquisition.downloadDiscogsData
  have hdirectory : monthlyConditions.directory = true := rfl
  rw [if_pos hdirectory, listS3Files_monthly]
  dsimp only
  rw [getLatestMonthlyFiles_monthly]
  rw [hfiles] at hpublished hfetched ⊢
  dsimp only
  rw [hmonth, hpublished]
  exact hfetched

theorem downloadDiscogsData_run_monthly :
    ∃ s', Machine.Reach (step (.ofSha256 abcDigest 4)) Machine.always
        (.ofAcquisition retriedEnv monthlyAcquisition monthlyMarker (monthlyFiles.map filename)) s' ∧
      Represents retriedEnv (Acquisition.downloadDiscogsData monthlyConditions mathDigits (siteOf "20260101")
        monthlyAcquisition).2 s' ∧ s'.run.pc = .downloaded := by
  have hlatest : ∀ files, listS3Files mathDigits monthlyConditions.order (siteOf "20260101") = .ok files →
      getLatestMonthlyFiles files ≠ [] ∧ monthlyFiles.map filename = (getLatestMonthlyFiles files).map filename := by
    intro files hfiles
    obtain rfl := Except.ok.inj (listS3Files_monthly.symm.trans hfiles)
    rw [getLatestMonthlyFiles_monthly]
    exact ⟨by decide, rfl⟩
  have hresult := downloadDiscogsData_monthly
  generalize houtcome : Acquisition.downloadDiscogsData monthlyConditions mathDigits (siteOf "20260101")
    monthlyAcquisition = outcome at hresult
  obtain ⟨s', hreach, hrepresents, hends⟩ := downloadDiscogsData_run (c := monthlyConditions) 4 retriedEnv_laws
    (represents_ofAcquisition retriedEnv rfl (monthlyFiles.map filename)) rfl rfl hlatest houtcome
  refine ⟨s', hreach, hrepresents, ?_⟩
  rw [hends.place, hresult]
  exact if_pos rfl

theorem published_monthly :
    monthlyConditions.published mathDigits (siteOf "20260101") = some monthlyHashes := by
  rw [Downloader.Conditions.published_of_ok listS3Files_monthly, getLatestMonthlyFiles_monthly]
  exact publishedChecksums_monthly

theorem downloadDiscogsData_verified_monthly : ∃ a', Acquisition.downloadDiscogsData monthlyConditions mathDigits
      (siteOf "20260101") monthlyAcquisition = (.ok (monthlyFiles.map filename), a') ∧
    ∀ name ∈ monthlyFiles.map filename, ∃ content info m,
      a'.files.disk (Path.join "/discogs-data" name) = some content ∧ a'.savedMetadata.lookup name = some info ∧
        info.checksum = hexEncode (abcDigest content) ∧
        a'.marker = some m ∧ (m.download name).bind (·.checksum) = some (hexEncode (abcDigest content)) ∧
        (monthlyConditions.published mathDigits (siteOf "20260101")).bind (·.lookup name) =
          some (hexEncode (abcDigest content)) := by
  have hresult := downloadDiscogsData_monthly
  generalize hphase : Acquisition.downloadDiscogsData monthlyConditions mathDigits (siteOf "20260101")
    monthlyAcquisition = outcome at hresult
  obtain ⟨result, a'⟩ := outcome
  obtain rfl : result = _ := hresult
  refine ⟨a', rfl, fun name hname => ?_⟩
  obtain ⟨-, hverified⟩ := downloadDiscogsData_verified (c := monthlyConditions) retriedEnv_laws rfl rfl hphase
  obtain ⟨content, info, m, hcontent, hinfo, hsum, hmarker, hmarked, hagrees⟩ := hverified name hname
  have hpublished : (monthlyConditions.published mathDigits (siteOf "20260101")).bind (·.lookup name) =
      some (hexEncode (abcDigest [97, 98, 99])) := by
    rw [published_monthly]
    have hhashes : ∀ name ∈ monthlyFiles.map filename,
        monthlyHashes.lookup name = some (hexEncode (abcDigest [97, 98, 99])) := by
      decide +kernel
    exact hhashes name hname
  refine ⟨content, info, m, hcontent, hinfo, hsum, hmarker, hmarked, ?_⟩
  rw [hpublished, hagrees _ hpublished]

end Monthly

end DiscogsIngestion.Session
