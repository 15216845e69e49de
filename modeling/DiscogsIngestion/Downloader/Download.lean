import DiscogsIngestion.Names
import DiscogsIngestion.Downloader.Versions
import DiscogsIngestion.Session.Machine

/-!
# The download of a file

* `Hashing` : an incremental hash, as the downloader uses it;
* `Attempt`, `Reply`, `Body`, `ChunkResult` : what happens in one attempt, with all that can fail;
* `stream`, `downloadBody`, `runAttempt`, `retryLoop`, `downloadFile` : `download_file`;
* `Attempt.Delivers`, `Installed` : an attempt that succeeds, and what it leaves;
* `stream_done`, `runAttempt_end`, `retryLoop_consistent` : one body, one attempt, and the attempts together;
* `downloadFile_consistent` : what is left by a download that succeeds, and by one that fails.
-/

namespace DiscogsIngestion.Downloader

/-! ## Hashes -/

/-- `Sha256::new`, `update` and `finalize`. -/
structure Hashing (σ : Type) where
  new : σ
  update : σ → List UInt8 → σ
  finalize : σ → List UInt8

/-- The digest is that of all bytes, however they are cut. -/
structure HashingLaws {σ : Type} (hashing : Hashing σ) (sha256 : List UInt8 → List UInt8) : Prop where
  digest : ∀ chunks : List (List UInt8),
    hashing.finalize (chunks.foldl hashing.update hashing.new) = sha256 chunks.flatten

def hexDigit (n : Nat) : Char := if n < 10 then Char.ofNat (48 + n) else Char.ofNat (87 + n)

def hexEncode (bytes : List UInt8) : String :=
  String.ofList (bytes.flatMap fun b => [hexDigit (b.toNat / 16), hexDigit (b.toNat % 16)])

/-! ## What can happen -/

/-- An error, and what it leaves of the file. -/
structure Failure where
  message : String
  left : List UInt8

inductive ChunkResult where
  /-- A chunk is read, and written or not. -/
  | chunk (bytes : List UInt8) (write : Option Failure)
  | error (failure : Failure)

def ChunkResult.written : ChunkResult → Nat
  | .chunk bytes none => bytes.length
  | _ => 0

structure Body where
  /-- The error of `File::create`. -/
  create : Option String
  chunks : List ChunkResult
  flush : Option Failure
  sync : Option Failure
  /-- No file is longer, so that the count of its bytes stays a `u64`. -/
  fits : (chunks.map (·.written)).sum < 2 ^ 64

inductive Reply where
  | failed (message : String)
  | response (status : Nat) (statusText : String) (body : Body)

structure Attempt where
  /-- The partial file of the last attempt can be removed. -/
  removable : Bool
  reply : Reply

/-! ## One file -/

/-- An entry of the trust map. -/
structure LocalFileInfo where
  path : String
  checksum : String
  version : String
  size : Nat
  deriving DecidableEq, Repr

/-- What a download does not change. -/
structure DownloadEnv (σ : Type) where
  hashing : Hashing σ
  baseUrl : String
  outputDirectory : String
  /-- `urlencoding::encode`. -/
  encode : String → String
  /-- The month of the clock. -/
  month : String

/-- The destination, the trust map, the requests, the files opened for writing and the sleeps. -/
structure Downloading where
  file : Option (List UInt8)
  metadata : Table String LocalFileInfo
  gets : List String
  opened : List String
  delays : List Nat
  lastError : Option String

inductive Downloaded where
  | ok (downloaded : Nat)
  | err (message : String)
  | panic
  deriving DecidableEq, Repr

def retryBaseDelayMs : Nat := 2000

structure Streaming (σ : Type) where
  file : List UInt8
  hasher : σ
  downloaded : Nat

inductive StreamEnd (σ : Type) where
  | done (s : Streaming σ)
  | failed (failure : Failure)

section Download

variable {σ : Type} (env : DownloadEnv σ) (fileInfo : S3FileInfo)

/-- The chunks of a body are hashed, written and counted, up to the first error. -/
def stream : Streaming σ → List ChunkResult → StreamEnd σ
  | s, [] => .done s
  | _, .error failure :: _ =>
    .failed { failure with message := "Failed to read HTTP response chunk: " ++ failure.message }
  | s, .chunk bytes write :: rest =>
    let hasher := env.hashing.update s.hasher bytes
    match write with
    | some failure => .failed { failure with message := "Failed to write chunk to file: " ++ failure.message }
    | none => stream ⟨s.file ++ bytes, hasher, s.downloaded + bytes.length⟩ rest

def filename : String := (Path.fileName fileInfo.name).getD "unknown_file"

def localPath : String := Path.join env.outputDirectory (filename fileInfo)

def downloadUrl : String := env.baseUrl ++ "?download=" ++ env.encode fileInfo.name

def Downloading.retry (s : Downloading) (file : Option (List UInt8)) (message : String) : Downloading :=
  { s with file, lastError := some message }

def Downloading.remove (s : Downloading) (removable : Bool) : Downloading :=
  if removable then { s with file := none } else s

/-- The removal and the sleep before a later attempt. -/
def Downloading.beginAttempt (s : Downloading) (number : Nat) (removable : Bool) : Downloading :=
  if 1 < number then
    { s.remove removable with delays := s.delays ++ [retryBaseDelayMs * 2 ^ (number - 2)] }
  else s

/-- From the created file to the entry in the trust map. Without a result there is another attempt. -/
def downloadBody (s : Downloading) (body : Body) : Option Downloaded × Downloading :=
  let s := { s with opened := s.opened ++ [localPath env fileInfo] }
  match body.create with
  | some _ => (some (.err "Failed to create local file"), s)
  | none =>
    match stream env ⟨[], env.hashing.new, 0⟩ body.chunks with
    | .failed failure => (none, s.retry (some failure.left) failure.message)
    | .done streamed =>
      match body.flush with
      | some failure => (none, s.retry (some failure.left) ("Failed to flush file: " ++ failure.message))
      | none =>
        match body.sync with
        | some failure => (none, s.retry (some failure.left) ("Failed to sync file: " ++ failure.message))
        | none =>
          let s := { s with file := some streamed.file }
          match extractMonthFromFilename env.month (filename fileInfo) with
          | none => (some .panic, s)
          | some version =>
            let info : LocalFileInfo :=
              { path := localPath env fileInfo, checksum := hexEncode (env.hashing.finalize streamed.hasher), version
                size := streamed.downloaded }
            (some (.ok streamed.downloaded), { s with metadata := s.metadata.insert (filename fileInfo) info })

def runAttempt (number : Nat) (attempt : Attempt) (s : Downloading) : Option Downloaded × Downloading :=
  let s := s.beginAttempt number attempt.removable
  let s := { s with gets := s.gets ++ [downloadUrl env fileInfo] }
  match attempt.reply with
  | .failed message =>
    (none, s.retry s.file ("Failed to start HTTP download from " ++ downloadUrl env fileInfo ++ ": " ++ message))
  | .response status statusText body =>
    if 200 ≤ status ∧ status ≤ 299 then downloadBody env fileInfo s body
    else (none, s.retry s.file ("HTTP error: " ++ statusText))

/-- The attempts with these numbers, and the removal of what the last one leaves. -/
def retryLoop (attempts : Nat → Attempt) (cleanup : Bool) : List Nat → Downloading → Downloaded × Downloading
  | [], s => (.err (s.lastError.getD "Download failed after 3 attempts"), s.remove cleanup)
  | number :: rest, s =>
    match runAttempt env fileInfo number (attempts number) s with
    | (some result, s) => (result, s)
    | (none, s) => retryLoop attempts cleanup rest s

def downloadFile (attempts : Nat → Attempt) (cleanup : Bool) (prior : Option (List UInt8))
    (metadata : Table String LocalFileInfo) : Downloaded × Downloading :=
  retryLoop env fileInfo attempts cleanup (List.range' 1 Session.maxDownloadRetries) ⟨prior, metadata, [], [], [], none⟩

/-! ## What a download leaves -/

/-- The body is read, written, flushed and synced whole. -/
structure Body.Complete (body : Body) (bytes : List UInt8) : Prop where
  chunks : ∃ chunks : List (List UInt8), body.chunks = chunks.map (ChunkResult.chunk · none) ∧ bytes = chunks.flatten
  flush : body.flush = none
  sync : body.sync = none

def Attempt.Delivers (attempt : Attempt) (bytes : List UInt8) : Prop :=
  ∃ status statusText body, attempt.reply = .response status statusText body ∧ 200 ≤ status ∧ status ≤ 299 ∧
    body.Complete bytes

/-- The destination has these bytes, and the trust map has their hash and number for this file and is otherwise as
before. -/
structure Installed (sha256 : List UInt8 → List UInt8) (metadata : Table String LocalFileInfo) (bytes : List UInt8)
    (s : Downloading) : Prop where
  file : s.file = some bytes
  checksum : (s.metadata.lookup (filename fileInfo)).map (·.checksum) = some (hexEncode (sha256 bytes))
  others : ∀ name, name ≠ filename fileInfo → s.metadata.lookup name = metadata.lookup name

/-- At most three requests; nothing is left by an error, and by success what the last request was answered with. -/
structure Consistent (sha256 : List UInt8 → List UInt8) (attempts : Nat → Attempt)
    (metadata : Table String LocalFileInfo) (outcome : Downloaded × Downloading) : Prop where
  gets : outcome.2.gets.length ≤ 3
  err : ∀ message, outcome.1 = .err message → outcome.2.file = none ∧ outcome.2.metadata = metadata
  ok : ∀ n, outcome.1 = .ok n → ∃ bytes, (attempts outcome.2.gets.length).Delivers bytes ∧ n = bytes.length ∧
    Installed fileInfo sha256 metadata bytes outcome.2

structure Attempt.Unhindered (attempt : Attempt) : Prop where
  removable : attempt.removable = true
  create : ∀ status statusText body, attempt.reply = .response status statusText body → body.create = none

/-- What can come of one attempt: another one, an error, a panic, or a file. -/
inductive AttemptEnd (sha256 : List UInt8 → List UInt8) (attempt : Attempt) (metadata : Table String LocalFileInfo) :
    Option Downloaded → Downloading → Prop
  | retry {s : Downloading} : s.metadata = metadata → AttemptEnd sha256 attempt metadata none s
  | uncreated {s : Downloading} (message : String) : ¬attempt.Unhindered →
      AttemptEnd sha256 attempt metadata (some (.err message)) s
  | panic {s : Downloading} : extractMonthFromFilename env.month (filename fileInfo) = none →
      AttemptEnd sha256 attempt metadata (some .panic) s
  | installed {s : Downloading} {bytes : List UInt8} : attempt.Delivers bytes →
      Installed fileInfo sha256 metadata bytes s → AttemptEnd sha256 attempt metadata (some (.ok bytes.length)) s

variable {env fileInfo} {sha256 : List UInt8 → List UInt8}

/-- A stream that ends has written, hashed and counted every chunk. -/
theorem stream_done {s streamed : Streaming σ} {results : List ChunkResult}
    (h : stream env s results = .done streamed) :
    ∃ chunks : List (List UInt8), results = chunks.map (ChunkResult.chunk · none) ∧
      streamed = ⟨s.file ++ chunks.flatten, chunks.foldl env.hashing.update s.hasher,
        s.downloaded + chunks.flatten.length⟩ := by
  induction results generalizing s with
  | nil =>
    obtain rfl := StreamEnd.done.inj h
    exact ⟨[], rfl, by simp⟩
  | cons result rest ih =>
    match result with
    | .error failure => simp [stream] at h
    | .chunk bytes (some failure) => simp [stream] at h
    | .chunk bytes none =>
      obtain ⟨chunks, rfl, rfl⟩ := ih h
      refine ⟨bytes :: chunks, rfl, ?_⟩
      simp [Nat.add_assoc]

/-- A new file and a new hash get the body, and no byte of an attempt before. -/
theorem downloadBody_end (laws : HashingLaws env.hashing sha256) {attempt : Attempt} {status : Nat}
    {statusText : String} {body : Body} (hreply : attempt.reply = .response status statusText body)
    (hstatus : 200 ≤ status ∧ status ≤ 299) (s : Downloading) :
    AttemptEnd env fileInfo sha256 attempt s.metadata (downloadBody env fileInfo s body).1
      (downloadBody env fileInfo s body).2 := by
  unfold downloadBody
  cases hcreate : body.create with
  | some message =>
    refine .uncreated _ fun hattempt => ?_
    rw [hattempt.create _ _ _ hreply] at hcreate
    exact nomatch hcreate
  | none =>
    cases hstream : stream env ⟨[], env.hashing.new, 0⟩ body.chunks with
    | failed failure => exact .retry rfl
    | done streamed =>
      obtain ⟨chunks, hchunks, rfl⟩ := stream_done hstream
      cases hflush : body.flush with
      | some failure => exact .retry rfl
      | none =>
        cases hsync : body.sync with
        | some failure => exact .retry rfl
        | none =>
          cases hmonth : extractMonthFromFilename env.month (filename fileInfo) with
          | none => exact .panic hmonth
          | some version =>
            have hcomplete : body.Complete chunks.flatten := ⟨⟨chunks, hchunks, rfl⟩, hflush, hsync⟩
            have hlength : (0 + chunks.flatten.length) = chunks.flatten.length := Nat.zero_add _
            dsimp only
            rw [hlength]
            refine .installed ⟨status, statusText, body, hreply, hstatus.1, hstatus.2, hcomplete⟩ ⟨rfl, ?_, ?_⟩
            · simp [laws.digest]
            · intro name hname
              simp [hname]

theorem beginAttempt_eq (s : Downloading) (number : Nat) (removable : Bool) :
    ∃ file delays, s.beginAttempt number removable = { s with file, delays } := by
  unfold Downloading.beginAttempt Downloading.remove
  split_ifs
  · exact ⟨_, _, rfl⟩
  · exact ⟨_, _, rfl⟩
  · exact ⟨s.file, s.delays, rfl⟩

theorem runAttempt_end (laws : HashingLaws env.hashing sha256) (number : Nat) (attempt : Attempt) (s : Downloading) :
    AttemptEnd env fileInfo sha256 attempt s.metadata (runAttempt env fileInfo number attempt s).1
      (runAttempt env fileInfo number attempt s).2 := by
  obtain ⟨file, delays, hbegin⟩ := beginAttempt_eq s number attempt.removable
  unfold runAttempt
  rw [hbegin]
  cases hreply : attempt.reply with
  | failed message => exact .retry rfl
  | response status statusText body =>
    dsimp only
    split_ifs with hstatus
    · exact downloadBody_end laws hreply hstatus
        { s with file, delays, gets := s.gets ++ [downloadUrl env fileInfo] }
    · exact .retry rfl

section

variable (env fileInfo)

theorem downloadBody_gets (s : Downloading) (body : Body) : (downloadBody env fileInfo s body).2.gets = s.gets := by
  unfold downloadBody
  dsimp only
  repeat' split
  all_goals rfl

theorem downloadBody_opened (s : Downloading) (body : Body) :
    (downloadBody env fileInfo s body).2.opened = s.opened ++ [localPath env fileInfo] := by
  unfold downloadBody
  dsimp only
  repeat' split
  all_goals rfl

theorem runAttempt_gets (number : Nat) (attempt : Attempt) (s : Downloading) :
    (runAttempt env fileInfo number attempt s).2.gets = s.gets ++ [downloadUrl env fileInfo] := by
  obtain ⟨file, delays, hbegin⟩ := beginAttempt_eq s number attempt.removable
  unfold runAttempt
  rw [hbegin]
  cases attempt.reply with
  | failed message => rfl
  | response status statusText body =>
    dsimp only
    split_ifs
    · rw [downloadBody_gets]
    · rfl

theorem runAttempt_opened (number : Nat) (attempt : Attempt) (s : Downloading) :
    (runAttempt env fileInfo number attempt s).2.opened ⊆ s.opened ++ [localPath env fileInfo] := by
  obtain ⟨file, delays, hbegin⟩ := beginAttempt_eq s number attempt.removable
  unfold runAttempt
  rw [hbegin]
  cases attempt.reply with
  | failed message => exact List.subset_append_left ..
  | response status statusText body =>
    dsimp only
    split_ifs
    · rw [downloadBody_opened]
      exact List.Subset.refl _
    · exact List.subset_append_left ..

end

/-- The attempts that are left keep the outcome consistent, by induction on their number. -/
theorem retryLoop_consistent (laws : HashingLaws env.hashing sha256) {attempts : Nat → Attempt}
    (hattempts : ∀ number, (attempts number).Unhindered) {metadata : Table String LocalFileInfo} {left : Nat}
    {s : Downloading} (hgets : s.gets.length + left = 3) (hmetadata : s.metadata = metadata) :
    Consistent fileInfo sha256 attempts metadata
      (retryLoop env fileInfo attempts true (List.range' (s.gets.length + 1) left) s) := by
  induction left generalizing s with
  | zero => exact ⟨hgets.le, fun _ _ => ⟨rfl, hmetadata⟩, nofun⟩
  | succ left ih =>
    rw [List.range'_succ]
    unfold retryLoop
    have hsent := runAttempt_gets env fileInfo (s.gets.length + 1) (attempts (s.gets.length + 1)) s
    have hend : AttemptEnd env fileInfo sha256 (attempts (s.gets.length + 1)) s.metadata _ _ :=
      runAttempt_end laws (s.gets.length + 1) (attempts (s.gets.length + 1)) s
    generalize runAttempt env fileInfo (s.gets.length + 1) (attempts (s.gets.length + 1)) s = outcome at hsent hend
    obtain ⟨result, s'⟩ := outcome
    have hlength : s'.gets.length = s.gets.length + 1 := by
      rw [hsent, List.length_append, List.length_singleton]
    subst hmetadata
    cases hend with
    | retry hkept =>
      rw [← hlength]
      exact ih (by omega) hkept
    | uncreated message hhindered => exact absurd (hattempts _) hhindered
    | panic hmonth => exact ⟨by dsimp only; omega, nofun, nofun⟩
    | installed hdelivers hinstalled =>
      refine ⟨by dsimp only; omega, nofun, ?_⟩
      rintro n hn
      obtain rfl := Downloaded.ok.inj hn
      refine ⟨_, ?_, rfl, hinstalled⟩
      rw [hlength]
      exact hdelivers

/-- Every outcome of a download is consistent, whatever was at the destination and in the trust map before. -/
theorem downloadFile_consistent (laws : HashingLaws env.hashing sha256) {attempts : Nat → Attempt}
    (hattempts : ∀ number, (attempts number).Unhindered) (prior : Option (List UInt8))
    (metadata : Table String LocalFileInfo) :
    Consistent fileInfo sha256 attempts metadata (downloadFile env fileInfo attempts true prior metadata) :=
  retryLoop_consistent (s := ⟨prior, metadata, [], [], [], none⟩) laws hattempts (Nat.zero_add 3) rfl

/-! ## Where a download writes, and where it panics -/

variable (env fileInfo)

theorem retryLoop_opened (attempts : Nat → Attempt) (cleanup : Bool) (numbers : List Nat) (s : Downloading) :
    ∀ path ∈ (retryLoop env fileInfo attempts cleanup numbers s).2.opened,
      path ∈ s.opened ∨ path = localPath env fileInfo := by
  induction numbers generalizing s with
  | nil =>
    unfold retryLoop Downloading.remove
    intro path hpath
    split_ifs at hpath <;> exact .inl hpath
  | cons number rest ih =>
    have hattempt : ∀ path ∈ (runAttempt env fileInfo number (attempts number) s).2.opened,
        path ∈ s.opened ∨ path = localPath env fileInfo := by
      intro path hpath
      simpa using runAttempt_opened env fileInfo number (attempts number) s hpath
    unfold retryLoop
    split
    next result s' heq =>
      rw [heq] at hattempt
      exact hattempt
    next s' heq =>
      rw [heq] at hattempt
      intro path hpath
      obtain hpath | hpath := ih s' path hpath
      · exact hattempt path hpath
      · exact .inr hpath

theorem downloadFile_opened (attempts : Nat → Attempt) (cleanup : Bool) (prior : Option (List UInt8))
    (metadata : Table String LocalFileInfo) :
    ∀ path ∈ (downloadFile env fileInfo attempts cleanup prior metadata).2.opened, path = localPath env fileInfo := by
  intro path hpath
  exact (retryLoop_opened env fileInfo attempts cleanup _ _ path hpath).resolve_left (List.not_mem_nil)

variable {env fileInfo} {version : String}

theorem downloadBody_ne_panic (hmonth : extractMonthFromFilename env.month (filename fileInfo) = some version)
    (s : Downloading) (body : Body) : (downloadBody env fileInfo s body).1 ≠ some .panic := by
  unfold downloadBody
  simp only [hmonth]
  repeat' split
  all_goals nofun

/-- Only the month of the name can panic. -/
theorem downloadFile_ne_panic (hmonth : extractMonthFromFilename env.month (filename fileInfo) = some version)
    (attempts : Nat → Attempt) (cleanup : Bool) (prior : Option (List UInt8)) (metadata : Table String LocalFileInfo) :
    (downloadFile env fileInfo attempts cleanup prior metadata).1 ≠ .panic := by
  have hattempt : ∀ number attempt s, (runAttempt env fileInfo number attempt s).1 ≠ some .panic := by
    intro number attempt s
    unfold runAttempt
    cases attempt.reply with
    | failed message => nofun
    | response status statusText body =>
      dsimp only
      split_ifs
      · exact downloadBody_ne_panic hmonth _ body
      · nofun
  unfold downloadFile
  generalize (⟨prior, metadata, [], [], [], none⟩ : Downloading) = s
  induction List.range' 1 Session.maxDownloadRetries generalizing s with
  | nil => exact nofun
  | cons number rest ih =>
    have hne := hattempt number (attempts number) s
    unfold retryLoop
    generalize runAttempt env fileInfo number (attempts number) s = outcome at hne
    obtain ⟨_ | result, s'⟩ := outcome
    · exact ih s'
    · exact fun h => hne (congrArg some h)

def emptyReply : Attempt := ⟨true, .response 200 "200 OK" ⟨none, [], none, none, by decide⟩⟩

theorem downloadFile_panic (hmonth : extractMonthFromFilename env.month (filename fileInfo) = none) (cleanup : Bool)
    (prior : Option (List UInt8)) (metadata : Table String LocalFileInfo) :
    (downloadFile env fileInfo (fun _ => emptyReply) cleanup prior metadata).1 = .panic := by
  unfold downloadFile Session.maxDownloadRetries
  rw [List.range'_succ]
  unfold retryLoop runAttempt emptyReply
  dsimp only
  rw [if_pos (by decide)]
  unfold downloadBody
  dsimp only [stream]
  rw [hmonth]

end Download

/-! ## A retried download -/

def abcDigest (bytes : List UInt8) : List UInt8 :=
  if bytes = [97, 98, 99] then
    [186, 120, 22, 191, 143, 1, 207, 234, 65, 65, 64, 222, 93, 174, 34, 35,
      176, 3, 97, 163, 150, 23, 122, 156, 180, 16, 255, 97, 242, 0, 21, 173]
  else []

/-- A download that hashes at its end. -/
def retriedEnv : DownloadEnv (List UInt8) where
  hashing := ⟨[], (· ++ ·), abcDigest⟩
  baseUrl := "https://data.discogs.com/"
  outputDirectory := "/discogs-data"
  encode key := String.ofList (key.toList.flatMap fun c => if c = '/' then "%2F".toList else [c])
  month := "202601"

def retriedFile : S3FileInfo := ⟨"data/2026/discogs_20260101_artists.xml.gz", 0⟩

def retriedBody (chunks : List ChunkResult) (fits : (chunks.map (·.written)).sum < 2 ^ 64) : Attempt :=
  ⟨true, .response 200 "200 OK" ⟨none, chunks, none, none, fits⟩⟩

def retriedAttempts : Nat → Attempt
  | 1 => ⟨true, .failed "connection refused"⟩
  | 2 => retriedBody [.chunk [97] none, .error ⟨"unexpected end of file", [97]⟩] (by decide)
  | _ => retriedBody [.chunk [97, 98] none, .chunk [99] none] (by decide)

theorem retriedAttempts_unhindered (number : Nat) : (retriedAttempts number).Unhindered := by
  unfold retriedAttempts
  split
  · exact ⟨rfl, nofun⟩
  all_goals
    refine ⟨rfl, ?_⟩
    rintro status statusText body ⟨⟩
    rfl

theorem retriedEnv_laws : HashingLaws retriedEnv.hashing abcDigest where
  digest chunks := by
    have hfold : chunks.foldl (· ++ ·) [] = chunks.flatten := by
      rw [List.foldl_append_eq_append (f := fun chunk => chunk), List.nil_append, List.map_id']
    exact congrArg abcDigest hfold

theorem downloadFile_consistent_retried :
    (downloadFile retriedEnv retriedFile retriedAttempts true (some [120]) ∅).1 = .ok 3 ∧
      Consistent retriedFile abcDigest retriedAttempts ∅
        (downloadFile retriedEnv retriedFile retriedAttempts true (some [120]) ∅) :=
  ⟨by decide +kernel, downloadFile_consistent retriedEnv_laws retriedAttempts_unhindered (some [120]) ∅⟩

end DiscogsIngestion.Downloader
