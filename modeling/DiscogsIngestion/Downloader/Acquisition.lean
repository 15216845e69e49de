import DiscogsIngestion.Downloader.Checksums
import DiscogsIngestion.Downloader.Run

/-!
# The download phase

`download_discogs_data` with all that it writes: the dumps, the trust map and its file, the marker and its file.

* `Conditions`, `Moment` : what a phase meets, and when it writes to its marker;
* `Acquisition` : the downloader and the files that it saves;
* `findChecksumEntry`, `publishedChecksums` : the published hashes of the month;
* `fetchFile`, `fetchFiles`, `downloadDiscogsData` : the phase;
* `downloadDiscogsData_files` : marker and saves change nothing about the dumps;
* `downloadDiscogsData_names` : a phase that succeeds returns the files of the latest month.
-/

namespace DiscogsIngestion.Downloader

/-- The points at which a phase writes to its marker. -/
inductive Moment where
  | start
  | begin (i : Nat)
  | record (i : Nat)
  | finish
  deriving DecidableEq, Repr

/-- What a phase meets, file by file. -/
structure Conditions (σ : Type) where
  env : DownloadEnv σ
  order : Order
  /-- The output directory is there or can be created. -/
  directory : Bool
  /-- The response to the request for a checksum file. -/
  checksums : S3FileInfo → Option (Nat × Option String)
  readable : Nat → Bool
  attempts : Nat → Nat → Attempt
  cleanup : Nat → Bool
  removable : Nat → Bool
  /-- The time that has passed before a write to the marker. -/
  elapsed : Moment → Nat
  markerSaved : Moment → Bool
  /-- The save of the trust map behind a download, and the one at the end. -/
  metadataSaved : Option Nat → Bool

def Conditions.around {σ : Type} (c : Conditions σ) (published : Option (Table String String)) : Surroundings σ where
  env := c.env
  order := c.order
  published
  readable := c.readable
  attempts := c.attempts
  cleanup := c.cleanup
  removable := c.removable

structure Acquisition where
  files : Local
  clock : DateTime
  savedMetadata : Table String LocalFileInfo
  marker : Option StateMarker
  savedMarker : Option StateMarker

/-! ## Hashes -/

theorem flatten_toChunks_go {α : Type} (n : Nat) (l : List α) (chunk : Array α) (chunks : Array (List α)) :
    (List.toChunks.go n l chunk chunks).flatten = chunks.toList.flatten ++ (chunk.toList ++ l) := by
  induction l generalizing chunk chunks with
  | nil => simp [List.toChunks.go]
  | cons x l ih =>
    unfold List.toChunks.go
    split_ifs
    · rw [ih]
      simp
    · rw [ih]
      simp

theorem flatten_toChunks {α : Type} (n : Nat) (l : List α) : (l.toChunks n).flatten = l := by
  cases l with
  | nil => rw [List.toChunks, List.flatten_nil]
  | cons x l =>
    cases n with
    | zero => simp [List.toChunks]
    | succ n =>
      rw [List.toChunks, flatten_toChunks_go]
      · simp
      · exact Nat.succ_ne_zero n

theorem calculateFileChecksum_eq {σ : Type} {around : Surroundings σ} {sha256 : List UInt8 → List UInt8}
    (laws : HashingLaws around.env.hashing sha256) (content : List UInt8) :
    calculateFileChecksum around content = hexEncode (sha256 content) := by
  unfold calculateFileChecksum
  dsimp only
  rw [laws.digest, flatten_toChunks]

/-! ## The published hashes -/

/-- The checksum file with the version of the first data file. -/
def findChecksumEntry (files dataFiles : List S3FileInfo) : Option S3FileInfo := do
  let sample ← dataFiles.head?
  let sampleBasename ← Path.fileName sample.name
  let versionId ← (segments sampleBasename)[1]?
  files.find? fun f =>
    let basename := (Path.fileName f.name).getD ""
    isChecksum basename && (segments basename)[1]? = some versionId

/-- Without them the phase goes on. -/
def publishedChecksums (checksums : S3FileInfo → Option (Nat × Option String))
    (availableFiles latestFiles : List S3FileInfo) : Option (Table String String) :=
  match findChecksumEntry availableFiles latestFiles with
  | some checksumFile => (fetchChecksums (checksums checksumFile)).toOption
  | none => none

/-! ## The phase -/

namespace Acquisition

section

variable {σ : Type} (c : Conditions σ)

/-- Time passes, and the marker is changed and saved. A save that fails is only logged. -/
def write (moment : Moment) (f : StateMarker → DateTime → StateMarker) (a : Acquisition) : Acquisition :=
  let clock := a.clock + c.elapsed moment
  match a.marker with
  | none => { a with clock }
  | some m =>
    let marker := { f m clock with lastUpdated := clock }
    { a with
      clock
      marker := some marker
      savedMarker := if c.markerSaved moment then some marker else a.savedMarker }

def saveMetadata (ok : Bool) (a : Acquisition) : Acquisition :=
  { a with savedMetadata := if ok then a.files.metadata else a.savedMetadata }

/-- `file_downloaded` and, when the trust map has a checksum, `file_bytes_verified`. -/
def recorded (name : String) (size : Nat) (info : Option LocalFileInfo) (m : StateMarker) (now : DateTime) :
    StateMarker :=
  let m := m.fileDownloaded name size now
  match info with
  | some info => m.fileBytesVerified name info.checksum
  | none => m

def record (i : Nat) (name : String) (size : Nat) (a : Acquisition) : Acquisition :=
  let a := a.write c (.record i) (recorded name size (a.files.metadata.lookup name))
  { a with files := { a.files with downloaded := a.files.downloaded ++ [name] } }

variable (published : Option (Table String String))

def receive (file : S3FileInfo) (d : Downloading) (a : Acquisition) : Acquisition :=
  { a with files := { a.files with
    disk := Function.update a.files.disk (localPath c.env file) d.file
    metadata := d.metadata
    opened := a.files.opened ++ d.opened } }

/-- Behind `download_file`: a file with the published hash is recorded, another one given up. -/
def settle (i : Nat) (file : S3FileInfo) (result : Downloaded) (a : Acquisition) : Option Acquired × Acquisition :=
  match result with
  | .panic => (some .panic, a)
  | .err _ => (some .err, a)
  | .ok downloadedSize =>
    if publishedAgrees (c.around published) a.files file then
      (none, (a.saveMetadata (c.metadataSaved (some i))).record c i (filename file) downloadedSize)
    else (some .err, { a with files := a.files.reject (localPath c.env file) (filename file) (c.removable i) })

/-- One file of the loop. Without a result the next file follows. -/
def fetchFile (i : Nat) (file : S3FileInfo) (a : Acquisition) : Option Acquired × Acquisition :=
  match shouldDownload (c.around published) a.files (c.readable i) file with
  | none => (some .err, a)
  | some needed =>
    if needed || !publishedAgrees (c.around published) a.files file then
      let a := a.write c (.begin i) (·.startFileDownload (filename file) ·)
      let (result, d) := downloadFile c.env file (c.attempts i) (c.cleanup i) (a.files.disk (localPath c.env file))
        a.files.metadata
      settle c published i file result (a.receive c file d)
    else (none, a.record c i (filename file) ((a.files.disk (localPath c.env file)).elim 0 List.length))

def fetchFiles : Nat → List S3FileInfo → Acquisition → Option Acquired × Acquisition
  | _, [], a => (none, a)
  | i, file :: rest, a =>
    match fetchFile c published i file a with
    | (some result, a) => (some result, a)
    | (none, a) => fetchFiles (i + 1) rest a

def fetchLatest (latestFiles : List S3FileInfo) (a : Acquisition) : Acquired × Acquisition :=
  let a := a.write c .start (·.startDownload latestFiles.length ·)
  match fetchFiles c published 0 latestFiles a with
  | (some result, a) => (result, a)
  | (none, a) =>
    let a := (a.write c .finish (·.completeDownload ·)).saveMetadata (c.metadataSaved none)
    (if c.metadataSaved none then .ok a.files.downloaded else .err, a)

def downloadDiscogsData (lib : Library) (site : Site) (a : Acquisition) : Acquired × Acquisition :=
  if c.directory then
    match listS3Files lib c.order site with
    | .error _ => (.err, a)
    | .ok availableFiles =>
      match getLatestMonthlyFiles availableFiles with
      | [] => (.ok [], a)
      | file :: rest =>
        match extractMonthFromFilename c.env.month file.name with
        | none => (.panic, a)
        | some _ =>
          fetchLatest c (publishedChecksums c.checksums availableFiles (file :: rest)) (file :: rest) a
  else (.err, a)

end

end Acquisition

def Conditions.published {σ : Type} (c : Conditions σ) (lib : Library) (site : Site) : Option (Table String String) :=
  match listS3Files lib c.order site with
  | .ok availableFiles => publishedChecksums c.checksums availableFiles (getLatestMonthlyFiles availableFiles)
  | .error _ => none

theorem Conditions.published_of_ok {σ : Type} {c : Conditions σ} {lib : Library} {site : Site}
    {files : List S3FileInfo} (h : listS3Files lib c.order site = .ok files) :
    c.published lib site = publishedChecksums c.checksums files (getLatestMonthlyFiles files) := by
  unfold published
  rw [h]

/-! ## The dumps -/

namespace Acquisition

section

variable {σ : Type} {c : Conditions σ} {published : Option (Table String String)}

@[simp]
theorem write_files (moment : Moment) (f : StateMarker → DateTime → StateMarker) (a : Acquisition) :
    (a.write c moment f).files = a.files := by
  unfold write
  cases a.marker <;> rfl

@[simp]
theorem saveMetadata_files (ok : Bool) (a : Acquisition) : (a.saveMetadata ok).files = a.files := rfl

@[simp]
theorem record_files (i : Nat) (name : String) (size : Nat) (a : Acquisition) :
    (a.record c i name size).files = { a.files with downloaded := a.files.downloaded ++ [name] } := by
  simp only [record, write_files]

theorem receive_files (file : S3FileInfo) (d : Downloading) (a : Acquisition) :
    (a.receive c file d).files = { a.files with
      disk := Function.update a.files.disk (localPath c.env file) d.file
      metadata := d.metadata
      opened := a.files.opened ++ d.opened } := rfl

theorem settle_files (i : Nat) (file : S3FileInfo) (result : Downloaded) (a : Acquisition) :
    ((settle c published i file result a).1, (settle c published i file result a).2.files) =
      match result with
      | .panic => (some .panic, a.files)
      | .err _ => (some .err, a.files)
      | .ok _ =>
        if publishedAgrees (c.around published) a.files file then
          (none, { a.files with downloaded := a.files.downloaded ++ [filename file] })
        else (some .err, a.files.reject (localPath c.env file) (filename file) (c.removable i)) := by
  unfold settle
  cases result with
  | panic => rfl
  | err message => rfl
  | ok size =>
    dsimp only
    split_ifs
    · simp only [record_files, saveMetadata_files]
    · rfl

theorem fetchFile_files (i : Nat) (file : S3FileInfo) (a : Acquisition) :
    ((fetchFile c published i file a).1, (fetchFile c published i file a).2.files) =
      Downloader.fetchFile (c.around published) i file a.files := by
  unfold fetchFile Downloader.fetchFile
  have hreadable : (c.around published).readable = c.readable := rfl
  rw [hreadable]
  cases shouldDownload (c.around published) a.files (c.readable i) file with
  | none => rfl
  | some needed =>
    dsimp only
    by_cases hfetch : (needed || !publishedAgrees (c.around published) a.files file) = true
    · rw [if_pos hfetch, if_pos hfetch, settle_files, receive_files, write_files]
      rfl
    · rw [if_neg hfetch, if_neg hfetch, record_files]

/-- Where a phase ends, and with which dumps. -/
theorem fetchFiles_files (files : List S3FileInfo) (i : Nat) (a : Acquisition) :
    ((fetchFiles c published i files a).1.getD (.ok (fetchFiles c published i files a).2.files.downloaded),
        (fetchFiles c published i files a).2.files) =
      Downloader.fetchFiles (c.around published) i files a.files := by
  induction files generalizing i a with
  | nil => rfl
  | cons file files ih =>
    have hfile := @fetchFile_files _ c published i file a
    unfold fetchFiles Downloader.fetchFiles
    rw [← hfile]
    generalize fetchFile c published i file a = behind
    obtain ⟨_ | result, a'⟩ := behind
    · exact ih (i + 1) a'
    · rfl

/-- The dumps of a phase are those of the loop without marker and saves, and so is its result if the last save is made.
-/
theorem downloadDiscogsData_files (hdirectory : c.directory = true) (lib : Library) (site : Site) (a : Acquisition) :
    (downloadDiscogsData c lib site a).2.files =
        (Downloader.downloadDiscogsData (c.around (c.published lib site)) lib site a.files).2 ∧
      ((downloadDiscogsData c lib site a).1 =
          (Downloader.downloadDiscogsData (c.around (c.published lib site)) lib site a.files).1 ∨
        (c.metadataSaved none = false ∧ (downloadDiscogsData c lib site a).1 = .err)) := by
  unfold downloadDiscogsData Downloader.downloadDiscogsData Conditions.published
  rw [if_pos hdirectory]
  have horder : ∀ published, (c.around published).order = c.order := fun _ => rfl
  rw [horder]
  cases listS3Files lib c.order site with
  | error e => exact ⟨rfl, .inl rfl⟩
  | ok files =>
    dsimp only
    cases getLatestMonthlyFiles files with
    | nil => exact ⟨rfl, .inl rfl⟩
    | cons file rest =>
      dsimp only
      have hmonth : ∀ published, (c.around published).env.month = c.env.month := fun _ => rfl
      rw [hmonth]
      cases extractMonthFromFilename c.env.month file.name with
      | none => exact ⟨rfl, .inl rfl⟩
      | some month =>
        dsimp only
        generalize publishedChecksums c.checksums files (file :: rest) = published
        have hfiles := @fetchFiles_files _ c published (file :: rest) 0
          (a.write c .start (·.startDownload (file :: rest).length ·))
        rw [write_files] at hfiles
        rw [← hfiles]
        unfold fetchLatest
        dsimp only
        generalize fetchFiles c published 0 (file :: rest)
          (a.write c .start (·.startDownload (file :: rest).length ·)) = behind
        obtain ⟨_ | result, a'⟩ := behind
        · refine ⟨by simp, ?_⟩
          cases hsaved : c.metadataSaved none <;> simp
        · exact ⟨rfl, .inl rfl⟩

end

end Acquisition

section Names

variable {σ : Type} {around : Surroundings σ}

theorem fetchFile_downloaded {i : Nat} {file : S3FileInfo} {s s' : Local} {result : Option Acquired}
    (h : fetchFile around i file s = (result, s')) :
    (result = none ∧ s'.downloaded = s.downloaded ++ [filename file]) ∨ result = some .err ∨ result = some .panic := by
  unfold fetchFile at h
  cases hneeded : shouldDownload around s (around.readable i) file with
  | none =>
    rw [hneeded] at h
    exact .inr (.inl (congrArg Prod.fst h).symm)
  | some needed =>
    rw [hneeded] at h
    dsimp only at h
    by_cases hfetch : (needed || !publishedAgrees around s file) = true
    · rw [if_pos hfetch] at h
      generalize downloadFile around.env file (around.attempts i) (around.cleanup i)
        (s.disk (localPath around.env file)) s.metadata = download at h
      obtain ⟨result, d⟩ := download
      cases result with
      | panic => exact .inr (.inr (congrArg Prod.fst h).symm)
      | err message => exact .inr (.inl (congrArg Prod.fst h).symm)
      | ok size =>
        dsimp only at h
        split_ifs at h
        · exact .inl ⟨(congrArg Prod.fst h).symm, (congrArg (·.2.downloaded) h).symm⟩
        · exact .inr (.inl (congrArg Prod.fst h).symm)
    · rw [if_neg hfetch] at h
      exact .inl ⟨(congrArg Prod.fst h).symm, (congrArg (·.2.downloaded) h).symm⟩

theorem fetchFiles_names {files : List S3FileInfo} {i : Nat} {s : Local} {names : List String}
    (h : (fetchFiles around i files s).1 = .ok names) : names = s.downloaded ++ files.map filename := by
  induction files generalizing i s with
  | nil => simpa [fetchFiles] using h.symm
  | cons file files ih =>
    unfold fetchFiles at h
    generalize hfile : fetchFile around i file s = behind at h
    obtain ⟨result, s'⟩ := behind
    obtain ⟨rfl, hdownloaded⟩ | rfl | rfl := fetchFile_downloaded hfile
    · rw [ih h, hdownloaded, List.map_cons, List.append_assoc, List.singleton_append]
    · cases h
    · cases h

/-- A loop that succeeds has gone through all files of the latest month. -/
theorem downloadDiscogsData_names {lib : Library} {site : Site} {s : Local} {names : List String}
    (hfresh : s.downloaded = []) (h : (downloadDiscogsData around lib site s).1 = .ok names) :
    ∃ files, listS3Files lib around.order site = .ok files ∧
      names = (getLatestMonthlyFiles files).map filename := by
  unfold downloadDiscogsData at h
  cases hlisted : listS3Files lib around.order site with
  | error e =>
    rw [hlisted] at h
    cases h
  | ok files =>
    rw [hlisted] at h
    refine ⟨files, rfl, ?_⟩
    dsimp only at h
    cases hfiles : getLatestMonthlyFiles files with
    | nil =>
      rw [hfiles] at h
      exact (Acquired.ok.inj h).symm
    | cons file rest =>
      rw [hfiles] at h
      dsimp only at h
      cases hmonth : extractMonthFromFilename around.env.month file.name with
      | none =>
        rw [hmonth] at h
        cases h
      | some month =>
        rw [hmonth] at h
        rw [fetchFiles_names h, hfresh, List.nil_append]

end Names

theorem Acquisition.downloadDiscogsData_names {σ : Type} {c : Conditions σ} {lib : Library} {site : Site}
    {a : Acquisition} {names : List String} (hfresh : a.files.downloaded = [])
    (h : (a.downloadDiscogsData c lib site).1 = .ok names) :
    ∃ files, listS3Files lib c.order site = .ok files ∧
      names = (getLatestMonthlyFiles files).map filename := by
  cases hdirectory : c.directory with
  | false =>
    unfold Acquisition.downloadDiscogsData at h
    rw [hdirectory] at h
    cases h
  | true =>
    obtain ⟨-, heq | ⟨-, hfailed⟩⟩ := downloadDiscogsData_files hdirectory lib site a
    · exact Downloader.downloadDiscogsData_names hfresh (heq.symm.trans h)
    · cases hfailed.symm.trans h

theorem Acquisition.fetchLatest_of_ok {σ : Type} {c : Conditions σ} {lib : Library} {site : Site}
    {a a' : Acquisition} {files : List S3FileInfo} {names : List String}
    (hlisted : listS3Files lib c.order site = .ok files) (hne : names ≠ [])
    (h : a.downloadDiscogsData c lib site = (.ok names, a')) :
    a.fetchLatest c (c.published lib site) (getLatestMonthlyFiles files) = (.ok names, a') := by
  unfold Acquisition.downloadDiscogsData at h
  rw [hlisted] at h
  rw [Conditions.published_of_ok hlisted]
  split_ifs at h
  · dsimp only at h
    cases hfiles : getLatestMonthlyFiles files with
    | nil =>
      rw [hfiles] at h
      exact absurd (Acquired.ok.inj (congrArg Prod.fst h)).symm hne
    | cons file rest =>
      rw [hfiles] at h
      dsimp only at h
      cases hmonth : extractMonthFromFilename c.env.month file.name with
      | none =>
        rw [hmonth] at h
        cases h
      | some month =>
        rw [hmonth] at h
        exact h
  · cases h

end DiscogsIngestion.Downloader
