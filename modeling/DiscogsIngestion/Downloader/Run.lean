import DiscogsIngestion.Downloader.Download
import DiscogsIngestion.Downloader.Listing

/-!
# From the listing to the files

A run that downloads what the site lists, with the slices of the dates on its way.

* `shouldDownload`, `fetchFile`, `fetchFiles`, `downloadDiscogsData` : the files of the latest month;
* `Sliceable` : the dates that the slices cut between characters; `Sliceable.months` : no slice of a run panics;
* `fetchFile_safe`, `fetchFiles_safe` : where one file and all of them are written;
* `hasMonth_version`, `hasMonth_key` : the runs that meet the dates;
* `downloadDiscogsData_safe_iff` : no run panics, and each writes below its directory, exactly on such listings.
-/

namespace DiscogsIngestion.Downloader

/-! ## The files of the month -/

/-- What a run meets beside the listing, file by file. -/
structure Surroundings (σ : Type) where
  env : DownloadEnv σ
  order : Order
  published : Option (Table String String)
  /-- The local file can be read. -/
  readable : Nat → Bool
  attempts : Nat → Nat → Attempt
  cleanup : Nat → Bool
  /-- A file with another hash than the published one can be removed. -/
  removable : Nat → Bool

/-- The files by their paths, the trust map, the files opened for writing, and those that are there in the end. -/
structure Local where
  disk : String → Option (List UInt8)
  metadata : Table String LocalFileInfo
  opened : List String
  downloaded : List String

inductive Acquired where
  | ok (files : List String)
  | err
  | panic
  deriving DecidableEq, Repr

section Acquire

variable {σ : Type} (around : Surroundings σ)

/-- `calculate_file_checksum`, 8192 bytes at a time. -/
def calculateFileChecksum (content : List UInt8) : String :=
  let hashing := around.env.hashing
  hexEncode (hashing.finalize ((content.toChunks 8192).foldl hashing.update hashing.new))

/-- None if the local file cannot be read. -/
def shouldDownload (s : Local) (readable : Bool) (file : S3FileInfo) : Option Bool :=
  match s.disk (localPath around.env file) with
  | none => some true
  | some content =>
    match s.metadata.lookup (filename file) with
    | none => some true
    | some info => if readable then some (calculateFileChecksum around content ≠ info.checksum) else none

/-- The published hash of a file, if there is one, is the one that the trust map has. -/
def publishedAgrees (s : Local) (file : S3FileInfo) : Bool :=
  match around.published.bind (·.lookup (filename file)) with
  | some expected => (s.metadata.lookup (filename file)).map (·.checksum) = some expected
  | none => true

/-- A download that does not have the published hash is given up. -/
def Local.reject (s : Local) (path name : String) (removable : Bool) : Local :=
  { s with
    disk := if removable then Function.update s.disk path none else s.disk
    metadata := s.metadata.erase name }

/-- One file of the loop. Without a result the next file follows. -/
def fetchFile (i : Nat) (file : S3FileInfo) (s : Local) : Option Acquired × Local :=
  match shouldDownload around s (around.readable i) file with
  | none => (some .err, s)
  | some needed =>
    if needed || !publishedAgrees around s file then
      let path := localPath around.env file
      let (result, d) := downloadFile around.env file (around.attempts i) (around.cleanup i) (s.disk path) s.metadata
      let s := { s with
        disk := Function.update s.disk path d.file, metadata := d.metadata, opened := s.opened ++ d.opened }
      match result with
      | .panic => (some .panic, s)
      | .err _ => (some .err, s)
      | .ok _ =>
        if publishedAgrees around s file then (none, { s with downloaded := s.downloaded ++ [filename file] })
        else (some .err, s.reject path (filename file) (around.removable i))
    else (none, { s with downloaded := s.downloaded ++ [filename file] })

def fetchFiles : Nat → List S3FileInfo → Local → Acquired × Local
  | _, [], s => (.ok s.downloaded, s)
  | i, file :: rest, s =>
    match fetchFile around i file s with
    | (some result, s) => (result, s)
    | (none, s) => fetchFiles (i + 1) rest s

/-- `download_discogs_data`, without the state marker and the saves. -/
def downloadDiscogsData (lib : Library) (site : Site) (s : Local) : Acquired × Local :=
  match listS3Files lib around.order site with
  | .error _ => (.err, s)
  | .ok files =>
    match getLatestMonthlyFiles files with
    | [] => (.ok [], s)
    | file :: rest =>
      match extractMonthFromFilename around.env.month file.name with
      | none => (.panic, s)
      | some _ => fetchFiles around 0 (file :: rest) s

end Acquire

/-! ## The latest files -/

/-- In the newest version that has five entries, four of which are data files, the date and the versions of the data
files are cut between characters. -/
def Sliceable (entries : List (String × S3FileInfo)) : Prop :=
  ∀ id, IsGreatest {id | Counted (entries.map (·.2)) id} id →
    HasMonth id ∧ ∀ e ∈ entries, e.2.id = some id → e.2.isDataFile = true → HasMonth e.1

section Latest

variable {lib : Library} {site : Site} {entries : List (String × S3FileInfo)}

theorem filename_of_isDataFile {file : S3FileInfo} (h : file.isDataFile = true) : filename file = file.basename := by
  obtain ⟨name, hname⟩ := Path.exists_fileName (by decide) (by decide) (of_decide_eq_true h)
  unfold filename S3FileInfo.basename
  rw [hname]
  rfl

theorem mem_latest {files : List S3FileInfo} {file : S3FileInfo} (h : file ∈ getLatestMonthlyFiles files) :
    ∃ id, IsGreatest {id | Counted files id} id ∧ file ∈ files ∧ file.id = some id ∧ file.isDataFile = true := by
  have hcounted : ∃ id, Counted files id := by
    by_contra hno
    rw [getLatestMonthlyFiles_of_not_counted fun id hid => hno ⟨id, hid⟩] at h
    exact absurd h List.not_mem_nil
  obtain ⟨id, hnewest⟩ := exists_newest (fun _ => Counted.listed) hcounted
  obtain ⟨-, -, hfilter⟩ := dataFilesOf_eq_some.1 (getLatestMonthlyFiles_of_counted hnewest)
  rw [← hfilter] at h
  obtain ⟨hmem, hdata⟩ := List.mem_filter.1 h
  obtain ⟨hfiles, hid⟩ := mem_filesOf.1 hmem
  exact ⟨id, hnewest, hfiles, hid, hdata⟩

/-- On a sliceable listing, the slices of the key and of the name of each latest file end between characters. -/
theorem Sliceable.months (laws : LibraryLaws lib) (hlisted : listed lib site = some entries) (h : Sliceable entries)
    {files : List S3FileInfo} (hperm : files.Perm (entries.map (·.2))) {file : S3FileInfo}
    (hfile : file ∈ getLatestMonthlyFiles files) (month : String) :
    extractMonthFromFilename month file.name ≠ none ∧ extractMonthFromFilename month (filename file) ≠ none := by
  obtain ⟨id, hnewest, hmem, hid, hdata⟩ := mem_latest hfile
  simp only [counted_perm hperm] at hnewest
  obtain ⟨hmonth, hkeys⟩ := h id hnewest
  obtain ⟨e, he, rfl⟩ := List.mem_map.1 (hperm.mem_iff.1 hmem)
  constructor
  · intro hnone
    obtain ⟨part, hpart, hcut⟩ := extractMonthFromFilename_eq_none.1 hnone
    rw [entry_key laws hlisted he] at hpart
    obtain rfl := Option.some.inj hpart
    exact hcut (hkeys e he hid hdata)
  · rw [filename_of_isDataFile hdata]
    intro hnone
    obtain ⟨part, hpart, hcut⟩ := extractMonthFromFilename_eq_none.1 hnone
    unfold S3FileInfo.id at hid
    rw [hid] at hpart
    obtain rfl := Option.some.inj hpart
    exact hcut hmonth

end Latest

/-! ## Runs -/

section Run

variable {σ : Type} (around : Surroundings σ)

/-- The run returns, and has opened no file for writing but in its directory. -/
structure Safe (s : Local) (outcome : Acquired × Local) : Prop where
  returns : outcome.1 ≠ .panic
  below : ∀ path ∈ outcome.2.opened, path ∈ s.opened ∨ Path.IsChild around.env.outputDirectory path

theorem isComponent_filename (file : S3FileInfo) : Path.IsComponent (filename file) := by
  unfold filename
  cases hname : Path.fileName file.name with
  | none => exact Path.isComponent_of_long (by decide) (by decide)
  | some name => exact Path.isComponent_of_fileName hname

theorem isChild_localPath (env : DownloadEnv σ) (file : S3FileInfo) :
    Path.IsChild env.outputDirectory (localPath env file) :=
  ⟨filename file, isComponent_filename file, rfl⟩

theorem fetchFile_safe {file : S3FileInfo} (hmonth : extractMonthFromFilename around.env.month (filename file) ≠ none)
    (i : Nat) (s : Local) :
    (fetchFile around i file s).1 ≠ some .panic ∧
      ∀ path ∈ (fetchFile around i file s).2.opened,
        path ∈ s.opened ∨ Path.IsChild around.env.outputDirectory path := by
  obtain ⟨version, hversion⟩ := Option.ne_none_iff_exists'.1 hmonth
  unfold fetchFile
  cases shouldDownload around s (around.readable i) file with
  | none => exact ⟨nofun, fun _ => .inl⟩
  | some needed =>
    dsimp only
    by_cases hneeded : (needed || !publishedAgrees around s file) = true
    · rw [if_pos hneeded]
      have hpanic := downloadFile_ne_panic hversion (around.attempts i) (around.cleanup i)
        (s.disk (localPath around.env file)) s.metadata
      have hopened := downloadFile_opened around.env file (around.attempts i) (around.cleanup i)
        (s.disk (localPath around.env file)) s.metadata
      generalize downloadFile around.env file (around.attempts i) (around.cleanup i)
        (s.disk (localPath around.env file)) s.metadata = outcome at hpanic hopened
      obtain ⟨result, d⟩ := outcome
      have hbelow : ∀ path ∈ s.opened ++ d.opened, path ∈ s.opened ∨ Path.IsChild around.env.outputDirectory path := by
        intro path hpath
        refine (List.mem_append.1 hpath).imp_right fun hd => ?_
        rw [hopened path hd]
        exact isChild_localPath around.env file
      cases result with
      | panic => exact absurd rfl hpanic
      | err message => exact ⟨nofun, hbelow⟩
      | ok downloaded =>
        dsimp only
        split_ifs
        · exact ⟨nofun, hbelow⟩
        · exact ⟨nofun, hbelow⟩
    · rw [if_neg hneeded]
      exact ⟨nofun, fun _ => .inl⟩

theorem fetchFiles_safe {files : List S3FileInfo}
    (hmonths : ∀ file ∈ files, extractMonthFromFilename around.env.month (filename file) ≠ none) (i : Nat) (s : Local) :
    Safe around s (fetchFiles around i files s) := by
  induction files generalizing i s with
  | nil => exact ⟨nofun, fun _ => .inl⟩
  | cons file rest ih =>
    obtain ⟨hfile, hrest⟩ := List.forall_mem_cons.1 hmonths
    obtain ⟨hpanic, hbelow⟩ := fetchFile_safe around hfile i s
    unfold fetchFiles
    generalize fetchFile around i file s = outcome at hpanic hbelow
    obtain ⟨_ | result, s'⟩ := outcome
    · obtain ⟨hreturns, hbelow'⟩ := ih hrest (i + 1) s'
      refine ⟨hreturns, fun path hpath => ?_⟩
      exact (hbelow' path hpath).elim (hbelow path) .inr
    · exact ⟨fun h => hpanic (congrArg some h), hbelow⟩

/-- The slice of a name that has no month panics, when its file is new and can be downloaded. -/
theorem fetchFiles_panic {file : S3FileInfo} (hattempts : around.attempts 0 = fun _ => emptyReply)
    (hmonth : extractMonthFromFilename around.env.month (filename file) = none) (rest : List S3FileInfo) {s : Local}
    (hnew : s.disk (localPath around.env file) = none) : (fetchFiles around 0 (file :: rest) s).1 = .panic := by
  have hneeded : shouldDownload around s (around.readable 0) file = some true := by
    unfold shouldDownload
    rw [hnew]
  have hpanic := downloadFile_panic hmonth (around.cleanup 0) (s.disk (localPath around.env file)) s.metadata
  unfold fetchFiles fetchFile
  rw [hneeded, hattempts]
  dsimp only
  rw [Bool.true_or, if_pos rfl]
  generalize downloadFile around.env file (fun _ => emptyReply) (around.cleanup 0)
    (s.disk (localPath around.env file)) s.metadata = outcome at hpanic
  obtain ⟨result, d⟩ := outcome
  obtain rfl : result = .panic := hpanic
  rfl

end Run

/-! ## Listings that panic -/

def Order.refl : Order := ⟨fun groups => groups, fun _ => List.Perm.refl _⟩

def Order.front (first : List S3FileInfo) : Order where
  shuffle groups := if first ∈ groups then first :: groups.erase first else groups
  perm groups := by
    split_ifs with h
    · exact (List.perm_cons_erase h).symm
    · exact List.Perm.refl _

def Surroundings.fresh (order : Order) : Surroundings Unit where
  env := ⟨⟨(), fun _ _ => (), fun _ => []⟩, "https://data.discogs.com/", "/discogs-data", id, "202601"⟩
  order := order
  published := none
  readable _ := true
  attempts _ _ := emptyReply
  cleanup _ := true
  removable _ := true

def Local.fresh : Local := ⟨fun _ => none, ∅, [], []⟩

section Panic

variable {lib : Library} {site : Site} {entries : List (String × S3FileInfo)} {id : String}

theorem latest_eq_filter (order : Order) (hnewest : IsGreatest {id | Counted (entries.map (·.2)) id} id) :
    getLatestMonthlyFiles (order.shuffle (Table.group entries).values).flatten =
      (filesOf (order.shuffle (Table.group entries).values).flatten id).filter (·.isDataFile) := by
  simp only [← counted_perm (perm_shuffle order entries)] at hnewest
  obtain ⟨-, -, hfilter⟩ := dataFilesOf_eq_some.1 (getLatestMonthlyFiles_of_counted hnewest)
  exact hfilter.symm

/-- A run whose first file has no month in its key. -/
theorem downloadDiscogsData_panic (hlisted : listed lib site = some entries) (hne : entries ≠ []) {order : Order}
    {file : S3FileInfo} {rest : List S3FileInfo}
    (hlatest : getLatestMonthlyFiles (order.shuffle (Table.group entries).values).flatten = file :: rest)
    (hmonth : extractMonthFromFilename "202601" file.name = none ∨
      extractMonthFromFilename "202601" (filename file) = none) :
    (downloadDiscogsData (.fresh order) lib site .fresh).1 = .panic := by
  unfold downloadDiscogsData
  rw [listS3Files_eq_ok.2 ⟨entries, hlisted, hne, rfl⟩]
  dsimp only [Surroundings.fresh]
  rw [hlatest]
  dsimp only
  cases hkey : extractMonthFromFilename "202601" file.name with
  | none => rfl
  | some month =>
    have hname := hmonth.resolve_left (by rw [hkey]; exact Option.some_ne_none month)
    exact fetchFiles_panic (.fresh order) rfl hname rest rfl

theorem ne_nil_of_counted (h : Counted (entries.map (·.2)) id) : entries ≠ [] := by
  rintro rfl
  obtain ⟨file, hfile, -⟩ := Counted.listed h
  exact absurd hfile List.not_mem_nil

theorem hasMonth_version (hsafe : ∀ order, (downloadDiscogsData (.fresh order) lib site .fresh).1 ≠ .panic)
    (hlisted : listed lib site = some entries) (hnewest : IsGreatest {id | Counted (entries.map (·.2)) id} id) :
    HasMonth id := by
  by_contra hcut
  have hlatest := latest_eq_filter .refl hnewest
  have hcounted := (counted_perm (perm_shuffle .refl entries)).2 hnewest.1
  cases hfiles : (filesOf (Order.refl.shuffle (Table.group entries).values).flatten id).filter (·.isDataFile) with
  | nil =>
    have hfour := (counted_iff.1 hcounted).2
    rw [hfiles] at hfour
    exact absurd hfour (by decide)
  | cons file rest =>
    rw [hfiles] at hlatest
    obtain ⟨hmem, hdata⟩ := List.mem_filter.1 (hfiles ▸ List.mem_cons_self)
    have hid : (segments file.basename)[1]? = some id := (mem_filesOf.1 hmem).2
    refine hsafe .refl (downloadDiscogsData_panic hlisted (ne_nil_of_counted hnewest.1) hlatest (.inr ?_))
    rw [filename_of_isDataFile hdata]
    exact extractMonthFromFilename_eq_none.2 ⟨id, hid, hcut⟩

/-- An order that reads the files of the date first. -/
theorem hasMonth_key (laws : LibraryLaws lib)
    (hsafe : ∀ order, (downloadDiscogsData (.fresh order) lib site .fresh).1 ≠ .panic)
    (hlisted : listed lib site = some entries) (hnewest : IsGreatest {id | Counted (entries.map (·.2)) id} id)
    {e : String × S3FileInfo} (he : e ∈ entries) (hid : e.2.id = some id) (hdata : e.2.isDataFile = true) :
    HasMonth e.1 := by
  by_contra hcut
  let dated := (entries.filter fun e' => e'.1 = e.1).map (·.2)
  have hlatest : getLatestMonthlyFiles ((Order.front dated).shuffle (Table.group entries).values).flatten =
      (filesOf dated id).filter (·.isDataFile) ++
        (filesOf ((Table.group entries).values.erase dated).flatten id).filter (·.isDataFile) := by
    have hshuffle : (Order.front dated).shuffle (Table.group entries).values =
        dated :: (Table.group entries).values.erase dated := if_pos (Table.mem_values_group he)
    rw [latest_eq_filter (.front dated) hnewest, hshuffle, List.flatten_cons, ← List.filter_append]
    exact congrArg _ (List.filter_append ..)
  have hmem : e.2 ∈ (filesOf dated id).filter (·.isDataFile) :=
    List.mem_filter.2 ⟨mem_filesOf.2 ⟨List.mem_map_of_mem (List.mem_filter.2 ⟨he, decide_eq_true rfl⟩), hid⟩, hdata⟩
  cases hfiles : (filesOf dated id).filter (·.isDataFile) with
  | nil =>
    rw [hfiles] at hmem
    exact absurd hmem List.not_mem_nil
  | cons file rest =>
    have hfirst : file ∈ dated := (mem_filesOf.1 (List.mem_filter.1 (hfiles ▸ List.mem_cons_self)).1).1
    obtain ⟨e', he', rfl⟩ := List.mem_map.1 hfirst
    obtain ⟨he', hsame⟩ := List.mem_filter.1 he'
    have hkey := entry_key laws hlisted he'
    rw [of_decide_eq_true hsame] at hkey
    rw [hfiles, List.cons_append] at hlatest
    exact hsafe (.front dated) (downloadDiscogsData_panic hlisted (ne_nil_of_counted hnewest.1) hlatest
      (.inl (extractMonthFromFilename_eq_none.2 ⟨e.1, hkey, hcut⟩)))

/-- No run panics exactly if all dates that reach the slices are cut between characters, and each writes below its
directory. -/
theorem downloadDiscogsData_safe_iff (laws : LibraryLaws lib) (site : Site) :
    (∀ (σ : Type) (around : Surroundings σ) (s : Local), Safe around s (downloadDiscogsData around lib site s)) ↔
      ∀ entries ∈ listed lib site, Sliceable entries := by
  constructor
  · intro h entries hlisted id hnewest
    have hsafe : ∀ order, (downloadDiscogsData (.fresh order) lib site .fresh).1 ≠ .panic :=
      fun order => (h Unit (.fresh order) .fresh).returns
    exact ⟨hasMonth_version hsafe hlisted hnewest, fun e => hasMonth_key laws hsafe hlisted hnewest⟩
  · intro h σ around s
    unfold downloadDiscogsData
    cases hlist : listS3Files lib around.order site with
    | error e => exact ⟨nofun, fun _ => .inl⟩
    | ok files =>
      obtain ⟨entries, hlisted, -, rfl⟩ := listS3Files_eq_ok.1 hlist
      have hmonths : ∀ file ∈ getLatestMonthlyFiles (around.order.shuffle (Table.group entries).values).flatten, _ :=
        fun _ hfile =>
          (h entries hlisted).months laws hlisted (perm_shuffle around.order entries) hfile around.env.month
      dsimp only
      generalize getLatestMonthlyFiles (around.order.shuffle (Table.group entries).values).flatten = latest at hmonths
      cases latest with
      | nil => exact ⟨nofun, fun _ => .inl⟩
      | cons file rest =>
        obtain ⟨month, hmonth⟩ := Option.ne_none_iff_exists'.1 (hmonths file List.mem_cons_self).1
        dsimp only
        rw [hmonth]
        exact fetchFiles_safe around (fun file hfile => (hmonths file hfile).2) 0 s

end Panic

/-! ## Digits of one byte, and of four -/

/-- The decimal digits of plain ASCII and the mathematical ones. -/
def mathDigits : Library where
  isDecimal c := c.isDigit || (0x1D7CE ≤ c.toNat && c.toNat ≤ 0x1D7FF)
  decode := some

theorem mathDigits_laws : LibraryLaws mathDigits where
  ascii c hc := by
    have hmath : ¬0x1D7CE ≤ c.toNat := by omega
    simp [mathDigits, hmath]
  literal _ _ _ := rfl

def fileNames : List String := ["artists.xml.gz", "labels.xml.gz", "masters.xml.gz", "releases.xml.gz", "CHECKSUM.txt"]

def linksOf (version : String) : List Link := fileNames.map fun name => ⟨"2026", version, name⟩

def siteOf (version : String) : Site where
  index := some (200, some "<a href=\"?prefix=data%2F2026%2F\">2026/</a>")
  newest := some (200, some (String.ofList ((linksOf version).flatMap Link.text)))
  next := none

def entriesOf (version : String) : List (String × S3FileInfo) :=
  fileNames.map fun name => (version, ⟨"data/" ++ "2026" ++ "/" ++ ("discogs_" ++ version ++ "_" ++ name), 0⟩)

theorem listed_siteOf {version : String}
    (h : version.toList.length = 8 ∧ ∀ c ∈ version.toList, mathDigits.isDecimal c = true) :
    listed mathDigits (siteOf version) = some (entriesOf version) := by
  have hindex : years mathDigits "<a href=\"?prefix=data%2F2026%2F\">2026/</a>" = ["2026"] := by decide +kernel
  have hlinks : ∀ link ∈ linksOf version, link.WellFormed mathDigits := by
    intro link hlink
    obtain ⟨name, hname, rfl⟩ := List.mem_map.1 hlink
    have hplain : ∀ name ∈ fileNames, name ≠ "" ∧ '"' ∉ name.toList ∧ '?' ∉ name.toList := by decide
    obtain ⟨hnonempty, hquote, hmark⟩ := hplain name hname
    have hyear : "2026".toList.length = 4 ∧ ∀ c ∈ "2026".toList, mathDigits.isDecimal c = true :=
      ⟨by decide, List.all_eq_true.1 (by decide)⟩
    exact ⟨hyear, h, hnonempty, hquote, hmark⟩
  have hpages : recentPages mathDigits (siteOf version) "<a href=\"?prefix=data%2F2026%2F\">2026/</a>" =
      [("2026", (siteOf version).newest)] := by
    unfold recentPages
    rw [hindex]
    rfl
  unfold listed
  dsimp only [siteOf] at hpages ⊢
  rw [if_pos (by decide), hpages]
  unfold yearEntries
  simp only [List.mapM_cons, List.mapM_nil]
  rw [if_pos (by decide), fileMatches_links hlinks]
  rfl

theorem id_of_mem_entriesOf {version : String} (hsegment : '_' ∉ version.toList) (hslash : '/' ∉ version.toList) :
    ∀ e ∈ entriesOf version, e.1 = version ∧ e.2.id = some version := by
  intro e he
  obtain ⟨name, hname, rfl⟩ := List.mem_map.1 he
  have hplain : ∀ name ∈ fileNames, '/' ∉ name.toList := by decide
  have hcomponent : Path.IsComponent ("discogs_" ++ version ++ "_" ++ name) := by
    refine Path.isComponent_of_long ?_ ?_
    · have hlong : 2 < "discogs_".toList.length := by decide
      simp only [String.toList_append, List.length_append]
      omega
    · simp only [String.toList_append, List.mem_append, not_or]
      exact ⟨⟨⟨by decide, hslash⟩, by decide⟩, hplain name hname⟩
  have hparts : "discogs_" ++ version ++ "_" ++ name = "discogs" ++ "_" ++ (version ++ "_" ++ name) := by
    apply String.toList_injective
    simp [String.toList_append]
  refine ⟨rfl, ?_⟩
  unfold S3FileInfo.id S3FileInfo.basename
  rw [Path.fileName_below hcomponent, Option.getD_some, hparts, segments_append (by decide), segments_append hsegment]
  rfl

/-- The site in plain ASCII is safe. -/
theorem downloadDiscogsData_safe_ascii : LibraryLaws mathDigits ∧
    ∀ (σ : Type) (around : Surroundings σ) (s : Local),
      Safe around s (downloadDiscogsData around mathDigits (siteOf "20260101") s) := by
  refine ⟨mathDigits_laws, (downloadDiscogsData_safe_iff mathDigits_laws (siteOf "20260101")).2 ?_⟩
  have hids : ∀ e ∈ entriesOf "20260101", e.1 = "20260101" ∧ e.2.id = some "20260101" :=
    id_of_mem_entriesOf (by decide) (by decide)
  rw [listed_siteOf ⟨by decide, List.all_eq_true.1 (by decide)⟩]
  rintro entries ⟨⟩ id hnewest
  obtain ⟨file, hfile, hid⟩ := Counted.listed hnewest.1
  obtain ⟨e, he, rfl⟩ := List.mem_map.1 hfile
  rw [(hids e he).2] at hid
  obtain rfl := Option.some.inj hid
  refine ⟨by decide, fun e he _ _ => ?_⟩
  rw [(hids e he).1]
  decide

/-- The digits of this version have four bytes each, so that its sixth byte is within the second. -/
theorem downloadDiscogsData_panics : LibraryLaws mathDigits ∧
    ¬∀ (σ : Type) (around : Surroundings σ) (s : Local),
      Safe around s (downloadDiscogsData around mathDigits (siteOf "𝟐𝟎𝟐𝟔𝟎𝟏𝟎𝟏") s) := by
  refine ⟨mathDigits_laws, fun h => ?_⟩
  have hids : ∀ f ∈ (entriesOf "𝟐𝟎𝟐𝟔𝟎𝟏𝟎𝟏").map (·.2), f.id = some "𝟐𝟎𝟐𝟔𝟎𝟏𝟎𝟏" := by
    intro f hf
    obtain ⟨e, he, rfl⟩ := List.mem_map.1 hf
    exact (id_of_mem_entriesOf (by decide) (by decide) e he).2
  have hall : filesOf ((entriesOf "𝟐𝟎𝟐𝟔𝟎𝟏𝟎𝟏").map (·.2)) "𝟐𝟎𝟐𝟔𝟎𝟏𝟎𝟏" = (entriesOf "𝟐𝟎𝟐𝟔𝟎𝟏𝟎𝟏").map (·.2) :=
    List.filter_eq_self.2 fun f hf => decide_eq_true (hids f hf)
  have hnewest : IsGreatest {id | Counted ((entriesOf "𝟐𝟎𝟐𝟔𝟎𝟏𝟎𝟏").map (·.2)) id} "𝟐𝟎𝟐𝟔𝟎𝟏𝟎𝟏" := by
    refine ⟨counted_iff.2 ?_, fun id hid => ?_⟩
    · rw [hall]
      exact ⟨rfl, by decide +kernel⟩
    · obtain ⟨f, hf, hfid⟩ := Counted.listed hid
      exact (Option.some.inj (hfid.symm.trans (hids f hf))).le
  have hlisted : listed mathDigits (siteOf "𝟐𝟎𝟐𝟔𝟎𝟏𝟎𝟏") = some (entriesOf "𝟐𝟎𝟐𝟔𝟎𝟏𝟎𝟏") :=
    listed_siteOf ⟨by decide, List.all_eq_true.1 (by decide)⟩
  have hmonth := hasMonth_version (fun order => (h Unit (.fresh order) .fresh).returns) hlisted hnewest
  exact absurd hmonth (by decide)

end DiscogsIngestion.Downloader
