import Mathlib.Data.Finset.Max
import Mathlib.Data.List.Sort
import Mathlib.Data.String.Basic
import DiscogsIngestion.Lib.Table
import DiscogsIngestion.Names
import DiscogsIngestion.Paths

/-!
# The latest monthly set

`get_latest_monthly_files` groups the listed files by version and takes the newest version that has five entries, four
of them dumps.

* `S3FileInfo`, `basename`, `getLatestMonthlyFiles` : the listing and the selection;
* `Complete`, `IsLatestSet` : the four dumps and the checksum file are listed, and what there is to select;
* `Counted` : what the selection takes for a complete version;
* `isLatestSet_iff` : the selection is right exactly if the newest version that either takes is complete and has no
  other entry.
-/

namespace DiscogsIngestion

structure S3FileInfo where
  name : String
  size : Nat
  deriving DecidableEq, Repr

namespace S3FileInfo

variable (f : S3FileInfo)

def basename : String := (Path.fileName f.name).getD f.name

def id : Option String := (segments f.basename)[1]?

def isDataFile : Bool := ".xml.gz".toList <:+ f.name.toList

end S3FileInfo

namespace Downloader

def addFile (ids : Table String (List S3FileInfo)) (file : S3FileInfo) : Table String (List S3FileInfo) :=
  match file.id with
  | some id => ids.insert id ((ids.lookup id).getD [] ++ [file])
  | none => ids

def groupById (files : List S3FileInfo) : Table String (List S3FileInfo) := files.foldl addFile ∅

/-- The data files of a version with five entries, four of which are data files. -/
def dataFilesOf (filesForId : List S3FileInfo) : Option (List S3FileInfo) :=
  if filesForId.length ≠ 5 then none
  else
    let dataFiles := filesForId.filter (·.isDataFile)
    if dataFiles.length = 4 then some dataFiles else none

def getLatestMonthlyFiles (files : List S3FileInfo) : List S3FileInfo :=
  let ids := groupById files
  let sortedIds := ids.keys.insertionSort (· ≥ ·)
  (sortedIds.findSome? fun id => (ids.lookup id).bind dataFilesOf).getD []

/-! ## What there is to select -/

def filesOf (files : List S3FileInfo) (id : String) : List S3FileInfo := files.filter fun f => f.id = some id

def dumpNames (id : String) : List String :=
  DataType.discogs.map fun dt => "discogs_" ++ id ++ "_" ++ dt.asStr ++ ".xml.gz"

def checksumName (id : String) : String := "discogs_" ++ id ++ "_CHECKSUM.txt"

def Names (f : S3FileInfo) (name : String) : Prop := f.basename = name ∧ name.toList <:+ f.name.toList

/-- The four dumps and the checksum file of a version are listed. -/
def Complete (files : List S3FileInfo) (id : String) : Prop :=
  ∀ name ∈ checksumName id :: dumpNames id, ∃ f ∈ filesOf files id, Names f name

/-- These are the four dumps of the newest complete version, one of each, or none if no version is complete. -/
def IsLatestSet (files selected : List S3FileInfo) : Prop :=
  (∃ id, IsGreatest {id | Complete files id} id ∧ (selected.map (·.basename)).Perm (dumpNames id) ∧ selected ⊆ files) ∨
    ((∀ id, ¬Complete files id) ∧ selected = [])

/-- Five entries, four of which are data files. -/
def Counted (files : List S3FileInfo) (id : String) : Prop := (dataFilesOf (filesOf files id)).isSome = true

variable {files selected : List S3FileInfo} {id : String} {f : S3FileInfo}

/-! ## The selection -/

theorem mem_filesOf : f ∈ filesOf files id ↔ f ∈ files ∧ f.id = some id := by simp [filesOf]

theorem groupById_eq_group (files : List S3FileInfo) :
    groupById files = Table.group (files.filterMap fun f => f.id.map fun id => (id, f)) := by
  unfold groupById Table.group
  rw [List.foldl_filterMap]
  congr
  funext ids f
  unfold addFile
  cases f.id <;> rfl

theorem lookup_groupById (files : List S3FileInfo) (id : String) :
    ((groupById files).lookup id).getD [] = filesOf files id := by
  rw [groupById_eq_group, Table.lookup_group]
  unfold filesOf
  induction files with
  | nil => rfl
  | cons f rest ih =>
    rw [List.filterMap_cons, List.filter_cons, ← ih]
    cases hid : f.id with
    | none => simp
    | some id' =>
      by_cases heq : id' = id
      · simp [heq]
      · simp [heq]

theorem dataFilesOf_eq_some {entries : List S3FileInfo} : dataFilesOf entries = some selected ↔
    entries.length = 5 ∧ selected.length = 4 ∧ entries.filter (·.isDataFile) = selected := by
  unfold dataFilesOf
  by_cases hfive : entries.length = 5
  · by_cases hfour : (entries.filter (·.isDataFile)).length = 4
    · simp only [hfive, hfour, ne_eq, not_true_eq_false, if_false, if_true, Option.some.injEq, true_and]
      refine ⟨fun h => ⟨h ▸ hfour, h⟩, fun h => h.2⟩
    · simp only [hfive, hfour, ne_eq, not_true_eq_false, if_false, reduceCtorEq, true_and, false_iff]
      rintro ⟨hlen, rfl⟩
      exact hfour hlen
  · simp [hfive]

theorem counted_iff : Counted files id ↔
    (filesOf files id).length = 5 ∧ ((filesOf files id).filter (·.isDataFile)).length = 4 := by
  unfold Counted
  rw [Option.isSome_iff_exists]
  simp only [dataFilesOf_eq_some]
  constructor
  · rintro ⟨selected, hfive, hfour, rfl⟩
    exact ⟨hfive, hfour⟩
  · rintro ⟨hfive, hfour⟩
    exact ⟨_, hfive, hfour, rfl⟩

theorem counted_perm {files' : List S3FileInfo} (h : files.Perm files') : Counted files id ↔ Counted files' id := by
  have hentries : (filesOf files id).Perm (filesOf files' id) := h.filter _
  rw [counted_iff, counted_iff, hentries.length_eq, (hentries.filter _).length_eq]

/-- What a version is selected with. -/
theorem lookup_bind_dataFilesOf (files : List S3FileInfo) (id : String) :
    ((groupById files).lookup id).bind dataFilesOf = dataFilesOf (filesOf files id) := by
  rw [← lookup_groupById]
  cases (groupById files).lookup id <;> rfl

theorem mem_keys_of_counted (h : Counted files id) : id ∈ (groupById files).keys := by
  unfold Counted at h
  rw [← lookup_bind_dataFilesOf] at h
  rw [← AList.mem_keys, ← AList.lookup_isSome]
  cases hlookup : (groupById files).lookup id with
  | none => simp [hlookup] at h
  | some entries => rfl

theorem getLatestMonthlyFiles_of_counted (h : IsGreatest {id | Counted files id} id) :
    dataFilesOf (filesOf files id) = some (getLatestMonthlyFiles files) := by
  obtain ⟨hcounted, hgreatest⟩ := h
  unfold getLatestMonthlyFiles
  simp only [lookup_bind_dataFilesOf]
  have hmem : id ∈ (groupById files).keys.insertionSort (· ≥ ·) := by
    rw [List.mem_insertionSort]
    exact mem_keys_of_counted hcounted
  have hsorted := List.pairwise_insertionSort (· ≥ ·) (groupById files).keys
  generalize (groupById files).keys.insertionSort (· ≥ ·) = sortedIds at hmem hsorted
  have hsome : (sortedIds.findSome? fun id => dataFilesOf (filesOf files id)).isSome = true :=
    List.findSome?_isSome_iff.2 ⟨id, hmem, hcounted⟩
  obtain ⟨selected, hselected⟩ := Option.isSome_iff_exists.1 hsome
  rw [hselected]
  obtain ⟨newer, id', older, rfl, hid', hnewer⟩ := List.findSome?_eq_some_iff.1 hselected
  have hle : id' ≤ id := hgreatest (by simp [Counted, hid'])
  have hge : id ≤ id' := by
    obtain hmem | rfl | hmem : id ∈ newer ∨ id = id' ∨ id ∈ older := by simpa using hmem
    · exact absurd hcounted (by simp [Counted, hnewer id hmem])
    · exact le_rfl
    · obtain ⟨-, hsorted, -⟩ := List.pairwise_append.1 hsorted
      exact List.rel_of_pairwise_cons hsorted hmem
  rw [le_antisymm hge hle]
  exact hid'

theorem getLatestMonthlyFiles_of_not_counted (h : ∀ id, ¬Counted files id) : getLatestMonthlyFiles files = [] := by
  unfold getLatestMonthlyFiles
  simp only [lookup_bind_dataFilesOf]
  have hnone : ((groupById files).keys.insertionSort (· ≥ ·)).findSome? (fun id => dataFilesOf (filesOf files id)) =
      none := by
    refine List.findSome?_eq_none_iff.2 fun id _ => ?_
    have hid := h id
    unfold Counted at hid
    simpa using hid
  rw [hnone]
  rfl

/-! ## Complete versions -/

theorem length_dumpNames (id : String) : (dumpNames id).length = 4 := by
  unfold dumpNames
  rw [List.length_map]
  rfl

theorem nodup_dumpNames (id : String) : (dumpNames id).Nodup := by
  refine List.Nodup.map (fun a b h => DataType.asStr_injective ?_) (by decide)
  have htext := congrArg String.toList h
  simp only [String.toList_append, List.append_cancel_right_eq, List.append_cancel_left_eq] at htext
  exact String.toList_injective htext

/-- The dumps are data files, and the checksum file is none. -/
theorem isDataFile_of_dump {name : String} (hname : name ∈ dumpNames id) (h : Names f name) :
    f.isDataFile = true := by
  obtain ⟨dt, -, rfl⟩ := List.mem_map.1 hname
  have hsuffix := h.2
  rw [String.toList_append] at hsuffix
  unfold S3FileInfo.isDataFile
  rw [decide_eq_true_iff]
  exact (List.suffix_append _ _).trans hsuffix

theorem isDataFile_checksum (h : Names f (checksumName id)) : f.isDataFile = false := by
  obtain ⟨front, hfront⟩ := h.2
  unfold checksumName at hfront
  unfold S3FileInfo.isDataFile
  rw [decide_eq_false_iff_not]
  rintro ⟨front', hfront'⟩
  have hlast := congrArg List.getLast? (hfront.trans hfront'.symm)
  have hchecksum : "_CHECKSUM.txt".toList.getLast? = some 't' := by decide
  have hdata : ".xml.gz".toList.getLast? = some 'z' := by decide
  simp only [String.toList_append, ← List.append_assoc] at hlast
  rw [List.getLast?_append, List.getLast?_append (l := front'), hchecksum, hdata] at hlast
  simp at hlast

/-- The dumps of a complete version are among its data files. -/
theorem Complete.dumps (h : Complete files id) :
    dumpNames id ⊆ ((filesOf files id).filter (·.isDataFile)).map (·.basename) := by
  intro name hname
  obtain ⟨f, hf, hnames⟩ := h name (List.mem_cons_of_mem _ hname)
  exact List.mem_map.2 ⟨f, List.mem_filter.2 ⟨hf, isDataFile_of_dump hname hnames⟩, hnames.1⟩

/-- A complete version without other entries is counted. -/
theorem Complete.counted (h : Complete files id) (hfive : (filesOf files id).length = 5) : Counted files id := by
  have hdumps : 4 ≤ ((filesOf files id).filter (·.isDataFile)).length := by
    have hle := (List.subperm_of_subset (nodup_dumpNames id) h.dumps).length_le
    rwa [length_dumpNames, List.length_map] at hle
  have hchecksum : ((filesOf files id).filter (·.isDataFile)).length < (filesOf files id).length := by
    obtain ⟨f, hf, hnames⟩ := h (checksumName id) (List.mem_cons_self ..)
    rw [List.length_filter_lt_length_iff_exists]
    exact ⟨f, hf, by simp [isDataFile_checksum hnames]⟩
  unfold Counted
  rw [Option.isSome_iff_exists]
  refine ⟨_, dataFilesOf_eq_some.2 ⟨hfive, ?_, rfl⟩⟩
  omega

theorem Complete.perm (h : Complete files id) (hselected : dataFilesOf (filesOf files id) = some selected) :
    (selected.map (·.basename)).Perm (dumpNames id) := by
  obtain ⟨-, hfour, hfilter⟩ := dataFilesOf_eq_some.1 hselected
  have hdumps := h.dumps
  rw [hfilter] at hdumps
  refine ((List.subperm_of_subset (nodup_dumpNames id) hdumps).perm_of_length_le ?_).symm
  rw [length_dumpNames, List.length_map, hfour]

theorem subset_of_dataFilesOf (hselected : dataFilesOf (filesOf files id) = some selected) :
    selected ⊆ filesOf files id := by
  obtain ⟨-, -, rfl⟩ := dataFilesOf_eq_some.1 hselected
  exact List.filter_subset_self _

/-- No other version is selected with the dumps of a complete one. -/
theorem Complete.eq_of_perm {id' : String} (h : Complete files id)
    (hselected : dataFilesOf (filesOf files id') = some selected)
    (hperm : (selected.map (·.basename)).Perm (dumpNames id)) : id' = id := by
  obtain ⟨-, hfour, -⟩ := dataFilesOf_eq_some.1 hselected
  obtain ⟨f, hf⟩ := List.exists_mem_of_length_pos (l := selected) (by omega)
  have hname : f.basename ∈ dumpNames id := hperm.subset (List.mem_map.2 ⟨f, hf, rfl⟩)
  obtain ⟨e, he, hnames⟩ := h _ (List.mem_cons_of_mem _ hname)
  have hsame : e.id = f.id := by
    unfold S3FileInfo.id
    rw [hnames.1]
  have hid : e.id = some id := (mem_filesOf.1 he).2
  have hid' : f.id = some id' := (mem_filesOf.1 (subset_of_dataFilesOf hselected hf)).2
  rw [hsame, hid'] at hid
  exact Option.some.inj hid

/-! ## The newest version -/

/-- Of the versions with a property of listed versions, one is the newest. -/
theorem exists_newest {p : String → Prop} (hlisted : ∀ id, p id → ∃ f ∈ files, f.id = some id) (h : ∃ id, p id) :
    ∃ id, IsGreatest {id | p id} id := by
  classical
  let ids := (files.filterMap (·.id)).toFinset.filter p
  have hids : ∀ id, id ∈ ids ↔ p id := by
    intro id
    simp only [ids, Finset.mem_filter, List.mem_toFinset, List.mem_filterMap, and_iff_right_iff_imp]
    exact hlisted id
  obtain ⟨id, hid⟩ := h
  have hmax := Finset.isGreatest_max' ids ⟨id, (hids id).2 hid⟩
  exact ⟨_, (hids _).1 hmax.1, fun id' hid' => hmax.2 ((hids id').2 hid')⟩

theorem Complete.listed (h : Complete files id) : ∃ f ∈ files, f.id = some id := by
  obtain ⟨f, hf, -⟩ := h (checksumName id) (List.mem_cons_self ..)
  exact ⟨f, mem_filesOf.1 hf⟩

theorem Counted.listed (h : Counted files id) : ∃ f ∈ files, f.id = some id := by
  obtain ⟨selected, hselected⟩ := Option.isSome_iff_exists.1 h
  obtain ⟨hfive, -⟩ := dataFilesOf_eq_some.1 hselected
  obtain ⟨f, hf⟩ := List.exists_mem_of_length_pos (l := filesOf files id) (by omega)
  exact ⟨f, mem_filesOf.1 hf⟩

/-- The selection is right exactly if the newest version that is complete or counted is complete and has no other
entry. -/
theorem isLatestSet_iff (files : List S3FileInfo) : IsLatestSet files (getLatestMonthlyFiles files) ↔
    ∀ id, IsGreatest {id | Complete files id ∨ Counted files id} id →
      Complete files id ∧ (filesOf files id).length = 5 := by
  constructor
  · rintro (⟨id₁, hnewest, hperm, -⟩ | ⟨hnone, hempty⟩) id ⟨hid, hgreatest⟩
    · have hcounted : ∃ id, Counted files id := by
        by_contra hno
        rw [getLatestMonthlyFiles_of_not_counted (fun id hid => hno ⟨id, hid⟩)] at hperm
        exact absurd hperm.length_eq (by simp [length_dumpNames])
      obtain ⟨id₂, hnewest₂⟩ := exists_newest (fun _ => Counted.listed) hcounted
      have hselected := getLatestMonthlyFiles_of_counted hnewest₂
      obtain rfl := hnewest.1.eq_of_perm hselected hperm
      have hle : id ≤ id₂ := hid.elim (fun h => hnewest.2 h) (fun h => hnewest₂.2 h)
      have hge : id₂ ≤ id := hgreatest (.inl hnewest.1)
      rw [le_antisymm hle hge]
      exact ⟨hnewest.1, (dataFilesOf_eq_some.1 hselected).1⟩
    · have hcounted : Counted files id := hid.resolve_left (hnone id)
      have hselected := getLatestMonthlyFiles_of_counted ⟨hcounted, fun id' hid' => hgreatest (.inr hid')⟩
      obtain ⟨-, hfour, -⟩ := dataFilesOf_eq_some.1 hselected
      rw [hempty] at hfour
      exact absurd hfour (by decide)
  · intro h
    by_cases hany : ∃ id, Complete files id ∨ Counted files id
    · obtain ⟨id, hid, hgreatest⟩ := exists_newest (fun _ hp => hp.elim Complete.listed Counted.listed) hany
      obtain ⟨hcomplete, hfive⟩ := h id ⟨hid, hgreatest⟩
      have hcounted := hcomplete.counted hfive
      have hselected := getLatestMonthlyFiles_of_counted ⟨hcounted, fun id' hid' => hgreatest (.inr hid')⟩
      refine .inl ⟨id, ⟨hcomplete, fun id' hid' => hgreatest (.inl hid')⟩, hcomplete.perm hselected, ?_⟩
      exact fun f hf => (mem_filesOf.1 (subset_of_dataFilesOf hselected hf)).1
    · refine .inr ⟨fun id hid => hany ⟨id, .inl hid⟩, ?_⟩
      exact getLatestMonthlyFiles_of_not_counted fun id hid => hany ⟨id, .inr hid⟩

theorem IsLatestSet.nodup (h : IsLatestSet files selected) : (selected.map (·.basename)).Nodup := by
  obtain ⟨id, -, hperm, -⟩ | ⟨-, rfl⟩ := h
  · exact hperm.nodup_iff.2 (nodup_dumpNames id)
  · exact List.nodup_nil

/-- A month whose releases are not listed yet, and whose artists are listed twice. -/
def unfinishedMonth : List S3FileInfo :=
  [⟨"data/2026/discogs_20260201_artists.xml.gz", 0⟩, ⟨"data/2026/discogs_20260201_artists.xml.gz", 0⟩,
    ⟨"data/2026/discogs_20260201_labels.xml.gz", 0⟩, ⟨"data/2026/discogs_20260201_masters.xml.gz", 0⟩,
    ⟨"data/2026/discogs_20260201_CHECKSUM.txt", 0⟩]

/-- The unfinished month is selected, without releases. -/
theorem unfinishedMonth_not_latest : ¬IsLatestSet unfinishedMonth (getLatestMonthlyFiles unfinishedMonth) := by
  have hids : ∀ f ∈ unfinishedMonth, f.id = some "20260201" := by decide +kernel
  have hall : filesOf unfinishedMonth "20260201" = unfinishedMonth :=
    List.filter_eq_self.2 fun f hf => decide_eq_true (hids f hf)
  have hdata : dataFilesOf (filesOf unfinishedMonth "20260201") = some (unfinishedMonth.take 4) := by
    rw [hall]
    decide +kernel
  have hnewest : IsGreatest {id | Counted unfinishedMonth id} "20260201" := by
    refine ⟨Option.isSome_iff_exists.2 ⟨_, hdata⟩, fun id hid => ?_⟩
    obtain ⟨f, hf, hfid⟩ := Counted.listed hid
    exact (Option.some.inj (hfid.symm.trans (hids f hf))).le
  have hselected := hdata.symm.trans (getLatestMonthlyFiles_of_counted hnewest)
  rw [← Option.some.inj hselected]
  intro hlatest
  exact absurd hlatest.nodup (List.not_nodup_cons_of_mem (List.mem_cons_self ..))

end Downloader

end DiscogsIngestion
