import DiscogsIngestion.Lib.Table
import DiscogsIngestion.Paths
import DiscogsIngestion.Text
import DiscogsIngestion.Types

/-!
# The published checksums

* `checksumEntry`, `parseChecksums`, `fetchChecksums` : the checksum file as it is read;
* `IsDigest`, `IsBasename`, `ChecksumLine`, `Rendering` : the output of `sha256sum`, with all that may stand around it;
* `checksumEntry_text`, `checksumEntry_of_not_isDigest` : what is read from one line;
* `parseChecksums_render` : what is written is read back, and nothing else is read.
-/

namespace DiscogsIngestion.Downloader

/-! ## Reading -/

def isAsciiHexdigit (c : Char) : Bool := c.isDigit || ('a' ≤ c && c ≤ 'f') || ('A' ≤ c && c ≤ 'F')

/-- What stands before the first whitespace, and what follows it. -/
def splitAtWhitespace (line : String) : String × String :=
  (String.ofList (line.toList.takeWhile (!isWhitespace ·)),
    String.ofList ((line.toList.dropWhile (!isWhitespace ·)).drop 1))

/-- The name without the star of the binary mode. -/
def stripStar (name : String) : String :=
  if name.toList.head? = some '*' then String.ofList name.toList.tail else name

def checksumEntry (line : String) : Option (String × String) :=
  let line := trim line
  if line = "" then none
  else
    let (hash, rest) := splitAtWhitespace line
    let namePart := stripStar (trim rest)
    if hash.utf8ByteSize = 64 ∧ hash.toList.all isAsciiHexdigit ∧ namePart ≠ "" then
      some ((Path.fileName namePart).getD namePart, DataType.lowercase hash)
    else none

/-- A later line for a name replaces an earlier one. -/
def parseChecksums (text : String) : Table String String := Table.collect checksumEntry (lines text)

inductive FetchError where
  | get
  | status (code : Nat)
  | body
  | noEntries
  deriving DecidableEq, Repr

/-- The response: none if the request fails, and no body if it cannot be read. -/
def fetchChecksums (response : Option (Nat × Option String)) : Except FetchError (Table String String) :=
  match response with
  | none => .error .get
  | some (code, body) =>
    if code < 200 ∨ 299 < code then .error (.status code)
    else
      match body with
      | none => .error .body
      | some text => if (parseChecksums text).entries = [] then .error .noEntries else .ok (parseChecksums text)

/-! ## Writing -/

structure IsDigest (hash : String) : Prop where
  length : hash.toList.length = 64
  digits : ∀ c ∈ hash.toList, isAsciiHexdigit c = true

/-- The name of a file in a directory, which `sha256sum` writes as it is. -/
structure IsBasename (name : String) : Prop extends Path.IsComponent name where
  newline : '\n' ∉ name.toList
  backslash : '\\' ∉ name.toList
  star : name.toList.head? ≠ some '*'
  head : ∀ c ∈ name.toList.head?, isWhitespace c = false
  last : ∀ c ∈ name.toList.getLast?, isWhitespace c = false

/-- A line of `sha256sum`, in text or in binary mode, with whitespace around it. -/
structure ChecksumLine where
  indent : List Char
  hash : String
  binary : Bool
  directory : Option String
  name : String
  trail : List Char
  indent_blank : ∀ c ∈ indent, isWhitespace c = true ∧ c ≠ '\n'
  isDigest : IsDigest hash
  directory_newline : ∀ d ∈ directory, '\n' ∉ d.toList
  isBasename : IsBasename name
  trail_blank : ∀ c ∈ trail, isWhitespace c = true ∧ c ≠ '\n'

namespace ChecksumLine

variable (line : ChecksumLine)

def path : String :=
  match line.directory with
  | some directory => directory ++ "/" ++ line.name
  | none => line.name

def core : List Char := line.hash.toList ++ ' ' :: (if line.binary then '*' else ' ') :: line.path.toList

def text : List Char := line.indent ++ line.core ++ line.trail

end ChecksumLine

def firstField (line : String) : String := (splitAtWhitespace (trim line)).1

/-- A line of the file: blank ones, and others that do not begin with a hash, may stand anywhere. -/
inductive Line where
  | checksum (line : ChecksumLine)
  | other (text : List Char) (newline : '\n' ∉ text) (isDigest : ¬IsDigest (firstField (String.ofList text)))

def Line.text : Line → List Char
  | checksum line => line.text
  | other text .. => text

def Line.checksum? : Line → Option ChecksumLine
  | checksum line => some line
  | other .. => none

inductive LineEnd where
  | lf
  | crlf
  deriving DecidableEq, Repr

def LineEnd.carriage : LineEnd → List Char
  | lf => []
  | crlf => ['\r']

/-- A checksum file: lines with their ends, and what follows the last end. -/
structure Rendering where
  ended : List (Line × LineEnd)
  last : Line

namespace Rendering

variable (r : Rendering)

def text : String :=
  String.ofList ((r.ended.flatMap fun line => line.1.text ++ line.2.carriage ++ ['\n']) ++ r.last.text)

def checksums : List ChecksumLine := (r.ended.map Prod.fst ++ [r.last]).filterMap Line.checksum?

/-- The lines are those of the map: each name has one, and its hash up to the case of the digits. -/
structure Renders (checksums : Table String String) : Prop where
  sound : ∀ line ∈ r.checksums, ∃ hash, checksums.lookup line.name = some hash ∧
    DataType.lowercase line.hash = DataType.lowercase hash
  complete : ∀ name hash, checksums.lookup name = some hash → ∃ line ∈ r.checksums, line.name = name

end Rendering

/-! ## What is read from a line -/

section Entry

variable {line line' hash name path : String}

theorem checksumEntry_congr (h : trim line = trim line') : checksumEntry line = checksumEntry line' := by
  unfold checksumEntry
  rw [h]

theorem toNat_of_isAsciiHexdigit {c : Char} (h : isAsciiHexdigit c = true) : 48 ≤ c.toNat ∧ c.toNat ≤ 102 := by
  unfold isAsciiHexdigit Char.isDigit at h
  simp only [Bool.or_eq_true, Bool.and_eq_true, decide_eq_true_eq, Char.le_def, UInt32.le_iff_toNat_le] at h
  obtain (⟨hlow, hhigh⟩ | ⟨hlow, hhigh⟩) | ⟨hlow, hhigh⟩ := h
  · exact ⟨hlow, hhigh.trans (by decide)⟩
  · exact ⟨le_trans (by decide) hlow, hhigh⟩
  · exact ⟨le_trans (by decide) hlow, hhigh.trans (by decide)⟩

theorem not_isWhitespace_of_isAsciiHexdigit {c : Char} (h : isAsciiHexdigit c = true) : isWhitespace c = false := by
  have hrange := toNat_of_isAsciiHexdigit h
  unfold isWhitespace
  simp only [Bool.or_eq_false_iff, Bool.and_eq_false_iff, decide_eq_false_iff_not]
  omega

/-- Of hexadecimal digits there are as many as there are bytes. -/
theorem isDigest_iff : hash.utf8ByteSize = 64 ∧ hash.toList.all isAsciiHexdigit = true ↔ IsDigest hash := by
  have hbytes : (∀ c ∈ hash.toList, isAsciiHexdigit c = true) → hash.utf8ByteSize = hash.toList.length :=
    fun h => utf8ByteSize_eq_length fun c hc => (toNat_of_isAsciiHexdigit (h c hc)).2.trans (by decide)
  constructor
  · rintro ⟨hsize, hall⟩
    exact ⟨(hbytes (List.all_eq_true.1 hall)).symm.trans hsize, List.all_eq_true.1 hall⟩
  · intro h
    exact ⟨(hbytes h.digits).trans h.length, List.all_eq_true.2 h.digits⟩

instance (hash : String) : Decidable (IsDigest hash) := decidable_of_iff _ isDigest_iff

theorem checksumEntry_of_not_isDigest (h : ¬IsDigest (firstField line)) : checksumEntry line = none := by
  unfold checksumEntry
  dsimp only
  split_ifs with hblank hfields
  · rfl
  · exact absurd (isDigest_iff.1 ⟨hfields.1, hfields.2.1⟩) h
  · rfl

/-- The path is the name, in some directory or in none. -/
def IsPathOf (path name : String) : Prop := path = name ∨ ∃ directory, path = directory ++ "/" ++ name

theorem IsPathOf.fileName (h : IsPathOf path name) (hname : Path.IsComponent name) :
    Path.fileName path = some name := by
  rcases h with rfl | ⟨directory, rfl⟩
  · exact Path.fileName_self hname
  · exact Path.fileName_below hname directory

theorem IsPathOf.ne_empty (h : IsPathOf path name) (hname : Path.IsComponent name) : path ≠ "" := by
  rintro rfl
  have hnone : Path.fileName "" = none := by decide
  rw [h.fileName hname] at hnone
  exact nomatch hnone

theorem isPathOf_ofList (directory : List Char) (name : String) :
    IsPathOf (String.ofList (directory ++ '/' :: name.toList)) name := by
  refine .inr ⟨String.ofList directory, String.toList_injective ?_⟩
  rw [String.toList_ofList, String.toList_append, String.toList_append, String.toList_ofList, List.append_assoc]
  rfl

/-- Neither trimming nor the star touches the name. -/
theorem IsPathOf.stripStar (h : IsPathOf path name) (hname : IsBasename name) : IsPathOf (stripStar path) name := by
  unfold Downloader.stripStar
  split_ifs with hstar
  · rcases h with rfl | ⟨directory, rfl⟩
    · exact absurd hstar hname.star
    · rw [String.toList_append, String.toList_append] at hstar ⊢
      cases hdirectory : directory.toList with
      | nil =>
        rw [hdirectory] at hstar
        have hslash : '/' = '*' := Option.some.inj hstar
        exact absurd hslash (by decide)
      | cons c rest =>
        rw [List.append_assoc]
        exact isPathOf_ofList rest name
  · exact h

theorem IsPathOf.dropWhile (h : IsPathOf path name) (hname : IsBasename name) :
    IsPathOf (String.ofList (path.toList.dropWhile isWhitespace)) name := by
  have hslash : ¬isWhitespace '/' = true := by decide
  rcases h with rfl | ⟨directory, rfl⟩
  · left
    cases hpath : path.toList with
    | nil => exact absurd (String.toList_eq_nil_iff.1 hpath) hname.nonempty
    | cons c rest =>
      have hc : isWhitespace c = false := hname.head c (by rw [hpath]; rfl)
      rw [List.dropWhile_cons_of_neg (Bool.eq_false_iff.1 hc), ← hpath, String.ofList_toList]
  · rw [String.toList_append, String.toList_append, List.append_assoc, List.dropWhile_append]
    split_ifs
    · exact isPathOf_ofList [] name
    · exact isPathOf_ofList _ name

theorem ChecksumLine.isPathOf (line : ChecksumLine) : IsPathOf line.path line.name := by
  unfold ChecksumLine.path
  cases line.directory with
  | some directory => exact .inr ⟨directory, rfl⟩
  | none => exact .inl rfl

/-- A path ends as its name does. -/
theorem ChecksumLine.exists_last (line : ChecksumLine) :
    ∃ front c, line.path.toList = front ++ [c] ∧ isWhitespace c = false := by
  have hname := line.isBasename
  have hne : line.name.toList ≠ [] := fun heq => hname.nonempty (String.toList_eq_nil_iff.1 heq)
  have hlast : isWhitespace (line.name.toList.getLast hne) = false := hname.last _ (List.getLast?_eq_some_getLast hne)
  have hsplit := (List.dropLast_concat_getLast hne).symm
  rcases line.isPathOf with hpath | ⟨directory, hpath⟩
  · exact ⟨_, _, (congrArg _ hpath).trans hsplit, hlast⟩
  · refine ⟨directory.toList ++ '/' :: line.name.toList.dropLast, _, ?_, hlast⟩
    rw [hpath, String.toList_append, String.toList_append, List.append_assoc, List.append_assoc]
    refine congrArg _ (congrArg (List.cons '/') ?_)
    exact hsplit

theorem ChecksumLine.trim_text (line : ChecksumLine) : trim (String.ofList line.text) = String.ofList line.core := by
  obtain ⟨front, c, hpath, hc⟩ := line.exists_last
  have hfirst : line.core.dropWhile isWhitespace = line.core := by
    unfold ChecksumLine.core
    cases hhash : line.hash.toList with
    | nil =>
      have hlength := line.isDigest.length
      rw [hhash] at hlength
      exact nomatch hlength
    | cons d rest =>
      have hd : isWhitespace d = false :=
        not_isWhitespace_of_isAsciiHexdigit (line.isDigest.digits d (by rw [hhash]; exact List.mem_cons_self ..))
      exact List.dropWhile_cons_of_neg (Bool.eq_false_iff.1 hd)
  have hlast : line.core =
      (line.hash.toList ++ ' ' :: (if line.binary then '*' else ' ') :: front) ++ [c] := by
    unfold ChecksumLine.core
    rw [hpath, List.append_assoc]
    rfl
  apply String.toList_injective
  rw [toList_trim, String.toList_ofList, String.toList_ofList]
  unfold ChecksumLine.text
  rw [Words.strip_append_of_all fun a ha => (line.trail_blank a ha).1,
    Words.strip_of_all_append fun a ha => (line.indent_blank a ha).1, hlast, Words.strip_concat hc, ← hlast, hfirst]

theorem ChecksumLine.splitAtWhitespace_core (line : ChecksumLine) :
    splitAtWhitespace (String.ofList line.core) =
      (line.hash, String.ofList ((if line.binary then '*' else ' ') :: line.path.toList)) := by
  have hhash : ∀ c ∈ line.hash.toList, (!isWhitespace c) = true := by
    intro c hc
    rw [not_isWhitespace_of_isAsciiHexdigit (line.isDigest.digits c hc)]
    rfl
  have hspace : ¬(!isWhitespace ' ') = true := by decide
  unfold splitAtWhitespace ChecksumLine.core
  rw [String.toList_ofList, List.takeWhile_append_of_pos hhash,
    List.takeWhile_cons_of_neg (p := (!isWhitespace ·)) hspace, List.append_nil, List.dropWhile_append_of_pos hhash,
    List.dropWhile_cons_of_neg (p := (!isWhitespace ·)) hspace, String.ofList_toList]
  rfl

/-- What follows the hash is trimmed to the path, with the star in the binary mode. -/
theorem ChecksumLine.isPathOf_trim (line : ChecksumLine) :
    IsPathOf (stripStar (trim (String.ofList ((if line.binary then '*' else ' ') :: line.path.toList)))) line.name := by
  obtain ⟨front, c, hpath, hc⟩ := line.exists_last
  have htrim : ∀ mark, trim (String.ofList (mark :: line.path.toList)) =
      String.ofList ((mark :: line.path.toList).dropWhile isWhitespace) := by
    intro mark
    apply String.toList_injective
    rw [toList_trim, String.toList_ofList, String.toList_ofList, hpath, ← List.cons_append, Words.strip_concat hc]
  rw [htrim]
  cases line.binary with
  | true =>
    have hstar : stripStar (String.ofList (('*' :: line.path.toList).dropWhile isWhitespace)) = line.path := by
      have hkeep : ¬isWhitespace '*' = true := by decide
      rw [List.dropWhile_cons_of_neg hkeep]
      unfold Downloader.stripStar
      rw [String.toList_ofList, List.head?_cons, if_pos rfl, List.tail_cons, String.ofList_toList]
    show IsPathOf (stripStar (String.ofList (('*' :: line.path.toList).dropWhile isWhitespace))) line.name
    rw [hstar]
    exact line.isPathOf
  | false =>
    have hblank : isWhitespace ' ' = true := by decide
    show IsPathOf (stripStar (String.ofList ((' ' :: line.path.toList).dropWhile isWhitespace))) line.name
    rw [List.dropWhile_cons_of_pos hblank]
    exact (line.isPathOf.dropWhile line.isBasename).stripStar line.isBasename

theorem checksumEntry_text (line : ChecksumLine) :
    checksumEntry (String.ofList line.text) = some (line.name, DataType.lowercase line.hash) := by
  have hpath := line.isPathOf_trim
  have hname := line.isBasename.toIsComponent
  have hcore : String.ofList line.core ≠ "" := by
    intro heq
    have hempty := congrArg String.toList heq
    rw [String.toList_ofList] at hempty
    exact List.append_ne_nil_of_right_ne_nil _ (List.cons_ne_nil _ _) hempty
  have hdigest := isDigest_iff.2 line.isDigest
  unfold checksumEntry
  dsimp only
  rw [line.trim_text, if_neg hcore, line.splitAtWhitespace_core]
  dsimp only
  rw [if_pos ⟨hdigest.1, hdigest.2, hpath.ne_empty hname⟩, hpath.fileName hname]
  rfl

end Entry

/-! ## What is read from a file -/

theorem checksumEntry_line (line : Line) : checksumEntry (String.ofList line.text) =
    line.checksum?.map fun line => (line.name, DataType.lowercase line.hash) := by
  cases line with
  | checksum line => exact checksumEntry_text line
  | other text newline isDigest => exact checksumEntry_of_not_isDigest isDigest

theorem isWhitespace_of_mem_carriage (lineEnd : LineEnd) : ∀ c ∈ lineEnd.carriage, isWhitespace c = true := by
  cases lineEnd with
  | lf => exact nofun
  | crlf =>
    intro c hc
    rw [List.mem_singleton.1 hc]
    decide

/-- What is read from a line, whatever its end. -/
theorem checksumEntry_kept (line : Line) (lineEnd : LineEnd) {kept : List Char}
    (h : kept = line.text ++ lineEnd.carriage ∨ kept ++ LineEnd.crlf.carriage = line.text ++ lineEnd.carriage) :
    checksumEntry (String.ofList kept) =
      line.checksum?.map fun line => (line.name, DataType.lowercase line.hash) := by
  rw [← checksumEntry_line]
  refine checksumEntry_congr (trim_eq_of_strip ?_)
  rw [String.toList_ofList, String.toList_ofList,
    ← Words.strip_append_of_all (l := line.text) (isWhitespace_of_mem_carriage lineEnd)]
  rcases h with rfl | h
  · rfl
  · rw [← h, Words.strip_append_of_all (isWhitespace_of_mem_carriage .crlf)]

theorem newline_not_mem_path (line : ChecksumLine) : '\n' ∉ line.path.toList := by
  have hname := line.isBasename.newline
  have hdirectory := line.directory_newline
  unfold ChecksumLine.path
  cases hdir : line.directory with
  | none => exact hname
  | some directory =>
    rw [String.toList_append, String.toList_append]
    simp [hname, hdirectory directory hdir]

theorem newline_not_mem_text (line : Line) : '\n' ∉ line.text := by
  cases line with
  | other text newline isDigest => exact newline
  | checksum line =>
    have hpath := newline_not_mem_path line
    have hhash : '\n' ∉ line.hash.toList := fun h => absurd (line.isDigest.digits _ h) (by decide)
    have hindent : '\n' ∉ line.indent := fun h => (line.indent_blank _ h).2 rfl
    have htrail : '\n' ∉ line.trail := fun h => (line.trail_blank _ h).2 rfl
    show '\n' ∉ line.indent ++ line.core ++ line.trail
    unfold ChecksumLine.core
    simp only [List.mem_append, List.mem_cons, not_or]
    refine ⟨⟨hindent, hhash, by decide, ?_, hpath⟩, htrail⟩
    cases line.binary <;> decide

theorem filterMap_lines (ended : List (Line × LineEnd)) (last : Line) :
    (lines (Rendering.text ⟨ended, last⟩)).filterMap checksumEntry =
      (Rendering.checksums ⟨ended, last⟩).map fun line => (line.name, DataType.lowercase line.hash) := by
  have hread : ∀ l, (lines (String.ofList l)).filterMap checksumEntry =
      (splitLines l).filterMap fun line => checksumEntry (String.ofList line) := by
    intro l
    unfold lines
    rw [String.toList_ofList, List.filterMap_map, Function.comp_def]
  unfold Rendering.text Rendering.checksums
  rw [hread]
  induction ended with
  | nil =>
    have hlast := checksumEntry_line last
    rw [List.flatMap_nil, List.nil_append, List.map_nil, List.nil_append]
    by_cases hempty : last.text = []
    · rw [hempty] at hlast ⊢
      cases hline : last.checksum? with
      | none => simp [splitLines, hline]
      | some line =>
        rw [hline] at hlast
        exact absurd hlast.symm (Option.some_ne_none _)
    · rw [splitLines_of_not_mem (newline_not_mem_text last) hempty]
      cases hline : last.checksum? with
      | none => simp [hlast, hline]
      | some line => simp [hlast, hline]
  | cons line ended ih =>
    obtain ⟨line, lineEnd⟩ := line
    have hnewline : '\n' ∉ line.text ++ lineEnd.carriage := by
      rw [List.mem_append, not_or]
      refine ⟨newline_not_mem_text line, ?_⟩
      cases lineEnd <;> decide
    rw [List.flatMap_cons, List.append_assoc, List.append_assoc]
    obtain ⟨kept, hsplit, hkept⟩ := splitLines_append_newline hnewline
      ((ended.flatMap fun line => line.1.text ++ line.2.carriage ++ ['\n']) ++ last.text)
    have hentry := checksumEntry_kept line lineEnd hkept
    rw [List.singleton_append, hsplit, List.filterMap_cons, hentry, ih, List.map_cons, List.cons_append,
      List.filterMap_cons]
    cases line.checksum? <;> rfl

theorem parseChecksums_text (r : Rendering) : parseChecksums r.text =
    Table.collect some (r.checksums.map fun line => (line.name, DataType.lowercase line.hash)) := by
  unfold parseChecksums
  rw [Table.collect_eq_collect_filterMap, filterMap_lines]

theorem parseChecksums_eq (text : String) : parseChecksums text =
    Table.collect checksumEntry ((lines text).filter fun line => IsDigest (firstField line)) := by
  refine (Table.collect_filter (fun line hline => ?_) _).symm
  exact checksumEntry_of_not_isDigest (of_decide_eq_false hline)

/-- What is written is read back, the hashes in lower case. Of any text only the lines that begin with a hash are
read. -/
theorem parseChecksums_render {checksums : Table String String} {r : Rendering} (h : r.Renders checksums) :
    (∀ name, (parseChecksums r.text).lookup name = (checksums.lookup name).map DataType.lowercase) ∧
    ∀ text text', (lines text).filter (fun line => IsDigest (firstField line)) =
      (lines text').filter (fun line => IsDigest (firstField line)) → parseChecksums text = parseChecksums text' := by
  have hmem : ∀ name hash, (∃ line ∈ lines r.text, checksumEntry line = some (name, hash)) ↔
      ∃ line ∈ r.checksums, line.name = name ∧ DataType.lowercase line.hash = hash := by
    intro name hash
    rw [← List.mem_filterMap, filterMap_lines, List.mem_map]
    simp only [Prod.mk.injEq]
  have hsound : ∀ name hash, (∃ line ∈ lines r.text, checksumEntry line = some (name, hash)) →
      (checksums.lookup name).map DataType.lowercase = some hash := by
    intro name hash hread
    obtain ⟨line, hline, rfl, rfl⟩ := (hmem name hash).1 hread
    obtain ⟨hash, hlookup, hhash⟩ := h.sound line hline
    rw [hlookup, hhash]
    rfl
  refine ⟨fun name => ?_, fun text text' hsame => ?_⟩
  · apply Option.ext
    intro hash
    unfold parseChecksums
    rw [Table.lookup_collect_iff]
    · constructor
      · exact hsound name hash
      · intro hlookup
        obtain ⟨written, hwritten, rfl⟩ := Option.map_eq_some_iff.1 hlookup
        obtain ⟨line, hline, rfl⟩ := h.complete name written hwritten
        obtain ⟨hash, hsome, hhash⟩ := h.sound line hline
        obtain rfl := Option.some.inj (hsome.symm.trans hwritten)
        exact (hmem _ _).2 ⟨line, hline, rfl, hhash⟩
    · intro line hline line' hline' hash hash' hentry hentry'
      have hfirst := hsound name hash ⟨line, hline, hentry⟩
      have hsecond := hsound name hash' ⟨line', hline', hentry'⟩
      exact Option.some.inj (hfirst.symm.trans hsecond)
  · rw [parseChecksums_eq, parseChecksums_eq, hsame]

/-- A line in binary mode, with a directory and digits in upper case, between lines that say nothing. -/
def dumpLine : ChecksumLine where
  indent := ['\t']
  hash := String.ofList (List.replicate 64 'A')
  binary := true
  directory := some "data/2026"
  name := "discogs_20260101_artists.xml.gz"
  trail := [' ']
  indent_blank := List.forall_mem_singleton.2 (by decide)
  isDigest := ⟨by decide, List.all_eq_true.1 (by decide)⟩
  directory_newline := by
    intro directory hdirectory
    obtain rfl := Option.some.inj hdirectory
    decide
  isBasename := by
    refine ⟨⟨by decide, by decide, by decide, by decide⟩, by decide, by decide, by decide, ?_, ?_⟩
    · intro c hc
      obtain rfl := Option.some.inj hc
      decide
    · intro c hc
      obtain rfl := Option.some.inj hc
      decide
  trail_blank := List.forall_mem_singleton.2 (by decide)

def Line.blank : Line := .other [] (by decide) (by decide)

def dumpFile : Rendering where
  ended := [(.blank, .lf), (.checksum dumpLine, .crlf)]
  last := .other "-- end".toList (by decide) (by decide)

theorem parseChecksums_dumpFile :
    let checksums : Table String String :=
      AList.insert "discogs_20260101_artists.xml.gz" (String.ofList (List.replicate 64 'a')) ∅
    dumpFile.Renders checksums ∧ ∀ name,
      (parseChecksums dumpFile.text).lookup name = (checksums.lookup name).map DataType.lowercase := by
  have hrenders : dumpFile.Renders
      (AList.insert "discogs_20260101_artists.xml.gz" (String.ofList (List.replicate 64 'a')) ∅) := by
    refine ⟨fun line hline => ?_, fun name hash hlookup => ⟨dumpLine, List.mem_singleton.2 rfl, ?_⟩⟩
    · obtain rfl : line = dumpLine := List.mem_singleton.1 hline
      exact ⟨_, AList.lookup_insert _, by decide +kernel⟩
    · by_contra hname
      have hnone := (AList.lookup_insert_ne (Ne.symm hname)).symm.trans hlookup
      exact nomatch hnone
  exact ⟨hrenders, (parseChecksums_render hrenders).1⟩

end DiscogsIngestion.Downloader
