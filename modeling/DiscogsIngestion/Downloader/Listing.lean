import DiscogsIngestion.Downloader.Versions

/-!
# The listing of the dumps

The pages of the site, from their text to the files that they list.

* `yearPattern`, `filePattern`, `scrapeFileListFromDiscogs`, `listS3Files` : the pages, and the files they list;
* `listed`, `scrape_eq_ok`, `perm_shuffle` : what a site lists, whatever the order of the hash maps;
* `entry_key` : the date in the key of a listed file is its version;
* `Link`, `fileMatches_links` : a page of links lists their files.
-/

namespace DiscogsIngestion.Downloader

/-! ## The pages -/

/-- The parts of the downloader that are not in its source: the class `\d` of a pattern, and `urlencoding::decode`. -/
structure Library where
  isDecimal : Char → Bool
  decode : String → Option String

/-- Both leave plain ASCII text alone. -/
structure LibraryLaws (lib : Library) : Prop where
  ascii : ∀ c : Char, c.toNat < 128 → lib.isDecimal c = c.isDigit
  /-- What stands before an escape is kept. -/
  literal : ∀ a b : String, '%' ∉ a.toList → lib.decode (a ++ b) = (lib.decode b).map (a ++ ·)

/-- None if the request fails, and no body if it cannot be read. -/
abbrev PageResponse := Option (Nat × Option String)

/-- The responses to the requests for the index, for the newest year and for the next. -/
structure Site where
  index : PageResponse
  newest : PageResponse
  next : PageResponse

inductive ListingError where
  | get
  | status (code : Nat)
  | body
  | noYears
  | decode
  | noFiles
  deriving DecidableEq, Repr

section Listing

variable (lib : Library)

def digits (n : Nat) (l : List Char) : Option (List Char × List Char) :=
  if n ≤ l.length ∧ (l.take n).all lib.isDecimal then some (l.take n, l.drop n) else none

/-- `href="\?prefix=data%2F(\d{4})%2F"`. -/
def yearPattern (l : List Char) : Option (String × List Char) := do
  let l ← List.isPrefixOf? "href=\"?prefix=data%2F".toList l
  let (year, l) ← digits lib 4 l
  let l ← List.isPrefixOf? "%2F\"".toList l
  return (String.ofList year, l)

/-- `\?download=data%2F\d{4}%2F(discogs_(\d{8})_[^"]+)`, with both of its groups. -/
def filePattern (l : List Char) : Option ((String × String) × List Char) := do
  let l ← List.isPrefixOf? "?download=data%2F".toList l
  let (_, l) ← digits lib 4 l
  let l ← List.isPrefixOf? "%2Fdiscogs_".toList l
  let (version, l) ← digits lib 8 l
  let l ← List.isPrefixOf? "_".toList l
  let (name, l) := l.span (· ≠ '"')
  if name = [] then none
  else return (("discogs_" ++ String.ofList version ++ "_" ++ String.ofList name, String.ofList version), l)

def years (html : String) : List String := Words.scan (yearPattern lib) 0 html.toList

def fileMatches (html : String) : List (String × String) := Words.scan (filePattern lib) 0 html.toList

/-- The version and the file of a match on the page of a year. -/
def decodeMatch (year : String) (m : String × String) : Option (String × S3FileInfo) :=
  (lib.decode m.1).map fun name => (m.2, ⟨"data/" ++ year ++ "/" ++ name, 0⟩)

/-- Put a file with those of its version. -/
def addMatch (year : String) (ids : Table String (List S3FileInfo)) (m : String × String) :
    Except ListingError (Table String (List S3FileInfo)) :=
  match decodeMatch lib year m with
  | some e => .ok (Table.push ids e)
  | none => .error .decode

/-- A page that cannot be read adds nothing. -/
def addYear (ids : Table String (List S3FileInfo)) (page : String × PageResponse) :
    Except ListingError (Table String (List S3FileInfo)) :=
  match page.2 with
  | some (code, some html) =>
    if 200 ≤ code ∧ code ≤ 299 then (fileMatches lib html).foldlM (addMatch lib page.1) ids else .ok ids
  | _ => .ok ids

/-- The two newest years and their pages. -/
def recentPages (site : Site) (html : String) : List (String × PageResponse) :=
  (((years lib html).insertionSort (· ≥ ·)).take 2).zip [site.newest, site.next]

def scrapeFileListFromDiscogs (site : Site) : Except ListingError (Table String (List S3FileInfo)) :=
  match site.index with
  | none => .error .get
  | some (code, body) =>
    if code < 200 ∨ 299 < code then .error (.status code)
    else
      match body with
      | none => .error .body
      | some html =>
        if years lib html = [] then .error .noYears
        else do
          let ids ← (recentPages lib site html).foldlM (addYear lib) ∅
          if ids.entries = [] then .error .noFiles else return ids

structure Order where
  shuffle : List (List S3FileInfo) → List (List S3FileInfo)
  perm : ∀ groups, (shuffle groups).Perm groups

def listS3Files (order : Order) (site : Site) : Except ListingError (List S3FileInfo) := do
  let ids ← scrapeFileListFromDiscogs lib site
  return (order.shuffle ids.values).flatten

end Listing

/-! ## What a site lists -/

section Listed

variable (lib : Library)

/-- The files of a page with their versions; none if a name cannot be decoded. -/
def yearEntries (page : String × PageResponse) : Option (List (String × S3FileInfo)) :=
  match page.2 with
  | some (code, some html) =>
    if 200 ≤ code ∧ code ≤ 299 then (fileMatches lib html).mapM (decodeMatch lib page.1) else some []
  | _ => some []

/-- The files of the two newest years with their versions; none if the index or a name cannot be read. -/
def listed (site : Site) : Option (List (String × S3FileInfo)) :=
  match site.index with
  | some (code, some html) =>
    if 200 ≤ code ∧ code ≤ 299 then ((recentPages lib site html).mapM (yearEntries lib)).map (·.flatten) else none
  | _ => none

/-- A fold that decodes each entry decodes all of them first, but for the errors. -/
theorem foldlM_eq_elim {α β γ : Type} {f : γ → α → Except ListingError γ} {decode : α → Option β} {g : γ → β → γ}
    (h : ∀ c a, f c a = (decode a).elim (.error .decode) fun b => .ok (g c b)) (l : List α) (c : γ) :
    l.foldlM f c = (l.mapM decode).elim (.error .decode) fun bs => .ok (bs.foldl g c) := by
  induction l generalizing c with
  | nil => rfl
  | cons a l ih =>
    rw [List.foldlM_cons, h, List.mapM_cons]
    cases decode a with
    | none => rfl
    | some b =>
      show l.foldlM f (g c b) = _
      rw [ih]
      cases l.mapM decode <;> rfl

theorem exists_of_mem_mapM {α β : Type} {f : α → Option β} {l : List α} {bs : List β} (h : l.mapM f = some bs) :
    ∀ b ∈ bs, ∃ a ∈ l, f a = some b := by
  induction l generalizing bs with
  | nil =>
    obtain rfl := Option.some.inj h
    exact List.forall_mem_nil _
  | cons a l ih =>
    rw [List.mapM_cons] at h
    obtain ⟨b, hb, h⟩ := Option.bind_eq_some_iff.1 h
    obtain ⟨bs', hbs', h⟩ := Option.bind_eq_some_iff.1 h
    obtain rfl := Option.some.inj h
    refine List.forall_mem_cons.2 ⟨⟨a, List.mem_cons_self, hb⟩, fun b' hb' => ?_⟩
    obtain ⟨a', ha', hf⟩ := ih hbs' b' hb'
    exact ⟨a', List.mem_cons_of_mem _ ha', hf⟩

theorem addYear_eq (ids : Table String (List S3FileInfo)) (page : String × PageResponse) :
    addYear lib ids page = (yearEntries lib page).elim (.error .decode) fun es => .ok (es.foldl Table.push ids) := by
  unfold addYear yearEntries
  split
  · split_ifs
    · refine foldlM_eq_elim (fun ids m => ?_) _ ids
      unfold addMatch
      cases decodeMatch lib page.1 m <;> rfl
    · rfl
  · rfl

variable {lib} {site : Site} {entries : List (String × S3FileInfo)}

theorem group_eq_nil {l : List (String × S3FileInfo)} : (Table.group l).entries = [] ↔ l = [] := by
  constructor
  · intro h
    have hperm := Table.flatten_values_group l
    unfold Table.values at hperm
    rw [h] at hperm
    exact List.map_eq_nil_iff.1 (List.nil_perm.1 hperm)
  · rintro rfl
    rfl

theorem scrape_eq_ok {ids : Table String (List S3FileInfo)} : scrapeFileListFromDiscogs lib site = .ok ids ↔
    ∃ entries, listed lib site = some entries ∧ entries ≠ [] ∧ ids = Table.group entries := by
  unfold scrapeFileListFromDiscogs listed
  match site.index with
  | none => simp
  | some (code, none) => simp; split_ifs <;> nofun
  | some (code, some html) =>
    dsimp only
    by_cases hcode : 200 ≤ code ∧ code ≤ 299
    · rw [if_neg (by omega), if_pos hcode]
      by_cases hyears : years lib html = []
      · have hpages : recentPages lib site html = [] := by
          unfold recentPages
          rw [hyears]
          rfl
        rw [if_pos hyears, hpages]
        simp
      · rw [if_neg hyears, foldlM_eq_elim (addYear_eq lib)]
        cases (recentPages lib site html).mapM (yearEntries lib) with
        | none => simp; nofun
        | some es =>
          have hgroup : es.foldl (fun ids es => es.foldl Table.push ids) ∅ = Table.group es.flatten :=
            List.foldl_flatten.symm
          rw [Option.elim_some, Option.map_some, hgroup]
          show (if (Table.group es.flatten).entries = [] then Except.error ListingError.noFiles
            else .ok (Table.group es.flatten)) = .ok ids ↔ _
          simp only [group_eq_nil, Option.some.injEq, exists_eq_left']
          split_ifs with hempty
          · simp [hempty]
          · simp [hempty, eq_comm]
    · rw [if_pos (by omega), if_neg hcode]
      simp

/-! ## The dates of a listing -/

theorem isDecimal_of_digits {n : Nat} {l ds rest : List Char} (h : digits lib n l = some (ds, rest)) :
    ∀ c ∈ ds, lib.isDecimal c = true := by
  unfold digits at h
  split_ifs at h with hdigits
  obtain ⟨rfl, -⟩ := Prod.mk.inj (Option.some.inj h)
  exact List.all_eq_true.1 hdigits.2

theorem isDecimal_of_mem_years {html year : String} (h : year ∈ years lib html) :
    ∀ c ∈ year.toList, lib.isDecimal c = true := by
  obtain ⟨start, after, -, hmatch⟩ := Words.exists_of_mem_scan h
  unfold yearPattern at hmatch
  obtain ⟨l₁, -, hmatch⟩ := Option.bind_eq_some_iff.1 hmatch
  obtain ⟨⟨ds, l₂⟩, hdigits, hmatch⟩ := Option.bind_eq_some_iff.1 hmatch
  obtain ⟨l₃, -, hmatch⟩ := Option.bind_eq_some_iff.1 hmatch
  obtain ⟨rfl, -⟩ := Prod.mk.inj (Option.some.inj hmatch)
  rw [String.toList_ofList]
  exact isDecimal_of_digits hdigits

theorem of_mem_fileMatches {html : String} {m : String × String} (h : m ∈ fileMatches lib html) :
    (∀ c ∈ m.2.toList, lib.isDecimal c = true) ∧ ∃ name, m.1 = "discogs_" ++ m.2 ++ "_" ++ name := by
  obtain ⟨start, after, -, hmatch⟩ := Words.exists_of_mem_scan h
  unfold filePattern at hmatch
  obtain ⟨l₁, -, hmatch⟩ := Option.bind_eq_some_iff.1 hmatch
  obtain ⟨⟨ds, l₂⟩, -, hmatch⟩ := Option.bind_eq_some_iff.1 hmatch
  obtain ⟨l₃, -, hmatch⟩ := Option.bind_eq_some_iff.1 hmatch
  obtain ⟨⟨version, l₄⟩, hdigits, hmatch⟩ := Option.bind_eq_some_iff.1 hmatch
  obtain ⟨l₅, -, hmatch⟩ := Option.bind_eq_some_iff.1 hmatch
  dsimp only at hmatch
  split_ifs at hmatch
  obtain ⟨rfl, -⟩ := Prod.mk.inj (Option.some.inj hmatch)
  rw [String.toList_ofList]
  exact ⟨isDecimal_of_digits hdigits, _, rfl⟩

/-- Underscores and percent signs are no digits. -/
theorem not_mem_of_isDecimal (laws : LibraryLaws lib) {s : String} (h : ∀ c ∈ s.toList, lib.isDecimal c = true) :
    '_' ∉ s.toList ∧ '%' ∉ s.toList := by
  refine ⟨fun hmem => ?_, fun hmem => ?_⟩
  · have hdecimal := h _ hmem
    rw [laws.ascii '_' (by decide)] at hdecimal
    exact absurd hdecimal (by decide)
  · have hdecimal := h _ hmem
    rw [laws.ascii '%' (by decide)] at hdecimal
    exact absurd hdecimal (by decide)

theorem mem_recentPages {html : String} {page : String × PageResponse} (h : page ∈ recentPages lib site html) :
    page.1 ∈ years lib html := by
  unfold recentPages at h
  exact (List.mem_insertionSort _).1 (List.mem_of_mem_take (List.of_mem_zip h).1)

/-- The date in the key of a file is its version, whatever is decoded behind it. -/
theorem decodeMatch_key (laws : LibraryLaws lib) {html year : String} {m : String × String} {e : String × S3FileInfo}
    (hyear : ∀ c ∈ year.toList, lib.isDecimal c = true) (hm : m ∈ fileMatches lib html)
    (h : decodeMatch lib year m = some e) : (segments e.2.name)[1]? = some e.1 := by
  obtain ⟨hdecimal, name, hname⟩ := of_mem_fileMatches hm
  obtain ⟨hversion, hescape⟩ := not_mem_of_isDecimal laws hdecimal
  have hunescaped : '%' ∉ ("discogs_" ++ m.2 ++ "_").toList := by
    simp only [String.toList_append, List.mem_append, not_or]
    exact ⟨⟨by decide, hescape⟩, by decide⟩
  unfold decodeMatch at h
  rw [hname, laws.literal _ _ hunescaped] at h
  obtain ⟨decoded, hdecoded, rfl⟩ := Option.map_eq_some_iff.1 h
  obtain ⟨rest, -, rfl⟩ := Option.map_eq_some_iff.1 hdecoded
  have hkey : "data/" ++ year ++ "/" ++ ("discogs_" ++ m.2 ++ "_" ++ rest) =
      "data/" ++ year ++ "/discogs" ++ "_" ++ (m.2 ++ "_" ++ rest) := by
    apply String.toList_injective
    simp [String.toList_append]
  have hfirst : '_' ∉ ("data/" ++ year ++ "/discogs").toList := by
    simp only [String.toList_append, List.mem_append, not_or]
    exact ⟨⟨by decide, (not_mem_of_isDecimal laws hyear).1⟩, by decide⟩
  dsimp only
  rw [hkey, segments_append hfirst, segments_append hversion]
  rfl

theorem exists_of_mem_listed (h : listed lib site = some entries) {e : String × S3FileInfo} (he : e ∈ entries) :
    ∃ index html year m, year ∈ years lib index ∧ m ∈ fileMatches lib html ∧ decodeMatch lib year m = some e := by
  unfold listed at h
  split at h
  next code index hindex =>
    split_ifs at h
    obtain ⟨es, hes, rfl⟩ := Option.map_eq_some_iff.1 h
    obtain ⟨es', hes', he⟩ := List.mem_flatten.1 he
    obtain ⟨page, hpage, hentries⟩ := exists_of_mem_mapM hes es' hes'
    unfold yearEntries at hentries
    split at hentries
    next code' html hresponse =>
      split_ifs at hentries
      · obtain ⟨m, hm, hdecode⟩ := exists_of_mem_mapM hentries e he
        exact ⟨index, html, page.1, m, mem_recentPages hpage, hm, hdecode⟩
      · obtain rfl := Option.some.inj hentries
        exact absurd he List.not_mem_nil
    next =>
      obtain rfl := Option.some.inj hentries
      exact absurd he List.not_mem_nil
  next => exact nomatch h

theorem entry_key (laws : LibraryLaws lib) (h : listed lib site = some entries) {e : String × S3FileInfo}
    (he : e ∈ entries) : (segments e.2.name)[1]? = some e.1 := by
  obtain ⟨index, html, year, m, hyear, hm, hdecode⟩ := exists_of_mem_listed h he
  exact decodeMatch_key laws (isDecimal_of_mem_years hyear) hm hdecode

theorem listS3Files_eq_ok {order : Order} {files : List S3FileInfo} : listS3Files lib order site = .ok files ↔
    ∃ entries, listed lib site = some entries ∧ entries ≠ [] ∧
      files = (order.shuffle (Table.group entries).values).flatten := by
  unfold listS3Files
  cases hscrape : scrapeFileListFromDiscogs lib site with
  | error e =>
    refine ⟨nofun, ?_⟩
    rintro ⟨entries, hlisted, hne, -⟩
    rw [scrape_eq_ok.2 ⟨entries, hlisted, hne, rfl⟩] at hscrape
    exact nomatch hscrape
  | ok ids =>
    obtain ⟨entries, hlisted, hne, rfl⟩ := scrape_eq_ok.1 hscrape
    constructor
    · intro h
      exact ⟨entries, hlisted, hne, (Except.ok.inj h).symm⟩
    · rintro ⟨entries', hlisted', -, rfl⟩
      rw [hlisted] at hlisted'
      obtain rfl := Option.some.inj hlisted'
      rfl

theorem perm_shuffle (order : Order) (entries : List (String × S3FileInfo)) :
    (order.shuffle (Table.group entries).values).flatten.Perm (entries.map (·.2)) :=
  (order.perm _).flatten.trans (Table.flatten_values_group entries)

end Listed

/-! ## Pages of links -/

structure Link where
  year : String
  version : String
  name : String

def Link.target (link : Link) : List Char :=
  "?download=data%2F".toList ++ (link.year.toList ++ ("%2Fdiscogs_".toList ++ (link.version.toList ++
    ("_".toList ++ link.name.toList))))

def Link.text (link : Link) : List Char :=
  "<a href=\"".toList ++ (link.target ++ ("\">".toList ++ (link.name.toList ++ "</a>\n".toList)))

/-- The parts of a link are of the form that the pattern wants, without quotes and question marks in the name. -/
structure Link.WellFormed (lib : Library) (link : Link) : Prop where
  year : link.year.toList.length = 4 ∧ ∀ c ∈ link.year.toList, lib.isDecimal c = true
  version : link.version.toList.length = 8 ∧ ∀ c ∈ link.version.toList, lib.isDecimal c = true
  nonempty : link.name ≠ ""
  quote : '"' ∉ link.name.toList
  mark : '?' ∉ link.name.toList

section Links

variable {lib : Library} {link : Link}

theorem isPrefixOf?_append (l rest : List Char) : List.isPrefixOf? l (l ++ rest) = some rest :=
  List.isPrefixOf?_eq_some_iff_append_eq.2 rfl

theorem digits_append {n : Nat} {ds : List Char} (h : ds.length = n ∧ ∀ c ∈ ds, lib.isDecimal c = true)
    (rest : List Char) : digits lib n (ds ++ rest) = some (ds, rest) := by
  obtain ⟨rfl, hall⟩ := h
  unfold digits
  rw [List.take_left, List.drop_left, if_pos ⟨by simp, List.all_eq_true.2 hall⟩]

theorem filePattern_target (h : link.WellFormed lib) (rest : List Char) :
    filePattern lib (link.target ++ '"' :: rest) =
      some (("discogs_" ++ link.version ++ "_" ++ link.name, link.version), '"' :: rest) := by
  have hname : ∀ c ∈ link.name.toList, decide (c ≠ '"') = true := by
    intro c hc
    exact decide_eq_true fun heq => h.quote (heq ▸ hc)
  have hspan : (link.name.toList ++ '"' :: rest).span (· ≠ '"') = (link.name.toList, '"' :: rest) := by
    rw [List.span_eq_takeWhile_dropWhile, List.takeWhile_append_of_pos hname, List.dropWhile_append_of_pos hname,
      List.takeWhile_cons_of_neg (by decide), List.dropWhile_cons_of_neg (by decide), List.append_nil]
  have hne : link.name.toList ≠ [] := fun hnil => h.nonempty (String.toList_eq_nil_iff.1 hnil)
  unfold filePattern Link.target
  simp only [List.append_assoc, isPrefixOf?_append, digits_append h.year, digits_append h.version, Option.bind_eq_bind,
    Option.bind_some, hspan, if_neg hne, String.ofList_toList]
  rfl

/-- Only a question mark begins a match. -/
theorem filePattern_cons {c : Char} (h : c ≠ '?') (rest : List Char) : filePattern lib (c :: rest) = none := by
  have hstart : "?download=data%2F".toList = '?' :: "download=data%2F".toList := by decide
  unfold filePattern
  rw [hstart, List.isPrefixOf?, if_neg (by simpa using h.symm)]
  rfl

theorem fileMatches_links {links : List Link} (h : ∀ link ∈ links, link.WellFormed lib) :
    fileMatches lib (String.ofList (links.flatMap Link.text)) =
      links.map fun link => ("discogs_" ++ link.version ++ "_" ++ link.name, link.version) := by
  unfold fileMatches
  rw [String.toList_ofList]
  induction links with
  | nil => rfl
  | cons link links ih =>
    obtain ⟨hlink, hlinks⟩ := List.forall_mem_cons.1 h
    have hskip : ∀ l : List Char, '?' ∉ l → ∀ c ∈ l, ∀ rest, filePattern lib (c :: rest) = none :=
      fun l hl c hc => filePattern_cons fun heq => hl (heq ▸ hc)
    have hbehind : '?' ∉ '>' :: link.name.toList ++ "</a>\n".toList := by
      simp only [List.cons_append, List.mem_cons, List.mem_append, not_or]
      exact ⟨by decide, hlink.mark, by decide⟩
    have htext : Link.text link = "<a href=\"".toList ++
        (link.target ++ ('"' :: ('>' :: link.name.toList ++ "</a>\n".toList))) :=
      rfl
    have htarget : link.target ≠ [] := List.append_ne_nil_of_left_ne_nil (by decide) _
    rw [List.flatMap_cons, List.map_cons, ← ih hlinks, htext, List.append_assoc, List.append_assoc,
      Words.scan_append_of_none (hskip _ (by decide)), List.cons_append,
      Words.scan_append_of_some htarget (filePattern_target hlink _), ← List.cons_append,
      Words.scan_append_of_none (hskip _ (by simpa using hbehind))]

end Links

end DiscogsIngestion.Downloader
