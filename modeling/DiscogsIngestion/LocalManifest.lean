import DiscogsIngestion.Names
import DiscogsIngestion.Text

/-!
# Names in a local manifest

* `validateFileName` : the check of the one file name, with the texts of its errors;
* `IsVersion` : eight digits;
* `validateFileName_eq_ok` : the names that are accepted; `extract_of_valid` : what the orchestrator reads from
  them.
-/

namespace DiscogsIngestion.LocalManifest

/-- `YYYYMMDD`. -/
structure IsVersion (version : String) : Prop where
  length : version.toList.length = 8
  digits : ∀ c ∈ version.toList, c.isDigit = true

def isVersion (version : String) : Bool := version.utf8ByteSize = 8 ∧ version.toList.all Char.isDigit

def parseDataType (s : String) : Except String DataType :=
  match DataType.fromStr s with
  | some dataType => .ok dataType
  | none => .error ("Unknown data type: " ++ s)

def validateFileName (fileName : String) : Except String DataType :=
  match (stripPrefix "discogs_" fileName).bind (stripSuffix ".xml.gz") with
  | none => .error ("Local manifest input is not a Discogs XML gzip file: " ++ fileName)
  | some body =>
    match splitOnce '_' body with
    | none => .error ("Local manifest input has no versioned data type: " ++ fileName)
    | some (version, dataType) =>
      if isVersion version then
        match parseDataType dataType with
        | .error message => .error message
        | .ok dataType =>
          if dataType ∈ DataType.discogs then .ok dataType
          else .error ("Local manifest input names a non-Discogs data type: " ++ dataType.asStr)
      else .error ("Local manifest input version must be YYYYMMDD: " ++ fileName)

variable {fileName version part : String} {dt : DataType}

theorem isVersion_iff : isVersion version = true ↔ IsVersion version := by
  have hbytes : (∀ c ∈ version.toList, c.isDigit = true) → version.utf8ByteSize = version.toList.length := by
    refine fun h => utf8ByteSize_eq_length fun c hc => ?_
    have hdigit := h c hc
    unfold Char.isDigit at hdigit
    rw [Bool.and_eq_true, decide_eq_true_eq, decide_eq_true_eq] at hdigit
    exact le_trans (UInt32.le_iff_toNat_le.1 hdigit.2) (by decide)
  unfold isVersion
  rw [decide_eq_true_eq, List.all_eq_true]
  constructor
  · rintro ⟨hsize, hdigits⟩
    exact ⟨(hbytes hdigits).symm.trans hsize, hdigits⟩
  · intro h
    exact ⟨(hbytes h.digits).trans h.length, h.digits⟩

theorem not_mem_of_isVersion (h : IsVersion version) : '_' ∉ version.toList := by
  intro hmem
  exact absurd (h.digits '_' hmem) (by decide)

theorem not_mem_of_lowercase (h : DataType.lowercase part = dt.asStr) {c : Char} (hc : c = '_' ∨ c = '.') :
    c ∉ part.toList := by
  intro hmem
  have hlower : c.toLower ∈ dt.asStr.toList := by
    rw [← h]
    unfold DataType.lowercase
    rw [String.toList_ofList]
    exact List.mem_map_of_mem hmem
  revert hlower
  rcases hc with rfl | rfl <;> cases dt <;> decide

/-- The names that are accepted. -/
theorem validateFileName_eq_ok : validateFileName fileName = .ok dt ↔
    ∃ version part, fileName = "discogs_" ++ (version ++ "_" ++ part ++ ".xml.gz") ∧ IsVersion version ∧
      DataType.lowercase part = dt.asStr := by
  have hunderscore : String.singleton '_' = "_" := rfl
  have hall : ∀ dt : DataType, dt ∈ DataType.discogs := by
    intro dt
    cases dt <;> decide
  unfold validateFileName
  constructor
  · intro h
    cases hbody : (stripPrefix "discogs_" fileName).bind (stripSuffix ".xml.gz") with
    | none =>
      rw [hbody] at h
      exact nomatch h
    | some body =>
      rw [hbody] at h
      obtain ⟨rest, hstart, hsuffix⟩ := Option.bind_eq_some_iff.1 hbody
      obtain rfl := stripPrefix_eq_some.1 hstart
      obtain rfl := stripSuffix_eq_some.1 hsuffix
      dsimp only at h
      cases hsplit : splitOnce '_' body with
      | none =>
        rw [hsplit] at h
        exact nomatch h
      | some parts =>
        obtain ⟨version, part⟩ := parts
        rw [hsplit] at h
        dsimp only at h
        split_ifs at h with hversion
        unfold parseDataType at h
        cases hpart : DataType.fromStr part with
        | none =>
          rw [hpart] at h
          exact nomatch h
        | some dt' =>
          rw [hpart] at h
          dsimp only at h
          rw [if_pos (hall dt')] at h
          obtain rfl := Except.ok.inj h
          obtain ⟨rfl, -⟩ := splitOnce_eq_some.1 hsplit
          exact ⟨version, part, rfl, isVersion_iff.1 hversion, fromStr_eq_some.1 hpart⟩
  · rintro ⟨version, part, rfl, hversion, hpart⟩
    have hsplit : splitOnce '_' (version ++ "_" ++ part) = some (version, part) :=
      splitOnce_eq_some.2 ⟨by rw [hunderscore], not_mem_of_isVersion hversion⟩
    rw [stripPrefix_eq_some.2 rfl, Option.bind_some, stripSuffix_eq_some.2 rfl]
    dsimp only
    rw [hsplit]
    dsimp only
    rw [if_pos (isVersion_iff.2 hversion)]
    unfold parseDataType
    rw [fromStr_eq_some.2 hpart]
    exact if_pos (hall dt)

/-- What the orchestrator and the state marker read from a name that is accepted. -/
theorem segments_of_valid (hversion : IsVersion version) (hpart : DataType.lowercase part = dt.asStr) :
    segments ("discogs_" ++ (version ++ "_" ++ part ++ ".xml.gz")) = ["discogs", version, part ++ ".xml.gz"] := by
  have hlast : '_' ∉ (part ++ ".xml.gz").toList := by
    rw [String.toList_append, List.mem_append, not_or]
    exact ⟨not_mem_of_lowercase hpart (.inl rfl), by decide⟩
  have hname : "discogs_" ++ (version ++ "_" ++ part ++ ".xml.gz") =
      "discogs" ++ "_" ++ (version ++ "_" ++ (part ++ ".xml.gz")) := by
    have hsplit : "discogs_" = "discogs" ++ "_" := by decide
    rw [hsplit, @String.append_assoc (version ++ "_") part]
  rw [hname, segments_append (by decide), segments_append (not_mem_of_isVersion hversion), segments_self hlast]

/-- The orchestrator reads from an accepted name what the check has read. -/
theorem extract_of_valid (h : validateFileName fileName = .ok dt) : extractDataType fileName = some dt ∧
    ∃ version, extractVersionFromFilename fileName = some version ∧ IsVersion version := by
  obtain ⟨version, part, rfl, hversion, hpart⟩ := validateFileName_eq_ok.1 h
  have hstem : stem (part ++ ".xml.gz") = part := by
    have hdot : ".xml.gz" = "." ++ "xml.gz" := by decide
    rw [hdot, ← String.append_assoc, stem_append (not_mem_of_lowercase hpart (.inr rfl))]
  have hthird : ["discogs", version, part ++ ".xml.gz"][2]? = some (part ++ ".xml.gz") := rfl
  unfold extractDataType extractVersionFromFilename
  rw [segments_of_valid hversion hpart, hthird, Option.bind_some, hstem]
  exact ⟨fromStr_eq_some.2 hpart, version, rfl, hversion⟩

end DiscogsIngestion.LocalManifest
