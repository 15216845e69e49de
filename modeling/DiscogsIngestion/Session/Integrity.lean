import DiscogsIngestion.Session.Provenance

/-!
# What a download can be trusted for

* `Kept`, `kept_step` : the download loop is done with a file when disk, trust map and published hashes agree on it;
* `Audit`, `auditStep` : a run, with the trust map that it has loaded, the hashes that it has received and rejected,
  and what it has written to `.discogs_metadata.json`;
* `Trusted`, `trusted_step` : where the hashes of the trust map come from;
* `download_integrity` : what holds of every call of `download_discogs_data`;
* `staleTrust_written` : a hash from an earlier run is written, and the download that has it is rejected after that.
-/

namespace DiscogsIngestion.Session

variable {β : Type} {cfg : Config β} {s s' : State β} {a : Action β} {file : String}

/-! ## Files that are kept -/

/-- The published hash of the file, if there is one, is this one. -/
def Agrees (published : Option (Table String String)) (file hash : String) : Prop :=
  ∀ expected, published.bind (·.lookup file) = some expected → hash = expected

theorem State.agrees_of_publishedAgrees (h : s.publishedAgrees file = true) {info : TrustedFile}
    (hinfo : s.run.metadata.lookup file = some info) : Agrees s.run.published file info.checksum := by
  intro expected hexpected
  unfold publishedAgrees at h
  rw [hexpected, hinfo] at h
  simpa using h

theorem State.not_agrees_of_publishedAgrees (h : s.publishedAgrees file = false) {info : TrustedFile}
    (hinfo : s.run.metadata.lookup file = some info) : ¬Agrees s.run.published file info.checksum := by
  intro hno
  unfold publishedAgrees at h
  split at h
  next expected hexpected =>
    rw [hinfo] at h
    simp [hno expected hexpected] at h
  next => simp at h

theorem needsDownload_congr (hdisk : s'.disk file = s.disk file)
    (hmetadata : s'.run.metadata.lookup file = s.run.metadata.lookup file)
    (hpublished : s'.run.published = s.run.published) : s'.needsDownload cfg file = s.needsDownload cfg file := by
  unfold State.needsDownload State.shouldDownload State.publishedAgrees
  rw [hdisk, hmetadata, hpublished]

theorem Run.inFlight_of_not_early {r : Run} (h : r.pc.early = false) : r.inFlight = none := by
  unfold Run.inFlight
  cases hpc : r.pc <;> first | rfl | simp [hpc, Pc.early] at h

/-- The files that the loop has visited need no download. -/
structure Kept (cfg : Config β) (s : State β) : Prop where
  fresh : s.run.pc = .starting → s.run.downloaded = []
  files : s.run.source = .downloader → s.run.pc.early = true → ∀ file ∈ s.run.downloaded,
    s.needsDownload cfg file = false
  flight : s.run.source = .downloader → ∀ file, s.run.inFlight = some file → file ∉ s.run.downloaded
  recording : ∀ size, s.run.pc = .recording size → ∀ file, s.run.todo.head? = some file →
    s.publishedAgrees file = true
  saved : s.run.source = .downloader → s.run.pc = .downloaded → s.metadata = s.run.metadata

theorem Kept.of_not_early (h : s.run.pc.early = false) : Kept cfg s where
  fresh hpc := by simp [hpc, Pc.early] at h
  files _ hpc := by simp [hpc] at h
  flight _ file hflight := by
    rw [Run.inFlight_of_not_early h] at hflight
    cases hflight
  recording size hpc := by simp [hpc, Pc.early] at h
  saved _ hpc := by simp [hpc, Pc.early] at h

theorem Kept.same (h : Kept cfg s) (hrun : s'.run = s.run) (hdisk : s'.disk = s.disk)
    (hmetadata : s.run.pc.early = true → s'.metadata = s.metadata) : Kept cfg s' := by
  refine ⟨?_, ?_, ?_, ?_, ?_⟩
  · rw [hrun]
    exact h.fresh
  · intro hsource hpc f hf
    rw [hrun] at hsource hpc hf
    rw [needsDownload_congr (congrFun hdisk f) (by rw [hrun]) (by rw [hrun])]
    exact h.files hsource hpc f hf
  · rw [hrun]
    exact h.flight
  · intro size hpc f hf
    rw [hrun] at hpc hf
    unfold State.publishedAgrees
    rw [hrun]
    exact h.recording size hpc f hf
  · intro hsource hpc
    rw [hrun] at hsource hpc
    rw [hmetadata (by rw [hpc]; rfl), hrun]
    exact h.saved hsource hpc

theorem recordDownload_sameRun (file : String) (size : Nat) (saved : Bool) :
    (s.recordDownload file size saved).run.metadata = s.run.metadata ∧
      (s.recordDownload file size saved).run.published = s.run.published ∧
      (s.recordDownload file size saved).run.downloaded = s.run.downloaded ∧
      (s.recordDownload file size saved).run.source = s.run.source := by
  obtain ⟨m, hrun⟩ := recordDownload_run (s := s) file size saved
  rw [hrun]
  exact ⟨rfl, rfl, rfl, rfl⟩

/-- The loop moves on behind a file that needs no download. -/
theorem Kept.advance (h : Kept cfg s) (hpc : s.run.pc.early = true) {rest : List String} (size : Nat) (saved : Bool)
    (hfile : s.needsDownload cfg file = false) : Kept cfg ((s.recordDownload file size saved).advance file rest) := by
  obtain ⟨hmetadata, hpublished, hdownloaded, hsource⟩ := recordDownload_sameRun (s := s) file size saved
  refine ⟨fun hpc' => ?_, fun hsource' _ g hg => ?_, fun _ g hg => ?_, fun _ hpc' => ?_, fun _ hpc' => ?_⟩
  · simp [State.advance] at hpc'
  · have hsame : ((s.recordDownload file size saved).advance file rest).needsDownload cfg g =
        s.needsDownload cfg g := by
      apply needsDownload_congr
      · exact congrFun (recordDownload_disk file size saved) g
      · exact congrArg (fun metadata : Table String TrustedFile => metadata.lookup g) hmetadata
      · exact hpublished
    rw [hsame]
    have hmem : g ∈ s.run.downloaded ++ [file] := hdownloaded ▸ hg
    rcases List.mem_append.1 hmem with hold | hnew
    · exact h.files (hsource.symm.trans hsource') hpc g hold
    · rw [List.mem_singleton.1 hnew]
      exact hfile
  · simp [Run.inFlight, State.advance] at hg
  · simp [State.advance] at hpc'
  · simp [State.advance] at hpc'

theorem Kept.fly (h : Kept cfg s) (file : String) (hpc : s.run.pc.early = true) (hpc' : s'.run.inFlight = some file)
    (hsource : s'.run.source = s.run.source) (hpublished : s'.run.published = s.run.published)
    (hdownloaded : s'.run.downloaded = s.run.downloaded) (hnot : s.run.source = .downloader → file ∉ s.run.downloaded)
    (hdisk : ∀ g, g ≠ file → s'.disk g = s.disk g)
    (hmetadata : ∀ g, g ≠ file → s'.run.metadata.lookup g = s.run.metadata.lookup g)
    (hrecording : ∀ size, s'.run.pc = .recording size → s'.publishedAgrees file = true) : Kept cfg s' := by
  refine ⟨fun hpc'' => ?_, fun hsource' _ g hg => ?_, fun hsource' g hg => ?_, fun size hpc'' g hg => ?_,
    fun _ hpc'' => ?_⟩
  · simp [Run.inFlight, hpc''] at hpc'
  · rw [hdownloaded] at hg
    have hne : g ≠ file := by
      rintro rfl
      exact hnot (hsource.symm.trans hsource') hg
    rw [needsDownload_congr (hdisk g hne) (hmetadata g hne) hpublished]
    exact h.files (hsource.symm.trans hsource') hpc g hg
  · rw [hpc'] at hg
    obtain rfl := Option.some.inj hg
    rw [hdownloaded]
    exact hnot (hsource.symm.trans hsource')
  · simp only [Run.inFlight, hpc''] at hpc'
    rw [hg] at hpc'
    obtain rfl := Option.some.inj hpc'
    exact hrecording size hpc''
  · simp [Run.inFlight, hpc''] at hpc'

theorem Kept.rest (h : Kept cfg s) (hpc : s.run.pc.early = true)
    (hpc' : s'.run.pc = .closing ∨ s'.run.pc = .downloaded ∧ s'.metadata = s.run.metadata)
    (hsource : s'.run.source = s.run.source) (hpublished : s'.run.published = s.run.published)
    (hdownloaded : s'.run.downloaded = s.run.downloaded) (hdisk : s'.disk = s.disk)
    (hmetadata : s'.run.metadata = s.run.metadata) : Kept cfg s' := by
  refine ⟨fun hpc'' => ?_, fun hsource' _ g hg => ?_, fun _ g hg => ?_, fun size hpc'' => ?_, fun _ hpc'' => ?_⟩
  · rcases hpc' with hpc' | ⟨hpc', -⟩ <;> simp [hpc''] at hpc'
  · rw [hdownloaded] at hg
    rw [needsDownload_congr (congrFun hdisk g) (by rw [hmetadata]) hpublished]
    exact h.files (hsource.symm.trans hsource') hpc g hg
  · rcases hpc' with hpc' | ⟨hpc', -⟩ <;> simp [Run.inFlight, hpc'] at hg
  · rcases hpc' with hpc' | ⟨hpc', -⟩ <;> simp [hpc''] at hpc'
  · rcases hpc' with hpc' | ⟨-, hsaved⟩
    · simp [hpc''] at hpc'
    · rw [hsaved, hmetadata]

/-- A file whose bytes have just been received and that has the published hash. -/
theorem needsDownload_of_received {content : β} {info : TrustedFile} (hdisk : s.disk file = some content)
    (hinfo : s.run.metadata.lookup file = some info) (hsum : info.checksum = cfg.sha256 content)
    (hagrees : s.publishedAgrees file = true) : s.needsDownload cfg file = false := by
  unfold State.needsDownload State.shouldDownload
  rw [hdisk, hinfo, hagrees]
  simp [hsum]

theorem kept_startRun (source : Source) (version : String) (latest : List String) (tracked : Tracked) :
    Kept cfg (s.startRun source version latest tracked) := by
  refine ⟨fun _ => rfl, fun _ _ g hg => ?_, fun _ g hg => ?_, fun _ hpc => ?_, fun _ hpc => ?_⟩
  · simp [State.startRun] at hg
  · simp [State.startRun, Run.inFlight] at hg
  · simp [State.startRun] at hpc
  · simp [State.startRun] at hpc

theorem kept_step (h : Kept cfg s) (hverifying : Verifying cfg s) (hearly : s.run.pc.early = true → s.run.tasks = [])
    (hs : step cfg s a = some s') : Kept cfg s' := by
  have hstep := Step.of_step hs
  cases hstep with
  | tick => exact h.same rfl rfl fun _ => rfl
  | requestShutdown => exact h.same rfl rfl fun _ => rfl
  | changeFile _ _ hpc =>
    apply Kept.of_not_early
    show s.run.pc.early = false
    rw [hpc]
    rfl
  | changeMetadata _ hpc => exact h.same rfl rfl fun hno => by simp [hpc, Pc.early] at hno
  | beginSkip => exact h.same rfl rfl fun _ => rfl
  | beginReprocess => exact kept_startRun ..
  | beginContinue => exact kept_startRun ..
  | startDownload published saved hpc =>
    have hnone : s.run.downloaded = [] := h.fresh hpc
    refine ⟨fun hpc' => ?_, fun _ _ g hg => ?_, fun _ g hg => ?_, fun _ hpc' => ?_, fun _ hpc' => ?_⟩
    · exact hnone
    · have hmem : g ∈ s.run.downloaded := hg
      simp [hnone] at hmem
    · simp [Run.inFlight, State.enterLoop] at hg
    · simp [State.enterLoop] at hpc'
    · simp [State.enterLoop] at hpc'
  | @alreadyHave saved file rest hpc htodo hneeds =>
    exact h.advance (by rw [hpc]; rfl) _ saved hneeds
  | @startFile saved file rest hpc htodo hneeds =>
    refine h.fly file (by rw [hpc]; rfl) ?_ rfl rfl rfl ?_ (fun _ _ => rfl) (fun _ _ => rfl) ?_
    · show s.run.todo.head? = some file
      rw [htodo]
      rfl
    · intro hsource hmem
      rw [h.files hsource (by rw [hpc]; rfl) file hmem] at hneeds
      cases hneeds
    · intro size hpc'
      simp [State.goto] at hpc'
  | @attemptFailed left n file rest hpc htodo =>
    have hflight : s.run.inFlight = some file := by simp [Run.inFlight, hpc, htodo]
    by_cases hn : n < maxDownloadRetries
    · refine h.fly file (by rw [hpc]; rfl) ?_ rfl rfl rfl (fun hsource => h.flight hsource file hflight) ?_
        (fun _ _ => rfl) ?_
      · simp [Run.inFlight, State.goto, hn, State.writeFile, htodo]
      · intro g hg
        exact Function.update_of_ne hg _ _
      · intro size hpc'
        simp [State.goto, hn] at hpc'
    · apply Kept.of_not_early
      simp [State.goto, hn, Pc.early]
  | @attemptDone content n file rest hpc htodo =>
    have hflight : s.run.inFlight = some file := by simp [Run.inFlight, hpc, htodo]
    refine h.fly file (by rw [hpc]; rfl) ?_ rfl rfl rfl (fun hsource => h.flight hsource file hflight) ?_ ?_ ?_
    · show s.run.todo.head? = some file
      rw [htodo]
      rfl
    · intro g hg
      exact Function.update_of_ne hg _ _
    · intro g hg
      show (s.run.metadata.insert file _).lookup g = _
      rw [Table.lookup_insert_eq, if_neg hg]
    · intro size hpc'
      simp [State.receive] at hpc'
  | @saveFileMetadata ok size file rest hpc htodo hagrees =>
    have hflight : s.run.inFlight = some file := by simp [Run.inFlight, hpc, htodo]
    refine h.fly file (by rw [hpc]; rfl) ?_ rfl rfl rfl (fun hsource => h.flight hsource file hflight) (fun _ _ => rfl)
      (fun _ _ => rfl) fun _ _ => hagrees
    show s.run.todo.head? = some file
    rw [htodo]
    rfl
  | @recordFile saved size file rest hpc htodo =>
    obtain ⟨content, info, hdisk, hinfo, hsum⟩ := hverifying.received size (.inr hpc) file (by rw [htodo]; rfl)
    have hagrees := h.recording size hpc file (by rw [htodo]; rfl)
    exact h.advance (by rw [hpc]; rfl) size saved (needsDownload_of_received hdisk hinfo hsum hagrees)
  | completeDownload saved hpc =>
    exact h.rest (by rw [hpc]; rfl) (.inl rfl) rfl rfl rfl rfl rfl
  | metadataSaved hpc =>
    exact h.rest (by rw [hpc]; rfl) (.inr ⟨rfl, rfl⟩) rfl rfl rfl rfl rfl
  | @stage content expected size file hpc hsource =>
    have hno : s.run.source ≠ .downloader := by simp [hsource]
    refine ⟨fun hpc' => ?_, fun hsource' => absurd hsource' hno, fun hsource' => absurd hsource' hno,
      fun _ hpc' => ?_, fun hsource' => absurd hsource' hno⟩
    · simp [State.goto] at hpc'
    · simp [State.goto] at hpc'
  | @recordStaged expected size file hpc hsource =>
    obtain ⟨m, hrun⟩ := recordStaged_run (s := s) file expected size true
    have hno : (s.recordStaged file expected size true).run.source ≠ .downloader := by
      rw [hrun]
      simp [hsource]
    refine ⟨fun hpc' => ?_, fun hsource' => absurd hsource' hno, fun hsource' => absurd hsource' hno,
      fun _ hpc' => ?_, fun hsource' => absurd hsource' hno⟩
    · simp [State.finishStaged] at hpc'
    · simp [State.finishStaged] at hpc'
  | task ht htask =>
    by_cases hpc : s.run.pc.early = true
    · simp [hearly hpc] at ht
    · apply Kept.of_not_early
      rw [htask.pc]
      simpa using hpc
  | prepare saved =>
    apply Kept.of_not_early
    unfold spawn
    show Pc.early (if _ then _ else _) = false
    split_ifs <;> rfl
  | completeAll saved => exact .of_not_early (by cases saved <;> rfl)
  | joinOk saved => exact .of_not_early (by cases saved <;> rfl)
  | @endBroadcast sent => exact .of_not_early (by cases sent <;> rfl)
  | _ => exact .of_not_early rfl

/-! ## The trust map -/

/-- A state, with what the current run has done to the trust map. -/
structure Audit (β : Type) where
  state : State β
  /-- `.discogs_metadata.json` as the run has loaded it. -/
  loaded : Table String TrustedFile
  /-- Files whose download has been received, and its hash. -/
  received : List (String × String)
  /-- Files whose download did not have the published hash, and its hash. -/
  rejected : List (String × String)
  /-- What the run has written to `.discogs_metadata.json`. -/
  written : List (Table String TrustedFile)

def State.headHash (s : State β) : List (String × String) :=
  match s.run.todo.head? with
  | some file => ((s.run.metadata.lookup file).map fun info => (file, info.checksum)).toList
  | none => []

def Audit.observe (s : Audit β) (a : Action β) (s' : State β) : Audit β :=
  match a with
  | .begin _ _ _ _ => if s'.run.pc = .starting then ⟨s', s'.run.metadata, [], [], []⟩ else { s with state := s' }
  | .attemptDone _ => { s with state := s', received := s.received ++ s'.headHash }
  | .rejectFile _ => { s with state := s', rejected := s.rejected ++ s.state.headHash }
  | .saveFileMetadata true | .saveMetadata true => { s with state := s', written := s.written ++ [s'.metadata] }
  | _ => { s with state := s' }

def auditStep (cfg : Config β) (s : Audit β) (a : Action β) : Option (Audit β) :=
  (step cfg s.state a).map (s.observe a)

def Audit.init (s : State β) : Audit β := ⟨s, ∅, [], [], []⟩

/-- The hash of a file is the one that the run has loaded, or that of a download it has received. -/
def Audit.Known (s : Audit β) (file : String) (info : TrustedFile) : Prop :=
  s.loaded.lookup file = some info ∨ (file, info.checksum) ∈ s.received

/-- The hash of a file is the one that the run has loaded, or it does not differ from the published one. -/
def Audit.Accepted (s : Audit β) (file : String) (info : TrustedFile) : Prop :=
  s.loaded.lookup file = some info ∨ Agrees s.state.run.published file info.checksum

/-- Where the hashes come from. -/
structure Trusted (s : Audit β) : Prop where
  fresh : s.state.run.pc = .starting → s.state.run.metadata = s.loaded ∧ s.rejected = [] ∧ s.written = []
  known : s.state.run.pc.early = true → ∀ file info, s.state.run.metadata.lookup file = some info → s.Known file info
  accepted : s.state.run.pc.early = true → ∀ file info, s.state.run.metadata.lookup file = some info →
    s.Accepted file info ∨ (s.state.run.todo.head? = some file ∧ ∃ size, s.state.run.pc = .fetched size)
  written : ∀ T ∈ s.written, ∀ file info, T.lookup file = some info → s.Accepted file info
  rejected : ∀ file hash, (file, hash) ∈ s.rejected → ¬Agrees s.state.run.published file hash

theorem State.mem_headHash {hash : String} : (file, hash) ∈ s.headHash ↔
    s.run.todo.head? = some file ∧ ∃ info, s.run.metadata.lookup file = some info ∧ info.checksum = hash := by
  unfold headHash
  split
  next f hhead =>
    simp only [hhead, Option.some.injEq, Option.mem_toList, Option.map_eq_some_iff, Prod.mk.injEq]
    constructor
    · rintro ⟨info, hinfo, rfl, rfl⟩
      exact ⟨rfl, info, hinfo, rfl⟩
    · rintro ⟨rfl, info, hinfo, rfl⟩
      exact ⟨info, hinfo, rfl, rfl⟩
  next hhead => simp [hhead]

section Audit

variable {s : Audit β} {s' : State β}

theorem Audit.Accepted.published {file : String} {info : TrustedFile} (h : s.Accepted file info)
    (hpublished : s'.run.published = s.state.run.published) :
    ({ s with state := s' } : Audit β).Accepted file info := by
  rcases h with hloaded | hagrees
  · exact .inl hloaded
  · refine .inr ?_
    show Agrees s'.run.published file info.checksum
    rw [hpublished]
    exact hagrees

theorem Trusted.keep (h : Trusted s) (hpublished : s'.run.published = s.state.run.published)
    (hstart : s'.run.pc = .starting → s.state.run.pc = .starting)
    (hpc : s'.run.pc.early = true → s.state.run.pc.early = true ∧ s'.run.metadata = s.state.run.metadata)
    (haccepted : s'.run.pc.early = true → ∀ file info, s.state.run.metadata.lookup file = some info →
      s.Accepted file info ∨ (s'.run.todo.head? = some file ∧ ∃ size, s'.run.pc = .fetched size)) :
    Trusted { s with state := s' } where
  fresh hpc' := by
    have hearly : s'.run.pc.early = true := by
      rw [show s'.run.pc = .starting from hpc']
      rfl
    obtain ⟨hmetadata, hnone⟩ := h.fresh (hstart hpc')
    exact ⟨(hpc hearly).2.trans hmetadata, hnone⟩
  known hpc' file info hinfo := by
    obtain ⟨hearly, hmetadata⟩ := hpc hpc'
    exact h.known hearly file info (hmetadata ▸ hinfo)
  accepted hpc' file info hinfo := by
    obtain ⟨-, hmetadata⟩ := hpc hpc'
    rcases haccepted hpc' file info (hmetadata ▸ hinfo) with hold | hhead
    · exact .inl (hold.published hpublished)
    · exact .inr hhead
  written T hT file info hinfo := (h.written T hT file info hinfo).published hpublished
  rejected file hash hmem := by
    show ¬Agrees s'.run.published file hash
    rw [hpublished]
    exact h.rejected file hash hmem

theorem Trusted.same (h : Trusted s) (hrun : s'.run = s.state.run) : Trusted { s with state := s' } := by
  refine h.keep (by rw [hrun]) (by rw [hrun]; exact id) (by rw [hrun]; exact fun hpc => ⟨hpc, rfl⟩) ?_
  rw [hrun]
  exact h.accepted

theorem Trusted.stop (h : Trusted s) (hpublished : s'.run.published = s.state.run.published)
    (hpc : s'.run.pc.early = false) : Trusted { s with state := s' } := by
  have hno : s'.run.pc.early ≠ true := by simp [hpc]
  refine h.keep hpublished (fun hpc' => ?_) (fun hpc' => absurd hpc' hno) fun hpc' => absurd hpc' hno
  rw [hpc'] at hpc
  cases hpc

/-- Outside of the check of a download all that the trust map has is accepted. -/
theorem Trusted.accepted_of_ne (h : Trusted s) (hpc : s.state.run.pc.early = true)
    (hne : ∀ size, s.state.run.pc ≠ .fetched size) {file : String} {info : TrustedFile}
    (hinfo : s.state.run.metadata.lookup file = some info) : s.Accepted file info := by
  rcases h.accepted hpc file info hinfo with haccepted | ⟨-, size, hsize⟩
  · exact haccepted
  · exact absurd hsize (hne size)

/-- A step of the loop, the check of a download apart. -/
theorem Trusted.loop (h : Trusted s) {pc pc' : Pc} (hpc : s.state.run.pc = pc) (hearly : pc.early = true)
    (hne : ∀ size, pc ≠ .fetched size) (hpublished : s'.run.published = s.state.run.published)
    (hpc' : s'.run.pc = pc') (hstart : pc' ≠ .starting) (hmetadata : s'.run.metadata = s.state.run.metadata) :
    Trusted { s with state := s' } := by
  refine h.keep hpublished (fun hno => absurd (hpc'.symm.trans hno) hstart) (fun _ => ⟨?_, hmetadata⟩) ?_
  · rw [hpc]
    exact hearly
  · intro _ file info hinfo
    refine .inl (h.accepted_of_ne (by rw [hpc]; exact hearly) ?_ hinfo)
    rw [hpc]
    exact hne

/-- The trust map is written when what it has is accepted. -/
theorem Trusted.write (h : Trusted s) (hpc : s.state.run.pc ≠ .starting) {T : Table String TrustedFile}
    (haccepted : ∀ file info, T.lookup file = some info → s.Accepted file info) :
    Trusted { s with written := s.written ++ [T] } where
  fresh hpc' := absurd hpc' hpc
  known := h.known
  accepted := h.accepted
  written T' hT file info hinfo := by
    rcases List.mem_append.1 hT with hold | hnew
    · exact h.written T' hold file info hinfo
    · rw [List.mem_singleton.1 hnew] at hinfo
      exact haccepted file info hinfo
  rejected := h.rejected

/-- A run that is skipped starts nothing. -/
theorem Audit.observe_begin {source : Source} {force readable : Bool} {latest : List String}
    (h : s'.run.pc ≠ .starting) : s.observe (.begin source force latest readable) s' = { s with state := s' } :=
  if_neg h

theorem trusted_startRun (source : Source) (version : String) (latest : List String) (tracked : Tracked) (s : State β) :
    Trusted ⟨s.startRun source version latest tracked, (s.startRun source version latest tracked).run.metadata,
      [], [], []⟩ where
  fresh _ := ⟨rfl, rfl, rfl⟩
  known _ _ _ hinfo := .inl hinfo
  accepted _ _ _ hinfo := .inl (.inl hinfo)
  written T hT := by simp at hT
  rejected _ _ hmem := by simp at hmem

/-- The hash of a download is known and has yet to be accepted. -/
theorem Trusted.receive (h : Trusted s) {n : Nat} {file : String} {rest : List String}
    (hpc : s.state.run.pc = .fetching n) (htodo : s.state.run.todo = file :: rest) (content : β) :
    Trusted (s.observe (.attemptDone content) (s.state.receive cfg file content)) := by
  have hlookup : ∀ g, (s.state.receive cfg file content).run.metadata.lookup g =
      if g = file then some ⟨cfg.sha256 content, cfg.size content⟩ else s.state.run.metadata.lookup g :=
    fun g => Table.lookup_insert_eq ..
  have hhead : (s.state.receive cfg file content).run.todo.head? = some file := by
    show s.state.run.todo.head? = some file
    rw [htodo]
    rfl
  refine ⟨fun hpc' => ?_, fun _ g info hinfo => ?_, fun _ g info hinfo => ?_, h.written, h.rejected⟩
  · simp [Audit.observe, State.receive] at hpc'
  · have hinfo := (hlookup g).symm.trans hinfo
    split_ifs at hinfo with hg
    · obtain rfl := Option.some.inj hinfo
      refine .inr (List.mem_append_right _ (State.mem_headHash.2 ?_))
      rw [hg]
      exact ⟨hhead, ⟨cfg.sha256 content, cfg.size content⟩, (hlookup file).trans (if_pos rfl), rfl⟩
    · rcases h.known (by rw [hpc]; rfl) g info hinfo with hloaded | hreceived
      · exact .inl hloaded
      · exact .inr (List.mem_append_left _ hreceived)
  · have hinfo := (hlookup g).symm.trans hinfo
    split_ifs at hinfo with hg
    · exact .inr ⟨hg ▸ hhead, cfg.size content, rfl⟩
    · exact .inl (h.accepted_of_ne (by rw [hpc]; rfl) (by simp [hpc]) hinfo)

theorem TaskStep.trust {s s' : State β} {i : Nat} {t : Task} {action : TaskAction} (h : TaskStep cfg s i t action s') :
    s'.run.metadata = s.run.metadata ∧ s'.run.published = s.run.published ∧ s'.run.todo = s.run.todo := by
  cases h <;> exact ⟨rfl, rfl, rfl⟩

theorem trusted_step (h : Trusted s) {a : Action β} (hs : step cfg s.state a = some s') : Trusted (s.observe a s') := by
  have hstep := Step.of_step hs
  cases hstep with
  | tick => exact h.same rfl
  | requestShutdown => exact h.same rfl
  | crash => exact h.stop rfl rfl
  | changeFile => exact h.same rfl
  | changeMetadata => exact h.same rfl
  | @beginSkip source force latest readable version hpc =>
    have hno : (s.state.record (.decided version .skip latest (loadMarker s.state force readable version))).run.pc ≠
        .starting := fun hno => Pc.noConfusion (hpc.symm.trans hno)
    rw [Audit.observe_begin hno]
    exact h.same rfl
  | beginReprocess source force latest readable => exact trusted_startRun source _ latest _ _
  | beginContinue source force latest readable => exact trusted_startRun source _ latest _ _
  | startDownload published saved hpc =>
    obtain ⟨hmetadata, hrejected, hwritten⟩ := h.fresh hpc
    have hloaded : ∀ f info, s.state.run.metadata.lookup f = some info → s.loaded.lookup f = some info := by
      rw [hmetadata]
      exact fun _ _ hinfo => hinfo
    refine ⟨fun hpc' => ?_, fun _ f info hinfo => .inl (hloaded f info hinfo),
      fun _ f info hinfo => .inl (.inl (hloaded f info hinfo)), fun T hT => ?_, fun f hash hmem => ?_⟩
    · simp [Audit.observe, State.enterLoop] at hpc'
    · simp [Audit.observe, hwritten] at hT
    · simp [Audit.observe, hrejected] at hmem
  | alreadyHave saved hpc =>
    obtain ⟨hmetadata, hpublished, -⟩ := recordDownload_sameRun (s := s.state) _ _ saved
    exact h.loop hpc rfl (fun _ => Pc.noConfusion) hpublished rfl Pc.noConfusion hmetadata
  | startFile saved hpc => exact h.loop hpc rfl (fun _ => Pc.noConfusion) rfl rfl Pc.noConfusion rfl
  | @attemptFailed left n file rest hpc htodo =>
    refine h.loop hpc rfl (fun _ => Pc.noConfusion) rfl rfl ?_ rfl
    split_ifs <;> exact Pc.noConfusion
  | @attemptDone content n file rest hpc htodo => exact h.receive hpc htodo content
  | @rejectFile removed size file rest hpc htodo hagrees =>
    have hstop : Trusted { s with state := s.state.reject file removed } := h.stop rfl rfl
    refine ⟨fun hpc' => ?_, hstop.known, hstop.accepted, hstop.written, fun f hash hmem => ?_⟩
    · simp [Audit.observe, State.reject] at hpc'
    rcases List.mem_append.1 hmem with hold | hnew
    · exact hstop.rejected f hash hold
    · obtain ⟨hhead, info, hinfo, rfl⟩ := State.mem_headHash.1 hnew
      obtain rfl : file = f := by simpa [htodo] using hhead
      exact State.not_agrees_of_publishedAgrees hagrees hinfo
  | @saveFileMetadata ok size file rest hpc htodo hagrees =>
    have haccepted : ∀ f info, s.state.run.metadata.lookup f = some info → s.Accepted f info := by
      intro f info hinfo
      rcases h.accepted (by rw [hpc]; rfl) f info hinfo with haccepted | ⟨hhead, -⟩
      · exact haccepted
      · obtain rfl : file = f := by simpa [htodo] using hhead
        exact .inr (State.agrees_of_publishedAgrees hagrees hinfo)
    have hnext : ∀ metadata, Trusted { s with state :=
        ({ s.state with metadata } : State β).goto (.recording size) } := by
      intro metadata
      refine h.keep rfl (fun hno => ?_) (fun _ => ⟨by rw [hpc]; rfl, rfl⟩)
        fun _ f info hinfo => .inl (haccepted f info hinfo)
      simp [State.goto] at hno
    cases ok with
    | false => exact hnext s.state.metadata
    | true => exact (hnext s.state.run.metadata).write Pc.noConfusion fun f info hinfo => haccepted f info hinfo
  | recordFile saved hpc =>
    obtain ⟨hmetadata, hpublished, -⟩ := recordDownload_sameRun (s := s.state) _ _ saved
    exact h.loop hpc rfl (fun _ => Pc.noConfusion) hpublished rfl Pc.noConfusion hmetadata
  | completeDownload saved hpc => exact h.loop hpc rfl (fun _ => Pc.noConfusion) rfl rfl Pc.noConfusion rfl
  | metadataSaved hpc =>
    have hne : ∀ size, s.state.run.pc ≠ .fetched size := by simp [hpc]
    have hnext : Trusted { s with state :=
        ({ s.state with metadata := s.state.run.metadata } : State β).goto .downloaded } :=
      h.loop hpc rfl (fun _ => Pc.noConfusion) rfl rfl Pc.noConfusion rfl
    exact hnext.write Pc.noConfusion fun f info hinfo => h.accepted_of_ne (by rw [hpc]; rfl) hne hinfo
  | stage content hpc => exact h.loop hpc rfl (fun _ => Pc.noConfusion) rfl rfl Pc.noConfusion rfl
  | @recordStaged expected size file hpc =>
    obtain ⟨m, hrun⟩ := recordStaged_run (s := s.state) file expected size true
    have hpublished : (s.state.recordStaged file expected size true).run.published = s.state.run.published := by
      rw [hrun]
    have hmetadata : (s.state.recordStaged file expected size true).run.metadata = s.state.run.metadata := by
      rw [hrun]
    exact h.loop hpc rfl (fun _ => Pc.noConfusion) hpublished rfl Pc.noConfusion hmetadata
  | @recordStagedFailed expected size file =>
    obtain ⟨m, hrun⟩ := recordStaged_run (s := s.state) file expected size false
    have hpublished : (s.state.recordStaged file expected size false).run.published = s.state.run.published := by
      rw [hrun]
    exact h.stop hpublished rfl
  | prepareFailed saved =>
    obtain ⟨m, hrun⟩ := openProcessing_run (s := s.state.setDataFiles) saved
    exact h.stop ((congrArg Run.published hrun).trans rfl) rfl
  | prepare saved =>
    obtain ⟨m, hrun⟩ := openProcessing_run (s := s.state.setDataFiles) saved
    refine h.stop ((congrArg Run.published hrun).trans rfl) ?_
    unfold spawn
    show Pc.early (if _ then _ else _) = false
    split_ifs <;> rfl
  | task ht htask =>
    obtain ⟨hmetadata, hpublished, htodo⟩ := htask.trust
    refine h.keep hpublished (by rw [htask.pc]; exact id) (fun hpc => ⟨htask.pc ▸ hpc, hmetadata⟩) ?_
    rw [htask.pc, htodo]
    exact h.accepted
  | completeAll saved => exact h.stop rfl (by cases saved <;> rfl)
  | joinOk saved => exact h.stop rfl (by cases saved <;> rfl)
  | @endBroadcast sent => exact h.stop rfl (by cases sent <;> rfl)
  | _ => exact h.stop rfl rfl

end Audit

section Reach

variable {ok : Audit β → Action β → Prop} {disk : String → Option β} {metadata : Table String TrustedFile}
  {found : List (String × StateMarker)} {s : Audit β}

theorem Audit.observe_state (s : Audit β) (a : Action β) (s' : State β) : (s.observe a s').state = s' := by
  unfold Audit.observe
  split
  · split_ifs <;> rfl
  all_goals rfl

theorem reach_of_audit (h : Machine.Reach (auditStep cfg) ok (.init (State.init disk metadata found)) s) :
    Machine.Reach (step cfg) Machine.always (State.init disk metadata found) s.state := by
  induction h with
  | init => exact .init
  | step _ _ hs ih =>
    obtain ⟨s', hs', rfl⟩ := Option.map_eq_some_iff.1 hs
    rw [Audit.observe_state]
    exact ih.step trivial hs'

theorem kept_of_reach (h : Machine.Reach (step cfg) Machine.always (State.init disk metadata found) s.state) :
    Kept cfg s.state := by
  refine h.invariant_of (K := fun s => Verifying cfg s ∧ (s.run.pc.early = true → s.run.tasks = []))
    (fun s hr => ⟨verifying_of_reach hr, early_tasks hr⟩) (.of_not_early rfl) ?_
  rintro s a s' ⟨hverifying, hearly⟩ hI _ hs
  exact kept_step hI hverifying hearly hs

theorem trusted_of_reach (h : Machine.Reach (auditStep cfg) ok (.init (State.init disk metadata found)) s) :
    Trusted s := by
  refine h.invariant ?_ ?_
  · refine ⟨fun hpc => ?_, fun hpc => ?_, fun hpc => ?_, fun T hT => ?_, fun f hash hmem => ?_⟩
    · simp [Audit.init, State.init] at hpc
    · simp [Audit.init, State.init, Pc.early] at hpc
    · simp [Audit.init, State.init, Pc.early] at hpc
    · simp [Audit.init] at hT
    · simp [Audit.init] at hmem
  · intro s a s' hI _ hs
    obtain ⟨s', hs', rfl⟩ := Option.map_eq_some_iff.1 hs
    exact trusted_step hI hs'

theorem needsDownload_eq_false (h : s.state.needsDownload cfg file = false) :
    ∃ content info, s.state.disk file = some content ∧ s.state.run.metadata.lookup file = some info ∧
      info.checksum = cfg.sha256 content ∧ Agrees s.state.run.published file (cfg.sha256 content) := by
  obtain ⟨content, info, hdisk, hinfo, hsum⟩ := contents_of_needsDownload h
  unfold State.needsDownload at h
  simp only [Bool.or_eq_false_iff, Bool.not_eq_false'] at h
  exact ⟨content, info, hdisk, hinfo, hsum, hsum ▸ State.agrees_of_publishedAgrees h.2 hinfo⟩

/-- In every run on whatever is in `DISCOGS_ROOT` after crashes anywhere: (a) when `download_discogs_data` has
returned its files, each is on disk, with the hash that the saved metadata has and, if it is listed, the published
one; (b) a file is kept as it is only if its bytes have the hash that the trust map has, loaded or received in this
run, and the published hash if there is one; (c) the hash of a download that was rejected is in nothing that the run
has written, unless it was there when the run loaded its trust map. -/
theorem download_integrity
    (h : Machine.Reach (auditStep cfg) Machine.always (.init (State.init disk metadata found)) s) :
    (s.state.run.pc = .downloaded → s.state.run.source = .downloader → ∀ file ∈ s.state.run.downloaded,
      ∃ content info, s.state.disk file = some content ∧ s.state.metadata.lookup file = some info ∧
        info.checksum = cfg.sha256 content ∧ Agrees s.state.run.published file (cfg.sha256 content)) ∧
    (∀ saved s', step cfg s.state (.alreadyHave saved) = some s' → ∃ file rest content info,
      s.state.run.todo = file :: rest ∧ s.state.disk file = some content ∧
        s.state.run.metadata.lookup file = some info ∧ info.checksum = cfg.sha256 content ∧ s.Known file info ∧
        Agrees s.state.run.published file (cfg.sha256 content)) ∧
    (∀ file hash, (file, hash) ∈ s.rejected → ∀ T ∈ s.written, ∀ info, T.lookup file = some info →
      info.checksum = hash → s.loaded.lookup file = some info) := by
  have htrusted := trusted_of_reach h
  refine ⟨fun hpc hsource f hf => ?_, fun saved s' hs => ?_, fun f hash hmem T hT info hinfo hsum => ?_⟩
  · have hkept := kept_of_reach (reach_of_audit h)
    rw [hkept.saved hsource hpc]
    exact needsDownload_eq_false (hkept.files hsource (by rw [hpc]; rfl) f hf)
  · cases Step.of_step hs with
    | @alreadyHave _ f rest hpc htodo hneeds =>
      obtain ⟨content, info, hdisk, hinfo, hsum, hagrees⟩ := needsDownload_eq_false hneeds
      exact ⟨f, rest, content, info, htodo, hdisk, hinfo, hsum,
        htrusted.known (by rw [hpc]; rfl) f info hinfo, hagrees⟩
  · rcases htrusted.written T hT f info hinfo with hloaded | hagrees
    · exact hloaded
    · exact absurd (hsum ▸ hagrees) (htrusted.rejected f hash hmem)

end Reach

/-- A run that downloads labels, and artists that are not the published ones. -/
def staleTrust : List (Action String) :=
  [.begin .downloader false ["discogs_20260101_labels.xml.gz", "discogs_20260101_artists.xml.gz"] true,
    .startDownload (some ((∅ : Table ..).insert "discogs_20260101_artists.xml.gz" "dump")) true,
    .startFile true, .attemptDone "labels", .saveFileMetadata true, .recordFile true,
    .startFile true, .attemptDone "error page", .rejectFile true]

/-- An earlier run without `CHECKSUM` has trusted an error page. -/
def staleRoot : State String :=
  State.init (fun _ => none) ((∅ : Table ..).insert "discogs_20260101_artists.xml.gz" ⟨"error page", 10⟩) []

/-- The trust that an earlier run had in the error page is written along, before its download is rejected. -/
theorem staleTrust_written : ∃ s : Audit String,
    Machine.Reach (auditStep .plain) Machine.always (.init staleRoot) s ∧
      ∃ file hash, (file, hash) ∈ s.rejected ∧ ∃ T ∈ s.written, (T.lookup file).map (·.checksum) = some hash := by
  have hrun : (Machine.run (auditStep .plain) (.init staleRoot) staleTrust).any (fun s =>
      ("discogs_20260101_artists.xml.gz", "error page") ∈ s.rejected ∧
        s.written.any (fun T => (T.lookup "discogs_20260101_artists.xml.gz").map (·.checksum) = some "error page"))
          = true := by
    decide +kernel
  obtain ⟨s, hs, hfacts⟩ := (Option.any_eq_true ..).1 hrun
  obtain ⟨hrejected, hwritten⟩ := of_decide_eq_true hfacts
  obtain ⟨T, hT, hlookup⟩ := List.any_eq_true.1 hwritten
  exact ⟨s, .of_run staleTrust hs, _, _, hrejected, T, hT, of_decide_eq_true hlookup⟩

/-- What `CHECKSUM` lists, with contents that are their own hash. -/
def publishedPair : Table String String :=
  ((∅ : Table ..).insert "discogs_20260101_labels.xml.gz" "labels").insert "discogs_20260101_artists.xml.gz" "dump"

def labelledRoot : State String :=
  State.init (fun file => if file = "discogs_20260101_labels.xml.gz" then some "labels" else none)
    ((∅ : Table ..).insert "discogs_20260101_labels.xml.gz" ⟨"labels", 6⟩) []

def reachLabels : List (Action String) :=
  [.begin .downloader false ["discogs_20260101_labels.xml.gz", "discogs_20260101_artists.xml.gz"] true,
    .startDownload (some publishedPair) true]

/-- A run that keeps the labels and downloads the artists. -/
def keepAndFetch : List (Action String) :=
  reachLabels ++ [.alreadyHave true, .startFile true, .attemptDone "dump", .saveFileMetadata true, .recordFile true,
    .completeDownload true, .saveMetadata true]

/-- Two files of one run, one of which was there, and a download that is rejected. -/
theorem keepAndFetch_integrity :
    (∃ s : Audit String, s.state.run.downloaded.length = 2 ∧ s.state.run.published.isSome ∧
      ∀ file ∈ s.state.run.downloaded, ∃ content info, s.state.disk file = some content ∧
        s.state.metadata.lookup file = some info ∧ info.checksum = content ∧
        Agrees s.state.run.published file content) ∧
    (∃ (s : Audit String) (file : String) (rest : List String) (content : String) (info : TrustedFile),
      s.state.run.todo = file :: rest ∧ s.state.disk file = some content ∧
        s.state.run.metadata.lookup file = some info ∧ info.checksum = content ∧ s.Known file info ∧
        Agrees s.state.run.published file content) ∧
    ∃ s : Audit String, s.written ≠ [] ∧ s.rejected ≠ [] ∧
      ∀ file hash, (file, hash) ∈ s.rejected → ∀ T ∈ s.written, ∀ info, T.lookup file = some info →
        info.checksum = hash → s.loaded.lookup file = some info := by
  refine ⟨?_, ?_, ?_⟩
  · have hrun : (Machine.run (auditStep .plain) (.init labelledRoot) keepAndFetch).any (fun s =>
        (s.state.run.pc = .downloaded ∧ s.state.run.source = .downloader) ∧
          s.state.run.downloaded.length = 2 ∧ s.state.run.published.isSome) = true := by
      decide +kernel
    obtain ⟨s, hs, hfacts⟩ := (Option.any_eq_true ..).1 hrun
    obtain ⟨⟨hpc, hsource⟩, hlength, hpublished⟩ := of_decide_eq_true hfacts
    exact ⟨s, hlength, hpublished, (download_integrity (.of_run keepAndFetch hs)).1 hpc hsource⟩
  · have hrun : (Machine.run (auditStep .plain) (.init labelledRoot) reachLabels).any (fun s =>
        (step .plain s.state (.alreadyHave true)).isSome) = true := by
      decide +kernel
    obtain ⟨s, hs, hfacts⟩ := (Option.any_eq_true ..).1 hrun
    obtain ⟨s', hs'⟩ := Option.isSome_iff_exists.1 hfacts
    obtain ⟨file, rest, content, info, hkept⟩ := (download_integrity (.of_run reachLabels hs)).2.1 true s' hs'
    exact ⟨s, file, rest, content, info, hkept⟩
  · have hrun : (Machine.run (auditStep .plain) (.init staleRoot) staleTrust).any
        (fun s => ¬s.written.isEmpty ∧ ¬s.rejected.isEmpty) = true := by
      decide +kernel
    obtain ⟨s, hs, hfacts⟩ := (Option.any_eq_true ..).1 hrun
    obtain ⟨hwritten, hrejected⟩ := of_decide_eq_true hfacts
    exact ⟨s, by simpa using hwritten, by simpa using hrejected, (download_integrity (.of_run staleTrust hs)).2.2⟩

end DiscogsIngestion.Session
