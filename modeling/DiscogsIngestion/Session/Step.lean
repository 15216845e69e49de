import DiscogsIngestion.Session.Machine

/-!
# What a step of a run can do

* `TaskStep`, `Step` : the enabled steps, one constructor for each branch, with their guards as propositions;
* `Step.of_step` : every step of the machine is one of them.
-/

namespace DiscogsIngestion.Session

variable {β : Type} {cfg : Config β} {s s' : State β} {a : Action β}

/-! ## Inversion -/

/-- What `process_discogs_data` does with a task that stands ready. -/
inductive TaskStep (cfg : Config β) (s : State β) (i : Nat) (t : Task) : TaskAction → State β → Prop where
  | skip : t.pc = .queued → s.shutdown = true → TaskStep cfg s i t .skip (s.setTask i { t with pc := .skipped })
  | connected : t.pc = .queued → TaskStep cfg s i t (.connect true) (s.setTask i { t with pc := .connected })
  | connectFailed : t.pc = .queued → TaskStep cfg s i t (.connect false) (s.setTask i { t with pc := .failed })
  | startInvalid (saved : Bool) : t.pc = .connected → extractDataType t.file = none →
      TaskStep cfg s i t (.start saved) (s.setTask i { t with pc := .failed })
  | start (saved : Bool) {dt : DataType} : t.pc = .connected → extractDataType t.file = some dt →
      TaskStep cfg s i t (.start saved)
        (((s.openEntry t.file).save saved).setTask i
          { t with attempt := s.nextAttempt, pc := if saved then .started else .failed })
  | setupExchange : t.pc = .started → s.disk t.file = none →
      TaskStep cfg s i t (.setupExchange true) (s.setTask i { t with pc := .running })
  | setupAndOpen {content : β} : t.pc = .started → s.disk t.file = some content →
      TaskStep cfg s i t (.setupExchange true)
        ((s.record (.opened t.file t.attempt content)).setTask i { t with pc := .running })
  | setupFailed : t.pc = .started →
      TaskStep cfg s i t (.setupExchange false) (s.setTask i { t with pc := .failed })
  | published (outcome : Outcome) : t.pc = .running ∨ t.pc = .lingering → outcome.accepted = true →
      TaskStep cfg s i t (.publish outcome) (s.record (.published t.file t.attempt s.clock))
  | notPublished (outcome : Outcome) : outcome.accepted = false → TaskStep cfg s i t (.publish outcome) s
  | checkpoint (records batches : Nat) (saved : Bool) : t.pc = .running ∨ t.pc = .lingering →
      TaskStep cfg s i t (.checkpoint records batches saved)
        ((s.update (·.updateFileProgress t.file records records batches s.clock)).save saved)
  | pipelineFailed : t.pc = .running → TaskStep cfg s i t .pipelineFailed (s.setTask i { t with pc := .lingering })
  | pipelineDone (total : Nat) : t.pc = .running →
      TaskStep cfg s i t (.pipelineDone total) (s.setTask i { t with pc := .piped total })
  | settle : t.pc = .lingering → TaskStep cfg s i t .settle (s.setTask i { t with pc := .failed })
  | fileComplete {total : Nat} : t.pc = .piped total →
      TaskStep cfg s i t (.sendFileComplete .confirmed)
        ((s.record (.fileComplete t.file t.attempt total)).setTask i { t with pc := .announced total })
  | fileCompleteUnconfirmed {total : Nat} : t.pc = .piped total →
      TaskStep cfg s i t (.sendFileComplete .unconfirmed)
        ((s.record (.fileComplete t.file t.attempt total)).setTask i { t with pc := .failed })
  | fileCompleteRefused {total : Nat} : t.pc = .piped total →
      TaskStep cfg s i t (.sendFileComplete .refused) (s.setTask i { t with pc := .failed })
  | completeFile (saved : Bool) {total : Nat} : t.pc = .announced total →
      TaskStep cfg s i t (.completeFile saved)
        ((((s.update (·.completeFileProcessing t.file total s.clock)).credit t.file t.attempt).save saved).setTask i
          { t with pc := if saved then .done else .failed })

inductive Step (cfg : Config β) (s : State β) : Action β → State β → Prop where
  | tick (duration : Nat) : Step cfg s (.tick duration) { s with clock := s.clock + duration }
  | requestShutdown : Step cfg s .requestShutdown { s with shutdown := true }
  | crash : Step cfg s .crash { s with shutdown := false, run := { s.run with tasks := [], pc := .idle } }
  | changeFile (file : String) (content : Option β) : s.run.pc = .idle → s.settled = true →
      Step cfg s (.changeFile file content) (s.writeFile file content)
  | changeMetadata (metadata : Table String TrustedFile) : s.run.pc = .idle → s.settled = true →
      Step cfg s (.changeMetadata metadata) { s with metadata }
  | beginSkip (source : Source) (force : Bool) (latest : List String) (readable : Bool) {version : String} :
      s.run.pc = .idle → s.settled = true → latest.head?.bind extractVersionFromFilename = some version →
      (loadMarker s force readable version).marker.shouldProcess = .skip →
      Step cfg s (.begin source force latest readable)
        (s.record (.decided version .skip latest (loadMarker s force readable version)))
  | beginReprocess (source : Source) (force : Bool) (latest : List String) (readable : Bool) {version : String} :
      s.run.pc = .idle → s.settled = true → latest.head?.bind extractVersionFromFilename = some version →
      (loadMarker s force readable version).marker.shouldProcess = .reprocess →
      Step cfg s (.begin source force latest readable)
        ((s.record (.decided version .reprocess latest (loadMarker s force readable version))).startRun source version
          latest (.new version s.clock))
  | beginContinue (source : Source) (force : Bool) (latest : List String) (readable : Bool) {version : String} :
      s.run.pc = .idle → s.settled = true → latest.head?.bind extractVersionFromFilename = some version →
      (loadMarker s force readable version).marker.shouldProcess = .continue →
      Step cfg s (.begin source force latest readable)
        ((s.record (.decided version .continue latest (loadMarker s force readable version))).startRun source version
          latest (loadMarker s force readable version))
  | downloadFailed : s.run.pc = .starting ∨ s.run.pc = .downloading ∨ (∃ n, s.run.pc = .fetching n) →
      Step cfg s .downloadFailed (s.goto .idle)
  | startDownload (published : Option (Table String String)) (saved : Bool) : s.run.pc = .starting →
      s.run.source = .downloader →
      Step cfg s (.startDownload published saved)
        (((s.update (·.startDownload s.run.latest.length s.clock)).save saved).enterLoop published)
  | alreadyHave (saved : Bool) {file : String} {rest : List String} : s.run.pc = .downloading →
      s.run.todo = file :: rest → s.needsDownload cfg file = false →
      Step cfg s (.alreadyHave saved)
        ((s.recordDownload file ((s.disk file).elim 0 cfg.size) saved).advance file rest)
  | startFile (saved : Bool) {file : String} {rest : List String} : s.run.pc = .downloading →
      s.run.todo = file :: rest → s.needsDownload cfg file = true →
      Step cfg s (.startFile saved)
        (((s.update (·.startFileDownload file s.clock)).save saved).goto (.fetching 1))
  | attemptFailed (left : Option β) {n : Nat} {file : String} {rest : List String} : s.run.pc = .fetching n →
      s.run.todo = file :: rest →
      Step cfg s (.attemptFailed left)
        ((s.writeFile file left).goto (if n < maxDownloadRetries then .fetching (n + 1) else .idle))
  | attemptDone (content : β) {n : Nat} {file : String} {rest : List String} : s.run.pc = .fetching n →
      s.run.todo = file :: rest →
      Step cfg s (.attemptDone content) (s.receive cfg file content)
  | rejectFile (removed : Bool) {size : Nat} {file : String} {rest : List String} : s.run.pc = .fetched size →
      s.run.todo = file :: rest → s.publishedAgrees file = false →
      Step cfg s (.rejectFile removed) (s.reject file removed)
  | saveFileMetadata (ok : Bool) {size : Nat} {file : String} {rest : List String} : s.run.pc = .fetched size →
      s.run.todo = file :: rest → s.publishedAgrees file = true →
      Step cfg s (.saveFileMetadata ok)
        (({ s with metadata := if ok then s.run.metadata else s.metadata } : State β).goto (.recording size))
  | recordFile (saved : Bool) {size : Nat} {file : String} {rest : List String} : s.run.pc = .recording size →
      s.run.todo = file :: rest →
      Step cfg s (.recordFile saved) ((s.recordDownload file size saved).advance file rest)
  | completeDownload (saved : Bool) : s.run.pc = .downloading → s.run.todo = [] →
      Step cfg s (.completeDownload saved)
        (((s.update (·.completeDownload s.clock)).save saved).goto .closing)
  | metadataSaved : s.run.pc = .closing →
      Step cfg s (.saveMetadata true) (({ s with metadata := s.run.metadata } : State β).goto .downloaded)
  | metadataFailed : s.run.pc = .closing → Step cfg s (.saveMetadata false) (s.goto .idle)
  | stage (content : β) {expectedSha256 : String} {size : Nat} {file : String} : s.run.pc = .starting →
      s.run.source = .localManifest expectedSha256 size → s.run.latest = [file] →
      cfg.sha256 content = expectedSha256 →
      Step cfg s (.stage content) ((s.writeFile file (some content)).goto .staged)
  | recordStaged {expectedSha256 : String} {size : Nat} {file : String} : s.run.pc = .staged →
      s.run.source = .localManifest expectedSha256 size → s.run.latest = [file] →
      Step cfg s (.recordStaged true) ((s.recordStaged file expectedSha256 size true).finishStaged file)
  | recordStagedFailed {expectedSha256 : String} {size : Nat} {file : String} : s.run.pc = .staged →
      s.run.source = .localManifest expectedSha256 size → s.run.latest = [file] →
      Step cfg s (.recordStaged false) ((s.recordStaged file expectedSha256 size false).goto .idle)
  | prepareNone (saved : Bool) : s.run.pc = .downloaded → s.setDataFiles.run.tracked.dataFiles = [] →
      Step cfg s (.prepare saved) (s.setDataFiles.goto .idle)
  | prepareFailed (saved : Bool) : s.run.pc = .downloaded → (openProcessing s.setDataFiles saved).2 = false →
      Step cfg s (.prepare saved) ((openProcessing s.setDataFiles saved).1.goto .idle)
  | prepare (saved : Bool) : s.run.pc = .downloaded → (openProcessing s.setDataFiles saved).2 = true →
      Step cfg s (.prepare saved) (spawn (openProcessing s.setDataFiles saved).1)
  | task {i : Nat} {t : Task} {action : TaskAction} {s' : State β} : s.run.tasks[i]? = some t →
      TaskStep cfg s i t action s' → Step cfg s (.task i action) s'
  | alreadyComplete (saved : Bool) : s.run.pc = .allDone → s.marker.summary.overallStatus = .completed →
      Step cfg s (.completeAll saved) (s.goto .idle)
  | completeAll (saved : Bool) : s.run.pc = .allDone →
      Step cfg s (.completeAll saved)
        (((s.update (·.completeProcessing s.clock)).save saved).goto (if saved then .completed else .idle))
  | joinOk (saved : Bool) : s.run.pc = .processing → (∀ t ∈ s.run.tasks, t.pc.ok = true) → s.shutdown = false →
      Step cfg s (.join saved)
        (((s.update (·.completeProcessing s.clock)).save saved).goto (if saved then .completed else .idle))
  | joinErr (saved : Bool) : s.run.pc = .processing → Step cfg s (.join saved) ((s.save saved).goto .idle)
  | connected {listing : List (String × FileProcessingStatus)} : s.run.pc = .completed →
      s.marker.processingPhase.progressByFile.IsListing listing →
      Step cfg s (.connect (some listing)) (s.goto (.announcing DataType.discogs true (recordCounts listing)))
  | connectFailed : s.run.pc = .completed → Step cfg s (.connect none) (s.goto .idle)
  | broadcast (outcome : Outcome) {dt : DataType} {rest : List DataType} {sent : Bool} {counts : Table String Nat} :
      s.run.pc = .announcing (dt :: rest) sent counts → outcome.accepted = true →
      Step cfg s (.broadcast outcome)
        ((s.record (.extractionComplete s.run.version dt s.run.processingStartedAt counts)).goto
          (.announcing rest (sent && outcome = .confirmed) counts))
  | broadcastRefused {dt : DataType} {rest : List DataType} {sent : Bool} {counts : Table String Nat} :
      s.run.pc = .announcing (dt :: rest) sent counts →
      Step cfg s (.broadcast .refused) (s.goto (.announcing rest false counts))
  | endBroadcast {sent : Bool} {counts : Table String Nat} : s.run.pc = .announcing [] sent counts →
      Step cfg s .endBroadcast (s.goto (if sent then .finalizing else .idle))
  | finalize (saved : Bool) : s.run.pc = .finalizing →
      Step cfg s (.finalize saved) (((s.update (·.completeExtraction)).save saved).goto .idle)

theorem TaskStep.of_taskStep {i : Nat} {t : Task} {action : TaskAction}
    (h : taskStep cfg s i t action = some s') : TaskStep cfg s i t action s' := by
  cases action with
  | skip =>
    obtain ⟨⟨⟨hpc, hdown⟩, -⟩, rfl⟩ := by simpa [taskStep] using h
    exact .skip hpc hdown
  | connect ok =>
    obtain ⟨⟨⟨hpc, -⟩, -⟩, rfl⟩ := by simpa [taskStep] using h
    cases ok with
    | true => exact .connected hpc
    | false => exact .connectFailed hpc
  | start saved =>
    by_cases hpc : t.pc = .connected
    · cases hdt : extractDataType t.file with
      | none =>
        obtain rfl := by simpa [taskStep, hpc, hdt] using h
        exact .startInvalid saved hpc hdt
      | some dt =>
        simp only [taskStep, hpc, if_true, hdt, Option.some.injEq] at h
        subst h
        exact .start saved hpc hdt
    · simp [taskStep, hpc] at h
  | setupExchange ok =>
    by_cases hpc : t.pc = .started
    · cases ok with
      | true =>
        cases hdisk : s.disk t.file with
        | none =>
          obtain rfl := by simpa [taskStep, hpc, hdisk] using h
          exact .setupExchange hpc hdisk
        | some content =>
          obtain rfl := by simpa [taskStep, hpc, hdisk] using h
          exact .setupAndOpen hpc hdisk
      | false =>
        obtain rfl := by simpa [taskStep, hpc] using h
        exact .setupFailed hpc
    · simp [taskStep, hpc] at h
  | publish outcome =>
    obtain ⟨hpc, hs⟩ := by simpa [taskStep] using h
    cases hacc : outcome.accepted with
    | true =>
      obtain rfl := by simpa [hacc] using hs
      refine .published outcome ?_ hacc
      cases hp : t.pc <;> simp_all [TaskPc.piping]
    | false =>
      obtain rfl := by simpa [hacc] using hs
      exact .notPublished outcome hacc
  | checkpoint records batches saved =>
    obtain ⟨hpc, rfl⟩ := by simpa [taskStep] using h
    refine .checkpoint records batches saved ?_
    cases hp : t.pc <;> simp_all [TaskPc.piping]
  | pipelineFailed =>
    obtain ⟨hpc, rfl⟩ := by simpa [taskStep] using h
    exact .pipelineFailed hpc
  | pipelineDone total =>
    obtain ⟨hpc, rfl⟩ := by simpa [taskStep] using h
    exact .pipelineDone total hpc
  | settle =>
    obtain ⟨hpc, rfl⟩ := by simpa [taskStep] using h
    exact .settle hpc
  | sendFileComplete outcome =>
    cases hpc : t.pc <;> simp only [taskStep, hpc, reduceCtorEq, Option.some.injEq] at h
    subst h
    cases outcome with
    | confirmed => exact .fileComplete hpc
    | unconfirmed => exact .fileCompleteUnconfirmed hpc
    | refused => exact .fileCompleteRefused hpc
  | completeFile saved =>
    cases hpc : t.pc <;> simp only [taskStep, hpc, reduceCtorEq, Option.some.injEq] at h
    subst h
    exact .completeFile saved hpc

theorem Step.of_step (h : step cfg s a = some s') : Step cfg s a s' := by
  cases a with
  | tick duration =>
    obtain rfl := Option.some.inj h
    exact .tick duration
  | requestShutdown =>
    obtain rfl := Option.some.inj h
    exact .requestShutdown
  | crash =>
    obtain rfl := Option.some.inj h
    exact .crash
  | changeFile file content =>
    obtain ⟨⟨hpc, hset⟩, rfl⟩ := by simpa [step] using h
    exact .changeFile file content hpc hset
  | changeMetadata metadata =>
    obtain ⟨⟨hpc, hset⟩, rfl⟩ := by simpa [step] using h
    exact .changeMetadata metadata hpc hset
  | begin source force latest readable =>
    cases hv : latest.head?.bind extractVersionFromFilename with
    | none => simp [step, hv] at h
    | some version =>
      simp only [step, hv, Option.ite_none_right_eq_some, Bool.and_eq_true, decide_eq_true_eq, Option.some.injEq] at h
      obtain ⟨⟨⟨hpc, hset⟩, -⟩, rfl⟩ := h
      cases hdec : (loadMarker s force readable version).marker.shouldProcess with
      | skip =>
        simpa [beginRun, hdec] using Step.beginSkip source force latest readable hpc hset hv hdec
      | reprocess =>
        simpa [beginRun, hdec, State.record] using Step.beginReprocess source force latest readable hpc hset hv hdec
      | «continue» =>
        simpa [beginRun, hdec] using Step.beginContinue source force latest readable hpc hset hv hdec
  | downloadFailed =>
    cases hpc : s.run.pc <;> simp only [step, hpc, reduceCtorEq, Option.some.injEq] at h <;> subst h <;>
      exact .downloadFailed (by simp [hpc])
  | startDownload published saved =>
    obtain ⟨⟨hpc, hsrc⟩, rfl⟩ := by simpa [step] using h
    exact .startDownload published saved hpc hsrc
  | alreadyHave saved =>
    cases htodo : s.run.todo with
    | nil => simp [step, htodo] at h
    | cons file rest =>
      obtain ⟨⟨hpc, hneed⟩, rfl⟩ := by simpa [step, htodo] using h
      exact .alreadyHave saved hpc htodo hneed
  | startFile saved =>
    cases htodo : s.run.todo with
    | nil => simp [step, htodo] at h
    | cons file rest =>
      obtain ⟨⟨hpc, hneed⟩, rfl⟩ := by simpa [step, htodo] using h
      exact .startFile saved hpc htodo hneed
  | attemptFailed left =>
    cases hpc : s.run.pc <;> cases htodo : s.run.todo <;>
      simp only [step, hpc, htodo, reduceCtorEq, Option.some.injEq] at h
    subst h
    exact .attemptFailed left hpc htodo
  | attemptDone content =>
    cases hpc : s.run.pc <;> cases htodo : s.run.todo <;>
      simp only [step, hpc, htodo, reduceCtorEq, Option.some.injEq] at h
    subst h
    exact .attemptDone content hpc htodo
  | rejectFile removed =>
    cases hpc : s.run.pc <;> cases htodo : s.run.todo <;>
      simp only [step, hpc, htodo, reduceCtorEq, Option.ite_none_left_eq_some, Option.some.injEq] at h
    obtain ⟨hagrees, rfl⟩ := h
    exact .rejectFile removed hpc htodo (by simpa using hagrees)
  | saveFileMetadata ok =>
    cases hpc : s.run.pc <;> cases htodo : s.run.todo <;>
      simp only [step, hpc, htodo, reduceCtorEq, Option.ite_none_right_eq_some, Option.some.injEq] at h
    obtain ⟨hagrees, rfl⟩ := h
    exact .saveFileMetadata ok hpc htodo hagrees
  | recordFile saved =>
    cases hpc : s.run.pc <;> cases htodo : s.run.todo <;>
      simp only [step, hpc, htodo, reduceCtorEq, Option.some.injEq] at h
    subst h
    exact .recordFile saved hpc htodo
  | completeDownload saved =>
    obtain ⟨⟨hpc, htodo⟩, rfl⟩ := by simpa [step] using h
    exact .completeDownload saved hpc htodo
  | saveMetadata ok =>
    obtain ⟨hpc, rfl⟩ := by simpa [step] using h
    cases ok with
    | true => exact .metadataSaved hpc
    | false => exact .metadataFailed hpc
  | stage content =>
    simp only [step] at h
    split at h
    · next hpc hsrc hlat =>
      obtain ⟨hsha, rfl⟩ := by simpa using h
      exact .stage content hpc hsrc hlat hsha
    · cases h
  | recordStaged saved =>
    simp only [step] at h
    split at h
    · next hpc hsrc hlat =>
      obtain rfl := Option.some.inj h
      cases saved with
      | true => exact .recordStaged hpc hsrc hlat
      | false => exact .recordStagedFailed hpc hsrc hlat
    · cases h
  | prepare saved =>
    obtain ⟨hpc, rfl⟩ := by simpa [step] using h
    by_cases hfiles : s.setDataFiles.run.tracked.dataFiles = []
    · simpa [Session.prepare, hfiles] using Step.prepareNone saved hpc hfiles
    · cases hopen : openProcessing s.setDataFiles saved with
      | mk s₁ opened =>
        cases opened with
        | true => simpa [Session.prepare, hfiles, hopen] using Step.prepare saved hpc (by rw [hopen])
        | false => simpa [Session.prepare, hfiles, hopen] using Step.prepareFailed saved hpc (by rw [hopen])
  | task i action =>
    cases ht : s.run.tasks[i]? with
    | none => simp [step, ht] at h
    | some t => exact .task ht (.of_taskStep (by simpa [step, ht] using h))
  | completeAll saved =>
    obtain ⟨hpc, hs⟩ := by simpa [step] using h
    split at hs
    · next hdone =>
      obtain rfl := Option.some.inj hs
      exact .alreadyComplete saved hpc hdone
    · obtain rfl := Option.some.inj hs
      exact .completeAll saved hpc
  | join saved =>
    obtain ⟨⟨hpc, -⟩, hs⟩ := by simpa [step] using h
    split at hs
    · next hok =>
      obtain rfl := Option.some.inj hs
      exact .joinOk saved hpc hok.1 hok.2
    · obtain rfl := Option.some.inj hs
      exact .joinErr saved hpc
  | connect listing =>
    cases listing with
    | none =>
      obtain ⟨hpc, rfl⟩ := by simpa [step] using h
      exact .connectFailed hpc
    | some listing =>
      obtain ⟨hpc, hlist, rfl⟩ := by simpa [step] using h
      exact .connected hpc hlist
  | broadcast outcome =>
    simp only [step] at h
    split at h
    · next dt rest sent counts hpc =>
      obtain rfl := Option.some.inj h
      cases outcome with
      | confirmed => exact .broadcast .confirmed hpc rfl
      | unconfirmed => exact .broadcast .unconfirmed hpc rfl
      | refused => simpa [Outcome.accepted] using Step.broadcastRefused hpc
    · cases h
  | endBroadcast =>
    simp only [step] at h
    split at h
    · next hpc =>
      obtain rfl := Option.some.inj h
      exact .endBroadcast hpc
    · cases h
  | finalize saved =>
    obtain ⟨hpc, rfl⟩ := by simpa [step] using h
    exact .finalize saved hpc

end DiscogsIngestion.Session
