import NsfwDetector.System.Attempts

/-!
# The two stores of the state, side by side

The queue and Postgres both keep the status, the attempts and the last error of a job. Each has its
own rules for them.
-/

namespace NsfwDetector.Attempts

open Effects Prog

variable {ν : Type} {env : Surrounding ν} {i : Caller} {settings : Settings}

section

variable (henv : env.Obeys Does i StatusCallsSucceed)

include henv

/-! ## From the commit on -/

/-- The final transaction changes Postgres as a whole, or it raises and changes nothing. -/
theorem finalTransaction_run (settings : Settings) (job : VideoJob) (frames : List FrameModerationResult)
    (result : VideoModerationResult) (action : Option StorageAction) (s : World × ν) :
    ∃ r s', (finalTransaction settings job frames result action).runIn env s = (r, s') ∧
      (((∃ e, r = .error e) ∧ s'.1 = s.1) ∨
        (r = .ok () ∧ ∃ now db,
          s.1.db.applyAll now (finalTx settings job frames result action) = .ok db ∧
            s'.1 = { s.1 with db := db })) := by
  have hexecute := readOnly_run henv ((Publication.executeAll_within []
    (finalTx settings job frames result action)).mono (fun op hop => by
      cases op with
      | execute => trivial
      | _ => exact hop.elim) fun _ h => h) s
  rw [finalTransaction]
  cases hrun : (executeAll [] (finalTx settings job frames result action)).runIn env s with
  | mk r t =>
    rw [hrun] at hexecute
    obtain ⟨ht, hall⟩ := hexecute
    cases r with
    | error e => exact ⟨_, t, runIn_bind_error hrun, .inl ⟨⟨e, rfl⟩, ht⟩⟩
    | ok tx =>
      obtain rfl : tx = finalTx settings job frames result action := by simpa using hall tx rfl
      rw [runIn_bind_ok hrun, commit]
      obtain ⟨o, hdoes, hseen, hsucceed⟩ := henv t (.commit (finalTx settings job frames result action))
      cases o with
      | answered now =>
        obtain ⟨db, hdb, hs'⟩ := hdoes
        exact ⟨_, _, runIn_perform_bind (Prod.ext hseen rfl), .inr ⟨rfl, now, db, ht ▸ hdb, ht ▸ hs'⟩⟩
      | refused e | failed e =>
        exact ⟨_, _, runIn_bind_error (Prod.ext hseen rfl), .inl ⟨⟨e, rfl⟩, hdoes.2.trans ht⟩⟩
      | lost now e => exact absurd trivial (hsucceed trivial).1

/-- A write of publication: it leaves the jobs of the queue alone. -/
theorem publish_run (s : World × ν) {command : Command} (hcommand : ∀ key job, command ≠ .hset key job) :
    ∃ s', env s (.writes [command]) = (.ok (), s') ∧ s'.1.db = s.1.db ∧
      s'.1.kv.hashes = s.1.kv.hashes := by
  obtain ⟨s', hrun, hs'⟩ := writes_run henv s [command]
  refine ⟨s', hrun, by rw [hs'], ?_⟩
  rw [hs']
  funext key
  rcases Kvrocks.apply_hashes s.1.kv command key with hsame | ⟨job, hcmd, -⟩
  · exact hsame
  · exact absurd hcmd (hcommand key job)

theorem publishAfterCommit_run (settings : Settings) (job : VideoJob) (metadata : VideoMetadata)
    (frames : List FrameModerationResult) (result : VideoModerationResult)
    (action : Option StorageAction) (s : World × ν) :
    ∃ s', (publishAfterCommit settings job metadata frames result action).runIn env s = (.ok (), s') ∧
      s'.1.db = s.1.db ∧ s'.1.kv.hashes = s.1.kv.hashes := by
  have hrpush : ∀ (k : String) (row : BufferRow) (key : String) (job : VideoJob),
      Command.rpush k row ≠ .hset key job := fun _ _ _ _ h => by cases h
  obtain ⟨now, s₁, hnow, hs₁⟩ := now_run henv s
  obtain ⟨s₂, hvideo, hdb₂, hkv₂⟩ := publish_run henv s₁ (hrpush settings.clickhouseBufferVideoResultsKey
    (.videoResult (toClickhouseVideoRow settings job metadata frames result action now)))
  obtain ⟨s₃, hlegacy, hdb₃, hkv₃⟩ := publish_run henv s₂ (hrpush settings.clickhouseBufferLegacyKey
    (.legacy (toLegacyNsfwAgg result)))
  obtain ⟨s₄, haction, hdb₄, hkv₄⟩ : ∃ s₄, (pushStorageAction settings action).runIn env s₃ = (.ok (), s₄) ∧
      s₄.1.db = s₃.1.db ∧ s₄.1.kv.hashes = s₃.1.kv.hashes := by
    cases action with
    | none => exact ⟨s₃, rfl, rfl, rfl⟩
    | some action =>
      obtain ⟨now', t, hnow', ht⟩ := now_run henv s₃
      obtain ⟨s₄, hpush, hdb₄, hkv₄⟩ := publish_run henv t (hrpush
        settings.clickhouseBufferStorageActionsKey
        (.storageAction (toClickhouseStorageActionRow action now')))
      exact ⟨s₄, (runIn_perform_bind hnow').trans hpush, by rw [hdb₄, ht], by rw [hkv₄, ht]⟩
  have hset : ∀ (key : String) (j : VideoJob),
      Command.setRuntime (runtimeKey settings job.videoId) (runtimeNsfwPayload result) ≠ .hset key j :=
    fun _ _ h => by cases h
  obtain ⟨s₅, hruntime, hdb₅, hkv₅⟩ := publish_run henv s₄ hset
  refine ⟨s₅, ?_, ?_, ?_⟩
  · rw [publishAfterCommit, runIn_perform_bind hnow]
    refine (runIn_perform_bind hvideo).trans ?_
    refine (runIn_perform_bind hlegacy).trans ?_
    exact (runIn_bind_ok haction).trans hruntime
  · rw [hdb₅, hdb₄, hdb₃, hdb₂, hs₁]
  · rw [hkv₅, hkv₄, hkv₃, hkv₂, hs₁]

omit henv in
theorem storageAction_readOnly (settings : Settings) (job : VideoJob) (result : VideoModerationResult)
    (response : Option StorjMoveResponse) :
    (storageAction settings job result response).Within ReadOnly fun _ => True := by
  cases response with
  | none => exact .pure trivial
  | some response =>
    exact .bind (.perform Op.now trivial) fun _ _ => .bind (.perform Op.uuid4 trivial) fun _ _ =>
      .pure trivial

omit henv in
theorem moveIfRequired_readOnly (settings : Settings) (result : VideoModerationResult)
    (publisherUserId : String) :
    (moveIfRequired settings result publisherUserId).Within ReadOnly fun _ => True := by
  rw [moveIfRequired]
  split
  · exact .pure trivial
  · refine .bind (φ := fun _ => True) ?_ fun _ _ => .pure trivial
    rw [moveToNsfw]
    split
    · exact .throw
    · exact .perform (Op.postMove publisherUserId result.videoId) trivial

/-- The final transaction of `job` went through from `s`, and nothing else changed its job. -/
def Finalized (settings : Settings) (job : VideoJob) (s s' : World) : Prop :=
  ∃ frames result action now, result.jobId = job.jobId ∧
    s.db.applyAll now (finalTx settings job frames result action) = .ok s'.db ∧
    s'.kv.hashes = s.kv.hashes

theorem finalizeClassification_run (settings : Settings) (job : VideoJob) (metadata : VideoMetadata)
    (frames : List FrameModerationResult) (result : VideoModerationResult)
    (hid : result.jobId = job.jobId) (s : World × ν) :
    ∃ r s', (finalizeClassification settings job metadata frames result).runIn env s = (r, s') ∧
      (((∃ e, r = .error e) ∧ s'.1 = s.1) ∨
        ((∃ action, r = .ok action) ∧ Finalized settings job s.1 s'.1)) := by
  rw [finalizeClassification]
  have hmove := readOnly_run henv (moveIfRequired_readOnly settings result job.publisherUserId) s
  cases hmoved : (moveIfRequired settings result job.publisherUserId).runIn env s with
  | mk r₁ s₁ =>
    rw [hmoved] at hmove
    cases r₁ with
    | error e => exact ⟨_, s₁, runIn_bind_error hmoved, .inl ⟨⟨e, rfl⟩, hmove.1⟩⟩
    | ok response =>
      rw [runIn_bind_ok hmoved]
      have haction := readOnly_run henv (storageAction_readOnly settings job result response) s₁
      cases hacted : (storageAction settings job result response).runIn env s₁ with
      | mk r₂ s₂ =>
        rw [hacted] at haction
        have hs₂ : s₂.1 = s.1 := haction.1.trans hmove.1
        cases r₂ with
        | error e => exact ⟨_, s₂, runIn_bind_error hacted, .inl ⟨⟨e, rfl⟩, hs₂⟩⟩
        | ok action =>
          rw [runIn_bind_ok hacted]
          obtain ⟨r₃, s₃, htx, ⟨⟨e, rfl⟩, hs₃⟩ | ⟨rfl, now, db, hdb, hs₃⟩⟩ :=
            finalTransaction_run henv settings job frames result action s₂
          · exact ⟨_, s₃, runIn_bind_error htx, .inl ⟨⟨e, rfl⟩, hs₃.trans hs₂⟩⟩
          · obtain ⟨s₄, hpublish, hdb₄, hkv₄⟩ :=
              publishAfterCommit_run henv settings job metadata frames result action s₃
            refine ⟨.ok action, s₄, ?_, .inr ⟨⟨action, rfl⟩, frames, result, action, now, hid, ?_, ?_⟩⟩
            · rw [runIn_bind_ok htx, runIn_bind_ok hpublish]
              rfl
            · rw [hdb₄, hs₃, ← hs₂]
              exact hdb
            · rw [hkv₄, hs₃, hs₂]

/-- An attempt raises and changes no store, or it commits and the queue says so. -/
theorem processVideo_run (settings : Settings) {job old : VideoJob} {s : World × ν}
    (hold : s.1.kv.hashes (jobKey job.jobId) = some old) :
    ∃ r s', (processVideo settings job).runIn env s = (r, s') ∧
      (((∃ e, r = .error e) ∧ s'.1 = s.1) ∨
        (r = .ok () ∧ ∃ t now, Finalized settings job s.1 t ∧
          s'.1 = saved t job.jobId (old.withStatus .classified none none now))) := by
  rw [processVideo]
  have hreads : ReadOnly (.prepareJobDir job.jobId) := trivial
  have hprepare := readOnly_call henv hreads s
  cases hprepared : env s (.prepareJobDir job.jobId) with
  | mk r₁ s₁ =>
    rw [hprepared] at hprepare
    cases r₁ with
    | error e => exact ⟨_, s₁, runIn_bind_error hprepared, .inl ⟨⟨e, rfl⟩, hprepare⟩⟩
    | ok u =>
      rw [runIn_perform_bind hprepared, runIn_tryFinally]
      have hverdict := classify_run henv settings job s₁
      cases hclassified : (classify settings job).runIn env s₁ with
      | mk r₂ s₂ =>
        rw [hclassified] at hverdict
        have hs₂ : s₂.1 = s.1 := hverdict.1.trans hprepare
        cases r₂ with
        | error e =>
          obtain ⟨s₃, hcleanup, hs₃⟩ := cleanupDir_run henv s₂ job.jobId
          rw [runIn_bind_error hclassified, runIn_perform_bind hcleanup]
          exact ⟨_, s₃, rfl, .inl ⟨⟨e, rfl⟩, hs₃.trans hs₂⟩⟩
        | ok v =>
          obtain ⟨metadata, frames, result⟩ := v
          rw [runIn_bind_ok hclassified]
          obtain ⟨r₃, s₃, hfinalize, ⟨⟨e, rfl⟩, hs₃⟩ | ⟨⟨action, rfl⟩, hdone⟩⟩ :=
            finalizeClassification_run henv settings job metadata frames result (hverdict.2 _ rfl).jobId s₂
          · obtain ⟨s₄, hcleanup, hs₄⟩ := cleanupDir_run henv s₃ job.jobId
            simp only
            rw [runIn_bind_error hfinalize, runIn_perform_bind hcleanup]
            exact ⟨_, s₄, rfl, .inl ⟨⟨e, rfl⟩, (hs₄.trans hs₃).trans hs₂⟩⟩
          · rw [hs₂] at hdone
            obtain ⟨-, -, -, -, -, -, hhashes⟩ := id hdone
            have hold₃ : s₃.1.kv.hashes (jobKey job.jobId) = some old := by rw [hhashes, hold]
            obtain ⟨now, s₄, hupdate, hs₄⟩ :=
              updateStatus_run henv settings hold₃ .classified none none
            obtain ⟨s₅, hcleanup, hs₅⟩ := cleanupDir_run henv s₄ job.jobId
            simp only
            rw [runIn_bind_ok hfinalize, runIn_bind_ok hupdate, runIn_pure, runIn_perform_bind hcleanup]
            exact ⟨_, s₅, rfl, .inr ⟨rfl, s₃.1, now, hdone, hs₅.trans hs₄⟩⟩

end

/-! ## Other jobs -/

/-- Every job is under its own key, and the jobs other than `jobId` are as in `w₀`. -/
structure Apart (w₀ : World) (jobId : String) (w : World) : Prop where
  keyed : Keyed w
  hashes : ∀ other, other ≠ jobId → w.kv.hashes (jobKey other) = w₀.kv.hashes (jobKey other)
  rows : ∀ other, other ≠ jobId → w.db.job? other = w₀.db.job? other

variable {w₀ : World} {jobId : String}

/-- A program leaves the other jobs alone. -/
abbrev Minds (env : Surrounding ν) (w₀ : World) (jobId : String) {α : Type} (φ : α → Prop) (p : Code α) :
    Prop := Keeps env (fun s => Apart w₀ jobId s.1) φ p

section

variable (henv : env.Obeys Does i StatusCallsSucceed)

include henv

theorem readOnly_minds {α : Type} {φ : α → Prop} {p : Code α} (h : p.Within ReadOnly φ) :
    Minds env w₀ jobId φ p :=
  h.keeps fun s op hop hs => by rwa [readOnly_call henv hop s]

theorem getStatusByJobId_minds (settings : Settings) :
    Minds env w₀ jobId (fun job? => ∀ job, job? = some job → job.jobId = jobId)
      ((RedisQueue.service settings).getStatusByJobId jobId) := by
  intro s hs
  obtain ⟨s', hrun, hs'⟩ := getStatusByJobId_run henv settings s jobId
  simp only [hrun, hs']
  refine ⟨hs, fun job? hjob? job hjob => hs.keyed jobId job ?_⟩
  rw [Except.ok.inj hjob?, hjob]

theorem updateStatus_minds (settings : Settings) (status : VideoJobStatus) (code message : Option String) :
    Minds env w₀ jobId (fun job? => ∀ job, job? = some job → job.jobId = jobId)
      ((RedisQueue.service settings).updateStatus jobId status code message) := by
  intro s hs
  cases hold : s.1.kv.hashes (jobKey jobId) with
  | none =>
    obtain ⟨s', hget, hs'⟩ := hgetall_run henv s (jobKey jobId)
    have hrun : ((RedisQueue.service settings).updateStatus jobId status code message).runIn env s =
        (.ok none, s') := by
      simp only [QueueService.updateStatus, RedisQueue.service, RedisQueue.repository,
        RedisQueue.updateStatus, RedisQueue.getJobById]
      rw [runIn_perform_bind hget, hold]
      rfl
    simp only [hrun, hs']
    exact ⟨hs, fun job? hjob? job hjob => by cases (Except.ok.inj hjob?).trans hjob⟩
  | some old =>
    obtain ⟨now, s', hrun, hs'⟩ := updateStatus_run henv settings hold status code message
    have hid : old.jobId = jobId := hs.keyed jobId old hold
    simp only [hrun, hs']
    refine ⟨⟨fun other job hjob => ?_, fun other hother => ?_, hs.rows⟩, fun job? hjob? job hjob => ?_⟩
    · by_cases hother : other = jobId
      · subst hother
        rw [saved_hashes] at hjob
        rw [← Option.some.inj hjob]
        exact hid
      · refine hs.keyed other job ?_
        rwa [saved_hashes_of_ne hother] at hjob
    · rw [saved_hashes_of_ne hother, hs.hashes other hother]
    · rw [← Option.some.inj ((Except.ok.inj hjob?).trans hjob)]
      exact hid

theorem commit_minds {tx : List Write}
    (htx : ∀ (db db' : Db) now, db.applyAll now tx = .ok db' → ∀ other, other ≠ jobId →
      db'.job? other = db.job? other) :
    Minds env w₀ jobId (fun _ => True) (commit tx) := by
  refine .bind (φ := fun _ => True) (fun s hs => ⟨?_, fun _ _ => trivial⟩) fun _ _ => .pure trivial
  obtain ⟨o, hdoes, -⟩ := henv s (.commit tx)
  rw [runIn_perform]
  generalize (env s (.commit tx)).2.1 = w at hdoes ⊢
  cases hdoes.change with
  | nothing => exact hs
  | commit _ hdb =>
    exact ⟨hs.keyed, hs.hashes, fun other hother => (htx _ _ _ hdb other hother).trans (hs.rows other hother)⟩

theorem execute_minds (tx : List Write) (write : Write) :
    Minds env w₀ jobId (fun all => all = tx ++ [write]) (execute tx write) :=
  readOnly_minds henv (.bind (.perform (Op.execute tx write) trivial) fun _ _ => .pure rfl)

theorem markProcessing_minds {job : VideoJob} (hid : job.jobId = jobId) :
    Minds env w₀ jobId (fun _ => True) (PostgresJobState.markProcessing job) := by
  refine .bind (execute_minds henv _ _) fun tx htx => .bind (execute_minds henv _ _) fun tx' htx' => ?_
  subst htx htx' hid
  exact commit_minds henv fun db db' now hdb => (markProcessingTx_job? hdb).1

theorem markFailed_minds (status : VideoJobStatus) (code message : String) :
    Minds env w₀ jobId (fun _ => True) (PostgresJobState.markFailed jobId status code message) := by
  rw [PostgresJobState.markFailed]
  split
  · exact .throw
  · refine .bind (execute_minds henv _ _) fun tx htx => ?_
    subst htx
    exact commit_minds henv fun db db' now hdb => (markFailedTx_job? hdb).1

theorem finalTransaction_minds (settings : Settings) {job : VideoJob} (hjob : job.jobId = jobId)
    (frames : List FrameModerationResult) {result : VideoModerationResult}
    (hid : result.jobId = job.jobId) (action : Option StorageAction) :
    Minds env w₀ jobId (fun _ => True) (finalTransaction settings job frames result action) := by
  have hall : Minds env w₀ jobId (fun all => all = [] ++ finalTx settings job frames result action)
      (executeAll [] (finalTx settings job frames result action)) := by
    refine readOnly_minds henv ((Publication.executeAll_within _ _).mono (fun op hop => ?_) fun _ h => h)
    cases op with
    | execute => trivial
    | _ => exact hop.elim
  refine .bind hall fun tx htx => ?_
  subst htx hjob
  exact commit_minds henv fun db db' now hdb => (finalTx_job? hid hdb).1

theorem publish_minds {command : Command} (hcommand : ∀ key job, command ≠ .hset key job) :
    Minds env w₀ jobId (fun _ => True) (await (.writes [command])) := by
  intro s hs
  obtain ⟨s', hrun, hdb, hhashes⟩ := publish_run henv s hcommand
  rw [runIn_perform, hrun]
  refine ⟨⟨fun other job hjob => hs.keyed other job ?_, fun other hother => ?_, fun other hother => ?_⟩,
    fun _ _ => trivial⟩
  · rwa [hhashes] at hjob
  · rw [hhashes, hs.hashes other hother]
  · rw [hdb, hs.rows other hother]

theorem publishAfterCommit_minds (settings : Settings) (job : VideoJob) (metadata : VideoMetadata)
    (frames : List FrameModerationResult) (result : VideoModerationResult)
    (action : Option StorageAction) :
    Minds env w₀ jobId (fun _ => True) (publishAfterCommit settings job metadata frames result action) := by
  have hrpush : ∀ (key : String) (row : BufferRow), Minds env w₀ jobId (fun _ => True) (pushJson key row) :=
    fun key row => publish_minds henv fun _ _ h => by cases h
  have hnow : Minds env w₀ jobId (fun _ => True) (await .now) :=
    readOnly_minds henv (.perform Op.now trivial)
  have haction : Minds env w₀ jobId (fun _ => True) (pushStorageAction settings action) := by
    cases action with
    | none => exact .pure trivial
    | some action => exact .bind hnow fun _ _ => hrpush _ _
  refine .bind hnow fun _ _ => .bind (hrpush _ _) fun _ _ => .bind (hrpush _ _) fun _ _ =>
    .bind haction fun _ _ => ?_
  exact publish_minds henv fun _ _ h => by cases h

theorem processVideo_minds (settings : Settings) {job : VideoJob} (hid : job.jobId = jobId) :
    Minds env w₀ jobId (fun _ => True) (processVideo settings job) := by
  have hverdict : Minds env w₀ jobId (Classification settings job) (classify settings job) :=
    readOnly_minds henv ((classify_within settings job).mono (fun _ => readOnly_of_local) fun _ h => h)
  have hfinalize : ∀ metadata frames result, result.jobId = job.jobId → Minds env w₀ jobId (fun _ => True)
      (finalizeClassification settings job metadata frames result) := fun metadata frames result hresult =>
    .bind (readOnly_minds henv (moveIfRequired_readOnly settings result job.publisherUserId)) fun _ _ =>
      .bind (readOnly_minds henv (storageAction_readOnly settings job result _)) fun _ _ =>
        .bind (finalTransaction_minds henv settings hid frames hresult _) fun _ _ =>
          .bind (publishAfterCommit_minds henv settings job metadata frames result _) fun _ _ =>
            .pure trivial
  refine .bind (readOnly_minds henv (.perform (Op.prepareJobDir job.jobId) trivial)) fun _ _ => ?_
  refine .tryFinally (.bind hverdict fun v hv => ?_)
    (readOnly_minds henv (.perform (Op.cleanupDir job.jobId) trivial))
  refine .bind (hfinalize v.1 v.2.1 v.2.2 hv.jobId) fun _ _ => ?_
  subst hid
  exact .bind (updateStatus_minds henv settings .classified none none) fun _ _ => .pure trivial

theorem attempt_minds (settings : Settings) {job : VideoJob} (hid : job.jobId = jobId) :
    Minds env w₀ jobId (fun _ => True) ((processor settings).attempt job) := by
  refine .tryCatch (.bind (markProcessing_minds henv hid) fun _ _ => processVideo_minds henv settings hid)
    fun exc => ?_
  subst hid
  exact .bind (updateStatus_minds henv settings _ _ _) fun _ _ =>
    .bind (markFailed_minds henv _ _ _) fun _ _ => .throw

/-- `process` looks after its own job only. -/
theorem process_minds (settings : Settings) (job : VideoJob) :
    Minds env w₀ job.jobId (fun _ => True) ((processor settings).process job) := by
  refine .bind (getStatusByJobId_minds henv settings) fun current hcurrent => ?_
  have hcurrentJob : (current.getD job).jobId = job.jobId := by
    cases current with
    | none => rfl
    | some found => exact hcurrent found rfl
  simp only
  split
  · exact .pure trivial
  · refine .bind (readOnly_minds henv (.perform (Op.selectJob job.jobId) trivial)) fun persisted _ => ?_
    split
    · exact .bind (updateStatus_minds henv settings .classified none none) fun _ _ => .pure trivial
    · refine .bind (updateStatus_minds henv settings .processing none none) fun updated hupdated => ?_
      refine attempt_minds henv settings ?_
      cases updated with
      | none => exact hcurrentJob
      | some found => exact hupdated found rfl

end

/-! ## One call -/

/-- What both stores keep of a job. -/
structure Kept where
  status : VideoJobStatus
  attempts : Int
  lastErrorCode : Option String
  lastErrorMessage : Option String
  deriving DecidableEq

def keptOf (job : VideoJob) : Kept :=
  ⟨job.status, job.attempts, job.lastErrorCode, job.lastErrorMessage⟩

/-- The job in the queue and the row in Postgres say the same. -/
def Agree (w : World) (jobId : String) : Prop :=
  ∃ job row, w.kv.hashes (jobKey jobId) = some job ∧ w.db.job? jobId = some row ∧ keptOf job = keptOf row

/-- The queue has the job, with the times that a row needs. -/
def Tracked (w : World) (jobId : String) (job : VideoJob) : Prop :=
  w.kv.hashes (jobKey jobId) = some job ∧ job.jobId = jobId ∧ job.createdAt ≠ none ∧ job.updatedAt ≠ none

/-- The job is accepted, and no attempt has begun. -/
def Untouched (w : World) (jobId : String) (job : VideoJob) : Prop :=
  w.db.job? jobId = none ∧ keptOf job = ⟨.queued, 0, none, none⟩

/-- The `try` of `process`. -/
def tried (settings : Settings) (job : VideoJob) : Code Unit := do
  PostgresJobState.markProcessing job
  processVideo settings job

/-- The call meets none of the three ways in which the stores come apart. -/
structure Fits (env : Surrounding ν) (settings : Settings) (s : World × ν) (job : VideoJob) : Prop where
  /-- The row is there, or nothing keeps it from being inserted. -/
  unrivalled : ∀ queued, s.1.kv.hashes (jobKey job.jobId) = some queued →
    s.1.db.Known job.jobId ∨ ¬ ∃ other ∈ s.1.db.jobs, other.triple = queued.triple
  /-- No attempt succeeds on a row that has an error. -/
  clean : ∀ processingJob t u, (entered settings job).runIn env s = (.ok (some processingJob), t) →
    (tried settings processingJob).runIn env t = (.ok (), u) →
      ∀ row, s.1.db.job? job.jobId = some row → row.lastErrorCode = none ∧ row.lastErrorMessage = none
  /-- What an attempt raises has a code and a message. -/
  named : ∀ processingJob t u exc, (entered settings job).runIn env s = (.ok (some processingJob), t) →
    (tried settings processingJob).runIn env t = (.error exc, u) →
      errorCode exc ≠ "" ∧ errorMessage exc ≠ ""

section

variable {job old processingJob : VideoJob} {s s' : World × ν} {now : Time} {db : Db}

theorem agree_iff {w : World} (h : w.kv.hashes (jobKey jobId) = some job) :
    Agree w jobId ↔ ∃ row, w.db.job? jobId = some row ∧ keptOf job = keptOf row := by
  constructor
  · rintro ⟨job', row, hjob', hrow, hsame⟩
    obtain rfl := Option.some.inj (h.symm.trans hjob')
    exact ⟨row, hrow, hsame⟩
  · exact fun ⟨row, hrow, hsame⟩ => ⟨job, row, h, hrow, hsame⟩

theorem tracked_saved {w : World} (hid : job.jobId = jobId) (hcreated : job.createdAt ≠ none)
    {status : VideoJobStatus} {code message : Option String} :
    Tracked (saved w jobId (job.stored.withStatus status code message now)) jobId
      (job.stored.withStatus status code message now).stored :=
  ⟨saved_hashes .., hid, hcreated, Option.some_ne_none _⟩

/-- The row of the job once it is marked, if it has one: a row or none comes out of the same rule. -/
theorem marked_row (hid : processingJob.jobId = jobId) (htriple : processingJob.triple = old.triple)
    (hattempts : processingJob.attempts = old.attempts + 1)
    (hcode : processingJob.lastErrorCode = none) (hmessage : processingJob.lastErrorMessage = none)
    {w : World} (hdb : w.db.applyAll now (markProcessingTx processingJob) = .ok db)
    (hinv : (∃ row, w.db.job? jobId = some row ∧ keptOf old = keptOf row) ∨ Untouched w jobId old) :
    ((∃ row, db.job? jobId = some row) ↔
      w.db.Known jobId ∨ ¬ ∃ other ∈ w.db.jobs, other.triple = old.triple) ∧
    ∀ row, db.job? jobId = some row → row.attempts = processingJob.attempts ∧
      row.lastErrorCode = old.lastErrorCode ∧ row.lastErrorMessage = old.lastErrorMessage := by
  obtain ⟨hthere, hnew⟩ := markProcessingTx_row hdb
  rw [hid] at hthere hnew
  rcases hinv with ⟨row, hrow, hsame⟩ | ⟨hnone, huntouched⟩
  · have hmarked := hthere row hrow
    obtain ⟨-, hsameAttempts, hsameCode, hsameMessage⟩ := Kept.mk.inj hsame
    have hknown : w.db.Known jobId := by rw [← Db.job?_isSome_iff, hrow]; rfl
    refine ⟨iff_of_true ⟨_, hmarked⟩ (.inl hknown), fun row' hrow' => ?_⟩
    obtain rfl := Option.some.inj (hmarked.symm.trans hrow')
    exact ⟨by rw [hattempts, hsameAttempts]; rfl, hsameCode.symm, hsameMessage.symm⟩
  · have hunknown : ¬ w.db.Known jobId := by rw [← Db.job?_isSome_iff, hnone]; simp
    obtain ⟨-, hzero, hnoCode, hnoMessage⟩ := Kept.mk.inj huntouched
    have hmarked := hnew hnone
    rw [htriple] at hmarked
    by_cases hrival : ∃ other ∈ w.db.jobs, other.triple = old.triple
    · rw [if_pos hrival] at hmarked
      refine ⟨iff_of_false ?_ (by simp [hunknown, hrival]), fun row hrow => ?_⟩
      · rw [hmarked]
        simp
      · cases hmarked.symm.trans hrow
    · rw [if_neg hrival] at hmarked
      refine ⟨iff_of_true ⟨_, hmarked⟩ (.inr hrival), fun row hrow => ?_⟩
      obtain rfl := Option.some.inj (hmarked.symm.trans hrow)
      refine ⟨?_, hcode.trans hnoCode.symm, hmessage.trans hnoMessage.symm⟩
      simp [Db.processingRow, VideoJob.inserted, hattempts, hzero]

/-- What the stores hold after the attempt, if it succeeded or raised. -/
inductive Ended (settings : Settings) (job : VideoJob) (kv : Kvrocks Caller) (db : Db) (w : World) :
    Except PyException Unit → Prop
  | done {u : World} {now : Time} (hfinal : Finalized settings job ⟨kv, db⟩ u)
      (hw : w = saved u job.jobId (job.stored.withStatus .classified none none now)) :
      Ended settings job kv db w (.ok ())
  | raised {exc : PyException} {status : VideoJobStatus} {now now' : Time}
      (hstatus : status ≠ .processing)
      (hw : w = saved ⟨kv, db.updateJob job.jobId
          (Db.failedRow status (errorCode exc) (errorMessage exc) now')⟩
        job.jobId (job.stored.withStatus status (some (errorCode exc)) (some (errorMessage exc)) now)) :
      Ended settings job kv db w (.error exc)

theorem attempt_run (henv : env.Obeys Does i StatusCallsSucceed) (settings : Settings)
    (hjob : s.1.kv.hashes (jobKey job.jobId) = some job.stored) (hcreated : job.createdAt ≠ none)
    (hupdated : job.updatedAt ≠ none) :
    ∃ now db, s.1.db.applyAll now (markProcessingTx job) = .ok db ∧
      Ended settings job s.1.kv db (((processor settings).attempt job).runIn env s).2.1
        ((tried settings job).runIn env s).1 := by
  obtain ⟨now, db, s₁, hmark, hdb, hs₁⟩ := markProcessing_run henv s hcreated hupdated
  refine ⟨now, db, hdb, ?_⟩
  have hjob₁ : s₁.1.kv.hashes (jobKey job.jobId) = some job.stored := by rw [hs₁, hjob]
  obtain ⟨r, s₂, hvideo, hends⟩ := processVideo_run henv settings hjob₁
  have htried : (tried settings job).runIn env s = (r, s₂) := by rw [tried, runIn_bind_ok hmark, hvideo]
  rw [htried]
  obtain ⟨⟨exc, rfl⟩, hs₂⟩ | ⟨rfl, u, now', hfinal, hs₂⟩ := hends
  · have hjob₂ : s₂.1.kv.hashes (jobKey job.jobId) = some job.stored := by rw [hs₂, hjob₁]
    obtain ⟨now', now'', s₃, hrecord, hs₃⟩ := recordFailure_run henv settings exc hjob₂
    have hrun : ((processor settings).attempt job).runIn env s = _ :=
      (runIn_tryCatch_error htried).trans hrecord
    rw [hrun, hs₃, hs₂, hs₁]
    refine .raised ?_ rfl
    simp only [classifyProcessingError]
    split <;> decide
  · have hrun : ((processor settings).attempt job).runIn env s = (.ok (), s₂) := runIn_tryCatch_ok htried
    rw [hrun, hs₂]
    rw [hs₁] at hfinal
    exact .done hfinal rfl

theorem agree_done {u w : World} {kv : Kvrocks Caller} {now : Time}
    (hfinal : Finalized settings job ⟨kv, db⟩ u)
    (hw : w = saved u job.jobId (job.stored.withStatus .classified none none now))
    (hmarked : ∀ row, db.job? job.jobId = some row → row.attempts = job.attempts) :
    Agree w job.jobId ↔ ∃ row, db.job? job.jobId = some row ∧
      row.lastErrorCode = none ∧ row.lastErrorMessage = none := by
  obtain ⟨frames, result, action, now', -, htx, -⟩ := hfinal
  have hrow := finalTx_marks htx job.jobId
  rw [if_pos rfl] at hrow
  rw [agree_iff (hw ▸ saved_hashes ..), hw, saved_db, hrow]
  cases hbefore : db.job? job.jobId with
  | none => simp
  | some row =>
    have hattempts : job.attempts = row.attempts := (hmarked row hbefore).symm
    simp [keptOf, VideoJob.withStatus, VideoJob.stored, optional, Db.classifiedRow, hattempts, eq_comm]

theorem agree_raised {w : World} {kv : Kvrocks Caller} {exc : PyException} {status : VideoJobStatus}
    {now now' : Time} (hw : w = saved ⟨kv, db.updateJob job.jobId
        (Db.failedRow status (errorCode exc) (errorMessage exc) now')⟩
      job.jobId (job.stored.withStatus status (some (errorCode exc)) (some (errorMessage exc)) now))
    (hstatus : status ≠ .processing)
    (hmarked : ∀ row, db.job? job.jobId = some row → row.attempts = job.attempts) :
    Agree w job.jobId ↔ (∃ row, db.job? job.jobId = some row) ∧
      errorCode exc ≠ "" ∧ errorMessage exc ≠ "" := by
  have hrow := db.updateJob_job? (Db.failedRow status (errorCode exc) (errorMessage exc) now')
    (fun _ => rfl) job.jobId job.jobId
  rw [if_pos rfl] at hrow
  rw [agree_iff (hw ▸ saved_hashes ..), hw, saved_db, hrow]
  cases hbefore : db.job? job.jobId with
  | none => simp
  | some row =>
    have hattempts : job.attempts = row.attempts := (hmarked row hbefore).symm
    simp [keptOf, VideoJob.withStatus, VideoJob.stored, optional, Db.failedRow, hattempts, hstatus]

/-- The row has no error exactly if the queue has none. -/
theorem clean_iff {w : World} (hinv : (∃ row, w.db.job? jobId = some row ∧ keptOf old = keptOf row) ∨
      Untouched w jobId old) :
    (∀ row, w.db.job? jobId = some row → row.lastErrorCode = none ∧ row.lastErrorMessage = none) ↔
      old.lastErrorCode = none ∧ old.lastErrorMessage = none := by
  rcases hinv with ⟨row, hrow, hsame⟩ | ⟨hnone, huntouched⟩
  · obtain ⟨-, -, hcode, hmessage⟩ := Kept.mk.inj hsame
    rw [hcode, hmessage]
    constructor
    · exact fun hall => hall row hrow
    · intro hclean row' hrow'
      obtain rfl := Option.some.inj (hrow.symm.trans hrow')
      exact hclean
  · obtain ⟨-, -, hcode, hmessage⟩ := Kept.mk.inj huntouched
    refine iff_of_true (fun row hrow => ?_) ⟨hcode, hmessage⟩
    cases hnone.symm.trans hrow

/-- Both stores come out of an attempt with one error or none. -/
def SameError (old : VideoJob) : Except PyException Unit → Prop
  | .ok _ => old.lastErrorCode = none ∧ old.lastErrorMessage = none
  | .error exc => errorCode exc ≠ "" ∧ errorMessage exc ≠ ""

/-- Where the call comes to its `try`, these are the rules that it has to meet. -/
theorem fits_iff (hhash : s.1.kv.hashes (jobKey job.jobId) = some old)
    (hinv : (∃ row, s.1.db.job? job.jobId = some row ∧ keptOf old = keptOf row) ∨
      Untouched s.1 job.jobId old)
    (henter : (entered settings job).runIn env s = (.ok (some processingJob), s')) {u : World × ν}
    {r : Except PyException Unit} (htried : (tried settings processingJob).runIn env s' = (r, u)) :
    Fits env settings s job ↔
      (s.1.db.Known job.jobId ∨ ¬ ∃ other ∈ s.1.db.jobs, other.triple = old.triple) ∧ SameError old r := by
  have hsame : ∀ {pj : VideoJob} {t : World × ν}, (entered settings job).runIn env s = (.ok (some pj), t) →
      pj = processingJob ∧ t = s' := fun h => by
    obtain ⟨hpj, ht⟩ := Prod.mk.inj (h.symm.trans henter)
    exact ⟨Option.some.inj (Except.ok.inj hpj), ht⟩
  constructor
  · intro hfits
    refine ⟨hfits.unrivalled old hhash, ?_⟩
    cases r with
    | ok => exact (clean_iff hinv).mp (hfits.clean _ _ _ henter htried)
    | error exc => exact hfits.named _ _ _ exc henter htried
  · rintro ⟨hunrivalled, hr⟩
    refine ⟨fun queued hqueued => ?_, fun pj t v hpj hv => ?_, fun pj t v exc hpj hv => ?_⟩
    · obtain rfl := Option.some.inj (hhash.symm.trans hqueued)
      exact hunrivalled
    · obtain ⟨rfl, rfl⟩ := hsame hpj
      obtain ⟨rfl, -⟩ := Prod.mk.inj (htried.symm.trans hv)
      exact (clean_iff hinv).mpr hr
    · obtain ⟨rfl, rfl⟩ := hsame hpj
      obtain ⟨rfl, -⟩ := Prod.mk.inj (htried.symm.trans hv)
      exact hr

/-- A call that never comes to its `try` meets them if the row is there. -/
theorem fits_of_skipped (henter : (entered settings job).runIn env s = (.ok none, s'))
    (hknown : s.1.db.Known job.jobId) : Fits env settings s job := by
  have hnever : ∀ {pj : VideoJob} {t : World × ν}, (entered settings job).runIn env s ≠ (.ok (some pj), t) :=
    fun h => by cases Except.ok.inj (Prod.mk.inj (henter.symm.trans h)).1
  exact ⟨fun _ _ => .inl hknown, fun _ _ _ h => absurd h hnever, fun _ _ _ _ h => absurd h hnever⟩

theorem Ended.tracked {kv : Kvrocks Caller} {w : World} {r : Except PyException Unit}
    (h : Ended settings job kv db w r) (hcreated : job.createdAt ≠ none) :
    ∃ new, Tracked w job.jobId new := by
  cases h with
  | done _ hw => exact ⟨_, by rw [hw]; exact tracked_saved rfl hcreated⟩
  | raised _ hw => exact ⟨_, by rw [hw]; exact tracked_saved rfl hcreated⟩

/-- After an attempt the stores agree if there is a row, and the errors before or after it are right. -/
theorem Ended.agree_iff {kv : Kvrocks Caller} {w : World} {r : Except PyException Unit}
    (h : Ended settings job kv db w r)
    (hmarked : ∀ row, db.job? job.jobId = some row → row.attempts = job.attempts ∧
      row.lastErrorCode = old.lastErrorCode ∧ row.lastErrorMessage = old.lastErrorMessage) :
    Agree w job.jobId ↔ (∃ row, db.job? job.jobId = some row) ∧ SameError old r := by
  have hattempts : ∀ row, db.job? job.jobId = some row → row.attempts = job.attempts :=
    fun row hrow => (hmarked row hrow).1
  cases h with
  | done hfinal hw =>
    rw [agree_done hfinal hw hattempts]
    constructor
    · rintro ⟨row, hrow, hclean⟩
      obtain ⟨-, hcode, hmessage⟩ := hmarked row hrow
      exact ⟨⟨row, hrow⟩, hcode ▸ hclean.1, hmessage ▸ hclean.2⟩
    · rintro ⟨⟨row, hrow⟩, hclean⟩
      obtain ⟨-, hcode, hmessage⟩ := hmarked row hrow
      exact ⟨row, hrow, hcode ▸ hclean.1, hmessage ▸ hclean.2⟩
  | raised hstatus hw => exact agree_raised hw hstatus hattempts

/-- An attempt on a job that the stores agree on, or that has none yet. -/
theorem attempt_own (henv : env.Obeys Does i StatusCallsSucceed) (settings : Settings)
    (htracked : Tracked s.1 job.jobId old)
    (hinv : (∃ row, s.1.db.job? job.jobId = some row ∧ keptOf old = keptOf row) ∨
      Untouched s.1 job.jobId old)
    (hprocessing : processingJob = old.withStatus .processing none none now)
    (henter : (entered settings job).runIn env s = (.ok (some processingJob), s'))
    (hs' : s'.1 = saved s.1 job.jobId processingJob) :
    (∃ new, Tracked (((processor settings).attempt processingJob).runIn env s').2.1 job.jobId new) ∧
      (Agree (((processor settings).attempt processingJob).runIn env s').2.1 job.jobId ↔
        Fits env settings s job) := by
  obtain ⟨hhash, hid, hcreated, -⟩ := htracked
  have hpjId : processingJob.jobId = job.jobId := by rw [hprocessing]; exact hid
  have hpjCreated : processingJob.createdAt ≠ none := by rw [hprocessing]; exact hcreated
  have hpjUpdated : processingJob.updatedAt ≠ none := by rw [hprocessing]; exact Option.some_ne_none _
  have htriple : processingJob.triple = old.triple := by rw [hprocessing]; rfl
  have hcount : processingJob.attempts = old.attempts + 1 := by rw [hprocessing]; rfl
  have hcode : processingJob.lastErrorCode = none := by rw [hprocessing]; rfl
  have hmessage : processingJob.lastErrorMessage = none := by rw [hprocessing]; rfl
  have hjob : s'.1.kv.hashes (jobKey processingJob.jobId) = some processingJob.stored := by
    rw [hs', hpjId, saved_hashes]
  obtain ⟨now', db, hdb, hended⟩ := attempt_run henv settings hjob hpjCreated hpjUpdated
  rw [hs', saved_db] at hdb
  obtain ⟨hthere, hmarked⟩ := marked_row hpjId htriple hcount hcode hmessage hdb hinv
  rw [← hpjId] at hmarked
  rw [fits_iff hhash hinv henter rfl, ← hthere, ← hpjId]
  exact ⟨hended.tracked hpjCreated, hended.agree_iff hmarked⟩

/-- One call for the job: it stays tracked, and the stores agree afterwards if the call fits. -/
theorem process_own (henv : env.Obeys Does i StatusCallsSucceed) (settings : Settings)
    (htracked : Tracked s.1 job.jobId old)
    (hinv : (∃ row, s.1.db.job? job.jobId = some row ∧ keptOf old = keptOf row) ∨
      Untouched s.1 job.jobId old) :
    (∃ new, Tracked (((processor settings).process job).runIn env s).2.1 job.jobId new) ∧
      (Agree (((processor settings).process job).runIn env s).2.1 job.jobId ↔ Fits env settings s job) := by
  obtain ⟨r, s₁, henter, hways⟩ := entered_run henv settings htracked.1
  rw [process_run, runIn_bind_ok henter]
  obtain ⟨hterminal, rfl, hs₁⟩ | ⟨hopen, hclassified, -⟩ | ⟨hopen, -, now, rfl, hs₁⟩ := hways
  · -- A job that is through has a row, and nothing changes.
    rw [runIn_pure, hs₁]
    have hrow : ∃ row, s.1.db.job? job.jobId = some row ∧ keptOf old = keptOf row := by
      rcases hinv with hrow | ⟨-, huntouched⟩
      · exact hrow
      · rw [(Kept.mk.inj huntouched).1] at hterminal
        exact absurd hterminal (by decide)
    have hknown : s.1.db.Known job.jobId := by
      obtain ⟨row, hrow, -⟩ := hrow
      rw [← Db.job?_isSome_iff, hrow]
      rfl
    exact ⟨⟨old, htracked⟩, iff_of_true ((agree_iff htracked.1).mpr hrow) (fits_of_skipped henter hknown)⟩
  · -- A classified row is that of a classified job.
    rcases hinv with ⟨row, hrow, hsame⟩ | ⟨hnone, -⟩
    · rw [hrow] at hclassified
      have hstatus : old.status = .classified :=
        (Kept.mk.inj hsame).1.trans (Option.some.inj hclassified)
      rw [hstatus] at hopen
      exact absurd (by decide) hopen
    · rw [hnone] at hclassified
      cases hclassified
  · exact attempt_own henv settings htracked hinv rfl henter hs₁

end

/-! ## Any number of calls -/

/-- The stores and the environment after `n` of the calls. -/
def afterCalls (env : Surrounding ν) (settings : Settings) (calls : Nat → VideoJob) (s : World × ν) :
    Nat → World × ν
  | 0 => s
  | n + 1 => (((processor settings).process (calls n)).runIn env (afterCalls env settings calls s n)).2

/-- The job is accepted, and Postgres does not have it yet. -/
def Accepted (w : World) (jobId : String) : Prop :=
  ∃ (request : VideoDetectRequest) (now : Time), request.jobId = jobId ∧
    w.kv.hashes (jobKey jobId) = some (request.job now).stored ∧ w.db.job? jobId = none

/-- Between the calls: the job is tracked, and the stores agree on it or no attempt has begun. -/
structure Followed (w : World) (jobId : String) : Prop where
  keyed : Keyed w
  job : ∃ old, Tracked w jobId old ∧
    ((∃ row, w.db.job? jobId = some row ∧ keptOf old = keptOf row) ∨ Untouched w jobId old)

theorem Accepted.followed {w : World} (h : Accepted w jobId) (hkeyed : Keyed w) : Followed w jobId := by
  obtain ⟨request, now, hid, hhash, hnone⟩ := h
  refine ⟨hkeyed, _, ⟨hhash, hid, Option.some_ne_none _, Option.some_ne_none _⟩, .inr ⟨hnone, rfl⟩⟩

section

variable (henv : env.Obeys Does i StatusCallsSucceed)

include henv

theorem Followed.agree_iff {s : World × ν} {job : VideoJob} (h : Followed s.1 job.jobId) :
    Agree (((processor settings).process job).runIn env s).2.1 job.jobId ↔ Fits env settings s job := by
  obtain ⟨-, old, htracked, hinv⟩ := h
  exact (process_own henv settings htracked hinv).2

/-- One call of any job. -/
theorem Followed.step {s : World × ν} (h : Followed s.1 jobId) {job : VideoJob}
    (hagree : job.jobId = jobId → Agree (((processor settings).process job).runIn env s).2.1 jobId) :
    Followed (((processor settings).process job).runIn env s).2.1 jobId := by
  obtain ⟨hkeyed, old, htracked, hinv⟩ := h
  have hapart : Apart s.1 job.jobId (((processor settings).process job).runIn env s).2.1 :=
    (process_minds henv settings job s ⟨hkeyed, fun _ _ => rfl, fun _ _ => rfl⟩).1
  refine ⟨hapart.keyed, ?_⟩
  by_cases hid : job.jobId = jobId
  · subst hid
    obtain ⟨new, hnew⟩ := (process_own henv settings htracked hinv).1
    exact ⟨new, hnew, .inl ((Attempts.agree_iff hnew.1).mp (hagree rfl))⟩
  · have hhash := hapart.hashes jobId (Ne.symm hid)
    have hrow := hapart.rows jobId (Ne.symm hid)
    refine ⟨old, ⟨hhash.trans htracked.1, htracked.2⟩, ?_⟩
    rw [Untouched, hrow]
    exact hinv

/-- The stores agree on a job after each of its calls exactly if each of them fits. -/
theorem stores_agree_iff (settings : Settings) (calls : Nat → VideoJob) {s : World × ν}
    (hkeyed : Keyed s.1) (haccepted : Accepted s.1 jobId) :
    (∀ n, (calls n).jobId = jobId → Agree (afterCalls env settings calls s (n + 1)).1 jobId) ↔
      ∀ n, (calls n).jobId = jobId → Fits env settings (afterCalls env settings calls s n) (calls n) := by
  constructor
  · intro hagree n hid
    have hfollowed : ∀ n, Followed (afterCalls env settings calls s n).1 jobId := by
      intro n
      induction n with
      | zero => exact haccepted.followed hkeyed
      | succ n ih => exact ih.step henv (hagree n)
    subst hid
    exact ((hfollowed n).agree_iff henv).mp (hagree n rfl)
  · intro hfits
    have hfollowed : ∀ n, Followed (afterCalls env settings calls s n).1 jobId := by
      intro n
      induction n with
      | zero => exact haccepted.followed hkeyed
      | succ n ih =>
        refine ih.step henv fun hid => ?_
        subst hid
        exact (ih.agree_iff henv).mpr (hfits n rfl)
    intro n hid
    subst hid
    exact ((hfollowed n).agree_iff henv).mpr (hfits n rfl)

end

/-! ### One job -/

/-- One job is accepted. -/
def accepted : World := { kv := ({} : Kvrocks Caller).apply (.hset (jobKey sampleJob.jobId) sampleJob) }

theorem keyed_accepted : Keyed accepted := keyed_of_one_job sampleJob rfl

theorem accepted_accepted : Accepted accepted sampleJob.jobId :=
  ⟨sampleRequest, 0, rfl, saved_hashes {} _ _, rfl⟩

/-- Nothing changes once the job is through. -/
theorem afterCalls_of_terminal (henv : env.Obeys Does i StatusCallsSucceed) (settings : Settings)
    (job : VideoJob) {s : World × ν} {n : Nat} {old : VideoJob}
    (hold : (afterCalls env settings (fun _ => job) s n).1.kv.hashes (jobKey job.jobId) = some old)
    (hterminal : old.status.Terminal) (m : Nat) :
    (afterCalls env settings (fun _ => job) s (n + m)).1 =
      (afterCalls env settings (fun _ => job) s n).1 := by
  induction m with
  | zero => rfl
  | succ m ih =>
    rw [← Nat.add_assoc, afterCalls, process_run]
    obtain ⟨r, s', henter, hways⟩ := entered_run henv settings (ih ▸ hold)
    obtain ⟨-, rfl, hsame⟩ | ⟨hopen, -⟩ | ⟨hopen, -⟩ := hways
    · rw [runIn_bind_ok henter, runIn_pure, hsame, ih]
    · exact absurd hterminal hopen
    · exact absurd hterminal hopen

/-- Every call is answered. -/
def smooth : Surrounding Nat := serving cleanOutput fun _ _ => none

theorem smooth_obeys : smooth.Obeys Does (.worker 0) StatusCallsSucceed :=
  serving_obeys _ fun _ _ _ hfails => by cases hfails

/-- The stores agree on a job that is classified at once, after any number of calls. -/
theorem stores_of_smooth_job :
    (∀ n, Agree (afterCalls smooth {} (fun _ => sampleJob) (accepted, 0) (n + 1)).1 sampleJob.jobId) ∧
      ∀ n, Fits smooth {} (afterCalls smooth {} (fun _ => sampleJob) (accepted, 0) n) sampleJob := by
  have hsame : ((afterCalls smooth {} (fun _ => sampleJob) (accepted, 0) 1).1.kv.hashes
      (jobKey sampleJob.jobId)).map keptOf = some ⟨.classified, 1, none, none⟩ ∧
      ((afterCalls smooth {} (fun _ => sampleJob) (accepted, 0) 1).1.db.job? sampleJob.jobId).map keptOf =
        some ⟨.classified, 1, none, none⟩ := by decide +kernel
  obtain ⟨job, hjob, hkept⟩ := Option.map_eq_some_iff.mp hsame.1
  obtain ⟨row, hrow, hkept'⟩ := Option.map_eq_some_iff.mp hsame.2
  have hterminal : job.status.Terminal := by
    rw [(Kept.mk.inj hkept).1]
    decide
  have hagree : ∀ n, Agree (afterCalls smooth {} (fun _ => sampleJob) (accepted, 0) (n + 1)).1
      sampleJob.jobId := by
    intro n
    rw [Nat.add_comm n 1, afterCalls_of_terminal smooth_obeys {} sampleJob hjob hterminal n]
    exact ⟨job, row, hjob, hrow, hkept.trans hkept'.symm⟩
  have hiff := @stores_agree_iff _ _ _ _ smooth_obeys {} (fun _ => sampleJob) (accepted, 0) keyed_accepted
    accepted_accepted
  exact ⟨hagree, fun n => hiff.mp (fun n _ => hagree n) n rfl⟩

/-- The first download fails, everything else is answered. -/
def stumbling : Surrounding Nat :=
  serving cleanOutput fun n op =>
    match op with
    | .downloadVideo _ => if n = 1 then some (.requestError "ConnectError" "connection refused") else none
    | _ => none

theorem stumbling_obeys : stumbling.Obeys Does (.worker 0) StatusCallsSucceed := by
  refine serving_obeys _ fun n op e hfails => ?_
  cases op with
  | downloadVideo =>
    simp only [Option.ite_none_right_eq_some, Option.some.injEq] at hfails
    obtain ⟨-, rfl⟩ := hfails
    exact ⟨⟨trivial, trivial⟩, trivial⟩
  | _ => cases hfails

/-- The second attempt succeeds: the queue forgets the error of the first, Postgres keeps it. -/
theorem old_error_stays :
    ¬ ∀ (settings : Settings) (env : Surrounding Nat) (calls : Nat → VideoJob) (s : World × Nat)
      (jobId : String), env.Obeys Does (.worker 0) StatusCallsSucceed → Keyed s.1 → Accepted s.1 jobId →
        ∀ n, (calls n).jobId = jobId → Agree (afterCalls env settings calls s (n + 1)).1 jobId := by
  intro hall
  obtain ⟨job, row, hjob, hrow, hsame⟩ := hall {} stumbling (fun _ => sampleJob) (accepted, 0)
    sampleJob.jobId stumbling_obeys keyed_accepted accepted_accepted 1 rfl
  have hdiffer : ((afterCalls stumbling {} (fun _ => sampleJob) (accepted, 0) 2).1.kv.hashes
      (jobKey sampleJob.jobId)).map keptOf ≠
      ((afterCalls stumbling {} (fun _ => sampleJob) (accepted, 0) 2).1.db.job? sampleJob.jobId).map
        keptOf := by decide +kernel
  rw [hjob, hrow, Option.map_some, Option.map_some, hsame] at hdiffer
  exact hdiffer rfl

end NsfwDetector.Attempts
