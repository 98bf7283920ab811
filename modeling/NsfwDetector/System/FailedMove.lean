import NsfwDetector.System.Attempts

/-!
# An attempt whose Storj move fails

The job goes back to the queue, unless the move was answered with a status that the classification
takes for permanent.
-/

namespace NsfwDetector.Attempts

open Effects Prog

/-! ## How a move fails -/

/-- The statuses that `raise_for_status` rejects. -/
def Rejected (statusCode : Nat) : Prop := ¬ (200 ≤ statusCode ∧ statusCode < 300)

instance (statusCode : Nat) : Decidable (Rejected statusCode) := inferInstanceAs (Decidable (¬ _))

/-- What `move_if_required` can raise. -/
inductive MoveError : PyException → Prop
  | status {statusCode : Nat} {text : String} (h : Rejected statusCode) :
      MoveError (.httpStatusError statusCode text)
  | transport {className text : String} : MoveError (.requestError className text)
  | notConfigured :
      MoveError (.appError "storj_not_configured" "Storj interface is not configured" 503)

/-- A status that the classification takes for permanent, wherever it comes from. -/
def PermanentStatus (exc : PyException) : Prop :=
  ∃ statusCode text, exc = .httpStatusError statusCode text ∧ statusCode ≠ 408 ∧ statusCode ≠ 429 ∧
    statusCode < 500

theorem MoveError.isRetryable_iff {exc : PyException} (h : MoveError exc) :
    isRetryable exc = true ↔ ¬ PermanentStatus exc := by
  cases h with
  | @status statusCode text hrejected =>
    simp only [isRetryable, decide_eq_true_eq, PermanentStatus, PyException.httpStatusError.injEq]
    constructor
    · rintro hretry ⟨code, text', ⟨rfl, rfl⟩, h408, h429, h500⟩
      omega
    · intro hnot
      by_contra hretry
      exact hnot ⟨statusCode, text, ⟨rfl, rfl⟩, by omega, by omega, by omega⟩
  | transport => exact iff_of_true rfl fun ⟨_, _, h, _⟩ => by cases h
  | notConfigured => exact iff_of_true (by decide) fun ⟨_, _, h, _⟩ => by cases h

/-! ## The attempt -/

/-- The part of the `try` up to the verdict. -/
def judged (settings : Settings) (job : VideoJob) :
    Code (VideoMetadata × List FrameModerationResult × VideoModerationResult) := do
  PostgresJobState.markProcessing job
  await (.prepareJobDir job.jobId)
  classify settings job

variable {ν : Type} {env : Surrounding ν} {i : Caller} {settings : Settings}
  {message : QueuedVideoJobMessage} {s : World × ν}

/-- A message is handled, its job has attempts left, its verdict requires the move, and the move
raises. -/
structure FailedMove (env : Surrounding ν) (settings : Settings) (message : QueuedVideoJobMessage)
    (s : World × ν) where
  job : VideoJob
  read : World × ν
  readJob : ((RedisQueue.service settings).getStatusByJobId message.jobId).runIn env s =
    (.ok (some job), read)
  processingJob : VideoJob
  entry : World × ν
  enters : (entered settings job).runIn env read = (.ok (some processingJob), entry)
  budget : processingJob.attempts < settings.queueMaxAttempts
  verdict : VideoMetadata × List FrameModerationResult × VideoModerationResult
  beforeMove : World × ν
  judges : (judged settings processingJob).runIn env entry = (.ok verdict, beforeMove)
  required : verdict.2.2.moveRequired = true
  exc : PyException
  afterMove : World × ν
  raises : (moveIfRequired settings verdict.2.2 processingJob.publisherUserId).runIn env beforeMove =
    (.error exc, afterMove)

/-- The stores once the message is handled. -/
def afterwards (env : Surrounding ν) (settings : Settings) (message : QueuedVideoJobMessage)
    (s : World × ν) : World := (((worker settings).handleMessage message).runIn env s).2.1

theorem execute_offQueue (tx : List Write) (write : Write) :
    (execute tx write).Within OffQueue fun _ => True :=
  .bind (.perform (Op.execute tx write) trivial) fun _ _ => .pure trivial

theorem judged_offQueue (settings : Settings) (job : VideoJob) :
    (judged settings job).Within OffQueue fun _ => True := by
  have hmark : (PostgresJobState.markProcessing job).Within OffQueue fun _ => True :=
    .bind (execute_offQueue _ _) fun _ _ => .bind (execute_offQueue _ _) fun tx _ =>
      .bind (.perform (Op.commit tx) trivial) fun _ _ => .pure trivial
  refine .bind hmark fun _ _ => .bind (.perform (Op.prepareJobDir job.jobId) trivial) fun _ _ => ?_
  refine (classify_within settings job).mono (fun op hop => ?_) fun _ _ => trivial
  cases op with
  | now | downloadVideo | probe | ffmpeg | moderateImages => trivial
  | _ => exact hop.elim

theorem moveIfRequired_offQueue (settings : Settings) (result : VideoModerationResult)
    (publisherUserId : String) :
    (moveIfRequired settings result publisherUserId).Within OffQueue fun _ => True := by
  rw [moveIfRequired]
  split
  · exact .pure trivial
  · refine .bind (φ := fun _ => True) ?_ fun _ _ => .pure trivial
    rw [moveToNsfw]
    split
    · exact .throw
    · exact .perform (Op.postMove publisherUserId result.videoId) trivial

namespace FailedMove

variable (m : FailedMove env settings message s) (henv : env.Obeys Does i StatusCallsSucceed)

/-- The failure that `process` makes of the failure of the move. -/
def failure : ProcessingFailure :=
  classifyProcessingError m.exc m.processingJob.attempts settings.queueMaxAttempts

include henv

theorem jobId_eq (hkeyed : Keyed s.1) : m.job.jobId = message.jobId := by
  obtain ⟨t, hread, -⟩ := getStatusByJobId_run henv settings s message.jobId
  obtain ⟨hfound, -⟩ := Prod.mk.inj (hread.symm.trans m.readJob)
  exact hkeyed message.jobId m.job (Except.ok.inj hfound)

theorem try_run : ∃ t, (do
      PostgresJobState.markProcessing m.processingJob
      processVideo settings m.processingJob : Code Unit).runIn env m.entry = (.error m.exc, t) ∧
    t.1.kv = m.entry.1.kv := by
  obtain ⟨_, s₁, hmark, hjudged⟩ := runIn_bind_eq_ok.mp m.judges
  obtain ⟨_, s₂, hprepare, hclassify⟩ := runIn_bind_eq_ok.mp hjudged
  obtain ⟨s₃, hcleanup, hs₃⟩ := cleanupDir_run henv m.afterMove m.processingJob.jobId
  have hkv : m.beforeMove.1.kv = m.entry.1.kv := by
    have := offQueue_run henv (judged_offQueue settings m.processingJob) m.entry
    rwa [m.judges] at this
  have hkv' : m.afterMove.1.kv = m.beforeMove.1.kv := by
    have := offQueue_run henv (moveIfRequired_offQueue settings m.verdict.2.2
      m.processingJob.publisherUserId) m.beforeMove
    rwa [m.raises] at this
  refine ⟨s₃, ?_, by rw [hs₃, hkv', hkv]⟩
  have hraises : (finalizeClassification settings m.processingJob m.verdict.1 m.verdict.2.1
      m.verdict.2.2).runIn env m.beforeMove = (.error m.exc, m.afterMove) := runIn_bind_error m.raises
  rw [runIn_bind_ok hmark, processVideo, runIn_perform_bind hprepare, runIn_tryFinally,
    runIn_bind_ok hclassify]
  dsimp only
  rw [runIn_bind_error hraises, runIn_perform_bind hcleanup]
  rfl

/-- `process` records the failure of the move, and raises it. -/
theorem process_run (hjob : m.job.jobId = message.jobId) :
    ∃ (now now' : Time) (db : Db) (t : World × ν), ((processor settings).process m.job).runIn env m.read =
        (.error (.videoJobProcessingError m.failure), t) ∧
      t.1 = saved ⟨s.1.kv.apply (.hset (jobKey message.jobId) m.processingJob),
          db.updateJob message.jobId
            (Db.failedRow m.failure.status (errorCode m.exc) (errorMessage m.exc) now')⟩
        message.jobId (m.processingJob.stored.withStatus m.failure.status (some (errorCode m.exc))
          (some (errorMessage m.exc)) now) ∧
      m.processingJob.jobId = message.jobId := by
  obtain ⟨t₀, hread, hs₀⟩ := getStatusByJobId_run henv settings s message.jobId
  obtain ⟨hfound, hread'⟩ := Prod.mk.inj (hread.symm.trans m.readJob)
  have hold : m.read.1.kv.hashes (jobKey m.job.jobId) = some m.job := by
    rw [← hread', hs₀, hjob, Except.ok.inj hfound]
  obtain ⟨r, t₁, henter, hways⟩ := entered_run henv settings hold
  obtain ⟨hr, ht₁⟩ := Prod.mk.inj (henter.symm.trans m.enters)
  obtain ⟨-, hnone, -⟩ | ⟨-, -, hnone, -⟩ | ⟨-, -, now, hsome, hs₁⟩ := hways
  · cases hnone.symm.trans (Except.ok.inj hr)
  · cases hnone.symm.trans (Except.ok.inj hr)
  have hprocessing : m.job.withStatus .processing none none now = m.processingJob :=
    Option.some.inj (hsome.symm.trans (Except.ok.inj hr))
  have hid : m.processingJob.jobId = message.jobId := hprocessing ▸ hjob
  have hentry : m.entry.1 = saved s.1 message.jobId m.processingJob := by
    rw [← ht₁, hs₁, ← hread', hs₀, hjob, hprocessing]
  obtain ⟨t₂, htry, hkv⟩ := m.try_run henv
  have hhash : t₂.1.kv.hashes (jobKey m.processingJob.jobId) = some m.processingJob.stored := by
    rw [hkv, hentry, hid, saved_hashes]
  obtain ⟨now, now', t₃, hrecord, hs₃⟩ := recordFailure_run henv settings m.exc hhash
  refine ⟨now, now', t₂.1.db, t₃, ?_, ?_, hid⟩
  · rw [Attempts.process_run, runIn_bind_ok m.enters]
    exact (runIn_tryCatch_error htry).trans hrecord
  · rw [hs₃, hkv, hentry, hid]
    rfl

omit henv in
/-- The worker takes the failure up. -/
theorem handleMessage_run (hname : message.jobId ≠ "") {t : World × ν}
    (hprocess : ((processor settings).process m.job).runIn env m.read =
      (.error (.videoJobProcessingError m.failure), t)) :
    ((worker settings).handleMessage message).runIn env s =
      ((worker settings).settle message m.job.jobId (some m.failure)).runIn env t := by
  rw [VideoQueueWorker.handleMessage, if_neg hname]
  refine (runIn_bind_ok m.readJob).trans (runIn_bind_ok ?_)
  rw [VideoQueueWorker.processed]
  exact (runIn_tryCatch_error (runIn_bind_error hprocess)).trans rfl

end FailedMove

/-- The entry of a job whose message is through: it is at the end of the stream once more. -/
theorem requeue_run (settings : Settings) (henv : env.Obeys Does i StatusCallsSucceed) {t : World × ν} {jobId : String}
    {job : VideoJob} (hjob : t.1.kv.hashes (jobKey jobId) = some job) (messageId : Nat) :
    ∃ t', (do
        (RedisQueue.service settings).requeueVideoJob jobId
        (RedisQueue.service settings).ackVideoJobMessage messageId : Code Unit).runIn env t = (.ok (), t') ∧
      t'.1 = { t.1 with kv := (t.1.kv.apply (.xadd job.jobId job)).apply (.xack messageId) } := by
  obtain ⟨t₁, hget, ht₁⟩ := hgetall_run henv t (jobKey jobId)
  obtain ⟨t₂, hxadd, ht₂⟩ := writes_run henv t₁ [.xadd job.jobId job]
  obtain ⟨t₃, hxack, ht₃⟩ := writes_run henv t₂ [.xack messageId]
  refine ⟨t₃, ?_, ?_⟩
  · simp only [QueueService.requeueVideoJob, QueueService.ackVideoJobMessage, RedisQueue.service,
      RedisQueue.repository, RedisQueue.requeueVideoJob, RedisQueue.ackVideoJobMessage,
      RedisQueue.getJobById]
    refine (runIn_bind_ok (a := ()) ?_).trans hxack
    rw [runIn_perform_bind hget, hjob]
    exact hxadd
  · rw [ht₃, ht₂, ht₁]
    rfl

namespace FailedMove

/-- `process` raised a retryable failure and recorded it, the job is back in the stream once, and
its message is acknowledged. -/
structure Retried (m : FailedMove env settings message s) : Prop where
  raised : ∃ failure, failure.retryable = true ∧
    (((processor settings).process m.job).runIn env m.read).1 = .error (.videoJobProcessingError failure)
  handled : (((worker settings).handleMessage message).runIn env s).1 = .ok ()
  queue : ∃ job, (afterwards env settings message s).kv.hashes (jobKey message.jobId) = some job ∧
    job.status = .failedRetryable
  rows : ∀ row ∈ (afterwards env settings message s).db.jobs, row.jobId = message.jobId →
    row.status = .failedRetryable
  requeued : ∃ payload, (afterwards env settings message s).kv.fresh =
    s.1.kv.fresh ++ [⟨s.1.kv.nextId, message.jobId, payload⟩]
  acked : (afterwards env settings message s).kv.pending =
    s.1.kv.pending.filter (·.1.id ≠ message.messageId)
  notDead : (afterwards env settings message s).kv.dlq = s.1.kv.dlq

end FailedMove

/-- The worker retries exactly what the classification takes for retryable. -/
theorem FailedMove.retried_iff (m : FailedMove env settings message s)
    (henv : env.Obeys Does i StatusCallsSucceed) (hkeyed : Keyed s.1) (hname : message.jobId ≠ "") :
    m.Retried ↔ isRetryable m.exc = true := by
  have hjob : m.job.jobId = message.jobId := m.jobId_eq henv hkeyed
  obtain ⟨now, now', db, t, hprocess, ht, hid⟩ := m.process_run henv hjob
  have hretryable : m.failure.retryable = true ↔ isRetryable m.exc = true := by
    rw [FailedMove.failure, classifyProcessingError, Bool.and_eq_true, decide_eq_true_eq]
    exact and_iff_left m.budget
  rw [← hretryable]
  constructor
  · rintro ⟨⟨failure, hfailure, hraised⟩, -⟩
    rw [hprocess] at hraised
    cases hraised
    exact hfailure
  · intro hretry
    have hstatus : m.failure.status = .failedRetryable :=
      (classifyProcessingError_retryable _ _ _ hretry).1
    have hhandle := m.handleMessage_run hname hprocess
    rw [VideoQueueWorker.settle, if_pos hretry, hjob] at hhandle
    obtain ⟨job, hhash, hid', hfailed⟩ : ∃ job, t.1.kv.hashes (jobKey message.jobId) = some job ∧
        job.jobId = message.jobId ∧ job.status = m.failure.status := by
      rw [ht]
      refine ⟨_, saved_hashes .., ?_, rfl⟩
      exact hid
    obtain ⟨t', hsettle, ht'⟩ := requeue_run settings henv hhash message.messageId
    have hrun := hhandle.trans hsettle
    have hafter : afterwards env settings message s = t'.1 := by rw [afterwards, hrun]
    refine ⟨⟨m.failure, hretry, by rw [hprocess]⟩, by rw [hrun], ?_, ?_, ?_, ?_, ?_⟩
    · exact ⟨job, by rw [hafter, ht']; exact hhash, hfailed.trans hstatus⟩
    · intro row hrow hrowId
      rw [hafter, ht', ht] at hrow
      obtain ⟨old, -, rfl⟩ := List.mem_map.mp hrow
      split at hrowId
      · next hsame => rw [if_pos hsame, ← hstatus]; rfl
      · next hother => exact absurd hrowId hother
    · rw [hafter, ht', ht, hid']
      exact ⟨_, rfl⟩
    · rw [hafter, ht', ht]
      rfl
    · rw [hafter, ht', ht]
      rfl

/-- A failed move is retried unless it was answered with a status taken for permanent. -/
theorem failed_move_retried_iff (henv : env.Obeys Does i StatusCallsSucceed) (hkeyed : Keyed s.1)
    (hname : message.jobId ≠ "") (m : FailedMove env settings message s) (hmove : MoveError m.exc) :
    m.Retried ↔ ¬ PermanentStatus m.exc :=
  (m.retried_iff henv hkeyed hname).trans hmove.isRetryable_iff

/-! ### One job, one answer to the move -/

/-- What the move raises, where the handling of the message comes to it with attempts left. -/
def moveError? (env : Surrounding ν) (settings : Settings) (message : QueuedVideoJobMessage)
    (s : World × ν) : Option PyException :=
  match ((RedisQueue.service settings).getStatusByJobId message.jobId).runIn env s with
  | (.ok (some job), read) =>
    match (entered settings job).runIn env read with
    | (.ok (some processingJob), entry) =>
      match (judged settings processingJob).runIn env entry with
      | (.ok verdict, beforeMove) =>
        match (moveIfRequired settings verdict.2.2 processingJob.publisherUserId).runIn env beforeMove with
        | (.error exc, _) =>
          if processingJob.attempts < settings.queueMaxAttempts ∧ verdict.2.2.moveRequired = true then
            some exc
          else none
        | _ => none
      | _ => none
    | _ => none
  | _ => none

theorem exists_failedMove {exc : PyException} (h : moveError? env settings message s = some exc) :
    ∃ m : FailedMove env settings message s, m.exc = exc := by
  simp only [moveError?] at h
  split at h
  · next job read hread =>
    split at h
    · next processingJob entry hentered =>
      split at h
      · next verdict beforeMove hjudged =>
        split at h
        · next exc' afterMove hmove =>
          split at h
          · next hrules =>
            obtain rfl := Option.some.inj h
            exact ⟨⟨job, read, hread, processingJob, entry, hentered, hrules.1, verdict, beforeMove,
              hjudged, hrules.2, exc', afterMove, hmove⟩, rfl⟩
          · cases h
        · cases h
      · cases h
    · cases h
  · cases h

/-- Every frame is explicit, and the move is answered with `statusCode`. -/
def answering (statusCode : Nat) : Surrounding Nat :=
  serving Verdict.pornOutput fun _ op =>
    match op with
    | .postMove _ _ => some (.httpStatusError statusCode "")
    | _ => none

theorem answering_obeys (statusCode : Nat) :
    (answering statusCode).Obeys Does (.worker 0) StatusCallsSucceed := by
  refine serving_obeys _ fun n op e hfails => ?_
  cases op with
  | postMove =>
    obtain rfl := Option.some.inj hfails
    exact ⟨⟨trivial, trivial⟩, trivial⟩
  | _ => cases hfails

/-- The worker has read the message of the sample job. -/
def handed : World where
  kv := { ((({} : Kvrocks Caller).apply (.hset (jobKey sampleJob.jobId) sampleJob)).apply
    (.xadd sampleJob.jobId sampleJob)).xreadgroup (.worker 0) 1 with groupCreated := true }

def handedMessage : QueuedVideoJobMessage := ⟨1, sampleJob.jobId, sampleJob.stored⟩

theorem keyed_handed : Keyed handed := keyed_of_one_job sampleJob rfl

theorem unavailable_move_retried : ∃ m : FailedMove (answering 503) storj handedMessage (handed, 0),
    MoveError m.exc ∧ (m.Retried ↔ ¬ PermanentStatus m.exc) ∧ ¬ PermanentStatus m.exc := by
  obtain ⟨m, hexc⟩ := exists_failedMove
    (show moveError? (answering 503) storj handedMessage (handed, 0) = some (.httpStatusError 503 "") by
      decide +kernel)
  have hmove : MoveError m.exc := hexc ▸ .status (by decide)
  refine ⟨m, hmove, failed_move_retried_iff (answering_obeys 503) keyed_handed (by decide) m hmove, ?_⟩
  rintro ⟨statusCode, text, heq, -, -, h500⟩
  rw [hexc] at heq
  obtain ⟨rfl, -⟩ := PyException.httpStatusError.inj heq
  exact absurd h500 (by decide)

/-- The move is answered with 404 at the first attempt of three. -/
theorem missing_video_not_retried :
    ¬ ∀ (settings : Settings) (env : Surrounding Nat) (message : QueuedVideoJobMessage) (s : World × Nat),
      env.Obeys Does (.worker 0) StatusCallsSucceed → Keyed s.1 → message.jobId ≠ "" →
        ∀ m : FailedMove env settings message s, MoveError m.exc → m.Retried := by
  intro hall
  obtain ⟨m, hexc⟩ := exists_failedMove
    (show moveError? (answering 404) storj handedMessage (handed, 0) = some (.httpStatusError 404 "") by
      decide +kernel)
  have hretried : m.Retried := hall storj (answering 404) handedMessage (handed, 0)
    (answering_obeys 404) keyed_handed (by decide) m (hexc ▸ .status (by decide))
  have hretry := (m.retried_iff (answering_obeys 404) keyed_handed (by decide)).mp hretried
  rw [hexc] at hretry
  exact absurd hretry (by decide)

end NsfwDetector.Attempts
