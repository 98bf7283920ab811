import NsfwDetector.System.Footprint
import NsfwDetector.System.Likeness

/-!
# What the status of a job tells of its signed URL

Two runs over alike worlds take the same steps, and no exception shows in the first 1000 characters
of its text what tells the worlds apart. Then they store the same errors, and answer the same.
-/

namespace NsfwDetector

open Effects

namespace Secrecy

open Prog.Related (bind pure throw tryCatch tryFinally)

abbrev Alike {α β : Type} (R : α → β → Prop) (p : Code α) (p' : Code β) : Prop :=
  p.Related likeness (Both SameError R) p'

/-! ## Calls -/

/-- The answer holds no job. -/
def Plain : Op → Prop
  | .hgetall _ | .selectJob _ | .xreadgroup _ => False
  | _ => True

section

variable {α β : Type} {R : α → β → Prop} {p q : Code α} {p' q' : Code β} {op op' : Op}

theorem eq_of_sameAnswer (hop : Plain op) {b b' : Ans op} (h : SameAnswer op op b b') : b = b' := by
  cases op with
  | hgetall | selectJob | xreadgroup => exact hop.elim
  | _ => exact eq_of_heq h

theorem not_mayQuote (op : Op) : ¬ MayQuote op op := by
  cases op with
  | downloadVideo | execute => exact fun h => h rfl
  | _ => exact id

theorem ask (hop : SameOp op op') : Alike (SameAnswer op op') (await op) (await op') :=
  (Prog.Related.perform hop).mono fun _ _ h => h.mono (fun _ _ => sameError_of_reply) fun _ _ => id

theorem related_of_plain {φ : α → Prop} (h : p.Within Plain φ) : p.Related likeness Eq p := by
  refine h.related (fun op _ => .refl op) fun op hop r r' hr => ?_
  cases hr with
  | ok hb => rw [eq_of_sameAnswer hop hb]
  | error he => rw [he.resolve_right fun hquote => not_mayQuote op hquote.1]

/-- A program that reads no job does the same in both runs. -/
theorem plain {φ : α → Prop} (h : p.Within Plain φ) : Alike Eq p p := by
  refine (related_of_plain h).mono fun r r' hr => ?_
  subst hr
  cases r with
  | ok a => exact .ok rfl
  | error e => exact .error (.refl e)

theorem askPlain (op : Op) (hop : Plain op) : Alike Eq (await op) (await op) := plain (.perform op hop)

/-- A call of which only an exception matters. -/
theorem make (hop : SameOp op op') : Alike (fun _ _ => True) (await op) (await op') :=
  (ask hop).mono fun _ _ h => h.mono (fun _ _ => id) fun _ _ _ => trivial

theorem writes {commands commands' : List Command}
    (h : List.Forall₂ SameCommand commands commands') :
    Alike (fun _ _ => True) (await (.writes commands)) (await (.writes commands')) := make (.writes h)

theorem alike_ite {c : Prop} [Decidable c] (hp : c → Alike R p p') (hq : ¬ c → Alike R q q') :
    Alike R (if c then p else q) (if c then p' else q') := by
  split
  · next hc => exact hp hc
  · next hc => exact hq hc

end

/-! ## The queue -/

section

variable {settings : Settings} {request request' : VideoDetectRequest} {job job' : VideoJob}
  {message message' : QueuedVideoJobMessage}

inductive SameResult : EnqueueResult → EnqueueResult → Prop
  | mk {job job' : VideoJob} {enqueued : Bool} (h : SameJob job job') :
      SameResult ⟨job, enqueued⟩ ⟨job', enqueued⟩

theorem getJobById_alike (jobId : String) : Alike (Option.Rel SameJob) (RedisQueue.getJobById jobId)
    (RedisQueue.getJobById jobId) := ask (.refl (.hgetall (jobKey jobId)))

theorem getJobByVideoId_alike (videoId : String) : Alike (Option.Rel SameJob)
    (RedisQueue.getJobByVideoId videoId) (RedisQueue.getJobByVideoId videoId) := by
  refine bind (askPlain (.get _) trivial) fun jobId jobId' hjobId => ?_
  subst hjobId
  cases jobId with
  | none => exact pure .none
  | some jobId => exact alike_ite (fun _ => pure .none) fun _ => getJobById_alike jobId

theorem alreadyThere_alike (h : SameJob job job') :
    Alike SameResult (RedisQueue.alreadyThere job) (RedisQueue.alreadyThere job') := by
  cases h with
  | mk h => exact bind (askPlain (.writes _) trivial) fun _ _ _ => pure (.mk (.mk h))

theorem storeNewJob_alike (h : SameRequest request request') :
    Alike SameResult (RedisQueue.storeNewJob settings request)
      (RedisQueue.storeNewJob settings request') := by
  refine bind (askPlain .now trivial) fun now now' hnow => ?_
  subst hnow
  have hjob := h.job now
  cases h with
  | mk hurl hne =>
    refine alike_ite (fun _ => ?_) fun _ => ?_
    · refine bind (writes (.cons (.hset hjob) .nil)) fun _ _ _ => ?_
      refine bind (askPlain (.writes _) trivial) fun _ _ _ => ?_
      refine bind (askPlain (.writes _) trivial) fun _ _ _ => ?_
      refine bind (writes (.cons (.xadd hjob) .nil)) fun _ _ _ => ?_
      exact pure (.mk hjob)
    · refine bind (writes ?_) fun _ _ _ => pure (.mk hjob)
      exact .cons (.hset hjob) (.cons (.refl _) (.cons (.refl _) (.cons (.xadd hjob) .nil)))

theorem enqueueVideoJob_alike (h : SameRequest request request') :
    Alike SameResult (RedisQueue.enqueueVideoJob settings request)
      (RedisQueue.enqueueVideoJob settings request') := by
  have hstore : Alike SameResult (RedisQueue.storeNewJob settings request)
      (RedisQueue.storeNewJob settings request') := storeNewJob_alike h
  cases h with
  | mk hurl hne =>
    refine bind (getJobById_alike request.jobId) fun found found' hfound => ?_
    cases hfound with
    | some hjob => exact alreadyThere_alike hjob
    | none =>
      refine bind (askPlain (.get _) trivial) fun jobId jobId' hjobId => ?_
      subst hjobId
      refine alike_ite (fun _ => ?_) fun _ => hstore
      refine bind (getJobById_alike _) fun existing existing' hexisting => ?_
      cases hexisting with
      | some hjob => exact alreadyThere_alike hjob
      | none => exact hstore

theorem updateStatus_alike (jobId : String) (status : VideoJobStatus)
    (lastErrorCode lastErrorMessage : Option String) :
    Alike (Option.Rel SameJob) (RedisQueue.updateStatus jobId status lastErrorCode lastErrorMessage)
      (RedisQueue.updateStatus jobId status lastErrorCode lastErrorMessage) := by
  refine bind (getJobById_alike jobId) fun found found' hfound => ?_
  cases hfound with
  | none => exact pure .none
  | some hjob =>
    refine bind (askPlain .now trivial) fun now now' hnow => ?_
    subst hnow
    have hupdated := hjob.withStatus status lastErrorCode lastErrorMessage now
    exact bind (writes (.cons (.hset hupdated) .nil)) fun _ _ _ => pure (.some hupdated)

theorem requeueVideoJob_alike (jobId : String) :
    Alike (fun _ _ => True) (RedisQueue.requeueVideoJob jobId) (RedisQueue.requeueVideoJob jobId) := by
  refine bind (getJobById_alike jobId) fun found found' hfound => ?_
  cases hfound with
  | none => exact pure trivial
  | some hjob =>
    cases hjob with
    | mk h => exact writes (.cons (.xadd (.mk h)) .nil)

theorem moveToDlq_alike (h : SameMessage message message') (errorCode errorMessage : String) :
    Alike (fun _ _ => True) (RedisQueue.moveVideoJobMessageToDlq message errorCode errorMessage)
      (RedisQueue.moveVideoJobMessageToDlq message' errorCode errorMessage) := by
  have hentry := h.dlqEntry errorCode errorMessage
  cases h with
  | mk h =>
    refine bind (writes (.cons (.xaddDlq hentry) .nil)) fun _ _ _ => ?_
    exact writes (.cons (.refl _) .nil)

theorem readWithPoolRetry_alike {α : Type} {R : α → α → Prop} {operation operation' : Code α}
    (h : Alike R operation operation') :
    Alike R (readWithPoolRetry settings operation) (readWithPoolRetry settings operation') := by
  unfold readWithPoolRetry
  induction List.range' 1 (poolMaxAttempts settings) with
  | nil => exact throw (.refl _)
  | cons attempt rest ih =>
    refine tryCatch h fun e e' he => ?_
    cases e with
    | maxConnectionsError text =>
      cases e' with
      | maxConnectionsError text' =>
        refine alike_ite (fun _ => throw he) fun _ => ?_
        split
        · exact throw (.refl _)
        · exact ih
      | _ => cases he.1
    | _ =>
      cases e' with
      | maxConnectionsError text' => cases he.1
      | _ => exact throw he

theorem ensureConsumerGroup_alike :
    Alike Eq RedisQueue.ensureConsumerGroup RedisQueue.ensureConsumerGroup := by
  refine plain (φ := fun _ => True) (.tryCatch (.perform Op.xgroupCreate trivial) fun e => ?_)
  split
  · exact .pure trivial
  · exact .throw

end

/-! ## The tables -/

section

variable {settings : Settings} {job job' : VideoJob} {tx tx' : List Write}

theorem execute_alike {write write' : Write} (htx : List.Forall₂ SameWrite tx tx')
    (h : SameWrite write write') :
    Alike (List.Forall₂ SameWrite) (execute tx write) (execute tx' write') :=
  bind (ask (.execute htx h)) fun _ _ _ => pure (forall₂_concat htx h)

theorem commit_alike (h : List.Forall₂ SameWrite tx tx') :
    Alike (fun _ _ => True) (commit tx) (commit tx') :=
  bind (ask (.commit h)) fun _ _ _ => pure trivial

theorem markProcessing_alike (h : SameJob job job') :
    Alike (fun _ _ => True) (PostgresJobState.markProcessing job)
      (PostgresJobState.markProcessing job') := by
  have hinsert : SameWrite (.insertVideoJobOrNothing job.inserted)
      (.insertVideoJobOrNothing job'.inserted) := by
    cases h with
    | mk h => exact .insertVideoJobOrNothing (@SameJob.mk job.inserted _ h)
  rw [PostgresJobState.markProcessing, PostgresJobState.markProcessing, h.jobId]
  refine bind (execute_alike .nil hinsert) fun tx tx' htx => ?_
  exact bind (execute_alike htx (.refl _)) fun _ _ htx => commit_alike htx

theorem markFailed_alike (jobId : String) (status : VideoJobStatus) (errorCode errorMessage : String) :
    Alike (fun _ _ => True) (PostgresJobState.markFailed jobId status errorCode errorMessage)
      (PostgresJobState.markFailed jobId status errorCode errorMessage) :=
  alike_ite (fun _ => throw (.refl _)) fun _ =>
    bind (execute_alike .nil (.refl _)) fun _ _ htx => commit_alike htx

theorem executeAll_alike (rest : List Write) (htx : List.Forall₂ SameWrite tx tx') :
    Alike (List.Forall₂ SameWrite) (executeAll tx rest) (executeAll tx' rest) := by
  induction rest generalizing tx tx' with
  | nil => exact pure htx
  | cons write rest ih => exact bind (execute_alike htx (.refl write)) fun _ _ htx => ih htx

/-! ## One attempt -/

theorem moveIfRequired_plain (settings : Settings) (result : VideoModerationResult)
    (publisherUserId : String) :
    (moveIfRequired settings result publisherUserId).Within Plain fun _ => True := by
  unfold moveIfRequired moveToNsfw
  split
  · exact .pure trivial
  · split
    · exact .throw
    · exact .bind (.perform (Op.postMove _ _) trivial) fun _ _ => .pure trivial

theorem storageAction_plain (settings : Settings) (job : VideoJob) (result : VideoModerationResult)
    (response : Option StorjMoveResponse) :
    (storageAction settings job result response).Within Plain fun _ => True := by
  cases response with
  | none => exact .pure trivial
  | some response =>
    refine .bind (.perform Op.now trivial) fun now _ => ?_
    exact .bind (.perform Op.uuid4 trivial) fun uuid _ => .pure trivial

theorem pushStorageAction_plain (settings : Settings) (action : Option StorageAction) :
    (pushStorageAction settings action).Within Plain fun _ => True := by
  cases action with
  | none => exact .pure trivial
  | some action => exact .bind (.perform Op.now trivial) fun _ _ => .perform (Op.writes _) trivial

theorem finalizeClassification_alike (h : SameJob job job') (metadata : VideoMetadata)
    (frames : List FrameModerationResult) (result : VideoModerationResult) :
    Alike Eq (finalizeClassification settings job metadata frames result)
      (finalizeClassification settings job' metadata frames result) := by
  cases h with
  | mk h =>
    refine bind (plain (moveIfRequired_plain settings result job.publisherUserId))
      fun response response' hresponse => ?_
    subst hresponse
    refine bind (plain (storageAction_plain settings job result response))
      fun action action' haction => ?_
    subst haction
    refine bind (R := fun _ _ => True) ?_ fun _ _ _ => ?_
    · exact bind (executeAll_alike (finalTx settings job frames result action) .nil)
        fun _ _ htx => commit_alike htx
    refine bind (R := fun _ _ => True) ?_ fun _ _ _ => pure rfl
    refine bind (askPlain .now trivial) fun now now' hnow => ?_
    subst hnow
    refine bind (writes (.cons .rpush .nil)) fun _ _ _ => ?_
    refine bind (askPlain (.writes _) trivial) fun _ _ _ => ?_
    refine bind (plain (pushStorageAction_plain settings action)) fun _ _ _ => ?_
    exact writes (.cons (.refl _) .nil)

theorem plain_of_local {α : Type} {φ : α → Prop} {p : Code α} (h : p.Within Op.Local φ) :
    Alike Eq p p := by
  refine plain (h.mono (fun op hop => ?_) fun _ => id)
  cases op <;> trivial

theorem classify_alike (h : SameJob job job') :
    Alike Eq (classify settings job) (classify settings job') := by
  cases h with
  | mk h =>
    refine bind (ask (.downloadVideo h)) fun _ _ _ => ?_
    refine bind (askPlain (.probe job.jobId job.videoId) trivial) fun metadata metadata' hmetadata => ?_
    subst hmetadata
    refine bind (plain_of_local (extractFrames_within job.jobId)) fun frames frames' hframes => ?_
    subst hframes
    refine bind (plain_of_local (.done _)) fun batches batches' hbatches => ?_
    subst hbatches
    refine bind (plain_of_local (moderateBatches_within settings batches resultsOf_nil))
      fun results results' hresults => ?_
    subst hresults
    refine bind (askPlain .now trivial) fun now now' hnow => ?_
    subst hnow
    refine bind (plain_of_local (.done _)) fun result result' hresult => ?_
    subst hresult
    exact pure rfl

theorem processVideo_alike (h : SameJob job job') :
    Alike (fun _ _ => True) (processVideo settings job) (processVideo settings job') := by
  have hjobId := h.jobId
  refine bind (R := fun _ _ => True) ?_ fun _ _ _ => ?_
  · rw [hjobId]
    exact make (.refl (.prepareJobDir job'.jobId))
  · refine tryFinally (bind (classify_alike h) fun v v' hv => ?_) ?_
    · subst hv
      refine bind (finalizeClassification_alike h _ _ _) fun _ _ _ => ?_
      rw [hjobId]
      exact bind (updateStatus_alike _ _ _ _) fun _ _ _ => pure trivial
    · rw [hjobId]
      exact make (.refl (.cleanupDir job'.jobId))

theorem recordFailure_alike {e e' : PyException} (h : SameJob job job') (he : SameError e e') :
    Alike (fun _ _ => True) ((processor settings).recordFailure job e)
      ((processor settings).recordFailure job' e') := by
  cases h with
  | mk h =>
    unfold VideoJobProcessor.recordFailure
    rw [he.classify]
    refine bind (updateStatus_alike _ _ _ _) fun _ _ _ => ?_
    exact bind (markFailed_alike _ _ _ _) fun _ _ _ => throw (.refl _)

theorem attempt_alike (h : SameJob job job') :
    Alike (fun _ _ => True) ((processor settings).attempt job) ((processor settings).attempt job') :=
  tryCatch (bind (markProcessing_alike h) fun _ _ _ => processVideo_alike h)
    fun _ _ he => recordFailure_alike h he

theorem SameJob.getD {found found' : Option VideoJob} (hfound : Option.Rel SameJob found found')
    (h : SameJob job job') : SameJob (found.getD job) (found'.getD job') := by
  cases hfound with
  | none => exact h
  | some hjob => exact hjob

theorem isClassified_congr {found found' : Option VideoJob} (hfound : Option.Rel SameJob found found') :
    found.map (·.status) = found'.map (·.status) := by
  cases hfound with
  | none => rfl
  | some hjob =>
    cases hjob
    rfl

theorem process_alike (h : SameJob job job') :
    Alike (fun _ _ => True) ((processor settings).process job) ((processor settings).process job') := by
  unfold VideoJobProcessor.process
  rw [h.jobId]
  refine bind (readWithPoolRetry_alike (getJobById_alike _)) fun current current' hcurrent => ?_
  have hjob := SameJob.getD hcurrent h
  simp only
  generalize current.getD job = currentJob, current'.getD job' = currentJob' at hjob
  cases hjob with
  | mk hurl =>
    refine alike_ite (fun _ => pure trivial) fun _ => ?_
    refine bind (ask (.refl (.selectJob _))) fun persisted persisted' hpersisted => ?_
    rw [isClassified_congr hpersisted]
    refine alike_ite (fun _ => ?_) fun _ => ?_
    · exact bind (updateStatus_alike _ _ _ _) fun _ _ _ => pure trivial
    · refine bind (updateStatus_alike _ _ _ _) fun updated updated' hupdated => ?_
      exact attempt_alike (SameJob.getD hupdated (.mk hurl))

end

/-! ## The callers -/

section

variable {settings : Settings} {job job' : VideoJob} {message message' : QueuedVideoJobMessage}

theorem processed_alike (h : SameJob job job') :
    Alike Eq ((worker settings).processed job) ((worker settings).processed job') := by
  refine tryCatch (bind (process_alike h) fun _ _ _ => pure rfl) fun e e' he => ?_
  cases e with
  | videoJobProcessingError failure =>
    cases e' with
    | videoJobProcessingError failure' =>
      obtain rfl : failure = failure' := PyException.videoJobProcessingError.inj he.1
      exact pure rfl
    | _ => cases he.1
  | _ =>
    cases e' with
    | videoJobProcessingError failure' => cases he.1
    | _ => exact throw he

theorem settle_alike (h : SameMessage message message') (jobId : String)
    (failure : Option ProcessingFailure) :
    Alike (fun _ _ => True) ((worker settings).settle message jobId failure)
      ((worker settings).settle message' jobId failure) := by
  have hack : Alike (fun _ _ => True) (RedisQueue.ackVideoJobMessage message.messageId)
      (RedisQueue.ackVideoJobMessage message'.messageId) := by
    cases h with
    | mk h => exact writes (.cons (.refl _) .nil)
  cases failure with
  | none => exact hack
  | some failure =>
    refine alike_ite (fun _ => ?_) fun _ => moveToDlq_alike h _ _
    exact bind (requeueVideoJob_alike jobId) fun _ _ _ => hack

theorem handleMessage_alike (h : SameMessage message message') :
    Alike (fun _ _ => True) ((worker settings).handleMessage message)
      ((worker settings).handleMessage message') := by
  have hjobId : message.jobId = message'.jobId := by
    cases h
    rfl
  unfold VideoQueueWorker.handleMessage
  rw [hjobId]
  refine alike_ite (fun _ => moveToDlq_alike h _ _) fun _ => ?_
  refine bind (readWithPoolRetry_alike (getJobById_alike _)) fun found found' hfound => ?_
  cases hfound with
  | none => exact moveToDlq_alike h _ _
  | some hjob =>
    refine bind (processed_alike hjob) fun failure failure' hfailure => ?_
    subst hfailure
    rw [hjob.jobId]
    exact settle_alike h _ failure

theorem forM_alike {α : Type} {R : α → α → Prop} {f : α → Code Unit} {l l' : List α}
    (hf : ∀ a b, R a b → Alike (fun _ _ => True) (f a) (f b)) (h : List.Forall₂ R l l') :
    Alike (fun _ _ => True) (l.forM f) (l'.forM f) := by
  induction h with
  | nil => exact pure trivial
  | cons hab _ ih => exact bind (hf _ _ hab) fun _ _ _ => ih

theorem runOnce_alike : Alike Eq (worker settings).runOnce (worker settings).runOnce := by
  refine bind (ask (.refl (.xreadgroup _))) fun messages messages' hmessages => ?_
  refine bind (forM_alike (fun _ _ => handleMessage_alike) hmessages) fun _ _ _ => ?_
  exact pure hmessages.length_eq

theorem rounds_alike (n : Nat) :
    Alike (fun _ _ => True) ((worker settings).rounds n) ((worker settings).rounds n) := by
  induction n with
  | zero => exact pure trivial
  | succ n ih => exact bind runOnce_alike fun _ _ _ => ih

inductive SameReply : Reply → Reply → Prop
  | finished : SameReply .finished .finished
  | enqueued {result result' : EnqueueResult} (h : SameResult result result') :
      SameReply (.enqueued result) (.enqueued result')
  | status (response : Option VideoStatusResponse) : SameReply (.status response) (.status response)

theorem reader_alike (videoId : String) :
    Alike SameReply (readerProgram settings videoId) (readerProgram settings videoId) := by
  refine bind (R := Eq) ?_ fun response response' hresponse => hresponse ▸ pure (.status response)
  refine bind (readWithPoolRetry_alike (getJobByVideoId_alike videoId)) fun found found' hfound => ?_
  cases hfound with
  | none =>
    refine bind (R := Eq) ?_ fun result result' hresult => hresult ▸ pure rfl
    exact bind (askPlain (.selectLatestResult videoId) trivial) fun row row' hrow => hrow ▸ pure rfl
  | some hjob =>
    cases hjob with
    | mk hurl =>
      refine alike_ite (fun _ => ?_) fun _ => pure rfl
      refine bind (R := Eq) ?_ fun result result' hresult => hresult ▸ pure rfl
      exact bind (askPlain (.selectResult _) trivial) fun row row' hrow => hrow ▸ pure rfl

/-- The programs of one caller in the two runs. -/
inductive SameProgram (settings : Settings) : Caller → Code Reply → Code Reply → Prop
  | worker {nr rounds : Nat} : SameProgram settings (.worker nr) (workerProgram settings rounds)
      (workerProgram settings rounds)
  | api {nr : Nat} {request request' : VideoDetectRequest} (h : SameRequest request request') :
      SameProgram settings (.api nr) (apiProgram settings request) (apiProgram settings request')
  | reader {nr : Nat} {videoId : String} : SameProgram settings (.reader nr)
      (readerProgram settings videoId) (readerProgram settings videoId)
  | attempt {nr : Nat} {job job' : VideoJob} (h : SameJob job job') : SameProgram settings (.attempt nr)
      (attemptProgram settings job) (attemptProgram settings job')

theorem SameProgram.alike {i : Caller} {p p' : Code Reply} (h : SameProgram settings i p p') :
    Alike SameReply p p' := by
  cases h with
  | worker =>
    refine bind (R := fun _ _ => True) ?_ fun _ _ _ => pure .finished
    exact bind ensureConsumerGroup_alike fun _ _ _ => rounds_alike _
  | api h => exact bind (enqueueVideoJob_alike h) fun _ _ hresult => pure (.enqueued hresult)
  | reader => exact reader_alike _
  | attempt h => exact bind (process_alike h) fun _ _ _ => pure .finished

end

/-! ## Two runs -/

def lastError (job : VideoJob) : Option String × Option String := (job.lastErrorCode, job.lastErrorMessage)

/-- The two moments keep the same errors, and the same responses have been given. -/
structure SameErrors (c c' : Moment) : Prop where
  queue : ∀ key, (c.state.kv.hashes key).map lastError = (c'.state.kv.hashes key).map lastError
  rows : ∀ jobId, (c.state.db.job? jobId).map lastError = (c'.state.db.job? jobId).map lastError
  dlq : c.state.kv.dlq.map (fun entry => (entry.errorCode, entry.errorMessage)) =
    c'.state.kv.dlq.map fun entry => (entry.errorCode, entry.errorMessage)
  responses : ∀ i response, c.threads i = .running (.done (.ok (.status response))) →
    c'.threads i = .running (.done (.ok (.status response)))

theorem lastError_congr {found found' : Option VideoJob} (h : Option.Rel SameJob found found') :
    found.map lastError = found'.map lastError := by
  cases h with
  | none => rfl
  | some hjob =>
    cases hjob
    rfl

theorem sameErrors_of_related {c c' : Moment}
    (h : RelatedConfigs likeness SameWorld (fun _ => Both SameError SameReply) c c') : SameErrors c c' where
  queue key := lastError_congr (h.state.kv.hashes key)
  rows jobId := lastError_congr (h.state.db.job? jobId)
  dlq := by
    have hdlq := h.state.kv.dlq
    generalize c.state.kv.dlq = entries, c'.state.kv.dlq = entries' at hdlq
    induction hdlq with
    | nil => rfl
    | cons hentry _ ih =>
      cases hentry
      exact congrArg (_ :: ·) ih
  responses i response hrun := by
    have hthread := h.threads i
    rw [hrun] at hthread
    generalize c'.threads i = thread at hthread ⊢
    cases hthread with
    | running hrelated =>
      cases hrelated with
      | done hdone =>
        cases hdone with
        | ok hreply =>
          cases hreply
          rfl

section

variable {settings : Settings} {s s' : World} {c c' : Moment}

/-- If no exception shows what the worlds differ in, neither does anything that is kept of it. -/
theorem same_errors (hs : SameWorld s s')
    (h : Paired (Starts settings) Does (SameProgram settings)
      (fun op op' o o' => SameOutcome op op' o o' ∧ NothingShown o o') (.initial s) (.initial s') c c') :
    SameErrors c c' :=
  sameErrors_of_related (h.related does_same (fun _ _ _ h => h.alike) (relatedConfigs_initial hs))

end

/-! ### Two signed URLs -/

def signedUrl (query : String) : String := "https://example/video.mp4?" ++ query

theorem signedUrl_ne (query : String) : signedUrl query ≠ "" := by
  unfold signedUrl
  simp

theorem sameButQuery_signedUrl : SameButQuery (signedUrl "sig=a") (signedUrl "sig=b") := by
  unfold SameButQuery
  decide +kernel

def signedRequest (query : String) : VideoDetectRequest :=
  { sampleRequest with sourceVideoUri := signedUrl query, sourceVideoUri_ne := signedUrl_ne query }

/-- The text that httpx gives an error status. -/
def forbiddenText (url : String) : String :=
  "Client error '403 Forbidden' for url '" ++ url ++ "'\n" ++
    "For more information check: https://developer.mozilla.org/en-US/docs/Web/HTTP/Status/403"

abbrev PairScript :=
  List (Turn Caller Ans PyException Reply Choice × Turn Caller Ans PyException Reply Choice)

def bothCall (i : Caller) (n : Nat) : PairScript :=
  List.replicate n (.call i (.reply clean), .call i (.reply clean))

/-- A job is accepted, its download raises, and its status is read. -/
def failingDownload (e e' : PyException) : PairScript :=
  (.start (.api 0) (apiProgram {} (signedRequest "sig=a")),
      .start (.api 0) (apiProgram {} (signedRequest "sig=b"))) :: bothCall (.api 0) 7 ++
    (.start (.attempt 0) (attemptProgram {} ((signedRequest "sig=a").job 0)),
      .start (.attempt 0) (attemptProgram {} ((signedRequest "sig=b").job 0))) ::
      bothCall (.attempt 0) 9 ++
    (.call (.attempt 0) (.fail e), .call (.attempt 0) (.fail e')) :: bothCall (.attempt 0) 6 ++
    (.start (.reader 0) (readerProgram {} "video"), .start (.reader 0) (readerProgram {} "video")) ::
      bothCall (.reader 0) 2

theorem legal_bothCall {i : Caller} {n : Nat} :
    ∀ t ∈ bothCall i n, Turn.LegalPair (Starts {}) (SameProgram {}) t := by
  intro t ht
  rw [List.eq_of_mem_replicate ht]
  trivial

theorem legal_failingDownload (e e' : PyException) :
    ∀ t ∈ failingDownload e e', Turn.LegalPair (Starts {}) (SameProgram {}) t := by
  have hrequest : SameRequest (signedRequest "sig=a") (signedRequest "sig=b") :=
    @SameRequest.mk (signedRequest "sig=a") _ sameButQuery_signedUrl (signedUrl_ne _)
  simp only [failingDownload, List.mem_append, List.mem_cons]
  rintro t ((((rfl | ht) | rfl | ht) | rfl | ht) | rfl | ht)
  · exact ⟨⟨_, rfl⟩, ⟨_, rfl⟩, .api hrequest⟩
  · exact legal_bothCall t ht
  · exact ⟨⟨_, rfl⟩, ⟨_, rfl⟩, .attempt (hrequest.job 0)⟩
  · exact legal_bothCall t ht
  · trivial
  · exact legal_bothCall t ht
  · exact ⟨⟨_, rfl⟩, ⟨_, rfl⟩, .reader⟩
  · exact legal_bothCall t ht

def answersAgree : (op op' : Op) → Ans op → Ans op' → Bool
  | .now, .now, now, now' => now = now'
  | .commit _, .commit _, now, now' => now = now'
  | .hgetall _, .hgetall _, _, _ | .get _, .get _, _, _ | .writes _, .writes _, _, _
  | .selectJob _, .selectJob _, _, _ | .execute _ _, .execute _ _, _, _
  | .prepareJobDir _, .prepareJobDir _, _, _ | .cleanupDir _, .cleanupDir _, _, _ => true
  | _, _, _, _ => false

theorem sameChoice_of_agree {op op' : Op} {b : Ans op} {b' : Ans op'}
    (h : answersAgree op op' b b' = true) : SameChoice op op' b b' := by
  unfold answersAgree at h
  split at h
  · have hnow := of_decide_eq_true h
    exact hnow
  · have hnow := of_decide_eq_true h
    exact hnow
  all_goals trivial

def failuresAgree : (op op' : Op) → PyException → PyException → Bool
  | .downloadVideo url, .downloadVideo url', e, e' => url ≠ url' ∧ e.bare = e'.bare
  | _, _, _, _ => false

theorem sameFailure_of_agree {op op' : Op} {e e' : PyException}
    (h : failuresAgree op op' e e' = true) : SameFailure op op' e e' := by
  unfold failuresAgree at h
  split at h
  · have hquote := of_decide_eq_true h
    exact .inr hquote
  · cases h

def outcomesAgree (op op' : Op) : Outcome PyException (Ans op) → Outcome PyException (Ans op') → Bool
  | .answered b, .answered b' => answersAgree op op' b b'
  | .failed e, .failed e' => failuresAgree op op' e e'
  | _, _ => false

theorem sameOutcome_of_agree (op op' : Op) (o : Outcome PyException (Ans op))
    (o' : Outcome PyException (Ans op')) (h : outcomesAgree op op' o o' = true) :
    SameOutcome op op' o o' := by
  cases o with
  | answered b =>
    cases o' with
    | answered b' => exact sameChoice_of_agree h
    | _ => cases h
  | failed e =>
    cases o' with
    | failed e' => exact sameFailure_of_agree h
    | _ => cases h
  | _ => cases h

def shownAgree (op op' : Op) (o : Outcome PyException (Ans op)) (o' : Outcome PyException (Ans op')) :
    Bool :=
  outcomesAgree op op' o o' &&
    match o.seen, o'.seen with
    | .error e, .error e' => truncated e.text = truncated e'.text
    | _, _ => true

theorem nothingShown_of_agree (op op' : Op) (o : Outcome PyException (Ans op))
    (o' : Outcome PyException (Ans op')) (h : shownAgree op op' o o' = true) :
    SameOutcome op op' o o' ∧ NothingShown o o' := by
  obtain ⟨houtcome, hshown⟩ := Bool.and_eq_true_iff.mp h
  refine ⟨sameOutcome_of_agree op op' o o' houtcome, fun e e' he he' => ?_⟩
  rw [he, he'] at hshown
  have htext := of_decide_eq_true hshown
  exact htext

def responseError (c : Moment) : Option (Option String × Option String) :=
  match c.threads (.reader 0) with
  | .running (.done (.ok (.status (some response)))) =>
    some (response.lastErrorCode, response.lastErrorMessage)
  | _ => none

theorem SameErrors.responseError {c c' : Moment} (h : SameErrors c c')
    {error : Option String × Option String} (hc : responseError c = some error) :
    responseError c' = some error := by
  unfold Secrecy.responseError at hc ⊢
  split at hc
  · next response hrun =>
    rw [h.responses _ _ hrun]
    exact hc
  · cases hc

/-- The connection breaks in both runs, and both jobs show that. -/
theorem same_errors_broken : ∃ c c', Paired (Starts {}) Does (SameProgram {})
      (fun op op' o o' => SameOutcome op op' o o' ∧ NothingShown o o') (.initial {}) (.initial {}) c c' ∧
    responseError c = some (some "ConnectError", some "connection refused") ∧ SameErrors c c' := by
  have hplay : (playPair choose shownAgree
      (failingDownload (.requestError "ConnectError" "connection refused")
        (.requestError "ConnectError" "connection refused"))
      (.initial {}) (.initial {})).any (fun d =>
        responseError d.1 = some (some "ConnectError", some "connection refused")) = true := by
    decide +kernel
  obtain ⟨c, c', hrun, hc⟩ := exists_of_playPair choose_within nothingShown_of_agree
    (legal_failingDownload _ _) (p := fun c _ => responseError c = some _) hplay
  exact ⟨c, c', hrun, of_decide_eq_true hc, same_errors (.refl {}) hrun⟩

/-- Both downloads are forbidden, and each status shows the query of its own URL. -/
theorem signed_url_shown : ∃ c c', Paired (Starts {}) Does (SameProgram {}) SameOutcome
      (.initial {}) (.initial {}) c c' ∧
    responseError c = some (some "http_403", some (forbiddenText (signedUrl "sig=a"))) ∧
    responseError c' = some (some "http_403", some (forbiddenText (signedUrl "sig=b"))) ∧
    ¬ SameErrors c c' := by
  have hplay : (playPair choose outcomesAgree
      (failingDownload (.httpStatusError 403 (forbiddenText (signedUrl "sig=a")))
        (.httpStatusError 403 (forbiddenText (signedUrl "sig=b"))))
      (.initial {}) (.initial {})).any (fun d =>
        responseError d.1 = some (some "http_403", some (forbiddenText (signedUrl "sig=a"))) ∧
        responseError d.2 = some (some "http_403", some (forbiddenText (signedUrl "sig=b")))) = true := by
    decide +kernel
  obtain ⟨c, c', hrun, hc⟩ := exists_of_playPair choose_within sameOutcome_of_agree
    (legal_failingDownload _ _) (p := fun c c' => responseError c = some _ ∧ responseError c' = some _) hplay
  obtain ⟨hleft, hright⟩ := of_decide_eq_true hc
  refine ⟨c, c', hrun, hleft, hright, fun h => ?_⟩
  have heq := Option.some.inj ((h.responseError hleft).symm.trans hright)
  exact absurd heq (by decide +kernel)

end Secrecy

end NsfwDetector
