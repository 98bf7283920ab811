import NsfwDetector.Effects.Sequential
import NsfwDetector.Services.InMemoryQueue

/-!
# One worker over the queue in memory

One spec per function, from the single call up to the handling of one message.
-/

namespace NsfwDetector.Accounting

open Effects InMemory

variable (surroundings : Surroundings) (settings : Settings) {s s' : Memory}

/-! ## The calls one by one -/

theorem queue_spec (s : Memory) : Returns queue s s.queue s := rfl

theorem now_spec (s : Memory) : Returns (now surroundings) s (surroundings.clock s.ticks)
    { s with ticks := s.ticks + 1 } := rfl

theorem jobAt_spec {jobId : String} {job : VideoJob} (h : s.queue.job? jobId = some job) :
    Returns (jobAt jobId) s job s := by
  unfold jobAt
  refine .bind (queue_spec s) ?_
  rw [h]
  exact .pure job s

theorem readWithPoolRetry_spec {α : Type} {x : InMemory.Code α} {a : α} (h : Returns x s a s') :
    Returns (readWithPoolRetry settings x) s a s' := by
  obtain ⟨rest, hrest⟩ := readWithPoolRetry_eq settings x
  rw [hrest]
  exact h.tryCatch

theorem getStatusByJobId_spec (jobId : String) :
    Returns ((service surroundings settings).getStatusByJobId jobId) s (s.queue.job? jobId) s := by
  apply readWithPoolRetry_spec
  exact .bind (queue_spec s) (.pure _ s)

def written (s : Memory) (job : VideoJob) : Memory :=
  { s with queue := s.queue.put job, ticks := s.ticks + 1 }

theorem updateStatus_spec {jobId : String} {job : VideoJob} (h : s.queue.job? jobId = some job)
    (status : VideoJobStatus) (code message : Option String) :
    Returns ((service surroundings settings).updateStatus jobId status code message) s
      (some (job.withStatus status code message (surroundings.clock s.ticks)))
      (written s (job.withStatus status code message (surroundings.clock s.ticks))) := by
  refine .bind (queue_spec s) ?_
  rw [h]
  exact .bind (now_spec surroundings s) (.bind (.modify _ _) (.pure _ _))

/-- A transaction that no rule forbids leaves the queue alone. -/
theorem transaction_spec (s : Memory) {tx : List Write} (h : ∀ now, ∃ db, s.db.applyAll now tx = .ok db) :
    ∃ s', Returns (transaction surroundings tx) s () s' ∧ s'.queue = s.queue ∧ s'.ran = s.ran := by
  obtain ⟨db, hdb⟩ := h (surroundings.clock s.ticks)
  refine ⟨{ s with ticks := s.ticks + 1, db := db }, ?_, rfl, rfl⟩
  refine .bind (now_spec surroundings s) (.bind (.get _) ?_)
  simp only [hdb]
  exact .modify _ _

theorem markFailed_spec (s : Memory) {jobId code message : String} {status : VideoJobStatus}
    (h : status = .failedRetryable ∨ status = .failedTerminal) :
    ∃ s', Returns (markFailed surroundings jobId status code message) s () s' ∧
      s'.queue = s.queue ∧ s'.ran = s.ran := by
  unfold markFailed
  rw [if_neg (by rcases h with rfl | rfl <;> decide)]
  exact transaction_spec surroundings s fun now => ⟨_, rfl⟩

theorem markProcessing_spec (s : Memory) {job : VideoJob} (hcreated : job.createdAt ≠ none)
    (hupdated : job.updatedAt ≠ none) :
    ∃ s', Returns ((jobStates surroundings).markProcessing job) s () s' ∧
      s'.queue = s.queue ∧ s'.ran = s.ran := by
  refine transaction_spec surroundings s fun now => ?_
  have hinsert : ∃ db, s.db.insertVideoJobOrNothing job.inserted = .ok db := by
    unfold Db.insertVideoJobOrNothing
    have hnull : ¬ (job.inserted.createdAt = none ∨ job.inserted.updatedAt = none) :=
      not_or.mpr ⟨hcreated, hupdated⟩
    rw [if_neg hnull]
    split
    · exact ⟨_, rfl⟩
    · exact ⟨_, rfl⟩
  obtain ⟨db, hdb⟩ := hinsert
  exact ⟨_, Db.applyAll_cons_ok.mpr ⟨db, hdb, rfl⟩⟩

/-! ## One job through `process` -/

/-- `process` took the open job from `old` to `new`. -/
structure Processed (s : Memory) (old new : VideoJob) (s' : Memory) : Prop where
  queue : s'.queue = s.queue.put new
  jobId : new.jobId = old.jobId
  createdAt : new.createdAt = old.createdAt
  updatedAt : new.updatedAt ≠ none
  attempts : (s'.ran = s.ran ++ [old.jobId] ∧ new.attempts = old.attempts + 1) ∨
    (s'.ran = s.ran ∧ new.status = .classified)

variable {old : VideoJob}

theorem recordFailure_spec (h : s.queue.job? old.jobId = some old) (exc : PyException) :
    ∃ failure new s',
      Raises ((InMemory.processor surroundings settings).recordFailure old exc) s
        (.videoJobProcessingError failure) s' ∧
      s'.queue = s.queue.put new ∧ s'.ran = s.ran ∧
      failure = classifyProcessingError exc old.attempts settings.queueMaxAttempts ∧
      new = old.withStatus failure.status (some failure.errorCode) (some failure.errorMessage)
        (surroundings.clock s.ticks) := by
  have hstatus : (classifyProcessingError exc old.attempts settings.queueMaxAttempts).status =
      .failedRetryable ∨
      (classifyProcessingError exc old.attempts settings.queueMaxAttempts).status =
        .failedTerminal := by
    unfold classifyProcessingError
    simp only
    split <;> simp
  obtain ⟨s', hmark, hqueue, hran⟩ := markFailed_spec surroundings _ hstatus
  exact ⟨_, _, s', (updateStatus_spec surroundings settings h _ _ _).raises (hmark.raises (.throw _ _)), hqueue, hran, rfl,
    rfl⟩

def ranThrough (surroundings : Surroundings) (s : Memory) (jobId : String) : Memory :=
  { s with
    db := (surroundings.pipeline s.ran.length).db s.db
    ran := s.ran ++ [jobId] }

theorem processVideo_spec (h : s.queue.job? old.jobId = some old) :
    (∃ now s', Returns (InMemory.processVideo surroundings settings old) s () s' ∧
      s'.queue = s.queue.put (old.withStatus .classified none none now) ∧
      s'.ran = s.ran ++ [old.jobId]) ∨
    ∃ exc s', Raises (InMemory.processVideo surroundings settings old) s exc s' ∧
      s'.queue = s.queue ∧ s'.ran = s.ran ++ [old.jobId] := by
  cases hfailure : (surroundings.pipeline s.ran.length).failure with
  | none =>
    left
    have hrun : Returns (runPipeline surroundings old) s () (ranThrough surroundings s old.jobId) := by
      refine .bind (.modifyGet _ s) ?_
      simp only [hfailure]
      exact .pure _ _
    refine ⟨_, _, hrun.bind ((updateStatus_spec surroundings settings ?_ _ _ _).bind (.pure _ _)), rfl, rfl⟩
    exact h
  | some exc =>
    right
    have hrun : Raises (runPipeline surroundings old) s exc (ranThrough surroundings s old.jobId) := by
      refine (Returns.modifyGet _ s).raises ?_
      simp only [hfailure]
      exact .throw _ _
    exact ⟨exc, _, hrun.bind, rfl, rfl⟩

/-- How an attempt ends: it returns and the job is classified, or it raises a failure and the job
has its status. -/
def Ended (settings : Settings) (x : InMemory.Code Unit) (s : Memory) (new : VideoJob) (s' : Memory) :
    Prop :=
  (Returns x s () s' ∧ new.status = .classified) ∨
    ∃ failure, Raises x s (.videoJobProcessingError failure) s' ∧
      (failure.retryable = true → new.status = .failedRetryable ∧
        new.attempts < settings.queueMaxAttempts) ∧
      (failure.retryable = false → new.status = .failedTerminal)

variable {settings} in
theorem ended_of_recordFailure {x : InMemory.Code Unit} {exc : PyException} {job : VideoJob}
    {failure : ProcessingFailure} {code message : Option String} {now : Time}
    (hraises : Raises x s (.videoJobProcessingError failure) s')
    (hfailure : failure = classifyProcessingError exc job.attempts settings.queueMaxAttempts) :
    Ended settings x s (job.withStatus failure.status code message now) s' := by
  refine .inr ⟨failure, hraises, fun hretry => ?_, fun hdead => ?_⟩
  · rw [hfailure] at hretry
    obtain ⟨hstatus, hlt⟩ := classifyProcessingError_retryable _ _ _ hretry
    rw [← hfailure] at hstatus
    refine ⟨hstatus, ?_⟩
    unfold VideoJob.withStatus
    simp [hstatus, hlt]
  · rw [hfailure] at hdead
    have hstatus := classifyProcessingError_terminal _ _ _ hdead
    rwa [← hfailure] at hstatus

theorem attempt_spec {job : VideoJob} (h : s.queue.job? job.jobId = some job)
    (hcreated : job.createdAt ≠ none) (hupdated : job.updatedAt ≠ none) :
    ∃ status code message now s', status ≠ .processing ∧
      s'.queue = s.queue.put (job.withStatus status code message now) ∧
      s'.ran = s.ran ++ [job.jobId] ∧
      Ended settings ((InMemory.processor surroundings settings).attempt job) s
        (job.withStatus status code message now) s' := by
  obtain ⟨s₁, hmark, hqueue₁, hran₁⟩ := markProcessing_spec surroundings s hcreated hupdated
  have h₁ : s₁.queue.job? job.jobId = some job := hqueue₁ ▸ h
  rcases processVideo_spec surroundings settings h₁ with
    ⟨now, s₂, hreturns, hqueue₂, hran₂⟩ | ⟨exc, s₂, hraises, hqueue₂, hran₂⟩
  · refine ⟨.classified, none, none, now, s₂, by decide, by rw [hqueue₂, hqueue₁],
      by rw [hran₂, hran₁], .inl ⟨?_, rfl⟩⟩
    exact (hmark.bind hreturns).tryCatch
  · have h₂ : s₂.queue.job? job.jobId = some job := by rw [hqueue₂]; exact h₁
    obtain ⟨failure, new, s₃, hrecord, hqueue₃, hran₃, hfailure, rfl⟩ :=
      recordFailure_spec surroundings settings h₂ exc
    have hraised : Raises ((InMemory.processor surroundings settings).attempt job) s
        (.videoJobProcessingError failure) s₃ := (hmark.raises hraises).rethrown hrecord
    refine ⟨failure.status, some failure.errorCode, some failure.errorMessage,
      surroundings.clock s₂.ticks, s₃, ?_, ?_, ?_, ended_of_recordFailure hraised hfailure⟩
    · rw [hfailure]
      unfold classifyProcessingError
      simp only
      split <;> simp
    · rw [hqueue₃, hqueue₂, hqueue₁]
    · rw [hran₃, hran₂, hran₁]

theorem process_spec (h : s.queue.job? old.jobId = some old) (hopen : ¬ old.status.Terminal)
    (hcreated : old.createdAt ≠ none) :
    ∃ new s', Processed s old new s' ∧
      Ended settings ((InMemory.processor surroundings settings).process old) s new s' := by
  have hfound := getStatusByJobId_spec surroundings settings (s := s) old.jobId
  rw [h] at hfound
  have hpersisted : Returns ((jobStates surroundings).getByJobId old.jobId) s
      (s.db.job? old.jobId) s := .bind (.get s) (.pure _ s)
  by_cases hclassified : (s.db.job? old.jobId).map (·.status) = some .classified
  · have hupdate := updateStatus_spec surroundings settings h .classified none none
    refine ⟨_, written s (old.withStatus .classified none none (surroundings.clock s.ticks)),
      ⟨rfl, rfl, rfl, nofun, .inr ⟨rfl, rfl⟩⟩, .inl ⟨?_, rfl⟩⟩
    refine hfound.bind ?_
    simp only [Option.getD_some, if_neg hopen]
    refine hpersisted.bind ?_
    rw [if_pos hclassified]
    exact hupdate.bind (.pure _ _)
  · -- The attempt starts from the row that says `PROCESSING`.
    obtain ⟨row, hrow⟩ : ∃ row, row = old.withStatus .processing none none (surroundings.clock s.ticks) :=
      ⟨_, rfl⟩
    have hid : row.jobId = old.jobId := by rw [hrow]; rfl
    have hcreated' : row.createdAt = old.createdAt := by rw [hrow]; rfl
    have hupdated : row.updatedAt ≠ none := by rw [hrow]; nofun
    have hput : (s.queue.put row).job? row.jobId = some row :=
      InMemoryVideoQueueRepository.job?_put_self (hid ▸ h)
    obtain ⟨status, code, message, now, s', hstatus, hqueue, hran, hended⟩ :=
      attempt_spec surroundings settings (s := written s row) hput (hcreated' ▸ hcreated) hupdated
    have hattempts : (row.withStatus status code message now).attempts = old.attempts + 1 := by
      rw [hrow]
      simp [VideoJob.withStatus, hstatus]
    have hprocess : ((InMemory.processor surroundings settings).process old).run s =
        ((InMemory.processor surroundings settings).attempt row).run
          (written s row) := by
      have hupdate := updateStatus_spec surroundings settings h .processing none none
      rw [← hrow] at hupdate
      refine hfound.run_bind.trans ?_
      simp only [Option.getD_some, if_neg hopen]
      refine hpersisted.run_bind.trans ?_
      rw [if_neg hclassified]
      exact hupdate.run_bind
    refine ⟨row.withStatus status code message now, s', ⟨?_, hid, hcreated', nofun, ?_⟩, ?_⟩
    · rw [hqueue]
      exact InMemoryVideoQueueRepository.put_put rfl
    · rw [hran, hid]
      exact .inl ⟨rfl, hattempts⟩
    · unfold Ended Returns Raises at hended ⊢
      rw [hprocess]
      exact hended

/-! ## One message -/

/-- What is left of a message: it is acknowledged, and the job is done, queued once more or dead. -/
inductive Left (settings : Settings) (queue : InMemoryVideoQueueRepository)
    (message : QueuedVideoJobMessage) (new : VideoJob) : InMemoryVideoQueueRepository → Prop
  | done (hstatus : new.status = .classified) :
      Left settings queue message new ((queue.put new).ack message.messageId)
  | again (hstatus : new.status = .failedRetryable) (hlt : new.attempts < settings.queueMaxAttempts) :
      Left settings queue message new (((queue.put new).append new).ack message.messageId)
  | dead (hstatus : new.status = .failedTerminal) (errorCode errorMessage : String) :
      Left settings queue message new
        ({ queue.put new with
            dlq := queue.dlq ++ [dlqEntry message errorCode errorMessage] }.ack message.messageId)

structure Handled (settings : Settings) (s : Memory) (message : QueuedVideoJobMessage)
    (old new : VideoJob) (s' : Memory) : Prop where
  left : Left settings s.queue message new s'.queue
  jobId : new.jobId = old.jobId
  createdAt : new.createdAt = old.createdAt
  attempts : (s'.ran = s.ran ++ [old.jobId] ∧ new.attempts = old.attempts + 1) ∨
    (s'.ran = s.ran ∧ new.status = .classified)

theorem ack_spec (messageId : Nat) (s : Memory) :
    Returns ((service surroundings settings).ackVideoJobMessage messageId) s ()
      { s with queue := s.queue.ack messageId } := rfl

theorem requeue_spec {jobId : String} {job : VideoJob} (h : s.queue.job? jobId = some job) :
    Returns ((service surroundings settings).requeueVideoJob jobId) s ()
      { s with queue := s.queue.append job } :=
  (jobAt_spec h).bind rfl

theorem moveToDlq_spec (message : QueuedVideoJobMessage) (errorCode errorMessage : String)
    (s : Memory) : Returns ((service surroundings settings).moveVideoJobMessageToDlq message errorCode
      errorMessage) s ()
      { s with
        queue := { s.queue with
          dlq := s.queue.dlq ++ [dlqEntry message errorCode errorMessage] }.ack message.messageId } := rfl

variable {new : VideoJob} {message : QueuedVideoJobMessage}

/-- After `process` the message is settled by what `process` said. -/
theorem settle_spec (message : QueuedVideoJobMessage) (hprocessed : Processed s old new s') (hnew : s'.queue.job? old.jobId = some new)
    (hended : Ended settings ((InMemory.processor surroundings settings).process old) s new s') :
    ∃ failure s'', Returns ((InMemory.worker surroundings settings).processed old) s failure s' ∧
      Returns ((InMemory.worker surroundings settings).settle message old.jobId failure) s' () s'' ∧
      s''.ran = s'.ran ∧ Left settings s.queue message new s''.queue := by
  rcases hended with ⟨hreturns, hstatus⟩ | ⟨failure, hraises, hretry, hdead⟩
  · refine ⟨none, { s' with queue := s'.queue.ack message.messageId },
      (hreturns.bind (.pure none s')).tryCatch, ack_spec surroundings settings _ s', rfl, ?_⟩
    rw [hprocessed.queue]
    exact .done hstatus
  · have hresult : Returns ((InMemory.worker surroundings settings).processed old) s (some failure) s' :=
      hraises.bind.caught (.pure _ s')
    cases hretryable : failure.retryable with
    | true =>
      obtain ⟨hstatus, hlt⟩ := hretry hretryable
      refine ⟨some failure, { s' with queue := (s'.queue.append new).ack message.messageId }, hresult,
        ?_, rfl, ?_⟩
      · unfold VideoQueueWorker.settle
        simp only [hretryable, if_true]
        exact (requeue_spec surroundings settings hnew).bind
          (ack_spec surroundings settings _ { s' with queue := s'.queue.append new })
      · rw [hprocessed.queue]
        exact .again hstatus hlt
    | false =>
      refine ⟨some failure, { s' with queue := { s'.queue with dlq := s'.queue.dlq ++
        [dlqEntry message failure.errorCode failure.errorMessage] }.ack message.messageId }, hresult,
        ?_, rfl, ?_⟩
      · unfold VideoQueueWorker.settle
        simp only [hretryable, Bool.false_eq_true, if_false]
        exact moveToDlq_spec surroundings settings message _ _ s'
      · rw [hprocessed.queue]
        exact .dead (hdead hretryable) failure.errorCode failure.errorMessage

theorem handleMessage_spec (hname : message.jobId ≠ "") (h : s.queue.job? message.jobId = some old)
    (hopen : ¬ old.status.Terminal) (hcreated : old.createdAt ≠ none) :
    ∃ new s', Returns ((InMemory.worker surroundings settings).handleMessage message) s () s' ∧
      Handled settings s message old new s' := by
  have hid : old.jobId = message.jobId := (InMemoryVideoQueueRepository.job?_mem h).2
  have hfound := getStatusByJobId_spec surroundings settings (s := s) message.jobId
  rw [h] at hfound
  obtain ⟨new, s₁, hprocessed, hended⟩ :=
    process_spec surroundings settings (hid.symm ▸ h) hopen hcreated
  have hnew : s₁.queue.job? old.jobId = some new := by
    rw [hprocessed.queue, ← hprocessed.jobId]
    exact InMemoryVideoQueueRepository.job?_put_self (hprocessed.jobId.trans hid ▸ h)
  obtain ⟨failure, s₂, hresult, hsettle, hran, hleft⟩ :=
    settle_spec surroundings settings message hprocessed hnew hended
  refine ⟨new, s₂, ?_, hleft, hprocessed.jobId, hprocessed.createdAt, hran ▸ hprocessed.attempts⟩
  unfold VideoQueueWorker.handleMessage
  rw [if_neg hname]
  exact hfound.bind (hresult.bind hsettle)

end NsfwDetector.Accounting
