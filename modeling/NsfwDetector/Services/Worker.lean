import NsfwDetector.Services.Processing

/-! # The worker loop -/

namespace NsfwDetector

structure VideoQueueWorker (M : Type → Type) where
  settings : Settings
  queueService : QueueService M
  processor : VideoJobProcessor M

namespace VideoQueueWorker

variable {M : Type → Type} [Monad M] [MonadExcept PyException M] (self : VideoQueueWorker M)

/-- Runs `process` and keeps a `VideoJobProcessingError`. Any other exception passes. -/
def processed (job : VideoJob) : M (Option ProcessingFailure) :=
  tryCatch (do
      self.processor.process job
      pure none)
    fun
    | .videoJobProcessingError failure => pure (some failure)
    | exc => throw exc

/-- What becomes of the message once `process` is through. -/
def settle (message : QueuedVideoJobMessage) (jobId : String) : Option ProcessingFailure → M Unit
  | some failure =>
    if failure.retryable then do
      self.queueService.requeueVideoJob jobId
      self.queueService.ackVideoJobMessage message.messageId
    else
      self.queueService.moveVideoJobMessageToDlq message failure.errorCode failure.errorMessage
  | none => self.queueService.ackVideoJobMessage message.messageId

def handleMessage (message : QueuedVideoJobMessage) : M Unit :=
  if message.jobId = "" then
    self.queueService.moveVideoJobMessageToDlq message "queue_message_missing_job_id"
      "queue message did not contain a job_id"
  else do
    match ← self.queueService.getStatusByJobId message.jobId with
    | none =>
      self.queueService.moveVideoJobMessageToDlq message "queue_job_not_found"
        s!"queue job {message.jobId} was not found"
    | some job =>
      let failure ← self.processed job
      self.settle message job.jobId failure

def runOnce : M Nat := do
  let messages ← self.queueService.readVideoJobMessages self.settings.queueReadCount
  messages.forM self.handleMessage
  pure messages.length

def rounds : Nat → M Unit
  | 0 => pure ()
  | n + 1 => do
    let _ ← self.runOnce
    rounds n

/-- `run_forever`, watched for `n` rounds. -/
def runForever (n : Nat) : M Unit := do
  self.queueService.ensureConsumerGroup
  self.rounds n

end VideoQueueWorker

end NsfwDetector
