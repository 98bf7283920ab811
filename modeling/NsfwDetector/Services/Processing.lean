import NsfwDetector.Services.Queue

/-!
# Processing one job

`VideoJobProcessor.process`, over any queue, any store of job states and any pipeline.
-/

namespace NsfwDetector

structure VideoJobProcessor (M : Type → Type) where
  settings : Settings
  queueService : QueueService M
  jobStateRepository : VideoJobStateRepository M
  /-- `_process_video` -/
  processVideo : VideoJob → M Unit

namespace VideoJobProcessor

variable {M : Type → Type} [Monad M] [MonadExcept PyException M] (self : VideoJobProcessor M)

/-- The handler of `process`: it records the failure in both stores and raises it. -/
def recordFailure (processingJob : VideoJob) (exc : PyException) : M Unit := do
  let failure := classifyProcessingError exc processingJob.attempts self.settings.queueMaxAttempts
  let _ ← self.queueService.updateStatus processingJob.jobId failure.status
    (some failure.errorCode) (some failure.errorMessage)
  self.jobStateRepository.markFailed processingJob.jobId failure.status failure.errorCode
    failure.errorMessage
  throw (.videoJobProcessingError failure)

/-- The `try` of `process`. -/
def attempt (processingJob : VideoJob) : M Unit :=
  tryCatch (do
      self.jobStateRepository.markProcessing processingJob
      self.processVideo processingJob)
    (self.recordFailure processingJob)

def process (job : VideoJob) : M Unit := do
  let current ← self.queueService.getStatusByJobId job.jobId
  let currentJob := current.getD job
  if currentJob.status.Terminal then pure ()
  else
    let persistedJob ← self.jobStateRepository.getByJobId job.jobId
    if persistedJob.map (·.status) = some .classified then
      let _ ← self.queueService.updateStatus job.jobId .classified
      pure ()
    else
      let updated ← self.queueService.updateStatus job.jobId .processing
      self.attempt (updated.getD currentJob)

end VideoJobProcessor

end NsfwDetector
