import NsfwDetector.Services.Queue
import NsfwDetector.Stores.Calls

/-! # The queue over Kvrocks -/

namespace NsfwDetector.RedisQueue

def getJobById (jobId : String) : Code (Option VideoJob) := await (.hgetall (jobKey jobId))

def getJobByVideoId (videoId : String) : Code (Option VideoJob) := do
  match ← await (.get (videoIdKey videoId)) with
  | none => pure none
  | some jobId => if jobId = "" then pure none else getJobById jobId

/-- The index entry of a job that is already there. -/
def alreadyThere (existing : VideoJob) : Code EnqueueResult := do
  await (.writes [.setNx (videoIdKey existing.videoId) existing.jobId])
  pure ⟨existing, false⟩

/-- The part of `enqueue_video_job` that stores a new job. A cluster has no `MULTI`. -/
def storeNewJob (settings : Settings) (request : VideoDetectRequest) : Code EnqueueResult := do
  let now ← await .now
  let job := request.job now
  let hset := Command.hset (jobKey request.jobId) job
  let setUnique := Command.set
    (uniqueKey request.videoId request.sourceObjectVersion request.policyVersion) job.jobId
  let setVideoId := Command.set (videoIdKey job.videoId) job.jobId
  let xadd := Command.xadd job.jobId job
  if settings.kvrocksClusterEnabled then
    await (.writes [hset])
    await (.writes [setUnique])
    await (.writes [setVideoId])
    await (.writes [xadd])
    pure ⟨job, true⟩
  else
    await (.writes [hset, setUnique, setVideoId, xadd])
    pure ⟨job, true⟩

def enqueueVideoJob (settings : Settings) (request : VideoDetectRequest) : Code EnqueueResult := do
  match ← await (.hgetall (jobKey request.jobId)) with
  | some existingJob => alreadyThere existingJob
  | none =>
    let existingJobId ← await
      (.get (uniqueKey request.videoId request.sourceObjectVersion request.policyVersion))
    if truthy existingJobId then
      match ← getJobById (orEmpty existingJobId) with
      | some existing => alreadyThere existing
      | none => storeNewJob settings request
    else storeNewJob settings request

def updateStatus (jobId : String) (status : VideoJobStatus)
    (lastErrorCode lastErrorMessage : Option String) : Code (Option VideoJob) := do
  match ← getJobById jobId with
  | none => pure none
  | some job =>
    let now ← await .now
    let updated := job.withStatus status lastErrorCode lastErrorMessage now
    await (.writes [.hset (jobKey jobId) updated])
    pure (some updated)

/-- `"BUSYGROUP" in str(exc)` for a `ResponseError` -/
def isBusyGroup : PyException → Bool
  | .other className text =>
    className = "ResponseError" ∧ text.toList.tails.any ("BUSYGROUP".toList.isPrefixOf ·)
  | _ => false

def ensureConsumerGroup : Code Unit :=
  tryCatch (await .xgroupCreate) fun exc => if isBusyGroup exc then pure () else throw exc

def readVideoJobMessages (count : Int) : Code (List QueuedVideoJobMessage) :=
  await (.xreadgroup count)

def ackVideoJobMessage (messageId : Nat) : Code Unit := await (.writes [.xack messageId])

def requeueVideoJob (jobId : String) : Code Unit := do
  match ← getJobById jobId with
  | none => pure ()
  | some job => await (.writes [.xadd job.jobId job])

def moveVideoJobMessageToDlq (message : QueuedVideoJobMessage) (errorCode errorMessage : String) :
    Code Unit := do
  await (.writes [.xaddDlq (dlqEntry message errorCode errorMessage)])
  ackVideoJobMessage message.messageId

/-- `RedisVideoQueueRepository` -/
def repository (settings : Settings) : VideoQueueRepository Code where
  enqueueVideoJob := enqueueVideoJob settings
  getJobByVideoId := getJobByVideoId
  getJobById := getJobById
  updateStatus := updateStatus
  ensureConsumerGroup := ensureConsumerGroup
  readVideoJobMessages := readVideoJobMessages
  ackVideoJobMessage := ackVideoJobMessage
  requeueVideoJob := requeueVideoJob
  moveVideoJobMessageToDlq := moveVideoJobMessageToDlq

/-- The queue service that the worker and the API are built with. -/
def service (settings : Settings) : QueueService Code := ⟨settings, repository settings⟩

end NsfwDetector.RedisQueue
