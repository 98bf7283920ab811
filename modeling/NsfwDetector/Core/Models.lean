import NsfwDetector.Moderation.Policy

/-! # The records that pass through the pipeline -/

namespace NsfwDetector

/-! ## Jobs -/

structure VideoJob where
  jobId : String
  videoId : String
  sourceObjectVersion : String
  policyVersion : String
  status : VideoJobStatus
  publisherUserId : String
  postId : Option String
  canisterId : Option String
  sourceVideoUri : String
  uploadEventId : Option String
  traceId : Option String
  attempts : Int := 0
  lastErrorCode : Option String := none
  lastErrorMessage : Option String := none
  createdAt : Option Time := none
  updatedAt : Option Time := none
  startedAt : Option Time := none
  finishedAt : Option Time := none
  deriving DecidableEq, Repr

/-- What makes two jobs the same work. -/
def VideoJob.triple (job : VideoJob) : String × String × String :=
  (job.videoId, job.sourceObjectVersion, job.policyVersion)

/-- A request that passed its schema. -/
structure VideoDetectRequest where
  jobId : String
  videoId : String
  publisherUserId : String
  sourceVideoUri : String
  postId : Option String := none
  canisterId : Option String := none
  sourceObjectVersion : String := ""
  uploadEventId : Option String := none
  policyVersion : String := "nsfw_policy_v1"
  traceId : Option String := none
  jobId_ne : jobId ≠ ""
  videoId_ne : videoId ≠ ""
  publisherUserId_ne : publisherUserId ≠ ""
  sourceVideoUri_ne : sourceVideoUri ≠ ""
  policyVersion_ne : policyVersion ≠ ""

def VideoDetectRequest.triple (request : VideoDetectRequest) : String × String × String :=
  (request.videoId, request.sourceObjectVersion, request.policyVersion)

/-- The job that an accepted request starts as. -/
def VideoDetectRequest.job (request : VideoDetectRequest) (now : Time) : VideoJob where
  jobId := request.jobId
  videoId := request.videoId
  sourceObjectVersion := request.sourceObjectVersion
  policyVersion := request.policyVersion
  status := .queued
  publisherUserId := request.publisherUserId
  postId := request.postId
  canisterId := request.canisterId
  sourceVideoUri := request.sourceVideoUri
  uploadEventId := request.uploadEventId
  traceId := request.traceId
  createdAt := some now
  updatedAt := some now

/-- The job after a change of status, as both queue repositories compute it. -/
def VideoJob.withStatus (job : VideoJob) (status : VideoJobStatus)
    (lastErrorCode lastErrorMessage : Option String) (now : Time) : VideoJob :=
  { job with
    status := status
    attempts := if status = .processing then job.attempts + 1 else job.attempts
    lastErrorCode := lastErrorCode
    lastErrorMessage := lastErrorMessage
    updatedAt := some now
    startedAt := if status = .processing then some now else job.startedAt
    finishedAt := if status.Terminal then some now else job.finishedAt }

/-! ## Frames and metadata -/

structure ExtractedFrame where
  frameIndex : Nat
  timestampSeconds : ℚ
  path : String

structure FrameModerationResult where
  frameIndex : Nat
  frameTimestampSeconds : ℚ
  topCategory : ModerationCategory
  isNsfw : Bool
  overallSeverity : Nat
  categories : Scores
  reason : String
  /-- `model_dump(mode="json")` of the output. -/
  rawResponse : FrameModerationOutput

def toFrameModerationResult (sourceFrame : ExtractedFrame) (modelOutput : FrameModerationOutput) :
    FrameModerationResult where
  frameIndex := sourceFrame.frameIndex
  frameTimestampSeconds := sourceFrame.timestampSeconds
  topCategory := modelOutput.topCategory
  isNsfw := modelOutput.isNsfw
  overallSeverity := modelOutput.overallSeverity
  categories := modelOutput.categories
  reason := modelOutput.reason
  rawResponse := modelOutput

structure VideoMetadata where
  jobId : String
  videoId : String
  durationSeconds : ℚ
  width : Option Int
  height : Option Int
  fps : Option ℚ
  codecName : Option String
  hasVideoStream : Bool
  framesExtracted : Nat

/-! ## Results -/

/-- The JSON document `final_response`. -/
structure FinalResponse where
  finalIsNsfw : Bool
  finalScore : ℚ
  finalTopCategory : ModerationCategory
  maxOverallSeverity : Nat
  nsfwFrameCount : Nat
  totalFrameCount : Nat
  moveRequired : Bool
  maxCategorySeverities : Scores

structure VideoModerationResult where
  jobId : String
  videoId : String
  policyVersion : String
  promptVersion : String
  aggregationVersion : String
  finalIsNsfw : Bool
  finalScore : ℚ
  finalTopCategory : ModerationCategory
  maxOverallSeverity : Nat
  nsfwFrameCount : Nat
  totalFrameCount : Nat
  moveRequired : Bool
  moveThreshold : ℚ
  maxCategorySeverities : Scores
  legacyNsfwEc : String
  legacyNsfwGore : String
  finalResponse : FinalResponse
  createdAt : Time
  updatedAt : Time

structure StorjMoveResponse where
  statusCode : Nat
  body : String

/-- The JSON body of the move request. -/
structure MoveRequestBody where
  publisherUserId : String
  videoId : String

structure StorageAction where
  actionId : String
  jobId : String
  videoId : String
  publisherUserId : String
  actionType : String
  threshold : ℚ
  finalScore : ℚ
  requestUrl : String
  requestBody : MoveRequestBody
  responseStatus : Option Nat
  responseBody : Option String
  status : String
  createdAt : Time
  completedAt : Option Time

/-! ## Messages -/

structure QueuedVideoJobMessage where
  messageId : Nat
  jobId : String
  payload : VideoJob
  deriving DecidableEq, Repr

structure EnqueueResult where
  job : VideoJob
  enqueued : Bool
  deriving DecidableEq, Repr

end NsfwDetector
