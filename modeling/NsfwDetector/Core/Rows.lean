import NsfwDetector.Core.Models

/-! # The rows that the stores keep -/

namespace NsfwDetector

/-- `value or ""` -/
def orEmpty (value : Option String) : String := value.getD ""

/-! ## Postgres -/

/-- A row of `nsfw_frame_results`. The severity columns are `overallSeverity` and `severities`. -/
structure FrameResultRow where
  frameId : String
  jobId : String
  videoId : String
  frameIndex : Nat
  frameTimestampSeconds : ℚ
  frameHash : Option String
  promptVersion : String
  modelProvider : String
  modelName : String
  modelVersion : Option String
  topCategory : ModerationCategory
  isNsfw : Bool
  overallSeverity : Nat
  severities : Scores
  reason : String
  rawResponse : FrameModerationOutput

def frameId (jobId : String) (frameIndex : Nat) : String := s!"{jobId}:{frameIndex}"

def frameResultToRow (jobId videoId promptVersion modelProvider modelName : String)
    (modelVersion : Option String) (frame : FrameModerationResult) : FrameResultRow where
  frameId := frameId jobId frame.frameIndex
  jobId := jobId
  videoId := videoId
  frameIndex := frame.frameIndex
  frameTimestampSeconds := frame.frameTimestampSeconds
  frameHash := none
  promptVersion := promptVersion
  modelProvider := modelProvider
  modelName := modelName
  modelVersion := modelVersion
  topCategory := frame.topCategory
  isNsfw := frame.isNsfw
  overallSeverity := frame.overallSeverity
  severities := frame.categories
  reason := frame.reason
  rawResponse := frame.rawResponse

/-- A row of `nsfw_video_results`. It has no column for the category maxima. -/
structure VideoResultRow where
  jobId : String
  videoId : String
  policyVersion : String
  promptVersion : String
  aggregationVersion : String
  finalIsNsfw : Bool
  finalScore : ℚ
  finalTopCategory : ModerationCategory
  maxOverallSeverity : Nat
  nsfwFrameCount : Nat
  totalFrameCount : Nat
  moveRequired : Bool
  moveThreshold : ℚ
  legacyNsfwEc : String
  legacyNsfwGore : String
  finalResponse : FinalResponse
  createdAt : Time
  updatedAt : Time

def videoResultToRow (result : VideoModerationResult) : VideoResultRow where
  jobId := result.jobId
  videoId := result.videoId
  policyVersion := result.policyVersion
  promptVersion := result.promptVersion
  aggregationVersion := result.aggregationVersion
  finalIsNsfw := result.finalIsNsfw
  finalScore := result.finalScore
  finalTopCategory := result.finalTopCategory
  maxOverallSeverity := result.maxOverallSeverity
  nsfwFrameCount := result.nsfwFrameCount
  totalFrameCount := result.totalFrameCount
  moveRequired := result.moveRequired
  moveThreshold := result.moveThreshold
  legacyNsfwEc := result.legacyNsfwEc
  legacyNsfwGore := result.legacyNsfwGore
  finalResponse := result.finalResponse
  createdAt := result.createdAt
  updatedAt := result.updatedAt

/-- The maxima come back out of the stored `final_response`. -/
def rowToVideoResult (row : VideoResultRow) : VideoModerationResult where
  jobId := row.jobId
  videoId := row.videoId
  policyVersion := row.policyVersion
  promptVersion := row.promptVersion
  aggregationVersion := row.aggregationVersion
  finalIsNsfw := row.finalIsNsfw
  finalScore := row.finalScore
  finalTopCategory := row.finalTopCategory
  maxOverallSeverity := row.maxOverallSeverity
  nsfwFrameCount := row.nsfwFrameCount
  totalFrameCount := row.totalFrameCount
  moveRequired := row.moveRequired
  moveThreshold := row.moveThreshold
  maxCategorySeverities := row.finalResponse.maxCategorySeverities
  legacyNsfwEc := row.legacyNsfwEc
  legacyNsfwGore := row.legacyNsfwGore
  finalResponse := row.finalResponse
  createdAt := row.createdAt
  updatedAt := row.updatedAt

/-! ## ClickHouse -/

structure VideoNsfwDetectionRow where
  videoId : String
  jobId : String
  publisherUserId : String
  postId : Option String
  canisterId : Option String
  sourceVideoUri : String
  sourceObjectVersion : String
  uploadEventId : Option String
  status : String
  policyVersion : String
  promptVersion : String
  aggregationVersion : String
  modelProvider : String
  modelName : String
  modelVersion : Option String
  durationSeconds : ℚ
  framesExtracted : Nat
  framesProcessed : Nat
  frameBatchSize : Int
  finalIsNsfw : Bool
  finalScore : ℚ
  finalTopCategory : ModerationCategory
  maxOverallSeverity : Nat
  nsfwFrameCount : Nat
  totalFrameCount : Nat
  maxSuggestiveSeverity : Nat
  maxNuditySeverity : Nat
  maxPornSeverity : Nat
  maxGoreSeverity : Nat
  maxViolenceSeverity : Nat
  maxSelfHarmSeverity : Nat
  maxHateOrExtremismSeverity : Nat
  maxDrugsSeverity : Nat
  maxUnknownSeverity : Nat
  maxSexualMinorContentSeverity : Nat
  moveRequired : Bool
  moveThreshold : ℚ
  storjMoveStatus : String
  legacyNsfwEc : String
  legacyNsfwGore : String
  /-- The documents of the JSON array. -/
  frameResultsJson : List FrameModerationOutput
  finalResponseJson : FinalResponse
  createdAt : Time
  updatedAt : Time
  updatedAtReplacing : Time

def toClickhouseVideoRow (settings : Settings) (job : VideoJob) (metadata : VideoMetadata)
    (frames : List FrameModerationResult) (result : VideoModerationResult)
    (storageAction : Option StorageAction) (now : Time) : VideoNsfwDetectionRow :=
  let maxCategories := result.maxCategorySeverities
  { videoId := job.videoId
    jobId := job.jobId
    publisherUserId := job.publisherUserId
    postId := job.postId
    canisterId := job.canisterId
    sourceVideoUri := job.sourceVideoUri
    sourceObjectVersion := job.sourceObjectVersion
    uploadEventId := job.uploadEventId
    status := VideoJobStatus.classified.value
    policyVersion := result.policyVersion
    promptVersion := result.promptVersion
    aggregationVersion := result.aggregationVersion
    modelProvider := settings.modelProvider
    modelName := orEmpty settings.modelName
    modelVersion := settings.modelVersion
    durationSeconds := metadata.durationSeconds
    framesExtracted := if metadata.framesExtracted = 0 then frames.length else metadata.framesExtracted
    framesProcessed := frames.length
    frameBatchSize := settings.frameBatchSize
    finalIsNsfw := result.finalIsNsfw
    finalScore := result.finalScore
    finalTopCategory := result.finalTopCategory
    maxOverallSeverity := result.maxOverallSeverity
    nsfwFrameCount := result.nsfwFrameCount
    totalFrameCount := result.totalFrameCount
    maxSuggestiveSeverity := maxCategories .suggestive
    maxNuditySeverity := maxCategories .nudity
    maxPornSeverity := maxCategories .porn
    maxGoreSeverity := maxCategories .gore
    maxViolenceSeverity := maxCategories .violence
    maxSelfHarmSeverity := maxCategories .selfHarm
    maxHateOrExtremismSeverity := maxCategories .hateOrExtremism
    maxDrugsSeverity := maxCategories .drugs
    maxUnknownSeverity := maxCategories .unknown
    maxSexualMinorContentSeverity := maxCategories .sexualMinorContent
    moveRequired := result.moveRequired
    moveThreshold := result.moveThreshold
    storjMoveStatus := (storageAction.map (·.status)).getD "not_required"
    legacyNsfwEc := result.legacyNsfwEc
    legacyNsfwGore := result.legacyNsfwGore
    frameResultsJson := frames.map (·.rawResponse)
    finalResponseJson := result.finalResponse
    createdAt := result.createdAt
    updatedAt := result.updatedAt
    updatedAtReplacing := now }

structure StorageActionRow where
  actionId : String
  videoId : String
  jobId : String
  publisherUserId : String
  actionType : String
  threshold : ℚ
  finalScore : ℚ
  status : String
  requestUrl : String
  requestBodyJson : MoveRequestBody
  responseStatus : Option Nat
  responseBody : String
  createdAt : Time
  completedAt : Option Time
  updatedAtReplacing : Time

def toClickhouseStorageActionRow (action : StorageAction) (now : Time) : StorageActionRow where
  actionId := action.actionId
  videoId := action.videoId
  jobId := action.jobId
  publisherUserId := action.publisherUserId
  actionType := action.actionType
  threshold := action.threshold
  finalScore := action.finalScore
  status := action.status
  requestUrl := action.requestUrl
  requestBodyJson := action.requestBody
  responseStatus := action.responseStatus
  responseBody := orEmpty action.responseBody
  createdAt := action.createdAt
  completedAt := action.completedAt
  updatedAtReplacing := now

structure LegacyNsfwAggRow where
  videoId : String
  gcsVideoId : Option String
  nsfwEc : Option String
  nsfwGore : Option String
  isNsfw : Bool
  probability : ℚ

def toLegacyNsfwAgg (result : VideoModerationResult) (historicalGcsVideoId : Option String := none) :
    LegacyNsfwAggRow where
  videoId := result.videoId
  gcsVideoId := historicalGcsVideoId
  nsfwEc := some result.legacyNsfwEc
  nsfwGore := some result.legacyNsfwGore
  isNsfw := result.finalIsNsfw
  probability := result.finalScore

inductive BufferRow
  | videoResult (row : VideoNsfwDetectionRow)
  | legacy (row : LegacyNsfwAggRow)
  | storageAction (row : StorageActionRow)

/-! ## The runtime key -/

structure RuntimeNsfwPayload where
  videoId : String
  isNsfw : Bool
  probability : ℚ
  nsfwEc : String
  nsfwGore : String
  policyVersion : String
  status : String

def runtimeNsfwPayload (result : VideoModerationResult) : RuntimeNsfwPayload where
  videoId := result.videoId
  isNsfw := result.finalIsNsfw
  probability := result.finalScore
  nsfwEc := result.legacyNsfwEc
  nsfwGore := result.legacyNsfwGore
  policyVersion := result.policyVersion
  status := VideoJobStatus.classified.value

end NsfwDetector
