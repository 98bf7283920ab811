import NsfwDetector.Services.RedisQueue

/-! # The status of a video, with its result -/

namespace NsfwDetector

open Effects

structure VideoFinalResultResponse where
  policyVersion : String
  promptVersion : String
  aggregationVersion : String
  finalIsNsfw : Bool
  finalScore : ℚ
  finalTopCategory : ModerationCategory
  maxOverallSeverity : Nat
  nsfwFrameCount : Nat
  totalFrameCount : Nat
  moveRequired : Bool
  moveThreshold : ℚ
  maxCategorySeverities : Scores
  legacyNsfwEc : String
  legacyNsfwGore : String
  finalResponse : FinalResponse

def finalResultResponse (result : VideoModerationResult) : VideoFinalResultResponse where
  policyVersion := result.policyVersion
  promptVersion := result.promptVersion
  aggregationVersion := result.aggregationVersion
  finalIsNsfw := result.finalIsNsfw
  finalScore := result.finalScore
  finalTopCategory := result.finalTopCategory
  maxOverallSeverity := result.maxOverallSeverity
  nsfwFrameCount := result.nsfwFrameCount
  totalFrameCount := result.totalFrameCount
  moveRequired := result.moveRequired
  moveThreshold := result.moveThreshold
  maxCategorySeverities := result.maxCategorySeverities
  legacyNsfwEc := result.legacyNsfwEc
  legacyNsfwGore := result.legacyNsfwGore
  finalResponse := result.finalResponse

structure VideoStatusResponse where
  jobId : String
  videoId : String
  status : VideoJobStatus
  traceId : Option String := none
  attempts : Int := 0
  lastErrorCode : Option String := none
  lastErrorMessage : Option String := none
  finalResult : Option VideoFinalResultResponse := none

namespace VideoStatusService

/-- `PostgresVideoResultReader.get_by_job_id` -/
def resultByJobId (jobId : String) : Code (Option VideoModerationResult) := do
  let row ← await (.selectResult jobId)
  pure (row.map rowToVideoResult)

/-- `PostgresVideoResultReader.get_latest_by_video_id` -/
def latestResultByVideoId (videoId : String) : Code (Option VideoModerationResult) := do
  let row ← await (.selectLatestResult videoId)
  pure (row.map rowToVideoResult)

def classifiedStatusFromResult (videoId : String) : Code (Option VideoStatusResponse) := do
  let result ← latestResultByVideoId videoId
  pure (result.map fun result =>
    { jobId := result.jobId
      videoId := result.videoId
      status := .classified
      finalResult := some (finalResultResponse result) })

/-- The service with a Postgres result reader. -/
def getStatusByVideoId (settings : Settings) (videoId : String) : Code (Option VideoStatusResponse) := do
  match ← (RedisQueue.service settings).getStatusByVideoId videoId with
  | none => classifiedStatusFromResult videoId
  | some job =>
    let finalResult ←
      if job.status = .classified then resultByJobId job.jobId else pure none
    pure (some
      { jobId := job.jobId
        videoId := job.videoId
        status := job.status
        traceId := job.traceId
        attempts := job.attempts
        lastErrorCode := job.lastErrorCode
        lastErrorMessage := job.lastErrorMessage
        finalResult := finalResult.map finalResultResponse })

end VideoStatusService

end NsfwDetector
