import NsfwDetector.Files.Paths
import NsfwDetector.Moderation.Aggregation
import NsfwDetector.Services.Attempts
import NsfwDetector.Services.Detection
import NsfwDetector.Services.RedisQueue
import NsfwDetector.Services.Worker
import Mathlib.Data.List.Sort

/-! # The pipeline of one attempt, and the worker built on it -/

namespace NsfwDetector

open Effects

/-! ## Frames -/

/-- `frame_batches`: slices at the indices of `range(0, len(frames), batch_size)`. -/
def frameBatches (frames : List ExtractedFrame) (batchSize : Int) :
    Except PyException (List (List ExtractedFrame)) :=
  if batchSize = 0 then .error (.valueError "range() arg 3 must not be zero")
  else if batchSize < 0 then .ok []
  else
    let size := batchSize.toNat
    .ok ((List.range ((frames.length + size - 1) / size)).map fun k =>
      (frames.drop (k * size)).take size)

def framesFromPaths (paths : List String) : List ExtractedFrame :=
  (paths.insertionSort Paths.Le).mapIdx fun index path => ⟨index, index, path⟩

def extractFrames (jobId : String) : Code (List ExtractedFrame) := do
  let paths ← await (.ffmpeg jobId)
  let frames := framesFromPaths paths
  if frames = [] then throw (videoExtractionError "ffmpeg produced no frames")
  else pure frames

/-! ## The model -/

def visualAttempt (frames : List ExtractedFrame) : Code (List FrameModerationResult) := do
  let parsed ← await (.moderateImages (frames.map (·.path)))
  pure (List.zipWith toFrameModerationResult frames parsed)

def moderateFrameBatch (settings : Settings) (frames : List ExtractedFrame) :
    Code (List FrameModerationResult) :=
  if frames = [] then pure []
  else if (frames.length : Int) > settings.frameBatchSize then
    throw (.valueError "frame batch is larger than configured batch size")
  else
    modelAttempts settings (visualAttempt frames) "GPU moderation failed without an exception"

def moderateBatches (settings : Settings) (frameResults : List FrameModerationResult) :
    List (List ExtractedFrame) → Code (List FrameModerationResult)
  | [] => pure frameResults
  | batch :: rest => do
    let results ← moderateFrameBatch settings batch
    moderateBatches settings (frameResults ++ results) rest

/-! ## One attempt -/

/-- The part of `_process_video` that leads to the verdict. -/
def classify (settings : Settings) (job : VideoJob) :
    Code (VideoMetadata × List FrameModerationResult × VideoModerationResult) := do
  await (.downloadVideo job.sourceVideoUri)
  let metadata ← await (.probe job.jobId job.videoId)
  let extractedFrames ← extractFrames job.jobId
  let batches ← .done (frameBatches extractedFrames settings.frameBatchSize)
  let frameResults ← moderateBatches settings [] batches
  let now ← await .now
  let finalResult ← .done (aggregate settings job.jobId job.videoId job.policyVersion frameResults now)
  pure ({ metadata with framesExtracted := extractedFrames.length }, frameResults, finalResult)

def processVideo (settings : Settings) (job : VideoJob) : Code Unit := do
  await (.prepareJobDir job.jobId)
  Prog.tryFinally (do
      let (metadata, frameResults, finalResult) ← classify settings job
      let _ ← finalizeClassification settings job metadata frameResults finalResult
      let _ ← (RedisQueue.service settings).updateStatus job.jobId .classified
      pure ())
    (await (.cleanupDir job.jobId))

/-- The processor that `run` builds. -/
def processor (settings : Settings) : VideoJobProcessor Code where
  settings := settings
  queueService := RedisQueue.service settings
  jobStateRepository := PostgresJobState.repository
  processVideo := processVideo settings

def worker (settings : Settings) : VideoQueueWorker Code where
  settings := settings
  queueService := RedisQueue.service settings
  processor := processor settings

end NsfwDetector
