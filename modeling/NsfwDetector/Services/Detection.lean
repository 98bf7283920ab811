import NsfwDetector.Services.Processing
import NsfwDetector.Stores.Calls

/-!
# From a verdict to its publication

The move comes first, then one transaction, then the buffers and the runtime key.
-/

namespace NsfwDetector

open Effects

/-! ## Transactions -/

def execute (tx : List Write) (write : Write) : Code (List Write) := do
  await (.execute tx write)
  pure (tx ++ [write])

def commit (tx : List Write) : Code Unit := do
  let _ ← await (.commit tx)
  pure ()

/-- The job that `mark_processing` inserts, if it is not there. -/
def VideoJob.inserted (job : VideoJob) : VideoJob :=
  { job with
    status := .queued
    attempts := max (job.attempts - 1) 0
    startedAt := none }

def markProcessingTx (job : VideoJob) : List Write :=
  [.insertVideoJobOrNothing job.inserted, .markProcessing job.jobId]

namespace PostgresJobState

def getByJobId (jobId : String) : Code (Option VideoJob) := await (.selectJob jobId)

def markProcessing (job : VideoJob) : Code Unit := do
  let tx ← execute [] (.insertVideoJobOrNothing job.inserted)
  let tx ← execute tx (.markProcessing job.jobId)
  commit tx

def markFailed (jobId : String) (status : VideoJobStatus) (errorCode errorMessage : String) :
    Code Unit :=
  if status ≠ .failedRetryable ∧ status ≠ .failedTerminal then
    throw (.valueError "failed status must be retryable or terminal")
  else do
    let tx ← execute [] (.markFailed jobId status errorCode errorMessage)
    commit tx

/-- `PostgresVideoJobStateRepository` -/
def repository : VideoJobStateRepository Code where
  getByJobId := getByJobId
  markProcessing := markProcessing
  markFailed := markFailed

end PostgresJobState

/-! ## The Storj move -/

def moveToNsfw (settings : Settings) (publisherUserId videoId : String) : Code StorjMoveResponse :=
  if ¬ settings.StorjConfigured then
    throw (.appError "storj_not_configured" "Storj interface is not configured" 503)
  else await (.postMove publisherUserId videoId)

def moveIfRequired (settings : Settings) (result : VideoModerationResult) (publisherUserId : String) :
    Code (Option StorjMoveResponse) :=
  if ¬ result.moveRequired then pure none
  else do
    let response ← moveToNsfw settings publisherUserId result.videoId
    pure (some response)

/-- `url.rstrip("/")` -/
def rstripSlash (url : String) : String :=
  String.ofList (url.toList.reverse.dropWhile (· = '/')).reverse

def requestUrl (settings : Settings) : String :=
  if truthy settings.storjInterfaceUrl then
    rstripSlash (orEmpty settings.storjInterfaceUrl) ++ "/move-to-nsfw"
  else ""

def actionId (jobId uuid : String) : String := "storage-action:" ++ jobId ++ ":" ++ uuid

def succeededAction (settings : Settings) (job : VideoJob) (result : VideoModerationResult)
    (moveResponse : StorjMoveResponse) (uuid : String) (now : Time) : StorageAction where
  actionId := actionId job.jobId uuid
  jobId := job.jobId
  videoId := job.videoId
  publisherUserId := job.publisherUserId
  actionType := "move_to_nsfw"
  threshold := result.moveThreshold
  finalScore := result.finalScore
  requestUrl := requestUrl settings
  requestBody := ⟨job.publisherUserId, job.videoId⟩
  responseStatus := some moveResponse.statusCode
  responseBody := some moveResponse.body
  status := "succeeded"
  createdAt := now
  completedAt := some now

def storageAction (settings : Settings) (job : VideoJob) (result : VideoModerationResult) :
    Option StorjMoveResponse → Code (Option StorageAction)
  | none => pure none
  | some moveResponse => do
    let now ← await .now
    let uuid ← await .uuid4
    pure (some (succeededAction settings job result moveResponse uuid now))

/-! ## The final transaction -/

def frameRows (settings : Settings) (job : VideoJob) (result : VideoModerationResult)
    (frames : List FrameModerationResult) : List FrameResultRow :=
  frames.map (frameResultToRow job.jobId job.videoId result.promptVersion settings.modelProvider
    (orEmpty settings.modelName) settings.modelVersion)

/-- `insert_frame_results` makes no statement for an empty list. -/
def frameWrites (rows : List FrameResultRow) : List Write :=
  if rows = [] then [] else [.insertFrameResults rows]

/-- The writes of the final transaction, in their order. -/
def finalTx (settings : Settings) (job : VideoJob) (frames : List FrameModerationResult)
    (result : VideoModerationResult) (action : Option StorageAction) : List Write :=
  frameWrites (frameRows settings job result frames) ++
    (.insertFinalResult (videoResultToRow result) ::
      (action.toList.map .insertStorageAction ++ [.markClassified job.jobId]))

def executeAll (tx : List Write) : List Write → Code (List Write)
  | [] => pure tx
  | write :: rest => do
    let tx ← execute tx write
    executeAll tx rest

/-- The unit of work: it commits if no statement raised. -/
def finalTransaction (settings : Settings) (job : VideoJob) (frames : List FrameModerationResult)
    (result : VideoModerationResult) (action : Option StorageAction) : Code Unit := do
  let tx ← executeAll [] (finalTx settings job frames result action)
  commit tx

/-! ## Publication -/

def pushJson (key : String) (row : BufferRow) : Code Unit := await (.writes [.rpush key row])

def runtimeKey (settings : Settings) (videoId : String) : String :=
  settings.runtimeNsfwKeyPrefix ++ videoId

def writeResult (settings : Settings) (videoId : String) (payload : RuntimeNsfwPayload) : Code Unit :=
  await (.writes [.setRuntime (runtimeKey settings videoId) payload])

def pushStorageAction (settings : Settings) : Option StorageAction → Code Unit
  | none => pure ()
  | some action => do
    let now ← await .now
    pushJson settings.clickhouseBufferStorageActionsKey
      (.storageAction (toClickhouseStorageActionRow action now))

def publishAfterCommit (settings : Settings) (job : VideoJob) (metadata : VideoMetadata)
    (frames : List FrameModerationResult) (result : VideoModerationResult)
    (action : Option StorageAction) : Code Unit := do
  let now ← await .now
  pushJson settings.clickhouseBufferVideoResultsKey
    (.videoResult (toClickhouseVideoRow settings job metadata frames result action now))
  pushJson settings.clickhouseBufferLegacyKey (.legacy (toLegacyNsfwAgg result))
  pushStorageAction settings action
  writeResult settings job.videoId (runtimeNsfwPayload result)

def finalizeClassification (settings : Settings) (job : VideoJob) (metadata : VideoMetadata)
    (frames : List FrameModerationResult) (result : VideoModerationResult) :
    Code (Option StorageAction) := do
  let moveResponse ← moveIfRequired settings result job.publisherUserId
  let action ← storageAction settings job result moveResponse
  finalTransaction settings job frames result action
  publishAfterCommit settings job metadata frames result action
  pure action

end NsfwDetector
