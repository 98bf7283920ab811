import NsfwDetector.Effects.Raising
import NsfwDetector.Services.Detection
import NsfwDetector.Stores.Clickhouse

/-! # Flushing the buffers, and manual bans -/

namespace NsfwDetector

open Effects

def insertModelRows (settings : ClickhouseSettings) (tableName : String) (rows : List ClickhouseRow) :
    FlushCode Unit :=
  if rows = [] then pure () else issue (.insert (settings.table tableName) rows)

/-! ## `ClickHouseFlushService` -/

def readBatch (key : String) (limit : Int) : FlushCode (List BufferRow) :=
  issue (.lrange key (limit - 1))

def trimBatch (key : String) (count : Int) : FlushCode Unit := issue (.ltrim key count)

/-- What `model_validate` raises for a row of another kind. -/
def validationError (model : String) : PyException :=
  .other "ValidationError" s!"validation errors for {model}"

def validateVideoResult : BufferRow → Except PyException ClickhouseRow
  | .videoResult row => .ok (.videoResult row)
  | _ => .error (validationError "VideoNsfwDetectionRow")

def validateLegacy : BufferRow → Except PyException ClickhouseRow
  | .legacy row => .ok (.legacy row)
  | _ => .error (validationError "LegacyNsfwAggRow")

def validateStorageAction : BufferRow → Except PyException ClickhouseRow
  | .storageAction row => .ok (.storageAction row)
  | _ => .error (validationError "StorageActionRow")

/-- One buffer: read a batch, insert it, trim it. -/
def flushRows (settings : ClickhouseSettings) (batchSize : Int) (key tableName : String)
    (modelValidate : BufferRow → Except PyException ClickhouseRow) : FlushCode Unit := do
  let rows ← readBatch key batchSize
  if rows = [] then pure ()
  else do
    let parsed ← .done (rows.mapM modelValidate)
    insertModelRows settings tableName parsed
    trimBatch key rows.length

def flushVideoResults (settings : ClickhouseSettings) (batchSize : Int) : FlushCode Unit :=
  flushRows settings batchSize settings.clickhouseBufferVideoResultsKey settings.clickhouseNsfwTable
    validateVideoResult

def flushLegacyRows (settings : ClickhouseSettings) (batchSize : Int) : FlushCode Unit :=
  flushRows settings batchSize settings.clickhouseBufferLegacyKey settings.clickhouseNsfwAggTable
    validateLegacy

def flushStorageActions (settings : ClickhouseSettings) (batchSize : Int) : FlushCode Unit :=
  flushRows settings batchSize settings.clickhouseBufferStorageActionsKey
    settings.clickhouseStorageActionsTable validateStorageAction

def flushOnce (settings : ClickhouseSettings) (batchSize : Int := 50) : FlushCode Unit := do
  flushVideoResults settings batchSize
  flushLegacyRows settings batchSize
  flushStorageActions settings batchSize

/-! ## `ManualBanService` -/

structure VideoBanRequest where
  traceId : Option String := none

structure ManualBanResult where
  videoId : String
  status : String
  excludedVideosWritten : Bool
  legacyNsfwAggWritten : Bool
  traceId : Option String

def bannedExcludedRow (videoId : String) (now : Time) : ExcludedVideoRow where
  videoId := videoId
  excludedAt := now
  exclusionReason := "banned"
  updatedAtReplacing := now

def bannedLegacyRow (videoId : String) : LegacyNsfwAggRow where
  videoId := videoId
  gcsVideoId := none
  nsfwEc := some "explicit"
  nsfwGore := some "VERY_UNLIKELY"
  isNsfw := true
  probability := 1

def banVideo (settings : ClickhouseSettings) (videoId : String) (request : VideoBanRequest) :
    FlushCode ManualBanResult := do
  let now ← issue .now
  insertModelRows settings settings.clickhouseNsfwAggTable [.legacy (bannedLegacyRow videoId)]
  insertModelRows settings settings.clickhouseExcludedVideosTable
    [.excluded (bannedExcludedRow videoId now)]
  pure
    { videoId := videoId
      status := "banned"
      excludedVideosWritten := true
      legacyNsfwAggWritten := true
      traceId := request.traceId }

/-! ## Validation -/

theorem validateVideoResult_eq (row : BufferRow) (parsed : ClickhouseRow)
    (h : validateVideoResult row = .ok parsed) : parsed = row.clickhouse := by
  cases row with
  | videoResult row => exact (Except.ok.inj h).symm
  | legacy | storageAction => cases h

theorem validateLegacy_eq (row : BufferRow) (parsed : ClickhouseRow)
    (h : validateLegacy row = .ok parsed) : parsed = row.clickhouse := by
  cases row with
  | legacy row => exact (Except.ok.inj h).symm
  | videoResult | storageAction => cases h

theorem validateStorageAction_eq (row : BufferRow) (parsed : ClickhouseRow)
    (h : validateStorageAction row = .ok parsed) : parsed = row.clickhouse := by
  cases row with
  | storageAction row => exact (Except.ok.inj h).symm
  | videoResult | legacy => cases h

end NsfwDetector
