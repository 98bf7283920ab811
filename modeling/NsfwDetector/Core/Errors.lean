import NsfwDetector.Core.Constants

/-! # Exceptions and how the worker classifies them -/

namespace NsfwDetector

/-- What `classify_processing_error` makes of an exception. -/
structure ProcessingFailure where
  status : VideoJobStatus
  errorCode : String
  errorMessage : String
  retryable : Bool
  deriving DecidableEq, Repr

/-- The subclasses of `Exception` that the code tells apart. `other` is any other class. -/
inductive PyException
  | appError (code message : String) (statusCode : Nat)
  | httpStatusError (statusCode : Nat) (text : String)
  | requestError (className text : String)
  | maxConnectionsError (text : String)
  | videoJobProcessingError (failure : ProcessingFailure)
  | other (className text : String)
  deriving DecidableEq, Repr

namespace PyException

/-- `exc.__class__.__name__` -/
def className : PyException → String
  | appError .. => "AppError"
  | httpStatusError .. => "HTTPStatusError"
  | requestError name _ => name
  | maxConnectionsError _ => "MaxConnectionsError"
  | videoJobProcessingError _ => "VideoJobProcessingError"
  | other name _ => name

/-- `str(exc)` -/
def text : PyException → String
  | appError _ message _ => message
  | httpStatusError _ text => text
  | requestError _ text => text
  | maxConnectionsError text => text
  | videoJobProcessingError failure => failure.errorMessage
  | other _ text => text

def valueError (message : String) : PyException := .other "ValueError" message

def runtimeError (message : String) : PyException := .other "RuntimeError" message

def integrityError (message : String) : PyException := .other "IntegrityError" message

/-- Not the exception that `process` itself raises. -/
def Foreign : PyException → Prop
  | videoJobProcessingError _ => False
  | _ => True

instance (exc : PyException) : Decidable exc.Foreign := by
  cases exc <;> unfold Foreign <;> infer_instance

end PyException

/-! ## Error codes -/

namespace Codes

def authMissingHeaders : String := "auth_missing_headers"
def authBadTimestamp : String := "auth_bad_timestamp"
def authTimestampOutOfRange : String := "auth_timestamp_out_of_range"
def authBadSignature : String := "auth_bad_signature"
def modelResponseInvalidJson : String := "model_response_invalid_json"
def modelResponseInvalidSchema : String := "model_response_invalid_schema"
def videoDownloadEmpty : String := "video_download_empty"
def videoTooLarge : String := "video_too_large"
def videoNoStream : String := "video_no_stream"
def videoProbeFailed : String := "video_probe_failed"
def videoExtractionFailed : String := "video_extraction_failed"

end Codes

def terminalProcessingErrorCodes : List String :=
  [Codes.videoDownloadEmpty, Codes.videoTooLarge, Codes.videoNoStream, Codes.videoProbeFailed,
    Codes.videoExtractionFailed]

/-- `VideoExtractionError`; like its siblings it keeps the default status code of `AppError`. -/
def videoExtractionError (message : String) : PyException :=
  .appError Codes.videoExtractionFailed message 400

/-! ## Classification -/

def isRetryable : PyException → Bool
  | .httpStatusError statusCode _ => statusCode = 408 ∨ statusCode = 429 ∨ statusCode ≥ 500
  | .requestError .. => true
  | .appError code _ statusCode => code ∉ terminalProcessingErrorCodes ∧ statusCode ≥ 500
  | _ => true

def errorCode : PyException → String
  | .appError code _ _ => code
  | .httpStatusError statusCode _ => s!"http_{statusCode}"
  | exc => exc.className

/-- `message[:1000]` -/
def truncated (message : String) : String := String.ofList (message.toList.take 1000)

def errorMessage : PyException → String
  | .appError _ message _ => truncated message
  | exc => truncated (if exc.text = "" then exc.className else exc.text)

def classifyProcessingError (exc : PyException) (attempts maxAttempts : Int) : ProcessingFailure :=
  let retryable := isRetryable exc && attempts < maxAttempts
  { status := if retryable then .failedRetryable else .failedTerminal
    errorCode := errorCode exc
    errorMessage := errorMessage exc
    retryable := retryable }

theorem classifyProcessingError_retryable (exc : PyException) (attempts maxAttempts : Int)
    (h : (classifyProcessingError exc attempts maxAttempts).retryable = true) :
    (classifyProcessingError exc attempts maxAttempts).status = .failedRetryable ∧
      attempts < maxAttempts := by
  simp only [classifyProcessingError, Bool.and_eq_true, decide_eq_true_eq] at h ⊢
  simp [h]

theorem classifyProcessingError_terminal (exc : PyException) (attempts maxAttempts : Int)
    (h : (classifyProcessingError exc attempts maxAttempts).retryable = false) :
    (classifyProcessingError exc attempts maxAttempts).status = .failedTerminal := by
  simp only [classifyProcessingError] at h ⊢
  simp [h]

end NsfwDetector
