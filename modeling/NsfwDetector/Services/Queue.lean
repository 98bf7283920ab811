import NsfwDetector.Core.Errors
import NsfwDetector.Core.Models
import NsfwDetector.Services.Attempts

/-!
# The queue service

The services get their repositories handed in. So they are written over any monad that can raise,
and the same code runs over Kvrocks and over the queue in memory.
-/

namespace NsfwDetector

structure VideoQueueRepository (M : Type → Type) where
  enqueueVideoJob : VideoDetectRequest → M EnqueueResult
  getJobByVideoId : String → M (Option VideoJob)
  getJobById : String → M (Option VideoJob)
  updateStatus : String → VideoJobStatus → Option String → Option String → M (Option VideoJob)
  ensureConsumerGroup : M Unit
  readVideoJobMessages : Int → M (List QueuedVideoJobMessage)
  ackVideoJobMessage : Nat → M Unit
  requeueVideoJob : String → M Unit
  moveVideoJobMessageToDlq : QueuedVideoJobMessage → String → String → M Unit

structure VideoJobStateRepository (M : Type → Type) where
  getByJobId : String → M (Option VideoJob)
  markProcessing : VideoJob → M Unit
  markFailed : String → VideoJobStatus → String → String → M Unit

structure QueueService (M : Type → Type) where
  settings : Settings
  repository : VideoQueueRepository M

def poolMaxAttempts (settings : Settings) : Nat := (max 1 settings.kvrocksPoolMaxAttempts).toNat

theorem poolMaxAttempts_pos (settings : Settings) : 0 < poolMaxAttempts settings := by
  unfold poolMaxAttempts
  omega

def poolRetryBaseDelaySeconds (settings : Settings) : Double :=
  Backoff.pyMax (.finite 0) settings.kvrocksPoolRetryBaseDelaySeconds

def poolRetryDelay (settings : Settings) (attempt : Nat) : Except PyException Double :=
  (Backoff.doubled (poolRetryBaseDelaySeconds settings) attempt).map (Backoff.pyMin · (.finite 1))

theorem poolRetryDelay_error {settings : Settings} {attempt : Nat} {exc : PyException}
    (h : poolRetryDelay settings attempt = .error exc) : exc = overflowError := by
  unfold poolRetryDelay Backoff.doubled at h
  split at h
  · cases h
  · cases h
    rfl

section

variable {M : Type → Type} {α : Type}

/-- The rest of the loop, with the numbers of the attempts that are left. -/
def poolAttempts [MonadExcept PyException M] (settings : Settings) (operation : M α) : List Nat → M α
  | [] => throw (.runtimeError "queue pool retry loop exited unexpectedly")
  | attempt :: rest => tryCatch operation fun exc =>
    match exc with
    | .maxConnectionsError _ =>
      if poolMaxAttempts settings ≤ attempt then throw exc
      else
        match poolRetryDelay settings attempt with
        | .error overflow => throw overflow
        | .ok _delay => poolAttempts settings operation rest
    | _ => throw exc

/-- `for attempt in range(1, self._pool_max_attempts + 1)` -/
def readWithPoolRetry [MonadExcept PyException M] (settings : Settings) (operation : M α) : M α :=
  poolAttempts settings operation (List.range' 1 (poolMaxAttempts settings))

/-- There is a first attempt. -/
theorem readWithPoolRetry_eq [MonadExcept PyException M] (settings : Settings) (operation : M α) :
    ∃ rest, readWithPoolRetry settings operation = poolAttempts settings operation (1 :: rest) := by
  obtain ⟨n, hn⟩ := Nat.exists_eq_succ_of_ne_zero (poolMaxAttempts_pos settings).ne'
  exact ⟨List.range' 2 n, by rw [readWithPoolRetry, hn, List.range'_succ]⟩

namespace QueueService

variable (self : QueueService M)

def enqueueVideoDetection (request : VideoDetectRequest) : M EnqueueResult :=
  self.repository.enqueueVideoJob request

def getStatusByVideoId [MonadExcept PyException M] (videoId : String) : M (Option VideoJob) :=
  readWithPoolRetry self.settings (self.repository.getJobByVideoId videoId)

def getStatusByJobId [MonadExcept PyException M] (jobId : String) : M (Option VideoJob) :=
  readWithPoolRetry self.settings (self.repository.getJobById jobId)

def updateStatus (jobId : String) (status : VideoJobStatus)
    (lastErrorCode lastErrorMessage : Option String := none) : M (Option VideoJob) :=
  self.repository.updateStatus jobId status lastErrorCode lastErrorMessage

def ensureConsumerGroup : M Unit := self.repository.ensureConsumerGroup

def readVideoJobMessages (count : Int) : M (List QueuedVideoJobMessage) :=
  self.repository.readVideoJobMessages count

def ackVideoJobMessage (messageId : Nat) : M Unit := self.repository.ackVideoJobMessage messageId

def requeueVideoJob (jobId : String) : M Unit := self.repository.requeueVideoJob jobId

def moveVideoJobMessageToDlq (message : QueuedVideoJobMessage) (errorCode errorMessage : String) :
    M Unit :=
  self.repository.moveVideoJobMessageToDlq message errorCode errorMessage

end QueueService

end

end NsfwDetector
