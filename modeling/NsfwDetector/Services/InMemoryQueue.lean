import NsfwDetector.Services.Detection
import NsfwDetector.Services.Queue
import NsfwDetector.Stores.Kvrocks
import NsfwDetector.Services.Worker
import Mathlib.Data.List.MinMax

/-!
# The queue in memory

The same worker over the repository that keeps the queue in the process. Its reads deliver every
message that nobody acknowledged. The queue and the status tables answer every call; the rest of
the pipeline may do what it likes.
-/

namespace NsfwDetector

structure InMemoryVideoQueueRepository where
  jobs : List VideoJob := []
  uniqueIndex : String × String × String → Option String := fun _ => none
  queue : List String := []
  messages : List QueuedVideoJobMessage := []
  ackedMessageIds : List Nat := []
  dlq : List DlqEntry := []

namespace InMemoryVideoQueueRepository

variable (self : InMemoryVideoQueueRepository)

/-- `self._jobs.get(job_id)` -/
def job? (jobId : String) : Option VideoJob := self.jobs.find? (·.jobId = jobId)

/-- `self._jobs[job.job_id] = job`, for a job that is there. -/
def put (job : VideoJob) : InMemoryVideoQueueRepository :=
  { self with jobs := self.jobs.map fun other => if other.jobId = job.jobId then job else other }

def append (job : VideoJob) : InMemoryVideoQueueRepository :=
  { self with
    queue := self.queue ++ [job.jobId]
    messages := self.messages ++ [⟨self.messages.length + 1, job.jobId, job.stored⟩] }

def ack (messageId : Nat) : InMemoryVideoQueueRepository :=
  { self with ackedMessageIds := messageId :: self.ackedMessageIds }

def addNew (job : VideoJob) : InMemoryVideoQueueRepository :=
  { self with
    jobs := self.jobs ++ [job]
    uniqueIndex := Function.update self.uniqueIndex job.triple (some job.jobId) }

def unacked : List QueuedVideoJobMessage :=
  self.messages.filter (·.messageId ∉ self.ackedMessageIds)

/-! ### One job at a time -/

variable {self} {job other : VideoJob} {jobId : String}

theorem job?_mem (h : self.job? jobId = some job) : job ∈ self.jobs ∧ job.jobId = jobId :=
  ⟨List.mem_of_find?_eq_some h, by simpa using List.find?_some h⟩

theorem job?_put (self : InMemoryVideoQueueRepository) (job : VideoJob) (jobId : String) :
    (self.put job).job? jobId =
      if jobId = job.jobId then (self.job? jobId).map fun _ => job else self.job? jobId := by
  unfold job? put
  induction self.jobs with
  | nil => simp
  | cons row rows ih =>
    simp only [List.map_cons, List.find?_cons]
    by_cases hrow : row.jobId = jobId
    · by_cases hjob : row.jobId = job.jobId <;> simp_all
    · have hnot : (if row.jobId = job.jobId then job else row).jobId ≠ jobId := by
        split <;> simp_all
      simp [hrow, hnot, ih]

theorem job?_put_self (h : self.job? job.jobId = some other) :
    (self.put job).job? job.jobId = some job := by
  rw [job?_put, if_pos rfl, h, Option.map_some]

theorem put_put (h : job.jobId = other.jobId) : (self.put job).put other = self.put other := by
  unfold put
  simp only [List.map_map, InMemoryVideoQueueRepository.mk.injEq, and_true]
  apply List.map_congr_left
  intro row _
  simp only [Function.comp]
  split <;> simp_all

@[simp] theorem put_unacked (job : VideoJob) : (self.put job).unacked = self.unacked := rfl

theorem ids_put (job : VideoJob) :
    (self.put job).jobs.map (·.jobId) = self.jobs.map (·.jobId) := by
  unfold put
  rw [List.map_map]
  apply List.map_congr_left
  intro row _
  simp only [Function.comp]
  split <;> simp_all

theorem unacked_append (h : self.messages.length + 1 ∉ self.ackedMessageIds) (job : VideoJob) :
    (self.append job).unacked =
      self.unacked ++ [⟨self.messages.length + 1, job.jobId, job.stored⟩] := by
  unfold unacked append
  rw [List.filter_append]
  simp [h]

theorem job?_addNew (h : self.job? job.jobId = none) (jobId : String) :
    (self.addNew job).job? jobId = if jobId = job.jobId then some job else self.job? jobId := by
  unfold job? at h ⊢
  unfold addNew
  rw [List.find?_append]
  split
  · next heq => simp [heq, h]
  · next hne => simp [Ne.symm hne]

theorem mem_put (h : other ∈ (self.put job).jobs) :
    other = job ∨ (other ∈ self.jobs ∧ other.jobId ≠ job.jobId) := by
  unfold put at h
  obtain ⟨row, hrow, rfl⟩ := List.mem_map.mp h
  split
  · exact .inl rfl
  · next hne => exact .inr ⟨hrow, hne⟩

end InMemoryVideoQueueRepository

/-- One run of the pipeline up to the last status update: what it leaves in Postgres, and what it
raises. -/
structure PipelineRun where
  db : Db → Db
  failure : Option PyException

/-- The clock, and how each run of the pipeline goes. -/
structure Surroundings where
  clock : Nat → Time
  pipeline : Nat → PipelineRun

structure Memory where
  queue : InMemoryVideoQueueRepository := {}
  db : Db := ⟨[], [], [], []⟩
  ticks : Nat := 0
  /-- The jobs that were run through the pipeline. -/
  ran : List String := []

namespace InMemory

abbrev Code := EStateM PyException Memory

variable (surroundings : Surroundings)

def now : Code Time :=
  modifyGet fun s => (surroundings.clock s.ticks, { s with ticks := s.ticks + 1 })

def queue : Code InMemoryVideoQueueRepository := do
  let s ← get
  pure s.queue

def modifyQueue (f : InMemoryVideoQueueRepository → InMemoryVideoQueueRepository) : Code Unit :=
  modify fun s => { s with queue := f s.queue }

/-! ## `InMemoryVideoQueueRepository` -/

def keyError (key : String) : PyException := .other "KeyError" ("'" ++ key ++ "'")

/-- `self._jobs[job_id]` -/
def jobAt (jobId : String) : Code VideoJob := do
  match (← queue).job? jobId with
  | some job => pure job
  | none => throw (keyError jobId)

def storeNewJob (request : VideoDetectRequest) : Code EnqueueResult := do
  let now ← now surroundings
  let job := request.job now
  modifyQueue fun queue => (queue.addNew job).append job
  pure ⟨job, true⟩

def enqueueVideoJob (request : VideoDetectRequest) : Code EnqueueResult := do
  match (← queue).job? request.jobId with
  | some existingJob => pure ⟨existingJob, false⟩
  | none =>
    match (← queue).uniqueIndex
      (request.videoId, request.sourceObjectVersion, request.policyVersion) with
    | none => storeNewJob surroundings request
    | some existingJobId => do
      let existing ← jobAt existingJobId
      if existing.status.Terminal ∨ existing.status ∈ [.queued, .processing, .classified] then
        pure ⟨existing, false⟩
      else storeNewJob surroundings request

/-- The job of the video that was updated last. `datetime.min` stands in for no time. -/
def getJobByVideoId (videoId : String) : Code (Option VideoJob) := do
  let jobs := (← queue).jobs.filter (·.videoId = videoId)
  pure (jobs.argmax fun job => job.updatedAt.getD 0)

def getJobById (jobId : String) : Code (Option VideoJob) := do
  pure ((← queue).job? jobId)

def updateStatus (jobId : String) (status : VideoJobStatus)
    (lastErrorCode lastErrorMessage : Option String) : Code (Option VideoJob) := do
  match (← queue).job? jobId with
  | none => pure none
  | some job =>
    let now ← now surroundings
    let updated := job.withStatus status lastErrorCode lastErrorMessage now
    modifyQueue (·.put updated)
    pure (some updated)

/-- `messages[:count]` -/
def slice {α : Type} (l : List α) (count : Int) : List α :=
  if 0 ≤ count then l.take count.toNat else l.take (l.length - (-count).toNat)

def readVideoJobMessages (count : Int) : Code (List QueuedVideoJobMessage) := do
  pure (slice (← queue).unacked count)

def ackVideoJobMessage (messageId : Nat) : Code Unit := modifyQueue (·.ack messageId)

def requeueVideoJob (jobId : String) : Code Unit := do
  let job ← jobAt jobId
  modifyQueue (·.append job)

def moveVideoJobMessageToDlq (message : QueuedVideoJobMessage) (errorCode errorMessage : String) :
    Code Unit := do
  modifyQueue fun queue => { queue with dlq := queue.dlq ++ [dlqEntry message errorCode errorMessage] }
  ackVideoJobMessage message.messageId

def repository : VideoQueueRepository Code where
  enqueueVideoJob := enqueueVideoJob surroundings
  getJobByVideoId := getJobByVideoId
  getJobById := getJobById
  updateStatus := updateStatus surroundings
  ensureConsumerGroup := pure ()
  readVideoJobMessages := readVideoJobMessages
  ackVideoJobMessage := ackVideoJobMessage
  requeueVideoJob := requeueVideoJob
  moveVideoJobMessageToDlq := moveVideoJobMessageToDlq

def service (settings : Settings) : QueueService Code := ⟨settings, repository surroundings⟩

/-! ## Job states in Postgres -/

def transaction (tx : List Write) : Code Unit := do
  let now ← now surroundings
  match (← get).db.applyAll now tx with
  | .ok db => modify fun s => { s with db := db }
  | .error e => throw e

def markFailed (jobId : String) (status : VideoJobStatus) (errorCode errorMessage : String) :
    Code Unit :=
  if status ≠ .failedRetryable ∧ status ≠ .failedTerminal then
    throw (.valueError "failed status must be retryable or terminal")
  else transaction surroundings [.markFailed jobId status errorCode errorMessage]

def jobStates : VideoJobStateRepository Code where
  getByJobId jobId := do pure ((← get).db.job? jobId)
  markProcessing job := transaction surroundings (markProcessingTx job)
  markFailed := markFailed surroundings

/-! ## The worker -/

/-- `_process_video` up to its last call. -/
def runPipeline (job : VideoJob) : Code Unit := do
  let failure ← modifyGet fun s =>
    let run := surroundings.pipeline s.ran.length
    (run.failure, { s with db := run.db s.db, ran := s.ran ++ [job.jobId] })
  match failure with
  | none => pure ()
  | some exc => throw exc

def processVideo (settings : Settings) (job : VideoJob) : Code Unit := do
  runPipeline surroundings job
  let _ ← (service surroundings settings).updateStatus job.jobId .classified
  pure ()

def processor (settings : Settings) : VideoJobProcessor Code where
  settings := settings
  queueService := service surroundings settings
  jobStateRepository := jobStates surroundings
  processVideo := processVideo surroundings settings

def worker (settings : Settings) : VideoQueueWorker Code where
  settings := settings
  queueService := service surroundings settings
  processor := processor surroundings settings

end InMemory

end NsfwDetector
