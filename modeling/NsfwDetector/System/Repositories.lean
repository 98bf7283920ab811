import NsfwDetector.System.OneWorker
import NsfwDetector.Services.RedisQueue

/-!
# One caller at a time, and nothing fails

Each operation of a queue repository is a change of its state, and says which job it is about.
Both repositories first look for a job that a request may be answered with.
-/

namespace NsfwDetector.Repositories

open Effects Prog

/-- What the services ask of their queue repository. -/
inductive Operation
  | enqueueVideoJob (request : VideoDetectRequest)
  | updateStatus (jobId : String) (status : VideoJobStatus)
      (lastErrorCode lastErrorMessage : Option String)
  | getJobById (jobId : String)
  | getJobByVideoId (videoId : String)

inductive Response
  | enqueued (result : EnqueueResult)
  | updated (job : Option VideoJob)
  | found (job : Option VideoJob)

section

variable {M : Type → Type} [Monad M] (repository : VideoQueueRepository M)

def perform : Operation → M Response
  | .enqueueVideoJob request => do
    let result ← repository.enqueueVideoJob request
    pure (.enqueued result)
  | .updateStatus jobId status lastErrorCode lastErrorMessage => do
    let job ← repository.updateStatus jobId status lastErrorCode lastErrorMessage
    pure (.updated job)
  | .getJobById jobId => do
    let job ← repository.getJobById jobId
    pure (.found job)
  | .getJobByVideoId videoId => do
    let job ← repository.getJobByVideoId videoId
    pure (.found job)

def performAll : List Operation → M (List Response)
  | [] => pure []
  | operation :: operations => do
    let response ← perform repository operation
    let responses ← performAll operations
    pure (response :: responses)

end

/-- The responses to operations that are carried out one after the other. -/
inductive Responds {σ : Type} (does : σ → Operation → Response → σ → Prop) :
    σ → List Operation → List Response → σ → Prop
  | nil {s : σ} : Responds does s [] [] s
  | cons {s s' s'' : σ} {operation : Operation} {response : Response} {operations : List Operation}
      {responses : List Response} (hstep : does s operation response s')
      (hrest : Responds does s' operations responses s'') :
      Responds does s (operation :: operations) (response :: responses) s''

theorem Responds.keeps {σ : Type} {does : σ → Operation → Response → σ → Prop} {P : σ → Prop}
    (hkeeps : ∀ {s operation response s'}, does s operation response s' → P s → P s') {s s' : σ}
    {operations : List Operation} {responses : List Response}
    (h : Responds does s operations responses s') (hs : P s) : P s' := by
  induction h with
  | nil => exact hs
  | cons hstep _ ih => exact ih (hkeeps hstep hs)

end NsfwDetector.Repositories

namespace NsfwDetector

open Effects Prog Repositories

/-! ## The queue in memory -/

namespace InMemoryVideoQueueRepository

/-- The job that a request is answered with, if it is not stored as a new one. -/
def existing? (self : InMemoryVideoQueueRepository) (request : VideoDetectRequest) : Option VideoJob :=
  match self.job? request.jobId with
  | some job => some job
  | none => ((self.uniqueIndex request.triple).bind self.job?).filter (·.status ≠ .failedRetryable)

def lastUpdated? (self : InMemoryVideoQueueRepository) (videoId : String) : Option VideoJob :=
  (self.jobs.filter (·.videoId = videoId)).argmax fun job => job.updatedAt.getD 0

inductive Does (self : InMemoryVideoQueueRepository) :
    Operation → Response → InMemoryVideoQueueRepository → Prop
  | existing {request : VideoDetectRequest} {job : VideoJob} (h : self.existing? request = some job) :
      Does self (.enqueueVideoJob request) (.enqueued ⟨job, false⟩) self
  | new {request : VideoDetectRequest} {now : Time} (h : self.existing? request = none) :
      Does self (.enqueueVideoJob request) (.enqueued ⟨request.job now, true⟩)
        ((self.addNew (request.job now)).append (request.job now))
  | unknown {jobId : String} {status : VideoJobStatus} {code message : Option String}
      (h : self.job? jobId = none) : Does self (.updateStatus jobId status code message) (.updated none) self
  | updated {jobId : String} {status : VideoJobStatus} {code message : Option String} {job : VideoJob}
      {now : Time} (h : self.job? jobId = some job) :
      Does self (.updateStatus jobId status code message)
        (.updated (some (job.withStatus status code message now)))
        (self.put (job.withStatus status code message now))
  | byId {jobId : String} : Does self (.getJobById jobId) (.found (self.job? jobId)) self
  | byVideoId {videoId : String} :
      Does self (.getJobByVideoId videoId) (.found (self.lastUpdated? videoId)) self

/-- Ids are not used twice, and the index points at jobs for the work it is asked for. -/
structure Wf (queue : InMemoryVideoQueueRepository) : Prop where
  ids : (queue.jobs.map (·.jobId)).Nodup
  index : ∀ work jobId, queue.uniqueIndex work = some jobId →
    ∃ job, queue.job? jobId = some job ∧ job.triple = work

variable {self self' : InMemoryVideoQueueRepository}

theorem wf_empty : Wf {} := ⟨List.nodup_nil, fun _ _ h => by cases h⟩

theorem job?_of_mem (h : self.Wf) {job : VideoJob} (hmem : job ∈ self.jobs) :
    self.job? job.jobId = some job := by
  cases hfound : self.job? job.jobId with
  | none =>
    unfold job? at hfound
    have hnot := List.find?_eq_none.mp hfound job hmem
    simp at hnot
  | some found =>
    obtain ⟨hfoundmem, hid⟩ := job?_mem hfound
    rw [List.inj_on_of_nodup_map h.ids hfoundmem hmem hid]

theorem wf_append {job : VideoJob} (h : self.Wf) : (self.append job).Wf := ⟨h.ids, h.index⟩

theorem wf_addNew {job : VideoJob} (h : self.Wf) (hnew : self.job? job.jobId = none) :
    (self.addNew job).Wf := by
  constructor
  · unfold addNew
    rw [List.map_append, List.map_singleton, List.nodup_append]
    refine ⟨h.ids, List.nodup_singleton _, ?_⟩
    intro jobId hmem other hother heq
    obtain ⟨found, hfound, rfl⟩ := List.mem_map.mp hmem
    rw [List.mem_singleton] at hother
    have hsome := job?_of_mem h hfound
    rw [heq, hother, hnew] at hsome
    cases hsome
  · intro work jobId hindex
    rw [job?_addNew hnew]
    simp only [addNew] at hindex
    by_cases hwork : work = job.triple
    · subst hwork
      rw [Function.update_self, Option.some.injEq] at hindex
      exact ⟨job, by rw [if_pos hindex.symm], rfl⟩
    · rw [Function.update_of_ne hwork] at hindex
      obtain ⟨found, hfound, htriple⟩ := h.index work jobId hindex
      refine ⟨found, ?_, htriple⟩
      rw [if_neg ?_, hfound]
      rintro rfl
      rw [hnew] at hfound
      cases hfound

theorem wf_put {job other : VideoJob} (h : self.Wf) (hjob : self.job? job.jobId = some other)
    (htriple : job.triple = other.triple) : (self.put job).Wf := by
  constructor
  · rw [ids_put]
    exact h.ids
  · intro work jobId hindex
    obtain ⟨found, hfound, hwork⟩ := h.index work jobId hindex
    rw [job?_put]
    split
    · next heq =>
      rw [heq, hjob, Option.some.injEq] at hfound
      refine ⟨job, by rw [heq, hjob]; rfl, ?_⟩
      rw [htriple, hfound, hwork]
    · exact ⟨found, hfound, hwork⟩

theorem job?_of_existing?_none {request : VideoDetectRequest} (h : self.existing? request = none) :
    self.job? request.jobId = none := by
  unfold existing? at h
  split at h
  · cases h
  · assumption

theorem Does.wf {operation : Operation} {response : Response}
    (hdoes : self.Does operation response self') (h : self.Wf) : self'.Wf := by
  cases hdoes with
  | existing | unknown | byId | byVideoId => exact h
  | new hnone => exact wf_append (wf_addNew h (job?_of_existing?_none hnone))
  | @updated jobId status code message job now hjob =>
    have hid : (job.withStatus status code message now).jobId = jobId := (job?_mem hjob).2
    have hother : self.job? (job.withStatus status code message now).jobId = some job := by
      rw [hid, hjob]
    exact wf_put h hother rfl

end InMemoryVideoQueueRepository

namespace Repositories

section

open InMemory Accounting

variable (surroundings : Surroundings) {s : Memory} {request : VideoDetectRequest}

theorem answered_iff (status : VideoJobStatus) :
    (status.Terminal ∨ status ∈ [VideoJobStatus.queued, .processing, .classified]) ↔
      status ≠ .failedRetryable := by
  cases status <;> decide

theorem memory_existing {job : VideoJob} (h : s.queue.existing? request = some job) :
    Returns (InMemory.enqueueVideoJob surroundings request) s ⟨job, false⟩ s := by
  unfold InMemoryVideoQueueRepository.existing? at h
  unfold InMemory.enqueueVideoJob
  refine .bind (queue_spec s) ?_
  cases hjob : s.queue.job? request.jobId with
  | some found =>
    rw [hjob] at h
    rw [Option.some.inj h]
    exact .pure _ s
  | none =>
    rw [hjob] at h
    obtain ⟨hindexed, hstatus⟩ := Option.filter_eq_some_iff.mp h
    obtain ⟨existingJobId, hindex, hexisting⟩ := Option.bind_eq_some_iff.mp hindexed
    refine .bind (queue_spec s) ?_
    unfold VideoDetectRequest.triple at hindex
    rw [hindex]
    refine .bind (jobAt_spec hexisting) ?_
    rw [if_pos ((answered_iff job.status).mpr (of_decide_eq_true hstatus))]
    exact .pure _ s

def storedNew (s : Memory) (job : VideoJob) : Memory :=
  { s with queue := (s.queue.addNew job).append job, ticks := s.ticks + 1 }

/-- The index never points at a job that is not there, so no `KeyError` is raised. -/
theorem memory_new (hwf : s.queue.Wf) (h : s.queue.existing? request = none) :
    Returns (InMemory.enqueueVideoJob surroundings request) s
      ⟨request.job (surroundings.clock s.ticks), true⟩
      (storedNew s (request.job (surroundings.clock s.ticks))) := by
  have hstore : Returns (InMemory.storeNewJob surroundings request) s
      ⟨request.job (surroundings.clock s.ticks), true⟩
      (storedNew s (request.job (surroundings.clock s.ticks))) := rfl
  have hnone := InMemoryVideoQueueRepository.job?_of_existing?_none h
  unfold InMemoryVideoQueueRepository.existing? at h
  rw [hnone] at h
  unfold InMemory.enqueueVideoJob
  refine .bind (queue_spec s) ?_
  rw [hnone]
  refine .bind (queue_spec s) ?_
  cases hindex : s.queue.uniqueIndex request.triple with
  | none =>
    unfold VideoDetectRequest.triple at hindex
    rw [hindex]
    exact hstore
  | some existingJobId =>
    obtain ⟨existing, hjob, -⟩ := hwf.index _ _ hindex
    rw [hindex, Option.bind_some, hjob, Option.filter_some] at h
    unfold VideoDetectRequest.triple at hindex
    rw [hindex]
    refine .bind (jobAt_spec hjob) ?_
    rw [if_neg]
    · exact hstore
    · rw [answered_iff]
      intro hstatus
      rw [if_pos (by simpa using hstatus)] at h
      cases h

theorem memory_perform (hwf : s.queue.Wf) (operation : Operation) : ∃ response s',
    Returns (perform (InMemory.repository surroundings) operation) s response s' ∧
      s.queue.Does operation response s'.queue := by
  cases operation with
  | enqueueVideoJob request =>
    cases hexisting : s.queue.existing? request with
    | some job =>
      exact ⟨_, s, .bind (memory_existing surroundings hexisting) (.pure _ s), .existing hexisting⟩
    | none =>
      have hreturns := memory_new surroundings hwf hexisting
      exact ⟨_, storedNew s _, .bind hreturns (.pure _ _), .new hexisting⟩
  | updateStatus jobId status code message =>
    cases hjob : s.queue.job? jobId with
    | none =>
      have hreturns : Returns (InMemory.updateStatus surroundings jobId status code message) s none s := by
        refine .bind (queue_spec s) ?_
        rw [hjob]
        exact .pure _ s
      exact ⟨_, s, .bind hreturns (.pure _ s), .unknown hjob⟩
    | some job =>
      have hreturns := updateStatus_spec surroundings {} hjob status code message
      exact ⟨_, written s _, .bind hreturns (.pure _ _), .updated hjob⟩
  | getJobById jobId =>
    exact ⟨_, s, .bind (.bind (queue_spec s) (.pure _ s)) (.pure _ s), .byId⟩
  | getJobByVideoId videoId =>
    exact ⟨_, s, .bind (.bind (queue_spec s) (.pure _ s)) (.pure _ s), .byVideoId⟩

theorem memory_performAll (hwf : s.queue.Wf) (operations : List Operation) : ∃ responses s',
    Returns (performAll (InMemory.repository surroundings) operations) s responses s' ∧
      Responds InMemoryVideoQueueRepository.Does s.queue operations responses s'.queue := by
  induction operations generalizing s with
  | nil => exact ⟨[], s, .pure [] s, .nil⟩
  | cons operation operations ih =>
    obtain ⟨response, t, hreturns, hdoes⟩ := memory_perform surroundings hwf operation
    obtain ⟨responses, s', hrest, hresponds⟩ := ih (hdoes.wf hwf)
    exact ⟨response :: responses, s', .bind hreturns (.bind hrest (.pure _ s')), .cons hdoes hresponds⟩

end

end Repositories

/-! ## The queue over Kvrocks -/

namespace Kvrocks

/-- The job that a request is answered with, if it is not stored as a new one. -/
def existing? (kv : Kvrocks Caller) (request : VideoDetectRequest) : Option VideoJob :=
  match kv.hashes (jobKey request.jobId) with
  | some job => some job
  | none =>
    (kv.strings (uniqueKeyOf request.triple)).bind fun jobId =>
      if jobId = "" then none else kv.hashes (jobKey jobId)

def indexed? (kv : Kvrocks Caller) (videoId : String) : Option VideoJob :=
  (kv.strings (videoIdKey videoId)).bind fun jobId =>
    if jobId = "" then none else kv.hashes (jobKey jobId)

/-- What stores a new job, in a transaction or one after the other. -/
def newJobCommands (job : VideoJob) : List Command :=
  [.hset (jobKey job.jobId) job, .set (uniqueKeyOf job.triple) job.jobId,
    .set (videoIdKey job.videoId) job.jobId, .xadd job.jobId job]

inductive Does (kv : Kvrocks Caller) : Operation → Response → Kvrocks Caller → Prop
  | existing {request : VideoDetectRequest} {job : VideoJob} (h : kv.existing? request = some job) :
      Does kv (.enqueueVideoJob request) (.enqueued ⟨job, false⟩)
        (kv.apply (.setNx (videoIdKey job.videoId) job.jobId))
  | new {request : VideoDetectRequest} {now : Time} (h : kv.existing? request = none) :
      Does kv (.enqueueVideoJob request) (.enqueued ⟨request.job now, true⟩)
        (kv.applyAll (newJobCommands (request.job now)))
  | unknown {jobId : String} {status : VideoJobStatus} {code message : Option String}
      (h : kv.hashes (jobKey jobId) = none) :
      Does kv (.updateStatus jobId status code message) (.updated none) kv
  | updated {jobId : String} {status : VideoJobStatus} {code message : Option String} {job : VideoJob}
      {now : Time} (h : kv.hashes (jobKey jobId) = some job) :
      Does kv (.updateStatus jobId status code message)
        (.updated (some (job.withStatus status code message now)))
        (kv.apply (.hset (jobKey jobId) (job.withStatus status code message now)))
  | byId {jobId : String} : Does kv (.getJobById jobId) (.found (kv.hashes (jobKey jobId))) kv
  | byVideoId {videoId : String} :
      Does kv (.getJobByVideoId videoId) (.found (kv.indexed? videoId)) kv

/-- A job lies under its own id, and the index of its work points at it. -/
structure Wf (kv : Kvrocks Caller) : Prop where
  hashes : ∀ key job, kv.hashes key = some job → key = jobKey job.jobId ∧ job.jobId ≠ "" ∧
    kv.strings (uniqueKeyOf job.triple) = some job.jobId
  unique : ∀ work jobId, kv.strings (uniqueKeyOf work) = some jobId →
    ∃ job, kv.hashes (jobKey jobId) = some job ∧ uniqueKeyOf job.triple = uniqueKeyOf work

theorem wf_empty : Wf {} := ⟨fun _ _ h => (by cases h), fun _ _ h => (by cases h)⟩

variable {kv kv' : Kvrocks Caller} {job : VideoJob}

theorem strings_setNx (kv : Kvrocks Caller) (key value : String) :
    (kv.apply (.setNx key value)).strings =
      if kv.strings key = none then Function.update kv.strings key (some value) else kv.strings := by
  simp only [apply]
  split <;> rfl

theorem hashes_setNx (kv : Kvrocks Caller) (key value : String) :
    (kv.apply (.setNx key value)).hashes = kv.hashes := by
  simp only [apply]
  split <;> rfl

theorem hashes_newJob (kv : Kvrocks Caller) (job : VideoJob) :
    (kv.applyAll (newJobCommands job)).hashes =
      Function.update kv.hashes (jobKey job.jobId) (some job.stored) := rfl

theorem strings_newJob (kv : Kvrocks Caller) (job : VideoJob) :
    (kv.applyAll (newJobCommands job)).strings =
      Function.update (Function.update kv.strings (uniqueKeyOf job.triple) (some job.jobId))
        (videoIdKey job.videoId) (some job.jobId) := rfl

theorem strings_newJob_unique (kv : Kvrocks Caller) (job : VideoJob) (work : String × String × String) :
    (kv.applyAll (newJobCommands job)).strings (uniqueKeyOf work) =
      if uniqueKeyOf work = uniqueKeyOf job.triple then some job.jobId
      else kv.strings (uniqueKeyOf work) := by
  rw [strings_newJob, Function.update_of_ne (uniqueKeyOf_ne_videoIdKey _ _), Function.update_apply]

theorem existing?_none {request : VideoDetectRequest} (h : kv.Wf) (hnone : kv.existing? request = none) :
    kv.hashes (jobKey request.jobId) = none ∧ kv.strings (uniqueKeyOf request.triple) = none := by
  unfold existing? at hnone
  split at hnone
  · cases hnone
  · next hhash =>
    refine ⟨hhash, ?_⟩
    cases hindex : kv.strings (uniqueKeyOf request.triple) with
    | none => rfl
    | some jobId =>
      obtain ⟨job, hjob, -⟩ := h.unique _ _ hindex
      obtain ⟨hkey, hid, -⟩ := h.hashes _ _ hjob
      rw [← jobKey_injective hkey] at hid
      rw [hindex, Option.bind_some, if_neg hid, hjob] at hnone
      cases hnone

theorem wf_setNx (h : kv.Wf) (videoId value : String) : (kv.apply (.setNx (videoIdKey videoId) value)).Wf := by
  have hstrings : ∀ work, (kv.apply (.setNx (videoIdKey videoId) value)).strings (uniqueKeyOf work) =
      kv.strings (uniqueKeyOf work) := by
    intro work
    rw [strings_setNx]
    split
    · rw [Function.update_of_ne (uniqueKeyOf_ne_videoIdKey _ _)]
    · rfl
  constructor
  · intro key job hjob
    rw [hashes_setNx] at hjob
    rw [hstrings]
    exact h.hashes key job hjob
  · intro work jobId hindex
    rw [hstrings] at hindex
    rw [hashes_setNx]
    exact h.unique work jobId hindex

theorem wf_newJob (h : kv.Wf) (hid : job.jobId ≠ "") (hhash : kv.hashes (jobKey job.jobId) = none)
    (hindex : kv.strings (uniqueKeyOf job.triple) = none) : (kv.applyAll (newJobCommands job)).Wf := by
  constructor
  · intro key found hfound
    rw [hashes_newJob] at hfound
    rw [strings_newJob_unique]
    by_cases hkey : key = jobKey job.jobId
    · subst hkey
      rw [Function.update_self, Option.some.injEq] at hfound
      subst hfound
      exact ⟨rfl, hid, if_pos rfl⟩
    · rw [Function.update_of_ne hkey] at hfound
      obtain ⟨hown, hne, hstring⟩ := h.hashes key found hfound
      refine ⟨hown, hne, ?_⟩
      rw [if_neg, hstring]
      intro heq
      rw [heq, hindex] at hstring
      cases hstring
  · intro work jobId hwork
    rw [strings_newJob_unique] at hwork
    rw [hashes_newJob]
    split at hwork
    · next heq =>
      rw [Option.some.injEq] at hwork
      exact ⟨job.stored, by rw [← hwork, Function.update_self], heq.symm⟩
    · obtain ⟨found, hfound, htriple⟩ := h.unique work jobId hwork
      refine ⟨found, ?_, htriple⟩
      rw [Function.update_of_ne, hfound]
      intro hkey
      rw [hkey, hhash] at hfound
      cases hfound

theorem wf_hset {other : VideoJob} (h : kv.Wf) (hother : kv.hashes (jobKey job.jobId) = some other)
    (htriple : job.triple = other.triple) : (kv.apply (.hset (jobKey job.jobId) job)).Wf := by
  obtain ⟨hkey, hid, hstring⟩ := h.hashes _ _ hother
  rw [← jobKey_injective hkey] at hid hstring
  constructor
  · intro key found hfound
    simp only [apply] at hfound ⊢
    by_cases hk : key = jobKey job.jobId
    · subst hk
      rw [Function.update_self, Option.some.injEq] at hfound
      subst hfound
      refine ⟨rfl, hid, ?_⟩
      change kv.strings (uniqueKeyOf job.triple) = some job.jobId
      rw [htriple, hstring]
    · rw [Function.update_of_ne hk] at hfound
      exact h.hashes key found hfound
  · intro work jobId hwork
    simp only [apply] at hwork ⊢
    obtain ⟨found, hfound, heq⟩ := h.unique work jobId hwork
    by_cases hk : jobKey jobId = jobKey job.jobId
    · rw [hk, hother, Option.some.injEq] at hfound
      refine ⟨job.stored, by rw [hk, Function.update_self], ?_⟩
      change uniqueKeyOf job.triple = _
      rw [htriple, hfound, heq]
    · exact ⟨found, by rw [Function.update_of_ne hk, hfound], heq⟩

theorem Does.wf {operation : Operation} {response : Response} (hdoes : kv.Does operation response kv')
    (h : kv.Wf) : kv'.Wf := by
  cases hdoes with
  | existing => exact wf_setNx h _ _
  | @new request now hnone =>
    obtain ⟨hhash, hindex⟩ := existing?_none h hnone
    exact wf_newJob h request.jobId_ne hhash hindex
  | @updated jobId status code message job now hjob =>
    have hid : jobId = job.jobId := jobKey_injective (h.hashes _ _ hjob).1
    subst hid
    have hother : kv.hashes (jobKey (job.withStatus status code message now).jobId) = some job := hjob
    exact wf_hset h hother rfl
  | unknown | byId | byVideoId => exact h

end Kvrocks

namespace Repositories

variable {settings : Settings} {i : Caller} {s s' : World}

theorem runs_getJobById {jobId : String} {r : Except PyException (Option VideoJob)} :
    Runs (Answers i) (RedisQueue.getJobById jobId) s r s' ↔
      r = .ok (s.kv.hashes (jobKey jobId)) ∧ s' = s := by
  unfold RedisQueue.getJobById
  simp only [runs_perform, Answers]
  constructor
  · rintro ⟨job, ⟨rfl, rfl⟩, rfl⟩
    exact ⟨rfl, rfl⟩
  · rintro ⟨rfl, rfl⟩
    exact ⟨_, ⟨rfl, rfl⟩, rfl⟩

theorem runs_getJobById_bind {α : Type} {jobId : String} {f : Option VideoJob → Code α}
    {r : Except PyException α} :
    Runs (Answers i) (RedisQueue.getJobById jobId >>= f) s r s' ↔
      Runs (Answers i) (f (s.kv.hashes (jobKey jobId))) s r s' := by
  simp [runs_bind, runs_getJobById, and_assoc]

theorem runs_get_bind {α : Type} {key : String} {f : Option String → Code α} {r : Except PyException α} :
    Runs (Answers i) (await (.get key) >>= f) s r s' ↔ Runs (Answers i) (f (s.kv.strings key)) s r s' := by
  simp [Answers, and_assoc]

theorem runs_getJobByVideoId {videoId : String} {r : Except PyException (Option VideoJob)} :
    Runs (Answers i) (RedisQueue.getJobByVideoId videoId) s r s' ↔
      r = .ok (s.kv.indexed? videoId) ∧ s' = s := by
  unfold RedisQueue.getJobByVideoId Kvrocks.indexed?
  simp only [runs_perform_bind, Answers]
  cases hindex : s.kv.strings (videoIdKey videoId) with
  | none => simp
  | some jobId =>
    by_cases hempty : jobId = ""
    · simp [hempty]
    · simp [hempty, runs_getJobById]

theorem runs_updateStatus {jobId : String} {status : VideoJobStatus} {code message : Option String}
    {r : Except PyException (Option VideoJob)} :
    Runs (Answers i) (RedisQueue.updateStatus jobId status code message) s r s' ↔
      (s.kv.hashes (jobKey jobId) = none ∧ r = .ok none ∧ s' = s) ∨
      ∃ job now, s.kv.hashes (jobKey jobId) = some job ∧
        r = .ok (some (job.withStatus status code message now)) ∧
        s' = { s with kv := s.kv.apply (.hset (jobKey jobId) (job.withStatus status code message now)) } := by
  unfold RedisQueue.updateStatus
  rw [runs_getJobById_bind]
  cases hjob : s.kv.hashes (jobKey jobId) with
  | none => simp
  | some job => simp [Answers, Kvrocks.applyAll]

theorem runs_alreadyThere {job : VideoJob} {r : Except PyException EnqueueResult} :
    Runs (Answers i) (RedisQueue.alreadyThere job) s r s' ↔
      r = .ok ⟨job, false⟩ ∧
        s' = { s with kv := s.kv.apply (.setNx (videoIdKey job.videoId) job.jobId) } := by
  unfold RedisQueue.alreadyThere
  simp [Answers, Kvrocks.applyAll]

/-- Both modes write the same. -/
theorem runs_storeNewJob {request : VideoDetectRequest} {r : Except PyException EnqueueResult} :
    Runs (Answers i) (RedisQueue.storeNewJob settings request) s r s' ↔
      ∃ now, r = .ok ⟨request.job now, true⟩ ∧
        s' = { s with kv := s.kv.applyAll (Kvrocks.newJobCommands (request.job now)) } := by
  unfold RedisQueue.storeNewJob
  rw [runs_perform_bind]
  simp only [Answers]
  constructor
  · rintro ⟨now, t, rfl, hrest⟩
    refine ⟨now, ?_⟩
    split at hrest
    · simp only [runs_perform_bind, Answers, runs_pure] at hrest
      obtain ⟨_, _, rfl, _, _, rfl, _, _, rfl, _, _, rfl, rfl, rfl⟩ := hrest
      exact ⟨rfl, rfl⟩
    · simp only [runs_perform_bind, Answers, runs_pure] at hrest
      obtain ⟨_, _, rfl, rfl, rfl⟩ := hrest
      exact ⟨rfl, rfl⟩
  · rintro ⟨now, rfl, rfl⟩
    refine ⟨now, s, rfl, ?_⟩
    split
    · simp only [runs_perform_bind, Answers, runs_pure]
      exact ⟨(), _, rfl, (), _, rfl, (), _, rfl, (), _, rfl, trivial, rfl⟩
    · simp only [runs_perform_bind, Answers, runs_pure]
      exact ⟨(), _, rfl, trivial, rfl⟩

theorem runs_enqueueVideoJob {request : VideoDetectRequest} {r : Except PyException EnqueueResult} :
    Runs (Answers i) (RedisQueue.enqueueVideoJob settings request) s r s' ↔
      (∃ job, s.kv.existing? request = some job ∧ r = .ok ⟨job, false⟩ ∧
        s' = { s with kv := s.kv.apply (.setNx (videoIdKey job.videoId) job.jobId) }) ∨
      ∃ now, s.kv.existing? request = none ∧ r = .ok ⟨request.job now, true⟩ ∧
        s' = { s with kv := s.kv.applyAll (Kvrocks.newJobCommands (request.job now)) } := by
  unfold RedisQueue.enqueueVideoJob Kvrocks.existing?
  rw [← RedisQueue.getJobById, runs_getJobById_bind]
  cases hhash : s.kv.hashes (jobKey request.jobId) with
  | some job => simp [runs_alreadyThere]
  | none =>
    have hkey : uniqueKey request.videoId request.sourceObjectVersion request.policyVersion =
        uniqueKeyOf request.triple := rfl
    dsimp only
    rw [runs_get_bind, hkey]
    cases hindex : s.kv.strings (uniqueKeyOf request.triple) with
    | none => simp [truthy, runs_storeNewJob]
    | some jobId =>
      by_cases hempty : jobId = ""
      · simp [hempty, truthy, runs_storeNewJob]
      · cases hjob : s.kv.hashes (jobKey jobId) with
        | none => simp [hempty, hjob, truthy, orEmpty, runs_getJobById_bind, runs_storeNewJob]
        | some job => simp [hempty, hjob, truthy, orEmpty, runs_getJobById_bind, runs_alreadyThere]

theorem runs_perform_repository {operation : Operation} {r : Except PyException Response} :
    Runs (Answers i) (Repositories.perform (RedisQueue.repository settings) operation) s r s' ↔
      ∃ response kv', r = .ok response ∧ s' = { s with kv := kv' } ∧ s.kv.Does operation response kv' := by
  constructor
  · intro h
    cases operation with
    | enqueueVideoJob request =>
      obtain ⟨result, hrun, rfl⟩ := (runs_bind_pure (fun e t hrun => by
        simp [RedisQueue.repository, runs_enqueueVideoJob] at hrun)).mp h
      rcases runs_enqueueVideoJob.mp hrun with ⟨job, hsome, heq, rfl⟩ | ⟨now, hnone, heq, rfl⟩
      · obtain rfl := Except.ok.inj heq
        exact ⟨_, _, rfl, rfl, .existing hsome⟩
      · obtain rfl := Except.ok.inj heq
        exact ⟨_, _, rfl, rfl, .new hnone⟩
    | updateStatus jobId status code message =>
      obtain ⟨result, hrun, rfl⟩ := (runs_bind_pure (fun e t hrun => by
        simp [RedisQueue.repository, runs_updateStatus] at hrun)).mp h
      rcases runs_updateStatus.mp hrun with ⟨hnone, heq, rfl⟩ | ⟨job, now, hsome, heq, rfl⟩
      · obtain rfl := Except.ok.inj heq
        exact ⟨_, _, rfl, rfl, .unknown hnone⟩
      · obtain rfl := Except.ok.inj heq
        exact ⟨_, _, rfl, rfl, .updated hsome⟩
    | getJobById jobId =>
      obtain ⟨result, hrun, rfl⟩ := (runs_bind_pure (fun e t hrun => by
        simp [RedisQueue.repository, runs_getJobById] at hrun)).mp h
      obtain ⟨heq, rfl⟩ := runs_getJobById.mp hrun
      obtain rfl := Except.ok.inj heq
      exact ⟨_, _, rfl, rfl, .byId⟩
    | getJobByVideoId videoId =>
      obtain ⟨result, hrun, rfl⟩ := (runs_bind_pure (fun e t hrun => by
        simp [RedisQueue.repository, runs_getJobByVideoId] at hrun)).mp h
      obtain ⟨heq, rfl⟩ := runs_getJobByVideoId.mp hrun
      obtain rfl := Except.ok.inj heq
      exact ⟨_, _, rfl, rfl, .byVideoId⟩
  · rintro ⟨response, kv', rfl, rfl, hdoes⟩
    cases hdoes with
    | existing hsome =>
      exact runs_bind.mpr (.inl ⟨_, _, runs_enqueueVideoJob.mpr (.inl ⟨_, hsome, rfl, rfl⟩), .done⟩)
    | new hnone =>
      exact runs_bind.mpr (.inl ⟨_, _, runs_enqueueVideoJob.mpr (.inr ⟨_, hnone, rfl, rfl⟩), .done⟩)
    | unknown hnone =>
      exact runs_bind.mpr (.inl ⟨_, _, runs_updateStatus.mpr (.inl ⟨hnone, rfl, rfl⟩), .done⟩)
    | updated hsome =>
      exact runs_bind.mpr (.inl ⟨_, _, runs_updateStatus.mpr (.inr ⟨_, _, hsome, rfl, rfl⟩), .done⟩)
    | byId => exact runs_bind.mpr (.inl ⟨_, _, runs_getJobById.mpr ⟨rfl, rfl⟩, .done⟩)
    | byVideoId => exact runs_bind.mpr (.inl ⟨_, _, runs_getJobByVideoId.mpr ⟨rfl, rfl⟩, .done⟩)

theorem runs_performAll {operations : List Operation} {r : Except PyException (List Response)} :
    Runs (Answers i) (performAll (RedisQueue.repository settings) operations) s r s' ↔
      ∃ responses kv', r = .ok responses ∧ s' = { s with kv := kv' } ∧
        Responds Kvrocks.Does s.kv operations responses kv' := by
  induction operations generalizing s r s' with
  | nil =>
    constructor
    · intro h
      obtain ⟨rfl, rfl⟩ := runs_pure.mp h
      exact ⟨[], _, rfl, rfl, .nil⟩
    · rintro ⟨responses, kv', rfl, rfl, hresponds⟩
      cases hresponds
      exact .done
  | cons operation operations ih =>
    constructor
    · intro h
      obtain ⟨response, t, hrun, hrest⟩ := (runs_bind_ok (fun e t hrun => by
        simp [runs_perform_repository] at hrun)).mp h
      obtain ⟨_, kv₁, heq, rfl, hdoes⟩ := runs_perform_repository.mp hrun
      obtain rfl := Except.ok.inj heq
      obtain ⟨responses, hrun', rfl⟩ := (runs_bind_pure (fun e t hrun' => by simp [ih] at hrun')).mp hrest
      obtain ⟨_, kv₂, heq', rfl, hresponds⟩ := ih.mp hrun'
      obtain rfl := Except.ok.inj heq'
      exact ⟨_, kv₂, rfl, rfl, .cons hdoes hresponds⟩
    · rintro ⟨_, kv', rfl, rfl, hresponds⟩
      cases hresponds with
      | cons hdoes hrest =>
        refine runs_bind.mpr (.inl ⟨_, _, runs_perform_repository.mpr ⟨_, _, rfl, rfl, hdoes⟩, ?_⟩)
        exact runs_bind.mpr (.inl ⟨_, _, ih.mpr ⟨_, _, rfl, rfl, hrest⟩, .done⟩)

theorem exists_does (kv : Kvrocks Caller) (operation : Operation) :
    ∃ response kv', kv.Does operation response kv' := by
  cases operation with
  | enqueueVideoJob request =>
    cases hexisting : kv.existing? request with
    | some job => exact ⟨_, _, .existing hexisting⟩
    | none => exact ⟨_, _, @Kvrocks.Does.new _ _ 0 hexisting⟩
  | updateStatus jobId status code message =>
    cases hjob : kv.hashes (jobKey jobId) with
    | some job => exact ⟨_, _, @Kvrocks.Does.updated _ _ _ _ _ _ 0 hjob⟩
    | none => exact ⟨_, _, .unknown hjob⟩
  | getJobById => exact ⟨_, _, .byId⟩
  | getJobByVideoId => exact ⟨_, _, .byVideoId⟩

theorem exists_responds (kv : Kvrocks Caller) (operations : List Operation) :
    ∃ responses kv', Responds Kvrocks.Does kv operations responses kv' := by
  induction operations generalizing kv with
  | nil => exact ⟨[], kv, .nil⟩
  | cons operation operations ih =>
    obtain ⟨response, t, hdoes⟩ := exists_does kv operation
    obtain ⟨responses, kv', hrest⟩ := ih t
    exact ⟨_, kv', .cons hdoes hrest⟩

end Repositories

end NsfwDetector
