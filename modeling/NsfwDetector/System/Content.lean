import NsfwDetector.System.Equivalence

/-!
# Whose job a request is answered with

A request whose id is taken is answered with the job that has the id, whatever work that is. Any
other request is answered with a job for its own work, as the index says.
-/

namespace NsfwDetector

open Effects Prog Repositories Lockstep

/-! ## The queue in memory -/

/-- The id of the request is free, or belongs to a job for the same work. -/
def InMemoryVideoQueueRepository.OwnId (queue : InMemoryVideoQueueRepository)
    (request : VideoDetectRequest) : Prop :=
  ∀ job ∈ queue.job? request.jobId, job.triple = request.triple

def EnqueueResult.For (result : EnqueueResult) (request : VideoDetectRequest) : Prop :=
  result.job.triple = request.triple

/-- The id of the request is free, or belongs to a job for the same work. If it is free, the work of
the request does not share its index with other work. -/
structure Kvrocks.OwnId (kv : Kvrocks Caller) (request : VideoDetectRequest) : Prop where
  own : ∀ job ∈ kv.hashes (jobKey request.jobId), job.triple = request.triple
  index : kv.hashes (jobKey request.jobId) = none → ∀ key job, kv.hashes key = some job →
    uniqueKeyOf job.triple = uniqueKeyOf request.triple → job.triple = request.triple

namespace Content

variable {queue queue' : InMemoryVideoQueueRepository} {kv kv' : Kvrocks Caller}
  {request : VideoDetectRequest} {result : EnqueueResult}

theorem memory_for_iff (hwf : queue.Wf)
    (hdoes : queue.Does (.enqueueVideoJob request) (.enqueued result) queue') :
    result.For request ↔ queue.OwnId request := by
  unfold InMemoryVideoQueueRepository.OwnId EnqueueResult.For
  cases hdoes with
  | new hnone =>
    rw [InMemoryVideoQueueRepository.job?_of_existing?_none hnone]
    simp [VideoDetectRequest.job, VideoJob.triple, VideoDetectRequest.triple]
  | @existing _ job hexisting =>
    unfold InMemoryVideoQueueRepository.existing? at hexisting
    split at hexisting
    · next found hfound =>
      obtain rfl := Option.some.inj hexisting
      simp [hfound]
    · next hnone =>
      obtain ⟨hindexed, -⟩ := Option.filter_eq_some_iff.mp hexisting
      obtain ⟨jobId, hindex, hjob⟩ := Option.bind_eq_some_iff.mp hindexed
      obtain ⟨owner, howner, htriple⟩ := hwf.index _ _ hindex
      obtain rfl := Option.some.inj (hjob.symm.trans howner)
      simp [hnone, htriple]

theorem kvrocks_for_iff (hwf : kv.Wf)
    (hdoes : kv.Does (.enqueueVideoJob request) (.enqueued result) kv') :
    result.For request ↔ kv.OwnId request := by
  unfold EnqueueResult.For
  cases hdoes with
  | new hnone =>
    obtain ⟨hhash, hindex⟩ := Kvrocks.existing?_none hwf hnone
    refine iff_of_true rfl ⟨fun job hjob => ?_, fun _ key job hjob heq => ?_⟩
    · rw [hhash] at hjob
      cases hjob
    · have hown := (hwf.hashes key job hjob).2.2
      rw [heq, hindex] at hown
      cases hown
  | @existing _ job hexisting =>
    unfold Kvrocks.existing? at hexisting
    split at hexisting
    · next found hfound =>
      obtain rfl := Option.some.inj hexisting
      refine ⟨fun htriple => ⟨fun job hjob => ?_, fun hnone => ?_⟩, fun hown => hown.own _ hfound⟩
      · obtain rfl := Option.some.inj (hfound.symm.trans hjob)
        exact htriple
      · rw [hfound] at hnone
        cases hnone
    · next hnone =>
      obtain ⟨jobId, hindex, hjob⟩ := Option.bind_eq_some_iff.mp hexisting
      split at hjob
      · cases hjob
      · obtain ⟨owner, howner, hkey⟩ := hwf.unique _ _ hindex
        obtain rfl := Option.some.inj (hjob.symm.trans howner)
        refine ⟨fun htriple => ⟨fun found hfound => ?_, fun _ key found hfound heq => ?_⟩,
          fun hown => hown.index hnone _ _ hjob hkey⟩
        · rw [hnone] at hfound
          cases hfound
        · -- one index has one job
          obtain ⟨hfoundkey, -, hfoundindex⟩ := hwf.hashes key found hfound
          rw [heq, hindex, Option.some.injEq] at hfoundindex
          rw [hfoundkey, ← hfoundindex, hjob, Option.some.injEq] at hfound
          rw [← hfound, htriple]

/-! ## Reachable states -/

def MemoryReached (surroundings : Surroundings) (s : Memory) : Prop :=
  ∃ operations responses,
    Returns (performAll (InMemory.repository surroundings) operations) {} responses s

def KvrocksReached (settings : Settings) (i : Caller) (s : World) : Prop :=
  ∃ operations responses,
    Runs (Answers i) (performAll (RedisQueue.repository settings) operations) {} (.ok responses) s

theorem memory_wf {surroundings : Surroundings} {s : Memory} (h : MemoryReached surroundings s) :
    s.queue.Wf := by
  obtain ⟨operations, responses, hreturns⟩ := h
  obtain ⟨responses', s', hreturns', hresponds⟩ :=
    @memory_performAll surroundings {} InMemoryVideoQueueRepository.wf_empty operations
  obtain ⟨-, rfl⟩ := EStateM.Result.ok.inj (hreturns.symm.trans hreturns')
  exact hresponds.keeps (P := InMemoryVideoQueueRepository.Wf)
    InMemoryVideoQueueRepository.Does.wf InMemoryVideoQueueRepository.wf_empty

theorem kvrocks_wf {settings : Settings} {i : Caller} {s : World} (h : KvrocksReached settings i s) :
    s.kv.Wf := by
  obtain ⟨operations, responses, hruns⟩ := h
  obtain ⟨responses', kv', -, rfl, hresponds⟩ := runs_performAll.mp hruns
  exact hresponds.keeps (P := Kvrocks.Wf) Kvrocks.Does.wf Kvrocks.wf_empty

/-- A request is answered with a job for its own work exactly if its id is free or belongs to such a
job. Over Kvrocks no other work may have the same index. -/
theorem answered_for_own_work_iff (surroundings : Surroundings) (settings : Settings) (i : Caller)
    (request : VideoDetectRequest) :
    (∀ s, MemoryReached surroundings s → ∃ result s',
      Returns (InMemory.enqueueVideoJob surroundings request) s result s' ∧
        (result.For request ↔ s.queue.OwnId request)) ∧
    ∀ s, KvrocksReached settings i s →
      (∃ r s', Runs (Answers i) (RedisQueue.enqueueVideoJob settings request) s r s') ∧
      ∀ r s', Runs (Answers i) (RedisQueue.enqueueVideoJob settings request) s r s' →
        ∃ result, r = .ok result ∧ (result.For request ↔ s.kv.OwnId request) := by
  refine ⟨fun s hreached => ?_, fun s hreached => ⟨?_, fun r s' hrun => ?_⟩⟩
  · have hwf := memory_wf hreached
    cases hexisting : s.queue.existing? request with
    | some job =>
      refine ⟨_, _, memory_existing surroundings hexisting, ?_⟩
      exact memory_for_iff hwf (.existing hexisting)
    | none =>
      refine ⟨_, _, memory_new surroundings hwf hexisting, ?_⟩
      exact memory_for_iff hwf (.new hexisting)
  · cases hexisting : s.kv.existing? request with
    | some job => exact ⟨_, _, runs_enqueueVideoJob.mpr (.inl ⟨job, hexisting, rfl, rfl⟩)⟩
    | none => exact ⟨_, _, runs_enqueueVideoJob.mpr (.inr ⟨0, hexisting, rfl, rfl⟩)⟩
  · have hwf := kvrocks_wf hreached
    rcases runs_enqueueVideoJob.mp hrun with ⟨job, hexisting, rfl, -⟩ | ⟨now, hexisting, rfl, -⟩
    · exact ⟨_, rfl, kvrocks_for_iff hwf (.existing hexisting)⟩
    · exact ⟨_, rfl, kvrocks_for_iff hwf (.new hexisting)⟩

/-! ### The same video under another id, and another video under the same id -/

def otherId : VideoDetectRequest := { sampleRequest with jobId := "other-job", jobId_ne := otherJob_ne }

def otherVideo : VideoDetectRequest :=
  { sampleRequest with videoId := "other-video", videoId_ne := by decide }

def oneInMemory : Memory := storedNew {} (sampleRequest.job 0)

def oneInKvrocks : World := { kv := ({} : Kvrocks Caller).applyAll (Kvrocks.newJobCommands sampleJob) }

theorem oneInMemory_reached : MemoryReached counting oneInMemory := by
  have hnone : ({} : InMemoryVideoQueueRepository).existing? sampleRequest = none := rfl
  have hstore : Returns (InMemory.enqueueVideoJob counting sampleRequest) {} ⟨sampleJob, true⟩ oneInMemory :=
    memory_new counting InMemoryVideoQueueRepository.wf_empty hnone
  exact ⟨[.enqueueVideoJob sampleRequest], [.enqueued ⟨sampleJob, true⟩],
    .bind (.bind hstore (.pure _ _)) (.bind (.pure _ _) (.pure _ _))⟩

theorem oneInKvrocks_reached : KvrocksReached {} (.api 0) oneInKvrocks :=
  ⟨[.enqueueVideoJob sampleRequest], _,
    runs_performAll.mpr ⟨_, _, rfl, rfl, .cons (.new rfl) .nil⟩⟩

theorem hashes_oneInKvrocks {key : String} {job : VideoJob}
    (h : oneInKvrocks.kv.hashes key = some job) : job = sampleJob.stored := by
  have hhashes := Kvrocks.hashes_newJob ({} : Kvrocks Caller) sampleJob
  have hkey := congrFun hhashes key
  rw [Function.update_apply] at hkey
  rw [oneInKvrocks, hkey] at h
  split at h
  · exact (Option.some.inj h).symm
  · cases h

theorem own_work_answered :
    (∃ s, MemoryReached counting s ∧ ∃ result s',
      Returns (InMemory.enqueueVideoJob counting otherId) s result s' ∧ result.For otherId) ∧
    ∃ s, KvrocksReached {} (.api 0) s ∧ ∃ result s',
      Runs (Answers (.api 0)) (RedisQueue.enqueueVideoJob {} otherId) s (.ok result) s' ∧
        result.For otherId := by
  obtain ⟨hmemory, hkvrocks⟩ := answered_for_own_work_iff counting {} (.api 0) otherId
  constructor
  · obtain ⟨result, s', hreturns, hiff⟩ := hmemory _ oneInMemory_reached
    have hown : oneInMemory.queue.OwnId otherId := by
      unfold InMemoryVideoQueueRepository.OwnId
      decide
    exact ⟨_, oneInMemory_reached, result, s', hreturns, hiff.mpr hown⟩
  · obtain ⟨⟨r, s', hrun⟩, hall⟩ := hkvrocks _ oneInKvrocks_reached
    obtain ⟨result, rfl, hiff⟩ := hall r s' hrun
    have hown : oneInKvrocks.kv.OwnId otherId := by
      refine ⟨fun job hjob => ?_, fun _ key job hjob _ => ?_⟩
      · rw [hashes_oneInKvrocks hjob]
        rfl
      · rw [hashes_oneInKvrocks hjob]
        rfl
    exact ⟨_, oneInKvrocks_reached, result, s', hrun, hiff.mpr hown⟩

/-- Both queues answer with the job of the other video. -/
theorem other_video_answered :
    (∃ s, MemoryReached counting s ∧ ∃ result s',
      Returns (InMemory.enqueueVideoJob counting otherVideo) s result s' ∧ ¬ result.For otherVideo) ∧
    ∃ s, KvrocksReached {} (.api 0) s ∧ ∃ result s',
      Runs (Answers (.api 0)) (RedisQueue.enqueueVideoJob {} otherVideo) s (.ok result) s' ∧
        ¬ result.For otherVideo := by
  have hnot : sampleJob.triple ≠ otherVideo.triple := by decide
  constructor
  · have hexisting : oneInMemory.queue.existing? otherVideo = some sampleJob := by decide
    exact ⟨_, oneInMemory_reached, _, _, memory_existing counting hexisting, hnot⟩
  · have hexisting : oneInKvrocks.kv.existing? otherVideo = some sampleJob := by decide
    exact ⟨_, oneInKvrocks_reached, _, _,
      runs_enqueueVideoJob.mpr (.inl ⟨_, hexisting, rfl, rfl⟩), hnot⟩

end Content

end NsfwDetector
