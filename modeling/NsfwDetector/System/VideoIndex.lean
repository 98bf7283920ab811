import NsfwDetector.System.Content

/-!
# The index by video

A video's index entry is written when a job is stored. What comes later, a repeated request, an
update or a requeue, leaves it alone.
-/

namespace NsfwDetector

open Effects Prog Repositories

namespace VideoIndex

/-! ## Operations that have completed -/

/-- An operation of the queue repository, with what it answered. -/
inductive Completed
  | enqueued (request : VideoDetectRequest) (result : EnqueueResult)
  | updated (jobId : String) (status : VideoJobStatus) (lastErrorCode lastErrorMessage : Option String)
      (job : Option VideoJob)
  | requeued (jobId : String)

/-- The job that an operation has created. -/
def Completed.created? : Completed → Option VideoJob
  | .enqueued _ ⟨job, true⟩ => some job
  | _ => none

/-- What has completed, the last operation first, on a store that was empty. One operation follows
the other and none fails. -/
inductive History : List Completed → World → Prop
  | start {s : World} (hempty : s.kv = {}) : History [] s
  | enqueueVideoJob {past : List Completed} {s s' : World} {settings : Settings} {i : Caller}
      {request : VideoDetectRequest} {result : EnqueueResult} (hpast : History past s)
      (hrun : Runs (Answers i) (RedisQueue.enqueueVideoJob settings request) s (.ok result) s') :
      History (.enqueued request result :: past) s'
  | updateStatus {past : List Completed} {s s' : World} {i : Caller} {jobId : String}
      {status : VideoJobStatus} {code message : Option String} {job : Option VideoJob}
      (hpast : History past s)
      (hrun : Runs (Answers i) (RedisQueue.updateStatus jobId status code message) s (.ok job) s') :
      History (.updated jobId status code message job :: past) s'
  | requeueVideoJob {past : List Completed} {s s' : World} {i : Caller} {jobId : String}
      (hpast : History past s)
      (hrun : Runs (Answers i) (RedisQueue.requeueVideoJob jobId) s (.ok ()) s') :
      History (.requeued jobId :: past) s'

/-- The jobs that were created, the newest first. -/
def created (past : List Completed) : List VideoJob := past.filterMap Completed.created?

def newest (videoId : String) (past : List Completed) : Option VideoJob :=
  (created past).find? (·.videoId = videoId)

section

variable {videoId : String} {past : List Completed} {job : VideoJob}

theorem newest_some (h : newest videoId past = some job) : job ∈ created past ∧ job.videoId = videoId :=
  ⟨List.mem_of_find?_eq_some h, by simpa using List.find?_some h⟩

theorem newest_ne_none : newest videoId past ≠ none ↔ ∃ job ∈ created past, job.videoId = videoId := by
  simp [newest]

theorem newest_new (videoId : String) (request : VideoDetectRequest) (job : VideoJob)
    (past : List Completed) : newest videoId (.enqueued request ⟨job, true⟩ :: past) =
      if job.videoId = videoId then some job else newest videoId past := by
  have hcreated : created (.enqueued request ⟨job, true⟩ :: past) = job :: created past := rfl
  unfold newest
  rw [hcreated, List.find?_cons]
  by_cases hvideo : job.videoId = videoId <;> simp [hvideo]

end

/-! ## What an operation does to the store -/

inductive Did (kv : Kvrocks Caller) : Completed → Kvrocks Caller → Prop
  | existing {request : VideoDetectRequest} {job : VideoJob} (h : kv.existing? request = some job) :
      Did kv (.enqueued request ⟨job, false⟩) (kv.apply (.setNx (videoIdKey job.videoId) job.jobId))
  | new {request : VideoDetectRequest} {now : Time} (h : kv.existing? request = none) :
      Did kv (.enqueued request ⟨request.job now, true⟩)
        (kv.applyAll (Kvrocks.newJobCommands (request.job now)))
  | unknown {jobId : String} {status : VideoJobStatus} {code message : Option String}
      (h : kv.hashes (jobKey jobId) = none) : Did kv (.updated jobId status code message none) kv
  | updated {jobId : String} {status : VideoJobStatus} {code message : Option String} {job : VideoJob}
      {now : Time} (h : kv.hashes (jobKey jobId) = some job) :
      Did kv (.updated jobId status code message (some (job.withStatus status code message now)))
        (kv.apply (.hset (jobKey jobId) (job.withStatus status code message now)))
  | nothing {jobId : String} (h : kv.hashes (jobKey jobId) = none) : Did kv (.requeued jobId) kv
  | requeued {jobId : String} {job : VideoJob} (h : kv.hashes (jobKey jobId) = some job) :
      Did kv (.requeued jobId) (kv.apply (.xadd job.jobId job))

theorem runs_requeueVideoJob {i : Caller} {s s' : World} {jobId : String} {r : Except PyException Unit} :
    Runs (Answers i) (RedisQueue.requeueVideoJob jobId) s r s' ↔
      r = .ok () ∧ ((s.kv.hashes (jobKey jobId) = none ∧ s' = s) ∨
        ∃ job, s.kv.hashes (jobKey jobId) = some job ∧
          s' = { s with kv := s.kv.apply (.xadd job.jobId job) }) := by
  unfold RedisQueue.requeueVideoJob
  rw [runs_getJobById_bind]
  cases hjob : s.kv.hashes (jobKey jobId) with
  | none => simp
  | some job =>
    simp only [runs_perform, Answers, Kvrocks.applyAll, List.foldl_cons, List.foldl_nil]
    constructor
    · rintro ⟨_, rfl, rfl⟩
      exact ⟨rfl, .inr ⟨job, rfl, rfl⟩⟩
    · rintro ⟨rfl, ⟨hnone, -⟩ | ⟨_, hsome, rfl⟩⟩
      · cases hnone
      · obtain rfl := Option.some.inj hsome
        exact ⟨(), rfl, rfl⟩

/-- What holds of the empty store, and is kept by every operation, holds after every history. -/
theorem History.keeps {P : List Completed → Kvrocks Caller → Prop} (hempty : P [] {})
    (hkeeps : ∀ {past kv operation kv'}, Did kv operation kv' → P past kv → P (operation :: past) kv')
    {past : List Completed} {s : World} (h : History past s) : P past s.kv := by
  induction h with
  | start hstart => exact hstart ▸ hempty
  | enqueueVideoJob _ hrun ih =>
    rcases runs_enqueueVideoJob.mp hrun with ⟨job, hsome, heq, rfl⟩ | ⟨now, hnone, heq, rfl⟩
    · obtain rfl := Except.ok.inj heq
      exact hkeeps (.existing hsome) ih
    · obtain rfl := Except.ok.inj heq
      exact hkeeps (.new hnone) ih
  | updateStatus _ hrun ih =>
    rcases runs_updateStatus.mp hrun with ⟨hnone, heq, rfl⟩ | ⟨job, now, hsome, heq, rfl⟩
    · obtain rfl := Except.ok.inj heq
      exact hkeeps (.unknown hnone) ih
    · obtain rfl := Except.ok.inj heq
      exact hkeeps (.updated hsome) ih
  | requeueVideoJob _ hrun ih =>
    obtain ⟨-, ⟨hnone, rfl⟩ | ⟨job, hsome, rfl⟩⟩ := runs_requeueVideoJob.mp hrun
    · exact hkeeps (.nothing hnone) ih
    · exact hkeeps (.requeued hsome) ih

/-! ## The invariant -/

structure Indexed (past : List Completed) (kv : Kvrocks Caller) : Prop where
  wf : kv.Wf
  entry : ∀ videoId, kv.strings (videoIdKey videoId) = (newest videoId past).map (·.jobId)
  owner : ∀ job ∈ created past, ∃ found, kv.hashes (jobKey job.jobId) = some found ∧
    found.triple = job.triple
  known : ∀ key job, kv.hashes key = some job → ∃ first ∈ created past, first.triple = job.triple

variable {past : List Completed} {kv kv' : Kvrocks Caller} {operation : Completed}

theorem indexed_empty : Indexed [] {} where
  wf := Kvrocks.wf_empty
  entry _ := rfl
  owner _ hmem := absurd hmem List.not_mem_nil
  known _ _ hjob := by cases hjob

theorem videoId_of_triple {job other : VideoJob} (h : job.triple = other.triple) :
    job.videoId = other.videoId := congrArg Prod.fst h

theorem hashes_of_existing? {request : VideoDetectRequest} {job : VideoJob}
    (h : kv.existing? request = some job) : ∃ key, kv.hashes key = some job := by
  unfold Kvrocks.existing? at h
  split at h
  · next found hfound => exact ⟨_, hfound.trans h⟩
  · obtain ⟨jobId, -, hjob⟩ := Option.bind_eq_some_iff.mp h
    split at hjob
    · cases hjob
    · exact ⟨_, hjob⟩

/-- A job that is there has its video indexed already. -/
theorem setNx_existing (h : Indexed past kv) {key : String} {job : VideoJob}
    (hjob : kv.hashes key = some job) (jobId : String) :
    kv.apply (.setNx (videoIdKey job.videoId) jobId) = kv := by
  obtain ⟨first, hfirst, htriple⟩ := h.known key job hjob
  have hnewest : newest job.videoId past ≠ none :=
    newest_ne_none.mpr ⟨first, hfirst, videoId_of_triple htriple⟩
  have hentry : kv.strings (videoIdKey job.videoId) ≠ none := by
    rw [h.entry]
    simpa using hnewest
  simp only [Kvrocks.apply, if_neg hentry]

theorem indexed_new (h : Indexed past kv) {request : VideoDetectRequest} {now : Time}
    (hnone : kv.existing? request = none) :
    Indexed (.enqueued request ⟨request.job now, true⟩ :: past)
      (kv.applyAll (Kvrocks.newJobCommands (request.job now))) := by
  obtain ⟨hhash, hindex⟩ := Kvrocks.existing?_none h.wf hnone
  constructor
  · exact Kvrocks.wf_newJob h.wf request.jobId_ne hhash hindex
  · intro videoId
    rw [Kvrocks.strings_newJob, newest_new]
    by_cases hvideo : (request.job now).videoId = videoId
    · rw [hvideo, Function.update_self, if_pos rfl, Option.map_some]
    · rw [if_neg hvideo, Function.update_of_ne (fun heq => hvideo (videoIdKey_injective heq).symm),
        Function.update_of_ne (uniqueKeyOf_ne_videoIdKey _ _).symm, h.entry]
  · intro job hmem
    rw [Kvrocks.hashes_newJob]
    rcases List.mem_cons.mp hmem with rfl | hmem
    · exact ⟨_, Function.update_self .., rfl⟩
    · obtain ⟨found, hfound, htriple⟩ := h.owner job hmem
      refine ⟨found, ?_, htriple⟩
      rw [Function.update_of_ne, hfound]
      intro hkey
      rw [hkey] at hfound
      cases hfound.symm.trans hhash
  · intro key job hjob
    rw [Kvrocks.hashes_newJob, Function.update_apply] at hjob
    split at hjob
    · obtain rfl := Option.some.inj hjob
      exact ⟨_, List.mem_cons_self, rfl⟩
    · obtain ⟨first, hfirst, htriple⟩ := h.known key job hjob
      exact ⟨first, List.mem_cons_of_mem _ hfirst, htriple⟩

theorem indexed_updated (h : Indexed past kv) {job other : VideoJob}
    (hother : kv.hashes (jobKey job.jobId) = some other) (htriple : job.triple = other.triple) :
    Indexed past (kv.apply (.hset (jobKey job.jobId) job)) where
  wf := Kvrocks.wf_hset h.wf hother htriple
  entry := h.entry
  owner := by
    intro first hfirst
    obtain ⟨found, hfound, heq⟩ := h.owner first hfirst
    simp only [Kvrocks.apply, Function.update_apply]
    split
    · next hkey =>
      rw [hkey, hother, Option.some.injEq] at hfound
      exact ⟨_, rfl, htriple.trans (hfound ▸ heq)⟩
    · exact ⟨found, hfound, heq⟩
  known := by
    intro key found hfound
    simp only [Kvrocks.apply, Function.update_apply] at hfound
    split at hfound
    · obtain rfl := Option.some.inj hfound
      obtain ⟨first, hfirst, heq⟩ := h.known _ _ hother
      exact ⟨first, hfirst, heq.trans htriple.symm⟩
    · exact h.known key found hfound

theorem indexed_did (hdid : Did kv operation kv') (h : Indexed past kv) :
    Indexed (operation :: past) kv' := by
  cases hdid with
  | existing hexisting =>
    obtain ⟨key, hjob⟩ := hashes_of_existing? hexisting
    rw [setNx_existing h hjob]
    exact ⟨h.wf, h.entry, h.owner, h.known⟩
  | new hnone => exact indexed_new h hnone
  | unknown | nothing => exact ⟨h.wf, h.entry, h.owner, h.known⟩
  | @updated jobId status code message job now hjob =>
    have hid : jobId = job.jobId := jobKey_injective (h.wf.hashes _ _ hjob).1
    subst hid
    have hother : kv.hashes (jobKey (job.withStatus status code message now).jobId) = some job := hjob
    have hkept := indexed_updated h hother rfl
    exact ⟨hkept.wf, hkept.entry, hkept.owner, hkept.known⟩
  | requeued => exact ⟨⟨h.wf.hashes, h.wf.unique⟩, h.entry, h.owner, h.known⟩

theorem History.indexed {s : World} (h : History past s) : Indexed past s.kv :=
  h.keeps (P := Indexed) indexed_empty indexed_did

/-! ## What a lookup by video finds -/

theorem newest_stored (h : Indexed past kv) {videoId : String} {first : VideoJob}
    (hnewest : newest videoId past = some first) : ∃ job, kv.hashes (jobKey first.jobId) = some job ∧
      first.jobId ≠ "" ∧ job.jobId = first.jobId ∧ job.videoId = videoId := by
  obtain ⟨hmem, rfl⟩ := newest_some hnewest
  obtain ⟨job, hjob, htriple⟩ := h.owner first hmem
  obtain ⟨hkey, hid, -⟩ := h.wf.hashes _ _ hjob
  have hjobId : first.jobId = job.jobId := jobKey_injective hkey
  exact ⟨job, hjob, hjobId ▸ hid, hjobId.symm, videoId_of_triple htriple⟩

theorem indexed?_eq (h : Indexed past kv) (videoId : String) :
    kv.indexed? videoId = (newest videoId past).bind fun first => kv.hashes (jobKey first.jobId) := by
  unfold Kvrocks.indexed?
  rw [h.entry]
  cases hnewest : newest videoId past with
  | none => rfl
  | some first =>
    obtain ⟨job, -, hid, -⟩ := newest_stored h hnewest
    rw [Option.map_some, Option.bind_some, Option.bind_some, if_neg hid]

/-- A video has an entry if a job of it was created, and the entry names the newest of these jobs. A
lookup by video finds that job. -/
theorem entry_names_newest {past : List Completed} {s : World} (h : History past s) (videoId : String) :
    (s.kv.strings (videoIdKey videoId) ≠ none ↔ ∃ job ∈ created past, job.videoId = videoId) ∧
    (∀ jobId, s.kv.strings (videoIdKey videoId) = some jobId →
      (∃ job, s.kv.hashes (jobKey jobId) = some job ∧ job.jobId = jobId ∧ job.videoId = videoId) ∧
      ∃ first, newest videoId past = some first ∧ first.jobId = jobId) ∧
    ∀ i r s', Runs (Answers i) (RedisQueue.getJobByVideoId videoId) s r s' ↔ s' = s ∧
      ((newest videoId past = none ∧ r = .ok none) ∨
        ∃ first job, newest videoId past = some first ∧ s.kv.hashes (jobKey first.jobId) = some job ∧
          job.jobId = first.jobId ∧ job.videoId = videoId ∧ r = .ok (some job)) := by
  have hindexed := h.indexed
  refine ⟨?_, fun jobId hentry => ?_, fun i r s' => ?_⟩
  · rw [hindexed.entry, ← newest_ne_none]
    simp
  · rw [hindexed.entry] at hentry
    obtain ⟨first, hnewest, rfl⟩ := Option.map_eq_some_iff.mp hentry
    obtain ⟨job, hjob, -, hid, hvideo⟩ := newest_stored hindexed hnewest
    exact ⟨⟨job, hjob, hid, hvideo⟩, first, hnewest, rfl⟩
  · rw [runs_getJobByVideoId, indexed?_eq hindexed]
    cases hnewest : newest videoId past with
    | none => simp [and_comm]
    | some first =>
      obtain ⟨job, hjob, -, hid, hvideo⟩ := newest_stored hindexed hnewest
      simp [hjob, hid, hvideo, and_comm]

/-! ### Two versions of a video, and the first id again for another video -/

def nextVersion : VideoDetectRequest := { Content.otherId with sourceObjectVersion := "v2" }

def bothVersions : World :=
  { kv := Content.oneInKvrocks.kv.applyAll (Kvrocks.newJobCommands (nextVersion.job 1)) }

def pastOfBoth : List Completed :=
  [.requeued sampleJob.jobId, .enqueued nextVersion ⟨nextVersion.job 1, true⟩,
    .enqueued Content.otherVideo ⟨sampleJob, false⟩, .enqueued sampleRequest ⟨sampleJob, true⟩]

theorem history_pastOfBoth :
    History pastOfBoth { kv := bothVersions.kv.apply (.xadd sampleJob.jobId sampleJob) } := by
  have hfirst : Runs (Answers (.api 0)) (RedisQueue.enqueueVideoJob {} sampleRequest) {}
      (.ok ⟨sampleJob, true⟩) Content.oneInKvrocks := runs_enqueueVideoJob.mpr (.inr ⟨0, rfl, rfl, rfl⟩)
  have hagain : Runs (Answers (.api 0)) (RedisQueue.enqueueVideoJob {} Content.otherVideo)
      Content.oneInKvrocks (.ok ⟨sampleJob, false⟩) Content.oneInKvrocks :=
    runs_enqueueVideoJob.mpr (.inl ⟨sampleJob, rfl, rfl, rfl⟩)
  have hsecond : Runs (Answers (.api 1)) (RedisQueue.enqueueVideoJob {} nextVersion)
      Content.oneInKvrocks (.ok ⟨nextVersion.job 1, true⟩) bothVersions :=
    runs_enqueueVideoJob.mpr (.inr ⟨1, rfl, rfl, rfl⟩)
  have hrequeue : Runs (Answers (.worker 0)) (RedisQueue.requeueVideoJob sampleJob.jobId) bothVersions
      (.ok ()) { kv := bothVersions.kv.apply (.xadd sampleJob.jobId sampleJob) } :=
    runs_requeueVideoJob.mpr ⟨rfl, .inr ⟨sampleJob, rfl, rfl⟩⟩
  have hstart : History [] {} := .start rfl
  exact .requeueVideoJob (.enqueueVideoJob (.enqueueVideoJob (.enqueueVideoJob hstart hfirst) hagain)
    hsecond) hrequeue

theorem second_version_found : ∃ past s, History past s ∧ s.kv.strings (videoIdKey "other-video") = none ∧
    ∃ job, Runs (Answers (.api 0)) (RedisQueue.getJobByVideoId "video") s (.ok (some job)) s ∧
      job.jobId = "other-job" := by
  refine ⟨pastOfBoth, _, history_pastOfBoth, ?_, ?_⟩
  · obtain ⟨hiff, -, -⟩ := entry_names_newest history_pastOfBoth "other-video"
    rw [← not_ne_iff, hiff]
    decide
  · obtain ⟨-, -, hlookup⟩ := entry_names_newest history_pastOfBoth "video"
    exact ⟨(nextVersion.job 1).stored, (hlookup _ _ _).mpr
      ⟨rfl, .inr ⟨nextVersion.job 1, _, rfl, rfl, rfl, rfl, rfl⟩⟩, rfl⟩

end VideoIndex

end NsfwDetector
