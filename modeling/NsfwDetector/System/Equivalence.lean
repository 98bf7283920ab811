import NsfwDetector.System.Repositories
import NsfwDetector.System.Callers

/-!
# The queue in memory against the queue over Kvrocks

Two queues that got the same operations hold the same jobs, as far as nobody looks at times or at
empty texts. They part in three ways only: at a job that waits for its retry, at an empty text, and
at the choice between several jobs of one video.
-/

namespace NsfwDetector

open Effects Prog Repositories

/-! ## What is compared -/

/-- The job without its times. -/
def VideoJob.core (job : VideoJob) : VideoJob :=
  { job with createdAt := none, updatedAt := none, startedAt := none, finishedAt := none }

/-- What a change of status tells. -/
def VideoJob.progress (job : VideoJob) :
    String × VideoJobStatus × Int × Option String × Option String :=
  (job.jobId, job.status, job.attempts, job.lastErrorCode, job.lastErrorMessage)

def VideoJob.optionals (job : VideoJob) : List (Option String) :=
  [job.postId, job.canisterId, job.uploadEventId, job.traceId, job.lastErrorCode, job.lastErrorMessage]

/-- An optional field of the job is an empty text. -/
def VideoJob.Blank (job : VideoJob) : Prop := some "" ∈ job.optionals

/-- Two responses that differ in times only. -/
def Repositories.Response.Same : Response → Response → Prop
  | .enqueued result, .enqueued result' =>
    result.job.jobId = result'.job.jobId ∧ result.enqueued = result'.enqueued
  | .updated job, .updated job' => job.map (·.progress) = job'.map (·.progress)
  | .found job, .found job' => job.map (·.core) = job'.map (·.core)
  | _, _ => False

/-- The job of the video that was stored last. -/
def InMemoryVideoQueueRepository.newest? (self : InMemoryVideoQueueRepository) (videoId : String) :
    Option VideoJob :=
  (self.jobs.filter (·.videoId = videoId)).getLast?

/-- The ids that a key is made of have no colon. -/
def Repositories.Operation.Plain : Operation → Prop
  | .enqueueVideoJob request => PlainWork request.triple
  | _ => True

/-- No request finds a job for the same work that waits for its retry, no lookup finds a job with an
empty text, and the newest job of a video is also the one that was updated last. -/
def Repositories.Operation.Meets (queue : InMemoryVideoQueueRepository) : Operation → Prop
  | .enqueueVideoJob request => queue.job? request.jobId = none →
    ∀ existing ∈ (queue.uniqueIndex request.triple).bind queue.job?, existing.status ≠ .failedRetryable
  | .updateStatus _ _ _ _ => True
  | .getJobById jobId => ∀ job ∈ queue.job? jobId, ¬ job.Blank
  | .getJobByVideoId videoId => ∀ newest ∈ queue.newest? videoId, ¬ newest.Blank ∧
    ∀ other ∈ queue.jobs, other.videoId = videoId → other ≠ newest →
      other.updatedAt.getD 0 < newest.updatedAt.getD 0

namespace Lockstep

/-! ## The same jobs -/

structure Related (queue : InMemoryVideoQueueRepository) (kv : Kvrocks Caller) : Prop where
  memory : queue.Wf
  kvrocks : kv.Wf
  jobs : ∀ jobId, (kv.hashes (jobKey jobId)).map (·.core) = (queue.job? jobId).map (·.stored.core)
  unique : ∀ work, PlainWork work → queue.uniqueIndex work = kv.strings (uniqueKeyOf work)
  latest : ∀ videoId, kv.strings (videoIdKey videoId) = (queue.newest? videoId).map (·.jobId)

theorem related_empty : Related {} {} where
  memory := InMemoryVideoQueueRepository.wf_empty
  kvrocks := Kvrocks.wf_empty
  jobs _ := rfl
  unique _ _ := rfl
  latest _ := rfl

variable {queue queue' : InMemoryVideoQueueRepository} {kv kv' : Kvrocks Caller} {job found : VideoJob}

theorem jobId_of_core (h : found.core = job.stored.core) : found.jobId = job.jobId := by
  have hid := congrArg VideoJob.jobId h
  exact hid

theorem videoId_of_core (h : found.core = job.stored.core) : found.videoId = job.videoId := by
  have hid := congrArg VideoJob.videoId h
  exact hid

theorem optional_eq_self (value : Option String) : optional value = value ↔ some "" ≠ value := by
  unfold optional
  split
  · next h => simp [h]
  · next h => simp [Ne.symm h]

theorem stored_core (job : VideoJob) : job.core = job.stored.core ↔ ¬ job.Blank := by
  have hfields : job.core = job.stored.core ↔ optional job.postId = job.postId ∧
      optional job.canisterId = job.canisterId ∧ optional job.uploadEventId = job.uploadEventId ∧
      optional job.traceId = job.traceId ∧ optional job.lastErrorCode = job.lastErrorCode ∧
      optional job.lastErrorMessage = job.lastErrorMessage := by
    simp only [VideoJob.core, VideoJob.stored, VideoJob.mk.injEq, true_and, and_true,
      @eq_comm _ _ (optional _)]
  rw [hfields]
  simp only [optional_eq_self, VideoJob.Blank, VideoJob.optionals, List.mem_cons, List.not_mem_nil,
    or_false, not_or]

namespace Related

theorem of_job (h : Related queue kv) {jobId : String} (hjob : queue.job? jobId = some job) :
    ∃ found, kv.hashes (jobKey jobId) = some found ∧ found.core = job.stored.core := by
  have hmap := h.jobs jobId
  rw [hjob] at hmap
  exact Option.map_eq_some_iff.mp hmap

theorem of_none (h : Related queue kv) {jobId : String} (hjob : queue.job? jobId = none) :
    kv.hashes (jobKey jobId) = none := by
  have hmap := h.jobs jobId
  rw [hjob] at hmap
  exact Option.map_eq_none_iff.mp hmap

end Related

/-! ## Requests -/

/-- What two related queues have for a request. -/
inductive Existing (queue : InMemoryVideoQueueRepository) (kv : Kvrocks Caller)
    (request : VideoDetectRequest) : Prop
  | both (hmeets : (Operation.enqueueVideoJob request).Meets queue) {job found : VideoJob}
      (hjob : queue.existing? request = some job) (hmem : job ∈ queue.jobs)
      (hfound : kv.existing? request = some found) (hcore : found.core = job.stored.core)
  | neither (hmeets : (Operation.enqueueVideoJob request).Meets queue)
      (hjob : queue.existing? request = none) (hfound : kv.existing? request = none)
  | apart (hnot : ¬ (Operation.enqueueVideoJob request).Meets queue)
      (hjob : queue.existing? request = none) {found : VideoJob}
      (hfound : kv.existing? request = some found)

theorem existing_of_related (h : Related queue kv) {request : VideoDetectRequest}
    (hplain : PlainWork request.triple) : Existing queue kv request := by
  cases hjob : queue.job? request.jobId with
  | some job =>
    obtain ⟨found, hfound, hcore⟩ := h.of_job hjob
    have hmem := (InMemoryVideoQueueRepository.job?_mem hjob).1
    have hmemory : queue.existing? request = some job := by
      simp [InMemoryVideoQueueRepository.existing?, hjob]
    have hkv : kv.existing? request = some found := by simp [Kvrocks.existing?, hfound]
    refine .both (fun hnone => ?_) hmemory hmem hkv hcore
    rw [hjob] at hnone
    cases hnone
  | none =>
    have hhash := h.of_none hjob
    have hindex := h.unique _ hplain
    cases hunique : queue.uniqueIndex request.triple with
    | none =>
      rw [hunique] at hindex
      refine .neither (fun _ existing hexisting => ?_) ?_ ?_
      · simp [hunique] at hexisting
      · simp [InMemoryVideoQueueRepository.existing?, hjob, hunique]
      · simp [Kvrocks.existing?, hhash, ← hindex]
    | some jobId =>
      rw [hunique] at hindex
      obtain ⟨job, hindexed, htriple⟩ := h.memory.index _ _ hunique
      obtain ⟨found, hfound, hcore⟩ := h.of_job hindexed
      have hid : jobId ≠ "" := by
        obtain ⟨hkey, hne, -⟩ := h.kvrocks.hashes _ _ hfound
        rwa [jobKey_injective hkey]
      have hkv : kv.existing? request = some found := by
        simp [Kvrocks.existing?, hhash, ← hindex, hid, hfound]
      by_cases hstatus : job.status = .failedRetryable
      · refine .apart (fun hmeets => ?_) ?_ hkv
        · exact hmeets hjob job (by simp [hunique, hindexed]) hstatus
        · simp [InMemoryVideoQueueRepository.existing?, hjob, hunique, hindexed, hstatus]
      · have hmem := (InMemoryVideoQueueRepository.job?_mem hindexed).1
        have hmemory : queue.existing? request = some job := by
          simp [InMemoryVideoQueueRepository.existing?, hjob, hunique, hindexed, hstatus]
        refine .both (fun _ existing hexisting => ?_) hmemory hmem hkv hcore
        simp only [hunique, Option.bind_some, hindexed, Option.mem_def, Option.some.injEq] at hexisting
        rwa [← hexisting]

/-! ## What operations keep -/

theorem newest?_of_mem (h : job ∈ queue.jobs) : queue.newest? job.videoId ≠ none := by
  unfold InMemoryVideoQueueRepository.newest?
  rw [Ne, List.getLast?_eq_none_iff]
  exact List.ne_nil_of_mem (List.mem_filter.mpr ⟨h, by simp⟩)

theorem apply_setNx (h : Related queue kv) (hmem : job ∈ queue.jobs)
    (hcore : found.core = job.stored.core) (value : String) :
    kv.apply (.setNx (videoIdKey found.videoId) value) = kv := by
  have hindex : kv.strings (videoIdKey found.videoId) ≠ none := by
    rw [h.latest, videoId_of_core hcore, Ne, Option.map_eq_none_iff]
    exact newest?_of_mem hmem
  simp [Kvrocks.apply, hindex]

theorem newest?_addNew (queue : InMemoryVideoQueueRepository) (job : VideoJob) (videoId : String) :
    ((queue.addNew job).append job).newest? videoId =
      if job.videoId = videoId then some job else queue.newest? videoId := by
  change ((queue.jobs ++ [job]).filter (·.videoId = videoId)).getLast? = _
  unfold InMemoryVideoQueueRepository.newest?
  by_cases hvideo : job.videoId = videoId
  · simp [List.filter_append, hvideo]
  · simp [List.filter_append, hvideo]

theorem uniqueIndex_addNew (queue : InMemoryVideoQueueRepository) (job : VideoJob)
    (work : String × String × String) : ((queue.addNew job).append job).uniqueIndex work =
      if work = job.triple then some job.jobId else queue.uniqueIndex work :=
  Function.update_apply ..

theorem jobs_new {request : VideoDetectRequest} {now now' : Time} (h : Related queue kv)
    (hnone : queue.job? request.jobId = none) (jobId : String) :
    ((kv.applyAll (Kvrocks.newJobCommands (request.job now'))).hashes (jobKey jobId)).map (·.core) =
      (((queue.addNew (request.job now)).append (request.job now)).job? jobId).map (·.stored.core) := by
  have hjob : ((queue.addNew (request.job now)).append (request.job now)).job? jobId =
      if jobId = request.jobId then some (request.job now) else queue.job? jobId :=
    InMemoryVideoQueueRepository.job?_addNew hnone jobId
  rw [hjob, Kvrocks.hashes_newJob]
  by_cases hid : jobId = request.jobId
  · subst hid
    rw [if_pos rfl]
    exact congrArg (Option.map (·.core)) (Function.update_self (jobKey request.jobId) _ kv.hashes)
  · rw [if_neg hid, Function.update_of_ne, h.jobs]
    exact fun hkey => hid (jobKey_injective hkey)

theorem related_new {request : VideoDetectRequest} {now now' : Time} (h : Related queue kv)
    (hplain : PlainWork request.triple) (hqueue : queue.existing? request = none)
    (hkv : kv.existing? request = none) :
    Related ((queue.addNew (request.job now)).append (request.job now))
      (kv.applyAll (Kvrocks.newJobCommands (request.job now'))) where
  memory := (InMemoryVideoQueueRepository.Does.new hqueue).wf h.memory
  kvrocks := (Kvrocks.Does.new hkv).wf h.kvrocks
  jobs := jobs_new h (InMemoryVideoQueueRepository.job?_of_existing?_none hqueue)
  unique work hwork := by
    rw [Kvrocks.strings_newJob_unique, uniqueIndex_addNew]
    by_cases heq : work = request.triple
    · subst heq
      exact (if_pos rfl).trans (if_pos rfl).symm
    · have hkey : uniqueKeyOf work ≠ uniqueKeyOf request.triple := fun hkey =>
        heq (uniqueKeyOf_injective hwork hplain hkey)
      exact (if_neg heq).trans ((h.unique work hwork).trans (if_neg hkey).symm)
  latest videoId := by
    rw [newest?_addNew, Kvrocks.strings_newJob]
    by_cases hvideo : request.videoId = videoId
    · subst hvideo
      have hnew : (if (request.job now).videoId = request.videoId then some (request.job now)
          else queue.newest? request.videoId) = some (request.job now) := if_pos rfl
      rw [hnew]
      exact Function.update_self ..
    · have hne : videoIdKey videoId ≠ videoIdKey request.videoId := fun hkey =>
        hvideo (videoIdKey_injective hkey).symm
      have hne' : videoIdKey videoId ≠ uniqueKeyOf request.triple :=
        (uniqueKeyOf_ne_videoIdKey _ _).symm
      refine (Function.update_of_ne hne _ _).trans ((Function.update_of_ne hne' _ _).trans ?_)
      rw [h.latest]
      exact congrArg _ (if_neg hvideo).symm

theorem newest?_put (hwf : queue.Wf) {other : VideoJob} (hjob : queue.job? job.jobId = some other)
    (hvideo : job.videoId = other.videoId) (videoId : String) :
    ((queue.put job).newest? videoId).map (·.jobId) = (queue.newest? videoId).map (·.jobId) := by
  have hsame : ∀ row ∈ queue.jobs,
      (if row.jobId = job.jobId then job else row).videoId = row.videoId := by
    intro row hrow
    split
    · next hid =>
      have hfound := InMemoryVideoQueueRepository.job?_of_mem hwf hrow
      rw [hid, hjob, Option.some.injEq] at hfound
      rw [← hfound, hvideo]
    · rfl
  have hfilter : (queue.put job).jobs.filter (·.videoId = videoId) =
      (queue.jobs.filter (·.videoId = videoId)).map
        fun row => if row.jobId = job.jobId then job else row := by
    unfold InMemoryVideoQueueRepository.put
    rw [List.filter_map]
    congr 1
    apply List.filter_congr
    intro row hrow
    simp only [Function.comp, hsame row hrow]
  unfold InMemoryVideoQueueRepository.newest?
  rw [hfilter, List.getLast?_map, Option.map_map]
  congr 1
  funext row
  simp only [Function.comp]
  split <;> simp_all

theorem optional_optional (value : Option String) : optional (optional value) = optional value := by
  by_cases h : value = some ""
  · simp [optional, h]
  · simp [optional, h]

theorem withStatus_core (h : found.core = job.stored.core) (status : VideoJobStatus)
    (code message : Option String) (now now' : Time) :
    (found.withStatus status code message now').stored.core =
      (job.withStatus status code message now).stored.core := by
  simp only [VideoJob.core, VideoJob.stored, VideoJob.mk.injEq] at h
  obtain ⟨h₁, h₂, h₃, h₄, -, h₆, h₇, h₈, h₉, h₁₀, h₁₁, h₁₂, -⟩ := h
  simp only [VideoJob.core, VideoJob.stored, VideoJob.withStatus, h₁, h₂, h₃, h₄, h₆, h₇, h₈, h₉, h₁₀,
    h₁₁, h₁₂, optional_optional]

theorem withStatus_progress (h : found.core = job.stored.core) (status : VideoJobStatus)
    (code message : Option String) (now now' : Time) :
    (job.withStatus status code message now).progress =
      (found.withStatus status code message now').progress := by
  simp only [VideoJob.core, VideoJob.stored, VideoJob.mk.injEq] at h
  simp only [VideoJob.progress, VideoJob.withStatus, h]

theorem related_put {jobId : String} (h : Related queue kv) (hjob : queue.job? jobId = some job)
    (hfound : kv.hashes (jobKey jobId) = some found) (hcore : found.core = job.stored.core)
    (status : VideoJobStatus) (code message : Option String) (now now' : Time) :
    Related (queue.put (job.withStatus status code message now))
      (kv.apply (.hset (jobKey jobId) (found.withStatus status code message now'))) := by
  have hid : (job.withStatus status code message now).jobId = jobId :=
    (InMemoryVideoQueueRepository.job?_mem hjob).2
  refine ⟨(InMemoryVideoQueueRepository.Does.updated hjob).wf h.memory,
    (Kvrocks.Does.updated hfound).wf h.kvrocks, fun other => ?_, h.unique, fun videoId => ?_⟩
  · rw [InMemoryVideoQueueRepository.job?_put, hid]
    simp only [Kvrocks.apply]
    by_cases hother : other = jobId
    · subst hother
      rw [if_pos rfl, hjob, Function.update_self]
      exact congrArg some (withStatus_core hcore status code message now now')
    · rw [if_neg hother, Function.update_of_ne (fun hkey => hother (jobKey_injective hkey)), h.jobs]
  · have hother : queue.job? (job.withStatus status code message now).jobId = some job := by
      rw [hid, hjob]
    rw [newest?_put h.memory hother rfl]
    exact h.latest videoId

/-! ## Lookups by video -/

theorem mem_of_newest? {videoId : String} {newest : VideoJob} (h : queue.newest? videoId = some newest) :
    newest ∈ queue.jobs ∧ newest.videoId = videoId := by
  have hmem := List.mem_filter.mp (List.mem_of_getLast? h)
  exact ⟨hmem.1, of_decide_eq_true hmem.2⟩

/-- The newest job is the one that was updated last exactly if all others were updated before it. -/
theorem lastUpdated?_eq_newest (hwf : queue.Wf) {videoId : String} {newest : VideoJob}
    (h : queue.newest? videoId = some newest) :
    queue.lastUpdated? videoId = some newest ↔ ∀ other ∈ queue.jobs, other.videoId = videoId →
      other ≠ newest → other.updatedAt.getD 0 < newest.updatedAt.getD 0 := by
  obtain ⟨older, hjobs⟩ := List.getLast?_eq_some_iff.mp h
  have hmem : ∀ other, (other ∈ queue.jobs ∧ other.videoId = videoId) ↔ other ∈ older ∨ other = newest := by
    intro other
    have hfilter : other ∈ queue.jobs.filter (·.videoId = videoId) ↔ other ∈ older ++ [newest] := by
      rw [hjobs]
    simpa using hfilter
  have hnodup : newest ∉ older := by
    have hall := (hwf.ids.of_map).filter (·.videoId = videoId)
    rw [hjobs] at hall
    exact fun hnewest => (List.nodup_append.mp hall).2.2 newest hnewest newest (by simp) rfl
  unfold InMemoryVideoQueueRepository.lastUpdated?
  rw [hjobs, List.argmax_concat]
  cases hlast : older.argmax fun job => job.updatedAt.getD 0 with
  | none =>
    rw [List.argmax_eq_none.mp hlast] at hmem
    refine iff_of_true rfl fun other hother hvideo hne => ?_
    simpa [hne] using (hmem other).mp ⟨hother, hvideo⟩
  | some last =>
    have hlastmem := List.argmax_mem hlast
    obtain ⟨hlastjob, hlastvideo⟩ := (hmem last).mpr (.inl hlastmem)
    have hne : last ≠ newest := fun heq => hnodup (heq ▸ hlastmem)
    by_cases hlt : last.updatedAt.getD 0 < newest.updatedAt.getD 0
    · refine iff_of_true (if_pos hlt) fun other hother hvideo hothernewest => ?_
      have hold := ((hmem other).mp ⟨hother, hvideo⟩).resolve_right hothernewest
      have hle := List.le_of_mem_argmax (f := fun job : VideoJob => job.updatedAt.getD 0) hold hlast
      exact lt_of_le_of_lt hle hlt
    · refine iff_of_false (fun heq => hne ?_) fun hall => hlt (hall last hlastjob hlastvideo hne)
      exact Option.some.inj ((if_neg hlt).symm.trans heq)

theorem lastUpdated?_ne_none {videoId : String} {newest : VideoJob}
    (h : queue.newest? videoId = some newest) :
    ∃ last ∈ queue.jobs, queue.lastUpdated? videoId = some last := by
  cases hlast : queue.lastUpdated? videoId with
  | none =>
    unfold InMemoryVideoQueueRepository.lastUpdated? at hlast
    unfold InMemoryVideoQueueRepository.newest? at h
    rw [List.argmax_eq_none.mp hlast] at h
    cases h
  | some last => exact ⟨last, (List.mem_filter.mp (List.argmax_mem hlast)).1, rfl⟩

theorem indexed?_of_newest (h : Related queue kv) {videoId : String} {newest : VideoJob}
    (hnewest : queue.newest? videoId = some newest) :
    ∃ found, kv.indexed? videoId = some found ∧ found.core = newest.stored.core := by
  have hjob := InMemoryVideoQueueRepository.job?_of_mem h.memory (mem_of_newest? hnewest).1
  obtain ⟨found, hfound, hcore⟩ := h.of_job hjob
  have hid : newest.jobId ≠ "" := by
    obtain ⟨hkey, hne, -⟩ := h.kvrocks.hashes _ _ hfound
    rwa [jobKey_injective hkey]
  have hindex := h.latest videoId
  rw [hnewest] at hindex
  exact ⟨found, by simp [Kvrocks.indexed?, hindex, hid, hfound], hcore⟩

theorem same_byVideoId (h : Related queue kv) (videoId : String) :
    (Response.found (queue.lastUpdated? videoId)).Same (.found (kv.indexed? videoId)) ↔
      (Operation.getJobByVideoId videoId).Meets queue := by
  simp only [Response.Same, Operation.Meets]
  cases hnewest : queue.newest? videoId with
  | none =>
    have hindex := h.latest videoId
    have hjobs : queue.jobs.filter (·.videoId = videoId) = [] := List.getLast?_eq_none_iff.mp hnewest
    rw [hnewest, Option.map_none] at hindex
    simp [Kvrocks.indexed?, hindex, InMemoryVideoQueueRepository.lastUpdated?, hjobs]
  | some newest =>
    obtain ⟨found, hfound, hcore⟩ := indexed?_of_newest h hnewest
    obtain ⟨last, hmem, hlast⟩ := lastUpdated?_ne_none hnewest
    have hiff := lastUpdated?_eq_newest h.memory hnewest
    have hown : last.core = found.core ↔ last = newest ∧ ¬ newest.Blank := by
      rw [hcore]
      constructor
      · intro heq
        have hid : last.core.jobId = newest.stored.core.jobId := by rw [heq]
        obtain rfl : last = newest :=
          List.inj_on_of_nodup_map h.memory.ids hmem (mem_of_newest? hnewest).1 hid
        exact ⟨rfl, (stored_core last).mp heq⟩
      · rintro ⟨rfl, hblank⟩
        exact (stored_core last).mpr hblank
    rw [hlast, Option.some.injEq] at hiff
    rw [hlast, hfound, Option.map_some, Option.map_some, Option.some.injEq, hown, hiff]
    simp only [Option.mem_def, Option.some.injEq, forall_eq', and_comm]

/-! ## One operation -/

theorem same_byId (h : Related queue kv) (jobId : String) :
    (Response.found (queue.job? jobId)).Same (.found (kv.hashes (jobKey jobId))) ↔
      (Operation.getJobById jobId).Meets queue := by
  simp only [Response.Same, Operation.Meets]
  rw [h.jobs]
  cases queue.job? jobId with
  | none => simp
  | some job => simp [stored_core]

theorem lockstep_existing (h : Related queue kv) {request : VideoDetectRequest} {job : VideoJob}
    {response' : Response} (hplain : PlainWork request.triple) (hjob : queue.existing? request = some job)
    (hkv : kv.Does (.enqueueVideoJob request) response' kv') :
    (Response.enqueued ⟨job, false⟩).Same response' ∧ (Operation.enqueueVideoJob request).Meets queue ∧
      kv' = kv := by
  cases existing_of_related h hplain with
  | both hmeets hjob' hmem hfound hcore =>
    obtain rfl := Option.some.inj (hjob.symm.trans hjob')
    cases hkv with
    | existing hfound' =>
      obtain rfl := Option.some.inj (hfound.symm.trans hfound')
      exact ⟨⟨(jobId_of_core hcore).symm, rfl⟩, hmeets, apply_setNx h hmem hcore _⟩
    | new hnone =>
      rw [hfound] at hnone
      cases hnone
  | neither _ hnone | apart _ hnone =>
    rw [hjob] at hnone
    cases hnone

theorem lockstep_new (h : Related queue kv) {request : VideoDetectRequest} {now : Time}
    {response' : Response} (hplain : PlainWork request.triple) (hnone : queue.existing? request = none)
    (hkv : kv.Does (.enqueueVideoJob request) response' kv') :
    ((Response.enqueued ⟨request.job now, true⟩).Same response' ↔
        (Operation.enqueueVideoJob request).Meets queue) ∧
      ((Operation.enqueueVideoJob request).Meets queue →
        Related ((queue.addNew (request.job now)).append (request.job now)) kv') := by
  cases existing_of_related h hplain with
  | both _ hjob =>
    rw [hnone] at hjob
    cases hjob
  | neither hmeets _ hfound =>
    cases hkv with
    | existing hsome =>
      rw [hfound] at hsome
      cases hsome
    | new hkvnone =>
      exact ⟨iff_of_true ⟨rfl, rfl⟩ hmeets, fun _ => related_new h hplain hnone hkvnone⟩
  | apart hnot _ hfound =>
    cases hkv with
    | existing =>
      refine ⟨iff_of_false ?_ hnot, fun hmeets => absurd hmeets hnot⟩
      rintro ⟨-, hflag⟩
      cases hflag
    | new hkvnone =>
      rw [hfound] at hkvnone
      cases hkvnone

/-- The responses agree exactly if the operation meets its condition, and then the queues stay
related. -/
theorem lockstep (h : Related queue kv) {operation : Operation} {response response' : Response}
    (hplain : operation.Plain) (hqueue : queue.Does operation response queue')
    (hkv : kv.Does operation response' kv') :
    (response.Same response' ↔ operation.Meets queue) ∧ (operation.Meets queue → Related queue' kv') := by
  cases hqueue with
  | existing hjob =>
    obtain ⟨hsame, hmeets, rfl⟩ := lockstep_existing h hplain hjob hkv
    exact ⟨iff_of_true hsame hmeets, fun _ => h⟩
  | new hnone => exact lockstep_new h hplain hnone hkv
  | unknown hjob =>
    have hhash := h.of_none hjob
    cases hkv with
    | unknown => exact ⟨iff_of_true rfl trivial, fun _ => h⟩
    | updated hsome =>
      rw [hhash] at hsome
      cases hsome
  | updated hjob =>
    obtain ⟨found, hfound, hcore⟩ := h.of_job hjob
    cases hkv with
    | unknown hnone =>
      rw [hfound] at hnone
      cases hnone
    | updated hsome =>
      obtain rfl := Option.some.inj (hfound.symm.trans hsome)
      refine ⟨iff_of_true ?_ trivial, fun _ => related_put h hjob hfound hcore _ _ _ _ _⟩
      exact congrArg some (withStatus_progress hcore _ _ _ _ _)
  | byId =>
    cases hkv with
    | byId => exact ⟨same_byId h _, fun _ => h⟩
  | byVideoId =>
    cases hkv with
    | byVideoId => exact ⟨same_byVideoId h _, fun _ => h⟩

/-! ## All operations -/

def MeetsAll (surroundings : Surroundings) : Memory → List Operation → Prop
  | _, [] => True
  | s, operation :: operations => operation.Meets s.queue ∧
    MeetsAll surroundings (after (perform (InMemory.repository surroundings) operation) s) operations

theorem same_iff (surroundings : Surroundings) (operations : List Operation)
    (hplain : ∀ operation ∈ operations, operation.Plain) {s s' : Memory}
    {responses responses' : List Response}
    (hqueue : Returns (performAll (InMemory.repository surroundings) operations) s responses s')
    (hkv : Responds Kvrocks.Does kv operations responses' kv') (h : Related s.queue kv) :
    List.Forall₂ Response.Same responses responses' ↔ MeetsAll surroundings s operations := by
  induction operations generalizing s kv responses responses' with
  | nil =>
    cases hkv
    cases hqueue
    exact iff_of_true .nil trivial
  | cons operation operations ih =>
    cases hkv with
    | cons hstep hrest =>
      obtain ⟨response, t, hreturns, hdoes⟩ := memory_perform surroundings h.memory operation
      obtain ⟨rest, t', hall, -⟩ := memory_performAll surroundings (hdoes.wf h.memory) operations
      have hboth : Returns (performAll (InMemory.repository surroundings) (operation :: operations)) s
          (response :: rest) t' := .bind hreturns (.bind hall (.pure _ t'))
      have heq := hqueue.symm.trans hboth
      obtain ⟨rfl, rfl⟩ := EStateM.Result.ok.inj heq
      obtain ⟨hplain₀, hplains⟩ := List.forall_mem_cons.mp hplain
      obtain ⟨hsame, hkeeps⟩ := lockstep h hplain₀ hdoes hstep
      rw [List.forall₂_cons, MeetsAll, hreturns.after, hsame]
      exact and_congr_right fun hmeets => ih hplains hall hrest (hkeeps hmeets)

/-- The two repositories give the same responses, times aside, exactly as long as every operation
meets its condition. -/
theorem repositories_agree_iff (surroundings : Surroundings) (settings : Settings) (i : Caller)
    (operations : List Operation) (hplain : ∀ operation ∈ operations, operation.Plain) :
    ∃ responses s,
      Returns (performAll (InMemory.repository surroundings) operations) {} responses s ∧
      (∃ r t, Runs (Answers i) (performAll (RedisQueue.repository settings) operations) {} r t) ∧
      ∀ r t, Runs (Answers i) (performAll (RedisQueue.repository settings) operations) {} r t →
        ∃ responses', r = .ok responses' ∧
          (List.Forall₂ Response.Same responses responses' ↔ MeetsAll surroundings {} operations) := by
  obtain ⟨responses, s, hreturns, -⟩ :=
    @memory_performAll surroundings {} InMemoryVideoQueueRepository.wf_empty operations
  refine ⟨responses, s, hreturns, ?_, fun r t hrun => ?_⟩
  · obtain ⟨responses', kv', hresponds⟩ := exists_responds {} operations
    exact ⟨_, _, runs_performAll.mpr ⟨responses', kv', rfl, rfl, hresponds⟩⟩
  · obtain ⟨responses', kv', rfl, -, hresponds⟩ := runs_performAll.mp hrun
    exact ⟨responses', rfl, same_iff surroundings operations hplain hreturns hresponds related_empty⟩

/-! ### One job, and its retry -/

/-- A clock that counts, and a pipeline that does nothing. -/
def counting : Surroundings := ⟨fun n => n, fun _ => ⟨id, none⟩⟩

/-- The job is processed and classified, and looked up both ways. -/
def oneJob : List Operation :=
  [.enqueueVideoJob sampleRequest, .updateStatus "job" .processing none none,
    .updateStatus "job" .classified none none, .getJobById "job", .getJobByVideoId "video"]

instance (operation : Operation) : Decidable operation.Plain :=
  match operation with
  | .enqueueVideoJob request => inferInstanceAs (Decidable
      (':' ∉ request.videoId.toList ∧ ':' ∉ request.sourceObjectVersion.toList))
  | .updateStatus _ _ _ _ | .getJobById _ | .getJobByVideoId _ => .isTrue trivial

instance (job : VideoJob) : Decidable job.Blank :=
  inferInstanceAs (Decidable (some "" ∈ job.optionals))

instance (queue : InMemoryVideoQueueRepository) (operation : Operation) :
    Decidable (operation.Meets queue) :=
  match operation with
  | .enqueueVideoJob request => inferInstanceAs (Decidable (queue.job? request.jobId = none →
      ∀ existing ∈ (queue.uniqueIndex request.triple).bind queue.job?, existing.status ≠ .failedRetryable))
  | .updateStatus _ _ _ _ => .isTrue trivial
  | .getJobById jobId => inferInstanceAs (Decidable (∀ job ∈ queue.job? jobId, ¬ job.Blank))
  | .getJobByVideoId videoId => inferInstanceAs (Decidable (∀ newest ∈ queue.newest? videoId,
      ¬ newest.Blank ∧ ∀ other ∈ queue.jobs, other.videoId = videoId → other ≠ newest →
        other.updatedAt.getD 0 < newest.updatedAt.getD 0))

instance decidableMeetsAll (surroundings : Surroundings) : (s : Memory) → (operations : List Operation) →
    Decidable (MeetsAll surroundings s operations)
  | _, [] => .isTrue trivial
  | s, operation :: operations =>
    have := decidableMeetsAll surroundings
      (after (perform (InMemory.repository surroundings) operation) s) operations
    inferInstanceAs (Decidable (operation.Meets s.queue ∧ MeetsAll surroundings
      (after (perform (InMemory.repository surroundings) operation) s) operations))

theorem one_job_agrees : ∃ responses s,
    Returns (performAll (InMemory.repository counting) oneJob) {} responses s ∧
    ∀ r t, Runs (Answers (.api 0)) (performAll (RedisQueue.repository {}) oneJob) {} r t →
      ∃ responses', r = .ok responses' ∧ List.Forall₂ Response.Same responses responses' := by
  have hplain : ∀ operation ∈ oneJob, operation.Plain := by decide +kernel
  have hmeets : MeetsAll counting {} oneJob := by decide +kernel
  obtain ⟨responses, s, hreturns, -, hruns⟩ := repositories_agree_iff counting {} (.api 0) oneJob hplain
  refine ⟨responses, s, hreturns, fun r t hrun => ?_⟩
  obtain ⟨responses', hr, hiff⟩ := hruns r t hrun
  exact ⟨responses', hr, hiff.mpr hmeets⟩

/-- The same work under another id, after a failure that is tried again. -/
def retriedJob : List Operation :=
  [.enqueueVideoJob sampleRequest, .updateStatus "job" .failedRetryable none none,
    .enqueueVideoJob { sampleRequest with jobId := "other-job", jobId_ne := otherJob_ne }]

/-- The queue in memory stores the work anew, the queue over Kvrocks does not. -/
theorem retried_job_parts : (∀ operation ∈ retriedJob, operation.Plain) ∧
    ∃ responses s responses' t,
      Returns (performAll (InMemory.repository counting) retriedJob) {} responses s ∧
      Runs (Answers (.api 0)) (performAll (RedisQueue.repository {}) retriedJob) {} (.ok responses') t ∧
      ¬ List.Forall₂ Response.Same responses responses' := by
  have hplain : ∀ operation ∈ retriedJob, operation.Plain := by decide +kernel
  have hnot : ¬ MeetsAll counting {} retriedJob := by decide +kernel
  obtain ⟨responses, s, hreturns, -⟩ :=
    @memory_performAll counting {} InMemoryVideoQueueRepository.wf_empty retriedJob
  obtain ⟨responses', kv', hresponds⟩ := exists_responds {} retriedJob
  refine ⟨hplain, responses, s, responses', _, hreturns,
    runs_performAll.mpr ⟨responses', kv', rfl, rfl, hresponds⟩, fun hsame => hnot ?_⟩
  exact (same_iff counting retriedJob hplain hreturns hresponds related_empty).mp hsame

end Lockstep

end NsfwDetector
