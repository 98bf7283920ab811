import NsfwDetector.System.VideoIndex
import NsfwDetector.Text.Joining

/-!
# The index by work

The three kinds of key never meet, and the keys of jobs and of videos tell their ids. The key of a
job's work joins three strings with colons, and the strings may have colons of their own.
-/

namespace NsfwDetector

open Effects Prog Repositories VideoIndex

namespace WorkIndex

/-! ## Which keys tell the work -/

/-- The only colons are at the start of the video's id and at the end of the policy's version. -/
def Unambiguous (work : String × String × String) : Prop :=
  ':' ∉ work.1.toList.tail ∧ ':' ∉ work.2.1.toList ∧ ':' ∉ work.2.2.toList.dropLast

theorem uniqueKeyOf_eq_iff (work other : String × String × String) : uniqueKeyOf work = uniqueKeyOf other ↔
    Joining.join ':' work.1.toList work.2.1.toList work.2.2.toList =
      Joining.join ':' other.1.toList other.2.1.toList other.2.2.toList := by
  rw [← String.toList_inj, uniqueKeyOf_toList, uniqueKeyOf_toList]
  exact List.append_right_inj _

theorem toList_ne_nil {value : String} (h : value ≠ "") : value.toList ≠ [] :=
  fun hnil => h (String.toList_injective hnil)

theorem same_key_same_work_iff {work : String × String × String} (hvideo : work.1 ≠ "")
    (hpolicy : work.2.2 ≠ "") :
    (∀ other, other.1 ≠ "" → other.2.2 ≠ "" → uniqueKeyOf work = uniqueKeyOf other → work = other) ↔
      Unambiguous work := by
  unfold Unambiguous
  rw [← Joining.join_inj_iff (toList_ne_nil hvideo) (toList_ne_nil hpolicy)]
  constructor
  · intro hsame left mid right hleft hright hjoin
    have hother := hsame (String.ofList left, String.ofList mid, String.ofList right)
      (fun hempty => hleft (String.ofList_eq_empty_iff.mp hempty))
      (fun hempty => hright (String.ofList_eq_empty_iff.mp hempty))
      ((uniqueKeyOf_eq_iff _ _).mpr (by simpa using hjoin))
    simp [hother]
  · intro hparts other hother hother' hkey
    obtain ⟨hl, hm, hr⟩ := hparts _ _ _ (toList_ne_nil hother) (toList_ne_nil hother')
      ((uniqueKeyOf_eq_iff _ _).mp hkey)
    exact Prod.ext (String.toList_injective hl)
      (Prod.ext (String.toList_injective hm) (String.toList_injective hr))

/-! ## What a request under a fresh id is answered with -/

theorem created_requested {past : List Completed} {s : World} (h : History past s) :
    ∀ job ∈ created past, ∃ (request : VideoDetectRequest) (now : Time), job = request.job now := by
  refine h.keeps (P := fun past _ => ∀ job ∈ created past, ∃ (request : VideoDetectRequest) (now : Time),
    job = request.job now) (fun job hmem => absurd hmem List.not_mem_nil) ?_
  intro past kv operation kv' hdid ih job hmem
  cases hdid with
  | @new request now _ =>
    rcases List.mem_cons.mp hmem with rfl | hold
    · exact ⟨request, now, rfl⟩
    · exact ih job hold
  | existing | unknown | updated | nothing | requeued => exact ih job hmem

theorem answered_with_own_work {past : List Completed} {s s' : World} {settings : Settings} {i : Caller}
    {request : VideoDetectRequest} {job : VideoJob} (h : History past s)
    (hfresh : s.kv.hashes (jobKey request.jobId) = none) (hwork : Unambiguous request.triple)
    (hrun : Runs (Answers i) (RedisQueue.enqueueVideoJob settings request) s (.ok ⟨job, false⟩) s') :
    job.triple = request.triple := by
  rcases runs_enqueueVideoJob.mp hrun with ⟨existing, hexisting, heq, -⟩ | ⟨now, -, heq, -⟩
  · cases heq
    refine (Content.kvrocks_for_iff h.indexed.wf (.existing hexisting)).mpr
      ⟨fun found hfound => ?_, fun _ key found hfound hkey => ?_⟩
    · rw [hfresh] at hfound
      cases hfound
    · -- A stored job was requested too, so its strings are not empty.
      obtain ⟨first, hfirst, htriple⟩ := h.indexed.known key found hfound
      obtain ⟨requested, now, rfl⟩ := created_requested h first hfirst
      have hsame := (same_key_same_work_iff request.videoId_ne request.policyVersion_ne).mpr hwork
      rw [← htriple] at hkey ⊢
      exact (hsame _ requested.videoId_ne requested.policyVersion_ne hkey.symm).symm
  · cases heq

/-! ## A request for other work with the same key -/

theorem exists_colliding {request : VideoDetectRequest} (h : ¬ Unambiguous request.triple) :
    ∃ other : VideoDetectRequest, other.jobId ≠ request.jobId ∧
      uniqueKeyOf request.triple = uniqueKeyOf other.triple ∧ other.triple ≠ request.triple := by
  rw [← same_key_same_work_iff request.videoId_ne request.policyVersion_ne] at h
  push Not at h
  obtain ⟨work, hvideo, hpolicy, hkey, hne⟩ := h
  have hlonger : request.jobId ++ ":" ≠ request.jobId := by
    intro heq
    have hlength := congrArg (List.length ∘ String.toList) heq
    simp at hlength
  have hid : request.jobId ++ ":" ≠ "" := by
    intro heq
    have hlength := congrArg (List.length ∘ String.toList) heq
    simp at hlength
  exact ⟨{ request with
    jobId := request.jobId ++ ":", videoId := work.1, sourceObjectVersion := work.2.1,
    policyVersion := work.2.2, jobId_ne := hid, videoId_ne := hvideo, policyVersion_ne := hpolicy },
    hlonger, hkey, hne.symm⟩

def stored (request : VideoDetectRequest) : World :=
  { kv := ({} : Kvrocks Caller).applyAll (Kvrocks.newJobCommands (request.job 0)) }

theorem history_stored (request : VideoDetectRequest) :
    History [.enqueued request ⟨request.job 0, true⟩] (stored request) := by
  have hrun : Runs (Answers (.api 0)) (RedisQueue.enqueueVideoJob {} request) {}
      (.ok ⟨request.job 0, true⟩) (stored request) := runs_enqueueVideoJob.mpr (.inr ⟨0, rfl, rfl, rfl⟩)
  exact .enqueueVideoJob (.start rfl) hrun

theorem hashes_stored {request : VideoDetectRequest} {jobId : String} (h : request.jobId ≠ jobId) :
    (stored request).kv.hashes (jobKey jobId) = none := by
  unfold stored
  rw [Kvrocks.hashes_newJob, Function.update_of_ne]
  exact fun hkey => h (jobKey_injective hkey).symm

theorem existing?_stored {request other : VideoDetectRequest} (hid : other.jobId ≠ request.jobId)
    (hkey : uniqueKeyOf request.triple = uniqueKeyOf other.triple) :
    (stored other).kv.existing? request = some (other.job 0).stored := by
  have hindex : (stored other).kv.strings (uniqueKeyOf request.triple) = some other.jobId := by
    unfold stored
    rw [Kvrocks.strings_newJob_unique, hkey]
    exact if_pos rfl
  have hjob : (stored other).kv.hashes (jobKey other.jobId) = some (other.job 0).stored := by
    unfold stored
    rw [Kvrocks.hashes_newJob]
    exact Function.update_self ..
  unfold Kvrocks.existing?
  rw [hashes_stored hid, hindex, Option.bind_some, if_neg other.jobId_ne, hjob]

theorem answered_with_other_work {request other : VideoDetectRequest} (hid : other.jobId ≠ request.jobId)
    (hkey : uniqueKeyOf request.triple = uniqueKeyOf other.triple) (settings : Settings) (i : Caller) :
    ∃ s', Runs (Answers i) (RedisQueue.enqueueVideoJob settings request) (stored other)
      (.ok ⟨(other.job 0).stored, false⟩) s' :=
  ⟨_, runs_enqueueVideoJob.mpr (.inl ⟨_, existing?_stored hid hkey, rfl, rfl⟩)⟩

/-- The keys of jobs and of videos are their own, and no key is of two kinds. A key is for one work
only, and a request under a fresh id is answered with a job for its own work only, exactly if the
colons do no harm. -/
theorem keys_apart_iff (settings : Settings) (request : VideoDetectRequest) :
    Function.Injective jobKey ∧ Function.Injective videoIdKey ∧
    (∀ jobId work, jobKey jobId ≠ uniqueKeyOf work) ∧
    (∀ jobId videoId, jobKey jobId ≠ videoIdKey videoId) ∧
    (∀ work videoId, uniqueKeyOf work ≠ videoIdKey videoId) ∧
    (∀ work : String × String × String, work.1 ≠ "" → work.2.2 ≠ "" →
      ((∀ other, other.1 ≠ "" → other.2.2 ≠ "" → uniqueKeyOf work = uniqueKeyOf other → work = other) ↔
        Unambiguous work)) ∧
    ((∀ past s i job s', History past s → s.kv.hashes (jobKey request.jobId) = none →
        Runs (Answers i) (RedisQueue.enqueueVideoJob settings request) s (.ok ⟨job, false⟩) s' →
        job.triple = request.triple) ↔ Unambiguous request.triple) := by
  refine ⟨jobKey_injective, videoIdKey_injective, jobKey_ne_uniqueKeyOf, jobKey_ne_videoIdKey,
    uniqueKeyOf_ne_videoIdKey, fun work => same_key_same_work_iff, ?_⟩
  constructor
  · intro hown
    by_contra hwork
    obtain ⟨other, hid, hkey, hne⟩ := exists_colliding hwork
    obtain ⟨s', hrun⟩ := answered_with_other_work hid hkey settings (.api 0)
    exact hne (hown _ _ _ _ _ (history_stored other) (hashes_stored hid) hrun)
  · intro hwork past s i job s' hpast hfresh hrun
    exact answered_with_own_work hpast hfresh hwork hrun

/-! ### A colon in the id, or in the version -/

def colonInId : VideoDetectRequest :=
  { sampleRequest with videoId := "channel:clip", sourceObjectVersion := "v1", videoId_ne := by decide }

def colonInVersion : VideoDetectRequest :=
  { Content.otherId with
    videoId := "channel", sourceObjectVersion := "clip:v1", videoId_ne := by decide }

theorem colon_moved : colonInId.triple ≠ colonInVersion.triple ∧
    uniqueKeyOf colonInId.triple = uniqueKeyOf colonInVersion.triple ∧
    ∃ past s job s', History past s ∧ s.kv.hashes (jobKey colonInVersion.jobId) = none ∧
      Runs (Answers (.api 0)) (RedisQueue.enqueueVideoJob {} colonInVersion) s (.ok ⟨job, false⟩) s' ∧
      job.triple = colonInId.triple := by
  have hid : colonInId.jobId ≠ colonInVersion.jobId := by decide
  have hkey : uniqueKeyOf colonInId.triple = uniqueKeyOf colonInVersion.triple := by decide
  obtain ⟨s', hrun⟩ := answered_with_other_work hid hkey.symm {} (.api 0)
  exact ⟨by decide, hkey, _, _, _, s', history_stored colonInId, hashes_stored hid, hrun, rfl⟩

end WorkIndex

end NsfwDetector
