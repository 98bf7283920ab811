import NsfwDetector.Moderation.Aggregation
import Mathlib.Tactic.Linarith
import Mathlib.Tactic.NormNum
import Mathlib.Tactic.Positivity

/-!
# What the video verdict says about the frames

The verdict is read off two things: the score of each frame's top category, and the block
thresholds. The validator leaves the score of `safe` free, so the first can speak of safe content.
-/

namespace NsfwDetector.Verdict

/-- The frames that accepted model outputs become. -/
def modelFrames (outputs : List (ExtractedFrame × FrameModerationOutput)) :
    List FrameModerationResult :=
  outputs.map fun (source, output) => toFrameModerationResult source output

/-- A frame whose fields come from an accepted output. -/
structure FromModel (frame : FrameModerationResult) : Prop where
  safe_iff : frame.topCategory = .safe ↔ maxUnsafeSeverity frame.categories = 0
  severity_safe : frame.topCategory = .safe → frame.overallSeverity = frame.categories .safe
  severity_eq_max : frame.topCategory ≠ .safe →
    frame.overallSeverity = maxUnsafeSeverity frame.categories
  nsfw_eq : frame.isNsfw = computeIsNsfw frame.categories
  severity_le : ∀ c, frame.categories c ≤ 5

theorem fromModel (source : ExtractedFrame) (output : FrameModerationOutput) :
    FromModel (toFrameModerationResult source output) where
  safe_iff := output.safe_iff
  severity_safe := output.overallSeverity_of_safe
  severity_eq_max h := (output.overallSeverity_eq_max h).1
  nsfw_eq := rfl
  severity_le := output.severity_le

theorem fromModel_of_mem {outputs : List (ExtractedFrame × FrameModerationOutput)}
    {frame : FrameModerationResult} (h : frame ∈ modelFrames outputs) : FromModel frame := by
  obtain ⟨⟨source, output⟩, -, rfl⟩ := List.mem_map.mp h
  exact fromModel source output

theorem modelFrames_ne_nil {outputs : List (ExtractedFrame × FrameModerationOutput)}
    (h : outputs ≠ []) : modelFrames outputs ≠ [] := by
  simpa [modelFrames] using h

/-! ## Severity -/

def videoMaxUnsafe (frames : List FrameModerationResult) : Nat :=
  maxOver (fun frame => maxUnsafeSeverity frame.categories) frames

section Frames

variable {frames : List FrameModerationResult}

theorem unsafe_zero_iff : videoMaxUnsafe frames = 0 ↔
    ∀ frame ∈ frames, ∀ c, c ≠ .safe → frame.categories c = 0 := by
  rw [← Nat.le_zero, videoMaxUnsafe, maxOver_le_iff]
  refine forall₂_congr fun frame _ => ?_
  rw [maxUnsafe_le_iff]
  simp only [Nat.le_zero]

variable (hmodel : ∀ frame ∈ frames, FromModel frame)

include hmodel

theorem all_safe_iff : (∀ frame ∈ frames, frame.topCategory = .safe) ↔ videoMaxUnsafe frames = 0 := by
  rw [← Nat.le_zero, videoMaxUnsafe, maxOver_le_iff]
  constructor
  · intro h frame hframe
    exact le_of_eq ((hmodel frame hframe).safe_iff.mp (h frame hframe))
  · intro h frame hframe
    exact (hmodel frame hframe).safe_iff.mpr (Nat.le_zero.mp (h frame hframe))

theorem unsafe_le_severity : videoMaxUnsafe frames ≤ maxOver (·.overallSeverity) frames := by
  apply maxOver_mono
  intro frame hframe
  by_cases hsafe : frame.topCategory = .safe
  · rw [(hmodel frame hframe).safe_iff.mp hsafe]
    exact Nat.zero_le _
  · exact le_of_eq ((hmodel frame hframe).severity_eq_max hsafe).symm

/-- The overall severity is the unsafe one as long as no safe frame scores `safe` above it. -/
theorem severity_eq_unsafe_iff : maxOver (·.overallSeverity) frames = videoMaxUnsafe frames ↔
    ∀ frame ∈ frames, frame.topCategory = .safe → frame.categories .safe ≤ videoMaxUnsafe frames := by
  constructor
  · intro heq frame hframe hsafe
    rw [← (hmodel frame hframe).severity_safe hsafe, ← heq]
    exact le_maxOver hframe
  · intro hbound
    refine le_antisymm ((maxOver_le_iff _).mpr ?_) (unsafe_le_severity hmodel)
    intro frame hframe
    by_cases hsafe : frame.topCategory = .safe
    · rw [(hmodel frame hframe).severity_safe hsafe]
      exact hbound frame hframe hsafe
    · rw [(hmodel frame hframe).severity_eq_max hsafe]
      exact le_maxOver (f := fun frame => maxUnsafeSeverity frame.categories) hframe

/-- With unsafe content and no safe score above it, an unsafe category is selected. -/
theorem selectTopCategory_ne_safe (hne : frames ≠ []) (hpos : 0 < videoMaxUnsafe frames)
    (heq : maxOver (·.overallSeverity) frames = videoMaxUnsafe frames) :
    selectTopCategory frames ≠ .safe := by
  intro htop
  obtain ⟨frame, hframe, hmax⟩ :=
    exists_maxOver (f := fun frame => maxUnsafeSeverity frame.categories) hne
  have hunsafe : frame.topCategory ≠ .safe := by
    intro hsafe
    rw [(hmodel frame hframe).safe_iff.mp hsafe] at hmax
    have : videoMaxUnsafe frames = 0 := hmax.symm
    omega
  have hsev : frame.overallSeverity = maxOver (·.overallSeverity) frames := by
    rw [(hmodel frame hframe).severity_eq_max hunsafe, heq]
    exact hmax
  have hrank := (selectTopCategory_spec hne).2 frame hframe hsev
  rw [htop] at hrank
  have := riskRank_lt_safe frame.topCategory hunsafe
  omega

theorem selectTopCategory_safe (hne : frames ≠ []) (hzero : videoMaxUnsafe frames = 0) :
    selectTopCategory frames = .safe := by
  obtain ⟨frame, hframe, -, htop⟩ := (selectTopCategory_spec hne).1
  rw [htop]
  exact (all_safe_iff hmodel).mpr hzero frame hframe

end Frames

/-! ## The severity speaks of unsafe content -/

/-- What the verdict says when only unsafe content counts. -/
structure SeverityFromUnsafe (frames : List FrameModerationResult) (result : VideoModerationResult) :
    Prop where
  severity : result.maxOverallSeverity = videoMaxUnsafe frames
  score : result.finalScore = (videoMaxUnsafe frames : ℚ) / 5
  top : result.finalTopCategory = .safe ↔
    ∀ frame ∈ frames, ∀ c, c ≠ .safe → frame.categories c = 0
  clean : (∀ frame ∈ frames, frame.topCategory = .safe) →
    result.finalScore = 0 ∧ result.moveRequired = false

/-- No safe frame scores `safe` above the unsafe content of the video, and a clean video stays
under the move threshold. -/
def SafeScoresBounded (settings : Settings) (frames : List FrameModerationResult) : Prop :=
  (∀ frame ∈ frames, frame.topCategory = .safe → frame.categories .safe ≤ videoMaxUnsafe frames) ∧
    (videoMaxUnsafe frames = 0 → 0 < settings.moveThreshold)

theorem severity_from_unsafe_iff (settings : Settings) (jobId videoId policyVersion : String)
    (outputs : List (ExtractedFrame × FrameModerationOutput)) (now : Time) (h : outputs ≠ []) :
    ∃ result, aggregate settings jobId videoId policyVersion (modelFrames outputs) now = .ok result ∧
      (SeverityFromUnsafe (modelFrames outputs) result ↔
        SafeScoresBounded settings (modelFrames outputs)) := by
  have hne := modelFrames_ne_nil h
  have hmodel : ∀ frame ∈ modelFrames outputs, FromModel frame := fun _ => fromModel_of_mem
  refine ⟨_, aggregate_eq_ok settings jobId videoId policyVersion _ now hne, ?_⟩
  constructor
  · intro hsev
    refine ⟨(severity_eq_unsafe_iff hmodel).mp hsev.severity, fun hzero => ?_⟩
    obtain ⟨hscore, hmove⟩ := hsev.clean ((all_safe_iff hmodel).mpr hzero)
    have hlt := of_decide_eq_false hmove
    rw [← hscore]
    exact not_le.mp hlt
  · rintro ⟨hbound, hthreshold⟩
    have heq := (severity_eq_unsafe_iff hmodel).mpr hbound
    refine ⟨heq, congrArg (fun n : Nat => (n : ℚ) / 5) heq, ?_, fun hsafe => ?_⟩
    · rw [← unsafe_zero_iff]
      constructor
      · intro htop
        by_contra hzero
        exact selectTopCategory_ne_safe hmodel hne (Nat.pos_of_ne_zero hzero) heq htop
      · exact selectTopCategory_safe hmodel hne
    · have hzero := (all_safe_iff hmodel).mp hsafe
      have hscore : (aggregated settings jobId videoId policyVersion (modelFrames outputs)
          now).finalScore = 0 := by
        simp only [aggregated]
        rw [heq, hzero]
        norm_num
      refine ⟨hscore, decide_eq_false (not_le.mpr ?_)⟩
      exact lt_of_eq_of_lt hscore (hthreshold hzero)

/-- The output of one frame that scores only one category. -/
def soleCategory (category : ModerationCategory) (severity : Nat) : Scores :=
  fun c => if c = category then severity else 0

/-- A safe frame whose score for `safe` is 5. -/
def surelySafe : FrameModerationOutput where
  topCategory := .safe
  categories := soleCategory .safe 5
  reason := "nothing unsafe"
  severity_le := by decide
  top_matches := by decide
  frameIndex := 0

def firstFrame : ExtractedFrame := ⟨0, 0, "frame-000001.jpg"⟩

/-- A video of one safe frame gets the score 1 and is to be moved. -/
theorem surely_safe_moved : ∃ result,
    aggregate {} "job" "video" "nsfw_policy_v1" (modelFrames [(firstFrame, surelySafe)]) 0 = .ok result ∧
      result.finalScore = 1 ∧ result.moveRequired = true ∧ ¬ SeverityFromUnsafe
        (modelFrames [(firstFrame, surelySafe)]) result := by
  refine ⟨_, rfl, by decide +kernel, by decide +kernel, fun h => ?_⟩
  exact absurd h.severity (by decide +kernel)

/-- A frame of pornography: the condition holds, and so does the verdict. -/
def pornOutput : FrameModerationOutput where
  topCategory := .porn
  categories := soleCategory .porn 5
  reason := "explicit"
  severity_le := by decide
  top_matches := by decide
  frameIndex := 0

theorem severity_from_unsafe_porn : ∃ result,
    aggregate {} "job" "video" "nsfw_policy_v1" (modelFrames [(firstFrame, pornOutput)]) 0 = .ok result ∧
      (SeverityFromUnsafe (modelFrames [(firstFrame, pornOutput)]) result ↔
        SafeScoresBounded {} (modelFrames [(firstFrame, pornOutput)])) :=
  severity_from_unsafe_iff {} "job" "video" "nsfw_policy_v1" [(firstFrame, pornOutput)] 0 (by simp)

/-! ## Moved and not safe for work -/

/-- Some frame scores 4 in a category that blocks at 5 only, and nothing blocks. -/
def BorderlineOnly (frames : List FrameModerationResult) : Prop :=
  (∃ frame ∈ frames, frame.categories .suggestive = 4 ∨ frame.categories .nudity = 4) ∧
    ∀ frame ∈ frames, computeIsNsfw frame.categories = false

/-- Below every block threshold a score is at most 3, or it is 4 and of one of the two. -/
theorem score_of_not_nsfw {categories : Scores} (h : computeIsNsfw categories = false)
    {c : ModerationCategory} (hc : c ≠ .safe) (h4 : 4 ≤ categories c) :
    categories c = 4 ∧ (c = .suggestive ∨ c = .nudity) := by
  simp only [computeIsNsfw, categoryBlockThresholds, List.any_cons, List.any_nil, Bool.or_false,
    Bool.or_eq_false_iff, decide_eq_false_iff_not, ge_iff_le, not_le] at h
  cases c <;> simp_all <;> omega

theorem borderline_iff {frames : List FrameModerationResult} : BorderlineOnly frames ↔
    4 ≤ videoMaxUnsafe frames ∧ ∀ frame ∈ frames, computeIsNsfw frame.categories = false := by
  constructor
  · rintro ⟨⟨frame, hframe, hscore⟩, hall⟩
    refine ⟨?_, hall⟩
    have hle : maxUnsafeSeverity frame.categories ≤ videoMaxUnsafe frames :=
      le_maxOver (f := fun frame => maxUnsafeSeverity frame.categories) hframe
    rcases hscore with hs | hn
    · have := score_le_maxUnsafe frame.categories (c := .suggestive) (by decide)
      omega
    · have := score_le_maxUnsafe frame.categories (c := .nudity) (by decide)
      omega
  · rintro ⟨h4, hall⟩
    refine ⟨?_, hall⟩
    by_contra hnone
    push Not at hnone
    have hle : videoMaxUnsafe frames ≤ 3 := by
      refine (maxOver_le_iff 3).mpr fun frame hframe => (maxUnsafe_le_iff _ 3).mpr fun c hc => ?_
      by_contra hlt
      obtain ⟨heq, hs | hn⟩ := score_of_not_nsfw (hall frame hframe) hc (by omega)
      · exact (hnone frame hframe).1 (hs ▸ heq)
      · exact (hnone frame hframe).2 (hn ▸ heq)
    omega

theorem not_nsfw_iff {frames : List FrameModerationResult}
    (hmodel : ∀ frame ∈ frames, FromModel frame) : frames.countP frameIsNsfw = 0 ↔
    ∀ frame ∈ frames, computeIsNsfw frame.categories = false := by
  rw [List.countP_eq_zero]
  refine forall₂_congr fun frame hframe => ?_
  rw [frameIsNsfw, (hmodel frame hframe).nsfw_eq, Bool.not_eq_true]

theorem score_reaches_iff (n : Nat) : (4 / 5 : ℚ) ≤ (n : ℚ) / 5 ↔ 4 ≤ n := by
  rw [div_le_div_iff_of_pos_right (by norm_num)]
  exact_mod_cast Iff.rfl

/-- With the default threshold, a moved video is also flagged, but for the borderline case. -/
theorem moved_implies_nsfw_iff (settings : Settings) (jobId videoId policyVersion : String)
    (outputs : List (ExtractedFrame × FrameModerationOutput)) (now : Time) (h : outputs ≠ [])
    (hthreshold : settings.moveThreshold = 4 / 5)
    (hsafe : ∀ frame ∈ modelFrames outputs, frame.categories .safe = 0) :
    ∃ result, aggregate settings jobId videoId policyVersion (modelFrames outputs) now = .ok result ∧
      ((result.moveRequired = true → result.finalIsNsfw = true) ↔
        ¬ BorderlineOnly (modelFrames outputs)) := by
  have hne := modelFrames_ne_nil h
  have hmodel : ∀ frame ∈ modelFrames outputs, FromModel frame := fun _ => fromModel_of_mem
  refine ⟨_, aggregate_eq_ok settings jobId videoId policyVersion _ now hne, ?_⟩
  have heq := (severity_eq_unsafe_iff hmodel).mpr fun frame hframe _ => by
    rw [hsafe frame hframe]
    exact Nat.zero_le _
  have hmove : (aggregated settings jobId videoId policyVersion (modelFrames outputs)
      now).moveRequired = true ↔ 4 ≤ videoMaxUnsafe (modelFrames outputs) := by
    simp only [aggregated, decide_eq_true_eq, ge_iff_le, hthreshold, heq]
    exact score_reaches_iff _
  have hnsfw : (aggregated settings jobId videoId policyVersion (modelFrames outputs)
      now).finalIsNsfw = true ↔ ¬ ∀ frame ∈ modelFrames outputs, computeIsNsfw frame.categories = false := by
    rw [← not_nsfw_iff hmodel]
    simp only [aggregated, decide_eq_true_eq]
    omega
  rw [hmove, hnsfw, borderline_iff, not_and]

def nudityOutput : FrameModerationOutput where
  topCategory := .nudity
  categories := soleCategory .nudity 4
  reason := "partial nudity"
  severity_le := by decide
  top_matches := by decide
  frameIndex := 0

/-- It is moved, and no row calls it unsafe. -/
theorem nudity_moved_not_nsfw : ∃ result,
    aggregate {} "job" "video" "nsfw_policy_v1" (modelFrames [(firstFrame, nudityOutput)]) 0 = .ok result ∧
      (∀ frame ∈ modelFrames [(firstFrame, nudityOutput)], frame.categories .safe = 0) ∧
      result.moveRequired = true ∧ result.finalIsNsfw = false := by
  refine ⟨_, rfl, ?_, by decide +kernel, by decide +kernel⟩
  simp only [modelFrames, List.map_cons, List.map_nil, List.mem_singleton, forall_eq]
  decide

theorem moved_implies_nsfw_porn : ∃ result,
    aggregate {} "job" "video" "nsfw_policy_v1" (modelFrames [(firstFrame, pornOutput)]) 0 = .ok result ∧
      ((result.moveRequired = true → result.finalIsNsfw = true) ↔
        ¬ BorderlineOnly (modelFrames [(firstFrame, pornOutput)])) :=
  moved_implies_nsfw_iff {} "job" "video" "nsfw_policy_v1" [(firstFrame, pornOutput)] 0 (by simp) rfl (by
    simp only [modelFrames, List.map_cons, List.map_nil, List.mem_singleton, forall_eq]
    decide)

end NsfwDetector.Verdict
