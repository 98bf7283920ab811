import NsfwDetector.Core.Errors
import NsfwDetector.Core.Models
import Mathlib.Data.Prod.Lex

/-! # From frames to one verdict for the video -/

namespace NsfwDetector

/-! ## Legacy fields -/

def mapLegacyNsfwEc : ModerationCategory → String
  | .porn => "explicit"
  | .nudity => "nudity"
  | .suggestive => "provocative"
  | .sexualMinorContent => "explicit"
  | _ => "neutral"

def mapLegacyNsfwGore (maxCategorySeverities : Scores) : String :=
  let severity := max (maxCategorySeverities .gore) (maxCategorySeverities .violence)
  if severity ≥ 5 then "VERY_LIKELY"
  else if severity ≥ 4 then "LIKELY"
  else if severity ≥ 3 then "POSSIBLE"
  else if severity ≥ 1 then "UNLIKELY"
  else "VERY_UNLIKELY"

/-! ## The aggregate -/

def frameIsNsfw (frame : FrameModerationResult) : Bool := frame.isNsfw

/-- `max(f(frame) for frame in frames)`, for a non-empty list. -/
def maxOver (f : FrameModerationResult → Nat) (frames : List FrameModerationResult) : Nat :=
  (frames.map f).foldr max 0

/-- Tuples compare as in Python: the first component decides, then the second. -/
instance severityOrder : Preorder (Nat ×ₗ Int) := (Prod.Lex.instLinearOrder Nat Int).toPreorder

/-- The key of the first selection: severity first, then the riskier category. -/
def severityKey (frame : FrameModerationResult) : Nat ×ₗ Int :=
  toLex (frame.overallSeverity, -(riskRank frame.topCategory : Int))

/-- `_select_top_category`, for a non-empty list. -/
def selectTopCategory (frames : List FrameModerationResult) : ModerationCategory :=
  let highestSeverity := ((frames.argmax severityKey).map (·.overallSeverity)).getD 0
  let candidates := (frames.filter (·.overallSeverity = highestSeverity)).map (·.topCategory)
  (candidates.argmin riskRank).getD .safe

/-- The result that `aggregate` builds once it knows that there are frames. -/
def aggregated (settings : Settings) (jobId videoId policyVersion : String)
    (frames : List FrameModerationResult) (now : Time) : VideoModerationResult :=
  let maxCategorySeverities : Scores := fun category => maxOver (·.categories category) frames
  let nsfwFrameCount := frames.countP frameIsNsfw
  let maxOverallSeverity := maxOver (·.overallSeverity) frames
  let finalIsNsfw := decide (nsfwFrameCount > 0)
  let finalScore : ℚ := maxOverallSeverity / 5
  let finalTopCategory := selectTopCategory frames
  let moveRequired := decide (finalScore ≥ settings.moveThreshold)
  { jobId := jobId
    videoId := videoId
    policyVersion := policyVersion
    promptVersion := settings.visualPromptVersion
    aggregationVersion := settings.aggregationVersion
    finalIsNsfw := finalIsNsfw
    finalScore := finalScore
    finalTopCategory := finalTopCategory
    maxOverallSeverity := maxOverallSeverity
    nsfwFrameCount := nsfwFrameCount
    totalFrameCount := frames.length
    moveRequired := moveRequired
    moveThreshold := settings.moveThreshold
    maxCategorySeverities := maxCategorySeverities
    legacyNsfwEc := mapLegacyNsfwEc finalTopCategory
    legacyNsfwGore := mapLegacyNsfwGore maxCategorySeverities
    finalResponse :=
      { finalIsNsfw := finalIsNsfw
        finalScore := finalScore
        finalTopCategory := finalTopCategory
        maxOverallSeverity := maxOverallSeverity
        nsfwFrameCount := nsfwFrameCount
        totalFrameCount := frames.length
        moveRequired := moveRequired
        maxCategorySeverities := maxCategorySeverities }
    createdAt := now
    updatedAt := now }

def aggregate (settings : Settings) (jobId videoId policyVersion : String)
    (frames : List FrameModerationResult) (now : Time) : Except PyException VideoModerationResult :=
  if frames = [] then .error (.valueError "cannot aggregate an empty frame list")
  else .ok (aggregated settings jobId videoId policyVersion frames now)

theorem aggregate_eq_ok (settings : Settings) (jobId videoId policyVersion : String)
    (frames : List FrameModerationResult) (now : Time) (h : frames ≠ []) :
    aggregate settings jobId videoId policyVersion frames now =
      .ok (aggregated settings jobId videoId policyVersion frames now) := by
  simp [aggregate, h]

/-! ## Maxima over frames -/

variable {f g : FrameModerationResult → Nat} {frames : List FrameModerationResult}

theorem le_maxOver {frame : FrameModerationResult} (h : frame ∈ frames) :
    f frame ≤ maxOver f frames :=
  le_foldr_max (List.mem_map_of_mem h)

theorem maxOver_le_iff (n : Nat) : maxOver f frames ≤ n ↔ ∀ frame ∈ frames, f frame ≤ n := by
  simp [maxOver, foldr_max_le_iff]

theorem exists_maxOver (h : frames ≠ []) : ∃ frame ∈ frames, f frame = maxOver f frames := by
  induction frames with
  | nil => exact absurd rfl h
  | cons frame rest ih =>
    have hcons : maxOver f (frame :: rest) = max (f frame) (maxOver f rest) := rfl
    rcases le_total (maxOver f rest) (f frame) with hle | hle
    · exact ⟨frame, List.mem_cons_self, by rw [hcons, max_eq_left hle]⟩
    · by_cases hrest : rest = []
      · subst hrest
        refine ⟨frame, List.mem_cons_self, ?_⟩
        rw [hcons]
        exact (max_eq_left (Nat.zero_le _)).symm
      · obtain ⟨other, hmem, heq⟩ := ih hrest
        exact ⟨other, List.mem_cons_of_mem _ hmem, by rw [heq, hcons, max_eq_right hle]⟩

theorem maxOver_mono (h : ∀ frame ∈ frames, f frame ≤ g frame) :
    maxOver f frames ≤ maxOver g frames :=
  (maxOver_le_iff _).mpr fun frame hframe => le_trans (h frame hframe) (le_maxOver hframe)

/-! ## The selected category -/

theorem highestSeverity_eq (h : frames ≠ []) :
    ((frames.argmax severityKey).map (·.overallSeverity)).getD 0 =
      maxOver (·.overallSeverity) frames := by
  cases hbest : frames.argmax severityKey with
  | none => exact absurd (List.argmax_eq_none.mp hbest) h
  | some best =>
    simp only [Option.map_some, Option.getD_some]
    refine le_antisymm (le_maxOver (List.argmax_mem hbest)) ((maxOver_le_iff _).mpr ?_)
    intro frame hframe
    have hkey : severityKey frame ≤ severityKey best := List.le_of_mem_argmax hframe hbest
    rcases Prod.Lex.le_iff.mp hkey with hlt | ⟨heq, _⟩
    · exact le_of_lt hlt
    · exact le_of_eq heq

/-- The selected category is a top category of some frame of the highest severity, and no such
frame has a riskier one. -/
theorem selectTopCategory_spec (h : frames ≠ []) :
    (∃ frame ∈ frames, frame.overallSeverity = maxOver (·.overallSeverity) frames ∧
      selectTopCategory frames = frame.topCategory) ∧
    ∀ frame ∈ frames, frame.overallSeverity = maxOver (·.overallSeverity) frames →
      riskRank (selectTopCategory frames) ≤ riskRank frame.topCategory := by
  have hcand : selectTopCategory frames = (((frames.filter
      (·.overallSeverity = maxOver (·.overallSeverity) frames)).map (·.topCategory)).argmin
        riskRank).getD .safe := by
    simp only [selectTopCategory, highestSeverity_eq h]
  cases hmin : ((frames.filter (·.overallSeverity = maxOver (·.overallSeverity) frames)).map
      (·.topCategory)).argmin riskRank with
  | none =>
    obtain ⟨frame, hframe, heq⟩ := exists_maxOver (f := (·.overallSeverity)) h
    rw [List.argmin_eq_none] at hmin
    have hmem : frame.topCategory ∈ (frames.filter
        (·.overallSeverity = maxOver (·.overallSeverity) frames)).map (·.topCategory) :=
      List.mem_map_of_mem (List.mem_filter.mpr ⟨hframe, decide_eq_true heq⟩)
    rw [hmin] at hmem
    cases hmem
  | some top =>
    rw [hmin, Option.getD_some] at hcand
    rw [hcand]
    constructor
    · obtain ⟨frame, hframe, rfl⟩ := List.mem_map.mp (List.argmin_mem hmin)
      obtain ⟨hmem, hsev⟩ := List.mem_filter.mp hframe
      exact ⟨frame, hmem, of_decide_eq_true hsev, rfl⟩
    · intro frame hframe hsev
      exact List.le_of_mem_argmin (List.mem_map_of_mem
        (List.mem_filter.mpr ⟨hframe, decide_eq_true hsev⟩)) hmin

end NsfwDetector
