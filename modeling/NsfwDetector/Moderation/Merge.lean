import NsfwDetector.Moderation.Verdict
import Mathlib.Order.Basic

/-!
# Verdicts of parts of a video

A verdict over some frames and a verdict over others determine the verdict over all of them. The
merge neither asks which part came first nor how the parts were grouped.
-/

namespace NsfwDetector.Merge

/-! ## Levels of gore -/

/-- What `legacy_nsfw_gore` may say, the mildest first. -/
inductive GoreLevel
  | veryUnlikely
  | unlikely
  | possible
  | likely
  | veryLikely
  deriving DecidableEq, Repr

namespace GoreLevel

def value : GoreLevel → String
  | veryUnlikely => "VERY_UNLIKELY"
  | unlikely => "UNLIKELY"
  | possible => "POSSIBLE"
  | likely => "LIKELY"
  | veryLikely => "VERY_LIKELY"

def rank : GoreLevel → Nat
  | veryUnlikely => 0
  | unlikely => 1
  | possible => 2
  | likely => 3
  | veryLikely => 4

theorem rank_injective : Function.Injective rank := by
  intro a b h
  cases a <;> cases b <;> first | rfl | exact absurd h (by decide)

instance : LinearOrder GoreLevel := LinearOrder.lift' rank rank_injective

/-- The level of the larger of the scores for gore and violence. -/
def ofSeverity (severity : Nat) : GoreLevel :=
  if severity ≥ 5 then veryLikely
  else if severity ≥ 4 then likely
  else if severity ≥ 3 then possible
  else if severity ≥ 1 then unlikely
  else veryUnlikely

theorem ofSeverity_mono : Monotone ofSeverity := by
  intro m n h
  unfold ofSeverity
  split_ifs <;> first | omega | decide

end GoreLevel

theorem mapLegacyNsfwGore_eq (scores : Scores) : mapLegacyNsfwGore scores =
    (GoreLevel.ofSeverity (max (scores .gore) (scores .violence))).value := by
  unfold mapLegacyNsfwGore GoreLevel.ofSeverity
  simp only [apply_ite GoreLevel.value]
  rfl

/-! ## Peaks -/

theorem riskRank_injective : Function.Injective riskRank := by
  intro a b h
  cases a <;> cases b <;> first | rfl | exact absurd h (by decide)

/-- The highest severity of some frames, with the category that it is put down to. -/
@[ext]
structure Peak where
  severity : Nat
  category : ModerationCategory

namespace Peak

def key (peak : Peak) : Nat ×ₗ Int := toLex (peak.severity, -(riskRank peak.category : Int))

theorem key_injective : Function.Injective key := by
  intro a b h
  obtain ⟨hsev, hrank⟩ := Prod.mk.inj (toLex.injective h)
  have hnat : riskRank a.category = riskRank b.category := by omega
  exact Peak.ext hsev (riskRank_injective hnat)

instance : LinearOrder Peak := LinearOrder.lift' key key_injective

theorem le_iff (a b : Peak) : a ≤ b ↔ a.severity < b.severity ∨
    (a.severity = b.severity ∧ riskRank b.category ≤ riskRank a.category) := by
  have hkey : a ≤ b ↔ a.key ≤ b.key := Iff.rfl
  rw [hkey, Prod.Lex.le_iff]
  unfold key
  simp

end Peak

/-! ## Verdict fields -/

/-- The fields of a result that depend on the frames. -/
@[ext]
structure VerdictFields where
  maxCategorySeverities : Scores
  maxOverallSeverity : Nat
  finalScore : ℚ
  finalIsNsfw : Bool
  moveRequired : Bool
  nsfwFrameCount : Nat
  totalFrameCount : Nat
  finalTopCategory : ModerationCategory
  legacyNsfwEc : String
  legacyNsfwGore : GoreLevel

namespace VerdictFields

/-- The category of the side with the higher severity. `RISK_ORDER` decides between equals. -/
def mergeTop (a b : VerdictFields) : ModerationCategory :=
  if a.maxOverallSeverity < b.maxOverallSeverity then b.finalTopCategory
  else if b.maxOverallSeverity < a.maxOverallSeverity then a.finalTopCategory
  else if riskRank a.finalTopCategory ≤ riskRank b.finalTopCategory then a.finalTopCategory
  else b.finalTopCategory

def merge (a b : VerdictFields) : VerdictFields where
  maxCategorySeverities c := max (a.maxCategorySeverities c) (b.maxCategorySeverities c)
  maxOverallSeverity := max a.maxOverallSeverity b.maxOverallSeverity
  finalScore := max a.finalScore b.finalScore
  finalIsNsfw := a.finalIsNsfw || b.finalIsNsfw
  moveRequired := a.moveRequired || b.moveRequired
  nsfwFrameCount := a.nsfwFrameCount + b.nsfwFrameCount
  totalFrameCount := a.totalFrameCount + b.totalFrameCount
  finalTopCategory := mergeTop a b
  legacyNsfwEc := mapLegacyNsfwEc (mergeTop a b)
  legacyNsfwGore := max a.legacyNsfwGore b.legacyNsfwGore

def peak (a : VerdictFields) : Peak := ⟨a.maxOverallSeverity, a.finalTopCategory⟩

theorem peak_merge (a b : VerdictFields) : (a.merge b).peak = max a.peak b.peak := by
  rcases le_total a.peak b.peak with h | h
  · rw [max_eq_right h]
    rcases (Peak.le_iff _ _).mp h with hlt | ⟨heq, hrank⟩
    · simp only [peak, merge, mergeTop] at hlt ⊢
      rw [if_pos hlt, max_eq_right (le_of_lt hlt)]
    · simp only [peak, merge, mergeTop] at heq hrank ⊢
      rw [heq, if_neg (lt_irrefl _), if_neg (lt_irrefl _), max_self]
      split_ifs with hle
      · rw [riskRank_injective (le_antisymm hle hrank)]
      · rfl
  · rw [max_eq_left h]
    rcases (Peak.le_iff _ _).mp h with hlt | ⟨heq, hrank⟩
    · simp only [peak, merge, mergeTop] at hlt ⊢
      rw [if_neg (not_lt_of_gt hlt), if_pos hlt, max_eq_left (le_of_lt hlt)]
    · simp only [peak, merge, mergeTop] at heq hrank ⊢
      rw [heq, if_neg (lt_irrefl _), if_neg (lt_irrefl _), if_pos hrank, max_self]

theorem mergeTop_eq (a b : VerdictFields) : mergeTop a b = (max a.peak b.peak).category := by
  rw [← peak_merge]
  rfl

theorem merge_comm (a b : VerdictFields) : a.merge b = b.merge a := by
  have htop : mergeTop a b = mergeTop b a := by rw [mergeTop_eq, mergeTop_eq, max_comm]
  unfold merge
  rw [htop]
  simp only [max_comm, add_comm, Bool.or_comm]

theorem merge_assoc (a b c : VerdictFields) : (a.merge b).merge c = a.merge (b.merge c) := by
  have htop : mergeTop (a.merge b) c = mergeTop a (b.merge c) := by
    rw [mergeTop_eq, mergeTop_eq, peak_merge, peak_merge, max_assoc]
  apply VerdictFields.ext
  · funext category
    exact max_assoc _ _ _
  · exact max_assoc _ _ _
  · exact max_assoc _ _ _
  · exact Bool.or_assoc _ _ _
  · exact Bool.or_assoc _ _ _
  · exact Nat.add_assoc _ _ _
  · exact Nat.add_assoc _ _ _
  · exact htop
  · exact congrArg mapLegacyNsfwEc htop
  · exact max_assoc _ _ _

/-- No field of `b` is milder than in `a`. -/
structure AtMost (a b : VerdictFields) : Prop where
  categories : ∀ c, a.maxCategorySeverities c ≤ b.maxCategorySeverities c
  severity : a.maxOverallSeverity ≤ b.maxOverallSeverity
  score : a.finalScore ≤ b.finalScore
  nsfw : a.finalIsNsfw = true → b.finalIsNsfw = true
  moved : a.moveRequired = true → b.moveRequired = true
  counts : a.nsfwFrameCount ≤ b.nsfwFrameCount ∧ a.totalFrameCount ≤ b.totalFrameCount
  top : a.peak ≤ b.peak
  gore : a.legacyNsfwGore ≤ b.legacyNsfwGore

theorem atMost_merge (a b : VerdictFields) : a.AtMost (a.merge b) where
  categories _ := le_max_left _ _
  severity := le_max_left _ _
  score := le_max_left _ _
  nsfw h := by simp [merge, h]
  moved h := by simp [merge, h]
  counts := ⟨Nat.le_add_right _ _, Nat.le_add_right _ _⟩
  top := by
    rw [peak_merge]
    exact le_max_left _ _
  gore := le_max_left _ _

end VerdictFields

/-! ## The aggregate of parts -/

theorem maxOver_append (f : FrameModerationResult → Nat) (xs ys : List FrameModerationResult) :
    maxOver f (xs ++ ys) = max (maxOver f xs) (maxOver f ys) := by
  apply le_antisymm
  · rw [maxOver_le_iff]
    intro frame hframe
    rcases List.mem_append.mp hframe with hx | hy
    · exact le_max_of_le_left (le_maxOver hx)
    · exact le_max_of_le_right (le_maxOver hy)
  · refine max_le ((maxOver_le_iff _).mpr ?_) ((maxOver_le_iff _).mpr ?_)
    · intro frame hframe
      exact le_maxOver (List.mem_append_left _ hframe)
    · intro frame hframe
      exact le_maxOver (List.mem_append_right _ hframe)

theorem maxOver_perm (f : FrameModerationResult → Nat) {xs ys : List FrameModerationResult}
    (h : xs.Perm ys) : maxOver f xs = maxOver f ys := by
  apply le_antisymm
  · exact (maxOver_le_iff _).mpr fun frame hframe => le_maxOver (h.mem_iff.mp hframe)
  · exact (maxOver_le_iff _).mpr fun frame hframe => le_maxOver (h.mem_iff.mpr hframe)

def framePeak (frame : FrameModerationResult) : Peak := ⟨frame.overallSeverity, frame.topCategory⟩

/-- What the two selections of `_select_top_category` arrive at. -/
def framesPeak (frames : List FrameModerationResult) : Peak :=
  ⟨maxOver (·.overallSeverity) frames, selectTopCategory frames⟩

theorem exists_framesPeak {frames : List FrameModerationResult} (h : frames ≠ []) :
    ∃ frame ∈ frames, framePeak frame = framesPeak frames := by
  obtain ⟨frame, hframe, hsev, htop⟩ := (selectTopCategory_spec h).1
  refine ⟨frame, hframe, ?_⟩
  unfold framePeak framesPeak
  rw [hsev, htop]

theorem framePeak_le {frames : List FrameModerationResult} {frame : FrameModerationResult}
    (h : frame ∈ frames) : framePeak frame ≤ framesPeak frames := by
  have hsev : frame.overallSeverity ≤ maxOver (·.overallSeverity) frames := le_maxOver h
  rw [Peak.le_iff]
  rcases lt_or_eq_of_le hsev with hlt | heq
  · exact Or.inl hlt
  · exact Or.inr ⟨heq, (selectTopCategory_spec (List.ne_nil_of_mem h)).2 frame h heq⟩

/-- The two-step selection finds the greatest peak, so it depends on the set of peaks only. -/
theorem framesPeak_le_iff {frames : List FrameModerationResult} (h : frames ≠ []) (peak : Peak) :
    framesPeak frames ≤ peak ↔ ∀ frame ∈ frames, framePeak frame ≤ peak := by
  constructor
  · intro hle frame hframe
    exact le_trans (framePeak_le hframe) hle
  · intro hall
    obtain ⟨frame, hframe, heq⟩ := exists_framesPeak h
    rw [← heq]
    exact hall frame hframe

theorem framesPeak_append {xs ys : List FrameModerationResult} (hx : xs ≠ []) (hy : ys ≠ []) :
    framesPeak (xs ++ ys) = max (framesPeak xs) (framesPeak ys) := by
  apply eq_of_forall_ge_iff
  intro peak
  rw [framesPeak_le_iff (by simp [hx]), max_le_iff, framesPeak_le_iff hx, framesPeak_le_iff hy]
  simp only [List.mem_append, or_imp, forall_and]

theorem framesPeak_perm {xs ys : List FrameModerationResult} (hx : xs ≠ []) (h : xs.Perm ys) :
    framesPeak xs = framesPeak ys := by
  have hy : ys ≠ [] := fun hnil => hx (List.Perm.eq_nil (hnil ▸ h))
  apply eq_of_forall_ge_iff
  intro peak
  rw [framesPeak_le_iff hx, framesPeak_le_iff hy]
  simp only [h.mem_iff]

def fieldsOf (settings : Settings) (frames : List FrameModerationResult) : VerdictFields where
  maxCategorySeverities c := maxOver (·.categories c) frames
  maxOverallSeverity := maxOver (·.overallSeverity) frames
  finalScore := (maxOver (·.overallSeverity) frames : ℚ) / 5
  finalIsNsfw := decide (frames.countP frameIsNsfw > 0)
  moveRequired := decide ((maxOver (·.overallSeverity) frames : ℚ) / 5 ≥ settings.moveThreshold)
  nsfwFrameCount := frames.countP frameIsNsfw
  totalFrameCount := frames.length
  finalTopCategory := selectTopCategory frames
  legacyNsfwEc := mapLegacyNsfwEc (selectTopCategory frames)
  legacyNsfwGore := GoreLevel.ofSeverity
    (max (maxOver (·.categories .gore) frames) (maxOver (·.categories .violence) frames))

theorem fieldsOf_append (settings : Settings) {xs ys : List FrameModerationResult} (hx : xs ≠ [])
    (hy : ys ≠ []) :
    fieldsOf settings (xs ++ ys) = (fieldsOf settings xs).merge (fieldsOf settings ys) := by
  have htop : selectTopCategory (xs ++ ys) =
      VerdictFields.mergeTop (fieldsOf settings xs) (fieldsOf settings ys) := by
    rw [VerdictFields.mergeTop_eq]
    exact congrArg Peak.category (framesPeak_append hx hy)
  have hscore : ((maxOver (·.overallSeverity) (xs ++ ys) : Nat) : ℚ) / 5 =
      max ((maxOver (·.overallSeverity) xs : ℚ) / 5) ((maxOver (·.overallSeverity) ys : ℚ) / 5) := by
    rw [maxOver_append, Nat.cast_max, max_div_div_right (by norm_num)]
  apply VerdictFields.ext
  · funext c
    exact maxOver_append _ _ _
  · exact maxOver_append _ _ _
  · exact hscore
  · simp only [fieldsOf, VerdictFields.merge, List.countP_append, ← Bool.decide_or]
    exact decide_eq_decide.mpr (by omega)
  · simp only [fieldsOf, VerdictFields.merge, hscore, ge_iff_le, le_max_iff, Bool.decide_or]
  · exact List.countP_append
  · exact List.length_append
  · exact htop
  · exact congrArg mapLegacyNsfwEc htop
  · simp only [fieldsOf, VerdictFields.merge, maxOver_append]
    rw [← GoreLevel.ofSeverity_mono.map_max, max_max_max_comm]

/-! ## Results that show the fields -/

/-- The result carries the fields, and so does its document `final_response`. -/
structure Shows (result : VideoModerationResult) (fields : VerdictFields) : Prop where
  maxCategorySeverities : result.maxCategorySeverities = fields.maxCategorySeverities
  maxOverallSeverity : result.maxOverallSeverity = fields.maxOverallSeverity
  finalScore : result.finalScore = fields.finalScore
  finalIsNsfw : result.finalIsNsfw = fields.finalIsNsfw
  moveRequired : result.moveRequired = fields.moveRequired
  nsfwFrameCount : result.nsfwFrameCount = fields.nsfwFrameCount
  totalFrameCount : result.totalFrameCount = fields.totalFrameCount
  finalTopCategory : result.finalTopCategory = fields.finalTopCategory
  legacyNsfwEc : result.legacyNsfwEc = fields.legacyNsfwEc
  legacyNsfwGore : result.legacyNsfwGore = fields.legacyNsfwGore.value
  finalResponse : result.finalResponse =
    { finalIsNsfw := fields.finalIsNsfw
      finalScore := fields.finalScore
      finalTopCategory := fields.finalTopCategory
      maxOverallSeverity := fields.maxOverallSeverity
      nsfwFrameCount := fields.nsfwFrameCount
      totalFrameCount := fields.totalFrameCount
      moveRequired := fields.moveRequired
      maxCategorySeverities := fields.maxCategorySeverities }

theorem shows_fieldsOf (settings : Settings) (jobId videoId policyVersion : String)
    (frames : List FrameModerationResult) (now : Time) :
    Shows (aggregated settings jobId videoId policyVersion frames now) (fieldsOf settings frames) where
  maxCategorySeverities := rfl
  maxOverallSeverity := rfl
  finalScore := rfl
  finalIsNsfw := rfl
  moveRequired := rfl
  nsfwFrameCount := rfl
  totalFrameCount := rfl
  finalTopCategory := rfl
  legacyNsfwEc := rfl
  legacyNsfwGore := mapLegacyNsfwGore_eq fun c => maxOver (·.categories c) frames
  finalResponse := rfl

theorem aggregate_perm (settings : Settings) (jobId videoId policyVersion : String)
    {xs ys : List FrameModerationResult} (now : Time) (h : xs.Perm ys) :
    aggregate settings jobId videoId policyVersion xs now =
      aggregate settings jobId videoId policyVersion ys now := by
  by_cases hx : xs = []
  · subst hx
    rw [List.nil_perm.mp h]
  · have hy : ys ≠ [] := fun hnil => hx (List.Perm.eq_nil (hnil ▸ h))
    rw [aggregate_eq_ok _ _ _ _ _ _ hx, aggregate_eq_ok _ _ _ _ _ _ hy]
    have htop : selectTopCategory xs = selectTopCategory ys :=
      congrArg Peak.category (framesPeak_perm hx h)
    have hmax : ∀ f, maxOver f xs = maxOver f ys := fun f => maxOver_perm f h
    simp only [aggregated, htop, hmax, h.countP_eq frameIsNsfw, h.length_eq]

/-- The results over `xs`, over `ys` and over both, made at any three times, show `a`, `b` and their
merge. -/
def Merges (settings : Settings) (jobId videoId policyVersion : String)
    (xs ys : List FrameModerationResult) : Prop :=
  ∃ a b : VerdictFields, a.AtMost (a.merge b) ∧ b.AtMost (a.merge b) ∧
    ∀ (frames : List FrameModerationResult) (fields : VerdictFields) (now : Time),
      (frames, fields) ∈ [(xs, a), (ys, b), (xs ++ ys, a.merge b)] →
        ∃ result, aggregate settings jobId videoId policyVersion frames now = .ok result ∧
          Shows result fields

/-- The verdict over all frames is the merge of the verdicts over two parts, and the merge asks
neither for an order nor for a grouping. -/
theorem aggregate_append (settings : Settings) (jobId videoId policyVersion : String)
    (xs ys : List FrameModerationResult) (hx : xs ≠ []) (hy : ys ≠ []) :
    Merges settings jobId videoId policyVersion xs ys ∧
    (∀ a b : VerdictFields, a.merge b = b.merge a) ∧
    (∀ a b c : VerdictFields, (a.merge b).merge c = a.merge (b.merge c)) ∧
    ∀ (zs : List FrameModerationResult) (now : Time), xs.Perm zs →
      aggregate settings jobId videoId policyVersion xs now =
        aggregate settings jobId videoId policyVersion zs now := by
  refine ⟨⟨fieldsOf settings xs, fieldsOf settings ys, VerdictFields.atMost_merge _ _, ?_, ?_⟩,
    VerdictFields.merge_comm, VerdictFields.merge_assoc, fun zs now h => aggregate_perm _ _ _ _ _ h⟩
  · rw [VerdictFields.merge_comm]
    exact VerdictFields.atMost_merge _ _
  · intro frames fields now hmem
    have hfields : frames ≠ [] ∧ fields = fieldsOf settings frames := by
      rw [← fieldsOf_append settings hx hy] at hmem
      simp only [List.mem_cons, Prod.mk.injEq, List.not_mem_nil, or_false] at hmem
      rcases hmem with ⟨rfl, rfl⟩ | ⟨rfl, rfl⟩ | ⟨rfl, rfl⟩
      · exact ⟨hx, rfl⟩
      · exact ⟨hy, rfl⟩
      · exact ⟨by simp [hx], rfl⟩
    obtain ⟨hne, rfl⟩ := hfields
    exact ⟨_, aggregate_eq_ok _ _ _ _ _ _ hne, shows_fieldsOf _ _ _ _ _ _⟩

/-- A pornographic frame after one of nudity. -/
theorem aggregate_append_nudity_porn : Merges {} "job" "video" "nsfw_policy_v1"
    (Verdict.modelFrames [(Verdict.firstFrame, Verdict.nudityOutput)])
    (Verdict.modelFrames [(Verdict.firstFrame, Verdict.pornOutput)]) :=
  (aggregate_append {} "job" "video" "nsfw_policy_v1" _ _ (by simp [Verdict.modelFrames])
    (by simp [Verdict.modelFrames])).1

end NsfwDetector.Merge
