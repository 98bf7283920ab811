import NsfwDetector.Moderation.Merge
import NsfwDetector.Core.Rows

/-!
# What the maxima over the frames say

The flag can be read back from the maxima, in the result and in the ClickHouse row. The top category
cannot: a frame may name any of the categories that tie in it, and the aggregate sees the named ones.
-/

namespace NsfwDetector.Maxima

open Verdict Merge

/-! ## The flag -/

/-- The ten `max_*_severity` columns. `safe` has none. -/
def columnScores (row : VideoNsfwDetectionRow) : Scores
  | .safe => 0
  | .suggestive => row.maxSuggestiveSeverity
  | .nudity => row.maxNuditySeverity
  | .porn => row.maxPornSeverity
  | .gore => row.maxGoreSeverity
  | .violence => row.maxViolenceSeverity
  | .selfHarm => row.maxSelfHarmSeverity
  | .hateOrExtremism => row.maxHateOrExtremismSeverity
  | .drugs => row.maxDrugsSeverity
  | .unknown => row.maxUnknownSeverity
  | .sexualMinorContent => row.maxSexualMinorContentSeverity

theorem computeIsNsfw_iff (categories : Scores) :
    computeIsNsfw categories = true ↔ ∃ p ∈ categoryBlockThresholds, p.2 ≤ categories p.1 := by
  simp [computeIsNsfw]

theorem threshold_pos {p : ModerationCategory × Nat} (h : p ∈ categoryBlockThresholds) :
    p.1 ≠ .safe ∧ 0 < p.2 := by
  revert p
  decide

theorem computeIsNsfw_congr {a b : Scores} (h : ∀ c, c ≠ .safe → a c = b c) :
    computeIsNsfw a = computeIsNsfw b := by
  rw [Bool.eq_iff_iff, computeIsNsfw_iff, computeIsNsfw_iff]
  refine exists_congr fun p => and_congr_right fun hp => ?_
  rw [h p.1 (threshold_pos hp).1]

theorem columnScores_row (settings : Settings) (job : VideoJob) (metadata : VideoMetadata)
    (frames : List FrameModerationResult) (result : VideoModerationResult)
    (storageAction : Option StorageAction) (now : Time) (c : ModerationCategory) (h : c ≠ .safe) :
    columnScores (toClickhouseVideoRow settings job metadata frames result storageAction now) c =
      result.maxCategorySeverities c := by
  cases c <;> first | rfl | exact absurd rfl h

/-- A positive number is reached by the maximum exactly when some frame reaches it. -/
theorem le_maxOver_iff {f : FrameModerationResult → Nat} {frames : List FrameModerationResult} {n : Nat}
    (hn : 0 < n) : n ≤ maxOver f frames ↔ ∃ frame ∈ frames, n ≤ f frame := by
  constructor
  · intro hle
    by_contra hnone
    push Not at hnone
    have hlt : maxOver f frames ≤ n - 1 := by
      rw [maxOver_le_iff]
      intro frame hframe
      have := hnone frame hframe
      omega
    omega
  · rintro ⟨frame, hframe, hle⟩
    exact le_trans hle (le_maxOver hframe)

/-- The thresholds are positive, so the quantifiers over frames and over categories change places. -/
theorem computeIsNsfw_maxOver (frames : List FrameModerationResult) :
    computeIsNsfw (fun c => maxOver (·.categories c) frames) = true ↔
      ∃ frame ∈ frames, computeIsNsfw frame.categories = true := by
  rw [computeIsNsfw_iff]
  constructor
  · rintro ⟨p, hp, hle⟩
    obtain ⟨frame, hframe, hscore⟩ := (le_maxOver_iff (threshold_pos hp).2).mp hle
    exact ⟨frame, hframe, (computeIsNsfw_iff _).mpr ⟨p, hp, hscore⟩⟩
  · rintro ⟨frame, hframe, hnsfw⟩
    obtain ⟨p, hp, hscore⟩ := (computeIsNsfw_iff _).mp hnsfw
    exact ⟨p, hp, (le_maxOver_iff (threshold_pos hp).2).mpr ⟨frame, hframe, hscore⟩⟩

theorem flag_from_maxima (settings : Settings) (jobId videoId policyVersion : String)
    (outputs : List (ExtractedFrame × FrameModerationOutput)) (now : Time) (h : outputs ≠ []) :
    ∃ result, aggregate settings jobId videoId policyVersion (modelFrames outputs) now = .ok result ∧
      result.finalIsNsfw = computeIsNsfw result.maxCategorySeverities ∧
      (∀ (job : VideoJob) (metadata : VideoMetadata) (storageAction : Option StorageAction) (at_ : Time),
        result.finalIsNsfw = computeIsNsfw (columnScores (toClickhouseVideoRow settings job metadata
          (modelFrames outputs) result storageAction at_))) ∧
      (result.finalIsNsfw = true ↔ ∃ frame ∈ modelFrames outputs,
        ∃ p ∈ categoryBlockThresholds, p.2 ≤ frame.categories p.1) := by
  have hmodel : ∀ frame ∈ modelFrames outputs, FromModel frame := fun _ => fromModel_of_mem
  refine ⟨_, aggregate_eq_ok settings jobId videoId policyVersion _ now (modelFrames_ne_nil h), ?_⟩
  have hflag : (aggregated settings jobId videoId policyVersion (modelFrames outputs)
      now).finalIsNsfw = true ↔ ∃ frame ∈ modelFrames outputs, computeIsNsfw frame.categories = true := by
    have hcount := not_nsfw_iff hmodel
    simp only [aggregated, decide_eq_true_eq, gt_iff_lt, Nat.pos_iff_ne_zero, ne_eq, hcount]
    push Not
    simp only [Bool.not_eq_false]
  have hmax : (aggregated settings jobId videoId policyVersion (modelFrames outputs) now).finalIsNsfw =
      computeIsNsfw (aggregated settings jobId videoId policyVersion (modelFrames outputs)
        now).maxCategorySeverities := by
    rw [Bool.eq_iff_iff, hflag]
    exact (computeIsNsfw_maxOver _).symm
  refine ⟨hmax, fun job metadata storageAction at_ => ?_, ?_⟩
  · rw [hmax]
    exact computeIsNsfw_congr fun c hc => (columnScores_row _ _ _ _ _ _ _ c hc).symm
  · rw [hflag]
    simp only [computeIsNsfw_iff]

theorem flag_from_maxima_porn : ∃ result,
    aggregate {} "job" "video" "nsfw_policy_v1" (modelFrames [(firstFrame, pornOutput)]) 0 = .ok result ∧
      result.finalIsNsfw = computeIsNsfw result.maxCategorySeverities ∧
      (∀ (job : VideoJob) (metadata : VideoMetadata) (storageAction : Option StorageAction) (at_ : Time),
        result.finalIsNsfw = computeIsNsfw (columnScores (toClickhouseVideoRow {} job metadata
          (modelFrames [(firstFrame, pornOutput)]) result storageAction at_))) ∧
      result.finalIsNsfw = true := by
  obtain ⟨result, hresult, hflag, hcolumns, hiff⟩ :=
    flag_from_maxima {} "job" "video" "nsfw_policy_v1" [(firstFrame, pornOutput)] 0 (by simp)
  refine ⟨result, hresult, hflag, hcolumns, hiff.mpr ?_⟩
  exact ⟨_, List.mem_singleton_self _, (.porn, 4), by decide, by decide⟩

/-! ## The top category -/

theorem find_eq_some_of_sorted {α : Type} {key : α → Nat} {p : α → Bool} {l : List α} {c : α}
    (h : l.Pairwise (key · < key ·)) :
    l.find? p = some c ↔ (c ∈ l ∧ p c = true) ∧ ∀ d ∈ l, p d = true → key c ≤ key d := by
  induction l with
  | nil => simp
  | cons a rest ih =>
    obtain ⟨hhead, htail⟩ := List.pairwise_cons.mp h
    by_cases ha : p a = true
    · rw [List.find?_cons_of_pos ha, Option.some.injEq]
      constructor
      · rintro rfl
        refine ⟨⟨List.mem_cons_self, ha⟩, fun d hd _ => ?_⟩
        rcases List.mem_cons.mp hd with rfl | hrest
        · exact le_rfl
        · exact le_of_lt (hhead d hrest)
      · rintro ⟨⟨hc, -⟩, hmin⟩
        rcases List.mem_cons.mp hc with rfl | hrest
        · rfl
        · have := hhead c hrest
          have := hmin a List.mem_cons_self ha
          omega
    · rw [List.find?_cons_of_neg ha, ih htail]
      have hne : ∀ d, p d = true → (d ∈ a :: rest ↔ d ∈ rest) := by
        intro d hd
        rw [List.mem_cons, or_iff_right]
        rintro rfl
        exact ha hd
      refine and_congr ⟨?_, ?_⟩ ⟨fun hmin d hd hpd => ?_, fun hmin d hd => ?_⟩
      · rintro ⟨hc, hpc⟩
        exact ⟨(hne c hpc).mpr hc, hpc⟩
      · rintro ⟨hc, hpc⟩
        exact ⟨(hne c hpc).mp hc, hpc⟩
      · exact hmin d ((hne d hpd).mp hd) hpd
      · exact hmin d (List.mem_cons_of_mem a hd)

theorem riskOrder_sorted : riskOrder.Pairwise (riskRank · < riskRank ·) := by decide

theorem mem_riskOrder (c : ModerationCategory) : c ∈ riskOrder := by
  cases c <;> decide

/-- The first unsafe category in `RISK_ORDER` that satisfies `p`. -/
def firstUnsafe (p : ModerationCategory → Prop) [DecidablePred p] : Option ModerationCategory :=
  riskOrder.find? fun c => c ≠ .safe ∧ p c

theorem firstUnsafe_eq_some (p : ModerationCategory → Prop) [DecidablePred p] (c : ModerationCategory) :
    firstUnsafe p = some c ↔
      (c ≠ .safe ∧ p c) ∧ ∀ d, d ≠ .safe → p d → riskRank c ≤ riskRank d := by
  unfold firstUnsafe
  rw [find_eq_some_of_sorted riskOrder_sorted]
  simp [mem_riskOrder]

/-- In some frame the category reaches the severity of the video. -/
def Reaches (result : VideoModerationResult) (c : ModerationCategory) : Prop :=
  result.maxCategorySeverities c = result.maxOverallSeverity

instance (result : VideoModerationResult) : DecidablePred (Reaches result) := fun c =>
  inferInstanceAs (Decidable (result.maxCategorySeverities c = result.maxOverallSeverity))

/-- Some frame that reaches the severity of the video in the category names it. -/
def Named (frames : List FrameModerationResult) (result : VideoModerationResult)
    (c : ModerationCategory) : Prop :=
  ∃ frame ∈ frames, frame.topCategory = c ∧ frame.categories c = result.maxOverallSeverity

instance (frames : List FrameModerationResult) (result : VideoModerationResult) :
    DecidablePred (Named frames result) := fun c =>
  inferInstanceAs (Decidable (∃ frame ∈ frames, frame.topCategory = c ∧
    frame.categories c = result.maxOverallSeverity))

/-- The riskiest category that reaches the severity of the video is the top category. -/
structure TieBreak (frames : List FrameModerationResult) (result : VideoModerationResult) : Prop where
  first : firstUnsafe (Reaches result) = some result.finalTopCategory
  minor : (∃ frame ∈ frames, frame.categories .sexualMinorContent = result.maxOverallSeverity) →
    result.finalTopCategory = .sexualMinorContent ∧ result.legacyNsfwEc = "explicit"

/-- The riskiest category that some frame names with the severity of the video is the top category. -/
structure NamedTieBreak (frames : List FrameModerationResult) (result : VideoModerationResult) :
    Prop where
  first : firstUnsafe (Named frames result) = some result.finalTopCategory
  minor : Named frames result .sexualMinorContent →
    result.finalTopCategory = .sexualMinorContent ∧ result.legacyNsfwEc = "explicit"

theorem severity_eq_top {outputs : List (ExtractedFrame × FrameModerationOutput)}
    {frame : FrameModerationResult} (h : frame ∈ modelFrames outputs) :
    frame.overallSeverity = frame.categories frame.topCategory := by
  obtain ⟨⟨source, output⟩, -, rfl⟩ := List.mem_map.mp h
  rfl

section Selected

variable {outputs : List (ExtractedFrame × FrameModerationOutput)}
  (hsafe : ∀ frame ∈ modelFrames outputs, frame.categories .safe = 0)
  (hpos : ∃ frame ∈ modelFrames outputs, ∃ c, c ≠ .safe ∧ 0 < frame.categories c)

include hsafe

theorem severity_is_max : maxOver (·.overallSeverity) (modelFrames outputs) =
    videoMaxUnsafe (modelFrames outputs) := by
  apply (severity_eq_unsafe_iff fun _ => fromModel_of_mem).mpr
  intro frame hframe _
  rw [hsafe frame hframe]
  exact Nat.zero_le _

theorem maxOver_category_le {c : ModerationCategory} (hc : c ≠ .safe) :
    maxOver (·.categories c) (modelFrames outputs) ≤
      maxOver (·.overallSeverity) (modelFrames outputs) := by
  rw [severity_is_max hsafe]
  exact maxOver_mono fun frame _ => score_le_maxUnsafe frame.categories hc

include hpos

theorem top_ne_safe : selectTopCategory (modelFrames outputs) ≠ .safe := by
  obtain ⟨frame, hframe, c, hc, hscore⟩ := hpos
  have hle : frame.categories c ≤ videoMaxUnsafe (modelFrames outputs) :=
    le_trans (score_le_maxUnsafe _ hc)
      (le_maxOver (f := fun frame => maxUnsafeSeverity frame.categories) hframe)
  exact selectTopCategory_ne_safe (fun _ => fromModel_of_mem) (List.ne_nil_of_mem hframe) (by omega)
    (severity_is_max hsafe)

variable (settings : Settings) (jobId videoId policyVersion : String) (now : Time)

theorem named_first : firstUnsafe (Named (modelFrames outputs)
    (aggregated settings jobId videoId policyVersion (modelFrames outputs) now)) =
      some (selectTopCategory (modelFrames outputs)) := by
  have hne : modelFrames outputs ≠ [] := List.ne_nil_of_mem hpos.choose_spec.1
  obtain ⟨⟨frame, hframe, hsev, htop⟩, hmin⟩ := selectTopCategory_spec hne
  rw [firstUnsafe_eq_some]
  refine ⟨⟨top_ne_safe hsafe hpos, frame, hframe, htop.symm, ?_⟩, ?_⟩
  · rw [htop, ← severity_eq_top hframe]
    exact hsev
  · rintro d - ⟨other, hother, rfl, hscore⟩
    rw [← severity_eq_top hother] at hscore
    exact hmin other hother hscore

omit hpos

theorem reaches_of_score {c : ModerationCategory} (hc : c ≠ .safe) {frame : FrameModerationResult}
    (hframe : frame ∈ modelFrames outputs)
    (hscore : frame.categories c = maxOver (·.overallSeverity) (modelFrames outputs)) :
    Reaches (aggregated settings jobId videoId policyVersion (modelFrames outputs) now) c := by
  apply le_antisymm (maxOver_category_le hsafe hc)
  exact le_trans (le_of_eq hscore.symm) (le_maxOver (f := (·.categories c)) hframe)

end Selected

/-- The riskiest category is selected among the named ones. It is the riskiest of all that reach the
severity of the video exactly when some frame names that one. -/
theorem top_category_named (settings : Settings) (jobId videoId policyVersion : String)
    (outputs : List (ExtractedFrame × FrameModerationOutput)) (now : Time)
    (hsafe : ∀ frame ∈ modelFrames outputs, frame.categories .safe = 0)
    (hpos : ∃ frame ∈ modelFrames outputs, ∃ c, c ≠ .safe ∧ 0 < frame.categories c) :
    ∃ result, aggregate settings jobId videoId policyVersion (modelFrames outputs) now = .ok result ∧
      NamedTieBreak (modelFrames outputs) result ∧
      (TieBreak (modelFrames outputs) result ↔
        ∃ c, firstUnsafe (Reaches result) = some c ∧ Named (modelFrames outputs) result c) := by
  have hne : modelFrames outputs ≠ [] := List.ne_nil_of_mem hpos.choose_spec.1
  refine ⟨_, aggregate_eq_ok settings jobId videoId policyVersion _ now hne, ?_⟩
  have hfirst := named_first hsafe hpos settings jobId videoId policyVersion now
  obtain ⟨⟨hne', hnamed⟩, hmin⟩ := (firstUnsafe_eq_some _ _).mp hfirst
  -- rank 0 is the rank of sexual_minor_content alone
  have hminor : ∀ top, riskRank top ≤ riskRank .sexualMinorContent →
      top = .sexualMinorContent ∧ mapLegacyNsfwEc top = "explicit" := by decide
  refine ⟨⟨hfirst, fun h => hminor _ (hmin _ (by decide) h)⟩, ?_⟩
  constructor
  · intro hbreak
    exact ⟨_, hbreak.first, hnamed⟩
  · rintro ⟨c, hc, hcnamed⟩
    obtain ⟨⟨hcne, -⟩, hcmin⟩ := (firstUnsafe_eq_some _ _).mp hc
    have heq : c = selectTopCategory (modelFrames outputs) := by
      obtain ⟨frame, hframe, -, hscore⟩ := hnamed
      have hle := hcmin _ hne' (reaches_of_score hsafe _ _ _ _ _ hne' hframe hscore)
      exact riskRank_injective (le_antisymm hle (hmin c hcne hcnamed))
    subst heq
    refine ⟨hc, fun ⟨frame, hframe, hscore⟩ => hminor _ (hcmin _ (by decide) ?_)⟩
    exact reaches_of_score hsafe _ _ _ _ _ (by decide) hframe hscore

/-- A frame that scores 5 twice and names the milder of the two. -/
def tiedOutput : FrameModerationOutput where
  topCategory := .porn
  categories := fun c => if c = .porn ∨ c = .sexualMinorContent then 5 else 0
  reason := "explicit"
  severity_le := by decide
  top_matches := by decide
  frameIndex := 0

theorem tied_frame_milder_top : ∃ result,
    aggregate {} "job" "video" "nsfw_policy_v1" (modelFrames [(firstFrame, tiedOutput)]) 0 = .ok result ∧
      result.finalTopCategory = .porn ∧ firstUnsafe (Reaches result) = some .sexualMinorContent ∧
      ¬ TieBreak (modelFrames [(firstFrame, tiedOutput)]) result := by
  refine ⟨_, rfl, by decide +kernel, by decide +kernel, fun h => ?_⟩
  exact absurd h.first (by decide +kernel)

theorem top_category_named_porn : ∃ result,
    aggregate {} "job" "video" "nsfw_policy_v1" (modelFrames [(firstFrame, tiedOutput)]) 0 = .ok result ∧
      NamedTieBreak (modelFrames [(firstFrame, tiedOutput)]) result := by
  obtain ⟨result, hresult, hnamed, -⟩ := top_category_named {} "job" "video" "nsfw_policy_v1"
    [(firstFrame, tiedOutput)] 0 (by simp [modelFrames, toFrameModerationResult, tiedOutput])
    ⟨_, List.mem_cons_self, .porn, by decide, by decide⟩
  exact ⟨result, hresult, hnamed⟩

end NsfwDetector.Maxima
