import NsfwDetector.Core.Constants
import Mathlib.Data.List.MinMax
import Mathlib.Order.Nat

/-!
# What the model may say, and what the policy makes of it

`ModerationModelOutput` carries what its validators checked, so every value of the type is one
that the parsers accept.
-/

namespace NsfwDetector

/-- The scores of one frame, one for each category. -/
abbrev Scores := ModerationCategory → Nat

/-! ## Policy -/

/-- `CATEGORY_BLOCK_THRESHOLDS`. The category `safe` has none. -/
def categoryBlockThresholds : List (ModerationCategory × Nat) :=
  [(.porn, 4), (.sexualMinorContent, 3), (.gore, 4), (.violence, 4), (.selfHarm, 4),
    (.hateOrExtremism, 4), (.drugs, 4), (.unknown, 4), (.suggestive, 5), (.nudity, 5)]

def computeOverallSeverity (topCategory : ModerationCategory) (categories : Scores) : Nat :=
  categories topCategory

def computeIsNsfw (categories : Scores) : Bool :=
  categoryBlockThresholds.any fun (category, threshold) => categories category ≥ threshold

/-! ## Model output -/

def maxUnsafeSeverity (categories : Scores) : Nat :=
  (unsafeModelCategories.map categories).foldr max 0

/-- The checks of `top_category_matches_scores`. -/
def TopCategoryMatchesScores (topCategory : ModerationCategory) (categories : Scores) : Prop :=
  if topCategory = .safe then maxUnsafeSeverity categories = 0
  else categories topCategory ≠ 0 ∧ maxUnsafeSeverity categories ≤ categories topCategory

instance (topCategory : ModerationCategory) (categories : Scores) :
    Decidable (TopCategoryMatchesScores topCategory categories) := by
  unfold TopCategoryMatchesScores; infer_instance

structure ModerationModelOutput where
  topCategory : ModerationCategory
  categories : Scores
  reason : String
  /-- `validate_category_scores`: every severity is between 0 and 5. -/
  severity_le : ∀ c, categories c ≤ 5
  top_matches : TopCategoryMatchesScores topCategory categories

structure FrameModerationOutput extends ModerationModelOutput where
  frameIndex : Nat

namespace ModerationModelOutput

def overallSeverity (o : ModerationModelOutput) : Nat :=
  computeOverallSeverity o.topCategory o.categories

def isNsfw (o : ModerationModelOutput) : Bool := computeIsNsfw o.categories

end ModerationModelOutput

/-! ## The largest unsafe score -/

theorem le_foldr_max {l : List Nat} {n : Nat} (h : n ∈ l) : n ≤ l.foldr max 0 :=
  List.le_max_of_le h le_rfl

theorem foldr_max_le_iff {l : List Nat} {n : Nat} : l.foldr max 0 ≤ n ↔ ∀ m ∈ l, m ≤ n :=
  ⟨fun hle _ hm => le_trans (le_foldr_max hm) hle, List.max_le_of_forall_le l n⟩

theorem score_le_maxUnsafe (categories : Scores) {c : ModerationCategory} (h : c ≠ .safe) :
    categories c ≤ maxUnsafeSeverity categories :=
  le_foldr_max (List.mem_map_of_mem ((mem_unsafeModelCategories c).mpr h))

theorem maxUnsafe_le_iff (categories : Scores) (n : Nat) :
    maxUnsafeSeverity categories ≤ n ↔ ∀ c, c ≠ .safe → categories c ≤ n := by
  simp [maxUnsafeSeverity, foldr_max_le_iff]

namespace ModerationModelOutput

variable (o : ModerationModelOutput)

theorem maxUnsafe_of_safe (h : o.topCategory = .safe) : maxUnsafeSeverity o.categories = 0 := by
  simpa [TopCategoryMatchesScores, h] using o.top_matches

/-- An unsafe top category holds the largest unsafe score, and that score is positive. -/
theorem overallSeverity_eq_max (h : o.topCategory ≠ .safe) :
    o.overallSeverity = maxUnsafeSeverity o.categories ∧ 0 < maxUnsafeSeverity o.categories := by
  have hm := o.top_matches
  simp only [TopCategoryMatchesScores, if_neg h] at hm
  have hle := score_le_maxUnsafe o.categories h
  have heq : o.categories o.topCategory = maxUnsafeSeverity o.categories := le_antisymm hle hm.2
  exact ⟨heq, by rw [← heq]; omega⟩

theorem overallSeverity_of_safe (h : o.topCategory = .safe) :
    o.overallSeverity = o.categories .safe := by
  simp [overallSeverity, computeOverallSeverity, h]

theorem overallSeverity_le : o.overallSeverity ≤ 5 := o.severity_le _

theorem safe_iff : o.topCategory = .safe ↔ maxUnsafeSeverity o.categories = 0 := by
  constructor
  · exact o.maxUnsafe_of_safe
  · intro h
    by_contra hne
    have := (o.overallSeverity_eq_max hne).2
    omega

end ModerationModelOutput

end NsfwDetector
