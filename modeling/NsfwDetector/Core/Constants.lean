import NsfwDetector.Arith.Double
import Mathlib.Data.Fintype.Pi

/-! # Statuses, categories and settings -/

namespace NsfwDetector

/-- `datetime.now(UTC)`. Only its order matters here. -/
abbrev Time := Nat

/-! ## Job statuses -/

inductive VideoJobStatus
  | queued
  | processing
  | classified
  | failedRetryable
  | failedTerminal
  | superseded
  deriving DecidableEq, Repr

def VideoJobStatus.value : VideoJobStatus → String
  | queued => "queued"
  | processing => "processing"
  | classified => "classified"
  | failedRetryable => "failed_retryable"
  | failedTerminal => "failed_terminal"
  | superseded => "superseded"

def terminalVideoStatuses : List VideoJobStatus := [.classified, .failedTerminal, .superseded]

abbrev VideoJobStatus.Terminal (s : VideoJobStatus) : Prop := s ∈ terminalVideoStatuses

/-! ## Moderation categories -/

inductive ModerationCategory
  | safe
  | suggestive
  | nudity
  | porn
  | gore
  | violence
  | selfHarm
  | hateOrExtremism
  | drugs
  | unknown
  | sexualMinorContent
  deriving DecidableEq, Repr

def ModerationCategory.value : ModerationCategory → String
  | safe => "safe"
  | suggestive => "suggestive"
  | nudity => "nudity"
  | porn => "porn"
  | gore => "gore"
  | violence => "violence"
  | selfHarm => "self_harm"
  | hateOrExtremism => "hate_or_extremism"
  | drugs => "drugs"
  | unknown => "unknown"
  | sexualMinorContent => "sexual_minor_content"

def moderationCategories : List ModerationCategory :=
  [.safe, .suggestive, .nudity, .porn, .gore, .violence, .selfHarm, .hateOrExtremism, .drugs,
    .unknown, .sexualMinorContent]

/-- `UNSAFE_MODEL_CATEGORIES`: every category but `safe`. -/
def unsafeModelCategories : List ModerationCategory := moderationCategories.filter (· ≠ .safe)

def riskOrder : List ModerationCategory :=
  [.sexualMinorContent, .porn, .nudity, .gore, .violence, .selfHarm, .hateOrExtremism, .drugs,
    .suggestive, .unknown, .safe]

/-- The place of a category in `RISK_ORDER`; the riskiest is at 0. -/
def riskRank (c : ModerationCategory) : Nat := riskOrder.idxOf c

@[simp] theorem mem_moderationCategories (c : ModerationCategory) : c ∈ moderationCategories := by
  cases c <;> decide

@[simp] theorem mem_unsafeModelCategories (c : ModerationCategory) :
    c ∈ unsafeModelCategories ↔ c ≠ .safe := by
  simp [unsafeModelCategories]

instance : Fintype ModerationCategory :=
  ⟨moderationCategories.toFinset, fun c => List.mem_toFinset.mpr (mem_moderationCategories c)⟩

theorem riskRank_lt_safe (c : ModerationCategory) (h : c ≠ .safe) : riskRank c < riskRank .safe := by
  cases c <;> first | decide | exact absurd rfl h

/-! ## Settings -/

/-- The fields of `Settings` that the modelled code reads, with their defaults. -/
structure Settings where
  internalRequestHmacSecret : Option String := none
  internalRequestMaxSkewSec : Int := 300
  queueMaxAttempts : Int := 3
  queueReadCount : Int := 1
  kvrocksClusterEnabled : Bool := true
  kvrocksPoolMaxAttempts : Int := 3
  kvrocksPoolRetryBaseDelaySeconds : Double := Double.ofRat (1 / 20)
  frameBatchSize : Int := 5
  gpuMaxAttempts : Int := 3
  gpuRetryBaseDelaySeconds : Double := .finite (1 / 4)
  imageMaxBytes : Int := 10 * 1024 * 1024
  videoTempRoot : String := "/tmp/nsfw"
  moveThreshold : ℚ := 4 / 5
  visualPromptVersion : String := "visual_batch_moderation_v1"
  imagePromptVersion : String := "image_generation_moderation_v1"
  imageTextPromptVersion : String := "image_prompt_generation_moderation_v1"
  textPromptVersion : String := "text_moderation_v1"
  aggregationVersion : String := "hard_any_frame_v1"
  modelProvider : String := "openai-compatible"
  apiBaseUrl : Option String := none
  apiKey : Option String := none
  modelName : Option String := none
  modelVersion : Option String := none
  storjInterfaceUrl : Option String := none
  storjInterfaceToken : Option String := none
  clickhouseBufferVideoResultsKey : String := "nsfw:clickhouse_buffer:video_results"
  clickhouseBufferLegacyKey : String := "nsfw:clickhouse_buffer:legacy_nsfw_agg"
  clickhouseBufferStorageActionsKey : String := "nsfw:clickhouse_buffer:storage_actions"
  runtimeNsfwKeyPrefix : String := "offchain:video_nsfw:"

/-- What Python calls true of an optional string. -/
def truthy : Option String → Bool
  | some s => s ≠ ""
  | none => false

/-- `StorjInterfaceClient` refuses to call out without a URL and a token. -/
def Settings.StorjConfigured (settings : Settings) : Prop :=
  truthy settings.storjInterfaceUrl ∧ truthy settings.storjInterfaceToken

def Settings.isGpuConfigured (settings : Settings) : Bool :=
  truthy settings.apiBaseUrl && truthy settings.apiKey && truthy settings.modelName

instance (settings : Settings) : Decidable settings.StorjConfigured :=
  inferInstanceAs (Decidable (_ ∧ _))

end NsfwDetector
