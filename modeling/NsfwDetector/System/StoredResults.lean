import NsfwDetector.Arith.Double
import NsfwDetector.System.FrameRows

/-!
# The stored verdict reads back

The table of verdicts has no column for the maxima of the categories. They are stored inside
`final_response` only, under a key that the writer and the reader both spell out.
-/

namespace NsfwDetector.StoredResults

open FrameRows

/-! ## Objects -/

inductive Object
  | none
  | bool (b : Bool)
  | int (n : Int)
  | float (x : ℚ)
  | str (s : String)
  | datetime (t : Time)
  | list (items : List Object)
  | dict (members : List (String × Object))

namespace Object

/-- `type(value).__name__` -/
def typeName : Object → String
  | none => "NoneType"
  | bool _ => "bool"
  | int _ => "int"
  | float _ => "float"
  | str _ => "str"
  | datetime _ => "datetime"
  | list _ => "list"
  | dict _ => "dict"

/-- `bool(value)` -/
def truthy : Object → Bool
  | none => false
  | bool b => b
  | int n => n != 0
  | float x => x != 0
  | str s => s != ""
  | datetime _ => true
  | list items => !items.isEmpty
  | dict members => !members.isEmpty

/-- `value or {}` -/
def orEmptyDict (value : Option Object) : Object :=
  let value := value.getD none
  if value.truthy then value else dict []

/-- `int(value)`, where `intOfStr` reads a text. -/
def toInt (intOfStr : String → Except PyException Int) : Object → Except PyException Int
  | int n => .ok n
  | bool b => .ok (if b then 1 else 0)
  | float x => .ok (Double.truncate x)
  | str s => intOfStr s
  | value => .error (.other "TypeError"
      s!"int() argument must be a string, a bytes-like object or a real number, not '{value.typeName}'")

/-- `value.items()` -/
def items : Object → Except PyException (List (String × Object))
  | dict members => .ok members
  | value => .error (.other "AttributeError" s!"'{value.typeName}' object has no attribute 'items'")

end Object

/-- `VideoModerationResult`, with any object in each of its fields. -/
structure Result where
  jobId : Object
  videoId : Object
  policyVersion : Object
  promptVersion : Object
  aggregationVersion : Object
  finalIsNsfw : Object
  finalScore : Object
  finalTopCategory : Object
  maxOverallSeverity : Object
  nsfwFrameCount : Object
  totalFrameCount : Object
  moveRequired : Object
  moveThreshold : Object
  maxCategorySeverities : List (String × Int)
  legacyNsfwEc : Object
  legacyNsfwGore : Object
  finalResponse : Object
  createdAt : Object
  updatedAt : Object

/-! ## The writer -/

/-- A frame with the dictionary of its scores. -/
structure ScoredFrame where
  record : FrameModerationResult
  categories : List (String × Int)

/-- `scores.get(key, 0)` -/
def scoreOr0 (scores : List (String × Int)) (key : String) : Int := (scores.lookup key).getD 0

def mapLegacyNsfwGore (maxCategorySeverities : List (String × Int)) : String :=
  let severity := max (scoreOr0 maxCategorySeverities "gore") (scoreOr0 maxCategorySeverities "violence")
  if severity ≥ 5 then "VERY_LIKELY"
  else if severity ≥ 4 then "LIKELY"
  else if severity ≥ 3 then "POSSIBLE"
  else if severity ≥ 1 then "UNLIKELY"
  else "VERY_UNLIKELY"

def aggregate (settings : Settings) (jobId videoId policyVersion : String) (frames : List ScoredFrame)
    (now : Time) : Except PyException Result :=
  if frames = [] then .error (.valueError "cannot aggregate an empty frame list")
  else
    let records := frames.map (·.record)
    let maxCategorySeverities := moderationCategories.map fun category =>
      (category.value, ((frames.map fun frame => scoreOr0 frame.categories category.value).max?).getD 0)
    let nsfwFrameCount := records.countP frameIsNsfw
    let maxOverallSeverity := maxOver (·.overallSeverity) records
    let finalIsNsfw := decide (nsfwFrameCount > 0)
    let finalScore : ℚ := maxOverallSeverity / 5
    let finalTopCategory := selectTopCategory records
    let moveRequired := decide (finalScore ≥ settings.moveThreshold)
    let finalResponse := [
      ("final_is_nsfw", .bool finalIsNsfw),
      ("final_score", .float finalScore),
      ("final_top_category", .str finalTopCategory.value),
      ("max_overall_severity", .int maxOverallSeverity),
      ("nsfw_frame_count", .int nsfwFrameCount),
      ("total_frame_count", .int frames.length),
      ("move_required", .bool moveRequired),
      ("max_category_severities", .dict (maxCategorySeverities.map fun (key, n) => (key, .int n)))]
    .ok {
      jobId := .str jobId
      videoId := .str videoId
      policyVersion := .str policyVersion
      promptVersion := .str settings.visualPromptVersion
      aggregationVersion := .str settings.aggregationVersion
      finalIsNsfw := .bool finalIsNsfw
      finalScore := .float finalScore
      finalTopCategory := .str finalTopCategory.value
      maxOverallSeverity := .int maxOverallSeverity
      nsfwFrameCount := .int nsfwFrameCount
      totalFrameCount := .int frames.length
      moveRequired := .bool moveRequired
      moveThreshold := .float settings.moveThreshold
      maxCategorySeverities := maxCategorySeverities
      legacyNsfwEc := .str (mapLegacyNsfwEc finalTopCategory)
      legacyNsfwGore := .str (mapLegacyNsfwGore maxCategorySeverities)
      finalResponse := .dict finalResponse
      createdAt := .datetime now
      updatedAt := .datetime now }

abbrev Row := List (String × Object)

def videoResultToRow (result : Result) : Row :=
  [("job_id", result.jobId),
    ("video_id", result.videoId),
    ("policy_version", result.policyVersion),
    ("prompt_version", result.promptVersion),
    ("aggregation_version", result.aggregationVersion),
    ("final_is_nsfw", result.finalIsNsfw),
    ("final_score", result.finalScore),
    ("final_top_category", result.finalTopCategory),
    ("max_overall_severity", result.maxOverallSeverity),
    ("nsfw_frame_count", result.nsfwFrameCount),
    ("total_frame_count", result.totalFrameCount),
    ("move_required", result.moveRequired),
    ("move_threshold", result.moveThreshold),
    ("legacy_nsfw_ec", result.legacyNsfwEc),
    ("legacy_nsfw_gore", result.legacyNsfwGore),
    ("final_response", result.finalResponse),
    ("created_at", result.createdAt),
    ("updated_at", result.updatedAt)]

/-! ## The reader -/

/-- `data[column]` -/
def column (data : Row) (key : String) : Except PyException Object :=
  match data.lookup key with
  | some value => .ok value
  | none => .error (.other "KeyError" s!"'{key}'")

/-- The maxima that the reader digs out of `final_response`. -/
def maximaOf (intOfStr : String → Except PyException Int) (finalResponse : Object) :
    Except PyException (List (String × Int)) := do
  let raw := match finalResponse with
    | .dict members => Object.orEmptyDict (members.lookup "max_category_severities")
    | _ => .dict []
  let members ← raw.items
  members.mapM fun (category, severity) => do pure (category, ← severity.toInt intOfStr)

def rowToVideoResult (intOfStr : String → Except PyException Int) (data : Row) :
    Except PyException Result := do
  let finalResponse := Object.orEmptyDict (data.lookup "final_response")
  let maxCategorySeverities ← maximaOf intOfStr finalResponse
  let jobId ← column data "job_id"
  let videoId ← column data "video_id"
  let policyVersion ← column data "policy_version"
  let promptVersion ← column data "prompt_version"
  let aggregationVersion ← column data "aggregation_version"
  let finalIsNsfw ← column data "final_is_nsfw"
  let finalScore ← column data "final_score"
  let finalTopCategory ← column data "final_top_category"
  let maxOverallSeverity ← column data "max_overall_severity"
  let nsfwFrameCount ← column data "nsfw_frame_count"
  let totalFrameCount ← column data "total_frame_count"
  let moveRequired ← column data "move_required"
  let moveThreshold ← column data "move_threshold"
  let legacyNsfwEc ← column data "legacy_nsfw_ec"
  let legacyNsfwGore ← column data "legacy_nsfw_gore"
  let createdAt ← column data "created_at"
  let updatedAt ← column data "updated_at"
  pure {
    jobId, videoId, policyVersion, promptVersion, aggregationVersion, finalIsNsfw, finalScore,
    finalTopCategory, maxOverallSeverity, nsfwFrameCount, totalFrameCount, moveRequired, moveThreshold,
    maxCategorySeverities, legacyNsfwEc, legacyNsfwGore, finalResponse, createdAt, updatedAt }

/-! ## The objects of the typed records -/

/-- The dictionary of the scores, in the order of `MODERATION_CATEGORIES`. -/
def scoreDict (scores : Scores) : List (String × Int) :=
  moderationCategories.map fun category => (category.value, scores category)

def document (response : FinalResponse) : List (String × Object) :=
  [("final_is_nsfw", .bool response.finalIsNsfw),
    ("final_score", .float response.finalScore),
    ("final_top_category", .str response.finalTopCategory.value),
    ("max_overall_severity", .int response.maxOverallSeverity),
    ("nsfw_frame_count", .int response.nsfwFrameCount),
    ("total_frame_count", .int response.totalFrameCount),
    ("move_required", .bool response.moveRequired),
    ("max_category_severities",
      .dict ((scoreDict response.maxCategorySeverities).map fun (key, n) => (key, .int n)))]

def objects (result : VideoModerationResult) : Result where
  jobId := .str result.jobId
  videoId := .str result.videoId
  policyVersion := .str result.policyVersion
  promptVersion := .str result.promptVersion
  aggregationVersion := .str result.aggregationVersion
  finalIsNsfw := .bool result.finalIsNsfw
  finalScore := .float result.finalScore
  finalTopCategory := .str result.finalTopCategory.value
  maxOverallSeverity := .int result.maxOverallSeverity
  nsfwFrameCount := .int result.nsfwFrameCount
  totalFrameCount := .int result.totalFrameCount
  moveRequired := .bool result.moveRequired
  moveThreshold := .float result.moveThreshold
  maxCategorySeverities := scoreDict result.maxCategorySeverities
  legacyNsfwEc := .str result.legacyNsfwEc
  legacyNsfwGore := .str result.legacyNsfwGore
  finalResponse := .dict (document result.finalResponse)
  createdAt := .datetime result.createdAt
  updatedAt := .datetime result.updatedAt

def columns (row : VideoResultRow) : Row :=
  [("job_id", .str row.jobId), ("video_id", .str row.videoId), ("policy_version", .str row.policyVersion),
    ("prompt_version", .str row.promptVersion), ("aggregation_version", .str row.aggregationVersion),
    ("final_is_nsfw", .bool row.finalIsNsfw), ("final_score", .float row.finalScore),
    ("final_top_category", .str row.finalTopCategory.value),
    ("max_overall_severity", .int row.maxOverallSeverity),
    ("nsfw_frame_count", .int row.nsfwFrameCount), ("total_frame_count", .int row.totalFrameCount),
    ("move_required", .bool row.moveRequired), ("move_threshold", .float row.moveThreshold),
    ("legacy_nsfw_ec", .str row.legacyNsfwEc), ("legacy_nsfw_gore", .str row.legacyNsfwGore),
    ("final_response", .dict (document row.finalResponse)), ("created_at", .datetime row.createdAt),
    ("updated_at", .datetime row.updatedAt)]

/-! ## The writer writes the typed rows -/

section

variable {scores : Scores} {frames : List ScoredFrame}

theorem scoreOr0_scoreDict (category : ModerationCategory) :
    scoreOr0 (scoreDict scores) category.value = scores category := by
  cases category <;> rfl

theorem mapLegacyNsfwGore_scoreDict :
    mapLegacyNsfwGore (scoreDict scores) = NsfwDetector.mapLegacyNsfwGore scores := by
  have hgore : scoreOr0 (scoreDict scores) "gore" = scores .gore := scoreOr0_scoreDict .gore
  have hviolence : scoreOr0 (scoreDict scores) "violence" = scores .violence := scoreOr0_scoreDict .violence
  simp only [mapLegacyNsfwGore, NsfwDetector.mapLegacyNsfwGore, hgore, hviolence]
  norm_cast

/-- The dictionary is that of an item that the schema accepts. -/
def ScoredFrame.Accepted (laxInt : Json.Value → Option Int) (frame : ScoredFrame) : Prop :=
  ∃ item, FromItem laxInt item frame.record ∧ categoriesOf laxInt item = some frame.categories

theorem ScoredFrame.Accepted.scoreOr0_eq {laxInt : Json.Value → Option Int} {frame : ScoredFrame}
    (h : frame.Accepted laxInt) (category : ModerationCategory) :
    scoreOr0 frame.categories category.value = frame.record.categories category := by
  obtain ⟨item, hitem, hread⟩ := h
  obtain ⟨categories, hread', hlookup⟩ := categoriesOf_accepted hitem.accepted
  obtain rfl := Option.some.inj (hread.symm.trans hread')
  rw [scoreOr0, hlookup, hitem.categories, Option.getD_some]

theorem max?_scores (hne : frames ≠ []) {f : ScoredFrame → Int} {g : FrameModerationResult → Nat}
    (h : ∀ frame ∈ frames, f frame = g frame.record) :
    (frames.map f).max? = some (maxOver g (frames.map (·.record)) : Int) := by
  have hrecords : frames.map (·.record) ≠ [] := by simpa using hne
  refine List.max?_eq_some_iff.mpr ⟨?_, fun n hn => ?_⟩
  · obtain ⟨record, hrecord, hmax⟩ := exists_maxOver (f := g) hrecords
    obtain ⟨frame, hframe, rfl⟩ := List.mem_map.mp hrecord
    exact List.mem_map.mpr ⟨frame, hframe, by rw [h frame hframe, hmax]⟩
  · obtain ⟨frame, hframe, rfl⟩ := List.mem_map.mp hn
    rw [h frame hframe]
    exact Int.ofNat_le.mpr (le_maxOver (List.mem_map_of_mem hframe))

theorem aggregate_objects {laxInt : Json.Value → Option Int}
    (haccepted : ∀ frame ∈ frames, frame.Accepted laxInt) (settings : Settings)
    (jobId videoId policyVersion : String) (now : Time) :
    aggregate settings jobId videoId policyVersion frames now =
      (NsfwDetector.aggregate settings jobId videoId policyVersion (frames.map (·.record)) now).map
        objects := by
  by_cases hne : frames = []
  · subst hne
    rfl
  · have hmaxima : (moderationCategories.map fun category => (category.value,
        ((frames.map fun frame => scoreOr0 frame.categories category.value).max?).getD 0)) =
        scoreDict fun category => maxOver (·.categories category) (frames.map (·.record)) := by
      refine List.map_congr_left fun category _ => ?_
      have hscores := fun frame hframe => (haccepted frame hframe).scoreOr0_eq category
      rw [max?_scores (g := (·.categories category)) hne hscores, Option.getD_some]
    rw [aggregate_eq_ok _ _ _ _ _ _ (by simpa using hne), aggregate, if_neg hne]
    simp only [hmaxima, mapLegacyNsfwGore_scoreDict]
    simp [Except.map, objects, aggregated, document]

end

theorem videoResultToRow_objects (result : VideoModerationResult) :
    videoResultToRow (objects result) = columns (NsfwDetector.videoResultToRow result) := rfl

/-! ## The reader reads the typed rows -/

section

variable (intOfStr : String → Except PyException Int)

theorem mapM_toInt (scores : List (String × Int)) :
    (scores.map fun (key, n) => (key, Object.int n)).mapM (fun (category, severity) => do
      pure (category, ← severity.toInt intOfStr)) = .ok scores :=
  Raising.mapM_eq_ok.mpr (List.forall₂_map_left_iff.mpr (List.forall₂_same.mpr fun _ _ => rfl))

/-- The reader finds the maxima where the writer puts them. -/
theorem maximaOf_document (response : FinalResponse) :
    maximaOf intOfStr (.dict (document response)) = .ok (scoreDict response.maxCategorySeverities) :=
  mapM_toInt intOfStr (scoreDict response.maxCategorySeverities)

theorem rowToVideoResult_columns (row : VideoResultRow) :
    rowToVideoResult intOfStr (columns row) = .ok (objects (NsfwDetector.rowToVideoResult row)) := by
  have hresponse : Object.orEmptyDict ((columns row).lookup "final_response") =
      .dict (document row.finalResponse) := rfl
  rw [rowToVideoResult, hresponse, maximaOf_document]
  rfl

/-- The maxima of an aggregate and those of its `final_response` are the same. -/
theorem rowToVideoResult_aggregated (settings : Settings) (jobId videoId policyVersion : String)
    (records : List FrameModerationResult) (now : Time) :
    NsfwDetector.rowToVideoResult
        (NsfwDetector.videoResultToRow (aggregated settings jobId videoId policyVersion records now)) =
      aggregated settings jobId videoId policyVersion records now := rfl

end

/-- An aggregate that is stored reads back in all of its fields. -/
theorem stored_result_reads_back (laxInt : Json.Value → Option Int)
    (intOfStr : String → Except PyException Int) (settings : Settings)
    (jobId videoId policyVersion : String) (now : Time) {frames : List ScoredFrame} (hne : frames ≠ [])
    (haccepted : ∀ frame ∈ frames, frame.Accepted laxInt) :
    ∃ result, aggregate settings jobId videoId policyVersion frames now = .ok result ∧
      rowToVideoResult intOfStr (videoResultToRow result) = .ok result ∧
      result = objects (aggregated settings jobId videoId policyVersion (frames.map (·.record)) now) := by
  have hrecords : frames.map (·.record) ≠ [] := by simpa using hne
  refine ⟨_, ?_, ?_, rfl⟩
  · rw [aggregate_objects haccepted, aggregate_eq_ok _ _ _ _ _ _ hrecords]
    rfl
  · rw [videoResultToRow_objects, rowToVideoResult_columns, rowToVideoResult_aggregated]

def scoredFrame : ScoredFrame where
  record := bracketFrame
  categories := moderationCategories.map fun c => (c.value, if c = .porn then 4 else 0)

theorem scoredFrame_accepted : scoredFrame.Accepted asInt :=
  ⟨bracketItem 0 .porn, ⟨bracketItem_accepted, rfl, rfl⟩, rfl⟩

theorem porn_result_reads_back : ∃ result,
    aggregate {} "job:1" "video" "v1" [scoredFrame] 7 = .ok result ∧
      rowToVideoResult (fun s => .error (.valueError s)) (videoResultToRow result) = .ok result ∧
      result = objects (aggregated {} "job:1" "video" "v1" [bracketFrame] 7) :=
  stored_result_reads_back asInt (fun s => .error (.valueError s)) {} "job:1" "video" "v1" 7
    (List.cons_ne_nil _ _) (List.forall_mem_singleton.mpr scoredFrame_accepted)

end NsfwDetector.StoredResults
