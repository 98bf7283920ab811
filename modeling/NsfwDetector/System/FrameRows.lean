import NsfwDetector.Services.GpuModeration
import NsfwDetector.System.Replay

/-!
# The rows of the frames, column by column

A row is a dictionary of columns, and it takes its severities out of the dictionary of scores that the
model answered. Here the table says of each column what it admits.
-/

namespace NsfwDetector.FrameRows

open Effects Json

/-! ## The table -/

inductive Cell
  | null
  | text (s : String)
  | integer (n : Int)
  | double (x : ℚ)
  | boolean (b : Bool)
  | jsonb (document : FrameModerationOutput)

abbrev Row := List (String × Cell)

structure Column where
  name : String
  nullable : Bool := false
  serverDefault : Bool := false
  /-- The bounds of a `BETWEEN`. -/
  between : Option (Int × Int) := none

/-- `_severity_columns` -/
def severityColumns : List String :=
  ["overall_severity", "safe_severity", "suggestive_severity", "nudity_severity", "porn_severity",
    "gore_severity", "violence_severity", "self_harm_severity", "hate_or_extremism_severity",
    "drugs_severity", "unknown_severity", "sexual_minor_content_severity"]

def nsfwFrameResults : List Column :=
  [{ name := "frame_id" }, { name := "job_id" }, { name := "video_id" }, { name := "frame_index" },
    { name := "frame_timestamp_seconds" }, { name := "frame_hash", nullable := true },
    { name := "prompt_version" }, { name := "model_provider" }, { name := "model_name" },
    { name := "model_version", nullable := true }, { name := "top_category" }, { name := "is_nsfw" }] ++
  severityColumns.map (fun column => { name := column, between := some (0, 5) }) ++
  [{ name := "reason" }, { name := "raw_response" }, { name := "created_at", serverDefault := true }]

/-- A column that is left out gets its default, or null. -/
def Column.Admits (column : Column) (row : Row) : Prop :=
  match row.lookup column.name with
  | none => column.serverDefault = true ∨ column.nullable = true
  | some .null => column.nullable = true
  | some (.integer n) => ∀ bounds ∈ column.between, bounds.1 ≤ n ∧ n ≤ bounds.2
  | some _ => column.between = none

/-! ## The row -/

/-- `categories[key]` -/
def severityAt (categories : List (String × Int)) (key : String) : Except PyException Cell :=
  match categories.lookup key with
  | some n => .ok (.integer n)
  | none => .error (.other "KeyError" s!"'{key}'")

def optionalText : Option String → Cell
  | some s => .text s
  | none => .null

def frameResultToRow (jobId videoId promptVersion modelProvider modelName : String)
    (modelVersion : Option String) (frame : FrameModerationResult) (categories : List (String × Int)) :
    Except PyException Row := do
  let safe ← severityAt categories "safe"
  let suggestive ← severityAt categories "suggestive"
  let nudity ← severityAt categories "nudity"
  let porn ← severityAt categories "porn"
  let gore ← severityAt categories "gore"
  let violence ← severityAt categories "violence"
  let selfHarm ← severityAt categories "self_harm"
  let hateOrExtremism ← severityAt categories "hate_or_extremism"
  let drugs ← severityAt categories "drugs"
  let unknown ← severityAt categories "unknown"
  let sexualMinorContent ← severityAt categories "sexual_minor_content"
  pure [
    ("frame_id", .text (frameId jobId frame.frameIndex)),
    ("job_id", .text jobId),
    ("video_id", .text videoId),
    ("frame_index", .integer frame.frameIndex),
    ("frame_timestamp_seconds", .double frame.frameTimestampSeconds),
    ("frame_hash", .null),
    ("prompt_version", .text promptVersion),
    ("model_provider", .text modelProvider),
    ("model_name", .text modelName),
    ("model_version", optionalText modelVersion),
    ("top_category", .text frame.topCategory.value),
    ("is_nsfw", .boolean frame.isNsfw),
    ("overall_severity", .integer frame.overallSeverity),
    ("safe_severity", safe),
    ("suggestive_severity", suggestive),
    ("nudity_severity", nudity),
    ("porn_severity", porn),
    ("gore_severity", gore),
    ("violence_severity", violence),
    ("self_harm_severity", selfHarm),
    ("hate_or_extremism_severity", hateOrExtremism),
    ("drugs_severity", drugs),
    ("unknown_severity", unknown),
    ("sexual_minor_content_severity", sexualMinorContent),
    ("reason", .text frame.reason),
    ("raw_response", .jsonb frame.rawResponse)]

/-- The dictionary that the schema makes of the scores of an item. -/
def categoriesOf (laxInt : Value → Option Int) (item : Value) : Option (List (String × Int)) := do
  let fields ← membersOf item
  intDictOf laxInt (← fields.lookup "categories")

/-! ## The dictionary of an accepted item -/

variable {laxInt : Value → Option Int} {item : Value}

theorem intDictOf_lookup {v : Value} {categories : List (String × Int)}
    {scores : { scores : Scores // ∀ category, scores category ≤ 5 }}
    (hcategories : intDictOf laxInt v = some categories)
    (hscores : validateCategoryScores categories = some scores) (category : ModerationCategory) :
    categories.lookup category.value = some (scores.1 category : Int) := by
  obtain ⟨members, hmembers, hmap⟩ := Option.bind_eq_some_iff.mp hcategories
  obtain rfl := membersOf_eq_some.mp hmembers
  rw [(intDictOf_spec hmap).2]
  exact (scoresRead_of_validate hcategories hscores).scores category

theorem categoriesOf_model {model : ModerationModelOutput}
    (h : ModerationModelOutput.modelValidate laxInt item = some model) :
    ∃ categories, categoriesOf laxInt item = some categories ∧
      ∀ category : ModerationCategory,
        categories.lookup category.value = some (model.categories category : Int) := by
  simp only [ModerationModelOutput.modelValidate, Option.bind_eq_bind, Option.bind_eq_some_iff] at h
  obtain ⟨fields, hfields, _, -, topCategory, -, v, hv, categories, hdict, scores, hscores, _, -, reason, -,
    h⟩ := h
  split at h
  · cases h
    have hread : categoriesOf laxInt item = some categories := by
      rw [categoriesOf, hfields, Option.bind_eq_bind, Option.bind_some, hv]
      exact hdict
    exact ⟨categories, hread, intDictOf_lookup hdict hscores⟩
  · cases h

/-- The dictionary of an accepted item has each category, with its score. -/
theorem categoriesOf_accepted {output : FrameModerationOutput}
    (h : FrameModerationOutput.modelValidate laxInt item = some output) :
    ∃ categories, categoriesOf laxInt item = some categories ∧
      ∀ category : ModerationCategory,
        categories.lookup category.value = some (output.categories category : Int) := by
  simp only [FrameModerationOutput.modelValidate, Option.bind_eq_bind, Option.bind_eq_some_iff] at h
  obtain ⟨model, hmodel, _, -, _, -, frameIndex, -, h⟩ := h
  split at h
  · cases h
  · cases h
    exact categoriesOf_model hmodel

/-! ## The frames of a run -/

/-- The frame has the fields of the output for the item. -/
structure FromItem (laxInt : Value → Option Int) (item : Value) (frame : FrameModerationResult) : Prop where
  accepted : FrameModerationOutput.modelValidate laxInt item = some frame.rawResponse
  categories : frame.categories = frame.rawResponse.categories
  overallSeverity : frame.overallSeverity = frame.rawResponse.overallSeverity

/-- Frames of `frames`, each with its item. -/
structure Moderated (laxInt : Value → Option Int) (frames : List ExtractedFrame)
    (results : List FrameModerationResult) : Prop where
  resultsOf : ResultsOf frames results
  items : ∀ result ∈ results, ∃ item, FromItem laxInt item result

theorem moderated_nil : Moderated laxInt [] [] := ⟨resultsOf_nil, fun _ h => absurd h List.not_mem_nil⟩

theorem Moderated.append {frames frames' : List ExtractedFrame}
    {results results' : List FrameModerationResult} (h : Moderated laxInt frames results)
    (h' : Moderated laxInt frames' results') : Moderated laxInt (frames ++ frames') (results ++ results') where
  resultsOf := h.resultsOf.append h'.resultsOf
  items result hr := (List.mem_append.mp hr).elim (h.items result) (h'.items result)

/-- Every output of the parser is for an item that the schema accepts. -/
theorem item_of_parsed {rawResponse : String} {expectedCount : Int} {outputs : List FrameModerationOutput}
    (h : parseVisualBatchResponse laxInt rawResponse expectedCount = .ok outputs)
    {output : FrameModerationOutput} (hmem : output ∈ outputs) :
    ∃ item, FrameModerationOutput.modelValidate laxInt item = some output := by
  obtain ⟨payload, items, -, -, -, hframes⟩ := parseVisualBatchResponse_ok.mp h
  obtain ⟨i, hi, rfl⟩ := List.getElem_of_mem hmem
  obtain ⟨hlength, hvalid⟩ := List.forall₂_iff_get.mp (parseFrames_ok.mp hframes).1
  exact ⟨_, hvalid i (hlength ▸ hi) hi⟩

variable {self : GpuModerationService}

theorem batchAttempt_within (frames : List ExtractedFrame) :
    (self.batchAttempt laxInt frames).Within (fun _ => True) (Moderated laxInt frames) := by
  refine .bind (.perform _ trivial) fun rawResponse _ => ?_
  refine .bind (.done _) fun parsed hparsed => ?_
  have hlength : parsed.length = frames.length := Int.ofNat.inj (parseVisualBatchResponse_shape hparsed).1
  rw [frameModerationResults_eq hlength]
  refine .ok ⟨resultsOf_zipWith frames parsed, fun result hresult => ?_⟩
  obtain ⟨i, hi, rfl⟩ := List.getElem_of_mem hresult
  have hbound : i < parsed.length := lt_of_lt_of_le (List.length_zipWith ▸ hi) (min_le_right _ _)
  rw [List.getElem_zipWith]
  obtain ⟨item, hitem⟩ := item_of_parsed hparsed (List.getElem_mem hbound)
  exact ⟨item, hitem, rfl, rfl⟩

theorem moderateFrameBatch_within (frames : List ExtractedFrame) :
    (self.moderateFrameBatch laxInt frames).Within (fun _ => True) (Moderated laxInt frames) := by
  rw [GpuModerationService.moderateFrameBatch]
  split
  · next hnil => exact .pure (hnil ▸ moderated_nil)
  · split
    · exact .throw
    · exact modelAttempts_within (batchAttempt_within frames)

theorem moderateBatches_within (batches : List (List ExtractedFrame)) {done : List ExtractedFrame}
    {frameResults : List FrameModerationResult} (h : Moderated laxInt done frameResults) :
    (self.moderateBatches laxInt frameResults batches).Within (fun _ => True)
      (Moderated laxInt (done ++ batches.flatten)) := by
  induction batches generalizing done frameResults with
  | nil => exact .pure (by simpa using h)
  | cons batch rest ih =>
    refine .bind (moderateFrameBatch_within batch) fun results hresults => ?_
    have hrest := ih (h.append hresults)
    rwa [List.append_assoc] at hrest

/-! ## Rows that the table admits -/

theorem exists_lookup_zip {α β : Type} [BEq α] [LawfulBEq α] {key : α} {keys : List α} {values : List β}
    (hkey : key ∈ keys) (hlength : keys.length = values.length) :
    ∃ value ∈ values, (keys.zip values).lookup key = some value := by
  induction keys generalizing values with
  | nil => cases hkey
  | cons k keys ih =>
    cases values with
    | nil => cases hlength
    | cons value values =>
      rw [List.zip_cons_cons, List.lookup_cons]
      cases hk : key == k with
      | true => exact ⟨value, List.mem_cons_self, rfl⟩
      | false =>
        have hrest := (List.mem_cons.mp hkey).resolve_left (ne_of_beq_false hk)
        obtain ⟨found, hmem, hlookup⟩ := ih hrest (Nat.succ.inj hlength)
        exact ⟨found, List.mem_cons_of_mem _ hmem, hlookup⟩

section

variable (row : FrameResultRow)

/-- In the order of `severityColumns`. -/
def severities : List Nat :=
  [row.overallSeverity, row.severities .safe, row.severities .suggestive, row.severities .nudity,
    row.severities .porn, row.severities .gore, row.severities .violence, row.severities .selfHarm,
    row.severities .hateOrExtremism, row.severities .drugs, row.severities .unknown,
    row.severities .sexualMinorContent]

def columns : Row :=
  [("frame_id", .text row.frameId), ("job_id", .text row.jobId), ("video_id", .text row.videoId),
    ("frame_index", .integer row.frameIndex),
    ("frame_timestamp_seconds", .double row.frameTimestampSeconds),
    ("frame_hash", optionalText row.frameHash), ("prompt_version", .text row.promptVersion),
    ("model_provider", .text row.modelProvider), ("model_name", .text row.modelName),
    ("model_version", optionalText row.modelVersion), ("top_category", .text row.topCategory.value),
    ("is_nsfw", .boolean row.isNsfw)] ++
  severityColumns.zip ((severities row).map fun (n : Nat) => .integer n) ++
  [("reason", .text row.reason), ("raw_response", .jsonb row.rawResponse)]

theorem lookup_severity {column : String} (hcolumn : column ∈ severityColumns) :
    ∃ n ∈ severities row, (columns row).lookup column = some (.integer n) := by
  have hlength : severityColumns.length = ((severities row).map fun (n : Nat) => Cell.integer n).length := rfl
  obtain ⟨cell, hcell, hlookup⟩ := exists_lookup_zip hcolumn hlength
  obtain ⟨n, hn, rfl⟩ := List.mem_map.mp hcell
  have hbefore : ∀ name ∈ severityColumns, name ∉ ["frame_id", "job_id", "video_id", "frame_index",
      "frame_timestamp_seconds", "frame_hash", "prompt_version", "model_provider", "model_name",
      "model_version", "top_category", "is_nsfw"] := by decide
  have hname := hbefore column hcolumn
  simp only [List.mem_cons, List.not_mem_nil, or_false, not_or, ← ne_eq, ← beq_eq_false_iff_ne] at hname
  refine ⟨n, hn, ?_⟩
  rw [columns, List.append_assoc, List.lookup_append, List.lookup_append, hlookup]
  simp [List.lookup_cons, List.lookup_nil, hname]

variable {row}

theorem severities_le (hoverall : row.overallSeverity ≤ 5) (hseverities : ∀ c, row.severities c ≤ 5) :
    ∀ n ∈ severities row, n ≤ 5 := by
  simp [severities, hoverall, hseverities]

theorem columns_admitted (hle : ∀ n ∈ severities row, n ≤ 5) :
    ∀ column ∈ nsfwFrameResults, column.Admits (columns row) := by
  simp only [nsfwFrameResults, List.forall_mem_append, List.forall_mem_map]
  refine ⟨⟨?_, fun column hcolumn => ?_⟩, ?_⟩
  · cases hhash : row.frameHash <;> cases hversion : row.modelVersion <;>
      simp [Column.Admits, columns, List.lookup_cons, optionalText, hhash, hversion]
  · obtain ⟨n, hn, hlookup⟩ := lookup_severity row hcolumn
    have hn := hle n hn
    simp [Column.Admits, hlookup]
    omega
  · simp [Column.Admits, columns, severityColumns, severities, List.lookup_cons, List.lookup_nil]

/-- The row is named after its frame, its severities are in bounds, and the table admits it. -/
structure Sound (jobId : String) (frame : FrameModerationResult) (row : Row) : Prop where
  named : row.lookup "frame_id" = some (.text (frameId jobId frame.frameIndex))
  severities : ∀ column ∈ severityColumns, ∃ n : Nat, row.lookup column = some (.integer n) ∧ n ≤ 5
  admitted : ∀ column ∈ nsfwFrameResults, column.Admits row

end

section

variable (jobId videoId promptVersion modelProvider modelName : String) (modelVersion : Option String)
  {frame : FrameModerationResult} {categories : List (String × Int)}

/-- With every category in the dictionary the row is the one of the typed records. -/
theorem frameResultToRow_ok
    (h : ∀ category : ModerationCategory,
      categories.lookup category.value = some (frame.categories category : Int)) :
    frameResultToRow jobId videoId promptVersion modelProvider modelName modelVersion frame categories =
      .ok (columns (NsfwDetector.frameResultToRow jobId videoId promptVersion modelProvider modelName
        modelVersion frame)) := by
  have hat (category : ModerationCategory) :
      severityAt categories category.value = .ok (.integer (frame.categories category)) := by
    rw [severityAt, h]
  rw [frameResultToRow, show severityAt categories "safe" = _ from hat .safe,
    show severityAt categories "suggestive" = _ from hat .suggestive,
    show severityAt categories "nudity" = _ from hat .nudity,
    show severityAt categories "porn" = _ from hat .porn,
    show severityAt categories "gore" = _ from hat .gore,
    show severityAt categories "violence" = _ from hat .violence,
    show severityAt categories "self_harm" = _ from hat .selfHarm,
    show severityAt categories "hate_or_extremism" = _ from hat .hateOrExtremism,
    show severityAt categories "drugs" = _ from hat .drugs,
    show severityAt categories "unknown" = _ from hat .unknown,
    show severityAt categories "sexual_minor_content" = _ from hat .sexualMinorContent]
  rfl

theorem columns_sound (hoverall : frame.overallSeverity ≤ 5) (hcategories : ∀ c, frame.categories c ≤ 5) :
    Sound jobId frame (columns (NsfwDetector.frameResultToRow jobId videoId promptVersion modelProvider
      modelName modelVersion frame)) := by
  have hle : ∀ n ∈ severities (NsfwDetector.frameResultToRow jobId videoId promptVersion modelProvider
      modelName modelVersion frame), n ≤ 5 := severities_le hoverall hcategories
  refine ⟨rfl, fun column hcolumn => ?_, columns_admitted hle⟩
  obtain ⟨n, hn, hlookup⟩ := lookup_severity _ hcolumn
  exact ⟨n, hlookup, hle n hn⟩

end

/-! ## The rows of a run -/

/-- Every row of a run is built and admitted, and no other frame of any job has its name. -/
theorem rows_admitted (laxInt : Value → Option Int) (self : GpuModerationService)
    (replies : Nat → (op : ClientOp) → Except PyException (ClientAns op)) (n : Nat) {paths : List String}
    {batches : List (List ExtractedFrame)} {frames : List FrameModerationResult}
    (hbatches : frameBatches (framesFromPaths paths) self.settings.frameBatchSize = .ok batches)
    (hframes : ((self.moderateBatches laxInt [] batches).against replies n).1 = .ok frames)
    (jobId videoId promptVersion modelProvider modelName : String) (modelVersion : Option String) :
    (∀ frame ∈ frames, (∃ item, FromItem laxInt item frame) ∧ ∀ item, FromItem laxInt item frame →
      ∃ categories row, categoriesOf laxInt item = some categories ∧
        frameResultToRow jobId videoId promptVersion modelProvider modelName modelVersion frame
          categories = .ok row ∧ Sound jobId frame row) ∧
    (frames.map (·.frameIndex)).Nodup ∧
    ∀ jobId jobId' index index', frameId jobId index = frameId jobId' index' →
      jobId = jobId' ∧ index = index' := by
  have hmoderated := Prog.Within.against (moderateBatches_within batches moderated_nil) hframes
  rw [List.nil_append] at hmoderated
  refine ⟨fun frame hframe => ⟨hmoderated.items frame hframe, fun item hitem => ?_⟩, ?_,
    fun _ _ _ _ h => frameId_inj h⟩
  · obtain ⟨categories, hread, hlookup⟩ := categoriesOf_accepted hitem.accepted
    rw [← hitem.categories] at hlookup
    obtain ⟨hoverall, hscores⟩ := hmoderated.resultsOf.severities frame hframe
    exact ⟨categories, _, hread, frameResultToRow_ok _ _ _ _ _ _ hlookup,
      columns_sound _ _ _ _ _ _ hoverall hscores⟩
  · exact (hmoderated.resultsOf.indices.trans ((frameBatches_sublist hbatches).map _)).nodup
      (framesFromPaths_indices paths)

def oneByOne : GpuModerationService where
  settings := {}
  visualPrompt := "Rate every frame."

/-- A client that answers every batch with the text for a single frame. -/
def bracketClient : Nat → (op : ClientOp) → Except PyException (ClientAns op)
  | _, .moderateImages _ _ => .ok (bracketText [.porn])
  | _, .moderateText _ _ => .ok "{}"
  | _, .other _ => .error (.runtimeError "not a call of the model")

def bracketFrame : FrameModerationResult :=
  toFrameModerationResult ⟨0, 0, "1.jpg"⟩ (bracketOutput 0 .porn)

theorem bracketItem_accepted :
    FrameModerationOutput.modelValidate asInt (bracketItem 0 .porn) = some (bracketOutput 0 .porn) :=
  modelValidate_of_frameReads (bracketItem_wf 0 .porn) (bracketItem_reads 0 .porn)

theorem bracketClient_run :
    ((oneByOne.moderateBatches asInt [] [[⟨0, 0, "1.jpg"⟩]]).against bracketClient 0).1 =
      .ok [bracketFrame] := by
  have hattempt : (oneByOne.batchAttempt asInt [⟨0, 0, "1.jpg"⟩]).against bracketClient 0 = _ :=
    batchAttempt_answered asInt oneByOne rfl (bracketText_parsed [.porn] (List.cons_ne_nil _ _))
  have hbatch : (oneByOne.moderateFrameBatch asInt [⟨0, 0, "1.jpg"⟩]).against bracketClient 0 = _ :=
    Prog.against_tryCatch_ok hattempt
  rw [GpuModerationService.moderateBatches, Prog.against_bind_ok hbatch]
  rfl

theorem bracket_row_admitted : ∃ categories row, categoriesOf asInt (bracketItem 0 .porn) = some categories ∧
    frameResultToRow "job:1" "video" "v1" "provider" "model" none bracketFrame categories = .ok row ∧
      Sound "job:1" bracketFrame row := by
  have hbatches : frameBatches (framesFromPaths ["1.jpg"]) oneByOne.settings.frameBatchSize =
      .ok [[⟨0, 0, "1.jpg"⟩]] := rfl
  have hrows := rows_admitted asInt oneByOne bracketClient 0 hbatches bracketClient_run "job:1" "video" "v1"
    "provider" "model" none
  exact (hrows.1 bracketFrame (List.mem_singleton_self _)).2 _ ⟨bracketItem_accepted, rfl, rfl⟩

end NsfwDetector.FrameRows
