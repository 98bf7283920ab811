import NsfwDetector.Core.Errors
import NsfwDetector.Json.Scan
import NsfwDetector.Moderation.Policy
import Mathlib.Data.List.DropRight

/-!
# Parsing what the model answers

The answer is free text around one JSON document. How the schema library turns a value into an
integer is not part of this code: `laxInt` stands for it.
-/

namespace NsfwDetector

open Json

/-! ## Schemas -/

/-- Every category is a key, every key is a category, and every severity is between 0 and 5. -/
def ValidCategoryScores (value : List (String × Int)) : Prop :=
  (∀ category ∈ moderationCategories, category.value ∈ value.map (·.1)) ∧
    (∀ key ∈ value.map (·.1), key ∈ moderationCategories.map (·.value)) ∧
    ∀ entry ∈ value, 0 ≤ entry.2 ∧ entry.2 ≤ 5

instance (value : List (String × Int)) : Decidable (ValidCategoryScores value) :=
  inferInstanceAs (Decidable (_ ∧ _ ∧ _))

def scoresOf (value : List (String × Int)) : Scores :=
  fun category => ((value.lookup category.value).getD 0).toNat

theorem mem_of_lookup {α : Type} {key : String} {a : α} {d : List (String × α)}
    (h : d.lookup key = some a) : (key, a) ∈ d := by
  induction d with
  | nil => cases h
  | cons entry d ih =>
    obtain ⟨k, b⟩ := entry
    by_cases hk : key = k
    · rw [hk, List.lookup_cons_self] at h
      rw [hk, ← Option.some.inj h]
      exact List.mem_cons_self ..
    · have hne : (key == k) = false := beq_eq_false_iff_ne.mpr hk
      rw [List.lookup_cons, hne] at h
      exact List.mem_cons_of_mem _ (ih h)

theorem scoresOf_le {value : List (String × Int)} (h : ValidCategoryScores value)
    (category : ModerationCategory) : scoresOf value category ≤ 5 := by
  unfold scoresOf
  cases hlookup : value.lookup category.value with
  | none => decide
  | some severity =>
    have := h.2.2 _ (mem_of_lookup hlookup)
    simp only [Option.getD_some]
    omega

def validateCategoryScores (value : List (String × Int)) :
    Option { scores : Scores // ∀ category, scores category ≤ 5 } :=
  if h : ValidCategoryScores value then some ⟨scoresOf value, scoresOf_le h⟩ else none

def membersOf : Value → Option (List (String × Value))
  | .dict members => some members
  | _ => none

def stringOf : Value → Option String
  | .str s => some s
  | _ => none

/-- `Literal[...]` -/
def categoryOf (v : Value) : Option ModerationCategory := do
  let s ← stringOf v
  moderationCategories.find? (·.value = s)

section

variable (laxInt : Value → Option Int)

/-- `dict[str, int]` -/
def intDictOf (v : Value) : Option (List (String × Int)) := do
  let members ← membersOf v
  members.mapM fun (key, value) => (laxInt value).map fun n => (key, n)

/-- `ModerationModelOutput.model_validate`: other fields are ignored. -/
def ModerationModelOutput.modelValidate (item : Value) : Option ModerationModelOutput := do
  let fields ← membersOf item
  let topCategory ← categoryOf (← fields.lookup "top_category")
  let categories ← validateCategoryScores (← intDictOf laxInt (← fields.lookup "categories"))
  let reason ← stringOf (← fields.lookup "reason")
  if h : TopCategoryMatchesScores topCategory categories.1 then
    pure ⟨topCategory, categories.1, reason, categories.2, h⟩
  else none

def FrameModerationOutput.modelValidate (item : Value) : Option FrameModerationOutput := do
  let output ← ModerationModelOutput.modelValidate laxInt item
  let fields ← membersOf item
  let frameIndex ← laxInt (← fields.lookup "frame_index")
  if frameIndex < 0 then none else pure ⟨output, frameIndex.toNat⟩

end

/-! ## The document in the answer -/

/-- The characters that `str.strip` removes. -/
def isSpace (c : Char) : Bool :=
  (0x9 ≤ c.toNat && c.toNat ≤ 0xd) || (0x1c ≤ c.toNat && c.toNat ≤ 0x20) ||
    (0x2000 ≤ c.toNat && c.toNat ≤ 0x200a) ||
    [0x85, 0xa0, 0x1680, 0x2028, 0x2029, 0x202f, 0x205f, 0x3000].contains c.toNat

def strip (text : List Char) : List Char := (text.dropWhile isSpace).rdropWhile isSpace

/-- `value.find(token, start)` for a token of one character. -/
def find (value : List Char) (token : Char) (start : Nat) : Option Nat :=
  ((value.drop start).findIdx? (· = token)).map (start + ·)

def nextJsonStart (value : List Char) (start : Nat) : Option Nat :=
  (['{', '['].filterMap fun token => find value token start).min?

theorem nextJsonStart_bounds {value : List Char} {start position : Nat}
    (h : nextJsonStart value start = some position) : start ≤ position ∧ position < value.length := by
  have hmem := List.min?_mem h
  obtain ⟨token, -, hfind⟩ := List.mem_filterMap.mp hmem
  simp only [find, Option.map_eq_some_iff] at hfind
  obtain ⟨offset, hoffset, rfl⟩ := hfind
  have := (List.findIdx?_eq_some_iff_getElem.mp hoffset).1
  rw [List.length_drop] at this
  omega

/-- The loop behind the first document: no bracket from `cursor` on starts another one. -/
def noFurtherDocument (text : List Char) (cursor : Nat) : Bool :=
  match _hnext : nextJsonStart text cursor with
  | none => true
  | some nextStart =>
    match hdecode : rawDecode text nextStart with
    | none => noFurtherDocument text (nextStart + 1)
    | some (extraPayload, extraEnd) =>
      if extraPayload.isContainer then false else noFurtherDocument text extraEnd
termination_by text.length - cursor
decreasing_by
  · have := nextJsonStart_bounds _hnext
    omega
  · have := nextJsonStart_bounds _hnext
    have := rawDecode_bounds hdecode
    omega

/-- `none` is `_MISSING_JSON`. -/
def extractSingleJsonDocument (text : List Char) : Option Value := do
  let start ← nextJsonStart text 0
  let (payload, stop) ← rawDecode text start
  if payload.isContainer && noFurtherDocument text stop then pure payload else none

def loadModelJson (rawResponse : String) : Except PyException Value :=
  let candidate := strip (rawResponse.toList.dropWhile (· = '\uFEFF'))
  match loads candidate with
  | some payload => .ok payload
  | none =>
    match extractSingleJsonDocument candidate with
    | some payload => .ok payload
    | none =>
      .error (.appError Codes.modelResponseInvalidJson "model response was not valid JSON" 502)

/-- The value of the one key, if it is one of `keys`. -/
def unwrapEnvelope (payload : Value) (keys : List String) : Value :=
  match payload with
  | .dict [(key, value)] => if key ∈ keys then value else payload
  | _ => payload

def invalidSchema (message : String) : PyException :=
  .appError Codes.modelResponseInvalidSchema message 502

/-! ## Visual responses -/

def visualEnvelopes : List String := ["results", "frames", "result"]

/-- The list that the payload is, or stands for. -/
def visualItems (payload : Value) (expectedCount : Int) : Option (List Value) :=
  match payload with
  | .list items => some items
  | .dict fields =>
    if expectedCount = 1 ∧ "frame_index" ∈ fields.map (·.1) then some [.dict fields] else none
  | _ => none

section

variable (laxInt : Value → Option Int)

/-- The loop over the items, from `index` on. -/
def parseFrames (index : Nat) : List Value → Except PyException (List FrameModerationOutput)
  | [] => .ok []
  | item :: items =>
    match FrameModerationOutput.modelValidate laxInt item with
    | none => .error (invalidSchema s!"invalid frame response at index {index}")
    | some parsed =>
      if parsed.frameIndex ≠ index then
        .error (invalidSchema "frame_index did not match response order")
      else (parseFrames (index + 1) items).map (parsed :: ·)

def parseVisualBatchResponse (rawResponse : String) (expectedCount : Int) :
    Except PyException (List FrameModerationOutput) := do
  let payload ← loadModelJson rawResponse
  match visualItems (unwrapEnvelope payload visualEnvelopes) expectedCount with
  | none => .error (invalidSchema "model response must be a JSON array")
  | some items =>
    if (items.length : Int) ≠ expectedCount then
      .error (invalidSchema "model response count did not match request count")
    else parseFrames laxInt 0 items

/-! ## Text responses -/

def parseTextModerationResponse (rawResponse : String) : Except PyException ModerationModelOutput := do
  let payload ← loadModelJson rawResponse
  match unwrapEnvelope payload ["result", "moderation"] with
  | .dict fields =>
    match ModerationModelOutput.modelValidate laxInt (.dict fields) with
    | some output => .ok output
    | none => .error (invalidSchema "invalid text moderation response")
  | _ => .error (invalidSchema "text model response must be a JSON object")

end

end NsfwDetector
