import NsfwDetector.Services.GpuModeration
import Mathlib.Data.Fintype.Pi

/-!
# Moderation without a job

An image or a text is moderated at once, and nothing is stored. What comes back is checked against
the policy once more.
-/

namespace NsfwDetector.StatelessDetection

open Effects Json

/-! ## Base64 -/

/-- The value of a character of the alphabet. -/
def sextet (c : Char) : Option Nat :=
  if 'A' ≤ c ∧ c ≤ 'Z' then some (c.toNat - 'A'.toNat)
  else if 'a' ≤ c ∧ c ≤ 'z' then some (c.toNat - 'a'.toNat + 26)
  else if c.isDigit then some (c.toNat - '0'.toNat + 52)
  else if c = '+' then some 62
  else if c = '/' then some 63
  else none

/-- The loop of `a2b_base64` in strict mode. The bits left over from the last character are
`leftChar`. -/
def a2bLoop (quadPos leftChar pads : Nat) (paddingStarted : Bool) : List Char → Option (List UInt8)
  | [] => if quadPos = 0 then some [] else none
  | c :: rest =>
    if c = '=' then
      if quadPos < 2 then a2bLoop quadPos leftChar pads true rest
      else if quadPos + (pads + 1) < 4 then a2bLoop quadPos leftChar (pads + 1) true rest
      else if rest = [] then some [] else none
    else
      match sextet c with
      | none => none
      | some value =>
        if paddingStarted then none
        else
          match quadPos with
          | 0 => a2bLoop 1 value 0 false rest
          | 1 => (a2bLoop 2 (value % 16) 0 false rest).map (UInt8.ofNat (leftChar * 4 + value / 16) :: ·)
          | 2 => (a2bLoop 3 (value % 4) 0 false rest).map (UInt8.ofNat (leftChar * 16 + value / 4) :: ·)
          | _ => (a2bLoop 0 0 0 false rest).map (UInt8.ofNat (leftChar * 64 + value) :: ·)

/-- Padding may not come first. -/
def a2bBase64 (text : List Char) : Option (List UInt8) :=
  if text.head? = some '=' then none else a2bLoop 0 0 0 false text

inductive Base64Error
  /-- `binascii.Error` -/
  | malformed
  /-- A `ValueError` that is no `binascii.Error`. -/
  | notAscii

def IsAscii (text : String) : Prop := ∀ c ∈ text.toList, c.toNat < 128

instance : DecidablePred IsAscii := fun text =>
  @List.decidableBAll Char (fun c => c.toNat < 128) (fun _ => inferInstance) text.toList

/-- `base64.b64decode(value, validate=True)` -/
def b64decode (value : String) : Except Base64Error (List UInt8) :=
  if IsAscii value then
    match a2bBase64 value.toList with
    | some bytes => .ok bytes
    | none => .error .malformed
  else .error .notAscii

theorem b64decode_of_ascii {value : String} (h : IsAscii value) :
    b64decode value ≠ .error .notAscii := by
  unfold b64decode
  rw [if_pos h]
  cases a2bBase64 value.toList <;> simp

theorem isAscii_of_b64decode {value : String} (h : b64decode value ≠ .error .notAscii) : IsAscii value := by
  by_contra hascii
  exact h (if_neg hascii)

/-! ## Responses -/

/-- A response that its validators let through. -/
structure ModerationDetectResponse where
  topCategory : ModerationCategory
  isNsfw : Bool
  overallSeverity : Nat
  categories : Scores
  reason : String
  categories_le : ∀ c, categories c ≤ 5
  overallSeverity_le : overallSeverity ≤ 5
  overallSeverity_eq : overallSeverity = computeOverallSeverity topCategory categories
  isNsfw_eq : isNsfw = computeIsNsfw categories

def validationError : PyException := .other "ValidationError" "1 validation error for ModerationDetectResponse"

/-- `ModerationDetectResponse(...)` -/
def moderationDetectResponse (topCategory : ModerationCategory) (isNsfw : Bool) (overallSeverity : Nat)
    (categories : Scores) (reason : String) : Except PyException ModerationDetectResponse :=
  if hcategories : ∀ c, categories c ≤ 5 then
    if hle : overallSeverity ≤ 5 then
      if hseverity : overallSeverity = computeOverallSeverity topCategory categories then
        if hnsfw : isNsfw = computeIsNsfw categories then
          .ok ⟨topCategory, isNsfw, overallSeverity, categories, reason, hcategories, hle, hseverity, hnsfw⟩
        else .error validationError
      else .error validationError
    else .error validationError
  else .error validationError

def frameToDetectResponse (result : FrameModerationResult) : Except PyException ModerationDetectResponse :=
  moderationDetectResponse result.topCategory (computeIsNsfw result.categories)
    (computeOverallSeverity result.topCategory result.categories) result.categories result.reason

/-! ## Services -/

/-- `build_gpu_moderation_service`. The text of a prompt version is what its file holds. -/
def buildGpuModerationService (settings : Settings) (promptText : String → String) :
    Option GpuModerationService :=
  if settings.isGpuConfigured then
    some
      { settings := settings
        visualPrompt := promptText settings.visualPromptVersion
        imagePrompt := some (promptText settings.imagePromptVersion)
        imageTextPrompt := some (promptText settings.imageTextPromptVersion)
        hasTextClient := true
        textPrompt := some (promptText settings.textPromptVersion) }
  else none

def normalizePrompt (prompt : Option String) : Option String :=
  prompt.bind fun prompt =>
    let stripped := String.ofList (strip prompt.toList)
    if stripped = "" then none else some stripped

def gpuNotConfigured : PyException :=
  .appError "gpu_not_configured" "GPU moderation is not configured" 503

section

variable (laxInt : Value → Option Int) (gpuService : Option GpuModerationService)

/-- The image is written to `imagePath`, in a directory of its own. -/
def detectImageBytes (settings : Settings) (imagePath : String) (imageBytes : List UInt8)
    (prompt : Option String) : ClientCode ModerationDetectResponse :=
  match gpuService with
  | none => throw gpuNotConfigured
  | some gpuService =>
    if imageBytes = [] then throw (.appError "empty_image" "image bytes are empty" 400)
    else if (imageBytes.length : Int) > settings.imageMaxBytes then
      throw (.appError "image_too_large" "image exceeds configured max bytes" 400)
    else do
      let result ← gpuService.moderateImageGeneration laxInt ⟨0, 0, imagePath⟩ (normalizePrompt prompt)
      .done (frameToDetectResponse result)

def detectBase64 (settings : Settings) (imagePath imageBase64 : String) (prompt : Option String) :
    ClientCode ModerationDetectResponse :=
  match b64decode imageBase64 with
  | .error .malformed =>
    throw (.appError "invalid_image_base64" "image_base64 must be valid base64" 400)
  | .error .notAscii => throw (.valueError "string argument should contain only ASCII characters")
  | .ok imageBytes => detectImageBytes laxInt gpuService settings imagePath imageBytes prompt

/-- `TextDetectionService.detect` -/
def detectText (text : String) : ClientCode ModerationDetectResponse :=
  match gpuService with
  | none => throw gpuNotConfigured
  | some gpuService => do
    let result ← gpuService.moderateText laxInt text
    .done (moderationDetectResponse result.topCategory (computeIsNsfw result.categories)
      (computeOverallSeverity result.topCategory result.categories) result.categories result.reason)

end

/-! ## Controlled ends -/

/-- A result that satisfies `good`, or an `AppError`. -/
def Ends {α : Type} (good : α → Prop) (result : Except PyException α) : Prop :=
  (∃ a, result = .ok a ∧ good a) ∨
    ∃ code message statusCode, result = .error (.appError code message statusCode)

section

variable {α β : Type} {good : α → Prop} {good' : β → Prop}
  {replies : Nat → (op : ClientOp) → Except PyException (ClientAns op)}

theorem ends_error_iff {e : PyException} :
    Ends good (.error e) ↔ ∃ code message statusCode, e = .appError code message statusCode := by
  simp [Ends]

/-- After a good value comes a good end, so it is `x` that decides. -/
theorem ends_bind_iff {x : ClientCode α} {f : α → ClientCode β} {n : Nat}
    (hx : x.Within (fun _ => True) good) (hf : ∀ a m, good a → Ends good' ((f a).against replies m).1) :
    Ends good' ((x >>= f).against replies n).1 ↔ Ends good (x.against replies n).1 := by
  obtain ⟨result, m, hrun⟩ : ∃ result m, x.against replies n = (result, m) := ⟨_, _, rfl⟩
  cases result with
  | ok a =>
    have hgood : good a := hx.against (by rw [hrun])
    rw [Prog.against_bind_ok hrun, hrun]
    exact iff_of_true (hf a m hgood) (.inl ⟨a, rfl, hgood⟩)
  | error e => rw [Prog.against_bind_error hrun, hrun, ends_error_iff, ends_error_iff]

/-- The loop gives what an attempt gave, or turns its last exception into an `AppError`. -/
theorem modelAttempts_ends_iff {settings : Settings} {body : ClientCode α} {exhausted : String}
    (hbody : ∀ i, (body.against replies i).2 = i + 1) (hgood : body.Within (fun _ => True) good) (n : Nat) :
    Ends good ((modelAttempts settings body exhausted).against replies n).1 ↔
      ¬ Overflows settings body replies n := by
  rcases @modelAttempts_cases _ _ _ settings body exhausted replies hbody n with
    ⟨hoverflows, hraised⟩ | ⟨hfine, ⟨a, ha⟩ | ⟨e, he⟩⟩
  · rw [hraised, ends_error_iff]
    refine iff_of_false ?_ (not_not.mpr hoverflows)
    rintro ⟨code, message, statusCode, h⟩
    cases h
  · exact iff_of_true (.inl ⟨a, ha, (modelAttempts_within hgood).against ha⟩) hfine
  · rw [he, ends_error_iff]
    exact iff_of_true (modelFailure_appError e) hfine

theorem ends_throw (code message : String) (statusCode n : Nat) :
    Ends good ((throw (.appError code message statusCode) : ClientCode α).against replies n).1 :=
  Or.inr ⟨code, message, statusCode, rfl⟩

end

/-! ## The model behind the response -/

/-- The scores of an accepted output. -/
def InRange (categories : Scores) : Prop := ∀ c, categories c ≤ 5

section

variable {laxInt : Value → Option Int} {replies : Nat → (op : ClientOp) → Except PyException (ClientAns op)}

theorem imageAttempt_within (prompt : String) (frame : ExtractedFrame) :
    (GpuModerationService.imageAttempt laxInt prompt frame).Within (fun _ => True)
      fun result => InRange result.categories := by
  refine .bind (.perform _ trivial) fun rawResponse _ => .bind (.done _) fun parsed _ => ?_
  cases parsed with
  | nil => exact .throw
  | cons first rest => exact .pure first.severity_le

theorem textAttempt_within (prompt text : String) :
    (GpuModerationService.textAttempt laxInt prompt text).Within (fun _ => True)
      fun result => InRange result.categories :=
  .bind (.perform _ trivial) fun _ _ => .mono (fun _ h => h) (fun result _ => result.severity_le) (.done _)

/-- Call `i` fails, or its text is not accepted for one image. -/
def ImageRefused (laxInt : Value → Option Int)
    (replies : Nat → (op : ClientOp) → Except PyException (ClientAns op)) (prompt imagePath : String)
    (i : Nat) : Prop :=
  ∀ rawResponse, replies i (.moderateImages prompt [imagePath]) = .ok rawResponse →
    ∃ e, parseVisualBatchResponse laxInt rawResponse 1 = .error e

/-- Call `i` fails, or its text is not accepted for a text. -/
def TextRefused (laxInt : Value → Option Int)
    (replies : Nat → (op : ClientOp) → Except PyException (ClientAns op)) (prompt text : String)
    (i : Nat) : Prop :=
  ∀ rawResponse, replies i (.moderateText prompt text) = .ok rawResponse →
    ∃ e, parseTextModerationResponse laxInt rawResponse = .error e

theorem imageAttempt_against (prompt : String) (frame : ExtractedFrame) (i : Nat) :
    ((GpuModerationService.imageAttempt laxInt prompt frame).against replies i).2 = i + 1 ∧
      ((∃ e, (GpuModerationService.imageAttempt laxInt prompt frame).against replies i = (.error e, i + 1)) ↔
        ImageRefused laxInt replies prompt frame.path i) := by
  unfold GpuModerationService.imageAttempt ImageRefused
  cases hreply : replies i (.moderateImages prompt [frame.path]) with
  | error e =>
    rw [Prog.against_bind_error (by rw [Prog.against_perform, hreply])]
    simp
  | ok rawResponse =>
    rw [Prog.against_bind_ok (by rw [Prog.against_perform, hreply])]
    cases hparse : parseVisualBatchResponse laxInt rawResponse 1 with
    | error e =>
      rw [Prog.against_bind_error (Prog.against_done _)]
      simp [hparse]
    | ok parsed =>
      have hlength := (parseVisualBatchResponse_shape hparse).1
      rw [Prog.against_bind_ok (Prog.against_done _)]
      cases parsed with
      | nil => simp at hlength
      | cons first rest => simp [hparse, Prog.pure_eq]

theorem textAttempt_against (prompt text : String) (i : Nat) :
    ((GpuModerationService.textAttempt laxInt prompt text).against replies i).2 = i + 1 ∧
      ((∃ e, (GpuModerationService.textAttempt laxInt prompt text).against replies i = (.error e, i + 1)) ↔
        TextRefused laxInt replies prompt text i) := by
  unfold GpuModerationService.textAttempt TextRefused
  cases hreply : replies i (.moderateText prompt text) with
  | error e =>
    rw [Prog.against_bind_error (by rw [Prog.against_perform, hreply])]
    simp
  | ok rawResponse =>
    rw [Prog.against_bind_ok (by rw [Prog.against_perform, hreply])]
    simp

/-- The first 1025 calls are refused. -/
theorem failing_iff {α : Type} {body : ClientCode α} {Refused : Nat → Prop}
    (hbody : ∀ i, (∃ e, body.against replies i = (.error e, i + 1)) ↔ Refused i) :
    Failing body replies 0 (0 + Backoff.floatAttempts + 1) ↔
      ∀ i, i < Backoff.floatAttempts + 1 → Refused i := by
  simp [Failing, hbody]

theorem moderationDetectResponse_ends (topCategory : ModerationCategory) {categories : Scores}
    (reason : String) (h : InRange categories) :
    Ends (fun response => response.isNsfw = computeIsNsfw response.categories ∧
        response.overallSeverity = computeOverallSeverity response.topCategory response.categories)
      (moderationDetectResponse topCategory (computeIsNsfw categories)
        (computeOverallSeverity topCategory categories) categories reason) := by
  have hle : computeOverallSeverity topCategory categories ≤ 5 := h topCategory
  unfold moderationDetectResponse
  rw [dif_pos (show ∀ c, categories c ≤ 5 from h), dif_pos hle, dif_pos rfl, dif_pos rfl]
  exact Or.inl ⟨_, rfl, rfl, rfl⟩

/-- A response that agrees with the policy on its own categories, or an `AppError`. -/
def Controlled (result : Except PyException ModerationDetectResponse) : Prop :=
  Ends (fun response => response.isNsfw = computeIsNsfw response.categories ∧
    response.overallSeverity = computeOverallSeverity response.topCategory response.categories) result

variable (settings : Settings) (promptText : String → String)

/-- The prompt that the service sends for an image. -/
def imagePromptFor (generationPrompt : Option String) : String :=
  match generationPrompt with
  | none => promptText settings.imagePromptVersion
  | some generationPrompt =>
    appendGenerationPrompt (promptText settings.imageTextPromptVersion) generationPrompt

/-- The image gets to the model, and more than 1025 calls are made of which the first 1025 are refused. -/
structure ImageOverflows (laxInt : Value → Option Int)
    (replies : Nat → (op : ClientOp) → Except PyException (ClientAns op))
    (imagePath imageBase64 : String) (prompt : Option String) : Prop where
  configured : settings.isGpuConfigured
  image : ∃ imageBytes, b64decode imageBase64 = .ok imageBytes ∧ imageBytes ≠ [] ∧
    (imageBytes.length : Int) ≤ settings.imageMaxBytes
  pauses : ¬ Pauses settings
  refused : ∀ i, i < Backoff.floatAttempts + 1 →
    ImageRefused laxInt replies (imagePromptFor settings promptText (normalizePrompt prompt)) imagePath i

structure TextOverflows (laxInt : Value → Option Int)
    (replies : Nat → (op : ClientOp) → Except PyException (ClientAns op)) (text : String) : Prop where
  configured : settings.isGpuConfigured
  pauses : ¬ Pauses settings
  refused : ∀ i, i < Backoff.floatAttempts + 1 →
    TextRefused laxInt replies (promptText settings.textPromptVersion) text i

theorem configured_of_build {gpuService : Option GpuModerationService}
    (h : buildGpuModerationService settings promptText = gpuService) :
    settings.isGpuConfigured ↔ gpuService.isSome := by
  rw [← h, buildGpuModerationService]
  cases settings.isGpuConfigured <;> simp

theorem moderateImageGeneration_eq {gpuService : GpuModerationService}
    (h : buildGpuModerationService settings promptText = some gpuService) (frame : ExtractedFrame)
    (generationPrompt : Option String) :
    gpuService.moderateImageGeneration laxInt frame generationPrompt =
      modelAttempts settings
        (GpuModerationService.imageAttempt laxInt
          (imagePromptFor settings promptText generationPrompt) frame)
        "image moderation failed without an exception" := by
  unfold buildGpuModerationService at h
  simp only [Option.ite_none_right_eq_some, Option.some.injEq] at h
  obtain ⟨-, rfl⟩ := h
  cases generationPrompt <;> rfl

theorem moderateText_eq {gpuService : GpuModerationService}
    (h : buildGpuModerationService settings promptText = some gpuService) (text : String) :
    gpuService.moderateText laxInt text =
      modelAttempts settings
        (GpuModerationService.textAttempt laxInt (promptText settings.textPromptVersion) text)
        "text moderation failed without an exception" := by
  unfold buildGpuModerationService at h
  simp only [Option.ite_none_right_eq_some, Option.some.injEq] at h
  obtain ⟨-, rfl⟩ := h
  rfl

theorem detectImageBytes_controlled_iff (imagePath : String) (imageBytes : List UInt8)
    (prompt : Option String) :
    Controlled ((detectImageBytes laxInt (buildGpuModerationService settings promptText) settings
      imagePath imageBytes prompt).against replies 0).1 ↔
        ¬ (settings.isGpuConfigured ∧ imageBytes ≠ [] ∧
          (imageBytes.length : Int) ≤ settings.imageMaxBytes ∧ ¬ Pauses settings ∧
            ∀ i, i < Backoff.floatAttempts + 1 → ImageRefused laxInt replies
              (imagePromptFor settings promptText (normalizePrompt prompt)) imagePath i) := by
  unfold detectImageBytes
  cases hgpu : buildGpuModerationService settings promptText with
  | none =>
    have hnot := configured_of_build settings promptText hgpu
    exact iff_of_true (ends_throw _ _ _ _) fun h => absurd (hnot.mp h.1) (by simp)
  | some gpuService =>
    have hconfigured := (configured_of_build settings promptText hgpu).mpr rfl
    simp only
    split
    · next hempty => exact iff_of_true (ends_throw _ _ _ _) fun h => h.2.1 hempty
    · next hnonempty =>
      split
      · next hlarge => exact iff_of_true (ends_throw _ _ _ _) fun h => absurd h.2.2.1 (not_le.mpr hlarge)
      · next hsmall =>
        rw [moderateImageGeneration_eq settings promptText hgpu]
        refine (ends_bind_iff (modelAttempts_within (imageAttempt_within _ _)) fun result m hresult =>
          moderationDetectResponse_ends _ _ hresult).trans ?_
        rw [modelAttempts_ends_iff (fun i => (imageAttempt_against _ _ i).1) (imageAttempt_within _ _),
          Overflows, failing_iff fun i => (imageAttempt_against _ _ i).2]
        refine not_congr ⟨fun h => ⟨hconfigured, hnonempty, not_lt.mp hsmall, h⟩, fun h => h.2.2.2⟩

theorem detectText_controlled_iff (text : String) :
    Controlled ((detectText laxInt (buildGpuModerationService settings promptText)
      text).against replies 0).1 ↔ ¬ TextOverflows settings promptText laxInt replies text := by
  unfold detectText
  cases hgpu : buildGpuModerationService settings promptText with
  | none =>
    have hnot := configured_of_build settings promptText hgpu
    exact iff_of_true (ends_throw _ _ _ _) fun h => absurd (hnot.mp h.configured) (by simp)
  | some gpuService =>
    have hconfigured := (configured_of_build settings promptText hgpu).mpr rfl
    simp only
    rw [moderateText_eq settings promptText hgpu]
    refine (ends_bind_iff (modelAttempts_within (textAttempt_within _ _)) fun result m hresult =>
      moderationDetectResponse_ends _ _ hresult).trans ?_
    rw [modelAttempts_ends_iff (fun i => (textAttempt_against _ _ i).1) (textAttempt_within _ _),
      Overflows, failing_iff fun i => (textAttempt_against _ _ i).2]
    exact not_congr ⟨fun h => ⟨hconfigured, h.1, h.2⟩, fun h => ⟨h.pauses, h.refused⟩⟩

end

/-- The endpoints fail in no other way than by an `AppError`, but for an image text that is not ASCII
and for the pause after attempt 1025. -/
theorem stateless_controlled_iff (laxInt : Value → Option Int) (settings : Settings)
    (promptText : String → String)
    (replies : Nat → (op : ClientOp) → Except PyException (ClientAns op)) :
    (∀ (imagePath imageBase64 : String) (prompt : Option String),
      Controlled ((detectBase64 laxInt (buildGpuModerationService settings promptText) settings
        imagePath imageBase64 prompt).against replies 0).1 ↔
          IsAscii imageBase64 ∧
            ¬ ImageOverflows settings promptText laxInt replies imagePath imageBase64 prompt) ∧
    ∀ text : String, Controlled ((detectText laxInt (buildGpuModerationService settings promptText)
      text).against replies 0).1 ↔ ¬ TextOverflows settings promptText laxInt replies text := by
  refine ⟨fun imagePath imageBase64 prompt => ?_, detectText_controlled_iff settings promptText⟩
  unfold detectBase64
  cases hdecoded : b64decode imageBase64 with
  | ok imageBytes =>
    have hascii : IsAscii imageBase64 := isAscii_of_b64decode (by simp [hdecoded])
    refine (detectImageBytes_controlled_iff settings promptText imagePath imageBytes prompt).trans ?_
    refine Iff.trans (not_congr ⟨?_, ?_⟩) (and_iff_right hascii).symm
    · rintro ⟨hconfigured, hnonempty, hsmall, hpauses, hrefused⟩
      exact ⟨hconfigured, ⟨imageBytes, hdecoded, hnonempty, hsmall⟩, hpauses, hrefused⟩
    · rintro ⟨hconfigured, ⟨bytes, hbytes, hnonempty, hsmall⟩, hpauses, hrefused⟩
      obtain rfl : imageBytes = bytes := Except.ok.inj (hdecoded.symm.trans hbytes)
      exact ⟨hconfigured, hnonempty, hsmall, hpauses, hrefused⟩
  | error e =>
    have hnobytes : ¬ ImageOverflows settings promptText laxInt replies imagePath imageBase64 prompt := by
      intro h
      obtain ⟨bytes, hbytes, -⟩ := h.image
      rw [hdecoded] at hbytes
      cases hbytes
    cases e with
    | malformed =>
      exact iff_of_true (ends_throw _ _ _ _) ⟨isAscii_of_b64decode (by simp [hdecoded]), hnobytes⟩
    | notAscii =>
      refine iff_of_false ?_ fun h => b64decode_of_ascii h.1 hdecoded
      rintro (⟨response, h, -⟩ | ⟨code, message, statusCode, h⟩)
      · cases h
      · cases h

def configured : Settings where
  apiBaseUrl := some "https://gpu"
  apiKey := some "key"
  modelName := some "model"

/-- Clients that never answer. -/
def silentClients : Nat → (op : ClientOp) → Except PyException (ClientAns op) :=
  fun _ _ => .error (.requestError "ConnectTimeout" "")

/-- A service that goes on after attempt 1025. -/
def patient : Settings := { configured with gpuMaxAttempts := 1026 }

theorem not_pauses_patient : ¬ Pauses patient := by decide +kernel

/-- The image text `é` ends in a `ValueError`, and a text in an `OverflowError` where clients that never
answer are asked again and again. -/
theorem not_ascii_escapes : ((detectBase64 asInt (buildGpuModerationService configured id) configured
      "image.jpg" "é" none).against silentClients 0).1 =
        .error (.valueError "string argument should contain only ASCII characters") ∧
    ¬ Controlled ((detectBase64 asInt (buildGpuModerationService configured id) configured
      "image.jpg" "é" none).against silentClients 0).1 ∧
    ¬ Controlled ((detectText asInt (buildGpuModerationService patient id) "text").against
      silentClients 0).1 := by
  have hraised : ((detectBase64 asInt (buildGpuModerationService configured id) configured
      "image.jpg" "é" none).against silentClients 0).1 =
        .error (.valueError "string argument should contain only ASCII characters") := by rfl
  refine ⟨hraised, ?_, ?_⟩
  · rw [hraised]
    rintro (⟨response, h, -⟩ | ⟨code, message, statusCode, h⟩)
    · cases h
    · cases h
  · rw [detectText_controlled_iff, not_not]
    exact ⟨rfl, not_pauses_patient, fun i _ rawResponse h => by cases h⟩

end NsfwDetector.StatelessDetection
