import NsfwDetector.Effects.Raising
import NsfwDetector.Json.Decode
import NsfwDetector.Json.Numbers
import NsfwDetector.Services.Auth
import NsfwDetector.Services.Processing

/-!
# What `ffprobe` says of a video

Its answer is a document of any shape. Each field goes through a converter with its own list of
exceptions that it takes for an absent value.
-/

namespace NsfwDetector.Probe

open Json (Value)

/-! ## Values as Python sees them -/

/-- What the interpreter makes of texts, and what it writes for a value. A text that is no number gives
`none`, for `ValueError`. -/
structure Interpreter where
  float : String → Option Double
  int : String → Option Int
  str : Value → String

/-- `members.get(key)` -/
def get (members : List (String × Value)) (key : String) : Value :=
  (members.lookup key).getD (.constant .null)

/-- `type(value).__name__` -/
def typeName : Value → String
  | .constant .null => "NoneType"
  | .constant (.bool _) => "bool"
  | .constant .nan | .constant (.infinity _) | .float _ => "float"
  | .int _ => "int"
  | .str _ => "str"
  | .list _ => "list"
  | .dict _ => "dict"

/-- `bool(value)` -/
def isTrue : Value → Bool
  | .constant .null => false
  | .constant (.bool b) => b
  | .constant .nan | .constant (.infinity _) => true
  | .int n => n ≠ 0
  | .float x => !(Double.ofRat x.value).isZero
  | .str s => s ≠ ""
  | .list items => !items.isEmpty
  | .dict members => !members.isEmpty

def typeError (message : String) : PyException := .other "TypeError" message

def overflowError (message : String) : PyException := .other "OverflowError" message

section

variable (python : Interpreter)

/-- `float(value)` -/
def toFloat : Value → Except PyException Double
  | .constant (.bool b) => .ok (.finite (if b then 1 else 0))
  | .constant .nan => .ok .nan
  | .constant (.infinity negative) => .ok (.infinity negative)
  | .int n =>
    if |(n : ℚ)| < Double.threshold then .ok (Double.ofRat n)
    else .error (overflowError "int too large to convert to float")
  | .float x => .ok (Double.ofRat x.value)
  | .str s =>
    match python.float s with
    | some x => .ok x
    | none => .error (.valueError s!"could not convert string to float: '{s}'")
  | v => .error (typeError s!"float() argument must be a string or a real number, not '{typeName v}'")

/-- `int` of a float -/
def truncated : Double → Except PyException Int
  | .finite value => .ok (Double.truncate value)
  | .infinity _ => .error (overflowError "cannot convert float infinity to integer")
  | .nan => .error (.valueError "cannot convert float NaN to integer")

/-- `int(value)` -/
def toInt : Value → Except PyException Int
  | .constant (.bool b) => .ok (if b then 1 else 0)
  | .constant .nan => truncated .nan
  | .constant (.infinity negative) => truncated (.infinity negative)
  | .int n => .ok n
  | .float x => truncated (Double.ofRat x.value)
  | .str s =>
    match python.int s with
    | some n => .ok n
    | none => .error (.valueError s!"invalid literal for int() with base 10: '{s}'")
  | v => .error (typeError
      s!"int() argument must be a string, a bytes-like object or a real number, not '{typeName v}'")

/-- An integer with more digits than `str` writes. -/
def tooLong (n : Int) : Bool := Auth.maxStrDigits < (Nat.toDigits 10 n.natAbs).length

/-- `str(value)` -/
def toStr (v : Value) : Except PyException String :=
  if v.anyInt tooLong then
    .error (.valueError "Exceeds the limit (4300 digits) for integer string conversion")
  else .ok (python.str v)

/-! ## Converters -/

/-- `value` converted, or `None` when it is `None` or no number. -/
def orNone {α : Type} (convert : Value → Except PyException α) :
    Value → Except PyException (Option α)
  | .constant .null => .ok none
  | v =>
    match convert v with
    | .ok a => .ok (some a)
    | .error e => if e.className = "TypeError" ∨ e.className = "ValueError" then .ok none else .error e

/-- `_float_or_none` -/
def floatOrNone : Value → Except PyException (Option Double) := orNone (toFloat python)

/-- `_int_or_none` -/
def intOrNone : Value → Except PyException (Option Int) := orNone (toInt python)

/-- `bool(value)` of a `float | None` -/
def isNumber : Option Double → Bool
  | some x => !x.isZero
  | none => false

/-- `_parse_rate` -/
def parseRate : Value → Except PyException (Option Double)
  | .str value =>
    if value = "0/0" ∨ value = "" then .ok none
    else if '/' ∉ value.toList then floatOrNone python (.str value)
    else do
      let numerator := String.ofList (value.toList.takeWhile (· ≠ '/'))
      let denominator := String.ofList (value.toList.dropWhile (· ≠ '/')).tail
      let denominatorFloat ← floatOrNone python (.str denominator)
      if isNumber denominatorFloat then
        let numeratorFloat ← floatOrNone python (.str numerator)
        pure (numeratorFloat.bind fun x => denominatorFloat.map x.div)
      else pure none
  | _ => .ok none

/-! ## The probe -/

def videoProbeError (message : String) : PyException := .appError Codes.videoProbeFailed message 400

def noVideoStreamError : PyException :=
  .appError Codes.videoNoStream "video has no usable video stream" 400

/-- A `VideoMetadata`, with floats. -/
structure Metadata where
  jobId : String
  videoId : String
  durationSeconds : Double
  width : Option Int
  height : Option Int
  fps : Option Double
  codecName : Option String
  hasVideoStream : Bool
  framesExtracted : Nat

/-- The members of the first stream that is a video. -/
def videoStream (streams : List Value) : Option (List (String × Value)) :=
  streams.findSome? fun
    | .dict stream =>
      match get stream "codec_type" with
      | .str "video" => some stream
      | _ => none
    | _ => none

/-- `payload.get("format")`, if it is a dictionary -/
def formatPayload (payload : List (String × Value)) : List (String × Value) :=
  match get payload "format" with
  | .dict members => members
  | _ => []

def duration (stream format : List (String × Value)) : Except PyException Double := do
  let own ← floatOrNone python (get stream "duration")
  let duration ← if isNumber own then pure own else floatOrNone python (get format "duration")
  pure (duration.getD (.finite 0))

def codecName (stream : List (String × Value)) : Except PyException (Option String) :=
  if isTrue (get stream "codec_name") then (toStr python (get stream "codec_name")).map some
  else .ok none

def metadata (jobId videoId : String) (stream format : List (String × Value)) :
    Except PyException Metadata := do
  let durationSeconds ← duration python stream format
  let width ← intOrNone python (get stream "width")
  let height ← intOrNone python (get stream "height")
  let fps ← parseRate python
    (if isTrue (get stream "avg_frame_rate") then get stream "avg_frame_rate"
      else get stream "r_frame_rate")
  let codecName ← codecName python stream
  pure ⟨jobId, videoId, durationSeconds, width, height, fps, codecName, true, 0⟩

def parseFfprobeMetadata (jobId videoId : String) : Value → Except PyException Metadata
  | .dict payload =>
    match get payload "streams" with
    | .list streams =>
      match videoStream streams with
      | some stream => metadata python jobId videoId stream (formatPayload payload)
      | none => .error noVideoStreamError
    | _ => .error (videoProbeError "ffprobe response missing streams")
  | v => .error (.other "AttributeError" s!"'{typeName v}' object has no attribute 'get'")

/-- `probe`, of the output of a process that exited well. -/
def probe (jobId videoId stdout : String) : Except PyException Metadata :=
  match Json.loads stdout.toList with
  | some payload => parseFfprobeMetadata python jobId videoId payload
  | none => .error (videoProbeError "ffprobe returned invalid JSON")

end

/-! ## Which values raise -/

variable {python : Interpreter} {stream format : List (String × Value)}

/-- An integer that no float is near to. -/
def TooLarge : Value → Prop
  | .int n => Double.threshold ≤ |(n : ℚ)|
  | _ => False

/-- A float that is an infinity, by its name or by its size. -/
def Infinite : Value → Prop
  | .constant (.infinity _) => True
  | .float x => Double.threshold ≤ |x.value|
  | _ => False

/-- Neither of the exceptions that stand for a bad video. -/
def Stray (e : PyException) : Prop := ∃ className text, e = .other className text

/-- The converters take these two for an absent value. -/
def Caught (e : PyException) : Prop := e.className = "TypeError" ∨ e.className = "ValueError"

theorem caught_typeError (message : String) : Caught (typeError message) := .inl rfl

theorem caught_valueError (message : String) : Caught (.valueError message) := .inr rfl

theorem not_caught_overflowError (message : String) : ¬ Caught (overflowError message) := by
  simp [Caught, overflowError, PyException.className]

theorem orNone_of_ok {α : Type} {convert : Value → Except PyException α} {v : Value} {a : α}
    (h : convert v = .ok a) : ∃ found, orNone convert v = .ok found := by
  unfold orNone
  split
  · exact ⟨none, rfl⟩
  · exact ⟨some a, by rw [h]⟩

theorem orNone_of_caught {α : Type} {convert : Value → Except PyException α} {v : Value}
    {e : PyException} (h : convert v = .error e) (hcaught : Caught e) :
    ∃ found, orNone convert v = .ok found := by
  unfold orNone
  split
  · exact ⟨none, rfl⟩
  · exact ⟨none, by rw [h]; exact if_pos hcaught⟩

theorem orNone_of_not_caught {α : Type} {convert : Value → Except PyException α} {v : Value}
    {e : PyException} (hnull : v ≠ .constant .null) (h : convert v = .error e) (hcaught : ¬ Caught e) :
    orNone convert v = .error e := by
  unfold orNone
  split
  · exact absurd rfl hnull
  · rw [h]
    exact if_neg hcaught

theorem floatOrNone_ok (v : Value) : (∃ x, floatOrNone python v = .ok x) ↔ ¬ TooLarge v := by
  cases v with
  | constant c => cases c <;> exact iff_of_true ⟨_, rfl⟩ id
  | int n =>
    by_cases h : |(n : ℚ)| < Double.threshold
    · exact iff_of_true (orNone_of_ok (if_pos h)) (not_le.mpr h)
    · refine iff_of_false (fun ⟨x, hx⟩ => ?_) (not_not.mpr (not_lt.mp h))
      have hnull : Value.int n ≠ .constant .null := nofun
      have hraises : toFloat python (.int n) = .error _ := if_neg h
      rw [floatOrNone, orNone_of_not_caught hnull hraises (not_caught_overflowError _)] at hx
      cases hx
  | float x => exact iff_of_true ⟨_, rfl⟩ id
  | str s =>
    refine iff_of_true ?_ id
    cases h : python.float s with
    | some x => exact orNone_of_ok (by rw [toFloat, h])
    | none => exact orNone_of_caught (by rw [toFloat, h]) (caught_valueError _)
  | list items => exact iff_of_true (orNone_of_caught rfl (caught_typeError _)) id
  | dict members => exact iff_of_true (orNone_of_caught rfl (caught_typeError _)) id

theorem intOrNone_infinity (negative : Bool) {v : Value} (hnull : v ≠ .constant .null)
    (h : toInt python v = truncated (.infinity negative)) : ¬ ∃ n, intOrNone python v = .ok n := by
  rintro ⟨n, hn⟩
  rw [intOrNone, orNone_of_not_caught hnull h (not_caught_overflowError _)] at hn
  cases hn

theorem intOrNone_ok (v : Value) : (∃ n, intOrNone python v = .ok n) ↔ ¬ Infinite v := by
  cases v with
  | constant c =>
    cases c with
    | null => exact iff_of_true ⟨_, rfl⟩ id
    | bool b => exact iff_of_true ⟨_, rfl⟩ id
    | nan => exact iff_of_true (orNone_of_caught rfl (caught_valueError _)) id
    | infinity negative => exact iff_of_false (intOrNone_infinity negative nofun rfl) (not_not.mpr trivial)
  | int n => exact iff_of_true ⟨_, rfl⟩ id
  | float x =>
    rcases Double.ofRat_cases x.value with ⟨hsmall, hround⟩ | ⟨hlarge, hround⟩
    · exact iff_of_true (orNone_of_ok (by rw [toInt, hround, truncated])) (not_le.mpr hsmall)
    · exact iff_of_false (intOrNone_infinity _ nofun (by rw [toInt, hround])) (not_not.mpr hlarge)
  | str s =>
    refine iff_of_true ?_ id
    cases h : python.int s with
    | some n => exact orNone_of_ok (by rw [toInt, h])
    | none => exact orNone_of_caught (by rw [toInt, h]) (caught_valueError _)
  | list items => exact iff_of_true (orNone_of_caught rfl (caught_typeError _)) id
  | dict members => exact iff_of_true (orNone_of_caught rfl (caught_typeError _)) id

/-- A rate raises nothing: it is only converted from texts. -/
theorem parseRate_ok (v : Value) : ∃ fps, parseRate python v = .ok fps := by
  cases v with
  | str value =>
    have htext : ∀ s, ∃ x, floatOrNone python (.str s) = .ok x := fun s => (floatOrNone_ok (.str s)).mpr id
    rw [parseRate]
    split
    · exact ⟨none, rfl⟩
    split
    · exact htext value
    · dsimp only
      generalize String.ofList (value.toList.dropWhile (· ≠ '/')).tail = denominator
      generalize String.ofList (value.toList.takeWhile (· ≠ '/')) = numerator
      obtain ⟨x, hdenominator⟩ := htext denominator
      obtain ⟨y, hnumerator⟩ := htext numerator
      simp only [hdenominator, hnumerator, bind, Except.bind]
      split <;> exact ⟨_, rfl⟩
  | _ => exact ⟨none, rfl⟩

/-- What is false holds no long integer. -/
theorem anyInt_of_not_isTrue {v : Value} (h : isTrue v = false) : v.anyInt tooLong = false := by
  cases v with
  | int n =>
    obtain rfl : n = 0 := by simpa [isTrue] using h
    rfl
  | list items =>
    obtain rfl : items = [] := by simpa [isTrue] using h
    rfl
  | dict members =>
    obtain rfl : members = [] := by simpa [isTrue] using h
    rfl
  | _ => rfl

theorem codecName_ok : (∃ name, codecName python stream = .ok name) ↔
    (get stream "codec_name").anyInt tooLong = false := by
  unfold codecName toStr
  generalize get stream "codec_name" = v
  cases hlong : v.anyInt tooLong with
  | true =>
    have htrue : isTrue v = true := by
      by_contra h
      rw [anyInt_of_not_isTrue (Bool.eq_false_iff.mpr h)] at hlong
      cases hlong
    rw [if_pos htrue]
    exact iff_of_false (fun ⟨_, h⟩ => by cases h) Bool.noConfusion
  | false =>
    refine iff_of_true ?_ rfl
    split <;> exact ⟨_, rfl⟩

theorem duration_ok : (∃ x, duration python stream format = .ok x) ↔
    ¬ TooLarge (get stream "duration") ∧
      (∀ own, floatOrNone python (get stream "duration") = .ok own → isNumber own = false →
        ¬ TooLarge (get format "duration")) := by
  unfold duration
  simp only [← @floatOrNone_ok python]
  cases hown : floatOrNone python (get stream "duration") with
  | error e => exact iff_of_false (fun ⟨_, h⟩ => by cases h) (fun ⟨⟨_, h⟩, _⟩ => by cases h)
  | ok own =>
    cases hnumber : isNumber own with
    | true =>
      refine iff_of_true ⟨_, by simp only [bind, Except.bind, hnumber]; rfl⟩ ⟨⟨own, rfl⟩, ?_⟩
      rintro _ ⟨rfl⟩ hzero
      cases hnumber.symm.trans hzero
    | false =>
      cases hformat : floatOrNone python (get format "duration") with
      | error e =>
        refine iff_of_false (fun ⟨_, h⟩ => ?_) fun h => ?_
        · simp only [bind, Except.bind, hnumber] at h
          cases h
        · obtain ⟨_, h⟩ := h.2 own rfl hnumber
          cases h
      | ok x =>
        exact iff_of_true ⟨_, by simp only [bind, Except.bind, hnumber]; rfl⟩
          ⟨⟨own, rfl⟩, fun _ _ _ => ⟨x, rfl⟩⟩

/-- The fields of the stream and of the format that their converters get through. -/
structure Convertible (python : Interpreter) (stream format : List (String × Value)) : Prop where
  duration : ¬ TooLarge (get stream "duration")
  /-- The duration of the format is read when the stream has none, or a zero. -/
  format_duration : ∀ own, floatOrNone python (get stream "duration") = .ok own →
    isNumber own = false → ¬ TooLarge (get format "duration")
  width : ¬ Infinite (get stream "width")
  height : ¬ Infinite (get stream "height")
  codec_name : (get stream "codec_name").anyInt tooLong = false

theorem metadata_ok (jobId videoId : String) :
    (∃ m, metadata python jobId videoId stream format = .ok m) ↔ Convertible python stream format := by
  obtain ⟨fps, hfps⟩ := @parseRate_ok python
    (if isTrue (get stream "avg_frame_rate") then get stream "avg_frame_rate" else get stream "r_frame_rate")
  constructor
  · rintro ⟨m, hm⟩
    obtain ⟨x, hduration, hm⟩ := Raising.bind_eq_ok.mp hm
    obtain ⟨width, hwidth, hm⟩ := Raising.bind_eq_ok.mp hm
    obtain ⟨height, hheight, hm⟩ := Raising.bind_eq_ok.mp hm
    obtain ⟨_, -, hm⟩ := Raising.bind_eq_ok.mp hm
    obtain ⟨name, hname, -⟩ := Raising.bind_eq_ok.mp hm
    obtain ⟨hown, hformat⟩ := duration_ok.mp ⟨x, hduration⟩
    exact ⟨hown, hformat, (intOrNone_ok _).mp ⟨width, hwidth⟩, (intOrNone_ok _).mp ⟨height, hheight⟩,
      codecName_ok.mp ⟨name, hname⟩⟩
  · intro h
    obtain ⟨x, hduration⟩ := duration_ok.mpr ⟨h.duration, h.format_duration⟩
    obtain ⟨width, hwidth⟩ := (@intOrNone_ok python _).mpr h.width
    obtain ⟨height, hheight⟩ := (@intOrNone_ok python _).mpr h.height
    obtain ⟨name, hname⟩ := (@codecName_ok python stream).mpr h.codec_name
    refine ⟨_, Raising.bind_eq_ok.mpr ⟨x, hduration, Raising.bind_eq_ok.mpr ⟨width, hwidth, Raising.bind_eq_ok.mpr ⟨height, hheight,
      Raising.bind_eq_ok.mpr ⟨fps, hfps, Raising.bind_eq_ok.mpr ⟨name, hname, rfl⟩⟩⟩⟩⟩⟩

/-! ## What the exceptions are -/

/-- Every exception of the computation is a stray one. -/
def RaisesStray {α : Type} (x : Except PyException α) : Prop := ∀ e, x = .error e → Stray e

theorem RaisesStray.bind {α β : Type} {x : Except PyException α} {f : α → Except PyException β}
    (hx : RaisesStray x) (hf : ∀ a, RaisesStray (f a)) : RaisesStray (x >>= f) := fun e he =>
  (Raising.bind_eq_error.mp he).elim (hx e) fun ⟨a, _, hraises⟩ => hf a e hraises

theorem raisesStray_ok {α : Type} (a : α) : RaisesStray (Except.ok a) := nofun

theorem raisesStray_other {α : Type} (className text : String) :
    RaisesStray (Except.error (.other className text) : Except PyException α) := fun _ he =>
  ⟨className, text, (Except.error.inj he).symm⟩

theorem toFloat_stray (v : Value) : RaisesStray (toFloat python v) := by
  unfold toFloat
  split
  case h_4 => split <;> first | exact raisesStray_ok _ | exact raisesStray_other _ _
  case h_6 => split <;> first | exact raisesStray_ok _ | exact raisesStray_other _ _
  all_goals first | exact raisesStray_ok _ | exact raisesStray_other _ _

theorem truncated_stray (x : Double) : RaisesStray (truncated x) := by
  cases x with
  | finite => exact raisesStray_ok _
  | infinity | nan => exact raisesStray_other _ _

theorem toInt_stray (v : Value) : RaisesStray (toInt python v) := by
  unfold toInt
  split
  case h_6 => split <;> first | exact raisesStray_ok _ | exact raisesStray_other _ _
  all_goals first | exact raisesStray_ok _ | exact raisesStray_other _ _ | exact truncated_stray _

theorem orNone_stray {α : Type} {convert : Value → Except PyException α} {v : Value}
    (h : RaisesStray (convert v)) : RaisesStray (orNone convert v) := by
  unfold orNone
  split
  · exact raisesStray_ok _
  · cases hv : convert v with
    | ok a => exact raisesStray_ok _
    | error e =>
      dsimp only
      split
      · exact raisesStray_ok _
      · exact fun e' he => h e' (hv.trans (congrArg Except.error (Except.error.inj he)))

theorem metadata_stray (jobId videoId : String) :
    RaisesStray (metadata python jobId videoId stream format) := by
  have hfloat : ∀ v, RaisesStray (floatOrNone python v) := fun v => orNone_stray (toFloat_stray v)
  have hint : ∀ v, RaisesStray (intOrNone python v) := fun v => orNone_stray (toInt_stray v)
  have hduration : RaisesStray (duration python stream format) := by
    refine (hfloat _).bind fun own => ?_
    dsimp only
    split
    · exact raisesStray_ok _
    · exact (hfloat _).bind fun _ => raisesStray_ok _
  have hname : RaisesStray (codecName python stream) := by
    unfold codecName toStr
    split
    · split
      · exact raisesStray_other _ _
      · exact raisesStray_ok _
    · exact raisesStray_ok _
  refine hduration.bind fun _ => (hint _).bind fun _ => (hint _).bind fun _ => RaisesStray.bind ?_ fun _ =>
    hname.bind fun _ => raisesStray_ok _
  obtain ⟨fps, hfps⟩ := @parseRate_ok python
    (if isTrue (get stream "avg_frame_rate") then get stream "avg_frame_rate" else get stream "r_frame_rate")
  rw [hfps]
  exact raisesStray_ok fps

/-- The exceptions of a bad video are the only ones. -/
def Classified (outcome : Except PyException Metadata) : Prop :=
  ∀ e, outcome = .error e → (∃ message, e = videoProbeError message) ∨ e = noVideoStreamError

theorem Stray.not_badVideo {e : PyException} (h : Stray e) :
    ¬ ((∃ message, e = videoProbeError message) ∨ e = noVideoStreamError) := by
  obtain ⟨className, text, rfl⟩ := h
  rintro (⟨message, h⟩ | h) <;> cases h

theorem badVideo_terminal {e : PyException}
    (h : (∃ message, e = videoProbeError message) ∨ e = noVideoStreamError) (attempts maxAttempts : Int) :
    (classifyProcessingError e attempts maxAttempts).status = .failedTerminal := by
  rcases h with ⟨message, rfl⟩ | rfl <;> rfl

/-- The document is one that `parse_ffprobe_metadata` has an answer or a bad video for. -/
def Decodable (python : Interpreter) (v : Value) : Prop :=
  ∃ payload, v = .dict payload ∧ ∀ streams stream, get payload "streams" = .list streams →
    videoStream streams = some stream → Convertible python stream (formatPayload payload)

theorem classified_iff_ok {outcome : Except PyException Metadata} (h : RaisesStray outcome) :
    Classified outcome ↔ ∃ m, outcome = .ok m := by
  cases outcome with
  | ok m => exact iff_of_true (fun _ he => by cases he) ⟨m, rfl⟩
  | error e =>
    exact iff_of_false (fun hbad => (h e rfl).not_badVideo (hbad e rfl)) fun ⟨_, hm⟩ => by cases hm

theorem classified_badVideo {e : PyException}
    (h : (∃ message, e = videoProbeError message) ∨ e = noVideoStreamError) : Classified (.error e) :=
  fun _ he => Except.error.inj he ▸ h

theorem parse_classified_iff (jobId videoId : String) (v : Value) :
    Classified (parseFfprobeMetadata python jobId videoId v) ↔ Decodable python v := by
  cases v with
  | dict payload =>
    rw [parseFfprobeMetadata]
    cases hstreams : get payload "streams" with
    | list streams =>
      dsimp only
      cases hstream : videoStream streams with
      | none =>
        refine iff_of_true (classified_badVideo (.inr rfl)) ⟨payload, rfl, fun streams' stream h h' => ?_⟩
        rw [hstreams] at h
        obtain rfl := Value.list.inj h
        cases hstream.symm.trans h'
      | some stream =>
        dsimp only
        rw [classified_iff_ok (metadata_stray jobId videoId), metadata_ok]
        refine ⟨fun hconv => ⟨payload, rfl, fun streams' stream' h h' => ?_⟩, fun ⟨payload', h, hconv⟩ => ?_⟩
        · obtain rfl := Value.list.inj (hstreams.symm.trans h)
          obtain rfl := Option.some.inj (hstream.symm.trans h')
          exact hconv
        · obtain rfl := Value.dict.inj h
          exact hconv streams stream hstreams hstream
    | _ =>
      refine iff_of_true (classified_badVideo (.inl ⟨_, rfl⟩)) ⟨payload, rfl, fun streams' stream h => ?_⟩
      cases hstreams.symm.trans h
  | _ =>
    refine iff_of_false (fun h => ?_) (fun ⟨payload, h, _⟩ => by cases h)
    exact Stray.not_badVideo ⟨_, _, rfl⟩ (h _ rfl)

/-- A probe that exits well ends in metadata or a bad video, which is terminal, if and only if its output
is no document, or one that the converters get through. -/
theorem classified_iff (python : Interpreter) (jobId videoId stdout : String) :
    (Classified (probe python jobId videoId stdout) ↔
      ∀ v, Json.loads stdout.toList = some v → Decodable python v) ∧
    ∀ e, ((∃ message, e = videoProbeError message) ∨ e = noVideoStreamError) →
      ∀ attempts maxAttempts, (classifyProcessingError e attempts maxAttempts).status = .failedTerminal := by
  refine ⟨?_, fun e h => badVideo_terminal h⟩
  rw [probe]
  cases h : Json.loads stdout.toList with
  | none => exact iff_of_true (classified_badVideo (.inl ⟨_, rfl⟩)) nofun
  | some v =>
    dsimp only
    rw [parse_classified_iff]
    exact ⟨fun hv v' h' => Option.some.inj h' ▸ hv, fun hv => hv v rfl⟩

/-! ## An empty list -/

/-- Texts as `float` and `int` read them, for digits only. -/
def digitsOnly : Interpreter where
  float s := if s.toList.all Char.isDigit ∧ s ≠ "" then some (Double.ofRat (Nat.ofDigitChars 10 s.toList 0)) else none
  int := Auth.parseInt
  str v := String.ofList v.text

/-- A list at the top raises an exception that is retried. -/
theorem list_retried :
    probe digitsOnly "job" "clip" "[]" =
        .error (.other "AttributeError" "'list' object has no attribute 'get'") ∧
      ¬ Classified (probe digitsOnly "job" "clip" "[]") ∧
      (classifyProcessingError (.other "AttributeError" "'list' object has no attribute 'get'") 1 3).status =
        .failedRetryable := by
  have hraises : probe digitsOnly "job" "clip" "[]" =
      .error (.other "AttributeError" "'list' object has no attribute 'get'") := by rfl
  refine ⟨hraises, fun h => ?_, rfl⟩
  exact Stray.not_badVideo ⟨_, _, rfl⟩ (h _ hraises)

end NsfwDetector.Probe
