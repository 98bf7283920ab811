import NsfwDetector.Core.Errors
import Mathlib.Data.List.DropRight

/-!
# Signed requests

Both headers must be there, the timestamp must be a recent one, and the signature must be the one
that the secret gives. The digests themselves are not computed here.
-/

namespace NsfwDetector.Auth

/-! ## Headers -/

def timestampHeader : String := "x-internal-timestamp"

def signatureHeader : String := "x-internal-signature"

def signedRequestHeaders : List String := [timestampHeader, signatureHeader]

/-- The headers of a request as the server hands them over: names in lower case, and bytes. -/
abbrev Headers := List (String × List UInt8)

def decodeLatin1 (bytes : List UInt8) : String := String.ofList (bytes.map fun b => Char.ofNat b.toNat)

def getHeader (headers : Headers) (key : String) : Option String := (headers.lookup key).map decodeLatin1

/-! ## Integers -/

/-- The Latin-1 characters that `int` strips. -/
def isIntSpace (c : Char) : Bool :=
  (0x9 ≤ c.toNat && c.toNat ≤ 0xd) || [0x20, 0x85, 0xa0].contains c.toNat

/-- The default of `sys.get_int_max_str_digits`. -/
def maxStrDigits : Nat := 4300

/-- The digits of a decimal number. Single underscores may stand between them. -/
def decimalDigits (text : List Char) : Option (List Char) :=
  let groups := text.splitOn '_'
  if groups.all fun group => group ≠ [] && group.all Char.isDigit then some groups.flatten else none

def unsignedInt (text : List Char) : Option Nat := do
  let digits ← decimalDigits text
  if digits.length ≤ maxStrDigits then some (Nat.ofDigitChars 10 digits 0) else none

/-- `int(value)`; `none` is its `ValueError`. -/
def parseInt (value : String) : Option Int :=
  match (value.toList.dropWhile isIntSpace).rdropWhile isIntSpace with
  | '-' :: text => (unsignedInt text).map fun n => -(n : Int)
  | '+' :: text => (unsignedInt text).map fun n => (n : Int)
  | text => (unsignedInt text).map fun n => (n : Int)

/-! ## Signatures -/

def IsLowerHex (c : Char) : Prop := c.isDigit = true ∨ ('a' ≤ c ∧ c ≤ 'f')

/-- `hashlib.sha256(...).hexdigest()`, and the same of `hmac.new`. -/
structure Digests where
  sha256 : ByteArray → String
  hmacSha256 : ByteArray → ByteArray → String
  hex_length : ∀ key message, (hmacSha256 key message).toList.length = 64
  hex_lower : ∀ key message, ∀ c ∈ (hmacSha256 key message).toList, IsLowerHex c

def signatureHexLength : Nat := 64

/-- `string.hexdigits` -/
def isHexDigit (c : Char) : Bool :=
  c.isDigit || ('a' ≤ c && c ≤ 'f') || ('A' ≤ c && c ≤ 'F')

section

variable (digests : Digests)

/-- HTTP methods are ASCII, and there `toUpper` is `upper`. -/
def buildSignatureMessage (timestamp method path : String) (body : ByteArray) : ByteArray :=
  ("\n".intercalate [timestamp, method.toUpper, path, digests.sha256 body]).toUTF8

def signatureHasValidShape (signature : String) : Bool :=
  signature.toList.length = signatureHexLength && signature.toList.all isHexDigit

def signRequest (secret timestamp method path : String) (body : ByteArray) : String :=
  digests.hmacSha256 secret.toUTF8 (buildSignatureMessage digests timestamp method path body)

def verifySignature (secret timestamp method path : String) (body : ByteArray) (signature : String) :
    Bool :=
  if signatureHasValidShape signature then
    signRequest digests secret timestamp method path body = signature
  else false

/-! ## Authentication -/

structure SignedRequestContext where
  timestamp : Int

def unauthorized (code message : String) : PyException := .appError code message 401

/-- `now` is `int(time.time())`. -/
def authenticate (settings : Settings) (now : Int) (method path : String) (headers : Headers)
    (rawBody : ByteArray) : Except PyException SignedRequestContext :=
  let missing := signedRequestHeaders.filter fun header => !truthy (getHeader headers header)
  if missing ≠ [] then
    .error (unauthorized Codes.authMissingHeaders "missing internal auth headers")
  else
    match settings.internalRequestHmacSecret with
    | none => .error (unauthorized Codes.authBadSignature "invalid internal signature")
    | some secret =>
      match getHeader headers timestampHeader, getHeader headers signatureHeader with
      | some timestampRaw, some signature =>
        match parseInt timestampRaw with
        | none => .error (unauthorized Codes.authBadTimestamp "timestamp must be unix seconds")
        | some timestamp =>
          if ((now - timestamp).natAbs : Int) > settings.internalRequestMaxSkewSec then
            .error (unauthorized Codes.authTimestampOutOfRange "stale internal request timestamp")
          else if verifySignature digests secret timestampRaw method path rawBody signature then
            .ok ⟨timestamp⟩
          else .error (unauthorized Codes.authBadSignature "invalid internal signature")
      | _, _ => .error (.other "KeyError" "header")

/-! ## What is accepted -/

/-- Everything that is asked of a request but for the secret. -/
structure Signed (secret : String) (settings : Settings) (now : Int) (method path : String)
    (headers : Headers) (rawBody : ByteArray) (raw signature : String) (timestamp : Int) : Prop where
  timestamp_header : getHeader headers timestampHeader = some raw
  signature_header : getHeader headers signatureHeader = some signature
  nonempty : raw ≠ "" ∧ signature ≠ ""
  parsed : parseInt raw = some timestamp
  recent : ((now - timestamp).natAbs : Int) ≤ settings.internalRequestMaxSkewSec
  signed : signature = signRequest digests secret raw method path rawBody

theorem isHexDigit_of_lower {c : Char} (h : IsLowerHex c) : isHexDigit c = true := by
  unfold isHexDigit
  rcases h with h | h <;> simp [h]

/-- A digest has the shape of a signature, so the shape check refuses none. -/
theorem verifySignature_iff (secret timestamp method path : String) (body : ByteArray)
    (signature : String) : verifySignature digests secret timestamp method path body signature = true ↔
      signature = signRequest digests secret timestamp method path body := by
  unfold verifySignature
  constructor
  · intro h
    split at h
    · exact (of_decide_eq_true h).symm
    · cases h
  · intro h
    have hshape : signatureHasValidShape signature = true := by
      unfold signatureHasValidShape
      rw [h, Bool.and_eq_true, decide_eq_true_eq, List.all_eq_true]
      exact ⟨digests.hex_length _ _, fun c hc => isHexDigit_of_lower (digests.hex_lower _ _ c hc)⟩
    rw [if_pos hshape]
    exact decide_eq_true h.symm

theorem missing_eq_nil {headers : Headers} :
    signedRequestHeaders.filter (fun header => !truthy (getHeader headers header)) = [] ↔
      truthy (getHeader headers timestampHeader) = true ∧
        truthy (getHeader headers signatureHeader) = true := by
  simp [signedRequestHeaders]

theorem truthy_iff {value : Option String} : truthy value = true ↔ ∃ s, value = some s ∧ s ≠ "" := by
  cases value <;> simp [truthy]

variable (settings : Settings) (now : Int) (method path : String) (headers : Headers)
  (rawBody : ByteArray)

def SignedWith (secret : String) : Prop :=
  ∃ raw signature timestamp,
    Signed digests secret settings now method path headers rawBody raw signature timestamp

section

variable {digests settings now method path headers rawBody} {secret raw signature : String}

/-- The headers are the ones that are read, so the signed request is about them. -/
theorem signedWith_iff (hraw : getHeader headers timestampHeader = some raw)
    (hsignature : getHeader headers signatureHeader = some signature) :
    SignedWith digests settings now method path headers rawBody secret ↔
      ∃ timestamp, Signed digests secret settings now method path headers rawBody raw signature
        timestamp := by
  constructor
  · rintro ⟨raw', signature', timestamp, h⟩
    cases hraw.symm.trans h.timestamp_header
    cases hsignature.symm.trans h.signature_header
    exact ⟨timestamp, h⟩
  · rintro ⟨timestamp, h⟩
    exact ⟨raw, signature, timestamp, h⟩

theorem not_signedWith_of_missing
    (hmissing : signedRequestHeaders.filter (fun header => !truthy (getHeader headers header)) ≠ []) :
    ¬ SignedWith digests settings now method path headers rawBody secret := by
  rintro ⟨raw, signature, timestamp, h⟩
  exact hmissing (missing_eq_nil.mpr ⟨truthy_iff.mpr ⟨_, h.timestamp_header, h.nonempty.1⟩,
    truthy_iff.mpr ⟨_, h.signature_header, h.nonempty.2⟩⟩)

/-- With both headers there and a secret set, the time and then the signature decide. -/
theorem authenticate_of_headers (hraw : getHeader headers timestampHeader = some raw)
    (hsignature : getHeader headers signatureHeader = some signature) (hraw_ne : raw ≠ "")
    (hsignature_ne : signature ≠ "") (hsecret : settings.internalRequestHmacSecret = some secret) :
    (∃ timestamp, authenticate digests settings now method path headers rawBody = .ok ⟨timestamp⟩ ∧
      Signed digests secret settings now method path headers rawBody raw signature timestamp) ∨
    ((∃ code message, authenticate digests settings now method path headers rawBody =
        .error (.appError code message 401)) ∧
      ¬ ∃ timestamp, Signed digests secret settings now method path headers rawBody raw signature
        timestamp) := by
  have hmissing : signedRequestHeaders.filter (fun header => !truthy (getHeader headers header)) = [] :=
    missing_eq_nil.mpr ⟨truthy_iff.mpr ⟨raw, hraw, hraw_ne⟩,
      truthy_iff.mpr ⟨signature, hsignature, hsignature_ne⟩⟩
  simp only [authenticate, hmissing, ne_eq, not_true_eq_false, if_false, hraw, hsignature, hsecret]
  cases htime : parseInt raw with
  | none =>
    refine Or.inr ⟨⟨_, _, rfl⟩, ?_⟩
    rintro ⟨timestamp, h⟩
    cases htime.symm.trans h.parsed
  | some timestamp =>
    simp only
    split
    · next hstale =>
      refine Or.inr ⟨⟨_, _, rfl⟩, ?_⟩
      rintro ⟨timestamp', h⟩
      cases htime.symm.trans h.parsed
      exact absurd h.recent (not_le.mpr hstale)
    · next hrecent =>
      split
      · next hsigned =>
        exact Or.inl ⟨timestamp, rfl, hraw, hsignature, ⟨hraw_ne, hsignature_ne⟩, htime,
          not_lt.mp hrecent, (verifySignature_iff digests _ _ _ _ _ _).mp hsigned⟩
      · next hunsigned =>
        refine Or.inr ⟨⟨_, _, rfl⟩, ?_⟩
        rintro ⟨timestamp', h⟩
        exact hunsigned ((verifySignature_iff digests _ _ _ _ _ _).mpr h.signed)

end

/-- A request is let in when the secret that is set signs it. Otherwise it is refused with status 401. -/
theorem authenticate_cases :
    ((∃ context, authenticate digests settings now method path headers rawBody = .ok context) ∧
      ∃ secret, settings.internalRequestHmacSecret = some secret ∧
        SignedWith digests settings now method path headers rawBody secret) ∨
    ((∃ code message, authenticate digests settings now method path headers rawBody =
        .error (.appError code message 401)) ∧
      ¬ ∃ secret, settings.internalRequestHmacSecret = some secret ∧
        SignedWith digests settings now method path headers rawBody secret) := by
  by_cases hmissing : signedRequestHeaders.filter (fun header => !truthy (getHeader headers header)) = []
  · obtain ⟨htimestamp, hsignature⟩ := missing_eq_nil.mp hmissing
    obtain ⟨raw, hraw, hraw_ne⟩ := truthy_iff.mp htimestamp
    obtain ⟨signature, hsignature, hsignature_ne⟩ := truthy_iff.mp hsignature
    cases hsecret : settings.internalRequestHmacSecret with
    | none =>
      refine Or.inr ⟨⟨Codes.authBadSignature, "invalid internal signature", ?_⟩, by simp⟩
      simp only [authenticate, hmissing, ne_eq, not_true_eq_false, if_false, hsecret, unauthorized]
    | some secret =>
      simp only [Option.some.injEq, exists_eq_left', signedWith_iff hraw hsignature]
      rcases authenticate_of_headers hraw hsignature hraw_ne hsignature_ne hsecret with
        ⟨timestamp, hok, hsigned⟩ | hrefused
      · exact Or.inl ⟨⟨_, hok⟩, timestamp, hsigned⟩
      · exact Or.inr hrefused
  · refine Or.inr ⟨⟨Codes.authMissingHeaders, "missing internal auth headers", ?_⟩, ?_⟩
    · simp only [authenticate, hmissing, ne_eq, not_false_eq_true, if_true, unauthorized]
    · rintro ⟨secret, -, hsigned⟩
      exact not_signedWith_of_missing hmissing hsigned

/-- The request is signed with a secret that is set, and not to the empty text. -/
def Authentic : Prop :=
  ∃ secret, settings.internalRequestHmacSecret = some secret ∧ secret ≠ "" ∧
    SignedWith digests settings now method path headers rawBody secret

/-- Authentic requests are let in, and all others get a 401. -/
structure Exact : Prop where
  accepts : (∃ context, authenticate digests settings now method path headers rawBody = .ok context) ↔
    Authentic digests settings now method path headers rawBody
  refuses : ¬ Authentic digests settings now method path headers rawBody →
    ∃ code message, authenticate digests settings now method path headers rawBody =
      .error (.appError code message 401)

/-- The one request that gets in by mistake is signed with the empty secret, where that is set. -/
theorem exact_iff : Exact digests settings now method path headers rawBody ↔
    ¬ (settings.internalRequestHmacSecret = some "" ∧
      SignedWith digests settings now method path headers rawBody "") := by
  rcases authenticate_cases digests settings now method path headers rawBody with
    ⟨⟨context, hok⟩, secret, hsecret, hsigned⟩ | ⟨⟨code, message, herror⟩, hnot⟩
  · constructor
    · rintro h ⟨hempty, -⟩
      obtain ⟨secret', hsecret', hne, -⟩ := h.accepts.mp ⟨context, hok⟩
      exact hne (Option.some.inj (hsecret'.symm.trans hempty))
    · intro h
      have hne : secret ≠ "" := by
        rintro rfl
        exact h ⟨hsecret, hsigned⟩
      have hauthentic : Authentic digests settings now method path headers rawBody :=
        ⟨secret, hsecret, hne, hsigned⟩
      exact ⟨iff_of_true ⟨context, hok⟩ hauthentic, fun hnot => absurd hauthentic hnot⟩
  · have hnone : ¬ Authentic digests settings now method path headers rawBody := by
      rintro ⟨secret, hsecret, -, hsigned⟩
      exact hnot ⟨secret, hsecret, hsigned⟩
    refine iff_of_true ⟨iff_of_false ?_ hnone, fun _ => ⟨code, message, herror⟩⟩ ?_
    · rintro ⟨context, hok⟩
      cases hok.symm.trans herror
    · rintro ⟨hempty, hsigned⟩
      exact hnot ⟨"", hempty, hsigned⟩

end

/-! ## An empty secret -/

/-- The SHA-256 of no bytes. -/
def emptyBodyDigest : String := "e3b0c44298fc1c149afbf4c8996fb92427ae41e4649b934ca495991b7852b855"

/-- The HMAC of the request below under the empty key. -/
def emptyKeyDigest : String := "aad4d01d1f045d9765bb4766bada3eb4c5a5c534b5e79edff13d5a0b49705593"

/-- The digests that one request needs. -/
def sampleDigests : Digests where
  sha256 _ := emptyBodyDigest
  hmacSha256 _ _ := emptyKeyDigest
  hex_length _ _ := by decide
  hex_lower _ _ := by
    have hall : (emptyKeyDigest.toList.all fun c => c.isDigit || ('a' ≤ c && c ≤ 'f')) = true := by
      decide
    intro c hc
    simpa [IsLowerHex] using List.all_eq_true.mp hall c hc

def latin1 (value : String) : List UInt8 := value.toList.map fun c => UInt8.ofNat c.toNat

def sampleHeaders : Headers :=
  [(timestampHeader, latin1 "1700000000"), (signatureHeader, latin1 emptyKeyDigest)]

theorem empty_secret_accepted :
    authenticate sampleDigests { internalRequestHmacSecret := some "" } 1700000000 "POST"
        "/v1/videos/detect" sampleHeaders ByteArray.empty = .ok ⟨1700000000⟩ ∧
      ¬ Exact sampleDigests { internalRequestHmacSecret := some "" } 1700000000 "POST"
        "/v1/videos/detect" sampleHeaders ByteArray.empty := by
  have hok : authenticate sampleDigests { internalRequestHmacSecret := some "" } 1700000000 "POST"
      "/v1/videos/detect" sampleHeaders ByteArray.empty = .ok ⟨1700000000⟩ := by rfl
  refine ⟨hok, fun h => ?_⟩
  obtain ⟨secret, hsecret, hne, -⟩ := h.accepts.mp ⟨_, hok⟩
  exact hne (Option.some.inj hsecret).symm

end NsfwDetector.Auth
