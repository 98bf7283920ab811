import NsfwDetector.Services.Auth
import NsfwDetector.Text.Search
import Mathlib.Data.Set.Function

/-!
# The message under a signature

Four texts are joined by line breaks, and one of them may hold line breaks itself. The first two hold
none and the last has a fixed length, so the joints can still be told.
-/

namespace NsfwDetector.SignatureFraming

open Auth (Digests signatureHasValidShape)

structure Request where
  timestamp : String
  method : String
  path : String
  body : ByteArray

/-- Neither the timestamp nor the method has a line break. -/
def Request.Plain (request : Request) : Prop :=
  '\n' ∉ request.timestamp.toList ∧ '\n' ∉ request.method.toList

section

-- `upper` is `str.upper`, which knows more letters than `toUpper`.
variable (upper : String → String) (digests : Digests)

def buildSignatureMessage (request : Request) : ByteArray :=
  ("\n".intercalate
    [request.timestamp, upper request.method, request.path, digests.sha256 request.body]).toUTF8

def signRequest (secret : String) (request : Request) : String :=
  digests.hmacSha256 secret.toUTF8 (buildSignatureMessage upper digests request)

def verifySignature (secret : String) (request : Request) (signature : String) : Bool :=
  if signatureHasValidShape signature then signRequest upper digests secret request = signature
  else false

end

/-- For methods in ASCII this is what authenticates the requests. -/
theorem verifySignature_toUpper (digests : Digests) (secret : String) (request : Request)
    (signature : String) :
    verifySignature String.toUpper digests secret request signature =
      Auth.verifySignature digests secret request.timestamp request.method request.path request.body
        signature := rfl

/-! ## Joints -/

variable {upper : String → String} {digests : Digests} {request request' : Request}

theorem joined_toList (a b c d : String) : ("\n".intercalate [a, b, c, d]).toList =
    a.toList ++ '\n' :: (b.toList ++ '\n' :: (c.toList ++ '\n' :: d.toList)) := by
  have hbreak : "\n".toList = ['\n'] := rfl
  simp only [String.intercalate_cons_cons, String.intercalate_singleton, String.toList_append, hbreak,
    List.append_assoc, List.cons_append, List.nil_append]

theorem joined_injective {a a' b b' c c' d d' : String}
    (h : "\n".intercalate [a, b, c, d] = "\n".intercalate [a', b', c', d']) (ha : '\n' ∉ a.toList)
    (ha' : '\n' ∉ a'.toList) (hb : '\n' ∉ b.toList) (hb' : '\n' ∉ b'.toList)
    (hd : d.toList.length = d'.toList.length) : a = a' ∧ b = b' ∧ c = c' ∧ d = d' := by
  have hchars := congrArg String.toList h
  rw [joined_toList, joined_toList] at hchars
  obtain ⟨hfirst, hrest⟩ := Search.append_cons_inj ha ha' hchars
  obtain ⟨hsecond, hlast⟩ := Search.append_cons_inj hb hb' hrest
  -- A line break may also stand in the third text, so the last joint is counted from the end.
  obtain ⟨hthird, hfourth⟩ := List.append_inj' hlast (congrArg (· + 1) hd)
  exact ⟨String.toList_injective hfirst, String.toList_injective hsecond,
    String.toList_injective hthird, String.toList_injective (List.cons.inj hfourth).2⟩

/-- Requests that a signature does not tell apart. -/
structure Alike (upper : String → String) (digests : Digests) (request request' : Request) : Prop where
  timestamp : request.timestamp = request'.timestamp
  method : upper request.method = upper request'.method
  path : request.path = request'.path
  body : digests.sha256 request.body = digests.sha256 request'.body

theorem alike_of_message (hupper : ∀ method : String, '\n' ∉ method.toList → '\n' ∉ (upper method).toList)
    (hsha : ∀ body, (digests.sha256 body).toList.length = 64) (h : request.Plain) (h' : request'.Plain)
    (heq : buildSignatureMessage upper digests request = buildSignatureMessage upper digests request') :
    Alike upper digests request request' := by
  obtain ⟨htimestamp, hmethod, hpath, hbody⟩ := joined_injective (String.toByteArray_inj.mp heq) h.1 h'.1
    (hupper _ h.2) (hupper _ h'.2) ((hsha _).trans (hsha _).symm)
  exact ⟨htimestamp, hmethod, hpath, hbody⟩

theorem signRequest_of_verifies {secret signature : String}
    (h : verifySignature upper digests secret request signature = true) :
    signRequest upper digests secret request = signature := by
  unfold verifySignature at h
  split at h
  · exact of_decide_eq_true h
  · cases h

/-- Equal messages are of requests that are alike. So among requests without a collision of the digests
the signature of one is accepted for those only that have its timestamp, path and body, and its method
up to case. -/
theorem framing_unambiguous (upper : String → String) (digests : Digests)
    (hupper : ∀ method : String, '\n' ∉ method.toList → '\n' ∉ (upper method).toList)
    (hsha : ∀ body, (digests.sha256 body).toList.length = 64) :
    (∀ request request', request.Plain → request'.Plain →
      buildSignatureMessage upper digests request = buildSignatureMessage upper digests request' →
        Alike upper digests request request') ∧
    ∀ (secret : String) (requests : Set Request), (∀ request ∈ requests, request.Plain) →
      Set.InjOn (digests.hmacSha256 secret.toUTF8) (buildSignatureMessage upper digests '' requests) →
      Set.InjOn digests.sha256 (Request.body '' requests) →
      ∀ request ∈ requests, ∀ request' ∈ requests,
        verifySignature upper digests secret request' (signRequest upper digests secret request) = true →
          request'.timestamp = request.timestamp ∧ upper request'.method = upper request.method ∧
            request'.path = request.path ∧ request'.body = request.body := by
  refine ⟨fun request request' h h' => alike_of_message hupper hsha h h', ?_⟩
  intro secret requests hplain hhmac hdigest request hmem request' hmem' hverifies
  have hmessage : buildSignatureMessage upper digests request' = buildSignatureMessage upper digests request :=
    hhmac (Set.mem_image_of_mem _ hmem') (Set.mem_image_of_mem _ hmem) (signRequest_of_verifies hverifies)
  have halike := alike_of_message hupper hsha (hplain _ hmem') (hplain _ hmem) hmessage
  have hbody := hdigest (Set.mem_image_of_mem _ hmem') (Set.mem_image_of_mem _ hmem) halike.body
  exact ⟨halike.timestamp, halike.method, halike.path, hbody⟩

/-! ## One request -/

theorem toUpper_newline (method : String) (h : '\n' ∉ method.toList) :
    '\n' ∉ (String.toUpper method).toList := by
  rw [String.toUpper, String.toList_map]
  intro hmem
  obtain ⟨c, hc, hupper⟩ := List.mem_map.mp hmem
  unfold Char.toUpper at hupper
  split at hupper
  · next hletter =>
    have hcode := congrArg Char.val hupper
    simp only [UInt32.le_iff_toNat_le, ← UInt32.toNat_inj] at hletter hcode
    simp at hletter hcode
    omega
  · exact h (hupper ▸ hc)

/-- A request whose path has a line break. -/
def detectRequest (method : String) : Request :=
  ⟨"1700000000", method, "/v1/videos\n/detect", ByteArray.empty⟩

/-- The signature is accepted for the request again, and only the case of the method may differ. -/
theorem detect_signature_accepted :
    verifySignature String.toUpper Auth.sampleDigests "" (detectRequest "post")
        (signRequest String.toUpper Auth.sampleDigests "" (detectRequest "POST")) = true ∧
      String.toUpper (detectRequest "post").method = String.toUpper (detectRequest "POST").method := by
  have hsha : Auth.emptyBodyDigest.toList.length = 64 := by decide
  have hframing := framing_unambiguous String.toUpper Auth.sampleDigests toUpper_newline fun _ => hsha
  have hplain : ∀ request ∈ ({detectRequest "POST", detectRequest "post"} : Set Request),
      request.Plain := by
    rintro _ (rfl | rfl) <;> simp [Request.Plain, detectRequest]
  have haccepted : verifySignature String.toUpper Auth.sampleDigests "" (detectRequest "post")
      (signRequest String.toUpper Auth.sampleDigests "" (detectRequest "POST")) = true := by rfl
  have hmethod : String.toUpper "post" = String.toUpper "POST" := by
    apply String.toList_injective
    simp [String.toUpper, String.toList_map]
  have hmessage : buildSignatureMessage String.toUpper Auth.sampleDigests (detectRequest "post") =
      buildSignatureMessage String.toUpper Auth.sampleDigests (detectRequest "POST") := by
    simp only [buildSignatureMessage, detectRequest, hmethod]
  refine ⟨haccepted, (hframing.2 "" _ hplain ?_ ?_ _ (.inl rfl) _ (.inr rfl) haccepted).2.1⟩
  · rintro _ ⟨_, rfl | rfl, rfl⟩ _ ⟨_, rfl | rfl, rfl⟩ - <;> simp only [hmessage]
  · rintro _ ⟨_, rfl | rfl, rfl⟩ _ ⟨_, rfl | rfl, rfl⟩ - <;> rfl

end NsfwDetector.SignatureFraming
