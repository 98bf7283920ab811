import NsfwDetector.Services.Auth
import NsfwDetector.Stores.Kvrocks

/-!
# A job as a hash of strings

The queue writes every field as text, and an absent one as the empty text. So an empty optional field
comes back as an absent one.
-/

namespace NsfwDetector.JobCodec

/-- A `dict[str, str]`. -/
abbrev Mapping := List (String × String)

/-- `datetime.isoformat` and its inverse. -/
structure IsoFormat where
  isoformat : Time → String
  fromisoformat : String → Option Time
  inverse : ∀ t, fromisoformat (isoformat t) = some t
  nonempty : ∀ t, isoformat t ≠ ""

/-! ## Integers as text -/

/-- `str(value)`, within the limit on the digits. -/
def strOfInt (value : Int) : Except PyException String :=
  if (Nat.toDigits 10 value.natAbs).length ≤ Auth.maxStrDigits then .ok (toString value)
  else .error (.valueError "Exceeds the limit (4300 digits) for integer string conversion")

/-- `int(value)`. A hash holds what `str` wrote. -/
def intOfStr (value : String) : Except PyException Int :=
  match Auth.parseInt value with
  | some n => .ok n
  | none => .error (.valueError s!"invalid literal for int() with base 10: '{value}'")

theorem not_isIntSpace {c : Char} (h : c.isDigit = true ∨ c = '-') : Auth.isIntSpace c = false := by
  rcases h with h | rfl
  · simp only [Char.isDigit, Bool.and_eq_true, decide_eq_true_eq, UInt32.le_iff_toNat_le] at h
    have hlow : 48 ≤ c.toNat := h.1
    have hhigh : c.toNat ≤ 57 := h.2
    have hcontrol : ¬ c.toNat ≤ 0xd := by omega
    have hblank : ¬ c.toNat = 0x20 ∧ ¬ c.toNat = 0x85 ∧ ¬ c.toNat = 0xa0 := by omega
    simpa [Auth.isIntSpace, hcontrol] using hblank
  · decide

/-- `int` strips nothing from digits and a sign. -/
theorem stripped {text : List Char} (h : ∀ c ∈ text, c.isDigit = true ∨ c = '-') :
    (text.dropWhile Auth.isIntSpace).rdropWhile Auth.isIntSpace = text := by
  have hdrop : text.dropWhile Auth.isIntSpace = text :=
    List.dropWhile_eq_self_iff.mpr fun hlen => by
      rw [not_isIntSpace (h _ (List.getElem_mem hlen))]
      exact Bool.false_ne_true
  rw [hdrop]
  exact List.rdropWhile_eq_self_iff.mpr fun hne => by
    rw [not_isIntSpace (h _ (List.getLast_mem hne))]
    exact Bool.false_ne_true

theorem unsignedInt_toDigits {n : Nat} (h : (Nat.toDigits 10 n).length ≤ Auth.maxStrDigits) :
    Auth.unsignedInt (Nat.toDigits 10 n) = some n := by
  have hdigits : ∀ c ∈ Nat.toDigits 10 n, c.isDigit = true :=
    fun c => Nat.isDigit_of_mem_toDigits (by decide) (by decide)
  have hsplit : (Nat.toDigits 10 n).splitOn '_' = [Nat.toDigits 10 n] :=
    List.splitOn_eq_singleton fun hmem => absurd (hdigits _ hmem) (by decide)
  have hgroups : Auth.decimalDigits (Nat.toDigits 10 n) = some (Nat.toDigits 10 n) := by
    simp only [Auth.decimalDigits, hsplit]
    simpa [Nat.toDigits_ne_nil] using hdigits
  rw [Auth.unsignedInt, hgroups]
  simp only [Option.bind_eq_bind, Option.bind_some, if_pos h, Nat.ofDigitChars_ten_toDigits]

theorem parseInt_toString {n : Int} (h : (Nat.toDigits 10 n.natAbs).length ≤ Auth.maxStrDigits) :
    Auth.parseInt (toString n) = some n := by
  have hdigits : ∀ m : Nat, ∀ c ∈ Nat.toDigits 10 m, c.isDigit = true :=
    fun m c => Nat.isDigit_of_mem_toDigits (by decide) (by decide)
  rw [Int.toString_eq_repr, Int.repr_eq_if, Auth.parseInt]
  by_cases hn : 0 ≤ n
  · have habs : n.toNat = n.natAbs := by omega
    rw [if_pos hn, Nat.toList_repr, habs, stripped fun c hc => .inl (hdigits _ c hc)]
    split
    · next text htext => exact absurd (hdigits n.natAbs '-' (htext ▸ List.mem_cons_self)) (by decide)
    · next text htext => exact absurd (hdigits n.natAbs '+' (htext ▸ List.mem_cons_self)) (by decide)
    · rw [unsignedInt_toDigits h]
      have hn' : (n.natAbs : Int) = n := by omega
      exact congrArg some hn'
  · have habs : (-n).toNat = n.natAbs := by omega
    have htext : ("-" ++ (-n).toNat.repr).toList = '-' :: Nat.toDigits 10 n.natAbs := by
      rw [String.toList_append, Nat.toList_repr, habs]
      rfl
    rw [if_neg hn, htext, stripped fun c hc => ?_]
    · simp only [unsignedInt_toDigits h]
      have hn' : -(n.natAbs : Int) = n := by omega
      exact congrArg some hn'
    · rcases List.mem_cons.mp hc with rfl | hc
      · exact .inr rfl
      · exact .inl (hdigits _ c hc)

/-! ## The codec -/

def timeText (iso : IsoFormat) : Option Time → String
  | some t => iso.isoformat t
  | none => ""

/-- The texts of the fields, once the attempts have one. -/
def fieldTexts (iso : IsoFormat) (job : VideoJob) (attempts : String) : Mapping := [
    ("job_id", job.jobId),
    ("video_id", job.videoId),
    ("source_object_version", job.sourceObjectVersion),
    ("policy_version", job.policyVersion),
    ("status", job.status.value),
    ("publisher_user_id", job.publisherUserId),
    ("post_id", orEmpty job.postId),
    ("canister_id", orEmpty job.canisterId),
    ("source_video_uri", job.sourceVideoUri),
    ("upload_event_id", orEmpty job.uploadEventId),
    ("trace_id", orEmpty job.traceId),
    ("attempts", attempts),
    ("last_error_code", orEmpty job.lastErrorCode),
    ("last_error_message", orEmpty job.lastErrorMessage),
    ("created_at", timeText iso job.createdAt),
    ("updated_at", timeText iso job.updatedAt),
    ("started_at", timeText iso job.startedAt),
    ("finished_at", timeText iso job.finishedAt)]

/-- `_job_to_mapping` -/
def jobToMapping (iso : IsoFormat) (job : VideoJob) : Except PyException Mapping := do
  let attempts ← strOfInt job.attempts
  pure (fieldTexts iso job attempts)

/-- `data[key]` -/
def required (data : Mapping) (key : String) : Except PyException String :=
  match data.lookup key with
  | some value => .ok value
  | none => .error (.other "KeyError" s!"'{key}'")

def videoJobStatuses : List VideoJobStatus :=
  [.queued, .processing, .classified, .failedRetryable, .failedTerminal, .superseded]

/-- `VideoJobStatus(value)` -/
def statusOf (value : String) : Except PyException VideoJobStatus :=
  match videoJobStatuses.find? (·.value = value) with
  | some status => .ok status
  | none => .error (.valueError s!"'{value}' is not a valid VideoJobStatus")

def optionalDatetime (iso : IsoFormat) (value : Option String) : Except PyException (Option Time) :=
  if truthy value then
    match iso.fromisoformat (orEmpty value) with
    | some t => .ok (some t)
    | none => .error (.valueError s!"Invalid isoformat string: '{orEmpty value}'")
  else .ok none

/-- `_job_from_mapping` -/
def jobFromMapping (iso : IsoFormat) (data : Mapping) : Except PyException VideoJob := do
  let jobId ← required data "job_id"
  let videoId ← required data "video_id"
  let policyVersion ← required data "policy_version"
  let status ← statusOf (← required data "status")
  let publisherUserId ← required data "publisher_user_id"
  let sourceVideoUri ← required data "source_video_uri"
  let attempts := (data.lookup "attempts").getD "0"
  let attempts ← intOfStr (if attempts = "" then "0" else attempts)
  let createdAt ← optionalDatetime iso (data.lookup "created_at")
  let updatedAt ← optionalDatetime iso (data.lookup "updated_at")
  let startedAt ← optionalDatetime iso (data.lookup "started_at")
  let finishedAt ← optionalDatetime iso (data.lookup "finished_at")
  pure {
    jobId := jobId
    videoId := videoId
    sourceObjectVersion := (data.lookup "source_object_version").getD ""
    policyVersion := policyVersion
    status := status
    publisherUserId := publisherUserId
    postId := optional (data.lookup "post_id")
    canisterId := optional (data.lookup "canister_id")
    sourceVideoUri := sourceVideoUri
    uploadEventId := optional (data.lookup "upload_event_id")
    traceId := optional (data.lookup "trace_id")
    attempts := attempts
    lastErrorCode := optional (data.lookup "last_error_code")
    lastErrorMessage := optional (data.lookup "last_error_message")
    createdAt := createdAt
    updatedAt := updatedAt
    startedAt := startedAt
    finishedAt := finishedAt }

/-! ## Status changes -/

/-- The arguments of an `update_status` and the time it reads. -/
structure StatusChange where
  status : VideoJobStatus
  lastErrorCode : Option String
  lastErrorMessage : Option String
  now : Time

def StatusChange.applyTo (change : StatusChange) (job : VideoJob) : VideoJob :=
  job.withStatus change.status change.lastErrorCode change.lastErrorMessage change.now

/-- `enqueue_video_job` writes the hash of a new job. -/
def enqueued (iso : IsoFormat) (request : VideoDetectRequest) (now : Time) :
    Except PyException (VideoJob × Mapping) := do
  let job := request.job now
  pure (job, ← jobToMapping iso job)

/-- `update_status` reads the hash of the job, writes the updated job over it, and returns that. -/
def updateStatus (iso : IsoFormat) (held : VideoJob × Mapping) (change : StatusChange) :
    Except PyException (VideoJob × Mapping) := do
  let updated := change.applyTo (← jobFromMapping iso held.2)
  pure (updated, ← jobToMapping iso updated)

/-- The job the last change returns, and its hash. -/
def reached (iso : IsoFormat) (request : VideoDetectRequest) (now : Time) (changes : List StatusChange) :
    Except PyException (VideoJob × Mapping) := do
  changes.foldlM (updateStatus iso) (← enqueued iso request now)

/-! ## The round trip -/

/-- `str` has a text for the number. -/
def HasText (n : Int) : Prop := (Nat.toDigits 10 n.natAbs).length ≤ Auth.maxStrDigits

/-- No optional field holds the empty text. -/
def NoEmptyField (job : VideoJob) : Prop :=
  ∀ field ∈ [job.postId, job.canisterId, job.uploadEventId, job.traceId, job.lastErrorCode,
    job.lastErrorMessage], field ≠ some ""

variable {iso : IsoFormat} {job : VideoJob} {data : Mapping}

theorem statusOf_value (status : VideoJobStatus) : statusOf status.value = .ok status := by
  cases status <;> rfl

theorem optionalDatetime_timeText (t : Option Time) :
    optionalDatetime iso (some (timeText iso t)) = .ok t := by
  cases t with
  | none => rfl
  | some t =>
    have htruthy : truthy (some (iso.isoformat t)) = true := decide_eq_true (iso.nonempty t)
    rw [timeText, optionalDatetime, if_pos htruthy]
    simp only [orEmpty, Option.getD_some, iso.inverse]

theorem optional_orEmpty (value : Option String) : optional (some (orEmpty value)) = optional value := by
  cases value <;> rfl

theorem optional_eq_self {value : Option String} : optional value = value ↔ value ≠ some "" := by
  unfold optional
  split
  · next h => simp [h]
  · next h => simp [h]

theorem stored_eq_self : job.stored = job ↔ NoEmptyField job := by
  simp only [NoEmptyField, List.forall_mem_cons, List.not_mem_nil, ← optional_eq_self]
  constructor
  · intro h
    have := VideoJob.mk.inj h
    simp_all
  · rintro ⟨hpost, hcanister, hupload, htrace, hcode, hmessage, -⟩
    rw [VideoJob.stored, hpost, hcanister, hupload, htrace, hcode, hmessage]

theorem optional_ne_empty (value : Option String) : optional value ≠ some "" := by
  unfold optional
  split
  · nofun
  · assumption

theorem noEmptyField_stored : NoEmptyField job.stored := by
  simp [NoEmptyField, VideoJob.stored, optional_ne_empty]

theorem strOfInt_ok (h : HasText job.attempts) : strOfInt job.attempts = .ok (toString job.attempts) := if_pos h

theorem intRepr_ne_empty (n : Int) : n.repr ≠ "" := by
  rw [Int.repr_eq_if]
  split
  · exact Nat.repr_ne_empty
  · simp [Nat.repr_ne_empty]

theorem jobToMapping_ok :
    jobToMapping iso job = .ok data ↔ HasText job.attempts ∧ data = fieldTexts iso job (toString job.attempts) := by
  by_cases h : HasText job.attempts
  · rw [jobToMapping, strOfInt_ok h]
    exact ⟨fun heq => ⟨h, (Except.ok.inj heq).symm⟩, fun heq => congrArg Except.ok heq.2.symm⟩
  · have hfail : strOfInt job.attempts = .error _ := if_neg h
    rw [jobToMapping, hfail]
    exact ⟨fun heq => (by cases heq), fun heq => absurd heq.1 h⟩

/-- What comes back from the queue is the job as it is stored. -/
theorem jobFromMapping_fieldTexts (h : HasText job.attempts) :
    jobFromMapping iso (fieldTexts iso job (toString job.attempts)) = .ok job.stored := by
  have hattempts : intOfStr job.attempts.repr = .ok job.attempts := by
    rw [intOfStr, ← Int.toString_eq_repr, parseInt_toString h]
  simp [jobFromMapping, required, fieldTexts, List.lookup_cons, statusOf_value, optionalDatetime_timeText,
    optional_orEmpty, intRepr_ne_empty, hattempts, bind, Except.bind, pure, Except.pure, VideoJob.stored]

/-- The returned job and the hash are each the other's. -/
def RoundTrips (iso : IsoFormat) (held : VideoJob × Mapping) : Prop :=
  jobToMapping iso held.1 = .ok held.2 ∧ jobFromMapping iso held.2 = .ok held.1

theorem roundTrips_iff (h : jobToMapping iso job = .ok data) :
    RoundTrips iso (job, data) ↔ NoEmptyField job := by
  obtain ⟨htext, rfl⟩ := jobToMapping_ok.mp h
  rw [RoundTrips, jobFromMapping_fieldTexts htext, Except.ok.injEq, stored_eq_self]
  exact and_iff_right h

/-- The change names no empty error. -/
def StatusChange.Named (change : StatusChange) : Prop :=
  change.lastErrorCode ≠ some "" ∧ change.lastErrorMessage ≠ some ""

theorem noEmptyField_applyTo (change : StatusChange) (h : NoEmptyField job) :
    NoEmptyField (change.applyTo job) ↔ change.Named := by
  simp only [NoEmptyField, List.forall_mem_cons] at h ⊢
  obtain ⟨hpost, hcanister, hupload, htrace, -⟩ := h
  exact ⟨fun ⟨_, _, _, _, hcode, hmessage, _⟩ => ⟨hcode, hmessage⟩,
    fun ⟨hcode, hmessage⟩ => ⟨hpost, hcanister, hupload, htrace, hcode, hmessage, nofun⟩⟩

/-- The attempts that the changes add. -/
def started (changes : List StatusChange) : Nat := changes.countP (·.status = .processing)

theorem applyTo_attempts (change : StatusChange) (changes : List StatusChange) (job : VideoJob) :
    (change.applyTo job).attempts + started changes = job.attempts + started (change :: changes) := by
  simp only [StatusChange.applyTo, VideoJob.withStatus, started, List.countP_cons, decide_eq_true_eq]
  split <;> push_cast <;> omega

theorem updateStatus_ok {held after : VideoJob × Mapping} (h : jobToMapping iso held.1 = .ok held.2)
    (change : StatusChange) :
    updateStatus iso held change = .ok after ↔ after.1 = change.applyTo held.1.stored ∧
      jobToMapping iso (change.applyTo held.1.stored) = .ok after.2 := by
  obtain ⟨htext, hdata⟩ := jobToMapping_ok.mp h
  rw [updateStatus, hdata, jobFromMapping_fieldTexts htext]
  simp only [bind, Except.bind, pure, Except.pure]
  split
  · next heq => simp [heq]
  · next data heq => rw [heq, Except.ok.injEq, Except.ok.injEq, Prod.ext_iff, eq_comm, eq_comm (a := data)]

/-- The step succeeds with a job that comes back, unless the change or the number of attempts prevents it. -/
theorem updateStatus_roundTrips_iff {held : VideoJob × Mapping} (h : RoundTrips iso held)
    (change : StatusChange) :
    (∃ after, updateStatus iso held change = .ok after ∧ RoundTrips iso after) ↔
      change.Named ∧ HasText (held.1.attempts + started [change]) := by
  have hfields : NoEmptyField held.1.stored := noEmptyField_stored
  have hattempts : (change.applyTo held.1.stored).attempts = held.1.attempts + started [change] := by
    simpa [started] using applyTo_attempts change [] held.1.stored
  rw [← hattempts, ← noEmptyField_applyTo change hfields]
  constructor
  · rintro ⟨⟨job, data⟩, hafter, hround⟩
    obtain ⟨rfl, hdata⟩ := (updateStatus_ok h.1 change).mp hafter
    exact ⟨(roundTrips_iff hdata).mp hround, (jobToMapping_ok.mp hdata).1⟩
  · rintro ⟨hnamed, htext⟩
    have hdata : jobToMapping iso _ = .ok _ := jobToMapping_ok.mpr ⟨htext, rfl⟩
    exact ⟨(_, _), (updateStatus_ok h.1 change).mpr ⟨rfl, hdata⟩, (roundTrips_iff hdata).mpr hnamed⟩

theorem forall_prefix_cons {α : Type*} {p : List α → Prop} {a : α} {as : List α} :
    (∀ done, done <+: a :: as → p done) ↔ p [] ∧ ∀ done, done <+: as → p (a :: done) := by
  simp only [List.prefix_cons_iff]
  constructor
  · exact fun h => ⟨h [] (.inl rfl), fun done hdone => h _ (.inr ⟨done, rfl, hdone⟩)⟩
  · rintro ⟨hnil, hcons⟩ done (rfl | ⟨done, rfl, hdone⟩)
    · exact hnil
    · exact hcons done hdone

/-- The induction is on the changes: a change whose job does not come back ends the run. -/
theorem roundTrips_foldlM_iff (changes : List StatusChange) : ∀ {held : VideoJob × Mapping},
    RoundTrips iso held →
      ((∀ done, done <+: changes → ∃ after, done.foldlM (updateStatus iso) held = .ok after ∧
        RoundTrips iso after) ↔
      (∀ change ∈ changes, change.Named) ∧
        ∀ done, done <+: changes → HasText (held.1.attempts + started done)) := by
  induction changes with
  | nil =>
    intro held h
    have htext : HasText held.1.attempts := (jobToMapping_ok.mp h.1).1
    simp only [List.prefix_nil, forall_eq, List.not_mem_nil]
    exact iff_of_true ⟨held, rfl, h⟩ ⟨nofun, by simpa [started] using htext⟩
  | cons change changes ih =>
    intro held h
    have htext : HasText held.1.attempts := (jobToMapping_ok.mp h.1).1
    simp only [forall_prefix_cons, List.foldlM_cons, List.forall_mem_cons]
    constructor
    · rintro ⟨-, hrest⟩
      obtain ⟨after, hafter, hround⟩ : ∃ after, updateStatus iso held change = .ok after ∧
          RoundTrips iso after := by
        simpa using hrest [] List.nil_prefix
      have hstep := (updateStatus_roundTrips_iff h change).mp ⟨after, hafter, hround⟩
      have hjob : after.1 = change.applyTo held.1.stored := ((updateStatus_ok h.1 change).mp hafter).1
      simp only [hafter, bind, Except.bind] at hrest
      obtain ⟨hnamed, hattempts⟩ := (ih hround).mp hrest
      refine ⟨⟨hstep.1, hnamed⟩, by simpa [started] using htext, fun done hdone => ?_⟩
      rw [← VideoJob.stored_attempts, ← applyTo_attempts, ← hjob]
      exact hattempts done hdone
    · rintro ⟨⟨hnamed, hrest⟩, -, hattempts⟩
      obtain ⟨after, hafter, hround⟩ := (updateStatus_roundTrips_iff h change).mpr
        ⟨hnamed, hattempts [] List.nil_prefix⟩
      have hjob : after.1 = change.applyTo held.1.stored := ((updateStatus_ok h.1 change).mp hafter).1
      refine ⟨⟨held, rfl, h⟩, ?_⟩
      simp only [hafter, bind, Except.bind]
      refine (ih hround).mpr ⟨hrest, fun done hdone => ?_⟩
      rw [hjob, applyTo_attempts, VideoJob.stored_attempts]
      exact hattempts done hdone

theorem hasText_iff (n : Nat) : HasText n ↔ n < 10 ^ Auth.maxStrDigits :=
  Nat.length_toDigits_le_iff (by decide) (by decide)

theorem hasText_started_iff (changes : List StatusChange) :
    (∀ done, done <+: changes → HasText (0 + started done)) ↔
      started changes < 10 ^ Auth.maxStrDigits := by
  simp only [zero_add, hasText_iff]
  exact ⟨fun h => h changes List.prefix_rfl, fun h done hdone => (hdone.sublist.countP_le).trans_lt h⟩

/-- The fields that a status change writes. -/
def changedFields : List String :=
  ["status", "attempts", "last_error_code", "last_error_message", "updated_at", "started_at",
    "finished_at"]

theorem orEmpty_optional (value : Option String) : orEmpty (optional value) = orEmpty value := by
  unfold optional
  split
  · next h => rw [h]; rfl
  · rfl

theorem lookup_fieldTexts_applyTo (change : StatusChange) (text text' : String) {key : String}
    (hkey : key ∉ changedFields) :
    (fieldTexts iso (change.applyTo job.stored) text').lookup key =
      (fieldTexts iso job text).lookup key := by
  simp only [changedFields, List.mem_cons, List.not_mem_nil, or_false, not_or, ← ne_eq,
    ← beq_eq_false_iff_ne] at hkey
  simp [fieldTexts, List.lookup_cons, List.lookup_nil, hkey, StatusChange.applyTo, VideoJob.withStatus, VideoJob.stored,
    orEmpty_optional]

theorem updateStatus_lookup {held after : VideoJob × Mapping} {change : StatusChange}
    (hheld : jobToMapping iso held.1 = .ok held.2) (h : updateStatus iso held change = .ok after)
    {key : String} (hkey : key ∉ changedFields) : after.2.lookup key = held.2.lookup key := by
  obtain ⟨-, hafter⟩ := (updateStatus_ok hheld change).mp h
  rw [(jobToMapping_ok.mp hafter).2, (jobToMapping_ok.mp hheld).2]
  exact lookup_fieldTexts_applyTo change _ _ hkey

/-- The hash of a job that is reached is the job's own, and the job keeps its id. -/
theorem foldlM_held (changes : List StatusChange) : ∀ {held after : VideoJob × Mapping},
    jobToMapping iso held.1 = .ok held.2 → changes.foldlM (updateStatus iso) held = .ok after →
      jobToMapping iso after.1 = .ok after.2 ∧ after.1.jobId = held.1.jobId := by
  induction changes with
  | nil =>
    intro held after h hafter
    obtain rfl := Except.ok.inj hafter
    exact ⟨h, rfl⟩
  | cons change changes ih =>
    intro held after h hafter
    rw [List.foldlM_cons] at hafter
    cases hnext : updateStatus iso held change with
    | error e =>
      rw [hnext] at hafter
      cases hafter
    | ok next =>
      rw [hnext] at hafter
      obtain ⟨hjob, hdata⟩ := (updateStatus_ok h change).mp hnext
      obtain ⟨hmapping, hid⟩ := ih (hjob ▸ hdata) hafter
      have hstep : next.1.jobId = held.1.jobId := by
        rw [hjob]
        rfl
      exact ⟨hmapping, hid.trans hstep⟩

theorem reached_eq (iso : IsoFormat) (request : VideoDetectRequest) (now : Time) :
    ∃ data, jobToMapping iso (request.job now) = .ok data ∧
      ∀ changes, reached iso request now changes =
        changes.foldlM (updateStatus iso) (request.job now, data) := by
  have htext : HasText (request.job now).attempts := (hasText_iff 0).mpr (Nat.pow_pos (by decide))
  have hdata : jobToMapping iso _ = .ok _ := jobToMapping_ok.mpr ⟨htext, rfl⟩
  refine ⟨_, hdata, fun changes => ?_⟩
  rw [reached, enqueued, hdata]
  rfl

theorem noEmptyField_job (request : VideoDetectRequest) (now : Time) : NoEmptyField (request.job now) ↔
    ∀ field ∈ [request.postId, request.canisterId, request.uploadEventId, request.traceId],
      field ≠ some "" := by
  simp [NoEmptyField, VideoDetectRequest.job]

theorem reached_held {request : VideoDetectRequest} {now : Time} {changes : List StatusChange}
    {held : VideoJob × Mapping} (h : reached iso request now changes = .ok held) :
    jobToMapping iso held.1 = .ok held.2 ∧ held.1.jobId = request.jobId := by
  obtain ⟨data, hdata, hreached⟩ := reached_eq iso request now
  exact foldlM_held changes hdata (hreached changes ▸ h)

/-- Every job that a new request reaches comes back from its hash as it was, if and only if no optional
field and no error is an empty text and the attempts stay within what `str` writes. A change leaves the
other fields of the hash as they were in any case. -/
theorem comes_back_iff (iso : IsoFormat) (request : VideoDetectRequest) (now : Time)
    (changes : List StatusChange) :
    ((∀ done, done <+: changes →
        ∃ held, reached iso request now done = .ok held ∧ RoundTrips iso held) ↔
      (∀ field ∈ [request.postId, request.canisterId, request.uploadEventId, request.traceId],
        field ≠ some "") ∧
      (∀ change ∈ changes, change.Named) ∧ started changes < 10 ^ Auth.maxStrDigits) ∧
    ∀ done, done <+: changes → ∀ change held after, reached iso request now done = .ok held →
      updateStatus iso held change = .ok after →
        ∀ key, key ∉ changedFields → after.2.lookup key = held.2.lookup key := by
  refine ⟨?_, fun done _ change held after hheld hafter key hkey =>
    updateStatus_lookup (reached_held hheld).1 hafter hkey⟩
  obtain ⟨data, hdata, hreached⟩ := reached_eq iso request now
  simp only [hreached]
  have hnew := roundTrips_iff hdata
  have hattempts := hasText_started_iff changes
  constructor
  · intro h
    obtain ⟨held, hheld, hround⟩ := h [] List.nil_prefix
    rw [← Except.ok.inj hheld] at hround
    obtain ⟨hnamed, htexts⟩ := (roundTrips_foldlM_iff changes hround).mp h
    exact ⟨(noEmptyField_job request now).mp (hnew.mp hround), hnamed, hattempts.mp htexts⟩
  · rintro ⟨hfields, hnamed, hstarted⟩
    have hround := hnew.mpr ((noEmptyField_job request now).mpr hfields)
    exact (roundTrips_foldlM_iff changes hround).mpr ⟨hnamed, hattempts.mpr hstarted⟩

/-! ## A field that is lost -/

/-- Times as texts, with the one of the epoch as `isoformat` writes it. -/
def epochFormat : IsoFormat where
  isoformat t := if t = 0 then "1970-01-01T00:00:00+00:00" else t.repr
  fromisoformat text :=
    if text = "1970-01-01T00:00:00+00:00" then some 0 else some (Nat.ofDigitChars 10 text.toList 0)
  inverse t := by
    by_cases h : t = 0
    · simp [h]
    · have hdigits : t.repr ≠ "1970-01-01T00:00:00+00:00" := fun heq => by
        have hdash : '-' ∈ Nat.toDigits 10 t := by
          rw [← Nat.toList_repr, heq]
          decide
        exact absurd (Nat.isDigit_of_mem_toDigits (by decide) (by decide) hdash) (by decide)
      rw [if_neg h, if_neg hdigits, Nat.toList_repr, Nat.ofDigitChars_ten_toDigits]
  nonempty t := by
    split
    · decide
    · exact Nat.repr_ne_empty

/-- A request with an empty post id. -/
def emptyPostRequest : VideoDetectRequest where
  jobId := "postless"
  videoId := "reel"
  publisherUserId := "author"
  sourceVideoUri := "https://storage/reel.mp4"
  postId := some ""
  policyVersion := "v2"
  jobId_ne := by decide
  videoId_ne := by decide
  publisherUserId_ne := by decide
  sourceVideoUri_ne := by decide
  policyVersion_ne := by decide

/-- The job comes back without its post id. -/
theorem empty_post_id_lost :
    ∃ held, reached epochFormat emptyPostRequest 0 [] = .ok held ∧
      held.1.postId = some "" ∧ (jobFromMapping epochFormat held.2).map (·.postId) = .ok none ∧
      ¬ RoundTrips epochFormat held := by
  obtain ⟨data, hdata, hreached⟩ := reached_eq epochFormat emptyPostRequest 0
  have hlost : ¬ NoEmptyField (emptyPostRequest.job 0) := fun h => h (some "") (by decide) rfl
  refine ⟨_, hreached [], rfl, ?_, fun h => hlost ((roundTrips_iff hdata).mp h)⟩
  obtain ⟨htext, rfl⟩ := jobToMapping_ok.mp hdata
  rw [jobFromMapping_fieldTexts htext]
  rfl

end NsfwDetector.JobCodec
