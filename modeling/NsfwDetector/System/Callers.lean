import NsfwDetector.Services.Pipeline
import NsfwDetector.Services.Status
import NsfwDetector.Effects.Play
import NsfwDetector.Moderation.Verdict

/-!
# The system: workers, API callers and readers over the same stores

Any number of callers run side by side. A worker that is started again is another worker.
-/

namespace NsfwDetector

open Effects

inductive Reply
  | finished
  | enqueued (result : EnqueueResult)
  | status (response : Option VideoStatusResponse)

def workerProgram (settings : Settings) (rounds : Nat) : Code Reply := do
  (worker settings).runForever rounds
  pure .finished

def apiProgram (settings : Settings) (request : VideoDetectRequest) : Code Reply := do
  let result ← (RedisQueue.service settings).enqueueVideoDetection request
  pure (.enqueued result)

def readerProgram (settings : Settings) (videoId : String) : Code Reply := do
  let response ← VideoStatusService.getStatusByVideoId settings videoId
  pure (.status response)

def attemptProgram (settings : Settings) (job : VideoJob) : Code Reply := do
  (processor settings).process job
  pure .finished

/-- The programs of the callers. A worker is watched for any number of rounds. -/
def Starts (settings : Settings) : Caller → Code Reply → Prop
  | .worker _, p => ∃ rounds, p = workerProgram settings rounds
  | .api _, p => ∃ request, p = apiProgram settings request
  | .reader _, p => ∃ videoId, p = readerProgram settings videoId
  | .attempt _, p => ∃ job, p = attemptProgram settings job

/-- A moment of a run: the stores, the callers and the calls so far. -/
abbrev Moment := Config Caller World Ans PyException Reply

abbrev Call := Event Caller Ans PyException

abbrev Past := List Call

abbrev Reachable (settings : Settings) : Moment → Prop := Reach (Starts settings) Does {}

/-! ## Scripts -/

/-- What the outside world answers where the stores do not decide it. -/
structure Outside where
  time : Time := 0
  uuid : String := "00000000-0000-4000-8000-000000000000"
  durationSeconds : ℚ := 1
  paths : List String := ["frame-000001.jpg"]
  outputs : List FrameModerationOutput := []
  response : StorjMoveResponse := ⟨200, ""⟩

inductive Choice
  | reply (outside : Outside)
  | fail (e : PyException)
  | lose (outside : Outside) (e : PyException)

def Outside.metadata (outside : Outside) (jobId videoId : String) : VideoMetadata where
  jobId := jobId
  videoId := videoId
  durationSeconds := outside.durationSeconds
  width := none
  height := none
  fps := none
  codecName := none
  hasVideoStream := true
  framesExtracted := 0

instance (op : Op) : Decidable op.MayFail := by
  cases op <;> unfold Op.MayFail <;> infer_instance

instance (op : Op) (e : PyException) : Decidable (op.MayRaise e) := inferInstanceAs (Decidable (_ ∧ _))

/-- The answer to a call, and the state after it. Queries for the latest result are left out. -/
def answer (outside : Outside) (i : Caller) (s : World) : (op : Op) → Option (Ans op × World)
  | .now => some (outside.time, s)
  | .uuid4 => if ':' ∉ outside.uuid.toList then some (outside.uuid, s) else none
  | .hgetall key => some (s.kv.hashes key, s)
  | .get key => some (s.kv.strings key, s)
  | .writes commands => some ((), { s with kv := s.kv.applyAll commands })
  | .xgroupCreate =>
    if s.kv.groupCreated = false then some ((), { s with kv.groupCreated := true }) else none
  | .xreadgroup count =>
    if s.kv.groupCreated = true then
      some ((s.kv.delivered count).map (·.message), { s with kv := s.kv.xreadgroup i count })
    else none
  | .selectJob jobId => some (s.db.job? jobId, s)
  | .selectResult jobId => some (s.db.result? jobId, s)
  | .selectLatestResult _ => none
  | .execute tx write =>
    match s.db.applyAll outside.time (tx ++ [write]) with
    | .ok _ => some ((), s)
    | .error _ => none
  | .commit tx =>
    match s.db.applyAll outside.time tx with
    | .ok db => some (outside.time, { s with db := db })
    | .error _ => none
  | .prepareJobDir _ => some ((), s)
  | .downloadVideo _ => some ((), s)
  | .probe jobId videoId => some (outside.metadata jobId videoId, s)
  | .ffmpeg _ => some (outside.paths, s)
  | .moderateImages imagePaths =>
    if outside.outputs.map (·.frameIndex) = List.range imagePaths.length then
      some (outside.outputs, s)
    else none
  | .postMove _ _ => some (outside.response, s)
  | .cleanupDir _ => some ((), s)

/-- The error that a rule of the stores gives, if one does. -/
def refusal (s : World) : Op → Option PyException
  | .xgroupCreate =>
    if s.kv.groupCreated = true then
      some (.other "ResponseError" "BUSYGROUP Consumer Group name already exists")
    else none
  | .xreadgroup _ =>
    if s.kv.groupCreated = false then
      some (.other "ResponseError" "NOGROUP No such key or consumer group")
    else none
  | .execute tx write =>
    match s.db.applyAll 0 (tx ++ [write]) with
    | .ok _ => none
    | .error e => some e
  | .commit tx =>
    match s.db.applyAll 0 tx with
    | .ok _ => none
    | .error e => some e
  | _ => none

def choose : Chooser Caller World Choice Ans PyException := fun i s op choice =>
  match choice with
  | .reply outside =>
    match refusal s op with
    | some e => some (.refused e, s)
    | none => (answer outside i s op).map fun (b, s') => (.answered b, s')
  | .fail e => if op.MayRaise e then some (.failed e, s) else none
  | .lose outside e =>
    if op.MayRaise e then (answer outside i s op).map fun (b, s') => (.lost b e, s') else none

theorem answers_of_answer {outside : Outside} {i : Caller} {s s' : World} {op : Op} {b : Ans op}
    (h : answer outside i s op = some (b, s')) : Answers i s op b s' := by
  cases op with
  | hgetall | get | selectJob | selectResult =>
    obtain ⟨rfl, rfl⟩ := Prod.mk.inj (Option.some.inj h)
    exact ⟨rfl, rfl⟩
  | now | writes | prepareJobDir | downloadVideo | ffmpeg | postMove | cleanupDir =>
    exact (Prod.mk.inj (Option.some.inj h)).2.symm
  | probe =>
    obtain ⟨rfl, rfl⟩ := Prod.mk.inj (Option.some.inj h)
    exact ⟨rfl, rfl, rfl, rfl, rfl⟩
  | uuid4 | xgroupCreate | moderateImages =>
    simp only [answer] at h
    split at h
    · next hrule =>
      obtain ⟨rfl, rfl⟩ := Prod.mk.inj (Option.some.inj h)
      exact ⟨hrule, rfl⟩
    · cases h
  | xreadgroup =>
    simp only [answer] at h
    split at h
    · next hgroup =>
      obtain ⟨rfl, rfl⟩ := Prod.mk.inj (Option.some.inj h)
      exact ⟨hgroup, rfl, rfl⟩
    · cases h
  | selectLatestResult => cases h
  | execute | commit =>
    simp only [answer] at h
    split at h
    · next db hdb =>
      obtain ⟨rfl, rfl⟩ := Prod.mk.inj (Option.some.inj h)
      first | exact ⟨⟨_, db, hdb⟩, rfl⟩ | exact ⟨db, hdb, rfl⟩
    · cases h

theorem refuses_of_refusal {s : World} {op : Op} {e : PyException} (h : refusal s op = some e) :
    Refuses s op e := by
  cases op with
  | xgroupCreate | xreadgroup =>
    simp only [refusal] at h
    split at h
    · next hgroup => exact ⟨hgroup, (Option.some.inj h).symm⟩
    · cases h
  | execute | commit =>
    simp only [refusal] at h
    split at h
    · cases h
    · next e' he => exact ⟨0, Option.some.inj h ▸ he⟩
  | _ => cases h

theorem choose_within : choose.Within Does := by
  intro i s op choice o s' h
  cases choice with
  | reply outside =>
    simp only [choose] at h
    split at h
    · next e he =>
      obtain ⟨rfl, rfl⟩ := Prod.mk.inj (Option.some.inj h)
      exact ⟨refuses_of_refusal he, rfl⟩
    · obtain ⟨⟨b, t⟩, hb, heq⟩ := Option.map_eq_some_iff.mp h
      obtain ⟨rfl, rfl⟩ := Prod.mk.inj heq
      exact answers_of_answer hb
  | fail e =>
    simp only [choose] at h
    split at h
    · next hmay =>
      obtain ⟨rfl, rfl⟩ := Prod.mk.inj (Option.some.inj h)
      exact ⟨hmay, rfl⟩
    · cases h
  | lose outside e =>
    simp only [choose] at h
    split at h
    · next hmay =>
      obtain ⟨⟨b, t⟩, hb, heq⟩ := Option.map_eq_some_iff.mp h
      obtain ⟨rfl, rfl⟩ := Prod.mk.inj heq
      exact ⟨hmay, answers_of_answer hb⟩
    · cases h

abbrev Script := List (Turn Caller Ans PyException Reply Choice)

section

variable {settings : Settings} {script : Script} {p : Moment → Bool}

theorem run_of_script {cond : StepCond Caller World Ans PyException Reply}
    [∀ c l c', Decidable (cond c l c')] (hlegal : ∀ t ∈ script, t.Legal (Starts settings))
    (h : (play choose cond script (.initial {})).any p = true) :
    ∃ c, ReachVia (Starts settings) Does cond {} c ∧ p c = true :=
  exists_of_play choose_within hlegal h

theorem reach_of_script (hlegal : ∀ t ∈ script, t.Legal (Starts settings))
    (h : (play choose (fun _ _ _ => True) script (.initial {})).any p = true) :
    ∃ c, Reachable settings c ∧ p c = true :=
  run_of_script hlegal h

end

/-! ### One job -/

def sampleRequest : VideoDetectRequest where
  jobId := "job"
  videoId := "video"
  publisherUserId := "publisher"
  sourceVideoUri := "https://example/video.mp4"
  jobId_ne := by decide
  videoId_ne := by decide
  publisherUserId_ne := by decide
  sourceVideoUri_ne := by decide
  policyVersion_ne := by decide

def sampleJob : VideoJob := sampleRequest.job 0

theorem otherJob_ne : "other-job" ≠ "" := by decide

def cleanOutput : FrameModerationOutput where
  topCategory := .safe
  categories := fun _ => 0
  reason := "nothing unsafe"
  severity_le := by decide
  top_matches := by decide
  frameIndex := 0

def clean : Outside := { outputs := [cleanOutput] }

def explicit : Outside := { outputs := [Verdict.pornOutput] }

/-- `n` calls of caller `i`, each with a reply. -/
def calls (i : Caller) (n : Nat) (outside : Outside) : Script :=
  List.replicate n (.call i (.reply outside))

/-- The next call of caller `i` raises, and does nothing. -/
def breaks (i : Caller) : Turn Caller Ans PyException Reply Choice :=
  .call i (.fail (.requestError "ConnectionError" "connection lost"))

def enqueueScript (settings : Settings) : Script :=
  .start (.api 0) (apiProgram settings sampleRequest) :: calls (.api 0) 7 clean

def startAttempt (settings : Settings) (nr : Nat) : Turn Caller Ans PyException Reply Choice :=
  .start (.attempt nr) (attemptProgram settings sampleJob)

theorem legal_calls {starts : Caller → Code Reply → Prop} {i : Caller} {n : Nat} {outside : Outside} :
    ∀ t ∈ calls i n outside, t.Legal starts := by
  intro t ht
  rw [List.eq_of_mem_replicate ht]
  trivial

/-- Scripts are made of such pieces. -/
theorem legal_thenCalls {starts : Caller → Code Reply → Prop}
    {turn : Turn Caller Ans PyException Reply Choice} {i : Caller} {n : Nat} {outside : Outside}
    (h : turn.Legal starts) : ∀ t ∈ turn :: calls i n outside, t.Legal starts :=
  List.forall_mem_cons.mpr ⟨h, legal_calls⟩

theorem legal_enqueue {settings : Settings} :
    ∀ t ∈ enqueueScript settings, t.Legal (Starts settings) := legal_thenCalls ⟨sampleRequest, rfl⟩

theorem legal_startAttempt {settings : Settings} {nr : Nat} :
    (startAttempt settings nr).Legal (Starts settings) := ⟨sampleJob, rfl⟩

/-- A job is accepted, and a call of its attempt breaks. -/
theorem legal_brokenAttempt {settings : Settings} {n m : Nat} {outside : Outside} :
    ∀ t ∈ enqueueScript settings ++ startAttempt settings 0 :: calls (.attempt 0) n outside ++
      breaks (.attempt 0) :: calls (.attempt 0) m clean, t.Legal (Starts settings) := by
  simp only [List.forall_mem_append]
  exact ⟨⟨legal_enqueue, legal_thenCalls legal_startAttempt⟩, legal_thenCalls trivial⟩

/-- The job is accepted and classified, and no call fails. -/
def cleanScript (settings : Settings) : Script :=
  enqueueScript settings ++ startAttempt settings 0 :: calls (.attempt 0) 26 clean

theorem legal_cleanScript (settings : Settings) :
    ∀ t ∈ cleanScript settings, t.Legal (Starts settings) :=
  List.forall_mem_append.mpr ⟨legal_enqueue, legal_thenCalls legal_startAttempt⟩

def storj : Settings :=
  { storjInterfaceUrl := some "https://storj", storjInterfaceToken := some "token" }

/-- The job is accepted, its video is moved, and no call fails. -/
def explicitScript : Script :=
  enqueueScript storj ++ startAttempt storj 0 :: calls (.attempt 0) 32 explicit

theorem legal_explicitScript : ∀ t ∈ explicitScript, t.Legal (Starts storj) :=
  List.forall_mem_append.mpr ⟨legal_enqueue, legal_thenCalls legal_startAttempt⟩

end NsfwDetector
