import NsfwDetector.System.Loss

/-!
# What an accepted request is worth

An enqueue that fails half way leaves some of its writes behind. A caller that tries again may be
told that the job is already there: its hash is, and its entry may not be.
-/

namespace NsfwDetector.Durability

open Effects Effects.Assertion Triple Delivery

/-! ## Deliveries -/

/-- The call delivered a message for the job, also where the reply was lost on its way. -/
inductive Delivers (jobId : String) : Call → Prop
  | answered {nr : Nat} {count : Int} {messages : List QueuedVideoJobMessage}
      (h : ∃ message ∈ messages, message.jobId = jobId) :
      Delivers jobId ⟨.worker nr, .xreadgroup count, .answered messages⟩
  | lost {nr : Nat} {count : Int} {messages : List QueuedVideoJobMessage} {exc : PyException}
      (h : ∃ message ∈ messages, message.jobId = jobId) :
      Delivers jobId ⟨.worker nr, .xreadgroup count, .lost messages exc⟩

def Delivered (past : Past) (jobId : String) : Prop := ∃ e ∈ past, Delivers jobId e

/-- Whoever was told that a job is in the queue can rely on it: its entry waits in the stream, or a
worker has had it. -/
def AcceptedIsDurable (c : Moment) : Prop :=
  ∀ jobId, Accepted c jobId → Waiting c.state jobId ∨ Delivered c.history jobId

def foundJob : Call → Option VideoJob
  | ⟨.api _, .hgetall _, .answered answer⟩ => answer
  | _ => none

/-- In a cluster no caller of the API finds a job that has not got its entry yet. -/
def NoHalfStored (settings : Settings) : StepCond Caller World Ans PyException Reply := fun c l _ =>
  match l with
  | .call e => settings.kvrocksClusterEnabled = true → ∀ job ∈ foundJob e, Entered c.history job.jobId
  | .start _ | .kill _ => True

section

variable {settings : Settings} {i : Caller} {s s' : World} {past : Past} {op : Op}
  {o : Outcome PyException (Ans op)} {jobId : String}

theorem Delivered.mono {e : Call} (h : Delivered past jobId) : Delivered (e :: past) jobId := by
  obtain ⟨e', he, hdelivers⟩ := h
  exact ⟨e', List.mem_cons_of_mem _ he, hdelivers⟩

theorem delivers_of_read {nr : Nat} {count : Int} {o : Outcome PyException (Ans (.xreadgroup count))}
    (hdoes : Does (.worker nr) s (.xreadgroup count) o s') (heffect : o.TookEffect)
    (h : ∃ entry ∈ s.kv.delivered count, entry.message.jobId = jobId) :
    Delivers jobId ⟨.worker nr, .xreadgroup count, o⟩ := by
  obtain ⟨entry, htaken, hid⟩ := h
  have hmem : ∃ message ∈ (s.kv.delivered count).map (·.message), message.jobId = jobId :=
    ⟨entry.message, List.mem_map_of_mem htaken, hid⟩
  cases o with
  | answered messages =>
    obtain ⟨-, rfl, -⟩ := hdoes
    exact .answered hmem
  | lost messages exc =>
    obtain ⟨-, -, rfl, -⟩ := hdoes
    exact .lost hmem
  | refused | failed => exact heffect.elim

theorem durable_of_waiting (hmay : May settings i s past op) (hdoes : Does i s op o s')
    (h : Waiting s jobId) : Waiting s' jobId ∨ Delivered (⟨i, op, o⟩ :: past) jobId := by
  have hmoves := moves hmay hdoes
  by_cases hop : ∃ count, op = .xreadgroup count
  · obtain ⟨count, rfl⟩ := hop
    cases hmoves with
    | quiet hsame => exact .inl (waiting_of_same hsame h)
    | read heffect hi =>
      subst hi
      refine (waiting_read count h).imp_right fun htaken => ?_
      exact ⟨_, List.mem_cons_self, delivers_of_read hdoes heffect htaken⟩
  · exact .inl (waiting_stays hmoves (fun count heq => hop ⟨count, heq⟩) h)

theorem durable_call (hmay : May settings i s past op) (hdoes : Does i s op o s')
    (h : Entered past jobId → Waiting s jobId ∨ Delivered past jobId)
    (hentered : Entered (⟨i, op, o⟩ :: past) jobId) :
    Waiting s' jobId ∨ Delivered (⟨i, op, o⟩ :: past) jobId := by
  obtain ⟨e, he, payload, hadd⟩ := hentered
  rcases List.mem_cons.mp he with rfl | he
  · exact .inl (waiting_of_entered (moves hmay hdoes) hadd)
  · rcases h ⟨e, he, payload, hadd⟩ with hwaiting | hdelivered
    · exact durable_of_waiting hmay hdoes hwaiting
    · exact .inr hdelivered.mono

end

variable {settings : Settings} {cond : StepCond Caller World Ans PyException Reply} {c : Moment}

theorem durable_of_entered (h : ReachVia (Services settings) Does cond {} c) {jobId : String}
    (hentered : Entered c.history jobId) : Waiting c.state jobId ∨ Delivered c.history jobId := by
  refine Discipline.always (D := delivery settings)
    (R := fun s past => Entered past jobId → Waiting s jobId ∨ Delivered past jobId)
    (services_outline settings) (orderly_empty settings) ?_ ?_ h hentered
  · rintro ⟨_, he, _⟩
    exact absurd he List.not_mem_nil
  · exact fun _ hmay hdoes hdurable => durable_call hmay hdoes hdurable

/-! ## What a caller of the API has seen -/

/-- Everybody may do anything. -/
def anyCall : Discipline Caller World Ans PyException where
  does := Does
  inv _ _ := True
  may _ _ _ _ := True
  inv_call _ _ _ := trivial

/-- The call entered the job, or a caller of the API found it. -/
inductive Tells (jobId : String) (e : Call) : Prop
  | entered {payload : VideoJob} (h : Performed (.xadd jobId payload) e)
  | found {job : VideoJob} (h : job ∈ foundJob e) (hid : job.jobId = jobId)

def told (nr : Nat) (jobId : String) : Assertion anyCall (.api nr) := called (Tells jobId)

def toldOf (nr : Nat) : Option VideoJob → Assertion anyCall (.api nr)
  | some job => told nr job.jobId
  | none => .top

section

variable {nr : Nat} {P : Assertion anyCall (.api nr)}

theorem asks (op : Op) {S : Ans op → Assertion anyCall (.api nr)}
    (hanswer : ∀ s past b s', P.holds s past → (S b).holds s' (⟨.api nr, op, .answered b⟩ :: past)) :
    Triple (onOk S) P (await op) :=
  ask op (fun _ _ _ _ => trivial) fun s past b s' _ hP _ => hanswer s past b s' hP

theorem asks_any (op : Op) : Triple (onOk fun _ => .top) P (await op) :=
  asks op fun _ _ _ _ _ => trivial

theorem read_outline (jobId : String) :
    Triple (onOk fun answer => toldOf nr answer) P (RedisQueue.getJobById jobId) := by
  refine asks (Op.hgetall _) fun s past answer s' _ => ?_
  cases answer with
  | none => trivial
  | some job => exact ⟨_, List.mem_cons_self, .found rfl rfl⟩

theorem alreadyThere_outline (existing : VideoJob) :
    Triple (onOk fun result => told nr result.job.jobId) (told nr existing.jobId)
      (RedisQueue.alreadyThere existing) := by
  refine andThen (S := fun _ => told nr existing.jobId) (asks (Op.writes _) ?_) fun _ =>
    give (Entails.refl _)
  exact fun s past b s' ⟨e, he, htells⟩ => ⟨e, List.mem_cons_of_mem _ he, htells⟩

theorem asks_xadd {commands : List Command} (job : VideoJob) (h : .xadd job.jobId job ∈ commands) :
    Triple (onOk fun _ => told nr job.jobId) P (await (.writes commands)) :=
  asks (Op.writes commands) fun _ _ _ _ _ =>
    ⟨_, List.mem_cons_self, .entered (performed_writes.mpr ⟨h, trivial⟩)⟩

theorem storeNewJob_outline (settings : Settings) (request : VideoDetectRequest) :
    Triple (onOk fun result => told nr result.job.jobId) P (RedisQueue.storeNewJob settings request) := by
  unfold RedisQueue.storeNewJob
  refine andThen (asks_any Op.now) fun now => ?_
  split
  · refine andThen (asks_any (Op.writes _)) fun _ => ?_
    refine andThen (asks_any (Op.writes _)) fun _ => ?_
    refine andThen (asks_any (Op.writes _)) fun _ => ?_
    exact andThen (asks_xadd (request.job now) (by simp)) fun _ => give (Entails.refl _)
  · exact andThen (asks_xadd (request.job now) (by simp)) fun _ => give (Entails.refl _)

theorem enqueue_outline (settings : Settings) (request : VideoDetectRequest) :
    Triple (onOk fun result => told nr result.job.jobId) P
      (RedisQueue.enqueueVideoJob settings request) := by
  refine andThen (read_outline request.jobId) fun answer => ?_
  cases answer with
  | some existing => exact alreadyThere_outline existing
  | none =>
    refine andThen (asks_any (Op.get _)) fun existingJobId => ?_
    split
    · refine andThen (read_outline _) fun found => ?_
      cases found with
      | some existing => exact alreadyThere_outline existing
      | none => exact storeNewJob_outline settings request
    · exact storeNewJob_outline settings request

end

def replied : (i : Caller) → Reply → Assertion anyCall i
  | .api nr, .enqueued result => told nr result.job.jobId
  | _, _ => .top

theorem outlines (i : Caller) (p : Code Reply) (h : Services settings i p) :
    Triple (onOk (replied i)) (anyCall.fresh i) p := by
  cases i with
  | api nr =>
    obtain ⟨request, rfl⟩ := h
    exact andThen (enqueue_outline settings request) fun result => give (Entails.refl _)
  | worker | reader | attempt =>
    refine mapOk (fun reply => ?_) (anything (fun _ _ _ _ => trivial) p)
    exact Entails.refl _

/-- Whoever has a job as its answer has entered it, or has found it. -/
theorem tells_of_accepted (h : ReachVia (Services settings) Does cond {} c) {jobId : String}
    (haccepted : Accepted c jobId) : ∃ e ∈ c.history, Tells jobId e := by
  obtain ⟨nr, result, hthread, rfl⟩ := haccepted
  have hsound := Discipline.sound (D := anyCall) outlines trivial h
  exact hsound.post hthread

/-! ## Accepted jobs are durable -/

/-- Outside a cluster the stores have no job without an entry. -/
theorem entered_of_orderly {s s' : World} {past : Past} {i : Caller} {op : Op}
    {o : Outcome PyException (Ans op)} {job : VideoJob} (hcluster : settings.kvrocksClusterEnabled = false)
    (hord : Orderly settings s past) (hdoes : Does i s op o s') (h : job ∈ foundJob ⟨i, op, o⟩) :
    Entered past job.jobId := by
  unfold foundJob at h
  split at h
  · next heq =>
    cases heq
    exact hord.entered hcluster _ job (hdoes.1.symm.trans h)
  · cases h

theorem entered_of_tells (h : ReachVia (Services settings) Does (NoHalfStored settings) {} c)
    {jobId : String} {e : Call} (he : e ∈ c.history) (htells : Tells jobId e) :
    Entered c.history jobId := by
  induction h with
  | init => exact absurd he List.not_mem_nil
  | step hreach hs hcond ih =>
    cases hs with
    | start | kill => exact ih he
    | call hrun hdoes =>
      rcases List.mem_cons.mp he with rfl | he
      · cases htells with
        | entered hadd => exact ⟨_, List.mem_cons_self, _, hadd⟩
        | found hfound hid =>
          subst hid
          cases hcluster : settings.kvrocksClusterEnabled with
          | true => exact (hcond hcluster _ hfound).mono
          | false => exact (entered_of_orderly hcluster (sound hreach).1 hdoes hfound).mono
      · exact (ih he).mono

/-- What a caller was told is in the queue waits there or has been delivered, as long as, in a
cluster, nobody finds a job whose entry has not been added yet. -/
theorem accepted_is_durable (settings : Settings) {c : Moment}
    (h : ReachVia (Services settings) Does (NoHalfStored settings) {} c) : AcceptedIsDurable c := by
  intro jobId haccepted
  obtain ⟨e, he, htells⟩ := tells_of_accepted h haccepted
  exact durable_of_entered h (entered_of_tells h he htells)

/-! ### Two requests that are made again -/

def isEntryOf (jobId : String) : Command → Bool
  | .xadd other _ => other = jobId
  | _ => false

theorem entered_iff {past : Past} {jobId : String} :
    past.any (carriedOut (isEntryOf jobId)) = true ↔ Entered past jobId := by
  rw [List.any_eq_true]
  constructor
  · rintro ⟨e, he, hcarried⟩
    obtain ⟨command, hkind, hperformed⟩ := carriedOut_iff.mp hcarried
    unfold isEntryOf at hkind
    split at hkind
    · exact ⟨e, he, _, of_decide_eq_true hkind ▸ hperformed⟩
    · cases hkind
  · rintro ⟨e, he, payload, hadd⟩
    exact ⟨e, he, carriedOut_iff.mpr ⟨.xadd jobId payload, by simp [isEntryOf], hadd⟩⟩

instance (past : Past) (jobId : String) : Decidable (Entered past jobId) :=
  decidable_of_iff _ entered_iff

instance (c : Moment) (l : Label Caller Ans PyException) (c' : Moment) :
    Decidable (NoHalfStored settings c l c') :=
  match l with
  | .call e => inferInstanceAs (Decidable (settings.kvrocksClusterEnabled = true →
      ∀ job ∈ foundJob e, Entered c.history job.jobId))
  | .start _ | .kill _ => .isTrue trivial

def secondRequest : Script := .start (.api 1) (apiProgram {} sampleRequest) :: calls (.api 1) 2 clean

/-- The reply to the last write is lost. -/
def lostReplyScript : Script :=
  .start (.api 0) (apiProgram {} sampleRequest) :: calls (.api 0) 6 clean ++
    .call (.api 0) (.lose clean (.requestError "ConnectionError" "connection lost")) :: secondRequest

/-- The second of the four writes fails. -/
def halfStoredScript : Script :=
  .start (.api 0) (apiProgram {} sampleRequest) :: calls (.api 0) 4 clean ++
    breaks (.api 0) :: secondRequest

theorem legal_secondRequest : ∀ t ∈ secondRequest, t.Legal (Services {}) :=
  legal_thenCalls ⟨sampleRequest, rfl⟩

theorem legal_lostReplyScript : ∀ t ∈ lostReplyScript, t.Legal (Services {}) :=
  List.forall_mem_append.mpr
    ⟨legal_thenCalls ⟨sampleRequest, rfl⟩, List.forall_mem_cons.mpr ⟨trivial, legal_secondRequest⟩⟩

theorem legal_halfStoredScript : ∀ t ∈ halfStoredScript, t.Legal (Services {}) :=
  List.forall_mem_append.mpr
    ⟨legal_thenCalls ⟨sampleRequest, rfl⟩, List.forall_mem_cons.mpr ⟨trivial, legal_secondRequest⟩⟩

/-- The first call has raised, and the second has the job as its answer. -/
def answeredAgain (c : Moment) : Bool :=
  answerOf (c.threads (.api 0)) = none ∧ (answerOf (c.threads (.api 1))).map (·.job.jobId) = some "job"

theorem lost_reply_is_durable : ∃ c,
    ReachVia (Services {}) Does (NoHalfStored {}) {} c ∧ Accepted c "job" ∧
      (Waiting c.state "job" ∨ Delivered c.history "job") := by
  obtain ⟨c, hrun, hc⟩ : ∃ c, ReachVia (Services {}) Does (NoHalfStored {}) {} c ∧
      answeredAgain c = true :=
    exists_of_play choose_within legal_lostReplyScript (by decide +kernel)
  obtain ⟨-, hanswer⟩ := of_decide_eq_true hc
  obtain ⟨result, hresult, hid⟩ := Option.map_eq_some_iff.mp hanswer
  have haccepted := accepted_of_answerOf hresult hid
  exact ⟨c, hrun, haccepted, accepted_is_durable {} hrun "job" haccepted⟩

def isRead : Call → Bool
  | ⟨_, .xreadgroup _, _⟩ => true
  | _ => false

theorem not_delivered {past : Past} {jobId : String} (h : past.any isRead = false) :
    ¬ Delivered past jobId := by
  rintro ⟨e, he, hdelivers⟩
  have hread : isRead e = true := by cases hdelivers <;> rfl
  rw [List.any_eq_false] at h
  exact h e he hread

/-- The hash of the job is there, its entry never was, and the second request is told that the job
is in the queue. -/
theorem half_stored_job_accepted : ∃ c, Reach (Services {}) Does {} c ∧ ¬ AcceptedIsDurable c := by
  obtain ⟨c, hrun, hc⟩ : ∃ c, Reach (Services {}) Does {} c ∧
      decide (answeredAgain c = true ∧ c.state.kv.fresh.length = 0 ∧
        c.history.any isRead = false) = true :=
    exists_of_play choose_within legal_halfStoredScript (by decide +kernel)
  obtain ⟨hagain, hfresh, hread⟩ := of_decide_eq_true hc
  obtain ⟨-, hanswer⟩ := of_decide_eq_true hagain
  obtain ⟨result, hresult, hid⟩ := Option.map_eq_some_iff.mp hanswer
  refine ⟨c, hrun, fun hdurable => ?_⟩
  rcases hdurable "job" (accepted_of_answerOf hresult hid) with ⟨entry, hentry, -⟩ | hdelivered
  · rw [List.eq_nil_of_length_eq_zero hfresh] at hentry
    cases hentry
  · exact not_delivered hread hdelivered

end NsfwDetector.Durability
