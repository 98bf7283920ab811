import NsfwDetector.System.Publishing

/-!
# Runs whose calls meet a condition

A condition on calls may look at the calls before: who is between which of its calls, and what
failed. What callers know in such runs comes on top of the rules of publication. Most calls of the
code decide nothing about a job, so its outlines are shared.
-/

namespace NsfwDetector.Publication

open Effects Effects.Assertion Triple

/-- Every call of the run meets `meets`, in view of the calls before it. -/
def EachCall (meets : Past → Call → Prop) : StepCond Caller World Ans PyException Reply :=
  fun c l _ =>
    match l with
    | .call e => meets c.history e
    | .start _ | .kill _ => True

instance (meets : Past → Call → Prop) [∀ past e, Decidable (meets past e)] (c c' : Moment)
    (l : Label Caller Ans PyException) : Decidable (EachCall meets c l c') := by
  cases l <;> unfold EachCall <;> infer_instance

/-- What caller `i` has called since its last call of the kind `stop`. -/
def since (stop : Call → Bool) (i : Caller) (past : Past) : Past :=
  (past.filter (·.caller = i)).takeWhile fun e => !stop e

section

variable {stop : Call → Bool} {i j : Caller} {past : Past} {op : Op} {o : Outcome PyException (Ans op)}

theorem since_other (h : j ≠ i) : since stop i (⟨j, op, o⟩ :: past) = since stop i past := by
  simp [since, h]

theorem since_stop (h : stop ⟨i, op, o⟩ = true) : since stop i (⟨i, op, o⟩ :: past) = [] := by
  simp [since, h]

theorem since_own (h : stop ⟨i, op, o⟩ = false) :
    since stop i (⟨i, op, o⟩ :: past) = ⟨i, op, o⟩ :: since stop i past := by
  simp [since, h]

end

/-- The jobs whose results the call commits. -/
def brings : Op → List String
  | .commit tx => tx.filterMap fun
    | .insertFinalResult row => some row.jobId
    | _ => none
  | _ => []

def brought (e : Call) : List String := if e.outcome.TookEffect then brings e.op else []

/-! ## Calls that decide nothing -/

def Mild : Command → Prop
  | .hset _ job => job.status = .queued ∨ job.status = .processing
  | .setRuntime _ _ => False
  | _ => True

def Aside : Op → Prop
  | .selectJob _ | .commit _ => False
  | .writes commands => ∀ command ∈ commands, Mild command
  | _ => True

theorem aside_command {command : Command} (h : Mild command) : Aside (.writes [command]) :=
  fun _ hc => List.mem_singleton.mp hc ▸ h

theorem aside_of_local {op : Op} (h : op.Local) : Aside op := by
  cases op <;> trivial

theorem aside_of_isExecute {op : Op} (h : IsExecute op) : Aside op := by
  cases op <;> trivial

section

variable {settings : Settings}

theorem getJobById_aside (jobId : String) : (RedisQueue.getJobById jobId).Within Aside fun _ => True :=
  .perform (Op.hgetall _) trivial

theorem ack_aside (messageId : Nat) :
    ((RedisQueue.service settings).ackVideoJobMessage messageId).Within Aside fun _ => True :=
  .perform (Op.writes _) (aside_command trivial)

theorem handOver_aside (message : QueuedVideoJobMessage) (code text : String) :
    ((RedisQueue.service settings).moveVideoJobMessageToDlq message code text).Within Aside
      fun _ => True :=
  .bind (.perform (Op.writes _) (aside_command trivial)) fun _ _ =>
    @ack_aside settings message.messageId

theorem requeue_aside (jobId : String) :
    ((RedisQueue.service settings).requeueVideoJob jobId).Within Aside fun _ => True := by
  refine .bind (getJobById_aside jobId) fun found _ => ?_
  cases found with
  | none => exact .pure trivial
  | some job => exact .perform (Op.writes _) (aside_command trivial)

theorem ensureConsumerGroup_aside :
    ((RedisQueue.service settings).ensureConsumerGroup).Within Aside fun _ => True := by
  refine .tryCatch (.perform Op.xgroupCreate trivial) fun exc => ?_
  split
  · exact .pure trivial
  · exact .throw

theorem alreadyThere_aside (existing : VideoJob) :
    (RedisQueue.alreadyThere existing).Within Aside fun _ => True :=
  .bind (.perform (Op.writes _) (aside_command trivial)) fun _ _ => .pure trivial

/-- A new job is queued. -/
theorem storeNewJob_aside (request : VideoDetectRequest) :
    (RedisQueue.storeNewJob settings request).Within Aside fun _ => True := by
  refine .bind (.perform Op.now trivial) fun now _ => ?_
  have hqueued : Mild (.hset (jobKey request.jobId) (request.job now)) := .inl rfl
  simp only
  split
  · refine .bind (.perform (Op.writes _) (aside_command hqueued)) fun _ _ => ?_
    refine .bind (.perform (Op.writes _) (aside_command trivial)) fun _ _ => ?_
    refine .bind (.perform (Op.writes _) (aside_command trivial)) fun _ _ => ?_
    exact .bind (.perform (Op.writes _) (aside_command trivial)) fun _ _ => .pure trivial
  · refine .bind (.perform (Op.writes _) fun command hc => ?_) fun _ _ => .pure trivial
    simp only [List.mem_cons, List.not_mem_nil, or_false] at hc
    rcases hc with rfl | rfl | rfl | rfl
    · exact hqueued
    all_goals trivial

theorem enqueue_aside (request : VideoDetectRequest) :
    ((RedisQueue.service settings).enqueueVideoDetection request).Within Aside fun _ => True := by
  refine .bind (.perform (Op.hgetall _) trivial) fun found _ => ?_
  cases found with
  | some existing => exact alreadyThere_aside existing
  | none =>
    refine .bind (.perform (Op.get _) trivial) fun known _ => ?_
    split
    · refine .bind (getJobById_aside _) fun found _ => ?_
      cases found with
      | some existing => exact alreadyThere_aside existing
      | none => exact storeNewJob_aside request
    · exact storeNewJob_aside request

theorem getStatusByVideoId_aside (videoId : String) :
    (VideoStatusService.getStatusByVideoId settings videoId).Within Aside fun _ => True := by
  have hjob : (RedisQueue.getJobByVideoId videoId).Within Aside fun _ => True := by
    refine .bind (.perform (Op.get _) trivial) fun jobId _ => ?_
    cases jobId with
    | none => exact .pure trivial
    | some jobId =>
      simp only
      split
      · exact .pure trivial
      · exact getJobById_aside jobId
  have hrow : ∀ jobId, (VideoStatusService.resultByJobId jobId).Within Aside fun _ => True :=
    fun jobId => .bind (.perform (Op.selectResult jobId) trivial) fun _ _ => .pure trivial
  refine .bind (readWithPoolRetry_within hjob) fun found _ => ?_
  cases found with
  | none =>
    refine .bind (φ := fun _ => True) ?_ fun _ _ => .pure trivial
    exact .bind (.perform (Op.selectLatestResult _) trivial) fun _ _ => .pure trivial
  | some job =>
    simp only
    split
    · exact .bind (hrow job.jobId) fun _ _ => .pure trivial
    · exact .bind (φ := fun _ => True) (.pure trivial) fun _ _ => .pure trivial

theorem execute_aside (tx : List Write) (write : Write) :
    (execute tx write).Within Aside fun all => all = tx ++ [write] :=
  .bind (.perform (Op.execute tx write) trivial) fun _ _ => .pure rfl

/-- What the final transaction of an attempt for `job` is about. -/
structure Concluded (job : VideoJob) (result : VideoModerationResult) (action : Option StorageAction) :
    Prop where
  jobId : result.jobId = job.jobId
  videoId : result.videoId = job.videoId
  required : action.isSome = result.moveRequired
  action : ∀ a, action = some a → a.jobId = job.jobId

theorem moveIfRequired_aside (result : VideoModerationResult) (publisherUserId : String) :
    (moveIfRequired settings result publisherUserId).Within Aside fun response =>
      response.isSome = result.moveRequired := by
  rw [moveIfRequired]
  split
  · next hnot => exact .pure (Bool.eq_false_of_not_eq_true hnot).symm
  · next hrequired =>
    refine .bind (φ := fun _ => True) ?_ fun _ _ => .pure (not_not.mp hrequired).symm
    rw [moveToNsfw]
    split
    · exact .throw
    · exact .perform (Op.postMove _ _) trivial

theorem storageAction_aside (job : VideoJob) (result : VideoModerationResult)
    (response : Option StorjMoveResponse) :
    (storageAction settings job result response).Within Aside fun action =>
      action.isSome = response.isSome ∧ ∀ a, action = some a → a.jobId = job.jobId := by
  cases response with
  | none => exact .pure ⟨rfl, nofun⟩
  | some response =>
    refine .bind (.perform Op.now trivial) fun now _ => .bind (.perform Op.uuid4 trivial) fun uuid _ =>
      .pure ⟨rfl, ?_⟩
    rintro _ ⟨⟩
    rfl

end

/-! ## Rules -/

structure Terms where
  meets : Past → Call → Prop
  inv : World → Past → Prop
  may : Caller → World → Past → Op → Prop

/-- Caller `i` keeps to the terms with a call. -/
structure Terms.Kept (T : Terms) (settings : Settings) (i : Caller) (s : World) (past : Past) (op : Op)
    (o : Outcome PyException (Ans op)) (s' : World) : Prop where
  consistent : Consistent s
  inv : T.inv s past
  rules : May settings i s past op
  may : T.may i s past op
  does : Does i s op o s'
  meets : T.meets past ⟨i, op, o⟩

/-- Terms that keep their invariant, and ask nothing of most calls. -/
structure Rules (settings : Settings) extends Terms where
  inv_call : ∀ {s s' : World} {past : Past} {i : Caller} {op : Op} {o : Outcome PyException (Ans op)},
    toTerms.Kept settings i s past op o s' → inv s' (⟨i, op, o⟩ :: past)
  may_aside : ∀ {s : World} {past : Past} {i : Caller} {op : Op}, Aside op → may i s past op

namespace Rules

variable {settings : Settings}

/-- The runs record their past, so the condition is a part of what a call does. -/
def discipline (R : Rules settings) : Discipline Caller (World × Past) Ans PyException where
  does i s op o s' := Does i s.1 op o s'.1 ∧ s'.2 = ⟨i, op, o⟩ :: s.2 ∧ May settings i s.1 s.2 op ∧
    R.meets s.2 ⟨i, op, o⟩
  inv s past := s.2 = past ∧ Consistent s.1 ∧ R.inv s.1 past
  may i s past op := R.may i s.1 past op
  inv_call := by
    rintro s past i op o s' ⟨rfl, hcons, hinv⟩ hmay ⟨hdoes, hpast, hrules, hmeets⟩
    exact ⟨hpast, hcons.call hrules hdoes, R.inv_call ⟨hcons, hinv, hrules, hmay, hdoes, hmeets⟩⟩

variable {R : Rules settings} {i : Caller}

theorem kept {s s' : World × Past} {past : Past} {op : Op} {o : Outcome PyException (Ans op)}
    (hinv : R.discipline.inv s past) (hmay : R.discipline.may i s past op)
    (hdoes : R.discipline.does i s op o s') : R.Kept settings i s.1 past op o s'.1 := by
  obtain ⟨rfl, hcons, hinv⟩ := hinv
  obtain ⟨hdoes, -, hrules, hmeets⟩ := hdoes
  exact ⟨hcons, hinv, hrules, hmay, hdoes, hmeets⟩

theorem next {s s' : World} {past : Past} {op : Op} {o : Outcome PyException (Ans op)}
    (hkept : R.Kept settings i s past op o s') :
    R.discipline.inv (s', ⟨i, op, o⟩ :: past) (⟨i, op, o⟩ :: past) :=
  ⟨rfl, hkept.consistent.call hkept.rules hkept.does, R.inv_call hkept⟩

/-- Knowledge of the stores and the past. -/
def knows (R : Rules settings) (i : Caller) (φ : World → Past → Prop)
    (stable : ∀ {s s' : World} {past : Past} {j : Caller} {op : Op} {o : Outcome PyException (Ans op)},
      j ≠ i → R.Kept settings j s past op o s' → φ s past → φ s' (⟨j, op, o⟩ :: past)) :
    Assertion R.discipline i where
  holds s past := φ s.1 past
  stable hj hinv hmay hdoes h := stable hj (kept hinv hmay hdoes) h

theorem still {P : Assertion R.discipline i} {K : Op → Prop} (hkeeps : P.Keeps K) {op : Op} (hop : K op)
    {s s' : World} {past : Past} {o : Outcome PyException (Ans op)}
    (hkept : R.Kept settings i s past op o s') (hP : P.holds (s, past) past) :
    P.holds (s', ⟨i, op, o⟩ :: past) (⟨i, op, o⟩ :: past) := by
  have hinv : R.discipline.inv (s, past) past := ⟨rfl, hkept.consistent, hkept.inv⟩
  have hdoes : R.discipline.does i (s, past) op o (s', ⟨i, op, o⟩ :: past) :=
    ⟨hkept.does, rfl, hkept.rules, hkept.meets⟩
  exact hkeeps op hop hinv hkept.may hdoes hP

/-- One call, with what is known after an answer and after a failure. -/
theorem ask_rule {P E : Assertion R.discipline i} (op : Op) {S : Ans op → Assertion R.discipline i}
    (hmay : ∀ s past, Consistent s → R.inv s past → P.holds (s, past) past → R.may i s past op)
    (hanswer : ∀ s past b s', R.Kept settings i s past op (.answered b) s' → P.holds (s, past) past →
      (S b).holds (s', ⟨i, op, .answered b⟩ :: past) (⟨i, op, .answered b⟩ :: past))
    (hfail : ∀ s past o s', R.Kept settings i s past op o s' → P.holds (s, past) past →
      ¬ o.Answered → E.holds (s', ⟨i, op, o⟩ :: past) (⟨i, op, o⟩ :: past)) :
    Triple (ends (fun _ => E) S) P (await op) := by
  refine .perform (fun s past hinv hP => ?_) fun s past o s' hinv hP hdoes => ?_
  · obtain ⟨rfl, hcons, hinv⟩ := hinv
    exact hmay s.1 _ hcons hinv hP
  · obtain ⟨s, record⟩ := s
    obtain ⟨s', record'⟩ := s'
    obtain ⟨rfl, hcons, hinv⟩ := hinv
    obtain ⟨hdoes, rfl, hrules, hmeets⟩ := hdoes
    have hkept : R.Kept settings i s record op o s' :=
      ⟨hcons, hinv, hrules, hmay s record hcons hinv hP, hdoes, hmeets⟩
    cases o with
    | answered b => exact hanswer s record b s' hkept hP
    | refused | failed | lost => exact hfail s record _ s' hkept hP id

theorem stays_rule {P : Assertion R.discipline i} {K : Op → Prop} (hkeeps : P.Keeps K) {op : Op}
    (hop : K op)
    (hmay : ∀ s past, Consistent s → R.inv s past → P.holds (s, past) past → R.may i s past op) :
    Triple (ends (fun _ => P) fun _ => P) P (await op) :=
  ask_rule op hmay (fun _ _ _ _ hkept hP => still hkeeps hop hkept hP)
    fun _ _ _ _ hkept hP _ => still hkeeps hop hkept hP

theorem commit_stays {P : Assertion R.discipline i} {tx : List Write} (hkeeps : P.Keeps (· = .commit tx))
    (hmay : ∀ s past, P.holds (s, past) past → R.may i s past (.commit tx)) :
    Triple (ends (fun _ => P) fun _ => P) P (commit tx) :=
  andThen (stays_rule hkeeps rfl fun s past _ _ => hmay s past) fun _ => give (Entails.refl P)

/-! ## Outlines that all such runs share -/

theorem aside_rule {α : Type} {φ : α → Prop} {P : Assertion R.discipline i} {p : Code α}
    (hkeeps : P.Keeps Aside) (hp : p.Within Aside φ) :
    Triple (ends (fun _ => P) fun a => P.and (.pure (φ a))) P p :=
  within hkeeps (fun _ _ _ hop _ _ => R.may_aside hop) hp

theorem aside_stays {α : Type} {φ : α → Prop} {P : Assertion R.discipline i} {p : Code α}
    (hkeeps : P.Keeps Aside) (hp : p.Within Aside φ) : Triple (ends (fun _ => P) fun _ => P) P p :=
  mapOk (fun _ => and_left _ _) (aside_rule hkeeps hp)

/-! ### Statuses and marks -/

section

variable {P Q E : Assertion R.discipline i}

def Reads : Op → Prop
  | .hgetall _ | .now => True
  | _ => False

theorem aside_of_reads {op : Op} (h : Reads op) : Aside op := by
  cases op <;> trivial

/-- What is left of `P` when a call of `K` fails. -/
def Leaves (P E : Assertion R.discipline i) (K : Op → Prop) : Prop :=
  ∀ {op : Op} {s s' : World} {past : Past} {o : Outcome PyException (Ans op)}, K op →
    R.Kept settings i s past op o s' → P.holds (s, past) past → ¬ o.Answered →
      E.holds (s', ⟨i, op, o⟩ :: past) (⟨i, op, o⟩ :: past)

theorem leaves_of_keeps {K : Op → Prop} (hkeeps : P.Keeps K) (hE : Entails P E) : Leaves P E K :=
  fun hop hkept hP _ => hE _ _ (next hkept) (still hkeeps hop hkept hP)

/-- Whoever reads a hash reads a job under its own key. -/
theorem getJobById_rule {jobId : String} (hkeeps : P.Keeps Reads) (hE : Leaves P E Reads)
    (hnone : ∀ s past, P.holds (s, past) past → s.kv.hashes (jobKey jobId) = none →
      Q.holds (s, past) past) :
    Triple (ends (fun _ => E) fun found => (P.and (.pure (∀ job, found = some job →
      job.jobId = jobId))).and (Q.given (found = none))) P (RedisQueue.getJobById jobId) := by
  have hop : Reads (.hgetall (jobKey jobId)) := trivial
  refine ask_rule (.hgetall (jobKey jobId)) (fun _ _ _ _ _ => R.may_aside (aside_of_reads hop))
    (fun s past found s' hkept hP => ?_) fun s past o s' hkept hP hnot => hE hop hkept hP hnot
  have hP' := still hkeeps hop hkept hP
  obtain ⟨hfound, rfl⟩ := hkept.does
  refine ⟨⟨hP', fun job hjob => ?_⟩, fun hmissing => hnone _ _ hP' (hfound.symm.trans hmissing)⟩
  have hkey := (hkept.consistent.keys _ job (hfound.symm.trans hjob)).1
  exact (jobKey_injective hkey).symm

theorem getStatusByJobId_rule {jobId : String} (hkeeps : P.Keeps Reads) :
    Triple (ends (fun _ => P) fun found => P.and (.pure (∀ job, found = some job →
      job.jobId = jobId))) P ((RedisQueue.service settings).getStatusByJobId jobId) := by
  have hread : Triple (ends (fun _ => P) fun found => P.and (.pure (∀ job, found = some job →
      job.jobId = jobId))) P (RedisQueue.getJobById jobId) :=
    mapOk (fun _ => and_left _ _) (getJobById_rule (Q := P) hkeeps
      (leaves_of_keeps hkeeps (Entails.refl P)) fun _ _ h _ => h)
  exact readWithPoolRetry_outline (fun _ => Entails.refl P) (Entails.refl P) (Entails.refl P) hread

/-- `update_status` writes nothing where there is no hash, and else a job with the new status. -/
theorem updateStatus_rule {jobId : String} {status : VideoJobStatus} {code message : Option String}
    (hkeeps : P.Keeps Reads) (hE : Leaves P E Reads)
    (hnone : ∀ s past, P.holds (s, past) past → s.kv.hashes (jobKey jobId) = none →
      Q.holds (s, past) past)
    (hwrite : ∀ job : VideoJob, job.jobId = jobId → job.status = status →
      Triple (ends (fun _ => E) fun _ => Q) P (await (.writes [.hset (jobKey jobId) job]))) :
    Triple (ends (fun _ => E) fun updated => Q.and (.pure (∀ job, updated = some job →
      job.jobId = jobId))) P (RedisQueue.updateStatus jobId status code message) := by
  refine andThen (getJobById_rule hkeeps hE hnone) fun found => ?_
  cases found with
  | none =>
    refine give fun s past _ h => ?_
    have hQ : Q.holds s past := h.2 rfl
    exact ⟨hQ, fun job hjob => by cases hjob⟩
  | some job =>
    refine weaken (and_left _ _) (assume fun hjob => ?_)
    refine andThen (S := fun _ => P) ?_ fun now => ?_
    · have hop : Reads .now := trivial
      exact ask_rule .now (fun _ _ _ _ _ => R.may_aside trivial) (fun s past b s' hkept hP =>
        still hkeeps hop hkept hP) fun s past o s' hkept hP hnot => hE hop hkept hP hnot
    · have hid : (job.withStatus status code message now).jobId = jobId := hjob job rfl
      have hkeep : Triple (ends (fun _ => E) fun _ => Q) P
          (await (.writes [.hset (jobKey jobId) (job.withStatus status code message now)])) :=
        hwrite _ hid rfl
      refine andThen hkeep fun _ => give fun _ _ _ h => ⟨h, fun updated hupdated => ?_⟩
      rw [← Option.some.inj hupdated]
      exact hid

theorem markProcessing_rule {job : VideoJob} (hkeeps : P.Keeps Aside)
    (hcommit : Triple (ends (fun _ => P) fun _ => P) P (commit (markProcessingTx job))) :
    Triple (ends (fun _ => P) fun _ => P) P (PostgresJobState.markProcessing job) := by
  refine andThen (aside_rule hkeeps (execute_aside _ _)) fun tx => assume ?_
  rintro rfl
  refine andThen (aside_rule hkeeps (execute_aside _ _)) fun tx => assume ?_
  rintro rfl
  exact hcommit

theorem recordFailure_rule {job : VideoJob} {exc : PyException} (hkeeps : P.Keeps Aside)
    (hwrite : ∀ failed : VideoJob, failed.jobId = job.jobId → failed.status ≠ .classified →
      Triple (ends (fun _ => P) fun _ => P) P (await (.writes [.hset (jobKey job.jobId) failed])))
    (hcommit : ∀ status code message,
      Triple (ends (fun _ => P) fun _ => P) P (commit [.markFailed job.jobId status code message])) :
    Triple (ends (fun _ => P) fun _ => P) P ((processor settings).recordFailure job exc) := by
  have hreads : P.Keeps Reads := hkeeps.mono fun _ => aside_of_reads
  refine andThen (updateStatus_rule hreads (leaves_of_keeps hreads (Entails.refl P)) (fun _ _ h _ => h)
    fun failed hid hstatus => hwrite failed hid fun hclassified => ?_) fun _ => weaken (and_left _ _) ?_
  · simp only [classifyProcessingError, hclassified] at hstatus
    split at hstatus <;> cases hstatus
  refine andThen (S := fun _ => P) ?_ fun _ => .throw (Entails.refl P)
  simp only [processor, PostgresJobState.repository, PostgresJobState.markFailed]
  split
  · exact .throw (Entails.refl P)
  · refine andThen (aside_rule hkeeps (execute_aside _ _)) fun tx => assume ?_
    rintro rfl
    exact hcommit _ _ _

end

/-! ### From the video to the verdict -/

/-- Up to the commit `_process_video` decides nothing, and the removal of its directory cannot fail. -/
theorem processVideo_rule {P S T : Assertion R.discipline i}
    {C : List FrameModerationResult → VideoModerationResult → Option StorageAction →
      Assertion R.discipline i} {job : VideoJob} (hkeeps : P.Keeps Aside) (hkeeps' : T.Keeps Aside)
    (hcommit : ∀ frames result action, Concluded job result action →
      Triple (ends (fun _ => P) fun _ => C frames result action) P
        (commit (finalTx settings job frames result action)))
    (hpublish : ∀ metadata frames result action, Concluded job result action →
      Triple (ends (fun _ => P) fun _ => S) (C frames result action)
        (publishAfterCommit settings job metadata frames result action))
    (hstatus : Triple (ends (fun _ => P) fun _ => T) S
      (RedisQueue.updateStatus job.jobId .classified none none)) :
    Triple (ends (fun _ => P) fun _ => T) P (processVideo settings job) := by
  refine andThen (aside_stays hkeeps (.perform (Op.prepareJobDir _) trivial)) fun _ => ?_
  refine tryFinally (R := ends (fun _ => P) fun _ => T) ?_ fun r => ?_
  · refine andThen (aside_rule hkeeps ((classify_within settings job).mono (fun _ => aside_of_local)
      fun _ h => h)) fun v => assume fun hv => ?_
    refine andThen (S := fun _ => S) ?_ fun _ => andThen hstatus fun _ => give (Entails.refl T)
    refine andThen (aside_rule hkeeps (moveIfRequired_aside _ _)) fun response => assume fun hmove => ?_
    refine andThen (aside_rule hkeeps (storageAction_aside _ _ _)) fun action => assume fun haction => ?_
    have hconcluded : Concluded job v.2.2 action :=
      ⟨hv.jobId, hv.videoId, haction.1.trans hmove, haction.2⟩
    refine andThen (S := fun _ => C v.2.1 v.2.2 action) ?_ fun _ => andThen
      (hpublish v.1 v.2.1 v.2.2 action hconcluded) fun _ => give (Entails.refl S)
    refine andThen (aside_rule hkeeps ((executeAll_within _ _).mono (fun _ => aside_of_isExecute)
      fun _ h => h)) fun tx => assume ?_
    rintro rfl
    exact hcommit v.2.1 v.2.2 action hconcluded
  · have hop : Aside (.cleanupDir job.jobId) := trivial
    have hclean : ∀ (U : Assertion R.discipline i), U.Keeps Aside →
        Triple (sure fun _ => U) U (await (.cleanupDir job.jobId)) := by
      refine fun U hU => ask_rule (.cleanupDir job.jobId) (fun _ _ _ _ _ => R.may_aside hop)
        (fun s past b s' hkept hP => still hU hop hkept hP) fun s past o s' hkept _ hnot => ?_
      have hdoes := hkept.does
      cases o with
      | answered => exact hnot trivial
      | refused => exact hdoes.1
      | failed | lost => exact hdoes.1.1
    cases r with
    | ok _ =>
      refine (hclean T hkeeps').strengthen fun r => ?_
      cases r with
      | ok _ => exact Entails.refl T
      | error _ => exact fun _ _ _ h => h.elim
    | error _ =>
      refine (hclean P hkeeps).strengthen fun r => ?_
      cases r with
      | ok _ => exact Entails.refl P
      | error _ => exact fun _ _ _ h => h.elim

/-! ### The worker -/

section

variable {P : Assertion R.discipline i}

theorem handleMessage_rule (hkeeps : P.Keeps Aside)
    (hprocess : ∀ job, Triple (ends (fun _ => P) fun _ => P) P ((processor settings).process job))
    (message : QueuedVideoJobMessage) :
    Triple (ends (fun _ => P) fun _ => P) P ((worker settings).handleMessage message) := by
  rw [VideoQueueWorker.handleMessage]
  split
  · exact aside_stays hkeeps (handOver_aside _ _ _)
  · refine andThen (aside_stays hkeeps (readWithPoolRetry_within (getJobById_aside _))) fun found => ?_
    cases found with
    | none => exact aside_stays hkeeps (handOver_aside _ _ _)
    | some job =>
      refine andThen (S := fun _ => P) ?_ fun failure => ?_
      · refine tryCatch (R := ends (fun _ => P) fun _ => P) (andThen (hprocess job) fun _ =>
          give (Entails.refl P)) (fun _ => Entails.refl _) fun exc => ?_
        cases exc with
        | videoJobProcessingError failure => exact give (Entails.refl P)
        | _ => exact .throw (Entails.refl P)
      · refine aside_stays (φ := fun _ => True) hkeeps ?_
        cases failure with
        | none => exact ack_aside _
        | some failure =>
          simp only [VideoQueueWorker.settle]
          split
          · exact .bind (requeue_aside _) fun _ _ => ack_aside _
          · exact handOver_aside _ _ _

theorem runForever_rule (hkeeps : P.Keeps Aside)
    (hprocess : ∀ job, Triple (ends (fun _ => P) fun _ => P) P ((processor settings).process job))
    (n : Nat) : Triple (ends (fun _ => P) fun _ => P) P ((worker settings).runForever n) := by
  refine andThen (aside_stays hkeeps ensureConsumerGroup_aside) fun _ => ?_
  induction n with
  | zero => exact give (Entails.refl P)
  | succ n ih =>
    refine andThen (S := fun _ => P) ?_ fun _ => ih
    refine andThen (aside_stays hkeeps (.perform (Op.xreadgroup _) trivial)) fun messages => ?_
    refine andThen (S := fun _ => P) ?_ fun _ => give (Entails.refl P)
    induction messages with
    | nil => exact give (Entails.refl P)
    | cons message rest ih => exact andThen (handleMessage_rule hkeeps hprocess message) fun _ => ih

end

/-- Who keeps `P` with every `process` keeps it. -/
theorem starts_rule {P : (i : Caller) → Assertion R.discipline i} (hkeeps : ∀ i, (P i).Keeps Aside)
    (hfresh : ∀ i, Entails (R.discipline.fresh i) (P i))
    (hprocess : ∀ i job, Triple (ends (fun _ => P i) fun _ => P i) (P i)
      ((processor settings).process job)) (i : Caller) (p : Code Reply) (h : Starts settings i p) :
    Triple (ends (fun _ => P i) fun _ => P i) (R.discipline.fresh i) p := by
  refine weaken (hfresh i) ?_
  cases i with
  | worker nr =>
    obtain ⟨rounds, rfl⟩ := h
    exact andThen (runForever_rule (hkeeps _) (hprocess _) rounds) fun _ => give (Entails.refl _)
  | api nr =>
    obtain ⟨request, rfl⟩ := h
    exact andThen (aside_stays (hkeeps _) (enqueue_aside request)) fun _ => give (Entails.refl _)
  | reader nr =>
    obtain ⟨videoId, rfl⟩ := h
    exact andThen (aside_stays (hkeeps _) (getStatusByVideoId_aside videoId)) fun _ =>
      give (Entails.refl _)
  | attempt nr =>
    obtain ⟨job, rfl⟩ := h
    exact andThen (hprocess _ job) fun _ => give (Entails.refl _)

/-- The invariant holds in every run whose calls meet the condition. -/
theorem inv_of_run {P : (i : Caller) → Assertion R.discipline i} (hinit : R.inv {} [])
    (hkeeps : ∀ i, (P i).Keeps Aside) (hfresh : ∀ i, Entails (R.discipline.fresh i) (P i))
    (hprocess : ∀ i job, Triple (ends (fun _ => P i) fun _ => P i) (P i)
      ((processor settings).process job)) {c : Moment}
    (h : ReachVia (Starts settings) Does (EachCall R.meets) {} c) : R.inv c.state c.history := by
  have hrecorded : ReachVia (Starts settings) R.discipline.does (fun _ _ _ => True) ({}, [])
      c.recorded := by
    refine h.recorded fun c e c' hrun hs hmeets => ?_
    obtain ⟨hrules, hdoes, -⟩ := permitted hrun hs
    exact ⟨hdoes, rfl, hrules, hmeets⟩
  have hsound := Discipline.sound (D := R.discipline)
    (starts_rule hkeeps hfresh hprocess) ⟨rfl, consistent_empty, hinit⟩ hrecorded
  exact hsound.1.2.2

end Rules

end NsfwDetector.Publication
