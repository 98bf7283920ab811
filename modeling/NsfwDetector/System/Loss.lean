import NsfwDetector.System.Holding

/-!
# Which jobs the queue can lose

A read takes a message out of the stream, and nothing in the service reads it a second time. So a
job lives on only with a caller that still has a message of it to settle.
-/

namespace NsfwDetector.Delivery

open Effects

variable {settings : Settings} {c c' : Moment} {l : Label Caller Ans PyException} {jobId : String}

/-! ## No job is lost -/

/-- The caller waits for the reply to a call. -/
def Live : Thread Ans PyException Reply → Prop
  | .running (.call _ _) => True
  | _ => False

def Accepted (c : Moment) (jobId : String) : Prop :=
  ∃ nr result, c.threads (.api nr) = .running (.done (.ok (.enqueued result))) ∧
    result.job.jobId = jobId

/-- Every accepted job that is not at its end waits in the stream, or a live worker has it. -/
def NoJobLost (c : Moment) : Prop :=
  ∀ jobId, Accepted c jobId → Unfinished c.state jobId →
    Waiting c.state jobId ∨ ∃ nr, Live (c.threads (.worker nr)) ∧ Holds c.state (.worker nr) jobId

/-! ## Steps that lose no job -/

/-- A live caller has a message for the job, and has not settled it. -/
def InHand (c : Moment) (jobId : String) : Prop :=
  ∃ entry i, (entry, i) ∈ c.state.kv.pending ∧ entry.message.jobId = jobId ∧ Live (c.threads i) ∧
    ¬ Settled i jobId c.history

def Carried (c : Moment) (jobId : String) : Prop := Waiting c.state jobId ∨ InHand c jobId

/-- The step is the end of caller `i`: it is killed, or an exception leaves its program. -/
def Stops (i : Caller) (c' : Moment) : Label Caller Ans PyException → Prop
  | .start _ => False
  | .call e => e.caller = i ∧ ∃ exc, c'.threads i = .running (.done (.error exc))
  | .kill j => j = i

/-- Nobody stops with the last message for an unfinished job. -/
def StopsClean (c' : Moment) (l : Label Caller Ans PyException) : Prop :=
  ∀ i, Stops i c' l → ∀ jobId, Holds c'.state i jobId → Unfinished c'.state jobId → Carried c' jobId

/-- In a cluster the hash, the index and the entry of a new job come one after the other. So a
caller may find the hash of a job that has no entry yet, or write it anew after its entry is gone. -/
def EntersClean (c : Moment) (e : Call) (c' : Moment) : Prop :=
  (∀ nr jobId job, e.caller = .api nr → Performed (.hset (jobKey jobId) job) e →
    Entered c.history jobId → Unfinished c.state jobId ∨ Carried c' jobId) ∧
  ∀ key jobId, Performed (.setNx key jobId) e → Entered c.history jobId

/-- The step loses no job. -/
def Careful (settings : Settings) : StepCond Caller World Ans PyException Reply := fun c l c' =>
  StopsClean c' l ∧ (settings.kvrocksClusterEnabled = true → ∀ e, l = .call e → EntersClean c e c')

/-! ## One step -/

/-- Every job that entered the stream and is not at its end is carried. -/
def Covered (c : Moment) : Prop :=
  ∀ jobId, Entered c.history jobId → Unfinished c.state jobId → Carried c jobId

section

variable {i : Caller} {op : Op} {k : Except PyException (Ans op) → Code Reply}
  {o : Outcome PyException (Ans op)} {s' : World}

def after (c : Moment) (i : Caller) (op : Op) (o : Outcome PyException (Ans op))
    (k : Except PyException (Ans op) → Code Reply) (s' : World) : Moment where
  state := s'
  threads := Function.update c.threads i (.running (k o.seen))
  history := ⟨i, op, o⟩ :: c.history

/-- Whoever holds a message after its call is live, or it has stopped and others carry the job. -/
theorem carried_of_holds
    (hsound : (delivery settings).Sound (fun i => Triple.onOk (ended settings i)) (after c i op o k s'))
    (hclean : StopsClean (after c i op o k s') (.call ⟨i, op, o⟩)) (hholds : Holds s' i jobId)
    (hnot : ¬ Settled i jobId (⟨i, op, o⟩ :: c.history)) (hopen : Unfinished s' jobId) :
    Carried (after c i op o k s') jobId := by
  have hthread : (after c i op o k s').threads i = .running (k o.seen) := Function.update_self ..
  obtain ⟨entry, hmem, hid⟩ := id hholds
  cases hk : k o.seen with
  | call op' k' =>
    refine .inr ⟨entry, i, hmem, hid, ?_, hnot⟩
    rw [hthread, hk]
    trivial
  | done r =>
    rw [hk] at hthread
    cases r with
    | error exc => exact hclean i ⟨rfl, exc, hthread⟩ jobId hholds hopen
    | ok reply =>
      obtain ⟨-, ⟨nr, rfl⟩, -⟩ := hsound.1.held entry i hmem
      have hnone : held s' (.worker nr) = [] := hsound.post hthread
      obtain ⟨message, hmessage, -⟩ := (holds_iff jobId).mp hholds
      rw [hnone] at hmessage
      cases hmessage

theorem carried_call (hord : Orderly settings c.state c.history)
    (hmoves : Moves settings i c.state c.history op o s')
    (hsound : (delivery settings).Sound (fun i => Triple.onOk (ended settings i)) (after c i op o k s'))
    (hclean : StopsClean (after c i op o k s') (.call ⟨i, op, o⟩)) (hopen : Unfinished s' jobId)
    (hcarried : Carried c jobId) : Carried (after c i op o k s') jobId := by
  have hmine : Holds s' i jobId → ¬ Settled i jobId (⟨i, op, o⟩ :: c.history) →
      Carried (after c i op o k s') jobId :=
    fun hholds hnot => carried_of_holds hsound hclean hholds hnot hopen
  rcases hcarried with hwaiting | ⟨entry, w, hmem, hid, hlive, hnot⟩
  · rcases waiting_moves hmoves hwaiting with hwaiting | ⟨hholds, hword⟩
    · exact .inl hwaiting
    · exact hmine hholds (by simp [settled_of_word hword])
  · rcases pending_moves hord hmoves hmem with hmem | ⟨rfl, hsettled⟩
    · by_cases hw : w = i
      · subst hw
        cases hword : word jobId ⟨w, op, o⟩ with
        | none => exact hmine ⟨entry, hmem, hid⟩ (by rwa [settled_of_silent hword])
        | some b =>
          cases b with
          | true => exact .inl (waiting_of_settles hmoves hword hopen)
          | false => exact hmine ⟨entry, hmem, hid⟩ (by simp [settled_of_word hword])
      · refine .inr ⟨entry, w, hmem, hid, ?_, ?_⟩
        · change Live (Function.update c.threads i _ w)
          rwa [Function.update_of_ne hw]
        · change ¬ Settled w jobId (⟨i, op, o⟩ :: c.history)
          rwa [settled_other (Ne.symm hw)]
    · exact absurd (hid ▸ hsettled) hnot

theorem covered_call (hord : Orderly settings c.state c.history)
    (hmoves : Moves settings i c.state c.history op o s')
    (hsound : (delivery settings).Sound (fun i => Triple.onOk (ended settings i)) (after c i op o k s'))
    (hcareful : Careful settings c (.call ⟨i, op, o⟩) (after c i op o k s')) (hcovered : Covered c) :
    Covered (after c i op o k s') := by
  intro jobId hentered hopen
  obtain ⟨hclean, hcluster⟩ := hcareful
  by_cases hadd : ∃ payload, Performed (.xadd jobId payload) ⟨i, op, o⟩
  · obtain ⟨payload, hadd⟩ := hadd
    exact .inl (waiting_of_entered hmoves hadd)
  · have hbefore : Entered c.history jobId := by
      obtain ⟨e, he, hperformed⟩ := hentered
      rcases List.mem_cons.mp he with rfl | he
      · exact absurd hperformed hadd
      · exact ⟨e, he, hperformed⟩
    have hkeep : Unfinished c.state jobId → Carried (after c i op o k s') jobId := fun hopen₀ =>
      carried_call hord hmoves hsound hclean hopen (hcovered jobId hbefore hopen₀)
    rcases unfinished_moves hmoves hopen with hopen₀ | hwaiting | ⟨hholds, hword⟩ |
      ⟨hon, ⟨nr, hi⟩, job, hset⟩
    · exact hkeep hopen₀
    · exact .inl hwaiting
    · exact carried_of_holds hsound hclean hholds (by simp [settled_of_word hword]) hopen
    · exact ((hcluster hon _ rfl).1 nr jobId job hi hset hbefore).elim hkeep id

end

theorem carried_of_live (hstate : c'.state = c.state) (hpast : c'.history = c.history)
    (hlive : ∀ entry i, (entry, i) ∈ c.state.kv.pending → entry.message.jobId = jobId →
      Live (c.threads i) → Live (c'.threads i) ∨ Carried c' jobId)
    (h : Carried c jobId) : Carried c' jobId := by
  rcases h with hwaiting | ⟨entry, i, hmem, hid, hthread, hnot⟩
  · exact .inl (hstate ▸ hwaiting)
  · rcases hlive entry i hmem hid hthread with hthread | hcarried
    · exact .inr ⟨entry, i, hstate ▸ hmem, hid, hthread, hpast ▸ hnot⟩
    · exact hcarried

theorem covered_step (h : ReachVia (Services settings) Does (Careful settings) {} c)
    (hs : Step (Services settings) Does c l c') (hcareful : Careful settings c l c')
    (hcovered : Covered c) : Covered c' := by
  have hsound := sound h
  have hsound' := sound (.step h hs hcareful)
  cases hs with
  | @start i p hready _ =>
    intro jobId hentered hopen
    refine carried_of_live (c := c) rfl rfl (fun entry w _ _ hlive => .inl ?_)
      (hcovered jobId hentered hopen)
    have hw : w ≠ i := by
      rintro rfl
      rw [hready] at hlive
      exact hlive
    change Live (Function.update c.threads i _ w)
    rwa [Function.update_of_ne hw]
  | @kill i op k hrun =>
    intro jobId hentered hopen
    refine carried_of_live (c := c) rfl rfl (fun entry w hmem hid hlive => ?_) (hcovered jobId hentered hopen)
    by_cases hw : w = i
    · subst hw
      exact .inr (hcareful.1 w rfl jobId ⟨entry, hmem, hid⟩ hopen)
    · left
      change Live (Function.update c.threads i _ w)
      rwa [Function.update_of_ne hw]
  | @call i op k o s' hrun hdoes =>
    have hcall : Step (Services settings) Does c (.call ⟨i, op, o⟩) (after c i op o k s') :=
      .call hrun hdoes
    have hmay := (hsound.permitted (D := delivery settings) hcall).1
    exact covered_call hsound.1 (moves hmay hdoes) hsound' hcareful hcovered

theorem covered (h : ReachVia (Services settings) Does (Careful settings) {} c) : Covered c := by
  induction h with
  | init => exact fun jobId ⟨_, he, _⟩ => absurd he List.not_mem_nil
  | step hreach hs hcareful ih => exact covered_step hreach hs hcareful ih

/-! ## All runs -/

/-- In a cluster an index is only pointed at jobs that are in the stream. -/
theorem entered_of_indexed (hcluster : settings.kvrocksClusterEnabled = true)
    (h : ReachVia (Services settings) Does (Careful settings) {} c) {e : Call} (he : e ∈ c.history)
    {key : String} (hset : Performed (.setNx key jobId) e) : Entered c.history jobId := by
  induction h with
  | init => cases he
  | step hreach hs hcareful ih =>
    cases hs with
    | start | kill => exact ih he
    | call =>
      rcases List.mem_cons.mp he with rfl | he
      · exact ((hcareful.2 hcluster _ rfl).2 key jobId hset).mono
      · exact (ih he).mono

/-- No job is lost, as long as no worker stops with the last message for an unfinished job and, in
a cluster, no caller of the API comes between the hash of a job and its entry. -/
theorem no_job_lost (settings : Settings) {c : Moment}
    (h : ReachVia (Services settings) Does (Careful settings) {} c) : NoJobLost c := by
  rintro jobId ⟨nr, result, hthread, rfl⟩ hopen
  have hsound := sound h
  have hentered : Entered c.history result.job.jobId := by
    rcases hsound.post hthread with hentered | ⟨hcluster, e, he, key, hset⟩
    · exact hentered
    · exact entered_of_indexed hcluster h he hset
  rcases covered h _ hentered hopen with hwaiting | ⟨entry, i, hmem, hid, hlive, -⟩
  · exact .inl hwaiting
  · obtain ⟨-, ⟨nr, rfl⟩, -⟩ := hsound.1.held entry i hmem
    exact .inr ⟨nr, hlive, entry, hmem, hid⟩

/-! ### A job that is tried again -/

def answerOf : Thread Ans PyException Reply → Option EnqueueResult
  | .running (.done (.ok (.enqueued result))) => some result
  | _ => none

theorem accepted_of_answerOf {nr : Nat} {result : EnqueueResult}
    (h : answerOf (c.threads (.api nr)) = some result) (hid : result.job.jobId = jobId) :
    Accepted c jobId := by
  refine ⟨nr, result, ?_, hid⟩
  unfold answerOf at h
  split at h
  · next found hthread => rw [hthread, Option.some.inj h]
  · cases h

/-- The queue's status of the job, if it is not terminal. -/
def openStatus (s : World) (jobId : String) : Option VideoJobStatus :=
  ((s.kv.hashes (jobKey jobId)).map (·.status)).filter fun status => ¬ status.Terminal

theorem unfinished_of_openStatus {s : World} {status : VideoJobStatus}
    (h : openStatus s jobId = some status) : Unfinished s jobId := by
  obtain ⟨hstatus, hopen⟩ := Option.filter_eq_some_iff.mp h
  obtain ⟨job, hjob, rfl⟩ := Option.map_eq_some_iff.mp hstatus
  exact ⟨job, hjob, of_decide_eq_true hopen⟩

/-- The call leaves its caller with an exception that nobody catches. -/
def raisesOut (c' : Moment) (e : Call) : Bool :=
  match c'.threads e.caller with
  | .running (.done (.error _)) => true
  | _ => false

/-- Nobody is killed, and no exception leaves a program. -/
def Undisturbed : StepCond Caller World Ans PyException Reply := fun _ l c' =>
  match l with
  | .start _ => True
  | .call e => raisesOut c' e = false
  | .kill _ => False

instance (c : Moment) (l : Label Caller Ans PyException) (c' : Moment) :
    Decidable (Undisturbed c l c') :=
  match l with
  | .start _ => .isTrue trivial
  | .call e => inferInstanceAs (Decidable (raisesOut c' e = false))
  | .kill _ => .isFalse id

theorem careful_of_undisturbed (hcluster : settings.kvrocksClusterEnabled = false)
    (h : Undisturbed c l c') : Careful settings c l c' := by
  refine ⟨fun i hstops => ?_, fun hon => by rw [hcluster] at hon; cases hon⟩
  cases l with
  | start => exact hstops.elim
  | kill => exact h.elim
  | call e =>
    obtain ⟨rfl, exc, hthread⟩ := hstops
    have hquiet : raisesOut c' e = false := h
    simp [raisesOut, hthread] at hquiet

def oneNode : Settings := { kvrocksClusterEnabled := false }

/-- The download fails. The worker gives the job back to the stream and reads it again. -/
def retriedScript : Script :=
  .start (.api 0) (apiProgram oneNode sampleRequest) :: calls (.api 0) 4 clean ++
    .start (.worker 0) (workerProgram oneNode 2) :: calls (.worker 0) 12 clean ++
      breaks (.worker 0) :: calls (.worker 0) 10 clean

theorem legal_retriedScript : ∀ t ∈ retriedScript, t.Legal (Services oneNode) := by
  simp only [retriedScript, List.mem_append, List.mem_cons]
  rintro t (((rfl | ht) | rfl | ht) | rfl | ht)
  · exact ⟨sampleRequest, rfl⟩
  · exact legal_calls t ht
  · exact ⟨2, rfl⟩
  · exact legal_calls t ht
  · trivial
  · exact legal_calls t ht

theorem no_job_lost_retried : ∃ c, ReachVia (Services oneNode) Does (Careful oneNode) {} c ∧
    Accepted c "job" ∧ Unfinished c.state "job" ∧ c.state.kv.fresh.length = 0 ∧ NoJobLost c := by
  obtain ⟨c, hrun, hp⟩ : ∃ c, ReachVia (Services oneNode) Does Undisturbed {} c ∧
      decide ((answerOf (c.threads (.api 0))).map (·.job.jobId) = some "job" ∧
        openStatus c.state "job" = some .failedRetryable ∧ c.state.kv.fresh.length = 0) = true :=
    exists_of_play choose_within legal_retriedScript (by decide +kernel)
  obtain ⟨hanswer, hstatus, hfresh⟩ := of_decide_eq_true hp
  obtain ⟨result, hresult, hid⟩ := Option.map_eq_some_iff.mp hanswer
  have hcareful : ReachVia (Services oneNode) Does (Careful oneNode) {} c :=
    hrun.mono fun _ _ _ => careful_of_undisturbed rfl
  exact ⟨c, hcareful, accepted_of_answerOf hresult hid, unfinished_of_openStatus hstatus, hfresh,
    no_job_lost oneNode hcareful⟩

/-! ### A worker that is killed -/

/-- The worker has read the message, and is killed before it looks at the job. -/
def killedScript : Script :=
  enqueueScript {} ++ .start (.worker 0) (workerProgram {} 1) :: calls (.worker 0) 2 clean ++
    [.kill (.worker 0)]

theorem legal_killedScript : ∀ t ∈ killedScript, t.Legal (Services {}) := by
  simp only [killedScript, enqueueScript, List.mem_append, List.mem_cons, List.not_mem_nil, or_false]
  rintro t (((rfl | ht) | rfl | ht) | rfl)
  · exact ⟨sampleRequest, rfl⟩
  · exact legal_calls t ht
  · exact ⟨1, rfl⟩
  · exact legal_calls t ht
  · trivial

instance (t : Thread Ans PyException Reply) : Decidable (Live t) :=
  match t with
  | .running (.call _ _) => .isTrue trivial
  | .running (.done _) | .ready | .killed => .isFalse id

/-- The accepted job is queued, no entry for it waits, and nobody alive has a message for it. -/
theorem killed_worker_loses_job : ∃ c, Reach (Services {}) Does {} c ∧ ¬ NoJobLost c := by
  obtain ⟨c, hrun, hp⟩ : ∃ c, Reach (Services {}) Does {} c ∧
      decide ((answerOf (c.threads (.api 0))).map (·.job.jobId) = some "job" ∧
        openStatus c.state "job" = some .queued ∧ c.state.kv.fresh.length = 0 ∧
        ∀ x ∈ c.state.kv.pending, ¬ Live (c.threads x.2)) = true :=
    exists_of_play choose_within legal_killedScript (by decide +kernel)
  obtain ⟨hanswer, hstatus, hfresh, hdead⟩ := of_decide_eq_true hp
  obtain ⟨result, hresult, hid⟩ := Option.map_eq_some_iff.mp hanswer
  refine ⟨c, hrun, fun hnone => ?_⟩
  rcases hnone "job" (accepted_of_answerOf hresult hid) (unfinished_of_openStatus hstatus) with
    ⟨entry, hentry, -⟩ | ⟨nr, hlive, entry, hmem, -⟩
  · rw [List.eq_nil_of_length_eq_zero hfresh] at hentry
    cases hentry
  · exact hdead _ hmem hlive

end NsfwDetector.Delivery
