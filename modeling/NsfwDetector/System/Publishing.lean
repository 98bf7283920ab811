import NsfwDetector.System.Publication

/-!
# Every caller keeps to the rules of publication

The outlines of the code, from the single command up to the programs of the callers.
-/

namespace NsfwDetector.Publication

open Effects Effects.Assertion Triple

variable {settings : Settings} {i : Caller}

/-! ## What callers know -/

def hasResult (settings : Settings) (i : Caller) (jobId : String) :
    Assertion (discipline settings) i where
  holds s _ := HasResult s jobId
  stable _ _ _ hdoes h := HasResult.step hdoes h

def rowIn (settings : Settings) (i : Caller) (row : VideoResultRow) :
    Assertion (discipline settings) i where
  holds s _ := row ∈ s.db.results
  stable _ _ _ hdoes h := Does.results hdoes h

theorem keeps_hasResult {K : Op → Prop} {jobId : String} : (hasResult settings i jobId).Keeps K :=
  fun _ _ _ _ _ _ _ _ hdoes h => HasResult.step hdoes h

theorem keeps_rowIn {K : Op → Prop} {row : VideoResultRow} : (rowIn settings i row).Keeps K :=
  fun _ _ _ _ _ _ _ _ hdoes h => Does.results hdoes h

/-! ## Calls without a rule -/

def Free : Command → Prop
  | .hset _ _ | .set _ _ | .rpush _ _ | .setRuntime _ _ => False
  | _ => True

def Unruled : Op → Prop
  | .commit _ => False
  | .writes commands => ∀ command ∈ commands, Free command
  | _ => True

theorem may_of_unruled {s : World} {past : Past} {op : Op} (h : Unruled op) :
    May settings i s past op := by
  cases op with
  | writes commands =>
    refine ⟨fun command hc => ?_, fun key job hmem => (h _ hmem).elim,
      fun key jobId hmem => (h _ hmem).elim⟩
    have := h command hc
    cases command <;> trivial
  | commit => exact h.elim
  | _ => trivial

theorem unruled {α : Type} {P : Assertion (discipline settings) i} {K : Op → Prop} {φ : α → Prop}
    {p : Code α} (hkeeps : P.Keeps K) (hK : ∀ op, K op → Unruled op) (hp : p.Within K φ) :
    Triple (onOk fun a => P.and (.pure (φ a))) P p :=
  quiet hkeeps (fun _ _ _ hop _ _ => may_of_unruled (hK _ hop)) hp

theorem unruled_of_local {op : Op} (h : op.Local) : Unruled op := by
  cases op <;> trivial

theorem not_prepare_of_local {op : Op} (h : op.Local) : op.isPrepare = false := by
  cases op <;> first | rfl | exact h.elim

theorem not_move_of_local {op : Op} (h : op.Local) : op.isMove = false := by
  cases op <;> first | rfl | exact h.elim

/-! ## Statuses -/

def UpdateOp : Op → Prop
  | .hgetall _ | .now | .writes _ => True
  | _ => False

/-- `update_status` keeps what is known. For `CLASSIFIED` the caller must know of a result. -/
theorem updateStatus_outline {P : Assertion (discipline settings) i} {jobId : String}
    {status : VideoJobStatus} {code message : Option String} (hP : P.Keeps UpdateOp)
    (hclassified : status = .classified → Entails P (hasResult settings i jobId)) :
    Triple (onOk fun _ => P) P (RedisQueue.updateStatus jobId status code message) := by
  refine andThen (S := fun found => P.and (.pure (∀ job, found = some job →
    job.jobId = jobId ∧ job.createdAt ≠ none))) (ask (Op.hgetall _) (fun _ _ _ _ => trivial) ?_) fun found => ?_
  · rintro s past found s' hinv hPs hdoes
    refine ⟨hP (Op.hgetall _) trivial hinv trivial hdoes hPs, fun job hjob => ?_⟩
    obtain ⟨hkey, hcreated⟩ := hinv.keys (jobKey jobId) job (hdoes.1.symm.trans hjob)
    exact ⟨(jobKey_injective hkey).symm, hcreated⟩
  · refine assume fun hfound => ?_
    cases found with
    | none => exact give (Entails.refl _)
    | some job =>
      obtain ⟨hid, hcreated⟩ := hfound job rfl
      refine andThen (S := fun _ => P) (ask Op.now (fun _ _ _ _ => trivial) ?_) fun now => ?_
      · exact fun s past now s' hinv hPs hdoes => hP Op.now trivial hinv trivial hdoes hPs
      · have hmay : ∀ s past, Consistent s → P.holds s past → May settings i s past
            (.writes [.hset (jobKey jobId) (job.withStatus status code message now)]) := by
          refine fun s past hinv hPs => ⟨fun command hc => ?_, fun key written hmem => .inr ?_,
            fun key jobId hmem => ?_⟩
          · rw [List.mem_singleton.mp hc]
            exact ⟨congrArg jobKey hid.symm, hcreated,
              fun hs => hid.symm ▸ hclassified hs s past hinv hPs⟩
          · rw [List.mem_singleton.mp hmem]
          · cases List.mem_singleton.mp hmem
        refine andThen (S := fun _ => P) (ask (Op.writes _) hmay ?_) fun _ => give (Entails.refl _)
        exact fun s past _ s' hinv hPs hdoes =>
          hP (Op.writes _) trivial hinv (hmay s past hinv hPs) hdoes hPs

/-! ## Transactions -/

def IsExecute : Op → Prop
  | .execute _ _ => True
  | _ => False

theorem executeAll_within (tx rest : List Write) :
    (executeAll tx rest).Within IsExecute fun all => all = tx ++ rest := by
  induction rest generalizing tx with
  | nil => exact .pure (by simp)
  | cons write rest ih =>
    refine .bind (φ := fun all => all = tx ++ [write]) ?_ fun all hall => ?_
    · exact .bind (.perform (Op.execute tx write) trivial) fun _ _ => .pure rfl
    · subst hall
      have := ih (tx ++ [write])
      rwa [List.append_assoc, List.singleton_append] at this

theorem unruled_of_isExecute {op : Op} (h : IsExecute op) : Unruled op := by
  cases op <;> trivial

theorem commit_outline {P : Assertion (discipline settings) i} {tx : List Write}
    (hmay : ∀ s past, P.holds s past → TxOk settings i past tx)
    {Q : Assertion (discipline settings) i}
    (hcall : ∀ s past now s', P.holds s past → Does i s (.commit tx) (.answered now) s' →
      Q.holds s' (⟨i, .commit tx, .answered now⟩ :: past)) :
    Triple (onOk fun _ => Q) P (commit tx) :=
  andThen (S := fun _ => Q) (ask (Op.commit tx) (fun s past _ hP => hmay s past hP)
    fun s past now s' _ hP hdoes => hcall s past now s' hP hdoes) fun _ => give (Entails.refl Q)

theorem markProcessing_outline (job : VideoJob) :
    Triple (onOk fun _ => .top) (.top : Assertion (discipline settings) i)
      (PostgresJobState.markProcessing job) := by
  have hexecute : ∀ tx write, Triple (onOk fun all => (.top : Assertion (discipline settings) i).and
      (.pure (all = tx ++ [write]))) .top (execute tx write) := fun tx write =>
    unruled (K := IsExecute) keeps_top (fun _ => unruled_of_isExecute)
      (.bind (.perform (Op.execute tx write) trivial) fun _ _ => .pure rfl)
  refine andThen (hexecute _ _) fun tx => assume ?_
  rintro rfl
  refine andThen (hexecute _ _) fun tx => assume ?_
  rintro rfl
  exact commit_outline (fun _ _ _ => .processing job) fun _ _ _ _ _ _ => trivial

theorem markFailed_outline (jobId errorCode errorMessage : String) (status : VideoJobStatus) :
    Triple (onOk fun _ => .top) (.top : Assertion (discipline settings) i)
      (PostgresJobState.markFailed jobId status errorCode errorMessage) := by
  rw [PostgresJobState.markFailed]
  split
  · exact fail
  · next hstatus =>
    refine andThen (unruled (K := IsExecute) (φ := fun tx => tx =
      [.markFailed jobId status errorCode errorMessage]) keeps_top (fun _ => unruled_of_isExecute)
      (.bind (.perform (Op.execute _ _) trivial) fun _ _ => .pure rfl)) fun tx => assume ?_
    rintro rfl
    refine commit_outline (fun _ _ _ => .failed jobId errorCode errorMessage ?_)
      fun _ _ _ _ _ _ => trivial
    by_contra hnot
    exact hstatus (not_or.mp hnot)

/-! ## The final transaction -/

def noMove (settings : Settings) (i : Caller) : Assertion (discipline settings) i :=
  Facts.noneInAttempt _ i fun e => e.op.isMove = true

def moved (settings : Settings) (i : Caller) (videoId : String) : Assertion (discipline settings) i :=
  Facts.inAttempt _ i (Moved videoId)

/-- What the answer of `move_if_required` says about the attempt. -/
def moveDone (settings : Settings) (i : Caller) (result : VideoModerationResult) :
    Option StorjMoveResponse → Assertion (discipline settings) i
  | none => (noMove settings i).and (.pure (result.moveRequired = false))
  | some _ => (moved settings i result.videoId).and (.pure (result.moveRequired = true))

theorem moveIfRequired_outline (result : VideoModerationResult) (publisherUserId : String) :
    Triple (onOk (moveDone settings i result)) (noMove settings i)
      (moveIfRequired settings result publisherUserId) := by
  rw [moveIfRequired]
  split
  · next hnot => exact give fun _ _ _ hP => ⟨hP, Bool.eq_false_of_not_eq_true hnot⟩
  · next hrequired =>
    refine andThen (S := fun _ => moved settings i result.videoId) ?_ fun response =>
      give fun _ _ _ hP => ⟨hP, not_not.mp hrequired⟩
    rw [moveToNsfw]
    split
    · exact fail
    · refine ask (Op.postMove publisherUserId result.videoId) (fun _ _ _ _ => trivial) ?_
      intro s past response s' _ _ _
      refine ⟨⟨i, .postMove _ _, .answered response⟩, ?_, publisherUserId, rfl, trivial⟩
      rw [attemptOf_own rfl]
      exact List.mem_cons_self

/-- Everything is known that the final transaction needs. -/
def finalWrites (settings : Settings) (i : Caller) (job : VideoJob) (result : VideoModerationResult)
    (action : Option StorageAction) : Assertion (discipline settings) i where
  holds _ past := FinalWrites settings i past job result action
  stable hj _ _ _ h := by
    obtain ⟨hjob, hvideo, hmoved, hunmoved, hrequired, haction⟩ := h
    exact ⟨hjob, hvideo, by rwa [attemptOf_other hj], by rwa [attemptOf_other hj], hrequired, haction⟩

/-- Calls that tell nothing about the attempt. -/
def Silent (op : Op) : Prop := op.isPrepare = false ∧ op.isMove = false

theorem keeps_noMove {K : Op → Prop} (hK : ∀ op, K op → Silent op) : (noMove settings i).Keeps K :=
  Facts.keeps_noneInAttempt (fun op h => (hK op h).1) fun e h => by simp [(hK e.op h).2]

theorem keeps_moved {K : Op → Prop} {videoId : String} (hK : ∀ op, K op → Silent op) :
    (moved settings i videoId).Keeps K :=
  Facts.keeps_inAttempt fun op h => (hK op h).1

theorem keeps_finalWrites {K : Op → Prop} {job : VideoJob} {result : VideoModerationResult}
    {action : Option StorageAction} (hK : ∀ op, K op → Silent op) :
    (finalWrites settings i job result action).Keeps K := by
  intro op hop s past o s' _ _ _ h
  have hsilent := hK op hop
  refine ⟨h.jobId, h.videoId, fun hmove => ?_, fun hmove => ?_, h.required, h.action⟩
  · rw [attemptOf_own hsilent.1]
    obtain ⟨e, he, hp⟩ := h.moved hmove
    exact ⟨e, List.mem_cons_of_mem _ he, hp⟩
  · rw [attemptOf_own hsilent.1]
    intro e he
    rcases List.mem_cons.mp he with rfl | he
    · simp [hsilent.2]
    · exact h.unmoved hmove e he

def Fresh : Op → Prop
  | .now | .uuid4 => True
  | _ => False

theorem silent_of_fresh {op : Op} (h : Fresh op) : Silent op := by
  cases op <;> first | exact h.elim | exact ⟨rfl, rfl⟩

theorem unruled_of_fresh {op : Op} (h : Fresh op) : Unruled op := by
  cases op <;> trivial

theorem storageAction_outline {job : VideoJob} {result : VideoModerationResult}
    (hjob : result.jobId = job.jobId) (hvideo : result.videoId = job.videoId)
    (response : Option StorjMoveResponse) :
    Triple (onOk (finalWrites settings i job result)) (moveDone settings i result response)
      (storageAction settings job result response) := by
  cases response with
  | none =>
    refine give fun s past _ hP => ?_
    obtain ⟨hnone, hnot⟩ := hP
    have hunmoved : result.moveRequired = true → ∃ e ∈ attemptOf i past, Moved result.videoId e :=
      fun h => by simp [show result.moveRequired = false from hnot] at h
    exact ⟨hjob, hvideo, hunmoved, fun _ => hnone, hnot.symm, fun _ h => by cases h⟩
  | some response =>
    have hkeeps : (moveDone settings i result (some response)).Keeps Fresh :=
      .and (keeps_moved fun _ => silent_of_fresh) (keeps_pure _)
    refine andThen (unruled hkeeps (fun _ => unruled_of_fresh) (.perform Op.now trivial)) fun now => ?_
    refine assume fun _ => andThen (S := fun uuid => (moveDone settings i result
      (some response)).and (.pure (':' ∉ uuid.toList))) ?_ fun uuid => assume fun huuid => ?_
    · refine ask Op.uuid4 (fun _ _ _ _ => trivial) fun s past uuid s' hinv hP hdoes => ?_
      exact ⟨hkeeps Op.uuid4 trivial hinv trivial hdoes hP, hdoes.1⟩
    · refine give fun s past _ hP => ?_
      obtain ⟨hmoved, hyes⟩ := hP
      have hnot : result.moveRequired = false → ∀ e ∈ attemptOf i past, ¬ e.op.isMove = true :=
        fun h => by simp [show result.moveRequired = true from hyes] at h
      refine ⟨hjob, hvideo, fun _ => hmoved, hnot, hyes.symm, ?_⟩
      rintro a ⟨⟩
      exact ⟨response, uuid, now, rfl, huuid⟩

def committed (settings : Settings) (i : Caller) (job : VideoJob) (frames : List FrameModerationResult)
    (result : VideoModerationResult) (action : Option StorageAction) :
    Assertion (discipline settings) i :=
  (Facts.inAttempt _ i (Committed (finalTx settings job frames result action))).and
    (rowIn settings i (videoResultToRow result))

theorem silent_of_isExecute {op : Op} (h : IsExecute op) : Silent op := by
  cases op <;> first | exact h.elim | exact ⟨rfl, rfl⟩

theorem finalTransaction_outline {job : VideoJob} {frames : List FrameModerationResult}
    {result : VideoModerationResult} {action : Option StorageAction} :
    Triple (onOk fun _ => committed settings i job frames result action)
      (finalWrites settings i job result action)
      (finalTransaction settings job frames result action) := by
  refine andThen (unruled (keeps_finalWrites fun _ => silent_of_isExecute)
    (fun _ => unruled_of_isExecute) (executeAll_within _ _)) fun tx => assume ?_
  rintro rfl
  refine commit_outline (fun s past hP => .final frames hP) fun s past now s' _ hdoes => ⟨?_, ?_⟩
  · refine ⟨⟨i, .commit _, .answered now⟩, ?_, rfl, trivial⟩
    rw [attemptOf_own rfl]
    exact List.mem_cons_self
  · obtain ⟨db, hdb, rfl⟩ := hdoes
    exact ((finalTx_rows hdb).1 _).mpr (.inr rfl)

/-! ## Publication -/

def PublishOp : Op → Prop
  | .now | .writes _ => True
  | _ => False

theorem keeps_committed {job : VideoJob} {frames : List FrameModerationResult}
    {result : VideoModerationResult} {action : Option StorageAction} :
    (committed settings i job frames result action).Keeps PublishOp := by
  refine .and (Facts.keeps_inAttempt fun op h => ?_) keeps_rowIn
  cases op <;> first | exact h.elim | rfl

theorem statusAlone_singleton (command : Command) : StatusAlone [command] := fun _ _ hmem => by
  rw [List.mem_singleton.mp hmem]
  exact .inr rfl

theorem publish_outline {P : Assertion (discipline settings) i} {command : Command}
    (hset : ∀ key jobId, command ≠ .set key jobId) (hP : P.Keeps PublishOp)
    (hmay : ∀ s past, Consistent s → P.holds s past → CommandOk settings i s past command) :
    Triple (onOk fun _ => P) P (await (.writes [command])) := by
  have hmay' : ∀ s past, Consistent s → P.holds s past →
      May settings i s past (.writes [command]) := fun s past hinv hPs =>
    ⟨fun c hc => List.mem_singleton.mp hc ▸ hmay s past hinv hPs, statusAlone_singleton command,
      fun key jobId hmem => absurd (List.mem_singleton.mp hmem).symm (hset key jobId)⟩
  refine ask (Op.writes [command]) hmay' fun s past _ s' hinv hPs hdoes => ?_
  exact hP (Op.writes [command]) trivial hinv (hmay' s past hinv hPs) hdoes hPs

section

variable {job : VideoJob} {metadata : VideoMetadata} {frames : List FrameModerationResult}
  {result : VideoModerationResult} {action : Option StorageAction}
  {P : Assertion (discipline settings) i}

/-- Whoever knows of the commit may publish what follows from it. -/
theorem justified_of_committed (hP : Entails P (committed settings i job frames result action))
    {command : Command} (hd : Derived settings job frames result action command) (s : World)
    (past : Past) (hinv : Consistent s) (h : P.holds s past) : Justified settings i past command :=
  ⟨job, frames, result, action, (hP s past hinv h).1, hd⟩

theorem now_outline (hP : P.Keeps PublishOp) : Triple (onOk fun _ => P) P (await .now) :=
  ask Op.now (fun _ _ _ _ => trivial) fun _ _ _ _ hinv hPs hdoes =>
    hP Op.now trivial hinv trivial hdoes hPs

theorem pushStorageAction_outline (hP : P.Keeps PublishOp)
    (hcommitted : Entails P (committed settings i job frames result action)) :
    Triple (onOk fun _ => P) P (pushStorageAction settings action) := by
  cases action with
  | none => exact give (Entails.refl _)
  | some a =>
    refine andThen (now_outline hP) fun now => ?_
    exact publish_outline nofun hP (justified_of_committed hcommitted (.storageAction rfl now))

theorem publishAfterCommit_outline (hjob : result.jobId = job.jobId) :
    Triple (onOk fun _ => hasResult settings i job.jobId)
      (committed settings i job frames result action)
      (publishAfterCommit settings job metadata frames result action) := by
  have hkeeps : (committed settings i job frames result action).Keeps PublishOp := keeps_committed
  have hjustified : ∀ {command : Command}, Derived settings job frames result action command →
      ∀ s past, Consistent s → (committed settings i job frames result action).holds s past →
        Justified settings i past command := justified_of_committed (Entails.refl _)
  refine andThen (now_outline hkeeps) fun now => ?_
  refine andThen (publish_outline nofun hkeeps (hjustified (.videoResult metadata now))) fun _ => ?_
  refine andThen (publish_outline nofun hkeeps (hjustified .legacy)) fun _ => ?_
  refine andThen (pushStorageAction_outline hkeeps (Entails.refl _)) fun _ => ?_
  refine strengthen (fun r => ?_) (publish_outline nofun hkeeps (hjustified .runtime))
  cases r with
  | error => exact entails_top _
  | ok _ => exact fun s past _ h => ⟨videoResultToRow result, h.2, hjob⟩

theorem finalizeClassification_outline (hjob : result.jobId = job.jobId)
    (hvideo : result.videoId = job.videoId) :
    Triple (onOk fun _ => hasResult settings i job.jobId) (noMove settings i)
      (finalizeClassification settings job metadata frames result) := by
  refine andThen (moveIfRequired_outline result job.publisherUserId) fun response => ?_
  refine andThen (storageAction_outline hjob hvideo response) fun action => ?_
  refine andThen finalTransaction_outline fun _ => ?_
  exact andThen (publishAfterCommit_outline hjob) fun _ => give (Entails.refl _)

end

/-! ## One attempt -/

theorem silent_of_local {op : Op} (h : op.Local) : Silent op :=
  ⟨not_prepare_of_local h, not_move_of_local h⟩

theorem processVideo_outline (job : VideoJob) :
    Triple (onOk fun _ => .top) (.top : Assertion (discipline settings) i)
      (processVideo settings job) := by
  refine andThen (S := fun _ => noMove settings i) (ask (Op.prepareJobDir job.jobId)
    (fun _ _ _ _ => trivial) fun s past _ s' _ _ _ e he => ?_) fun _ => ?_
  · rw [attemptOf_prepare rfl] at he
    cases he
  · refine tryFinally (R := onOk fun _ => .top) ?_ fun r => ?_
    · refine andThen (unruled (keeps_noMove fun _ => silent_of_local) (fun _ => unruled_of_local)
        (classify_within settings job)) fun v => assume fun hv => ?_
      refine andThen (finalizeClassification_outline hv.jobId hv.videoId) fun _ => ?_
      exact andThen (updateStatus_outline keeps_hasResult fun _ => Entails.refl _) fun _ =>
        give (entails_top _)
    · refine (unruled (K := fun op => op = .cleanupDir job.jobId) (φ := fun _ => True) keeps_top
        (fun op h => h ▸ trivial) (.perform _ rfl)).strengthen (fun r' => ?_) |>.weaken (entails_top _)
      cases r <;> cases r' <;> exact entails_top _

theorem free_outline {α : Type} {p : Code α} (hp : p.Within Unruled fun _ => True) :
    Triple (onOk fun _ => .top) (.top : Assertion (discipline settings) i) p := by
  refine (unruled keeps_top (fun _ h => h) hp).strengthen fun r => ?_
  cases r <;> exact entails_top _

theorem readWithPoolRetry_within {α : Type} {K : Op → Prop} {φ : α → Prop} {p : Code α}
    (hp : p.Within K φ) : (readWithPoolRetry settings p).Within K φ := by
  unfold readWithPoolRetry
  induction List.range' 1 (poolMaxAttempts settings) with
  | nil => exact .throw
  | cons attempt rest ih =>
    refine .tryCatch hp fun exc => ?_
    cases exc with
    | maxConnectionsError text =>
      simp only
      split
      · exact .throw
      · split
        · exact .throw
        · exact ih
    | _ => exact .throw

theorem getStatusByJobId_within (jobId : String) :
    ((RedisQueue.service settings).getStatusByJobId jobId).Within Unruled fun _ => True :=
  readWithPoolRetry_within (.perform (Op.hgetall (jobKey jobId)) trivial)

theorem attempt_outline (job : VideoJob) :
    Triple (onOk fun _ => .top) (.top : Assertion (discipline settings) i)
      ((processor settings).attempt job) := by
  refine tryCatch (R := onOk fun _ => .top) ?_ (fun _ => Entails.refl _) fun exc => ?_
  · exact andThen (markProcessing_outline job) fun _ => processVideo_outline job
  · refine andThen (updateStatus_outline keeps_top fun hstatus => ?_) fun _ => ?_
    · simp only [classifyProcessingError] at hstatus
      split at hstatus <;> cases hstatus
    · exact andThen (markFailed_outline _ _ _ _) fun _ => fail

/-- What the query of the job row leaves behind. -/
def queried (settings : Settings) (i : Caller) (jobId : String) (persisted : Option VideoJob) :
    Assertion (discipline settings) i :=
  if persisted.map (·.status) = some .classified then hasResult settings i jobId else .top

theorem queryJob_outline (jobId : String) :
    Triple (onOk (queried settings i jobId)) .top (await (.selectJob jobId)) := by
  refine ask (Op.selectJob jobId) (fun _ _ _ _ => trivial) fun s past persisted s' hinv _ hdoes => ?_
  rw [queried]
  split
  · next hclassified =>
    obtain ⟨row, rfl, hstatus⟩ := Option.map_eq_some_iff.mp hclassified
    obtain ⟨hrow, rfl⟩ := hdoes
    exact hinv.jobs jobId row hrow.symm hstatus
  · trivial

theorem process_outline (job : VideoJob) :
    Triple (onOk fun _ => .top) (.top : Assertion (discipline settings) i)
      ((processor settings).process job) := by
  refine andThen (free_outline (getStatusByJobId_within job.jobId)) fun current => ?_
  simp only
  split
  · exact give (entails_top _)
  · refine andThen (queryJob_outline job.jobId) fun persisted => ?_
    split
    · next hclassified =>
      rw [queried, if_pos hclassified]
      exact andThen (updateStatus_outline keeps_hasResult fun _ => Entails.refl _) fun _ =>
        give (entails_top _)
    · refine weaken (entails_top _) (andThen (updateStatus_outline keeps_top fun h => by cases h)
        fun updated => attempt_outline _)

/-! ## The worker -/

theorem unruled_handOver {message : QueuedVideoJobMessage} {code text : String} :
    ((RedisQueue.service settings).moveVideoJobMessageToDlq message code text).Within Unruled
      fun _ => True := by
  refine .bind (.perform (Op.writes _) fun c hc => ?_) fun _ _ => .perform (Op.writes _) fun c hc => ?_
  all_goals rw [List.mem_singleton.mp hc]; trivial

theorem unruled_ack (messageId : Nat) :
    ((RedisQueue.service settings).ackVideoJobMessage messageId).Within Unruled fun _ => True :=
  .perform (Op.writes _) fun c hc => by rw [List.mem_singleton.mp hc]; trivial

theorem unruled_requeue (jobId : String) :
    ((RedisQueue.service settings).requeueVideoJob jobId).Within Unruled fun _ => True := by
  refine .bind (.perform (Op.hgetall _) trivial) fun found _ => ?_
  cases found with
  | none => exact .pure trivial
  | some job => exact .perform (Op.writes _) fun c hc => by rw [List.mem_singleton.mp hc]; trivial

theorem handleMessage_outline (message : QueuedVideoJobMessage) :
    Triple (onOk fun _ => .top) (.top : Assertion (discipline settings) i)
      ((worker settings).handleMessage message) := by
  rw [VideoQueueWorker.handleMessage]
  split
  · exact free_outline unruled_handOver
  · refine andThen (free_outline (getStatusByJobId_within message.jobId)) fun found => ?_
    cases found with
    | none => exact free_outline unruled_handOver
    | some job =>
      refine andThen (S := fun _ => .top) ?_ fun failure => ?_
      · refine tryCatch (R := onOk fun _ => .top) (andThen (process_outline job) fun _ =>
          give (entails_top _)) (fun _ => Entails.refl _) fun exc => ?_
        cases exc with
        | videoJobProcessingError failure => exact give (entails_top _)
        | _ => exact fail
      · cases failure with
        | none => exact free_outline (unruled_ack _)
        | some failure =>
          simp only [VideoQueueWorker.settle]
          split
          · exact free_outline (.bind (unruled_requeue job.jobId) fun _ _ => unruled_ack _)
          · exact free_outline unruled_handOver

theorem handleMessages_outline (messages : List QueuedVideoJobMessage) :
    Triple (onOk fun _ => .top) (.top : Assertion (discipline settings) i)
      (messages.forM (worker settings).handleMessage) := by
  induction messages with
  | nil => exact give (entails_top _)
  | cons message rest ih =>
    exact andThen (handleMessage_outline message) fun _ => ih

theorem rounds_outline (n : Nat) :
    Triple (onOk fun _ => .top) (.top : Assertion (discipline settings) i)
      ((worker settings).rounds n) := by
  induction n with
  | zero => exact give (entails_top _)
  | succ n ih =>
    refine andThen (S := fun _ => .top) ?_ fun _ => ih
    refine andThen (free_outline (.perform (Op.xreadgroup _) trivial)) fun messages => ?_
    exact andThen (handleMessages_outline messages) fun _ => give (entails_top _)

theorem ensureConsumerGroup_within :
    ((RedisQueue.service settings).ensureConsumerGroup).Within Unruled fun _ => True := by
  refine .tryCatch (.perform Op.xgroupCreate trivial) fun exc => ?_
  split
  · exact .pure trivial
  · exact .throw

theorem runForever_outline (n : Nat) :
    Triple (onOk fun _ => .top) (.top : Assertion (discipline settings) i)
      ((worker settings).runForever n) :=
  andThen (free_outline ensureConsumerGroup_within) fun _ => rounds_outline n

/-! ## The API -/

theorem alreadyThere_within (existing : VideoJob) :
    (RedisQueue.alreadyThere existing).Within Unruled fun _ => True :=
  .bind (.perform (Op.writes _) fun c hc => by rw [List.mem_singleton.mp hc]; trivial)
    fun _ _ => .pure trivial

def jobStored (settings : Settings) (i : Caller) (jobId : String) :
    Assertion (discipline settings) i where
  holds s _ := s.kv.hashes (jobKey jobId) ≠ none
  stable _ _ _ hdoes h := Does.hash_stays hdoes h

/-- A new job is queued, so its hash asks for no result. -/
theorem storeWrites_outline {P : Assertion (discipline settings) i} (request : VideoDetectRequest)
    (now : Time) {commands : List Command}
    (hcommands : ∀ c ∈ commands, c = .hset (jobKey request.jobId) (request.job now) ∨ Free c ∨
      ∃ key, c = .set key request.jobId)
    (hstored : (.hset (jobKey request.jobId) (request.job now) ∈ commands) ∨
      Entails P (jobStored settings i request.jobId)) :
    Triple (onOk fun _ => jobStored settings i request.jobId) P (await (.writes commands)) := by
  have hset : ∀ s, HsetOk s (jobKey request.jobId) (request.job now) :=
    fun s => ⟨rfl, by simp [VideoDetectRequest.job], nofun⟩
  refine ask (Op.writes commands) (fun s past hinv hP => ⟨fun c hc => ?_, fun key job hmem => ?_,
    fun key jobId hmem => ?_⟩) fun s past _ s' hinv hP hdoes => ?_
  · rcases hcommands c hc with rfl | hfree | ⟨key, rfl⟩
    · exact hset s
    · cases c <;> trivial
    · trivial
  · rcases hcommands _ hmem with heq | hfree | ⟨_, heq⟩
    · cases heq
      exact .inl rfl
    · exact hfree.elim
    · cases heq
  · rcases hcommands _ hmem with heq | hfree | ⟨_, heq⟩
    · cases heq
    · exact hfree.elim
    · cases heq
      exact ⟨request.jobId_ne, hstored.symm.imp (fun h => h s past hinv hP) fun h => ⟨_, h⟩⟩
  · have hdoes : Does i s (.writes commands) (.answered ()) s' := hdoes
    rcases hstored with hmem | hthere
    · exact Does.hash_there hdoes trivial hmem
    · exact Does.hash_stays hdoes (hthere s past hinv hP)

theorem storeNewJob_outline (request : VideoDetectRequest) :
    Triple (onOk fun _ => .top) (.top : Assertion (discipline settings) i)
      (RedisQueue.storeNewJob settings request) := by
  refine andThen (free_outline (.perform Op.now trivial)) fun now => ?_
  have hid : (request.job now).jobId = request.jobId := rfl
  simp only
  split
  · refine andThen (storeWrites_outline request now (by simp) (.inl (by simp))) fun _ => ?_
    refine andThen (storeWrites_outline request now (by simp [hid]) (.inr (Entails.refl _))) fun _ => ?_
    refine andThen (storeWrites_outline request now (by simp [hid]) (.inr (Entails.refl _))) fun _ => ?_
    refine andThen (storeWrites_outline request now (by simp [Free]) (.inr (Entails.refl _))) fun _ => ?_
    exact give (entails_top _)
  · exact andThen (storeWrites_outline request now (by simp [Free, hid]) (.inl (by simp))) fun _ =>
      give (entails_top _)

theorem enqueue_outline (request : VideoDetectRequest) :
    Triple (onOk fun _ => .top) (.top : Assertion (discipline settings) i)
      ((RedisQueue.service settings).enqueueVideoDetection request) := by
  refine andThen (free_outline (.perform (Op.hgetall _) trivial)) fun found => ?_
  cases found with
  | some existing => exact free_outline (alreadyThere_within existing)
  | none =>
    refine andThen (free_outline (.perform (Op.get _) trivial)) fun known => ?_
    split
    · refine andThen (free_outline (.perform (Op.hgetall _) trivial)) fun found => ?_
      cases found with
      | some existing => exact free_outline (alreadyThere_within existing)
      | none => exact storeNewJob_outline request
    · exact storeNewJob_outline request

/-! ## Readers -/

/-- A `CLASSIFIED` response carries the result of its job. -/
def Truthful (s : World) (response : VideoStatusResponse) : Prop :=
  response.status = .classified → ∃ row ∈ s.db.results, row.jobId = response.jobId ∧
    response.finalResult = some (finalResultResponse (rowToVideoResult row))

def truthful (settings : Settings) (i : Caller) (response : Option VideoStatusResponse) :
    Assertion (discipline settings) i where
  holds s _ := ∀ r, response = some r → Truthful s r
  stable _ _ _ hdoes h r hr hstatus := by
    obtain ⟨row, hrow, hrest⟩ := h r hr hstatus
    exact ⟨row, Does.results hdoes hrow, hrest⟩

def readJob (settings : Settings) (i : Caller) : Option VideoJob → Assertion (discipline settings) i
  | some job => if job.status = .classified then hasResult settings i job.jobId else .top
  | none => .top

theorem getJobById_outline (jobId : String) :
    Triple (onOk (readJob settings i)) .top (RedisQueue.getJobById jobId) := by
  refine ask (Op.hgetall (jobKey jobId)) (fun _ _ _ _ => trivial) fun s past found s' hinv _ hdoes => ?_
  obtain ⟨hfound, rfl⟩ := hdoes
  cases found with
  | none => trivial
  | some job =>
    simp only [readJob]
    split
    · next hstatus => exact hinv.queue _ job hfound.symm hstatus
    · trivial

theorem getJobByVideoId_outline (videoId : String) :
    Triple (onOk (readJob settings i)) .top (RedisQueue.getJobByVideoId videoId) := by
  refine andThen (free_outline (.perform (Op.get _) trivial)) fun jobId => ?_
  cases jobId with
  | none => exact give (entails_top _)
  | some jobId =>
    simp only
    split
    · exact give (entails_top _)
    · exact getJobById_outline jobId

theorem readWithPoolRetry_outline {α σ : Type} {D : Discipline Caller σ Ans PyException}
    {i : Caller} {P : Assertion D i} {E : PyException → Assertion D i} {S : α → Assertion D i} {p : Code α}
    (hagain : ∀ exc, Entails (E exc) P)
    (hexit : Entails P (E (.runtimeError "queue pool retry loop exited unexpectedly")))
    (hoverflow : Entails P (E overflowError)) (hp : Triple (ends E S) P p) :
    Triple (ends E S) P (readWithPoolRetry settings p) := by
  unfold readWithPoolRetry
  induction List.range' 1 (poolMaxAttempts settings) with
  | nil => exact .throw hexit
  | cons attempt rest ih =>
    refine tryCatch (R := ends E S) hp (fun _ => Entails.refl _) fun exc => ?_
    cases exc with
    | maxConnectionsError text =>
      simp only
      split
      · exact .throw (Entails.refl _)
      · split
        · next hdelay =>
          rw [poolRetryDelay_error hdelay]
          exact .throw ((hagain _).trans hoverflow)
        · exact ih.weaken (hagain _)
    | _ => exact .throw (Entails.refl _)

def isResultOf (settings : Settings) (i : Caller) (jobId : String)
    (result : Option VideoModerationResult) : Assertion (discipline settings) i where
  holds s _ := ∃ row ∈ s.db.results, row.jobId = jobId ∧ result = some (rowToVideoResult row)
  stable _ _ _ hdoes h := by
    obtain ⟨row, hrow, hrest⟩ := h
    exact ⟨row, Does.results hdoes hrow, hrest⟩

/-- A classified job has a result row, so the query finds it. -/
theorem resultByJobId_outline (jobId : String) :
    Triple (onOk (isResultOf settings i jobId)) (hasResult settings i jobId)
      (VideoStatusService.resultByJobId jobId) := by
  refine andThen (S := fun row => isResultOf settings i jobId (row.map rowToVideoResult))
    (ask (Op.selectResult jobId) (fun _ _ _ _ => trivial) fun s past found s' _ hres hdoes => ?_)
    fun row => give (Entails.refl _)
  obtain ⟨hfound, rfl⟩ := hdoes
  obtain ⟨row, hrow, hid⟩ := hres
  cases hfind : s'.db.result? jobId with
  | none =>
    have hnone := List.find?_eq_none.mp hfind row hrow
    simp [hid] at hnone
  | some other =>
    have hother : other.jobId = jobId := by simpa using List.find?_some hfind
    exact ⟨other, List.mem_of_find?_eq_some hfind, hother, by rw [hfound, hfind]; rfl⟩

theorem classifiedStatusFromResult_outline (videoId : String) :
    Triple (onOk (truthful settings i)) .top
      (VideoStatusService.classifiedStatusFromResult videoId) := by
  refine andThen (S := fun result => ⟨fun s _ => ∀ r, result = some r → ∃ row ∈ s.db.results,
    r = rowToVideoResult row, fun _ _ _ hdoes h r hr => ?_⟩) (andThen (S := fun found =>
      ⟨fun s _ => ∀ row, found = some row → row ∈ s.db.results, fun _ _ _ hdoes h row hrow =>
        Does.results hdoes (h row hrow)⟩) (ask (Op.selectLatestResult videoId)
      (fun _ _ _ _ => trivial) fun s past found s' _ _ hdoes => ?_) fun found => give ?_)
    fun result => give ?_
  · obtain ⟨row, hrow, hrest⟩ := h r hr
    exact ⟨row, Does.results hdoes hrow, hrest⟩
  · rintro row rfl
    obtain ⟨hlatest, rfl⟩ := hdoes
    exact hlatest.1
  · intro s past _ h r hr
    obtain ⟨row, rfl, rfl⟩ := Option.map_eq_some_iff.mp hr
    exact ⟨row, h row rfl, rfl⟩
  · intro s past _ h response hresponse _
    obtain ⟨r, rfl, rfl⟩ := Option.map_eq_some_iff.mp hresponse
    obtain ⟨row, hrow, rfl⟩ := h r rfl
    exact ⟨row, hrow, rfl, rfl⟩

theorem getStatusByVideoId_outline (videoId : String) :
    Triple (onOk (truthful settings i)) .top
      (VideoStatusService.getStatusByVideoId settings videoId) := by
  refine andThen (readWithPoolRetry_outline (fun _ => Entails.refl _) (Entails.refl _) (Entails.refl _)
    (getJobByVideoId_outline videoId)) fun found => ?_
  cases found with
  | none => exact classifiedStatusFromResult_outline videoId
  | some job =>
    by_cases hstatus : job.status = .classified
    · simp only [readJob, if_pos hstatus]
      refine andThen (resultByJobId_outline job.jobId) fun result => give ?_
      rintro s past - ⟨row, hrow, hid, rfl⟩ response ⟨⟩ -
      exact ⟨row, hrow, hid, rfl⟩
    · simp only [readJob, if_neg hstatus]
      refine andThen (S := fun _ => .top) (give (entails_top _)) fun result => give ?_
      rintro s past - - response ⟨⟩ hclassified
      exact absurd hclassified hstatus

/-! ## Every caller -/

/-- What a caller that ended knows: a reader has a truthful response. -/
def replied (settings : Settings) (i : Caller) : Reply → Assertion (discipline settings) i
  | .status response => truthful settings i response
  | _ => .top

theorem starts_outline (settings : Settings) (i : Caller) (p : Code Reply) (h : Starts settings i p) :
    Triple (onOk (replied settings i)) ((discipline settings).fresh i) p := by
  refine weaken (entails_top _) ?_
  cases i with
  | worker nr =>
    obtain ⟨rounds, rfl⟩ := h
    exact andThen (runForever_outline rounds) fun _ => give (Entails.refl _)
  | api nr =>
    obtain ⟨request, rfl⟩ := h
    exact andThen (enqueue_outline request) fun _ => give (Entails.refl _)
  | reader nr =>
    obtain ⟨videoId, rfl⟩ := h
    exact andThen (getStatusByVideoId_outline videoId) fun _ => give (Entails.refl _)
  | attempt nr =>
    obtain ⟨job, rfl⟩ := h
    exact andThen (process_outline job) fun _ => give (Entails.refl _)

variable {cond : StepCond Caller World Ans PyException Reply} {c c' : Moment}

/-- In every run the stores are consistent and every caller is where its outline says. -/
theorem sound (h : ReachVia (Starts settings) Does cond {} c) :
    (discipline settings).Sound (fun i => onOk (replied settings i)) c :=
  Discipline.sound (D := discipline settings) (starts_outline settings) consistent_empty h

theorem consistent (h : ReachVia (Starts settings) Does cond {} c) : Consistent c.state := (sound h).1

theorem permitted (h : ReachVia (Starts settings) Does cond {} c) {e : Call}
    (hs : Step (Starts settings) Does c (.call e) c') :
    May settings e.caller c.state c.history e.op ∧ Does e.caller c.state e.op e.outcome c'.state ∧
      c'.history = e :: c.history :=
  (sound h).permitted hs

theorem always {R : World → Past → Prop} (hinit : R {} [])
    (hstep : ∀ {s : World} {past : Past} {i : Caller} {op : Op} {o : Outcome PyException (Ans op)}
      {s' : World}, Consistent s → May settings i s past op → Does i s op o s' → R s past →
        R s' (⟨i, op, o⟩ :: past))
    (h : ReachVia (Starts settings) Does cond {} c) : R c.state c.history :=
  Discipline.always (D := discipline settings) (Q := fun i => onOk (replied settings i))
    (starts_outline settings) consistent_empty hinit hstep h

end NsfwDetector.Publication
