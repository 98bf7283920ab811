import NsfwDetector.System.Finality
import NsfwDetector.System.Guarantees

/-!
# A classified job is out

The shortcut for a classified job publishes nothing. So it relies on the attempt that committed the
result: its publication must not fail, and nobody may take the shortcut before it is through.
-/

namespace NsfwDetector.Publication

open Effects Effects.Assertion Triple

/-- What the queue calls classified has been published in full. -/
def ClassifiedIsPublished (settings : Settings) (c : Moment) : Prop :=
  ∀ jobId, queueStatus c.state jobId = some .classified →
    JobPublished settings c.state c.history jobId

/-! ## The condition -/

def isSetRuntime : Command → Bool
  | .setRuntime _ _ => true
  | _ => false

def setsRuntime : Call → Bool := carriedOut isSetRuntime

/-- Caller `i` has committed the result of the job, and has written no runtime key since. -/
def Pending (i : Caller) (jobId : String) (past : Past) : Prop :=
  ∃ e ∈ since setsRuntime i past, jobId ∈ brought e

/-- Caller `i` has committed a result, and has written no runtime key since. -/
def MidPublication (i : Caller) (past : Past) : Prop :=
  ∃ e ∈ since setsRuntime i past, brought e ≠ []

instance (i : Caller) (jobId : String) (past : Past) : Decidable (Pending i jobId past) :=
  inferInstanceAs (Decidable (∃ e ∈ _, _))

instance (i : Caller) (past : Past) : Decidable (MidPublication i past) :=
  inferInstanceAs (Decidable (∃ e ∈ _, _))

/-- Publication follows the commit without a failure, and unseen by other attempts. -/
structure Unbroken (past : Past) (e : Call) : Prop where
  /-- From the commit of a result to the write of its runtime key no call fails. -/
  answered : MidPublication e.caller (e :: past) → e.outcome.Answered
  /-- Nobody reads the row of a job whose result is being published. -/
  apart : ∀ jobId ∈ readBy e.caller e, ∀ f ∈ past, ¬ Pending f.caller jobId past

instance (past : Past) (e : Call) : Decidable (Unbroken past e) :=
  decidable_of_iff ((MidPublication e.caller (e :: past) → e.outcome.Answered) ∧
    ∀ jobId ∈ readBy e.caller e, ∀ f ∈ past, ¬ Pending f.caller jobId past)
    ⟨fun h => ⟨h.1, h.2⟩, fun h => ⟨h.answered, h.apart⟩⟩

section

variable {i j : Caller} {jobId : String} {past : Past} {op : Op} {o : Outcome PyException (Ans op)}

theorem pending_mid (h : Pending i jobId past) : MidPublication i past := by
  obtain ⟨e, he, hid⟩ := h
  exact ⟨e, he, List.ne_nil_of_mem hid⟩

theorem pending_other (hji : j ≠ i) : Pending i jobId (⟨j, op, o⟩ :: past) ↔ Pending i jobId past := by
  rw [Pending, since_other hji, Pending]

theorem mid_other (hji : j ≠ i) : MidPublication i (⟨j, op, o⟩ :: past) ↔ MidPublication i past := by
  rw [MidPublication, since_other hji, MidPublication]

theorem pending_own (h : setsRuntime ⟨i, op, o⟩ = false) :
    Pending i jobId (⟨i, op, o⟩ :: past) ↔ jobId ∈ brought ⟨i, op, o⟩ ∨ Pending i jobId past := by
  simp [Pending, since_own h]

theorem mid_own (h : setsRuntime ⟨i, op, o⟩ = false) :
    MidPublication i (⟨i, op, o⟩ :: past) ↔ brought ⟨i, op, o⟩ ≠ [] ∨ MidPublication i past := by
  simp [MidPublication, since_own h]

theorem not_mid_of_setsRuntime (h : setsRuntime ⟨i, op, o⟩ = true) :
    ¬ MidPublication i (⟨i, op, o⟩ :: past) := by
  simp [MidPublication, since_stop h]

theorem caller_of_mem_since {stop : Call → Bool} {e : Call} (h : e ∈ since stop i past) :
    e ∈ past ∧ e.caller = i := by
  have hmem := (List.takeWhile_sublist _).subset h
  exact ⟨(List.mem_filter.mp hmem).1, of_decide_eq_true (List.mem_filter.mp hmem).2⟩

theorem brought_of_brings_nil (h : brings op = []) : brought ⟨i, op, o⟩ = [] := by
  simp [brought, h]

theorem setsRuntime_of_aside (h : Aside op) : setsRuntime ⟨i, op, o⟩ = false := by
  cases op with
  | writes commands =>
    refine decide_eq_false ?_
    rintro ⟨-, hany⟩
    obtain ⟨command, hmem, hkind⟩ := List.any_eq_true.mp hany
    have hmild := h command hmem
    cases command <;> first | exact hmild | cases hkind
  | _ => rfl

theorem JobPublished.step {settings : Settings} {s s' : World} (hdoes : Does i s op o s')
    (h : JobPublished settings s past jobId) :
    JobPublished settings s' (⟨i, op, o⟩ :: past) jobId := by
  obtain ⟨row, hrow, hid, hpub⟩ := h
  exact ⟨row, hdoes.results hrow, hid, hpub.mono (List.subset_cons_self _ _)⟩

theorem brings_of_aside (h : Aside op) : brings op = [] := by
  cases op <;> first | rfl | exact h.elim

end

namespace Completion

/-! ## What stays true -/

def written : Op → List Command
  | .writes commands => commands
  | _ => []

/-- What a caller knows when it writes a runtime key and when it classifies a job. -/
structure MayPublish (settings : Settings) (i : Caller) (s : World) (past : Past) (op : Op) : Prop where
  runtime : ∀ o : Outcome PyException (Ans op), setsRuntime ⟨i, op, o⟩ = true →
    ∀ row ∈ s.db.results, Pending i row.jobId past → FullyPublished settings row (⟨i, op, o⟩ :: past)
  status : ∀ key job, .hset key job ∈ written op → job.status = .classified →
    JobPublished settings s past job.jobId

/-- Every result is out, or the caller that committed it is on its way. -/
structure OnItsWay (settings : Settings) (s : World) (past : Past) : Prop where
  rows : ∀ row ∈ s.db.results, FullyPublished settings row past ∨ ∃ i, Pending i row.jobId past
  classified : ∀ jobId, queueStatus s jobId = some .classified → JobPublished settings s past jobId
  unique : s.db.UniqueResults

def terms (settings : Settings) : Terms where
  meets := Unbroken
  inv := OnItsWay settings
  may := MayPublish settings

section

variable {settings : Settings} {s s' : World} {i : Caller} {past : Past} {op : Op}
  {o : Outcome PyException (Ans op)}

theorem rows_step (h : (terms settings).Kept settings i s past op o s') {row : VideoResultRow}
    (hrow : row ∈ s.db.results) :
    FullyPublished settings row (⟨i, op, o⟩ :: past) ∨ ∃ j, Pending j row.jobId (⟨i, op, o⟩ :: past) := by
  rcases h.inv.rows row hrow with hout | ⟨j, hpending⟩
  · exact .inl (hout.mono (List.subset_cons_self _ _))
  · by_cases hij : i = j
    · subst hij
      cases hruntime : setsRuntime ⟨i, op, o⟩ with
      | true => exact .inl (h.may.runtime o hruntime row hrow hpending)
      | false => exact .inr ⟨i, (pending_own hruntime).mpr (.inr hpending)⟩
    · exact .inr ⟨j, (pending_other hij).mpr hpending⟩

theorem onItsWay_call (h : (terms settings).Kept settings i s past op o s') :
    OnItsWay settings s' (⟨i, op, o⟩ :: past) where
  rows row hrow := by
    have hdoes := h.does
    cases hdoes.change with
    | nothing | writes | group | read => exact rows_step h hrow
    | @commit tx o now db heffect hdb =>
      rcases (Db.mem_results hdb row).mp hrow with hold | hnew
      · exact rows_step h hold
      · refine .inr ⟨i, (pending_own rfl).mpr (.inl ?_)⟩
        rw [brought, if_pos heffect]
        exact mem_brings hnew
  classified jobId hstatus := by
    have hdoes := h.does
    cases hdoes.change with
    | nothing | commit | group | read => exact JobPublished.step hdoes (h.inv.classified jobId hstatus)
    | writes heffect =>
      rcases queueStatus_writes h.rules jobId with hsame | ⟨key, job, hmem, rfl, heq⟩
      · exact JobPublished.step hdoes (h.inv.classified jobId (hsame ▸ hstatus))
      · have hclassified : job.status = .classified := Option.some.inj (heq.symm.trans hstatus)
        exact JobPublished.step hdoes (h.may.status key job hmem hclassified)
  unique := by
    have hdoes := h.does
    cases hdoes.change with
    | nothing | writes | group | read => exact h.inv.unique
    | commit _ hdb => exact Db.applyAll_unique hdb h.inv.unique

theorem may_of_aside (h : Aside op) : MayPublish settings i s past op where
  runtime o hruntime := by
    rw [setsRuntime_of_aside h] at hruntime
    cases hruntime
  status key job hmem hstatus := by
    cases op with
    | writes commands =>
      have hmild : Mild (.hset key job) := h _ hmem
      rcases hmild with hmild | hmild <;> cases hmild.symm.trans hstatus
    | _ => cases hmem

theorem may_commit {tx : List Write} : MayPublish settings i s past (.commit tx) where
  runtime o hruntime := by cases hruntime
  status key job hmem := by cases hmem

theorem may_select {jobId : String} : MayPublish settings i s past (.selectJob jobId) where
  runtime o hruntime := by cases hruntime
  status key job hmem := by cases hmem

theorem may_hset {key : String} {job : VideoJob}
    (h : job.status = .classified → JobPublished settings s past job.jobId) :
    MayPublish settings i s past (.writes [.hset key job]) where
  runtime o hruntime := by simp [setsRuntime, carriedOut, isSetRuntime] at hruntime
  status key' job' hmem hstatus := by
    obtain ⟨rfl, rfl⟩ := Command.hset.inj (List.mem_singleton.mp hmem)
    exact h hstatus

end

def rules (settings : Settings) : Rules settings where
  toTerms := terms settings
  inv_call := onItsWay_call
  may_aside := may_of_aside

/-! ## What callers know -/

section

variable {settings : Settings} {i : Caller}

/-- Caller `i` has nothing to publish. -/
def idle (settings : Settings) (i : Caller) : Assertion (rules settings).discipline i :=
  (rules settings).knows i (fun _ past => ¬ MidPublication i past) fun hji _ h =>
    mt (mid_other hji).mp h

def published (settings : Settings) (i : Caller) (jobId : String) :
    Assertion (rules settings).discipline i :=
  (rules settings).knows i (fun s past => JobPublished settings s past jobId) fun _ hkept h =>
    JobPublished.step hkept.does h

/-- Caller `i` has committed `row`, and has nothing else to publish. -/
structure OnlyRow (i : Caller) (row : VideoResultRow) (s : World) (past : Past) : Prop where
  there : row ∈ s.db.results
  mid : MidPublication i past
  only : ∀ jobId, Pending i jobId past → jobId = row.jobId

def onlyRow (settings : Settings) (i : Caller) (row : VideoResultRow) :
    Assertion (rules settings).discipline i :=
  (rules settings).knows i (OnlyRow i row) fun hji hkept h =>
    ⟨hkept.does.results h.there, (mid_other hji).mpr h.mid, fun jobId hpending =>
      h.only jobId ((pending_other hji).mp hpending)⟩

theorem idle_of_brings_nil {past : Past} {op : Op} {o : Outcome PyException (Ans op)}
    (hbrings : brings op = []) (h : ¬ MidPublication i past) :
    ¬ MidPublication i (⟨i, op, o⟩ :: past) := by
  cases hruntime : setsRuntime ⟨i, op, o⟩ with
  | true => exact not_mid_of_setsRuntime hruntime
  | false =>
    rw [mid_own hruntime, brought_of_brings_nil hbrings]
    simpa using h

theorem keeps_idle {K : Op → Prop} (hK : ∀ op, K op → brings op = []) :
    (idle settings i).Keeps K :=
  fun op hop _ _ _ _ _ _ _ h => idle_of_brings_nil (hK op hop) h

theorem idle_aside : (idle settings i).Keeps Aside := keeps_idle fun _ => brings_of_aside

theorem keeps_published {K : Op → Prop} {jobId : String} : (published settings i jobId).Keeps K :=
  fun _ _ _ _ _ _ _ _ hdoes h => JobPublished.step hdoes.1 h

theorem mid_aside {past : Past} {op : Op} {o : Outcome PyException (Ans op)} (hop : Aside op)
    (h : MidPublication i past) : MidPublication i (⟨i, op, o⟩ :: past) :=
  (mid_own (setsRuntime_of_aside hop)).mpr (.inr h)

theorem onlyRow_aside {row : VideoResultRow} : (onlyRow settings i row).Keeps Aside := by
  intro op hop s past o s' _ _ hdoes h
  refine ⟨hdoes.1.results h.there, mid_aside hop h.mid, fun jobId hpending => h.only jobId ?_⟩
  rw [pending_own (setsRuntime_of_aside hop), brought_of_brings_nil (brings_of_aside hop)] at hpending
  exact hpending.resolve_left List.not_mem_nil

/-! ### Publication -/

variable {row : VideoResultRow} {P : Assertion (rules settings).discipline i}

theorem calm (op : Op) (hop : Aside op) (hkeeps : P.Keeps Aside)
    (hrow : Entails P (onlyRow settings i row)) : Triple (sure fun _ => P) P (await op) :=
  Rules.ask_rule op (fun _ _ _ _ _ => may_of_aside hop)
    (fun _ _ _ _ hkept hP => Rules.still hkeeps hop hkept hP)
    fun _ _ _ _ hkept hP hnot => hnot (hkept.meets.answered (mid_aside hop
      (hrow _ _ ⟨rfl, hkept.consistent, hkept.inv⟩ hP).mid))

theorem push_rule {key : String} {buffered : BufferRow} (hkeeps : P.Keeps Aside)
    (hrow : Entails P (onlyRow settings i row)) :
    Triple (sure fun _ => P.and (.called (Performed (.rpush key buffered)))) P
      (pushJson key buffered) := by
  have hop : Aside (.writes [.rpush key buffered]) := aside_command trivial
  refine Rules.ask_rule (.writes _) (fun _ _ _ _ _ => may_of_aside hop) (fun s past _ s' hkept hP => ?_)
    fun s past o s' hkept hP hnot => ?_
  · exact ⟨Rules.still hkeeps hop hkept hP, _, List.mem_cons_self,
      performed_writes.mpr ⟨List.mem_singleton_self _, trivial⟩⟩
  · exact hnot (hkept.meets.answered (mid_aside hop
      (hrow _ _ ⟨rfl, hkept.consistent, hkept.inv⟩ hP).mid))

/-- The row of the storage action has been pushed, if there is an action. -/
def actionOut (settings : Settings) (i : Caller) : Option StorageAction →
    Assertion (rules settings).discipline i
  | none => .top
  | some action => .called fun e => ∃ now, Performed (.rpush settings.clickhouseBufferStorageActionsKey
      (.storageAction (toClickhouseStorageActionRow action now))) e

theorem pushStorageAction_rule (action : Option StorageAction) (hkeeps : P.Keeps Aside)
    (hrow : Entails P (onlyRow settings i row)) :
    Triple (sure fun _ => P.and (actionOut settings i action)) P (pushStorageAction settings action) := by
  cases action with
  | none => exact give fun _ _ _ hP => ⟨hP, trivial⟩
  | some action =>
    refine andThen (calm .now trivial hkeeps hrow) fun now => ?_
    refine mapOk (fun _ => ?_) (push_rule hkeeps hrow)
    rintro s past - ⟨hP, e, he, hpushed⟩
    exact ⟨hP, e, he, now, hpushed⟩

/-- What has been pushed before the runtime key is written. -/
def pushed (settings : Settings) (i : Caller) (job : VideoJob) (metadata : VideoMetadata)
    (frames : List FrameModerationResult) (result : VideoModerationResult)
    (action : Option StorageAction) (now : Time) : Assertion (rules settings).discipline i :=
  (((onlyRow settings i (videoResultToRow result)).and
    (.called (Performed (.rpush settings.clickhouseBufferVideoResultsKey
      (.videoResult (toClickhouseVideoRow settings job metadata frames result action now)))))).and
    (.called (Performed (.rpush settings.clickhouseBufferLegacyKey
      (.legacy (toLegacyNsfwAgg result)))))).and (actionOut settings i action)

theorem fullyPublished_of_pushed {job : VideoJob} {metadata : VideoMetadata}
    {frames : List FrameModerationResult} {result : VideoModerationResult}
    {action : Option StorageAction} {now : Time} (hconcluded : Concluded job result action)
    {s : World × Past} {past : Past}
    (h : (pushed settings i job metadata frames result action now).holds s past)
    {o : Outcome PyException (Ans (.writes [.setRuntime (runtimeKey settings job.videoId)
      (runtimeNsfwPayload result)]))} (heffect : o.TookEffect) :
    FullyPublished settings (videoResultToRow result) (⟨i, .writes _, o⟩ :: past) := by
  obtain ⟨⟨⟨-, e, he, hvideo⟩, e', he', hlegacy⟩, haction⟩ := h
  refine ⟨⟨_, hconcluded.jobId.symm, e, List.mem_cons_of_mem _ he, hvideo⟩,
    ⟨e', List.mem_cons_of_mem _ he', hlegacy⟩, fun hmove => ?_, ⟨_, List.mem_cons_self, ?_⟩⟩
  · have hsome : action.isSome = true := hconcluded.required.trans hmove
    cases action with
    | none => cases hsome
    | some action =>
      obtain ⟨f, hf, pushedAt, hpushed⟩ := haction
      have hid := (hconcluded.action action rfl).trans hconcluded.jobId.symm
      exact ⟨toClickhouseStorageActionRow action pushedAt, hid, f, List.mem_cons_of_mem _ hf, hpushed⟩
  · rw [← hconcluded.videoId]
    exact performed_writes.mpr ⟨List.mem_singleton_self _, heffect⟩

theorem runtime_rule {job : VideoJob} {metadata : VideoMetadata} {frames : List FrameModerationResult}
    {result : VideoModerationResult} {action : Option StorageAction} {now : Time}
    (hconcluded : Concluded job result action) :
    Triple (ends (fun _ => idle settings i) fun _ => (idle settings i).and
        (published settings i job.jobId))
      (pushed settings i job metadata frames result action now)
      (writeResult settings job.videoId (runtimeNsfwPayload result)) := by
  have hwrites : ∀ o : Outcome PyException (Ans (.writes [.setRuntime (runtimeKey settings job.videoId)
      (runtimeNsfwPayload result)])), setsRuntime ⟨i, .writes _, o⟩ = true ↔ o.TookEffect := fun o => by
    simp [setsRuntime, carriedOut, isSetRuntime]
  refine Rules.ask_rule (.writes _) (fun s past hcons hinv hP => ?_) (fun s past _ s' hkept hP => ?_)
    fun s past o s' hkept hP hnot => ?_
  · refine ⟨fun o hruntime row hrow hpending => ?_, fun key job hmem => by
      cases List.mem_singleton.mp hmem⟩
    have hinv : OnItsWay settings s past := hinv
    have honly : OnlyRow i (videoResultToRow result) s past := hP.1.1.1
    obtain rfl := hinv.unique _ hrow _ honly.there (honly.only _ hpending)
    exact fullyPublished_of_pushed hconcluded hP ((hwrites o).mp hruntime)
  · have honly : OnlyRow i (videoResultToRow result) s past := hP.1.1.1
    refine ⟨not_mid_of_setsRuntime ((hwrites _).mpr trivial), videoResultToRow result,
      hkept.does.results honly.there, hconcluded.jobId, fullyPublished_of_pushed hconcluded hP trivial⟩
  · -- Without an effect the call would be a failure in mid publication.
    have honly : OnlyRow i (videoResultToRow result) s past := hP.1.1.1
    cases hruntime : setsRuntime ⟨i, .writes _, o⟩ with
    | true => exact not_mid_of_setsRuntime hruntime
    | false => exact absurd (hkept.meets.answered ((mid_own hruntime).mpr (.inr honly.mid))) hnot

theorem publishAfterCommit_rule {job : VideoJob} {metadata : VideoMetadata}
    {frames : List FrameModerationResult} {result : VideoModerationResult}
    {action : Option StorageAction} (hconcluded : Concluded job result action) :
    Triple (ends (fun _ => idle settings i) fun _ => (idle settings i).and
        (published settings i job.jobId)) (onlyRow settings i (videoResultToRow result))
      (publishAfterCommit settings job metadata frames result action) := by
  refine andThen (ofSure (calm .now trivial onlyRow_aside (Entails.refl _))) fun now => ?_
  refine andThen (ofSure (push_rule onlyRow_aside (Entails.refl _))) fun _ => ?_
  refine andThen (ofSure (push_rule (onlyRow_aside.and (keeps_called _)) (and_left _ _))) fun _ => ?_
  refine andThen (ofSure (pushStorageAction_rule action ((onlyRow_aside.and (keeps_called _)).and
    (keeps_called _)) ((and_left _ _).trans (and_left _ _)))) fun _ => ?_
  exact @runtime_rule settings i job metadata frames result action now hconcluded

/-! ### One attempt -/

theorem finalCommit_rule {job : VideoJob} {frames : List FrameModerationResult}
    {result : VideoModerationResult} {action : Option StorageAction} :
    Triple (ends (fun _ => idle settings i) fun _ => onlyRow settings i (videoResultToRow result))
      (idle settings i) (commit (finalTx settings job frames result action)) := by
  refine andThen (S := fun _ => onlyRow settings i (videoResultToRow result)) (Rules.ask_rule
    (.commit _) (fun _ _ _ _ _ => may_commit) (fun s past now s' hkept hidle => ?_)
      fun s past o s' hkept hidle hnot => ?_) fun _ => give (Entails.refl _)
  · have hbrings : result.jobId ∈ brings (.commit (finalTx settings job frames result action)) :=
      mem_brings ((insertFinalResult_mem_finalTx _).mpr rfl)
    obtain ⟨db, hdb, rfl⟩ := id hkept.does
    refine ⟨((finalTx_rows hdb).1 _).mpr (.inr rfl), (mid_own rfl).mpr (.inl ?_), fun jobId hpending => ?_⟩
    · exact List.ne_nil_of_mem hbrings
    · rcases (pending_own rfl).mp hpending with hbrought | hold
      · exact Finality.decides_finalTx (Finality.brings_subset_decides hbrought)
      · exact absurd (pending_mid hold) hidle
  · exact fun hmid => hnot (hkept.meets.answered hmid)

theorem commit_idle {tx : List Write} (hbrings : brings (.commit tx) = []) :
    Triple (ends (fun _ => idle settings i) fun _ => idle settings i) (idle settings i) (commit tx) := by
  refine Rules.commit_stays (keeps_idle ?_) fun _ _ _ => may_commit
  rintro _ rfl
  exact hbrings

/-- Who knows that the job is published may classify it. -/
theorem classify_rule (jobId : String) :
    Triple (ends (fun _ => idle settings i) fun _ => idle settings i)
      ((idle settings i).and (published settings i jobId))
      (RedisQueue.updateStatus jobId .classified none none) := by
  have hreads : ((idle settings i).and (published settings i jobId)).Keeps Rules.Reads :=
    (idle_aside.mono fun _ => Rules.aside_of_reads).and keeps_published
  refine mapOk (fun _ => (and_left _ _).trans (and_left _ _)) (Rules.updateStatus_rule hreads
    (Rules.leaves_of_keeps hreads (and_left _ _)) (fun _ _ h _ => h) fun job hid hstatus => ?_)
  refine mapError (fun _ => and_left _ _) (Rules.stays_rule (K := fun op => brings op = []) ?_ rfl
    fun s past _ _ hP => may_hset fun _ => hid ▸ hP.2)
  exact (keeps_idle fun _ h => h).and keeps_published

/-- A failure records no classification. -/
theorem recordFailure_stays (job : VideoJob) (exc : PyException) :
    Triple (ends (fun _ => idle settings i) fun _ => idle settings i) (idle settings i)
      ((processor settings).recordFailure job exc) := by
  refine Rules.recordFailure_rule idle_aside (fun failed _ hnot => ?_) fun _ _ _ => commit_idle rfl
  exact Rules.stays_rule (K := fun op => brings op = []) (keeps_idle fun _ h => h) rfl
    fun s past _ _ _ => may_hset fun hclassified => absurd hclassified hnot

theorem attempt_rule (job : VideoJob) :
    Triple (ends (fun _ => idle settings i) fun _ => idle settings i) (idle settings i)
      ((processor settings).attempt job) := by
  refine tryCatch (R := ends (fun _ => idle settings i) fun _ => idle settings i) ?_
    (fun _ => Entails.refl _) fun exc => recordFailure_stays job exc
  refine andThen (Rules.markProcessing_rule idle_aside (commit_idle rfl)) fun _ => ?_
  exact Rules.processVideo_rule idle_aside idle_aside (fun _ _ _ _ => finalCommit_rule)
    (fun _ _ _ _ h => publishAfterCommit_rule h) (classify_rule job.jobId)

/-- Who reads that a job is classified reads of a job that is published. -/
def queriedRow (settings : Settings) (i : Caller) (jobId : String) (persisted : Option VideoJob) :
    Assertion (rules settings).discipline i :=
  (idle settings i).and ((published settings i jobId).given
    (persisted.map (·.status) = some .classified))

theorem queryJob_rule (jobId : String) :
    Triple (ends (fun _ => idle settings i) (queriedRow settings i jobId)) (idle settings i)
      (await (.selectJob jobId)) := by
  refine Rules.ask_rule (.selectJob jobId) (fun s past _ _ _ => may_select)
    (fun s past persisted s' hkept hidle => ⟨idle_of_brings_nil rfl hidle, fun hclassified => ?_⟩)
      fun s past o s' hkept hidle _ => idle_of_brings_nil rfl hidle
  obtain ⟨row, rfl, hstatus⟩ := Option.map_eq_some_iff.mp hclassified
  obtain ⟨result, hresult, hid⟩ := hkept.consistent.jobs jobId row hkept.does.1.symm hstatus
  have hinv : OnItsWay settings s past := hkept.inv
  rcases hinv.rows result hresult with hout | ⟨j, hpending⟩
  · exact JobPublished.step hkept.does ⟨result, hresult, hid, hout⟩
  · obtain ⟨f, hf, -⟩ := id hpending
    obtain ⟨hpast, rfl⟩ := caller_of_mem_since hf
    have hread : jobId ∈ readBy i ⟨i, .selectJob jobId, .answered (some row)⟩ := by simp [readBy]
    exact absurd (hid ▸ hpending) (hkept.meets.apart jobId hread f hpast)

theorem process_rule (job : VideoJob) :
    Triple (ends (fun _ => idle settings i) fun _ => idle settings i) (idle settings i)
      ((processor settings).process job) := by
  refine andThen (Rules.aside_stays idle_aside (readWithPoolRetry_within (getJobById_aside job.jobId)))
    fun current => ?_
  simp only
  split
  · exact give (Entails.refl _)
  · refine andThen (queryJob_rule job.jobId) fun persisted => ?_
    split
    · next hclassified =>
      have hpublished : Entails (queriedRow settings i job.jobId persisted)
          ((idle settings i).and (published settings i job.jobId)) :=
        fun _ _ _ h => ⟨h.1, h.2 hclassified⟩
      exact weaken hpublished (andThen (classify_rule job.jobId) fun _ => give (Entails.refl _))
    · have hreads : (idle settings i).Keeps Rules.Reads := idle_aside.mono fun _ => Rules.aside_of_reads
      refine weaken (and_left _ _) (andThen (mapOk (fun _ => and_left _ _) (Rules.updateStatus_rule
        hreads (Rules.leaves_of_keeps hreads (Entails.refl _)) (fun _ _ h _ => h)
          fun found _ hstatus => ?_)) fun updated => attempt_rule _)
      exact Rules.stays_rule idle_aside (aside_command (.inr hstatus)) fun _ _ _ _ _ =>
        may_of_aside (aside_command (.inr hstatus))

end

end Completion

/-- Where no publication breaks off and nobody reads the row of its job meanwhile, every classified
job is published. -/
theorem classified_is_published {settings : Settings} {c : Moment}
    (h : ReachVia (Starts settings) Does (EachCall Unbroken) {} c) :
    ClassifiedIsPublished settings c := by
  have hinit : Completion.OnItsWay settings {} [] := by
    refine ⟨fun _ h => absurd h List.not_mem_nil, fun _ h => ?_, fun _ h => absurd h List.not_mem_nil⟩
    cases h
  have hfresh : ∀ i, Entails ((Completion.rules settings).discipline.fresh i)
      (Completion.idle settings i) := by
    rintro i s past - hnever ⟨e, he, -⟩
    obtain ⟨hpast, hcaller⟩ := caller_of_mem_since he
    exact hnever e hpast hcaller trivial
  have hinv : Completion.OnItsWay settings c.state c.history :=
    Rules.inv_of_run (R := Completion.rules settings) (P := Completion.idle settings) hinit
      (fun _ => Completion.idle_aside) hfresh (fun _ job => Completion.process_rule job) h
  exact hinv.classified

/-- Attempt 0 makes `n` calls and then Kvrocks is gone, for its handler as well. Attempt 1 finds the
job classified in Postgres. -/
def shortcutAfter (n : Nat) : Script :=
  enqueueScript {} ++ startAttempt {} 0 :: calls (.attempt 0) n clean ++
    breaks (.attempt 0) :: calls (.attempt 0) 1 clean ++ breaks (.attempt 0) ::
      startAttempt {} 1 :: calls (.attempt 1) 5 clean

theorem legal_shortcutAfter (n : Nat) : ∀ t ∈ shortcutAfter n, t.Legal (Starts {}) := by
  refine List.forall_mem_append.mpr ⟨legal_brokenAttempt, ?_⟩
  exact List.forall_mem_cons.mpr ⟨trivial, legal_thenCalls legal_startAttempt⟩

/-- Here Kvrocks is gone after the runtime key is written, so the shortcut is fine. -/
theorem classified_is_published_clean : ∃ c,
    ReachVia (Starts {}) Does (EachCall Unbroken) {} c ∧
      queueStatus c.state "job" = some .classified ∧ ClassifiedIsPublished {} c := by
  obtain ⟨c, hrun, hp⟩ : ∃ c, ReachVia (Starts {}) Does (EachCall Unbroken) {} c ∧
      decide (queueStatus c.state "job" = some .classified) = true :=
    run_of_script (legal_shortcutAfter 22) (by decide +kernel)
  exact ⟨c, hrun, of_decide_eq_true hp, classified_is_published hrun⟩

/-! ## What breaks it -/

instance (command : Command) : Decidable (Publishes command) := by
  cases command <;> unfold Publishes <;> infer_instance

def publishing : Call → Bool
  | ⟨_, .writes commands, o⟩ => o.TookEffect ∧ ∃ command ∈ commands, Publishes command
  | _ => false

theorem publishing_of_performed {command : Command} {e : Call} (h : Performed command e)
    (hpublishes : Publishes command) : publishing e = true := by
  obtain ⟨i, op, o⟩ := e
  obtain ⟨commands, rfl, hmem, heffect⟩ := h
  exact decide_eq_true ⟨heffect, command, hmem, hpublishes⟩

/-- A classified job of which nothing was published. -/
theorem nothing_published {c : Moment} {jobId : String}
    (hstatus : queueStatus c.state jobId = some .classified)
    (hquiet : c.history.all fun e => !publishing e) :
    (∀ e ∈ c.history, ∀ command, Performed command e → ¬ Publishes command) ∧
      ¬ ClassifiedIsPublished {} c := by
  rw [List.all_eq_true] at hquiet
  have hnothing : ∀ e ∈ c.history, ∀ command, Performed command e → ¬ Publishes command := by
    intro e he command hperformed hpublishes
    have := hquiet e he
    rw [publishing_of_performed hperformed hpublishes] at this
    cases this
  refine ⟨hnothing, fun hpub => ?_⟩
  obtain ⟨row, -, -, hfull⟩ := hpub jobId hstatus
  obtain ⟨e, he, hlegacy⟩ := hfull.legacy
  exact hnothing e he _ hlegacy trivial

/-- The commit goes through, and then Kvrocks is gone: neither the push nor the handler gets
through. -/
theorem shortcut_loses_publication : ∃ c, Reachable {} c ∧
    queueStatus c.state "job" = some .classified ∧
    (∀ e ∈ c.history, ∀ command, Performed command e → ¬ Publishes command) ∧
    ¬ ClassifiedIsPublished {} c := by
  obtain ⟨c, hreach, hp⟩ := reach_of_script (legal_shortcutAfter 19) (p := fun c =>
    decide (queueStatus c.state "job" = some .classified) && c.history.all fun e => !publishing e)
    (by decide +kernel)
  rw [Bool.and_eq_true, decide_eq_true_eq] at hp
  exact ⟨c, hreach, hp.1, nothing_published hp.1 hp.2⟩

/-- Attempt 1 comes between the commit of attempt 0 and its pushes. -/
def overtaken : Script :=
  enqueueScript {} ++ startAttempt {} 0 :: calls (.attempt 0) 18 clean ++
    startAttempt {} 1 :: calls (.attempt 1) 5 clean

theorem legal_overtaken : ∀ t ∈ overtaken, t.Legal (Starts {}) := by
  simp only [overtaken, List.forall_mem_append]
  exact ⟨⟨legal_enqueue, legal_thenCalls legal_startAttempt⟩, legal_thenCalls legal_startAttempt⟩

/-- No call fails, and yet the shortcut is ahead of the publication. -/
theorem shortcut_overtakes_publication : ∃ c, Reachable {} c ∧
    (∀ e ∈ c.history, e.outcome.Answered) ∧ queueStatus c.state "job" = some .classified ∧
      ¬ ClassifiedIsPublished {} c := by
  obtain ⟨c, hreach, hp⟩ := reach_of_script legal_overtaken (p := fun c =>
    decide ((∀ e ∈ c.history, e.outcome.Answered) ∧ queueStatus c.state "job" = some .classified) &&
      c.history.all fun e => !publishing e) (by decide +kernel)
  rw [Bool.and_eq_true, decide_eq_true_eq] at hp
  exact ⟨c, hreach, hp.1.1, hp.1.2, (nothing_published hp.1.2 hp.2).2⟩

end NsfwDetector.Publication
