import NsfwDetector.System.Footprint
import NsfwDetector.System.Past
import NsfwDetector.System.Transactions

/-!
# The rules of publication

What a caller may write: a status under the key of its job, one of three transactions, and rows
that come from the result that its own attempt has committed.
-/

namespace NsfwDetector.Publication

open Effects

def HasResult (s : World) (jobId : String) : Prop := ∃ row ∈ s.db.results, row.jobId = jobId

/-! ## What is published -/

/-- The commands that publish one committed classification. -/
inductive Derived (settings : Settings) (job : VideoJob) (frames : List FrameModerationResult)
    (result : VideoModerationResult) (action : Option StorageAction) : Command → Prop
  | videoResult (metadata : VideoMetadata) (now : Time) :
      Derived settings job frames result action
        (.rpush settings.clickhouseBufferVideoResultsKey
          (.videoResult (toClickhouseVideoRow settings job metadata frames result action now)))
  | legacy :
      Derived settings job frames result action
        (.rpush settings.clickhouseBufferLegacyKey (.legacy (toLegacyNsfwAgg result)))
  | storageAction {a : StorageAction} (ha : action = some a) (now : Time) :
      Derived settings job frames result action
        (.rpush settings.clickhouseBufferStorageActionsKey
          (.storageAction (toClickhouseStorageActionRow a now)))
  | runtime :
      Derived settings job frames result action
        (.setRuntime (runtimeKey settings job.videoId) (runtimeNsfwPayload result))

/-- Everything that belongs to the result `row` has been published at least once. -/
structure FullyPublished (settings : Settings) (row : VideoResultRow) (past : Past) : Prop where
  videoResult : ∃ pushed : VideoNsfwDetectionRow, pushed.jobId = row.jobId ∧
    ∃ e ∈ past, Performed (.rpush settings.clickhouseBufferVideoResultsKey (.videoResult pushed)) e
  legacy : ∃ e ∈ past, Performed (.rpush settings.clickhouseBufferLegacyKey
    (.legacy (toLegacyNsfwAgg (rowToVideoResult row)))) e
  storageAction : row.moveRequired = true → ∃ pushed : StorageActionRow, pushed.jobId = row.jobId ∧
    ∃ e ∈ past,
      Performed (.rpush settings.clickhouseBufferStorageActionsKey (.storageAction pushed)) e
  runtime : ∃ e ∈ past, Performed (.setRuntime (runtimeKey settings row.videoId)
    (runtimeNsfwPayload (rowToVideoResult row))) e

theorem FullyPublished.mono {settings : Settings} {row : VideoResultRow} {past past' : Past}
    (hsub : past ⊆ past') (h : FullyPublished settings row past) :
    FullyPublished settings row past' where
  videoResult := by
    obtain ⟨pushed, hid, e, he, hp⟩ := h.videoResult
    exact ⟨pushed, hid, e, hsub he, hp⟩
  legacy := by
    obtain ⟨e, he, hp⟩ := h.legacy
    exact ⟨e, hsub he, hp⟩
  storageAction hmove := by
    obtain ⟨pushed, hid, e, he, hp⟩ := h.storageAction hmove
    exact ⟨pushed, hid, e, hsub he, hp⟩
  runtime := by
    obtain ⟨e, he, hp⟩ := h.runtime
    exact ⟨e, hsub he, hp⟩

def JobPublished (settings : Settings) (s : World) (past : Past) (jobId : String) : Prop :=
  ∃ row ∈ s.db.results, row.jobId = jobId ∧ FullyPublished settings row past

/-! ## What a caller may do -/

/-- What caller `i` knows when it writes the final rows of `job`. -/
structure FinalWrites (settings : Settings) (i : Caller) (past : Past) (job : VideoJob)
    (result : VideoModerationResult) (action : Option StorageAction) : Prop where
  jobId : result.jobId = job.jobId
  videoId : result.videoId = job.videoId
  moved : result.moveRequired = true → ∃ e ∈ attemptOf i past, Moved result.videoId e
  unmoved : result.moveRequired = false → ∀ e ∈ attemptOf i past, ¬ (e.op.isMove = true)
  required : action.isSome = result.moveRequired
  action : ∀ a, action = some a → ∃ response uuid now,
    a = succeededAction settings job result response uuid now ∧ ':' ∉ uuid.toList

inductive TxOk (settings : Settings) (i : Caller) (past : Past) : List Write → Prop
  | processing (job : VideoJob) : TxOk settings i past (markProcessingTx job)
  | failed (jobId errorCode errorMessage : String) {status : VideoJobStatus}
      (hstatus : status = .failedRetryable ∨ status = .failedTerminal) :
      TxOk settings i past [.markFailed jobId status errorCode errorMessage]
  | final {job : VideoJob} (frames : List FrameModerationResult) {result : VideoModerationResult}
      {action : Option StorageAction} (h : FinalWrites settings i past job result action) :
      TxOk settings i past (finalTx settings job frames result action)

/-- The attempt of caller `i` has committed a classification from which `command` follows. -/
def Justified (settings : Settings) (i : Caller) (past : Past) (command : Command) : Prop :=
  ∃ job frames result action,
    (∃ e ∈ attemptOf i past, Committed (finalTx settings job frames result action) e) ∧
      Derived settings job frames result action command

/-- A status may be written under the key of its job, and `CLASSIFIED` asks for a result. -/
structure HsetOk (s : World) (key : String) (job : VideoJob) : Prop where
  key : key = jobKey job.jobId
  createdAt : job.createdAt ≠ none
  result : job.status = .classified → HasResult s job.jobId

def CommandOk (settings : Settings) (i : Caller) (s : World) (past : Past) : Command → Prop
  | .hset key job => HsetOk s key job
  | .rpush key row => Justified settings i past (.rpush key row)
  | .setRuntime key payload => Justified settings i past (.setRuntime key payload)
  | _ => True

/-- A change of status is a command of its own. Only a new job is written along with others. -/
def StatusAlone (commands : List Command) : Prop :=
  ∀ key job, .hset key job ∈ commands → job.status = .queued ∨ commands = [.hset key job]

/-- An index leads to a job that is there, or that is stored along with it. -/
def IndexOk (s : World) (commands : List Command) : Prop :=
  ∀ key jobId, .set key jobId ∈ commands → jobId ≠ "" ∧
    (s.kv.hashes (jobKey jobId) ≠ none ∨ ∃ job, .hset (jobKey jobId) job ∈ commands)

def May (settings : Settings) (i : Caller) (s : World) (past : Past) : Op → Prop
  | .writes commands => (∀ command ∈ commands, CommandOk settings i s past command) ∧
    StatusAlone commands ∧ IndexOk s commands
  | .commit tx => TxOk settings i past tx
  | _ => True

/-! ## What stays true -/

structure Consistent (s : World) : Prop where
  keys : ∀ key job, s.kv.hashes key = some job → key = jobKey job.jobId ∧ job.createdAt ≠ none
  queue : ∀ key job, s.kv.hashes key = some job → job.status = .classified → HasResult s job.jobId
  jobs : ∀ jobId row, s.db.job? jobId = some row → row.status = .classified → HasResult s jobId

theorem consistent_empty : Consistent {} where
  keys _ _ h := by cases h
  queue _ _ h := by cases h
  jobs _ _ h := by cases h

section

variable {settings : Settings} {i : Caller} {s s' : World} {past : Past} {op : Op}
  {o : Outcome PyException (Ans op)}

theorem HasResult.step {jobId : String} (hdoes : Does i s op o s') (h : HasResult s jobId) :
    HasResult s' jobId := by
  obtain ⟨row, hrow, hid⟩ := h
  exact ⟨row, hdoes.results hrow, hid⟩

theorem classified_of_commit {db db' : Db} {now : Time} {tx : List Write}
    (hmay : TxOk settings i past tx) (hdb : db.applyAll now tx = .ok db') {jobId : String}
    {row : VideoJob} (hrow : db'.job? jobId = some row) (hstatus : row.status = .classified) :
    db.job? jobId = some row ∨ ∃ r ∈ db'.results, r.jobId = jobId := by
  cases hmay with
  | processing job =>
    obtain ⟨hother, hself⟩ := markProcessingTx_job? hdb
    by_cases hid : jobId = job.jobId
    · subst hid
      have := hself row hrow
      rw [hstatus] at this
      cases this
    · exact .inl (hother jobId hid ▸ hrow)
  | @failed id errorCode errorMessage status hfailed =>
    obtain ⟨hother, hself⟩ := markFailedTx_job? hdb
    by_cases hid : jobId = id
    · subst hid
      have := hself row hrow
      rw [hstatus] at this
      rcases hfailed with h | h <;> rw [← this] at h <;> cases h
    · exact .inl (hother jobId hid ▸ hrow)
  | @final job frames result action h =>
    by_cases hid : jobId = job.jobId
    · refine .inr ⟨videoResultToRow result, ((finalTx_rows hdb).1 _).mpr (.inr rfl), ?_⟩
      exact h.jobId.trans hid.symm
    · exact .inl ((finalTx_job? h.jobId hdb).1 jobId hid ▸ hrow)

theorem Consistent.call (hinv : Consistent s) (hmay : May settings i s past op)
    (hdoes : Does i s op o s') : Consistent s' := by
  have hmono : ∀ jobId, HasResult s jobId → HasResult s' jobId := fun _ => HasResult.step hdoes
  cases hdoes.change with
  | nothing | group | read => exact ⟨hinv.keys, hinv.queue, hinv.jobs⟩
  | @writes commands o heffect =>
    have hhash : ∀ key job, (s.kv.applyAll commands).hashes key = some job →
        s.kv.hashes key = some job ∨
          ∃ written, HsetOk s key written ∧ job = written.stored := by
      intro key job hjob
      rcases Kvrocks.applyAll_hashes s.kv commands key with hsame | ⟨written, hmem, heq⟩
      · exact .inl (hsame ▸ hjob)
      · exact .inr ⟨written, hmay.1 _ hmem, Option.some.inj (hjob.symm.trans heq)⟩
    refine ⟨fun key job hjob => ?_, fun key job hjob hstatus => ?_, hinv.jobs⟩
    · rcases hhash key job hjob with hold | ⟨written, hok, rfl⟩
      · exact hinv.keys key job hold
      · exact ⟨hok.key, hok.createdAt⟩
    · rcases hhash key job hjob with hold | ⟨written, hok, rfl⟩
      · exact hinv.queue key job hold hstatus
      · exact hok.result hstatus
  | @commit tx o now db heffect hdb =>
    refine ⟨hinv.keys, fun key job hjob hstatus => hmono _ (hinv.queue key job hjob hstatus), ?_⟩
    intro jobId row hrow hstatus
    rcases classified_of_commit hmay hdb hrow hstatus with hold | hnew
    · exact hmono _ (hinv.jobs jobId row hold hstatus)
    · exact hnew

end

def discipline (settings : Settings) : Discipline Caller World Ans PyException where
  does := Does
  inv s _ := Consistent s
  may := May settings
  inv_call hinv hmay hdoes := hinv.call hmay hdoes

end NsfwDetector.Publication
