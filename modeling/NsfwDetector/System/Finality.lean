import NsfwDetector.System.Conditions

/-!
# When a classification is final

One handler catches what goes wrong before and after the commit, and no store guards its updates.
So a late failure takes a job back, and so does an attempt that overlaps with another one. Where no
call fails after the commit and attempts come one after another, a result is final.
-/

namespace NsfwDetector.Publication

open Effects Effects.Assertion Triple

instance (s : World) (jobId : String) : Decidable (HasResult s jobId) :=
  inferInstanceAs (Decidable (∃ row ∈ s.db.results, row.jobId = jobId))

/-! ## Statuses in the two stores -/

def queueStatus (s : World) (jobId : String) : Option VideoJobStatus :=
  (s.kv.hashes (jobKey jobId)).map (·.status)

def jobStatus (s : World) (jobId : String) : Option VideoJobStatus :=
  (s.db.job? jobId).map (·.status)

def Failed (status : VideoJobStatus) : Prop := status = .failedRetryable ∨ status = .failedTerminal

instance (status : VideoJobStatus) : Decidable (Failed status) := inferInstanceAs (Decidable (_ ∨ _))

def QueueFailed (s : World) (jobId : String) : Prop :=
  ∃ status ∈ queueStatus s jobId, Failed status

instance (s : World) (jobId : String) : Decidable (QueueFailed s jobId) :=
  inferInstanceAs (Decidable (∃ status ∈ queueStatus s jobId, Failed status))

/-- A job with a result is classified in Postgres, and not failed in the queue. -/
def ResultIsFinal (s : World) : Prop :=
  ∀ row ∈ s.db.results, jobStatus s row.jobId = some .classified ∧ ¬ QueueFailed s row.jobId

instance (s : World) : Decidable (ResultIsFinal s) :=
  inferInstanceAs (Decidable (∀ row ∈ s.db.results, _))

/-! ## Calls that decide on a job -/

/-- The jobs that the call records as failed in the queue. -/
def fails : Op → List String
  | .writes commands => commands.filterMap fun
    | .hset _ job => if Failed job.status then some job.jobId else none
    | _ => none
  | _ => []

/-- The jobs that the call marks in Postgres, or brings a result of. -/
def marks : Op → List String
  | .commit tx => tx.filterMap fun
    | .markProcessing jobId | .markFailed jobId _ _ _ => some jobId
    | .insertFinalResult row => some row.jobId
    | _ => none
  | _ => []

def decides (op : Op) : List String := fails op ++ marks op

/-! ## The condition -/

/-- Caller `i` has committed a result, and its attempt has not removed its directory since. -/
def Finishing (i : Caller) (past : Past) : Prop :=
  ∃ e ∈ since (·.op.isCleanup) i past, brought e ≠ []

/-- The job whose row caller `i` reads with the call. -/
def readBy (i : Caller) : Call → Option String
  | ⟨j, .selectJob jobId, _⟩ => if j = i then some jobId else none
  | _ => none

/-- The job whose row caller `i` has read last. -/
def lastRead (i : Caller) (past : Past) : Option String := past.findSome? (readBy i)

/-- Somebody else has read the row of the job since caller `i` last read a row. -/
def Rivalled (i : Caller) (jobId : String) (past : Past) : Prop :=
  ∃ e ∈ past.takeWhile fun e => (readBy i e).isNone, readBy e.caller e = some jobId

instance (i : Caller) (past : Past) : Decidable (Finishing i past) :=
  inferInstanceAs (Decidable (∃ e ∈ _, _))

instance (i : Caller) (jobId : String) (past : Past) : Decidable (Rivalled i jobId past) :=
  inferInstanceAs (Decidable (∃ e ∈ _, _))

/-- Attempts come one after another, and none fails after its commit. -/
structure InTurn (past : Past) (e : Call) : Prop where
  /-- From the commit of its result to the removal of its directory, no call of an attempt fails. -/
  answered : Finishing e.caller (e :: past) → e.outcome.Answered
  /-- Who decides on a job was the last to read its row. -/
  apart : e.outcome.TookEffect → ∀ jobId ∈ decides e.op, ¬ Rivalled e.caller jobId past

instance (past : Past) (e : Call) : Decidable (InTurn past e) :=
  decidable_of_iff ((Finishing e.caller (e :: past) → e.outcome.Answered) ∧
    (e.outcome.TookEffect → ∀ jobId ∈ decides e.op, ¬ Rivalled e.caller jobId past))
    ⟨fun h => ⟨h.1, h.2⟩, fun h => ⟨h.answered, h.apart⟩⟩

theorem Finishing.own {i : Caller} {past : Past} {op : Op} {o : Outcome PyException (Ans op)}
    (h : Finishing i past) (hop : op.isCleanup = false) : Finishing i (⟨i, op, o⟩ :: past) := by
  obtain ⟨e, he, hbrought⟩ := h
  refine ⟨e, ?_, hbrought⟩
  rw [since_own hop]
  exact List.mem_cons_of_mem _ he

/-! ### Who reads a row -/

section

variable {i j : Caller} {jobId : String} {past : Past} {e : Call}

theorem readBy_other {op : Op} {o : Outcome PyException (Ans op)} (h : j ≠ i) :
    readBy i ⟨j, op, o⟩ = none := by
  cases op <;> first | rfl | exact if_neg h

theorem readBy_of_not {op : Op} (h : op.isSelectJob = false) {o : Outcome PyException (Ans op)} :
    readBy i ⟨i, op, o⟩ = none := by
  cases op <;> first | rfl | cases h

theorem lastRead_cons (h : readBy i e = none) : lastRead i (e :: past) = lastRead i past :=
  List.findSome?_cons_of_isNone (by simp [h])

theorem rivalled_cons (h : readBy i e = none) (hrivalled : Rivalled i jobId past) :
    Rivalled i jobId (e :: past) := by
  obtain ⟨f, hf, hread⟩ := hrivalled
  refine ⟨f, ?_, hread⟩
  rw [List.takeWhile_cons_of_pos (by simp [h])]
  exact List.mem_cons_of_mem _ hf

theorem rivalled_of_read (h : readBy i e = none) (hread : readBy e.caller e = some jobId) :
    Rivalled i jobId (e :: past) := by
  refine ⟨e, ?_, hread⟩
  rw [List.takeWhile_cons_of_pos (by simp [h])]
  exact List.mem_cons_self

theorem caller_of_readBy (h : readBy i e = some jobId) : e.caller = i := by
  by_contra hother
  rw [readBy_other hother] at h
  cases h

/-- Of two callers that have both read the row last, one has done so after the other. -/
theorem rivalled_or (hij : i ≠ j) (hi : lastRead i past = some jobId) (hj : lastRead j past = some jobId) :
    Rivalled i jobId past ∨ Rivalled j jobId past := by
  induction past with
  | nil => cases hi
  | cons e past ih =>
    cases hreadi : readBy i e with
    | some id =>
      obtain rfl := caller_of_readBy hreadi
      have hid : id = jobId := by simpa [lastRead, hreadi] using hi
      exact .inr (rivalled_of_read (readBy_other hij) (hid ▸ hreadi))
    | none =>
      cases hreadj : readBy j e with
      | some id =>
        obtain rfl := caller_of_readBy hreadj
        have hid : id = jobId := by simpa [lastRead, hreadj] using hj
        exact .inl (rivalled_of_read hreadi (hid ▸ hreadj))
      | none =>
        rw [lastRead_cons hreadi] at hi
        rw [lastRead_cons hreadj] at hj
        exact (ih hi hj).imp (rivalled_cons hreadi) (rivalled_cons hreadj)

end

/-! ## What a call does to results and failures -/

section

variable {settings : Settings} {s s' : World} {i : Caller} {past : Past} {op : Op}
  {o : Outcome PyException (Ans op)} {jobId : String}

theorem mem_brings {tx : List Write} {row : VideoResultRow} (h : .insertFinalResult row ∈ tx) :
    row.jobId ∈ brings (.commit tx) :=
  List.mem_filterMap.mpr ⟨_, h, rfl⟩

theorem mem_marks {tx : List Write} {w : Write} (hmem : w ∈ tx) (h : jobId ∈ marks (.commit [w])) :
    jobId ∈ marks (.commit tx) := by
  obtain ⟨write, hwrite, hid⟩ := List.mem_filterMap.mp h
  exact List.mem_filterMap.mpr ⟨write, List.mem_singleton.mp hwrite ▸ hmem, hid⟩

theorem mem_marks_of_brings (h : jobId ∈ brings op) : jobId ∈ marks op := by
  cases op with
  | commit tx =>
    obtain ⟨write, hwrite, hid⟩ := List.mem_filterMap.mp h
    refine List.mem_filterMap.mpr ⟨write, hwrite, ?_⟩
    cases write <;> first | exact hid | cases hid
  | _ => cases h

theorem mem_fails {commands : List Command} {key : String} {job : VideoJob}
    (h : .hset key job ∈ commands) (hfailed : Failed job.status) : job.jobId ∈ fails (.writes commands) :=
  List.mem_filterMap.mpr ⟨_, h, if_pos hfailed⟩

theorem hasResult_after (hdoes : Does i s op o s') (h : HasResult s' jobId) :
    HasResult s jobId ∨ o.TookEffect ∧ jobId ∈ brings op := by
  obtain ⟨row, hrow, rfl⟩ := h
  cases hdoes.change with
  | nothing | writes | group | read => exact .inl ⟨row, hrow, rfl⟩
  | commit heffect hdb =>
    rcases (Db.mem_results hdb row).mp hrow with hold | hnew
    · exact .inl ⟨row, hold, rfl⟩
    · exact .inr ⟨heffect, mem_brings hnew⟩

theorem queueStatus_writes {commands : List Command} (hmay : May settings i s past (.writes commands))
    (jobId : String) :
    queueStatus { s with kv := s.kv.applyAll commands } jobId = queueStatus s jobId ∨
      ∃ key job, .hset key job ∈ commands ∧ job.jobId = jobId ∧
        queueStatus { s with kv := s.kv.applyAll commands } jobId = some job.status := by
  rcases Kvrocks.applyAll_hashes s.kv commands (jobKey jobId) with hsame | ⟨job, hmem, heq⟩
  · exact .inl (by simp [queueStatus, hsame])
  · refine .inr ⟨_, job, hmem, ?_, by simp [queueStatus, heq]⟩
    exact (jobKey_injective (hmay.1 _ hmem).key).symm

theorem queueFailed_after (hmay : May settings i s past op) (hdoes : Does i s op o s')
    (h : QueueFailed s' jobId) : QueueFailed s jobId ∨ o.TookEffect ∧ jobId ∈ fails op := by
  cases hdoes.change with
  | nothing | commit | group | read => exact .inl h
  | writes heffect =>
    obtain ⟨status, hstatus, hfailed⟩ := h
    rcases queueStatus_writes hmay jobId with hsame | ⟨key, job, hmem, rfl, heq⟩
    · exact .inl ⟨status, hsame ▸ hstatus, hfailed⟩
    · obtain rfl : job.status = status := Option.some.inj (heq.symm.trans hstatus)
      exact .inr ⟨heffect, mem_fails hmem hfailed⟩

theorem classified_of_brings (hmay : May settings i s past op) (hdoes : Does i s op o s')
    (heffect : o.TookEffect) (h : jobId ∈ brings op) : jobStatus s' jobId = some .classified := by
  cases op with
  | commit tx =>
    obtain ⟨now, db, hdb, rfl⟩ := Does.commit hdoes heffect
    obtain ⟨write, hwrite, hid⟩ := List.mem_filterMap.mp h
    cases write with
    | insertFinalResult row =>
      obtain rfl := Option.some.inj hid
      cases hmay with
      | processing => simp [markProcessingTx] at hwrite
      | failed => simp at hwrite
      | @final job frames result action hwrites =>
        obtain ⟨-, found, hfound, hstatus⟩ := finalTx_job? hwrites.jobId hdb
        have hrow : row.jobId = job.jobId :=
          ((insertFinalResult_mem_finalTx row).mp hwrite) ▸ hwrites.jobId
        rw [jobStatus, hrow, hfound]
        exact congrArg some hstatus
    | _ => cases hid
  | _ => cases h

theorem jobStatus_of_not_marks (hmay : May settings i s past op) (hdoes : Does i s op o s')
    (h : jobId ∉ marks op) : jobStatus s' jobId = jobStatus s jobId := by
  cases hdoes.change with
  | nothing | writes | group | read => rfl
  | commit _ hdb =>
    cases hmay with
    | processing job =>
      have hid : jobId ≠ job.jobId := by
        rintro rfl
        exact h (mem_marks (w := .markProcessing job.jobId) (by simp [markProcessingTx]) (.head _))
      rw [jobStatus, (markProcessingTx_job? hdb).1 jobId hid, jobStatus]
    | @failed id =>
      have hid : jobId ≠ id := by
        rintro rfl
        exact h (mem_marks (List.mem_singleton_self _) (.head _))
      rw [jobStatus, (markFailedTx_job? hdb).1 jobId hid, jobStatus]
    | @final job frames result action hwrites =>
      have hid : jobId ≠ job.jobId := by
        rintro rfl
        have hrow : .insertFinalResult (videoResultToRow result) ∈
            finalTx settings job frames result action := (insertFinalResult_mem_finalTx _).mpr rfl
        exact h (mem_marks hrow (hwrites.jobId ▸ .head _))
      rw [jobStatus, (finalTx_job? hwrites.jobId hdb).1 jobId hid, jobStatus]

/-- What a call may decide where results are to stay final. -/
structure Harmless (s : World) (op : Op) : Prop where
  decided : ∀ jobId ∈ decides op, ¬ HasResult s jobId
  brought : ∀ jobId ∈ brings op, ¬ QueueFailed s jobId

theorem ResultIsFinal.call (hfinal : ResultIsFinal s) (hmay : May settings i s past op)
    (hdoes : Does i s op o s') (hharmless : o.TookEffect → Harmless s op) : ResultIsFinal s' := by
  intro row hrow
  rcases hasResult_after hdoes ⟨row, hrow, rfl⟩ with ⟨old, hold, hid⟩ | ⟨heffect, hbrings⟩
  · have hundecided : o.TookEffect → row.jobId ∉ decides op := fun heffect hdecides =>
      (hharmless heffect).decided row.jobId hdecides ⟨old, hold, hid⟩
    obtain ⟨hclassified, hqueue⟩ := hid ▸ hfinal old hold
    constructor
    · by_cases heffect : o.TookEffect
      · have hmarks : row.jobId ∉ marks op := fun h =>
          hundecided heffect (List.mem_append_right _ h)
        rw [jobStatus_of_not_marks hmay hdoes hmarks]
        exact hclassified
      · rw [hdoes.of_not_tookEffect heffect]
        exact hclassified
    · intro hfailed
      rcases queueFailed_after hmay hdoes hfailed with hfailed | ⟨heffect, hfails⟩
      · exact hqueue hfailed
      · exact hundecided heffect (List.mem_append_left _ hfails)
  · refine ⟨classified_of_brings hmay hdoes heffect hbrings, fun hfailed => ?_⟩
    rcases queueFailed_after hmay hdoes hfailed with hfailed | ⟨-, hfails⟩
    · exact (hharmless heffect).brought row.jobId hbrings hfailed
    · cases op with
      | writes => cases hbrings
      | _ => cases hfails

end

namespace Finality

/-! ## What callers know -/

/-- Caller `i` was the last to read the row of the job and `ψ`, or somebody has read it since. -/
def Held (i : Caller) (jobId : String) (past : Past) (ψ : Prop) : Prop :=
  lastRead i past = some jobId ∧ (Rivalled i jobId past ∨ ψ)

def terms : Terms where
  meets := InTurn
  inv s _ := ResultIsFinal s
  may i s past op :=
    (∀ jobId ∈ decides op, Held i jobId past (¬ HasResult s jobId)) ∧
      ∀ jobId ∈ brings op, Held i jobId past (¬ QueueFailed s jobId)

section

variable {settings : Settings} {s s' : World} {i j : Caller} {past : Past} {op : Op}
  {o : Outcome PyException (Ans op)} {jobId : String}

theorem brings_subset_decides (h : jobId ∈ brings op) : jobId ∈ decides op :=
  List.mem_append_right _ (mem_marks_of_brings h)

theorem harmless_of_kept (h : terms.Kept settings i s past op o s') (heffect : o.TookEffect) :
    Harmless s op where
  decided jobId hdecides :=
    ((h.may.1 jobId hdecides).2).resolve_left (h.meets.apart heffect jobId hdecides)
  brought jobId hbrings :=
    ((h.may.2 jobId hbrings).2).resolve_left
      (h.meets.apart heffect jobId (brings_subset_decides hbrings))

theorem decides_of_aside (h : Aside op) : decides op = [] := by
  cases op with
  | commit => exact h.elim
  | writes commands =>
    refine List.append_eq_nil_iff.mpr ⟨List.filterMap_eq_nil_iff.mpr fun command hc => ?_, rfl⟩
    have hmild := h command hc
    cases command with
    | hset key job =>
      refine if_neg ?_
      rintro (hstatus | hstatus) <;> rcases hmild with hmild | hmild <;> cases hstatus.symm.trans hmild
    | _ => rfl
  | _ => rfl

theorem may_of_decides_nil (h : decides op = []) : terms.may i s past op := by
  refine ⟨fun jobId hdecides => ?_, fun jobId hbrings => ?_⟩
  · rw [h] at hdecides
    cases hdecides
  · have hdecides := brings_subset_decides hbrings
    rw [h] at hdecides
    cases hdecides

/-- If another caller decides on the job, it has read the row since. -/
theorem rivalled_of_decides (hji : j ≠ i) (h : terms.Kept settings j s past op o s')
    (heffect : o.TookEffect) (hdecides : jobId ∈ decides op) (hread : lastRead i past = some jobId) :
    Rivalled i jobId past :=
  (rivalled_or hji.symm hread (h.may.1 jobId hdecides).1).resolve_right
    (h.meets.apart heffect jobId hdecides)

theorem Held.other {ψ ψ' : Prop} (h : Held i jobId past ψ) (hji : j ≠ i)
    (hkept : terms.Kept settings j s past op o s')
    (hψ : ψ → ψ' ∨ o.TookEffect ∧ jobId ∈ decides op) : Held i jobId (⟨j, op, o⟩ :: past) ψ' := by
  have hread : readBy i ⟨j, op, o⟩ = none := readBy_other hji
  refine ⟨(lastRead_cons hread).trans h.1, ?_⟩
  rcases h.2 with hrivalled | hψs
  · exact .inl (rivalled_cons hread hrivalled)
  · rcases hψ hψs with hψs' | ⟨heffect, hdecides⟩
    · exact .inr hψs'
    · exact .inl (rivalled_cons hread (rivalled_of_decides hji hkept heffect hdecides h.1))

theorem Held.own {ψ ψ' : Prop} (h : Held i jobId past ψ) (hop : op.isSelectJob = false)
    (hψ : ψ → ψ') : Held i jobId (⟨i, op, o⟩ :: past) ψ' := by
  have hread : readBy i ⟨i, op, o⟩ = none := readBy_of_not hop
  exact ⟨(lastRead_cons hread).trans h.1, h.2.imp (rivalled_cons hread) hψ⟩

end

def rules (settings : Settings) : Rules settings where
  toTerms := terms
  inv_call h := ResultIsFinal.call h.inv h.rules h.does (harmless_of_kept h)
  may_aside h := may_of_decides_nil (decides_of_aside h)

section

variable {settings : Settings} {i : Caller} {jobId : String}

/-- Knowledge about a job that only a decision of somebody else can take away. -/
def held (settings : Settings) (i : Caller) (jobId : String) (ψ : World → Prop)
    (hψ : ∀ {s s' : World} {past : Past} {j : Caller} {op : Op} {o : Outcome PyException (Ans op)},
      May settings j s past op → Does j s op o s' → ψ s → ψ s' ∨ o.TookEffect ∧ jobId ∈ decides op) :
    Assertion (rules settings).discipline i :=
  (rules settings).knows i (fun s past => Held i jobId past (ψ s)) fun hji hkept h =>
    h.other hji hkept (hψ hkept.rules hkept.does)

/-- The job has no result. -/
def undecided (settings : Settings) (i : Caller) (jobId : String) :
    Assertion (rules settings).discipline i :=
  held settings i jobId (fun s => ¬ HasResult s jobId) fun _ hdoes h => by
    by_contra hnot
    obtain ⟨hresult, hsame⟩ := not_or.mp hnot
    rcases hasResult_after hdoes (not_not.mp hresult) with hold | ⟨heffect, hbrings⟩
    · exact h hold
    · exact hsame ⟨heffect, brings_subset_decides hbrings⟩

/-- The job is not failed in the queue. -/
def cleared (settings : Settings) (i : Caller) (jobId : String) :
    Assertion (rules settings).discipline i :=
  held settings i jobId (fun s => ¬ QueueFailed s jobId) fun hmay hdoes h => by
    by_contra hnot
    obtain ⟨hfailed, hsame⟩ := not_or.mp hnot
    rcases queueFailed_after hmay hdoes (not_not.mp hfailed) with hold | ⟨heffect, hfails⟩
    · exact h hold
    · exact hsame ⟨heffect, List.mem_append_left _ hfails⟩

theorem keeps_undecided {K : Op → Prop}
    (hK : ∀ op, K op → op.isSelectJob = false ∧ jobId ∉ brings op) :
    (undecided settings i jobId).Keeps K := by
  intro op hop s past o s' _ _ hdoes h
  refine Held.own h (hK op hop).1 fun hnone hresult => ?_
  rcases hasResult_after hdoes.1 hresult with hold | ⟨-, hbrings⟩
  · exact hnone hold
  · exact (hK op hop).2 hbrings

theorem keeps_cleared {K : Op → Prop}
    (hK : ∀ op, K op → op.isSelectJob = false ∧ jobId ∉ fails op) :
    (cleared settings i jobId).Keeps K := by
  intro op hop s past o s' _ _ hdoes h
  refine Held.own h (hK op hop).1 fun hnone hfailed => ?_
  rcases queueFailed_after hdoes.2.2.1 hdoes.1 hfailed with hold | ⟨-, hfails⟩
  · exact hnone hold
  · exact (hK op hop).2 hfails

theorem not_isSelectJob_of_aside {op : Op} (h : Aside op) : op.isSelectJob = false := by
  cases op <;> first | rfl | exact h.elim

theorem undecided_aside : (undecided settings i jobId).Keeps Aside :=
  keeps_undecided fun op hop => ⟨not_isSelectJob_of_aside hop, fun hbrings => by
    have hdecides := brings_subset_decides hbrings
    rw [decides_of_aside hop] at hdecides
    cases hdecides⟩

theorem cleared_aside : (cleared settings i jobId).Keeps Aside :=
  keeps_cleared fun op hop => ⟨not_isSelectJob_of_aside hop, fun hfails => by
    have hdecides : jobId ∈ decides op := List.mem_append_left _ hfails
    rw [decides_of_aside hop] at hdecides
    cases hdecides⟩

def finishing (settings : Settings) (i : Caller) : Assertion (rules settings).discipline i :=
  (rules settings).knows i (fun _ past => Finishing i past) fun hji _ h => by
    unfold Finishing
    rwa [since_other hji]

theorem finishing_answered {s s' : World} {past : Past} {op : Op} {o : Outcome PyException (Ans op)}
    (hop : op.isCleanup = false) (hkept : (rules settings).Kept settings i s past op o s')
    (h : Finishing i past) : o.Answered := hkept.meets.answered (h.own hop)

/-- No call fails between the commit and the end of the attempt. -/
theorem calm (op : Op) (hop : op.isCleanup = false) (hdecides : decides op = []) :
    Triple (sure fun _ => finishing settings i) (finishing settings i) (await op) :=
  Rules.ask_rule op (fun _ _ _ _ _ => may_of_decides_nil hdecides) (fun _ _ _ _ _ h => h.own hop)
    fun _ _ _ _ hkept h hnot => hnot (finishing_answered hop hkept h)

theorem publishAfterCommit_calm (job : VideoJob) (metadata : VideoMetadata)
    (frames : List FrameModerationResult) (result : VideoModerationResult)
    (action : Option StorageAction) :
    Triple (sure fun _ => finishing settings i) (finishing settings i)
      (publishAfterCommit settings job metadata frames result action) := by
  refine andThen (calm .now rfl rfl) fun now => ?_
  refine andThen (calm (.writes _) rfl rfl) fun _ => ?_
  refine andThen (calm (.writes _) rfl rfl) fun _ => ?_
  refine andThen (S := fun _ => finishing settings i) ?_ fun _ => calm (.writes _) rfl rfl
  cases action with
  | none => exact give (Entails.refl _)
  | some action => exact andThen (calm .now rfl rfl) fun now => calm (.writes _) rfl rfl

theorem finalStatus_calm (jobId : String) :
    Triple (sure fun _ => finishing settings i) (finishing settings i)
      (RedisQueue.updateStatus jobId .classified none none) := by
  have hreads : ∀ op, Rules.Reads op → op.isCleanup = false := by
    intro op hop
    cases op <;> first | rfl | exact hop.elim
  refine mapOk (fun _ => and_left _ _) (Rules.updateStatus_rule ?_ ?_ (fun _ _ h _ => h) ?_)
  · exact fun op hop _ _ _ _ _ _ _ h => Finishing.own h (hreads op hop)
  · exact fun hop hkept h hnot => hnot (finishing_answered (hreads _ hop) hkept h)
  · intro job _ hstatus
    exact calm (.writes _) rfl (by simp [decides, fails, marks, hstatus, Failed])

/-! ### One attempt -/

/-- Knowledge that an attempt starts with. -/
def opening (settings : Settings) (i : Caller) (jobId : String) : Assertion (rules settings).discipline i :=
  (undecided settings i jobId).and (cleared settings i jobId)

theorem decides_finalTx {job : VideoJob} {frames : List FrameModerationResult}
    {result : VideoModerationResult} {action : Option StorageAction}
    (h : jobId ∈ decides (.commit (finalTx settings job frames result action))) :
    jobId = result.jobId := by
  obtain ⟨write, hwrite, hid⟩ := List.mem_filterMap.mp (show jobId ∈ marks (.commit _) from h)
  cases write with
  | insertFinalResult row =>
    rw [← Option.some.inj hid, (insertFinalResult_mem_finalTx row).mp hwrite]
    rfl
  | markProcessing | markFailed =>
    simp only [finalTx, frameWrites] at hwrite
    split at hwrite <;> simp at hwrite
  | _ => cases hid

theorem decides_hset {key : String} {job : VideoJob} (h : jobId ∈ decides (.writes [.hset key job])) :
    jobId = job.jobId := by
  have hfails := (List.mem_append.mp h).resolve_right List.not_mem_nil
  obtain ⟨command, hmem, hid⟩ := List.mem_filterMap.mp hfails
  obtain rfl := List.mem_singleton.mp hmem
  simp only at hid
  split at hid
  · exact (Option.some.inj hid).symm
  · cases hid

theorem finalCommit_rule {job : VideoJob} {frames : List FrameModerationResult}
    {result : VideoModerationResult} {action : Option StorageAction} (hid : result.jobId = job.jobId) :
    Triple (ends (fun _ => opening settings i job.jobId) fun _ => finishing settings i)
      (opening settings i job.jobId) (commit (finalTx settings job frames result action)) := by
  -- The commit that took effect is the first call to finish with.
  have hfinishing : ∀ past o, Outcome.TookEffect o → Finishing i (⟨i, .commit (finalTx settings job
      frames result action), o⟩ :: past) := by
    intro past o heffect
    have hbrings : result.jobId ∈ brings (.commit (finalTx settings job frames result action)) :=
      mem_brings ((insertFinalResult_mem_finalTx _).mpr rfl)
    have hbrought : brought ⟨i, .commit (finalTx settings job frames result action), o⟩ ≠ [] := by
      rw [brought, if_pos heffect]
      exact List.ne_nil_of_mem hbrings
    refine ⟨_, ?_, hbrought⟩
    rw [since_own rfl]
    exact List.mem_cons_self
  refine andThen (S := fun _ => finishing settings i) (Rules.ask_rule (.commit _) ?_ ?_ ?_) fun _ =>
    give (Entails.refl _)
  · rintro s past - - ⟨hundecided, hcleared⟩
    refine ⟨fun jobId hdecides => ?_, fun jobId hbrings => ?_⟩
    · obtain rfl := (decides_finalTx hdecides).trans hid
      exact hundecided
    · obtain rfl := (decides_finalTx (brings_subset_decides hbrings)).trans hid
      exact hcleared
  · exact fun s past now s' _ _ => hfinishing past _ trivial
  · rintro s past o s' hkept ⟨hundecided, hcleared⟩ hnot
    have hnoeffect : ¬ o.TookEffect := fun heffect =>
      hnot (hkept.meets.answered (hfinishing past o heffect))
    obtain rfl := hkept.does.of_not_tookEffect hnoeffect
    exact ⟨Held.own hundecided rfl id, Held.own hcleared rfl id⟩

/-- Who decides on an undecided job, and brings nothing, keeps to the terms. -/
theorem may_of_undecided {s : World} {past : Past} {op : Op} (hdecides : ∀ id ∈ decides op, id = jobId)
    (hbrings : brings op = []) (hundecided : Held i jobId past (¬ HasResult s jobId)) :
    terms.may i s past op := by
  refine ⟨fun id hid => ?_, fun id hid => ?_⟩
  · obtain rfl := hdecides id hid
    exact hundecided
  · rw [hbrings] at hid
    cases hid

theorem markProcessing_stays (job : VideoJob) :
    Triple (ends (fun _ => opening settings i job.jobId) fun _ => opening settings i job.jobId)
      (opening settings i job.jobId) (commit (markProcessingTx job)) := by
  refine Rules.commit_stays (.and (keeps_undecided ?_) (keeps_cleared ?_)) fun s past h => ?_
  · rintro _ rfl
    exact ⟨rfl, List.not_mem_nil⟩
  · rintro _ rfl
    exact ⟨rfl, List.not_mem_nil⟩
  · exact may_of_undecided (fun id hid => List.mem_singleton.mp hid) rfl h.1

/-- A failure is recorded as long as the job is undecided. -/
theorem recordFailure_stays (job : VideoJob) (exc : PyException) :
    Triple (ends (fun _ => undecided settings i job.jobId) fun _ => undecided settings i job.jobId)
      (undecided settings i job.jobId) ((processor settings).recordFailure job exc) := by
  refine Rules.recordFailure_rule undecided_aside (fun failed hid _ => ?_) fun status code message => ?_
  · refine Rules.stays_rule (K := fun op => op = .writes [.hset (jobKey job.jobId) failed])
      (keeps_undecided ?_) rfl fun s past _ _ hundecided => ?_
    · rintro _ rfl
      exact ⟨rfl, List.not_mem_nil⟩
    · exact may_of_undecided (fun id hmem => (decides_hset hmem).trans hid) rfl hundecided
  · refine Rules.commit_stays (keeps_undecided ?_) fun s past hundecided => ?_
    · rintro _ rfl
      exact ⟨rfl, List.not_mem_nil⟩
    · exact may_of_undecided (fun id hmem => List.mem_singleton.mp hmem) rfl hundecided

theorem attempt_rule (job : VideoJob) :
    Triple (onOk fun _ => .top) (opening settings i job.jobId) ((processor settings).attempt job) := by
  have hkeeps : (opening settings i job.jobId).Keeps Aside := .and undecided_aside cleared_aside
  refine tryCatch (R := ends (fun _ => opening settings i job.jobId) fun _ => .top) ?_
    (fun _ => Entails.refl _) fun exc => ?_
  · refine andThen (Rules.markProcessing_rule hkeeps (markProcessing_stays job)) fun _ => ?_
    exact Rules.processVideo_rule hkeeps keeps_top (fun _ _ _ h => finalCommit_rule h.jobId)
      (fun _ _ _ _ _ => ofSure (publishAfterCommit_calm _ _ _ _ _))
      (ofSure (mapOk (fun _ => entails_top _) (finalStatus_calm _)))
  · refine weaken (and_left _ _) (strengthen (fun r => ?_) (recordFailure_stays job exc))
    cases r <;> exact entails_top _

/-- What the query of the job row says: a job that is not classified has no result. -/
def queriedRow (settings : Settings) (i : Caller) (jobId : String) (persisted : Option VideoJob) :
    Assertion (rules settings).discipline i :=
  if persisted.map (·.status) = some .classified then .top else undecided settings i jobId

theorem queryJob_rule (jobId : String) :
    Triple (onOk (queriedRow settings i jobId)) .top (await (.selectJob jobId)) := by
  refine Rules.ask_rule (.selectJob jobId) ?_ ?_ ?_
  · exact fun _ _ _ _ _ => may_of_decides_nil rfl
  · intro s past persisted s' hkept _
    obtain ⟨hpersisted, rfl⟩ := hkept.does
    rw [queriedRow]
    split
    · trivial
    · next hnot =>
      refine ⟨by simp [lastRead, readBy], .inr ?_⟩
      rintro ⟨row, hrow, rfl⟩
      have hfinal : ResultIsFinal s' := hkept.inv
      rw [hpersisted] at hnot
      exact hnot (hfinal row hrow).1
  · exact fun _ _ _ _ _ _ _ => trivial

/-- The status that an attempt begins with is not a failure. -/
theorem processing_rule (jobId : String) :
    Triple (onOk fun updated => (opening settings i jobId).and (.pure (∀ job, updated = some job →
      job.jobId = jobId))) (undecided settings i jobId)
      (RedisQueue.updateStatus jobId .processing none none) := by
  have hreads : (undecided settings i jobId).Keeps Rules.Reads :=
    undecided_aside.mono fun _ => Rules.aside_of_reads
  refine Rules.updateStatus_rule hreads (Rules.leaves_of_keeps hreads (entails_top _)) ?_ ?_
  · refine fun s past hundecided hnone => ⟨hundecided, hundecided.1, .inr ?_⟩
    rintro ⟨status, hstatus, -⟩
    simp [queueStatus, hnone] at hstatus
  · intro job hid hstatus
    have haside : Aside (.writes [.hset (jobKey jobId) job]) := aside_command (.inr hstatus)
    refine Rules.ask_rule (.writes _) (fun _ _ _ _ _ => may_of_decides_nil (decides_of_aside haside))
      (fun s past _ s' hkept hundecided => ?_) fun _ _ _ _ _ _ _ => trivial
    refine ⟨Rules.still undecided_aside haside hkept hundecided, ?_, .inr ?_⟩
    · exact (lastRead_cons (readBy_of_not rfl)).trans hundecided.1
    · obtain rfl := Does.writes hkept.does trivial
      rintro ⟨found, hfound, hfailed⟩
      have hfound : found = job.status := by
        simpa [queueStatus, Kvrocks.applyAll, Kvrocks.apply, VideoJob.stored, eq_comm] using hfound
      rw [hfound, hstatus] at hfailed
      rcases hfailed with h | h <;> cases h

theorem process_rule (job : VideoJob) :
    Triple (onOk fun _ => .top) (.top : Assertion (rules settings).discipline i)
      ((processor settings).process job) := by
  refine andThen (Rules.getStatusByJobId_rule keeps_top) fun current => ?_
  refine assume fun hcurrent => ?_
  have hcurrentJob : (current.getD job).jobId = job.jobId := by
    cases current with
    | none => rfl
    | some found => exact hcurrent found rfl
  simp only
  split
  · exact give (entails_top _)
  · refine andThen (queryJob_rule job.jobId) fun persisted => ?_
    split
    · refine weaken (entails_top _) (andThen (Rules.updateStatus_rule (Q := .top) keeps_top
        (fun _ _ _ _ => trivial) (fun _ _ _ _ => trivial) fun found _ hstatus => ?_) fun _ =>
          give (entails_top _))
      exact Rules.ask_rule (.writes _) (fun _ _ _ _ _ => may_of_decides_nil (by
        simp [decides, fails, marks, hstatus, Failed])) (fun _ _ _ _ _ _ => trivial)
          fun _ _ _ _ _ _ _ => trivial
    · next hnot =>
      rw [queriedRow, if_neg hnot]
      refine andThen (processing_rule job.jobId) fun updated => assume fun hupdated => ?_
      have hid : (updated.getD (current.getD job)).jobId = job.jobId := by
        cases updated with
        | none => exact hcurrentJob
        | some found => exact hupdated found rfl
      exact hid ▸ attempt_rule (updated.getD (current.getD job))

end

end Finality

/-- Where attempts come one after another and no call fails after a commit, every result is final. -/
theorem result_is_final {settings : Settings} {c : Moment}
    (h : ReachVia (Starts settings) Does (EachCall InTurn) {} c) : ResultIsFinal c.state := by
  refine Rules.inv_of_run (R := Finality.rules settings) (P := fun _ => .top) ?_ (fun _ => keeps_top)
    (fun _ => entails_top _) (fun i job => (Finality.process_rule job).strengthen fun r => ?_) h
  · exact fun _ h => absurd h List.not_mem_nil
  · cases r <;> exact entails_top _

/-- An attempt fails at the probe and is recorded. The next one classifies the job, and a third one
finds it classified. -/
def oneAfterAnother : Script :=
  enqueueScript {} ++ startAttempt {} 0 :: calls (.attempt 0) 10 clean ++
    breaks (.attempt 0) :: calls (.attempt 0) 6 clean ++ startAttempt {} 1 ::
      calls (.attempt 1) 26 clean ++ startAttempt {} 2 :: calls (.attempt 2) 1 clean

theorem legal_oneAfterAnother : ∀ t ∈ oneAfterAnother, t.Legal (Starts {}) := by
  refine List.forall_mem_append.mpr ⟨List.forall_mem_append.mpr ⟨legal_brokenAttempt, ?_⟩, ?_⟩
  · exact legal_thenCalls legal_startAttempt
  · exact legal_thenCalls legal_startAttempt

theorem result_is_final_clean : ∃ c, ReachVia (Starts {}) Does (EachCall InTurn) {} c ∧
    HasResult c.state "job" ∧ ResultIsFinal c.state := by
  obtain ⟨c, hrun, hp⟩ : ∃ c, ReachVia (Starts {}) Does (EachCall InTurn) {} c ∧
      decide (HasResult c.state "job") = true :=
    run_of_script legal_oneAfterAnother (by decide +kernel)
  exact ⟨c, hrun, of_decide_eq_true hp, result_is_final hrun⟩

/-- The commit goes through, and then a push raises: the handler records a retryable failure. -/
def lateFailure (settings : Settings) : Script :=
  enqueueScript settings ++ startAttempt settings 0 :: calls (.attempt 0) 19 clean ++
    breaks (.attempt 0) :: calls (.attempt 0) 6 clean

theorem legal_lateFailure (settings : Settings) :
    ∀ t ∈ lateFailure settings, t.Legal (Starts settings) := legal_brokenAttempt

/-- A failed push takes a classified job back in both stores. -/
theorem late_failure_declassifies : ∃ c, Reachable {} c ∧ HasResult c.state "job" ∧
    jobStatus c.state "job" = some .failedRetryable ∧
    queueStatus c.state "job" = some .failedRetryable ∧ ¬ ResultIsFinal c.state := by
  obtain ⟨c, hreach, hp⟩ := reach_of_script (legal_lateFailure {}) (p := fun c => HasResult c.state "job" ∧
      jobStatus c.state "job" = some .failedRetryable ∧
      queueStatus c.state "job" = some .failedRetryable ∧ ¬ ResultIsFinal c.state) (by decide +kernel)
  exact ⟨c, hreach, of_decide_eq_true hp⟩

/-- Both attempts find the job unclassified. The second one starts its work when the first one has
committed. -/
def overlap : Script :=
  enqueueScript {} ++ startAttempt {} 0 :: calls (.attempt 0) 2 clean ++
    startAttempt {} 1 :: calls (.attempt 1) 2 clean ++
      calls (.attempt 0) 24 clean ++ calls (.attempt 1) 6 clean

theorem legal_overlap : ∀ t ∈ overlap, t.Legal (Starts {}) := by
  simp only [overlap, List.forall_mem_append]
  exact ⟨⟨⟨⟨legal_enqueue, legal_thenCalls legal_startAttempt⟩, legal_thenCalls legal_startAttempt⟩,
    legal_calls⟩, legal_calls⟩

/-- No call fails, and yet the mark of the second attempt takes the job back. -/
theorem overlap_declassifies : ∃ c, Reachable {} c ∧ (∀ e ∈ c.history, e.outcome.Answered) ∧
    HasResult c.state "job" ∧ jobStatus c.state "job" = some .processing := by
  obtain ⟨c, hreach, hp⟩ := reach_of_script legal_overlap (p := fun c =>
    (∀ e ∈ c.history, e.outcome.Answered) ∧ HasResult c.state "job" ∧
      jobStatus c.state "job" = some .processing) (by decide +kernel)
  exact ⟨c, hreach, of_decide_eq_true hp⟩

end NsfwDetector.Publication
