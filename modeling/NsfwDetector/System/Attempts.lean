import NsfwDetector.Effects.Environment
import NsfwDetector.System.Footprint
import NsfwDetector.System.Publishing
import NsfwDetector.System.Transactions

/-!
# One worker alone, over Kvrocks and Postgres

The pipeline may fail wherever it calls out, up to its commit. The calls on the state of the job do
not fail. One spec per function, from the single call up to one `process`.
-/

namespace NsfwDetector.Attempts

open Effects Prog

/-! ## The environment -/

/-- A write on the state of a job, not on the results of the pipeline. -/
def OfStatus : Write → Prop
  | .insertVideoJobOrNothing _ | .markProcessing _ | .markFailed .. => True
  | _ => False

/-- The queue and the transactions on the state of a job do not fail, and no reply of a commit is
lost. -/
def StatusCallsSucceed (op : Op) (o : Outcome PyException (Ans op)) : Prop :=
  match op with
  | .hgetall _ | .get _ | .writes _ | .selectJob _ => ¬ o.Faulty
  | .execute _ write => OfStatus write → ¬ o.Faulty
  | .commit tx => o.Faulty → ¬ o.TookEffect ∧ ∃ write ∈ tx, ¬ OfStatus write
  | _ => True

def OffQueue : Op → Prop
  | .writes _ | .xgroupCreate | .xreadgroup _ => False
  | _ => True

def ReadOnly : Op → Prop
  | .commit _ => False
  | op => OffQueue op

/-- The hash of the job holds `job`. -/
def saved (w : World) (jobId : String) (job : VideoJob) : World :=
  { w with kv := w.kv.apply (.hset (jobKey jobId) job) }

@[simp] theorem saved_db (w : World) (jobId : String) (job : VideoJob) : (saved w jobId job).db = w.db := rfl

@[simp] theorem saved_hashes (w : World) (jobId : String) (job : VideoJob) :
    (saved w jobId job).kv.hashes (jobKey jobId) = some job.stored := Function.update_self ..

/-- A job is kept under its own key. -/
def Keyed (w : World) : Prop :=
  ∀ jobId job, w.kv.hashes (jobKey jobId) = some job → job.jobId = jobId

theorem keyed_of_reachable {settings : Settings} {c : Moment} (h : Reachable settings c) : Keyed c.state :=
  fun _ _ hjob => (jobKey_injective ((Publication.consistent h).keys _ _ hjob).1).symm

theorem saved_hashes_of_ne {jobId other : String} (h : other ≠ jobId) (w : World) (job : VideoJob) :
    (saved w jobId job).kv.hashes (jobKey other) = w.kv.hashes (jobKey other) :=
  Function.update_of_ne (jobKey_injective.ne h) ..

/-- The stores, and the rest of what the environment knows. -/
abbrev Surrounding (ν : Type) := Environment (World × ν) Ans PyException

variable {ν : Type} {env : Surrounding ν} {i : Caller} {settings : Settings} {s : World × ν}

section Calls

variable (henv : env.Obeys Does i StatusCallsSucceed)

include henv

theorem answered (op : Op) (s : World × ν) (hfaultless : ∀ o, StatusCallsSucceed op o → ¬ o.Faulty)
    (hallowed : ∀ e, ¬ Refuses s.1 op e) :
    ∃ b s', env s op = (.ok b, s') ∧ Answers i s.1 op b s'.1 := by
  obtain ⟨o, hdoes, hseen, hsucceeds⟩ := henv s op
  cases o with
  | answered b => exact ⟨b, (env s op).2, Prod.ext hseen rfl, hdoes⟩
  | refused e => exact absurd hdoes.1 (hallowed e)
  | failed e | lost b e => exact absurd trivial (hfaultless _ hsucceeds)

theorem now_run (s : World × ν) : ∃ now s', env s .now = (.ok now, s') ∧ s'.1 = s.1 := by
  obtain ⟨o, hdoes, hseen, -⟩ := henv s .now
  cases o with
  | answered b => exact ⟨b, (env s .now).2, Prod.ext hseen rfl, hdoes⟩
  | refused e => exact hdoes.1.elim
  | failed e | lost b e => exact hdoes.1.1.elim

theorem hgetall_run (s : World × ν) (key : String) :
    ∃ s', env s (.hgetall key) = (.ok (s.1.kv.hashes key), s') ∧ s'.1 = s.1 := by
  obtain ⟨b, s', hrun, rfl, hs⟩ := answered henv (.hgetall key) s (fun _ h => h) fun _ h => h
  exact ⟨s', hrun, hs⟩

theorem writes_run (s : World × ν) (commands : List Command) :
    ∃ s', env s (.writes commands) = (.ok (), s') ∧
      s'.1 = { s.1 with kv := s.1.kv.applyAll commands } := by
  obtain ⟨b, s', hrun, hs⟩ := answered henv (.writes commands) s (fun _ h => h) fun _ h => h
  exact ⟨s', hrun, hs⟩

theorem selectJob_run (s : World × ν) (jobId : String) :
    ∃ s', env s (.selectJob jobId) = (.ok (s.1.db.job? jobId), s') ∧ s'.1 = s.1 := by
  obtain ⟨b, s', hrun, rfl, hs⟩ := answered henv (.selectJob jobId) s (fun _ h => h) fun _ h => h
  exact ⟨s', hrun, hs⟩

/-- A statement on the state of a job, where no rule of the server forbids it. -/
theorem execute_run (s : World × ν) (tx : List Write) (write : Write) (hstatus : OfStatus write)
    (hdb : ∀ now, ∃ db, s.1.db.applyAll now (tx ++ [write]) = .ok db) :
    ∃ s', (execute tx write).runIn env s = (.ok (tx ++ [write]), s') ∧ s'.1 = s.1 := by
  obtain ⟨b, s', hrun, -, hs⟩ := answered henv (.execute tx write) s (fun _ h => h hstatus)
    fun e ⟨now, he⟩ => by
      obtain ⟨db, hdb⟩ := hdb now
      cases hdb.symm.trans he
  refine ⟨s', ?_, hs⟩
  rw [execute, runIn_perform_bind hrun]
  rfl

theorem commit_run (s : World × ν) {tx : List Write} (hstatus : ∀ write ∈ tx, OfStatus write)
    (hdb : ∀ now, ∃ db, s.1.db.applyAll now tx = .ok db) :
    ∃ now db s', (commit tx).runIn env s = (.ok (), s') ∧ s.1.db.applyAll now tx = .ok db ∧
      s'.1 = { s.1 with db := db } := by
  obtain ⟨now, s', hrun, db, hdb', hs⟩ := answered henv (.commit tx) s
    (fun o h hfaulty => by
      obtain ⟨-, write, hw, hnot⟩ := h hfaulty
      exact hnot (hstatus write hw))
    fun e ⟨now, he⟩ => by
      obtain ⟨db, hdb⟩ := hdb now
      cases hdb.symm.trans he
  refine ⟨now, db, s', ?_, hdb', hs⟩
  rw [commit, runIn_perform_bind hrun]
  rfl

/-! ## The two stores of the state -/

theorem getStatusByJobId_run (settings : Settings) (s : World × ν) (jobId : String) :
    ∃ s', ((RedisQueue.service settings).getStatusByJobId jobId).runIn env s =
      (.ok (s.1.kv.hashes (jobKey jobId)), s') ∧ s'.1 = s.1 := by
  obtain ⟨s', hrun, hs⟩ := hgetall_run henv s (jobKey jobId)
  obtain ⟨rest, hrest⟩ := readWithPoolRetry_eq settings (RedisQueue.getJobById jobId)
  refine ⟨s', ?_, hs⟩
  have hread : (RedisQueue.service settings).getStatusByJobId jobId = _ := hrest
  rw [hread]
  exact runIn_tryCatch_ok hrun

theorem updateStatus_run (settings : Settings) {jobId : String} {job : VideoJob}
    (h : s.1.kv.hashes (jobKey jobId) = some job) (status : VideoJobStatus)
    (code message : Option String) :
    ∃ now s', ((RedisQueue.service settings).updateStatus jobId status code message).runIn env s =
        (.ok (some (job.withStatus status code message now)), s') ∧
      s'.1 = saved s.1 jobId (job.withStatus status code message now) := by
  obtain ⟨s₁, hget, hs₁⟩ := hgetall_run henv s (jobKey jobId)
  obtain ⟨now, s₂, hnow, hs₂⟩ := now_run henv s₁
  obtain ⟨s₃, hset, hs₃⟩ :=
    writes_run henv s₂ [.hset (jobKey jobId) (job.withStatus status code message now)]
  refine ⟨now, s₃, ?_, ?_⟩
  · rw [QueueService.updateStatus]
    simp only [RedisQueue.service, RedisQueue.repository, RedisQueue.updateStatus,
      RedisQueue.getJobById]
    rw [runIn_perform_bind hget, h]
    simp only
    rw [runIn_perform_bind hnow, runIn_perform_bind hset]
    rfl
  · rw [hs₃, hs₂, hs₁]
    rfl

theorem transaction_run (s : World × ν) (tx : List Write) (write : Write)
    (hstatus : ∀ w ∈ tx ++ [write], OfStatus w)
    (hdb : ∀ now, ∃ db, s.1.db.applyAll now (tx ++ [write]) = .ok db) :
    ∃ now db s', (execute tx write >>= commit).runIn env s = (.ok (), s') ∧
      s.1.db.applyAll now (tx ++ [write]) = .ok db ∧ s'.1 = { s.1 with db := db } := by
  obtain ⟨s₁, hexecute, hs₁⟩ := execute_run henv s tx write
    (hstatus write (List.mem_append_right _ List.mem_cons_self)) hdb
  obtain ⟨now, db, s₂, hcommit, hdb', hs₂⟩ := commit_run henv s₁ hstatus (hs₁ ▸ hdb)
  refine ⟨now, db, s₂, ?_, hs₁ ▸ hdb', hs₁ ▸ hs₂⟩
  rw [runIn_bind_ok hexecute, hcommit]

theorem markFailed_run (s : World × ν) (jobId code message : String) {status : VideoJobStatus}
    (hstatus : status = .failedRetryable ∨ status = .failedTerminal) :
    ∃ now s', (PostgresJobState.markFailed jobId status code message).runIn env s = (.ok (), s') ∧
      s'.1 = { s.1 with db := s.1.db.updateJob jobId (Db.failedRow status code message now) } := by
  obtain ⟨now, db, s', hrun, hdb, hs⟩ := transaction_run henv s []
    (.markFailed jobId status code message)
    (fun write hw => List.mem_singleton.mp hw ▸ trivial) fun now => ⟨_, rfl⟩
  refine ⟨now, s', ?_, Except.ok.inj hdb ▸ hs⟩
  rw [PostgresJobState.markFailed, if_neg fun h => hstatus.elim h.1 h.2]
  exact hrun

theorem markProcessing_run (s : World × ν) {job : VideoJob} (hcreated : job.createdAt ≠ none)
    (hupdated : job.updatedAt ≠ none) :
    ∃ now db s', (PostgresJobState.markProcessing job).runIn env s = (.ok (), s') ∧
      s.1.db.applyAll now (markProcessingTx job) = .ok db ∧ s'.1 = { s.1 with db := db } := by
  have hdb : ∀ now, ∃ db, s.1.db.applyAll now (markProcessingTx job) = .ok db :=
    fun now => markProcessingTx_applies hcreated hupdated
  obtain ⟨s₁, hexecute, hs₁⟩ := execute_run henv s []
    (.insertVideoJobOrNothing job.inserted) trivial fun now => by
      obtain ⟨db, hdb⟩ := hdb now
      obtain ⟨c, hc, -⟩ := Db.applyAll_cons_ok.mp hdb
      exact ⟨c, Db.applyAll_cons_ok.mpr ⟨c, hc, rfl⟩⟩
  obtain ⟨now, db, s₂, hrun, hdb', hs₂⟩ := transaction_run henv s₁
    [.insertVideoJobOrNothing job.inserted] (.markProcessing job.jobId)
    (fun write hw => by
      rcases List.mem_cons.mp hw with rfl | hw
      · trivial
      · exact List.mem_singleton.mp hw ▸ trivial)
    (hs₁ ▸ hdb)
  refine ⟨now, db, s₂, ?_, hs₁ ▸ hdb', hs₁ ▸ hs₂⟩
  rw [PostgresJobState.markProcessing, runIn_bind_ok hexecute]
  exact hrun

/-! ## Programs that change no store -/

omit henv in
theorem readOnly_of_local {op : Op} (h : op.Local) : ReadOnly op := by
  cases op with
  | now | downloadVideo | probe | ffmpeg | moderateImages => trivial
  | _ => exact h.elim

theorem readOnly_call {op : Op} (hop : ReadOnly op) (s : World × ν) : (env s op).2.1 = s.1 := by
  obtain ⟨o, hdoes, -⟩ := henv s op
  generalize (env s op).2.1 = w at hdoes ⊢
  cases hdoes.change with
  | nothing => rfl
  | writes | commit | group | read => exact hop.elim

theorem readOnly_run {α : Type} {p : Code α} {φ : α → Prop} (hp : p.Within ReadOnly φ) (s : World × ν) :
    (p.runIn env s).2.1 = s.1 ∧ ∀ a, (p.runIn env s).1 = .ok a → φ a :=
  hp.keeps (I := fun t : World × ν => t.1 = s.1) (fun t _ hop ht => (readOnly_call henv hop t).trans ht)
    s rfl

theorem offQueue_run {α : Type} {p : Code α} {φ : α → Prop} (hp : p.Within OffQueue φ) (s : World × ν) :
    (p.runIn env s).2.1.kv = s.1.kv := by
  refine (hp.keeps (I := fun t : World × ν => t.1.kv = s.1.kv) (fun t op hop ht => ?_) s rfl).1
  obtain ⟨o, hdoes, -⟩ := henv t op
  generalize (env t op).2.1 = w at hdoes ⊢
  cases hdoes.change with
  | nothing | commit => exact ht
  | writes | group | read => exact hop.elim

/-- Up to its verdict the pipeline leaves the stores alone. -/
theorem classify_run (settings : Settings) (job : VideoJob) (s : World × ν) :
    ((classify settings job).runIn env s).2.1 = s.1 ∧
      ∀ v, ((classify settings job).runIn env s).1 = .ok v → Classification settings job v :=
  readOnly_run henv ((classify_within settings job).mono (fun _ => readOnly_of_local) fun _ h => h) s

theorem cleanupDir_run (s : World × ν) (jobId : String) :
    ∃ s', env s (.cleanupDir jobId) = (.ok (), s') ∧ s'.1 = s.1 := by
  obtain ⟨o, hdoes, hseen, -⟩ := henv s (.cleanupDir jobId)
  cases o with
  | answered b => exact ⟨(env s (.cleanupDir jobId)).2, Prod.ext hseen rfl, hdoes⟩
  | refused e => exact hdoes.1.elim
  | failed e | lost b e => exact hdoes.1.1.elim

/-! ## The failure of an attempt -/

theorem recordFailure_run (settings : Settings) (exc : PyException) {job : VideoJob} {old : VideoJob}
    (hjob : s.1.kv.hashes (jobKey job.jobId) = some old) :
    ∃ now now' s',
      ((processor settings).recordFailure job exc).runIn env s = (.error (.videoJobProcessingError
        (classifyProcessingError exc job.attempts settings.queueMaxAttempts)), s') ∧
      s'.1 = saved
        ⟨s.1.kv, s.1.db.updateJob job.jobId (Db.failedRow
          (classifyProcessingError exc job.attempts settings.queueMaxAttempts).status
          (errorCode exc) (errorMessage exc) now')⟩
        job.jobId (old.withStatus
          (classifyProcessingError exc job.attempts settings.queueMaxAttempts).status
          (some (errorCode exc)) (some (errorMessage exc)) now) := by
  obtain ⟨now, s₁, hupdate, hs₁⟩ := updateStatus_run henv settings hjob
    (classifyProcessingError exc job.attempts settings.queueMaxAttempts).status
    (some (errorCode exc)) (some (errorMessage exc))
  have hfailed : (classifyProcessingError exc job.attempts settings.queueMaxAttempts).status =
      .failedRetryable ∨
      (classifyProcessingError exc job.attempts settings.queueMaxAttempts).status = .failedTerminal := by
    cases h : (classifyProcessingError exc job.attempts settings.queueMaxAttempts).retryable with
    | true => exact .inl (classifyProcessingError_retryable _ _ _ h).1
    | false => exact .inr (classifyProcessingError_terminal _ _ _ h)
  obtain ⟨now', s₂, hmark, hs₂⟩ := markFailed_run henv s₁ job.jobId (errorCode exc) (errorMessage exc)
    hfailed
  refine ⟨now, now', s₂, ?_, ?_⟩
  · rw [VideoJobProcessor.recordFailure]
    refine (runIn_bind_ok hupdate).trans ((runIn_bind_ok hmark).trans rfl)
  · rw [hs₂, hs₁]
    rfl

end Calls

/-! ## One `process` -/

/-- The part of `process` before its `try`: the job to process, if there is one. -/
def entered (settings : Settings) (job : VideoJob) : Code (Option VideoJob) := do
  let current ← (RedisQueue.service settings).getStatusByJobId job.jobId
  let currentJob := current.getD job
  if currentJob.status.Terminal then pure none
  else
    let persistedJob ← PostgresJobState.getByJobId job.jobId
    if persistedJob.map (·.status) = some .classified then
      let _ ← (RedisQueue.service settings).updateStatus job.jobId .classified
      pure none
    else
      let updated ← (RedisQueue.service settings).updateStatus job.jobId .processing
      pure (some (updated.getD currentJob))

theorem process_run (settings : Settings) (job : VideoJob) (s : World × ν) :
    ((processor settings).process job).runIn env s =
      (entered settings job >>= fun processingJob =>
        match processingJob with
        | none => pure ()
        | some processingJob => (processor settings).attempt processingJob).runIn env s := by
  simp only [VideoJobProcessor.process, entered, processor, PostgresJobState.repository, runIn_bind]
  cases ((RedisQueue.service settings).getStatusByJobId job.jobId).runIn env s with
  | mk current s₁ =>
    cases current with
    | error e => rfl
    | ok current =>
      simp only
      split
      · rfl
      · simp only [runIn_bind]
        cases (PostgresJobState.getByJobId job.jobId).runIn env s₁ with
        | mk persisted s₂ =>
          cases persisted with
          | error e => rfl
          | ok persisted =>
            simp only
            split
            · simp only [runIn_bind]
              cases ((RedisQueue.service settings).updateStatus job.jobId .classified).runIn env s₂ with
              | mk updated s₃ => cases updated <;> rfl
            · simp only [runIn_bind]
              cases ((RedisQueue.service settings).updateStatus job.jobId .processing).runIn env s₂ with
              | mk updated s₃ => cases updated <;> rfl

section

variable (henv : env.Obeys Does i StatusCallsSucceed)

include henv

/-- The three ways through the part before the `try`. -/
theorem entered_run (settings : Settings) {job old : VideoJob} {s : World × ν}
    (hold : s.1.kv.hashes (jobKey job.jobId) = some old) :
    ∃ r s', (entered settings job).runIn env s = (.ok r, s') ∧
      ((old.status.Terminal ∧ r = none ∧ s'.1 = s.1) ∨
        (¬ old.status.Terminal ∧ (s.1.db.job? job.jobId).map (·.status) = some .classified ∧ r = none ∧
          ∃ now, s'.1 = saved s.1 job.jobId (old.withStatus .classified none none now)) ∨
        (¬ old.status.Terminal ∧ (s.1.db.job? job.jobId).map (·.status) ≠ some .classified ∧
          ∃ now, r = some (old.withStatus .processing none none now) ∧
            s'.1 = saved s.1 job.jobId (old.withStatus .processing none none now))) := by
  obtain ⟨s₁, hread, hs₁⟩ := getStatusByJobId_run henv settings s job.jobId
  obtain ⟨s₂, hselect, hs₂⟩ := selectJob_run henv s₁ job.jobId
  have hold₂ : s₂.1.kv.hashes (jobKey job.jobId) = some old := by rw [hs₂, hs₁, hold]
  rw [entered, runIn_bind_ok hread, hold]
  simp only [Option.getD_some]
  by_cases hterminal : old.status.Terminal
  · rw [if_pos hterminal]
    exact ⟨none, s₁, rfl, .inl ⟨hterminal, rfl, hs₁⟩⟩
  · rw [if_neg hterminal, PostgresJobState.getByJobId, runIn_perform_bind hselect, hs₁]
    by_cases hclassified : (s.1.db.job? job.jobId).map (·.status) = some .classified
    · obtain ⟨now, s₃, hupdate, hs₃⟩ :=
        updateStatus_run henv settings hold₂ .classified none none
      rw [if_pos hclassified, runIn_bind_ok hupdate]
      exact ⟨none, s₃, rfl, .inr (.inl ⟨hterminal, hclassified, rfl, now, by rw [hs₃, hs₂, hs₁]⟩)⟩
    · obtain ⟨now, s₃, hupdate, hs₃⟩ :=
        updateStatus_run henv settings hold₂ .processing none none
      rw [if_neg hclassified, runIn_bind_ok hupdate]
      exact ⟨_, s₃, rfl, .inr (.inr ⟨hterminal, hclassified, now, rfl, by rw [hs₃, hs₂, hs₁]⟩)⟩

end

/-! ## An environment that computes -/

theorem keyed_of_one_job {w : World} (job : VideoJob)
    (h : w.kv.hashes = Function.update (fun _ => none) (jobKey job.jobId) (some job.stored)) : Keyed w := by
  intro jobId found hfound
  rw [h, Function.update_apply] at hfound
  split at hfound
  · next hkey =>
    obtain rfl := Option.some.inj hfound
    exact (jobKey_injective hkey).symm
  · cases hfound

/-- What the outside world answers: as many frames as asked for, all of them like `template`. -/
def outsideOf (template : FrameModerationOutput) : Op → Outside
  | .moderateImages imagePaths =>
    { outputs := (List.range imagePaths.length).map fun index => { template with frameIndex := index } }
  | _ => {}

/-- Every call is answered, but for those that `fails` picks, once `n` attempts have begun. -/
def serving (template : FrameModerationOutput) (fails : Nat → Op → Option PyException) :
    Surrounding Nat := fun (w, n) op =>
  let choice := match fails n op with
    | some e => .fail e
    | none => .reply (outsideOf template op)
  let begun := match op with
    | .prepareJobDir _ => n + 1
    | _ => n
  match choose (.worker 0) w op choice with
  | some (o, w') => (o.seen, w', begun)
  | none => (.error (.runtimeError "no answer"), w, begun)

theorem choose_reply {template : FrameModerationOutput} {w : World} {op : Op}
    (h : choose (.worker 0) w op (.reply (outsideOf template op)) = none) :
    ∃ videoId, op = .selectLatestResult videoId := by
  simp only [choose] at h
  split at h
  · cases h
  · next hrefusal =>
    have hanswer : answer (outsideOf template op) (.worker 0) w op = none := by simpa using h
    cases op with
    | selectLatestResult videoId => exact ⟨videoId, rfl⟩
    | xgroupCreate | xreadgroup =>
      simp only [refusal, answer] at hrefusal hanswer
      split at hrefusal <;> simp_all
    | execute | commit =>
      simp only [refusal, answer, outsideOf] at hrefusal hanswer
      split at hrefusal
      · next hdb => simp [hdb] at hanswer
      · cases hrefusal
    | moderateImages => simp [answer, outsideOf, Function.comp_def] at hanswer
    | uuid4 =>
      have huuid : ':' ∉ (outsideOf template .uuid4).uuid.toList := by
        simp only [outsideOf]
        decide
      rw [answer, if_pos huuid] at hanswer
      cases hanswer
    | _ => cases hanswer

theorem not_faulty_of_reply {outside : Outside} {w w' : World} {op : Op} {o : Outcome PyException (Ans op)}
    (h : choose i w op (.reply outside) = some (o, w')) : ¬ o.Faulty := by
  simp only [choose] at h
  split at h
  · obtain ⟨rfl, -⟩ := Prod.mk.inj (Option.some.inj h)
    exact id
  · obtain ⟨⟨b, t⟩, -, hanswer⟩ := Option.map_eq_some_iff.mp h
    obtain ⟨rfl, -⟩ := Prod.mk.inj hanswer
    exact id

theorem statusCallsSucceed_of_not_faulty {op : Op} {o : Outcome PyException (Ans op)} (h : ¬ o.Faulty) :
    StatusCallsSucceed op o := by
  cases op with
  | hgetall | get | writes | selectJob => exact h
  | execute => exact fun _ => h
  | commit => exact fun hfaulty => absurd hfaulty h
  | _ => trivial

theorem serving_obeys (template : FrameModerationOutput) {fails : Nat → Op → Option PyException}
    (hfails : ∀ n op e, fails n op = some e → op.MayRaise e ∧ StatusCallsSucceed op (.failed e)) :
    (serving template fails).Obeys Does (.worker 0) StatusCallsSucceed := by
  rintro ⟨w, n⟩ op
  simp only [serving]
  cases hfail : fails n op with
  | some e =>
    obtain ⟨hmay, hsucceed⟩ := hfails n op e hfail
    have hchoose : choose (.worker 0) w op (.fail e) = some (.failed e, w) := if_pos hmay
    simp only [hchoose]
    exact ⟨.failed e, ⟨hmay, rfl⟩, rfl, hsucceed⟩
  | none =>
    cases hchoose : choose (.worker 0) w op (.reply (outsideOf template op)) with
    | some r =>
      obtain ⟨o, w'⟩ := r
      exact ⟨o, choose_within _ _ _ _ _ _ hchoose, rfl,
        statusCallsSucceed_of_not_faulty (not_faulty_of_reply hchoose)⟩
    | none =>
      obtain ⟨videoId, rfl⟩ := choose_reply hchoose
      exact ⟨.failed (.runtimeError "no answer"), ⟨⟨trivial, trivial⟩, rfl⟩, rfl, trivial⟩

end NsfwDetector.Attempts
