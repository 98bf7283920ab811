import NsfwDetector.System.Publishing

/-!
# What holds in every run

The order of move, commit and publication, and what a `CLASSIFIED` status stands for. All of it
is read off the rules of publication, one permitted call at a time.
-/

namespace NsfwDetector.Publication

open Effects

variable {settings : Settings} {cond : StepCond Caller World Ans PyException Reply} {c c' : Moment}

/-! ## The past explains the stores -/

theorem committed_there (h : ReachVia (Starts settings) Does cond {} c) {e : Call}
    (he : e ∈ c.history) {tx : List Write} (hcommit : Committed tx e) :
    (∀ row, .insertFinalResult row ∈ tx → row ∈ c.state.db.results) ∧
      ∀ action, .insertStorageAction action ∈ tx → action ∈ c.state.db.actions := by
  refine always (R := fun s past => ∀ e ∈ past, ∀ tx, Committed tx e →
    (∀ row, .insertFinalResult row ∈ tx → row ∈ s.db.results) ∧
      ∀ action, .insertStorageAction action ∈ tx → action ∈ s.db.actions) ?_ ?_ h e he tx hcommit
  · exact fun _ h => absurd h List.not_mem_nil
  · intro s past i op o s' _ _ hdoes hR e he tx hcommit
    rcases List.mem_cons.mp he with rfl | he
    · obtain ⟨hop, heffect⟩ := hcommit
      simp only at hop heffect
      subst hop
      obtain ⟨now, db, hdb, rfl⟩ := Does.commit hdoes heffect
      exact ⟨fun row hrow => (Db.mem_results hdb row).mpr (.inr hrow),
        fun action ha => (Db.mem_actions hdb action).mpr (.inr ha)⟩
    · obtain ⟨hresults, hactions⟩ := hR e he tx hcommit
      refine ⟨fun row hrow => hdoes.results (hresults row hrow), fun action ha => ?_⟩
      cases hdoes.change with
      | nothing | writes | group | read => exact hactions action ha
      | commit _ hdb => exact (Db.mem_actions hdb action).mpr (.inl (hactions action ha))

/-- The commit that brought a result row, and what its caller knew. -/
structure CommittedBy (settings : Settings) (row : VideoResultRow) (e : Call) (earlier : Past) :
    Prop where
  commit : ∃ job frames result action, Committed (finalTx settings job frames result action) e ∧
    row = videoResultToRow result ∧ FinalWrites settings e.caller earlier job result action

theorem result_committed (h : ReachVia (Starts settings) Does cond {} c) {row : VideoResultRow}
    (hrow : row ∈ c.state.db.results) :
    ∃ later e earlier, c.history = later ++ e :: earlier ∧ CommittedBy settings row e earlier := by
  refine always (R := fun s past => ∀ row ∈ s.db.results, ∃ later e earlier,
    past = later ++ e :: earlier ∧ CommittedBy settings row e earlier) ?_ ?_ h row hrow
  · exact fun _ h => absurd h List.not_mem_nil
  · intro s past i op o s' _ hmay hdoes hR row hrow
    have hold : row ∈ s.db.results → ∃ later e earlier, (⟨i, op, o⟩ :: past : Past) =
        later ++ e :: earlier ∧ CommittedBy settings row e earlier := by
      intro hin
      obtain ⟨later, e, earlier, rfl, hby⟩ := hR row hin
      exact ⟨_ :: later, e, earlier, rfl, hby⟩
    cases hdoes.change with
    | nothing | writes | group | read => exact hold hrow
    | @commit tx o now db heffect hdb =>
      rcases (Db.mem_results hdb row).mp hrow with hin | hnew
      · exact hold hin
      · cases hmay with
        | processing job => simp [markProcessingTx] at hnew
        | failed => simp at hnew
        | @final job frames result action hw =>
          refine ⟨[], _, past, rfl, job, frames, result, action, ⟨rfl, heffect⟩, ?_, hw⟩
          exact (insertFinalResult_mem_finalTx row).mp hnew

theorem unique_results (h : ReachVia (Starts settings) Does cond {} c) : c.state.db.UniqueResults := by
  refine always (R := fun s _ => s.db.UniqueResults) ?_ ?_ h
  · exact fun _ h => absurd h List.not_mem_nil
  · intro s past i op o s' _ _ hdoes hR
    cases hdoes.change with
    | nothing | writes | group | read => exact hR
    | commit _ hdb => exact Db.applyAll_unique hdb hR

/-! ## Publications -/

/-- The commands that bring a row or a value to the outside. -/
def Publishes : Command → Prop
  | .rpush _ _ | .setRuntime _ _ => True
  | _ => False

/-- Each call of a run was permitted in view of the calls before it. -/
theorem permitted_at (h : ReachVia (Starts settings) Does cond {} c) {later earlier : Past} {e : Call}
    (hsplit : c.history = later ++ e :: earlier) : ∃ s, May settings e.caller s earlier e.op := by
  refine always (R := fun _ past => ∀ later e earlier, past = later ++ e :: earlier →
    ∃ s, May settings e.caller s earlier e.op) ?_ ?_ h later e earlier hsplit
  · intro later e earlier hsplit
    simp at hsplit
  · intro s past i op o s' _ hmay _ hR later e earlier hsplit
    cases later with
    | nil =>
      obtain ⟨rfl, rfl⟩ := List.cons.inj hsplit
      exact ⟨s, hmay⟩
    | cons x later => exact hR later e earlier (List.cons.inj hsplit).2

theorem jobId_of_txOk {i : Caller} {past : Past} {job : VideoJob} {frames : List FrameModerationResult}
    {result : VideoModerationResult} {action : Option StorageAction}
    (h : TxOk settings i past (finalTx settings job frames result action)) :
    result.jobId = job.jobId := by
  have hrow : .insertFinalResult (videoResultToRow result) ∈ finalTx settings job frames result action :=
    (insertFinalResult_mem_finalTx _).mpr rfl
  have hmark : .markClassified job.jobId ∈ finalTx settings job frames result action :=
    (markClassified_mem_finalTx _).mpr rfl
  generalize finalTx settings job frames result action = tx at h hrow hmark
  cases h with
  | processing => simp [markProcessingTx] at hrow
  | failed => simp at hrow
  | @final job' frames' result' action' hwrites =>
    have hid : result.jobId = result'.jobId :=
      congrArg VideoResultRow.jobId ((insertFinalResult_mem_finalTx _).mp hrow)
    rw [hid, (markClassified_mem_finalTx _).mp hmark, hwrites.jobId]

/-- A final transaction marks the job that its result is about. -/
theorem jobId_of_committed (h : ReachVia (Starts settings) Does cond {} c) {e : Call} (he : e ∈ c.history)
    {job : VideoJob} {frames : List FrameModerationResult} {result : VideoModerationResult}
    {action : Option StorageAction} (hcommit : Committed (finalTx settings job frames result action) e) :
    result.jobId = job.jobId := by
  obtain ⟨later, earlier, hsplit⟩ := List.append_of_mem he
  obtain ⟨s, hmay⟩ := permitted_at h hsplit
  rw [hcommit.1] at hmay
  exact jobId_of_txOk hmay

/-- `e` published `command`, which follows from the result `row` that the attempt of `e` had
committed before. -/
def PublishedFrom (settings : Settings) (past : Past) (e : Call) (command : Command)
    (row : VideoResultRow) : Prop :=
  ∃ later earlier, past = later ++ e :: earlier ∧ Performed command e ∧
    ∃ job frames result action, row = videoResultToRow result ∧ result.jobId = job.jobId ∧
      (∃ commit ∈ attemptOf e.caller earlier,
        Committed (finalTx settings job frames result action) commit) ∧
      Derived settings job frames result action command

theorem published_from (h : ReachVia (Starts settings) Does cond {} c) {e : Call}
    (he : e ∈ c.history) {command : Command} (hperformed : Performed command e)
    (hpublishes : Publishes command) :
    ∃ row, PublishedFrom settings c.history e command row := by
  refine always (R := fun _ past =>
    (∀ e ∈ past, ∀ job frames result action, Committed (finalTx settings job frames result action) e →
      result.jobId = job.jobId) →
    ∀ e ∈ past, Performed command e → ∃ row, PublishedFrom settings past e command row) ?_ ?_ h
    (fun e he _ _ _ _ hcommit => jobId_of_committed h he hcommit) e he hperformed
  · exact fun _ _ h => absurd h List.not_mem_nil
  · intro s past i op o s' _ hmay _ hR hids e he hperformed
    have hids' := fun e' he' => hids e' (List.mem_cons_of_mem _ he')
    rcases List.mem_cons.mp he with rfl | he
    · obtain ⟨commands, hop, hmem, heffect⟩ := id hperformed
      simp only at hop
      subst hop
      have hok := hmay.1 command hmem
      obtain ⟨job, frames, result, action, hcommit, hd⟩ : Justified settings i past command := by
        cases command <;> first | exact hok | exact hpublishes.elim
      obtain ⟨commit, hin, hcommitted⟩ := id hcommit
      have hid := hids' commit (mem_of_mem_attemptOf hin).1 job frames result action hcommitted
      exact ⟨_, [], past, rfl, hperformed, job, frames, result, action, rfl, hid, hcommit, hd⟩
    · obtain ⟨row, later, earlier, rfl, hrest⟩ := hR hids' e he hperformed
      exact ⟨row, _ :: later, earlier, rfl, hrest⟩

theorem PublishedFrom.there (h : ReachVia (Starts settings) Does cond {} c) {e : Call}
    {command : Command} {row : VideoResultRow}
    (hfrom : PublishedFrom settings c.history e command row) : row ∈ c.state.db.results := by
  obtain ⟨later, earlier, hsplit, -, job, frames, result, action, rfl, -, ⟨commit, hmem, hcommit⟩, -⟩ :=
    hfrom
  refine (committed_there h ?_ hcommit).1 _ ((insertFinalResult_mem_finalTx _).mpr rfl)
  rw [hsplit]
  exact List.mem_append_right _ (List.mem_cons_of_mem _ (mem_of_mem_attemptOf hmem).1)

/-- The buffers and the runtime keys hold what calls have put there. -/
theorem stores_performed (h : ReachVia (Starts settings) Does cond {} c) :
    (∀ key row, row ∈ c.state.kv.buffers key → ∃ e ∈ c.history, Performed (.rpush key row) e) ∧
      ∀ key payload, c.state.kv.runtime key = some payload →
        ∃ e ∈ c.history, Performed (.setRuntime key payload) e := by
  refine always (R := fun s past =>
    (∀ key row, row ∈ s.kv.buffers key → ∃ e ∈ past, Performed (.rpush key row) e) ∧
      ∀ key payload, s.kv.runtime key = some payload →
        ∃ e ∈ past, Performed (.setRuntime key payload) e) ?_ ?_ h
  · exact ⟨fun _ _ h => absurd h List.not_mem_nil, fun _ _ h => by cases h⟩
  · intro s past i op o s' _ _ hdoes hR
    have hold : ∀ {command : Command}, (∃ e ∈ past, Performed command e) →
        ∃ e ∈ (⟨i, op, o⟩ :: past : Past), Performed command e :=
      fun ⟨e, he, hp⟩ => ⟨e, List.mem_cons_of_mem _ he, hp⟩
    cases hdoes.change with
    | nothing | commit | group | read =>
      exact ⟨fun key row hrow => hold (hR.1 key row hrow), fun key p hp => hold (hR.2 key p hp)⟩
    | @writes commands o heffect =>
      refine ⟨fun key row hrow => ?_, fun key payload hpayload => ?_⟩
      · rcases Kvrocks.mem_buffers s.kv commands key row hrow with hin | hmem
        · exact hold (hR.1 key row hin)
        · exact ⟨_, List.mem_cons_self, commands, rfl, hmem, heffect⟩
      · rcases Kvrocks.applyAll_runtime s.kv commands key payload hpayload with hin | hmem
        · exact hold (hR.2 key payload hin)
        · exact ⟨_, List.mem_cons_self, commands, rfl, hmem, heffect⟩

/-! ## The order of move, commit and publication -/

/-- A step shows no final row at all, or those of one classification all together. -/
inductive AllOrNothing (settings : Settings) (db db' : Db) : Prop
  | nothing
      (results : ∀ row, row ∈ db'.results ↔ row ∈ db.results)
      (frames : ∀ row, row ∈ db'.frames ↔ row ∈ db.frames)
      (actions : ∀ action, action ∈ db'.actions ↔ action ∈ db.actions)
      (jobs : ∀ jobId row, db'.job? jobId = some row → row.status = .classified →
        db.job? jobId = some row)
  | all (job : VideoJob) (frameResults : List FrameModerationResult) (result : VideoModerationResult)
      (action : Option StorageAction) (sameJob : result.jobId = job.jobId)
      (withAction : action.isSome = result.moveRequired)
      (results : ∀ row, row ∈ db'.results ↔ row ∈ db.results ∨ row = videoResultToRow result)
      (frames : ∀ row, row ∈ db'.frames ↔
        row ∈ db.frames ∨ row ∈ frameRows settings job result frameResults)
      (actions : ∀ a, a ∈ db'.actions ↔ a ∈ db.actions ∨ action = some a)
      (classified : ∃ row, db'.job? job.jobId = some row ∧ row.status = .classified)
      (jobs : ∀ other, other ≠ job.jobId → db'.job? other = db.job? other)

theorem AllOrNothing.same {db : Db} : AllOrNothing settings db db :=
  .nothing (fun _ => Iff.rfl) (fun _ => Iff.rfl) (fun _ => Iff.rfl) fun _ _ h _ => h

theorem AllOrNothing.marks {db db' : Db} {now : Time} {tx : List Write}
    (hdb : db.applyAll now tx = .ok db') (hresult : ∀ row, .insertFinalResult row ∉ tx)
    (hframes : ∀ rows, .insertFrameResults rows ∉ tx)
    (haction : ∀ action, .insertStorageAction action ∉ tx)
    (hjobs : ∀ jobId row, db'.job? jobId = some row → row.status = .classified →
      db.job? jobId = some row) : AllOrNothing settings db db' :=
  .nothing (fun row => by simp [Db.mem_results hdb, hresult])
    (fun row => by simp [Db.mem_frames hdb, hframes])
    (fun action => by simp [Db.mem_actions hdb, haction]) hjobs

theorem allOrNothing_of_commit {i : Caller} {past : Past} {db db' : Db} {now : Time}
    {tx : List Write} (hmay : TxOk settings i past tx) (hdb : db.applyAll now tx = .ok db') :
    AllOrNothing settings db db' := by
  cases hmay with
  | processing job =>
    refine .marks hdb (by simp [markProcessingTx]) (by simp [markProcessingTx])
      (by simp [markProcessingTx]) fun jobId row hrow hstatus => ?_
    obtain ⟨hother, hself⟩ := markProcessingTx_job? hdb
    by_cases hid : jobId = job.jobId
    · subst hid
      cases (hself row hrow).symm.trans hstatus
    · exact hother jobId hid ▸ hrow
  | @failed id errorCode errorMessage status hfailed =>
    refine .marks hdb (by simp) (by simp) (by simp) fun jobId row hrow hstatus => ?_
    obtain ⟨hother, hself⟩ := markFailedTx_job? hdb
    by_cases hid : jobId = id
    · subst hid
      rcases hfailed with rfl | rfl <;> cases (hself row hrow).symm.trans hstatus
    · exact hother jobId hid ▸ hrow
  | @final job frames result action h =>
    obtain ⟨hresults, hframes, hactions⟩ := finalTx_rows hdb
    obtain ⟨hother, hself⟩ := finalTx_job? h.jobId hdb
    exact .all job frames result action h.jobId h.required hresults hframes hactions hself hother

structure PublishOrdering (settings : Settings) (c : Moment) : Prop where
  /-- A result that asks for a move came after the move, in one attempt. -/
  movedFirst : ∀ row ∈ c.state.db.results, row.moveRequired = true →
    ∃ later e earlier, c.history = later ++ e :: earlier ∧
      (∃ tx, Committed tx e ∧ .insertFinalResult row ∈ tx) ∧
      ∃ move ∈ attemptOf e.caller earlier, Moved row.videoId move
  /-- The final rows of an attempt become visible together. -/
  atomic : ∀ l c', Step (Starts settings) Does c l c' →
    AllOrNothing settings c.state.db c'.state.db
  /-- Whatever was published follows from a result that was committed before. -/
  published : ∀ e ∈ c.history, ∀ command, Performed command e → Publishes command →
    ∃ row ∈ c.state.db.results, PublishedFrom settings c.history e command row
  buffers : ∀ key row, row ∈ c.state.kv.buffers key →
    ∃ e ∈ c.history, Performed (.rpush key row) e
  runtime : ∀ key payload, c.state.kv.runtime key = some payload →
    ∃ e ∈ c.history, Performed (.setRuntime key payload) e
  /-- All publications for one job follow from one result. -/
  oneResult : ∀ e command row e' command' row',
    PublishedFrom settings c.history e command row →
    PublishedFrom settings c.history e' command' row' → row.jobId = row'.jobId → row = row'

theorem publish_ordering (h : Reachable settings c) : PublishOrdering settings c where
  movedFirst row hrow hmove := by
    obtain ⟨later, e, earlier, hsplit, job, frames, result, action, hcommit, rfl, hw⟩ :=
      result_committed h hrow
    exact ⟨later, e, earlier, hsplit, ⟨_, hcommit, (insertFinalResult_mem_finalTx _).mpr rfl⟩,
      hw.moved hmove⟩
  atomic l c' hs := by
    cases hs with
    | start | kill => exact .same
    | @call i op k o s' hrun hdoes =>
      have hcall : Step (Starts settings) Does c (.call ⟨i, op, o⟩) _ := .call hrun hdoes
      have hmay := (permitted h hcall).1
      cases hdoes.change with
      | nothing | writes | group | read => exact .same
      | commit _ hdb => exact allOrNothing_of_commit hmay hdb
  published e he command hperformed hpublishes := by
    obtain ⟨row, hfrom⟩ := published_from h he hperformed hpublishes
    exact ⟨row, hfrom.there h, hfrom⟩
  buffers := (stores_performed h).1
  runtime := (stores_performed h).2
  oneResult e command row e' command' row' hfrom hfrom' hid :=
    unique_results h row (hfrom.there h) row' (hfrom'.there h) hid

theorem publish_ordering_explicit : ∃ c, Reachable storj c ∧
    (∃ row ∈ c.state.db.results, row.moveRequired = true) ∧ PublishOrdering storj c := by
  obtain ⟨c, hreach, hp⟩ := reach_of_script legal_explicitScript
    (p := fun c => decide (∃ row ∈ c.state.db.results, row.moveRequired = true)) (by decide +kernel)
  exact ⟨c, hreach, of_decide_eq_true hp, publish_ordering hreach⟩

/-! ## Move and verdict -/

def QueueClassified (s : World) (jobId : String) : Prop :=
  ∃ job, s.kv.hashes (jobKey jobId) = some job ∧ job.status = .classified

theorem hasResult_of_queue (h : Reachable settings c) {jobId : String}
    (hclassified : QueueClassified c.state jobId) : HasResult c.state jobId := by
  obtain ⟨job, hjob, hstatus⟩ := hclassified
  have hkey := ((consistent h).keys _ job hjob).1
  exact jobKey_injective hkey ▸ (consistent h).queue _ job hjob hstatus

/-- If a job is classified, some attempt has committed its result, and that result says that a
move was required exactly if the attempt has moved the video. Then there is a storage action. -/
theorem verdict_of_committing_attempt (h : Reachable settings c) (jobId : String)
    (hclassified : QueueClassified c.state jobId ∨
      ∃ row, c.state.db.job? jobId = some row ∧ row.status = .classified) :
    ∃ row ∈ c.state.db.results, row.jobId = jobId ∧
      ∃ later e earlier, c.history = later ++ e :: earlier ∧
        (∃ tx, Committed tx e ∧ .insertFinalResult row ∈ tx) ∧
        ((∃ move ∈ attemptOf e.caller earlier, Moved row.videoId move) ↔ row.moveRequired = true) ∧
        (row.moveRequired = true → ∃ action ∈ c.state.db.actions, action.jobId = jobId) := by
  have hres : HasResult c.state jobId := by
    rcases hclassified with hqueue | ⟨row, hrow, hstatus⟩
    · exact hasResult_of_queue h hqueue
    · exact (consistent h).jobs jobId row hrow hstatus
  obtain ⟨row, hrow, rfl⟩ := hres
  obtain ⟨later, e, earlier, hsplit, job, frames, result, action, hcommit, rfl, hw⟩ :=
    result_committed h hrow
  refine ⟨_, hrow, rfl, later, e, earlier, hsplit,
    ⟨_, hcommit, (insertFinalResult_mem_finalTx _).mpr rfl⟩, ⟨?_, hw.moved⟩, fun hmove => ?_⟩
  · rintro ⟨move, hmem, publisher, hop, -⟩
    by_contra hnot
    exact hw.unmoved (Bool.eq_false_of_not_eq_true hnot) move hmem (by simp [hop, Op.isMove])
  · obtain ⟨a, ha⟩ := Option.isSome_iff_exists.mp (hw.required.trans hmove)
    have he : e ∈ c.history := by rw [hsplit]; exact List.mem_append_right _ List.mem_cons_self
    refine ⟨a, (committed_there h he hcommit).2 a ((insertStorageAction_mem_finalTx a).mpr ha), ?_⟩
    obtain ⟨response, uuid, now, rfl, -⟩ := hw.action a ha
    exact hw.jobId.symm

instance (s : World) (jobId : String) : Decidable (QueueClassified s jobId) :=
  decidable_of_iff ((s.kv.hashes (jobKey jobId)).map (·.status) = some .classified)
    Option.map_eq_some_iff

theorem verdict_of_committing_attempt_explicit : ∃ c, Reachable storj c ∧
    QueueClassified c.state "job" ∧ ∃ row ∈ c.state.db.results, row.jobId = "job" ∧
      ∃ later e earlier, c.history = later ++ e :: earlier ∧
        (∃ tx, Committed tx e ∧ .insertFinalResult row ∈ tx) ∧
        ((∃ move ∈ attemptOf e.caller earlier, Moved row.videoId move) ↔ row.moveRequired = true) ∧
        (row.moveRequired = true → ∃ action ∈ c.state.db.actions, action.jobId = "job") := by
  obtain ⟨c, hreach, hp⟩ := reach_of_script legal_explicitScript
    (p := fun c => decide (QueueClassified c.state "job")) (by decide +kernel)
  have hclassified := of_decide_eq_true hp
  exact ⟨c, hreach, hclassified, verdict_of_committing_attempt hreach "job" (.inl hclassified)⟩

/-- The job that the running attempt of caller `i` is about. -/
def attemptJob (i : Caller) (past : Past) : Option String :=
  past.findSome? fun
    | ⟨j, .prepareJobDir jobId, _⟩ => if j = i then some jobId else none
    | _ => none

/-- An attempt on the job has moved the video. -/
def MovedFor (jobId videoId : String) : Past → Prop
  | [] => False
  | e :: earlier => (Moved videoId e ∧ attemptJob e.caller earlier = some jobId) ∨
      MovedFor jobId videoId earlier

def movedVideo : Op → Option String
  | .postMove _ videoId => some videoId
  | _ => none

instance (videoId : String) (e : Call) : Decidable (Moved videoId e) :=
  decidable_of_iff (movedVideo e.op = some videoId ∧ e.outcome.Answered) <| by
    obtain ⟨i, op, o⟩ := e
    cases op <;> simp [Moved, movedVideo]

instance decidableMovedFor (jobId videoId : String) (past : Past) :
    Decidable (MovedFor jobId videoId past) :=
  match past with
  | [] => .isFalse id
  | _ :: earlier =>
    have := decidableMovedFor jobId videoId earlier
    inferInstanceAs (Decidable (_ ∨ _))

/-- A classified job whose attempts have moved its video has a result and an action that say so. -/
def MovesRemembered (c : Moment) : Prop :=
  ∀ jobId job, c.state.kv.hashes (jobKey jobId) = some job → job.status = .classified →
    MovedFor jobId job.videoId c.history →
      (∃ row ∈ c.state.db.results, row.jobId = jobId ∧ row.moveRequired = true) ∧
        ∃ action ∈ c.state.db.actions, action.jobId = jobId

/-- The video is moved and the commit breaks. The next attempt finds nothing unsafe. -/
def changeOfMind : Script :=
  enqueueScript storj ++ startAttempt storj 0 :: calls (.attempt 0) 21 explicit ++
    breaks (.attempt 0) :: calls (.attempt 0) 6 clean ++
      startAttempt storj 1 :: calls (.attempt 1) 26 clean

theorem legal_changeOfMind : ∀ t ∈ changeOfMind, t.Legal (Starts storj) :=
  List.forall_mem_append.mpr ⟨legal_brokenAttempt, legal_thenCalls legal_startAttempt⟩

/-- The first attempt's move leaves no trace in the verdict of the second. -/
theorem move_forgotten : ∃ c, Reachable storj c ∧ ¬ MovesRemembered c := by
  obtain ⟨c, hreach, hp⟩ := reach_of_script legal_changeOfMind (p := fun c =>
    decide (∃ job ∈ c.state.kv.hashes (jobKey "job"), job.status = .classified ∧
      MovedFor "job" job.videoId c.history ∧ ¬ ∃ action ∈ c.state.db.actions, action.jobId = "job"))
    (by decide +kernel)
  obtain ⟨job, hjob, hstatus, hmoved, hnone⟩ := of_decide_eq_true hp
  exact ⟨c, hreach, fun h => hnone (h "job" job hjob hstatus hmoved).2⟩

/-! ## What `CLASSIFIED` stands for -/

/-- A `CLASSIFIED` response carries the result of its job, and either store calls a job classified
only if it has a result. -/
theorem classified_has_result (h : Reachable settings c) :
    (∀ nr response, c.threads (.reader nr) = .running (.done (.ok (.status (some response)))) →
      Truthful c.state response) ∧
    (∀ jobId, QueueClassified c.state jobId → HasResult c.state jobId) ∧
    ∀ jobId row, c.state.db.job? jobId = some row → row.status = .classified →
      HasResult c.state jobId := by
  refine ⟨fun nr response hdone => ?_, fun jobId => hasResult_of_queue h, (consistent h).jobs⟩
  exact (sound h).post hdone response rfl

def responseOf : Thread Ans PyException Reply → Option VideoStatusResponse
  | .running (.done (.ok (.status response))) => response
  | _ => none

theorem thread_of_responseOf {t : Thread Ans PyException Reply} {response : VideoStatusResponse}
    (h : responseOf t = some response) : t = .running (.done (.ok (.status (some response)))) := by
  unfold responseOf at h
  split at h
  · next found => rw [h]
  · cases h

/-- Somebody asks for the status of a classified video. -/
def readScript : Script :=
  cleanScript {} ++ .start (.reader 0) (readerProgram {} "video") :: calls (.reader 0) 3 clean

theorem legal_readScript : ∀ t ∈ readScript, t.Legal (Starts {}) :=
  List.forall_mem_append.mpr ⟨legal_cleanScript {}, legal_thenCalls ⟨"video", rfl⟩⟩

theorem classified_has_result_read : ∃ c response, Reachable {} c ∧
    c.threads (.reader 0) = .running (.done (.ok (.status (some response)))) ∧
      response.status = .classified ∧ Truthful c.state response := by
  obtain ⟨c, hreach, hp⟩ := reach_of_script legal_readScript (p := fun c =>
    (responseOf (c.threads (.reader 0))).any (·.status = .classified)) (by decide +kernel)
  obtain ⟨response, hresponse, hstatus⟩ := (Option.any_eq_true _ _).mp hp
  have hthread := thread_of_responseOf hresponse
  exact ⟨c, response, hreach, hthread, of_decide_eq_true hstatus,
    (classified_has_result hreach).1 0 response hthread⟩

end NsfwDetector.Publication
