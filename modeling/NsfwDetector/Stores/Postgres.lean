import NsfwDetector.Core.Errors
import NsfwDetector.Core.Rows

/-!
# The Postgres tables

A transaction is a list of writes. It is applied at its commit, all of it or none. The server
checks the keys, the foreign keys and the bounds that the tables declare.
-/

namespace NsfwDetector

structure Db where
  jobs : List VideoJob
  frames : List FrameResultRow
  results : List VideoResultRow
  actions : List StorageAction

inductive Write
  /-- `INSERT … ON CONFLICT DO NOTHING` -/
  | insertVideoJobOrNothing (job : VideoJob)
  | markProcessing (jobId : String)
  | markClassified (jobId : String)
  | markFailed (jobId : String) (status : VideoJobStatus) (errorCode errorMessage : String)
  | insertFrameResults (rows : List FrameResultRow)
  | insertFinalResult (row : VideoResultRow)
  | insertStorageAction (action : StorageAction)

namespace Db

def job? (db : Db) (jobId : String) : Option VideoJob := db.jobs.find? (·.jobId = jobId)

def result? (db : Db) (jobId : String) : Option VideoResultRow :=
  db.results.find? (·.jobId = jobId)

/-- `ORDER BY updated_at DESC LIMIT 1`: one of the latest rows of the video. -/
def LatestResult (db : Db) (videoId : String) : Option VideoResultRow → Prop
  | some row => row ∈ db.results ∧ row.videoId = videoId ∧
      ∀ other ∈ db.results, other.videoId = videoId → other.updatedAt ≤ row.updatedAt
  | none => ∀ row ∈ db.results, row.videoId ≠ videoId

/-- `UPDATE nsfw_video_jobs … WHERE job_id = …` -/
def updateJob (db : Db) (jobId : String) (f : VideoJob → VideoJob) : Db :=
  { db with jobs := db.jobs.map fun job => if job.jobId = jobId then f job else job }

def Known (db : Db) (jobId : String) : Prop := ∃ job ∈ db.jobs, job.jobId = jobId

instance (db : Db) (jobId : String) : Decidable (db.Known jobId) :=
  inferInstanceAs (Decidable (∃ job ∈ db.jobs, job.jobId = jobId))

/-! ## Statements -/

def insertVideoJobOrNothing (db : Db) (job : VideoJob) : Except PyException Db :=
  if job.createdAt = none ∨ job.updatedAt = none then .error (.integrityError "not-null constraint")
  else if ∃ other ∈ db.jobs, other.jobId = job.jobId ∨ other.triple = job.triple then .ok db
  else .ok { db with jobs := job :: db.jobs }

def processingRow (now : Time) (job : VideoJob) : VideoJob :=
  { job with
    status := .processing
    attempts := job.attempts + 1
    startedAt := some now
    updatedAt := some now }

def classifiedRow (now : Time) (job : VideoJob) : VideoJob :=
  { job with
    status := .classified
    finishedAt := some now
    updatedAt := some now }

def failedRow (status : VideoJobStatus) (errorCode errorMessage : String) (now : Time)
    (job : VideoJob) : VideoJob :=
  { job with
    status := status
    lastErrorCode := some errorCode
    lastErrorMessage := some errorMessage
    finishedAt := if status = .failedTerminal then some now else none
    updatedAt := some now }

def insertFrameResult (db : Db) (row : FrameResultRow) : Except PyException Db :=
  if ¬ db.Known row.jobId then .error (.integrityError "foreign key constraint")
  else if ∃ other ∈ db.frames, other.frameId = row.frameId ∨
      (other.jobId = row.jobId ∧ other.frameIndex = row.frameIndex) then
    .error (.integrityError "unique constraint")
  else if ¬ (row.overallSeverity ≤ 5 ∧ ∀ c, row.severities c ≤ 5) then
    .error (.integrityError "check constraint")
  else .ok { db with frames := row :: db.frames }

def insertFinalResult (db : Db) (row : VideoResultRow) : Except PyException Db :=
  if ¬ db.Known row.jobId then .error (.integrityError "foreign key constraint")
  else if ∃ other ∈ db.results, other.jobId = row.jobId then
    .error (.integrityError "unique constraint")
  else .ok { db with results := row :: db.results }

def insertStorageAction (db : Db) (action : StorageAction) : Except PyException Db :=
  if ¬ db.Known action.jobId then .error (.integrityError "foreign key constraint")
  else if ∃ other ∈ db.actions, other.actionId = action.actionId then
    .error (.integrityError "unique constraint")
  else .ok { db with actions := action :: db.actions }

/-- What one statement does, or the error that it raises. -/
def apply (now : Time) (db : Db) : Write → Except PyException Db
  | .insertVideoJobOrNothing job => db.insertVideoJobOrNothing job
  | .markProcessing jobId => .ok (db.updateJob jobId (processingRow now))
  | .markClassified jobId => .ok (db.updateJob jobId (classifiedRow now))
  | .markFailed jobId status errorCode errorMessage =>
    .ok (db.updateJob jobId (failedRow status errorCode errorMessage now))
  | .insertFrameResults rows => rows.foldlM insertFrameResult db
  | .insertFinalResult row => db.insertFinalResult row
  | .insertStorageAction action => db.insertStorageAction action

def applyAll (now : Time) (db : Db) (tx : List Write) : Except PyException Db :=
  tx.foldlM (apply now) db

/-! ## One statement at a time -/

section

variable {β γ : Type} {f : β → γ → Except PyException β} {b b' : β} {x : γ} {xs : List γ}

theorem foldlM_cons_ok :
    (x :: xs).foldlM f b = .ok b' ↔ ∃ c, f b x = .ok c ∧ xs.foldlM f c = .ok b' := by
  rw [List.foldlM_cons]
  cases f b x with
  | ok c => simp [bind, Except.bind]
  | error e => simp [bind, Except.bind]

theorem foldlM_keeps {P : β → Prop} (hstep : ∀ b x b', f b x = .ok b' → P b → P b')
    (h : xs.foldlM f b = .ok b') (hP : P b) : P b' := by
  induction xs generalizing b with
  | nil => exact Except.ok.inj h ▸ hP
  | cons x xs ih =>
    obtain ⟨c, hx, hxs⟩ := foldlM_cons_ok.mp h
    exact ih hxs (hstep b x c hx hP)

theorem foldlM_raises {φ : PyException → Prop} {e : PyException}
    (hstep : ∀ b x e, f b x = .error e → φ e) (h : xs.foldlM f b = .error e) : φ e := by
  induction xs generalizing b with
  | nil => cases h
  | cons x xs ih =>
    rw [List.foldlM_cons] at h
    cases hx : f b x with
    | ok c =>
      rw [hx] at h
      exact ih h
    | error e' =>
      rw [hx] at h
      exact Except.error.inj h ▸ hstep b x e' hx

end

variable {now : Time} {db db' : Db} {write : Write} {tx : List Write}

theorem insertVideoJobOrNothing_ok {job : VideoJob} (h : db.insertVideoJobOrNothing job = .ok db') :
    ((∃ other ∈ db.jobs, other.jobId = job.jobId ∨ other.triple = job.triple) ∧ db' = db) ∨
      (¬ (∃ other ∈ db.jobs, other.jobId = job.jobId ∨ other.triple = job.triple) ∧
        db' = { db with jobs := job :: db.jobs }) := by
  simp only [insertVideoJobOrNothing] at h
  split at h
  · cases h
  · split at h
    · next hsome => exact .inl ⟨hsome, (Except.ok.inj h).symm⟩
    · next hnone => exact .inr ⟨hnone, (Except.ok.inj h).symm⟩

theorem insertFrameResult_ok {row : FrameResultRow} (h : db.insertFrameResult row = .ok db') :
    db.Known row.jobId ∧ db' = { db with frames := row :: db.frames } := by
  simp only [insertFrameResult] at h
  split at h
  · cases h
  · next hknown =>
    split at h
    · cases h
    · split at h
      · cases h
      · exact ⟨not_not.mp hknown, (Except.ok.inj h).symm⟩

theorem insertFinalResult_ok {row : VideoResultRow} (h : db.insertFinalResult row = .ok db') :
    db.Known row.jobId ∧ (∀ other ∈ db.results, other.jobId ≠ row.jobId) ∧
      db' = { db with results := row :: db.results } := by
  simp only [insertFinalResult] at h
  split at h
  · cases h
  · next hknown =>
    split at h
    · cases h
    · next hnew =>
      exact ⟨not_not.mp hknown, fun other ho heq => hnew ⟨other, ho, heq⟩, (Except.ok.inj h).symm⟩

theorem insertStorageAction_ok {action : StorageAction}
    (h : db.insertStorageAction action = .ok db') :
    db.Known action.jobId ∧ db' = { db with actions := action :: db.actions } := by
  simp only [insertStorageAction] at h
  split at h
  · cases h
  · next hknown =>
    split at h
    · cases h
    · exact ⟨not_not.mp hknown, (Except.ok.inj h).symm⟩

theorem insertFrameResults_ok {rows : List FrameResultRow}
    (h : rows.foldlM insertFrameResult db = .ok db') :
    (∀ row ∈ rows, db.Known row.jobId) ∧
      db' = { db with frames := rows.reverse ++ db.frames } := by
  induction rows generalizing db with
  | nil => exact ⟨fun _ hrow => absurd hrow List.not_mem_nil, (Except.ok.inj h).symm⟩
  | cons row rows ih =>
    obtain ⟨db₁, hrow, hrows⟩ := foldlM_cons_ok.mp h
    obtain ⟨hknown, rfl⟩ := insertFrameResult_ok hrow
    obtain ⟨hall, rfl⟩ := ih hrows
    refine ⟨fun other ho => ?_, by simp⟩
    rcases List.mem_cons.mp ho with rfl | ho
    · exact hknown
    · exact hall other ho

theorem insertFinalResult_applies {row : VideoResultRow} (hknown : db.Known row.jobId)
    (hnew : ∀ other ∈ db.results, other.jobId ≠ row.jobId) :
    db.insertFinalResult row = .ok { db with results := row :: db.results } := by
  have hfree : ¬ ∃ other ∈ db.results, other.jobId = row.jobId :=
    fun ⟨other, ho, heq⟩ => hnew other ho heq
  rw [insertFinalResult, if_neg (not_not.mpr hknown), if_neg hfree]

theorem insertStorageAction_applies {action : StorageAction} (hknown : db.Known action.jobId)
    (hnew : ∀ other ∈ db.actions, other.actionId ≠ action.actionId) :
    db.insertStorageAction action = .ok { db with actions := action :: db.actions } := by
  have hfree : ¬ ∃ other ∈ db.actions, other.actionId = action.actionId :=
    fun ⟨other, ho, heq⟩ => hnew other ho heq
  rw [insertStorageAction, if_neg (not_not.mpr hknown), if_neg hfree]

/-- Two frame rows that the table takes together. -/
def Apart (row other : FrameResultRow) : Prop :=
  row.frameId ≠ other.frameId ∧ ¬ (row.jobId = other.jobId ∧ row.frameIndex = other.frameIndex)

theorem insertFrameResults_applies {rows : List FrameResultRow}
    (hknown : ∀ row ∈ rows, db.Known row.jobId)
    (hbounds : ∀ row ∈ rows, row.overallSeverity ≤ 5 ∧ ∀ c, row.severities c ≤ 5)
    (hapart : rows.Pairwise Apart) (hnew : ∀ row ∈ rows, ∀ other ∈ db.frames, Apart row other) :
    ∃ db', rows.foldlM insertFrameResult db = .ok db' := by
  induction rows generalizing db with
  | nil => exact ⟨db, rfl⟩
  | cons row rows ih =>
    obtain ⟨hrow, hrows⟩ := List.pairwise_cons.mp hapart
    have hfree : ¬ ∃ other ∈ db.frames, other.frameId = row.frameId ∨
        (other.jobId = row.jobId ∧ other.frameIndex = row.frameIndex) := by
      rintro ⟨other, ho, hsame⟩
      obtain ⟨hid, hindex⟩ := hnew row List.mem_cons_self other ho
      rcases hsame with h | ⟨h, h'⟩
      · exact hid h.symm
      · exact hindex ⟨h.symm, h'.symm⟩
    have hinsert : db.insertFrameResult row = .ok { db with frames := row :: db.frames } := by
      rw [insertFrameResult, if_neg (not_not.mpr (hknown row List.mem_cons_self)), if_neg hfree,
        if_neg (not_not.mpr (hbounds row List.mem_cons_self))]
    have hapart' : ∀ r ∈ rows, ∀ other ∈ row :: db.frames, Apart r other := by
      intro r hr other ho
      rcases List.mem_cons.mp ho with rfl | ho
      · exact ⟨(hrow r hr).1.symm, fun h => (hrow r hr).2 ⟨h.1.symm, h.2.symm⟩⟩
      · exact hnew r (List.mem_cons_of_mem _ hr) other ho
    obtain ⟨db', hdb'⟩ : ∃ db', rows.foldlM insertFrameResult { db with frames := row :: db.frames } =
        .ok db' :=
      ih (fun r hr => hknown r (List.mem_cons_of_mem _ hr))
        (fun r hr => hbounds r (List.mem_cons_of_mem _ hr)) hrows hapart'
    exact ⟨db', foldlM_cons_ok.mpr ⟨_, hinsert, hdb'⟩⟩

/-! ### Rows of the other tables -/

theorem apply_tables (h : db.apply now write = .ok db') :
    (∀ row, row ∈ db'.results ↔ row ∈ db.results ∨ write = .insertFinalResult row) ∧
    (∀ row, row ∈ db'.frames ↔
      row ∈ db.frames ∨ ∃ rows, write = .insertFrameResults rows ∧ row ∈ rows) ∧
    (∀ action, action ∈ db'.actions ↔
      action ∈ db.actions ∨ write = .insertStorageAction action) := by
  cases write with
  | insertVideoJobOrNothing job =>
    rcases insertVideoJobOrNothing_ok h with ⟨-, rfl⟩ | ⟨-, rfl⟩ <;> simp
  | markProcessing | markClassified | markFailed =>
    obtain rfl := Except.ok.inj h
    simp [updateJob]
  | insertFrameResults rows =>
    obtain ⟨-, rfl⟩ := insertFrameResults_ok h
    simp [or_comm]
  | insertFinalResult row =>
    obtain ⟨-, -, rfl⟩ := insertFinalResult_ok h
    simp [or_comm, eq_comm]
  | insertStorageAction action =>
    obtain ⟨-, rfl⟩ := insertStorageAction_ok h
    simp [or_comm, eq_comm]

theorem applyAll_nil : db.applyAll now [] = .ok db := rfl

theorem applyAll_cons_ok :
    db.applyAll now (write :: tx) = .ok db' ↔
      ∃ c, db.apply now write = .ok c ∧ c.applyAll now tx = .ok db' := foldlM_cons_ok

theorem applyAll_append_ok {rest : List Write} :
    db.applyAll now (tx ++ rest) = .ok db' ↔
      ∃ c, db.applyAll now tx = .ok c ∧ c.applyAll now rest = .ok db' := by
  induction tx generalizing db with
  | nil => simp [applyAll_nil]
  | cons write tx ih =>
    rw [List.cons_append, applyAll_cons_ok]
    simp only [ih, applyAll_cons_ok]
    constructor
    · rintro ⟨c, hc, d, hd, hrest⟩
      exact ⟨d, ⟨c, hc, hd⟩, hrest⟩
    · rintro ⟨d, ⟨c, hc, hd⟩, hrest⟩
      exact ⟨c, hc, d, hd, hrest⟩

theorem insertFrameResult_raises {row : FrameResultRow} {e : PyException}
    (h : db.insertFrameResult row = .error e) : e.Foreign := by
  unfold insertFrameResult at h
  split_ifs at h <;> cases h <;> trivial

theorem apply_raises {e : PyException} (h : db.apply now write = .error e) : e.Foreign := by
  cases write with
  | insertVideoJobOrNothing job =>
    simp only [apply, insertVideoJobOrNothing] at h
    split_ifs at h
    cases h
    trivial
  | insertFrameResults rows => exact foldlM_raises (fun _ _ _ => insertFrameResult_raises) h
  | insertFinalResult row =>
    simp only [apply, insertFinalResult] at h
    split_ifs at h <;> cases h <;> trivial
  | insertStorageAction action =>
    simp only [apply, insertStorageAction] at h
    split_ifs at h <;> cases h <;> trivial
  | markProcessing | markClassified | markFailed => cases h

theorem applyAll_raises {e : PyException} (h : db.applyAll now tx = .error e) : e.Foreign :=
  foldlM_raises (fun _ _ _ => apply_raises) h

theorem mem_results (h : db.applyAll now tx = .ok db') (row : VideoResultRow) :
    row ∈ db'.results ↔ row ∈ db.results ∨ .insertFinalResult row ∈ tx := by
  induction tx generalizing db with
  | nil => obtain rfl := Except.ok.inj h; simp
  | cons write tx ih =>
    obtain ⟨c, hw, htx⟩ := applyAll_cons_ok.mp h
    rw [ih htx, (apply_tables hw).1, List.mem_cons, or_assoc, eq_comm (a := write)]

theorem mem_frames (h : db.applyAll now tx = .ok db') (row : FrameResultRow) :
    row ∈ db'.frames ↔ row ∈ db.frames ∨ ∃ rows, .insertFrameResults rows ∈ tx ∧ row ∈ rows := by
  induction tx generalizing db with
  | nil => obtain rfl := Except.ok.inj h; simp
  | cons write tx ih =>
    obtain ⟨c, hw, htx⟩ := applyAll_cons_ok.mp h
    rw [ih htx, (apply_tables hw).2.1, or_assoc]
    simp only [List.mem_cons, or_and_right, exists_or, eq_comm (a := write)]

theorem mem_actions (h : db.applyAll now tx = .ok db') (action : StorageAction) :
    action ∈ db'.actions ↔ action ∈ db.actions ∨ .insertStorageAction action ∈ tx := by
  induction tx generalizing db with
  | nil => obtain rfl := Except.ok.inj h; simp
  | cons write tx ih =>
    obtain ⟨c, hw, htx⟩ := applyAll_cons_ok.mp h
    rw [ih htx, (apply_tables hw).2.2, List.mem_cons, or_assoc, eq_comm (a := write)]

/-- `job_id` is a primary key of `nsfw_video_results`. -/
def UniqueResults (db : Db) : Prop :=
  ∀ row ∈ db.results, ∀ other ∈ db.results, row.jobId = other.jobId → row = other

theorem apply_unique (h : db.apply now write = .ok db') (hunique : db.UniqueResults) :
    db'.UniqueResults := by
  cases write with
  | insertFinalResult row =>
    obtain ⟨-, hnew, rfl⟩ := insertFinalResult_ok h
    intro a ha b hb heq
    rcases List.mem_cons.mp ha with hrow | ha
    · rcases List.mem_cons.mp hb with hrow' | hb
      · exact hrow.trans hrow'.symm
      · exact absurd (heq.symm.trans (congrArg _ hrow)) (hnew b hb)
    · rcases List.mem_cons.mp hb with hrow' | hb
      · exact absurd (heq.trans (congrArg _ hrow')) (hnew a ha)
      · exact hunique a ha b hb heq
  | _ =>
    have hsame : ∀ row, row ∈ db'.results ↔ row ∈ db.results := fun row => by
      simp [(apply_tables h).1 row]
    intro a ha b hb
    exact hunique a ((hsame a).mp ha) b ((hsame b).mp hb)

theorem applyAll_unique (h : db.applyAll now tx = .ok db') (hunique : db.UniqueResults) :
    db'.UniqueResults :=
  foldlM_keeps (P := UniqueResults) (fun _ _ _ => apply_unique) h hunique

/-! ### Job rows -/

/-- Statements on other tables. -/
def OffJobs : Write → Prop
  | .insertFrameResults _ | .insertFinalResult _ | .insertStorageAction _ => True
  | _ => False

theorem applyAll_offJobs (h : db.applyAll now tx = .ok db') (htx : ∀ write ∈ tx, OffJobs write) :
    db'.jobs = db.jobs := by
  induction tx generalizing db with
  | nil => rw [Except.ok.inj h]
  | cons write tx ih =>
    obtain ⟨c, hw, hrest⟩ := applyAll_cons_ok.mp h
    rw [ih hrest fun w hmem => htx w (List.mem_cons_of_mem _ hmem)]
    have hoff := htx write List.mem_cons_self
    cases write with
    | insertFrameResults rows => rw [(insertFrameResults_ok hw).2]
    | insertFinalResult row => rw [(insertFinalResult_ok hw).2.2]
    | insertStorageAction action => rw [(insertStorageAction_ok hw).2]
    | _ => exact hoff.elim

theorem updateJob_job? (db : Db) (f : VideoJob → VideoJob) (hf : ∀ job, (f job).jobId = job.jobId)
    (jobId other : String) :
    (db.updateJob jobId f).job? other =
      if other = jobId then (db.job? other).map f else db.job? other := by
  simp only [job?, updateJob, List.find?_map]
  have hcomp : (fun job : VideoJob => decide (job.jobId = other)) ∘
      (fun job => if job.jobId = jobId then f job else job) = fun job => decide (job.jobId = other) := by
    funext job
    simp only [Function.comp]
    split <;> simp [hf]
  rw [hcomp]
  cases hfind : db.jobs.find? fun job => decide (job.jobId = other) with
  | none => simp
  | some job =>
    have hid : job.jobId = other := by simpa using List.find?_some hfind
    by_cases hother : other = jobId
    · simp [hother, hid.trans hother]
    · have : job.jobId ≠ jobId := fun heq => hother (hid.symm.trans heq)
      simp [hother, this]

theorem job?_isSome_iff (jobId : String) : (db.job? jobId).isSome ↔ db.Known jobId := by
  simp [job?, Known]

theorem updateJob_known (db : Db) (f : VideoJob → VideoJob) (hf : ∀ job, (f job).jobId = job.jobId)
    (jobId other : String) : (db.updateJob jobId f).Known other ↔ db.Known other := by
  rw [← job?_isSome_iff, ← job?_isSome_iff, updateJob_job? db f hf]
  split <;> simp

/-- Where there is a row of the work, one stays. -/
theorem apply_work {work : String × String × String} (h : db.apply now write = .ok db')
    (hrow : ∃ row ∈ db.jobs, row.triple = work) : ∃ row ∈ db'.jobs, row.triple = work := by
  obtain ⟨row, hrow, hwork⟩ := hrow
  have hupdate : ∀ (jobId : String) (f : VideoJob → VideoJob), (∀ job, (f job).triple = job.triple) →
      ∃ other ∈ (db.updateJob jobId f).jobs, other.triple = work := by
    intro jobId f hf
    refine ⟨_, List.mem_map_of_mem hrow, ?_⟩
    split
    · exact (hf row).trans hwork
    · exact hwork
  cases write with
  | insertVideoJobOrNothing job =>
    rcases insertVideoJobOrNothing_ok h with ⟨-, rfl⟩ | ⟨-, rfl⟩
    · exact ⟨row, hrow, hwork⟩
    · exact ⟨row, List.mem_cons_of_mem _ hrow, hwork⟩
  | markProcessing | markClassified | markFailed =>
    obtain rfl := Except.ok.inj h
    exact hupdate _ _ fun _ => rfl
  | insertFrameResults rows => exact (insertFrameResults_ok h).2 ▸ ⟨row, hrow, hwork⟩
  | insertFinalResult => exact (insertFinalResult_ok h).2.2 ▸ ⟨row, hrow, hwork⟩
  | insertStorageAction => exact (insertStorageAction_ok h).2 ▸ ⟨row, hrow, hwork⟩

theorem applyAll_work {work : String × String × String} (h : db.applyAll now tx = .ok db')
    (hrow : ∃ row ∈ db.jobs, row.triple = work) : ∃ row ∈ db'.jobs, row.triple = work :=
  foldlM_keeps (P := fun db => ∃ row ∈ db.jobs, row.triple = work) (fun _ _ _ => apply_work) h hrow

theorem apply_known {jobId : String} (h : db.apply now write = .ok db') (hknown : db'.Known jobId) :
    db.Known jobId ∨ ∃ row, write = .insertVideoJobOrNothing row ∧
      ¬ ∃ other ∈ db.jobs, other.triple = row.triple := by
  cases write with
  | insertVideoJobOrNothing job =>
    rcases insertVideoJobOrNothing_ok h with ⟨-, rfl⟩ | ⟨hnew, rfl⟩
    · exact .inl hknown
    · exact .inr ⟨job, rfl, fun ⟨other, ho, hwork⟩ => hnew ⟨other, ho, .inr hwork⟩⟩
  | markProcessing id =>
    obtain rfl := Except.ok.inj h
    exact .inl ((updateJob_known db (processingRow now) (fun _ => rfl) id jobId).mp hknown)
  | markClassified id =>
    obtain rfl := Except.ok.inj h
    exact .inl ((updateJob_known db (classifiedRow now) (fun _ => rfl) id jobId).mp hknown)
  | markFailed id status code message =>
    obtain rfl := Except.ok.inj h
    exact .inl ((updateJob_known db (failedRow status code message now) (fun _ => rfl) id jobId).mp hknown)
  | insertFrameResults rows =>
    obtain ⟨-, rfl⟩ := insertFrameResults_ok h
    exact .inl hknown
  | insertFinalResult row =>
    obtain ⟨-, -, rfl⟩ := insertFinalResult_ok h
    exact .inl hknown
  | insertStorageAction action =>
    obtain ⟨-, rfl⟩ := insertStorageAction_ok h
    exact .inl hknown

/-- A job gets its row only where no row of the work is in the way. -/
theorem applyAll_known {jobId : String} (h : db.applyAll now tx = .ok db')
    (hknown : db'.Known jobId) : db.Known jobId ∨ ∃ row, .insertVideoJobOrNothing row ∈ tx ∧
      ¬ ∃ other ∈ db.jobs, other.triple = row.triple := by
  induction tx generalizing db with
  | nil => exact .inl (Except.ok.inj h ▸ hknown)
  | cons write tx ih =>
    obtain ⟨c, hw, htx⟩ := applyAll_cons_ok.mp h
    rcases ih htx with hc | ⟨row, hmem, hnone⟩
    · refine (apply_known hw hc).imp_right fun ⟨row, hwrite, hnone⟩ => ?_
      exact ⟨row, hwrite ▸ List.mem_cons_self, hnone⟩
    · exact .inr ⟨row, List.mem_cons_of_mem _ hmem, fun hwork => hnone (apply_work hw hwork)⟩

theorem insertVideoJobOrNothing_job? {job : VideoJob}
    (h : db.insertVideoJobOrNothing job = .ok db') (other : String) :
    db'.job? other = db.job? other ∨
      (other = job.jobId ∧ db.job? other = none ∧ db'.job? other = some job) := by
  rcases insertVideoJobOrNothing_ok h with ⟨-, rfl⟩ | ⟨hnew, rfl⟩
  · exact .inl rfl
  · by_cases hother : other = job.jobId
    · right
      refine ⟨hother, ?_, by simp [job?, hother]⟩
      simp only [job?, List.find?_eq_none, decide_eq_true_eq]
      intro row hrow heq
      exact hnew ⟨row, hrow, .inl (heq.trans hother)⟩
    · left
      simp [job?, Ne.symm hother]

end Db

end NsfwDetector
