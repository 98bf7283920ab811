import NsfwDetector.System.Callers
import NsfwDetector.System.Transactions

/-!
# What `mark_processing` leaves in Postgres

It inserts a row unless one is in the way, and then adds one to the attempts of the row that is
there. So it matters which row an earlier attempt left.
-/

namespace NsfwDetector.Marking

open Effects

/-! ## One transaction -/

/-- A row of the job that is being processed, with the attempts of the job. -/
def Marked (db : Db) (job : VideoJob) : Prop :=
  ∃ row ∈ db.jobs, row.jobId = job.jobId ∧ row.status = .processing ∧ row.attempts = job.attempts

/-- The row counts one attempt less, or nothing is in the way of a new row. -/
def Fits (db : Db) (job : VideoJob) : Prop :=
  (∃ row ∈ db.jobs, row.jobId = job.jobId ∧ row.attempts + 1 = job.attempts) ∨
    (¬ ∃ row ∈ db.jobs, row.jobId = job.jobId ∨ row.triple = job.triple) ∧ 1 ≤ job.attempts

instance (db : Db) (job : VideoJob) : Decidable (Marked db job) :=
  inferInstanceAs (Decidable (∃ row ∈ db.jobs, _))

variable {db db' : Db} {now : Time} {job : VideoJob}

theorem marked_updateJob : Marked (db.updateJob job.jobId (Db.processingRow now)) job ↔
    ∃ row ∈ db.jobs, row.jobId = job.jobId ∧ row.attempts + 1 = job.attempts := by
  constructor
  · rintro ⟨row, hrow, hid, -, hattempts⟩
    obtain ⟨old, hold, rfl⟩ := List.mem_map.mp hrow
    split at hattempts
    · next hsame => exact ⟨old, hold, hsame, hattempts⟩
    · next hother =>
      rw [if_neg hother] at hid
      exact absurd hid hother
  · rintro ⟨old, hold, hid, hattempts⟩
    refine ⟨Db.processingRow now old, List.mem_map.mpr ⟨old, hold, if_pos hid⟩, hid, rfl, hattempts⟩

theorem marked_iff (h : db.applyAll now (markProcessingTx job) = .ok db') :
    Marked db' job ↔ Fits db job := by
  obtain ⟨c, hc, rfl⟩ := markProcessingTx_ok h
  rw [marked_updateJob, Fits]
  rcases Db.insertVideoJobOrNothing_ok hc with ⟨hconflict, rfl⟩ | ⟨hfree, rfl⟩
  · exact (or_iff_left fun hnew => hnew.1 hconflict).symm
  · have hnone : ¬ ∃ row ∈ db.jobs, row.jobId = job.jobId ∧ row.attempts + 1 = job.attempts :=
      fun ⟨row, hrow, hid, _⟩ => hfree ⟨row, hrow, .inl hid⟩
    have hnew : ¬ ∃ row ∈ db.jobs, row.jobId = job.jobId ∨ row.triple = job.triple := hfree
    rw [or_iff_right hnone, and_iff_right hnew]
    -- The new row has the attempts before this one, but never fewer than none.
    constructor
    · rintro ⟨row, hrow, hid, hattempts⟩
      rcases List.mem_cons.mp hrow with rfl | hrow
      · simp only [VideoJob.inserted] at hattempts
        omega
      · exact absurd ⟨row, hrow, hid, hattempts⟩ hnone
    · intro hpositive
      refine ⟨job.inserted, List.mem_cons_self, rfl, ?_⟩
      simp only [VideoJob.inserted]
      omega

/-! ## Runs -/

/-- The call with which `mark_processing(job)` returns. -/
def returns (job : VideoJob) : Call → Bool
  | ⟨_, .commit [.insertVideoJobOrNothing inserted, .markProcessing jobId], .answered _⟩ =>
    inserted = job.inserted ∧ jobId = job.jobId
  | _ => false

/-- Where `mark_processing(job)` returns, the row is as it should be afterwards. -/
def MarksJob (job : VideoJob) : StepCond Caller World Ans PyException Reply := fun _ l c' =>
  ∀ e, l = .call e → returns job e = true → Marked c'.state.db job

/-- Where `mark_processing(job)` returns, the rows before fit. -/
def FitsJob (job : VideoJob) : StepCond Caller World Ans PyException Reply := fun c l _ =>
  ∀ e, l = .call e → returns job e = true → Fits c.state.db job

theorem commit_of_returns {e : Call} (h : returns job e = true) {s s' : World}
    (hdoes : Does e.caller s e.op e.outcome s') :
    ∃ now, s.db.applyAll now (markProcessingTx job) = .ok s'.db := by
  unfold returns at h
  split at h
  · obtain ⟨rfl, rfl⟩ := of_decide_eq_true h
    obtain ⟨now, db, hdb, rfl⟩ := Does.commit hdoes trivial
    exact ⟨now, hdb⟩
  · cases h

/-- In a run the row is always as it should be exactly if the rows before always fit. -/
theorem marks_iff_fits (settings : Settings) (job : VideoJob) {s₀ : World} {c : Moment} :
    ReachVia (Starts settings) Does (MarksJob job) s₀ c ↔
      ReachVia (Starts settings) Does (FitsJob job) s₀ c := by
  refine runVia_congr fun c l c' hs => forall_congr' fun e => ?_
  refine imp_congr_right fun hl => imp_congr_right fun hreturns => ?_
  subst hl
  cases hs with
  | call hrun hdoes =>
    obtain ⟨now, hdb⟩ := commit_of_returns hreturns hdoes
    exact marked_iff hdb

/-! ### An attempt that Postgres has not seen -/

/-- In such runs the row is right as long as the call is the last one. -/
theorem marked_of_last {settings : Settings} {s₀ : World} {c : Moment}
    (h : ReachVia (Starts settings) Does (MarksJob job) s₀ c) {e : Call} {past : Past}
    (hlast : c.history = e :: past) (hreturns : returns job e = true) :
    Marked c.state.db job := by
  induction h with
  | init => cases hlast
  | step _ hs hc ih =>
    cases hs with
    | start => exact ih hlast
    | kill => exact ih hlast
    | call hrun hdoes =>
      obtain ⟨rfl, -⟩ := List.cons.inj hlast
      exact hc _ rfl hreturns

/-- The first download breaks, then the second `mark_processing`; the third attempt marks its job. -/
def uncountedAttempt : Script :=
  enqueueScript {} ++ startAttempt {} 0 :: calls (.attempt 0) 9 clean ++
    breaks (.attempt 0) :: calls (.attempt 0) 6 clean ++
    startAttempt {} 1 :: calls (.attempt 1) 5 clean ++
    breaks (.attempt 1) :: calls (.attempt 1) 5 clean ++
    startAttempt {} 2 :: calls (.attempt 2) 8 clean

theorem legal_uncountedAttempt : ∀ t ∈ uncountedAttempt, t.Legal (Starts {}) := by
  simp only [uncountedAttempt, List.forall_mem_append]
  exact ⟨⟨⟨⟨⟨legal_enqueue, legal_thenCalls legal_startAttempt⟩, legal_thenCalls trivial⟩,
    legal_thenCalls legal_startAttempt⟩, legal_thenCalls trivial⟩, legal_thenCalls legal_startAttempt⟩

/-- The job as the third attempt has it. -/
def thirdAttempt : VideoJob := { sampleJob with status := .processing, attempts := 3, startedAt := some 0 }

theorem uncounted_attempt_marked : ¬ ∀ (settings : Settings) (job : VideoJob) (c : Moment),
    Reachable settings c → ReachVia (Starts settings) Does (MarksJob job) {} c := by
  intro hall
  obtain ⟨c, hreach, hp⟩ := reach_of_script legal_uncountedAttempt
    (p := fun c => decide ((∃ e ∈ c.history.head?, returns thirdAttempt e = true) ∧
      ¬ Marked c.state.db thirdAttempt)) (by decide +kernel)
  obtain ⟨⟨e, he, hreturns⟩, hnot⟩ := of_decide_eq_true hp
  obtain ⟨past, hlast⟩ := List.head?_eq_some_iff.mp he
  exact hnot (marked_of_last (hall {} thirdAttempt c hreach) hlast hreturns)

end NsfwDetector.Marking
