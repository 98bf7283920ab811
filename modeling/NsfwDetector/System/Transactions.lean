import NsfwDetector.Services.Detection

/-! # What the three transactions of the worker do -/

namespace NsfwDetector

variable {db db' : Db} {now : Time}

/-! ## Marking a job -/

theorem markProcessingTx_ok {job : VideoJob} (h : db.applyAll now (markProcessingTx job) = .ok db') :
    ∃ c, db.insertVideoJobOrNothing job.inserted = .ok c ∧
      db' = c.updateJob job.jobId (Db.processingRow now) := by
  obtain ⟨c, hc, hrest⟩ := Db.applyAll_cons_ok.mp h
  obtain ⟨d, hd, hnil⟩ := Db.applyAll_cons_ok.mp hrest
  obtain rfl := Except.ok.inj hd
  exact ⟨c, hc, (Except.ok.inj hnil).symm⟩

theorem markProcessingTx_job? {job : VideoJob}
    (h : db.applyAll now (markProcessingTx job) = .ok db') :
    (∀ other, other ≠ job.jobId → db'.job? other = db.job? other) ∧
      ∀ row, db'.job? job.jobId = some row → row.status = .processing := by
  obtain ⟨c, hc, rfl⟩ := markProcessingTx_ok h
  have hjob := c.updateJob_job? (Db.processingRow now) (fun _ => rfl) job.jobId
  constructor
  · intro other hother
    rw [hjob, if_neg hother]
    rcases Db.insertVideoJobOrNothing_job? hc other with heq | ⟨heq, -⟩
    · exact heq
    · exact absurd heq hother
  · intro row hrow
    rw [hjob, if_pos rfl] at hrow
    obtain ⟨old, -, rfl⟩ := Option.map_eq_some_iff.mp hrow
    rfl

/-- A row that is there is marked. A new one is inserted first, unless another job is the same work. -/
theorem markProcessingTx_row {job : VideoJob}
    (h : db.applyAll now (markProcessingTx job) = .ok db') :
    (∀ row, db.job? job.jobId = some row → db'.job? job.jobId = some (Db.processingRow now row)) ∧
      (db.job? job.jobId = none → db'.job? job.jobId =
        if ∃ other ∈ db.jobs, other.triple = job.triple then none
        else some (Db.processingRow now job.inserted)) := by
  obtain ⟨c, hc, rfl⟩ := markProcessingTx_ok h
  have hjob := c.updateJob_job? (Db.processingRow now) (fun _ => rfl) job.jobId job.jobId
  rw [if_pos rfl] at hjob
  constructor
  · intro row hrow
    rcases Db.insertVideoJobOrNothing_job? hc job.jobId with hsame | ⟨-, hnone, -⟩
    · rw [hjob, hsame, hrow]
      rfl
    · cases hnone.symm.trans hrow
  · intro hnone
    have hunknown : ∀ other ∈ db.jobs, other.jobId ≠ job.jobId := by
      intro other ho heq
      have hknown : db.Known job.jobId := ⟨other, ho, heq⟩
      rw [← Db.job?_isSome_iff, hnone] at hknown
      cases hknown
    rw [hjob]
    rcases Db.insertVideoJobOrNothing_ok hc with ⟨⟨other, ho, hsame⟩, rfl⟩ | ⟨hnew, rfl⟩
    · rw [if_pos ⟨other, ho, hsame.resolve_left (hunknown other ho)⟩, hnone]
      rfl
    · rw [if_neg fun ⟨other, ho, heq⟩ => hnew ⟨other, ho, .inr heq⟩]
      simp [Db.job?, VideoJob.inserted]

/-- The job is there afterwards if it was, or if no other job is the same work. -/
theorem markProcessingTx_known {job : VideoJob}
    (h : db.applyAll now (markProcessingTx job) = .ok db') :
    db'.Known job.jobId ↔
      db.Known job.jobId ∨ ¬ ∃ other ∈ db.jobs, other.triple = job.triple := by
  obtain ⟨c, hc, rfl⟩ := markProcessingTx_ok h
  rw [Db.updateJob_known c (Db.processingRow now) (fun _ => rfl)]
  rcases Db.insertVideoJobOrNothing_ok hc with ⟨⟨other, ho, hsame⟩, rfl⟩ | ⟨hnew, rfl⟩
  · refine ⟨.inl, fun h => h.elim id fun hfree => ⟨other, ho, hsame.resolve_right fun ht => ?_⟩⟩
    exact hfree ⟨other, ho, ht⟩
  · refine iff_of_true ⟨_, List.mem_cons_self, rfl⟩ (.inr fun ⟨other, ho, ht⟩ => ?_)
    exact hnew ⟨other, ho, .inr ht⟩

theorem markProcessingTx_applies {job : VideoJob} (hcreated : job.createdAt ≠ none)
    (hupdated : job.updatedAt ≠ none) : ∃ db', db.applyAll now (markProcessingTx job) = .ok db' := by
  have hstamped : ¬ (job.inserted.createdAt = none ∨ job.inserted.updatedAt = none) :=
    not_or.mpr ⟨hcreated, hupdated⟩
  obtain ⟨c, hc⟩ : ∃ c, db.insertVideoJobOrNothing job.inserted = .ok c := by
    rw [Db.insertVideoJobOrNothing, if_neg hstamped]
    split <;> exact ⟨_, rfl⟩
  exact ⟨_, Db.applyAll_cons_ok.mpr ⟨c, hc, Db.applyAll_cons_ok.mpr ⟨_, rfl, rfl⟩⟩⟩

theorem markFailedTx_job? {jobId errorCode errorMessage : String} {status : VideoJobStatus}
    (h : db.applyAll now [.markFailed jobId status errorCode errorMessage] = .ok db') :
    (∀ other, other ≠ jobId → db'.job? other = db.job? other) ∧
      ∀ row, db'.job? jobId = some row → row.status = status := by
  obtain ⟨c, hc, hnil⟩ := Db.applyAll_cons_ok.mp h
  obtain rfl := Except.ok.inj hnil
  obtain rfl := Except.ok.inj hc
  have hjob := db.updateJob_job? (Db.failedRow status errorCode errorMessage now) (fun _ => rfl) jobId
  constructor
  · intro other hother
    rw [hjob, if_neg hother]
  · intro row hrow
    rw [hjob, if_pos rfl] at hrow
    obtain ⟨old, -, rfl⟩ := Option.map_eq_some_iff.mp hrow
    rfl

/-! ## The final transaction -/

section

variable {settings : Settings} {job : VideoJob} {frames : List FrameModerationResult}
  {result : VideoModerationResult} {action : Option StorageAction}

@[simp] theorem insertFinalResult_mem_finalTx (row : VideoResultRow) :
    .insertFinalResult row ∈ finalTx settings job frames result action ↔
      row = videoResultToRow result := by
  simp only [finalTx, frameWrites]
  split <;> simp

@[simp] theorem markClassified_mem_finalTx (jobId : String) :
    .markClassified jobId ∈ finalTx settings job frames result action ↔ jobId = job.jobId := by
  simp only [finalTx, frameWrites]
  split <;> simp

@[simp] theorem insertFrameResults_mem_finalTx (rows : List FrameResultRow) :
    .insertFrameResults rows ∈ finalTx settings job frames result action ↔
      rows = frameRows settings job result frames ∧ rows ≠ [] := by
  simp only [finalTx, frameWrites]
  split
  · next hnil => simp [hnil]
  · next hne =>
    simp only [List.cons_append, List.nil_append, List.mem_cons, Write.insertFrameResults.injEq]
    constructor
    · rintro (rfl | h)
      · exact ⟨rfl, hne⟩
      · simp at h
    · exact fun h => .inl h.1

@[simp] theorem insertStorageAction_mem_finalTx (a : StorageAction) :
    .insertStorageAction a ∈ finalTx settings job frames result action ↔ action = some a := by
  simp only [finalTx, frameWrites]
  split <;> simp

theorem finalTx_rows (h : db.applyAll now (finalTx settings job frames result action) = .ok db') :
    (∀ row, row ∈ db'.results ↔ row ∈ db.results ∨ row = videoResultToRow result) ∧
    (∀ row, row ∈ db'.frames ↔ row ∈ db.frames ∨ row ∈ frameRows settings job result frames) ∧
    (∀ a, a ∈ db'.actions ↔ a ∈ db.actions ∨ action = some a) := by
  refine ⟨fun row => ?_, fun row => ?_, fun a => ?_⟩
  · rw [Db.mem_results h, insertFinalResult_mem_finalTx]
  · rw [Db.mem_frames h]
    simp only [insertFrameResults_mem_finalTx]
    constructor
    · rintro (hrow | ⟨rows, ⟨rfl, -⟩, hrow⟩)
      · exact .inl hrow
      · exact .inr hrow
    · rintro (hrow | hrow)
      · exact .inl hrow
      · exact .inr ⟨_, ⟨rfl, List.ne_nil_of_mem hrow⟩, hrow⟩
  · rw [Db.mem_actions h, insertStorageAction_mem_finalTx]

/-- The statements of the final transaction before its last one leave the jobs alone. -/
theorem finalTx_split (settings : Settings) (job : VideoJob) (frames : List FrameModerationResult)
    (result : VideoModerationResult) (action : Option StorageAction) : ∃ inserts, (∀ write ∈ inserts, Db.OffJobs write) ∧
    .insertFinalResult (videoResultToRow result) ∈ inserts ∧
    finalTx settings job frames result action = inserts ++ [.markClassified job.jobId] := by
  refine ⟨frameWrites (frameRows settings job result frames) ++
    (.insertFinalResult (videoResultToRow result) :: action.toList.map .insertStorageAction), ?_, ?_, ?_⟩
  · intro write hw
    simp only [frameWrites, List.mem_append, List.mem_cons, List.mem_map] at hw
    rcases hw with hw | rfl | ⟨a, -, rfl⟩
    · split at hw
      · cases hw
      · rw [List.mem_singleton.mp hw]
        trivial
    · trivial
    · trivial
  · simp
  · simp [finalTx]

/-- A transaction can bring the result of a job only if the job is there and has none yet. -/
theorem new_of_insertFinalResult {tx : List Write} {row : VideoResultRow}
    (h : db.applyAll now tx = .ok db') (hmem : .insertFinalResult row ∈ tx)
    (htx : ∀ write ∈ tx, Db.OffJobs write) :
    db.Known row.jobId ∧ ∀ other ∈ db.results, other.jobId ≠ row.jobId := by
  obtain ⟨before, after, rfl⟩ := List.append_of_mem hmem
  obtain ⟨c, hc, hrest⟩ := Db.applyAll_append_ok.mp h
  obtain ⟨d, hd, -⟩ := Db.applyAll_cons_ok.mp hrest
  obtain ⟨hknown, hnew, -⟩ := Db.insertFinalResult_ok hd
  refine ⟨?_, fun other ho => hnew other ((Db.mem_results hc other).mpr (.inl ho))⟩
  rwa [Db.Known, Db.applyAll_offJobs hc fun w hw => htx w (List.mem_append_left _ hw)] at hknown

theorem new_of_finalTx (hid : result.jobId = job.jobId)
    (h : db.applyAll now (finalTx settings job frames result action) = .ok db') :
    db.Known job.jobId ∧ ∀ other ∈ db.results, other.jobId ≠ job.jobId := by
  obtain ⟨inserts, hoff, hmem, htx⟩ := finalTx_split settings job frames result action
  rw [htx] at h
  obtain ⟨c, hc, -⟩ := Db.applyAll_append_ok.mp h
  rw [← hid]
  exact new_of_insertFinalResult hc hmem hoff

/-- On the jobs the transaction only marks its own, if it is there. -/
theorem finalTx_marks (h : db.applyAll now (finalTx settings job frames result action) = .ok db')
    (other : String) : db'.job? other =
      if other = job.jobId then (db.job? other).map (Db.classifiedRow now) else db.job? other := by
  obtain ⟨inserts, hoff, -, htx⟩ := finalTx_split settings job frames result action
  rw [htx] at h
  obtain ⟨c, hc, hlast⟩ := Db.applyAll_append_ok.mp h
  obtain ⟨d, hd, hnil⟩ := Db.applyAll_cons_ok.mp hlast
  obtain rfl := Except.ok.inj hnil
  obtain rfl := Except.ok.inj hd
  have hsame : c.job? other = db.job? other := by rw [Db.job?, Db.job?, Db.applyAll_offJobs hc hoff]
  rw [c.updateJob_job? (Db.classifiedRow now) (fun _ => rfl) job.jobId other, hsame]

theorem finalTx_job? (hid : result.jobId = job.jobId)
    (h : db.applyAll now (finalTx settings job frames result action) = .ok db') :
    (∀ other, other ≠ job.jobId → db'.job? other = db.job? other) ∧
      ∃ row, db'.job? job.jobId = some row ∧ row.status = .classified := by
  constructor
  · intro other hother
    rw [finalTx_marks h, if_neg hother]
  · obtain ⟨old, hold⟩ :=
      Option.isSome_iff_exists.mp ((Db.job?_isSome_iff job.jobId).mpr (new_of_finalTx hid h).1)
    refine ⟨Db.classifiedRow now old, ?_, rfl⟩
    rw [finalTx_marks h, if_pos rfl, hold]
    rfl

end

end NsfwDetector
