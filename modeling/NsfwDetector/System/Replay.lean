import NsfwDetector.System.Publishing

/-!
# What a second attempt meets

Every frame row and every storage action carries the id of its own job, and stands beside a result
of that job. So the final transaction of a job without a result meets nothing of an earlier one.
-/

namespace NsfwDetector

open Effects

/-! ## Ids -/

theorem colon_notMem_repr (n : Nat) : ':' ∉ (toString n).toList := by
  intro hmem
  have hmem : ':' ∈ Nat.toDigits 10 n := by rwa [← Nat.toList_repr]
  have hdigit := Nat.isDigit_of_mem_toDigits (by decide) (by decide) hmem
  revert hdigit
  decide

theorem toString_nat_injective {n n' : Nat} (h : (toString n).toList = (toString n').toList) :
    n = n' := by
  have h : Nat.toDigits 10 n = Nat.toDigits 10 n' := by
    rw [← Nat.toList_repr, ← Nat.toList_repr]
    exact h
  rw [← Nat.ofDigitChars_ten_toDigits (n := n), h, Nat.ofDigitChars_ten_toDigits]

theorem toList_frameId (jobId : String) (index : Nat) :
    (frameId jobId index).toList = jobId.toList ++ ':' :: (toString index).toList := by
  rw [frameId, String.toList_append, String.toList_append, List.append_assoc]
  rfl

theorem frameId_inj {jobId jobId' : String} {index index' : Nat}
    (h : frameId jobId index = frameId jobId' index') : jobId = jobId' ∧ index = index' := by
  have h := congrArg String.toList h
  rw [toList_frameId, toList_frameId] at h
  obtain ⟨hjob, hindex⟩ := Search.append_cons_inj_last (colon_notMem_repr _) (colon_notMem_repr _) h
  exact ⟨String.toList_inj.mp hjob, toString_nat_injective hindex⟩

theorem toList_labelled (label jobId uuid : String) :
    (label ++ jobId ++ ":" ++ uuid).toList = label.toList ++ (jobId.toList ++ ':' :: uuid.toList) := by
  simp only [String.toList_append, List.append_assoc]
  rfl

theorem actionId_jobId {jobId jobId' uuid uuid' : String} (hu : ':' ∉ uuid.toList)
    (hu' : ':' ∉ uuid'.toList) (h : actionId jobId uuid = actionId jobId' uuid') : jobId = jobId' := by
  have h := congrArg String.toList h
  unfold actionId at h
  rw [toList_labelled, toList_labelled] at h
  exact String.toList_inj.mp (Search.append_cons_inj_last hu hu' (List.append_cancel_left h)).1

namespace Publication

variable {settings : Settings} {s s' : World}

/-! ## Rows beside their result -/

structure Sane (s : World) : Prop where
  consistent : Consistent s
  frames : ∀ row ∈ s.db.frames,
    row.frameId = frameId row.jobId row.frameIndex ∧ HasResult s row.jobId
  actions : ∀ action ∈ s.db.actions, HasResult s action.jobId ∧
    ∃ uuid, ':' ∉ uuid.toList ∧ action.actionId = actionId action.jobId uuid

theorem sane_commit {i : Caller} {past : Past} {tx : List Write} {db : Db} {now : Time}
    (hmay : TxOk settings i past tx) (hdb : s.db.applyAll now tx = .ok db) (hsane : Sane s)
    (hconsistent : Consistent { s with db := db }) : Sane { s with db := db } := by
  have hkept : ∀ jobId, HasResult s jobId → HasResult { s with db := db } jobId :=
    fun jobId ⟨row, hrow, hid⟩ => ⟨row, (Db.mem_results hdb row).mpr (.inl hrow), hid⟩
  refine ⟨hconsistent, fun row hrow => ?_, fun action haction => ?_⟩
  · rcases (Db.mem_frames hdb row).mp hrow with hin | ⟨rows, hmem, hin⟩
    · exact ⟨(hsane.frames row hin).1, hkept _ (hsane.frames row hin).2⟩
    · cases hmay with
      | processing | failed => simp [markProcessingTx] at hmem
      | @final job frames result action h =>
        obtain ⟨rfl, -⟩ := (insertFrameResults_mem_finalTx rows).mp hmem
        obtain ⟨frame, -, rfl⟩ := List.mem_map.mp hin
        exact ⟨rfl, videoResultToRow result, ((finalTx_rows hdb).1 _).mpr (.inr rfl), h.jobId⟩
  · rcases (Db.mem_actions hdb action).mp haction with hin | hmem
    · exact ⟨hkept _ (hsane.actions action hin).1, (hsane.actions action hin).2⟩
    · cases hmay with
      | processing | failed => simp [markProcessingTx] at hmem
      | @final job frames result found h =>
        obtain ⟨response, uuid, created, rfl, huuid⟩ :=
          h.action action ((insertStorageAction_mem_finalTx action).mp hmem)
        refine ⟨⟨videoResultToRow result, ((finalTx_rows hdb).1 _).mpr (.inr rfl), h.jobId⟩, ?_⟩
        exact ⟨uuid, huuid, rfl⟩

variable {cond : StepCond Caller World Ans PyException Reply} {c c' : Moment}

theorem sane (h : ReachVia (Starts settings) Does cond {} c) : Sane c.state := by
  refine always (R := fun s _ => Sane s) ?_ ?_ h
  · exact ⟨consistent_empty, fun _ h => absurd h List.not_mem_nil, fun _ h => absurd h List.not_mem_nil⟩
  · intro s past i op o s' hinv hmay hdoes hsane
    have hconsistent := hinv.call hmay hdoes
    cases hdoes.change with
    | nothing | writes | group | read => exact ⟨hconsistent, hsane.frames, hsane.actions⟩
    | commit _ hdb => exact sane_commit hmay hdb hsane hconsistent

/-! ## The final transaction of a job without a result -/

theorem frames_apart {job : VideoJob} {result : VideoModerationResult}
    {frames : List FrameModerationResult} (hindices : (frames.map (·.frameIndex)).Nodup) :
    (frameRows settings job result frames).Pairwise Db.Apart := by
  rw [frameRows, List.pairwise_map]
  refine (List.pairwise_map.mp hindices).imp fun hne => ⟨fun hid => ?_, fun h => hne h.2⟩
  exact hne (frameId_inj hid).2

variable {job : VideoJob} {now : Time}
  {v : VideoMetadata × List FrameModerationResult × VideoModerationResult}

theorem insertFrameRows_applies (hsane : Sane s) (hv : Classification settings job v)
    (hknown : s.db.Known job.jobId) (hnone : ¬ HasResult s job.jobId) :
    ∃ db, (frameRows settings job v.2.2 v.2.1).foldlM Db.insertFrameResult s.db = .ok db := by
  have hrows : ∀ row ∈ frameRows settings job v.2.2 v.2.1, ∃ frame ∈ v.2.1,
      row.jobId = job.jobId ∧ row.frameId = frameId job.jobId frame.frameIndex ∧
        row.overallSeverity = frame.overallSeverity ∧ row.severities = frame.categories := by
    intro row hrow
    obtain ⟨frame, hframe, rfl⟩ := List.mem_map.mp hrow
    exact ⟨frame, hframe, rfl, rfl, rfl, rfl⟩
  refine Db.insertFrameResults_applies (fun row hrow => ?_) (fun row hrow => ?_)
    (frames_apart hv.indices) fun row hrow other hother => ?_
  · obtain ⟨frame, -, hid, -⟩ := hrows row hrow
    exact hid ▸ hknown
  · obtain ⟨frame, hframe, -, -, hoverall, hseverities⟩ := hrows row hrow
    rw [hoverall, hseverities]
    exact hv.severities frame hframe
  · obtain ⟨frame, -, hjob, hid, -⟩ := hrows row hrow
    obtain ⟨hother, hresult⟩ := hsane.frames other hother
    have hne : job.jobId ≠ other.jobId := fun heq => hnone (heq ▸ hresult)
    rw [Db.Apart, hid, hother, hjob]
    exact ⟨fun h => hne (frameId_inj h).1, fun h => hne h.1⟩

theorem frameWrites_applies (hsane : Sane s) (hv : Classification settings job v)
    (hknown : s.db.Known job.jobId) (hnone : ¬ HasResult s job.jobId) :
    ∃ frames, s.db.applyAll now (frameWrites (frameRows settings job v.2.2 v.2.1)) =
      .ok { s.db with frames := frames } := by
  unfold frameWrites
  split
  · exact ⟨s.db.frames, rfl⟩
  · obtain ⟨db, hdb⟩ := insertFrameRows_applies hsane hv hknown hnone
    obtain ⟨-, rfl⟩ := Db.insertFrameResults_ok hdb
    exact ⟨_, Db.applyAll_cons_ok.mpr ⟨_, hdb, rfl⟩⟩

def ActionOf (job : VideoJob) (action : StorageAction) : Prop :=
  action.jobId = job.jobId ∧ ∃ uuid, ':' ∉ uuid.toList ∧ action.actionId = actionId job.jobId uuid

theorem action_new {action : StorageAction} (hsane : Sane s) (hnone : ¬ HasResult s job.jobId)
    (haction : ActionOf job action) : ∀ other ∈ s.db.actions, other.actionId ≠ action.actionId := by
  intro other hother heq
  obtain ⟨-, uuid, huuid, hid⟩ := haction
  obtain ⟨hresult, uuid', huuid', hid'⟩ := hsane.actions other hother
  rw [hid, hid'] at heq
  exact hnone (actionId_jobId huuid' huuid heq ▸ hresult)

/-- Nothing stands in the way of the final transaction of a job that is there, without a result. -/
theorem finalTx_applies {action : Option StorageAction} (hsane : Sane s)
    (hv : Classification settings job v) (hknown : s.db.Known job.jobId)
    (hnone : ¬ HasResult s job.jobId) (haction : ∀ a, action = some a → ActionOf job a) :
    ∃ db, s.db.applyAll now (finalTx settings job v.2.1 v.2.2 action) = .ok db := by
  obtain ⟨frames, hframes⟩ : ∃ frames,
      s.db.applyAll now (frameWrites (frameRows settings job v.2.2 v.2.1)) =
        .ok { s.db with frames := frames } := frameWrites_applies hsane hv hknown hnone
  have hresult : Db.insertFinalResult { s.db with frames := frames } (videoResultToRow v.2.2) =
      .ok { s.db with frames := frames, results := videoResultToRow v.2.2 :: s.db.results } := by
    have hid : (videoResultToRow v.2.2).jobId = job.jobId := hv.jobId
    refine Db.insertFinalResult_applies (hid ▸ hknown) fun other ho heq => ?_
    exact hnone ⟨other, ho, heq.trans hid⟩
  obtain ⟨db, hdb⟩ : ∃ db, Db.applyAll now
      { s.db with frames := frames, results := videoResultToRow v.2.2 :: s.db.results }
      (action.toList.map .insertStorageAction) = .ok db := by
    cases action with
    | none => exact ⟨_, rfl⟩
    | some a =>
      have ha := haction a rfl
      obtain ⟨db, hinsert⟩ : ∃ db, Db.insertStorageAction
          { s.db with frames := frames, results := videoResultToRow v.2.2 :: s.db.results } a =
            .ok db :=
        ⟨_, Db.insertStorageAction_applies (ha.1.symm ▸ hknown) (action_new hsane hnone ha)⟩
      exact ⟨db, Db.applyAll_cons_ok.mpr ⟨db, hinsert, rfl⟩⟩
  have hlast : db.applyAll now [.markClassified job.jobId] =
      .ok (db.updateJob job.jobId (Db.classifiedRow now)) := rfl
  have hrest := Db.applyAll_append_ok.mpr ⟨db, hdb, hlast⟩
  exact ⟨_, Db.applyAll_append_ok.mpr ⟨_, hframes, Db.applyAll_cons_ok.mpr ⟨_, hresult, hrest⟩⟩⟩

end Publication

end NsfwDetector
