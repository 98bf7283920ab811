import NsfwDetector.System.Callers

/-!
# What the pipeline calls before its verdict

Up to the verdict an attempt only looks outside: it calls no store. Its frames keep their indices.
-/

namespace NsfwDetector

open Effects

/-- Calls to no store. -/
def Op.Local : Op → Prop
  | .now | .downloadVideo _ | .probe _ _ | .ffmpeg _ | .moderateImages _ => True
  | _ => False

/-! ## Batches -/

theorem flatMap_slices {α : Type} (l : List α) (n m : Nat) :
    ((List.range m).map fun k => (l.drop (k * n)).take n).flatten = l.take (m * n) := by
  induction m with
  | zero => simp
  | succ m ih =>
    rw [List.range_succ, List.map_append, List.flatten_append, ih, Nat.succ_mul, List.take_add]
    simp

theorem flatten_frameBatches {frames : List ExtractedFrame} {batchSize : Int}
    {batches : List (List ExtractedFrame)} (hpos : 1 ≤ batchSize)
    (h : frameBatches frames batchSize = .ok batches) : batches.flatten = frames := by
  simp only [frameBatches, if_neg (show batchSize ≠ 0 by omega),
    if_neg (show ¬ batchSize < 0 by omega), Except.ok.injEq] at h
  rw [← h, flatMap_slices]
  apply List.take_of_length_le
  have hsize : 0 < batchSize.toNat := by omega
  have := Nat.div_add_mod (frames.length + batchSize.toNat - 1) batchSize.toNat
  have := Nat.mod_lt (frames.length + batchSize.toNat - 1) hsize
  rw [Nat.mul_comm]
  omega

theorem frameBatches_ok {batchSize : Int} (frames : List ExtractedFrame) (hpos : 1 ≤ batchSize) :
    ∃ batches, frameBatches frames batchSize = .ok batches ∧ batches.flatten = frames ∧
      ∀ batch ∈ batches, (batch.length : Int) ≤ batchSize := by
  obtain ⟨batches, hbatches⟩ : ∃ batches, frameBatches frames batchSize = .ok batches := by
    rw [frameBatches, if_neg (by omega), if_neg (by omega)]
    exact ⟨_, rfl⟩
  refine ⟨batches, hbatches, flatten_frameBatches hpos hbatches, fun batch hbatch => ?_⟩
  rw [frameBatches, if_neg (by omega), if_neg (by omega)] at hbatches
  rw [← Except.ok.inj hbatches] at hbatch
  obtain ⟨k, -, rfl⟩ := List.mem_map.mp hbatch
  have := List.length_take_le batchSize.toNat (frames.drop (k * batchSize.toNat))
  omega

theorem frameBatches_empty {frames : List ExtractedFrame} {batchSize : Int}
    {batches : List (List ExtractedFrame)} (hpos : ¬ 1 ≤ batchSize)
    (h : frameBatches frames batchSize = .ok batches) : batches = [] := by
  unfold frameBatches at h
  split at h
  · cases h
  · rw [if_pos (by omega)] at h
    exact (Except.ok.inj h).symm

theorem frameBatches_sublist {frames : List ExtractedFrame} {batchSize : Int}
    {batches : List (List ExtractedFrame)} (h : frameBatches frames batchSize = .ok batches) :
    batches.flatten.Sublist frames := by
  by_cases hpos : 1 ≤ batchSize
  · rw [flatten_frameBatches hpos h]
  · rw [frameBatches_empty hpos h]
    exact List.nil_sublist _

theorem framesFromPaths_indices (paths : List String) :
    ((framesFromPaths paths).map (·.frameIndex)).Nodup := by
  have hmap : (framesFromPaths paths).map (·.frameIndex) =
      List.range (paths.insertionSort Paths.Le).length := by
    apply List.ext_getElem <;> simp [framesFromPaths]
  rw [hmap]
  exact List.nodup_range

/-! ## Frame results -/

/-- Results that frames of `frames` became, in their order. -/
structure ResultsOf (frames : List ExtractedFrame) (results : List FrameModerationResult) : Prop where
  indices : (results.map (·.frameIndex)).Sublist (frames.map (·.frameIndex))
  severities : ∀ result ∈ results, result.overallSeverity ≤ 5 ∧ ∀ c, result.categories c ≤ 5

theorem resultsOf_nil : ResultsOf [] [] := ⟨List.Sublist.refl _, fun _ h => absurd h List.not_mem_nil⟩

theorem ResultsOf.append {frames frames' : List ExtractedFrame}
    {results results' : List FrameModerationResult} (h : ResultsOf frames results)
    (h' : ResultsOf frames' results') : ResultsOf (frames ++ frames') (results ++ results') where
  indices := by
    rw [List.map_append, List.map_append]
    exact h.indices.append h'.indices
  severities result hr := (List.mem_append.mp hr).elim (h.severities result) (h'.severities result)

theorem resultsOf_zipWith (frames : List ExtractedFrame) (parsed : List FrameModerationOutput) :
    ResultsOf frames (List.zipWith toFrameModerationResult frames parsed) := by
  induction frames generalizing parsed with
  | nil => exact resultsOf_nil
  | cons frame frames ih =>
    cases parsed with
    | nil => exact ⟨List.nil_sublist _, fun _ h => absurd h List.not_mem_nil⟩
    | cons output parsed =>
      refine ⟨(ih parsed).indices.cons_cons frame.frameIndex, fun result hr => ?_⟩
      rcases List.mem_cons.mp hr with rfl | hr
      · exact ⟨output.overallSeverity_le, output.severity_le⟩
      · exact (ih parsed).severities result hr

theorem visualAttempt_within (frames : List ExtractedFrame) :
    (visualAttempt frames).Within Op.Local (ResultsOf frames) :=
  .bind (.perform _ trivial) fun parsed _ => .pure (resultsOf_zipWith frames parsed)

theorem moderateFrameBatch_within (settings : Settings) (frames : List ExtractedFrame) :
    (moderateFrameBatch settings frames).Within Op.Local (ResultsOf frames) := by
  rw [moderateFrameBatch]
  split
  · next hnil => exact .pure (hnil ▸ resultsOf_nil)
  · split
    · exact .throw
    · exact modelAttempts_within (visualAttempt_within frames)

theorem moderateBatches_within (settings : Settings) (batches : List (List ExtractedFrame))
    {done : List ExtractedFrame} {frameResults : List FrameModerationResult}
    (h : ResultsOf done frameResults) :
    (moderateBatches settings frameResults batches).Within Op.Local
      (ResultsOf (done ++ batches.flatten)) := by
  induction batches generalizing done frameResults with
  | nil => exact .pure (by simpa using h)
  | cons batch rest ih =>
    refine .bind (moderateFrameBatch_within settings batch) fun results hresults => ?_
    have := ih (h.append hresults)
    rwa [List.append_assoc] at this

/-! ## The verdict -/

/-- What the pipeline knows once it has a verdict for `job`. -/
structure Classification (settings : Settings) (job : VideoJob)
    (v : VideoMetadata × List FrameModerationResult × VideoModerationResult) : Prop where
  verdict : ∃ now, aggregate settings job.jobId job.videoId job.policyVersion v.2.1 now = .ok v.2.2
  batchSize : 1 ≤ settings.frameBatchSize
  indices : (v.2.1.map (·.frameIndex)).Nodup
  severities : ∀ frame ∈ v.2.1, frame.overallSeverity ≤ 5 ∧ ∀ c, frame.categories c ≤ 5

namespace Classification

variable {settings : Settings} {job : VideoJob}
  {v : VideoMetadata × List FrameModerationResult × VideoModerationResult}

theorem aggregated (h : Classification settings job v) : ∃ now, v.2.1 ≠ [] ∧
    v.2.2 = NsfwDetector.aggregated settings job.jobId job.videoId job.policyVersion v.2.1 now := by
  obtain ⟨now, hnow⟩ := h.verdict
  simp only [aggregate] at hnow
  split at hnow
  · cases hnow
  · next hne => exact ⟨now, hne, (Except.ok.inj hnow).symm⟩

theorem jobId (h : Classification settings job v) : v.2.2.jobId = job.jobId := by
  obtain ⟨now, -, hv⟩ := h.aggregated
  rw [hv]
  rfl

theorem videoId (h : Classification settings job v) : v.2.2.videoId = job.videoId := by
  obtain ⟨now, -, hv⟩ := h.aggregated
  rw [hv]
  rfl

end Classification

theorem extractFrames_within (jobId : String) :
    (extractFrames jobId).Within Op.Local fun frames => (frames.map (·.frameIndex)).Nodup := by
  refine .bind (.perform _ trivial) fun paths _ => ?_
  simp only
  split
  · exact .throw
  · exact .pure (framesFromPaths_indices paths)

theorem classify_within (settings : Settings) (job : VideoJob) :
    (classify settings job).Within Op.Local (Classification settings job) := by
  refine .bind (.perform (Op.downloadVideo _) trivial) fun _ _ => ?_
  refine .bind (.perform (Op.probe _ _) trivial) fun metadata _ => ?_
  refine .bind (extractFrames_within job.jobId) fun frames hframes => ?_
  refine .bind (.done _) fun batches hbatches => ?_
  refine .bind (moderateBatches_within settings batches resultsOf_nil) fun results hresults => ?_
  refine .bind (.perform Op.now trivial) fun now _ => .bind (.done _) fun result hresult => .pure ?_
  refine ⟨⟨now, hresult⟩, ?_, ?_, hresults.severities⟩
  · by_contra hpos
    rw [frameBatches_empty hpos hbatches] at hresults
    have hnil : results = [] := by simpa using hresults.indices
    rw [hnil] at hresult
    cases hresult
  · exact ((hresults.indices.trans (frameBatches_sublist hbatches |>.map _)).nodup hframes)

end NsfwDetector
