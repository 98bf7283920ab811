import NsfwDetector.Services.GpuModeration
import NsfwDetector.System.Footprint

/-!
# Each frame gets its own verdict

A batch is asked about until a response is accepted or the attempts are used up. The accepted response
has one output for each frame of its batch, so the results of all batches are those of the frames.
-/

namespace NsfwDetector.Pairing

open Effects Json

/-! ## One batch -/

section

variable {replies : Nat → (op : Op) → Except PyException (Ans op)}

/-- The calls from `n` up to `m` brought no accepted response. -/
def Refused (replies : Nat → (op : Op) → Except PyException (Ans op)) (frames : List ExtractedFrame)
    (n m : Nat) : Prop :=
  n ≤ m ∧ ∀ i, n ≤ i → i < m → ∃ e, replies i (.moderateImages (frames.map (·.path))) = .error e

theorem visualAttempt_against (frames : List ExtractedFrame) (n : Nat) :
    (visualAttempt frames).against replies n =
      ((replies n (.moderateImages (frames.map (·.path)))).map
        (List.zipWith toFrameModerationResult frames), n + 1) := by
  unfold visualAttempt
  cases hreply : replies n (.moderateImages (frames.map (·.path))) with
  | ok parsed => exact Prog.against_bind_ok (by rw [Prog.against_perform, hreply])
  | error e => exact Prog.against_bind_error (by rw [Prog.against_perform, hreply])

theorem failing_iff_refused {frames : List ExtractedFrame} {n m : Nat} :
    Failing (visualAttempt frames) replies n m ↔ Refused replies frames n m := by
  refine and_congr_right fun _ => forall_congr' fun i => forall₂_congr fun _ _ => ?_
  rw [visualAttempt_against]
  cases replies i (.moderateImages (frames.map (·.path))) <;> simp [Except.map]

theorem accepted_reply {frames : List ExtractedFrame} {results : List FrameModerationResult} {m : Nat}
    (h : (visualAttempt frames).against replies m = (.ok results, m + 1)) :
    ∃ parsed, replies m (.moderateImages (frames.map (·.path))) = .ok parsed ∧
      results = List.zipWith toFrameModerationResult frames parsed := by
  rw [visualAttempt_against] at h
  cases hreply : replies m (.moderateImages (frames.map (·.path))) with
  | error e => simp [hreply, Except.map] at h
  | ok parsed => exact ⟨parsed, rfl, by simpa [hreply, Except.map] using h.symm⟩

theorem moderateFrameBatch_against {settings : Settings} {frames : List ExtractedFrame}
    (hne : frames ≠ []) (hsize : (frames.length : Int) ≤ settings.frameBatchSize) (n : Nat) :
    Attempted settings (visualAttempt frames) replies 1 (gpuMaxAttempts settings) n
      ((moderateFrameBatch settings frames).against replies n) := by
  rw [moderateFrameBatch, if_neg hne, if_neg (not_lt.mpr hsize)]
  exact modelAttempts_against (fun i => congrArg Prod.snd (visualAttempt_against frames i)) n

theorem moderateFrameBatch_calls (settings : Settings) (frames : List ExtractedFrame) (n : Nat) :
    ((moderateFrameBatch settings frames).against replies n).2 ≤ n + gpuMaxAttempts settings := by
  by_cases hne : frames = []
  · rw [moderateFrameBatch, if_pos hne]
    exact Nat.le_add_right n _
  · by_cases hsize : (frames.length : Int) ≤ settings.frameBatchSize
    · have hout := @moderateFrameBatch_against replies _ _ hne hsize n
      revert hout
      generalize (moderateFrameBatch settings frames).against replies n = out
      rintro (⟨_, hcalls, _, _⟩ | ⟨_, hcalls, _⟩ | ⟨hpauses, hcalls, _⟩)
      · exact hcalls
      · exact hcalls.le
      · have hmore := (not_or.mp hpauses).1
        simp only
        omega
    · rw [moderateFrameBatch, if_neg hne, if_pos (not_le.mp hsize)]
      exact Nat.le_add_right n _

end

/-! ## Positions -/

section

variable {α β : Type}

/-- Every piece but the last one has `size` elements, and the last one has no more. -/
def Chunked (size : Nat) (pieces : List (List α)) : Prop :=
  ∀ i (h : i < pieces.length), pieces[i].length ≤ size ∧
    (i + 1 < pieces.length → pieces[i].length = size)

theorem Chunked.tail {size : Nat} {piece : List α} {pieces : List (List α)}
    (h : Chunked size (piece :: pieces)) : Chunked size pieces := by
  intro i hi
  obtain ⟨hle, heq⟩ := h (i + 1) (by simpa using hi)
  exact ⟨by simpa using hle, fun hlt => by simpa using heq (by simpa using hlt)⟩

theorem Chunked.of_lengths {size : Nat} {pieces : List (List α)} {pieces' : List (List β)}
    (hlengths : pieces'.map List.length = pieces.map List.length) (h : Chunked size pieces) :
    Chunked size pieces' := by
  have hcount : pieces'.length = pieces.length := by simpa using congrArg List.length hlengths
  have hlength : ∀ i (hi : i < pieces'.length), pieces'[i].length = pieces[i].length := by
    intro i hi
    have := List.getElem_of_eq hlengths (by simpa using hi)
    simpa using this
  intro i hi
  rw [hlength i hi, hcount]
  exact h i (hcount ▸ hi)

/-- Where an element of the whole is among the pieces. -/
theorem Chunked.getElem?_flatten {size : Nat} (hsize : 0 < size) {pieces : List (List α)}
    (h : Chunked size pieces) (k : Nat) :
    pieces.flatten[k]? = (pieces[k / size]?).bind (·[k % size]?) := by
  induction pieces generalizing k with
  | nil => simp
  | cons piece pieces ih =>
    obtain ⟨hle, heq⟩ := h 0 (Nat.zero_lt_succ _)
    simp only [List.getElem_cons_zero, List.length_cons] at hle heq
    rw [List.flatten_cons]
    by_cases hk : k < size
    · rw [Nat.div_eq_of_lt hk, Nat.mod_eq_of_lt hk, List.getElem?_cons_zero, Option.bind_some]
      by_cases hpiece : k < piece.length
      · exact List.getElem?_append_left hpiece
      · -- a short piece is the last one
        have hlast : pieces = [] := by
          by_contra hne
          have := heq (by have := List.length_pos_iff.mpr hne; omega)
          omega
        rw [hlast, List.flatten_nil, List.append_nil]
    · have hrest := ih h.tail (k - size)
      have hdiv : k / size = (k - size) / size + 1 :=
        Nat.div_eq_sub_div hsize (Nat.le_of_not_lt hk)
      have hmod : k % size = (k - size) % size := Nat.mod_eq_sub_mod (Nat.le_of_not_lt hk)
      rw [hdiv, hmod, List.getElem?_cons_succ, ← hrest]
      by_cases hne : pieces = []
      · rw [hne, List.flatten_nil, List.append_nil, List.getElem?_nil]
        exact List.getElem?_eq_none (by omega)
      · have hlength := heq (by have := List.length_pos_iff.mpr hne; omega)
        rw [List.getElem?_append_right (by omega), hlength]

end

/-! ## All batches -/

/-- Every batch has its accepted response: the calls for it begin with call `n`, and those before
the last one are refused. -/
inductive Accepted (replies : Nat → (op : Op) → Except PyException (Ans op)) (maxAttempts : Nat) :
    Nat → List (List ExtractedFrame) → List (List FrameModerationOutput) → Prop
  | nil {n : Nat} : Accepted replies maxAttempts n [] []
  | cons {n m : Nat} {batch : List ExtractedFrame} {batches : List (List ExtractedFrame)}
      {parsed : List FrameModerationOutput} {accepted : List (List FrameModerationOutput)}
      (hcalls : m < n + maxAttempts) (hrefused : Refused replies batch n m)
      (hreply : replies m (.moderateImages (batch.map (·.path))) = .ok parsed)
      (hrest : Accepted replies maxAttempts (m + 1) batches accepted) :
      Accepted replies maxAttempts n (batch :: batches) (parsed :: accepted)

/-- Some batch meets 1025 refusals one after the other, and every batch before it an accepted response. -/
inductive Overflowing (replies : Nat → (op : Op) → Except PyException (Ans op)) :
    Nat → List (List ExtractedFrame) → Prop
  | here {n : Nat} {batch : List ExtractedFrame} {batches : List (List ExtractedFrame)}
      (hrefused : Refused replies batch n (n + Backoff.floatAttempts + 1)) :
      Overflowing replies n (batch :: batches)
  | later {n m : Nat} {batch : List ExtractedFrame} {batches : List (List ExtractedFrame)}
      {parsed : List FrameModerationOutput} (hrefused : Refused replies batch n m)
      (hreply : replies m (.moderateImages (batch.map (·.path))) = .ok parsed)
      (hrest : Overflowing replies (m + 1) batches) : Overflowing replies n (batch :: batches)

section

variable {replies : Nat → (op : Op) → Except PyException (Ans op)} {settings : Settings}

/-- The first accepted response of a batch is the only one. -/
theorem Refused.unique {batch : List ExtractedFrame} {n m m' : Nat}
    {parsed parsed' : List FrameModerationOutput} (h : Refused replies batch n m)
    (hreply : replies m (.moderateImages (batch.map (·.path))) = .ok parsed)
    (h' : Refused replies batch n m')
    (hreply' : replies m' (.moderateImages (batch.map (·.path))) = .ok parsed') : m = m' := by
  rcases Nat.lt_trichotomy m m' with hlt | heq | hlt
  · obtain ⟨e, he⟩ := h'.2 m h.1 hlt
    rw [hreply] at he
    cases he
  · exact heq
  · obtain ⟨e, he⟩ := h.2 m' h'.1 hlt
    rw [hreply'] at he
    cases he

theorem moderateBatches_against {batches : List (List ExtractedFrame)}
    (hne : ∀ batch ∈ batches, batch ≠ [])
    (hsize : ∀ batch ∈ batches, (batch.length : Int) ≤ settings.frameBatchSize)
    (frameResults : List FrameModerationResult) (n : Nat) :
    ((¬ Pauses settings ∧ Overflowing replies n batches) ∧
        ((moderateBatches settings frameResults batches).against replies n).1 = .error overflowError) ∨
      ¬ (¬ Pauses settings ∧ Overflowing replies n batches) ∧
        ((∃ code message statusCode, ((moderateBatches settings frameResults batches).against replies n).1 =
            .error (.appError code message statusCode)) ∨
          ∃ accepted, Accepted replies (gpuMaxAttempts settings) n batches accepted ∧
            ((moderateBatches settings frameResults batches).against replies n).1 = .ok (frameResults ++
              (List.zipWith (List.zipWith toFrameModerationResult) batches accepted).flatten)) := by
  induction batches generalizing frameResults n with
  | nil =>
    refine .inr ⟨fun h => ?_, .inr ⟨[], .nil, by simp [moderateBatches, Prog.pure_eq]⟩⟩
    cases h.2
  | cons batch batches ih =>
    obtain ⟨hbatch, hne⟩ := List.forall_mem_cons.mp hne
    obtain ⟨hbatchSize, hsize⟩ := List.forall_mem_cons.mp hsize
    have hout := @moderateFrameBatch_against replies _ _ hbatch hbatchSize n
    cases hrun : (moderateFrameBatch settings batch).against replies n with
    | mk r m =>
      rw [hrun] at hout
      cases hout with
      | overflown hpauses hcalls hfailing =>
        refine .inl ⟨⟨hpauses, .here ?_⟩, by rw [moderateBatches, Prog.against_bind_error hrun]⟩
        convert failing_iff_refused.mp hfailing using 1
        omega
      | exhausted hpauses hcalls hfailing =>
        obtain ⟨code, message, statusCode, hfailure⟩ := modelFailure_appError _
        refine .inr ⟨fun h => h.1 hpauses, .inl ⟨code, message, statusCode, ?_⟩⟩
        rw [moderateBatches, Prog.against_bind_error hrun, hfailure]
      | @accepted m results hpauses hcalls hfailing hbody =>
        obtain ⟨parsed, hreply, rfl⟩ := accepted_reply hbody
        have hrefused := failing_iff_refused.mp hfailing
        rw [moderateBatches, Prog.against_bind_ok hrun]
        rcases ih hne hsize (frameResults ++ List.zipWith toFrameModerationResult batch parsed) (m + 1) with
          ⟨⟨hnot, hoverflowing⟩, hraised⟩ | ⟨hfine, hresult⟩
        · exact .inl ⟨⟨hnot, .later hrefused hreply hoverflowing⟩, hraised⟩
        · refine .inr ⟨?_, ?_⟩
          · rintro ⟨hnot, hoverflowing⟩
            cases hoverflowing with
            | here hall =>
              have hlt := hpauses.resolve_left hnot
              obtain ⟨e, he⟩ := hall.2 m hrefused.1 (by omega)
              rw [hreply] at he
              cases he
            | later hrefused' hreply' hrest =>
              obtain rfl := hrefused.unique hreply hrefused' hreply'
              exact hfine ⟨hnot, hrest⟩
          · rcases hresult with hfailed | ⟨accepted, haccepted, hresults⟩
            · exact .inl hfailed
            · refine .inr ⟨parsed :: accepted, .cons hcalls hrefused hreply haccepted, ?_⟩
              rw [hresults, List.append_assoc]
              rfl

end

theorem frameBatches_chunked {frames : List ExtractedFrame} {batchSize : Int}
    {batches : List (List ExtractedFrame)} (hpos : 1 ≤ batchSize)
    (h : frameBatches frames batchSize = .ok batches) :
    Chunked batchSize.toNat batches ∧ ∀ batch ∈ batches, batch ≠ [] := by
  rw [frameBatches, if_neg (by omega), if_neg (by omega)] at h
  have hdiv := Nat.div_mul_le_self (frames.length + batchSize.toNat - 1) batchSize.toNat
  have hstart : ∀ i, i < (frames.length + batchSize.toNat - 1) / batchSize.toNat →
      i * batchSize.toNat + batchSize.toNat ≤ frames.length + batchSize.toNat - 1 := by
    intro i hi
    have := Nat.mul_le_mul_right batchSize.toNat (Nat.succ_le_of_lt hi)
    rw [Nat.succ_mul] at this
    omega
  rw [← Except.ok.inj h]
  constructor
  · intro i hi
    simp only [List.length_map, List.length_range] at hi
    simp only [List.getElem_map, List.getElem_range, List.length_take, List.length_drop,
      List.length_map, List.length_range]
    refine ⟨by omega, fun hlt => ?_⟩
    have := hstart (i + 1) hlt
    rw [Nat.succ_mul] at this
    omega
  · intro batch hbatch
    obtain ⟨i, hi, rfl⟩ := List.mem_map.mp hbatch
    have := hstart i (List.mem_range.mp hi)
    rw [← List.length_pos_iff, List.length_take, List.length_drop]
    omega

theorem Accepted.lengths {replies : Nat → (op : Op) → Except PyException (Ans op)} {maxAttempts n : Nat}
    {batches : List (List ExtractedFrame)} {accepted : List (List FrameModerationOutput)}
    (hlength : ∀ i imagePaths parsed, replies i (.moderateImages imagePaths) = .ok parsed →
      parsed.length = imagePaths.length) (h : Accepted replies maxAttempts n batches accepted) :
    List.Forall₂ (fun batch parsed => parsed.length = batch.length) batches accepted := by
  induction h with
  | nil => exact .nil
  | cons _ _ hreply _ ih =>
    refine .cons ?_ ih
    rw [hlength _ _ _ hreply, List.length_map]

/-- Frames and outputs go together one by one, so a batch of results is as long as its batch. -/
theorem lengths_zipWith {f : ExtractedFrame → FrameModerationOutput → FrameModerationResult}
    {batches : List (List ExtractedFrame)} {accepted : List (List FrameModerationOutput)}
    (hlengths : List.Forall₂ (fun batch parsed => parsed.length = batch.length) batches accepted) :
    (List.zipWith (List.zipWith f) batches accepted).map List.length = batches.map List.length := by
  induction hlengths with
  | nil => rfl
  | @cons batch parsed batches accepted hlength _ ih =>
    rw [List.zipWith_cons_cons, List.map_cons, List.map_cons, ih, List.length_zipWith, hlength,
      Nat.min_self]

/-- The result is made of the frame at place `k % size` of batch `k / size`, and of the output there. -/
structure PlacedAt (size k : Nat) (batches : List (List ExtractedFrame))
    (accepted : List (List FrameModerationOutput)) (frame : ExtractedFrame)
    (result : FrameModerationResult) : Prop where
  frame_at : (batches[k / size]?).bind (·[k % size]?) = some frame
  output_at : ∃ parsed output, accepted[k / size]? = some parsed ∧ parsed[k % size]? = some output ∧
    result = toFrameModerationResult frame output

theorem placedAt {size : Nat} (hsize : 0 < size) {batches : List (List ExtractedFrame)}
    {accepted : List (List FrameModerationOutput)}
    (hlengths : List.Forall₂ (fun batch parsed => parsed.length = batch.length) batches accepted)
    (hchunked : Chunked size batches) {k : Nat} {frame : ExtractedFrame}
    (hframe : batches.flatten[k]? = some frame) : ∃ result,
      (List.zipWith (List.zipWith toFrameModerationResult) batches accepted).flatten[k]? = some result ∧
        PlacedAt size k batches accepted frame result := by
  rw [hchunked.getElem?_flatten hsize] at hframe
  obtain ⟨batch, hbatch, hplace⟩ := Option.bind_eq_some_iff.mp hframe
  obtain ⟨hb, hb'⟩ := List.getElem?_eq_some_iff.mp hbatch
  obtain ⟨hp, -⟩ := List.getElem?_eq_some_iff.mp hplace
  have hcount := hlengths.length_eq
  have hlength := (List.forall₂_iff_get.mp hlengths).2 (k / size) hb (hcount ▸ hb)
  simp only [List.get_eq_getElem, hb'] at hlength
  have hparsed : accepted[k / size]? = some accepted[k / size] := List.getElem?_eq_getElem _
  have houtput : accepted[k / size][k % size]? = some accepted[k / size][k % size] :=
    List.getElem?_eq_getElem _
  refine ⟨_, ?_, hframe, _, _, hparsed, houtput, rfl⟩
  rw [(hchunked.of_lengths (lengths_zipWith hlengths)).getElem?_flatten hsize, List.getElem?_zipWith, hbatch, hparsed]
  simp only [Option.bind_some]
  rw [List.getElem?_zipWith, hplace, houtput]

/-! ## The frames of a video -/

section

variable (laxInt : Value → Option Int) (self : GpuModerationService)

/-- What the parser makes of the replies of the client. -/
def modelReplies (replies : Nat → (op : ClientOp) → Except PyException (ClientAns op)) :
    Nat → (op : Op) → Except PyException (Ans op) :=
  fun i op => readReply laxInt self.visualPrompt op (replies i (clientOp self.visualPrompt op))

theorem modelReplies_length {replies : Nat → (op : ClientOp) → Except PyException (ClientAns op)}
    {i : Nat} {imagePaths : List String} {parsed : List FrameModerationOutput}
    (h : modelReplies laxInt self replies i (.moderateImages imagePaths) = .ok parsed) :
    parsed.length = imagePaths.length := by
  simp only [modelReplies, readReply, bind, Except.bind] at h
  split at h
  · cases h
  · exact Int.ofNat.inj (parseVisualBatchResponse_shape h).1

theorem framesFromPaths_getElem? {paths : List String} {k : Nat} (hk : k < paths.length) :
    ∃ path, (framesFromPaths paths)[k]? = some ⟨k, k, path⟩ := by
  have hlength : k < (paths.insertionSort Paths.Le).length := by rwa [List.length_insertionSort]
  exact ⟨(paths.insertionSort Paths.Le)[k], by simp [framesFromPaths]⟩

theorem length_framesFromPaths (paths : List String) : (framesFromPaths paths).length = paths.length := by
  simp [framesFromPaths]

/-- The results are those of the frames of the paths, each with the verdict for it that the accepted
response of its batch has. -/
structure Paired (paths : List String) (replies : Nat → (op : ClientOp) → Except PyException (ClientAns op))
    (batches : List (List ExtractedFrame)) (accepted : List (List FrameModerationOutput))
    (results : List FrameModerationResult) : Prop where
  answered : Accepted (modelReplies laxInt self replies) (max 1 self.settings.gpuMaxAttempts).toNat 0
    batches accepted
  length : results.length = paths.length
  paired : ∀ k (hk : k < results.length),
    results[k].frameIndex = k ∧ results[k].frameTimestampSeconds = k ∧
      ∃ frame, (framesFromPaths paths)[k]? = some frame ∧
        PlacedAt self.settings.frameBatchSize.toNat k batches accepted frame results[k]

/-- The results are paired with the frames, or the loop ended with an `AppError`. -/
def PairedOrRefused (paths : List String)
    (replies : Nat → (op : ClientOp) → Except PyException (ClientAns op))
    (batches : List (List ExtractedFrame)) (result : Except PyException (List FrameModerationResult)) : Prop :=
  (∃ code message statusCode, result = .error (.appError code message statusCode)) ∨
    ∃ results accepted, result = .ok results ∧ Paired laxInt self paths replies batches accepted results

theorem moderateBatches_paired {paths : List String} (hsize : 1 ≤ self.settings.frameBatchSize)
    {replies : Nat → (op : ClientOp) → Except PyException (ClientAns op)}
    {batches : List (List ExtractedFrame)} {accepted : List (List FrameModerationOutput)}
    {results : List FrameModerationResult}
    (hbatches : frameBatches (framesFromPaths paths) self.settings.frameBatchSize = .ok batches)
    (hflatten : batches.flatten = framesFromPaths paths)
    (haccepted : Accepted (modelReplies laxInt self replies) (gpuMaxAttempts self.settings) 0 batches accepted)
    (hresults : results = (List.zipWith (List.zipWith toFrameModerationResult) batches accepted).flatten) :
    Paired laxInt self paths replies batches accepted results := by
  obtain ⟨hchunked, hne⟩ := frameBatches_chunked hsize hbatches
  have hlengths := haccepted.lengths fun _ _ _ => modelReplies_length laxInt self
  have hcount : (List.zipWith (List.zipWith toFrameModerationResult) batches accepted).flatten.length =
      paths.length := by
    rw [List.length_flatten, lengths_zipWith hlengths, ← List.length_flatten, hflatten,
      length_framesFromPaths]
  subst hresults
  refine ⟨haccepted, hcount, fun k hk => ?_⟩
  obtain ⟨path, hpath⟩ := framesFromPaths_getElem? (hcount ▸ hk)
  obtain ⟨result, hresult, hplaced⟩ := placedAt (by omega) hlengths hchunked (hflatten ▸ hpath)
  obtain ⟨hlt, rfl⟩ := List.getElem?_eq_some_iff.mp hresult
  obtain ⟨parsed, output, -, -, heq⟩ := hplaced.output_at
  exact ⟨by rw [heq]; rfl, by rw [heq]; rfl, _, hpath, hplaced⟩

/-- The loop overflows, or it ends as it should. -/
theorem moderateBatches_cases {paths : List String} (hsize : 1 ≤ self.settings.frameBatchSize)
    (replies : Nat → (op : ClientOp) → Except PyException (ClientAns op))
    {batches : List (List ExtractedFrame)}
    (hbatches : frameBatches (framesFromPaths paths) self.settings.frameBatchSize = .ok batches) :
    ((¬ Pauses self.settings ∧ Overflowing (modelReplies laxInt self replies) 0 batches) ∧
        ((self.moderateBatches laxInt [] batches).against replies 0).1 = .error overflowError) ∨
      ¬ (¬ Pauses self.settings ∧ Overflowing (modelReplies laxInt self replies) 0 batches) ∧
        PairedOrRefused laxInt self paths replies batches
          ((self.moderateBatches laxInt [] batches).against replies 0).1 := by
  obtain ⟨batches', hbatches', hflatten, hle⟩ := frameBatches_ok (framesFromPaths paths) hsize
  obtain rfl : batches' = batches := Except.ok.inj (hbatches'.symm.trans hbatches)
  have hne := (frameBatches_chunked hsize hbatches).2
  rw [← moderateBatches_through, Prog.against_through]
  rcases @moderateBatches_against (modelReplies laxInt self replies) self.settings batches' hne hle [] 0
    with hraised | ⟨hfine, hfailed | ⟨accepted, haccepted, hresults⟩⟩
  · exact .inl hraised
  · exact .inr ⟨hfine, .inl hfailed⟩
  · exact .inr ⟨hfine, .inr ⟨_, accepted, hresults,
      moderateBatches_paired laxInt self hsize hbatches hflatten haccepted (List.nil_append _)⟩⟩

theorem not_pairedOrRefused_overflow {paths : List String}
    {replies : Nat → (op : ClientOp) → Except PyException (ClientAns op)}
    {batches : List (List ExtractedFrame)} :
    ¬ PairedOrRefused laxInt self paths replies batches (.error overflowError) := by
  rintro (⟨code, message, statusCode, h⟩ | ⟨results, accepted, h, -⟩)
  · cases h
  · cases h

/-- Every frame of a video gets its own verdict, or the loop ends with an `AppError`. All that can come
between is the pause after attempt 1025 for a batch. -/
theorem frames_paired_iff (paths : List String) (hsize : 1 ≤ self.settings.frameBatchSize)
    (replies : Nat → (op : ClientOp) → Except PyException (ClientAns op)) :
    ∃ batches, frameBatches (framesFromPaths paths) self.settings.frameBatchSize = .ok batches ∧
      (∀ batch ∈ batches, ∀ n, ((self.moderateFrameBatch laxInt batch).against replies n).2 ≤
        n + (max 1 self.settings.gpuMaxAttempts).toNat) ∧
      (PairedOrRefused laxInt self paths replies batches
          ((self.moderateBatches laxInt [] batches).against replies 0).1 ↔
        Pauses self.settings ∨ ¬ Overflowing (modelReplies laxInt self replies) 0 batches) := by
  obtain ⟨batches, hbatches, -⟩ := frameBatches_ok (framesFromPaths paths) hsize
  refine ⟨batches, hbatches, fun batch _ n => ?_, ?_⟩
  · rw [← moderateFrameBatch_through, Prog.against_through]
    exact moderateFrameBatch_calls self.settings batch n
  · rw [← not_not (a := Pauses self.settings), ← not_and_or]
    rcases moderateBatches_cases laxInt self hsize replies hbatches with ⟨hcond, hraised⟩ | ⟨hcond, hpaired⟩
    · rw [hraised]
      exact iff_of_false (not_pairedOrRefused_overflow laxInt self) (not_not.mpr hcond)
    · exact iff_of_true hpaired hcond

end

def pairwise : GpuModerationService where
  settings := { frameBatchSize := 2 }
  visualPrompt := "Rate every frame."

/-- A client that times out first, and then answers for two frames and for one. -/
def pairClient : Nat → (op : ClientOp) → Except PyException (ClientAns op)
  | 0, .moderateImages _ _ => .error (.other "TimeoutError" "")
  | 1, .moderateImages _ _ => .ok (bracketText [.porn, .gore])
  | _, .moderateImages _ _ => .ok (bracketText [.violence])
  | _, .moderateText _ _ => .ok "{}"
  | _, .other _ => .error (.runtimeError "not a call of the model")

theorem pairClient_run : ((pairwise.moderateBatches asInt []
    [[⟨0, 0, "1.jpg"⟩, ⟨1, 1, "2.jpg"⟩], [⟨2, 2, "3.jpg"⟩]]).against pairClient 0).1 =
      .ok [toFrameModerationResult ⟨0, 0, "1.jpg"⟩ (bracketOutput 0 .porn),
        toFrameModerationResult ⟨1, 1, "2.jpg"⟩ (bracketOutput 1 .gore),
        toFrameModerationResult ⟨2, 2, "3.jpg"⟩ (bracketOutput 0 .violence)] := by
  have htimeout : (pairwise.batchAttempt asInt [⟨0, 0, "1.jpg"⟩, ⟨1, 1, "2.jpg"⟩]).against pairClient 0 =
      (.error (.other "TimeoutError" ""), 1) := Prog.against_bind_error rfl
  have htwo : (pairwise.batchAttempt asInt [⟨0, 0, "1.jpg"⟩, ⟨1, 1, "2.jpg"⟩]).against pairClient 1 = _ :=
    batchAttempt_answered asInt pairwise rfl (bracketText_parsed [.porn, .gore] (List.cons_ne_nil _ _))
  have hone : (pairwise.batchAttempt asInt [⟨2, 2, "3.jpg"⟩]).against pairClient 2 = _ :=
    batchAttempt_answered asInt pairwise rfl (bracketText_parsed [.violence] (List.cons_ne_nil _ _))
  have hfirst : (pairwise.moderateFrameBatch asInt [⟨0, 0, "1.jpg"⟩, ⟨1, 1, "2.jpg"⟩]).against pairClient 0 =
      (.ok (List.zipWith toFrameModerationResult [⟨0, 0, "1.jpg"⟩, ⟨1, 1, "2.jpg"⟩]
        [bracketOutput 0 .porn, bracketOutput 1 .gore]), 2) := by
    refine (Prog.against_tryCatch_error htimeout).trans ?_
    rw [sleepBeforeRetry_ok (.inr (.inr (by decide))), Prog.against_bind_ok (Prog.against_done _)]
    exact Prog.against_tryCatch_ok htwo
  have hsecond : (pairwise.moderateFrameBatch asInt [⟨2, 2, "3.jpg"⟩]).against pairClient 2 = _ :=
    Prog.against_tryCatch_ok hone
  rw [GpuModerationService.moderateBatches, Prog.against_bind_ok hfirst,
    GpuModerationService.moderateBatches, Prog.against_bind_ok hsecond]
  rfl

/-- Three frames in two batches, each with the verdict that its batch got at its place. -/
theorem three_frames_paired : ∃ batches results accepted,
    frameBatches (framesFromPaths ["3.jpg", "1.jpg", "2.jpg"]) 2 = .ok batches ∧
      (∀ batch ∈ batches, ∀ n,
        ((pairwise.moderateFrameBatch asInt batch).against pairClient n).2 ≤ n + 3) ∧
      ((pairwise.moderateBatches asInt [] batches).against pairClient 0).1 = .ok results ∧
      results.map (fun result => (result.frameIndex, result.topCategory)) =
        [(0, .porn), (1, .gore), (2, .violence)] ∧
      Paired asInt pairwise ["3.jpg", "1.jpg", "2.jpg"] pairClient batches accepted results := by
  obtain ⟨batches, hbatches, hcalls, hiff⟩ :=
    frames_paired_iff asInt pairwise ["3.jpg", "1.jpg", "2.jpg"] (by decide) pairClient
  obtain rfl : [[⟨0, 0, "1.jpg"⟩, ⟨1, 1, "2.jpg"⟩], [⟨2, 2, "3.jpg"⟩]] = batches :=
    Except.ok.inj ((rfl : frameBatches (framesFromPaths ["3.jpg", "1.jpg", "2.jpg"]) 2 = _).symm.trans hbatches)
  have hrun := pairClient_run
  rcases hiff.mpr (.inl (.inl (by decide))) with ⟨code, message, statusCode, hfailed⟩ |
    ⟨results, accepted, hok, hpaired⟩
  · rw [hrun] at hfailed
    cases hfailed
  · obtain rfl := Except.ok.inj (hok.symm.trans hrun)
    exact ⟨_, _, accepted, hbatches, hcalls, hrun, rfl, hpaired⟩

/-- A service that goes on after attempt 1025, with one frame in a batch. -/
def patient : GpuModerationService where
  settings := { frameBatchSize := 1, gpuMaxAttempts := 1026 }
  visualPrompt := "Rate every frame."

/-- A client that never answers. -/
def silentClient : Nat → (op : ClientOp) → Except PyException (ClientAns op) :=
  fun _ _ => .error (.requestError "ConnectTimeout" "")

/-- After 1025 timeouts for its frame the loop overflows. -/
theorem pause_overflows :
    frameBatches (framesFromPaths ["1.jpg"]) patient.settings.frameBatchSize = .ok [[⟨0, 0, "1.jpg"⟩]] ∧
    ((patient.moderateBatches asInt [] [[⟨0, 0, "1.jpg"⟩]]).against silentClient 0).1 =
      .error overflowError ∧
    ¬ PairedOrRefused asInt patient ["1.jpg"] silentClient [[⟨0, 0, "1.jpg"⟩]]
      ((patient.moderateBatches asInt [] [[⟨0, 0, "1.jpg"⟩]]).against silentClient 0).1 := by
  have hbatches : frameBatches (framesFromPaths ["1.jpg"]) patient.settings.frameBatchSize =
      .ok [[⟨0, 0, "1.jpg"⟩]] := rfl
  have hpauses : ¬ Pauses patient.settings := by decide +kernel
  have hrefused : Refused (modelReplies asInt patient silentClient) [⟨0, 0, "1.jpg"⟩] 0
      (0 + Backoff.floatAttempts + 1) := ⟨Nat.zero_le _, fun i _ _ => ⟨_, rfl⟩⟩
  rcases moderateBatches_cases asInt patient (by decide) silentClient hbatches with
    ⟨-, hraised⟩ | ⟨hfine, -⟩
  · exact ⟨hbatches, hraised, hraised ▸ not_pairedOrRefused_overflow asInt patient⟩
  · exact absurd ⟨hpauses, .here hrefused⟩ hfine

end NsfwDetector.Pairing
