import NsfwDetector.System.Alone

/-!
# When a retry succeeds

The final transaction only inserts. So the retry of a failed attempt goes through exactly if the
failed one had not committed, and its job has a row, or gets one.
-/

namespace NsfwDetector.Retry

open Effects Effects.Assertion Triple Publication

variable {settings : Settings} {w : Watch} {i : Caller} {jobId : String} {φ : View → Prop}
  {job : VideoJob}

/-! ## The start of an attempt -/

theorem ownWork_markProcessing (hwork : job.triple = w.queued.triple) :
    OwnWork w.queued (.commit (markProcessingTx job)) := by
  intro row hrow
  simp only [markProcessingTx, List.mem_cons, Write.insertVideoJobOrNothing.injEq, reduceCtorEq,
    List.not_mem_nil, or_false] at hrow
  exact hrow ▸ hwork

theorem markProcessing_sure (hid : job.jobId = w.queued.jobId) (hwork : job.triple = w.queued.triple)
    (hcreated : job.createdAt ≠ none) (hupdated : job.updatedAt ≠ none) :
    Triple (sure fun _ => about w fun V => ∃ V₁, φ V₁ ∧ V.hash = V₁.hash ∧ V.result = V₁.result ∧
        ((∀ s, w.rule s → Free s w.queued) → V.row.isSome))
      (about w φ) (PostgresJobState.markProcessing job) := by
  have happlies : Applies w φ (markProcessingTx job) :=
    fun s now _ _ => markProcessingTx_applies hcreated hupdated
  refine andThen (execute_sure (happlies.left [.markProcessing job.jobId])) fun tx =>
    assume fun htx => ?_
  subst htx
  refine andThen (execute_sure happlies) fun tx => assume fun htx => ?_
  subst htx
  refine commit_sure happlies (ownWork_markProcessing hwork) fun s now db hrule hV hdb =>
    ⟨view s w.queued.jobId, hV, rfl, ?_, fun hfree => ?_⟩
  · have hresults : ∀ row, row ∈ db.results ↔ row ∈ s.db.results := fun row => by
      simp [Db.mem_results hdb]
    simp only [view, HasResult, hresults]
  · have hknown := markProcessingTx_known hdb
    rw [hid, hwork] at hknown
    exact (Db.job?_isSome_iff _).mpr (hknown.mpr (hfree s hrule))

/-! ## Up to the verdict -/

theorem moderateFrameBatch_sure {frames : List ExtractedFrame}
    (hsize : (frames.length : Int) ≤ settings.frameBatchSize) :
    Triple (sure fun results => (about w φ).and (.pure (results.length = frames.length)))
      (about w φ) (moderateFrameBatch settings frames) := by
  unfold moderateFrameBatch
  split
  · next hnil => exact give (and_pure _ (by rw [hnil]; rfl))
  · rw [if_neg (not_lt.mpr hsize)]
    obtain ⟨n, hn⟩ := Nat.exists_eq_add_one.mpr (gpuMaxAttempts_pos settings)
    rw [modelAttempts, hn, List.range'_succ]
    refine tryCatchSure (andThen (askStill (Op.moderateImages _)
      (ψ := fun outputs => outputs.length = frames.length) trivial trivial ?_) fun outputs =>
        assume fun hlength => give (and_pure _ ?_))
    · intro s outputs s' hanswer _
      have hindices := congrArg List.length hanswer.1
      simpa using hindices
    · rw [List.length_zipWith, hlength, min_self]

theorem moderateBatches_sure {batches : List (List ExtractedFrame)}
    {frameResults : List FrameModerationResult}
    (hsize : ∀ batch ∈ batches, (batch.length : Int) ≤ settings.frameBatchSize) :
    Triple (sure fun results => (about w φ).and
        (.pure (results.length = frameResults.length + batches.flatten.length)))
      (about w φ) (moderateBatches settings frameResults batches) := by
  induction batches generalizing frameResults with
  | nil => exact give (and_pure _ (by simp))
  | cons batch rest ih =>
    refine andThen (moderateFrameBatch_sure (hsize batch List.mem_cons_self)) fun results =>
      assume fun hlength => ?_
    refine mapOk (fun all => ?_) (ih fun b hb => hsize b (List.mem_cons_of_mem _ hb))
    rintro s past - ⟨hφ, hall⟩
    have hall : all.length = (frameResults ++ results).length + rest.flatten.length := hall
    refine ⟨hφ, (?_ : all.length = frameResults.length + (batch :: rest).flatten.length)⟩
    rw [List.length_append, hlength] at hall
    rw [List.flatten_cons, List.length_append, hall, Nat.add_assoc]

theorem classify_sure (hsize : 1 ≤ settings.frameBatchSize) :
    Triple (sure fun v => (about w φ).and (.pure (Classification settings job v)))
      (about w φ) (classify settings job) := by
  refine andWithin (S := fun _ => about w φ) ?_ (classify_within settings job)
  refine andThen (pass (Op.downloadVideo _) trivial trivial) fun _ => ?_
  refine andThen (pass (Op.probe _ _) trivial trivial) fun metadata => ?_
  refine andThen (S := fun frames => (about w φ).and (.pure (frames ≠ []))) ?_ fun frames =>
    assume fun hframes => ?_
  · refine andThen (askStill (Op.ffmpeg _) (ψ := fun paths => paths ≠ []) trivial trivial
      fun _ _ _ _ hhealthy => hhealthy) fun paths => assume fun hpaths => ?_
    have hne : framesFromPaths paths ≠ [] := by
      intro hnil
      have hlength := congrArg List.length hnil
      simp only [framesFromPaths, List.length_mapIdx, List.length_insertionSort, List.length_nil,
        List.length_eq_zero_iff] at hlength
      exact hpaths hlength
    simp only
    rw [if_neg hne]
    exact give (and_pure _ hne)
  · obtain ⟨batches, hbatches, hflat, hsmall⟩ := frameBatches_ok frames hsize
    rw [hbatches]
    refine andThen (S := fun b => (about w φ).and (.pure (b = batches)))
      (.done (and_pure _ rfl)) fun b => assume fun hb => ?_
    subst hb
    refine andThen (moderateBatches_sure hsmall) fun results => assume fun hlength => ?_
    have hresults : results ≠ [] := by
      rintro rfl
      rw [hflat] at hlength
      exact hframes (List.length_eq_zero_iff.mp (by simpa using hlength.symm))
    refine andThen (pass Op.now trivial trivial) fun now => ?_
    refine andThen (S := fun _ => about w φ) ?_ fun result => give (Entails.refl _)
    simp only [aggregate, if_neg hresults]
    exact .done (Entails.refl _)

/-! ## From the verdict on -/

section

variable {v : VideoMetadata × List FrameModerationResult × VideoModerationResult}
  {action : Option StorageAction}

theorem moveIfRequired_sure (hstorj : settings.StorjConfigured) (result : VideoModerationResult)
    (publisherUserId : String) :
    Triple (sure fun _ => about w φ) (about w φ)
      (moveIfRequired settings result publisherUserId) := by
  unfold moveIfRequired
  split
  · exact give (Entails.refl _)
  · refine andThen (S := fun _ => about w φ) ?_ fun response => give (Entails.refl _)
    rw [moveToNsfw, if_neg (not_not.mpr hstorj)]
    exact pass (Op.postMove _ _) trivial trivial

theorem storageAction_sure (result : VideoModerationResult) (response : Option StorjMoveResponse) :
    Triple (sure fun action => (about w φ).and (.pure (∀ a, action = some a → ActionOf job a)))
      (about w φ) (storageAction settings job result response) := by
  cases response with
  | none => exact give (and_pure _ nofun)
  | some response =>
    refine andThen (pass Op.now trivial trivial) fun now => ?_
    refine andThen (askStill Op.uuid4 (ψ := fun uuid => ':' ∉ uuid.toList) trivial trivial
      fun _ _ _ hanswer _ => hanswer.1) fun uuid => assume fun huuid => give (and_pure _ ?_)
    rintro a ⟨⟩
    exact ⟨rfl, uuid, huuid, rfl⟩

theorem ownWork_finalTx {frames : List FrameModerationResult} {result : VideoModerationResult} :
    OwnWork w.queued (.commit (finalTx settings job frames result action)) := by
  intro row hrow
  simp [finalTx, frameWrites] at hrow

theorem finalTransaction_sure (hid : job.jobId = w.queued.jobId) (hv : Classification settings job v)
    (haction : ∀ a, action = some a → ActionOf job a)
    (hφ : ∀ V, φ V → V.row.isSome ∧ ¬ V.result) :
    Triple (sure fun _ => about w fun V => ∃ V₁, φ V₁ ∧ V.hash = V₁.hash ∧
        V.row.map (·.status) = some .classified)
      (about w φ) (finalTransaction settings job v.2.1 v.2.2 action) := by
  have happlies : Applies w φ (finalTx settings job v.2.1 v.2.2 action) := by
    intro s now hsane hV
    obtain ⟨hrow, hnone⟩ := hφ _ hV
    have hknown : s.db.Known job.jobId := hid ▸ (Db.job?_isSome_iff _).mp hrow
    have hnone : ¬ HasResult s job.jobId := hid ▸ hnone
    exact finalTx_applies hsane hv hknown hnone haction
  refine andThen (executeAll_sure [] happlies) fun tx => assume fun htx => ?_
  subst htx
  refine commit_sure happlies ownWork_finalTx fun s now db _ hV hdb =>
    ⟨view s w.queued.jobId, hV, rfl, ?_⟩
  obtain ⟨row, hrow, hstatus⟩ := (finalTx_job? hv.jobId hdb).2
  have hview : (view { s with db := db } w.queued.jobId).row = some row := hid ▸ hrow
  rw [hview, Option.map_some, hstatus]

theorem pushJson_sure (key : String) (row : BufferRow) :
    Triple (sure fun _ => about w φ) (about w φ) (pushJson key row) :=
  pass (Op.writes [.rpush key row]) (by simp [Still]) trivial

theorem writeResult_sure (videoId : String) (payload : RuntimeNsfwPayload) :
    Triple (sure fun _ => about w φ) (about w φ) (writeResult settings videoId payload) :=
  pass (Op.writes [.setRuntime _ payload]) (by simp [Still]) trivial

theorem pushStorageAction_sure (action : Option StorageAction) :
    Triple (sure fun _ => about w φ) (about w φ) (pushStorageAction settings action) := by
  cases action with
  | none => exact give (Entails.refl _)
  | some a => exact andThen (pass Op.now trivial trivial) fun now => pushJson_sure _ _

theorem publishAfterCommit_sure (metadata : VideoMetadata) (frames : List FrameModerationResult)
    (result : VideoModerationResult) :
    Triple (sure fun _ => about w φ) (about w φ)
      (publishAfterCommit settings job metadata frames result action) := by
  refine andThen (pass Op.now trivial trivial) fun now => ?_
  refine andThen (pushJson_sure _ _) fun _ => ?_
  refine andThen (pushJson_sure _ _) fun _ => ?_
  exact andThen (pushStorageAction_sure action) fun _ => writeResult_sure _ _

end

def Classified (V : View) : Prop :=
  V.hash.map (·.status) = some .classified ∧ V.row.map (·.status) = some .classified

theorem processVideo_sure (queued : VideoJob) (hid : job.jobId = w.queued.jobId)
    (hsize : 1 ≤ settings.frameBatchSize) (hstorj : settings.StorjConfigured)
    (hφ : ∀ V, φ V → V.hash = some queued ∧ V.row.isSome ∧ ¬ V.result) :
    Triple (sure fun _ => about w Classified) (about w φ) (processVideo settings job) := by
  refine andThen (pass (Op.prepareJobDir _) trivial trivial) fun _ => ?_
  refine tryFinally (R := sure fun _ => about w Classified) ?_ fun r => ?_
  · refine andThen (classify_sure hsize) fun v => assume fun hv => ?_
    refine andThen (S := fun _ => about w fun V => V.hash = some queued ∧
      V.row.map (·.status) = some .classified) ?_ fun _ => ?_
    · refine andThen (moveIfRequired_sure hstorj _ _) fun response => ?_
      refine andThen (storageAction_sure _ response) fun action => assume fun haction => ?_
      refine andThen (finalTransaction_sure hid hv haction fun V hV => (hφ V hV).2) fun _ => ?_
      refine weaken (about_mono ?_) (andThen (publishAfterCommit_sure _ _ _) fun _ =>
        give (Entails.refl _))
      rintro V ⟨V₁, hV₁, hhash, hrow⟩
      exact ⟨hhash.trans (hφ V₁ hV₁).1, hrow⟩
    · rw [hid]
      refine andThen (updateStatus_sure fun V hV => hV.1) fun _ => give (about_mono ?_)
      rintro V ⟨now, V₁, ⟨-, hrow⟩, -, rfl⟩
      exact ⟨rfl, hrow⟩
  · cases r with
    | ok a =>
      refine strengthen (fun r' => ?_) (pass (Op.cleanupDir _) trivial trivial)
      cases r' <;> exact Entails.refl _
    | error e => exact unreachable (fun _ _ _ h => h) _

/-! ## The call of `process` -/

def processing (queued : VideoJob) (now : Time) : VideoJob :=
  queued.withStatus .processing none none now

section

variable {V₀ : View} {now : Time}

/-- What `process` reads first decides how it goes on. -/
theorem process_outline_from {E : PyException → Assertion (alone w) w.caller}
    {S : Unit → Assertion (alone w) w.caller} (hid : job.jobId = w.queued.jobId)
    (hhash : V₀.hash = some w.queued) (hopen : ¬ w.queued.status.Terminal)
    (hshort : V₀.row.map (·.status) = some .classified → Triple (ends E S) (about w (· = V₀))
      (do let _ ← (RedisQueue.service settings).updateStatus w.queued.jobId .classified; pure ()))
    (hattempt : V₀.row.map (·.status) ≠ some .classified → ∀ now,
      Triple (ends E S)
        (about w (· = { V₀ with hash := some (processing w.queued now).stored }))
        ((processor settings).attempt (processing w.queued now))) :
    Triple (ends E S) (about w (· = V₀)) ((processor settings).process job) := by
  rw [VideoJobProcessor.process, hid]
  refine andThen (ofSure (readWithPoolRetry_sure readHash)) fun found =>
    given (ψ := found = some w.queued) (fun V hV => ?_) fun hfound => ?_
  · obtain ⟨rfl, rfl⟩ := hV
    exact hhash
  subst hfound
  simp only [Option.getD_some, if_neg hopen]
  refine weaken (about_mono fun V hV => hV.1) (andThen (ofSure readRow) fun row =>
    given (ψ := row = V₀.row) (fun V hV => ?_) fun hrow => ?_)
  · obtain ⟨rfl, rfl⟩ := hV
    rfl
  subst hrow
  refine weaken (about_mono fun V hV => hV.1) ?_
  split
  · next hclassified => exact hshort hclassified
  · next hother =>
    refine andThen (ofSure (updateStatus_sure fun V hV => hV ▸ hhash)) fun updated => ?_
    -- The answer of `update_status` is the job that the attempt is about.
    refine weaken (P := (about w fun V => ∃ now, updated = some (processing w.queued now) ∧
      V = { V₀ with hash := some (processing w.queued now).stored })) (about_mono ?_) ?_
    · rintro V ⟨now, V₁, rfl, hupdated, hV⟩
      exact ⟨now, hupdated, hV⟩
    · refine given (ψ := ∃ now, updated = some (processing w.queued now)) ?_ fun ⟨now, hupdated⟩ => ?_
      · rintro V ⟨now, hupdated, -⟩
        exact ⟨now, hupdated⟩
      · subst hupdated
        refine weaken (about_mono ?_) (hattempt hother now)
        rintro V ⟨now', heq, rfl⟩
        rw [Option.some.inj heq]

theorem markProcessing_from (hcreated : w.queued.createdAt ≠ none) :
    Triple (sure fun _ => about w fun V => V.hash = V₀.hash ∧ V.result = V₀.result ∧
        ((∀ s, w.rule s → Free s w.queued) → V.row.isSome))
      (about w (· = V₀)) (PostgresJobState.markProcessing (processing w.queued now)) := by
  refine mapOk (fun _ => about_mono ?_)
    (markProcessing_sure (φ := (· = V₀)) rfl rfl hcreated nofun)
  rintro V ⟨V₁, rfl, hrest⟩
  exact hrest

theorem attempt_sure (hcreated : w.queued.createdAt ≠ none) (hstorj : settings.StorjConfigured)
    (hhash : V₀.hash = some (processing w.queued now).stored)
    (hfree : ∀ s, w.rule s → Free s w.queued) (hsize : 1 ≤ settings.frameBatchSize)
    (hnone : ¬ V₀.result) :
    Triple (sure fun _ => about w Classified) (about w (· = V₀))
      ((processor settings).attempt (processing w.queued now)) := by
  refine tryCatchSure (andThen (markProcessing_from hcreated) fun _ => ?_)
  refine processVideo_sure (processing w.queued now).stored rfl hsize hstorj fun V hV => ?_
  obtain ⟨hV, hresult, hsome⟩ := hV
  exact ⟨hV.trans hhash, hsome hfree, hresult ▸ hnone⟩

/-- Postgres already calls the job classified, or it can still get a result. -/
def Open (settings : Settings) (V : View) : Prop :=
  V.row.map (·.status) = some .classified ∨ 1 ≤ settings.frameBatchSize ∧ ¬ V.result

theorem process_sure (hid : job.jobId = w.queued.jobId) (hcreated : w.queued.createdAt ≠ none)
    (hstatus : w.queued.status = .failedRetryable) (hstorj : settings.StorjConfigured)
    (hhash : V₀.hash = some w.queued) (hfree : ∀ s, w.rule s → Free s w.queued)
    (hopen : Open settings V₀) :
    Triple (sure fun _ => about w Classified) (about w (· = V₀))
      ((processor settings).process job) := by
  refine process_outline_from hid hhash (by rw [hstatus]; decide) (fun hrow => ?_)
    fun hrow now => ?_
  · refine andThen (updateStatus_sure fun V hV => hV ▸ hhash) fun _ => give (about_mono ?_)
    rintro V ⟨now, V₁, rfl, -, rfl⟩
    exact ⟨rfl, hrow⟩
  · obtain ⟨hsize, hnone⟩ := hopen.resolve_left hrow
    exact attempt_sure hcreated hstorj rfl hfree hsize hnone

/-! ## What a success needs -/

theorem updateStatus_within (queued : VideoJob) (jobId : String) (status : VideoJobStatus)
    (code message : Option String) :
    (RedisQueue.updateStatus jobId status code message).Within (OwnWork queued) fun _ => True := by
  refine .bind (.perform (Op.hgetall _) trivial) fun found _ => ?_
  cases found with
  | none => exact .pure trivial
  | some job =>
    refine .bind (.perform Op.now trivial) fun now _ => ?_
    exact .bind (.perform (Op.writes _) trivial) fun _ _ => .pure trivial

theorem markFailed_within (queued : VideoJob) (jobId : String) (status : VideoJobStatus)
    (code message : String) :
    (PostgresJobState.markFailed jobId status code message).Within (OwnWork queued) fun _ => True := by
  have hexecute : (execute [] (.markFailed jobId status code message)).Within (OwnWork queued)
      fun tx => tx = [.markFailed jobId status code message] :=
    .bind (.perform (Op.execute _ _) trivial) fun _ _ => .pure rfl
  unfold PostgresJobState.markFailed
  split
  · exact .throw
  · refine .bind hexecute fun tx htx => .bind (.perform (Op.commit _) ?_) fun _ _ => .pure trivial
    subst htx
    intro row hrow
    simp at hrow

theorem recordFailure_within (queued processingJob : VideoJob) (exc : PyException) :
    ((processor settings).recordFailure processingJob exc).Within (OwnWork queued) fun _ => False :=
  .bind (updateStatus_within queued _ _ _ _) fun _ _ =>
    .bind (markFailed_within queued _ _ _ _) fun _ _ => .throw

/-- The final transaction of a job that has a result is never committed. -/
theorem finalTransaction_needs {frames : List FrameModerationResult} {result : VideoModerationResult}
    {action : Option StorageAction} (hid : job.jobId = w.queued.jobId)
    (hresult : result.jobId = job.jobId) :
    Triple (onOk fun _ => about w fun _ => ∃ V, φ V ∧ ¬ V.result) (about w φ)
      (finalTransaction settings job frames result action) := by
  refine andThen (still (K := IsExecute) (fun op hop => by cases op <;> trivial)
    (executeAll_within _ _)) fun tx => assume fun htx => ?_
  subst htx
  refine commit_needs ownWork_finalTx fun s now db hV hdb => ⟨_, hV, ?_⟩
  rintro ⟨row, hrow, hrowId⟩
  exact (new_of_finalTx hresult hdb).2 row hrow (hrowId.trans hid.symm)

theorem processVideo_needs (hid : job.jobId = w.queued.jobId) (hstorj : settings.StorjConfigured) :
    Triple (onOk fun _ => about w fun _ => 1 ≤ settings.frameBatchSize ∧ ∃ V, φ V ∧ ¬ V.result)
      (about w φ) (processVideo settings job) := by
  let needs : Assertion (alone w) w.caller :=
    about w fun _ => 1 ≤ settings.frameBatchSize ∧ ∃ V, φ V ∧ ¬ V.result
  refine andThen (ofSure (pass (Op.prepareJobDir _) trivial trivial)) fun _ => ?_
  refine tryFinally (R := onOk fun _ => needs) ?_ fun r => ?_
  · refine andThen (still (fun _ => still_of_local) (classify_within settings job)) fun v =>
      assume fun hv => ?_
    refine andThen (S := fun _ => needs) ?_ fun _ => ?_
    · refine andThen (ofSure (moveIfRequired_sure hstorj _ _)) fun response => ?_
      refine andThen (ofSure (storageAction_sure _ response)) fun action => assume fun _ => ?_
      refine andThen (finalTransaction_needs hid hv.jobId) fun _ => ?_
      refine andThen (ofSure (publishAfterCommit_sure _ _ _)) fun _ => give (about_mono ?_)
      exact fun V hV => ⟨hv.batchSize, hV⟩
    · refine andThen (S := fun _ => needs) ?_ fun _ => give (Entails.refl _)
      exact mapOk (fun _ => and_left _ _) (quiet (fun _ _ _ _ _ _ _ _ _ hV => hV)
        (fun _ _ _ hop _ _ _ => hop) (updateStatus_within w.queued _ _ _ _))
  · have hclean : ∀ ψ : View → Prop, Triple (onOk fun _ => about w ψ) (about w ψ)
        (await (.cleanupDir job.jobId)) := fun ψ => ofSure (pass (Op.cleanupDir _) trivial trivial)
    cases r with
    | ok a =>
      refine strengthen (fun r' => ?_) (weaken (P := needs) (Entails.refl _) (hclean _))
      cases r' <;> exact Entails.refl _
    | error e =>
      refine strengthen (fun r' => ?_) (weaken (P := about w fun _ => True)
        (fun _ _ _ _ => trivial) (hclean _))
      cases r' <;> exact entails_top _

theorem process_needs (hid : job.jobId = w.queued.jobId) (hcreated : w.queued.createdAt ≠ none)
    (hstatus : w.queued.status = .failedRetryable) (hstorj : settings.StorjConfigured)
    (hhash : V₀.hash = some w.queued) :
    Triple (onOk fun _ => about w fun _ => Open settings V₀) (about w (· = V₀))
      ((processor settings).process job) := by
  refine process_outline_from hid hhash (by rw [hstatus]; decide) (fun hrow => ?_) fun _ now => ?_
  · refine ofSure (andThen (updateStatus_sure fun V hV => hV ▸ hhash) fun _ => give (about_mono ?_))
    exact fun _ _ => .inl hrow
  · refine tryCatch (R := onOk fun _ => about w fun _ => Open settings V₀) ?_
      (fun _ => Entails.refl _) fun exc => ?_
    · refine andThen (ofSure (markProcessing_from hcreated)) fun _ => ?_
      refine mapOk (fun _ => about_mono ?_) (processVideo_needs rfl hstorj)
      rintro - ⟨hsize, V, ⟨-, hresult, -⟩, hnone⟩
      exact .inr ⟨hsize, hresult ▸ hnone⟩
    · exact mapOk (S := fun _ => .pure False) (fun _ _ _ _ hfalse => hfalse.elim)
        (allowed (recordFailure_within w.queued _ exc))

end

/-! ## Undisturbed runs -/

theorem exists_latest (db : Db) (videoId : String) : ∃ row, db.LatestResult videoId row := by
  by_cases hsome : ∃ row ∈ db.results, row.videoId = videoId
  · obtain ⟨row, hrow, hvideo⟩ := hsome
    have hne : db.results.filter (·.videoId = videoId) ≠ [] :=
      List.ne_nil_of_mem (List.mem_filter.mpr ⟨hrow, decide_eq_true hvideo⟩)
    obtain ⟨latest, hlatest⟩ := Option.ne_none_iff_exists'.mp
      (mt List.argmax_eq_none.mp hne : List.argmax (·.updatedAt) _ ≠ none)
    have hmem := List.mem_filter.mp (List.argmax_mem hlatest)
    refine ⟨some latest, hmem.1, of_decide_eq_true hmem.2, fun other ho hother => ?_⟩
    exact List.le_of_mem_argmax (List.mem_filter.mpr ⟨ho, decide_eq_true hother⟩) hlatest
  · exact ⟨none, fun row hrow hvideo => hsome ⟨row, hrow, hvideo⟩⟩

theorem exists_healthy (i : Caller) (s : World) (op : Op) :
    ∃ o s', Does i s op o s' ∧ Healthy op o := by
  have answered : ∀ {op : Op} (b : Ans op) s', Answers i s op b s' → Healthy op (.answered b) →
      ∃ o s', Does i s op o s' ∧ Healthy op o :=
    fun b s' hanswer hhealthy => ⟨.answered b, s', hanswer, hhealthy⟩
  have refused : ∀ {op : Op} e, Refuses s op e → Healthy op (.refused e) →
      ∃ o s', Does i s op o s' ∧ Healthy op o :=
    fun e hrefuses hhealthy => ⟨.refused e, s, ⟨hrefuses, rfl⟩, hhealthy⟩
  cases op with
  | now => exact answered (0 : Time) s rfl id
  | uuid4 => exact answered "" s ⟨by decide, rfl⟩ id
  | hgetall | get | selectJob | selectResult => exact answered _ s ⟨rfl, rfl⟩ id
  | writes commands => exact answered () _ rfl id
  | xgroupCreate =>
    by_cases hgroup : s.kv.groupCreated = true
    · exact refused _ ⟨hgroup, rfl⟩ id
    · exact answered () _ ⟨Bool.eq_false_of_not_eq_true hgroup, rfl⟩ id
  | xreadgroup count =>
    by_cases hgroup : s.kv.groupCreated = true
    · exact answered _ _ ⟨hgroup, rfl, rfl⟩ id
    · exact refused _ ⟨Bool.eq_false_of_not_eq_true hgroup, rfl⟩ id
  | selectLatestResult videoId =>
    obtain ⟨row, hrow⟩ := exists_latest s.db videoId
    exact answered row s ⟨hrow, rfl⟩ id
  | execute tx write =>
    cases hdb : s.db.applyAll 0 (tx ++ [write]) with
    | ok db => exact answered () s ⟨⟨0, db, hdb⟩, rfl⟩ id
    | error e => exact refused e ⟨0, hdb⟩ id
  | commit tx =>
    cases hdb : s.db.applyAll 0 tx with
    | ok db => exact answered (0 : Time) _ ⟨db, hdb, rfl⟩ id
    | error e => exact refused e ⟨0, hdb⟩ id
  | prepareJobDir | downloadVideo | cleanupDir => exact answered () s rfl id
  | probe jobId videoId =>
    exact answered (clean.metadata jobId videoId) s ⟨rfl, rfl, rfl, rfl, rfl⟩ id
  | ffmpeg => exact answered clean.paths s rfl nofun
  | moderateImages paths =>
    refine answered ((List.range paths.length).map fun index =>
      { cleanOutput with frameIndex := index }) s ⟨?_, rfl⟩ id
    rw [List.map_map]
    exact List.map_id _
  | postMove => exact answered clean.response s rfl id

/-- No step of an undisturbed run clears the way for the row of the job. -/
theorem free_of_step {s s' : World} {j : Caller} {op : Op} {o : Outcome PyException (Ans op)}
    (hdoes : Does j s op o s') (hown : j = w.caller → OwnWork w.queued op)
    (hother : j ≠ w.caller → view s' w.queued.jobId = view s w.queued.jobId)
    (h : Free s' w.queued) : Free s w.queued := by
  cases hdoes.change with
  | nothing | writes | group | read => exact h
  | @commit tx o now db heffect hdb =>
    rcases h with hknown | hnone
    · by_cases hj : j = w.caller
      · refine (Db.applyAll_known hdb hknown).imp_right fun ⟨row, hmem, hnone⟩ => ?_
        exact hown hj row hmem ▸ hnone
      · have hrow : db.job? w.queued.jobId = s.db.job? w.queued.jobId :=
          congrArg View.row (hother hj)
        exact .inl (by rwa [← Db.job?_isSome_iff, ← hrow, Db.job?_isSome_iff])
    · exact .inr fun hwork => hnone (Db.applyAll_work hdb hwork)

section

variable {c c' : Moment} {queued : VideoJob}

/-- The retry stays where its outline says, as long as the run is undisturbed and meets the rule. -/
theorem followed {rule : World → Prop} {p : Code Reply}
    {Q : Except PyException Reply → Assertion (alone (.mk i queued rule)) i}
    (h : Reachable settings c) (hrule : rule c.state) (hrun : c.threads i = .running p)
    (ht : Triple (D := alone (.mk i queued rule)) Q
      (about (.mk i queued rule) (· = view c.state queued.jobId)) p)
    (hrun' : RunVia (Starts settings) Does
      (fun c l c' => Undisturbed i queued.jobId c l c' ∧ rule c'.state) c c') :
    (alone (.mk i queued rule)).Sound (fun j r => (Q r).onlyFor j) c' := by
  refine Discipline.sound_beside (fun _ _ _ _ hj _ hi => absurd hi hj) ⟨sane h, hrule⟩
    (fun j => ReachVia.history_of_ready h) hrun rfl ht (hrun'.restrict fun c₁ e c₂ hmid hs hcond => ?_)
  have hreach : Reachable settings c₁ := RunVia.trans h (hmid.mono fun _ _ _ _ => trivial)
  exact ⟨(permitted hreach hs).2.1, ⟨sane (Reach.next hreach hs), hcond.2⟩, hcond.1⟩

/-- The call of `process` has not raised, and both stores call the job classified. -/
def Succeeded (c : Moment) (jobId : String) (r : Except PyException Reply) : Prop :=
  (∃ reply, r = .ok reply) ∧ queueStatus c.state jobId = some .classified ∧
    jobStatus c.state jobId = some .classified

/-- Wherever the run is, the call of `process` can be brought to its end. -/
def CanEnd (settings : Settings) (i : Caller) (jobId : String) (c : Moment) : Prop :=
  ∀ c', RunVia (Starts settings) Does (Undisturbed i jobId) c c' →
    ∃ c'' r, RunVia (Starts settings) Does (Undisturbed i jobId) c' c'' ∧
      c''.threads i = .running (.done r)

/-- The call of `process` that caller `i` makes ends, and however it ends it has succeeded. -/
structure RetrySucceeds (settings : Settings) (i : Caller) (jobId : String) (c : Moment) : Prop where
  ends : CanEnd settings i jobId c
  classified : ∀ c' r, RunVia (Starts settings) Does (Undisturbed i jobId) c c' →
    c'.threads i = .running (.done r) → Succeeded c' jobId r

theorem canEnd {p : Code Reply} (hrun : c.threads i = .running p) : CanEnd settings i jobId c := by
  intro c' h
  obtain ⟨p', hp'⟩ := h.running_of_running (fun _ _ hkill => hkill rfl) ⟨p, hrun⟩
  refine RunVia.exists_done (fun c₁ op => ?_) hp'
  obtain ⟨o, s', hdoes, hhealthy⟩ := exists_healthy i c₁.state op
  refine ⟨o, s', hdoes, fun threads => ?_⟩
  unfold Undisturbed
  simp only [if_pos, hhealthy]

/-- The job is classified in Postgres, or it can still get a result and no other row is in the way. -/
def Ready (settings : Settings) (s : World) (queued : VideoJob) : Prop :=
  Open settings (view s queued.jobId) ∧ Free s queued

theorem free_of_classified {s : World} (h : jobStatus s queued.jobId = some .classified) :
    Free s queued := by
  obtain ⟨row, hrow, -⟩ := Option.map_eq_some_iff.mp h
  exact .inl ((Db.job?_isSome_iff _).mp (Option.isSome_iff_exists.mpr ⟨row, hrow⟩))

/-- If the way for the row is free at the end of an undisturbed run, it was free all along. -/
theorem unrivalled_of_free {p : Code Reply}
    {Q : Except PyException Reply → Assertion (alone (.mk i queued fun _ => True)) i}
    (h : Reachable settings c) (hrun : c.threads i = .running p)
    (ht : Triple (D := alone (.mk i queued fun _ => True)) Q
      (about (.mk i queued fun _ => True) (· = view c.state queued.jobId)) p)
    (hrun' : RunVia (Starts settings) Does (Undisturbed i queued.jobId) c c')
    (hfree : Free c'.state queued) :
    Free c.state queued ∧ RunVia (Starts settings) Does (Unrivalled i queued) c c' := by
  induction hrun' with
  | init => exact ⟨hfree, .init⟩
  | @step c₁ c₂ l hmid hs hcond ih =>
    have hfree₁ : Free c₁.state queued := by
      cases hs with
      | start | kill => exact hfree
      | call hthread hdoes =>
        have hsound := followed h trivial hrun ht (hmid.mono fun _ _ _ hcond => ⟨hcond, trivial⟩)
        refine free_of_step (w := .mk i queued fun _ => True) hdoes (hsound.may hthread) (fun hj => ?_)
          hfree
        simp only [Undisturbed] at hcond
        rwa [if_neg hj] at hcond
    obtain ⟨hstart, hmid'⟩ := ih hfree₁
    exact ⟨hstart, .step hmid' hs ⟨hcond, hfree⟩⟩

/-- A retry succeeds exactly if its job is ready, and no other job of its work gets in the way. -/
theorem retry_succeeds_iff (h : Reachable settings c)
    (hrun : c.threads i = .running (attemptProgram settings job))
    (hqueued : c.state.kv.hashes (jobKey job.jobId) = some queued)
    (hfailed : queued.status = .failedRetryable) (hstorj : settings.StorjConfigured) :
    CanEnd settings i job.jobId c ∧
      ∀ c' r, RunVia (Starts settings) Does (Undisturbed i job.jobId) c c' →
        c'.threads i = .running (.done r) → (Succeeded c' job.jobId r ↔
          Ready settings c.state queued ∧ RunVia (Starts settings) Does (Unrivalled i queued) c c') := by
  obtain ⟨hkey, hcreated⟩ := (sane h).consistent.keys _ queued hqueued
  have hid : job.jobId = queued.jobId := jobKey_injective hkey
  rw [hid] at hqueued ⊢
  refine ⟨canEnd hrun, fun c' r hrun' hdone => ⟨fun hsucceeded => ?_, fun ⟨⟨hopen, hfree⟩, hrun'⟩ => ?_⟩⟩
  · have houtline : Triple (D := alone (.mk i queued fun _ => True)) (onOk fun _ =>
        about (.mk i queued fun _ => True) fun _ => Open settings (view c.state queued.jobId)) _
        (attemptProgram settings job) :=
      andThen (process_needs hid hcreated hfailed hstorj hqueued) fun _ => give (Entails.refl _)
    have hpost := (followed h trivial hrun houtline
      (hrun'.mono fun _ _ _ hcond => ⟨hcond, trivial⟩)).post hdone rfl
    obtain ⟨⟨reply, rfl⟩, -, hstatus⟩ := hsucceeded
    obtain ⟨hfree, hunrivalled⟩ := unrivalled_of_free h hrun houtline hrun' (free_of_classified hstatus)
    exact ⟨⟨hpost, hfree⟩, hunrivalled⟩
  · have houtline : Triple (D := alone (.mk i queued (Free · queued))) (sure fun _ =>
        about (.mk i queued (Free · queued)) Classified) _ (attemptProgram settings job) :=
      andThen (process_sure hid hcreated hfailed hstorj hqueued (fun _ hs => hs) hopen) fun _ =>
        give (Entails.refl _)
    have hpost := (followed h hfree hrun houtline hrun').post hdone rfl
    cases r with
    | ok reply => exact ⟨⟨reply, rfl⟩, hpost⟩
    | error e => exact hpost.elim

end

/-! ### Retries of one job -/

/-- The download fails, and the handler records a retryable failure. -/
def earlyFailure (settings : Settings) : Script :=
  enqueueScript settings ++ startAttempt settings 0 :: calls (.attempt 0) 9 clean ++
    breaks (.attempt 0) :: calls (.attempt 0) 6 clean

theorem legal_earlyFailure (settings : Settings) :
    ∀ t ∈ earlyFailure settings, t.Legal (Starts settings) := legal_brokenAttempt

def isReady : Thread Ans PyException Reply → Bool
  | .ready => true
  | _ => false

theorem eq_ready_of_isReady {t : Thread Ans PyException Reply} (h : isReady t = true) :
    t = .ready := by
  cases t with
  | ready => rfl
  | running | killed => cases h

def retrying (settings : Settings) (c : Moment) : Moment :=
  { c with threads := Function.update c.threads (.attempt 1)
            (.running (attemptProgram settings sampleJob)) }

theorem thread_retrying (settings : Settings) (c : Moment) :
    (retrying settings c).threads (.attempt 1) = .running (attemptProgram settings sampleJob) := by
  simp only [retrying, Function.update_self]

theorem reachable_retrying {c : Moment} (h : Reachable settings c)
    (hready : isReady (c.threads (.attempt 1)) = true) : Reachable settings (retrying settings c) :=
  Reach.next h (.start (eq_ready_of_isReady hready) ⟨sampleJob, rfl⟩)

def isHealthy : (op : Op) → Outcome PyException (Ans op) → Bool
  | .ffmpeg _, .answered paths => !paths.isEmpty
  | _, .answered _ | _, .refused _ => true
  | _, .failed _ | _, .lost _ _ => false

theorem isHealthy_iff (op : Op) (o : Outcome PyException (Ans op)) :
    isHealthy op o = true ↔ Healthy op o := by
  cases op <;> cases o <;> simp [isHealthy, Healthy, Outcome.Faulty]

instance (op : Op) (o : Outcome PyException (Ans op)) : Decidable (Healthy op o) :=
  decidable_of_iff (isHealthy op o = true) (isHealthy_iff op o)

/-- Only caller `i` moves, and its calls are healthy. -/
def Alone (i : Caller) : StepCond Caller World Ans PyException Reply := fun _ l _ =>
  match l with
  | .call e => e.caller = i ∧ Healthy e.op e.outcome
  | _ => False

instance (i : Caller) (c : Moment) (l : Label Caller Ans PyException) (c' : Moment) :
    Decidable (Alone i c l c') :=
  match l with
  | .call e => inferInstanceAs (Decidable (e.caller = i ∧ Healthy e.op e.outcome))
  | .start _ | .kill _ => .isFalse id

theorem undisturbed_of_alone {c c' : Moment} {l : Label Caller Ans PyException}
    (h : Alone i c l c') : Undisturbed i jobId c l c' := by
  cases l with
  | start | kill => exact h.elim
  | call e =>
    unfold Undisturbed
    simp only [if_pos h.1, h.2]

instance (s : World) (queued : VideoJob) : Decidable (Free s queued) :=
  inferInstanceAs (Decidable (s.db.Known queued.jobId ∨
    ¬ ∃ other ∈ s.db.jobs, other.triple = queued.triple))

/-- Only caller `i` moves, and the way for the row of the job stays free. -/
def AloneAndFree (i : Caller) (queued : VideoJob) : StepCond Caller World Ans PyException Reply :=
  fun c l c' => Alone i c l c' ∧ Free c'.state queued

instance (i : Caller) (queued : VideoJob) (c : Moment) (l : Label Caller Ans PyException)
    (c' : Moment) : Decidable (AloneAndFree i queued c l c') :=
  inferInstanceAs (Decidable (Alone i c l c' ∧ Free c'.state queued))

def hasEnded : Thread Ans PyException Reply → Bool
  | .running (.done _) => true
  | _ => false

theorem exists_of_hasEnded {t : Thread Ans PyException Reply} (h : hasEnded t = true) :
    ∃ r, t = .running (.done r) := by
  unfold hasEnded at h
  split at h
  · exact ⟨_, rfl⟩
  · cases h

theorem unrivalled_of_alone {c c' : Moment} {l : Label Caller Ans PyException} {queued : VideoJob}
    (h : AloneAndFree i queued c l c') : Unrivalled i queued c l c' := ⟨undisturbed_of_alone h.1, h.2⟩

/-- The job of this moment has failed without a result, and its retry can come to an end. -/
def canRetry (c : Moment) : Bool :=
  (c.state.kv.hashes (jobKey "job")).any fun queued =>
    decide (queued.status = .failedRetryable ∧ ¬ HasResult c.state "job" ∧
      c.state.db.Known queued.jobId) &&
    (play choose (AloneAndFree (.attempt 1) queued) (calls (.attempt 1) 26 clean)
      (retrying storj c)).any fun c' => hasEnded (c'.threads (.attempt 1))

/-- A failure before the commit: the retry succeeds. -/
theorem retry_succeeds_iff_early : ∃ c c' r, Reachable storj c ∧
    c.threads (.attempt 1) = .running (attemptProgram storj sampleJob) ∧
    queueStatus c.state "job" = some .failedRetryable ∧ storj.StorjConfigured ∧
    RunVia (Starts storj) Does (Undisturbed (.attempt 1) "job") c c' ∧
    c'.threads (.attempt 1) = .running (.done r) ∧ Succeeded c' "job" r := by
  obtain ⟨c, hreach, hp⟩ := reach_of_script (legal_earlyFailure storj) (p := fun c =>
    isReady (c.threads (.attempt 1)) && canRetry c) (by decide +kernel)
  rw [Bool.and_eq_true, canRetry, Option.any_eq_true] at hp
  obtain ⟨hready, queued, hqueued, hp⟩ := hp
  rw [Bool.and_eq_true, decide_eq_true_eq] at hp
  obtain ⟨⟨hfailed, hnone, hknown⟩, hplay⟩ := hp
  have hstart := reachable_retrying hreach hready
  have hrun := thread_retrying storj c
  have hstorj : storj.StorjConfigured := by decide
  have hlegal : ∀ t ∈ calls (.attempt 1) 26 clean, t.Legal (Starts storj) := legal_calls
  obtain ⟨c', hrun', hended⟩ := exists_of_play choose_within hlegal hplay
  obtain ⟨r, hdone⟩ := exists_of_hasEnded hended
  have hiff := (retry_succeeds_iff hstart hrun hqueued hfailed hstorj).2 c' r
    (hrun'.mono fun _ _ _ h => undisturbed_of_alone h.1) hdone
  have hid : queued.jobId = "job" := (jobKey_injective ((sane hreach).consistent.keys _ _ hqueued).1).symm
  have hopen : Open storj (view c.state queued.jobId) := .inr ⟨by decide, hid ▸ hnone⟩
  refine ⟨_, c', r, hstart, hrun, ?_, hstorj, hrun'.mono fun _ _ _ h => undisturbed_of_alone h.1, hdone,
    hiff.mpr ⟨⟨hopen, .inl hknown⟩, hrun'.mono fun _ _ _ => unrivalled_of_alone⟩⟩
  exact Option.map_eq_some_iff.mpr ⟨queued, hqueued, hfailed⟩

def hasRaised : Thread Ans PyException Reply → Bool
  | .running (.done (.error _)) => true
  | _ => false

theorem exists_of_hasRaised {t : Thread Ans PyException Reply} (h : hasRaised t = true) :
    ∃ e, t = .running (.done (.error e)) := by
  unfold hasRaised at h
  split at h
  · exact ⟨_, rfl⟩
  · cases h

/-- Every retry of an attempt that is recorded as retryable in both stores succeeds. -/
def RetriesSucceed (settings : Settings) : Prop :=
  ∀ c i job, Reachable settings c → c.threads i = .running (attemptProgram settings job) →
    queueStatus c.state job.jobId = some .failedRetryable →
    jobStatus c.state job.jobId = some .failedRetryable → RetrySucceeds settings i job.jobId c

/-- A failed push: the retry inserts the rows of the first attempt again, and raises. -/
theorem retry_meets_its_rows : ¬ RetriesSucceed storj := by
  intro hall
  obtain ⟨c, hreach, hp⟩ := reach_of_script (legal_lateFailure storj) (p := fun c =>
    isReady (c.threads (.attempt 1)) && decide (queueStatus c.state "job" = some .failedRetryable ∧
      jobStatus c.state "job" = some .failedRetryable) &&
      (play choose (Alone (.attempt 1)) (calls (.attempt 1) 21 clean) (retrying storj c)).any
        fun c' => hasRaised (c'.threads (.attempt 1))) (by decide +kernel)
  rw [Bool.and_eq_true, Bool.and_eq_true, decide_eq_true_eq] at hp
  obtain ⟨⟨hready, hqueue, hrow⟩, hplay⟩ := hp
  have hrun := thread_retrying storj c
  have hsucceeds := hall _ (.attempt 1) sampleJob (reachable_retrying hreach hready) hrun hqueue hrow
  have hlegal : ∀ t ∈ calls (.attempt 1) 21 clean, t.Legal (Starts storj) := legal_calls
  obtain ⟨c', hrun', hraised⟩ := exists_of_play choose_within hlegal hplay
  obtain ⟨e, hdone⟩ := exists_of_hasRaised hraised
  obtain ⟨⟨reply, hok⟩, -⟩ := hsucceeds.classified c' _
    (hrun'.mono fun _ _ _ => undisturbed_of_alone) hdone
  cases hok

end NsfwDetector.Retry
