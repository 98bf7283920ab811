import NsfwDetector.System.Delivery
import NsfwDetector.System.Publishing

/-!
# Every caller keeps to the rules of delivery

A worker knows which messages it holds, and whether it has settled the first of them.
-/

namespace NsfwDetector.Delivery

open Effects Effects.Assertion Triple

variable {settings : Settings} {i j : Caller}

/-! ## The messages of a caller -/

/-- The messages that caller `i` holds, oldest first. -/
def held (s : World) (i : Caller) : List QueuedVideoJobMessage :=
  (s.kv.pending.filter (·.2 = i)).map (·.1.message)

section

variable {s s' : World} {past : Past} {op : Op} {o : Outcome PyException (Ans op)}
  {message : QueuedVideoJobMessage} {rest : List QueuedVideoJobMessage}

theorem holds_iff (jobId : String) : Holds s i jobId ↔ ∃ message ∈ held s i, message.jobId = jobId := by
  simp only [held, List.mem_map, List.mem_filter, decide_eq_true_eq]
  constructor
  · rintro ⟨entry, hentry, hid⟩
    exact ⟨entry.message, ⟨(entry, i), ⟨hentry, rfl⟩, rfl⟩, hid⟩
  · rintro ⟨_, ⟨⟨entry, w⟩, ⟨hentry, rfl⟩, rfl⟩, hid⟩
    exact ⟨entry, hentry, hid⟩

theorem held_congr (h : s'.kv.pending = s.kv.pending) : held s' i = held s i := by
  unfold held
  rw [h]

theorem held_other (hord : Orderly settings s past) (hmoves : Moves settings j s past op o s')
    (hj : j ≠ i) : held s' i = held s i := by
  cases hmoves with
  | quiet hsame => exact held_congr hsame.pending
  | status | newHash | entry => rfl
  | newJob _ _ hsame => exact held_congr hsame.pending
  | @ack acked o _ hmem _ =>
    have hfilter : ((s.kv.apply (.xack acked.id)).pending.filter (·.2 = i)) =
        s.kv.pending.filter (·.2 = i) := by
      change (s.kv.pending.filter (·.1.id ≠ acked.id)).filter (·.2 = i) = _
      rw [List.filter_filter]
      refine List.filter_congr fun x hx => ?_
      have hne : x.2 = i → x.1.id ≠ acked.id := by
        intro hxi hid
        have heq := pending_unique hord hx hmem hid
        rw [heq] at hxi
        exact hj hxi
      by_cases hxi : x.2 = i
      · simp [hxi, hne hxi]
      · simp [hxi]
    unfold held
    rw [hfilter]
  | @read count nr _ _ _ =>
    have hnone : ((s.kv.delivered count).map (·, j)).filter (·.2 = i) = [] := by
      rw [List.filter_eq_nil_iff]
      intro x hx
      obtain ⟨entry, -, rfl⟩ := List.mem_map.mp hx
      simpa using hj
    change ((s.kv.pending ++ (s.kv.delivered count).map (·, j)).filter (·.2 = i)).map _ = _
    rw [List.filter_append, hnone, List.append_nil]
    rfl

theorem held_read (count : Int) : held { s with kv := s.kv.xreadgroup i count } i =
    held s i ++ (s.kv.delivered count).map (·.message) := by
  have hall : ((s.kv.delivered count).map (·, i)).filter (·.2 = i) =
      (s.kv.delivered count).map (·, i) := by
    rw [List.filter_eq_self]
    intro x hx
    obtain ⟨entry, -, rfl⟩ := List.mem_map.mp hx
    simp
  change ((s.kv.pending ++ (s.kv.delivered count).map (·, i)).filter (·.2 = i)).map _ = _
  rw [List.filter_append, hall, List.map_append, List.map_map]
  rfl

/-- The first message that a caller holds is one of the pending entries, and goes when it is
acknowledged. -/
theorem held_ack (hord : Orderly settings s past) (h : held s i = message :: rest) :
    ∃ entry, (entry, i) ∈ s.kv.pending ∧ entry.message = message ∧
      held { s with kv := s.kv.apply (.xack entry.id) } i = rest := by
  obtain ⟨⟨entry, w⟩, others, hfilter, hmessage, hrest⟩ := List.map_eq_cons_iff.mp h
  have hmem : (entry, w) ∈ s.kv.pending.filter (·.2 = i) := hfilter ▸ List.mem_cons_self
  obtain ⟨hpending, hw⟩ := List.mem_filter.mp hmem
  obtain rfl : w = i := of_decide_eq_true hw
  refine ⟨entry, hpending, hmessage, ?_⟩
  have hothers : others.filter (·.1.id ≠ entry.id) = others := by
    rw [List.filter_eq_self]
    intro x hx
    have hxmem : x ∈ s.kv.pending.filter (·.2 = w) := hfilter ▸ List.mem_cons_of_mem _ hx
    have hnodup : (entry, w) ∉ others := by
      have hids := (List.nodup_append.mp hord.ids).2.1
      have := (hids.of_map _).filter (·.2 = w)
      rw [hfilter] at this
      exact (List.nodup_cons.mp this).1
    have hne : x.1.id ≠ entry.id := by
      intro hid
      have heq := pending_unique hord (List.mem_of_mem_filter hxmem) hpending hid
      rw [heq] at hx
      exact hnodup hx
    simpa using hne
  have hcomm : (s.kv.pending.filter (·.1.id ≠ entry.id)).filter (·.2 = w) =
      (s.kv.pending.filter (·.2 = w)).filter (·.1.id ≠ entry.id) := by
    rw [List.filter_filter, List.filter_filter]
    exact List.filter_congr fun x _ => Bool.and_comm ..
  change ((s.kv.pending.filter (·.1.id ≠ entry.id)).filter (·.2 = w)).map _ = rest
  rw [hcomm, hfilter, List.filter_cons_of_neg (by simp), hothers]
  exact hrest

end

/-! ## What callers know -/

def holding (settings : Settings) (i : Caller) (messages : List QueuedVideoJobMessage) :
    Assertion (delivery settings) i where
  holds s _ := held s i = messages
  stable hj hord hmay hdoes h := (held_other hord (moves hmay hdoes) hj).trans h

def settled (settings : Settings) (i : Caller) (jobId : String) : Assertion (delivery settings) i where
  holds _ past := Settled i jobId past
  stable hj _ _ _ h := (settled_other hj).mpr h

theorem known_moves {s s' : World} {past : Past} {op : Op} {o : Outcome PyException (Ans op)}
    {key : String} (hmoves : Moves settings j s past op o s') (h : s.kv.hashes key ≠ none) :
    s'.kv.hashes key ≠ none := by
  have hstored : ∀ job, (stored s.kv job).hashes key ≠ none := by
    intro job
    change Function.update s.kv.hashes (jobKey job.jobId) (some job.stored) key ≠ none
    by_cases hkey : key = jobKey job.jobId
    · subst hkey
      simp
    · rwa [Function.update_of_ne hkey]
  cases hmoves with
  | quiet hsame => rwa [hsame.hashes]
  | status | newHash => exact hstored _
  | newJob _ _ hsame =>
    rw [hsame.hashes]
    exact hstored _
  | entry | ack | read => exact h

def known (settings : Settings) (i : Caller) (jobId : String) : Assertion (delivery settings) i where
  holds s _ := s.kv.hashes (jobKey jobId) ≠ none
  stable _ _ hmay hdoes h := known_moves (moves hmay hdoes) h

/-! ## Calls that leave messages alone -/

def Calm : Op → Prop
  | .writes commands => ∀ command ∈ commands, Aside command
  | .xreadgroup _ => False
  | _ => True

/-- Calm calls that do not look at the queue either. -/
def Silent : Op → Prop
  | .hgetall _ => False
  | op => Calm op

theorem calm_of_silent {op : Op} (h : Silent op) : Calm op := by
  cases op <;> first | exact h | exact h.elim

theorem silent_of_local {op : Op} (h : op.Local) : Silent op := by
  cases op <;> first | exact h.elim | trivial

theorem silent_of_isExecute {op : Op} (h : Publication.IsExecute op) : Silent op := by
  cases op <;> first | exact h.elim | trivial

theorem may_of_calm {s : World} {past : Past} {op : Op} (h : Calm op) : May settings i s past op := by
  cases op with
  | writes commands => exact .aside h
  | xreadgroup count => exact h.elim
  | _ => trivial

theorem keeps_holding {messages : List QueuedVideoJobMessage} :
    (holding settings i messages).Keeps Calm := by
  intro op hop s past o s' _ _ hdoes h
  refine (held_congr ?_).trans h
  cases hdoes.change with
  | nothing | commit | group => rfl
  | writes => exact (applyAll_aside hop).pending
  | read => exact hop.elim

theorem keeps_settled {jobId : String} : (settled settings i jobId).Keeps Silent := by
  intro op hop s past o s' _ _ _ h
  refine (settled_of_silent ?_).mpr h
  cases op with
  | hgetall | xreadgroup => exact hop.elim
  | writes commands =>
    have hnone : commands.findSome? (commandWord jobId) = none := by
      refine List.findSome?_eq_none_iff.mpr fun command hc => ?_
      have haside := hop command hc
      cases command <;> first | rfl | exact haside.elim
    simp [word, hnone]
  | _ => rfl

theorem keeps_known {jobId : String} {K : Op → Prop} : (known settings i jobId).Keeps K :=
  fun _ _ _ _ _ _ _ hmay hdoes h => known_moves (moves hmay hdoes) h

/-- What is left of `P` when a call raises. -/
def kept (P : Assertion (delivery settings) i) (exc : PyException) : Assertion (delivery settings) i :=
  P.and (.pure exc.Foreign)

theorem kept_and_left {P Q : Assertion (delivery settings) i} (exc : PyException) :
    Entails (kept (P.and Q) exc) (kept P exc) := fun _ _ _ h => ⟨h.1.1, h.2⟩

theorem kept_left {P : Assertion (delivery settings) i} (exc : PyException) : Entails (kept P exc) P :=
  and_left _ _

section

variable {P : Assertion (delivery settings) i} {α : Type}

theorem asks (op : Op) {S : Ans op → Assertion (delivery settings) i}
    (hmay : ∀ s past, Orderly settings s past → P.holds s past → May settings i s past op)
    (hkeeps : ∀ s past o s', Orderly settings s past → May settings i s past op → Does i s op o s' →
      P.holds s past → P.holds s' (⟨i, op, o⟩ :: past))
    (hanswer : ∀ s past b s', Orderly settings s past → P.holds s past → Answers i s op b s' →
      P.holds s' (⟨i, op, .answered b⟩ :: past) → (S b).holds s' (⟨i, op, .answered b⟩ :: past)) :
    Triple (ends (kept P) S) P (await op) := by
  refine .perform hmay fun s past o s' hord hP hdoes => ?_
  have hP' := hkeeps s past o s' hord (hmay s past hord hP) hdoes hP
  have hraises : ∀ e, o.seen = .error e → e.Foreign :=
    fun e => Does.raises (show Does i s op o s' from hdoes)
  cases o with
  | answered b => exact hanswer s past b s' hord hP hdoes hP'
  | refused e | failed e | lost b e => exact ⟨hP', hraises e rfl⟩

theorem asks_calm {K : Op → Prop} (hP : P.Keeps K) (hK : ∀ op, K op → Calm op) (op : Op) (hop : K op) :
    Triple (ends (kept P) fun _ => P) P (await op) :=
  asks op (fun _ _ _ _ => may_of_calm (hK op hop))
    (fun _ _ _ _ hord hmay hdoes h => hP op hop hord hmay hdoes h) fun _ _ _ _ _ _ _ h => h

theorem calm {K : Op → Prop} {φ : α → Prop} {p : Code α} (hP : P.Keeps K)
    (hK : ∀ op, K op → Calm op) (hp : p.Within K φ) :
    Triple (ends (fun _ => P) fun a => P.and (.pure (φ a))) P p :=
  within hP (fun _ _ _ hop _ _ => may_of_calm (hK _ hop)) hp

end

/-! ## Statuses -/

def seen (settings : Settings) (i : Caller) (jobId : String) (answer : Option VideoJob) :
    Assertion (delivery settings) i :=
  ((settled settings i jobId).given (∀ job, answer = some job → job.status.Terminal)).and
    (((known settings i jobId).given (answer ≠ none)).and
      (.pure (∀ job, answer = some job → job.jobId = jobId)))

section

variable {P : Assertion (delivery settings) i} {jobId : String}

theorem getJobById_outline (jobId : String) (hP : P.Keeps Calm) :
    Triple (ends (kept P) fun answer => P.and (seen settings i jobId answer)) P
      (RedisQueue.getJobById jobId) := by
  refine asks (Op.hgetall _) (fun _ _ _ _ => trivial)
    (fun _ _ _ _ hord hmay hdoes h => hP (Op.hgetall _) trivial hord hmay hdoes h) ?_
  rintro s past answer s' hord - ⟨rfl, rfl⟩ hP'
  refine ⟨hP', fun hterminal => ?_, fun hsome => hsome, fun job hjob => ?_⟩
  · refine (settled_of_word (b := true) ?_).mpr rfl
    simpa [word, Option.all_eq_true] using hterminal
  · exact (jobKey_injective (hord.hashes _ job hjob).1).symm

theorem getStatusByJobId_outline (hP : P.Keeps Calm) :
    Triple (ends (kept P) fun answer => P.and (seen settings i jobId answer)) P
      ((RedisQueue.service settings).getStatusByJobId jobId) :=
  Publication.readWithPoolRetry_outline kept_left (fun _ _ _ h => ⟨h, trivial⟩)
    (fun _ _ _ h => ⟨h, trivial⟩) (getJobById_outline jobId hP)

end

section

variable {messages : List QueuedVideoJobMessage} {jobId : String}

theorem hset_outline (job : VideoJob) (hjob : ∃ message ∈ messages, message.jobId = job.jobId)
    (hid : job.jobId ≠ "") :
    Triple (ends (kept (holding settings i messages)) fun _ =>
        (holding settings i messages).and ((settled settings i job.jobId).given job.status.Terminal))
      ((holding settings i messages).and (known settings i job.jobId))
      (await (.writes [.hset (jobKey job.jobId) job])) := by
  have hmay : ∀ s past, held s i = messages → s.kv.hashes (jobKey job.jobId) ≠ none →
      WritesOk settings i s past [.hset (jobKey job.jobId) job] :=
    fun s past hheld hknown => .status hid hknown (.inr ((holds_iff _).mpr (hheld ▸ hjob)))
  refine .perform (fun s past _ h => hmay s past h.1 h.2) fun s past o s' hord h hdoes => ?_
  have hheld : held s' i = messages := by
    refine (held_congr ?_).trans h.1
    cases Does.change hdoes <;> rfl
  have hraises : ∀ exc, o.seen = .error exc → exc.Foreign :=
    fun exc => Does.raises (show Does i s _ o s' from hdoes)
  cases o with
  | answered =>
    refine ⟨hheld, fun hterminal => (settled_of_word (b := true) ?_).mpr rfl⟩
    simp [word, commandWord_hset, hterminal]
  | refused exc | failed exc | lost _ exc => exact ⟨hheld, hraises exc rfl⟩

theorem updateStatus_outline {status : VideoJobStatus} {code text : Option String}
    (hjob : ∃ message ∈ messages, message.jobId = jobId) (hid : jobId ≠ "") :
    Triple (ends (kept (holding settings i messages)) fun updated =>
        ((holding settings i messages).and ((settled settings i jobId).given status.Terminal)).and
          (.pure (∀ job, updated = some job → job.jobId = jobId)))
      (holding settings i messages) (RedisQueue.updateStatus jobId status code text) := by
  refine andThen (getJobById_outline _ keeps_holding) fun found => ?_
  cases found with
  | none =>
    exact give fun s past _ h => ⟨⟨h.1, fun _ => h.2.1 fun _ hnone => by cases hnone⟩,
      fun _ hnone => by cases hnone⟩
  | some job =>
    refine weaken (P := ((holding settings i messages).and (known settings i jobId)).and
      (.pure (job.jobId = jobId))) (fun s past _ h => ⟨⟨h.1, h.2.2.1 (by simp)⟩, h.2.2.2 job rfl⟩) ?_
    refine assume fun hjobId => andThen (S := fun _ => (holding settings i messages).and
      (known settings i jobId)) (mapError kept_and_left
        (asks_calm (.and keeps_holding keeps_known) (fun _ h => h) Op.now trivial)) fun now => ?_
    refine andThen (S := fun _ => (holding settings i messages).and
      ((settled settings i jobId).given status.Terminal)) ?_ fun _ =>
        give fun s past _ h => ⟨h, fun updated hupdated => by cases hupdated; exact hjobId⟩
    subst hjobId
    exact hset_outline (job.withStatus status code text now) hjob hid

/-! ## Processing -/

theorem markFailed_outline {P : Assertion (delivery settings) i} (hP : P.Keeps Silent) (jobId : String)
    (status : VideoJobStatus) (code text : String) :
    Triple (ends (kept P) fun _ => P) P (PostgresJobState.markFailed jobId status code text) := by
  have hcall : ∀ op, Silent op → Triple (ends (kept P) fun _ => P) P (await op) :=
    asks_calm hP fun _ => calm_of_silent
  rw [PostgresJobState.markFailed]
  split
  · exact .throw fun _ _ _ h => ⟨h, trivial⟩
  · refine andThen (S := fun _ => P) (andThen (hcall (Op.execute _ _) trivial) fun _ => give (Entails.refl P)) fun tx => ?_
    exact andThen (hcall (Op.commit tx) trivial) fun _ => give (Entails.refl P)

/-- What is left when `process` raises. -/
def failed (settings : Settings) (i : Caller) (messages : List QueuedVideoJobMessage) (jobId : String) :
    PyException → Assertion (delivery settings) i
  | .videoJobProcessingError failure => (holding settings i messages).and
      ((settled settings i jobId).given (failure.retryable = false))
  | _ => .top

theorem failed_of_kept {P : Assertion (delivery settings) i} (exc : PyException) :
    Entails (kept P exc) (failed settings i messages jobId exc) := by
  intro s past _ h
  cases exc with
  | videoJobProcessingError failure => exact h.2.elim
  | _ => trivial

variable {job : VideoJob}

theorem recordFailure_outline (hjob : ∃ message ∈ messages, message.jobId = job.jobId)
    (hid : job.jobId ≠ "") (exc : PyException) :
    Triple (ends (failed settings i messages job.jobId) fun _ => .pure False)
      (holding settings i messages) ((processor settings).recordFailure job exc) := by
  refine andThen (mapError failed_of_kept (updateStatus_outline hjob hid)) fun updated => ?_
  refine weaken (and_left _ _) ?_
  refine andThen (mapError failed_of_kept (markFailed_outline ?_ _ _ _ _)) fun _ => .throw ?_
  · exact .and (keeps_holding.mono fun _ => calm_of_silent) (.given keeps_settled)
  · intro s past _ h
    refine ⟨h.1, fun hretry => h.2 ?_⟩
    rw [classifyProcessingError_terminal _ _ _ hretry]
    decide

theorem executeAll_silent (tx rest : List Write) :
    (executeAll tx rest).Within Silent fun _ => True :=
  (Publication.executeAll_within tx rest).mono (fun _ => silent_of_isExecute) fun _ _ => trivial

theorem commit_silent (tx : List Write) : (commit tx).Within Silent fun _ => True :=
  .bind (.perform (Op.commit tx) trivial) fun _ _ => .pure trivial

theorem aside_silent {command : Command} (h : Aside command) :
    (await (.writes [command])).Within Silent fun _ => True :=
  .perform (Op.writes _) fun c hc => by rwa [List.mem_singleton.mp hc]

theorem moveIfRequired_silent (result : VideoModerationResult) (publisherUserId : String) :
    (moveIfRequired settings result publisherUserId).Within Silent fun _ => True := by
  rw [moveIfRequired]
  split
  · exact .pure trivial
  · refine .bind (φ := fun _ => True) ?_ fun _ _ => .pure trivial
    rw [moveToNsfw]
    split
    · exact .throw
    · exact .perform (Op.postMove _ _) trivial

theorem storageAction_silent (result : VideoModerationResult) (response : Option StorjMoveResponse) :
    (storageAction settings job result response).Within Silent fun _ => True := by
  cases response with
  | none => exact .pure trivial
  | some response =>
    exact .bind (.perform Op.now trivial) fun _ _ => .bind (.perform Op.uuid4 trivial) fun _ _ =>
      .pure trivial

theorem publishAfterCommit_silent (metadata : VideoMetadata) (frames : List FrameModerationResult)
    (result : VideoModerationResult) (action : Option StorageAction) :
    (publishAfterCommit settings job metadata frames result action).Within Silent fun _ => True := by
  refine .bind (.perform Op.now trivial) fun now _ => ?_
  refine .bind (aside_silent trivial) fun _ _ => .bind (aside_silent trivial) fun _ _ => ?_
  refine .bind (φ := fun _ => True) ?_ fun _ _ => aside_silent trivial
  cases action with
  | none => exact .pure trivial
  | some action => exact .bind (.perform Op.now trivial) fun _ _ => aside_silent trivial

theorem finalizeClassification_silent (metadata : VideoMetadata) (frames : List FrameModerationResult)
    (result : VideoModerationResult) :
    (finalizeClassification settings job metadata frames result).Within Silent fun _ => True := by
  refine .bind (moveIfRequired_silent result _) fun response _ => ?_
  refine .bind (storageAction_silent result response) fun action _ => ?_
  refine .bind (.bind (executeAll_silent _ _) fun tx _ => commit_silent tx) fun _ _ => ?_
  exact .bind (publishAfterCommit_silent metadata frames result action) fun _ _ => .pure trivial

theorem markProcessing_silent : (PostgresJobState.markProcessing job).Within Silent fun _ => True := by
  have hexecute : ∀ tx write, (execute tx write).Within Silent fun _ => True := fun tx write =>
    .bind (.perform (Op.execute tx write) trivial) fun _ _ => .pure trivial
  exact .bind (hexecute _ _) fun tx _ => .bind (hexecute tx _) fun tx _ => commit_silent tx

theorem silent {α : Type} {P : Assertion (delivery settings) i} {p : Code α} (hP : P.Keeps Silent)
    (hp : p.Within Silent fun _ => True) : Triple (ends (fun _ => P) fun _ => P) P p :=
  mapOk (fun _ => and_left _ _) (calm hP (fun _ => calm_of_silent) hp)

theorem keeps_silent : (holding settings i messages).Keeps Silent :=
  keeps_holding.mono fun _ => calm_of_silent

theorem processVideo_outline (hjob : ∃ message ∈ messages, message.jobId = job.jobId)
    (hid : job.jobId ≠ "") :
    Triple (ends (fun _ => holding settings i messages) fun _ =>
        (holding settings i messages).and (settled settings i job.jobId))
      (holding settings i messages) (processVideo settings job) := by
  refine andThen (silent keeps_silent (.perform (Op.prepareJobDir _) trivial)) fun _ => ?_
  refine tryFinally (R := ends (fun _ => holding settings i messages) fun _ =>
    (holding settings i messages).and (settled settings i job.jobId)) ?_ fun r => ?_
  · refine andThen (silent keeps_silent ((classify_within settings job).mono
      (fun _ => silent_of_local) fun _ _ => trivial)) fun ⟨metadata, frames, result⟩ => ?_
    refine andThen (silent keeps_silent (finalizeClassification_silent metadata frames result))
      fun _ => ?_
    refine andThen (mapError kept_left (updateStatus_outline hjob hid)) fun updated => ?_
    exact give fun _ _ _ h => ⟨h.1.1, h.1.2 (by decide)⟩
  · refine (silent ?_ (.perform (Op.cleanupDir _) trivial)).strengthen fun done => ?_
    · cases r with
      | ok => exact .and keeps_silent keeps_settled
      | error => exact keeps_silent
    · cases r with
      | ok => cases done <;> first | exact Entails.refl _ | exact and_left _ _
      | error => cases done <;> exact Entails.refl _

theorem attempt_outline (hjob : ∃ message ∈ messages, message.jobId = job.jobId)
    (hid : job.jobId ≠ "") :
    Triple (ends (failed settings i messages job.jobId) fun _ =>
        (holding settings i messages).and (settled settings i job.jobId))
      (holding settings i messages) ((processor settings).attempt job) := by
  refine tryCatch (R := ends (fun _ => holding settings i messages) fun _ =>
    (holding settings i messages).and (settled settings i job.jobId)) ?_ (fun _ => Entails.refl _)
      fun exc => ?_
  · refine andThen (silent keeps_silent markProcessing_silent) fun _ => processVideo_outline hjob hid
  · exact mapOk (S := fun _ => .pure False) (fun _ _ _ _ h => h.elim) (recordFailure_outline hjob hid exc)

theorem process_outline (hjob : ∃ message ∈ messages, message.jobId = job.jobId)
    (hid : job.jobId ≠ "") :
    Triple (ends (failed settings i messages job.jobId) fun _ =>
        (holding settings i messages).and (settled settings i job.jobId))
      (holding settings i messages) ((processor settings).process job) := by
  refine andThen (mapError failed_of_kept (getStatusByJobId_outline keeps_holding)) fun current => ?_
  simp only
  split
  · next hterminal =>
    refine give fun s past _ h => ⟨h.1, h.2.1 fun job' hsome => ?_⟩
    subst hsome
    exact hterminal
  · refine weaken (P := (holding settings i messages).and (.pure ((current.getD job).jobId = job.jobId)))
      (fun s past _ h => ⟨h.1, ?_⟩) (assume fun hcurrent => ?_)
    · cases current with
      | none => rfl
      | some job' => exact h.2.2.2 job' rfl
    · refine andThen (mapError failed_of_kept (asks_calm keeps_holding (fun _ h => h)
        (Op.selectJob _) trivial)) fun persisted => ?_
      split
      · refine andThen (mapError failed_of_kept (updateStatus_outline hjob hid)) fun updated => ?_
        exact give fun _ _ _ h => ⟨h.1.1, h.1.2 (by decide)⟩
      · refine andThen (mapError failed_of_kept (updateStatus_outline hjob hid)) fun updated => ?_
        refine weaken (P := (holding settings i messages).and (.pure (∀ job', updated = some job' →
          job'.jobId = job.jobId))) (fun s past _ h => ⟨h.1.1, h.2⟩) (assume fun hupdated => ?_)
        have hsame : (updated.getD (current.getD job)).jobId = job.jobId := by
          cases updated with
          | none => exact hcurrent
          | some job' => exact hupdated job' rfl
        rw [← hsame] at hjob hid ⊢
        exact attempt_outline hjob hid

end

/-! ## The worker -/

section

variable {message : QueuedVideoJobMessage} {rest : List QueuedVideoJobMessage}

/-- Whoever has settled the first of its messages may put it away. -/
theorem ack_outline :
    Triple (onOk fun _ => holding settings i rest)
      ((holding settings i (message :: rest)).and (settled settings i message.jobId))
      ((RedisQueue.service settings).ackVideoJobMessage message.messageId) := by
  refine ask (Op.writes _) (fun s past hord h => ?_) fun s past _ s' hord h hdoes => ?_
  · obtain ⟨entry, hmem, rfl, -⟩ := held_ack hord h.1
    exact .ack hmem h.2
  · obtain ⟨entry, -, rfl, hrest⟩ := held_ack hord h.1
    obtain rfl : s' = _ := hdoes
    exact hrest

theorem moveToDlq_outline (code text : String) :
    Triple (onOk fun _ => holding settings i rest)
      ((holding settings i (message :: rest)).and (settled settings i message.jobId))
      ((RedisQueue.service settings).moveVideoJobMessageToDlq message code text) :=
  andThen (mapError (fun _ => entails_top _) (silent (.and keeps_silent keeps_settled)
    (aside_silent trivial))) fun _ => ack_outline

theorem requeue_outline (hid : message.jobId ≠ "") :
    Triple (onOk fun _ => (holding settings i (message :: rest)).and (settled settings i message.jobId))
      (holding settings i (message :: rest))
      ((RedisQueue.service settings).requeueVideoJob message.jobId) := by
  refine andThen (mapError (fun _ => entails_top _) (getJobById_outline _ keeps_holding)) fun found => ?_
  cases found with
  | none => exact give fun _ _ _ h => ⟨h.1, h.2.1 fun _ hnone => by cases hnone⟩
  | some job =>
    refine weaken (P := (holding settings i (message :: rest)).and (.pure (job.jobId = message.jobId)))
      (fun s past _ h => ⟨h.1, h.2.2.2 job rfl⟩) (assume fun hjob => ?_)
    refine ask (Op.writes _) (fun s past _ _ => .entry (hjob ▸ hid)) fun s past _ s' _ h hdoes => ?_
    obtain rfl : s' = _ := hdoes
    refine ⟨h, (settled_of_word (b := true) ?_).mpr rfl⟩
    simp [word, commandWord, hjob]

/-- What the worker knows once `process` is through. -/
def through (settings : Settings) (i : Caller) (messages : List QueuedVideoJobMessage)
    (jobId : String) : Option ProcessingFailure → Assertion (delivery settings) i
  | none => (holding settings i messages).and (settled settings i jobId)
  | some failure => (holding settings i messages).and
      ((settled settings i jobId).given (failure.retryable = false))

theorem processed_outline {messages : List QueuedVideoJobMessage} {job : VideoJob}
    (hjob : ∃ message ∈ messages, message.jobId = job.jobId) (hid : job.jobId ≠ "") :
    Triple (onOk (through settings i messages job.jobId)) (holding settings i messages)
      ((worker settings).processed job) := by
  refine tryCatch (R := ends (failed settings i messages job.jobId)
    (through settings i messages job.jobId)) ?_ (fun _ => Entails.refl _) fun exc => ?_
  · exact andThen (process_outline hjob hid) fun _ => give (Entails.refl _)
  · cases exc with
    | videoJobProcessingError failure => exact give (Entails.refl _)
    | _ => exact fail

theorem settle_outline (hid : message.jobId ≠ "") (failure : Option ProcessingFailure) :
    Triple (onOk fun _ => holding settings i rest)
      (through settings i (message :: rest) message.jobId failure)
      ((worker settings).settle message message.jobId failure) := by
  cases failure with
  | none => exact ack_outline
  | some failure =>
    simp only [VideoQueueWorker.settle]
    split
    · exact weaken (and_left _ _) (andThen (requeue_outline hid) fun _ => ack_outline)
    · next hretry =>
      refine weaken (fun s past _ h => ?_) (moveToDlq_outline _ _)
      exact ⟨h.1, h.2 (Bool.eq_false_of_not_eq_true hretry)⟩

theorem handleMessage_outline :
    Triple (onOk fun _ => holding settings i rest) (holding settings i (message :: rest))
      ((worker settings).handleMessage message) := by
  rw [VideoQueueWorker.handleMessage]
  split
  · next hempty =>
    refine unreachable (fun s past hord h => ?_) _
    obtain ⟨entry, hmem, rfl, -⟩ := held_ack hord h
    exact (hord.held entry i hmem).1 hempty
  · next hid =>
    refine andThen (mapError (fun _ => entails_top _) (getStatusByJobId_outline keeps_holding))
      fun found => ?_
    cases found with
    | none =>
      refine weaken (fun s past _ h => ?_) (moveToDlq_outline _ _)
      exact ⟨h.1, h.2.1 fun _ hnone => by cases hnone⟩
    | some job =>
      refine weaken (P := (holding settings i (message :: rest)).and
        (.pure (job.jobId = message.jobId))) (fun s past _ h => ⟨h.1, h.2.2.2 job rfl⟩)
        (assume fun hjob => ?_)
      have hmem : ∃ first ∈ message :: rest, first.jobId = job.jobId :=
        ⟨message, List.mem_cons_self, hjob.symm⟩
      refine andThen (processed_outline hmem (hjob ▸ hid)) fun failure => ?_
      rw [hjob]
      exact settle_outline hid failure

theorem handleMessages_outline (messages : List QueuedVideoJobMessage) :
    Triple (onOk fun _ => holding settings i []) (holding settings i messages)
      (messages.forM (worker settings).handleMessage) := by
  induction messages with
  | nil => exact give (Entails.refl _)
  | cons message rest ih => exact andThen handleMessage_outline fun _ => ih

theorem readMessages_outline {nr : Nat} (count : Int) :
    Triple (onOk (holding settings (.worker nr))) (holding settings (.worker nr) [])
      ((RedisQueue.service settings).readVideoJobMessages count) := by
  refine ask (Op.xreadgroup count) (fun _ _ _ _ => ⟨nr, rfl⟩) fun s past messages s' _ h hdoes => ?_
  obtain ⟨-, rfl, rfl⟩ := hdoes
  change held { s with kv := s.kv.xreadgroup (.worker nr) count } (.worker nr) = _
  rw [held_read, show held s (.worker nr) = [] from h, List.nil_append]

theorem rounds_outline {nr : Nat} (n : Nat) :
    Triple (onOk fun _ => holding settings (.worker nr) []) (holding settings (.worker nr) [])
      ((worker settings).rounds n) := by
  induction n with
  | zero => exact give (Entails.refl _)
  | succ n ih =>
    refine andThen (andThen (readMessages_outline _) fun messages => ?_) fun _ => ih
    exact andThen (handleMessages_outline messages) fun _ => give (Entails.refl _)

theorem runForever_outline {nr : Nat} (n : Nat) :
    Triple (onOk fun _ => holding settings (.worker nr) []) (holding settings (.worker nr) [])
      ((worker settings).runForever n) := by
  refine andThen (S := fun _ => holding settings (.worker nr) []) ?_ fun _ => rounds_outline n
  refine mapOk (fun _ => and_left _ _) (mapError (fun _ => entails_top _) (calm (φ := fun _ => True)
    (keeps_holding.mono fun _ => calm_of_silent) (fun _ => calm_of_silent) ?_))
  refine .tryCatch (.perform Op.xgroupCreate trivial) fun exc => ?_
  split
  · exact .pure trivial
  · exact .throw

end

/-! ## The API -/

/-- The job is in the stream's history. In a cluster a caller may only have pointed the index at it. -/
def taken (settings : Settings) (i : Caller) (jobId : String) : Assertion (delivery settings) i where
  holds _ past := Entered past jobId ∨ settings.kvrocksClusterEnabled = true ∧
    ∃ e ∈ past, ∃ key, Performed (.setNx key jobId) e
  stable _ _ _ _
    | .inl h => .inl h.mono
    | .inr ⟨hcluster, e, he, hset⟩ => .inr ⟨hcluster, e, List.mem_cons_of_mem _ he, hset⟩

theorem alreadyThere_outline (existing : VideoJob) :
    Triple (onOk fun result => taken settings i result.job.jobId) (known settings i existing.jobId)
      (RedisQueue.alreadyThere existing) := by
  refine andThen (S := fun _ => taken settings i existing.jobId) ?_ fun _ => give (Entails.refl _)
  refine ask (Op.writes _) (fun s past _ h => .index h) fun s past _ s' hord h _ => ?_
  cases hcluster : settings.kvrocksClusterEnabled with
  | true =>
    have hset : Performed (.setNx (videoIdKey existing.videoId) existing.jobId)
        ⟨i, .writes [.setNx (videoIdKey existing.videoId) existing.jobId], .answered ()⟩ :=
      performed_writes.mpr ⟨List.mem_singleton_self _, trivial⟩
    exact .inr ⟨hcluster, _, List.mem_cons_self, _, hset⟩
  | false =>
    obtain ⟨job, hjob⟩ := Option.ne_none_iff_exists'.mp h
    rw [jobKey_injective (hord.hashes _ job hjob).1]
    exact .inl (hord.entered hcluster _ job hjob).mono

theorem storeNewJob_outline {nr : Nat} (request : VideoDetectRequest) :
    Triple (onOk fun result => taken settings (.api nr) result.job.jobId) .top
      (RedisQueue.storeNewJob settings request) := by
  have hentered : ∀ {past : Past} {commands : List Command}, ∀ job : VideoJob,
      .xadd job.jobId job ∈ commands →
      Entered (⟨.api nr, .writes commands, .answered ()⟩ :: past) job.jobId :=
    fun job hmem => ⟨_, List.mem_cons_self, job, performed_writes.mpr ⟨hmem, trivial⟩⟩
  have hcall : ∀ commands : List Command, (∀ s past, WritesOk settings (.api nr) s past commands) →
      Triple (onOk fun _ => .top) (.top : Assertion (delivery settings) (.api nr))
        (await (.writes commands)) :=
    fun commands hmay => ask (Op.writes commands) (fun s past _ _ => hmay s past) fun _ _ _ _ _ _ _ => trivial
  refine andThen (ask Op.now (S := fun _ => .top) (fun _ _ _ _ => trivial) fun _ _ _ _ _ _ _ => trivial)
    fun now => ?_
  have hid : (request.job now).jobId ≠ "" := request.jobId_ne
  simp only
  split
  · next hcluster =>
    have hset : ∀ key value, Triple (onOk fun _ => .top)
        (.top : Assertion (delivery settings) (.api nr)) (await (.writes [.set key value])) :=
      fun key value => hcall _ fun _ _ => .aside fun c hc => by
        rw [List.mem_singleton.mp hc]
        trivial
    refine andThen (hcall _ fun _ _ => .newHash hid rfl hcluster) fun _ => ?_
    refine andThen (hset _ _) fun _ => andThen (hset _ _) fun _ => ?_
    refine andThen (S := fun _ => taken settings (.api nr) request.jobId) ?_ fun _ => give (Entails.refl _)
    refine ask (Op.writes _) (fun s past _ _ => .entry hid)
      fun s past _ s' _ _ _ => .inl ?_
    exact hentered (request.job now) List.mem_cons_self
  · refine andThen (S := fun _ => taken settings (.api nr) request.jobId) ?_ fun _ => give (Entails.refl _)
    refine ask (Op.writes _) (fun s past _ _ => .newJob hid)
      fun s past _ s' _ _ _ => .inl ?_
    exact hentered (request.job now) (by simp [VideoDetectRequest.job])

def foundKnown (settings : Settings) (i : Caller) : Option VideoJob → Assertion (delivery settings) i
  | some job => known settings i job.jobId
  | none => .top

theorem enqueue_outline {nr : Nat} (request : VideoDetectRequest) :
    Triple (onOk fun result => taken settings (.api nr) result.job.jobId) .top
      ((RedisQueue.service settings).enqueueVideoDetection request) := by
  have hread : ∀ jobId, Triple (onOk (foundKnown settings (.api nr)))
      (.top : Assertion (delivery settings) (.api nr)) (RedisQueue.getJobById jobId) := by
    intro jobId
    refine mapOk (fun found => ?_) (mapError (fun _ => entails_top _)
      (getJobById_outline jobId keeps_top))
    cases found with
    | none => exact entails_top _
    | some job =>
      intro s past _ h
      change s.kv.hashes (jobKey job.jobId) ≠ none
      rw [h.2.2.2 job rfl]
      exact h.2.2.1 (by simp)
  refine andThen (hread request.jobId) fun found => ?_
  cases found with
  | some existing => exact alreadyThere_outline existing
  | none =>
    refine andThen (S := fun _ => .top) (mapError (fun _ => entails_top _)
      (asks_calm keeps_top (fun _ h => h) (Op.get _) trivial)) fun existingJobId => ?_
    split
    · refine andThen (hread _) fun found => ?_
      cases found with
      | some existing => exact alreadyThere_outline existing
      | none => exact storeNewJob_outline request
    · exact storeNewJob_outline request

/-! ## Readers -/

theorem getStatusByVideoId_calm (videoId : String) :
    (VideoStatusService.getStatusByVideoId settings videoId).Within Calm fun _ => True := by
  have hrow : ∀ jobId, (VideoStatusService.resultByJobId jobId).Within Calm fun _ => True := fun jobId =>
    .bind (.perform (Op.selectResult jobId) trivial) fun _ _ => .pure trivial
  have hjob : (RedisQueue.getJobByVideoId videoId).Within Calm fun _ => True := by
    refine .bind (.perform (Op.get _) trivial) fun found _ => ?_
    cases found with
    | none => exact .pure trivial
    | some jobId =>
      simp only
      split
      · exact .pure trivial
      · exact .perform (Op.hgetall _) trivial
  refine .bind (Publication.readWithPoolRetry_within hjob) fun found _ => ?_
  cases found with
  | none =>
    refine .bind (φ := fun _ => True) ?_ fun _ _ => .pure trivial
    exact .bind (.perform (Op.selectLatestResult videoId) trivial) fun _ _ => .pure trivial
  | some job =>
    simp only
    split
    · exact .bind (hrow job.jobId) fun _ _ => .pure trivial
    · exact .bind (φ := fun _ => True) (.pure trivial) fun _ _ => .pure trivial

/-! ## Everybody -/

/-- The programs of the service: workers, API callers and readers. -/
def Services (settings : Settings) : Caller → Code Reply → Prop
  | .attempt _, _ => False
  | i, p => Starts settings i p

def ended (settings : Settings) : (i : Caller) → Reply → Assertion (delivery settings) i
  | .worker nr, _ => holding settings (.worker nr) []
  | .api nr, .enqueued result => taken settings (.api nr) result.job.jobId
  | _, _ => .top

theorem services_outline (settings : Settings) (i : Caller) (p : Code Reply) (h : Services settings i p) :
    Triple (onOk (ended settings i)) ((delivery settings).fresh i) p := by
  cases i with
  | worker nr =>
    obtain ⟨rounds, rfl⟩ := h
    refine weaken (fun s past hord hfresh => ?_)
      (andThen (runForever_outline rounds) fun _ => give (Entails.refl _))
    change held s (.worker nr) = []
    rw [held, List.map_eq_nil_iff, List.filter_eq_nil_iff]
    rintro ⟨entry, w⟩ hmem hw
    obtain rfl : w = .worker nr := of_decide_eq_true hw
    obtain ⟨-, -, e, he, hcaller⟩ := hord.held entry _ hmem
    exact hfresh e he hcaller trivial
  | api nr =>
    obtain ⟨request, rfl⟩ := h
    exact weaken (entails_top _) (andThen (enqueue_outline request) fun _ => give (Entails.refl _))
  | reader nr =>
    obtain ⟨videoId, rfl⟩ := h
    refine weaken (entails_top _) (andThen (S := fun _ => .top) ?_ fun _ => give (entails_top _))
    exact mapOk (fun _ => entails_top _) (mapError (fun _ => entails_top _)
      (calm keeps_top (fun _ h => h) (getStatusByVideoId_calm videoId)))
  | attempt nr => exact h.elim

variable {cond : StepCond Caller World Ans PyException Reply} {c : Moment}

/-- In every run the stores are in order and every caller is where its outline says. -/
theorem sound (h : ReachVia (Services settings) Does cond {} c) :
    (delivery settings).Sound (fun i => onOk (ended settings i)) c :=
  Discipline.sound (D := delivery settings) (services_outline settings) (orderly_empty settings) h

end NsfwDetector.Delivery
