import NsfwDetector.System.Past

/-!
# Updates of one job that overlap

`update_status` reads the whole hash of a job and later writes the whole hash. What another update
has written between the two is overwritten.
-/

namespace NsfwDetector

open Effects

namespace StatusUpdates

/-! ## The system -/

def updateProgram (jobId : String) (status : VideoJobStatus)
    (lastErrorCode lastErrorMessage : Option String) : Code Reply := do
  let _ ← RedisQueue.updateStatus jobId status lastErrorCode lastErrorMessage
  pure .finished

/-- Any number of callers, and each updates the job. -/
def Updates (jobId : String) : Caller → Code Reply → Prop := fun _ p =>
  ∃ status lastErrorCode lastErrorMessage,
    p = updateProgram jobId status lastErrorCode lastErrorMessage

/-- The job that a call has put in the place of the stored one. -/
def written : Call → Option VideoJob
  | ⟨_, .writes [.hset _ job], o⟩ => if o.TookEffect then some job else none
  | _ => none

/-- The call has written a terminal status. -/
def closes (e : Call) : Bool := (written e).any fun job => job.status.Terminal

/-- The call has completed an `update_status(PROCESSING)`. -/
def counts (e : Call) : Bool := (written e).any fun job => job.status = .processing

def reads (i : Caller) : Call → Bool
  | ⟨j, .hgetall _, _⟩ => j = i
  | _ => false

/-- The calls since caller `i` last read the job. -/
def sinceRead (i : Caller) (past : Past) : Past := past.takeWhile fun e => !reads i e

/-- The job that caller `i` last read. -/
def found (i : Caller) (past : Past) : Option VideoJob :=
  match past.find? (reads i) with
  | some ⟨_, .hgetall _, .answered job⟩ => job
  | _ => none

def Closed (job₀ : VideoJob) (past : Past) : Prop :=
  job₀.status.Terminal ∨ ∃ e ∈ past, closes e = true

/-- A terminal status stays, and every completed attempt is counted. -/
def NothingLost (jobId : String) (job₀ : VideoJob) (c : Moment) : Prop :=
  ∃ job, c.state.kv.hashes (jobKey jobId) = some job ∧
    (Closed job₀ c.history → job.status.Terminal) ∧
    job.attempts = job₀.attempts + c.history.countP counts

/-- A write is in time if nobody has completed an attempt since its caller read the job, and a write
that leaves the job open if the job was open at the read and nobody has closed it since. -/
def InTime (e : Call) (past : Past) : Prop :=
  ∀ job ∈ written e, (∀ e' ∈ sinceRead e.caller past, counts e' = false) ∧
    (¬ job.status.Terminal → (∀ read ∈ found e.caller past, ¬ read.status.Terminal) ∧
      ∀ e' ∈ sinceRead e.caller past, closes e' = false)

def AllInTime : StepCond Caller World Ans PyException Reply := fun c l _ =>
  match l with
  | .call e => InTime e c.history
  | .start _ | .kill _ => True

/-! ## One update -/

section

variable {job₀ job read : VideoJob} {past : Past} {i j : Caller} {op : Op}
  {o : Outcome PyException (Ans op)} {e : Call}

theorem written_hset {key : String} {o : Outcome PyException (Ans (.writes [.hset key job]))}
    (h : o.TookEffect) : written ⟨i, .writes [.hset key job], o⟩ = some job := if_pos h

theorem written_of_no_effect (h : ¬ o.TookEffect) : written ⟨i, op, o⟩ = none := by
  unfold written
  split
  · next heq =>
    cases heq
    exact if_neg h
  · rfl

theorem counts_of_not_written (h : written e = none) : counts e = false := by simp [counts, h]

theorem closes_of_not_written (h : written e = none) : closes e = false := by simp [closes, h]

theorem closed_cons : Closed job₀ (e :: past) ↔ closes e = true ∨ Closed job₀ past := by
  simp [Closed, or_left_comm]

theorem closed_append {past' : Past} :
    Closed job₀ (past' ++ past) ↔ (∃ e ∈ past', closes e = true) ∨ Closed job₀ past := by
  simp [Closed, or_and_right, exists_or, or_left_comm]

/-- Caller `i` has read `read`, and it was what all calls before had made of the job. -/
inductive HasRead (job₀ : VideoJob) (i : Caller) (read : VideoJob) : Past → Prop
  | mk {since before : Past} {key : String} (hsince : ∀ e ∈ since, reads i e = false)
      (hclosed : read.status.Terminal ↔ Closed job₀ before)
      (hattempts : read.attempts = job₀.attempts + before.countP counts) :
      HasRead job₀ i read (since ++ ⟨i, .hgetall key, .answered (some read)⟩ :: before)

theorem HasRead.cons (h : HasRead job₀ i read past) (he : reads i e = false) :
    HasRead job₀ i read (e :: past) := by
  obtain ⟨hsince, hclosed, hattempts⟩ := h
  refine @HasRead.mk job₀ i read (e :: _) _ _ ?_ hclosed hattempts
  exact List.forall_mem_cons.mpr ⟨he, hsince⟩

theorem sinceRead_append {since before : Past} (hsince : ∀ e ∈ since, reads i e = false)
    (he : reads i e = true) : sinceRead i (since ++ e :: before) = since := by
  unfold sinceRead
  rw [List.takeWhile_append_of_pos fun e' he' => by simp [hsince e' he']]
  simp [he]

theorem found_append {since before : Past} {key : String} (hsince : ∀ e ∈ since, reads i e = false) :
    found i (since ++ ⟨i, .hgetall key, .answered (some read)⟩ :: before) = some read := by
  have hnone : since.find? (reads i) = none :=
    List.find?_eq_none.mpr fun e he => by simp [hsince e he]
  simp [found, List.find?_append, hnone, reads]

theorem HasRead.counts_since (h : HasRead job₀ i read past) :
    (∀ e ∈ sinceRead i past, counts e = false) ↔
      read.attempts = job₀.attempts + past.countP counts := by
  obtain ⟨hsince, -, hattempts⟩ := h
  next since before key =>
  have hzero : (∀ e ∈ since, counts e = false) ↔ since.countP counts = 0 := by
    simp [List.countP_eq_zero]
  rw [sinceRead_append hsince (by simp [reads]), hzero, List.countP_append,
    List.countP_cons_of_neg (by simp [counts, written])]
  omega

theorem HasRead.open_since (h : HasRead job₀ i read past) :
    (∀ read ∈ found i past, ¬ read.status.Terminal) ∧ (∀ e ∈ sinceRead i past, closes e = false) ↔
      ¬ Closed job₀ past := by
  obtain ⟨hsince, hclosed, -⟩ := h
  next since before key =>
  have hread : closes ⟨i, .hgetall key, .answered (some read)⟩ = false := rfl
  have hnone : (∀ e ∈ since, closes e = false) ↔ ¬ ∃ e ∈ since, closes e = true := by
    simp only [not_exists, not_and, Bool.not_eq_true]
  rw [sinceRead_append hsince (by simp [reads]), found_append hsince, closed_append, closed_cons, hread,
    hnone, not_or, and_comm]
  simp [hclosed]

/-- A writer is in time exactly if what it has read still holds in what counts. -/
theorem HasRead.inTime_iff (h : HasRead job₀ e.caller read past) (hwritten : written e = some job) :
    InTime e past ↔ read.attempts = job₀.attempts + past.countP counts ∧
      (¬ job.status.Terminal → ¬ Closed job₀ past) := by
  unfold InTime
  rw [hwritten, ← h.counts_since, ← h.open_since]
  simp

end

/-! ## The discipline -/

open Assertion Triple

/-- The stored job is what the writes so far have made of it. -/
def UpToDate (jobId : String) (job₀ : VideoJob) (s : World) (past : Past) : Prop :=
  ∃ job, s.kv.hashes (jobKey jobId) = some job ∧ (job.status.Terminal ↔ Closed job₀ past) ∧
    job.attempts = job₀.attempts + past.countP counts

/-- The calls of an update that leave the store alone, and its write. -/
inductive UpdateOk (jobId : String) (job₀ : VideoJob) (i : Caller) (past : Past) : Op → Prop
  | read : UpdateOk jobId job₀ i past (.hgetall (jobKey jobId))
  | now : UpdateOk jobId job₀ i past .now
  | write {read : VideoJob} {status : VideoJobStatus} {lastErrorCode lastErrorMessage : Option String}
      {now : Time} (hread : HasRead job₀ i read past) : UpdateOk jobId job₀ i past
        (.writes [.hset (jobKey jobId) (read.withStatus status lastErrorCode lastErrorMessage now)])

section

variable {jobId : String} {job₀ read : VideoJob} {s s' : World} {past : Past} {i : Caller} {op : Op}
  {o : Outcome PyException (Ans op)} {status : VideoJobStatus}
  {lastErrorCode lastErrorMessage : Option String} {now : Time}

theorem UpToDate.same {e : Call} (h : UpToDate jobId job₀ s past) (hs : s' = s)
    (he : written e = none) : UpToDate jobId job₀ s' (e :: past) := by
  obtain ⟨job, hjob, hclosed, hattempts⟩ := h
  refine ⟨job, hs ▸ hjob, ?_, ?_⟩
  · rw [closed_cons, closes_of_not_written he]
    simpa using hclosed
  · rw [List.countP_cons_of_neg (by simp [counts_of_not_written he])]
    exact hattempts

/-- After a write in time the stored job is up to date again, and only then. -/
theorem upToDate_write {e : Call} (hread : HasRead job₀ e.caller read past)
    (he : written e = some (read.withStatus status lastErrorCode lastErrorMessage now)) :
    let job := (read.withStatus status lastErrorCode lastErrorMessage now).stored
    InTime e past ↔ (Closed job₀ (e :: past) → job.status.Terminal) ∧
      job.attempts = job₀.attempts + (e :: past).countP counts := by
  intro job
  have hstatus : job.status = status := rfl
  have hattempts : job.attempts = read.attempts + if counts e = true then 1 else 0 := by
    have hcounts : counts e = true ↔ status = .processing := by simp [counts, he, VideoJob.withStatus]
    change (if status = .processing then read.attempts + 1 else read.attempts) = _
    simp only [hcounts]
    split <;> simp
  have hcloses : closes e = true ↔ status.Terminal := by simp [closes, he, VideoJob.withStatus]
  have hsum : read.attempts = job₀.attempts + (past.countP counts : Nat) ↔
      job.attempts = job₀.attempts + ((e :: past).countP counts : Nat) := by
    rw [hattempts, List.countP_cons]
    split <;> push_cast <;> omega
  have hopen : (¬ status.Terminal → ¬ Closed job₀ past) ↔
      (status.Terminal ∨ Closed job₀ past → status.Terminal) := by
    rw [or_imp, not_imp_not]
    simp
  rw [hread.inTime_iff he, closed_cons, hcloses, hstatus, and_comm]
  exact and_congr hopen hsum

theorem hash_of_write {key : String} {job : VideoJob}
    {o : Outcome PyException (Ans (.writes [.hset key job]))}
    (hdoes : Does i s (.writes [.hset key job]) o s') (heffect : o.TookEffect) :
    s'.kv.hashes key = some job.stored := by
  rw [hdoes.writes heffect]
  exact Function.update_self ..

theorem inv_update (hinv : UpToDate jobId job₀ s past) (hmay : UpdateOk jobId job₀ i past op)
    (hdoes : Does i s op o s') (htime : InTime ⟨i, op, o⟩ past) :
    UpToDate jobId job₀ s' (⟨i, op, o⟩ :: past) := by
  cases hmay with
  | read =>
    refine hinv.same ?_ rfl
    cases hdoes.change
    rfl
  | now =>
    refine hinv.same ?_ rfl
    cases hdoes.change
    rfl
  | @write read status lastErrorCode lastErrorMessage now hread =>
    by_cases heffect : o.TookEffect
    · have hwritten : written ⟨i, .writes [.hset (jobKey jobId) _], o⟩ = some _ := written_hset heffect
      obtain ⟨hclosed, hattempts⟩ := (upToDate_write hread hwritten).mp htime
      refine ⟨_, hash_of_write hdoes heffect, ⟨fun hterminal => closed_cons.mpr (.inl ?_), hclosed⟩,
        hattempts⟩
      unfold closes
      rw [hwritten]
      exact decide_eq_true hterminal
    · exact hinv.same (hdoes.of_not_tookEffect heffect) (written_of_no_effect heffect)

end

/-- The steps of updates whose writes are all in time. -/
def updating (jobId : String) (job₀ : VideoJob) : Discipline Caller (World × Past) Ans PyException where
  does i s op o s' := Does i s.1 op o s'.1 ∧ s'.2 = ⟨i, op, o⟩ :: s.2 ∧ InTime ⟨i, op, o⟩ s.2
  inv s past := s.2 = past ∧ UpToDate jobId job₀ s.1 past
  may i _ past op := UpdateOk jobId job₀ i past op
  inv_call := by
    rintro s past i op o s' ⟨rfl, hinv⟩ hmay ⟨hdoes, hpast, htime⟩
    exact ⟨hpast, inv_update hinv hmay hdoes htime⟩

section

variable {jobId : String} {job₀ : VideoJob} {s₀ : World} {i : Caller} {c c' : Moment}

def hasRead (jobId : String) (job₀ : VideoJob) (i : Caller) (read : VideoJob) :
    Assertion (updating jobId job₀) i where
  holds _ past := HasRead job₀ i read past
  stable {_ _ _ op _ _} hj _ _ _ h := h.cons (by cases op <;> simp [reads, hj])

theorem read_outline : Triple (onOk fun read => match read with
      | some job => hasRead jobId job₀ i job
      | none => .top)
    .top (RedisQueue.getJobById jobId) := by
  refine ask (Op.hgetall _) (fun _ _ _ _ => .read) ?_
  rintro s past read s' ⟨rfl, job, hjob, hclosed, hattempts⟩ - ⟨⟨rfl, -⟩, -, -⟩
  rw [hjob]
  exact @HasRead.mk job₀ i job [] _ _ (fun _ he => absurd he List.not_mem_nil) hclosed hattempts

theorem update_outline {p : Code Reply} (h : Updates jobId i p) :
    Triple (onOk fun _ => .top) ((updating jobId job₀).fresh i) p := by
  obtain ⟨status, lastErrorCode, lastErrorMessage, rfl⟩ := h
  refine andThen (S := fun _ => .top) ?_ fun _ => give (.refl _)
  refine andThen (weaken (entails_top _) read_outline) fun read => ?_
  cases read with
  | none => exact give (.refl _)
  | some job =>
    refine andThen (S := fun _ => hasRead jobId job₀ i job) ?_ fun now => ?_
    · exact ask Op.now (fun _ _ _ _ => .now) fun _ _ _ _ _ hread _ => hread.cons rfl
    · refine andThen (S := fun _ => .top) ?_ fun _ => give (.refl _)
      exact ask (Op.writes _) (fun _ _ _ hread => .write hread) fun _ _ _ _ _ _ _ => trivial

theorem sound (hjob : s₀.kv.hashes (jobKey jobId) = some job₀)
    (h : ReachVia (Updates jobId) Does AllInTime s₀ c) :
    (updating jobId job₀).Sound (fun _ => onOk fun _ => .top) c.recorded := by
  have hrun : ReachVia (Updates jobId) (updating jobId job₀).does (fun _ _ _ => True) (s₀, [])
      c.recorded := by
    refine h.recorded fun c e c' _ hs htime => ?_
    cases hs with
    | call _ hdoes => exact ⟨hdoes, rfl, htime⟩
  refine Discipline.sound (fun _ _ => update_outline) ⟨rfl, job₀, hjob, ?_, ?_⟩ hrun
  · simp [Closed]
  · simp

theorem nothingLost_of_sound
    (h : (updating jobId job₀).Sound (fun _ => onOk fun _ => .top) c.recorded) :
    NothingLost jobId job₀ c := by
  obtain ⟨-, job, hjob, hclosed, hattempts⟩ := h.1
  exact ⟨job, hjob, hclosed.mpr, hattempts⟩

/-- A step after which nothing is lost was in time. -/
theorem inTime_of_nothingLost {l : Label Caller Ans PyException}
    (hsound : (updating jobId job₀).Sound (fun _ => onOk fun _ => .top) c.recorded)
    (hs : Step (Updates jobId) Does c l c') (hlost : NothingLost jobId job₀ c') :
    AllInTime c l c' := by
  cases hs with
  | start => trivial
  | kill => trivial
  | @call i op k o s' hrun hdoes =>
    have hnone : written ⟨i, op, o⟩ = none → InTime ⟨i, op, o⟩ c.history := by
      intro hwritten job hjob
      rw [hwritten] at hjob
      cases hjob
    have hmay : UpdateOk jobId job₀ i c.history op := hsound.may hrun
    cases hmay with
    | read => exact hnone rfl
    | now => exact hnone rfl
    | @write read status lastErrorCode lastErrorMessage now hread =>
      by_cases heffect : o.TookEffect
      · obtain ⟨job, hjob, hclosed, hattempts⟩ := hlost
        obtain rfl := Option.some.inj ((hash_of_write hdoes heffect).symm.trans hjob)
        exact (upToDate_write hread (written_hset heffect)).mpr ⟨hclosed, hattempts⟩
      · exact hnone (written_of_no_effect heffect)

/-- If every write is in time, nothing is lost; and if nothing is ever lost, every write is in time. -/
theorem nothing_lost_iff (hjob : s₀.kv.hashes (jobKey jobId) = some job₀) :
    (∀ c, ReachVia (Updates jobId) Does AllInTime s₀ c → NothingLost jobId job₀ c) ∧
      ∀ c, ReachVia (Updates jobId) Does (fun _ _ c' => NothingLost jobId job₀ c') s₀ c →
        ReachVia (Updates jobId) Does AllInTime s₀ c := by
  refine ⟨fun c h => nothingLost_of_sound (sound hjob h), fun c h => ?_⟩
  induction h with
  | init => exact .init
  | step _ hs hlost ih => exact .step ih hs (inTime_of_nothingLost (sound hjob ih) hs hlost)

end

/-! ### Two workers -/

def oneJob : World :=
  { kv := { hashes := Function.update (fun _ => none) (jobKey sampleJob.jobId) (some sampleJob) } }

def begins (nr : Nat) (status : VideoJobStatus) : Turn Caller Ans PyException Reply Choice :=
  .start (.worker nr) (updateProgram sampleJob.jobId status none none)

/-- The second worker reads when the first has written. -/
def oneAfterTheOther : Script :=
  begins 0 .processing :: calls (.worker 0) 3 clean ++ begins 1 .classified :: calls (.worker 1) 3 clean

/-- Both workers read before either writes. -/
def bothReadFirst (first second : VideoJobStatus) : Script :=
  [begins 0 first, begins 1 second] ++ calls (.worker 0) 1 clean ++ calls (.worker 1) 1 clean ++
    calls (.worker 0) 2 clean ++ calls (.worker 1) 2 clean

theorem legal_begins (nr : Nat) (status : VideoJobStatus) :
    (begins nr status).Legal (Updates sampleJob.jobId) := ⟨status, none, none, rfl⟩

theorem legal_oneAfterTheOther : ∀ t ∈ oneAfterTheOther, t.Legal (Updates sampleJob.jobId) :=
  List.forall_mem_append.mpr ⟨legal_thenCalls (legal_begins ..), legal_thenCalls (legal_begins ..)⟩

theorem legal_bothReadFirst (first second : VideoJobStatus) :
    ∀ t ∈ bothReadFirst first second, t.Legal (Updates sampleJob.jobId) := by
  simp only [bothReadFirst, List.mem_append, List.mem_cons, List.not_mem_nil, or_false]
  rintro t (((((rfl | rfl) | ht) | ht) | ht) | ht)
  · exact legal_begins ..
  · exact legal_begins ..
  all_goals exact legal_calls t ht

instance (e : Call) (past : Past) : Decidable (InTime e past) :=
  inferInstanceAs (Decidable (∀ job ∈ written e, _))

instance (c : Moment) (l : Label Caller Ans PyException) (c' : Moment) :
    Decidable (AllInTime c l c') :=
  match l with
  | .call e => inferInstanceAs (Decidable (InTime e c.history))
  | .start _ | .kill _ => .isTrue trivial

def stateOf (c : Moment) : Option (VideoJobStatus × Int) :=
  (c.state.kv.hashes (jobKey sampleJob.jobId)).map fun job => (job.status, job.attempts)

/-- The second update builds on the first. -/
theorem nothing_lost_one_by_one : ∃ c, ReachVia (Updates sampleJob.jobId) Does AllInTime oneJob c ∧
    stateOf c = some (.classified, 1) ∧ NothingLost sampleJob.jobId sampleJob c := by
  have hplay : ((play choose AllInTime oneAfterTheOther (.initial oneJob)).any fun c =>
      stateOf c = some (.classified, 1)) = true := by
    decide +kernel
  obtain ⟨c, hrun, hstate⟩ := exists_of_play choose_within legal_oneAfterTheOther hplay
  exact ⟨c, hrun, of_decide_eq_true hstate, (nothing_lost_iff (by decide +kernel)).1 c hrun⟩

theorem NothingLost.read_state {c : Moment} {status : VideoJobStatus} {attempts : Int}
    (hstate : stateOf c = some (status, attempts)) (h : NothingLost sampleJob.jobId sampleJob c) :
    (Closed sampleJob c.history → status.Terminal) ∧ attempts = c.history.countP counts := by
  obtain ⟨job, hjob, hclosed, hattempts⟩ := h
  unfold stateOf at hstate
  rw [hjob, Option.map_some, Option.some.injEq, Prod.mk.injEq] at hstate
  obtain ⟨rfl, rfl⟩ := hstate
  exact ⟨hclosed, hattempts.trans (Int.zero_add _)⟩

/-- Two completed attempts count as one, and a job that was classified is in process again. -/
theorem overlapping_updates_lost :
    (∃ c, Reach (Updates sampleJob.jobId) Does oneJob c ∧ c.history.countP counts = 2 ∧
      stateOf c = some (.processing, 1) ∧ ¬ NothingLost sampleJob.jobId sampleJob c) ∧
    ∃ c, Reach (Updates sampleJob.jobId) Does oneJob c ∧ Closed sampleJob c.history ∧
      stateOf c = some (.processing, 1) ∧ ¬ NothingLost sampleJob.jobId sampleJob c := by
  constructor
  · have hplay : ((play choose (fun _ _ _ => True) (bothReadFirst .processing .processing)
        (.initial oneJob)).any fun c =>
          c.history.countP counts = 2 ∧ stateOf c = some (.processing, 1)) = true := by
      decide +kernel
    obtain ⟨c, hrun, hc⟩ := exists_of_play choose_within (legal_bothReadFirst _ _) hplay
    obtain ⟨hcount, hstate⟩ := of_decide_eq_true hc
    refine ⟨c, hrun, hcount, hstate, fun h => ?_⟩
    have hattempts := (h.read_state hstate).2
    omega
  · have hplay : ((play choose (fun _ _ _ => True) (bothReadFirst .classified .processing)
        (.initial oneJob)).any fun c =>
          c.history.any closes = true ∧ stateOf c = some (.processing, 1)) = true := by
      decide +kernel
    obtain ⟨c, hrun, hc⟩ := exists_of_play choose_within (legal_bothReadFirst _ _) hplay
    obtain ⟨hcloses, hstate⟩ := of_decide_eq_true hc
    have hclosed : Closed sampleJob c.history := .inr (List.any_eq_true.mp hcloses)
    refine ⟨c, hrun, hclosed, hstate, fun h => ?_⟩
    exact absurd ((h.read_state hstate).1 hclosed) (by decide)

end StatusUpdates

end NsfwDetector
