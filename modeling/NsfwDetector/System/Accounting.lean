import NsfwDetector.System.Callers
import NsfwDetector.System.OneWorker

/-!
# Accounting for jobs

Every open job has one message, every dead job has one entry in the dead letter queue, and the
attempts of a job run out. So the queue drains.
-/

namespace NsfwDetector.Accounting

open Effects InMemory InMemoryVideoQueueRepository

/-! ## The books -/

def Open (s : Memory) (jobId : String) : Prop :=
  ∃ job ∈ s.queue.job? jobId, ¬ job.status.Terminal

instance (s : Memory) (jobId : String) : Decidable (Open s jobId) :=
  inferInstanceAs (Decidable (∃ job ∈ s.queue.job? jobId, _))

def unackedOf (s : Memory) (jobId : String) : List QueuedVideoJobMessage :=
  s.queue.unacked.filter (·.jobId = jobId)

/-- Attempts that any job may use up. -/
def allowance (settings : Settings) : Int := max 1 settings.queueMaxAttempts

structure Accounted (settings : Settings) (s : Memory) : Prop where
  messages : ∀ jobId, (unackedOf s jobId).length = if Open s jobId then 1 else 0
  dlq : ∀ jobId, s.queue.dlq.countP (·.jobId = jobId) =
    if (s.queue.job? jobId).map (·.status) = some .failedTerminal then 1 else 0
  retryable : ∀ jobId job, s.queue.job? jobId = some job → job.status = .failedRetryable →
    1 ≤ job.attempts ∧ job.attempts < settings.queueMaxAttempts
  runs : ∀ jobId, (s.ran.count jobId : Int) ≤ allowance settings

def Drained (s : Memory) : Prop :=
  s.queue.unacked = [] ∧
    ∀ job ∈ s.queue.jobs, job.status = .classified ∨ job.status = .failedTerminal

/-- Where a job stands after `runs` runs through the pipeline. -/
def Standing (settings : Settings) (runs : Nat) (job : VideoJob) : Prop :=
  (job.status = .queued ∧ job.attempts = 0 ∧ runs = 0) ∨
    (job.status = .failedRetryable ∧ 1 ≤ job.attempts ∧ runs ≤ job.attempts ∧
      job.attempts < settings.queueMaxAttempts) ∨
    ((job.status = .classified ∨ job.status = .failedTerminal) ∧ runs ≤ allowance settings)

/-- What stays true from message to message. -/
structure Kept (settings : Settings) (s : Memory) : Prop where
  messages : ∀ jobId, (unackedOf s jobId).length = if Open s jobId then 1 else 0
  dlq : ∀ jobId, s.queue.dlq.countP (·.jobId = jobId) =
    if (s.queue.job? jobId).map (·.status) = some .failedTerminal then 1 else 0
  standing : ∀ jobId job, s.queue.job? jobId = some job →
    Standing settings (s.ran.count jobId) job
  unknown : ∀ jobId, s.queue.job? jobId = none → s.ran.count jobId = 0
  named : ∀ job ∈ s.queue.jobs, job.jobId ≠ "" ∧ job.createdAt ≠ none
  distinct : (s.queue.jobs.map (·.jobId)).Nodup
  ids : s.queue.messages.map (·.messageId) = List.range' 1 s.queue.messages.length
  acked : ∀ id ∈ s.queue.ackedMessageIds, id ≤ s.queue.messages.length

variable {settings : Settings} {s s' : Memory} {old new : VideoJob}
  {message : QueuedVideoJobMessage}

theorem Kept.accounted (h : Kept settings s) : Accounted settings s where
  messages := h.messages
  dlq := h.dlq
  retryable jobId job hjob hstatus := by
    rcases h.standing jobId job hjob with ⟨hs, -⟩ | ⟨-, hpos, -, hlt⟩ | ⟨hs | hs, -⟩
    · rw [hstatus] at hs; cases hs
    · exact ⟨hpos, hlt⟩
    · rw [hstatus] at hs; cases hs
    · rw [hstatus] at hs; cases hs
  runs jobId := by
    unfold allowance
    cases hjob : s.queue.job? jobId with
    | none =>
      rw [h.unknown jobId hjob]
      omega
    | some job =>
      rcases h.standing jobId job hjob with ⟨-, -, hruns⟩ | ⟨-, -, hruns, hlt⟩ | ⟨-, hruns⟩
      · omega
      · omega
      · exact hruns

theorem kept_empty : Kept settings {} where
  messages jobId := by
    have hclosed : ¬ Open {} jobId := by
      rintro ⟨job, hjob, -⟩
      cases hjob
    rw [if_neg hclosed]
    rfl
  dlq _ := rfl
  standing _ _ h := by cases h
  unknown _ _ := rfl
  named _ h := absurd h List.not_mem_nil
  distinct := List.nodup_nil
  ids := rfl
  acked _ h := absurd h List.not_mem_nil

/-! ## Messages -/

theorem Kept.message_ext (h : Kept settings s) {m m' : QueuedVideoJobMessage}
    (hm : m ∈ s.queue.unacked) (hm' : m' ∈ s.queue.unacked) (hid : m.messageId = m'.messageId) :
    m = m' := by
  have hnodup : (s.queue.messages.map (·.messageId)).Nodup := by
    rw [h.ids]
    exact List.nodup_range'
  exact List.inj_on_of_nodup_map hnodup (List.mem_filter.mp hm).1 (List.mem_filter.mp hm').1 hid

theorem Kept.messageId_le (h : Kept settings s) {m : QueuedVideoJobMessage}
    (hm : m ∈ s.queue.unacked) : m.messageId ≤ s.queue.messages.length := by
  have hmem : m.messageId ∈ s.queue.messages.map (·.messageId) :=
    List.mem_map_of_mem (List.mem_filter.mp hm).1
  rw [h.ids, List.mem_range'_1] at hmem
  omega

/-- A message that nobody acknowledged is the only one of its job, and the job is open. -/
theorem Kept.only_message (h : Kept settings s) (hm : message ∈ s.queue.unacked) :
    unackedOf s message.jobId = [message] ∧ Open s message.jobId := by
  have hmem : message ∈ unackedOf s message.jobId :=
    List.mem_filter.mpr ⟨hm, decide_eq_true rfl⟩
  have hlength := h.messages message.jobId
  split at hlength
  · next hopen =>
    obtain ⟨m, hsingle⟩ := List.length_eq_one_iff.mp hlength
    rw [hsingle, List.mem_singleton] at hmem
    exact ⟨hmem ▸ hsingle, hopen⟩
  · rw [List.eq_nil_of_length_eq_zero hlength] at hmem
    cases hmem

/-! ## What one message leaves -/

section

variable {queue queue' : InMemoryVideoQueueRepository}

theorem Left.job? (h : Left settings queue message new queue') (jobId : String) :
    queue'.job? jobId = (queue.put new).job? jobId := by
  cases h <;> rfl

theorem Left.jobs (h : Left settings queue message new queue') :
    queue'.jobs = (queue.put new).jobs := by
  cases h <;> rfl

def retried (queue : InMemoryVideoQueueRepository) (new : VideoJob) : List QueuedVideoJobMessage :=
  if new.status = .failedRetryable then [⟨queue.messages.length + 1, new.jobId, new.stored⟩] else []

theorem Left.messages (h : Left settings queue message new queue') :
    queue'.messages = queue.messages ++ retried queue new := by
  unfold retried
  cases h with
  | done hstatus | dead hstatus =>
    simp [hstatus, InMemoryVideoQueueRepository.ack, put]
  | again hstatus =>
    simp [hstatus, InMemoryVideoQueueRepository.ack, put, append]

theorem Left.acked (h : Left settings queue message new queue') :
    queue'.ackedMessageIds = message.messageId :: queue.ackedMessageIds := by
  cases h <;> rfl

theorem Left.dlq (h : Left settings queue message new queue') :
    (new.status = .failedTerminal ∧ ∃ entry, entry.jobId = message.jobId ∧
      queue'.dlq = queue.dlq ++ [entry]) ∨ (new.status ≠ .failedTerminal ∧ queue'.dlq = queue.dlq) := by
  cases h with
  | done hstatus => exact .inr ⟨by rw [hstatus]; decide, rfl⟩
  | again hstatus => exact .inr ⟨by rw [hstatus]; decide, rfl⟩
  | dead hstatus code text => exact .inl ⟨hstatus, _, rfl, rfl⟩

theorem Left.unacked (h : Left settings queue message new queue')
    (hfresh : ∀ id ∈ queue.ackedMessageIds, id ≤ queue.messages.length)
    (hid : message.messageId ≤ queue.messages.length) :
    queue'.unacked = queue.unacked.filter (·.messageId ≠ message.messageId) ++ retried queue new := by
  unfold InMemoryVideoQueueRepository.unacked
  rw [h.messages, h.acked, List.filter_append, List.filter_filter]
  congr 1
  · apply List.filter_congr
    intro m _
    simp
  · unfold retried
    split
    · have hnew : queue.messages.length + 1 ∉ message.messageId :: queue.ackedMessageIds := by
        intro hmem
        rcases List.mem_cons.mp hmem with heq | hmem
        · omega
        · have := hfresh _ hmem
          omega
      simp only [List.filter_cons, hnew, not_false_eq_true, decide_true, if_true, List.filter_nil]
    · rfl

end

/-! ## One message keeps the books -/

theorem Handled.job? (hhandled : Handled settings s message old new s')
    (hjob : s.queue.job? message.jobId = some old) (jobId : String) : s'.queue.job? jobId =
      if jobId = message.jobId then some new else s.queue.job? jobId := by
  have hid : new.jobId = message.jobId := hhandled.jobId.trans (job?_mem hjob).2
  rw [hhandled.left.job?, job?_put, hid]
  split
  · next heq => rw [heq, hjob, Option.map_some]
  · rfl

theorem Handled.unackedOf (hhandled : Handled settings s message old new s') (h : Kept settings s)
    (hm : message ∈ s.queue.unacked) (hjob : s.queue.job? message.jobId = some old) (jobId : String) : unackedOf s' jobId =
    if jobId = message.jobId then retried s.queue new else unackedOf s jobId := by
  have hid : new.jobId = message.jobId := hhandled.jobId.trans (job?_mem hjob).2
  have hretried : (retried s.queue new).filter (·.jobId = jobId) =
      if jobId = message.jobId then retried s.queue new else [] := by
    unfold retried
    split
    · split
      · next heq => simp [hid, heq]
      · next hne => simp [hid, Ne.symm hne]
    · simp
  unfold Accounting.unackedOf
  rw [hhandled.left.unacked h.acked (h.messageId_le hm), List.filter_append, hretried,
    List.filter_filter]
  split
  · next heq =>
    -- The job had this one message, and that is acknowledged.
    have hnone : s.queue.unacked.filter (fun m => decide (m.jobId = jobId) &&
        decide (m.messageId ≠ message.messageId)) = [] := by
      rw [List.filter_eq_nil_iff]
      intro m hmem hboth
      simp only [Bool.and_eq_true, decide_eq_true_eq] at hboth
      have hin : m ∈ Accounting.unackedOf s message.jobId :=
        List.mem_filter.mpr ⟨hmem, decide_eq_true (hboth.1.trans heq)⟩
      rw [(h.only_message hm).1, List.mem_singleton] at hin
      exact hboth.2 (congrArg _ hin)
    rw [hnone, List.nil_append]
  · next hne =>
    rw [List.append_nil]
    apply List.filter_congr
    intro m hmem
    by_cases hmid : m.messageId = message.messageId
    · have := h.message_ext hmem hm hmid
      simp [this, Ne.symm hne]
    · simp [hmid]

theorem Left.status {queue queue' : InMemoryVideoQueueRepository}
    (h : Left settings queue message new queue') : new.status = .classified ∨
      (new.status = .failedRetryable ∧ new.attempts < settings.queueMaxAttempts) ∨
      new.status = .failedTerminal := by
  cases h with
  | done hstatus => exact .inl hstatus
  | again hstatus hlt => exact .inr (.inl ⟨hstatus, hlt⟩)
  | dead hstatus => exact .inr (.inr hstatus)

theorem Handled.standing (hhandled : Handled settings s message old new s')
    (hopen : ¬ old.status.Terminal)
    (hstanding : Standing settings (s.ran.count old.jobId) old) :
    Standing settings (s'.ran.count old.jobId) new ∧
      (s'.ran.count old.jobId : Int) ≤ old.attempts + 1 := by
  have hbefore : (s.ran.count old.jobId : Int) ≤ old.attempts ∧ 0 ≤ old.attempts ∧
      old.attempts + 1 ≤ allowance settings := by
    unfold allowance
    rcases hstanding with ⟨-, hattempts, hruns⟩ | ⟨-, hpos, hruns, hlt⟩ | ⟨hstatus, -⟩
    · omega
    · omega
    · exfalso
      rcases hstatus with hs | hs <;> rw [hs] at hopen <;> exact hopen (by decide)
  obtain ⟨hruns, hpos, hallowed⟩ := hbefore
  have hcount : (s'.ran.count old.jobId : Int) ≤ old.attempts + 1 ∧
      (new.status ≠ .classified → new.attempts = old.attempts + 1) := by
    rcases hhandled.attempts with ⟨hran, hattempts⟩ | ⟨hran, hclassified⟩
    · rw [hran, List.count_append, List.count_singleton_self]
      exact ⟨by omega, fun _ => hattempts⟩
    · rw [hran]
      exact ⟨by omega, fun hnot => absurd hclassified hnot⟩
  refine ⟨?_, hcount.1⟩
  rcases hhandled.left.status with hstatus | ⟨hstatus, hlt⟩ | hstatus
  · exact .inr (.inr ⟨.inl hstatus, by omega⟩)
  · have hattempts := hcount.2 (by rw [hstatus]; decide)
    exact .inr (.inl ⟨hstatus, by omega, by omega, hlt⟩)
  · exact .inr (.inr ⟨.inr hstatus, by omega⟩)

theorem Handled.open_iff (hhandled : Handled settings s message old new s')
    (hjob : s.queue.job? message.jobId = some old) (jobId : String) :
    Open s' jobId ↔ if jobId = message.jobId then new.status = .failedRetryable else Open s jobId := by
  unfold Open
  rw [hhandled.job? hjob]
  split
  · have hstatus := hhandled.left.status
    constructor
    · rintro ⟨job, hsome, hopen⟩
      obtain rfl := Option.mem_some_iff.mp hsome
      rcases hstatus with hs | ⟨hs, -⟩ | hs
      · exact absurd (by rw [hs]; decide) hopen
      · exact hs
      · exact absurd (by rw [hs]; decide) hopen
    · intro hs
      exact ⟨new, rfl, by rw [hs]; decide⟩
  · exact Iff.rfl

theorem Kept.dlq_handled (h : Kept settings s) (hjob : s.queue.job? message.jobId = some old)
    (hopen : ¬ old.status.Terminal) (hhandled : Handled settings s message old new s')
    (jobId : String) : s'.queue.dlq.countP (·.jobId = jobId) =
      if (s'.queue.job? jobId).map (·.status) = some .failedTerminal then 1 else 0 := by
  have hdlq := h.dlq jobId
  rw [hhandled.job? hjob]
  by_cases hsame : jobId = message.jobId
  · have hbefore : (s.queue.job? jobId).map (·.status) ≠ some .failedTerminal := by
      rw [hsame, hjob, Option.map_some]
      intro hdead
      rw [Option.some.inj hdead] at hopen
      exact hopen (by decide)
    rw [if_neg hbefore] at hdlq
    rcases hhandled.left.dlq with ⟨hstatus, entry, hentry, heq⟩ | ⟨hstatus, heq⟩
    · rw [heq, List.countP_append, hdlq]
      simp [hsame, hentry, hstatus]
    · rw [heq, hdlq]
      simp [hsame, hstatus]
  · rw [if_neg hsame, ← hdlq]
    rcases hhandled.left.dlq with ⟨-, entry, hentry, heq⟩ | ⟨-, heq⟩
    · rw [heq, List.countP_append]
      simp [hentry, Ne.symm hsame]
    · rw [heq]

theorem Handled.count_of_ne (hhandled : Handled settings s message old new s')
    (hid : old.jobId = message.jobId) {jobId : String} (hne : jobId ≠ message.jobId) :
    s'.ran.count jobId = s.ran.count jobId := by
  rcases hhandled.attempts with ⟨hran, -⟩ | ⟨hran, -⟩
  · rw [hran, List.count_append, List.count_singleton, hid]
    simp [Ne.symm hne]
  · rw [hran]

theorem Kept.handled (h : Kept settings s) (hm : message ∈ s.queue.unacked)
    (hjob : s.queue.job? message.jobId = some old) (hopen : ¬ old.status.Terminal)
    (hhandled : Handled settings s message old new s') : Kept settings s' := by
  have hid : old.jobId = message.jobId := (job?_mem hjob).2
  have hjobs := hhandled.job? hjob
  have hstanding := hhandled.standing hopen (hid ▸ h.standing _ _ hjob)
  refine ⟨fun jobId => ?_, fun jobId => ?_, fun jobId job hsome => ?_, fun jobId hnone => ?_,
    fun job hmem => ?_, ?_, ?_, fun id hacked => ?_⟩
  · rw [hhandled.unackedOf h hm hjob, if_congr (hhandled.open_iff hjob jobId) rfl rfl]
    split
    · unfold retried
      split <;> rfl
    · exact h.messages jobId
  · exact h.dlq_handled hjob hopen hhandled jobId
  · rw [hjobs] at hsome
    split at hsome
    · next heq =>
      obtain rfl := Option.some.inj hsome
      rw [heq, ← hid]
      exact hstanding.1
    · next hne =>
      rw [hhandled.count_of_ne hid hne]
      exact h.standing jobId job hsome
  · rw [hjobs] at hnone
    split at hnone
    · cases hnone
    · next hne =>
      rw [hhandled.count_of_ne hid hne]
      exact h.unknown jobId hnone
  · rw [hhandled.left.jobs] at hmem
    rcases mem_put hmem with rfl | ⟨hin, -⟩
    · rw [hhandled.jobId, hhandled.createdAt]
      exact h.named old (job?_mem hjob).1
    · exact h.named job hin
  · rw [hhandled.left.jobs, ids_put]
    exact h.distinct
  · rw [hhandled.left.messages, List.map_append, h.ids]
    unfold retried
    split
    · rw [List.length_append, List.length_singleton, List.range'_1_concat, Nat.add_comm 1]
      rfl
    · simp
  · rw [hhandled.left.acked] at hacked
    rw [hhandled.left.messages, List.length_append]
    rcases List.mem_cons.mp hacked with rfl | hacked
    · have := h.messageId_le hm
      omega
    · have := h.acked id hacked
      omega

/-! ## The attempts run out -/

def remaining (settings : Settings) (job : VideoJob) : Nat :=
  if job.status.Terminal then 0 else (allowance settings - job.attempts).toNat

/-- The attempts that all jobs together have left. -/
def budget (settings : Settings) (s : Memory) : Nat :=
  (s.queue.jobs.map (remaining settings)).sum

theorem remaining_pos {runs : Nat} (hstanding : Standing settings runs old)
    (hopen : ¬ old.status.Terminal) : 0 < remaining settings old := by
  unfold remaining allowance
  rw [if_neg hopen]
  rcases hstanding with ⟨-, hattempts, -⟩ | ⟨-, -, -, hlt⟩ | ⟨hs | hs, -⟩
  · omega
  · omega
  · rw [hs] at hopen
    exact absurd (by decide) hopen
  · rw [hs] at hopen
    exact absurd (by decide) hopen

theorem Handled.remaining_lt (hhandled : Handled settings s message old new s')
    (hopen : ¬ old.status.Terminal) {runs : Nat} (hstanding : Standing settings runs old) :
    remaining settings new < remaining settings old := by
  have hpos := remaining_pos hstanding hopen
  rcases hhandled.left.status with hs | ⟨hs, hlt⟩ | hs
  · rwa [remaining, if_pos (by rw [hs]; decide)]
  · have hattempts : new.attempts = old.attempts + 1 := by
      rcases hhandled.attempts with ⟨-, hattempts⟩ | ⟨-, hclassified⟩
      · exact hattempts
      · rw [hs] at hclassified
        cases hclassified
    unfold remaining allowance
    rw [if_neg hopen, if_neg (by rw [hs]; decide)]
    omega
  · rwa [remaining, if_pos (by rw [hs]; decide)]

theorem Kept.budget_lt (h : Kept settings s) (hjob : s.queue.job? message.jobId = some old)
    (hopen : ¬ old.status.Terminal) (hhandled : Handled settings s message old new s') :
    budget settings s' < budget settings s := by
  obtain ⟨hmem, hid⟩ := job?_mem hjob
  have hlt := hhandled.remaining_lt hopen (h.standing _ _ hjob)
  unfold budget
  rw [hhandled.left.jobs]
  unfold put
  rw [List.map_map]
  apply List.sum_lt_sum
  · intro row hrow
    simp only [Function.comp]
    split
    · next heq =>
      have hsame : row = old := List.inj_on_of_nodup_map h.distinct hrow hmem
        (heq.trans hhandled.jobId)
      rw [hsame]
      exact hlt.le
    · exact le_rfl
  · refine ⟨old, hmem, ?_⟩
    simp only [Function.comp, if_pos hhandled.jobId.symm]
    exact hlt

theorem Kept.job?_of_mem (h : Kept settings s) (hmem : old ∈ s.queue.jobs) :
    s.queue.job? old.jobId = some old := by
  cases hfind : s.queue.job? old.jobId with
  | none => exact absurd (List.find?_eq_none.mp hfind old hmem) (by simp)
  | some row =>
    obtain ⟨hrow, hid⟩ := job?_mem hfind
    rw [List.inj_on_of_nodup_map h.distinct hrow hmem hid]

theorem Kept.drained (h : Kept settings s) (hzero : budget settings s = 0) : Drained s := by
  have hclosed : ∀ jobId, ¬ Open s jobId := by
    rintro jobId ⟨job, hjob, hopen⟩
    have hpos := remaining_pos (h.standing jobId job hjob) hopen
    have hle : remaining settings job ≤ budget settings s :=
      List.single_le_sum (fun _ _ => Nat.zero_le _) _ (List.mem_map_of_mem (job?_mem hjob).1)
    omega
  refine ⟨List.eq_nil_iff_forall_not_mem.mpr fun m hm => hclosed _ (h.only_message hm).2, ?_⟩
  intro job hmem
  have hjob := h.job?_of_mem hmem
  have hterminal : job.status.Terminal := by
    by_contra hopen
    exact hclosed _ ⟨job, hjob, hopen⟩
  rcases h.standing _ _ hjob with ⟨hs, -⟩ | ⟨hs, -⟩ | ⟨hs, -⟩
  · rw [hs] at hterminal
    exact absurd hterminal (by decide)
  · rw [hs] at hterminal
    exact absurd hterminal (by decide)
  · exact hs

/-! ## Rounds -/

section

variable (surroundings : Surroundings)

theorem Kept.handle (h : Kept settings s) (hm : message ∈ s.queue.unacked) :
    ∃ s', Returns ((InMemory.worker surroundings settings).handleMessage message) s () s' ∧
      Kept settings s' ∧ budget settings s' < budget settings s ∧
      ∀ m ∈ s.queue.unacked, m.messageId ≠ message.messageId → m ∈ s'.queue.unacked := by
  obtain ⟨-, old, hjob, hopen⟩ := h.only_message hm
  obtain ⟨hmem, hid⟩ := job?_mem hjob
  obtain ⟨hname, hcreated⟩ := h.named old hmem
  obtain ⟨new, s', hreturns, hhandled⟩ :=
    handleMessage_spec surroundings settings (hid ▸ hname) hjob hopen hcreated
  refine ⟨s', hreturns, h.handled hm hjob hopen hhandled, h.budget_lt hjob hopen hhandled, ?_⟩
  intro m hin hne
  rw [hhandled.left.unacked h.acked (h.messageId_le hm)]
  exact List.mem_append_left _ (List.mem_filter.mpr ⟨hin, by simpa using hne⟩)

/-- A batch keeps the books, and each of its messages costs an attempt. -/
theorem Kept.handleAll (h : Kept settings s) (batch : List QueuedVideoJobMessage)
    (hin : ∀ m ∈ batch, m ∈ s.queue.unacked) (hnodup : (batch.map (·.messageId)).Nodup) :
    ∃ s', Returns (batch.forM (InMemory.worker surroundings settings).handleMessage) s ⟨⟩ s' ∧
      Kept settings s' ∧ budget settings s' + batch.length ≤ budget settings s := by
  induction batch generalizing s with
  | nil => exact ⟨s, .pure _ s, h, le_rfl⟩
  | cons message rest ih =>
    obtain ⟨s₁, hreturns₁, h₁, hlt, hothers⟩ := h.handle surroundings (hin message List.mem_cons_self)
    rw [List.map_cons, List.nodup_cons] at hnodup
    obtain ⟨s₂, hreturns₂, h₂, hle⟩ := ih h₁ (fun m hm => hothers m (hin m (List.mem_cons_of_mem _ hm))
      fun heq => hnodup.1 (heq ▸ List.mem_map_of_mem hm)) hnodup.2
    refine ⟨s₂, hreturns₁.bind hreturns₂, h₂, ?_⟩
    rw [List.length_cons]
    omega

theorem slice_sublist {α : Type} (l : List α) (count : Int) : (slice l count).Sublist l := by
  unfold slice
  split <;> exact List.take_sublist _ _

theorem Kept.runOnce (h : Kept settings s) :
    ∃ s', Returns (InMemory.worker surroundings settings).runOnce s
        (slice s.queue.unacked settings.queueReadCount).length s' ∧ Kept settings s' ∧
      budget settings s' + (slice s.queue.unacked settings.queueReadCount).length ≤
        budget settings s := by
  have hsub := slice_sublist s.queue.unacked settings.queueReadCount
  have hids : (s.queue.unacked.map (·.messageId)).Nodup := by
    have hnodup : (s.queue.messages.map (·.messageId)).Nodup := by
      rw [h.ids]
      exact List.nodup_range'
    exact (List.filter_sublist.map _).nodup hnodup
  obtain ⟨s', hreturns, h', hle⟩ := h.handleAll surroundings _ (fun m hm => hsub.subset hm)
    ((hsub.map _).nodup hids)
  refine ⟨s', ?_, h', hle⟩
  have hread : Returns ((service surroundings settings).readVideoJobMessages settings.queueReadCount) s
      (slice s.queue.unacked settings.queueReadCount) s := .bind (queue_spec s) (.pure _ s)
  exact hread.bind (hreturns.bind (.pure _ s'))

theorem Kept.round (h : Kept settings s) (hcount : 1 ≤ settings.queueReadCount) :
    Kept settings (after (InMemory.worker surroundings settings).runOnce s) ∧
      budget settings (after (InMemory.worker surroundings settings).runOnce s) ≤
        budget settings s - 1 := by
  obtain ⟨s', hreturns, h', hle⟩ := h.runOnce surroundings
  rw [hreturns.after]
  refine ⟨h', ?_⟩
  rcases Nat.eq_zero_or_pos (budget settings s) with hzero | hpos
  · omega
  · have hwork : (slice s.queue.unacked settings.queueReadCount).length ≠ 0 := by
      intro hnone
      unfold slice at hnone
      rw [if_pos (by omega), List.length_take] at hnone
      have hempty : s.queue.unacked = [] := List.eq_nil_of_length_eq_zero (by omega)
      have hclosed : ∀ job ∈ s.queue.jobs, remaining settings job = 0 := by
        intro job hmem
        by_contra hne
        have hopen : ¬ job.status.Terminal := fun hterminal => hne (if_pos hterminal)
        have hlength := h.messages job.jobId
        rw [if_pos ⟨job, h.job?_of_mem hmem, hopen⟩] at hlength
        unfold unackedOf at hlength
        rw [hempty] at hlength
        cases hlength
      have : budget settings s = 0 := by
        unfold budget
        rw [List.map_congr_left hclosed]
        simp
      omega
    omega

theorem Kept.rounds (h : Kept settings s) (hcount : 1 ≤ settings.queueReadCount) (m : Nat) :
    Kept settings ((after (InMemory.worker surroundings settings).runOnce)^[m] s) ∧
      budget settings ((after (InMemory.worker surroundings settings).runOnce)^[m] s) ≤
        budget settings s - m := by
  induction m with
  | zero => exact ⟨h, le_rfl⟩
  | succ m ih =>
    rw [Function.iterate_succ_apply']
    obtain ⟨hkept, hle⟩ := ih.1.round surroundings hcount
    exact ⟨hkept, by omega⟩

/-! ## New jobs -/

variable {request : VideoDetectRequest}

def withNew (s : Memory) (job : VideoJob) : Memory :=
  { s with queue := (s.queue.addNew job).append job, ticks := s.ticks + 1 }

theorem enqueue_spec (request : VideoDetectRequest) (s : Memory) :
    after (enqueueVideoJob surroundings request) s = s ∨
      s.queue.job? request.jobId = none ∧
        ∃ now, after (enqueueVideoJob surroundings request) s = withNew s (request.job now) := by
  have hstore : Returns (storeNewJob surroundings request) s
      ⟨request.job (surroundings.clock s.ticks), true⟩
      (withNew s (request.job (surroundings.clock s.ticks))) :=
    (now_spec surroundings s).bind ((Returns.modify _ _).bind (.pure _ _))
  have hqueue := queue_spec s
  unfold enqueueVideoJob
  rw [hqueue.after_bind]
  cases hexisting : s.queue.job? request.jobId with
  | some existing => exact .inl rfl
  | none =>
    simp only [true_and]
    rw [hqueue.after_bind]
    cases hindex : s.queue.uniqueIndex
      (request.videoId, request.sourceObjectVersion, request.policyVersion) with
    | none => exact .inr ⟨_, hstore.after⟩
    | some existingJobId =>
      cases hfound : s.queue.job? existingJobId with
      | none =>
        have hraises : Raises (jobAt existingJobId) s (keyError existingJobId) s := by
          refine hqueue.raises ?_
          rw [hfound]
          exact .throw _ s
        exact .inl hraises.bind.after
      | some existing =>
        simp only
        rw [(jobAt_spec hfound).after_bind]
        split
        · exact .inl rfl
        · exact .inr ⟨_, hstore.after⟩

section

variable {job : VideoJob} (hnone : s.queue.job? job.jobId = none)

include hnone

theorem job?_withNew (jobId : String) : (withNew s job).queue.job? jobId =
    if jobId = job.jobId then some job else s.queue.job? jobId := job?_addNew hnone jobId

theorem open_withNew (hqueued : job.status = .queued) (jobId : String) :
    Open (withNew s job) jobId ↔ jobId = job.jobId ∨ Open s jobId := by
  unfold Open
  rw [job?_withNew hnone]
  by_cases hsame : jobId = job.jobId
  · simp only [hsame, if_true, Option.mem_some_iff, exists_eq_left', hqueued, true_or, iff_true]
    decide
  · simp [hsame]

theorem Kept.messages_withNew (h : Kept settings s) (hqueued : job.status = .queued) (jobId : String) :
    (unackedOf (withNew s job) jobId).length = if Open (withNew s job) jobId then 1 else 0 := by
  have hfresh : (s.queue.addNew job).messages.length + 1 ∉ (s.queue.addNew job).ackedMessageIds := by
    intro hmem
    have := h.acked _ hmem
    change s.queue.messages.length + 1 ≤ _ at this
    omega
  have hunacked : (Accounting.withNew s job).queue.unacked =
      s.queue.unacked ++ [⟨s.queue.messages.length + 1, job.jobId, job.stored⟩] :=
    unacked_append hfresh job
  have hbefore := h.messages jobId
  unfold unackedOf at hbefore ⊢
  rw [hunacked, List.filter_append, List.length_append, hbefore,
    if_congr (open_withNew hnone hqueued jobId) rfl rfl]
  by_cases hsame : jobId = job.jobId
  · have hclosed : ¬ Open s jobId := by
      rintro ⟨row, hrow, -⟩
      rw [hsame, hnone] at hrow
      cases hrow
    simp [hsame, hsame ▸ hclosed]
  · simp [hsame, Ne.symm hsame]

theorem distinct_withNew (h : (s.queue.jobs.map (·.jobId)).Nodup) :
    ((withNew s job).queue.jobs.map (·.jobId)).Nodup := by
  change ((s.queue.jobs ++ [job]).map (·.jobId)).Nodup
  rw [List.map_append, List.nodup_append]
  refine ⟨h, List.nodup_singleton _, ?_⟩
  intro id hid other hother heq
  obtain ⟨row, hrow, rfl⟩ := List.mem_map.mp hid
  rw [List.map_singleton, List.mem_singleton] at hother
  have := List.find?_eq_none.mp hnone row hrow
  simp [heq, hother] at this

theorem Kept.withNew (h : Kept settings s) (hqueued : job.status = .queued) (hattempts : job.attempts = 0)
    (hname : job.jobId ≠ "") (hcreated : job.createdAt ≠ none) : Kept settings (withNew s job) := by
  refine ⟨h.messages_withNew hnone hqueued, fun jobId => ?_, fun jobId row hrow => ?_,
    fun jobId hunknown => ?_, fun row hrow => ?_, distinct_withNew hnone h.distinct, ?_,
    fun id hacked => ?_⟩
  · have hbefore := h.dlq jobId
    rw [job?_withNew hnone]
    by_cases hsame : jobId = job.jobId
    · rw [hsame] at hbefore ⊢
      rw [hnone] at hbefore
      rw [if_pos rfl, Option.map_some, hqueued]
      exact hbefore
    · rw [if_neg hsame]
      exact hbefore
  · rw [job?_withNew hnone] at hrow
    split at hrow
    · next heq =>
      obtain rfl := Option.some.inj hrow
      exact .inl ⟨hqueued, hattempts, h.unknown jobId (heq ▸ hnone)⟩
    · exact h.standing jobId row hrow
  · rw [job?_withNew hnone] at hunknown
    split at hunknown
    · cases hunknown
    · exact h.unknown jobId hunknown
  · rcases List.mem_append.mp hrow with hin | hnew
    · exact h.named row hin
    · rw [List.mem_singleton.mp hnew]
      exact ⟨hname, hcreated⟩
  · change (s.queue.messages ++ [_]).map QueuedVideoJobMessage.messageId =
      List.range' 1 (s.queue.messages ++ [_]).length
    rw [List.map_append, h.ids, List.length_append, List.length_singleton, List.range'_1_concat,
      Nat.add_comm 1]
    rfl
  · have := h.acked id hacked
    change id ≤ (s.queue.messages ++ [_]).length
    rw [List.length_append]
    omega

end

/-! ## Runs -/

inductive Run (surroundings : Surroundings) (settings : Settings) : Memory → Prop
  | init : Run surroundings settings {}
  | enqueue {s : Memory} (request : VideoDetectRequest) (h : Run surroundings settings s) :
      Run surroundings settings (after (enqueueVideoJob surroundings request) s)
  | runOnce {s : Memory} (h : Run surroundings settings s) :
      Run surroundings settings (after (InMemory.worker surroundings settings).runOnce s)

theorem Run.kept (h : Run surroundings settings s) : Kept settings s := by
  induction h with
  | init => exact kept_empty
  | @enqueue s request _ ih =>
    rcases enqueue_spec surroundings request s with hsame | ⟨hnone, now, hnew⟩
    · rw [hsame]
      exact ih
    · rw [hnew]
      exact ih.withNew hnone rfl rfl request.jobId_ne nofun
  | runOnce _ ih =>
    obtain ⟨s', hreturns, h', -⟩ := ih.runOnce surroundings
    rw [hreturns.after]
    exact h'

end

/-- The books are right in every run, and from there on rounds alone drain the queue. -/
theorem exact_accounting {surroundings : Surroundings} {settings : Settings} {s : Memory}
    (h : Run surroundings settings s) : Accounted settings s ∧
      (1 ≤ settings.queueReadCount → ∃ n, ∀ m, n ≤ m →
        Drained ((after (InMemory.worker surroundings settings).runOnce)^[m] s)) := by
  refine ⟨h.kept.accounted, fun hcount => ⟨budget settings s, fun m hm => ?_⟩⟩
  obtain ⟨hkept, hle⟩ := h.kept.rounds surroundings hcount m
  exact hkept.drained (by omega)

/-- A clock that ticks, and a pipeline that breaks at first. -/
def breaksOnce : Surroundings where
  clock := id
  pipeline n := ⟨id, if n = 0 then some (.requestError "ConnectError" "no route") else none⟩

/-- The job waits for its second attempt, and the books are right. -/
theorem exact_accounting_sample :
    (after (InMemory.worker breaksOnce {}).runOnce
        (after (enqueueVideoJob breaksOnce sampleRequest) {})).queue.jobs.map
          (fun job => (job.jobId, job.status, job.attempts)) = [("job", .failedRetryable, 1)] ∧
    Accounted {} (after (InMemory.worker breaksOnce {}).runOnce
        (after (enqueueVideoJob breaksOnce sampleRequest) {})) ∧
      ∃ n, ∀ m, n ≤ m →
        Drained ((after (InMemory.worker breaksOnce {}).runOnce)^[m]
          (after (InMemory.worker breaksOnce {}).runOnce
            (after (enqueueVideoJob breaksOnce sampleRequest) {}))) := by
  obtain ⟨haccounted, hdrains⟩ := exact_accounting
    (.runOnce (.enqueue sampleRequest .init) : Run breaksOnce {} _)
  exact ⟨by decide +kernel, haccounted, hdrains (by decide)⟩

end NsfwDetector.Accounting
