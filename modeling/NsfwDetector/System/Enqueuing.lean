import NsfwDetector.Effects.Outline
import NsfwDetector.System.Past

/-!
# Many requests for the same work at once

An enqueue looks whether the job is there, and then stores it: several calls with gaps between
them. Who stores first decides for all others, as long as nobody looks while another one is
between its own look and its store.
-/

namespace NsfwDetector

open Effects

namespace Enqueuing

/-! ## The calls that count -/

def isHset : Command → Bool
  | .hset _ _ => true
  | _ => false

def isXadd : Command → Bool
  | .xadd _ _ => true
  | _ => false

def isSet (key : String) : Command → Bool
  | .set k _ => k = key
  | _ => false

def stores : Call → Bool := carriedOut isHset

def adds : Call → Bool := carriedOut isXadd

/-- The call sets the index of the work. -/
def names (work : String × String × String) : Call → Bool := carriedOut (isSet (uniqueKeyOf work))

/-- The call looks at the index of the work. -/
def looks (work : String × String × String) : Call → Bool
  | ⟨_, .get key, _⟩ => key = uniqueKeyOf work
  | _ => false

/-- What had been called when caller `i` last looked at the index. -/
def beforeLook (work : String × String × String) (i : Caller) : Past → Past
  | [] => []
  | e :: past => if e.caller = i ∧ looks work e = true then past else beforeLook work i past

theorem stores_of_performed {e : Call} {key : String} {job : VideoJob}
    (h : Performed (.hset key job) e) : stores e = true := carriedOut_iff.mpr ⟨_, rfl, h⟩

theorem adds_of_performed {e : Call} {jobId : String} {payload : VideoJob}
    (h : Performed (.xadd jobId payload) e) : adds e = true := carriedOut_iff.mpr ⟨_, rfl, h⟩

theorem beforeLook_of_not {work : String × String × String} {i : Caller} {e : Call} {past : Past}
    (h : ¬ (e.caller = i ∧ looks work e = true)) :
    beforeLook work i (e :: past) = beforeLook work i past := if_neg h

/-! ## The system -/

/-- API callers that ask for the same work. -/
def Requests (settings : Settings) (work : String × String × String) : Caller → Code Reply → Prop
  | .api _, p => ∃ request : VideoDetectRequest, request.triple = work ∧ p = apiProgram settings request
  | _, _ => False

/-- Every call takes effect, and its caller sees the answer. -/
def Unfailing : Behaviour Caller World Ans PyException := fun i s op o s' =>
  Does i s op o s' ∧ o.Answered

/-- Who reads a job finds one for this work. -/
def FindsOwn (work : String × String × String) (s : World) : Op → Prop
  | .hgetall key => ∀ job, s.kv.hashes key = some job → job.triple = work
  | _ => True

/-- If the call stores a job, its caller looked at the index after everyone else who has stored one
had set it. -/
def LookedAfter (work : String × String × String) (past : Past) (e : Call) : Prop :=
  stores e = true → ∀ f ∈ past, stores f = true → f.caller ≠ e.caller →
    ∃ g ∈ beforeLook work e.caller past, g.caller = f.caller ∧ names work g = true

/-- No request takes the `job_id` of a job for other work. And the windows of the callers that store
a job, each from its `GET` of the index to its `SET`, do not overlap. -/
def WindowsApart (work : String × String × String) : StepCond Caller World Ans PyException Reply :=
  fun c l _ =>
    match l with
    | .call e => FindsOwn work c.state e.op ∧ LookedAfter work c.history e
    | .start _ | .kill _ => True

/-! ## What the stores hold -/

structure Untouched (work : String × String × String) (s₀ s : World) (past : Past) : Prop where
  noStore : ∀ e ∈ past, stores e = false
  noAdd : ∀ e ∈ past, adds e = false
  noName : ∀ e ∈ past, names work e = false
  hashes : ∀ key job, s.kv.hashes key = some job → job.triple ≠ work
  unique : s.kv.strings (uniqueKeyOf work) = none
  fresh : s.kv.fresh = s₀.kv.fresh

def Stored (i : Caller) (job : VideoJob) (e : Call) : Prop :=
  e.caller = i ∧ Performed (.hset (jobKey job.jobId) job) e

def Added (i : Caller) (job : VideoJob) (e : Call) : Prop :=
  e.caller = i ∧ Performed (.xadd job.jobId job) e

/-- The stream is as it was at the start, or caller `i` has added the entry of `job`. -/
inductive Stream (s₀ s : World) (past : Past) (i : Caller) (job : VideoJob) : Prop
  | before (hadds : ∀ e ∈ past, adds e = false) (hfresh : s.kv.fresh = s₀.kv.fresh)
  | after (hadded : ∃ e ∈ past, Added i job e)
      (hfresh : ∃ id, s.kv.fresh = s₀.kv.fresh ++ [⟨id, job.jobId, job.stored⟩])

/-- Caller `i`, and nobody else, has stored `job` for the work. -/
structure Kept (work : String × String × String) (s₀ s : World) (past : Past) (i : Caller)
    (job : VideoJob) : Prop where
  triple : job.triple = work
  jobId_ne : job.jobId ≠ ""
  stored : ∃ e ∈ past, Stored i job e
  only : ∀ e ∈ past, ∀ key other, Performed (.hset key other) e →
    e.caller = i ∧ key = jobKey job.jobId ∧ other = job
  hash : s.kv.hashes (jobKey job.jobId) = some job.stored
  hashes : ∀ key found, s.kv.hashes key = some found → found.triple = work → found = job.stored
  unique : ∀ jobId, s.kv.strings (uniqueKeyOf work) = some jobId → jobId = job.jobId
  named : (∃ e ∈ past, names work e = true) → s.kv.strings (uniqueKeyOf work) = some job.jobId
  stream : Stream s₀ s past i job

/-- Caller `i` has stored nothing, and the index had not been set when it looked. -/
structure Looked (work : String × String × String) (i : Caller) (past : Past) : Prop where
  noStore : ∀ e ∈ past, e.caller = i → stores e = false
  noName : ∀ e ∈ beforeLook work i past, names work e = false

/-- The commands of an enqueue for the work. -/
inductive EnqueueOk (work : String × String × String) (i : Caller) (past : Past) : List Command → Prop
  | newHash {job : VideoJob} (htriple : job.triple = work) (hid : job.jobId ≠ "")
      (hlooked : Looked work i past) :
      EnqueueOk work i past [.hset (jobKey job.jobId) job]
  | newJob {job : VideoJob} (htriple : job.triple = work) (hid : job.jobId ≠ "")
      (hlooked : Looked work i past) :
      EnqueueOk work i past [.hset (jobKey job.jobId) job, .set (uniqueKeyOf work) job.jobId,
        .set (videoIdKey job.videoId) job.jobId, .xadd job.jobId job]
  | unique {job : VideoJob} (hstored : ∃ e ∈ past, Stored i job e) :
      EnqueueOk work i past [.set (uniqueKeyOf work) job.jobId]
  | index {videoId jobId : String} : EnqueueOk work i past [.set (videoIdKey videoId) jobId]
  | entry {job : VideoJob} (hstored : ∃ e ∈ past, Stored i job e)
      (hnew : ∀ e ∈ past, e.caller = i → adds e = false) :
      EnqueueOk work i past [.xadd job.jobId job]
  | found {videoId jobId : String} : EnqueueOk work i past [.setNx (videoIdKey videoId) jobId]

def May (work : String × String × String) (i : Caller) (past : Past) : Op → Prop
  | .writes commands => EnqueueOk work i past commands
  | .xreadgroup _ => False
  | _ => True

section

variable {work : String × String × String} {s₀ s s' : World} {past : Past} {i j : Caller}
  {job : VideoJob} {op : Op} {o : Outcome PyException (Ans op)}

structure SameWork (work : String × String × String) (s s' : World) : Prop where
  hashes : s'.kv.hashes = s.kv.hashes
  unique : s'.kv.strings (uniqueKeyOf work) = s.kv.strings (uniqueKeyOf work)
  fresh : s'.kv.fresh = s.kv.fresh

theorem forall_cons {past : Past} {e : Call} {kind : Call → Bool} (h : ∀ e ∈ past, kind e = false)
    (he : kind e = false) : ∀ e' ∈ e :: past, kind e' = false := by
  intro e' he'
  rcases List.mem_cons.mp he' with rfl | he'
  · exact he
  · exact h e' he'

/-- The call stores nothing, adds no entry and does not set the index. -/
structure Quiet (work : String × String × String) (e : Call) : Prop where
  stores : stores e = false
  adds : adds e = false
  names : names work e = false

theorem Untouched.same {e : Call} (h : Untouched work s₀ s past) (hsame : SameWork work s s')
    (hquiet : Quiet work e) : Untouched work s₀ s' (e :: past) where
  noStore := forall_cons h.noStore hquiet.stores
  noAdd := forall_cons h.noAdd hquiet.adds
  noName := forall_cons h.noName hquiet.names
  hashes key job hjob := h.hashes key job (hsame.hashes ▸ hjob)
  unique := hsame.unique.trans h.unique
  fresh := hsame.fresh.trans h.fresh

theorem Stream.same {e : Call} (h : Stream s₀ s past i job) (hfresh : s'.kv.fresh = s.kv.fresh)
    (hadds : adds e = false) : Stream s₀ s' (e :: past) i job := by
  cases h with
  | before hnone hstart => exact .before (forall_cons hnone hadds) (hfresh.trans hstart)
  | after hadded hentry =>
    obtain ⟨e', he', hadd⟩ := hadded
    obtain ⟨id, hid⟩ := hentry
    exact .after ⟨e', List.mem_cons_of_mem _ he', hadd⟩ ⟨id, hfresh.trans hid⟩

theorem Kept.next {e : Call} (h : Kept work s₀ s past i job) (hhashes : s'.kv.hashes = s.kv.hashes)
    (hunique : ∀ jobId, s'.kv.strings (uniqueKeyOf work) = some jobId → jobId = job.jobId)
    (hnamed : (∃ e' ∈ e :: past, names work e' = true) →
      s'.kv.strings (uniqueKeyOf work) = some job.jobId)
    (hstores : stores e = false) (hstream : Stream s₀ s' (e :: past) i job) :
    Kept work s₀ s' (e :: past) i job where
  triple := h.triple
  jobId_ne := h.jobId_ne
  stored := by
    obtain ⟨e', he', hstored⟩ := h.stored
    exact ⟨e', List.mem_cons_of_mem _ he', hstored⟩
  only e' he' key other hperformed := by
    rcases List.mem_cons.mp he' with rfl | he'
    · rw [stores_of_performed hperformed] at hstores
      cases hstores
    · exact h.only e' he' key other hperformed
  hash := hhashes ▸ h.hash
  hashes := hhashes ▸ h.hashes
  unique := hunique
  named := hnamed
  stream := hstream

theorem Kept.named_cons {e : Call} (h : Kept work s₀ s past i job) (hnames : names work e = false)
    (hunique : s'.kv.strings (uniqueKeyOf work) = s.kv.strings (uniqueKeyOf work))
    (hnamed : ∃ e' ∈ e :: past, names work e' = true) :
    s'.kv.strings (uniqueKeyOf work) = some job.jobId := by
  obtain ⟨e', he', hname⟩ := hnamed
  rw [hunique]
  rcases List.mem_cons.mp he' with rfl | he'
  · rw [hnames] at hname
    cases hname
  · exact h.named ⟨e', he', hname⟩

theorem Kept.same {e : Call} (h : Kept work s₀ s past i job) (hsame : SameWork work s s')
    (hquiet : Quiet work e) : Kept work s₀ s' (e :: past) i job :=
  h.next hsame.hashes (hsame.unique ▸ h.unique) (h.named_cons hquiet.names hsame.unique)
    hquiet.stores (h.stream.same hsame.fresh hquiet.adds)

/-- Who has stored a job is the one, and it is the job. -/
theorem Kept.eq_of_stored {other : VideoJob} (h : Kept work s₀ s past i job)
    (hstored : ∃ e ∈ past, Stored j other e) : j = i ∧ other = job := by
  obtain ⟨e, he, hcaller, hperformed⟩ := hstored
  obtain ⟨hi, -, hother⟩ := h.only e he _ _ hperformed
  exact ⟨hcaller ▸ hi, hother⟩

def Inv (work : String × String × String) (s₀ s : World) (past : Past) : Prop :=
  Untouched work s₀ s past ∨ ∃ i job, Kept work s₀ s past i job

theorem Inv.same {e : Call} (h : Inv work s₀ s past) (hsame : SameWork work s s')
    (hquiet : Quiet work e) : Inv work s₀ s' (e :: past) := by
  rcases h with huntouched | ⟨i, job, hkept⟩
  · exact .inl (huntouched.same hsame hquiet)
  · exact .inr ⟨i, job, hkept.same hsame hquiet⟩

theorem Inv.kept_of_stored (h : Inv work s₀ s past) (hstored : ∃ e ∈ past, Stored i job e) :
    Kept work s₀ s past i job := by
  rcases h with huntouched | ⟨j, other, hkept⟩
  · obtain ⟨e, he, -, hperformed⟩ := hstored
    have hnone := huntouched.noStore e he
    rw [stores_of_performed hperformed] at hnone
    cases hnone
  · obtain ⟨rfl, rfl⟩ := hkept.eq_of_stored hstored
    exact hkept

/-- Where the index was found unset and no window overlaps, nobody has stored before. -/
theorem Inv.untouched (h : Inv work s₀ s past) (hlooked : Looked work i past)
    (hafter : ∀ f ∈ past, stores f = true → f.caller ≠ i →
      ∃ g ∈ beforeLook work i past, g.caller = f.caller ∧ names work g = true) :
    Untouched work s₀ s past := by
  rcases h with huntouched | ⟨j, job, hkept⟩
  · exact huntouched
  · obtain ⟨f, hf, -, hperformed⟩ := hkept.stored
    have hstores := stores_of_performed hperformed
    by_cases hcaller : f.caller = i
    · have hnone := hlooked.noStore f hf hcaller
      rw [hstores] at hnone
      cases hnone
    · obtain ⟨g, hg, -, hnames⟩ := hafter f hf hstores hcaller
      have hnone := hlooked.noName g hg
      rw [hnames] at hnone
      cases hnone

theorem Untouched.store {commands : List Command} (h : Untouched work s₀ s past)
    (htriple : job.triple = work) (hid : job.jobId ≠ "")
    {o : Outcome PyException (Ans (.writes commands))} (heffect : o.TookEffect)
    (hhset : .hset (jobKey job.jobId) job ∈ commands)
    (honly : ∀ key other, .hset key other ∈ commands → key = jobKey job.jobId ∧ other = job)
    (hhashes : s'.kv.hashes = Function.update s.kv.hashes (jobKey job.jobId) (some job.stored))
    (hunique : s'.kv.strings (uniqueKeyOf work) = some job.jobId ∨
      s'.kv.strings (uniqueKeyOf work) = none ∧ names work ⟨i, .writes commands, o⟩ = false)
    (hstream : Stream s₀ s' (⟨i, .writes commands, o⟩ :: past) i job) :
    Kept work s₀ s' (⟨i, .writes commands, o⟩ :: past) i job where
  triple := htriple
  jobId_ne := hid
  stored := ⟨_, List.mem_cons_self, rfl, performed_writes.mpr ⟨hhset, heffect⟩⟩
  only e he key other hperformed := by
    rcases List.mem_cons.mp he with rfl | he
    · exact ⟨rfl, honly key other (performed_writes.mp hperformed).1⟩
    · have hnone := h.noStore e he
      rw [stores_of_performed hperformed] at hnone
      cases hnone
  hash := by rw [hhashes, Function.update_self]
  hashes key found hfound hwork := by
    rw [hhashes, Function.update_apply] at hfound
    split at hfound
    · exact (Option.some.inj hfound).symm
    · exact absurd hwork (h.hashes key found hfound)
  unique jobId hjobId := by
    rcases hunique with hset | ⟨hunset, -⟩
    · exact Option.some.inj (hjobId.symm.trans hset)
    · exact absurd (hjobId.symm.trans hunset) (Option.some_ne_none _)
  named := by
    rintro ⟨e, he, hnamed⟩
    rcases hunique with hset | ⟨-, hnames⟩
    · exact hset
    · exact absurd hnamed (by simp [forall_cons h.noName hnames e he])
  stream := hstream

theorem sameWork_set {key value : String} (hkey : key ≠ uniqueKeyOf work) :
    SameWork work s { s with kv := s.kv.applyAll [.set key value] } :=
  ⟨rfl, Function.update_of_ne (Ne.symm hkey) .., rfl⟩

theorem sameWork_setNx {key value : String} (hkey : key ≠ uniqueKeyOf work) :
    SameWork work s { s with kv := s.kv.applyAll [.setNx key value] } := by
  simp only [Kvrocks.applyAll, List.foldl_cons, List.foldl_nil, Kvrocks.apply]
  split
  · exact ⟨rfl, Function.update_of_ne (Ne.symm hkey) .., rfl⟩
  · exact ⟨rfl, rfl, rfl⟩

theorem Untouched.newHash {o : Outcome PyException (Ans (.writes [.hset (jobKey job.jobId) job]))}
    (h : Untouched work s₀ s past) (htriple : job.triple = work) (hid : job.jobId ≠ "")
    (heffect : o.TookEffect) :
    Kept work s₀ { s with kv := s.kv.applyAll [.hset (jobKey job.jobId) job] }
      (⟨i, .writes [.hset (jobKey job.jobId) job], o⟩ :: past) i job := by
  refine h.store htriple hid heffect List.mem_cons_self ?_ rfl ?_ (.before ?_ h.fresh)
  · intro key other hmem
    cases List.mem_singleton.mp hmem
    exact ⟨rfl, rfl⟩
  · exact .inr ⟨h.unique, by simp [names, carriedOut, isSet]⟩
  · exact forall_cons h.noAdd (by simp [adds, carriedOut, isXadd])

theorem Untouched.newJob {commands : List Command} {o : Outcome PyException (Ans (.writes commands))}
    (hcommands : commands = [.hset (jobKey job.jobId) job, .set (uniqueKeyOf work) job.jobId,
      .set (videoIdKey job.videoId) job.jobId, .xadd job.jobId job])
    (h : Untouched work s₀ s past) (htriple : job.triple = work) (hid : job.jobId ≠ "")
    (heffect : o.TookEffect) :
    Kept work s₀ { s with kv := s.kv.applyAll commands } (⟨i, .writes commands, o⟩ :: past) i job := by
  subst hcommands
  refine h.store htriple hid heffect List.mem_cons_self ?_ rfl ?_ (.after ?_ ?_)
  · intro key other hmem
    simpa using hmem
  · refine .inl ?_
    simp only [Kvrocks.applyAll, List.foldl_cons, List.foldl_nil, Kvrocks.apply]
    rw [Function.update_of_ne (uniqueKeyOf_ne_videoIdKey work _), Function.update_self]
  · exact ⟨_, List.mem_cons_self, rfl, performed_writes.mpr ⟨by simp, heffect⟩⟩
  · exact ⟨_, congrArg (· ++ _) h.fresh⟩

theorem Stream.entry {o : Outcome PyException (Ans (.writes [.xadd job.jobId job]))}
    (h : Stream s₀ s past i job) (hnew : ∀ e ∈ past, e.caller = i → adds e = false)
    (heffect : o.TookEffect) :
    Stream s₀ { s with kv := s.kv.applyAll [.xadd job.jobId job] }
      (⟨i, .writes [.xadd job.jobId job], o⟩ :: past) i job := by
  cases h with
  | before hadds hfresh =>
    exact .after ⟨_, List.mem_cons_self, rfl, performed_writes.mpr ⟨List.mem_cons_self, heffect⟩⟩
      ⟨_, congrArg (· ++ _) hfresh⟩
  | after hadded _ =>
    obtain ⟨e, he, hcaller, hperformed⟩ := hadded
    have hnone := hnew e he hcaller
    rw [adds_of_performed hperformed] at hnone
    cases hnone

theorem quiet_set {videoId jobId : String}
    {o : Outcome PyException (Ans (.writes [.set (videoIdKey videoId) jobId]))} :
    Quiet work ⟨i, .writes [.set (videoIdKey videoId) jobId], o⟩ where
  stores := by simp [stores, carriedOut, isHset]
  adds := by simp [adds, carriedOut, isXadd]
  names := by simp [names, carriedOut, isSet, (uniqueKeyOf_ne_videoIdKey work videoId).symm]

theorem quiet_setNx {key jobId : String}
    {o : Outcome PyException (Ans (.writes [.setNx key jobId]))} :
    Quiet work ⟨i, .writes [.setNx key jobId], o⟩ where
  stores := by simp [stores, carriedOut, isHset]
  adds := by simp [adds, carriedOut, isXadd]
  names := by simp [names, carriedOut, isSet]

theorem inv_writes {commands : List Command} {o : Outcome PyException (Ans (.writes commands))}
    (hinv : Inv work s₀ s past) (hmay : EnqueueOk work i past commands) (heffect : o.TookEffect)
    (hafter : LookedAfter work past ⟨i, .writes commands, o⟩) :
    Inv work s₀ { s with kv := s.kv.applyAll commands } (⟨i, .writes commands, o⟩ :: past) := by
  have hvideo := fun videoId => (uniqueKeyOf_ne_videoIdKey work videoId).symm
  cases hmay with
  | @newHash job htriple hid hlooked =>
    have h := hinv.untouched hlooked (hafter (by simp [stores, carriedOut, isHset, heffect]))
    exact .inr ⟨i, job, h.newHash htriple hid heffect⟩
  | @newJob job htriple hid hlooked =>
    have h := hinv.untouched hlooked (hafter (by simp [stores, carriedOut, isHset, heffect]))
    exact .inr ⟨i, job, h.newJob rfl htriple hid heffect⟩
  | @unique job hstored =>
    have hkept := hinv.kept_of_stored hstored
    have hset : (s.kv.applyAll [.set (uniqueKeyOf work) job.jobId]).strings (uniqueKeyOf work) =
        some job.jobId := Function.update_self ..
    have hadds : adds ⟨i, .writes [.set (uniqueKeyOf work) job.jobId], o⟩ = false := by
      simp [adds, carriedOut, isXadd]
    exact .inr ⟨i, job, hkept.next rfl (fun jobId h => Option.some.inj (h.symm.trans hset))
      (fun _ => hset) (by simp [stores, carriedOut, isHset]) (hkept.stream.same rfl hadds)⟩
  | index => exact hinv.same (sameWork_set (hvideo _)) quiet_set
  | @entry job hstored hnew =>
    have hkept := hinv.kept_of_stored hstored
    have hnames : names work ⟨i, .writes [.xadd job.jobId job], o⟩ = false := by
      simp [names, carriedOut, isSet]
    exact .inr ⟨i, job, hkept.next rfl hkept.unique (hkept.named_cons hnames rfl)
      (by simp [stores, carriedOut, isHset]) (hkept.stream.entry hnew heffect)⟩
  | found => exact hinv.same (sameWork_setNx (hvideo _)) quiet_setNx

theorem inv_call (hinv : Inv work s₀ s past) (hmay : May work i past op) (hdoes : Does i s op o s')
    (heffect : o.TookEffect) (hafter : LookedAfter work past ⟨i, op, o⟩) :
    Inv work s₀ s' (⟨i, op, o⟩ :: past) := by
  cases op with
  | writes commands => exact hdoes.writes heffect ▸ inv_writes hinv hmay heffect hafter
  | xreadgroup => exact hmay.elim
  | _ =>
    refine hinv.same ?_ ⟨rfl, rfl, rfl⟩
    cases hdoes.change <;> exact ⟨rfl, rfl, rfl⟩

end

/-! ## The discipline -/

open Assertion Triple

/-- The steps of unfailing calls whose windows do not overlap. -/
def enqueuing (work : String × String × String) (s₀ : World) :
    Discipline Caller (World × Past) Ans PyException where
  does i s op o s' := Unfailing i s.1 op o s'.1 ∧ s'.2 = ⟨i, op, o⟩ :: s.2 ∧ FindsOwn work s.1 op ∧
    LookedAfter work s.2 ⟨i, op, o⟩
  inv s past := s.2 = past ∧ Inv work s₀ s.1 past
  may i _ past op := May work i past op
  inv_call := by
    rintro s past i op o s' ⟨rfl, hinv⟩ hmay ⟨⟨hdoes, hanswered⟩, hpast, -, hafter⟩
    exact ⟨hpast, inv_call hinv hmay hdoes hanswered.tookEffect hafter⟩

section

variable {work : String × String × String} {s₀ : World} {i : Caller}

def known (work : String × String × String) (s₀ : World) (i : Caller) (jobId : String) :
    Assertion (enqueuing work s₀) i :=
  called fun e => ∃ job : VideoJob, Performed (.hset (jobKey job.jobId) job) e ∧ job.jobId = jobId

def noStore (work : String × String × String) (s₀ : World) (i : Caller) :
    Assertion (enqueuing work s₀) i := .never fun e => stores e = true

def noAdd (work : String × String × String) (s₀ : World) (i : Caller) :
    Assertion (enqueuing work s₀) i := .never fun e => adds e = true

def idle (work : String × String × String) (s₀ : World) (i : Caller) :
    Assertion (enqueuing work s₀) i := (noStore work s₀ i).and (noAdd work s₀ i)

/-- When caller `i` looked at the index, nobody had set it. -/
def unset (work : String × String × String) (s₀ : World) (i : Caller) :
    Assertion (enqueuing work s₀) i where
  holds _ past := ∀ e ∈ beforeLook work i past, names work e = false
  stable hj _ _ _ h := by rwa [beforeLook_of_not fun hown => hj hown.1]

/-- What caller `i` knows of the result that it returns. -/
def returned (work : String × String × String) (s₀ : World) (i : Caller) (result : EnqueueResult) :
    Assertion (enqueuing work s₀) i :=
  if result.enqueued then (called (Stored i result.job)).and (called (Added i result.job))
  else (known work s₀ i result.job.jobId).and (noStore work s₀ i)

theorem never_cons {past : Past} {e : Call} {kind : Call → Bool}
    (h : ∀ e ∈ past, e.caller = i → ¬ kind e = true) (he : kind e = false) :
    ∀ e' ∈ e :: past, e'.caller = i → ¬ kind e' = true := by
  intro e' he' hi
  rcases List.mem_cons.mp he' with rfl | he'
  · simp [he]
  · exact h e' he' hi

theorem asks {P : Assertion (enqueuing work s₀) i} (op : Op)
    {S : Ans op → Assertion (enqueuing work s₀) i}
    (hmay : ∀ s past, P.holds s past → May work i past op)
    (hanswer : ∀ s past b s', Inv work s₀ s.1 past → P.holds s past → Answers i s.1 op b s'.1 →
      FindsOwn work s.1 op → (S b).holds s' (⟨i, op, .answered b⟩ :: past)) :
    Triple (sure S) P (await op) := by
  refine askSure op (fun s past _ hP => hmay s past hP) ?_
  rintro s past o s' ⟨-, hinv⟩ hP ⟨⟨hdoes, hanswered⟩, -, hown, -⟩
  cases o with
  | answered b => exact ⟨b, rfl, hanswer s past b s' hinv hP hdoes hown⟩
  | refused | failed | lost => exact hanswered.elim

theorem asks_idle {P : Assertion (enqueuing work s₀) i} (op : Op)
    {S : Ans op → Assertion (enqueuing work s₀) i} (hmay : ∀ past, May work i past op)
    (hquiet : ∀ b, stores ⟨i, op, .answered b⟩ = false ∧ adds ⟨i, op, .answered b⟩ = false)
    (hP : ∀ s past, P.holds s past → (idle work s₀ i).holds s past)
    (hanswer : ∀ s past b s', Inv work s₀ s.1 past → P.holds s past → Answers i s.1 op b s'.1 →
      FindsOwn work s.1 op → (idle work s₀ i).holds s' (⟨i, op, .answered b⟩ :: past) →
      (S b).holds s' (⟨i, op, .answered b⟩ :: past)) :
    Triple (sure S) P (await op) := by
  refine asks op (fun _ past _ => hmay past) fun s past b s' hinv h hanswers hown => ?_
  obtain ⟨hstore, hadd⟩ := hP s past h
  exact hanswer s past b s' hinv h hanswers hown
    ⟨never_cons hstore (hquiet b).1, never_cons hadd (hquiet b).2⟩

theorem known_next {s s' : World × Past} {past : Past} {e : Call} {jobId : String}
    (h : (known work s₀ i jobId).holds s past) : (known work s₀ i jobId).holds s' (e :: past) := by
  obtain ⟨e', he', hjob⟩ := h
  exact ⟨e', List.mem_cons_of_mem _ he', hjob⟩

theorem known_of_hash {s s' : World × Past} {past : Past} {e : Call} {key : String} {job : VideoJob}
    (hinv : Inv work s₀ s.1 past) (hjob : s.1.kv.hashes key = some job) (hwork : job.triple = work) :
    (known work s₀ i job.jobId).holds s' (e :: past) := by
  rcases hinv with huntouched | ⟨j, other, hkept⟩
  · exact absurd hwork (huntouched.hashes key job hjob)
  · obtain rfl := hkept.hashes key job hjob hwork
    obtain ⟨e', he', -, hperformed⟩ := hkept.stored
    exact ⟨e', List.mem_cons_of_mem _ he', other, hperformed, rfl⟩

theorem hash_of_known {s : World × Past} {past : Past} {jobId : String}
    (hinv : Inv work s₀ s.1 past) (h : (known work s₀ i jobId).holds s past) :
    s.1.kv.hashes (jobKey jobId) ≠ none := by
  obtain ⟨e, he, job, hperformed, rfl⟩ := h
  have hkept := hinv.kept_of_stored ⟨e, he, rfl, hperformed⟩
  simp [hkept.hash]

/-! ## The code of one enqueue -/

theorem alreadyThere_outline (existing : VideoJob) :
    Triple (sure (returned work s₀ i)) ((known work s₀ i existing.jobId).and (idle work s₀ i))
      (RedisQueue.alreadyThere existing) := by
  refine andThen (S := fun _ => (known work s₀ i existing.jobId).and (noStore work s₀ i)) ?_
    fun _ => give (.refl _)
  refine asks_idle (Op.writes _) (fun _ => .found) ?_ (fun _ _ h => h.2) ?_
  · exact fun _ => ⟨by simp [stores, carriedOut, isHset], by simp [adds, carriedOut, isXadd]⟩
  · exact fun _ _ _ _ _ h _ _ hidle => ⟨known_next h.1, hidle.1⟩

theorem storeNewJob_outline (settings : Settings) (request : VideoDetectRequest)
    (hwork : request.triple = work) :
    Triple (sure (returned work s₀ i)) ((idle work s₀ i).and (unset work s₀ i))
      (RedisQueue.storeNewJob settings request) := by
  subst hwork
  refine andThen (S := fun _ => (idle request.triple s₀ i).and (unset request.triple s₀ i)) ?_
    fun now => ?_
  · refine asks_idle Op.now (fun _ => trivial) (fun _ => ⟨rfl, rfl⟩) (fun _ _ h => h.1) ?_
    rintro s past b s' - ⟨-, hunset⟩ - - hidle
    refine ⟨hidle, ?_⟩
    intro e he
    rw [beforeLook_of_not (by simp [looks])] at he
    exact hunset e he
  · have hid : (request.job now).jobId ≠ "" := request.jobId_ne
    have hstored : ∀ {past : Past} {commands : List Command},
        .hset (jobKey request.jobId) (request.job now) ∈ commands →
        ∃ e ∈ ⟨i, Op.writes commands, .answered ()⟩ :: past, Stored i (request.job now) e :=
      fun hmem => ⟨_, List.mem_cons_self, rfl, performed_writes.mpr ⟨hmem, trivial⟩⟩
    have hadded : ∀ {past : Past} {commands : List Command},
        .xadd request.jobId (request.job now) ∈ commands →
        ∃ e ∈ ⟨i, Op.writes commands, .answered ()⟩ :: past, Added i (request.job now) e :=
      fun hmem => ⟨_, List.mem_cons_self, rfl, performed_writes.mpr ⟨hmem, trivial⟩⟩
    have hlooked : ∀ (s : World × Past) past,
        ((idle request.triple s₀ i).and (unset request.triple s₀ i)).holds s past →
        Looked request.triple i past := by
      rintro s past ⟨hidle, hunset⟩
      exact ⟨fun e he hi => by simpa using hidle.1 e he hi, hunset⟩
    simp only
    split
    · let stage : Assertion (enqueuing request.triple s₀) i :=
        (called (Stored i (request.job now))).and (noAdd request.triple s₀ i)
      have hset : ∀ key value, (∀ past : Past, (∃ e ∈ past, Stored i (request.job now) e) →
          EnqueueOk request.triple i past [.set key value]) →
          Triple (sure fun _ => stage) stage (await (.writes [.set key value])) := by
        intro key value hmay
        refine asks (Op.writes _) (fun _ past h => hmay past h.1) ?_
        rintro s past - s' - ⟨⟨e, he, hjob⟩, hnone⟩ - -
        exact ⟨⟨e, List.mem_cons_of_mem _ he, hjob⟩,
          never_cons hnone (by simp [adds, carriedOut, isXadd])⟩
      refine andThen (S := fun _ => stage) ?_ fun _ => ?_
      · refine asks (Op.writes _) (fun s past h => .newHash rfl hid (hlooked s past h)) ?_
        rintro s past - s' - ⟨⟨-, hnone⟩, -⟩ - -
        exact ⟨hstored List.mem_cons_self, never_cons hnone (by simp [adds, carriedOut, isXadd])⟩
      refine andThen (hset _ _ fun _ h => .unique h) fun _ => ?_
      refine andThen (hset _ _ fun _ _ => .index) fun _ => ?_
      refine andThen (S := fun _ => (called (Stored i (request.job now))).and
        (called (Added i (request.job now)))) ?_ fun _ => give (.refl _)
      refine asks (Op.writes _) (fun _ _ h => .entry h.1 fun e he hi => by simpa using h.2 e he hi) ?_
      rintro s past - s' - ⟨⟨e, he, hjob⟩, -⟩ - -
      exact ⟨⟨e, List.mem_cons_of_mem _ he, hjob⟩, hadded List.mem_cons_self⟩
    · refine andThen (S := fun _ => (called (Stored i (request.job now))).and
        (called (Added i (request.job now)))) ?_ fun _ => give (.refl _)
      refine asks (Op.writes _) (fun s past h => .newJob rfl hid (hlooked s past h)) ?_
      intro s past _ s' _ _ _ _
      exact ⟨hstored List.mem_cons_self, hadded (by simp [VideoDetectRequest.job])⟩

def read (work : String × String × String) (s₀ : World) (i : Caller) :
    Option VideoJob → Assertion (enqueuing work s₀) i
  | some job => (known work s₀ i job.jobId).and (idle work s₀ i)
  | none => idle work s₀ i

theorem read_outline (jobId : String) :
    Triple (sure (read work s₀ i)) (idle work s₀ i) (RedisQueue.getJobById jobId) := by
  refine asks_idle (Op.hgetall _) (fun _ => trivial) (fun _ => ⟨rfl, rfl⟩) (fun _ _ h => h) ?_
  rintro s past found s' hinv - ⟨hfound, -⟩ hown hidle
  cases found with
  | none => exact hidle
  | some job => exact ⟨known_of_hash hinv hfound.symm (hown job hfound.symm), hidle⟩

theorem readKnown_outline (jobId : String) :
    Triple (sure fun found => (read work s₀ i found).and (.pure (found ≠ none)))
      ((known work s₀ i jobId).and (idle work s₀ i)) (RedisQueue.getJobById jobId) := by
  refine asks_idle (Op.hgetall _) (fun _ => trivial) (fun _ => ⟨rfl, rfl⟩) (fun _ _ h => h.2) ?_
  rintro s past found s' hinv h ⟨hfound, -⟩ hown hidle
  cases found with
  | none => exact absurd hfound.symm (hash_of_known hinv h.1)
  | some job =>
    exact ⟨⟨known_of_hash hinv hfound.symm (hown job hfound.symm), hidle⟩, Option.some_ne_none job⟩

/-- What caller `i` knows when it has looked at the index. -/
def indexed (work : String × String × String) (s₀ : World) (i : Caller) :
    Option String → Assertion (enqueuing work s₀) i
  | some jobId => ((known work s₀ i jobId).and (idle work s₀ i)).and (.pure (jobId ≠ ""))
  | none => (idle work s₀ i).and (unset work s₀ i)

theorem index_outline : Triple (sure (indexed work s₀ i)) (idle work s₀ i)
    (await (.get (uniqueKeyOf work))) := by
  refine asks_idle (Op.get _) (fun _ => trivial) (fun _ => ⟨rfl, rfl⟩) (fun _ _ h => h) ?_
  rintro s past found s' hinv - ⟨hfound, -⟩ - hidle
  cases found with
  | none =>
    refine ⟨hidle, fun e he => ?_⟩
    have hlooks : beforeLook work i (⟨i, .get (uniqueKeyOf work), .answered none⟩ :: past) = past :=
      if_pos ⟨rfl, decide_eq_true rfl⟩
    rw [hlooks] at he
    rcases hinv with huntouched | ⟨j, other, hkept⟩
    · exact huntouched.noName e he
    · refine Bool.eq_false_iff.mpr fun hnames => ?_
      rw [hkept.named ⟨e, he, hnames⟩] at hfound
      cases hfound
  | some jobId =>
    rcases hinv with huntouched | ⟨j, other, hkept⟩
    · rw [huntouched.unique] at hfound
      cases hfound
    · have hjobId := hkept.unique jobId hfound.symm
      obtain ⟨e', he', -, hperformed⟩ := hkept.stored
      refine ⟨⟨?_, hidle⟩, hjobId ▸ hkept.jobId_ne⟩
      exact ⟨e', List.mem_cons_of_mem _ he', other, hperformed, hjobId.symm⟩

theorem enqueue_outline (settings : Settings) (request : VideoDetectRequest)
    (hwork : request.triple = work) :
    Triple (sure (returned work s₀ i)) (idle work s₀ i)
      (RedisQueue.enqueueVideoJob settings request) := by
  refine andThen (read_outline _) fun found => ?_
  cases found with
  | some existing => exact alreadyThere_outline existing
  | none =>
    subst hwork
    refine andThen index_outline fun existingJobId => ?_
    cases existingJobId with
    | none => exact storeNewJob_outline settings request rfl
    | some jobId =>
      refine assume fun hid => ?_
      split
      · refine andThen (readKnown_outline _) fun found => ?_
        cases found with
        | some existing => exact weaken (and_left _ _) (alreadyThere_outline existing)
        | none =>
          refine unreachable (fun s past _ h => ?_) _
          exact h.2 rfl
      · next hfalsy => exact absurd (by simpa [truthy] using hid) hfalsy

end

/-! ## All requests together -/

section

variable {settings : Settings} {work : String × String × String} {s₀ : World} {c : Moment}

def AllDone (c : Moment) : Prop := ∀ i, c.threads i = .ready ∨ ∃ r, c.threads i = .running (.done r)

/-- One caller has enqueued the job, its entry is the only new one, and all have got its id. -/
def OneJob (s₀ : World) (c : Moment) : Prop :=
  ∃ i job id, c.threads i = .running (.done (.ok (.enqueued ⟨job, true⟩))) ∧
    c.state.kv.fresh = s₀.kv.fresh ++ [⟨id, job.jobId, job.stored⟩] ∧
    ∀ j r, c.threads j = .running (.done r) → ∃ result, r = .ok (.enqueued result) ∧
      result.job.jobId = job.jobId ∧ (result.enqueued = true → j = i)

/-- What a caller knows at its end. -/
def ended (work : String × String × String) (s₀ : World) (i : Caller) :
    Reply → Assertion (enqueuing work s₀) i
  | .enqueued result => returned work s₀ i result
  | .finished | .status _ => .pure False

theorem outlines {i : Caller} {p : Code Reply} (h : Requests settings work i p) :
    Triple (sure (ended work s₀ i)) ((enqueuing work s₀).fresh i) p := by
  cases i with
  | api nr =>
    obtain ⟨request, hwork, rfl⟩ := h
    refine weaken (fun s past _ hfresh => ?_)
      (andThen (enqueue_outline settings request hwork) fun _ => give (.refl _))
    exact ⟨fun e he hi _ => hfresh e he hi trivial, fun e he hi _ => hfresh e he hi trivial⟩
  | worker | reader | attempt => exact h.elim

theorem sound (hjob : ∀ key job, s₀.kv.hashes key = some job → job.triple ≠ work)
    (hunique : s₀.kv.strings (uniqueKeyOf work) = none)
    (h : ReachVia (Requests settings work) Unfailing (WindowsApart work) s₀ c) :
    (enqueuing work s₀).Sound (fun i => sure (ended work s₀ i)) c.recorded := by
  have hrun : ReachVia (Requests settings work) (enqueuing work s₀).does (fun _ _ _ => True)
      (s₀, []) c.recorded := by
    refine h.recorded fun c e c' _ hs hcond => ?_
    cases hs with
    | call _ hdoes => exact ⟨hdoes, rfl, hcond.1, hcond.2⟩
  refine Discipline.sound (fun _ _ => outlines) ⟨rfl, .inl ?_⟩ hrun
  exact ⟨fun _ he => absurd he List.not_mem_nil, fun _ he => absurd he List.not_mem_nil,
    fun _ he => absurd he List.not_mem_nil, hjob, hunique, rfl⟩

theorem result_of_done (hsound : (enqueuing work s₀).Sound (fun i => sure (ended work s₀ i)) c.recorded)
    {i : Caller} {r : Except PyException Reply} (hdone : c.threads i = .running (.done r)) :
    ∃ result, r = .ok (.enqueued result) ∧
      (returned work s₀ i result).holds (c.state, c.history) c.history := by
  have hpost := hsound.post (show c.recorded.threads i = _ from hdone)
  cases r with
  | error e => exact hpost.elim
  | ok reply =>
    cases reply with
    | enqueued result => exact ⟨result, rfl, hpost⟩
    | finished | status => exact hpost.elim

theorem known_of_returned {i : Caller} {result : EnqueueResult} {s : World × Past} {past : Past}
    (h : (returned work s₀ i result).holds s past) :
    (known work s₀ i result.job.jobId).holds s past := by
  unfold returned at h
  split at h
  · obtain ⟨⟨e, he, -, hperformed⟩, -⟩ := h
    exact ⟨e, he, result.job, hperformed, rfl⟩
  · exact h.1

/-- If no windows overlap, the requests end as one. -/
theorem concurrent_enqueue (hjob : ∀ key job, s₀.kv.hashes key = some job → job.triple ≠ work)
    (hunique : s₀.kv.strings (uniqueKeyOf work) = none)
    (h : ReachVia (Requests settings work) Unfailing (WindowsApart work) s₀ c)
    (hstarted : ∃ i, c.threads i ≠ .ready) (hdone : AllDone c) : OneJob s₀ c := by
  have hsound := sound hjob hunique h
  have hinv : Inv work s₀ c.state c.history := hsound.1.2
  obtain ⟨i₀, hi₀⟩ := hstarted
  obtain ⟨r₀, hr₀⟩ := (hdone i₀).resolve_left hi₀
  obtain ⟨result₀, -, hreturned₀⟩ := result_of_done hsound hr₀
  obtain ⟨e, he, stored, hperformed, -⟩ := known_of_returned hreturned₀
  have hkept := hinv.kept_of_stored ⟨e, he, rfl, hperformed⟩
  -- Whoever has stored the job has made a call, so it is done as well.
  obtain ⟨r, hr⟩ := (hdone e.caller).resolve_left fun hready =>
    ReachVia.history_of_ready h hready e he rfl
  obtain ⟨⟨job, enqueued⟩, rfl, hreturned⟩ := result_of_done hsound hr
  cases enqueued with
  | false => exact absurd (stores_of_performed hperformed) (hreturned.2 e he rfl)
  | true =>
    obtain ⟨hstored, hadded⟩ := hreturned
    obtain ⟨-, rfl⟩ := hkept.eq_of_stored hstored
    have hfresh : ∃ id, c.state.kv.fresh = s₀.kv.fresh ++ [⟨id, job.jobId, job.stored⟩] := by
      cases hkept.stream with
      | before hnone =>
        obtain ⟨e', he', -, hadd⟩ := hadded
        have hadds := hnone e' he'
        rw [adds_of_performed hadd] at hadds
        cases hadds
      | after _ hfresh => exact hfresh
    obtain ⟨id, hid⟩ := hfresh
    refine ⟨e.caller, job, id, hr, hid, fun j r' hr' => ?_⟩
    obtain ⟨result, rfl, hreturned'⟩ := result_of_done hsound hr'
    refine ⟨result, rfl, ?_, fun henqueued => ?_⟩
    · obtain ⟨e', he', other, hother, hsame⟩ := known_of_returned hreturned'
      exact hsame ▸ congrArg VideoJob.jobId (hkept.eq_of_stored ⟨e', he', rfl, hother⟩).2
    · unfold returned at hreturned'
      rw [if_pos henqueued] at hreturned'
      exact (hkept.eq_of_stored hreturned'.1).1

end

/-! ### Two runs -/

def chooseAnswer : Chooser Caller World Choice Ans PyException := fun i s op choice =>
  (choose i s op choice).filter fun result => result.1.Answered

theorem chooseAnswer_within : chooseAnswer.Within Unfailing := by
  intro i s op choice o s' h
  obtain ⟨hchosen, hanswered⟩ := Option.filter_eq_some_iff.mp h
  exact ⟨choose_within _ _ _ _ _ _ hchosen, of_decide_eq_true hanswered⟩

instance (work : String × String × String) (s : World) (op : Op) : Decidable (FindsOwn work s op) :=
  match op with
  | .hgetall key =>
    match hfound : s.kv.hashes key with
    | none => .isTrue fun job hjob => by
        rw [hfound] at hjob
        cases hjob
    | some job =>
      if hwork : job.triple = work then .isTrue fun other hother => by
        rw [hfound] at hother
        exact Option.some.inj hother ▸ hwork
      else .isFalse fun h => hwork (h job hfound)
  | .now | .uuid4 | .get _ | .writes _ | .xgroupCreate | .xreadgroup _ | .selectJob _
  | .selectResult _ | .selectLatestResult _ | .execute _ _ | .commit _ | .prepareJobDir _
  | .downloadVideo _ | .probe _ _ | .ffmpeg _ | .moderateImages _ | .postMove _ _ | .cleanupDir _ =>
    .isTrue trivial

instance (work : String × String × String) (past : Past) (e : Call) :
    Decidable (LookedAfter work past e) :=
  inferInstanceAs (Decidable (stores e = true → ∀ f ∈ past, stores f = true →
    f.caller ≠ e.caller → ∃ g ∈ beforeLook work e.caller past,
      g.caller = f.caller ∧ names work g = true))

instance (work : String × String × String) (c : Moment) (l : Label Caller Ans PyException)
    (c' : Moment) : Decidable (WindowsApart work c l c') :=
  match l with
  | .call e => inferInstanceAs (Decidable (FindsOwn work c.state e.op ∧ LookedAfter work c.history e))
  | .start _ | .kill _ => .isTrue trivial

/-- The same work under another id. -/
def otherRequest : VideoDetectRequest :=
  { sampleRequest with jobId := "other-job", jobId_ne := otherJob_ne }

/-- The second request begins while the first one stores its job, but looks at the index later. -/
def secondLooksLater : Script :=
  .start (.api 0) (apiProgram {} sampleRequest) :: calls (.api 0) 3 clean ++
    .start (.api 1) (apiProgram {} otherRequest) :: calls (.api 1) 1 clean ++
    (calls (.api 0) 2 clean ++ calls (.api 1) 1 clean ++ calls (.api 0) 2 clean ++
      calls (.api 1) 2 clean)

/-- Both requests look before either stores its job. -/
def bothLookFirst : Script :=
  .start (.api 0) (apiProgram {} sampleRequest) :: calls (.api 0) 2 clean ++
    .start (.api 1) (apiProgram {} otherRequest) :: calls (.api 1) 7 clean ++ calls (.api 0) 5 clean

theorem legal_secondLooksLater :
    ∀ t ∈ secondLooksLater, t.Legal (Requests {} sampleRequest.triple) := by
  refine List.forall_mem_append.mpr ⟨List.forall_mem_append.mpr ⟨legal_thenCalls ?_, legal_thenCalls ?_⟩,
    ?_⟩
  · exact ⟨sampleRequest, rfl, rfl⟩
  · exact ⟨otherRequest, rfl, rfl⟩
  · simp only [List.mem_append]
    rintro t (((ht | ht) | ht) | ht) <;> exact legal_calls t ht

theorem legal_bothLookFirst : ∀ t ∈ bothLookFirst, t.Legal (Requests {} sampleRequest.triple) := by
  refine List.forall_mem_append.mpr ⟨List.forall_mem_append.mpr ⟨legal_thenCalls ?_, legal_thenCalls ?_⟩,
    legal_calls⟩
  · exact ⟨sampleRequest, rfl, rfl⟩
  · exact ⟨otherRequest, rfl, rfl⟩

def resultOf (i : Caller) (c : Moment) : Option EnqueueResult :=
  match c.threads i with
  | .running (.done (.ok (.enqueued result))) => some result
  | _ => none

theorem done_of_resultOf {i : Caller} {c : Moment} {result : EnqueueResult}
    (h : resultOf i c = some result) : c.threads i = .running (.done (.ok (.enqueued result))) := by
  unfold resultOf at h
  split at h
  · next hthread => exact Option.some.inj h ▸ hthread
  · cases h

/-- If only two callers take turns and both have a result, all are done. -/
theorem allDone_of_play {cond : StepCond Caller World Ans PyException Reply}
    [∀ c l c', Decidable (cond c l c')] {script : Script} {c : Moment}
    (hplay : play chooseAnswer cond script (.initial {}) = some c)
    (hcallers : ∀ t ∈ script, t.caller = .api 0 ∨ t.caller = .api 1)
    (h₀ : (resultOf (.api 0) c).isSome) (h₁ : (resultOf (.api 1) c).isSome) : AllDone c := by
  have hdone : ∀ {i}, (resultOf i c).isSome → ∃ r, c.threads i = .running (.done r) := by
    intro i h
    obtain ⟨result, hresult⟩ := Option.isSome_iff_exists.mp h
    exact ⟨_, done_of_resultOf hresult⟩
  intro i
  by_cases hi₀ : i = .api 0
  · exact .inr (hi₀ ▸ hdone h₀)
  · by_cases hi₁ : i = .api 1
    · exact .inr (hi₁ ▸ hdone h₁)
    · refine .inl ((play_other hplay fun t ht heq => ?_).trans rfl)
      exact (hcallers t ht).elim (fun h => hi₀ (heq ▸ h)) fun h => hi₁ (heq ▸ h)

theorem callers_of_script {script : Script}
    (h : (script.all fun t => decide (t.caller = .api 0 ∨ t.caller = .api 1)) = true) :
    ∀ t ∈ script, t.caller = .api 0 ∨ t.caller = .api 1 :=
  fun t ht => of_decide_eq_true (List.all_eq_true.mp h t ht)

/-- The second request gets the job of the first. -/
theorem second_looks_later : ∃ c, ReachVia (Requests {} sampleRequest.triple) Unfailing
    (WindowsApart sampleRequest.triple) {} c ∧ OneJob {} c := by
  have hplay : ((play chooseAnswer (WindowsApart sampleRequest.triple) secondLooksLater
      (.initial {})).any fun c => (resultOf (.api 0) c).isSome && (resultOf (.api 1) c).isSome) = true := by
    decide +kernel
  obtain ⟨c, hc, hresults⟩ := (Option.any_eq_true _ _).mp hplay
  rw [Bool.and_eq_true] at hresults
  have hrun := play_run chooseAnswer_within legal_secondLooksLater hc .init
  refine ⟨c, hrun, concurrent_enqueue (fun _ _ h => by cases h) rfl hrun ⟨.api 0, ?_⟩
    (allDone_of_play hc (callers_of_script (by decide +kernel)) hresults.1 hresults.2)⟩
  obtain ⟨result, hresult⟩ := Option.isSome_iff_exists.mp hresults.1
  rw [done_of_resultOf hresult]
  exact nofun

/-- Both requests are enqueued, each with an entry of its own. -/
theorem both_enqueued : ∃ c, Reach (Requests {} sampleRequest.triple) Unfailing {} c ∧ AllDone c ∧
    (∃ first second, c.threads (.api 0) = .running (.done (.ok (.enqueued first))) ∧
      c.threads (.api 1) = .running (.done (.ok (.enqueued second))) ∧
      first.enqueued = true ∧ second.enqueued = true ∧ first.job.jobId ≠ second.job.jobId) ∧
    c.state.kv.fresh.length = 2 ∧ ¬ OneJob {} c := by
  have hplay : ((play chooseAnswer (fun _ _ _ => True) bothLookFirst (.initial {})).any fun c =>
      (resultOf (.api 0) c).map (fun r => (r.job.jobId, r.enqueued)) = some ("job", true) ∧
      (resultOf (.api 1) c).map (fun r => (r.job.jobId, r.enqueued)) = some ("other-job", true) ∧
      c.state.kv.fresh.length = 2) = true := by
    decide +kernel
  obtain ⟨c, hc, hresults⟩ := (Option.any_eq_true _ _).mp hplay
  obtain ⟨h₀, h₁, hlength⟩ := of_decide_eq_true hresults
  obtain ⟨first, hfirst, hfirst'⟩ := Option.map_eq_some_iff.mp h₀
  obtain ⟨second, hsecond, hsecond'⟩ := Option.map_eq_some_iff.mp h₁
  obtain ⟨hid₀, henq₀⟩ := Prod.mk.inj hfirst'
  obtain ⟨hid₁, henq₁⟩ := Prod.mk.inj hsecond'
  have hrun := play_run chooseAnswer_within legal_bothLookFirst hc .init
  refine ⟨c, hrun, allDone_of_play hc (callers_of_script (by decide +kernel)) ?_ ?_,
    ⟨first, second, done_of_resultOf hfirst, done_of_resultOf hsecond, henq₀, henq₁, ?_⟩, hlength, ?_⟩
  · rw [hfirst]
    rfl
  · rw [hsecond]
    rfl
  · rw [hid₀, hid₁]
    decide
  · rintro ⟨_, _, _, _, hfresh, _⟩
    rw [hfresh] at hlength
    cases hlength

end Enqueuing

end NsfwDetector
