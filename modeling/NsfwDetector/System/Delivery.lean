import NsfwDetector.System.Past
import NsfwDetector.System.Callers

/-!
# The rules of delivery

A worker may acknowledge a message once it has settled it: the last thing it saw of the job or did
to it was its end, or a new entry for it. Everyone else keeps away from its messages.
-/

namespace NsfwDetector.Delivery

open Effects

/-! ## Messages -/

def Waiting (s : World) (jobId : String) : Prop := ∃ entry ∈ s.kv.fresh, entry.message.jobId = jobId

/-- Caller `i` has read a message for the job and has not acknowledged it. -/
def Holds (s : World) (i : Caller) (jobId : String) : Prop :=
  ∃ entry, (entry, i) ∈ s.kv.pending ∧ entry.message.jobId = jobId

def Unfinished (s : World) (jobId : String) : Prop :=
  ∃ job, s.kv.hashes (jobKey jobId) = some job ∧ ¬ job.status.Terminal

def Entered (past : Past) (jobId : String) : Prop :=
  ∃ e ∈ past, ∃ payload, Performed (.xadd jobId payload) e

/-! ## What a caller has settled -/

/-- `true` if the command ends what its caller owes the job, `false` if it takes the job up. -/
def commandWord (jobId : String) : Command → Option Bool
  | .hset key job => if key = jobKey jobId then some (decide job.status.Terminal) else none
  | .xadd other _ => if other = jobId then some true else none
  | .xack _ => some false
  | _ => none

/-- The same for a call. Whoever finds a job ended, or gone, owes it nothing. -/
def word (jobId : String) : Call → Option Bool
  | ⟨_, .hgetall key, .answered found⟩ =>
    if key = jobKey jobId then some (found.all fun job => decide job.status.Terminal) else none
  | ⟨_, .writes commands, o⟩ =>
    if o.TookEffect then commands.findSome? (commandWord jobId) else none
  | ⟨_, .xreadgroup _, o⟩ => if o.TookEffect then some false else none
  | _ => none

def Settled (i : Caller) (jobId : String) (past : Past) : Prop :=
  (past.filter (·.caller = i)).findSome? (word jobId) = some true

section

variable {i j : Caller} {jobId : String} {past : Past} {op : Op} {o : Outcome PyException (Ans op)}

theorem settled_other (h : j ≠ i) : Settled i jobId (⟨j, op, o⟩ :: past) ↔ Settled i jobId past := by
  simp [Settled, h]

theorem settled_of_word {b : Bool} (h : word jobId ⟨i, op, o⟩ = some b) :
    Settled i jobId (⟨i, op, o⟩ :: past) ↔ b = true := by
  simp [Settled, h]

theorem settled_of_silent (h : word jobId ⟨i, op, o⟩ = none) :
    Settled i jobId (⟨i, op, o⟩ :: past) ↔ Settled i jobId past := by
  simp [Settled, h]

end

/-! ## What a caller may do -/

def Aside : Command → Prop
  | .set _ _ | .setRuntime _ _ | .rpush _ _ | .xaddDlq _ => True
  | _ => False

inductive WritesOk (settings : Settings) (i : Caller) (s : World) (past : Past) : List Command → Prop
  /-- A new status of a job: by whoever holds a message for it, or a terminal one. -/
  | status {job : VideoJob} (hid : job.jobId ≠ "") (hknown : s.kv.hashes (jobKey job.jobId) ≠ none)
      (h : job.status.Terminal ∨ Holds s i job.jobId) :
      WritesOk settings i s past [.hset (jobKey job.jobId) job]
  /-- In a cluster a new job is stored on its own. -/
  | newHash {job : VideoJob} {nr : Nat} (hid : job.jobId ≠ "") (hi : i = .api nr)
      (hcluster : settings.kvrocksClusterEnabled = true) :
      WritesOk settings i s past [.hset (jobKey job.jobId) job]
  | newJob {job : VideoJob} {key value key' value' : String} (hid : job.jobId ≠ "") :
      WritesOk settings i s past
        [.hset (jobKey job.jobId) job, .set key value, .set key' value', .xadd job.jobId job]
  | entry {job : VideoJob} (hid : job.jobId ≠ "") :
      WritesOk settings i s past [.xadd job.jobId job]
  | ack {entry : StreamEntry} (hmem : (entry, i) ∈ s.kv.pending)
      (hsettled : Settled i entry.message.jobId past) : WritesOk settings i s past [.xack entry.id]
  | index {key jobId : String} (hknown : s.kv.hashes (jobKey jobId) ≠ none) :
      WritesOk settings i s past [.setNx key jobId]
  | aside {commands : List Command} (h : ∀ command ∈ commands, Aside command) :
      WritesOk settings i s past commands

def May (settings : Settings) (i : Caller) (s : World) (past : Past) : Op → Prop
  | .writes commands => WritesOk settings i s past commands
  | .xreadgroup _ => ∃ nr, i = .worker nr
  | _ => True

/-! ## What a call does to jobs and stream -/

structure Same (s s' : World) : Prop where
  hashes : s'.kv.hashes = s.kv.hashes
  fresh : s'.kv.fresh = s.kv.fresh
  pending : s'.kv.pending = s.kv.pending
  nextId : s'.kv.nextId = s.kv.nextId

def added (kv : Kvrocks Caller) (job : VideoJob) : Kvrocks Caller :=
  kv.apply (.xadd job.jobId job)

def stored (kv : Kvrocks Caller) (job : VideoJob) : Kvrocks Caller :=
  kv.apply (.hset (jobKey job.jobId) job)

/-- What a permitted call of caller `i` does. -/
inductive Moves (settings : Settings) (i : Caller) (s : World) (past : Past) :
    (op : Op) → Outcome PyException (Ans op) → World → Prop
  | quiet {op : Op} {o : Outcome PyException (Ans op)} {s' : World} (hsame : Same s s')
      (hadds : ∀ jobId payload, ¬ Performed (.xadd jobId payload) ⟨i, op, o⟩)
      (hword : ∀ jobId, word jobId ⟨i, op, o⟩ = some true → ¬ Unfinished s' jobId) :
      Moves settings i s past op o s'
  | status {job : VideoJob} {o : Outcome PyException (Ans (.writes [.hset (jobKey job.jobId) job]))}
      (heffect : o.TookEffect) (hid : job.jobId ≠ "")
      (hknown : s.kv.hashes (jobKey job.jobId) ≠ none)
      (h : job.status.Terminal ∨ Holds s i job.jobId) :
      Moves settings i s past (.writes [.hset (jobKey job.jobId) job]) o
        { s with kv := stored s.kv job }
  | newHash {job : VideoJob} {nr : Nat}
      {o : Outcome PyException (Ans (.writes [.hset (jobKey job.jobId) job]))}
      (heffect : o.TookEffect) (hid : job.jobId ≠ "") (hi : i = .api nr)
      (hcluster : settings.kvrocksClusterEnabled = true) :
      Moves settings i s past (.writes [.hset (jobKey job.jobId) job]) o
        { s with kv := stored s.kv job }
  | newJob {job : VideoJob} {key value key' value' : String}
      {o : Outcome PyException (Ans (.writes
        [.hset (jobKey job.jobId) job, .set key value, .set key' value', .xadd job.jobId job]))}
      {s' : World} (heffect : o.TookEffect) (hid : job.jobId ≠ "")
      (hsame : Same { s with kv := added (stored s.kv job) job } s') :
      Moves settings i s past (.writes
        [.hset (jobKey job.jobId) job, .set key value, .set key' value', .xadd job.jobId job]) o s'
  | entry {job : VideoJob} {o : Outcome PyException (Ans (.writes [.xadd job.jobId job]))}
      (heffect : o.TookEffect) (hid : job.jobId ≠ "") :
      Moves settings i s past (.writes [.xadd job.jobId job]) o { s with kv := added s.kv job }
  | ack {entry : StreamEntry} {o : Outcome PyException (Ans (.writes [.xack entry.id]))}
      (heffect : o.TookEffect) (hmem : (entry, i) ∈ s.kv.pending)
      (hsettled : Settled i entry.message.jobId past) :
      Moves settings i s past (.writes [.xack entry.id]) o
        { s with kv := s.kv.apply (.xack entry.id) }
  | read {count : Int} {nr : Nat} {o : Outcome PyException (Ans (.xreadgroup count))}
      (heffect : o.TookEffect) (hi : i = .worker nr) :
      Moves settings i s past (.xreadgroup count) o { s with kv := s.kv.xreadgroup i count }

theorem Same.refl (s : World) : Same s s := ⟨rfl, rfl, rfl, rfl⟩

section

variable {settings : Settings} {i : Caller} {s s' : World} {past : Past} {op : Op}
  {o : Outcome PyException (Ans op)}

theorem apply_aside (kv : Kvrocks Caller) {command : Command} (h : Aside command) :
    (kv.apply command).hashes = kv.hashes ∧ (kv.apply command).fresh = kv.fresh ∧
      (kv.apply command).pending = kv.pending ∧ (kv.apply command).nextId = kv.nextId := by
  cases command <;> first | exact ⟨rfl, rfl, rfl, rfl⟩ | exact h.elim

theorem applyAll_aside {commands : List Command} (h : ∀ command ∈ commands, Aside command) :
    Same s { s with kv := s.kv.applyAll commands } := by
  suffices ∀ kv : Kvrocks Caller, (kv.applyAll commands).hashes = kv.hashes ∧
      (kv.applyAll commands).fresh = kv.fresh ∧ (kv.applyAll commands).pending = kv.pending ∧
      (kv.applyAll commands).nextId = kv.nextId from
    ⟨(this s.kv).1, (this s.kv).2.1, (this s.kv).2.2.1, (this s.kv).2.2.2⟩
  induction commands with
  | nil => exact fun kv => ⟨rfl, rfl, rfl, rfl⟩
  | cons command rest ih =>
    intro kv
    obtain ⟨hhashes, hfresh, hpending, hnext⟩ := apply_aside kv (h command List.mem_cons_self)
    obtain ⟨h₁, h₂, h₃, h₄⟩ := ih (fun c hc => h c (List.mem_cons_of_mem _ hc)) (kv.apply command)
    rw [Kvrocks.applyAll_cons]
    exact ⟨h₁.trans hhashes, h₂.trans hfresh, h₃.trans hpending, h₄.trans hnext⟩

theorem quiet_of_notWrites (hsame : Same s s') (hop : ∀ commands, op ≠ .writes commands)
    (hword : ∀ jobId, word jobId ⟨i, op, o⟩ = some true → ¬ Unfinished s' jobId) :
    Moves settings i s past op o s' :=
  .quiet hsame (fun _ _ ⟨commands, h, _⟩ => hop commands h) hword

theorem word_of_not_tookEffect {jobId : String} (h : ¬ o.TookEffect) :
    word jobId ⟨i, op, o⟩ = none := by
  cases o with
  | answered | lost => exact absurd trivial h
  | refused | failed => cases op <;> simp [word]

theorem quiet_of_not_tookEffect (h : ¬ o.TookEffect) : Moves settings i s past op o s := by
  refine .quiet (.refl s) (fun _ _ ⟨_, _, _, heffect⟩ => h heffect) fun jobId hword => ?_
  rw [word_of_not_tookEffect h] at hword
  cases hword

theorem quiet_writes {commands : List Command} {o : Outcome PyException (Ans (.writes commands))}
    (hsame : Same s s') (hword : ∀ jobId, ∀ command ∈ commands, commandWord jobId command = none) :
    Moves settings i s past (.writes commands) o s' := by
  refine .quiet hsame ?_ fun jobId h => ?_
  · intro jobId payload hperformed
    have hnone := hword jobId _ (performed_writes.mp hperformed).1
    simp [commandWord] at hnone
  · have hnone : commands.findSome? (commandWord jobId) = none :=
      List.findSome?_eq_none_iff.mpr (hword jobId)
    simp [word, hnone] at h

theorem moves_of_writes {commands : List Command} {o : Outcome PyException (Ans (.writes commands))}
    (hmay : WritesOk settings i s past commands) (heffect : o.TookEffect) :
    Moves settings i s past (.writes commands) o { s with kv := s.kv.applyAll commands } := by
  cases hmay with
  | status hid hknown h => exact .status heffect hid hknown h
  | newHash hid hi hcluster => exact .newHash heffect hid hi hcluster
  | newJob hid => exact .newJob heffect hid ⟨rfl, rfl, rfl, rfl⟩
  | entry hid => exact .entry heffect hid
  | ack hmem hsettled => exact .ack heffect hmem hsettled
  | index hknown =>
    refine quiet_writes ?_ fun jobId command hc => by rw [List.mem_singleton.mp hc]; rfl
    simp only [Kvrocks.applyAll, List.foldl_cons, List.foldl_nil, Kvrocks.apply]
    split <;> exact ⟨rfl, rfl, rfl, rfl⟩
  | aside h =>
    refine quiet_writes (applyAll_aside h) fun jobId command hc => ?_
    have haside := h command hc
    cases command <;> first | rfl | exact haside.elim

theorem moves (hmay : May settings i s past op) (hdoes : Does i s op o s') :
    Moves settings i s past op o s' := by
  by_cases heffect : o.TookEffect
  · cases op with
    | writes commands =>
      obtain rfl := hdoes.writes heffect
      exact moves_of_writes hmay heffect
    | xreadgroup count =>
      obtain ⟨nr, hi⟩ := hmay
      obtain rfl := hdoes.xreadgroup heffect
      exact .read heffect hi
    | hgetall key =>
      cases hdoes.change
      refine quiet_of_notWrites (.refl s) (by simp) fun jobId hword => ?_
      cases o with
      | answered found =>
        obtain ⟨rfl, -⟩ := hdoes
        simp only [word] at hword
        split at hword
        · next hkey =>
          rintro ⟨job, hjob, hopen⟩
          subst hkey
          rw [hjob] at hword
          simp [hopen] at hword
        · cases hword
      | refused | failed | lost => simp [word] at hword
    | xgroupCreate =>
      refine quiet_of_notWrites ?_ (by simp) fun jobId hword => by simp [word] at hword
      cases hdoes.change <;> exact ⟨rfl, rfl, rfl, rfl⟩
    | commit tx =>
      refine quiet_of_notWrites ?_ (by simp) fun jobId hword => by simp [word] at hword
      cases hdoes.change <;> exact ⟨rfl, rfl, rfl, rfl⟩
    | _ =>
      cases hdoes.change
      exact quiet_of_notWrites (.refl s) (by simp) fun jobId hword => by simp [word] at hword
  · obtain rfl := hdoes.of_not_tookEffect heffect
    exact quiet_of_not_tookEffect heffect

end

/-! ## What stays true -/

/-- The ids of the entries that wait or are pending. -/
def entryIds (kv : Kvrocks Caller) : List Nat := kv.fresh.map (·.id) ++ kv.pending.map (·.1.id)

structure Orderly (settings : Settings) (s : World) (past : Past) : Prop where
  ids : (entryIds s.kv).Nodup
  below : ∀ id ∈ entryIds s.kv, id < s.kv.nextId
  waiting : ∀ entry ∈ s.kv.fresh, entry.message.jobId ≠ ""
  held : ∀ entry i, (entry, i) ∈ s.kv.pending →
    entry.message.jobId ≠ "" ∧ (∃ nr, i = .worker nr) ∧ ∃ e ∈ past, e.caller = i
  hashes : ∀ key job, s.kv.hashes key = some job → key = jobKey job.jobId ∧ job.jobId ≠ ""
  /-- Outside a cluster a job and its entry come together. -/
  entered : settings.kvrocksClusterEnabled = false → ∀ key job, s.kv.hashes key = some job →
    Entered past job.jobId

theorem orderly_empty (settings : Settings) : Orderly settings {} [] where
  ids := List.nodup_nil
  below _ h := absurd h List.not_mem_nil
  waiting _ h := absurd h List.not_mem_nil
  held _ _ h := absurd h List.not_mem_nil
  hashes _ _ h := by cases h
  entered _ _ _ h := by cases h

section

variable {settings : Settings} {i : Caller} {s s' : World} {past : Past} {op : Op}
  {o : Outcome PyException (Ans op)} {job : VideoJob} {jobId : String}

theorem message_jobId (entry : StreamEntry) (h : entry.jobId ≠ "") :
    entry.message.jobId = entry.jobId := by
  simp [StreamEntry.message, h]

theorem waiting_of_same (hsame : Same s s') (h : Waiting s jobId) : Waiting s' jobId := by
  unfold Waiting at h ⊢
  rwa [hsame.fresh]

theorem waiting_added (hid : job.jobId ≠ "") : Waiting { s with kv := added s.kv job } job.jobId := by
  refine ⟨⟨s.kv.nextId, job.jobId, job.stored⟩, List.mem_append_right _ List.mem_cons_self, ?_⟩
  exact message_jobId _ hid

theorem Entered.mono {e : Call} (h : Entered past jobId) : Entered (e :: past) jobId := by
  obtain ⟨e', he, hadd⟩ := h
  exact ⟨e', List.mem_cons_of_mem _ he, hadd⟩

theorem pending_unique (hord : Orderly settings s past) {x y : StreamEntry × Caller}
    (hx : x ∈ s.kv.pending) (hy : y ∈ s.kv.pending) (h : x.1.id = y.1.id) : x = y := by
  have hnodup := (List.nodup_append.mp hord.ids).2.1
  exact List.inj_on_of_nodup_map hnodup hx hy h

/-! ### Entries, words and statuses -/

theorem waiting_of_entered (hmoves : Moves settings i s past op o s') {payload : VideoJob}
    (hadd : Performed (.xadd jobId payload) ⟨i, op, o⟩) : Waiting s' jobId := by
  cases hmoves with
  | quiet _ hadds => exact absurd hadd (hadds _ _)
  | status | newHash | ack => simp [performed_writes] at hadd
  | newJob _ hid hsame =>
    have hmem := (performed_writes.mp hadd).1
    simp only [List.mem_cons, List.not_mem_nil, reduceCtorEq, Command.xadd.injEq, false_or,
      or_false] at hmem
    rw [hmem.1]
    exact waiting_of_same hsame (waiting_added hid)
  | entry _ hid =>
    have hmem := (performed_writes.mp hadd).1
    simp only [List.mem_singleton, Command.xadd.injEq] at hmem
    rw [hmem.1]
    exact waiting_added hid
  | read =>
    obtain ⟨_, heq, -⟩ := hadd
    cases heq

theorem unfinished_stored (kv : Kvrocks Caller) :
    Unfinished { s with kv := stored kv job } jobId ↔
      if jobId = job.jobId then ¬ job.status.Terminal else Unfinished { s with kv := kv } jobId := by
  unfold Unfinished stored Kvrocks.apply
  by_cases h : jobId = job.jobId
  · simp [h]
  · have hkey : jobKey jobId ≠ jobKey job.jobId := fun heq => h (jobKey_injective heq)
    simp [h, hkey]

theorem commandWord_hset (jobId : String) :
    commandWord jobId (.hset (jobKey job.jobId) job) =
      if jobId = job.jobId then some (decide job.status.Terminal) else none := by
  unfold commandWord
  by_cases h : jobId = job.jobId
  · simp [h]
  · have hkey : jobKey job.jobId ≠ jobKey jobId := fun heq => h (jobKey_injective heq).symm
    simp [h, hkey]

/-- Whoever has settled a job that is not at its end has a new entry for it in the stream. -/
theorem waiting_of_settles (hmoves : Moves settings i s past op o s')
    (hword : word jobId ⟨i, op, o⟩ = some true) (hopen : Unfinished s' jobId) :
    Waiting s' jobId := by
  cases hmoves with
  | quiet _ _ hquiet => exact absurd hopen (hquiet _ hword)
  | status heffect | newHash heffect =>
    simp only [word, if_pos heffect, List.findSome?_singleton, commandWord_hset] at hword
    rw [unfinished_stored] at hopen
    split at hword
    · next hid =>
      rw [if_pos hid] at hopen
      exact absurd (of_decide_eq_true (Option.some.inj hword)) hopen
    · cases hword
  | @newJob job _ _ _ _ _ _ heffect hid hsame =>
    have hjob : jobId = job.jobId := by
      by_contra hne
      have hkey : jobKey job.jobId ≠ jobKey jobId := fun heq => hne (jobKey_injective heq).symm
      simp [word, heffect, List.findSome?_cons, commandWord, hkey, Ne.symm hne] at hword
    rw [hjob]
    exact waiting_of_same hsame (waiting_added hid)
  | @entry job _ heffect hid =>
    have hjob : job.jobId = jobId := by
      by_contra hne
      simp [word, heffect, commandWord, hne] at hword
    rw [← hjob]
    exact waiting_added hid
  | ack heffect | read heffect => simp [word, heffect, commandWord] at hword

theorem waiting_stays (hmoves : Moves settings i s past op o s') (hop : ∀ count, op ≠ .xreadgroup count)
    (h : Waiting s jobId) : Waiting s' jobId := by
  cases hmoves with
  | quiet hsame => exact waiting_of_same hsame h
  | status | newHash | ack => exact h
  | newJob _ _ hsame =>
    obtain ⟨entry, hentry, hid⟩ := h
    exact waiting_of_same hsame ⟨entry, List.mem_append_left _ hentry, hid⟩
  | entry =>
    obtain ⟨entry, hentry, hid⟩ := h
    exact ⟨entry, List.mem_append_left _ hentry, hid⟩
  | read => exact absurd rfl (hop _)

theorem waiting_read (count : Int) (h : Waiting s jobId) :
    Waiting { s with kv := s.kv.xreadgroup i count } jobId ∨
      ∃ entry ∈ s.kv.delivered count, entry.message.jobId = jobId := by
  obtain ⟨entry, hentry, hid⟩ := h
  rw [← s.kv.delivered_append i count] at hentry
  rcases List.mem_append.mp hentry with htaken | hleft
  · exact .inr ⟨entry, htaken, hid⟩
  · exact .inl ⟨entry, hleft, hid⟩

theorem waiting_moves (hmoves : Moves settings i s past op o s') (h : Waiting s jobId) :
    Waiting s' jobId ∨ Holds s' i jobId ∧ word jobId ⟨i, op, o⟩ = some false := by
  by_cases hop : ∃ count, op = .xreadgroup count
  · obtain ⟨count, rfl⟩ := hop
    cases hmoves with
    | quiet hsame => exact .inl (waiting_of_same hsame h)
    | read heffect =>
      refine (waiting_read count h).imp_right ?_
      rintro ⟨entry, htaken, hid⟩
      refine ⟨⟨entry, List.mem_append_right _ (List.mem_map_of_mem htaken), hid⟩, ?_⟩
      simp [word, heffect]
  · exact .inl (waiting_stays hmoves (fun count heq => hop ⟨count, heq⟩) h)

/-- A message is put away only by its holder, and once it is settled. -/
theorem pending_moves (hord : Orderly settings s past) (hmoves : Moves settings i s past op o s')
    {entry : StreamEntry} {w : Caller} (h : (entry, w) ∈ s.kv.pending) :
    (entry, w) ∈ s'.kv.pending ∨ w = i ∧ Settled i entry.message.jobId past := by
  cases hmoves with
  | quiet hsame => exact .inl (hsame.pending ▸ h)
  | status | newHash | entry => exact .inl h
  | newJob _ _ hsame => exact .inl (hsame.pending ▸ h)
  | read => exact .inl (List.mem_append_left _ h)
  | @ack acked o heffect hmem hsettled =>
    by_cases hid : entry.id = acked.id
    · have heq := pending_unique hord h hmem hid
      cases heq
      exact .inr ⟨rfl, hsettled⟩
    · exact .inl (List.mem_filter.mpr ⟨h, by simpa using hid⟩)

theorem unfinished_moves (hmoves : Moves settings i s past op o s') (h : Unfinished s' jobId) :
    Unfinished s jobId ∨ Waiting s' jobId ∨
      (Holds s' i jobId ∧ word jobId ⟨i, op, o⟩ = some false) ∨
      settings.kvrocksClusterEnabled = true ∧ (∃ nr, i = .api nr) ∧
        ∃ job, Performed (.hset (jobKey jobId) job) ⟨i, op, o⟩ := by
  cases hmoves with
  | quiet hsame =>
    left
    unfold Unfinished at h ⊢
    rwa [hsame.hashes] at h
  | @status job o heffect _ _ hholds =>
    by_cases hid : jobId = job.jobId
    · subst hid
      rw [unfinished_stored, if_pos rfl] at h
      refine .inr (.inr (.inl ⟨hholds.resolve_left h, ?_⟩))
      simp [word, heffect, commandWord_hset, h]
    · rw [unfinished_stored, if_neg hid] at h
      exact .inl h
  | @newHash job nr o heffect _ hi hcluster =>
    by_cases hid : jobId = job.jobId
    · subst hid
      refine .inr (.inr (.inr ⟨hcluster, ⟨nr, hi⟩, job, ?_⟩))
      exact performed_writes.mpr ⟨List.mem_singleton_self _, heffect⟩
    · rw [unfinished_stored, if_neg hid] at h
      exact .inl h
  | @newJob job _ _ _ _ o s' heffect hid hsame =>
    by_cases hjob : jobId = job.jobId
    · exact .inr (.inl (hjob ▸ waiting_of_same hsame (waiting_added hid)))
    · left
      have hstored : Unfinished { s with kv := stored s.kv job } jobId := by
        unfold Unfinished at h ⊢
        rwa [hsame.hashes] at h
      rw [unfinished_stored, if_neg hjob] at hstored
      exact hstored
  | entry | ack | read => exact .inl h

/-! ### Calls keep order -/

theorem Orderly.later {e : Call} (h : Orderly settings s past) : Orderly settings s (e :: past) where
  ids := h.ids
  below := h.below
  waiting := h.waiting
  held entry i hmem := by
    obtain ⟨hid, hworker, e', he, hcaller⟩ := h.held entry i hmem
    exact ⟨hid, hworker, e', List.mem_cons_of_mem _ he, hcaller⟩
  hashes := h.hashes
  entered hcluster key job hjob := (h.entered hcluster key job hjob).mono

theorem Orderly.same (hsame : Same s s') (h : Orderly settings s past) : Orderly settings s' past := by
  have hids : entryIds s'.kv = entryIds s.kv := by
    unfold entryIds
    rw [hsame.fresh, hsame.pending]
  refine ⟨hids ▸ h.ids, ?_, ?_, ?_, ?_, ?_⟩
  · rw [hids, hsame.nextId]
    exact h.below
  · rw [hsame.fresh]
    exact h.waiting
  · rw [hsame.pending]
    exact h.held
  · rw [hsame.hashes]
    exact h.hashes
  · rw [hsame.hashes]
    exact h.entered

theorem Orderly.stored (hid : job.jobId ≠ "")
    (hentered : settings.kvrocksClusterEnabled = false → Entered past job.jobId)
    (h : Orderly settings s past) : Orderly settings { s with kv := stored s.kv job } past := by
  have hhash : ∀ key found, (Delivery.stored s.kv job).hashes key = some found →
      s.kv.hashes key = some found ∨ key = jobKey job.jobId ∧ found = job.stored := by
    intro key found hfound
    change Function.update s.kv.hashes (jobKey job.jobId) (some job.stored) key = _ at hfound
    by_cases hkey : key = jobKey job.jobId
    · subst hkey
      rw [Function.update_self] at hfound
      exact .inr ⟨rfl, (Option.some.inj hfound).symm⟩
    · rw [Function.update_of_ne hkey] at hfound
      exact .inl hfound
  refine ⟨h.ids, h.below, h.waiting, h.held, fun key found hfound => ?_,
    fun hcluster key found hfound => ?_⟩
  · rcases hhash key found hfound with hold | ⟨rfl, rfl⟩
    · exact h.hashes key found hold
    · exact ⟨rfl, hid⟩
  · rcases hhash key found hfound with hold | ⟨rfl, rfl⟩
    · exact h.entered hcluster key found hold
    · exact hentered hcluster

theorem Orderly.added (hid : job.jobId ≠ "") (h : Orderly settings s past) :
    Orderly settings { s with kv := added s.kv job } past := by
  have hids : (entryIds (Delivery.added s.kv job)).Perm (s.kv.nextId :: entryIds s.kv) := by
    simp only [entryIds, Delivery.added, Kvrocks.apply, List.map_append, List.map_cons, List.map_nil,
      List.append_assoc, List.singleton_append]
    exact List.perm_middle
  refine ⟨?_, fun id hmem => ?_, fun entry hentry => ?_, h.held, h.hashes, h.entered⟩
  · rw [hids.nodup_iff, List.nodup_cons]
    exact ⟨fun hmem => Nat.lt_irrefl _ (h.below _ hmem), h.ids⟩
  · have hnext : (Delivery.added s.kv job).nextId = s.kv.nextId + 1 := rfl
    rw [hnext]
    rcases List.mem_cons.mp (hids.mem_iff.mp hmem) with rfl | hold
    · exact Nat.lt_succ_self _
    · exact Nat.lt_succ_of_lt (h.below id hold)
  · rcases List.mem_append.mp hentry with hold | hnew
    · exact h.waiting entry hold
    · rw [List.mem_singleton.mp hnew, message_jobId _ hid]
      exact hid

theorem Orderly.acked (id : Nat) (h : Orderly settings s past) :
    Orderly settings { s with kv := s.kv.apply (.xack id) } past := by
  have hsub : (entryIds (s.kv.apply (.xack id))).Sublist (entryIds s.kv) :=
    (List.Sublist.refl _).append (List.filter_sublist.map _)
  refine ⟨h.ids.sublist hsub, fun id hmem => h.below id (hsub.subset hmem), h.waiting,
    fun entry i hmem => h.held entry i (List.mem_of_mem_filter hmem), h.hashes, h.entered⟩

theorem Orderly.read {nr : Nat} {count : Int} (hi : i = .worker nr)
    (hcaller : ∃ e ∈ past, e.caller = i) (h : Orderly settings s past) :
    Orderly settings { s with kv := s.kv.xreadgroup i count } past := by
  have hfresh := s.kv.delivered_append i count
  have hids : (entryIds (s.kv.xreadgroup i count)).Perm (entryIds s.kv) := by
    have hpending : (s.kv.xreadgroup i count).pending =
        s.kv.pending ++ (s.kv.delivered count).map (·, i) := rfl
    unfold entryIds
    rw [hpending, ← hfresh, List.map_append, List.map_append, List.map_map, ← List.append_assoc]
    exact List.perm_append_comm.trans (by rw [List.append_assoc]; exact List.Perm.refl _)
  refine ⟨hids.nodup_iff.mpr h.ids, fun id hmem => h.below id (hids.mem_iff.mp hmem),
    fun entry hentry => h.waiting entry (hfresh ▸ List.mem_append_right _ hentry),
    fun entry w hmem => ?_, h.hashes, h.entered⟩
  rcases List.mem_append.mp hmem with hold | hnew
  · exact h.held entry w hold
  · obtain ⟨taken, htaken, heq⟩ := List.mem_map.mp hnew
    obtain ⟨rfl, rfl⟩ := Prod.mk.inj heq
    exact ⟨h.waiting _ (hfresh ▸ List.mem_append_left _ htaken), ⟨nr, hi⟩, hcaller⟩

theorem Orderly.call (h : Orderly settings s past) (hmoves : Moves settings i s past op o s') :
    Orderly settings s' (⟨i, op, o⟩ :: past) := by
  cases hmoves with
  | quiet hsame => exact h.later.same hsame
  | @status job o _ hid hknown =>
    refine h.later.stored hid fun hcluster => ?_
    obtain ⟨found, hfound⟩ := Option.ne_none_iff_exists'.mp hknown
    rw [jobKey_injective (h.hashes _ found hfound).1]
    exact (h.entered hcluster _ found hfound).mono
  | newHash _ hid _ hcluster =>
    exact h.later.stored hid fun hnot => by rw [hcluster] at hnot; cases hnot
  | @newJob job _ _ _ _ o s' heffect hid hsame =>
    have hadd : Performed (.xadd job.jobId job) ⟨i, Op.writes _, o⟩ :=
      performed_writes.mpr ⟨by simp, heffect⟩
    exact ((h.later.stored hid fun _ => ⟨_, List.mem_cons_self, job, hadd⟩).added hid).same hsame
  | entry _ hid => exact h.later.added hid
  | ack => exact h.later.acked _
  | read _ hi => exact h.later.read hi ⟨_, List.mem_cons_self, rfl⟩

end

def delivery (settings : Settings) : Discipline Caller World Ans PyException where
  does := Does
  inv := Orderly settings
  may := May settings
  inv_call hord hmay hdoes := hord.call (moves hmay hdoes)

end NsfwDetector.Delivery
