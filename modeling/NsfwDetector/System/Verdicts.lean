import NsfwDetector.System.Guarantees
import NsfwDetector.System.Repositories

/-!
# Two readers of one verdict

The runtime key of a video is written when a job is published, and the index of the video when a job
is stored. Each holds what came last, and the two need not be about the same job.
-/

namespace NsfwDetector.Publication

open Effects

/-! ## The last write -/

/-- What the call has written last of what `f` reads. -/
def written {β : Type} (f : Command → Option β) : Call → Option β
  | ⟨_, .writes commands, o⟩ => if o.TookEffect then commands.reverse.findSome? f else none
  | _ => none

/-- `e` has written `value`, and no later call has written anything that `f` reads. -/
structure LastWritten {β : Type} (f : Command → Option β) (past : Past) (value : β) (e : Call)
    (earlier : Past) : Prop where
  split : ∃ later, past = later ++ e :: earlier ∧ ∀ e' ∈ later, written f e' = none
  value : written f e = some value

/-- The value that a command puts under the runtime key. -/
def runtimeOf (key : String) : Command → Option RuntimeNsfwPayload
  | .setRuntime k payload => if k = key then some payload else none
  | _ => none

/-- The value that `SET` puts under the key. -/
def setOf (key : String) : Command → Option String
  | .set k value => if k = key then some value else none
  | _ => none

section

variable {β : Type} {f : Command → Option β} {past : Past} {value : β} {e : Call}

theorem lastWritten_cons_of_none (h : written f e = none) {e' : Call} {earlier : Past} :
    LastWritten f (e :: past) value e' earlier ↔ LastWritten f past value e' earlier := by
  constructor
  · rintro ⟨⟨later, hsplit, hlater⟩, hvalue⟩
    cases later with
    | nil =>
      obtain ⟨rfl, -⟩ := List.cons.inj hsplit
      rw [h] at hvalue
      cases hvalue
    | cons x later =>
      obtain ⟨rfl, hrest⟩ := List.cons.inj hsplit
      exact ⟨⟨later, hrest, fun e' he' => hlater e' (List.mem_cons_of_mem _ he')⟩, hvalue⟩
  · rintro ⟨⟨later, rfl, hlater⟩, hvalue⟩
    exact ⟨⟨e :: later, rfl, List.forall_mem_cons.mpr ⟨h, hlater⟩⟩, hvalue⟩

theorem lastWritten_cons_of_some {new : β} (h : written f e = some new) {e' : Call} {earlier : Past} :
    LastWritten f (e :: past) value e' earlier ↔ value = new ∧ e' = e ∧ earlier = past := by
  constructor
  · rintro ⟨⟨later, hsplit, hlater⟩, hvalue⟩
    cases later with
    | nil =>
      obtain ⟨rfl, rfl⟩ := List.cons.inj hsplit
      exact ⟨Option.some.inj (hvalue.symm.trans h), rfl, rfl⟩
    | cons x later =>
      obtain ⟨rfl, -⟩ := List.cons.inj hsplit
      rw [hlater _ List.mem_cons_self] at h
      cases h
  · rintro ⟨rfl, rfl, rfl⟩
    exact ⟨⟨[], rfl, fun _ he' => absurd he' List.not_mem_nil⟩, h⟩

theorem exists_lastWritten_cons :
    (∃ e' earlier, LastWritten f (e :: past) value e' earlier) ↔
      written f e = some value ∨ written f e = none ∧ ∃ e' earlier, LastWritten f past value e' earlier := by
  cases h : written f e with
  | none => simp [lastWritten_cons_of_none h]
  | some new => simp [lastWritten_cons_of_some h, eq_comm]

end

theorem performed_of_written {β : Type} {f : Command → Option β} {value : β} {e : Call}
    (h : written f e = some value) : ∃ command, f command = some value ∧ Performed command e := by
  unfold written at h
  split at h
  · split at h
    · next heffect =>
      obtain ⟨command, hmem, hvalue⟩ := List.exists_of_findSome?_eq_some h
      exact ⟨command, hvalue, performed_writes.mpr ⟨List.mem_reverse.mp hmem, heffect⟩⟩
    · cases h
  · cases h

/-! ## What the stores hold -/

section

variable {kv : Kvrocks Caller} {key : String}

theorem runtime_applyAll (commands : List Command) : (kv.applyAll commands).runtime key =
    (commands.reverse.findSome? (runtimeOf key)).or (kv.runtime key) := by
  induction commands generalizing kv with
  | nil => rfl
  | cons command commands ih =>
    rw [Kvrocks.applyAll_cons, ih, List.reverse_cons, List.findSome?_append, Option.or_assoc]
    congr 1
    cases command with
    | setRuntime k payload =>
      by_cases hkey : k = key
      · subst hkey
        simp [Kvrocks.apply, runtimeOf]
      · simp [Kvrocks.apply, runtimeOf, hkey, Ne.symm hkey]
    | setNx k value =>
      simp only [Kvrocks.apply]
      split <;> simp [runtimeOf]
    | _ => simp [Kvrocks.apply, runtimeOf]

theorem strings_apply {value : String} {command : Command}
    (h : (setOf key command).or (kv.strings key) = some value) :
    (kv.apply command).strings key = some value := by
  cases command with
  | set k written =>
    by_cases hkey : k = key
    · subst hkey
      simpa [Kvrocks.apply, setOf] using h
    · simpa [Kvrocks.apply, setOf, hkey, Ne.symm hkey] using h
  | setNx k written =>
    have hold : kv.strings key = some value := h
    simp only [Kvrocks.apply]
    split
    · next hnone =>
      have hkey : key ≠ k := fun heq => by simp [← heq, hold] at hnone
      simpa [hkey] using hold
    · exact hold
  | _ => exact h

theorem strings_applyAll {value : String} (commands : List Command)
    (h : (commands.reverse.findSome? (setOf key)).or (kv.strings key) = some value) :
    (kv.applyAll commands).strings key = some value := by
  induction commands generalizing kv with
  | nil => exact h
  | cons command commands ih =>
    rw [Kvrocks.applyAll_cons]
    refine ih ?_
    rw [List.reverse_cons, List.findSome?_append, Option.or_assoc] at h
    cases hlast : commands.reverse.findSome? (setOf key) with
    | some last =>
      rw [hlast] at h
      exact h
    | none =>
      rw [hlast, Option.none_or] at h
      exact strings_apply (by simpa using h)

end

variable {settings : Settings} {c : Moment}

theorem written_of_not_writes {β : Type} {f : Command → Option β} {e : Call}
    (h : (∀ commands, e.op ≠ .writes commands) ∨ ¬ e.outcome.TookEffect) : written f e = none := by
  unfold written
  split
  · exact if_neg (h.resolve_left fun hop => hop _ rfl)
  · rfl

/-- A call writes commands, or leaves keys and strings alone. -/
theorem written_step {β : Type} (f : Command → Option β) {i : Caller} {s s' : World} {op : Op}
    {o : Outcome PyException (Ans op)} (hdoes : Does i s op o s') :
    (∃ commands, s' = { s with kv := s.kv.applyAll commands } ∧
      written f ⟨i, op, o⟩ = commands.reverse.findSome? f) ∨
    s'.kv.runtime = s.kv.runtime ∧ s'.kv.strings = s.kv.strings ∧ written f ⟨i, op, o⟩ = none := by
  by_cases heffect : o.TookEffect
  · by_cases hop : ∃ commands, op = .writes commands
    · obtain ⟨commands, rfl⟩ := hop
      exact .inl ⟨commands, hdoes.writes heffect, if_pos heffect⟩
    · have hnone : written f ⟨i, op, o⟩ = none :=
        written_of_not_writes (.inl fun commands heq => hop ⟨commands, heq⟩)
      cases hdoes.change with
      | writes => exact absurd ⟨_, rfl⟩ hop
      | nothing | commit | group | read => exact .inr ⟨rfl, rfl, hnone⟩
  · obtain rfl := hdoes.of_not_tookEffect heffect
    exact .inr ⟨rfl, rfl, written_of_not_writes (.inr heffect)⟩

theorem runtime_eq_last (h : Reachable settings c) {key : String} {payload : RuntimeNsfwPayload} :
    c.state.kv.runtime key = some payload ↔
      ∃ e earlier, LastWritten (runtimeOf key) c.history payload e earlier := by
  refine always (R := fun s past => s.kv.runtime key = some payload ↔
    ∃ e earlier, LastWritten (runtimeOf key) past payload e earlier) ?_ ?_ h
  · refine iff_of_false (by simp) ?_
    rintro ⟨e, earlier, ⟨later, hsplit, -⟩, -⟩
    simp at hsplit
  · intro s past i op o s' _ _ hdoes hR
    rw [exists_lastWritten_cons, ← hR]
    rcases written_step (runtimeOf key) hdoes with ⟨commands, rfl, hwritten⟩ | ⟨hruntime, -, hnone⟩
    · rw [hwritten, runtime_applyAll, Option.or_eq_some_iff]
    · simp [hruntime, hnone]

theorem strings_eq_last (h : Reachable settings c) {key value : String}
    (hlast : ∃ e earlier, LastWritten (setOf key) c.history value e earlier) :
    c.state.kv.strings key = some value := by
  refine always (R := fun s past => (∃ e earlier, LastWritten (setOf key) past value e earlier) →
    s.kv.strings key = some value) ?_ ?_ h hlast
  · rintro ⟨e, earlier, ⟨later, hsplit, -⟩, -⟩
    simp at hsplit
  · intro s past i op o s' _ _ hdoes hR hlast
    rw [exists_lastWritten_cons] at hlast
    rcases written_step (setOf key) hdoes with ⟨commands, rfl, hwritten⟩ | ⟨-, hstrings, hnone⟩
    · apply strings_applyAll
      rw [Option.or_eq_some_iff, ← hwritten]
      exact hlast.imp_right fun hold => ⟨hold.1, hR hold.2⟩
    · rw [hstrings]
      exact hR (hlast.resolve_left (by simp [hnone])).2

/-! ## Whose verdict it is -/

/-- The runtime key of the video was written last for the job, with the result that the same attempt
had committed. -/
def PublishedLast (settings : Settings) (past : Past) (videoId jobId : String) : Prop :=
  ∃ e earlier job frames result action, job.jobId = jobId ∧ job.videoId = videoId ∧
    (∃ commit ∈ attemptOf e.caller earlier,
      Committed (finalTx settings job frames result action) commit) ∧
    LastWritten (runtimeOf (runtimeKey settings videoId)) past (runtimeNsfwPayload result) e earlier

/-- The index of the video was set last when the job was stored. -/
def StoredLast (past : Past) (videoId jobId : String) : Prop :=
  ∃ e earlier, LastWritten (setOf (videoIdKey videoId)) past jobId e earlier

theorem runtimeKey_injective (settings : Settings) : Function.Injective (runtimeKey settings) := by
  intro videoId videoId' h
  have hchars := congrArg String.toList h
  unfold runtimeKey at hchars
  rw [String.toList_append, String.toList_append] at hchars
  exact String.toList_injective (List.append_cancel_left hchars)

/-- The result of the job that was published last is there, and the runtime key holds its verdict. -/
theorem row_of_publishedLast (h : Reachable settings c) {videoId jobId : String}
    (hlast : PublishedLast settings c.history videoId jobId) :
    ∃ row ∈ c.state.db.results, row.jobId = jobId ∧
      c.state.kv.runtime (runtimeKey settings videoId) =
        some (runtimeNsfwPayload (rowToVideoResult row)) := by
  obtain ⟨e, earlier, job, frames, result, action, rfl, -, ⟨commit, hmem, hcommit⟩, hwritten⟩ := hlast
  obtain ⟨later, hsplit, -⟩ := hwritten.split
  have hearlier := (mem_of_mem_attemptOf hmem).1
  have hin : commit ∈ c.history := by
    rw [hsplit]
    exact List.mem_append_right _ (List.mem_cons_of_mem _ hearlier)
  have hrow := (committed_there h hin hcommit).1 _ ((insertFinalResult_mem_finalTx _).mpr rfl)
  exact ⟨_, hrow, jobId_of_committed h hin hcommit, (runtime_eq_last h).mpr ⟨e, earlier, hwritten⟩⟩

theorem derived_runtime {job : VideoJob} {frames : List FrameModerationResult}
    {result : VideoModerationResult} {action : Option StorageAction} {key : String}
    {payload : RuntimeNsfwPayload}
    (h : Derived settings job frames result action (.setRuntime key payload)) :
    key = runtimeKey settings job.videoId ∧ payload = runtimeNsfwPayload result := by
  cases h
  exact ⟨rfl, rfl⟩

/-- What the runtime key holds was written last by an attempt on a job of the video. -/
theorem publishedLast_of_runtime (h : Reachable settings c) {videoId : String}
    {payload : RuntimeNsfwPayload}
    (hruntime : c.state.kv.runtime (runtimeKey settings videoId) = some payload) :
    ∃ jobId, PublishedLast settings c.history videoId jobId := by
  obtain ⟨e, earlier, hwritten⟩ := (runtime_eq_last h).mp hruntime
  obtain ⟨later, hsplit, -⟩ := hwritten.split
  obtain ⟨s, hmay⟩ := permitted_at h hsplit
  obtain ⟨command, hvalue, commands, hop, hmem, -⟩ := performed_of_written hwritten.value
  rw [hop] at hmay
  have hok := hmay.1 command hmem
  unfold runtimeOf at hvalue
  split at hvalue
  · next key payload' =>
    split at hvalue
    · next hkey =>
      obtain rfl := Option.some.inj hvalue
      obtain ⟨job, frames, result, action, hcommit, hderived⟩ := hok
      obtain ⟨hown, rfl⟩ := derived_runtime hderived
      have hvideo := runtimeKey_injective settings (hown.symm.trans hkey)
      exact ⟨_, e, earlier, job, frames, result, action, rfl, hvideo, hcommit, hwritten⟩
    · cases hvalue
  · cases hvalue

/-- Whatever an index was set to is the id of a job that is there. -/
theorem hash_of_set (h : Reachable settings c) {key jobId : String} {e : Call} (he : e ∈ c.history)
    (hset : Performed (.set key jobId) e) : jobId ≠ "" ∧ c.state.kv.hashes (jobKey jobId) ≠ none := by
  refine always (R := fun s past => ∀ e ∈ past, Performed (.set key jobId) e →
    jobId ≠ "" ∧ s.kv.hashes (jobKey jobId) ≠ none) ?_ ?_ h e he hset
  · exact fun _ h => absurd h List.not_mem_nil
  · intro s past i op o s' _ hmay hdoes hR e he hset
    rcases List.mem_cons.mp he with rfl | he
    · obtain ⟨commands, hop, hmem, heffect⟩ := hset
      simp only at hop heffect
      subst hop
      obtain ⟨hne, hthere | ⟨job, hhset⟩⟩ := hmay.2.2 key jobId hmem
      · exact ⟨hne, hdoes.hash_stays hthere⟩
      · exact ⟨hne, hdoes.hash_there heffect hhset⟩
    · obtain ⟨hne, hthere⟩ := hR e he hset
      exact ⟨hne, hdoes.hash_stays hthere⟩

theorem indexed_of_storedLast (h : Reachable settings c) {videoId jobId : String}
    (hlast : StoredLast c.history videoId jobId) :
    ∃ job, c.state.kv.indexed? videoId = some job ∧ job.jobId = jobId := by
  have hindex := strings_eq_last h hlast
  obtain ⟨e, earlier, ⟨later, hsplit, -⟩, hvalue⟩ := hlast
  obtain ⟨command, hcommand, hperformed⟩ := performed_of_written hvalue
  have hset : Performed (.set (videoIdKey videoId) jobId) e := by
    unfold setOf at hcommand
    split at hcommand
    · next key value =>
      split at hcommand
      · next hkey =>
        obtain rfl := Option.some.inj hcommand
        exact hkey ▸ hperformed
      · cases hcommand
    · cases hcommand
  have he : e ∈ c.history := hsplit ▸ List.mem_append_right _ List.mem_cons_self
  obtain ⟨hne, hthere⟩ := hash_of_set h he hset
  obtain ⟨job, hjob⟩ := Option.ne_none_iff_exists'.mp hthere
  refine ⟨job, ?_, (jobKey_injective ((consistent h).keys _ job hjob).1).symm⟩
  rw [Kvrocks.indexed?, hindex, Option.bind_some, if_neg hne, hjob]

/-- The two readers of a video's verdict: the runtime key, and the job that the index leads to. -/
structure CurrentVerdict (settings : Settings) (c : Moment) (videoId : String) : Prop where
  /-- Once a job of the video is published, the runtime key holds the verdict of the one that was
  published last. -/
  runtime : ∀ jobId, PublishedLast settings c.history videoId jobId →
    ∃ row ∈ c.state.db.results, row.jobId = jobId ∧
      c.state.kv.runtime (runtimeKey settings videoId) = some (runtimeNsfwPayload (rowToVideoResult row))
  /-- There is nothing else under the runtime key. -/
  published : ∀ payload, c.state.kv.runtime (runtimeKey settings videoId) = some payload →
    ∃ jobId, PublishedLast settings c.history videoId jobId ∧
      ∃ row ∈ c.state.db.results, row.jobId = jobId ∧
        payload = runtimeNsfwPayload (rowToVideoResult row)
  /-- The index leads to the job that was stored last. -/
  index : ∀ jobId, StoredLast c.history videoId jobId →
    ∃ job, c.state.kv.indexed? videoId = some job ∧ job.jobId = jobId
  /-- If it was published last as well, both readers tell the same. -/
  agree : ∀ job ∈ c.state.kv.indexed? videoId, PublishedLast settings c.history videoId job.jobId →
    ∃ row ∈ c.state.db.results, row.jobId = job.jobId ∧
      c.state.kv.runtime (runtimeKey settings videoId) =
        some (runtimeNsfwPayload (rowToVideoResult row))

/-- The last publication wins, whichever job it is for. -/
theorem last_publication_wins (h : Reachable settings c) (videoId : String) :
    CurrentVerdict settings c videoId where
  runtime _ hlast := row_of_publishedLast h hlast
  published payload hruntime := by
    obtain ⟨jobId, hlast⟩ := publishedLast_of_runtime h hruntime
    obtain ⟨row, hrow, hid, hverdict⟩ := row_of_publishedLast h hlast
    exact ⟨jobId, hlast, row, hrow, hid, Option.some.inj (hruntime.symm.trans hverdict)⟩
  index _ hstored := indexed_of_storedLast h hstored
  agree _ _ hlast := row_of_publishedLast h hlast

/-! ### Two jobs of one video -/

def newRequest : VideoDetectRequest :=
  { sampleRequest with jobId := "new-job", sourceObjectVersion := "v2", jobId_ne := by decide }

def bothAccepted : Script :=
  enqueueScript storj ++ .start (.api 1) (apiProgram storj newRequest) :: calls (.api 1) 7 clean

/-- The old job has nothing unsafe. -/
def oldAttempt (nr : Nat) : Script := startAttempt storj nr :: calls (.attempt nr) 26 clean

/-- The new job has. -/
def newAttempt (nr : Nat) : Script :=
  .start (.attempt nr) (attemptProgram storj (newRequest.job 0)) :: calls (.attempt nr) 32 explicit

theorem legal_bothAccepted : ∀ t ∈ bothAccepted, t.Legal (Starts storj) :=
  List.forall_mem_append.mpr ⟨legal_enqueue, legal_thenCalls ⟨newRequest, rfl⟩⟩

theorem legal_oldAttempt {nr : Nat} : ∀ t ∈ oldAttempt nr, t.Legal (Starts storj) :=
  legal_thenCalls legal_startAttempt

theorem legal_newAttempt {nr : Nat} : ∀ t ∈ newAttempt nr, t.Legal (Starts storj) :=
  legal_thenCalls ⟨newRequest.job 0, rfl⟩

/-- Both jobs are classified, the index leads to the new one, and the runtime key says `isNsfw`. -/
def bothClassified (isNsfw : Bool) (c : Moment) : Bool :=
  QueueClassified c.state "job" ∧ QueueClassified c.state "new-job" ∧
    (c.state.kv.indexed? "video").map (·.jobId) = some "new-job" ∧
    (c.state.kv.runtime (runtimeKey storj "video")).map (·.isNsfw) = some isNsfw ∧
    ∀ row ∈ c.state.db.results, row.jobId = "new-job" → row.finalIsNsfw = true

def oldThenNew : Script := bothAccepted ++ (oldAttempt 0 ++ newAttempt 1)

def newThenOld : Script := bothAccepted ++ (newAttempt 0 ++ oldAttempt 1)

theorem legal_oldThenNew : ∀ t ∈ oldThenNew, t.Legal (Starts storj) := by
  simp only [oldThenNew, List.mem_append]
  rintro t (ht | ht | ht)
  · exact legal_bothAccepted t ht
  · exact legal_oldAttempt t ht
  · exact legal_newAttempt t ht

theorem legal_newThenOld : ∀ t ∈ newThenOld, t.Legal (Starts storj) := by
  simp only [newThenOld, List.mem_append]
  rintro t (ht | ht | ht)
  · exact legal_bothAccepted t ht
  · exact legal_newAttempt t ht
  · exact legal_oldAttempt t ht

theorem last_publication_wins_new : ∃ c, Reachable storj c ∧ bothClassified true c = true ∧
    CurrentVerdict storj c "video" := by
  obtain ⟨c, hreach, hc⟩ : ∃ c, Reachable storj c ∧ bothClassified true c = true :=
    reach_of_script legal_oldThenNew (by decide +kernel)
  exact ⟨c, hreach, hc, last_publication_wins hreach "video"⟩

/-- The old job finishes last, and its verdict stands in the place of the new one. -/
theorem old_verdict_wins : ∃ c, Reachable storj c ∧ QueueClassified c.state "job" ∧
    QueueClassified c.state "new-job" ∧ ∃ job ∈ c.state.kv.indexed? "video", job.jobId = "new-job" ∧
      ∀ row ∈ c.state.db.results, row.jobId = "new-job" →
        c.state.kv.runtime (runtimeKey storj "video") ≠
          some (runtimeNsfwPayload (rowToVideoResult row)) := by
  obtain ⟨c, hreach, hc⟩ : ∃ c, Reachable storj c ∧ bothClassified false c = true :=
    reach_of_script legal_newThenOld (by decide +kernel)
  obtain ⟨hold, hnew, hindex, hruntime, hrows⟩ := of_decide_eq_true hc
  obtain ⟨job, hjob, hid⟩ := Option.map_eq_some_iff.mp hindex
  refine ⟨c, hreach, hold, hnew, job, hjob, hid, fun row hrow hrowid hpayload => ?_⟩
  rw [hpayload, Option.map_some, Option.some.injEq] at hruntime
  have hnsfw : row.finalIsNsfw = false := hruntime
  rw [hrows row hrow hrowid] at hnsfw
  cases hnsfw

end NsfwDetector.Publication
