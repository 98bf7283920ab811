import NsfwDetector.Core.Rows
import NsfwDetector.Text.Search
import Mathlib.Logic.Function.Basic

/-!
# What Kvrocks keeps

Hashes hold the jobs, strings hold the indexes. The stream has one consumer group: an entry is
fresh until a consumer reads it, and then pending for that consumer until it is acknowledged.
-/

namespace NsfwDetector

/-! ## Keys -/

def jobKey (jobId : String) : String := "nsfw:video_job:" ++ jobId

def uniqueKey (videoId sourceObjectVersion policyVersion : String) : String :=
  "nsfw:video_job_unique:" ++ videoId ++ ":" ++ sourceObjectVersion ++ ":" ++ policyVersion

def videoIdKey (videoId : String) : String := "nsfw:video_job_by_video_id:" ++ videoId

theorem jobKey_injective : Function.Injective jobKey :=
  fun _ _ h => (String.append_right_inj "nsfw:video_job:").mp h

def uniqueKeyOf (work : String × String × String) : String := uniqueKey work.1 work.2.1 work.2.2

theorem uniqueKeyOf_ne_videoIdKey (work : String × String × String) (videoId : String) :
    uniqueKeyOf work ≠ videoIdKey videoId := by
  intro h
  have happend : "nsfw:video_job_unique:" ++ work.1 ++ ":" ++ work.2.1 ++ ":" ++ work.2.2 =
      "nsfw:video_job_by_video_id:" ++ videoId := h
  have hchars := congrArg String.toList happend
  simp only [String.toList_append, List.append_assoc] at hchars
  simp at hchars

/-- Neither the id nor the version of the video has a colon. -/
def PlainWork (work : String × String × String) : Prop :=
  ':' ∉ work.1.toList ∧ ':' ∉ work.2.1.toList

theorem uniqueKeyOf_toList (work : String × String × String) : (uniqueKeyOf work).toList =
    "nsfw:video_job_unique:".toList ++
      (work.1.toList ++ ':' :: (work.2.1.toList ++ ':' :: work.2.2.toList)) := by
  delta uniqueKeyOf uniqueKey
  simp only [String.toList_append, List.append_assoc, List.cons_append, List.nil_append,
    show ":".toList = [':'] from rfl]

theorem uniqueKeyOf_injective {work other : String × String × String} (hwork : PlainWork work)
    (hother : PlainWork other) (h : uniqueKeyOf work = uniqueKeyOf other) : work = other := by
  have hchars := congrArg String.toList h
  rw [uniqueKeyOf_toList, uniqueKeyOf_toList] at hchars
  obtain ⟨hvideo, hrest⟩ := Search.append_cons_inj hwork.1 hother.1 (List.append_cancel_left hchars)
  obtain ⟨hversion, hpolicy⟩ := Search.append_cons_inj hwork.2 hother.2 hrest
  exact Prod.ext (String.toList_injective hvideo)
    (Prod.ext (String.toList_injective hversion) (String.toList_injective hpolicy))

theorem videoIdKey_injective : Function.Injective videoIdKey :=
  fun _ _ h => (String.append_right_inj "nsfw:video_job_by_video_id:").mp h

theorem jobKey_ne_videoIdKey (jobId videoId : String) : jobKey jobId ≠ videoIdKey videoId := by
  intro h
  have happend : "nsfw:video_job:" ++ jobId = "nsfw:video_job_by_video_id:" ++ videoId := h
  have hchars := congrArg String.toList happend
  rw [String.toList_append, String.toList_append] at hchars
  simp at hchars

theorem jobKey_ne_uniqueKeyOf (jobId : String) (work : String × String × String) :
    jobKey jobId ≠ uniqueKeyOf work := by
  intro h
  have happend : "nsfw:video_job:" ++ jobId = uniqueKeyOf work := h
  have hchars := congrArg String.toList happend
  rw [String.toList_append, uniqueKeyOf_toList] at hchars
  simp at hchars

/-! ## Values -/

/-- `value or None` -/
def optional (value : Option String) : Option String := if value = some "" then none else value

/-- What `_job_from_mapping` makes of `_job_to_mapping(job)`: an empty optional field is absent. -/
def VideoJob.stored (job : VideoJob) : VideoJob :=
  { job with
    postId := optional job.postId
    canisterId := optional job.canisterId
    uploadEventId := optional job.uploadEventId
    traceId := optional job.traceId
    lastErrorCode := optional job.lastErrorCode
    lastErrorMessage := optional job.lastErrorMessage }

@[simp] theorem VideoJob.stored_jobId (job : VideoJob) : job.stored.jobId = job.jobId := rfl
@[simp] theorem VideoJob.stored_status (job : VideoJob) : job.stored.status = job.status := rfl
@[simp] theorem VideoJob.stored_attempts (job : VideoJob) : job.stored.attempts = job.attempts := rfl
@[simp] theorem VideoJob.stored_createdAt (job : VideoJob) :
    job.stored.createdAt = job.createdAt := rfl

/-- An entry of the stream: its fields `job_id` and `payload`. -/
structure StreamEntry where
  id : Nat
  jobId : String
  payload : VideoJob

/-- The message that `read_video_job_messages` makes of an entry. -/
def StreamEntry.message (entry : StreamEntry) : QueuedVideoJobMessage where
  messageId := entry.id
  jobId := if entry.jobId = "" then entry.payload.jobId else entry.jobId
  payload := entry.payload

structure DlqEntry where
  messageId : Nat
  jobId : String
  errorCode : String
  errorMessage : String
  payload : VideoJob
  deriving DecidableEq

def dlqEntry (message : QueuedVideoJobMessage) (errorCode errorMessage : String) : DlqEntry where
  messageId := message.messageId
  jobId := message.jobId
  errorCode := errorCode
  errorMessage := errorMessage
  payload := message.payload

/-! ## The store -/

structure Kvrocks (Consumer : Type) where
  hashes : String → Option VideoJob := fun _ => none
  strings : String → Option String := fun _ => none
  runtime : String → Option RuntimeNsfwPayload := fun _ => none
  buffers : String → List BufferRow := fun _ => []
  fresh : List StreamEntry := []
  pending : List (StreamEntry × Consumer) := []
  nextId : Nat := 1
  dlq : List DlqEntry := []
  groupCreated : Bool := false

inductive Command
  | hset (key : String) (job : VideoJob)
  | set (key value : String)
  /-- `SET … NX` -/
  | setNx (key value : String)
  | setRuntime (key : String) (payload : RuntimeNsfwPayload)
  | rpush (key : String) (row : BufferRow)
  | xadd (jobId : String) (payload : VideoJob)
  | xaddDlq (entry : DlqEntry)
  | xack (messageId : Nat)

namespace Kvrocks

variable {Consumer : Type}

def apply (kv : Kvrocks Consumer) : Command → Kvrocks Consumer
  | .hset key job => { kv with hashes := Function.update kv.hashes key (some job.stored) }
  | .set key value => { kv with strings := Function.update kv.strings key (some value) }
  | .setNx key value =>
    if kv.strings key = none then
      { kv with strings := Function.update kv.strings key (some value) }
    else kv
  | .setRuntime key payload => { kv with runtime := Function.update kv.runtime key (some payload) }
  | .rpush key row =>
    { kv with buffers := Function.update kv.buffers key (kv.buffers key ++ [row]) }
  | .xadd jobId payload =>
    { kv with fresh := kv.fresh ++ [⟨kv.nextId, jobId, payload.stored⟩], nextId := kv.nextId + 1 }
  | .xaddDlq entry => { kv with dlq := kv.dlq ++ [entry] }
  | .xack messageId => { kv with pending := kv.pending.filter (·.1.id ≠ messageId) }

def applyAll (kv : Kvrocks Consumer) (commands : List Command) : Kvrocks Consumer :=
  commands.foldl apply kv

/-- What one `XREADGROUP` delivers. A `COUNT` below 1 is no limit. -/
def delivered (kv : Kvrocks Consumer) (count : Int) : List StreamEntry :=
  if count ≤ 0 then kv.fresh else kv.fresh.take count.toNat

/-- The store after `consumer` has read with `id ">"`. -/
def xreadgroup (kv : Kvrocks Consumer) (consumer : Consumer) (count : Int) : Kvrocks Consumer :=
  { kv with
    fresh := if count ≤ 0 then [] else kv.fresh.drop count.toNat
    pending := kv.pending ++ (kv.delivered count).map (·, consumer) }

theorem delivered_append (kv : Kvrocks Consumer) (consumer : Consumer) (count : Int) :
    kv.delivered count ++ (kv.xreadgroup consumer count).fresh = kv.fresh := by
  unfold delivered xreadgroup
  split
  · exact List.append_nil _
  · exact List.take_append_drop ..

/-! ## What commands leave behind -/

theorem applyAll_cons (kv : Kvrocks Consumer) (command : Command) (commands : List Command) :
    kv.applyAll (command :: commands) = (kv.apply command).applyAll commands := rfl

theorem apply_hashes (kv : Kvrocks Consumer) (command : Command) (key : String) :
    (kv.apply command).hashes key = kv.hashes key ∨
      ∃ job, command = .hset key job ∧ (kv.apply command).hashes key = some job.stored := by
  cases command with
  | hset k job =>
    by_cases hkey : key = k
    · subst hkey
      exact .inr ⟨job, rfl, by simp [apply]⟩
    · exact .inl (by simp [apply, hkey])
  | setNx k value =>
    left
    simp only [apply]
    split <;> rfl
  | _ => exact .inl rfl

/-- A hash changes only through an `HSET`, and then holds the job of one. -/
theorem applyAll_hashes (kv : Kvrocks Consumer) (commands : List Command) (key : String) :
    (kv.applyAll commands).hashes key = kv.hashes key ∨
      ∃ job, .hset key job ∈ commands ∧ (kv.applyAll commands).hashes key = some job.stored := by
  induction commands generalizing kv with
  | nil => exact .inl rfl
  | cons command commands ih =>
    rw [applyAll_cons]
    rcases ih (kv.apply command) with heq | ⟨job, hmem, heq⟩
    · rw [heq]
      rcases apply_hashes kv command key with hsame | ⟨job, rfl, hjob⟩
      · exact .inl hsame
      · exact .inr ⟨job, List.mem_cons_self, hjob⟩
    · exact .inr ⟨job, List.mem_cons_of_mem _ hmem, heq⟩

theorem applyAll_hash_stays (kv : Kvrocks Consumer) (commands : List Command) {key : String}
    (h : kv.hashes key ≠ none) : (kv.applyAll commands).hashes key ≠ none := by
  rcases applyAll_hashes kv commands key with heq | ⟨job, -, heq⟩
  · exact heq ▸ h
  · exact heq ▸ Option.some_ne_none _

theorem applyAll_hash_there (kv : Kvrocks Consumer) {commands : List Command} {key : String} {job : VideoJob}
    (h : .hset key job ∈ commands) : (kv.applyAll commands).hashes key ≠ none := by
  induction commands generalizing kv with
  | nil => cases h
  | cons command commands ih =>
    rw [applyAll_cons]
    rcases List.mem_cons.mp h with rfl | h
    · exact applyAll_hash_stays _ commands (by simp [apply])
    · exact ih _ h

def pushedRow (key : String) : Command → Option BufferRow
  | .rpush k row => if k = key then some row else none
  | _ => none

theorem apply_buffers (kv : Kvrocks Consumer) (command : Command) (key : String) :
    (kv.apply command).buffers key = kv.buffers key ++ (pushedRow key command).toList := by
  cases command with
  | rpush k row =>
    by_cases hkey : k = key
    · subst hkey
      simp [apply, pushedRow]
    · simp [apply, pushedRow, hkey, Ne.symm hkey]
  | setNx k value =>
    simp only [apply, pushedRow]
    split <;> simp
  | _ => exact (List.append_nil _).symm

theorem applyAll_buffers (kv : Kvrocks Consumer) (commands : List Command) (key : String) :
    (kv.applyAll commands).buffers key = kv.buffers key ++ commands.filterMap (pushedRow key) := by
  induction commands generalizing kv with
  | nil => exact (List.append_nil _).symm
  | cons command commands ih =>
    rw [applyAll_cons, ih, apply_buffers, List.append_assoc, List.filterMap_cons]
    cases pushedRow key command <;> rfl

theorem mem_buffers (kv : Kvrocks Consumer) (commands : List Command) (key : String)
    (row : BufferRow) (h : row ∈ (kv.applyAll commands).buffers key) :
    row ∈ kv.buffers key ∨ .rpush key row ∈ commands := by
  rw [applyAll_buffers] at h
  refine (List.mem_append.mp h).imp_right fun hpushed => ?_
  obtain ⟨command, hmem, hrow⟩ := List.mem_filterMap.mp hpushed
  cases command with
  | rpush k pushed =>
    simp only [pushedRow] at hrow
    split at hrow
    · next hkey =>
      obtain rfl := Option.some.inj hrow
      exact hkey ▸ hmem
    · cases hrow
  | _ => cases hrow

theorem applyAll_runtime (kv : Kvrocks Consumer) (commands : List Command) (key : String)
    (payload : RuntimeNsfwPayload) (h : (kv.applyAll commands).runtime key = some payload) :
    kv.runtime key = some payload ∨ .setRuntime key payload ∈ commands := by
  induction commands generalizing kv with
  | nil => exact .inl h
  | cons command commands ih =>
    rw [applyAll_cons] at h
    rcases ih (kv.apply command) h with hin | hmem
    · cases command with
      | setRuntime k written =>
        by_cases hkey : key = k
        · subst hkey
          simp only [apply, Function.update_self, Option.some.injEq] at hin
          exact .inr (hin ▸ List.mem_cons_self)
        · simp only [apply, Function.update_of_ne hkey] at hin
          exact .inl hin
      | setNx k value =>
        simp only [apply] at hin
        split at hin <;> exact .inl hin
      | _ => exact .inl hin
    · exact .inr (List.mem_cons_of_mem _ hmem)

end Kvrocks

end NsfwDetector
