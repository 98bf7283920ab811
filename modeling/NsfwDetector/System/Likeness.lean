import NsfwDetector.Effects.Related
import NsfwDetector.System.Callers
import Mathlib.Data.List.Forall2

/-!
# Worlds that differ in the queries of URLs

Jobs are alike if nothing but the query string of `source_video_uri` tells them apart. What is made
of alike jobs is alike: the calls, the replies to them and the stores.
-/

namespace NsfwDetector

open Effects

/-! ## Jobs -/

/-- A URL up to the `?` of its query, and from the `#` of its fragment on. -/
def withoutQuery (url : String) : List Char × List Char :=
  ((url.toList.takeWhile (· ≠ '#')).takeWhile (· ≠ '?'), url.toList.dropWhile (· ≠ '#'))

def SameButQuery (url url' : String) : Prop := withoutQuery url = withoutQuery url'

inductive SameJob : VideoJob → VideoJob → Prop
  | mk {job : VideoJob} {url : String} (h : SameButQuery job.sourceVideoUri url) :
      SameJob job { job with sourceVideoUri := url }

inductive SameRequest : VideoDetectRequest → VideoDetectRequest → Prop
  | mk {request : VideoDetectRequest} {url : String} (h : SameButQuery request.sourceVideoUri url)
      (hne : url ≠ "") :
      SameRequest request { request with sourceVideoUri := url, sourceVideoUri_ne := hne }

inductive SameMessage : QueuedVideoJobMessage → QueuedVideoJobMessage → Prop
  | mk {messageId : Nat} {jobId : String} {payload payload' : VideoJob} (h : SameJob payload payload') :
      SameMessage ⟨messageId, jobId, payload⟩ ⟨messageId, jobId, payload'⟩

inductive SameEntry : StreamEntry → StreamEntry → Prop
  | mk {id : Nat} {jobId : String} {payload payload' : VideoJob} (h : SameJob payload payload') :
      SameEntry ⟨id, jobId, payload⟩ ⟨id, jobId, payload'⟩

inductive SameDlqEntry : DlqEntry → DlqEntry → Prop
  | mk {entry : DlqEntry} {payload : VideoJob} (h : SameJob entry.payload payload) :
      SameDlqEntry entry { entry with payload := payload }

theorem SameJob.refl (job : VideoJob) : SameJob job job := .mk rfl

theorem SameRequest.job {request request' : VideoDetectRequest} (h : SameRequest request request')
    (now : Time) : SameJob (request.job now) (request'.job now) := by
  cases h with
  | mk h _ => exact .mk h

theorem SameJob.stored {job job' : VideoJob} (h : SameJob job job') : SameJob job.stored job'.stored := by
  cases h with
  | mk h => exact @SameJob.mk job.stored _ h

theorem SameJob.withStatus {job job' : VideoJob} (h : SameJob job job') (status : VideoJobStatus)
    (lastErrorCode lastErrorMessage : Option String) (now : Time) :
    SameJob (job.withStatus status lastErrorCode lastErrorMessage now)
      (job'.withStatus status lastErrorCode lastErrorMessage now) := by
  cases h with
  | mk h => exact @SameJob.mk (job.withStatus status lastErrorCode lastErrorMessage now) _ h

theorem SameEntry.message {entry entry' : StreamEntry} (h : SameEntry entry entry') :
    SameMessage entry.message entry'.message := by
  cases h with
  | mk h =>
    cases h with
    | mk h => exact .mk (.mk h)

theorem SameMessage.dlqEntry {message message' : QueuedVideoJobMessage}
    (h : SameMessage message message') (errorCode errorMessage : String) :
    SameDlqEntry (dlqEntry message errorCode errorMessage) (dlqEntry message' errorCode errorMessage) := by
  cases h with
  | mk h => exact .mk h

/-! ## Exceptions -/

/-- The exception without its text. -/
def PyException.bare : PyException → PyException
  | appError code _ statusCode => appError code "" statusCode
  | httpStatusError statusCode _ => httpStatusError statusCode ""
  | requestError name _ => requestError name ""
  | maxConnectionsError _ => maxConnectionsError ""
  | videoJobProcessingError failure => videoJobProcessingError failure
  | other name _ => other name ""

/-- The texts agree as far as `_error_message` keeps them. -/
def ShownAlike (e e' : PyException) : Prop := truncated e.text = truncated e'.text

def SameError (e e' : PyException) : Prop := e.bare = e'.bare ∧ ShownAlike e e'

theorem SameError.refl (e : PyException) : SameError e e := ⟨rfl, rfl⟩

section

variable {e e' : PyException}

theorem truncated_eq_empty {text : String} : truncated text = "" ↔ text = "" := by
  unfold truncated
  rw [← String.toList_inj, String.toList_ofList, ← String.toList_inj]
  simp

theorem errorMessage_of_text (h : e.text ≠ "") : errorMessage e = truncated e.text := by
  cases e with
  | appError => rfl
  | _ => exact congrArg truncated (if_neg h)

theorem errorMessage_of_no_text (h : e.text = "") : errorMessage e = errorMessage e.bare := by
  cases e with
  | videoJobProcessingError => rfl
  | _ =>
    simp only [PyException.text] at h
    subst h
    rfl

theorem SameError.errorMessage (h : SameError e e') : errorMessage e = errorMessage e' := by
  obtain ⟨hbare, hshown⟩ := h
  by_cases htext : e.text = ""
  · have htext' : e'.text = "" := by
      rw [← truncated_eq_empty, ← hshown, truncated_eq_empty]
      exact htext
    rw [errorMessage_of_no_text htext, errorMessage_of_no_text htext', hbare]
  · have htext' : e'.text ≠ "" := by
      rw [ne_eq, ← truncated_eq_empty, ← hshown, truncated_eq_empty]
      exact htext
    rw [errorMessage_of_text htext, errorMessage_of_text htext']
    exact hshown

theorem isRetryable_bare (e : PyException) : isRetryable e.bare = isRetryable e := by cases e <;> rfl

theorem errorCode_bare (e : PyException) : errorCode e.bare = errorCode e := by cases e <;> rfl

/-- What `process` makes of alike exceptions is the same. -/
theorem SameError.classify (h : SameError e e') (attempts maxAttempts : Int) :
    classifyProcessingError e attempts maxAttempts = classifyProcessingError e' attempts maxAttempts := by
  unfold classifyProcessingError
  rw [h.errorMessage, ← isRetryable_bare e, ← errorCode_bare e, h.1, isRetryable_bare, errorCode_bare]

end

/-! ## Calls -/

inductive SameCommand : Command → Command → Prop
  | refl (command : Command) : SameCommand command command
  | hset {key : String} {job job' : VideoJob} (h : SameJob job job') :
      SameCommand (.hset key job) (.hset key job')
  | xadd {jobId : String} {payload payload' : VideoJob} (h : SameJob payload payload') :
      SameCommand (.xadd jobId payload) (.xadd jobId payload')
  | xaddDlq {entry entry' : DlqEntry} (h : SameDlqEntry entry entry') :
      SameCommand (.xaddDlq entry) (.xaddDlq entry')
  /-- No modelled program reads a buffer. -/
  | rpush {key : String} {row row' : BufferRow} : SameCommand (.rpush key row) (.rpush key row')

inductive SameWrite : Write → Write → Prop
  | refl (write : Write) : SameWrite write write
  | insertVideoJobOrNothing {job job' : VideoJob} (h : SameJob job job') :
      SameWrite (.insertVideoJobOrNothing job) (.insertVideoJobOrNothing job')

inductive SameOp : Op → Op → Prop
  | refl (op : Op) : SameOp op op
  | writes {commands commands' : List Command} (h : List.Forall₂ SameCommand commands commands') :
      SameOp (.writes commands) (.writes commands')
  | execute {tx tx' : List Write} {write write' : Write} (htx : List.Forall₂ SameWrite tx tx')
      (h : SameWrite write write') : SameOp (.execute tx write) (.execute tx' write')
  | commit {tx tx' : List Write} (h : List.Forall₂ SameWrite tx tx') : SameOp (.commit tx) (.commit tx')
  | downloadVideo {url url' : String} (h : SameButQuery url url') :
      SameOp (.downloadVideo url) (.downloadVideo url')

/-- The calls differ in what a library quotes in the text of an exception: httpx the URL, and
SQLAlchemy the parameters of a statement. -/
def MayQuote : Op → Op → Prop
  | .downloadVideo url, .downloadVideo url' => url ≠ url'
  | .execute _ write, .execute _ write' => write ≠ write'
  | _, _ => False

/-! ## Outcomes -/

/-- The same choice of the world outside, where the stores do not decide the answer. -/
def SameChoice : (op op' : Op) → Ans op → Ans op' → Prop
  | .now, .now, now, now' => now = now'
  | .uuid4, .uuid4, id, id' => id = id'
  | .selectLatestResult _, .selectLatestResult _, row, row' => row = row'
  | .commit _, .commit _, now, now' => now = now'
  | .probe _ _, .probe _ _, metadata, metadata' => metadata = metadata'
  | .ffmpeg _, .ffmpeg _, paths, paths' => paths = paths'
  | .moderateImages _, .moderateImages _, outputs, outputs' => outputs = outputs'
  | .postMove _ _, .postMove _ _, response, response' => response = response'
  | _, _, _, _ => True

/-- The same exception, or the same but for a text that quotes the call. -/
def SameFailure (op op' : Op) (e e' : PyException) : Prop :=
  e = e' ∨ MayQuote op op' ∧ e.bare = e'.bare

def SameOutcome (op op' : Op) :
    Outcome PyException (Ans op) → Outcome PyException (Ans op') → Prop
  | .answered b, .answered b' => SameChoice op op' b b'
  | .refused e, .refused e' | .failed e, .failed e' => SameFailure op op' e e'
  | .lost b e, .lost b' e' => SameChoice op op' b b' ∧ SameFailure op op' e e'
  | _, _ => False

/-- No exception shows in its first 1000 characters what tells the calls apart. -/
def NothingShown {op op' : Op} (o : Outcome PyException (Ans op)) (o' : Outcome PyException (Ans op')) :
    Prop :=
  ∀ e e', o.seen = .error e → o'.seen = .error e' → ShownAlike e e'

/-! ## Replies -/

def SameAnswer : (op op' : Op) → Ans op → Ans op' → Prop
  | .hgetall _, .hgetall _, job, job' => Option.Rel SameJob job job'
  | .selectJob _, .selectJob _, job, job' => Option.Rel SameJob job job'
  | .xreadgroup _, .xreadgroup _, messages, messages' => List.Forall₂ SameMessage messages messages'
  | _, _, b, b' => HEq b b'

def likeness : Likeness Ans PyException where
  ops := SameOp
  replies op op' := Both (fun e e' => e = e' ∨ MayQuote op op' ∧ SameError e e') (SameAnswer op op')

theorem sameError_of_reply {op op' : Op} {e e' : PyException}
    (h : e = e' ∨ MayQuote op op' ∧ SameError e e') : SameError e e' := by
  rcases h with rfl | ⟨-, h⟩
  · exact .refl e
  · exact h

/-! ## The stores -/

structure SameKv (kv kv' : Kvrocks Caller) : Prop where
  hashes : ∀ key, Option.Rel SameJob (kv.hashes key) (kv'.hashes key)
  strings : kv.strings = kv'.strings
  fresh : List.Forall₂ SameEntry kv.fresh kv'.fresh
  nextId : kv.nextId = kv'.nextId
  dlq : List.Forall₂ SameDlqEntry kv.dlq kv'.dlq
  groupCreated : kv.groupCreated = kv'.groupCreated

structure SameDb (db db' : Db) : Prop where
  jobs : List.Forall₂ SameJob db.jobs db'.jobs
  frames : db.frames = db'.frames
  results : db.results = db'.results
  actions : db.actions = db'.actions

structure SameWorld (s s' : World) : Prop where
  kv : SameKv s.kv s'.kv
  db : SameDb s.db s'.db

theorem rel_refl (job : Option VideoJob) : Option.Rel SameJob job job := by
  cases job with
  | none => exact .none
  | some job => exact .some (.refl job)

theorem sameEntry_refl (entry : StreamEntry) : SameEntry entry entry := .mk (.refl entry.payload)

theorem sameDlqEntry_refl (entry : DlqEntry) : SameDlqEntry entry entry := .mk (.refl entry.payload)

theorem SameWorld.refl (s : World) : SameWorld s s where
  kv :=
    { hashes := fun key => rel_refl (s.kv.hashes key)
      strings := rfl
      fresh := List.forall₂_same.mpr fun entry _ => sameEntry_refl entry
      nextId := rfl
      dlq := List.forall₂_same.mpr fun entry _ => sameDlqEntry_refl entry
      groupCreated := rfl }
  db := ⟨List.forall₂_same.mpr fun job _ => .refl job, rfl, rfl, rfl⟩

section Kvrocks

variable {kv kv' : Kvrocks Caller} {command command' : Command} {commands commands' : List Command}

theorem SameKv.hset {job job' : VideoJob} (h : SameKv kv kv') (hjob : SameJob job job') (key : String) :
    SameKv (kv.apply (.hset key job)) (kv'.apply (.hset key job')) where
  hashes k := by
    simp only [Kvrocks.apply, Function.update_apply]
    split
    · exact .some hjob.stored
    · exact h.hashes k
  strings := h.strings
  fresh := h.fresh
  nextId := h.nextId
  dlq := h.dlq
  groupCreated := h.groupCreated

theorem forall₂_concat {α β : Type} {R : α → β → Prop} {l : List α} {l' : List β} {a : α} {b : β}
    (h : List.Forall₂ R l l') (hab : R a b) : List.Forall₂ R (l ++ [a]) (l' ++ [b]) :=
  List.rel_append h (.cons hab .nil)

theorem SameKv.xadd {payload payload' : VideoJob} (h : SameKv kv kv')
    (hpayload : SameJob payload payload') (jobId : String) :
    SameKv (kv.apply (.xadd jobId payload)) (kv'.apply (.xadd jobId payload')) where
  hashes := h.hashes
  strings := h.strings
  fresh := by
    simp only [Kvrocks.apply, h.nextId]
    exact forall₂_concat h.fresh (.mk hpayload.stored)
  nextId := congrArg (· + 1) h.nextId
  dlq := h.dlq
  groupCreated := h.groupCreated

theorem SameKv.xaddDlq {entry entry' : DlqEntry} (h : SameKv kv kv')
    (hentry : SameDlqEntry entry entry') :
    SameKv (kv.apply (.xaddDlq entry)) (kv'.apply (.xaddDlq entry')) where
  hashes := h.hashes
  strings := h.strings
  fresh := h.fresh
  nextId := h.nextId
  dlq := forall₂_concat h.dlq hentry
  groupCreated := h.groupCreated

theorem SameKv.apply (h : SameKv kv kv') (hcommand : SameCommand command command') :
    SameKv (kv.apply command) (kv'.apply command') := by
  cases hcommand with
  | hset hjob => exact h.hset hjob _
  | xadd hpayload => exact h.xadd hpayload _
  | xaddDlq hentry => exact h.xaddDlq hentry
  | rpush => exact ⟨h.hashes, h.strings, h.fresh, h.nextId, h.dlq, h.groupCreated⟩
  | refl =>
    cases command with
    | hset key job => exact h.hset (.refl job) key
    | xadd jobId payload => exact h.xadd (.refl payload) jobId
    | xaddDlq entry => exact h.xaddDlq (sameDlqEntry_refl entry)
    | set key value =>
      exact ⟨h.hashes, by simp only [Kvrocks.apply, h.strings], h.fresh, h.nextId, h.dlq, h.groupCreated⟩
    | setNx key value =>
      simp only [Kvrocks.apply, h.strings]
      split
      · exact ⟨h.hashes, rfl, h.fresh, h.nextId, h.dlq, h.groupCreated⟩
      · exact h
    | setRuntime | rpush | xack => exact ⟨h.hashes, h.strings, h.fresh, h.nextId, h.dlq, h.groupCreated⟩

theorem SameKv.applyAll (h : SameKv kv kv') (hcommands : List.Forall₂ SameCommand commands commands') :
    SameKv (kv.applyAll commands) (kv'.applyAll commands') := by
  induction hcommands generalizing kv kv' with
  | nil => exact h
  | cons hcommand _ ih => exact ih (h.apply hcommand)

theorem SameKv.delivered (h : SameKv kv kv') (count : Int) :
    List.Forall₂ SameEntry (kv.delivered count) (kv'.delivered count) := by
  unfold Kvrocks.delivered
  split
  · exact h.fresh
  · exact List.forall₂_take _ h.fresh

theorem SameKv.xreadgroup (h : SameKv kv kv') (i : Caller) (count : Int) :
    SameKv (kv.xreadgroup i count) (kv'.xreadgroup i count) where
  hashes := h.hashes
  strings := h.strings
  fresh := by
    simp only [Kvrocks.xreadgroup]
    split
    · exact .nil
    · exact List.forall₂_drop _ h.fresh
  nextId := h.nextId
  dlq := h.dlq
  groupCreated := h.groupCreated

end Kvrocks

section Postgres

variable {db db' d d' : Db} {now : Time} {write write' : Write} {tx tx' : List Write}

theorem exists_congr_forall₂ {α β : Type} {R : α → β → Prop} {l : List α} {l' : List β} {p : α → Prop}
    {q : β → Prop} (h : List.Forall₂ R l l') (hpq : ∀ a b, R a b → (p a ↔ q b)) :
    (∃ a ∈ l, p a) ↔ ∃ b ∈ l', q b := by
  induction h with
  | nil => simp
  | cons hab _ ih => simp [hpq _ _ hab, ih]

theorem SameJob.jobId {job job' : VideoJob} (h : SameJob job job') : job.jobId = job'.jobId := by
  cases h
  rfl

theorem SameJob.triple {job job' : VideoJob} (h : SameJob job job') : job.triple = job'.triple := by
  cases h
  rfl

theorem SameDb.insertVideoJob {job job' : VideoJob} (h : SameDb db db') (hjob : SameJob job job')
    (hd : db.insertVideoJobOrNothing job = .ok d) (hd' : db'.insertVideoJobOrNothing job' = .ok d') :
    SameDb d d' := by
  have hthere : (∃ other ∈ db.jobs, other.jobId = job.jobId ∨ other.triple = job.triple) ↔
      ∃ other ∈ db'.jobs, other.jobId = job'.jobId ∨ other.triple = job'.triple := by
    refine exists_congr_forall₂ h.jobs fun other other' hother => ?_
    rw [hother.jobId, hother.triple, hjob.jobId, hjob.triple]
  rcases Db.insertVideoJobOrNothing_ok hd with ⟨hin, rfl⟩ | ⟨hnot, rfl⟩
  · rcases Db.insertVideoJobOrNothing_ok hd' with ⟨-, rfl⟩ | ⟨hnot', -⟩
    · exact h
    · exact absurd (hthere.mp hin) hnot'
  · rcases Db.insertVideoJobOrNothing_ok hd' with ⟨hin', -⟩ | ⟨-, rfl⟩
    · exact absurd (hthere.mpr hin') hnot
    · exact ⟨.cons hjob h.jobs, h.frames, h.results, h.actions⟩

theorem SameDb.updateJob {f : VideoJob → VideoJob} (h : SameDb db db') (jobId : String)
    (hf : ∀ job job', SameJob job job' → SameJob (f job) (f job')) :
    SameDb (db.updateJob jobId f) (db'.updateJob jobId f) := by
  refine ⟨?_, h.frames, h.results, h.actions⟩
  refine List.rel_map (fun job job' hjob => ?_) h.jobs
  simp only [hjob.jobId]
  split
  · exact hf job job' hjob
  · exact hjob

theorem SameDb.apply (h : SameDb db db') (hwrite : SameWrite write write')
    (hd : db.apply now write = .ok d) (hd' : db'.apply now write' = .ok d') : SameDb d d' := by
  have hupdate : ∀ (jobId : String) (f : VideoJob → VideoJob),
      (∀ job job', SameJob job job' → SameJob (f job) (f job')) →
      (.ok (db.updateJob jobId f) : Except PyException Db) = .ok d →
      (.ok (db'.updateJob jobId f) : Except PyException Db) = .ok d' → SameDb d d' := by
    intro jobId f hf hd hd'
    rw [← Except.ok.inj hd, ← Except.ok.inj hd']
    exact h.updateJob jobId hf
  cases hwrite with
  | insertVideoJobOrNothing hjob => exact h.insertVideoJob hjob hd hd'
  | refl =>
    cases write with
    | insertVideoJobOrNothing job => exact h.insertVideoJob (.refl job) hd hd'
    | markProcessing jobId =>
      refine hupdate jobId _ (fun job job' hjob => ?_) hd hd'
      cases hjob with
      | mk hurl => exact @SameJob.mk (Db.processingRow now job) _ hurl
    | markClassified jobId =>
      refine hupdate jobId _ (fun job job' hjob => ?_) hd hd'
      cases hjob with
      | mk hurl => exact @SameJob.mk (Db.classifiedRow now job) _ hurl
    | markFailed jobId status errorCode errorMessage =>
      refine hupdate jobId _ (fun job job' hjob => ?_) hd hd'
      cases hjob with
      | mk hurl => exact @SameJob.mk (Db.failedRow status errorCode errorMessage now job) _ hurl
    | insertFrameResults rows =>
      obtain ⟨-, rfl⟩ := Db.insertFrameResults_ok hd
      obtain ⟨-, rfl⟩ := Db.insertFrameResults_ok hd'
      exact ⟨h.jobs, congrArg (rows.reverse ++ ·) h.frames, h.results, h.actions⟩
    | insertFinalResult row =>
      obtain ⟨-, -, rfl⟩ := Db.insertFinalResult_ok hd
      obtain ⟨-, -, rfl⟩ := Db.insertFinalResult_ok hd'
      exact ⟨h.jobs, h.frames, congrArg (row :: ·) h.results, h.actions⟩
    | insertStorageAction action =>
      obtain ⟨-, rfl⟩ := Db.insertStorageAction_ok hd
      obtain ⟨-, rfl⟩ := Db.insertStorageAction_ok hd'
      exact ⟨h.jobs, h.frames, h.results, congrArg (action :: ·) h.actions⟩

theorem SameDb.applyAll (h : SameDb db db') (htx : List.Forall₂ SameWrite tx tx')
    (hd : db.applyAll now tx = .ok d) (hd' : db'.applyAll now tx' = .ok d') : SameDb d d' := by
  induction htx generalizing db db' with
  | nil => exact Except.ok.inj hd ▸ Except.ok.inj hd' ▸ h
  | cons hwrite _ ih =>
    obtain ⟨e, he, hrest⟩ := Db.applyAll_cons_ok.mp hd
    obtain ⟨e', he', hrest'⟩ := Db.applyAll_cons_ok.mp hd'
    exact ih (h.apply hwrite he he') hrest hrest'

theorem SameDb.job? (h : SameDb db db') (jobId : String) :
    Option.Rel SameJob (db.job? jobId) (db'.job? jobId) := by
  have hjobs := h.jobs
  unfold Db.job?
  generalize db.jobs = jobs, db'.jobs = jobs' at hjobs
  induction hjobs with
  | nil => exact .none
  | cons hjob _ ih =>
    rw [List.find?_cons, List.find?_cons, hjob.jobId]
    split
    · exact .some hjob
    · exact ih

end Postgres

/-! ## One call in both worlds -/

section

variable {i : Caller} {s s' t t' : World} {op op' : Op}

/-- The same call of two alike worlds, by the kind of call. -/
theorem Answers.same_self {b b' : Ans op} (hs : SameWorld s s') (h : Answers i s op b t)
    (h' : Answers i s' op b' t') (hchoice : SameChoice op op b b') :
    SameWorld t t' ∧ SameAnswer op op b b' := by
  cases op with
  | now | postMove | ffmpeg =>
    obtain rfl := h
    obtain rfl := h'
    exact ⟨hs, heq_of_eq hchoice⟩
  | prepareJobDir | downloadVideo | cleanupDir =>
    obtain rfl := h
    obtain rfl := h'
    exact ⟨hs, HEq.rfl⟩
  | uuid4 | selectLatestResult | moderateImages =>
    obtain ⟨-, rfl⟩ := h
    obtain ⟨-, rfl⟩ := h'
    exact ⟨hs, heq_of_eq hchoice⟩
  | probe =>
    obtain ⟨-, -, -, -, rfl⟩ := h
    obtain ⟨-, -, -, -, rfl⟩ := h'
    exact ⟨hs, heq_of_eq hchoice⟩
  | hgetall key =>
    obtain ⟨rfl, rfl⟩ := h
    obtain ⟨rfl, rfl⟩ := h'
    exact ⟨hs, hs.kv.hashes key⟩
  | get key =>
    obtain ⟨rfl, rfl⟩ := h
    obtain ⟨rfl, rfl⟩ := h'
    exact ⟨hs, heq_of_eq (congrFun hs.kv.strings key)⟩
  | selectJob jobId =>
    obtain ⟨rfl, rfl⟩ := h
    obtain ⟨rfl, rfl⟩ := h'
    exact ⟨hs, hs.db.job? jobId⟩
  | selectResult jobId =>
    obtain ⟨rfl, rfl⟩ := h
    obtain ⟨rfl, rfl⟩ := h'
    refine ⟨hs, heq_of_eq ?_⟩
    rw [Db.result?, Db.result?, hs.db.results]
  | writes commands =>
    obtain rfl := h
    obtain rfl := h'
    exact ⟨⟨hs.kv.applyAll (List.forall₂_same.mpr fun c _ => .refl c), hs.db⟩, HEq.rfl⟩
  | xgroupCreate =>
    obtain ⟨-, rfl⟩ := h
    obtain ⟨-, rfl⟩ := h'
    obtain ⟨hhashes, hstrings, hfresh, hnextId, hdlq, -⟩ := hs.kv
    exact ⟨⟨⟨hhashes, hstrings, hfresh, hnextId, hdlq, rfl⟩, hs.db⟩, HEq.rfl⟩
  | xreadgroup count =>
    obtain ⟨-, rfl, rfl⟩ := h
    obtain ⟨-, rfl, rfl⟩ := h'
    refine ⟨⟨hs.kv.xreadgroup i count, hs.db⟩, ?_⟩
    exact List.rel_map (fun entry entry' hentry => hentry.message) (hs.kv.delivered count)
  | execute tx write =>
    obtain ⟨-, rfl⟩ := h
    obtain ⟨-, rfl⟩ := h'
    exact ⟨hs, HEq.rfl⟩
  | commit tx =>
    obtain rfl : b = b' := hchoice
    obtain ⟨d, hd, rfl⟩ := h
    obtain ⟨d', hd', rfl⟩ := h'
    exact ⟨⟨hs.kv, hs.db.applyAll (List.forall₂_same.mpr fun w _ => .refl w) hd hd'⟩, HEq.rfl⟩

theorem Answers.same {b : Ans op} {b' : Ans op'} (hs : SameWorld s s') (hop : SameOp op op')
    (h : Answers i s op b t) (h' : Answers i s' op' b' t') (hchoice : SameChoice op op' b b') :
    SameWorld t t' ∧ SameAnswer op op' b b' := by
  cases hop with
  | writes hcommands =>
    obtain rfl := h
    obtain rfl := h'
    exact ⟨⟨hs.kv.applyAll hcommands, hs.db⟩, HEq.rfl⟩
  | execute =>
    obtain ⟨-, rfl⟩ := h
    obtain ⟨-, rfl⟩ := h'
    exact ⟨hs, HEq.rfl⟩
  | commit htx =>
    obtain rfl : b = b' := hchoice
    obtain ⟨d, hd, rfl⟩ := h
    obtain ⟨d', hd', rfl⟩ := h'
    exact ⟨⟨hs.kv, hs.db.applyAll htx hd hd'⟩, HEq.rfl⟩
  | downloadVideo =>
    obtain rfl := h
    obtain rfl := h'
    exact ⟨hs, HEq.rfl⟩
  | refl => exact h.same_self hs h' hchoice

theorem SameFailure.shown {e e' : PyException} (h : SameFailure op op' e e') (hshown : ShownAlike e e') :
    e = e' ∨ MayQuote op op' ∧ SameError e e' :=
  h.imp_right fun ⟨hquote, hbare⟩ => ⟨hquote, hbare, hshown⟩

/-- Alike calls with the same outcome leave the worlds alike, and their replies are alike. -/
theorem does_same : KeepsRelated likeness SameWorld Does
    fun op op' o o' => SameOutcome op op' o o' ∧ NothingShown o o' := by
  rintro i s s' op op' o o' t t' hs hop h h' ⟨hsame, hshown⟩
  cases o with
  | answered b =>
    cases o' with
    | answered b' =>
      obtain ⟨hnext, hanswer⟩ := Answers.same hs hop h h' hsame
      exact ⟨hnext, .ok hanswer⟩
    | refused | failed | lost => exact hsame.elim
  | refused e =>
    cases o' with
    | refused e' =>
      obtain ⟨-, rfl⟩ := h
      obtain ⟨-, rfl⟩ := h'
      exact ⟨hs, .error (SameFailure.shown hsame (hshown e e' rfl rfl))⟩
    | answered | failed | lost => exact hsame.elim
  | failed e =>
    cases o' with
    | failed e' =>
      obtain ⟨-, rfl⟩ := h
      obtain ⟨-, rfl⟩ := h'
      exact ⟨hs, .error (SameFailure.shown hsame (hshown e e' rfl rfl))⟩
    | answered | refused | lost => exact hsame.elim
  | lost b e =>
    cases o' with
    | lost b' e' =>
      obtain ⟨hchoice, hfailure⟩ := hsame
      obtain ⟨hnext, -⟩ := Answers.same hs hop h.2 h'.2 hchoice
      exact ⟨hnext, .error (hfailure.shown (hshown e e' rfl rfl))⟩
    | answered | refused | failed => exact hsame.elim

end

end NsfwDetector
