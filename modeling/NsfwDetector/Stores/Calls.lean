import NsfwDetector.Effects.Run
import NsfwDetector.Stores.Kvrocks
import NsfwDetector.Stores.Postgres

/-!
# The calls that leave the process

Every point at which the code awaits something outside is one call here. Most calls may fail,
before they took effect or after.
-/

namespace NsfwDetector

open Effects

/-- Who runs: a worker, a caller of the API, or a single `process` call for one job. -/
inductive Caller
  | worker (nr : Nat)
  | api (nr : Nat)
  | reader (nr : Nat)
  | attempt (nr : Nat)
  deriving DecidableEq, Repr

inductive Op
  | now
  | uuid4
  | hgetall (key : String)
  | get (key : String)
  /-- One command, or several in `MULTI`/`EXEC`: all of them at once. -/
  | writes (commands : List Command)
  | xgroupCreate
  | xreadgroup (count : Int)
  | selectJob (jobId : String)
  | selectResult (jobId : String)
  | selectLatestResult (videoId : String)
  /-- A statement inside a transaction that has made the writes `tx` so far. -/
  | execute (tx : List Write) (write : Write)
  | commit (tx : List Write)
  | prepareJobDir (jobId : String)
  | downloadVideo (sourceUrl : String)
  | probe (jobId videoId : String)
  | ffmpeg (jobId : String)
  /-- The model call, and the parser on what it returns. -/
  | moderateImages (imagePaths : List String)
  | postMove (publisherUserId videoId : String)
  | cleanupDir (jobId : String)

/-- What a call answers. A commit answers the time of its transaction, which nobody reads. -/
abbrev Ans : Op → Type
  | .now => Time
  | .uuid4 => String
  | .hgetall _ => Option VideoJob
  | .get _ => Option String
  | .xreadgroup _ => List QueuedVideoJobMessage
  | .selectJob _ => Option VideoJob
  | .selectResult _ | .selectLatestResult _ => Option VideoResultRow
  | .commit _ => Time
  | .probe _ _ => VideoMetadata
  | .ffmpeg _ => List String
  | .moderateImages _ => List FrameModerationOutput
  | .postMove _ _ => StorjMoveResponse
  | .writes _ | .xgroupCreate | .execute _ _ | .prepareJobDir _ | .downloadVideo _ | .cleanupDir _ =>
    Unit

abbrev Code := Prog Ans PyException

abbrev await (op : Op) : Code (Ans op) := Prog.perform op

structure World where
  kv : Kvrocks Caller := {}
  db : Db := ⟨[], [], [], []⟩

/-- The clock, the random bits and the removal of a directory do not raise. -/
def Op.MayFail : Op → Prop
  | .now | .uuid4 | .cleanupDir _ => False
  | _ => True

/-- An external call never raises the exception that `process` makes of a failure. -/
def Op.MayRaise (op : Op) (e : PyException) : Prop := op.MayFail ∧ e.Foreign

/-- `Answers i s op b s'`: in `s` the call can take effect with the answer `b`, and leave `s'`. -/
def Answers (i : Caller) (s : World) : (op : Op) → Ans op → World → Prop
  | .uuid4, id, s' => ':' ∉ id.toList ∧ s' = s
  | .hgetall key, job, s' => job = s.kv.hashes key ∧ s' = s
  | .get key, value, s' => value = s.kv.strings key ∧ s' = s
  | .writes commands, _, s' => s' = { s with kv := s.kv.applyAll commands }
  | .xgroupCreate, _, s' => s.kv.groupCreated = false ∧ s' = { s with kv.groupCreated := true }
  | .xreadgroup count, messages, s' => s.kv.groupCreated = true ∧
      messages = (s.kv.delivered count).map (·.message) ∧
      s' = { s with kv := s.kv.xreadgroup i count }
  | .selectJob jobId, job, s' => job = s.db.job? jobId ∧ s' = s
  | .selectResult jobId, row, s' => row = s.db.result? jobId ∧ s' = s
  | .selectLatestResult videoId, row, s' => s.db.LatestResult videoId row ∧ s' = s
  | .execute tx write, _, s' => (∃ now db, s.db.applyAll now (tx ++ [write]) = .ok db) ∧ s' = s
  | .commit tx, now, s' => ∃ db, s.db.applyAll now tx = .ok db ∧ s' = { s with db := db }
  | .probe jobId videoId, metadata, s' => metadata.jobId = jobId ∧ metadata.videoId = videoId ∧
      metadata.hasVideoStream = true ∧ metadata.framesExtracted = 0 ∧ s' = s
  | .moderateImages imagePaths, outputs, s' => outputs.map (·.frameIndex) =
      List.range imagePaths.length ∧ s' = s
  | _, _, s' => s' = s

/-- `Refuses s op e`: a rule of the store forbids the call. -/
def Refuses (s : World) : Op → PyException → Prop
  | .xgroupCreate, e => s.kv.groupCreated = true ∧
      e = .other "ResponseError" "BUSYGROUP Consumer Group name already exists"
  | .xreadgroup _, e => s.kv.groupCreated = false ∧
      e = .other "ResponseError" "NOGROUP No such key or consumer group"
  | .execute tx write, e => ∃ now, s.db.applyAll now (tx ++ [write]) = .error e
  | .commit tx, e => ∃ now, s.db.applyAll now tx = .error e
  | _, _ => False

/-- What a call of caller `i` can end with. -/
def Does : Behaviour Caller World Ans PyException := fun i s op o s' =>
  match o with
  | .answered b => Answers i s op b s'
  | .refused e => Refuses s op e ∧ s' = s
  | .failed e => op.MayRaise e ∧ s' = s
  | .lost b e => op.MayRaise e ∧ Answers i s op b s'

/-! ## What a call changes -/

/-- The ways in which a call of caller `i` changes the stores. -/
inductive Change (i : Caller) (s : World) : (op : Op) → Outcome PyException (Ans op) → World → Prop
  | nothing {op : Op} {o : Outcome PyException (Ans op)} : Change i s op o s
  | writes {commands : List Command} {o : Outcome PyException (Ans (.writes commands))}
      (heffect : o.TookEffect) :
      Change i s (.writes commands) o { s with kv := s.kv.applyAll commands }
  | commit {tx : List Write} {o : Outcome PyException (Ans (.commit tx))} {now : Time} {db : Db}
      (heffect : o.TookEffect) (hdb : s.db.applyAll now tx = .ok db) :
      Change i s (.commit tx) o { s with db := db }
  | group {o : Outcome PyException (Ans .xgroupCreate)} :
      Change i s .xgroupCreate o { s with kv.groupCreated := true }
  | read {count : Int} {o : Outcome PyException (Ans (.xreadgroup count))} (heffect : o.TookEffect) :
      Change i s (.xreadgroup count) o { s with kv := s.kv.xreadgroup i count }

theorem Answers.change {i : Caller} {s s' : World} {op : Op} {b : Ans op}
    {o : Outcome PyException (Ans op)} (ho : o.TookEffect) (h : Answers i s op b s') :
    Change i s op o s' := by
  cases op with
  | writes => exact (show s' = _ from h) ▸ .writes ho
  | commit =>
    obtain ⟨db, hdb, rfl⟩ := h
    exact .commit ho hdb
  | xgroupCreate => exact h.2 ▸ .group
  | xreadgroup => exact h.2.2 ▸ .read ho
  | now | prepareJobDir | downloadVideo | ffmpeg | postMove | cleanupDir =>
    exact (show s' = s from h) ▸ .nothing
  | probe => exact h.2.2.2.2 ▸ .nothing
  | uuid4 | hgetall | get | selectJob | selectResult | selectLatestResult | execute | moderateImages =>
    exact h.2 ▸ .nothing

theorem Does.change {i : Caller} {s s' : World} {op : Op} {o : Outcome PyException (Ans op)}
    (h : Does i s op o s') : Change i s op o s' := by
  cases o with
  | answered b => exact Answers.change trivial h
  | refused e => exact h.2 ▸ .nothing
  | failed e => exact h.2 ▸ .nothing
  | lost b e => exact Answers.change trivial h.2

theorem Does.of_not_tookEffect {i : Caller} {s s' : World} {op : Op} {o : Outcome PyException (Ans op)}
    (h : Does i s op o s') (ho : ¬ o.TookEffect) : s' = s := by
  cases o with
  | answered b | lost b => exact absurd trivial ho
  | refused e | failed e => exact h.2

theorem Does.writes {i : Caller} {s s' : World} {commands : List Command}
    {o : Outcome PyException (Ans (.writes commands))} (h : Does i s (.writes commands) o s')
    (ho : o.TookEffect) : s' = { s with kv := s.kv.applyAll commands } := by
  cases o with
  | answered b => exact h
  | lost b e => exact h.2
  | refused e | failed e => exact ho.elim

theorem Does.xreadgroup {i : Caller} {s s' : World} {count : Int}
    {o : Outcome PyException (Ans (.xreadgroup count))} (h : Does i s (.xreadgroup count) o s')
    (ho : o.TookEffect) : s' = { s with kv := s.kv.xreadgroup i count } := by
  cases o with
  | answered b => exact h.2.2
  | lost b e => exact h.2.2.2
  | refused e | failed e => exact ho.elim

theorem Does.commit {i : Caller} {s s' : World} {tx : List Write}
    {o : Outcome PyException (Ans (.commit tx))} (h : Does i s (.commit tx) o s')
    (ho : o.TookEffect) : ∃ now db, s.db.applyAll now tx = .ok db ∧ s' = { s with db := db } := by
  cases o with
  | answered now => exact ⟨now, h⟩
  | lost now e => exact ⟨now, h.2⟩
  | refused e | failed e => exact ho.elim

/-- Whatever a call raises, it is not the exception that `process` makes of a failure. -/
theorem Does.raises {i : Caller} {s s' : World} {op : Op} {o : Outcome PyException (Ans op)}
    {e : PyException} (h : Does i s op o s') (hraise : o.seen = .error e) : e.Foreign := by
  cases o with
  | answered b => cases hraise
  | failed e' | lost b e' =>
    cases hraise
    exact h.1.2
  | refused e' =>
    cases hraise
    obtain ⟨hrefuses, -⟩ := h
    cases op with
    | xgroupCreate | xreadgroup =>
      obtain ⟨-, rfl⟩ := hrefuses
      trivial
    | execute | commit =>
      obtain ⟨now, herror⟩ := hrefuses
      exact Db.applyAll_raises herror
    | _ => exact hrefuses.elim

theorem Does.results {i : Caller} {s s' : World} {op : Op} {o : Outcome PyException (Ans op)}
    (h : Does i s op o s') {row : VideoResultRow} (hrow : row ∈ s.db.results) :
    row ∈ s'.db.results := by
  cases h.change with
  | nothing | writes | group | read => exact hrow
  | commit _ hdb => exact (Db.mem_results hdb row).mpr (.inl hrow)

theorem Does.hash_stays {i : Caller} {s s' : World} {op : Op} {o : Outcome PyException (Ans op)}
    (h : Does i s op o s') {key : String} (hthere : s.kv.hashes key ≠ none) :
    s'.kv.hashes key ≠ none := by
  cases h.change with
  | nothing | commit | group | read => exact hthere
  | @writes commands o _ => exact Kvrocks.applyAll_hash_stays s.kv commands hthere

theorem Does.hash_there {i : Caller} {s s' : World} {commands : List Command}
    {o : Outcome PyException (Ans (.writes commands))} (h : Does i s (.writes commands) o s')
    (ho : o.TookEffect) {key : String} {job : VideoJob} (hmem : .hset key job ∈ commands) :
    s'.kv.hashes key ≠ none := by
  obtain rfl := h.writes ho
  exact Kvrocks.applyAll_hash_there s.kv hmem

end NsfwDetector
