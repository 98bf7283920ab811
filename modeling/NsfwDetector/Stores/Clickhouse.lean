import NsfwDetector.Stores.Calls
import Mathlib.Data.List.MinMax

/-!
# The tables of ClickHouse

Rows wait in the buffers of Kvrocks until a flush moves them into a table. A ban goes into its
tables at once. Each insert happens at a time of the ClickHouse clock, which never goes back.
-/

namespace NsfwDetector

open Effects

structure ClickhouseSettings extends Settings where
  clickhouseDatabase : String := "yral"
  clickhouseNsfwTable : String := "video_nsfw_detection"
  clickhouseNsfwAggTable : String := "video_nsfw_agg"
  clickhouseExcludedVideosTable : String := "excluded_videos"
  clickhouseStorageActionsTable : String := "video_nsfw_storage_actions"

def ClickhouseSettings.table (settings : ClickhouseSettings) (tableName : String) : String :=
  settings.clickhouseDatabase ++ "." ++ tableName

/-! ## Rows -/

structure ExcludedVideoRow where
  videoId : String
  excludedAt : Time
  exclusionReason : String
  updatedAtReplacing : Time

inductive ClickhouseRow
  | videoResult (row : VideoNsfwDetectionRow)
  | legacy (row : LegacyNsfwAggRow)
  | storageAction (row : StorageActionRow)
  | excluded (row : ExcludedVideoRow)

namespace ClickhouseRow

/-- The column `_updated_at`. A row without `updated_at_replacing` gets the time of its insertion. -/
def updatedAt (now : Time) : ClickhouseRow → Time
  | videoResult row => row.updatedAtReplacing
  | legacy _ => now
  | storageAction row => row.updatedAtReplacing
  | excluded row => row.updatedAtReplacing

def legacy? : ClickhouseRow → Option LegacyNsfwAggRow
  | legacy row => some row
  | _ => none

end ClickhouseRow

/-- The row that `model_validate` gives back for a buffered row of its own kind. -/
def BufferRow.clickhouse : BufferRow → ClickhouseRow
  | videoResult row => .videoResult row
  | legacy row => .legacy row
  | storageAction row => .storageAction row

structure StoredRow where
  row : ClickhouseRow
  updatedAt : Time

namespace StoredRow

def legacy? (stored : StoredRow) : Option (LegacyNsfwAggRow × Time) :=
  stored.row.legacy?.map (·, stored.updatedAt)

end StoredRow

/-- The rows of `video_nsfw_agg` for a video, oldest first, each with its version. -/
def legacyVersions (table : List StoredRow) (videoId : String) : List (LegacyNsfwAggRow × Time) :=
  (table.filterMap StoredRow.legacy?).filter (·.1.videoId = videoId)

/-- What `ReplacingMergeTree(_updated_at)` keeps of a video: the greatest version, and of equal
versions the one inserted last. -/
def currentRow (table : List StoredRow) (videoId : String) : Option LegacyNsfwAggRow :=
  ((legacyVersions table videoId).reverse.argmax (·.2)).map (·.1)

/-! ## Lists of Redis -/

/-- A negative index counts from the end of the list. -/
def place (length : Nat) (index : Int) : Int := if index < 0 then length + index else index

theorem place_natCast (length index : Nat) : place length index = index := by
  rw [place, if_neg (by omega)]

section

variable {α : Type}

/-- `LRANGE key 0 stop` -/
def upTo (l : List α) (stop : Int) : List α := l.take (place l.length stop + 1).toNat

/-- What `LTRIM key start -1` leaves. -/
def onwards (l : List α) (start : Int) : List α := l.drop (place l.length start).toNat

theorem prefix_upTo (l : List α) (stop : Int) : upTo l stop <+: l := List.take_prefix ..

end

/-! ## Calls -/

structure Stores where
  world : World := {}
  tables : String → List StoredRow := fun _ => []
  /-- The clock of ClickHouse. -/
  clock : Time := 0

inductive FlushOp
  /-- A call of caller `i` of the other services. -/
  | service (i : Caller) (op : Op)
  | now
  /-- `LRANGE key 0 stop` -/
  | lrange (key : String) (stop : Int)
  /-- `LTRIM key start -1` -/
  | ltrim (key : String) (start : Int)
  | insert (table : String) (rows : List ClickhouseRow)

abbrev FlushAns : FlushOp → Type
  | .service _ op => Ans op
  | .now => Time
  | .lrange _ _ => List BufferRow
  | .ltrim _ _ | .insert _ _ => Unit

abbrev FlushCode := Prog FlushAns PyException

abbrev issue (op : FlushOp) : FlushCode (FlushAns op) := Prog.perform op

/-- Code of the other services, as caller `i` runs it. -/
def Code.lift {α : Type} (i : Caller) : Code α → FlushCode α
  | .done r => .done r
  | .call op k => .call (.service i op) fun r => Code.lift i (k r)

namespace Stores

def trim (s : Stores) (key : String) (start : Int) : Stores :=
  let buffers := s.world.kv.buffers
  { s with world.kv.buffers := Function.update buffers key (onwards (buffers key) start) }

def insert (s : Stores) (table : String) (rows : List ClickhouseRow) (now : Time) : Stores :=
  { s with
    tables := Function.update s.tables table
      (s.tables table ++ rows.map fun row => ⟨row, row.updatedAt now⟩)
    clock := now }

end Stores

def FlushAnswers (s : Stores) : (op : FlushOp) → FlushAns op → Stores → Prop
  | .service i op, b, s' => ∃ world, Answers i s.world op b world ∧ s' = { s with world := world }
  | .now, _, s' => s' = s
  | .lrange key stop, rows, s' => rows = upTo (s.world.kv.buffers key) stop ∧ s' = s
  | .ltrim key start, _, s' => s' = s.trim key start
  | .insert table rows, _, s' => ∃ now, s.clock ≤ now ∧ s' = s.insert table rows now

def FlushOp.MayRaise : FlushOp → PyException → Prop
  | .service _ op, e => op.MayRaise e
  | .now, _ => False
  | .lrange _ _, e | .ltrim _ _, e | .insert _ _, e => e.Foreign

def FlushRefuses (s : Stores) : FlushOp → PyException → Prop
  | .service _ op, e => Refuses s.world op e
  | _, _ => False

def FlushDoes {ι : Type} : Behaviour ι Stores FlushAns PyException := fun _ s op o s' =>
  match o with
  | .answered b => FlushAnswers s op b s'
  | .refused e => FlushRefuses s op e ∧ s' = s
  | .failed e => op.MayRaise e ∧ s' = s
  | .lost b e => op.MayRaise e ∧ FlushAnswers s op b s'

section

variable {ι : Type} {i : ι} {s s' : Stores}

theorem FlushDoes.service {j : Caller} {op : Op} {o : Outcome PyException (Ans op)}
    (h : FlushDoes i s (.service j op) o s') :
    ∃ world, Does j s.world op o world ∧ s' = { s with world := world } := by
  cases o with
  | answered b => exact h
  | refused e => exact ⟨s.world, ⟨h.1, rfl⟩, h.2⟩
  | failed e => exact ⟨s.world, ⟨h.1, rfl⟩, h.2⟩
  | lost b e =>
    obtain ⟨hraise, world, hanswers, heq⟩ := h
    exact ⟨world, ⟨hraise, hanswers⟩, heq⟩

theorem FlushDoes.of_does {j : Caller} {op : Op} {o : Outcome PyException (Ans op)} {world : World}
    (h : Does j s.world op o world) : FlushDoes i s (.service j op) o { s with world := world } := by
  cases o with
  | answered b => exact ⟨world, h, rfl⟩
  | refused e => exact ⟨h.1, congrArg (fun world => { s with world := world }) h.2⟩
  | failed e => exact ⟨h.1, congrArg (fun world => { s with world := world }) h.2⟩
  | lost b e => exact ⟨h.1, world, h.2, rfl⟩

theorem FlushDoes.of_not_tookEffect {op : FlushOp} {o : Outcome PyException (FlushAns op)}
    (h : FlushDoes i s op o s') (ho : ¬ o.TookEffect) : s' = s := by
  cases o with
  | answered b | lost b => exact absurd trivial ho
  | refused e | failed e => exact h.2

/-- Calls that leave the stores of the other services alone. -/
def FlushOp.Apart : FlushOp → Prop
  | .service _ _ | .ltrim _ _ => False
  | .now | .lrange _ _ | .insert _ _ => True

theorem FlushDoes.takes {op : FlushOp} {o : Outcome PyException (FlushAns op)}
    (h : FlushDoes i s op o s') (ho : o.TookEffect) : ∃ b, FlushAnswers s op b s' := by
  cases o with
  | answered b => exact ⟨b, h⟩
  | lost b e => exact ⟨b, h.2⟩
  | refused e | failed e => exact ho.elim

theorem FlushDoes.world_eq {op : FlushOp} {o : Outcome PyException (FlushAns op)}
    (h : FlushDoes i s op o s') (hop : op.Apart) : s'.world = s.world := by
  by_cases ho : o.TookEffect
  · obtain ⟨b, hanswers⟩ := h.takes ho
    cases op with
    | service | ltrim => exact hop.elim
    | now => exact congrArg Stores.world hanswers
    | lrange => exact congrArg Stores.world hanswers.2
    | insert =>
      obtain ⟨now, -, rfl⟩ := hanswers
      rfl
  · rw [h.of_not_tookEffect ho]

end

end NsfwDetector
