import NsfwDetector.Effects.Outline
import NsfwDetector.Services.Flush
import NsfwDetector.System.Callers

/-!
# Flushers and moderators beside the other services

A row is told by its place among all the rows that were ever pushed to its key. So two equal rows
are two rows, and a trim is judged by which of them it takes.
-/

namespace NsfwDetector.Flushing

open Effects Effects.Assertion Triple

/-! ## Who runs -/

inductive Party
  | service (i : Caller)
  | flusher (nr : Nat)
  | moderator (nr : Nat)
  deriving DecidableEq

inductive Answer
  | service (reply : Reply)
  | flushed
  | banned (result : ManualBanResult)

def serviceProgram (i : Caller) (p : Code Reply) : FlushCode Answer := do
  let reply ← Code.lift i p
  pure (.service reply)

def flusherProgram (settings : ClickhouseSettings) (batchSize : Int) : FlushCode Answer := do
  flushOnce settings batchSize
  pure .flushed

def moderatorProgram (settings : ClickhouseSettings) (videoId : String) (request : VideoBanRequest) :
    FlushCode Answer := do
  let result ← banVideo settings videoId request
  pure (.banned result)

/-- The other services may run any programs: those of `starts`. -/
def Begins (settings : ClickhouseSettings) (starts : Caller → Code Reply → Prop) :
    Party → FlushCode Answer → Prop
  | .service i, p => ∃ q, starts i q ∧ p = serviceProgram i q
  | .flusher _, p => ∃ batchSize, p = flusherProgram settings batchSize
  | .moderator _, p => ∃ videoId request, p = moderatorProgram settings videoId request

abbrev Moment := Config Party Stores FlushAns PyException Answer

abbrev Call := Event Party FlushAns PyException

abbrev Past := List Call

/-! ## Rows by their place -/

def pushedBy (key : String) : Call → List BufferRow
  | ⟨_, .service _ (.writes commands), o⟩ =>
    if o.TookEffect then commands.filterMap (Kvrocks.pushedRow key) else []
  | _ => []

/-- All rows that were ever pushed to `key`, in their order. -/
def pushed (key : String) : Past → List BufferRow
  | [] => []
  | e :: past => pushed key past ++ pushedBy key e

/-- How many rows are gone after a call, if `gone` of `all` were gone before. -/
def goneAfter (key : String) (all gone : Nat) : Call → Nat
  | ⟨_, .ltrim k start, o⟩ =>
    if k = key ∧ o.TookEffect then min all (gone + (place (all - gone) start).toNat) else gone
  | _ => gone

/-- How many rows have left the buffer `key`: always the first that were pushed. -/
def removed (key : String) : Past → Nat
  | [] => 0
  | e :: past => goneAfter key (pushed key past).length (removed key past) e

def readBy (i : Party) : Call → Option (String × List BufferRow)
  | ⟨j, .lrange key _, .answered rows⟩ => if j = i then some (key, rows) else none
  | _ => none

/-- What party `i` read last, and the past of that call. -/
def lastRead (i : Party) : Past → Option (String × List BufferRow × Past)
  | [] => none
  | e :: past =>
    match readBy i e with
    | some (key, rows) => some (key, rows, past)
    | none => lastRead i past

/-- The rows of `key` in the hands of party `i` after a call, if it had `rows` before. -/
def handedTo (key : String) (i : Party) (rows : List BufferRow) : Call → List BufferRow
  | ⟨j, .lrange k _, .answered read⟩ => if j = i then (if k = key then read else []) else rows
  | ⟨j, .insert _ _, _⟩ => if j = i then [] else rows
  | _ => rows

/-- The rows of `key` that party `i` has read with its last `LRANGE` and not inserted since. -/
def inHand (key : String) (i : Party) : Past → List BufferRow
  | [] => []
  | e :: past => handedTo key i (inHand key i past) e

/-- The call inserts what its caller read last, and `row`, the `n`-th of `key`, is part of that. -/
inductive Inserts (key : String) (n : Nat) (row : BufferRow) (past : Past) : Call → Prop
  | mk {i : Party} {table : String} {rows : List BufferRow} {old : Past}
      (hread : lastRead i past = some (key, rows, old)) (hfrom : removed key old ≤ n)
      (hrow : rows[n - removed key old]? = some row) :
      Inserts key n row past ⟨i, .insert table (rows.map BufferRow.clickhouse), .answered ()⟩

/-- An insert of `row`, the `n`-th of `key`, has succeeded. -/
def Inserted (key : String) (n : Nat) (row : BufferRow) : Past → Prop
  | [] => False
  | e :: past => Inserts key n row past e ∨ Inserted key n row past

section

variable {key : String} {i : Party} {past old : Past} {e : Call} {all gone : Nat}

theorem goneAfter_le (h : gone ≤ all) : goneAfter key all gone e ≤ all := by
  unfold goneAfter
  split
  · split
    · exact min_le_left _ _
    · exact h
  · exact h

theorem le_goneAfter (h : gone ≤ all) : gone ≤ goneAfter key all gone e := by
  unfold goneAfter
  split
  · split
    · exact le_min h (Nat.le_add_right _ _)
    · exact Nat.le_refl _
  · exact Nat.le_refl _

theorem removed_le (key : String) (past : Past) : removed key past ≤ (pushed key past).length := by
  induction past with
  | nil => exact Nat.le_refl 0
  | cons e past ih =>
    refine le_trans (goneAfter_le ih) ?_
    rw [pushed, List.length_append]
    exact Nat.le_add_right _ _

theorem le_removed (key : String) (e : Call) (past : Past) :
    removed key past ≤ removed key (e :: past) := le_goneAfter (removed_le key past)

theorem readBy_other (h : e.caller ≠ i) : readBy i e = none := by
  unfold readBy
  split
  · exact if_neg h
  · rfl

theorem lastRead_other (h : e.caller ≠ i) : lastRead i (e :: past) = lastRead i past := by
  rw [lastRead, readBy_other h]

theorem inHand_other (h : e.caller ≠ i) : inHand key i (e :: past) = inHand key i past := by
  rw [inHand]
  unfold handedTo
  split
  · exact if_neg h
  · exact if_neg h
  · rfl

theorem lastRead_removed {rows : List BufferRow} (h : lastRead i past = some (key, rows, old)) :
    removed key old ≤ removed key past := by
  induction past with
  | nil => cases h
  | cons e past ih =>
    refine le_trans ?_ (le_removed key e past)
    unfold lastRead at h
    split at h
    · obtain ⟨-, -, rfl⟩ : _ ∧ _ ∧ past = old := by simpa using h
      exact Nat.le_refl _
    · exact ih h

end

/-! ## What the buffers hold -/

/-- A buffer holds what was pushed to it, but for what has left. -/
def Aligned (s : Stores) (past : Past) : Prop :=
  ∀ key, s.world.kv.buffers key = (pushed key past).drop (removed key past)

/-- The `rows` that party `i` read last, where they stand among all rows. -/
structure Reading (i : Party) (key : String) (rows : List BufferRow) (old past : Past) : Prop where
  last : lastRead i past = some (key, rows, old)
  rows_first : rows <+: (pushed key past).drop (removed key old)

/-- Every row that was read has been inserted. -/
def Safe (key : String) (rows : List BufferRow) (old past : Past) : Prop :=
  ∀ n row, removed key old ≤ n → n < removed key old + rows.length →
    (pushed key past)[n]? = some row → Inserted key n row past

/-- Whoever trims has inserted what it read last, and trims as many rows as that. -/
def MayTrim (i : Party) (past : Past) (key : String) (start : Int) : Prop :=
  ∃ rows old, Reading i key rows old past ∧ Safe key rows old past ∧ start = rows.length

section

variable {key : String} {i j : Party} {past old : Past} {e : Call} {rows : List BufferRow}
  {s s' : Stores} {op : FlushOp} {o : Outcome PyException (FlushAns op)}

theorem prefix_getElem? {l l' : List BufferRow} {n : Nat} (h : l <+: l') (hn : n < l.length) :
    l[n]? = l'[n]? := by
  obtain ⟨rest, rfl⟩ := h
  exact (List.getElem?_append_left hn).symm

theorem prefix_pushed (key : String) (e : Call) (past : Past) :
    pushed key past <+: pushed key (e :: past) := List.prefix_append ..

theorem Reading.other (h : Reading i key rows old past) (he : e.caller ≠ i) :
    Reading i key rows old (e :: past) where
  last := (lastRead_other he).trans h.last
  rows_first := h.rows_first.trans ((prefix_pushed key e past).drop _)

theorem Reading.lt {n : Nat} (h : Reading i key rows old past) (hfrom : removed key old ≤ n)
    (hto : n < removed key old + rows.length) : n < (pushed key past).length := by
  have hle := h.rows_first.length_le
  rw [List.length_drop] at hle
  omega

theorem Reading.row {n : Nat} {row : BufferRow} (h : Reading i key rows old past)
    (hfrom : removed key old ≤ n) (hto : n < removed key old + rows.length)
    (hrow : (pushed key past)[n]? = some row) : rows[n - removed key old]? = some row := by
  rw [prefix_getElem? h.rows_first (by omega), List.getElem?_drop, Nat.add_sub_cancel' hfrom,
    hrow]

theorem Safe.next (hread : Reading i key rows old past) (h : Safe key rows old past) :
    Safe key rows old (e :: past) := by
  intro n row hfrom hto hrow
  refine .inr (h n row hfrom hto ?_)
  rw [← hrow, prefix_getElem? (prefix_pushed key e past) (hread.lt hfrom hto)]

theorem buffers_service {world : World} {k : Caller} {op : Op} {o : Outcome PyException (Ans op)}
    (h : Does k s.world op o world) (key : String) :
    world.kv.buffers key = s.world.kv.buffers key ++ pushedBy key ⟨i, .service k op, o⟩ := by
  cases op with
  | writes commands =>
    by_cases ho : o.TookEffect
    · rw [h.writes ho, Kvrocks.applyAll_buffers]
      simp only [pushedBy, if_pos ho]
    · rw [h.of_not_tookEffect ho]
      simp only [pushedBy, if_neg ho, List.append_nil]
  | _ => cases h.change <;> exact (List.append_nil _).symm

theorem drop_min (l : List BufferRow) (n : Nat) : l.drop (min l.length n) = l.drop n := by
  rcases le_total l.length n with h | h
  · rw [min_eq_left h, List.drop_length, List.drop_eq_nil_of_le h]
  · rw [min_eq_right h]

theorem aligned_call (hal : Aligned s past) (h : FlushDoes i s op o s') :
    Aligned s' (⟨i, op, o⟩ :: past) := by
  intro key
  have hle := removed_le key past
  cases op with
  | service k op =>
    obtain ⟨world, hdoes, rfl⟩ := h.service
    change world.kv.buffers key = (pushed key past ++ pushedBy key _).drop (removed key past)
    rw [buffers_service hdoes key, hal key, List.drop_append_of_le_length hle]
  | ltrim k start =>
    have hpushed : pushed key (⟨i, .ltrim k start, o⟩ :: past) = pushed key past :=
      List.append_nil _
    rw [hpushed, removed, goneAfter]
    by_cases ho : o.TookEffect
    · obtain ⟨-, rfl⟩ : ∃ _ : Unit, s' = s.trim k start := h.takes ho
      by_cases hk : k = key
      · subst hk
        rw [if_pos ⟨rfl, ho⟩]
        change Function.update s.world.kv.buffers k _ k = _
        rw [Function.update_self, hal k, onwards, List.drop_drop, List.length_drop, drop_min]
      · rw [if_neg fun hboth => hk hboth.1]
        exact (Function.update_of_ne (Ne.symm hk) ..).trans (hal key)
    · rw [if_neg fun hboth => ho hboth.2, h.of_not_tookEffect ho]
      exact hal key
  | now | lrange | insert =>
    rw [h.world_eq trivial, hal key]
    exact congrArg (List.drop _) (List.append_nil _).symm

end

/-! ## The discipline -/

/-- A legacy row that is inserted flags its video, or its party has read it from the buffer. -/
def MayInsert (settings : ClickhouseSettings) (i : Party) (past : Past) (rows : List ClickhouseRow) :
    Prop :=
  ∀ row, .legacy row ∈ rows →
    row.isNsfw = true ∨ .legacy row ∈ inHand settings.clickhouseBufferLegacyKey i past

def May (settings : ClickhouseSettings) (i : Party) (past : Past) : FlushOp → Prop
  | .ltrim key start => MayTrim i past key start
  | .insert _ rows => MayInsert settings i past rows
  | .service _ _ | .now | .lrange _ _ => True

def flushing (settings : ClickhouseSettings) : Discipline Party Stores FlushAns PyException where
  does := FlushDoes
  inv := Aligned
  may i _ past op := May settings i past op
  inv_call hal _ hdoes := aligned_call hal hdoes

/-- Calls that everyone may make. -/
def Free : FlushOp → Prop
  | .ltrim _ _ | .insert _ _ => False
  | .service _ _ | .now | .lrange _ _ => True

variable {settings : ClickhouseSettings}

theorem may_of_free {i : Party} {past : Past} {op : FlushOp} (hop : Free op) :
    May settings i past op := by
  cases op with
  | ltrim | insert => exact hop.elim
  | service | now | lrange => trivial

section

variable {i : Party} {key : String} {rows : List BufferRow}

def reading (settings : ClickhouseSettings) (i : Party) (key : String) (rows : List BufferRow) :
    Assertion (flushing settings) i where
  holds _ past := (∃ old, Reading i key rows old past) ∧ inHand key i past = rows
  stable hj _ _ _ := fun ⟨⟨old, hread⟩, hhand⟩ => ⟨⟨old, hread.other hj⟩, (inHand_other hj).trans hhand⟩

def inserted (settings : ClickhouseSettings) (i : Party) (key : String) (rows : List BufferRow) :
    Assertion (flushing settings) i where
  holds _ past := ∃ old, Reading i key rows old past ∧ Safe key rows old past
  stable hj _ _ _ := fun ⟨old, hread, hsafe⟩ => ⟨old, hread.other hj, hsafe.next hread⟩

theorem readBatch_outline (key : String) (limit : Int) :
    Triple (onOk (reading settings i key)) .top (readBatch key limit) := by
  refine .ask (D := flushing settings) (.lrange key (limit - 1)) (fun _ _ _ _ => trivial) ?_
  rintro s past rows s' hal - ⟨rfl, -⟩
  refine ⟨⟨past, ?_, ?_⟩, ?_⟩
  · simp only [lastRead, readBy, if_pos]
  · change upTo _ _ <+: (pushed key past ++ []).drop (removed key past)
    rw [List.append_nil, ← hal key]
    exact prefix_upTo ..
  · simp only [inHand, handedTo, if_pos]

theorem mem_of_clickhouse {row : LegacyNsfwAggRow}
    (h : ClickhouseRow.legacy row ∈ rows.map BufferRow.clickhouse) : BufferRow.legacy row ∈ rows := by
  obtain ⟨b, hb, heq⟩ := List.mem_map.mp h
  cases b with
  | legacy r => exact ClickhouseRow.legacy.inj heq ▸ hb
  | videoResult | storageAction => cases heq

theorem insertModelRows_outline (tableName : String) (hrows : rows ≠ [])
    (hlegacy : ∀ row, BufferRow.legacy row ∈ rows → key = settings.clickhouseBufferLegacyKey) :
    Triple (onOk fun _ => inserted settings i key rows) (reading settings i key rows)
      (insertModelRows settings tableName (rows.map BufferRow.clickhouse)) := by
  rw [insertModelRows, if_neg (by simpa using hrows)]
  refine .ask (D := flushing settings) (.insert _ _) ?_ ?_
  · rintro s past - ⟨-, hhand⟩ row hrow
    have hread := mem_of_clickhouse hrow
    refine .inr ?_
    rw [← hlegacy row hread, hhand]
    exact hread
  · rintro s past ⟨⟩ s' - ⟨⟨old, hread⟩, -⟩ -
    refine ⟨old, ⟨hread.last, ?_⟩, ?_⟩
    · exact hread.rows_first.trans ((prefix_pushed key _ past).drop _)
    · intro n row hfrom hto hrow
      rw [← prefix_getElem? (prefix_pushed key _ past) (hread.lt hfrom hto)] at hrow
      exact .inl ⟨hread.last, hfrom, hread.row hfrom hto hrow⟩

theorem trimBatch_outline : Triple (onOk fun _ => .top) (inserted settings i key rows)
    (trimBatch key rows.length) := by
  refine .ask (D := flushing settings) (.ltrim key rows.length) ?_ fun _ _ _ _ _ _ _ => trivial
  rintro s past - ⟨old, hread, hsafe⟩
  exact ⟨rows, old, hread, hsafe, rfl⟩

theorem flushRows_outline (batchSize : Int) (key tableName : String)
    {modelValidate : BufferRow → Except PyException ClickhouseRow}
    (hvalidate : ∀ row parsed, modelValidate row = .ok parsed → parsed = row.clickhouse)
    (hlegacy : ∀ row parsed, modelValidate (.legacy row) = .ok parsed →
      key = settings.clickhouseBufferLegacyKey) :
    Triple (onOk fun _ => .top) (.top : Assertion (flushing settings) i)
      (flushRows settings batchSize key tableName modelValidate) := by
  refine (readBatch_outline key batchSize).andThen fun rows => ?_
  split
  · exact .give (entails_top _)
  · next hrows =>
    cases hparsed : rows.mapM modelValidate with
    | error e => exact .done (entails_top _)
    | ok parsed =>
      have hkey : ∀ row, BufferRow.legacy row ∈ rows → key = settings.clickhouseBufferLegacyKey := by
        intro row hrow
        obtain ⟨r, hr⟩ := Raising.exists_mapM_eq_ok.mp ⟨parsed, hparsed⟩ _ hrow
        exact hlegacy row r hr
      obtain rfl := Raising.mapM_eq_map hvalidate hparsed
      exact (insertModelRows_outline tableName hrows hkey).andThen fun _ => trimBatch_outline

theorem flushOnce_outline (batchSize : Int) :
    Triple (onOk fun _ => .top) (.top : Assertion (flushing settings) i)
      (flushOnce settings batchSize) := by
  have hvideo : Triple (onOk fun _ => .top) (.top : Assertion (flushing settings) i)
      (flushVideoResults settings batchSize) := by
    refine flushRows_outline batchSize _ _ validateVideoResult_eq ?_
    intro row parsed hparsed
    cases hparsed
  have hlegacy : Triple (onOk fun _ => .top) (.top : Assertion (flushing settings) i)
      (flushLegacyRows settings batchSize) :=
    flushRows_outline batchSize _ _ validateLegacy_eq fun _ _ _ => rfl
  have hactions : Triple (onOk fun _ => .top) (.top : Assertion (flushing settings) i)
      (flushStorageActions settings batchSize) := by
    refine flushRows_outline batchSize _ _ validateStorageAction_eq ?_
    intro row parsed hparsed
    cases hparsed
  exact hvideo.andThen fun _ => hlegacy.andThen fun _ => hactions

end

theorem lift_within {α : Type} (i : Caller) (p : Code α) :
    (Code.lift i p).Within Free fun _ => True := by
  induction p with
  | done r =>
    cases r with
    | ok a => exact .ok trivial
    | error e => exact .error
  | call op k ih => exact .call trivial ih

/-! ## Bans -/

/-- The video whose ban the call has put into `video_nsfw_agg`, answered. -/
def banOf (settings : ClickhouseSettings) : Call → Option String
  | ⟨.moderator _, .insert table [.legacy row], .answered _⟩ =>
    if table = settings.table settings.clickhouseNsfwAggTable ∧ row.isNsfw = true then some row.videoId
    else none
  | _ => none

def ended (settings : ClickhouseSettings) (i : Party) : Answer → Assertion (flushing settings) i
  | .banned result => called fun e => banOf settings e = some result.videoId
  | .service _ | .flushed => .top

theorem banVideo_outline (nr : Nat) (videoId : String) (request : VideoBanRequest) :
    Triple (onOk fun result => ended settings (.moderator nr) (.banned result)) .top
      (banVideo settings videoId request) := by
  have hban : Triple (onOk fun _ => called fun e => banOf settings e = some videoId)
      (.top : Assertion (flushing settings) (.moderator nr))
      (insertModelRows settings settings.clickhouseNsfwAggTable [.legacy (bannedLegacyRow videoId)]) := by
    rw [insertModelRows, if_neg (List.cons_ne_nil _ _)]
    refine .ask (D := flushing settings) (.insert _ _) ?_ ?_
    · intro s past _ _ row hrow
      cases List.mem_singleton.mp hrow
      exact .inl rfl
    · intro s past b s' _ _ _
      exact ⟨_, List.mem_cons_self, if_pos ⟨rfl, rfl⟩⟩
  have hexcluded : ∀ now, Triple (onOk fun _ => called fun e => banOf settings e = some videoId)
      (called (fun e => banOf settings e = some videoId) : Assertion (flushing settings) (.moderator nr))
      (insertModelRows settings settings.clickhouseExcludedVideosTable
        [.excluded (bannedExcludedRow videoId now)]) := by
    intro now
    rw [insertModelRows, if_neg (List.cons_ne_nil _ _)]
    refine .ask (D := flushing settings) (.insert _ _) ?_ ?_
    · intro s past _ _ row hrow
      cases List.mem_singleton.mp hrow
    · rintro s past b s' - ⟨e, he, hbans⟩ -
      exact ⟨e, List.mem_cons_of_mem _ he, hbans⟩
  have hnow : Triple (onOk fun _ => .top) (.top : Assertion (flushing settings) (.moderator nr))
      (issue .now) :=
    .ask (D := flushing settings) .now (fun _ _ _ _ => trivial) fun _ _ _ _ _ _ _ => trivial
  exact hnow.andThen fun now => hban.andThen fun _ => (hexcluded now).andThen fun _ => .give (.refl _)

variable {starts : Caller → Code Reply → Prop} {c : Moment}

theorem outlines {i : Party} {p : FlushCode Answer} (h : Begins settings starts i p) :
    Triple (onOk (ended settings i)) ((flushing settings).fresh i) p := by
  cases i with
  | service i =>
    obtain ⟨q, -, rfl⟩ := h
    have hlift : Triple (onOk fun _ => (Assertion.top).and (.pure True))
        (.top : Assertion (flushing settings) (.service i)) (Code.lift i q) :=
      quiet keeps_top (fun _ _ _ hop _ _ => may_of_free hop) (lift_within i q)
    exact (hlift.andThen fun _ => .give (entails_top _)).weaken (entails_top _)
  | flusher nr =>
    obtain ⟨batchSize, rfl⟩ := h
    exact ((flushOnce_outline batchSize).andThen fun _ => .give (entails_top _)).weaken
      (entails_top _)
  | moderator nr =>
    obtain ⟨videoId, request, rfl⟩ := h
    exact ((banVideo_outline nr videoId request).andThen fun _ => .give (.refl _)).weaken
      (entails_top _)

theorem aligned_initial : Aligned {} [] := fun _ => rfl

theorem sound {cond : StepCond Party Stores FlushAns PyException Answer}
    (h : ReachVia (Begins settings starts) FlushDoes cond {} c) :
    (flushing settings).Sound (fun i => onOk (ended settings i)) c :=
  Discipline.sound (D := flushing settings) (fun _ _ => outlines) aligned_initial h

/-! ## Scripts -/

def flushAnswer (outside : Outside) (s : Stores) : (op : FlushOp) → Option (FlushAns op × Stores)
  | .service _ _ => none
  | .now => some (outside.time, s)
  | .lrange key stop => some (upTo (s.world.kv.buffers key) stop, s)
  | .ltrim key start => some ((), s.trim key start)
  | .insert table rows =>
    if s.clock ≤ outside.time then some ((), s.insert table rows outside.time) else none

def chooseFlush : Chooser Party Stores Choice FlushAns PyException := fun _ s op choice =>
  match op, choice with
  | .service i op, choice =>
    (choose i s.world op choice).map fun (o, world) => (o, { s with world := world })
  | op, .reply outside => (flushAnswer outside s op).map fun (b, s') => (.answered b, s')
  | _, _ => none

theorem flushAnswers_of_answer {outside : Outside} {s s' : Stores} {op : FlushOp} {b : FlushAns op}
    (h : flushAnswer outside s op = some (b, s')) : FlushAnswers s op b s' := by
  cases op with
  | service => cases h
  | now | ltrim => exact (Prod.mk.inj (Option.some.inj h)).2.symm
  | lrange =>
    obtain ⟨rfl, rfl⟩ := Prod.mk.inj (Option.some.inj h)
    exact ⟨rfl, rfl⟩
  | insert =>
    simp only [flushAnswer] at h
    split at h
    · next hclock =>
      obtain ⟨-, rfl⟩ := Prod.mk.inj (Option.some.inj h)
      exact ⟨_, hclock, rfl⟩
    · cases h

theorem chooseFlush_within : chooseFlush.Within FlushDoes := by
  intro i s op choice o s' h
  unfold chooseFlush at h
  split at h
  · obtain ⟨⟨o', world⟩, hchosen, heq⟩ := Option.map_eq_some_iff.mp h
    obtain ⟨rfl, rfl⟩ := Prod.mk.inj heq
    exact .of_does (choose_within _ _ _ _ _ _ hchosen)
  · obtain ⟨⟨b, t⟩, hb, heq⟩ := Option.map_eq_some_iff.mp h
    obtain ⟨rfl, rfl⟩ := Prod.mk.inj heq
    exact flushAnswers_of_answer hb
  · cases h

abbrev Script := List (Turn Party FlushAns PyException Answer Choice)

/-- `n` calls of party `i`, each with a reply. -/
def replies (i : Party) (n : Nat) (outside : Outside) : Script :=
  List.replicate n (.call i (.reply outside))

/-- One attempt at a job from the start to the end. -/
def attemptScript (settings : Settings) (nr : Nat) (job : VideoJob) (outside : Outside) (n : Nat) :
    Script :=
  .start (.service (.attempt nr)) (serviceProgram (.attempt nr) (attemptProgram settings job)) ::
    replies (.service (.attempt nr)) n outside

def startFlusher (settings : ClickhouseSettings) (nr : Nat) :
    Turn Party FlushAns PyException Answer Choice :=
  .start (.flusher nr) (flusherProgram settings 50)

theorem legal_replies {i : Party} {n : Nat} {outside : Outside} :
    ∀ t ∈ replies i n outside, t.Legal (Begins settings starts) := by
  intro t ht
  rw [List.eq_of_mem_replicate ht]
  trivial

theorem legal_attemptScript {nr n : Nat} {job : VideoJob} {outside : Outside} :
    ∀ t ∈ attemptScript settings.toSettings nr job outside n,
      t.Legal (Begins settings (Starts settings.toSettings)) := by
  intro t ht
  rcases List.mem_cons.mp ht with rfl | ht
  · exact ⟨_, ⟨job, rfl⟩, rfl⟩
  · exact legal_replies t ht

end NsfwDetector.Flushing
