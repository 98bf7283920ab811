import NsfwDetector.System.Flushing

/-!
# How long a ban lasts

The classifier's rows wait in a buffer, and get their version when they are flushed. So a row that
is older than a ban can come into the table after it, and then it is the newer version.
-/

namespace NsfwDetector

open Effects

/-! ## Versions -/

section

variable {α β : Type} [LinearOrder β] {f : α → β}

/-- Where later entries are never smaller, the last one is the greatest. -/
theorem argmax_reverse {l : List α} (h : l.Pairwise fun a b => f a ≤ f b) :
    l.reverse.argmax f = l.getLast? := by
  induction l using List.reverseRecOn with
  | nil => rfl
  | append_singleton l a _ =>
    have hle : ∀ b ∈ l, f b ≤ f a := fun b hb =>
      (List.pairwise_append.mp h).2.2 b hb a List.mem_cons_self
    rw [List.reverse_append, List.reverse_singleton, List.singleton_append, List.argmax_cons,
      List.getLast?_append_of_ne_nil _ (List.cons_ne_nil _ _)]
    cases hmax : l.reverse.argmax f with
    | none => rfl
    | some b =>
      have hb := hle b (List.mem_reverse.mp (List.argmax_mem hmax))
      exact if_neg (not_lt.mpr hb)

end

def newest (table : List StoredRow) (videoId : String) : Option (LegacyNsfwAggRow × Time) :=
  (legacyVersions table videoId).getLast?

/-- The last row of a video in a batch. -/
def batchLast (rows : List ClickhouseRow) (videoId : String) : Option LegacyNsfwAggRow :=
  ((rows.filterMap ClickhouseRow.legacy?).filter (·.videoId = videoId)).getLast?

def versions (table : List StoredRow) : List (LegacyNsfwAggRow × Time) :=
  table.filterMap StoredRow.legacy?

section

variable {s : Stores} {table : String} {rows : List ClickhouseRow} {now : Time} {videoId : String}

theorem versions_insert : versions ((s.insert table rows now).tables table) =
    versions (s.tables table) ++ (rows.filterMap ClickhouseRow.legacy?).map (·, now) := by
  have hnew : versions (rows.map fun row => ⟨row, row.updatedAt now⟩) =
      (rows.filterMap ClickhouseRow.legacy?).map (·, now) := by
    induction rows with
    | nil => rfl
    | cons row rows ih =>
      cases row with
      | legacy row => exact congrArg ((row, now) :: ·) ih
      | videoResult | storageAction | excluded => exact ih
  change versions (Function.update s.tables table _ table) = _
  rw [Function.update_self, ← hnew]
  exact List.filterMap_append ..

theorem newest_insert : newest ((s.insert table rows now).tables table) videoId =
    ((batchLast rows videoId).map (·, now)).or (newest (s.tables table) videoId) := by
  change ((versions _).filter _).getLast? = _
  rw [versions_insert, List.filter_append, List.getLast?_append, List.filter_map, List.getLast?_map]
  rfl

/-- Versions never go down, and none is ahead of the clock. -/
def Timely (s : Stores) (table : String) : Prop :=
  (versions (s.tables table)).Pairwise (·.2 ≤ ·.2) ∧ ∀ row ∈ versions (s.tables table), row.2 ≤ s.clock

theorem currentRow_eq (h : Timely s table) :
    currentRow (s.tables table) videoId = (newest (s.tables table) videoId).map (·.1) := by
  have hsorted : (legacyVersions (s.tables table) videoId).Pairwise (·.2 ≤ ·.2) :=
    h.1.sublist List.filter_sublist
  rw [currentRow, argmax_reverse hsorted, newest]

theorem timely_insert {other : String} (h : Timely s table) (hnow : s.clock ≤ now) :
    Timely (s.insert other rows now) table := by
  obtain ⟨hsorted, hbound⟩ := h
  by_cases hother : table = other
  · subst hother
    have hold : ∀ row ∈ versions (s.tables table), row.2 ≤ now :=
      fun row hrow => le_trans (hbound row hrow) hnow
    rw [Timely, versions_insert]
    refine ⟨List.pairwise_append.mpr ⟨hsorted, ?_, ?_⟩, ?_⟩
    · exact List.pairwise_map.mpr (List.pairwise_of_forall fun _ _ => Nat.le_refl _)
    · intro row hrow new hnew
      obtain ⟨r, -, rfl⟩ := List.mem_map.mp hnew
      exact hold row hrow
    · intro row hrow
      rcases List.mem_append.mp hrow with hrow | hrow
      · exact hold row hrow
      · obtain ⟨r, -, rfl⟩ := List.mem_map.mp hrow
        exact Nat.le_refl _
  · have hsame : (s.insert other rows now).tables table = s.tables table :=
      Function.update_of_ne hother ..
    rw [Timely, hsame]
    exact ⟨hsorted, fun row hrow => le_trans (hbound row hrow) hnow⟩

end

/-! ## Runs that keep bans -/

namespace Flushing

variable {settings : ClickhouseSettings} {starts : Caller → Code Reply → Prop} {c c' : Moment}
  {past : Past}

def Banned (settings : ClickhouseSettings) (videoId : String) (past : Past) : Prop :=
  ∃ e ∈ past, banOf settings e = some videoId

theorem banned_cons {videoId : String} {e : Call} : Banned settings videoId (e :: past) ↔
    banOf settings e = some videoId ∨ Banned settings videoId past := by
  simp [Banned]

theorem banOf_eq {e : Call} {videoId : String} (h : banOf settings e = some videoId) : ∃ nr row,
    e = ⟨.moderator nr, .insert (settings.table settings.clickhouseNsfwAggTable) [.legacy row],
      .answered ()⟩ ∧ row.videoId = videoId ∧ row.isNsfw = true := by
  unfold banOf at h
  split at h
  · next nr table row b =>
    split at h
    · next hban =>
      obtain ⟨rfl, hnsfw⟩ := hban
      exact ⟨nr, row, rfl, Option.some.inj h, hnsfw⟩
    · cases h
  · cases h

/-- The video that a buffered row reports as clean. -/
def clears : BufferRow → Option String
  | .legacy row => if row.isNsfw then none else some row.videoId
  | .videoResult _ | .storageAction _ => none

/-- No row that reports the video as clean waits in the buffer, or in the hands of a party that
still runs. -/
def Flushed (settings : ClickhouseSettings) (c : Moment) (videoId : String) : Prop :=
  (∀ row ∈ c.state.world.kv.buffers settings.clickhouseBufferLegacyKey, clears row ≠ some videoId) ∧
    ∀ i, (c.threads i).Acting → ∀ row ∈ inHand settings.clickhouseBufferLegacyKey i c.history,
      clears row ≠ some videoId

/-- A ban comes after the flush of all clean rows of its video that were pushed before, and no clean
row of a banned video is pushed. -/
def InOrder (settings : ClickhouseSettings) (c : Moment) (e : Call) : Prop :=
  (∀ videoId, banOf settings e = some videoId → Flushed settings c videoId) ∧
    ∀ row ∈ pushedBy settings.clickhouseBufferLegacyKey e, ∀ videoId, clears row = some videoId →
      ¬ Banned settings videoId c.history

def Ordered (settings : ClickhouseSettings) : StepCond Party Stores FlushAns PyException Answer :=
  fun c l _ =>
    match l with
    | .call e => InOrder settings c e
    | .start _ | .kill _ => True

/-! ### What waits -/

section

variable {s s' : Stores} {i : Party} {op : FlushOp} {o : Outcome PyException (FlushAns op)}
  {key videoId : String} {row : BufferRow}

theorem mem_buffers_call (h : FlushDoes i s op o s') (hrow : row ∈ s'.world.kv.buffers key) :
    row ∈ s.world.kv.buffers key ∨ row ∈ pushedBy key ⟨i, op, o⟩ := by
  cases op with
  | service k op =>
    obtain ⟨world, hdoes, rfl⟩ := h.service
    rw [buffers_service hdoes key] at hrow
    exact List.mem_append.mp hrow
  | ltrim k start =>
    refine .inl ?_
    by_cases ho : o.TookEffect
    · obtain ⟨-, rfl⟩ : ∃ _ : Unit, s' = s.trim k start := h.takes ho
      simp only [Stores.trim, Function.update_apply] at hrow
      split at hrow
      · next hkey => exact hkey ▸ List.mem_of_mem_drop hrow
      · exact hrow
    · exact h.of_not_tookEffect ho ▸ hrow
  | now | lrange | insert => exact .inl (h.world_eq trivial ▸ hrow)

theorem mem_inHand_call (h : FlushDoes i s op o s') (hrow : row ∈ inHand key i (⟨i, op, o⟩ :: past)) :
    row ∈ inHand key i past ∨ row ∈ s.world.kv.buffers key := by
  rw [inHand] at hrow
  unfold handedTo at hrow
  split at hrow
  · next heq =>
    cases heq
    rw [if_pos rfl] at hrow
    split at hrow
    · next hkey =>
      obtain ⟨rfl, -⟩ := h
      exact .inr (hkey ▸ (prefix_upTo ..).subset hrow)
    · exact absurd hrow List.not_mem_nil
  · next heq =>
    cases heq
    rw [if_pos rfl] at hrow
    exact absurd hrow List.not_mem_nil
  · exact .inl hrow

end

theorem Flushed.call {videoId : String} {i : Party} {op : FlushOp} {s' : Stores}
    {k : Except PyException (FlushAns op) → FlushCode Answer} {o : Outcome PyException (FlushAns op)}
    (h : Flushed settings c videoId) (hrun : c.threads i = .running (.call op k))
    (hdoes : FlushDoes i c.state op o s')
    (hpushed : ∀ row ∈ pushedBy settings.clickhouseBufferLegacyKey ⟨i, op, o⟩,
      clears row ≠ some videoId) :
    Flushed settings
      { state := s'
        threads := Function.update c.threads i (.running (k o.seen))
        history := ⟨i, op, o⟩ :: c.history } videoId := by
  obtain ⟨hbuffer, hhands⟩ := h
  refine ⟨?_, ?_⟩
  · intro row hrow
    rcases mem_buffers_call hdoes hrow with hrow | hrow
    · exact hbuffer row hrow
    · exact hpushed row hrow
  · intro j hj row hrow
    by_cases hij : j = i
    · subst hij
      rcases mem_inHand_call hdoes hrow with hrow | hrow
      · exact hhands j (by rw [hrun]; trivial) row hrow
      · exact hbuffer row hrow
    · simp only [Function.update_of_ne hij] at hj
      rw [inHand_other (Ne.symm hij)] at hrow
      exact hhands j hj row hrow

/-- In the hands of a party that has just started there is nothing. -/
theorem inHand_nil {key : String} {i : Party} (h : ∀ e ∈ past, e.caller ≠ i) :
    inHand key i past = [] := by
  induction past with
  | nil => rfl
  | cons e past ih =>
    rw [inHand_other (h e List.mem_cons_self)]
    exact ih fun e he => h e (List.mem_cons_of_mem _ he)

/-- For a banned video, nothing waits that reports it as clean. -/
theorem flushed_of_banned (h : ReachVia (Begins settings starts) FlushDoes (Ordered settings) {} c)
    {videoId : String} (hbanned : Banned settings videoId c.history) :
    Flushed settings c videoId := by
  induction h with
  | init =>
    obtain ⟨e, he, -⟩ := hbanned
    exact absurd he List.not_mem_nil
  | step hreach hs hcond ih =>
    cases hs with
    | @start i p hready =>
      obtain ⟨hbuffer, hhands⟩ := ih hbanned
      refine ⟨hbuffer, fun j hj row hrow => ?_⟩
      by_cases hij : j = i
      · subst hij
        rw [inHand_nil (ReachVia.history_of_ready hreach hready)] at hrow
        exact absurd hrow List.not_mem_nil
      · simp only [Function.update_of_ne hij] at hj
        exact hhands j hj row hrow
    | @kill i =>
      obtain ⟨hbuffer, hhands⟩ := ih hbanned
      refine ⟨hbuffer, fun j hj row hrow => ?_⟩
      by_cases hij : j = i
      · subst hij
        simp only [Function.update_self] at hj
        exact hj.elim
      · simp only [Function.update_of_ne hij] at hj
        exact hhands j hj row hrow
    | call hrun hdoes =>
      rcases banned_cons.mp hbanned with hban | hbanned
      · refine (hcond.1 videoId hban).call hrun hdoes fun row hrow => ?_
        obtain ⟨nr, banned, heq, -⟩ := banOf_eq hban
        rw [heq] at hrow
        exact absurd hrow List.not_mem_nil
      · exact (ih hbanned).call hrun hdoes fun row hrow hclears =>
          hcond.2 row hrow videoId hclears hbanned

/-- The newest row of every banned video flags it. -/
structure Sticky (settings : ClickhouseSettings) (s : Stores) (past : Past) : Prop where
  timely : Timely s (settings.table settings.clickhouseNsfwAggTable)
  flagged : ∀ videoId, Banned settings videoId past → ∃ row,
    newest (s.tables (settings.table settings.clickhouseNsfwAggTable)) videoId = some row ∧
      row.1.isNsfw = true

/-- Every legacy row in a batch flags its video, if that is banned. -/
def Spares (settings : ClickhouseSettings) (past : Past) (rows : List ClickhouseRow) : Prop :=
  ∀ row, .legacy row ∈ rows → Banned settings row.videoId past → row.isNsfw = true

theorem mem_of_batchLast {rows : List ClickhouseRow} {videoId : String} {row : LegacyNsfwAggRow}
    (h : batchLast rows videoId = some row) : .legacy row ∈ rows ∧ row.videoId = videoId := by
  obtain ⟨hmem, hid⟩ := List.mem_filter.mp (List.mem_of_getLast? h)
  obtain ⟨r, hr, hlegacy⟩ := List.mem_filterMap.mp hmem
  refine ⟨?_, of_decide_eq_true hid⟩
  cases r with
  | legacy r => exact Option.some.inj hlegacy ▸ hr
  | videoResult | storageAction | excluded => cases hlegacy

section

variable {s s' : Stores} {i : Party} {op : FlushOp} {o : Outcome PyException (FlushAns op)}

theorem Sticky.same (h : Sticky settings s past) (htables : s'.tables = s.tables)
    (hclock : s'.clock = s.clock) (hnone : ∀ videoId, banOf settings ⟨i, op, o⟩ ≠ some videoId) :
    Sticky settings s' (⟨i, op, o⟩ :: past) where
  timely := by
    unfold Timely
    rw [htables, hclock]
    exact h.timely
  flagged videoId hbanned := by
    rw [htables]
    exact h.flagged videoId ((banned_cons.mp hbanned).resolve_left (hnone videoId))

theorem not_ban (h : ∀ table rows, op ≠ .insert table rows) (videoId : String) :
    banOf settings ⟨i, op, o⟩ ≠ some videoId := by
  intro hban
  obtain ⟨nr, row, heq, -⟩ := banOf_eq hban
  cases heq
  exact h _ _ rfl

theorem batchLast_of_ban {videoId table : String} {rows : List ClickhouseRow}
    {o : Outcome PyException (FlushAns (.insert table rows))}
    (h : banOf settings ⟨i, .insert table rows, o⟩ = some videoId) :
    table = settings.table settings.clickhouseNsfwAggTable ∧
      ∃ row, batchLast rows videoId = some row ∧ row.isNsfw = true := by
  obtain ⟨nr, row, heq, rfl, hnsfw⟩ := banOf_eq h
  cases heq
  exact ⟨rfl, row, by simp [batchLast, ClickhouseRow.legacy?], hnsfw⟩

theorem Sticky.insert {table : String} {rows : List ClickhouseRow} {now : Time}
    {o : Outcome PyException (FlushAns (.insert table rows))} (h : Sticky settings s past)
    (hnow : s.clock ≤ now) (hspares : Spares settings past rows) :
    Sticky settings (s.insert table rows now) (⟨i, .insert table rows, o⟩ :: past) where
  timely := timely_insert h.timely hnow
  flagged videoId hbanned := by
    by_cases htable : table = settings.table settings.clickhouseNsfwAggTable
    · subst htable
      rw [newest_insert]
      cases hlast : batchLast rows videoId with
      | none =>
        refine h.flagged videoId ((banned_cons.mp hbanned).resolve_left fun hban => ?_)
        obtain ⟨-, row, hrow, -⟩ := batchLast_of_ban hban
        rw [hlast] at hrow
        cases hrow
      | some row =>
        refine ⟨(row, now), rfl, ?_⟩
        rcases banned_cons.mp hbanned with hban | hbanned
        · obtain ⟨-, row', hrow, hnsfw⟩ := batchLast_of_ban hban
          rw [hlast] at hrow
          exact Option.some.inj hrow ▸ hnsfw
        · obtain ⟨hmem, rfl⟩ := mem_of_batchLast hlast
          exact hspares row hmem hbanned
    · have hsame : (s.insert table rows now).tables (settings.table settings.clickhouseNsfwAggTable) =
          s.tables (settings.table settings.clickhouseNsfwAggTable) :=
        Function.update_of_ne (Ne.symm htable) ..
      rw [hsame]
      exact h.flagged videoId
        ((banned_cons.mp hbanned).resolve_left fun hban => htable (batchLast_of_ban hban).1)

theorem Sticky.call (h : Sticky settings s past) (hdoes : FlushDoes i s op o s')
    (hspares : ∀ table rows, op = .insert table rows → Spares settings past rows) :
    Sticky settings s' (⟨i, op, o⟩ :: past) := by
  by_cases ho : o.TookEffect
  · obtain ⟨b, hanswers⟩ := hdoes.takes ho
    cases op with
    | service =>
      obtain ⟨world, -, rfl⟩ := hanswers
      exact h.same rfl rfl (not_ban nofun)
    | now => exact (show s' = s from hanswers) ▸ h.same rfl rfl (not_ban nofun)
    | lrange => exact hanswers.2 ▸ h.same rfl rfl (not_ban nofun)
    | ltrim => exact (show s' = s.trim _ _ from hanswers) ▸ h.same rfl rfl (not_ban nofun)
    | insert table rows =>
      obtain ⟨now, hnow, rfl⟩ := hanswers
      exact h.insert hnow (hspares table rows rfl)
  · refine hdoes.of_not_tookEffect ho ▸ h.same rfl rfl fun videoId hban => ho ?_
    obtain ⟨nr, row, heq, -⟩ := banOf_eq hban
    cases heq
    trivial

end

/-- What a flusher has in its hands does not contradict a ban, and a ban does not either. -/
theorem spares (h : ReachVia (Begins settings starts) FlushDoes (Ordered settings) {} c) {i : Party}
    {table : String} {rows : List ClickhouseRow}
    {k : Except PyException Unit → FlushCode Answer}
    (hrun : c.threads i = .running (.call (.insert table rows) k))
    (hmay : MayInsert settings i c.history rows) : Spares settings c.history rows := by
  intro row hrow hbanned
  rcases hmay row hrow with hnsfw | hhand
  · exact hnsfw
  · have hacting : (c.threads i).Acting := by
      rw [hrun]
      trivial
    have hclears := (flushed_of_banned h hbanned).2 i hacting _ hhand
    by_contra hclean
    exact hclears (if_neg hclean)

theorem sticky (h : ReachVia (Begins settings starts) FlushDoes (Ordered settings) {} c) :
    Sticky settings c.state c.history := by
  induction h with
  | init => exact ⟨⟨.nil, fun _ hrow => absurd hrow List.not_mem_nil⟩,
      fun _ ⟨_, he, _⟩ => absurd he List.not_mem_nil⟩
  | step hreach hs _ ih =>
    cases hs with
    | start => exact ih
    | kill => exact ih
    | @call i op k o s' hrun hdoes =>
      have hcall : Step (Begins settings starts) (flushing settings).does _ (.call ⟨i, op, o⟩) _ :=
        .call hrun hdoes
      have hmay : May settings i _ op := ((sound hreach).permitted hcall).1
      refine ih.call hdoes ?_
      rintro table rows rfl
      exact spares hreach hrun hmay

/-- Once a ban has returned, the current row of its video flags the video. -/
theorem ban_sticks (h : ReachVia (Begins settings starts) FlushDoes (Ordered settings) {} c) {nr : Nat}
    {result : ManualBanResult}
    (hdone : c.threads (.moderator nr) = .running (.done (.ok (.banned result)))) :
    ∃ row, currentRow (c.state.tables (settings.table settings.clickhouseNsfwAggTable))
      result.videoId = some row ∧ row.isNsfw = true := by
  have hbanned : Banned settings result.videoId c.history := (sound h).post hdone
  obtain ⟨row, hrow, hnsfw⟩ := (sticky h).flagged _ hbanned
  refine ⟨row.1, ?_, hnsfw⟩
  rw [currentRow_eq (sticky h).timely, hrow]
  rfl

/-! ### Two runs -/

instance (settings : ClickhouseSettings) (videoId : String) (past : Past) :
    Decidable (Banned settings videoId past) := List.decidableBEx _ past

theorem flushed_iff {c : Moment} {videoId : String} : Flushed settings c videoId ↔
    (∀ row ∈ c.state.world.kv.buffers settings.clickhouseBufferLegacyKey,
      clears row ≠ some videoId) ∧
    ∀ e ∈ c.history, (c.threads e.caller).Acting →
      ∀ row ∈ inHand settings.clickhouseBufferLegacyKey e.caller c.history,
        clears row ≠ some videoId := by
  refine and_congr_right fun _ => ⟨fun h e _ => h e.caller, fun h i hi row hrow => ?_⟩
  by_cases hcaller : ∃ e ∈ c.history, e.caller = i
  · obtain ⟨e, he, rfl⟩ := hcaller
    exact h e he hi row hrow
  · rw [inHand_nil fun e he heq => hcaller ⟨e, he, heq⟩] at hrow
    exact absurd hrow List.not_mem_nil

instance (settings : ClickhouseSettings) (c : Moment) (videoId : String) :
    Decidable (Flushed settings c videoId) := decidable_of_iff' _ flushed_iff

instance (settings : ClickhouseSettings) (c : Moment) (e : Call) :
    Decidable (InOrder settings c e) :=
  inferInstanceAs (Decidable ((∀ videoId ∈ banOf settings e, Flushed settings c videoId) ∧
    ∀ row ∈ pushedBy settings.clickhouseBufferLegacyKey e, ∀ videoId ∈ clears row,
      ¬ Banned settings videoId c.history))

instance (settings : ClickhouseSettings) (c : Moment) (l : Label Party FlushAns PyException)
    (c' : Moment) : Decidable (Ordered settings c l c') :=
  match l with
  | .call e => inferInstanceAs (Decidable (InOrder settings c e))
  | .start _ | .kill _ => .isTrue trivial

def banScript (time : Time) : Script :=
  .start (.moderator 0) (moderatorProgram {} "video" {}) ::
    replies (.moderator 0) 3 { clean with time := time }

def flushScript (time : Time) : Script :=
  startFlusher {} 0 :: replies (.flusher 0) 7 { clean with time := time }

theorem legal_banScript {time : Time} : ∀ t ∈ banScript time, t.Legal (Begins {} (Starts {})) := by
  intro t ht
  rcases List.mem_cons.mp ht with rfl | ht
  · exact ⟨_, _, rfl⟩
  · exact legal_replies t ht

theorem legal_flushScript {time : Time} :
    ∀ t ∈ flushScript time, t.Legal (Begins {} (Starts {})) := by
  intro t ht
  rcases List.mem_cons.mp ht with rfl | ht
  · exact ⟨50, rfl⟩
  · exact legal_replies t ht

def banReturned (videoId : String) (c : Moment) : Bool :=
  match c.threads (.moderator 0) with
  | .running (.done (.ok (.banned result))) => result.videoId = videoId
  | _ => false

theorem of_banReturned {videoId : String} (h : banReturned videoId c = true) : ∃ result,
    c.threads (.moderator 0) = .running (.done (.ok (.banned result))) ∧ result.videoId = videoId := by
  unfold banReturned at h
  split at h
  · next result hthread => exact ⟨result, hthread, of_decide_eq_true h⟩
  · cases h

def flushThenBan : Script := attemptScript {} 0 sampleJob clean 22 ++ (flushScript 1 ++ banScript 2)

def banThenFlush : Script := attemptScript {} 0 sampleJob clean 22 ++ (banScript 1 ++ flushScript 2)

theorem legal_flushThenBan : ∀ t ∈ flushThenBan, t.Legal (Begins {} (Starts {})) := by
  simp only [flushThenBan, List.mem_append]
  rintro t (ht | ht | ht)
  · exact legal_attemptScript t ht
  · exact legal_flushScript t ht
  · exact legal_banScript t ht

theorem legal_banThenFlush : ∀ t ∈ banThenFlush, t.Legal (Begins {} (Starts {})) := by
  simp only [banThenFlush, List.mem_append]
  rintro t (ht | ht | ht)
  · exact legal_attemptScript t ht
  · exact legal_banScript t ht
  · exact legal_flushScript t ht

/-- The buffered row is flushed, and then the video is banned. -/
theorem ban_after_flush_sticks : ∃ c, ReachVia (Begins {} (Starts {})) FlushDoes (Ordered {}) {} c ∧
    ∃ row, currentRow (c.state.tables "yral.video_nsfw_agg") "video" = some row ∧ row.isNsfw = true := by
  obtain ⟨c, hrun, hc⟩ : ∃ c, ReachVia (Begins {} (Starts {})) FlushDoes (Ordered {}) {} c ∧
      banReturned "video" c = true :=
    exists_of_play chooseFlush_within legal_flushThenBan (by decide +kernel)
  obtain ⟨result, hdone, hid⟩ := of_banReturned hc
  exact ⟨c, hrun, hid ▸ ban_sticks hrun hdone⟩

/-- The ban has returned, and the current row of the video is one that says otherwise. -/
def unbanned (videoId : String) (c : Moment) : Bool :=
  banReturned videoId c &&
    ((currentRow (c.state.tables "yral.video_nsfw_agg") videoId).map (·.isNsfw) = some false)

/-- The video is banned, and then the buffered row is flushed: the ban is no longer current. -/
theorem flush_after_ban_unbans : ∃ c, Reach (Begins {} (Starts {})) FlushDoes {} c ∧
    (∃ result, c.threads (.moderator 0) = .running (.done (.ok (.banned result))) ∧
      result.videoId = "video") ∧
    ∃ row, currentRow (c.state.tables "yral.video_nsfw_agg") "video" = some row ∧
      row.isNsfw = false := by
  obtain ⟨c, hrun, hc⟩ : ∃ c, Reach (Begins {} (Starts {})) FlushDoes {} c ∧
      unbanned "video" c = true :=
    exists_of_play chooseFlush_within legal_banThenFlush (by decide +kernel)
  rw [unbanned, Bool.and_eq_true, decide_eq_true_eq] at hc
  obtain ⟨row, hrow, hnsfw⟩ := Option.map_eq_some_iff.mp hc.2
  exact ⟨c, hrun, of_banReturned hc.1, row, hrow, hnsfw⟩

end Flushing

end NsfwDetector
