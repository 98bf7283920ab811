import NsfwDetector.System.Flushing

/-!
# Which rows a flush can lose

A trim takes rows from the head of the buffer by their number. Those are the rows that were
inserted, unless another flusher has trimmed the same buffer in between.
-/

namespace NsfwDetector.Flushing

open Effects

variable {settings : ClickhouseSettings} {starts : Caller → Code Reply → Prop} {c c' : Moment}

/-- Nobody has taken a row from the buffer since this read, or the read covers all that is in it. -/
def Intact (key : String) (past : Past) : String × List BufferRow × Past → Prop
  | (k, rows, old) => k = key →
      removed key past = removed key old ∨ (pushed key past).length ≤ removed key old + rows.length

/-- If the call is an `LTRIM`, what its caller has read is intact. -/
def TrimsItsOwn (past : Past) : Call → Prop
  | ⟨i, .ltrim key _, o⟩ => o.TookEffect → ∀ read, lastRead i past = some read → Intact key past read
  | _ => True

/-- No step trims after somebody else. -/
def Undivided : StepCond Party Stores FlushAns PyException Answer := fun c l _ =>
  match l with
  | .call e => TrimsItsOwn c.history e
  | .start _ | .kill _ => True

/-- Whatever has left the buffer has been inserted. -/
def NothingLost (past : Past) : Prop :=
  ∀ key n row, n < removed key past → (pushed key past)[n]? = some row → Inserted key n row past

theorem nothingLost_call {past : Past} {i : Party} {op : FlushOp}
    {o : Outcome PyException (FlushAns op)} (hkept : NothingLost past)
    (hmay : May settings i past op)
    (htrim : TrimsItsOwn past ⟨i, op, o⟩) : NothingLost (⟨i, op, o⟩ :: past) := by
  intro key n row hgone hrow
  have hpast : n < (pushed key past).length → (pushed key past)[n]? = some row :=
    fun hn => (prefix_getElem? (prefix_pushed key _ past) hn).trans hrow
  have hle := removed_le key past
  by_cases hbefore : n < removed key past
  · exact .inr (hkept key n row hbefore (hpast (by omega)))
  · cases op with
    | ltrim k start =>
      rw [removed, goneAfter] at hgone
      split at hgone
      · next hkey =>
        obtain ⟨rfl, heffect⟩ := hkey
        obtain ⟨rows, old, hread, hsafe, rfl⟩ := hmay
        have hold := lastRead_removed hread.last
        have hown : removed k past = removed k old ∨
            (pushed k past).length ≤ removed k old + rows.length := htrim heffect _ hread.last rfl
        rw [place_natCast, Int.toNat_natCast] at hgone
        exact .inr (hsafe n row (by omega) (by omega) (hpast (by omega)))
      · exact absurd hgone hbefore
    | _ => exact absurd hgone hbefore

theorem nothingLost (h : ReachVia (Begins settings starts) FlushDoes Undivided {} c) :
    NothingLost c.history := by
  induction h with
  | init => exact fun _ _ _ hn => absurd hn (Nat.not_lt_zero _)
  | step hreach hs hcond ih =>
    have hsound := sound hreach
    cases hs with
    | start => exact ih
    | kill => exact ih
    | @call i op k o s' hrun hdoes =>
      have hcall : Step (Begins settings starts) (flushing settings).does _ (.call ⟨i, op, o⟩) _ :=
        .call hrun hdoes
      exact nothingLost_call ih (hsound.permitted hcall).1 hcond

/-- Every row that was pushed is still in its place in the buffer, or it has been inserted. -/
theorem pushed_kept_or_inserted {key : String} {n : Nat} {row : BufferRow}
    (h : ReachVia (Begins settings starts) FlushDoes Undivided {} c)
    (hrow : (pushed key c.history)[n]? = some row) :
    (removed key c.history ≤ n ∧
      (c.state.world.kv.buffers key)[n - removed key c.history]? = some row) ∨
      (n < removed key c.history ∧ Inserted key n row c.history) := by
  by_cases hgone : n < removed key c.history
  · exact .inr ⟨hgone, nothingLost h key n row hgone hrow⟩
  · have hfrom := Nat.le_of_not_lt hgone
    refine .inl ⟨hfrom, ?_⟩
    rw [(sound h).1 key, List.getElem?_drop, Nat.add_sub_cancel' hfrom, hrow]

/-! ### Two runs -/

instance (key : String) (past : Past) (read : String × List BufferRow × Past) :
    Decidable (Intact key past read) :=
  match read with
  | (k, rows, old) =>
    match decEq k key with
    | .isFalse hne => .isTrue fun heq => absurd heq hne
    | .isTrue heq =>
      if h : removed key past = removed key old ∨
          (pushed key past).length ≤ removed key old + rows.length then .isTrue fun _ => h
      else .isFalse fun hintact => h (hintact heq)

instance (past : Past) (e : Call) : Decidable (TrimsItsOwn past e) :=
  match e with
  | ⟨i, .ltrim key _, o⟩ =>
    if ho : o.TookEffect then
      match hread : lastRead i past with
      | none => .isTrue fun _ read h => by
          rw [hread] at h
          cases h
      | some read =>
        if hintact : Intact key past read then .isTrue fun _ read' h => by
          rw [hread] at h
          exact Option.some.inj h ▸ hintact
        else .isFalse fun h => hintact (h ho read hread)
    else .isTrue fun h => absurd h ho
  | ⟨_, .service _ _, _⟩ | ⟨_, .now, _⟩ | ⟨_, .lrange _ _, _⟩ | ⟨_, .insert _ _, _⟩ => .isTrue trivial

instance (c : Moment) (l : Label Party FlushAns PyException) (c' : Moment) :
    Decidable (Undivided c l c') :=
  match l with
  | .call e => inferInstanceAs (Decidable (TrimsItsOwn c.history e))
  | .start _ | .kill _ => .isTrue trivial

def videoResultsKey : String := "nsfw:clickhouse_buffer:video_results"

/-- One flush of a buffer with one row. -/
def cleanFlush : Script :=
  attemptScript {} 0 sampleJob clean 22 ++ startFlusher {} 0 :: replies (.flusher 0) 7 clean

theorem legal_cleanFlush : ∀ t ∈ cleanFlush, t.Legal (Begins {} (Starts {})) := by
  simp only [cleanFlush, List.mem_append, List.mem_cons]
  rintro t (ht | rfl | ht)
  · exact legal_attemptScript t ht
  · exact ⟨50, rfl⟩
  · exact legal_replies t ht

def movedOut (c : Moment) : Bool :=
  (pushed videoResultsKey c.history).length = 1 ∧ removed videoResultsKey c.history = 1

/-- The row of the flush has left the buffer, and has been inserted. -/
theorem flushed_row_inserted : ∃ c, ReachVia (Begins {} (Starts {})) FlushDoes Undivided {} c ∧
    ∃ row, (pushed videoResultsKey c.history)[0]? = some row ∧
      Inserted videoResultsKey 0 row c.history := by
  obtain ⟨c, hrun, hc⟩ : ∃ c, ReachVia (Begins {} (Starts {})) FlushDoes Undivided {} c ∧
      movedOut c = true :=
    exists_of_play chooseFlush_within legal_cleanFlush (by decide +kernel)
  replace hc := of_decide_eq_true hc
  obtain ⟨row, hrow⟩ : ∃ row, (pushed videoResultsKey c.history)[0]? = some row :=
    ⟨_, List.getElem?_eq_getElem (by omega)⟩
  refine ⟨c, hrun, row, hrow, ?_⟩
  rcases pushed_kept_or_inserted hrun hrow with ⟨hkept, -⟩ | ⟨-, hinserted⟩
  · omega
  · exact hinserted

/-- An answered insert of a caller whose last read covers the `n`-th row of `key`. -/
def covers (key : String) (n : Nat) (past : Past) : Call → Bool
  | ⟨i, .insert _ _, .answered _⟩ =>
    match lastRead i past with
    | some (k, rows, old) => k = key ∧ removed key old ≤ n ∧ n < removed key old + rows.length
    | none => false
  | _ => false

def covered (key : String) (n : Nat) : Past → Bool
  | [] => false
  | e :: past => covers key n past e || covered key n past

theorem covered_of_inserted {key : String} {n : Nat} {row : BufferRow} {past : Past}
    (h : Inserted key n row past) : covered key n past = true := by
  induction past with
  | nil => exact h.elim
  | cons e past ih =>
    rw [covered, Bool.or_eq_true]
    refine h.imp (fun hinserts => ?_) ih
    obtain ⟨hread, hfrom, hrow⟩ := hinserts
    have hto := (List.getElem?_eq_some_iff.mp hrow).1
    simp only [covers, hread]
    exact decide_eq_true ⟨trivial, hfrom, by omega⟩

def otherJob : VideoJob := { sampleJob with jobId := "other-job", videoId := "other-video" }

/-- Two flushers read the same row. A second row comes in before both of them trim. -/
def overlappingFlushes : Script :=
  attemptScript {} 0 sampleJob clean 22 ++ startFlusher {} 0 :: replies (.flusher 0) 2 clean ++
    startFlusher {} 1 :: replies (.flusher 1) 2 clean ++ attemptScript {} 1 otherJob clean 22 ++
    replies (.flusher 0) 1 clean ++ replies (.flusher 1) 1 clean

theorem legal_overlappingFlushes : ∀ t ∈ overlappingFlushes, t.Legal (Begins {} (Starts {})) := by
  simp only [overlappingFlushes, List.mem_append, List.mem_cons]
  rintro t (((((ht | rfl | ht) | rfl | ht) | ht) | ht) | ht)
  · exact legal_attemptScript t ht
  · exact ⟨50, rfl⟩
  · exact legal_replies t ht
  · exact ⟨50, rfl⟩
  · exact legal_replies t ht
  · exact legal_attemptScript t ht
  · exact legal_replies t ht
  · exact legal_replies t ht

/-- Two rows have been pushed, the buffer is empty, and no insert covers the second row. -/
def lostSecond (c : Moment) : Bool :=
  (pushed videoResultsKey c.history).length = 2 ∧
    (c.state.world.kv.buffers videoResultsKey).length = 0 ∧ covered videoResultsKey 1 c.history = false

/-- The second row leaves the buffer, and no flusher has inserted it. -/
theorem overlapping_flushes_lose_row : ∃ c, Reach (Begins {} (Starts {})) FlushDoes {} c ∧
    ∃ row, (pushed videoResultsKey c.history)[1]? = some row ∧
      c.state.world.kv.buffers videoResultsKey = [] ∧ ¬ Inserted videoResultsKey 1 row c.history := by
  obtain ⟨c, hrun, hc⟩ : ∃ c, Reach (Begins {} (Starts {})) FlushDoes {} c ∧ lostSecond c = true :=
    exists_of_play chooseFlush_within legal_overlappingFlushes (by decide +kernel)
  obtain ⟨hpushed, hempty, hcovered⟩ := of_decide_eq_true hc
  obtain ⟨row, hrow⟩ : ∃ row, (pushed videoResultsKey c.history)[1]? = some row :=
    ⟨_, List.getElem?_eq_getElem (by omega)⟩
  refine ⟨c, hrun, row, hrow, List.eq_nil_of_length_eq_zero hempty, fun hinserted => ?_⟩
  rw [covered_of_inserted hinserted] at hcovered
  cases hcovered

end NsfwDetector.Flushing
