import NsfwDetector.Effects.Outline
import NsfwDetector.System.Callers

/-!
# Reading the past

The calls of one attempt are those that its caller made since it last prepared a job directory:
`_process_video` begins with that.
-/

namespace NsfwDetector

open Effects

namespace Op

def isPrepare : Op → Bool
  | prepareJobDir _ => true
  | _ => false

def isMove : Op → Bool
  | postMove _ _ => true
  | _ => false

def isSelectJob : Op → Bool
  | selectJob _ => true
  | _ => false

def isCleanup : Op → Bool
  | cleanupDir _ => true
  | _ => false

end Op

/-! ## Attempts -/

/-- The calls of the running attempt of caller `i`, newest first. -/
def attemptOf (i : Caller) (past : Past) : Past :=
  (past.filter (·.caller = i)).takeWhile fun e => !e.op.isPrepare

section

variable {i j : Caller} {past : Past} {op : Op} {o : Outcome PyException (Ans op)} {e : Call}

theorem attemptOf_other (h : j ≠ i) : attemptOf i (⟨j, op, o⟩ :: past) = attemptOf i past := by
  simp [attemptOf, h]

theorem attemptOf_prepare (hop : op.isPrepare = true) : attemptOf i (⟨i, op, o⟩ :: past) = [] := by
  simp [attemptOf, hop]

theorem attemptOf_own (hop : op.isPrepare = false) :
    attemptOf i (⟨i, op, o⟩ :: past) = ⟨i, op, o⟩ :: attemptOf i past := by
  simp [attemptOf, hop]

theorem mem_of_mem_attemptOf (h : e ∈ attemptOf i past) : e ∈ past ∧ e.caller = i := by
  have hmem := (List.takeWhile_sublist _).subset h
  exact ⟨(List.mem_filter.mp hmem).1, of_decide_eq_true (List.mem_filter.mp hmem).2⟩

end

namespace Facts

variable {D : Discipline Caller World Ans PyException} {i : Caller} {p : Call → Prop}

def inAttempt (D : Discipline Caller World Ans PyException) (i : Caller) (p : Call → Prop) :
    Assertion D i where
  holds _ past := ∃ e ∈ attemptOf i past, p e
  stable hj _ _ _ h := by rwa [attemptOf_other hj]

def noneInAttempt (D : Discipline Caller World Ans PyException) (i : Caller) (p : Call → Prop) :
    Assertion D i where
  holds _ past := ∀ e ∈ attemptOf i past, ¬ p e
  stable hj _ _ _ h := by rwa [attemptOf_other hj]

theorem keeps_inAttempt {K : Op → Prop} (hK : ∀ op, K op → op.isPrepare = false) :
    (inAttempt D i p).Keeps K := by
  rintro op hop s h o s' - - - ⟨e, he, hp⟩
  refine ⟨e, ?_, hp⟩
  rw [attemptOf_own (hK op hop)]
  exact List.mem_cons_of_mem _ he

theorem keeps_noneInAttempt {K : Op → Prop} (hK : ∀ op, K op → op.isPrepare = false)
    (hp : ∀ e : Call, K e.op → ¬ p e) : (noneInAttempt D i p).Keeps K := by
  intro op hop s h o s' _ _ _ hnone e he
  rw [attemptOf_own (hK op hop)] at he
  rcases List.mem_cons.mp he with rfl | he
  · exact hp _ hop
  · exact hnone e he

end Facts

/-! ## Single calls -/

def Moved (videoId : String) (e : Call) : Prop :=
  ∃ publisherUserId, e.op = .postMove publisherUserId videoId ∧ e.outcome.Answered

/-- The call is a commit of the writes `tx`, and it took effect. -/
def Committed (tx : List Write) (e : Call) : Prop := e.op = .commit tx ∧ e.outcome.TookEffect

def Performed (command : Command) (e : Call) : Prop :=
  ∃ commands, e.op = .writes commands ∧ command ∈ commands ∧ e.outcome.TookEffect

theorem performed_writes {i : Caller} {command : Command} {commands : List Command}
    {o : Outcome PyException (Ans (.writes commands))} :
    Performed command ⟨i, .writes commands, o⟩ ↔ command ∈ commands ∧ o.TookEffect := by
  constructor
  · rintro ⟨_, heq, hmem, heffect⟩
    cases heq
    exact ⟨hmem, heffect⟩
  · exact fun ⟨hmem, heffect⟩ => ⟨commands, rfl, hmem, heffect⟩

def carriedOut (kind : Command → Bool) : Call → Bool
  | ⟨_, .writes commands, o⟩ => o.TookEffect ∧ commands.any kind = true
  | _ => false

theorem carriedOut_iff {kind : Command → Bool} {e : Call} :
    carriedOut kind e = true ↔ ∃ command, kind command = true ∧ Performed command e := by
  obtain ⟨i, op, o⟩ := e
  constructor
  · intro h
    cases op with
    | writes commands =>
      obtain ⟨heffect, hany⟩ := of_decide_eq_true h
      obtain ⟨command, hmem, hkind⟩ := List.any_eq_true.mp hany
      exact ⟨command, hkind, performed_writes.mpr ⟨hmem, heffect⟩⟩
    | _ => cases h
  · rintro ⟨command, hkind, commands, hop, hmem, heffect⟩
    simp only at hop heffect
    subst hop
    exact decide_eq_true ⟨heffect, List.any_eq_true.mpr ⟨command, hmem, hkind⟩⟩

end NsfwDetector
