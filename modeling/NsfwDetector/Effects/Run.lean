import NsfwDetector.Effects.Prog

/-!
# Runs of many programs over one shared state

Callers run their programs side by side. Each step is one call of one caller, the start of a
program, or the death of a caller. A call can fail in two ways: before it took effect, or after
(its reply is lost). The run keeps its history, newest call first.
-/

namespace Effects

inductive Outcome (ε β : Type)
  /-- The call took effect and its reply arrived. -/
  | answered (b : β)
  /-- The environment said no: a rule of its own forbids the call. -/
  | refused (e : ε)
  /-- The call raised and did nothing. -/
  | failed (e : ε)
  /-- The call took effect, but the caller sees an exception in place of its reply. -/
  | lost (b : β) (e : ε)

namespace Outcome

variable {ε β : Type}

def seen : Outcome ε β → Except ε β
  | answered b => .ok b
  | refused e | failed e | lost _ e => .error e

def Answered : Outcome ε β → Prop
  | answered _ => True
  | refused _ | failed _ | lost _ _ => False

/-- The call changed what it was to change. -/
def TookEffect : Outcome ε β → Prop
  | answered _ | lost _ _ => True
  | refused _ | failed _ => False

/-- An external failure: neither an answer nor a refusal by rule. -/
def Faulty : Outcome ε β → Prop
  | answered _ | refused _ => False
  | failed _ | lost _ _ => True

@[simp] theorem seen_answered (b : β) : (answered b : Outcome ε β).seen = .ok b := rfl
@[simp] theorem seen_refused (e : ε) : (refused e : Outcome ε β).seen = .error e := rfl
@[simp] theorem seen_failed (e : ε) : (failed e : Outcome ε β).seen = .error e := rfl
@[simp] theorem seen_lost (b : β) (e : ε) : (lost b e).seen = .error e := rfl

instance (o : Outcome ε β) : Decidable o.Answered :=
  match o with
  | answered _ => .isTrue trivial
  | refused _ | failed _ | lost _ _ => .isFalse id

instance (o : Outcome ε β) : Decidable o.TookEffect :=
  match o with
  | answered _ | lost _ _ => .isTrue trivial
  | refused _ | failed _ => .isFalse id

theorem Answered.tookEffect {o : Outcome ε β} (h : o.Answered) : o.TookEffect := by
  cases o with
  | answered => trivial
  | refused | failed | lost => exact h.elim

@[simp] theorem tookEffect_answered (b : β) : (answered b : Outcome ε β).TookEffect := trivial
@[simp] theorem tookEffect_lost (b : β) (e : ε) : (lost b e).TookEffect := trivial
@[simp] theorem not_tookEffect_refused (e : ε) : ¬ (refused e : Outcome ε β).TookEffect := id
@[simp] theorem not_tookEffect_failed (e : ε) : ¬ (failed e : Outcome ε β).TookEffect := id

end Outcome

structure Event (ι : Type) {Op : Type} (Ans : Op → Type) (ε : Type) where
  caller : ι
  op : Op
  outcome : Outcome ε (Ans op)

/-- `does i s op o s'`: the call `op` of caller `i` in state `s` can end with `o` in state `s'`. -/
abbrev Behaviour (ι σ : Type) {Op : Type} (Ans : Op → Type) (ε : Type) :=
  ι → σ → (op : Op) → Outcome ε (Ans op) → σ → Prop

/-- A caller has not begun, runs the rest of a program, or was killed. -/
inductive Thread {Op : Type} (Ans : Op → Type) (ε α : Type)
  | ready
  | running (p : Prog Ans ε α)
  | killed

/-- The thread still has calls to make. -/
def Thread.Acting {Op : Type} {Ans : Op → Type} {ε α : Type} : Thread Ans ε α → Prop
  | .running (.call _ _) => True
  | .ready | .running (.done _) | .killed => False

instance {Op : Type} {Ans : Op → Type} {ε α : Type} (t : Thread Ans ε α) : Decidable t.Acting :=
  match t with
  | .running (.call _ _) => .isTrue trivial
  | .ready | .running (.done _) | .killed => .isFalse id

structure Config (ι σ : Type) {Op : Type} (Ans : Op → Type) (ε α : Type) where
  state : σ
  threads : ι → Thread Ans ε α
  history : List (Event ι Ans ε)

inductive Label (ι : Type) {Op : Type} (Ans : Op → Type) (ε : Type)
  | start (i : ι)
  | call (e : Event ι Ans ε)
  | kill (i : ι)

section Steps

variable {ι σ Op : Type} {Ans : Op → Type} {ε α : Type} [DecidableEq ι]

/-- `starts i p`: caller `i` may begin with program `p`. -/
inductive Step (starts : ι → Prog Ans ε α → Prop) (does : Behaviour ι σ Ans ε) :
    Config ι σ Ans ε α → Label ι Ans ε → Config ι σ Ans ε α → Prop
  | start {c : Config ι σ Ans ε α} {i : ι} {p : Prog Ans ε α}
      (hready : c.threads i = .ready) (hp : starts i p) :
      Step starts does c (.start i)
        { c with threads := Function.update c.threads i (.running p) }
  | call {c : Config ι σ Ans ε α} {i : ι} {op : Op} {k : Except ε (Ans op) → Prog Ans ε α}
      {o : Outcome ε (Ans op)} {s' : σ}
      (hrun : c.threads i = .running (.call op k)) (hdoes : does i c.state op o s') :
      Step starts does c (.call ⟨i, op, o⟩)
        { state := s'
          threads := Function.update c.threads i (.running (k o.seen))
          history := ⟨i, op, o⟩ :: c.history }
  | kill {c : Config ι σ Ans ε α} {i : ι} {op : Op} {k : Except ε (Ans op) → Prog Ans ε α}
      (hrun : c.threads i = .running (.call op k)) :
      Step starts does c (.kill i) { c with threads := Function.update c.threads i .killed }

def Config.initial (s : σ) : Config ι σ Ans ε α := ⟨s, fun _ => .ready, []⟩

/-- A condition on steps: what is before the step, what the step does, what is after. -/
abbrev StepCond (ι σ : Type) {Op : Type} (Ans : Op → Type) (ε α : Type) :=
  Config ι σ Ans ε α → Label ι Ans ε → Config ι σ Ans ε α → Prop

/-- A run leads from `c₀` to `c`, and its steps all meet `cond`. -/
inductive RunVia (starts : ι → Prog Ans ε α → Prop) (does : Behaviour ι σ Ans ε)
    (cond : StepCond ι σ Ans ε α) (c₀ : Config ι σ Ans ε α) : Config ι σ Ans ε α → Prop
  | init : RunVia starts does cond c₀ c₀
  | step {c c' : Config ι σ Ans ε α} {l : Label ι Ans ε} :
      RunVia starts does cond c₀ c → Step starts does c l c' → cond c l c' →
      RunVia starts does cond c₀ c'

/-- `c` is reached from the state `s₀` by a run whose steps all meet `cond`. -/
abbrev ReachVia (starts : ι → Prog Ans ε α → Prop) (does : Behaviour ι σ Ans ε)
    (cond : StepCond ι σ Ans ε α) (s₀ : σ) : Config ι σ Ans ε α → Prop :=
  RunVia starts does cond (.initial s₀)

abbrev Reach (starts : ι → Prog Ans ε α → Prop) (does : Behaviour ι σ Ans ε) (s₀ : σ) :
    Config ι σ Ans ε α → Prop :=
  ReachVia starts does (fun _ _ _ => True) s₀

variable {starts starts' : ι → Prog Ans ε α → Prop} {does : Behaviour ι σ Ans ε}
  {cond cond' : StepCond ι σ Ans ε α} {s₀ : σ} {c₀ c c' : Config ι σ Ans ε α} {l : Label ι Ans ε}

theorem RunVia.mono (hcond : ∀ c l c', cond c l c' → cond' c l c')
    (h : RunVia starts does cond c₀ c) : RunVia starts does cond' c₀ c := by
  induction h with
  | init => exact .init
  | step _ hs hc ih => exact .step ih hs (hcond _ _ _ hc)

/-- Conditions that say the same of every step have the same runs. -/
theorem runVia_congr (hcond : ∀ c l c', Step starts does c l c' → (cond c l c' ↔ cond' c l c')) :
    RunVia starts does cond c₀ c ↔ RunVia starts does cond' c₀ c := by
  constructor
  · intro h
    induction h with
    | init => exact .init
    | step _ hs hc ih => exact .step ih hs ((hcond _ _ _ hs).mp hc)
  · intro h
    induction h with
    | init => exact .init
    | step _ hs hc ih => exact .step ih hs ((hcond _ _ _ hs).mpr hc)

theorem RunVia.trans (h : RunVia starts does cond c₀ c) (h' : RunVia starts does cond c c') :
    RunVia starts does cond c₀ c' := by
  induction h' with
  | init => exact h
  | step _ hs hc ih => exact .step ih hs hc

theorem Reach.next (h : Reach starts does s₀ c) (hs : Step starts does c l c') :
    Reach starts does s₀ c' := .step h hs trivial

/-! ## Ready callers have no past -/

theorem Step.history_of_ready {i : ι} (hs : Step starts does c l c')
    (hready : c'.threads i = .ready) (ih : c.threads i = .ready → ∀ e ∈ c.history, e.caller ≠ i) :
    ∀ e ∈ c'.history, e.caller ≠ i := by
  cases hs with
  | @start j p hj hp =>
    by_cases hij : i = j
    · subst hij; simp at hready
    · simp only [Function.update_of_ne hij] at hready
      exact ih hready
  | @call j op k o s' hrun hdoes =>
    by_cases hij : i = j
    · subst hij; simp at hready
    · simp only [Function.update_of_ne hij] at hready
      intro e he
      rcases List.mem_cons.mp he with rfl | he
      · exact Ne.symm hij
      · exact ih hready e he
  | @kill j op k hrun =>
    by_cases hij : i = j
    · subst hij; simp at hready
    · simp only [Function.update_of_ne hij] at hready
      exact ih hready

theorem RunVia.history_of_ready {i : ι} (h : RunVia starts does cond c₀ c)
    (hinit : c₀.threads i = .ready → ∀ e ∈ c₀.history, e.caller ≠ i)
    (hready : c.threads i = .ready) : ∀ e ∈ c.history, e.caller ≠ i := by
  induction h with
  | init => exact hinit hready
  | step _ hs _ ih => exact hs.history_of_ready hready ih

theorem ReachVia.history_of_ready {i : ι} (h : ReachVia starts does cond s₀ c)
    (hready : c.threads i = .ready) : ∀ e ∈ c.history, e.caller ≠ i :=
  RunVia.history_of_ready h (fun _ _ he => absurd he List.not_mem_nil) hready

theorem Step.ready_of_ready {i : ι} (hs : Step starts does c l c') (hready : c'.threads i = .ready) :
    c.threads i = .ready := by
  cases hs <;>
    · simp only [Function.update_apply] at hready
      split at hready
      · cases hready
      · exact hready

theorem RunVia.ready_of_ready {i : ι} (h : RunVia starts does cond c₀ c)
    (hready : c.threads i = .ready) : c₀.threads i = .ready := by
  induction h with
  | init => exact hready
  | step _ hs _ ih => exact ih (hs.ready_of_ready hready)

theorem RunVia.running_of_running {i : ι} (h : RunVia starts does cond c₀ c)
    (hkill : ∀ c c', ¬ cond c (.kill i) c') (hrun : ∃ p, c₀.threads i = .running p) :
    ∃ p, c.threads i = .running p := by
  induction h with
  | init => exact hrun
  | @step c c' l _ hs hc ih =>
    obtain ⟨p, hp⟩ := ih
    cases hs with
    | @start j q hready _ =>
      have hij : i ≠ j := by
        rintro rfl
        rw [hp] at hready
        cases hready
      exact ⟨p, (Function.update_of_ne hij ..).trans hp⟩
    | @call j op k o s' _ _ =>
      by_cases hij : i = j
      · subst hij
        exact ⟨k o.seen, Function.update_self ..⟩
      · exact ⟨p, (Function.update_of_ne hij ..).trans hp⟩
    | @kill j op k _ =>
      have hij : i ≠ j := by
        rintro rfl
        exact hkill _ _ hc
      exact ⟨p, (Function.update_of_ne hij ..).trans hp⟩

/-! ## Runs under another behaviour -/

theorem Step.restrict {does' : Behaviour ι σ Ans ε} (hs : Step starts does c l c')
    (hcall : ∀ e, l = .call e → does' e.caller c.state e.op e.outcome c'.state) :
    Step starts does' c l c' := by
  cases hs with
  | start hready hp => exact .start hready hp
  | call hrun _ => exact .call hrun (hcall _ rfl)
  | kill hrun => exact .kill hrun

/-- A run whose calls also behave as `does'` says is a run over `does'`. -/
theorem RunVia.restrict {does' : Behaviour ι σ Ans ε}
    (hcall : ∀ c e c', RunVia starts does cond c₀ c → Step starts does c (.call e) c' →
      cond c (.call e) c' → does' e.caller c.state e.op e.outcome c'.state)
    (h : RunVia starts does cond c₀ c) : RunVia starts does' cond c₀ c := by
  induction h with
  | init => exact .init
  | step hrun hs hc ih =>
    refine .step ih (hs.restrict fun e he => ?_) hc
    subst he
    exact hcall _ e _ hrun hs hc

/-! ## Runs that record their history -/

/-- The same moment, with the history as a part of the state. -/
def Config.recorded (c : Config ι σ Ans ε α) : Config ι (σ × List (Event ι Ans ε)) Ans ε α where
  state := (c.state, c.history)
  threads := c.threads
  history := c.history

/-- A behaviour of recorded runs may look at the past, so it can say what the steps of a run meet. -/
theorem RunVia.recorded {does' : Behaviour ι (σ × List (Event ι Ans ε)) Ans ε}
    (hcall : ∀ c e c', RunVia starts does cond c₀ c → Step starts does c (.call e) c' →
      cond c (.call e) c' →
        does' e.caller (c.state, c.history) e.op e.outcome (c'.state, e :: c.history))
    (h : RunVia starts does cond c₀ c) :
    RunVia starts does' (fun _ _ _ => True) c₀.recorded c.recorded := by
  induction h with
  | init => exact .init
  | @step c c' l hrun hs hc ih =>
    have hnext : Step starts does' c.recorded l c'.recorded := by
      cases hs with
      | start hready hp => exact .start (c := c.recorded) hready hp
      | kill hthread => exact .kill (c := c.recorded) hthread
      | call hthread hdoes =>
        exact .call (c := c.recorded) hthread (hcall _ _ _ hrun (.call hthread hdoes) hc)
    exact .step ih hnext trivial

/-! ## Programs that can go on -/

/-- If caller `i` can make any call, it can run to the end of its program, and alone. -/
theorem RunVia.exists_done {i : ι} {p : Prog Ans ε α}
    (hcall : ∀ (c : Config ι σ Ans ε α) op, ∃ o s', does i c.state op o s' ∧
      ∀ threads, cond c (.call ⟨i, op, o⟩) ⟨s', threads, ⟨i, op, o⟩ :: c.history⟩)
    (hrun : c.threads i = .running p) :
    ∃ c' r, RunVia starts does cond c c' ∧ c'.threads i = .running (.done r) := by
  induction p generalizing c with
  | done r => exact ⟨c, r, .init, hrun⟩
  | call op k ih =>
    obtain ⟨o, s', hdoes, hcond⟩ := hcall c op
    have hs : Step starts does c (.call ⟨i, op, o⟩) _ := .call hrun hdoes
    obtain ⟨c', r, hrest, hdone⟩ := ih o.seen
      (c := ⟨s', Function.update c.threads i (.running (k o.seen)), ⟨i, op, o⟩ :: c.history⟩)
      (Function.update_self ..)
    exact ⟨c', r, (RunVia.step .init hs (hcond _)).trans hrest, hdone⟩

end Steps

end Effects
