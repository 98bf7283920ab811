import NsfwDetector.Effects.Run

/-!
# Proof outlines for programs that run side by side

A discipline says which calls a caller may make and which invariant they keep. `Triple Q P p`
says that a caller that stands before `p` with `P` keeps to the discipline, and ends with `Q`.
Every assertion is stable: the calls of others do not break it. So the outlines of single
programs add up to facts about every run of all of them (`Discipline.sound`).
-/

namespace Effects

/-- The rules of a system: what a call does, who may make it, and what stays true. -/
structure Discipline (ι σ : Type) {Op : Type} (Ans : Op → Type) (ε : Type) where
  does : Behaviour ι σ Ans ε
  inv : σ → List (Event ι Ans ε) → Prop
  may : ι → σ → List (Event ι Ans ε) → Op → Prop
  inv_call : ∀ {s h i op o s'}, inv s h → may i s h op → does i s op o s' →
    inv s' (⟨i, op, o⟩ :: h)

variable {ι σ Op : Type} {Ans : Op → Type} {ε α β : Type}

/-- What caller `i` knows. No permitted call of another caller breaks it. -/
structure Assertion (D : Discipline ι σ Ans ε) (i : ι) where
  holds : σ → List (Event ι Ans ε) → Prop
  stable : ∀ {s h j op o s'}, j ≠ i → D.inv s h → D.may j s h op → D.does j s op o s' →
    holds s h → holds s' (⟨j, op, o⟩ :: h)

namespace Assertion

variable {D : Discipline ι σ Ans ε} {i : ι}

def top : Assertion D i := ⟨fun _ _ => True, fun _ _ _ _ _ => trivial⟩

def pure (p : Prop) : Assertion D i := ⟨fun _ _ => p, fun _ _ _ _ hp => hp⟩

def and (P Q : Assertion D i) : Assertion D i where
  holds s h := P.holds s h ∧ Q.holds s h
  stable hj hinv hmay hdoes hPQ :=
    ⟨P.stable hj hinv hmay hdoes hPQ.1, Q.stable hj hinv hmay hdoes hPQ.2⟩

/-- The history has a call that satisfies `p`. -/
def called (p : Event ι Ans ε → Prop) : Assertion D i where
  holds _ h := ∃ e ∈ h, p e
  stable _ _ _ _ := fun ⟨e, he, hp⟩ => ⟨e, List.mem_cons_of_mem _ he, hp⟩

/-- Caller `i` has made no call that satisfies `p`. -/
def never (p : Event ι Ans ε → Prop) : Assertion D i where
  holds _ h := ∀ e ∈ h, e.caller = i → ¬ p e
  stable hj _ _ _ hnever := by
    intro e he hi
    rcases List.mem_cons.mp he with rfl | he
    · exact absurd hi hj
    · exact hnever e he hi

def onlyFor (P : Assertion D i) (j : ι) : Assertion D j where
  holds s h := j = i → P.holds s h
  stable hj hinv hmay hdoes hP heq := by
    subst heq
    exact P.stable hj hinv hmay hdoes (hP rfl)

def given (P : Assertion D i) (φ : Prop) : Assertion D i where
  holds s h := φ → P.holds s h
  stable hj hinv hmay hdoes hP hφ := P.stable hj hinv hmay hdoes (hP hφ)

/-- `P` gives `Q` wherever the invariant holds. -/
def Entails (P Q : Assertion D i) : Prop := ∀ s h, D.inv s h → P.holds s h → Q.holds s h

theorem Entails.refl (P : Assertion D i) : Entails P P := fun _ _ _ hP => hP

theorem Entails.trans {P Q R : Assertion D i} (hPQ : Entails P Q) (hQR : Entails Q R) :
    Entails P R := fun s h hinv hP => hQR s h hinv (hPQ s h hinv hP)

theorem entails_top (P : Assertion D i) : Entails P top := fun _ _ _ _ => trivial

theorem and_left (P Q : Assertion D i) : Entails (P.and Q) P := fun _ _ _ hPQ => hPQ.1

theorem and_right (P Q : Assertion D i) : Entails (P.and Q) Q := fun _ _ _ hPQ => hPQ.2

theorem and_pure (P : Assertion D i) {p : Prop} (hp : p) : Entails P (P.and (pure p)) :=
  fun _ _ _ hP => ⟨hP, hp⟩

/-- The calls in `K` of caller `i` itself do not break `P`. -/
def Keeps (P : Assertion D i) (K : Op → Prop) : Prop :=
  ∀ op, K op → ∀ {s h o s'}, D.inv s h → D.may i s h op → D.does i s op o s' → P.holds s h →
    P.holds s' (⟨i, op, o⟩ :: h)

variable {P Q : Assertion D i} {K K' : Op → Prop}

theorem Keeps.mono (hK : ∀ op, K op → K' op) (h : P.Keeps K') : P.Keeps K :=
  fun op hop => h op (hK op hop)

theorem Keeps.and (hP : P.Keeps K) (hQ : Q.Keeps K) : (P.and Q).Keeps K :=
  fun op hop _ _ _ _ hinv hmay hdoes hPQ =>
    ⟨hP op hop hinv hmay hdoes hPQ.1, hQ op hop hinv hmay hdoes hPQ.2⟩

theorem keeps_top : (top : Assertion D i).Keeps K := fun _ _ _ _ _ _ _ _ _ _ => trivial

theorem keeps_pure (p : Prop) : (pure p : Assertion D i).Keeps K := fun _ _ _ _ _ _ _ _ _ hp => hp

theorem Keeps.given {φ : Prop} (hP : P.Keeps K) : (P.given φ).Keeps K :=
  fun op hop _ _ _ _ hinv hmay hdoes h hφ => hP op hop hinv hmay hdoes (h hφ)

theorem keeps_called (p : Event ι Ans ε → Prop) : (called p : Assertion D i).Keeps K :=
  fun _ _ _ _ _ _ _ _ _ ⟨e, he, hp⟩ => ⟨e, List.mem_cons_of_mem _ he, hp⟩

end Assertion

open Assertion (Entails)

/-- A caller before `p` that knows `P` keeps to the discipline and ends with `Q`. -/
inductive Triple {D : Discipline ι σ Ans ε} {i : ι} (Q : Except ε α → Assertion D i) :
    Assertion D i → Prog Ans ε α → Prop
  | done {P : Assertion D i} {r : Except ε α} (hQ : Entails P (Q r)) : Triple Q P (.done r)
  | call {P : Assertion D i} {op : Op} {k : Except ε (Ans op) → Prog Ans ε α}
      (R : Outcome ε (Ans op) → Assertion D i)
      (hmay : ∀ s h, D.inv s h → P.holds s h → D.may i s h op)
      (hcall : ∀ s h o s', D.inv s h → P.holds s h → D.does i s op o s' →
        (R o).holds s' (⟨i, op, o⟩ :: h))
      (hk : ∀ o, Triple Q (R o) (k o.seen)) :
      Triple Q P (.call op k)

namespace Triple

variable {D : Discipline ι σ Ans ε} {i : ι} {P P' : Assertion D i}
  {Q Q' : Except ε α → Assertion D i}

theorem weaken {p : Prog Ans ε α} (hP : Entails P' P) (h : Triple Q P p) : Triple Q P' p := by
  cases h with
  | done hQ => exact .done (hP.trans hQ)
  | call R hmay hcall hk =>
    exact .call R (fun s h hinv hp => hmay s h hinv (hP s h hinv hp))
      (fun s h o s' hinv hp => hcall s h o s' hinv (hP s h hinv hp)) hk

theorem strengthen {p : Prog Ans ε α} (hQ : ∀ r, Entails (Q r) (Q' r)) (h : Triple Q P p) :
    Triple Q' P p := by
  induction h with
  | done hP => exact .done (hP.trans (hQ _))
  | call R hmay hcall _ ih => exact .call R hmay hcall ih

theorem bind {x : Prog Ans ε α} {f : α → Prog Ans ε β} {R : Except ε α → Assertion D i}
    {Q : Except ε β → Assertion D i} (hx : Triple R P x)
    (hf : ∀ a, Triple Q (R (.ok a)) (f a))
    (he : ∀ e, Entails (R (.error e)) (Q (.error e))) : Triple Q P (x >>= f) := by
  rw [Prog.bind_eq]
  induction hx with
  | @done P r hR =>
    cases r with
    | ok a => exact (hf a).weaken hR
    | error e => exact .done (hR.trans (he e))
  | call R' hmay hcall _ ih => exact .call R' hmay hcall ih

theorem tryCatch {x : Prog Ans ε α} {handler : ε → Prog Ans ε α}
    {R : Except ε α → Assertion D i} (hx : Triple R P x)
    (ha : ∀ a, Entails (R (.ok a)) (Q (.ok a)))
    (hh : ∀ e, Triple Q (R (.error e)) (handler e)) :
    Triple Q P (MonadExcept.tryCatch x handler) := by
  rw [Prog.tryCatch_eq]
  induction hx with
  | @done P r hR =>
    cases r with
    | ok a => exact .done (hR.trans (ha a))
    | error e => exact (hh e).weaken hR
  | call R' hmay hcall _ ih => exact .call R' hmay hcall ih

theorem tryFinally {x : Prog Ans ε α} {final : Prog Ans ε Unit} {R : Except ε α → Assertion D i}
    (hx : Triple R P x)
    (hf : ∀ r, Triple (fun s => match s with | .ok _ => Q r | .error e => Q (.error e)) (R r) final) :
    Triple Q P (x.tryFinally final) := by
  induction hx with
  | @done P r hR =>
    exact bind ((hf r).weaken hR) (fun _ => .done (Entails.refl _)) fun e => Entails.refl _
  | call R' hmay hcall _ ih => exact .call R' hmay hcall ih

theorem throw {e : ε} (h : Entails P (Q (.error e))) : Triple Q P (MonadExcept.throw e) := .done h

theorem perform {op : Op} {R : Except ε (Ans op) → Assertion D i}
    (hmay : ∀ s h, D.inv s h → P.holds s h → D.may i s h op)
    (hcall : ∀ s h o s', D.inv s h → P.holds s h → D.does i s op o s' →
      (R o.seen).holds s' (⟨i, op, o⟩ :: h)) :
    Triple R P (Prog.perform op) :=
  .call (fun o => R o.seen) hmay hcall fun _ => .done (Entails.refl _)

theorem unreachable (h : ∀ s past, D.inv s past → ¬ P.holds s past) (p : Prog Ans ε α) :
    Triple Q P p := by
  induction p generalizing P with
  | done r => exact .done fun s past hinv hP => absurd hP (h s past hinv)
  | call op k ih =>
    exact .call (fun _ => .pure False) (fun s past hinv hP => absurd hP (h s past hinv))
      (fun s past _ _ hinv hP => absurd hP (h s past hinv))
      fun o => ih o.seen fun _ _ _ hfalse => hfalse

theorem assume {φ : Prop} {p : Prog Ans ε α} (h : φ → Triple Q P p) :
    Triple Q (P.and (.pure φ)) p := by
  by_cases hφ : φ
  · exact (h hφ).weaken (Assertion.and_left _ _)
  · exact unreachable (P := P.and (.pure φ)) (fun _ _ _ hP => hφ hP.2) p

/-! ### Outlines that tell values from exceptions -/

/-- `S` of a value, and `E` of an exception. -/
def ends (E : ε → Assertion D i) (S : α → Assertion D i) : Except ε α → Assertion D i
  | .ok a => S a
  | .error e => E e

/-- `S` of the value, and nothing of an exception. -/
abbrev onOk (S : α → Assertion D i) : Except ε α → Assertion D i := ends (fun _ => .top) S

/-- The program raises nothing, and its value has `S`. -/
abbrev sure (S : α → Assertion D i) : Except ε α → Assertion D i := ends (fun _ => .pure False) S

variable {E E' : ε → Assertion D i} {S : α → Assertion D i} {S' : β → Assertion D i}

theorem andThen {x : Prog Ans ε α} {f : α → Prog Ans ε β} (hx : Triple (ends E S) P x)
    (hf : ∀ a, Triple (ends E S') (S a) (f a)) : Triple (ends E S') P (x >>= f) :=
  hx.bind hf fun _ => Entails.refl _

theorem give {a : α} (h : Entails P (S a)) : Triple (ends E S) P (Pure.pure a) := .done h

theorem fail {e : ε} : Triple (onOk S) P (MonadExcept.throw e : Prog Ans ε α) :=
  .done (Assertion.entails_top P)

theorem anything (hmay : ∀ s h op, D.inv s h → D.may i s h op) (p : Prog Ans ε α) :
    Triple (onOk fun _ => .top) P p := by
  induction p generalizing P with
  | done r => exact .done (by cases r <;> exact Assertion.entails_top P)
  | call op k ih =>
    exact .call (fun _ => .top) (fun s h hinv _ => hmay s h op hinv) (fun _ _ _ _ _ _ _ => trivial)
      fun o => ih o.seen

theorem mapOk {T : α → Assertion D i} {p : Prog Ans ε α} (h : ∀ a, Entails (S a) (T a))
    (hp : Triple (ends E S) P p) : Triple (ends E T) P p := by
  refine hp.strengthen fun r => ?_
  cases r with
  | ok a => exact h a
  | error e => exact Entails.refl (E e)

theorem mapError {p : Prog Ans ε α} (h : ∀ e, Entails (E e) (E' e)) (hp : Triple (ends E S) P p) :
    Triple (ends E' S) P p := by
  refine hp.strengthen fun r => ?_
  cases r with
  | ok a => exact Entails.refl (S a)
  | error e => exact h e

theorem ofSure {p : Prog Ans ε α} (hp : Triple (sure S) P p) : Triple (ends E S) P p :=
  mapError (E := fun _ => .pure False) (fun _ _ _ _ h => h.elim) hp

theorem andWithin {K : Op → Prop} {φ : α → Prop} {p : Prog Ans ε α} (hp : Triple (ends E S) P p)
    (hw : p.Within K φ) : Triple (ends E fun a => (S a).and (.pure (φ a))) P p := by
  induction hp with
  | @done P r hQ =>
    cases hw with
    | ok hφ => exact .done fun s h hinv hP => ⟨hQ s h hinv hP, hφ⟩
    | error => exact .done hQ
  | call R hmay hcall _ ih =>
    cases hw with
    | call _ hk => exact .call R hmay hcall fun o => ih o (hk o.seen)

/-- Where an exception is caught, a program that raises nothing needs no handler. -/
theorem tryCatchSure {x : Prog Ans ε α} {handler : ε → Prog Ans ε α} (hx : Triple (sure S) P x) :
    Triple (sure S) P (MonadExcept.tryCatch x handler) :=
  tryCatch hx (fun _ => Entails.refl _) fun e => unreachable (fun _ _ _ h => h) (handler e)

theorem askSure (op : Op) {S : Ans op → Assertion D i}
    (hmay : ∀ s h, D.inv s h → P.holds s h → D.may i s h op)
    (hcall : ∀ s h o s', D.inv s h → P.holds s h → D.does i s op o s' →
      ∃ b, o = .answered b ∧ (S b).holds s' (⟨i, op, o⟩ :: h)) :
    Triple (sure S) P (Prog.perform op) := by
  refine .perform hmay fun s h o s' hinv hP hdoes => ?_
  obtain ⟨b, rfl, hS⟩ := hcall s h o s' hinv hP hdoes
  exact hS

theorem ask (op : Op) {S : Ans op → Assertion D i}
    (hmay : ∀ s h, D.inv s h → P.holds s h → D.may i s h op)
    (hcall : ∀ s h b s', D.inv s h → P.holds s h → D.does i s op (.answered b) s' →
      (S b).holds s' (⟨i, op, .answered b⟩ :: h)) :
    Triple (onOk S) P (Prog.perform op) :=
  .perform hmay fun s h o s' hinv hP hdoes =>
    match o with
    | .answered b => hcall s h b s' hinv hP hdoes
    | .refused _ | .failed _ | .lost _ _ => trivial

theorem within {K : Op → Prop} {φ : α → Prop} {p : Prog Ans ε α} (hkeeps : P.Keeps K)
    (hmay : ∀ s h op, K op → D.inv s h → P.holds s h → D.may i s h op) (hp : p.Within K φ) :
    Triple (ends (fun _ => P) fun a => P.and (.pure (φ a))) P p := by
  induction hp with
  | ok hφ => exact .done fun _ _ _ hP => ⟨hP, hφ⟩
  | error => exact .done (Entails.refl P)
  | call hop _ ih =>
    exact .call (fun _ => P) (fun s h hinv hP => hmay s h _ hop hinv hP)
      (fun s h o s' hinv hP hdoes => hkeeps _ hop hinv (hmay s h _ hop hinv hP) hdoes hP)
      fun o => ih o.seen

theorem quiet {K : Op → Prop} {φ : α → Prop} {p : Prog Ans ε α} (hkeeps : P.Keeps K)
    (hmay : ∀ s h op, K op → D.inv s h → P.holds s h → D.may i s h op) (hp : p.Within K φ) :
    Triple (onOk fun a => P.and (.pure (φ a))) P p :=
  mapError (fun _ => Assertion.entails_top P) (within hkeeps hmay hp)

end Triple

/-! ## All programs together -/

namespace Discipline

variable [DecidableEq ι] {D : Discipline ι σ Ans ε} {starts : ι → Prog Ans ε α → Prop}
  {s₀ : σ} {cond : StepCond ι σ Ans ε α} {c c' : Config ι σ Ans ε α}

def fresh (D : Discipline ι σ Ans ε) (i : ι) : Assertion D i := .never fun _ => True

/-- Every running program is where its outline says. -/
def Sound (D : Discipline ι σ Ans ε) (Q : (i : ι) → Except ε α → Assertion D i)
    (c : Config ι σ Ans ε α) : Prop :=
  D.inv c.state c.history ∧
    ∀ i p, c.threads i = .running p → ∃ P : Assertion D i, P.holds c.state c.history ∧
      Triple (Q i) P p

variable {Q : (i : ι) → Except ε α → Assertion D i}

theorem Sound.step {l : Label ι Ans ε}
    (hstarts : ∀ i p, c.threads i = .ready → starts i p → Triple (Q i) (D.fresh i) p)
    (hs : Step starts D.does c l c') (hsound : D.Sound Q c)
    (hfresh : ∀ i, c.threads i = .ready → ∀ e ∈ c.history, e.caller ≠ i) : D.Sound Q c' := by
  obtain ⟨hinv, hall⟩ := hsound
  cases hs with
  | @start i p hready hp =>
    refine ⟨hinv, fun j q hq => ?_⟩
    by_cases hij : j = i
    · subst hij
      simp only [Function.update_self, Thread.running.injEq] at hq
      subst hq
      exact ⟨D.fresh j, fun e he hi => absurd hi (hfresh j hready e he), hstarts j p hready hp⟩
    · simp only [Function.update_of_ne hij] at hq
      exact hall j q hq
  | @call i op k o s' hrun hdoes =>
    obtain ⟨P, hP, htriple⟩ := hall i _ hrun
    cases htriple with
    | call R hmay hcall hk =>
      have hpermit := hmay _ _ hinv hP
      refine ⟨D.inv_call hinv hpermit hdoes, fun j q hq => ?_⟩
      by_cases hij : j = i
      · subst hij
        simp only [Function.update_self, Thread.running.injEq] at hq
        subst hq
        exact ⟨R o, hcall _ _ _ _ hinv hP hdoes, hk o⟩
      · simp only [Function.update_of_ne hij] at hq
        obtain ⟨P', hP', ht⟩ := hall j q hq
        exact ⟨P', P'.stable (Ne.symm hij) hinv hpermit hdoes hP', ht⟩
  | @kill i op k hrun =>
    refine ⟨hinv, fun j q hq => ?_⟩
    by_cases hij : j = i
    · subst hij; simp at hq
    · simp only [Function.update_of_ne hij] at hq
      exact hall j q hq

theorem sound_from {c₀ : Config ι σ Ans ε α}
    (hstarts : ∀ i p, c₀.threads i = .ready → starts i p → Triple (Q i) (D.fresh i) p)
    (hinit : D.Sound Q c₀) (hfresh : ∀ i, c₀.threads i = .ready → ∀ e ∈ c₀.history, e.caller ≠ i)
    (h : RunVia starts D.does cond c₀ c) : D.Sound Q c := by
  induction h with
  | init => exact hinit
  | step hrun hs _ ih =>
    exact ih.step (fun i p hready => hstarts i p (hrun.ready_of_ready hready)) hs
      fun i => hrun.history_of_ready (hfresh i)

/-- In every run of programs with outlines, every program stays where its outline says. -/
theorem sound (hstarts : ∀ i p, starts i p → Triple (Q i) (D.fresh i) p) (hinit : D.inv s₀ [])
    (h : ReachVia starts D.does cond s₀ c) : D.Sound Q c :=
  sound_from (fun i p _ => hstarts i p) ⟨hinit, fun i p hp => by simp [Config.initial] at hp⟩
    (fun _ _ _ he => absurd he List.not_mem_nil) h

omit [DecidableEq ι] in
theorem Sound.post {i : ι} {r : Except ε α} (h : D.Sound Q c)
    (hrun : c.threads i = .running (.done r)) : (Q i r).holds c.state c.history := by
  obtain ⟨P, hP, ht⟩ := h.2 i _ hrun
  cases ht with
  | done hQ => exact hQ _ _ h.1 hP

/-- One program among others that may do anything stays where its outline says. -/
theorem sound_beside {c₀ : Config ι σ Ans ε α} {i : ι} {p : Prog Ans ε α} {P : Assertion D i}
    {Q : Except ε α → Assertion D i} (hmay : ∀ j s h op, j ≠ i → D.inv s h → D.may j s h op)
    (hinv : D.inv c₀.state c₀.history)
    (hfresh : ∀ j, c₀.threads j = .ready → ∀ e ∈ c₀.history, e.caller ≠ j)
    (hrun : c₀.threads i = .running p) (hP : P.holds c₀.state c₀.history) (ht : Triple Q P p)
    (h : RunVia starts D.does cond c₀ c) : D.Sound (fun j r => (Q r).onlyFor j) c := by
  have hothers : ∀ j, j ≠ i → ∀ (R : Assertion D j) q,
      Triple (fun r => (Q r).onlyFor j) R q := fun j hj R q =>
    (Triple.anything (fun s h op => hmay j s h op hj) q).strengthen fun r _ _ _ _ heq => absurd heq hj
  refine sound_from (fun j q hready _ => hothers j ?_ _ q) ⟨hinv, fun j q hq => ?_⟩ hfresh h
  · rintro rfl
    rw [hrun] at hready
    cases hready
  · by_cases hj : j = i
    · subst hj
      obtain rfl : p = q := Thread.running.inj (hrun.symm.trans hq)
      exact ⟨P, hP, ht.strengthen fun r s h hinv hQ _ => hQ⟩
    · exact ⟨.top, trivial, hothers j hj .top q⟩

omit [DecidableEq ι] in
theorem Sound.may {i : ι} {op : Op} {k : Except ε (Ans op) → Prog Ans ε α} (h : D.Sound Q c)
    (hrun : c.threads i = .running (.call op k)) : D.may i c.state c.history op := by
  obtain ⟨P, hP, ht⟩ := h.2 i _ hrun
  cases ht with
  | call R hmay _ _ => exact hmay _ _ h.1 hP

theorem Sound.permitted {e : Event ι Ans ε} (h : D.Sound Q c)
    (hs : Step starts D.does c (.call e) c') :
    D.may e.caller c.state c.history e.op ∧
      D.does e.caller c.state e.op e.outcome c'.state ∧ c'.history = e :: c.history := by
  cases hs with
  | call hrun hdoes => exact ⟨h.may hrun, hdoes, rfl⟩

/-- What permitted calls keep holds in every run. -/
theorem always {R : σ → List (Event ι Ans ε) → Prop}
    (hstarts : ∀ i p, starts i p → Triple (Q i) (D.fresh i) p) (hinit : D.inv s₀ []) (hR : R s₀ [])
    (hstep : ∀ {s h i op o s'}, D.inv s h → D.may i s h op → D.does i s op o s' → R s h →
      R s' (⟨i, op, o⟩ :: h))
    (h : ReachVia starts D.does cond s₀ c) : R c.state c.history := by
  induction h with
  | init => exact hR
  | step hreach hs _ ih =>
    have hsound := sound hstarts hinit hreach
    cases hs with
    | start => exact ih
    | kill => exact ih
    | @call i op k o s' hrun hdoes =>
      have hcall : Step starts D.does _ (.call ⟨i, op, o⟩) _ := .call hrun hdoes
      exact hstep hsound.1 (hsound.permitted hcall).1 hdoes ih

end Discipline

end Effects
