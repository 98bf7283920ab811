import NsfwDetector.Effects.Run

/-!
# A program alone in an environment

An environment answers each call from its own state. So a program has one run in it.
-/

namespace Effects

abbrev Environment (τ : Type) {Op : Type} (Ans : Op → Type) (ε : Type) :=
  τ → (op : Op) → Except ε (Ans op) × τ

variable {Op : Type} {Ans : Op → Type} {ε α β τ : Type}

namespace Prog

variable {env : Environment τ Ans ε} {s s' : τ} {p : Prog Ans ε α} {f : α → Prog Ans ε β} {a : α} {e : ε}

def runIn (env : Environment τ Ans ε) : Prog Ans ε α → τ → Except ε α × τ
  | .done r, s => (r, s)
  | .call op k, s => (k (env s op).1).runIn env (env s op).2

@[simp] theorem runIn_done (r : Except ε α) : (done r : Prog Ans ε α).runIn env s = (r, s) := rfl

@[simp] theorem runIn_pure : (Pure.pure a : Prog Ans ε α).runIn env s = (.ok a, s) := rfl

@[simp] theorem runIn_throw : (MonadExcept.throw e : Prog Ans ε α).runIn env s = (.error e, s) := rfl

@[simp] theorem runIn_perform (op : Op) :
    (perform op : Prog Ans ε (Ans op)).runIn env s = env s op := rfl

/-! ## Sequence -/

theorem runIn_bind : (p >>= f).runIn env s =
    match p.runIn env s with
    | (.ok a, s') => (f a).runIn env s'
    | (.error e, s') => (.error e, s') := by
  rw [bind_eq]
  induction p generalizing s with
  | done r =>
    cases r with
    | ok a => rfl
    | error e => rfl
  | call op k ih => exact ih _

theorem runIn_bind_ok (h : p.runIn env s = (.ok a, s')) :
    (p >>= f).runIn env s = (f a).runIn env s' := by
  rw [runIn_bind, h]

theorem runIn_bind_error (h : p.runIn env s = (.error e, s')) :
    (p >>= f).runIn env s = (.error e, s') := by
  rw [runIn_bind, h]

theorem runIn_bind_eq_ok {b : β} : (p >>= f).runIn env s = (.ok b, s') ↔
    ∃ a t, p.runIn env s = (.ok a, t) ∧ (f a).runIn env t = (.ok b, s') := by
  rw [runIn_bind]
  constructor
  · intro h
    split at h
    · next a t hp => exact ⟨a, t, hp, h⟩
    · cases h
  · rintro ⟨a, t, hp, hf⟩
    rw [hp]
    exact hf

theorem runIn_perform_bind {op : Op} {f : Ans op → Prog Ans ε β} {a : Ans op}
    (h : env s op = (.ok a, s')) : (perform op >>= f).runIn env s = (f a).runIn env s' :=
  runIn_bind_ok h

/-! ## Handlers -/

theorem runIn_tryCatch {handler : ε → Prog Ans ε α} :
    (MonadExcept.tryCatch p handler).runIn env s =
      match p.runIn env s with
      | (.ok a, s') => (.ok a, s')
      | (.error e, s') => (handler e).runIn env s' := by
  rw [tryCatch_eq]
  induction p generalizing s with
  | done r =>
    cases r with
    | ok a => rfl
    | error e => rfl
  | call op k ih => exact ih _

theorem runIn_tryCatch_ok {handler : ε → Prog Ans ε α} (h : p.runIn env s = (.ok a, s')) :
    (MonadExcept.tryCatch p handler).runIn env s = (.ok a, s') := by
  rw [runIn_tryCatch, h]

theorem runIn_tryCatch_error {handler : ε → Prog Ans ε α} (h : p.runIn env s = (.error e, s')) :
    (MonadExcept.tryCatch p handler).runIn env s = (handler e).runIn env s' := by
  rw [runIn_tryCatch, h]

theorem runIn_tryFinally {final : Prog Ans ε Unit} :
    (p.tryFinally final).runIn env s =
      (final >>= fun _ => done (p.runIn env s).1).runIn env (p.runIn env s).2 := by
  induction p generalizing s with
  | done r => rfl
  | call op k ih => exact ih _

/-! ## What a run keeps -/

/-- Run where `I` holds, the program ends where `I` holds, and a value at the end satisfies `φ`. -/
def Keeps (env : Environment τ Ans ε) (I : τ → Prop) (φ : α → Prop) (p : Prog Ans ε α) : Prop :=
  ∀ s, I s → I (p.runIn env s).2 ∧ ∀ a, (p.runIn env s).1 = .ok a → φ a

/-- Calls of `K` keep the invariant, so a program that makes no others keeps it. -/
theorem Within.keeps {K : Op → Prop} {φ : α → Prop} {I : τ → Prop} (h : Within K φ p)
    (hkeep : ∀ s op, K op → I s → I (env s op).2) : Keeps env I φ p := by
  intro s hs
  induction h generalizing s with
  | ok h =>
    refine ⟨hs, fun a ha => ?_⟩
    cases ha
    exact h
  | error => exact ⟨hs, fun a ha => by cases ha⟩
  | call hop _ ih => exact ih _ _ (hkeep _ _ hop hs)

namespace Keeps

variable {I : τ → Prop} {φ φ' : α → Prop} {ψ : β → Prop}

theorem pure (h : φ a) : Keeps env I φ (Pure.pure a : Prog Ans ε α) := by
  intro s hs
  refine ⟨hs, fun b hb => ?_⟩
  cases hb
  exact h

theorem throw : Keeps env I φ (MonadExcept.throw e : Prog Ans ε α) :=
  fun _ hs => ⟨hs, fun _ hb => by cases hb⟩

theorem bind (hp : Keeps env I φ p) (hf : ∀ a, φ a → Keeps env I ψ (f a)) :
    Keeps env I ψ (p >>= f) := by
  intro s hs
  obtain ⟨hI, hφ⟩ := hp s hs
  rw [runIn_bind]
  cases hrun : p.runIn env s with
  | mk r t =>
    rw [hrun] at hI hφ
    cases r with
    | ok a => exact hf a (hφ a rfl) t hI
    | error e => exact ⟨hI, fun _ hb => by cases hb⟩

theorem tryCatch {handler : ε → Prog Ans ε α} (hp : Keeps env I φ p)
    (hh : ∀ e, Keeps env I φ (handler e)) : Keeps env I φ (MonadExcept.tryCatch p handler) := by
  intro s hs
  obtain ⟨hI, hφ⟩ := hp s hs
  rw [runIn_tryCatch]
  cases hrun : p.runIn env s with
  | mk r t =>
    rw [hrun] at hI hφ
    cases r with
    | ok a => exact ⟨hI, hφ⟩
    | error e => exact hh e t hI

theorem tryFinally {final : Prog Ans ε Unit} (hp : Keeps env I φ p)
    (hfinal : Keeps env I (fun _ => True) final) : Keeps env I φ (p.tryFinally final) := by
  intro s hs
  obtain ⟨hI, hφ⟩ := hp s hs
  rw [runIn_tryFinally]
  refine bind hfinal (fun _ _ t ht => ?_) _ hI
  exact ⟨ht, hφ⟩

end Keeps

end Prog

/-! ## Environments over a shared state -/

/-- The environment does to the visible state what `does` says, within what `allowed` says. -/
def Environment.Obeys {ι σ ν : Type} (env : Environment (σ × ν) Ans ε) (does : Behaviour ι σ Ans ε)
    (i : ι) (allowed : (op : Op) → Outcome ε (Ans op) → Prop) : Prop :=
  ∀ s op, ∃ o, does i s.1 op o (env s op).2.1 ∧ (env s op).1 = o.seen ∧ allowed op o

end Effects
