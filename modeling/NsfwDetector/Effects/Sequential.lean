import Mathlib.Logic.Basic
import NsfwDetector.Effects.Prog

/-!
# Programs that run alone

A program over a state either returns or raises, and in both cases it leaves a state behind. The
rules below follow the program from its first call to its last.
-/

namespace Effects

variable {ε σ α β : Type}

def Returns (x : EStateM ε σ α) (s : σ) (a : α) (s' : σ) : Prop := x.run s = .ok a s'

def Raises (x : EStateM ε σ α) (s : σ) (e : ε) (s' : σ) : Prop := x.run s = .error e s'

def after (x : EStateM ε σ α) (s : σ) : σ :=
  match x.run s with
  | .ok _ s' | .error _ s' => s'

variable {x : EStateM ε σ α} {f : α → EStateM ε σ β} {handler : ε → EStateM ε σ α}
  {s s' s'' : σ} {a : α} {b : β} {e e' : ε}

theorem Returns.after (h : Returns x s a s') : after x s = s' := by
  unfold Returns at h
  simp only [Effects.after, h]

theorem Raises.after (h : Raises x s e s') : after x s = s' := by
  unfold Raises at h
  simp only [Effects.after, h]

theorem Returns.pure (a : α) (s : σ) : Returns (Pure.pure a : EStateM ε σ α) s a s := rfl

theorem Raises.throw (e : ε) (s : σ) : Raises (MonadExcept.throw e : EStateM ε σ α) s e s := rfl

theorem Returns.get (s : σ) : Returns (MonadState.get : EStateM ε σ σ) s s s := rfl

theorem Returns.modify (g : σ → σ) (s : σ) : Returns (modify g : EStateM ε σ PUnit) s ⟨⟩ (g s) := rfl

theorem Returns.modifyGet (g : σ → α × σ) (s : σ) :
    Returns (modifyGet g : EStateM ε σ α) s (g s).1 (g s).2 := rfl

/-! ## Sequence -/

theorem Returns.run_bind (hx : Returns x s a s') : (x >>= f).run s = (f a).run s' := by
  unfold Returns at hx
  rw [EStateM.run_bind, hx]

theorem Returns.after_bind (hx : Returns x s a s') : Effects.after (x >>= f) s = Effects.after (f a) s' := by
  unfold Effects.after
  rw [hx.run_bind]

theorem Returns.bind (hx : Returns x s a s') (hf : Returns (f a) s' b s'') :
    Returns (x >>= f) s b s'' := by
  unfold Returns at hf ⊢
  rw [hx.run_bind, hf]

theorem Returns.raises (hx : Returns x s a s') (hf : Raises (f a) s' e s'') :
    Raises (x >>= f) s e s'' := by
  unfold Raises at hf ⊢
  rw [hx.run_bind, hf]

theorem Raises.bind (hx : Raises x s e s') : Raises (x >>= f) s e s' := by
  unfold Raises at hx ⊢
  rw [EStateM.run_bind, hx]

/-! ## Handlers -/

theorem run_tryCatch (x : EStateM ε σ α) (handler : ε → EStateM ε σ α) (s : σ) :
    (MonadExcept.tryCatch x handler).run s =
      match x.run s with
      | .ok a s' => .ok a s'
      | .error e s' => (handler e).run s' := by
  simp only [MonadExcept.tryCatch, tryCatchThe, MonadExceptOf.tryCatch, EStateM.run]
  delta EStateM.tryCatch
  cases x s <;> rfl

theorem Returns.tryCatch (hx : Returns x s a s') : Returns (MonadExcept.tryCatch x handler) s a s' := by
  unfold Returns at hx ⊢
  rw [run_tryCatch, hx]

theorem Raises.caught (hx : Raises x s e s') (hh : Returns (handler e) s' a s'') :
    Returns (MonadExcept.tryCatch x handler) s a s'' := by
  unfold Raises at hx
  unfold Returns at hh ⊢
  rw [run_tryCatch, hx]
  exact hh

theorem Raises.rethrown (hx : Raises x s e s') (hh : Raises (handler e) s' e' s'') :
    Raises (MonadExcept.tryCatch x handler) s e' s'' := by
  unfold Raises at hx hh ⊢
  rw [run_tryCatch, hx]
  exact hh

/-! ## Programs over calls -/

namespace Prog

variable {Op : Type} {Ans : Op → Type} {answers : σ → (op : Op) → Ans op → σ → Prop}

/-- The program runs alone from `s`, and each of its calls is answered. -/
inductive Runs (answers : σ → (op : Op) → Ans op → σ → Prop) :
    Prog Ans ε α → σ → Except ε α → σ → Prop
  | done {r : Except ε α} {s : σ} : Runs answers (.done r) s r s
  | call {op : Op} {k : Except ε (Ans op) → Prog Ans ε α} {s s' s'' : σ} {b : Ans op}
      {r : Except ε α} (hanswer : answers s op b s') (hk : Runs answers (k (.ok b)) s' r s'') :
      Runs answers (.call op k) s r s''

variable {s s' : σ}

@[simp] theorem runs_done {r r' : Except ε α} :
    Runs answers (.done r : Prog Ans ε α) s r' s' ↔ r' = r ∧ s' = s := by
  constructor
  · intro h
    cases h
    exact ⟨rfl, rfl⟩
  · rintro ⟨rfl, rfl⟩
    exact .done

@[simp] theorem runs_call {op : Op} {k : Except ε (Ans op) → Prog Ans ε α} {r : Except ε α} :
    Runs answers (.call op k) s r s' ↔ ∃ b t, answers s op b t ∧ Runs answers (k (.ok b)) t r s' := by
  constructor
  · intro h
    cases h with
    | call hanswer hk => exact ⟨_, _, hanswer, hk⟩
  · rintro ⟨b, t, hanswer, hk⟩
    exact .call hanswer hk

@[simp] theorem runs_pure {a : α} {r : Except ε α} :
    Runs answers (Pure.pure a : Prog Ans ε α) s r s' ↔ r = .ok a ∧ s' = s := runs_done

@[simp] theorem runs_perform {op : Op} {r : Except ε (Ans op)} :
    Runs answers (perform op) s r s' ↔ ∃ b, answers s op b s' ∧ r = .ok b := by
  simp only [perform, runs_call, runs_done]
  constructor
  · rintro ⟨b, t, hanswer, rfl, rfl⟩
    exact ⟨b, hanswer, rfl⟩
  · rintro ⟨b, hanswer, rfl⟩
    exact ⟨b, s', hanswer, rfl, rfl⟩

/-- Two programs one after the other. The second one runs only if the first one returns. -/
theorem runs_bind {x : Prog Ans ε α} {f : α → Prog Ans ε β} {r : Except ε β} :
    Runs answers (x >>= f) s r s' ↔
      (∃ a t, Runs answers x s (.ok a) t ∧ Runs answers (f a) t r s') ∨
        ∃ e, Runs answers x s (.error e) s' ∧ r = .error e := by
  rw [bind_eq]
  induction x generalizing s with
  | done x =>
    cases x with
    | ok a => simp [Prog.bind, and_assoc]
    | error e => simp [Prog.bind, and_assoc, and_comm]
  | call op k ih =>
    simp only [Prog.bind, runs_call, ih]
    constructor
    · rintro ⟨b, t, hanswer, ⟨a, u, hk, hf⟩ | ⟨e, hk, he⟩⟩
      · exact .inl ⟨a, u, ⟨b, t, hanswer, hk⟩, hf⟩
      · exact .inr ⟨e, ⟨b, t, hanswer, hk⟩, he⟩
    · rintro (⟨a, u, ⟨b, t, hanswer, hk⟩, hf⟩ | ⟨e, ⟨b, t, hanswer, hk⟩, he⟩)
      · exact ⟨b, t, hanswer, .inl ⟨a, u, hk, hf⟩⟩
      · exact ⟨b, t, hanswer, .inr ⟨e, hk, he⟩⟩

/-- Where the first program always returns, the second one follows. -/
theorem runs_bind_ok {x : Prog Ans ε α} {f : α → Prog Ans ε β} {r : Except ε β}
    (hx : ∀ e t, ¬ Runs answers x s (.error e) t) :
    Runs answers (x >>= f) s r s' ↔ ∃ a t, Runs answers x s (.ok a) t ∧ Runs answers (f a) t r s' := by
  rw [runs_bind]
  exact or_iff_left fun ⟨e, he, _⟩ => hx e s' he

theorem runs_bind_pure {x : Prog Ans ε α} {g : α → β} {r : Except ε β}
    (hx : ∀ e t, ¬ Runs answers x s (.error e) t) :
    Runs answers (x >>= fun a => pure (g a)) s r s' ↔ ∃ a, Runs answers x s (.ok a) s' ∧ r = .ok (g a) := by
  rw [runs_bind_ok hx]
  constructor
  · rintro ⟨a, t, hrun, hdone⟩
    obtain ⟨rfl, rfl⟩ := runs_pure.mp hdone
    exact ⟨a, hrun, rfl⟩
  · rintro ⟨a, hrun, rfl⟩
    exact ⟨a, s', hrun, .done⟩

@[simp] theorem runs_perform_bind {op : Op} {f : Ans op → Prog Ans ε β} {r : Except ε β} :
    Runs answers (perform op >>= f) s r s' ↔ ∃ b t, answers s op b t ∧ Runs answers (f b) t r s' :=
  runs_call

end Prog

end Effects
