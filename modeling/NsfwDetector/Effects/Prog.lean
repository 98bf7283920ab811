import Mathlib.Logic.Function.Basic

/-!
# Programs that call out

A program asks its environment for one call at a time. A call answers or raises, and the rest of
the program reads which. Nothing here knows what the calls do: `Run.lean` gives them a behaviour.
-/

namespace Effects

/-- A program over the calls of `Op`: it is done, or it waits for the reply to a call. -/
inductive Prog {Op : Type} (Ans : Op → Type) (ε α : Type) : Type
  | done (r : Except ε α)
  | call (op : Op) (k : Except ε (Ans op) → Prog Ans ε α)

namespace Prog

variable {Op : Type} {Ans : Op → Type} {ε α β : Type}

def perform (op : Op) : Prog Ans ε (Ans op) := .call op .done

/-- An exception ends the program, so `f` runs on values only. -/
def bind : Prog Ans ε α → (α → Prog Ans ε β) → Prog Ans ε β
  | .done (.ok a), f => f a
  | .done (.error e), _ => .done (.error e)
  | .call op k, f => .call op fun r => (k r).bind f

/-- `handler` runs on exceptions only. -/
def tryCatch : Prog Ans ε α → (ε → Prog Ans ε α) → Prog Ans ε α
  | .done (.ok a), _ => .done (.ok a)
  | .done (.error e), handler => handler e
  | .call op k, handler => .call op fun r => (k r).tryCatch handler

/-- `final` runs in any case. If it raises, its exception wins. -/
def tryFinally : Prog Ans ε α → Prog Ans ε Unit → Prog Ans ε α
  | .done r, final => final.bind fun _ => .done r
  | .call op k, final => .call op fun r => (k r).tryFinally final

instance : Monad (Prog Ans ε) where
  pure a := .done (.ok a)
  bind := bind

instance : MonadExcept ε (Prog Ans ε) where
  throw e := .done (.error e)
  tryCatch := tryCatch

theorem pure_eq (a : α) : (Pure.pure a : Prog Ans ε α) = .done (.ok a) := rfl

theorem bind_eq (p : Prog Ans ε α) (f : α → Prog Ans ε β) : (p >>= f) = p.bind f := rfl

theorem tryCatch_eq (p : Prog Ans ε α) (h : ε → Prog Ans ε α) :
    (MonadExcept.tryCatch p h) = p.tryCatch h := rfl

/-! ## What a program may call and return -/

/-- Whatever the replies are, every call is in `K`, and a value at the end satisfies `φ`. -/
inductive Within (K : Op → Prop) (φ : α → Prop) : Prog Ans ε α → Prop
  | ok {a : α} (h : φ a) : Within K φ (.done (.ok a))
  | error {e : ε} : Within K φ (.done (.error e))
  | call {op : Op} {k : Except ε (Ans op) → Prog Ans ε α} (hop : K op)
      (hk : ∀ r, Within K φ (k r)) : Within K φ (.call op k)

namespace Within

variable {K K' : Op → Prop} {φ φ' : α → Prop} {ψ : β → Prop} {p : Prog Ans ε α}

theorem pure {a : α} (h : φ a) : Within K φ (Pure.pure a : Prog Ans ε α) := .ok h

theorem throw {e : ε} : Within K φ (MonadExcept.throw e : Prog Ans ε α) := .error

theorem done (r : Except ε α) : Within K (fun a => r = .ok a) (.done r : Prog Ans ε α) := by
  cases r with
  | ok a => exact .ok rfl
  | error e => exact .error

theorem perform (op : Op) (hop : K op) : Within K (fun _ => True) (Prog.perform op : Prog Ans ε _) :=
  .call hop fun r => by
    cases r with
    | ok a => exact .ok trivial
    | error e => exact .error

theorem mono (hK : ∀ op, K op → K' op) (hφ : ∀ a, φ a → φ' a) (h : Within K φ p) :
    Within K' φ' p := by
  induction h with
  | ok h => exact .ok (hφ _ h)
  | error => exact .error
  | call hop _ ih => exact .call (hK _ hop) ih

theorem bind {f : α → Prog Ans ε β} (hp : Within K φ p) (hf : ∀ a, φ a → Within K ψ (f a)) :
    Within K ψ (p >>= f) := by
  rw [bind_eq]
  induction hp with
  | ok h => exact hf _ h
  | error => exact .error
  | call hop _ ih => exact .call hop ih

theorem tryCatch {handler : ε → Prog Ans ε α} (hp : Within K φ p)
    (hh : ∀ e, Within K φ (handler e)) : Within K φ (MonadExcept.tryCatch p handler) := by
  rw [tryCatch_eq]
  induction hp with
  | ok h => exact .ok h
  | error => exact hh _
  | call hop _ ih => exact .call hop ih

end Within

end Prog

end Effects
