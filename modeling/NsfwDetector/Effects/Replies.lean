import NsfwDetector.Effects.Prog

/-!
# Programs against replies given in advance

The reply to a call is fixed by its number and by what is asked. A program may also stand on another
one: `through` puts a call of a lower level in place of each call and reads its reply.
-/

namespace Effects

namespace Prog

variable {Op Op' : Type} {Ans : Op → Type} {Ans' : Op' → Type} {ε α β : Type}

/-- How the program ends if `n` calls came before it, and how many calls there are then. -/
def against (replies : Nat → (op : Op) → Except ε (Ans op)) : Prog Ans ε α → Nat → Except ε α × Nat
  | .done r, n => (r, n)
  | .call op k, n => (k (replies n op)).against replies (n + 1)

section

variable {replies : Nat → (op : Op) → Except ε (Ans op)} {n m : Nat}

@[simp] theorem against_done (r : Except ε α) :
    (.done r : Prog Ans ε α).against replies n = (r, n) := rfl

@[simp] theorem against_perform (op : Op) :
    (perform op : Prog Ans ε _).against replies n = (replies n op, n + 1) := rfl

theorem against_bind_ok {x : Prog Ans ε α} {f : α → Prog Ans ε β} {a : α}
    (h : x.against replies n = (.ok a, m)) :
    (x >>= f).against replies n = (f a).against replies m := by
  rw [bind_eq]
  induction x generalizing n with
  | done r =>
    cases h
    rfl
  | call op k ih => exact ih _ h

theorem against_bind_error {x : Prog Ans ε α} {f : α → Prog Ans ε β} {e : ε}
    (h : x.against replies n = (.error e, m)) : (x >>= f).against replies n = (.error e, m) := by
  rw [bind_eq]
  induction x generalizing n with
  | done r =>
    cases h
    rfl
  | call op k ih => exact ih _ h

theorem against_tryCatch_ok {x : Prog Ans ε α} {handler : ε → Prog Ans ε α} {a : α}
    (h : x.against replies n = (.ok a, m)) :
    (MonadExcept.tryCatch x handler).against replies n = (.ok a, m) := by
  rw [tryCatch_eq]
  induction x generalizing n with
  | done r =>
    cases h
    rfl
  | call op k ih => exact ih _ h

theorem against_tryCatch_error {x : Prog Ans ε α} {handler : ε → Prog Ans ε α} {e : ε}
    (h : x.against replies n = (.error e, m)) :
    (MonadExcept.tryCatch x handler).against replies n = (handler e).against replies m := by
  rw [tryCatch_eq]
  induction x generalizing n with
  | done r =>
    cases h
    rfl
  | call op k ih => exact ih _ h

theorem Within.against {K : Op → Prop} {φ : α → Prop} {p : Prog Ans ε α} {a : α} (h : Within K φ p)
    (ha : (p.against replies n).1 = .ok a) : φ a := by
  induction h generalizing n with
  | ok h => exact Except.ok.inj ha ▸ h
  | error => cases ha
  | call _ _ ih => exact ih _ ha

end

/-! ## Standing on another level -/

section

variable (lower : Op → Op') (read : (op : Op) → Except ε (Ans' (lower op)) → Except ε (Ans op))

def through : Prog Ans ε α → Prog Ans' ε α
  | .done r => .done r
  | .call op k => .call (lower op) fun r => (k (read op r)).through

theorem through_bind (x : Prog Ans ε α) (f : α → Prog Ans ε β) :
    (x >>= f).through lower read = x.through lower read >>= fun a => (f a).through lower read := by
  rw [bind_eq, bind_eq]
  induction x with
  | done r => cases r <;> rfl
  | call op k ih =>
    rw [Prog.bind, through, through, Prog.bind]
    exact congrArg _ (funext fun r => ih _)

theorem through_tryCatch (x : Prog Ans ε α) (handler : ε → Prog Ans ε α) :
    (MonadExcept.tryCatch x handler).through lower read =
      MonadExcept.tryCatch (x.through lower read) fun e => (handler e).through lower read := by
  rw [tryCatch_eq, tryCatch_eq]
  induction x with
  | done r => cases r <;> rfl
  | call op k ih =>
    rw [Prog.tryCatch, through, through, Prog.tryCatch]
    exact congrArg _ (funext fun r => ih _)

/-- On the lower level the program meets the replies as it reads them. -/
theorem against_through (replies : Nat → (op : Op') → Except ε (Ans' op)) (x : Prog Ans ε α) (n : Nat) :
    (x.through lower read).against replies n =
      x.against (fun i op => read op (replies i (lower op))) n := by
  induction x generalizing n with
  | done r => rfl
  | call op k ih => exact ih _ _

end

end Prog

end Effects
