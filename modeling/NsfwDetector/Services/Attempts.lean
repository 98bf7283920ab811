import NsfwDetector.Arith.Double
import NsfwDetector.Core.Errors
import NsfwDetector.Effects.Replies

/-!
# Attempts at a call of the model

The methods of the moderation service share one loop. A failed attempt is followed by a pause that
doubles from attempt to attempt, up to two seconds. The power of two is an integer, and it is no float
from `2 ** 1024` on.
-/

namespace NsfwDetector

open Effects

/-! ## The pause -/

def overflowError : PyException := .other "OverflowError" "int too large to convert to float"

namespace Backoff

/-- `base_delay_seconds * (2 ** (attempt - 1))` -/
def doubled (baseDelaySeconds : Double) (attempt : Nat) : Except PyException Double :=
  if (2 : ℚ) ^ (attempt - 1) < Double.threshold then
    .ok (baseDelaySeconds.mul (Double.ofRat (2 ^ (attempt - 1))))
  else .error overflowError

/-- `min(x, y)` -/
def pyMin (x y : Double) : Double := if y.lt x then y else x

/-- `max(x, y)` -/
def pyMax (x y : Double) : Double := if x.lt y then y else x

/-- The attempts after which the power of two is a float. -/
def floatAttempts : Nat := 1024

theorem threshold_le : Double.threshold ≤ 2 ^ 1024 :=
  sub_le_self _ (pow_nonneg (by norm_num) _)

theorem lt_threshold : 2 ^ 1023 < Double.threshold := by
  have hsmall : (2 : ℚ) ^ 970 < 2 ^ 1023 := pow_lt_pow_right₀ (by norm_num) (by norm_num)
  calc (2 : ℚ) ^ 1023 = 2 ^ 1023 * 2 - 2 ^ 1023 := by rw [mul_two, add_sub_cancel_right]
    _ < 2 ^ 1023 * 2 - 2 ^ 970 := sub_lt_sub_left hsmall _
    _ = Double.threshold := by rw [Double.threshold, pow_succ 2 1023]

theorem pow_lt_threshold_iff (attempt : Nat) :
    (2 : ℚ) ^ (attempt - 1) < Double.threshold ↔ attempt ≤ floatAttempts := by
  constructor
  · intro h
    by_contra hlarge
    have hpow : (2 : ℚ) ^ 1024 ≤ 2 ^ (attempt - 1) :=
      pow_le_pow_right₀ (by norm_num) (by unfold floatAttempts at hlarge; omega)
    exact absurd h (not_lt.mpr (threshold_le.trans hpow))
  · intro h
    have hpow : (2 : ℚ) ^ (attempt - 1) ≤ 2 ^ 1023 :=
      pow_le_pow_right₀ (by norm_num) (by unfold floatAttempts at h; omega)
    exact hpow.trans_lt lt_threshold

end Backoff

/-- `_sleep_before_retry`. To sleep changes nothing, but to compute for how long may raise. -/
def sleepBeforeRetry (attempt maxAttempts : Nat) (baseDelaySeconds : Double) : Except PyException Unit :=
  if maxAttempts ≤ attempt ∨ baseDelaySeconds.le (.finite 0) then .ok ()
  else do
    let _delay ← (Backoff.doubled baseDelaySeconds attempt).map (Backoff.pyMin · (.finite 2))
    .ok ()

theorem sleepBeforeRetry_ok {attempt maxAttempts : Nat} {baseDelaySeconds : Double}
    (h : maxAttempts ≤ attempt ∨ baseDelaySeconds.le (.finite 0) ∨ attempt ≤ Backoff.floatAttempts) :
    sleepBeforeRetry attempt maxAttempts baseDelaySeconds = .ok () := by
  unfold sleepBeforeRetry
  split
  · rfl
  · next hsome =>
    have hfloat : attempt ≤ Backoff.floatAttempts := by
      rcases h with h | h | h
      · exact absurd (.inl h) hsome
      · exact absurd (.inr h) hsome
      · exact h
    rw [Backoff.doubled, if_pos ((Backoff.pow_lt_threshold_iff attempt).mpr hfloat)]
    rfl

theorem sleepBeforeRetry_overflow {attempt maxAttempts : Nat} {baseDelaySeconds : Double}
    (hmore : attempt < maxAttempts) (hdelay : ¬ baseDelaySeconds.le (.finite 0))
    (hlarge : Backoff.floatAttempts < attempt) :
    sleepBeforeRetry attempt maxAttempts baseDelaySeconds = .error overflowError := by
  have hnofloat := mt (Backoff.pow_lt_threshold_iff attempt).mp (not_le.mpr hlarge)
  rw [sleepBeforeRetry, if_neg (not_or.mpr ⟨not_le.mpr hmore, hdelay⟩), Backoff.doubled, if_neg hnofloat]
  rfl

/-! ## The loop -/

/-- `_raise_model_failure` -/
def modelFailure : PyException → PyException
  | .appError code message statusCode => .appError code message statusCode
  | _ => .appError "model_moderation_failed" "model moderation failed after retries" 503

def gpuMaxAttempts (settings : Settings) : Nat := (max 1 settings.gpuMaxAttempts).toNat

theorem modelFailure_appError (e : PyException) :
    ∃ code message statusCode, modelFailure e = .appError code message statusCode := by
  cases e <;> exact ⟨_, _, _, rfl⟩

theorem gpuMaxAttempts_pos (settings : Settings) : 0 < gpuMaxAttempts settings := by
  unfold gpuMaxAttempts
  omega

section

variable {Op : Type} {Ans : Op → Type} {α : Type}

/-- The rest of the loop, with the numbers of the attempts that are left. -/
def moderationAttempts (settings : Settings) (body : Prog Ans PyException α) (exhausted : String) :
    List Nat → Option PyException → Prog Ans PyException α
  | [], some lastError => throw (modelFailure lastError)
  | [], none => throw (.runtimeError exhausted)
  | attempt :: rest, _ =>
    tryCatch body fun exc => do
      Prog.done (sleepBeforeRetry attempt (gpuMaxAttempts settings) settings.gpuRetryBaseDelaySeconds)
      moderationAttempts settings body exhausted rest (some exc)

/-- `for attempt in range(1, max_attempts + 1)` -/
def modelAttempts (settings : Settings) (body : Prog Ans PyException α) (exhausted : String) :
    Prog Ans PyException α :=
  moderationAttempts settings body exhausted (List.range' 1 (gpuMaxAttempts settings)) none

variable {settings : Settings} {body : Prog Ans PyException α} {exhausted : String}

theorem modelAttempts_within {K : Op → Prop} {φ : α → Prop} (h : body.Within K φ) :
    (modelAttempts settings body exhausted).Within K φ := by
  have hloop : ∀ numbers lastError,
      (moderationAttempts settings body exhausted numbers lastError).Within K φ := by
    intro numbers
    induction numbers with
    | nil => exact fun lastError => by cases lastError <;> exact .throw
    | cons attempt rest ih =>
      exact fun _ => .tryCatch h fun exc => .bind (.done _) fun _ _ => ih (some exc)
  exact hloop _ none

theorem modelAttempts_through {Op' : Type} {Ans' : Op' → Type} (lower : Op → Op')
    (read : (op : Op) → Except PyException (Ans' (lower op)) → Except PyException (Ans op)) :
    (modelAttempts settings body exhausted).through lower read =
      modelAttempts settings (body.through lower read) exhausted := by
  have hloop : ∀ numbers lastError,
      (moderationAttempts settings body exhausted numbers lastError).through lower read =
        moderationAttempts settings (body.through lower read) exhausted numbers lastError := by
    intro numbers
    induction numbers with
    | nil => exact fun lastError => by cases lastError <;> rfl
    | cons attempt rest ih =>
      intro lastError
      rw [moderationAttempts, moderationAttempts, Prog.through_tryCatch]
      refine congrArg _ (funext fun exc => ?_)
      rw [Prog.through_bind]
      exact congrArg _ (funext fun _ => ih (some exc))
  exact hloop _ none

/-! ## How the loop ends -/

/-- No pause of the loop can overflow. -/
def Pauses (settings : Settings) : Prop :=
  gpuMaxAttempts settings ≤ Backoff.floatAttempts + 1 ∨ settings.gpuRetryBaseDelaySeconds.le (.finite 0)

instance (settings : Settings) : Decidable (Pauses settings) := inferInstanceAs (Decidable (_ ∨ _))

variable {replies : Nat → (op : Op) → Except PyException (Ans op)}

/-- The attempts that begin with the calls from `n` up to `m` fail. -/
def Failing (body : Prog Ans PyException α) (replies : Nat → (op : Op) → Except PyException (Ans op))
    (n m : Nat) : Prop :=
  n ≤ m ∧ ∀ i, n ≤ i → i < m → ∃ e, body.against replies i = (.error e, i + 1)

theorem Failing.cons {n m : Nat} {e : PyException} (h : body.against replies n = (.error e, n + 1))
    (hrest : Failing body replies (n + 1) m) : Failing body replies n m := by
  refine ⟨by have := hrest.1; omega, fun i hi hlt => ?_⟩
  rcases Nat.eq_or_lt_of_le hi with rfl | hi
  · exact ⟨e, h⟩
  · exact hrest.2 i hi hlt

/-- How a loop ends that begins with attempt `first` and call `n`, with `remaining` attempts left. -/
inductive Attempted (settings : Settings) (body : Prog Ans PyException α)
    (replies : Nat → (op : Op) → Except PyException (Ans op)) (first remaining n : Nat) :
    Except PyException α × Nat → Prop
  | accepted {m : Nat} {a : α} (hpauses : Pauses settings ∨ m + first < n + Backoff.floatAttempts + 2)
      (hcalls : m < n + remaining) (hfailing : Failing body replies n m)
      (hbody : body.against replies m = (.ok a, m + 1)) :
      Attempted settings body replies first remaining n (.ok a, m + 1)
  | exhausted {m : Nat} {e : PyException} (hpauses : Pauses settings) (hcalls : m = n + remaining)
      (hfailing : Failing body replies n m) :
      Attempted settings body replies first remaining n (.error (modelFailure e), m)
  | overflown {m : Nat} (hpauses : ¬ Pauses settings)
      (hcalls : m + first = n + Backoff.floatAttempts + 2) (hfailing : Failing body replies n m) :
      Attempted settings body replies first remaining n (.error overflowError, m)

theorem Attempted.cons {first remaining n : Nat} {e : PyException} {out : Except PyException α × Nat}
    (h : body.against replies n = (.error e, n + 1))
    (hout : Attempted settings body replies (first + 1) remaining (n + 1) out) :
    Attempted settings body replies first (remaining + 1) n out := by
  cases hout with
  | accepted hpauses hcalls hfailing hbody =>
    exact .accepted (hpauses.imp id fun hlt => by omega) (by omega) (hfailing.cons h) hbody
  | exhausted hpauses hcalls hfailing => exact .exhausted hpauses (by omega) (hfailing.cons h)
  | overflown hpauses hcalls hfailing => exact .overflown hpauses (by omega) (hfailing.cons h)

theorem moderationAttempts_against (hbody : ∀ i, (body.against replies i).2 = i + 1) (remaining : Nat)
    {first : Nat} {lastError : Option PyException} (hsome : 0 < remaining ∨ lastError ≠ none)
    (hcount : first + remaining = gpuMaxAttempts settings + 1)
    (hfirst : Pauses settings ∨ first ≤ Backoff.floatAttempts + 1) (n : Nat) :
    Attempted settings body replies first remaining n
      ((moderationAttempts settings body exhausted (List.range' first remaining) lastError).against
        replies n) := by
  induction remaining generalizing first lastError n with
  | zero =>
    cases lastError with
    | none => simp at hsome
    | some e =>
      have hpauses : Pauses settings := hfirst.elim id fun hle => .inl (by omega)
      exact .exhausted hpauses rfl ⟨le_rfl, fun i hi hlt => by omega⟩
  | succ remaining ih =>
    obtain ⟨result, m, hrun⟩ : ∃ result m, body.against replies n = (result, m) := ⟨_, _, rfl⟩
    obtain rfl : m = n + 1 := by simpa [hrun] using hbody n
    rw [List.range'_succ, moderationAttempts]
    cases result with
    | ok a =>
      rw [Prog.against_tryCatch_ok hrun]
      exact .accepted (hfirst.imp id fun hle => by omega) (by omega) ⟨le_rfl, fun i hi hlt => by omega⟩ hrun
    | error e =>
      rw [Prog.against_tryCatch_error hrun]
      by_cases hpause : Pauses settings ∨ first ≤ Backoff.floatAttempts
      · have hok : gpuMaxAttempts settings ≤ first ∨
            settings.gpuRetryBaseDelaySeconds.le (.finite 0) ∨ first ≤ Backoff.floatAttempts := by
          rcases hpause with (hle | hdelay) | hle
          · omega
          · exact .inr (.inl hdelay)
          · exact .inr (.inr hle)
        rw [sleepBeforeRetry_ok hok, Prog.against_bind_ok (Prog.against_done _)]
        exact (ih (.inr (Option.some_ne_none e)) (by omega) (hpause.imp id fun hle => by omega) _).cons hrun
      · -- attempt 1025 of more
        obtain ⟨hpauses, hlarge⟩ := not_or.mp hpause
        obtain ⟨hmore, hdelay⟩ := not_or.mp hpauses
        have hle := hfirst.resolve_left hpauses
        rw [sleepBeforeRetry_overflow (by omega) hdelay (by omega),
          Prog.against_bind_error (Prog.against_done _)]
        exact .overflown hpauses (by omega) (.cons hrun ⟨le_rfl, fun i hi hlt => by omega⟩)

theorem modelAttempts_against (hbody : ∀ i, (body.against replies i).2 = i + 1) (n : Nat) :
    Attempted settings body replies 1 (gpuMaxAttempts settings) n
      ((modelAttempts settings body exhausted).against replies n) :=
  moderationAttempts_against hbody _ (.inl (gpuMaxAttempts_pos settings)) (Nat.add_comm _ _)
    (.inr (Nat.le_add_left _ _)) n

/-- The loop overflows where more attempts are allowed and the first 1025 fail. -/
def Overflows (settings : Settings) (body : Prog Ans PyException α)
    (replies : Nat → (op : Op) → Except PyException (Ans op)) (n : Nat) : Prop :=
  ¬ Pauses settings ∧ Failing body replies n (n + Backoff.floatAttempts + 1)

/-- Otherwise its end is a result of the body or an `AppError`. -/
theorem modelAttempts_cases (hbody : ∀ i, (body.against replies i).2 = i + 1) (n : Nat) :
    (Overflows settings body replies n ∧
        ((modelAttempts settings body exhausted).against replies n).1 = .error overflowError) ∨
      ¬ Overflows settings body replies n ∧
        ((∃ a, ((modelAttempts settings body exhausted).against replies n).1 = .ok a) ∨
          ∃ e, ((modelAttempts settings body exhausted).against replies n).1 = .error (modelFailure e)) := by
  have hout := @modelAttempts_against _ _ _ settings body exhausted replies hbody n
  revert hout
  generalize (modelAttempts settings body exhausted).against replies n = out
  rintro (⟨hpauses, hcalls, hfailing, hok⟩ | ⟨hpauses, hcalls, hfailing⟩ | ⟨hpauses, hcalls, hfailing⟩)
  · refine .inr ⟨fun ⟨hnot, hall⟩ => ?_, .inl ⟨_, rfl⟩⟩
    have hlt := hpauses.resolve_left hnot
    obtain ⟨e, he⟩ := hall.2 _ hfailing.1 (by omega)
    rw [hok] at he
    cases he
  · exact .inr ⟨fun ⟨hnot, _⟩ => hnot hpauses, .inr ⟨_, rfl⟩⟩
  · exact .inl ⟨⟨hpauses, by convert hfailing using 1; omega⟩, rfl⟩

end

end NsfwDetector
