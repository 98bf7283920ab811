import Mathlib.Algebra.Order.Ring.Nat
import Mathlib.Data.Char
import Mathlib.Data.List.Lex

/-!
# Decimal numerals of a fixed width

`%0wd` pads a number with zeros to `w` digits at least. As long as the numbers fit, the order of the
text is the order of the numbers.
-/

namespace Numerals

/-- `%0wd` -/
def padded (width n : Nat) : List Char := (Nat.toDigits 10 n).leftpad width '0'

theorem padded_one {n : Nat} (h : n < 10) : padded 1 n = [n.digitChar] := by
  rw [padded, Nat.toDigits_of_lt_base h]
  rfl

/-- The last digit is the rest of a division by 10, and the digits before it are the quotient. -/
theorem padded_succ {width : Nat} (hwidth : 0 < width) (n : Nat) :
    padded (width + 1) n = padded width (n / 10) ++ [(n % 10).digitChar] := by
  unfold padded List.leftpad
  rw [Nat.toDigits_eq_if (by decide : 1 < 10)]
  split
  · next h =>
    rw [Nat.div_eq_of_lt h, Nat.mod_eq_of_lt h, Nat.toDigits_zero]
    -- A quotient of zero is one more zero.
    have hzeros : List.replicate width '0' = List.replicate (width - 1) '0' ++ ['0'] := by
      rw [← List.replicate_succ', Nat.sub_add_cancel hwidth]
    simp [hzeros]
  · rw [List.length_append, List.length_singleton, Nat.add_sub_add_right, List.append_assoc]

theorem length_padded {width n : Nat} (hwidth : 0 < width) (h : n < 10 ^ width) :
    (padded width n).length = width := by
  induction width, hwidth using Nat.le_induction generalizing n with
  | base => rw [padded_one h, List.length_singleton]
  | succ width hwidth ih =>
    have hdiv : n / 10 < 10 ^ width := Nat.div_lt_of_lt_mul (by rwa [← Nat.pow_succ'])
    rw [padded_succ hwidth, List.length_append, ih hdiv, List.length_singleton]

theorem digitChar_lt {d e : Nat} (h : d < e) (he : e < 10) : d.digitChar < e.digitChar := by
  have hall : ∀ e < 10, ∀ d < e, d.digitChar < e.digitChar := by decide
  exact hall e he d h

/-- Texts of one length are in the order of their first parts, and then of what follows. -/
theorem append_lt_append {α : Type*} [LinearOrder α] {left left' right right' : List α}
    (hlength : left.length = left'.length)
    (h : left < left' ∨ left = left' ∧ right < right') : left ++ right < left' ++ right' := by
  induction left generalizing left' with
  | nil =>
    obtain rfl := List.length_eq_zero_iff.mp hlength.symm
    rcases h with hlt | ⟨-, hlt⟩
    · exact absurd hlt (lt_irrefl _)
    · exact hlt
  | cons a left ih =>
    obtain ⟨b, left', rfl⟩ := List.exists_cons_of_ne_nil (List.ne_nil_of_length_eq_add_one hlength.symm)
    rw [List.cons_append, List.cons_append, List.cons_lt_cons_iff]
    rcases h with hlt | ⟨heq, hlt⟩
    · rcases List.cons_lt_cons_iff.mp hlt with hhead | ⟨rfl, htail⟩
      · exact .inl hhead
      · exact .inr ⟨rfl, ih (Nat.succ.inj hlength) (.inl htail)⟩
    · obtain ⟨rfl, rfl⟩ := List.cons.inj heq
      exact .inr ⟨rfl, ih rfl (.inr ⟨rfl, hlt⟩)⟩

theorem padded_lt {width n m : Nat} (hwidth : 0 < width) (h : n < m) (hm : m < 10 ^ width) :
    padded width n < padded width m := by
  induction width, hwidth using Nat.le_induction generalizing n m with
  | base =>
    rw [padded_one hm, padded_one (h.trans hm), List.cons_lt_cons_iff]
    exact .inl (digitChar_lt h hm)
  | succ width hwidth ih =>
    have hdiv : m / 10 < 10 ^ width := Nat.div_lt_of_lt_mul (by rwa [← Nat.pow_succ'])
    have hle : n / 10 ≤ m / 10 := Nat.div_le_div_right h.le
    have hlength : (padded width (n / 10)).length = (padded width (m / 10)).length := by
      rw [length_padded hwidth hdiv, length_padded hwidth (hle.trans_lt hdiv)]
    rw [padded_succ hwidth, padded_succ hwidth]
    apply append_lt_append hlength
    rcases hle.lt_or_eq with hlt | heq
    · exact .inl (ih hlt hdiv)
    · refine .inr ⟨by rw [heq], ?_⟩
      rw [List.cons_lt_cons_iff]
      exact .inl (digitChar_lt (by omega) (Nat.mod_lt m (by decide)))

end Numerals
