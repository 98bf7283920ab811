import Mathlib.Data.List.Infix
import Mathlib.Algebra.BigOperators.Group.List.Defs

/-!
# Where a marker stands first

An element that is not in a list divides what is around it. `dropInfix?` cuts a list at the first
occurrence of a marker.
-/

namespace Search

variable {α : Type*} {c : α} {marker before after left right : List α}

/-- An element that is not in the marker divides its occurrences. -/
theorem infix_append_cons (hc : c ∉ marker) :
    marker <:+: left ++ c :: right ↔ marker <:+: left ∨ marker <:+: right := by
  constructor
  · rintro ⟨pre, post, heq⟩
    obtain ⟨mid, hleft, -⟩ | ⟨mid, hpre, hmid⟩ := List.append_eq_append_iff.mp heq
    · exact .inl ⟨pre, mid, hleft.symm⟩
    · cases mid with
      | nil => exact .inl ⟨pre, [], by simpa using hpre⟩
      | cons d mid =>
        obtain ⟨rfl, rfl⟩ := List.cons.inj hmid
        -- The element ends up in the marker, unless the marker begins after it.
        obtain ⟨gap, hleft, hmarker⟩ | ⟨gap, hpre, hgap⟩ := List.append_eq_append_iff.mp hpre
        · exact absurd (by simp [hmarker]) hc
        · cases gap with
          | nil => exact absurd (by simp [← show c :: mid = marker from hgap]) hc
          | cons e gap =>
            obtain ⟨rfl, rfl⟩ := List.cons.inj hgap
            exact .inr ⟨gap, post, rfl⟩
  · rintro (h | h)
    · exact h.trans ⟨[], c :: right, rfl⟩
    · exact h.trans ⟨left ++ [c], [], by simp⟩

/-- Two lists with the element after the first part that has none. -/
theorem append_cons_inj {left' right' : List α} (hleft : c ∉ left) (hleft' : c ∉ left')
    (h : left ++ c :: right = left' ++ c :: right') : left = left' ∧ right = right' := by
  rcases List.append_eq_append_iff.mp h with ⟨gap, rfl, hgap⟩ | ⟨gap, rfl, hgap⟩
  · cases gap with
    | nil => simpa using hgap
    | cons d gap =>
      obtain ⟨rfl, -⟩ := List.cons.inj hgap
      exact absurd (List.mem_append_right _ List.mem_cons_self) hleft'
  · cases gap with
    | nil => simpa using hgap.symm
    | cons d gap =>
      obtain ⟨rfl, -⟩ := List.cons.inj hgap
      exact absurd (List.mem_append_right _ List.mem_cons_self) hleft

/-- The same from the other end. -/
theorem append_cons_inj_last {left' right' : List α} (hright : c ∉ right) (hright' : c ∉ right')
    (h : left ++ c :: right = left' ++ c :: right') : left = left' ∧ right = right' := by
  have hreverse : right.reverse ++ c :: left.reverse = right'.reverse ++ c :: left'.reverse := by
    simpa using congrArg List.reverse h
  obtain ⟨hr, hl⟩ := append_cons_inj (by simpa using hright) (by simpa using hright') hreverse
  exact ⟨List.reverse_inj.mp hl, List.reverse_inj.mp hr⟩

variable [DecidableEq α]

/-- The cut is at an occurrence if and only if none is complete before this one ends. -/
theorem dropInfix?_append (hne : marker ≠ []) :
    (before ++ marker ++ after).dropInfix? marker = some (before, after) ↔
      ¬ marker <:+: (before ++ marker).dropLast := by
  have hlast : before ++ marker ≠ [] := List.append_ne_nil_of_right_ne_nil _ hne
  have hpos : 0 < marker.length := List.length_pos_iff.mpr hne
  rw [List.dropInfix?_eq_some_iff]
  simp only [beq_iff_eq]
  constructor
  · rintro ⟨-, hfirst⟩ ⟨pre, post, heq⟩
    have hwhole : before ++ marker ++ after =
        pre ++ marker ++ (post ++ (before ++ marker).getLast hlast :: after) := by
      conv_lhs => rw [← List.dropLast_append_getLast hlast, ← heq]
      simp
    have hle := hfirst _ _ _ hwhole rfl
    have hlength := congrArg List.length heq
    simp only [List.length_append, List.length_dropLast] at hlength
    omega
  · refine fun hnone => ⟨⟨marker, rfl, rfl⟩, fun pre found post heq hfound => ?_⟩
    subst hfound
    by_contra hlt
    have hcut : (before ++ found).dropLast <+: before ++ found ++ after :=
      (List.dropLast_prefix _).trans (List.prefix_append _ _)
    have hprefix : pre ++ found <+: (before ++ found).dropLast :=
      List.prefix_of_prefix_length_le ⟨post, heq.symm⟩ hcut (by simp; omega)
    exact hnone ((List.suffix_append pre found).isInfix.trans hprefix.isInfix)

/-- A marker between two separators is found where it stands, if it is not in the text before. -/
theorem dropInfix?_line (hc : c ∉ marker) (hbefore : ¬ marker <:+: before) :
    (before ++ (c :: marker ++ [c]) ++ after).dropInfix? (c :: marker ++ [c]) = some (before, after) := by
  refine (dropInfix?_append (by simp)).mpr ?_
  rw [← List.append_assoc, List.dropLast_concat]
  rintro ⟨pre, post, heq⟩
  have hends : (pre ++ c :: marker) ++ c :: post = before ++ c :: marker := by simpa using heq
  obtain ⟨gap, hin, -⟩ | ⟨gap, hpre, hgap⟩ := List.append_eq_append_iff.mp hends
  · exact hbefore ⟨pre ++ [c], gap, by simp [hin]⟩
  · cases gap with
    | nil => exact hbefore ⟨pre ++ [c], [], by simpa using hpre⟩
    | cons d gap =>
      obtain ⟨-, hmarker⟩ := List.cons.inj hgap
      exact absurd (by simp [hmarker]) hc

end Search
