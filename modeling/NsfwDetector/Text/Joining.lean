import NsfwDetector.Text.Search
import Mathlib.Data.List.Count

/-!
# Three lists with a divider between them

The parts can be read back if the divider is in none of them. At the outer ends of the whole it does
no harm, as long as the outer parts are not empty.
-/

namespace Joining

variable {α : Type*} {c : α} {left mid right left' mid' right' : List α}

def join (c : α) (left mid right : List α) : List α := left ++ c :: (mid ++ c :: right)

theorem join_cons (a : α) (left mid right : List α) :
    join c (a :: left) mid right = a :: join c left mid right := rfl

theorem join_concat (left mid right : List α) (a : α) :
    join c left mid (right ++ [a]) = join c left mid right ++ [a] := by
  simp [join]

/-- Two dividers are all that there are, so there are no more on the other side. -/
theorem join_inj [DecidableEq α] (hleft : c ∉ left) (hmid : c ∉ mid) (hright : c ∉ right)
    (h : join c left mid right = join c left' mid' right') :
    left = left' ∧ mid = mid' ∧ right = right' := by
  have hcount := congrArg (List.count c) h
  simp only [join, List.count_append, List.count_cons_self, List.count_eq_zero_of_not_mem hleft,
    List.count_eq_zero_of_not_mem hmid, List.count_eq_zero_of_not_mem hright] at hcount
  have hleft' : c ∉ left' := List.count_eq_zero.mp (by omega)
  have hmid' : c ∉ mid' := List.count_eq_zero.mp (by omega)
  obtain ⟨hl, hrest⟩ := Search.append_cons_inj hleft hleft' h
  exact ⟨hl, Search.append_cons_inj hmid hmid' hrest⟩

theorem join_inj_of_ne_nil [DecidableEq α] (hleft : c ∉ left.tail) (hmid : c ∉ mid)
    (hright : c ∉ right.dropLast) (hl : left ≠ []) (hr : right ≠ []) (hl' : left' ≠ [])
    (hr' : right' ≠ []) (h : join c left mid right = join c left' mid' right') :
    left = left' ∧ mid = mid' ∧ right = right' := by
  obtain ⟨a, left, rfl⟩ := List.exists_cons_of_ne_nil hl
  obtain ⟨a', left', rfl⟩ := List.exists_cons_of_ne_nil hl'
  obtain ⟨right, b, rfl⟩ := (List.eq_nil_or_concat' right).resolve_left hr
  obtain ⟨right', b', rfl⟩ := (List.eq_nil_or_concat' right').resolve_left hr'
  rw [List.tail_cons] at hleft
  rw [List.dropLast_concat] at hright
  rw [join_cons, join_cons, join_concat, join_concat] at h
  obtain ⟨rfl, houter⟩ := List.cons.inj h
  obtain ⟨hinner, rfl⟩ := List.append_singleton_inj.mp houter
  obtain ⟨rfl, rfl, rfl⟩ := join_inj hleft hmid hright hinner
  exact ⟨rfl, rfl, rfl⟩

/-- A divider in the wrong place can be taken for one of the two. -/
theorem join_inj_iff [DecidableEq α] (hl : left ≠ []) (hr : right ≠ []) :
    (∀ left' mid' right', left' ≠ [] → right' ≠ [] →
      join c left mid right = join c left' mid' right' → left = left' ∧ mid = mid' ∧ right = right') ↔
      c ∉ left.tail ∧ c ∉ mid ∧ c ∉ right.dropLast := by
  constructor
  · intro hinj
    refine ⟨fun hmem => ?_, fun hmem => ?_, fun hmem => ?_⟩
    · obtain ⟨a, left, rfl⟩ := List.exists_cons_of_ne_nil hl
      obtain ⟨before, after, heq⟩ := List.append_of_mem hmem
      rw [List.tail_cons] at heq
      subst heq
      have hsame : join c (a :: (before ++ c :: after)) mid right =
          join c (a :: before) (after ++ c :: mid) right := by simp [join]
      obtain ⟨hleft, -⟩ := hinj _ _ _ (List.cons_ne_nil _ _) hr hsame
      simp at hleft
    · obtain ⟨before, after, rfl⟩ := List.append_of_mem hmem
      have hsame : join c left (before ++ c :: after) right =
          join c (left ++ c :: before) after right := by simp [join]
      obtain ⟨hleft, -⟩ := hinj _ _ _ (by simp) hr hsame
      simp at hleft
    · obtain ⟨right, b, rfl⟩ := (List.eq_nil_or_concat' right).resolve_left hr
      rw [List.dropLast_concat] at hmem
      obtain ⟨before, after, rfl⟩ := List.append_of_mem hmem
      have hsame : join c left mid (before ++ c :: after ++ [b]) =
          join c left (mid ++ c :: before) (after ++ [b]) := by simp [join]
      obtain ⟨-, hmid, -⟩ := hinj _ _ _ hl (by simp) hsame
      simp at hmid
  · rintro ⟨hleft, hmid, hright⟩ left' mid' right' hl' hr' h
    exact join_inj_of_ne_nil hleft hmid hright hl hr hl' hr' h

end Joining
