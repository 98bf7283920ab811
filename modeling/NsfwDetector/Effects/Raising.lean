import Mathlib.Data.List.Forall2

/-! # Computations that may raise -/

namespace Raising

variable {α β ε : Type}

theorem bind_eq_ok {x : Except ε α} {f : α → Except ε β} {b : β} :
    (x >>= f) = .ok b ↔ ∃ a, x = .ok a ∧ f a = .ok b := by
  cases x <;> simp [bind, Except.bind]

theorem bind_eq_error {x : Except ε α} {f : α → Except ε β} {e : ε} :
    (x >>= f) = .error e ↔ x = .error e ∨ ∃ a, x = .ok a ∧ f a = .error e := by
  cases x <;> simp [bind, Except.bind]

variable {f : α → Except ε β} {as : List α} {bs : List β}

/-- A loop has the results of its rounds. -/
theorem mapM_eq_ok : as.mapM f = .ok bs ↔ List.Forall₂ (fun a b => f a = .ok b) as bs := by
  induction as generalizing bs with
  | nil =>
    rw [List.mapM_nil, List.forall₂_nil_left_iff]
    exact ⟨fun h => (Except.ok.inj h).symm, fun h => h ▸ rfl⟩
  | cons a as ih =>
    rw [List.mapM_cons, bind_eq_ok, List.forall₂_cons_left_iff]
    simp only [bind_eq_ok, ih]
    constructor
    · rintro ⟨b, hfirst, rest, hrest, hbs⟩
      exact ⟨b, rest, hfirst, hrest, (Except.ok.inj hbs).symm⟩
    · rintro ⟨b, rest, hfirst, hrest, rfl⟩
      exact ⟨b, hfirst, rest, hrest, rfl⟩

/-- It raises only if one of its rounds does. -/
theorem exists_mapM_eq_ok : (∃ bs, as.mapM f = .ok bs) ↔ ∀ a ∈ as, ∃ b, f a = .ok b := by
  simp only [mapM_eq_ok]
  induction as with
  | nil => exact iff_of_true ⟨[], .nil⟩ (List.forall_mem_nil _)
  | cons a as ih =>
    rw [List.forall_mem_cons, ← ih]
    constructor
    · rintro ⟨_, _ | ⟨hfirst, hrest⟩⟩
      exact ⟨⟨_, hfirst⟩, ⟨_, hrest⟩⟩
    · rintro ⟨⟨b, hfirst⟩, ⟨bs, hrest⟩⟩
      exact ⟨b :: bs, .cons hfirst hrest⟩

/-- A loop whose rounds all answer as `g` does maps `g`. -/
theorem mapM_eq_map {g : α → β} (h : ∀ a b, f a = .ok b → b = g a) (hbs : as.mapM f = .ok bs) :
    bs = as.map g := by
  have hrounds := (mapM_eq_ok.mp hbs).imp fun a b hb => (h a b hb).symm
  have hmap : List.Forall₂ Eq (as.map g) bs := List.forall₂_map_left_iff.mpr hrounds
  rw [List.forall₂_eq_eq_eq] at hmap
  exact hmap.symm

end Raising
