import NsfwDetector.Effects.Run

/-!
# Runs that a script plays

A script says whose turn it is and what the environment chooses. Playing it computes the run, so
one concrete run is checked by evaluation.
-/

namespace Effects

section Play

variable {ι σ Op χ : Type} {Ans : Op → Type} {ε α : Type} [DecidableEq ι]

/-- What a call ends with, for a choice of the environment; `none` where it has no such choice. -/
abbrev Chooser (ι σ χ : Type) {Op : Type} (Ans : Op → Type) (ε : Type) :=
  ι → σ → (op : Op) → χ → Option (Outcome ε (Ans op) × σ)

/-- The chooser only takes choices that the behaviour has. -/
def Chooser.Within (choose : Chooser ι σ χ Ans ε) (does : Behaviour ι σ Ans ε) : Prop :=
  ∀ i s op x o s', choose i s op x = some (o, s') → does i s op o s'

inductive Turn (ι : Type) {Op : Type} (Ans : Op → Type) (ε α χ : Type)
  | start (i : ι) (p : Prog Ans ε α)
  | call (i : ι) (x : χ)
  | kill (i : ι)

def Turn.caller : Turn ι Ans ε α χ → ι
  | .start i _ | .call i _ | .kill i => i

/-- A script starts a caller with a program of its own. -/
def Turn.Legal (starts : ι → Prog Ans ε α → Prop) : Turn ι Ans ε α χ → Prop
  | .start i p => starts i p
  | _ => True

def Turn.play (choose : Chooser ι σ χ Ans ε) (c : Config ι σ Ans ε α) :
    Turn ι Ans ε α χ → Option (Label ι Ans ε × Config ι σ Ans ε α)
  | .start i p =>
    match c.threads i with
    | .ready => some (.start i, { c with threads := Function.update c.threads i (.running p) })
    | _ => none
  | .call i x =>
    match c.threads i with
    | .running (.call op k) =>
      (choose i c.state op x).map fun (o, s') =>
        (.call ⟨i, op, o⟩,
          { state := s'
            threads := Function.update c.threads i (.running (k o.seen))
            history := ⟨i, op, o⟩ :: c.history })
    | _ => none
  | .kill i =>
    match c.threads i with
    | .running (.call _ _) => some (.kill i, { c with threads := Function.update c.threads i .killed })
    | _ => none

def play (choose : Chooser ι σ χ Ans ε) (cond : StepCond ι σ Ans ε α)
    [∀ c l c', Decidable (cond c l c')] :
    List (Turn ι Ans ε α χ) → Config ι σ Ans ε α → Option (Config ι σ Ans ε α)
  | [], c => some c
  | t :: rest, c =>
    match t.play choose c with
    | some (l, c') => if cond c l c' then play choose cond rest c' else none
    | none => none

variable {starts : ι → Prog Ans ε α → Prop} {does : Behaviour ι σ Ans ε}
  {choose : Chooser ι σ χ Ans ε} {cond : StepCond ι σ Ans ε α}
  {c₀ c c' : Config ι σ Ans ε α}

theorem Turn.play_step (hchoose : choose.Within does) {t : Turn ι Ans ε α χ} {l : Label ι Ans ε}
    (hlegal : t.Legal starts) (h : t.play choose c = some (l, c')) : Step starts does c l c' := by
  cases t with
  | start i p =>
    simp only [Turn.play] at h
    split at h
    · next hready =>
      simp only [Option.some.injEq, Prod.mk.injEq] at h
      obtain ⟨rfl, rfl⟩ := h
      exact .start hready hlegal
    · cases h
  | call i x =>
    simp only [Turn.play] at h
    split at h
    · next op k hrun =>
      obtain ⟨⟨o, s'⟩, hchosen, heq⟩ := Option.map_eq_some_iff.mp h
      simp only [Prod.mk.injEq] at heq
      obtain ⟨rfl, rfl⟩ := heq
      exact .call hrun (hchoose i c.state op x o s' hchosen)
    · cases h
  | kill i =>
    simp only [Turn.play] at h
    split at h
    · next op k hrun =>
      simp only [Option.some.injEq, Prod.mk.injEq] at h
      obtain ⟨rfl, rfl⟩ := h
      exact .kill hrun
    · cases h

theorem Turn.play_other {t : Turn ι Ans ε α χ} {l : Label ι Ans ε} {i : ι}
    (h : t.play choose c = some (l, c')) (hi : t.caller ≠ i) : c'.threads i = c.threads i := by
  cases t with
  | start j p =>
    simp only [Turn.play] at h
    split at h
    · obtain ⟨-, rfl⟩ := Prod.mk.inj (Option.some.inj h)
      exact Function.update_of_ne (Ne.symm hi) ..
    · cases h
  | call j x =>
    simp only [Turn.play] at h
    split at h
    · obtain ⟨⟨o, s'⟩, -, heq⟩ := Option.map_eq_some_iff.mp h
      obtain ⟨-, rfl⟩ := Prod.mk.inj heq
      exact Function.update_of_ne (Ne.symm hi) ..
    · cases h
  | kill j =>
    simp only [Turn.play] at h
    split at h
    · obtain ⟨-, rfl⟩ := Prod.mk.inj (Option.some.inj h)
      exact Function.update_of_ne (Ne.symm hi) ..
    · cases h

variable [∀ c l c', Decidable (cond c l c')]

theorem play_other {script : List (Turn ι Ans ε α χ)} {i : ι} (h : play choose cond script c = some c')
    (hi : ∀ t ∈ script, t.caller ≠ i) : c'.threads i = c.threads i := by
  induction script generalizing c with
  | nil =>
    simp only [play, Option.some.injEq] at h
    rw [h]
  | cons t rest ih =>
    simp only [play] at h
    split at h
    · next l c₁ hturn =>
      split at h
      · rw [ih h fun u hu => hi u (List.mem_cons_of_mem _ hu),
          Turn.play_other hturn (hi t List.mem_cons_self)]
      · cases h
    · cases h

/-- A script that plays through is a run. -/
theorem play_run (hchoose : choose.Within does) {script : List (Turn ι Ans ε α χ)}
    (hlegal : ∀ t ∈ script, t.Legal starts) (h : play choose cond script c = some c')
    (hrun : RunVia starts does cond c₀ c) : RunVia starts does cond c₀ c' := by
  induction script generalizing c with
  | nil =>
    simp only [play, Option.some.injEq] at h
    exact h ▸ hrun
  | cons t rest ih =>
    simp only [play] at h
    split at h
    · next l c₁ hturn =>
      split at h
      · next hcond =>
        have hstep := Turn.play_step hchoose (hlegal t List.mem_cons_self) hturn
        exact ih (fun u hu => hlegal u (List.mem_cons_of_mem _ hu)) h (.step hrun hstep hcond)
      · cases h
    · cases h

/-- A played run ends in a configuration of which `p` holds. -/
theorem exists_of_play (hchoose : choose.Within does) {script : List (Turn ι Ans ε α χ)}
    (hlegal : ∀ t ∈ script, t.Legal starts) {p : Config ι σ Ans ε α → Bool}
    (h : (play choose cond script c).any p = true) : ∃ c', RunVia starts does cond c c' ∧ p c' = true := by
  obtain ⟨c', hplay, hp⟩ := (Option.any_eq_true _ _).mp h
  exact ⟨c', play_run hchoose hlegal hplay .init, hp⟩

end Play

end Effects
