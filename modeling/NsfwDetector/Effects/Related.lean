import NsfwDetector.Effects.Play

/-!
# Two runs side by side

Two programs are related if they make alike calls, and stay related after alike replies. Two runs
are paired if they take the same steps with the same outcomes. If alike calls keep two states
related, paired runs of related programs stay related to their end (`Paired.related`).
-/

namespace Effects

section

variable {Op : Type} {Ans : Op → Type} {ε α β γ δ : Type}

/-- Two values with `R`, or two exceptions with `E`. -/
inductive Both (E : ε → ε → Prop) (R : α → β → Prop) : Except ε α → Except ε β → Prop
  | ok {a : α} {b : β} (h : R a b) : Both E R (.ok a) (.ok b)
  | error {e e' : ε} (h : E e e') : Both E R (.error e) (.error e')

theorem Both.mono {E E' : ε → ε → Prop} {R R' : α → β → Prop} {r : Except ε α} {r' : Except ε β}
    (hE : ∀ e e', E e e' → E' e e') (hR : ∀ a b, R a b → R' a b) (h : Both E R r r') :
    Both E' R' r r' := by
  cases h with
  | ok h => exact .ok (hR _ _ h)
  | error h => exact .error (hE _ _ h)

/-- Which calls are alike, and which replies to them. -/
structure Likeness {Op : Type} (Ans : Op → Type) (ε : Type) where
  ops : Op → Op → Prop
  replies : (op op' : Op) → Except ε (Ans op) → Except ε (Ans op') → Prop

namespace Prog

inductive Related (L : Likeness Ans ε) (Q : Except ε α → Except ε β → Prop) :
    Prog Ans ε α → Prog Ans ε β → Prop
  | done {r : Except ε α} {r' : Except ε β} (h : Q r r') : Related L Q (.done r) (.done r')
  | call {op op' : Op} {k : Except ε (Ans op) → Prog Ans ε α} {k' : Except ε (Ans op') → Prog Ans ε β}
      (hop : L.ops op op') (hk : ∀ r r', L.replies op op' r r' → Related L Q (k r) (k' r')) :
      Related L Q (.call op k) (.call op' k')

namespace Related

variable {L : Likeness Ans ε} {E E' : ε → ε → Prop} {R : α → β → Prop} {S : γ → δ → Prop}
  {p : Prog Ans ε α} {p' : Prog Ans ε β}

theorem mono {Q Q' : Except ε α → Except ε β → Prop} (hQ : ∀ r r', Q r r' → Q' r r')
    (h : Related L Q p p') : Related L Q' p p' := by
  induction h with
  | done h => exact .done (hQ _ _ h)
  | call hop _ ih => exact .call hop ih

theorem pure {a : α} {b : β} (h : R a b) :
    Related L (Both E R) (Pure.pure a : Prog Ans ε α) (Pure.pure b : Prog Ans ε β) := .done (.ok h)

theorem throw {e e' : ε} (h : E e e') :
    Related L (Both E R) (MonadExcept.throw e : Prog Ans ε α) (MonadExcept.throw e' : Prog Ans ε β) :=
  .done (.error h)

theorem perform {op op' : Op} (hop : L.ops op op') :
    Related L (L.replies op op') (Prog.perform op : Prog Ans ε _) (Prog.perform op') :=
  .call hop fun _ _ h => .done h

theorem bind {f : α → Prog Ans ε γ} {f' : β → Prog Ans ε δ} (hp : Related L (Both E R) p p')
    (hf : ∀ a b, R a b → Related L (Both E S) (f a) (f' b)) :
    Related L (Both E S) (p >>= f) (p' >>= f') := by
  rw [bind_eq, bind_eq]
  induction hp with
  | done h =>
    cases h with
    | ok h => exact hf _ _ h
    | error h => exact .done (.error h)
  | call hop _ ih => exact .call hop ih

theorem tryCatch {handler : ε → Prog Ans ε α} {handler' : ε → Prog Ans ε β}
    (hp : Related L (Both E R) p p')
    (hh : ∀ e e', E e e' → Related L (Both E' R) (handler e) (handler' e')) :
    Related L (Both E' R) (MonadExcept.tryCatch p handler) (MonadExcept.tryCatch p' handler') := by
  rw [tryCatch_eq, tryCatch_eq]
  induction hp with
  | done h =>
    cases h with
    | ok h => exact .done (.ok h)
    | error h => exact hh _ _ h
  | call hop _ ih => exact .call hop ih

theorem tryFinally {final final' : Prog Ans ε Unit} (hp : Related L (Both E R) p p')
    (hfinal : Related L (Both E fun _ _ => True) final final') :
    Related L (Both E R) (p.tryFinally final) (p'.tryFinally final') := by
  induction hp with
  | done h => exact bind hfinal fun _ _ _ => .done h
  | call hop _ ih => exact .call hop ih

end Related

/-- A program whose calls are answered equally is related to itself. -/
theorem Within.related {L : Likeness Ans ε} {K : Op → Prop} {φ : α → Prop} {p : Prog Ans ε α}
    (hop : ∀ op, K op → L.ops op op) (hreply : ∀ op, K op → ∀ r r', L.replies op op r r' → r = r')
    (h : p.Within K φ) : Related L Eq p p := by
  induction h with
  | ok => exact .done rfl
  | error => exact .done rfl
  | @call op k hK _ ih =>
    refine .call (hop op hK) fun r r' hr => ?_
    obtain rfl := hreply op hK r r' hr
    exact ih r

end Prog

/-! ## Paired runs -/

variable {ι σ : Type} [DecidableEq ι]

inductive SameLabel (same : (op op' : Op) → Outcome ε (Ans op) → Outcome ε (Ans op') → Prop) :
    Label ι Ans ε → Label ι Ans ε → Prop
  | start (i : ι) : SameLabel same (.start i) (.start i)
  | call {i : ι} {op op' : Op} {o : Outcome ε (Ans op)} {o' : Outcome ε (Ans op')}
      (h : same op op' o o') : SameLabel same (.call ⟨i, op, o⟩) (.call ⟨i, op', o'⟩)
  | kill (i : ι) : SameLabel same (.kill i) (.kill i)

/-- Where a caller starts, it starts with `alike` programs. -/
def StartsAlike (alike : ι → Prog Ans ε α → Prog Ans ε α → Prop) (l : Label ι Ans ε)
    (c c' : Config ι σ Ans ε α) : Prop :=
  ∀ i p p', l = .start i → c.threads i = .running p → c'.threads i = .running p' → alike i p p'

/-- Two runs from `c₀` and `c₀'` to `c` and `c'` that take the same steps with the same outcomes. -/
inductive Paired (starts : ι → Prog Ans ε α → Prop) (does : Behaviour ι σ Ans ε)
    (alike : ι → Prog Ans ε α → Prog Ans ε α → Prop)
    (same : (op op' : Op) → Outcome ε (Ans op) → Outcome ε (Ans op') → Prop)
    (c₀ c₀' : Config ι σ Ans ε α) : Config ι σ Ans ε α → Config ι σ Ans ε α → Prop
  | init : Paired starts does alike same c₀ c₀' c₀ c₀'
  | step {c c' d d' : Config ι σ Ans ε α} {l l' : Label ι Ans ε}
      (h : Paired starts does alike same c₀ c₀' c c')
      (hs : Step starts does c l d) (hs' : Step starts does c' l' d')
      (hlabel : SameLabel same l l') (hstart : StartsAlike alike l d d') :
      Paired starts does alike same c₀ c₀' d d'

inductive RelatedThreads (L : Likeness Ans ε) (Q : Except ε α → Except ε α → Prop) :
    Thread Ans ε α → Thread Ans ε α → Prop
  | ready : RelatedThreads L Q .ready .ready
  | running {p p' : Prog Ans ε α} (h : p.Related L Q p') : RelatedThreads L Q (.running p) (.running p')
  | killed : RelatedThreads L Q .killed .killed

variable {starts : ι → Prog Ans ε α → Prop} {does : Behaviour ι σ Ans ε}
  {alike : ι → Prog Ans ε α → Prog Ans ε α → Prop}
  {same : (op op' : Op) → Outcome ε (Ans op) → Outcome ε (Ans op') → Prop}
  {c₀ c₀' c c' d d' : Config ι σ Ans ε α} {l l' : Label ι Ans ε}

/-- The states are related, and every caller is at related programs. -/
structure RelatedConfigs (L : Likeness Ans ε) (R : σ → σ → Prop)
    (Q : ι → Except ε α → Except ε α → Prop) (c c' : Config ι σ Ans ε α) : Prop where
  state : R c.state c'.state
  threads : ∀ i, RelatedThreads L (Q i) (c.threads i) (c'.threads i)

variable {L : Likeness Ans ε} {R : σ → σ → Prop} {Q : ι → Except ε α → Except ε α → Prop}

omit [DecidableEq ι] in
theorem relatedConfigs_initial {s s' : σ} (h : R s s') :
    RelatedConfigs L R Q (.initial s) (.initial s' : Config ι σ Ans ε α) := ⟨h, fun _ => .ready⟩

theorem related_update {threads threads' : ι → Thread Ans ε α} {t t' : Thread Ans ε α} {i : ι}
    (h : ∀ j, RelatedThreads L (Q j) (threads j) (threads' j)) (ht : RelatedThreads L (Q i) t t') :
    ∀ j, RelatedThreads L (Q j) (Function.update threads i t j) (Function.update threads' i t' j) := by
  intro j
  by_cases hj : j = i
  · subst hj
    rw [Function.update_self, Function.update_self]
    exact ht
  · rw [Function.update_of_ne hj, Function.update_of_ne hj]
    exact h j

/-- Alike calls with the same outcome keep the states related, and their callers see alike replies. -/
def KeepsRelated (L : Likeness Ans ε) (R : σ → σ → Prop) (does : Behaviour ι σ Ans ε)
    (same : (op op' : Op) → Outcome ε (Ans op) → Outcome ε (Ans op') → Prop) : Prop :=
  ∀ i s s' op op' o o' t t', R s s' → L.ops op op' → does i s op o t → does i s' op' o' t' →
    same op op' o o' → R t t' ∧ L.replies op op' o.seen o'.seen

theorem RelatedConfigs.step (hcall : KeepsRelated L R does same)
    (halike : ∀ i p p', alike i p p' → p.Related L (Q i) p') (h : RelatedConfigs L R Q c c')
    (hs : Step starts does c l d) (hs' : Step starts does c' l' d') (hlabel : SameLabel same l l')
    (hstart : StartsAlike alike l d d') : RelatedConfigs L R Q d d' := by
  obtain ⟨hstate, hthreads⟩ := h
  cases hlabel with
  | start i =>
    cases hs with
    | start _ _ =>
      cases hs' with
      | start _ _ =>
        refine ⟨hstate, related_update hthreads (.running (halike i _ _ (hstart i _ _ rfl ?_ ?_)))⟩
        · exact Function.update_self ..
        · exact Function.update_self ..
  | @call i op op' o o' hsame =>
    cases hs with
    | call hrun hdoes =>
      cases hs' with
      | call hrun' hdoes' =>
        have hthread := hthreads i
        rw [hrun, hrun'] at hthread
        cases hthread with
        | running hrelated =>
          cases hrelated with
          | call hop hk =>
            obtain ⟨hnext, hreply⟩ := hcall i _ _ op op' o o' _ _ hstate hop hdoes hdoes' hsame
            exact ⟨hnext, related_update hthreads (.running (hk _ _ hreply))⟩
  | kill i =>
    cases hs with
    | kill _ =>
      cases hs' with
      | kill _ => exact ⟨hstate, related_update hthreads .killed⟩

theorem Paired.related (hcall : KeepsRelated L R does same)
    (halike : ∀ i p p', alike i p p' → p.Related L (Q i) p') (hinit : RelatedConfigs L R Q c₀ c₀')
    (h : Paired starts does alike same c₀ c₀' c c') : RelatedConfigs L R Q c c' := by
  induction h with
  | init => exact hinit
  | step _ hs hs' hlabel hstart ih => exact ih.step hcall halike hs hs' hlabel hstart

/-! ## Scripts for two runs -/

section Play

variable {χ : Type} {choose : Chooser ι σ χ Ans ε}
  {agree : (op op' : Op) → Outcome ε (Ans op) → Outcome ε (Ans op') → Bool}

def labelsAgree (agree : (op op' : Op) → Outcome ε (Ans op) → Outcome ε (Ans op') → Bool) :
    Label ι Ans ε → Label ι Ans ε → Bool
  | .start i, .start j => i = j
  | .call e, .call e' => e.caller = e'.caller && agree e.op e'.op e.outcome e'.outcome
  | .kill i, .kill j => i = j
  | _, _ => false

theorem sameLabel_of_agree {l l' : Label ι Ans ε}
    (hagree : ∀ op op' o o', agree op op' o o' = true → same op op' o o')
    (h : labelsAgree agree l l' = true) : SameLabel same l l' := by
  cases l with
  | start i =>
    cases l' with
    | start j =>
      obtain rfl := of_decide_eq_true h
      exact .start i
    | call | kill => cases h
  | call e =>
    cases l' with
    | call e' =>
      obtain ⟨i, op, o⟩ := e
      obtain ⟨j, op', o'⟩ := e'
      obtain ⟨hcaller, ho⟩ := Bool.and_eq_true_iff.mp h
      obtain rfl := of_decide_eq_true hcaller
      exact .call (hagree op op' o o' ho)
    | start | kill => cases h
  | kill i =>
    cases l' with
    | kill j =>
      obtain rfl := of_decide_eq_true h
      exact .kill i
    | start | call => cases h

/-- Both runs take their turns, as long as the outcomes agree. -/
def playPair (choose : Chooser ι σ χ Ans ε)
    (agree : (op op' : Op) → Outcome ε (Ans op) → Outcome ε (Ans op') → Bool) :
    List (Turn ι Ans ε α χ × Turn ι Ans ε α χ) → Config ι σ Ans ε α → Config ι σ Ans ε α →
      Option (Config ι σ Ans ε α × Config ι σ Ans ε α)
  | [], c, c' => some (c, c')
  | (t, t') :: rest, c, c' =>
    match t.play choose c, t'.play choose c' with
    | some (l, d), some (l', d') =>
      if labelsAgree agree l l' then playPair choose agree rest d d' else none
    | _, _ => none

/-- The turns are of programs of their own, and a caller starts with alike programs. -/
def Turn.LegalPair (starts : ι → Prog Ans ε α → Prop) (alike : ι → Prog Ans ε α → Prog Ans ε α → Prop) :
    Turn ι Ans ε α χ × Turn ι Ans ε α χ → Prop
  | (.start i p, .start j p') => starts i p ∧ starts j p' ∧ alike i p p'
  | (.call _ _, .call _ _) => True
  | _ => False

omit [DecidableEq ι] in
theorem Turn.LegalPair.legal {t t' : Turn ι Ans ε α χ} (h : Turn.LegalPair starts alike (t, t')) :
    t.Legal starts ∧ t'.Legal starts := by
  cases t with
  | start i p =>
    cases t' with
    | start j p' => exact ⟨h.1, h.2.1⟩
    | call | kill => exact h.elim
  | call i x =>
    cases t' with
    | call j x' => exact ⟨trivial, trivial⟩
    | start | kill => exact h.elim
  | kill i => cases t' <;> exact h.elim

theorem Turn.play_start {t : Turn ι Ans ε α χ} {i : ι} {p : Prog Ans ε α}
    (h : t.play choose c = some (.start i, d)) (hp : d.threads i = .running p) : t = .start i p := by
  cases t with
  | start j q =>
    simp only [Turn.play] at h
    split at h
    · obtain ⟨hlabel, rfl⟩ := Prod.mk.inj (Option.some.inj h)
      cases hlabel
      simp only [Function.update_self, Thread.running.injEq] at hp
      rw [hp]
    · cases h
  | call j x =>
    simp only [Turn.play] at h
    split at h
    · obtain ⟨_, -, heq⟩ := Option.map_eq_some_iff.mp h
      cases (Prod.mk.inj heq).1
    · cases h
  | kill j =>
    simp only [Turn.play] at h
    split at h
    · cases (Prod.mk.inj (Option.some.inj h)).1
    · cases h

theorem playPair_paired (hchoose : choose.Within does)
    (hagree : ∀ op op' o o', agree op op' o o' = true → same op op' o o')
    {script : List (Turn ι Ans ε α χ × Turn ι Ans ε α χ)}
    (hlegal : ∀ t ∈ script, Turn.LegalPair starts alike t)
    (h : playPair choose agree script c c' = some (d, d'))
    (hrun : Paired starts does alike same c₀ c₀' c c') : Paired starts does alike same c₀ c₀' d d' := by
  induction script generalizing c c' with
  | nil =>
    obtain ⟨rfl, rfl⟩ := Prod.mk.inj (Option.some.inj h)
    exact hrun
  | cons turns rest ih =>
    obtain ⟨t, t'⟩ := turns
    simp only [playPair] at h
    split at h
    · next l e l' e' hturn hturn' =>
      split at h
      · next hlabels =>
        have hpair := hlegal (t, t') List.mem_cons_self
        have hlabel : SameLabel same l l' := sameLabel_of_agree hagree hlabels
        refine ih (fun u hu => hlegal u (List.mem_cons_of_mem _ hu)) h (.step hrun
          (Turn.play_step hchoose hpair.legal.1 hturn) (Turn.play_step hchoose hpair.legal.2 hturn')
          hlabel fun i p p' hl hp hp' => ?_)
        subst hl
        cases hlabel with
        | start =>
          rw [Turn.play_start hturn hp, Turn.play_start hturn' hp'] at hpair
          exact hpair.2.2
      · cases h
    · cases h

/-- Two runs that a script plays end in configurations of which `p` holds. -/
theorem exists_of_playPair (hchoose : choose.Within does)
    (hagree : ∀ op op' o o', agree op op' o o' = true → same op op' o o')
    {script : List (Turn ι Ans ε α χ × Turn ι Ans ε α χ)}
    (hlegal : ∀ t ∈ script, Turn.LegalPair starts alike t)
    {p : Config ι σ Ans ε α → Config ι σ Ans ε α → Bool}
    (h : (playPair choose agree script c c').any (fun d => p d.1 d.2) = true) :
    ∃ d d', Paired starts does alike same c c' d d' ∧ p d d' = true := by
  obtain ⟨⟨d, d'⟩, hplay, hp⟩ := (Option.any_eq_true _ _).mp h
  exact ⟨d, d', playPair_paired hchoose hagree hlegal hplay .init, hp⟩

end Play

end

end Effects
