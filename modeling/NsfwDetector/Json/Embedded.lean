import NsfwDetector.Json.RoundTrip

/-!
# A document inside other text

Where no bracket stands before a document, nothing that starts before it can be read up to the end
of the text. A string that opens before the document closes at its first quote.
-/

namespace Json

abbrev OpenBracket (c : Char) : Prop := c = '{' ∨ c = '['

/-- What is read stops at a character that it cannot take. -/
theorem Passes.stops {p : Char → Prop} {text rest before after : List Char} {c : Char}
    (h : Passes p text rest) (htext : text = before ++ c :: after) (hc : ¬ p c) :
    ∃ before', before' <:+ before ∧ rest = before' ++ c :: after := by
  obtain ⟨read, hread, rfl⟩ := h
  rcases List.append_eq_append_iff.mp htext with ⟨middle, hbefore, hrest⟩ | ⟨middle, hread', hrest⟩
  · exact ⟨middle, ⟨read, hbefore.symm⟩, hrest⟩
  · cases middle with
    | nil => exact ⟨[], List.nil_suffix, hrest.symm⟩
    | cons c' middle =>
      obtain ⟨rfl, -⟩ := List.cons.inj hrest
      exact absurd (hread c (by simp [hread'])) hc

/-! ## Strings -/

theorem hexValue_not_bracket {c : Char} {n : Nat} (h : hexValue c = some n) : ¬ OpenBracket c := by
  rintro (rfl | rfl) <;> cases h

theorem hexUnit_not_bracket {a b c d : Char} {unit : Nat} (h : hexUnit a b c d = some unit) :
    ∀ x ∈ [a, b, c, d], ¬ OpenBracket x := by
  simp only [hexUnit, Option.bind_eq_bind, Option.bind_eq_some_iff] at h
  obtain ⟨_, ha, _, hb, _, hc, _, hd, -⟩ := h
  simp only [List.forall_mem_cons, List.not_mem_nil, false_imp_iff, implies_true, and_true]
  exact ⟨hexValue_not_bracket ha, hexValue_not_bracket hb, hexValue_not_bracket hc,
    hexValue_not_bracket hd⟩

theorem unescape_not_bracket {letter c : Char} (h : unescape letter = some c) : ¬ OpenBracket letter := by
  rintro (rfl | rfl) <;> cases h

/-- One step of `scanUnits`: the string closes here, or goes on behind a character or an escape. -/
theorem scanUnits_step {c : Char} {text rest : List Char} {units : List Nat}
    (h : scanUnits (c :: text) = some (units, rest)) :
    (c = '"' ∧ rest = text) ∨ ∃ text' units', Passes (¬ OpenBracket ·) text text' ∧
      scanUnits text' = some (units', rest) := by
  generalize htext : c :: text = whole at h
  induction whole using scanUnits.induct with
  | case1 => cases htext
  | case2 text' =>
    obtain ⟨rfl, rfl⟩ := List.cons.inj htext
    simp only [scanUnits, Option.some.injEq, Prod.mk.injEq] at h
    exact .inl ⟨rfl, h.2.symm⟩
  | case3 a b x d text' =>
    obtain ⟨rfl, rfl⟩ := List.cons.inj htext
    simp only [scanUnits, Option.bind_eq_bind, Option.bind_eq_some_iff] at h
    obtain ⟨unit, hunit, h⟩ := h
    obtain ⟨units', h, -⟩ := followed_eq_some.mp h
    have hdigits := hexUnit_not_bracket hunit
    refine .inr ⟨text', units', ⟨['u', a, b, x, d], ?_, rfl⟩, h⟩
    exact List.forall_mem_cons.mpr ⟨by decide, hdigits⟩
  | case4 letter text' hne =>
    obtain ⟨rfl, rfl⟩ := List.cons.inj htext
    rw [scanUnits] at h
    · simp only [Option.bind_eq_bind, Option.bind_eq_some_iff] at h
      obtain ⟨c, hletter, h⟩ := h
      obtain ⟨units', h, -⟩ := followed_eq_some.mp h
      exact .inr ⟨text', units', .cons (unescape_not_bracket hletter) (.refl _ _), h⟩
    · exact hne
  | case5 c' text' hquote hunicode hescape hcontrol =>
    rw [scanUnits, if_pos hcontrol] at h <;> first | cases h | assumption
  | case6 c' text' hquote hunicode hescape hcontrol =>
    obtain ⟨rfl, rfl⟩ := List.cons.inj htext
    rw [scanUnits, if_neg hcontrol] at h
    · obtain ⟨units', h, -⟩ := followed_eq_some.mp h
      exact .inr ⟨text, units', .refl _ _, h⟩
    all_goals assumption

theorem scanUnits_lead {lead tail rest : List Char} {units : List Nat}
    (hlead : ∀ c ∈ lead, OpenBracket c) (h : scanUnits (lead ++ '"' :: tail) = some (units, rest)) :
    rest = tail := by
  induction lead generalizing units with
  | nil =>
    simp only [List.nil_append, scanUnits, Option.some.injEq, Prod.mk.injEq] at h
    exact h.2.symm
  | cons c lead ih =>
    obtain ⟨hc, hlead⟩ := List.forall_mem_cons.mp hlead
    have hplain : c ≠ '"' ∧ c ≠ '\\' ∧ ¬ c.toNat < 0x20 := by
      rcases hc with rfl | rfl <;> decide
    rw [List.cons_append, scanUnits_plain hplain.1 hplain.2.1 hplain.2.2] at h
    obtain ⟨units', h, -⟩ := followed_eq_some.mp h
    exact ih hlead h

/-- A string that is open where brackets and a quote follow closes there, or before. -/
theorem scanUnits_closes {before lead tail rest : List Char} {units : List Nat} (hne : lead ≠ [])
    (hlead : ∀ c ∈ lead, OpenBracket c)
    (h : scanUnits (before ++ (lead ++ '"' :: tail)) = some (units, rest)) : tail <:+ rest := by
  obtain ⟨bracket, lead', rfl⟩ := List.exists_cons_of_ne_nil hne
  -- an escape takes no bracket, so it leaves a shorter text before the same document
  induction hlength : before.length using Nat.strong_induction_on generalizing before units with
  | _ n ih =>
    cases before with
    | nil => exact scanUnits_lead hlead h ▸ List.suffix_refl _
    | cons c before =>
      rcases scanUnits_step h with ⟨-, rfl⟩ | ⟨text', units', hpasses, h⟩
      · exact (List.suffix_cons '"' tail).trans ((List.suffix_append _ _).trans (List.suffix_append _ _))
      · obtain ⟨before', hbefore, rfl⟩ := hpasses.stops rfl
          (not_not_intro (hlead bracket (List.mem_cons_self ..)))
        have := hbefore.length_le
        exact ih before'.length (by rw [← hlength, List.length_cons]; omega) h rfl

/-! ## Documents -/

/-- The first thing in the document that is not a bracket is a key. -/
inductive Value.StartsWithKey : Value → Prop
  | dict (member : String × Value) (members : List (String × Value)) :
      StartsWithKey (.dict (member :: members))
  | list {item : Value} (items : List Value) (h : StartsWithKey item) :
      StartsWithKey (.list (item :: items))

theorem Value.StartsWithKey.isContainer {v : Value} (h : v.StartsWithKey) : v.isContainer = true := by
  cases h <;> rfl

theorem Value.StartsWithKey.text_eq {v : Value} (h : v.StartsWithKey) : ∃ lead tail,
    v.text = lead ++ '"' :: tail ∧ lead ≠ [] ∧ (∀ c ∈ lead, OpenBracket c) ∧
      ∃ c ∈ tail, isBlank c = false := by
  induction h with
  | dict member members =>
    obtain ⟨key, value⟩ := member
    have hmember : ∃ tail, membersText ((key, value) :: members) = '"' :: tail := by
      cases members <;> exact ⟨_, rfl⟩
    obtain ⟨tail, htail⟩ := hmember
    refine ⟨['{'], tail ++ ['}'], ?_, by simp, by simp [OpenBracket], '}', by simp, by decide⟩
    rw [Value.text, htail]
    rfl
  | @list item items h ih =>
    obtain ⟨lead, tail, htext, hne, hlead, c, hc, hblank⟩ := ih
    have hitems : ∃ more, itemsText (item :: items) = item.text ++ more := by
      cases items with
      | nil => exact ⟨[], (List.append_nil _).symm⟩
      | cons item' items => exact ⟨_, rfl⟩
    obtain ⟨more, hmore⟩ := hitems
    refine ⟨'[' :: lead, tail ++ (more ++ [']']), ?_, by simp, ?_, c, List.mem_append_left _ hc, hblank⟩
    · simp only [Value.text, hmore, htext, List.cons_append, List.append_assoc]
    · exact List.forall_mem_cons.mpr ⟨.inr rfl, hlead⟩

theorem skipBlanks_ne_nil {text : List Char} {c : Char} (hc : c ∈ text) (hblank : isBlank c = false) :
    skipBlanks text ≠ [] := by
  intro h
  have := List.dropWhile_eq_nil_iff.mp h c hc
  rw [hblank] at this
  cases this

theorem scanValue_before {before after rest : List Char} {v w : Value} (hv : v.StartsWithKey)
    (hne : before ≠ []) (hbefore : ∀ c ∈ before, ¬ OpenBracket c)
    (h : scanValue (before ++ (v.text ++ after)) = some (w, rest)) : skipBlanks rest ≠ [] := by
  obtain ⟨lead, tail, htext, hlead_ne, hlead, last, hlast, hblank⟩ := hv.text_eq
  obtain ⟨c, before, rfl⟩ := List.exists_cons_of_ne_nil hne
  have hc := hbefore c (List.mem_cons_self ..)
  by_cases hquote : c = '"'
  · rw [hquote, List.cons_append, scanValue, scanOnce] at h
    simp only [Option.map_eq_some_iff, Prod.mk.injEq, Prod.exists, scanString] at h
    obtain ⟨_, _, ⟨units, rest', h, -, rfl⟩, -, rfl⟩ := h
    rw [htext, List.append_assoc, List.cons_append] at h
    have hsuffix := scanUnits_closes hlead_ne hlead h
    exact skipBlanks_ne_nil (hsuffix.subset (List.mem_append_left _ hlast)) hblank
  · obtain ⟨bracket, lead', rfl⟩ := List.exists_cons_of_ne_nil hlead_ne
    have hbracket := hlead bracket (List.mem_cons_self ..)
    rw [List.cons_append, scanValue_plain hquote (fun heq => hc (.inr heq)) fun heq => hc (.inl heq)] at h
    have hword : ¬ WordChar bracket ∧ isBlank bracket = false := by
      rcases hbracket with rfl | rfl <;> decide
    rw [htext, List.cons_append, List.cons_append] at h
    obtain ⟨before', -, rfl⟩ := (scanAtom_consumes h).1.stops (List.cons_append ..).symm hword.1
    exact skipBlanks_ne_nil (List.mem_append_right _ (List.mem_cons_self ..)) hword.2

/-- Nothing but the document itself can be the whole of such a text. -/
theorem loads_around {before after : List Char} {v w : Value} (hv : v.StartsWithKey) (hwf : v.Wf)
    (hbefore : ∀ c ∈ before, ¬ OpenBracket c) (h : loads (before ++ (v.text ++ after)) = some w) :
    w = v := by
  obtain ⟨first, text, htext, hfirst⟩ := v.text_opens
  have hskip : skipBlanks (before ++ (v.text ++ after)) = skipBlanks before ++ (v.text ++ after) := by
    have hdoc : skipBlanks (v.text ++ after) = v.text ++ after := by
      rw [htext, List.cons_append]
      exact skipBlanks_cons hfirst.not_blank
    unfold skipBlanks at hdoc ⊢
    rw [List.dropWhile_append, hdoc]
    split
    · next hempty => rw [List.isEmpty_iff.mp hempty, List.nil_append]
    · rfl
  rw [loads, hskip] at h
  by_cases hempty : skipBlanks before = []
  · rw [hempty, List.nil_append, scanDocument_container hv.isContainer hwf] at h
    simp only [Option.ite_none_left_eq_some, Option.ite_none_right_eq_some, Option.some.injEq] at h
    exact h.2.2.symm
  · have hclean : ∀ c ∈ skipBlanks before, ¬ OpenBracket c :=
      fun c hc => hbefore c ((List.dropWhile_suffix _).subset hc)
    cases hscan : scanValue (skipBlanks before ++ (v.text ++ after)) with
    | none => simp [scanDocument, hscan] at h
    | some scanned =>
      obtain ⟨x, rest⟩ := scanned
      have hrest := scanValue_before hv hempty hclean hscan
      simp [scanDocument, hscan, hrest] at h

end Json
