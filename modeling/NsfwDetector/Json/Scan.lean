import NsfwDetector.Json.Decode

/-!
# What the scanners take from a text

Each of them takes at least one character, so fuel for every character is enough. A number or a
word takes no bracket and no quote.
-/

namespace Json

/-- `rest` is what is left of `text` after characters that satisfy `p`. -/
def Passes (p : Char → Prop) (text rest : List Char) : Prop :=
  ∃ read, (∀ c ∈ read, p c) ∧ read ++ rest = text

/-- At least one character is gone. -/
def Consumes (p : Char → Prop) (text rest : List Char) : Prop :=
  Passes p text rest ∧ rest.length < text.length

section

variable {p q : Char → Prop} {text text' rest : List Char} {c : Char}

theorem Passes.refl (p : Char → Prop) (text : List Char) : Passes p text text :=
  ⟨[], fun _ h => absurd h List.not_mem_nil, rfl⟩

theorem Passes.cons (hc : p c) (h : Passes p text rest) : Passes p (c :: text) rest := by
  obtain ⟨read, hread, rfl⟩ := h
  exact ⟨c :: read, List.forall_mem_cons.mpr ⟨hc, hread⟩, rfl⟩

theorem Passes.trans (h : Passes p text text') (h' : Passes p text' rest) : Passes p text rest := by
  obtain ⟨read, hread, rfl⟩ := h
  obtain ⟨read', hread', rfl⟩ := h'
  exact ⟨read ++ read', List.forall_mem_append.mpr ⟨hread, hread'⟩, List.append_assoc ..⟩

theorem Passes.mono (hpq : ∀ c, p c → q c) (h : Passes p text rest) : Passes q text rest := by
  obtain ⟨read, hread, htext⟩ := h
  exact ⟨read, fun c hc => hpq c (hread c hc), htext⟩

theorem Passes.length_le (h : Passes p text rest) : rest.length ≤ text.length := by
  obtain ⟨read, -, rfl⟩ := h
  simp

theorem Consumes.cons (hc : p c) (h : Passes p text rest) : Consumes p (c :: text) rest :=
  ⟨h.cons hc, Nat.lt_succ_of_le h.length_le⟩

theorem Consumes.trans (h : Consumes p text text') (h' : Passes p text' rest) :
    Consumes p text rest :=
  ⟨h.1.trans h', Nat.lt_of_le_of_lt h'.length_le h.2⟩

theorem Consumes.after (h : Passes p text text') (h' : Consumes p text' rest) :
    Consumes p text rest :=
  ⟨h.trans h'.1, Nat.lt_of_lt_of_le h'.2 h.length_le⟩

theorem Consumes.mono (hpq : ∀ c, p c → q c) (h : Consumes p text rest) : Consumes q text rest :=
  ⟨h.1.mono hpq, h.2⟩

end

def AnyChar (_ : Char) : Prop := True

/-- A character of numbers and words. -/
abbrev WordChar (c : Char) : Prop := c.isAlphanum = true ∨ c = '+' ∨ c = '-' ∨ c = '.'

theorem passes_skipBlanks (text : List Char) : Passes AnyChar text (skipBlanks text) :=
  ⟨text.takeWhile isBlank, fun _ _ => trivial, List.takeWhile_append_dropWhile⟩

/-! ## Strings -/

theorem followed_eq_some {α β : Type} {a : α} {scanned : Option (List α × β)} {as : List α} {b : β} :
    followed a scanned = some (as, b) ↔ ∃ as', scanned = some (as', b) ∧ a :: as' = as := by
  cases scanned with
  | none => simp [followed]
  | some s =>
    obtain ⟨as', b'⟩ := s
    simp [followed, and_comm]

theorem scanUnits_consumes {text rest : List Char} {units : List Nat}
    (h : scanUnits text = some (units, rest)) : Consumes AnyChar text rest := by
  induction text using scanUnits.induct generalizing units with
  | case1 => cases h
  | case2 text =>
    simp only [scanUnits, Option.some.injEq, Prod.mk.injEq] at h
    rw [← h.2]
    exact .cons trivial (.refl _ _)
  | case3 a b c d text ih =>
    simp only [scanUnits, Option.bind_eq_bind, Option.bind_eq_some_iff] at h
    obtain ⟨unit, -, h⟩ := h
    obtain ⟨units', h, -⟩ := followed_eq_some.mp h
    have := (ih h).1
    exact .cons trivial (.cons trivial (.cons trivial (.cons trivial (.cons trivial (.cons trivial this)))))
  | case4 letter text hne ih =>
    rw [scanUnits] at h
    · simp only [Option.bind_eq_bind, Option.bind_eq_some_iff] at h
      obtain ⟨c, -, h⟩ := h
      obtain ⟨units', h, -⟩ := followed_eq_some.mp h
      exact .cons trivial (.cons trivial (ih h).1)
    · exact hne
  | case5 c text hquote hunicode hescape hcontrol =>
    rw [scanUnits, if_pos hcontrol] at h <;> first | cases h | assumption
  | case6 c text hquote hunicode hescape hcontrol ih =>
    rw [scanUnits, if_neg hcontrol] at h
    · obtain ⟨units', h, -⟩ := followed_eq_some.mp h
      exact .cons trivial (ih h).1
    all_goals assumption

theorem scanString_consumes {text rest : List Char} {s : String}
    (h : scanString text = some (s, rest)) : Consumes AnyChar text rest := by
  simp only [scanString, Option.map_eq_some_iff, Prod.mk.injEq, Prod.exists] at h
  obtain ⟨units, rest', h, -, rfl⟩ := h
  exact scanUnits_consumes h

/-! ## Numbers and words -/

theorem isDigit_wordChar {c : Char} (h : c.isDigit = true) : WordChar c := by
  simp [WordChar, Char.isAlphanum, h]

theorem passes_scanDigits (text : List Char) : Passes WordChar text (scanDigits text).2 :=
  ⟨(scanDigits text).1, fun c hc => isDigit_wordChar (scanDigits_digits text c hc),
    List.takeWhile_append_dropWhile⟩

theorem passes_scanMinus (text : List Char) : Passes WordChar text (scanMinus text).2 := by
  unfold scanMinus
  split
  · exact .cons (by decide) (.refl _ _)
  · exact .refl _ _

theorem scanWhole_consumes {text rest : List Char} {n : Nat} (h : scanWhole text = some (n, rest)) :
    Consumes WordChar text rest := by
  unfold scanWhole at h
  split at h
  · simp only [Option.some.injEq, Prod.mk.injEq] at h
    rw [← h.2]
    exact .cons (by decide) (.refl _ _)
  · simp only [Option.ite_none_left_eq_some, Option.some.injEq, Prod.mk.injEq] at h
    obtain ⟨hne, -, rfl⟩ := h
    refine ⟨passes_scanDigits text, ?_⟩
    have hlength := congrArg List.length (List.takeWhile_append_dropWhile (p := Char.isDigit) (l := text))
    have hpos := List.length_pos_of_ne_nil hne
    rw [List.length_append] at hlength
    simp only [scanDigits] at hpos ⊢
    omega

theorem passes_scanFraction (text : List Char) : Passes WordChar text (scanFraction text).2 := by
  unfold scanFraction
  split
  · split
    · exact .refl _ _
    · exact .cons (by decide) (passes_scanDigits _)
  · exact .refl _ _

theorem passes_scanSign (text : List Char) : Passes WordChar text (scanSign text).2 := by
  unfold scanSign
  split
  · exact .cons (by decide) (.refl _ _)
  · exact .cons (by decide) (.refl _ _)
  · exact .refl _ _

theorem passes_scanExponent (text : List Char) : Passes WordChar text (scanExponent text).2 := by
  cases text with
  | nil => exact .refl _ _
  | cons marker text =>
    simp only [scanExponent]
    split
    · next h =>
      have hmarker : WordChar marker := by
        rcases h.1 with rfl | rfl <;> decide
      exact .cons hmarker ((passes_scanSign text).trans (passes_scanDigits _))
    · exact .refl _ _

theorem scanNumber_consumes {text rest : List Char} {v : Value}
    (h : scanNumber text = some (v, rest)) : Consumes WordChar text rest := by
  simp only [scanNumber, Option.bind_eq_bind, Option.bind_eq_some_iff, Prod.exists] at h
  obtain ⟨whole, text', hwhole, h⟩ := h
  have htail : rest = (scanExponent (scanFraction text').2).2 := by
    split at h <;> simp only [Option.pure_def, Option.some.injEq, Prod.mk.injEq] at h <;> exact h.2.symm
  rw [htail]
  exact .after (passes_scanMinus text) ((scanWhole_consumes hwhole).trans
    ((passes_scanFraction text').trans (passes_scanExponent _)))

theorem Constant.wordChar_text (c : Constant) : c.text ≠ [] ∧ ∀ x ∈ c.text, WordChar x := by
  have hchecked : c.text ≠ [] ∧ c.text.all (fun x => decide (WordChar x)) = true := by
    cases c with
    | null => decide
    | bool b => cases b <;> decide
    | nan => decide
    | infinity negative => cases negative <;> decide
  exact ⟨hchecked.1, fun x hx => of_decide_eq_true (List.all_eq_true.mp hchecked.2 x hx)⟩

theorem scanConstant_eq_some {text rest : List Char} {v : Value}
    (h : scanConstant text = some (v, rest)) : ∃ c : Constant, v = .constant c ∧ c.text ++ rest = text := by
  obtain ⟨c, -, h⟩ := List.exists_of_findSome?_eq_some h
  simp only [Option.ite_none_right_eq_some, Option.some.injEq, Prod.mk.injEq] at h
  obtain ⟨hstarts, rfl, rfl⟩ := h
  exact ⟨c, rfl, List.prefix_iff_eq_append.mp (List.isPrefixOf_iff_prefix.mp hstarts)⟩

theorem scanAtom_consumes {text rest : List Char} {v : Value} (h : scanAtom text = some (v, rest)) :
    Consumes WordChar text rest := by
  simp only [scanAtom, Option.or_eq_some_iff] at h
  rcases h with h | ⟨-, h⟩
  · obtain ⟨c, -, rfl⟩ := scanConstant_eq_some h
    obtain ⟨hne, hword⟩ := c.wordChar_text
    have := List.length_pos_of_ne_nil hne
    exact ⟨⟨c.text, hword, rfl⟩, by simp; omega⟩
  · exact scanNumber_consumes h

/-! ## Documents -/

section

variable {α : Type} {scanItem scanItem' : List Char → Option (α × List Char)} {close : Char}
  {text rest : List Char}

theorem scanItems_consumes (hitem : ∀ {a text rest}, scanItem text = some (a, rest) →
      Consumes AnyChar text rest) {fuel : Nat} {as : List α}
    (h : scanItems scanItem close fuel text = some (as, rest)) : Consumes AnyChar text rest := by
  induction fuel generalizing text as with
  | zero => cases h
  | succ fuel ih =>
    simp only [scanItems, Option.bind_eq_bind, Option.bind_eq_some_iff, Prod.exists] at h
    obtain ⟨a, text', ha, h⟩ := h
    refine (hitem ha).trans ((passes_skipBlanks text').trans ?_)
    cases hskip : skipBlanks text' with
    | nil => rw [hskip] at h; cases h
    | cons c text'' =>
      simp only [hskip] at h
      split at h
      · simp only [Option.some.injEq, Prod.mk.injEq] at h
        rw [← h.2]
        exact .cons trivial (.refl _ _)
      · split at h
        · obtain ⟨as', h, -⟩ := followed_eq_some.mp h
          exact .cons trivial ((passes_skipBlanks text'').trans (ih h).1)
        · cases h

theorem scanBlock_passes (hitem : ∀ {a text rest}, scanItem text = some (a, rest) →
      Consumes AnyChar text rest) {fuel : Nat} {as : List α}
    (h : scanBlock scanItem close fuel text = some (as, rest)) : Passes AnyChar text rest := by
  unfold scanBlock at h
  refine (passes_skipBlanks text).trans ?_
  split at h
  · simp only [Option.some.injEq, Prod.mk.injEq] at h
    rw [← h.2]
    cases skipBlanks text with
    | nil => exact .refl _ _
    | cons c text => exact .cons trivial (.refl _ _)
  · exact (scanItems_consumes hitem h).1

end

theorem scanMember_consumes {scanValue : List Char → Option (Value × List Char)}
    (hvalue : ∀ {v text rest}, scanValue text = some (v, rest) → Consumes AnyChar text rest)
    {member : String × Value} {text rest : List Char}
    (h : scanMember scanValue text = some (member, rest)) : Consumes AnyChar text rest := by
  unfold scanMember at h
  split at h
  · simp only [Option.bind_eq_bind, Option.bind_eq_some_iff, Prod.exists] at h
    obtain ⟨key, text', hkey, h⟩ := h
    refine .cons trivial ((scanString_consumes hkey).1.trans ((passes_skipBlanks text').trans ?_))
    split at h
    · simp only [Option.map_eq_some_iff, Prod.mk.injEq, Prod.exists] at h
      obtain ⟨v, rest', hv, -, rfl⟩ := h
      next hskip =>
        rw [hskip]
        exact .cons trivial ((passes_skipBlanks _).trans (hvalue hv).1)
    · cases h
  · cases h

theorem scanOnce_consumes {fuel : Nat} {text rest : List Char} {v : Value}
    (h : scanOnce fuel text = some (v, rest)) : Consumes AnyChar text rest := by
  induction fuel generalizing text rest v with
  | zero => cases h
  | succ fuel ih =>
    unfold scanOnce at h
    split at h
    · simp only [Option.map_eq_some_iff, Prod.mk.injEq, Prod.exists] at h
      obtain ⟨s, rest', h, -, rfl⟩ := h
      exact .cons trivial (scanString_consumes h).1
    · simp only [Option.map_eq_some_iff, Prod.mk.injEq, Prod.exists] at h
      obtain ⟨items, rest', h, -, rfl⟩ := h
      exact .cons trivial (scanBlock_passes ih h)
    · simp only [Option.map_eq_some_iff, Prod.mk.injEq, Prod.exists] at h
      obtain ⟨members, rest', h, -, rfl⟩ := h
      exact .cons trivial (scanBlock_passes (scanMember_consumes ih) h)
    · exact (scanAtom_consumes h).mono fun _ _ => trivial

theorem rawDecode_eq_some {s : List Char} {idx stop : Nat} {v : Value} :
    rawDecode s idx = some (v, stop) ↔
      ∃ rest, scanDocument (s.drop idx) = some (v, rest) ∧ s.length - rest.length = stop := by
  simp [rawDecode]

theorem scanDocument_consumes {text rest : List Char} {v : Value}
    (h : scanDocument text = some (v, rest)) : Consumes AnyChar text rest := by
  simp only [scanDocument, Option.map_eq_some_iff, Prod.mk.injEq, Prod.exists] at h
  obtain ⟨v', rest', h, -, rfl⟩ := h
  exact scanOnce_consumes h

/-- A document ends behind its start, and inside the text. -/
theorem rawDecode_bounds {s : List Char} {idx stop : Nat} {v : Value}
    (h : rawDecode s idx = some (v, stop)) : idx < stop ∧ stop ≤ s.length := by
  obtain ⟨rest, hscan, rfl⟩ := rawDecode_eq_some.mp h
  have := (scanDocument_consumes hscan).2
  rw [List.length_drop] at this
  omega

/-! ## Fuel -/

theorem scanItems_congr {α : Type} {scanItem scanItem' : List Char → Option (α × List Char)}
    {close : Char} (hitem : ∀ {a text rest}, scanItem text = some (a, rest) →
      Consumes AnyChar text rest) {fuel fuel' : Nat} {text : List Char} (hfuel : text.length < fuel)
    (hfuel' : text.length < fuel') (hsame : ∀ t, t.length ≤ text.length → scanItem t = scanItem' t) :
    scanItems scanItem close fuel text = scanItems scanItem' close fuel' text := by
  induction fuel generalizing fuel' text with
  | zero => omega
  | succ fuel ih =>
    obtain ⟨fuel', rfl⟩ := Nat.exists_eq_succ_of_ne_zero (Nat.ne_of_gt (Nat.zero_lt_of_lt hfuel'))
    simp only [scanItems, ← hsame text le_rfl]
    cases hscan : scanItem text with
    | none => rfl
    | some scanned =>
      obtain ⟨a, text'⟩ := scanned
      have hconsumes := (hitem hscan).2
      have hblanks := (passes_skipBlanks text').length_le
      simp only [Option.bind_eq_bind, Option.bind_some]
      cases hskip : skipBlanks text' with
      | nil => rfl
      | cons c text'' =>
        have hblanks' := (passes_skipBlanks text'').length_le
        rw [hskip, List.length_cons] at hblanks
        have hrest := @ih fuel' (skipBlanks text'') (by omega) (by omega) fun t ht =>
          hsame t (by omega)
        simp only [hrest]

theorem scanBlock_congr {α : Type} {scanItem scanItem' : List Char → Option (α × List Char)}
    {close : Char} (hitem : ∀ {a text rest}, scanItem text = some (a, rest) →
      Consumes AnyChar text rest) {fuel fuel' : Nat} {text : List Char} (hfuel : text.length < fuel)
    (hfuel' : text.length < fuel') (hsame : ∀ t, t.length ≤ text.length → scanItem t = scanItem' t) :
    scanBlock scanItem close fuel text = scanBlock scanItem' close fuel' text := by
  have hblanks := (passes_skipBlanks text).length_le
  have hitems : scanItems scanItem close fuel (skipBlanks text) =
      scanItems scanItem' close fuel' (skipBlanks text) :=
    scanItems_congr hitem (by omega) (by omega) fun t ht => hsame t (by omega)
  rw [scanBlock, scanBlock, hitems]

theorem scanMember_congr {scanValue scanValue' : List Char → Option (Value × List Char)}
    {text : List Char} (hsame : ∀ t, t.length ≤ text.length → scanValue t = scanValue' t) :
    scanMember scanValue text = scanMember scanValue' text := by
  unfold scanMember
  split
  · next text =>
    cases hkey : scanString text with
    | none => rfl
    | some scanned =>
      obtain ⟨key, text'⟩ := scanned
      have hconsumes := (scanString_consumes hkey).2
      have hblanks := (passes_skipBlanks text').length_le
      simp only [Option.bind_eq_bind, Option.bind_some]
      split
      · next text'' hskip =>
        have hblanks' := (passes_skipBlanks text'').length_le
        rw [hskip, List.length_cons] at hblanks
        rw [hsame (skipBlanks text'') (by rw [List.length_cons]; omega)]
      · rfl
  · rfl

/-- Fuel for every character of the text is enough. -/
theorem scanOnce_fuel {fuel fuel' : Nat} {text : List Char} (hfuel : text.length < fuel)
    (hfuel' : text.length < fuel') : scanOnce fuel text = scanOnce fuel' text := by
  induction fuel generalizing fuel' text with
  | zero => omega
  | succ fuel ih =>
    obtain ⟨fuel', rfl⟩ := Nat.exists_eq_succ_of_ne_zero (Nat.ne_of_gt (Nat.zero_lt_of_lt hfuel'))
    unfold scanOnce
    split
    · rfl
    · next text =>
      rw [List.length_cons] at hfuel hfuel'
      have hsame : ∀ t : List Char, t.length ≤ text.length → scanOnce fuel t = scanOnce fuel' t :=
        fun t ht => ih (by omega) (by omega)
      have hblock : scanBlock (scanOnce fuel) ']' fuel text = scanBlock (scanOnce fuel') ']' fuel' text :=
        scanBlock_congr scanOnce_consumes (by omega) (by omega) hsame
      rw [hblock]
    · next text =>
      rw [List.length_cons] at hfuel hfuel'
      have hsame : ∀ t : List Char, t.length ≤ text.length → scanOnce fuel t = scanOnce fuel' t :=
        fun t ht => ih (by omega) (by omega)
      have hblock : scanBlock (scanMember (scanOnce fuel)) '}' fuel text =
          scanBlock (scanMember (scanOnce fuel')) '}' fuel' text :=
        scanBlock_congr (scanMember_consumes scanOnce_consumes) (by omega) (by omega) fun t ht =>
          scanMember_congr fun t' ht' => hsame t' (ht'.trans ht)
      rw [hblock]
    · rfl

end Json
