import NsfwDetector.Json.Scan

/-!
# What is written is read back

The text of a document ends where it ends: after it may stand anything that does not continue a
number.
-/

namespace Json

/-! ## Strings -/

theorem hexValue_digitChar : ∀ d < 16, hexValue d.digitChar = some d := by decide

theorem hexUnit_hexDigits {unit : Nat} (h : unit < 0x10000) :
    hexUnit (unit / 0x1000 % 16).digitChar (unit / 0x100 % 16).digitChar
      (unit / 0x10 % 16).digitChar (unit % 16).digitChar = some unit := by
  have hlt (n : Nat) : n % 16 < 16 := Nat.mod_lt n (by decide)
  simp only [hexUnit, hexValue_digitChar _ (hlt _), Option.pure_def, Option.bind_eq_bind,
    Option.bind_some, Option.some.injEq]
  omega

/-- The units come first, then those of the text that follows. -/
def precededBy (units : List Nat) (scanned : Option (List Nat × List Char)) :
    Option (List Nat × List Char) :=
  scanned.map fun (units', rest) => (units ++ units', rest)

theorem scanUnits_escapeUnit {unit : Nat} (h : unit < 0x10000) (text : List Char) :
    scanUnits (escapeUnit unit ++ text) = precededBy [unit] (scanUnits text) := by
  simp only [escapeUnit, hexDigits, List.cons_append, List.nil_append, scanUnits,
    hexUnit_hexDigits h]
  rfl

theorem scanUnits_escapeUnits {units : List Nat} (h : ∀ unit ∈ units, unit < 0x10000)
    (text : List Char) :
    scanUnits (units.flatMap escapeUnit ++ text) = precededBy units (scanUnits text) := by
  induction units with
  | nil => cases hscan : scanUnits text <;> simp [precededBy, hscan]
  | cons unit units ih =>
    obtain ⟨hunit, hunits⟩ := List.forall_mem_cons.mp h
    rw [List.flatMap_cons, List.append_assoc, scanUnits_escapeUnit hunit, ih hunits]
    cases scanUnits text <;> rfl

theorem scanUnits_plain {c : Char} (hquote : c ≠ '"') (hescape : c ≠ '\\') (hcontrol : ¬ c.toNat < 0x20)
    (text : List Char) : scanUnits (c :: text) = followed c.toNat (scanUnits text) := by
  rw [scanUnits, if_neg hcontrol]
  · exact hquote
  · intro a b x d t hc
    exact absurd hc hescape
  · intro letter t hc
    exact absurd hc hescape

/-- No character is a surrogate. -/
theorem toNat_valid (c : Char) : c.toNat < 0xd800 ∨ 0xdfff < c.toNat ∧ c.toNat < 0x110000 := c.valid

theorem utf16_lt (c : Char) : ∀ unit ∈ utf16 c, unit < 0x10000 := by
  have hvalid := toNat_valid c
  unfold utf16
  split
  · simpa using by assumption
  · simp only [List.mem_cons, List.not_mem_nil, or_false, forall_eq_or_imp, forall_eq]
    omega

theorem scanUnits_short {short : Char × Char} (h : short ∈ shortEscapes) (text : List Char) :
    scanUnits ('\\' :: short.1 :: text) = followed short.2.toNat (scanUnits text) := by
  simp only [shortEscapes, List.mem_cons, List.not_mem_nil, or_false] at h
  rcases h with rfl | rfl | rfl | rfl | rfl | rfl | rfl <;> rfl

theorem utf16_of_lt {c : Char} (h : c.toNat < 0x10000) : utf16 c = [c.toNat] := if_pos h

theorem scanUnits_escapeChar (c : Char) (text : List Char) :
    scanUnits (escapeChar c ++ text) = precededBy (utf16 c) (scanUnits text) := by
  unfold escapeChar
  cases hfind : shortEscapes.find? (·.2 = c) with
  | some short =>
    have hmem := List.mem_of_find?_eq_some hfind
    have hc : short.2 = c := by simpa using List.find?_some hfind
    have hlt : ∀ short ∈ shortEscapes, short.2.toNat < 0x10000 := by decide
    rw [utf16_of_lt (hc ▸ hlt short hmem), ← hc]
    exact scanUnits_short hmem text
  | none =>
    have hshort : ∀ short ∈ shortEscapes, short.2 ≠ c := by simpa using hfind
    simp only
    split
    · next hprintable =>
      obtain ⟨hlow, hhigh⟩ : 0x20 ≤ c.toNat ∧ c.toNat ≤ 0x7e := hprintable
      rw [utf16_of_lt (by omega)]
      refine scanUnits_plain ?_ ?_ (by omega) text
      · exact fun h => hshort ('"', '"') (by decide) h.symm
      · exact fun h => hshort ('\\', '\\') (by decide) h.symm
    · exact scanUnits_escapeUnits (utf16_lt c) text

theorem scanUnits_escaped (cs rest : List Char) :
    scanUnits (cs.flatMap escapeChar ++ '"' :: rest) = some (cs.flatMap utf16, rest) := by
  induction cs with
  | nil => rfl
  | cons c cs ih =>
    rw [List.flatMap_cons, List.append_assoc, scanUnits_escapeChar, ih]
    rfl

/-! ### Surrogates -/

theorem surrogate_toNat (c : Char) :
    isHighSurrogate c.toNat = false ∧ isLowSurrogate c.toNat = false := by
  have hvalid := toNat_valid c
  simp only [isHighSurrogate, isLowSurrogate, Bool.and_eq_false_iff, decide_eq_false_iff_not]
  omega

theorem unitChar_toNat (c : Char) : unitChar c.toNat = c := by
  obtain ⟨hhigh, hlow⟩ := surrogate_toNat c
  simp [unitChar, hhigh, hlow, Char.ofNat_toNat]

theorem joinSurrogates_cons {unit : Nat} (h : isHighSurrogate unit = false) (units : List Nat) :
    joinSurrogates (unit :: units) = unitChar unit :: joinSurrogates units := by
  cases units with
  | nil => rfl
  | cons low units => simp [joinSurrogates, h]

theorem joinSurrogates_utf16 (c : Char) (units : List Nat) :
    joinSurrogates (utf16 c ++ units) = c :: joinSurrogates units := by
  unfold utf16
  split
  · rw [List.cons_append, List.nil_append, joinSurrogates_cons (surrogate_toNat c).1, unitChar_toNat]
  · next hlarge =>
    have hvalid := toNat_valid c
    have hhigh : isHighSurrogate (0xd800 + (c.toNat - 0x10000) / 0x400) = true := by
      simp only [isHighSurrogate, Bool.and_eq_true, decide_eq_true_eq]
      omega
    have hlow : isLowSurrogate (0xdc00 + (c.toNat - 0x10000) % 0x400) = true := by
      simp only [isLowSurrogate, Bool.and_eq_true, decide_eq_true_eq]
      omega
    have hjoin : 0x10000 + (0xd800 + (c.toNat - 0x10000) / 0x400 - 0xd800) * 0x400 +
        (0xdc00 + (c.toNat - 0x10000) % 0x400 - 0xdc00) = c.toNat := by omega
    simp only [List.cons_append, List.nil_append, joinSurrogates, hhigh, hlow, Bool.and_self,
      if_true, hjoin, Char.ofNat_toNat]

theorem joinSurrogates_flatMap (cs : List Char) : joinSurrogates (cs.flatMap utf16) = cs := by
  induction cs with
  | nil => rfl
  | cons c cs ih => rw [List.flatMap_cons, joinSurrogates_utf16, ih]

theorem scanString_quoted (s : String) (rest : List Char) :
    scanString (s.toList.flatMap escapeChar ++ '"' :: rest) = some (s, rest) := by
  simp [scanString, scanUnits_escaped, joinSurrogates_flatMap]

/-! ## Numbers and words -/

/-- Nothing that continues a number or a word. -/
def Ends (rest : List Char) : Prop := ∀ c ∈ rest.head?, ¬ WordChar c

theorem ends_cons {c : Char} {rest : List Char} (h : ¬ WordChar c) : Ends (c :: rest) := by
  intro c' hc'
  rw [List.head?_cons, Option.mem_some_iff] at hc'
  exact hc' ▸ h

def NoDigit (rest : List Char) : Prop := ∀ c ∈ rest.head?, ¬ c.isDigit = true

theorem Ends.noDigit {rest : List Char} (h : Ends rest) : NoDigit rest :=
  fun c hc hdigit => h c hc (isDigit_wordChar hdigit)

theorem scanDigits_append {digits rest : List Char} (hdigits : ∀ c ∈ digits, c.isDigit = true)
    (hrest : NoDigit rest) : scanDigits (digits ++ rest) = (digits, rest) := by
  have hnone : rest.takeWhile Char.isDigit = [] ∧ rest.dropWhile Char.isDigit = rest := by
    cases rest with
    | nil => exact ⟨rfl, rfl⟩
    | cons c rest =>
      have hc := hrest c rfl
      simp [hc]
  simp only [scanDigits, List.takeWhile_append_of_pos hdigits, List.dropWhile_append_of_pos hdigits,
    hnone, List.append_nil]

theorem isDigit_toDigits (n : Nat) : ∀ c ∈ Nat.toDigits 10 n, c.isDigit = true :=
  fun _ => Nat.isDigit_of_mem_toDigits (by decide) (by decide)

theorem head_toDigits {n : Nat} (h : 0 < n) : (Nat.toDigits 10 n).head? ≠ some '0' := by
  induction n using Nat.base_induction 10 (by decide) with
  | single m hm =>
    have hdigit : ∀ m < 10, 0 < m → [m.digitChar].head? ≠ some '0' := by decide
    rw [Nat.toDigits_of_lt_base hm]
    exact hdigit m hm h
  | digit m k hk hm ih =>
    rw [← Nat.toDigits_append_toDigits (by decide) hm hk, List.head?_append_of_ne_nil _ Nat.toDigits_ne_nil]
    exact ih hm

theorem scanWhole_toDigits (n : Nat) {rest : List Char} (hrest : NoDigit rest) :
    scanWhole (Nat.toDigits 10 n ++ rest) = some (n, rest) := by
  have hscan := scanDigits_append (isDigit_toDigits n) hrest
  rcases Nat.eq_zero_or_pos n with rfl | hn
  · rfl
  · have hzero : ∀ t, Nat.toDigits 10 n ++ rest ≠ '0' :: t := by
      intro t h
      apply head_toDigits hn
      rw [← List.head?_append_of_ne_nil _ Nat.toDigits_ne_nil, h, List.head?_cons]
    rw [scanWhole]
    · simp only [hscan, Nat.toDigits_ne_nil, if_false, Nat.ofDigitChars_ten_toDigits]
    · exact hzero

theorem scanMinus_minus (negative : Bool) {digits rest : List Char} (hne : digits ≠ [])
    (hdigits : ∀ c ∈ digits, c.isDigit = true) :
    scanMinus (minus negative ++ (digits ++ rest)) = (negative, digits ++ rest) := by
  cases negative with
  | true => rfl
  | false =>
    cases digits with
    | nil => exact absurd rfl hne
    | cons c digits =>
      have hc : c ≠ '-' := by
        rintro rfl
        exact absurd (hdigits '-' (List.mem_cons_self ..)) (by decide)
      simp only [minus, Bool.false_eq_true, if_false, List.nil_append, List.cons_append]
      rw [scanMinus]
      intro t h
      exact hc (List.cons.inj h).1

theorem noDigit_cons {c : Char} {rest : List Char} (h : c.isDigit = false) : NoDigit (c :: rest) := by
  intro c' hc'
  rw [List.head?_cons, Option.mem_some_iff] at hc'
  simp [← hc', h]

theorem Exponent.noDigit_text (e : Exponent) (rest : List Char) : NoDigit (e.text ++ rest) := by
  apply noDigit_cons
  rcases e.marker_ok with h | h <;> rw [h] <;> decide

theorem noDigit_exponentText (e : Option Exponent) {rest : List Char} (hrest : Ends rest) :
    NoDigit (exponentText e ++ rest) := by
  cases e with
  | none => exact hrest.noDigit
  | some e => exact e.noDigit_text rest

theorem noDigit_fractionText (fraction : List Char) (e : Option Exponent) {rest : List Char}
    (hrest : Ends rest) : NoDigit (fractionText fraction ++ (exponentText e ++ rest)) := by
  unfold fractionText
  split
  · exact noDigit_exponentText e hrest
  · exact noDigit_cons (by decide)

theorem exponentText_head (e : Option Exponent) {rest : List Char} (hrest : Ends rest) :
    ∀ t, exponentText e ++ rest ≠ '.' :: t := by
  intro t h
  cases e with
  | none =>
    rw [exponentText, List.nil_append] at h
    exact hrest '.' (by simp [h]) (by decide)
  | some e =>
    have hmarker : e.marker = '.' := (List.cons.inj h).1
    rcases e.marker_ok with hm | hm <;> rw [hm] at hmarker <;> exact absurd hmarker (by decide)

theorem scanFraction_append {fraction : List Char} (hfraction : ∀ c ∈ fraction, c.isDigit = true)
    (e : Option Exponent) {rest : List Char} (hrest : Ends rest) :
    scanFraction (fractionText fraction ++ (exponentText e ++ rest)) =
      (fraction, exponentText e ++ rest) := by
  unfold fractionText
  split
  · next hnil =>
    rw [List.nil_append, scanFraction, hnil]
    exact exponentText_head e hrest
  · next hne =>
    have hscan := scanDigits_append hfraction (noDigit_exponentText e hrest)
    simp only [List.cons_append, scanFraction, hscan, hne, if_false]

theorem scanSign_append {e : Exponent} (rest : List Char) :
    scanSign (e.sign ++ (e.digits ++ rest)) = (e.sign, e.digits ++ rest) := by
  rcases e.sign_ok with h | h | h
  · rw [h]
    cases hdigits : e.digits with
    | nil => exact absurd hdigits e.digits_ne
    | cons c digits =>
      have hc : c.isDigit = true := e.digits_ok c (by rw [hdigits]; exact List.mem_cons_self ..)
      rw [List.nil_append, List.cons_append, scanSign]
      · rintro t ht
        rw [(List.cons.inj ht).1] at hc
        exact absurd hc (by decide)
      · rintro t ht
        rw [(List.cons.inj ht).1] at hc
        exact absurd hc (by decide)
  · rw [h]
    rfl
  · rw [h]
    rfl

theorem scanExponent_append (e : Option Exponent) {rest : List Char} (hrest : Ends rest) :
    scanExponent (exponentText e ++ rest) = (e, rest) := by
  cases e with
  | none =>
    cases rest with
    | nil => rfl
    | cons c rest =>
      have hc : ¬ WordChar c := hrest c rfl
      have hmarker : ¬ (c = 'e' ∨ c = 'E') := by
        rintro (rfl | rfl) <;> exact hc (by decide)
      simp [exponentText, scanExponent, hmarker]
  | some e =>
    have hscan := scanDigits_append e.digits_ok hrest.noDigit
    have hsign := @scanSign_append e rest
    simp only [exponentText, Exponent.text, List.cons_append, List.append_assoc, scanExponent, hsign,
      hscan, e.digits_ne, e.marker_ok, ne_eq, not_false_eq_true, and_self, dite_true]

theorem scanNumber_append (negative : Bool) (whole : Nat) {fraction : List Char}
    (hfraction : ∀ c ∈ fraction, c.isDigit = true) (e : Option Exponent) {rest : List Char}
    (hrest : Ends rest) :
    scanNumber (minus negative ++ (Nat.toDigits 10 whole ++ (fractionText fraction ++
        (exponentText e ++ rest)))) =
      if h : fraction ≠ [] ∨ e ≠ none then
        some (.float ⟨negative, whole, fraction, e, hfraction, h⟩, rest)
      else some (.int (if negative then -whole else whole), rest) := by
  have hminus := @scanMinus_minus negative _ (fractionText fraction ++ (exponentText e ++ rest))
    Nat.toDigits_ne_nil (isDigit_toDigits whole)
  have hwhole := scanWhole_toDigits whole (noDigit_fractionText fraction e hrest)
  have hfrac := scanFraction_append hfraction e hrest
  have hexp := scanExponent_append e hrest
  simp only [scanNumber, hminus, hwhole, hfrac, hexp, Option.bind_eq_bind, Option.bind_some,
    Option.pure_def]

theorem scanNumber_float (x : FloatLiteral) {rest : List Char} (hrest : Ends rest) :
    scanNumber (x.text ++ rest) = some (.float x, rest) := by
  have h := scanNumber_append x.negative x.whole x.fraction_ok x.exponent hrest
  rw [dif_pos x.not_integer] at h
  simpa only [FloatLiteral.text, List.append_assoc] using h

theorem scanNumber_int (n : Int) {rest : List Char} (hrest : Ends rest) :
    scanNumber (minus (n < 0) ++ (Nat.toDigits 10 n.natAbs ++ rest)) = some (.int n, rest) := by
  have h := @scanNumber_append (n < 0) n.natAbs [] (fun _ h => absurd h List.not_mem_nil) none _ hrest
  have hn : (if (decide (n < 0)) = true then -(n.natAbs : Int) else n.natAbs) = n := by
    simp only [decide_eq_true_eq]
    omega
  rw [dif_neg (by simp), hn] at h
  exact h

theorem scanConstant_text (c : Constant) (rest : List Char) :
    scanConstant (c.text ++ rest) = some (.constant c, rest) := by
  cases c with
  | null => rfl
  | bool b => cases b <;> rfl
  | nan => rfl
  | infinity negative => cases negative <;> rfl

/-- A number is not the beginning of a word. -/
theorem scanConstant_number (negative : Bool) (whole : Nat) (rest : List Char) :
    scanConstant (minus negative ++ (Nat.toDigits 10 whole ++ rest)) = none := by
  cases hdigits : Nat.toDigits 10 whole with
  | nil => exact absurd hdigits Nat.toDigits_ne_nil
  | cons c digits =>
    have hc : c.isDigit = true := isDigit_toDigits whole c (by rw [hdigits]; exact List.mem_cons_self ..)
    have hne : ∀ letter : Char, letter.isDigit = false → letter ≠ c := by
      rintro letter hletter rfl
      rw [hc] at hletter
      exact absurd hletter (by decide)
    cases negative <;>
      simp [scanConstant, constants, Constant.text, minus, hne 'n' rfl, hne 't' rfl, hne 'f' rfl,
        hne 'N' rfl, hne 'I' rfl, hne '-' rfl]

/-! ## Documents -/

theorem scanValue_list (text : List Char) :
    scanValue ('[' :: text) = (scanBlock scanValue ']' (text.length + 1) text).map
      fun (items, rest) => (.list items, rest) := by
  have hblock : scanBlock (scanOnce (text.length + 1)) ']' (text.length + 1) text =
      scanBlock scanValue ']' (text.length + 1) text :=
    scanBlock_congr scanOnce_consumes (by omega) (by omega) fun t ht =>
      scanOnce_fuel (by omega) (by omega)
  rw [← hblock]
  rfl

theorem scanValue_dict (text : List Char) :
    scanValue ('{' :: text) = (scanBlock (scanMember scanValue) '}' (text.length + 1) text).map
      fun (members, rest) => (.dict members, rest) := by
  have hblock : scanBlock (scanMember (scanOnce (text.length + 1))) '}' (text.length + 1) text =
      scanBlock (scanMember scanValue) '}' (text.length + 1) text :=
    scanBlock_congr (scanMember_consumes scanOnce_consumes) (by omega) (by omega) fun t ht =>
      scanMember_congr fun t' ht' => scanOnce_fuel (by omega) (by omega)
  rw [← hblock]
  rfl

theorem scanValue_plain {c : Char} {text : List Char} (hquote : c ≠ '"') (hlist : c ≠ '[')
    (hdict : c ≠ '{') : scanValue (c :: text) = scanAtom (c :: text) := by
  unfold scanValue scanOnce
  split
  · next h => exact absurd (List.cons.inj h).1 hquote
  · next h => exact absurd (List.cons.inj h).1 hlist
  · next h => exact absurd (List.cons.inj h).1 hdict
  · rfl

theorem scanValue_atom {text rest : List Char} {v : Value} (h : scanAtom text = some (v, rest)) :
    scanValue text = some (v, rest) := by
  obtain ⟨⟨read, hread, rfl⟩, hlength⟩ := scanAtom_consumes h
  cases read with
  | nil => simp at hlength
  | cons c read =>
    have hc := hread c (List.mem_cons_self ..)
    rw [List.cons_append, scanValue_plain]
    · exact h
    all_goals exact fun heq => absurd hc (heq ▸ by decide)

def Opening (c : Char) : Prop := WordChar c ∨ c = '"' ∨ c = '[' ∨ c = '{'

theorem Opening.not_blank {c : Char} (h : Opening c) : isBlank c = false := by
  rw [← Bool.not_eq_true]
  intro hblank
  simp only [isBlank, Bool.or_eq_true, decide_eq_true_eq] at hblank
  rcases hblank with ((rfl | rfl) | rfl) | rfl <;> revert h <;> unfold Opening <;> decide

def Closing (c : Char) : Prop := c = ']' ∨ c = '}'

theorem Closing.facts {c : Char} (h : Closing c) :
    ¬ WordChar c ∧ isBlank c = false ∧ ¬ Opening c ∧ ',' ≠ c := by
  rcases h with rfl | rfl <;> unfold Opening <;> decide

theorem skipBlanks_cons {c : Char} {text : List Char} (h : isBlank c = false) :
    skipBlanks (c :: text) = c :: text := by
  simp [skipBlanks, h]

section

variable {α : Type} {scanItem : List Char → Option (α × List Char)} {itemText : α → List Char}
  {close : Char}

def joined (itemText : α → List Char) (items : List α) : List Char :=
  [',', ' '].intercalate (items.map itemText)

@[simp] theorem joined_singleton (item : α) : joined itemText [item] = itemText item := by
  simp [joined]

theorem joined_cons {item : α} {items : List α} (h : items ≠ []) :
    joined itemText (item :: items) = itemText item ++ ',' :: ' ' :: joined itemText items := by
  cases items with
  | nil => exact absurd rfl h
  | cons item' items => simp [joined, List.intercalate]

theorem joined_opens (hopens : ∀ item, ∃ c text, itemText item = c :: text ∧ Opening c)
    {items : List α} (hne : items ≠ []) : ∃ c text, joined itemText items = c :: text ∧ Opening c := by
  cases items with
  | nil => exact absurd rfl hne
  | cons item items =>
    obtain ⟨c, text, htext, hc⟩ := hopens item
    by_cases h : items = []
    · exact ⟨c, text, by rw [h, joined_singleton, htext], hc⟩
    · exact ⟨c, _, by rw [joined_cons h, htext, List.cons_append], hc⟩

theorem length_le_joined (hopens : ∀ item, ∃ c text, itemText item = c :: text ∧ Opening c)
    (items : List α) : items.length ≤ (joined itemText items).length := by
  induction items with
  | nil => exact Nat.zero_le _
  | cons item items ih =>
    obtain ⟨c, text, htext, -⟩ := hopens item
    by_cases h : items = []
    · rw [h, joined_singleton, htext]
      simp
    · rw [joined_cons h]
      simp only [List.length_cons, List.length_append]
      omega

variable (hopens : ∀ item, ∃ c text, itemText item = c :: text ∧ Opening c)
  (hclose : Closing close)

include hopens hclose

theorem scanItems_joined {items : List α} (hne : items ≠ [])
    (hitems : ∀ item ∈ items, ∀ rest, Ends rest → scanItem (itemText item ++ rest) = some (item, rest))
    {fuel : Nat} {rest : List Char} (hfuel : items.length ≤ fuel) :
    scanItems scanItem close fuel (joined itemText items ++ close :: rest) = some (items, rest) := by
  obtain ⟨hends, hclosing, -, hcomma⟩ := hclose.facts
  induction items generalizing fuel with
  | nil => exact absurd rfl hne
  | cons item items ih =>
    cases fuel with
    | zero => simp at hfuel
    | succ fuel =>
      have hitem := hitems item (List.mem_cons_self ..)
      by_cases h : items = []
      · rw [h, joined_singleton, scanItems, hitem _ (ends_cons hends)]
        simp [skipBlanks_cons hclosing]
      · obtain ⟨c, text, htext, hc⟩ := joined_opens hopens h
        have hrest := ih h (fun item' hmem => hitems item' (List.mem_cons_of_mem _ hmem))
          (Nat.le_of_succ_le_succ hfuel)
        have hblank : skipBlanks (' ' :: (joined itemText items ++ close :: rest)) =
            joined itemText items ++ close :: rest := by
          rw [htext, List.cons_append]
          exact skipBlanks_cons hc.not_blank
        have hnext := hitem (',' :: ' ' :: (joined itemText items ++ close :: rest))
          (ends_cons (by decide))
        rw [joined_cons h, List.append_assoc, List.cons_append, List.cons_append, scanItems, hnext]
        simp only [Option.bind_eq_bind, Option.bind_some,
          skipBlanks_cons (show isBlank ',' = false by decide), hcomma, if_false, if_true, hblank, hrest]
        rfl

theorem scanBlock_joined {items : List α}
    (hitems : ∀ item ∈ items, ∀ rest, Ends rest → scanItem (itemText item ++ rest) = some (item, rest))
    {fuel : Nat} {rest : List Char} (hfuel : items.length ≤ fuel) :
    scanBlock scanItem close fuel (joined itemText items ++ close :: rest) = some (items, rest) := by
  obtain ⟨-, hclosing, hopening, -⟩ := hclose.facts
  by_cases h : items = []
  · rw [h]
    simp [joined, scanBlock, skipBlanks_cons hclosing]
  · obtain ⟨c, text, htext, hc⟩ := joined_opens hopens h
    have hskip : skipBlanks (joined itemText items ++ close :: rest) =
        joined itemText items ++ close :: rest := by
      rw [htext, List.cons_append]
      exact skipBlanks_cons hc.not_blank
    have hhead : (joined itemText items ++ close :: rest).head? ≠ some close := by
      rw [htext, List.cons_append, List.head?_cons]
      intro heq
      exact hopening (Option.some.inj heq ▸ hc)
    rw [scanBlock, hskip, if_neg hhead]
    exact scanItems_joined hopens hclose h hitems hfuel

end

theorem itemsText_eq (items : List Value) : itemsText items = joined Value.text items := by
  induction items with
  | nil => rfl
  | cons item items ih =>
    by_cases h : items = []
    · rw [h, joined_singleton, itemsText]
    · rw [joined_cons h, itemsText, ih]
      exact h

theorem membersText_eq (members : List (String × Value)) :
    membersText members = joined memberText members := by
  induction members with
  | nil => rfl
  | cons member members ih =>
    by_cases h : members = []
    · rw [h, joined_singleton, membersText]
    · rw [joined_cons h, membersText, ih]
      exact h

/-! ### One document -/

theorem toDigits_opens (negative : Bool) (n : Nat) (tail : List Char) :
    ∃ c text, minus negative ++ (Nat.toDigits 10 n ++ tail) = c :: text ∧ Opening c := by
  cases negative with
  | true => exact ⟨'-', _, rfl, .inl (by decide)⟩
  | false =>
    cases hdigits : Nat.toDigits 10 n with
    | nil => exact absurd hdigits Nat.toDigits_ne_nil
    | cons c digits =>
      have hc := isDigit_toDigits n c (by rw [hdigits]; exact List.mem_cons_self ..)
      exact ⟨c, _, rfl, .inl (isDigit_wordChar hc)⟩

theorem Value.text_opens (v : Value) : ∃ c text, v.text = c :: text ∧ Opening c := by
  cases v with
  | constant c =>
    obtain ⟨hne, hword⟩ := c.wordChar_text
    obtain ⟨first, text, htext⟩ := List.exists_cons_of_ne_nil hne
    exact ⟨first, text, by rw [Value.text, htext], .inl (hword first (by rw [htext]; exact List.mem_cons_self ..))⟩
  | int n =>
    have := toDigits_opens (n < 0) n.natAbs []
    rwa [List.append_nil] at this
  | float x =>
    have := toDigits_opens x.negative x.whole (fractionText x.fraction ++ exponentText x.exponent)
    rwa [← List.append_assoc, ← List.append_assoc] at this
  | str s => exact ⟨'"', _, rfl, .inr (.inl rfl)⟩
  | list items => exact ⟨'[', _, rfl, .inr (.inr (.inl rfl))⟩
  | dict members => exact ⟨'{', _, rfl, .inr (.inr (.inr rfl))⟩

theorem memberText_opens (member : String × Value) :
    ∃ c text, memberText member = c :: text ∧ Opening c := by
  obtain ⟨key, value⟩ := member
  exact ⟨'"', _, rfl, .inr (.inl rfl)⟩

theorem scanMember_text {member : String × Value}
    (hvalue : ∀ rest, Ends rest → scanValue (member.2.text ++ rest) = some (member.2, rest))
    (rest : List Char) (hrest : Ends rest) :
    scanMember scanValue (memberText member ++ rest) = some (member, rest) := by
  obtain ⟨key, value⟩ := member
  obtain ⟨c, text, htext, hc⟩ := value.text_opens
  have hblank : skipBlanks (' ' :: (value.text ++ rest)) = value.text ++ rest := by
    rw [htext, List.cons_append]
    exact skipBlanks_cons hc.not_blank
  have hkey := scanString_quoted key (':' :: ' ' :: (value.text ++ rest))
  simp only [memberText, quoted, List.cons_append, List.append_assoc, List.nil_append, scanMember, hkey,
    Option.bind_eq_bind, Option.bind_some, skipBlanks_cons (show isBlank ':' = false by decide), hblank,
    hvalue rest hrest, Option.map_some]

theorem scanValue_listText {items : List Value}
    (hitems : ∀ item ∈ items, ∀ rest, Ends rest → scanValue (item.text ++ rest) = some (item, rest))
    (rest : List Char) : scanValue ((Value.list items).text ++ rest) = some (.list items, rest) := by
  have hlength := length_le_joined Value.text_opens items
  rw [Value.text, itemsText_eq, List.cons_append, List.append_assoc, List.singleton_append,
    scanValue_list, scanBlock_joined Value.text_opens (.inl rfl) hitems]
  · rfl
  · rw [List.length_append]
    omega

theorem scanValue_dictText {members : List (String × Value)}
    (hmembers : ∀ member ∈ members, ∀ rest, Ends rest →
      scanValue (member.2.text ++ rest) = some (member.2, rest))
    (rest : List Char) : scanValue ((Value.dict members).text ++ rest) = some (.dict members, rest) := by
  have hlength := length_le_joined memberText_opens members
  rw [Value.text, membersText_eq, List.cons_append, List.append_assoc, List.singleton_append,
    scanValue_dict, scanBlock_joined memberText_opens (.inr rfl) fun member hmem =>
      scanMember_text (hmembers member hmem)]
  · rfl
  · rw [List.length_append]
    omega

/-- The text of a document is read as that document. -/
theorem scanValue_text (v : Value) :
    ∀ rest, Ends rest → scanValue (v.text ++ rest) = some (v, rest) := by
  induction v using Value.induction with
  | constant c =>
    intro rest _
    exact scanValue_atom (by rw [scanAtom, Value.text, scanConstant_text, Option.some_or])
  | int n =>
    intro rest hrest
    apply scanValue_atom
    rw [scanAtom, Value.text, List.append_assoc, scanConstant_number, Option.none_or]
    exact scanNumber_int n hrest
  | float x =>
    intro rest hrest
    apply scanValue_atom
    rw [scanAtom, Value.text, scanNumber_float x hrest, FloatLiteral.text]
    simp only [List.append_assoc, scanConstant_number, Option.none_or]
  | str s =>
    intro rest _
    have h := scanString_quoted s rest
    simp only [Value.text, quoted, List.cons_append, List.append_assoc, List.nil_append, scanValue,
      scanOnce, h, Option.map_some]
  | list items ih => exact fun rest _ => scanValue_listText ih rest
  | dict members ih => exact fun rest _ => scanValue_dictText ih rest

/-- A list or an object ends with its bracket, whatever follows. -/
theorem scanValue_container {v : Value} (hv : v.isContainer = true) (rest : List Char) :
    scanValue (v.text ++ rest) = some (v, rest) := by
  cases v with
  | list items => exact scanValue_listText (fun item _ => scanValue_text item) rest
  | dict members => exact scanValue_dictText (fun member _ => scanValue_text member.2) rest
  | _ => cases hv

/-! ## Dictionaries -/

/-- A document as Python holds it: the keys of an object are distinct. -/
inductive Value.Wf : Value → Prop
  | constant (c : Constant) : Wf (.constant c)
  | int (n : Int) : Wf (.int n)
  | float (x : FloatLiteral) : Wf (.float x)
  | str (s : String) : Wf (.str s)
  | list {items : List Value} (hitems : ∀ item ∈ items, Wf item) : Wf (.list items)
  | dict {members : List (String × Value)} (hkeys : (members.map (·.1)).Nodup)
      (hmembers : ∀ member ∈ members, Wf member.2) : Wf (.dict members)

theorem setItem_new {α : Type} {key : String} (value : α) {d : List (String × α)}
    (h : key ∉ d.map (·.1)) : setItem key value d = d ++ [(key, value)] := by
  induction d with
  | nil => rfl
  | cons entry d ih =>
    rw [List.map_cons, List.mem_cons, not_or] at h
    rw [setItem, if_neg (Ne.symm h.1), ih h.2, List.cons_append]

theorem dictOf_nodup {α : Type} {members : List (String × α)} (h : (members.map (·.1)).Nodup) :
    dictOf members = members := by
  have hfold : ∀ d : List (String × α), ((d ++ members).map (·.1)).Nodup →
      members.foldl (fun d member => setItem member.1 member.2 d) d = d ++ members := by
    induction members with
    | nil => exact fun d _ => (List.append_nil d).symm
    | cons member members ih =>
      intro d hd
      have hnew : member.1 ∉ d.map (·.1) := by
        rw [List.map_append, List.nodup_append] at hd
        exact fun hmem => hd.2.2 _ hmem _ (List.mem_cons_self ..) rfl
      rw [List.foldl_cons, setItem_new member.2 hnew]
      have := ih (List.nodup_cons.mp h).2 (d ++ [member]) (by simpa using hd)
      simpa using this
  exact hfold [] h

theorem keys_setItem {α : Type} (key : String) (value : α) (d : List (String × α)) :
    (setItem key value d).map (·.1) = if key ∈ d.map (·.1) then d.map (·.1) else d.map (·.1) ++ [key] := by
  induction d with
  | nil => rfl
  | cons entry d ih =>
    by_cases hkey : entry.1 = key
    · rw [setItem, if_pos hkey]
      simp [hkey]
    · rw [setItem, if_neg hkey, List.map_cons, ih]
      simp only [List.map_cons, List.mem_cons, Ne.symm hkey, false_or]
      split <;> rfl

theorem dictOf_keys_nodup {α : Type} (members : List (String × α)) :
    ((dictOf members).map (·.1)).Nodup := by
  have hfold : ∀ d : List (String × α), (d.map (·.1)).Nodup →
      ((members.foldl (fun d member => setItem member.1 member.2 d) d).map (·.1)).Nodup := by
    induction members with
    | nil => exact fun _ hd => hd
    | cons member members ih =>
      refine fun d hd => ih _ ?_
      rw [keys_setItem]
      split
      · exact hd
      · next hnew => simpa using hd.concat hnew
  exact hfold [] List.nodup_nil

/-- A dictionary is its own dictionary. -/
theorem dictOf_dictOf {α : Type} (members : List (String × α)) :
    dictOf (dictOf members) = dictOf members :=
  dictOf_nodup (dictOf_keys_nodup members)

theorem itemsAsDicts_eq (items : List Value) : itemsAsDicts items = items.map Value.asDicts := by
  induction items with
  | nil => rfl
  | cons item items ih => rw [itemsAsDicts, ih, List.map_cons]

theorem membersAsDicts_eq (members : List (String × Value)) :
    membersAsDicts members = members.map fun member => (member.1, member.2.asDicts) := by
  induction members with
  | nil => rfl
  | cons member members ih =>
    obtain ⟨key, value⟩ := member
    rw [membersAsDicts, memberAsDicts, ih, List.map_cons]

theorem Value.Wf.asDicts_eq {v : Value} (h : v.Wf) : v.asDicts = v := by
  induction h with
  | constant c => rfl
  | int n => rfl
  | float x => rfl
  | str s => rfl
  | @list items _ ih => rw [Value.asDicts, itemsAsDicts_eq, List.map_congr_left ih, List.map_id']
  | @dict members hkeys _ ih =>
    have hsame : ∀ member ∈ members, (member.1, member.2.asDicts) = member :=
      fun member hmem => Prod.ext rfl (ih member hmem)
    rw [Value.asDicts, membersAsDicts_eq, List.map_congr_left hsame, List.map_id', dictOf_nodup hkeys]

theorem scanDocument_container {v : Value} (hv : v.isContainer = true) (hwf : v.Wf)
    (rest : List Char) : scanDocument (v.text ++ rest) = some (v, rest) := by
  simp only [scanDocument, scanValue_container hv, Option.map_some, hwf.asDicts_eq]

end Json
