import NsfwDetector.Json.Embedded
import NsfwDetector.Moderation.ModelOutput

/-!
# Finding the document in the answer

The scanner looks at brackets only. A document with no bracket before it and none after it is found,
whatever else the text says.
-/

namespace NsfwDetector

open Json

/-! ## The next bracket -/

theorem find_eq_some {value : List Char} {token : Char} {start position : Nat} :
    find value token start = some position ↔ start ≤ position ∧ value[position]? = some token ∧
      ∀ i, start ≤ i → i < position → value[i]? ≠ some token := by
  simp only [find, Option.map_eq_some_iff, List.findIdx?_eq_some_iff_getElem, List.length_drop,
    List.getElem_drop, decide_eq_true_eq]
  constructor
  · rintro ⟨offset, ⟨hlt, htoken, hbefore⟩, rfl⟩
    refine ⟨by omega, ?_, fun i hstart hi => ?_⟩
    · rw [List.getElem?_eq_getElem (by omega), htoken]
    · have := hbefore (i - start) (by omega)
      simp only [show start + (i - start) = i by omega] at this
      rw [List.getElem?_eq_getElem (by omega)]
      exact fun h => this (by simpa using h)
  · rintro ⟨hstart, htoken, hbefore⟩
    obtain ⟨hlt, htoken⟩ := List.getElem?_eq_some_iff.mp htoken
    refine ⟨position - start, ⟨by omega, ?_, fun j hj => ?_⟩, by omega⟩
    · simp only [show start + (position - start) = position by omega, htoken]
    · have := hbefore (start + j) (by omega) (by omega)
      rw [List.getElem?_eq_getElem (by omega)] at this
      simpa using this

theorem find_eq_none {value : List Char} {token : Char} {start : Nat} :
    find value token start = none ↔ ∀ c ∈ value.drop start, c ≠ token := by
  simp [find, List.findIdx?_eq_none_iff]

theorem nextJsonStart_eq_none {value : List Char} {start : Nat} :
    nextJsonStart value start = none ↔ ∀ c ∈ value.drop start, ¬ OpenBracket c := by
  simp only [nextJsonStart, List.min?_eq_none_iff, List.filterMap_eq_nil_iff, List.forall_mem_cons,
    List.not_mem_nil, false_imp_iff, implies_true, and_true, find_eq_none, OpenBracket, not_or,
    ← forall_and]

theorem nextJsonStart_eq_some {value : List Char} {start position : Nat} :
    nextJsonStart value start = some position ↔ start ≤ position ∧
      (∃ c, value[position]? = some c ∧ OpenBracket c) ∧
      ∀ i, start ≤ i → i < position → ∀ c, value[i]? = some c → ¬ OpenBracket c := by
  have hmem : ∀ p, p ∈ (['{', '['].filterMap fun token => find value token start) ↔
      ∃ c, OpenBracket c ∧ find value c start = some p := by
    simp [OpenBracket]
  rw [nextJsonStart, List.min?_eq_some_iff]
  simp only [hmem, forall_exists_index, and_imp]
  constructor
  · rintro ⟨⟨c, hc, hfind⟩, hleast⟩
    obtain ⟨hstart, hposition, -⟩ := find_eq_some.mp hfind
    refine ⟨hstart, ⟨c, hposition, hc⟩, fun i hi hlt c' hc' hbracket => ?_⟩
    -- the first place of that bracket is not behind `i`, and not before `position`
    cases hfind' : find value c' start with
    | none =>
      refine find_eq_none.mp hfind' c' ?_ rfl
      exact List.mem_iff_getElem?.mpr ⟨i - start, by rw [List.getElem?_drop, Nat.add_sub_cancel' hi, hc']⟩
    | some first =>
      have hle := hleast first c' hbracket hfind'
      exact (find_eq_some.mp hfind').2.2 i hi (by omega) hc'
  · rintro ⟨hstart, ⟨c, hposition, hc⟩, hbefore⟩
    refine ⟨⟨c, hc, find_eq_some.mpr ⟨hstart, hposition, fun i hi hlt h => hbefore i hi hlt c h hc⟩⟩, ?_⟩
    intro other c' hc' hfind
    obtain ⟨hother, hplace, -⟩ := find_eq_some.mp hfind
    by_contra hlt
    exact hbefore other hother (by omega) c' hplace hc'

/-! ## Text around a document -/

/-- Where the text is read off, a bracket comes first. -/
theorem nextJsonStart_around {before after : List Char} {bracket : Char} (hbracket : OpenBracket bracket)
    (hbefore : ∀ c ∈ before, ¬ OpenBracket c) :
    nextJsonStart (before ++ bracket :: after) 0 = some before.length := by
  refine nextJsonStart_eq_some.mpr ⟨Nat.zero_le _, ⟨bracket, by simp, hbracket⟩, ?_⟩
  intro i _ hi c hc
  rw [List.getElem?_append_left hi] at hc
  exact hbefore c (List.mem_of_getElem? hc)

theorem noFurtherDocument_of_clean {text : List Char} {cursor : Nat}
    (h : ∀ c ∈ text.drop cursor, ¬ OpenBracket c) : noFurtherDocument text cursor = true := by
  unfold noFurtherDocument
  split
  · rfl
  · next hnext =>
    rw [nextJsonStart_eq_none.mpr h] at hnext
    cases hnext

theorem extractSingleJsonDocument_around {v : Value} (hv : v.StartsWithKey) (hwf : v.Wf)
    {before after : List Char} (hbefore : ∀ c ∈ before, ¬ OpenBracket c)
    (hafter : ∀ c ∈ after, ¬ OpenBracket c) :
    extractSingleJsonDocument (before ++ (v.text ++ after)) = some v := by
  obtain ⟨lead, tail, htext, hne, hlead, -⟩ := hv.text_eq
  obtain ⟨bracket, lead, rfl⟩ := List.exists_cons_of_ne_nil hne
  have hstart : nextJsonStart (before ++ (v.text ++ after)) 0 = some before.length := by
    rw [htext]
    exact nextJsonStart_around (hlead bracket (List.mem_cons_self ..)) hbefore
  have hdecode : rawDecode (before ++ (v.text ++ after)) before.length =
      some (v, before.length + v.text.length) := by
    refine rawDecode_eq_some.mpr ⟨after, ?_, ?_⟩
    · rw [List.drop_left, scanDocument_container hv.isContainer hwf]
    · simp only [List.length_append]
      omega
  have hrest : noFurtherDocument (before ++ (v.text ++ after)) (before.length + v.text.length) = true := by
    apply noFurtherDocument_of_clean
    rw [← List.length_append, ← List.append_assoc, List.drop_left]
    exact hafter
  simp only [extractSingleJsonDocument, hstart, hdecode, hv.isContainer, hrest, Option.bind_eq_bind,
    Option.bind_some, Bool.and_self, if_true, Option.pure_def]

/-! ### Stripping -/

theorem dropWhile_stops {p : Char → Bool} {before after : List Char} {c : Char} (hc : p c = false) :
    (before ++ c :: after).dropWhile p = before.dropWhile p ++ c :: after := by
  induction before with
  | nil => simp [hc]
  | cons b before ih =>
    rw [List.cons_append, List.dropWhile_cons, List.dropWhile_cons]
    split
    · exact ih
    · rfl

theorem rdropWhile_stops {p : Char → Bool} {before after : List Char} {c : Char} (hc : p c = false) :
    (before ++ c :: after).rdropWhile p = before ++ c :: after.rdropWhile p := by
  have h : (before ++ c :: after).reverse = after.reverse ++ c :: before.reverse := by simp
  rw [List.rdropWhile, h, dropWhile_stops hc]
  simp [List.rdropWhile]

theorem rdropWhile_subset {p : Char → Bool} {text : List Char} {c : Char}
    (h : c ∈ text.rdropWhile p) : c ∈ text := (List.rdropWhile_prefix p text).subset h

theorem text_ends {v : Value} (hv : v.StartsWithKey) : ∃ first inner last,
    v.text = first :: (inner ++ [last]) ∧ (isSpace first = false ∧ first ≠ '\uFEFF') ∧
      isSpace last = false := by
  cases hv with
  | dict member members =>
    exact ⟨'{', membersText (member :: members), '}', by rw [Value.text], by decide, by decide⟩
  | @list item items h =>
    exact ⟨'[', itemsText (item :: items), ']', by rw [Value.text], by decide, by decide⟩

theorem strip_around {v : Value} (hv : v.StartsWithKey) (before after : List Char) :
    ∃ before' after', strip ((before ++ (v.text ++ after)).dropWhile (· = '\uFEFF')) =
      before' ++ (v.text ++ after') ∧ (∀ c ∈ before', c ∈ before) ∧ ∀ c ∈ after', c ∈ after := by
  obtain ⟨first, inner, last, htext, ⟨hspace, hbom⟩, hlast⟩ := text_ends hv
  refine ⟨(before.dropWhile (· = '\uFEFF')).dropWhile isSpace, after.rdropWhile isSpace, ?_, ?_,
    fun c => rdropWhile_subset⟩
  · rw [strip, htext, List.cons_append, dropWhile_stops (by simpa using hbom), dropWhile_stops hspace,
      List.append_assoc, List.singleton_append, ← List.cons_append, ← List.append_assoc,
      rdropWhile_stops hlast]
    simp
  · intro c hc
    exact (List.dropWhile_suffix _).subset ((List.dropWhile_suffix _).subset hc)

/-- With no bracket around it the document is what the answer says. -/
theorem loadModelJson_around {v : Value} (hv : v.StartsWithKey) (hwf : v.Wf) {before after : String}
    (hbefore : ∀ c ∈ before.toList, ¬ OpenBracket c) (hafter : ∀ c ∈ after.toList, ¬ OpenBracket c) :
    loadModelJson (before ++ dumps v ++ after) = .ok v := by
  obtain ⟨before', after', hstrip, hb, ha⟩ := strip_around hv before.toList after.toList
  have htext : (before ++ dumps v ++ after).toList = before.toList ++ (v.text ++ after.toList) := by
    simp [dumps]
  have hbefore' : ∀ c ∈ before', ¬ OpenBracket c := fun c hc => hbefore c (hb c hc)
  have hafter' : ∀ c ∈ after', ¬ OpenBracket c := fun c hc => hafter c (ha c hc)
  simp only [loadModelJson, htext, hstrip]
  cases hloads : loads (before' ++ (v.text ++ after')) with
  | some w => rw [loads_around hv hwf hbefore' hloads]
  | none => simp only [extractSingleJsonDocument_around hv hwf hbefore' hafter']

/-! ## What the scan decides -/

def BracketAt (text : List Char) (position : Nat) : Prop :=
  ∃ c, text[position]? = some c ∧ OpenBracket c

/-- From a bracket the decoder reads an object or an array, if anything. -/
theorem rawDecode_isContainer {text : List Char} {start stop : Nat} {v : Value}
    (hbracket : BracketAt text start) (h : rawDecode text start = some (v, stop)) :
    v.isContainer = true := by
  obtain ⟨c, hc, hopen⟩ := hbracket
  obtain ⟨rest, hscan, -⟩ := rawDecode_eq_some.mp h
  obtain ⟨hlt, hget⟩ := List.getElem?_eq_some_iff.mp hc
  rw [List.drop_eq_getElem_cons hlt, hget] at hscan
  simp only [scanDocument, scanValue, Option.map_eq_some_iff, Prod.mk.injEq, Prod.exists] at hscan
  obtain ⟨w, rest', hscan, rfl, rfl⟩ := hscan
  rcases hopen with rfl | rfl
  · simp only [scanOnce, Option.map_eq_some_iff, Prod.mk.injEq, Prod.exists] at hscan
    obtain ⟨members, _, -, rfl, -⟩ := hscan
    simp [Value.asDicts, Value.isContainer]
  · simp only [scanOnce, Option.map_eq_some_iff, Prod.mk.injEq, Prod.exists] at hscan
    obtain ⟨items, _, -, rfl, -⟩ := hscan
    simp [Value.asDicts, Value.isContainer]

theorem nextJsonStart_none_iff {text : List Char} {start : Nat} : nextJsonStart text start = none ↔
    ∀ position, start ≤ position → ¬ BracketAt text position := by
  rw [nextJsonStart_eq_none]
  constructor
  · rintro h position hposition ⟨c, hc, hopen⟩
    refine h c (List.mem_iff_getElem?.mpr ⟨position - start, ?_⟩) hopen
    rw [List.getElem?_drop, Nat.add_sub_cancel' hposition, hc]
  · intro h c hc hopen
    obtain ⟨offset, hoffset⟩ := List.mem_iff_getElem?.mp hc
    rw [List.getElem?_drop] at hoffset
    exact h (start + offset) (by omega) ⟨c, hoffset, hopen⟩

theorem nextJsonStart_some_iff {text : List Char} {start position : Nat} :
    nextJsonStart text start = some position ↔ start ≤ position ∧ BracketAt text position ∧
      ∀ i, start ≤ i → i < position → ¬ BracketAt text i := by
  rw [nextJsonStart_eq_some]
  simp only [BracketAt, not_exists, not_and]

/-- What holds of the next bracket and of every one behind it holds of every bracket. -/
theorem brackets_from_next {text : List Char} {cursor nextStart : Nat} {P : Nat → Prop}
    (h : nextJsonStart text cursor = some nextStart) :
    (∀ position, cursor ≤ position → BracketAt text position → P position) ↔
      P nextStart ∧ ∀ position, nextStart + 1 ≤ position → BracketAt text position → P position := by
  obtain ⟨hle, hbracket, hbefore⟩ := nextJsonStart_some_iff.mp h
  constructor
  · intro hall
    exact ⟨hall nextStart hle hbracket, fun position hlt => hall position (by omega)⟩
  · rintro ⟨hnext, hall⟩ position hposition hopen
    rcases Nat.lt_trichotomy position nextStart with hlt | rfl | hgt
    · exact absurd hopen (hbefore position hposition hlt)
    · exact hnext
    · exact hall position hgt hopen

theorem noFurtherDocument_step (text : List Char) (cursor : Nat) : noFurtherDocument text cursor =
    match nextJsonStart text cursor with
    | none => true
    | some nextStart =>
      match rawDecode text nextStart with
      | none => noFurtherDocument text (nextStart + 1)
      | some (extraPayload, extraEnd) =>
        if extraPayload.isContainer then false else noFurtherDocument text extraEnd := by
  rw [noFurtherDocument]
  split
  · next h => simp [h]
  · next h =>
    rw [h]
    split
    · next h' => simp [h']
    · next h' => simp [h']

/-- The loop leaves out no bracket: behind one that starts nothing it goes on with the next
character, and a document at one ends it. -/
theorem noFurtherDocument_iff (text : List Char) (cursor : Nat) : noFurtherDocument text cursor = true ↔
    ∀ position, cursor ≤ position → BracketAt text position → rawDecode text position = none := by
  induction cursor using noFurtherDocument.induct text with
  | case1 cursor hnext =>
    rw [noFurtherDocument_step, hnext]
    refine iff_of_true rfl ?_
    intro position hposition hopen
    exact absurd hopen (nextJsonStart_none_iff.mp hnext position hposition)
  | case2 cursor nextStart hnext hdecode ih =>
    rw [brackets_from_next hnext, ← ih, noFurtherDocument_step, hnext]
    simp only [hdecode, true_and]
  | case3 cursor nextStart hnext extraPayload extraEnd hdecode hcontainer =>
    rw [brackets_from_next hnext, noFurtherDocument_step, hnext]
    simp [hdecode, hcontainer]
  | case4 cursor nextStart hnext extraPayload extraEnd hdecode hcontainer ih =>
    have hbracket := (nextJsonStart_some_iff.mp hnext).2.1
    exact absurd (rawDecode_isContainer hbracket hdecode) hcontainer

/-- The document is at the first bracket, and no bracket behind it starts another one. -/
def SoleDocument (text : List Char) (payload : Value) : Prop :=
  ∃ start stop, BracketAt text start ∧ (∀ position, position < start → ¬ BracketAt text position) ∧
    rawDecode text start = some (payload, stop) ∧
    ∀ position, stop ≤ position → BracketAt text position → rawDecode text position = none

theorem extractSingleJsonDocument_iff (text : List Char) :
    (∀ payload, extractSingleJsonDocument text = some payload ↔ SoleDocument text payload) ∧
      (extractSingleJsonDocument text = none ↔ ¬ ∃ payload, SoleDocument text payload) := by
  have hsome : ∀ payload, extractSingleJsonDocument text = some payload ↔ SoleDocument text payload := by
    intro payload
    simp only [extractSingleJsonDocument, Option.bind_eq_bind, Option.bind_eq_some_iff, Prod.exists,
      Option.ite_none_right_eq_some, Option.pure_def, Option.some.injEq, Bool.and_eq_true,
      noFurtherDocument_iff, nextJsonStart_some_iff]
    constructor
    · rintro ⟨start, ⟨-, hbracket, hfirst⟩, _, stop, hdecode, ⟨-, hrest⟩, rfl⟩
      exact ⟨start, stop, hbracket, fun position => hfirst position (Nat.zero_le _), hdecode, hrest⟩
    · rintro ⟨start, stop, hbracket, hfirst, hdecode, hrest⟩
      exact ⟨start, ⟨Nat.zero_le _, hbracket, fun position _ => hfirst position⟩, payload, stop, hdecode,
        ⟨rawDecode_isContainer hbracket hdecode, hrest⟩, rfl⟩
  refine ⟨hsome, ?_⟩
  rw [Option.eq_none_iff_forall_ne_some]
  simp only [ne_eq, hsome, not_exists]

end NsfwDetector
