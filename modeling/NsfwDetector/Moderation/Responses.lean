import NsfwDetector.Moderation.Salvage

/-!
# What is accepted as a response

An item is accepted exactly when its fields read as an output. So a response with valid items gives
those outputs, and whatever a response gives was there to be read.
-/

namespace NsfwDetector

open Json

/-! ## Dictionaries -/

theorem lookup_of_mem {α : Type} {key : String} {a : α} {d : List (String × α)}
    (hkeys : (d.map (·.1)).Nodup) (h : (key, a) ∈ d) : d.lookup key = some a := by
  induction d with
  | nil => cases h
  | cons entry d ih =>
    obtain ⟨hnew, hkeys⟩ := List.nodup_cons.mp hkeys
    rcases List.mem_cons.mp h with rfl | h
    · exact List.lookup_cons_self
    · have hne : (key == entry.1) = false := by
        rw [beq_eq_false_iff_ne]
        rintro rfl
        exact hnew (List.mem_map.mpr ⟨_, h, rfl⟩)
      rw [List.lookup_cons, hne]
      exact ih hkeys h

theorem mem_keys_of_lookup {α : Type} {key : String} {a : α} {d : List (String × α)}
    (h : d.lookup key = some a) : key ∈ d.map (·.1) :=
  List.mem_map_of_mem (f := Prod.fst) (mem_of_lookup h)

theorem lookup_setItem_of_ne {α : Type} {key other : String} (a : α) {d : List (String × α)}
    (h : other ≠ key) : (setItem key a d).lookup other = d.lookup other := by
  induction d with
  | nil => rw [setItem, List.lookup_cons, beq_eq_false_iff_ne.mpr h]
  | cons entry d ih =>
    obtain ⟨k, b⟩ := entry
    rw [setItem]
    split
    · next hk =>
      rw [List.lookup_cons, List.lookup_cons, hk, beq_eq_false_iff_ne.mpr h]
    · rw [List.lookup_cons, List.lookup_cons, ih]

/-! ## Fields -/

section

variable (laxInt : Value → Option Int)

structure ScoresRead (members : List (String × Value)) (scores : Scores) : Prop where
  keys : ∀ key, key ∈ members.map (·.1) ↔ ∃ category : ModerationCategory, category.value = key
  scores : ∀ category : ModerationCategory,
    (members.lookup category.value).bind laxInt = some (scores category : Int)

/-- The fields of an item read as the output. -/
structure ModelReads (fields : List (String × Value)) (output : ModerationModelOutput) : Prop where
  topCategory : fields.lookup "top_category" = some (.str output.topCategory.value)
  categories : ∃ members, fields.lookup "categories" = some (.dict members) ∧
    ScoresRead laxInt members output.categories
  reason : fields.lookup "reason" = some (.str output.reason)

structure FrameReads (item : Value) (output : FrameModerationOutput) : Prop where
  fields : ∃ fields, item = .dict fields ∧ ModelReads laxInt fields output.toModerationModelOutput ∧
    (fields.lookup "frame_index").bind laxInt = some (output.frameIndex : Int)

variable {laxInt}

theorem intDictOf_spec {members : List (String × Value)} {value : List (String × Int)}
    (h : members.mapM (fun (key, value) => (laxInt value).map fun n => (key, n)) = some value) :
    value.map (·.1) = members.map (·.1) ∧
      ∀ key, value.lookup key = (members.lookup key).bind laxInt := by
  induction members generalizing value with
  | nil =>
    cases h
    exact ⟨rfl, fun _ => rfl⟩
  | cons member members ih =>
    obtain ⟨k, v⟩ := member
    simp only [List.mapM_cons, Option.bind_eq_bind, Option.bind_eq_some_iff, Option.map_eq_some_iff,
      Option.pure_def, Option.some.injEq] at h
    obtain ⟨_, ⟨n, hn, rfl⟩, value', hvalue, rfl⟩ := h
    obtain ⟨hkeys, hlookup⟩ := ih hvalue
    refine ⟨by rw [List.map_cons, List.map_cons, hkeys], fun key => ?_⟩
    rw [List.lookup_cons, List.lookup_cons]
    cases key == k with
    | true => exact hn.symm
    | false => exact hlookup key

theorem categoryOf_eq_some {v : Value} {category : ModerationCategory} :
    categoryOf v = some category ↔ v = .str category.value := by
  cases v with
  | str s =>
    simp only [categoryOf, stringOf, Option.bind_eq_bind, Option.bind_some, Value.str.injEq]
    constructor
    · intro h
      have hfound := List.find?_some h
      exact (of_decide_eq_true hfound).symm
    · rintro rfl
      cases category <;> rfl
  | _ => simp [categoryOf, stringOf]

theorem stringOf_eq_some {v : Value} {s : String} : stringOf v = some s ↔ v = .str s := by
  cases v <;> simp [stringOf]

theorem membersOf_eq_some {v : Value} {members : List (String × Value)} :
    membersOf v = some members ↔ v = .dict members := by
  cases v <;> simp [membersOf]

theorem scoresRead_of_validate {members : List (String × Value)} {value : List (String × Int)}
    {scores : { scores : Scores // ∀ category, scores category ≤ 5 }}
    (hvalue : intDictOf laxInt (.dict members) = some value)
    (hscores : validateCategoryScores value = some scores) : ScoresRead laxInt members scores.1 := by
  obtain ⟨hkeys, hlookup⟩ := intDictOf_spec hvalue
  unfold validateCategoryScores at hscores
  split at hscores
  · next hvalid =>
    obtain ⟨hall, honly, hrange⟩ := hvalid
    cases hscores
    constructor
    · intro key
      rw [← hkeys]
      constructor
      · intro hkey
        obtain ⟨category, -, heq⟩ := List.mem_map.mp (honly key hkey)
        exact ⟨category, heq⟩
      · rintro ⟨category, rfl⟩
        exact hall category (mem_moderationCategories category)
    · intro category
      obtain ⟨entry, hentry, hkey⟩ := List.mem_map.mp (hall category (mem_moderationCategories category))
      rw [← hlookup]
      cases hfound : value.lookup category.value with
      | none =>
        have := List.lookup_eq_none_iff.mp hfound entry hentry
        simp [hkey] at this
      | some n =>
        have := hrange _ (mem_of_lookup hfound)
        simp only [scoresOf, hfound, Option.getD_some, Option.some.injEq]
        omega
  · cases hscores

theorem mapM_isSome {members : List (String × Value)}
    (h : ∀ member ∈ members, (laxInt member.2).isSome = true) :
    ∃ value, members.mapM (fun (key, value) => (laxInt value).map fun n => (key, n)) = some value := by
  induction members with
  | nil => exact ⟨[], rfl⟩
  | cons member members ih =>
    obtain ⟨hmember, hmembers⟩ := List.forall_mem_cons.mp h
    obtain ⟨n, hn⟩ := Option.isSome_iff_exists.mp hmember
    obtain ⟨value, hvalue⟩ := ih hmembers
    exact ⟨(member.1, n) :: value, by simp [List.mapM_cons, hn, hvalue]⟩

theorem validate_of_scoresRead {members : List (String × Value)} {scores : Scores}
    (hnodup : (members.map (·.1)).Nodup) (hle : ∀ category, scores category ≤ 5)
    (hread : ScoresRead laxInt members scores) : ∃ value,
      intDictOf laxInt (.dict members) = some value ∧
        validateCategoryScores value = some ⟨scores, hle⟩ := by
  have hmember : ∀ member ∈ members, ∃ category : ModerationCategory,
      category.value = member.1 ∧ laxInt member.2 = some (scores category : Int) := by
    intro member hmem
    obtain ⟨category, hkey⟩ := (hread.keys member.1).mp (List.mem_map_of_mem hmem)
    have hscore := hread.scores category
    rw [hkey, lookup_of_mem hnodup hmem, Option.bind_some] at hscore
    exact ⟨category, hkey, hscore⟩
  have hsome : ∀ member ∈ members, (laxInt member.2).isSome = true := by
    intro member hmem
    obtain ⟨category, -, h⟩ := hmember member hmem
    rw [h]
    rfl
  obtain ⟨value, hvalue⟩ := mapM_isSome hsome
  obtain ⟨hkeys, hlookup⟩ := intDictOf_spec hvalue
  have hscore : ∀ category : ModerationCategory,
      value.lookup category.value = some (scores category : Int) :=
    fun category => (hlookup category.value).trans (hread.scores category)
  have hvalid : ValidCategoryScores value := by
    refine ⟨fun category _ => ?_, fun key hkey => ?_, fun entry hentry => ?_⟩
    · exact mem_keys_of_lookup (hscore category)
    · obtain ⟨category, rfl⟩ := (hread.keys key).mp (hkeys ▸ hkey)
      exact List.mem_map_of_mem (mem_moderationCategories category)
    · have hkey : entry.1 ∈ members.map (·.1) := hkeys ▸ List.mem_map_of_mem hentry
      obtain ⟨category, hcategory⟩ := (hread.keys entry.1).mp hkey
      have hentry' := lookup_of_mem (hkeys ▸ hnodup) hentry
      rw [← hcategory, hscore category] at hentry'
      have := hle category
      rw [← Option.some.inj hentry']
      omega
  refine ⟨value, hvalue, ?_⟩
  have heq : scoresOf value = scores := by
    funext category
    simp [scoresOf, hscore category]
  rw [validateCategoryScores, dif_pos hvalid]
  exact congrArg some (Subtype.ext heq)

/-! ## Items -/

theorem modelReads_of_modelValidate {fields : List (String × Value)} {output : ModerationModelOutput}
    (h : ModerationModelOutput.modelValidate laxInt (.dict fields) = some output) :
    ModelReads laxInt fields output := by
  simp only [ModerationModelOutput.modelValidate, membersOf, Option.bind_eq_bind, Option.bind_some,
    Option.bind_eq_some_iff, categoryOf_eq_some, stringOf_eq_some] at h
  obtain ⟨_, htop, topCategory, rfl, v, hcategories, value, hvalue, scores, hscores, _, hreason,
    reason, rfl, h⟩ := h
  split at h
  · cases h
    obtain ⟨members, rfl⟩ : ∃ members, v = .dict members := by
      cases v <;> first | exact ⟨_, rfl⟩ | cases hvalue
    exact ⟨htop, ⟨members, hcategories, scoresRead_of_validate hvalue hscores⟩, hreason⟩
  · cases h

theorem modelValidate_of_modelReads {fields : List (String × Value)} {output : ModerationModelOutput}
    (hwf : (Value.dict fields).Wf) (h : ModelReads laxInt fields output) :
    ModerationModelOutput.modelValidate laxInt (.dict fields) = some output := by
  obtain ⟨members, hcategories, hread⟩ := h.categories
  have hnodup : (members.map (·.1)).Nodup := by
    cases hwf with
    | dict _ hmembers =>
      cases hmembers _ (mem_of_lookup hcategories) with
      | dict hkeys _ => exact hkeys
  obtain ⟨value, hvalue, hscores⟩ := validate_of_scoresRead hnodup output.severity_le hread
  have htop := categoryOf_eq_some.mpr (Eq.refl (Value.str output.topCategory.value))
  simp only [ModerationModelOutput.modelValidate, membersOf, Option.bind_eq_bind, Option.bind_some,
    h.topCategory, htop, hcategories, hvalue, hscores, h.reason, stringOf, dif_pos output.top_matches]
  rfl

theorem frameReads_of_modelValidate {item : Value} {output : FrameModerationOutput}
    (h : FrameModerationOutput.modelValidate laxInt item = some output) :
    FrameReads laxInt item output := by
  simp only [FrameModerationOutput.modelValidate, Option.bind_eq_bind, Option.bind_eq_some_iff,
    membersOf_eq_some] at h
  obtain ⟨model, hmodel, fields, rfl, v, hv, frameIndex, hindex, h⟩ := h
  split at h
  · cases h
  · cases h
    refine ⟨fields, rfl, modelReads_of_modelValidate hmodel, ?_⟩
    rw [hv, Option.bind_some, hindex]
    simp only [Option.some.injEq]
    omega

theorem modelValidate_of_frameReads {item : Value} {output : FrameModerationOutput} (hwf : item.Wf)
    (h : FrameReads laxInt item output) :
    FrameModerationOutput.modelValidate laxInt item = some output := by
  obtain ⟨fields, rfl, hmodel, hindex⟩ := h.fields
  obtain ⟨v, hv, hindex⟩ := Option.bind_eq_some_iff.mp hindex
  have hsign : ¬ (output.frameIndex : Int) < 0 := by omega
  simp only [FrameModerationOutput.modelValidate, modelValidate_of_modelReads hwf hmodel, membersOf,
    hv, hindex, Option.bind_eq_bind, Option.bind_some, hsign, if_false]
  rfl

/-- The loop succeeds with the outputs that the items validate to, if they are in order. -/
theorem parseFrames_ok {items : List Value} {outputs : List FrameModerationOutput} {index : Nat} :
    parseFrames laxInt index items = .ok outputs ↔
      List.Forall₂ (fun item output => FrameModerationOutput.modelValidate laxInt item = some output)
        items outputs ∧ outputs.map (·.frameIndex) = List.range' index outputs.length := by
  constructor
  · intro h
    induction items generalizing index outputs with
    | nil =>
      cases h
      exact ⟨.nil, rfl⟩
    | cons item items ih =>
      rw [parseFrames] at h
      cases hitem : FrameModerationOutput.modelValidate laxInt item with
      | none => simp [hitem] at h
      | some parsed =>
        simp only [hitem] at h
        by_cases hindex : parsed.frameIndex = index
        · rw [if_neg (not_not_intro hindex)] at h
          cases hrest : parseFrames laxInt (index + 1) items with
          | error e => simp [hrest, Except.map] at h
          | ok rest =>
            obtain ⟨hframes, hindices⟩ := ih hrest
            rw [hrest] at h
            cases h
            refine ⟨.cons hitem hframes, ?_⟩
            rw [List.map_cons, List.length_cons, List.range'_succ, hindex, hindices]
        · rw [if_pos hindex] at h
          cases h
  · rintro ⟨hframes, hindex⟩
    induction hframes generalizing index with
    | nil => rfl
    | @cons item output items outputs hitem _ ih =>
      simp only [List.map_cons, List.length_cons, List.range'_succ, List.cons.injEq] at hindex
      simp only [parseFrames, hitem, hindex.1, ne_eq, not_true, if_false, ih hindex.2]
      rfl

theorem parseFrames_error {items : List Value} {e : PyException} {index : Nat}
    (h : parseFrames laxInt index items = .error e) : ∃ message, e = invalidSchema message := by
  induction items generalizing index with
  | nil => cases h
  | cons item items ih =>
    rw [parseFrames] at h
    cases hitem : FrameModerationOutput.modelValidate laxInt item with
    | none =>
      simp only [hitem] at h
      cases h
      exact ⟨_, rfl⟩
    | some parsed =>
      simp only [hitem] at h
      by_cases hindex : parsed.frameIndex = index
      · rw [if_neg (not_not_intro hindex)] at h
        cases hrest : parseFrames laxInt (index + 1) items with
        | error e' =>
          rw [hrest] at h
          cases h
          exact ih hrest
        | ok rest => simp [hrest, Except.map] at h
      · rw [if_pos hindex] at h
        cases h
        exact ⟨_, rfl⟩

/-! ## Responses -/

theorem parseVisualBatchResponse_of_load {rawResponse : String} {expectedCount : Int} {payload : Value}
    (h : loadModelJson rawResponse = .ok payload) :
    parseVisualBatchResponse laxInt rawResponse expectedCount =
      match visualItems (unwrapEnvelope payload visualEnvelopes) expectedCount with
      | none => .error (invalidSchema "model response must be a JSON array")
      | some items =>
        if (items.length : Int) ≠ expectedCount then
          .error (invalidSchema "model response count did not match request count")
        else parseFrames laxInt 0 items := by
  rw [parseVisualBatchResponse, h]
  rfl

theorem parseVisualBatchResponse_ok {rawResponse : String} {expectedCount : Int}
    {outputs : List FrameModerationOutput} :
    parseVisualBatchResponse laxInt rawResponse expectedCount = .ok outputs ↔ ∃ payload items,
      loadModelJson rawResponse = .ok payload ∧
      visualItems (unwrapEnvelope payload visualEnvelopes) expectedCount = some items ∧
      (items.length : Int) = expectedCount ∧ parseFrames laxInt 0 items = .ok outputs := by
  constructor
  · intro h
    cases hload : loadModelJson rawResponse with
    | error e => simp [parseVisualBatchResponse, hload, bind, Except.bind] at h
    | ok payload =>
      rw [parseVisualBatchResponse_of_load hload] at h
      cases hitems : visualItems (unwrapEnvelope payload visualEnvelopes) expectedCount with
      | none => simp [hitems] at h
      | some items =>
        simp only [hitems] at h
        by_cases hcount : (items.length : Int) = expectedCount
        · rw [if_neg (not_not_intro hcount)] at h
          exact ⟨payload, items, rfl, hitems, hcount, h⟩
        · rw [if_pos hcount] at h
          cases h
  · rintro ⟨payload, items, hload, hitems, hcount, h⟩
    rw [parseVisualBatchResponse_of_load hload, hitems]
    exact (if_neg (not_not_intro hcount)).trans h

theorem parseVisualBatchResponse_shape {rawResponse : String} {expectedCount : Int}
    {outputs : List FrameModerationOutput}
    (h : parseVisualBatchResponse laxInt rawResponse expectedCount = .ok outputs) :
    (outputs.length : Int) = expectedCount ∧
      outputs.map (·.frameIndex) = List.range outputs.length := by
  obtain ⟨payload, items, -, -, hcount, hframes⟩ := parseVisualBatchResponse_ok.mp h
  obtain ⟨hvalid, hindices⟩ := parseFrames_ok.mp hframes
  rw [← hvalid.length_eq, List.range_eq_range', hvalid.length_eq]
  exact ⟨by rw [← hvalid.length_eq, hcount], hindices⟩

theorem loadModelJson_error {rawResponse : String} {e : PyException}
    (h : loadModelJson rawResponse = .error e) :
    e = .appError Codes.modelResponseInvalidJson "model response was not valid JSON" 502 := by
  simp only [loadModelJson] at h
  split at h
  · cases h
  · split at h
    · cases h
    · exact (Except.error.inj h).symm

theorem parseVisualBatchResponse_error {rawResponse : String} {expectedCount : Int} {e : PyException}
    (h : parseVisualBatchResponse laxInt rawResponse expectedCount = .error e) :
    ∃ code message, e = .appError code message 502 := by
  cases hload : loadModelJson rawResponse with
  | error e' =>
    simp only [parseVisualBatchResponse, hload, bind, Except.bind, Except.error.injEq] at h
    exact ⟨_, _, h ▸ loadModelJson_error hload⟩
  | ok payload =>
    rw [parseVisualBatchResponse_of_load hload] at h
    cases hitems : visualItems (unwrapEnvelope payload visualEnvelopes) expectedCount with
    | none =>
      simp only [hitems, Except.error.injEq] at h
      exact ⟨_, _, h.symm⟩
    | some items =>
      simp only [hitems] at h
      by_cases hcount : (items.length : Int) = expectedCount
      · rw [if_neg (not_not_intro hcount)] at h
        obtain ⟨message, rfl⟩ := parseFrames_error h
        exact ⟨_, _, rfl⟩
      · rw [if_pos hcount] at h
        exact ⟨_, _, (Except.error.inj h).symm⟩

end

/-! ## Valid responses -/

/-- Integers only. -/
def asInt : Value → Option Int
  | .int n => some n
  | _ => none

theorem FrameReads.lax {laxInt : Value → Option Int} (hint : ∀ n, laxInt (.int n) = some n)
    {item : Value} {output : FrameModerationOutput} (h : FrameReads asInt item output) :
    FrameReads laxInt item output := by
  have hlax : ∀ (v : Option Value) n, v.bind asInt = some n → v.bind laxInt = some n := by
    intro v n hv
    obtain ⟨v, rfl, hv⟩ := Option.bind_eq_some_iff.mp hv
    cases v with
    | int m =>
      rw [Option.bind_some, hint]
      exact hv
    | _ => cases hv
  obtain ⟨fields, hitem, ⟨htop, ⟨members, hcategories, hkeys, hscores⟩, hreason⟩, hindex⟩ := h.fields
  exact ⟨fields, hitem, ⟨htop, ⟨members, hcategories, hkeys, fun c => hlax _ _ (hscores c)⟩, hreason⟩,
    hlax _ _ hindex⟩

/-- The items as a list, or a single item as it is. -/
inductive Listed (items : List Value) : Value → Prop
  | list : Listed items (.list items)
  | single {item : Value} (h : items = [item]) : Listed items item

/-- With or without an envelope around it. -/
inductive Wrapped (items : List Value) : Value → Prop
  | bare {payload : Value} (h : Listed items payload) : Wrapped items payload
  | envelope {payload : Value} {key : String} (hkey : key ∈ visualEnvelopes)
      (h : Listed items payload) : Wrapped items (.dict [(key, payload)])

section

variable {laxInt : Value → Option Int} {items : List Value} {outputs : List FrameModerationOutput}
  {payload : Value} (hframes : List.Forall₂ (FrameReads laxInt) items outputs)

include hframes

theorem Listed.startsWithKey (hne : items ≠ []) (h : Listed items payload) :
    payload.StartsWithKey := by
  obtain ⟨item, items, rfl⟩ := List.exists_cons_of_ne_nil hne
  obtain ⟨output, outputs, hframe, -, -⟩ := List.forall₂_cons_left_iff.mp hframes
  obtain ⟨fields, rfl, hmodel, -⟩ := hframe.fields
  have hitem : (Value.dict fields).StartsWithKey := by
    cases fields with
    | nil => cases hmodel.reason
    | cons member members => exact .dict member members
  cases h with
  | list => exact .list items hitem
  | single h =>
    obtain ⟨rfl, -⟩ := List.cons.inj h
    exact hitem

theorem Wrapped.startsWithKey (hne : items ≠ []) (h : Wrapped items payload) :
    payload.StartsWithKey := by
  cases h with
  | bare h => exact h.startsWithKey hframes hne
  | envelope _ _ => exact .dict _ []

/-- An item is no envelope: it has several keys. -/
theorem Listed.unwrapEnvelope_eq (h : Listed items payload) (keys : List String) :
    unwrapEnvelope payload keys = payload := by
  cases h with
  | list => rfl
  | single h =>
    subst h
    obtain ⟨output, outputs, hframe, -, -⟩ := List.forall₂_cons_left_iff.mp hframes
    obtain ⟨fields, rfl, hmodel, -⟩ := hframe.fields
    unfold unwrapEnvelope
    split
    · next key value heq =>
      cases heq
      have hreason := List.mem_singleton.mp (mem_keys_of_lookup hmodel.reason)
      have htop := List.mem_singleton.mp (mem_keys_of_lookup hmodel.topCategory)
      exact absurd (hreason.trans htop.symm) (by decide)
    · rfl

theorem Listed.visualItems_eq (h : Listed items payload) :
    visualItems payload items.length = some items := by
  cases h with
  | list => rfl
  | single h =>
    subst h
    obtain ⟨output, outputs, hframe, -, -⟩ := List.forall₂_cons_left_iff.mp hframes
    obtain ⟨fields, rfl, -, hindex⟩ := hframe.fields
    obtain ⟨v, hv, -⟩ := Option.bind_eq_some_iff.mp hindex
    exact if_pos ⟨rfl, mem_keys_of_lookup hv⟩

theorem Wrapped.visualItems_eq (h : Wrapped items payload) :
    visualItems (unwrapEnvelope payload visualEnvelopes) items.length = some items := by
  cases h with
  | bare h => rw [h.unwrapEnvelope_eq hframes, h.visualItems_eq hframes]
  | envelope hkey h => rw [unwrapEnvelope, if_pos hkey, h.visualItems_eq hframes]

end

theorem Wrapped.wf {items : List Value} {payload : Value} (hwf : ∀ item ∈ items, item.Wf)
    (h : Wrapped items payload) : payload.Wf := by
  have hlisted : ∀ {payload}, Listed items payload → payload.Wf := by
    intro payload h
    cases h with
    | list => exact .list hwf
    | single h => exact hwf _ (by simp [h])
  cases h with
  | bare h => exact hlisted h
  | envelope _ h => exact .dict (List.nodup_singleton _) (by simpa using hlisted h)

/-- Valid frames are what is parsed, in any wrapping and with any text around without brackets. -/
theorem valid_frames_parsed (laxInt : Value → Option Int) (hint : ∀ n, laxInt (.int n) = some n)
    {items : List Value} {outputs : List FrameModerationOutput} (hne : outputs ≠ [])
    (hwf : ∀ item ∈ items, item.Wf) (hframes : List.Forall₂ (FrameReads asInt) items outputs)
    (hindex : outputs.map (·.frameIndex) = List.range outputs.length) {payload : Value}
    (hpayload : Wrapped items payload) {before after : String}
    (hbefore : ∀ c ∈ before.toList, ¬ OpenBracket c) (hafter : ∀ c ∈ after.toList, ¬ OpenBracket c) :
    parseVisualBatchResponse laxInt (before ++ dumps payload ++ after) outputs.length = .ok outputs := by
  have hlength := hframes.length_eq
  have hitems : items ≠ [] := by
    rw [← List.length_pos_iff] at hne ⊢
    omega
  have hreads : List.Forall₂ (FrameReads laxInt) items outputs :=
    hframes.imp fun _ _ h => h.lax hint
  have hload := loadModelJson_around (hpayload.startsWithKey hframes hitems) (hpayload.wf hwf) hbefore hafter
  rw [List.range_eq_range'] at hindex
  rw [← hlength]
  refine parseVisualBatchResponse_ok.mpr ⟨payload, items, hload, hpayload.visualItems_eq hframes, rfl,
    parseFrames_ok.mpr ⟨?_, hindex⟩⟩
  exact ((List.forall₂_and_left _ _).mpr ⟨hwf, hreads⟩).imp fun _ _ h =>
    modelValidate_of_frameReads h.1 h.2

/-- A frame whose reason looks like JSON, with a field of the policy added. -/
def bracketItem (index : Nat) (category : ModerationCategory) : Value :=
  .dict [("frame_index", .int index), ("top_category", .str category.value),
    ("categories", .dict (moderationCategories.map fun c => (c.value, .int (if c = category then 4 else 0)))),
    ("reason", .str "]\\\" [1]"), ("is_nsfw", .constant (.bool false))]

def bracketOutput (index : Nat) (category : ModerationCategory) : FrameModerationOutput where
  topCategory := category
  categories := fun c => if c = category then 4 else 0
  reason := "]\\\" [1]"
  severity_le := by decide +revert
  top_matches := by decide +revert
  frameIndex := index

theorem bracketItem_reads (index : Nat) (category : ModerationCategory) :
    FrameReads asInt (bracketItem index category) (bracketOutput index category) := by
  refine ⟨_, rfl, ⟨?_, ⟨_, rfl, ?_, ?_⟩, rfl⟩, rfl⟩
  · cases category <;> rfl
  · intro key
    simp
  · intro c
    cases c <;> exact congrArg some (Nat.cast_ite _ 4 0).symm

theorem bracketItem_wf (index : Nat) (category : ModerationCategory) : (bracketItem index category).Wf := by
  have hscores : (Value.dict (moderationCategories.map fun c : ModerationCategory =>
      (c.value, Value.int (if c = category then 4 else 0)))).Wf := by
    refine .dict ?_ (by simpa using fun c => .int _)
    rw [List.map_map]
    exact (by decide : (moderationCategories.map ModerationCategory.value).Nodup)
  refine .dict (by simp) ?_
  simp only [List.forall_mem_cons, List.not_mem_nil, false_imp_iff, implies_true, and_true]
  exact ⟨.int _, .str _, hscores, .str _, .constant _⟩

/-- The text for one frame of each category. -/
def bracketText (categories : List ModerationCategory) : String :=
  dumps (.list (categories.mapIdx bracketItem))

theorem bracketText_parsed (categories : List ModerationCategory) (hne : categories ≠ []) :
    parseVisualBatchResponse asInt (bracketText categories) categories.length =
      .ok (categories.mapIdx bracketOutput) := by
  have hempty : ∀ c ∈ "".toList, ¬ OpenBracket c := fun c hc => absurd hc List.not_mem_nil
  have hreads : List.Forall₂ (FrameReads asInt) (categories.mapIdx bracketItem)
      (categories.mapIdx bracketOutput) := by
    refine List.forall₂_iff_get.mpr ⟨by simp, fun i hi _ => ?_⟩
    simpa using bracketItem_reads i _
  have hwf : ∀ item ∈ categories.mapIdx bracketItem, item.Wf := by
    intro item hitem
    obtain ⟨i, hi, rfl⟩ := List.mem_mapIdx.mp hitem
    exact bracketItem_wf i _
  have hbare : Wrapped (categories.mapIdx bracketItem) (.list (categories.mapIdx bracketItem)) := .bare .list
  have hload := loadModelJson_around (hbare.startsWithKey hreads (by simpa using hne)) (hbare.wf hwf) hempty hempty
  rw [String.empty_append, String.append_empty] at hload
  have hitems := hbare.visualItems_eq hreads
  rw [List.length_mapIdx] at hitems
  refine parseVisualBatchResponse_ok.mpr ⟨_, _, hload, hitems, by simp, parseFrames_ok.mpr ⟨?_, ?_⟩⟩
  · exact ((List.forall₂_and_left _ _).mpr ⟨hwf, hreads⟩).imp fun _ _ h =>
      modelValidate_of_frameReads h.1 h.2
  · refine List.ext_getElem (by simp) fun i hi _ => ?_
    simp [bracketOutput]

theorem bracket_frame_parsed : parseVisualBatchResponse asInt
    ("```json\n" ++ dumps (.dict [("results", .list [bracketItem 0 .porn, bracketItem 1 .gore])]) ++
      "\n``` \"done\"") 2 = .ok [bracketOutput 0 .porn, bracketOutput 1 .gore] :=
  valid_frames_parsed asInt (fun _ => rfl) (by simp) (by simp [bracketItem_wf])
    (.cons (bracketItem_reads 0 .porn) (.cons (bracketItem_reads 1 .gore) .nil)) rfl
    (.envelope (by decide) .list) (by simp [OpenBracket]) (by simp [OpenBracket])

/-! ## Accepted responses -/

/-- The fields that `FrameModerationOutput` declares. -/
def frameFields : List String := ["top_category", "categories", "reason", "frame_index"]

/-- The item with another value at `key`. -/
def withField (item : Value) (key : String) (value : Value) : Value :=
  match item with
  | .dict fields => .dict (setItem key value fields)
  | v => v

theorem modelValidate_withField (laxInt : Value → Option Int) (item : Value) {key : String}
    (value : Value) (hkey : key ∉ frameFields) :
    FrameModerationOutput.modelValidate laxInt (withField item key value) =
      FrameModerationOutput.modelValidate laxInt item := by
  have hother : ∀ field ∈ frameFields, ∀ fields : List (String × Value),
      (setItem key value fields).lookup field = fields.lookup field := by
    intro field hfield fields
    exact lookup_setItem_of_ne value fun h => hkey (h ▸ hfield)
  simp only [frameFields, List.forall_mem_cons, List.not_mem_nil, false_imp_iff, implies_true,
    and_true] at hother
  cases item with
  | dict fields =>
    simp only [withField, FrameModerationOutput.modelValidate, ModerationModelOutput.modelValidate,
      membersOf, Option.bind_eq_bind, Option.bind_some, hother]
  | _ => rfl

/-- The output was read from the item, and from nothing else in it than its own fields. -/
structure ReadFrom (laxInt : Value → Option Int) (item : Value) (output : FrameModerationOutput) :
    Prop where
  reads : FrameReads laxInt item output
  others_ignored : ∀ key value, key ∉ frameFields →
    FrameModerationOutput.modelValidate laxInt (withField item key value) = some output

/-- What holds of the output for the frame at `index`. -/
structure AcceptedAt (index : Nat) (output : FrameModerationOutput) : Prop where
  frameIndex : output.frameIndex = index
  severities : ∀ category, output.categories category ≤ 5
  safe : output.topCategory = .safe → ∀ category, category ≠ .safe → output.categories category = 0
  top : output.topCategory ≠ .safe → output.categories output.topCategory ≠ 0 ∧
    output.categories output.topCategory = maxUnsafeSeverity output.categories
  overallSeverity : output.overallSeverity = output.categories output.topCategory
  isNsfw : output.isNsfw = computeIsNsfw output.categories

theorem acceptedAt {index : Nat} {output : FrameModerationOutput} (h : output.frameIndex = index) :
    AcceptedAt index output where
  frameIndex := h
  severities := output.severity_le
  safe h category hcategory := by
    have hle := score_le_maxUnsafe output.categories hcategory
    rw [output.maxUnsafe_of_safe h] at hle
    omega
  top h := by
    obtain ⟨heq, hpos⟩ := output.overallSeverity_eq_max h
    rw [← heq] at hpos
    exact ⟨Nat.ne_of_gt hpos, heq⟩
  overallSeverity := rfl
  isNsfw := rfl

theorem readFrom_of_modelValidate {laxInt : Value → Option Int} {item : Value}
    {output : FrameModerationOutput}
    (h : FrameModerationOutput.modelValidate laxInt item = some output) : ReadFrom laxInt item output where
  reads := frameReads_of_modelValidate h
  others_ignored _ value hkey := (modelValidate_withField laxInt item value hkey).trans h

/-- A response is refused with status 502, or it is accepted with everything checked. -/
theorem response_accepted_or_refused (laxInt : Value → Option Int) (rawResponse : String)
    (expectedCount : Int) :
    (∃ code message, parseVisualBatchResponse laxInt rawResponse expectedCount =
      .error (.appError code message 502)) ∨
    ∃ payload items outputs,
      parseVisualBatchResponse laxInt rawResponse expectedCount = .ok outputs ∧
      (outputs.length : Int) = expectedCount ∧ loadModelJson rawResponse = .ok payload ∧
      visualItems (unwrapEnvelope payload visualEnvelopes) expectedCount = some items ∧
      List.Forall₂ (ReadFrom laxInt) items outputs ∧
      ∀ i (h : i < outputs.length), AcceptedAt i outputs[i] := by
  cases hparse : parseVisualBatchResponse laxInt rawResponse expectedCount with
  | error e =>
    obtain ⟨code, message, rfl⟩ := parseVisualBatchResponse_error hparse
    exact .inl ⟨code, message, rfl⟩
  | ok outputs =>
    obtain ⟨payload, items, hload, hitems, -, hframes⟩ := parseVisualBatchResponse_ok.mp hparse
    obtain ⟨hlength, hindices⟩ := parseVisualBatchResponse_shape hparse
    refine .inr ⟨payload, items, outputs, rfl, hlength, hload, hitems,
      (parseFrames_ok.mp hframes).1.imp fun _ _ => readFrom_of_modelValidate, fun i hi => acceptedAt ?_⟩
    have := congrArg (·[i]?) hindices
    simpa [hi] using this

end NsfwDetector
