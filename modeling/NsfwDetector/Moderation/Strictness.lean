import NsfwDetector.Moderation.Responses

/-!
# Scores as they are written

Before the validator sees a score, the decoder has dropped repeated keys and the schema has turned
some other values into integers. Here the accepted objects are read from the text once more, with
every member in its place.
-/

namespace NsfwDetector.Strictness

open Json

/-! ## Repeated keys -/

theorem setItem_map {α β : Type} (f : α → β) (key : String) (value : α) (d : List (String × α)) :
    setItem key (f value) (d.map fun m => (m.1, f m.2)) = (setItem key value d).map fun m => (m.1, f m.2) := by
  induction d with
  | nil => rfl
  | cons entry d ih =>
    simp only [List.map_cons, setItem]
    split
    · rfl
    · rw [ih, List.map_cons]

theorem dictOf_map {α β : Type} (f : α → β) (members : List (String × α)) :
    dictOf (members.map fun m => (m.1, f m.2)) = (dictOf members).map fun m => (m.1, f m.2) := by
  have hfold : ∀ d : List (String × α),
      (members.map fun m => (m.1, f m.2)).foldl (fun d m => setItem m.1 m.2 d)
        (d.map fun m => (m.1, f m.2)) =
      (members.foldl (fun d m => setItem m.1 m.2 d) d).map fun m => (m.1, f m.2) := by
    induction members with
    | nil => exact fun d => rfl
    | cons member members ih =>
      intro d
      rw [List.map_cons, List.foldl_cons, List.foldl_cons, setItem_map f, ih]
  exact hfold []

theorem mem_of_mem_setItem {α : Type} {key : String} {value : α} {d : List (String × α)}
    {entry : String × α} (h : entry ∈ setItem key value d) : entry = (key, value) ∨ entry ∈ d := by
  induction d with
  | nil => exact Or.inl (List.mem_singleton.mp h)
  | cons first d ih =>
    simp only [setItem] at h
    split at h
    · rcases List.mem_cons.mp h with rfl | h
      · exact Or.inl rfl
      · exact Or.inr (List.mem_cons_of_mem _ h)
    · rcases List.mem_cons.mp h with rfl | h
      · exact Or.inr List.mem_cons_self
      · exact (ih h).imp_right (List.mem_cons_of_mem _)

theorem mem_of_mem_dictOf {α : Type} {members : List (String × α)} {entry : String × α}
    (h : entry ∈ dictOf members) : entry ∈ members := by
  have hfold : ∀ d : List (String × α), entry ∈ members.foldl (fun d m => setItem m.1 m.2 d) d →
      entry ∈ d ∨ entry ∈ members := by
    clear h
    induction members with
    | nil => exact fun d h => Or.inl h
    | cons member members ih =>
      intro d h
      rcases ih _ h with h | h
      · rcases mem_of_mem_setItem h with rfl | h
        · exact Or.inr List.mem_cons_self
        · exact Or.inl h
      · exact Or.inr (List.mem_cons_of_mem _ h)
  exact (hfold [] h).resolve_left List.not_mem_nil

/-- What a dictionary holds at a key was written there. -/
theorem written_of_lookup {members : List (String × Value)} {key : String} {value : Value}
    (h : (dictOf (membersAsDicts members)).lookup key = some value) :
    ∃ written, (key, written) ∈ members ∧ written.asDicts = value := by
  rw [membersAsDicts_eq, dictOf_map] at h
  obtain ⟨⟨k, written⟩, hmem, heq⟩ := List.mem_map.mp (mem_of_lookup h)
  obtain ⟨rfl, rfl⟩ := Prod.mk.inj heq
  exact ⟨written, mem_of_mem_dictOf hmem, rfl⟩

theorem asDicts_eq_dict {v : Value} {fields : List (String × Value)} (h : v.asDicts = .dict fields) :
    ∃ members, v = .dict members ∧ fields = dictOf (membersAsDicts members) := by
  cases v with
  | dict members =>
    rw [Value.asDicts] at h
    exact ⟨members, rfl, (Value.dict.inj h).symm⟩
  | list items =>
    rw [Value.asDicts] at h
    cases h
  | _ => cases h

theorem asDicts_eq_list {v : Value} {items : List Value} (h : v.asDicts = .list items) :
    ∃ written, v = .list written ∧ items = written.map Value.asDicts := by
  cases v with
  | list written =>
    rw [Value.asDicts, itemsAsDicts_eq] at h
    exact ⟨written, rfl, (Value.list.inj h).symm⟩
  | dict members =>
    rw [Value.asDicts] at h
    cases h
  | _ => cases h

/-! ## The accepted objects -/

/-- The document that `_load_model_json` reads, as it is written. -/
def writtenDocument (rawResponse : String) : Option Value :=
  let candidate := strip (rawResponse.toList.dropWhile (· = '\uFEFF'))
  if (loads candidate).isSome then (scanValue (skipBlanks candidate)).map (·.1)
  else do
    let start ← nextJsonStart candidate 0
    (scanValue (candidate.drop start)).map (·.1)

/-- The envelope is taken off by the last of its equal keys. -/
def writtenEnvelope (payload : Value) (keys : List String) : Value :=
  match payload with
  | .dict members =>
    match dictOf members with
    | [(key, value)] => if key ∈ keys then value else payload
    | _ => payload
  | _ => payload

def objectsOf : Value → List Value
  | .list items => items
  | v => [v]

/-- The objects that are validated, as they are written. -/
def writtenObjects (rawResponse : String) (keys : List String) : List Value :=
  match writtenDocument rawResponse with
  | some v => objectsOf (writtenEnvelope v keys)
  | none => []

theorem writtenDocument_of_load {rawResponse : String} {payload : Value}
    (h : loadModelJson rawResponse = .ok payload) :
    ∃ v, writtenDocument rawResponse = some v ∧ v.asDicts = payload := by
  simp only [loadModelJson] at h
  unfold writtenDocument
  cases hloads : loads (strip (rawResponse.toList.dropWhile (· = '\uFEFF'))) with
  | some v =>
    simp only [hloads, Except.ok.injEq] at h
    subst h
    simp only [hloads, Option.isSome_some, if_true]
    simp only [loads, scanDocument, Option.ite_none_left_eq_some] at hloads
    obtain ⟨-, hloads⟩ := hloads
    cases hscan : scanValue (skipBlanks (strip (rawResponse.toList.dropWhile (· = '\uFEFF')))) with
    | none => simp [hscan] at hloads
    | some scanned =>
      simp only [hscan, Option.map_some, Option.ite_none_right_eq_some, Option.some.injEq] at hloads
      exact ⟨scanned.1, rfl, hloads.2⟩
  | none =>
    simp only [hloads] at h
    simp only [hloads, Option.isSome_none, Bool.false_eq_true, if_false]
    cases hextract : extractSingleJsonDocument (strip (rawResponse.toList.dropWhile (· = '\uFEFF'))) with
    | none => simp [hextract] at h
    | some v =>
      simp only [hextract, Except.ok.injEq] at h
      subst h
      simp only [extractSingleJsonDocument, rawDecode, scanDocument, Option.bind_eq_bind,
        Option.bind_eq_some_iff, Prod.exists, Option.map_eq_some_iff, Prod.mk.injEq,
        Option.ite_none_right_eq_some, Option.pure_def, Option.some.injEq] at hextract
      obtain ⟨start, hstart, _, _, ⟨_, _, ⟨v, rest, hscan, rfl, -⟩, rfl, -⟩, -, rfl⟩ := hextract
      exact ⟨v, by simp [hstart, hscan], rfl⟩

theorem writtenEnvelope_asDicts (v : Value) (keys : List String) :
    (writtenEnvelope v keys).asDicts = unwrapEnvelope v.asDicts keys := by
  cases v with
  | dict members =>
    have hdict : (Value.dict members).asDicts =
        .dict ((dictOf members).map fun member => (member.1, member.2.asDicts)) := by
      rw [Value.asDicts, membersAsDicts_eq, dictOf_map]
    simp only [writtenEnvelope, hdict]
    cases hmembers : dictOf members with
    | nil => simp [unwrapEnvelope, hdict, hmembers]
    | cons member rest =>
      cases rest with
      | nil =>
        simp only [List.map_cons, List.map_nil, unwrapEnvelope]
        split
        · rfl
        · rw [hdict, hmembers]
          rfl
      | cons _ _ => simp [unwrapEnvelope, hdict, hmembers]
  | list items =>
    have hlist : writtenEnvelope (.list items) keys = .list items := rfl
    rw [hlist, Value.asDicts]
    rfl
  | _ => rfl

theorem objectsOf_visual {v : Value} {expectedCount : Int} {items : List Value}
    (h : visualItems v.asDicts expectedCount = some items) :
    (objectsOf v).map Value.asDicts = items := by
  unfold visualItems at h
  split at h
  · next hlist =>
    obtain ⟨written, rfl, rfl⟩ := asDicts_eq_list hlist
    exact Option.some.inj h
  · next fields hdict =>
    obtain ⟨members, rfl, -⟩ := asDicts_eq_dict hdict
    simp only [Option.ite_none_right_eq_some, Option.some.injEq] at h
    rw [← h.2, objectsOf, List.map_singleton, hdict]
    exact fun items h => Value.noConfusion h
  · cases h

/-! ## Scores -/

/-- Every score that stands in the `categories` of an object. -/
def writtenScores : Value → List (String × Value)
  | .dict fields => fields.flatMap fun (key, value) =>
    if key = "categories" then (membersOf value).getD [] else []
  | _ => []

/-- Each category stands there once, with an integer between 0 and 5. -/
def Strict (item : Value) : Prop :=
  ∀ category : ModerationCategory, ∃ n : Int, 0 ≤ n ∧ n ≤ 5 ∧
    (writtenScores item).filter (·.1 = category.value) = [(category.value, .int n)]

/-- What the schema may turn into an integer though it is none. -/
inductive Coercible : Value → Prop
  | bool (b : Bool) : Coercible (.constant (.bool b))
  | float (x : FloatLiteral) : Coercible (.float x)
  | str (s : String) : Coercible (.str s)

/-- No score is coerced and none is dropped. -/
structure Uncoerced (item : Value) : Prop where
  plain : ∀ (category : ModerationCategory) (value : Value),
    (category.value, value) ∈ writtenScores item → ¬ Coercible value
  once : ∀ category : ModerationCategory,
    ((writtenScores item).filter (·.1 = category.value)).length ≤ 1

theorem strict_uncoerced {item : Value} (h : Strict item) : Uncoerced item := by
  constructor
  · intro category value hmem hcoercible
    obtain ⟨n, -, -, hfilter⟩ := h category
    have hin : (category.value, value) ∈ (writtenScores item).filter (·.1 = category.value) :=
      List.mem_filter.mpr ⟨hmem, by simp⟩
    rw [hfilter, List.mem_singleton, Prod.mk.injEq] at hin
    rw [hin.2] at hcoercible
    cases hcoercible
  · intro category
    obtain ⟨n, -, -, hfilter⟩ := h category
    rw [hfilter]
    exact le_rfl

/-- The object, read as a dictionary, is the one that the output was validated from. -/
def Validated (laxInt : Value → Option Int) (item : Value) (output : ModerationModelOutput) : Prop :=
  ∃ fields, item.asDicts = .dict fields ∧ ModelReads laxInt fields output

section

variable {laxInt : Value → Option Int}

theorem visual_validated {rawResponse : String} {expectedCount : Int}
    {outputs : List FrameModerationOutput}
    (h : parseVisualBatchResponse laxInt rawResponse expectedCount = .ok outputs) :
    List.Forall₂ (fun item output => Validated laxInt item output.toModerationModelOutput)
      (writtenObjects rawResponse visualEnvelopes) outputs := by
  obtain ⟨payload, items, hload, hitems, -, hframes⟩ := parseVisualBatchResponse_ok.mp h
  obtain ⟨v, hv, rfl⟩ := writtenDocument_of_load hload
  rw [← writtenEnvelope_asDicts] at hitems
  have hvalid := (parseFrames_ok.mp hframes).1
  rw [← objectsOf_visual hitems, List.forall₂_map_left_iff] at hvalid
  simp only [writtenObjects, hv]
  refine hvalid.imp fun item output hitem => ?_
  obtain ⟨fields, hfields, hreads, -⟩ := (frameReads_of_modelValidate hitem).fields
  exact ⟨fields, hfields, hreads⟩

theorem text_object {rawResponse : String} {payload : Value} {keys : List String}
    {fields : List (String × Value)} (h : loadModelJson rawResponse = .ok payload)
    (hfields : unwrapEnvelope payload keys = .dict fields) :
    ∃ item, writtenObjects rawResponse keys = [item] ∧ item.asDicts = .dict fields := by
  obtain ⟨v, hv, rfl⟩ := writtenDocument_of_load h
  rw [← writtenEnvelope_asDicts] at hfields
  obtain ⟨members, hmembers, -⟩ := asDicts_eq_dict hfields
  refine ⟨.dict members, ?_, hmembers ▸ hfields⟩
  simp only [writtenObjects, hv, hmembers, objectsOf]

theorem parseTextModerationResponse_of_load {rawResponse : String} {payload : Value}
    {fields : List (String × Value)} {output : ModerationModelOutput}
    (hload : loadModelJson rawResponse = .ok payload)
    (hfields : unwrapEnvelope payload ["result", "moderation"] = .dict fields)
    (hvalid : ModerationModelOutput.modelValidate laxInt (.dict fields) = some output) :
    parseTextModerationResponse laxInt rawResponse = .ok output := by
  simp only [parseTextModerationResponse, hload, bind, Except.bind, hfields, hvalid]

theorem text_validated {rawResponse : String} {output : ModerationModelOutput}
    (h : parseTextModerationResponse laxInt rawResponse = .ok output) :
    ∃ item, writtenObjects rawResponse ["result", "moderation"] = [item] ∧
      Validated laxInt item output := by
  cases hload : loadModelJson rawResponse with
  | error e => simp [parseTextModerationResponse, hload, bind, Except.bind] at h
  | ok payload =>
    simp only [parseTextModerationResponse, hload, bind, Except.bind] at h
    split at h
    · next fields hfields =>
      obtain ⟨item, hitem, hdict⟩ := text_object hload hfields
      split at h
      · next hvalid =>
        cases h
        exact ⟨item, hitem, fields, hdict, modelReads_of_modelValidate hvalid⟩
      · cases h
    · cases h

theorem written_at {item v : Value} {fields scores : List (String × Value)} {key : String}
    (hitem : item.asDicts = .dict fields) (hcategories : fields.lookup "categories" = some (.dict scores))
    (hv : scores.lookup key = some v) :
    ∃ written, (key, written) ∈ writtenScores item ∧ written.asDicts = v := by
  obtain ⟨members, rfl, rfl⟩ := asDicts_eq_dict hitem
  obtain ⟨written, hwritten, hdict⟩ := written_of_lookup hcategories
  obtain ⟨writtenMembers, rfl, rfl⟩ := asDicts_eq_dict hdict
  obtain ⟨score, hmem, hscore⟩ := written_of_lookup hv
  exact ⟨score, List.mem_flatMap.mpr ⟨_, hwritten, hmem⟩, hscore⟩

/-- A score that was read stands in the text. -/
theorem written_score {item : Value} {output : ModerationModelOutput} (h : Validated laxInt item output)
    (category : ModerationCategory) : ∃ written, (category.value, written) ∈ writtenScores item ∧
      laxInt written.asDicts = some (output.categories category : Int) := by
  obtain ⟨fields, hitem, hreads⟩ := h
  obtain ⟨scores, hcategories, hread⟩ := hreads.categories
  obtain ⟨v, hv, hscore⟩ := Option.bind_eq_some_iff.mp (hread.scores category)
  obtain ⟨written, hmem, rfl⟩ := written_at hitem hcategories hv
  exact ⟨written, hmem, hscore⟩

variable (hlax : ∀ v n, laxInt v = some n → v = .int n ∨ Coercible v)

include hlax

theorem int_or_coercible {v : Value} {n : Int} (h : laxInt v.asDicts = some n) :
    v = .int n ∨ Coercible v := by
  cases v with
  | list items =>
    rw [Value.asDicts] at h
    rcases hlax _ _ h with h | h <;> cases h
  | dict members =>
    rw [Value.asDicts] at h
    rcases hlax _ _ h with h | h <;> cases h
  | _ => exact hlax _ _ h

theorem strict_of_uncoerced {item : Value} {output : ModerationModelOutput}
    (h : Validated laxInt item output) (huncoerced : Uncoerced item) : Strict item := by
  intro category
  obtain ⟨written, hmem, hscore⟩ := written_score h category
  rcases int_or_coercible hlax hscore with rfl | hcoercible
  · refine ⟨output.categories category, Int.natCast_nonneg _, ?_, ?_⟩
    · exact_mod_cast output.severity_le category
    · have hin : (category.value, Value.int (output.categories category)) ∈
          (writtenScores item).filter (·.1 = category.value) :=
        List.mem_filter.mpr ⟨hmem, by simp⟩
      obtain ⟨only, honly⟩ : ∃ only, (writtenScores item).filter (·.1 = category.value) = [only] := by
        rw [← List.length_eq_one_iff]
        have := huncoerced.once category
        have := List.length_pos_of_mem hin
        omega
      rw [honly, List.mem_singleton] at hin
      rw [honly, hin]
  · exact absurd hcoercible (huncoerced.plain category written hmem)

theorem all_strict_iff {items : List Value} {outputs : List ModerationModelOutput}
    (h : List.Forall₂ (Validated laxInt) items outputs) :
    (∀ item ∈ items, Strict item) ↔ ∀ item ∈ items, Uncoerced item := by
  refine ⟨fun hall item hitem => strict_uncoerced (hall item hitem), fun hall => ?_⟩
  induction h with
  | nil => exact fun _ hitem => absurd hitem List.not_mem_nil
  | cons hvalid _ ih =>
    obtain ⟨hhead, htail⟩ := List.forall_mem_cons.mp hall
    exact List.forall_mem_cons.mpr ⟨strict_of_uncoerced hlax hvalid hhead, ih htail⟩

end

/-- An accepted text is strict exactly when it writes no score as a boolean, a float or a string, and
none twice. -/
theorem accepted_strict_iff (laxInt : Value → Option Int)
    (hlax : ∀ v n, laxInt v = some n → v = .int n ∨ Coercible v) :
    (∀ (rawResponse : String) (expectedCount : Int) (outputs : List FrameModerationOutput),
      parseVisualBatchResponse laxInt rawResponse expectedCount = .ok outputs →
        (writtenObjects rawResponse visualEnvelopes).length = outputs.length ∧
        ((∀ item ∈ writtenObjects rawResponse visualEnvelopes, Strict item) ↔
          ∀ item ∈ writtenObjects rawResponse visualEnvelopes, Uncoerced item)) ∧
    ∀ (rawResponse : String) (output : ModerationModelOutput),
      parseTextModerationResponse laxInt rawResponse = .ok output →
        ∃ item, writtenObjects rawResponse ["result", "moderation"] = [item] ∧
          (Strict item ↔ Uncoerced item) := by
  constructor
  · intro rawResponse expectedCount outputs h
    have hvalid := visual_validated h
    refine ⟨hvalid.length_eq, @all_strict_iff laxInt hlax _ (outputs.map (·.toModerationModelOutput)) ?_⟩
    rw [List.forall₂_map_right_iff]
    exact hvalid
  · intro rawResponse output h
    obtain ⟨item, hitem, hvalid⟩ := text_validated h
    exact ⟨item, hitem, strict_uncoerced, strict_of_uncoerced hlax hvalid⟩

/-! ## A score that is no number -/

/-- Integers as they are, and booleans as 0 and 1. -/
def intOrBool : Value → Option Int
  | .int n => some n
  | .constant (.bool b) => some (if b then 1 else 0)
  | _ => none

theorem intOrBool_lax (v : Value) (n : Int) (h : intOrBool v = some n) : v = .int n ∨ Coercible v := by
  cases v with
  | int m => exact Or.inl (congrArg Value.int (Option.some.inj h))
  | constant c =>
    cases c with
    | bool b => exact Or.inr (.bool b)
    | _ => cases h
  | _ => cases h

/-- Text that scores pornography like this. -/
def pornItem (score : Value) : List (String × Value) :=
  [("top_category", .str "porn"),
    ("categories", .dict (moderationCategories.map fun c => (c.value, if c = .porn then score else .int 0))),
    ("reason", .str "explicit")]

def pornOutput : ModerationModelOutput where
  topCategory := .porn
  categories := fun c => if c = .porn then 1 else 0
  reason := "explicit"
  severity_le := by decide
  top_matches := by decide

section

variable {score : Value}

theorem pornItem_wf (hscore : score.Wf) : (Value.dict (pornItem score)).Wf := by
  have hscores : (Value.dict (moderationCategories.map fun c : ModerationCategory =>
      (c.value, if c = .porn then score else Value.int 0))).Wf := by
    refine .dict ?_ ?_
    · rw [List.map_map]
      exact (by decide : (moderationCategories.map ModerationCategory.value).Nodup)
    · simp only [List.forall_mem_map]
      intro c _
      split
      · exact hscore
      · exact .int _
  refine .dict (by simp [pornItem]) ?_
  simp only [pornItem, List.forall_mem_cons, List.not_mem_nil, false_imp_iff, implies_true, and_true]
  exact ⟨.str _, hscores, .str _⟩

theorem pornItem_loads (hscore : score.Wf) :
    loadModelJson (dumps (.dict (pornItem score))) = .ok (.dict (pornItem score)) := by
  have halone : "" ++ dumps (.dict (pornItem score)) ++ "" = dumps (.dict (pornItem score)) := by simp
  rw [← halone]
  exact loadModelJson_around (.dict _ _) (pornItem_wf hscore) (by simp) (by simp)

theorem pornItem_parsed (hscore : score.Wf) (hone : intOrBool score = some 1) :
    parseTextModerationResponse intOrBool (dumps (.dict (pornItem score))) = .ok pornOutput := by
  have hreads : ModelReads intOrBool (pornItem score) pornOutput := by
    refine ⟨rfl, ⟨_, rfl, fun key => by simp, fun category => ?_⟩, rfl⟩
    cases category with
    | porn => exact hone
    | _ => rfl
  have hunwrap : unwrapEnvelope (.dict (pornItem score)) ["result", "moderation"] =
      .dict (pornItem score) := rfl
  exact parseTextModerationResponse_of_load (pornItem_loads hscore) hunwrap
    (modelValidate_of_modelReads (pornItem_wf hscore) hreads)

end

/-- The score `true` is accepted as 1. -/
theorem true_score_accepted : ∃ rawResponse output,
    parseTextModerationResponse intOrBool rawResponse = .ok output ∧
      ¬ ∀ item ∈ writtenObjects rawResponse ["result", "moderation"], Strict item := by
  have hwf : (Value.constant (.bool true)).Wf := .constant _
  refine ⟨_, _, pornItem_parsed hwf rfl, fun hall => ?_⟩
  have hunwrap : unwrapEnvelope (.dict (pornItem (.constant (.bool true)))) ["result", "moderation"] =
      .dict (pornItem (.constant (.bool true))) := rfl
  obtain ⟨item, hitem, hdict⟩ := text_object (pornItem_loads hwf) hunwrap
  obtain ⟨written, hmem, hwritten⟩ : ∃ written, (ModerationCategory.porn.value, written) ∈
      writtenScores item ∧ written.asDicts = .constant (.bool true) := written_at hdict rfl rfl
  have hstrict := strict_uncoerced (hall item (by rw [hitem]; exact List.mem_singleton_self item))
  refine hstrict.plain .porn written hmem ?_
  cases written with
  | constant c =>
    rw [Value.asDicts] at hwritten
    · rw [hwritten]
      exact .bool true
    all_goals simp
  | list items =>
    rw [Value.asDicts] at hwritten
    cases hwritten
  | dict members =>
    rw [Value.asDicts] at hwritten
    cases hwritten
  | _ => cases hwritten

/-- The text of an object is written as that object. -/
theorem writtenDocument_dumps {member : String × Value} {members : List (String × Value)} :
    writtenDocument (dumps (.dict (member :: members))) = some (.dict (member :: members)) := by
  obtain ⟨before, after, hstrip, hbefore, hafter⟩ := strip_around (.dict member members) [] []
  obtain rfl := List.eq_nil_iff_forall_not_mem.mpr fun c hc => List.not_mem_nil (hbefore c hc)
  obtain rfl := List.eq_nil_iff_forall_not_mem.mpr fun c hc => List.not_mem_nil (hafter c hc)
  rw [List.nil_append, List.append_nil] at hstrip
  have hscan := scanValue_container (v := .dict (member :: members)) rfl []
  rw [List.append_nil] at hscan
  have hblanks : skipBlanks (Value.dict (member :: members)).text = (Value.dict (member :: members)).text := by
    rw [Value.text, skipBlanks_cons (by decide)]
  have hloads : (loads (Value.dict (member :: members)).text).isSome := by
    rw [loads, if_neg (by simp [Value.text]), hblanks, scanDocument, hscan]
    simp [skipBlanks]
  rw [writtenDocument, dumps, String.toList_ofList, hstrip]
  simp only [hloads, if_true, hblanks, hscan, Option.map_some]

/-- A score that is an integer. -/
theorem accepted_strict_iff_one : ∃ item,
    writtenObjects (dumps (.dict (pornItem (.int 1)))) ["result", "moderation"] = [item] ∧ Strict item := by
  obtain ⟨item, hitem, hiff⟩ :=
    (accepted_strict_iff intOrBool intOrBool_lax).2 _ _ (pornItem_parsed (.int 1) rfl)
  have hwritten : writtenObjects (dumps (.dict (pornItem (.int 1)))) ["result", "moderation"] =
      [.dict (pornItem (.int 1))] := by
    rw [writtenObjects, pornItem, writtenDocument_dumps]
    rfl
  obtain rfl := List.singleton_inj.mp (hitem.symm.trans hwritten)
  refine ⟨_, hitem, hiff.mpr ⟨fun category value hmem => ?_, fun category => ?_⟩⟩
  · have hscores : writtenScores (.dict (pornItem (.int 1))) =
        moderationCategories.map fun c => (c.value, if c = .porn then .int 1 else .int 0) := rfl
    rw [hscores] at hmem
    obtain ⟨c, -, hc⟩ := List.mem_map.mp hmem
    obtain ⟨-, rfl⟩ := Prod.mk.inj hc
    split <;> nofun
  · cases category <;> exact le_rfl

end NsfwDetector.Strictness
