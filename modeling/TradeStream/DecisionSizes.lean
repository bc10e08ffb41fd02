import TradeStream.InsertionDict
import TradeStream.JsonSize

/-! The size limits of a stored decision: `validate_jsonb_sizes` of the autonomous runner. -/
namespace TradeStream.DecisionSizes
open TradeStream.InsertionDict TradeStream.JsonText

/-- Numbers, the integers among them in decimal. -/
structure PythonNumbers (N : Type) extends NumberText N where
  int : ℤ → N
  print_int : ∀ n : ℕ, print (int n) = Nat.toDigits 10 n

def maxToolCalls : ℕ := 50

def maxToolCallResultSize : ℕ := 5 * 1024

def maxToolCallsTotalSize : ℕ := 100 * 1024

def maxStrategyBreakdownSize : ℕ := 50 * 1024

def maxOpportunityFactorsSize : ℕ := 10 * 1024

def maxMarketContextSize : ℕ := 10 * 1024

/-- The fields of a decision that are stored as JSON. -/
structure AgentDecision (N : Type) where
  toolCalls : List (String × Json N)
  strategyBreakdown : Json N
  opportunityFactors : Json N
  marketContext : Json N

variable {N : Type} (numbers : PythonNumbers N)

/-- `len(json.dumps(data))`. -/
def dumpsSize (v : Json N) : ℕ := size numbers.toNumberText v

/-- What is stored instead of a value of that size. -/
def marker (key : String) (n : ℕ) : Json N :=
  .obj [("truncated", .bool true), (key, .num (numbers.int n))]

/-- `_truncate_if_needed`. -/
def truncateIfNeeded (data : Json N) (maxSize : ℕ) : Json N :=
  if dumpsSize numbers data ≤ maxSize then data
  else marker numbers "original_size" (dumpsSize numbers data)

/-- `len(v)`; `none` stands for an exception. -/
def pyLen : Json N → Option ℕ
  | .arr items => some items.length
  | .str text => some text.length
  | .obj fields => some fields.length
  | _ => none

/-- `v[:n]`. -/
def firstOf (n : ℕ) : Json N → Option (Json N)
  | .arr items => some (.arr (items.take n))
  | .str text => some (.str (String.ofList (text.toList.take n)))
  | _ => none

def resultOf (fields : List (String × Json N)) : Json N :=
  (fields.lookup "result").getD (.obj [])

/-- The body of the loop. Only a dict has a `get`. -/
def validateCall : Json N → Option (Json N)
  | .obj fields =>
    let resultSize := dumpsSize numbers (resultOf fields)
    if maxToolCallResultSize < resultSize then
      some (.obj (setItem fields "result" (marker numbers "size" resultSize)))
    else some (.obj fields)
  | _ => none

/-- The loop. What a string or a dict yields are strings, which have no `get`. -/
def validateCalls : Json N → Option (Json N)
  | .arr items => (items.mapM (validateCall numbers)).map .arr
  | .str text => if text = "" then some (.str text) else none
  | .obj fields => if fields = [] then some (.obj fields) else none
  | _ => none

def callsField (toolCalls : List (String × Json N)) : Json N :=
  (toolCalls.lookup "calls").getD (.arr [])

/-- `truncated` and `original_count`. -/
def markCount (toolCalls : List (String × Json N)) (count : ℕ) : List (String × Json N) :=
  setItem (setItem toolCalls "truncated" (.bool true)) "original_count" (.num (numbers.int count))

/-- `_validate_tool_calls`. -/
def validateToolCalls (toolCalls : List (String × Json N)) :
    Option (List (String × Json N)) := do
  let calls := callsField toolCalls
  let count ← pyLen calls
  if maxToolCalls < count then
    let calls ← firstOf maxToolCalls calls
    let calls ← validateCalls numbers calls
    return setItem (markCount numbers toolCalls count) "calls" calls
  else
    let calls ← validateCalls numbers calls
    return setItem toolCalls "calls" calls

def validateJsonbSizes (d : AgentDecision N) : Option (AgentDecision N) := do
  let toolCalls ← validateToolCalls numbers d.toolCalls
  return {
    toolCalls := toolCalls
    strategyBreakdown := truncateIfNeeded numbers d.strategyBreakdown maxStrategyBreakdownSize
    opportunityFactors := truncateIfNeeded numbers d.opportunityFactors maxOpportunityFactorsSize
    marketContext := truncateIfNeeded numbers d.marketContext maxMarketContextSize }

/-! ### The limits -/

/-- The calls of a list, or none where an empty string or dict stands for it. -/
def callsOf (toolCalls : List (String × Json N)) : Option (List (Json N)) :=
  match callsField toolCalls with
  | .arr items => some items
  | .str text => if text = "" then some [] else none
  | .obj fields => if fields = [] then some [] else none
  | _ => none

/-- The limits of the fields as they are stored. -/
structure Respects (d : AgentDecision N) : Prop where
  total : dumpsSize numbers (.obj d.toolCalls) ≤ maxToolCallsTotalSize
  calls : ∃ calls, callsOf d.toolCalls = some calls ∧ calls.length ≤ maxToolCalls ∧
    ∀ call ∈ calls, ∃ fields, call = .obj fields ∧
      dumpsSize numbers (resultOf fields) ≤ maxToolCallResultSize
  strategyBreakdown : dumpsSize numbers d.strategyBreakdown ≤ maxStrategyBreakdownSize
  opportunityFactors : dumpsSize numbers d.opportunityFactors ≤ maxOpportunityFactorsSize
  marketContext : dumpsSize numbers d.marketContext ≤ maxMarketContextSize

/-- The decision is validated, to one that keeps the limits and that another validation leaves
as it is. -/
def Bounded (d : AgentDecision N) : Prop :=
  ∃ d', validateJsonbSizes numbers d = some d' ∧ Respects numbers d' ∧
    validateJsonbSizes numbers d' = some d'

/-- `{"truncated": true, key: n}`. -/
def markerSize (key : String) (n : ℕ) : ℕ := 23 + keySize key + (Nat.toDigits 10 n).length

/-- Where the value is too large, what is stored for it is not. -/
def Fits (maxSize : ℕ) (key : String) (v : Json N) : Prop :=
  maxSize < dumpsSize numbers v → markerSize key (dumpsSize numbers v) ≤ maxSize

/-- The size of a call, where that of a result too large is the size of its marker. -/
def keptCallSize : Json N → ℕ
  | .obj fields =>
    let sizes := fieldSizes numbers.toNumberText fields
    let resultSize := dumpsSize numbers (resultOf fields)
    objectSize (if maxToolCallResultSize < resultSize then
      setItem sizes "result" (markerSize "size" resultSize) else sizes)
  | v => dumpsSize numbers v

/-- The sizes of the other fields, of the two marks of a list too long and of its first calls,
as they are in one text. -/
def storedSize (toolCalls : List (String × Json N)) (calls : List (Json N)) : ℕ :=
  let sizes := fieldSizes numbers.toNumberText toolCalls
  let marked := if maxToolCalls < calls.length then
    setItem (setItem sizes "truncated" 4) "original_count" (Nat.toDigits 10 calls.length).length
    else sizes
  objectSize (setItem marked "calls"
    (arraySize ((calls.take maxToolCalls).map (keptCallSize numbers))))

/-- The first calls are dicts, and what they and the other fields take is within the total. -/
structure Storable (d : AgentDecision N) : Prop where
  calls : ∃ calls, callsOf d.toolCalls = some calls ∧
    (∀ call ∈ calls.take maxToolCalls, ∃ fields, call = .obj fields ∧
      Fits numbers maxToolCallResultSize "size" (resultOf fields)) ∧
    storedSize numbers d.toolCalls calls ≤ maxToolCallsTotalSize
  strategyBreakdown : Fits numbers maxStrategyBreakdownSize "original_size" d.strategyBreakdown
  opportunityFactors : Fits numbers maxOpportunityFactorsSize "original_size" d.opportunityFactors
  marketContext : Fits numbers maxMarketContextSize "original_size" d.marketContext

/-! ### Markers -/

theorem size_marker (key : String) (n : ℕ) :
    dumpsSize numbers (marker numbers key n) = markerSize key n := by
  have htruncated : keySize "truncated" = 11 := by decide
  have htrue : size numbers.toNumberText (.bool true) = 4 := rfl
  have hnumber : size numbers.toNumberText (.num (numbers.int n)) = (Nat.toDigits 10 n).length := by
    rw [size, chars, numbers.print_int]
  rw [dumpsSize, marker, size_obj, objectSize, fieldSizes, markerSize]
  simp only [List.map_cons, List.map_nil, List.sum_cons, List.sum_nil, htruncated, htrue, hnumber]
  omega

theorem truncateIfNeeded_le_iff (v : Json N) (maxSize : ℕ) :
    dumpsSize numbers (truncateIfNeeded numbers v maxSize) ≤ maxSize ↔
      Fits numbers maxSize "original_size" v := by
  rw [truncateIfNeeded, Fits]
  split_ifs with h
  · exact iff_of_true h fun hlt => absurd hlt h.not_gt
  · rw [size_marker]
    exact (imp_iff_right (not_le.mp h)).symm

theorem truncateIfNeeded_of_le {v : Json N} {maxSize : ℕ} (h : dumpsSize numbers v ≤ maxSize) :
    truncateIfNeeded numbers v maxSize = v :=
  if_pos h

/-- No text that can be made is long enough for its length not to fit. -/
theorem fits_of_lt {maxSize digits : ℕ} {key : String} {v : Json N} (hpos : 0 < digits)
    (hdigits : 23 + keySize key + digits ≤ maxSize) (h : dumpsSize numbers v < 10 ^ digits) :
    Fits numbers maxSize key v := by
  intro _
  have hlength := Nat.toDigits_length 10 _ digits hpos h
  rw [markerSize]
  omega

/-! ### The loop over the calls -/

def IsObject (v : Json N) : Prop := ∃ fields, v = .obj fields

/-- A call as the loop leaves it. -/
def cutResult (fields : List (String × Json N)) : List (String × Json N) :=
  let resultSize := dumpsSize numbers (resultOf fields)
  if maxToolCallResultSize < resultSize then
    setItem fields "result" (marker numbers "size" resultSize)
  else fields

def cutCall : Json N → Json N
  | .obj fields => .obj (cutResult numbers fields)
  | v => v

theorem validateCall_eq_some_iff {call call' : Json N} :
    validateCall numbers call = some call' ↔ IsObject call ∧ call' = cutCall numbers call := by
  cases call with
  | obj fields =>
    have hcut : validateCall numbers (.obj fields) = some (cutCall numbers (.obj fields)) := by
      rw [validateCall, cutCall, cutResult]
      split_ifs <;> rfl
    rw [hcut, Option.some_inj]
    constructor
    · rintro rfl
      exact ⟨⟨fields, rfl⟩, rfl⟩
    · rintro ⟨-, rfl⟩
      rfl
  | _ =>
    refine iff_of_false (by simp [validateCall]) ?_
    rintro ⟨⟨fields, h⟩, -⟩
    cases h

theorem mapM_validateCall_eq_some_iff {items items' : List (Json N)} :
    items.mapM (validateCall numbers) = some items' ↔
      (∀ call ∈ items, IsObject call) ∧ items' = items.map (cutCall numbers) := by
  induction items generalizing items' with
  | nil => simp [eq_comm]
  | cons call items ih =>
    simp only [List.mapM_cons, Option.bind_eq_bind, Option.bind_eq_some_iff, Option.pure_def,
      Option.some_inj, validateCall_eq_some_iff, ih, List.forall_mem_cons, List.map_cons]
    constructor
    · rintro ⟨_, ⟨hcall, rfl⟩, _, ⟨hitems, rfl⟩, rfl⟩
      exact ⟨⟨hcall, hitems⟩, rfl⟩
    · rintro ⟨⟨hcall, hitems⟩, rfl⟩
      exact ⟨_, ⟨hcall, rfl⟩, _, ⟨hitems, rfl⟩, rfl⟩

/-- What is stored of the calls. -/
def keptCalls : Json N → Json N
  | .arr items => .arr ((items.take maxToolCalls).map (cutCall numbers))
  | v => v

def stored (toolCalls : List (String × Json N)) (calls : List (Json N)) :
    List (String × Json N) :=
  setItem (if maxToolCalls < calls.length then markCount numbers toolCalls calls.length
    else toolCalls) "calls" (keptCalls numbers (callsField toolCalls))

/-- A list is cut to its first calls, which are all of a short one. -/
theorem validateToolCalls_arr {toolCalls : List (String × Json N)} {items : List (Json N)}
    (hcalls : callsField toolCalls = .arr items) :
    validateToolCalls numbers toolCalls =
      ((items.take maxToolCalls).mapM (validateCall numbers)).map fun kept =>
        setItem (if maxToolCalls < items.length then markCount numbers toolCalls items.length
          else toolCalls) "calls" (.arr kept) := by
  rw [validateToolCalls, hcalls]
  simp only [pyLen, Option.bind_eq_bind, Option.bind_some]
  split_ifs with hmany
  · simp only [firstOf, validateCalls, Option.bind_some, Option.bind_map]
    rw [Option.map_eq_bind]
    rfl
  · rw [List.take_of_length_le (not_lt.mp hmany)]
    simp only [validateCalls, Option.bind_map]
    rw [Option.map_eq_bind]
    rfl

theorem validateToolCalls_eq_some_iff {toolCalls out : List (String × Json N)} :
    validateToolCalls numbers toolCalls = some out ↔ ∃ calls, callsOf toolCalls = some calls ∧
      (∀ call ∈ calls.take maxToolCalls, IsObject call) ∧ out = stored numbers toolCalls calls := by
  rw [callsOf]
  cases hcalls : callsField toolCalls with
  | arr items =>
    rw [validateToolCalls_arr numbers hcalls]
    simp only [Option.map_eq_some_iff, mapM_validateCall_eq_some_iff, stored, hcalls, keptCalls,
      Option.some_inj]
    constructor
    · rintro ⟨_, ⟨hobjects, rfl⟩, rfl⟩
      exact ⟨items, rfl, hobjects, rfl⟩
    · rintro ⟨_, rfl, hobjects, rfl⟩
      exact ⟨_, ⟨hobjects, rfl⟩, rfl⟩
  | str text =>
    by_cases hempty : text = ""
    · subst hempty
      simp [validateToolCalls, hcalls, pyLen, validateCalls, stored, keptCalls, eq_comm]
    · have hcut : String.ofList (text.toList.take maxToolCalls) ≠ "" := by
        intro h
        have hlist := congrArg String.toList h
        simp [maxToolCalls, hempty] at hlist
      have hnone : validateToolCalls numbers toolCalls = none := by
        simp [validateToolCalls, hcalls, pyLen, validateCalls, firstOf, hempty, hcut]
      simp [hnone, hempty]
  | obj fields =>
    by_cases hempty : fields = []
    · subst hempty
      simp [validateToolCalls, hcalls, pyLen, validateCalls, stored, keptCalls, eq_comm]
    · have hnone : validateToolCalls numbers toolCalls = none := by
        simp [validateToolCalls, hcalls, pyLen, validateCalls, firstOf, hempty]
      simp [hnone, hempty]
  | null => simp [validateToolCalls, hcalls, pyLen]
  | bool b => simp [validateToolCalls, hcalls, pyLen]
  | num n => simp [validateToolCalls, hcalls, pyLen]

/-! ### What is stored -/

theorem fieldSizes_setItem (fields : List (String × Json N)) (key : String) (v : Json N) :
    fieldSizes numbers.toNumberText (setItem fields key v) =
      setItem (fieldSizes numbers.toNumberText fields) key (dumpsSize numbers v) :=
  map_setItem (size numbers.toNumberText) fields key v

theorem size_cutCall (call : Json N) :
    dumpsSize numbers (cutCall numbers call) = keptCallSize numbers call := by
  cases call with
  | obj fields =>
    rw [cutCall, keptCallSize, dumpsSize, size_obj, cutResult,
      apply_ite (fieldSizes numbers.toNumberText), fieldSizes_setItem, size_marker]
  | _ => rfl

/-- The calls are a list, or there are none of them. -/
theorem callsOf_cases {toolCalls : List (String × Json N)} {calls : List (Json N)}
    (hcalls : callsOf toolCalls = some calls) :
    callsField toolCalls = .arr calls ∨
      calls = [] ∧ (callsField toolCalls = .str "" ∨ callsField toolCalls = .obj []) := by
  rw [callsOf] at hcalls
  cases hfield : callsField toolCalls with
  | arr items =>
    rw [hfield] at hcalls
    exact Or.inl (congrArg Json.arr (Option.some.inj hcalls))
  | str text =>
    simp only [hfield, Option.ite_none_right_eq_some] at hcalls
    obtain ⟨rfl, hnil⟩ := hcalls
    exact Or.inr ⟨(Option.some.inj hnil).symm, Or.inl rfl⟩
  | obj fields =>
    simp only [hfield, Option.ite_none_right_eq_some] at hcalls
    obtain ⟨rfl, hnil⟩ := hcalls
    exact Or.inr ⟨(Option.some.inj hnil).symm, Or.inr rfl⟩
  | _ => simp [hfield] at hcalls

theorem size_keptCalls {toolCalls : List (String × Json N)} {calls : List (Json N)}
    (hcalls : callsOf toolCalls = some calls) :
    dumpsSize numbers (keptCalls numbers (callsField toolCalls)) =
      arraySize ((calls.take maxToolCalls).map (keptCallSize numbers)) := by
  obtain hfield | ⟨rfl, hfield | hfield⟩ := callsOf_cases hcalls
  · rw [hfield, keptCalls, dumpsSize, size_arr, List.map_map]
    congr 1
    exact List.map_congr_left fun call _ => size_cutCall numbers call
  · rw [hfield]
    rfl
  · rw [hfield]
    rfl

theorem size_stored {toolCalls : List (String × Json N)} {calls : List (Json N)}
    (hcalls : callsOf toolCalls = some calls) :
    dumpsSize numbers (.obj (stored numbers toolCalls calls)) =
      storedSize numbers toolCalls calls := by
  have hint : dumpsSize numbers (.num (numbers.int calls.length)) =
      (Nat.toDigits 10 calls.length).length := by
    rw [dumpsSize, size, chars, numbers.print_int]
  have htrue : dumpsSize numbers (.bool true) = 4 := rfl
  rw [stored, storedSize, dumpsSize, size_obj, fieldSizes_setItem, size_keptCalls numbers hcalls,
    apply_ite (fieldSizes numbers.toNumberText), markCount, fieldSizes_setItem,
    fieldSizes_setItem, hint, htrue]

theorem callsField_stored (toolCalls : List (String × Json N)) (calls : List (Json N)) :
    callsField (stored numbers toolCalls calls) = keptCalls numbers (callsField toolCalls) := by
  rw [callsField, stored, lookup_setItem_self, Option.getD_some]

theorem callsOf_stored {toolCalls : List (String × Json N)} {calls : List (Json N)}
    (hcalls : callsOf toolCalls = some calls) :
    callsOf (stored numbers toolCalls calls) =
      some ((calls.take maxToolCalls).map (cutCall numbers)) := by
  rw [callsOf, callsField_stored]
  obtain hfield | ⟨rfl, hfield | hfield⟩ := callsOf_cases hcalls <;> rw [hfield] <;> rfl

theorem result_cutResult_le_iff (fields : List (String × Json N)) :
    dumpsSize numbers (resultOf (cutResult numbers fields)) ≤ maxToolCallResultSize ↔
      Fits numbers maxToolCallResultSize "size" (resultOf fields) := by
  rw [cutResult, Fits]
  split_ifs with h
  · rw [resultOf, lookup_setItem_self, Option.getD_some, size_marker]
    exact (imp_iff_right h).symm
  · exact iff_of_true (not_lt.mp h) fun hlt => absurd hlt h

theorem cutCall_of_le {fields : List (String × Json N)}
    (h : dumpsSize numbers (resultOf fields) ≤ maxToolCallResultSize) :
    cutCall numbers (.obj fields) = .obj fields := by
  rw [cutCall, cutResult, if_neg h.not_gt]

/-- A call whose result fits is one, with a result within its limit, once it is stored. -/
theorem results_cutCall_iff {calls : List (Json N)}
    (hobjects : ∀ call ∈ calls, IsObject call) :
    (∀ call ∈ calls.map (cutCall numbers), ∃ fields, call = .obj fields ∧
        dumpsSize numbers (resultOf fields) ≤ maxToolCallResultSize) ↔
      ∀ call ∈ calls, ∃ fields, call = .obj fields ∧
        Fits numbers maxToolCallResultSize "size" (resultOf fields) := by
  rw [List.forall_mem_map]
  refine forall₂_congr fun call hcall => ?_
  obtain ⟨fields, rfl⟩ := hobjects call hcall
  simp [cutCall, result_cutResult_le_iff]

/-- What is stored within the limits is left as it is. -/
theorem validateToolCalls_stored {toolCalls : List (String × Json N)} {calls : List (Json N)}
    (hcalls : callsOf toolCalls = some calls)
    (hresults : ∀ call ∈ (calls.take maxToolCalls).map (cutCall numbers),
      ∃ fields, call = .obj fields ∧
        dumpsSize numbers (resultOf fields) ≤ maxToolCallResultSize) :
    validateToolCalls numbers (stored numbers toolCalls calls) =
      some (stored numbers toolCalls calls) := by
  have hkept : ((calls.take maxToolCalls).map (cutCall numbers)).length ≤ maxToolCalls := by
    rw [List.length_map]
    exact List.length_take_le _ _
  have hfixed : ∀ call ∈ (calls.take maxToolCalls).map (cutCall numbers),
      cutCall numbers call = call := by
    intro call hcall
    obtain ⟨fields, rfl, hle⟩ := hresults call hcall
    exact cutCall_of_le numbers hle
  have hagain : keptCalls numbers (keptCalls numbers (callsField toolCalls)) =
      keptCalls numbers (callsField toolCalls) := by
    obtain hfield | ⟨rfl, hfield | hfield⟩ := callsOf_cases hcalls
    · rw [hfield, keptCalls, keptCalls, List.take_of_length_le hkept, List.map_congr_left hfixed,
        List.map_id']
    · rw [hfield]
      rfl
    · rw [hfield]
      rfl
  rw [validateToolCalls_eq_some_iff]
  refine ⟨_, callsOf_stored numbers hcalls, ?_, Eq.symm ?_⟩
  · rw [List.take_of_length_le hkept]
    intro call hcall
    obtain ⟨fields, rfl, -⟩ := hresults call hcall
    exact ⟨fields, rfl⟩
  · calc
      stored numbers (stored numbers toolCalls calls)
          ((calls.take maxToolCalls).map (cutCall numbers)) =
        setItem (stored numbers toolCalls calls) "calls"
          (keptCalls numbers (callsField (stored numbers toolCalls calls))) :=
        congrArg (fun d => setItem d "calls" _) (if_neg hkept.not_gt)
      _ = setItem (stored numbers toolCalls calls) "calls"
          (keptCalls numbers (callsField toolCalls)) := by rw [callsField_stored, hagain]
      _ = stored numbers toolCalls calls := setItem_setItem _ _ _ _

theorem storable_of_bounded {d : AgentDecision N} (h : Bounded numbers d) :
    Storable numbers d := by
  obtain ⟨d', hvalid, hrespects, -⟩ := h
  obtain ⟨toolCalls, htoolCalls, heq⟩ := Option.bind_eq_some_iff.mp hvalid
  obtain rfl := Option.some.inj heq
  obtain ⟨calls, hcalls, hobjects, rfl⟩ := (validateToolCalls_eq_some_iff numbers).mp htoolCalls
  obtain ⟨kept, hkept, -, hresults⟩ := hrespects.calls
  obtain rfl := Option.some.inj ((callsOf_stored numbers hcalls).symm.trans hkept)
  exact
    { calls := ⟨calls, hcalls, (results_cutCall_iff numbers hobjects).mp hresults,
        (size_stored numbers hcalls).symm.trans_le hrespects.total⟩
      strategyBreakdown := (truncateIfNeeded_le_iff numbers _ _).mp hrespects.strategyBreakdown
      opportunityFactors := (truncateIfNeeded_le_iff numbers _ _).mp hrespects.opportunityFactors
      marketContext := (truncateIfNeeded_le_iff numbers _ _).mp hrespects.marketContext }

theorem bounded_of_storable {d : AgentDecision N} (h : Storable numbers d) :
    Bounded numbers d := by
  obtain ⟨calls, hcalls, hfits, htotal⟩ := h.calls
  have hobjects : ∀ call ∈ calls.take maxToolCalls, IsObject call := by
    intro call hcall
    obtain ⟨fields, heq, -⟩ := hfits call hcall
    exact ⟨fields, heq⟩
  have hresults := (results_cutCall_iff numbers hobjects).mpr hfits
  have htoolCalls := (validateToolCalls_eq_some_iff numbers).mpr ⟨calls, hcalls, hobjects, rfl⟩
  have hbreakdown := (truncateIfNeeded_le_iff numbers _ _).mpr h.strategyBreakdown
  have hfactors := (truncateIfNeeded_le_iff numbers _ _).mpr h.opportunityFactors
  have hcontext := (truncateIfNeeded_le_iff numbers _ _).mpr h.marketContext
  refine ⟨_, by rw [validateJsonbSizes, htoolCalls]; rfl, ?_, ?_⟩
  · exact
      { total := (size_stored numbers hcalls).trans_le htotal
        calls := by
          refine ⟨_, callsOf_stored numbers hcalls, ?_, hresults⟩
          rw [List.length_map]
          exact List.length_take_le _ _
        strategyBreakdown := hbreakdown
        opportunityFactors := hfactors
        marketContext := hcontext }
  · rw [validateJsonbSizes, validateToolCalls_stored numbers hcalls hresults]
    dsimp only
    rw [truncateIfNeeded_of_le numbers hbreakdown, truncateIfNeeded_of_le numbers hfactors,
      truncateIfNeeded_of_le numbers hcontext]
    rfl

/-- Nothing cuts the total: it is within its limit just where the sizes of the parts, after
the cuts to the calls and to their results, already are. -/
theorem bounded_iff (d : AgentDecision N) : Bounded numbers d ↔ Storable numbers d :=
  ⟨storable_of_bounded numbers, bounded_of_storable numbers⟩

def integerNumbers : PythonNumbers ℤ where
  toNumberText := integerText
  int := id
  print_int _ := rfl

theorem size_replicate (n : ℕ) :
    dumpsSize integerNumbers (.str (String.ofList (List.replicate n 'a'))) = n + 2 := by
  have hescape : escape true 'a' = ['a'] := by decide
  have htext : (List.replicate n 'a').flatMap (escape true) = List.replicate n 'a' := by
    induction n with
    | zero => rfl
    | succ n ih =>
      rw [List.replicate_succ, List.flatMap_cons, ih, hescape]
      rfl
  rw [dumpsSize, size, chars, quoted, String.toList_ofList, htext]
  simp

theorem keptCallSize_result {v : Json N} (h : dumpsSize numbers v ≤ maxToolCallResultSize) :
    keptCallSize numbers (.obj [("result", v)]) = 12 + dumpsSize numbers v := by
  have hkey : keySize "result" = 8 := by decide
  have hresult : resultOf [("result", v)] = v := rfl
  rw [keptCallSize, hresult, if_neg h.not_gt, fieldSizes, objectSize, List.map_singleton,
    List.map_singleton, List.sum_singleton, hkey, dumpsSize]
  dsimp only
  omega

theorem storedSize_replicate {n : ℕ} (hn : n ≤ maxToolCalls) (call v : Json N) :
    storedSize numbers [("calls", v)] (List.replicate n call) =
      11 + max 2 (n * (keptCallSize numbers call + 2)) := by
  have hkey : keySize "calls" = 7 := by decide
  have hcount : ¬ maxToolCalls < (List.replicate n call).length := by
    rw [List.length_replicate]
    exact hn.not_gt
  have hset : ∀ n m : ℕ, setItem [("calls", n)] "calls" m = [("calls", m)] := fun _ _ => rfl
  rw [storedSize, if_neg hcount, fieldSizes, List.map_singleton, hset, List.take_replicate,
    min_eq_right hn, List.map_replicate, objectSize, List.map_singleton, List.sum_singleton, hkey,
    arraySize, List.map_replicate, List.sum_replicate, smul_eq_mul]
  dsimp only
  omega

def longResult : Json ℤ := .str (String.ofList (List.replicate 5000 'a'))

/-- As many calls as may be stored, each with a result that may. -/
def longCalls : AgentDecision ℤ :=
  ⟨[("calls", .arr (List.replicate 50 (.obj [("result", longResult)])))], .obj [], .obj [], .obj []⟩

theorem longCalls_not_bounded : ¬ Bounded integerNumbers longCalls := by
  intro h
  obtain ⟨calls, hcalls, -, htotal⟩ := (storable_of_bounded integerNumbers h).calls
  obtain rfl := Option.some.inj hcalls
  have hresult : dumpsSize integerNumbers longResult = 5002 := size_replicate 5000
  have hcall : keptCallSize integerNumbers (.obj [("result", longResult)]) = 5014 := by
    rw [keptCallSize_result integerNumbers (hresult.trans_le (by decide)), hresult]
  have hsize := storedSize_replicate integerNumbers (n := 50) le_rfl
    (.obj [("result", longResult)]) (.arr (List.replicate 50 (.obj [("result", longResult)])))
  rw [hcall] at hsize
  exact absurd (hsize.symm.trans_le htotal) (by decide)

end TradeStream.DecisionSizes
