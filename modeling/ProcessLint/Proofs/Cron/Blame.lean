import ProcessLint.Proofs.Cron.Grammar

/-!
What an expression is blamed for when it is refused. The fault is that of one item: the leftmost
that does not conform, in the leftmost field that does not. Within the item the step is blamed
before what it stands behind, and the start of a range before its end. What the fault tells, a
value or a quoted part of the item, is so.
-/
namespace ProcessLint.Cron

open Text

/-- What is wrong in the place of a number. A number is reported as at most the largest one of 32
bits. -/
inductive NumberFault (field : Field) (token : List Char) : Fault → Prop
  | notANumber : ¬ AreDigits token → NumberFault field token (.notANumber field token)
  | outOfRange {n : Nat} : Writes token n → n < field.low ∨ field.high < n →
      NumberFault field token (.outOfRange field (min n 4294967295))

/-- What is wrong with a range: with its end only if the start is a number within the bounds, and
with their order only if both are. -/
inductive RangeFault (field : Field) (first last : List Char) : Fault → Prop
  | first {fault : Fault} : NumberFault field first fault → RangeFault field first last fault
  | last {a : Nat} {fault : Fault} : Writes first a → field.low ≤ a → a ≤ field.high →
      NumberFault field last fault → RangeFault field first last fault
  | inverted {a b : Nat} : Writes first a → Writes last b → field.low ≤ b → b < a →
      a ≤ field.high → RangeFault field first last (.invertedRange field a b)

/-- What is wrong with a step: it is zero, or no number of 32 bits. -/
inductive StepFault (field : Field) (step : List Char) : Fault → Prop
  | zero : step ≠ [] → (∀ c ∈ step, c = '0') → StepFault field step (.zeroStep field)
  | bad : (¬ ∃ s, Writes step s ∧ s ≤ 4294967295) → StepFault field step (.badStep field step)

/-- What is wrong with the text before a step: it is neither a star nor has it a dash, or the range
that it is cut to at its first dash is faulty. -/
inductive BaseFault (field : Field) : List Char → Fault → Prop
  | noRange {base : List Char} : base ≠ ['*'] → '-' ∉ base →
      BaseFault field base (.stepBase field base)
  | range {first last : List Char} {fault : Fault} : '-' ∉ first →
      RangeFault field first last fault → BaseFault field (first ++ '-' :: last) fault

/-- What is wrong with an item. It is cut at its first slash, and what is before a step is blamed
only if the step is sound; without a slash it is a range if it has a dash, and else a number. -/
inductive ItemFault (field : Field) : List Char → Fault → Prop
  | empty : ItemFault field [] (.emptyItem field)
  | step {base step : List Char} {fault : Fault} : '/' ∉ base → StepFault field step fault →
      ItemFault field (base ++ '/' :: step) fault
  | base {base step : List Char} {s : Nat} {fault : Fault} : '/' ∉ base → Writes step s → 1 ≤ s →
      s ≤ 4294967295 → BaseFault field base fault → ItemFault field (base ++ '/' :: step) fault
  | range {first last : List Char} {fault : Fault} : '/' ∉ first → '/' ∉ last → '-' ∉ first →
      RangeFault field first last fault → ItemFault field (first ++ '-' :: last) fault
  | number {item : List Char} {fault : Fault} : item ≠ [] → item ≠ ['*'] → '/' ∉ item →
      '-' ∉ item → NumberFault field item fault → ItemFault field item fault

/-- The items of a field: the parts that commas separate. -/
def HasItems (text : List Char) (items : List (List Char)) : Prop :=
  items ≠ [] ∧ (∀ item ∈ items, ',' ∉ item) ∧ text = [','].intercalate items

/-- The item is the leftmost one that does not conform in the leftmost of the five fields that does
not. -/
def IsLeftmost (text : List Char) (field : Field) (item : List Char) : Prop :=
  ∃ (before after : List Field) (good others : List (List Char)) (bad : List Char),
    Field.all = before ++ field :: after ∧ HasWords text (good ++ bad :: others) ∧
    others.length = after.length ∧
    List.Forall₂ (fun field text => IsField field.low field.high text) before good ∧
    ¬ IsField field.low field.high bad ∧
    ∃ sound rest, HasItems bad (sound ++ item :: rest) ∧
      (∀ item ∈ sound, IsItem field.low field.high item) ∧ ¬ IsItem field.low field.high item

/-- What a fault tells about an item is so, and what it quotes is part of the item. -/
def Fault.IsTrue (field : Field) (item : List Char) : Fault → Prop
  | .fieldCount _ => False
  | .emptyItem named => named = field ∧ item = []
  | .notANumber named token => named = field ∧ token <:+: item ∧ ¬ AreDigits token
  | .outOfRange named value => named = field ∧ (value < field.low ∨ field.high < value) ∧
      ∃ token n, token <:+: item ∧ Writes token n ∧ value = min n 4294967295
  | .invertedRange named a b => named = field ∧ field.low ≤ b ∧ b < a ∧ a ≤ field.high ∧
      ∃ first last, first ++ '-' :: last <:+: item ∧ Writes first a ∧ Writes last b
  | .zeroStep named => named = field ∧
      ∃ base step, item = base ++ '/' :: step ∧ '/' ∉ base ∧ step ≠ [] ∧ ∀ c ∈ step, c = '0'
  | .badStep named token => named = field ∧ token <:+: item ∧
      ¬ (∃ s, Writes token s ∧ s ≤ 4294967295) ∧ ∃ base, item = base ++ '/' :: token ∧ '/' ∉ base
  | .stepBase named token => named = field ∧ token <:+: item ∧
      token ≠ ['*'] ∧ '-' ∉ token ∧ ∃ step, item = token ++ '/' :: step

variable {field : Field} {token first last step base item text : List Char} {fault : Fault}

section Parts

theorem checkNumber_eq_error :
    checkNumber field token = .error fault ↔ NumberFault field token fault := by
  have hhigh := high_lt_maxNumber field
  unfold checkNumber
  constructor
  · intro h
    split at h
    · rename_i hnumeral
      dsimp only at h
      split at h
      · cases h
      · rename_i hbounds
        cases h
        exact .outOfRange (writes_iff.mpr ⟨hnumeral, rfl⟩) (by omega)
    · rename_i hnumeral
      cases h
      exact .notANumber (areDigits_iff.not.mpr hnumeral)
  · intro h
    cases h with
    | notANumber hdigits => rw [if_neg (areDigits_iff.not.mp hdigits)]
    | outOfRange hwrites hbounds =>
      obtain ⟨hnumeral, rfl⟩ := writes_iff.mp hwrites
      rw [if_pos hnumeral]
      dsimp only
      rw [if_neg (by omega)]
      rfl

theorem checkRange_eq_error :
    checkRange field first last = .error fault ↔ RangeFault field first last fault := by
  unfold checkRange
  simp only [bind_eq_error_iff, checkNumber_eq_error, checkNumber_eq_ok]
  constructor
  · rintro (hfirst | ⟨a, ⟨ha, hlow, hhigh⟩, hlast | ⟨b, ⟨hb, hlow', -⟩, h⟩⟩)
    · exact .first hfirst
    · exact .last ha hlow hhigh hlast
    · split at h
      · cases h
      · rename_i hab
        cases h
        exact .inverted ha hb hlow' (by omega) hhigh
  · intro h
    cases h with
    | first hfirst => exact .inl hfirst
    | last ha hlow hhigh hlast => exact .inr ⟨_, ⟨ha, hlow, hhigh⟩, .inl hlast⟩
    | inverted ha hb hlow hba hhigh =>
      refine .inr ⟨_, ⟨ha, by omega, hhigh⟩, .inr ⟨_, ⟨hb, hlow, by omega⟩, ?_⟩⟩
      rw [if_neg (by omega)]

theorem checkStep_eq_error :
    checkStep field token = .error fault ↔ StepFault field token fault := by
  have hnumber : (∃ s, Writes token s ∧ s ≤ 4294967295) ↔
      isNumeral token = true ∧ decimalValue token ≤ maxNumber := by
    simp only [writes_iff, maxNumber]
    constructor
    · rintro ⟨s, ⟨hnumeral, rfl⟩, hs⟩
      exact ⟨hnumeral, hs⟩
    · rintro ⟨hnumeral, hs⟩
      exact ⟨_, ⟨hnumeral, rfl⟩, hs⟩
  unfold checkStep
  constructor
  · intro h
    split at h
    · rename_i hsound
      split at h
      · rename_i hzero
        cases h
        obtain ⟨hne, hzeros⟩ := writes_zero_iff.mp (writes_iff.mpr ⟨hsound.1, hzero⟩)
        exact .zero hne hzeros
      · cases h
    · rename_i hbad
      cases h
      exact .bad (hnumber.not.mpr hbad)
  · intro h
    cases h with
    | zero hne hzeros =>
      obtain ⟨hnumeral, hzero⟩ := writes_iff.mp (writes_zero_iff.mpr ⟨hne, hzeros⟩)
      rw [if_pos ⟨hnumeral, by omega⟩, if_pos hzero]
    | bad hbad => rw [if_neg (hnumber.not.mp hbad)]

theorem checkStepBase_eq_error :
    checkStepBase field base = .error fault ↔ BaseFault field base fault := by
  unfold checkStepBase
  constructor
  · intro h
    split at h
    · cases h
    · rename_i hstar
      cases hsplit : splitFirst '-' base with
      | some parts =>
        obtain ⟨first, last⟩ := parts
        obtain ⟨rfl, hfirst⟩ := splitFirst_eq_some hsplit
        rw [hsplit] at h
        exact .range hfirst (checkRange_eq_error.mp h)
      | none =>
        rw [hsplit] at h
        cases h
        exact .noRange hstar (splitFirst_eq_none.mp hsplit)
  · intro h
    cases h with
    | noRange hstar hdash => rw [if_neg hstar, splitFirst_eq_none.mpr hdash]
    | @range first last _ hfirst hrange =>
      rw [if_neg (dash_ne_star first last), splitFirst_append last hfirst]
      exact checkRange_eq_error.mpr hrange

theorem checkItem_eq_error :
    checkItem field item = .error fault ↔ ItemFault field item fault := by
  unfold checkItem
  constructor
  · intro h
    split at h
    · rename_i hnil
      cases h
      rw [hnil]
      exact .empty
    rename_i hne
    cases hslash : splitFirst '/' item with
    | some parts =>
      obtain ⟨base, step⟩ := parts
      obtain ⟨rfl, hbase⟩ := splitFirst_eq_some hslash
      rw [hslash] at h
      rcases bind_eq_error_iff.mp h with hstep | ⟨_, hstep, h⟩
      · exact .step hbase (checkStep_eq_error.mp hstep)
      · obtain ⟨s, hs, hpos, hmax⟩ := checkStep_eq_ok.mp hstep
        exact .base hbase hs hpos hmax (checkStepBase_eq_error.mp h)
    | none =>
      have hnoSlash := splitFirst_eq_none.mp hslash
      rw [hslash] at h
      dsimp only at h
      split at h
      · cases h
      rename_i hstar
      cases hdash : splitFirst '-' item with
      | some parts =>
        obtain ⟨first, last⟩ := parts
        obtain ⟨rfl, hfirst⟩ := splitFirst_eq_some hdash
        rw [hdash] at h
        simp only [List.mem_append, List.mem_cons, not_or] at hnoSlash
        exact .range hnoSlash.1 hnoSlash.2.2 hfirst (checkRange_eq_error.mp h)
      | none =>
        rw [hdash] at h
        rcases bind_eq_error_iff.mp h with hnumber | ⟨_, -, h⟩
        · exact .number hne hstar hnoSlash (splitFirst_eq_none.mp hdash)
            (checkNumber_eq_error.mp hnumber)
        · cases h
  · intro h
    cases h with
    | empty => rfl
    | @step base step _ hbase hstep =>
      rw [if_neg (by simp), splitFirst_append step hbase]
      exact bind_eq_error_iff.mpr (.inl (checkStep_eq_error.mpr hstep))
    | @base base step s _ hbase hs hpos hmax hfault =>
      rw [if_neg (by simp), splitFirst_append step hbase]
      have hstep : checkStep field step = .ok () := checkStep_eq_ok.mpr ⟨s, hs, hpos, hmax⟩
      exact bind_eq_error_iff.mpr (.inr ⟨(), hstep, checkStepBase_eq_error.mpr hfault⟩)
    | @range first last _ hslash hslash' hdash hrange =>
      have hnoSlash : '/' ∉ first ++ '-' :: last := by simp [hslash, hslash']
      rw [if_neg (by simp), splitFirst_eq_none.mpr hnoSlash]
      dsimp only
      rw [if_neg (dash_ne_star first last), splitFirst_append last hdash]
      exact checkRange_eq_error.mpr hrange
    | number hne hstar hslash hdash hnumber =>
      rw [if_neg hne, splitFirst_eq_none.mpr hslash]
      dsimp only
      rw [if_neg hstar, splitFirst_eq_none.mpr hdash]
      exact bind_eq_error_iff.mpr (.inl (checkNumber_eq_error.mpr hnumber))

end Parts

section Whole

theorem hasItems_iff {items : List (List Char)} :
    HasItems text items ↔ text.splitOn ',' = items := by
  constructor
  · rintro ⟨hne, hcomma, rfl⟩
    exact List.splitOn_intercalate ',' hcomma hne
  · rintro rfl
    exact ⟨List.splitOn_ne_nil _ _, fun _ hitem => notMem_of_mem_splitOn hitem,
      (List.intercalate_splitOn ',').symm⟩

theorem checkField_eq_error : checkField field text = .error fault ↔ ∃ sound item rest,
    HasItems text (sound ++ item :: rest) ∧
      (∀ item ∈ sound, IsItem field.low field.high item) ∧ ItemFault field item fault := by
  unfold checkField
  simp only [forM_eq_error, checkItem_eq_ok, checkItem_eq_error, hasItems_iff]

theorem ItemFault.not_isItem (h : ItemFault field item fault) :
    ¬ IsItem field.low field.high item :=
  not_of_eq_error checkItem_eq_ok (checkItem_eq_error.mpr h)

/-- The leftmost fault of a list of texts in the places of fields. -/
theorem forM_zip_eq_error {places : List Field} {texts : List (List Char)}
    (hlength : texts.length = places.length) :
    (places.zip texts).forM (fun (field, text) => checkField field text) = .error fault ↔
      ∃ before field after good bad others, places = before ++ field :: after ∧
        texts = good ++ bad :: others ∧ others.length = after.length ∧
        List.Forall₂ (fun field text => IsField field.low field.high text) before good ∧
        checkField field bad = .error fault := by
  rw [forM_eq_error]
  constructor
  · rintro ⟨before, ⟨field, bad⟩, after, hzip, hbefore, hbad⟩
    have hplaces := congrArg (List.map Prod.fst) hzip
    have htexts := congrArg (List.map Prod.snd) hzip
    rw [List.map_fst_zip hlength.ge, List.map_append, List.map_cons] at hplaces
    rw [List.map_snd_zip hlength.le, List.map_append, List.map_cons] at htexts
    refine ⟨_, _, _, _, _, _, hplaces, htexts, by simp, ?_, hbad⟩
    rw [List.forall₂_map_left_iff, List.forall₂_map_right_iff, List.forall₂_same]
    exact fun place hplace => checkField_eq_ok.mp (hbefore place hplace)
  · rintro ⟨before, field, after, good, bad, others, rfl, rfl, -, hgood, hbad⟩
    refine ⟨before.zip good, (field, bad), after.zip others, ?_, ?_, hbad⟩
    · rw [List.zip_append hgood.length_eq, List.zip_cons_cons]
    · rintro ⟨place, text⟩ hmem
      exact checkField_eq_ok.mpr (List.forall₂_zip hgood hmem)

end Whole

section Evidence

theorem NumberFault.isTrue (h : NumberFault field token fault) (hpart : token <:+: item) :
    fault.IsTrue field item := by
  have hhigh := high_lt_maxNumber field
  unfold maxNumber at hhigh
  cases h with
  | notANumber hdigits => exact ⟨rfl, hpart, hdigits⟩
  | outOfRange hn hbounds => exact ⟨rfl, by omega, token, _, hpart, hn, rfl⟩

theorem RangeFault.isTrue (h : RangeFault field first last fault)
    (hpart : first ++ '-' :: last <:+: item) : fault.IsTrue field item := by
  cases h with
  | first hfirst => exact hfirst.isTrue (.trans (List.prefix_append _ _).isInfix hpart)
  | last _ _ _ hlast =>
    refine hlast.isTrue (.trans ?_ hpart)
    exact ((List.suffix_cons '-' last).trans (List.suffix_append first _)).isInfix
  | inverted ha hb hlow hba hhigh => exact ⟨rfl, hlow, hba, hhigh, first, last, hpart, ha, hb⟩

theorem StepFault.isTrue (h : StepFault field step fault) (hbase : '/' ∉ base) :
    fault.IsTrue field (base ++ '/' :: step) := by
  cases h with
  | zero hne hzeros => exact ⟨rfl, base, step, rfl, hbase, hne, hzeros⟩
  | bad hbad =>
    refine ⟨rfl, ?_, hbad, base, rfl, hbase⟩
    exact ((List.suffix_cons '/' step).trans (List.suffix_append base _)).isInfix

theorem BaseFault.isTrue (h : BaseFault field base fault) (step : List Char) :
    fault.IsTrue field (base ++ '/' :: step) := by
  cases h with
  | noRange hstar hdash =>
    exact ⟨rfl, (List.prefix_append _ _).isInfix, hstar, hdash, step, rfl⟩
  | range _ hrange => exact hrange.isTrue (List.prefix_append _ _).isInfix

theorem ItemFault.isTrue (h : ItemFault field item fault) : fault.IsTrue field item := by
  cases h with
  | empty => exact ⟨rfl, rfl⟩
  | step hbase hstep => exact hstep.isTrue hbase
  | base _ _ _ _ hbase => exact hbase.isTrue _
  | range _ _ _ hrange => exact hrange.isTrue List.infix_rfl
  | number _ _ _ _ hnumber => exact hnumber.isTrue List.infix_rfl

/-- The message of a fault of an item begins with the name of the field. -/
theorem ItemFault.message (h : ItemFault field item fault) :
    (field.name ++ ": ").toList <+: fault.message.toList := by
  have hpart {text rest : List Char} (htext : ": ".toList <+: text) :
      ": ".toList <+: text ++ rest := htext.trans (List.prefix_append _ _)
  have htrue := h.isTrue
  rw [String.toList_append]
  unfold Fault.message
  cases fault with
  | fieldCount count => exact htrue.elim
  | emptyItem named | zeroStep named =>
    obtain ⟨rfl, -⟩ := htrue
    dsimp only
    rw [String.toList_append]
    exact (List.prefix_append_right_inj _).mpr (by decide)
  | notANumber named | outOfRange named | invertedRange named | badStep named | stepBase named =>
    obtain ⟨rfl, -⟩ := htrue
    dsimp only
    simp only [String.toList_append, List.append_assoc]
    exact (List.prefix_append_right_inj _).mpr (hpart (by decide))

end Evidence

/-- An expression is refused for the number of its words, or else for the leftmost item that does
not conform in the leftmost field that does not, with the fault of that item. -/
theorem check_eq_error_iff (expression : String) (fault : Fault) :
    check expression = .error fault ↔
      (∃ fields, HasWords expression.toList fields ∧ fields.length ≠ 5 ∧
        fault = .fieldCount fields.length) ∨
      ∃ field item, IsLeftmost expression.toList field item ∧ ItemFault field item fault ∧
        fault.IsTrue field item ∧ (field.name ++ ": ").toList <+: fault.message.toList := by
  unfold check
  simp only [← words_eq_iff, exists_eq_left', IsLeftmost]
  generalize words expression.toList = fields
  by_cases hlength : fields.length = Field.all.length
  · have hfive : fields.length = 5 := hlength
    rw [if_pos hlength, forM_zip_eq_error hlength, or_iff_right fun h => h.1 hfive]
    constructor
    · rintro ⟨before, field, after, good, bad, others, hall, hfields, hafter, hgood, hbad⟩
      obtain ⟨sound, item, rest, hitems, hsound, hfault⟩ := checkField_eq_error.mp hbad
      have hfield := not_of_eq_error checkField_eq_ok hbad
      exact ⟨field, item, ⟨before, after, good, others, bad, hall, hfields, hafter, hgood, hfield,
        sound, rest, hitems, hsound, hfault.not_isItem⟩, hfault, hfault.isTrue, hfault.message⟩
    · rintro ⟨field, item, ⟨before, after, good, others, bad, hall, hfields, hafter, hgood, -,
        sound, rest, hitems, hsound, -⟩, hfault, -⟩
      exact ⟨before, field, after, good, bad, others, hall, hfields, hafter, hgood,
        checkField_eq_error.mpr ⟨sound, item, rest, hitems, hsound, hfault⟩⟩
  · have hfive : fields.length ≠ 5 := hlength
    rw [if_neg hlength, Except.error.injEq, and_iff_right hfive, eq_comm]
    refine (or_iff_left ?_).symm
    -- The fields and the words of such an item would be as many.
    rintro ⟨field, item, ⟨before, after, good, others, bad, hall, rfl, hafter, hgood, -⟩, -⟩
    refine hlength ?_
    simp [hall, hafter, hgood.length_eq]

/-- Two fields are faulty, and in the first of them the range and the step. -/
example : check "1-x/0 * 99 * *" = .error (.zeroStep .minute) := by decide

end ProcessLint.Cron
