import ProcessLint.Cron
import ProcessLint.Proofs.Postcondition
import ProcessLint.Proofs.Text.Numerals
import ProcessLint.Proofs.Text.Split
import ProcessLint.Proofs.Text.Words

/-!
The grammar of cron expressions, and that the check accepts just what it has. The check cuts a field
at its commas, an item at its first slash and a range at its first dash. Nothing is lost by this, for
in an item of the grammar each of these characters stands only where it separates.
-/
namespace ProcessLint.Cron

open Text

/-- Items of a field with these bounds. A step goes up to the largest number of 32 bits. -/
inductive IsItem (low high : Nat) : List Char → Prop
  | star : IsItem low high ['*']
  | number {token : List Char} {n : Nat} :
      Writes token n → low ≤ n → n ≤ high → IsItem low high token
  | range {first last : List Char} {a b : Nat} :
      Writes first a → Writes last b → low ≤ a → a ≤ b → b ≤ high →
      IsItem low high (first ++ '-' :: last)
  | starStep {step : List Char} {s : Nat} :
      Writes step s → 1 ≤ s → s ≤ 4294967295 → IsItem low high ('*' :: '/' :: step)
  | rangeStep {first last step : List Char} {a b s : Nat} :
      Writes first a → Writes last b → low ≤ a → a ≤ b → b ≤ high →
      Writes step s → 1 ≤ s → s ≤ 4294967295 →
      IsItem low high (first ++ '-' :: last ++ '/' :: step)

/-- One item or more, with commas between them. -/
def IsField (low high : Nat) (text : List Char) : Prop :=
  ∃ items, items ≠ [] ∧ (∀ item ∈ items, IsItem low high item) ∧
    text = [','].intercalate items

variable {field : Field} {token first last step base item text : List Char} {n : Nat}

theorem high_lt_maxNumber (field : Field) : field.high < maxNumber := by
  cases field <;> decide

/-- A number within the bounds is far below the one at which greater numbers are cut off. -/
theorem checkNumber_eq_ok :
    checkNumber field token = .ok n ↔ Writes token n ∧ field.low ≤ n ∧ n ≤ field.high := by
  have hhigh := high_lt_maxNumber field
  unfold checkNumber
  rw [writes_iff]
  split
  · rename_i hnumeral
    rw [and_iff_right hnumeral]
    dsimp only
    split
    · rename_i hbounds
      rw [Except.ok.injEq]
      omega
    · rename_i hbounds
      refine iff_of_false (fun h => by cases h) ?_
      omega
  · rename_i hnumeral
    exact iff_of_false (fun h => by cases h) fun h => hnumeral h.1.1

theorem checkRange_eq_ok : checkRange field first last = .ok () ↔
    ∃ a b, Writes first a ∧ Writes last b ∧ field.low ≤ a ∧ a ≤ b ∧ b ≤ field.high := by
  unfold checkRange
  simp only [bind_eq_ok_iff, checkNumber_eq_ok]
  constructor
  · rintro ⟨a, ⟨ha, hlow, -⟩, b, ⟨hb, -, hhigh⟩, h⟩
    split at h
    · rename_i hab
      exact ⟨a, b, ha, hb, hlow, hab, hhigh⟩
    · cases h
  · rintro ⟨a, b, ha, hb, hlow, hab, hhigh⟩
    refine ⟨a, ⟨ha, hlow, by omega⟩, b, ⟨hb, by omega, hhigh⟩, ?_⟩
    rw [if_pos hab]

theorem checkStep_eq_ok :
    checkStep field token = .ok () ↔ ∃ s, Writes token s ∧ 1 ≤ s ∧ s ≤ 4294967295 := by
  have hwrites : (∃ s, Writes token s ∧ 1 ≤ s ∧ s ≤ 4294967295) ↔
      isNumeral token = true ∧ 1 ≤ decimalValue token ∧ decimalValue token ≤ maxNumber := by
    simp only [writes_iff, maxNumber]
    constructor
    · rintro ⟨s, ⟨hnumeral, rfl⟩, hs⟩
      exact ⟨hnumeral, hs⟩
    · rintro ⟨hnumeral, hs⟩
      exact ⟨_, ⟨hnumeral, rfl⟩, hs⟩
  unfold checkStep
  rw [hwrites]
  split
  · rename_i hstep
    split
    · rename_i hzero
      refine iff_of_false (fun h => by cases h) ?_
      omega
    · rename_i hzero
      exact iff_of_true rfl ⟨hstep.1, by omega, hstep.2⟩
  · rename_i hstep
    exact iff_of_false (fun h => by cases h) fun h => hstep ⟨h.1, h.2.2⟩

theorem checkStepBase_eq_ok : checkStepBase field base = .ok () ↔ base = ['*'] ∨
    ∃ first last, base = first ++ '-' :: last ∧ checkRange field first last = .ok () := by
  unfold checkStepBase
  split
  · rename_i hstar
    exact iff_of_true rfl (.inl hstar)
  · rename_i hstar
    rw [or_iff_right hstar]
    cases hsplit : splitFirst '-' base with
    | some parts =>
      obtain ⟨first, last⟩ := parts
      obtain ⟨rfl, hfirst⟩ := splitFirst_eq_some hsplit
      constructor
      · intro h
        exact ⟨first, last, rfl, h⟩
      · rintro ⟨before, behind, heq, h⟩
        obtain ⟨a, -, ha, -⟩ := checkRange_eq_ok.mp h
        -- The start of a range has no dash, so it is what stands before the first one.
        rw [heq, splitFirst_append behind (ha.notMem rfl)] at hsplit
        cases hsplit
        exact h
    | none =>
      refine iff_of_false (fun h => by cases h) ?_
      rintro ⟨first, last, rfl, -⟩
      exact splitFirst_eq_none.mp hsplit (by simp)

theorem dash_ne_star (first last : List Char) : first ++ '-' :: last ≠ ['*'] := by
  intro heq
  have hdash : '-' ∈ ['*'] := heq ▸ by simp
  simp at hdash

theorem IsItem.ne_nil {low high : Nat} (h : IsItem low high item) : item ≠ [] := by
  cases h with
  | star => exact List.cons_ne_nil _ _
  | number hn => exact hn.ne_nil
  | range => simp
  | starStep => exact List.cons_ne_nil _ _
  | rangeStep => simp

theorem isItem_of_checkItem (h : checkItem field item = .ok ()) :
    IsItem field.low field.high item := by
  unfold checkItem at h
  split at h
  · cases h
  cases hslash : splitFirst '/' item with
  | some parts =>
    obtain ⟨base, step⟩ := parts
    obtain ⟨rfl, -⟩ := splitFirst_eq_some hslash
    rw [hslash] at h
    obtain ⟨_, hstep, hbase⟩ := bind_eq_ok h
    obtain ⟨s, hs, hpos, hmax⟩ := checkStep_eq_ok.mp hstep
    rcases checkStepBase_eq_ok.mp hbase with rfl | ⟨first, last, rfl, hrange⟩
    · exact .starStep hs hpos hmax
    · obtain ⟨a, b, ha, hb, hlow, hab, hhigh⟩ := checkRange_eq_ok.mp hrange
      exact .rangeStep ha hb hlow hab hhigh hs hpos hmax
  | none =>
    rw [hslash] at h
    dsimp only at h
    split at h
    · rename_i hstar
      rw [hstar]
      exact .star
    cases hdash : splitFirst '-' item with
    | some parts =>
      obtain ⟨first, last⟩ := parts
      obtain ⟨rfl, -⟩ := splitFirst_eq_some hdash
      rw [hdash] at h
      obtain ⟨a, b, ha, hb, hlow, hab, hhigh⟩ := checkRange_eq_ok.mp h
      exact .range ha hb hlow hab hhigh
    | none =>
      rw [hdash] at h
      obtain ⟨n, hn, -⟩ := bind_eq_ok h
      obtain ⟨hn, hlow, hhigh⟩ := checkNumber_eq_ok.mp hn
      exact .number hn hlow hhigh

theorem checkItem_step (hbase : '/' ∉ base) : checkItem field (base ++ '/' :: step) = .ok () ↔
    checkStep field step = .ok () ∧ checkStepBase field base = .ok () := by
  unfold checkItem
  rw [if_neg (by simp), splitFirst_append step hbase]
  dsimp only
  rw [bind_eq_ok_iff]
  constructor
  · rintro ⟨_, hstep, hbase⟩
    exact ⟨hstep, hbase⟩
  · rintro ⟨hstep, hbase⟩
    exact ⟨(), hstep, hbase⟩

theorem checkItem_of_isItem (h : IsItem field.low field.high item) :
    checkItem field item = .ok () := by
  have hne := h.ne_nil
  cases h with
  | star => rfl
  | number hn hlow hhigh =>
    have hslash := splitFirst_eq_none.mpr (hn.notMem (c := '/') rfl)
    have hdash := splitFirst_eq_none.mpr (hn.notMem (c := '-') rfl)
    have hstar : item ≠ ['*'] := by
      rintro rfl
      exact hn.notMem (c := '*') rfl (List.mem_singleton_self _)
    unfold checkItem
    rw [if_neg hne, hslash]
    dsimp only
    rw [if_neg hstar, hdash]
    exact bind_eq_ok_iff.mpr ⟨_, checkNumber_eq_ok.mpr ⟨hn, hlow, hhigh⟩, rfl⟩
  | @range first last a b ha hb hlow hab hhigh =>
    have hslash : '/' ∉ first ++ '-' :: last := by
      simp [ha.notMem (c := '/') rfl, hb.notMem (c := '/') rfl]
    unfold checkItem
    rw [if_neg hne, splitFirst_eq_none.mpr hslash]
    dsimp only
    rw [if_neg (dash_ne_star first last), splitFirst_append last (ha.notMem rfl)]
    exact checkRange_eq_ok.mpr ⟨a, b, ha, hb, hlow, hab, hhigh⟩
  | @starStep step s hs hpos hmax =>
    have hslash : '/' ∉ ['*'] := by decide
    exact (checkItem_step hslash).mpr ⟨checkStep_eq_ok.mpr ⟨s, hs, hpos, hmax⟩, rfl⟩
  | @rangeStep first last step a b s ha hb hlow hab hhigh hs hpos hmax =>
    have hslash : '/' ∉ first ++ '-' :: last := by
      simp [ha.notMem (c := '/') rfl, hb.notMem (c := '/') rfl]
    refine (checkItem_step hslash).mpr ⟨checkStep_eq_ok.mpr ⟨s, hs, hpos, hmax⟩, ?_⟩
    refine checkStepBase_eq_ok.mpr (.inr ⟨first, last, rfl, ?_⟩)
    exact checkRange_eq_ok.mpr ⟨a, b, ha, hb, hlow, hab, hhigh⟩

theorem checkItem_eq_ok :
    checkItem field item = .ok () ↔ IsItem field.low field.high item :=
  ⟨isItem_of_checkItem, checkItem_of_isItem⟩

theorem IsItem.comma_notMem {low high : Nat} (h : IsItem low high item) : ',' ∉ item := by
  cases h with
  | star => decide
  | number hn => exact hn.notMem rfl
  | range ha hb =>
    simp [ha.notMem (c := ',') rfl, hb.notMem (c := ',') rfl]
  | starStep hs =>
    simp [hs.notMem (c := ',') rfl]
  | rangeStep ha hb _ _ _ hs =>
    simp [ha.notMem (c := ',') rfl, hb.notMem (c := ',') rfl, hs.notMem (c := ',') rfl]

theorem checkField_eq_ok :
    checkField field text = .ok () ↔ IsField field.low field.high text := by
  unfold checkField
  simp only [forM_eq_ok, checkItem_eq_ok]
  constructor
  · intro h
    refine ⟨text.splitOn ',', List.splitOn_ne_nil _ _, h, ?_⟩
    exact (List.intercalate_splitOn ',').symm
  · rintro ⟨items, hne, hitems, rfl⟩
    rw [List.splitOn_intercalate ',' (fun item hitem => (hitems item hitem).comma_notMem) hne]
    exact hitems

/-- Five words, each a field within the bounds of its place. -/
def IsExpression (text : List Char) : Prop :=
  ∃ fields, HasWords text fields ∧
    List.Forall₂ (fun field text => IsField field.low field.high text) Field.all fields

theorem check_eq_ok {expression : String} :
    check expression = .ok () ↔ IsExpression expression.toList := by
  unfold check IsExpression
  simp only [← words_eq_iff, exists_eq_left']
  generalize words expression.toList = fields
  rw [List.forall₂_iff_zip]
  by_cases hlength : fields.length = Field.all.length
  · rw [if_pos hlength, forM_eq_ok]
    simp only [Prod.forall, checkField_eq_ok, hlength, true_and]
  · rw [if_neg hlength]
    exact iff_of_false (fun h => by cases h) fun h => hlength h.1.symm

theorem exists_fields_of_length : ∀ {fields : List (List Char)}, fields.length = 5 →
    ∃ minute hour dayOfMonth month dayOfWeek,
      fields = [minute, hour, dayOfMonth, month, dayOfWeek]
  | [minute, hour, dayOfMonth, month, dayOfWeek], _ =>
    ⟨minute, hour, dayOfMonth, month, dayOfWeek, rfl⟩

/-- An expression is accepted just if it consists of five fields, each a list of items within the
bounds of its place. -/
theorem check_eq_ok_iff (expression : String) : check expression = .ok () ↔
    ∃ minute hour dayOfMonth month dayOfWeek,
      HasWords expression.toList [minute, hour, dayOfMonth, month, dayOfWeek] ∧
        IsField 0 59 minute ∧ IsField 0 23 hour ∧ IsField 1 31 dayOfMonth ∧
        IsField 1 12 month ∧ IsField 0 7 dayOfWeek := by
  unfold check
  simp only [← words_eq_iff]
  generalize words expression.toList = fields
  constructor
  · intro h
    split at h
    · rename_i hlength
      obtain ⟨minute, hour, dayOfMonth, month, dayOfWeek, rfl⟩ :=
        exists_fields_of_length hlength
      have hfields := forM_eq_ok.mp h
      simp only [Field.all, List.zip_cons_cons, List.zip_nil_right, List.forall_mem_cons,
        checkField_eq_ok] at hfields
      obtain ⟨hminute, hhour, hdayOfMonth, hmonth, hdayOfWeek, -⟩ := hfields
      exact ⟨_, _, _, _, _, rfl, hminute, hhour, hdayOfMonth, hmonth, hdayOfWeek⟩
    · cases h
  · rintro ⟨minute, hour, dayOfMonth, month, dayOfWeek, rfl, hminute, hhour, hdayOfMonth, hmonth,
      hdayOfWeek⟩
    rw [if_pos (by rfl), forM_eq_ok]
    simp only [Field.all, List.zip_cons_cons, List.zip_nil_right, List.forall_mem_cons,
      checkField_eq_ok]
    exact ⟨hminute, hhour, hdayOfMonth, hmonth, hdayOfWeek, fun _ h => by cases h⟩

end ProcessLint.Cron
