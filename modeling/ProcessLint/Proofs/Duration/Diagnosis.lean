import ProcessLint.Proofs.Duration.Grammar

/-!
What is found wrong with a text that is no duration. Pairs of a number and a unit are taken off its
front as long as there are any, each number and each run of letters as long as possible. This can
be done in one way only, and the fault tells why the rest does not start with a pair.
-/
namespace ProcessLint.Duration

open Text

/-- A number that no longer one can be put for, given what stands behind it. -/
structure IsLongestNumber (number behind : List Char) : Prop where
  isNumber : IsNumber number
  longest : ∀ other, IsNumber other → other <+: number ++ behind → other <+: number

/-- One letter or more, with no letter behind them. -/
structure IsWord (word behind : List Char) : Prop where
  ne_nil : word ≠ []
  letters : ∀ c ∈ word, isAlphabetic c = true
  stop : ∀ c ∈ behind.head?, isAlphabetic c = false

/-- Complete pairs at the front of a text, and the rest behind them. -/
inductive HasPairs : List Char → List (List Char × List Char) → List Char → Prop
  | nil {text : List Char} : HasPairs text [] text
  | cons {number unit behind rest : List Char} {pairs : List (List Char × List Char)} :
      IsLongestNumber number (unit ++ behind) → IsWord unit behind → IsUnit unit →
      HasPairs behind pairs rest →
      HasPairs (number ++ unit ++ behind) ((number, unit) :: pairs) rest

/-- The pairs are all that the text starts with: whatever pairs are taken off its front, these go
on from them. -/
def HasAllPairs (text : List Char) (pairs : List (List Char × List Char)) (rest : List Char) :
    Prop :=
  HasPairs text pairs rest ∧ ∀ others behind, HasPairs text others behind → others <+: pairs

/-- Why a text does not start with a pair. -/
inductive RestFault : List Char → Fault → Prop
  | missingNumber {word behind : List Char} : IsWord word behind →
      RestFault (word ++ behind) (.missingNumber word)
  | noNumber {c : Char} {behind : List Char} : c.isDigit = false → isAlphabetic c = false →
      RestFault (c :: behind) (.unexpectedCharacter c)
  | missingUnit {number : List Char} : IsNumber number → RestFault number (.missingUnit number)
  | unsupportedUnit {number word behind : List Char} : IsLongestNumber number (word ++ behind) →
      IsWord word behind → ¬ IsUnit word →
      RestFault (number ++ word ++ behind) (.unsupportedUnit word)
  | noUnit {number behind : List Char} {c : Char} : IsLongestNumber number (c :: behind) →
      isAlphabetic c = false → RestFault (number ++ c :: behind) (.unexpectedCharacter c)

/-- A text and what stands behind the sign that it may start with. -/
inductive HasBody : List Char → List Char → Prop
  | plus {body : List Char} : HasBody ('+' :: body) body
  | minus {body : List Char} : HasBody ('-' :: body) body
  | unsigned {text : List Char} : (∀ c ∈ text.head?, c ≠ '+' ∧ c ≠ '-') → HasBody text text

/-- What is found wrong with a text. White space anywhere counts first. -/
inductive HasFault (text : List Char) : Fault → Prop
  | whitespace : (∃ c ∈ text, isSpace c = true) → HasFault text .whitespace
  | empty : text ∈ [[], ['+'], ['-']] → HasFault text .empty
  | rest {body rest : List Char} {pairs : List (List Char × List Char)} {fault : Fault} :
      (∀ c ∈ text, isSpace c = false) → HasBody text body → body ≠ [] →
      HasAllPairs body pairs rest → rest ≠ [] → RestFault rest fault → HasFault text fault

variable {text rest behind number other unit word body : List Char} {c : Char} {fault : Fault}
  {pairs : List (List Char × List Char)}

section Numbers

theorem takeWhile_prefix_spanNumber (text : List Char) :
    text.takeWhile isDigit <+: (spanNumber text).1 := by
  unfold spanNumber
  split
  · rename_i d whole behind hwhole _
    rw [hwhole]
    split
    · exact List.prefix_rfl
    · exact List.prefix_append _ _
  · exact List.prefix_rfl

/-- Every number at the front of a text is part of the one that is taken. -/
theorem isPrefix_spanNumber (h : IsNumber other) (hfront : other <+: text) :
    other <+: (spanNumber text).1 := by
  obtain ⟨rest, rfl⟩ := hfront
  cases h with
  | whole h =>
    have htake : (other ++ rest).takeWhile isDigit = other ++ rest.takeWhile isDigit :=
      List.takeWhile_append_of_pos h.digits
    refine List.IsPrefix.trans ?_ (takeWhile_prefix_spanNumber (other ++ rest))
    rw [htake]
    exact List.prefix_append _ _
  | @fraction digits fraction h hfraction =>
    -- The digits of the rest that follow belong to the number too.
    have hmore : AreDigits (fraction ++ rest.takeWhile isDigit) := by
      refine ⟨List.append_ne_nil_of_left_ne_nil hfraction.ne_nil _, ?_⟩
      rw [List.forall_mem_append]
      exact ⟨hfraction.digits, fun _ hc => List.mem_takeWhile_imp hc⟩
    have hspan := spanNumber_fraction h hmore (head?_dropWhile isDigit rest)
    have hshape : digits ++ '.' :: (fraction ++ rest.takeWhile isDigit) ++ rest.dropWhile isDigit =
        digits ++ '.' :: fraction ++ rest := by
      simp only [List.append_assoc, List.cons_append, List.takeWhile_append_dropWhile]
    rw [hshape] at hspan
    rw [hspan, ← List.cons_append, ← List.append_assoc]
    exact List.prefix_append _ _

theorem isLongestNumber_iff : IsLongestNumber number behind ↔
    number ≠ [] ∧ spanNumber (number ++ behind) = (number, behind) := by
  have happend := spanNumber_append (number ++ behind)
  constructor
  · rintro ⟨hnumber, hlongest⟩
    have hfront := isPrefix_spanNumber hnumber (List.prefix_append number behind)
    have hne : number ≠ [] := by
      obtain ⟨⟨c, rest, rfl, -⟩, -⟩ := hnumber.spec
      exact List.cons_ne_nil c rest
    have hspan : (spanNumber (number ++ behind)).1 = number := by
      have hspanned : IsNumber (spanNumber (number ++ behind)).1 := by
        refine isNumber_spanNumber fun hnil => hne ?_
        rwa [hnil, List.prefix_nil] at hfront
      have hle := (hlongest _ hspanned ⟨_, happend⟩).length_le
      exact (hfront.eq_of_length_le hle).symm
    rw [hspan, List.append_cancel_left_eq] at happend
    exact ⟨hne, Prod.ext hspan happend⟩
  · rintro ⟨hne, hspan⟩
    have hnumber := @isNumber_spanNumber (number ++ behind)
    have hlongest := @isPrefix_spanNumber (number ++ behind)
    rw [hspan] at hnumber hlongest
    exact ⟨hnumber hne, fun other hother hfront => hlongest hother hfront⟩

theorem isLongestNumber_of_spanNumber (h : spanNumber text = (number, behind))
    (hne : number ≠ []) : text = number ++ behind ∧ IsLongestNumber number behind := by
  have happend := spanNumber_append text
  rw [h] at happend
  subst happend
  exact ⟨rfl, isLongestNumber_iff.mpr ⟨hne, h⟩⟩

theorem not_digit_of_spanNumber (h : (spanNumber text).1 = []) :
    ∀ c ∈ text.head?, c.isDigit = false := by
  have htake := takeWhile_prefix_spanNumber text
  rw [h, List.prefix_nil] at htake
  exact head?_of_takeWhile_eq_nil htake

theorem spanNumber_of_not_digit (h : ∀ c ∈ text.head?, c.isDigit = false) :
    spanNumber text = ([], text) := by
  obtain ⟨htake, hdrop⟩ := @takeWhile_run isDigit [] text (by simp) h
  rw [List.nil_append] at htake hdrop
  unfold spanNumber
  rw [htake, hdrop]

end Numbers

section Pairs

/-- What the loop takes off with one turn is a complete pair. -/
theorem takePair_eq_ok_iff : takePair text = .ok rest ↔ ∃ number unit,
    text = number ++ unit ++ rest ∧ IsLongestNumber number (unit ++ rest) ∧ IsWord unit rest ∧
      IsUnit unit := by
  rw [takePair_eq_ok]
  constructor
  · rintro ⟨_, ⟨number, unit, hnumber, hunit, rfl⟩, rfl, hstop⟩
    obtain ⟨hne, hletters⟩ := hunit.letters
    have hspan := spanNumber_number hnumber (hunit.head rest)
    obtain ⟨⟨c, digits, rfl, -⟩, -⟩ := hnumber.spec
    exact ⟨_, unit, rfl, isLongestNumber_iff.mpr ⟨List.cons_ne_nil _ _, hspan⟩,
      ⟨hne, fun c hc => (hletters c hc).1, hstop⟩, hunit⟩
  · rintro ⟨number, unit, rfl, hnumber, hword, hunit⟩
    exact ⟨_, ⟨number, unit, hnumber.isNumber, hunit, rfl⟩, rfl, hword.stop⟩

/-- The run of letters at the front of a text, if there is one. -/
theorem isWord_takeWhile (h : text.takeWhile isAlphabetic ≠ []) :
    IsWord (text.takeWhile isAlphabetic) (text.dropWhile isAlphabetic) :=
  ⟨h, fun _ hc => List.mem_takeWhile_imp hc, head?_dropWhile isAlphabetic text⟩

theorem IsLongestNumber.unique (h : IsLongestNumber number behind)
    (h' : IsLongestNumber other rest) (heq : number ++ behind = other ++ rest) :
    number = other ∧ behind = rest := by
  have hfront := h'.longest number h.isNumber (heq ▸ List.prefix_append _ _)
  have hle := (h.longest other h'.isNumber (heq ▸ List.prefix_append _ _)).length_le
  obtain rfl := hfront.eq_of_length_le hle
  exact ⟨rfl, List.append_cancel_left heq⟩

theorem IsWord.takeWhile (h : IsWord word behind) :
    (word ++ behind).takeWhile isAlphabetic = word :=
  (takeWhile_run h.letters h.stop).1

theorem IsWord.unique (h : IsWord word behind) (h' : IsWord other rest)
    (heq : word ++ behind = other ++ rest) : word = other ∧ behind = rest := by
  have htake := h.takeWhile
  rw [heq, h'.takeWhile] at htake
  subst htake
  exact ⟨rfl, List.append_cancel_left heq⟩

theorem restFault_of_takePair (hne : text ≠ []) (h : takePair text = .error fault) :
    RestFault text fault := by
  have hrun (text : List Char) :
      text.takeWhile isAlphabetic ++ text.dropWhile isAlphabetic = text :=
    List.takeWhile_append_dropWhile
  unfold takePair at h
  cases hspan : spanNumber text with
  | mk number behind =>
  rw [hspan] at h
  cases number with
  | nil =>
    dsimp only at h
    cases hword : text.takeWhile isAlphabetic with
    | nil =>
      obtain ⟨c, rest, rfl⟩ := List.exists_cons_of_ne_nil hne
      rw [hword] at h
      cases h
      exact .noNumber (not_digit_of_spanNumber (congrArg Prod.fst hspan) c rfl)
        (head?_of_takeWhile_eq_nil hword c rfl)
    | cons c word =>
      have hletters := isWord_takeWhile (by rw [hword]; exact List.cons_ne_nil _ _)
      rw [hword] at h
      cases h
      rw [← hrun text, ← hword]
      exact .missingNumber hletters
  | cons d number =>
    obtain ⟨rfl, hnumber⟩ := isLongestNumber_of_spanNumber hspan (List.cons_ne_nil d number)
    cases behind with
    | nil =>
      cases h
      rw [List.append_nil]
      exact .missingUnit hnumber.isNumber
    | cons c behind =>
      dsimp only at h
      cases hword : (c :: behind).takeWhile isAlphabetic with
      | nil =>
        rw [hword] at h
        cases h
        exact .noUnit hnumber (head?_of_takeWhile_eq_nil hword c rfl)
      | cons e word =>
        have hletters := isWord_takeWhile
          (by rw [hword]; exact List.cons_ne_nil _ _)
        rw [hword] at h hletters
        dsimp only at h
        split at h
        · cases h
        · rename_i hunit
          cases h
          have hbehind := hrun (c :: behind)
          rw [hword] at hbehind
          rw [← hbehind] at hnumber ⊢
          rw [← List.append_assoc]
          exact .unsupportedUnit hnumber hletters hunit

theorem takePair_of_restFault (h : RestFault text fault) : takePair text = .error fault := by
  have hsplit {number behind : List Char} (h : IsLongestNumber number behind) :
      ∃ d digits, number = d :: digits ∧
        spanNumber (number ++ behind) = (d :: digits, behind) := by
    obtain ⟨hne, hspan⟩ := isLongestNumber_iff.mp h
    obtain ⟨d, digits, rfl⟩ := List.exists_cons_of_ne_nil hne
    exact ⟨d, digits, rfl, hspan⟩
  unfold takePair
  cases h with
  | @missingNumber word behind hword =>
    obtain ⟨c, word, rfl⟩ := List.exists_cons_of_ne_nil hword.ne_nil
    have hhead : ∀ d ∈ (c :: word ++ behind).head?, d.isDigit = false := by
      intro d hd
      cases hd
      exact isDigit_of_isAlphabetic (hword.letters c (List.mem_cons_self ..))
    rw [spanNumber_of_not_digit hhead]
    dsimp only
    rw [hword.takeWhile]
  | @noNumber c behind hdigit hletter =>
    have hhead : ∀ d ∈ (c :: behind).head?, d.isDigit = false := by
      intro d hd
      cases hd
      exact hdigit
    rw [spanNumber_of_not_digit hhead]
    dsimp only
    rw [List.takeWhile_cons_of_neg (by simp [hletter])]
    rfl
  | missingUnit hnumber =>
    have hlongest : IsLongestNumber text [] := by
      refine ⟨hnumber, fun other _ hfront => ?_⟩
      rwa [List.append_nil] at hfront
    obtain ⟨d, digits, rfl, hspan⟩ := hsplit hlongest
    rw [List.append_nil] at hspan
    rw [hspan]
  | @unsupportedUnit number word behind hnumber hword hunit =>
    obtain ⟨d, digits, rfl, hspan⟩ := hsplit hnumber
    obtain ⟨c, word, rfl⟩ := List.exists_cons_of_ne_nil hword.ne_nil
    have htake := hword.takeWhile
    rw [List.append_assoc, hspan]
    rw [List.cons_append] at htake ⊢
    dsimp only
    rw [htake]
    exact if_neg hunit
  | @noUnit number behind c hnumber hletter =>
    obtain ⟨d, digits, rfl, hspan⟩ := hsplit hnumber
    rw [hspan]
    dsimp only
    rw [List.takeWhile_cons_of_neg (by simp [hletter])]
    rfl

theorem HasPairs.eq_append (h : HasPairs text pairs rest) :
    text = pairs.flatMap (fun pair => pair.1 ++ pair.2) ++ rest := by
  induction h with
  | nil => rfl
  | cons _ _ _ _ ih =>
    simp only [List.flatMap_cons, List.append_assoc]
    rw [← ih]

theorem HasPairs.append {more : List (List Char × List Char)} (h : HasPairs text pairs rest)
    (hmore : HasPairs rest more behind) : HasPairs text (pairs ++ more) behind := by
  induction h with
  | nil => exact hmore
  | cons hnumber hword hunit _ ih => exact .cons hnumber hword hunit (ih hmore)

theorem HasPairs.checkPairs_eq (h : HasPairs text pairs rest) :
    checkPairs text = checkPairs rest := by
  induction h with
  | nil => rfl
  | cons hnumber hword hunit _ ih =>
    rw [checkPairs_of_takePair (takePair_eq_ok_iff.mpr ⟨_, _, rfl, hnumber, hword, hunit⟩), ih]

/-- Where no pair follows, there is no other way to take pairs off than to stop earlier. -/
theorem HasPairs.isPrefix {others : List (List Char × List Char)} (h : HasPairs text others behind)
    (hall : HasPairs text pairs rest) (hstop : ∀ more, takePair rest ≠ .ok more) :
    others <+: pairs := by
  induction h generalizing pairs with
  | nil => exact List.nil_prefix
  | @cons number unit after _ others hnumber hword hunit _ ih =>
    generalize htext : number ++ unit ++ after = text at hall
    cases hall with
    | nil =>
      have htake := takePair_eq_ok_iff.mpr ⟨number, unit, htext.symm, hnumber, hword, hunit⟩
      exact absurd htake (hstop after)
    | cons hnumber' hword' _ hrest =>
      rw [List.append_assoc, List.append_assoc] at htext
      obtain ⟨rfl, hunits⟩ := hnumber.unique hnumber' htext
      obtain ⟨rfl, rfl⟩ := hword.unique hword' hunits
      exact List.cons_prefix_cons.mpr ⟨rfl, ih hrest⟩

theorem exists_hasPairs (text : List Char) :
    ∃ pairs rest, HasPairs text pairs rest ∧ ∀ more, takePair rest ≠ .ok more := by
  induction hlength : text.length using Nat.strongRecOn generalizing text with
  | ind n ih =>
    subst hlength
    cases htake : takePair text with
    | error fault => exact ⟨[], text, .nil, by simp [htake]⟩
    | ok behind =>
      obtain ⟨number, unit, rfl, hnumber, hword, hunit⟩ := takePair_eq_ok_iff.mp htake
      obtain ⟨pairs, rest, hpairs, hstop⟩ := ih _ (takePair_length_lt htake) behind rfl
      exact ⟨_, rest, .cons hnumber hword hunit hpairs, hstop⟩

theorem hasAllPairs_iff : HasAllPairs text pairs rest ↔
    HasPairs text pairs rest ∧ ∀ more, takePair rest ≠ .ok more := by
  constructor
  · rintro ⟨hpairs, hall⟩
    refine ⟨hpairs, fun more htake => ?_⟩
    obtain ⟨number, unit, rfl, hnumber, hword, hunit⟩ := takePair_eq_ok_iff.mp htake
    have hlonger := (hall _ more (hpairs.append (.cons hnumber hword hunit .nil))).length_le
    simp at hlonger
  · rintro ⟨hpairs, hstop⟩
    exact ⟨hpairs, fun others behind hothers => hothers.isPrefix hpairs hstop⟩

theorem HasAllPairs.unique {others : List (List Char × List Char)}
    (h : HasAllPairs text pairs rest) (h' : HasAllPairs text others behind) :
    others = pairs ∧ behind = rest := by
  have hle := (h'.2 _ _ h.1).length_le
  obtain rfl : others = pairs := (h.2 _ _ h'.1).eq_of_length_le hle
  refine ⟨rfl, ?_⟩
  have heq := h.1.eq_append.symm.trans h'.1.eq_append
  exact (List.append_cancel_left heq).symm

theorem checkPairs_eq_error : checkPairs text = .error fault ↔
    ∃ pairs rest, HasAllPairs text pairs rest ∧ rest ≠ [] ∧ RestFault rest fault := by
  have hstart {rest : List Char} {fault : Fault} (hne : rest ≠ [])
      (h : takePair rest = .error fault) : checkPairs rest = .error fault := by
    rw [checkPairs, if_neg hne]
    split
    · rename_i found hfound
      rw [h] at hfound
      cases hfound
      rfl
    · rename_i more hmore
      rw [h] at hmore
      cases hmore
  constructor
  · intro h
    obtain ⟨pairs, rest, hpairs, hstop⟩ := exists_hasPairs text
    rw [hpairs.checkPairs_eq] at h
    have hne : rest ≠ [] := by
      rintro rfl
      rw [checkPairs] at h
      cases h
    refine ⟨pairs, rest, hasAllPairs_iff.mpr ⟨hpairs, hstop⟩, hne, ?_⟩
    cases htake : takePair rest with
    | ok more => exact absurd htake (hstop more)
    | error found =>
      rw [hstart hne htake] at h
      cases h
      exact restFault_of_takePair hne htake
  · rintro ⟨pairs, rest, hall, hne, hfault⟩
    rw [hall.1.checkPairs_eq]
    exact hstart hne (takePair_of_restFault hfault)

end Pairs

theorem dropSign_eq_iff : dropSign text = body ↔ HasBody text body := by
  constructor
  · rintro rfl
    unfold dropSign
    split
    · exact .minus
    · exact .plus
    · rename_i hminus hplus
      refine .unsigned fun c hc => ?_
      obtain ⟨rest, rfl⟩ := List.head?_eq_some_iff.mp hc
      constructor
      · rintro rfl
        exact hplus rest rfl
      · rintro rfl
        exact hminus rest rfl
  · intro h
    cases h with
    | plus => rfl
    | minus => rfl
    | unsigned hsign =>
      unfold dropSign
      split
      · exact absurd rfl (hsign '-' rfl).2
      · exact absurd rfl (hsign '+' rfl).1
      · rfl

theorem hasBody_nil_iff : HasBody text [] ↔ text ∈ [[], ['+'], ['-']] := by
  rw [← dropSign_eq_iff]
  simp only [List.mem_cons, List.not_mem_nil, or_false]
  constructor
  · intro h
    cases dropSign_eq_iff.mp h with
    | plus => exact .inr (.inl rfl)
    | minus => exact .inr (.inr rfl)
    | unsigned => exact .inl rfl
  · rintro (rfl | rfl | rfl) <;> rfl

theorem check_of_space {text : String} (h : ∃ c ∈ text.toList, isSpace c = true) :
    check text = .error .whitespace := by
  have hne : text.toList ≠ [] := by
    obtain ⟨c, hc, -⟩ := h
    exact List.ne_nil_of_mem hc
  unfold check
  dsimp only
  rw [if_neg hne, if_pos (List.any_eq_true.mpr h)]

theorem check_of_body {text : String} (hspace : ∀ c ∈ text.toList, isSpace c = false)
    (hbody : HasBody text.toList body) :
    check text = if body = [] then .error .empty else checkPairs body := by
  have hany : text.toList.any isSpace = false := by simpa [List.any_eq_false] using hspace
  unfold check
  dsimp only
  rw [hany, if_neg Bool.false_ne_true, dropSign_eq_iff.mpr hbody]
  by_cases hnil : text.toList = []
  · rw [hnil] at hbody
    rw [if_pos hnil]
    cases hbody
    rfl
  · rw [if_neg hnil]
    cases body <;> rfl

theorem check_eq_error {text : String} :
    check text = .error fault ↔ HasFault text.toList fault := by
  by_cases hspace : ∃ c ∈ text.toList, isSpace c = true
  · have hsigns : text.toList ∉ [[], ['+'], ['-']] := by
      intro hmem
      obtain ⟨c, hc, hblank⟩ := hspace
      rw [isSpace_of_mem_sign hmem c hc] at hblank
      cases hblank
    rw [check_of_space hspace, Except.error.injEq]
    constructor
    · rintro rfl
      exact .whitespace hspace
    · intro h
      cases h with
      | whitespace => rfl
      | empty hempty => exact absurd hempty hsigns
      | rest hink =>
        obtain ⟨c, hc, hblank⟩ := hspace
        rw [hink c hc] at hblank
        cases hblank
  · have hink : ∀ c ∈ text.toList, isSpace c = false := by simpa using hspace
    have hbody : HasBody text.toList (dropSign text.toList) := dropSign_eq_iff.mp rfl
    generalize dropSign text.toList = body at hbody
    have hunique {other : List Char} (h : HasBody text.toList other) : other = body :=
      (dropSign_eq_iff.mpr h).symm.trans (dropSign_eq_iff.mpr hbody)
    rw [check_of_body hink hbody]
    by_cases hnil : body = []
    · subst hnil
      rw [if_pos rfl, Except.error.injEq]
      constructor
      · rintro rfl
        exact .empty (hasBody_nil_iff.mp hbody)
      · intro h
        cases h with
        | whitespace hblank => exact absurd hblank hspace
        | empty => rfl
        | rest _ hother hne => exact absurd (hunique hother) hne
    · rw [if_neg hnil, checkPairs_eq_error]
      constructor
      · rintro ⟨pairs, rest, hall, hne, hfault⟩
        exact .rest hink hbody hnil hall hne hfault
      · intro h
        cases h with
        | whitespace hblank => exact absurd hblank hspace
        | empty hempty => exact absurd (hunique (hasBody_nil_iff.mpr hempty)).symm hnil
        | rest _ hother _ hall hne hfault =>
          cases hunique hother
          exact ⟨_, _, hall, hne, hfault⟩

/-- A text is refused with the fault that is found in it. What is behind the sign is cut in one way
only into all the pairs at its front and the rest. -/
theorem check_diagnoses (text : String) :
    (∀ fault, check text = .error fault ↔ HasFault text.toList fault) ∧
      ∀ body, ∃! split : List (List Char × List Char) × List Char,
        HasAllPairs body split.1 split.2 := by
  refine ⟨fun _ => check_eq_error, fun body => ?_⟩
  obtain ⟨pairs, rest, hpairs⟩ := exists_hasPairs body
  have hall := hasAllPairs_iff.mpr hpairs
  refine ⟨(pairs, rest), hall, ?_⟩
  rintro ⟨others, behind⟩ hothers
  obtain ⟨rfl, rfl⟩ := hall.unique hothers
  rfl

end ProcessLint.Duration
