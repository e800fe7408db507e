import ProcessLint.Duration
import ProcessLint.Proofs.Postcondition
import ProcessLint.Proofs.Text.Numerals
import ProcessLint.Proofs.Text.Runs

/-!
The grammar of durations, and that the check accepts just what it has. The check takes the longest
number and behind it the longest run of letters. This loses no duration: a unit starts with a letter
and the next pair with a digit, so that in a duration the longest runs are those of the pairs.
-/
namespace ProcessLint.Duration

open Text

/-- Digits, and possibly a point with digits behind it. -/
inductive IsNumber : List Char → Prop
  | whole {digits : List Char} : AreDigits digits → IsNumber digits
  | fraction {digits fraction : List Char} :
      AreDigits digits → AreDigits fraction → IsNumber (digits ++ '.' :: fraction)

/-- Micro is written as the micro sign or as the Greek letter. -/
def IsUnit (text : List Char) : Prop :=
  String.ofList text ∈ ["ns", "us", "\u00b5s", "\u03bcs", "ms", "s", "m", "h"]

def IsPair (text : List Char) : Prop :=
  ∃ number unit, IsNumber number ∧ IsUnit unit ∧ text = number ++ unit

/-- One pair or more with nothing in between, and possibly a sign in front. -/
def IsDuration (text : List Char) : Prop :=
  ∃ sign pairs, sign ∈ [[], ['+'], ['-']] ∧ pairs ≠ [] ∧ (∀ pair ∈ pairs, IsPair pair) ∧
    text = sign ++ pairs.flatten

variable {text rest number unit pair : List Char}

section Parts

theorem IsUnit.letters (h : IsUnit unit) :
    unit ≠ [] ∧ ∀ c ∈ unit, isAlphabetic c = true ∧ isSpace c = false ∧ c ≠ '.' := by
  have hall : ∀ text ∈ ["ns", "us", "\u00b5s", "\u03bcs", "ms", "s", "m", "h"],
      text.toList ≠ [] ∧
        text.toList.all (fun c => isAlphabetic c && !isSpace c && c ≠ '.') = true := by
    decide
  have hunit := hall _ h
  rw [String.toList_ofList] at hunit
  simpa [List.all_eq_true, and_assoc] using hunit

/-- No number goes on into a unit. -/
theorem IsUnit.head (h : IsUnit unit) (rest : List Char) :
    ∀ c ∈ (unit ++ rest).head?, c.isDigit = false ∧ c ≠ '.' := by
  obtain ⟨hne, hletters⟩ := h.letters
  obtain ⟨c, unit, rfl⟩ := List.exists_cons_of_ne_nil hne
  intro d hd
  cases hd
  obtain ⟨halphabetic, -, hpoint⟩ := hletters c (List.mem_cons_self ..)
  exact ⟨isDigit_of_isAlphabetic halphabetic, hpoint⟩

/-- A number starts with a digit and has no white space. -/
theorem IsNumber.spec (h : IsNumber number) :
    (∃ c rest, number = c :: rest ∧ c.isDigit = true) ∧ ∀ c ∈ number, isSpace c = false := by
  have hdigits {digits : List Char} (h : AreDigits digits) :
      (∃ c rest, digits = c :: rest ∧ c.isDigit = true) ∧ ∀ c ∈ digits, isSpace c = false := by
    obtain ⟨c, rest, rfl⟩ := List.exists_cons_of_ne_nil h.ne_nil
    exact ⟨⟨c, rest, rfl, h.digits c (List.mem_cons_self ..)⟩,
      fun d hd => isSpace_of_isDigit (h.digits d hd)⟩
  cases h with
  | whole h => exact hdigits h
  | fraction h hfraction =>
    obtain ⟨⟨c, rest, rfl, hc⟩, hspace⟩ := hdigits h
    refine ⟨⟨c, _, rfl, hc⟩, ?_⟩
    intro d hd
    rcases List.mem_append.mp hd with hd | hd
    · exact hspace d hd
    · rcases List.mem_cons.mp hd with rfl | hd
      · decide
      · exact (hdigits hfraction).2 d hd

/-- A pair starts with a digit and has no white space. -/
theorem IsPair.spec (h : IsPair pair) :
    (∃ c rest, pair = c :: rest ∧ c.isDigit = true) ∧ ∀ c ∈ pair, isSpace c = false := by
  obtain ⟨number, unit, hnumber, hunit, rfl⟩ := h
  obtain ⟨⟨c, rest, rfl, hc⟩, hspace⟩ := hnumber.spec
  refine ⟨⟨c, _, rfl, hc⟩, ?_⟩
  intro d hd
  rcases List.mem_append.mp hd with hd | hd
  · exact hspace d hd
  · exact (hunit.letters.2 d hd).2.1

end Parts

section Scanning

theorem takeWhile_digits {digits : List Char} (h : AreDigits digits)
    (hrest : ∀ c ∈ rest.head?, c.isDigit = false) :
    (digits ++ rest).takeWhile isDigit = digits ∧ (digits ++ rest).dropWhile isDigit = rest :=
  takeWhile_run h.digits hrest

/-- A number with a point ends where its digits do, also before a second point. -/
theorem spanNumber_fraction {digits fraction : List Char} (h : AreDigits digits)
    (hfraction : AreDigits fraction) (hrest : ∀ c ∈ rest.head?, c.isDigit = false) :
    spanNumber (digits ++ '.' :: fraction ++ rest) = (digits ++ '.' :: fraction, rest) := by
  have hpoint : ∀ c ∈ ('.' :: (fraction ++ rest)).head?, c.isDigit = false := by
    intro c hc
    cases hc
    rfl
  obtain ⟨htake, hdrop⟩ := takeWhile_digits h hpoint
  obtain ⟨htakeBehind, hdropBehind⟩ := takeWhile_digits hfraction hrest
  have hshape : digits ++ '.' :: fraction ++ rest = digits ++ '.' :: (fraction ++ rest) := by
    simp
  rw [hshape]
  unfold spanNumber
  rw [htake, hdrop]
  obtain ⟨d, digits, rfl⟩ := List.exists_cons_of_ne_nil h.ne_nil
  obtain ⟨e, fraction, rfl⟩ := List.exists_cons_of_ne_nil hfraction.ne_nil
  split
  · rename_i hwhole hbehind
    cases hwhole
    cases hbehind
    rw [htakeBehind, hdropBehind]
  · rename_i hother
    exact absurd rfl (hother d digits _ rfl)

/-- A number that neither a digit nor a point follows is the longest. -/
theorem spanNumber_number (h : IsNumber number)
    (hrest : ∀ c ∈ rest.head?, c.isDigit = false ∧ c ≠ '.') :
    spanNumber (number ++ rest) = (number, rest) := by
  have hstop : ∀ c ∈ rest.head?, c.isDigit = false := fun c hc => (hrest c hc).1
  cases h with
  | whole h =>
    obtain ⟨htake, hdrop⟩ := takeWhile_digits h hstop
    unfold spanNumber
    rw [htake, hdrop]
    split
    · exact absurd rfl (hrest '.' rfl).2
    · rfl
  | fraction h hfraction => exact spanNumber_fraction h hfraction hstop

theorem isNumber_spanNumber (h : (spanNumber text).1 ≠ []) : IsNumber (spanNumber text).1 := by
  have hdigits (text : List Char) (hne : text.takeWhile isDigit ≠ []) :
      AreDigits (text.takeWhile isDigit) :=
    ⟨hne, fun _ hc => List.mem_takeWhile_imp hc⟩
  unfold spanNumber at h ⊢
  split
  · rename_i d whole behind hwhole hbehind
    have hfront := hdigits text (by rw [hwhole]; exact List.cons_ne_nil _ _)
    rw [hwhole] at hfront
    split
    · exact .whole hfront
    · rename_i hne
      exact .fraction hfront (hdigits behind hne)
  · rename_i hother
    split at h
    · rename_i hwhole hbehind
      exact absurd hbehind (hother _ _ _ hwhole)
    · exact .whole (hdigits text h)

/-- A turn of the loop takes off a pair that no letter follows. -/
theorem takePair_eq_ok : takePair text = .ok rest ↔
    ∃ pair, IsPair pair ∧ text = pair ++ rest ∧ ∀ c ∈ rest.head?, isAlphabetic c = false := by
  constructor
  · intro h
    have happend := spanNumber_append text
    have hnumber := @isNumber_spanNumber text
    unfold takePair at h
    generalize spanNumber text = span at h happend hnumber
    obtain ⟨number, behind⟩ := span
    cases number with
    | nil =>
      dsimp only at h
      split at h <;> cases h
    | cons d number =>
      cases behind with
      | nil => cases h
      | cons c behind =>
        dsimp only at h
        split at h
        · cases h
        · split at h
          · rename_i hunit
            cases h
            refine ⟨_, ⟨_, _, hnumber (List.cons_ne_nil _ _), hunit, rfl⟩, ?_,
              head?_dropWhile isAlphabetic _⟩
            rw [List.append_assoc, List.takeWhile_append_dropWhile]
            exact happend.symm
          · cases h
  · rintro ⟨_, ⟨number, unit, hnumber, hunit, rfl⟩, rfl, hrest⟩
    obtain ⟨hne, hletters⟩ := hunit.letters
    obtain ⟨c, unit, rfl⟩ := List.exists_cons_of_ne_nil hne
    have hletter := hunit.head rest
    obtain ⟨htake, hdrop⟩ := takeWhile_run (fun d hd => (hletters d hd).1) hrest
    obtain ⟨⟨d, digits, rfl, -⟩, -⟩ := hnumber.spec
    rw [List.append_assoc]
    unfold takePair
    rw [spanNumber_number hnumber hletter]
    rw [List.cons_append] at htake hdrop ⊢
    dsimp only
    rw [htake, hdrop]
    exact if_pos hunit

/-- No run of turns goes on for ever, since each turn leaves less of the text. -/
theorem not_endless (rests : Nat → List Char) :
    ¬ ∀ n, takePair (rests n) = .ok (rests (n + 1)) := by
  intro h
  have hbound : ∀ n, (rests n).length + n ≤ (rests 0).length := by
    intro n
    induction n with
    | zero => exact Nat.le_refl _
    | succ n ih =>
      have hlt := takePair_length_lt (h n)
      omega
  have hlast := hbound ((rests 0).length + 1)
  omega

theorem checkPairs_of_takePair (h : takePair text = .ok rest) :
    checkPairs text = checkPairs rest := by
  have hlt := takePair_length_lt h
  have hne : text ≠ [] := by
    rintro rfl
    simp at hlt
  rw [checkPairs, if_neg hne]
  split
  · rename_i hfault
    rw [h] at hfault
    cases hfault
  · rename_i found hfound
    rw [h] at hfound
    cases hfound
    rfl

theorem checkPairs_flatten {pairs : List (List Char)} (h : ∀ pair ∈ pairs, IsPair pair) :
    checkPairs pairs.flatten = .ok () := by
  induction pairs with
  | nil =>
    rw [List.flatten_nil, checkPairs]
    rfl
  | cons pair pairs ih =>
    obtain ⟨hpair, hpairs⟩ := List.forall_mem_cons.mp h
    have hstop : ∀ c ∈ pairs.flatten.head?, isAlphabetic c = false := by
      cases pairs with
      | nil => simp
      | cons next pairs =>
        obtain ⟨⟨d, rest, rfl, hd⟩, -⟩ := (hpairs next (List.mem_cons_self ..)).spec
        intro c hc
        cases hc
        exact isAlphabetic_of_isDigit hd
    have htake := takePair_eq_ok.mpr ⟨pair, hpair, rfl, hstop⟩
    rw [List.flatten_cons, checkPairs_of_takePair htake]
    exact ih hpairs

theorem exists_pairs_of_checkPairs (h : checkPairs text = .ok ()) :
    ∃ pairs : List (List Char), (∀ pair ∈ pairs, IsPair pair) ∧ text = pairs.flatten := by
  induction hlength : text.length using Nat.strongRecOn generalizing text with
  | ind n ih =>
    subst hlength
    rw [checkPairs] at h
    split at h
    · rename_i hnil
      exact ⟨[], by simp, hnil⟩
    · split at h
      · cases h
      · rename_i rest htake
        obtain ⟨pair, hpair, htext, -⟩ := takePair_eq_ok.mp htake
        obtain ⟨pairs, hpairs, hrest⟩ := ih rest.length (takePair_length_lt htake) h rfl
        refine ⟨pair :: pairs, List.forall_mem_cons.mpr ⟨hpair, hpairs⟩, ?_⟩
        rw [htext, hrest, List.flatten_cons]

end Scanning

theorem exists_sign_of_dropSign (text : List Char) :
    ∃ sign ∈ [[], ['+'], ['-']], text = sign ++ dropSign text := by
  unfold dropSign
  split
  · exact ⟨['-'], by simp, rfl⟩
  · exact ⟨['+'], by simp, rfl⟩
  · exact ⟨[], by simp, rfl⟩

/-- Only one sign is dropped, and what goes on with a digit has none. -/
theorem dropSign_append {sign : List Char} (hsign : sign ∈ [[], ['+'], ['-']]) {d : Char}
    (hd : d.isDigit = true) (rest : List Char) : dropSign (sign ++ d :: rest) = d :: rest := by
  simp only [List.mem_cons, List.not_mem_nil, or_false] at hsign
  rcases hsign with rfl | rfl | rfl
  · have hminus : d ≠ '-' := by
      rintro rfl
      cases hd
    have hplus : d ≠ '+' := by
      rintro rfl
      cases hd
    simp [dropSign, hminus, hplus]
  · rfl
  · rfl

theorem isSpace_of_mem_sign {sign : List Char} (h : sign ∈ [[], ['+'], ['-']]) :
    ∀ c ∈ sign, isSpace c = false := by
  have hsigns : ∀ sign ∈ [[], ['+'], ['-']], ∀ c ∈ sign, isSpace c = false := by
    simp [isSpace]
  exact hsigns sign h

theorem any_isSpace_eq_false {sign : List Char} {pairs : List (List Char)}
    (hsign : sign ∈ [[], ['+'], ['-']]) (hpairs : ∀ pair ∈ pairs, IsPair pair) :
    (sign ++ pairs.flatten).any isSpace = false := by
  rw [List.any_eq_false]
  intro c hc
  rw [Bool.not_eq_true]
  rcases List.mem_append.mp hc with hc | hc
  · exact isSpace_of_mem_sign hsign c hc
  · obtain ⟨pair, hpair, hc⟩ := List.mem_flatten.mp hc
    exact (hpairs pair hpair).spec.2 c hc

theorem isDuration_of_check {text : String} (h : check text = .ok ()) :
    IsDuration text.toList := by
  obtain ⟨sign, hsign, htext⟩ := exists_sign_of_dropSign text.toList
  unfold check at h
  dsimp only at h
  split at h
  · cases h
  · split at h
    · cases h
    · split at h
      · cases h
      · rename_i hbody
        obtain ⟨pairs, hpairs, hflatten⟩ := exists_pairs_of_checkPairs h
        refine ⟨sign, pairs, hsign, ?_, hpairs, by rw [← hflatten, ← htext]⟩
        rintro rfl
        exact hbody hflatten

theorem check_of_isDuration {text : String} (h : IsDuration text.toList) :
    check text = .ok () := by
  obtain ⟨sign, pairs, hsign, hne, hpairs, htext⟩ := h
  have hchecked := checkPairs_flatten hpairs
  have hspace := any_isSpace_eq_false hsign hpairs
  obtain ⟨pair, pairs, rfl⟩ := List.exists_cons_of_ne_nil hne
  obtain ⟨⟨d, rest, rfl, hd⟩, -⟩ := (hpairs pair (List.mem_cons_self ..)).spec
  rw [List.flatten_cons, List.cons_append] at htext hchecked hspace
  unfold check
  dsimp only
  rw [htext, if_neg (by simp), hspace, if_neg Bool.false_ne_true, dropSign_append hsign hd]
  exact hchecked

/-- A text is accepted just if it is a duration, and the loop that takes off one pair with each turn
comes to an end on every text. -/
theorem check_accepts (text : String) :
    (check text = .ok () ↔ IsDuration text.toList) ∧
      ∀ rests : Nat → List Char, ¬ ∀ n, takePair (rests n) = .ok (rests (n + 1)) :=
  ⟨⟨isDuration_of_check, check_of_isDuration⟩, not_endless⟩

end ProcessLint.Duration
