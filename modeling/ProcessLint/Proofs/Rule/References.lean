import Mathlib.Data.List.Basic
import ProcessLint.Proofs.Text.Runs
import ProcessLint.Proofs.Text.Split
import ProcessLint.Rule.Environment

/-!
References to variables in a text. The check takes escaped dollar signs out of the text before it
looks for a reference, and so joins what stood on both sides of them. Behind a dollar sign without
braces nothing is gained by this, for the first character decides there. Between braces it makes a
name of two halves, which the text does not have.
-/
namespace ProcessLint.Environment

open Text

/-- A letter or an underscore, with any of these and of the digits behind it. -/
def IsName (text : List Char) : Prop :=
  ∃ first rest, text = first :: rest ∧ isNameStart first = true ∧
    ∀ c ∈ rest, isNameChar c = true

/-- What stands behind the dollar sign of a reference. -/
inductive BeginsReference : List Char → Prop
  | bare {name rest : List Char} : IsName name → BeginsReference (name ++ rest)
  | braced {name rest : List Char} :
      IsName name → BeginsReference ('\x7b' :: (name ++ '\x7d' :: rest))

/-- Braces with a name between them that is torn by escaped dollar signs. -/
inductive BeginsTorn : List Char → Prop
  | braced {body rest : List Char} :
      '$' ∈ body → IsName (dropEscapes body) → BeginsTorn ('\x7b' :: (body ++ '\x7d' :: rest))

/-- Whether a text that is read from left to right comes to a dollar sign behind which the test
holds. Two dollar signs are read as one that is escaped, and nothing is tested there. -/
def Meets (test : List Char → Prop) : List Char → Prop
  | '$' :: '$' :: rest => Meets test rest
  | c :: rest => c = '$' ∧ test rest ∨ Meets test rest
  | [] => False

variable {text body name rest : List Char} {c : Char}

section Names

theorem IsName.notMem (h : IsName name) (hc : isNameChar c = false) : c ∉ name := by
  obtain ⟨first, rest, rfl, hfirst, hrest⟩ := h
  intro hmem
  rcases List.mem_cons.mp hmem with rfl | hmem
  · simp [isNameChar, hfirst] at hc
  · simp [hrest c hmem] at hc

/-- Without braces the first character decides. -/
theorem BeginsReference.of_isNameStart (hc : isNameStart c = true) (rest : List Char) :
    BeginsReference (c :: rest) := by
  have hname : IsName [c] := ⟨c, [], rfl, hc, by simp⟩
  exact .bare hname

theorem beginsReference_cons : BeginsReference (c :: rest) ↔
    isNameStart c = true ∨
      c = '\x7b' ∧ ∃ name behind, IsName name ∧ rest = name ++ '\x7d' :: behind := by
  constructor
  · intro h
    generalize htext : c :: rest = text at h
    cases h with
    | bare hname =>
      obtain ⟨first, more, rfl, hfirst, -⟩ := hname
      left
      rwa [(List.cons.inj htext).1]
    | @braced name behind hname =>
      right
      exact ⟨(List.cons.inj htext).1, name, behind, hname, (List.cons.inj htext).2⟩
  · rintro (hc | ⟨rfl, name, behind, hname, rfl⟩)
    · exact .of_isNameStart hc rest
    · exact .braced hname

/-- The longest run of letters and digits ends at the closing brace, if there is a name. -/
theorem closes_iff : (isNameStart c && (rest.dropWhile isNameChar).head? = some '\x7d') = true ↔
    ∃ name behind, IsName name ∧ c :: rest = name ++ '\x7d' :: behind := by
  rw [Bool.and_eq_true, decide_eq_true_eq]
  constructor
  · rintro ⟨hc, hclose⟩
    obtain ⟨behind, hbehind⟩ := List.head?_eq_some_iff.mp hclose
    refine ⟨c :: rest.takeWhile isNameChar, behind, ?_, ?_⟩
    · exact ⟨c, _, rfl, hc, fun d hd => List.mem_takeWhile_imp hd⟩
    · rw [List.cons_append, ← hbehind, List.takeWhile_append_dropWhile]
  · rintro ⟨name, behind, ⟨first, more, rfl, hfirst, hmore⟩, h⟩
    rw [List.cons_append] at h
    obtain ⟨rfl, rfl⟩ := List.cons.inj h
    have hbrace : ∀ d ∈ ('\x7d' :: behind).head?, isNameChar d = false := by
      rintro d ⟨rfl⟩
      decide
    refine ⟨hfirst, ?_⟩
    rw [(takeWhile_run hmore hbrace).2]
    rfl

theorem not_beginsReference_nil : ¬ BeginsReference [] := by
  intro h
  generalize htext : [] = text at h
  cases h with
  | bare hname =>
    obtain ⟨first, more, rfl, -⟩ := hname
    cases htext
  | braced => cases htext

theorem startsReference_iff : startsReference text = true ↔ BeginsReference text := by
  cases text with
  | nil => simp [startsReference, not_beginsReference_nil]
  | cons c rest =>
    rw [beginsReference_cons]
    by_cases hc : c = '\x7b'
    · subst hc
      have hstart : isNameStart '\x7b' = false := by decide
      cases rest with
      | nil => simp [startsReference, hstart]
      | cons d rest =>
        rw [startsReference, closes_iff]
        simp [hstart]
    · have hbare : startsReference (c :: rest) = isNameStart c := by
        simp [startsReference, hc]
      simp [hbare, hc]

end Names

section Escapes

theorem dropEscapes_cons_of_ne (hc : c ≠ '$') (rest : List Char) :
    dropEscapes (c :: rest) = c :: dropEscapes rest := by
  rw [dropEscapes]
  intro _ hdollar
  exact absurd hdollar hc

theorem dropEscapes_sublist (text : List Char) : (dropEscapes text).Sublist text := by
  fun_induction dropEscapes text with
  | case1 rest ih => exact (ih.cons '$').cons '$'
  | case2 c rest _ ih => exact ih.cons_cons c
  | case3 => exact .slnil

theorem dropEscapes_eq_self (h : '$' ∉ text) : dropEscapes text = text := by
  induction text with
  | nil => rfl
  | cons c rest ih =>
    rw [List.mem_cons, not_or] at h
    rw [dropEscapes_cons_of_ne (Ne.symm h.1), ih h.2]

/-- No escape reaches over a character that is no dollar sign. -/
theorem dropEscapes_append_cons (hc : c ≠ '$') (body rest : List Char) :
    dropEscapes (body ++ c :: rest) = dropEscapes body ++ c :: dropEscapes rest := by
  fun_induction dropEscapes body with
  | case1 body ih => simpa [dropEscapes] using ih
  | case2 d body hsingle ih =>
    have hstill : ∀ tail, d = '$' → body ++ c :: rest = '$' :: tail → False := by
      intro tail hd htail
      cases body with
      | nil => exact hc (List.cons.inj htail).1
      | cons e body => exact hsingle body hd (by rw [(List.cons.inj htail).1])
    rw [List.cons_append, dropEscapes, ih, List.cons_append]
    exact hstill
  | case3 => simp [dropEscapes_cons_of_ne hc]

/-- A closing brace behind a name was there before, behind what became the name. -/
theorem exists_body_of_dropEscapes (hname : IsName name)
    (h : dropEscapes text = name ++ '\x7d' :: rest) :
    ∃ body behind, dropEscapes body = name ∧ text = body ++ '\x7d' :: behind := by
  have hbrace : '\x7d' ∈ text := (dropEscapes_sublist text).subset (by simp [h])
  obtain ⟨body, behind, rfl, hbody⟩ := List.eq_append_cons_of_mem hbrace
  have hleft : '\x7d' ∉ dropEscapes body :=
    fun hmem => hbody ((dropEscapes_sublist body).subset hmem)
  rw [dropEscapes_append_cons (by decide)] at h
  have hcut := splitFirst_append (dropEscapes behind) hleft
  rw [h, splitFirst_append rest (hname.notMem (by decide))] at hcut
  cases hcut
  exact ⟨body, behind, rfl, rfl⟩

/-- Behind a dollar sign that is not escaped, taking the escapes out adds the torn names. -/
theorem beginsReference_dropEscapes (h : text.head? ≠ some '$') :
    BeginsReference (dropEscapes text) ↔ BeginsReference text ∨ BeginsTorn text := by
  cases text with
  | nil =>
    have htorn : ¬ BeginsTorn [] := by
      intro htorn
      cases htorn
    rw [or_iff_left htorn, dropEscapes]
  | cons c rest =>
    have hc : c ≠ '$' := by simpa using h
    rw [dropEscapes_cons_of_ne hc]
    constructor
    · intro hbegins
      rcases beginsReference_cons.mp hbegins with hstart | ⟨rfl, name, behind, hname, hrest⟩
      · exact .inl (.of_isNameStart hstart rest)
      · obtain ⟨body, tail, rfl, rfl⟩ := exists_body_of_dropEscapes hname hrest
        by_cases hbody : '$' ∈ body
        · exact .inr (.braced hbody hname)
        · rw [dropEscapes_eq_self hbody] at hname
          exact .inl (.braced hname)
    · rintro (hbegins | htorn)
      · rcases beginsReference_cons.mp hbegins with hstart | ⟨rfl, name, behind, hname, rfl⟩
        · exact .of_isNameStart hstart _
        · have hdollar : '$' ∉ name := hname.notMem (by decide)
          rw [dropEscapes_append_cons (by decide), dropEscapes_eq_self hdollar]
          exact .braced hname
      · cases htorn with
        | braced _ hname =>
          rw [dropEscapes_append_cons (by decide)]
          exact .braced hname

end Escapes

section Reading

/-- A character that begins no escape is no dollar sign with another one behind it. -/
private theorem not_dollars (h : ∀ behind, c = '$' → rest = '$' :: behind → False) :
    c = '$' → rest.head? ≠ some '$' := by
  intro hc hrest
  obtain ⟨behind, hbehind⟩ := List.head?_eq_some_iff.mp hrest
  exact h behind hc hbehind

theorem meets_cons (test : List Char → Prop) (h : c = '$' → rest.head? ≠ some '$') :
    Meets test (c :: rest) ↔ c = '$' ∧ test rest ∨ Meets test rest := by
  rw [Meets]
  intro behind hc hrest
  exact h hc (by rw [hrest]; rfl)

theorem meets_or {first second : List Char → Prop} :
    Meets (fun rest => first rest ∨ second rest) text ↔ Meets first text ∨ Meets second text := by
  fun_induction dropEscapes text with
  | case1 rest ih => simpa only [Meets] using ih
  | case2 c rest hsingle ih =>
    have hnext := not_dollars hsingle
    rw [meets_cons _ hnext, meets_cons _ hnext, meets_cons _ hnext, ih]
    tauto
  | case3 => simp [Meets]

theorem hasReference_dropEscapes : hasReference (dropEscapes text) = true ↔
    Meets (fun rest => BeginsReference rest ∨ BeginsTorn rest) text := by
  fun_induction dropEscapes text with
  | case1 rest ih => simpa only [Meets] using ih
  | case2 c rest hsingle ih =>
    have hnext := not_dollars hsingle
    rw [meets_cons _ hnext, ← ih, hasReference, Bool.or_eq_true, Bool.and_eq_true,
      decide_eq_true_eq]
    refine or_congr_left (and_congr_right fun hc => ?_)
    rw [startsReference_iff, beginsReference_dropEscapes (hnext hc)]
  | case3 => simp [Meets, hasReference]

/-- A text is taken to use a variable just if reading it comes to a reference, or to braces with a
torn name between them. -/
theorem usesSubstitution_iff_meets (value : String) : usesSubstitution value = true ↔
    Meets BeginsReference value.toList ∨ Meets BeginsTorn value.toList := by
  rw [← meets_or]
  exact hasReference_dropEscapes

/-- The braces hold no name, but without the escaped dollar sign they would. -/
theorem usesSubstitution_torn : usesSubstitution "$\x7bA$$B\x7d" = true ∧
    ¬ Meets BeginsReference "$\x7bA$$B\x7d".toList := by
  have htext : "$\x7bA$$B\x7d".toList = ['$', '\x7b', 'A', '$', '$', 'B', '\x7d'] := rfl
  have hbraces : ¬ BeginsReference ['\x7b', 'A', '$', '$', 'B', '\x7d'] := by
    rw [← startsReference_iff]
    decide
  refine ⟨by decide +kernel, ?_⟩
  simpa [htext, Meets] using hbraces

end Reading

end ProcessLint.Environment
