import ProcessLint.Proofs.Text.Runs
import ProcessLint.Text.Space

/-!
The words of a text, told by how the text is made up of them: white space stands between two words,
and may stand at either end.
-/
namespace ProcessLint.Text

/-- A text and its words. A word is never cut in two: behind it the text ends, or goes on with white
space. -/
inductive HasWords : List Char → List (List Char) → Prop
  | nil : HasWords [] []
  | space {c : Char} {rest : List Char} {found : List (List Char)} :
      isSpace c = true → HasWords rest found → HasWords (c :: rest) found
  | word {first rest : List Char} {found : List (List Char)} :
      first ≠ [] → (∀ c ∈ first, isSpace c = false) → (∀ c ∈ rest.head?, isSpace c = true) →
      HasWords rest found → HasWords (first ++ rest) (first :: found)

theorem words_cons {c : Char} (hc : isSpace c = true) (rest : List Char) :
    words (c :: rest) = words rest := by
  unfold words
  rw [List.splitOnP_cons_eq_if_modifyHead, if_pos hc]
  rfl

theorem words_append {first rest : List Char} (hne : first ≠ [])
    (hfirst : ∀ c ∈ first, isSpace c = false) (hrest : ∀ c ∈ rest.head?, isSpace c = true) :
    words (first ++ rest) = first :: words rest := by
  cases rest with
  | nil =>
    unfold words
    rw [List.append_nil, List.splitOnP_eq_singleton hfirst]
    simp [hne]
  | cons c rest =>
    have hc : isSpace c = true := hrest c rfl
    rw [words_cons hc]
    unfold words
    rw [List.splitOnP_append_cons_of_forall_mem hfirst c hc, List.filter_cons_of_pos (by simpa)]

theorem exists_hasWords (text : List Char) : ∃ found, HasWords text found := by
  induction h : text.length using Nat.strongRecOn generalizing text with
  | ind n ih =>
    subst h
    cases text with
    | nil => exact ⟨[], .nil⟩
    | cons c rest =>
      by_cases hc : isSpace c = true
      · obtain ⟨found, hfound⟩ := ih rest.length (Nat.lt_succ_self _) rest rfl
        exact ⟨found, .space hc hfound⟩
      · -- The longest run from here is a word, and what follows is shorter.
        let isInk (d : Char) : Bool := !isSpace d
        have hink : isInk c = true := by simpa [isInk] using hc
        have hdrop : (c :: rest).dropWhile isInk = rest.dropWhile isInk :=
          List.dropWhile_cons_of_pos hink
        have hshort := (List.dropWhile_suffix isInk (l := rest)).length_le
        obtain ⟨found, hfound⟩ := ih (rest.dropWhile isInk).length
          (Nat.lt_succ_of_le hshort) (rest.dropWhile isInk) rfl
        have hword : HasWords ((c :: rest).takeWhile isInk ++ rest.dropWhile isInk)
            ((c :: rest).takeWhile isInk :: found) := by
          refine .word ?_ ?_ ?_ hfound
          · rw [List.takeWhile_cons_of_pos hink]
            exact List.cons_ne_nil _ _
          · intro d hd
            simpa [isInk] using List.mem_takeWhile_imp hd
          · intro d hd
            simpa [isInk] using head?_dropWhile isInk rest d hd
        rw [← hdrop, List.takeWhile_append_dropWhile] at hword
        exact ⟨_, hword⟩

theorem words_eq_iff {text : List Char} {found : List (List Char)} :
    words text = found ↔ HasWords text found := by
  have hwords {text : List Char} {found : List (List Char)} (h : HasWords text found) :
      words text = found := by
    induction h with
    | nil => rfl
    | space hc _ ih => rw [words_cons hc, ih]
    | word hne hfirst hrest _ ih => rw [words_append hne hfirst hrest, ih]
  constructor
  · rintro rfl
    obtain ⟨found, hfound⟩ := exists_hasWords text
    rw [hwords hfound]
    exact hfound
  · exact hwords

end ProcessLint.Text
