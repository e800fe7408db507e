import ProcessLint.Proofs.Text.Runs
import ProcessLint.Text.Space

/-!
Texts without white space at either end. Trimming makes such a text of any text; at the front it is
done when the end is cut, since of what is left there the front stays.
-/
namespace ProcessLint.Text

/-- Neither the first character nor the last is white space. -/
structure IsTrimmed (text : List Char) : Prop where
  front : ∀ c ∈ text.head?, isSpace c = false
  back : ∀ c ∈ text.getLast?, isSpace c = false

variable {text : List Char}

theorem isTrimmed_of_forall (h : ∀ c ∈ text, isSpace c = false) : IsTrimmed text where
  front c hc := h c (List.mem_of_mem_head? hc)
  back c hc := h c (List.mem_of_mem_getLast? hc)

theorem trimEnd_prefix (text : List Char) : trimEnd text <+: text := by
  have hsuffix := List.dropWhile_suffix isSpace (l := text.reverse)
  unfold trimEnd
  rwa [← List.reverse_suffix, List.reverse_reverse]

theorem mem_trimStart {c : Char} (hc : isSpace c = false) (h : c ∈ text) : c ∈ trimStart text := by
  rw [← List.takeWhile_append_dropWhile (p := isSpace) (l := text), List.mem_append] at h
  refine h.resolve_left fun hspace => ?_
  rw [List.mem_takeWhile_imp hspace] at hc
  cases hc

/-- Trimming takes nothing out but white space. -/
theorem mem_trim {c : Char} (hc : isSpace c = false) (h : c ∈ text) : c ∈ trim text := by
  unfold trim trimEnd
  rw [List.mem_reverse]
  exact mem_trimStart hc (List.mem_reverse.mpr (mem_trimStart hc h))

theorem isTrimmed_trim (text : List Char) : IsTrimmed (trim text) := by
  constructor
  · intro c hc
    have hc : (trimEnd (trimStart text)).head? = some c := hc
    obtain ⟨rest, hrest⟩ := trimEnd_prefix (trimStart text)
    have hfront : c ∈ (trimStart text).head? := by
      rw [← hrest, List.head?_append, hc]
      rfl
    exact head?_dropWhile isSpace text c hfront
  · intro c hc
    unfold trim trimEnd at hc
    rw [List.getLast?_reverse] at hc
    exact head?_dropWhile isSpace _ c hc

/-- A text is white space, its core, and white space again. -/
def HasCore (text core : List Char) : Prop :=
  ∃ left right, text = left ++ (core ++ right) ∧ (∀ c ∈ left, isSpace c = true) ∧
    (∀ c ∈ right, isSpace c = true) ∧ IsTrimmed core

theorem hasCore_trim (text : List Char) : HasCore text (trim text) := by
  refine ⟨text.takeWhile isSpace, ((trimStart text).reverse.takeWhile isSpace).reverse, ?_, ?_, ?_,
    isTrimmed_trim text⟩
  · unfold trim trimEnd
    rw [← List.reverse_append, List.takeWhile_append_dropWhile, List.reverse_reverse]
    exact List.takeWhile_append_dropWhile.symm
  · intro c hc
    exact List.mem_takeWhile_imp hc
  · intro c hc
    exact List.mem_takeWhile_imp (List.mem_reverse.mp hc)

theorem trim_eq_iff {core : List Char} : trim text = core ↔ HasCore text core := by
  constructor
  · rintro rfl
    exact hasCore_trim text
  · rintro ⟨left, right, rfl, hleft, hright, hcore⟩
    cases core with
    | nil =>
      have hspace : ∀ c ∈ left ++ right, isSpace c = true :=
        List.forall_mem_append.mpr ⟨hleft, hright⟩
      unfold trim trimStart
      rw [List.nil_append, List.dropWhile_eq_nil_iff.mpr hspace]
      rfl
    | cons c rest =>
      have hstart : trimStart (left ++ (c :: rest ++ right)) = c :: rest ++ right := by
        refine (takeWhile_run hleft ?_).2
        intro d hd
        exact hcore.front d hd
      have hend : ((c :: rest) ++ right).reverse.dropWhile isSpace = (c :: rest).reverse := by
        rw [List.reverse_append]
        refine (takeWhile_run ?_ ?_).2
        · intro d hd
          exact hright d (List.mem_reverse.mp hd)
        · intro d hd
          rw [List.head?_reverse] at hd
          exact hcore.back d hd
      unfold trim trimEnd
      rw [hstart, hend, List.reverse_reverse]

end ProcessLint.Text
