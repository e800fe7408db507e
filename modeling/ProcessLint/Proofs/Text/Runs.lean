import Mathlib.Data.List.TakeWhile

/-!
The longest run of characters of one class at the front of a text, and what stands behind it.
-/
namespace ProcessLint.Text

variable {isMember : Char → Bool} {run rest : List Char}

/-- A run that is followed by no further character of its class is the longest. -/
theorem takeWhile_run (hrun : ∀ c ∈ run, isMember c = true)
    (hrest : ∀ c ∈ rest.head?, isMember c = false) :
    (run ++ rest).takeWhile isMember = run ∧ (run ++ rest).dropWhile isMember = rest := by
  rw [List.takeWhile_append_of_pos hrun, List.dropWhile_append_of_pos hrun]
  cases rest with
  | nil => simp
  | cons c rest =>
    have hc : isMember c = false := hrest c rfl
    simp [hc]

theorem head?_dropWhile (isMember : Char → Bool) (text : List Char) :
    ∀ c ∈ (text.dropWhile isMember).head?, isMember c = false := by
  intro c hc
  have hstop := List.head?_dropWhile_not isMember text
  rw [Option.mem_def.mp hc] at hstop
  exact hstop

/-- Without a run at the front the text begins with a character of another class, or not at all. -/
theorem head?_of_takeWhile_eq_nil {text : List Char} (h : text.takeWhile isMember = []) :
    ∀ c ∈ text.head?, isMember c = false := by
  have happend : text.takeWhile isMember ++ text.dropWhile isMember = text :=
    List.takeWhile_append_dropWhile
  rw [h, List.nil_append] at happend
  rw [← happend]
  exact head?_dropWhile isMember text

end ProcessLint.Text
