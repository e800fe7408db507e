import ProcessLint.Proofs.Document.Order
import ProcessLint.Proofs.Fix.Version
import ProcessLint.Proofs.Text.Trim

/-!
Declaring a version writes one line. Where the line of the key is known, that line is written anew:
up to the colon it is kept, and so is its comment. Otherwise a line is added, and all lines above
it are without content. No line feed comes in but the one of the line that is added, so the lines
of the new text are those of the old one but for this line.
-/
namespace ProcessLint

theorem Document.get?_of_line_pos (doc : Document) {key : String}
    (h : 0 < (doc.positionOfKey key).line) :
    doc.sourceMap.get? [key] = some (doc.positionOfKey key) := by
  unfold positionOfKey at h ⊢
  cases hget : doc.sourceMap.get? [key] with
  | none =>
    rw [hget] at h
    exact absurd h (Nat.lt_irrefl 0)
  | some position => rfl

/-- In a document that is read, a key of which no line is known is not there at all. -/
theorem Document.IsRead.get?_eq_none {doc : Document} (hread : doc.IsRead) {path : List String}
    (h : ∀ position ∈ doc.sourceMap.get? path, position.line = 0) :
    doc.sourceMap.get? path = none := by
  by_contra hsome
  obtain ⟨position, hposition⟩ := Option.ne_none_iff_exists'.mp hsome
  obtain ⟨before, behind, hsplit, -⟩ := List.lookup_eq_some_iff.mp hposition
  have hline := line_pos_of_mem hread (path, position) (by simp [hsplit])
  have hzero := h position hposition
  dsimp only at hline
  omega

namespace Fix.Version

open Text

variable {doc : Document}

/-- How the lines of a document without a version change: one is replaced or one is added. -/
inductive ChangesLine (doc : Document) : Lines → Lines → Prop where
  /-- The line of the key holds an empty value. -/
  | replaced (above below : Lines) (line key rest value comment : List Char) (position : Position)
      (known : doc.sourceMap.get? ["version"] = some position)
      (number : position.line = above.length + 1)
      (old : dropFinal '\r' line = key ++ ':' :: rest) (first : ':' ∉ key)
      (cut : Cuts rest value comment)
      (empty : trim value ∈ ["", "\"\"", "''", "~", "null", "Null", "NULL"].map String.toList) :
      ChangesLine doc (above ++ line :: below)
        (above ++ (key ++ ": \"0.5\"".toList ++ spaced comment ++ lineEnd doc) :: below)
  /-- No line is known for the key, so that in a document that is read there is none. -/
  | inserted (above below : Lines) (indent : List Char)
      (unknown : ∀ position ∈ doc.sourceMap.get? ["version"], position.line = 0)
      (absent : doc.IsRead → doc.sourceMap.get? ["version"] = none)
      (empty : ∀ line ∈ above, trim line = [] ∨ (trim line).head? = some '#' ∨
        (trim line).head? = some '%' ∨ trim line = "---".toList)
      (gap : Gap above below indent) :
      ChangesLine doc (above ++ below)
        (above ++ (indent ++ "version: \"0.5\"".toList ++ lineEnd doc) :: below)

section Lines

theorem isPreamble_iff {line : List Char} : isPreamble line = true ↔
    trim line = [] ∨ (trim line).head? = some '#' ∨ (trim line).head? = some '%' ∨
      trim line = "---".toList := by
  unfold isPreamble
  simp only [Bool.or_eq_true, List.isEmpty_iff, decide_eq_true_eq, or_assoc]

theorem newline_notMem_lineEnd (doc : Document) : '\n' ∉ lineEnd doc := by
  unfold lineEnd
  split <;> decide

theorem mem_spaced {comment : List Char} {c : Char} (h : c ∈ spaced comment) :
    c = ' ' ∨ c ∈ comment := by
  unfold spaced at h
  split at h
  · cases h
  · exact (List.mem_cons.mp h).imp id fun h => (List.dropWhile_suffix isSpace).subset h

theorem newline_notMem_replaceValue {line new : List Char} (hline : '\n' ∉ line)
    (h : replaceValue line (lineEnd doc) = .ok new) : '\n' ∉ new := by
  obtain ⟨key, rest, hold, -, -, rfl⟩ := replaceValue_eq_ok h
  have hold : '\n' ∉ key ++ ':' :: rest := by
    rw [← hold]
    exact fun hmem => hline ((dropFinal_isPrefix '\r' line).subset hmem)
  have hcomment : '\n' ∉ spaced (splitComment rest).2 := by
    intro hmem
    rcases mem_spaced hmem with heq | hmem
    · cases heq
    · rw [← splitComment_append rest] at hold
      simp [hmem] at hold
  have hkey : '\n' ∉ key := fun hmem => hold (List.mem_append_left _ hmem)
  have hvalue : '\n' ∉ ": ".toList ++ defaultVersion := by decide
  simp only [List.mem_append, not_or] at hvalue ⊢
  exact ⟨⟨⟨⟨hkey, hvalue.1⟩, hvalue.2⟩, hcomment⟩, newline_notMem_lineEnd doc⟩

theorem Gap.newline_notMem {above below : Lines} {indent : List Char} (h : Gap above below indent)
    (hbelow : ∀ line ∈ below, '\n' ∉ line) : '\n' ∉ indent := by
  cases h with
  | content line =>
    have hline := hbelow line (List.mem_cons_self ..)
    exact fun hmem => hline ((List.takeWhile_prefix isSpace).subset hmem)
  | finish | blank => exact List.not_mem_nil

end Lines

section Values

/-- A value that begins as the new one does is cut behind that. -/
theorem Cuts.zero_mem {rest value comment more : List Char} (h : Cuts rest value comment)
    (hrest : rest = ' ' :: '"' :: '0' :: more) : '0' ∈ value := by
  subst hrest
  cases h with
  | spaced _ behind htext =>
    rcases value with _ | ⟨first, _ | ⟨second, _ | ⟨third, value⟩⟩⟩
    · simp at htext
    · simp at htext
    · simp at htext
    · simp only [List.cons_append, List.cons.injEq] at htext
      simp [← htext.2.2.1]
  | alone _ behind htext hblank =>
    have hquote : isSpace '"' = false := by decide
    rcases value with _ | ⟨first, _ | ⟨second, value⟩⟩
    · simp at htext
    · simp at htext
    · simp only [List.cons_append, List.cons.injEq] at htext
      simp [← htext.2.1, hquote] at hblank
  | plain => simp

/-- The value that is written is none of those that are replaced. -/
theorem replaceValue_ne {line ending new : List Char} (h : replaceValue line ending = .ok new) :
    new ≠ line := by
  obtain ⟨key, rest, hold, -, hempty, hnew⟩ := replaceValue_eq_ok h
  rintro rfl
  generalize hmore : '.' :: '5' :: '"' :: (spaced (splitComment rest).2 ++ ending) = more at hnew
  have hne : more ≠ [] := by simp [← hmore]
  have hline : new = (key ++ [':', ' ', '"', '0']) ++ more := by
    rw [hnew, ← hmore]
    simp [defaultVersion]
  rw [hline, dropFinal_append _ _ hne, List.append_assoc] at hold
  have hrest : rest = ' ' :: '"' :: '0' :: dropFinal '\r' more := by
    simpa using (List.append_cancel_left hold).symm
  obtain ⟨value, comment, hcuts, htrim, -⟩ := splitComment_cuts rest
  have hzero := mem_trim (by decide) (hcuts.zero_mem hrest)
  rw [htrim] at hzero
  have hspellings : ∀ spelling ∈ emptyValues, '0' ∉ spelling := by decide
  exact hspellings _ hempty hzero

end Values

section Changes

variable {above below : Lines} {line new indent : List Char}

theorem changesLine_replaced (hlines : doc.lineChars = above ++ line :: below)
    (hnumber : (doc.positionOfKey "version").line = above.length + 1)
    (hnew : replaceValue line (lineEnd doc) = .ok new) :
    ChangesLine doc doc.lineChars (above ++ new :: below) := by
  obtain ⟨key, rest, hold, hfirst, hempty, rfl⟩ := replaceValue_eq_ok hnew
  obtain ⟨value, comment, hcuts, htrim, hspaced⟩ := splitComment_cuts rest
  have hpos : 0 < (doc.positionOfKey "version").line := by omega
  have hknown := doc.get?_of_line_pos hpos
  rw [← htrim] at hempty
  rw [hlines, ← hspaced, List.append_assoc key]
  exact .replaced _ _ _ _ _ _ _ _ hknown hnumber hold hfirst hcuts hempty

theorem changesLine_inserted (hlines : doc.lineChars = above ++ below)
    (hnumber : (doc.positionOfKey "version").line = 0)
    (hpreamble : ∀ line ∈ above, isPreamble line = true) (hgap : Gap above below indent) :
    ChangesLine doc doc.lineChars (above ++
      (indent ++ "version: ".toList ++ defaultVersion ++ lineEnd doc) :: below) := by
  have hunknown : ∀ position ∈ doc.sourceMap.get? ["version"], position.line = 0 := by
    intro position hposition
    rw [Document.positionOfKey, Option.mem_def.mp hposition] at hnumber
    exact hnumber
  have hempty := fun line hline => isPreamble_iff.mp (hpreamble line hline)
  rw [hlines, List.append_assoc indent]
  exact .inserted _ _ _ hunknown (fun hread => hread.get?_eq_none hunknown) hempty hgap

/-- Declaring a version writes one line, and leaves all other lines as they are. -/
theorem apply_changesLine {text : String} (hversion : doc.version = "")
    (h : apply doc = .ok text) :
    text ≠ doc.text ∧ ChangesLine doc doc.lineChars (text.toList.splitOn '\n') := by
  have hnewline := doc.newline_notMem
  -- Texts with different lines are different.
  have hne {lines : Lines} (hsplit : text.toList.splitOn '\n' = lines)
      (hlines : lines ≠ doc.lineChars) : text ≠ doc.text := by
    rintro rfl
    exact hlines hsplit.symm
  rcases apply_eq_ok hversion h with ⟨above, line, below, new, hlines, hnumber, hnew, rfl⟩ |
    ⟨above, below, indent, hlines, hnumber, hpreamble, hgap, rfl⟩
  · rw [hlines, List.forall_mem_append, List.forall_mem_cons] at hnewline
    obtain ⟨habove, hline, hbelow⟩ := hnewline
    have hsplit := splitOn_join_cons habove (newline_notMem_replaceValue hline hnew) hbelow
    refine ⟨hne hsplit ?_, ?_⟩
    · rw [hlines]
      intro heq
      exact replaceValue_ne hnew (List.cons.inj (List.append_cancel_left heq)).1
    · rw [hsplit]
      exact changesLine_replaced hlines hnumber hnew
  · rw [hlines, List.forall_mem_append] at hnewline
    obtain ⟨habove, hbelow⟩ := hnewline
    have hvalue : '\n' ∉ "version: ".toList ++ defaultVersion := by decide
    have hnew : '\n' ∉ indent ++ "version: ".toList ++ defaultVersion ++ lineEnd doc := by
      simp only [List.mem_append, not_or] at hvalue ⊢
      exact ⟨⟨⟨hgap.newline_notMem hbelow, hvalue.1⟩, hvalue.2⟩, newline_notMem_lineEnd doc⟩
    have hsplit := splitOn_join_cons habove hnew hbelow
    refine ⟨hne hsplit ?_, ?_⟩
    · rw [hlines]
      intro heq
      have hlength := congrArg List.length heq
      simp only [List.length_append, List.length_cons] at hlength
      omega
    · rw [hsplit]
      exact changesLine_inserted hlines hnumber hpreamble hgap

/-- A version with an empty value between two comments. -/
def undecided : Document :=
  ⟨"p", "", [], "# web\r\nversion: ~ # later\r\n", ⟨[(["version"], ⟨2, 1⟩)]⟩, []⟩

theorem apply_changesLine_undecided : ∃ text, apply undecided = .ok text ∧
    text = "# web\r\nversion: \"0.5\" # later\r\n" ∧ text ≠ undecided.text ∧
    ChangesLine undecided undecided.lineChars (text.toList.splitOn '\n') := by
  have happly : apply undecided = .ok "# web\r\nversion: \"0.5\" # later\r\n" := by
    decide +kernel
  obtain ⟨hchanged, hline⟩ := apply_changesLine rfl happly
  exact ⟨_, happly, rfl, hchanged, hline⟩

end Changes

end Fix.Version

end ProcessLint
