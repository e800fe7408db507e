import Mathlib.Data.List.TakeWhile
import ProcessLint.Fix.Version
import ProcessLint.Proofs.Fix.Lines
import ProcessLint.Proofs.Postcondition

/-!
What declaring a version does to the lines of a text: one that holds an empty value is rewritten
behind its colon, or one is put in between. The other lines stay as they are.
-/
namespace ProcessLint

namespace Fix.Version

open Text

section Values

/-- A comment with one space in front; nothing if there is none. -/
def spaced (comment : List Char) : List Char :=
  match trimStart comment with
  | [] => []
  | comment => ' ' :: comment

/-- What stands behind a colon, cut in a value and a comment. The comment begins at the first number
sign with a space in front, or else at one that has nothing but white space in front. -/
inductive Cuts (rest : List Char) : List Char → List Char → Prop where
  | spaced (value behind : List Char) (text : rest = value ++ ' ' :: '#' :: behind)
      (first : ¬ [' ', '#'] <:+: value) : Cuts rest value ('#' :: behind)
  | alone (blanks behind : List Char) (text : rest = blanks ++ '#' :: behind)
      (blank : blanks.all isSpace = true) (unspaced : ¬ [' ', '#'] <:+: rest) :
      Cuts rest blanks ('#' :: behind)
  | plain (unspaced : ¬ [' ', '#'] <:+: rest) (uncommented : (trimStart rest).head? ≠ some '#') :
      Cuts rest rest []

private theorem not_infix_cons {c : Char} {text : List Char}
    (hstart : startsWith [' ', '#'] (c :: text) = false) (hrest : ¬ [' ', '#'] <:+: text) :
    ¬ [' ', '#'] <:+: c :: text := by
  rw [List.infix_cons_iff, not_or]
  refine ⟨fun hbegins => ?_, hrest⟩
  rw [startsWith_iff_isPrefix.mpr hbegins] at hstart
  cases hstart

private theorem cut_eq_some : ∀ {rest value comment : List Char},
    splitComment.cut rest = some (value, comment) →
      value ++ comment = rest ∧ startsWith [' ', '#'] comment = true ∧ ¬ [' ', '#'] <:+: value
  | [], value, comment, h => by cases h
  | c :: rest, value, comment, h => by
    unfold splitComment.cut at h
    split at h
    · rename_i hstart
      cases h
      exact ⟨rfl, hstart, by simp⟩
    · rename_i hstart
      obtain ⟨⟨value', comment'⟩, hrest, h⟩ := Option.map_eq_some_iff.mp h
      cases h
      obtain ⟨rfl, hcomment, hfirst⟩ := cut_eq_some hrest
      refine ⟨List.cons_append, hcomment, not_infix_cons ?_ hfirst⟩
      rw [Bool.eq_false_iff]
      intro hvalue
      obtain ⟨behind, hbehind⟩ := startsWith_iff_isPrefix.mp hvalue
      refine hstart (startsWith_iff_isPrefix.mpr ⟨behind ++ comment, ?_⟩)
      rw [← List.append_assoc, hbehind, List.cons_append]

private theorem cut_eq_none : ∀ {rest : List Char},
    splitComment.cut rest = none → ¬ [' ', '#'] <:+: rest
  | [], _ => by simp
  | c :: rest, h => by
    unfold splitComment.cut at h
    split at h
    · cases h
    · rename_i hstart
      rw [Option.map_eq_none_iff] at h
      exact not_infix_cons (by simpa using hstart) (cut_eq_none h)

theorem splitComment_append (rest : List Char) :
    (splitComment rest).1 ++ (splitComment rest).2 = rest := by
  unfold splitComment
  split
  · rename_i parts hcut
    obtain ⟨happend, -, -⟩ := cut_eq_some hcut
    exact happend
  · split
    · rfl
    · exact List.append_nil rest

theorem splitComment_cuts (rest : List Char) :
    ∃ value comment, Cuts rest value comment ∧ trim value = trim (splitComment rest).1 ∧
      spaced comment = spaced (splitComment rest).2 := by
  have hsign : isSpace '#' = false := by decide
  have hspace : isSpace ' ' = true := by decide
  unfold splitComment
  split
  · rename_i parts hcut
    obtain ⟨value, comment⟩ := parts
    obtain ⟨rfl, hstart, hfirst⟩ := cut_eq_some hcut
    obtain ⟨behind, rfl⟩ := eq_append_of_startsWith hstart
    refine ⟨value, '#' :: behind, .spaced _ _ rfl hfirst, rfl, ?_⟩
    simp [spaced, trimStart, hsign, hspace]
  · rename_i hcut
    have hunspaced := cut_eq_none hcut
    split
    · rename_i hcomment
      obtain ⟨behind, hbehind⟩ := List.head?_eq_some_iff.mp hcomment
      have hblank : (rest.takeWhile isSpace).all isSpace = true := List.all_takeWhile
      have hrest : rest = rest.takeWhile isSpace ++ '#' :: behind := by
        rw [← hbehind, trimStart, List.takeWhile_append_dropWhile]
      refine ⟨_, _, .alone _ _ hrest hblank hunspaced, ?_, ?_⟩
      · rw [trim, trimStart, List.dropWhile_eq_nil_iff.mpr (List.all_eq_true.mp hblank)]
        rfl
      · dsimp only
        rw [spaced, spaced, hbehind, trimStart, List.dropWhile_cons_of_neg (by simp [hsign])]
    · rename_i hcomment
      exact ⟨rest, [], .plain hunspaced hcomment, rfl, rfl⟩

/-- What stands before the colon is kept, and so is the comment. -/
theorem replaceValue_eq_ok {line ending new : List Char} (h : replaceValue line ending = .ok new) :
    ∃ key rest, dropFinal '\r' line = key ++ ':' :: rest ∧ ':' ∉ key ∧
      trim (splitComment rest).1 ∈ emptyValues ∧
      new = key ++ ": ".toList ++ defaultVersion ++ spaced (splitComment rest).2 ++ ending := by
  unfold replaceValue at h
  split at h
  · cases h
  · rename_i key rest hsplit
    obtain ⟨hline, hkey⟩ := splitFirst_eq_some hsplit
    dsimp only at h
    split at h
    · rename_i hempty
      cases h
      exact ⟨key, rest, hline, hkey, hempty, rfl⟩
    · cases h

end Values

/-- What stands before the line feeds, as on the first line. -/
def lineEnd (doc : Document) : List Char := if doc.lineChars.isReturned then ['\r'] else []

/-- Where a line is put for a version that has no key, and how far in. -/
inductive Gap : Lines → Lines → List Char → Prop where
  /-- Before the first line with content, as far in as that. -/
  | content (above : Lines) (line : List Char) (below : Lines) (content : isPreamble line = false)
      (block : ¬ "---".toList <+: trim line ∧ (trim line).head? ≠ some '\x7b') :
      Gap above (line :: below) (line.takeWhile isSpace)
  /-- Behind all lines, of which the last is not blank. -/
  | finish (above : Lines) (inked : ∀ line ∈ above.getLast?, isBlank line = false) :
      Gap above [] []
  /-- Before the last line, which is blank. -/
  | blank (above : Lines) (last : List Char) (blank : isBlank last = true) : Gap above [last] []

theorem insertionPoint_eq_ok {lines : Lines} {index : Nat} {indent : List Char}
    (h : insertionPoint lines = .ok (index, indent)) :
    ∃ above below, lines = above ++ below ∧ above.length = index ∧
      (∀ line ∈ above, isPreamble line = true) ∧ Gap above below indent := by
  have hlines := List.takeWhile_append_dropWhile (p := isPreamble) (l := lines)
  have hdropped : lines.drop (lines.takeWhile isPreamble).length = lines.dropWhile isPreamble := by
    have hleft : (lines.takeWhile isPreamble ++ lines.dropWhile isPreamble).drop
        (lines.takeWhile isPreamble).length = lines.dropWhile isPreamble := List.drop_left
    rwa [hlines] at hleft
  unfold insertionPoint at h
  dsimp only at h
  rw [hdropped] at h
  split at h
  · rename_i line below hdrop
    split at h
    · cases h
    · rename_i hblock
      cases h
      have hcontent : isPreamble line = false := by
        have hstop := List.head?_dropWhile_not isPreamble lines
        rwa [hdrop] at hstop
      refine ⟨_, _, hlines.symm, rfl, fun _ h => List.mem_takeWhile_imp h, ?_⟩
      rw [hdrop]
      rw [Bool.or_eq_true, not_or, startsWith_iff_isPrefix, decide_eq_true_eq] at hblock
      exact .content _ _ _ hcontent hblock
  · -- All lines are without content, so any of them may stand before the version.
    rename_i hdrop
    have hall := List.dropWhile_eq_nil_iff.mp hdrop
    split at h
    · rename_i last hlast
      obtain ⟨above, rfl⟩ := List.getLast?_eq_some_iff.mp hlast
      split at h
      · rename_i hblank
        cases h
        exact ⟨above, [last], rfl, by simp, fun _ h => hall _ (List.mem_append_left _ h),
          .blank _ _ hblank⟩
      · rename_i hinked
        cases h
        refine ⟨_, [], (List.append_nil _).symm, rfl, hall, .finish _ ?_⟩
        simpa using hinked
    · rename_i hnone
      cases h
      rw [List.getLast?_eq_none_iff.mp hnone]
      exact ⟨[], [], rfl, rfl, by simp, .finish _ (by simp)⟩

private theorem insertIdx_length {α : Type} (x : α) (below : List α) :
    ∀ above : List α, (above ++ below).insertIdx above.length x = above ++ x :: below
  | [] => rfl
  | item :: above => by
    rw [List.length_cons, List.cons_append, List.insertIdx_succ_cons,
      insertIdx_length x below above, List.cons_append]

private theorem eq_take_append {α : Type} {items : List α} {index : Nat} {item : α}
    (h : items[index]? = some item) :
    items = items.take index ++ item :: items.drop (index + 1) := by
  obtain ⟨hlt, rfl⟩ := List.getElem?_eq_some_iff.mp h
  rw [← List.drop_eq_getElem_cons hlt, List.take_append_drop]

/-- What becomes of a text whose version is empty: the line of the key is replaced, or where no
line is known for it, a line is put in between. -/
theorem apply_eq_ok {doc : Document} {text : String} (hversion : doc.version = "")
    (h : apply doc = .ok text) :
    (∃ above line below new, doc.lineChars = above ++ line :: below ∧
      (doc.positionOfKey "version").line = above.length + 1 ∧
      replaceValue line (lineEnd doc) = .ok new ∧ text = join ['\n'] (above ++ new :: below)) ∨
    ∃ above below indent, doc.lineChars = above ++ below ∧
      (doc.positionOfKey "version").line = 0 ∧ (∀ line ∈ above, isPreamble line = true) ∧
      Gap above below indent ∧
      text = join ['\n'] (above ++
        (indent ++ "version: ".toList ++ defaultVersion ++ lineEnd doc) :: below) := by
  unfold apply at h
  rw [if_neg (not_not_intro hversion)] at h
  dsimp only at h
  split at h
  · rename_i hposition
    left
    split at h
    · cases h
    · rename_i line hline
      obtain ⟨new, hnew, h⟩ := bind_eq_ok h
      cases h
      obtain ⟨hlt, -⟩ := List.getElem?_eq_some_iff.mp hline
      rw [List.set_eq_take_append_cons_drop, if_pos hlt]
      refine ⟨_, line, _, new, eq_take_append hline, ?_, hnew, rfl⟩
      rw [List.length_take]
      omega
  · rename_i hposition
    right
    obtain ⟨⟨index, indent⟩, hpoint, h⟩ := bind_eq_ok h
    cases h
    obtain ⟨above, below, hlines, rfl, hpreamble, hgap⟩ := insertionPoint_eq_ok hpoint
    refine ⟨above, below, indent, hlines, by omega, hpreamble, hgap, ?_⟩
    change join _ (doc.lineChars.insertIdx above.length _) = _
    rw [hlines, insertIdx_length, lineEnd, hlines]

end Fix.Version

end ProcessLint
