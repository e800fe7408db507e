import ProcessLint.Fix.Basic
import ProcessLint.Proofs.Text.Split

/-!
A text and its lines. The lines make up the text again, and lines without line feeds in them are
those of the text they are put together to.
-/
namespace ProcessLint

open Text

theorem Document.text_eq_join (doc : Document) : doc.text = Fix.join ['\n'] doc.lineChars := by
  unfold Fix.join Document.lineChars
  rw [List.intercalate_splitOn, String.ofList_toList]

theorem Document.newline_notMem (doc : Document) : ∀ line ∈ doc.lineChars, '\n' ∉ line :=
  fun _ hline => notMem_of_mem_splitOn hline

namespace Fix

theorem toList_join (separator : List Char) (lines : Lines) :
    (join separator lines).toList = List.intercalate separator lines :=
  String.toList_ofList

theorem splitOn_join {lines : Lines} (hne : lines ≠ []) (h : ∀ line ∈ lines, '\n' ∉ line) :
    (join ['\n'] lines).toList.splitOn '\n' = lines := by
  rw [toList_join]
  exact List.splitOn_intercalate '\n' h hne

theorem splitOn_join_cons {above below : Lines} {line : List Char}
    (habove : ∀ line ∈ above, '\n' ∉ line) (hline : '\n' ∉ line)
    (hbelow : ∀ line ∈ below, '\n' ∉ line) :
    (join ['\n'] (above ++ line :: below)).toList.splitOn '\n' = above ++ line :: below := by
  refine splitOn_join (by simp) ?_
  rw [List.forall_mem_append, List.forall_mem_cons]
  exact ⟨habove, hline, hbelow⟩

end Fix

end ProcessLint
