import Mathlib.Data.List.DropRight
import ProcessLint.Fix.Order

/-!
Where entries start and stop. An entry starts with the comments directly above its key and goes up
to the next; the last one stops before the line that ends it, without the blank lines there. So
the entries of keys that are lines of the text cut a part of it into pieces, and none is lost.
-/
namespace ProcessLint.Fix.Order

open Text

variable (lines : Lines)

theorem lineAt_eq_getElem {index : Nat} (h : index < lines.length) :
    lineAt lines index = lines[index] := by
  unfold lineAt
  rw [List.getD_eq_getElem?_getD, List.getElem?_eq_getElem h, Option.getD_some]

section Spans

variable {lines} {start mid stop : Nat}

theorem span_eq (hstart : start ≤ stop) (hstop : stop ≤ lines.length) :
    span lines start stop = (lines.take stop).drop start :=
  if_pos ⟨hstart, hstop⟩

theorem length_span (hstart : start ≤ stop) (hstop : stop ≤ lines.length) :
    (span lines start stop).length = stop - start := by
  rw [span_eq hstart hstop, List.length_drop, List.length_take, Nat.min_eq_left hstop]

theorem lineAt_span (hstop : stop ≤ lines.length) {index : Nat} (h : start + index < stop) :
    lineAt (span lines start stop) index = lineAt lines (start + index) := by
  have hspan : index < (span lines start stop).length := by
    rw [length_span (by omega) hstop]
    omega
  rw [lineAt_eq_getElem _ hspan, lineAt_eq_getElem _ (by omega)]
  simp only [span_eq (by omega : start ≤ stop) hstop, List.getElem_drop, List.getElem_take]

theorem span_zero (hstop : stop ≤ lines.length) : span lines 0 stop = lines.take stop := by
  rw [span_eq (Nat.zero_le _) hstop, List.drop_zero]

theorem span_length (hstart : start ≤ lines.length) :
    span lines start lines.length = lines.drop start := by
  rw [span_eq hstart (Nat.le_refl _), List.take_length]

theorem span_append (h₁ : start ≤ mid) (h₂ : mid ≤ stop) (h₃ : stop ≤ lines.length) :
    span lines start mid ++ span lines mid stop = span lines start stop := by
  rw [span_eq h₁ (by omega), span_eq h₂ h₃, span_eq (by omega) h₃]
  have hcut : (lines.take stop).take mid = lines.take mid := by
    rw [List.take_take, Nat.min_eq_left h₂]
  have hlength : start ≤ (lines.take mid).length := by
    rw [List.length_take]
    omega
  rw [← List.drop_append_of_le_length hlength, ← hcut, List.take_append_drop]

end Spans

section Blanks

theorem trailingBlanks_eq : trailingBlanks lines = (lines.rtakeWhile isBlank).length := by
  unfold trailingBlanks List.rtakeWhile
  rw [List.length_reverse]

theorem trailingBlanks_le : trailingBlanks lines ≤ lines.length := by
  rw [trailingBlanks_eq]
  exact (List.rtakeWhile_suffix isBlank lines).length_le

theorem length_rdropWhile :
    (lines.rdropWhile isBlank).length + trailingBlanks lines = lines.length := by
  rw [trailingBlanks_eq, ← List.length_append, List.rdropWhile_append_rtakeWhile]

theorem take_trailingBlanks :
    lines.take (lines.length - trailingBlanks lines) = lines.rdropWhile isBlank := by
  have hlength := length_rdropWhile lines
  have htaken := List.prefix_iff_eq_take.mp (List.rdropWhile_prefix isBlank lines)
  rw [htaken]
  congr 1
  omega

theorem isBlank_of_trailing {index : Nat} (hindex : index < lines.length)
    (h : lines.length - trailingBlanks lines ≤ index) : isBlank (lineAt lines index) = true := by
  have hlength := length_rdropWhile lines
  have hcut := List.rdropWhile_append_rtakeWhile (p := isBlank) (l := lines)
  have hline : (lines.rdropWhile isBlank ++ lines.rtakeWhile isBlank)[index]? =
      some (lineAt lines index) := by
    rw [hcut, lineAt_eq_getElem _ hindex, List.getElem?_eq_getElem hindex]
  rw [List.getElem?_append_right (by omega)] at hline
  exact List.mem_rtakeWhile_imp (List.mem_of_getElem? hline)

theorem not_isBlank_of_trailing (h : trailingBlanks lines < lines.length) :
    isBlank (lineAt lines (lines.length - trailingBlanks lines - 1)) = false := by
  have hlength := length_rdropWhile lines
  have hbody : lines.rdropWhile isBlank ≠ [] := List.ne_nil_of_length_pos (by omega)
  have hlast := List.rdropWhile_last_not isBlank lines hbody
  rw [List.getLast_eq_getElem] at hlast
  have hline := (List.rdropWhile_prefix isBlank lines).getElem
    (i := (lines.rdropWhile isBlank).length - 1) (by omega)
  rw [hline] at hlast
  rw [lineAt_eq_getElem _ (by omega)]
  have hindex : lines.length - trailingBlanks lines - 1 =
      (lines.rdropWhile isBlank).length - 1 := by omega
  simpa only [hindex, Bool.not_eq_true] using hlast

end Blanks

section Starts

/-- A comment line at the indentation of a key. -/
def IsAlignedComment (key index : Nat) : Prop :=
  isComment (lineAt lines index) = true ∧
    indentOf (lineAt lines index) = indentOf (lineAt lines key)

/-- The lines from `start` up to a key are the comments at its indentation, all that stand directly
above it below the line after the header. -/
structure StartsAt (header key start : Nat) : Prop where
  below_header : header + 1 ≤ start
  le_key : start ≤ key
  comments : ∀ index, start ≤ index → index < key → IsAlignedComment lines key index
  maximal : start = header + 1 ∨ ¬ IsAlignedComment lines key (start - 1)

variable {lines} {header key : Nat}

private theorem commentStart_startsAt (start : Nat) (hheader : header + 1 ≤ start)
    (hkey : start ≤ key)
    (hcomments : ∀ index, start ≤ index → index < key → IsAlignedComment lines key index) :
    StartsAt lines header key
      (commentStart lines (header + 1) (indentOf (lineAt lines key)) start) := by
  induction start with
  | zero => omega
  | succ above ih =>
    unfold commentStart
    dsimp only
    split
    · rename_i hcomment
      obtain ⟨htop, hcomment⟩ := hcomment
      refine ih (by omega) (by omega) fun index hindex hlt => ?_
      by_cases habove : index = above
      · rw [habove]
        exact hcomment
      · exact hcomments index (by omega) hlt
    · rename_i hcomment
      refine ⟨hheader, hkey, hcomments, ?_⟩
      by_cases htop : header + 1 < above + 1
      · exact .inr fun haligned => hcomment ⟨htop, haligned⟩
      · exact .inl (by omega)

theorem entryStart_startsAt (hkey : header < key) :
    StartsAt lines header key (entryStart lines header key) :=
  commentStart_startsAt key hkey (Nat.le_refl key) fun _ _ _ => by omega

/-- Entries of aligned keys start one after another. Two may start together, where the line of the
first key is a comment too. -/
theorem StartsAt.mono {next start nextStart : Nat} (hstart : StartsAt lines header key start)
    (hnext : StartsAt lines header next nextStart) (hlt : key < next)
    (hindent : indentOf (lineAt lines key) = indentOf (lineAt lines next)) :
    start ≤ nextStart := by
  by_contra hbefore
  have hle := hstart.le_key
  have hheader := hnext.below_header
  obtain ⟨hcomment, hline⟩ := hnext.comments (start - 1) (by omega) (by omega)
  rcases hstart.maximal with htop | habove
  · omega
  · exact habove ⟨hcomment, hline.trans hindent.symm⟩

end Starts

section Stops

/-- The line that ends the last entry, or the end of the lines. -/
structure EndsAt (key bound : Nat) : Prop where
  behind_key : key < bound
  inside : bound ≤ lines.length
  within : ∀ index, key < index → index < bound →
    endsEntry (indentOf (lineAt lines key)) (lineAt lines index) = false
  ends : bound = lines.length ∨
    endsEntry (indentOf (lineAt lines key)) (lineAt lines bound) = true

/-- The last entry goes up to the line that ends it, less the blank lines before that. -/
structure StopsAt (key stop : Nat) : Prop where
  key_le : key ≤ stop
  ends : ∃ bound, EndsAt lines key bound ∧ stop ≤ bound ∧
    ∀ index, stop ≤ index → index < bound → isBlank (lineAt lines index) = true
  trimmed : key < stop → isBlank (lineAt lines (stop - 1)) = false

variable {lines} {key : Nat}

private theorem exists_endsAt (hkey : key < lines.length) :
    ∃ bound, EndsAt lines key bound ∧
      lastStop lines key = bound - trailingBlanks (span lines key bound) := by
  unfold lastStop
  dsimp only
  split
  · rename_i offset hoffset
    obtain ⟨hlt, hends, hbefore⟩ := List.findIdx?_eq_some_iff_getElem.mp hoffset
    rw [List.length_drop] at hlt
    refine ⟨key + 1 + offset, ⟨by omega, by omega, fun index hindex hbound => ?_, .inr ?_⟩, rfl⟩
    · have hline := hbefore (index - (key + 1)) (by omega)
      have hindex : index < lines.length := by omega
      rw [List.getElem_drop] at hline
      rw [lineAt_eq_getElem lines hindex]
      have hsum : key + 1 + (index - (key + 1)) = index := by omega
      simpa only [hsum, Bool.not_eq_true] using hline
    · have hoffset : key + 1 + offset < lines.length := by omega
      rw [List.getElem_drop] at hends
      rw [lineAt_eq_getElem lines hoffset]
      exact hends
  · rename_i hnone
    refine ⟨lines.length, ⟨hkey, Nat.le_refl _, fun index hindex hbound => ?_, .inl rfl⟩, rfl⟩
    rw [List.findIdx?_eq_none_iff] at hnone
    rw [lineAt_eq_getElem _ hbound]
    refine hnone _ (List.mem_drop_iff_getElem.mpr ⟨index - (key + 1), by omega, ?_⟩)
    congr 1
    omega

theorem lastStop_stopsAt (hkey : key < lines.length) :
    StopsAt lines key (lastStop lines key) := by
  obtain ⟨bound, hbound, hstop⟩ := exists_endsAt hkey
  have hbehind := hbound.behind_key
  have hlength := length_span (Nat.le_of_lt hbehind) hbound.inside
  have hle := trailingBlanks_le (span lines key bound)
  refine ⟨by omega, ⟨bound, hbound, by omega, fun index hindex hlt => ?_⟩, fun hlt => ?_⟩
  · have hindex : index - key < (span lines key bound).length := by omega
    have hblank := isBlank_of_trailing (span lines key bound) hindex (by omega)
    rw [lineAt_span hbound.inside (by omega)] at hblank
    rwa [show key + (index - key) = index by omega] at hblank
  · have hline := not_isBlank_of_trailing (span lines key bound) (by omega)
    rw [lineAt_span hbound.inside (by omega)] at hline
    rwa [show key + ((span lines key bound).length - trailingBlanks (span lines key bound) - 1) =
      lastStop lines key - 1 by omega] at hline

end Stops

end ProcessLint.Fix.Order
