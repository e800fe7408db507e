import ProcessLint.Text.Split

/-!
Cutting a text loses nothing: the pieces and the separator make it up again. Pieces that are put
together with a separator are a first one and, behind it, the separator and each of the others.
-/
namespace ProcessLint.Text

theorem splitFirst_eq_some {sep : Char} : ∀ {text before behind : List Char},
    splitFirst sep text = some (before, behind) → text = before ++ sep :: behind ∧ sep ∉ before
  | [], before, behind, h => by cases h
  | c :: rest, before, behind, h => by
    unfold splitFirst at h
    by_cases hc : c = sep
    · rw [if_pos hc] at h
      cases h
      exact ⟨by rw [hc, List.nil_append], List.not_mem_nil⟩
    · rw [if_neg hc] at h
      obtain ⟨⟨before', behind'⟩, hrest, h⟩ := Option.map_eq_some_iff.mp h
      cases h
      obtain ⟨hsplit, hnot⟩ := splitFirst_eq_some hrest
      refine ⟨by rw [hsplit, List.cons_append], ?_⟩
      rw [List.mem_cons, not_or]
      exact ⟨Ne.symm hc, hnot⟩

theorem splitFirst_append {sep : Char} (behind : List Char) : ∀ {before : List Char},
    sep ∉ before → splitFirst sep (before ++ sep :: behind) = some (before, behind)
  | [], _ => by rw [List.nil_append, splitFirst, if_pos rfl]
  | c :: before, h => by
    rw [List.mem_cons, not_or] at h
    rw [List.cons_append, splitFirst, if_neg (Ne.symm h.1), splitFirst_append behind h.2]
    rfl

theorem splitFirst_eq_none {sep : Char} {text : List Char} :
    splitFirst sep text = none ↔ sep ∉ text := by
  constructor
  · intro h hmem
    obtain ⟨before, behind, rfl, hbefore⟩ := List.eq_append_cons_of_mem hmem
    rw [splitFirst_append behind hbefore] at h
    cases h
  · intro h
    refine Option.eq_none_iff_forall_ne_some.mpr ?_
    rintro ⟨before, behind⟩ hsome
    rw [(splitFirst_eq_some hsome).1] at h
    simp at h

theorem splitLast_eq_none {sep : Char} {text : List Char} :
    splitLast sep text = none ↔ sep ∉ text := by
  induction text with
  | nil => simp [splitLast]
  | cons c rest ih =>
    rw [splitLast, List.mem_cons, not_or, ← ih]
    cases splitLast sep rest with
    | none => simp [eq_comm]
    | some parts => simp

theorem splitLast_append {sep : Char} {behind : List Char} (h : sep ∉ behind) :
    ∀ before : List Char, splitLast sep (before ++ sep :: behind) = some (before, behind)
  | [] => by
    rw [List.nil_append, splitLast, splitLast_eq_none.mpr h]
    exact if_pos rfl
  | c :: before => by
    rw [List.cons_append, splitLast, splitLast_append h before]

theorem notMem_of_mem_splitOn {sep : Char} : ∀ {text piece : List Char},
    piece ∈ text.splitOn sep → sep ∉ piece
  | [], piece, h => by
    rw [List.splitOn_nil, List.mem_singleton] at h
    rw [h]
    exact List.not_mem_nil
  | c :: rest, piece, h => by
    obtain ⟨first, others, hrest⟩ := List.exists_cons_of_ne_nil (List.splitOn_ne_nil sep rest)
    rw [List.splitOn_cons_eq_if_modifyHead, hrest] at h
    split at h
    · rcases List.mem_cons.mp h with rfl | h
      · exact List.not_mem_nil
      · exact notMem_of_mem_splitOn (hrest ▸ h)
    · rename_i hc
      rw [List.modifyHead_cons] at h
      rcases List.mem_cons.mp h with rfl | h
      · have hfirst : sep ∉ first := notMem_of_mem_splitOn (hrest ▸ List.mem_cons_self ..)
        rw [List.mem_cons, not_or]
        exact ⟨fun heq => hc (by simp [heq]), hfirst⟩
      · exact notMem_of_mem_splitOn (hrest ▸ List.mem_cons_of_mem _ h)

theorem stripStart?_eq_some : ∀ {stem text rest : List Char},
    stripStart? stem text = some rest → text = stem ++ rest
  | [], text, rest, h => by
    cases h
    rfl
  | a :: stem, [], rest, h => by cases h
  | a :: stem, b :: text, rest, h => by
    unfold stripStart? at h
    by_cases hab : a = b
    · rw [if_pos hab] at h
      rw [hab, stripStart?_eq_some h, List.cons_append]
    · rw [if_neg hab] at h
      cases h

theorem stripStart?_append : ∀ (stem rest : List Char), stripStart? stem (stem ++ rest) = some rest
  | [], rest => rfl
  | a :: stem, rest => by
    rw [List.cons_append, stripStart?, if_pos rfl]
    exact stripStart?_append stem rest

theorem eq_append_of_startsWith {stem text : List Char} (h : startsWith stem text = true) :
    ∃ rest, text = stem ++ rest := by
  obtain ⟨rest, hrest⟩ := Option.isSome_iff_exists.mp h
  exact ⟨rest, stripStart?_eq_some hrest⟩

theorem dropFinal_isPrefix (c : Char) (text : List Char) : dropFinal c text <+: text := by
  unfold dropFinal
  split
  · exact List.dropLast_prefix text
  · exact List.prefix_rfl

theorem dropFinal_append (c : Char) (front : List Char) {back : List Char} (h : back ≠ []) :
    dropFinal c (front ++ back) = front ++ dropFinal c back := by
  unfold dropFinal
  rw [List.getLast?_append, List.getLast?_eq_some_getLast h, Option.some_or]
  split
  · exact List.dropLast_append_of_ne_nil h
  · rfl

theorem startsWith_iff_isPrefix {stem text : List Char} :
    startsWith stem text = true ↔ stem <+: text := by
  constructor
  · intro h
    obtain ⟨rest, rfl⟩ := eq_append_of_startsWith h
    exact List.prefix_append stem rest
  · rintro ⟨rest, rfl⟩
    unfold startsWith
    rw [stripStart?_append, Option.isSome_some]

section Intercalate

variable {α : Type} (separator : List α) {front back : List (List α)}

theorem intercalate_cons (piece : List α) (rest : List (List α)) :
    List.intercalate separator (piece :: rest) = piece ++ rest.flatMap (separator ++ ·) := by
  induction rest generalizing piece with
  | nil => simp [List.intercalate]
  | cons next rest ih =>
    rw [List.intercalate_cons_cons, ih, List.flatMap_cons, List.append_assoc, List.append_assoc]

/-- Behind the first pieces each one has a separator in front. -/
theorem intercalate_append_left (h : front ≠ []) :
    List.intercalate separator (front ++ back) =
      List.intercalate separator front ++ back.flatMap (separator ++ ·) := by
  obtain ⟨piece, rest, rfl⟩ := List.exists_cons_of_ne_nil h
  rw [List.cons_append, intercalate_cons, intercalate_cons, List.flatMap_append, List.append_assoc]

/-- Before the last pieces each one has a separator behind. -/
theorem intercalate_append_right (h : back ≠ []) :
    List.intercalate separator (front ++ back) =
      front.flatMap (· ++ separator) ++ List.intercalate separator back := by
  induction front with
  | nil => rfl
  | cons piece front ih =>
    have hne : front ++ back ≠ [] := List.append_ne_nil_of_right_ne_nil front h
    rw [List.cons_append, List.intercalate_cons_of_ne_nil hne, ih, List.flatMap_cons,
      List.append_assoc, List.append_assoc, List.append_assoc]

theorem intercalate_ne_nil {pieces : List (List α)} {piece : List α} (hmem : piece ∈ pieces)
    (hne : piece ≠ []) : List.intercalate separator pieces ≠ [] := by
  obtain ⟨before, behind, rfl⟩ := List.append_of_mem hmem
  rw [intercalate_append_right separator (List.cons_ne_nil piece behind), intercalate_cons]
  simp [hne]

end Intercalate

/-- Whatever is written for each separator then stands between the pieces. -/
theorem flatMap_eq_intercalate (sep : Char) (entity text : List Char) :
    (text.flatMap fun c => if c = sep then entity else [c]) =
      List.intercalate entity (text.splitOn sep) := by
  induction text with
  | nil => simp [List.intercalate]
  | cons c rest ih =>
    obtain ⟨first, others, hrest⟩ := List.exists_cons_of_ne_nil (List.splitOn_ne_nil sep rest)
    rw [hrest] at ih
    rw [List.flatMap_cons, ih, List.splitOn_cons_eq_if_modifyHead, hrest]
    by_cases hc : c = sep
    · rw [if_pos hc, if_pos (by simpa using hc), List.intercalate_cons_cons]
      rfl
    · rw [if_neg hc, if_neg (by simpa using hc), List.modifyHead_cons, intercalate_cons,
        intercalate_cons]
      rfl

end ProcessLint.Text
