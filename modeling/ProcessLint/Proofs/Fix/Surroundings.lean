import ProcessLint.Proofs.Document.Reading
import ProcessLint.Proofs.Fix.Sorted
import ProcessLint.Proofs.Fix.Version

/-!
What sorting does to the text around the entries. The lines there stay, but all lines are put
together anew and end as the first one does. So the text is kept where its lines end alike, and
nowhere else.
-/
namespace ProcessLint.Fix.Order

open Text Version

section Ends

variable {lines : Lines} {line written front below : List Char}

/-- The carriage return at the end of a line, if there is one. -/
def finalReturn (line : List Char) : List Char := if line.getLast? = some '\r' then ['\r'] else []

theorem dropFinal_append_finalReturn (line : List Char) :
    dropFinal '\r' line ++ finalReturn line = line := by
  unfold dropFinal finalReturn
  split
  · rename_i hlast
    obtain ⟨body, rfl⟩ := List.getLast?_eq_some_iff.mp hlast
    rw [List.dropLast_concat]
  · exact List.append_nil line

/-- An end of a line, but for the line feed. -/
def IsEnd (last : List Char) : Prop := last = [] ∨ last = ['\r']

theorem isEnd_finalReturn (line : List Char) : IsEnd (finalReturn line) := by
  unfold finalReturn
  split
  · exact .inr rfl
  · exact .inl rfl

theorem isEnd_lineEnd (doc : Document) : IsEnd (lineEnd doc) := by
  unfold lineEnd
  split
  · exact .inr rfl
  · exact .inl rfl

theorem ending_eq (doc : Document) : ending doc = lineEnd doc ++ ['\n'] := by
  unfold ending lineEnd
  split <;> rfl

variable {last : List Char}

theorem line_prefix_iff (hlast : IsEnd last) :
    line ++ '\n' :: below <+: dropFinal '\r' line ++ (last ++ '\n' :: written) ↔
      finalReturn line = last ∧ below <+: written := by
  have hends {own : List Char} (hown : IsEnd own) :
      own ++ '\n' :: below <+: last ++ '\n' :: written ↔ own = last ∧ below <+: written := by
    rcases hown with rfl | rfl <;> rcases hlast with rfl | rfl <;> simp [List.cons_prefix_cons]
  have hbody : dropFinal '\r' line ++ (finalReturn line ++ '\n' :: below) <+:
      dropFinal '\r' line ++ (last ++ '\n' :: written) ↔
        finalReturn line ++ '\n' :: below <+: last ++ '\n' :: written :=
    List.prefix_append_right_inj _
  rw [← List.append_assoc, dropFinal_append_finalReturn] at hbody
  exact hbody.trans (hends (isEnd_finalReturn line))

/-- A line that is written without its carriage return begins where a line feed is written. -/
private theorem not_suffix_shorter {body : List Char} (hline : '\n' ∉ body ++ ['\r']) :
    ¬ front ++ '\n' :: (body ++ ['\r']) <:+ written ++ '\n' :: body := by
  intro hsuffix
  have hbehind := (List.suffix_append front ('\n' :: (body ++ ['\r']))).trans hsuffix
  have hbody := (List.suffix_cons '\n' (body ++ ['\r'])).trans hbehind
  have hwritten := List.suffix_append written ('\n' :: body)
  have hlength : (body ++ ['\r']).length = ('\n' :: body).length := by simp
  have hsame := List.suffix_of_suffix_length_le hbody hwritten (Nat.le_of_eq hlength)
  have heq := hsame.eq_of_length hlength
  exact hline (heq ▸ List.mem_cons_self ..)

/-- A line that is written with a carriage return that it does not have ends otherwise. -/
private theorem not_suffix_longer (hline : line.getLast? ≠ some '\r') :
    ¬ front ++ '\n' :: line <:+ written ++ '\n' :: (line ++ ['\r']) := by
  rintro ⟨more, hmore⟩
  have hfinal := congrArg List.getLast? hmore
  simp only [List.getLast?_append, List.getLast?_cons, Option.some_or, List.getLast?_nil,
    Option.getD_none, Option.getD_some, Option.some.injEq] at hfinal
  cases hown : line.getLast? with
  | none =>
    rw [hown] at hfinal
    cases hfinal
  | some c =>
    rw [hown] at hfinal hline
    exact hline (congrArg some hfinal)

/-- From the end of the text on, a line that ends otherwise is out of step with the line feeds. -/
theorem line_suffix_iff (front written : List Char) (hline : '\n' ∉ line) (hlast : IsEnd last) :
    front ++ '\n' :: line <:+ written ++ '\n' :: (dropFinal '\r' line ++ last) ↔
      finalReturn line = last ∧ front <:+ written := by
  by_cases hsame : finalReturn line = last
  · rw [← hsame, dropFinal_append_finalReturn, List.suffix_append_self_iff, and_iff_right rfl]
  · refine iff_of_false (fun hsuffix => ?_) fun h => hsame h.1
    by_cases hreturned : line.getLast? = some '\r'
    · rw [finalReturn, if_pos hreturned] at hsame
      obtain rfl : last = [] := hlast.resolve_right (Ne.symm hsame)
      obtain ⟨body, rfl⟩ := List.getLast?_eq_some_iff.mp hreturned
      rw [dropFinal, if_pos hreturned, List.dropLast_concat, List.append_nil] at hsuffix
      exact not_suffix_shorter hline hsuffix
    · rw [finalReturn, if_neg hreturned] at hsame
      obtain rfl : last = ['\r'] := hlast.resolve_left (Ne.symm hsame)
      rw [dropFinal, if_neg hreturned] at hsuffix
      exact not_suffix_longer hreturned hsuffix

theorem lines_prefix_iff (hlast : IsEnd last) :
    lines.flatMap (· ++ ['\n']) <+:
        (lines.map (dropFinal '\r')).flatMap (· ++ (last ++ ['\n'])) ++ written ↔
      ∀ line ∈ lines, finalReturn line = last := by
  induction lines with
  | nil => simp
  | cons line lines ih =>
    rw [List.forall_mem_cons, ← ih, ← line_prefix_iff hlast]
    simp

theorem lines_suffix_iff (hlast : IsEnd last) (hlines : ∀ line ∈ lines, '\n' ∉ line) :
    front ++ lines.flatMap ('\n' :: ·) <:+
        written ++ (lines.map (dropFinal '\r')).flatMap (last ++ ['\n'] ++ ·) ++ last ↔
      (∀ line ∈ lines, finalReturn line = last) ∧ front <:+ written ++ last := by
  induction lines using List.reverseRecOn with
  | nil => simp
  | append_singleton lines line ih =>
    rw [List.forall_mem_append, List.forall_mem_singleton] at hlines ⊢
    rw [and_right_comm, ← ih hlines.1, and_comm, ← line_suffix_iff _ _ hlines.2 hlast]
    simp

end Ends

section Around

/-- The text before a line. -/
def textBefore (lines : Lines) (start : Nat) : List Char :=
  (lines.take start).flatMap (· ++ ['\n'])

/-- The text behind the lines before one, from the end of the last of these on. -/
def textBehind (lines : Lines) (stop : Nat) : List Char :=
  finalReturn (lineAt lines (stop - 1)) ++ (lines.drop stop).flatMap ('\n' :: ·)

theorem intercalate_around (above inner below : Lines) (last : List Char) :
    List.intercalate ['\n'] (above ++ (inner ++ [last]) ++ below) =
      above.flatMap (· ++ ['\n']) ++ (inner.flatMap (· ++ ['\n']) ++ dropFinal '\r' last) ++
        (finalReturn last ++ below.flatMap ('\n' :: ·)) := by
  have hlast (text : List Char) : dropFinal '\r' last ++ (finalReturn last ++ text) =
      last ++ text := by
    rw [← List.append_assoc, dropFinal_append_finalReturn]
  rw [intercalate_append_left _ (by simp), intercalate_append_right _ (by simp),
    intercalate_append_right _ (by simp), intercalate_cons]
  simp [hlast]

/-- Between the two there is what stands on the lines in between. -/
theorem intercalate_eq_around {lines : Lines} {start stop : Nat} (hstart : start < stop)
    (hstop : stop ≤ lines.length) : ∃ inside, List.intercalate ['\n'] lines =
      textBefore lines start ++ inside ++ textBehind lines stop := by
  have hlast : stop - 1 < lines.length := by omega
  have hlines : lines = lines.take start ++
      ((lines.take (stop - 1)).drop start ++ [lineAt lines (stop - 1)]) ++ lines.drop stop := by
    have hdrop := List.drop_eq_getElem_cons hlast
    rw [Nat.sub_add_cancel (by omega), ← lineAt_eq_getElem lines hlast] at hdrop
    have htake : lines.take start = (lines.take (stop - 1)).take start := by
      rw [List.take_take, Nat.min_eq_left (by omega)]
    rw [← List.append_assoc, List.append_assoc _ [_], List.singleton_append, ← hdrop, htake,
      List.take_append_drop, List.take_append_drop]
  have haround := intercalate_around (lines.take start) ((lines.take (stop - 1)).drop start)
    (lines.drop stop) (lineAt lines (stop - 1))
  rw [← hlines] at haround
  exact ⟨_, haround⟩

end Around

section Sorting

variable {doc : Document} {out : String}

/-- When the text around the entries is kept. The lines there end as the first line does, and the
last line of the text, behind which there is no line feed, has no carriage return either. One that
ends the entries is also at the end of what is written of them. -/
structure EndsAlike (doc : Document) (start stop : Nat) (written : List Char) : Prop where
  before : ∀ line ∈ doc.lineChars.take start, finalReturn line = lineEnd doc
  behind : ∀ line ∈ (doc.lineChars.drop stop).dropLast, finalReturn line = lineEnd doc
  last : ∀ line ∈ (doc.lineChars.drop stop).getLast?, finalReturn line = []
  entries : finalReturn (lineAt doc.lineChars (stop - 1)) <:+
    written ++ if stop < doc.lineChars.length then lineEnd doc else []

/-- Where all lines end as the first one does, and the last one is not ended, nothing can change. -/
theorem endsAlike_of_forall {start stop : Nat} (written : List Char)
    (hstart : start < stop) (hstop : stop ≤ doc.lineChars.length)
    (hends : ∀ line ∈ doc.lineChars.dropLast, finalReturn line = lineEnd doc)
    (hlast : ∀ line ∈ doc.lineChars.getLast?, finalReturn line = []) :
    EndsAlike doc start stop written := by
  rw [List.dropLast_eq_take] at hends
  constructor
  case before =>
    intro line hline
    have hbefore : start ≤ doc.lineChars.length - 1 := by omega
    exact hends line ((List.take_prefix_take_left hbefore).subset hline)
  case behind =>
    intro line hline
    have hpos := List.length_pos_of_mem hline
    rw [List.length_dropLast, List.length_drop] at hpos
    have hlength : doc.lineChars.length - 1 = stop + (doc.lineChars.length - stop - 1) := by omega
    rw [List.dropLast_eq_take, List.length_drop, List.take_drop, ← hlength] at hline
    exact hends line (List.mem_of_mem_drop hline)
  case last =>
    intro line hline
    rw [List.getLast?_drop] at hline
    split at hline
    · cases hline
    · exact hlast line hline
  case entries =>
    have hindex : stop - 1 < doc.lineChars.length := by omega
    have hline := lineAt_eq_getElem doc.lineChars hindex
    by_cases hbehind : stop < doc.lineChars.length
    · rw [if_pos hbehind, hends _ (List.mem_take_iff_getElem.mpr ⟨stop - 1, by omega, hline.symm⟩)]
      exact List.suffix_append written (lineEnd doc)
    · obtain rfl : stop = doc.lineChars.length := by omega
      rw [hlast _ (by rw [List.getLast?_eq_getElem?, hline]; exact List.getElem?_eq_getElem _)]
      exact List.nil_suffix

theorem textBefore_prefix_iff (doc : Document) (start : Nat) (written : List Char) :
    textBefore doc.lineChars start <+:
        (doc.bareLines.take start).flatMap (· ++ ending doc) ++ written ↔
      ∀ line ∈ doc.lineChars.take start, finalReturn line = lineEnd doc := by
  rw [ending_eq, Document.bareLines, ← List.map_take]
  exact lines_prefix_iff (isEnd_lineEnd doc)

theorem textBehind_suffix_iff (doc : Document) (stop : Nat) (written : List Char) :
    textBehind doc.lineChars stop <:+
        written ++ (doc.bareLines.drop stop).flatMap (ending doc ++ ·) ↔
      (∀ line ∈ (doc.lineChars.drop stop).dropLast, finalReturn line = lineEnd doc) ∧
        (∀ line ∈ (doc.lineChars.drop stop).getLast?, finalReturn line = []) ∧
        finalReturn (lineAt doc.lineChars (stop - 1)) <:+
          written ++ if stop < doc.lineChars.length then lineEnd doc else [] := by
  rw [ending_eq, Document.bareLines, ← List.map_drop, textBehind]
  rcases List.eq_nil_or_concat (doc.lineChars.drop stop) with hnil | ⟨lines, line, hdrop⟩
  · have hlength := List.drop_eq_nil_iff.mp hnil
    rw [hnil, if_neg (by omega)]
    simp
  · have hbehind : stop < doc.lineChars.length := by
      have hlength := congrArg List.length hdrop
      rw [List.length_drop, List.length_concat] at hlength
      omega
    have hnewline : ∀ line ∈ doc.lineChars.drop stop, '\n' ∉ line :=
      fun line hline => doc.newline_notMem line (List.mem_of_mem_drop hline)
    rw [List.concat_eq_append] at hdrop
    rw [hdrop, List.forall_mem_append, List.forall_mem_singleton] at hnewline
    rw [hdrop]
    have hline := line_suffix_iff
      (finalReturn (lineAt doc.lineChars (stop - 1)) ++ lines.flatMap ('\n' :: ·))
      (written ++ (lines.map (dropFinal '\r')).flatMap (lineEnd doc ++ ['\n'] ++ ·) ++ lineEnd doc)
      hnewline.2 (.inl rfl)
    rw [lines_suffix_iff (isEnd_lineEnd doc) hnewline.1] at hline
    rw [List.dropLast_concat, List.getLast?_concat, if_pos hbehind, and_left_comm]
    simpa using hline

theorem pairwise_keyLine (hinversion : firstInversion doc.processOrder ≠ none)
    (h : apply doc = .ok out) : (doc.processOrder.map doc.keyLine).Pairwise (· < ·) := by
  obtain ⟨header, keys, -, hkeys, -⟩ := (apply_eq_ok hinversion).mp h
  have hareKeys := keyLines_areKeys _ hkeys
  have hlines : keys.map (·.2) = doc.processOrder.map doc.keyLine := by
    rw [← keyLines_names _ hkeys, List.map_map]
    exact List.map_congr_left hareKeys.lines_eq
  rw [← hlines]
  exact hareKeys.ascending.pairwise.tail

/-- There are two entries at least, so the lines of the entries are not none. -/
theorem start_lt_stop {header : Nat} {entries : List Entry} {first last : Entry}
    (hinversion : firstInversion doc.processOrder ≠ none)
    (hascending : (doc.processOrder.map doc.keyLine).Pairwise (· < ·))
    (hnames : entries.map (·.name) = doc.processOrder)
    (hlayout : Layout doc doc.bareLines header entries)
    (hfirst : entries.head? = some first) (hlast : entries.getLast? = some last) :
    first.start < last.stop := by
  rw [← hnames] at hinversion hascending
  have hstart := (hlayout.starts first (List.mem_of_head? hfirst)).le_key
  have hstop := (hlayout.last last hlast).key_le
  match entries with
  | [] | [_] => exact absurd rfl hinversion
  | e :: next :: rest =>
    cases hfirst
    rw [List.getLast?_cons_cons] at hlast
    have hmem : last ∈ next :: rest := List.mem_of_getLast? hlast
    rw [List.map_cons, List.map_cons, List.pairwise_cons] at hascending
    have hlt := hascending.1 _ (List.mem_map_of_mem (List.mem_map_of_mem hmem))
    omega

/-- Something is written behind the lines before the entries. -/
theorem moved_ne_nil {header : Nat} {entries : List Entry} {last : Entry}
    (hlayout : Layout doc doc.bareLines header entries) (hlast : entries.getLast? = some last)
    (hkey : doc.keyLine last.name < doc.bareLines.length) (blanks : Lines) :
    List.intercalate blanks
        ((entries.mergeSort inOrder).map fun e => (slice doc.bareLines e).rdropWhile isBlank) ++
      doc.bareLines.drop last.stop ≠ [] := by
  have hmem := List.mem_of_getLast? hlast
  obtain ⟨hle, hinside⟩ := hlayout.inside last hmem
  by_cases hstop : last.stop < doc.bareLines.length
  · refine List.append_ne_nil_of_right_ne_nil _ fun hnil => ?_
    have hlength := List.drop_eq_nil_iff.mp hnil
    omega
  · -- The last line of the text is one of the last entry, and not blank.
    have hinked := (hlayout.last last hlast).trimmed (by omega)
    have hstart := (hlayout.starts last hmem).le_key
    have hline : lineAt doc.bareLines (last.stop - 1) ∈ slice doc.bareLines last := by
      unfold slice
      rw [List.mem_drop_iff_getElem]
      refine ⟨last.stop - 1 - last.start, by rw [List.length_take]; omega, ?_⟩
      rw [lineAt_eq_getElem _ (by omega)]
      simp only [List.getElem_take]
      congr 1
      omega
    have hbody : (slice doc.bareLines last).rdropWhile isBlank ≠ [] := by
      rw [Ne, List.rdropWhile_eq_nil_iff]
      intro hblank
      rw [hblank _ hline] at hinked
      cases hinked
    refine List.append_ne_nil_of_left_ne_nil (intercalate_ne_nil _ ?_ hbody) _
    exact List.mem_map.mpr ⟨last, List.mem_mergeSort.mpr hmem, rfl⟩

/-- The text around the entries is kept just where its lines end alike. Up to the first entry it
ends with a line feed, and from the last line of the last entry on it begins with what ends that
line. -/
theorem apply_keeps_surroundings_iff (hinversion : firstInversion doc.processOrder ≠ none)
    (hlines : HasKeyLines doc) (h : apply doc = .ok out) :
    ∃ header entries first last inside written,
      (doc.positionOfKey "processes").line = header + 1 ∧
      entries.map (·.name) = doc.processOrder ∧
      Layout doc doc.bareLines header entries ∧
      entries.head? = some first ∧ entries.getLast? = some last ∧ first.start < last.stop ∧
      doc.text.toList = textBefore doc.lineChars first.start ++ inside ++
        textBehind doc.lineChars last.stop ∧
      out.toList = written ++ (doc.bareLines.drop last.stop).flatMap (ending doc ++ ·) ∧
      (textBefore doc.lineChars first.start <+: out.toList ∧
        textBehind doc.lineChars last.stop <:+ out.toList ↔
          EndsAlike doc first.start last.stop written) := by
  obtain ⟨header, entries, first, last, hheader, hnames, -, hlayout, hfirst, hlast, hout⟩ :=
    apply_layout hinversion hlines h
  have hlt := start_lt_stop hinversion (pairwise_keyLine hinversion h) hnames hlayout hfirst hlast
  have hlastMem := List.mem_of_getLast? hlast
  have hstop := (hlayout.inside last hlastMem).2
  have hheaderLt := (hlayout.starts first (List.mem_of_head? hfirst)).below_header
  have hkey := hlines last.name (hnames ▸ List.mem_map_of_mem hlastMem)
  have hlength : doc.bareLines.length = doc.lineChars.length := List.length_map _
  obtain ⟨inside, hinside⟩ := intercalate_eq_around hlt (hlength ▸ hstop)
  rw [sortLines_eq hlayout hfirst hlast] at hout
  generalize hmiddle : List.intercalate _ _ = middle at hout
  have hmoved : middle ++ doc.bareLines.drop last.stop ≠ [] := by
    rw [← hmiddle]
    exact moved_ne_nil hlayout hlast hkey _
  have hbefore : doc.bareLines.take first.start ++ middle ≠ [] := by
    refine List.append_ne_nil_of_left_ne_nil ?_ _
    rw [Ne, List.take_eq_nil_iff]
    rintro (hzero | hnil)
    · omega
    · rw [hnil] at hkey
      cases hkey
  have hwritten : out.toList = List.intercalate (ending doc)
      (doc.bareLines.take first.start ++ middle) ++
        (doc.bareLines.drop last.stop).flatMap (ending doc ++ ·) := by
    rw [hout, toList_join, intercalate_append_left _ hbefore]
  refine ⟨header, entries, first, last, inside, _, hheader, hnames, hlayout, hfirst, hlast, hlt,
    ?_, hwritten, ?_⟩
  · rw [doc.text_eq_join, toList_join, hinside]
  · have hbegins : textBefore doc.lineChars first.start <+: out.toList ↔
        ∀ line ∈ doc.lineChars.take first.start, finalReturn line = lineEnd doc := by
      rw [hout, toList_join, List.append_assoc, intercalate_append_right _ hmoved]
      exact textBefore_prefix_iff doc first.start _
    rw [hbegins, hwritten, textBehind_suffix_iff]
    exact ⟨fun ⟨hbefore, hbehind, hlast, hentries⟩ => ⟨hbefore, hbehind, hlast, hentries⟩,
      fun ⟨hbefore, hbehind, hlast, hentries⟩ => ⟨hbefore, hbehind, hlast, hentries⟩⟩

end Sorting

section Example

set_option maxRecDepth 20000

/-- Two processes out of order above a line that ends with a carriage return. -/
def versionedPair (lineEnd : String) : Document where
  path := "p"
  version := "1"
  envFiles := []
  text := "processes:" ++ lineEnd ++ "  b:" ++ lineEnd ++ "  a:" ++ lineEnd ++ "version: \"1\"\r\n"
  sourceMap := ⟨[(["processes"], ⟨1, 1⟩), (["processes", "b"], ⟨2, 3⟩),
    (["processes", "a"], ⟨3, 3⟩), (["version"], ⟨4, 1⟩)]⟩
  processes := [.named "b", .named "a"]

private theorem apply_versionedPair {lineEnd : String} (h : lineEnd = "\n" ∨ lineEnd = "\r\n") :
    apply (versionedPair lineEnd) = .ok ("processes:" ++ lineEnd ++ "  a:" ++ lineEnd ++ "  b:" ++
      lineEnd ++ "version: \"1\"" ++ lineEnd) := by
  have hinversion : firstInversion (versionedPair lineEnd).processOrder ≠ none := by
    have horder : (versionedPair lineEnd).processOrder = ["b", "a"] := rfl
    rw [horder]
    decide
  have hentries : entries (versionedPair lineEnd).bareLines 0 [("b", 1), ("a", 2)] =
      [⟨"b", 1, 2⟩, ⟨"a", 2, 3⟩] := by
    rcases h with rfl | rfl <;> decide +kernel
  have hheader : headerLine (versionedPair lineEnd) (versionedPair lineEnd).bareLines = .ok 0 := by
    rcases h with rfl | rfl <;> decide +kernel
  have hkeys : keyLines (versionedPair lineEnd) (versionedPair lineEnd).bareLines 0 none
      (versionedPair lineEnd).processOrder = .ok [("b", 1), ("a", 2)] := by
    rcases h with rfl | rfl <;> decide +kernel
  rw [apply_pair hinversion hheader hkeys hentries (by decide +kernel)]
  rcases h with rfl | rfl <;> decide +kernel

/-- With carriage returns on all lines the text around the entries is kept. -/
theorem apply_keeps_surroundings_returned :
    ∃ (out : String) (header : Nat) (entries : List Entry) (first last : Entry),
      apply (versionedPair "\r\n") = .ok out ∧ HasKeyLines (versionedPair "\r\n") ∧
      entries.map (·.name) = ["b", "a"] ∧
      Layout (versionedPair "\r\n") (versionedPair "\r\n").bareLines header entries ∧
      entries.head? = some first ∧ entries.getLast? = some last ∧
      textBefore (versionedPair "\r\n").lineChars first.start <+: out.toList ∧
      textBehind (versionedPair "\r\n").lineChars last.stop <:+ out.toList := by
  have happly := apply_versionedPair (.inr rfl)
  have hlines : HasKeyLines (versionedPair "\r\n") := by
    unfold HasKeyLines
    decide +kernel
  obtain ⟨header, entries, first, last, inside, written, -, hnames, hlayout, hfirst, hlast, hlt,
    -, -, hkept⟩ := apply_keeps_surroundings_iff (by decide +kernel) hlines happly
  have hstop := (hlayout.inside last (List.mem_of_getLast? hlast)).2
  rw [Document.bareLines, List.length_map] at hstop
  have halike := endsAlike_of_forall written hlt hstop (by decide +kernel) (by decide +kernel)
  exact ⟨_, header, entries, first, last, happly, hlines, hnames, hlayout, hfirst, hlast,
    hkept.mpr halike⟩

/-- With one on the last line only, that line is ended anew. -/
theorem apply_changes_end :
    Document.parse "p" (versionedPair "\n").text.toUTF8 = .ok (versionedPair "\n") ∧
      apply (versionedPair "\n") = .ok "processes:\n  a:\n  b:\nversion: \"1\"\n" ∧
      textBehind (versionedPair "\n").lineChars 3 = "\nversion: \"1\"\r\n".toList ∧
      ¬ textBehind (versionedPair "\n").lineChars 3 <:+
        "processes:\n  a:\n  b:\nversion: \"1\"\n".toList := by
  refine ⟨?_, apply_versionedPair (.inl rfl), by decide +kernel, by decide +kernel⟩
  refine Document.parse_eq_ok.mpr ⟨Document.isRead_iff_toOption.mpr ?_, rfl, rfl⟩
  decide +kernel

end Example

end ProcessLint.Fix.Order
