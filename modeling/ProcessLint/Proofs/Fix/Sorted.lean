import ProcessLint.Proofs.Fix.Layout
import ProcessLint.Proofs.Text.ByteOrder

/-!
What sorting the processes writes: the lines before the entries, the entries in the order of the
bytes of their names, and the lines behind them. Every entry is put there whole, up to its last
line that is not blank.
-/
namespace ProcessLint.Fix.Order

open Text

/-- The lines of an entry. -/
def slice (lines : Lines) (e : Entry) : Lines := (lines.take e.stop).drop e.start

section Sorting

/-- Whether two entries may stay as they stand. -/
def inOrder (a b : Entry) : Bool := !(b.name < a.name)

private theorem inOrder_iff {a b : Entry} : inOrder a b = true ↔ a.name ≤ b.name := by
  unfold inOrder
  rw [Bool.not_eq_true', decide_eq_false_iff_not, String.not_lt]

private theorem inOrder_trans (a b c : Entry) (hab : inOrder a b = true)
    (hbc : inOrder b c = true) : inOrder a c = true :=
  inOrder_iff.mpr (String.le_trans (inOrder_iff.mp hab) (inOrder_iff.mp hbc))

private theorem inOrder_total (a b : Entry) : (inOrder a b || inOrder b a) = true := by
  rw [Bool.or_eq_true, inOrder_iff, inOrder_iff]
  exact String.le_total a.name b.name

/-- Where names differ, sorting leaves no two entries whose order could be another. -/
theorem pairwise_sorted {entries : List Entry} (hnodup : (entries.map (·.name)).Nodup) :
    (entries.mergeSort inOrder).Pairwise fun a b => bytes a.name < bytes b.name := by
  have hsorted := List.pairwise_mergeSort inOrder_trans inOrder_total entries
  have hdistinct : ((entries.mergeSort inOrder).map (·.name)).Nodup :=
    ((List.mergeSort_perm entries inOrder).map _).nodup_iff.mpr hnodup
  rw [List.Nodup, List.pairwise_map] at hdistinct
  exact (hsorted.and hdistinct).imp fun ⟨hle, hne⟩ =>
    (bytes_lt_iff_le hne).mpr (inOrder_iff.mp hle)

theorem pair_sublist_sorted {entries : List Entry} {a b : Entry} (hle : a.name ≤ b.name)
    (h : [a, b].Sublist entries) : [a, b].Sublist (entries.mergeSort inOrder) :=
  List.pair_sublist_mergeSort inOrder_trans inOrder_total (inOrder_iff.mpr hle) h

theorem mergeSort_pair {a b : Entry} (h : b.name < a.name) :
    [a, b].mergeSort inOrder = [b, a] := by
  have hnot : inOrder a b = false := by
    unfold inOrder
    rw [decide_eq_true h, Bool.not_true]
  simp [List.mergeSort, hnot]

end Sorting

section Lines

variable {doc : Document} {lines : Lines} {header : Nat}

theorem block_eq_slice {e : Entry} (hle : e.start ≤ e.stop) (hinside : e.stop ≤ lines.length) :
    block lines e = slice lines e :=
  span_eq hle hinside

theorem blockBody_eq {e : Entry} (hle : e.start ≤ e.stop) (hinside : e.stop ≤ lines.length) :
    blockBody lines e = (slice lines e).rdropWhile isBlank := by
  unfold blockBody
  dsimp only
  rw [block_eq_slice hle hinside, take_trailingBlanks]

/-- The entries make up the lines from the first to the last of them. -/
theorem flatten_blocks : ∀ {entries : List Entry}, Layout doc lines header entries →
    ∀ {first last : Entry}, entries.head? = some first → entries.getLast? = some last →
      first.start ≤ last.stop ∧
        (entries.map (block lines)).flatten = span lines first.start last.stop
  | [], _, first, last, hfirst, _ => by cases hfirst
  | [e], h, first, last, hfirst, hlast => by
    cases hfirst
    cases hlast
    exact ⟨(h.inside e (List.mem_singleton_self _)).1, by simp [block]⟩
  | e :: below :: rest, h, first, last, hfirst, hlast => by
    cases hfirst
    rw [List.getLast?_cons_cons] at hlast
    obtain ⟨hstop, -⟩ := List.isChain_cons_cons.mp h.consecutive
    obtain ⟨hle, hflatten⟩ := flatten_blocks h.tail rfl hlast
    obtain ⟨hstart, -⟩ := h.inside e (List.mem_cons_self ..)
    obtain ⟨-, hlastInside⟩ :=
      h.inside last (List.mem_cons_of_mem _ (List.mem_of_getLast? hlast))
    refine ⟨by omega, ?_⟩
    rw [List.map_cons, List.flatten_cons, hflatten, block, hstop]
    exact span_append (by omega) hle hlastInside

theorem sortLines_eq {entries : List Entry} (h : Layout doc lines header entries)
    {first last : Entry} (hfirst : entries.head? = some first)
    (hlast : entries.getLast? = some last) :
    sortLines lines header entries =
      lines.take first.start ++
        List.intercalate (List.replicate ((slice lines first).rtakeWhile isBlank).length [])
          ((entries.mergeSort inOrder).map fun e => (slice lines e).rdropWhile isBlank) ++
        lines.drop last.stop := by
  obtain ⟨hfirstLe, hfirstInside⟩ := h.inside first (List.mem_of_head? hfirst)
  obtain ⟨hlastLe, hlastInside⟩ := h.inside last (List.mem_of_getLast? hlast)
  have hbodies : (entries.mergeSort inOrder).map (blockBody lines) =
      (entries.mergeSort inOrder).map fun e => (slice lines e).rdropWhile isBlank := by
    refine List.map_congr_left fun e he => ?_
    obtain ⟨hle, hinside⟩ := h.inside e (List.mem_mergeSort.mp he)
    exact blockBody_eq hle hinside
  unfold sortLines
  simp only [hfirst, hlast, Option.map_some, Option.getD_some]
  rw [span_zero (by omega), span_length hlastInside, block_eq_slice hfirstLe hfirstInside,
    trailingBlanks_eq]
  congr 2
  exact congrArg _ hbodies

end Lines

section Apply

variable {doc : Document}

theorem headerLine_eq {lines : Lines} {header : Nat} (h : headerLine doc lines = .ok header) :
    (doc.positionOfKey "processes").line = header + 1 := by
  unfold headerLine at h
  dsimp only at h
  split at h
  · cases h
  · rename_i index hindex
    rw [hindex]
    split at h
    · cases h
    · split at h
      · cases h
      · split at h
        · cases h
          rfl
        · cases h

/-- What is put between two lines. -/
def ending (doc : Document) : List Char :=
  if doc.lineChars.isReturned then ['\r', '\n'] else ['\n']

theorem apply_eq_ok {out : String} (hinversion : firstInversion doc.processOrder ≠ none) :
    apply doc = .ok out ↔
      ∃ header keys, headerLine doc doc.bareLines = .ok header ∧
        keyLines doc doc.bareLines header none doc.processOrder = .ok keys ∧
        out = join (ending doc)
          (sortLines doc.bareLines header (entries doc.bareLines header keys)) := by
  unfold apply
  rw [if_neg hinversion]
  constructor
  · intro h
    obtain ⟨header, hheader, h⟩ := bind_eq_ok h
    obtain ⟨keys, hkeys, h⟩ := bind_eq_ok h
    cases h
    exact ⟨header, keys, hheader, hkeys, rfl⟩
  · rintro ⟨header, keys, hheader, hkeys, rfl⟩
    unfold Document.bareLines at hheader hkeys ⊢
    simp only [hheader, hkeys, bind, Except.bind]
    rfl

/-- Two entries change places. -/
theorem apply_pair {header : Nat} {keys : List (String × Nat)} {a b : Entry}
    (hinversion : firstInversion doc.processOrder ≠ none)
    (hheader : headerLine doc doc.bareLines = .ok header)
    (hkeys : keyLines doc doc.bareLines header none doc.processOrder = .ok keys)
    (hentries : entries doc.bareLines header keys = [a, b]) (hlt : b.name < a.name) :
    apply doc = .ok (join (ending doc)
      (span doc.bareLines 0 a.start ++
        List.intercalate (List.replicate (trailingBlanks (block doc.bareLines a)) [])
          [blockBody doc.bareLines b, blockBody doc.bareLines a] ++
        span doc.bareLines b.stop doc.bareLines.length)) := by
  refine (apply_eq_ok hinversion).mpr ⟨header, keys, hheader, hkeys, ?_⟩
  have hsort : sortLines doc.bareLines header [a, b] =
      span doc.bareLines 0 a.start ++
        List.intercalate (List.replicate (trailingBlanks (block doc.bareLines a)) [])
          (([a, b].mergeSort inOrder).map (blockBody doc.bareLines)) ++
        span doc.bareLines b.stop doc.bareLines.length := rfl
  rw [hentries, hsort, mergeSort_pair hlt]
  rfl

/-- Whether the keys of the processes are lines of the text. -/
def HasKeyLines (doc : Document) : Prop :=
  ∀ name ∈ doc.processOrder, doc.keyLine name < doc.bareLines.length

/-- Keys behind white space are lines of the text, for a line that is missing has none. -/
theorem hasKeyLines_of_indented {out : String}
    (hinversion : firstInversion doc.processOrder ≠ none) (h : apply doc = .ok out)
    (hindented : ∀ name ∈ doc.processOrder, 1 < (doc.positionOf name []).column) :
    HasKeyLines doc := by
  obtain ⟨header, keys, -, hkeys, -⟩ := (apply_eq_ok hinversion).mp h
  have hareKeys := keyLines_areKeys _ hkeys
  intro name hname
  rw [← keyLines_names _ hkeys] at hname
  obtain ⟨key, hkey, rfl⟩ := List.mem_map.mp hname
  have hcolumn := hareKeys.columns key hkey
  have hcolumnGt := hindented key.1 (keyLines_names _ hkeys ▸ hname)
  rw [← hareKeys.lines_eq key hkey]
  by_contra hmissing
  have hline : lineAt doc.bareLines key.2 = [] := by
    unfold lineAt
    rw [List.getD_eq_getElem?_getD, List.getElem?_eq_none (by omega), Option.getD_none]
  rw [hline] at hcolumn
  simp only [indentOf, List.takeWhile_nil, List.length_nil] at hcolumn
  omega

/-- The entries that are sorted, if the keys are lines of the text. There is at least one. -/
theorem apply_layout {out : String} (hinversion : firstInversion doc.processOrder ≠ none)
    (hlines : HasKeyLines doc) (h : apply doc = .ok out) :
    ∃ header entries first last, (doc.positionOfKey "processes").line = header + 1 ∧
      entries.map (·.name) = doc.processOrder ∧ doc.processOrder.Nodup ∧
      Layout doc doc.bareLines header entries ∧
      entries.head? = some first ∧ entries.getLast? = some last ∧
      out = join (ending doc) (sortLines doc.bareLines header entries) := by
  obtain ⟨header, keys, hheader, hkeys, hout⟩ := (apply_eq_ok hinversion).mp h
  have hareKeys := keyLines_areKeys _ hkeys
  have hnames : (entries doc.bareLines header keys).map (·.name) = doc.processOrder := by
    rw [entries_names, keyLines_names _ hkeys]
  have hne : entries doc.bareLines header keys ≠ [] := by
    intro hnil
    rw [← hnames, hnil] at hinversion
    exact hinversion rfl
  refine ⟨header, entries doc.bareLines header keys, _, _, headerLine_eq hheader, hnames, ?_, ?_,
    List.head?_eq_some_head hne, List.getLast?_eq_some_getLast hne, hout⟩
  · rw [← keyLines_names _ hkeys]
    exact hareKeys.nodup_names
  · refine entries_layout keys hareKeys (Nat.le_refl header) fun k hk => ?_
    rw [hareKeys.lines_eq k hk]
    exact hlines k.1 (keyLines_names _ hkeys ▸ List.mem_map_of_mem hk)

/-- Sorting moves entries whole. Where the keys are neither blank nor comments, each entry has its
key, the comments directly above and all lines up to the next; the entries come out in the order
of their names, with as many blank lines between them as stood behind the first, and the lines
before and behind them are as they were. -/
theorem apply_permutes_entries {out : String} (hinversion : firstInversion doc.processOrder ≠ none)
    (hlines : HasKeyLines doc)
    (hkeys : ∀ name ∈ doc.processOrder,
      isBlank (lineAt doc.bareLines (doc.keyLine name)) = false ∧
        isComment (lineAt doc.bareLines (doc.keyLine name)) = false)
    (h : apply doc = .ok out) :
    ∃ header entries sorted first last,
      (doc.positionOfKey "processes").line = header + 1 ∧
      entries.map (·.name) = doc.processOrder ∧
      Layout doc doc.bareLines header entries ∧
      (∀ e ∈ entries, e.start ≤ doc.keyLine e.name ∧ doc.keyLine e.name < e.stop) ∧
      entries.head? = some first ∧ entries.getLast? = some last ∧
      sorted.Perm entries ∧
      sorted.Pairwise (fun a b => bytes a.name < bytes b.name) ∧
      (∀ a b, a.name ≤ b.name → [a, b].Sublist entries → [a, b].Sublist sorted) ∧
      out = join (if doc.lineChars.isReturned then ['\r', '\n'] else ['\n'])
        (doc.bareLines.take first.start ++
          List.intercalate
            (List.replicate ((slice doc.bareLines first).rtakeWhile isBlank).length [])
            (sorted.map fun e => (slice doc.bareLines e).rdropWhile isBlank) ++
          doc.bareLines.drop last.stop) := by
  obtain ⟨header, entries, first, last, hheader, hnames, hnodup, hlayout, hfirst, hlast, hout⟩ :=
    apply_layout hinversion hlines h
  refine ⟨header, entries, entries.mergeSort inOrder, first, last, hheader, hnames, hlayout, ?_,
    hfirst, hlast, List.mergeSort_perm _ _, ?_, ?_, ?_⟩
  · intro e he
    have hname : e.name ∈ doc.processOrder := hnames ▸ List.mem_map_of_mem he
    obtain ⟨hblank, hcomment⟩ := hkeys e.name hname
    exact ⟨(hlayout.starts e he).le_key, hlayout.holds e he hblank hcomment⟩
  · exact pairwise_sorted (hnames ▸ hnodup)
  · exact fun a b hle hsub => pair_sublist_sorted hle hsub
  · rw [hout, sortLines_eq hlayout hfirst hlast]
    rfl

/-- Two processes out of order, the first with a comment above and a blank line below. -/
def unsortedPair : Document where
  path := "p"
  version := ""
  envFiles := []
  text := "processes:\n  # last\n  b:\n\n  a:\n"
  sourceMap := ⟨[(["processes"], ⟨1, 1⟩), (["processes", "b"], ⟨3, 3⟩),
    (["processes", "a"], ⟨5, 3⟩)]⟩
  processes := [.named "b", .named "a"]

theorem apply_permutes_entries_unsortedPair :
    ∃ (header : Nat) (entries sorted : List Entry),
      apply unsortedPair = .ok "processes:\n  a:\n\n  # last\n  b:\n" ∧
      (unsortedPair.positionOfKey "processes").line = header + 1 ∧
      entries.map (·.name) = ["b", "a"] ∧
      Layout unsortedPair unsortedPair.bareLines header entries ∧
      sorted.Perm entries ∧ sorted.Pairwise (fun a b => bytes a.name < bytes b.name) := by
  have hinversion : firstInversion unsortedPair.processOrder ≠ none := by decide +kernel
  have happly : apply unsortedPair = .ok "processes:\n  a:\n\n  # last\n  b:\n" := by
    have hentries : entries unsortedPair.bareLines 0 [("b", 2), ("a", 4)] =
        [⟨"b", 1, 4⟩, ⟨"a", 4, 5⟩] := by decide +kernel
    rw [apply_pair hinversion (by decide +kernel) (by decide +kernel) hentries (by decide +kernel)]
    decide +kernel
  have hlines : HasKeyLines unsortedPair := by
    unfold HasKeyLines
    decide +kernel
  obtain ⟨header, entries, sorted, -, -, hheader, hnames, hlayout, -, -, -, hperm, hsorted, -⟩ :=
    apply_permutes_entries hinversion hlines (by decide +kernel) happly
  exact ⟨header, entries, sorted, happly, hheader, hnames, hlayout, hperm, hsorted⟩

end Apply

end ProcessLint.Fix.Order
