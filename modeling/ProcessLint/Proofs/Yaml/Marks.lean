import ProcessLint.Proofs.Yaml.Scanning
import ProcessLint.Yaml.Outline.Events

/-!
Every event of an outline bears the mark of a token that has been looked at, so it stands on a
line of the text.
-/
namespace ProcessLint.Yaml.Outline

/-- The scanner of a reader is on a line, and what has been read stands on lines. -/
structure Reader.IsPlaced (r : Reader) : Prop where
  scanner : r.scanner.IsPlaced
  events : ∀ entry ∈ r.reversed, 0 < entry.2.line

namespace Read

/-- A step that leaves what is placed placed. -/
abbrev Safe {α : Type} (step : Read α) : Prop := Keeps Reader.IsPlaced step fun _ => True

section Steps

variable {α : Type} {P : α → Prop}

theorem keeps_ofScan {scan : Scan α} (h : Keeps Scanner.IsPlaced scan P) :
    Keeps Reader.IsPlaced (ofScan scan) P := by
  intro r a t hr ha
  obtain ⟨⟨result, mid⟩, hlift, ha⟩ := bind_eq_ok ha
  obtain ⟨⟨b, scanner⟩, hscan, hresult⟩ := bind_eq_ok hlift
  cases hresult
  cases ha
  obtain ⟨hscanner, hP⟩ := h _ _ _ hr.scanner hscan
  exact ⟨⟨hscanner, hr.events⟩, hP⟩

theorem keeps_peek : Keeps Reader.IsPlaced peek fun entry => 0 < entry.1.line :=
  keeps_ofScan Scan.keeps_peekToken

theorem safe_skip : Safe skip := keeps_ofScan Scan.safe_skipToken

theorem safe_emit {mark : Mark} (hmark : 0 < mark.line) (event : Event) :
    Safe (emit event mark) :=
  keeps_modify fun _ h => ⟨h.scanner, List.forall_mem_cons.mpr ⟨hmark, h.events⟩⟩

theorem keeps_failAt (mark : Mark) (fault : Fault) :
    Keeps Reader.IsPlaced (failAt mark fault : Read α) P :=
  keeps_throw _

theorem safe_emitAbsent {mark : Mark} (hmark : 0 < mark.line) : Safe (emitAbsent mark) :=
  safe_emit hmark _

theorem safe_addAnchor (name : String) : Safe (addAnchor name) :=
  keeps_modify fun _ h => ⟨h.scanner, h.events⟩

theorem safe_checkHandle (mark : Mark) (handle : String) : Safe (checkHandle mark handle) :=
  keeps_get_bind fun _ _ => .ite (keeps_failAt _ _) (.pure trivial)

theorem safe_properties : Safe properties := by
  refine keeps_peek.bind fun entry _ => ?_
  split
  · refine .after (fun _ => .after (fun _ => keeps_peek.bind fun _ _ => ?_) (safe_addAnchor _))
      safe_skip
    split
    · exact .after (fun _ => .after (fun _ => .pure trivial) (safe_checkHandle _ _)) safe_skip
    · exact .pure trivial
  · refine .after (fun _ => .after (fun _ => keeps_peek.bind fun _ _ => ?_)
      (safe_checkHandle _ _)) safe_skip
    split
    · exact .after (fun _ => .after (fun _ => .pure trivial) (safe_addAnchor _)) safe_skip
    · exact .pure trivial
  · exact .pure trivial

end Steps

/-- The nodes and their parts, with as many steps as given. -/
structure SafeNodes (n : Nat) : Prop where
  node (block indentless : Bool) : Safe (node n block indentless)
  blockMapping : Safe (blockMapping n)
  blockMappingValue : Safe (blockMappingValue n)
  blockSequence : Safe (blockSequence n)
  indentlessSequence : Safe (indentlessSequence n)
  flowSequence (first : Bool) : Safe (flowSequence n first)
  flowPair : Safe (flowPair n)
  flowMapping (first : Bool) : Safe (flowMapping n first)
  flowMappingValue : Safe (flowMappingValue n)

namespace SafeNodes

variable {n : Nat}

theorem zero : SafeNodes 0 where
  node _ _ := .pure trivial
  blockMapping := .pure trivial
  blockMappingValue := .pure trivial
  blockSequence := .pure trivial
  indentlessSequence := .pure trivial
  flowSequence _ := .pure trivial
  flowPair := .pure trivial
  flowMapping _ := .pure trivial
  flowMappingValue := .pure trivial

theorem node_succ (h : SafeNodes n) (block indentless : Bool) :
    Safe (Read.node (n + 1) block indentless) := by
  rw [Read.node]
  refine keeps_peek.bind fun entry hmark => ?_
  split
  · exact .after (fun _ => keeps_get_bind fun _ _ => .ite (safe_emit hmark _) (keeps_failAt _ _))
      safe_skip
  · refine .after (fun isNamed => keeps_peek.bind fun (mark, token) hmark => ?_) safe_properties
    have hopen {inside : Read Unit} (event : Event) (hinside : Safe inside) :
        Safe (do skip; emit event mark; inside) :=
      .after (fun _ => .after (fun _ => hinside) (safe_emit hmark event)) safe_skip
    dsimp only
    split
    · exact .after (fun _ => safe_emit hmark _) safe_skip
    · exact hopen _ (h.flowSequence true)
    · exact hopen _ (h.flowMapping true)
    · exact hopen _ h.blockSequence
    · exact hopen _ h.blockMapping
    · exact .after (fun _ => h.indentlessSequence) (safe_emit hmark _)
    · exact .ite (safe_emit hmark _) (keeps_failAt _ _)

theorem blockMapping_succ (h : SafeNodes n) : Safe (Read.blockMapping (n + 1)) := by
  have hrest : Safe (do Read.blockMappingValue n; Read.blockMapping n) :=
    .after (fun _ => h.blockMapping) h.blockMappingValue
  rw [Read.blockMapping]
  refine keeps_peek.bind fun entry hmark => ?_
  split
  · refine .after (fun _ => keeps_peek.bind fun entry hmark => ?_) safe_skip
    dsimp only
    split
    iterate 3 exact .after (fun _ => hrest) (safe_emitAbsent hmark)
    exact .after (fun _ => hrest) (h.node true true)
  · exact .after (fun _ => hrest) (safe_emitAbsent hmark)
  · exact .after (fun _ => safe_emit hmark _) safe_skip
  · exact keeps_failAt _ _

theorem blockMappingValue_succ (h : SafeNodes n) : Safe (Read.blockMappingValue (n + 1)) := by
  rw [Read.blockMappingValue]
  refine keeps_peek.bind fun entry hmark => ?_
  split
  · refine .after (fun _ => keeps_peek.bind fun entry hmark => ?_) safe_skip
    split
    iterate 3 exact safe_emitAbsent hmark
    exact h.node true true
  · exact safe_emitAbsent hmark

theorem blockSequence_succ (h : SafeNodes n) : Safe (Read.blockSequence (n + 1)) := by
  rw [Read.blockSequence]
  refine keeps_peek.bind fun entry hmark => ?_
  split
  · exact .after (fun _ => safe_emit hmark _) safe_skip
  · refine .after (fun _ => keeps_peek.bind fun entry hmark => ?_) safe_skip
    dsimp only
    split
    iterate 2 exact .after (fun _ => h.blockSequence) (safe_emitAbsent hmark)
    exact .after (fun _ => h.blockSequence) (h.node true false)
  · exact keeps_failAt _ _

theorem indentlessSequence_succ (h : SafeNodes n) : Safe (Read.indentlessSequence (n + 1)) := by
  rw [Read.indentlessSequence]
  refine keeps_peek.bind fun entry hmark => ?_
  split
  · refine .after (fun _ => keeps_peek.bind fun entry hmark => ?_) safe_skip
    dsimp only
    split
    iterate 4 exact .after (fun _ => h.indentlessSequence) (safe_emitAbsent hmark)
    exact .after (fun _ => h.indentlessSequence) (h.node true false)
  · exact safe_emit hmark _

theorem flowSequence_succ (h : SafeNodes n) (first : Bool) :
    Safe (Read.flowSequence (n + 1) first) := by
  rw [Read.flowSequence]
  refine keeps_peek.bind fun entry hmark => ?_
  split
  · exact .after (fun _ => safe_emit hmark _) safe_skip
  · extract_lets item
    have hitem (u : Unit) : Safe (item u) := by
      refine keeps_peek.bind fun entry hmark => ?_
      split
      · exact .after (fun _ => safe_emit hmark _) safe_skip
      · refine .after (fun _ => .after (fun _ => ?_) (safe_emit hmark _)) safe_skip
        exact .after (fun _ => h.flowSequence false) h.flowPair
      · exact .after (fun _ => h.flowSequence false) (h.node false false)
    exact .ite (.ite (.after hitem safe_skip) (.after hitem (keeps_failAt _ _))) (hitem ())

theorem flowPair_succ (h : SafeNodes n) : Safe (Read.flowPair (n + 1)) := by
  rw [Read.flowPair]
  refine keeps_peek.bind fun entry hmark => ?_
  extract_lets stop value
  have hstop (u : Unit) : Safe (stop u) := keeps_peek.bind fun _ hmark => safe_emit hmark _
  have hvalue (u : Unit) : Safe (value u) := by
    refine keeps_peek.bind fun entry hmark => ?_
    split
    · refine .after (fun _ => keeps_peek.bind fun entry hmark => ?_) safe_skip
      split
      iterate 2 exact .after hstop (safe_emitAbsent hmark)
      exact .after hstop (h.node false false)
    · exact .after hstop (safe_emitAbsent hmark)
  split
  iterate 3 exact .after (fun _ => .after hvalue (safe_emitAbsent hmark)) safe_skip
  exact .after hvalue (h.node false false)

theorem flowMapping_succ (h : SafeNodes n) (first : Bool) :
    Safe (Read.flowMapping (n + 1) first) := by
  rw [Read.flowMapping]
  refine keeps_peek.bind fun entry hmark => ?_
  split
  · exact .after (fun _ => safe_emit hmark _) safe_skip
  · extract_lets rest entry
    have hrest (u : Unit) : Safe (rest u) :=
      .after (fun _ => h.flowMapping false) h.flowMappingValue
    have hentry (u : Unit) : Safe (entry u) := by
      refine keeps_peek.bind fun entry hmark => ?_
      split
      · refine .after (fun _ => keeps_peek.bind fun entry hmark => ?_) safe_skip
        split
        iterate 3 exact .after hrest (safe_emitAbsent hmark)
        exact .after hrest (h.node false false)
      · exact .after hrest (safe_emitAbsent hmark)
      · exact .after (fun _ => safe_emit hmark _) safe_skip
      · refine .after (fun _ => keeps_peek.bind fun _ hmark => ?_) (h.node false false)
        exact .after (fun _ => h.flowMapping false) (safe_emitAbsent hmark)
    exact .ite (.ite (.after hentry safe_skip) (.after hentry (keeps_failAt _ _))) (hentry ())

theorem flowMappingValue_succ (h : SafeNodes n) : Safe (Read.flowMappingValue (n + 1)) := by
  rw [Read.flowMappingValue]
  refine keeps_peek.bind fun entry hmark => ?_
  split
  · refine .after (fun _ => keeps_peek.bind fun _ _ => ?_) safe_skip
    split
    iterate 2 exact safe_emitAbsent hmark
    exact h.node false false
  · exact safe_emitAbsent hmark

theorem succ (h : SafeNodes n) : SafeNodes (n + 1) where
  node := h.node_succ
  blockMapping := h.blockMapping_succ
  blockMappingValue := h.blockMappingValue_succ
  blockSequence := h.blockSequence_succ
  indentlessSequence := h.indentlessSequence_succ
  flowSequence := h.flowSequence_succ
  flowPair := h.flowPair_succ
  flowMapping := h.flowMapping_succ
  flowMappingValue := h.flowMappingValue_succ

end SafeNodes

theorem safeNodes : ∀ n, SafeNodes n
  | 0 => .zero
  | n + 1 => (safeNodes n).succ

section Documents

theorem safe_directives : ∀ n hasVersion, Safe (directives n hasVersion)
  | 0, _ => .pure trivial
  | n + 1, hasVersion => by
    have hhandles (handles : List String) : Safe (modify fun r : Reader => { r with handles }) :=
      keeps_modify fun _ h => ⟨h.scanner, h.events⟩
    refine keeps_peek.bind fun entry _ => ?_
    split
    · refine .when (.after (fun _ => .after (fun _ => ?_) safe_skip) (hhandles _))
        (keeps_failAt _ _)
      exact safe_directives n true
    · exact .after (fun _ => .after (fun _ => safe_directives n hasVersion) safe_skip) (hhandles _)
    · exact .pure trivial

theorem safe_skipDocumentEnds : ∀ n, Safe (skipDocumentEnds n)
  | 0 => .pure trivial
  | n + 1 => by
    refine keeps_peek.bind fun entry _ => ?_
    split
    · exact .after (fun _ => safe_skipDocumentEnds n) safe_skip
    · exact .pure trivial

theorem safe_documentEnd : Safe documentEnd := by
  refine keeps_peek.bind fun entry _ => ?_
  split
  · exact keeps_failAt _ _
  · exact keeps_failAt _ _
  · exact .pure trivial

theorem safe_document (fuel : Nat) : Safe (document fuel) := by
  have hnode : Safe (do node fuel true false; documentEnd) :=
    .after (fun _ => safe_documentEnd) ((safeNodes fuel).node true false)
  refine .after (fun _ => keeps_peek.bind fun entry _ => ?_) (safe_skipDocumentEnds _)
  split
  · exact .pure trivial
  iterate 3
    refine .after (fun _ => keeps_peek.bind fun entry _ => ?_) (safe_directives _ _)
    split
    · refine .after (fun _ => keeps_peek.bind fun entry hmark => ?_) safe_skip
      dsimp only
      split
      iterate 5 exact .after (fun _ => safe_documentEnd) (safe_emitAbsent hmark)
      exact hnode
    · exact keeps_failAt _ _
  exact hnode

end Documents

end Read

/-- What is read of a text stands on its lines. -/
theorem line_pos_of_read {text : List Char} {events : List (Event × Mark)}
    (h : read text = .ok events) : ∀ entry ∈ events, 0 < entry.2.line := by
  obtain ⟨⟨u, reader⟩, hdocument, h⟩ := bind_eq_ok h
  cases h
  have hstart : Reader.IsPlaced ⟨.ofText text, [], [], []⟩ :=
    ⟨Scanner.isPlaced_ofText text, fun _ h => by cases h⟩
  obtain ⟨hplaced, -⟩ := Read.safe_document _ _ _ _ hstart hdocument
  exact fun entry hentry => hplaced.events entry (List.mem_reverse.mp hentry)

end ProcessLint.Yaml.Outline
