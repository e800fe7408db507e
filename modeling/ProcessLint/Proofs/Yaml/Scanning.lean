import Mathlib.Data.List.InsertIdx
import ProcessLint.Proofs.Postcondition
import ProcessLint.Yaml.Outline.Tokens

/-!
Lines are counted from one. The scanner starts on the first line and only goes on from there, and
what it notes is a mark that it has been at: no token is ever put on line zero.
-/
namespace ProcessLint.Yaml.Outline

/-- The scanner is on a line, and so are its tokens and the keys that may still be. -/
structure Scanner.IsPlaced (s : Scanner) : Prop where
  mark : 0 < s.mark.line
  queue : ∀ entry ∈ s.queue, 0 < entry.1.line
  keys : ∀ key ∈ s.keys, key.possible = true → 0 < key.mark.line

theorem Scanner.isPlaced_ofText (text : List Char) : (Scanner.ofText text).IsPlaced where
  mark := Nat.one_pos
  queue _ h := by cases h
  keys key h hpossible := by
    rw [List.mem_singleton.mp h] at hpossible
    cases hpossible

/-- Keys that are given up are no longer asked for their marks. -/
theorem Scanner.IsPlaced.giveUp {s : Scanner} (h : s.IsPlaced) (isGone : SimpleKey → Bool) :
    ({ s with keys := s.keys.map fun key =>
        if isGone key then { key with possible := false } else key } : Scanner).IsPlaced := by
  refine ⟨h.mark, h.queue, fun key hkey hpossible => ?_⟩
  obtain ⟨before, hbefore, rfl⟩ := List.mem_map.mp hkey
  split at hpossible
  · cases hpossible
  · rename_i hkept
    rw [if_neg hkept]
    exact h.keys before hbefore hpossible

/-- The key that a colon would belong to has a mark, if there is one. -/
theorem Scanner.IsPlaced.line_of_possible {s : Scanner} (h : s.IsPlaced)
    (hpossible : (s.keys.headD .none).possible = true) : 0 < (s.keys.headD .none).mark.line := by
  cases hkeys : s.keys with
  | nil =>
    rw [hkeys] at hpossible
    cases hpossible
  | cons key keys =>
    rw [hkeys] at hpossible
    exact h.keys key (hkeys ▸ List.mem_cons_self) hpossible

namespace Scan

/-- A step that leaves a placed scanner placed. -/
abbrev Safe {α : Type} (scan : Scan α) : Prop := Keeps Scanner.IsPlaced scan fun _ => True

variable {α : Type} {P : α → Prop}

theorem keeps_failAt (mark : Mark) (fault : Fault) :
    Keeps Scanner.IsPlaced (failAt mark fault : Scan α) P :=
  keeps_throw _

theorem keeps_fail (fault : Fault) : Keeps Scanner.IsPlaced (fail fault : Scan α) P :=
  keeps_get_bind fun _ _ => keeps_failAt _ _

section Moves

theorem safe_current : Safe current := keeps_get_bind fun _ _ => .pure trivial

theorem safe_peek (n : Nat) : Safe (peek n) := keeps_get_bind fun _ _ => .pure trivial

theorem keeps_mark : Keeps Scanner.IsPlaced mark fun mark => 0 < mark.line :=
  keeps_get_bind fun _ hs => .pure hs.mark

theorem safe_skipBlank : Safe skipBlank := keeps_modify fun _ h => ⟨h.mark, h.queue, h.keys⟩

theorem safe_skipInk : Safe skipInk := keeps_modify fun _ h => ⟨h.mark, h.queue, h.keys⟩

theorem safe_skipInks : ∀ n, Safe (skipInks n)
  | 0 => .pure trivial
  | n + 1 => .after (fun _ => safe_skipInks n) safe_skipInk

theorem safe_skipBreak : Safe skipBreak := by
  refine keeps_modify fun s h => ?_
  split
  · exact ⟨Nat.succ_pos _, h.queue, h.keys⟩
  · exact ⟨Nat.succ_pos _, h.queue, h.keys⟩
  · exact ⟨Nat.succ_pos _, h.queue, h.keys⟩
  · exact h

theorem safe_skipToBreak : Safe skipToBreak := keeps_modify fun _ h => ⟨h.mark, h.queue, h.keys⟩

theorem safe_skipRun (length : Nat) : Safe (skipRun length) :=
  keeps_modify fun _ h => ⟨h.mark, h.queue, h.keys⟩

theorem safe_repeatStep {step : Scan Bool} (h : Safe step) : ∀ n, Safe (repeatStep step n)
  | 0 => .pure trivial
  | n + 1 => .after (fun _ => .ite (safe_repeatStep h n) (.pure trivial)) h

theorem safe_loop {step : Scan Bool} (h : Safe step) : Safe (loop step) :=
  keeps_get_bind fun _ _ => safe_repeatStep h _

theorem safe_skipBlanks (tabsToo : Bool) : Safe (skipBlanks tabsToo) := by
  refine keeps_get_bind fun s _ => .after (fun _ => .after (fun c => ?_) safe_current)
    (keeps_modify fun _ h => ⟨h.mark, h.queue, h.keys⟩)
  refine .ite (.when (.after (fun _ => .pure trivial) safe_skipToBreak) (keeps_fail _))
    (.pure trivial)

end Moves

section Notes

theorem safe_allowKey : Safe allowKey := keeps_modify fun _ h => ⟨h.mark, h.queue, h.keys⟩

theorem safe_forbidKey : Safe forbidKey := keeps_modify fun _ h => ⟨h.mark, h.queue, h.keys⟩

theorem safe_push {mark : Mark} (hmark : 0 < mark.line) (token : Token) :
    Safe (push mark token) := by
  refine keeps_modify fun s h => ⟨h.mark, fun entry hentry => ?_, h.keys⟩
  rcases List.mem_append.mp hentry with hentry | hentry
  · exact h.queue entry hentry
  · rw [List.mem_singleton.mp hentry]
    exact hmark

theorem safe_insert {mark : Mark} (hmark : 0 < mark.line) (tokenNumber : Nat) (token : Token) :
    Safe (insert tokenNumber mark token) := by
  refine keeps_modify fun s h => ⟨h.mark, fun entry hentry => ?_, h.keys⟩
  rcases List.mem_cons.mp (List.insertIdx_subset_cons _ _ _ hentry) with rfl | hentry
  · exact hmark
  · exact h.queue entry hentry

theorem safe_noteKey : Safe noteKey := by
  refine keeps_modify fun s h => ?_
  split
  · refine ⟨h.mark, h.queue, fun key hkey => ?_⟩
    rcases List.mem_cons.mp hkey with rfl | hkey
    · exact fun _ => h.mark
    · exact h.keys key (List.mem_of_mem_tail hkey)
  · exact h

theorem safe_dropKey : Safe dropKey := by
  refine keeps_get_bind fun s h => ?_
  split
  · exact .pure trivial
  · rename_i key keys hkeys
    refine .when (keeps_set ⟨h.mark, h.queue, fun other hother hpossible => ?_⟩) (keeps_fail _)
    rcases List.mem_cons.mp hother with rfl | hother
    · cases hpossible
    · exact h.keys other (hkeys ▸ List.mem_cons_of_mem _ hother) hpossible

theorem safe_dropStaleKeys : Safe dropStaleKeys :=
  keeps_get_bind fun _ h => .ite (.when (keeps_set (h.giveUp _)) (keeps_fail _)) (.pure trivial)

theorem safe_openBlock {mark : Mark} (hmark : 0 < mark.line) (column : Nat)
    (before : Option Nat) (token : Token) : Safe (openBlock column before token mark) := by
  refine keeps_get_bind fun _ _ => .ite (.after (fun _ => ?_) (keeps_modify fun s h => ?_))
    (.pure trivial)
  · refine keeps_get_bind fun s h => .ite (.after (fun _ => ?_) ?_) (.pure trivial)
    · cases before with
      | none => exact safe_push hmark token
      | some tokenNumber => exact safe_insert hmark tokenNumber token
    · exact keeps_set ⟨h.mark, h.queue, h.keys⟩
  · split
    · split
      · exact ⟨h.mark, h.queue, h.keys⟩
      · exact h
    · exact h

/-- The ends of block collections are put at the mark of the scanner. -/
theorem queue_closeBlocks_go {s : Scanner} (hmark : 0 < s.mark.line) (column : Int) :
    ∀ (outer : List Indentation) (indent : Int) (queue : List (Mark × Token)),
      (∀ entry ∈ queue, 0 < entry.1.line) →
        ∀ entry ∈ (closeBlocks.go column s indent outer queue).2.2, 0 < entry.1.line
  | [], _, _, hqueue => hqueue
  | top :: rest, indent, queue, hqueue => by
    rw [closeBlocks.go]
    split
    · refine queue_closeBlocks_go hmark column rest _ _ fun entry hentry => ?_
      split at hentry
      · rcases List.mem_append.mp hentry with hentry | hentry
        · exact hqueue entry hentry
        · rw [List.mem_singleton.mp hentry]
          exact hmark
      · exact hqueue entry hentry
    · exact hqueue

theorem safe_closeBlocks (column : Int) : Safe (closeBlocks column) :=
  keeps_get_bind fun _ _ => .ite
    (keeps_modify fun _ h => ⟨h.mark, queue_closeBlocks_go h.mark column _ _ _ h.queue, h.keys⟩)
    (.pure trivial)

theorem safe_deepen : Safe deepen := by
  refine keeps_modify fun s h => ?_
  split
  · exact ⟨h.mark, h.queue, h.keys⟩
  · exact h

theorem safe_undeepen : Safe undeepen := keeps_modify fun _ h => ⟨h.mark, h.queue, h.keys⟩

end Notes

section Scalars

theorem safe_plainGap (indent : Int) (start : Mark) : ∀ n f, Safe (plainGap indent start n f)
  | 0, _ => .pure trivial
  | n + 1, f => by
    refine .after (fun c => .ite (keeps_get_bind fun _ _ => .ite ?_ ?_) (.ite ?_ ?_)) safe_current
    · refine .after (fun _ => .after (fun _ => .when ?_ (keeps_failAt _ _)) safe_current)
        (safe_skipBlanks true)
      exact safe_plainGap indent start n f
    · exact .after (fun _ => safe_plainGap indent start n _) safe_skipBlank
    · exact .after (fun _ => safe_plainGap indent start n _) safe_skipBreak
    · exact .pure trivial

theorem safe_plainWords (indent : Int) (start : Mark) :
    ∀ n f, Safe (plainWords indent start n f)
  | 0, _ => .pure trivial
  | n + 1, f => by
    refine keeps_get_bind fun s _ => .ite (.pure trivial) (.when ?_ (keeps_fail _))
    refine .after (fun _ => .after (fun c => .ite (.pure trivial) ?_) safe_current)
      (safe_skipRun _)
    refine .after (fun f => keeps_get_bind fun _ _ => .ite (.pure trivial) ?_)
      (safe_plainGap indent start _ _)
    exact safe_plainWords indent start n f

theorem safe_scanPlain : Safe scanPlain := by
  refine .after (fun _ => keeps_get_bind fun s hs => ?_) safe_undeepen
  refine .when (.after (fun f => .when ?_ safe_allowKey) (safe_plainWords _ _ _ _))
    (keeps_failAt _ _)
  exact safe_push hs.mark _

theorem safe_readEscape (start : Mark) : Safe (readEscape start) := by
  refine keeps_get_bind fun s _ => ?_
  dsimp only
  split
  · exact .pure trivial
  · split
    · exact keeps_failAt _ _
    · refine .when ?_ (keeps_failAt _ _)
      split
      · exact keeps_failAt _ _
      · split
        · exact keeps_failAt _ _
        · exact .pure trivial

theorem safe_quotedRun (quote : Char) (start : Mark) : ∀ n f, Safe (quotedRun quote start n f)
  | 0, _ => .pure trivial
  | n + 1, f => by
    have hrest (f : Folding) : Safe (quotedRun quote start n f) := safe_quotedRun quote start n f
    refine keeps_get_bind fun s _ => .ite (.pure trivial) (.ite (.ite ?_ ?_) (.ite (.ite ?_ ?_) ?_))
    · exact .after (fun _ => hrest _) (safe_skipInks 2)
    · exact .pure trivial
    · exact .after (fun _ => .after (fun _ => .pure trivial) safe_skipBreak) safe_skipInk
    · exact .after (fun (c, width) => .after (fun _ => hrest _) (safe_skipInks width))
        (safe_readEscape start)
    · exact .after (fun _ => hrest _) safe_skipInk

theorem safe_quotedGap : ∀ n f, Safe (quotedGap n f)
  | 0, _ => .pure trivial
  | n + 1, f => by
    refine keeps_get_bind fun s _ => .ite (.when ?_ (keeps_fail _)) (.ite ?_ (.pure trivial))
    · exact .after (fun _ => safe_quotedGap n _) safe_skipBlank
    · exact .after (fun _ => safe_quotedGap n _) safe_skipBreak

theorem safe_quotedWords (quote : Char) (start : Mark) : ∀ n f, Safe (quotedWords quote start n f)
  | 0, _ => .pure trivial
  | n + 1, f => by
    refine keeps_get_bind fun s _ => .when (.when (.when ?_ (keeps_failAt _ _))
      (keeps_failAt _ _)) (keeps_failAt _ _)
    refine .after (fun f => .after (fun _ => .ite (.pure trivial) ?_) safe_current)
      (safe_quotedRun quote start _ _)
    exact .after (fun f => safe_quotedWords quote start n _) (safe_quotedGap _ _)

theorem keeps_scanQuoted (quote : Char) (style : ScalarStyle) :
    Keeps Scanner.IsPlaced (scanQuoted quote style) fun entry => 0 < entry.1.line := by
  refine keeps_get_bind fun s hs => .after (fun _ => .after (fun f => ?_)
    (safe_quotedWords quote _ _ _)) safe_skipInk
  refine .after (fun _ => .after (fun _ => keeps_get_bind fun behind _ => ?_)
    (safe_skipBlanks true)) safe_skipInk
  exact .when (.pure hs.mark) (keeps_fail _)

theorem safe_chomping? : Safe chomping? := by
  refine .after (fun c => ?_) safe_current
  split
  · exact .after (fun _ => .pure trivial) safe_skipInk
  · exact .after (fun _ => .pure trivial) safe_skipInk
  · exact .pure trivial

theorem safe_indentationIndicator (start : Mark) : Safe (indentationIndicator start) :=
  .after (fun _ => .ite (.when (.after (fun _ => .pure trivial) safe_skipInk) (keeps_failAt _ _))
    (.pure trivial)) safe_current

theorem safe_blockHeader (start : Mark) : Safe (blockHeader start) := by
  refine .after (fun chomping => ?_) safe_chomping?
  split
  · exact .after (fun _ => .pure trivial) (safe_indentationIndicator start)
  · refine .after (fun _ => .ite (.pure trivial) ?_) (safe_indentationIndicator start)
    exact .after (fun _ => .pure trivial) safe_chomping?

theorem safe_blockLead : ∀ n column breaks, Safe (blockLead n column breaks)
  | 0, _, _ => .pure trivial
  | n + 1, column, breaks => by
    refine keeps_get_bind fun s _ => .after (fun _ => keeps_get_bind fun s _ => .ite ?_ ?_)
      (keeps_modify fun _ h => ⟨h.mark, h.queue, h.keys⟩)
    · exact .after (fun _ => safe_blockLead n _ _) safe_skipBreak
    · exact .pure trivial

theorem safe_blockIndentation (indent : Nat) : ∀ n breaks, Safe (blockIndentation indent n breaks)
  | 0, _ => .pure trivial
  | n + 1, breaks => by
    refine .after (fun _ => .after (fun _ => .ite ?_ (.pure trivial)) safe_current)
      (keeps_modify fun _ h => ⟨h.mark, h.queue, h.keys⟩)
    exact .after (fun _ => safe_blockIndentation indent n _) safe_skipBreak

theorem safe_blockLines (literal : Bool) (indent : Nat) :
    ∀ n b, Safe (blockLines literal indent n b)
  | 0, _ => .pure trivial
  | n + 1, b => by
    refine keeps_get_bind fun s _ => .ite (.pure trivial) (.ite (.pure trivial) ?_)
    refine .after (fun _ => .after (fun _ => .ite (.pure trivial) ?_) safe_current) (safe_skipRun _)
    refine .after (fun _ => .after (fun _ => ?_) (safe_blockIndentation indent _ _)) safe_skipBreak
    exact safe_blockLines literal indent n _

theorem safe_scanBlock (literal : Bool) : Safe (scanBlock literal) := by
  refine keeps_mark.bind fun start hstart => .after (fun _ => .after (fun _ => ?_) safe_undeepen)
    safe_skipInk
  refine .after (fun (chomping, increment) => .after (fun _ => .after (fun _ => ?_) safe_current)
    (safe_skipBlanks true)) (safe_blockHeader start)
  refine .when (.after (fun _ => .after (fun _ => .after (fun _ => ?_) safe_current)
    safe_skipBreak) safe_current) (keeps_failAt _ _)
  refine .when (keeps_get_bind fun _ _ => keeps_get_bind fun _ _ => ?_) (keeps_failAt _ _)
  extract_lets parent rest
  have hrest (place : Nat × Nat) : Safe (rest place) := by
    refine keeps_get_bind fun s hs => .ite (safe_push hstart _) (.when ?_ (keeps_fail _))
    exact .after (fun _ => keeps_get_bind fun _ _ => safe_push hs.mark _) (safe_blockLines _ _ _ _)
  refine .ite (.after (fun (column, breaks) => ?_) (safe_blockLead _ _ _))
    (.after (fun _ => ?_) (safe_blockIndentation _ _ _))
  · exact .after hrest (.pure trivial)
  · exact .after hrest (.pure trivial)

end Scalars

section Directives

theorem safe_skipToContent : Safe skipToContent := by
  refine safe_loop (keeps_get_bind fun s _ => .ite ?_ (.ite ?_ (.ite ?_ (.ite ?_ ?_))))
  · exact .after (fun _ => .after (fun _ => .when (.pure trivial) (keeps_fail _)) safe_current)
      (safe_skipBlanks true)
  · exact .after (fun _ => .pure trivial) safe_skipBlank
  · refine .after (fun _ => keeps_get_bind fun _ _ => .ite ?_ (.pure trivial)) safe_skipBreak
    exact .after (fun _ => .pure trivial) safe_allowKey
  · exact .after (fun _ => .pure trivial) safe_skipToBreak
  · exact .pure trivial

theorem safe_skipAllBlanks : Safe skipAllBlanks :=
  safe_loop (.after (fun _ => .ite (.after (fun _ => .pure trivial) safe_skipBlank) (.pure trivial))
    safe_current)

theorem safe_takeRun (p : Char → Bool) : Safe (takeRun p) :=
  keeps_get_bind fun _ _ => .after (fun _ => .pure trivial) (safe_skipRun _)

theorem safe_versionNumber (start : Mark) : Safe (versionNumber start) :=
  .after (fun _ => .when (.when (.pure trivial) (keeps_failAt _ _)) (keeps_failAt _ _))
    (safe_takeRun _)

theorem safe_versionDirective (start : Mark) : Safe (versionDirective start) := by
  refine .after (fun _ => .after (fun _ => .after (fun _ => ?_) safe_current)
    (safe_versionNumber start)) safe_skipAllBlanks
  exact .when (.after (fun _ => .after (fun _ => .pure trivial) (safe_versionNumber start))
    safe_skipInk) (keeps_failAt _ _)

theorem safe_escapedByte (start : Mark) : Safe (escapedByte start) := by
  refine keeps_get_bind fun s _ => ?_
  split
  · exact .after (fun _ => .pure trivial) (safe_skipInks 3)
  · exact keeps_failAt _ _

theorem safe_escapedTail (start : Mark) : ∀ n code, Safe (escapedTail start n code)
  | 0, _ => .pure trivial
  | n + 1, code => by
    refine keeps_get_bind fun s _ => ?_
    split
    · exact .when (.after (fun _ => safe_escapedTail start n _) (safe_skipInks 3))
        (keeps_failAt _ _)
    · exact keeps_failAt _ _

theorem safe_escapedUriChar (start : Mark) : Safe (escapedUriChar start) := by
  refine .after (fun lead => ?_) (safe_escapedByte start)
  split
  · exact keeps_failAt _ _
  · refine .after (fun code => ?_) (safe_escapedTail start _ _)
    split
    · exact .pure trivial
    · exact keeps_failAt _ _

theorem safe_uriRun_go (p : Char → Bool) (start : Mark) :
    ∀ n reversed, Safe (uriRun.go p start n reversed)
  | 0, _ => .pure trivial
  | n + 1, reversed => by
    refine .after (fun c => .ite (.pure trivial) (.ite ?_ ?_)) safe_current
    · exact .after (fun _ => safe_uriRun_go p start n _) (safe_escapedUriChar start)
    · exact .after (fun _ => safe_uriRun_go p start n _) safe_skipInk

theorem safe_uriRun (p : Char → Bool) (start : Mark) : Safe (uriRun p start) :=
  keeps_get_bind fun _ _ => safe_uriRun_go p start _ _

theorem safe_tagHandle (inDirective : Bool) (start : Mark) :
    Safe (tagHandle inDirective start) := by
  refine .after (fun _ => .when (.after (fun _ => .after (fun name => ?_) (safe_takeRun _))
    safe_skipInk) (keeps_failAt _ _)) safe_current
  refine .after (fun _ => .ite (.after (fun _ => .pure trivial) safe_skipInk) ?_) safe_current
  exact .when (.pure trivial) (keeps_failAt _ _)

theorem safe_tagPrefix (start : Mark) : Safe (tagPrefix start) := by
  refine .after (fun c => .ite ?_ (.ite (keeps_failAt _ _) (safe_uriRun _ start))) safe_current
  exact .after (fun _ => .after (fun _ => .pure trivial) (safe_uriRun _ start)) safe_skipInk

theorem safe_tagDirective (start : Mark) : Safe (tagDirective start) := by
  refine .after (fun _ => .after (fun _ => .after (fun _ => ?_) safe_skipAllBlanks)
    (safe_tagHandle true start)) safe_skipAllBlanks
  exact .after (fun _ => .after (fun _ => .when (.pure trivial) (keeps_failAt _ _)) safe_current)
    (safe_tagPrefix start)

theorem safe_fetchDirective : Safe fetchDirective := by
  refine .after (fun _ => .after (fun _ => .after (fun _ => ?_) safe_forbidKey) safe_dropKey)
    (safe_closeBlocks _)
  refine keeps_mark.bind fun start hstart => .after (fun _ => keeps_mark.bind fun _ _ => ?_)
    safe_skipInk
  refine .after (fun name => .when (.after (fun _ => .when ?_ (keeps_failAt _ _)) safe_current)
    (keeps_failAt _ _)) (safe_takeRun _)
  extract_lets rest
  have hrest (token : Token) : Safe (rest token) := by
    refine .after (fun _ => .after (fun _ => .when ?_ (keeps_failAt _ _)) safe_current)
      (safe_skipBlanks true)
    exact .after (fun _ => safe_push hstart token) safe_skipBreak
  refine .ite (.after hrest (safe_versionDirective start))
    (.ite (.after hrest (safe_tagDirective start)) ?_)
  exact .after (fun _ => .after hrest (.pure trivial)) safe_skipToBreak

end Directives

section Tokens

theorem safe_fetchDocumentIndicator (token : Token) : Safe (fetchDocumentIndicator token) := by
  refine .after (fun _ => .after (fun _ => .after (fun _ => ?_) safe_forbidKey) safe_dropKey)
    (safe_closeBlocks _)
  exact keeps_mark.bind fun _ hstart => .after (fun _ => safe_push hstart token) (safe_skipInks 3)

theorem safe_fetchStreamEnd : Safe fetchStreamEnd := by
  have hnewLine : Safe (modify fun s : Scanner =>
      if s.mark.column = 0 then s
      else { s with mark := { s.mark with column := 0, line := s.mark.line + 1 } }) := by
    refine keeps_modify fun s h => ?_
    split
    · exact h
    · exact ⟨Nat.succ_pos _, h.queue, h.keys⟩
  have hgiveUp : Safe (modify fun s : Scanner =>
      { s with keys := s.keys.map fun key => { key with possible := false } }) :=
    keeps_modify fun _ h => h.giveUp fun _ => true
  refine .after (fun _ => keeps_get_bind fun _ _ => .when ?_ (keeps_fail _)) hnewLine
  refine .after (fun _ => .after (fun _ => .after (fun _ => .after (fun _ => ?_) safe_forbidKey)
    safe_dropKey) (safe_closeBlocks _)) hgiveUp
  exact keeps_mark.bind fun _ hmark => safe_push hmark _

theorem safe_fetchFlowStart (token : Token) : Safe (fetchFlowStart token) := by
  have hopen : Safe (modify fun s : Scanner =>
      { s with keys := .none :: s.keys, flowDepth := s.flowDepth + 1 }) := by
    refine keeps_modify fun s h => ⟨h.mark, h.queue, fun key hkey hpossible => ?_⟩
    rcases List.mem_cons.mp hkey with rfl | hkey
    · cases hpossible
    · exact h.keys key hkey hpossible
  refine .after (fun _ => .after (fun _ => keeps_get_bind fun _ _ => .when ?_ (keeps_fail _))
    safe_deepen) safe_noteKey
  refine .after (fun _ => .after (fun _ => keeps_mark.bind fun _ hstart => ?_) safe_allowKey) hopen
  refine .after (fun _ => .when ?_ (keeps_modify fun _ h => ⟨h.mark, h.queue, h.keys⟩)) safe_skipInk
  exact .after (fun _ => safe_push hstart token) (safe_skipBlanks true)

theorem safe_closeBarePair : Safe closeBarePair := by
  refine keeps_get_bind fun s _ => .ite (.after (fun _ => ?_) ?_) (.pure trivial)
  · exact keeps_mark.bind fun _ hmark => safe_push hmark _
  · exact keeps_modify fun _ h => ⟨h.mark, h.queue, h.keys⟩

theorem safe_fetchFlowEnd (token : Token) : Safe (fetchFlowEnd token) := by
  have hclose : Safe (modify fun s : Scanner =>
      if s.flowDepth = 0 then s
      else { s with flowDepth := s.flowDepth - 1, keys := s.keys.tail }) := by
    refine keeps_modify fun s h => ?_
    split
    · exact h
    · exact ⟨h.mark, h.queue, fun key hkey => h.keys key (List.mem_of_mem_tail hkey)⟩
  have htouch : Safe (modify fun s : Scanner =>
      if 0 < s.flowDepth then { s with touchingColonAt := s.mark.index } else s) := by
    refine keeps_modify fun s h => ?_
    split
    · exact ⟨h.mark, h.queue, h.keys⟩
    · exact h
  refine .after (fun _ => .after (fun _ => .after (fun _ => .after (fun _ => ?_)
    safe_closeBarePair) safe_forbidKey) hclose) safe_dropKey
  refine keeps_mark.bind fun _ hstart => .after (fun _ => .after (fun _ => ?_)
    (safe_skipBlanks true)) safe_skipInk
  exact .after (fun _ => safe_push hstart token) htouch

theorem safe_fetchFlowEntry : Safe fetchFlowEntry := by
  refine .after (fun _ => .after (fun _ => .after (fun _ => ?_) safe_closeBarePair)
    safe_allowKey) safe_dropKey
  exact keeps_mark.bind fun _ hstart => .after (fun _ => .after (fun _ => safe_push hstart _)
    (safe_skipBlanks true)) safe_skipInk

theorem safe_fetchBlockEntry : Safe fetchBlockEntry := by
  refine keeps_get_bind fun s hs => .when (.when ?_ (keeps_fail _)) (keeps_fail _)
  extract_lets finish content indicator
  have hfinish (u : Unit) : Safe (finish u) :=
    .after (fun _ => .after (fun _ => keeps_mark.bind fun _ hmark => safe_push hmark _)
      safe_allowKey) safe_dropKey
  have hcontent (u : Unit) : Safe (content u) :=
    .after (fun c => .ite (.after hfinish safe_deepen) (hfinish ())) safe_current
  have hindicator (u : Unit) : Safe (indicator u) := by
    refine .after (fun _ => .after (fun _ => .after (fun blanks => ?_) (safe_skipBlanks true))
      (safe_openBlock hs.mark _ _ _)) safe_skipInk
    exact .after (fun _ => .after (fun _ => .ite (.after hcontent (keeps_fail _)) (hcontent ()))
      (safe_peek 1)) safe_current
  dsimp only
  split
  · exact .ite (.after hindicator (keeps_failAt _ _)) (hindicator ())
  · exact .ite (.after hindicator (keeps_failAt _ _)) (hindicator ())
  · exact hindicator ()

theorem safe_skipKeyBlanks : Safe skipKeyBlanks := by
  have hstep (before : Nat) : Safe (do
      let c ← current
      if c = ' ' then
        skipBlank
        return true
      else if isBreak c then
        skipBreak
        if (← get).flowDepth = 0 then allowKey
        return true
      else if c = '#' && before < (← mark).index then
        skipToBreak
        return true
      else return false) := by
    refine .after (fun c => .ite ?_ (.ite ?_ ?_)) safe_current
    · exact .after (fun _ => .pure trivial) safe_skipBlank
    · refine .after (fun _ => keeps_get_bind fun _ _ => .ite ?_ (.pure trivial)) safe_skipBreak
      exact .after (fun _ => .pure trivial) safe_allowKey
    · refine keeps_mark.bind fun _ _ => .ite ?_ (.pure trivial)
      exact .after (fun _ => .pure trivial) safe_skipToBreak
  refine keeps_mark.bind fun _ _ => .after (fun _ => keeps_mark.bind fun _ _ => ?_)
    (safe_loop (hstep _))
  refine .when (.after (fun _ => ?_) safe_current) (keeps_fail _)
  exact .ite (keeps_fail _) (.pure trivial)

theorem safe_fetchKey : Safe fetchKey := by
  refine keeps_get_bind fun s hs => ?_
  extract_lets finish allow inBlock
  have hfinish (u : Unit) : Safe (finish u) :=
    .after (fun _ => .after (fun _ => safe_push hs.mark _) safe_skipKeyBlanks) safe_skipInk
  have hallow (u : Unit) : Safe (allow u) :=
    .after (fun _ => .ite (.after hfinish safe_allowKey) (.after hfinish safe_forbidKey))
      safe_dropKey
  have hinBlock (u : Unit) : Safe (inBlock u) := .after hallow (safe_openBlock hs.mark _ _ _)
  refine .ite (.ite (.after hinBlock (keeps_fail _)) (hinBlock ())) (.after hallow ?_)
  exact keeps_modify fun _ h => ⟨h.mark, h.queue, h.keys⟩

theorem safe_fetchValue : Safe fetchValue := by
  refine keeps_get_bind fun s hs => ?_
  extract_lets key isBarePair finish opened insertPair deepened openValue pushed value
  have hfinish (u : Unit) : Safe (finish u) := safe_push hs.mark _
  have hgiveUp : Safe (modify fun s : Scanner =>
      { s with keys := { key with possible := false } :: s.keys.tail }) := by
    refine keeps_modify fun s h => ⟨h.mark, h.queue, fun other hother hpossible => ?_⟩
    rcases List.mem_cons.mp hother with rfl | hother
    · cases hpossible
    · exact h.keys other (List.mem_of_mem_tail hother) hpossible
  have hopened (u : Unit) : Safe (opened u) :=
    .after (fun _ => .after (fun _ => .after (fun _ => .after hfinish safe_forbidKey) hgiveUp)
      safe_deepen) (safe_openBlock hs.mark _ _ _)
  have hinsertPair (u : Unit) : Safe (insertPair u) :=
    keeps_mark.bind fun _ hmark => .after hopened (safe_insert hmark _ _)
  have hdeepened (u : Unit) : Safe (deepened u) :=
    .after (fun _ => .ite (.after hfinish safe_allowKey) (.after hfinish safe_forbidKey))
      safe_deepen
  have hopenValue (u : Unit) : Safe (openValue u) :=
    .after hdeepened (safe_openBlock hs.mark _ _ _)
  have hpushed (u : Unit) : Safe (pushed u) :=
    .ite (.ite (.after hopenValue (keeps_failAt _ _)) (hopenValue ())) (hdeepened ())
  have hvalue (u : Unit) : Safe (value u) := by
    show Safe (if key.possible = true then _ else _)
    split
    · rename_i hpossible
      refine .after (fun _ => .ite (.ite ?_ (hinsertPair ())) (hopened ()))
        (safe_insert (hs.line_of_possible hpossible) _ _)
      exact .after hinsertPair (keeps_failAt _ _)
    · exact .ite (.after hpushed (safe_push hs.mark _)) (hpushed ())
  refine .after (fun _ => .after (fun _ => .after (fun _ => .ite ?_ (hvalue ())) safe_current)
    safe_skipInk) (keeps_modify fun _ h => ⟨h.mark, h.queue, h.keys⟩)
  refine .after (fun _ => .after (fun _ => ?_) safe_current) (safe_skipBlanks true)
  exact .ite (.after hvalue (keeps_fail _)) (hvalue ())

theorem safe_fetchAnchor (isAlias : Bool) : Safe (fetchAnchor isAlias) := by
  refine .after (fun _ => .after (fun _ => keeps_mark.bind fun start hstart => ?_) safe_forbidKey)
    safe_noteKey
  refine .after (fun _ => .after (fun name => .when ?_ (keeps_failAt _ _)) (safe_takeRun _))
    safe_skipInk
  exact safe_push hstart _

theorem safe_verbatimTag (start : Mark) : Safe (verbatimTag start) := by
  refine .after (fun _ => .after (fun _ => .after (fun _ => .when ?_ (keeps_failAt _ _))
    safe_current) (safe_uriRun _ start)) (safe_skipInks 2)
  exact .after (fun _ => .pure trivial) safe_skipInk

theorem safe_tagParts (start : Mark) : Safe (tagParts start) := by
  refine .after (fun _ => .ite (.after (fun _ => .pure trivial) (safe_verbatimTag start)) ?_)
    (safe_peek 1)
  refine .after (fun handle => .ite ?_ (.after (fun _ => .pure trivial) (safe_uriRun _ start)))
    (safe_tagHandle false start)
  exact .after (fun _ => .when (.pure trivial) (keeps_failAt _ _)) (safe_uriRun _ start)

theorem safe_fetchTag : Safe fetchTag := by
  refine .after (fun _ => .after (fun _ => keeps_mark.bind fun start hstart => ?_) safe_forbidKey)
    safe_noteKey
  refine .after (fun (handle, suffix) => keeps_get_bind fun _ _ => ?_) (safe_tagParts start)
  exact .when (safe_push hstart _) (keeps_failAt _ _)

theorem safe_fetchBlockScalar (literal : Bool) : Safe (fetchBlockScalar literal) :=
  .after (fun _ => .after (fun _ => safe_scanBlock literal) safe_allowKey) safe_noteKey

theorem safe_fetchQuoted (quote : Char) (style : ScalarStyle) : Safe (fetchQuoted quote style) := by
  refine .after (fun _ => .after (fun _ => ?_) safe_forbidKey) safe_noteKey
  refine (keeps_scanQuoted quote style).bind fun (start, token) hstart => ?_
  refine .after (fun _ => .after (fun _ => safe_push hstart token) ?_) safe_skipToContent
  exact keeps_modify fun _ h => ⟨h.mark, h.queue, h.keys⟩

theorem safe_fetchPlain : Safe fetchPlain :=
  .after (fun _ => .after (fun _ => safe_scanPlain) safe_forbidKey) safe_noteKey

theorem safe_fetchContent : Safe fetchContent := by
  refine keeps_get_bind fun s _ => ?_
  refine .ite (safe_fetchFlowStart _) (.ite (safe_fetchFlowStart _) ?_)
  refine .ite (safe_fetchFlowEnd _) (.ite (safe_fetchFlowEnd _) (.ite safe_fetchFlowEntry ?_))
  refine .ite safe_fetchBlockEntry (.ite safe_fetchKey (.ite safe_fetchValue ?_))
  refine .ite (safe_fetchAnchor _) (.ite (safe_fetchAnchor _) (.ite safe_fetchTag ?_))
  refine .ite (safe_fetchBlockScalar _) (.ite (safe_fetchBlockScalar _) ?_)
  refine .ite (safe_fetchQuoted _ _) (.ite (safe_fetchQuoted _ _) ?_)
  exact .ite (keeps_fail _) safe_fetchPlain

theorem safe_fetch : Safe fetch := by
  refine .after (fun _ => .after (fun _ => keeps_get_bind fun _ _ => ?_) safe_dropStaleKeys)
    safe_skipToContent
  refine .after (fun _ => keeps_get_bind fun _ _ => ?_) (safe_closeBlocks _)
  refine .ite safe_fetchStreamEnd (.ite safe_fetchDirective ?_)
  refine .ite (safe_fetchDocumentIndicator _) (.ite ?_ (.when safe_fetchContent (keeps_fail _)))
  refine .after (fun _ => .after (fun _ => .after (fun _ => ?_) safe_current)
    (safe_skipBlanks true)) (safe_fetchDocumentIndicator _)
  exact .ite (keeps_fail _) (.pure trivial)

theorem safe_fetchMore : ∀ n, Safe (fetchMore n)
  | 0 => .pure trivial
  | n + 1 => by
    have hagain : Safe (do fetch; fetchMore n) := .after (fun _ => safe_fetchMore n) safe_fetch
    refine keeps_get_bind fun _ _ => .ite hagain (.after (fun _ => ?_) safe_dropStaleKeys)
    exact keeps_get_bind fun _ _ => .ite hagain (.pure trivial)

/-- The next token stands on a line. -/
theorem keeps_peekToken : Keeps Scanner.IsPlaced peekToken fun entry => 0 < entry.1.line := by
  refine keeps_get_bind fun s _ => .after (fun _ => keeps_get_bind fun s hs => ?_)
    (safe_fetchMore _)
  split
  · rename_i entry queue hqueue
    exact .pure (hs.queue entry (hqueue ▸ List.mem_cons_self))
  · exact keeps_fail _

theorem safe_skipToken : Safe skipToken :=
  keeps_modify fun _ h => ⟨h.mark, fun entry hentry => h.queue entry (List.mem_of_mem_tail hentry),
    h.keys⟩

end Tokens

end Scan

end ProcessLint.Yaml.Outline
