import Mathlib.Data.List.Nodup
import ProcessLint.Proofs.Fix.Entries
import ProcessLint.Proofs.Postcondition

/-!
The entries of a document as a whole. Its keys are on lines of their own, one below the other and
all at one indentation, so their entries follow one another without gaps.
-/
namespace ProcessLint

/-- The number of the line with the key of a process. -/
def Document.keyLine (doc : Document) (name : String) : Nat := (doc.positionOf name []).line - 1

/-- The lines without the carriage returns before their line feeds. -/
def Document.bareLines (doc : Document) : Fix.Lines := doc.lineChars.map (Text.dropFinal '\r')

namespace Fix.Order

open Text

section Keys

/-- Names with the lines of their keys, one below the other and at one indentation. -/
structure AreKeys (doc : Document) (lines : Lines) (previous : Nat)
    (keys : List (String × Nat)) : Prop where
  lines_eq : ∀ k ∈ keys, k.2 = doc.keyLine k.1
  ascending : (previous :: keys.map (·.2)).IsChain (· < ·)
  columns : ∀ k ∈ keys, indentOf (lineAt lines k.2) + 1 = (doc.positionOf k.1 []).column
  aligned : ∃ indent, ∀ k ∈ keys, indentOf (lineAt lines k.2) = indent

variable {doc : Document} {lines : Lines}

theorem keyLines_cons {previous : Nat} {column : Option Nat} {name : String}
    {names : List String} {keys : List (String × Nat)}
    (h : keyLines doc lines previous column (name :: names) = .ok keys) :
    ∃ position rest, doc.sourceMap.get? ["processes", name] = some position ∧
      previous < position.line - 1 ∧ column.getD position.column = position.column ∧
      indentOf (lineAt lines (position.line - 1)) + 1 = position.column ∧
      keyLines doc lines (position.line - 1) (some position.column) names = .ok rest ∧
      keys = (name, position.line - 1) :: rest := by
  unfold keyLines at h
  split at h
  · cases h
  · rename_i position hposition
    dsimp only at h
    split at h
    · cases h
    · rename_i hbelow
      split at h
      · cases h
      · rename_i hcolumn
        split at h
        · cases h
        · rename_i hindent
          obtain ⟨rest, hrest, h⟩ := bind_eq_ok h
          cases h
          exact ⟨position, rest, hposition, by omega, by simpa using hcolumn,
            by simpa using hindent, hrest, rfl⟩

theorem positionOf_eq {name : String} {position : Position}
    (h : doc.sourceMap.get? ["processes", name] = some position) :
    doc.positionOf name [] = position := by
  unfold Document.positionOf
  rw [h]
  rfl

theorem keyLines_names (names : List String) :
    ∀ {previous : Nat} {column : Option Nat} {keys : List (String × Nat)},
      keyLines doc lines previous column names = .ok keys → keys.map (·.1) = names := by
  induction names with
  | nil =>
    intro previous column keys h
    cases h
    rfl
  | cons name names ih =>
    intro previous column keys h
    obtain ⟨position, rest, -, -, -, -, hrest, rfl⟩ := keyLines_cons h
    rw [List.map_cons, ih hrest]

private theorem keyLines_column (names : List String) :
    ∀ {previous : Nat} {column : Option Nat} {keys : List (String × Nat)},
      keyLines doc lines previous column names = .ok keys →
      ∃ c, (∀ given ∈ column, given = c) ∧ ∀ k ∈ keys, indentOf (lineAt lines k.2) + 1 = c := by
  induction names with
  | nil =>
    intro previous column keys h
    cases h
    exact ⟨column.getD 0, by simp +contextual, by simp⟩
  | cons name names ih =>
    intro previous column keys h
    obtain ⟨position, rest, -, -, hcolumn, hindent, hrest, rfl⟩ := keyLines_cons h
    obtain ⟨c, hgiven, hc⟩ := ih hrest
    obtain rfl := hgiven position.column rfl
    refine ⟨position.column, ?_, ?_⟩
    · rintro given ⟨rfl⟩
      exact hcolumn
    · intro k hk
      rcases List.mem_cons.mp hk with rfl | hmem
      · exact hindent
      · exact hc k hmem

theorem keyLines_areKeys (names : List String) :
    ∀ {previous : Nat} {column : Option Nat} {keys : List (String × Nat)},
      keyLines doc lines previous column names = .ok keys → AreKeys doc lines previous keys := by
  induction names with
  | nil =>
    intro previous column keys h
    cases h
    exact ⟨by simp, by simp, by simp, 0, by simp⟩
  | cons name names ih =>
    intro previous column keys h
    obtain ⟨c, -, hc⟩ := keyLines_column (name :: names) h
    obtain ⟨position, rest, hposition, hbelow, -, hindent, hrest, rfl⟩ := keyLines_cons h
    obtain ⟨hlines, hascending, hcolumns, -⟩ := ih hrest
    have hname := positionOf_eq hposition
    refine ⟨?_, ?_, ?_, c - 1, fun k hk => by have := hc k hk; omega⟩
    · refine List.forall_mem_cons.mpr ⟨?_, hlines⟩
      rw [Document.keyLine, hname]
    · rw [List.map_cons, List.isChain_cons_cons]
      exact ⟨hbelow, hascending⟩
    · refine List.forall_mem_cons.mpr ⟨?_, hcolumns⟩
      rw [hname, hindent]

theorem AreKeys.tail {previous : Nat} {key : String × Nat} {keys : List (String × Nat)}
    (h : AreKeys doc lines previous (key :: keys)) : AreKeys doc lines key.2 keys := by
  obtain ⟨hlines, hascending, hcolumns, indent, haligned⟩ := h
  rw [List.map_cons, List.isChain_cons_cons] at hascending
  exact ⟨fun k hk => hlines k (List.mem_cons_of_mem _ hk), hascending.2,
    fun k hk => hcolumns k (List.mem_cons_of_mem _ hk), indent,
    fun k hk => haligned k (List.mem_cons_of_mem _ hk)⟩

theorem AreKeys.head {previous : Nat} {key : String × Nat} {keys : List (String × Nat)}
    (h : AreKeys doc lines previous (key :: keys)) :
    previous < key.2 ∧ key.2 = doc.keyLine key.1 := by
  obtain ⟨hlines, hascending, -⟩ := h
  rw [List.map_cons, List.isChain_cons_cons] at hascending
  exact ⟨hascending.1, hlines key (List.mem_cons_self ..)⟩

/-- A name that is there twice would have two lines. -/
theorem AreKeys.nodup_names {previous : Nat} {keys : List (String × Nat)}
    (h : AreKeys doc lines previous keys) : (keys.map (·.1)).Nodup := by
  have hnumbers : (keys.map (·.2)).Pairwise (· < ·) := h.ascending.pairwise.tail
  have hlines : keys.map (·.2) = (keys.map (·.1)).map doc.keyLine := by
    rw [List.map_map]
    exact List.map_congr_left h.lines_eq
  rw [hlines] at hnumbers
  exact List.Nodup.of_map doc.keyLine (hnumbers.imp Nat.ne_of_lt)

end Keys

section Layout

variable {doc : Document} {lines : Lines} {header : Nat}

/-- Entries one behind the other, each from the comments of its key up to the next; the last one
goes up to the line that ends it. A key that is no comment and not blank is in its own entry. -/
structure Layout (doc : Document) (lines : Lines) (header : Nat) (entries : List Entry) :
    Prop where
  consecutive : entries.IsChain fun above below => above.stop = below.start
  starts : ∀ e ∈ entries, StartsAt lines header (doc.keyLine e.name) e.start
  inside : ∀ e ∈ entries, e.start ≤ e.stop ∧ e.stop ≤ lines.length
  last : ∀ e ∈ entries.getLast?, StopsAt lines (doc.keyLine e.name) e.stop
  holds : ∀ e ∈ entries, isBlank (lineAt lines (doc.keyLine e.name)) = false →
    isComment (lineAt lines (doc.keyLine e.name)) = false → doc.keyLine e.name < e.stop

theorem StopsAt.key_lt {key stop : Nat} (h : StopsAt lines key stop)
    (hkey : isBlank (lineAt lines key) = false) : key < stop := by
  obtain ⟨hle, ⟨bound, hbound, -, hblank⟩, -⟩ := h
  by_contra hstop
  have hline := hblank key (by omega) hbound.behind_key
  rw [hkey] at hline
  cases hline

theorem StartsAt.key_lt {key next start : Nat} (h : StartsAt lines header next start)
    (hlt : key < next) (hkey : isComment (lineAt lines key) = false) : key < start := by
  by_contra hstart
  have hline := (h.comments key (by omega) hlt).1
  rw [hkey] at hline
  cases hline

theorem Layout.cons {e below : Entry} {rest : List Entry}
    (h : Layout doc lines header (below :: rest)) (hstop : e.stop = below.start)
    (hstart : StartsAt lines header (doc.keyLine e.name) e.start) (hle : e.start ≤ e.stop)
    (hholds : isComment (lineAt lines (doc.keyLine e.name)) = false →
      doc.keyLine e.name < e.stop) : Layout doc lines header (e :: below :: rest) := by
  have hbelow := h.inside below (List.mem_cons_self ..)
  constructor
  · exact .cons_cons hstop h.consecutive
  · exact List.forall_mem_cons.mpr ⟨hstart, h.starts⟩
  · exact List.forall_mem_cons.mpr ⟨⟨hle, by omega⟩, h.inside⟩
  · rw [List.getLast?_cons_cons]
    exact h.last
  · exact List.forall_mem_cons.mpr ⟨fun _ => hholds, h.holds⟩

theorem Layout.tail {e below : Entry} {rest : List Entry}
    (h : Layout doc lines header (e :: below :: rest)) :
    Layout doc lines header (below :: rest) where
  consecutive := (List.isChain_cons_cons.mp h.consecutive).2
  starts := (List.forall_mem_cons.mp h.starts).2
  inside := (List.forall_mem_cons.mp h.inside).2
  last := by
    have hlast := h.last
    rwa [List.getLast?_cons_cons] at hlast
  holds := (List.forall_mem_cons.mp h.holds).2

theorem entries_cons (name : String) (key : Nat) (keys : List (String × Nat)) :
    ∃ stop rest, entries lines header ((name, key) :: keys) =
      ⟨name, entryStart lines header key, stop⟩ :: rest := by
  cases keys with
  | nil => exact ⟨_, [], rfl⟩
  | cons next rest => exact ⟨_, _, rfl⟩

theorem entries_names : ∀ keys : List (String × Nat),
    (entries lines header keys).map (·.name) = keys.map (·.1)
  | [] => rfl
  | [_] => rfl
  | (name, key) :: next :: rest => by
    rw [entries, List.map_cons, entries_names (next :: rest), List.map_cons (a := (name, key))]

/-- Keys that are lines of the text have entries without gaps. -/
theorem entries_layout : ∀ (keys : List (String × Nat)) {previous : Nat},
    AreKeys doc lines previous keys → header ≤ previous → (∀ k ∈ keys, k.2 < lines.length) →
    Layout doc lines header (entries lines header keys)
  | [], _, _, _, _ => by
    constructor <;> simp [entries]
  | [(name, key)], previous, hkeys, hheader, hinside => by
    obtain ⟨hbelow, hline⟩ := hkeys.head
    obtain rfl : key = doc.keyLine name := hline
    have hstart : StartsAt lines header (doc.keyLine name) _ :=
      entryStart_startsAt (Nat.lt_of_le_of_lt hheader hbelow)
    have hstop : StopsAt lines (doc.keyLine name) _ :=
      lastStop_stopsAt (hinside (name, doc.keyLine name) (List.mem_singleton_self _))
    obtain ⟨bound, hbound, hstopBound, -⟩ := hstop.ends
    rw [entries]
    constructor
    · exact .singleton _
    · simpa using hstart
    · simpa using And.intro (Nat.le_trans hstart.le_key hstop.key_le)
        (Nat.le_trans hstopBound hbound.inside)
    · simpa using hstop
    · simpa using fun hblank _ => hstop.key_lt hblank
  | (name, key) :: (next, nextKey) :: rest, previous, hkeys, hheader, hinside => by
    obtain ⟨hbelow, hline⟩ := hkeys.head
    obtain ⟨hnext, -⟩ := hkeys.tail.head
    obtain rfl : key = doc.keyLine name := hline
    dsimp only at hbelow hnext
    have hrest := entries_layout ((next, nextKey) :: rest) hkeys.tail (by omega)
      fun k hk => hinside k (List.mem_cons_of_mem _ hk)
    obtain ⟨indent, haligned⟩ := hkeys.aligned
    have hindent : indentOf (lineAt lines (doc.keyLine name)) = indentOf (lineAt lines nextKey) :=
      (haligned (name, doc.keyLine name) (by simp)).trans (haligned (next, nextKey) (by simp)).symm
    have hstart : StartsAt lines header (doc.keyLine name) _ := entryStart_startsAt (by omega)
    have hnextStart : StartsAt lines header nextKey _ := entryStart_startsAt (by omega)
    obtain ⟨stop, below, hentries⟩ := entries_cons next nextKey rest
    rw [entries, hentries]
    rw [hentries] at hrest
    exact hrest.cons rfl hstart (hstart.mono hnextStart hnext hindent) (hnextStart.key_lt hnext)

end Layout

end Fix.Order

end ProcessLint
