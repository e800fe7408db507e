import ProcessLint.Proofs.Document.Declared
import ProcessLint.Proofs.Document.Names
import ProcessLint.Proofs.Document.Reading
import ProcessLint.Proofs.Fix.Stability
import ProcessLint.Proofs.Text.ByteOrder
import ProcessLint.Proofs.Yaml.Marks

/-!
The order of the processes is recorded from the outline, their names are read from the content.
Where both report one tree these are the same, unless an alias stands for the mapping of the
processes or for one of its keys: the outline does not follow it.
-/
namespace ProcessLint

open Yaml

namespace Tree

/-- The name of a process that is recorded with a path. -/
def processName : List String × Mark → Option String
  | (["processes", name], _) => some name
  | _ => none

theorem Has.path_ne_nil {tree : Tree} {path : List String} {mark : Mark}
    (h : tree.Has path mark) : path ≠ [] := by
  cases h <;> simp

theorem processName_eq_some {place : List String × Mark} {name : String} :
    processName place = some name ↔ place.1 = ["processes", name] := by
  obtain ⟨path, mark⟩ := place
  unfold processName
  split
  · simp_all
  · rename_i hne
    simpa using fun h => hne name mark (by rw [h])

/-- Nothing below another key is recorded as a process, and nothing that lies deeper. -/
theorem filterMap_marks {tree : Tree} {first : String} {path : List String}
    (hne : first ≠ "processes" ∨ path ≠ []) :
    (tree.marks (first :: path)).filterMap processName = [] := by
  refine List.filterMap_eq_nil_iff.mpr fun place hplace => Option.eq_none_iff_forall_ne_some.mpr
    fun name hname => ?_
  obtain ⟨inside, hpath, hhas⟩ := has_of_mem_marks tree (first :: path) place hplace
  obtain ⟨segment, rest, rfl⟩ := List.exists_cons_of_ne_nil hhas.path_ne_nil
  rw [processName_eq_some.mp hname, List.cons_append] at hpath
  obtain ⟨rfl, hpath⟩ := List.cons.inj hpath
  obtain hfirst | hdeep := hne
  · exact hfirst rfl
  · obtain ⟨second, path, rfl⟩ := List.exists_cons_of_ne_nil hdeep
    simp at hpath

theorem segment_eq_processes {key : Tree} :
    key.segment = "processes" ↔ ∃ mark, key = scalar "processes" mark := by
  cases key <;> simp [segment]

/-- What is recorded of a root as processes is what is recorded below the keys `processes`. -/
theorem filterMap_entryMarks (entries : List (Tree × Tree)) :
    (entryMarks [] entries).filterMap processName =
      (valuesOf "processes" entries).flatMap fun value =>
        (value.marks ["processes"]).filterMap processName := by
  induction entries with
  | nil => rfl
  | cons entry rest ih =>
    obtain ⟨key, value⟩ := entry
    have hown : (key.keyMarks []).filterMap processName = [] := by
      cases key <;> simp [keyMarks, processName]
    have hkey : (key.marks [key.segment]).filterMap processName = [] := by
      cases key with
      | scalar | reference => rfl
      | sequence | mapping => exact filterMap_marks (.inl (by simp [segment]))
    rw [entryMarks]
    simp only [List.filterMap_append, List.nil_append, hown, hkey, ih]
    by_cases hprocesses : ∃ mark, key = scalar "processes" mark
    · obtain ⟨mark, rfl⟩ := hprocesses
      rw [valuesOf_cons_self, List.flatMap_cons]
      rfl
    · rw [valuesOf_cons_of_ne (not_exists.mp hprocesses),
        filterMap_marks (.inl (mt segment_eq_processes.mp hprocesses)), List.nil_append]

/-- Recorded of the processes are their keys, if none is a collection. -/
theorem filterMap_mapping {start stop : Mark} {entries : List (Tree × Tree)}
    (hleaves : ∀ entry ∈ entries, entry.1.IsLeaf) :
    ((mapping start stop entries).marks ["processes"]).filterMap processName =
      entries.map (·.1.segment) := by
  rw [marks]
  induction entries with
  | nil => rfl
  | cons entry rest ih =>
    obtain ⟨key, value⟩ := entry
    obtain ⟨hleaf, hrest⟩ := List.forall_mem_cons.mp hleaves
    have hown : (key.keyMarks ["processes"]).filterMap processName = [key.segment] := by
      cases key with
      | scalar | reference => rfl
      | sequence | mapping => cases hleaf
    have hinner (tree : Tree) :
        (tree.marks (["processes"] ++ [key.segment])).filterMap processName = [] :=
      filterMap_marks (.inr (by simp))
    rw [entryMarks]
    simp only [List.filterMap_append, hown, hinner, ih hrest, List.append_nil, List.map_cons]
    rfl

/-- Both readers report the events of one tree, or there is nothing to read. -/
structure IsReadFrom (root? : Option Tree) (text : List Char) : Prop where
  outline : Outline.read text = .ok (SourceMap.eventsOf root?)
  content : ∀ root ∈ root?, Agree root.events (Content.Stream.ofText text).events

/-- No alias stands among these keys, but for processes with the name that an alias is recorded
as. -/
def InPlace (entries : List (Tree × Tree)) (names : List String) : Prop :=
  List.Forall₂ (fun entry name => ∀ mark, entry.1 = reference mark → name = SourceMap.aliasKey)
    entries names

/-- The key of the processes and their mapping are written in place, and so are their keys. -/
def Lists (tree : Tree) (names : List String) : Prop :=
  ∃ outerStart outerStop outer start stop entries,
    tree = mapping outerStart outerStop outer ∧
      mapping start stop entries ∈ valuesOf "processes" outer ∧ InPlace entries names

theorem lists_mapping {start stop : Mark} {outer : List (Tree × Tree)} {names : List String} :
    (mapping start stop outer).Lists names ↔ ∃ first last entries,
      mapping first last entries ∈ valuesOf "processes" outer ∧ InPlace entries names := by
  simp [Lists]

/-- Keys that are read as the names of processes are leaves, and those that are written in place
tell their names. -/
theorem segments_eq_iff {entries : List (Tree × Tree)} {names : List String}
    (h : List.Forall₂ (fun entry name => entry.1.Spells (.string name)) entries names) :
    (∀ entry ∈ entries, entry.1.IsLeaf) ∧
      (entries.map (·.1.segment) = names ↔ InPlace entries names) := by
  unfold InPlace
  induction h with
  | nil => simp
  | @cons entry name entries names hentry _ ih =>
    obtain ⟨hleaves, hiff⟩ := ih
    obtain ⟨key, value⟩ := entry
    rw [List.forall_mem_cons, List.map_cons, List.cons.injEq, List.forall₂_cons, hiff]
    cases key with
    | scalar text mark =>
      refine ⟨⟨trivial, hleaves⟩, ?_⟩
      simp [segment, hentry name rfl]
    | reference mark =>
      refine ⟨⟨trivial, hleaves⟩, ?_⟩
      simp [segment, SourceMap.aliasKey, eq_comm]
    | sequence | mapping => exact absurd rfl (hentry name)

/-- Of what processes are read from, just a mapping written in place tells their names. -/
theorem order_eq_names_iff {value : Tree} {pairs : List (Value × Value)} {names : List String}
    (hholds : value.Holds pairs) (hpairs : pairs.map Prod.fst = names.map Value.string) :
    (value.marks ["processes"]).filterMap processName = names ↔
      names = [] ∨ ∃ start stop entries, mapping start stop entries = value ∧
        InPlace entries names := by
  cases value with
  | scalar text mark =>
    cases hholds
    simp [marks, List.map_eq_nil_iff.mp hpairs.symm]
  | reference mark => simp [marks, eq_comm]
  | sequence => cases hholds
  | mapping start stop entries =>
    have hspells : List.Forall₂ (fun entry v => entry.1.Spells v) entries
        (names.map Value.string) := by
      rw [← hpairs, List.forall₂_map_right_iff]
      exact hholds
    rw [List.forall₂_map_right_iff] at hspells
    obtain ⟨hleaves, hiff⟩ := segments_eq_iff hspells
    rw [filterMap_mapping hleaves, hiff]
    constructor
    · exact fun h => .inr ⟨start, stop, entries, rfl, h⟩
    · rintro (rfl | ⟨_, _, _, hsame, hinPlace⟩)
      · cases hspells
        exact .nil
      · cases hsame
        exact hinPlace

end Tree

namespace Document

section Names

variable {doc : Document} {root? : Option Tree} {path text : String}

/-- The order that is recorded of a root, and what is read of its processes. -/
theorem order_of_ofText (h : ofText path text = .ok doc)
    (hroot : Tree.IsReadFrom root? text.toList) :
    doc.processOrder = (SourceMap.marksOf root?).filterMap Tree.processName ∧
      ((doc.processes = [] ∧ ∀ root ∈ root?, ∃ text mark, root = .scalar text mark) ∨
        ∃ start stop entries, ∃ raw : RawDocument, root? = some (.mapping start stop entries) ∧
          (Tree.valuesOf "processes" entries = [] ∨ ∃ tree pairs,
            Tree.valuesOf "processes" entries = [tree] ∧ raw.processes = some pairs ∧
              tree.Holds pairs) ∧
          (raw.processes.getD []).map Prod.fst = doc.processes.map fun p => .string p.name) := by
  obtain ⟨events, hevents, hdoc⟩ := bind_eq_ok h
  rw [hroot.outline] at hevents
  cases hevents
  rw [SourceMap.ofEvents_eventsOf root?] at hdoc
  dsimp only at hdoc
  have horder := SourceMap.processOrder_ofMarks (SourceMap.marksOf root?)
  cases root? with
  | none =>
    cases hdoc
    exact ⟨horder, .inl ⟨rfl, by simp⟩⟩
  | some root =>
    rw [Option.map_some, Option.getD_some] at hdoc
    split at hdoc
    · rename_i hkind
      obtain ⟨text, mark, hscalar, -⟩ := SourceMap.kindOf_eq_absent.mp hkind
      cases hdoc
      exact ⟨horder, .inl ⟨rfl, by simp [hscalar]⟩⟩
    · cases hdoc
    · rename_i hkind
      obtain ⟨start, stop, entries, rfl⟩ := SourceMap.kindOf_eq_mapping.mp hkind
      obtain ⟨declared, hdeclared, hdoc⟩ := bind_eq_ok hdoc
      obtain ⟨raw, hraw, -, -, hprocesses⟩ := Declarations.exists_raw_of_ofText hdeclared
      cases hdoc
      have htold := RawDocument.processes_of_agree hraw (hroot.content _ rfl)
      exact ⟨horder, .inr ⟨start, stop, entries, raw, rfl, htold,
        Declarations.keys_eq_names hprocesses⟩⟩

/-- Without an alias for it or in it, the order of the processes is that of their names. -/
theorem processOrder_eq_names_iff (h : ofText path text = .ok doc)
    (hroot : Tree.IsReadFrom root? text.toList) :
    doc.processOrder = doc.processes.map (·.name) ↔
      doc.processes = [] ∨ ∃ root ∈ root?, root.Lists (doc.processes.map (·.name)) := by
  obtain ⟨horder, ⟨hnone, hscalar⟩ | ⟨start, stop, entries, raw, rfl, htold, hkeys⟩⟩ :=
    order_of_ofText h hroot
  · rw [horder, hnone]
    cases root? with
    | none => simp [SourceMap.marksOf]
    | some root =>
      obtain ⟨text, mark, rfl⟩ := hscalar root rfl
      simp [SourceMap.marksOf, Tree.marks]
  · have hnames : doc.processes = [] ↔ doc.processes.map (·.name) = [] := List.map_eq_nil_iff.symm
    rw [horder, SourceMap.marksOf, Option.map_some, Option.getD_some, Tree.marks,
      Tree.filterMap_entryMarks, hnames]
    generalize hlist : doc.processes.map (·.name) = names
    have hpairs : (raw.processes.getD []).map Prod.fst = names.map Value.string := by
      rw [hkeys, ← hlist, List.map_map]
      rfl
    simp only [Option.mem_some_iff, exists_eq_left']
    rw [Tree.lists_mapping]
    rcases htold with hvalues | ⟨tree, pairs, hvalues, hread, hholds⟩
    · simp [hvalues, eq_comm]
    · rw [hread, Option.getD_some] at hpairs
      simp only [hvalues, List.flatMap_cons, List.flatMap_nil, List.append_nil,
        List.mem_singleton]
      exact Tree.order_eq_names_iff hholds hpairs

end Names

end Document

namespace SourceMap

/-- An event records at most one position, its own. -/
theorem Collector.reversed_step (c : Collector) (entry : Outline.Event × Mark) :
    (c.step entry).reversed = c.reversed ∨
      ∃ path, (c.step entry).reversed = (path, .ofMark entry.2) :: c.reversed := by
  obtain ⟨event, mark⟩ := entry
  have hleaf (text : String) (kind : RootKind) : (c.leaf text kind mark).reversed = c.reversed ∨
      ∃ path, (c.leaf text kind mark).reversed = (path, .ofMark mark) :: c.reversed := by
    unfold leaf
    rcases takeSlot c.stack with ⟨slot, stack⟩
    cases slot with
    | root | value => exact .inl rfl
    | key | item => exact .inr ⟨_, rfl⟩
  have henter (frame : Frame) (kind : RootKind) :
      (c.enter frame kind mark).reversed = c.reversed ∨
        ∃ path, (c.enter frame kind mark).reversed = (path, .ofMark mark) :: c.reversed := by
    unfold enter
    rcases takeSlot c.stack with ⟨slot, stack⟩
    cases slot with
    | root | key | value => exact .inl rfl
    | item => exact .inr ⟨_, rfl⟩
  have hleave : c.leave.reversed = c.reversed := by
    unfold leave
    split <;> rfl
  cases event with
  | scalar | reference => exact hleaf _ _
  | sequenceStart | mappingStart => exact henter _ _
  | sequenceEnd | mappingEnd => exact .inl hleave

theorem mem_reversed_foldl (events : List (Outline.Event × Mark))
    {place : List String × Position} : ∀ {c : Collector},
      place ∈ (events.foldl Collector.step c).reversed →
        place ∈ c.reversed ∨ ∃ entry ∈ events, place.2 = .ofMark entry.2 := by
  induction events with
  | nil => exact fun h => .inl h
  | cons entry events ih =>
    intro c h
    rcases ih h with h | ⟨other, hother, hplace⟩
    · rcases c.reversed_step entry with hsame | ⟨path, hadded⟩
      · exact .inl (hsame ▸ h)
      · rw [hadded] at h
        rcases List.mem_cons.mp h with rfl | h
        · exact .inr ⟨entry, List.mem_cons_self, rfl⟩
        · exact .inl h
    · exact .inr ⟨other, List.mem_cons_of_mem _ hother, hplace⟩

/-- Every position is that of an event. -/
theorem exists_event_of_mem {events : List (Outline.Event × Mark)}
    {place : List String × Position} (h : place ∈ (ofEvents events).2.entries) :
    ∃ entry ∈ events, place.2 = .ofMark entry.2 := by
  rcases mem_reversed_foldl events (List.mem_reverse.mp h) with h | h
  · cases h
  · exact h

theorem mem_processOrder {map : SourceMap} {name : String} :
    name ∈ map.processOrder ↔ ∃ position, (["processes", name], position) ∈ map.entries := by
  unfold processOrder
  rw [List.mem_filterMap]
  constructor
  · rintro ⟨⟨path, position⟩, hplace, hname⟩
    split at hname
    · cases hname
      rename_i hpath
      cases hpath
      exact ⟨position, hplace⟩
    · cases hname
  · exact fun ⟨position, hplace⟩ => ⟨_, hplace, rfl⟩

/-- A path that is recorded has a position, and that is one of those recorded. -/
theorem exists_get?_of_mem {map : SourceMap} {path : List String} {position : Position}
    (h : (path, position) ∈ map.entries) :
    ∃ first, map.get? path = some first ∧ (path, first) ∈ map.entries := by
  have hsome : (map.entries.lookup path).isSome :=
    List.lookup_isSome_iff.mpr ⟨_, h, beq_self_eq_true path⟩
  obtain ⟨first, hfirst⟩ := Option.isSome_iff_exists.mp hsome
  obtain ⟨before, behind, hsplit, -⟩ := List.lookup_eq_some_iff.mp hfirst
  exact ⟨first, hfirst, by simp [hsplit]⟩

end SourceMap

theorem firstInversion_eq_some {before after : String} : ∀ {names : List String},
    firstInversion names = some (before, after) → after ∈ names
  | [], h | [_], h => by cases h
  | first :: second :: rest, h => by
    rw [firstInversion] at h
    split at h
    · cases h
      simp
    · exact List.mem_cons_of_mem _ (firstInversion_eq_some h)

namespace Document

variable {doc : Document} {path text : String}

theorem line_pos_of_mem (h : ofText path text = .ok doc) :
    ∀ place ∈ doc.sourceMap.entries, 0 < place.2.line := by
  intro place hplace
  obtain ⟨events, hevents, -, -, hmap⟩ := exists_events_of_ofText h
  rw [hmap] at hplace
  obtain ⟨entry, hentry, hposition⟩ := SourceMap.exists_event_of_mem hplace
  rw [hposition]
  exact Outline.line_pos_of_read hevents entry hentry

/-- What is found out of order is found at a key that is recorded as a process. -/
theorem exists_place_of_checkOrder (h : ofText path text = .ok doc) {v : Violation}
    (hv : v ∈ checkOrder doc) : ∃ name ∈ doc.processOrder,
      doc.sourceMap.get? ["processes", name] = some v.position ∧ 0 < v.position.line := by
  unfold checkOrder at hv
  split at hv
  · cases hv
  · rename_i before after hinversion
    have hafter := firstInversion_eq_some hinversion
    obtain ⟨_, hplace⟩ := SourceMap.mem_processOrder.mp hafter
    obtain ⟨first, hfirst, hmem⟩ := SourceMap.exists_get?_of_mem hplace
    have hposition : doc.positionOf after [] = first := by
      unfold positionOf
      rw [hfirst]
      rfl
    rw [hposition] at hv
    rw [List.mem_singleton.mp hv]
    exact ⟨after, hafter, hfirst, line_pos_of_mem h _ hmem⟩

/-- The order that is checked is that of the names that are declared. -/
structure IsListed (doc : Document) : Prop where
  order : doc.processOrder = doc.processes.map (·.name)
  silent : Rule.sortProcesses.check doc = [] ↔
    (doc.processes.map (·.name)).Pairwise fun a b => Text.bytes a < Text.bytes b
  /-- What is found is found at the key of a process. -/
  placed : ∀ v ∈ Rule.sortProcesses.check doc, ∃ p ∈ doc.processes,
    doc.sourceMap.get? ["processes", p.name] = some v.position ∧ 0 < v.position.line

theorem isListed_of_processOrder (h : ofText path text = .ok doc)
    (horder : doc.processOrder = doc.processes.map (·.name)) : doc.IsListed where
  order := horder
  silent := by
    rw [Rule.check_eq_nil, Rule.findings, checkOrder_eq_nil, firstInversion_eq_none, horder,
      List.isChain_iff_pairwise]
    have hnames := nodup_names_of_ofText h
    exact ⟨fun hle => (hle.and hnames).imp fun ⟨hle, hne⟩ => (Text.bytes_lt_iff_le hne).mpr hle,
      fun hlt => (hlt.and hnames).imp fun ⟨hlt, hne⟩ => (Text.bytes_lt_iff_le hne).mp hlt⟩
  placed := by
    intro v hv
    obtain ⟨found, hfound, rfl⟩ := List.mem_map.mp hv
    obtain ⟨name, hname, hplace⟩ := exists_place_of_checkOrder h hfound
    rw [horder] at hname
    obtain ⟨p, hp, rfl⟩ := List.mem_map.mp hname
    exact ⟨p, hp, hplace⟩

/-- If both readers report one tree, its processes are listed just if they are written in place. -/
theorem isListed_iff {bytes : ByteArray} {root? : Option Tree}
    (hparse : parse path bytes = .ok doc) (hroot : Tree.IsReadFrom root? doc.text.toList) :
    doc.IsListed ↔
      doc.processes = [] ∨ ∃ root ∈ root?, root.Lists (doc.processes.map (·.name)) := by
  obtain ⟨hread, -, -⟩ := parse_eq_ok.mp hparse
  rw [← processOrder_eq_names_iff hread hroot]
  exact ⟨fun h => h.order, isListed_of_processOrder hread⟩

section Examples

set_option maxRecDepth 20000

/-- Two processes that are written in place, of which one takes what the other declares. -/
def sharedBody : Document where
  path := "p"
  version := ""
  envFiles := []
  text := "processes:\n  b: &s \x7b\x7d\n  \"a\": *s\n"
  sourceMap := ⟨[(["processes"], ⟨1, 1⟩), (["processes", "b"], ⟨2, 3⟩),
    (["processes", "a"], ⟨3, 3⟩)]⟩
  processes := [.named "b", .named "a"]

def sharedBodyRoot : Tree :=
  .mapping ⟨9, 1, 9⟩ ⟨32, 4, 0⟩ [(.scalar "processes" ⟨0, 1, 0⟩,
    .mapping ⟨14, 2, 3⟩ ⟨32, 4, 0⟩ [(.scalar "b" ⟨13, 2, 2⟩, .mapping ⟨19, 2, 8⟩ ⟨20, 2, 9⟩ []),
      (.scalar "a" ⟨24, 3, 2⟩, .reference ⟨29, 3, 7⟩)])]

theorem isListed_sharedBody :
    parse "p" sharedBody.text.toUTF8 = .ok sharedBody ∧
      Tree.IsReadFrom (some sharedBodyRoot) sharedBody.text.toList ∧
      sharedBodyRoot.Lists ["b", "a"] ∧ sharedBody.IsListed := by
  have hread : sharedBody.IsRead := by
    rw [isRead_iff_toOption]
    decide +kernel
  have hparse := parse_eq_ok.mpr ⟨hread, rfl, rfl⟩
  have hroot : Tree.IsReadFrom (some sharedBodyRoot) sharedBody.text.toList := by
    refine ⟨eq_ok_iff_toOption.mpr ?_, fun root hroot => ?_⟩
    · decide +kernel
    · cases hroot
      decide +kernel
  have hlists : sharedBodyRoot.Lists ["b", "a"] := by
    refine Tree.lists_mapping.mpr ⟨_, _, _, List.mem_singleton_self _, ?_⟩
    simp [Tree.InPlace]
  exact ⟨hparse, hroot, hlists, (isListed_iff hparse hroot).mpr (.inr ⟨_, rfl, hlists⟩)⟩

/-- Processes that are an alias for a mapping that stands elsewhere. -/
def borrowed : Document where
  path := "p"
  version := ""
  envFiles := []
  text := "base: &p\n  b: \x7b\x7d\n  a: \x7b\x7d\nprocesses: *p\n"
  sourceMap := ⟨[(["base"], ⟨1, 1⟩), (["base", "b"], ⟨2, 3⟩), (["base", "a"], ⟨3, 3⟩),
    (["processes"], ⟨4, 1⟩)]⟩
  processes := [.named "b", .named "a"]

/-- No process of these has a place, and nothing is found although they are out of order. -/
theorem not_isListed_borrowed :
    ∃ doc, parse "p" borrowed.text.toUTF8 = .ok doc ∧ ¬ doc.IsListed ∧
      doc.processOrder = [] ∧ doc.processes.map (·.name) = ["b", "a"] ∧
      Rule.sortProcesses.check doc = [] := by
  have hread : borrowed.IsRead := by
    rw [isRead_iff_toOption]
    decide +kernel
  refine ⟨borrowed, parse_eq_ok.mpr ⟨hread, rfl, rfl⟩, fun h => ?_, rfl, rfl, rfl⟩
  cases h.order

end Examples

end Document

end ProcessLint
