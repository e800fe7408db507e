import ProcessLint.SourceMap

/-!
Positions are those of the tree that the events spell. Each event finds its place from what is open
around it: behind all events of a node the open collections are as before it, but for the slot that
it took, and recorded is what the node holds, in document order.
-/
namespace ProcessLint

open Yaml Outline

/-- A node of a document with the marks of its events. -/
inductive Tree where
  | scalar (text : String) (mark : Mark)
  /-- An alias. -/
  | reference (mark : Mark)
  | sequence (start stop : Mark) (items : List Tree)
  | mapping (start stop : Mark) (entries : List (Tree × Tree))

namespace Tree

mutual

/-- The events that spell a node. -/
def events : Tree → List (Event × Mark)
  | scalar text mark => [(.scalar text, mark)]
  | reference mark => [(.reference, mark)]
  | sequence start stop items =>
      (.sequenceStart, start) :: (itemEvents items ++ [(.sequenceEnd, stop)])
  | mapping start stop entries =>
      (.mappingStart, start) :: (entryEvents entries ++ [(.mappingEnd, stop)])

def itemEvents : List Tree → List (Event × Mark)
  | [] => []
  | item :: rest => item.events ++ itemEvents rest

def entryEvents : List (Tree × Tree) → List (Event × Mark)
  | [] => []
  | (key, value) :: rest => key.events ++ value.events ++ entryEvents rest

end

/-- Where a node starts. -/
def mark : Tree → Mark
  | scalar _ mark => mark
  | reference mark => mark
  | sequence start .. => start
  | mapping start .. => start

/-- Neither a sequence nor a mapping. -/
def IsLeaf : Tree → Prop
  | scalar .. | reference .. => True
  | sequence .. | mapping .. => False

/-- What a key adds to the paths of itself, of what is inside it and of what its value holds. -/
def segment : Tree → String
  | scalar text _ => text
  | reference _ => "*"
  | sequence .. | mapping .. => "<complex>"

/-- A key that is a leaf has a path of its own. -/
def keyMarks (path : List String) : Tree → List (List String × Mark)
  | scalar text mark => [(path ++ [text], mark)]
  | reference mark => [(path ++ ["*"], mark)]
  | sequence .. | mapping .. => []

mutual

/-- The paths and marks of the leaf keys and the items inside a node at a path, in document
order. -/
def marks (path : List String) : Tree → List (List String × Mark)
  | scalar .. | reference .. => []
  | sequence _ _ items => itemMarks path 0 items
  | mapping _ _ entries => entryMarks path entries

def itemMarks (path : List String) (index : Nat) : List Tree → List (List String × Mark)
  | [] => []
  | item :: rest =>
      (path ++ [toString index], item.mark) :: item.marks (path ++ [toString index]) ++
        itemMarks path (index + 1) rest

def entryMarks (path : List String) : List (Tree × Tree) → List (List String × Mark)
  | [] => []
  | (key, value) :: rest =>
      key.keyMarks path ++ key.marks (path ++ [key.segment]) ++
        value.marks (path ++ [key.segment]) ++ entryMarks path rest

end

/-- A leaf that is a key of a mapping or an item of a sequence inside a node: its path from the node
down, and its mark. -/
inductive Has : Tree → List String → Mark → Prop
  | item {start stop : Mark} {items : List Tree} {index : Nat} {item : Tree}
      (hitem : items[index]? = some item) :
      Has (sequence start stop items) [toString index] item.mark
  | inItem {start stop mark : Mark} {items : List Tree} {index : Nat} {item : Tree}
      {path : List String} (hitem : items[index]? = some item) (hinside : Has item path mark) :
      Has (sequence start stop items) (toString index :: path) mark
  | key {start stop : Mark} {entries : List (Tree × Tree)} {entry : Tree × Tree}
      (hentry : entry ∈ entries) (hleaf : entry.1.IsLeaf) :
      Has (mapping start stop entries) [entry.1.segment] entry.1.mark
  | inKey {start stop mark : Mark} {entries : List (Tree × Tree)} {entry : Tree × Tree}
      {path : List String} (hentry : entry ∈ entries) (hinside : Has entry.1 path mark) :
      Has (mapping start stop entries) (entry.1.segment :: path) mark
  | inValue {start stop mark : Mark} {entries : List (Tree × Tree)} {entry : Tree × Tree}
      {path : List String} (hentry : entry ∈ entries) (hinside : Has entry.2 path mark) :
      Has (mapping start stop entries) (entry.1.segment :: path) mark

theorem mem_keyMarks {path : List String} {tree : Tree} {place : List String × Mark} :
    place ∈ tree.keyMarks path ↔ tree.IsLeaf ∧ place = (path ++ [tree.segment], tree.mark) := by
  cases tree <;> simp [keyMarks, IsLeaf, segment, mark]

theorem itemMarks_eq (path : List String) (items : List Tree) :
    ∀ first : Nat, itemMarks path first items = (items.zipIdx first).flatMap fun (item, index) =>
      (path ++ [toString index], item.mark) :: item.marks (path ++ [toString index]) := by
  induction items with
  | nil => exact fun _ => rfl
  | cons item rest ih =>
    intro first
    rw [itemMarks, ih, List.zipIdx_cons, List.flatMap_cons]

theorem mem_itemMarks {path : List String} {items : List Tree} {place : List String × Mark} :
    place ∈ itemMarks path 0 items ↔ ∃ (index : Nat) (item : Tree), items[index]? = some item ∧
      (place = (path ++ [toString index], item.mark) ∨
        place ∈ item.marks (path ++ [toString index])) := by
  rw [itemMarks_eq, List.mem_flatMap]
  constructor
  · rintro ⟨⟨item, index⟩, hitem, hplace⟩
    exact ⟨index, item, List.mk_mem_zipIdx_iff_getElem?.mp hitem, List.mem_cons.mp hplace⟩
  · rintro ⟨index, item, hitem, hplace⟩
    exact ⟨(item, index), List.mk_mem_zipIdx_iff_getElem?.mpr hitem, List.mem_cons.mpr hplace⟩

theorem mem_entryMarks {path : List String} {entries : List (Tree × Tree)}
    {place : List String × Mark} :
    place ∈ entryMarks path entries ↔ ∃ entry ∈ entries, place ∈ entry.1.keyMarks path ∨
      place ∈ entry.1.marks (path ++ [entry.1.segment]) ∨
      place ∈ entry.2.marks (path ++ [entry.1.segment]) := by
  induction entries with
  | nil => simp [entryMarks]
  | cons entry rest ih => simp [entryMarks, ih, or_assoc]

theorem Has.mem_marks {tree : Tree} {path : List String} {mark : Mark} (h : tree.Has path mark) :
    ∀ before : List String, (before ++ path, mark) ∈ tree.marks before := by
  induction h with
  | item hitem => exact fun before => mem_itemMarks.mpr ⟨_, _, hitem, .inl rfl⟩
  | @inItem _ _ _ _ index _ path hitem _ ih =>
    intro before
    have hinside := ih (before ++ [toString index])
    rw [List.append_assoc] at hinside
    exact mem_itemMarks.mpr ⟨_, _, hitem, .inr hinside⟩
  | key hentry hleaf =>
    exact fun before => mem_entryMarks.mpr ⟨_, hentry, .inl (mem_keyMarks.mpr ⟨hleaf, rfl⟩)⟩
  | @inKey _ _ _ _ entry path hentry _ ih =>
    intro before
    have hinside := ih (before ++ [entry.1.segment])
    rw [List.append_assoc] at hinside
    exact mem_entryMarks.mpr ⟨_, hentry, .inr (.inl hinside)⟩
  | @inValue _ _ _ _ entry path hentry _ ih =>
    intro before
    have hinside := ih (before ++ [entry.1.segment])
    rw [List.append_assoc] at hinside
    exact mem_entryMarks.mpr ⟨_, hentry, .inr (.inr hinside)⟩

theorem has_of_mem_marks (tree : Tree) (before : List String) (place : List String × Mark)
    (h : place ∈ tree.marks before) : ∃ path, place.1 = before ++ path ∧ tree.Has path place.2 := by
  match tree with
  | scalar .. => cases h
  | reference _ => cases h
  | sequence start stop items =>
    obtain ⟨index, item, hitem, rfl | hplace⟩ := mem_itemMarks.mp h
    · exact ⟨_, rfl, .item hitem⟩
    · have hsize := List.sizeOf_lt_of_mem (List.mem_of_getElem? hitem)
      obtain ⟨path, hpath, hinside⟩ := has_of_mem_marks item _ place hplace
      exact ⟨_, by rw [hpath, List.append_assoc, List.singleton_append], .inItem hitem hinside⟩
  | mapping start stop entries =>
    obtain ⟨entry, hentry, hplace⟩ := mem_entryMarks.mp h
    have hsize := List.sizeOf_lt_of_mem hentry
    have hparts : sizeOf entry = 1 + sizeOf entry.1 + sizeOf entry.2 := rfl
    rcases hplace with hplace | hplace | hplace
    · obtain ⟨hleaf, rfl⟩ := mem_keyMarks.mp hplace
      exact ⟨_, rfl, .key hentry hleaf⟩
    · obtain ⟨path, hpath, hinside⟩ := has_of_mem_marks entry.1 _ place hplace
      exact ⟨_, by rw [hpath, List.append_assoc, List.singleton_append], .inKey hentry hinside⟩
    · obtain ⟨path, hpath, hinside⟩ := has_of_mem_marks entry.2 _ place hplace
      exact ⟨_, by rw [hpath, List.append_assoc, List.singleton_append], .inValue hentry hinside⟩
termination_by sizeOf tree

/-- The listing of a document holds what its tree has. -/
theorem mem_marks {tree : Tree} {path : List String} {mark : Mark} :
    (path, mark) ∈ tree.marks [] ↔ tree.Has path mark := by
  constructor
  · intro h
    obtain ⟨rest, rfl, hhas⟩ := has_of_mem_marks tree [] (path, mark) h
    exact hhas
  · exact fun h => h.mem_marks []

mutual

/-- The listing of a node goes through its events from first to last. -/
theorem marks_sublist (tree : Tree) : ∀ path : List String,
    (tree.mark :: (tree.marks path).map Prod.snd).Sublist (tree.events.map Prod.snd) := by
  intro path
  match tree with
  | .scalar .. | .reference _ => exact .refl _
  | .sequence start stop items =>
    rw [events, List.map_cons, List.map_append]
    exact ((itemMarks_sublist items path 0).trans (List.sublist_append_left ..)).cons_cons start
  | .mapping start stop entries =>
    rw [events, List.map_cons, List.map_append]
    exact ((entryMarks_sublist entries path).trans (List.sublist_append_left ..)).cons_cons start

theorem itemMarks_sublist (items : List Tree) : ∀ (path : List String) (index : Nat),
    ((itemMarks path index items).map Prod.snd).Sublist ((itemEvents items).map Prod.snd) := by
  intro path index
  match items with
  | [] => exact .refl _
  | item :: rest =>
    rw [itemMarks, itemEvents, List.map_append, List.map_append]
    exact (marks_sublist item _).append (itemMarks_sublist rest path (index + 1))

theorem entryMarks_sublist (entries : List (Tree × Tree)) : ∀ path : List String,
    ((entryMarks path entries).map Prod.snd).Sublist ((entryEvents entries).map Prod.snd) := by
  intro path
  match entries with
  | [] => exact .refl _
  | (key, value) :: rest =>
    have hown : ((key.keyMarks path).map Prod.snd).Sublist [key.mark] := by
      cases key <;> simp [keyMarks, mark]
    have hkey : ((key.keyMarks path ++ key.marks (path ++ [key.segment])).map Prod.snd).Sublist
        (key.events.map Prod.snd) := by
      rw [List.map_append]
      exact (hown.append (.refl _)).trans (marks_sublist key _)
    have hvalue := (List.sublist_cons_self _ _).trans (marks_sublist value (path ++ [key.segment]))
    rw [entryMarks, entryEvents]
    simp only [List.map_append] at hkey ⊢
    exact (hkey.append hvalue).append (entryMarks_sublist rest path)

end

end Tree

namespace SourceMap

/-- The kind of a document with this root. -/
def kindOf : Tree → RootKind
  | .scalar text _ => if isNullText text then .absent else .other
  | .reference _ | .sequence .. => .other
  | .mapping .. => .mapping

namespace Slot

/-- What a node in a slot adds to the paths inside it. -/
def segment (tree : Tree) : Slot → Option String
  | .root => none
  | .key => some tree.segment
  | .value text => some text
  | .item index => some (toString index)

/-- What is recorded for the node itself. -/
def own (path : List String) (tree : Tree) : Slot → List (List String × Mark)
  | .root | .value _ => []
  | .key => tree.keyMarks path
  | .item index => [(path ++ [toString index], tree.mark)]

/-- What is recorded for a node in a slot of the collection at a path, and for all inside it. -/
def marks (path : List String) (tree : Tree) (slot : Slot) : List (List String × Mark) :=
  slot.own path tree ++ tree.marks (path ++ (slot.segment tree).toList)

end Slot

/-- Marks recorded behind those recorded already. -/
def note (marks : List (List String × Mark)) (reversed : List (List String × Position)) :
    List (List String × Position) :=
  (marks.map fun (path, mark) => (path, Position.ofMark mark)).reverse ++ reversed

@[simp] theorem note_append (marks more : List (List String × Mark))
    (reversed : List (List String × Position)) :
    note (marks ++ more) reversed = note more (note marks reversed) := by
  simp [note]

namespace Collector

/-- Behind all events of a node. -/
def after (c : Collector) (tree : Tree) : Collector :=
  let (slot, stack) := takeSlot c.stack
  { c with
    stack := if slot = .key then setPending tree.segment stack else stack
    root := if slot = .root then kindOf tree else c.root
    reversed := note (slot.marks c.path tree) c.reversed }

/-- Inside a node that is a collection, before anything of it is read. -/
def within (c : Collector) (tree : Tree) (frame : Frame) : Collector :=
  let (slot, stack) := takeSlot c.stack
  { stack := ⟨frame, (slot.segment tree).isSome, slot = .key⟩ :: stack
    path := c.path ++ (slot.segment tree).toList
    root := if slot = .root then kindOf tree else c.root
    reversed := note (slot.own c.path tree) c.reversed }

section Steps

variable (c : Collector)

theorem step_scalar (text : String) (mark : Mark) :
    c.step (.scalar text, mark) = c.after (.scalar text mark) := by
  unfold step leaf after
  rcases takeSlot c.stack with ⟨slot, stack⟩
  cases slot <;> simp [record, note, kindOf, Slot.marks, Slot.own, Tree.marks, Tree.keyMarks,
    Tree.mark, Tree.segment]

theorem step_reference (mark : Mark) : c.step (.reference, mark) = c.after (.reference mark) := by
  unfold step leaf after
  rcases takeSlot c.stack with ⟨slot, stack⟩
  cases slot <;> simp [record, note, kindOf, Slot.marks, Slot.own, Tree.marks, Tree.keyMarks,
    Tree.mark, Tree.segment, aliasKey]

theorem step_sequenceStart (start stop : Mark) (items : List Tree) :
    c.step (.sequenceStart, start) = c.within (.sequence start stop items) (.sequence 0) := by
  unfold step enter within
  rcases takeSlot c.stack with ⟨slot, stack⟩
  cases slot <;> simp [record, note, kindOf, Slot.segment, Slot.own, Tree.keyMarks, Tree.mark,
    Tree.segment, complexKey]

theorem step_mappingStart (start stop : Mark) (entries : List (Tree × Tree)) :
    c.step (.mappingStart, start) = c.within (.mapping start stop entries) (.mapping none) := by
  unfold step enter within
  rcases takeSlot c.stack with ⟨slot, stack⟩
  cases slot <;> simp [record, note, kindOf, Slot.segment, Slot.own, Tree.keyMarks, Tree.mark,
    Tree.segment, complexKey]

/-- The end of a collection closes what its start has opened. -/
theorem leave_within {tree : Tree} (htree : ¬ tree.IsLeaf) (frame : Frame) :
    { c.within tree frame with
      reversed := note (tree.marks (c.within tree frame).path)
        (c.within tree frame).reversed }.leave = c.after tree := by
  have hsegment : tree.segment = complexKey := by
    cases tree <;> first | rfl | exact absurd trivial htree
  unfold within after
  rcases takeSlot c.stack with ⟨slot, stack⟩
  cases slot <;> simp [leave, Slot.marks, Slot.segment, hsegment]

end Steps

mutual

/-- The events of a node do to the open collections what the node is to them. -/
theorem foldl_events (tree : Tree) : ∀ c : Collector, tree.events.foldl step c = c.after tree := by
  intro c
  match tree with
  | .scalar text mark => exact step_scalar c text mark
  | .reference mark => exact step_reference c mark
  | .sequence start stop items =>
    rw [Tree.events, List.foldl_cons, List.foldl_append, step_sequenceStart c start stop items,
      foldl_itemEvents items _ 0 _ _ _ rfl]
    exact c.leave_within id _
  | .mapping start stop entries =>
    rw [Tree.events, List.foldl_cons, List.foldl_append, step_mappingStart c start stop entries,
      foldl_entryEvents entries _ _ _ _ rfl]
    exact c.leave_within id _

theorem foldl_itemEvents (items : List Tree) :
    ∀ (c : Collector) (index : Nat) (segment isKey : Bool) (outer : List OpenNode),
      c.stack = ⟨.sequence index, segment, isKey⟩ :: outer →
      (Tree.itemEvents items).foldl step c =
        { c with
          stack := ⟨.sequence (index + items.length), segment, isKey⟩ :: outer
          reversed := note (Tree.itemMarks c.path index items) c.reversed } := by
  rintro ⟨_, path, root, reversed⟩ index segment isKey outer rfl
  match items with
  | [] => rfl
  | item :: rest =>
    let c : Collector := ⟨⟨.sequence index, segment, isKey⟩ :: outer, path, root, reversed⟩
    have hitem : c.after item =
        { c with
          stack := ⟨.sequence (index + 1), segment, isKey⟩ :: outer
          reversed := note (Slot.marks c.path item (.item index)) c.reversed } := rfl
    rw [Tree.itemEvents, List.foldl_append, foldl_events item, hitem,
      foldl_itemEvents rest _ (index + 1) _ _ _ rfl, ← note_append, Nat.add_right_comm]
    rfl

theorem foldl_entryEvents (entries : List (Tree × Tree)) :
    ∀ (c : Collector) (segment isKey : Bool) (outer : List OpenNode),
      c.stack = ⟨.mapping none, segment, isKey⟩ :: outer →
      (Tree.entryEvents entries).foldl step c =
        { c with reversed := note (Tree.entryMarks c.path entries) c.reversed } := by
  rintro ⟨_, path, root, reversed⟩ segment isKey outer rfl
  match entries with
  | [] => rfl
  | (key, value) :: rest =>
    let c : Collector := ⟨⟨.mapping none, segment, isKey⟩ :: outer, path, root, reversed⟩
    -- The key leaves its segment for the value, which takes it off again.
    have hentry : (c.after key).after value =
        { c with
          reversed := note (Slot.marks c.path value (.value key.segment))
            (note (Slot.marks c.path key .key) c.reversed) } := rfl
    rw [Tree.entryEvents, List.foldl_append, List.foldl_append, foldl_events key,
      foldl_events value, hentry, foldl_entryEvents rest _ _ _ _ rfl, ← note_append,
      ← note_append, Tree.entryMarks]
    simp [c, Slot.marks, Slot.own, Slot.segment]

end

end Collector

/-- The events of a document: none if it has no root. -/
def eventsOf (root? : Option Tree) : List (Event × Mark) := (root?.map Tree.events).getD []

/-- What is recorded of a document, in document order. -/
def marksOf (root? : Option Tree) : List (List String × Mark) := (root?.map (·.marks [])).getD []

theorem foldl_eventsOf (root? : Option Tree) :
    (eventsOf root?).foldl Collector.step .empty =
      ⟨[], [], (root?.map kindOf).getD .absent, note (marksOf root?) []⟩ := by
  cases root? with
  | none => rfl
  | some root => exact Collector.foldl_events root .empty

/-- The map of marks in document order. -/
def ofMarks (marks : List (List String × Mark)) : SourceMap :=
  ⟨marks.map fun (path, mark) => (path, Position.ofMark mark)⟩

theorem ofEvents_eventsOf (root? : Option Tree) :
    ofEvents (eventsOf root?) = ((root?.map kindOf).getD .absent, ofMarks (marksOf root?)) := by
  unfold ofEvents
  rw [foldl_eventsOf]
  simp [note, ofMarks]

theorem mem_marksOf {root? : Option Tree} {path : List String} {mark : Mark} :
    (path, mark) ∈ marksOf root? ↔ ∃ root, root? = some root ∧ root.Has path mark := by
  cases root? <;> simp [marksOf, Tree.mem_marks]

theorem marksOf_sublist (root? : Option Tree) :
    ((marksOf root?).map Prod.snd).Sublist ((eventsOf root?).map Prod.snd) := by
  cases root? with
  | none => exact .refl _
  | some root => exact (List.sublist_cons_self _ _).trans (root.marks_sublist [])

/-- The first mark of a path counts. -/
theorem get?_ofMarks_eq_some {marks : List (List String × Mark)} {path : List String}
    {position : Position} :
    (ofMarks marks).get? path = some position ↔
      ∃ earlier mark later, marks = earlier ++ (path, mark) :: later ∧
        (∀ other ∈ earlier, other.1 ≠ path) ∧ position = ⟨mark.line, mark.column + 1⟩ := by
  unfold get? ofMarks
  rw [List.lookup_eq_some_iff]
  constructor
  · rintro ⟨before, behind, hsplit, hbefore⟩
    obtain ⟨earlier, rest, rfl, rfl, hrest⟩ := List.map_eq_append_iff.mp hsplit
    obtain ⟨⟨_, mark⟩, later, rfl, hplace, rfl⟩ := List.map_eq_cons_iff.mp hrest
    obtain ⟨rfl, rfl⟩ := Prod.mk.inj hplace
    refine ⟨earlier, mark, later, rfl, fun other hother => ?_, rfl⟩
    have hne := hbefore _ (List.mem_map_of_mem hother)
    exact fun h => (bne_iff_ne.mp hne) h.symm
  · rintro ⟨earlier, mark, later, rfl, hearlier, rfl⟩
    refine ⟨_, _, List.map_append, fun place hplace => ?_⟩
    obtain ⟨other, hother, rfl⟩ := List.mem_map.mp hplace
    exact bne_iff_ne.mpr (hearlier other hother).symm

theorem exists_get?_ofMarks {marks : List (List String × Mark)} {path : List String} :
    (∃ position, (ofMarks marks).get? path = some position) ↔ ∃ mark, (path, mark) ∈ marks := by
  rw [← Option.isSome_iff_exists]
  unfold get? ofMarks
  rw [List.lookup_isSome_iff]
  constructor
  · rintro ⟨_, hplace, hpath⟩
    obtain ⟨⟨other, mark⟩, hmark, rfl⟩ := List.mem_map.mp hplace
    have hother : path = other := eq_of_beq hpath
    exact ⟨mark, hother ▸ hmark⟩
  · exact fun ⟨_, hplace⟩ => ⟨_, List.mem_map_of_mem hplace, beq_self_eq_true path⟩

theorem kindOf_eq_mapping {tree : Tree} :
    kindOf tree = .mapping ↔ ∃ start stop entries, tree = .mapping start stop entries := by
  cases tree with
  | scalar text mark => by_cases h : isNullText text <;> simp [kindOf, h]
  | reference | sequence | mapping => simp [kindOf]

theorem kindOf_eq_absent {tree : Tree} : kindOf tree = .absent ↔
    ∃ text mark, tree = .scalar text mark ∧ text ∈ ["", "~", "null", "Null", "NULL"] := by
  cases tree with
  | scalar text mark =>
    have hkind : kindOf (.scalar text mark) = .absent ↔ isNullText text := by
      by_cases h : isNullText text <;> simp [kindOf, h]
    rw [hkind]
    simp [isNullText, or_assoc]
  | reference | sequence | mapping => simp [kindOf]

theorem processOrder_ofMarks (marks : List (List String × Mark)) :
    (ofMarks marks).processOrder = marks.filterMap fun
      | (["processes", name], _) => some name
      | _ => none := by
  unfold processOrder ofMarks
  rw [List.filterMap_map]
  congr 1
  funext ⟨path, mark⟩
  dsimp only [Function.comp]
  split <;> split <;> simp_all

/-- The kind and the map of a document with this root. -/
structure IsMapped (root? : Option Tree) (kind : RootKind) (map : SourceMap) : Prop where
  mapping : kind = .mapping ↔ ∃ start stop entries, root? = some (.mapping start stop entries)
  absent : kind = .absent ↔ root? = none ∨ ∃ text mark,
    root? = some (.scalar text mark) ∧ text ∈ ["", "~", "null", "Null", "NULL"]
  present : ∀ path, (∃ position, map.get? path = some position) ↔
    ∃ root mark, root? = some root ∧ root.Has path mark
  listed : ∀ path mark, (path, mark) ∈ marksOf root? ↔
    ∃ root, root? = some root ∧ root.Has path mark
  /-- The listing keeps to the order of the events. -/
  ordered : ((marksOf root?).map Prod.snd).Sublist ((eventsOf root?).map Prod.snd)
  /-- Of the places with one path, the first one in the listing counts. -/
  first : ∀ path position, map.get? path = some position ↔
    ∃ earlier mark later, marksOf root? = earlier ++ (path, mark) :: later ∧
      (∀ other ∈ earlier, other.1 ≠ path) ∧ position = ⟨mark.line, mark.column + 1⟩
  processOrder : map.processOrder = (marksOf root?).filterMap fun
    | (["processes", name], _) => some name
    | _ => none

/-- Reading the events of any document closes all that it opens and maps the tree. -/
theorem ofEvents_isMapped (root? : Option Tree) :
    ((eventsOf root?).foldl Collector.step .empty).stack = [] ∧
      ((eventsOf root?).foldl Collector.step .empty).path = [] ∧
      IsMapped root? (ofEvents (eventsOf root?)).1 (ofEvents (eventsOf root?)).2 := by
  rw [foldl_eventsOf, ofEvents_eventsOf]
  refine ⟨rfl, rfl, ?_⟩
  exact {
    mapping := by cases root? <;> simp [kindOf_eq_mapping]
    absent := by cases root? <;> simp [kindOf_eq_absent]
    present := fun path =>
      exists_get?_ofMarks.trans ((exists_congr fun _ => mem_marksOf).trans exists_comm)
    listed := fun _ _ => mem_marksOf
    ordered := marksOf_sublist root?
    first := fun _ _ => get?_ofMarks_eq_some
    processOrder := processOrder_ofMarks _ }

/-- What is inside a key and what is inside its value share a path: the key comes first. -/
example :
    let inside (line : Nat) := Tree.mapping ⟨0, line, 2⟩ ⟨0, line, 9⟩
      [(.scalar "port" ⟨0, line, 2⟩, .scalar "1" ⟨0, line, 8⟩)]
    let root := Tree.mapping ⟨0, 1, 0⟩ ⟨0, 3, 0⟩ [(inside 1, inside 2)]
    (ofEvents (eventsOf (some root))).2.get? [complexKey, "port"] = some ⟨1, 3⟩ := by
  decide

end SourceMap

end ProcessLint
