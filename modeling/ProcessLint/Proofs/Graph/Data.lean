import ProcessLint.Graph.Format
import ProcessLint.Proofs.Data.Json

/-!
A graph as data loses nothing. A field is left out only where it has no value, and its key tells
which one it is, so the occurrence and the nodes below it can be read off a record. As JSON can be
read in one way only, different graphs are shown differently.
-/
namespace ProcessLint

/-- The fields that have a value. -/
def Data.present (slots : List (String × Option Data)) : List (String × Data) :=
  slots.flatMap fun slot => (slot.2.map fun value => (slot.1, value)).toList

theorem Data.key_mem_of_mem_present {slots : List (String × Option Data)} {field : String × Data}
    (h : field ∈ present slots) : field.1 ∈ slots.map Prod.fst := by
  obtain ⟨slot, hslot, hfield⟩ := List.mem_flatMap.mp h
  obtain ⟨value, -, rfl⟩ := Option.map_eq_some_iff.mp (Option.mem_toList.mp hfield)
  exact List.mem_map_of_mem hslot

/-- With a key at most once, a value that is left out cannot be taken for a later one. -/
theorem Data.present_inj {slots others : List (String × Option Data)}
    (hkeys : slots.map Prod.fst = others.map Prod.fst) (hnodup : (slots.map Prod.fst).Nodup)
    (h : present slots = present others) : slots = others := by
  induction slots generalizing others with
  | nil => exact (List.map_eq_nil_iff.mp hkeys.symm).symm
  | cons slot slots ih =>
    obtain ⟨key, value⟩ := slot
    obtain ⟨⟨key', value'⟩, others, rfl, hkey, hrest⟩ := List.map_eq_cons_iff.mp hkeys.symm
    obtain rfl : key' = key := hkey
    obtain ⟨hnot, hnext⟩ := List.nodup_cons.mp hnodup
    cases value with
    | none =>
      cases value' with
      | none => rw [ih hrest.symm hnext h]
      | some b =>
        have hmem : (key', b) ∈ present slots := h ▸ List.mem_cons_self ..
        exact absurd (key_mem_of_mem_present hmem) hnot
    | some a =>
      cases value' with
      | none =>
        have hmem : (key', a) ∈ present others := h ▸ List.mem_cons_self ..
        exact absurd (hrest ▸ key_mem_of_mem_present hmem) hnot
      | some b =>
        obtain ⟨hvalue, hfields⟩ := List.cons.inj h
        rw [(Prod.mk.inj hvalue).2, ih hrest.symm hnext hfields]

namespace GraphNode

/-- A mark as a value: it is not written if it is not set. -/
def markData (mark : Bool) : Option Data := if mark then some (.flag true) else none

/-- The nodes below as a value, if there are any. -/
def belowData (dependsOn : List GraphNode) : Option Data :=
  if dependsOn.isEmpty then none else some (.list (dataList dependsOn))

/-- The fields of a node, each with its value if it is written. -/
def slots (o : Occurrence) (dependsOn : List GraphNode) : List (String × Option Data) :=
  [("name", some (.text o.name)),
    ("condition", o.condition.map .text),
    ("status", o.status.map .text),
    ("missing", markData o.missing),
    ("cycle", markData o.cycle),
    ("shared", markData o.shared),
    ("depends_on", belowData dependsOn)]

theorem data_eq_record (o : Occurrence) (dependsOn : List GraphNode) :
    (node o dependsOn).data = .record (Data.present (slots o dependsOn)) := by
  have hmark (key : String) (mark : Bool) : (if mark then [(key, Data.flag true)] else []) =
      ((markData mark).map fun value => (key, value)).toList := by
    cases mark <;> rfl
  have hbelow : (if dependsOn.isEmpty then [] else [("depends_on", .list (dataList dependsOn))]) =
      ((belowData dependsOn).map fun value => ("depends_on", value)).toList := by
    cases dependsOn <;> rfl
  rw [data, hmark, hmark, hmark, hbelow]
  simp [Data.present, slots, Option.map_map, Function.comp_def]

theorem nodup_keys (o : Occurrence) (dependsOn : List GraphNode) :
    ((slots o dependsOn).map Prod.fst).Nodup := by
  simp [slots]

theorem markData_inj {a b : Bool} (h : markData a = markData b) : a = b := by
  cases a with
  | false =>
    cases b with
    | false => rfl
    | true => cases h
  | true =>
    cases b with
    | false => cases h
    | true => rfl

theorem dataList_eq_of_belowData_eq {nodes others : List GraphNode}
    (h : belowData nodes = belowData others) : dataList nodes = dataList others := by
  cases nodes with
  | nil =>
    cases others with
    | nil => rfl
    | cons => cases h
  | cons =>
    cases others with
    | nil => cases h
    | cons => exact Data.list.inj (Option.some.inj h)

mutual

theorem data_inj : ∀ {node other : GraphNode}, node.data = other.data → node = other
  | .node o dependsOn, .node o' dependsOn', h => by
    rw [data_eq_record, data_eq_record] at h
    have hslots : slots o dependsOn = slots o' dependsOn' :=
      Data.present_inj rfl (nodup_keys o dependsOn) (Data.record.inj h)
    simp only [slots, List.cons.injEq, Prod.mk.injEq, true_and, and_true, Option.some.injEq,
      Data.text.injEq] at hslots
    obtain ⟨hname, hcondition, hstatus, hmissing, hcycle, hshared, hbelow⟩ := hslots
    have htext : Function.Injective (Option.map Data.text) :=
      Option.map_injective fun _ _ => Data.text.inj
    have hoccurrence : o = o' := by
      cases o
      cases o'
      rw [Occurrence.mk.injEq]
      exact ⟨hname, htext hcondition, htext hstatus, markData_inj hmissing, markData_inj hcycle,
        markData_inj hshared⟩
    rw [hoccurrence, dataList_inj (dataList_eq_of_belowData_eq hbelow)]

theorem dataList_inj : ∀ {nodes others : List GraphNode},
    dataList nodes = dataList others → nodes = others
  | [], [], _ => rfl
  | child :: rest, child' :: rest', h => by
    obtain ⟨hchild, hrest⟩ := List.cons.inj h
    rw [data_inj hchild, dataList_inj hrest]

end

end GraphNode

namespace Graph

theorem data_injective : Function.Injective data := by
  rintro ⟨roots⟩ ⟨others⟩ h
  have hlist := (Prod.mk.inj (List.cons.inj (Data.record.inj h)).1).2
  have hroots : roots = others := GraphNode.dataList_inj (Data.list.inj hlist)
  rw [hroots]

/-- Graphs that are shown alike in JSON are the same graph. -/
theorem render_json_eq_iff (graph other : Graph) :
    graph.render .json = other.render .json ↔ graph = other := by
  constructor
  · intro h
    have hjson : graph.data.json = other.data.json := (String.append_left_inj "\n").mp h
    exact data_injective (Data.json_injective hjson)
  · rintro rfl
    rfl

/-- An empty condition is written, a status that is absent is not. -/
example : Graph.render ⟨[.node ⟨"a", some "", none, false, true, false⟩ []]⟩ .json =
    "\x7b\n  \"roots\": [\n    \x7b\n      \"name\": \"a\",\n      \"condition\": \"\",\n" ++
      "      \"cycle\": true\n    \x7d\n  ]\n\x7d\n" := by
  rfl

end Graph

end ProcessLint
