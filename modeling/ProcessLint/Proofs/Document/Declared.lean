import ProcessLint.Proofs.Document.Fields
import ProcessLint.Proofs.Yaml.Agreement

/-!
What is read of the processes, by the tree of a document. A key `processes` that is written in
place is the only one, and its value tells the keys of the processes, unless that is an alias. The
other keys are passed over, but one that is an alias may be the key of the processes too.
-/
namespace ProcessLint

open Yaml Content

namespace Tree

/-- The values of the keys that are written as a text. -/
def valuesOf (text : String) (entries : List (Tree × Tree)) : List Tree :=
  entries.filterMap fun
    | (scalar key _, value) => if key = text then some value else none
    | _ => none

/-- What the entries read for a node may be. Of a scalar there are none. -/
def Holds : Tree → List (Value × Value) → Prop
  | mapping _ _ entries, pairs =>
      List.Forall₂ (fun entry pair => entry.1.Spells pair.1) entries pairs
  | scalar .., pairs => pairs = []
  | reference _, _ => True
  | sequence .., _ => False

theorem valuesOf_cons_self (text : String) (mark : Mark) (value : Tree)
    (entries : List (Tree × Tree)) :
    valuesOf text ((scalar text mark, value) :: entries) = value :: valuesOf text entries := by
  simp [valuesOf]

theorem valuesOf_cons_of_ne {text : String} {key : Tree} (h : ∀ mark, key ≠ scalar text mark)
    (value : Tree) (entries : List (Tree × Tree)) :
    valuesOf text ((key, value) :: entries) = valuesOf text entries := by
  cases key with
  | scalar name mark =>
    have hname : name ≠ text := fun hname => h mark (by rw [hname])
    simp [valuesOf, hname]
  | reference | sequence | mapping => simp [valuesOf]

variable {tree : Tree} {node : Node} {entries : List (Tree × Tree)} {nodes : List (Node × Node)}

/-- Both readers see the same keys with a text, if that is one which is written. -/
theorem Matches.isNamed_iff {text : String} (habsent : text ≠ Outline.Read.absentText)
    (hempty : text ≠ "") (h : tree.Matches node) :
    node.isNamed [text] = true ↔ ∃ mark, tree = .scalar text mark := by
  cases h with
  | @scalar own other mark isPlain tag hagrees =>
    simp only [Outline.Event.agrees, Bool.or_eq_true, beq_iff_eq, Bool.and_eq_true] at hagrees
    simp only [Node.isNamed, List.contains_iff_mem, List.mem_singleton, scalar.injEq]
    rcases hagrees with rfl | ⟨⟨⟨rfl, rfl⟩, -⟩, -⟩
    · simp
    · simp [habsent.symm, hempty.symm]
  | reference | sequence | mapping => simp [Node.isNamed]

theorem forall₂_valuesOf {text : String} (habsent : text ≠ Outline.Read.absentText)
    (hempty : text ≠ "")
    (hkeys : List.Forall₂ (fun entry node => entry.1.Matches node.1) entries nodes)
    (hvalues : List.Forall₂ (fun entry node => entry.2.Matches node.2) entries nodes) :
    List.Forall₂ Matches (valuesOf text entries) (RawDocument.valuesOf [text] nodes) := by
  induction hkeys with
  | nil => exact .nil
  | @cons entry node entries nodes hkey _ ih =>
    obtain ⟨key, value⟩ := entry
    obtain ⟨k, v⟩ := node
    obtain ⟨hvalue, hrest⟩ := List.forall₂_cons.mp hvalues
    have hnamed := hkey.isNamed_iff habsent hempty
    cases hk : k.isNamed [text] with
    | true =>
      obtain ⟨mark, hmark⟩ := hnamed.mp hk
      dsimp only at hmark
      rw [hmark, valuesOf_cons_self, RawDocument.valuesOf_cons_of_isNamed hk]
      exact .cons hvalue (ih hrest)
    | false =>
      have hne : ∀ mark, key ≠ .scalar text mark := by
        intro mark hmark
        rw [hnamed.mpr ⟨mark, hmark⟩] at hk
        cases hk
      rw [valuesOf_cons_of_ne hne, RawDocument.valuesOf_cons_of_not hk]
      exact ih hrest

theorem forall₂_spells {pairs : List (Value × Value)}
    (hkeys : List.Forall₂ (fun entry node => entry.1.Matches node.1) entries nodes)
    (hpairs : Node.EntriesGive nodes pairs) :
    List.Forall₂ (fun entry pair => entry.1.Spells pair.1) entries pairs := by
  induction hkeys generalizing pairs with
  | nil =>
    cases hpairs
    exact .nil
  | cons hkey _ ih =>
    obtain ⟨k, v, rest, rfl, hk, -, hrest⟩ := hpairs
    exact .cons (hkey.spells hk) (ih hrest)

theorem Matches.holds {pairs : List (Value × Value)} (h : tree.Matches node)
    (hpairs : node.Takes pairs) : tree.Holds pairs := by
  obtain ⟨pairs?, hoptional, rfl⟩ := hpairs
  cases h with
  | scalar =>
    cases hoptional with
    | absent => rfl
    | present _ hpairs => exact hpairs
  | reference => trivial
  | sequence =>
    cases hoptional with
    | absent habsent => cases habsent
    | present _ hpairs => exact hpairs
  | mapping hkeys =>
    cases hoptional with
    | absent habsent => cases habsent
    | present _ hpairs => exact forall₂_spells hkeys hpairs

end Tree

namespace RawDocument

/-- What a tree tells of the processes that are read. -/
theorem processes_of_agree {text : List Char} {raw : RawDocument} {start stop : Mark}
    {entries : List (Tree × Tree)} (h : ofText text = .ok raw)
    (hagree : Agree (Tree.mapping start stop entries).events (Stream.ofText text).events) :
    Tree.valuesOf "processes" entries = [] ∨ ∃ tree pairs,
      Tree.valuesOf "processes" entries = [tree] ∧ raw.processes = some pairs ∧
        tree.Holds pairs := by
  obtain ⟨root, hroot, hmatches⟩ := Tree.exists_node_of_agree hagree
  cases hmatches with
  | mapping hkeys hvalues =>
    have habsent : "processes" ≠ Outline.Read.absentText := by decide
    have htrees := Tree.forall₂_valuesOf habsent (by decide) hkeys hvalues
    rcases (ofText_declares h hroot).processes.value with hnone | ⟨node, pairs, hone, hread, htakes⟩
    · rw [hnone] at htrees
      exact .inl (List.forall₂_nil_right_iff.mp htrees)
    · rw [hone] at htrees
      obtain ⟨tree, rest, hmatches, hrest, hvaluesOf⟩ := List.forall₂_cons_right_iff.mp htrees
      rw [List.forall₂_nil_right_iff] at hrest
      subst hrest
      exact .inr ⟨tree, pairs, hvaluesOf, hread, hmatches.holds htakes⟩

end RawDocument

end ProcessLint
