import ProcessLint.Document.Decode
import ProcessLint.Proofs.Document.Positions
import ProcessLint.Proofs.Yaml.Decoding

/-!
Where the outline and the content report the same events, decoding goes from node to node of the
tree that the outline spells. What is decoded for a node that is written in place is told by that
node; an alias may stand for anything.
-/
namespace ProcessLint

open Yaml

namespace Yaml

/-- Whether both readers tell of the same token. What is not written at all is a tilde to the one
and an empty plain scalar to the other. -/
def Outline.Event.agrees : Outline.Event → Content.Event → Bool
  | .scalar text, .scalar isPlain tag other =>
      text == other || (text == Outline.Read.absentText && other == "" && isPlain && tag.isNone)
  | .reference, .reference _ | .sequenceStart, .sequenceStart _ | .sequenceEnd, .sequenceEnd
  | .mappingStart, .mappingStart _ | .mappingEnd, .mappingEnd => true
  | _, _ => false

/-- Event for event, whatever the marks. -/
abbrev Agree (outline : List (Outline.Event × Mark)) (content : List (Content.Event × Mark)) :
    Prop :=
  List.Forall₂ (fun o c => o.1.agrees c.1 = true) outline content

end Yaml

open Content Content.Decode

namespace Tree

/-- What the scalar of a node may be read as, if that is a string; a collection is none. -/
def Spells : Tree → Value → Prop
  | scalar text _, v => ∀ s, v = .string s → s = text
  | reference _, _ => True
  | sequence .., v | mapping .., v => ∀ s, v ≠ .string s

theorem spells_of_ne_string {tree : Tree} {v : Value} (h : ∀ s, v ≠ .string s) :
    tree.Spells v := by
  cases tree with
  | scalar text mark => exact fun s hs => absurd hs (h s)
  | reference mark => trivial
  | sequence | mapping => exact h

end Tree

section Scalars

namespace Yaml.Scalar

theorem integerOf?_ne_string (text : List Char) (s : String) :
    integerOf? text ≠ some (.string s) := by
  unfold integerOf?
  generalize unsigned? (Nat.pow 2 64 - 1) text = small
  generalize negated? (Nat.pow 2 63) text = smallNegative
  generalize unsigned? (Nat.pow 2 128 - 1) text = wide
  generalize negated? (Nat.pow 2 127) text = wideNegative
  cases small <;> cases smallNegative <;> cases wide <;> cases wideNegative <;> simp

/-- A scalar that is a string has the text that is written. -/
theorem ofPlain_eq_string {text s : String} (h : ofPlain text = .string s) : s = text := by
  unfold ofPlain at h
  dsimp only at h
  split at h
  · cases h
  · split at h
    · cases h
    · split at h
      · rename_i n hn
        exact absurd (h ▸ hn) (integerOf?_ne_string _ _)
      · split at h <;> cases h
        rfl

theorem ofParts_eq_string {isPlain : Bool} {tag : Option String} {text s : String}
    (h : ofParts isPlain tag text = .ok (.string s)) : s = text := by
  unfold ofParts at h
  dsimp only at h
  split at h
  · cases isPlain with
    | true => exact ofPlain_eq_string (Except.ok.inj h)
    | false =>
      cases h
      rfl
  · split at h
    · split at h <;> cases h
    · split at h
      · split at h <;> cases h
        rename_i hn
        exact absurd hn (integerOf?_ne_string _ _)
      · split at h
        · split at h <;> cases h
        · split at h
          · split at h <;> cases h
          · split at h
            · exact ofPlain_eq_string (Except.ok.inj h)
            · cases h
              rfl

theorem value?_eq_string {scalar : Scalar} {s : String} (h : scalar.value? = some (.string s)) :
    scalar = .string s := by
  cases scalar <;> cases h
  rfl

end Yaml.Scalar

/-- What is not written is no string, though both readers have a text for it. -/
theorem spells_of_agrees {text other : String} {mark : Mark} {isPlain : Bool}
    {tag : Option String} {scalar : Scalar} {v : Value} (tagged : Bool)
    (h : Outline.Event.agrees (.scalar text) (.scalar isPlain tag other) = true)
    (hscalar : Scalar.ofParts isPlain (if tagged then none else tag) other = .ok scalar)
    (hv : scalar.value? = some v) : (Tree.scalar text mark).Spells v := by
  rintro s rfl
  rw [Scalar.value?_eq_string hv] at hscalar
  have hother := Scalar.ofParts_eq_string hscalar
  simp only [Outline.Event.agrees, Bool.or_eq_true, beq_iff_eq, Bool.and_eq_true,
    Option.isNone_iff_eq_none] at h
  rcases h with rfl | ⟨⟨⟨-, rfl⟩, rfl⟩, rfl⟩
  · exact hother
  · rw [ite_self] at hscalar
    cases hscalar

end Scalars

namespace Tree

/-- The content has the same node, whatever its marks. -/
inductive Matches : Tree → Node → Prop
  | scalar {text other : String} {mark : Mark} {isPlain : Bool} {tag : Option String}
      (agrees : (Outline.Event.scalar text).agrees (.scalar isPlain tag other) = true) :
      Matches (.scalar text mark) (.scalar isPlain tag other)
  | reference {mark : Mark} {number : Nat} : Matches (.reference mark) (.reference number)
  | sequence {start stop : Mark} {tag : Option String} {items : List Tree} {nodes : List Node}
      (inside : List.Forall₂ Matches items nodes) :
      Matches (.sequence start stop items) (.sequence tag nodes)
  | mapping {start stop : Mark} {tag : Option String} {entries : List (Tree × Tree)}
      {nodes : List (Node × Node)}
      (keys : List.Forall₂ (fun entry node => Matches entry.1 node.1) entries nodes)
      (values : List.Forall₂ (fun entry node => Matches entry.2 node.2) entries nodes) :
      Matches (.mapping start stop entries) (.mapping tag nodes)

mutual

theorem exists_node : ∀ (tree : Tree) {later : List (Outline.Event × Mark)}
    {content : List (Event × Mark)}, Agree (tree.events ++ later) content →
    ∃ (node : Node) (front rest : List (Event × Mark)), content = front ++ rest ∧
      front.map Prod.fst = node.events ∧ Matches tree node ∧ Agree later rest
  | .scalar text mark, later, (event, _) :: rest, .cons hevent hrest => by
    cases event with
    | scalar => exact ⟨_, [_], rest, rfl, rfl, .scalar hevent, hrest⟩
    | _ => cases hevent
  | .reference mark, later, (event, _) :: rest, .cons hevent hrest => by
    cases event with
    | reference => exact ⟨.reference _, [_], rest, rfl, rfl, .reference, hrest⟩
    | _ => cases hevent
  | .sequence start stop items, later, (event, opening) :: content, .cons hevent hinner => by
    rw [List.append_eq, List.append_assoc] at hinner
    obtain ⟨nodes, front, behind, rfl, hfront, hitems, hbehind⟩ := exists_items items hinner
    match behind, hbehind with
    | (last, closing) :: rest, .cons hlast hrest =>
      cases event with
      | sequenceStart tag =>
        cases last with
        | sequenceEnd =>
          exact ⟨.sequence tag nodes,
            (.sequenceStart tag, opening) :: (front ++ [(.sequenceEnd, closing)]), rest, by simp,
            by simp [hfront, Node.events], .sequence hitems, hrest⟩
        | _ => cases hlast
      | _ => cases hevent
  | .mapping start stop entries, later, (event, opening) :: content, .cons hevent hinner => by
    rw [List.append_eq, List.append_assoc] at hinner
    obtain ⟨nodes, front, behind, rfl, hfront, hkeys, hvalues, hbehind⟩ :=
      exists_entries entries hinner
    match behind, hbehind with
    | (last, closing) :: rest, .cons hlast hrest =>
      cases event with
      | mappingStart tag =>
        cases last with
        | mappingEnd =>
          exact ⟨.mapping tag nodes,
            (.mappingStart tag, opening) :: (front ++ [(.mappingEnd, closing)]), rest, by simp,
            by simp [hfront, Node.events], .mapping hkeys hvalues, hrest⟩
        | _ => cases hlast
      | _ => cases hevent

theorem exists_items : ∀ (items : List Tree) {later : List (Outline.Event × Mark)}
    {content : List (Event × Mark)}, Agree (itemEvents items ++ later) content →
    ∃ (nodes : List Node) (front rest : List (Event × Mark)), content = front ++ rest ∧
      front.map Prod.fst = Node.itemEvents nodes ∧ List.Forall₂ Matches items nodes ∧
      Agree later rest
  | [], later, content, h => ⟨[], [], content, rfl, rfl, .nil, h⟩
  | item :: items, later, content, h => by
    rw [itemEvents, List.append_assoc] at h
    obtain ⟨node, front, mid, rfl, hfront, hitem, hmid⟩ := exists_node item h
    obtain ⟨nodes, fronts, rest, rfl, hfronts, hitems, hrest⟩ := exists_items items hmid
    refine ⟨node :: nodes, front ++ fronts, rest, (List.append_assoc ..).symm, ?_,
      .cons hitem hitems, hrest⟩
    rw [List.map_append, hfront, hfronts, Node.itemEvents]

theorem exists_entries : ∀ (entries : List (Tree × Tree)) {later : List (Outline.Event × Mark)}
    {content : List (Event × Mark)}, Agree (entryEvents entries ++ later) content →
    ∃ (nodes : List (Node × Node)) (front rest : List (Event × Mark)), content = front ++ rest ∧
      front.map Prod.fst = Node.entryEvents nodes ∧
      List.Forall₂ (fun entry node => Matches entry.1 node.1) entries nodes ∧
      List.Forall₂ (fun entry node => Matches entry.2 node.2) entries nodes ∧ Agree later rest
  | [], later, content, h => ⟨[], [], content, rfl, rfl, .nil, .nil, h⟩
  | (key, value) :: entries, later, content, h => by
    rw [entryEvents, List.append_assoc, List.append_assoc] at h
    obtain ⟨k, front, mid, rfl, hfront, hkey, hmid⟩ := exists_node key h
    obtain ⟨v, middle, mid', rfl, hmiddle, hvalue, hmid'⟩ := exists_node value hmid
    obtain ⟨nodes, fronts, rest, rfl, hfronts, hkeys, hvalues, hrest⟩ := exists_entries entries hmid'
    refine ⟨(k, v) :: nodes, front ++ (middle ++ fronts), rest, by simp, ?_, .cons hkey hkeys,
      .cons hvalue hvalues, hrest⟩
    rw [List.map_append, List.map_append, hfront, hmiddle, hfronts, Node.entryEvents]

end

theorem exists_node_of_agree {tree : Tree} {content : List (Event × Mark)}
    (h : Agree tree.events content) :
    ∃ node, content.map Prod.fst = node.events ∧ tree.Matches node := by
  rw [← List.append_nil tree.events] at h
  obtain ⟨node, front, rest, rfl, hfront, hmatches, hrest⟩ := exists_node tree h
  cases hrest
  exact ⟨node, by rw [List.append_nil, hfront], hmatches⟩

/-- A node that is written in place tells what it is read as, if that is a string. -/
theorem Matches.spells {tree : Tree} {node : Node} {v : Value} (h : tree.Matches node)
    (hv : node.Denotes v) : tree.Spells v := by
  unfold Node.Denotes Node.Under at hv
  split at hv
  · cases h with
    | scalar hagrees =>
      obtain ⟨scalar, hscalar, hv⟩ := hv
      exact spells_of_agrees false hagrees hscalar hv
    | reference => trivial
    | sequence =>
      obtain ⟨values, rfl, -⟩ := hv
      exact spells_of_ne_string (by simp)
    | mapping =>
      obtain ⟨pairs, rfl, -⟩ := hv
      exact spells_of_ne_string (by simp)
  · obtain ⟨content, rfl, -⟩ := hv
    exact spells_of_ne_string (by simp)

end Tree

end ProcessLint
