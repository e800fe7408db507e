import ProcessLint.Yaml.Content.Values

/-!
The nodes of a document as its content is reported, and what they may be read as. An alias may
stand for anything; a node without aliases stands for one value only.
-/
namespace ProcessLint.Yaml.Content

/-- A node of a document as its content is reported. -/
inductive Node where
  | scalar (isPlain : Bool) (tag : Option String) (text : String)
  /-- An alias. -/
  | reference (number : Nat)
  | sequence (tag : Option String) (items : List Node)
  | mapping (tag : Option String) (entries : List (Node × Node))

namespace Node

mutual

/-- The events that spell a node. -/
def events : Node → List Event
  | scalar isPlain tag text => [.scalar isPlain tag text]
  | reference number => [.reference number]
  | sequence tag items => .sequenceStart tag :: (itemEvents items ++ [.sequenceEnd])
  | mapping tag entries => .mappingStart tag :: (entryEvents entries ++ [.mappingEnd])

def itemEvents : List Node → List Event
  | [] => []
  | item :: rest => item.events ++ itemEvents rest

def entryEvents : List (Node × Node) → List Event
  | [] => []
  | (key, value) :: rest => key.events ++ (value.events ++ entryEvents rest)

end

/-- The first event of a node. -/
def start : Node → Event
  | scalar isPlain tag text => .scalar isPlain tag text
  | reference number => .reference number
  | sequence tag _ => .sequenceStart tag
  | mapping tag _ => .mappingStart tag

/-- The events of a node behind the first. -/
def inner : Node → List Event
  | scalar .. | reference _ => []
  | sequence _ items => itemEvents items ++ [.sequenceEnd]
  | mapping _ entries => entryEvents entries ++ [.mappingEnd]

theorem events_eq (node : Node) : node.events = node.start :: node.inner := by
  cases node <;> rfl

/-- No event of a node ends the collection that the node is in. -/
theorem start_continues (node : Node) :
    node.start ≠ .sequenceEnd ∧ node.start ≠ .mappingEnd ∧ node.start ≠ .absent := by
  cases node <;> simp [start]

def tag? : Node → Option String
  | scalar _ tag _ | sequence tag _ | mapping tag _ => tag
  | reference _ => none

section Meaning

/-- The name that is kept of a tag of the document's own. -/
def tagName (tag : String) : String :=
  if tag = "!" then tag else (Scalar.localTag? tag).getD tag

/-- A tag of the document's own stands around the value of what is behind it. -/
def Under (tag : Option String) (gives : Bool → Value → Prop) (v : Value) : Prop :=
  match Decode.localTag? tag with
  | none => gives false v
  | some tag => ∃ content, v = .tagged (tagName tag) content ∧ gives true content

mutual

/-- What a node may be read as once its tag has been, if it has one of the document's own. -/
def Gives : Node → Bool → Value → Prop
  | scalar isPlain tag text, tagged, v => ∃ scalar,
      Scalar.ofParts isPlain (if tagged then none else tag) text = .ok scalar ∧
        scalar.value? = some v
  | reference _, _, _ => True
  | sequence _ items, _, v => ∃ values, v = .sequence values ∧ ItemsGive items values
  | mapping _ entries, _, v => ∃ pairs, v = .mapping pairs ∧ EntriesGive entries pairs

def ItemsGive : List Node → List Value → Prop
  | [], values => values = []
  | item :: items, values => ∃ v rest, values = v :: rest ∧ Under item.tag? item.Gives v ∧
      ItemsGive items rest

def EntriesGive : List (Node × Node) → List (Value × Value) → Prop
  | [], pairs => pairs = []
  | (key, value) :: entries, pairs => ∃ k v rest, pairs = (k, v) :: rest ∧
      Under key.tag? key.Gives k ∧ Under value.tag? value.Gives v ∧ EntriesGive entries rest

end

/-- What a node may be read as. -/
def Denotes (node : Node) (v : Value) : Prop := Under node.tag? node.Gives v

/-- There is no alias in it. -/
def IsClosed (node : Node) : Prop := ∀ number, .reference number ∉ node.events

theorem not_isClosed_reference (number : Nat) : ¬ (reference number).IsClosed :=
  fun hclosed => hclosed number (List.mem_singleton_self _)

theorem under_unique {tag : Option String} {gives : Bool → Value → Prop} {a b : Value}
    (ha : Under tag gives a) (hb : Under tag gives b)
    (h : ∀ tagged c d, gives tagged c → gives tagged d → c = d) : a = b := by
  unfold Under at ha hb
  cases htag : Decode.localTag? tag with
  | none =>
    rw [htag] at ha hb
    exact h _ _ _ ha hb
  | some name =>
    rw [htag] at ha hb
    obtain ⟨c, rfl, hc⟩ := ha
    obtain ⟨d, rfl, hd⟩ := hb
    rw [h _ _ _ hc hd]

mutual

theorem Gives.unique : ∀ {node : Node}, node.IsClosed → ∀ tagged a b,
    node.Gives tagged a → node.Gives tagged b → a = b
  | .scalar .., _, tagged, a, b, ha, hb => by
    obtain ⟨scalar, hscalar, ha⟩ := ha
    obtain ⟨other, hother, hb⟩ := hb
    rw [hscalar] at hother
    cases hother
    rw [ha] at hb
    exact Option.some.inj hb
  | .reference number, hclosed, _, _, _, _, _ => absurd hclosed (not_isClosed_reference number)
  | .sequence tag items, hclosed, tagged, a, b, ha, hb => by
    obtain ⟨values, rfl, hvalues⟩ := ha
    obtain ⟨others, rfl, hothers⟩ := hb
    have hitems : ∀ number, .reference number ∉ itemEvents items := fun number hmem =>
      hclosed number (List.mem_cons_of_mem _ (List.mem_append_left _ hmem))
    rw [ItemsGive.unique hitems values others hvalues hothers]
  | .mapping tag entries, hclosed, tagged, a, b, ha, hb => by
    obtain ⟨pairs, rfl, hpairs⟩ := ha
    obtain ⟨others, rfl, hothers⟩ := hb
    have hentries : ∀ number, .reference number ∉ entryEvents entries := fun number hmem =>
      hclosed number (List.mem_cons_of_mem _ (List.mem_append_left _ hmem))
    rw [EntriesGive.unique hentries pairs others hpairs hothers]

theorem ItemsGive.unique : ∀ {items : List Node}, (∀ number, .reference number ∉ itemEvents items) →
    ∀ values others, ItemsGive items values → ItemsGive items others → values = others
  | [], _, _, _, rfl, rfl => rfl
  | item :: items, hclosed, _, _, ⟨v, values, rfl, hv, hvalues⟩, ⟨w, others, rfl, hw, hothers⟩ => by
    rw [itemEvents] at hclosed
    simp only [List.mem_append, not_or] at hclosed
    rw [under_unique hv hw (Gives.unique fun number => (hclosed number).1),
      ItemsGive.unique (fun number => (hclosed number).2) values others hvalues hothers]

theorem EntriesGive.unique : ∀ {entries : List (Node × Node)},
    (∀ number, .reference number ∉ entryEvents entries) →
    ∀ pairs others, EntriesGive entries pairs → EntriesGive entries others → pairs = others
  | [], _, _, _, rfl, rfl => rfl
  | (key, value) :: entries, hclosed, _, _, ⟨k, v, pairs, rfl, hk, hv, hpairs⟩,
      ⟨l, w, others, rfl, hl, hw, hothers⟩ => by
    rw [entryEvents] at hclosed
    simp only [List.mem_append, not_or] at hclosed
    rw [under_unique hk hl (Gives.unique fun number => (hclosed number).1),
      under_unique hv hw (Gives.unique fun number => (hclosed number).2.1),
      EntriesGive.unique (fun number => (hclosed number).2.2) pairs others hpairs hothers]

end

/-- A node without aliases is read as one value only. -/
theorem Denotes.unique {node : Node} (hclosed : node.IsClosed) {a b : Value}
    (ha : node.Denotes a) (hb : node.Denotes b) : a = b :=
  under_unique ha hb (Gives.unique hclosed)

end Meaning

end Node

end ProcessLint.Yaml.Content
