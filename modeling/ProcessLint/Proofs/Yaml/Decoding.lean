import ProcessLint.Proofs.Postcondition
import ProcessLint.Proofs.Yaml.Nodes

/-!
Reading goes from node to node. It passes over the events of a node, be there aliases in it or not,
and what it gives is something that the node may be read as.
-/
namespace ProcessLint.Yaml.Content

namespace Decode

/-- Reading goes over just these events, whatever their marks, and what it gives has a property. -/
def Consumes {α : Type} (decode : Decode α) (events : List Event) (P : α → Prop) : Prop :=
  ∀ later cursor a after, cursor.rest.map Prod.fst = events ++ later →
    decode cursor = .ok (a, after) → after.rest.map Prod.fst = later ∧ P a

theorem bind_run_eq_ok {α β : Type} {decode : Decode α} {next : α → Decode β}
    {cursor after : Cursor} {b : β} (h : (decode >>= next) cursor = .ok (b, after)) :
    ∃ a mid, decode cursor = .ok (a, mid) ∧ next a mid = .ok (b, after) := by
  obtain ⟨⟨a, mid⟩, ha, hb⟩ := bind_eq_ok h
  exact ⟨a, mid, ha, hb⟩

namespace Consumes

variable {α β : Type} {P : α → Prop} {Q : β → Prop} {stream : Stream} {decode : Decode α}
  {first : Event} {events more : List Event}

theorem pure {a : α} (h : P a) : Consumes (Pure.pure a) [] P := by
  intro later cursor b after hrest hb
  cases hb
  exact ⟨hrest, h⟩

theorem throw (fault : DecodeFault) : Consumes (MonadExcept.throw fault : Decode α) events P := by
  intro later cursor a after _ ha
  cases ha

theorem mono {P' : α → Prop} (h : Consumes decode events P) (hP : ∀ a, P a → P' a) :
    Consumes decode events P' := by
  intro later cursor a after hrest ha
  exact (h later cursor a after hrest ha).imp_right (hP a)

theorem bind {next : α → Decode β} (h : Consumes decode events P)
    (hnext : ∀ a, P a → Consumes (next a) more Q) :
    Consumes (decode >>= next) (events ++ more) Q := by
  intro later cursor b after hrest hb
  obtain ⟨a, mid, ha, hb⟩ := bind_run_eq_ok hb
  rw [List.append_assoc] at hrest
  obtain ⟨hmid, hP⟩ := h _ cursor a mid hrest ha
  exact hnext a hP later mid b after hmid hb

/-- A step that leaves all events where they are. -/
theorem bind_still {next : α → Decode β} (h : Consumes decode [] P)
    (hnext : ∀ a, P a → Consumes (next a) events Q) : Consumes (decode >>= next) events Q :=
  h.bind hnext

/-- The last step. -/
theorem bind_pure {f : α → β} (h : Consumes decode events P) (hQ : ∀ a, P a → Q (f a)) :
    Consumes (decode >>= fun a => Pure.pure (f a)) events Q := by
  rw [← List.append_nil events]
  exact h.bind fun a ha => pure (hQ a ha)

theorem guarded {c : Prop} [Decidable c] {cause : Mismatch} {rest : Unit → Decode α}
    (h : ¬ c → Consumes (rest ()) events P) :
    Consumes (if c then mismatch cause >>= rest else rest ()) events P := by
  split
  · intro later cursor a after _ ha
    cases ha
  · exact h ‹_›

theorem peek_bind {next : Event × Mark → Decode β}
    (h : ∀ mark, Consumes (next (first, mark)) (first :: events) Q) :
    Consumes (peek stream >>= next) (first :: events) Q := by
  intro later cursor b after hrest hb
  obtain ⟨⟨event, mark⟩, mid, hpeek, hb⟩ := bind_run_eq_ok hb
  obtain ⟨rest, jumps⟩ := cursor
  cases rest with
  | nil => cases hrest
  | cons entry rest =>
    cases hpeek
    have hfirst : event = first := (List.cons.inj hrest).1
    subst hfirst
    exact h mark later _ b after hrest hb

theorem skip (first : Event) : Consumes Decode.skip [first] fun _ => True := by
  intro later cursor a after hrest ha
  obtain ⟨rest, jumps⟩ := cursor
  cases ha
  cases rest with
  | nil => cases hrest
  | cons entry rest => exact ⟨(List.cons.inj hrest).2, trivial⟩

theorem next_bind {next : Event × Mark → Decode β}
    (h : ∀ mark, Consumes (next (first, mark)) events Q) :
    Consumes (Decode.next stream >>= next) (first :: events) Q := by
  have hnext : Consumes (Decode.next stream) [first] fun event => event.1 = first :=
    peek_bind fun mark => (skip first).bind fun _ _ => pure rfl
  refine hnext.bind fun (event, mark) hevent => ?_
  cases hevent
  exact h mark

theorem peek_node {node : Node} {next : Event × Mark → Decode β}
    (h : ∀ mark, Consumes (next (node.start, mark)) (node.events ++ more) Q) :
    Consumes (peek stream >>= next) (node.events ++ more) Q := by
  rw [node.events_eq, List.cons_append] at h ⊢
  exact peek_bind h

theorem next_node {node : Node} {next : Event × Mark → Decode β}
    (h : ∀ mark, Consumes (next (node.start, mark)) node.inner Q) :
    Consumes (Decode.next stream >>= next) node.events Q := by
  rw [node.events_eq]
  exact next_bind h

theorem placed (h : Consumes decode events P) (path : Path) (mark : Mark) :
    Consumes (Decode.placed path mark decode) events P := by
  intro later cursor a after hrest ha
  unfold Decode.placed at ha
  cases hd : decode cursor with
  | error fault => rw [hd] at ha; cases ha
  | ok result =>
    rw [hd] at ha
    cases ha
    exact h later cursor a after hrest hd

/-- Behind what an alias stands for, reading goes on behind the alias. -/
theorem follow (h : Yields decode P) (number : Nat) :
    Consumes (Decode.follow stream number decode) [] P := by
  intro later cursor a after hrest ha
  refine ⟨?_, Yields.follow h stream number cursor a after ha⟩
  unfold Decode.follow at ha
  obtain ⟨c, _, hc, ha⟩ := bind_run_eq_ok ha
  cases hc
  dsimp only at ha
  split at ha
  · cases ha
  · cases htarget : stream.targets.lookup number with
    | none =>
      rw [htarget] at ha
      cases ha
    | some index =>
      rw [htarget] at ha
      obtain ⟨_, _, -, ha⟩ := bind_run_eq_ok ha
      obtain ⟨_, _, -, ha⟩ := bind_run_eq_ok ha
      obtain ⟨_, _, hmodify, ha⟩ := bind_run_eq_ok ha
      cases hmodify
      cases ha
      exact hrest

theorem deeper (depth : Nat) (mark : Mark) :
    Consumes (Decode.deeper depth mark) [] fun _ => True := by
  cases depth with
  | zero => exact throw _
  | succ depth => exact pure trivial

theorem wrongEvent (event : Event) (wanted : Wanted) :
    Consumes (Decode.wrongEvent event wanted) events P := by
  intro later cursor a after _ ha
  exact absurd trivial (Yields.wrongEvent (P := fun _ => False) event wanted cursor a after ha).elim

end Consumes

section Ignoring

/-- The event that ends a collection. -/
theorem restBehind_last {opened : Nat} {content : List (Event × Mark)} {last : Event}
    {later : List Event} (hlast : last = .sequenceEnd ∨ last = .mappingEnd)
    (h : content.map Prod.fst = last :: later) :
    ∃ rest, rest.map Prod.fst = later ∧ restBehind (opened + 1) content =
      if opened = 0 then some rest else restBehind opened rest := by
  cases content with
  | nil => cases h
  | cons entry rest =>
    obtain ⟨event, mark⟩ := entry
    obtain ⟨rfl, hlater⟩ := List.cons.inj h
    refine ⟨rest, hlater, ?_⟩
    rcases hlast with rfl | rfl <;> simp [restBehind]

mutual

/-- Behind the events of a node as many collections are open as before it. -/
theorem restBehind_events : ∀ (node : Node) (opened : Nat) (later : List Event)
    (content : List (Event × Mark)), content.map Prod.fst = node.events ++ later →
    ∃ rest, rest.map Prod.fst = later ∧
      restBehind opened content = if opened = 0 then some rest else restBehind opened rest
  | .scalar .., opened, later, (event, _) :: rest, h
  | .reference _, opened, later, (event, _) :: rest, h => by
    obtain ⟨rfl, hrest⟩ := List.cons.inj h
    exact ⟨rest, hrest, rfl⟩
  | .sequence tag items, opened, later, (event, _) :: content, h => by
    obtain ⟨rfl, hinner⟩ := List.cons.inj h
    rw [List.append_eq, List.append_assoc] at hinner
    obtain ⟨last, hlast, hinside⟩ := restBehind_items items opened _ content hinner
    obtain ⟨rest, hrest, hend⟩ := restBehind_last (.inl rfl) hlast
    exact ⟨rest, hrest, hinside.trans hend⟩
  | .mapping tag entries, opened, later, (event, _) :: content, h => by
    obtain ⟨rfl, hinner⟩ := List.cons.inj h
    rw [List.append_eq, List.append_assoc] at hinner
    obtain ⟨last, hlast, hinside⟩ := restBehind_entries entries opened _ content hinner
    obtain ⟨rest, hrest, hend⟩ := restBehind_last (.inr rfl) hlast
    exact ⟨rest, hrest, hinside.trans hend⟩

theorem restBehind_items : ∀ (items : List Node) (opened : Nat) (later : List Event)
    (content : List (Event × Mark)), content.map Prod.fst = Node.itemEvents items ++ later →
    ∃ rest, rest.map Prod.fst = later ∧
      restBehind (opened + 1) content = restBehind (opened + 1) rest
  | [], opened, later, content, h => ⟨content, h, rfl⟩
  | item :: items, opened, later, content, h => by
    rw [Node.itemEvents, List.append_assoc] at h
    obtain ⟨mid, hmid, hitem⟩ := restBehind_events item (opened + 1) _ content h
    obtain ⟨rest, hrest, hitems⟩ := restBehind_items items opened later mid hmid
    exact ⟨rest, hrest, hitem.trans hitems⟩

theorem restBehind_entries : ∀ (entries : List (Node × Node)) (opened : Nat) (later : List Event)
    (content : List (Event × Mark)), content.map Prod.fst = Node.entryEvents entries ++ later →
    ∃ rest, rest.map Prod.fst = later ∧
      restBehind (opened + 1) content = restBehind (opened + 1) rest
  | [], opened, later, content, h => ⟨content, h, rfl⟩
  | (key, value) :: entries, opened, later, content, h => by
    rw [Node.entryEvents, List.append_assoc, List.append_assoc] at h
    obtain ⟨mid, hmid, hkey⟩ := restBehind_events key (opened + 1) _ content h
    obtain ⟨mid', hmid', hvalue⟩ := restBehind_events value (opened + 1) _ mid hmid
    obtain ⟨rest, hrest, hentries⟩ := restBehind_entries entries opened later mid' hmid'
    exact ⟨rest, hrest, hkey.trans (hvalue.trans hentries)⟩

end

theorem ignore_consumes (stream : Stream) (node : Node) :
    Consumes (ignore stream) node.events fun _ => True := by
  intro later cursor a after hagree ha
  obtain ⟨rest, hrest, hbehind⟩ := restBehind_events node 0 later cursor.rest hagree
  obtain ⟨c, mid, hc, ha⟩ := bind_run_eq_ok ha
  cases hc
  rw [hbehind] at ha
  cases ha
  exact ⟨hrest, trivial⟩

end Ignoring

/-- What reading of at most `n` steps goes over, and what it may give, for each of the readers of
values. -/
structure ReadsNodes (stream : Stream) (reading : Reading) (n : Nat) : Prop where
  value : ∀ path depth (node : Node),
    Consumes (Decode.value stream reading n path depth) node.events node.Denotes
  ofEvent : ∀ path depth (node : Node) mark,
    Consumes (Decode.ofEvent stream reading n path depth node.start mark false) node.inner node.Denotes
  ofTagged : ∀ path depth (node : Node) mark,
    Consumes (Decode.ofEvent stream reading n path depth node.start mark true) node.inner
      (node.Gives true)
  items : ∀ path depth index (nodes : List Node),
    Consumes (Decode.items stream reading n path depth index)
      (Node.itemEvents nodes ++ [.sequenceEnd]) (Node.ItemsGive nodes)
  entries : ∀ path depth keys (pairs : List (Node × Node)),
    Consumes (Decode.entries stream reading n path depth keys)
      (Node.entryEvents pairs ++ [.mappingEnd]) (Node.EntriesGive pairs)

namespace ReadsNodes

variable {stream : Stream} {reading : Reading} {n : Nat}

theorem zero : ReadsNodes stream reading 0 where
  value _ _ _ := by
    rw [Decode.value]
    exact .throw _
  ofEvent _ _ _ _ := by
    rw [Decode.ofEvent]
    exact .throw _
  ofTagged _ _ _ _ := by
    rw [Decode.ofEvent]
    exact .throw _
  items _ _ _ _ := by
    rw [Decode.items]
    exact .throw _
  entries _ _ _ _ := by
    rw [Decode.entries]
    exact .throw _

/-- What is read of a node whose tag has been read, or is none of the document's own. -/
theorem gives_succ (h : ReadsNodes stream reading n) (path : Path) (depth : Nat) (node : Node)
    (mark : Mark) {tagged : Bool} (htag : (if tagged then none else localTag? node.tag?) = none) :
    Consumes (Decode.ofEvent stream reading (n + 1) path depth node.start mark tagged) node.inner
      (node.Gives tagged) := by
  unfold Decode.ofEvent
  refine Consumes.placed ?_ path mark
  cases node with
  | scalar isPlain tag text =>
    dsimp only [Node.start, Node.tag?] at htag ⊢
    rw [htag]
    dsimp only
    split
    · exact .throw _
    · rename_i scalar hscalar
      split
      · rename_i v hv
        exact .pure ⟨scalar, hscalar, hv⟩
      · exact .throw _
  | reference number =>
    dsimp only [Node.start]
    rw [ite_self]
    exact Consumes.follow (Yields.of_true _) _
  | sequence tag items =>
    dsimp only [Node.start, Node.tag?] at htag ⊢
    rw [htag]
    refine (Consumes.deeper depth mark).bind_still fun depth _ => ?_
    exact (h.items path depth 0 items).bind_pure fun values hvalues => ⟨values, rfl, hvalues⟩
  | mapping tag entries =>
    dsimp only [Node.start, Node.tag?] at htag ⊢
    rw [htag]
    refine (Consumes.deeper depth mark).bind_still fun depth _ => ?_
    exact (h.entries path depth [] entries).bind_pure fun pairs hpairs => ⟨pairs, rfl, hpairs⟩

theorem ofEvent_succ (h : ReadsNodes stream reading n) (path : Path) (depth : Nat) (node : Node)
    (mark : Mark) :
    Consumes (Decode.ofEvent stream reading (n + 1) path depth node.start mark false) node.inner
      node.Denotes := by
  unfold Node.Denotes Node.Under
  cases htag : localTag? node.tag? with
  | none => exact h.gives_succ path depth node mark htag
  | some tag =>
    have htagged := h.ofTagged path depth node mark
    unfold Decode.ofEvent
    refine Consumes.placed ?_ path mark
    cases node with
    | reference => cases htag
    | scalar | sequence | mapping =>
      dsimp only [Node.start, Node.tag?] at htag ⊢
      rw [if_neg Bool.false_ne_true, htag]
      refine Consumes.guarded fun _ => Consumes.guarded fun _ => ?_
      exact htagged.bind_pure fun content hcontent => ⟨content, rfl, hcontent⟩

theorem items_succ (h : ReadsNodes stream reading n) (path : Path) (depth index : Nat)
    (nodes : List Node) :
    Consumes (Decode.items stream reading (n + 1) path depth index)
      (Node.itemEvents nodes ++ [.sequenceEnd]) (Node.ItemsGive nodes) := by
  rw [Decode.items]
  cases nodes with
  | nil => exact Consumes.peek_bind fun mark => (Consumes.skip _).bind_pure fun _ _ => rfl
  | cons node nodes =>
    rw [Node.itemEvents, List.append_assoc]
    refine Consumes.peek_node fun mark => ?_
    obtain ⟨hend, -, habsent⟩ := node.start_continues
    dsimp only
    split
    · exact absurd ‹_› hend
    · exact absurd ‹_› habsent
    · refine (h.value _ depth node).bind fun item hitem => ?_
      exact (h.items path depth (index + 1) nodes).bind_pure fun rest hrest =>
        ⟨item, rest, rfl, hitem, hrest⟩

theorem entries_succ (h : ReadsNodes stream reading n) (path : Path) (depth : Nat)
    (keys : List Value) (pairs : List (Node × Node)) :
    Consumes (Decode.entries stream reading (n + 1) path depth keys)
      (Node.entryEvents pairs ++ [.mappingEnd]) (Node.EntriesGive pairs) := by
  rw [Decode.entries]
  cases pairs with
  | nil => exact Consumes.peek_bind fun mark => (Consumes.skip _).bind_pure fun _ _ => rfl
  | cons pair pairs =>
    obtain ⟨key, node⟩ := pair
    rw [Node.entryEvents, List.append_assoc, List.append_assoc]
    refine Consumes.peek_node fun mark => ?_
    obtain ⟨-, hend, habsent⟩ := key.start_continues
    dsimp only
    split
    · exact absurd ‹_› hend
    · exact absurd ‹_› habsent
    · refine (h.value path depth key).bind fun k hk => Consumes.guarded fun _ => ?_
      refine (h.value _ depth node).bind fun v hv => ?_
      exact (h.entries path depth (k :: keys) pairs).bind_pure fun rest hrest =>
        ⟨k, v, rest, rfl, hk, hv, hrest⟩

theorem succ (h : ReadsNodes stream reading n) : ReadsNodes stream reading (n + 1) where
  value path depth node := by
    rw [Decode.value]
    exact Consumes.next_node fun mark => h.ofEvent path depth node mark
  ofEvent := h.ofEvent_succ
  ofTagged path depth node mark := h.gives_succ path depth node mark rfl
  items := h.items_succ
  entries := h.entries_succ

end ReadsNodes

theorem readsNodes (stream : Stream) (reading : Reading) : ∀ n, ReadsNodes stream reading n
  | 0 => .zero
  | n + 1 => (readsNodes stream reading n).succ

end Decode

end ProcessLint.Yaml.Content
