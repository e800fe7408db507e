import ProcessLint.Proofs.Document.Names
import ProcessLint.Proofs.Document.Reading
import ProcessLint.Proofs.Yaml.Decoding

/-!
The fields of a document come from the entries at its root. Every entry is passed over once; it
settles the field that its key names, and leaves all others. A field is not settled twice, and only
a key that is an alias does not show which field it is for.
-/
namespace ProcessLint

open Yaml Content Content.Decode

namespace Yaml.Content

namespace Node

/-- What a key of the root may be read as. -/
def Names : Node → String → Prop
  | scalar _ _ text, name => name = text
  | reference _, _ => True
  | sequence .., _ | mapping .., _ => False

/-- Whether a key is written as one of these names. -/
def isNamed (names : List String) : Node → Bool
  | scalar _ _ text => names.contains text
  | _ => false

/-- Whether a key may be read as one of these names. -/
def mayName (names : List String) : Node → Bool
  | reference _ => true
  | key => key.isNamed names

variable {names : List String} {key : Node} {name : String}

theorem mayName_of_mem (h : key.Names name) (hmem : name ∈ names) : key.mayName names = true := by
  cases key with
  | scalar isPlain tag text =>
    cases h
    simpa [mayName, isNamed] using hmem
  | reference => rfl
  | sequence | mapping => cases h

theorem isNamed_of_notMem (h : key.Names name) (hmem : name ∉ names) :
    key.isNamed names = false := by
  cases key with
  | scalar isPlain tag text =>
    cases h
    simpa [isNamed] using hmem
  | reference => rfl
  | sequence | mapping => cases h

section Values

variable {α : Type} {P : α → Prop}

/-- The entries read for a node may be these. Of a scalar there are none. -/
def Holds : Node → List (Value × Value) → Prop
  | mapping _ entries, pairs => EntriesGive entries pairs
  | scalar .., pairs => pairs = []
  | reference _, _ => True
  | sequence .., _ => False

/-- A node that may be null has a value with a property, or none. -/
inductive Optionally (P : α → Prop) : Node → Option α → Prop
  | aliased (number : Nat) (a? : Option α) : Optionally P (.reference number) a?
  | absent {node : Node} (absent : isPresent node.start = .ok false) : Optionally P node none
  | present {node : Node} {a : α} (present : isPresent node.start = .ok true) (value : P a) :
      Optionally P node (some a)

theorem Optionally.unique {node : Node} (hclosed : node.IsClosed) (h : ∀ a b, P a → P b → a = b)
    {a? b? : Option α} (ha : node.Optionally P a?) (hb : node.Optionally P b?) : a? = b? := by
  cases ha with
  | aliased number => exact absurd hclosed (not_isClosed_reference number)
  | absent habsent =>
    cases hb with
    | aliased number => exact absurd hclosed (not_isClosed_reference number)
    | absent => rfl
    | present hpresent =>
      rw [habsent] at hpresent
      cases hpresent
  | present hpresent ha =>
    cases hb with
    | aliased number => exact absurd hclosed (not_isClosed_reference number)
    | absent habsent =>
      rw [habsent] at hpresent
      cases hpresent
    | present _ hb => rw [h _ _ ha hb]

/-- What may be read of a node with one file or a list of them. -/
def Lists (node : Node) (files : List String) : Prop :=
  ∃ v?, node.Optionally node.Denotes v? ∧
    ((v? = none ∧ files = []) ∨ ∃ v, v? = some v ∧ RawDocument.filesOf v = some files)

/-- What may be read of a node with processes. -/
def Takes (node : Node) (pairs : List (Value × Value)) : Prop :=
  ∃ pairs?, node.Optionally node.Holds pairs? ∧ pairs = pairs?.getD []

theorem Lists.unique {node : Node} (hclosed : node.IsClosed) {files others : List String}
    (hfiles : node.Lists files) (hothers : node.Lists others) : files = others := by
  obtain ⟨v?, hv, hfiles⟩ := hfiles
  obtain ⟨w?, hw, hothers⟩ := hothers
  rw [hv.unique hclosed (fun _ _ => Denotes.unique hclosed) hw] at hfiles
  rcases hfiles with ⟨rfl, rfl⟩ | ⟨v, rfl, hfiles⟩
  · rcases hothers with ⟨-, rfl⟩ | ⟨w, hnone, -⟩
    · rfl
    · cases hnone
  · rcases hothers with ⟨hnone, -⟩ | ⟨w, hsome, hothers⟩
    · cases hnone
    · cases hsome
      rw [hfiles] at hothers
      exact Option.some.inj hothers

end Values

end Node

namespace Decode

variable {α : Type} {stream : Stream} {decode : Decode α} {P : α → Prop}

theorem optional_consumes {node : Node} (h : Consumes decode node.events P) :
    Consumes (optional stream decode) node.events (node.Optionally P) := by
  unfold optional
  rw [← List.append_nil node.events]
  refine Consumes.peek_node fun mark => ?_
  have hstart : Consumes (optional.ofStart decode node.start) (node.events ++ [])
      (node.Optionally P) := by
    unfold optional.ofStart
    split
    · exact .throw _
    · rename_i hpresent
      exact h.bind fun a ha => .pure (.present hpresent ha)
    · rename_i habsent
      rw [List.append_nil]
      cases node with
      | scalar => exact (Consumes.skip _).bind_pure fun _ _ => .absent habsent
      | reference | sequence | mapping => cases habsent
  cases node with
  | reference number =>
    exact (Consumes.skip _).bind fun _ _ => (Consumes.follow (Yields.of_true _) _).mono
      fun a? _ => .aliased number a?
  | scalar | sequence | mapping => exact hstart

/-- The entries that are read where a mapping is wanted. -/
theorem mapping_consumes (path : Path) (depth : Nat) (node : Node) :
    Consumes (mapping stream path depth) node.events node.Holds := by
  unfold mapping
  refine Consumes.next_node fun mark => ?_
  cases node with
  | scalar =>
    refine Consumes.placed ?_ path mark
    dsimp only [Node.start]
    split
    · cases ‹_›
    · exact .pure rfl
    · exact .pure rfl
    · exact .wrongEvent _ _
  | reference => exact (Consumes.follow (Yields.of_true _) _).placed path mark
  | sequence => exact (Consumes.wrongEvent _ _).placed path mark
  | mapping =>
    refine Consumes.placed ?_ path mark
    refine (Consumes.deeper depth mark).bind_still fun depth _ => ?_
    exact (readsNodes stream .value _).entries path depth [] _

theorem fieldName_consumes (path : Path) (key : Node) :
    Consumes (fieldName stream path) key.events key.Names := by
  unfold fieldName
  refine Consumes.next_node fun mark => ?_
  cases key with
  | scalar =>
    refine Consumes.placed ?_ path mark
    exact .pure rfl
  | reference => exact (Consumes.follow (Yields.of_true _) _).placed path mark
  | sequence => exact (Consumes.wrongEvent _ _).placed path mark
  | mapping => exact (Consumes.wrongEvent _ _).placed path mark

end Decode

end Yaml.Content

namespace RawDocument

/-- What the entries of a root make of a field with some names, given what it was before. -/
inductive Settles {α : Type} (names : List String) (reads : Node → α → Prop) :
    List (Node × Node) → Option α → Option α → Prop
  | done (a? : Option α) : Settles names reads [] a? a?
  | other {key value : Node} {rest : List (Node × Node)} {before after : Option α}
      (key_other : key.isNamed names = false) (later : Settles names reads rest before after) :
      Settles names reads ((key, value) :: rest) before after
  | own {key value : Node} {rest : List (Node × Node)} {a : α} {after : Option α}
      (key_own : key.mayName names = true) (read : reads value a)
      (later : Settles names reads rest (some a) after) :
      Settles names reads ((key, value) :: rest) none after

theorem Settles.cons_own {α : Type} {names : List String} {reads : Node → α → Prop}
    {key value : Node} {rest : List (Node × Node)} {before after : Option α} {a : α}
    (hfresh : ¬ before.isSome = true) (hkey : key.mayName names = true) (hread : reads value a)
    (h : Settles names reads rest (some a) after) :
    Settles names reads ((key, value) :: rest) before after := by
  rw [Option.not_isSome_iff_eq_none.mp hfresh]
  exact .own hkey hread h

def fileKeys : List String := ["env_file", "dotenv"]

/-- What the entries of a root make of all fields. -/
structure Declares (entries : List (Node × Node)) (before after : RawDocument) : Prop where
  version : Settles ["version"] (fun node => node.Optionally node.Denotes) entries
    before.version after.version
  envFiles : Settles fileKeys Node.Lists entries before.envFiles after.envFiles
  processes : Settles ["processes"] Node.Takes entries before.processes after.processes

theorem readEnvFiles_consumes (stream : Stream) (path : Path) (depth : Nat) (node : Node) :
    Consumes (readEnvFiles stream path depth) node.events node.Lists := by
  have hvalue := (readsNodes stream .content (fuel stream depth)).value path depth node
  rw [← List.append_nil node.events]
  refine (optional_consumes hvalue).bind fun v? hv => ?_
  split
  · exact .pure ⟨none, hv, .inl ⟨rfl, rfl⟩⟩
  · rename_i v
    split
    · rename_i files hfiles
      exact .pure ⟨some v, hv, .inr ⟨v, rfl, hfiles⟩⟩
    · exact .throw _

theorem fields_consumes (stream : Stream) (depth : Nat) :
    ∀ (n : Nat) (entries : List (Node × Node)) (raw : RawDocument),
      Consumes (fields stream depth n raw) (Node.entryEvents entries ++ [.mappingEnd])
        (Declares entries raw) := by
  intro n
  induction n with
  | zero => exact fun _ _ => .throw _
  | succ n ih =>
    intro entries raw
    rw [fields]
    cases entries with
    | nil =>
      exact Consumes.peek_bind fun mark =>
        (Consumes.skip _).bind_pure fun _ _ => ⟨.done _, .done _, .done _⟩
    | cons entry entries =>
      obtain ⟨key, value⟩ := entry
      rw [Node.entryEvents, List.append_assoc, List.append_assoc]
      refine Consumes.peek_node fun mark => ?_
      obtain ⟨-, hend, habsent⟩ := key.start_continues
      dsimp only
      split
      · exact absurd ‹_› hend
      · exact absurd ‹_› habsent
      · refine (fieldName_consumes [] key).bind fun name hname => ?_
        have hnamed (names : List String) (hmem : name ∈ names) : key.mayName names = true :=
          Node.mayName_of_mem hname hmem
        have hother (names : List String) (hmem : name ∉ names) : key.isNamed names = false :=
          Node.isNamed_of_notMem hname hmem
        split
        case h_1 =>
          refine Consumes.guarded fun hfresh => ?_
          have hvalue := (readsNodes stream .value (fuel stream depth)).value
          refine (optional_consumes (hvalue _ depth value)).bind fun version hversion =>
            (ih entries _).mono fun after h => ⟨?_, ?_, ?_⟩
          · exact .cons_own hfresh (hnamed _ (by decide)) hversion h.version
          · exact .other (hother _ (by decide)) h.envFiles
          · exact .other (hother _ (by decide)) h.processes
        case h_4 =>
          refine Consumes.guarded fun hfresh => ?_
          refine (optional_consumes (mapping_consumes _ depth value)).bind fun pairs hpairs =>
            (ih entries _).mono fun after h => ⟨?_, ?_, ?_⟩
          · exact .other (hother _ (by decide)) h.version
          · exact .other (hother _ (by decide)) h.envFiles
          · exact .cons_own hfresh (hnamed _ (by decide)) ⟨pairs, hpairs, rfl⟩ h.processes
        case h_5 hversion henvFile hdotenv hprocesses =>
          refine (ignore_consumes stream value).bind fun _ _ =>
            (ih entries raw).mono fun after h => ⟨?_, ?_, ?_⟩
          · exact .other (hother _ (by simpa using hversion)) h.version
          · exact .other (hother _ (by simpa [fileKeys] using ⟨henvFile, hdotenv⟩)) h.envFiles
          · exact .other (hother _ (by simpa using hprocesses)) h.processes
        -- The files have two names.
        all_goals
          refine Consumes.guarded fun hfresh => ?_
          refine (readEnvFiles_consumes stream _ depth value).bind fun files hfiles =>
            (ih entries _).mono fun after h => ⟨?_, ?_, ?_⟩
          · exact .other (hother _ (by decide)) h.version
          · exact .cons_own hfresh (hnamed _ (by decide)) hfiles h.envFiles
          · exact .other (hother _ (by decide)) h.processes

theorem root_consumes (stream : Stream) (tag : Option String) (entries : List (Node × Node)) :
    Consumes (root stream) (Node.mapping tag entries).events (Declares entries empty) := by
  refine Consumes.next_bind fun mark => Consumes.placed ?_ [] mark
  exact (Consumes.deeper maxDepth mark).bind_still fun depth _ =>
    fields_consumes stream depth _ entries empty

theorem ofText_declares {text : List Char} {raw : RawDocument} {tag : Option String}
    {entries : List (Node × Node)} (h : ofText text = .ok raw)
    (hroot : (Stream.ofText text).events.map Prod.fst = (Node.mapping tag entries).events) :
    Declares entries empty raw := by
  obtain ⟨⟨read, after⟩, hread, h⟩ := bind_eq_ok h
  rw [← List.append_nil (Node.events _)] at hroot
  obtain ⟨-, hdeclares⟩ := root_consumes _ tag entries [] ⟨_, 0⟩ read after hroot hread
  dsimp only at h
  split at h
  · cases h
  · split at h
    · cases h
    · cases h
      exact hdeclares

/-- The entries that may be for a field with some names. -/
def entriesFor (names : List String) (entries : List (Node × Node)) : List (Node × Node) :=
  entries.filter fun entry => entry.1.mayName names

/-- The values of the keys that are written as one of some names. -/
def valuesOf (names : List String) (entries : List (Node × Node)) : List Node :=
  (entries.filter fun entry => entry.1.isNamed names).map Prod.snd

section Entries

variable {names : List String} {key : Node}

theorem entriesFor_cons_of_mayName (h : key.mayName names = true) (value : Node)
    (entries : List (Node × Node)) :
    entriesFor names ((key, value) :: entries) = (key, value) :: entriesFor names entries :=
  List.filter_cons_of_pos h

theorem entriesFor_cons_of_not (h : ¬ key.mayName names = true) (value : Node)
    (entries : List (Node × Node)) :
    entriesFor names ((key, value) :: entries) = entriesFor names entries :=
  List.filter_cons_of_neg h

theorem valuesOf_cons_of_isNamed (h : key.isNamed names = true) (value : Node)
    (entries : List (Node × Node)) :
    valuesOf names ((key, value) :: entries) = value :: valuesOf names entries := by
  simp [valuesOf, h]

theorem valuesOf_cons_of_not (h : key.isNamed names = false) (value : Node)
    (entries : List (Node × Node)) :
    valuesOf names ((key, value) :: entries) = valuesOf names entries := by
  simp [valuesOf, h]

end Entries

namespace Settles

variable {α : Type} {names : List String} {reads : Node → α → Prop}
  {entries : List (Node × Node)} {before after : Option α}

section Written

/-- Behind an entry that has settled the field there is no other. -/
theorem settled {a : α} (h : Settles names reads entries (some a) after) :
    valuesOf names entries = [] ∧ after = some a := by
  generalize hbefore : some a = before at h
  induction h with
  | done => exact ⟨rfl, rfl⟩
  | other key_other _ ih =>
    obtain ⟨hvalues, hafter⟩ := ih hbefore
    exact ⟨(valuesOf_cons_of_not key_other _ _).trans hvalues, hafter⟩
  | own => cases hbefore

/-- A field with a key that is written is read from the value of that key. -/
theorem value (h : Settles names reads entries none after) :
    valuesOf names entries = [] ∨
      ∃ node a, valuesOf names entries = [node] ∧ after = some a ∧ reads node a := by
  generalize hbefore : none = before at h
  induction h with
  | done => exact .inl rfl
  | other key_other _ ih =>
    rw [valuesOf_cons_of_not key_other]
    exact ih hbefore
  | @own key value rest a after _ read later _ =>
    obtain ⟨hvalues, hafter⟩ := later.settled
    cases hkey : key.isNamed names with
    | true =>
      rw [valuesOf_cons_of_isNamed hkey, hvalues]
      exact .inr ⟨value, a, rfl, hafter, read⟩
    | false =>
      rw [valuesOf_cons_of_not hkey]
      exact .inl hvalues

end Written

section Closed

theorem entriesFor_of (h : Settles names reads entries before after) :
    Settles names reads (entriesFor names entries) before after := by
  induction h with
  | done a? => exact .done a?
  | @other key value _ _ _ key_other _ ih =>
    by_cases hkey : key.mayName names
    · rw [entriesFor_cons_of_mayName hkey]
      exact .other key_other ih
    · rw [entriesFor_cons_of_not hkey]
      exact ih
  | own key_own read _ ih =>
    rw [entriesFor_cons_of_mayName key_own]
    exact .own key_own read ih

theorem unique {other : Option α} (hkeys : ∀ entry ∈ entries, entry.1.isNamed names = true)
    (hreads : ∀ entry ∈ entries, ∀ a b, reads entry.2 a → reads entry.2 b → a = b)
    (h : Settles names reads entries before after) (h' : Settles names reads entries before other) :
    after = other := by
  induction h with
  | done =>
    cases h'
    rfl
  | other key_other =>
    have hkey := hkeys _ (List.mem_cons_self ..)
    rw [key_other] at hkey
    cases hkey
  | own _ read _ ih =>
    cases h' with
    | other key_other =>
      have hkey := hkeys _ (List.mem_cons_self ..)
      rw [key_other] at hkey
      cases hkey
    | own _ read' later' =>
      have hvalue := hreads _ (List.mem_cons_self ..) _ _ read read'
      subst hvalue
      exact ih (fun entry hentry => hkeys entry (List.mem_cons_of_mem _ hentry))
        (fun entry hentry => hreads entry (List.mem_cons_of_mem _ hentry)) later'

/-- A field is told by the entries that may be for it, unless there is an alias among them. -/
theorem congr {entries' : List (Node × Node)} {other : Option α}
    (hsame : entriesFor names entries' = entriesFor names entries)
    (hclosed : ∀ entry ∈ entriesFor names entries, entry.1.IsClosed ∧ entry.2.IsClosed)
    (hreads : ∀ node : Node, node.IsClosed → ∀ a b, reads node a → reads node b → a = b)
    (h : Settles names reads entries before after)
    (h' : Settles names reads entries' before other) : after = other := by
  have hother := h'.entriesFor_of
  rw [hsame] at hother
  refine unique (fun entry hentry => ?_)
    (fun entry hentry => hreads entry.2 (hclosed entry hentry).2) h.entriesFor_of hother
  have hkey := (List.mem_filter.mp hentry).2
  obtain ⟨hkeyClosed, -⟩ := hclosed entry hentry
  cases hnode : entry.1 with
  | reference number =>
    rw [hnode] at hkeyClosed
    exact absurd hkeyClosed (Node.not_isClosed_reference number)
  | scalar | sequence | mapping =>
    rw [hnode] at hkey
    exact hkey

end Closed

end Settles

end RawDocument

namespace Document

open RawDocument

variable {doc before after : Document}

end Document

end ProcessLint
