import Mathlib.Data.List.Perm.Subperm
import Mathlib.Data.List.Nodup
import ProcessLint.Graph.Flowchart
import ProcessLint.Proofs.Text.Numerals

/-!
Identifiers tell names apart. What is assigned is only added to, each time a name that had none and
an identifier that was not taken, so no two names share one. An identifier is a word that the lines
of a chart can be cut at.
-/
namespace ProcessLint.Flowchart

/-- Not empty, and of nothing but identifier characters. -/
def IsWord (id : String) : Prop := id.toList ≠ [] ∧ ∀ c ∈ id.toList, isIdentifierChar c = true

section Candidates

theorem isWord_sanitize (name : String) : IsWord (sanitize name) := by
  unfold sanitize
  by_cases hempty : name.isEmpty
  · rw [if_pos hempty]
    exact ⟨by decide, by simp [isIdentifierChar]⟩
  · rw [if_neg hempty]
    have hname : name.toList ≠ [] := by simpa [String.isEmpty_iff] using hempty
    refine ⟨by simpa using hname, fun c hc => ?_⟩
    rw [String.toList_map] at hc
    obtain ⟨before, -, rfl⟩ := List.mem_map.mp hc
    by_cases hbefore : isIdentifierChar before
    · rwa [if_pos hbefore]
    · rw [if_neg hbefore]
      decide

theorem isWord_candidate {base : String} (h : IsWord base) (n : Nat) :
    IsWord (candidate base n) := by
  cases n with
  | zero => exact h
  | succ n =>
    obtain ⟨hne, hchars⟩ := h
    refine ⟨by simp [candidate, hne], fun c hc => ?_⟩
    simp only [candidate, String.toList_append, List.mem_append] at hc
    rcases hc with (hbase | hunderscore) | hdigit
    · exact hchars c hbase
    · rw [List.mem_singleton.mp hunderscore]
      decide
    · have hc : c.isDigit = true := (Text.areDigits_toString (n + 2)).digits c hdigit
      simp [isIdentifierChar, Char.isAlphanum, hc]

theorem candidate_injective (base : String) : Function.Injective (candidate base) := by
  have hlonger (n : Nat) : base ≠ candidate base (n + 1) := by
    intro h
    have hlength := congrArg String.length h
    simp only [candidate, String.length_append] at hlength
    have hunderscore : "_".length = 1 := rfl
    omega
  intro m n h
  match m, n with
  | 0, 0 => rfl
  | 0, n + 1 => exact absurd h (hlonger n)
  | m + 1, 0 => exact absurd h.symm (hlonger m)
  | m + 1, n + 1 =>
    have hnumber : toString (m + 2) = toString (n + 2) := by
      simpa [candidate] using h
    have hsucc : m + 2 = n + 2 := Text.eq_of_toString_eq hnumber
    rw [Nat.add_right_cancel hsucc]

variable {taken : List String} {base : String} {n : Nat}

/-- The candidates are tried in turn, and the n-th is the first that is not taken. -/
structure StopsAt (taken : List String) (base : String) (n : Nat) : Prop where
  free : candidate base n ∉ taken
  tried : ∀ k < n, candidate base k ∈ taken

/-- No two candidates are the same, so there are no more to try than are taken. -/
theorem le_length_of_tried (h : ∀ k < n, candidate base k ∈ taken) : n ≤ taken.length := by
  have hsubset : (List.range n).map (candidate base) ⊆ taken := by
    intro id hid
    obtain ⟨k, hk, rfl⟩ := List.mem_map.mp hid
    exact h k (List.mem_range.mp hk)
  have hnodup : ((List.range n).map (candidate base)).Nodup :=
    List.nodup_range.map (candidate_injective base)
  have hlength := (hnodup.subperm hsubset).length_le
  rwa [List.length_map, List.length_range] at hlength

theorem exists_stopsAt (taken : List String) (base : String) : ∃ n, StopsAt taken base n := by
  have hfree : ∃ n, candidate base n ∉ taken := by
    by_contra hnone
    have htaken : ∀ k < taken.length + 1, candidate base k ∈ taken :=
      fun k _ => by_contra fun hk => hnone ⟨k, hk⟩
    have hlength := le_length_of_tried htaken
    omega
  exact ⟨Nat.find hfree, Nat.find_spec hfree, fun k hk => not_not.mp (Nat.find_min hfree hk)⟩

/-- The bound on the search is not reached. -/
theorem StopsAt.fresh_eq (h : StopsAt taken base n) : fresh taken base = candidate base n := by
  have hbound := le_length_of_tried h.tried
  have hfound : ((List.range (taken.length + 1)).find? fun k =>
      !taken.contains (candidate base k)) = some n := by
    rw [List.find?_range_eq_some]
    refine ⟨by simpa using h.free, List.mem_range.mpr (by omega), fun k hk => ?_⟩
    simpa using h.tried k hk
  unfold fresh
  dsimp only
  rw [List.find?_map, Function.comp_def, hfound]
  rfl

end Candidates

/-- No name has two identifiers, no identifier two names, and each identifier is a word. -/
structure Identifiers.IsValid (assigned : Identifiers) : Prop where
  names : (assigned.map Prod.fst).Nodup
  ids : (assigned.map Prod.snd).Nodup
  words : ∀ entry ∈ assigned, IsWord entry.2

namespace Identifiers.IsValid

variable {assigned : Identifiers} {name other id : String}

theorem nil : IsValid [] := ⟨.nil, .nil, by simp⟩

theorem name_unique (h : assigned.IsValid) (hname : (name, id) ∈ assigned)
    (hother : (other, id) ∈ assigned) : name = other :=
  congrArg Prod.fst (List.inj_on_of_nodup_map h.ids hname hother rfl)

theorem mem_of_lookup (h : assigned.lookup name = some id) : (name, id) ∈ assigned := by
  obtain ⟨before, behind, rfl, -⟩ := List.lookup_eq_some_iff.mp h
  simp

theorem lookup_eq_some (h : assigned.IsValid) (hmem : (name, id) ∈ assigned) :
    assigned.lookup name = some id := by
  cases hname : assigned.lookup name with
  | none => simpa using List.lookup_eq_none_iff.mp hname _ hmem
  | some other =>
    have hsame := List.inj_on_of_nodup_map h.names (mem_of_lookup hname) hmem rfl
    exact congrArg (some ·.2) hsame

theorem cons (h : assigned.IsValid) (hname : assigned.lookup name = none) :
    IsValid ((name, fresh (assigned.map Prod.snd) (sanitize name)) :: assigned) := by
  obtain ⟨n, hstop⟩ := exists_stopsAt (assigned.map Prod.snd) (sanitize name)
  rw [hstop.fresh_eq]
  refine ⟨List.nodup_cons.mpr ⟨fun hmem => ?_, h.names⟩, List.nodup_cons.mpr ⟨hstop.free, h.ids⟩,
    List.forall_mem_cons.mpr ⟨?_, h.words⟩⟩
  · obtain ⟨entry, hentry, hentryName⟩ := List.mem_map.mp hmem
    have hne := List.lookup_eq_none_iff.mp hname entry hentry
    exact (bne_iff_ne.mp hne) hentryName.symm
  · exact isWord_candidate (isWord_sanitize name) n

end Identifiers.IsValid

/-- A computation that only adds identifiers, and whose result has a property with regard to
whatever is assigned in the end. -/
def Assigns {α : Type} (m : StateM Identifiers α) (P : Identifiers → α → Prop) : Prop :=
  ∀ assigned : Identifiers, assigned.IsValid →
    Identifiers.IsValid (m assigned).2 ∧ assigned <:+ (m assigned).2 ∧
      ∀ final : Identifiers, final.IsValid → (m assigned).2 <:+ final → P final (m assigned).1

namespace Assigns

variable {α β : Type} {P : Identifiers → α → Prop}

theorem pure {a : α} (h : ∀ final : Identifiers, final.IsValid → P final a) :
    Assigns (Pure.pure a) P :=
  fun _ hvalid => ⟨hvalid, List.suffix_refl _, fun final hfinal _ => h final hfinal⟩

/-- What the first computation has assigned is kept by the second. -/
theorem bind {m : StateM Identifiers α} {next : α → StateM Identifiers β}
    {Q : Identifiers → β → Prop} (h : Assigns m P)
    (hnext : ∀ a, Assigns (next a) fun final b => P final a → Q final b) :
    Assigns (m >>= next) Q := by
  intro assigned hvalid
  obtain ⟨hmid, hsuffix, hP⟩ := h assigned hvalid
  obtain ⟨hafter, hsuffix', hQ⟩ := hnext (m assigned).1 (m assigned).2 hmid
  refine ⟨hafter, hsuffix.trans hsuffix', fun final hfinal hlast => ?_⟩
  exact hQ final hfinal hlast (hP final hfinal (hsuffix'.trans hlast))

/-- One result for each item, in order. -/
theorem mapM {f : α → StateM Identifiers β} {Q : α → Identifiers → β → Prop}
    (h : ∀ a, Assigns (f a) (Q a)) (items : List α) :
    Assigns (items.mapM f) fun final results =>
      List.Forall₂ (fun a b => Q a final b) items results := by
  induction items with
  | nil =>
    rw [List.mapM_nil]
    exact .pure fun _ _ => .nil
  | cons a items ih =>
    rw [List.mapM_cons]
    exact (h a).bind fun b => ih.bind fun rest => .pure fun final _ hrest hb => .cons hb hrest

end Assigns

theorem identifier_run (name : String) (assigned : Identifiers) :
    identifier name assigned =
      match assigned.lookup name with
      | some id => (id, assigned)
      | none =>
          let id := fresh (assigned.map Prod.snd) (sanitize name)
          (id, (name, id) :: assigned) := by
  simp only [identifier, bind, StateT.bind, get, getThe, MonadStateOf.get, StateT.get, pure]
  cases assigned.lookup name <;> rfl

theorem identifier_assigns (name : String) :
    Assigns (identifier name) fun final id => (name, id) ∈ final := by
  intro assigned hvalid
  rw [identifier_run]
  cases hname : assigned.lookup name with
  | some id =>
    exact ⟨hvalid, List.suffix_refl _,
      fun final _ hlast => hlast.subset (Identifiers.IsValid.mem_of_lookup hname)⟩
  | none =>
    exact ⟨hvalid.cons hname, List.suffix_cons _ _,
      fun final _ hlast => hlast.subset (List.mem_cons_self ..)⟩

/-- No name but the one that is asked for is added. -/
theorem mem_names_identifier (name : String) (assigned : Identifiers) {other : String} :
    other ∈ (identifier name assigned).2.map Prod.fst ↔
      other = name ∨ other ∈ assigned.map Prod.fst := by
  rw [identifier_run]
  cases hname : assigned.lookup name with
  | none => exact List.mem_cons
  | some id =>
    have hmem : name ∈ assigned.map Prod.fst :=
      List.mem_map_of_mem (Identifiers.IsValid.mem_of_lookup hname)
    exact ⟨.inr, fun h => h.elim (fun heq => heq ▸ hmem) fun h => h⟩

end ProcessLint.Flowchart
