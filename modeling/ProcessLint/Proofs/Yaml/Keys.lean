import ProcessLint.Proofs.Postcondition

/-!
No mapping that is read as a value has the same key twice, however deep it lies in the value. The
keys of the mapping that is being read are known, so that a further one is refused if it is among
them. What an alias stands for is read in the same way once more.
-/
namespace ProcessLint.Yaml

/-- Keys that differ from each other, in a value and in all that lies inside. -/
inductive Value.DistinctKeys : Value → Prop
  | null : DistinctKeys .null
  | bool (b : Bool) : DistinctKeys (.bool b)
  | number (n : Number) : DistinctKeys (.number n)
  | string (s : String) : DistinctKeys (.string s)
  | sequence {items : List Value} :
      (∀ item ∈ items, DistinctKeys item) → DistinctKeys (.sequence items)
  | mapping {entries : List (Value × Value)} :
      (entries.map (·.1)).Pairwise (fun earlier later => later.same earlier = false) →
      (∀ entry ∈ entries, DistinctKeys entry.1) → (∀ entry ∈ entries, DistinctKeys entry.2) →
      DistinctKeys (.mapping entries)
  | tagged {tag : String} {content : Value} :
      DistinctKeys content → DistinctKeys (.tagged tag content)

theorem Value.distinctKeys_nil : (Value.mapping []).DistinctKeys :=
  .mapping .nil (by simp) (by simp)

theorem Value.DistinctKeys.untag {v : Value} (h : v.DistinctKeys) : v.untag.DistinctKeys := by
  induction h with
  | null => exact .null
  | bool b => exact .bool b
  | number n => exact .number n
  | string s => exact .string s
  | sequence hitems => exact .sequence hitems
  | mapping hpairwise hkeys hvalues => exact .mapping hpairwise hkeys hvalues
  | tagged _ ih => exact ih

theorem Scalar.distinctKeys_of_value? {scalar : Scalar} {v : Value} (h : scalar.value? = some v) :
    v.DistinctKeys := by
  cases scalar with
  | null => cases h; exact .null
  | bool b => cases h; exact .bool b
  | integer n => cases h; exact .number _
  | wideInteger n => cases h
  | float x => cases h; exact .number _
  | string s => cases h; exact .string s

namespace Content.Decode

/-- Keys that differ from each other and from those before them. -/
def Fresh (before : List Value) (entries : List (Value × Value)) : Prop :=
  (entries.map (·.1)).Pairwise (fun earlier later => later.same earlier = false) ∧
    ∀ entry ∈ entries, ∀ key ∈ before, entry.1.same key = false

theorem fresh_nil (before : List Value) : Fresh before [] :=
  ⟨.nil, by simp⟩

theorem fresh_cons {before : List Value} {key value : Value} {rest : List (Value × Value)}
    (hkey : ∀ k ∈ before, key.same k = false) (h : Fresh (key :: before) rest) :
    Fresh before ((key, value) :: rest) := by
  obtain ⟨hpairwise, hbefore⟩ := h
  constructor
  · rw [List.map_cons, List.pairwise_cons]
    refine ⟨?_, hpairwise⟩
    intro later hlater
    obtain ⟨entry, hentry, rfl⟩ := List.mem_map.mp hlater
    exact hbefore entry hentry key (List.mem_cons_self ..)
  · intro entry hentry k hk
    rcases List.mem_cons.mp hentry with rfl | hrest
    · exact hkey k hk
    · exact hbefore entry hrest k (List.mem_cons_of_mem _ hk)

/-- What reading of at most `n` steps gives, for each of the readers of values. -/
structure ReadsKeys (stream : Stream) (n : Nat) : Prop where
  value : ∀ path depth, Yields (value stream .value n path depth) Value.DistinctKeys
  ofEvent : ∀ path depth event mark tagged,
    Yields (ofEvent stream .value n path depth event mark tagged) Value.DistinctKeys
  items : ∀ path depth index,
    Yields (items stream .value n path depth index) fun items =>
      ∀ item ∈ items, item.DistinctKeys
  entries : ∀ path depth before,
    Yields (entries stream .value n path depth before) fun entries =>
      Fresh before entries ∧ ∀ entry ∈ entries, entry.1.DistinctKeys ∧ entry.2.DistinctKeys

namespace ReadsKeys

variable {stream : Stream} {n : Nat}

theorem zero : ReadsKeys stream 0 where
  value _ _ := by
    rw [Decode.value]
    exact .throw _
  ofEvent _ _ _ _ _ := by
    rw [Decode.ofEvent]
    exact .throw _
  items _ _ _ := by
    rw [Decode.items]
    exact .throw _
  entries _ _ _ := by
    rw [Decode.entries]
    exact .throw _

/-- A mapping with just the entries that were read for it. -/
theorem mapping (h : ReadsKeys stream n) (path : Path) (depth : Nat) :
    Yields (Decode.entries stream .value n path depth []) fun entries =>
      (Value.mapping entries).DistinctKeys := by
  intro cursor entries after hentries
  obtain ⟨hfresh, hinner⟩ := h.entries path depth [] cursor entries after hentries
  exact .mapping hfresh.1 (fun entry hentry => (hinner entry hentry).1)
    fun entry hentry => (hinner entry hentry).2

theorem ofEvent_succ (h : ReadsKeys stream n) (path : Path) (depth : Nat) (event : Event)
    (mark : Mark) (tagged : Bool) :
    Yields (Decode.ofEvent stream .value (n + 1) path depth event mark tagged)
      Value.DistinctKeys := by
  unfold Decode.ofEvent
  refine Yields.placed ?_ path mark
  dsimp only
  split
  · refine Yields.guarded (Yields.guarded ?_)
    exact (h.ofEvent path depth event mark true).bind fun _ hcontent =>
      .pure (.tagged hcontent)
  · cases event with
    | reference number => exact Yields.follow (h.value path depth) stream number
    | scalar isPlain tag text =>
      dsimp only
      split
      · exact .throw _
      · split
        · rename_i v hv
          exact .pure (Scalar.distinctKeys_of_value? hv)
        · exact .throw _
    | sequenceStart tag =>
      exact Yields.bind_right fun depth =>
        (h.items path depth 0).bind fun _ hitems => .pure (.sequence hitems)
    | mappingStart tag =>
      exact Yields.bind_right fun depth =>
        (h.mapping path depth).bind fun _ hentries => .pure hentries
    | absent => exact .pure .null
    | sequenceEnd => exact .throw _
    | mappingEnd => exact .throw _

theorem items_succ (h : ReadsKeys stream n) (path : Path) (depth index : Nat) :
    Yields (Decode.items stream .value (n + 1) path depth index) fun items =>
      ∀ item ∈ items, item.DistinctKeys := by
  rw [Decode.items]
  refine Yields.bind_right fun next => ?_
  split
  · exact Yields.bind_right fun _ => .pure (by simp)
  · exact Yields.bind_right fun _ => .pure (by simp)
  · refine (h.value _ depth).bind fun item hitem => ?_
    exact (h.items path depth (index + 1)).bind fun rest hrest =>
      .pure (List.forall_mem_cons.mpr ⟨hitem, hrest⟩)

theorem entries_succ (h : ReadsKeys stream n) (path : Path) (depth : Nat) (before : List Value) :
    Yields (Decode.entries stream .value (n + 1) path depth before) fun entries =>
      Fresh before entries ∧ ∀ entry ∈ entries, entry.1.DistinctKeys ∧ entry.2.DistinctKeys := by
  rw [Decode.entries]
  refine Yields.bind_right fun next => ?_
  have hentry (segment : Segment) : Yields
      (do
        let key ← Decode.value stream .value n path depth
        if Reading.value.uniqueKeys && before.any key.same then
          mismatch (.duplicateEntry key)
        let v ← Decode.value stream .value n (segment :: path) depth
        return (key, v) :: (← Decode.entries stream .value n path depth (key :: before)))
      fun entries =>
        Fresh before entries ∧ ∀ entry ∈ entries, entry.1.DistinctKeys ∧ entry.2.DistinctKeys := by
    refine (h.value path depth).bind fun key hkey => ?_
    by_cases hknown : before.any key.same
    · rw [hknown]
      exact (Yields.throw _ : Yields _ fun _ => False).bind fun _ h => h.elim
    · have hfresh : ∀ k ∈ before, key.same k = false := by
        simpa using hknown
      simp only [hknown, Bool.and_false, Bool.false_eq_true, if_false]
      refine (h.value _ depth).bind fun v hv => ?_
      refine (h.entries path depth (key :: before)).bind fun rest hrest => ?_
      exact .pure ⟨fresh_cons hfresh hrest.1, List.forall_mem_cons.mpr ⟨⟨hkey, hv⟩, hrest.2⟩⟩
  split
  · exact Yields.bind_right fun _ => .pure ⟨fresh_nil before, by simp⟩
  · exact Yields.bind_right fun _ => .pure ⟨fresh_nil before, by simp⟩
  · exact hentry _

theorem succ (h : ReadsKeys stream n) : ReadsKeys stream (n + 1) where
  value path depth := by
    rw [Decode.value]
    refine Yields.bind_right fun next => ?_
    obtain ⟨event, mark⟩ := next
    exact h.ofEvent path depth event mark false
  ofEvent := h.ofEvent_succ
  items := h.items_succ
  entries := h.entries_succ

end ReadsKeys

theorem readsKeys (stream : Stream) : ∀ n, ReadsKeys stream n
  | 0 => .zero
  | n + 1 => (readsKeys stream n).succ

theorem mapping_distinctKeys (stream : Stream) (path : Path) (depth : Nat) :
    Yields (mapping stream path depth) fun entries => (Value.mapping entries).DistinctKeys := by
  have hstart (event : Event) (mark : Mark) :
      Yields (mapping.ofStart stream path depth event mark) fun entries =>
        (Value.mapping entries).DistinctKeys := by
    refine Yields.placed ?_ path mark
    split
    · exact Yields.bind_right fun depth => (readsKeys stream _).mapping path depth
    · exact Yields.pure Value.distinctKeys_nil
    · exact Yields.pure Value.distinctKeys_nil
    · exact Yields.wrongEvent event _
  unfold mapping
  refine Yields.bind_right fun (event, mark) => ?_
  dsimp only
  split
  · exact (Yields.follow (Yields.bind_right fun _ => hstart _ _) stream _).placed path _
  · exact hstart _ _

end Content.Decode

end ProcessLint.Yaml
