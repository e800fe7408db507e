import Mathlib.Data.List.Forall2
import ProcessLint.Yaml.Content.Values

/-!
Properties of whatever a reader gives when it succeeds: for results that may be errors, for steps
that keep an invariant of their state, and for the decoding of events, whose cursor does not matter
here.
-/
namespace ProcessLint

theorem bind_eq_ok {ε α β : Type} {x : Except ε α} {f : α → Except ε β} {b : β}
    (h : (x >>= f) = .ok b) : ∃ a, x = .ok a ∧ f a = .ok b := by
  cases x with
  | error e => cases h
  | ok a => exact ⟨a, rfl, h⟩

theorem bind_eq_ok_iff {ε α β : Type} {x : Except ε α} {f : α → Except ε β} {b : β} :
    (x >>= f) = .ok b ↔ ∃ a, x = .ok a ∧ f a = .ok b := by
  constructor
  · exact bind_eq_ok
  · rintro ⟨a, rfl, h⟩
    exact h

/-- Every step of a loop succeeds, or the loop does not. -/
theorem forM_eq_ok {ε α : Type} {f : α → Except ε Unit} {xs : List α} :
    xs.forM f = .ok () ↔ ∀ x ∈ xs, f x = .ok () := by
  induction xs with
  | nil => simp [List.forM, pure, Except.pure]
  | cons x xs ih =>
    change (f x >>= fun _ => xs.forM f) = _ ↔ _
    rw [bind_eq_ok_iff, List.forall_mem_cons, ih]
    constructor
    · rintro ⟨_, hx, hxs⟩
      exact ⟨hx, hxs⟩
    · rintro ⟨hx, hxs⟩
      exact ⟨(), hx, hxs⟩

theorem bind_eq_error_iff {ε α β : Type} {x : Except ε α} {f : α → Except ε β} {e : ε} :
    (x >>= f) = .error e ↔ x = .error e ∨ ∃ a, x = .ok a ∧ f a = .error e := by
  cases x with
  | error e' => simp [bind, Except.bind]
  | ok a => simp [bind, Except.bind]

/-- A loop fails at the first step that does, with its error. -/
theorem forM_eq_error {ε α : Type} {f : α → Except ε Unit} {xs : List α} {e : ε} :
    xs.forM f = .error e ↔ ∃ before x after, xs = before ++ x :: after ∧
      (∀ y ∈ before, f y = .ok ()) ∧ f x = .error e := by
  induction xs with
  | nil => simp [List.forM, pure, Except.pure]
  | cons first xs ih =>
    change (f first >>= fun _ => xs.forM f) = _ ↔ _
    rw [bind_eq_error_iff, ih]
    constructor
    · rintro (hfirst | ⟨_, hfirst, before, x, after, rfl, hbefore, hx⟩)
      · exact ⟨[], first, xs, rfl, by simp, hfirst⟩
      · exact ⟨first :: before, x, after, rfl, List.forall_mem_cons.mpr ⟨hfirst, hbefore⟩, hx⟩
    · rintro ⟨_ | ⟨y, before⟩, x, after, heq, hbefore, hx⟩
      · cases heq
        exact .inl hx
      · cases heq
        obtain ⟨hfirst, hbefore⟩ := List.forall_mem_cons.mp hbefore
        exact .inr ⟨(), hfirst, before, x, after, rfl, hbefore, hx⟩

theorem mapError_eq_ok {ε ε' α : Type} {f : ε → ε'} {x : Except ε α} {a : α}
    (h : x.mapError f = .ok a) : x = .ok a := by
  cases x with
  | error e => cases h
  | ok b => exact congrArg Except.ok (Except.ok.inj h)

theorem map_eq_ok {ε α β : Type} {f : α → β} {x : Except ε α} {b : β}
    (h : f <$> x = .ok b) : ∃ a, x = .ok a ∧ f a = b := by
  cases x with
  | error e => cases h
  | ok a => exact ⟨a, rfl, Except.ok.inj h⟩

theorem eq_ok_iff_toOption {ε α : Type} {x : Except ε α} {a : α} :
    x = .ok a ↔ x.toOption = some a := by
  cases x <;> simp [Except.toOption]

/-- An error shows that what success comes down to does not hold. -/
theorem not_of_eq_error {ε α : Type} {x : Except ε α} {a : α} {e : ε} {p : Prop}
    (hiff : x = .ok a ↔ p) (h : x = .error e) : ¬ p := by
  intro hp
  rw [hiff.mpr hp] at h
  cases h

/-- The results of a successful `mapM` are those of the items, in order. -/
theorem forall₂_of_mapM {ε α β : Type} {f : α → Except ε β} :
    ∀ {xs : List α} {ys : List β}, xs.mapM f = .ok ys →
      List.Forall₂ (fun x y => f x = .ok y) xs ys
  | [], ys, h => by
    rw [List.mapM_nil] at h
    cases h
    exact .nil
  | x :: xs, ys, h => by
    rw [List.mapM_cons] at h
    obtain ⟨y, hy, h⟩ := bind_eq_ok h
    obtain ⟨rest, hrest, h⟩ := bind_eq_ok h
    cases h
    exact .cons hy (forall₂_of_mapM hrest)

theorem exists_of_mem_mapM {ε α β : Type} {f : α → Except ε β} {xs : List α} {ys : List β}
    (h : xs.mapM f = .ok ys) {y : β} (hy : y ∈ ys) : ∃ x ∈ xs, f x = .ok y := by
  have hread := forall₂_of_mapM h
  clear h
  induction hread with
  | nil => cases hy
  | @cons x _ xs _ hx _ ih =>
    rcases List.mem_cons.mp hy with rfl | hy
    · exact ⟨x, List.mem_cons_self .., hx⟩
    · obtain ⟨x', hx', hfound⟩ := ih hy
      exact ⟨x', List.mem_cons_of_mem x hx', hfound⟩

/-- From a state with the invariant a step that succeeds goes to one with it, and its result has a
property. -/
def Keeps {σ ε α : Type} (Inv : σ → Prop) (step : StateT σ (Except ε) α) (P : α → Prop) : Prop :=
  ∀ s a t, Inv s → step s = .ok (a, t) → Inv t ∧ P a

section Keeps

variable {σ ε α β : Type} {Inv : σ → Prop} {step : StateT σ (Except ε) α}
variable {next : α → StateT σ (Except ε) β} {P : α → Prop} {Q : β → Prop}

theorem Keeps.pure {a : α} (h : P a) : Keeps Inv (Pure.pure a : StateT σ (Except ε) α) P := by
  intro s b t hs hb
  cases hb
  exact ⟨hs, h⟩

theorem Keeps.bind (h : Keeps Inv step P) (hnext : ∀ a, P a → Keeps Inv (next a) Q) :
    Keeps Inv (step >>= next) Q := by
  intro s b t hs hb
  obtain ⟨⟨a, mid⟩, ha, hb⟩ := bind_eq_ok hb
  obtain ⟨hmid, hP⟩ := h s a mid hs ha
  exact hnext a hP mid b t hmid hb

/-- What comes first only has to keep the invariant. -/
theorem Keeps.after (hnext : ∀ a, Keeps Inv (next a) Q) (h : Keeps Inv step fun _ => True) :
    Keeps Inv (step >>= next) Q :=
  h.bind fun a _ => hnext a

theorem keeps_get_bind {next : σ → StateT σ (Except ε) β}
    (h : ∀ s, Inv s → Keeps Inv (next s) Q) : Keeps Inv (get >>= next) Q := by
  intro s b t hs hb
  exact h s hs s b t hs hb

theorem keeps_throw (error : ε) : Keeps Inv (throw error : StateT σ (Except ε) α) P := by
  intro s a t _ ha
  cases ha

theorem keeps_modify {f : σ → σ} (h : ∀ s, Inv s → Inv (f s)) :
    Keeps Inv (modify f : StateT σ (Except ε) PUnit) fun _ => True := by
  intro s a t hs ha
  cases ha
  exact ⟨h s hs, trivial⟩

theorem keeps_set {s : σ} (h : Inv s) :
    Keeps Inv (set s : StateT σ (Except ε) PUnit) fun _ => True := by
  intro _ a t _ ha
  cases ha
  exact ⟨h, trivial⟩

theorem Keeps.ite {c : Prop} [Decidable c] {other : StateT σ (Except ε) α} (h : Keeps Inv step P)
    (hother : Keeps Inv other P) : Keeps Inv (if c then step else other) P := by
  split
  · exact h
  · exact hother

/-- Something that is done only under a condition before the rest. -/
theorem Keeps.when {c : Prop} [Decidable c] {first : StateT σ (Except ε) Unit}
    {rest : Unit → StateT σ (Except ε) α} (h : Keeps Inv (rest ()) P)
    (hfirst : Keeps Inv first fun _ => True) :
    Keeps Inv (if c then first >>= rest else rest ()) P :=
  .ite (.after (fun _ => h) hfirst) h

end Keeps

namespace Yaml.Content.Decode

/-- Whatever a decoder gives has a property. -/
def Yields {α : Type} (decode : Decode α) (P : α → Prop) : Prop :=
  ∀ cursor a after, decode cursor = .ok (a, after) → P a

namespace Yields

variable {α β : Type} {P : α → Prop} {Q : β → Prop}

theorem of_true (decode : Decode α) : Yields decode fun _ => True :=
  fun _ _ _ _ => trivial

theorem pure {a : α} (h : P a) : Yields (Pure.pure a) P := by
  intro cursor b after hb
  cases hb
  exact h

theorem throw (fault : DecodeFault) : Yields (MonadExcept.throw fault : Decode α) P := by
  intro cursor b after hb
  cases hb

theorem bind {decode : Decode α} {next : α → Decode β} (h : Yields decode P)
    (hnext : ∀ a, P a → Yields (next a) Q) : Yields (decode >>= next) Q := by
  intro cursor b after hb
  obtain ⟨⟨a, mid⟩, ha, hb⟩ := bind_eq_ok hb
  exact hnext a (h cursor a mid ha) mid b after hb

/-- What comes first is of no account for the property. -/
theorem bind_right {decode : Decode α} {next : α → Decode β}
    (hnext : ∀ a, Yields (next a) Q) : Yields (decode >>= next) Q :=
  (of_true decode).bind fun a _ => hnext a

/-- A check that may refuse before the rest is read. -/
theorem guarded {c : Prop} [Decidable c] {refuse : Decode Unit} {rest : Unit → Decode α}
    (h : Yields (rest ()) P) : Yields (if c then refuse >>= rest else rest ()) P := by
  split
  · exact bind_right fun _ => h
  · exact h

theorem placed {decode : Decode α} (h : Yields decode P) (path : Path) (mark : Mark) :
    Yields (Decode.placed path mark decode) P := by
  intro cursor a after ha
  unfold Decode.placed at ha
  cases hd : decode cursor with
  | error fault => rw [hd] at ha; cases ha
  | ok result =>
    rw [hd] at ha
    cases ha
    exact h cursor a after hd

theorem follow {decode : Decode α} (h : Yields decode P) (stream : Stream) (number : Nat) :
    Yields (Decode.follow stream number decode) P := by
  refine bind_right fun c => guarded ?_
  split
  · exact throw _
  · exact bind_right fun _ => h.bind fun a ha => bind_right fun _ => pure ha

theorem optional {decode : Decode α} (h : Yields decode P) (stream : Stream) :
    Yields (Decode.optional stream decode) fun a? => ∀ a ∈ a?, P a := by
  have hstart (event : Event) :
      Yields (Decode.optional.ofStart decode event) fun a? => ∀ a ∈ a?, P a := by
    unfold Decode.optional.ofStart
    split
    · exact throw _
    · exact h.bind fun a ha => pure (by simpa using ha)
    · exact bind_right fun _ => pure (by simp)
  refine bind_right fun next => ?_
  split
  · exact bind_right fun _ => follow (bind_right fun _ => hstart _) stream _
  · exact hstart _

theorem wrongEvent (event : Event) (wanted : Wanted) :
    Yields (Decode.wrongEvent event wanted) P := by
  unfold Decode.wrongEvent
  split
  · split <;> exact throw _
  all_goals exact throw _

end Yields

end Yaml.Content.Decode

end ProcessLint
