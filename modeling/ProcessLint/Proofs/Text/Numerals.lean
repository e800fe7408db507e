import Mathlib.Data.Nat.Digits.Defs
import ProcessLint.Text.Alphabetic
import ProcessLint.Text.Digits
import ProcessLint.Text.Space

/-!
Texts of decimal digits and the numbers that they write. Zeros in front do not change the number,
and there is no bound on how many digits there are. Digits are neither letters nor white space.
-/
namespace ProcessLint.Text

/-- One digit or more. -/
structure AreDigits (text : List Char) : Prop where
  ne_nil : text ≠ []
  digits : ∀ c ∈ text, c.isDigit = true

/-- Digits, the last of them for the ones, and the number that they write. -/
structure Writes (text : List Char) (n : Nat) : Prop extends AreDigits text where
  value : n = Nat.ofDigits 10 (text.reverse.map fun c => c.toNat - '0'.toNat)

variable {text : List Char}

theorem AreDigits.notMem (h : AreDigits text) {c : Char} (hc : c.isDigit = false) : c ∉ text := by
  intro hmem
  rw [h.digits c hmem] at hc
  cases hc

theorem areDigits_iff : AreDigits text ↔ isNumeral text = true := by
  unfold isNumeral
  rw [Bool.and_eq_true, List.all_eq_true, Bool.not_eq_true', List.isEmpty_eq_false_iff]
  exact ⟨fun h => ⟨h.ne_nil, h.digits⟩, fun h => ⟨h.1, h.2⟩⟩

theorem foldl_decimalValue (text : List Char) : ∀ start : Nat,
    text.foldl (fun acc c => acc * 10 + (c.toNat - 48)) start =
      start * 10 ^ text.length +
        Nat.ofDigits 10 (text.reverse.map fun c => c.toNat - '0'.toNat) := by
  induction text with
  | nil =>
    intro start
    simp
  | cons c text ih =>
    intro start
    rw [List.foldl_cons, ih, List.reverse_cons, List.map_append, Nat.ofDigits_append,
      List.length_map, List.length_reverse, List.length_cons, List.map_singleton,
      Nat.ofDigits_singleton, show '0'.toNat = 48 from rfl]
    ring

theorem writes_iff {n : Nat} : Writes text n ↔ isNumeral text = true ∧ decimalValue text = n := by
  have hvalue : decimalValue text =
      Nat.ofDigits 10 (text.reverse.map fun c => c.toNat - '0'.toNat) := by
    unfold decimalValue
    rw [foldl_decimalValue, Nat.zero_mul, Nat.zero_add]
  rw [← areDigits_iff, hvalue]
  constructor
  · intro h
    exact ⟨h.toAreDigits, h.value.symm⟩
  · rintro ⟨hdigits, hn⟩
    exact ⟨hdigits, hn.symm⟩

/-- Zero is written with nothing but zeros. -/
theorem writes_zero_iff : Writes text 0 ↔ text ≠ [] ∧ ∀ c ∈ text, c = '0' := by
  constructor
  · rintro ⟨⟨hne, hdigits⟩, hvalue⟩
    refine ⟨hne, fun c hc => ?_⟩
    have hzero : c.toNat - '0'.toNat = 0 := by
      refine Nat.digits_zero_of_eq_zero (by decide) hvalue.symm _ ?_
      exact List.mem_map.mpr ⟨c, List.mem_reverse.mpr hc, rfl⟩
    obtain ⟨hlow, -⟩ := Char.isDigit_iff_toNat.mp (hdigits c hc)
    exact Char.toNat_inj.mp (le_antisymm (Nat.sub_eq_zero_iff_le.mp hzero) hlow)
  · rintro ⟨hne, hzeros⟩
    have htext : text = List.replicate text.length '0' := List.eq_replicate_of_mem hzeros
    refine ⟨⟨hne, fun c hc => by rw [hzeros c hc]; rfl⟩, ?_⟩
    rw [htext, List.reverse_replicate, List.map_replicate, Nat.sub_self,
      Nat.ofDigits_replicate_zero]

/-- A number is written with digits only. -/
theorem areDigits_toString (n : Nat) : AreDigits (toString n).toList := by
  rw [Nat.toString_eq_repr, Nat.toList_repr]
  exact ⟨Nat.toDigits_ne_nil, fun _ => Nat.isDigit_of_mem_toDigits (by decide) (by decide)⟩

theorem eq_of_toString_eq {m n : Nat} (h : toString m = toString n) : m = n := by
  have hdigits := congrArg String.toList h
  rw [Nat.toString_eq_repr, Nat.toString_eq_repr, Nat.toList_repr, Nat.toList_repr] at hdigits
  simpa using congrArg (Nat.ofDigitChars 10 · 0) hdigits

section Classes

variable {c : Char}

/-- Letters begin behind the digits. -/
theorem isAlphabetic_of_isDigit (h : c.isDigit = true) : isAlphabetic c = false := by
  obtain ⟨-, hnine⟩ := Char.isDigit_iff_toNat.mp h
  have hnine : c.toNat ≤ 57 := hnine
  unfold isAlphabetic CodeRanges.contains alphabeticRanges CodeRanges.containsCode
  rw [if_pos (by omega)]

theorem isDigit_of_isAlphabetic (h : isAlphabetic c = true) : c.isDigit = false := by
  by_contra hdigit
  rw [isAlphabetic_of_isDigit (by simpa using hdigit)] at h
  cases h

theorem isSpace_of_isDigit (h : c.isDigit = true) : isSpace c = false := by
  obtain ⟨hzero, hnine⟩ := Char.isDigit_iff_toNat.mp h
  have hzero : 48 ≤ c.toNat := hzero
  have hnine : c.toNat ≤ 57 := hnine
  unfold isSpace
  simp
  omega

end Classes

end ProcessLint.Text
