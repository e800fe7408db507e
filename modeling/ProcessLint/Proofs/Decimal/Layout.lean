import ProcessLint.Proofs.Text.Numerals
import ProcessLint.Yaml.Value

/-!
How numbers are written has no white space in it: there are only digits, signs, a point, the letter
before an exponent, and the words for what is no finite number.
-/
namespace ProcessLint

open Text

/-- How the text of a negative number starts. -/
theorem toList_minus_append (s : String) : ("-" ++ s).toList = '-' :: s.toList := by
  rw [String.toList_append]
  rfl

section Digits

variable {digits : List Char} {c : Char}

theorem isSpace_of_mem_toDigits {n : Nat} (h : c ∈ Nat.toDigits 10 n) : isSpace c = false :=
  isSpace_of_isDigit (Nat.isDigit_of_mem_toDigits (by omega) (by omega) h)

theorem isSpace_of_mem_toString {n : Int} (h : c ∈ (toString n).toList) : isSpace c = false := by
  cases n with
  | ofNat n =>
    have hdigits : (toString (Int.ofNat n)).toList = Nat.toDigits 10 n := String.toList_ofList
    rw [hdigits] at h
    exact isSpace_of_mem_toDigits h
  | negSucc n =>
    have hdigits : (toString (Int.negSucc n)).toList = '-' :: Nat.toDigits 10 (n + 1) := by
      change ("-" ++ String.ofList (Nat.toDigits 10 (n + 1))).toList = _
      rw [toList_minus_append, String.toList_ofList]
    rw [hdigits] at h
    rcases List.mem_cons.mp h with rfl | h
    · decide
    · exact isSpace_of_mem_toDigits h

end Digits

namespace Decimal

variable {digits : List Char} {power : Int}

theorem isSpace_of_mem_positional (hdigits : ∀ c ∈ digits, isSpace c = false) :
    ∀ c ∈ positional digits power, isSpace c = false := by
  have hzeros (n : Nat) : ∀ c ∈ List.replicate n '0', isSpace c = false := by
    intro c hc
    rw [List.eq_of_mem_replicate hc]
    decide
  unfold positional
  dsimp only
  split
  · simp only [List.forall_mem_append]
    exact ⟨⟨hdigits, hzeros _⟩, by simp [isSpace]⟩
  · split
    · simp only [List.forall_mem_append, List.forall_mem_cons]
      exact ⟨fun c hc => hdigits c (List.mem_of_mem_take hc), by decide,
        fun c hc => hdigits c (List.mem_of_mem_drop hc)⟩
    · simp only [List.forall_mem_append, List.forall_mem_cons]
      exact ⟨⟨by decide, by decide, hzeros _⟩, hdigits⟩

theorem isSpace_of_mem_scientific (hdigits : ∀ c ∈ digits, isSpace c = false) :
    ∀ c ∈ scientific digits power, isSpace c = false := by
  have hexponent (n : Int) : ∀ c ∈ 'e' :: (toString n).toList, isSpace c = false :=
    List.forall_mem_cons.mpr ⟨by decide, fun c hc => isSpace_of_mem_toString hc⟩
  unfold scientific
  dsimp only
  split
  · exact List.forall_mem_cons.mpr ⟨hdigits _ (List.mem_singleton_self _), hexponent _⟩
  · obtain ⟨hd, hrest⟩ := List.forall_mem_cons.mp hdigits
    refine List.forall_mem_append.mpr ⟨?_, hexponent _⟩
    exact List.forall_mem_cons.mpr ⟨hd, List.forall_mem_cons.mpr ⟨by decide, hrest⟩⟩
  · simp

theorem Layout.isSpace_of_mem_write (layout : Layout)
    (hnan : ∀ c ∈ layout.nanText.toList, isSpace c = false)
    (hinfinity : ∀ c ∈ layout.infinityText.toList, isSpace c = false) (x : Binary64) :
    ∀ c ∈ (layout.write x).toList, isSpace c = false := by
  have hsign (negative : Bool) {text : List Char} (h : ∀ c ∈ text, isSpace c = false) :
      ∀ c ∈ if negative then '-' :: text else text, isSpace c = false := by
    split
    · exact List.forall_mem_cons.mpr ⟨by decide, h⟩
    · exact h
  cases x with
  | nan => exact hnan
  | infinite negative =>
    cases negative with
    | false => exact hinfinity
    | true =>
      change ∀ c ∈ ("-" ++ layout.infinityText).toList, isSpace c = false
      rw [toList_minus_append]
      exact hsign true hinfinity
  | finite negative mantissa exponent =>
    unfold Layout.write
    dsimp only
    rw [String.toList_ofList]
    refine hsign negative ?_
    have hdigits (n : Nat) : ∀ c ∈ Nat.toDigits 10 n, isSpace c = false :=
      fun c hc => isSpace_of_mem_toDigits hc
    split
    · exact isSpace_of_mem_positional (hdigits _)
    · exact isSpace_of_mem_scientific (hdigits _)

end Decimal

theorem Yaml.Number.isSpace_of_mem_text (n : Yaml.Number) :
    ∀ c ∈ n.text.toList, isSpace c = false := by
  cases n with
  | integer n => exact fun c hc => isSpace_of_mem_toString hc
  | float x =>
    refine Yaml.Number.layout.isSpace_of_mem_write ?_ ?_ x
    · simp [Yaml.Number.layout, isSpace]
    · simp [Yaml.Number.layout, isSpace]

end ProcessLint
