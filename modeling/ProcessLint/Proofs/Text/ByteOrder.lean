import Mathlib.Tactic.SplitIfs

/-!
Strings are ordered like their bytes. UTF-8 was made so: the encodings of two characters differ in
a byte, and the first that differs is in the order of the characters.
-/
namespace ProcessLint.Text

/-- Whatever comes behind two different characters does not matter. -/
theorem utf8EncodeChar_append_lt {c d : Char} (h : c < d) (rest rest' : List UInt8) :
    String.utf8EncodeChar c ++ rest < String.utf8EncodeChar d ++ rest' := by
  have hlt : c.val.toNat < d.val.toNat := h
  have hvalid := d.valid
  unfold UInt32.isValidChar Nat.isValidChar at hvalid
  simp only [String.utf8EncodeChar]
  generalize c.val.toNat = v at *
  generalize d.val.toNat = w at *
  have hw : w < 1114112 := by omega
  -- The digits of one number to the base 64 are the digits of its quotient before the last one.
  have hquotients (n : Nat) : n / 4096 = n / 64 / 64 ∧ n / 262144 = n / 64 / 64 / 64 := by omega
  -- A longer encoding starts with a greater byte; in encodings of one length the digits decide.
  split_ifs <;>
    simp only [List.cons_append, List.nil_append, List.cons_lt_cons_iff, UInt8.lt_iff_toNat_lt,
      ← UInt8.toNat_inj, UInt8.toNat_ofNat', hquotients] <;>
    omega

theorem flatMap_utf8EncodeChar_lt {text : List Char} :
    ∀ {other : List Char}, text < other →
      text.flatMap String.utf8EncodeChar < other.flatMap String.utf8EncodeChar := by
  induction text with
  | nil =>
    intro other h
    cases other with
    | nil => exact absurd h (List.lt_irrefl _)
    | cons d other =>
      rw [List.flatMap_nil, List.flatMap_cons]
      cases hd : String.utf8EncodeChar d with
      | nil => exact absurd hd String.utf8EncodeChar_ne_nil
      | cons byte bytes => exact List.nil_lt_cons _ _
  | cons c text ih =>
    intro other h
    cases other with
    | nil => exact absurd h (List.not_lt_nil _)
    | cons d other =>
      rw [List.flatMap_cons, List.flatMap_cons]
      rcases List.cons_lt_cons_iff.mp h with hcd | ⟨rfl, hrest⟩
      · exact utf8EncodeChar_append_lt hcd _ _
      · exact List.append_left_lt (ih hrest)

/-- The bytes of a string. -/
def bytes (s : String) : List UInt8 := s.toUTF8.data.toList

theorem bytes_eq_flatMap (s : String) : bytes s = s.toList.flatMap String.utf8EncodeChar := by
  unfold bytes
  rw [String.toUTF8_eq_toByteArray, ← String.utf8Encode_toList]
  simp [List.utf8Encode]

/-- One string is before another just if its bytes are. -/
theorem lt_iff_bytes_lt {s t : String} : s < t ↔ bytes s < bytes t := by
  have hmono {a b : String} (h : a < b) : bytes a < bytes b := by
    rw [bytes_eq_flatMap, bytes_eq_flatMap]
    exact flatMap_utf8EncodeChar_lt h
  constructor
  · exact hmono
  · intro h
    refine String.not_le.mp fun hle => ?_
    by_cases hts : t < s
    · exact List.lt_asymm h (hmono hts)
    · rw [String.le_antisymm hle (String.not_lt.mp hts)] at h
      exact List.lt_irrefl _ h

theorem bytes_lt_iff_le {s t : String} (hne : s ≠ t) : bytes s < bytes t ↔ s ≤ t := by
  rw [← lt_iff_bytes_lt]
  exact ⟨fun hlt => String.not_lt.mp (String.lt_asymm hlt),
    fun hle => String.not_le.mp fun hge => hne (String.le_antisymm hle hge)⟩

end ProcessLint.Text
