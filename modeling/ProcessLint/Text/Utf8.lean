/-!
UTF-8: bytes to text, and the first place where bytes are no UTF-8. A fault is the longest start
of a well-formed character that the next byte breaks off (one to three bytes), or a character
that the end of the bytes cuts short.
-/
namespace ProcessLint.Text.Utf8

inductive Fault where
  /-- The `length` bytes from `index` start no character. -/
  | invalid (length index : Nat)
  /-- The bytes end inside the character that starts at `index`. -/
  | incomplete (index : Nat)
  deriving DecidableEq, Repr

def Fault.message : Fault → String
  | .invalid length index => s!"invalid utf-8 sequence of {length} bytes from index {index}"
  | .incomplete index => s!"incomplete utf-8 byte sequence from index {index}"

/-- Bounds of the bytes that may follow the first byte of a longer character, in order. `none` if
no longer character starts with this byte. -/
def followers? (first : Nat) : Option (List (Nat × Nat)) :=
  let tail := (0x80, 0xBF)
  if 0xC2 ≤ first ∧ first ≤ 0xDF then some [tail]
  else if first = 0xE0 then some [(0xA0, 0xBF), tail]
  else if first = 0xED then some [(0x80, 0x9F), tail]
  else if 0xE1 ≤ first ∧ first ≤ 0xEF then some [tail, tail]
  else if first = 0xF0 then some [(0x90, 0xBF), tail, tail]
  else if first = 0xF4 then some [(0x80, 0x8F), tail, tail]
  else if 0xF1 ≤ first ∧ first ≤ 0xF3 then some [tail, tail, tail]
  else none

/-- How reading the bytes that should follow a first byte ends. -/
inductive Following where
  | complete
  | broken (matched : Nat)
  | cutShort

def follow (matched : Nat) : List (Nat × Nat) → List UInt8 → Following
  | [], _ => .complete
  | _ :: _, [] => .cutShort
  | (low, high) :: bounds, byte :: bytes =>
      if low ≤ byte.toNat ∧ byte.toNat ≤ high then follow (matched + 1) bounds bytes
      else .broken matched

/-- The first fault of bytes that stand at `index`; `skip` of them belong to a character that has
been checked already. -/
def faultFrom? (index skip : Nat) : List UInt8 → Option Fault
  | [] => none
  | byte :: bytes =>
      match skip with
      | skip + 1 => faultFrom? (index + 1) skip bytes
      | 0 =>
          if byte.toNat < 0x80 then faultFrom? (index + 1) 0 bytes
          else match followers? byte.toNat with
            | none => some (.invalid 1 index)
            | some bounds =>
                match follow 1 bounds bytes with
                | .complete => faultFrom? (index + 1) bounds.length bytes
                | .broken matched => some (.invalid matched index)
                | .cutShort => some (.incomplete index)

def fault? (bytes : ByteArray) : Option Fault := faultFrom? 0 0 bytes.toList

/-- The text that the bytes encode, or their first fault. -/
def decode (bytes : ByteArray) : Except Fault String :=
  match String.fromUTF8? bytes with
  | some text => .ok text
  | none => .error ((fault? bytes).getD (.incomplete bytes.size))

end ProcessLint.Text.Utf8
