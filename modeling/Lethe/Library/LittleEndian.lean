import Mathlib.Data.Nat.Log
import Mathlib.Tactic.Ring

namespace LittleEndian

/-!
# Little-endian byte strings

Fixed-width integers are laid out least significant byte first.  Encoding is
truncating, exactly as a cast to a narrower machine word is; decoding accepts
any byte string.  The two are mutually inverse on strings of the right width.
-/

/-- The `width` low-order bytes of a number, least significant first. -/
def encode : Nat → Nat → List UInt8
  | 0, _ => []
  | width + 1, value =>
      UInt8.ofNat value :: encode width (value / 256)

/-- The number spelled by a byte string, least significant byte first. -/
def decode : List UInt8 → Nat
  | [] => 0
  | byte :: rest =>
      byte.toNat + 256 * decode rest

@[simp] theorem length_encode
    (width value : Nat) :
    (encode width value).length = width := by
  induction width generalizing value with
  | zero =>
      rfl
  | succ width inductionHypothesis =>
      simp [encode, inductionHypothesis]

/-- Decoding an encoded number returns it up to the truncation of the width. -/
theorem decode_encode
    (width value : Nat) :
    decode (encode width value) = value % 256 ^ width := by
  induction width generalizing value with
  | zero =>
      simp [encode, decode, Nat.mod_one]
  | succ width inductionHypothesis =>
      have lowByte : (UInt8.ofNat value).toNat = value % 256 := by
        simp
      simp only [encode, decode, inductionHypothesis, lowByte]
      rw [Nat.pow_succ, Nat.mul_comm (256 ^ width) 256, Nat.mod_mul]

/-- A number that fits the width survives an encode and decode round trip. -/
theorem decode_encode_of_lt
    {width value : Nat}
    (fits : value < 256 ^ width) :
    decode (encode width value) = value := by
  rw [decode_encode, Nat.mod_eq_of_lt fits]

/-- A 32-bit word survives its four-byte encoding. -/
theorem ofNat_decode_encode_word32
    (value : UInt32) :
    UInt32.ofNat (decode (encode 4 value.toNat)) = value := by
  have fits : value.toNat < 256 ^ 4 := value.toNat_lt
  rw [decode_encode_of_lt fits, UInt32.ofNat_toNat]

/-- A 64-bit word survives its eight-byte encoding. -/
theorem ofNat_decode_encode_word64
    (value : UInt64) :
    UInt64.ofNat (decode (encode 8 value.toNat)) = value := by
  have fits : value.toNat < 256 ^ 8 := value.toNat_lt
  rw [decode_encode_of_lt fits, UInt64.ofNat_toNat]

end LittleEndian
