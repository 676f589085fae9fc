import Mathlib.Algebra.Order.Ring.Nat
import Mathlib.Data.List.Basic

namespace Lethe

/-!
# Types shared by the cache subsystems

Storage tiers, content-addressed block identifiers, materialized blocks and the
metadata that eviction reads, together with `std::size_t` arithmetic.  Byte
counters are natural numbers that wrap exactly where the source's 64-bit
counters wrap.
-/

/-- Storage tier, fastest and smallest first. -/
inductive Tier where
  | hbm
  | dram
  | ssd
  deriving Repr, DecidableEq

/-- A 32-byte content digest. -/
structure Hash256 where
  bytes : List UInt8
  length_eq : bytes.length = 32
  deriving DecidableEq

/-- The digest whose bytes are all equal. -/
def Hash256.fill (byte : UInt8) : Hash256 :=
  ⟨List.replicate 32 byte, List.length_replicate⟩

/--
Identity of one KV block: the chained prefix hash and the disambiguators that
keep different layers, head groups and models apart.
-/
structure BlockId where
  hash : Hash256
  layer : UInt32
  headGroup : UInt32
  modelId : UInt32
  deriving DecidableEq

/-- A materialized block: identity, owned bytes, tier and insertion epoch. -/
structure KvBlock where
  id : BlockId
  data : List UInt8
  tier : Tier := .dram
  insertedEpoch : UInt64 := 0
  deriving DecidableEq

/-- Index entry of a stored block, without its payload. -/
structure BlockMeta where
  id : BlockId
  tier : Tier
  sizeBytes : Nat
  lastAccessEpoch : UInt64
  insertEpoch : UInt64
  visited : Bool
  deriving DecidableEq

/-- Number of distinct values of a 64-bit counter. -/
def sizeRange : Nat :=
  2 ^ 64

/-- Addition of `std::size_t` values. -/
def addSize (left right : Nat) : Nat :=
  (left + right) % sizeRange

/-- Subtraction of `std::size_t` values. -/
def subSize (left right : Nat) : Nat :=
  (left + (sizeRange - right % sizeRange)) % sizeRange

/-- Multiplication of `std::size_t` values. -/
def mulSize (left right : Nat) : Nat :=
  left * right % sizeRange

/-- Addition is exact when the sum fits the counter. -/
theorem addSize_of_lt
    {left right : Nat}
    (fits : left + right < sizeRange) :
    addSize left right = left + right :=
  Nat.mod_eq_of_lt fits

/-- Subtraction is exact when nothing is borrowed. -/
theorem subSize_of_le
    {left right : Nat}
    (ordered : right ≤ left)
    (fits : left < sizeRange) :
    subSize left right = left - right := by
  unfold subSize
  have rightFits : right % sizeRange = right :=
    Nat.mod_eq_of_lt (Nat.lt_of_le_of_lt ordered fits)
  have shape :
      left + (sizeRange - right % sizeRange) =
        left - right + sizeRange := by
    omega
  rw [shape, Nat.add_mod_right]
  exact Nat.mod_eq_of_lt (by omega)

end Lethe
