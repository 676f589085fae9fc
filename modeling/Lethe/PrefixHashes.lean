import Lethe.Connector
import Lethe.Library.DigestChain

namespace Lethe

/-!
# Chained hashes identify prefixes

A client names a block of tokens by a hash that covers every token before it.
Equal prefixes have equal hashes because the chain is a function of the blocks
up to a position.  The converse unrolls two chains from their last hashes: the
strings that were hashed are equal or collide, and a chain that ends before the
other one would make the initial hash, 32 zero bytes, a digest.
-/

/-- Chained hashes of all blocks of a token sequence, a last short one too. -/
def prefixBlockIds
    (blake3 : List UInt8 → Hash256)
    (tokenIds : List UInt32)
    (blockSize : Nat)
    (initialHash : Hash256 := .fill 0) :
    List Hash256 :=
  hashChain blake3 initialHash
    (promptBlocks blockSize tokenIds
      ((tokenIds.length + blockSize - 1) / blockSize))

/-- Bytes of a block of tokens, four for each token. -/
def packTokens
    (blockTokens : List UInt32) :
    List UInt8 :=
  blockTokens.flatMap fun token => LittleEndian.encode 4 token.toNat

/-- The byte string that is hashed for a block. -/
def chainedInput
    (prevHash : Hash256)
    (blockTokens : List UInt32) :
    List UInt8 :=
  prevHash.bytes ++ packTokens blockTokens

/-- Tokens are read back from their bytes. -/
theorem packTokens_injective :
    Function.Injective packTokens := by
  intro first
  induction first with
  | nil =>
      intro second same
      cases second with
      | nil =>
          rfl
      | cons token rest =>
          have lengths := congrArg List.length same
          simp only [packTokens, List.flatMap_nil, List.flatMap_cons,
            List.length_nil, List.length_append,
            LittleEndian.length_encode] at lengths
          omega
  | cons token rest inductionHypothesis =>
      intro second same
      cases second with
      | nil =>
          have lengths := congrArg List.length same
          simp only [packTokens, List.flatMap_nil, List.flatMap_cons,
            List.length_nil, List.length_append,
            LittleEndian.length_encode] at lengths
          omega
      | cons other others =>
          simp only [packTokens, List.flatMap_cons] at same
          obtain ⟨head, tail⟩ := List.append_inj same (by simp)
          have tokens : token = other := by
            rw [← LittleEndian.ofNat_decode_encode_word32 token, head,
              LittleEndian.ofNat_decode_encode_word32]
          rw [tokens, inductionHypothesis tail]

/-- The hash before a block and its tokens are read back from the string. -/
theorem chainedInput_injective
    {prevHash other : Hash256}
    {blockTokens otherTokens : List UInt32}
    (same :
      chainedInput prevHash blockTokens = chainedInput other otherTokens) :
    prevHash = other ∧ blockTokens = otherTokens := by
  have widths : prevHash.bytes.length = other.bytes.length := by
    rw [prevHash.length_eq, other.length_eq]
  obtain ⟨hashes, tokens⟩ := List.append_inj same widths
  refine ⟨?_, packTokens_injective tokens⟩
  cases prevHash
  cases other
  simpa using hashes

/-- A position of a chain holds the last hash of the blocks up to it. -/
theorem hashChain_getElem?
    (blake3 : List UInt8 → Hash256)
    (running : Hash256)
    (blocks : List (List UInt32))
    {index : Nat}
    (inside : index < blocks.length) :
    (hashChain blake3 running blocks)[index]? =
      some
        (DigestChain.last blake3 chainedInput running
          (blocks.take (index + 1))) := by
  induction blocks generalizing running index with
  | nil =>
      simp at inside
  | cons block rest inductionHypothesis =>
      cases index with
      | zero =>
          rfl
      | succ index =>
          have restInside : index < rest.length := by
            simpa using inside
          exact inductionHypothesis (chainedBlockHash blake3 running block)
            restInside

section Blocks

variable
  (blockSize : Nat)
  (tokenIds : List UInt32)

/-- The blocks of a prompt, joined, are its leading tokens. -/
theorem flatten_promptBlocks
    (count : Nat) :
    (promptBlocks blockSize tokenIds count).flatten =
      tokenIds.take (count * blockSize) := by
  induction count with
  | zero =>
      simp [promptBlocks]
  | succ count inductionHypothesis =>
      have lastBlock :
          promptBlocks blockSize tokenIds (count + 1) =
            promptBlocks blockSize tokenIds count ++
              [(tokenIds.drop (count * blockSize)).take blockSize] := by
        simp [promptBlocks, List.range_succ]
      rw [lastBlock, List.flatten_append, inductionHypothesis,
        Nat.succ_mul, List.take_add]
      simp

/-- Leading blocks depend only on the tokens they cover. -/
theorem promptBlocks_take_tokens
    (count : Nat) :
    promptBlocks blockSize (tokenIds.take (count * blockSize)) count =
      promptBlocks blockSize tokenIds count := by
  unfold promptBlocks
  refine List.map_congr_left ?_
  intro index member
  have below : index + 1 ≤ count := List.mem_range.mp member
  have covered : index * blockSize + blockSize ≤ count * blockSize := by
    calc
      index * blockSize + blockSize = (index + 1) * blockSize := by ring
      _ ≤ count * blockSize := Nat.mul_le_mul_right _ below
  rw [List.drop_take, List.take_take]
  congr 1
  omega

end Blocks

section Positions

variable
  {blake3 : List UInt8 → Hash256}
  {tokenIds : List UInt32}
  {blockSize index : Nat}

/-- The strings hashed for the blocks of a sequence up to a position. -/
def hashedStrings
    (blake3 : List UInt8 → Hash256)
    (tokenIds : List UInt32)
    (blockSize index : Nat) :
    List (List UInt8) :=
  DigestChain.inputs blake3 chainedInput (.fill 0)
    (promptBlocks blockSize tokenIds (index + 1))

/-- Every position of the list has its hash from the blocks up to it. -/
theorem prefixBlockIds_getElem?
    (inside : index < (prefixBlockIds blake3 tokenIds blockSize).length) :
    (prefixBlockIds blake3 tokenIds blockSize)[index]? =
      some
        (DigestChain.last blake3 chainedInput (.fill 0)
          (promptBlocks blockSize tokenIds (index + 1))) := by
  have counted :
      index < (tokenIds.length + blockSize - 1) / blockSize := by
    simpa [prefixBlockIds, promptBlocks] using inside
  rw [prefixBlockIds, hashChain_getElem?, take_promptBlocks]
  · exact counted
  · simpa [promptBlocks] using counted

end Positions

/--
Token prefixes that agree have equal hashes.  Equal hashes come from equal
positions and equal prefixes, or the two computations exhibit a collision or a
digest of 32 zero bytes.
-/
theorem prefix_hashes_identify_prefixes
    (blake3 : List UInt8 → Hash256)
    (blockSize : Nat)
    (xs ys : List UInt32)
    (i j : Nat)
    (inFirst : i < (prefixBlockIds blake3 xs blockSize).length)
    (inSecond : j < (prefixBlockIds blake3 ys blockSize).length) :
    (i < (prefixBlockIds blake3 ys blockSize).length →
      xs.take ((i + 1) * blockSize) = ys.take ((i + 1) * blockSize) →
      (prefixBlockIds blake3 xs blockSize)[i]? =
        (prefixBlockIds blake3 ys blockSize)[i]?) ∧
    ((prefixBlockIds blake3 xs blockSize)[i]? =
        (prefixBlockIds blake3 ys blockSize)[j]? →
      (i = j ∧
        xs.take ((i + 1) * blockSize) = ys.take ((j + 1) * blockSize)) ∨
      DigestChain.Exhibits blake3 (.fill 0)
        (hashedStrings blake3 xs blockSize i)
        (hashedStrings blake3 ys blockSize j)) := by
  constructor
  · intro inside agree
    rw [prefixBlockIds_getElem? inFirst, prefixBlockIds_getElem? inside,
      ← promptBlocks_take_tokens blockSize xs, agree,
      promptBlocks_take_tokens]
  · intro same
    rw [prefixBlockIds_getElem? inFirst, prefixBlockIds_getElem? inSecond,
      Option.some_inj] at same
    rcases DigestChain.blocks_eq_of_last_eq chainedInput_injective _ _ _ same
      with blocks | exhibits
    · left
      have counts : i + 1 = j + 1 := by
        simpa [promptBlocks] using congrArg List.length blocks
      have tokens := congrArg List.flatten blocks
      rw [flatten_promptBlocks, flatten_promptBlocks] at tokens
      exact ⟨Nat.succ.inj counts, tokens⟩
    · exact Or.inr exhibits

/-- A digest that tells nothing apart. -/
def constantDigest
    (_ : List UInt8) :
    Hash256 :=
  .fill 1

/--
Two sequences with the same first block have the same first hash.  Under a
constant digest the second hash of one equals the first hash of the other, and
the two computations show it.
-/
theorem prefix_hashes_identify_prefixes_constant_digest :
    (prefixBlockIds constantDigest [1, 2, 3] 2)[0]? =
        (prefixBlockIds constantDigest [1, 2, 9, 9] 2)[0]? ∧
      DigestChain.Exhibits constantDigest (.fill 0)
        (hashedStrings constantDigest [1, 2, 3] 2 1)
        (hashedStrings constantDigest [1, 2, 9, 9] 2 0) := by
  have sameBlock :=
    prefix_hashes_identify_prefixes constantDigest 2
      [1, 2, 3] [1, 2, 9, 9] 0 0 (by decide) (by decide)
  have otherPosition :=
    prefix_hashes_identify_prefixes constantDigest 2
      [1, 2, 3] [1, 2, 9, 9] 1 0 (by decide) (by decide)
  refine ⟨sameBlock.1 (by decide) (by decide), ?_⟩
  rcases otherPosition.2 (by decide) with ⟨positions, _⟩ | exhibits
  · exact absurd positions (by decide)
  · exact exhibits

end Lethe
