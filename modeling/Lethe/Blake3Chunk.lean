import Lethe.Blake3

namespace Lethe

namespace Blake3

/-!
# Reading a chunk

The output of a chunk is stated from its bytes: its 64-byte blocks are
compressed in order, and the last one, which may be short, is left for the
output.  Every state of the incremental reader is a function of the position
reached in a fixed chunk, whatever the pieces in which the bytes arrive, and
the reader of whole chunks computes the same output.
-/

/-- Whole blocks that are compressed before the last block of some bytes. -/
def blocksBefore
    (len : Nat) :
    Nat :=
  (len - 1) / blockLen

theorem blocksBefore_mul_le
    (len : Nat) :
    blockLen * blocksBefore len ≤ len := by
  unfold blocksBefore blockLen
  omega

theorem le_blocksBefore_mul
    (len : Nat) :
    len ≤ blockLen * (blocksBefore len + 1) := by
  unfold blocksBefore blockLen
  omega

/-- The flag of the first block. -/
def startFlag
    (blocks : Nat) :
    UInt8 :=
  if blocks = 0 then chunkStart else 0

/-- The chaining value after the leading blocks of a chunk. -/
def chunkCv
    (key : Words)
    (counter : UInt64)
    (flags : UInt8)
    (chunk : List UInt8) :
    Nat → Words
  | 0 => key
  | blocks + 1 =>
      compressInPlace (chunkCv key counter flags chunk blocks)
        (blockOf (chunk.drop (blockLen * blocks))) (UInt8.ofNat blockLen)
        counter (flags ||| startFlag blocks)

/-- The output of a chunk. -/
def chunkOutput
    (key : Words)
    (counter : UInt64)
    (flags : UInt8)
    (chunk : List UInt8) :
    Output where
  inputCv := chunkCv key counter flags chunk (blocksBefore chunk.length)
  counter := counter
  block := blockOf (chunk.drop (blockLen * blocksBefore chunk.length))
  blockLen :=
    UInt8.ofNat (chunk.length - blockLen * blocksBefore chunk.length)
  flags :=
    flags ||| startFlag (blocksBefore chunk.length) ||| chunkEnd

/-! ## Blocks -/

/-- Bytes that fit are followed by zeros. -/
theorem blockOf_bytes
    {input : List UInt8}
    (fits : input.length ≤ blockLen) :
    (blockOf input).bytes =
      input ++ List.replicate (blockLen - input.length) 0 := by
  unfold blockOf Block.write Block.zero
  simp only [List.take_of_length_le fits, List.take_zero, List.nil_append,
    Nat.zero_add, List.drop_replicate]
  apply List.take_of_length_le
  rw [List.length_append, List.length_replicate]
  omega

/-- Only the first 64 bytes of an input are copied. -/
theorem blockOf_take
    (input : List UInt8)
    {count : Nat}
    (enough : blockLen ≤ count) :
    blockOf (input.take count) = blockOf input := by
  unfold blockOf
  rw [List.take_take, Nat.min_eq_left enough]

theorem blockOf_nil :
    blockOf [] = Block.zero := by
  apply Block.ext
  rw [blockOf_bytes (by simp)]
  rfl

/-- Bytes copied behind those of a block. -/
theorem blockOf_write
    (front back : List UInt8)
    (fits : front.length + back.length ≤ blockLen) :
    (blockOf front).write front.length back = blockOf (front ++ back) := by
  apply Block.ext
  rw [blockOf_bytes (by rwa [List.length_append])]
  simp only [Block.write, blockOf_bytes (Nat.le_of_add_right_le fits),
    List.take_left, List.length_append]
  rw [List.drop_append, List.drop_eq_nil_of_le (by omega),
    List.nil_append, List.drop_replicate]
  rw [List.take_of_length_le]
  · congr 2
    omega
  · simp only [List.length_append, List.length_replicate]
    omega

/-! ## Positions of the reader -/

namespace ChunkState

section Positions

variable (key : Words) (counter : UInt64) (flags : UInt8)
  (chunk : List UInt8)

/-- The state after whole blocks, with what follows them in the buffer. -/
def within
    (blocks position : Nat)
    (fits : position ≤ blockLen * (blocks + 1)) :
    ChunkState where
  cv := chunkCv key counter flags chunk blocks
  chunkCounter := counter
  buf := blockOf ((chunk.take position).drop (blockLen * blocks))
  bufLen := position - blockLen * blocks
  blocksCompressed := blocks
  flags := flags
  bufLen_le := by
    rw [Nat.mul_succ] at fits
    omega

/-- The state after whole blocks with an empty buffer. -/
def aligned
    (blocks : Nat) :
    ChunkState :=
  within key counter flags chunk blocks (blockLen * blocks)
    (Nat.mul_le_mul_left _ (Nat.le_succ _))

/-- The state with the last block up to a position in the buffer. -/
def reading
    (position : Nat) :
    ChunkState :=
  within key counter flags chunk (blocksBefore position) position
    (le_blocksBefore_mul position)

theorem buf_aligned
    (blocks : Nat) :
    (aligned key counter flags chunk blocks).buf = Block.zero := by
  simp only [aligned, within]
  rw [List.drop_eq_nil_of_le (List.length_take_le _ _), blockOf_nil]

theorem reading_zero :
    reading key counter flags chunk 0 =
      aligned key counter flags chunk 0 :=
  rfl

/-- The state of an empty chunk is that before the first byte. -/
theorem reading_zero_eq_initAt :
    reading key counter flags chunk 0 = initAt key flags counter := by
  rw [reading_zero]
  apply ChunkState.ext
  case buf =>
    rw [buf_aligned]
    rfl
  all_goals rfl

/-- The whole chunk read gives the chunk's output. -/
theorem output_reading :
    (reading key counter flags chunk chunk.length).output =
      chunkOutput key counter flags chunk := by
  simp only [output, reading, within, List.take_length]
  rfl

theorem len_reading
    (position : Nat) :
    (reading key counter flags chunk position).len = position := by
  simp only [len, reading, within, blocksBefore, blockLen]
  omega

theorem bufLen_reading_pos
    {position : Nat}
    (started : 0 < position) :
    0 < (reading key counter flags chunk position).bufLen := by
  simp only [reading, within]
  unfold blocksBefore blockLen
  omega

/-! ## Steps of the reader -/

/-- Bytes that the buffer takes from the next ones of the chunk. -/
theorem take_within
    {blocks position count : Nat}
    (fits : position ≤ blockLen * (blocks + 1))
    (low : blockLen * blocks ≤ position)
    (available : position + count ≤ chunk.length) :
    (within key counter flags chunk blocks position fits).take
        ((chunk.drop position).take count) =
      min count (blockLen * (blocks + 1) - position) := by
  have size : ((chunk.drop position).take count).length = count := by
    rw [List.length_take, List.length_drop]
    omega
  simp only [take, within, size, Nat.mul_succ]
  split <;> omega

/-- Filling the buffer moves on within its block. -/
theorem fillBuf_within
    {blocks position : Nat}
    (count : Nat)
    (fits : position ≤ blockLen * (blocks + 1))
    (low : blockLen * blocks ≤ position)
    (available : position + count ≤ chunk.length) :
    (within key counter flags chunk blocks position fits).fillBuf
        ((chunk.drop position).take count) =
      within key counter flags chunk blocks
        (min (position + count) (blockLen * (blocks + 1)))
        (Nat.min_le_right _ _) := by
  have taken := take_within key counter flags chunk fits low available
  obtain ⟨moved, isMoved⟩ :
      ∃ moved, moved = min count (blockLen * (blocks + 1) - position) :=
    ⟨_, rfl⟩
  rw [← isMoved] at taken
  have reached :
      min (position + count) (blockLen * (blocks + 1)) =
        position + moved := by
    omega
  have movedLe : moved ≤ count := by
    omega
  have frontSize :
      ((chunk.take position).drop (blockLen * blocks)).length =
        position - blockLen * blocks := by
    rw [List.length_drop, List.length_take]
    omega
  have window :
      (chunk.take (position + moved)).drop (blockLen * blocks) =
        (chunk.take position).drop (blockLen * blocks) ++
          (chunk.drop position).take moved := by
    rw [List.take_add, List.drop_append_of_le_length (by
      rw [List.length_take]
      omega)]
  have written :=
    blockOf_write
      ((chunk.take position).drop (blockLen * blocks))
      ((chunk.drop position).take moved) (by
        rw [List.length_take, frontSize]
        rw [Nat.mul_succ] at fits isMoved
        omega)
  rw [frontSize] at written
  apply ChunkState.ext
  case buf =>
    simp only [fillBuf, taken]
    simp only [within, reached, window]
    rw [List.take_take, Nat.min_eq_left movedLe]
    exact written
  case bufLen =>
    simp only [fillBuf, taken]
    simp only [within, reached]
    unfold blockLen at *
    omega
  all_goals rfl

theorem compressInput_nil
    (self : ChunkState) :
    self.compressInput [] = (self, []) := by
  rw [compressInput, if_neg (by simp)]

/-- Compressing the next block moves on by one block. -/
theorem compressBlock_aligned
    {blocks : Nat}
    (inChunk : blocks < 16) :
    (aligned key counter flags chunk blocks).compressBlock
        (blockOf (chunk.drop (blockLen * blocks))) =
      aligned key counter flags chunk (blocks + 1) := by
  apply ChunkState.ext
  case buf =>
    rw [buf_aligned]
    exact buf_aligned key counter flags chunk blocks
  case bufLen =>
    simp [compressBlock, aligned, within]
  case blocksCompressed =>
    simp only [compressBlock, aligned, within]
    omega
  all_goals rfl

/-- Compressing a full buffer and clearing it moves on to the next block. -/
theorem compressBlock_full
    {blocks : Nat}
    (inChunk : blocks < 16) :
    let full :=
      within key counter flags chunk blocks (blockLen * (blocks + 1))
        (Nat.le_refl _)
    (full.compressBlock full.buf).clearBuf =
      aligned key counter flags chunk (blocks + 1) := by
  intro full
  have buffered : full.buf = blockOf (chunk.drop (blockLen * blocks)) := by
    simp only [full, within]
    rw [List.drop_take, blockOf_take _ (by
      rw [Nat.mul_succ]
      omega)]
  rw [buffered, ← compressBlock_aligned key counter flags chunk inChunk]
  apply ChunkState.ext
  case buf =>
    exact (buf_aligned key counter flags chunk blocks).symm
  case bufLen =>
    simp [compressBlock, clearBuf, aligned, within]
  all_goals rfl

/-- The loop over input stops at the last block. -/
theorem compressInput_aligned
    {blocks count : Nat}
    (inChunk : blockLen * blocks + count ≤ chunkLen)
    (available : blockLen * blocks + count ≤ chunk.length) :
    (aligned key counter flags chunk blocks).compressInput
        ((chunk.drop (blockLen * blocks)).take count) =
      (aligned key counter flags chunk (blocks + blocksBefore count),
        (chunk.drop (blockLen * (blocks + blocksBefore count))).take
          (count - blockLen * blocksBefore count)) := by
  induction count using Nat.strong_induction_on generalizing blocks with
  | h count inductionHypothesis =>
      have size :
          ((chunk.drop (blockLen * blocks)).take count).length = count := by
        rw [List.length_take, List.length_drop]
        omega
      rw [compressInput, size]
      by_cases long : blockLen < count
      · have next :
            ((chunk.drop (blockLen * blocks)).take count).drop blockLen =
              (chunk.drop (blockLen * (blocks + 1))).take
                (count - blockLen) := by
          rw [List.drop_take, List.drop_drop, Nat.mul_succ]
        have before :
            blocksBefore count = blocksBefore (count - blockLen) + 1 := by
          unfold blocksBefore blockLen at *
          omega
        have more : blocks < 16 := by
          unfold chunkLen blockLen at *
          omega
        have step :=
          @inductionHypothesis (count - blockLen) (by
            unfold blockLen at *
            omega)
            (blocks + 1) (by
              rw [Nat.mul_succ]
              omega) (by
              rw [Nat.mul_succ]
              omega)
        have sameBlocks :
            blocks + 1 + blocksBefore (count - blockLen) =
              blocks + blocksBefore count := by
          omega
        have sameCount :
            count - blockLen - blockLen * blocksBefore (count - blockLen) =
              count - blockLen * blocksBefore count := by
          rw [before, Nat.mul_succ]
          omega
        rw [if_pos long, blockOf_take _ (Nat.le_of_lt long),
          compressBlock_aligned _ _ _ _ more, next, step, sameBlocks,
          sameCount]
      · have before : blocksBefore count = 0 := by
          unfold blocksBefore blockLen at *
          omega
        rw [if_neg long, before]
        rfl

/-- From a block boundary on, all input is read. -/
theorem fill_compressInput_aligned
    (blocks count : Nat)
    (ends : 0 < count ∨ blocks = 0)
    (inChunk : blockLen * blocks + count ≤ chunkLen)
    (available : blockLen * blocks + count ≤ chunk.length) :
    (let compressed :=
      (aligned key counter flags chunk blocks).compressInput
        ((chunk.drop (blockLen * blocks)).take count)
    compressed.1.fillBuf compressed.2) =
      reading key counter flags chunk (blockLen * blocks + count) := by
  have low := blocksBefore_mul_le count
  have before :
      blocksBefore (blockLen * blocks + count) =
        blocks + blocksBefore count := by
    unfold blocksBefore blockLen
    omega
  have reached :
      min
          (blockLen * (blocks + blocksBefore count) +
            (count - blockLen * blocksBefore count))
          (blockLen * (blocks + blocksBefore count + 1)) =
        blockLen * blocks + count := by
    unfold blocksBefore blockLen at *
    omega
  rw [compressInput_aligned _ _ _ _ inChunk available]
  simp only [aligned]
  rw [fillBuf_within _ _ _ _ _ _ (Nat.le_refl _) (by
    rw [Nat.mul_add]
    omega)]
  simp only [reading, reached, before]

/-- A block in the buffer that the input does not go beyond. -/
theorem finishBuf_reading_of_le
    {position count : Nat}
    (started : 0 < position)
    (short : position + count ≤ blockLen * (blocksBefore position + 1))
    (available : position + count ≤ chunk.length) :
    (reading key counter flags chunk position).finishBuf
        ((chunk.drop position).take count) =
      (reading key counter flags chunk (position + count), []) := by
  have low := blocksBefore_mul_le position
  have buffered := bufLen_reading_pos key counter flags chunk started
  have before :
      blocksBefore (position + count) = blocksBefore position := by
    unfold blocksBefore blockLen at *
    omega
  have taken :
      (reading key counter flags chunk position).take
        ((chunk.drop position).take count) = count :=
    (take_within _ _ _ _ _ low available).trans (by omega)
  have filled :
      (reading key counter flags chunk position).fillBuf
          ((chunk.drop position).take count) =
        reading key counter flags chunk (position + count) := by
    refine (fillBuf_within _ _ _ _ count _ low available).trans ?_
    simp only [reading, before, Nat.min_eq_left short]
  have empty : ((chunk.drop position).take count).drop count = [] :=
    List.drop_eq_nil_of_le (List.length_take_le count _)
  simp only [finishBuf, if_pos buffered, taken, filled, empty,
    List.length_nil, Nat.lt_irrefl, if_false]

/-- A block in the buffer that the input goes beyond is compressed. -/
theorem finishBuf_reading_of_lt
    {position count : Nat}
    (started : 0 < position)
    (long : blockLen * (blocksBefore position + 1) < position + count)
    (inChunk : position + count ≤ chunkLen)
    (available : position + count ≤ chunk.length) :
    (reading key counter flags chunk position).finishBuf
        ((chunk.drop position).take count) =
      (aligned key counter flags chunk (blocksBefore position + 1),
        (chunk.drop (blockLen * (blocksBefore position + 1))).take
          (position + count -
            blockLen * (blocksBefore position + 1))) := by
  have low := blocksBefore_mul_le position
  have high := le_blocksBefore_mul position
  have buffered := bufLen_reading_pos key counter flags chunk started
  have more : blocksBefore position < 16 := by
    unfold blocksBefore chunkLen blockLen at *
    omega
  have taken :
      (reading key counter flags chunk position).take
          ((chunk.drop position).take count) =
        blockLen * (blocksBefore position + 1) - position :=
    (take_within _ _ _ _ _ low available).trans (by omega)
  have filled :
      (reading key counter flags chunk position).fillBuf
          ((chunk.drop position).take count) =
        within key counter flags chunk (blocksBefore position)
          (blockLen * (blocksBefore position + 1)) (Nat.le_refl _) := by
    refine (fillBuf_within _ _ _ _ count _ low available).trans ?_
    simp only [Nat.min_eq_right (Nat.le_of_lt long)]
  have rest :
      ((chunk.drop position).take count).drop
          (blockLen * (blocksBefore position + 1) - position) =
        (chunk.drop (blockLen * (blocksBefore position + 1))).take
          (position + count -
            blockLen * (blocksBefore position + 1)) := by
    rw [List.drop_take, List.drop_drop, Nat.add_sub_cancel' high]
    congr 1
    omega
  have left :
      0 < ((chunk.drop (blockLen * (blocksBefore position + 1))).take
        (position + count -
          blockLen * (blocksBefore position + 1))).length := by
    rw [List.length_take, List.length_drop]
    omega
  simp only [finishBuf, if_pos buffered, taken, filled, rest,
    if_pos left, compressBlock_full _ _ _ _ more]

/-- Reading in pieces reaches the position of the whole. -/
theorem update_reading
    (position count : Nat)
    (inChunk : position + count ≤ chunkLen)
    (available : position + count ≤ chunk.length) :
    (reading key counter flags chunk position).update
        ((chunk.drop position).take count) =
      reading key counter flags chunk (position + count) := by
  unfold update
  rcases Nat.eq_zero_or_pos position with isStart | started
  · subst isStart
    have fresh :=
      fill_compressInput_aligned key counter flags chunk 0 count
        (Or.inr rfl) (by omega) (by omega)
    have unbuffered :
        ¬ 0 < (reading key counter flags chunk 0).bufLen := by
      simp [reading, within]
    simp only [finishBuf, if_neg unbuffered]
    exact fresh
  · by_cases short :
      position + count ≤ blockLen * (blocksBefore position + 1)
    · rw [finishBuf_reading_of_le _ _ _ _ started short available]
      have high := le_blocksBefore_mul (position + count)
      have unchanged :=
        fillBuf_within key counter flags chunk 0 high
          (blocksBefore_mul_le _) available
      rw [List.take_zero] at unchanged
      simp only [Nat.add_zero, Nat.min_eq_left high] at unchanged
      simp only [compressInput_nil]
      exact unchanged
    · rw [finishBuf_reading_of_lt _ _ _ _ started (by omega) inChunk
        available]
      have rest :
          blockLen * (blocksBefore position + 1) +
              (position + count -
                blockLen * (blocksBefore position + 1)) =
            position + count := by
        omega
      have continued :=
        fill_compressInput_aligned key counter flags chunk
          (blocksBefore position + 1)
          (position + count - blockLen * (blocksBefore position + 1))
          (Or.inl (by omega)) (by omega) (by omega)
      rw [rest] at continued
      exact continued

end Positions

/-- An empty chunk that reads a whole chunk gives the chunk's output. -/
theorem output_update_initAt
    (key : Words)
    (counter : UInt64)
    (flags : UInt8)
    {chunk : List UInt8}
    (inChunk : chunk.length ≤ chunkLen) :
    ((initAt key flags counter).update chunk).output =
      chunkOutput key counter flags chunk := by
  have read :=
    update_reading key counter flags chunk 0 chunk.length (by omega)
      (by omega)
  rw [List.drop_zero, List.take_length, Nat.zero_add,
    reading_zero_eq_initAt] at read
  rw [read, output_reading]

end ChunkState

/-! ## Whole chunks and parents -/

/-- The blocks of a chunk from a block on, the last one with its flag. -/
theorem hashBlocks_chunk
    (key : Words)
    (counter : UInt64)
    (flags : UInt8)
    (chunk : List UInt8)
    (blocks rest : Nat) :
    hashBlocks (chunkCv key counter flags chunk blocks)
        (chunk.drop (blockLen * blocks)) counter flags
        (flags ||| startFlag blocks) chunkEnd (rest + 1) =
      compressInPlace (chunkCv key counter flags chunk (blocks + rest))
        (blockOf (chunk.drop (blockLen * (blocks + rest))))
        (UInt8.ofNat blockLen) counter
        (flags ||| startFlag (blocks + rest) ||| chunkEnd) := by
  induction rest generalizing blocks with
  | zero =>
      simp only [hashBlocks, Nat.zero_add, if_true, Nat.add_zero]
  | succ rest inductionHypothesis =>
      have later : flags ||| startFlag (blocks + 1) = flags := by
        simp [startFlag]
      have step := inductionHypothesis (blocks + 1)
      rw [later] at step
      have sameBlocks : blocks + 1 + rest = blocks + (rest + 1) := by
        omega
      rw [sameBlocks] at step
      rw [hashBlocks, if_neg (by omega), List.drop_drop, ← Nat.mul_succ]
      exact step

/-- The reader of whole chunks gives the chaining value of the output. -/
theorem hashOnePortable_chunk
    (key : Words)
    (counter : UInt64)
    (flags : UInt8)
    {chunk : List UInt8}
    (whole : chunk.length = chunkLen) :
    hashOnePortable chunk (chunkLen / blockLen) key counter flags chunkStart
        chunkEnd =
      (chunkOutput key counter flags chunk).chainingValue := by
  have hashed := hashBlocks_chunk key counter flags chunk 0 15
  unfold hashOnePortable Output.chainingValue chunkOutput
  rw [whole]
  exact congrArg storeCvWords hashed

/-- One block hashed as a parent is the chaining value of its output. -/
theorem hashOnePortable_parent
    (left right : Hash256)
    (key : Words)
    (flags : UInt8) :
    hashOnePortable (left.bytes ++ right.bytes) 1 key 0
        (flags ||| parentFlag) 0 0 =
      (parentOutput left right key flags).chainingValue := by
  have size : (left.bytes ++ right.bytes).length = blockLen := by
    rw [List.length_append, left.length_eq, right.length_eq]
    rfl
  have block :
      blockOf (left.bytes ++ right.bytes) =
        (parentOutput left right key flags).block := by
    apply Block.ext
    rw [blockOf_bytes (Nat.le_of_eq size), size, Nat.sub_self,
      List.replicate_zero, List.append_nil]
    rfl
  simp only [hashOnePortable, hashBlocks, Nat.zero_add, if_true, block,
    UInt8.or_zero]
  rfl

end Blake3

end Lethe
