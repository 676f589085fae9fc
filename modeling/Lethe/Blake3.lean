import Lethe.Types

namespace Lethe

/-!
# The vendored BLAKE3 hasher

Portable compression, chunk states, and the incremental hasher with its lazily
merged stack of chaining values.  The number of chunks that a platform hashes
side by side is a parameter; the portable build has one.  The stack of
chaining values is a list with its top first.  Counters wrap where the
source's machine words wrap.  A function that indexes a fixed array returns
`none` where an access would leave the array or read a slot that was never
written, and where an assertion fails.
-/

namespace Blake3

/-- Bytes of one compression block. -/
def blockLen : Nat :=
  64

/-- Bytes of one chunk, a leaf of the tree. -/
def chunkLen : Nat :=
  1024

/-- Largest depth of a tree over fewer than `2 ^ 64` bytes. -/
def maxDepth : Nat :=
  54

/-- Domain flags of a compression. -/
def chunkStart : UInt8 :=
  1

def chunkEnd : UInt8 :=
  2

def parentFlag : UInt8 :=
  4

def rootFlag : UInt8 :=
  8

/-! ## Portable compression -/

/-- Eight 32-bit words: a key or a chaining value. -/
abbrev Words := Vector UInt32 8

/-- The initial chaining value. -/
def iv : Words :=
  #v[0x6A09E667, 0xBB67AE85, 0x3C6EF372, 0xA54FF53A,
    0x510E527F, 0x9B05688C, 0x1F83D9AB, 0x5BE0CD19]

/-- The order in which each round takes the words of a block. -/
def msgSchedule : Vector (Vector (Fin 16) 16) 7 :=
  #v[#v[0, 1, 2, 3, 4, 5, 6, 7, 8, 9, 10, 11, 12, 13, 14, 15],
    #v[2, 6, 3, 10, 7, 0, 4, 13, 1, 11, 12, 5, 9, 14, 15, 8],
    #v[3, 4, 10, 12, 13, 2, 7, 14, 6, 5, 9, 0, 11, 15, 8, 1],
    #v[10, 7, 12, 9, 14, 3, 13, 15, 4, 0, 11, 2, 5, 8, 1, 6],
    #v[12, 13, 9, 11, 15, 10, 14, 8, 7, 2, 5, 3, 0, 1, 6, 4],
    #v[9, 14, 11, 5, 8, 12, 15, 1, 13, 3, 0, 10, 2, 6, 4, 7],
    #v[11, 15, 5, 0, 1, 9, 8, 6, 14, 10, 2, 12, 3, 4, 7, 13]]

/-- A block of 64 bytes. -/
@[ext] structure Block where
  bytes : List UInt8
  length_eq : bytes.length = blockLen
  deriving DecidableEq

/-- The block of zero bytes. -/
def Block.zero : Block :=
  ⟨List.replicate blockLen 0, List.length_replicate⟩

/-- Copy bytes into a block at an offset; what does not fit is dropped. -/
def Block.write
    (block : Block)
    (offset : Nat)
    (input : List UInt8) :
    Block where
  bytes :=
    (block.bytes.take offset ++ input ++
      block.bytes.drop (offset + input.length)).take blockLen
  length_eq := by
    have full := block.length_eq
    simp only [List.length_take, List.length_append, List.length_drop]
    omega

/-- The word at a byte offset, least significant byte first. -/
def load32
    (bytes : List UInt8)
    (offset : Nat) :
    UInt32 :=
  (bytes.getD offset 0).toUInt32 |||
    (bytes.getD (offset + 1) 0).toUInt32 <<< 8 |||
    (bytes.getD (offset + 2) 0).toUInt32 <<< 16 |||
    (bytes.getD (offset + 3) 0).toUInt32 <<< 24

/-- The bytes of a word, least significant byte first. -/
def store32
    (word : UInt32) :
    List UInt8 :=
  [word.toUInt8, (word >>> 8).toUInt8, (word >>> 16).toUInt8,
    (word >>> 24).toUInt8]

/-- The words of a block. -/
def loadBlockWords
    (block : Block) :
    Vector UInt32 16 :=
  Vector.ofFn fun index => load32 block.bytes (4 * index.val)

/-- The bytes of a list of words. -/
def storeWords
    (words : List UInt32) :
    List UInt8 :=
  words.flatMap store32

theorem length_storeWords
    (words : List UInt32) :
    (storeWords words).length = 4 * words.length := by
  induction words with
  | nil =>
      rfl
  | cons word rest inductionHypothesis =>
      simp only [storeWords, List.flatMap_cons, List.length_append,
        List.length_cons] at inductionHypothesis ⊢
      rw [inductionHypothesis]
      simp only [store32, List.length_cons, List.length_nil]
      omega

/-- The bytes of a chaining value. -/
def storeCvWords
    (words : Words) :
    Hash256 where
  bytes := storeWords words.toList
  length_eq := by
    rw [length_storeWords, Vector.length_toList]

def rotr32
    (word count : UInt32) :
    UInt32 :=
  word >>> count ||| word <<< (32 - count)

/-- The mixing function on four words of the state. -/
def g
    (state : Vector UInt32 16)
    (a b c d : Fin 16)
    (x y : UInt32) :
    Vector UInt32 16 :=
  let state := state.set a (state[a] + state[b] + x)
  let state := state.set d (rotr32 (state[d] ^^^ state[a]) 16)
  let state := state.set c (state[c] + state[d])
  let state := state.set b (rotr32 (state[b] ^^^ state[c]) 12)
  let state := state.set a (state[a] + state[b] + y)
  let state := state.set d (rotr32 (state[d] ^^^ state[a]) 8)
  let state := state.set c (state[c] + state[d])
  state.set b (rotr32 (state[b] ^^^ state[c]) 7)

/-- One round: the columns, then the diagonals. -/
def roundFn
    (state : Vector UInt32 16)
    (msg : Vector UInt32 16)
    (schedule : Vector (Fin 16) 16) :
    Vector UInt32 16 :=
  let state := g state 0 4 8 12 msg[schedule[0]] msg[schedule[1]]
  let state := g state 1 5 9 13 msg[schedule[2]] msg[schedule[3]]
  let state := g state 2 6 10 14 msg[schedule[4]] msg[schedule[5]]
  let state := g state 3 7 11 15 msg[schedule[6]] msg[schedule[7]]
  let state := g state 0 5 10 15 msg[schedule[8]] msg[schedule[9]]
  let state := g state 1 6 11 12 msg[schedule[10]] msg[schedule[11]]
  let state := g state 2 7 8 13 msg[schedule[12]] msg[schedule[13]]
  g state 3 4 9 14 msg[schedule[14]] msg[schedule[15]]

/-- The state after seven rounds. -/
def compressPre
    (cv : Words)
    (block : Block)
    (blockLen : UInt8)
    (counter : UInt64)
    (flags : UInt8) :
    Vector UInt32 16 :=
  let start : Vector UInt32 16 :=
    #v[cv[0], cv[1], cv[2], cv[3], cv[4], cv[5], cv[6], cv[7],
      iv[0], iv[1], iv[2], iv[3],
      counter.toUInt32, (counter >>> 32).toUInt32,
      blockLen.toUInt32, flags.toUInt32]
  msgSchedule.toList.foldl
    (fun state schedule => roundFn state (loadBlockWords block) schedule)
    start

/-- The next chaining value. -/
def compressInPlace
    (cv : Words)
    (block : Block)
    (blockLen : UInt8)
    (counter : UInt64)
    (flags : UInt8) :
    Words :=
  let state := compressPre cv block blockLen counter flags
  #v[state[0] ^^^ state[8], state[1] ^^^ state[9],
    state[2] ^^^ state[10], state[3] ^^^ state[11],
    state[4] ^^^ state[12], state[5] ^^^ state[13],
    state[6] ^^^ state[14], state[7] ^^^ state[15]]

/-- Sixty-four bytes of extended output. -/
def compressXof
    (cv : Words)
    (block : Block)
    (blockLen : UInt8)
    (counter : UInt64)
    (flags : UInt8) :
    Block where
  bytes :=
    let state := compressPre cv block blockLen counter flags
    storeWords
      [state[0] ^^^ state[8], state[1] ^^^ state[9],
        state[2] ^^^ state[10], state[3] ^^^ state[11],
        state[4] ^^^ state[12], state[5] ^^^ state[13],
        state[6] ^^^ state[14], state[7] ^^^ state[15],
        state[8] ^^^ cv[0], state[9] ^^^ cv[1],
        state[10] ^^^ cv[2], state[11] ^^^ cv[3],
        state[12] ^^^ cv[4], state[13] ^^^ cv[5],
        state[14] ^^^ cv[6], state[15] ^^^ cv[7]]
  length_eq := by
    rw [length_storeWords]
    rfl

/-- The leading bytes of an input as a block, zeros after its end. -/
def blockOf
    (input : List UInt8) :
    Block :=
  Block.zero.write 0 (input.take blockLen)

/-- The blocks of one input, compressed one after another. -/
def hashBlocks
    (cv : Words)
    (input : List UInt8)
    (counter : UInt64)
    (flags blockFlags flagsEnd : UInt8) :
    Nat → Words
  | 0 => cv
  | blocks + 1 =>
      let lastFlags :=
        if blocks + 1 = 1 then blockFlags ||| flagsEnd else blockFlags
      hashBlocks
        (compressInPlace cv (blockOf input) (UInt8.ofNat blockLen) counter
          lastFlags)
        (input.drop blockLen) counter flags flags flagsEnd blocks

/-- The chaining value of an input of whole blocks. -/
def hashOnePortable
    (input : List UInt8)
    (blocks : Nat)
    (key : Words)
    (counter : UInt64)
    (flags flagsStart flagsEnd : UInt8) :
    Hash256 :=
  storeCvWords
    (hashBlocks key input counter flags (flags ||| flagsStart) flagsEnd
      blocks)

/-- The chaining values of several inputs. -/
def hashManyPortable
    (blocks : Nat)
    (key : Words)
    (incrementCounter : Bool)
    (flags flagsStart flagsEnd : UInt8) :
    UInt64 → List (List UInt8) → List Hash256
  | _, [] => []
  | counter, input :: inputs =>
      hashOnePortable input blocks key counter flags flagsStart flagsEnd ::
        hashManyPortable blocks key incrementCounter flags flagsStart
          flagsEnd (if incrementCounter then counter + 1 else counter)
          inputs

/-! ## Outputs -/

/-- A compression that is not made yet, since it may be that of the root. -/
structure Output where
  inputCv : Words
  counter : UInt64
  block : Block
  blockLen : UInt8
  flags : UInt8
  deriving DecidableEq

namespace Output

instance : Inhabited Output :=
  ⟨⟨iv, 0, Block.zero, 0, 0⟩⟩

/-- The chaining value of an output that is not the root. -/
def chainingValue
    (self : Output) :
    Hash256 :=
  storeCvWords
    (compressInPlace self.inputCv self.block self.blockLen self.counter
      self.flags)

/-- One block of the root's output. -/
def xofBlock
    (self : Output)
    (outputBlockCounter : UInt64) :
    List UInt8 :=
  (compressXof self.inputCv self.block self.blockLen outputBlockCounter
    (self.flags ||| rootFlag)).bytes

/-- Several blocks of the root's output. -/
def xofMany
    (self : Output)
    (counter : UInt64)
    (outBlocks : Nat) :
    List UInt8 :=
  (List.range outBlocks).flatMap fun index =>
    self.xofBlock (counter + UInt64.ofNat index)

/-- Whole blocks of output, then the leading bytes of one more. -/
def rootBlocks
    (self : Output)
    (outputBlockCounter : UInt64)
    (outLen : Nat) :
    List UInt8 :=
  self.xofMany outputBlockCounter (outLen / 64) ++
    if outLen % 64 = 0 then
      []
    else
      (self.xofBlock
        (outputBlockCounter + UInt64.ofNat (outLen / 64))).take
          (outLen % 64)

/-- Output bytes from a position on; the first block may be partial. -/
def rootBytes
    (self : Output)
    (seek : UInt64)
    (outLen : Nat) :
    List UInt8 :=
  if outLen = 0 then
    []
  else
    let outputBlockCounter := seek / 64
    let offsetWithinBlock := (seek % 64).toNat
    if offsetWithinBlock = 0 then
      self.rootBlocks outputBlockCounter outLen
    else
      let availableBytes := 64 - offsetWithinBlock
      let bytes :=
        if availableBytes < outLen then availableBytes else outLen
      ((self.xofBlock outputBlockCounter).drop offsetWithinBlock).take
          bytes ++
        self.rootBlocks (outputBlockCounter + 1) (outLen - bytes)

end Output

/-- The output of a parent node over the chaining values of its children. -/
def parentOutput
    (left right : Hash256)
    (key : Words)
    (flags : UInt8) :
    Output where
  inputCv := key
  counter := 0
  block :=
    ⟨left.bytes ++ right.bytes, by
      rw [List.length_append, left.length_eq, right.length_eq]
      rfl⟩
  blockLen := UInt8.ofNat blockLen
  flags := flags ||| parentFlag

/-! ## Chunk states -/

/-- A chunk that is being read; the buffer is never longer than a block. -/
@[ext] structure ChunkState where
  cv : Words
  chunkCounter : UInt64
  buf : Block
  bufLen : Nat
  blocksCompressed : Nat
  flags : UInt8
  bufLen_le : bufLen ≤ blockLen

namespace ChunkState

/-- An empty chunk. -/
def init
    (key : Words)
    (flags : UInt8) :
    ChunkState :=
  ⟨key, 0, Block.zero, 0, 0, flags, Nat.zero_le _⟩

/-- An empty chunk whose counter is then set. -/
def initAt
    (key : Words)
    (flags : UInt8)
    (counter : UInt64) :
    ChunkState :=
  { init key flags with chunkCounter := counter }

/-- Make the state that of an empty chunk with a given number. -/
def reset
    (self : ChunkState)
    (key : Words)
    (chunkCounter : UInt64) :
    ChunkState :=
  ⟨key, chunkCounter, Block.zero, 0, 0, self.flags, Nat.zero_le _⟩

/-- Bytes of the chunk so far. -/
def len
    (self : ChunkState) :
    Nat :=
  blockLen * self.blocksCompressed + self.bufLen

/-- Input bytes that still fit into the buffer. -/
def take
    (self : ChunkState)
    (input : List UInt8) :
    Nat :=
  if input.length < blockLen - self.bufLen then
    input.length
  else
    blockLen - self.bufLen

/-- Copy as much input into the buffer as fits. -/
def fillBuf
    (self : ChunkState)
    (input : List UInt8) :
    ChunkState :=
  { self with
    buf := self.buf.write self.bufLen (input.take (self.take input))
    bufLen := (self.bufLen + self.take input) % 256
    bufLen_le := by
      have bounded := self.bufLen_le
      have reduced := Nat.mod_le (self.bufLen + self.take input) 256
      unfold take at reduced ⊢
      split at reduced <;> split <;> omega }

/-- The flag of the first block of a chunk. -/
def maybeStartFlag
    (self : ChunkState) :
    UInt8 :=
  if self.blocksCompressed = 0 then chunkStart else 0

/-- Compress one whole block into the chaining value. -/
def compressBlock
    (self : ChunkState)
    (block : Block) :
    ChunkState :=
  { self with
    cv :=
      compressInPlace self.cv block (UInt8.ofNat blockLen)
        self.chunkCounter (self.flags ||| self.maybeStartFlag)
    blocksCompressed := (self.blocksCompressed + 1) % 256 }

/-- Empty the buffer. -/
def clearBuf
    (self : ChunkState) :
    ChunkState :=
  { self with
    buf := Block.zero
    bufLen := 0
    bufLen_le := Nat.zero_le _ }

/-- Compress input block by block while more than a block is left. -/
def compressInput
    (self : ChunkState)
    (input : List UInt8) :
    ChunkState × List UInt8 :=
  if blockLen < input.length then
    compressInput (self.compressBlock (blockOf input))
      (input.drop blockLen)
  else
    (self, input)
termination_by input.length
decreasing_by
  simp only [List.length_drop, blockLen] at *
  omega

/-- Finish a block that is in the buffer, if more input follows it. -/
def finishBuf
    (self : ChunkState)
    (input : List UInt8) :
    ChunkState × List UInt8 :=
  if 0 < self.bufLen then
    let filled := self.fillBuf input
    let rest := input.drop (self.take input)
    if 0 < rest.length then
      ((filled.compressBlock filled.buf).clearBuf, rest)
    else
      (filled, rest)
  else
    (self, input)

/-- Read more bytes of the chunk. -/
def update
    (self : ChunkState)
    (input : List UInt8) :
    ChunkState :=
  let finished := self.finishBuf input
  let compressed := finished.1.compressInput finished.2
  compressed.1.fillBuf compressed.2

/-- The output of the chunk. -/
def output
    (self : ChunkState) :
    Output where
  inputCv := self.cv
  counter := self.chunkCounter
  block := self.buf
  blockLen := UInt8.ofNat self.bufLen
  flags := self.flags ||| self.maybeStartFlag ||| chunkEnd

end ChunkState

/-! ## Subtrees -/

/-- How many chunks are hashed side by side, and room for how many. -/
structure Platform where
  maxSimdDegree : Nat
  simdDegree : Nat
  exists_level : ∃ level, simdDegree = 2 ^ level
  degree_le : simdDegree ≤ maxSimdDegree

namespace Platform

/-- The build without vector code on a processor that has vector units. -/
def portable : Platform :=
  ⟨16, 1, ⟨0, rfl⟩, by decide⟩

/-- Room for at least two. -/
def maxSimdDegreeOr2
    (platform : Platform) :
    Nat :=
  if 2 < platform.maxSimdDegree then platform.maxSimdDegree else 2

theorem simdDegree_pos
    (platform : Platform) :
    0 < platform.simdDegree := by
  obtain ⟨level, isPower⟩ := platform.exists_level
  rw [isPower]
  exact Nat.two_pow_pos level

end Platform

/-- Index of the highest one-bit of a number that is not zero. -/
def highestOne
    (value : Nat) :
    Nat :=
  value.log2

/-- Largest power of two that is at most a number, and one for zero. -/
def roundDownToPowerOf2
    (value : Nat) :
    Nat :=
  2 ^ highestOne (value ||| 1)

theorem roundDownToPowerOf2_pos
    (value : Nat) :
    0 < roundDownToPowerOf2 value :=
  Nat.two_pow_pos _

theorem roundDownToPowerOf2_eq
    {value : Nat}
    (positive : 0 < value) :
    roundDownToPowerOf2 value = 2 ^ value.log2 := by
  have lower := Nat.log2_self_le (n := value) (by omega)
  have upper := Nat.lt_log2_self (n := value)
  have grows : value ≤ value ||| 1 := Nat.left_le_or
  have bounded : value ||| 1 < 2 ^ (value.log2 + 1) :=
    Nat.or_lt_two_pow upper (Nat.one_lt_two_pow (by omega))
  unfold roundDownToPowerOf2 highestOne
  rw [(Nat.log2_eq_iff (by omega)).2 ⟨by omega, bounded⟩]

theorem roundDownToPowerOf2_le
    {value : Nat}
    (positive : 0 < value) :
    roundDownToPowerOf2 value ≤ value := by
  rw [roundDownToPowerOf2_eq positive]
  exact Nat.log2_self_le (by omega)

/-- Bytes of the left subtree of an input of more than one chunk. -/
def leftLen
    (contentLen : Nat) :
    Nat :=
  roundDownToPowerOf2 ((contentLen - 1) / chunkLen) * chunkLen

theorem leftLen_pos
    (contentLen : Nat) :
    0 < leftLen contentLen :=
  Nat.mul_pos (roundDownToPowerOf2_pos _) (by decide)

theorem leftLen_lt
    {contentLen : Nat}
    (several : chunkLen < contentLen) :
    leftLen contentLen < contentLen := by
  unfold chunkLen at several
  have whole : 0 < (contentLen - 1) / 1024 := by
    omega
  have bounded := roundDownToPowerOf2_le whole
  unfold leftLen chunkLen
  omega

/-- The whole chunks of an input, and the bytes after them. -/
def wholeChunks
    (input : List UInt8) :
    List (List UInt8) × List UInt8 :=
  if chunkLen ≤ input.length then
    let rest := wholeChunks (input.drop chunkLen)
    (input.take chunkLen :: rest.1, rest.2)
  else
    ([], input)
termination_by input.length
decreasing_by
  simp only [List.length_drop, chunkLen] at *
  omega

/-- Chaining values of the chunks of an input, a last short one too. -/
def compressChunksParallel
    (platform : Platform)
    (input : List UInt8)
    (key : Words)
    (chunkCounter : UInt64)
    (flags : UInt8) :
    Option (List Hash256) :=
  let chunks := wholeChunks input
  if platform.maxSimdDegree < chunks.1.length then
    none
  else
    let cvs :=
      hashManyPortable (chunkLen / blockLen) key true flags chunkStart
        chunkEnd chunkCounter chunks.1
    if 0 < chunks.2.length then
      let counter := chunkCounter + UInt64.ofNat chunks.1.length
      let chunkState := ChunkState.initAt key flags counter
      some (cvs ++ [(chunkState.update chunks.2).output.chainingValue])
    else
      some cvs

/-- The message blocks of the parents of pairs, and an odd one left over. -/
def childPairs :
    List Hash256 → List (List UInt8) × List Hash256
  | left :: right :: rest =>
      let pairs := childPairs rest
      ((left.bytes ++ right.bytes) :: pairs.1, pairs.2)
  | rest => ([], rest)

/-- One layer of parents; an odd chaining value is passed on. -/
def compressParentsParallel
    (platform : Platform)
    (childChainingValues : List Hash256)
    (key : Words)
    (flags : UInt8) :
    Option (List Hash256) :=
  let pairs := childPairs childChainingValues
  if platform.maxSimdDegreeOr2 < pairs.1.length then
    none
  else
    some
      (hashManyPortable 1 key false (flags ||| parentFlag) 0 0 0 pairs.1 ++
        pairs.2)

/-- An array of chaining values; a slot may not have been written yet. -/
abbrev CvArray := List (Option Hash256)

namespace CvArray

/-- An array none of whose slots is written. -/
def fresh
    (size : Nat) :
    CvArray :=
  List.replicate size none

/-- Write chaining values from a slot on. -/
def write
    (array : CvArray)
    (offset : Nat)
    (cvs : List Hash256) :
    Option CvArray :=
  if offset + cvs.length ≤ array.length then
    some
      (array.take offset ++ cvs.map some ++
        array.drop (offset + cvs.length))
  else
    none

/-- Read chaining values from the first slot on. -/
def read
    (array : CvArray)
    (count : Nat) :
    Option (List Hash256) :=
  if count ≤ array.length then
    (array.take count).mapM id
  else
    none

end CvArray

/-- Degree by which the right subtree's values are placed in the array. -/
def placementDegree
    (platform : Platform)
    (leftInputLen : Nat) :
    Nat :=
  if chunkLen < leftInputLen ∧ platform.simdDegree = 1 then
    2
  else
    platform.simdDegree

/-- Place the values of both halves in one array and form their parents. -/
def combineHalves
    (platform : Platform)
    (key : Words)
    (flags : UInt8)
    (degree : Nat)
    (left right : List Hash256) :
    Option (List Hash256) := do
  let cvArray := CvArray.fresh (2 * platform.maxSimdDegreeOr2)
  let cvArray ← CvArray.write cvArray 0 left
  let cvArray ← CvArray.write cvArray degree right
  if left.length = 1 then
    CvArray.read cvArray 2
  else
    let cvs ← CvArray.read cvArray (left.length + right.length)
    compressParentsParallel platform cvs key flags

/-- Chaining values of a wide layer of the tree over an input. -/
def compressSubtreeWide
    (platform : Platform)
    (input : List UInt8)
    (key : Words)
    (chunkCounter : UInt64)
    (flags : UInt8) :
    Option (List Hash256) :=
  if input.length ≤ platform.simdDegree * chunkLen then
    compressChunksParallel platform input key chunkCounter flags
  else
    let leftInputLen := leftLen input.length
    let rightChunkCounter :=
      chunkCounter + UInt64.ofNat (leftInputLen / chunkLen)
    let degree := placementDegree platform leftInputLen
    match
      compressSubtreeWide platform (input.take leftInputLen) key
        chunkCounter flags,
      compressSubtreeWide platform (input.drop leftInputLen) key
        rightChunkCounter flags with
    | some left, some right =>
        combineHalves platform key flags degree left right
    | _, _ => none
termination_by input.length
decreasing_by
  all_goals
    have several : chunkLen < input.length := by
      have degree := platform.simdDegree_pos
      unfold chunkLen at *
      omega
    have shorter := leftLen_lt several
    have positive := leftLen_pos input.length
    simp only [List.length_take, List.length_drop]
    omega

theorem length_hashManyPortable
    (blocks : Nat)
    (key : Words)
    (incrementCounter : Bool)
    (flags flagsStart flagsEnd : UInt8)
    (counter : UInt64)
    (inputs : List (List UInt8)) :
    (hashManyPortable blocks key incrementCounter flags flagsStart flagsEnd
      counter inputs).length = inputs.length := by
  induction inputs generalizing counter with
  | nil =>
      rfl
  | cons input inputs inductionHypothesis =>
      rw [hashManyPortable, List.length_cons, List.length_cons,
        inductionHypothesis]

theorem length_childPairs
    (cvs : List Hash256) :
    (childPairs cvs).1.length + (childPairs cvs).2.length =
      (cvs.length + 1) / 2 := by
  fun_induction childPairs cvs with
  | case1 left right rest pairs inductionHypothesis =>
      simp only [List.length_cons]
      have counted : pairs.1.length + pairs.2.length =
          (rest.length + 1) / 2 :=
        inductionHypothesis
      omega
  | case2 cvs short =>
      rcases cvs with _ | ⟨left, _ | ⟨right, rest⟩⟩
      · simp
      · simp
      · exact (short left right rest rfl).elim

theorem length_of_compressParentsParallel
    {platform : Platform}
    {cvs parents : List Hash256}
    {key : Words}
    {flags : UInt8}
    (compressed :
      compressParentsParallel platform cvs key flags = some parents) :
    parents.length = (cvs.length + 1) / 2 := by
  unfold compressParentsParallel at compressed
  simp only [Option.ite_none_left_eq_some, Option.some.injEq]
    at compressed
  rw [← compressed.2, List.length_append, length_hashManyPortable,
    length_childPairs]

/-- Form parents until two chaining values are left. -/
def condense
    (platform : Platform)
    (key : Words)
    (flags : UInt8)
    (cvs : List Hash256) :
    Option (List Hash256) :=
  if 2 < cvs.length then
    match _compressed :
      compressParentsParallel platform cvs key flags with
    | none => none
    | some parents =>
        if platform.maxSimdDegreeOr2 / 2 < parents.length then
          none
        else
          condense platform key flags parents
  else
    some cvs
termination_by cvs.length
decreasing_by
  rw [length_of_compressParentsParallel _compressed]
  omega

/-- The chaining values of the two children of the root over an input. -/
def compressSubtreeToParentNode
    (platform : Platform)
    (input : List UInt8)
    (key : Words)
    (chunkCounter : UInt64)
    (flags : UInt8) :
    Option (Hash256 × Hash256) := do
  let cvs ← compressSubtreeWide platform input key chunkCounter flags
  if platform.maxSimdDegreeOr2 < cvs.length then
    none
  else
    let cvs ←
      if 2 < platform.maxSimdDegreeOr2 then
        condense platform key flags cvs
      else
        some cvs
    match cvs with
    | left :: right :: _ => some (left, right)
    | _ => none

/-! ## The hasher -/

/-- Number of one-bits of a word. -/
def popcnt
    (value : UInt64) :
    Nat :=
  (List.range 64).countP fun bit => value.toNat.testBit bit

/-- A key, the chunk being read, and a stack of subtrees before it. -/
structure Hasher where
  key : Words
  chunk : ChunkState
  cvStack : List Hash256

namespace Hasher

def initBase
    (key : Words)
    (flags : UInt8) :
    Hasher :=
  ⟨key, ChunkState.init key flags, []⟩

def init : Hasher :=
  initBase iv 0

/-- Merge the values on top while the stack is higher than a target. -/
def mergeCvs
    (key : Words)
    (flags : UInt8)
    (postMergeStackLen : Nat)
    (top : Hash256) :
    List Hash256 → Option (List Hash256)
  | [] => if postMergeStackLen < 1 then none else some [top]
  | below :: rest =>
      if postMergeStackLen < rest.length + 2 then
        mergeCvs key flags postMergeStackLen
          (parentOutput below top key flags).chainingValue rest
      else
        some (top :: below :: rest)

def mergeCvStack
    (self : Hasher)
    (totalLen : UInt64) :
    Option Hasher :=
  match self.cvStack with
  | [] => some self
  | top :: rest =>
      (mergeCvs self.key self.chunk.flags (popcnt totalLen) top rest).map
        fun merged => { self with cvStack := merged }

/-- Merge what is on the stack, then put a new value on top of it. -/
def pushCv
    (self : Hasher)
    (newCv : Hash256)
    (chunkCounter : UInt64) :
    Option Hasher :=
  match self.mergeCvStack chunkCounter with
  | none => none
  | some merged =>
      if merged.cvStack.length < maxDepth + 1 then
        some { merged with cvStack := newCv :: merged.cvStack }
      else
        none

/-- Halve a subtree until it divides the bytes before it. -/
def shrinkSubtree
    (subtreeLen countSoFar : Nat) :
    Nat :=
  if (subtreeLen - 1) &&& countSoFar = 0 then
    subtreeLen
  else
    shrinkSubtree (subtreeLen / 2) countSoFar
termination_by subtreeLen
decreasing_by
  rcases Nat.eq_zero_or_pos subtreeLen with isZero | positive
  · simp [isZero] at *
  · omega

theorem shrinkSubtree_pos
    {subtreeLen : Nat}
    (countSoFar : Nat)
    (positive : 0 < subtreeLen) :
    0 < shrinkSubtree subtreeLen countSoFar := by
  fun_induction shrinkSubtree subtreeLen countSoFar with
  | case1 subtreeLen divides =>
      exact positive
  | case2 subtreeLen shared inductionHypothesis =>
      apply inductionHypothesis
      by_contra isSmall
      have isOne : subtreeLen = 1 := by
        omega
      simp [isOne] at shared

/-- Bytes of the next subtree that is hashed as a whole. -/
def subtreeLen
    (self : Hasher)
    (input : List UInt8) :
    Nat :=
  shrinkSubtree (roundDownToPowerOf2 input.length)
    (self.chunk.chunkCounter * 1024).toNat

/-- Push the chaining values of one subtree, a single chunk or a pair. -/
def pushSubtree
    (platform : Platform)
    (self : Hasher)
    (input : List UInt8) :
    Option Hasher :=
  if input.length ≤ chunkLen then
    let chunkState :=
      ChunkState.initAt self.key self.chunk.flags self.chunk.chunkCounter
    self.pushCv (chunkState.update input).output.chainingValue
      self.chunk.chunkCounter
  else do
    let pair ←
      compressSubtreeToParentNode platform input self.key
        self.chunk.chunkCounter self.chunk.flags
    let pushed ← self.pushCv pair.1 self.chunk.chunkCounter
    pushed.pushCv pair.2
      (self.chunk.chunkCounter +
        UInt64.ofNat (input.length / chunkLen / 2))

/-- Count the chunks of a subtree that was pushed. -/
def advance
    (self : Hasher)
    (subtreeChunks : Nat) :
    Hasher :=
  { self with
    chunk :=
      { self.chunk with
        chunkCounter :=
          self.chunk.chunkCounter + UInt64.ofNat subtreeChunks } }

/-- Hash whole subtrees while more than one chunk of input is left. -/
def hashSubtrees
    (platform : Platform)
    (self : Hasher)
    (input : List UInt8) :
    Option (Hasher × List UInt8) :=
  if chunkLen < input.length then
    match self.pushSubtree platform (input.take (self.subtreeLen input)) with
    | none => none
    | some pushed =>
        hashSubtrees platform
          (pushed.advance (self.subtreeLen input / chunkLen))
          (input.drop (self.subtreeLen input))
  else
    some (self, input)
termination_by input.length
decreasing_by
  have positive :=
    shrinkSubtree_pos (self.chunk.chunkCounter * 1024).toNat
      (roundDownToPowerOf2_pos input.length)
  simp only [subtreeLen, List.length_drop]
  unfold chunkLen at *
  omega

/-- Complete the chunk being read; the rest of the input, if any, is left. -/
def finishChunk
    (self : Hasher)
    (input : List UInt8) :
    Option (Hasher × List UInt8) :=
  let take :=
    if input.length < chunkLen - self.chunk.len then
      input.length
    else
      chunkLen - self.chunk.len
  let chunk := self.chunk.update (input.take take)
  let rest := input.drop take
  if 0 < rest.length then
    (({ self with chunk := chunk }).pushCv chunk.output.chainingValue
      chunk.chunkCounter).map fun (pushed : Hasher) =>
        ({ pushed with
            chunk :=
              pushed.chunk.reset pushed.key (pushed.chunk.chunkCounter + 1) },
          rest)
  else
    some ({ self with chunk := chunk }, [])

/-- Read the last bytes of the input into the chunk, and merge the stack. -/
def readRest
    (self : Hasher)
    (input : List UInt8) :
    Option Hasher :=
  if 0 < input.length then
    ({ self with chunk := self.chunk.update input }).mergeCvStack
      self.chunk.chunkCounter
  else
    some self

/-- Read more input. -/
def update
    (platform : Platform)
    (self : Hasher)
    (input : List UInt8) :
    Option Hasher :=
  if input.length = 0 then
    some self
  else if 0 < self.chunk.len then do
    let (finished, rest) ← self.finishChunk input
    if rest.length = 0 then
      some finished
    else
      let (hashed, rest) ← finished.hashSubtrees platform rest
      hashed.readRest rest
  else do
    let (hashed, rest) ← self.hashSubtrees platform input
    hashed.readRest rest

/-- The parent over each stack entry in turn, from the top down. -/
def rollUpStack
    (self : Hasher)
    (output : Output)
    (cvs : List Hash256) :
    Output :=
  cvs.foldl
    (fun output cv =>
      parentOutput cv output.chainingValue self.key self.chunk.flags)
    output

/-- The output of the root. -/
def rootOutput
    (self : Hasher) :
    Option Output :=
  if self.cvStack.length = 0 then
    some self.chunk.output
  else if 0 < self.chunk.len then
    some (self.rollUpStack self.chunk.output self.cvStack)
  else
    match self.cvStack with
    | right :: left :: rest =>
        some
          (self.rollUpStack
            (parentOutput left right self.key self.chunk.flags) rest)
    | _ => none

/-- Output bytes from a position on. -/
def finalizeSeek
    (self : Hasher)
    (seek : UInt64)
    (outLen : Nat) :
    Option (List UInt8) :=
  if outLen = 0 then
    some []
  else
    self.rootOutput.map fun output => output.rootBytes seek outLen

def finalize
    (self : Hasher)
    (outLen : Nat) :
    Option (List UInt8) :=
  self.finalizeSeek 0 outLen

/-- Start over with the same key and flags. -/
def reset
    (self : Hasher) :
    Hasher :=
  { self with
    chunk := self.chunk.reset self.key 0
    cvStack := [] }

end Hasher

/-- Hash an input that is given at once. -/
def blake3Full
    (platform : Platform)
    (input : List UInt8) :
    Option (List UInt8) := do
  let hasher ← Hasher.init.update platform input
  hasher.finalize 32

end Blake3

end Lethe
