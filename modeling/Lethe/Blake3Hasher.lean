import Lethe.Blake3Tree

namespace Lethe

namespace Blake3

/-!
# The incremental hasher

The state of a hasher is described by a position in one fixed message.  Below
the chunk being read, the stack holds one full subtree for each one-bit of the
number of chunks before it; the last subtree pushed may still be unmerged.
From this it follows that pushing a subtree, and so every update, stays within
the stack and keeps the description, and that the output is that of the root
of the tree over the whole message, however the message was cut.
-/

/-! ## The tree over a message -/

section Message

variable (key : Words) (flags : UInt8) (message : List UInt8)

/-- The output of a numbered chunk of the message. -/
def messageLeaf
    (index : Nat) :
    Output :=
  chunkOutput key (UInt64.ofNat index) flags (chunkAt message index)

/-- The output of the root of the tree; an empty message is one chunk. -/
def treeOutput : Output :=
  HashTree.root (combineOutputs key flags)
    ((List.range (max 1 (chunkCount message.length))).map
      (messageLeaf key flags message))

/-- The chaining value of a parent. -/
def combineCvs
    (left right : Hash256) :
    Hash256 :=
  (parentOutput left right key flags).chainingValue

/-- The chaining value of a full subtree of the message. -/
def nodeCv
    (level index : Nat) :
    Hash256 :=
  HashTree.node (combineCvs key flags)
    (fun number => (messageLeaf key flags message number).chainingValue)
    level index

/-- The chaining values of the full subtrees of the leading chunks. -/
def peakCvs
    (level count : Nat) :
    List Hash256 :=
  HashTree.peaks (combineCvs key flags)
    (fun number => (messageLeaf key flags message number).chainingValue)
    level count

theorem chainingValue_node
    (level index : Nat) :
    (HashTree.node (combineOutputs key flags)
        (messageLeaf key flags message) level index).chainingValue =
      nodeCv key flags message level index :=
  HashTree.map_node (combineOutputs key flags)
    (messageLeaf key flags message) (combineCvs key flags)
    Output.chainingValue (fun _ _ => rfl) level index

theorem map_chainingValue_peaks
    (level count : Nat) :
    (HashTree.peaks (combineOutputs key flags)
        (messageLeaf key flags message) level count).map
          Output.chainingValue =
      peakCvs key flags message level count :=
  HashTree.map_peaks (combineOutputs key flags)
    (messageLeaf key flags message) (combineCvs key flags)
    Output.chainingValue (fun _ _ => rfl) level count

theorem length_peakCvs
    (level count : Nat) :
    (peakCvs key flags message level count).length =
      HashTree.ones count :=
  HashTree.length_peaks _ _ level count

/-- The leaves of a part of the message are numbered as in the whole. -/
theorem leaves_part
    {start count : Nat}
    (within : chunkLen * (start + count) ≤ message.length) :
    leaves key (UInt64.ofNat start) flags
        ((message.drop (chunkLen * start)).take (chunkLen * count)) =
      (List.range count).map fun offset =>
        messageLeaf key flags message (start + offset) := by
  have size :
      chunkCount
          ((message.drop (chunkLen * start)).take
            (chunkLen * count)).length = count := by
    rw [List.length_take, List.length_drop]
    unfold chunkCount chunkLen at *
    omega
  unfold leaves messageLeaf
  rw [size]
  apply List.map_congr_left
  intro offset inPart
  rw [List.mem_range] at inPart
  have sameChunk :
      chunkAt
          ((message.drop (chunkLen * start)).take (chunkLen * count))
          offset =
        chunkAt message (start + offset) := by
    unfold chunkAt
    rw [List.drop_take, List.take_take, List.drop_drop, Nat.mul_add,
      Nat.min_eq_left]
    rw [← Nat.mul_sub]
    exact Nat.le_mul_of_pos_right _ (by omega)
  rw [sameChunk, UInt64.ofNat_add]

/-- Bytes of a part of the message. -/
theorem length_part
    {position finish : Nat}
    (available : finish ≤ message.length) :
    ((message.take finish).drop position).length = finish - position := by
  rw [List.length_drop, List.length_take, Nat.min_eq_left available]

theorem length_chunkAt
    {count : Nat}
    (available : chunkLen * (count + 1) ≤ message.length) :
    (chunkAt message count).length = chunkLen := by
  unfold chunkAt chunkLen at *
  rw [List.length_take, List.length_drop]
  omega

end Message

/-! ## Words that count -/

theorem countP_testBit
    {bits value : Nat}
    (bounded : value < 2 ^ bits) :
    (List.range bits).countP (fun bit => value.testBit bit) =
      HashTree.ones value := by
  induction bits generalizing value with
  | zero =>
      have isZero : value = 0 := by
        simpa using bounded
      simp [isZero]
  | succ bits inductionHypothesis =>
      rw [Nat.pow_succ] at bounded
      have higher := @inductionHypothesis (value / 2) (by omega)
      rw [List.range_succ_eq_map, List.countP_cons, List.countP_map]
      simp only [Function.comp_def, Nat.succ_eq_add_one, Nat.testBit_succ,
        Nat.testBit_zero, higher]
      rcases Nat.even_or_odd' value with ⟨half, isEven | isOdd⟩
      · subst isEven
        simp
      · subst isOdd
        have halved : (2 * half + 1) / 2 = half := by
          omega
        have odd : (2 * half + 1) % 2 = 1 := by
          omega
        simp [halved, odd]

/-- The population count is the number of one-bits. -/
theorem popcnt_ofNat
    {value : Nat}
    (bounded : value < 2 ^ 64) :
    popcnt (UInt64.ofNat value) = HashTree.ones value := by
  unfold popcnt
  rw [UInt64.toNat_ofNat_of_lt' bounded]
  exact countP_testBit bounded

namespace Hasher

/-- A subtree length is halved until it divides what comes before it. -/
theorem shrinkSubtree_two_pow
    {low level count : Nat}
    (aligned : 2 ^ low ∣ count)
    (enough : low ≤ level) :
    ∃ shrunk,
      shrinkSubtree (2 ^ level) count = 2 ^ shrunk ∧
        low ≤ shrunk ∧ shrunk ≤ level ∧ 2 ^ shrunk ∣ count := by
  induction level with
  | zero =>
      refine ⟨0, ?_, enough, Nat.le_refl _, by simp⟩
      rw [shrinkSubtree, if_pos (by simp)]
  | succ level inductionHypothesis =>
      have masked :
          (2 ^ (level + 1) - 1) &&& count = count % 2 ^ (level + 1) := by
        rw [Nat.and_comm, Nat.and_two_pow_sub_one_eq_mod]
      rw [shrinkSubtree, masked]
      by_cases divides : count % 2 ^ (level + 1) = 0
      · rw [if_pos divides]
        exact ⟨level + 1, rfl, enough, Nat.le_refl _,
          Nat.dvd_of_mod_eq_zero divides⟩
      · have notLow : low ≠ level + 1 := by
          intro isLow
          rw [isLow] at aligned
          exact divides (Nat.mod_eq_zero_of_dvd aligned)
        have halved : 2 ^ (level + 1) / 2 = 2 ^ level := by
          rw [Nat.pow_succ, Nat.mul_div_cancel _ (by omega)]
        obtain ⟨shrunk, isShrunk, above, below, aligns⟩ :=
          inductionHypothesis (by omega)
        rw [if_neg divides, halved]
        exact ⟨shrunk, isShrunk, above, by omega, aligns⟩

/-! ## Positions of the hasher -/

section Positions

variable (key : Words) (flags : UInt8) (message : List UInt8)

/-- What the stack holds before the next merge. -/
inductive Pending (count : Nat) : List Hash256 → Prop where
  | merged :
      Pending count (peakCvs key flags message 0 count)
  | unmerged
      (level index : Nat) :
      count = (index + 1) * 2 ^ level →
      Pending count
        (nodeCv key flags message level index ::
          peakCvs key flags message level index)

/-- A hasher between two chunks. -/
structure Between
    (count : Nat)
    (hasher : Hasher) :
    Prop where
  key_eq : hasher.key = key
  chunk_eq :
    hasher.chunk = ChunkState.initAt key flags (UInt64.ofNat count)
  pending : Pending key flags message count hasher.cvStack

/-- A stack whose last subtree was pushed as two halves. -/
def Paired
    (count : Nat)
    (stack : List Hash256) :
    Prop :=
  ∃ level index,
    count = (index + 1) * 2 ^ (level + 1) ∧
      stack =
        nodeCv key flags message level (2 * index + 1) ::
          peakCvs key flags message level (2 * index + 1)

/-- A hasher that has read some bytes of a chunk, or all of them. -/
structure InChunk
    (count position : Nat)
    (hasher : Hasher) :
    Prop where
  key_eq : hasher.key = key
  chunk_eq :
    hasher.chunk =
      ChunkState.reading key (UInt64.ofNat count) flags
        (chunkAt message count) (position - chunkLen * count)
  stack_eq : hasher.cvStack = peakCvs key flags message 0 count
  above : chunkLen * count < position
  below : position ≤ chunkLen * (count + 1)

/-- The state of a hasher that has read the message up to a position. -/
inductive Represents
    (position : Nat)
    (hasher : Hasher) :
    Prop where
  | start :
      position = 0 →
      hasher = initBase key flags →
      Represents position hasher
  | inChunk
      (count : Nat) :
      InChunk key flags message count position hasher →
      Represents position hasher
  | afterPair
      (count : Nat) :
      position = chunkLen * count →
      Between key flags message count hasher →
      Paired key flags message count hasher.cvStack →
      Represents position hasher

theorem between_initBase :
    Between key flags message 0 (initBase key flags) where
  key_eq := rfl
  chunk_eq := rfl
  pending := by
    have empty :
        Pending key flags message 0 (peakCvs key flags message 0 0) :=
      Pending.merged
    rwa [peakCvs, HashTree.peaks_zero] at empty

variable {key flags message}

theorem Paired.pending
    {count : Nat}
    {stack : List Hash256}
    (paired : Paired key flags message count stack) :
    Pending key flags message count stack := by
  obtain ⟨level, index, isCount, rfl⟩ := paired
  refine Pending.unmerged level (2 * index + 1) ?_
  rw [isCount]
  ring

section Between

variable {count : Nat} {self : Hasher}
  (between : Between key flags message count self)

include between

theorem Between.flags_eq :
    self.chunk.flags = flags := by
  rw [between.chunk_eq]
  rfl

theorem Between.counter_eq :
    self.chunk.chunkCounter = UInt64.ofNat count := by
  rw [between.chunk_eq]
  rfl

theorem Between.len_eq :
    self.chunk.len = 0 := by
  rw [between.chunk_eq]
  rfl

end Between

/-! ## The stack -/

/-- Merging never runs out of the stack while something is to be left. -/
theorem mergeCvs_eq
    (target : Nat)
    (positive : 0 < target)
    (top : Hash256)
    (rest : List Hash256) :
    mergeCvs key flags target top rest =
      some (HashTree.merge (combineCvs key flags) target top rest) := by
  induction rest generalizing top with
  | nil =>
      rw [mergeCvs, if_neg (by omega)]
      rfl
  | cons below rest inductionHypothesis =>
      rw [mergeCvs, HashTree.merge]
      split
      · exact inductionHypothesis _
      · rfl

/-- Merging leaves one subtree for each one-bit of the count. -/
theorem mergeCvStack_eq
    (self : Hasher)
    {count : Nat}
    (sameKey : self.key = key)
    (sameFlags : self.chunk.flags = flags)
    (pending : Pending key flags message count self.cvStack)
    (bounded : count < 2 ^ 64) :
    self.mergeCvStack (UInt64.ofNat count) =
      some { self with cvStack := peakCvs key flags message 0 count } := by
  obtain ⟨selfKey, chunk, stack⟩ := self
  simp only at sameKey sameFlags pending
  subst sameKey
  subst sameFlags
  unfold mergeCvStack
  simp only [popcnt_ofNat bounded]
  cases pending with
  | merged =>
      have height := length_peakCvs selfKey chunk.flags message 0 count
      cases peaks : peakCvs selfKey chunk.flags message 0 count with
      | nil =>
          rfl
      | cons top rest =>
          rw [peaks, List.length_cons] at height
          simp only [mergeCvs_eq (HashTree.ones count) (by omega) top rest,
            Option.map_some,
            HashTree.merge_of_length_le (combineCvs selfKey chunk.flags)
              (Nat.le_of_eq height)]
  | unmerged level index isCount =>
      have ones : HashTree.ones count = HashTree.ones (index + 1) := by
        rw [isCount, HashTree.ones_mul_two_pow]
      have sameLevel :
          peakCvs selfKey chunk.flags message 0 count =
            peakCvs selfKey chunk.flags message level (index + 1) := by
        rw [isCount]
        exact HashTree.peaks_mul_two_pow _ _ level (index + 1)
      have merges :=
        HashTree.merge_peaks (combineCvs selfKey chunk.flags)
          (fun number =>
            (messageLeaf selfKey chunk.flags message number).chainingValue)
          level index
      rw [ones, sameLevel]
      simp only [mergeCvs_eq _
        (HashTree.ones_pos (Nat.succ_pos index)), Option.map_some]
      exact congrArg (fun stack => some (Hasher.mk selfKey chunk stack))
        merges

/-- Pushing the next subtree leaves it unmerged on the merged stack. -/
theorem pushCv_eq
    (self : Hasher)
    (count level index : Nat)
    (sameKey : self.key = key)
    (sameFlags : self.chunk.flags = flags)
    (pending : Pending key flags message count self.cvStack)
    (bounded : count < 2 ^ 54)
    (isCount : count = index * 2 ^ level) :
    self.pushCv (nodeCv key flags message level index)
        (UInt64.ofNat count) =
      some
        { self with
          cvStack :=
            nodeCv key flags message level index ::
              peakCvs key flags message level index } := by
  have merges :=
    mergeCvStack_eq self sameKey sameFlags pending
      (by omega)
  have room : HashTree.ones count ≤ 54 := HashTree.ones_le_of_lt bounded
  have sameLevel :
      peakCvs key flags message 0 count =
        peakCvs key flags message level index := by
    rw [isCount]
    exact HashTree.peaks_mul_two_pow _ _ level index
  unfold pushCv
  simp only [merges, length_peakCvs]
  rw [if_pos (by
    unfold maxDepth
    omega), sameLevel]

/-! ## Parts of a chunk -/

variable {self : Hasher} {count finish : Nat}

/-- The bytes of a chunk up to a position of the message. -/
theorem take_chunkAt
    {start : Nat}
    (above : chunkLen * count ≤ start)
    (within : finish ≤ chunkLen * (count + 1)) :
    (message.take finish).drop start =
      ((chunkAt message count).drop (start - chunkLen * count)).take
        (finish - start) := by
  unfold chunkAt
  rw [List.drop_take, List.drop_take, List.drop_drop, List.take_take,
    Nat.add_sub_cancel' above, Nat.min_eq_left]
  rw [Nat.mul_succ] at within
  omega

/-- Reading on within a chunk. -/
theorem chunk_update_eq
    (key : Words)
    (flags : UInt8)
    {start : Nat}
    (above : chunkLen * count ≤ start)
    (ordered : start ≤ finish)
    (within : finish ≤ chunkLen * (count + 1))
    (available : finish ≤ message.length) :
    (ChunkState.reading key (UInt64.ofNat count) flags
          (chunkAt message count) (start - chunkLen * count)).update
        ((message.take finish).drop start) =
      ChunkState.reading key (UInt64.ofNat count) flags
        (chunkAt message count) (finish - chunkLen * count) := by
  have size :
      finish - chunkLen * count ≤ (chunkAt message count).length := by
    unfold chunkAt
    rw [List.length_take, List.length_drop]
    rw [Nat.mul_succ] at within
    omega
  have moved :
      start - chunkLen * count + (finish - start) =
        finish - chunkLen * count := by
    omega
  rw [take_chunkAt above within,
    ChunkState.update_reading _ _ _ _ _ _ (by
      rw [Nat.mul_succ] at within
      omega) (by omega), moved]

/-! ## Whole subtrees -/

section Subtrees

variable (platform : Platform) (between : Between key flags message count self)

include between

/-- Pushing a subtree of a single chunk. -/
theorem pushSubtree_chunk
    (bounded : count < 2 ^ 54)
    (available : chunkLen * (count + 1) ≤ message.length) :
    ∃ stack,
      self.pushSubtree platform (chunkAt message count) =
          some { self with cvStack := stack } ∧
        Pending key flags message (count + 1) stack := by
  have size := length_chunkAt message available
  have pushed :=
    pushCv_eq self count 0 count between.key_eq
      between.flags_eq between.pending bounded (by omega)
  refine ⟨_, ?_, Pending.unmerged 0 count (by omega)⟩
  unfold pushSubtree
  rw [if_pos (Nat.le_of_eq size)]
  simp only [between.key_eq, between.flags_eq, between.counter_eq]
    at pushed ⊢
  rw [ChunkState.output_update_initAt key _ flags (Nat.le_of_eq size)]
  exact pushed

/-- Pushing a full subtree of two chunks or more as two halves. -/
theorem pushSubtree_pair
    {level index : Nat}
    (isCount : count = index * 2 ^ (level + 1))
    (bounded : count + 2 ^ (level + 1) < 2 ^ 54)
    (available :
      chunkLen * (count + 2 ^ (level + 1)) ≤ message.length) :
    ∃ stack,
      self.pushSubtree platform
            ((message.drop (chunkLen * count)).take
              (chunkLen * 2 ^ (level + 1))) =
          some { self with cvStack := stack } ∧
        Paired key flags message (count + 2 ^ (level + 1)) stack := by
  have halves : 2 ^ (level + 1) = 2 ^ level + 2 ^ level := by
    ring
  have positive := Nat.two_pow_pos level
  have size :
      ((message.drop (chunkLen * count)).take
        (chunkLen * 2 ^ (level + 1))).length =
          chunkLen * 2 ^ (level + 1) := by
    rw [List.length_take, List.length_drop]
    unfold chunkLen at *
    omega
  have many : chunkLen < chunkLen * 2 ^ (level + 1) := by
    unfold chunkLen
    omega
  have pair :=
    compressSubtreeToParentNode_children platform key flags
      (UInt64.ofNat count)
      ((message.drop (chunkLen * count)).take
        (chunkLen * 2 ^ (level + 1))) (by rwa [size])
  have subtrees :=
    HashTree.children_leaves (combineOutputs key flags)
      (messageLeaf key flags message) level index
  rw [← isCount] at subtrees
  rw [leaves_part key flags message available, subtrees] at pair
  simp only [chainingValue_node] at pair
  have first :=
    pushCv_eq self count level (2 * index)
      between.key_eq between.flags_eq between.pending (by omega) (by
        rw [isCount]
        ring)
  have second :=
    pushCv_eq
      { self with
        cvStack :=
          nodeCv key flags message level (2 * index) ::
            peakCvs key flags message level (2 * index) }
      (count + 2 ^ level) level (2 * index + 1) between.key_eq
      between.flags_eq
      (Pending.unmerged level (2 * index) (by
        rw [isCount]
        ring))
      (by omega) (by
        rw [isCount]
        ring)
  have half :
      UInt64.ofNat count +
          UInt64.ofNat (chunkLen * 2 ^ (level + 1) / chunkLen / 2) =
        UInt64.ofNat (count + 2 ^ level) := by
    rw [Nat.mul_div_cancel_left _ (by decide), halves, ← UInt64.ofNat_add]
    congr 2
    omega
  refine ⟨_, ?_, level, index, by
    rw [isCount]
    ring, rfl⟩
  unfold pushSubtree
  rw [size, if_neg (by omega), between.counter_eq, half,
    between.flags_eq]
  simp only [between.key_eq] at first second ⊢
  simp only [pair, Option.bind_eq_bind, Option.bind_some, first, second]

/-- The next subtree has a power of two of chunks that divides the count. -/
theorem exists_subtreeLen
    (input : List UInt8)
    (long : chunkLen < input.length)
    (bounded : chunkLen * count < 2 ^ 64) :
    ∃ level,
      self.subtreeLen input = chunkLen * 2 ^ level ∧
        chunkLen * 2 ^ level ≤ input.length ∧
          2 ^ level ∣ count := by
  have isChunk : chunkLen = 2 ^ 10 := by
    decide
  have positive : 0 < input.length := by
    omega
  have counted :
      (self.chunk.chunkCounter * 1024).toNat = 2 ^ 10 * count := by
    unfold chunkLen at bounded
    have literal : (1024 : UInt64).toNat = 1024 := rfl
    rw [between.counter_eq, UInt64.toNat_mul,
      UInt64.toNat_ofNat_of_lt' (by
        simp only [UInt64.size]
        omega), literal]
    omega
  have lower := Nat.log2_self_le (n := input.length) (by omega)
  have upper := Nat.lt_log2_self (n := input.length)
  have enough : 10 ≤ input.length.log2 := by
    apply (Nat.le_log2 (by omega)).2
    rw [← isChunk]
    omega
  obtain ⟨shrunk, isShrunk, above, below, divides⟩ :=
    shrinkSubtree_two_pow (Nat.dvd_mul_right (2 ^ 10) count) enough
  obtain ⟨level, rfl⟩ := Nat.exists_eq_add_of_le above
  rw [Nat.pow_add] at isShrunk divides
  refine ⟨level, ?_, ?_, ?_⟩
  · unfold subtreeLen
    rw [counted, roundDownToPowerOf2_eq positive, isShrunk, isChunk]
  · rw [isChunk, ← Nat.pow_add]
    exact (Nat.pow_le_pow_right (by omega) below).trans lower
  · exact Nat.dvd_of_mul_dvd_mul_left (by decide) divides

/-- One round of the loop over whole subtrees. -/
theorem pushSubtree_step
    (long : chunkLen * (count + 1) < finish)
    (available : finish ≤ message.length)
    (bounded : message.length < 2 ^ 64) :
    ∃ level pushed,
      self.subtreeLen ((message.take finish).drop (chunkLen * count)) =
          chunkLen * 2 ^ level ∧
        self.pushSubtree platform
              (((message.take finish).drop (chunkLen * count)).take
                (chunkLen * 2 ^ level)) =
            some pushed ∧
          Between key flags message (count + 2 ^ level)
              (pushed.advance (2 ^ level)) ∧
            chunkLen * (count + 2 ^ level) ≤ finish ∧
              (chunkLen * (count + 2 ^ level) = finish →
                Paired key flags message (count + 2 ^ level)
                  pushed.cvStack) := by
  have size :
      ((message.take finish).drop (chunkLen * count)).length =
        finish - chunkLen * count :=
    length_part message available
  obtain ⟨level, isLen, fits, index, isCount⟩ :=
    exists_subtreeLen between
      ((message.take finish).drop (chunkLen * count)) (by
        rw [size]
        unfold chunkLen at *
        omega) (by
        unfold chunkLen at *
        omega)
  rw [size] at fits
  have within : chunkLen * (count + 2 ^ level) ≤ finish := by
    unfold chunkLen at *
    omega
  have small : count + 2 ^ level < 2 ^ 54 := by
    unfold chunkLen at *
    omega
  have part :
      ((message.take finish).drop (chunkLen * count)).take
          (chunkLen * 2 ^ level) =
        (message.drop (chunkLen * count)).take (chunkLen * 2 ^ level) := by
    rw [List.drop_take, List.take_take, Nat.min_eq_left fits]
  have advances
      {stack : List Hash256}
      (pending : Pending key flags message (count + 2 ^ level) stack) :
      Between key flags message (count + 2 ^ level)
        (({ self with cvStack := stack }).advance (2 ^ level)) := by
    refine ⟨between.key_eq, ?_, pending⟩
    simp only [advance, between.chunk_eq, UInt64.ofNat_add]
    rfl
  refine ⟨level, ?_⟩
  rw [part]
  cases level with
  | zero =>
      obtain ⟨stack, pushes, pending⟩ :=
        pushSubtree_chunk platform between (by omega)
          (within.trans available)
      refine ⟨_, isLen, ?_, advances pending, within, ?_⟩
      · rw [pow_zero, Nat.mul_one]
        exact pushes
      · intro isEnd
        rw [pow_zero] at isEnd
        omega
  | succ level =>
      obtain ⟨stack, pushes, paired⟩ :=
        pushSubtree_pair platform between
          (isCount.trans (Nat.mul_comm _ _)) small
          (within.trans available)
      exact ⟨_, isLen, pushes, advances paired.pending, within,
        fun _ => paired⟩

/-- The loop over whole subtrees leaves at most one chunk of input. -/
theorem hashSubtrees_between
    (nonempty : chunkLen * count < finish)
    (available : finish ≤ message.length)
    (bounded : message.length < 2 ^ 64) :
    ∃ reached hashed,
      self.hashSubtrees platform
            ((message.take finish).drop (chunkLen * count)) =
          some
            (hashed, (message.take finish).drop (chunkLen * reached)) ∧
        Between key flags message reached hashed ∧
          finish ≤ chunkLen * (reached + 1) ∧
            (chunkLen * reached < finish ∨
              chunkLen * reached = finish ∧
                Paired key flags message reached hashed.cvStack) := by
  induction rest : finish - chunkLen * count using Nat.strong_induction_on
    generalizing self count with
  | h rest inductionHypothesis =>
      rw [hashSubtrees, length_part message available]
      by_cases long : chunkLen < finish - chunkLen * count
      · obtain ⟨level, pushed, isLen, pushes, next, within, ends⟩ :=
          pushSubtree_step platform between (by
            rw [Nat.mul_succ]
            omega) available bounded
        have positive := Nat.two_pow_pos level
        have chunks : chunkLen * 2 ^ level / chunkLen = 2 ^ level :=
          Nat.mul_div_cancel_left _ (by decide)
        have rest' :
            ((message.take finish).drop (chunkLen * count)).drop
                (chunkLen * 2 ^ level) =
              (message.take finish).drop
                (chunkLen * (count + 2 ^ level)) := by
          rw [List.drop_drop, Nat.mul_add]
        rw [if_pos long]
        simp only [isLen, pushes, chunks, rest']
        by_cases isEnd : chunkLen * (count + 2 ^ level) = finish
        · refine ⟨count + 2 ^ level, pushed.advance (2 ^ level), ?_, next,
            by
              rw [Nat.mul_succ]
              omega, Or.inr ⟨isEnd, ends isEnd⟩⟩
          rw [hashSubtrees, length_part message available,
            if_neg (by omega)]
        · apply inductionHypothesis _ _ next (by omega) rfl
          unfold chunkLen at *
          omega
      · rw [if_neg long]
        exact ⟨count, self, rfl, between, by
          rw [Nat.mul_succ]
          omega, Or.inl nonempty⟩

/-! ## Updates -/

/-- The rest of an input is read into the next chunk. -/
theorem readRest_represents
    (within : finish ≤ chunkLen * (count + 1))
    (available : finish ≤ message.length)
    (bounded : message.length < 2 ^ 64)
    (ends :
      chunkLen * count < finish ∨
        chunkLen * count = finish ∧
          Paired key flags message count self.cvStack) :
    ∃ updated,
      self.readRest ((message.take finish).drop (chunkLen * count)) =
          some updated ∧
        Represents key flags message finish updated := by
  unfold readRest
  rw [length_part message available]
  rcases ends with more | ⟨isEnd, paired⟩
  · have reads :=
      chunk_update_eq key flags (Nat.le_refl (chunkLen * count))
        (Nat.le_of_lt more) within available
    rw [Nat.sub_self, ChunkState.reading_zero_eq_initAt,
      ← between.chunk_eq] at reads
    have merges :=
      mergeCvStack_eq
        { self with
          chunk :=
            ChunkState.reading key (UInt64.ofNat count) flags
              (chunkAt message count) (finish - chunkLen * count) }
        between.key_eq rfl between.pending (by
          unfold chunkLen at *
          omega)
    rw [if_pos (by omega), between.counter_eq, reads]
    exact ⟨_, merges,
      Represents.inChunk count ⟨between.key_eq, rfl, rfl, more, within⟩⟩
  · rw [if_neg (by omega)]
    exact ⟨self, rfl, Represents.afterPair count isEnd.symm between paired⟩

/-- From a chunk boundary on, any input is read. -/
theorem update_between
    (nonempty : chunkLen * count < finish)
    (available : finish ≤ message.length)
    (bounded : message.length < 2 ^ 64) :
    ∃ updated,
      (do
        let (hashed, rest) ←
          self.hashSubtrees platform
            ((message.take finish).drop (chunkLen * count))
        hashed.readRest rest) = some updated ∧
        Represents key flags message finish updated := by
  obtain ⟨reached, hashed, hashes, atReached, within, ends⟩ :=
    hashSubtrees_between platform between nonempty
      available bounded
  rw [hashes]
  exact readRest_represents atReached within available
    bounded ends

end Subtrees

/-- What a chunk takes of an input is what its bytes leave room for. -/
theorem finishChunk_take
    (key : Words)
    (flags : UInt8)
    {position : Nat}
    (below : position ≤ chunkLen * (count + 1))
    (above : chunkLen * count ≤ position)
    (available : finish ≤ message.length) :
    (if ((message.take finish).drop position).length <
          chunkLen -
            (ChunkState.reading key (UInt64.ofNat count) flags
              (chunkAt message count) (position - chunkLen * count)).len
      then
        ((message.take finish).drop position).length
      else
        chunkLen -
          (ChunkState.reading key (UInt64.ofNat count) flags
            (chunkAt message count) (position - chunkLen * count)).len) =
      min finish (chunkLen * (count + 1)) - position := by
  rw [ChunkState.len_reading, List.length_drop, List.length_take,
    Nat.min_eq_left available, Nat.mul_succ]
  rw [Nat.mul_succ] at below
  split <;> omega

/-- Cutting a part of the message at an earlier end. -/
theorem take_part
    {position middle finish : Nat}
    (ordered : middle ≤ finish) :
    ((message.take finish).drop position).take (middle - position) =
      (message.take middle).drop position := by
  rw [List.drop_take, List.drop_take, List.take_take, Nat.min_eq_left]
  omega

/-- A chunk that the input goes beyond is pushed. -/
theorem finishChunk_beyond
    {position : Nat}
    (inChunk : InChunk key flags message count position self)
    (beyond : chunkLen * (count + 1) < finish)
    (available : finish ≤ message.length)
    (bounded : message.length < 2 ^ 64) :
    ∃ next,
      self.finishChunk ((message.take finish).drop position) =
          some
            (next,
              (message.take finish).drop (chunkLen * (count + 1))) ∧
        Between key flags message (count + 1) next := by
  obtain ⟨sameKey, chunk_eq, stack_eq, above, below⟩ := inChunk
  have taken :=
    finishChunk_take key flags below (Nat.le_of_lt above) available
  rw [Nat.min_eq_right (Nat.le_of_lt beyond)] at taken
  have reads :=
    chunk_update_eq key flags (Nat.le_of_lt above) below
      (Nat.le_refl _) ((Nat.le_of_lt beyond).trans available)
  have rest :
      ((message.take finish).drop position).drop
          (chunkLen * (count + 1) - position) =
        (message.take finish).drop (chunkLen * (count + 1)) := by
    rw [List.drop_drop, Nat.add_sub_cancel' below]
  have more :
      0 < ((message.take finish).drop (chunkLen * (count + 1))).length := by
    rw [length_part message available]
    omega
  have whole :
      chunkLen * (count + 1) - chunkLen * count =
        (chunkAt message count).length := by
    rw [length_chunkAt message (by omega), Nat.mul_succ]
    omega
  have pushes :=
    pushCv_eq
      { self with
        chunk :=
          ChunkState.reading key (UInt64.ofNat count) flags
            (chunkAt message count) (chunkAt message count).length }
      count 0 count sameKey rfl (by
        simp only [stack_eq]
        exact Pending.merged) (by
        unfold chunkLen at *
        omega) (by omega)
  have outputs :=
    ChunkState.output_reading key (UInt64.ofNat count) flags
      (chunkAt message count)
  unfold finishChunk
  rw [chunk_eq, taken]
  simp only [rest, if_pos more,
    take_part (Nat.le_of_lt beyond), reads, whole, outputs]
  refine ⟨_, congrArg (Option.map _) pushes, ⟨sameKey, ?_, ?_⟩⟩
  · simp only [ChunkState.reset, sameKey, UInt64.ofNat_add]
    rfl
  · exact Pending.unmerged 0 count (by omega)

/-- A chunk that the input does not go beyond. -/
theorem finishChunk_within
    {position : Nat}
    (inChunk : InChunk key flags message count position self)
    (ordered : position ≤ finish)
    (within : finish ≤ chunkLen * (count + 1))
    (available : finish ≤ message.length) :
    ∃ next,
      self.finishChunk ((message.take finish).drop position) =
          some (next, []) ∧
        Represents key flags message finish next := by
  obtain ⟨sameKey, chunk_eq, stack_eq, above, _⟩ := inChunk
  have taken :=
    finishChunk_take key flags (ordered.trans within)
      (Nat.le_of_lt above) available
  rw [Nat.min_eq_left within] at taken
  have reads :=
    chunk_update_eq key flags (Nat.le_of_lt above) ordered within
      available
  have rest :
      ((message.take finish).drop position).drop (finish - position) =
        [] :=
    List.drop_eq_nil_of_le (Nat.le_of_eq (length_part message available))
  unfold finishChunk
  rw [chunk_eq, taken]
  simp only [rest, List.length_nil, Nat.lt_irrefl, if_false,
    take_part (Nat.le_refl finish), reads]
  exact ⟨_, rfl,
    Represents.inChunk count
      ⟨sameKey, rfl, stack_eq, by omega, within⟩⟩

/-- Every update stays within the arrays and reads its input. -/
theorem update_represents
    (platform : Platform)
    {position : Nat}
    (finish : Nat)
    (represents : Represents key flags message position self)
    (ordered : position ≤ finish)
    (available : finish ≤ message.length)
    (bounded : message.length < 2 ^ 64) :
    ∃ updated,
      self.update platform ((message.take finish).drop position) =
          some updated ∧
        Represents key flags message finish updated := by
  unfold update
  rw [length_part message available]
  by_cases isEmpty : finish - position = 0
  · have isEnd : finish = position := by
      omega
    rw [if_pos isEmpty, isEnd]
    exact ⟨self, rfl, represents⟩
  · rw [if_neg isEmpty]
    cases represents with
    | start isZero isInit =>
        subst isZero
        subst isInit
        have between := between_initBase key flags message
        rw [if_neg (Nat.not_lt_of_le (Nat.le_of_eq between.len_eq))]
        exact update_between platform between (by omega)
          available bounded
    | inChunk count inChunk =>
        have above := inChunk.above
        have some : 0 < self.chunk.len := by
          rw [inChunk.chunk_eq, ChunkState.len_reading]
          omega
        rw [if_pos some]
        by_cases within : finish ≤ chunkLen * (count + 1)
        · obtain ⟨next, finishes, reads⟩ :=
            finishChunk_within inChunk ordered within
              available
          rw [finishes]
          exact ⟨next, rfl, reads⟩
        · obtain ⟨next, finishes, between⟩ :=
            finishChunk_beyond inChunk (by omega)
              available bounded
          rw [finishes]
          simp only [Option.bind_eq_bind, Option.bind_some,
            length_part message available]
          rw [if_neg (by omega)]
          exact update_between platform between
            (by omega) available bounded
    | afterPair count isPosition between paired =>
        subst isPosition
        rw [if_neg (Nat.not_lt_of_le (Nat.le_of_eq between.len_eq))]
        exact update_between platform between (by omega)
          available bounded

/-! ## The output of the root -/

/-- Rolling up chaining values is rolling up the outputs they stand for. -/
theorem rollUpStack_eq
    (message : List UInt8)
    (sameKey : self.key = key)
    (sameFlags : self.chunk.flags = flags)
    (output : Output)
    (level count : Nat) :
    self.rollUpStack output (peakCvs key flags message level count) =
      HashTree.root (combineOutputs key flags)
        ((List.range count).map
            (HashTree.node (combineOutputs key flags)
              (messageLeaf key flags message) level) ++ [output]) := by
  rw [← HashTree.rollUp_peaks, ← map_chainingValue_peaks]
  unfold rollUpStack HashTree.rollUp
  rw [List.foldl_map, sameKey, sameFlags]
  rfl

/-- The root over a message that ends within a chunk. -/
theorem rootOutput_inChunk
    (inChunk : InChunk key flags message count message.length self) :
    self.rootOutput = some (treeOutput key flags message) := by
  obtain ⟨sameKey, chunk_eq, stack_eq, above, below⟩ := inChunk
  have count_eq : max 1 (chunkCount message.length) = count + 1 := by
    unfold chunkCount chunkLen at *
    omega
  have size :
      message.length - chunkLen * count =
        (chunkAt message count).length := by
    unfold chunkAt
    rw [List.length_take, List.length_drop]
    unfold chunkLen at *
    omega
  have inChunk : 0 < self.chunk.len := by
    rw [chunk_eq, ChunkState.len_reading]
    omega
  have last : self.chunk.output = messageLeaf key flags message count := by
    rw [chunk_eq, size]
    exact ChunkState.output_reading _ _ _ _
  have root :
      self.rollUpStack self.chunk.output
          (peakCvs key flags message 0 count) =
        HashTree.root (combineOutputs key flags)
          ((List.range count).map (messageLeaf key flags message) ++
            [self.chunk.output]) :=
    rollUpStack_eq message sameKey (by
      rw [chunk_eq]
      rfl) self.chunk.output 0 count
  unfold rootOutput treeOutput
  rw [count_eq, List.range_succ, List.map_append, List.map_singleton,
    ← last, stack_eq, ← root, if_pos inChunk]
  split
  next isEmpty =>
    rw [List.eq_nil_of_length_eq_zero isEmpty]
    rfl
  next =>
    rfl

/-- The root over a message that ends with a subtree pushed as two halves. -/
theorem rootOutput_afterPair
    (isLength : message.length = chunkLen * count)
    (between : Between key flags message count self)
    (paired : Paired key flags message count self.cvStack) :
    self.rootOutput = some (treeOutput key flags message) := by
  obtain ⟨level, index, isCount, stack_eq⟩ := paired
  have count_eq :
      max 1 (chunkCount message.length) =
        (index + 1) * 2 ^ (level + 1) := by
    have several : 0 < (index + 1) * 2 ^ (level + 1) :=
      Nat.mul_pos (Nat.succ_pos index) (Nat.two_pow_pos (level + 1))
    rw [isLength, isCount]
    unfold chunkCount chunkLen
    omega
  have pairStack :
      self.cvStack =
        nodeCv key flags message level (2 * index + 1) ::
          nodeCv key flags message level (2 * index) ::
            peakCvs key flags message (level + 1) index := by
    rw [stack_eq]
    unfold peakCvs
    rw [HashTree.peaks_double_succ]
    rfl
  have top :
      parentOutput (nodeCv key flags message level (2 * index))
          (nodeCv key flags message level (2 * index + 1)) key flags =
        HashTree.node (combineOutputs key flags)
          (messageLeaf key flags message) (level + 1) index := by
    rw [← chainingValue_node, ← chainingValue_node]
    rfl
  have rolled :=
    rollUpStack_eq message between.key_eq between.flags_eq
      (HashTree.node (combineOutputs key flags)
        (messageLeaf key flags message) (level + 1) index)
      (level + 1) index
  rw [← List.map_singleton (f :=
      HashTree.node (combineOutputs key flags)
        (messageLeaf key flags message) (level + 1)),
    ← List.map_append, ← List.range_succ, HashTree.root_nodes] at rolled
  unfold rootOutput treeOutput
  rw [count_eq, ← rolled, if_neg (Nat.not_lt_of_le (Nat.le_of_eq between.len_eq))]
  simp only [pairStack, List.length_cons, Nat.add_eq_zero_iff,
    Nat.one_ne_zero, and_false, if_false, between.key_eq,
    between.flags_eq, top]

/-- A hasher that has read the whole message gives the root of its tree. -/
theorem rootOutput_eq
    (represents : Represents key flags message message.length self) :
    self.rootOutput = some (treeOutput key flags message) := by
  cases represents with
  | start isEmpty isInit =>
      have noMessage : message = [] := List.eq_nil_of_length_eq_zero isEmpty
      subst noMessage
      subst isInit
      have outputs := ChunkState.output_reading key 0 flags []
      rw [List.length_nil, ChunkState.reading_zero_eq_initAt] at outputs
      have single : max 1 (chunkCount ([] : List UInt8).length) = 1 := by
        decide
      unfold treeOutput
      rw [single, List.range_one, List.map_singleton,
        HashTree.root_singleton]
      exact congrArg some outputs
  | inChunk count inChunk =>
      exact rootOutput_inChunk inChunk
  | afterPair count isLength between paired =>
      exact rootOutput_afterPair isLength between paired

end Positions

end Hasher

end Blake3

end Lethe
