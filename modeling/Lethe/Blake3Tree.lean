import Lethe.Blake3Chunk
import Lethe.Library.HashTree

namespace Lethe

namespace Blake3

/-!
# Subtrees hashed at once

The tree over an input is the left-balanced tree over the outputs of its
chunks.  On every platform the wide recursion returns a layer of that tree: a
layer with the same root, with the same two subtrees if there are two chunks
or more, and narrow enough for the arrays of the source.  In particular the
values of the left subtree fill the slots in front of those of the right one.
-/

/-- The output of a parent node over two outputs. -/
def combineOutputs
    (key : Words)
    (flags : UInt8)
    (left right : Output) :
    Output :=
  parentOutput left.chainingValue right.chainingValue key flags

/-- The bytes of a numbered chunk of an input. -/
def chunkAt
    (input : List UInt8)
    (index : Nat) :
    List UInt8 :=
  (input.drop (chunkLen * index)).take chunkLen

/-- Number of chunks of an input that is not empty. -/
def chunkCount
    (len : Nat) :
    Nat :=
  (len + (chunkLen - 1)) / chunkLen

section Leaves

variable (key : Words) (counter : UInt64) (flags : UInt8)

/-- The outputs of the chunks of an input that starts at a chunk number. -/
def leaves
    (input : List UInt8) :
    List Output :=
  (List.range (chunkCount input.length)).map fun index =>
    chunkOutput key (counter + UInt64.ofNat index) flags
      (chunkAt input index)

theorem length_leaves
    (input : List UInt8) :
    (leaves key counter flags input).length = chunkCount input.length := by
  simp [leaves]

/-- Leaves of an input that is cut at a chunk boundary. -/
theorem leaves_append
    (input : List UInt8)
    (count : Nat)
    (within : chunkLen * count ≤ input.length) :
    leaves key counter flags input =
      leaves key counter flags (input.take (chunkLen * count)) ++
        leaves key (counter + UInt64.ofNat count) flags
          (input.drop (chunkLen * count)) := by
  have frontCount :
      chunkCount (input.take (chunkLen * count)).length = count := by
    rw [List.length_take, Nat.min_eq_left within]
    unfold chunkCount chunkLen
    omega
  have total :
      chunkCount input.length =
        count + chunkCount (input.drop (chunkLen * count)).length := by
    rw [List.length_drop]
    unfold chunkCount chunkLen at *
    omega
  unfold leaves
  rw [total, List.range_add, List.map_append, List.map_map, frontCount]
  congr 1
  · apply List.map_congr_left
    intro index inFront
    rw [List.mem_range] at inFront
    have sameChunk :
        chunkAt (input.take (chunkLen * count)) index =
          chunkAt input index := by
      unfold chunkAt
      rw [List.drop_take, List.take_take, Nat.min_eq_left]
      rw [← Nat.mul_sub]
      exact Nat.le_mul_of_pos_right _ (by omega)
    rw [sameChunk]
  · apply List.map_congr_left
    intro index _
    simp only [Function.comp, chunkAt, List.drop_drop, Nat.mul_add,
      UInt64.ofNat_add, UInt64.add_assoc]

/-! ## Chunks and parents hashed side by side -/

theorem wholeChunks_eq
    (input : List UInt8) :
    wholeChunks input =
      ((List.range (input.length / chunkLen)).map (chunkAt input),
        input.drop (chunkLen * (input.length / chunkLen))) := by
  fun_induction wholeChunks input with
  | case1 input long rest inductionHypothesis =>
      have count :
          input.length / chunkLen =
            (input.drop chunkLen).length / chunkLen + 1 := by
        rw [List.length_drop]
        unfold chunkLen at *
        omega
      have isRest : rest = _ := inductionHypothesis
      rw [isRest, count, List.range_succ_eq_map, List.map_cons,
        List.map_map]
      congr 1
      · congr 1
        apply List.map_congr_left
        intro index _
        simp only [chunkAt, Function.comp, List.drop_drop, Nat.mul_succ,
          Nat.add_comm chunkLen]
      · rw [List.drop_drop, Nat.mul_succ, Nat.add_comm chunkLen]
  | case2 input short =>
      have count : input.length / chunkLen = 0 :=
        Nat.div_eq_of_lt (by omega)
      rw [count]
      rfl

/-- Inputs hashed side by side are numbered from the counter on. -/
theorem hashManyPortable_counted
    (blocks : Nat)
    (key : Words)
    (flags flagsStart flagsEnd : UInt8)
    (counter : UInt64)
    (inputs : List (List UInt8)) :
    hashManyPortable blocks key true flags flagsStart flagsEnd counter
        inputs =
      inputs.mapIdx fun index input =>
        hashOnePortable input blocks key (counter + UInt64.ofNat index)
          flags flagsStart flagsEnd := by
  induction inputs generalizing counter with
  | nil =>
      rfl
  | cons input inputs inductionHypothesis =>
      have next (index : Nat) :
          counter + 1 + UInt64.ofNat index =
            counter + UInt64.ofNat (index + 1) := by
        rw [UInt64.ofNat_add, UInt64.add_assoc,
          UInt64.add_comm 1 (UInt64.ofNat index)]
        rfl
      rw [hashManyPortable, if_pos rfl, inductionHypothesis,
        List.mapIdx_cons]
      have first : counter + UInt64.ofNat 0 = counter :=
        UInt64.add_zero counter
      simp only [next, first]

/-- Whole chunks hashed side by side. -/
theorem hashManyPortable_chunks
    (input : List UInt8) :
    hashManyPortable (chunkLen / blockLen) key true flags chunkStart
        chunkEnd counter
        ((List.range (input.length / chunkLen)).map (chunkAt input)) =
      (List.range (input.length / chunkLen)).map fun index =>
        (chunkOutput key (counter + UInt64.ofNat index) flags
          (chunkAt input index)).chainingValue := by
  rw [hashManyPortable_counted]
  apply List.ext_getElem
  · simp
  · intro index inMapped inRange
    have small : index < input.length / chunkLen := by
      simpa using inRange
    have whole : (chunkAt input index).length = chunkLen := by
      unfold chunkAt chunkLen at *
      rw [List.length_take, List.length_drop]
      omega
    simp only [List.getElem_mapIdx, List.getElem_map, List.getElem_range]
    exact hashOnePortable_chunk key _ flags whole

/-- Chunks hashed side by side give the chaining values of the leaves. -/
theorem compressChunksParallel_eq
    (platform : Platform)
    {input : List UInt8}
    (fits : input.length ≤ platform.simdDegree * chunkLen) :
    compressChunksParallel platform input key counter flags =
      some ((leaves key counter flags input).map Output.chainingValue) := by
  have room : input.length / chunkLen ≤ platform.maxSimdDegree :=
    (Nat.div_le_of_le_mul (by rwa [Nat.mul_comm])).trans platform.degree_le
  unfold compressChunksParallel leaves
  simp only [wholeChunks_eq, hashManyPortable_chunks, List.length_map,
    List.length_range, List.map_map, Function.comp_def]
  rw [if_neg (by omega), List.length_drop]
  by_cases ragged : 0 < input.length -
      chunkLen * (input.length / chunkLen)
  · have count :
        chunkCount input.length = input.length / chunkLen + 1 := by
      unfold chunkCount chunkLen at *
      omega
    have last :
        chunkAt input (input.length / chunkLen) =
          input.drop (chunkLen * (input.length / chunkLen)) := by
      apply List.take_of_length_le
      rw [List.length_drop]
      unfold chunkLen
      omega
    rw [if_pos ragged, count, List.range_succ, List.map_append,
      ChunkState.output_update_initAt]
    · simp only [List.map_cons, List.map_nil, last]
    · rw [List.length_drop]
      unfold chunkLen
      omega
  · have count : chunkCount input.length = input.length / chunkLen := by
      unfold chunkCount chunkLen at *
      omega
    rw [if_neg ragged, count]

/-- The message blocks of parents, hashed, are the next layer. -/
theorem hashManyPortable_parents
    (outputs : List Output) :
    hashManyPortable 1 key false (flags ||| parentFlag) 0 0 0
          (childPairs (outputs.map Output.chainingValue)).1 ++
        (childPairs (outputs.map Output.chainingValue)).2 =
      (HashTree.layer (combineOutputs key flags) outputs).map
        Output.chainingValue := by
  fun_induction HashTree.layer (combineOutputs key flags) outputs with
  | case1 left right rest inductionHypothesis =>
      simp only [List.map_cons, childPairs, hashManyPortable,
        List.cons_append, hashOnePortable_parent]
      rw [← inductionHypothesis]
      rfl
  | case2 outputs short =>
      rcases outputs with _ | ⟨left, _ | ⟨right, rest⟩⟩
      · rfl
      · rfl
      · exact (short left right rest rfl).elim

/-- Pairs hashed side by side give the chaining values of the next layer. -/
theorem compressParentsParallel_eq
    (platform : Platform)
    (outputs : List Output)
    (fits : outputs.length ≤ 2 * platform.maxSimdDegreeOr2) :
    compressParentsParallel platform (outputs.map Output.chainingValue) key
        flags =
      some
        ((HashTree.layer (combineOutputs key flags) outputs).map
          Output.chainingValue) := by
  have pairs :=
    length_childPairs (outputs.map Output.chainingValue)
  rw [List.length_map] at pairs
  unfold compressParentsParallel
  simp only
  rw [if_neg (by omega), hashManyPortable_parents]

end Leaves

/-! ## The array of the two halves -/

theorem mapM_id_map_some
    (cvs : List Hash256) :
    (cvs.map some).mapM id = some cvs := by
  induction cvs with
  | nil =>
      rfl
  | cons cv cvs inductionHypothesis =>
      rw [List.map_cons, List.mapM_cons, inductionHypothesis]
      rfl

/-- What is written side by side is read back as one list. -/
theorem CvArray.exists_read_write
    (size : Nat)
    (left right : List Hash256)
    (fits : left.length + right.length ≤ size) :
    ∃ front both,
      CvArray.write (CvArray.fresh size) 0 left = some front ∧
        CvArray.write front left.length right = some both ∧
          CvArray.read both (left.length + right.length) =
            some (left ++ right) := by
  let unwritten (count : Nat) : CvArray := List.replicate count none
  refine ⟨left.map some ++ unwritten (size - left.length),
    (left ++ right).map some ++
      unwritten (size - (left.length + right.length)), ?_, ?_, ?_⟩
  · simp only [CvArray.write, CvArray.fresh, List.length_replicate]
    rw [if_pos (by omega)]
    simp [unwritten]
  · simp only [CvArray.write, List.length_append, List.length_map,
      unwritten, List.length_replicate]
    rw [if_pos (by omega), List.take_left' (List.length_map some),
      List.drop_append, List.drop_eq_nil_of_le (by simp)]
    simp only [List.nil_append, List.length_map, List.drop_replicate,
      List.map_append]
    congr 3
    omega
  · simp only [CvArray.read, List.length_append, List.length_map,
      unwritten, List.length_replicate]
    rw [if_pos (by omega), List.take_left' (by simp), mapM_id_map_some]

/-! ## The wide recursion -/

namespace Platform

/-- Largest number of chaining values that the wide recursion returns. -/
def width
    (platform : Platform) :
    Nat :=
  max platform.simdDegree 2

theorem exists_width
    (platform : Platform) :
    ∃ level, platform.width = 2 ^ (level + 1) := by
  obtain ⟨level, isPower⟩ := platform.exists_level
  unfold width
  rw [isPower]
  cases level with
  | zero =>
      exact ⟨0, rfl⟩
  | succ level =>
      have positive := Nat.two_pow_pos level
      refine ⟨level, Nat.max_eq_left ?_⟩
      rw [Nat.pow_succ]
      omega

theorem width_le
    (platform : Platform) :
    platform.width ≤ platform.maxSimdDegreeOr2 := by
  have bounded := platform.degree_le
  unfold width maxSimdDegreeOr2
  split <;> omega

end Platform

section Wide

variable (platform : Platform) (key : Words) (flags : UInt8)

/--
A layer of the tree over some leaves.

The layer of a full subtree is as wide as the platform allows, so that it
fills the slots in front of its neighbour.
-/
structure Condensed
    (outputs leaves : List Output) :
    Prop where
  root_eq :
    HashTree.root (combineOutputs key flags) outputs =
      HashTree.root (combineOutputs key flags) leaves
  children_eq :
    1 < leaves.length →
      1 < outputs.length ∧
        HashTree.children (combineOutputs key flags) outputs =
          HashTree.children (combineOutputs key flags) leaves
  nonempty : 0 < outputs.length
  length_le : outputs.length ≤ platform.width
  length_full :
    ∀ level,
      leaves.length = 2 ^ level →
        outputs.length = min (2 ^ level) platform.width

/-- Few leaves are a layer themselves. -/
theorem Condensed.refl
    {leaves : List Output}
    (nonempty : 0 < leaves.length)
    (few : leaves.length ≤ platform.simdDegree) :
    Condensed platform key flags leaves leaves where
  root_eq := rfl
  children_eq := fun several => ⟨several, rfl⟩
  nonempty := nonempty
  length_le := few.trans (Nat.le_max_left _ _)
  length_full := by
    intro level full
    have bounded : platform.simdDegree ≤ platform.width :=
      Nat.le_max_left _ _
    omega

/-- The bytes of the left subtree are those of its chunks. -/
theorem leftLen_eq
    {len : Nat}
    (several : chunkLen < len) :
    leftLen len = chunkLen * HashTree.leftSize (chunkCount len) := by
  have count : (len - 1) / chunkLen = chunkCount len - 1 := by
    unfold chunkCount chunkLen at *
    omega
  have positive : 0 < chunkCount len - 1 := by
    unfold chunkCount chunkLen at *
    omega
  unfold leftLen HashTree.leftSize
  rw [count, roundDownToPowerOf2_eq positive, Nat.mul_comm]

/-- A full left subtree is as wide as its place in the array. -/
theorem placementDegree_eq
    {level : Nat}
    (wide : platform.simdDegree ≤ 2 ^ level) :
    placementDegree platform (chunkLen * 2 ^ level) =
      min (2 ^ level) platform.width := by
  have positive := platform.simdDegree_pos
  unfold placementDegree Platform.width chunkLen
  split <;> omega

/-- Two subtrees whose sizes add up to a power of two are equally large. -/
theorem right_full
    {level total right : Nat}
    (nonempty : 0 < right)
    (fits : right ≤ 2 ^ level)
    (sum : 2 ^ level + right = 2 ^ total) :
    total = level + 1 ∧ right = 2 ^ level := by
  have above : 2 ^ level < 2 ^ total := by
    omega
  have below : 2 ^ total < 2 ^ (level + 2) := by
    rw [Nat.pow_succ, Nat.pow_succ]
    omega
  have levelBelow := (Nat.pow_lt_pow_iff_right (by omega)).1 above
  have totalBelow := (Nat.pow_lt_pow_iff_right (by omega)).1 below
  have isNext : total = level + 1 := by
    omega
  refine ⟨isNext, ?_⟩
  rw [isNext, Nat.pow_succ] at sum
  omega

/-- A left subtree of more chunks than fit side by side has that many. -/
theorem simdDegree_le_leftSize
    {count level : Nat}
    (many : platform.simdDegree < count)
    (enough : count ≤ 2 * 2 ^ level) :
    platform.simdDegree ≤ 2 ^ level := by
  obtain ⟨degreeLevel, isPower⟩ := platform.exists_level
  rw [isPower] at many ⊢
  apply Nat.pow_le_pow_right (by omega)
  have below : 2 ^ degreeLevel < 2 ^ (level + 1) := by
    rw [Nat.pow_succ]
    omega
  exact Nat.le_of_lt_succ ((Nat.pow_lt_pow_iff_right (by omega)).1 below)

section Halves

variable {platform key flags}
  {leftOutputs rightOutputs leftLeaves rightLeaves : List Output}
  (left : Condensed platform key flags leftOutputs leftLeaves)
  (right : Condensed platform key flags rightOutputs rightLeaves)

include left right

/-- Layers of neighbouring subtrees have the subtrees' roots below them. -/
theorem Condensed.children_append
    (level outputLevel : Nat)
    (full : leftLeaves.length = 2 ^ level)
    (nonempty : 0 < rightLeaves.length)
    (fits : rightLeaves.length ≤ 2 ^ level)
    (outputsFull : leftOutputs.length = 2 ^ outputLevel)
    (outputsFit : rightOutputs.length ≤ 2 ^ outputLevel) :
    HashTree.children (combineOutputs key flags)
        (leftOutputs ++ rightOutputs) =
      HashTree.children (combineOutputs key flags)
        (leftLeaves ++ rightLeaves) := by
  rw [HashTree.children_append _ outputLevel outputsFull right.nonempty outputsFit,
    HashTree.children_append _ level full nonempty fits, left.root_eq,
    right.root_eq]

/-- Two neighbouring chunks are passed on as they are. -/
theorem Condensed.pair
    (leftSingle : leftLeaves.length = 1)
    (rightSingle : rightLeaves.length = 1) :
    Condensed platform key flags
      (leftOutputs ++ rightOutputs)
      (leftLeaves ++ rightLeaves) := by
  have atLeastTwo : 2 ≤ platform.width := Nat.le_max_right _ _
  have leftOne := left.length_full 0 leftSingle
  have rightOne := right.length_full 0 rightSingle
  rw [pow_zero, Nat.min_eq_left (by omega)] at leftOne rightOne
  have sameChildren :=
    left.children_append right 0 0 leftSingle (by omega)
      (by omega) leftOne (by omega)
  have two : (leftOutputs ++ rightOutputs).length = 2 := by
    rw [List.length_append]
    omega
  have twoLeaves : (leftLeaves ++ rightLeaves).length = 2 := by
    rw [List.length_append]
    omega
  refine ⟨?_, fun _ => ⟨by omega, sameChildren⟩, by omega, by omega, ?_⟩
  · exact HashTree.root_eq_of_children_eq _ (by omega) (by omega)
      sameChildren
  · intro total isTotal
    omega

variable {level : Nat} (full : leftLeaves.length = 2 ^ level)
  (nonempty : 0 < rightLeaves.length)
  (fits : rightLeaves.length ≤ 2 ^ level)

include full nonempty fits

/-- A layer of parents over the layers of neighbouring subtrees. -/
theorem Condensed.layer_append
    (wide : leftOutputs.length = platform.width) :
    Condensed platform key flags
      (HashTree.layer (combineOutputs key flags)
        (leftOutputs ++ rightOutputs))
      (leftLeaves ++ rightLeaves) := by
  obtain ⟨widthLevel, isWidth⟩ := platform.exists_width
  have atLeastTwo : 2 ≤ platform.width := Nat.le_max_right _ _
  have someRight := right.nonempty
  have narrowRight := right.length_le
  have several : 2 < (leftOutputs ++ rightOutputs).length := by
    rw [List.length_append]
    omega
  have severalLeaves : 1 < (leftLeaves ++ rightLeaves).length := by
    have positive := Nat.two_pow_pos level
    rw [List.length_append]
    omega
  have sameChildren :=
    left.children_append right level (widthLevel + 1) full nonempty fits
      (wide.trans isWidth) (by omega)
  refine ⟨?_, ?_, ?_, ?_, ?_⟩
  · rw [HashTree.root_layer]
    exact HashTree.root_eq_of_children_eq _ (Nat.lt_of_succ_lt several)
      severalLeaves sameChildren
  · intro _
    rw [HashTree.children_layer _ several, HashTree.length_layer]
    exact ⟨by omega, sameChildren⟩
  · rw [HashTree.length_layer]
    omega
  · rw [HashTree.length_layer, List.length_append]
    omega
  · intro total isTotal
    rw [List.length_append, full] at isTotal
    obtain ⟨rfl, rightFull⟩ := right_full nonempty fits isTotal
    have leftWidth := left.length_full level full
    have rightWidth := right.length_full level rightFull
    rw [HashTree.length_layer, List.length_append, Nat.pow_succ]
    omega

/-- The layers of two neighbouring subtrees, placed and combined. -/
theorem exists_combined
    (wide : platform.simdDegree ≤ 2 ^ level) :
    ∃ outputs,
      combineHalves platform key flags
            (placementDegree platform (chunkLen * 2 ^ level))
            (leftOutputs.map Output.chainingValue)
            (rightOutputs.map Output.chainingValue) =
          some (outputs.map Output.chainingValue) ∧
        Condensed platform key flags outputs
          (leftLeaves ++ rightLeaves) := by
  have leftLength := left.length_full level full
  have degree := placementDegree_eq platform wide
  have widthLe := platform.width_le
  have atLeastTwo : 2 ≤ platform.width := Nat.le_max_right _ _
  have rightLe := right.length_le
  obtain ⟨front, both, wroteLeft, wroteRight, readBoth⟩ :=
    CvArray.exists_read_write (2 * platform.maxSimdDegreeOr2)
      (leftOutputs.map Output.chainingValue)
      (rightOutputs.map Output.chainingValue) (by
        simp only [List.length_map]
        omega)
  rw [List.length_map] at wroteRight readBoth
  rw [List.length_map] at readBoth
  unfold combineHalves
  simp only [degree, ← leftLength, wroteLeft, Option.bind_eq_bind,
    Option.bind_some, wroteRight, List.length_map]
  by_cases single : leftOutputs.length = 1
  · have leftSingle : leftLeaves.length = 1 := by
      omega
    have rightSingle : rightLeaves.length = 1 := by
      omega
    have rightOne := right.length_full 0 rightSingle
    rw [pow_zero, Nat.min_eq_left (by omega)] at rightOne
    rw [single, rightOne] at readBoth
    refine ⟨leftOutputs ++ rightOutputs, ?_,
      left.pair right leftSingle rightSingle⟩
    rw [if_pos single, List.map_append]
    exact readBoth
  · have isWide : leftOutputs.length = platform.width := by
      unfold Platform.width at *
      omega
    refine ⟨_, ?_,
      left.layer_append right full nonempty fits isWide⟩
    rw [if_neg single, readBoth, ← List.map_append]
    apply compressParentsParallel_eq
    rw [List.length_append]
    omega

end Halves

/-- The wide recursion returns a layer of the tree over its input. -/
theorem compressSubtreeWide_condensed
    (counter : UInt64)
    (input : List UInt8)
    (nonempty : 0 < input.length) :
    ∃ outputs,
      compressSubtreeWide platform input key counter flags =
          some (outputs.map Output.chainingValue) ∧
        Condensed platform key flags outputs
          (leaves key counter flags input) := by
  induction size : input.length using Nat.strong_induction_on
    generalizing input counter with
  | h size inductionHypothesis =>
      subst size
      rw [compressSubtreeWide]
      by_cases few : input.length ≤ platform.simdDegree * chunkLen
      · rw [if_pos few, compressChunksParallel_eq key counter flags
          platform few]
        refine ⟨_, rfl, Condensed.refl platform key flags ?_ ?_⟩
        · rw [length_leaves]
          unfold chunkCount chunkLen at *
          omega
        · rw [length_leaves]
          unfold chunkCount chunkLen at *
          omega
      · have positive := platform.simdDegree_pos
        have long : chunkLen < input.length := by
          unfold chunkLen at *
          omega
        have several : 1 < chunkCount input.length := by
          unfold chunkCount chunkLen at *
          omega
        obtain ⟨level, isPower, below, enough⟩ :=
          HashTree.exists_leftSize several
        have cut : leftLen input.length = chunkLen * 2 ^ level := by
          rw [leftLen_eq long, isPower]
        have cutLt := leftLen_lt long
        have cutPos := leftLen_pos input.length
        have degreeLe : platform.simdDegree ≤ 2 ^ level :=
          simdDegree_le_leftSize platform (by
            unfold chunkCount chunkLen at *
            omega) enough
        obtain ⟨leftOutputs, leftEq, left⟩ :=
          @inductionHypothesis _ (by
            rw [List.length_take]
            omega)
            counter (input.take (leftLen input.length)) (by
              rw [List.length_take]
              omega) rfl
        obtain ⟨rightOutputs, rightEq, right⟩ :=
          @inductionHypothesis _ (by
            rw [List.length_drop]
            omega)
            (counter + UInt64.ofNat (leftLen input.length / chunkLen))
            (input.drop (leftLen input.length)) (by
              rw [List.length_drop]
              omega) rfl
        have chunks : leftLen input.length / chunkLen = 2 ^ level := by
          rw [cut, Nat.mul_div_cancel_left _ (by decide)]
        have leftCount :
            (leaves key counter flags
              (input.take (leftLen input.length))).length =
                2 ^ level := by
          rw [length_leaves, List.length_take, cut]
          unfold chunkCount chunkLen at *
          omega
        have rightCount :
            (leaves key (counter + UInt64.ofNat (2 ^ level)) flags
              (input.drop (leftLen input.length))).length =
                chunkCount input.length - 2 ^ level := by
          rw [length_leaves, List.length_drop, cut]
          unfold chunkCount chunkLen at *
          omega
        simp only [if_neg few, leftEq, rightEq]
        rw [chunks] at right
        rw [leaves_append key counter flags input (2 ^ level) (by omega)]
        rw [cut] at left right leftCount rightCount ⊢
        exact exists_combined left right leftCount (by omega) (by omega)
          degreeLe

/-! ## Two chaining values for the root -/

/-- Parents are formed until two values are left, those of the subtrees. -/
theorem condense_eq
    (half : Nat)
    (room : half ≤ platform.maxSimdDegreeOr2 / 2)
    {outputs : List Output}
    (several : 1 < outputs.length)
    (fits : outputs.length ≤ 2 * half) :
    condense platform key flags (outputs.map Output.chainingValue) =
      some
        [(HashTree.children (combineOutputs key flags)
            outputs).1.chainingValue,
          (HashTree.children (combineOutputs key flags)
            outputs).2.chainingValue] := by
  induction size : outputs.length using Nat.strong_induction_on
    generalizing outputs with
  | h size inductionHypothesis =>
      rw [condense, List.length_map]
      by_cases more : 2 < outputs.length
      · have formed :=
          compressParentsParallel_eq key flags platform outputs
            (by omega)
        have count :=
          HashTree.length_layer (combineOutputs key flags) outputs
        rw [if_pos more]
        split
        next isNone =>
          rw [formed] at isNone
          contradiction
        next parents isSome =>
          rw [formed, Option.some.injEq] at isSome
          subst isSome
          rw [if_neg (by
              rw [List.length_map]
              omega),
            inductionHypothesis _ (by omega) (by omega) (by omega) rfl,
            HashTree.children_layer _ more]
      · rw [if_neg more]
        obtain ⟨left, right, rfl⟩ :=
          List.length_eq_two.1 (show outputs.length = 2 by omega)
        simp

/-- The chaining values of the two subtrees below the root. -/
theorem compressSubtreeToParentNode_children
    (counter : UInt64)
    (input : List UInt8)
    (several : chunkLen < input.length) :
    compressSubtreeToParentNode platform input key counter flags =
      some
        ((HashTree.children (combineOutputs key flags)
            (leaves key counter flags input)).1.chainingValue,
          (HashTree.children (combineOutputs key flags)
            (leaves key counter flags input)).2.chainingValue) := by
  obtain ⟨outputs, wide, condensed⟩ :=
    compressSubtreeWide_condensed platform key flags counter input (by
        unfold chunkLen at several
        omega)
  obtain ⟨atLeastTwo, sameChildren⟩ :=
    condensed.children_eq (by
      rw [length_leaves]
      unfold chunkCount chunkLen at *
      omega)
  obtain ⟨level, isWidth⟩ := platform.exists_width
  have widthLe := platform.width_le
  have narrow := condensed.length_le
  rw [Nat.pow_succ] at isWidth
  have formed :=
    condense_eq platform key flags (2 ^ level) (by omega)
      atLeastTwo (by omega)
  unfold compressSubtreeToParentNode
  simp only [wide, Option.bind_eq_bind, Option.bind_some, List.length_map]
  rw [if_neg (by omega), ← sameChildren]
  by_cases loops : 2 < platform.maxSimdDegreeOr2
  · rw [if_pos loops, formed]
    rfl
  · rw [if_neg loops]
    obtain ⟨left, right, rfl⟩ :=
      List.length_eq_two.1 (show outputs.length = 2 by omega)
    simp

end Wide

end Blake3

end Lethe
