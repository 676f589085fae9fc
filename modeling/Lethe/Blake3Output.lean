import Mathlib.Data.List.Infix
import Lethe.Blake3Hasher
import Lethe.Routing

namespace Lethe

namespace Blake3

/-!
# What a hasher returns

Output is a window of one stream that depends on the root alone.  A run of a
hasher is any sequence of updates and resets; it never leaves the hasher's
arrays, and its output is that of the tree over the bytes since the last
reset, for every key, every flags, and every platform.
-/

/-! ## The output stream -/

namespace Output

/-- A byte of the output stream. -/
def streamByte
    (self : Output)
    (position : Nat) :
    UInt8 :=
  (self.xofBlock (UInt64.ofNat (position / 64))).getD (position % 64) 0

theorem length_xofBlock
    (self : Output)
    (outputBlockCounter : UInt64) :
    (self.xofBlock outputBlockCounter).length = 64 :=
  (compressXof self.inputCv self.block self.blockLen outputBlockCounter
    (self.flags ||| rootFlag)).length_eq

/-- A part of one block is a window of the stream. -/
theorem take_drop_xofBlock
    (self : Output)
    (block offset count : Nat)
    (fits : offset + count ≤ 64) :
    ((self.xofBlock (UInt64.ofNat block)).drop offset).take count =
      (List.range count).map fun index =>
        self.streamByte (64 * block + offset + index) := by
  have full := self.length_xofBlock (UInt64.ofNat block)
  apply List.ext_getElem
  · rw [List.length_take, List.length_drop, List.length_map,
      List.length_range]
    omega
  · intro index inPart inRange
    have small : index < count := by
      simpa using inRange
    have quotient : (64 * block + offset + index) / 64 = block := by
      omega
    have remainder :
        (64 * block + offset + index) % 64 = offset + index := by
      omega
    simp only [List.getElem_take, List.getElem_drop, List.getElem_map,
      List.getElem_range, streamByte, quotient, remainder]
    rw [List.getD_eq_getElem?_getD, List.getElem?_eq_getElem (by omega),
      Option.getD_some]

/-- Windows of the stream that follow each other. -/
theorem window_append
    (self : Output)
    (start front back : Nat) :
    ((List.range (front + back)).map fun index =>
        self.streamByte (start + index)) =
      ((List.range front).map fun index =>
          self.streamByte (start + index)) ++
        (List.range back).map fun index =>
          self.streamByte (start + front + index) := by
  rw [List.range_add, List.map_append, List.map_map]
  simp only [Function.comp_def, Nat.add_assoc]

/-- Whole blocks are a window of the stream. -/
theorem xofMany_eq
    (self : Output)
    (block count : Nat) :
    self.xofMany (UInt64.ofNat block) count =
      (List.range (64 * count)).map fun index =>
        self.streamByte (64 * block + index) := by
  induction count with
  | zero =>
      rfl
  | succ count inductionHypothesis =>
      have next :=
        self.take_drop_xofBlock (block + count) 0 64 (by omega)
      rw [List.drop_zero, List.take_of_length_le
        (Nat.le_of_eq (self.length_xofBlock _))] at next
      unfold xofMany at inductionHypothesis ⊢
      rw [List.range_succ, List.flatMap_append, inductionHypothesis,
        Nat.mul_succ, window_append]
      simp only [List.flatMap_cons, List.flatMap_nil, List.append_nil]
      rw [← UInt64.ofNat_add, next]
      simp only [Nat.mul_add, Nat.add_zero, Nat.add_assoc]

theorem rootBlocks_eq
    (self : Output)
    (block outLen : Nat) :
    self.rootBlocks (UInt64.ofNat block) outLen =
      (List.range outLen).map fun index =>
        self.streamByte (64 * block + index) := by
  have last :
      (if outLen % 64 = 0 then
          []
        else
          (self.xofBlock
            (UInt64.ofNat block + UInt64.ofNat (outLen / 64))).take
              (outLen % 64)) =
        (List.range (outLen % 64)).map fun index =>
          self.streamByte (64 * block + 64 * (outLen / 64) + index) := by
    have part :=
      self.take_drop_xofBlock (block + outLen / 64) 0 (outLen % 64)
        (by omega)
    rw [List.drop_zero, Nat.mul_add, Nat.add_zero] at part
    split
    next isWhole =>
      rw [isWhole]
      rfl
    next =>
      rw [← UInt64.ofNat_add, part]
  unfold rootBlocks
  rw [xofMany_eq, last, ← window_append, Nat.div_add_mod]

/-- Output bytes are a window of the stream, wherever it starts. -/
theorem rootBytes_eq
    (self : Output)
    (seek : UInt64)
    (outLen : Nat) :
    self.rootBytes seek outLen =
      (List.range outLen).map fun index =>
        self.streamByte (seek.toNat + index) := by
  have block : seek / 64 = UInt64.ofNat (seek.toNat / 64) := by
    apply UInt64.toNat_inj.1
    rw [UInt64.toNat_div, UInt64.toNat_ofNat_of_lt' (by
      have bounded := seek.toNat_lt
      simp only [UInt64.size]
      omega)]
    rfl
  have offset : (seek % 64).toNat = seek.toNat % 64 := by
    rw [UInt64.toNat_mod]
    rfl
  have next :
      UInt64.ofNat (seek.toNat / 64) + 1 =
        UInt64.ofNat (seek.toNat / 64 + 1) := by
    rw [UInt64.ofNat_add]
    rfl
  unfold rootBytes
  simp only [block, offset, next, rootBlocks_eq]
  split
  next isNone =>
    rw [isNone]
    rfl
  next =>
    split
    next isAligned =>
      have start : 64 * (seek.toNat / 64) = seek.toNat := by
        omega
      rw [start]
    next =>
      obtain ⟨front, isFront⟩ :
          ∃ front,
            front =
              if 64 - seek.toNat % 64 < outLen then
                64 - seek.toNat % 64
              else
                outLen :=
        ⟨_, rfl⟩
      rw [← isFront]
      have first : front ≤ 64 - seek.toNat % 64 ∧ front ≤ outLen := by
        split at isFront <;> omega
      have start :
          64 * (seek.toNat / 64) + seek.toNat % 64 = seek.toNat :=
        Nat.div_add_mod seek.toNat 64
      rw [take_drop_xofBlock _ _ _ _ (by omega), start]
      by_cases reaches : front = outLen
      · rw [reaches, Nat.sub_self, List.range_zero, List.map_nil,
          List.append_nil]
      · have isRest : front = 64 - seek.toNat % 64 := by
          split at isFront <;> omega
        have nextStart :
            64 * (seek.toNat / 64 + 1) = seek.toNat + front := by
          omega
        have total : front + (outLen - front) = outLen := by
          omega
        rw [nextStart, ← window_append, total]

end Output

namespace Hasher

/-- The output as a window of the root's stream. -/
theorem finalizeSeek_eq
    (self : Hasher)
    (seek : UInt64)
    {outLen : Nat}
    (positive : 0 < outLen) :
    self.finalizeSeek seek outLen =
      self.rootOutput.map fun output =>
        (List.range outLen).map fun index =>
          output.streamByte (seek.toNat + index) := by
  unfold finalizeSeek
  rw [if_neg (by omega)]
  simp only [Output.rootBytes_eq]

/-! ## Runs of a hasher -/

/-- A call that changes a hasher. -/
inductive Call where
  | update (input : List UInt8)
  | reset
  deriving DecidableEq

/-- The effect of a call. -/
def call
    (platform : Platform)
    (self : Hasher) :
    Call → Option Hasher
  | .update input =>
      self.update platform input
  | .reset =>
      some self.reset

/-- The calls of a run, one after another. -/
def run
    (platform : Platform)
    (self : Hasher)
    (calls : List Call) :
    Option Hasher :=
  calls.foldlM (call platform) self

/-- The bytes read since the last reset. -/
def bytesRead
    (calls : List Call) :
    List UInt8 :=
  calls.foldl
    (fun bytes call =>
      match call with
      | .update input => bytes ++ input
      | .reset => [])
    []

/-- At no time have `2 ^ 64` bytes been read since the last reset. -/
def Countable
    (calls : List Call) :
    Prop :=
  ∀ front ∈ calls.inits, (bytesRead front).length < 2 ^ 64

instance (calls : List Call) : Decidable (Countable calls) :=
  inferInstanceAs (Decidable (∀ front ∈ calls.inits, _))

theorem Countable.length_lt
    {calls : List Call}
    (countable : Countable calls) :
    (bytesRead calls).length < 2 ^ 64 :=
  countable calls ((List.mem_inits _ _).2 (List.prefix_refl calls))

theorem Countable.of_append
    {front back : List Call}
    (countable : Countable (front ++ back)) :
    Countable front := by
  intro calls isFront
  apply countable
  rw [List.mem_inits] at isFront ⊢
  exact isFront.trans (List.prefix_append front back)

theorem run_append
    (platform : Platform)
    (self : Hasher)
    (front : List Call)
    (last : Call) :
    run platform self (front ++ [last]) =
      (run platform self front).bind fun reached =>
        call platform reached last := by
  unfold run
  rw [List.foldlM_append]
  simp

section Runs

variable {key : Words} {flags : UInt8}

/-- Every state keeps the key and the flags it was started with. -/
theorem Represents.reset_eq
    {message : List UInt8}
    {position : Nat}
    {self : Hasher}
    (represents : Represents key flags message position self) :
    self.reset = initBase key flags := by
  cases represents with
  | start isZero isInit =>
      rw [isInit]
      rfl
  | inChunk count inChunk =>
      unfold reset
      rw [inChunk.key_eq, inChunk.chunk_eq]
      rfl
  | afterPair count isPosition between paired =>
      unfold reset
      rw [between.key_eq, between.chunk_eq]
      rfl

variable (key flags)

/-- A run reads its bytes, and more of the message may follow. -/
theorem run_represents
    (platform : Platform)
    {calls : List Call}
    (countable : Countable calls)
    (rest : List UInt8)
    (bounded : (bytesRead calls ++ rest).length < 2 ^ 64) :
    ∃ reached,
      run platform (initBase key flags) calls = some reached ∧
        Represents key flags (bytesRead calls ++ rest)
          (bytesRead calls).length reached := by
  induction calls using List.reverseRecOn generalizing rest with
  | nil =>
      exact ⟨_, rfl, Represents.start rfl rfl⟩
  | append_singleton front last inductionHypothesis =>
      have frontCountable := countable.of_append
      cases last with
      | update input =>
          have bytes :
              bytesRead (front ++ [Call.update input]) =
                bytesRead front ++ input := by
            simp [bytesRead]
          rw [bytes, List.append_assoc] at bounded ⊢
          obtain ⟨reached, runs, represents⟩ :=
            inductionHypothesis frontCountable (input ++ rest) bounded
          obtain ⟨updated, updates, after⟩ :=
            update_represents platform (bytesRead front ++ input).length
              represents (by
                rw [List.length_append]
                omega) (by
                simp only [List.length_append]
                omega) bounded
          have part :
              ((bytesRead front ++ (input ++ rest)).take
                  (bytesRead front ++ input).length).drop
                    (bytesRead front).length = input := by
            rw [← List.append_assoc, List.take_left, List.drop_left]
          rw [part] at updates
          refine ⟨updated, ?_, after⟩
          rw [run_append, runs]
          exact updates
      | reset =>
          obtain ⟨reached, runs, represents⟩ :=
            inductionHypothesis frontCountable [] (by
              rw [List.append_nil]
              exact frontCountable.length_lt)
          have bytes : bytesRead (front ++ [Call.reset]) = [] := by
            simp [bytesRead]
          rw [bytes]
          refine ⟨initBase key flags, ?_, Represents.start rfl rfl⟩
          rw [run_append, runs]
          exact congrArg some (represents.reset_eq)

/-- A run of a countable number of bytes ends with all of them read. -/
theorem exists_run
    (platform : Platform)
    {calls : List Call}
    (countable : Countable calls) :
    ∃ reached,
      run platform (initBase key flags) calls = some reached ∧
        Represents key flags (bytesRead calls) (bytesRead calls).length
          reached := by
  have reads :=
    run_represents key flags platform countable [] (by
      rw [List.append_nil]
      exact countable.length_lt)
  rwa [List.append_nil] at reads

/--
The output of a run is that of the tree over the bytes since the last reset.

In particular it depends neither on how the bytes were cut into updates, nor
on what was read before the reset, nor on how many chunks a platform hashes
side by side, and no call of the run leaves an array.
-/
theorem finalizeSeek_run
    (platform : Platform)
    (calls : List Call)
    (seek : UInt64)
    (outLen : Nat)
    (countable : Countable calls) :
    ((run platform (initBase key flags) calls).bind fun reached =>
        reached.finalizeSeek seek outLen) =
      some
        ((List.range outLen).map fun index =>
          (treeOutput key flags (bytesRead calls)).streamByte
            (seek.toNat + index)) := by
  obtain ⟨reached, runs, represents⟩ :=
    exists_run key flags platform countable
  have root := rootOutput_eq represents
  rw [runs, Option.bind_some]
  rcases Nat.eq_zero_or_pos outLen with noOutput | someOutput
  · subst noOutput
    rfl
  · rw [finalizeSeek_eq reached seek someOutput, root, Option.map_some]

/-- Bytes before a reset do not show in a later window of the output. -/
theorem finalizeSeek_run_after_reset :
    Countable [.update [1, 2], .reset, .update [3]] ∧
      ((run Platform.portable (initBase iv 0)
          [.update [1, 2], .reset, .update [3]]).bind fun reached =>
            reached.finalizeSeek 5 3) =
        some
          ((List.range 3).map fun index =>
            (treeOutput iv 0 [3]).streamByte (5 + index)) :=
  ⟨by decide, finalizeSeek_run iv 0 Platform.portable _ 5 3 (by decide)⟩

end Runs

end Hasher

/-! ## The hash of the ring -/

/-- The digest of an input: 32 bytes of the root's output. -/
def digest
    (input : List UInt8) :
    Hash256 where
  bytes := (List.range 32).map (treeOutput iv 0 input).streamByte
  length_eq := by
    rw [List.length_map, List.length_range]

theorem blake3Full_eq
    (platform : Platform)
    {input : List UInt8}
    (bounded : input.length < 2 ^ 64) :
    blake3Full platform input = some (digest input).bytes := by
  have reads : Hasher.bytesRead [.update input] = input :=
    List.nil_append input
  have countable : Hasher.Countable [.update input] := by
    intro front isFront
    rcases List.mem_pair.1 isFront with rfl | rfl
    · exact Nat.two_pow_pos 64
    · rwa [reads]
  obtain ⟨reached, runs, represents⟩ :=
    Hasher.exists_run iv 0 platform countable
  rw [reads] at represents
  have root := Hasher.rootOutput_eq represents
  have updates : Hasher.init.update platform input = some reached := by
    simpa [Hasher.run, Hasher.call, Hasher.init] using runs
  unfold blake3Full Hasher.finalize
  simp only [updates, Option.bind_eq_bind, Option.bind_some,
    Hasher.finalizeSeek_eq reached 0 (show 0 < 32 by decide), root,
    Option.map_some, UInt64.toNat_zero, Nat.zero_add]
  rfl

/-- Position of one virtual node of a peer, by the vendored hasher. -/
def hashVirtualNode
    (platform : Platform)
    (peer : NodeId)
    (virtualNode : Nat) :
    Option Nat :=
  (blake3Full platform (ringKey peer virtualNode)).map fun digest =>
    LittleEndian.decode (digest.take 8)

/--
The server places a virtual node where the ring over the digests has it, so
that what holds for rings over any hash holds for its ring.  Platforms that
hash several inputs at once are taken to compute what the portable code does.
-/
theorem hashVirtualNode_eq
    (platform : Platform)
    (peer : NodeId)
    (virtualNode : Nat)
    (bounded : (ringKey peer virtualNode).length < 2 ^ 64) :
    hashVirtualNode platform peer virtualNode =
      some (Lethe.hashVirtualNode digest peer virtualNode) := by
  unfold hashVirtualNode
  rw [blake3Full_eq platform bounded]
  rfl

/-- The position of a virtual node with a short name. -/
theorem hashVirtualNode_eq_node0 :
    (ringKey default 7).length < 2 ^ 64 ∧
      hashVirtualNode Platform.portable default 7 =
        some (Lethe.hashVirtualNode digest default 7) := by
  have bounded : (ringKey default 7).length < 2 ^ 64 := by
    decide +kernel
  exact ⟨bounded,
    hashVirtualNode_eq Platform.portable default 7 bounded⟩

end Blake3

end Lethe
