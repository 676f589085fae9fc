import Lethe.SsdBlockStore
import Mathlib.Algebra.BigOperators.Intervals
import Mathlib.Algebra.Group.Action.Defs
import Mathlib.Algebra.Order.BigOperators.Group.Finset

namespace Lethe

open ByteMemory

/-!
# The slot file as a map from identities to blocks

The durable meaning of the mapped file: which blocks its live slots spell out.
Every store sequence of the SSD store stays inside one slot, so its effect on
that meaning depends only on whether the slot is live before and after.
-/

namespace SlotFile

variable (geometry : SsdGeometry) (memory : Memory)

/-- The header of a slot. -/
def header (slot : Nat) : SsdSlotHeader :=
  slotHeaderAt memory (geometry.slotOffset slot)

/-- Whether a slot holds a block. -/
def Live (slot : Nat) : Prop :=
  (header geometry memory slot).magic = slotMagicLive

instance (slot : Nat) : Decidable (Live geometry memory slot) :=
  inferInstanceAs (Decidable (_ = _))

/-- The block spelled out by a slot. -/
def blockAt (slot : Nat) : KvBlock where
  id := (header geometry memory slot).id
  data :=
    load memory (geometry.payloadOffset slot)
      (header geometry memory slot).payloadSize
  tier := .ssd
  insertedEpoch := (header geometry memory slot).insertedEpoch

/-- Some live slot spells out the block. -/
def Holds (block : KvBlock) : Prop :=
  ∃ slot,
    slot < geometry.totalSlots ∧
      Live geometry memory slot ∧
      blockAt geometry memory slot = block

/-- Payload bytes accounted to a slot. -/
def slotBytesUsed (slot : Nat) : Nat :=
  if Live geometry memory slot then
    (header geometry memory slot).payloadSize
  else
    0

/-- Payload bytes of all live slots. -/
def liveBytes : Nat :=
  ∑ slot ∈ Finset.range geometry.totalSlots,
    slotBytesUsed geometry memory slot

/-- Live slots have payloads that fit and name pairwise different blocks. -/
structure WellFormed : Prop where
  size_le :
    ∀ {slot},
      slot < geometry.totalSlots →
      Live geometry memory slot →
      (header geometry memory slot).payloadSize ≤
        geometry.slotPayloadBytes
  slot_unique :
    ∀ {first second},
      first < geometry.totalSlots →
      second < geometry.totalSlots →
      Live geometry memory first →
      Live geometry memory second →
      (header geometry memory first).id =
        (header geometry memory second).id →
      first = second

variable {geometry memory}

@[simp] theorem blockAt_id (slot : Nat) :
    (blockAt geometry memory slot).id =
      (header geometry memory slot).id :=
  rfl

@[simp] theorem blockAt_length (slot : Nat) :
    (blockAt geometry memory slot).data.length =
      (header geometry memory slot).payloadSize := by
  simp [blockAt]

/-- An all-zero file is well formed. -/
theorem wellFormed_zero :
    WellFormed geometry (fun _ => 0) where
  size_le := by
    intro slot _ live
    simp [Live, header, slotHeaderAt, slotMagicLive] at live
  slot_unique := by
    intro first _ _ _ live
    simp [Live, header, slotHeaderAt, slotMagicLive] at live

/-- An all-zero file holds no block. -/
theorem not_holds_zero
    (block : KvBlock) :
    ¬ Holds geometry (fun _ => 0) block := by
  rintro ⟨slot, _, live, _⟩
  simp [Live, header, slotHeaderAt, slotMagicLive] at live

/-! ## Stores inside one slot -/

/-- Two file images agree outside one slot. -/
def SameElsewhere
    (geometry : SsdGeometry)
    (before after : Memory)
    (slot : Nat) : Prop :=
  ∀ address,
    address < geometry.slotOffset slot ∨
      geometry.slotOffset slot + geometry.slotBytes ≤ address →
    after address = before address

/-- Bytes of a different slot lie outside the changed one. -/
theorem SameElsewhere.agree
    {before after : Memory}
    {slot other address : Nat}
    (same : SameElsewhere geometry before after slot)
    (different : other ≠ slot)
    (lower : geometry.slotOffset other ≤ address)
    (upper : address < geometry.slotOffset other + geometry.slotBytes) :
    after address = before address := by
  apply same
  unfold SsdGeometry.slotOffset at *
  rcases Nat.lt_or_gt_of_ne different with less | greater
  · have bound : (other + 1) * geometry.slotBytes ≤
        slot * geometry.slotBytes :=
      Nat.mul_le_mul_right _ less
    rw [Nat.succ_mul] at bound
    exact Or.inl (by omega)
  · have bound : (slot + 1) * geometry.slotBytes ≤
        other * geometry.slotBytes :=
      Nat.mul_le_mul_right _ greater
    rw [Nat.succ_mul] at bound
    exact Or.inr (by omega)

/-- File images that agree on a header give the same header. -/
theorem slotHeaderAt_congr
    {before after : Memory}
    {offset : Nat}
    (agree :
      ∀ address,
        offset ≤ address →
        address < offset + headerBytes →
        after address = before address) :
    slotHeaderAt after offset = slotHeaderAt before offset := by
  have field
      (shift count : Nat)
      (inside : shift + count ≤ headerBytes) :
      load after (offset + shift) count =
        load before (offset + shift) count := by
    apply load_congr
    intro query lower upper
    exact agree query (by omega) (by omega)
  have magic : after offset = before offset :=
    agree offset (Nat.le_refl offset) (by simp [headerBytes])
  unfold slotHeaderAt
  simp only [magic, field 4 4 (by decide), field 8 32 (by decide),
    field 40 8 (by decide), field 48 4 (by decide), field 52 4 (by decide),
    field 56 4 (by decide)]

/-- Changing one slot leaves the headers of the others alone. -/
theorem SameElsewhere.header_eq
    {before after : Memory}
    {slot other : Nat}
    (same : SameElsewhere geometry before after slot)
    (different : other ≠ slot) :
    header geometry after other = header geometry before other := by
  apply slotHeaderAt_congr
  intro address lower upper
  have headerFits := geometry.header_lt_slot
  exact same.agree different lower (by omega)

/-- Changing one slot leaves liveness of the others alone. -/
theorem SameElsewhere.live_iff
    {before after : Memory}
    {slot other : Nat}
    (same : SameElsewhere geometry before after slot)
    (different : other ≠ slot) :
    Live geometry after other ↔ Live geometry before other := by
  unfold Live
  rw [same.header_eq different]

/-- Changing one slot leaves well-sized blocks of the others alone. -/
theorem SameElsewhere.blockAt_eq
    {before after : Memory}
    {slot other : Nat}
    (same : SameElsewhere geometry before after slot)
    (different : other ≠ slot)
    (fits :
      (header geometry before other).payloadSize ≤
        geometry.slotPayloadBytes) :
    blockAt geometry after other = blockAt geometry before other := by
  unfold blockAt
  rw [same.header_eq different]
  congr 1
  apply load_congr
  intro address lower upper
  have headerFits := geometry.header_lt_slot
  unfold SsdGeometry.payloadOffset at lower upper
  unfold SsdGeometry.slotPayloadBytes at fits
  exact same.agree different (by omega) (by omega)

/-- Changing one slot changes the live bytes by that slot's share. -/
theorem SameElsewhere.liveBytes_eq
    {before after : Memory}
    {slot : Nat}
    (same : SameElsewhere geometry before after slot)
    (bound : slot < geometry.totalSlots) :
    liveBytes geometry after + slotBytesUsed geometry before slot =
      liveBytes geometry before + slotBytesUsed geometry after slot := by
  have member : slot ∈ Finset.range geometry.totalSlots :=
    Finset.mem_range.mpr bound
  have others :
      ∑ other ∈ (Finset.range geometry.totalSlots).erase slot,
          slotBytesUsed geometry after other =
        ∑ other ∈ (Finset.range geometry.totalSlots).erase slot,
          slotBytesUsed geometry before other := by
    apply Finset.sum_congr rfl
    intro other otherMember
    have different : other ≠ slot := (Finset.mem_erase.mp otherMember).1
    unfold slotBytesUsed
    simp only [same.live_iff different, same.header_eq different]
  unfold liveBytes
  rw [← Finset.add_sum_erase _ _ member, ← Finset.add_sum_erase _ _ member,
    others]
  omega

section OneSlot

variable
  {before after : Memory}
  {slot : Nat}
  (wellFormed : WellFormed geometry before)
  (same : SameElsewhere geometry before after slot)
  (bound : slot < geometry.totalSlots)

include wellFormed same

/-- Blocks of other slots survive a change of one slot. -/
theorem holds_of_elsewhere
    {other : Nat}
    (otherBound : other < geometry.totalSlots)
    (otherLive : Live geometry before other)
    (different : other ≠ slot) :
    Holds geometry after (blockAt geometry before other) :=
  ⟨other, otherBound, (same.live_iff different).mpr otherLive,
    same.blockAt_eq different (wellFormed.size_le otherBound otherLive)⟩

/-- A live slot other than the changed one held its block before. -/
theorem holds_before_of_elsewhere
    {other : Nat}
    (otherBound : other < geometry.totalSlots)
    (otherLive : Live geometry after other)
    (different : other ≠ slot) :
    Holds geometry before (blockAt geometry after other) := by
  have liveBefore := (same.live_iff different).mp otherLive
  exact ⟨other, otherBound, liveBefore,
    (same.blockAt_eq different
      (wellFormed.size_le otherBound liveBefore)).symm⟩

/--
A file stays well formed when the changed slot ends up dead, or live with a
payload that fits and an identity no other slot names.
-/
theorem wellFormed_of_elsewhere
    (fits :
      Live geometry after slot →
      (header geometry after slot).payloadSize ≤
        geometry.slotPayloadBytes)
    (fresh :
      Live geometry after slot →
      ∀ other,
        other < geometry.totalSlots →
        other ≠ slot →
        Live geometry before other →
        (header geometry before other).id ≠
          (header geometry after slot).id) :
    WellFormed geometry after where
  size_le := by
    intro other otherBound otherLive
    by_cases isSlot : other = slot
    · subst isSlot
      exact fits otherLive
    · rw [same.header_eq isSlot]
      exact wellFormed.size_le otherBound
        ((same.live_iff isSlot).mp otherLive)
  slot_unique := by
    intro first second firstBound secondBound firstLive secondLive sameId
    by_cases firstIsSlot : first = slot
    · subst firstIsSlot
      by_contra different
      have secondNe : second ≠ first := Ne.symm different
      apply fresh firstLive second secondBound secondNe
        ((same.live_iff secondNe).mp secondLive)
      rw [← same.header_eq secondNe, sameId]
    · by_cases secondIsSlot : second = slot
      · subst secondIsSlot
        exfalso
        apply fresh secondLive first firstBound firstIsSlot
          ((same.live_iff firstIsSlot).mp firstLive)
        rw [← same.header_eq firstIsSlot, sameId]
      · rw [same.header_eq firstIsSlot, same.header_eq secondIsSlot]
          at sameId
        exact wellFormed.slot_unique firstBound secondBound
          ((same.live_iff firstIsSlot).mp firstLive)
          ((same.live_iff secondIsSlot).mp secondLive) sameId

/-- A slot that is dead before and after leaves the held blocks alone. -/
theorem holds_iff_of_dead
    (deadBefore : ¬ Live geometry before slot)
    (deadAfter : ¬ Live geometry after slot)
    (block : KvBlock) :
    Holds geometry after block ↔ Holds geometry before block := by
  constructor
  · rintro ⟨other, otherBound, otherLive, isBlock⟩
    have different : other ≠ slot := by
      rintro rfl
      exact deadAfter otherLive
    rw [← isBlock]
    exact holds_before_of_elsewhere wellFormed same otherBound otherLive
      different
  · rintro ⟨other, otherBound, otherLive, isBlock⟩
    have different : other ≠ slot := by
      rintro rfl
      exact deadBefore otherLive
    rw [← isBlock]
    exact holds_of_elsewhere wellFormed same otherBound otherLive different

include bound

/-- A slot that dies removes exactly the block it spelled out. -/
theorem holds_iff_of_killed
    (liveBefore : Live geometry before slot)
    (deadAfter : ¬ Live geometry after slot)
    (block : KvBlock) :
    Holds geometry after block ↔
      Holds geometry before block ∧
        block.id ≠ (header geometry before slot).id := by
  constructor
  · rintro ⟨other, otherBound, otherLive, isBlock⟩
    have different : other ≠ slot := by
      rintro rfl
      exact deadAfter otherLive
    rw [← isBlock]
    refine ⟨holds_before_of_elsewhere wellFormed same otherBound otherLive
      different, ?_⟩
    intro sameId
    rw [blockAt_id, same.header_eq different] at sameId
    exact different
      (wellFormed.slot_unique otherBound bound
        ((same.live_iff different).mp otherLive) liveBefore sameId)
  · rintro ⟨⟨other, otherBound, otherLive, isBlock⟩, differentId⟩
    have different : other ≠ slot := by
      rintro rfl
      rw [← isBlock] at differentId
      exact differentId rfl
    rw [← isBlock]
    exact holds_of_elsewhere wellFormed same otherBound otherLive different

end OneSlot

/-- The live payload bytes of a well-formed file fit a 64-bit counter. -/
theorem WellFormed.liveBytes_lt
    (wellFormed : WellFormed geometry memory) :
    liveBytes geometry memory < sizeRange := by
  have perSlot :
      ∀ slot ∈ Finset.range geometry.totalSlots,
        slotBytesUsed geometry memory slot ≤
          geometry.slotBytes := by
    intro slot member
    have bound := Finset.mem_range.mp member
    unfold slotBytesUsed
    split
    · next live =>
        have fits := wellFormed.size_le bound live
        unfold SsdGeometry.slotPayloadBytes at fits
        omega
    · exact Nat.zero_le _
  have summed := Finset.sum_le_card_nsmul _ _ _ perSlot
  rw [Finset.card_range, smul_eq_mul] at summed
  exact Nat.lt_of_le_of_lt summed geometry.file_fits

end SlotFile

end Lethe
