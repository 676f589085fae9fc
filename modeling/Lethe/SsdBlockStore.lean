import Lethe.Types
import Lethe.Library.ByteMemory
import Lethe.Library.LittleEndian
import Mathlib.Data.List.AList

namespace Lethe

open ByteMemory

/-!
# SSD block store

One mapped file holds fixed-size slots, each a 64-byte header followed by the
payload.  The in-memory index, free list and byte counter are rebuilt from the
headers when the file is opened.  Every mutation of the file is given as its
sequence of single-byte stores in program order, so that a process killed in
the middle of an operation leaves a prefix of that sequence behind.
-/

/-- Magic byte of a slot that holds a block. -/
def slotMagicLive : UInt8 :=
  0xA5

/-- Magic byte of a slot that was never used or was erased. -/
def slotMagicFree : UInt8 :=
  0x00

/-- Size of the header at the start of every slot. -/
def headerBytes : Nat :=
  64

/--
Geometry of the mapped file.  The constructor of the store rejects slots that
do not exceed the header and files without any slot; the file size is a 64-bit
value.
-/
structure SsdGeometry where
  slotBytes : Nat
  totalSlots : Nat
  header_lt_slot : headerBytes < slotBytes
  slots_pos : 0 < totalSlots
  file_fits : totalSlots * slotBytes < sizeRange

namespace SsdGeometry

/-- Payload capacity of one slot. -/
def slotPayloadBytes (geometry : SsdGeometry) : Nat :=
  geometry.slotBytes - headerBytes

/-- Payload capacity of the whole file. -/
def usableBytes (geometry : SsdGeometry) : Nat :=
  geometry.totalSlots * geometry.slotPayloadBytes

/-- File offset of a slot. -/
def slotOffset (geometry : SsdGeometry) (slot : Nat) : Nat :=
  slot * geometry.slotBytes

/-- File offset of a slot's payload. -/
def payloadOffset (geometry : SsdGeometry) (slot : Nat) : Nat :=
  geometry.slotOffset slot + headerBytes

/-- The payload size of every slot fits the header's 32-bit field. -/
def SmallSlots (geometry : SsdGeometry) : Prop :=
  geometry.slotPayloadBytes < 2 ^ 32

end SsdGeometry

/-- A file with two slots of sixteen payload bytes each. -/
def twoSlotGeometry : SsdGeometry where
  slotBytes := 80
  totalSlots := 2
  header_lt_slot := by decide
  slots_pos := by decide
  file_fits := by decide

theorem twoSlotGeometry_small :
    twoSlotGeometry.SmallSlots := by
  unfold SsdGeometry.SmallSlots
  decide

/-- The header fields that the store reads back. -/
structure SsdSlotHeader where
  magic : UInt8
  payloadSize : Nat
  hash : Hash256
  insertedEpoch : UInt64
  layer : UInt32
  headGroup : UInt32
  modelId : UInt32

namespace SsdSlotHeader

/-- Block identity recorded in a header. -/
def id (header : SsdSlotHeader) : BlockId where
  hash := header.hash
  layer := header.layer
  headGroup := header.headGroup
  modelId := header.modelId

/-- Whether the slot holds a block. -/
def live (header : SsdSlotHeader) : Bool :=
  header.magic == slotMagicLive

end SsdSlotHeader

/-- The header starting at a file offset. -/
def slotHeaderAt
    (memory : Memory)
    (offset : Nat) :
    SsdSlotHeader where
  magic := memory offset
  payloadSize := LittleEndian.decode (load memory (offset + 4) 4)
  hash := ⟨load memory (offset + 8) 32, length_load memory (offset + 8) 32⟩
  insertedEpoch :=
    UInt64.ofNat (LittleEndian.decode (load memory (offset + 40) 8))
  layer := UInt32.ofNat (LittleEndian.decode (load memory (offset + 48) 4))
  headGroup :=
    UInt32.ofNat (LittleEndian.decode (load memory (offset + 52) 4))
  modelId := UInt32.ofNat (LittleEndian.decode (load memory (offset + 56) 4))

/-- State of the SSD tier: the mapped file and the in-memory bookkeeping. -/
structure SsdBlockStore where
  geometry : SsdGeometry
  memory : Memory
  index : AList (fun _ : BlockId => Nat)
  /-- Freed slot numbers with the most recently pushed one first. -/
  freeSlots : List Nat
  bumpNext : Nat
  usedBytes : Nat

namespace SsdBlockStore

/-- The header of a slot. -/
def slotHeader
    (store : SsdBlockStore)
    (slot : Nat) :
    SsdSlotHeader :=
  slotHeaderAt store.memory (store.geometry.slotOffset slot)

/-- Bookkeeping accumulated while the headers are scanned. -/
structure Scan where
  freeSlots : List Nat
  index : AList (fun _ : BlockId => Nat)
  liveBytes : Nat

/-- Account for one slot while the headers are scanned. -/
def scanSlot
    (geometry : SsdGeometry)
    (memory : Memory)
    (scan : Scan)
    (slot : Nat) :
    Scan :=
  let header := slotHeaderAt memory (geometry.slotOffset slot)
  if header.magic ≠ slotMagicLive then
    { scan with freeSlots := slot :: scan.freeSlots }
  else if header.payloadSize > geometry.slotPayloadBytes then
    { scan with freeSlots := slot :: scan.freeSlots }
  else
    { scan with
      index :=
        if header.id ∈ scan.index then scan.index
        else scan.index.insert header.id slot
      liveBytes := addSize scan.liveBytes header.payloadSize }

/-- Open a file: scan every header and rebuild the in-memory bookkeeping. -/
def rebuildIndexFromMmap
    (geometry : SsdGeometry)
    (memory : Memory) :
    SsdBlockStore :=
  let scan :=
    (List.range geometry.totalSlots).foldl
      (scanSlot geometry memory) ⟨[], ∅, 0⟩
  { geometry := geometry
    memory := memory
    index := scan.index
    freeSlots := scan.freeSlots
    bumpNext := geometry.totalSlots
    usedBytes := scan.liveBytes }

/-- Claim a slot for a new block: the free list first, then the bump pointer. -/
def allocSlot
    (store : SsdBlockStore) :
    Option (Nat × SsdBlockStore) :=
  match store.freeSlots with
  | slot :: rest =>
      some (slot, { store with freeSlots := rest })
  | [] =>
      if store.bumpNext < store.geometry.totalSlots then
        some (store.bumpNext, { store with bumpNext := store.bumpNext + 1 })
      else
        none

/--
Fields written for a new block, in program order: the payload, the header
fields, and the magic byte last.
-/
def putFields
    (geometry : SsdGeometry)
    (slot : Nat)
    (block : KvBlock) :
    List (Nat × List UInt8) :=
  let offset := geometry.slotOffset slot
  [ (geometry.payloadOffset slot, block.data),
    (offset + 1, [2]),
    (offset + 2, LittleEndian.encode 2 0),
    (offset + 4, LittleEndian.encode 4 block.data.length),
    (offset + 8, block.id.hash.bytes),
    (offset + 48, LittleEndian.encode 4 block.id.layer.toNat),
    (offset + 52, LittleEndian.encode 4 block.id.headGroup.toNat),
    (offset + 56, LittleEndian.encode 4 block.id.modelId.toNat),
    (offset + 40, LittleEndian.encode 8 block.insertedEpoch.toNat),
    (offset + 60, [0, 0, 0, 0]),
    (offset, [slotMagicLive]) ]

/-- Fields written when a slot is erased: the magic byte first. -/
def eraseFields
    (geometry : SsdGeometry)
    (slot : Nat) :
    List (Nat × List UInt8) :=
  [ (geometry.slotOffset slot, [slotMagicFree]),
    (geometry.slotOffset slot + 4, LittleEndian.encode 4 0) ]

/--
Store a block.  A payload larger than a slot is rejected, a present identity is
left alone, and a full file is rejected.
-/
def put
    (store : SsdBlockStore)
    (block : KvBlock) :
    Bool × SsdBlockStore :=
  if block.data.length > store.geometry.slotPayloadBytes then
    (false, store)
  else if block.id ∈ store.index then
    (true, store)
  else
    match store.allocSlot with
    | none => (false, store)
    | some (slot, claimed) =>
        (true, { claimed with
          memory :=
            run store.memory
              (storesOf (putFields store.geometry slot block))
          index := store.index.insert block.id slot
          usedBytes := addSize store.usedBytes block.data.length })

/-- The payload fits a slot, and the identity or a free slot is present. -/
def HasRoom
    (store : SsdBlockStore)
    (block : KvBlock) : Prop :=
  block.data.length ≤ store.geometry.slotPayloadBytes ∧
    (block.id ∈ store.index ∨
      store.freeSlots ≠ [] ∨
      store.bumpNext < store.geometry.totalSlots)

instance
    (store : SsdBlockStore)
    (block : KvBlock) :
    Decidable (store.HasRoom block) :=
  inferInstanceAs (Decidable (_ ∧ _))

/-- A slot is found exactly if one is free. -/
theorem allocSlot_isSome_iff
    (store : SsdBlockStore) :
    store.allocSlot.isSome = true ↔
      store.freeSlots ≠ [] ∨
        store.bumpNext < store.geometry.totalSlots := by
  unfold allocSlot
  cases store.freeSlots with
  | nil =>
      simp
  | cons slot rest =>
      simp

/-- A block is accepted exactly if there is room for it. -/
theorem put_accepted_iff
    {store : SsdBlockStore}
    {block : KvBlock} :
    (store.put block).1 = true ↔ store.HasRoom block := by
  have slots := store.allocSlot_isSome_iff
  unfold put HasRoom
  split
  · next tooLarge =>
      simp [tooLarge]
  · next fits =>
      rw [Nat.not_lt] at fits
      split
      · next present =>
          simp [fits, present]
      · next absent =>
          simp only [fits, absent, false_or, true_and, ← slots]
          cases store.allocSlot with
          | none =>
              simp
          | some claimed =>
              simp

/-- The file stores performed by a `put`, in program order. -/
def putStores
    (store : SsdBlockStore)
    (block : KvBlock) :
    List Store :=
  if block.data.length > store.geometry.slotPayloadBytes then
    []
  else if block.id ∈ store.index then
    []
  else
    match store.allocSlot with
    | none => []
    | some (slot, _) =>
        storesOf (putFields store.geometry slot block)

/-- An owned copy of a stored block, read from its slot. -/
def getCopy
    (store : SsdBlockStore)
    (id : BlockId) :
    Option KvBlock :=
  match store.index.lookup id with
  | none => none
  | some slot =>
      let header := store.slotHeader slot
      if header.magic ≠ slotMagicLive then
        none
      else
        some {
          id := header.id
          data :=
            load store.memory
              (store.geometry.payloadOffset slot) header.payloadSize
          tier := .ssd
          insertedEpoch := header.insertedEpoch }

/-- Remove a block and report the payload bytes it occupied. -/
def erase
    (store : SsdBlockStore)
    (id : BlockId) :
    Nat × SsdBlockStore :=
  match store.index.lookup id with
  | none => (0, store)
  | some slot =>
      let freed := (store.slotHeader slot).payloadSize
      (freed, { store with
        memory :=
          run store.memory (storesOf (eraseFields store.geometry slot))
        index := store.index.erase id
        freeSlots := slot :: store.freeSlots
        usedBytes := subSize store.usedBytes freed })

/-- The file stores performed by an `erase`, in program order. -/
def eraseStores
    (store : SsdBlockStore)
    (id : BlockId) :
    List Store :=
  match store.index.lookup id with
  | none => []
  | some slot => storesOf (eraseFields store.geometry slot)

/-- Metadata of every indexed block, in the index's iteration order. -/
def snapshot
    (store : SsdBlockStore) :
    List BlockMeta :=
  store.index.entries.map fun entry =>
    let header := store.slotHeader entry.2
    { id := entry.1
      tier := .ssd
      sizeBytes := header.payloadSize
      lastAccessEpoch := header.insertedEpoch
      insertEpoch := header.insertedEpoch
      visited := false }

/-- Calls never change the geometry. -/
@[simp] theorem put_geometry
    (store : SsdBlockStore)
    (block : KvBlock) :
    (store.put block).2.geometry = store.geometry := by
  unfold put allocSlot
  split
  · rfl
  · split
    · rfl
    · cases store.freeSlots with
      | cons slot rest =>
          rfl
      | nil =>
          by_cases bump : store.bumpNext < store.geometry.totalSlots
          · simp [bump]
          · simp [bump]

@[simp] theorem erase_geometry
    (store : SsdBlockStore)
    (id : BlockId) :
    (store.erase id).2.geometry = store.geometry := by
  unfold erase
  split <;> rfl

end SsdBlockStore

end Lethe
