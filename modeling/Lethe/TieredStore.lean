import Lethe.BlockStore
import Lethe.SsdInvariant
import Mathlib.Data.Finset.Insert

namespace Lethe

/-!
# Tiered storage

Three stores, fastest first: an optional in-memory HBM tier, the DRAM tier and
an optional SSD tier.  Reads may promote a block one tier up; eviction demotes
blocks before dropping them.  What the upper layers rely on is the content of
each tier, so every operation gets one lemma about `copy`.
-/

/--
Settings of the store.  The SSD tier is configured when a file path and a
capacity are given; slot size and capacity then fix the geometry of the file.
-/
structure TieredStoreConfig where
  hbmBytes : Nat := 0
  dramBytes : Nat := 32 * 2 ^ 30
  ssd : Option SsdGeometry := none
  enablePromotion : Bool := true
  promotionAccessThreshold : UInt32 := 2

/-- State of the tiered store of one node. -/
structure TieredStore where
  config : TieredStoreConfig
  hbm : Option BlockStore
  dram : BlockStore
  ssd : Option SsdBlockStore
  accessCounts : AList (fun _ : BlockId => UInt32)
  visited : Finset BlockId

/-- Outcome of a successful read. -/
structure GetResult where
  data : List UInt8
  tierFound : Tier
  promoted : Bool
  deriving DecidableEq

/-- What the tier-by-tier lookup of a read has established so far. -/
structure Probe where
  found : Tier
  bytes : List UInt8
  deriving DecidableEq

namespace Probe

/-- Before any tier was asked. -/
def start : Probe :=
  ⟨.ssd, []⟩

/-- Take over the answer of one tier unless bytes were already found. -/
def note
    (probe : Probe)
    (tier : Tier)
    (answer : Option (List UInt8)) :
    Probe :=
  if probe.bytes = [] then
    match answer with
    | some data => ⟨tier, data⟩
    | none => probe
  else
    probe

/-- The lookup reports a miss: no bytes, and no in-memory tier answered. -/
def missed (probe : Probe) : Bool :=
  probe.bytes = [] ∧ probe.found ≠ .hbm ∧ probe.found ≠ .dram

/-- Bytes once found are kept. -/
theorem note_of_nonempty
    {probe : Probe}
    (found : probe.bytes ≠ [])
    (tier : Tier)
    (answer : Option (List UInt8)) :
    probe.note tier answer = probe := by
  simp [note, found]

/-- After an answer with bytes the probe has bytes. -/
theorem note_nonempty
    (probe : Probe)
    (tier : Tier)
    {bytes : List UInt8}
    (nonempty : bytes ≠ []) :
    (probe.note tier (some bytes)).bytes ≠ [] := by
  unfold note
  split
  · exact nonempty
  · next found =>
      exact found

end Probe

namespace TieredStore

/-- A node's store as its constructor leaves it, given the mapped SSD file. -/
def create
    (config : TieredStoreConfig)
    (memory : ByteMemory.Memory) :
    TieredStore where
  config := config
  hbm :=
    if 0 < config.hbmBytes then
      some (BlockStore.empty .hbm config.hbmBytes)
    else
      none
  dram := BlockStore.empty .dram config.dramBytes
  ssd :=
    config.ssd.map fun geometry =>
      SsdBlockStore.rebuildIndexFromMmap geometry memory
  accessCounts := ∅
  visited := ∅

/-- The bytes that one tier holds under an identity. -/
def copy
    (store : TieredStore)
    (tier : Tier)
    (id : BlockId) :
    Option (List UInt8) :=
  match tier with
  | .hbm => store.hbm.bind fun tierStore => tierStore.get id
  | .dram => store.dram.get id
  | .ssd =>
      store.ssd.bind fun tierStore =>
        (tierStore.getCopy id).map KvBlock.data

/-- Insert into the named tier's store; a missing tier rejects. -/
def putToTier
    (store : TieredStore)
    (block : KvBlock)
    (tier : Tier) :
    Bool × TieredStore :=
  match tier with
  | .hbm =>
      match store.hbm with
      | none => (false, store)
      | some tierStore =>
          let result := tierStore.put block
          (result.1, { store with hbm := some result.2 })
  | .dram =>
      let result := store.dram.put block
      (result.1, { store with dram := result.2 })
  | .ssd =>
      match store.ssd with
      | none => (false, store)
      | some tierStore =>
          let result := tierStore.put block
          (result.1, { store with ssd := some result.2 })

/-- Erase from the named tier's store only. -/
def eraseFromTier
    (store : TieredStore)
    (id : BlockId)
    (tier : Tier) :
    Nat × TieredStore :=
  match tier with
  | .hbm =>
      match store.hbm with
      | none => (0, store)
      | some tierStore =>
          let result := tierStore.erase id
          (result.1, { store with hbm := some result.2 })
  | .dram =>
      let result := store.dram.erase id
      (result.1, { store with dram := result.2 })
  | .ssd =>
      match store.ssd with
      | none => (0, store)
      | some tierStore =>
          let result := tierStore.erase id
          (result.1, { store with ssd := some result.2 })

/-- Ask HBM, DRAM and SSD in turn. -/
def probe
    (store : TieredStore)
    (id : BlockId) :
    Probe :=
  ((Probe.start.note .hbm (store.copy .hbm id)).note
    .dram (store.copy .dram id)).note .ssd (store.copy .ssd id)

/-- The access count of a block after one more hit, modulo its 32 bits. -/
def nextCount
    (store : TieredStore)
    (id : BlockId) :
    UInt32 :=
  (store.accessCounts.lookup id).getD 0 + 1

/-- Bump the access counter and set the visited bit. -/
def recordHit
    (store : TieredStore)
    (id : BlockId) :
    TieredStore :=
  { store with
    accessCounts := store.accessCounts.insert id (store.nextCount id)
    visited := insert id store.visited }

/-- Tier that a read from `found` promotes to; `found` itself means none. -/
def promotionTarget
    (store : TieredStore)
    (found : Tier) :
    Tier :=
  let target := if found = .ssd then Tier.dram else Tier.hbm
  if target = .hbm ∧ store.hbm.isNone then .dram else target

/-- Whether a read with the given access count promotes the block it found. -/
def promotes
    (store : TieredStore)
    (count : UInt32)
    (found : Tier) :
    Bool :=
  store.config.enablePromotion ∧
    store.config.promotionAccessThreshold ≤ count ∧
    found ≠ .hbm ∧
    store.promotionTarget found ≠ found

/-- The block written when bytes are copied to another tier. -/
def relocated
    (id : BlockId)
    (bytes : List UInt8)
    (target : Tier) :
    KvBlock :=
  { id := id, data := bytes, tier := target, insertedEpoch := 0 }

/--
Read a block.  A hit is recorded and may move the block to a faster tier: the
copy there is made first, and the cold copy is dropped only if that succeeded.
-/
def get
    (store : TieredStore)
    (id : BlockId) :
    Option GetResult × TieredStore :=
  let probe := store.probe id
  if probe.missed then
    (none, store)
  else
    let recorded := store.recordHit id
    if store.promotes (store.nextCount id) probe.found then
      let target := store.promotionTarget probe.found
      let moved :=
        recorded.putToTier (relocated id probe.bytes target) target
      if moved.1 then
        (some ⟨probe.bytes, probe.found, true⟩,
          (moved.2.eraseFromTier id probe.found).2)
      else
        (some ⟨probe.bytes, probe.found, false⟩, moved.2)
    else
      (some ⟨probe.bytes, probe.found, false⟩, recorded)

/-- Tiers tried by an insertion with the given hint, in order. -/
def fallthrough : Tier → List Tier
  | .hbm => [.hbm, .dram, .ssd]
  | .dram => [.dram, .ssd]
  | .ssd => [.ssd]

/-- Try tiers in turn until one accepts the block. -/
def putInFirst
    (store : TieredStore)
    (block : KvBlock) :
    List Tier → Option Tier × TieredStore
  | [] => (none, store)
  | tier :: slower =>
      let result := store.putToTier block tier
      if result.1 then
        (some tier, result.2)
      else
        putInFirst result.2 block slower

/-- Insert at the hinted tier or the next slower one that accepts. -/
def put
    (store : TieredStore)
    (block : KvBlock)
    (hint : Tier) :
    Option Tier × TieredStore :=
  store.putInFirst block (fallthrough hint)

/--
Move a block one tier down: from HBM to DRAM or, if that is full, to SSD; from
DRAM to SSD.
-/
def demote
    (store : TieredStore)
    (id : BlockId) :
    Bool × TieredStore :=
  match store.copy .hbm id with
  | some bytes =>
      let toDram :=
        store.putToTier (relocated id bytes .dram) .dram
      if toDram.1 then
        (true, (toDram.2.eraseFromTier id .hbm).2)
      else
        let toSsd :=
          toDram.2.putToTier (relocated id bytes .ssd) .ssd
        if toSsd.1 then
          (true, (toSsd.2.eraseFromTier id .hbm).2)
        else
          (false, toSsd.2)
  | none =>
      match store.copy .dram id with
      | some bytes =>
          let toSsd :=
            store.putToTier (relocated id bytes .ssd) .ssd
          if toSsd.1 then
            (true, (toSsd.2.eraseFromTier id .dram).2)
          else
            (false, toSsd.2)
      | none => (false, store)

/-- Forget the access count and visited bit of a block. -/
def forget
    (store : TieredStore)
    (id : BlockId) :
    TieredStore :=
  { store with
    accessCounts := store.accessCounts.erase id
    visited := store.visited.erase id }

/-- Remove a block from all tiers together with its bookkeeping. -/
def erase
    (store : TieredStore)
    (id : BlockId) :
    Nat × TieredStore :=
  let fromHbm := store.eraseFromTier id .hbm
  let fromDram := fromHbm.2.eraseFromTier id .dram
  let fromSsd := fromDram.2.eraseFromTier id .ssd
  (addSize (addSize fromHbm.1 fromDram.1) fromSsd.1, fromSsd.2.forget id)

/-- Bytes counted by one tier. -/
def usedBytes
    (store : TieredStore) :
    Tier → Nat
  | .hbm => (store.hbm.map BlockStore.usedBytes).getD 0
  | .dram => store.dram.usedBytes
  | .ssd => (store.ssd.map SsdBlockStore.usedBytes).getD 0

/-- Payload capacity of one tier. -/
def capacityBytes
    (store : TieredStore) :
    Tier → Nat
  | .hbm => (store.hbm.map BlockStore.capacityBytes).getD 0
  | .dram => store.dram.capacityBytes
  | .ssd =>
      (store.ssd.map fun tierStore =>
        tierStore.geometry.usableBytes).getD 0

/-- Metadata of one tier's blocks with the visited bits painted on. -/
def snapshot
    (store : TieredStore)
    (tier : Tier) :
    List BlockMeta :=
  let plain :=
    match tier with
    | .hbm => (store.hbm.map BlockStore.snapshot).getD []
    | .dram => store.dram.snapshot
    | .ssd => (store.ssd.map SsdBlockStore.snapshot).getD []
  plain.map fun entry =>
    { entry with visited := decide (entry.id ∈ store.visited) }

/-- Clear the visited bit of a block. -/
def clearVisited
    (store : TieredStore)
    (id : BlockId) :
    TieredStore :=
  { store with visited := store.visited.erase id }

/-- Some tier holds the identity. -/
def Resident
    (store : TieredStore)
    (id : BlockId) : Prop :=
  ∃ tier, (store.copy tier id).isSome = true

instance
    (store : TieredStore)
    (id : BlockId) :
    Decidable (store.Resident id) :=
  decidable_of_iff
    ((store.copy .hbm id).isSome = true ∨
      (store.copy .dram id).isSome = true ∨
      (store.copy .ssd id).isSome = true)
    ⟨fun found => by
      rcases found with inHbm | inDram | inSsd
      · exact ⟨.hbm, inHbm⟩
      · exact ⟨.dram, inDram⟩
      · exact ⟨.ssd, inSsd⟩,
    fun ⟨tier, found⟩ => by
      cases tier with
      | hbm =>
          exact Or.inl found
      | dram =>
          exact Or.inr (Or.inl found)
      | ssd =>
          exact Or.inr (Or.inr found)⟩

/-- A promotion has a target other than the tier it reads from. -/
theorem promotionTarget_ne_of_promotes
    {store : TieredStore}
    {count : UInt32}
    {found : Tier}
    (promotes : store.promotes count found = true) :
    store.promotionTarget found ≠ found := by
  simp only [TieredStore.promotes, Bool.decide_and, Bool.and_eq_true,
    decide_eq_true_eq] at promotes
  exact promotes.2.2.2

/-- The SSD tier, when present, agrees with its file. -/
def SsdConsistent
    (store : TieredStore) : Prop :=
  ∀ tierStore,
    store.ssd = some tierStore →
    tierStore.Consistent ∧ tierStore.geometry.SmallSlots

/-- The SSD tier, when present, has sound bookkeeping, whatever its file. -/
def SsdSound
    (store : TieredStore) : Prop :=
  ∀ tierStore,
    store.ssd = some tierStore →
    tierStore.Sound

/-- What a tier returns for a payload that was put into it. -/
def storedBytes
    (tier : Tier)
    (data : List UInt8) :
    List UInt8 :=
  if tier = .ssd then SsdBlockStore.namedBytes data else data

/-! ## Bookkeeping does not touch the tiers -/

@[simp] theorem recordHit_copy
    (store : TieredStore)
    (hit : BlockId) :
    (store.recordHit hit).copy = store.copy :=
  rfl

@[simp] theorem clearVisited_copy
    (store : TieredStore)
    (cleared : BlockId) :
    (store.clearVisited cleared).copy = store.copy :=
  rfl

@[simp] theorem forget_copy
    (store : TieredStore)
    (forgotten : BlockId) :
    (store.forget forgotten).copy = store.copy :=
  rfl

/-! ## Single-tier operations -/

/-- An erasure from another tier leaves HBM. -/
theorem hbm_eraseFromTier
    (store : TieredStore)
    (id : BlockId)
    {source : Tier}
    (different : source ≠ .hbm) :
    (store.eraseFromTier id source).2.hbm = store.hbm := by
  cases source with
  | hbm =>
      exact absurd rfl different
  | dram =>
      rfl
  | ssd =>
      cases present : store.ssd <;> simp [eraseFromTier, present]

/-- An erasure from another tier leaves DRAM. -/
theorem dram_eraseFromTier
    (store : TieredStore)
    (id : BlockId)
    {source : Tier}
    (different : source ≠ .dram) :
    (store.eraseFromTier id source).2.dram = store.dram := by
  cases source with
  | hbm =>
      cases present : store.hbm <;> simp [eraseFromTier, present]
  | dram =>
      exact absurd rfl different
  | ssd =>
      cases present : store.ssd <;> simp [eraseFromTier, present]

/-- An insertion into another tier leaves HBM. -/
theorem hbm_putToTier
    (store : TieredStore)
    (block : KvBlock)
    {target : Tier}
    (different : target ≠ .hbm) :
    (store.putToTier block target).2.hbm = store.hbm := by
  cases target with
  | hbm =>
      exact absurd rfl different
  | dram =>
      rfl
  | ssd =>
      cases present : store.ssd <;> simp [putToTier, present]

/-- An insertion into another tier leaves DRAM. -/
theorem dram_putToTier
    (store : TieredStore)
    (block : KvBlock)
    {target : Tier}
    (different : target ≠ .dram) :
    (store.putToTier block target).2.dram = store.dram := by
  cases target with
  | hbm =>
      cases present : store.hbm <;> simp [putToTier, present]
  | dram =>
      exact absurd rfl different
  | ssd =>
      cases present : store.ssd <;> simp [putToTier, present]

/-- An erasure from another tier leaves the file. -/
theorem ssd_eraseFromTier
    (store : TieredStore)
    (id : BlockId)
    {source : Tier}
    (different : source ≠ .ssd) :
    (store.eraseFromTier id source).2.ssd = store.ssd := by
  cases source with
  | hbm =>
      cases present : store.hbm <;> simp [eraseFromTier, present]
  | dram =>
      rfl
  | ssd =>
      exact absurd rfl different

/-- An insertion into another tier leaves the file. -/
theorem ssd_putToTier
    (store : TieredStore)
    (block : KvBlock)
    {target : Tier}
    (different : target ≠ .ssd) :
    (store.putToTier block target).2.ssd = store.ssd := by
  cases target with
  | hbm =>
      cases present : store.hbm <;> simp [putToTier, present]
  | dram =>
      rfl
  | ssd =>
      exact absurd rfl different

@[simp] theorem visited_putToTier
    (store : TieredStore)
    (block : KvBlock)
    (tier : Tier) :
    (store.putToTier block tier).2.visited = store.visited := by
  cases tier with
  | hbm =>
      cases present : store.hbm <;> simp [putToTier, present]
  | dram =>
      rfl
  | ssd =>
      cases present : store.ssd <;> simp [putToTier, present]

@[simp] theorem visited_eraseFromTier
    (store : TieredStore)
    (id : BlockId)
    (tier : Tier) :
    (store.eraseFromTier id tier).2.visited = store.visited := by
  cases tier with
  | hbm =>
      cases present : store.hbm <;> simp [eraseFromTier, present]
  | dram =>
      rfl
  | ssd =>
      cases present : store.ssd <;> simp [eraseFromTier, present]

@[simp] theorem accessCounts_putToTier
    (store : TieredStore)
    (block : KvBlock)
    (tier : Tier) :
    (store.putToTier block tier).2.accessCounts = store.accessCounts := by
  cases tier with
  | hbm =>
      cases present : store.hbm <;> simp [putToTier, present]
  | dram =>
      rfl
  | ssd =>
      cases present : store.ssd <;> simp [putToTier, present]

@[simp] theorem accessCounts_eraseFromTier
    (store : TieredStore)
    (id : BlockId)
    (tier : Tier) :
    (store.eraseFromTier id tier).2.accessCounts = store.accessCounts := by
  cases tier with
  | hbm =>
      cases present : store.hbm <;> simp [eraseFromTier, present]
  | dram =>
      rfl
  | ssd =>
      cases present : store.ssd <;> simp [eraseFromTier, present]

/-- A rejected insertion changes nothing. -/
theorem putToTier_of_rejected
    {store : TieredStore}
    {block : KvBlock}
    {tier : Tier}
    (rejected : (store.putToTier block tier).1 = false) :
    (store.putToTier block tier).2 = store := by
  cases tier with
  | hbm =>
      cases present : store.hbm with
      | none =>
          simp [putToTier, present]
      | some tierStore =>
          simp only [putToTier, present] at rejected ⊢
          rw [BlockStore.put_of_rejected rejected, ← present]
  | dram =>
      simp only [putToTier] at rejected ⊢
      rw [BlockStore.put_of_rejected rejected]
  | ssd =>
      cases present : store.ssd with
      | none =>
          simp [putToTier, present]
      | some tierStore =>
          simp only [putToTier, present] at rejected ⊢
          rw [SsdBlockStore.put_of_rejected rejected, ← present]

/-- The SSD tier after an insertion is the one before it or took the block. -/
theorem ssd_of_putToTier
    {store : TieredStore}
    {block : KvBlock}
    {tier : Tier}
    {after : SsdBlockStore}
    (isAfter : (store.putToTier block tier).2.ssd = some after) :
    ∃ before,
      store.ssd = some before ∧
        (after = before ∨ after = (before.put block).2) := by
  by_cases isSsd : tier = .ssd
  · subst isSsd
    cases present : store.ssd with
    | none =>
        simp [putToTier, present] at isAfter
    | some before =>
        simp only [putToTier, present, Option.some.injEq] at isAfter
        exact ⟨before, rfl, Or.inr isAfter.symm⟩
  · rw [ssd_putToTier store block isSsd] at isAfter
    exact ⟨after, isAfter, Or.inl rfl⟩

/-- The SSD tier after an erasure is the one before it or lost the block. -/
theorem ssd_of_eraseFromTier
    {store : TieredStore}
    {id : BlockId}
    {tier : Tier}
    {after : SsdBlockStore}
    (isAfter : (store.eraseFromTier id tier).2.ssd = some after) :
    ∃ before,
      store.ssd = some before ∧
        (after = before ∨ after = (before.erase id).2) := by
  by_cases isSsd : tier = .ssd
  · subst isSsd
    cases present : store.ssd with
    | none =>
        simp [eraseFromTier, present] at isAfter
    | some before =>
        simp only [eraseFromTier, present, Option.some.injEq] at isAfter
        exact ⟨before, rfl, Or.inr isAfter.symm⟩
  · rw [ssd_eraseFromTier store id isSsd] at isAfter
    exact ⟨after, isAfter, Or.inl rfl⟩

/-- An insertion keeps the SSD tier in agreement with its file. -/
theorem SsdConsistent.putToTier
    {store : TieredStore}
    (consistent : store.SsdConsistent)
    (block : KvBlock)
    (tier : Tier) :
    (store.putToTier block tier).2.SsdConsistent := by
  intro after isAfter
  obtain ⟨before, present, same | put⟩ := ssd_of_putToTier isAfter
  · rw [same]
    exact consistent before present
  · obtain ⟨agrees, small⟩ := consistent before present
    rw [put, SsdBlockStore.put_geometry]
    exact ⟨agrees.put small block, small⟩

/-- An erasure keeps the SSD tier in agreement with its file. -/
theorem SsdConsistent.eraseFromTier
    {store : TieredStore}
    (consistent : store.SsdConsistent)
    (id : BlockId)
    (tier : Tier) :
    (store.eraseFromTier id tier).2.SsdConsistent := by
  intro after isAfter
  obtain ⟨before, present, same | erased⟩ := ssd_of_eraseFromTier isAfter
  · rw [same]
    exact consistent before present
  · obtain ⟨agrees, small⟩ := consistent before present
    rw [erased, SsdBlockStore.erase_geometry]
    exact ⟨agrees.erase id, small⟩

/-- An SSD tier that agrees with its file is sound. -/
theorem SsdConsistent.ssdSound
    {store : TieredStore}
    (consistent : store.SsdConsistent) :
    store.SsdSound :=
  fun tierStore present => (consistent tierStore present).1.sound

/-- An insertion keeps the SSD tier sound. -/
theorem SsdSound.putToTier
    {store : TieredStore}
    (sound : store.SsdSound)
    (block : KvBlock)
    (tier : Tier) :
    (store.putToTier block tier).2.SsdSound := by
  intro after isAfter
  obtain ⟨before, present, same | put⟩ := ssd_of_putToTier isAfter
  · rw [same]
    exact sound before present
  · rw [put]
    exact (sound before present).put block

/-- An erasure keeps the SSD tier sound. -/
theorem SsdSound.eraseFromTier
    {store : TieredStore}
    (sound : store.SsdSound)
    (id : BlockId)
    (tier : Tier) :
    (store.eraseFromTier id tier).2.SsdSound := by
  intro after isAfter
  obtain ⟨before, present, same | erased⟩ := ssd_of_eraseFromTier isAfter
  · rw [same]
    exact sound before present
  · rw [erased]
    exact (sound before present).erase id

@[simp] theorem relocated_id
    (id : BlockId)
    (bytes : List UInt8)
    (target : Tier) :
    (relocated id bytes target).id = id :=
  rfl

@[simp] theorem relocated_data
    (id : BlockId)
    (bytes : List UInt8)
    (target : Tier) :
    (relocated id bytes target).data = bytes :=
  rfl

/-- What an accepted insertion into an in-memory tier leaves under an identity. -/
theorem get_put_or_kept
    {tierStore : BlockStore}
    {block : KvBlock}
    (accepted : (tierStore.put block).1 = true)
    (id : BlockId) :
    (tierStore.put block).2.get id =
      if id = block.id then
        some ((tierStore.get block.id).getD block.data)
      else
        tierStore.get id := by
  cases held : tierStore.get block.id with
  | none =>
      rw [BlockStore.get_put_of_accepted accepted held]
      rfl
  | some data =>
      rw [BlockStore.put_of_present held]
      by_cases same : id = block.id
      · simp [same, held]
      · simp [same]

/-- What an accepted insertion into the SSD tier leaves under an identity. -/
theorem getCopy_put_or_kept
    {tierStore : SsdBlockStore}
    (sound : tierStore.Sound)
    {block : KvBlock}
    (accepted : (tierStore.put block).1 = true)
    (id : BlockId) :
    ((tierStore.put block).2.getCopy id).map KvBlock.data =
      if id = block.id then
        some (((tierStore.getCopy block.id).map KvBlock.data).getD
          (SsdBlockStore.namedBytes block.data))
      else
        (tierStore.getCopy id).map KvBlock.data := by
  rw [sound.getCopy_put accepted]
  by_cases same : id = block.id
  · cases held : tierStore.getCopy block.id with
    | none =>
        simp [same]
    | some copied =>
        simp [same]
  · simp [same]

/-- An insertion leaves the copies of the other tiers alone. -/
theorem copy_putToTier_of_ne
    (store : TieredStore)
    (block : KvBlock)
    {tier query : Tier}
    (different : query ≠ tier)
    (id : BlockId) :
    (store.putToTier block tier).2.copy query id = store.copy query id := by
  cases query with
  | hbm =>
      simp only [copy, hbm_putToTier _ _ different.symm]
  | dram =>
      simp only [copy, dram_putToTier _ _ different.symm]
  | ssd =>
      simp only [copy, ssd_putToTier _ _ different.symm]

/--
An accepted insertion makes the tier hold the identity, with the bytes it held
already or else the new ones as the tier keeps them, and leaves every other
copy alone.
-/
theorem SsdSound.copy_putToTier
    {store : TieredStore}
    (sound : store.SsdSound)
    {block : KvBlock}
    {tier : Tier}
    (accepted : (store.putToTier block tier).1 = true)
    (query : Tier)
    (id : BlockId) :
    (store.putToTier block tier).2.copy query id =
      if query = tier ∧ id = block.id then
        some ((store.copy tier block.id).getD (storedBytes tier block.data))
      else
        store.copy query id := by
  by_cases own : query = tier
  · subst own
    cases query with
    | hbm =>
        cases present : store.hbm with
        | none =>
            simp [TieredStore.putToTier, present] at accepted
        | some tierStore =>
            simp only [TieredStore.putToTier, present] at accepted ⊢
            simpa [copy, present, storedBytes] using
              get_put_or_kept accepted id
    | dram =>
        simp only [TieredStore.putToTier] at accepted ⊢
        simpa [copy, storedBytes] using get_put_or_kept accepted id
    | ssd =>
        cases present : store.ssd with
        | none =>
            simp [TieredStore.putToTier, present] at accepted
        | some tierStore =>
            simp only [TieredStore.putToTier, present] at accepted ⊢
            simpa [copy, present, storedBytes] using
              getCopy_put_or_kept (sound tierStore present) accepted id
  · rw [copy_putToTier_of_ne store block own id]
    simp [own]

/-- With slots below 4 GiB a tier that takes a payload keeps all of it. -/
theorem storedBytes_of_accepted
    {store : TieredStore}
    (consistent : store.SsdConsistent)
    {block : KvBlock}
    {tier : Tier}
    (accepted : (store.putToTier block tier).1 = true) :
    storedBytes tier block.data = block.data := by
  by_cases isSsd : tier = .ssd
  · subst isSsd
    cases present : store.ssd with
    | none =>
        simp [putToTier, present] at accepted
    | some tierStore =>
        simp only [putToTier, present] at accepted
        have fits := (SsdBlockStore.put_accepted_iff.mp accepted).1
        rw [storedBytes, if_pos rfl]
        exact SsdBlockStore.namedBytes_of_lt
          (Nat.lt_of_le_of_lt fits (consistent tierStore present).2)
  · rw [storedBytes, if_neg isSsd]

/--
An accepted insertion makes the tier hold the identity, with the bytes it held
already or else the new ones, and leaves every other copy alone.
-/
theorem copy_putToTier_of_accepted
    {store : TieredStore}
    (consistent : store.SsdConsistent)
    {block : KvBlock}
    {tier : Tier}
    (accepted : (store.putToTier block tier).1 = true)
    (query : Tier)
    (id : BlockId) :
    (store.putToTier block tier).2.copy query id =
      if query = tier ∧ id = block.id then
        some ((store.copy tier block.id).getD block.data)
      else
        store.copy query id := by
  rw [consistent.ssdSound.copy_putToTier accepted,
    storedBytes_of_accepted consistent accepted]

/-- An erasure leaves the copies of the other tiers alone. -/
theorem copy_eraseFromTier_of_ne
    (store : TieredStore)
    (erased : BlockId)
    {tier query : Tier}
    (different : query ≠ tier)
    (id : BlockId) :
    (store.eraseFromTier erased tier).2.copy query id =
      store.copy query id := by
  cases query with
  | hbm =>
      simp only [copy, hbm_eraseFromTier _ _ different.symm]
  | dram =>
      simp only [copy, dram_eraseFromTier _ _ different.symm]
  | ssd =>
      simp only [copy, ssd_eraseFromTier _ _ different.symm]

/-- An erasure empties one identity of one tier. -/
theorem SsdSound.copy_eraseFromTier
    {store : TieredStore}
    (sound : store.SsdSound)
    (erased : BlockId)
    (tier query : Tier)
    (id : BlockId) :
    (store.eraseFromTier erased tier).2.copy query id =
      if query = tier ∧ id = erased then
        none
      else
        store.copy query id := by
  by_cases own : query = tier
  · subst own
    cases query with
    | hbm =>
        cases present : store.hbm with
        | none =>
            simp [TieredStore.eraseFromTier, copy, present]
        | some tierStore =>
            simpa [TieredStore.eraseFromTier, copy, present] using
              BlockStore.get_erase tierStore erased id
    | dram =>
        simpa [TieredStore.eraseFromTier, copy] using
          BlockStore.get_erase store.dram erased id
    | ssd =>
        cases present : store.ssd with
        | none =>
            simp [TieredStore.eraseFromTier, copy, present]
        | some tierStore =>
            simp only [TieredStore.eraseFromTier, copy, present,
              Option.bind_some, true_and,
              (sound tierStore present).getCopy_erase erased id]
            by_cases same : id = erased
            · simp [same]
            · simp [same]
  · rw [copy_eraseFromTier_of_ne store erased own id]
    simp [own]

/-- An erasure empties one identity of one tier that agrees with its file. -/
theorem copy_eraseFromTier
    {store : TieredStore}
    (consistent : store.SsdConsistent)
    (erased : BlockId)
    (tier query : Tier)
    (id : BlockId) :
    (store.eraseFromTier erased tier).2.copy query id =
      if query = tier ∧ id = erased then
        none
      else
        store.copy query id :=
  consistent.ssdSound.copy_eraseFromTier erased tier query id

/-! ## Moving a block between tiers -/

/-- Copy a block into one tier, then drop its copy from another. -/
def move
    (store : TieredStore)
    (block : KvBlock)
    (target source : Tier) :
    TieredStore :=
  ((store.putToTier block target).2.eraseFromTier block.id source).2

/-- A completed move, seen tier by tier. -/
theorem SsdSound.copy_move
    {store : TieredStore}
    (sound : store.SsdSound)
    {block : KvBlock}
    {target : Tier}
    (accepted : (store.putToTier block target).1 = true)
    (source query : Tier)
    (id : BlockId) :
    (store.move block target source).copy query id =
      if query = source ∧ id = block.id then
        none
      else if query = target ∧ id = block.id then
        some ((store.copy target block.id).getD
          (storedBytes target block.data))
      else
        store.copy query id := by
  rw [move, (sound.putToTier block target).copy_eraseFromTier,
    sound.copy_putToTier accepted]

/-- A completed move with slots below 4 GiB, seen tier by tier. -/
theorem copy_move
    {store : TieredStore}
    (consistent : store.SsdConsistent)
    {block : KvBlock}
    {target : Tier}
    (accepted : (store.putToTier block target).1 = true)
    (source query : Tier)
    (id : BlockId) :
    (store.move block target source).copy query id =
      if query = source ∧ id = block.id then
        none
      else if query = target ∧ id = block.id then
        some ((store.copy target block.id).getD block.data)
      else
        store.copy query id := by
  rw [consistent.ssdSound.copy_move accepted,
    storedBytes_of_accepted consistent accepted]

/-- A move keeps the SSD tier in agreement with its file. -/
theorem SsdConsistent.move
    {store : TieredStore}
    (consistent : store.SsdConsistent)
    (block : KvBlock)
    (target source : Tier) :
    (store.move block target source).SsdConsistent :=
  (consistent.putToTier block target).eraseFromTier block.id source

/-- A completed move of a held block keeps exactly the resident identities. -/
theorem resident_move
    {store : TieredStore}
    (consistent : store.SsdConsistent)
    {block : KvBlock}
    {target source : Tier}
    (accepted : (store.putToTier block target).1 = true)
    (different : target ≠ source)
    (held : store.Resident block.id)
    (id : BlockId) :
    (store.move block target source).Resident id ↔ store.Resident id := by
  by_cases same : id = block.id
  · subst same
    refine iff_of_true ⟨target, ?_⟩ held
    rw [copy_move consistent accepted]
    simp [different]
  · constructor
    · rintro ⟨tier, isHeld⟩
      rw [copy_move consistent accepted] at isHeld
      exact ⟨tier, by simpa [same] using isHeld⟩
    · rintro ⟨tier, isHeld⟩
      refine ⟨tier, ?_⟩
      rw [copy_move consistent accepted]
      simpa [same] using isHeld

/-! ## Reads -/

/-- A probe is blank, or carries the copy of the tier it names. -/
def Backed
    (store : TieredStore)
    (id : BlockId)
    (probe : Probe) : Prop :=
  probe = Probe.start ∨ store.copy probe.found id = some probe.bytes

/-- Asking one more tier keeps the probe backed. -/
theorem Backed.note
    {store : TieredStore}
    {id : BlockId}
    {probe : Probe}
    (backed : store.Backed id probe)
    (tier : Tier) :
    store.Backed id (probe.note tier (store.copy tier id)) := by
  unfold Probe.note
  split
  · cases answer : store.copy tier id with
    | none =>
        exact backed
    | some data =>
        exact Or.inr answer
  · exact backed

/-- A hit reports the bytes that the reported tier holds. -/
theorem copy_of_probe_hit
    {store : TieredStore}
    {id : BlockId}
    (hit : (store.probe id).missed = false) :
    store.copy (store.probe id).found id =
      some (store.probe id).bytes := by
  have blank : store.Backed id Probe.start := Or.inl rfl
  have backed : store.Backed id (store.probe id) :=
    ((blank.note .hbm).note .dram).note .ssd
  rcases backed with isBlank | held
  · rw [isBlank] at hit
    contradiction
  · exact held

/-- An identity with bytes in some tier is found. -/
theorem probe_hit_of_bytes
    {store : TieredStore}
    {tier : Tier}
    {id : BlockId}
    {bytes : List UInt8}
    (held : store.copy tier id = some bytes)
    (nonempty : bytes ≠ []) :
    (store.probe id).missed = false := by
  have found : (store.probe id).bytes ≠ [] := by
    unfold probe
    cases tier with
    | hbm =>
        rw [held]
        have kept := Probe.note_nonempty Probe.start .hbm nonempty
        rwa [Probe.note_of_nonempty, Probe.note_of_nonempty]
        · exact kept
        · rwa [Probe.note_of_nonempty]
          exact kept
    | dram =>
        rw [held]
        have kept :=
          Probe.note_nonempty
            (Probe.start.note .hbm (store.copy .hbm id)) .dram nonempty
        rwa [Probe.note_of_nonempty]
        exact kept
    | ssd =>
        rw [held]
        exact Probe.note_nonempty _ _ nonempty
  simp [Probe.missed, found]

/--
The outcomes of a read: a miss, a recorded hit, or a hit whose block was moved
to another tier.
-/
theorem get_cases
    (store : TieredStore)
    (id : BlockId) :
    (store.get id = (none, store) ∧ (store.probe id).missed = true) ∨
      (∃ data found,
        store.copy found id = some data ∧
          store.get id =
            (some ⟨data, found, false⟩, store.recordHit id)) ∨
      ∃ data found target,
        store.copy found id = some data ∧
          target ≠ found ∧
          ((store.recordHit id).putToTier
            (relocated id data target) target).1 = true ∧
          store.get id =
            (some ⟨data, found, true⟩,
              (store.recordHit id).move
                (relocated id data target) target found) := by
  cases missed : (store.probe id).missed with
  | true =>
      exact Or.inl ⟨by simp [get, missed], rfl⟩
  | false =>
      have held := copy_of_probe_hit missed
      refine Or.inr ?_
      by_cases promotes :
          store.promotes (store.nextCount id) (store.probe id).found = true
      · cases moved :
            ((store.recordHit id).putToTier
              (relocated id (store.probe id).bytes
                (store.promotionTarget (store.probe id).found))
              (store.promotionTarget (store.probe id).found)).1 with
        | true =>
            refine Or.inr ⟨_, _, _, held, ?_, moved, ?_⟩
            · simp only [TieredStore.promotes, Bool.decide_and,
                Bool.and_eq_true, decide_eq_true_eq] at promotes
              exact promotes.2.2.2
            · simp [get, missed, promotes, moved, move]
        | false =>
            refine Or.inl ⟨_, _, held, ?_⟩
            have unchanged := putToTier_of_rejected moved
            simp [get, missed, promotes, moved, unchanged]
      · refine Or.inl ⟨_, _, held, ?_⟩
        simp [get, missed, promotes]

/-! ## Insertions, demotions and erasures -/

/-- A list of tiers either rejects a block or one of them accepts it. -/
theorem putInFirst_cases
    (store : TieredStore)
    (block : KvBlock)
    (tiers : List Tier) :
    store.putInFirst block tiers = (none, store) ∨
      ∃ tier,
        tier ∈ tiers ∧
          (store.putToTier block tier).1 = true ∧
          store.putInFirst block tiers =
            (some tier, (store.putToTier block tier).2) := by
  induction tiers with
  | nil =>
      exact Or.inl rfl
  | cons tier slower inductionHypothesis =>
      cases accepted : (store.putToTier block tier).1 with
      | true =>
          refine Or.inr ⟨tier, by simp, accepted, ?_⟩
          simp [putInFirst, accepted]
      | false =>
          have unchanged := putToTier_of_rejected accepted
          simp only [putInFirst, accepted, unchanged, Bool.false_eq_true,
            ↓reduceIte]
          rcases inductionHypothesis with rejected |
            ⟨later, member, taken, result⟩
          · exact Or.inl rejected
          · exact Or.inr ⟨later, by simp [member], taken, result⟩

/-- An insertion is rejected without a change or accepted by one tier. -/
theorem put_cases
    (store : TieredStore)
    (block : KvBlock)
    (hint : Tier) :
    store.put block hint = (none, store) ∨
      ∃ tier,
        (store.putToTier block tier).1 = true ∧
          store.put block hint =
            (some tier, (store.putToTier block tier).2) := by
  rcases store.putInFirst_cases block (fallthrough hint) with
    rejected | ⟨tier, _, accepted, result⟩
  · exact Or.inl rejected
  · exact Or.inr ⟨tier, accepted, result⟩

/-- A hinted tier that has room takes the block. -/
theorem put_of_hint
    {store : TieredStore}
    {block : KvBlock}
    {hint : Tier}
    (accepted : (store.putToTier block hint).1 = true) :
    store.put block hint = (some hint, (store.putToTier block hint).2) := by
  cases hint <;> simp [put, fallthrough, putInFirst, accepted]

/-- Insertions keep the file consistent. -/
theorem SsdConsistent.put
    {store : TieredStore}
    (consistent : store.SsdConsistent)
    (block : KvBlock)
    (hint : Tier) :
    (store.put block hint).2.SsdConsistent := by
  rcases store.put_cases block hint with unplaced | ⟨tier, _, placed⟩
  · rwa [unplaced]
  · rw [placed]
    exact consistent.putToTier block tier

/-- Insertions keep the SSD tier sound. -/
theorem SsdSound.put
    {store : TieredStore}
    (sound : store.SsdSound)
    (block : KvBlock)
    (hint : Tier) :
    (store.put block hint).2.SsdSound := by
  rcases store.put_cases block hint with unplaced | ⟨tier, _, placed⟩
  · rwa [unplaced]
  · rw [placed]
    exact sound.putToTier block tier

/-- Room for a block in one tier. -/
def TierHasRoom
    (store : TieredStore)
    (block : KvBlock) : Tier → Prop
  | .hbm => ∃ tierStore ∈ store.hbm, tierStore.HasRoom block
  | .dram => store.dram.HasRoom block
  | .ssd => ∃ tierStore ∈ store.ssd, tierStore.HasRoom block

/-- Room for a block in one of the tiers that its hint names. -/
def HasRoom
    (store : TieredStore)
    (block : KvBlock)
    (hint : Tier) : Prop :=
  ∃ tier ∈ fallthrough hint, store.TierHasRoom block tier

/-- A tier accepts a block exactly if it has room. -/
theorem putToTier_accepted_iff
    {store : TieredStore}
    {block : KvBlock}
    {tier : Tier} :
    (store.putToTier block tier).1 = true ↔
      store.TierHasRoom block tier := by
  cases tier with
  | hbm =>
      cases present : store.hbm with
      | none =>
          simp [putToTier, TierHasRoom, present]
      | some tierStore =>
          simp [putToTier, TierHasRoom, present,
            BlockStore.put_accepted_iff]
  | dram =>
      exact BlockStore.put_accepted_iff
  | ssd =>
      cases present : store.ssd with
      | none =>
          simp [putToTier, TierHasRoom, present]
      | some tierStore =>
          simp [putToTier, TierHasRoom, present,
            SsdBlockStore.put_accepted_iff]

instance
    (store : TieredStore)
    (block : KvBlock)
    (hint : Tier) :
    Decidable (store.HasRoom block hint) :=
  decidable_of_iff
    (∃ tier ∈ fallthrough hint, (store.putToTier block tier).1 = true)
    (by simp only [HasRoom, putToTier_accepted_iff])

/-- An insertion into a store with room for the block lands in some tier. -/
theorem put_of_hasRoom
    {store : TieredStore}
    {block : KvBlock}
    {hint : Tier}
    (room : store.HasRoom block hint) :
    (store.put block hint).1.isSome = true := by
  obtain ⟨tier, listed, roomThere⟩ := room
  rw [← putToTier_accepted_iff] at roomThere
  unfold put
  generalize fallthrough hint = tiers at listed
  induction tiers with
  | nil =>
      simp at listed
  | cons first slower inductionHypothesis =>
      cases accepted : (store.putToTier block first).1 with
      | true =>
          simp [putInFirst, accepted]
      | false =>
          have unchanged := putToTier_of_rejected accepted
          have later : tier ∈ slower := by
            rcases List.mem_cons.mp listed with isFirst | later
            · rw [isFirst, accepted] at roomThere
              contradiction
            · exact later
          simpa [putInFirst, accepted, unchanged] using
            inductionHypothesis later

instance
    (store : TieredStore)
    (block : KvBlock)
    (tier : Tier) :
    Decidable (store.TierHasRoom block tier) :=
  decidable_of_iff _ putToTier_accepted_iff

/-- The first tier from the hinted one on that has room for a block. -/
def takingTier
    (store : TieredStore)
    (block : KvBlock)
    (hint : Tier) :
    Option Tier :=
  (fallthrough hint).find? fun tier => decide (store.TierHasRoom block tier)

/-- An insertion goes to the first tier that has room, or nowhere. -/
theorem put_eq_takingTier
    (store : TieredStore)
    (block : KvBlock)
    (hint : Tier) :
    store.put block hint =
      match store.takingTier block hint with
      | none => (none, store)
      | some tier => (some tier, (store.putToTier block tier).2) := by
  unfold put takingTier
  generalize fallthrough hint = tiers
  induction tiers with
  | nil =>
      rfl
  | cons first slower inductionHypothesis =>
      cases accepted : (store.putToTier block first).1 with
      | true =>
          have room := putToTier_accepted_iff.mp accepted
          simp [putInFirst, accepted, room]
      | false =>
          have unchanged := putToTier_of_rejected accepted
          have full : ¬ store.TierHasRoom block first := by
            rw [← putToTier_accepted_iff, accepted]
            simp
          simp [putInFirst, accepted, unchanged, full, inductionHypothesis]

/-- The taking tier has room. -/
theorem accepted_of_takingTier
    {store : TieredStore}
    {block : KvBlock}
    {hint tier : Tier}
    (takes : store.takingTier block hint = some tier) :
    (store.putToTier block tier).1 = true := by
  have found := List.find?_some takes
  exact putToTier_accepted_iff.mpr (of_decide_eq_true found)

/-- A demotion is a move to the first slower tier that takes the block. -/
theorem demote_eq_move
    (store : TieredStore)
    (id : BlockId) :
    store.demote id =
      match store.copy .hbm id with
      | some data =>
          if (store.putToTier (relocated id data .dram) .dram).1 then
            (true, store.move (relocated id data .dram) .dram .hbm)
          else if (store.putToTier (relocated id data .ssd) .ssd).1 then
            (true, store.move (relocated id data .ssd) .ssd .hbm)
          else
            (false, store)
      | none =>
          match store.copy .dram id with
          | some data =>
              if (store.putToTier (relocated id data .ssd) .ssd).1 then
                (true, store.move (relocated id data .ssd) .ssd .dram)
              else
                (false, store)
          | none => (false, store) := by
  unfold demote
  cases inHbm : store.copy .hbm id with
  | some data =>
      cases toDram :
          (store.putToTier (relocated id data .dram) .dram).1 with
      | true =>
          simp [toDram, move]
      | false =>
          have unchanged := putToTier_of_rejected toDram
          cases toSsd :
              (store.putToTier (relocated id data .ssd) .ssd).1 with
          | true =>
              simp [toDram, unchanged, toSsd, move]
          | false =>
              simp [toDram, unchanged, toSsd, putToTier_of_rejected toSsd]
  | none =>
      cases inDram : store.copy .dram id with
      | some data =>
          cases toSsd :
              (store.putToTier (relocated id data .ssd) .ssd).1 with
          | true =>
              simp [toSsd, move]
          | false =>
              simp [toSsd, putToTier_of_rejected toSsd]
      | none =>
          rfl

/-- A demotion changes nothing or moves the block one or two tiers down. -/
theorem demote_cases
    (store : TieredStore)
    (id : BlockId) :
    store.demote id = (false, store) ∨
      ∃ data source target,
        store.copy source id = some data ∧
          target ≠ source ∧
          (store.putToTier (relocated id data target) target).1 = true ∧
          store.demote id =
            (true, store.move (relocated id data target) target source) := by
  rw [demote_eq_move]
  cases inHbm : store.copy .hbm id with
  | some data =>
      by_cases toDram :
          (store.putToTier (relocated id data .dram) .dram).1 = true
      · exact
          Or.inr ⟨data, .hbm, .dram, inHbm, by simp, toDram, if_pos toDram⟩
      · by_cases toSsd :
            (store.putToTier (relocated id data .ssd) .ssd).1 = true
        · refine Or.inr ⟨data, .hbm, .ssd, inHbm, by simp, toSsd, ?_⟩
          simp [toDram, toSsd]
        · refine Or.inl ?_
          simp [toDram, toSsd]
  | none =>
      cases inDram : store.copy .dram id with
      | some data =>
          by_cases toSsd :
              (store.putToTier (relocated id data .ssd) .ssd).1 = true
          · exact
              Or.inr
                ⟨data, .dram, .ssd, inDram, by simp, toSsd, if_pos toSsd⟩
          · exact Or.inl (if_neg toSsd)
      | none =>
          exact Or.inl rfl

/-- An erasure empties one identity in every tier. -/
theorem copy_erase
    {store : TieredStore}
    (consistent : store.SsdConsistent)
    (erased : BlockId)
    (query : Tier)
    (id : BlockId) :
    (store.erase erased).2.copy query id =
      if id = erased then none else store.copy query id := by
  have afterHbm := consistent.eraseFromTier erased .hbm
  have afterDram := afterHbm.eraseFromTier erased .dram
  simp only [erase, forget_copy, copy_eraseFromTier afterDram,
    copy_eraseFromTier afterHbm, copy_eraseFromTier consistent]
  by_cases same : id = erased
  · cases query with
    | hbm =>
        simp [same]
    | dram =>
        simp [same]
    | ssd =>
        simp [same]
  · simp [same]

/-- A demotion keeps exactly the resident identities. -/
theorem resident_demote
    {store : TieredStore}
    (consistent : store.SsdConsistent)
    (demoted id : BlockId) :
    (store.demote demoted).2.Resident id ↔ store.Resident id := by
  rcases store.demote_cases demoted with
    unchanged | ⟨data, source, target, held, different, accepted, moved⟩
  · rw [unchanged]
  · rw [moved]
    exact
      resident_move consistent accepted different
        ⟨source, by simp [relocated, held]⟩ id

/-- An erasure drops one resident identity and keeps the others. -/
theorem resident_erase
    {store : TieredStore}
    (consistent : store.SsdConsistent)
    (erased id : BlockId) :
    (store.erase erased).2.Resident id ↔
      store.Resident id ∧ id ≠ erased := by
  simp only [Resident, copy_erase consistent]
  by_cases same : id = erased
  · simp [same]
  · simp [same]

/-! ## What every operation preserves -/

/-- A predicate on stores that survives whatever the operations are made of. -/
structure Stable
    (holds : TieredStore → Prop) : Prop where
  recordHit :
    ∀ {store}, holds store → ∀ id, holds (store.recordHit id)
  clearVisited :
    ∀ {store}, holds store → ∀ id, holds (store.clearVisited id)
  forget :
    ∀ {store}, holds store → ∀ id, holds (store.forget id)
  eraseFromTier :
    ∀ {store}, holds store →
      ∀ id tier, holds (store.eraseFromTier id tier).2
  relocate :
    ∀ {store}, holds store →
      ∀ {id data source}, store.copy source id = some data →
        ∀ target,
          holds (store.putToTier (relocated id data target) target).2

namespace Stable

variable {holds : TieredStore → Prop}

/-- Completed moves of held blocks. -/
theorem move
    (stable : Stable holds)
    {store : TieredStore}
    (before : holds store)
    {id : BlockId}
    {data : List UInt8}
    {source : Tier}
    (held : store.copy source id = some data)
    (target erased : Tier) :
    holds (store.move (relocated id data target) target erased) :=
  stable.eraseFromTier (stable.relocate before held target) _ _

/-- Reads. -/
theorem get
    (stable : Stable holds)
    {store : TieredStore}
    (before : holds store)
    (id : BlockId) :
    holds (store.get id).2 := by
  rcases store.get_cases id with
    ⟨missed, _⟩ | ⟨data, found, held, hit⟩ |
      ⟨data, found, target, held, _, _, hit⟩
  · rwa [missed]
  · rw [hit]
    exact stable.recordHit before id
  · rw [hit]
    exact stable.move (stable.recordHit before id) held target found

/-- Demotions. -/
theorem demote
    (stable : Stable holds)
    {store : TieredStore}
    (before : holds store)
    (id : BlockId) :
    holds (store.demote id).2 := by
  rcases store.demote_cases id with
    unchanged | ⟨data, source, target, held, _, _, moved⟩
  · rwa [unchanged]
  · rw [moved]
    exact stable.move before held target source

/-- Erasures. -/
theorem erase
    (stable : Stable holds)
    {store : TieredStore}
    (before : holds store)
    (id : BlockId) :
    holds (store.erase id).2 :=
  stable.forget
    (stable.eraseFromTier
      (stable.eraseFromTier
        (stable.eraseFromTier before id .hbm) id .dram) id .ssd) id

end Stable

/-- Agreement of the SSD tier with its file is kept by every operation. -/
theorem ssdConsistent_stable : Stable SsdConsistent where
  recordHit := fun consistent _ => consistent
  clearVisited := fun consistent _ => consistent
  forget := fun consistent _ => consistent
  eraseFromTier := fun consistent => consistent.eraseFromTier
  relocate := fun consistent _ _ _ _ target =>
    consistent.putToTier _ target

/-- A store opened on any file has a sound SSD tier. -/
theorem create_ssdSound
    (config : TieredStoreConfig)
    (memory : ByteMemory.Memory) :
    (create config memory).SsdSound := by
  intro tierStore opened
  obtain ⟨geometry, _, isStore⟩ := Option.map_eq_some_iff.mp opened
  rw [← isStore]
  exact SsdBlockStore.rebuildIndexFromMmap_sound geometry memory

/-- Soundness of the SSD tier depends on nothing else. -/
theorem ssdSound_stable : Stable SsdSound where
  recordHit := fun sound _ => sound
  clearVisited := fun sound _ => sound
  forget := fun sound _ => sound
  eraseFromTier := fun sound => sound.eraseFromTier
  relocate := fun sound _ _ _ _ target => sound.putToTier _ target

/-- A property of identities and bytes that holds of every stored copy. -/
structure Copies
    (holds : BlockId → List UInt8 → Prop)
    (store : TieredStore) : Prop where
  consistent : store.SsdConsistent
  every :
    ∀ {tier id data},
      store.copy tier id = some data →
      holds id data

/-- A fresh store holds exactly the blocks of its file. -/
theorem create_copies
    {holds : BlockId → List UInt8 → Prop}
    {config : TieredStoreConfig}
    {memory : ByteMemory.Memory}
    (file :
      ∀ geometry,
        config.ssd = some geometry →
        geometry.SmallSlots ∧
          SlotFile.WellFormed geometry memory ∧
          ∀ block,
            SlotFile.Holds geometry memory block →
            holds block.id block.data) :
    (create config memory).Copies holds := by
  have consistent : (create config memory).SsdConsistent := by
    intro tierStore present
    obtain ⟨geometry, configured, isStore⟩ :=
      Option.map_eq_some_iff.mp present
    subst isStore
    obtain ⟨small, wellFormed, _⟩ := file geometry configured
    exact
      ⟨SsdBlockStore.rebuildIndexFromMmap_consistent wellFormed, small⟩
  refine ⟨consistent, ?_⟩
  intro tier id data copied
  cases tier with
  | hbm =>
      simp only [copy, create] at copied
      split at copied
      · simp at copied
      · simp at copied
  | dram =>
      simp [copy, create] at copied
  | ssd =>
      simp only [copy, create, Option.bind_eq_some_iff,
        Option.map_eq_some_iff] at copied
      obtain ⟨tierStore, ⟨geometry, configured, isStore⟩, block,
        blockCopied, isData⟩ := copied
      obtain ⟨_, wellFormed, stored⟩ := file geometry configured
      rw [← isStore] at blockCopied
      obtain ⟨inFile, isId⟩ :=
        (SsdBlockStore.rebuildIndexFromMmap_consistent
          wellFormed).getCopy_eq_some_iff.mp blockCopied
      subst isId isData
      exact stored block inFile

/-- A fresh store on an all-zero file holds nothing. -/
theorem create_zero_copies
    (config : TieredStoreConfig)
    (small :
      ∀ geometry, config.ssd = some geometry → geometry.SmallSlots)
    (holds : BlockId → List UInt8 → Prop) :
    (create config fun _ => 0).Copies holds := by
  apply create_copies
  intro geometry configured
  refine ⟨small geometry configured, SlotFile.wellFormed_zero, ?_⟩
  intro block inFile
  exact (SlotFile.not_holds_zero block inFile).elim

/-- Inserting a block with the property keeps it true of every copy. -/
theorem Copies.putToTier
    {holds : BlockId → List UInt8 → Prop}
    {store : TieredStore}
    (copies : store.Copies holds)
    {block : KvBlock}
    (good : holds block.id block.data)
    (tier : Tier) :
    (store.putToTier block tier).2.Copies holds := by
  refine ⟨copies.consistent.putToTier block tier, ?_⟩
  intro query id data copied
  cases accepted : (store.putToTier block tier).1 with
  | false =>
      rw [putToTier_of_rejected accepted] at copied
      exact copies.every copied
  | true =>
      rw [copy_putToTier_of_accepted copies.consistent accepted] at copied
      split at copied
      · next isBlock =>
          rw [isBlock.2]
          cases held : store.copy tier block.id with
          | none =>
              simp only [held, Option.getD_none, Option.some.injEq] at copied
              rwa [← copied]
          | some older =>
              simp only [held, Option.getD_some, Option.some.injEq] at copied
              rw [← copied]
              exact copies.every held
      · exact copies.every copied

/-- A property of all copies is kept by every operation on stored blocks. -/
theorem copies_stable
    (holds : BlockId → List UInt8 → Prop) :
    Stable (Copies holds) where
  recordHit := fun copies _ => ⟨copies.consistent, copies.every⟩
  clearVisited := fun copies _ => ⟨copies.consistent, copies.every⟩
  forget := fun copies _ => ⟨copies.consistent, copies.every⟩
  eraseFromTier := by
    intro store copies erased tier
    refine ⟨copies.consistent.eraseFromTier erased tier, ?_⟩
    intro query id data copied
    rw [copy_eraseFromTier copies.consistent] at copied
    split at copied
    · simp at copied
    · exact copies.every copied
  relocate := by
    intro store copies id data source held target
    exact copies.putToTier (copies.every held) target

/-- Insertions of blocks with a property keep it true of every copy. -/
theorem Copies.put
    {holds : BlockId → List UInt8 → Prop}
    {store : TieredStore}
    (copies : store.Copies holds)
    {block : KvBlock}
    (good : holds block.id block.data)
    (hint : Tier) :
    (store.put block hint).2.Copies holds := by
  rcases store.put_cases block hint with rejected | ⟨tier, _, result⟩
  · rwa [rejected]
  · rw [result]
    exact copies.putToTier good tier

/-- An insertion makes its block resident if a tier takes it. -/
theorem resident_put
    {store : TieredStore}
    (sound : store.SsdSound)
    (block : KvBlock)
    (hint : Tier)
    (id : BlockId) :
    (store.put block hint).2.Resident id ↔
      store.Resident id ∨
        id = block.id ∧ (store.put block hint).1.isSome = true := by
  rcases store.put_cases block hint with rejected | ⟨tier, accepted, result⟩
  · simp [rejected]
  · rw [result]
    have copied := sound.copy_putToTier accepted
    simp only [Resident, copied, Option.isSome_some, and_true]
    constructor
    · rintro ⟨query, found⟩
      split at found
      · next new =>
          exact Or.inr new.2
      · exact Or.inl ⟨query, found⟩
    · rintro (⟨query, found⟩ | new)
      · refine ⟨query, ?_⟩
        split
        · rfl
        · exact found
      · exact ⟨tier, by simp [new]⟩

/-- A read finds every identity that has bytes in some tier. -/
theorem get_of_bytes
    {store : TieredStore}
    {tier : Tier}
    {id : BlockId}
    {bytes : List UInt8}
    (held : store.copy tier id = some bytes)
    (nonempty : bytes ≠ []) :
    ∃ got, (store.get id).1 = some got := by
  have hit := probe_hit_of_bytes held nonempty
  unfold get
  simp only [hit, Bool.false_eq_true, ↓reduceIte]
  split
  · split
    · exact ⟨_, rfl⟩
    · exact ⟨_, rfl⟩
  · exact ⟨_, rfl⟩

/-- A read returns bytes that some tier held. -/
theorem copy_of_get
    {store : TieredStore}
    {id : BlockId}
    {got : GetResult}
    (read : (store.get id).1 = some got) :
    store.copy got.tierFound id = some got.data := by
  rcases store.get_cases id with
    ⟨missed, _⟩ | ⟨data, found, held, hit⟩ |
      ⟨data, found, target, held, _, _, hit⟩
  · rw [missed] at read
    simp at read
  · rw [hit, Option.some.injEq] at read
    rw [← read]
    exact held
  · rw [hit, Option.some.injEq] at read
    rw [← read]
    exact held

/-- A read misses exactly when no tier answered it. -/
theorem get_eq_none_iff
    (store : TieredStore)
    (id : BlockId) :
    (store.get id).1 = none ↔ (store.probe id).missed = true := by
  rcases store.get_cases id with
    ⟨missed, isMiss⟩ | ⟨data, found, held, hit⟩ |
      ⟨data, found, target, held, _, _, hit⟩
  · simp [missed, isMiss]
  · cases missed : (store.probe id).missed with
    | true =>
        simp [get, missed]
    | false =>
        simp [hit]
  · cases missed : (store.probe id).missed with
    | true =>
        simp [get, missed]
    | false =>
        simp [hit]

/-- A read leaves the copies of all other identities alone. -/
theorem copy_get_of_ne
    {store : TieredStore}
    (consistent : store.SsdConsistent)
    {read id : BlockId}
    (different : id ≠ read)
    (tier : Tier) :
    (store.get read).2.copy tier id = store.copy tier id := by
  rcases store.get_cases read with
    ⟨missed, _⟩ | ⟨data, found, held, hit⟩ |
      ⟨data, found, target, held, _, accepted, hit⟩
  · rw [missed]
  · rw [hit]
    rfl
  · rw [hit,
      copy_move (ssdConsistent_stable.recordHit consistent read) accepted]
    simp [relocated, different]

/-- Reads keep exactly the resident identities. -/
theorem resident_get
    {store : TieredStore}
    (consistent : store.SsdConsistent)
    (read id : BlockId) :
    (store.get read).2.Resident id ↔ store.Resident id := by
  rcases store.get_cases read with
    ⟨missed, _⟩ | ⟨data, found, held, hit⟩ |
      ⟨data, found, target, held, different, accepted, hit⟩
  · rw [missed]
  · rw [hit]
    rfl
  · rw [hit]
    have present : (store.recordHit read).Resident read :=
      ⟨found, by simp [held]⟩
    exact
      resident_move (ssdConsistent_stable.recordHit consistent read)
        accepted different present id

/-! ## Snapshots -/

/-- Painting the visited bits does not change which blocks are listed. -/
theorem snapshot_ids
    (store : TieredStore)
    (tier : Tier) :
    (store.snapshot tier).map BlockMeta.id =
      match tier with
      | .hbm =>
          (store.hbm.map fun tierStore => tierStore.blocks.keys).getD []
      | .dram => store.dram.blocks.keys
      | .ssd =>
          (store.ssd.map fun tierStore => tierStore.index.keys).getD [] := by
  cases tier with
  | hbm =>
      cases present : store.hbm with
      | none =>
          simp [snapshot, present]
      | some tierStore =>
          simpa [snapshot, present, Function.comp_def] using
            tierStore.snapshot_ids
  | dram =>
      simpa [snapshot, Function.comp_def] using store.dram.snapshot_ids
  | ssd =>
      cases present : store.ssd with
      | none =>
          simp [snapshot, present]
      | some tierStore =>
          simp [snapshot, present, SsdBlockStore.snapshot, AList.keys,
            List.keys, Function.comp_def]

/-- A snapshot lists every block once. -/
theorem snapshot_ids_nodup
    (store : TieredStore)
    (tier : Tier) :
    ((store.snapshot tier).map BlockMeta.id).Nodup := by
  rw [snapshot_ids]
  cases tier with
  | hbm =>
      cases store.hbm with
      | none =>
          simp
      | some tierStore =>
          exact tierStore.blocks.keys_nodup
  | dram =>
      exact store.dram.blocks.keys_nodup
  | ssd =>
      cases store.ssd with
      | none =>
          simp
      | some tierStore =>
          exact tierStore.index.keys_nodup

/-- A snapshot lists exactly the blocks of its tier. -/
theorem mem_snapshot_ids
    {store : TieredStore}
    (consistent : store.SsdConsistent)
    {tier : Tier}
    {id : BlockId} :
    id ∈ (store.snapshot tier).map BlockMeta.id ↔
      (store.copy tier id).isSome = true := by
  rw [snapshot_ids]
  cases tier with
  | hbm =>
      cases present : store.hbm with
      | none =>
          simp [copy, present]
      | some tierStore =>
          simp only [copy, present, Option.map_some, Option.getD_some,
            Option.bind_some]
          rw [BlockStore.get_isSome, AList.mem_keys]
  | dram =>
      simp only [copy]
      rw [BlockStore.get_isSome, AList.mem_keys]
  | ssd =>
      cases present : store.ssd with
      | none =>
          simp [copy, present]
      | some tierStore =>
          obtain ⟨agrees, _⟩ := consistent tierStore present
          simp only [copy, present, Option.map_some, Option.getD_some,
            Option.bind_some, Option.isSome_map]
          rw [← AList.mem_keys, ← not_iff_not,
            ← agrees.getCopy_eq_none_iff]
          simp

/-- Entries of the HBM snapshot carry the size of the stored payload. -/
theorem copy_of_mem_snapshot_hbm
    {store : TieredStore}
    {entry : BlockMeta}
    (member : entry ∈ store.snapshot .hbm) :
    ∃ data,
      store.copy .hbm entry.id = some data ∧
        entry.sizeBytes = data.length := by
  cases present : store.hbm with
  | none =>
      simp [snapshot, present] at member
  | some tierStore =>
      simp only [snapshot, present, Option.map_some, Option.getD_some,
        List.mem_map] at member
      obtain ⟨plain, plainMember, isEntry⟩ := member
      subst isEntry
      simpa [copy, present] using
        BlockStore.get_of_mem_snapshot plainMember

end TieredStore

end Lethe
