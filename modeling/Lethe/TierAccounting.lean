import Lethe.TieredStore

namespace Lethe

/-!
# Byte counters of the tiers

Every tier counts the bytes of its blocks.  As long as no sum wraps, the
counters are exact and stay within the capacities, a block that a tier takes
raises the tier's counter by its size, and no other counter moves.  An erasure
returns what leaves the counters, and the listings add up to them.
-/

namespace BlockStore

/-- An empty store counts nothing. -/
theorem Accounted.empty
    (tier : Tier)
    {capacityBytes : Nat}
    (fits : capacityBytes < sizeRange) :
    (BlockStore.empty tier capacityBytes).Accounted where
  usedBytes_eq := rfl
  usedBytes_le := Nat.zero_le _
  capacityBytes_lt := fits

/-- A stored block is no larger than the capacity. -/
theorem Accounted.length_le
    {store : BlockStore}
    (accounted : store.Accounted)
    {id : BlockId}
    {data : List UInt8}
    (present : store.get id = some data) :
    data.length ≤ store.capacityBytes := by
  have removed := accounted.usedBytes_erase present
  have bounded := accounted.usedBytes_le
  omega

/-- An accepted new block raises the counter by its size. -/
theorem usedBytes_put_of_new
    {store : BlockStore}
    {block : KvBlock}
    (accepted : (store.put block).1 = true)
    (absent : store.get block.id = none) :
    (store.put block).2.usedBytes =
      addSize store.usedBytes block.data.length := by
  have notMember : block.id ∉ store.blocks := by
    rw [← get_isSome, absent]
    simp
  unfold put at accepted ⊢
  rw [if_neg notMember] at accepted ⊢
  split at accepted
  · simp at accepted
  · next fits =>
      rw [if_neg fits]

/-- Erasing returns the size of the block. -/
theorem erase_fst
    (store : BlockStore)
    (id : BlockId) :
    (store.erase id).1 = ((store.get id).map List.length).getD 0 := by
  cases present : store.get id with
  | none =>
      rw [erase_of_absent present]
      simp
  | some data =>
      obtain ⟨block, found, isData⟩ := Option.map_eq_some_iff.mp present
      subst isData
      simp [BlockStore.erase, found]

/-- Erasing takes the size of the block from the counter. -/
theorem Accounted.usedBytes_erase_add
    {store : BlockStore}
    (accounted : store.Accounted)
    (id : BlockId) :
    (store.erase id).2.usedBytes +
        ((store.get id).map List.length).getD 0 =
      store.usedBytes := by
  cases present : store.get id with
  | none =>
      rw [erase_of_absent present]
      simp
  | some data =>
      exact accounted.usedBytes_erase present

/-- The counter is the sum of the listed sizes. -/
theorem Accounted.usedBytes_eq_snapshot
    {store : BlockStore}
    (accounted : store.Accounted) :
    store.usedBytes = (store.snapshot.map BlockMeta.sizeBytes).sum := by
  rw [accounted.usedBytes_eq]
  simp [payloadTotal, AList.total, snapshot, metaOf, Function.comp_def]

end BlockStore

namespace SsdBlockStore

/-- The counter of a consistent store stays within the file. -/
theorem Consistent.usedBytes_le
    {store : SsdBlockStore}
    (consistent : store.Consistent) :
    store.usedBytes ≤ store.geometry.usableBytes := by
  rw [consistent.used_eq]
  unfold SlotFile.liveBytes SsdGeometry.usableBytes
  refine
    (Finset.sum_le_card_nsmul _ _ store.geometry.slotPayloadBytes
      ?_).trans_eq ?_
  · intro slot inRange
    unfold SlotFile.slotBytesUsed
    split
    · next live =>
        exact
          consistent.file.size_le (Finset.mem_range.mp inRange) live
    · exact Nat.zero_le _
  · simp

/-- An accepted new block raises the counter by its size. -/
theorem Sound.usedBytes_put_of_new
    {store : SsdBlockStore}
    (sound : store.Sound)
    {block : KvBlock}
    (accepted : (store.put block).1 = true)
    (missed : store.getCopy block.id = none) :
    (store.put block).2.usedBytes =
      addSize store.usedBytes block.data.length := by
  have absent := sound.getCopy_eq_none_iff.mp missed
  rcases sound.put_cases block with
    ⟨rejected, _⟩ | ⟨_, _, present⟩ | ⟨slot, rest, _, _, _, written⟩
  · rw [rejected] at accepted
    simp at accepted
  · exact (absent present).elim
  · rw [written]

variable {store : SsdBlockStore}

/-- A live slot is part of what the counter counts. -/
theorem Consistent.payloadSize_le_usedBytes
    (consistent : store.Consistent)
    {slot : Nat}
    (bound : slot < store.geometry.totalSlots)
    (live : SlotFile.Live store.geometry store.memory slot) :
    (SlotFile.header store.geometry store.memory slot).payloadSize ≤
      store.usedBytes := by
  rw [consistent.used_eq, ← slotBytesUsed_of_live live]
  exact
    Finset.single_le_sum (fun _ _ => Nat.zero_le _)
      (Finset.mem_range.mpr bound)

/-- A stored block fits a slot. -/
theorem Consistent.length_le
    (consistent : store.Consistent)
    {id : BlockId}
    {copied : KvBlock}
    (present : store.getCopy id = some copied) :
    copied.data.length ≤ store.geometry.slotPayloadBytes := by
  obtain ⟨⟨slot, bound, live, isBlock⟩, _⟩ :=
    consistent.getCopy_eq_some_iff.mp present
  rw [← isBlock, SlotFile.blockAt_length]
  exact consistent.file.size_le bound live

/-- The file fits the counter. -/
theorem usableBytes_lt
    (geometry : SsdGeometry) :
    geometry.usableBytes < sizeRange := by
  refine Nat.lt_of_le_of_lt ?_ geometry.file_fits
  exact Nat.mul_le_mul_left _ (Nat.sub_le _ _)

/-- Erasing returns the bytes that leave the counter. -/
theorem Consistent.erase_freed
    (consistent : store.Consistent)
    (id : BlockId) :
    (store.erase id).1 =
        ((store.getCopy id).map fun copied => copied.data.length).getD 0 ∧
      (store.erase id).2.usedBytes +
          ((store.getCopy id).map fun copied => copied.data.length).getD 0 =
        store.usedBytes := by
  cases present : store.getCopy id with
  | none =>
      rw [consistent.erase_of_absent present]
      simp
  | some copied =>
      obtain ⟨slot, bound, live, _, found, erased⟩ :=
        consistent.erase_of_present present
      have size :
          (SlotFile.header store.geometry store.memory slot).payloadSize =
            copied.data.length := by
        have freed := congrArg Prod.fst erased
        simp only [SsdBlockStore.erase, found] at freed
        exact freed
      have counted := consistent.payloadSize_le_usedBytes bound live
      have bounded := consistent.usedBytes_le
      have noWrap := usableBytes_lt store.geometry
      rw [erased]
      simp only [Option.map_some, Option.getD_some, true_and]
      rw [subSize_of_le (by omega) (by omega)]
      omega

/-- The indexed slots are the live ones, each once. -/
theorem Consistent.index_slots
    (consistent : store.Consistent) :
    (store.index.entries.map Sigma.snd).Nodup ∧
      ∀ slot,
        slot ∈ store.index.entries.map Sigma.snd ↔
          slot < store.geometry.totalSlots ∧
            SlotFile.Live store.geometry store.memory slot := by
  have found {entry : Σ _ : BlockId, Nat} :
      entry ∈ store.index.entries ↔
        store.index.lookup entry.1 = some entry.2 :=
    (List.mem_dlookup_iff store.index.nodupKeys).symm
  constructor
  · refine List.Nodup.map_on ?_ store.index.nodupKeys.nodup
    rintro ⟨first, slot⟩ inFirst ⟨second, other⟩ inSecond same
    simp only at same
    subst same
    have firstId := (consistent.index_iff.mp (found.mp inFirst)).2.2
    have secondId := (consistent.index_iff.mp (found.mp inSecond)).2.2
    simp only at firstId secondId
    rw [← firstId, ← secondId]
  · intro slot
    constructor
    · intro member
      obtain ⟨entry, inEntries, isSlot⟩ := List.mem_map.mp member
      obtain ⟨bound, live, _⟩ := consistent.index_iff.mp (found.mp inEntries)
      subst isSlot
      exact ⟨bound, live⟩
    · rintro ⟨bound, live⟩
      have inIndex :
          store.index.lookup
              (SlotFile.header store.geometry store.memory slot).id =
            some slot :=
        consistent.index_iff.mpr ⟨bound, live, rfl⟩
      exact List.mem_map.mpr ⟨⟨_, slot⟩, found.mpr inIndex, rfl⟩

/-- The counter is the sum of the listed sizes. -/
theorem Consistent.usedBytes_eq_snapshot
    (consistent : store.Consistent) :
    store.usedBytes = (store.snapshot.map BlockMeta.sizeBytes).sum := by
  obtain ⟨noDuplicates, indexed⟩ := consistent.index_slots
  have slots :
      (store.index.entries.map Sigma.snd).toFinset =
        (Finset.range store.geometry.totalSlots).filter
          (SlotFile.Live store.geometry store.memory) := by
    ext slot
    simp only [List.mem_toFinset, indexed, Finset.mem_filter,
      Finset.mem_range]
  have listed :
      store.snapshot.map BlockMeta.sizeBytes =
        (store.index.entries.map Sigma.snd).map fun slot =>
          (store.slotHeader slot).payloadSize := by
    simp [snapshot, Function.comp_def]
  rw [consistent.used_eq, listed,
    ← List.sum_toFinset _ noDuplicates, slots, Finset.sum_filter]
  rfl

/-- Entries of the snapshot carry the size of the stored payload. -/
theorem Consistent.getCopy_of_mem_snapshot
    (consistent : store.Consistent)
    {entry : BlockMeta}
    (member : entry ∈ store.snapshot) :
    ∃ copied,
      store.getCopy entry.id = some copied ∧
        entry.sizeBytes = copied.data.length := by
  simp only [snapshot, List.mem_map] at member
  obtain ⟨⟨id, slot⟩, indexed, isEntry⟩ := member
  have found : store.index.lookup id = some slot :=
    (List.mem_dlookup_iff store.index.nodupKeys).mpr indexed
  have live : (store.slotHeader slot).magic = slotMagicLive :=
    (consistent.index_iff.mp found).2.1
  subst isEntry
  simp [getCopy, found, live]

end SsdBlockStore

/-- The tiers from the fastest to the slowest. -/
def allTiers : List Tier :=
  [.hbm, .dram, .ssd]

/-- Every tier is one of the three. -/
theorem mem_allTiers
    (tier : Tier) :
    tier ∈ allTiers := by
  cases tier <;> decide

namespace TieredStore

/-- The counters of the in-memory tiers are exact, the file is consistent. -/
structure Accounted
    (store : TieredStore) : Prop where
  hbm :
    ∀ tierStore, store.hbm = some tierStore → tierStore.Accounted
  dram : store.dram.Accounted
  ssd : store.SsdConsistent

/-- The counter of one tier is exact. -/
def AccountedIn
    (store : TieredStore) : Tier → Prop
  | .hbm =>
      ∀ tierStore, store.hbm = some tierStore → tierStore.Accounted
  | .dram =>
      store.dram.Accounted
  | .ssd =>
      store.SsdConsistent

/-- Every counter is exact. -/
theorem Accounted.accountedIn
    {store : TieredStore}
    (accounted : store.Accounted)
    (tier : Tier) :
    store.AccountedIn tier := by
  cases tier with
  | hbm =>
      exact accounted.hbm
  | dram =>
      exact accounted.dram
  | ssd =>
      exact accounted.ssd

/-- Capacities are fixed. -/
@[simp] theorem capacityBytes_putToTier
    (store : TieredStore)
    (block : KvBlock)
    (tier query : Tier) :
    (store.putToTier block tier).2.capacityBytes query =
      store.capacityBytes query := by
  cases tier with
  | hbm =>
      cases present : store.hbm with
      | none =>
          simp [putToTier, present]
      | some tierStore =>
          cases query <;> simp [putToTier, present, capacityBytes]
  | dram =>
      cases query <;> simp [putToTier, capacityBytes]
  | ssd =>
      cases present : store.ssd with
      | none =>
          simp [putToTier, present]
      | some tierStore =>
          cases query <;> simp [putToTier, present, capacityBytes]

@[simp] theorem capacityBytes_eraseFromTier
    (store : TieredStore)
    (id : BlockId)
    (tier query : Tier) :
    (store.eraseFromTier id tier).2.capacityBytes query =
      store.capacityBytes query := by
  cases tier with
  | hbm =>
      cases present : store.hbm with
      | none =>
          simp [eraseFromTier, present]
      | some tierStore =>
          cases query <;> simp [eraseFromTier, present, capacityBytes]
  | dram =>
      cases query <;> simp [eraseFromTier, capacityBytes]
  | ssd =>
      cases present : store.ssd with
      | none =>
          simp [eraseFromTier, present]
      | some tierStore =>
          cases query <;> simp [eraseFromTier, present, capacityBytes]

/-- An insertion moves no counter but that of its tier. -/
theorem usedBytes_putToTier_of_ne
    (store : TieredStore)
    (block : KvBlock)
    {tier query : Tier}
    (different : query ≠ tier) :
    (store.putToTier block tier).2.usedBytes query =
      store.usedBytes query := by
  cases query with
  | hbm =>
      simp only [usedBytes, hbm_putToTier _ _ different.symm]
  | dram =>
      simp only [usedBytes, dram_putToTier _ _ different.symm]
  | ssd =>
      simp only [usedBytes, ssd_putToTier _ _ different.symm]

/-- The counter of a tier that takes a new block, which may wrap. -/
theorem usedBytes_putToTier_of_absent
    {store : TieredStore}
    (sound : store.SsdSound)
    {block : KvBlock}
    {tier : Tier}
    (accepted : (store.putToTier block tier).1 = true)
    (absent : store.copy tier block.id = none) :
    (store.putToTier block tier).2.usedBytes tier =
      addSize (store.usedBytes tier) block.data.length := by
  cases tier with
  | hbm =>
      cases present : store.hbm with
      | none =>
          simp [TieredStore.putToTier, present] at accepted
      | some tierStore =>
          simp only [TieredStore.putToTier, present] at accepted
          simp only [copy, present, Option.bind_some] at absent
          simpa [TieredStore.putToTier, usedBytes, present] using
            BlockStore.usedBytes_put_of_new accepted absent
  | dram =>
      exact BlockStore.usedBytes_put_of_new accepted absent
  | ssd =>
      cases present : store.ssd with
      | none =>
          simp [TieredStore.putToTier, present] at accepted
      | some tierStore =>
          simp only [TieredStore.putToTier, present] at accepted
          simp only [copy, present, Option.bind_some,
            Option.map_eq_none_iff] at absent
          simpa [TieredStore.putToTier, usedBytes, present] using
            (sound tierStore present).usedBytes_put_of_new accepted absent

namespace Accounted

variable {store : TieredStore}

/-- A new store counts nothing in memory. -/
theorem create
    {config : TieredStoreConfig}
    {memory : ByteMemory.Memory}
    (hbmFits : config.hbmBytes < sizeRange)
    (dramFits : config.dramBytes < sizeRange)
    (consistent : (TieredStore.create config memory).SsdConsistent) :
    (TieredStore.create config memory).Accounted := by
  refine ⟨?_, .empty .dram dramFits, consistent⟩
  intro tierStore present
  simp only [TieredStore.create] at present
  split at present
  · cases present
    exact .empty .hbm hbmFits
  · cases present

/-- Counters stay within the capacities. -/
theorem usedBytes_le
    (accounted : store.Accounted)
    (tier : Tier) :
    store.usedBytes tier ≤ store.capacityBytes tier := by
  cases tier with
  | hbm =>
      unfold usedBytes capacityBytes
      cases present : store.hbm with
      | none =>
          simp
      | some tierStore =>
          exact (accounted.hbm tierStore present).usedBytes_le
  | dram =>
      exact accounted.dram.usedBytes_le
  | ssd =>
      unfold usedBytes capacityBytes
      cases present : store.ssd with
      | none =>
          simp
      | some tierStore =>
          exact (accounted.ssd tierStore present).1.usedBytes_le

/-- Blocks are no larger than their tier. -/
theorem length_le
    (accounted : store.Accounted)
    {tier : Tier}
    {id : BlockId}
    {data : List UInt8}
    (held : store.copy tier id = some data) :
    data.length ≤ store.capacityBytes tier := by
  cases tier with
  | hbm =>
      obtain ⟨tierStore, present, held⟩ := Option.bind_eq_some_iff.mp held
      simpa [capacityBytes, present] using
        (accounted.hbm tierStore present).length_le held
  | dram =>
      exact accounted.dram.length_le held
  | ssd =>
      obtain ⟨tierStore, present, held⟩ := Option.bind_eq_some_iff.mp held
      obtain ⟨copied, isCopied, isData⟩ := Option.map_eq_some_iff.mp held
      subst isData
      have oneSlot :=
        (accounted.ssd tierStore present).1.length_le isCopied
      simp only [capacityBytes, present, Option.map_some, Option.getD_some]
      exact oneSlot.trans
        (Nat.le_mul_of_pos_left _ tierStore.geometry.slots_pos)

/-- Insertions that cannot wrap a counter. -/
theorem putToTier
    (accounted : store.Accounted)
    {block : KvBlock}
    {tier : Tier}
    (noWrap :
      store.usedBytes tier + block.data.length < sizeRange) :
    (store.putToTier block tier).2.Accounted := by
  have consistent := accounted.ssd.putToTier block tier
  cases tier with
  | hbm =>
      cases present : store.hbm with
      | none =>
          simpa [TieredStore.putToTier, present] using accounted
      | some tierStore =>
          simp only [usedBytes, present, Option.map_some,
            Option.getD_some] at noWrap
          simp only [TieredStore.putToTier, present] at consistent ⊢
          refine ⟨?_, accounted.dram, consistent⟩
          intro after isAfter
          cases isAfter
          exact (accounted.hbm tierStore present).put noWrap
  | dram =>
      exact ⟨accounted.hbm, accounted.dram.put noWrap, consistent⟩
  | ssd =>
      cases present : store.ssd with
      | none =>
          simpa [TieredStore.putToTier, present] using accounted
      | some tierStore =>
          simp only [TieredStore.putToTier, present] at consistent ⊢
          exact ⟨accounted.hbm, accounted.dram, consistent⟩

/-- Erasures. -/
theorem eraseFromTier
    (accounted : store.Accounted)
    (id : BlockId)
    (tier : Tier) :
    (store.eraseFromTier id tier).2.Accounted := by
  have consistent := accounted.ssd.eraseFromTier id tier
  cases tier with
  | hbm =>
      cases present : store.hbm with
      | none =>
          simpa [TieredStore.eraseFromTier, present] using accounted
      | some tierStore =>
          simp only [TieredStore.eraseFromTier, present] at consistent ⊢
          refine ⟨?_, accounted.dram, consistent⟩
          intro after isAfter
          cases isAfter
          exact (accounted.hbm tierStore present).erase id
  | dram =>
      exact ⟨accounted.hbm, accounted.dram.erase id, consistent⟩
  | ssd =>
      cases present : store.ssd with
      | none =>
          simpa [TieredStore.eraseFromTier, present] using accounted
      | some tierStore =>
          simp only [TieredStore.eraseFromTier, present] at consistent ⊢
          exact ⟨accounted.hbm, accounted.dram, consistent⟩

/-- A tier that takes a new block counts its bytes. -/
theorem usedBytes_putToTier_of_new
    (accounted : store.Accounted)
    {block : KvBlock}
    {tier : Tier}
    (noWrap :
      store.usedBytes tier + block.data.length < sizeRange)
    (accepted : (store.putToTier block tier).1 = true)
    (absent : store.copy tier block.id = none) :
    (store.putToTier block tier).2.usedBytes tier =
      store.usedBytes tier + block.data.length := by
  rw [← addSize_of_lt noWrap]
  exact
    usedBytes_putToTier_of_absent accounted.ssd.ssdSound accepted absent

end Accounted

/-- A tier that has the block already does not change. -/
theorem putToTier_of_present
    {store : TieredStore}
    (sound : store.SsdSound)
    {block : KvBlock}
    {tier : Tier}
    {data : List UInt8}
    (present : store.copy tier block.id = some data) :
    (store.putToTier block tier).2 = store := by
  cases tier with
  | hbm =>
      obtain ⟨tierStore, isStore, held⟩ :=
        Option.bind_eq_some_iff.mp present
      simp only [putToTier, isStore, BlockStore.put_of_present held]
      rw [← isStore]
  | dram =>
      simp only [putToTier, BlockStore.put_of_present present]
  | ssd =>
      obtain ⟨tierStore, isStore, held⟩ :=
        Option.bind_eq_some_iff.mp present
      obtain ⟨copied, isCopied, _⟩ := Option.map_eq_some_iff.mp held
      have same :=
        (sound tierStore isStore).put_of_present isCopied
      simp only [putToTier, isStore, same]
      rw [← isStore]

/-- Marks and counts of accesses do not matter to the counters. -/
theorem Accounted.clearVisited
    {store : TieredStore}
    (accounted : store.Accounted)
    (id : BlockId) :
    (store.clearVisited id).Accounted :=
  ⟨accounted.hbm, accounted.dram, accounted.ssd⟩

theorem AccountedIn.clearVisited
    {store : TieredStore}
    {tier : Tier}
    (accounted : store.AccountedIn tier)
    (id : BlockId) :
    (store.clearVisited id).AccountedIn tier := by
  cases tier <;> exact accounted

theorem Accounted.forget
    {store : TieredStore}
    (accounted : store.Accounted)
    (id : BlockId) :
    (store.forget id).Accounted :=
  ⟨accounted.hbm, accounted.dram, accounted.ssd⟩

/-! ## What erasures return and what listings add up to -/

/-- Bytes of a block that a tier holds. -/
def heldBytes
    (store : TieredStore)
    (tier : Tier)
    (id : BlockId) :
    Nat :=
  ((store.copy tier id).map List.length).getD 0

/-- Bytes of a block that all tiers hold together. -/
def heldInAll
    (store : TieredStore)
    (id : BlockId) :
    Nat :=
  store.heldBytes .hbm id + store.heldBytes .dram id +
    store.heldBytes .ssd id

/-- An erasure moves no counter but that of its tier. -/
theorem usedBytes_eraseFromTier_of_ne
    (store : TieredStore)
    (id : BlockId)
    {tier query : Tier}
    (different : query ≠ tier) :
    (store.eraseFromTier id tier).2.usedBytes query =
      store.usedBytes query := by
  cases query with
  | hbm =>
      simp only [usedBytes, hbm_eraseFromTier _ _ different.symm]
  | dram =>
      simp only [usedBytes, dram_eraseFromTier _ _ different.symm]
  | ssd =>
      simp only [usedBytes, ssd_eraseFromTier _ _ different.symm]

/-- A tier could hold a block of this size. -/
def Fits
    (store : TieredStore)
    (block : KvBlock) : Tier → Prop
  | .ssd =>
      ∃ tierStore ∈ store.ssd,
        block.data.length ≤ tierStore.geometry.slotPayloadBytes
  | _ => True

/-- Room is room for blocks that fit. -/
theorem TierHasRoom.fits
    {store : TieredStore}
    {block : KvBlock}
    {tier : Tier}
    (room : store.TierHasRoom block tier) :
    store.Fits block tier := by
  cases tier with
  | hbm =>
      trivial
  | dram =>
      trivial
  | ssd =>
      obtain ⟨tierStore, present, fits, _⟩ := room
      exact ⟨tierStore, present, fits⟩

/-- A tier that holds a block has room for it if it fits. -/
theorem Fits.room_of_held
    {store : TieredStore}
    (consistent : store.SsdConsistent)
    {block : KvBlock}
    {tier : Tier}
    (fits : store.Fits block tier)
    (held : (store.copy tier block.id).isSome = true) :
    store.TierHasRoom block tier := by
  obtain ⟨data, held⟩ := Option.isSome_iff_exists.mp held
  cases tier with
  | hbm =>
      obtain ⟨tierStore, present, held⟩ := Option.bind_eq_some_iff.mp held
      exact ⟨tierStore, present,
        Or.inl (BlockStore.get_isSome.mp (by simp [held]))⟩
  | dram =>
      exact Or.inl (BlockStore.get_isSome.mp
        (Option.isSome_iff_exists.mpr ⟨data, held⟩))
  | ssd =>
      obtain ⟨tierStore, present, size⟩ := fits
      obtain ⟨sameStore, samePresent, held⟩ :=
        Option.bind_eq_some_iff.mp held
      obtain rfl : tierStore = sameStore :=
        Option.some_inj.mp (present.symm.trans samePresent)
      obtain ⟨copied, isCopied, _⟩ := Option.map_eq_some_iff.mp held
      refine ⟨tierStore, present, size, Or.inl ?_⟩
      by_contra notIndexed
      have missed :=
        (consistent tierStore present).1.getCopy_eq_none_iff.mpr notIndexed
      rw [isCopied] at missed
      simp at missed

/-- A tier that holds a block of the same size has room for it. -/
theorem tierHasRoom_of_copy
    {store : TieredStore}
    (consistent : store.SsdConsistent)
    {block : KvBlock}
    {tier : Tier}
    {data : List UInt8}
    (held : store.copy tier block.id = some data)
    (sameSize : block.data.length = data.length) :
    store.TierHasRoom block tier := by
  have fits : store.Fits block tier := by
    cases tier with
    | hbm =>
        trivial
    | dram =>
        trivial
    | ssd =>
        obtain ⟨tierStore, present, held⟩ := Option.bind_eq_some_iff.mp held
        obtain ⟨copied, isCopied, rfl⟩ := Option.map_eq_some_iff.mp held
        refine ⟨tierStore, present, ?_⟩
        rw [sameSize]
        exact (consistent tierStore present).1.length_le isCopied
  exact fits.room_of_held consistent (by simp [held])

/-- Entries of a snapshot carry the size of the stored payload. -/
theorem heldBytes_of_mem_snapshot
    {store : TieredStore}
    (consistent : store.SsdConsistent)
    {tier : Tier}
    {entry : BlockMeta}
    (member : entry ∈ store.snapshot tier) :
    store.heldBytes tier entry.id = entry.sizeBytes := by
  unfold heldBytes
  cases tier with
  | hbm =>
      obtain ⟨data, held, size⟩ := copy_of_mem_snapshot_hbm member
      rw [held, size]
      rfl
  | dram =>
      simp only [snapshot, List.mem_map] at member
      obtain ⟨plain, plainMember, isEntry⟩ := member
      obtain ⟨data, held, size⟩ :=
        BlockStore.get_of_mem_snapshot plainMember
      subst isEntry
      simp [copy, held, size]
  | ssd =>
      cases present : store.ssd with
      | none =>
          simp [snapshot, present] at member
      | some tierStore =>
          simp only [snapshot, present, Option.map_some, Option.getD_some,
            List.mem_map] at member
          obtain ⟨plain, plainMember, isEntry⟩ := member
          obtain ⟨copied, held, size⟩ :=
            (consistent tierStore present).1.getCopy_of_mem_snapshot
              plainMember
          subst isEntry
          simp [copy, present, held, size]

/-- Erasing a block that a tier does not hold changes nothing. -/
theorem eraseFromTier_of_absent
    {store : TieredStore}
    (consistent : store.SsdConsistent)
    {id : BlockId}
    {tier : Tier}
    (absent : store.copy tier id = none) :
    store.eraseFromTier id tier = (0, store) := by
  cases tier with
  | hbm =>
      cases present : store.hbm with
      | none =>
          simp [eraseFromTier, present]
      | some tierStore =>
          have missed : tierStore.get id = none := by
            simpa [copy, present] using absent
          simp only [eraseFromTier, present,
            BlockStore.erase_of_absent missed]
          rw [← present]
  | dram =>
      have missed : store.dram.get id = none := absent
      simp [eraseFromTier, BlockStore.erase_of_absent missed]
  | ssd =>
      cases present : store.ssd with
      | none =>
          simp [eraseFromTier, present]
      | some tierStore =>
          have missed : tierStore.getCopy id = none := by
            simpa [copy, present] using absent
          simp only [eraseFromTier, present,
            (consistent tierStore present).1.erase_of_absent missed]
          rw [← present]

/-- A tier returns the size of the block that leaves it. -/
theorem SsdConsistent.eraseFromTier_fst
    {store : TieredStore}
    (consistent : store.SsdConsistent)
    (id : BlockId)
    (tier : Tier) :
    (store.eraseFromTier id tier).1 = store.heldBytes tier id := by
  unfold heldBytes
  cases tier with
  | hbm =>
      cases present : store.hbm with
      | none =>
          simp [TieredStore.eraseFromTier, copy, present]
      | some tierStore =>
          simpa [TieredStore.eraseFromTier, copy, present] using
            tierStore.erase_fst id
  | dram =>
      exact store.dram.erase_fst id
  | ssd =>
      cases present : store.ssd with
      | none =>
          simp [TieredStore.eraseFromTier, copy, present]
      | some tierStore =>
          have freed := ((consistent tierStore present).1.erase_freed id).1
          simpa [TieredStore.eraseFromTier, copy, present,
            Function.comp_def] using freed

/-- A tier's counter falls by the size of the block that leaves it. -/
theorem AccountedIn.usedBytes_eraseFromTier
    {store : TieredStore}
    {tier : Tier}
    (accounted : store.AccountedIn tier)
    (id : BlockId) :
    (store.eraseFromTier id tier).2.usedBytes tier +
        store.heldBytes tier id =
      store.usedBytes tier := by
  unfold heldBytes
  cases tier with
  | hbm =>
      cases present : store.hbm with
      | none =>
          simp [TieredStore.eraseFromTier, copy, usedBytes, present]
      | some tierStore =>
          have counted :=
            (accounted tierStore present).usedBytes_erase_add id
          simpa [TieredStore.eraseFromTier, copy, usedBytes, present]
            using counted
  | dram =>
      exact BlockStore.Accounted.usedBytes_erase_add accounted id
  | ssd =>
      cases present : store.ssd with
      | none =>
          simp [TieredStore.eraseFromTier, copy, usedBytes, present]
      | some tierStore =>
          have freed := ((accounted tierStore present).1.erase_freed id).2
          simpa [TieredStore.eraseFromTier, copy, usedBytes, present,
            Function.comp_def] using freed

/-- An erasure from any tier leaves a counter exact. -/
theorem AccountedIn.eraseFromTier
    {store : TieredStore}
    {tier : Tier}
    (accounted : store.AccountedIn tier)
    (id : BlockId)
    (source : Tier) :
    (store.eraseFromTier id source).2.AccountedIn tier := by
  cases tier with
  | hbm =>
      by_cases fromHbm : source = .hbm
      · intro after isAfter
        rw [fromHbm] at isAfter
        cases present : store.hbm with
        | none =>
            simp [TieredStore.eraseFromTier, present] at isAfter
        | some tierStore =>
            simp only [TieredStore.eraseFromTier, present,
              Option.some.injEq] at isAfter
            rw [← isAfter]
            exact (accounted tierStore present).erase id
      · rw [AccountedIn, hbm_eraseFromTier _ _ fromHbm]
        exact accounted
  | dram =>
      by_cases fromDram : source = .dram
      · rw [fromDram]
        exact BlockStore.Accounted.erase accounted id
      · rw [AccountedIn, dram_eraseFromTier _ _ fromDram]
        exact accounted
  | ssd =>
      exact SsdConsistent.eraseFromTier accounted id source

/-- An insertion leaves the counters of all other tiers exact. -/
theorem AccountedIn.putToTier_of_ne
    {store : TieredStore}
    {tier : Tier}
    (accounted : store.AccountedIn tier)
    (block : KvBlock)
    {target : Tier}
    (different : target ≠ tier) :
    (store.putToTier block target).2.AccountedIn tier := by
  cases tier with
  | hbm =>
      rw [AccountedIn, hbm_putToTier _ _ different]
      exact accounted
  | dram =>
      rw [AccountedIn, dram_putToTier _ _ different]
      exact accounted
  | ssd =>
      exact SsdConsistent.putToTier accounted block target

/-- An erasure leaves the bytes of the other tiers. -/
theorem heldBytes_eraseFromTier_of_ne
    (store : TieredStore)
    (erased id : BlockId)
    {tier query : Tier}
    (different : query ≠ tier) :
    (store.eraseFromTier erased tier).2.heldBytes query id =
      store.heldBytes query id := by
  rw [heldBytes, heldBytes, copy_eraseFromTier_of_ne store erased different]

/-- Erasing returns the sum of what the tiers held, as a 64-bit number. -/
theorem SsdConsistent.erase_fst
    {store : TieredStore}
    (consistent : store.SsdConsistent)
    (id : BlockId) :
    (store.erase id).1 = store.heldInAll id % sizeRange := by
  have afterHbm := consistent.eraseFromTier id .hbm
  have afterDram := afterHbm.eraseFromTier id .dram
  change
    addSize
        (addSize (store.eraseFromTier id .hbm).1
          ((store.eraseFromTier id .hbm).2.eraseFromTier id .dram).1)
        (((store.eraseFromTier id .hbm).2.eraseFromTier id .dram).2.eraseFromTier
          id .ssd).1 =
      _
  rw [consistent.eraseFromTier_fst id .hbm, afterHbm.eraseFromTier_fst id .dram,
    afterDram.eraseFromTier_fst id .ssd,
    heldBytes_eraseFromTier_of_ne _ _ _ (by decide : Tier.ssd ≠ Tier.dram),
    heldBytes_eraseFromTier_of_ne store _ _ (by decide),
    heldBytes_eraseFromTier_of_ne store _ _ (by decide)]
  simp [addSize, heldInAll]

/-- A counter falls by the bytes that its tier held. -/
theorem AccountedIn.usedBytes_erase
    {store : TieredStore}
    {tier : Tier}
    (accounted : store.AccountedIn tier)
    (id : BlockId) :
    (store.erase id).2.usedBytes tier + store.heldBytes tier id =
      store.usedBytes tier := by
  have afterHbm := accounted.eraseFromTier id .hbm
  have afterDram := afterHbm.eraseFromTier id .dram
  change
    ((((store.eraseFromTier id .hbm).2.eraseFromTier id .dram).2.eraseFromTier
      id .ssd).2.usedBytes tier) + _ = _
  cases tier with
  | hbm =>
      rw [usedBytes_eraseFromTier_of_ne _ _ (by decide),
        usedBytes_eraseFromTier_of_ne _ _ (by decide)]
      exact accounted.usedBytes_eraseFromTier id
  | dram =>
      have freed := afterHbm.usedBytes_eraseFromTier id
      rw [heldBytes_eraseFromTier_of_ne store _ _ (by decide),
        usedBytes_eraseFromTier_of_ne store id (by decide)] at freed
      rw [usedBytes_eraseFromTier_of_ne _ _ (by decide)]
      exact freed
  | ssd =>
      have freed := afterDram.usedBytes_eraseFromTier id
      rw [heldBytes_eraseFromTier_of_ne _ _ id
          (by decide : Tier.ssd ≠ Tier.dram),
        heldBytes_eraseFromTier_of_ne store _ _ (by decide),
        usedBytes_eraseFromTier_of_ne _ id
          (by decide : Tier.ssd ≠ Tier.dram),
        usedBytes_eraseFromTier_of_ne store id (by decide)] at freed
      exact freed

/-- Erasing a block from all tiers leaves a counter exact. -/
theorem AccountedIn.erase
    {store : TieredStore}
    {tier : Tier}
    (accounted : store.AccountedIn tier)
    (id : BlockId) :
    (store.erase id).2.AccountedIn tier := by
  have erased :=
    ((accounted.eraseFromTier id .hbm).eraseFromTier id .dram).eraseFromTier
      id .ssd
  cases tier <;> exact erased

namespace Accounted

variable {store : TieredStore}

/-- Every counter is the sum of the sizes that its tier lists. -/
theorem usedBytes_eq_snapshot
    (accounted : store.Accounted)
    (tier : Tier) :
    store.usedBytes tier =
      ((store.snapshot tier).map BlockMeta.sizeBytes).sum := by
  cases tier with
  | hbm =>
      cases present : store.hbm with
      | none =>
          simp [usedBytes, snapshot, present]
      | some tierStore =>
          simpa [usedBytes, snapshot, present, Function.comp_def] using
            (accounted.hbm tierStore present).usedBytes_eq_snapshot
  | dram =>
      simpa [usedBytes, snapshot, Function.comp_def] using
        accounted.dram.usedBytes_eq_snapshot
  | ssd =>
      cases present : store.ssd with
      | none =>
          simp [usedBytes, snapshot, present]
      | some tierStore =>
          simpa [usedBytes, snapshot, present, Function.comp_def] using
            (accounted.ssd tierStore present).1.usedBytes_eq_snapshot

end Accounted

/-! ## Sums over several tiers -/

/-- Bytes counted by some tiers. -/
def usedIn
    (store : TieredStore)
    (tiers : List Tier) :
    Nat :=
  (tiers.map store.usedBytes).sum

/-- Capacity of some tiers. -/
def capacityIn
    (store : TieredStore)
    (tiers : List Tier) :
    Nat :=
  (tiers.map store.capacityBytes).sum

/-- How far a step raised the counters of some tiers. -/
def raisedIn
    (before after : TieredStore)
    (tiers : List Tier) :
    Nat :=
  (tiers.map fun tier => after.usedBytes tier - before.usedBytes tier).sum

/-- What was raised and lowered accounts for the change of the counters. -/
theorem usedIn_balance
    (before after : TieredStore)
    (tiers : List Tier) :
    after.usedIn tiers + raisedIn after before tiers =
      before.usedIn tiers + raisedIn before after tiers := by
  unfold usedIn raisedIn
  induction tiers with
  | nil =>
      rfl
  | cons tier rest inductionHypothesis =>
      simp only [List.map_cons, List.sum_cons]
      omega

/-- A counter is part of the sum of all. -/
theorem usedBytes_le_usedIn
    (store : TieredStore)
    (tier : Tier) :
    store.usedBytes tier ≤ store.usedIn allTiers := by
  cases tier <;> simp [usedIn, allTiers] <;> omega

/-- Sums over no tier, one more tier and two groups of tiers. -/
@[simp] theorem usedIn_nil
    (store : TieredStore) :
    store.usedIn [] = 0 := rfl

@[simp] theorem usedIn_cons
    (store : TieredStore)
    (tier : Tier)
    (tiers : List Tier) :
    store.usedIn (tier :: tiers) =
      store.usedBytes tier + store.usedIn tiers := by
  simp [usedIn]

@[simp] theorem usedIn_append
    (store : TieredStore)
    (first second : List Tier) :
    store.usedIn (first ++ second) =
      store.usedIn first + store.usedIn second := by
  simp [usedIn]

@[simp] theorem capacityIn_nil
    (store : TieredStore) :
    store.capacityIn [] = 0 := rfl

@[simp] theorem capacityIn_cons
    (store : TieredStore)
    (tier : Tier)
    (tiers : List Tier) :
    store.capacityIn (tier :: tiers) =
      store.capacityBytes tier + store.capacityIn tiers := by
  simp [capacityIn]

@[simp] theorem capacityIn_append
    (store : TieredStore)
    (first second : List Tier) :
    store.capacityIn (first ++ second) =
      store.capacityIn first + store.capacityIn second := by
  simp [capacityIn]

/-- Equal capacities have equal sums. -/
theorem capacityIn_congr
    {before after : TieredStore}
    (same :
      ∀ tier, after.capacityBytes tier = before.capacityBytes tier)
    (tiers : List Tier) :
    after.capacityIn tiers = before.capacityIn tiers := by
  unfold capacityIn
  rw [funext same]

/-- A block within the range of the counters wraps none of them. -/
theorem Accounted.noWrap
    {store : TieredStore}
    (accounted : store.Accounted)
    {length : Nat}
    (sized : store.capacityIn allTiers + length < sizeRange)
    (tier : Tier) :
    store.usedBytes tier + length < sizeRange := by
  have used := accounted.usedBytes_le tier
  have part : store.capacityBytes tier ≤ store.capacityIn allTiers := by
    cases tier <;> simp [allTiers] <;> omega
  omega

/-- An accepted block raises the sum of the counters if its tier lacked it. -/
theorem Accounted.usedIn_putToTier
    {store : TieredStore}
    (accounted : store.Accounted)
    {block : KvBlock}
    {tier : Tier}
    (noWrap :
      store.usedBytes tier + block.data.length < sizeRange)
    (accepted : (store.putToTier block tier).1 = true) :
    (store.putToTier block tier).2.usedIn allTiers =
      store.usedIn allTiers +
        if (store.copy tier block.id).isNone then
          block.data.length
        else
          0 := by
  cases held : store.copy tier block.id with
  | some data =>
      rw [putToTier_of_present accounted.ssd.ssdSound held]
      simp
  | none =>
      have own :=
        accounted.usedBytes_putToTier_of_new noWrap accepted held
      have others :
          ∀ query,
            query ≠ tier →
            (store.putToTier block tier).2.usedBytes query =
              store.usedBytes query :=
        fun query different =>
          store.usedBytes_putToTier_of_ne block different
      simp only [allTiers, usedIn_cons, usedIn_nil, Option.isNone_none,
        ↓reduceIte]
      cases tier with
      | hbm =>
          rw [own, others .dram (by decide), others .ssd (by decide)]
          omega
      | dram =>
          rw [own, others .hbm (by decide), others .ssd (by decide)]
          omega
      | ssd =>
          rw [own, others .hbm (by decide), others .dram (by decide)]
          omega

/-- Two tiers together stay within the range of the counters. -/
theorem Accounted.noWrap_of_source
    {store : TieredStore}
    (accounted : store.Accounted)
    (bounded : store.capacityIn allTiers < sizeRange)
    {source target : Tier}
    (different : target ≠ source)
    {length : Nat}
    (sized : length ≤ store.capacityBytes source) :
    store.usedBytes target + length < sizeRange := by
  have used := accounted.usedBytes_le target
  have both :
      store.capacityBytes target + store.capacityBytes source ≤
        store.capacityIn allTiers := by
    cases target <;> cases source <;> simp_all [allTiers] <;> omega
  omega

/-! ## Steps that keep the accounts -/

/-- The counters are still exact and the capacities are what they were. -/
structure Kept
    (before after : TieredStore) : Prop where
  accounted : after.Accounted
  capacities :
    ∀ tier, after.capacityBytes tier = before.capacityBytes tier

namespace Kept

variable {store : TieredStore}

/-- Steps that leave the store alone. -/
theorem refl
    (accounted : store.Accounted) :
    store.Kept store :=
  ⟨accounted, fun _ => rfl⟩

/-- Insertions that cannot wrap a counter. -/
theorem putToTier
    (accounted : store.Accounted)
    {block : KvBlock}
    {tier : Tier}
    (noWrap :
      store.usedBytes tier + block.data.length < sizeRange) :
    store.Kept (store.putToTier block tier).2 :=
  ⟨accounted.putToTier noWrap,
    fun query => store.capacityBytes_putToTier block tier query⟩

/-- Erasures. -/
theorem eraseFromTier
    (accounted : store.Accounted)
    (id : BlockId)
    (tier : Tier) :
    store.Kept (store.eraseFromTier id tier).2 :=
  ⟨accounted.eraseFromTier id tier,
    fun query => store.capacityBytes_eraseFromTier id tier query⟩

end Kept

end TieredStore

end Lethe
