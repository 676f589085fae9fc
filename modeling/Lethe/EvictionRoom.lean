import Lethe.Eviction
import Mathlib.Algebra.BigOperators.Group.Finset.Basic

namespace Lethe

/-!
# Demotion with room below

When the slower tiers have room for a set of blocks, each of these blocks can
be demoted once for every in-memory tier it may still fall through.  `lives`
counts these demotions; `Room` is the resource invariant that pays for them.
-/

namespace TieredStore

/-- Every resident block stays resident, and no bytes are made up. -/
structure Keeps
    (before after : TieredStore) : Prop where
  resident : ∀ id, before.Resident id → after.Resident id
  bytes :
    ∀ {tier id data},
      after.copy tier id = some data →
      ∃ source, before.copy source id = some data

theorem Keeps.trans
    {first second third : TieredStore}
    (earlier : Keeps first second)
    (later : Keeps second third) :
    Keeps first third where
  resident := fun id held => later.resident id (earlier.resident id held)
  bytes := by
    intro tier id data held
    obtain ⟨source, between⟩ := later.bytes held
    exact earlier.bytes between

/-- Stores with the same copies keep each other's blocks. -/
theorem Keeps.of_copy_eq
    {before after : TieredStore}
    (same : after.copy = before.copy) :
    Keeps before after where
  resident := by
    rintro id ⟨tier, held⟩
    exact ⟨tier, by rwa [same]⟩
  bytes := by
    intro tier id data held
    exact ⟨tier, by rwa [← same]⟩

/-- A completed move keeps all blocks. -/
theorem keeps_move
    {store : TieredStore}
    (consistent : store.SsdConsistent)
    {id : BlockId}
    {data : List UInt8}
    {target source : Tier}
    (held : store.copy source id = some data)
    (different : target ≠ source)
    (accepted :
      (store.putToTier (relocated id data target) target).1 = true) :
    Keeps store (store.move (relocated id data target) target source) where
  resident := by
    intro other resident
    have present : store.Resident id := ⟨source, by simp [held]⟩
    exact
      (resident_move consistent accepted different present other).mpr
        resident
  bytes := by
    intro tier other found copied
    rw [copy_move consistent accepted] at copied
    split at copied
    · simp at copied
    · split at copied
      · next isTarget =>
          obtain ⟨_, isBlock⟩ := isTarget
          simp only [relocated_id] at isBlock
          subst isBlock
          simp only [relocated_id, relocated_data,
            Option.some.injEq] at copied
          cases kept : store.copy target other with
          | none =>
              rw [kept] at copied
              exact ⟨source, by rw [held, ← copied]; rfl⟩
          | some older =>
              rw [kept] at copied
              exact ⟨target, by rw [kept, ← copied]; rfl⟩
      · exact ⟨tier, copied⟩

/-- Free slots of the SSD tier. -/
def freeSlotCount
    (store : TieredStore) :
    Nat :=
  (store.ssd.map fun tierStore => tierStore.freeSlots.length).getD 0

/-- One of the in-memory tiers holds the identity. -/
def InMemory
    (store : TieredStore)
    (id : BlockId) : Prop :=
  (store.copy .hbm id).isSome = true ∨ (store.copy .dram id).isSome = true

instance
    (store : TieredStore) :
    DecidablePred store.InMemory :=
  fun id =>
    inferInstanceAs
      (Decidable
        ((store.copy .hbm id).isSome = true ∨
          (store.copy .dram id).isSome = true))

/-- How often a block can be demoted before it has left memory. -/
def lives
    (store : TieredStore)
    (id : BlockId) :
    Nat :=
  (if (store.copy .hbm id).isSome = true then 1 else 0) +
    if store.InMemory id then 1 else 0

/-- A block outside HBM can be demoted at most once. -/
theorem lives_le_one
    {store : TieredStore}
    {id : BlockId}
    (notInHbm : store.copy .hbm id = none) :
    store.lives id ≤ 1 := by
  by_cases inMemory : store.InMemory id
  · simp [lives, notInHbm, inMemory]
  · simp [lives, notInHbm, inMemory]

/-- Bytes that demoting a block from HBM would add to DRAM. -/
def pendingBytes
    (store : TieredStore)
    (id : BlockId) :
    Nat :=
  if (store.copy .dram id).isSome = true then
    0
  else
    ((store.copy .hbm id).map List.length).getD 0

/-- Every payload stored under one of the identities fits an SSD slot. -/
def FitSlots
    (store : TieredStore)
    (ids : Finset BlockId) : Prop :=
  ∀ tierStore,
    store.ssd = some tierStore →
    ∀ id ∈ ids,
      ∀ tier data,
        store.copy tier id = some data →
        data.length ≤ tierStore.geometry.slotPayloadBytes

/--
The slower tiers can take every block of `ids`: DRAM has the bytes for those
still in HBM, and SSD has a slot for each one still in memory.
-/
structure Room
    (ids : Finset BlockId)
    (store : TieredStore) : Prop where
  consistent : store.SsdConsistent
  accounted : store.dram.Accounted
  bytes :
    store.dram.usedBytes + ∑ id ∈ ids, store.pendingBytes id ≤
      store.dram.capacityBytes
  slots : (ids.filter store.InMemory).card ≤ store.freeSlotCount
  fits : store.FitSlots ids

/-! ## Fields that a move between two tiers leaves alone -/

@[simp] theorem eraseFromTier_hbm_dram
    (store : TieredStore)
    (id : BlockId) :
    (store.eraseFromTier id .hbm).2.dram = store.dram :=
  dram_eraseFromTier _ _ (by decide)

@[simp] theorem eraseFromTier_hbm_ssd
    (store : TieredStore)
    (id : BlockId) :
    (store.eraseFromTier id .hbm).2.ssd = store.ssd :=
  ssd_eraseFromTier _ _ (by decide)

@[simp] theorem putToTier_ssd_dram
    (store : TieredStore)
    (block : KvBlock) :
    (store.putToTier block .ssd).2.dram = store.dram :=
  dram_putToTier _ _ (by decide)

/-- Moving down from HBM changes DRAM by one insertion. -/
theorem move_dram_hbm
    (store : TieredStore)
    (block : KvBlock) :
    (store.move block .dram .hbm).dram = (store.dram.put block).2 ∧
      (store.move block .dram .hbm).ssd = store.ssd := by
  unfold move
  rw [eraseFromTier_hbm_dram, eraseFromTier_hbm_ssd]
  exact ⟨rfl, rfl⟩

/-- Moving down from DRAM changes DRAM by one erasure. -/
theorem move_ssd_dram
    (store : TieredStore)
    (block : KvBlock) :
    (store.move block .ssd .dram).dram =
        (store.dram.erase block.id).2 ∧
      (store.move block .ssd .dram).ssd =
        (store.putToTier block .ssd).2.ssd := by
  unfold move
  simp [eraseFromTier]

/-! ## One demotion -/

/-- A block in HBM goes to DRAM if DRAM accepts it. -/
theorem demote_of_hbm
    {store : TieredStore}
    {id : BlockId}
    {data : List UInt8}
    (inHbm : store.copy .hbm id = some data)
    (accepted :
      (store.putToTier (relocated id data .dram) .dram).1 = true) :
    store.demote id =
      (true, store.move (relocated id data .dram) .dram .hbm) := by
  simp [demote, inHbm, accepted, move]

/-- A block that has left HBM goes from DRAM to SSD if SSD accepts it. -/
theorem demote_of_dram
    {store : TieredStore}
    {id : BlockId}
    {data : List UInt8}
    (notInHbm : store.copy .hbm id = none)
    (inDram : store.copy .dram id = some data)
    (accepted :
      (store.putToTier (relocated id data .ssd) .ssd).1 = true) :
    store.demote id =
      (true, store.move (relocated id data .ssd) .ssd .dram) := by
  simp [demote, notInHbm, inDram, accepted, move]

/-- Nothing is demoted once the block has left memory. -/
theorem demote_of_no_lives
    {store : TieredStore}
    {id : BlockId}
    (spent : store.lives id = 0) :
    store.demote id = (false, store) := by
  have outside : ¬ store.InMemory id := by
    intro inside
    simp [lives, inside] at spent
  simp only [InMemory, not_or, Bool.not_eq_true, Option.isSome_eq_false_iff,
    Option.isNone_iff_eq_none] at outside
  simp [demote, outside.1, outside.2]

/-- What one demotion within the room achieves. -/
structure DemotedWithRoom
    (ids : Finset BlockId)
    (store : TieredStore)
    (id : BlockId) : Prop where
  demoted : (store.demote id).1 = true
  room : Room ids (store.demote id).2
  keeps : Keeps store (store.demote id).2
  lives_eq :
    ∀ other,
      (store.demote id).2.lives other =
        if other = id then store.lives id - 1 else store.lives other

/-- Payloads keep fitting when copies come from earlier copies. -/
theorem FitSlots.of_keeps
    {before after : TieredStore}
    {ids : Finset BlockId}
    (fits : before.FitSlots ids)
    (keeps : Keeps before after)
    (sameGeometry :
      ∀ tierStore,
        after.ssd = some tierStore →
        ∃ earlier,
          before.ssd = some earlier ∧
            earlier.geometry = tierStore.geometry) :
    after.FitSlots ids := by
  intro tierStore present id member tier data held
  obtain ⟨source, earlierHeld⟩ := keeps.bytes held
  obtain ⟨earlier, earlierPresent, geometry⟩ :=
    sameGeometry tierStore present
  rw [← geometry]
  exact fits earlier earlierPresent id member source data earlierHeld

/-- DRAM takes a block still in HBM and keeps room for the others. -/
theorem Room.dram_put
    {ids : Finset BlockId}
    {store : TieredStore}
    (room : Room ids store)
    {id : BlockId}
    (member : id ∈ ids)
    {data : List UInt8}
    (inHbm : store.copy .hbm id = some data)
    {block : KvBlock}
    (isBlock : block = relocated id data .dram) :
    (store.dram.put block).1 = true ∧
      (store.dram.put block).2.Accounted ∧
      (store.dram.put block).2.usedBytes +
          ∑ other ∈ ids.erase id, store.pendingBytes other ≤
        store.dram.capacityBytes := by
  subst isBlock
  have ofBlock := Finset.add_sum_erase ids store.pendingBytes member
  have bytes := room.bytes
  have noWrap := room.accounted.capacityBytes_lt
  cases inDram : store.dram.get (relocated id data .dram).id with
  | some older =>
      rw [BlockStore.put_of_present inDram]
      refine ⟨rfl, room.accounted, ?_⟩
      simp only
      omega
  | none =>
      have notInDram : store.copy .dram id = none := inDram
      have pending :
          store.pendingBytes id =
            (relocated id data .dram).data.length := by
        simp [pendingBytes, notInDram, inHbm]
      have fits :
          store.dram.usedBytes + (relocated id data .dram).data.length ≤
            store.dram.capacityBytes := by
        omega
      refine ⟨room.accounted.put_accepts fits,
        room.accounted.put (by omega), ?_⟩
      rw [room.accounted.usedBytes_put inDram fits]
      omega

/-- Demotion out of HBM within the room. -/
theorem Room.demote_hbm
    {ids : Finset BlockId}
    {store : TieredStore}
    (room : Room ids store)
    {id : BlockId}
    (member : id ∈ ids)
    {data : List UInt8}
    (inHbm : store.copy .hbm id = some data) :
    DemotedWithRoom ids store id := by
  obtain ⟨taken, accounted, bytes⟩ := room.dram_put member inHbm rfl
  have accepted :
      (store.putToTier (relocated id data .dram) .dram).1 = true := taken
  have result := demote_of_hbm inHbm accepted
  have keeps :=
    keeps_move room.consistent inHbm (by simp) accepted
  have consistent :=
    room.consistent.move (relocated id data .dram) .dram .hbm
  have copies := copy_move room.consistent accepted .hbm
  obtain ⟨dramAfter, ssdAfter⟩ :=
    store.move_dram_hbm (relocated id data .dram)
  generalize store.move (relocated id data .dram) .dram .hbm = after
    at result keeps consistent copies dramAfter ssdAfter
  simp only [relocated_id, relocated_data] at copies
  have inMemory : ∀ other, after.InMemory other ↔ store.InMemory other := by
    intro other
    by_cases same : other = id
    · simp [InMemory, copies, same, inHbm]
    · simp [InMemory, copies, same]
  have pending :
      ∑ other ∈ ids, after.pendingBytes other =
        ∑ other ∈ ids.erase id, store.pendingBytes other := by
    have here : after.pendingBytes id = 0 := by
      simp [pendingBytes, copies]
    rw [← Finset.add_sum_erase ids _ member, here, Nat.zero_add]
    refine Finset.sum_congr rfl ?_
    intro other otherMember
    simp [pendingBytes, copies, Finset.ne_of_mem_erase otherMember]
  refine ⟨by rw [result], ?_, by rw [result]; exact keeps, ?_⟩
  · rw [result]
    refine ⟨consistent, by rwa [dramAfter], ?_, ?_, ?_⟩
    · rwa [pending, dramAfter, BlockStore.put_capacityBytes]
    · rw [Finset.filter_congr fun other _ => inMemory other]
      simp only [freeSlotCount, ssdAfter]
      exact room.slots
    · refine room.fits.of_keeps keeps ?_
      intro tierStore present
      exact ⟨tierStore, by rw [← ssdAfter, present], rfl⟩
  · intro other
    rw [result]
    by_cases same : other = id
    · subst same
      simp [lives, InMemory, copies, inHbm]
    · simp [lives, inMemory, copies, same]

/-- SSD takes a block still in memory. -/
theorem Room.ssd_put
    {ids : Finset BlockId}
    {store : TieredStore}
    (room : Room ids store)
    {id : BlockId}
    (member : id ∈ ids)
    {data : List UInt8}
    (inDram : store.copy .dram id = some data) :
    ∃ before,
      store.ssd = some before ∧
        (before.put (relocated id data .ssd)).1 = true := by
  have inside : id ∈ ids.filter store.InMemory :=
    Finset.mem_filter.mpr ⟨member, Or.inr (by simp [inDram])⟩
  have slots := room.slots
  have some : 0 < (ids.filter store.InMemory).card :=
    Finset.card_pos.mpr ⟨id, inside⟩
  cases present : store.ssd with
  | none =>
      simp only [freeSlotCount, present, Option.map_none,
        Option.getD_none] at slots
      omega
  | some before =>
      simp only [freeSlotCount, present, Option.map_some,
        Option.getD_some] at slots
      obtain ⟨agrees, small⟩ := room.consistent before present
      have fits := room.fits before present id member .dram data inDram
      refine ⟨before, rfl, agrees.put_accepts fits ?_⟩
      intro full
      rw [full] at slots
      simp only [List.length_nil] at slots
      omega

/-- Demotion out of DRAM within the room. -/
theorem Room.demote_dram
    {ids : Finset BlockId}
    {store : TieredStore}
    (room : Room ids store)
    {id : BlockId}
    (member : id ∈ ids)
    {data : List UInt8}
    (notInHbm : store.copy .hbm id = none)
    (inDram : store.copy .dram id = some data) :
    DemotedWithRoom ids store id := by
  obtain ⟨before, present, taken⟩ := room.ssd_put member inDram
  have accepted :
      (store.putToTier (relocated id data .ssd) .ssd).1 = true := by
    simp [putToTier, present, taken]
  have result := demote_of_dram notInHbm inDram accepted
  have keeps :=
    keeps_move room.consistent inDram (by simp) accepted
  have consistent :=
    room.consistent.move (relocated id data .ssd) .ssd .dram
  have copies := copy_move room.consistent accepted .dram
  obtain ⟨dramAfter, ssdAfter⟩ :=
    store.move_ssd_dram (relocated id data .ssd)
  simp only [putToTier, present, relocated_id] at ssdAfter dramAfter
  generalize store.move (relocated id data .ssd) .ssd .dram = after
    at result keeps consistent copies dramAfter ssdAfter
  simp only [relocated_id, relocated_data] at copies
  have outside : ¬ after.InMemory id := by
    simp [InMemory, copies, notInHbm]
  have inMemory :
      ∀ other, other ≠ id →
        (after.InMemory other ↔ store.InMemory other) := by
    intro other different
    simp [InMemory, copies, different]
  have pending :
      ∀ other, after.pendingBytes other = store.pendingBytes other := by
    intro other
    by_cases same : other = id
    · simp [pendingBytes, copies, same, notInHbm]
    · simp [pendingBytes, copies, same]
  refine ⟨by rw [result], ?_, by rw [result]; exact keeps, ?_⟩
  · rw [result]
    refine ⟨consistent, by rw [dramAfter]; exact room.accounted.erase id,
      ?_, ?_, ?_⟩
    · have used := room.accounted.usedBytes_erase inDram
      have bytes := room.bytes
      simp only [pending, dramAfter, BlockStore.erase_capacityBytes]
      omega
    · have slots := room.slots
      have free :=
        (room.consistent before present).1.freeSlots_put
          (relocated id data .ssd)
      have fewer :
          ids.filter after.InMemory =
            (ids.filter store.InMemory).erase id := by
        ext other
        by_cases same : other = id
        · simp [same, outside]
        · simp [same, inMemory other same]
      rw [fewer, Finset.card_erase_of_mem
        (Finset.mem_filter.mpr ⟨member, Or.inr (by simp [inDram])⟩)]
      simp only [freeSlotCount, present, ssdAfter, Option.map_some,
        Option.getD_some] at slots ⊢
      omega
    · refine room.fits.of_keeps keeps ?_
      intro tierStore presentAfter
      refine ⟨before, present, ?_⟩
      rw [ssdAfter, Option.some.injEq] at presentAfter
      rw [← presentAfter, SsdBlockStore.put_geometry]
  · intro other
    rw [result]
    by_cases same : other = id
    · subst same
      simp [lives, InMemory, copies, inDram, notInHbm]
    · simp [lives, inMemory other same, copies, same]

/-- Any block of the set that is still in memory can be demoted. -/
theorem Room.demote
    {ids : Finset BlockId}
    {store : TieredStore}
    (room : Room ids store)
    {id : BlockId}
    (member : id ∈ ids)
    (alive : 0 < store.lives id) :
    DemotedWithRoom ids store id := by
  cases inHbm : store.copy .hbm id with
  | some data =>
      exact room.demote_hbm member inHbm
  | none =>
      cases inDram : store.copy .dram id with
      | some data =>
          exact room.demote_dram member inHbm inDram
      | none =>
          simp [lives, InMemory, inHbm, inDram] at alive

end TieredStore

end Lethe
