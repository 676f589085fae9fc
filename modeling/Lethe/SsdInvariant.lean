import Lethe.SsdRebuild

namespace Lethe

open ByteMemory

/-!
# Bookkeeping of the SSD store mirrors its file

After opening a well-formed file, and after every completed operation, the
index, free list and byte counter are functions of the live slots: the index
names exactly the live slots, the free list exactly the others, and the counter
is the number of live payload bytes.  Each operation then has one
specification in terms of the blocks the file holds.
-/

namespace SsdBlockStore

/-- The in-memory bookkeeping agrees with the mapped file. -/
structure Consistent (store : SsdBlockStore) : Prop where
  file : SlotFile.WellFormed store.geometry store.memory
  index_iff :
    ∀ {id slot},
      store.index.lookup id = some slot ↔
        slot < store.geometry.totalSlots ∧
          SlotFile.Live store.geometry store.memory slot ∧
          (SlotFile.header store.geometry store.memory slot).id = id
  free_iff :
    ∀ {slot},
      slot ∈ store.freeSlots ↔
        slot < store.geometry.totalSlots ∧
          ¬ SlotFile.Live store.geometry store.memory slot
  free_nodup : store.freeSlots.Nodup
  bump_eq : store.bumpNext = store.geometry.totalSlots
  used_eq :
    store.usedBytes = SlotFile.liveBytes store.geometry store.memory

section Bytes

variable
  {geometry : SsdGeometry}
  {memory : Memory}
  {slot : Nat}

/-- A live slot takes up the size of its payload. -/
theorem slotBytesUsed_of_live
    (live : SlotFile.Live geometry memory slot) :
    SlotFile.slotBytesUsed geometry memory slot =
      (SlotFile.header geometry memory slot).payloadSize := by
  simp [SlotFile.slotBytesUsed, live]

/-- A dead slot takes up nothing. -/
theorem slotBytesUsed_of_dead
    (dead : ¬ SlotFile.Live geometry memory slot) :
    SlotFile.slotBytesUsed geometry memory slot = 0 := by
  simp [SlotFile.slotBytesUsed, dead]

end Bytes

/-- On a well-formed file every live slot is usable. -/
theorem usable_iff_live
    {geometry : SsdGeometry}
    {memory : Memory}
    (wellFormed : SlotFile.WellFormed geometry memory)
    {slot : Nat}
    (bound : slot < geometry.totalSlots) :
    SlotFile.Usable geometry memory slot ↔
      SlotFile.Live geometry memory slot :=
  ⟨And.left, fun live => ⟨live, wellFormed.size_le bound live⟩⟩

/-- On a well-formed file the first slot of an identity is its only one. -/
theorem firstNaming_iff
    {geometry : SsdGeometry}
    {memory : Memory}
    (wellFormed : SlotFile.WellFormed geometry memory)
    {id : BlockId}
    {slot : Nat} :
    SlotFile.FirstNaming geometry memory geometry.totalSlots id slot ↔
      slot < geometry.totalSlots ∧
        SlotFile.Live geometry memory slot ∧
        (SlotFile.header geometry memory slot).id = id := by
  constructor
  · intro naming
    exact ⟨naming.bound, naming.usable.1, naming.names⟩
  · rintro ⟨bound, live, names⟩
    refine ⟨bound, (usable_iff_live wellFormed bound).mpr live, names, ?_⟩
    intro earlier before usable sameId
    have same :=
      wellFormed.slot_unique (Nat.lt_trans before bound) bound usable.1
        live (sameId.trans names.symm)
    exact Nat.ne_of_lt before same

/-- Opening a well-formed file yields bookkeeping that mirrors it. -/
theorem rebuildIndexFromMmap_consistent
    {geometry : SsdGeometry}
    {memory : Memory}
    (wellFormed : SlotFile.WellFormed geometry memory) :
    (rebuildIndexFromMmap geometry memory).Consistent := by
  have scanned := scanned_rebuildIndexFromMmap geometry memory
  have counted :
      ∀ slot ∈ Finset.range geometry.totalSlots,
        SlotFile.usableBytes geometry memory slot =
          SlotFile.slotBytesUsed geometry memory slot := by
    intro slot member
    have usable := usable_iff_live wellFormed (Finset.mem_range.mp member)
    simp only [SlotFile.usableBytes, SlotFile.slotBytesUsed, usable]
  refine ⟨wellFormed, ?_, ?_, scanned.free_nodup, rfl, ?_⟩
  · intro id slot
    exact scanned.index_iff.trans (firstNaming_iff wellFormed)
  · intro slot
    refine scanned.free_iff.trans (and_congr_right fun bound => ?_)
    exact not_congr (usable_iff_live wellFormed bound)
  · exact scanned.liveBytes_eq.trans (Finset.sum_congr rfl counted)

/-- Bookkeeping that agrees with the file is sound. -/
theorem Consistent.sound
    {store : SsdBlockStore}
    (consistent : store.Consistent) :
    store.Sound := by
  refine ⟨?_, ?_, consistent.free_nodup, consistent.bump_eq⟩
  · intro id slot found
    obtain ⟨bound, live, names⟩ := consistent.index_iff.mp found
    exact ⟨bound, live, consistent.file.size_le bound live, names⟩
  · intro slot member
    obtain ⟨bound, dead⟩ := consistent.free_iff.mp member
    refine ⟨bound, ?_⟩
    intro id found
    exact dead (consistent.index_iff.mp found).2.1

/-! ## Specifications of the operations -/

/-- A copy is returned exactly for the blocks the file holds. -/
theorem Consistent.getCopy_eq_some_iff
    {store : SsdBlockStore}
    (consistent : store.Consistent)
    {id : BlockId}
    {block : KvBlock} :
    store.getCopy id = some block ↔
      SlotFile.Holds store.geometry store.memory block ∧
        block.id = id := by
  unfold getCopy
  constructor
  · intro copied
    cases found : store.index.lookup id with
    | none =>
        simp [found] at copied
    | some slot =>
        obtain ⟨bound, live, sameId⟩ := consistent.index_iff.mp found
        have magic : (store.slotHeader slot).magic = slotMagicLive := live
        simp only [found, magic, ne_eq, not_true_eq_false, ↓reduceIte,
          Option.some.injEq] at copied
        subst copied
        exact ⟨⟨slot, bound, live, rfl⟩, sameId⟩
  · rintro ⟨⟨slot, bound, live, isBlock⟩, sameId⟩
    have found : store.index.lookup id = some slot := by
      apply consistent.index_iff.mpr
      refine ⟨bound, live, ?_⟩
      rw [← sameId, ← isBlock]
      rfl
    have magic : (store.slotHeader slot).magic = slotMagicLive := live
    simp only [found, magic, ne_eq, not_true_eq_false, ↓reduceIte,
      Option.some.injEq]
    exact isBlock

/-- No copy is returned exactly when the index misses the identity. -/
theorem Consistent.getCopy_eq_none_iff
    {store : SsdBlockStore}
    (consistent : store.Consistent)
    {id : BlockId} :
    store.getCopy id = none ↔ id ∉ store.index :=
  consistent.sound.getCopy_eq_none_iff

/--
The three outcomes of a `put`: rejected without a change, already present, or
written to the slot at the front of the free list.
-/
theorem Consistent.put_cases
    {store : SsdBlockStore}
    (consistent : store.Consistent)
    (block : KvBlock) :
    (store.put block = (false, store) ∧
        (store.geometry.slotPayloadBytes < block.data.length ∨
          store.freeSlots = [])) ∨
      (store.put block = (true, store) ∧
        block.data.length ≤ store.geometry.slotPayloadBytes ∧
        block.id ∈ store.index) ∨
      ∃ slot rest,
        store.freeSlots = slot :: rest ∧
          block.data.length ≤ store.geometry.slotPayloadBytes ∧
          block.id ∉ store.index ∧
          store.put block =
            (true, { store with
              memory :=
                run store.memory
                  (storesOf (putFields store.geometry slot block))
              index := store.index.insert block.id slot
              freeSlots := rest
              usedBytes :=
                addSize store.usedBytes block.data.length }) :=
  consistent.sound.put_cases block

/-- The front of the free list is a dead slot of the file. -/
theorem Consistent.free_head
    {store : SsdBlockStore}
    (consistent : store.Consistent)
    {slot : Nat}
    {rest : List Nat}
    (free : store.freeSlots = slot :: rest) :
    slot < store.geometry.totalSlots ∧
      ¬ SlotFile.Live store.geometry store.memory slot := by
  apply consistent.free_iff.mp
  simp [free]

/-- No live slot names an identity that the index misses. -/
theorem Consistent.fresh_id
    {store : SsdBlockStore}
    (consistent : store.Consistent)
    {id : BlockId}
    (absent : id ∉ store.index)
    {slot : Nat}
    (bound : slot < store.geometry.totalSlots)
    (live : SlotFile.Live store.geometry store.memory slot) :
    (SlotFile.header store.geometry store.memory slot).id ≠ id := by
  intro sameId
  have found : store.index.lookup id = some slot :=
    consistent.index_iff.mpr ⟨bound, live, sameId⟩
  exact absent (AList.lookup_isSome.mp (by simp [found]))

/-- The file after a new block was written is well formed. -/
theorem Consistent.wellFormed_put
    {store : SsdBlockStore}
    (consistent : store.Consistent)
    (small : store.geometry.SmallSlots)
    (slot : Nat)
    {block : KvBlock}
    (fits : block.data.length ≤ store.geometry.slotPayloadBytes)
    (absent : block.id ∉ store.index) :
    SlotFile.WellFormed store.geometry
      (run store.memory
        (storesOf (putFields store.geometry slot block))) := by
  have sizeFits : block.data.length < 2 ^ 32 :=
    Nat.lt_of_le_of_lt fits small
  apply SlotFile.wellFormed_of_elsewhere consistent.file
    (sameElsewhere_run fun _ member => putFields_inside fits member)
  · intro _
    rw [header_put sizeFits]
    exact fits
  · intro _ other otherBound _ otherLive
    rw [header_put sizeFits]
    exact consistent.fresh_id absent otherBound otherLive

/--
A change of one slot keeps the agreement if the index, the free list and the
byte counter follow it for that slot and stay as they are for the others.
-/
theorem Consistent.change_slot
    {store : SsdBlockStore}
    (consistent : store.Consistent)
    {slot : Nat}
    (bound : slot < store.geometry.totalSlots)
    {memory : Memory}
    (same :
      SlotFile.SameElsewhere store.geometry store.memory memory slot)
    (wellFormed : SlotFile.WellFormed store.geometry memory)
    {index : AList (fun _ : BlockId => Nat)}
    (indexHere :
      ∀ id,
        index.lookup id = some slot ↔
          SlotFile.Live store.geometry memory slot ∧
            (SlotFile.header store.geometry memory slot).id = id)
    (indexElsewhere :
      ∀ id other,
        other ≠ slot →
        (index.lookup id = some other ↔
          store.index.lookup id = some other))
    {freeSlots : List Nat}
    (freeHere :
      slot ∈ freeSlots ↔ ¬ SlotFile.Live store.geometry memory slot)
    (freeElsewhere :
      ∀ other,
        other ≠ slot →
        (other ∈ freeSlots ↔ other ∈ store.freeSlots))
    (freeNodup : freeSlots.Nodup)
    {usedBytes : Nat}
    (used :
      usedBytes +
          SlotFile.slotBytesUsed store.geometry store.memory slot =
        store.usedBytes +
          SlotFile.slotBytesUsed store.geometry memory slot) :
    ({ store with
      memory := memory
      index := index
      freeSlots := freeSlots
      usedBytes := usedBytes } : SsdBlockStore).Consistent := by
  refine ⟨wellFormed, ?_, ?_, freeNodup, consistent.bump_eq, ?_⟩
  · intro id other
    by_cases isSlot : other = slot
    · subst isSlot
      simp [indexHere, bound]
    · simp only [indexElsewhere id other isSlot, consistent.index_iff,
        same.live_iff isSlot, same.header_eq isSlot]
  · intro other
    by_cases isSlot : other = slot
    · subst isSlot
      simp [freeHere, bound]
    · simp only [freeElsewhere other isSlot, consistent.free_iff,
        same.live_iff isSlot]
  · have shares := same.liveBytes_eq bound
    rw [consistent.used_eq] at used
    simp only
    omega

/-- Completed `put` operations keep the bookkeeping in agreement. -/
theorem Consistent.put
    {store : SsdBlockStore}
    (consistent : store.Consistent)
    (small : store.geometry.SmallSlots)
    (block : KvBlock) :
    (store.put block).2.Consistent := by
  rcases consistent.put_cases block with
    ⟨unchanged, _⟩ | ⟨unchanged, _⟩ |
      ⟨slot, rest, free, fits, absent, written⟩
  · rw [unchanged]
    exact consistent
  · rw [unchanged]
    exact consistent
  · obtain ⟨bound, dead⟩ := consistent.free_head free
    have sizeFits : block.data.length < 2 ^ 32 :=
      Nat.lt_of_le_of_lt fits small
    have same :
        SlotFile.SameElsewhere store.geometry store.memory
          (run store.memory
            (storesOf (putFields store.geometry slot block))) slot :=
      sameElsewhere_run fun _ member => putFields_inside fits member
    have wellFormed :=
      consistent.wellFormed_put small slot fits absent
    have live :
        SlotFile.Live store.geometry
          (run store.memory
            (storesOf (putFields store.geometry slot block))) slot :=
      live_put
    have nodup := consistent.free_nodup
    rw [free] at nodup
    obtain ⟨notLater, restNodup⟩ := List.nodup_cons.mp nodup
    have absentLookup : store.index.lookup block.id = none :=
      AList.lookup_eq_none.mpr absent
    rw [written]
    refine
      consistent.change_slot bound same wellFormed ?_ ?_ ?_ ?_ restNodup ?_
    · intro id
      rw [header_put sizeFits]
      by_cases isNew : id = block.id
      · subst isNew
        simp only [AList.lookup_insert, live, true_and, true_iff]
        rfl
      · rw [AList.lookup_insert_ne isNew, consistent.index_iff]
        constructor
        · rintro ⟨_, slotLive, _⟩
          exact (dead slotLive).elim
        · rintro ⟨_, sameId⟩
          exact (isNew sameId.symm).elim
    · intro id other different
      by_cases isNew : id = block.id
      · subst isNew
        simp [absentLookup, Ne.symm different]
      · rw [AList.lookup_insert_ne isNew]
    · simp [notLater, live]
    · intro other different
      simp [free, different]
    · have shares := same.liveBytes_eq bound
      rw [slotBytesUsed_of_dead dead, slotBytesUsed_of_live live,
        header_put sizeFits] at shares ⊢
      dsimp only at shares ⊢
      have bounded := wellFormed.liveBytes_lt
      rw [consistent.used_eq, addSize_of_lt (by omega), Nat.add_zero]

/-- A rejected `put` changes nothing. -/
theorem put_of_rejected
    {store : SsdBlockStore}
    {block : KvBlock}
    (rejected : (store.put block).1 = false) :
    (store.put block).2 = store := by
  unfold SsdBlockStore.put at rejected ⊢
  split at rejected
  · next oversized =>
      simp [oversized]
  · next fits =>
      split at rejected
      · simp at rejected
      · next absent =>
          cases claimed : store.allocSlot with
          | none =>
              simp [fits, absent]
          | some pair =>
              simp [claimed] at rejected

/-- An accepted new block is copied back under its identity alone. -/
theorem Consistent.getCopy_put_of_accepted
    {store : SsdBlockStore}
    (consistent : store.Consistent)
    (small : store.geometry.SmallSlots)
    {block : KvBlock}
    (accepted : (store.put block).1 = true)
    (missed : store.getCopy block.id = none)
    (id : BlockId) :
    (store.put block).2.getCopy id =
      if id = block.id then
        some { block with tier := .ssd }
      else
        store.getCopy id := by
  have sizeFits : block.data.length < 2 ^ 32 := by
    rcases consistent.put_cases block with
      ⟨unchanged, _⟩ | ⟨_, fits, _⟩ | ⟨_, _, _, fits, _, _⟩
    · rw [unchanged] at accepted
      simp at accepted
    · exact Nat.lt_of_le_of_lt fits small
    · exact Nat.lt_of_le_of_lt fits small
  rw [consistent.sound.getCopy_put accepted, missed,
    namedBytes_of_lt sizeFits]
  rfl

/-- A block that fits is accepted while a slot is free. -/
theorem Consistent.put_accepts
    {store : SsdBlockStore}
    (consistent : store.Consistent)
    {block : KvBlock}
    (fits : block.data.length ≤ store.geometry.slotPayloadBytes)
    (room : store.freeSlots ≠ []) :
    (store.put block).1 = true := by
  rcases consistent.put_cases block with
    ⟨_, oversized | full⟩ | ⟨accepted, _⟩ | ⟨_, _, _, _, _, accepted⟩
  · omega
  · exact (room full).elim
  · rw [accepted]
  · rw [accepted]

/-- A `put` takes at most one slot from the free list. -/
theorem Consistent.freeSlots_put
    {store : SsdBlockStore}
    (consistent : store.Consistent)
    (block : KvBlock) :
    store.freeSlots.length ≤ (store.put block).2.freeSlots.length + 1 := by
  rcases consistent.put_cases block with
    ⟨unchanged, _⟩ | ⟨unchanged, _⟩ | ⟨slot, rest, free, _, _, written⟩
  · rw [unchanged]
    exact Nat.le_succ _
  · rw [unchanged]
    exact Nat.le_succ _
  · rw [written, free]
    exact Nat.le_refl _

/-- Erasing an identity that the index misses changes nothing. -/
theorem Consistent.erase_of_absent
    {store : SsdBlockStore}
    (consistent : store.Consistent)
    {id : BlockId}
    (missed : store.getCopy id = none) :
    store.erase id = (0, store) := by
  have absent : store.index.lookup id = none :=
    AList.lookup_eq_none.mpr (consistent.getCopy_eq_none_iff.mp missed)
  simp [SsdBlockStore.erase, absent]

/-- Erasing a present identity kills its slot and reports its payload size. -/
theorem Consistent.erase_of_present
    {store : SsdBlockStore}
    (consistent : store.Consistent)
    {id : BlockId}
    {copied : KvBlock}
    (present : store.getCopy id = some copied) :
    ∃ slot,
      slot < store.geometry.totalSlots ∧
        SlotFile.Live store.geometry store.memory slot ∧
        (SlotFile.header store.geometry store.memory slot).id = id ∧
        store.index.lookup id = some slot ∧
        store.erase id =
          (copied.data.length, { store with
            memory :=
              run store.memory
                (storesOf (eraseFields store.geometry slot))
            index := store.index.erase id
            freeSlots := slot :: store.freeSlots
            usedBytes :=
              subSize store.usedBytes copied.data.length }) := by
  obtain ⟨⟨slot, bound, live, isBlock⟩, sameId⟩ :=
    consistent.getCopy_eq_some_iff.mp present
  have slotId :
      (SlotFile.header store.geometry store.memory slot).id = id := by
    rw [← sameId, ← isBlock]
    rfl
  have found : store.index.lookup id = some slot :=
    consistent.index_iff.mpr ⟨bound, live, slotId⟩
  have size :
      (store.slotHeader slot).payloadSize = copied.data.length := by
    rw [← isBlock, SlotFile.blockAt_length]
    rfl
  refine ⟨slot, bound, live, slotId, found, ?_⟩
  simp [SsdBlockStore.erase, found, size]

/-- All stores of an `erase` leave its slot dead. -/
theorem dead_erase
    {geometry : SsdGeometry}
    {memory : Memory}
    {slot : Nat} :
    ¬ SlotFile.Live geometry
      (run memory (storesOf (eraseFields geometry slot))) slot := by
  have killed :
      ¬ SlotFile.Live geometry
        (run memory
          ((storesOf (eraseFields geometry slot)).take
            (storesOf (eraseFields geometry slot)).length)) slot :=
    dead_take_erase (by simp [eraseFields, storesOf, storesAt])
  rwa [List.take_length] at killed

/-- Completed `erase` operations keep the bookkeeping in agreement. -/
theorem Consistent.erase
    {store : SsdBlockStore}
    (consistent : store.Consistent)
    (id : BlockId) :
    (store.erase id).2.Consistent := by
  cases copied : store.getCopy id with
  | none =>
      rw [consistent.erase_of_absent copied]
      exact consistent
  | some block =>
      obtain ⟨slot, bound, live, slotId, found, erased⟩ :=
        consistent.erase_of_present copied
      have same :
          SlotFile.SameElsewhere store.geometry store.memory
            (run store.memory
              (storesOf (eraseFields store.geometry slot))) slot :=
        sameElsewhere_run fun _ member => eraseFields_inside member
      have dead :
          ¬ SlotFile.Live store.geometry
            (run store.memory
              (storesOf (eraseFields store.geometry slot))) slot :=
        dead_erase
      have wellFormed :
          SlotFile.WellFormed store.geometry
            (run store.memory
              (storesOf (eraseFields store.geometry slot))) :=
        SlotFile.wellFormed_of_elsewhere consistent.file same
          (fun revived => (dead revived).elim)
          (fun revived => (dead revived).elim)
      have size :
          (SlotFile.header store.geometry store.memory slot).payloadSize =
            block.data.length := by
        have freed := congrArg Prod.fst erased
        simp only [SsdBlockStore.erase, found] at freed
        exact freed
      rw [erased]
      refine consistent.change_slot bound same wellFormed ?_ ?_ ?_ ?_ ?_ ?_
      · intro other
        by_cases isErased : other = id
        · subst isErased
          simp [dead]
        · rw [AList.lookup_erase_ne isErased, consistent.index_iff]
          constructor
          · rintro ⟨_, _, sameId⟩
            exact (isErased (sameId.symm.trans slotId)).elim
          · rintro ⟨slotLive, _⟩
            exact (dead slotLive).elim
      · intro other otherSlot different
        by_cases isErased : other = id
        · subst isErased
          simp [found, Ne.symm different]
        · rw [AList.lookup_erase_ne isErased]
      · simp [dead]
      · intro other different
        simp [different]
      · apply List.nodup_cons.mpr
        refine ⟨?_, consistent.free_nodup⟩
        intro member
        exact (consistent.free_iff.mp member).2 live
      · have shares := same.liveBytes_eq bound
        rw [slotBytesUsed_of_live live, slotBytesUsed_of_dead dead, size]
          at shares ⊢
        have bounded := consistent.file.liveBytes_lt
        rw [consistent.used_eq, subSize_of_le (by omega) bounded]
        omega

/-- Erasing removes exactly one identity. -/
theorem Consistent.getCopy_erase
    {store : SsdBlockStore}
    (consistent : store.Consistent)
    (erasedId id : BlockId) :
    (store.erase erasedId).2.getCopy id =
      if id = erasedId then none else store.getCopy id :=
  consistent.sound.getCopy_erase erasedId id

end SsdBlockStore

end Lethe
