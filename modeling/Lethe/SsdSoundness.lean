import Lethe.SsdSlotFile

namespace Lethe

open ByteMemory

/-!
# The SSD store on an arbitrary file

Whatever the file contained when it was opened, the index names live slots that
spell out the identities they are indexed under, and the free list names slots
that no identity is indexed under.  The two operations keep this, and under it
each of them changes what is read for one identity only.  A block of 4 GiB or
more is the one payload that is not read back as it was put: its slot header
has 32 bits for the size.
-/

namespace SsdBlockStore

/-- The bytes of a payload that the size field of a slot header can name. -/
def namedBytes
    (data : List UInt8) :
    List UInt8 :=
  data.take (data.length % 2 ^ 32)

/-- Below 4 GiB the header names the whole payload. -/
theorem namedBytes_of_lt
    {data : List UInt8}
    (fits : data.length < 2 ^ 32) :
    namedBytes data = data := by
  rw [namedBytes, Nat.mod_eq_of_lt fits, List.take_length]

/-- Longer payloads are cut short. -/
theorem namedBytes_eq_iff
    (data : List UInt8) :
    namedBytes data = data ↔ data.length < 2 ^ 32 := by
  constructor
  · intro whole
    have sizes := congrArg List.length whole
    rw [namedBytes, List.length_take,
      Nat.min_eq_left (Nat.mod_le _ _)] at sizes
    rw [← sizes]
    exact Nat.mod_lt _ (by decide)
  · exact namedBytes_of_lt

/-! ## Images of the two store sequences -/

section Images

variable
  {geometry : SsdGeometry}
  {memory : Memory}
  {slot : Nat}
  {block : KvBlock}

/-- The fields of a new block do not overlap. -/
theorem putFields_apart :
    (putFields geometry slot block).Pairwise Apart := by
  simp only [putFields, SsdGeometry.payloadOffset, headerBytes,
    List.pairwise_cons, List.mem_cons, List.not_mem_nil, or_false,
    forall_eq_or_imp, forall_eq, Apart, LittleEndian.length_encode,
    block.id.hash.length_eq, List.length_cons, List.length_nil,
    List.Pairwise.nil, and_true, IsEmpty.forall_iff, implies_true]
  omega

/-- The fields of a new block lie inside its slot. -/
theorem putFields_inside
    (fits : block.data.length ≤ geometry.slotPayloadBytes)
    {field : Nat × List UInt8}
    (member : field ∈ putFields geometry slot block) :
    geometry.slotOffset slot ≤ field.1 ∧
      field.1 + field.2.length ≤
        geometry.slotOffset slot + geometry.slotBytes := by
  have headerFits := geometry.header_lt_slot
  unfold SsdGeometry.slotPayloadBytes at fits
  unfold headerBytes at fits headerFits
  simp only [putFields, List.mem_cons, List.not_mem_nil, or_false]
    at member
  rcases member with
      isField | isField | isField | isField | isField | isField |
      isField | isField | isField | isField | isField <;>
    subst isField <;>
    simp only [SsdGeometry.payloadOffset, headerBytes,
      LittleEndian.length_encode, block.id.hash.length_eq,
      List.length_cons, List.length_nil] <;>
    omega

/-- The fields of an erased slot lie inside it. -/
theorem eraseFields_inside
    {field : Nat × List UInt8}
    (member : field ∈ eraseFields geometry slot) :
    geometry.slotOffset slot ≤ field.1 ∧
      field.1 + field.2.length ≤
        geometry.slotOffset slot + geometry.slotBytes := by
  have headerFits := geometry.header_lt_slot
  unfold headerBytes at headerFits
  simp only [eraseFields, List.mem_cons, List.not_mem_nil, or_false]
    at member
  rcases member with isField | isField <;>
    subst isField <;>
    simp only [LittleEndian.length_encode, List.length_cons,
      List.length_nil] <;>
    omega

/-- Any prefix of stores to fields inside a slot leaves other slots alone. -/
theorem sameElsewhere_take
    {fields : List (Nat × List UInt8)}
    (inside :
      ∀ field ∈ fields,
        geometry.slotOffset slot ≤ field.1 ∧
          field.1 + field.2.length ≤
            geometry.slotOffset slot + geometry.slotBytes)
    (count : Nat) :
    SlotFile.SameElsewhere geometry memory
      (run memory ((storesOf fields).take count)) slot := by
  intro address outside
  apply run_of_untouched
  intro entry member
  obtain ⟨field, fieldMember, lower, upper⟩ :=
    mem_storesOf (List.mem_of_mem_take member)
  have bounds := inside field fieldMember
  omega

/-- All stores to fields inside a slot leave other slots alone. -/
theorem sameElsewhere_run
    {fields : List (Nat × List UInt8)}
    (inside :
      ∀ field ∈ fields,
        geometry.slotOffset slot ≤ field.1 ∧
          field.1 + field.2.length ≤
            geometry.slotOffset slot + geometry.slotBytes) :
    SlotFile.SameElsewhere geometry memory
      (run memory (storesOf fields)) slot := by
  have complete :
      SlotFile.SameElsewhere geometry memory
        (run memory
          ((storesOf fields).take (storesOf fields).length)) slot :=
    sameElsewhere_take inside (storesOf fields).length
  rwa [List.take_length] at complete

/-- Reading any field of a completely written slot returns what was put. -/
theorem load_put
    {address width : Nat}
    {bytes : List UInt8}
    (member : (address, bytes) ∈ putFields geometry slot block)
    (lengthEq : bytes.length = width) :
    load (run memory (storesOf (putFields geometry slot block)))
        address width =
      bytes := by
  rw [← lengthEq]
  exact load_run_storesOf putFields_apart member

/--
The header of a completely written slot describes the block, with its size cut
to the 32 bits of the field.
-/
theorem header_written :
    SlotFile.header geometry
        (run memory (storesOf (putFields geometry slot block))) slot =
      { magic := slotMagicLive
        payloadSize := block.data.length % 2 ^ 32
        hash := block.id.hash
        insertedEpoch := block.insertedEpoch
        layer := block.id.layer
        headGroup := block.id.headGroup
        modelId := block.id.modelId } := by
  generalize written :
    run memory (storesOf (putFields geometry slot block)) = after
  have field
      {address width : Nat}
      {bytes : List UInt8}
      (member : (address, bytes) ∈ putFields geometry slot block)
      (lengthEq : bytes.length = width) :
      load after address width = bytes := by
    rw [← written]
    exact load_put member lengthEq
  have magic : after (geometry.slotOffset slot) = slotMagicLive := by
    have read :
        load after (geometry.slotOffset slot) 1 = [slotMagicLive] :=
      field (by simp [putFields]) rfl
    simpa [load] using read
  have payloadSize :
      load after (geometry.slotOffset slot + 4) 4 =
        LittleEndian.encode 4 block.data.length :=
    field (by simp [putFields]) (by simp)
  have hash :
      load after (geometry.slotOffset slot + 8) 32 =
        block.id.hash.bytes :=
    field (by simp [putFields]) block.id.hash.length_eq
  have epoch :
      load after (geometry.slotOffset slot + 40) 8 =
        LittleEndian.encode 8 block.insertedEpoch.toNat :=
    field (by simp [putFields]) (by simp)
  have layer :
      load after (geometry.slotOffset slot + 48) 4 =
        LittleEndian.encode 4 block.id.layer.toNat :=
    field (by simp [putFields]) (by simp)
  have headGroup :
      load after (geometry.slotOffset slot + 52) 4 =
        LittleEndian.encode 4 block.id.headGroup.toNat :=
    field (by simp [putFields]) (by simp)
  have modelId :
      load after (geometry.slotOffset slot + 56) 4 =
        LittleEndian.encode 4 block.id.modelId.toNat :=
    field (by simp [putFields]) (by simp)
  have size :
      LittleEndian.decode (LittleEndian.encode 4 block.data.length) =
        block.data.length % 2 ^ 32 :=
    LittleEndian.decode_encode 4 block.data.length
  unfold SlotFile.header slotHeaderAt
  simp only [magic, payloadSize, hash, epoch, layer, headGroup, modelId,
    size, LittleEndian.ofNat_decode_encode_word32,
    LittleEndian.ofNat_decode_encode_word64]

/-- The header of a completely written slot describes a block below 4 GiB. -/
theorem header_put
    (fits : block.data.length < 2 ^ 32) :
    SlotFile.header geometry
        (run memory (storesOf (putFields geometry slot block))) slot =
      { magic := slotMagicLive
        payloadSize := block.data.length
        hash := block.id.hash
        insertedEpoch := block.insertedEpoch
        layer := block.id.layer
        headGroup := block.id.headGroup
        modelId := block.id.modelId } := by
  rw [header_written, Nat.mod_eq_of_lt fits]

/-- A completely written slot spells out the bytes that its header names. -/
theorem blockAt_written :
    SlotFile.blockAt geometry
        (run memory (storesOf (putFields geometry slot block))) slot =
      { block with data := namedBytes block.data, tier := .ssd } := by
  have payload :
      load (run memory (storesOf (putFields geometry slot block)))
          (geometry.payloadOffset slot) block.data.length =
        block.data :=
    load_put (by simp [putFields]) rfl
  have named :
      load (run memory (storesOf (putFields geometry slot block)))
          (geometry.payloadOffset slot) (block.data.length % 2 ^ 32) =
        namedBytes block.data := by
    rw [← take_load _ (Nat.mod_le _ _), payload]
    rfl
  unfold SlotFile.blockAt
  rw [header_written]
  simp only [named]
  rfl

/-- A completely written slot is live. -/
theorem live_put :
    SlotFile.Live geometry
      (run memory (storesOf (putFields geometry slot block))) slot := by
  unfold SlotFile.Live
  rw [header_written]

/-- The stores of a `put` end with the magic byte and touch it only there. -/
theorem magic_take_put
    {count : Nat}
    (interrupted :
      count < (storesOf (putFields geometry slot block)).length) :
    run memory ((storesOf (putFields geometry slot block)).take count)
        (geometry.slotOffset slot) =
      memory (geometry.slotOffset slot) := by
  have shape :
      storesOf (putFields geometry slot block) =
        storesOf ((putFields geometry slot block).take 10) ++
          [⟨geometry.slotOffset slot, slotMagicLive⟩] := by
    simp [putFields, storesOf, storesAt]
  rw [shape] at interrupted ⊢
  simp only [List.length_append, List.length_cons, List.length_nil]
    at interrupted
  rw [List.take_append_of_le_length (by omega)]
  apply run_of_untouched
  intro entry member
  obtain ⟨field, fieldMember, lower, upper⟩ :=
    mem_storesOf (List.mem_of_mem_take member)
  have afterMagic : geometry.slotOffset slot < field.1 := by
    simp only [putFields, List.take_succ_cons, List.take_zero,
      List.mem_cons, List.not_mem_nil, or_false] at fieldMember
    rcases fieldMember with
        isField | isField | isField | isField | isField | isField |
        isField | isField | isField | isField <;>
      subst isField <;>
      simp only [SsdGeometry.payloadOffset, headerBytes] <;>
      omega
  omega

/-- As soon as its first store is done, an erased slot is not live. -/
theorem dead_take_erase
    {count : Nat}
    (started : 0 < count) :
    ¬ SlotFile.Live geometry
      (run memory ((storesOf (eraseFields geometry slot)).take count))
      slot := by
  obtain ⟨rest, countShape⟩ := Nat.exists_eq_succ_of_ne_zero
    (Nat.pos_iff_ne_zero.mp started)
  subst countShape
  have shape :
      storesOf (eraseFields geometry slot) =
        ⟨geometry.slotOffset slot, slotMagicFree⟩ ::
          storesAt (geometry.slotOffset slot + 4)
            (LittleEndian.encode 4 0) := by
    simp [eraseFields, storesOf, storesAt]
  have magic :
      run memory
          ((storesOf (eraseFields geometry slot)).take rest.succ)
          (geometry.slotOffset slot) =
        slotMagicFree := by
    rw [shape, List.take_succ_cons]
    have untouched :
        ∀ entry ∈
          (storesAt (geometry.slotOffset slot + 4)
            (LittleEndian.encode 4 0)).take rest,
          entry.address ≠ geometry.slotOffset slot := by
      intro entry member
      have bounds := mem_storesAt_bounds (List.mem_of_mem_take member)
      omega
    have kept :
        run
            (write memory ⟨geometry.slotOffset slot, slotMagicFree⟩)
            ((storesAt (geometry.slotOffset slot + 4)
              (LittleEndian.encode 4 0)).take rest)
            (geometry.slotOffset slot) =
          write memory ⟨geometry.slotOffset slot, slotMagicFree⟩
            (geometry.slotOffset slot) :=
      run_of_untouched untouched
    simpa [run, write] using kept
  unfold SlotFile.Live SlotFile.header slotHeaderAt
  simp [magic, slotMagicFree, slotMagicLive]

end Images

/-! ## What the bookkeeping guarantees on any file -/

/-- The index and the free list name slots of the file, and no slot twice. -/
structure Sound (store : SsdBlockStore) : Prop where
  index_slot :
    ∀ {id slot},
      store.index.lookup id = some slot →
      slot < store.geometry.totalSlots ∧
        SlotFile.Live store.geometry store.memory slot ∧
        (SlotFile.header store.geometry store.memory slot).payloadSize ≤
          store.geometry.slotPayloadBytes ∧
        (SlotFile.header store.geometry store.memory slot).id = id
  free_slot :
    ∀ {slot},
      slot ∈ store.freeSlots →
      slot < store.geometry.totalSlots ∧
        ∀ id, store.index.lookup id ≠ some slot
  free_nodup : store.freeSlots.Nodup
  bump_eq : store.bumpNext = store.geometry.totalSlots

namespace Sound

variable {store : SsdBlockStore}

/-- A copy is read from the slot that the index names. -/
theorem getCopy_eq
    (sound : store.Sound)
    (id : BlockId) :
    store.getCopy id =
      (store.index.lookup id).map
        (SlotFile.blockAt store.geometry store.memory) := by
  unfold getCopy
  cases found : store.index.lookup id with
  | none =>
      rfl
  | some slot =>
      have magic : (store.slotHeader slot).magic = slotMagicLive :=
        (sound.index_slot found).2.1
      simp only [magic, ne_eq, not_true_eq_false, ↓reduceIte,
        Option.map_some]
      rfl

/-- No copy is returned exactly when the index misses the identity. -/
theorem getCopy_eq_none_iff
    (sound : store.Sound)
    {id : BlockId} :
    store.getCopy id = none ↔ id ∉ store.index := by
  rw [sound.getCopy_eq, Option.map_eq_none_iff, AList.lookup_eq_none]

/--
The three outcomes of a `put`: rejected without a change, already present, or
written to the slot at the front of the free list.
-/
theorem put_cases
    (sound : store.Sound)
    (block : KvBlock) :
    (store.put block = (false, store) ∧
        (store.geometry.slotPayloadBytes < block.data.length ∨
          store.freeSlots = [])) ∨
      (store.put block = (true, store) ∧
        block.data.length ≤ store.geometry.slotPayloadBytes ∧
        block.id ∈ store.index) ∨
      ∃ slot rest,
        store.freeSlots = slot :: rest ∧
          block.data.length ≤ store.geometry.slotPayloadBytes ∧
          block.id ∉ store.index ∧
          store.put block =
            (true, { store with
              memory :=
                run store.memory
                  (storesOf (putFields store.geometry slot block))
              index := store.index.insert block.id slot
              freeSlots := rest
              usedBytes :=
                addSize store.usedBytes block.data.length }) := by
  by_cases oversized :
      block.data.length > store.geometry.slotPayloadBytes
  · exact Or.inl ⟨by simp [put, oversized], Or.inl oversized⟩
  · have fits : block.data.length ≤ store.geometry.slotPayloadBytes :=
      Nat.not_lt.mp oversized
    by_cases present : block.id ∈ store.index
    · exact Or.inr (Or.inl ⟨by simp [put, oversized, present], fits,
        present⟩)
    · cases free : store.freeSlots with
      | nil =>
          have full :
              ¬ store.bumpNext < store.geometry.totalSlots := by
            rw [sound.bump_eq]
            exact Nat.lt_irrefl _
          exact Or.inl ⟨by
            simp [put, oversized, present, allocSlot, free, full],
            Or.inr rfl⟩
      | cons slot rest =>
          refine Or.inr (Or.inr ⟨slot, rest, rfl, fits, present, ?_⟩)
          simp [put, oversized, present, allocSlot, free]

/-- No identity is indexed under the front of the free list. -/
theorem ne_free_head
    (sound : store.Sound)
    {slot : Nat}
    {rest : List Nat}
    (free : store.freeSlots = slot :: rest)
    {id : BlockId}
    {other : Nat}
    (found : store.index.lookup id = some other) :
    other ≠ slot := by
  have member : slot ∈ store.freeSlots := by simp [free]
  rintro rfl
  exact (sound.free_slot member).2 id found

/-- Two identities are not indexed under one slot. -/
theorem id_unique
    (sound : store.Sound)
    {first second : BlockId}
    {slot : Nat}
    (firstFound : store.index.lookup first = some slot)
    (secondFound : store.index.lookup second = some slot) :
    first = second := by
  rw [← (sound.index_slot firstFound).2.2.2,
    ← (sound.index_slot secondFound).2.2.2]

/-- Completed `put` operations keep the guarantees. -/
theorem put
    (sound : store.Sound)
    (block : KvBlock) :
    (store.put block).2.Sound := by
  rcases sound.put_cases block with
    ⟨unchanged, _⟩ | ⟨unchanged, _⟩ |
      ⟨slot, rest, free, fits, absent, written⟩
  · rw [unchanged]
    exact sound
  · rw [unchanged]
    exact sound
  · have same :
        SlotFile.SameElsewhere store.geometry store.memory
          (run store.memory
            (storesOf (putFields store.geometry slot block))) slot :=
      sameElsewhere_run fun _ member => putFields_inside fits member
    have bound : slot < store.geometry.totalSlots :=
      (sound.free_slot (by simp [free])).1
    have nodup := sound.free_nodup
    rw [free] at nodup
    obtain ⟨notLater, restNodup⟩ := List.nodup_cons.mp nodup
    rw [written]
    refine ⟨?_, ?_, restNodup, sound.bump_eq⟩
    · intro id other found
      by_cases isNew : id = block.id
      · subst isNew
        simp only [AList.lookup_insert, Option.some.injEq] at found
        subst found
        refine ⟨bound, live_put, ?_, ?_⟩
        · rw [header_written]
          exact Nat.le_trans (Nat.mod_le _ _) fits
        · rw [header_written]
          rfl
      · rw [AList.lookup_insert_ne isNew] at found
        have elsewhere := sound.ne_free_head free found
        simp only [same.live_iff elsewhere, same.header_eq elsewhere]
        exact sound.index_slot found
    · intro other inRest
      have member : other ∈ store.freeSlots := by
        rw [free]
        exact List.mem_cons_of_mem _ inRest
      obtain ⟨otherBound, unindexed⟩ := sound.free_slot member
      refine ⟨otherBound, ?_⟩
      intro id
      by_cases isNew : id = block.id
      · subst isNew
        rw [AList.lookup_insert]
        simp only [ne_eq, Option.some.injEq]
        rintro rfl
        exact notLater inRest
      · rw [AList.lookup_insert_ne isNew]
        exact unindexed id

/-- After an accepted `put` one identity is read from the file. -/
theorem getCopy_put
    (sound : store.Sound)
    {block : KvBlock}
    (accepted : (store.put block).1 = true)
    (id : BlockId) :
    (store.put block).2.getCopy id =
      if id = block.id then
        some ((store.getCopy block.id).getD
          { block with data := namedBytes block.data, tier := .ssd })
      else
        store.getCopy id := by
  have soundAfter := sound.put block
  rcases sound.put_cases block with
    ⟨unchanged, _⟩ | ⟨unchanged, _, present⟩ |
      ⟨slot, rest, free, fits, absent, written⟩
  · rw [unchanged] at accepted
    simp at accepted
  · rw [unchanged]
    by_cases isNew : id = block.id
    · subst isNew
      obtain ⟨copied, found⟩ := Option.ne_none_iff_exists'.mp
        (fun missed => sound.getCopy_eq_none_iff.mp missed present)
      simp [found]
    · simp [isNew]
  · rw [written] at soundAfter ⊢
    rw [soundAfter.getCopy_eq]
    by_cases isNew : id = block.id
    · subst isNew
      rw [sound.getCopy_eq_none_iff.mpr absent]
      simp [blockAt_written]
    · simp only [AList.lookup_insert_ne isNew, isNew, ↓reduceIte,
        sound.getCopy_eq]
      cases found : store.index.lookup id with
      | none =>
          rfl
      | some other =>
          simp only [Option.map_some, Option.some.injEq]
          exact (sameElsewhere_run fun _ member =>
            putFields_inside fits member).blockAt_eq
              (sound.ne_free_head free found)
              (sound.index_slot found).2.2.1

/-- Storing a present identity never changes the store. -/
theorem put_of_present
    (sound : store.Sound)
    {block copied : KvBlock}
    (present : store.getCopy block.id = some copied) :
    (store.put block).2 = store := by
  have member : block.id ∈ store.index := by
    by_contra absent
    rw [← sound.getCopy_eq_none_iff, present] at absent
    simp at absent
  rcases sound.put_cases block with
    ⟨unchanged, _⟩ | ⟨unchanged, _⟩ | ⟨_, _, _, _, absent, _⟩
  · rw [unchanged]
  · rw [unchanged]
  · exact (absent member).elim

/-- Erasing an indexed identity empties its slot. -/
theorem erase_of_found
    {id : BlockId}
    {slot : Nat}
    (found : store.index.lookup id = some slot) :
    (store.erase id).2 =
      { store with
        memory :=
          run store.memory (storesOf (eraseFields store.geometry slot))
        index := store.index.erase id
        freeSlots := slot :: store.freeSlots
        usedBytes :=
          subSize store.usedBytes (store.slotHeader slot).payloadSize } := by
  simp [SsdBlockStore.erase, found]

/-- Erasing an identity that is not indexed changes nothing. -/
theorem erase_of_missed
    {id : BlockId}
    (missed : store.index.lookup id = none) :
    store.erase id = (0, store) := by
  simp [SsdBlockStore.erase, missed]

/-- Completed `erase` operations keep the guarantees. -/
theorem erase
    (sound : store.Sound)
    (id : BlockId) :
    (store.erase id).2.Sound := by
  cases found : store.index.lookup id with
  | none =>
      rw [erase_of_missed found]
      exact sound
  | some slot =>
      have same :
          SlotFile.SameElsewhere store.geometry store.memory
            (run store.memory
              (storesOf (eraseFields store.geometry slot))) slot :=
        sameElsewhere_run fun _ member => eraseFields_inside member
      have otherSlot :
          ∀ {other otherSlot},
            (store.index.erase id).lookup other = some otherSlot →
            store.index.lookup other = some otherSlot ∧
              otherSlot ≠ slot := by
        intro other otherSlot otherFound
        by_cases isErased : other = id
        · subst isErased
          simp at otherFound
        · rw [AList.lookup_erase_ne isErased] at otherFound
          refine ⟨otherFound, ?_⟩
          rintro rfl
          exact isErased (sound.id_unique otherFound found)
      rw [erase_of_found found]
      refine ⟨?_, ?_, ?_, sound.bump_eq⟩
      · intro other otherAt otherFound
        obtain ⟨before, elsewhere⟩ := otherSlot otherFound
        simp only [same.live_iff elsewhere, same.header_eq elsewhere]
        exact sound.index_slot before
      · intro freed member
        rcases List.mem_cons.mp member with isSlot | earlier
        · subst isSlot
          refine ⟨(sound.index_slot found).1, ?_⟩
          intro other otherFound
          exact (otherSlot otherFound).2 rfl
        · obtain ⟨bound, unindexed⟩ := sound.free_slot earlier
          refine ⟨bound, ?_⟩
          intro other otherFound
          exact unindexed other (otherSlot otherFound).1
      · refine List.nodup_cons.mpr ⟨?_, sound.free_nodup⟩
        intro member
        exact (sound.free_slot member).2 id found

/-- Erasing removes exactly one identity. -/
theorem getCopy_erase
    (sound : store.Sound)
    (erasedId id : BlockId) :
    (store.erase erasedId).2.getCopy id =
      if id = erasedId then none else store.getCopy id := by
  have soundAfter := sound.erase erasedId
  cases found : store.index.lookup erasedId with
  | none =>
      rw [erase_of_missed found]
      by_cases same : id = erasedId
      · subst same
        simp [sound.getCopy_eq, found]
      · simp [same]
  | some slot =>
      rw [erase_of_found found] at soundAfter ⊢
      rw [soundAfter.getCopy_eq]
      by_cases same : id = erasedId
      · subst same
        simp
      · simp only [AList.lookup_erase_ne same, same, ↓reduceIte,
          sound.getCopy_eq]
        cases otherFound : store.index.lookup id with
        | none =>
            rfl
        | some other =>
            have elsewhere : other ≠ slot := by
              rintro rfl
              exact same (sound.id_unique otherFound found)
            simp only [Option.map_some, Option.some.injEq]
            exact (sameElsewhere_run fun _ member =>
              eraseFields_inside member).blockAt_eq elsewhere
                (sound.index_slot otherFound).2.2.1

end Sound

end SsdBlockStore

end Lethe
