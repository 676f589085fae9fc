import Lethe.Types
import Lethe.Library.KeyedTotal

namespace Lethe

/-!
# Single-tier in-memory block store

The HBM and DRAM tiers keep their blocks in an `unordered_map` keyed by block
identity, next to a byte counter.  Each operation runs under the store's own
mutex, so it is one function on the store state.
-/

/-- State of one in-memory tier. -/
structure BlockStore where
  tier : Tier
  capacityBytes : Nat
  blocks : AList (fun _ : BlockId => KvBlock)
  usedBytes : Nat

namespace BlockStore

/-- A freshly constructed store of the given tier and capacity. -/
def empty
    (tier : Tier)
    (capacityBytes : Nat) :
    BlockStore where
  tier := tier
  capacityBytes := capacityBytes
  blocks := ∅
  usedBytes := 0

/--
Store a block.

An identity that is already present is left alone and reported as stored; a
block that would overflow the capacity is rejected before any change.
-/
def put
    (store : BlockStore)
    (block : KvBlock) :
    Bool × BlockStore :=
  if block.id ∈ store.blocks then
    (true, store)
  else if
      addSize store.usedBytes block.data.length > store.capacityBytes then
    (false, store)
  else
    (true, { store with
      blocks :=
        store.blocks.insert block.id { block with tier := store.tier }
      usedBytes := addSize store.usedBytes block.data.length })

/-- The identity is present already or its bytes fit the capacity. -/
def HasRoom
    (store : BlockStore)
    (block : KvBlock) : Prop :=
  block.id ∈ store.blocks ∨
    addSize store.usedBytes block.data.length ≤ store.capacityBytes

instance
    (store : BlockStore)
    (block : KvBlock) :
    Decidable (store.HasRoom block) :=
  inferInstanceAs (Decidable (_ ∨ _))

/-- The bytes stored under an identity. -/
def get
    (store : BlockStore)
    (id : BlockId) :
    Option (List UInt8) :=
  (store.blocks.lookup id).map KvBlock.data

/-- Remove a block and report the bytes it occupied. -/
def erase
    (store : BlockStore)
    (id : BlockId) :
    Nat × BlockStore :=
  match store.blocks.lookup id with
  | none => (0, store)
  | some block =>
      (block.data.length, { store with
        blocks := store.blocks.erase id
        usedBytes := subSize store.usedBytes block.data.length })

/-- Metadata of one stored block; the visited bit is painted by the caller. -/
def metaOf
    (store : BlockStore)
    (block : KvBlock) :
    BlockMeta where
  id := block.id
  tier := store.tier
  sizeBytes := block.data.length
  lastAccessEpoch := block.insertedEpoch
  insertEpoch := block.insertedEpoch
  visited := false

/-- Metadata of every stored block, in the map's iteration order. -/
def snapshot
    (store : BlockStore) :
    List BlockMeta :=
  store.blocks.entries.map fun entry =>
    { store.metaOf entry.2 with id := entry.1 }

/-! ## What each operation does to the stored bytes -/

@[simp] theorem get_empty
    (tier : Tier)
    (capacityBytes : Nat)
    (id : BlockId) :
    (empty tier capacityBytes).get id = none :=
  rfl

/-- An identity is present exactly when it has bytes. -/
theorem get_isSome
    {store : BlockStore}
    {id : BlockId} :
    (store.get id).isSome = true ↔ id ∈ store.blocks := by
  simp [get, AList.lookup_isSome]

/-- A block is accepted exactly if there is room for it. -/
theorem put_accepted_iff
    {store : BlockStore}
    {block : KvBlock} :
    (store.put block).1 = true ↔ store.HasRoom block := by
  unfold put HasRoom
  split
  · next present =>
      simp [present]
  · next absent =>
      split
      · next full =>
          simp [absent, full]
      · next fits =>
          simpa [absent] using fits

/-- A rejected store operation changes nothing. -/
theorem put_of_rejected
    {store : BlockStore}
    {block : KvBlock}
    (rejected : (store.put block).1 = false) :
    (store.put block).2 = store := by
  unfold put at rejected ⊢
  split at rejected
  · simp at rejected
  · next absent =>
      split at rejected
      · next full =>
          simp [absent, full]
      · simp at rejected

/-- Storing a present identity succeeds without changing anything. -/
theorem put_of_present
    {store : BlockStore}
    {block : KvBlock}
    {data : List UInt8}
    (present : store.get block.id = some data) :
    store.put block = (true, store) := by
  have member : block.id ∈ store.blocks :=
    get_isSome.mp (by simp [present])
  simp [put, member]

/-- An accepted new block is stored under its identity and nothing else moves. -/
theorem get_put_of_accepted
    {store : BlockStore}
    {block : KvBlock}
    (accepted : (store.put block).1 = true)
    (absent : store.get block.id = none)
    (id : BlockId) :
    (store.put block).2.get id =
      if id = block.id then some block.data else store.get id := by
  have notMember : block.id ∉ store.blocks := by
    intro member
    have present := get_isSome.mpr member
    simp [absent] at present
  unfold put at accepted ⊢
  simp only [notMember, ↓reduceIte] at accepted ⊢
  split at accepted
  · simp at accepted
  · next room =>
      simp only [room, ↓reduceIte, get]
      by_cases same : id = block.id
      · subst same
        simp
      · simp [same, AList.lookup_insert_ne same]

/-- Erasing removes exactly one identity. -/
theorem get_erase
    (store : BlockStore)
    (erased id : BlockId) :
    (store.erase erased).2.get id =
      if id = erased then none else store.get id := by
  unfold erase
  cases found : store.blocks.lookup erased with
  | none =>
      by_cases same : id = erased
      · subst same
        simp [get, found]
      · simp [same]
  | some block =>
      by_cases same : id = erased
      · subst same
        simp [get]
      · simp [get, same, AList.lookup_erase_ne same]

/-- Erasing an absent identity changes nothing. -/
theorem erase_of_absent
    {store : BlockStore}
    {id : BlockId}
    (absent : store.get id = none) :
    store.erase id = (0, store) := by
  unfold get at absent
  have missing : store.blocks.lookup id = none := by
    simpa using absent
  simp [erase, missing]

/-- Storing a block keeps the capacity of the tier. -/
@[simp] theorem put_capacityBytes
    (store : BlockStore)
    (block : KvBlock) :
    (store.put block).2.capacityBytes = store.capacityBytes := by
  unfold put
  split
  · rfl
  · split <;> rfl

/-- An insertion keeps the store within its capacity. -/
theorem usedBytes_put_le
    {store : BlockStore}
    (bounded : store.usedBytes ≤ store.capacityBytes)
    (block : KvBlock) :
    (store.put block).2.usedBytes ≤ (store.put block).2.capacityBytes := by
  unfold put
  split
  · exact bounded
  · split
    · exact bounded
    · rename_i fits
      exact Nat.le_of_not_gt fits

/-- Erasing a block keeps the capacity of the tier. -/
@[simp] theorem erase_capacityBytes
    (store : BlockStore)
    (id : BlockId) :
    (store.erase id).2.capacityBytes = store.capacityBytes := by
  unfold erase
  split <;> rfl

/-- The snapshot lists each stored identity once. -/
theorem snapshot_ids
    (store : BlockStore) :
    store.snapshot.map BlockMeta.id = store.blocks.keys := by
  simp [snapshot, AList.keys, List.keys, Function.comp_def]

/-- Every listed entry describes the bytes stored under its identity. -/
theorem get_of_mem_snapshot
    {store : BlockStore}
    {entry : BlockMeta}
    (member : entry ∈ store.snapshot) :
    ∃ data,
      store.get entry.id = some data ∧
        entry.sizeBytes = data.length := by
  simp only [snapshot, List.mem_map] at member
  obtain ⟨⟨id, block⟩, stored, isEntry⟩ := member
  have found : store.blocks.lookup id = some block :=
    (List.mem_dlookup_iff store.blocks.nodupKeys).mpr stored
  subst isEntry
  exact ⟨block.data, by simp [get, found], rfl⟩

/-- Sum of the payload sizes of the stored blocks. -/
def payloadTotal
    (store : BlockStore) :
    Nat :=
  store.blocks.total fun entry => entry.2.data.length

/-- Erasing a stored block takes its payload out of the sum. -/
theorem payloadTotal_erase
    {store : BlockStore}
    {id : BlockId}
    {data : List UInt8}
    (present : store.get id = some data) :
    store.payloadTotal =
      data.length + (store.erase id).2.payloadTotal := by
  obtain ⟨block, found, isData⟩ := Option.map_eq_some_iff.mp present
  subst isData
  simp only [erase, found, payloadTotal]
  exact AList.total_erase_of_lookup found

/-- Erasing a stored block lowers the counter by its payload. -/
theorem erase_usedBytes
    {store : BlockStore}
    {id : BlockId}
    {data : List UInt8}
    (present : store.get id = some data) :
    (store.erase id).2.usedBytes =
      subSize store.usedBytes data.length := by
  obtain ⟨block, found, isData⟩ := Option.map_eq_some_iff.mp present
  subst isData
  simp [erase, found]

/--
Accounting of a tier: the counter equals the bytes stored, which respect a
capacity that fits a 64-bit counter.
-/
structure Accounted
    (store : BlockStore) : Prop where
  usedBytes_eq : store.usedBytes = store.payloadTotal
  usedBytes_le : store.usedBytes ≤ store.capacityBytes
  capacityBytes_lt : store.capacityBytes < sizeRange

namespace Accounted

variable {store : BlockStore}

/-- A block that fits the remaining capacity is accepted. -/
theorem put_accepts
    (accounted : store.Accounted)
    {block : KvBlock}
    (fits :
      store.usedBytes + block.data.length ≤ store.capacityBytes) :
    (store.put block).1 = true := by
  have noWrap := accounted.capacityBytes_lt
  unfold put
  split
  · rfl
  · rw [addSize_of_lt (by omega), if_neg (by omega)]

/-- The counter after storing a new block that fits. -/
theorem usedBytes_put
    (accounted : store.Accounted)
    {block : KvBlock}
    (absent : store.get block.id = none)
    (fits :
      store.usedBytes + block.data.length ≤ store.capacityBytes) :
    (store.put block).2.usedBytes =
      store.usedBytes + block.data.length := by
  have noWrap := accounted.capacityBytes_lt
  have notMember : block.id ∉ store.blocks := by
    rw [← get_isSome, absent]
    simp
  unfold put
  rw [if_neg notMember, addSize_of_lt (by omega), if_neg (by omega)]

/-- Storing a block that cannot wrap the counter keeps the accounting. -/
theorem put
    (accounted : store.Accounted)
    {block : KvBlock}
    (noWrap : store.usedBytes + block.data.length < sizeRange) :
    (store.put block).2.Accounted := by
  unfold BlockStore.put
  split
  · exact accounted
  · next absent =>
      rw [addSize_of_lt noWrap]
      split
      · exact accounted
      · next fits =>
          refine ⟨?_, Nat.not_lt.mp fits, accounted.capacityBytes_lt⟩
          simp only [payloadTotal, AList.total_insert_of_notMem absent]
          rw [accounted.usedBytes_eq, payloadTotal, Nat.add_comm]

/-- A stored block is part of the counter. -/
theorem usedBytes_erase
    (accounted : store.Accounted)
    {id : BlockId}
    {data : List UInt8}
    (present : store.get id = some data) :
    (store.erase id).2.usedBytes + data.length = store.usedBytes := by
  have counted := accounted.usedBytes_eq
  have weight := payloadTotal_erase present
  have bounded := accounted.usedBytes_le
  have noWrap := accounted.capacityBytes_lt
  rw [erase_usedBytes present, subSize_of_le (by omega) (by omega)]
  omega

/-- Erasing keeps the accounting. -/
theorem erase
    (accounted : store.Accounted)
    (id : BlockId) :
    (store.erase id).2.Accounted := by
  cases present : store.get id with
  | none =>
      rwa [erase_of_absent present]
  | some data =>
      have counted := accounted.usedBytes_eq
      have weight := payloadTotal_erase present
      have removed := accounted.usedBytes_erase present
      have bounded := accounted.usedBytes_le
      have noWrap := accounted.capacityBytes_lt
      refine ⟨by omega, ?_, ?_⟩
      · rw [erase_capacityBytes]
        omega
      · rw [erase_capacityBytes]
        exact noWrap

end Accounted

end BlockStore

end Lethe
