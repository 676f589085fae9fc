import Lethe.SsdRecovery
import Lethe.Library.SlotPool

namespace Lethe

open ByteMemory SlotPool

/-!
# Slots of the SSD store over whole runs

The index, the free list and the headers in the file are three views of which
slots are in use.  Calls change them together, and opening the file rebuilds the
first two from the third.  What the slots are for is a table of blocks with one
place for each slot: along every run of calls and reopenings the store shows
the blocks of the table, and it answers every `put` as the table does.
-/

/-- A completed call, or closing the file and opening it again. -/
inductive SsdAction where
  | call (call : SsdCall)
  | reopen
  deriving DecidableEq

/-- Blocks under their identities, by payload and insertion epoch. -/
abbrev SsdTable := BoundedTable BlockId (List UInt8 × UInt64)

namespace SsdTable

/-- A block is added if its payload fits a slot and a place is left. -/
def put
    (geometry : SsdGeometry)
    (table : SsdTable)
    (block : KvBlock) :
    Bool × SsdTable :=
  if geometry.slotPayloadBytes < block.data.length then
    (false, table)
  else
    table.add block.id (block.data, block.insertedEpoch)

/-- The table after an action; reopening does not change it. -/
def next
    (geometry : SsdGeometry)
    (table : SsdTable) :
    SsdAction → SsdTable
  | .call (.put block) =>
      (table.put geometry block).2
  | .call (.erase id) =>
      table.remove id
  | .reopen =>
      table

/-- The table after a run, with one place for each slot. -/
def run
    (geometry : SsdGeometry)
    (actions : List SsdAction) :
    SsdTable :=
  actions.foldl (next geometry) (.empty geometry.totalSlots)

theorem lookup_put
    (geometry : SsdGeometry)
    (table : SsdTable)
    (block : KvBlock)
    (other : BlockId) :
    (table.put geometry block).2.lookup other =
      if (table.put geometry block).1 = true ∧
          table.lookup block.id = none ∧ other = block.id then
        some (block.data, block.insertedEpoch)
      else
        table.lookup other := by
  unfold put
  split
  · simp
  · exact table.lookup_add block.id (block.data, block.insertedEpoch) other

theorem places_next
    (geometry : SsdGeometry)
    (table : SsdTable)
    (action : SsdAction) :
    (table.next geometry action).places = table.places := by
  cases action with
  | call call =>
      cases call with
      | put block =>
          unfold next put
          dsimp only
          split
          · rfl
          · exact table.places_add block.id _
      | erase id =>
          rfl
  | reopen =>
      rfl

end SsdTable

namespace SsdBlockStore

/-- Close the file and open it again with the same geometry. -/
def reopen
    (store : SsdBlockStore) :
    SsdBlockStore :=
  rebuildIndexFromMmap store.geometry store.memory

/-- The store after an action. -/
def next
    (store : SsdBlockStore) :
    SsdAction → SsdBlockStore
  | .call call =>
      call.complete store
  | .reopen =>
      store.reopen

/-- The store after a run that starts with an all-zero file. -/
def runActions
    (geometry : SsdGeometry)
    (actions : List SsdAction) :
    SsdBlockStore :=
  actions.foldl next (rebuildIndexFromMmap geometry fun _ => 0)

/-- The slots that the index names. -/
def usedSlots
    (store : SsdBlockStore) :
    List Nat :=
  store.index.entries.map Sigma.snd

/-! ## Free and used slots -/

section Slots

variable {store : SsdBlockStore}

theorem mem_usedSlots
    {slot : Nat} :
    slot ∈ store.usedSlots ↔ ∃ id, store.index.lookup id = some slot := by
  simp only [usedSlots, List.mem_map, Sigma.exists, exists_eq_right,
    ← AList.mem_lookup_iff, Option.mem_def]

@[simp] theorem length_usedSlots :
    store.usedSlots.length = store.index.keys.length := by
  simp [usedSlots, AList.keys, List.keys]

/-- The index names no slot for two identities. -/
theorem Consistent.index_injective
    (consistent : store.Consistent)
    {first second : BlockId}
    {slot : Nat}
    (firstFound : store.index.lookup first = some slot)
    (secondFound : store.index.lookup second = some slot) :
    first = second :=
  consistent.sound.id_unique firstFound secondFound

/-- The free list and the index share out the slots of the file. -/
theorem Consistent.split
    (consistent : store.Consistent) :
    Split store.geometry.totalSlots store.freeSlots store.usedSlots := by
  refine Split.of_mem consistent.free_nodup ?_ ?_ ?_
  · refine List.Nodup.map_on ?_ store.index.nodupKeys.nodup
    rintro ⟨first, slot⟩ isFirst ⟨second, other⟩ isSecond sameSlot
    obtain rfl : slot = other := sameSlot
    obtain rfl :=
      consistent.index_injective (AList.mem_lookup_iff.mpr isFirst)
        (AList.mem_lookup_iff.mpr isSecond)
    rfl
  · intro slot isFree isUsed
    obtain ⟨id, found⟩ := mem_usedSlots.mp isUsed
    exact
      (consistent.free_iff.mp isFree).2 (consistent.index_iff.mp found).2.1
  · intro slot
    rw [consistent.free_iff, mem_usedSlots]
    constructor
    · intro bound
      by_cases live : SlotFile.Live store.geometry store.memory slot
      · exact Or.inr ⟨_, consistent.index_iff.mpr ⟨bound, live, rfl⟩⟩
      · exact Or.inl ⟨bound, live⟩
    · rintro (isFree | ⟨id, found⟩)
      · exact isFree.1
      · exact (consistent.index_iff.mp found).1

/-- A slot is left exactly if the index has fewer entries than slots. -/
theorem Consistent.hasRoom_iff
    (consistent : store.Consistent)
    (block : KvBlock) :
    store.HasRoom block ↔
      block.data.length ≤ store.geometry.slotPayloadBytes ∧
        (block.id ∈ store.index ∨
          store.index.keys.length < store.geometry.totalSlots) := by
  have free := consistent.split.free_ne_nil_iff
  rw [length_usedSlots] at free
  simp [HasRoom, consistent.bump_eq, free]

/-- A claimed slot comes from the free list. -/
theorem Consistent.mem_freeSlots_of_allocSlot
    (consistent : store.Consistent)
    {slot : Nat}
    {claimed : SsdBlockStore}
    (allocated : store.allocSlot = some (slot, claimed)) :
    slot ∈ store.freeSlots := by
  unfold allocSlot at allocated
  split at allocated
  · next first rest free =>
      simp only [Option.some.injEq, Prod.mk.injEq] at allocated
      rw [free, ← allocated.1]
      exact List.mem_cons_self
  · simp [consistent.bump_eq] at allocated

/-- A fitting block is rejected only if no slot is free. -/
theorem freeSlots_eq_nil_of_rejected
    {block : KvBlock}
    (fits : block.data.length ≤ store.geometry.slotPayloadBytes)
    (rejected : (store.put block).1 = false) :
    store.freeSlots = [] := by
  by_contra someFree
  have accepted : (store.put block).1 = true :=
    put_accepted_iff.mpr ⟨fits, Or.inr (Or.inl someFree)⟩
  rw [rejected] at accepted
  exact Bool.false_ne_true accepted

end Slots

/-! ## The store and the table -/

/-- The store shows the blocks of the table, which has its slots as places. -/
structure Represents
    (geometry : SsdGeometry)
    (store : SsdBlockStore)
    (table : SsdTable) :
    Prop where
  sameGeometry : store.geometry = geometry
  places : table.places = geometry.totalSlots
  consistent : store.Consistent
  shown : SsdContents.ShownBy table.lookup store

namespace Represents

variable
  {geometry : SsdGeometry}
  {store : SsdBlockStore}
  {table : SsdTable}

/-- The index has the identities of the table. -/
theorem mem_index_iff
    (represents : Represents geometry store table)
    (id : BlockId) :
    id ∈ store.index ↔ id ∈ table.entries := by
  rw [← not_iff_not, ← represents.consistent.getCopy_eq_none_iff,
    represents.shown.none_iff]
  exact AList.lookup_eq_none

/-- The index has as many entries as the table. -/
theorem length_keys
    (represents : Represents geometry store table) :
    store.index.keys.length = table.entries.keys.length := by
  have sameKeys : store.index.keys.Perm table.entries.keys :=
    (List.perm_ext_iff_of_nodup store.index.keys_nodup
      table.entries.keys_nodup).mpr represents.mem_index_iff
  exact sameKeys.length_eq

/-- The store accepts a block exactly if the table does. -/
theorem put_answer
    (represents : Represents geometry store table)
    (block : KvBlock) :
    (store.put block).1 = (table.put geometry block).1 := by
  rw [Bool.eq_iff_iff, put_accepted_iff,
    represents.consistent.hasRoom_iff, represents.mem_index_iff,
    represents.length_keys, represents.sameGeometry,
    ← represents.places]
  unfold SsdTable.put
  split
  · next tooLarge =>
      simp [Nat.not_le.mpr tooLarge]
  · next fits =>
      rw [BoundedTable.add_accepted_iff]
      simp [Nat.not_lt.mp fits]

/-- A call changes the table as it changes the contents of the store. -/
theorem lookup_next
    (represents : Represents geometry store table)
    (call : SsdCall) :
    (table.next geometry (.call call)).lookup =
      SsdContents.after table.lookup store call := by
  funext other
  cases call with
  | put block =>
      simp only [SsdTable.next, SsdContents.after, SsdTable.lookup_put,
        represents.put_answer]
      by_cases isNew :
          (table.put geometry block).1 = true ∧
            table.lookup block.id = none
      · simp [isNew, Function.update_apply]
      · rw [if_neg isNew, if_neg]
        exact fun new => isNew ⟨new.1, new.2.1⟩
  | erase id =>
      simp [SsdTable.next, SsdContents.after, BoundedTable.lookup_remove,
        Function.update_apply]

/-- An action keeps the store a representation of the table. -/
theorem next
    (represents : Represents geometry store table)
    (small : geometry.SmallSlots)
    (action : SsdAction) :
    Represents geometry (store.next action)
      (table.next geometry action) := by
  have smallSlots : store.geometry.SmallSlots := by
    rw [represents.sameGeometry]
    exact small
  cases action with
  | call call =>
      refine ⟨?_, ?_, ?_, ?_⟩
      · exact (call.complete_geometry store).trans represents.sameGeometry
      · exact (table.places_next geometry _).trans represents.places
      · exact call.complete_consistent represents.consistent smallSlots
      · rw [represents.lookup_next]
        exact
          represents.shown.complete represents.consistent smallSlots call
  | reopen =>
      have reopened : store.reopen.Consistent :=
        rebuildIndexFromMmap_consistent represents.consistent.file
      refine
        ⟨represents.sameGeometry, represents.places, reopened, ?_⟩
      intro id
      have sameCopy : store.reopen.getCopy id = store.getCopy id :=
        reopened.getCopy_congr represents.consistent (fun _ => Iff.rfl) id
      exact sameCopy.trans (represents.shown id)

end Represents

/-- A new file represents the empty table. -/
theorem represents_zero
    (geometry : SsdGeometry) :
    Represents geometry (rebuildIndexFromMmap geometry fun _ => 0)
      (.empty geometry.totalSlots) where
  sameGeometry := rfl
  places := rfl
  consistent := rebuildIndexFromMmap_consistent SlotFile.wellFormed_zero
  shown := SsdContents.shownBy_zero geometry

/--
After every run of calls and reopenings the store shows the blocks of the table
that the same run leads to.
-/
theorem represents_run
    (geometry : SsdGeometry)
    (small : geometry.SmallSlots)
    (actions : List SsdAction) :
    Represents geometry (runActions geometry actions)
      (SsdTable.run geometry actions) :=
  List.foldl_rel (represents_zero geometry)
    fun action _ _ _ represents => represents.next small action

/-! ## Three views of the slots -/

/--
The index, the free list and the headers agree on which slots are in use, the
headers name the blocks of the table, and slots are claimed accordingly.
-/
structure SlotsInStep
    (store : SsdBlockStore)
    (table : SsdTable) :
    Prop where
  indexInjective :
    ∀ first second slot,
      store.index.lookup first = some slot →
      store.index.lookup second = some slot →
      first = second
  freeOnce : store.freeSlots.Nodup
  freeOrIndexed :
    ∀ slot,
      slot < store.geometry.totalSlots ↔
        slot ∈ store.freeSlots ∨
          ∃ id, store.index.lookup id = some slot
  notBoth :
    ∀ slot ∈ store.freeSlots,
      ∀ id, store.index.lookup id ≠ some slot
  liveHeader :
    ∀ id slot,
      store.index.lookup id = some slot →
      (store.slotHeader slot).magic = slotMagicLive ∧
        (store.slotHeader slot).id = id ∧
        ∃ held,
          table.lookup id = some held ∧
            (store.slotHeader slot).payloadSize = held.1.length
  deadHeader :
    ∀ slot ∈ store.freeSlots,
      (store.slotHeader slot).magic ≠ slotMagicLive
  claimsUnused :
    ∀ slot claimed,
      store.allocSlot = some (slot, claimed) →
      slot < store.geometry.totalSlots ∧
        ∀ id, store.index.lookup id ≠ some slot
  rejectsWhenFull :
    ∀ block : KvBlock,
      block.id ∉ store.index →
      block.data.length ≤ store.geometry.slotPayloadBytes →
      (store.put block).1 = false →
      ∀ slot < store.geometry.totalSlots,
        ∃ id, store.index.lookup id = some slot

namespace Represents

variable
  {geometry : SsdGeometry}
  {store : SsdBlockStore}
  {table : SsdTable}

/-- A store that represents a table has its three views in step. -/
theorem slotsInStep
    (represents : Represents geometry store table) :
    store.SlotsInStep table := by
  have consistent := represents.consistent
  have split := consistent.split
  have unused {slot : Nat} (isFree : slot ∈ store.freeSlots) (id : BlockId) :
      store.index.lookup id ≠ some slot :=
    fun found => split.notMem_used isFree (mem_usedSlots.mpr ⟨id, found⟩)
  refine ⟨?_, split.free_nodup, ?_, ?_, ?_, ?_, ?_, ?_⟩
  · exact fun _ _ _ => consistent.index_injective
  · intro slot
    rw [split.lt_iff, mem_usedSlots]
  · exact fun _ isFree => unused isFree
  · intro id slot found
    obtain ⟨bound, live, names⟩ := consistent.index_iff.mp found
    have held := represents.shown.exists_of_live consistent bound live
    rw [names] at held
    exact ⟨live, names, held⟩
  · exact fun _ isFree => (consistent.free_iff.mp isFree).2
  · intro slot claimed allocated
    have isFree := consistent.mem_freeSlots_of_allocSlot allocated
    exact ⟨(split.lt_iff slot).mpr (Or.inl isFree), unused isFree⟩
  · intro block _ fits rejected slot bound
    have noneFree := freeSlots_eq_nil_of_rejected fits rejected
    rcases (split.lt_iff slot).mp bound with isFree | isUsed
    · simp [noneFree] at isFree
    · exact mem_usedSlots.mp isUsed

end Represents

/--
From an all-zero file with slot payloads below 4 GiB on, every run of calls and
reopenings leaves the index, the free list and the headers in step.
-/
theorem slot_views_stay_in_step
    (geometry : SsdGeometry)
    (small : geometry.SmallSlots)
    (actions : List SsdAction) :
    (runActions geometry actions).SlotsInStep
      (SsdTable.run geometry actions) :=
  (represents_run geometry small actions).slotsInStep

/--
Two blocks fill the file, so a third one is rejected; after an erasure and a
reopening it gets the slot of the first.
-/
def reusedSlotActions : List SsdAction :=
  [ .call (.put { id := ⟨.fill 7, 1, 0, 0⟩, data := [3, 4] }),
    .call (.put { id := ⟨.fill 8, 1, 0, 0⟩, data := [5] }),
    .call (.put { id := ⟨.fill 9, 1, 0, 0⟩, data := [6] }),
    .call (.erase ⟨.fill 7, 1, 0, 0⟩),
    .reopen,
    .call (.put { id := ⟨.fill 9, 1, 0, 0⟩, data := [6, 7, 8] }) ]

theorem slot_views_stay_in_step_reused :
    twoSlotGeometry.SmallSlots ∧
      (runActions twoSlotGeometry
          reusedSlotActions).index.lookup ⟨.fill 9, 1, 0, 0⟩ = some 1 ∧
      (runActions twoSlotGeometry reusedSlotActions).freeSlots = [] ∧
      (runActions twoSlotGeometry reusedSlotActions).SlotsInStep
        (SsdTable.run twoSlotGeometry reusedSlotActions) :=
  ⟨twoSlotGeometry_small, by decide +kernel, by decide +kernel,
    slot_views_stay_in_step twoSlotGeometry twoSlotGeometry_small
      reusedSlotActions⟩

end SsdBlockStore

end Lethe
