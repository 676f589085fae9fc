import Lethe.SsdInvariant
import Mathlib.Algebra.BigOperators.Group.Finset.Basic

namespace Lethe

open ByteMemory

/-!
# Process kills and recovery of the SSD store

A call writes the mapped file one byte at a time.  Killing the process keeps a
prefix of those stores and loses the in-memory bookkeeping; restarting it opens
the same file again.  Because the magic byte is written last by a `put` and
first by an `erase`, the reopened store shows the interrupted call either
completely or not at all.
-/

/-- The mutating calls of the SSD store. -/
inductive SsdCall where
  | put (block : KvBlock)
  | erase (id : BlockId)
  deriving DecidableEq

namespace SsdCall

/-- The store after the call ran to completion. -/
def complete
    (store : SsdBlockStore) :
    SsdCall → SsdBlockStore
  | .put block => (store.put block).2
  | .erase id => (store.erase id).2

/-- The individual file stores of the call, in program order. -/
def stores
    (store : SsdBlockStore) :
    SsdCall → List Store
  | .put block => store.putStores block
  | .erase id => store.eraseStores id

/-- Kill the process after some of the call's stores, then reopen the file. -/
def killedAt
    (store : SsdBlockStore)
    (call : SsdCall)
    (count : Nat) :
    SsdBlockStore :=
  SsdBlockStore.rebuildIndexFromMmap store.geometry
    (run store.memory ((call.stores store).take count))

end SsdCall

/-- One event in the life of the file. -/
inductive SsdEvent where
  | completed (call : SsdCall)
  | killed (call : SsdCall) (count : Nat)
  deriving DecidableEq

/-- The store after one event. -/
def SsdEvent.apply
    (store : SsdBlockStore) :
    SsdEvent → SsdBlockStore
  | .completed call => call.complete store
  | .killed call count => call.killedAt store count

/-- The store after a sequence of events, starting from an all-zero file. -/
def ssdExecute
    (geometry : SsdGeometry)
    (events : List SsdEvent) :
    SsdBlockStore :=
  events.foldl SsdEvent.apply
    (SsdBlockStore.rebuildIndexFromMmap geometry fun _ => 0)

/-! ## Intended contents -/

/-- Payload and insertion epoch of every block that should be stored. -/
abbrev SsdContents := BlockId → Option (List UInt8 × UInt64)

/--
Effect of a completed call on the intended contents.  A successful `put` adds
its block unless the identity is already present, and an `erase` removes it.
-/
def SsdContents.after
    (contents : SsdContents)
    (store : SsdBlockStore) :
    SsdCall → SsdContents
  | .put block =>
      if (store.put block).1 = true ∧ contents block.id = none then
        Function.update contents block.id
          (some (block.data, block.insertedEpoch))
      else
        contents
  | .erase id => Function.update contents id none

/--
Intended contents of a store whose interrupted calls each took effect
completely or not at all.
-/
inductive SsdHistory
    (geometry : SsdGeometry) :
    List SsdEvent → SsdContents → Prop where
  | start :
      SsdHistory geometry [] (fun _ => none)
  | completed
      {events : List SsdEvent}
      {contents : SsdContents}
      (history : SsdHistory geometry events contents)
      (call : SsdCall) :
      SsdHistory geometry (events ++ [.completed call])
        (contents.after (ssdExecute geometry events) call)
  | dropped
      {events : List SsdEvent}
      {contents : SsdContents}
      (history : SsdHistory geometry events contents)
      (call : SsdCall)
      (count : Nat) :
      SsdHistory geometry (events ++ [.killed call count]) contents
  | applied
      {events : List SsdEvent}
      {contents : SsdContents}
      (history : SsdHistory geometry events contents)
      (call : SsdCall)
      (count : Nat) :
      SsdHistory geometry (events ++ [.killed call count])
        (contents.after (ssdExecute geometry events) call)

/-- The block that a copy of the intended contents returns. -/
def SsdContents.copy
    (contents : SsdContents)
    (id : BlockId) :
    Option KvBlock :=
  (contents id).map fun held =>
    { id := id, data := held.1, tier := .ssd, insertedEpoch := held.2 }

/-- Total payload of a list of blocks of the intended contents. -/
def SsdContents.payload
    (contents : SsdContents)
    (ids : List BlockId) :
    Nat :=
  (ids.map fun id => ((contents id).elim 0 fun held => held.1.length)).sum

namespace SsdBlockStore

/-- Stores that hold the same blocks return the same copies. -/
theorem Consistent.getCopy_congr
    {first second : SsdBlockStore}
    (firstConsistent : first.Consistent)
    (secondConsistent : second.Consistent)
    (sameBlocks :
      ∀ block,
        SlotFile.Holds first.geometry first.memory block ↔
          SlotFile.Holds second.geometry second.memory block)
    (id : BlockId) :
    first.getCopy id = second.getCopy id := by
  ext block
  rw [firstConsistent.getCopy_eq_some_iff,
    secondConsistent.getCopy_eq_some_iff, sameBlocks]

/-- A `put` performs exactly its listed stores. -/
theorem put_memory
    (store : SsdBlockStore)
    (block : KvBlock) :
    (store.put block).2.memory =
      run store.memory (store.putStores block) := by
  unfold put putStores
  split
  · rfl
  · split
    · rfl
    · cases store.allocSlot with
      | none =>
          rfl
      | some pair =>
          rfl

/-- An `erase` performs exactly its listed stores. -/
theorem erase_memory
    (store : SsdBlockStore)
    (id : BlockId) :
    (store.erase id).2.memory =
      run store.memory (store.eraseStores id) := by
  unfold erase eraseStores
  cases store.index.lookup id with
  | none =>
      rfl
  | some slot =>
      rfl

/-- A `put` that writes at all writes to the front of the free list. -/
theorem Consistent.putStores_cases
    {store : SsdBlockStore}
    (consistent : store.Consistent)
    (block : KvBlock) :
    store.putStores block = [] ∨
      ∃ slot rest,
        store.freeSlots = slot :: rest ∧
          block.data.length ≤ store.geometry.slotPayloadBytes ∧
          store.putStores block =
            storesOf (putFields store.geometry slot block) := by
  unfold putStores
  split
  · exact Or.inl rfl
  · next fits =>
      split
      · exact Or.inl rfl
      · cases free : store.freeSlots with
        | nil =>
            have full :
                ¬ store.bumpNext < store.geometry.totalSlots := by
              rw [consistent.bump_eq]
              exact Nat.lt_irrefl _
            simp [allocSlot, free, full]
        | cons slot rest =>
            refine Or.inr ⟨slot, rest, rfl, Nat.not_lt.mp fits, ?_⟩
            simp [allocSlot, free]

/--
An interrupted `put` leaves a well-formed file that holds either the blocks
from before the call or the blocks from after it.
-/
theorem Consistent.interrupted_put
    {store : SsdBlockStore}
    (consistent : store.Consistent)
    (small : store.geometry.SmallSlots)
    (block : KvBlock)
    {count : Nat}
    {after : Memory}
    (stopped :
      after = run store.memory ((store.putStores block).take count)) :
    SlotFile.WellFormed store.geometry after ∧
      ((∀ held,
          SlotFile.Holds store.geometry after held ↔
            SlotFile.Holds store.geometry store.memory held) ∨
        after = (store.put block).2.memory) := by
  by_cases interrupted : count < (store.putStores block).length
  · rcases consistent.putStores_cases block with
      nothing | ⟨slot, rest, free, fits, written⟩
    · simp [nothing] at interrupted
    · rw [written] at stopped interrupted
      obtain ⟨bound, dead⟩ := consistent.free_head free
      have same :
          SlotFile.SameElsewhere store.geometry store.memory after slot := by
        rw [stopped]
        exact sameElsewhere_take
          (fun _ member => putFields_inside fits member) count
      have stillDead : ¬ SlotFile.Live store.geometry after slot := by
        have magic :
            after (store.geometry.slotOffset slot) =
              store.memory (store.geometry.slotOffset slot) := by
          rw [stopped]
          exact magic_take_put interrupted
        unfold SlotFile.Live SlotFile.header slotHeaderAt at dead ⊢
        rw [magic]
        exact dead
      exact ⟨
        SlotFile.wellFormed_of_elsewhere consistent.file same
          (fun live => (stillDead live).elim)
          (fun live => (stillDead live).elim),
        Or.inl
          (SlotFile.holds_iff_of_dead consistent.file same dead stillDead)⟩
  · have complete : after = (store.put block).2.memory := by
      rw [put_memory, stopped,
        List.take_of_length_le (Nat.not_lt.mp interrupted)]
    refine ⟨?_, Or.inr complete⟩
    rw [complete]
    have wellFormed := (consistent.put small block).file
    rwa [put_geometry] at wellFormed

/--
An interrupted `erase` leaves a well-formed file that holds either the blocks
from before the call or the blocks from after it.
-/
theorem Consistent.interrupted_erase
    {store : SsdBlockStore}
    (consistent : store.Consistent)
    (id : BlockId)
    {count : Nat}
    {after : Memory}
    (stopped :
      after = run store.memory ((store.eraseStores id).take count)) :
    SlotFile.WellFormed store.geometry after ∧
      ((∀ held,
          SlotFile.Holds store.geometry after held ↔
            SlotFile.Holds store.geometry store.memory held) ∨
        ∀ held,
          SlotFile.Holds store.geometry after held ↔
            SlotFile.Holds store.geometry (store.erase id).2.memory held) := by
  rcases Nat.eq_zero_or_pos count with notStarted | started
  · subst notStarted
    rw [List.take_zero, run_nil] at stopped
    subst stopped
    exact ⟨consistent.file, Or.inl fun _ => Iff.rfl⟩
  · cases copied : store.getCopy id with
    | none =>
        have absent : store.index.lookup id = none :=
          AList.lookup_eq_none.mpr
            (consistent.getCopy_eq_none_iff.mp copied)
        simp only [eraseStores, absent, List.take_nil, run_nil] at stopped
        subst stopped
        exact ⟨consistent.file, Or.inl fun _ => Iff.rfl⟩
    | some block =>
        obtain ⟨slot, bound, live, slotId, found, erased⟩ :=
          consistent.erase_of_present copied
        simp only [eraseStores, found] at stopped
        have same :
            SlotFile.SameElsewhere store.geometry store.memory after
              slot := by
          rw [stopped]
          exact sameElsewhere_take
            (fun _ member => eraseFields_inside member) count
        have dead : ¬ SlotFile.Live store.geometry after slot := by
          rw [stopped]
          exact dead_take_erase started
        refine ⟨
          SlotFile.wellFormed_of_elsewhere consistent.file same
            (fun revived => (dead revived).elim)
            (fun revived => (dead revived).elim), Or.inr ?_⟩
        intro held
        rw [erased,
          SlotFile.holds_iff_of_killed consistent.file same bound live dead,
          SlotFile.holds_iff_of_killed consistent.file
            (sameElsewhere_run fun _ member => eraseFields_inside member)
            bound live dead_erase]

end SsdBlockStore

namespace SsdCall

/-- Completed calls keep the bookkeeping in agreement with the file. -/
theorem complete_consistent
    {store : SsdBlockStore}
    (consistent : store.Consistent)
    (small : store.geometry.SmallSlots)
    (call : SsdCall) :
    (call.complete store).Consistent := by
  cases call with
  | put block =>
      exact consistent.put small block
  | erase id =>
      exact consistent.erase id

@[simp] theorem complete_geometry
    (store : SsdBlockStore)
    (call : SsdCall) :
    (call.complete store).geometry = store.geometry := by
  cases call with
  | put block =>
      exact SsdBlockStore.put_geometry store block
  | erase id =>
      exact SsdBlockStore.erase_geometry store id

/--
Killing a call and reopening the file gives a store in agreement with its file
whose copies are those from before the call or those from after it.
-/
theorem killedAt_spec
    {store : SsdBlockStore}
    (consistent : store.Consistent)
    (small : store.geometry.SmallSlots)
    (call : SsdCall)
    (count : Nat) :
    (call.killedAt store count).Consistent ∧
      ((∀ id, (call.killedAt store count).getCopy id = store.getCopy id) ∨
        ∀ id,
          (call.killedAt store count).getCopy id =
            (call.complete store).getCopy id) := by
  have consistentAfter := complete_consistent consistent small call
  cases call with
  | put block =>
      obtain ⟨wellFormed, outcome⟩ :=
        consistent.interrupted_put small block (Eq.refl
          (run store.memory ((store.putStores block).take count)))
      have reopened :=
        SsdBlockStore.rebuildIndexFromMmap_consistent wellFormed
      refine ⟨reopened, ?_⟩
      rcases outcome with sameBlocks | complete
      · exact Or.inl
          (reopened.getCopy_congr consistent sameBlocks)
      · refine Or.inr (reopened.getCopy_congr consistentAfter ?_)
        intro held
        simp only [SsdCall.complete, SsdBlockStore.put_geometry,
          ← complete]
        rfl
  | erase id =>
      obtain ⟨wellFormed, outcome⟩ :=
        consistent.interrupted_erase id (Eq.refl
          (run store.memory ((store.eraseStores id).take count)))
      have reopened :=
        SsdBlockStore.rebuildIndexFromMmap_consistent wellFormed
      refine ⟨reopened, ?_⟩
      rcases outcome with sameBlocks | sameAfter
      · exact Or.inl
          (reopened.getCopy_congr consistent sameBlocks)
      · refine Or.inr (reopened.getCopy_congr consistentAfter ?_)
        intro held
        simp only [SsdCall.complete, SsdBlockStore.erase_geometry]
        exact sameAfter held

end SsdCall

/-! ## The reopened store and the intended contents -/

/-- The store returns copies of exactly the intended contents. -/
def SsdContents.ShownBy
    (contents : SsdContents)
    (store : SsdBlockStore) : Prop :=
  ∀ id, store.getCopy id = contents.copy id

/-- A shown identity is missing from both sides or present on both. -/
theorem SsdContents.ShownBy.none_iff
    {contents : SsdContents}
    {store : SsdBlockStore}
    (shown : contents.ShownBy store)
    (id : BlockId) :
    store.getCopy id = none ↔ contents id = none := by
  rw [shown id]
  simp [copy]

/-- A new file shows no block. -/
theorem SsdContents.shownBy_zero
    (geometry : SsdGeometry) :
    SsdContents.ShownBy (fun _ => none)
      (SsdBlockStore.rebuildIndexFromMmap geometry fun _ => 0) := by
  have consistent :
      (SsdBlockStore.rebuildIndexFromMmap geometry
        fun _ => 0).Consistent :=
    SsdBlockStore.rebuildIndexFromMmap_consistent SlotFile.wellFormed_zero
  intro id
  apply Option.eq_none_iff_forall_ne_some.mpr
  intro block copied
  exact SlotFile.not_holds_zero block
    (consistent.getCopy_eq_some_iff.mp copied).1

/-- A completed call changes the copies as it changes the contents. -/
theorem SsdContents.ShownBy.complete
    {contents : SsdContents}
    {store : SsdBlockStore}
    (shown : contents.ShownBy store)
    (consistent : store.Consistent)
    (small : store.geometry.SmallSlots)
    (call : SsdCall) :
    (contents.after store call).ShownBy (call.complete store) := by
  intro id
  cases call with
  | put block =>
      by_cases accepted : (store.put block).1 = true
      · cases missed : contents block.id with
        | none =>
            have absent := (shown.none_iff block.id).mpr missed
            simp only [SsdCall.complete, after, accepted, missed,
              and_self, ↓reduceIte]
            rw [consistent.getCopy_put_of_accepted small accepted absent]
            by_cases isNew : id = block.id
            · subst isNew
              simp [copy]
            · simp [copy, isNew, shown id]
        | some held =>
            have present :
                store.getCopy block.id = contents.copy block.id :=
              shown block.id
            simp only [copy, missed, Option.map_some] at present
            simp only [SsdCall.complete, after, missed, reduceCtorEq,
              and_false, ↓reduceIte, consistent.sound.put_of_present present]
            exact shown id
      · have rejected : (store.put block).1 = false := by
          simpa using accepted
        simp only [SsdCall.complete, after, rejected, Bool.false_eq_true,
          false_and, ↓reduceIte, SsdBlockStore.put_of_rejected rejected]
        exact shown id
  | erase erased =>
      simp only [SsdCall.complete, after]
      rw [consistent.getCopy_erase]
      by_cases isErased : id = erased
      · subst isErased
        simp [copy]
      · simp [copy, isErased, shown id]

/-- The header of a live slot names a shown block and its payload size. -/
theorem SsdContents.ShownBy.exists_of_live
    {contents : SsdContents}
    {store : SsdBlockStore}
    (shown : contents.ShownBy store)
    (consistent : store.Consistent)
    {slot : Nat}
    (bound : slot < store.geometry.totalSlots)
    (live : SlotFile.Live store.geometry store.memory slot) :
    ∃ held,
      contents (SlotFile.header store.geometry store.memory slot).id =
          some held ∧
        (SlotFile.header store.geometry store.memory slot).payloadSize =
          held.1.length := by
  have copied :
      contents.copy
          (SlotFile.header store.geometry store.memory slot).id =
        some (SlotFile.blockAt store.geometry store.memory slot) := by
    rw [← shown]
    exact consistent.getCopy_eq_some_iff.mpr
      ⟨⟨slot, bound, live, rfl⟩, rfl⟩
  obtain ⟨held, isHeld, isBlock⟩ := Option.map_eq_some_iff.mp copied
  have size := congrArg (fun block => block.data.length) isBlock
  rw [SlotFile.blockAt_length] at size
  exact ⟨held, isHeld, size.symm⟩

/-- The byte counter is the total payload of the shown blocks. -/
theorem SsdContents.ShownBy.usedBytes_eq
    {contents : SsdContents}
    {store : SsdBlockStore}
    (shown : contents.ShownBy store)
    (consistent : store.Consistent)
    {ids : List BlockId}
    (nodup : ids.Nodup)
    (lists : ∀ id, id ∈ ids ↔ (contents id).isSome = true) :
    store.usedBytes = contents.payload ids := by
  have liveOnly :
      store.usedBytes =
        ∑ slot ∈
            (Finset.range store.geometry.totalSlots).filter
              (fun slot =>
                SlotFile.Live store.geometry store.memory slot),
          (SlotFile.header store.geometry store.memory
            slot).payloadSize := by
    rw [consistent.used_eq, Finset.sum_filter]
    rfl
  have overIds :
      contents.payload ids =
        ∑ id ∈ ids.toFinset,
          ((contents id).elim 0 fun held => held.1.length) := by
    rw [List.sum_toFinset _ nodup]
    rfl
  rw [liveOnly, overIds]
  refine Finset.sum_bij
    (fun slot _ =>
      (SlotFile.header store.geometry store.memory slot).id)
    ?_ ?_ ?_ ?_
  · intro slot member
    obtain ⟨inRange, live⟩ := Finset.mem_filter.mp member
    obtain ⟨held, isHeld, _⟩ :=
      shown.exists_of_live consistent (Finset.mem_range.mp inRange) live
    rw [List.mem_toFinset, lists, Option.isSome_iff_exists]
    exact ⟨held, isHeld⟩
  · intro first firstMember second secondMember sameId
    obtain ⟨firstRange, firstLive⟩ := Finset.mem_filter.mp firstMember
    obtain ⟨secondRange, secondLive⟩ := Finset.mem_filter.mp secondMember
    exact consistent.file.slot_unique
      (Finset.mem_range.mp firstRange) (Finset.mem_range.mp secondRange)
      firstLive secondLive sameId
  · intro id member
    rw [List.mem_toFinset, lists, Option.isSome_iff_exists] at member
    obtain ⟨held, isHeld⟩ := member
    have copied :
        store.getCopy id =
          some { id := id, data := held.1, tier := .ssd,
                 insertedEpoch := held.2 } := by
      rw [shown id]
      simp [copy, isHeld]
    obtain ⟨⟨slot, bound, live, isBlock⟩, _⟩ :=
      consistent.getCopy_eq_some_iff.mp copied
    refine ⟨slot, Finset.mem_filter.mpr
      ⟨Finset.mem_range.mpr bound, live⟩, ?_⟩
    exact congrArg KvBlock.id isBlock
  · intro slot member
    obtain ⟨inRange, live⟩ := Finset.mem_filter.mp member
    obtain ⟨held, isHeld, size⟩ :=
      shown.exists_of_live consistent (Finset.mem_range.mp inRange) live
    simp [isHeld, size]

/-- Executing one more event applies it to the store reached before. -/
theorem ssdExecute_append
    (geometry : SsdGeometry)
    (events : List SsdEvent)
    (event : SsdEvent) :
    ssdExecute geometry (events ++ [event]) =
      event.apply (ssdExecute geometry events) := by
  simp [ssdExecute]

/--
After any sequence of completed and killed calls the bookkeeping agrees with
the file, and the store shows contents in which every interrupted call took
effect completely or not at all.
-/
theorem ssdExecute_shows_history
    {geometry : SsdGeometry}
    (small : geometry.SmallSlots)
    (events : List SsdEvent) :
    (ssdExecute geometry events).geometry = geometry ∧
      (ssdExecute geometry events).Consistent ∧
      ∃ contents,
        SsdHistory geometry events contents ∧
          contents.ShownBy (ssdExecute geometry events) := by
  induction events using List.reverseRecOn with
  | nil =>
      exact
        ⟨rfl,
          SsdBlockStore.rebuildIndexFromMmap_consistent
            SlotFile.wellFormed_zero,
          _, .start, SsdContents.shownBy_zero geometry⟩
  | append_singleton events event inductionHypothesis =>
      obtain ⟨sameGeometry, consistent, contents, history, shown⟩ :=
        inductionHypothesis
      have smallNow :
          (ssdExecute geometry events).geometry.SmallSlots := by
        rw [sameGeometry]
        exact small
      rw [ssdExecute_append]
      cases event with
      | completed call =>
          exact ⟨
            (SsdCall.complete_geometry _ call).trans sameGeometry,
            SsdCall.complete_consistent consistent smallNow call,
            _, history.completed call,
            shown.complete consistent smallNow call⟩
      | killed call count =>
          obtain ⟨reopened, outcome⟩ :=
            call.killedAt_spec consistent smallNow count
          refine ⟨sameGeometry, reopened, ?_⟩
          rcases outcome with before | after
          · exact ⟨_, history.dropped call count, fun id =>
              (before id).trans (shown id)⟩
          · exact ⟨_, history.applied call count, fun id =>
              (after id).trans
                (shown.complete consistent smallNow call id)⟩

/--
The SSD store survives a kill at any point: for every sequence of calls, each
completed or killed after any number of its stores and followed by a restart,
the copies returned are exactly the blocks put and not erased, with every
interrupted call done completely or not at all, and the byte counter is their
total payload.
-/
theorem ssd_survives_kills
    (geometry : SsdGeometry)
    (small : geometry.SmallSlots)
    (events : List SsdEvent) :
    ∃ contents,
      SsdHistory geometry events contents ∧
        (∀ id,
          (ssdExecute geometry events).getCopy id = contents.copy id) ∧
        ∀ ids : List BlockId,
          ids.Nodup →
          (∀ id, id ∈ ids ↔ (contents id).isSome = true) →
          (ssdExecute geometry events).usedBytes =
            contents.payload ids := by
  obtain ⟨_, consistent, contents, history, shown⟩ :=
    ssdExecute_shows_history small events
  exact ⟨contents, history, shown, fun _ nodup lists =>
    shown.usedBytes_eq consistent nodup lists⟩

/-- Put a block, kill its erasure after one store, then kill another put. -/
def killedEraseEvents : List SsdEvent :=
  [ .completed (.put { id := ⟨.fill 7, 1, 0, 0⟩, data := [3, 4] }),
    .killed (.erase ⟨.fill 7, 1, 0, 0⟩) 1,
    .killed (.put { id := ⟨.fill 9, 1, 0, 0⟩, data := [5] }) 20 ]

theorem ssd_survives_kills_twoSlots :
    twoSlotGeometry.SmallSlots ∧
      ∃ contents,
        SsdHistory twoSlotGeometry killedEraseEvents contents ∧
          (∀ id,
            (ssdExecute twoSlotGeometry killedEraseEvents).getCopy id =
              contents.copy id) ∧
          ∀ ids : List BlockId,
            ids.Nodup →
            (∀ id, id ∈ ids ↔ (contents id).isSome = true) →
            (ssdExecute twoSlotGeometry killedEraseEvents).usedBytes =
              contents.payload ids :=
  ⟨twoSlotGeometry_small,
    ssd_survives_kills twoSlotGeometry twoSlotGeometry_small
      killedEraseEvents⟩

end Lethe
