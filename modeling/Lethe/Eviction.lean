import Lethe.TieredStore
import Lethe.Library.ClockHand
import Mathlib.Logic.Function.Basic

namespace Lethe

/-!
# Eviction passes

One pass frees a tier down to its low watermark.  A hand walks over a snapshot
of the tier for at most two laps: a visited block loses its bit, any other
block is demoted or, failing that, erased from every tier.  The snapshot comes
from a hash map, so its order is a parameter.
-/

/-- Watermarks in percent of the capacity. -/
structure EvictionConfig where
  highWatermarkPct : Nat := 90
  lowWatermarkPct : Nat := 75
  broadcastEvictions : Bool := true

/-- Settings of the evictor and its persistent hand in each tier. -/
structure Evictor where
  config : EvictionConfig
  hand : Tier → Nat

/-- Summary that a pass returns. -/
structure PassResult where
  hbmEvicted : Nat := 0
  dramEvicted : Nat := 0
  ssdEvicted : Nat := 0
  bytesFreed : Nat := 0
  blocksBroadcast : Nat := 0
  deriving DecidableEq

/-- What the walk of one pass accumulates. -/
structure SweepState where
  store : TieredStore
  freed : Nat
  evicted : List BlockId

/-- The snapshot entry as the walk leaves it behind. -/
def BlockMeta.clearBit
    (entry : BlockMeta) :
    BlockMeta :=
  { entry with visited := false }

/--
Push a victim out of its tier: demote it if the tier has a slower neighbour
that takes it, else erase it everywhere.
-/
def evictBlock
    (store : TieredStore)
    (tier : Tier)
    (entry : BlockMeta) :
    Nat × TieredStore :=
  let demoted :=
    if tier = .ssd then (false, store) else store.demote entry.id
  if demoted.1 then
    (entry.sizeBytes, demoted.2)
  else
    demoted.2.erase entry.id

namespace SweepState

/-- Visit one snapshot entry. -/
def visit
    (tier : Tier)
    (sweep : SweepState)
    (entry : BlockMeta) :
    SweepState :=
  if entry.visited then
    { sweep with store := sweep.store.clearVisited entry.id }
  else
    let removed := evictBlock sweep.store tier entry
    { store := removed.2
      freed := addSize sweep.freed removed.1
      evicted := sweep.evicted ++ [entry.id] }

/-- The walk stops once enough bytes are freed. -/
def done
    (need : Nat)
    (sweep : SweepState) :
    Bool :=
  need ≤ sweep.freed

@[simp] theorem done_iff
    {need : Nat}
    {sweep : SweepState} :
    sweep.done need = true ↔ need ≤ sweep.freed := by
  simp [done]

end SweepState

namespace Evictor

/-- Bytes above which a pass starts evicting. -/
def highWatermark
    (evictor : Evictor)
    (store : TieredStore)
    (tier : Tier) :
    Nat :=
  mulSize (store.capacityBytes tier) evictor.config.highWatermarkPct / 100

/-- Bytes down to which a pass evicts. -/
def lowWatermark
    (evictor : Evictor)
    (store : TieredStore)
    (tier : Tier) :
    Nat :=
  mulSize (store.capacityBytes tier) evictor.config.lowWatermarkPct / 100

/-- The tier is configured and filled beyond the high watermark. -/
def pressure
    (evictor : Evictor)
    (store : TieredStore)
    (tier : Tier) :
    Bool :=
  store.capacityBytes tier ≠ 0 ∧
    store.usedBytes tier ≠ 0 ∧
    evictor.highWatermark store tier < store.usedBytes tier

/-- Bytes that a pass tries to free. -/
def need
    (evictor : Evictor)
    (store : TieredStore)
    (tier : Tier) :
    Nat :=
  subSize (store.usedBytes tier) (evictor.lowWatermark store tier)

/-- The two-lap walk over the snapshot `blocks`. -/
def sweep
    (evictor : Evictor)
    (store : TieredStore)
    (tier : Tier)
    (blocks : List BlockMeta) :
    ClockHand.Scan BlockMeta SweepState :=
  ClockHand.scan
    (SweepState.done (evictor.need store tier))
    (SweepState.visit tier)
    BlockMeta.clearBit
    (2 * blocks.length)
    { entries := blocks
      hand := evictor.hand tier
      state := { store := store, freed := 0, evicted := [] } }

/-- The summary of a pass that evicted the given blocks. -/
def passResult
    (evictor : Evictor)
    (tier : Tier)
    (swept : SweepState) :
    PassResult where
  hbmEvicted := if tier = .hbm then swept.evicted.length else 0
  dramEvicted := if tier = .dram then swept.evicted.length else 0
  ssdEvicted := if tier = .ssd then swept.evicted.length else 0
  bytesFreed := swept.freed
  blocksBroadcast :=
    if evictor.config.broadcastEvictions then swept.evicted.length else 0

/-- One pass over a tier whose snapshot lists `blocks`. -/
def runPassForTier
    (evictor : Evictor)
    (store : TieredStore)
    (tier : Tier)
    (blocks : List BlockMeta) :
    PassResult × Evictor × TieredStore :=
  if evictor.pressure store tier ∧ blocks ≠ [] then
    let swept := evictor.sweep store tier blocks
    (evictor.passResult tier swept.state,
      { evictor with hand := Function.update evictor.hand tier swept.hand },
      swept.state.store)
  else
    ({}, evictor, store)

/-- The snapshot in the order in which the hand meets it. -/
def handOrder
    (evictor : Evictor)
    (tier : Tier)
    (blocks : List BlockMeta) :
    List BlockMeta :=
  blocks.rotate (ClockHand.wrap blocks.length (evictor.hand tier))

/-- A pass folds over two laps of the snapshot in hand order. -/
theorem sweep_state
    (evictor : Evictor)
    (store : TieredStore)
    (tier : Tier)
    (blocks : List BlockMeta) :
    (evictor.sweep store tier blocks).state =
      ClockHand.walk
        (SweepState.done (evictor.need store tier))
        (SweepState.visit tier)
        (evictor.handOrder tier blocks ++
          (evictor.handOrder tier blocks).map BlockMeta.clearBit)
        { store := store, freed := 0, evicted := [] } :=
  ClockHand.scan_two_laps _ _ _ blocks (evictor.hand tier) _

end Evictor

/-! ## Passes are made of the tiered store's own operations -/

/-- A call that a pass makes on the tiered store. -/
inductive EvictorCall where
  | clearVisited (id : BlockId)
  | demote (id : BlockId)
  | erase (id : BlockId)
  deriving DecidableEq

/-- The store after one call of a pass. -/
def EvictorCall.apply
    (store : TieredStore) : EvictorCall → TieredStore
  | .clearVisited id => store.clearVisited id
  | .demote id => (store.demote id).2
  | .erase id => (store.erase id).2

/-- Pushing out a victim is a demotion, an erasure, or both in turn. -/
theorem evictBlock_calls
    (store : TieredStore)
    (tier : Tier)
    (entry : BlockMeta) :
    ∃ calls : List EvictorCall,
      (evictBlock store tier entry).2 =
        calls.foldl EvictorCall.apply store := by
  unfold evictBlock
  by_cases slowest : tier = .ssd
  · rw [if_pos slowest]
    exact ⟨[.erase entry.id], rfl⟩
  · rw [if_neg slowest]
    dsimp only
    split
    · exact ⟨[.demote entry.id], rfl⟩
    · exact ⟨[.demote entry.id, .erase entry.id], rfl⟩

/-- A whole pass is a sequence of such calls. -/
theorem Evictor.runPassForTier_calls
    (evictor : Evictor)
    (store : TieredStore)
    (tier : Tier)
    (blocks : List BlockMeta) :
    ∃ calls : List EvictorCall,
      (evictor.runPassForTier store tier blocks).2.2 =
        calls.foldl EvictorCall.apply store := by
  have visited
      (sweep : SweepState)
      (entry : BlockMeta)
      (reached :
        ∃ calls : List EvictorCall,
          sweep.store = calls.foldl EvictorCall.apply store) :
      ∃ calls : List EvictorCall,
        (sweep.visit tier entry).store =
          calls.foldl EvictorCall.apply store := by
    obtain ⟨earlier, reached⟩ := reached
    unfold SweepState.visit
    split
    · refine ⟨earlier ++ [.clearVisited entry.id], ?_⟩
      rw [List.foldl_append, ← reached]
      rfl
    · obtain ⟨calls, evicted⟩ := evictBlock_calls sweep.store tier entry
      refine ⟨earlier ++ calls, ?_⟩
      rw [List.foldl_append, ← reached]
      exact evicted
  unfold Evictor.runPassForTier
  split
  · simp only [evictor.sweep_state]
    exact
      ClockHand.walk_preserves
        (fun sweep : SweepState =>
          ∃ calls : List EvictorCall,
            sweep.store = calls.foldl EvictorCall.apply store)
        visited _ ⟨[], rfl⟩
  · exact ⟨[], rfl⟩

namespace TieredStore.Stable

variable {holds : TieredStore → Prop}

/-- Pushing out a victim. -/
theorem evictBlock
    (stable : Stable holds)
    {store : TieredStore}
    (before : holds store)
    (tier : Tier)
    (entry : BlockMeta) :
    holds (evictBlock store tier entry).2 := by
  unfold Lethe.evictBlock
  by_cases slowest : tier = .ssd
  · rw [if_pos slowest]
    exact stable.erase before entry.id
  · rw [if_neg slowest]
    have demoted := stable.demote before entry.id
    dsimp only
    split
    · exact demoted
    · exact stable.erase demoted entry.id

/-- Visiting one snapshot entry. -/
theorem visit
    (stable : Stable holds)
    {sweep : SweepState}
    (before : holds sweep.store)
    (tier : Tier)
    (entry : BlockMeta) :
    holds (sweep.visit tier entry).store := by
  unfold SweepState.visit
  split
  · exact stable.clearVisited before entry.id
  · exact stable.evictBlock before tier entry

/-- Walks over any list of entries. -/
theorem walk
    (stable : Stable holds)
    {sweep : SweepState}
    (before : holds sweep.store)
    (need : Nat)
    (tier : Tier)
    (entries : List BlockMeta) :
    holds
      (ClockHand.walk (SweepState.done need) (SweepState.visit tier)
        entries sweep).store :=
  ClockHand.walk_preserves
    (fun current : SweepState => holds current.store)
    (fun _ entry held => stable.visit held tier entry)
    entries before

/-- Whole passes. -/
theorem runPassForTier
    (stable : Stable holds)
    {store : TieredStore}
    (before : holds store)
    (evictor : Evictor)
    (tier : Tier)
    (blocks : List BlockMeta) :
    holds (evictor.runPassForTier store tier blocks).2.2 := by
  unfold Evictor.runPassForTier
  split
  · simp only [evictor.sweep_state]
    exact stable.walk before _ _ _
  · exact before

end TieredStore.Stable

end Lethe
