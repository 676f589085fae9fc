import Lethe.EvictionPass
import Lethe.TierAccounting

namespace Lethe

/-!
# Runs of calls into a tiered store

Calls of a store and whole eviction passes, executed one after another.  What
every move inside the store keeps is kept by a run; with capacities and
payloads below 2^63 no counter wraps, so after every call the counters are the
sums of what the tiers list and stay within the capacities.
-/

/--
One call of a store, or one eviction pass with any evictor over any listing of
a tier.
-/
inductive StoreCall where
  | put (block : KvBlock) (hint : Tier)
  | get (id : BlockId)
  | demote (id : BlockId)
  | erase (id : BlockId)
  | pass (evictor : Evictor) (tier : Tier) (blocks : List BlockMeta)

/-- The store after a call. -/
def StoreCall.apply
    (store : TieredStore) : StoreCall → TieredStore
  | .put block hint => (store.put block hint).2
  | .get id => (store.get id).2
  | .demote id => (store.demote id).2
  | .erase id => (store.erase id).2
  | .pass evictor tier blocks =>
      (evictor.runPassForTier store tier blocks).2.2

/-- The store after some calls on a new store over an empty file. -/
def storeAfter
    (config : TieredStoreConfig)
    (calls : List StoreCall) :
    TieredStore :=
  calls.foldl StoreCall.apply (TieredStore.create config fun _ => 0)

namespace TieredStore

/-- What moves keep is kept by a call if its insertion keeps it. -/
theorem Stable.apply
    {holds : TieredStore → Prop}
    (stable : Stable holds)
    {store : TieredStore}
    (before : holds store)
    {call : StoreCall}
    (inserted :
      ∀ block hint,
        call = .put block hint →
        holds (store.put block hint).2) :
    holds (call.apply store) := by
  cases call with
  | put block hint =>
      exact inserted block hint rfl
  | get id =>
      exact stable.get before id
  | demote id =>
      exact stable.demote before id
  | erase id =>
      exact stable.erase before id
  | pass evictor tier blocks =>
      exact stable.runPassForTier before evictor tier blocks

/-- A new store over an empty file is consistent. -/
theorem create_zero_consistent
    {config : TieredStoreConfig}
    (small :
      ∀ geometry, config.ssd = some geometry → geometry.SmallSlots) :
    (create config fun _ => 0).SsdConsistent :=
  (create_zero_copies config small fun _ _ => True).consistent

/-- Half the range of a counter. -/
def halfRange : Nat :=
  2 ^ 63

/-- Exact counters, and capacities that leave room for one more block. -/
structure Sized
    (store : TieredStore) : Prop where
  accounted : store.Accounted
  capacities : ∀ tier, store.capacityBytes tier < halfRange

namespace Sized

variable {store : TieredStore}

/-- Counters have room for one more block. -/
theorem noWrap
    (sized : store.Sized)
    {length : Nat}
    (bounded : length < halfRange)
    (tier : Tier) :
    store.usedBytes tier + length < sizeRange := by
  have used := sized.accounted.usedBytes_le tier
  have capacity := sized.capacities tier
  unfold halfRange at bounded capacity
  unfold sizeRange
  omega

/-- Insertions of blocks below half the range. -/
theorem putToTier
    (sized : store.Sized)
    {block : KvBlock}
    (bounded : block.data.length < halfRange)
    (tier : Tier) :
    (store.putToTier block tier).2.Sized where
  accounted := sized.accounted.putToTier (sized.noWrap bounded tier)
  capacities query := by
    rw [capacityBytes_putToTier]
    exact sized.capacities query

/-- A held block is below half the range. -/
theorem length_lt
    (sized : store.Sized)
    {tier : Tier}
    {id : BlockId}
    {data : List UInt8}
    (held : store.copy tier id = some data) :
    data.length < halfRange :=
  Nat.lt_of_le_of_lt (sized.accounted.length_le held)
    (sized.capacities tier)

/-- Insertions into the first tier that has room. -/
theorem put
    (sized : store.Sized)
    {block : KvBlock}
    (bounded : block.data.length < halfRange)
    (hint : Tier) :
    (store.put block hint).2.Sized := by
  rcases store.put_cases block hint with unplaced | ⟨tier, _, placed⟩
  · rwa [unplaced]
  · rw [placed]
    exact sized.putToTier bounded tier

end Sized

/-- Moves keep the counters exact. -/
theorem sized_stable : Stable Sized where
  recordHit sized _ :=
    ⟨⟨sized.accounted.hbm, sized.accounted.dram, sized.accounted.ssd⟩,
      sized.capacities⟩
  clearVisited sized id :=
    ⟨sized.accounted.clearVisited id, sized.capacities⟩
  forget sized id :=
    ⟨sized.accounted.forget id, sized.capacities⟩
  eraseFromTier sized id tier :=
    ⟨sized.accounted.eraseFromTier id tier, fun query => by
      rw [capacityBytes_eraseFromTier]
      exact sized.capacities query⟩
  relocate sized _ _ _ held target :=
    sized.putToTier (sized.length_lt held) target

end TieredStore

open TieredStore

/-- Every run of calls with small payloads keeps the counters exact. -/
theorem storeAfter_sized
    {config : TieredStoreConfig}
    (small :
      ∀ geometry, config.ssd = some geometry → geometry.SmallSlots)
    (capacities :
      ∀ tier, (storeAfter config []).capacityBytes tier < halfRange)
    {calls : List StoreCall}
    (payloads :
      ∀ block hint,
        .put block hint ∈ calls →
        block.data.length < halfRange) :
    (storeAfter config calls).Sized := by
  have initial : (storeAfter config []).Sized := by
    have consistent := create_zero_consistent small
    have dramFits : config.dramBytes < sizeRange :=
      (capacities .dram).trans (by decide)
    have hbmFits : config.hbmBytes < sizeRange := by
      have bound := capacities .hbm
      by_cases enabled : 0 < config.hbmBytes
      · simp only [storeAfter, List.foldl_nil, capacityBytes, create,
          enabled, ↓reduceIte, Option.map_some, Option.getD_some] at bound
        exact bound.trans (by decide)
      · exact Nat.lt_of_le_of_lt (Nat.not_lt.mp enabled) (by decide)
    exact ⟨.create hbmFits dramFits consistent, capacities⟩
  refine List.foldlRecOn calls StoreCall.apply initial ?_
  intro store sized call member
  refine sized_stable.apply sized ?_
  intro block hint isPut
  subst isPut
  exact sized.put (payloads block hint member) hint

/-- An erasure lowers the counters by what all tiers held. -/
theorem TieredStore.Accounted.usedIn_erase
    {store : TieredStore}
    (accounted : store.Accounted)
    (id : BlockId) :
    (store.erase id).2.usedIn allTiers + store.heldInAll id =
      store.usedIn allTiers := by
  have hbm := (accounted.accountedIn .hbm).usedBytes_erase id
  have dram := (accounted.accountedIn .dram).usedBytes_erase id
  have ssd := (accounted.accountedIn .ssd).usedBytes_erase id
  simp only [allTiers, usedIn_cons, usedIn_nil, heldInAll]
  omega

/--
After every run of calls, every tier's counter is the sum of the sizes it
lists, it lists each id it holds once, and the counter respects the capacity.
An erasure returns the total decrease of the counters as a 64-bit number,
which is the decrease itself if the capacities together are below 2^64.
-/
theorem store_runs_account_exactly
    {config : TieredStoreConfig}
    (small :
      ∀ geometry, config.ssd = some geometry → geometry.SmallSlots)
    (capacities :
      ∀ tier, (storeAfter config []).capacityBytes tier < halfRange)
    {calls : List StoreCall}
    (payloads :
      ∀ block hint,
        .put block hint ∈ calls →
        block.data.length < halfRange) :
    let store := storeAfter config calls
    (∀ tier,
      store.usedBytes tier =
          ((store.snapshot tier).map BlockMeta.sizeBytes).sum ∧
        ((store.snapshot tier).map BlockMeta.id).Nodup ∧
        (∀ id,
          id ∈ (store.snapshot tier).map BlockMeta.id ↔
            (store.copy tier id).isSome = true) ∧
        store.usedBytes tier ≤ store.capacityBytes tier) ∧
    ∀ id,
      (store.erase id).2.usedIn allTiers ≤ store.usedIn allTiers ∧
        (store.erase id).1 =
          (store.usedIn allTiers - (store.erase id).2.usedIn allTiers) %
            sizeRange ∧
        (store.capacityIn allTiers < sizeRange →
          (store.erase id).1 =
            store.usedIn allTiers -
              (store.erase id).2.usedIn allTiers) := by
  intro store
  have accounted : store.Accounted :=
    (storeAfter_sized small capacities payloads).accounted
  refine ⟨?_, ?_⟩
  · intro tier
    exact
      ⟨accounted.usedBytes_eq_snapshot tier,
        store.snapshot_ids_nodup tier,
        fun id => mem_snapshot_ids accounted.ssd,
        accounted.usedBytes_le tier⟩
  · intro id
    have lowered := accounted.usedIn_erase id
    have freed := accounted.ssd.erase_fst id
    have decrease :
        store.usedIn allTiers - (store.erase id).2.usedIn allTiers =
          store.heldInAll id := by
      omega
    refine ⟨by omega, by rw [freed, decrease], ?_⟩
    intro together
    have used : store.usedIn allTiers ≤ store.capacityIn allTiers := by
      have hbm := accounted.usedBytes_le .hbm
      have dram := accounted.usedBytes_le .dram
      have ssd := accounted.usedBytes_le .ssd
      simp only [allTiers, usedIn_cons, usedIn_nil, capacityIn_cons,
        capacityIn_nil]
      omega
    rw [freed, decrease]
    exact Nat.mod_eq_of_lt (by omega)

/-- Two tiers of almost half the range, and two slots. -/
def hugeConfig : TieredStoreConfig where
  hbmBytes := halfRange - 1
  dramBytes := halfRange - 1
  ssd := some twoSlotGeometry

/-- The same id is put into all three tiers. -/
def tripleCalls
    (data : List UInt8) :
    List StoreCall :=
  [ .put { id := smallId, data := data } .hbm,
    .put { id := smallId, data := data } .dram,
    .put { id := smallId, data := [1, 2] } .ssd ]

/-- A payload of almost half the range. -/
def hugePayload : List UInt8 :=
  List.replicate (halfRange - 1) 0

theorem hugeConfig_small :
    ∀ geometry,
      hugeConfig.ssd = some geometry → geometry.SmallSlots := by
  intro geometry present
  cases present
  exact twoSlotGeometry_small

theorem hugeConfig_capacities
    (tier : Tier) :
    (storeAfter hugeConfig []).capacityBytes tier < halfRange := by
  cases tier <;> decide

theorem tripleCalls_payloads
    {data : List UInt8}
    (length_eq : data.length = halfRange - 1) :
    ∀ block hint,
      .put block hint ∈ tripleCalls data →
      block.data.length < halfRange := by
  intro block hint member
  simp only [tripleCalls, List.mem_cons, StoreCall.put.injEq,
    List.not_mem_nil, or_false] at member
  rcases member with ⟨isBlock, _⟩ | ⟨isBlock, _⟩ | ⟨isBlock, _⟩
  · subst isBlock
    rw [length_eq]
    decide
  · subst isBlock
    rw [length_eq]
    decide
  · subst isBlock
    decide

/-- The three insertions leave a copy in every tier. -/
theorem tripleCalls_held
    {data : List UInt8}
    (length_eq : data.length = halfRange - 1) :
    (storeAfter hugeConfig (tripleCalls data)).heldInAll smallId =
      sizeRange := by
  have empty : (storeAfter hugeConfig []).SsdConsistent :=
    create_zero_consistent hugeConfig_small
  have fits : addSize 0 data.length ≤ halfRange - 1 := by
    rw [length_eq]
    decide
  have first :
      ((storeAfter hugeConfig []).putToTier
        { id := smallId, data := data } .hbm).1 = true :=
    putToTier_accepted_iff.mpr ⟨_, rfl, Or.inr fits⟩
  have afterFirst := empty.putToTier { id := smallId, data := data } .hbm
  have second :
      (((storeAfter hugeConfig []).putToTier
        { id := smallId, data := data } .hbm).2.putToTier
          { id := smallId, data := data } .dram).1 = true :=
    putToTier_accepted_iff.mpr (Or.inr fits)
  have afterSecond :=
    afterFirst.putToTier { id := smallId, data := data } .dram
  have third :
      ((((storeAfter hugeConfig []).putToTier
        { id := smallId, data := data } .hbm).2.putToTier
          { id := smallId, data := data } .dram).2.putToTier
            { id := smallId, data := [1, 2] } .ssd).1 = true :=
    putToTier_accepted_iff.mpr
      ⟨_, rfl, by decide, Or.inr (Or.inl (by decide))⟩
  have reached :
      storeAfter hugeConfig (tripleCalls data) =
        ((((storeAfter hugeConfig []).putToTier
          { id := smallId, data := data } .hbm).2.putToTier
            { id := smallId, data := data } .dram).2.putToTier
              { id := smallId, data := [1, 2] } .ssd).2 := by
    change
      ((((storeAfter hugeConfig []).put
        { id := smallId, data := data } .hbm).2.put
          { id := smallId, data := data } .dram).2.put
            { id := smallId, data := [1, 2] } .ssd).2 = _
    rw [put_of_hint first, put_of_hint second, put_of_hint third]
  have absent (tier : Tier) :
      (storeAfter hugeConfig []).copy tier smallId = none := by
    cases tier <;> rfl
  rw [reached]
  simp only [heldInAll, heldBytes,
    copy_putToTier_of_accepted afterSecond third,
    copy_putToTier_of_accepted afterFirst second,
    copy_putToTier_of_accepted empty first, absent]
  simp [length_eq, halfRange, sizeRange]

/--
An id with almost 2^63 bytes in each of two tiers and two bytes in the third:
erasing it lowers the counters by 2^64 bytes together and returns zero.
-/
theorem erase_wraps_over_three_tiers :
    (∀ geometry,
      hugeConfig.ssd = some geometry → geometry.SmallSlots) ∧
    (∀ tier, (storeAfter hugeConfig []).capacityBytes tier < halfRange) ∧
    (∀ block hint,
      .put block hint ∈ tripleCalls hugePayload →
      block.data.length < halfRange) ∧
    let store := storeAfter hugeConfig (tripleCalls hugePayload)
    (store.erase smallId).1 = 0 ∧
      store.usedIn allTiers - (store.erase smallId).2.usedIn allTiers =
        sizeRange := by
  have length_eq : hugePayload.length = halfRange - 1 :=
    List.length_replicate
  have payloads := tripleCalls_payloads length_eq
  have held := tripleCalls_held length_eq
  have accounted :=
    (storeAfter_sized hugeConfig_small hugeConfig_capacities
      payloads).accounted
  have lowered := accounted.usedIn_erase smallId
  refine ⟨hugeConfig_small, hugeConfig_capacities, payloads, ?_, ?_⟩
  · rw [accounted.ssd.erase_fst, held, Nat.mod_self]
  · omega

/-- Tiers of ten bytes each over two slots. -/
def tenByteConfig : TieredStoreConfig where
  hbmBytes := 10
  dramBytes := 10
  ssd := some twoSlotGeometry

theorem tenByteConfig_small :
    ∀ geometry,
      tenByteConfig.ssd = some geometry → geometry.SmallSlots := by
  intro geometry present
  cases present
  exact twoSlotGeometry_small

/-- Two insertions, a read and an erasure. -/
def shortCalls : List StoreCall :=
  [ .put { id := smallId, data := [7] } .hbm,
    .get smallId,
    .put { id := largeId, data := List.replicate 9 8 } .dram,
    .erase largeId ]

/-- The accounts after a short run in small tiers. -/
theorem store_runs_account_exactly_small :
    let store := storeAfter tenByteConfig shortCalls
    store.usedBytes .hbm =
        ((store.snapshot .hbm).map BlockMeta.sizeBytes).sum ∧
      (store.erase smallId).1 =
        store.usedIn allTiers -
          (store.erase smallId).2.usedIn allTiers := by
  have capacities :
      ∀ tier,
        (storeAfter tenByteConfig []).capacityBytes tier < halfRange := by
    intro tier
    cases tier <;> decide
  have payloads :
      ∀ block hint,
        .put block hint ∈ shortCalls →
        block.data.length < halfRange := by
    intro block hint member
    simp only [shortCalls, List.mem_cons, StoreCall.put.injEq,
      reduceCtorEq, List.not_mem_nil, or_false, false_or] at member
    rcases member with ⟨isBlock, _⟩ | ⟨isBlock, _⟩ <;>
      subst isBlock <;> decide
  have exactly :=
    store_runs_account_exactly tenByteConfig_small capacities payloads
  exact ⟨(exactly.1 .hbm).1, (exactly.2 smallId).2.2 (by decide +kernel)⟩

end Lethe
