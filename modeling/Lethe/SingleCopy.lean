import Lethe.Library.LabelledRun
import Lethe.StoreRuns

namespace Lethe

/-!
# How many tiers hold a block

Reads, demotions, erasures and eviction passes move a block from the one tier
that holds it to one other tier.  An insertion only asks the tiers one by one
whether they have room: a tier that lacks the block takes it although another
tier holds it.  A run keeps one copy of every block exactly if no insertion
lands beside a copy in another tier.
-/

namespace TieredStore

/-- No block is in two tiers. -/
def OneCopy
    (store : TieredStore) : Prop :=
  ∀ id first second,
    (store.copy first id).isSome = true →
    (store.copy second id).isSome = true →
    first = second

/-- Moving the one copy of a block leaves one copy. -/
theorem OneCopy.move
    {store : TieredStore}
    (oneCopy : store.OneCopy)
    (consistent : store.SsdConsistent)
    {id : BlockId}
    {data : List UInt8}
    {source target : Tier}
    (held : store.copy source id = some data)
    (accepted :
      (store.putToTier (relocated id data target) target).1 = true) :
    (store.move (relocated id data target) target source).OneCopy := by
  have onlySource {tier : Tier}
      (holds : (store.copy tier id).isSome = true) :
      tier = source :=
    oneCopy id tier source holds (by simp [held])
  have onlyTarget {tier : Tier} {other : BlockId}
      (holds :
        ((store.move (relocated id data target) target source).copy
          tier other).isSome = true) :
      other = id ∧ tier = target ∨
        other ≠ id ∧ (store.copy tier other).isSome = true := by
    rw [copy_move consistent accepted, relocated_id] at holds
    split at holds
    · simp at holds
    · next notErased =>
        split at holds
        · next isTarget =>
            exact Or.inl ⟨isTarget.2, isTarget.1⟩
        · by_cases same : other = id
          · subst same
            exact absurd ⟨onlySource holds, rfl⟩ notErased
          · exact Or.inr ⟨same, holds⟩
  intro other first second holdsFirst holdsSecond
  rcases onlyTarget holdsFirst with
    ⟨isMoved, firstTarget⟩ | ⟨different, inFirst⟩
  · rcases onlyTarget holdsSecond with
      ⟨_, secondTarget⟩ | ⟨different, _⟩
    · rw [firstTarget, secondTarget]
    · exact absurd isMoved different
  · rcases onlyTarget holdsSecond with ⟨isMoved, _⟩ | ⟨_, inSecond⟩
    · exact absurd isMoved different
    · exact oneCopy _ _ _ inFirst inSecond

/-- A read keeps one copy. -/
theorem OneCopy.get
    {store : TieredStore}
    (oneCopy : store.OneCopy)
    (consistent : store.SsdConsistent)
    (id : BlockId) :
    (store.get id).2.OneCopy := by
  rcases store.get_cases id with
    ⟨missed, _⟩ | ⟨data, found, _, read⟩ |
      ⟨data, found, target, held, _, accepted, read⟩
  · rwa [missed]
  · rw [read]
    exact oneCopy
  · rw [read]
    have recorded : (store.recordHit id).OneCopy := oneCopy
    exact recorded.move (ssdConsistent_stable.recordHit consistent id)
      held accepted

/-- A demotion keeps one copy. -/
theorem OneCopy.demote
    {store : TieredStore}
    (oneCopy : store.OneCopy)
    (consistent : store.SsdConsistent)
    (id : BlockId) :
    (store.demote id).2.OneCopy := by
  rcases store.demote_cases id with
    stays | ⟨data, source, target, held, _, accepted, moved⟩
  · rwa [stays]
  · rw [moved]
    exact oneCopy.move consistent held accepted

/-- An erasure keeps one copy. -/
theorem OneCopy.erase
    {store : TieredStore}
    (oneCopy : store.OneCopy)
    (consistent : store.SsdConsistent)
    (erased : BlockId) :
    (store.erase erased).2.OneCopy := by
  intro id first second holdsFirst holdsSecond
  rw [copy_erase consistent] at holdsFirst holdsSecond
  split at holdsFirst
  · simp at holdsFirst
  · next different =>
      rw [if_neg different] at holdsSecond
      exact oneCopy _ _ _ holdsFirst holdsSecond

/-- An eviction pass keeps one copy. -/
theorem OneCopy.runPassForTier
    {store : TieredStore}
    (oneCopy : store.OneCopy)
    (consistent : store.SsdConsistent)
    (evictor : Evictor)
    (tier : Tier)
    (blocks : List BlockMeta) :
    (evictor.runPassForTier store tier blocks).2.2.OneCopy := by
  obtain ⟨calls, executed⟩ :=
    evictor.runPassForTier_calls store tier blocks
  rw [executed]
  have both :
      (calls.foldl EvictorCall.apply store).SsdConsistent ∧
        (calls.foldl EvictorCall.apply store).OneCopy := by
    refine List.foldlRecOn calls EvictorCall.apply
      (motive := fun current => current.SsdConsistent ∧ current.OneCopy)
      ⟨consistent, oneCopy⟩ ?_
    rintro current ⟨consistentNow, oneNow⟩ call _
    cases call with
    | clearVisited id =>
        exact
          ⟨ssdConsistent_stable.clearVisited consistentNow id, oneNow⟩
    | demote id =>
        exact
          ⟨ssdConsistent_stable.demote consistentNow id,
            oneNow.demote consistentNow id⟩
    | erase id =>
        exact
          ⟨ssdConsistent_stable.erase consistentNow id,
            oneNow.erase consistentNow id⟩
  exact both.2

/--
An insertion leaves one copy of every block exactly if no tier but the one that
takes the block holds it.
-/
theorem OneCopy.put_iff
    {store : TieredStore}
    (oneCopy : store.OneCopy)
    (consistent : store.SsdConsistent)
    (block : KvBlock)
    (hint : Tier) :
    (store.put block hint).2.OneCopy ↔
      ∀ tier other,
        store.takingTier block hint = some tier →
        (store.copy other block.id).isSome = true →
        other = tier := by
  rw [put_eq_takingTier]
  cases takes : store.takingTier block hint with
  | none =>
      simpa using oneCopy
  | some tier =>
      have copies :=
        copy_putToTier_of_accepted consistent
          (accepted_of_takingTier takes)
      constructor
      · intro after taking other isTaking holds
        cases isTaking
        refine after block.id other tier ?_ ?_
        · rw [copies]
          split
          · rfl
          · exact holds
        · simp [copies]
      · intro alone id first second holdsFirst holdsSecond
        have onlyTaking {query : Tier}
            (holds :
              ((store.putToTier block tier).2.copy query id).isSome = true) :
            id = block.id ∧ query = tier ∨
              id ≠ block.id ∧ (store.copy query id).isSome = true := by
          rw [copies] at holds
          split at holds
          · next isTaking =>
              exact Or.inl ⟨isTaking.2, isTaking.1⟩
          · by_cases same : id = block.id
            · subst same
              exact Or.inl ⟨rfl, alone tier query rfl holds⟩
            · exact Or.inr ⟨same, holds⟩
        rcases onlyTaking holdsFirst with
          ⟨isBlock, firstTaking⟩ | ⟨different, inFirst⟩
        · rcases onlyTaking holdsSecond with
            ⟨_, secondTaking⟩ | ⟨different, _⟩
          · rw [firstTaking, secondTaking]
          · exact absurd isBlock different
        · rcases onlyTaking holdsSecond with ⟨isBlock, _⟩ | ⟨_, inSecond⟩
          · exact absurd isBlock different
          · exact oneCopy _ _ _ inFirst inSecond

end TieredStore

/-- An inserted block is in no tier but the one that takes it. -/
def StoreCall.LandsAlone
    (store : TieredStore) : StoreCall → Prop
  | .put block hint =>
      ∀ tier other,
        store.takingTier block hint = some tier →
        (store.copy other block.id).isSome = true →
        other = tier
  | _ => True

open TieredStore

/-- A call leaves one copy of every block exactly if it lands alone. -/
theorem StoreCall.oneCopy_apply_iff
    {store : TieredStore}
    (consistent : store.SsdConsistent)
    (oneCopy : store.OneCopy)
    (call : StoreCall) :
    (call.apply store).OneCopy ↔ call.LandsAlone store := by
  cases call with
  | put block hint =>
      exact oneCopy.put_iff consistent block hint
  | get id =>
      exact iff_of_true (oneCopy.get consistent id) trivial
  | demote id =>
      exact iff_of_true (oneCopy.demote consistent id) trivial
  | erase id =>
      exact iff_of_true (oneCopy.erase consistent id) trivial
  | pass evictor tier blocks =>
      exact iff_of_true
        (oneCopy.runPassForTier consistent evictor tier blocks) trivial

/-- Calls keep the file consistent. -/
theorem StoreCall.consistent_apply
    {store : TieredStore}
    (consistent : store.SsdConsistent)
    (call : StoreCall) :
    (call.apply store).SsdConsistent := by
  refine ssdConsistent_stable.apply consistent ?_
  intro block hint _
  exact consistent.put block hint

/-- A new store over an empty file holds nothing. -/
theorem create_zero_copy
    {config : TieredStoreConfig}
    (small :
      ∀ geometry, config.ssd = some geometry → geometry.SmallSlots)
    (tier : Tier)
    (id : BlockId) :
    (create config fun _ => 0).copy tier id = none := by
  cases held : (create config fun _ => 0).copy tier id with
  | none =>
      rfl
  | some data =>
      exact
        ((create_zero_copies config small fun _ _ => False).every
          held).elim

/--
In a run from empty tiers every block is in at most one tier after every call
exactly if every insertion lands in a tier while no other tier holds the block.
-/
theorem store_runs_keep_one_copy_iff
    {config : TieredStoreConfig}
    (small :
      ∀ geometry, config.ssd = some geometry → geometry.SmallSlots)
    (calls : List StoreCall) :
    (∀ earlier,
      earlier <+: calls →
      (storeAfter config earlier).OneCopy) ↔
    ∀ earlier call,
      earlier ++ [call] <+: calls →
      call.LandsAlone (storeAfter config earlier) := by
  refine EventRun.good_at_prefixes_iff
    (fun consistent => StoreCall.consistent_apply consistent _)
    (fun consistent oneCopy =>
      StoreCall.oneCopy_apply_iff consistent oneCopy _)
    (create_zero_consistent small) ?_
  intro id first second holdsFirst
  rw [create_zero_copy small] at holdsFirst
  simp at holdsFirst

/--
A block put into HBM and then put again with DRAM as the hint is in both
tiers.
-/
theorem put_beside_copy_in_other_tier :
    let store :=
      storeAfter tenByteConfig
        [ .put { id := smallId, data := [7] } .hbm,
          .put { id := smallId, data := [7] } .dram ]
    (store.copy .hbm smallId).isSome = true ∧
      (store.copy .dram smallId).isSome = true := by
  decide +kernel

/-- A short run whose insertions land alone keeps one copy. -/
theorem store_runs_keep_one_copy_iff_short :
    (storeAfter tenByteConfig shortCalls).OneCopy := by
  refine
    (store_runs_keep_one_copy_iff tenByteConfig_small shortCalls).mpr
      (EventRun.conditions_cons ?_
        (EventRun.conditions_cons trivial
          (EventRun.conditions_cons ?_
            (EventRun.conditions_cons trivial EventRun.conditions_nil))))
      shortCalls List.prefix_rfl
  · intro tier other _ holds
    rw [create_zero_copy tenByteConfig_small] at holds
    simp at holds
  · intro tier other _ holds
    cases other <;> exact absurd holds (by decide +kernel)

end Lethe
