import Lethe.TieredStore

namespace Lethe

/-!
# Demotion is all or nothing

A demotion copies a block from the fastest tier that holds it into a slower
tier and drops the old copy, or it changes nothing.  The copy has the same
bytes unless the block has 4 GiB or more and goes to a new slot of the file,
whose header has 32 bits for the size.
-/

/-- Position of a tier, the fastest first. -/
def Tier.depth : Tier → Nat
  | .hbm => 0
  | .dram => 1
  | .ssd => 2

/-- Tiers of the same depth are the same. -/
theorem Tier.depth_injective : Function.Injective Tier.depth := by
  intro first second same
  cases first <;> cases second <;> first | rfl | simp [Tier.depth] at same

namespace TieredStore

/-! ## Where a demotion goes -/

/-- A move of a block to a slower tier. -/
structure Demotion where
  source : Tier
  target : Tier
  data : List UInt8

/-- The move that a demotion makes, if some slower tier has room. -/
def demotion
    (store : TieredStore)
    (id : BlockId) :
    Option Demotion :=
  match store.copy .hbm id with
  | some data =>
      if store.TierHasRoom (relocated id data .dram) .dram then
        some ⟨.hbm, .dram, data⟩
      else if store.TierHasRoom (relocated id data .ssd) .ssd then
        some ⟨.hbm, .ssd, data⟩
      else
        none
  | none =>
      match store.copy .dram id with
      | some data =>
          if store.TierHasRoom (relocated id data .ssd) .ssd then
            some ⟨.dram, .ssd, data⟩
          else
            none
      | none => none

/-- A demotion makes its move or changes nothing. -/
theorem demote_eq_demotion
    (store : TieredStore)
    (id : BlockId) :
    store.demote id =
      match store.demotion id with
      | some moved =>
          (true,
            store.move (relocated id moved.data moved.target) moved.target
              moved.source)
      | none => (false, store) := by
  rw [demote_eq_move]
  unfold demotion
  simp only [putToTier_accepted_iff]
  cases store.copy .hbm id with
  | some data =>
      by_cases toDram : store.TierHasRoom (relocated id data .dram) .dram
      · simp [toDram]
      · by_cases toSsd : store.TierHasRoom (relocated id data .ssd) .ssd
        · simp [toDram, toSsd]
        · simp [toDram, toSsd]
  | none =>
      cases store.copy .dram id with
      | some data =>
          by_cases toSsd : store.TierHasRoom (relocated id data .ssd) .ssd
          · simp [toSsd]
          · simp [toSsd]
      | none =>
          rfl

/-- The tier is the fastest one that holds the block. -/
structure Fastest
    (store : TieredStore)
    (id : BlockId)
    (tier : Tier)
    (data : List UInt8) : Prop where
  held : store.copy tier id = some data
  first : ∀ faster, faster.depth < tier.depth → store.copy faster id = none

/-- A block has one fastest copy. -/
theorem Fastest.unique
    {store : TieredStore}
    {id : BlockId}
    {first second : Tier}
    {data other : List UInt8}
    (one : store.Fastest id first data)
    (two : store.Fastest id second other) :
    first = second ∧ data = other := by
  have notFaster : ¬ first.depth < second.depth := by
    intro faster
    have missing := two.first first faster
    rw [one.held] at missing
    simp at missing
  have notSlower : ¬ second.depth < first.depth := by
    intro faster
    have missing := one.first second faster
    rw [two.held] at missing
    simp at missing
  have sameTier : first = second :=
    Tier.depth_injective (by omega)
  subst sameTier
  exact ⟨rfl, Option.some.inj (one.held.symm.trans two.held)⟩

/-- A move starts in the fastest tier and ends in a slower one with room. -/
theorem demotion_spec
    {store : TieredStore}
    {id : BlockId}
    {moved : Demotion}
    (moves : store.demotion id = some moved) :
    store.Fastest id moved.source moved.data ∧
      moved.source.depth < moved.target.depth ∧
      (store.putToTier (relocated id moved.data moved.target)
        moved.target).1 = true := by
  unfold demotion at moves
  cases inHbm : store.copy .hbm id with
  | some data =>
      simp only [inHbm] at moves
      have fastest : store.Fastest id .hbm data :=
        ⟨inHbm, fun _ faster => absurd faster (Nat.not_lt_zero _)⟩
      split at moves
      · next room =>
          obtain rfl := Option.some.inj moves
          exact
            ⟨fastest, Nat.zero_lt_one, putToTier_accepted_iff.mpr room⟩
      · split at moves
        · next room =>
            obtain rfl := Option.some.inj moves
            exact
              ⟨fastest, Nat.zero_lt_two, putToTier_accepted_iff.mpr room⟩
        · simp at moves
  | none =>
      simp only [inHbm] at moves
      cases inDram : store.copy .dram id with
      | some data =>
          simp only [inDram] at moves
          split at moves
          · next room =>
              obtain rfl := Option.some.inj moves
              refine ⟨⟨inDram, ?_⟩, Nat.one_lt_two,
                putToTier_accepted_iff.mpr room⟩
              intro faster isFaster
              cases faster with
              | hbm =>
                  exact inHbm
              | dram =>
                  simp [Tier.depth] at isFaster
              | ssd =>
                  simp [Tier.depth] at isFaster
          · simp at moves
      | none =>
          simp [inDram] at moves

/-! ## All or nothing -/

/-- All copies of the block have the same bytes. -/
def CopiesAgree
    (store : TieredStore)
    (id : BlockId) : Prop :=
  ∀ first second data other,
    store.copy first id = some data →
    store.copy second id = some other →
    data = other

/--
The block has left the fastest tier that held it for a slower one, with its
bytes; nothing else has changed.
-/
structure MovedDown
    (before after : TieredStore)
    (id : BlockId) : Prop where
  left :
    ∃ source target data,
      before.Fastest id source data ∧
        after.copy source id = none ∧
        source.depth < target.depth ∧
        after.copy target id = some data
  others :
    ∀ other,
      other ≠ id →
      ∀ tier, after.copy tier other = before.copy tier other
  accessCounts : after.accessCounts = before.accessCounts
  visited : after.visited = before.visited

/-- A reported success is a completed move, a reported failure no change. -/
structure DemoteAllOrNothing
    (store : TieredStore)
    (id : BlockId) : Prop where
  succeeded :
    (store.demote id).1 = true → store.MovedDown (store.demote id).2 id
  failed :
    (store.demote id).1 = false → (store.demote id).2 = store

/-- The move writes 4 GiB or more to a new slot of the file. -/
def CutShort
    (store : TieredStore)
    (id : BlockId) : Prop :=
  ∃ moved,
    store.demotion id = some moved ∧
      moved.target = .ssd ∧
      store.copy .ssd id = none ∧
      2 ^ 32 ≤ moved.data.length

/-- A block goes from HBM to the file only if DRAM does not hold it. -/
theorem dram_of_demotion_to_ssd
    {store : TieredStore}
    {id : BlockId}
    {moved : Demotion}
    (moves : store.demotion id = some moved)
    (toSsd : moved.target = .ssd)
    (fromHbm : moved.source = .hbm) :
    store.copy .dram id = none := by
  cases inDram : store.copy .dram id with
  | none =>
      rfl
  | some older =>
      have room :
          ∀ data, store.TierHasRoom (relocated id data .dram) .dram :=
        fun _ => Or.inl (BlockStore.get_isSome.mp (by
          rw [relocated_id]
          exact Option.isSome_iff_exists.mpr ⟨older, inDram⟩))
      have inHbm := (demotion_spec moves).1.held
      rw [fromHbm] at inHbm
      simp only [demotion, inHbm, room, ↓reduceIte, Option.some.injEq]
        at moves
      rw [← moves] at toSsd
      exact Tier.noConfusion toSsd

section Outcome

variable
  {store : TieredStore}
  {id : BlockId}
  {moved : Demotion}
  (sound : store.SsdSound)
  (moves : store.demotion id = some moved)

include sound moves

/-- The block as the target tier holds it after the move. -/
theorem copy_target_of_demotion :
    (store.demote id).2.copy moved.target id =
      some ((store.copy moved.target id).getD
        (storedBytes moved.target moved.data)) := by
  obtain ⟨_, deeper, accepted⟩ := demotion_spec moves
  have different : moved.target ≠ moved.source := by
    intro same
    rw [same] at deeper
    exact Nat.lt_irrefl _ deeper
  rw [demote_eq_demotion, moves, sound.copy_move accepted]
  simp [different]

/-- Copies that the move does not concern. -/
theorem copy_elsewhere_of_demotion
    {tier : Tier}
    {other : BlockId}
    (elsewhere :
      other ≠ id ∨ (tier ≠ moved.source ∧ tier ≠ moved.target)) :
    (store.demote id).2.copy tier other = store.copy tier other := by
  obtain ⟨_, _, accepted⟩ := demotion_spec moves
  rw [demote_eq_demotion, moves, sound.copy_move accepted]
  rcases elsewhere with different | ⟨notSource, notTarget⟩
  · simp [different]
  · simp [notSource, notTarget]

/-- A move is complete if the target holds the bytes that were moved. -/
theorem movedDown_of_copy
    (arrived :
      (store.demote id).2.copy moved.target id = some moved.data) :
    store.MovedDown (store.demote id).2 id := by
  obtain ⟨fastest, deeper, accepted⟩ := demotion_spec moves
  refine ⟨⟨moved.source, moved.target, moved.data, fastest, ?_, deeper,
    arrived⟩, ?_, ?_, ?_⟩
  · rw [demote_eq_demotion, moves, sound.copy_move accepted]
    simp
  · intro other different tier
    exact copy_elsewhere_of_demotion sound moves (Or.inl different)
  · simp [demote_eq_demotion, moves, move]
  · simp [demote_eq_demotion, moves, move]

/-- A payload that is cut short is in no slower tier. -/
theorem not_movedDown_of_cutShort
    (toSsd : moved.target = .ssd)
    (absent : store.copy .ssd id = none)
    (long : 2 ^ 32 ≤ moved.data.length) :
    ¬ store.MovedDown (store.demote id).2 id := by
  rintro ⟨⟨source, target, data, fastest, _, deeper, arrived⟩, _, _, _⟩
  obtain ⟨isSource, isData⟩ := fastest.unique (demotion_spec moves).1
  subst isSource isData
  by_cases isTarget : target = .ssd
  · have cut := copy_target_of_demotion sound moves
    rw [isTarget] at arrived
    rw [toSsd, absent, arrived] at cut
    have whole : SsdBlockStore.namedBytes moved.data = moved.data :=
      (Option.some.inj cut).symm
    exact Nat.not_lt.mpr long
      ((SsdBlockStore.namedBytes_eq_iff _).mp whole)
  · have fromHbm : moved.source = .hbm := by
      cases isSource : moved.source <;> cases target <;>
        simp_all [Tier.depth]
    have kept : (store.demote id).2.copy target id = store.copy target id :=
      copy_elsewhere_of_demotion sound moves
        (Or.inr ⟨fun same => by simp [same] at deeper,
          fun same => isTarget (same.trans toSsd)⟩)
    have isDram : target = .dram := by
      cases target <;> simp_all [Tier.depth]
    rw [kept, isDram, dram_of_demotion_to_ssd moves toSsd fromHbm] at arrived
    simp at arrived

end Outcome

/--
A demotion is all or nothing exactly if it does not write 4 GiB or more to a
new slot of the file.
-/
theorem demote_all_or_nothing_iff
    {store : TieredStore}
    (sound : store.SsdSound)
    {id : BlockId}
    (agree : store.CopiesAgree id) :
    store.DemoteAllOrNothing id ↔ ¬ store.CutShort id := by
  constructor
  · rintro ⟨succeeded, _⟩ ⟨moved, moves, toSsd, absent, long⟩
    refine not_movedDown_of_cutShort sound moves toSsd absent long
      (succeeded ?_)
    rw [demote_eq_demotion, moves]
  · intro whole
    cases moves : store.demotion id with
    | none =>
        refine ⟨?_, ?_⟩
        · intro succeeded
          simp [demote_eq_demotion, moves] at succeeded
        · intro _
          rw [demote_eq_demotion, moves]
    | some moved =>
        refine ⟨?_, ?_⟩
        · intro _
          refine movedDown_of_copy sound moves ?_
          rw [copy_target_of_demotion sound moves, Option.some.injEq]
          cases held : store.copy moved.target id with
          | some older =>
              exact agree _ _ _ _ held (demotion_spec moves).1.held
          | none =>
              by_cases toSsd : moved.target = .ssd
              · rw [toSsd] at held ⊢
                refine SsdBlockStore.namedBytes_of_lt ?_
                refine Nat.lt_of_not_le ?_
                intro long
                exact whole ⟨moved, moves, toSsd, held, long⟩
              · rw [Option.getD_none, storedBytes, if_neg toSsd]
        · intro failed
          simp [demote_eq_demotion, moves] at failed

/-! ## A payload of 4 GiB -/

/-- Copies of a block that only DRAM holds agree. -/
theorem copiesAgree_of_dram_only
    {store : TieredStore}
    {id : BlockId}
    (notInHbm : store.copy .hbm id = none)
    (notInSsd : store.copy .ssd id = none) :
    store.CopiesAgree id := by
  intro first second data other inFirst inSecond
  cases first <;> cases second <;> simp_all

/-- A file with one slot of 8 GiB. -/
def longGeometry : SsdGeometry where
  slotBytes := 2 ^ 33
  totalSlots := 1
  header_lt_slot := by decide
  slots_pos := by decide
  file_fits := by decide

/-- Identity of the long block. -/
def longId : BlockId :=
  ⟨.fill 3, 0, 0, 0⟩

/-- Empty tiers of 8 GiB each. -/
def roomyStore : TieredStore :=
  create { dramBytes := 2 ^ 33, ssd := some longGeometry } fun _ => 0

/-- The same tiers with the block in DRAM. -/
def longStore
    (data : List UInt8) :
    TieredStore :=
  (roomyStore.put { id := longId, data := data } .dram).2

section LongPayload

variable
  {data : List UInt8}
  (size : data.length = 2 ^ 32)

include size

/-- DRAM takes the block. -/
theorem longStore_accepted :
    (roomyStore.putToTier { id := longId, data := data } .dram).1 =
      true := by
  refine putToTier_accepted_iff.mpr (Or.inr ?_)
  simp only [size]
  decide

/-- DRAM and no other tier holds the block. -/
theorem longStore_copy
    (tier : Tier) :
    (longStore data).copy tier longId =
      if tier = .dram then some data else none := by
  have accepted := longStore_accepted size
  have sound : roomyStore.SsdSound :=
    create_ssdSound _ _
  rw [longStore, put_of_hint accepted, sound.copy_putToTier accepted]
  cases tier with
  | hbm =>
      rfl
  | dram =>
      rw [if_pos ⟨rfl, rfl⟩, if_pos rfl]
      rfl
  | ssd =>
      rw [if_neg (by simp), if_neg (by simp)]
      decide +kernel

/-- The file has a free slot for the block. -/
theorem longStore_room :
    (longStore data).TierHasRoom (relocated longId data .ssd) .ssd := by
  have accepted := longStore_accepted size
  have sameFile : (longStore data).ssd = roomyStore.ssd := by
    rw [longStore, put_of_hint accepted]
    exact ssd_putToTier _ _ (by decide)
  refine ⟨SsdBlockStore.rebuildIndexFromMmap longGeometry fun _ => 0,
    sameFile, ?_, Or.inr (Or.inl (by decide +kernel))⟩
  simp only [relocated_data, size]
  decide

/-- The block is demoted to the file. -/
theorem longStore_demotion :
    (longStore data).demotion longId = some ⟨.dram, .ssd, data⟩ := by
  have inHbm := longStore_copy size .hbm
  have inDram := longStore_copy size .dram
  simp only [reduceCtorEq, ↓reduceIte] at inHbm inDram
  simp only [demotion, inHbm, inDram, longStore_room size, ↓reduceIte]

/--
The demotion reports success, and of the 4 GiB that only DRAM held no byte is
left: the size in the slot header is zero.
-/
theorem longStore_demoted :
    (longStore data).SsdSound ∧
      (longStore data).CopiesAgree longId ∧
      (longStore data).copy .dram longId = some data ∧
      ((longStore data).demote longId).1 = true ∧
      ((longStore data).demote longId).2.copy .hbm longId = none ∧
      ((longStore data).demote longId).2.copy .dram longId = none ∧
      ((longStore data).demote longId).2.copy .ssd longId = some [] ∧
      ¬ (longStore data).DemoteAllOrNothing longId := by
  have inHbm := longStore_copy size .hbm
  have inDram := longStore_copy size .dram
  have inSsd := longStore_copy size .ssd
  simp only [reduceCtorEq, ↓reduceIte] at inHbm inDram inSsd
  have sound : (longStore data).SsdSound :=
    (create_ssdSound _ _).put _ .dram
  have moves := longStore_demotion size
  obtain ⟨_, _, accepted⟩ := demotion_spec moves
  have succeeds : ((longStore data).demote longId).1 = true := by
    rw [demote_eq_demotion, moves]
  refine ⟨sound, copiesAgree_of_dram_only inHbm inSsd, inDram, succeeds, ?_,
    ?_, ?_, ?_⟩
  · rw [copy_elsewhere_of_demotion sound moves
      (Or.inr ⟨by simp, by simp⟩), inHbm]
  · rw [demote_eq_demotion, moves, sound.copy_move accepted]
    simp
  · have arrived := copy_target_of_demotion sound moves
    simp only [inSsd, Option.getD_none, storedBytes, ↓reduceIte,
      SsdBlockStore.namedBytes, size] at arrived
    exact arrived
  · intro wholly
    exact not_movedDown_of_cutShort sound moves rfl inSsd
      (Nat.le_of_eq size.symm) (wholly.succeeded succeeds)

end LongPayload

/-- A payload whose size does not fit 32 bits. -/
def longPayload : List UInt8 :=
  List.replicate (2 ^ 32) 0

/-- A demotion of 4 GiB to the file reports success and loses every byte. -/
theorem demotion_loses_long_payload :
    longPayload.length = 2 ^ 32 ∧
      (longStore longPayload).SsdSound ∧
      (longStore longPayload).CopiesAgree longId ∧
      (longStore longPayload).copy .dram longId = some longPayload ∧
      ((longStore longPayload).demote longId).1 = true ∧
      ((longStore longPayload).demote longId).2.copy .hbm longId = none ∧
      ((longStore longPayload).demote longId).2.copy .dram longId = none ∧
      ((longStore longPayload).demote longId).2.copy .ssd longId =
        some [] ∧
      ¬ (longStore longPayload).DemoteAllOrNothing longId :=
  have size : longPayload.length = 2 ^ 32 := List.length_replicate
  ⟨size, longStore_demoted size⟩

/-- A short block in DRAM above an empty file. -/
def shortStore : TieredStore :=
  ((create { dramBytes := 4, ssd := some twoSlotGeometry } fun _ => 0).put
    { id := ⟨.fill 3, 0, 0, 0⟩, data := [1, 2] } .dram).2

theorem demote_all_or_nothing_short :
    (shortStore.demote ⟨.fill 3, 0, 0, 0⟩).1 = true ∧
      shortStore.DemoteAllOrNothing ⟨.fill 3, 0, 0, 0⟩ := by
  have inHbm : shortStore.copy .hbm ⟨.fill 3, 0, 0, 0⟩ = none := by
    decide +kernel
  have inDram :
      shortStore.copy .dram ⟨.fill 3, 0, 0, 0⟩ = some [1, 2] := by
    decide +kernel
  have inSsd : shortStore.copy .ssd ⟨.fill 3, 0, 0, 0⟩ = none := by
    decide +kernel
  refine ⟨by decide +kernel, ?_⟩
  refine (demote_all_or_nothing_iff ((create_ssdSound _ _).put _ .dram)
    (copiesAgree_of_dram_only inHbm inSsd)).mpr ?_
  rintro ⟨moved, moves, _, _, long⟩
  obtain ⟨fastest, _, _⟩ := demotion_spec moves
  have agrees :=
    copiesAgree_of_dram_only inHbm inSsd _ _ _ _ fastest.held inDram
  rw [agrees] at long
  simp at long

end TieredStore

end Lethe
