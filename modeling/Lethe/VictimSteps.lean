import Lethe.SecondChance
import Lethe.StoreRuns

namespace Lethe

/-!
# What a pass does to a victim

A victim is moved to a slower tier if one takes it, and is erased from all
tiers otherwise.  The other blocks keep their copies.  If all copies of a block
have the same size, a victim that no slower tier takes has no copy outside the
tier it is evicted from, so the tiers below are as they were.
-/

namespace TieredStore

/-- All copies of a block have the same size. -/
def SameSize
    (store : TieredStore)
    (id : BlockId) : Prop :=
  ∀ first second data other,
    store.copy first id = some data →
    store.copy second id = some other →
    data.length = other.length

/-- All copies of every block have the same size. -/
def SameSizes
    (store : TieredStore) : Prop :=
  ∀ id, store.SameSize id

/-- A pass over the tier moves the block to a slower tier. -/
def Demotes
    (store : TieredStore)
    (tier : Tier)
    (id : BlockId) :
    Bool :=
  tier ≠ .ssd && (store.demote id).1

section Demotion

variable
  {store : TieredStore}
  {id : BlockId}
  {data : List UInt8}

/-- A failed demotion changes nothing. -/
theorem demote_of_failed
    (failed : (store.demote id).1 = false) :
    store.demote id = (false, store) := by
  rcases store.demote_cases id with unchanged | ⟨_, _, _, _, _, _, moved⟩
  · exact unchanged
  · rw [moved] at failed
    exact Bool.noConfusion failed

/-- A block in HBM is demoted if DRAM or the file has room. -/
theorem demote_iff_of_hbm
    (inHbm : store.copy .hbm id = some data) :
    (store.demote id).1 = true ↔
      store.TierHasRoom (relocated id data .dram) .dram ∨
        store.TierHasRoom (relocated id data .ssd) .ssd := by
  rw [← putToTier_accepted_iff, ← putToTier_accepted_iff]
  simp only [demote, inHbm]
  cases toDram : (store.putToTier (relocated id data .dram) .dram).1 with
  | true =>
      simp
  | false =>
      rw [putToTier_of_rejected toDram]
      cases toSsd :
        (store.putToTier (relocated id data .ssd) .ssd).1 <;> simp

/-- A block in HBM goes to the file if DRAM is full. -/
theorem demote_of_full_dram
    (inHbm : store.copy .hbm id = some data)
    (rejected :
      (store.putToTier (relocated id data .dram) .dram).1 = false)
    (accepted :
      (store.putToTier (relocated id data .ssd) .ssd).1 = true) :
    store.demote id =
      (true, store.move (relocated id data .ssd) .ssd .hbm) := by
  have unchanged := putToTier_of_rejected rejected
  simp [demote, inHbm, rejected, unchanged, accepted, move]

/-- A block in DRAM only is demoted if the file has room. -/
theorem demote_iff_of_dram
    (notInHbm : store.copy .hbm id = none)
    (inDram : store.copy .dram id = some data) :
    (store.demote id).1 = true ↔
      store.TierHasRoom (relocated id data .ssd) .ssd := by
  rw [← putToTier_accepted_iff]
  simp only [demote, notInHbm, inDram]
  cases toSsd :
    (store.putToTier (relocated id data .ssd) .ssd).1 <;> simp

/--
A demotion fails, or moves a block from HBM to DRAM or to the file, or from
DRAM to the file.
-/
theorem demote_moves
    (store : TieredStore)
    (id : BlockId) :
    store.demote id = (false, store) ∨
      (∃ data target,
        store.copy .hbm id = some data ∧
          target ≠ .hbm ∧
          (store.putToTier (relocated id data target) target).1 = true ∧
          store.demote id =
            (true, store.move (relocated id data target) target .hbm)) ∨
      ∃ data,
        store.copy .hbm id = none ∧
          store.copy .dram id = some data ∧
          (store.putToTier (relocated id data .ssd) .ssd).1 = true ∧
          store.demote id =
            (true, store.move (relocated id data .ssd) .ssd .dram) := by
  cases flag : (store.demote id).1 with
  | false =>
      exact Or.inl (demote_of_failed flag)
  | true =>
      right
      cases inHbm : store.copy .hbm id with
      | some data =>
          left
          cases toDram :
              (store.putToTier (relocated id data .dram) .dram).1 with
          | true =>
              exact
                ⟨data, .dram, rfl, by decide, toDram,
                  demote_of_hbm inHbm toDram⟩
          | false =>
              have toSsd :
                  (store.putToTier (relocated id data .ssd) .ssd).1 =
                    true := by
                rw [demote_iff_of_hbm inHbm, ← putToTier_accepted_iff,
                  ← putToTier_accepted_iff, toDram] at flag
                simpa using flag
              exact
                ⟨data, .ssd, rfl, by decide, toSsd,
                  demote_of_full_dram inHbm toDram toSsd⟩
      | none =>
          right
          cases inDram : store.copy .dram id with
          | some data =>
              rw [demote_iff_of_dram inHbm inDram,
                ← putToTier_accepted_iff] at flag
              exact ⟨data, rfl, rfl, flag, demote_of_dram inHbm inDram flag⟩
          | none =>
              simp [demote, inHbm, inDram] at flag

/-- A block that DRAM holds too is demoted from HBM. -/
theorem demote_of_both
    (consistent : store.SsdConsistent)
    (inHbm : store.copy .hbm id = some data)
    (inDram : (store.copy .dram id).isSome = true) :
    store.demote id =
      (true, store.move (relocated id data .dram) .dram .hbm) := by
  have room : store.Fits (relocated id data .dram) .dram := trivial
  exact
    demote_of_hbm inHbm
      (putToTier_accepted_iff.mpr (room.room_of_held consistent inDram))

/--
A block that no slower tier takes has no other copy, if its copies have one
size.
-/
theorem only_copy_of_not_demotes
    (consistent : store.SsdConsistent)
    (sizes : store.SameSize id)
    {tier query : Tier}
    (above : tier ≠ .ssd)
    (held : (store.copy tier id).isSome = true)
    (stays : store.Demotes tier id = false)
    (other : query ≠ tier) :
    store.copy query id = none := by
  have failed : ¬ (store.demote id).1 = true := by
    simpa [Demotes, above] using stays
  by_contra present
  obtain ⟨copied, present⟩ := Option.ne_none_iff_exists'.mp present
  obtain ⟨bytes, held⟩ := Option.isSome_iff_exists.mp held
  have room : store.TierHasRoom (relocated id bytes query) query :=
    tierHasRoom_of_copy consistent present
      (sizes tier query bytes copied held present)
  cases tier with
  | hbm =>
      rw [demote_iff_of_hbm held, not_or] at failed
      cases query with
      | hbm =>
          exact other rfl
      | dram =>
          exact failed.1 room
      | ssd =>
          exact failed.2 room
  | dram =>
      cases inHbm : store.copy .hbm id with
      | some fast =>
          rw [demote_of_both consistent inHbm (by simp [held])] at failed
          exact failed rfl
      | none =>
          rw [demote_iff_of_dram inHbm held] at failed
          cases query with
          | hbm =>
              rw [inHbm] at present
              simp at present
          | dram =>
              exact other rfl
          | ssd =>
              exact failed room
  | ssd =>
      exact above rfl

/-- A demotion leaves the copies of all other blocks. -/
theorem copy_demote_of_ne
    (consistent : store.SsdConsistent)
    {demoted : BlockId}
    (other : id ≠ demoted)
    (query : Tier) :
    (store.demote demoted).2.copy query id = store.copy query id := by
  rcases store.demote_cases demoted with
    unchanged | ⟨bytes, source, target, _, _, accepted, moved⟩
  · rw [unchanged]
  · rw [moved, copy_move consistent accepted]
    simp [relocated, other]

end Demotion

/-! ## One victim -/

section Victim

variable
  {store : TieredStore}
  {tier : Tier}
  {entry : BlockMeta}

/-- A victim that a slower tier takes. -/
theorem evictBlock_of_demotes
    (demotes : store.Demotes tier entry.id = true) :
    evictBlock store tier entry =
      (entry.sizeBytes, (store.demote entry.id).2) := by
  simp only [Demotes, ne_eq, decide_not, Bool.and_eq_true, Bool.not_eq_true',
    decide_eq_false_iff_not] at demotes
  simp [evictBlock, demotes]

/-- A victim that no slower tier takes. -/
theorem evictBlock_of_not_demotes
    (stays : store.Demotes tier entry.id = false) :
    evictBlock store tier entry = store.erase entry.id := by
  by_cases slowest : tier = .ssd
  · simp [evictBlock, slowest]
  · have failed : (store.demote entry.id).1 = false := by
      simpa [Demotes, slowest] using stays
    simp [evictBlock, slowest, demote_of_failed failed]

/-- The other blocks keep their copies. -/
theorem copy_evictBlock_of_ne
    (consistent : store.SsdConsistent)
    {id : BlockId}
    (other : id ≠ entry.id)
    (query : Tier) :
    (evictBlock store tier entry).2.copy query id = store.copy query id := by
  cases demotes : store.Demotes tier entry.id with
  | true =>
      rw [evictBlock_of_demotes demotes]
      exact copy_demote_of_ne consistent other query
  | false =>
      rw [evictBlock_of_not_demotes demotes, copy_erase consistent,
        if_neg other]

/-- A victim stays resident exactly if a slower tier takes it. -/
theorem resident_evictBlock
    (consistent : store.SsdConsistent)
    (resident : store.Resident entry.id) :
    (evictBlock store tier entry).2.Resident entry.id ↔
      store.Demotes tier entry.id = true := by
  cases demotes : store.Demotes tier entry.id with
  | true =>
      rw [evictBlock_of_demotes demotes, resident_demote consistent]
      exact iff_of_true resident rfl
  | false =>
      rw [evictBlock_of_not_demotes demotes, resident_erase consistent]
      simp

end Victim

/-! ## The tiers below -/

/-- The tiers below the given one are the same in two stores. -/
structure SameBelow
    (tier : Tier)
    (first second : TieredStore) : Prop where
  dram : tier = .hbm → first.dram = second.dram
  ssd : tier ≠ .ssd → first.ssd = second.ssd

section Below

variable
  {tier : Tier}
  {first second third : TieredStore}
  {id : BlockId}

/-- The same tiers below, twice in a row. -/
theorem SameBelow.trans
    (earlier : SameBelow tier first second)
    (later : SameBelow tier second third) :
    SameBelow tier first third where
  dram isHbm := (earlier.dram isHbm).trans (later.dram isHbm)
  ssd above := (earlier.ssd above).trans (later.ssd above)

/-- Equal files accept the same blocks. -/
theorem putToTier_ssd_congr
    (same : first.ssd = second.ssd)
    (block : KvBlock) :
    (first.putToTier block .ssd).1 = (second.putToTier block .ssd).1 ∧
      (first.putToTier block .ssd).2.ssd =
        (second.putToTier block .ssd).2.ssd := by
  cases present : second.ssd with
  | none =>
      rw [present] at same
      simp [putToTier, same, present]
  | some tierStore =>
      rw [present] at same
      simp [putToTier, same, present]

/-- The tiers below HBM after a move from HBM to the file. -/
theorem move_ssd_hbm
    (store : TieredStore)
    (block : KvBlock) :
    (store.move block .ssd .hbm).dram = store.dram ∧
      (store.move block .ssd .hbm).ssd =
        (store.putToTier block .ssd).2.ssd := by
  simp [move]

/-- Stores with the same tiers below HBM demote a block of HBM alike. -/
theorem SameBelow.demote_hbm
    (below : SameBelow .hbm first second)
    {data : List UInt8}
    (inFirst : first.copy .hbm id = some data)
    (inSecond : second.copy .hbm id = some data) :
    (first.demote id).1 = (second.demote id).1 ∧
      SameBelow .hbm (first.demote id).2 (second.demote id).2 := by
  have dram := below.dram rfl
  have ssd := below.ssd (by decide)
  have file := putToTier_ssd_congr ssd (relocated id data .ssd)
  cases toDram : (first.dram.put (relocated id data .dram)).1 with
  | true =>
      have toDramSecond :
          (second.dram.put (relocated id data .dram)).1 = true := by
        rwa [← dram]
      rw [demote_of_hbm inFirst toDram, demote_of_hbm inSecond toDramSecond]
      refine ⟨rfl, fun _ => ?_, fun _ => ?_⟩
      · rw [(move_dram_hbm _ _).1, (move_dram_hbm _ _).1, dram]
      · rw [(move_dram_hbm _ _).2, (move_dram_hbm _ _).2, ssd]
  | false =>
      have toDramSecond :
          (second.dram.put (relocated id data .dram)).1 = false := by
        rwa [← dram]
      cases toSsd : (first.putToTier (relocated id data .ssd) .ssd).1 with
      | true =>
          have toSsdSecond := file.1.symm.trans toSsd
          rw [demote_of_full_dram inFirst toDram toSsd,
            demote_of_full_dram inSecond toDramSecond toSsdSecond]
          refine ⟨rfl, fun _ => ?_, fun _ => ?_⟩
          · rw [(move_ssd_hbm _ _).1, (move_ssd_hbm _ _).1, dram]
          · rw [(move_ssd_hbm _ _).2, (move_ssd_hbm _ _).2, file.2]
      | false =>
          have toSsdSecond := file.1.symm.trans toSsd
          have failed :
              ∀ store : TieredStore,
                store.copy .hbm id = some data →
                (store.putToTier (relocated id data .dram) .dram).1 =
                  false →
                (store.putToTier (relocated id data .ssd) .ssd).1 = false →
                store.demote id = (false, store) := by
            intro store inHbm noDram noSsd
            refine demote_of_failed ?_
            rw [← Bool.not_eq_true, demote_iff_of_hbm inHbm,
              ← putToTier_accepted_iff, ← putToTier_accepted_iff, noDram,
              noSsd]
            simp
          rw [failed first inFirst toDram toSsd,
            failed second inSecond toDramSecond toSsdSecond]
          exact ⟨rfl, below⟩

/-- Stores with the same file demote a block of DRAM alike. -/
theorem SameBelow.demote_dram
    (below : SameBelow .dram first second)
    (firstConsistent : first.SsdConsistent)
    (secondConsistent : second.SsdConsistent)
    (copies : ∀ query, first.copy query id = second.copy query id)
    (held : (first.copy .dram id).isSome = true) :
    (first.demote id).1 = (second.demote id).1 ∧
      SameBelow .dram (first.demote id).2 (second.demote id).2 := by
  have ssd := below.ssd (by decide)
  have heldSecond := copies .dram ▸ held
  cases inHbm : first.copy .hbm id with
  | some data =>
      have inHbmSecond := (copies .hbm).symm.trans inHbm
      rw [demote_of_both firstConsistent inHbm held,
        demote_of_both secondConsistent inHbmSecond heldSecond]
      refine ⟨rfl, fun absurdly => by simp at absurdly, fun _ => ?_⟩
      rw [(move_dram_hbm _ _).2, (move_dram_hbm _ _).2, ssd]
  | none =>
      have notInHbmSecond := (copies .hbm).symm.trans inHbm
      obtain ⟨data, inDram⟩ := Option.isSome_iff_exists.mp held
      have inDramSecond := (copies .dram).symm.trans inDram
      have file := putToTier_ssd_congr ssd (relocated id data .ssd)
      have flags :
          (first.demote id).1 = (second.demote id).1 := by
        rw [Bool.eq_iff_iff, demote_iff_of_dram inHbm inDram,
          demote_iff_of_dram notInHbmSecond inDramSecond,
          ← putToTier_accepted_iff, ← putToTier_accepted_iff, file.1]
      refine ⟨flags, ?_⟩
      cases toSsd : (first.putToTier (relocated id data .ssd) .ssd).1 with
      | true =>
          rw [demote_of_dram inHbm inDram toSsd,
            demote_of_dram notInHbmSecond inDramSecond
              (file.1.symm.trans toSsd)]
          refine ⟨fun absurdly => by simp at absurdly, fun _ => ?_⟩
          rw [(move_ssd_dram _ _).2, (move_ssd_dram _ _).2, file.2]
      | false =>
          have failed : (first.demote id).1 = false := by
            rw [← Bool.not_eq_true, demote_iff_of_dram inHbm inDram,
              ← putToTier_accepted_iff, toSsd]
            simp
          rw [demote_of_failed failed,
            demote_of_failed (flags.symm.trans failed)]
          exact below

/-- Stores with the same tiers below demote a block of the tier alike. -/
theorem SameBelow.demote
    (below : SameBelow tier first second)
    (firstConsistent : first.SsdConsistent)
    (secondConsistent : second.SsdConsistent)
    (copies : ∀ query, first.copy query id = second.copy query id)
    (held : (first.copy tier id).isSome = true) :
    first.Demotes tier id = second.Demotes tier id ∧
      SameBelow tier (first.demote id).2 (second.demote id).2 := by
  cases tier with
  | hbm =>
      obtain ⟨data, inHbm⟩ := Option.isSome_iff_exists.mp held
      have alike :=
        below.demote_hbm inHbm ((copies .hbm).symm.trans inHbm)
      exact ⟨by simp [Demotes, alike.1], alike.2⟩
  | dram =>
      have alike :=
        below.demote_dram firstConsistent secondConsistent copies held
      exact ⟨by simp [Demotes, alike.1], alike.2⟩
  | ssd =>
      exact
        ⟨by simp [Demotes], fun absurdly => by simp at absurdly,
          fun absurdly => (absurdly rfl).elim⟩

/-- Erasing a block that only this tier holds leaves the tiers below. -/
theorem sameBelow_erase
    (consistent : first.SsdConsistent)
    (only :
      tier ≠ .ssd →
        ∀ query, query ≠ tier → first.copy query id = none) :
    SameBelow tier (first.erase id).2 first := by
  have afterHbm := consistent.eraseFromTier id .hbm
  cases tier with
  | hbm =>
      have notInDram :
          (first.eraseFromTier id .hbm).2.copy .dram id = none := by
        rw [copy_eraseFromTier consistent]
        simp [only (by decide) .dram (by decide)]
      have notInSsd :
          (first.eraseFromTier id .hbm).2.copy .ssd id = none := by
        rw [copy_eraseFromTier consistent]
        simp [only (by decide) .ssd (by decide)]
      simp only [erase, eraseFromTier_of_absent afterHbm notInDram,
        eraseFromTier_of_absent afterHbm notInSsd]
      exact ⟨fun _ => by simp [forget], fun _ => by simp [forget]⟩
  | dram =>
      have notInHbm := only (by decide) .hbm (by decide)
      have notInSsd :
          (first.eraseFromTier id .dram).2.copy .ssd id = none := by
        rw [copy_eraseFromTier consistent]
        simp [only (by decide) .ssd (by decide)]
      simp only [erase, eraseFromTier_of_absent consistent notInHbm,
        eraseFromTier_of_absent (consistent.eraseFromTier id .dram) notInSsd]
      exact
        ⟨fun absurdly => by simp at absurdly,
          fun _ => by simp [forget, eraseFromTier]⟩
  | ssd =>
      exact
        ⟨fun absurdly => by simp at absurdly,
          fun absurdly => (absurdly rfl).elim⟩

/-- Two stores that differ in their bookkeeping at most. -/
structure SameTiers
    (first second : TieredStore) : Prop where
  hbm : first.hbm = second.hbm
  dram : first.dram = second.dram
  ssd : first.ssd = second.ssd

/-- Equal tiers hold the same copies. -/
theorem SameTiers.copy
    (same : SameTiers first second)
    (query : Tier)
    (id : BlockId) :
    first.copy query id = second.copy query id := by
  cases query with
  | hbm =>
      simp only [TieredStore.copy, same.hbm]
  | dram =>
      simp only [TieredStore.copy, same.dram]
  | ssd =>
      simp only [TieredStore.copy, same.ssd]

/-- Equal tiers hold the same blocks. -/
theorem SameTiers.resident
    (same : SameTiers first second)
    (id : BlockId) :
    first.Resident id ↔ second.Resident id := by
  simp only [Resident, same.copy]

/-- Equal tiers take the same blocks from a tier above. -/
theorem SameTiers.demotes
    (same : SameTiers first second)
    (consistent : first.SsdConsistent)
    (held : (first.copy tier id).isSome = true) :
    first.Demotes tier id = second.Demotes tier id := by
  have consistentToo : second.SsdConsistent := by
    intro tierStore present
    exact consistent tierStore (same.ssd.trans present)
  have below : SameBelow tier first second :=
    ⟨fun _ => same.dram, fun _ => same.ssd⟩
  exact
    (below.demote consistent consistentToo (fun query => same.copy query id)
      held).1

/-- Equal tiers stay equal when a block is erased. -/
theorem SameTiers.erase
    (same : SameTiers first second)
    (id : BlockId) :
    SameTiers (first.erase id).2 (second.erase id).2 := by
  obtain ⟨_, hbm, dram, ssd, _, _⟩ := first
  obtain ⟨_, _, _, _, _, _⟩ := second
  obtain ⟨rfl, rfl, rfl⟩ := same
  cases hbm <;> cases ssd <;> exact ⟨rfl, rfl, rfl⟩

end Below

end TieredStore

/-! ## Steps and laps -/

namespace SweepState

variable
  {tier : Tier}
  {sweep : SweepState}
  {entry : BlockMeta}

/-- A step over a spared entry. -/
theorem visit_of_spared
    (spared : entry.visited = true) :
    sweep.visit tier entry =
      { sweep with store := sweep.store.clearVisited entry.id } := by
  simp [visit, spared]

/-- A step over a victim. -/
theorem visit_of_victim
    (victim : entry.visited = false) :
    sweep.visit tier entry =
      { store := (evictBlock sweep.store tier entry).2
        freed :=
          addSize sweep.freed (evictBlock sweep.store tier entry).1
        evicted := sweep.evicted ++ [entry.id] } := by
  simp [visit, victim]

end SweepState

/-- Every block that the laps meet is in the tier. -/
theorem held_of_mem_laps
    {evictor : Evictor}
    {store : TieredStore}
    {tier : Tier}
    {blocks : List BlockMeta}
    (consistent : store.SsdConsistent)
    (listed : blocks.Perm (store.snapshot tier))
    {entry : BlockMeta}
    (member : entry ∈ evictor.laps tier blocks) :
    (store.copy tier entry.id).isSome = true :=
  (TieredStore.mem_snapshot_ids consistent).mp
    ((listed.map BlockMeta.id).subset (id_of_mem_laps member))

/-- Ten bytes of DRAM, filled with a small and a large block. -/
def fullStore
    (ssd : Option SsdGeometry) :
    TieredStore :=
  storeAfter { dramBytes := 10, ssd := ssd }
    [ .put { id := smallId, data := [7] } .dram,
      .put { id := largeId, data := List.replicate 9 8 } .dram ]

theorem fullStore_sized : (fullStore none).Sized := by
  refine storeAfter_sized (by simp) ?_ ?_
  · intro tier
    cases tier <;> decide +kernel
  · intro block hint member
    simp only [List.mem_cons, StoreCall.put.injEq, List.not_mem_nil,
      or_false] at member
    rcases member with ⟨rfl, _⟩ | ⟨rfl, _⟩ <;> decide +kernel

theorem fullStore_sameSizes : (fullStore none).SameSizes := by
  have onlyDram :
      ∀ tier id data,
        (fullStore none).copy tier id = some data → tier = .dram := by
    intro tier id data held
    cases tier with
    | hbm =>
        have noHbm : (fullStore none).hbm = none := rfl
        simp [TieredStore.copy, noHbm] at held
    | dram =>
        rfl
    | ssd =>
        have noSsd : (fullStore none).ssd = none := rfl
        simp [TieredStore.copy, noSsd] at held
  intro id first second data other inFirst inSecond
  obtain rfl := onlyDram first id data inFirst
  obtain rfl := onlyDram second id other inSecond
  rw [Option.some_inj.mp (inFirst.symm.trans inSecond)]

end Lethe
