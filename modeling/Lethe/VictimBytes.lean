import Lethe.VictimSteps

namespace Lethe

/-!
# Bytes of a victim

A pass counts the bytes of a victim as freed, and the counter of its tier falls
by the bytes that really leave it.  The two differ when a block that has left
the tier is taken again, when a block of DRAM is held by HBM too, so that only
the copy in HBM goes, and when a block is erased from faster tiers together
with the file.
-/

namespace TieredStore

/-- Bytes that a pass counts as freed when it takes a block. -/
def claimedBytes
    (size : BlockId → Nat)
    (tier : Tier)
    (store : TieredStore)
    (id : BlockId) :
    Nat :=
  if tier = .ssd then
    store.heldInAll id
  else if store.Resident id then
    size id
  else
    0

/-- Bytes by which the counter of the tier falls when a pass takes a block. -/
def gainedBytes
    (tier : Tier)
    (store : TieredStore)
    (id : BlockId) :
    Nat :=
  if tier = .dram ∧ (store.copy .hbm id).isSome = true then
    0
  else
    store.heldBytes tier id

/--
The counter of the tier is exact, all copies have the given sizes, and a pass
over DRAM finds the blocks that HBM holds in DRAM too.
-/
structure Tracked
    (tier : Tier)
    (ids : List BlockId)
    (size : BlockId → Nat)
    (store : TieredStore) : Prop where
  accounted : store.AccountedIn tier
  copies : store.Copies fun id data => data.length = size id
  beside :
    tier = .dram →
      ∀ id ∈ ids,
        (store.copy .hbm id).isSome = true →
        (store.copy .dram id).isSome = true
  small : ∀ id ∈ ids, size id < halfRange
  fitSlots : tier = .ssd → ∀ id ∈ ids, 3 * size id < halfRange

section Bytes

variable
  {tier : Tier}
  {ids : List BlockId}
  {size : BlockId → Nat}
  {store : TieredStore}
  {id : BlockId}

/-- A held block has its size. -/
theorem Tracked.heldBytes_of_held
    (tracked : store.Tracked tier ids size)
    {query : Tier}
    (held : (store.copy query id).isSome = true) :
    store.heldBytes query id = size id := by
  obtain ⟨data, held⟩ := Option.isSome_iff_exists.mp held
  rw [heldBytes, held]
  exact tracked.copies.every held

/-- No tier holds more than the size of a block. -/
theorem Tracked.heldBytes_le
    (tracked : store.Tracked tier ids size)
    (query : Tier)
    (id : BlockId) :
    store.heldBytes query id ≤ size id := by
  cases held : (store.copy query id).isSome with
  | true =>
      exact (tracked.heldBytes_of_held held).le
  | false =>
      rw [Option.isSome_eq_false_iff, Option.isNone_iff_eq_none] at held
      simp [heldBytes, held]

/-- All copies of a block have the same size. -/
theorem Tracked.sameSize
    (tracked : store.Tracked tier ids size)
    (id : BlockId) :
    store.SameSize id := by
  intro first second data other inFirst inSecond
  rw [tracked.copies.every inFirst, tracked.copies.every inSecond]

/-- A block that cannot be demoted is in one tier at most. -/
theorem Tracked.heldInAll_of_failed
    (tracked : store.Tracked tier ids size)
    (failed : (store.demote id).1 = false) :
    store.heldInAll id = if store.Resident id then size id else 0 := by
  have consistent := tracked.copies.consistent
  have stays :
      ∀ above : Tier, store.Demotes above id = false := by
    intro above
    simp [Demotes, failed]
  have only :
      ∀ {above query : Tier},
        above ≠ .ssd →
        (store.copy above id).isSome = true →
        query ≠ above →
        store.copy query id = none :=
    fun notSsd held other =>
      only_copy_of_not_demotes consistent (tracked.sameSize id) notSsd held
        (stays _) other
  cases inHbm : (store.copy .hbm id).isSome with
  | true =>
      have resident : store.Resident id := ⟨.hbm, inHbm⟩
      rw [if_pos resident, heldInAll, tracked.heldBytes_of_held inHbm]
      simp [heldBytes, only (by decide) inHbm (by decide : Tier.dram ≠ .hbm),
        only (by decide) inHbm (by decide : Tier.ssd ≠ .hbm)]
  | false =>
      rw [Option.isSome_eq_false_iff, Option.isNone_iff_eq_none] at inHbm
      cases inDram : (store.copy .dram id).isSome with
      | true =>
          have resident : store.Resident id := ⟨.dram, inDram⟩
          rw [if_pos resident, heldInAll, tracked.heldBytes_of_held inDram]
          simp [heldBytes, inHbm,
            only (by decide) inDram (by decide : Tier.ssd ≠ .dram)]
      | false =>
          rw [Option.isSome_eq_false_iff, Option.isNone_iff_eq_none] at inDram
          cases inSsd : (store.copy .ssd id).isSome with
          | true =>
              have resident : store.Resident id := ⟨.ssd, inSsd⟩
              rw [if_pos resident, heldInAll,
                tracked.heldBytes_of_held inSsd]
              simp [heldBytes, inHbm, inDram]
          | false =>
              rw [Option.isSome_eq_false_iff, Option.isNone_iff_eq_none]
                at inSsd
              have gone : ¬ store.Resident id := by
                rintro ⟨query, held⟩
                cases query <;> simp_all
              rw [if_neg gone]
              simp [heldInAll, heldBytes, inHbm, inDram, inSsd]

/-- What is counted for one block is below half the range. -/
theorem Tracked.claimedBytes_lt
    (tracked : store.Tracked tier ids size)
    (member : id ∈ ids) :
    claimedBytes size tier store id < halfRange := by
  unfold claimedBytes
  split
  · next slowest =>
      have hbm := tracked.heldBytes_le .hbm id
      have dram := tracked.heldBytes_le .dram id
      have ssd := tracked.heldBytes_le .ssd id
      have small := tracked.fitSlots slowest id member
      unfold heldInAll
      omega
  · split
    · exact tracked.small id member
    · decide

/-- No less is counted for a block than leaves the tier. -/
theorem Tracked.gainedBytes_le_claimedBytes
    (tracked : store.Tracked tier ids size)
    (id : BlockId) :
    gainedBytes tier store id ≤ claimedBytes size tier store id := by
  unfold gainedBytes
  split
  · exact Nat.zero_le _
  · unfold claimedBytes
    split
    · next slowest =>
        rw [slowest, heldInAll]
        omega
    · split
      · exact tracked.heldBytes_le tier id
      · next gone =>
          have absent : store.copy tier id = none := by
            by_contra held
            exact gone ⟨tier, Option.isSome_iff_ne_none.mpr held⟩
          simp [heldBytes, absent]

/-- A demoted block has left HBM. -/
theorem copy_hbm_demote
    (consistent : store.SsdConsistent)
    (demotes : (store.demote id).1 = true) :
    (store.demote id).2.copy .hbm id = none := by
  rcases store.demote_moves id with
    failed | ⟨data, target, _, _, accepted, moved⟩ |
      ⟨data, notInHbm, _, accepted, moved⟩
  · rw [failed] at demotes
    exact Bool.noConfusion demotes
  · rw [moved, copy_move consistent accepted]
    simp [relocated]
  · rw [moved, copy_move consistent accepted]
    simp [notInHbm]

/-- A move leaves the counters of the tiers that it does not touch. -/
theorem usedBytes_move_of_ne
    (store : TieredStore)
    (block : KvBlock)
    {target source query : Tier}
    (notTarget : query ≠ target)
    (notSource : query ≠ source) :
    (store.move block target source).usedBytes query =
      store.usedBytes query := by
  rw [move, usedBytes_eraseFromTier_of_ne _ _ notSource,
    usedBytes_putToTier_of_ne _ _ notTarget]

/-- A move takes the bytes of the block from the tier that it leaves. -/
theorem Tracked.usedBytes_move
    (tracked : store.Tracked tier ids size)
    {data : List UInt8}
    {target : Tier}
    (different : target ≠ tier)
    (accepted :
      (store.putToTier (relocated id data target) target).1 = true) :
    (store.move (relocated id data target) target tier).usedBytes tier +
        store.heldBytes tier id =
      store.usedBytes tier := by
  have placed :
      (store.putToTier (relocated id data target) target).2.AccountedIn
        tier :=
    tracked.accounted.putToTier_of_ne _ different
  have left := placed.usedBytes_eraseFromTier id
  rw [usedBytes_putToTier_of_ne _ _ different.symm] at left
  have sameHeld :
      (store.putToTier (relocated id data target) target).2.heldBytes tier
          id =
        store.heldBytes tier id := by
    rw [heldBytes,
      copy_putToTier_of_accepted tracked.copies.consistent accepted,
      if_neg fun isTarget => different isTarget.1.symm]
    rfl
  rw [sameHeld] at left
  exact left

/-- A demotion by a pass leaves the counter of the tier exact. -/
theorem Tracked.accounted_demote
    (tracked : store.Tracked tier ids size)
    (member : id ∈ ids) :
    (store.demote id).2.AccountedIn tier := by
  have consistent := tracked.copies.consistent
  have accounted := tracked.accounted
  cases tier with
  | hbm =>
      rcases store.demote_moves id with
        failed | ⟨data, target, _, notHbm, _, moved⟩ | ⟨data, _, _, _, moved⟩
      · rw [failed]
        exact accounted
      · rw [moved]
        exact (accounted.putToTier_of_ne _ notHbm).eraseFromTier _ _
      · rw [moved]
        exact (accounted.putToTier_of_ne _ (by decide)).eraseFromTier _ _
  | dram =>
      rcases store.demote_moves id with
        failed | ⟨data, target, inHbm, _, _, _⟩ | ⟨data, _, _, _, moved⟩
      · rw [failed]
        exact accounted
      · have beside := tracked.beside rfl id member (by simp [inHbm])
        obtain ⟨other, inDram⟩ := Option.isSome_iff_exists.mp beside
        rw [demote_of_both consistent inHbm beside, move,
          putToTier_of_present consistent.ssdSound inDram]
        exact accounted.eraseFromTier _ _
      · rw [moved]
        exact (accounted.putToTier_of_ne _ (by decide)).eraseFromTier _ _
  | ssd =>
      exact ssdConsistent_stable.demote consistent id

end Bytes

section Victim

variable
  {tier : Tier}
  {ids : List BlockId}
  {size : BlockId → Nat}
  {store : TieredStore}
  {entry : BlockMeta}

/-- A pass over DRAM takes a block that HBM holds too from HBM only. -/
theorem Tracked.usedBytes_demote
    (tracked : store.Tracked tier ids size)
    (member : entry.id ∈ ids)
    (demotes : store.Demotes tier entry.id = true) :
    (store.demote entry.id).2.usedBytes tier +
        gainedBytes tier store entry.id =
      store.usedBytes tier := by
  have consistent := tracked.copies.consistent
  have flag : (store.demote entry.id).1 = true := by
    simp only [Demotes, Bool.and_eq_true] at demotes
    exact demotes.2
  rcases store.demote_moves entry.id with
    failed | ⟨data, target, inHbm, notHbm, accepted, moved⟩ |
      ⟨data, notInHbm, inDram, accepted, moved⟩
  · rw [failed] at flag
    exact Bool.noConfusion flag
  · cases tier with
    | hbm =>
        rw [moved]
        simpa [gainedBytes] using
          tracked.usedBytes_move notHbm accepted
    | dram =>
        have beside :=
          tracked.beside rfl entry.id member (by simp [inHbm])
        obtain ⟨other, inDram⟩ := Option.isSome_iff_exists.mp beside
        rw [demote_of_both consistent inHbm beside, move,
          putToTier_of_present consistent.ssdSound inDram,
          usedBytes_eraseFromTier_of_ne _ _ (by decide)]
        simp [gainedBytes, inHbm]
    | ssd =>
        simp [Demotes] at demotes
  · cases tier with
    | hbm =>
        rw [moved, usedBytes_move_of_ne _ _ (by decide) (by decide)]
        simp [gainedBytes, heldBytes, notInHbm]
    | dram =>
        rw [moved]
        simpa [gainedBytes, notInHbm] using
          tracked.usedBytes_move (by decide) accepted
    | ssd =>
        simp [Demotes] at demotes

/-- The counter of the tier falls by what is gained. -/
theorem Tracked.usedBytes_evictBlock
    (tracked : store.Tracked tier ids size)
    (member : entry.id ∈ ids) :
    (evictBlock store tier entry).2.usedBytes tier +
        gainedBytes tier store entry.id =
      store.usedBytes tier := by
  cases demotes : store.Demotes tier entry.id with
  | true =>
      rw [evictBlock_of_demotes demotes]
      exact tracked.usedBytes_demote member demotes
  | false =>
      have gains :
          gainedBytes tier store entry.id = store.heldBytes tier entry.id := by
        refine if_neg ?_
        rintro ⟨isDram, inHbm⟩
        have beside := tracked.beside isDram entry.id member inHbm
        obtain ⟨data, inHbm⟩ := Option.isSome_iff_exists.mp inHbm
        simp [Demotes, isDram,
          demote_of_both tracked.copies.consistent inHbm beside] at demotes
      rw [evictBlock_of_not_demotes demotes, gains]
      exact tracked.accounted.usedBytes_erase entry.id

/-- A pass counts for a victim what is claimed. -/
theorem Tracked.evictBlock_fst
    (tracked : store.Tracked tier ids size)
    (member : entry.id ∈ ids)
    (isSize : entry.sizeBytes = size entry.id) :
    (evictBlock store tier entry).1 =
      claimedBytes size tier store entry.id := by
  cases demotes : store.Demotes tier entry.id with
  | true =>
      have both : tier ≠ .ssd ∧ (store.demote entry.id).1 = true := by
        simpa [Demotes] using demotes
      have resident : store.Resident entry.id := by
        rcases store.demote_cases entry.id with
          failed | ⟨data, source, _, held, _⟩
        · rw [failed] at both
          exact Bool.noConfusion both.2
        · exact ⟨source, by simp [held]⟩
      rw [evictBlock_of_demotes demotes, claimedBytes, if_neg both.1,
        if_pos resident]
      exact isSize
  | false =>
      have claims :
          store.heldInAll entry.id =
            claimedBytes size tier store entry.id := by
        unfold claimedBytes
        split
        · rfl
        · next above =>
            refine tracked.heldInAll_of_failed ?_
            simpa [Demotes, above] using demotes
      have bounded := tracked.claimedBytes_lt member
      have noWrap : halfRange < sizeRange := by decide
      rw [evictBlock_of_not_demotes demotes,
        tracked.copies.consistent.erase_fst, claims,
        Nat.mod_eq_of_lt (bounded.trans noWrap)]

/-- A victim is not in HBM afterwards. -/
theorem Tracked.copy_hbm_evictBlock
    (tracked : store.Tracked tier ids size) :
    (evictBlock store tier entry).2.copy .hbm entry.id = none := by
  have consistent := tracked.copies.consistent
  cases demotes : store.Demotes tier entry.id with
  | true =>
      have both : tier ≠ .ssd ∧ (store.demote entry.id).1 = true := by
        simpa [Demotes] using demotes
      rw [evictBlock_of_demotes demotes]
      exact copy_hbm_demote consistent both.2
  | false =>
      rw [evictBlock_of_not_demotes demotes, copy_erase consistent,
        if_pos rfl]

/-- A victim leaves the store tracked. -/
theorem Tracked.evictBlock
    (tracked : store.Tracked tier ids size)
    (member : entry.id ∈ ids) :
    (evictBlock store tier entry).2.Tracked tier ids size where
  accounted := by
    cases demotes : store.Demotes tier entry.id with
    | true =>
        rw [evictBlock_of_demotes demotes]
        exact tracked.accounted_demote member
    | false =>
        rw [evictBlock_of_not_demotes demotes]
        exact tracked.accounted.erase entry.id
  copies := (copies_stable _).evictBlock tracked.copies tier entry
  beside isDram id member inHbm := by
    by_cases same : id = entry.id
    · rw [same, tracked.copy_hbm_evictBlock] at inHbm
      simp at inHbm
    · rw [copy_evictBlock_of_ne tracked.copies.consistent same] at inHbm ⊢
      exact tracked.beside isDram id member inHbm
  small := tracked.small
  fitSlots := tracked.fitSlots

/-- What is counted if a victim is taken once more. -/
theorem Tracked.claimedBytes_after
    (tracked : store.Tracked tier ids size)
    (resident : store.Resident entry.id) :
    claimedBytes size tier (Lethe.evictBlock store tier entry).2 entry.id =
      if store.Demotes tier entry.id then size entry.id else 0 := by
  have consistent := tracked.copies.consistent
  unfold claimedBytes
  split
  · next slowest =>
      have stays : store.Demotes tier entry.id = false := by
        simp [Demotes, slowest]
      rw [evictBlock_of_not_demotes stays, stays]
      simp [heldInAll, heldBytes, copy_erase consistent]
  · simp only [resident_evictBlock consistent resident]

/-- What a victim gains if it is taken once more. -/
theorem Tracked.gainedBytes_after
    (tracked : store.Tracked tier ids size)
    (member : entry.id ∈ ids) :
    gainedBytes tier (Lethe.evictBlock store tier entry).2 entry.id =
      if tier = .dram ∧ (store.copy .hbm entry.id).isSome = true then
        size entry.id
      else
        0 := by
  have consistent := tracked.copies.consistent
  have after : (Lethe.evictBlock store tier entry).2.Tracked tier ids size :=
    tracked.evictBlock member
  have notInHbm :
      (Lethe.evictBlock store tier entry).2.copy .hbm entry.id = none :=
    tracked.copy_hbm_evictBlock
  have gains :
      gainedBytes tier (Lethe.evictBlock store tier entry).2 entry.id =
        (Lethe.evictBlock store tier entry).2.heldBytes tier entry.id :=
    if_neg (by simp [notInHbm])
  rw [gains]
  cases tier with
  | hbm =>
      simp [heldBytes, notInHbm]
  | dram =>
      cases inHbm : store.copy .hbm entry.id with
      | some data =>
          have beside :=
            tracked.beside rfl entry.id member (by simp [inHbm])
          have moved := demote_of_both consistent inHbm beside
          have demotes : store.Demotes .dram entry.id = true := by
            simp [Demotes, moved]
          refine (after.heldBytes_of_held ?_).trans (by simp)
          obtain ⟨other, inDram⟩ := Option.isSome_iff_exists.mp beside
          rw [evictBlock_of_demotes demotes, moved, move,
            putToTier_of_present consistent.ssdSound inDram,
            copy_eraseFromTier consistent]
          simp [inDram]
      | none =>
          have left :
              (Lethe.evictBlock store .dram entry).2.copy .dram entry.id =
                none := by
            cases demotes : store.Demotes .dram entry.id with
            | false =>
                rw [evictBlock_of_not_demotes demotes,
                  copy_erase consistent, if_pos rfl]
            | true =>
                rw [evictBlock_of_demotes demotes]
                rcases store.demote_moves entry.id with
                  failed | ⟨data, target, isIn, _⟩ |
                    ⟨data, _, inDram, accepted, moved⟩
                · simp [Demotes, failed] at demotes
                · rw [inHbm] at isIn
                  simp at isIn
                · rw [moved, copy_move consistent accepted]
                  simp [relocated]
          simp [heldBytes, left]
  | ssd =>
      have stays : store.Demotes .ssd entry.id = false := by
        simp [Demotes]
      rw [evictBlock_of_not_demotes stays]
      simp [heldBytes, copy_erase consistent]

end Victim

section Frame

variable
  {first second : TieredStore}
  {id : BlockId}

/-- Bytes depend on the copies of the block only. -/
theorem claimedBytes_congr
    (size : BlockId → Nat)
    (tier : Tier)
    (copies : ∀ query, first.copy query id = second.copy query id) :
    claimedBytes size tier first id = claimedBytes size tier second id := by
  have resident : first.Resident id ↔ second.Resident id := by
    simp only [Resident, copies]
  simp only [claimedBytes, heldInAll, heldBytes, copies, resident]

/-- Bytes depend on the copies of the block only. -/
theorem gainedBytes_congr
    (tier : Tier)
    (copies : ∀ query, first.copy query id = second.copy query id) :
    gainedBytes tier first id = gainedBytes tier second id := by
  simp only [gainedBytes, heldBytes, copies]

end Frame

end TieredStore

end Lethe
