import Lethe.Library.Ledger
import Lethe.VictimBytes

namespace Lethe

/-!
# The target of an eviction pass

A pass that starts above the high watermark is to end at or below the low one,
and not to take a victim when it is there already.  It never takes one too many.
It can stop too early, because it counts bytes that do not leave the tier: it
counts a demoted block again when it meets it on its second lap, it counts a
block of DRAM of which only the copy in HBM goes, and it counts copies in
faster tiers that it erases together with the file.
-/

open Ledger (Charge)

open TieredStore (claimedBytes gainedBytes halfRange)

namespace Evictor

/--
The tier ends at or below its low watermark, and it was above before the last
victim was taken.
-/
structure ReachesTarget
    (evictor : Evictor)
    (store : TieredStore)
    (tier : Tier)
    (blocks : List BlockMeta) : Prop where
  reached :
    (evictor.runPassForTier store tier blocks).2.2.usedBytes tier ≤
      evictor.lowWatermark store tier
  noFurther :
    ∀ earlier victim later,
      evictor.passed alone store tier blocks = earlier ++ victim :: later →
      victim.visited = false →
      (∀ entry ∈ later, entry.visited = true) →
      evictor.lowWatermark store tier <
        (earlier.foldl (SweepState.visit tier)
          { store := store, freed := 0, evicted := [] }).store.usedBytes tier

end Evictor

/-- The blocks that slower tiers take if they are demoted in turn. -/
def demotedInTurn
    (tier : Tier) :
    TieredStore → List BlockMeta → List BlockId
  | _, [] => []
  | store, entry :: rest =>
      if store.Demotes tier entry.id then
        entry.id :: demotedInTurn tier (store.demote entry.id).2 rest
      else
        demotedInTurn tier store rest

/-- Taking a block for the first time. -/
def firstCharge
    (store : TieredStore)
    (tier : Tier)
    (entry : BlockMeta) :
    Charge where
  claimed :=
    if tier = .ssd then store.heldInAll entry.id else entry.sizeBytes
  gained :=
    if tier = .dram ∧ (store.copy .hbm entry.id).isSome = true then
      0
    else
      entry.sizeBytes

/-- Taking a block on the second lap that was taken on the first. -/
def secondCharge
    (store : TieredStore)
    (tier : Tier)
    (demoted : List BlockId)
    (entry : BlockMeta) :
    Charge where
  claimed := if entry.id ∈ demoted then entry.sizeBytes else 0
  gained :=
    if tier = .dram ∧ (store.copy .hbm entry.id).isSome = true then
      entry.sizeBytes
    else
      0

/-- The charges of the first lap, and those of the second. -/
def lapCharges
    (store : TieredStore)
    (tier : Tier)
    (order : List BlockMeta) :
    List Charge :=
  (SweepState.victims order).map (firstCharge store tier) ++
    order.map fun entry =>
      if entry.visited then
        firstCharge store tier entry
      else
        secondCharge store tier
          (demotedInTurn tier store (SweepState.victims order)) entry

/-! ## One lap -/

/-- Entries of known blocks that carry the sizes of these blocks. -/
def Known
    (ids : List BlockId)
    (size : BlockId → Nat)
    (entries : List BlockMeta) : Prop :=
  ∀ entry ∈ entries,
    entry.id ∈ ids ∧ entry.sizeBytes = size entry.id

section Lap

variable
  {tier : Tier}
  {ids : List BlockId}
  {size : BlockId → Nat}
  {sweep : SweepState}
  {entry : BlockMeta}

/-- A step of the hand keeps a store tracked. -/
theorem tracked_visit
    (tracked : sweep.store.Tracked tier ids size)
    (member : entry.id ∈ ids) :
    (sweep.visit tier entry).store.Tracked tier ids size := by
  cases spared : entry.visited with
  | true =>
      rw [SweepState.visit_of_spared spared]
      exact
        ⟨tracked.accounted.clearVisited entry.id,
          (TieredStore.copies_stable _).clearVisited tracked.copies entry.id,
          tracked.beside, tracked.small, tracked.fitSlots⟩
  | false =>
      rw [SweepState.visit_of_victim spared]
      exact tracked.evictBlock member

/-- A step of the hand leaves the copies of all other blocks. -/
theorem copy_visit_of_ne
    (consistent : sweep.store.SsdConsistent)
    {id : BlockId}
    (other : entry.visited = false → id ≠ entry.id)
    (query : Tier) :
    (sweep.visit tier entry).store.copy query id =
      sweep.store.copy query id := by
  cases spared : entry.visited with
  | true =>
      rw [SweepState.visit_of_spared spared]
      rfl
  | false =>
      rw [SweepState.visit_of_victim spared]
      exact TieredStore.copy_evictBlock_of_ne consistent (other spared) query

/-- What a step over a victim counts and what it gains. -/
theorem visit_victim_bytes
    (tracked : sweep.store.Tracked tier ids size)
    (known : entry.id ∈ ids ∧ entry.sizeBytes = size entry.id)
    (victim : entry.visited = false)
    (short : sweep.freed < halfRange) :
    (sweep.visit tier entry).freed =
        sweep.freed +
          claimedBytes size tier sweep.store entry.id ∧
      (sweep.visit tier entry).store.usedBytes tier +
          gainedBytes tier sweep.store entry.id =
        sweep.store.usedBytes tier := by
  rw [SweepState.visit_of_victim victim]
  refine ⟨?_, tracked.usedBytes_evictBlock known.1⟩
  have bounded := tracked.claimedBytes_lt known.1
  have range : halfRange + halfRange = sizeRange := by decide
  rw [tracked.evictBlock_fst known.1 known.2]
  exact addSize_of_lt (by omega)

/-- A tracked store, and different known blocks that the hand is to meet. -/
structure Ahead
    (tier : Tier)
    (ids : List BlockId)
    (size : BlockId → Nat)
    (store : TieredStore)
    (entries : List BlockMeta) : Prop where
  tracked : store.Tracked tier ids size
  distinct : (entries.map BlockMeta.id).Nodup
  known : Known ids size entries

section Ahead

variable {rest : List BlockMeta}

/-- The first entry is of a known block. -/
theorem Ahead.knownFirst
    (ahead : Ahead tier ids size sweep.store (entry :: rest)) :
    entry.id ∈ ids ∧ entry.sizeBytes = size entry.id :=
  ahead.known entry (by simp)

/-- The block of the first entry is not met again. -/
theorem Ahead.ne_first
    (ahead : Ahead tier ids size sweep.store (entry :: rest))
    {other : BlockMeta}
    (member : other ∈ rest) :
    other.id ≠ entry.id := by
  intro same
  have distinct := ahead.distinct
  rw [List.map_cons, List.nodup_cons] at distinct
  exact distinct.1 (same ▸ List.mem_map_of_mem member)

/-- After a step the rest is ahead. -/
theorem Ahead.visit
    (ahead : Ahead tier ids size sweep.store (entry :: rest)) :
    Ahead tier ids size (sweep.visit tier entry).store rest where
  tracked := tracked_visit ahead.tracked ahead.knownFirst.1
  distinct := by
    have distinct := ahead.distinct
    rw [List.map_cons, List.nodup_cons] at distinct
    exact distinct.2
  known other member := ahead.known other (List.mem_cons_of_mem _ member)

/-- A step leaves the blocks that are still ahead. -/
theorem Ahead.copy_visit
    (ahead : Ahead tier ids size sweep.store (entry :: rest))
    {other : BlockMeta}
    (member : other ∈ rest)
    (query : Tier) :
    (sweep.visit tier entry).store.copy query other.id =
      sweep.store.copy query other.id :=
  copy_visit_of_ne ahead.tracked.copies.consistent
    (fun _ => ahead.ne_first member) query

end Ahead

/-- The victims among the entries claim and gain what they are charged. -/
def Charged
    (tier : Tier)
    (size : BlockId → Nat)
    (charge : BlockMeta → Charge)
    (store : TieredStore)
    (entries : List BlockMeta) : Prop :=
  ∀ entry ∈ entries,
    entry.visited = false →
    claimedBytes size tier store entry.id = (charge entry).claimed ∧
      gainedBytes tier store entry.id = (charge entry).gained

/-- A step leaves the charges of the entries that are still ahead. -/
theorem Charged.visit
    {charge : BlockMeta → Charge}
    {rest : List BlockMeta}
    (charged : Charged tier size charge sweep.store (entry :: rest))
    (ahead : Ahead tier ids size sweep.store (entry :: rest)) :
    Charged tier size charge (sweep.visit tier entry).store rest := by
  intro other member victim
  have same := ahead.copy_visit member
  rw [TieredStore.claimedBytes_congr size tier same,
    TieredStore.gainedBytes_congr tier same]
  exact charged other (List.mem_cons_of_mem _ member) victim

/--
A walk over different blocks works through the charges of its victims, if these
are what the victims claim and gain in the store at its start.
-/
theorem walk_spends
    {need : Nat}
    (bounded : need ≤ halfRange)
    {charge : BlockMeta → Charge}
    {entries : List BlockMeta}
    {total : Charge}
    {used : Nat}
    (ahead : Ahead tier ids size sweep.store entries)
    (charged : Charged tier size charge sweep.store entries)
    (isFreed : sweep.freed = total.claimed)
    (isUsed : sweep.store.usedBytes tier + total.gained = used) :
    let after :=
      ClockHand.walk (SweepState.done need) (SweepState.visit tier) entries
        sweep
    let spent :=
      Ledger.spend need ((SweepState.victims entries).map charge) total
    after.store.Tracked tier ids size ∧
      after.freed = spent.claimed ∧
      after.store.usedBytes tier + spent.gained = used := by
  induction entries generalizing sweep total with
  | nil =>
      exact ⟨ahead.tracked, isFreed, isUsed⟩
  | cons entry rest inductionHypothesis =>
      have stops : sweep.done need = Ledger.enough need total := by
        rw [SweepState.done, Ledger.enough, isFreed]
      by_cases stopped : sweep.done need = true
      · rw [ClockHand.walk_of_stopped stopped, Ledger.spend,
          ClockHand.walk_of_stopped (stops.symm.trans stopped)]
        exact ⟨ahead.tracked, isFreed, isUsed⟩
      · have next := charged.visit ahead
        rw [ClockHand.walk_cons, if_neg stopped]
        cases spared : entry.visited with
        | true =>
            rw [SweepState.victims_cons_of_spared spared]
            refine inductionHypothesis ahead.visit next ?_ ?_
            · rw [SweepState.visit_of_spared spared]
              exact isFreed
            · rw [SweepState.visit_of_spared spared]
              exact isUsed
        | false =>
            have short : sweep.freed < need :=
              Nat.not_le.mp fun enough =>
                stopped (SweepState.done_iff.mpr enough)
            have bytes :=
              visit_victim_bytes ahead.tracked ahead.knownFirst spared
                (short.trans_le bounded)
            have amounts := charged entry (by simp) spared
            rw [stops] at stopped
            rw [SweepState.victims_cons_of_victim spared, List.map_cons,
              Ledger.spend, ClockHand.walk_cons, if_neg stopped]
            refine inductionHypothesis ahead.visit next ?_ ?_
            · rw [bytes.1, isFreed, amounts.1]
              rfl
            · have left := bytes.2
              rw [amounts.2] at left
              simp only [Charge.add]
              omega

/-- Visits leave the copies of the blocks that they do not take. -/
theorem copy_foldl_of_not_victim
    {entries : List BlockMeta}
    (consistent : sweep.store.SsdConsistent)
    {id : BlockId}
    (spared : id ∉ (SweepState.victims entries).map BlockMeta.id)
    (query : Tier) :
    (entries.foldl (SweepState.visit tier) sweep).store.copy query id =
      sweep.store.copy query id := by
  induction entries generalizing sweep with
  | nil =>
      rfl
  | cons entry rest inductionHypothesis =>
      have notFirst : entry.visited = false → id ≠ entry.id := by
        rintro victim rfl
        exact spared (by simp [SweepState.victims, victim])
      have notRest :
          id ∉ (SweepState.victims rest).map BlockMeta.id := by
        intro member
        obtain ⟨other, isVictim, isId⟩ := List.mem_map.mp member
        refine spared (List.mem_map.mpr ⟨other, ?_, isId⟩)
        exact List.Sublist.subset
          ((List.sublist_cons_self entry rest).filter _) isVictim
      have next : (sweep.visit tier entry).store.SsdConsistent :=
        TieredStore.ssdConsistent_stable.visit consistent tier entry
      rw [List.foldl_cons, inductionHypothesis next notRest,
        copy_visit_of_ne consistent notFirst]

/-- Only the given blocks are demoted. -/
theorem demotedInTurn_subset
    {store : TieredStore}
    {entries : List BlockMeta} :
    demotedInTurn tier store entries ⊆ entries.map BlockMeta.id := by
  induction entries generalizing store with
  | nil =>
      exact List.nil_subset _
  | cons entry rest inductionHypothesis =>
      rw [demotedInTurn, List.map_cons]
      split
      · exact List.cons_subset_cons _ inductionHypothesis
      · exact List.subset_cons_of_subset _ inductionHypothesis

/-- What a victim of the first lap claims and gains on the second. -/
structure TakenAgain
    (tier : Tier)
    (size : BlockId → Nat)
    (before after : TieredStore)
    (demoted : List BlockId)
    (id : BlockId) : Prop where
  claims :
    claimedBytes size tier after id =
      if id ∈ demoted then size id else 0
  gains :
    gainedBytes tier after id =
      if tier = .dram ∧ (before.copy .hbm id).isSome = true then
        size id
      else
        0

/-- Only the copy in HBM and the listing of the block matter. -/
theorem TakenAgain.congr
    {before other after : TieredStore}
    {demoted others : List BlockId}
    {id : BlockId}
    (again : TakenAgain tier size before after demoted id)
    (sameCopy : other.copy .hbm id = before.copy .hbm id)
    (sameListing : id ∈ others ↔ id ∈ demoted) :
    TakenAgain tier size other after others id where
  claims := by
    rw [again.claims]
    simp only [sameListing]
  gains := by
    rw [again.gains, sameCopy]

/-- A store in which the block is demoted, if a slower tier takes it. -/
def demotedIfTaken
    (tier : Tier)
    (store : TieredStore)
    (id : BlockId) :
    TieredStore :=
  if store.Demotes tier id then (store.demote id).2 else store

/-- A demotion keeps the file consistent. -/
theorem demotedIfTaken_consistent
    {store : TieredStore}
    (consistent : store.SsdConsistent)
    (id : BlockId) :
    (demotedIfTaken tier store id).SsdConsistent := by
  unfold demotedIfTaken
  split
  · exact TieredStore.ssdConsistent_stable.demote consistent id
  · exact consistent

/-- A demotion leaves the copies of all other blocks. -/
theorem copy_demotedIfTaken_of_ne
    {store : TieredStore}
    (consistent : store.SsdConsistent)
    {id other : BlockId}
    (different : other ≠ id)
    (query : Tier) :
    (demotedIfTaken tier store id).copy query other =
      store.copy query other := by
  unfold demotedIfTaken
  split
  · exact TieredStore.copy_demote_of_ne consistent different query
  · rfl

/-- Demotions in turn, one at a time. -/
theorem demotedInTurn_cons
    (store : TieredStore)
    (entry : BlockMeta)
    (rest : List BlockMeta) :
    demotedInTurn tier store (entry :: rest) =
      (if store.Demotes tier entry.id then [entry.id] else []) ++
        demotedInTurn tier (demotedIfTaken tier store entry.id) rest := by
  rw [demotedInTurn, demotedIfTaken]
  split <;> rfl

/-- Taking a block fills the tiers below as a demotion does. -/
theorem sameBelow_evictBlock
    {store shadow : TieredStore}
    (tracked : store.Tracked tier ids size)
    (held : (store.copy tier entry.id).isSome = true)
    (consistent : shadow.SsdConsistent)
    (below : TieredStore.SameBelow tier store shadow)
    (copies :
      ∀ query, store.copy query entry.id = shadow.copy query entry.id) :
    store.Demotes tier entry.id = shadow.Demotes tier entry.id ∧
      TieredStore.SameBelow tier (evictBlock store tier entry).2
        (demotedIfTaken tier shadow entry.id) := by
  have alike :=
    below.demote tracked.copies.consistent consistent copies held
  refine ⟨alike.1, ?_⟩
  cases demotes : store.Demotes tier entry.id with
  | true =>
      rw [TieredStore.evictBlock_of_demotes demotes, demotedIfTaken,
        if_pos (alike.1.symm.trans demotes)]
      exact alike.2
  | false =>
      have stays : ¬ shadow.Demotes tier entry.id = true := by
        rw [← alike.1, demotes]
        exact Bool.false_ne_true
      rw [TieredStore.evictBlock_of_not_demotes demotes, demotedIfTaken,
        if_neg stays]
      refine (TieredStore.sameBelow_erase tracked.copies.consistent
        fun above query other => ?_).trans below
      exact TieredStore.only_copy_of_not_demotes tracked.copies.consistent
        (tracked.sameSize entry.id) above held demotes other

/-- A victim that is not met again in the lap. -/
theorem takenAgain_first
    {store : TieredStore}
    (tracked : store.Tracked tier ids size)
    (member : entry.id ∈ ids)
    (held : (store.copy tier entry.id).isSome = true)
    {after : TieredStore}
    (kept :
      ∀ query,
        after.copy query entry.id =
          (evictBlock store tier entry).2.copy query entry.id)
    {demoted : List BlockId}
    (listing :
      entry.id ∈ demoted ↔ store.Demotes tier entry.id = true) :
    TakenAgain tier size store after demoted entry.id where
  claims := by
    rw [TieredStore.claimedBytes_congr size tier kept,
      tracked.claimedBytes_after ⟨tier, held⟩]
    simp only [listing]
  gains := by
    rw [TieredStore.gainedBytes_congr tier kept,
      tracked.gainedBytes_after member]

/-- What becomes of the second store when the hand meets an entry. -/
def shadowAfter
    (tier : Tier)
    (shadow : TieredStore)
    (entry : BlockMeta) :
    TieredStore :=
  if entry.visited then shadow else demotedIfTaken tier shadow entry.id

/--
A second store in which victims are only demoted: it holds the blocks that are
still ahead, and its slower tiers are filled alike.
-/
structure Shadowed
    (tier : Tier)
    (store shadow : TieredStore)
    (entries : List BlockMeta) : Prop where
  consistent : shadow.SsdConsistent
  below : TieredStore.SameBelow tier store shadow
  held :
    ∀ entry ∈ entries, (store.copy tier entry.id).isSome = true
  copies :
    ∀ entry ∈ entries,
      ∀ query, store.copy query entry.id = shadow.copy query entry.id

/-- A step of the hand keeps the second store alike. -/
theorem Shadowed.visit
    {shadow : TieredStore}
    {rest : List BlockMeta}
    (shadowed : Shadowed tier sweep.store shadow (entry :: rest))
    (ahead : Ahead tier ids size sweep.store (entry :: rest)) :
    Shadowed tier (sweep.visit tier entry).store
      (shadowAfter tier shadow entry) rest where
  consistent := by
    unfold shadowAfter
    split
    · exact shadowed.consistent
    · exact demotedIfTaken_consistent shadowed.consistent entry.id
  below := by
    cases spared : entry.visited with
    | true =>
        rw [SweepState.visit_of_spared spared, shadowAfter, if_pos spared]
        exact ⟨shadowed.below.dram, shadowed.below.ssd⟩
    | false =>
        rw [SweepState.visit_of_victim spared, shadowAfter,
          if_neg (by simp [spared])]
        exact
          (sameBelow_evictBlock ahead.tracked
            (shadowed.held entry (by simp)) shadowed.consistent
            shadowed.below (shadowed.copies entry (by simp))).2
  held other member := by
    rw [ahead.copy_visit member]
    exact shadowed.held other (List.mem_cons_of_mem _ member)
  copies other member query := by
    have same :
        (shadowAfter tier shadow entry).copy query other.id =
          shadow.copy query other.id := by
      unfold shadowAfter
      split
      · rfl
      · exact
          copy_demotedIfTaken_of_ne shadowed.consistent
            (ahead.ne_first member) query
    rw [ahead.copy_visit member, same]
    exact shadowed.copies other (List.mem_cons_of_mem _ member) query

/-- The demotions in turn of the victims of a lap, one entry at a time. -/
theorem demotedInTurn_victims_cons
    (shadow : TieredStore)
    (entry : BlockMeta)
    (rest : List BlockMeta) :
    demotedInTurn tier shadow (SweepState.victims (entry :: rest)) =
      (if entry.visited = false ∧ shadow.Demotes tier entry.id = true then
          [entry.id]
        else
          []) ++
        demotedInTurn tier (shadowAfter tier shadow entry)
          (SweepState.victims rest) := by
  cases spared : entry.visited with
  | true =>
      rw [SweepState.victims_cons_of_spared spared, shadowAfter,
        if_pos spared]
      simp
  | false =>
      have shadow_eq :
          shadowAfter tier shadow entry =
            demotedIfTaken tier shadow entry.id :=
        if_neg (by simp [spared])
      rw [SweepState.victims_cons_of_victim spared, demotedInTurn_cons,
        shadow_eq]
      simp

/--
After a lap every victim claims its size again exactly if a slower tier has
taken it, where the tiers below are filled as by demotions in turn.
-/
theorem foldl_takenAgain
    {entries : List BlockMeta}
    {shadow : TieredStore}
    (ahead : Ahead tier ids size sweep.store entries)
    (shadowed : Shadowed tier sweep.store shadow entries) :
    ∀ entry ∈ entries,
      entry.visited = false →
      TakenAgain tier size sweep.store
        (entries.foldl (SweepState.visit tier) sweep).store
        (demotedInTurn tier shadow (SweepState.victims entries)) entry.id := by
  induction entries generalizing sweep shadow with
  | nil =>
      simp
  | cons entry rest inductionHypothesis =>
      intro other member victim
      have consistentNext := ahead.visit.tracked.copies.consistent
      rw [demotedInTurn_victims_cons, List.foldl_cons]
      rcases List.mem_cons.mp member with rfl | inRest
      · have notAgain :
            other.id ∉ (SweepState.victims rest).map BlockMeta.id := by
          intro again
          obtain ⟨third, isVictim, isId⟩ := List.mem_map.mp again
          exact ahead.ne_first (List.mem_of_mem_filter isVictim) isId
        have alike :=
          (sameBelow_evictBlock ahead.tracked
            (shadowed.held other (by simp)) shadowed.consistent
            shadowed.below (shadowed.copies other (by simp))).1
        refine takenAgain_first ahead.tracked ahead.knownFirst.1
          (shadowed.held other (by simp)) ?_ ?_
        · intro query
          rw [copy_foldl_of_not_victim consistentNext notAgain,
            SweepState.visit_of_victim victim]
        · have notListed :
              other.id ∉
                demotedInTurn tier (shadowAfter tier shadow other)
                  (SweepState.victims rest) :=
            fun again => notAgain (demotedInTurn_subset again)
          rw [List.mem_append, or_iff_left notListed, alike]
          simp [victim]
      · refine
          (inductionHypothesis ahead.visit (shadowed.visit ahead) other
            inRest victim).congr (ahead.copy_visit inRest .hbm).symm ?_
        have notFirst := ahead.ne_first inRest
        rw [List.mem_append, or_iff_right]
        split
        · simpa using notFirst
        · simp

end Lap

/-! ## Two laps -/

section TwoLaps

variable
  {tier : Tier}
  {ids : List BlockId}
  {size : BlockId → Nat}
  {store : TieredStore}
  {order : List BlockMeta}

/-- A block of the tier claims and gains its first charge. -/
theorem firstCharge_bytes
    (tracked : store.Tracked tier ids size)
    {entry : BlockMeta}
    (isSize : entry.sizeBytes = size entry.id)
    (held : (store.copy tier entry.id).isSome = true) :
    claimedBytes size tier store entry.id =
        (firstCharge store tier entry).claimed ∧
      gainedBytes tier store entry.id =
        (firstCharge store tier entry).gained := by
  have resident : store.Resident entry.id := ⟨tier, held⟩
  constructor
  · simp only [claimedBytes, firstCharge, if_pos resident, isSize]
  · simp only [gainedBytes, firstCharge, tracked.heldBytes_of_held held,
      isSize]

/-- An entry is among the victims of a lap exactly if it is not spared. -/
theorem id_mem_victims_iff
    (distinct : (order.map BlockMeta.id).Nodup)
    {entry : BlockMeta}
    (member : entry ∈ order) :
    entry.id ∈ (SweepState.victims order).map BlockMeta.id ↔
      entry.visited = false := by
  constructor
  · intro listed
    obtain ⟨victim, isVictim, sameId⟩ := List.mem_map.mp listed
    obtain ⟨inOrder, taken⟩ := List.mem_filter.mp isVictim
    rw [← List.inj_on_of_nodup_map distinct inOrder member sameId]
    simpa using taken
  · intro taken
    exact
      List.mem_map_of_mem (List.mem_filter.mpr ⟨member, by simp [taken]⟩)

/-- The charge of an entry on the second lap. -/
def secondLapCharge
    (store : TieredStore)
    (tier : Tier)
    (order : List BlockMeta)
    (entry : BlockMeta) :
    Charge :=
  if entry.id ∈ (SweepState.victims order).map BlockMeta.id then
    secondCharge store tier
      (demotedInTurn tier store (SweepState.victims order)) entry
  else
    firstCharge store tier entry

/-- The charges of the second lap, entry by entry. -/
theorem map_secondLapCharge
    (distinct : (order.map BlockMeta.id).Nodup) :
    (SweepState.victims (order.map BlockMeta.clearBit)).map
        (secondLapCharge store tier order) =
      order.map fun entry =>
        if entry.visited then
          firstCharge store tier entry
        else
          secondCharge store tier
            (demotedInTurn tier store (SweepState.victims order)) entry := by
  have all :
      SweepState.victims (order.map BlockMeta.clearBit) =
        order.map BlockMeta.clearBit := by
    refine List.filter_eq_self.mpr fun entry member => ?_
    obtain ⟨source, _, rfl⟩ := List.mem_map.mp member
    rfl
  rw [all, List.map_map]
  refine List.map_congr_left fun entry member => ?_
  have listed := id_mem_victims_iff distinct member
  simp only [Function.comp_apply, secondLapCharge]
  have sameId : entry.clearBit.id = entry.id := rfl
  cases spared : entry.visited with
  | true =>
      rw [spared] at listed
      rw [sameId, if_neg (by simp [listed]), if_pos rfl]
      rfl
  | false =>
      rw [spared] at listed
      rw [sameId, if_pos (by simp [listed]), if_neg Bool.false_ne_true]
      rfl

/-- After a whole first lap every entry claims and gains its next charge. -/
theorem secondLapCharge_bytes
    (ahead : Ahead tier ids size store order)
    (held : ∀ entry ∈ order, (store.copy tier entry.id).isSome = true)
    {entry : BlockMeta}
    (member : entry ∈ order.map BlockMeta.clearBit) :
    let after :=
      order.foldl (SweepState.visit tier)
        { store := store, freed := 0, evicted := [] }
    claimedBytes size tier after.store entry.id =
        (secondLapCharge store tier order entry).claimed ∧
      gainedBytes tier after.store entry.id =
        (secondLapCharge store tier order entry).gained := by
  intro after
  obtain ⟨source, inOrder, rfl⟩ := List.mem_map.mp member
  have sameId : source.clearBit.id = source.id := rfl
  have isSize : source.clearBit.sizeBytes = size source.clearBit.id :=
    (ahead.known source inOrder).2
  unfold secondLapCharge
  split
  · next taken =>
      rw [sameId, id_mem_victims_iff ahead.distinct inOrder] at taken
      have again :=
        @foldl_takenAgain tier ids size
          { store := store, freed := 0, evicted := [] } order store ahead
          ⟨ahead.tracked.copies.consistent, ⟨fun _ => rfl, fun _ => rfl⟩,
            held, fun _ _ _ => rfl⟩
          source inOrder taken
      rw [sameId] at isSize ⊢
      constructor
      · rw [again.claims]
        simp only [secondCharge, sameId, isSize]
      · rw [again.gains]
        simp only [secondCharge, sameId, isSize]
  · next spared =>
      have same :=
        @copy_foldl_of_not_victim tier
          { store := store, freed := 0, evicted := [] } order
          ahead.tracked.copies.consistent source.clearBit.id spared
      rw [TieredStore.claimedBytes_congr size tier same,
        TieredStore.gainedBytes_congr tier same]
      exact firstCharge_bytes ahead.tracked isSize (held source inOrder)

/-- A pass works through the charges of its two laps. -/
theorem laps_spend
    {need : Nat}
    (bounded : need ≤ halfRange)
    (ahead : Ahead tier ids size store order)
    (held : ∀ entry ∈ order, (store.copy tier entry.id).isSome = true) :
    (ClockHand.walk (SweepState.done need) (SweepState.visit tier)
          (order ++ order.map BlockMeta.clearBit)
          { store := store, freed := 0, evicted := [] }).store.usedBytes
          tier +
        (Ledger.spend need (lapCharges store tier order) ⟨0, 0⟩).gained =
      store.usedBytes tier := by
  have firstLap :=
    @walk_spends tier ids size { store := store, freed := 0, evicted := [] }
      need bounded (firstCharge store tier) order ⟨0, 0⟩ _ ahead
      (fun entry member _ =>
        firstCharge_bytes ahead.tracked (ahead.known entry member).2
          (held entry member))
      rfl rfl
  rw [ClockHand.walk_append, lapCharges, Ledger.spend,
    ClockHand.walk_append, ← Ledger.spend, ← Ledger.spend]
  obtain ⟨trackedNext, isFreed, isUsed⟩ := firstLap
  by_cases stopped :
      (ClockHand.walk (SweepState.done need) (SweepState.visit tier) order
        { store := store, freed := 0, evicted := [] }).done need = true
  · have stoppedToo :
        Ledger.enough need
          (Ledger.spend need
            ((SweepState.victims order).map (firstCharge store tier))
            ⟨0, 0⟩) = true := by
      rw [SweepState.done_iff, isFreed] at stopped
      exact decide_eq_true stopped
    rw [ClockHand.walk_of_stopped stopped, Ledger.spend,
      ClockHand.walk_of_stopped stoppedToo]
    exact isUsed
  · have whole :
        ClockHand.walk (SweepState.done need) (SweepState.visit tier) order
            { store := store, freed := 0, evicted := [] } =
          order.foldl (SweepState.visit tier)
            { store := store, freed := 0, evicted := [] } := by
      rw [ClockHand.walk_eq_foldl_trace,
        (ClockHand.stopped_or_trace_eq order).resolve_left stopped]
    have knownNext : Known ids size (order.map BlockMeta.clearBit) := by
      intro entry member
      obtain ⟨source, inOrder, rfl⟩ := List.mem_map.mp member
      exact ahead.known source inOrder
    have secondLap :=
      @walk_spends tier ids size _ need bounded
        (secondLapCharge store tier order) (order.map BlockMeta.clearBit) _ _
        ⟨trackedNext, by rw [map_clearBit_ids]; exact ahead.distinct,
          knownNext⟩
        (by
          intro entry member _
          rw [whole]
          exact secondLapCharge_bytes ahead held member)
        isFreed isUsed
    rw [map_secondLapCharge ahead.distinct] at secondLap
    exact secondLap.2.2

/-- All charges together claim at least the bytes of the entries. -/
theorem sum_sizes_le_claimed
    {first second : BlockMeta → Charge}
    (entries : List BlockMeta)
    (claims : ∀ entry ∈ entries, entry.sizeBytes ≤ (first entry).claimed) :
    (entries.map BlockMeta.sizeBytes).sum ≤
      Ledger.claimed
        ((SweepState.victims entries).map first ++
          entries.map fun entry =>
            if entry.visited then first entry else second entry) := by
  induction entries with
  | nil =>
      exact Nat.zero_le _
  | cons entry rest inductionHypothesis =>
      have claimsFirst := claims entry (by simp)
      have claimsRest :=
        inductionHypothesis fun other member =>
          claims other (List.mem_cons_of_mem _ member)
      simp only [Ledger.claimed, List.map_append, List.sum_append,
        SweepState.victims] at claimsRest ⊢
      cases spared : entry.visited <;>
        simp only [List.map_cons, List.sum_cons, spared, List.filter_cons,
          Bool.not_true, Bool.not_false, Bool.false_eq_true,
          ↓reduceIte] <;>
        omega

end TwoLaps

/-! ## Passes -/

/-- The size of the largest copy of a block. -/
def TieredStore.blockSize
    (store : TieredStore)
    (id : BlockId) :
    Nat :=
  max (store.heldBytes .hbm id)
    (max (store.heldBytes .dram id) (store.heldBytes .ssd id))

/-- If all copies have one size, every copy has the size of the largest. -/
theorem TieredStore.SameSizes.length_eq
    {store : TieredStore}
    (sizes : store.SameSizes)
    {tier : Tier}
    {id : BlockId}
    {data : List UInt8}
    (held : store.copy tier id = some data) :
    data.length = store.blockSize id := by
  have noLarger :
      ∀ query, store.heldBytes query id ≤ data.length := by
    intro query
    cases present : store.copy query id with
    | none =>
        simp [heldBytes, present]
    | some other =>
        rw [heldBytes, present, sizes id tier query data other held present]
        exact Nat.le_refl _
  have isHeld : store.heldBytes tier id = data.length := by
    rw [heldBytes, held]
    rfl
  have hbm := noLarger .hbm
  have dram := noLarger .dram
  have ssd := noLarger .ssd
  unfold blockSize
  cases tier <;> omega

section Passes

variable
  {evictor : Evictor}
  {store : TieredStore}
  {tier : Tier}
  {blocks : List BlockMeta}

/-- A store whose copies have one size each is tracked by its own sizes. -/
theorem tracked_of_listed
    (accounted : store.Accounted)
    (bounded : store.usedBytes tier < halfRange)
    (sizes : store.SameSizes)
    (listed : blocks.Perm (store.snapshot tier)) :
    store.Tracked tier (blocks.map BlockMeta.id) store.blockSize := by
  have consistent := accounted.ssd
  have inTier :
      ∀ id ∈ blocks.map BlockMeta.id,
        (store.copy tier id).isSome = true :=
    fun id member =>
      (TieredStore.mem_snapshot_ids consistent).mp
        ((listed.map BlockMeta.id).subset member)
  refine
    ⟨accounted.accountedIn tier, ⟨consistent, sizes.length_eq⟩, ?_, ?_, ?_⟩
  · intro isDram id member _
    rw [← isDram]
    exact inTier id member
  · intro id member
    obtain ⟨data, held⟩ := Option.isSome_iff_exists.mp (inTier id member)
    have isHeld : store.heldBytes tier id = data.length := by
      rw [TieredStore.heldBytes, held]
      rfl
    have counted := (accounted.accountedIn tier).usedBytes_erase id
    rw [← sizes.length_eq held]
    omega
  · intro isSsd id member
    have held := inTier id member
    rw [isSsd] at held
    obtain ⟨data, held⟩ := Option.isSome_iff_exists.mp held
    rw [← sizes.length_eq held]
    obtain ⟨tierStore, present, held⟩ := Option.bind_eq_some_iff.mp held
    obtain ⟨copied, isCopied, rfl⟩ := Option.map_eq_some_iff.mp held
    obtain ⟨agrees, small⟩ := consistent tierStore present
    have fits := agrees.length_le isCopied
    unfold SsdGeometry.SmallSlots at small
    unfold halfRange
    omega

/-- The entries of a snapshot carry the sizes of their blocks. -/
theorem known_of_listed
    (consistent : store.SsdConsistent)
    (sizes : store.SameSizes)
    (listed : blocks.Perm (store.snapshot tier)) :
    Known (blocks.map BlockMeta.id) store.blockSize blocks := by
  intro entry member
  refine ⟨List.mem_map_of_mem member, ?_⟩
  have inSnapshot := listed.subset member
  rw [← TieredStore.heldBytes_of_mem_snapshot consistent inSnapshot]
  obtain ⟨data, held⟩ :=
    Option.isSome_iff_exists.mp
      ((TieredStore.mem_snapshot_ids consistent).mp
        (List.mem_map_of_mem inSnapshot))
  rw [← sizes.length_eq held, TieredStore.heldBytes, held]
  rfl

/-- What a pass needs is below half the range unless the watermark is above. -/
theorem need_eq
    (bounded : store.usedBytes tier < halfRange)
    (lowBelow :
      evictor.lowWatermark store tier ≤ store.usedBytes tier) :
    evictor.need store tier =
        store.usedBytes tier - evictor.lowWatermark store tier ∧
      evictor.need store tier ≤ halfRange := by
  have range : halfRange < sizeRange := by decide
  have difference :
      evictor.need store tier =
        store.usedBytes tier - evictor.lowWatermark store tier :=
    subSize_of_le lowBelow (by omega)
  exact ⟨difference, by omega⟩

/-- Facts about every entry of the two laps. -/
theorem known_laps
    (evictor : Evictor)
    (consistent : store.SsdConsistent)
    (sizes : store.SameSizes)
    (listed : blocks.Perm (store.snapshot tier)) :
    Known (blocks.map BlockMeta.id) store.blockSize
      (evictor.laps tier blocks) := by
  have known := known_of_listed consistent sizes listed
  intro entry member
  rcases List.mem_append.mp member with first | second
  · exact known entry (handOrder_perm.subset first)
  · obtain ⟨source, inOrder, rfl⟩ := List.mem_map.mp second
    exact known source (handOrder_perm.subset inOrder)

/-- The pass works through its charges. -/
theorem pass_spends
    (accounted : store.Accounted)
    (bounded : store.usedBytes tier < halfRange)
    (sizes : store.SameSizes)
    (listed : blocks.Perm (store.snapshot tier))
    (runs : evictor.pressure store tier = true ∧ blocks ≠ [])
    (lowBelow :
      evictor.lowWatermark store tier ≤ store.usedBytes tier) :
    (evictor.runPassForTier store tier blocks).2.2.usedBytes tier +
        (Ledger.spend (evictor.need store tier)
          (lapCharges store tier (evictor.handOrder tier blocks))
          ⟨0, 0⟩).gained =
      store.usedBytes tier := by
  have consistent := accounted.ssd
  have known := known_laps evictor consistent sizes listed
  have distinct :
      ((evictor.handOrder tier blocks).map BlockMeta.id).Nodup :=
    ((handOrder_perm.trans listed).map BlockMeta.id).nodup_iff.mpr
      (store.snapshot_ids_nodup tier)
  rw [Evictor.runPassForTier, if_pos runs]
  dsimp only
  rw [evictor.sweep_state]
  exact
    laps_spend (need_eq bounded lowBelow).2
      ⟨tracked_of_listed accounted bounded sizes listed, distinct,
        fun entry member => known entry (List.mem_append_left _ member)⟩
      fun entry member =>
        held_of_mem_laps consistent listed (List.mem_append_left _ member)

/-- The charges of a pass claim all bytes of the tier. -/
theorem usedBytes_le_claimed
    (accounted : store.Accounted)
    (listed : blocks.Perm (store.snapshot tier)) :
    store.usedBytes tier ≤
      Ledger.claimed
        (lapCharges store tier (evictor.handOrder tier blocks)) := by
  have consistent := accounted.ssd
  have order : (evictor.handOrder tier blocks).Perm (store.snapshot tier) :=
    handOrder_perm.trans listed
  rw [accounted.usedBytes_eq_snapshot tier,
    ← (order.map BlockMeta.sizeBytes).sum_eq]
  refine sum_sizes_le_claimed _ fun entry member => ?_
  have isSize :=
    TieredStore.heldBytes_of_mem_snapshot consistent (order.subset member)
  unfold firstCharge
  dsimp only
  split
  · next slowest =>
      rw [← isSize, slowest, TieredStore.heldInAll]
      omega
  · exact Nat.le_refl _

/-- Steps of the hand never raise the counter of the tier. -/
theorem usedBytes_foldl_le
    {ids : List BlockId}
    {size : BlockId → Nat}
    {sweep : SweepState}
    (tracked : sweep.store.Tracked tier ids size)
    {entries : List BlockMeta}
    (known : Known ids size entries) :
    (entries.foldl (SweepState.visit tier) sweep).store.usedBytes tier ≤
      sweep.store.usedBytes tier := by
  induction entries generalizing sweep with
  | nil =>
      exact Nat.le_refl _
  | cons entry rest inductionHypothesis =>
      refine
        (inductionHypothesis
          (tracked_visit tracked (known entry (by simp)).1)
          fun other member =>
            known other (List.mem_cons_of_mem _ member)).trans ?_
      cases spared : entry.visited with
      | true =>
          rw [SweepState.visit_of_spared spared]
          exact Nat.le_refl _
      | false =>
          have left := tracked.usedBytes_evictBlock (known entry (by simp)).1
          rw [SweepState.visit_of_victim spared]
          exact Nat.le.intro left

/-- While a pass runs, it has counted no less than has left the tier. -/
theorem usedBytes_le_of_running
    (accounted : store.Accounted)
    (bounded : store.usedBytes tier < halfRange)
    (sizes : store.SameSizes)
    (listed : blocks.Perm (store.snapshot tier))
    (lowBelow :
      evictor.lowWatermark store tier ≤ store.usedBytes tier)
    {earlier : List BlockMeta}
    (visited :
      earlier <+:
        ClockHand.trace
          (SweepState.done (evictor.need store tier))
          (SweepState.visit tier)
          (evictor.laps tier blocks)
          { store := store, freed := 0, evicted := [] }) :
    let now :=
      earlier.foldl (SweepState.visit tier)
        { store := store, freed := 0, evicted := [] }
    store.usedBytes tier ≤ now.store.usedBytes tier + now.freed := by
  have known := known_laps evictor accounted.ssd sizes listed
  have needBounded := (need_eq bounded lowBelow).2
  refine
    (ClockHand.trace_invariant
      (fun sweep : SweepState =>
        sweep.store.Tracked tier (blocks.map BlockMeta.id)
            store.blockSize ∧
          store.usedBytes tier ≤ sweep.store.usedBytes tier + sweep.freed)
      ?_
      ⟨tracked_of_listed accounted bounded sizes listed, Nat.le_refl _⟩
      visited).2
  rintro sweep entry member running ⟨tracked, margin⟩
  refine ⟨tracked_visit tracked (known entry member).1, ?_⟩
  cases spared : entry.visited with
  | true =>
      rw [SweepState.visit_of_spared spared]
      exact margin
  | false =>
      have short : sweep.freed < evictor.need store tier := by
        simpa [SweepState.done] using running
      have bytes :=
        visit_victim_bytes tracked (known entry member) spared
          (short.trans_le needBounded)
      have noLess := tracked.gainedBytes_le_claimedBytes entry.id
      omega

/-- Before every victim the tier is above the low watermark. -/
theorem above_before_victim
    (accounted : store.Accounted)
    (bounded : store.usedBytes tier < halfRange)
    (sizes : store.SameSizes)
    (listed : blocks.Perm (store.snapshot tier))
    (runs : evictor.pressure store tier = true ∧ blocks ≠ [])
    (lowBelow :
      evictor.lowWatermark store tier ≤ store.usedBytes tier)
    {earlier later : List BlockMeta}
    {victim : BlockMeta}
    (shape :
      evictor.passed alone store tier blocks = earlier ++ victim :: later) :
    evictor.lowWatermark store tier <
      (earlier.foldl (SweepState.visit tier)
        { store := store, freed := 0, evicted := [] }).store.usedBytes
          tier := by
  rw [Evictor.passed_alone runs] at shape
  have visited :
      earlier ++ [victim] <+:
        ClockHand.trace
          (SweepState.done (evictor.need store tier))
          (SweepState.visit tier)
          (evictor.laps tier blocks)
          { store := store, freed := 0, evicted := [] } := by
    rw [shape]
    exact ⟨later, by simp⟩
  have running := ClockHand.not_stopped_before visited
  have margin :=
    usedBytes_le_of_running accounted bounded sizes listed lowBelow
      ((List.prefix_append _ _).trans visited)
  have isNeed := (need_eq bounded lowBelow).1
  simp only [SweepState.done, decide_eq_false_iff_not, Nat.not_le]
    at running
  dsimp only at margin
  omega

/-- A list with a victim has a last one. -/
theorem exists_last_victim
    {entries : List BlockMeta}
    (takes : ∃ entry ∈ entries, entry.visited = false) :
    ∃ earlier victim later,
      entries = earlier ++ victim :: later ∧
        victim.visited = false ∧
        ∀ entry ∈ later, entry.visited = true := by
  induction entries with
  | nil =>
      simp at takes
  | cons entry rest inductionHypothesis =>
      by_cases inRest : ∃ other ∈ rest, other.visited = false
      · obtain ⟨earlier, victim, later, rfl, taken, spared⟩ :=
          inductionHypothesis inRest
        exact ⟨entry :: earlier, victim, later, rfl, taken, spared⟩
      · have spared : ∀ other ∈ rest, other.visited = true := by
          simpa using inRest
        obtain ⟨first, member, taken⟩ := takes
        rcases List.mem_cons.mp member with rfl | later
        · exact ⟨[], first, rest, rfl, taken, spared⟩
        · exact absurd ⟨first, later, taken⟩ inRest

/-- Spared entries free nothing. -/
theorem freed_foldl_of_spared
    {entries : List BlockMeta}
    (spared : ∀ entry ∈ entries, entry.visited = true)
    (sweep : SweepState) :
    (entries.foldl (SweepState.visit tier) sweep).freed = sweep.freed := by
  induction entries generalizing sweep with
  | nil =>
      rfl
  | cons entry rest inductionHypothesis =>
      rw [List.foldl_cons,
        inductionHypothesis fun other member =>
          spared other (List.mem_cons_of_mem _ member),
        SweepState.visit_of_spared (spared entry (by simp))]

/-- A pass that needs something takes a victim. -/
theorem exists_victim
    (runs : evictor.pressure store tier = true ∧ blocks ≠ [])
    (needs : 0 < evictor.need store tier) :
    ∃ entry ∈ evictor.passed alone store tier blocks,
      entry.visited = false := by
  by_contra takesNone
  have spared :
      ∀ entry ∈ evictor.passed alone store tier blocks,
        entry.visited = true := by
    simpa using takesNone
  have nothing :=
    @freed_foldl_of_spared tier _ spared
      { store := store, freed := 0, evicted := [] }
  have notDone :
      ¬ SweepState.done (evictor.need store tier)
        ((evictor.passed alone store tier blocks).foldl
          (SweepState.visit tier)
          { store := store, freed := 0, evicted := [] }) = true := by
    rw [SweepState.done_iff, nothing]
    exact Nat.not_le.mpr needs
  have whole :
      evictor.passed alone store tier blocks =
        evictor.laps tier blocks := by
    rw [Evictor.passed_alone runs] at notDone ⊢
    rw [← ClockHand.walk_eq_foldl_trace] at notDone
    exact (ClockHand.stopped_or_trace_eq _).resolve_left notDone
  obtain ⟨entry, member⟩ := List.exists_mem_of_ne_nil blocks runs.2
  have inLaps : entry.clearBit ∈ evictor.laps tier blocks :=
    List.mem_append_right _
      (List.mem_map_of_mem (handOrder_perm.mem_iff.mpr member))
  rw [← whole] at inLaps
  exact Bool.noConfusion (spared _ inLaps)

/-- A tier under pressure lists blocks. -/
theorem listed_of_pressure
    (accounted : store.Accounted)
    (listed : blocks.Perm (store.snapshot tier))
    (pressed : evictor.pressure store tier = true) :
    blocks ≠ [] := by
  rintro rfl
  have nothing : store.snapshot tier = [] := listed.nil_eq.symm
  have unused := accounted.usedBytes_eq_snapshot tier
  rw [nothing] at unused
  simp [Evictor.pressure, unused] at pressed

/-- A watermark that is above the used bytes is not a target. -/
theorem not_reachesTarget_of_high_target
    (accounted : store.Accounted)
    (bounded : store.usedBytes tier < halfRange)
    (sizes : store.SameSizes)
    (listed : blocks.Perm (store.snapshot tier))
    (runs : evictor.pressure store tier = true ∧ blocks ≠ [])
    (above :
      store.usedBytes tier < evictor.lowWatermark store tier) :
    ¬ evictor.ReachesTarget store tier blocks := by
  intro reaches
  have needs : 0 < evictor.need store tier := by
    have range : evictor.lowWatermark store tier < sizeRange :=
      Nat.lt_of_le_of_lt (Nat.div_le_self _ _) (Nat.mod_lt _ (by decide))
    rw [Evictor.need, subSize, Nat.mod_eq_of_lt range,
      Nat.mod_eq_of_lt (by omega)]
    omega
  obtain ⟨earlier, victim, later, shape, taken, spared⟩ :=
    exists_last_victim (exists_victim runs needs)
  have high := reaches.noFurther earlier victim later shape taken spared
  have known := known_laps evictor accounted.ssd sizes listed
  have visited :=
    (evictor.passed_initial alone store tier blocks).subset
  have low :=
    @usedBytes_foldl_le tier _ _
      { store := store, freed := 0, evicted := [] }
      (tracked_of_listed accounted bounded sizes listed) earlier
      fun entry member =>
        known entry (visited (by rw [shape]; simp [member]))
  dsimp only at low
  omega

end Passes

/--
A pass that starts above the high watermark ends at or below the low one, and
was above it before it took its last victim, if and only if the low watermark
is not above the used bytes and no first part of the pass's charges claims what
the pass needs without gaining it.
-/
theorem eviction_reaches_target_iff
    {evictor : Evictor}
    {store : TieredStore}
    {tier : Tier}
    {blocks : List BlockMeta}
    (accounted : store.Accounted)
    (bounded : store.usedBytes tier < halfRange)
    (sizes : store.SameSizes)
    (listed : blocks.Perm (store.snapshot tier))
    (pressed : evictor.pressure store tier = true) :
    evictor.ReachesTarget store tier blocks ↔
      evictor.lowWatermark store tier ≤ store.usedBytes tier ∧
        ∀ met,
          met <+: lapCharges store tier (evictor.handOrder tier blocks) →
          evictor.need store tier ≤ Ledger.claimed met →
          evictor.need store tier ≤ Ledger.gained met := by
  have runs : evictor.pressure store tier = true ∧ blocks ≠ [] :=
    ⟨pressed, listed_of_pressure accounted listed pressed⟩
  by_cases lowBelow :
      evictor.lowWatermark store tier ≤ store.usedBytes tier
  · have isNeed := (need_eq bounded lowBelow).1
    have spent := pass_spends accounted bounded sizes listed runs lowBelow
    have claimsEnough :
        evictor.need store tier ≤
          Ledger.claimed
            (lapCharges store tier (evictor.handOrder tier blocks)) :=
      (isNeed.trans_le (Nat.sub_le _ _)).trans
        (usedBytes_le_claimed accounted listed)
    rw [← Ledger.gains_enough_iff claimsEnough]
    constructor
    · intro reaches
      have reached := reaches.reached
      exact ⟨lowBelow, by omega⟩
    · rintro ⟨_, gains⟩
      refine ⟨by omega, ?_⟩
      intro earlier victim later shape _ _
      exact above_before_victim accounted bounded sizes listed runs lowBelow
        shape
  · refine iff_of_false ?_ fun condition => lowBelow condition.1
    exact not_reachesTarget_of_high_target accounted bounded sizes listed
      runs (Nat.not_le.mp lowBelow)

/-- Two and eight bytes in DRAM over a file, of which the eight were visited. -/
def unevenStore : TieredStore :=
  storeAfter { dramBytes := 10, ssd := some twoSlotGeometry }
    [ .put { id := smallId, data := [7, 7] } .dram,
      .put { id := largeId, data := List.replicate 8 8 } .dram,
      .get largeId ]

/--
The two bytes are moved to the file, counted, met again, erased from the file
and counted once more: the pass ends with eight bytes in DRAM.
-/
theorem pass_stops_above_low_watermark :
    let blocks := unevenStore.snapshot .dram
    secondHandEvictor.pressure unevenStore .dram = true ∧
      secondHandEvictor.lowWatermark unevenStore .dram = 7 ∧
      (secondHandEvictor.runPassForTier unevenStore .dram
        blocks).2.2.usedBytes .dram = 8 := by
  decide +kernel

/-- Without a slower tier the large block is erased, and that is enough. -/
theorem eviction_reaches_target_iff_full :
    let evictor : Evictor := { config := {}, hand := fun _ => 0 }
    let store := fullStore none
    evictor.ReachesTarget store .dram (store.snapshot .dram) := by
  intro evictor store
  refine
    (eviction_reaches_target_iff fullStore_sized.accounted (by decide +kernel)
      fullStore_sameSizes (.refl _) (by decide +kernel)).mpr
      ⟨by decide +kernel, ?_⟩
  intro met part claims
  have exact :
      ∀ charge ∈
        lapCharges store .dram
          (evictor.handOrder .dram (store.snapshot .dram)),
        charge.claimed ≤ charge.gained := by
    decide +kernel
  exact claims.trans
    (Ledger.claimed_le_gained fun charge member =>
      exact charge (part.subset member))

end Lethe
