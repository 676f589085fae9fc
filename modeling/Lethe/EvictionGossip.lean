import Lethe.VictimSteps

namespace Lethe

/-!
# Announced evictions

A pass announces every victim to the peers, so that they stop asking this node
for it.  A victim that was moved to a slower tier is announced too although it
is still there, and a victim that the hand meets again is announced twice.  The
announcement is exact if every victim is resident when it is taken and no
slower tier takes it.
-/

namespace Evictor

/-- The argument of the broadcast that ends a pass, if it makes one. -/
def broadcast
    (evictor : Evictor)
    (store : TieredStore)
    (tier : Tier)
    (blocks : List BlockMeta) :
    Option (List BlockId) :=
  let evicted := evictor.evictedIds store tier blocks
  if evictor.config.broadcastEvictions ∧ evicted ≠ [] then
    some evicted
  else
    none

/-- The announced blocks are, once each, the blocks that left the node. -/
structure GossipsTruth
    (evictor : Evictor)
    (store : TieredStore)
    (tier : Tier)
    (blocks : List BlockMeta) : Prop where
  once : ((evictor.broadcast store tier blocks).getD []).Nodup
  left :
    ∀ id,
      id ∈ (evictor.broadcast store tier blocks).getD [] ↔
        store.Resident id ∧
          ¬ (evictor.runPassForTier store tier blocks).2.2.Resident id

end Evictor

/--
The hand, which has freed some bytes, takes only blocks that are resident and
that no slower tier takes, and so erases them, until it has freed enough.
-/
def AllVanish
    (tier : Tier)
    (need : Nat) :
    TieredStore → Nat → List BlockMeta → Prop
  | _, _, [] => True
  | store, freed, entry :: rest =>
      freed < need →
        if entry.visited then
          AllVanish tier need store freed rest
        else
          store.Resident entry.id ∧
            store.Demotes tier entry.id = false ∧
            AllVanish tier need (store.erase entry.id).2
              (addSize freed (store.heldInAll entry.id)) rest

instance decidableAllVanish
    (tier : Tier)
    (need : Nat)
    (store : TieredStore)
    (freed : Nat)
    (entries : List BlockMeta) :
    Decidable (AllVanish tier need store freed entries) :=
  match entries with
  | [] => .isTrue trivial
  | entry :: rest =>
      have := decidableAllVanish tier need store freed rest
      have :=
        decidableAllVanish tier need (store.erase entry.id).2
          (addSize freed (store.heldInAll entry.id)) rest
      inferInstanceAs
        (Decidable
          (freed < need →
            if entry.visited then
              AllVanish tier need store freed rest
            else
              store.Resident entry.id ∧
                store.Demotes tier entry.id = false ∧
                AllVanish tier need (store.erase entry.id).2
                  (addSize freed (store.heldInAll entry.id)) rest))

namespace SweepState

/-- The taken blocks are gone, and each was taken once. -/
structure Reports
    (sweep : SweepState) : Prop where
  once : sweep.evicted.Nodup
  gone : ∀ id ∈ sweep.evicted, ¬ sweep.store.Resident id

/--
So far every taken block was erased, as from a second store, and the entries
ahead that were not taken are still in their tier.
-/
structure Emptied
    (tier : Tier)
    (erased : TieredStore)
    (entries : List BlockMeta)
    (sweep : SweepState) : Prop extends Reports sweep where
  consistent : sweep.store.SsdConsistent
  same : sweep.store.SameTiers erased
  held :
    ∀ entry ∈ entries,
      entry.id ∈ sweep.evicted ∨
        (sweep.store.copy tier entry.id).isSome = true

/-- A taken block is still there, or one was taken twice. -/
def Exposed
    (sweep : SweepState) : Prop :=
  (∃ id ∈ sweep.evicted, sweep.store.Resident id) ∨
    ¬ sweep.evicted.Nodup

section Steps

variable
  {tier : Tier}
  {erased : TieredStore}
  {sweep : SweepState}
  {entry : BlockMeta}
  {rest : List BlockMeta}

/-- An exposed report is not exact. -/
theorem Exposed.not_reports
    (exposed : sweep.Exposed) :
    ¬ sweep.Reports := by
  intro reports
  rcases exposed with ⟨id, taken, resident⟩ | twice
  · exact reports.gone id taken resident
  · exact twice reports.once

/-- Once exposed, a report stays exposed. -/
theorem Exposed.visit
    (consistent : sweep.store.SsdConsistent)
    (exposed : sweep.Exposed)
    (tier : Tier)
    (entry : BlockMeta) :
    (sweep.visit tier entry).Exposed := by
  cases spared : entry.visited with
  | true =>
      rw [visit_of_spared spared]
      exact exposed
  | false =>
      rw [visit_of_victim spared]
      rcases exposed with ⟨id, taken, query, held⟩ | twice
      · by_cases same : id = entry.id
        · right
          rw [← same]
          exact fun once =>
            (List.nodup_append.mp once).2.2 id taken id (by simp) rfl
        · refine Or.inl ⟨id, List.mem_append_left _ taken, query, ?_⟩
          rw [TieredStore.copy_evictBlock_of_ne consistent same]
          exact held
      · exact Or.inr fun once => twice (List.nodup_append.mp once).1

/-- A step over a spared entry keeps the report exact. -/
theorem Emptied.visit_spared
    (emptied : Emptied tier erased (entry :: rest) sweep)
    (spared : entry.visited = true) :
    Emptied tier erased rest (sweep.visit tier entry) := by
  rw [visit_of_spared spared]
  exact
    { once := emptied.once
      gone := emptied.gone
      consistent := emptied.consistent
      same := ⟨emptied.same.hbm, emptied.same.dram, emptied.same.ssd⟩
      held := fun other member =>
        emptied.held other (List.mem_cons_of_mem _ member) }

/-- A resident entry was not taken and is in its tier. -/
theorem Emptied.held_of_resident
    (emptied : Emptied tier erased (entry :: rest) sweep)
    (resident : erased.Resident entry.id) :
    entry.id ∉ sweep.evicted ∧
      (sweep.store.copy tier entry.id).isSome = true := by
  have new : entry.id ∉ sweep.evicted := fun taken =>
    emptied.gone _ taken ((emptied.same.resident _).mpr resident)
  exact ⟨new, (emptied.held entry (by simp)).resolve_left new⟩

/-- A step over a resident victim that no slower tier takes erases it. -/
theorem Emptied.visit_victim
    (emptied : Emptied tier erased (entry :: rest) sweep)
    (victim : entry.visited = false)
    (resident : erased.Resident entry.id)
    (stays : erased.Demotes tier entry.id = false) :
    Emptied tier (erased.erase entry.id).2 rest (sweep.visit tier entry) ∧
      (sweep.visit tier entry).freed =
        addSize sweep.freed (erased.heldInAll entry.id) := by
  obtain ⟨new, held⟩ := emptied.held_of_resident resident
  have isErased :
      evictBlock sweep.store tier entry = sweep.store.erase entry.id :=
    TieredStore.evictBlock_of_not_demotes
      ((emptied.same.demotes emptied.consistent held).trans stays)
  rw [visit_of_victim victim, isErased]
  refine ⟨⟨⟨?_, ?_⟩, ?_, emptied.same.erase entry.id, ?_⟩, ?_⟩
  · exact List.nodup_append.mpr
      ⟨emptied.once, by simp, fun id taken other isEntry same =>
        new (List.mem_singleton.mp isEntry ▸ same ▸ taken)⟩
  · rintro id taken ⟨query, stillHeld⟩
    rw [TieredStore.copy_erase emptied.consistent] at stillHeld
    split at stillHeld
    · simp at stillHeld
    · next different =>
        rcases List.mem_append.mp taken with before | isEntry
        · exact emptied.gone id before ⟨query, stillHeld⟩
        · exact different (List.mem_singleton.mp isEntry)
  · exact
      TieredStore.ssdConsistent_stable.erase emptied.consistent entry.id
  · intro other member
    by_cases same : other.id = entry.id
    · exact Or.inl (by simp [same])
    · refine
        (emptied.held other (List.mem_cons_of_mem _ member)).imp
          (List.mem_append_left _) fun stillHeld => ?_
      rwa [TieredStore.copy_erase emptied.consistent, if_neg same]
  · have heldInAll :
        sweep.store.heldInAll entry.id = erased.heldInAll entry.id := by
      simp only [TieredStore.heldInAll, TieredStore.heldBytes,
        emptied.same.copy]
    simp only [emptied.consistent.erase_fst, heldInAll, addSize,
      Nat.add_mod_mod]

/-- A victim that is gone already or that a slower tier takes is exposed. -/
theorem Emptied.exposed_visit
    (emptied : Emptied tier erased (entry :: rest) sweep)
    (victim : entry.visited = false)
    (bad :
      ¬ (erased.Resident entry.id ∧
        erased.Demotes tier entry.id = false)) :
    (sweep.visit tier entry).Exposed := by
  rw [visit_of_victim victim]
  rcases emptied.held entry (by simp) with taken | held
  · refine Or.inr fun once => ?_
    exact (List.nodup_append.mp once).2.2 _ taken _ (by simp) rfl
  · have resident : sweep.store.Resident entry.id := ⟨tier, held⟩
    have demotes : sweep.store.Demotes tier entry.id = true := by
      rw [emptied.same.demotes emptied.consistent held]
      by_contra stays
      exact bad
        ⟨(emptied.same.resident _).mp resident,
          Bool.eq_false_of_not_eq_true stays⟩
    refine Or.inl ⟨entry.id, by simp, ?_⟩
    exact
      (TieredStore.resident_evictBlock emptied.consistent resident).mpr
        demotes

end Steps

/-- A walk keeps an exposed report exposed. -/
theorem Exposed.walk
    {sweep : SweepState}
    (consistent : sweep.store.SsdConsistent)
    (exposed : sweep.Exposed)
    (need : Nat)
    (tier : Tier)
    (entries : List BlockMeta) :
    (ClockHand.walk (done need) (SweepState.visit tier) entries
      sweep).Exposed :=
  (ClockHand.walk_preserves
    (fun current : SweepState =>
      current.store.SsdConsistent ∧ current.Exposed)
    (fun _ entry held =>
      ⟨TieredStore.ssdConsistent_stable.visit held.1 tier entry,
        held.2.visit held.1 tier entry⟩)
    entries ⟨consistent, exposed⟩).2

/--
The report of a walk is exact if and only if every victim is resident and no
slower tier takes it.
-/
theorem Emptied.reports_iff
    {tier : Tier}
    (need : Nat)
    {entries : List BlockMeta}
    {erased : TieredStore}
    {sweep : SweepState}
    (emptied : Emptied tier erased entries sweep) :
    (ClockHand.walk (done need) (visit tier) entries sweep).Reports ↔
      AllVanish tier need erased sweep.freed entries := by
  induction entries generalizing erased sweep with
  | nil =>
      exact iff_of_true emptied.toReports trivial
  | cons entry rest inductionHypothesis =>
      by_cases stopped : sweep.done need = true
      · rw [ClockHand.walk_of_stopped stopped]
        refine iff_of_true emptied.toReports fun short => ?_
        exact absurd (done_iff.mp stopped) (Nat.not_le.mpr short)
      · have short : sweep.freed < need :=
          Nat.not_le.mp fun enough => stopped (done_iff.mpr enough)
        rw [ClockHand.walk_cons, if_neg stopped, AllVanish]
        simp only [short, forall_const]
        cases spared : entry.visited with
        | true =>
            rw [if_pos rfl,
              inductionHypothesis (emptied.visit_spared spared),
              visit_of_spared spared]
        | false =>
            rw [if_neg Bool.false_ne_true, ← and_assoc]
            by_cases vanishes :
                erased.Resident entry.id ∧
                  erased.Demotes tier entry.id = false
            · obtain ⟨emptiedNext, freedNext⟩ :=
                emptied.visit_victim spared vanishes.1 vanishes.2
              rw [inductionHypothesis emptiedNext, freedNext,
                and_iff_right vanishes]
            · have exposed := emptied.exposed_visit spared vanishes
              have consistentNext :=
                TieredStore.ssdConsistent_stable.visit emptied.consistent
                  tier entry
              exact iff_of_false
                (exposed.walk consistentNext need tier rest).not_reports
                fun condition => vanishes condition.1

/-- A walk leaves the copies of the blocks that it does not take. -/
theorem copy_walk_of_not_taken
    {start : TieredStore}
    (consistent : start.SsdConsistent)
    (need : Nat)
    (tier : Tier)
    (entries : List BlockMeta)
    {id : BlockId}
    (notTaken :
      id ∉
        (ClockHand.walk (done need) (visit tier) entries
          ⟨start, 0, []⟩).evicted)
    (query : Tier) :
    (ClockHand.walk (done need) (visit tier) entries
        ⟨start, 0, []⟩).store.copy query id =
      start.copy query id := by
  refine
    (ClockHand.walk_preserves
      (fun current : SweepState =>
        current.store.SsdConsistent ∧
          (id ∉ current.evicted →
            current.store.copy query id = start.copy query id))
      ?_ entries ⟨consistent, fun _ => rfl⟩).2 notTaken
  rintro current entry ⟨before, kept⟩
  refine ⟨TieredStore.ssdConsistent_stable.visit before tier entry, ?_⟩
  cases spared : entry.visited with
  | true =>
      rw [visit_of_spared spared]
      exact kept
  | false =>
      rw [visit_of_victim spared]
      intro notTakenNow
      rw [List.mem_append, not_or, List.mem_singleton] at notTakenNow
      rw [TieredStore.copy_evictBlock_of_ne before notTakenNow.2]
      exact kept notTakenNow.1

end SweepState

section Gossip

variable
  {evictor : Evictor}
  {store : TieredStore}
  {tier : Tier}
  {blocks : List BlockMeta}

/-- What is announced is what was taken. -/
theorem broadcast_getD
    (announces : evictor.config.broadcastEvictions = true) :
    (evictor.broadcast store tier blocks).getD [] =
      evictor.evictedIds store tier blocks := by
  unfold Evictor.broadcast
  by_cases nothing : evictor.evictedIds store tier blocks = []
  · simp [nothing]
  · simp [nothing, announces]

/-- A pass that takes nothing announces nothing. -/
theorem gossipsTruth_of_idle
    (announces : evictor.config.broadcastEvictions = true)
    (idle : ¬ (evictor.pressure store tier = true ∧ blocks ≠ [])) :
    evictor.GossipsTruth store tier blocks := by
  have nothing : evictor.evictedIds store tier blocks = [] :=
    if_neg idle
  refine ⟨?_, ?_⟩
  · rw [broadcast_getD announces, nothing]
    exact List.nodup_nil
  · intro id
    rw [broadcast_getD announces, nothing, Evictor.runPassForTier,
      if_neg idle]
    simp

/-- A pass gossips the truth exactly if the report of its walk is exact. -/
theorem gossipsTruth_iff_reports
    (consistent : store.SsdConsistent)
    (listed : blocks.Perm (store.snapshot tier))
    (announces : evictor.config.broadcastEvictions = true)
    (runs : evictor.pressure store tier = true ∧ blocks ≠ []) :
    evictor.GossipsTruth store tier blocks ↔
      (evictor.sweep store tier blocks).state.Reports := by
  have taken :
      (evictor.broadcast store tier blocks).getD [] =
        (evictor.sweep store tier blocks).state.evicted := by
    rw [broadcast_getD announces, Evictor.evictedIds, if_pos runs]
  have after :
      (evictor.runPassForTier store tier blocks).2.2 =
        (evictor.sweep store tier blocks).state.store := by
    rw [Evictor.runPassForTier, if_pos runs]
  constructor
  · rintro ⟨once, left⟩
    rw [taken] at once left
    rw [after] at left
    exact ⟨once, fun id member => ((left id).mp member).2⟩
  · rintro ⟨once, gone⟩
    refine ⟨by rwa [taken], fun id => ?_⟩
    rw [taken, after]
    constructor
    · intro member
      refine ⟨?_, gone id member⟩
      have passed :
          id ∈
            (SweepState.victims
              (evictor.passed alone store tier blocks)).map
                BlockMeta.id := by
        rw [← evictedIds_eq_victims, Evictor.evictedIds, if_pos runs]
        exact member
      obtain ⟨entry, isVictim, rfl⟩ := List.mem_map.mp passed
      have inLaps :=
        (evictor.passed_initial alone store tier blocks).subset
          (List.mem_of_mem_filter isVictim)
      exact ⟨tier, held_of_mem_laps consistent listed inLaps⟩
    · rintro ⟨⟨query, held⟩, left⟩
      by_contra notTaken
      rw [evictor.sweep_state] at notTaken left
      refine left ⟨query, ?_⟩
      rw [SweepState.copy_walk_of_not_taken consistent _ tier _ notTaken]
      exact held

end Gossip

/--
The ids that a pass announces are, without repetition, exactly the ids that
were resident before and are not any more, if and only if the pass, when it
evicts at all, takes only resident blocks that no slower tier takes.
-/
theorem eviction_gossip_truthful_iff
    {evictor : Evictor}
    {store : TieredStore}
    {tier : Tier}
    {blocks : List BlockMeta}
    (consistent : store.SsdConsistent)
    (listed : blocks.Perm (store.snapshot tier))
    (announces : evictor.config.broadcastEvictions = true) :
    evictor.GossipsTruth store tier blocks ↔
      (evictor.pressure store tier = true →
        AllVanish tier (evictor.need store tier) store 0
          (evictor.laps tier blocks)) := by
  by_cases runs : evictor.pressure store tier = true ∧ blocks ≠ []
  · rw [gossipsTruth_iff_reports consistent listed announces runs,
      evictor.sweep_state]
    have start :
        SweepState.Emptied tier store (evictor.laps tier blocks)
          { store := store, freed := 0, evicted := [] } :=
      { once := List.nodup_nil
        gone := by simp
        consistent := consistent
        same := ⟨rfl, rfl, rfl⟩
        held := fun _ member =>
          Or.inr (held_of_mem_laps consistent listed member) }
    rw [forall_prop_of_true runs.1]
    exact start.reports_iff (evictor.need store tier)
  · refine iff_of_true (gossipsTruth_of_idle announces runs) fun pressed => ?_
    have nothing : blocks = [] := by
      by_contra listsBlocks
      exact runs ⟨pressed, listsBlocks⟩
    rw [nothing]
    trivial

/-- A block that was moved to the file is announced as evicted. -/
theorem demoted_block_announced :
    let evictor : Evictor := { config := {}, hand := fun _ => 0 }
    let store := fullStore (some twoSlotGeometry)
    let blocks := store.snapshot .dram
    evictor.broadcast store .dram blocks = some [largeId] ∧
      (evictor.runPassForTier store .dram blocks).2.2.Resident largeId := by
  decide +kernel

/-- Without a slower tier the evicted block is announced, and it is gone. -/
theorem eviction_gossip_truthful_iff_full :
    let evictor : Evictor := { config := {}, hand := fun _ => 0 }
    let store := fullStore none
    evictor.GossipsTruth store .dram (store.snapshot .dram) := by
  intro evictor store
  exact
    (eviction_gossip_truthful_iff fullStore_sized.accounted.ssd (.refl _)
      rfl).mpr fun _ => by decide +kernel

end Lethe
