import Lethe.EvictionPass

namespace Lethe

/-!
# Second chances

An eviction pass takes a block that was visited when its snapshot was made only
after it has taken every unvisited block, and every visited block that the hand
passes loses its persistent bit.  Both hold whatever other threads do to the
store between the steps of the hand.
-/

/-- What the walk of a pass has done, and the entries it has passed so far. -/
abbrev WatchedSweep :=
  SweepState × List BlockMeta

/--
One step of the hand, with what other threads do to the store before it, and a
note of the entry it passes.
-/
def WatchedSweep.visit
    (disturb : Nat → TieredStore → TieredStore)
    (tier : Tier)
    (watched : WatchedSweep)
    (entry : BlockMeta) :
    WatchedSweep :=
  (SweepState.visit tier
      { watched.1 with store := disturb watched.2.length watched.1.store }
      entry,
    watched.2 ++ [entry])

/-- Other threads do nothing. -/
def alone : Nat → TieredStore → TieredStore :=
  fun _ store => store

namespace Evictor

/-- The start of a watched walk. -/
def watchedStart
    (store : TieredStore) :
    WatchedSweep :=
  ({ store := store, freed := 0, evicted := [] }, [])

/-- The walk of a pass, watched. -/
def watchedSweep
    (evictor : Evictor)
    (disturb : Nat → TieredStore → TieredStore)
    (store : TieredStore)
    (tier : Tier)
    (blocks : List BlockMeta) :
    WatchedSweep :=
  (ClockHand.scan
    (fun watched : WatchedSweep =>
      watched.1.done (evictor.need store tier))
    (WatchedSweep.visit disturb tier)
    BlockMeta.clearBit
    (2 * blocks.length)
    { entries := blocks
      hand := evictor.hand tier
      state := watchedStart store }).state

/-- The entries that the hand passes in a pass, as it finds them. -/
def passed
    (evictor : Evictor)
    (disturb : Nat → TieredStore → TieredStore)
    (store : TieredStore)
    (tier : Tier)
    (blocks : List BlockMeta) :
    List BlockMeta :=
  if evictor.pressure store tier ∧ blocks ≠ [] then
    (evictor.watchedSweep disturb store tier blocks).2
  else
    []

/-- The blocks that a pass takes, in order. -/
def evictedIds
    (evictor : Evictor)
    (store : TieredStore)
    (tier : Tier)
    (blocks : List BlockMeta) :
    List BlockId :=
  if evictor.pressure store tier ∧ blocks ≠ [] then
    (evictor.sweep store tier blocks).state.evicted
  else
    []

/-- The two laps that the hand can make over a snapshot. -/
def laps
    (evictor : Evictor)
    (tier : Tier)
    (blocks : List BlockMeta) :
    List BlockMeta :=
  evictor.handOrder tier blocks ++
    (evictor.handOrder tier blocks).map BlockMeta.clearBit

section Watched

variable
  {evictor : Evictor}
  {disturb : Nat → TieredStore → TieredStore}
  {store : TieredStore}
  {tier : Tier}
  {blocks : List BlockMeta}

/-- A watched walk folds over the two laps. -/
theorem watchedSweep_eq :
    evictor.watchedSweep disturb store tier blocks =
      ClockHand.walk
        (fun watched : WatchedSweep =>
          watched.1.done (evictor.need store tier))
        (WatchedSweep.visit disturb tier)
        (evictor.laps tier blocks)
        (watchedStart store) :=
  ClockHand.scan_two_laps _ _ _ blocks (evictor.hand tier) _

/-- The hand passes a first part of the two laps. -/
theorem passed_initial
    (evictor : Evictor)
    (disturb : Nat → TieredStore → TieredStore)
    (store : TieredStore)
    (tier : Tier)
    (blocks : List BlockMeta) :
    evictor.passed disturb store tier blocks <+:
      evictor.laps tier blocks := by
  unfold passed
  split
  · rw [watchedSweep_eq, ClockHand.walk_notes fun _ _ => rfl]
    exact ClockHand.trace_initial _
  · exact List.nil_prefix

/-- The entries that an undisturbed pass visits. -/
theorem passed_alone
    (runs : evictor.pressure store tier ∧ blocks ≠ []) :
    evictor.passed alone store tier blocks =
      ClockHand.trace
        (SweepState.done (evictor.need store tier))
        (SweepState.visit tier)
        (evictor.laps tier blocks)
        { store := store, freed := 0, evicted := [] } := by
  rw [passed, if_pos runs, watchedSweep_eq,
    ClockHand.walk_notes fun _ _ => rfl]
  exact
    (ClockHand.walk_project Prod.fst (fun _ => rfl) (fun _ _ => rfl) _
      (watchedStart store)).2

/-- An undisturbed pass folds over the entries that it visits. -/
theorem sweep_eq_foldl_passed
    (runs : evictor.pressure store tier ∧ blocks ≠ []) :
    (evictor.sweep store tier blocks).state =
      (evictor.passed alone store tier blocks).foldl (SweepState.visit tier)
        { store := store, freed := 0, evicted := [] } := by
  rw [passed_alone runs, ← ClockHand.walk_eq_foldl_trace]
  exact evictor.sweep_state store tier blocks

/-- The store after an undisturbed pass. -/
theorem runPassForTier_store :
    (evictor.runPassForTier store tier blocks).2.2 =
      ((evictor.passed alone store tier blocks).foldl (SweepState.visit tier)
        { store := store, freed := 0, evicted := [] }).store := by
  by_cases runs : evictor.pressure store tier ∧ blocks ≠ []
  · rw [runPassForTier, if_pos runs, ← sweep_eq_foldl_passed runs]
  · rw [runPassForTier, if_neg runs, passed, if_neg runs]
    rfl

end Watched

end Evictor

/-! ## Victims and visited bits -/

namespace SweepState

/-- The entries that are not spared. -/
def victims
    (entries : List BlockMeta) :
    List BlockMeta :=
  entries.filter fun entry => !entry.visited

section Victims

variable
  {entry : BlockMeta}
  {rest : List BlockMeta}

/-- A spared entry is no victim. -/
theorem victims_cons_of_spared
    (spared : entry.visited = true) :
    victims (entry :: rest) = victims rest := by
  simp [victims, spared]

/-- An entry that is not spared is a victim. -/
theorem victims_cons_of_victim
    (victim : entry.visited = false) :
    victims (entry :: rest) = entry :: victims rest := by
  simp [victims, victim]

end Victims

/-- Visits take the blocks that are not spared. -/
theorem evicted_foldl
    (tier : Tier)
    (entries : List BlockMeta)
    (sweep : SweepState) :
    (entries.foldl (visit tier) sweep).evicted =
      sweep.evicted ++ (victims entries).map BlockMeta.id := by
  induction entries generalizing sweep with
  | nil =>
      exact (List.append_nil sweep.evicted).symm
  | cons entry rest inductionHypothesis =>
      rw [List.foldl_cons, inductionHypothesis]
      cases spared : entry.visited <;>
        simp [visit, victims, spared]

end SweepState

namespace TieredStore

/-- A demotion leaves the visited bits. -/
theorem visited_demote
    (store : TieredStore)
    (id : BlockId) :
    (store.demote id).2.visited = store.visited := by
  unfold demote
  split
  · dsimp only
    split
    · simp
    · split <;> simp
  · split
    · dsimp only
      split <;> simp
    · rfl

/-- An erasure clears one visited bit. -/
theorem visited_erase
    (store : TieredStore)
    (id : BlockId) :
    (store.erase id).2.visited = store.visited.erase id := by
  simp [erase, forget]

end TieredStore

/-- A step of the hand sets no visited bit. -/
theorem SweepState.visited_visit_subset
    (tier : Tier)
    (sweep : SweepState)
    (entry : BlockMeta) :
    (sweep.visit tier entry).store.visited ⊆ sweep.store.visited := by
  unfold SweepState.visit
  split
  · exact Finset.erase_subset _ _
  · unfold evictBlock
    dsimp only
    by_cases slowest : tier = .ssd
    · rw [if_pos slowest]
      simp only [Bool.false_eq_true, ↓reduceIte,
        TieredStore.visited_erase]
      exact Finset.erase_subset _ _
    · rw [if_neg slowest]
      split
      · rw [TieredStore.visited_demote]
      · rw [TieredStore.visited_erase, TieredStore.visited_demote]
        exact Finset.erase_subset _ _

section Passes

variable
  {evictor : Evictor}
  {disturb : Nat → TieredStore → TieredStore}
  {store : TieredStore}
  {tier : Tier}
  {blocks : List BlockMeta}

/-- The laps meet the blocks of the snapshot only. -/
theorem id_of_mem_laps
    {entry : BlockMeta}
    (member : entry ∈ evictor.laps tier blocks) :
    entry.id ∈ blocks.map BlockMeta.id := by
  have ids : entry.id ∈ (evictor.handOrder tier blocks).map BlockMeta.id := by
    rcases List.mem_append.mp member with first | second
    · exact List.mem_map_of_mem first
    · rw [← map_clearBit_ids]
      exact List.mem_map_of_mem second
  exact (handOrder_perm.map BlockMeta.id).subset ids

/-- An undisturbed pass takes the entries it passes that are not spared. -/
theorem evictedIds_eq_victims :
    evictor.evictedIds store tier blocks =
      (SweepState.victims
        (evictor.passed alone store tier blocks)).map BlockMeta.id := by
  by_cases runs : evictor.pressure store tier ∧ blocks ≠ []
  · rw [Evictor.evictedIds, if_pos runs,
      Evictor.sweep_eq_foldl_passed runs, SweepState.evicted_foldl]
    rfl
  · rw [Evictor.evictedIds, if_neg runs, Evictor.passed, if_neg runs]
    rfl

/-- Before a block that was visited all unvisited blocks are taken. -/
theorem unvisited_before_visited
    (noDuplicates : (blocks.map BlockMeta.id).Nodup)
    {earlier later : List BlockMeta}
    {victim spared entry : BlockMeta}
    (shape :
      evictor.passed disturb store tier blocks = earlier ++ victim :: later)
    (taken : victim.visited = false)
    (inSnapshot : spared ∈ blocks)
    (isVictim : spared.id = victim.id)
    (wasVisited : spared.visited = true)
    (member : entry ∈ blocks) :
    entry ∈ earlier := by
  have notInOrder : victim ∉ evictor.handOrder tier blocks := by
    intro inOrder
    have same : victim = spared :=
      List.inj_on_of_nodup_map noDuplicates
        (handOrder_perm.subset inOrder) inSnapshot isVictim.symm
    rw [same, wasVisited] at taken
    exact Bool.noConfusion taken
  have inLaps : earlier ++ [victim] <+: evictor.laps tier blocks := by
    refine List.IsPrefix.trans ?_
      (evictor.passed_initial disturb store tier blocks)
    rw [shape]
    exact ⟨later, by simp⟩
  exact
    (ClockHand.first_lap_before inLaps notInOrder).subset
      (handOrder_perm.mem_iff.mpr member)

/-- A visited entry that the hand passes loses its bit at once. -/
theorem cleared_when_passed
    (disturb : Nat → TieredStore → TieredStore)
    (tier : Tier)
    (earlier : List BlockMeta)
    (watched : WatchedSweep)
    {entry : BlockMeta}
    (wasVisited : entry.visited = true) :
    entry.id ∉
      ((earlier ++ [entry]).foldl (WatchedSweep.visit disturb tier)
        watched).1.store.visited := by
  rw [List.foldl_append, List.foldl_cons, List.foldl_nil]
  simp [WatchedSweep.visit, SweepState.visit, wasVisited,
    TieredStore.clearVisited]

/-- Visits set no visited bit. -/
theorem SweepState.visited_foldl_subset
    (tier : Tier)
    (entries : List BlockMeta)
    (sweep : SweepState) :
    (entries.foldl (SweepState.visit tier) sweep).store.visited ⊆
      sweep.store.visited :=
  List.foldlRecOn entries (SweepState.visit tier)
    (motive := fun current => current.store.visited ⊆ sweep.store.visited)
    (Finset.Subset.refl _)
    fun current kept entry _ =>
      (SweepState.visited_visit_subset tier current entry).trans kept

end Passes

/--
Whatever other threads do between the steps of the hand, a pass takes a block
that was visited in its snapshot only after it has taken every block that was
not, and every visited entry that the hand passes loses its persistent bit.
The victims of a pass that runs alone are the entries it passes without a
second chance, and no bit of a spared entry is set when it returns.
-/
theorem second_chance_honoured
    (evictor : Evictor)
    (disturb : Nat → TieredStore → TieredStore)
    (store : TieredStore)
    (tier : Tier)
    {blocks : List BlockMeta}
    (noDuplicates : (blocks.map BlockMeta.id).Nodup) :
    (∀ earlier victim later,
      evictor.passed disturb store tier blocks =
        earlier ++ victim :: later →
      victim.visited = false →
      (∃ spared ∈ blocks,
        spared.id = victim.id ∧ spared.visited = true) →
      ∀ entry ∈ blocks, entry.visited = false → entry ∈ earlier) ∧
    (∀ earlier entry later,
      evictor.passed disturb store tier blocks =
        earlier ++ entry :: later →
      entry.visited = true →
      entry.id ∉
        ((earlier ++ [entry]).foldl (WatchedSweep.visit disturb tier)
          (Evictor.watchedStart store)).1.store.visited) ∧
    evictor.evictedIds store tier blocks =
      (SweepState.victims
        (evictor.passed alone store tier blocks)).map BlockMeta.id ∧
    ∀ entry ∈ evictor.passed alone store tier blocks,
      entry.visited = true →
      entry.id ∉ (evictor.runPassForTier store tier blocks).2.2.visited := by
  refine ⟨?_, ?_, evictedIds_eq_victims, ?_⟩
  · rintro earlier victim later shape taken
      ⟨spared, inSnapshot, isVictim, wasVisited⟩ entry member _
    exact unvisited_before_visited noDuplicates shape taken inSnapshot
      isVictim wasVisited member
  · intro earlier entry later _ wasVisited
    exact cleared_when_passed disturb tier earlier _ wasVisited
  · intro entry member wasVisited
    obtain ⟨earlier, later, shape⟩ := List.append_of_mem member
    rw [Evictor.runPassForTier_store, shape, List.foldl_append,
      List.foldl_cons]
    intro stillSet
    have setBefore :=
      SweepState.visited_foldl_subset tier later _ stillSet
    simp [SweepState.visit, wasVisited, TieredStore.clearVisited]
      at setBefore

/--
A pass over a small block and a large one that was visited: the small block is
taken before the large one, whose bit is cleared.
-/
theorem second_chance_honoured_crowded :
    let store := crowdedStore .dram
    let blocks := store.snapshot .dram
    let passed := secondHandEvictor.passed alone store .dram blocks
    (∀ entry ∈ blocks, entry.visited = false → entry ∈ passed.take 3) ∧
      largeId ∉
        (secondHandEvictor.runPassForTier store .dram blocks).2.2.visited := by
  intro store blocks passed
  obtain ⟨ordered, _, _, cleared⟩ :=
    second_chance_honoured secondHandEvictor alone store .dram
      (store.snapshot_ids_nodup .dram)
  have shape :
      ∃ large ∈ blocks,
        large.id = largeId ∧ large.visited = true ∧
          large ∈ passed ∧
          passed = passed.take 3 ++ large.clearBit :: [] := by
    decide +kernel
  obtain ⟨large, member, isLarge, wasVisited, hasPassed, shape⟩ := shape
  refine ⟨?_, ?_⟩
  · exact ordered _ _ _ shape rfl ⟨large, member, rfl, wasVisited⟩
  · rw [← isLarge]
    exact cleared large hasPassed wasVisited

end Lethe
