import Lethe.Delivery
import Lethe.Library.LabelledRun
import Lethe.TierAccounting

namespace Lethe

/-!
# What an insert counts

An insert compares the sum of the byte counters before and after it stores a
block and takes a block for new if the sum grew.  That is right for a block
with bytes unless another tier holds it already, and wrong for a new block
without bytes.  Inserting the same batch again finds every block where it was
put, or still nowhere.
-/

namespace BlockStore

/-- What has room next to a new block had room before. -/
theorem hasRoom_of_put
    {store : BlockStore}
    {block other : KvBlock}
    (noWrap : store.usedBytes + block.data.length < sizeRange)
    (sized : (store.put block).2.usedBytes + other.data.length < sizeRange)
    (room : (store.put block).2.HasRoom other)
    (absent : (store.put block).2.get other.id = none) :
    store.HasRoom other := by
  unfold BlockStore.put at room absent sized
  split at room
  · exact room
  · next notMember =>
      rw [if_neg notMember] at absent sized
      split at room
      · exact room
      · next fits =>
          rw [if_neg fits] at absent sized
          rcases room with member | fitsOther
          · rw [← get_isSome, absent] at member
            simp at member
          · simp only [addSize_of_lt noWrap] at fitsOther sized
            rw [addSize_of_lt sized] at fitsOther
            refine Or.inr ?_
            rw [addSize_of_lt (by omega)]
            omega

end BlockStore

namespace SsdBlockStore

/-- What has room next to a new block had room before. -/
theorem Consistent.hasRoom_of_put
    {store : SsdBlockStore}
    (consistent : store.Consistent)
    {block other : KvBlock}
    (room : (store.put block).2.HasRoom other) :
    store.HasRoom other := by
  rcases consistent.put_cases block with
    ⟨rejected, _⟩ | ⟨present, _, _⟩ | ⟨slot, rest, free, _, _, written⟩
  · rw [rejected] at room
    exact room
  · rw [present] at room
    exact room
  · refine ⟨?_, Or.inr (Or.inl (by simp [free]))⟩
    have fits := room.1
    rwa [put_geometry] at fits

end SsdBlockStore

namespace TieredStore

variable
  {store : TieredStore}
  {tier : Tier}
  {block : KvBlock}
  {blocks : List KvBlock}

/-- The store after inserting blocks, each with its own tier as the hint. -/
def putAll
    (store : TieredStore)
    (blocks : List KvBlock) :
    TieredStore :=
  blocks.foldl (fun current block => (current.put block block.tier).2) store

/-- Batches keep the file consistent. -/
theorem SsdConsistent.putAll
    (consistent : store.SsdConsistent)
    (blocks : List KvBlock) :
    (store.putAll blocks).SsdConsistent :=
  List.foldlRecOn blocks _ consistent
    fun _ before block _ => before.put block block.tier

/--
The counters of all tiers together have room for every block of a batch, in
every state on the way.
-/
def SumsFit
    (store : TieredStore)
    (blocks : List KvBlock) : Prop :=
  ∀ earlier,
    earlier <+: blocks →
    ∀ block ∈ blocks,
      (store.putAll earlier).usedIn allTiers + block.data.length < sizeRange

/-- Room for the first block. -/
theorem SumsFit.first
    {later : List KvBlock}
    (sums : store.SumsFit (block :: later)) :
    store.usedIn allTiers + block.data.length < sizeRange :=
  sums [] List.nil_prefix block (by simp)

/-- Room for the other blocks after the first. -/
theorem SumsFit.rest
    {later : List KvBlock}
    (sums : store.SumsFit (block :: later)) :
    (store.put block block.tier).2.SumsFit later :=
  fun earlier part other member =>
    sums (block :: earlier) (List.cons_prefix_cons.mpr ⟨rfl, part⟩) other
      (List.mem_cons_of_mem _ member)

/-- Capacities with room for every block of a batch are enough. -/
theorem SumsFit.of_capacities
    (accounted : store.Accounted)
    (sized :
      ∀ block ∈ blocks,
        store.capacityIn allTiers + block.data.length < sizeRange) :
    store.SumsFit blocks := by
  intro earlier part block member
  have kept : store.Kept (store.putAll earlier) := by
    refine List.foldlRecOn earlier _ (.refl accounted) ?_
    intro current kept other inEarlier
    have bounded := sized other (part.subset inEarlier)
    rw [← capacityIn_congr kept.capacities] at bounded
    rcases current.put_cases other other.tier with
      unplaced | ⟨tier, _, placed⟩
    · rwa [unplaced]
    · have next :=
        Kept.putToTier kept.accounted (kept.accounted.noWrap bounded tier)
      rw [placed]
      exact
        ⟨next.accounted, fun query =>
          (next.capacities query).trans (kept.capacities query)⟩
  have bounded := sized block member
  rw [← capacityIn_congr kept.capacities] at bounded
  have hbm := kept.accounted.usedBytes_le .hbm
  have dram := kept.accounted.usedBytes_le .dram
  have ssd := kept.accounted.usedBytes_le .ssd
  simp only [allTiers, usedIn_cons, usedIn_nil, capacityIn_cons,
    capacityIn_nil] at bounded ⊢
  omega

/-! ## Insertions only fill a store -/

/-- An insertion leaves the other tiers their room. -/
theorem tierHasRoom_putToTier_of_ne
    (store : TieredStore)
    (block other : KvBlock)
    {tier query : Tier}
    (different : query ≠ tier) :
    (store.putToTier block tier).2.TierHasRoom other query ↔
      store.TierHasRoom other query := by
  cases query with
  | hbm =>
      simp only [TierHasRoom, hbm_putToTier _ _ different.symm]
  | dram =>
      simp only [TierHasRoom, dram_putToTier _ _ different.symm]
  | ssd =>
      simp only [TierHasRoom, ssd_putToTier _ _ different.symm]

/-- An insertion does not change what could fit. -/
theorem fits_putToTier
    (store : TieredStore)
    (block other : KvBlock)
    (tier query : Tier) :
    (store.putToTier block tier).2.Fits other query ↔
      store.Fits other query := by
  cases tier with
  | hbm =>
      cases present : store.hbm with
      | none =>
          simp [putToTier, present]
      | some tierStore =>
          cases query <;> simp [putToTier, present, Fits]
  | dram =>
      cases query <;> simp [putToTier, Fits]
  | ssd =>
      cases present : store.ssd with
      | none =>
          simp [putToTier, present]
      | some tierStore =>
          cases query <;> simp [putToTier, present, Fits]

/-- What has room in the tier that took a block had room before. -/
theorem Accounted.tierHasRoom_of_putToTier
    (accounted : store.Accounted)
    {block other : KvBlock}
    (noWrap : store.usedBytes tier + block.data.length < sizeRange)
    (sized :
      (store.putToTier block tier).2.usedBytes tier + other.data.length <
        sizeRange)
    (room : (store.putToTier block tier).2.TierHasRoom other tier)
    (absent : (store.putToTier block tier).2.copy tier other.id = none) :
    store.TierHasRoom other tier := by
  cases tier with
  | hbm =>
      cases present : store.hbm with
      | none =>
          simpa [TieredStore.putToTier, present] using room
      | some tierStore =>
          simp only [TieredStore.putToTier, present, TierHasRoom, copy,
            Option.mem_some_iff, exists_eq_left', Option.bind_some,
            usedBytes, Option.map_some,
            Option.getD_some] at room absent noWrap sized
          exact ⟨tierStore, present,
            BlockStore.hasRoom_of_put noWrap sized room absent⟩
  | dram =>
      exact BlockStore.hasRoom_of_put noWrap sized room absent
  | ssd =>
      cases present : store.ssd with
      | none =>
          simpa [TieredStore.putToTier, present] using room
      | some tierStore =>
          simp only [TieredStore.putToTier, present, TierHasRoom,
            Option.mem_some_iff, exists_eq_left'] at room
          exact ⟨tierStore, present,
            (accounted.ssd tierStore present).1.hasRoom_of_put room⟩

/-- No copy is lost, no counter falls and no room is gained. -/
structure Fuller
    (before after : TieredStore) : Prop where
  copies :
    ∀ tier id,
      (before.copy tier id).isSome = true →
      (after.copy tier id).isSome = true
  used :
    ∀ tier, before.usedBytes tier ≤ after.usedBytes tier
  fits :
    ∀ block tier, before.Fits block tier → after.Fits block tier
  room :
    ∀ block tier,
      after.usedIn allTiers + block.data.length < sizeRange →
      after.TierHasRoom block tier →
      after.copy tier block.id = none →
      before.TierHasRoom block tier

namespace Fuller

theorem refl
    (store : TieredStore) :
    store.Fuller store :=
  ⟨fun _ _ held => held, fun _ => Nat.le_refl _, fun _ _ fits => fits,
    fun _ _ _ room _ => room⟩

/-- The sum of the counters does not fall. -/
theorem usedIn_le
    {before after : TieredStore}
    (fuller : before.Fuller after) :
    before.usedIn allTiers ≤ after.usedIn allTiers := by
  have hbm := fuller.used .hbm
  have dram := fuller.used .dram
  have ssd := fuller.used .ssd
  simp only [allTiers, usedIn_cons, usedIn_nil]
  omega

theorem trans
    {first second third : TieredStore}
    (earlier : first.Fuller second)
    (later : second.Fuller third) :
    first.Fuller third where
  copies tier id held := later.copies tier id (earlier.copies tier id held)
  used tier := (earlier.used tier).trans (later.used tier)
  fits block tier fits := later.fits block tier (earlier.fits block tier fits)
  room block tier sized room absent := by
    have absentBetween : second.copy tier block.id = none := by
      cases between : second.copy tier block.id with
      | none =>
          rfl
      | some data =>
          have held := later.copies tier block.id (by simp [between])
          simp [absent] at held
    have between := later.usedIn_le
    exact
      earlier.room block tier (by omega)
        (later.room block tier sized room absent) absentBetween

/-- An insertion into one tier. -/
theorem putToTier
    (accounted : store.Accounted)
    (noWrap : store.usedBytes tier + block.data.length < sizeRange)
    (accepted : (store.putToTier block tier).1 = true) :
    store.Fuller (store.putToTier block tier).2 where
  copies query id held := by
    rw [copy_putToTier_of_accepted accounted.ssd accepted]
    split
    · rfl
    · exact held
  used query := by
    by_cases same : query = tier
    · subst same
      cases held : store.copy query block.id with
      | some data =>
          rw [putToTier_of_present accounted.ssd.ssdSound held]
      | none =>
          rw [accounted.usedBytes_putToTier_of_new noWrap accepted held]
          exact Nat.le_add_right _ _
    · exact (usedBytes_putToTier_of_ne store block same).ge
  fits other query fits :=
    (fits_putToTier store block other tier query).mpr fits
  room other query otherSized room absent := by
    by_cases same : query = tier
    · subst same
      have part :=
        (store.putToTier block query).2.usedBytes_le_usedIn query
      exact
        accounted.tierHasRoom_of_putToTier noWrap (by omega) room absent
    · exact (tierHasRoom_putToTier_of_ne store block other same).mp room

/-- An insertion with any hint. -/
theorem put
    (accounted : store.Accounted)
    (sized :
      store.usedIn allTiers + block.data.length < sizeRange)
    (hint : Tier) :
    store.Fuller (store.put block hint).2 ∧
      (store.put block hint).2.Accounted := by
  rcases store.put_cases block hint with
    unplaced | ⟨tier, accepted, placed⟩
  · rw [unplaced]
    exact ⟨.refl store, accounted⟩
  · have part := store.usedBytes_le_usedIn tier
    have noWrap : store.usedBytes tier + block.data.length < sizeRange := by
      omega
    rw [placed]
    exact
      ⟨.putToTier accounted noWrap accepted, accounted.putToTier noWrap⟩

/-- A batch of insertions. -/
theorem putAll
    (accounted : store.Accounted)
    (sums : store.SumsFit blocks) :
    store.Fuller (store.putAll blocks) ∧
      (store.putAll blocks).Accounted := by
  induction blocks generalizing store with
  | nil =>
      exact ⟨.refl store, accounted⟩
  | cons block rest inductionHypothesis =>
      obtain ⟨fuller, accountedNext⟩ :=
        put accounted sums.first block.tier
      have later := inductionHypothesis accountedNext sums.rest
      exact ⟨fuller.trans later.1, later.2⟩

end Fuller

/-! ## Repeated insertions -/

/-- The tier that would take a block holds it. -/
def Settled
    (store : TieredStore)
    (block : KvBlock) : Prop :=
  ∀ tier,
    store.takingTier block block.tier = some tier →
    (store.copy tier block.id).isSome = true

/-- Inserting a settled block changes nothing. -/
theorem Settled.put
    (consistent : store.SsdConsistent)
    (settled : store.Settled block) :
    (store.put block block.tier).2 = store := by
  rw [put_eq_takingTier]
  cases takes : store.takingTier block block.tier with
  | none =>
      rfl
  | some tier =>
      obtain ⟨data, held⟩ :=
        Option.isSome_iff_exists.mp (settled tier takes)
      exact putToTier_of_present consistent.ssdSound held

/--
A block is settled in a fuller store if the tier that would have taken it
before holds it now.
-/
theorem Settled.of_fuller
    {before after : TieredStore}
    (fuller : before.Fuller after)
    (consistent : after.SsdConsistent)
    (sized :
      after.usedIn allTiers + block.data.length < sizeRange)
    (taken :
      ∀ tier,
        before.takingTier block block.tier = some tier →
        (after.copy tier block.id).isSome = true) :
    after.Settled block := by
  intro tier takes
  obtain ⟨room, faster, slower, order, full⟩ :=
    List.find?_eq_some_iff_append.mp takes
  by_contra missing
  have absent : after.copy tier block.id = none := by
    simpa using missing
  have roomBefore :=
    fuller.room block tier sized (of_decide_eq_true room) absent
  have heldIfTook (query : Tier)
      (took : before.takingTier block block.tier = some query) :
      after.TierHasRoom block query := by
    have room : before.TierHasRoom block query :=
      putToTier_accepted_iff.mp (accepted_of_takingTier took)
    exact
      (fuller.fits block query room.fits).room_of_held consistent
        (taken query took)
  have before_eq :
      before.takingTier block block.tier =
        (faster.find? fun query =>
          decide (before.TierHasRoom block query)).or (some tier) := by
    simp [takingTier, order, roomBefore]
  cases first :
      faster.find? fun query =>
        decide (before.TierHasRoom block query) with
  | none =>
      rw [first] at before_eq
      exact missing (taken tier before_eq)
  | some query =>
      rw [first] at before_eq
      have noRoom := full query (List.mem_of_find?_eq_some first)
      simp [heldIfTook query before_eq] at noRoom

/-- The tier that would take a block holds it after its insertion. -/
theorem held_put_of_takes
    (consistent : store.SsdConsistent)
    (takes : store.takingTier block block.tier = some tier) :
    ((store.put block block.tier).2.copy tier block.id).isSome = true := by
  rw [put_eq_takingTier, takes]
  rw [copy_putToTier_of_accepted consistent (accepted_of_takingTier takes)]
  simp

/-- All blocks of an inserted batch are settled. -/
theorem settled_putAll
    (accounted : store.Accounted)
    (sums : store.SumsFit blocks) :
    ∀ block ∈ blocks, (store.putAll blocks).Settled block := by
  induction blocks generalizing store with
  | nil =>
      simp
  | cons first rest inductionHypothesis =>
      obtain ⟨fuller, accountedNext⟩ :=
        Fuller.put accounted sums.first first.tier
      intro block member
      rcases List.mem_cons.mp member with isFirst | inRest
      · subst isFirst
        obtain ⟨later, accountedLater⟩ :=
          Fuller.putAll accountedNext sums.rest
        refine .of_fuller (fuller.trans later) accountedLater.ssd
          (sums _ (List.prefix_refl _) block (by simp)) ?_
        intro tier takes
        exact later.copies tier block.id
          (held_put_of_takes accounted.ssd takes)
      · exact inductionHypothesis accountedNext sums.rest block inRest

/-! ## New blocks -/

/-- The blocks of a batch that no tier held before and one holds after. -/
def newBlocks
    (store : TieredStore) :
    List KvBlock → List KvBlock
  | [] => []
  | block :: rest =>
      let after := (store.put block block.tier).2
      (if ¬ store.Resident block.id ∧ after.Resident block.id then
          [block]
        else
          []) ++
        newBlocks after rest

/-- Insertions keep blocks resident. -/
theorem not_resident_of_newBlocks
    (consistent : store.SsdConsistent)
    (isNew : block ∈ store.newBlocks blocks) :
    ¬ store.Resident block.id := by
  induction blocks generalizing store with
  | nil =>
      simp [newBlocks] at isNew
  | cons first rest inductionHypothesis =>
      rcases List.mem_append.mp isNew with isFirst | later
      · split at isFirst
        · next fresh =>
            rw [List.mem_singleton] at isFirst
            rw [isFirst]
            exact fresh.1
        · simp at isFirst
      · have notAfter :=
          inductionHypothesis (consistent.put first first.tier) later
        rw [resident_put consistent.ssdSound] at notAfter
        exact fun resident => notAfter (Or.inl resident)

/-- The insert counts a block: a tier without it takes its bytes. -/
def Counted
    (store : TieredStore)
    (block : KvBlock) : Prop :=
  ∃ tier,
    store.takingTier block block.tier = some tier ∧
      store.copy tier block.id = none ∧
      block.data ≠ []

/--
A block with bytes does not go to a tier that lacks it while another tier holds
it, and a block without bytes is not new.
-/
structure CountedRight
    (store : TieredStore)
    (block : KvBlock) : Prop where
  beside :
    ∀ tier,
      block.data ≠ [] →
      store.takingTier block block.tier = some tier →
      store.copy tier block.id = none →
      ¬ store.Resident block.id
  empty :
    block.data = [] →
    (store.takingTier block block.tier).isSome = true →
    store.Resident block.id

/-- A block is resident after its insertion if it was before or landed. -/
theorem resident_put_self
    (sound : store.SsdSound)
    (block : KvBlock) :
    (store.put block block.tier).2.Resident block.id ↔
      store.Resident block.id ∨
        (store.takingTier block block.tier).isSome = true := by
  rw [resident_put sound, put_eq_takingTier]
  cases store.takingTier block block.tier <;> simp

/-- A block is counted right exactly if it is counted when it is new. -/
theorem countedRight_iff
    (consistent : store.SsdConsistent)
    (block : KvBlock) :
    store.CountedRight block ↔
      (store.Counted block ↔
        ¬ store.Resident block.id ∧
          (store.put block block.tier).2.Resident block.id) := by
  rw [resident_put_self consistent.ssdSound]
  constructor
  · rintro ⟨beside, empty⟩
    constructor
    · rintro ⟨tier, takes, absent, bytes⟩
      exact ⟨beside tier bytes takes absent, Or.inr (by simp [takes])⟩
    · rintro ⟨fresh, resident | landed⟩
      · contradiction
      · obtain ⟨tier, takes⟩ := Option.isSome_iff_exists.mp landed
        refine ⟨tier, takes, ?_, fun noBytes => fresh (empty noBytes landed)⟩
        by_contra held
        exact fresh ⟨tier, Option.isSome_iff_ne_none.mpr held⟩
  · intro agree
    refine ⟨?_, ?_⟩
    · intro tier bytes takes absent
      exact (agree.mp ⟨tier, takes, absent, bytes⟩).1
    · intro noBytes landed
      by_contra fresh
      obtain ⟨_, _, _, bytes⟩ := agree.mpr ⟨fresh, Or.inr landed⟩
      exact bytes noBytes

end TieredStore

open TieredStore

namespace CacheNode

variable
  {node : CacheNode}
  {block : KvBlock}
  {blocks : List KvBlock}

/-- The sum of the counters does not wrap. -/
theorem totalUsed_eq
    (bounded : node.store.usedIn allTiers < sizeRange) :
    node.totalUsed = node.store.usedIn allTiers := by
  simp only [allTiers, usedIn_cons, usedIn_nil] at bounded
  simp only [totalUsed, allTiers, usedIn_cons, usedIn_nil]
  have inMemory :
      addSize (node.store.usedBytes .hbm) (node.store.usedBytes .dram) =
        node.store.usedBytes .hbm + node.store.usedBytes .dram :=
    addSize_of_lt (by omega)
  rw [inMemory, addSize_of_lt (by omega)]
  omega

/-- A block is counted if it lands and the sum of the counters grows. -/
theorem insertOne_true_iff
    (node : CacheNode)
    (block : KvBlock) :
    (node.insertOne block).1 = true ↔
      (node.store.put block block.tier).1.isSome = true ∧
        node.totalUsed <
          ({ node with store := (node.store.put block block.tier).2 } :
            CacheNode).totalUsed := by
  unfold insertOne
  dsimp only
  split
  · next counted =>
      simpa using counted
  · next notCounted =>
      simpa using notCounted

/-- A block is counted exactly if a tier that lacks it takes its bytes. -/
theorem insertOne_counted_iff
    (accounted : node.store.Accounted)
    (sized :
      node.store.usedIn allTiers + block.data.length < sizeRange) :
    (node.insertOne block).1 = true ↔ node.store.Counted block := by
  rw [insertOne_true_iff, put_eq_takingTier]
  unfold Counted
  cases takes : node.store.takingTier block block.tier with
  | none =>
      simp
  | some tier =>
      have part := node.store.usedBytes_le_usedIn tier
      have grown :=
        accounted.usedIn_putToTier (by omega) (accepted_of_takingTier takes)
      have boundedNext :
          (node.store.putToTier block tier).2.usedIn allTiers <
            sizeRange := by
        rw [grown]
        split <;> omega
      simp only [Option.isSome_some, true_and, Option.some.injEq,
        exists_eq_left']
      rw [totalUsed_eq (by omega), totalUsed_eq boundedNext, grown]
      cases node.store.copy tier block.id with
      | none =>
          simp [List.length_pos_iff]
      | some data =>
          simp

/-- Inserting one block stores it, whether it is counted or not. -/
theorem store_insertOne
    (node : CacheNode)
    (block : KvBlock) :
    (node.insertOne block).2.store =
      (node.store.put block block.tier).2 := by
  unfold insertOne
  dsimp only
  split
  · rw [store_replicateOut]
  · rfl

/-- Replicating several blocks leaves the store alone. -/
theorem store_foldl_replicateOut
    (node : CacheNode)
    (blocks : List KvBlock) :
    (blocks.foldl replicateOut node).store = node.store := by
  induction blocks generalizing node with
  | nil =>
      rfl
  | cons block rest inductionHypothesis =>
      rw [List.foldl_cons, inductionHypothesis, store_replicateOut]

/-- The blocks of a batch that an insert hands over for replication. -/
def handedOut
    (node : CacheNode) :
    List KvBlock → List KvBlock
  | [] => []
  | block :: rest =>
      let first := node.insertOne block
      (if first.1 then [block] else []) ++ first.2.handedOut rest

/-- An insert hands over blocks of its batch. -/
theorem handedOut_subset
    (node : CacheNode)
    (blocks : List KvBlock) :
    node.handedOut blocks ⊆ blocks := by
  induction blocks generalizing node with
  | nil =>
      exact List.Subset.refl _
  | cons block rest inductionHypothesis =>
      intro handed member
      rcases List.mem_append.mp member with isFirst | later
      · split at isFirst
        · rw [List.mem_singleton] at isFirst
          simp [isFirst]
        · simp at isFirst
      · exact List.mem_cons_of_mem _ (inductionHypothesis _ later)

/-- Queueing pushes does not look at the store. -/
theorem replicateOut_withStore
    (node : CacheNode)
    (store : TieredStore)
    (block : KvBlock) :
    ({ node with store := store } : CacheNode).replicateOut block =
      { node.replicateOut block with store := store } := by
  unfold replicateOut replicaTargets
  dsimp only
  generalize
    pushTasks
      ((node.router.route block.id).replicas.filter fun peer =>
        peer ≠ node.nodeId) block = tasks
  induction tasks generalizing node with
  | nil =>
      rfl
  | cons task rest inductionHypothesis =>
      have one :
          ({ node with store := store } : CacheNode).enqueue task =
            { node.enqueue task with store := store } := by
        unfold enqueue
        dsimp only
        split <;> rfl
      rw [List.foldl_cons, List.foldl_cons, one]
      exact inductionHypothesis (node.enqueue task)

/--
An insert stores the whole batch, hands over some of its blocks in order and
returns their number in 32 bits.
-/
theorem insert_eq_handedOut
    (node : CacheNode)
    (blocks : List KvBlock) :
    node.insert blocks =
      (UInt32.ofNat (node.handedOut blocks).length,
        (node.handedOut blocks).foldl replicateOut
          { node with store := node.store.putAll blocks }) := by
  induction blocks generalizing node with
  | nil =>
      rfl
  | cons block rest inductionHypothesis =>
      simp only [insert, handedOut, inductionHypothesis]
      rw [store_insertOne]
      unfold insertOne
      dsimp only
      split
      · simp only [↓reduceIte, List.singleton_append, List.length_cons,
          List.foldl_cons, replicateOut_withStore, Prod.mk.injEq]
        refine ⟨?_, rfl⟩
        rw [UInt32.ofNat_add, UInt32.add_comm]
        rfl
      · simp only [Bool.false_eq_true, ↓reduceIte, List.nil_append,
          UInt32.zero_add]
        rfl

/-- Blocks that an insert hands over have bytes. -/
theorem bytes_of_handedOut
    (accounted : node.store.Accounted)
    (sums : node.store.SumsFit blocks)
    (handed : block ∈ node.handedOut blocks) :
    block.data ≠ [] := by
  induction blocks generalizing node with
  | nil =>
      simp [handedOut] at handed
  | cons first rest inductionHypothesis =>
      rcases List.mem_append.mp handed with isFirst | later
      · split at isFirst
        · next counted =>
            rw [List.mem_singleton] at isFirst
            obtain ⟨_, _, _, bytes⟩ :=
              (insertOne_counted_iff accounted sums.first).mp counted
            rwa [isFirst]
        · simp at isFirst
      · have accountedNext :=
          (Fuller.put accounted sums.first first.tier).2
        have sumsNext := sums.rest
        rw [← store_insertOne] at accountedNext sumsNext
        exact inductionHypothesis accountedNext sumsNext later

/--
If the blocks handed over are the new ones, the first block of the batch was
counted exactly if it is new: a block that is wrongly left out or added would
have to be handed over, or be new, at a later place of the batch.
-/
theorem counted_iff_new_of_same
    (accounted : node.store.Accounted)
    {first : KvBlock}
    {rest : List KvBlock}
    (sums : node.store.SumsFit (first :: rest))
    (same :
      node.handedOut (first :: rest) =
        node.store.newBlocks (first :: rest)) :
    (node.insertOne first).1 = true ↔
      ¬ node.store.Resident first.id ∧
        (node.store.put first first.tier).2.Resident first.id := by
  have accountedNext := (Fuller.put accounted sums.first first.tier).2
  have countedIff := insertOne_counted_iff accounted sums.first
  have landedIff := resident_put_self accounted.ssd.ssdSound first
  simp only [handedOut, newBlocks] at same
  constructor
  · intro counted
    by_contra notNew
    rw [if_pos counted, if_neg notNew, List.nil_append] at same
    have isNew :
        first ∈ (node.store.put first first.tier).2.newBlocks rest := by
      rw [← same]
      simp
    obtain ⟨tier, takes, _, _⟩ := countedIff.mp counted
    exact not_resident_of_newBlocks accountedNext.ssd isNew
      (landedIff.mpr (Or.inr (by simp [takes])))
  · intro isNew
    by_contra notCounted
    rw [if_neg notCounted, if_pos isNew, List.nil_append] at same
    have handed : first ∈ (node.insertOne first).2.handedOut rest := by
      rw [same]
      simp
    have sumsNext := sums.rest
    rw [← store_insertOne] at accountedNext sumsNext
    have bytes := bytes_of_handedOut accountedNext sumsNext handed
    obtain ⟨tier, takes⟩ :=
      Option.isSome_iff_exists.mp
        ((landedIff.mp isNew.2).resolve_left isNew.1)
    refine notCounted (countedIff.mpr ⟨tier, takes, ?_, bytes⟩)
    by_contra held
    exact isNew.1 ⟨tier, Option.isSome_iff_ne_none.mpr held⟩

/--
An insert hands over exactly the new blocks if and only if every block is
counted right in the state in which it is stored.
-/
theorem handedOut_eq_newBlocks_iff
    (accounted : node.store.Accounted)
    (sums : node.store.SumsFit blocks) :
    node.handedOut blocks = node.store.newBlocks blocks ↔
      ∀ earlier block,
        earlier ++ [block] <+: blocks →
        (node.store.putAll earlier).CountedRight block := by
  induction blocks generalizing node with
  | nil =>
      simp [handedOut, newBlocks]
  | cons first rest inductionHypothesis =>
      have accountedNext :=
        (Fuller.put accounted sums.first first.tier).2
      have agreeOfSame := counted_iff_new_of_same accounted sums
      have later :=
        @inductionHypothesis (node.insertOne first).2
          (by rwa [store_insertOne])
          (by
            rw [store_insertOne]
            exact sums.rest)
      rw [store_insertOne] at later
      unfold putAll at later ⊢
      rw [EventRun.conditions_cons_iff, ← later,
        countedRight_iff accounted.ssd,
        ← insertOne_counted_iff accounted sums.first]
      simp only [handedOut, newBlocks] at agreeOfSame ⊢
      constructor
      · intro same
        have agree := agreeOfSame same
        refine ⟨agree, ?_⟩
        simp only [agree] at same
        exact List.append_cancel_left same
      · rintro ⟨agree, same⟩
        simp only [agree, same]

/-- Inserting settled blocks counts none and changes nothing. -/
theorem insert_settled
    (consistent : node.store.SsdConsistent)
    (settled : ∀ block ∈ blocks, node.store.Settled block) :
    node.insert blocks = (0, node) := by
  induction blocks with
  | nil =>
      rfl
  | cons first rest inductionHypothesis =>
      have unchanged := (settled first (by simp)).put consistent
      have one : node.insertOne first = (false, node) := by
        simp [insertOne, unchanged]
      simp [insert, one,
        inductionHypothesis fun block member =>
          settled block (List.mem_cons_of_mem _ member)]

end CacheNode

/--
An insert returns the number of new blocks of its batch, hands over exactly
those, and finds none when the batch is inserted again, exactly if every block
is counted right in the state in which it is stored and the new blocks are
fewer than the count can tell.
-/
theorem batch_insert_counts_new_iff
    {node : CacheNode}
    (accounted : node.store.Accounted)
    {batch : List KvBlock}
    (sums : node.store.SumsFit batch) :
    let inserted := node.insert batch
    let again := inserted.2.insert batch
    (inserted.1.toNat = (node.store.newBlocks batch).length ∧
        node.handedOut batch = node.store.newBlocks batch ∧
        again.1 = 0 ∧
        ∀ tier,
          again.2.store.usedBytes tier =
            inserted.2.store.usedBytes tier) ↔
      (∀ earlier block,
          earlier ++ [block] <+: batch →
          (node.store.putAll earlier).CountedRight block) ∧
        (node.store.newBlocks batch).length < 2 ^ 32 := by
  intro inserted again
  have store_eq : inserted.2.store = node.store.putAll batch := by
    simp only [inserted, CacheNode.insert_eq_handedOut,
      CacheNode.store_foldl_replicateOut]
  have repeated : again = (0, inserted.2) := by
    refine CacheNode.insert_settled ?_ ?_
    · rw [store_eq]
      exact (Fuller.putAll accounted sums).2.ssd
    · rw [store_eq]
      exact settled_putAll accounted sums
  have count : inserted.1 = UInt32.ofNat (node.handedOut batch).length := by
    simp only [inserted, CacheNode.insert_eq_handedOut]
  rw [← CacheNode.handedOut_eq_newBlocks_iff accounted sums, repeated, count]
  constructor
  · rintro ⟨told, same, _⟩
    refine ⟨same, ?_⟩
    rw [← told]
    exact UInt32.toNat_lt _
  · rintro ⟨same, few⟩
    refine ⟨?_, same, rfl, fun _ => rfl⟩
    rw [same]
    exact UInt32.toNat_ofNat_of_lt' few

/--
A new block without bytes is not counted, and a block that the file holds is
counted again when it is inserted into memory.
-/
theorem insert_miscounts_empty_and_moved_blocks :
    let node := sampleNode [nodeA, nodeB] nodeA
    ((node.insert [{ sampleInsert with data := [] }]).1 = 0 ∧
      (node.store.newBlocks
        [{ sampleInsert with data := [] }]).length = 1) ∧
    ((node.insert [sampleInsert, { sampleInsert with tier := .dram }]).1 = 2 ∧
      (node.store.newBlocks
        [sampleInsert, { sampleInsert with tier := .dram }]).length = 1) := by
  decide +kernel

/-- One block with bytes, inserted into a server that holds nothing. -/
theorem batch_insert_counts_new_iff_sample :
    let node := sampleNode [nodeA, nodeB] nodeA
    let inserted := node.insert [sampleInsert]
    inserted.1.toNat = (node.store.newBlocks [sampleInsert]).length ∧
      (inserted.2.insert [sampleInsert]).1 = 0 := by
  have accounted : (sampleNode [nodeA, nodeB] nodeA).store.Accounted :=
    .create (by decide) (by decide)
      (create_zero_copies sampleStoreConfig sampleStoreConfig_small
        fun _ _ => True).consistent
  have counted :=
    @batch_insert_counts_new_iff _ accounted [sampleInsert]
      (.of_capacities accounted (by decide +kernel))
  have right :=
    counted.mpr
      ⟨EventRun.conditions_cons
        ⟨fun tier _ _ _ => by decide +kernel,
          fun noBytes => absurd noBytes (by decide)⟩
        EventRun.conditions_nil, by decide +kernel⟩
  exact ⟨right.1, right.2.2.1⟩

end Lethe
