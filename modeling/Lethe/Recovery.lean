import Lethe.InsertReach

namespace Lethe

/-!
# Recovery after deaths

A survivor that drops peers from its ring starts a round over the blocks it
holds and owns under the new ring, and pushes each to all other owners.  The
step from one ring to the next and the start of the round are separate calls;
a later change may replace a round that is not finished.

Each survivor owes every other owner of a block that it owns itself a copy:
the owner holds the block, or a push is queued or on its way, or the round has
still to come to the block.  Once nothing is left to do, all owners hold it.
-/

namespace CacheNode

/-- Blocks that the round in progress has still to handle. -/
def outstanding
    (node : CacheNode) :
    List BlockId :=
  if node.rerepActive then
    node.rerepRound.drop node.rerepCursor
  else
    []

/-- Every member of the route except the server itself is a target. -/
theorem mem_rerepTargets
    {node : CacheNode}
    {id : BlockId}
    {target : NodeId} :
    target ∈ node.rerepTargets id ↔
      target ∈ (node.router.route id).members ∧
        target ≠ node.nodeId := by
  simp [rerepTargets, replicaTargets, RouteResult.members, or_and_right]

/-- The server keeps its name, ring, blocks and queued pushes. -/
structure Keeps
    (before after : CacheNode) : Prop where
  nodeId_eq : after.nodeId = before.nodeId
  router_eq : after.router = before.router
  resident_iff :
    ∀ id, after.store.Resident id ↔ before.store.Resident id
  queue_subset : before.queue ⊆ after.queue

namespace Keeps

theorem refl
    (node : CacheNode) :
    node.Keeps node :=
  ⟨rfl, rfl, fun _ => Iff.rfl, List.Subset.refl _⟩

theorem trans
    {first second third : CacheNode}
    (earlier : first.Keeps second)
    (later : second.Keeps third) :
    first.Keeps third where
  nodeId_eq := later.nodeId_eq.trans earlier.nodeId_eq
  router_eq := later.router_eq.trans earlier.router_eq
  resident_iff := fun id =>
    (later.resident_iff id).trans (earlier.resident_iff id)
  queue_subset :=
    List.Subset.trans earlier.queue_subset later.queue_subset

/-- Targets depend on the name and the ring only. -/
theorem rerepTargets_eq
    {before after : CacheNode}
    (keeps : before.Keeps after)
    (id : BlockId) :
    after.rerepTargets id = before.rerepTargets id := by
  simp [rerepTargets, replicaTargets, keeps.nodeId_eq, keeps.router_eq]

end Keeps

/--
A tick keeps the server as it is, except that blocks of the round are replaced
by pushes to all their targets.
-/
structure Advances
    (blocks : Set BlockId)
    (before after : CacheNode) : Prop extends before.Keeps after where
  handled :
    ∀ id ∈ blocks,
      before.store.Resident id →
      id ∈ before.outstanding →
      ∀ target ∈ before.rerepTargets id,
        id ∈ after.outstanding ∨
          ∃ task ∈ after.queue,
            task.peerId = target ∧ task.block.id = id

namespace Advances

variable
  {blocks : Set BlockId}
  {node : CacheNode}

theorem refl
    (node : CacheNode) :
    node.Advances blocks node where
  toKeeps := .refl node
  handled := fun _ _ _ member _ _ => Or.inl member

theorem trans
    {first second third : CacheNode}
    (earlier : first.Advances blocks second)
    (later : second.Advances blocks third) :
    first.Advances blocks third where
  toKeeps := earlier.toKeeps.trans later.toKeeps
  handled := by
    intro id isBlock resident member target isTarget
    rcases earlier.handled id isBlock resident member target isTarget with
      stillOut | ⟨task, queued, shape⟩
    · refine
        later.handled id isBlock ((earlier.resident_iff id).mpr resident)
          stillOut target ?_
      rwa [earlier.rerepTargets_eq]
    · exact Or.inr ⟨task, later.queue_subset queued, shape⟩

/-- Passing over a block that needs no push, or reading one for its pushes. -/
theorem drainEffect
    {next : CacheNode}
    {id : BlockId}
    (carries : node.Carries fun id data => id ∈ blocks → data ≠ [])
    (found : node.rerepRound[node.rerepCursor]? = some id)
    (effect : DrainEffect node id next) :
    node.Advances blocks next := by
  have consistent := carries.store.consistent
  have remaining :
      ∀ other ∈ node.outstanding,
        other = id ∨
          node.rerepActive = true ∧
            other ∈ node.rerepRound.drop (node.rerepCursor + 1) := by
    intro other member
    unfold outstanding at member
    split at member
    · next active =>
        obtain ⟨inside, isBlock⟩ := List.getElem?_eq_some_iff.mp found
        rw [List.drop_eq_getElem_cons inside, isBlock] at member
        rcases List.mem_cons.mp member with same | later
        · exact Or.inl same
        · exact Or.inr ⟨active, later⟩
    · simp at member
  cases effect with
  | noTargets covered =>
      refine ⟨⟨rfl, rfl, fun _ => Iff.rfl, List.Subset.refl _⟩, ?_⟩
      intro other _ _ member target isTarget
      rcases remaining other member with same | ⟨active, later⟩
      · rw [same, covered] at isTarget
        simp at isTarget
      · exact Or.inl (by simpa [outstanding, nextInRound, active])
  | noBytes missing =>
      refine
        ⟨⟨rfl, rfl, fun other => TieredStore.resident_get consistent id other,
          List.Subset.refl _⟩, ?_⟩
      intro other isBlock ⟨tier, present⟩ member target _
      rcases remaining other member with same | ⟨active, later⟩
      · obtain ⟨data, held⟩ := Option.isSome_iff_exists.mp present
        obtain ⟨got, read⟩ :=
          TieredStore.get_of_bytes held (carries.store.every held isBlock)
        rw [same, missing] at read
        simp at read
      · exact Or.inl (by simpa [outstanding, nextInRound, active])
  | @dispatched got read =>
      refine
        ⟨⟨rfl, rfl, fun other => TieredStore.resident_get consistent id other,
          List.subset_append_left _ _⟩, ?_⟩
      intro other _ _ member target isTarget
      rcases remaining other member with same | ⟨active, later⟩
      · rw [same] at isTarget ⊢
        refine
          Or.inr ⟨⟨target, pushedBlock id got⟩, ?_, rfl, rfl⟩
        exact
          List.mem_append_right _ (List.mem_map.mpr ⟨target, isTarget, rfl⟩)
      · exact Or.inl (by simpa [outstanding, nextInRound, active])

/-- A round that is over has no block left. -/
theorem finishRound
    (node : CacheNode) :
    node.Advances blocks node.finishRound := by
  unfold CacheNode.finishRound
  split
  · next exhausted =>
      refine ⟨⟨rfl, rfl, fun _ => Iff.rfl, List.Subset.refl _⟩, ?_⟩
      intro id _ _ member
      simp [outstanding, List.drop_eq_nil_of_le exhausted] at member
  · exact refl node

/-- One tick. -/
theorem drainReReplication
    (carries : node.Carries fun id data => id ∈ blocks → data ≠ []) :
    node.Advances blocks node.drainReReplication := by
  unfold CacheNode.drainReReplication
  split
  · have looped :=
      drainLoop_preserves
        (fun next =>
          next.Carries (fun id data => id ∈ blocks → data ≠ []) ∧
            node.Advances blocks next)
        (fun ⟨carried, advanced⟩ found effect =>
          ⟨carried.drainEffect effect,
            advanced.trans (drainEffect carried found effect)⟩)
        (node.rerepRound.length - node.rerepCursor) 0
        ⟨carries, refl node⟩
    exact looped.2.trans (finishRound _)
  · exact refl node

end Advances

/-- A new round has all its blocks left. -/
theorem outstanding_startRound
    (node : CacheNode)
    (round : List BlockId) :
    (node.startRound round).outstanding = round := by
  unfold outstanding startRound
  cases round with
  | nil =>
      rfl
  | cons id rest =>
      rfl

/-- The candidates of a round are the resident blocks that the server owns. -/
theorem mem_candidates
    {node : CacheNode}
    (consistent : node.store.SsdConsistent)
    {listing : Tier → List BlockMeta}
    (listed : Lists node.store listing)
    {id : BlockId} :
    id ∈ node.candidates listing ↔
      node.store.Resident id ∧
        node.nodeId ∈ (node.router.route id).members := by
  have inTier (tier : Tier) :
      id ∈ (listing tier).map BlockMeta.id ↔
        (node.store.copy tier id).isSome = true := by
    rw [((listed tier).map BlockMeta.id).mem_iff]
    exact TieredStore.mem_snapshot_ids consistent
  rw [candidates, List.mem_filter, decide_eq_true_iff, List.map_append,
    List.map_append, List.mem_append, List.mem_append, inTier, inTier,
    inTier]
  refine and_congr_left fun _ => ?_
  constructor
  · rintro ((inHbm | inDram) | inSsd)
    · exact ⟨.hbm, inHbm⟩
    · exact ⟨.dram, inDram⟩
    · exact ⟨.ssd, inSsd⟩
  · rintro ⟨tier, present⟩
    cases tier with
    | hbm =>
        exact Or.inl (Or.inl present)
    | dram =>
        exact Or.inl (Or.inr present)
    | ssd =>
        exact Or.inr present

section Trigger

variable
  {blocks : Set BlockId}
  {node : CacheNode}
  {lostPeers : List NodeId}
  {listing : Tier → List BlockMeta}

/-- Starting a round is replacing the old one and a first tick. -/
theorem startRound_advances
    (carries : node.Carries fun id data => id ∈ blocks → data ≠ [])
    (lost : lostPeers ≠ []) :
    (node.startRound (node.candidates listing)).Advances blocks
      (node.triggerReReplication lostPeers listing) := by
  rw [triggerReReplication, if_neg lost]
  exact .drainReReplication ⟨carries.store, carries.queue⟩

/-- Starting a round keeps the server as it is. -/
theorem triggerReReplication_keeps
    (carries : node.Carries fun id data => id ∈ blocks → data ≠ [])
    (lost : lostPeers ≠ [])
    (listing : Tier → List BlockMeta) :
    node.Keeps (node.triggerReReplication lostPeers listing) := by
  have started : node.Keeps (node.startRound (node.candidates listing)) :=
    ⟨rfl, rfl, fun _ => Iff.rfl, List.Subset.refl _⟩
  exact started.trans (startRound_advances carries lost).toKeeps

/-- A new round takes care of every resident block that the server owns. -/
theorem triggerReReplication_handles
    (carries : node.Carries fun id data => id ∈ blocks → data ≠ [])
    (lost : lostPeers ≠ [])
    (listed : Lists node.store listing)
    {id : BlockId}
    (isBlock : id ∈ blocks)
    (resident : node.store.Resident id)
    (owns : node.nodeId ∈ (node.router.route id).members)
    {target : NodeId}
    (isTarget : target ∈ node.rerepTargets id) :
    id ∈ (node.triggerReReplication lostPeers listing).outstanding ∨
      ∃ task ∈ (node.triggerReReplication lostPeers listing).queue,
        task.peerId = target ∧ task.block.id = id := by
  refine
    (startRound_advances carries lost).handled id isBlock resident ?_ target
      isTarget
  rw [outstanding_startRound]
  exact
    (mem_candidates carries.store.consistent listed).mpr ⟨resident, owns⟩

end Trigger

end CacheNode

/-! ## Runs of the whole cluster -/

/-- The cluster, with the servers that are in the middle of a change. -/
structure Recovery where
  cluster : Cluster
  changing : NodeId → Bool

/-- What happens during recovery. -/
inductive RecoveryEvent where
  | setPeers (node : NodeId) (router : Router)
  | trigger
      (node : NodeId)
      (lostPeers : List NodeId)
      (listing : Tier → List BlockMeta)
  | drain (node : NodeId)
  | push (event : Cluster.PushEvent)
  | lose (task : ReplicateTask)

namespace Recovery

/--
Steps of a recovery: membership changes, ticks, workers and deliveries.  A
change may install any ring; only pushes to dead servers get lost.
-/
inductive Step
    (blake3 : List UInt8 → Hash256)
    (dead : Finset NodeId) :
    Recovery → RecoveryEvent → Recovery → Prop where
  | setPeers
      (state : Recovery)
      (name : NodeId)
      (router : Router)
      (idle : state.changing name = false)
      (built : router.Built blake3)
      (sameVnodes :
        router.vnodesPerPeer =
          (state.cluster.nodes name).router.vnodesPerPeer)
      (sameFactor :
        router.replicationFactor =
          (state.cluster.nodes name).router.replicationFactor) :
      Step blake3 dead state (.setPeers name router)
        ⟨state.cluster.update name
            { state.cluster.nodes name with router := router },
          Function.update state.changing name true⟩
  | trigger
      (state : Recovery)
      (name : NodeId)
      (lostPeers : List NodeId)
      (listing : Tier → List BlockMeta)
      (changing : state.changing name = true)
      (lost : lostPeers ≠ [])
      (listed :
        CacheNode.Lists (state.cluster.nodes name).store listing) :
      Step blake3 dead state (.trigger name lostPeers listing)
        ⟨state.cluster.update name
            ((state.cluster.nodes name).triggerReReplication lostPeers
              listing),
          Function.update state.changing name false⟩
  | drain
      (state : Recovery)
      (name : NodeId) :
      Step blake3 dead state (.drain name)
        ⟨state.cluster.update name
            (state.cluster.nodes name).drainReReplication,
          state.changing⟩
  | push
      (state : Recovery)
      {event : Cluster.PushEvent}
      {next : Cluster}
      (pushed : Cluster.Push state.cluster event next) :
      Step blake3 dead state (.push event) ⟨next, state.changing⟩
  | lose
      (state : Recovery)
      (task : ReplicateTask)
      (gone : task.peerId ∈ dead) :
      Step blake3 dead state (.lose task)
        ⟨{ state.cluster with wire := state.cluster.wire.erase task },
          state.changing⟩

end Recovery

/-- The peers of a ring that are not dead. -/
def Router.survivors
    (router : Router)
    (dead : Finset NodeId) :
    List NodeId :=
  router.peers.filter fun peer => decide (peer ∉ dead)

namespace Cluster

/-- The server has the block in its round, in its queue or on the wire. -/
def Owes
    (cluster : Cluster)
    (name : NodeId)
    (id : BlockId)
    (target : NodeId) : Prop :=
  id ∈ (cluster.nodes name).outstanding ∨
    ∃ task,
      cluster.Queued name task ∧
        task.peerId = target ∧ task.block.id = id

/--
For the blocks that a server owned on the full ring and owns on its own, the
other live owners hold a copy or are owed one.
-/
def Serves
    (full : Router)
    (dead : Finset NodeId)
    (blocks : Set BlockId)
    (cluster : Cluster)
    (name : NodeId) : Prop :=
  ∀ id ∈ blocks,
    name ∈ (full.route id).members →
    name ∈ ((cluster.nodes name).router.route id).members →
    ∀ target ∈ ((cluster.nodes name).router.route id).members,
      target ≠ name →
      target ∉ dead →
      (cluster.nodes target).store.Resident id ∨
        cluster.Owes name id target

section Serves

variable
  {full : Router}
  {dead : Finset NodeId}
  {blocks : Set BlockId}
  {before after : Cluster}
  {name : NodeId}

/-- A server goes on serving while blocks stay and debts are kept or paid. -/
theorem Serves.mono
    (serves : before.Serves full dead blocks name)
    (sameRing :
      (after.nodes name).router = (before.nodes name).router)
    (residents :
      ∀ node id,
        (before.nodes node).store.Resident id →
        (after.nodes node).store.Resident id)
    (debts :
      ∀ id ∈ blocks,
        name ∈ (full.route id).members →
        ∀ target ∈ ((before.nodes name).router.route id).members,
          target ≠ name →
          target ∉ dead →
          before.Owes name id target →
          (after.nodes target).store.Resident id ∨
            after.Owes name id target) :
    after.Serves full dead blocks name := by
  intro id isBlock owned owns target isTarget different alive
  rw [sameRing] at owns isTarget
  rcases serves id isBlock owned owns target isTarget different alive with
    resident | owes
  · exact Or.inl (residents target id resident)
  · exact debts id isBlock owned target isTarget different alive owes

/-- Replacing one server by one that keeps its blocks keeps all blocks. -/
theorem resident_update
    {replaced : NodeId}
    {node : CacheNode}
    (same :
      ∀ id,
        node.store.Resident id ↔
          (before.nodes replaced).store.Resident id)
    (other : NodeId)
    (id : BlockId) :
    ((before.update replaced node).nodes other).store.Resident id ↔
      (before.nodes other).store.Resident id := by
  by_cases isReplaced : other = replaced
  · subst isReplaced
    rw [update_nodes_self]
    exact same id
  · rw [update_nodes_of_ne _ isReplaced]

/-- Replacing another server by one that keeps its blocks. -/
theorem Serves.update_other
    (serves : before.Serves full dead blocks name)
    {replaced : NodeId}
    (different : name ≠ replaced)
    {node : CacheNode}
    (same :
      ∀ id,
        node.store.Resident id ↔
          (before.nodes replaced).store.Resident id) :
    (before.update replaced node).Serves full dead blocks name := by
  refine serves.mono ?_ ?_ ?_
  · rw [update_nodes_of_ne _ different]
  · intro other id resident
    exact (resident_update same other id).mpr resident
  · intro id _ _ target _ _ _ owes
    refine Or.inr ?_
    simpa [Owes, Queued, different, update] using owes

/-- A tick of the server itself. -/
theorem Serves.update_self
    (serves : before.Serves full dead blocks name)
    (named : (before.nodes name).nodeId = name)
    (held :
      ∀ id ∈ blocks,
        name ∈ (full.route id).members →
        (before.nodes name).store.Resident id)
    {node : CacheNode}
    (advances : (before.nodes name).Advances blocks node) :
    (before.update name node).Serves full dead blocks name := by
  refine serves.mono ?_ ?_ ?_
  · rw [update_nodes_self, advances.router_eq]
  · intro other id resident
    exact (resident_update advances.resident_iff other id).mpr resident
  · intro id isBlock owned target isTarget different _ owes
    refine Or.inr ?_
    rcases owes with stillOut | ⟨task, queued, shape⟩
    · have isRerepTarget :
          target ∈ (before.nodes name).rerepTargets id :=
        CacheNode.mem_rerepTargets.mpr ⟨isTarget, by rwa [named]⟩
      rcases advances.handled id isBlock (held id isBlock owned) stillOut
          target isRerepTarget with later | ⟨task, queued, shape⟩
      · exact Or.inl (by rwa [update_nodes_self])
      · exact Or.inr ⟨task, Or.inl (by rwa [update_nodes_self]), shape⟩
    · exact Or.inr ⟨task, queued.update advances.queue_subset, shape⟩

/-- The server has just started a round for its ring. -/
theorem serves_of_trigger
    (carries : before.Carries fun id data => id ∈ blocks → data ≠ [])
    (named : (before.nodes name).nodeId = name)
    (held :
      ∀ id ∈ blocks,
        name ∈ (full.route id).members →
        (before.nodes name).store.Resident id)
    {lostPeers : List NodeId}
    (lost : lostPeers ≠ [])
    {listing : Tier → List BlockMeta}
    (listed : CacheNode.Lists (before.nodes name).store listing) :
    (before.update name
      ((before.nodes name).triggerReReplication lostPeers
        listing)).Serves full dead blocks name := by
  have keeps :=
    CacheNode.triggerReReplication_keeps (carries.nodes name) lost
      listing
  intro id isBlock owned owns target isTarget different _
  rw [update_nodes_self, keeps.router_eq] at owns isTarget
  refine Or.inr ?_
  have isRerepTarget : target ∈ (before.nodes name).rerepTargets id :=
    CacheNode.mem_rerepTargets.mpr ⟨isTarget, by rwa [named]⟩
  have ownsNamed :
      (before.nodes name).nodeId ∈
        ((before.nodes name).router.route id).members := by
    rwa [named]
  rcases
      CacheNode.triggerReReplication_handles (carries.nodes name) lost
        listed isBlock (held id isBlock owned) ownsNamed isRerepTarget with
    stillOut | ⟨task, queued, shape⟩
  · exact Or.inl (by rwa [update_nodes_self])
  · exact Or.inr ⟨task, Or.inl (by rwa [update_nodes_self]), shape⟩

/-- Deliveries pay debts. -/
theorem Serves.push
    {holds : BlockId → List UInt8 → Prop}
    (carries : before.Carries holds)
    (serves : before.Serves full dead blocks name)
    {event : PushEvent}
    (step : Push before event after) :
    after.Serves full dead blocks name := by
  obtain ⟨_, _, _, sameNode⟩ := step.node_eq name
  refine serves.mono ?_ ?_ ?_
  · rw [sameNode]
  · intro node id resident
    exact step.keeps_resident carries resident
  · intro id _ _ target _ _ _ owes
    rcases owes with stillOut | ⟨task, queued, isTarget, isBlock⟩
    · refine Or.inr (Or.inl ?_)
      rw [sameNode]
      exact stillOut
    · rcases step.keeps_task queued with stillQueued | isDelivery
      · exact Or.inr (Or.inr ⟨task, stillQueued, isTarget, isBlock⟩)
      · refine Or.inl ((step.resident_iff carries target id).mpr ?_)
        exact Or.inr ⟨task, isDelivery, isTarget, isBlock⟩

/-- Losing a push to a dead server harms no live one. -/
theorem Serves.lose
    (serves : before.Serves full dead blocks name)
    {task : ReplicateTask}
    (gone : task.peerId ∈ dead) :
    ({ before with wire := before.wire.erase task } : Cluster).Serves
      full dead blocks name := by
  refine serves.mono rfl (fun _ _ resident => resident) ?_
  intro id _ _ target _ _ alive owes
  refine Or.inr ?_
  rcases owes with stillOut | ⟨kept, queued, isTarget, isBlock⟩
  · exact Or.inl stillOut
  · refine Or.inr ⟨kept, ?_, isTarget, isBlock⟩
    rcases queued with waiting | onWire
    · exact Or.inl waiting
    · have different : kept ≠ task := by
        intro same
        rw [same] at isTarget
        rw [isTarget] at gone
        exact alive gone
      exact Or.inr ((List.mem_erase_of_ne different).mpr onWire)

end Serves

end Cluster

/-- A ring of other peers with the same settings. -/
structure Router.Variant
    (blake3 : List UInt8 → Hash256)
    (full router : Router) : Prop where
  built : router.Built blake3
  vnodesPerPeer_eq : router.vnodesPerPeer = full.vnodesPerPeer
  replicationFactor_eq :
    router.replicationFactor = full.replicationFactor

/-- A server under its own name, with a ring of the given settings. -/
structure CacheNode.HasRing
    (blake3 : List UInt8 → Hash256)
    (full : Router)
    (name : NodeId)
    (node : CacheNode) : Prop where
  nodeId_eq : node.nodeId = name
  variant : full.Variant blake3 node.router

namespace Recovery

/-- What holds throughout a recovery. -/
structure Sound
    (blake3 : List UInt8 → Hash256)
    (full : Router)
    (dead : Finset NodeId)
    (blocks : Set BlockId)
    (state : Recovery) : Prop where
  carries :
    state.cluster.Carries fun id data => id ∈ blocks → data ≠ []
  held :
    ∀ id ∈ blocks,
      ∀ name ∈ (full.route id).members,
        (state.cluster.nodes name).store.Resident id
  ring :
    ∀ name ∈ full.survivors dead,
      (state.cluster.nodes name).HasRing blake3 full name
  duty :
    ∀ name ∈ full.survivors dead,
      state.changing name = true ∨
        (state.cluster.nodes name).router.peers.Perm full.peers ∨
        state.cluster.Serves full dead blocks name

namespace Sound

variable
  {blake3 : List UInt8 → Hash256}
  {full : Router}
  {dead : Finset NodeId}
  {blocks : Set BlockId}
  {state : Recovery}

/-- Replacing one server by one that keeps its blocks. -/
theorem replace
    (sound : state.Sound blake3 full dead blocks)
    {name : NodeId}
    {node : CacheNode}
    {changing : NodeId → Bool}
    (carries : node.Carries fun id data => id ∈ blocks → data ≠ [])
    (same :
      ∀ id,
        node.store.Resident id ↔
          (state.cluster.nodes name).store.Resident id)
    (ring :
      (state.cluster.nodes name).HasRing blake3 full name →
      node.HasRing blake3 full name)
    (others :
      ∀ other, other ≠ name → changing other = state.changing other)
    (duty :
      name ∈ full.survivors dead →
      changing name = true ∨
        node.router.peers.Perm full.peers ∨
        (state.cluster.update name node).Serves full dead blocks name) :
    (Recovery.mk (state.cluster.update name node) changing).Sound blake3
      full dead blocks where
  carries := sound.carries.update carries
  held := by
    intro id isBlock owner isOwner
    exact
      (Cluster.resident_update same owner id).mpr
        (sound.held id isBlock owner isOwner)
  ring := by
    intro other survives
    by_cases isReplaced : other = name
    · subst isReplaced
      rw [Cluster.update_nodes_self]
      exact ring (sound.ring other survives)
    · rw [Cluster.update_nodes_of_ne _ isReplaced]
      exact sound.ring other survives
  duty := by
    intro other survives
    by_cases isReplaced : other = name
    · subst isReplaced
      rw [Cluster.update_nodes_self]
      exact duty survives
    · rw [Cluster.update_nodes_of_ne _ isReplaced]
      rcases sound.duty other survives with
        changes | untouched | serves
      · exact Or.inl ((others other isReplaced).trans changes)
      · exact Or.inr (Or.inl untouched)
      · exact Or.inr (Or.inr (serves.update_other isReplaced same))

/-- A server that keeps its name and ring has the ring it had. -/
theorem hasRing_of_keeps
    {name : NodeId}
    {before after : CacheNode}
    (keeps : before.Keeps after)
    (ring : before.HasRing blake3 full name) :
    after.HasRing blake3 full name where
  nodeId_eq := keeps.nodeId_eq.trans ring.nodeId_eq
  variant := by
    rw [keeps.router_eq]
    exact ring.variant

/-- The blocks that one server has to keep. -/
theorem heldAt
    (sound : state.Sound blake3 full dead blocks)
    (name : NodeId) :
    ∀ id ∈ blocks,
      name ∈ (full.route id).members →
      (state.cluster.nodes name).store.Resident id :=
  fun id isBlock isOwner => sound.held id isBlock name isOwner

/-- Every step keeps the invariant. -/
theorem step
    {event : RecoveryEvent}
    {next : Recovery}
    (sound : state.Sound blake3 full dead blocks)
    (step : Recovery.Step blake3 dead state event next) :
    next.Sound blake3 full dead blocks := by
  cases step with
  | setPeers name router idle built sameVnodes sameFactor =>
      refine
        sound.replace
          ⟨(sound.carries.nodes name).store,
            (sound.carries.nodes name).queue⟩
          (fun _ => Iff.rfl) ?_
          (fun _ different => Function.update_of_ne different ..)
          (fun _ => Or.inl (Function.update_self ..))
      intro ring
      exact
        ⟨ring.nodeId_eq, built,
          sameVnodes.trans ring.variant.vnodesPerPeer_eq,
          sameFactor.trans ring.variant.replicationFactor_eq⟩
  | trigger name lostPeers listing changing lost listed =>
      have keeps :=
        CacheNode.triggerReReplication_keeps (sound.carries.nodes name)
          lost listing
      refine
        sound.replace
          ((sound.carries.nodes name).triggerReReplication lostPeers
            listing)
          keeps.resident_iff (hasRing_of_keeps keeps)
          (fun _ different => Function.update_of_ne different ..) ?_
      intro survives
      exact
        Or.inr (Or.inr
          (Cluster.serves_of_trigger sound.carries
            (sound.ring name survives).nodeId_eq (sound.heldAt name) lost
            listed))
  | drain name =>
      have advances :=
        CacheNode.Advances.drainReReplication (sound.carries.nodes name)
      refine
        sound.replace (sound.carries.nodes name).drainReReplication
          advances.resident_iff (hasRing_of_keeps advances.toKeeps)
          (fun _ _ => rfl) ?_
      intro survives
      rcases sound.duty name survives with changes | untouched | serves
      · exact Or.inl changes
      · exact Or.inr (Or.inl (by rwa [advances.router_eq]))
      · exact
          Or.inr (Or.inr
            (serves.update_self (sound.ring name survives).nodeId_eq
              (sound.heldAt name) advances))
  | push pushed =>
      refine ⟨pushed.carries sound.carries, ?_, ?_, ?_⟩
      · intro id isBlock owner isOwner
        exact
          pushed.keeps_resident sound.carries
            (sound.held id isBlock owner isOwner)
      · intro name survives
        obtain ⟨_, _, _, sameNode⟩ := pushed.node_eq name
        have ring := sound.ring name survives
        rw [sameNode]
        exact ⟨ring.nodeId_eq, ring.variant⟩
      · intro name survives
        obtain ⟨_, _, _, sameNode⟩ := pushed.node_eq name
        rcases sound.duty name survives with changes | untouched | serves
        · exact Or.inl changes
        · exact Or.inr (Or.inl (by rwa [sameNode]))
        · exact Or.inr (Or.inr (serves.push sound.carries pushed))
  | lose task gone =>
      refine ⟨⟨sound.carries.nodes, ?_⟩, sound.held, sound.ring, ?_⟩
      · intro kept member
        exact sound.carries.wire kept (List.mem_of_mem_erase member)
      · intro name survives
        rcases sound.duty name survives with changes | untouched | serves
        · exact Or.inl changes
        · exact Or.inr (Or.inl untouched)
        · exact Or.inr (Or.inr (serves.lose gone))

end Sound

end Recovery

/-! ## Full replication -/

/-- Too few dead to fill a route leave a live owner. -/
theorem exists_live_owner
    {peers : List NodeId}
    (distinct : peers.Nodup)
    {dead : Finset NodeId}
    {count : Nat}
    (few : dead.card < count)
    {peer : NodeId}
    (member : peer ∈ peers)
    (alive : peer ∉ dead) :
    ∃ owner ∈ peers.take count, owner ∉ dead := by
  by_contra allDead
  push Not at allDead
  have subset : (peers.take count).toFinset ⊆ dead := by
    intro owner isOwner
    exact allDead owner (List.mem_toFinset.mp isOwner)
  have counted := Finset.card_le_card subset
  rw [List.toFinset_card_of_nodup
    (distinct.sublist (List.take_sublist _ _)), List.length_take] at counted
  have whole : peers.take count = peers :=
    List.take_of_length_le (by omega)
  exact alive (allDead peer (by rwa [whole]))

namespace Router

variable
  {blake3 : List UInt8 → Hash256}
  {full router : Router}
  {dead : Finset NodeId}

/-- Owners on a ring of the survivors are cut from the full sequence. -/
theorem Variant.members_eq
    (built : full.Built blake3)
    (distinct : DistinctHashes blake3 full.vnodesPerPeer full.peers)
    (variant : full.Variant blake3 router)
    (remaining : router.peers.Perm (full.survivors dead))
    (id : BlockId) :
    (router.route id).members =
      ((clockwisePeers full.circle (hashBlock id)).filter
        fun peer => decide (peer ∉ dead)).take full.want := by
  have sameWant : router.want = full.want := by
    rw [want, want, variant.replicationFactor_eq]
  rw [route_eq_filter built variant.built variant.vnodesPerPeer_eq distinct
    (fun peer => decide (peer ∉ dead)) remaining,
    RouteResult.members_ofPicked, sameWant]

/-- Some owner of the full ring lives and is an owner among the survivors. -/
theorem Variant.exists_holder
    (built : full.Built blake3)
    (distinct : DistinctHashes blake3 full.vnodesPerPeer full.peers)
    (few : dead.card < full.replicationFactor)
    (variant : full.Variant blake3 router)
    (remaining : router.peers.Perm (full.survivors dead))
    {id : BlockId}
    {owner : NodeId}
    (isOwner : owner ∈ (router.route id).members) :
    ∃ holder,
      holder ∈ full.survivors dead ∧
        holder ∈ (full.route id).members ∧
        holder ∈ (router.route id).members := by
  rw [variant.members_eq built distinct remaining] at isOwner ⊢
  rw [route_eq built, RouteResult.members_ofPicked]
  obtain ⟨met, alive⟩ :=
    List.mem_filter.mp (List.mem_of_mem_take isOwner)
  have fewForWant : dead.card < full.want :=
    Nat.lt_of_lt_of_le few (Nat.le_max_right _ _)
  obtain ⟨holder, isHolder, holderAlive⟩ :=
    exists_live_owner (nodup_clockwisePeers _ _) fewForWant met
      (of_decide_eq_true alive)
  have onRing : holder ∈ full.peers :=
    built.mem_peers (List.mem_of_mem_take isHolder)
  exact
    ⟨holder,
      List.mem_filter.mpr ⟨onRing, decide_eq_true holderAlive⟩, isHolder,
      mem_take_filter (fun peer => decide (peer ∉ dead)) isHolder
        (decide_eq_true holderAlive)⟩

/-- If nobody died, the owners are those of the full ring. -/
theorem Variant.members_of_all_alive
    (built : full.Built blake3)
    (distinct : DistinctHashes blake3 full.vnodesPerPeer full.peers)
    (variant : full.Variant blake3 router)
    (remaining : router.peers.Perm (full.survivors dead))
    (allAlive : full.peers.Perm (full.survivors dead))
    (id : BlockId) :
    (router.route id).members = (full.route id).members := by
  rw [variant.members_eq built distinct remaining, route_eq built,
    RouteResult.members_ofPicked]
  congr 1
  refine List.filter_eq_self.mpr ?_
  intro peer met
  have onRing := built.mem_peers met
  exact (List.mem_filter.mp (allAlive.mem_iff.mp onRing)).2

end Router

/-- A survivor of a finished recovery has nothing left to do. -/
structure CacheNode.Settled
    (full : Router)
    (dead : Finset NodeId)
    (node : CacheNode) : Prop where
  peers_perm : node.router.peers.Perm (full.survivors dead)
  inactive : node.rerepActive = false
  queue_eq : node.queue = []

/-- Nothing is owed by a server with nothing left to do. -/
theorem CacheNode.Settled.not_owes
    {full : Router}
    {dead : Finset NodeId}
    {cluster : Cluster}
    {name : NodeId}
    (settled : (cluster.nodes name).Settled full dead)
    (noPush : cluster.wire = [])
    (id : BlockId)
    (target : NodeId) :
    ¬ cluster.Owes name id target := by
  rintro (stillOut | ⟨task, queued, _⟩)
  · simp [outstanding, settled.inactive] at stillOut
  · simp [Cluster.Queued, settled.queue_eq, noPush] at queued

/--
The blocks are on all owners of the full ring, and fewer servers die than a
block has copies.  The survivors install the ring without the dead in any
number of changes; when no change, round or push is left, the blocks are on
all owners of the new ring.
-/
theorem recovery_restores_replication
    (blake3 : List UInt8 → Hash256)
    {full : Router}
    (built : full.Built blake3)
    (distinct : DistinctHashes blake3 full.vnodesPerPeer full.peers)
    (dead : Finset NodeId)
    (few : dead.card < full.replicationFactor)
    (blocks : Set BlockId)
    {initial final : Recovery}
    (rings :
      ∀ name ∈ full.survivors dead,
        (initial.cluster.nodes name).HasRing blake3 full name ∧
          (initial.cluster.nodes name).router.peers.Perm full.peers)
    (nonempty :
      initial.cluster.Carries fun id data => id ∈ blocks → data ≠ [])
    (replicated :
      ∀ id ∈ blocks,
        ∀ owner ∈ (full.route id).members,
          (initial.cluster.nodes owner).store.Resident id)
    {events : List RecoveryEvent}
    (run : LabelledRun (Recovery.Step blake3 dead) initial events final)
    (settled :
      ∀ name ∈ full.survivors dead,
        final.changing name = false ∧
          (final.cluster.nodes name).Settled full dead)
    (noPush : final.cluster.wire = [])
    {recovered : Router}
    (variant : full.Variant blake3 recovered)
    (remaining : recovered.peers.Perm (full.survivors dead)) :
    ∀ id ∈ blocks,
      ∀ owner ∈ (recovered.route id).members,
        (final.cluster.nodes owner).store.Resident id := by
  have initially : initial.Sound blake3 full dead blocks :=
    ⟨nonempty, replicated, fun name survives => (rings name survives).1,
      fun name survives => Or.inr (Or.inl (rings name survives).2)⟩
  have sound :=
    run.invariant _ (fun holds step => holds.step step) initially
  intro id isBlock owner isOwner
  obtain ⟨holder, survives, held, isHolder⟩ :=
    variant.exists_holder built distinct few remaining isOwner
  obtain ⟨notChanging, holderSettled⟩ := settled holder survives
  have sameMembers :
      ((final.cluster.nodes holder).router.route id).members =
        (recovered.route id).members := by
    rw [variant.members_eq built distinct remaining,
      (sound.ring holder survives).variant.members_eq built distinct
        holderSettled.peers_perm]
  rcases sound.duty holder survives with changes | untouched | serves
  · rw [notChanging] at changes
    simp at changes
  · refine sound.held id isBlock owner ?_
    have allAlive := untouched.symm.trans holderSettled.peers_perm
    rwa [← variant.members_of_all_alive built distinct remaining
      allAlive]
  · by_cases same : owner = holder
    · rw [same]
      exact sound.held id isBlock holder held
    · have ownerAlive : owner ∉ dead := by
        rw [variant.members_eq built distinct remaining] at isOwner
        exact
          of_decide_eq_true
            (List.mem_filter.mp (List.mem_of_mem_take isOwner)).2
      rw [← sameMembers] at isOwner isHolder
      rcases serves id isBlock held isHolder owner isOwner same
          ownerAlive with resident | owes
      · exact resident
      · exact absurd owes (holderSettled.not_owes noPush id owner)

/-! ## One of three servers dies -/

/-- The block is on both of its owners, and no server changes its ring. -/
def sampleReplicated : Recovery where
  cluster := (sampleSent nodeA).delivered samplePush
  changing := fun _ => false

/-- A server drops the second node from its ring. -/
def sampleChange
    (state : Recovery)
    (name : NodeId) :
    Recovery :=
  let changed :=
    state.cluster.update name
      { state.cluster.nodes name with
        router := sampleRouter name [nodeA, nodeC] }
  ⟨changed.update name
      ((changed.nodes name).triggerReReplication [nodeB]
        (changed.nodes name).store.snapshot),
    Function.update (Function.update state.changing name true) name false⟩

/-- The push that the first node's round causes. -/
def sampleRepush : ReplicateTask :=
  ⟨nodeC, { id := sampleBlock, data := [7], tier := .ssd }⟩

/-- Both survivors drop the second node and start their rounds. -/
def sampleRounds : Recovery :=
  sampleChange (sampleChange sampleReplicated nodeA) nodeC

/-- The first node's push is sent. -/
def sampleResent : Cluster :=
  let cluster := sampleRounds.cluster
  { (cluster.update nodeA (cluster.nodes nodeA).popQueue) with
    wire := sampleRepush :: cluster.wire }

/-- The third node has the push. -/
def sampleRecovered : Recovery :=
  ⟨sampleResent.delivered sampleRepush, sampleRounds.changing⟩

/-- Installing the ring and starting the round are two steps. -/
theorem sampleChange_run
    {state final : Recovery}
    {name : NodeId}
    {events : List RecoveryEvent}
    (idle : state.changing name = false)
    (twoVnodes :
      (state.cluster.nodes name).router.vnodesPerPeer = 2)
    (twoCopies :
      (state.cluster.nodes name).router.replicationFactor = 2)
    (rest :
      LabelledRun (Recovery.Step sampleBlake3 {nodeB})
        (sampleChange state name) events final) :
    ∃ all,
      LabelledRun (Recovery.Step sampleBlake3 {nodeB}) state all final :=
  ⟨_,
    .cons
      (.setPeers state name (sampleRouter name [nodeA, nodeC]) idle
        (sampleRouter_built _ _) twoVnodes.symm twoCopies.symm) <|
    .cons
      (.trigger _ name [nodeB] _ (Function.update_self ..) (by simp)
        (fun _ => List.Perm.refl _)) <|
    rest⟩

/-- The recovery of the sample cluster. -/
theorem sampleRecovered_run :
    ∃ events,
      LabelledRun (Recovery.Step sampleBlake3 {nodeB}) sampleReplicated
        events sampleRecovered := by
  have pushed :
      LabelledRun (Recovery.Step sampleBlake3 {nodeB}) sampleRounds
        [.push (.send nodeA), .push (.deliver sampleRepush)]
        sampleRecovered :=
    .cons (.push _ (.send _ nodeA sampleRepush (by decide +kernel))) <|
    .cons
      (.push _
        (.deliver sampleResent sampleRepush List.mem_cons_self
          (by decide +kernel))) <|
    .nil _
  obtain ⟨events, later⟩ :=
    sampleChange_run (by decide +kernel) (by decide +kernel)
      (by decide +kernel) pushed
  exact
    sampleChange_run (by decide +kernel) (by decide +kernel)
      (by decide +kernel) later

/-- The surviving owner and the new one hold the block in the end. -/
theorem recovery_restores_replication_sample :
    ((sampleRouter nodeA [nodeA, nodeC]).route sampleBlock).members =
        [nodeA, nodeC] ∧
      ∀ owner ∈ ((sampleRouter nodeA [nodeA, nodeC]).route
          sampleBlock).members,
        (sampleRecovered.cluster.nodes owner).store.Resident
          sampleBlock := by
  obtain ⟨events, run⟩ := sampleRecovered_run
  have survivors :
      (sampleRouter nodeA [nodeA, nodeB, nodeC]).survivors {nodeB} =
        [nodeA, nodeC] := by
    decide +kernel
  have shares :
      sampleReplicated.cluster.Shares
        (sampleRouter nodeA [nodeA, nodeB, nodeC]) := by
    refine
      (samplePush_run (Or.inl rfl)).invariant _
        (fun shares step => shares.push step) ?_
    exact Cluster.Shares.inserted ⟨fun _ => rfl, fun _ => rfl⟩
  have carries :
      sampleReplicated.cluster.Carries fun id data =>
        id ∈ ({sampleBlock} : Set BlockId) → data ≠ [] := by
    refine
      (samplePush_run (Or.inl rfl)).invariant _
        (fun carries step => step.carries carries) ?_
    exact
      ((sampleCluster_fresh _).carries _).inserted
        (by simp [sampleInsert])
  have replicated :
      ∀ owner ∈ ((sampleRouter nodeA [nodeA, nodeB, nodeC]).route
          sampleBlock).members,
        (sampleReplicated.cluster.nodes owner).store.Resident
          sampleBlock := by
    decide +kernel
  have settled :
      ∀ name ∈ [nodeA, nodeC],
        sampleRecovered.changing name = false ∧
          (sampleRecovered.cluster.nodes name).router.peers.Perm
              [nodeA, nodeC] ∧
          (sampleRecovered.cluster.nodes name).rerepActive = false ∧
          (sampleRecovered.cluster.nodes name).queue = [] := by
    decide +kernel
  refine ⟨by decide +kernel, ?_⟩
  refine
    recovery_restores_replication sampleBlake3
      (sampleRouter_built nodeA [nodeA, nodeB, nodeC])
      (by decide +kernel) {nodeB} (by decide) {sampleBlock} ?_ carries ?_
      run ?_ (by decide +kernel)
      ⟨sampleRouter_built nodeA [nodeA, nodeC], rfl, rfl⟩
      (by decide +kernel) sampleBlock rfl
  · intro name _
    rw [shares.router_eq name]
    exact
      ⟨⟨shares.nodeId_eq name, by
        rw [shares.router_eq name]
        exact ⟨sampleRouter_built name [nodeA, nodeB, nodeC], rfl, rfl⟩⟩,
        List.Perm.refl _⟩
  · intro id isBlock
    rw [Set.mem_singleton_iff.mp isBlock]
    exact replicated
  · intro name survives
    rw [survivors] at survives
    obtain ⟨idle, peers, inactive, queue⟩ := settled name survives
    exact ⟨idle, by rwa [survivors], inactive, queue⟩

end Lethe
