import Lethe.Delivery

namespace Lethe

/-!
# Which owners an insert reaches

A server that takes a new block pushes it to the replicas of its route, and so
does every receiver.  No push ever goes to the primary.  When all pushes have
been delivered, all owners hold the block exactly if the primary itself took
it from the client.
-/

namespace Cluster

/-- All servers use one ring, each under its own name. -/
structure Shares
    (router : Router)
    (cluster : Cluster) : Prop where
  nodeId_eq : ∀ name, (cluster.nodes name).nodeId = name
  router_eq :
    ∀ name,
      (cluster.nodes name).router = { router with localNodeId := name }

/-- Every server pushes to the replicas of the shared ring. -/
theorem Shares.replicaTargets_eq
    {router : Router}
    {cluster : Cluster}
    (shares : cluster.Shares router)
    (name : NodeId)
    (id : BlockId) :
    (cluster.nodes name).replicaTargets id =
      (router.route id).replicas.filter fun peer => peer ≠ name := by
  rw [CacheNode.replicaTargets, shares.router_eq, shares.nodeId_eq]
  rfl

/-- Pushes do not change the ring. -/
theorem Shares.push
    {router : Router}
    {before after : Cluster}
    {event : PushEvent}
    (shares : before.Shares router)
    (step : Push before event after) :
    after.Shares router := by
  constructor
  · intro name
    obtain ⟨_, _, _, sameNode⟩ := step.node_eq name
    rw [sameNode, shares.nodeId_eq]
  · intro name
    obtain ⟨_, _, _, sameNode⟩ := step.node_eq name
    rw [sameNode, shares.router_eq]

/-- Each replica holds the block or will be sent it. -/
structure Spreading
    (router : Router)
    (id : BlockId)
    (entry : NodeId)
    (cluster : Cluster) : Prop where
  atEntry : (cluster.nodes entry).store.Resident id
  atReplicas :
    ∀ replica ∈ (router.route id).replicas,
      replica ≠ entry →
      (cluster.nodes replica).store.Resident id ∨
        ∃ task,
          cluster.Queued entry task ∧
            task.peerId = replica ∧ task.block.id = id

/-- The primary does not hold the block and no push of it heads there. -/
structure Avoiding
    (router : Router)
    (id : BlockId)
    (cluster : Cluster) : Prop where
  absent :
    ∀ primary,
      (router.route id).primary = some primary →
      ¬ (cluster.nodes primary).store.Resident id
  targets :
    ∀ name task,
      cluster.Queued name task →
      task.block.id = id →
      task.peerId ∈ (router.route id).replicas

section Steps

variable
  {holds : BlockId → List UInt8 → Prop}
  {router : Router}
  {id : BlockId}
  {entry : NodeId}
  {before after : Cluster}
  {event : PushEvent}

/-- A delivered push makes its replica hold the block. -/
theorem Spreading.push
    (carried : before.Carries holds)
    (spreading : before.Spreading router id entry)
    (step : Push before event after) :
    after.Spreading router id entry where
  atEntry := step.keeps_resident carried spreading.atEntry
  atReplicas := by
    intro replica member different
    rcases spreading.atReplicas replica member different with
      resident | ⟨task, queued, isReplica, isBlock⟩
    · exact Or.inl (step.keeps_resident carried resident)
    · rcases step.keeps_task queued with stillQueued | isDelivery
      · exact Or.inr ⟨task, stillQueued, isReplica, isBlock⟩
      · refine Or.inl ((step.resident_iff carried replica id).mpr ?_)
        exact Or.inr ⟨task, isDelivery, isReplica, isBlock⟩

/-- Receivers push to replicas only. -/
theorem Avoiding.push
    (carried : before.Carries holds)
    (shares : before.Shares router)
    (distinct : (router.route id).members.Nodup)
    (avoiding : before.Avoiding router id)
    (step : Push before event after) :
    after.Avoiding router id where
  absent := by
    intro primary isPrimary resident
    rcases (step.resident_iff carried primary id).mp resident with
      earlier | ⟨task, isDelivery, isTarget, isBlock⟩
    · exact avoiding.absent primary isPrimary earlier
    · subst isDelivery
      cases step with
      | deliver task onWire room =>
          have isReplica :=
            avoiding.targets primary task (Or.inr onWire) isBlock
          rw [isTarget] at isReplica
          rw [RouteResult.members, isPrimary] at distinct
          exact (List.nodup_cons.mp distinct).1 isReplica
  targets := by
    intro name task queued isBlock
    rcases step.origin_of_task queued with
      ⟨sender, earlier⟩ | ⟨received, onWire, sameBlock, isTarget⟩
    · exact avoiding.targets sender task earlier isBlock
    · rw [shares.replicaTargets_eq, isBlock] at isTarget
      exact (List.mem_filter.mp isTarget).1

/-- Whole runs spread the block. -/
theorem Spreading.run
    {events : List PushEvent}
    (carried : before.Carries holds)
    (spreading : before.Spreading router id entry)
    (run : LabelledRun Push before events after) :
    after.Spreading router id entry := by
  refine
    (run.invariant
      (fun cluster =>
        cluster.Carries holds ∧ cluster.Spreading router id entry)
      ?_ ⟨carried, spreading⟩).2
  rintro _ _ _ ⟨carriedHere, spreadingHere⟩ step
  exact ⟨step.carries carriedHere, spreadingHere.push carriedHere step⟩

/-- Whole runs avoid the primary. -/
theorem Avoiding.run
    {events : List PushEvent}
    (carried : before.Carries holds)
    (shares : before.Shares router)
    (distinct : (router.route id).members.Nodup)
    (avoiding : before.Avoiding router id)
    (run : LabelledRun Push before events after) :
    after.Avoiding router id := by
  refine
    (run.invariant
      (fun cluster =>
        cluster.Carries holds ∧
          cluster.Shares router ∧ cluster.Avoiding router id)
      ?_ ⟨carried, shares, avoiding⟩).2.2
  rintro _ _ _ ⟨carriedHere, sharesHere, avoidingHere⟩ step
  exact
    ⟨step.carries carriedHere, sharesHere.push step,
      avoidingHere.push carriedHere sharesHere distinct step⟩

end Steps

/-- The cluster after a client's insert of one block. -/
def inserted
    (cluster : Cluster)
    (entry : NodeId)
    (block : KvBlock) :
    Cluster :=
  cluster.update entry ((cluster.nodes entry).insert [block]).2

section Insert

variable
  {router : Router}
  {before : Cluster}
  {entry : NodeId}
  {block : KvBlock}

/-- Inserting a block with a property keeps it true of all bytes. -/
theorem Carries.inserted
    {holds : BlockId → List UInt8 → Prop}
    (carried : before.Carries holds)
    (good : holds block.id block.data) :
    (before.inserted entry block).Carries holds := by
  refine carried.update ((carried.nodes entry).insert ?_)
  intro new member
  rw [List.mem_singleton.mp member]
  exact good

/-- Inserting does not change the ring. -/
theorem Shares.inserted
    (shares : before.Shares router) :
    (before.inserted entry block).Shares router := by
  obtain ⟨pushed, effect⟩ :=
    CacheNode.insert_inserted (before.nodes entry) block
  obtain ⟨drops, result⟩ := effect.after_eq
  constructor
  · intro name
    by_cases same : name = entry
    · subst same
      simp [Cluster.inserted, result, shares.nodeId_eq]
    · simp [Cluster.inserted, same, shares.nodeId_eq]
  · intro name
    by_cases same : name = entry
    · subst same
      simp [Cluster.inserted, result, shares.router_eq]
    · simp [Cluster.inserted, same, shares.router_eq]

/-- An accepted block is stored and queued for every replica. -/
theorem Spreading.inserted
    (carried : before.Carries fun _ _ => True)
    (shares : before.Shares router)
    (accepted : ((before.nodes entry).insert [block]).1 = 1)
    (noDrop :
      ((before.nodes entry).insert [block]).2.overflowDrops =
        (before.nodes entry).overflowDrops) :
    (before.inserted entry block).Spreading router block.id entry := by
  obtain ⟨landed, result⟩ := CacheNode.insert_accepted accepted noDrop
  constructor
  · simp only [Cluster.inserted, update_nodes_self, result]
    rw [TieredStore.resident_put
      (carried.nodes entry).store.consistent.ssdSound]
    exact Or.inr ⟨rfl, landed⟩
  · intro replica member different
    refine Or.inr ⟨⟨replica, block⟩, Or.inl ?_, rfl, rfl⟩
    simp only [Cluster.inserted, update_nodes_self, result,
      List.mem_append]
    refine Or.inr (List.mem_map.mpr ⟨replica, ?_, rfl⟩)
    rw [shares.replicaTargets_eq]
    exact List.mem_filter.mpr ⟨member, by simpa using different⟩

/-- A server other than the primary queues no push to the primary. -/
theorem Avoiding.inserted
    (shares : before.Shares router)
    (absent : ∀ name, ¬ (before.nodes name).store.Resident block.id)
    (unsent :
      ∀ name task, before.Queued name task → task.block.id ≠ block.id)
    (notPrimary : (router.route block.id).primary ≠ some entry) :
    (before.inserted entry block).Avoiding router block.id := by
  obtain ⟨pushed, effect⟩ :=
    CacheNode.insert_inserted (before.nodes entry) block
  obtain ⟨drops, result⟩ := effect.after_eq
  constructor
  · intro primary isPrimary resident
    have different : primary ≠ entry := by
      intro same
      exact notPrimary (by rw [isPrimary, same])
    rw [Cluster.inserted, update_nodes_of_ne _ different] at resident
    exact absent primary resident
  · intro name task queued isBlock
    rcases queued with waiting | onWire
    · by_cases same : name = entry
      · subst same
        simp only [Cluster.inserted, update_nodes_self, result,
          List.mem_append] at waiting
        rcases waiting with earlier | new
        · exact absurd isBlock (unsent name task (Or.inl earlier))
        · obtain ⟨peer, isTarget, isTask⟩ :=
            List.mem_map.mp (effect.pushed_sublist.subset new)
          subst isTask
          rw [shares.replicaTargets_eq] at isTarget
          exact (List.mem_filter.mp isTarget).1
      · rw [Cluster.inserted, update_nodes_of_ne _ same] at waiting
        exact absurd isBlock (unsent name task (Or.inl waiting))
    · exact absurd isBlock (unsent name task (Or.inr onWire))

end Insert

end Cluster

/--
A new block is accepted by a server of a shared ring and its pushes, none of
which was dropped for lack of queue space, are delivered in any order, along
with the pushes that they cause and with pushes of other blocks.  Then all its
owners hold it exactly if the server is its primary.
-/
theorem insert_reaches_owners_iff_at_primary
    (blake3 : List UInt8 → Hash256)
    {router : Router}
    (built : router.Built blake3)
    (someVnodes : 0 < router.vnodesPerPeer)
    {entry : NodeId}
    (onRing : entry ∈ router.peers)
    {before final : Cluster}
    (shares : before.Shares router)
    (consistent : ∀ name, (before.nodes name).store.SsdConsistent)
    {block : KvBlock}
    (absent : ∀ name, ¬ (before.nodes name).store.Resident block.id)
    (unsent :
      ∀ name task, before.Queued name task → task.block.id ≠ block.id)
    (accepted : ((before.nodes entry).insert [block]).1 = 1)
    (noDrop :
      ((before.nodes entry).insert [block]).2.overflowDrops =
        (before.nodes entry).overflowDrops)
    {events : List Cluster.PushEvent}
    (run :
      LabelledRun Cluster.Push (before.inserted entry block) events final)
    (allDelivered :
      ∀ name task, final.Queued name task → task.block.id ≠ block.id) :
    (∀ owner ∈ (router.route block.id).members,
        (final.nodes owner).store.Resident block.id) ↔
      (router.route block.id).primary = some entry := by
  have carried := Cluster.carries_of_consistent consistent
  have distinct := router.route_members_nodup block.id
  constructor
  · intro everywhere
    by_contra notPrimary
    obtain ⟨primary, isPrimary⟩ :=
      built.exists_primary someVnodes onRing block.id
    have avoiding :=
      (Cluster.Avoiding.inserted shares absent unsent notPrimary).run
        (carried.inserted trivial) shares.inserted distinct run
    refine avoiding.absent primary isPrimary (everywhere primary ?_)
    simp [RouteResult.members, isPrimary]
  · intro isPrimary
    have spreading :=
      (Cluster.Spreading.inserted carried shares accepted noDrop).run
        (carried.inserted trivial) run
    intro owner member
    rw [RouteResult.members, isPrimary] at member distinct
    rcases List.mem_cons.mp member with isEntry | isReplica
    · rw [isEntry]
      exact spreading.atEntry
    · have different : owner ≠ entry := by
        intro same
        subst same
        exact (List.nodup_cons.mp distinct).1 isReplica
      rcases spreading.atReplicas owner isReplica different with
        resident | ⟨task, queued, _, isBlock⟩
      · exact resident
      · exact absurd isBlock (allDelivered entry task queued)

/-! ## Inserting at the primary and elsewhere -/

/-- The only push that an insert of the sample block causes. -/
def samplePush : ReplicateTask :=
  ⟨nodeB, sampleInsert⟩

/-- The three servers after an insert and the send of its push. -/
def sampleSent
    (entry : NodeId) :
    Cluster :=
  let inserted :=
    (sampleCluster [nodeA, nodeB, nodeC]).inserted entry sampleInsert
  { (inserted.update entry (inserted.nodes entry).popQueue) with
    wire := samplePush :: inserted.wire }

/-- The push is sent and delivered. -/
theorem samplePush_run
    {entry : NodeId}
    (isEntry : entry = nodeA ∨ entry = nodeC) :
    LabelledRun Cluster.Push
      ((sampleCluster [nodeA, nodeB, nodeC]).inserted entry sampleInsert)
      [.send entry, .deliver samplePush]
      ((sampleSent entry).delivered samplePush) := by
  rcases isEntry with isEntry | isEntry
  · subst isEntry
    exact
      .cons (.send _ nodeA samplePush (by decide +kernel)) <|
      .cons
        (.deliver _ samplePush List.mem_cons_self (by decide +kernel)) <|
      .nil _
  · subst isEntry
    exact
      .cons (.send _ nodeC samplePush (by decide +kernel)) <|
      .cons
        (.deliver _ samplePush List.mem_cons_self (by decide +kernel)) <|
      .nil _

/-- Afterwards no server has a push left. -/
theorem samplePush_last
    {entry : NodeId}
    (isEntry : entry = nodeA ∨ entry = nodeC)
    (name : NodeId)
    (task : ReplicateTask) :
    ¬ ((sampleSent entry).delivered samplePush).Queued name task := by
  have atReceiver :
      (((sampleSent entry).delivered samplePush).nodes nodeB).queue =
        [] := by
    rcases isEntry with isEntry | isEntry <;>
      · subst isEntry
        decide +kernel
  have atEntry :
      (((sampleSent entry).delivered samplePush).nodes entry).queue =
        [] := by
    rcases isEntry with isEntry | isEntry <;>
      · subst isEntry
        decide +kernel
  rintro (waiting | onWire)
  · by_cases isReceiver : name = nodeB
    · rw [isReceiver, atReceiver] at waiting
      simp at waiting
    · by_cases isSender : name = entry
      · rw [isSender, atEntry] at waiting
        simp at waiting
      · simp [Cluster.delivered, sampleSent, Cluster.inserted, samplePush,
          isReceiver, isSender, sampleCluster, sampleNode] at waiting
  · simp [Cluster.delivered, sampleSent, Cluster.inserted, Cluster.update,
      sampleCluster] at onWire

/--
The third node accepts the block and pushes it to the replica; everything is
delivered and the primary never gets it.
-/
theorem insert_elsewhere_misses_primary :
    ((sampleCluster [nodeA, nodeB, nodeC]).nodes nodeC).router.route
          sampleBlock =
        ⟨some nodeA, [nodeB]⟩ ∧
      (((sampleCluster [nodeA, nodeB, nodeC]).nodes nodeC).insert
        [sampleInsert]).1 = 1 ∧
      ∃ events final,
        LabelledRun Cluster.Push
            ((sampleCluster [nodeA, nodeB, nodeC]).inserted nodeC
              sampleInsert)
            events final ∧
          (∀ name task, ¬ final.Queued name task) ∧
          ¬ (final.nodes nodeA).store.Resident sampleBlock :=
  ⟨by decide +kernel, by decide +kernel, _, _,
    samplePush_run (Or.inr rfl), samplePush_last (Or.inr rfl),
    by decide +kernel⟩

theorem insert_reaches_owners_iff_at_primary_sample :
    (∀ owner ∈ ((sampleRouter nodeA [nodeA, nodeB, nodeC]).route
          sampleInsert.id).members,
        (((sampleSent nodeA).delivered samplePush).nodes
          owner).store.Resident sampleInsert.id) ↔
      ((sampleRouter nodeA [nodeA, nodeB, nodeC]).route
        sampleInsert.id).primary = some nodeA := by
  have fresh :=
    (sampleCluster_fresh [nodeA, nodeB, nodeC]).carries fun _ _ => False
  have shares :
      (sampleCluster [nodeA, nodeB, nodeC]).Shares
        (sampleRouter nodeA [nodeA, nodeB, nodeC]) :=
    ⟨fun _ => rfl, fun _ => rfl⟩
  have absent :
      ∀ name,
        ¬ ((sampleCluster [nodeA, nodeB, nodeC]).nodes
          name).store.Resident sampleInsert.id := by
    rintro name ⟨tier, resident⟩
    obtain ⟨data, held⟩ := Option.isSome_iff_exists.mp resident
    exact (fresh.nodes name).store.every held
  have unsent :
      ∀ name task,
        (sampleCluster [nodeA, nodeB, nodeC]).Queued name task →
        task.block.id ≠ sampleInsert.id := by
    intro name task queued
    simp [Cluster.Queued, sampleCluster, sampleNode] at queued
  exact
    insert_reaches_owners_iff_at_primary sampleBlake3
      (sampleRouter_built nodeA [nodeA, nodeB, nodeC]) (by decide)
      (by decide) shares (fun name => (fresh.nodes name).store.consistent)
      absent unsent (by decide +kernel) (by decide +kernel)
      (samplePush_run (Or.inl rfl))
      (fun name task queued =>
        absurd queued (samplePush_last (Or.inl rfl) name task))

end Lethe
