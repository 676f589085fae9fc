import Lethe.InsertCounts

namespace Lethe

/-!
# The replication cascade ends

A server that receives a push inserts the block like a client's and may push it
on, to servers of its own view of the ring.  An insert pushes a block only if a
tier that lacked it took it.  Without evictions, reads and erasures tiers only
gain blocks, so the tiers of all servers that still lack a block pay for every
push that is ever attempted.
-/

namespace Router

/-- A route names at most as many replicas as the factor allows. -/
theorem length_replicas_le
    (router : Router)
    (id : BlockId) :
    (router.route id).replicas.length ≤ router.replicationFactor - 1 := by
  unfold route
  split
  · simp
  · have bounded :
        (router.picked (hashBlock id)).length ≤ router.want := by
      unfold picked
      rw [ClockwiseRing.pick_eq]
      simp
    unfold want at bounded
    cases shape : router.picked (hashBlock id) with
    | nil =>
        simp [RouteResult.ofPicked]
    | cons primary replicas =>
        rw [shape, List.length_cons] at bounded
        simp only [RouteResult.ofPicked]
        omega

end Router

namespace TieredStore

/-- Number of tiers that lack a block. -/
def missingTiers
    (store : TieredStore)
    (id : BlockId) :
    Nat :=
  allTiers.countP fun tier => (store.copy tier id).isNone

theorem missingTiers_le
    (store : TieredStore)
    (id : BlockId) :
    store.missingTiers id ≤ 3 :=
  List.countP_le_length

/-- An insertion leaves every copy. -/
theorem isNone_of_put
    {store : TieredStore}
    (consistent : store.SsdConsistent)
    (block : KvBlock)
    (hint : Tier)
    {tier : Tier}
    {id : BlockId}
    (absent : ((store.put block hint).2.copy tier id).isNone = true) :
    (store.copy tier id).isNone = true := by
  rcases store.put_cases block hint with
    unplaced | ⟨taking, accepted, placed⟩
  · rwa [unplaced] at absent
  · rw [placed, copy_putToTier_of_accepted consistent accepted] at absent
    split at absent
    · simp at absent
    · exact absent

/-- An insertion does not take a block from a tier. -/
theorem missingTiers_put_le
    {store : TieredStore}
    (consistent : store.SsdConsistent)
    (block : KvBlock)
    (hint : Tier)
    (id : BlockId) :
    (store.put block hint).2.missingTiers id ≤ store.missingTiers id :=
  List.countP_mono_left fun _ _ absent =>
    isNone_of_put consistent block hint absent

/-- A tier that takes a block no longer lacks it. -/
theorem missingTiers_putToTier_lt
    {store : TieredStore}
    (consistent : store.SsdConsistent)
    {block : KvBlock}
    {tier : Tier}
    (accepted : (store.putToTier block tier).1 = true)
    (absent : store.copy tier block.id = none) :
    (store.putToTier block tier).2.missingTiers block.id <
      store.missingTiers block.id := by
  have copies (query : Tier) :=
    copy_putToTier_of_accepted consistent accepted query block.id
  simp only [missingTiers, allTiers, List.countP_cons, List.countP_nil,
    copies]
  cases tier <;> simp [absent]

end TieredStore

open TieredStore

namespace CacheNode

/-- Tiers of a server that lack some of the blocks. -/
def missing
    (node : CacheNode)
    (ids : Finset BlockId) :
    Nat :=
  ∑ id ∈ ids, node.store.missingTiers id

theorem missing_le
    (node : CacheNode)
    (ids : Finset BlockId) :
    node.missing ids ≤ 3 * ids.card := by
  unfold missing
  refine
    (Finset.sum_le_card_nsmul _ _ 3 fun id _ =>
      node.store.missingTiers_le id).trans_eq ?_
  simp [Nat.mul_comm]

/-- A block that is counted was taken by a tier that lacked it. -/
theorem absent_of_counted
    {node : CacheNode}
    (consistent : node.store.SsdConsistent)
    {block : KvBlock}
    (counted : (node.insertOne block).1 = true) :
    ∃ tier,
      node.store.copy tier block.id = none ∧
        (node.store.putToTier block tier).1 = true ∧
        (node.store.put block block.tier).2 =
          (node.store.putToTier block tier).2 := by
  unfold insertOne at counted
  dsimp only at counted
  split at counted
  · next grew =>
      rw [put_eq_takingTier] at grew ⊢
      cases takes : node.store.takingTier block block.tier with
      | none =>
          simp [takes] at grew
      | some tier =>
          refine ⟨tier, ?_, accepted_of_takingTier takes, rfl⟩
          cases held : node.store.copy tier block.id with
          | none =>
              rfl
          | some data =>
              simp [takes, putToTier_of_present consistent.ssdSound held] at grew
  · simp at counted

/-- Each counted block is paid by a tier that no longer lacks it. -/
theorem missing_insertOne
    {node : CacheNode}
    (consistent : node.store.SsdConsistent)
    {block : KvBlock}
    {ids : Finset BlockId}
    (known : block.id ∈ ids) :
    (if (node.insertOne block).1 then 1 else 0) +
        (node.insertOne block).2.missing ids ≤
      node.missing ids := by
  unfold missing
  rw [store_insertOne]
  have kept (id : BlockId) (_ : id ∈ ids) :
      (node.store.put block block.tier).2.missingTiers id ≤
        node.store.missingTiers id :=
    missingTiers_put_le consistent block block.tier id
  split
  · next counted =>
      obtain ⟨tier, absent, accepted, placed⟩ :=
        absent_of_counted consistent counted
      have fewer :
          (node.store.put block block.tier).2.missingTiers block.id <
            node.store.missingTiers block.id := by
        rw [placed]
        exact missingTiers_putToTier_lt consistent accepted absent
      have lower := Finset.sum_lt_sum kept ⟨block.id, known, fewer⟩
      omega
  · have lower := Finset.sum_le_sum kept
    omega

/-- The blocks that an insert hands over are paid by tiers. -/
theorem missing_insert
    {node : CacheNode}
    (consistent : node.store.SsdConsistent)
    {blocks : List KvBlock}
    {ids : Finset BlockId}
    (known : ∀ block ∈ blocks, block.id ∈ ids) :
    (node.handedOut blocks).length + (node.insert blocks).2.missing ids ≤
      node.missing ids := by
  induction blocks generalizing node with
  | nil =>
      simp [handedOut, insert]
  | cons block rest inductionHypothesis =>
      have first := missing_insertOne consistent (known block (by simp))
      have consistentNext : (node.insertOne block).2.store.SsdConsistent := by
        rw [store_insertOne]
        exact consistent.put block block.tier
      have later :=
        inductionHypothesis consistentNext fun other member =>
          known other (List.mem_cons_of_mem _ member)
      simp only [handedOut, insert, List.length_append]
      split at first
      · next counted =>
          rw [if_pos counted, List.length_singleton]
          omega
      · next notCounted =>
          rw [if_neg notCounted, List.length_nil]
          omega

/-- Pushes that an insert attempts: all targets of the blocks it hands over. -/
def attempts
    (node : CacheNode)
    (blocks : List KvBlock) :
    Nat :=
  ((node.handedOut blocks).map fun block =>
    (node.replicaTargets block.id).length).sum

/-- Replicating a block keeps the server's name and ring. -/
theorem replicateOut_ring
    (node : CacheNode)
    (block : KvBlock) :
    (node.replicateOut block).nodeId = node.nodeId ∧
      (node.replicateOut block).router = node.router := by
  unfold replicateOut
  obtain ⟨_, _, _, _, queued⟩ :=
    foldl_enqueue (pushTasks (node.replicaTargets block.id) block) node
  rw [queued]
  exact ⟨rfl, rfl⟩

/-- Replicating blocks queues or drops one push for every target. -/
theorem foldl_replicateOut
    (node : CacheNode)
    (blocks : List KvBlock) :
    ∃ pushed drops,
      pushed.length + drops =
          (blocks.map fun block =>
            (node.replicaTargets block.id).length).sum ∧
        (∀ task ∈ pushed, ∃ block ∈ blocks, task.block.id = block.id) ∧
        blocks.foldl replicateOut node =
          { node with
            queue := node.queue ++ pushed
            overflowDrops := node.overflowDrops + drops } := by
  induction blocks generalizing node with
  | nil =>
      exact ⟨[], 0, rfl, by simp, by simp⟩
  | cons block rest inductionHypothesis =>
      obtain ⟨pushed, drops, fits, counted, queued⟩ :=
        foldl_enqueue (pushTasks (node.replicaTargets block.id) block) node
      obtain ⟨later, laterDrops, laterCounted, laterKnown, result⟩ :=
        inductionHypothesis (node.replicateOut block)
      have sameTargets (id : BlockId) :
          (node.replicateOut block).replicaTargets id =
            node.replicaTargets id := by
        obtain ⟨sameName, sameRing⟩ := node.replicateOut_ring block
        simp only [replicaTargets, sameName, sameRing]
      refine ⟨pushed ++ later, drops + laterDrops, ?_, ?_, ?_⟩
      · simp only [sameTargets] at laterCounted
        simp only [pushTasks, List.length_map] at counted
        simp only [List.length_append, List.map_cons, List.sum_cons]
        omega
      · intro task member
        rcases List.mem_append.mp member with first | inLater
        · obtain ⟨peer, _, isTask⟩ := List.mem_map.mp (fits.subset first)
          subst isTask
          exact ⟨block, by simp, rfl⟩
        · obtain ⟨other, inRest, same⟩ := laterKnown task inLater
          exact ⟨other, List.mem_cons_of_mem _ inRest, same⟩
      · rw [List.foldl_cons, result]
        unfold replicateOut
        rw [queued]
        simp [Nat.add_assoc]

/-- What an insert does to its server apart from the store. -/
theorem insert_pushes
    (node : CacheNode)
    (blocks : List KvBlock) :
    ∃ pushed drops,
      pushed.length + drops = node.attempts blocks ∧
        (∀ task ∈ pushed, ∃ block ∈ blocks, task.block.id = block.id) ∧
        (node.insert blocks).2 =
          { node with
            store := node.store.putAll blocks
            queue := node.queue ++ pushed
            overflowDrops := node.overflowDrops + drops } := by
  obtain ⟨pushed, drops, counted, known, result⟩ :=
    foldl_replicateOut
      ({ node with store := node.store.putAll blocks } : CacheNode)
      (node.handedOut blocks)
  refine ⟨pushed, drops, counted, ?_, ?_⟩
  · intro task member
    obtain ⟨block, handed, same⟩ := known task member
    exact ⟨block, node.handedOut_subset blocks handed, same⟩
  · rw [insert_eq_handedOut, result]

/-- An insert attempts at most one push less than the factor per block. -/
theorem attempts_le
    (node : CacheNode)
    (blocks : List KvBlock) :
    node.attempts blocks ≤
      (node.handedOut blocks).length *
        (node.router.replicationFactor - 1) := by
  unfold attempts
  refine
    (List.sum_le_card_nsmul _ (node.router.replicationFactor - 1)
      ?_).trans_eq (by simp)
  intro count member
  obtain ⟨block, _, isCount⟩ := List.mem_map.mp member
  subst isCount
  exact (List.length_filter_le _ _).trans
    (node.router.length_replicas_le block.id)

/-- A server with a consistent file, a ring of the factor and known pushes. -/
structure Known
    (ids : Finset BlockId)
    (factor : Nat)
    (node : CacheNode) : Prop where
  consistent : node.store.SsdConsistent
  factor_eq : node.router.replicationFactor = factor
  queued : ∀ task ∈ node.queue, task.block.id ∈ ids

/-- Inserting known blocks. -/
theorem Known.insert
    {node : CacheNode}
    {ids : Finset BlockId}
    {factor : Nat}
    (known : node.Known ids factor)
    {blocks : List KvBlock}
    (inserted : ∀ block ∈ blocks, block.id ∈ ids) :
    (node.insert blocks).2.Known ids factor := by
  obtain ⟨pushed, drops, _, pushedKnown, after⟩ :=
    node.insert_pushes blocks
  rw [after]
  refine ⟨known.consistent.putAll blocks, known.factor_eq, ?_⟩
  intro task member
  rcases List.mem_append.mp member with before | isPushed
  · exact known.queued task before
  · obtain ⟨block, inBlocks, sameId⟩ := pushedKnown task isPushed
    rw [sameId]
    exact inserted block inBlocks

/-- Taking a push out of the queue. -/
theorem Known.popQueue
    {node : CacheNode}
    {ids : Finset BlockId}
    {factor : Nat}
    (known : node.Known ids factor) :
    node.popQueue.Known ids factor :=
  ⟨known.consistent, known.factor_eq,
    fun task member => known.queued task (List.mem_of_mem_tail member)⟩

end CacheNode

/-! ## Runs of a cluster -/

/-- A cluster and the number of pushes attempted so far. -/
structure Cascade where
  cluster : Cluster
  attempted : Nat

/-- What happens while clients insert and pushes travel. -/
inductive CascadeEvent where
  | insert (node : NodeId) (blocks : List KvBlock)
  | send (node : NodeId)
  | deliver (task : ReplicateTask)
  | lose (task : ReplicateTask)

/-- The event is a delivery. -/
def CascadeEvent.isDelivery : CascadeEvent → Bool
  | .deliver _ => true
  | _ => false

namespace Cascade

/-- A server inserts blocks. -/
def inserted
    (state : Cascade)
    (name : NodeId)
    (blocks : List KvBlock) :
    Cascade where
  cluster :=
    state.cluster.update name ((state.cluster.nodes name).insert blocks).2
  attempted :=
    state.attempted + (state.cluster.nodes name).attempts blocks

/-- Pushes on their way. -/
def withWire
    (state : Cascade)
    (wire : List ReplicateTask) :
    Cascade :=
  { state with cluster := { state.cluster with wire := wire } }

/--
Steps among the named servers: clients insert blocks of the given ids, workers
take pushes out of the queues, and a push on its way is delivered once, to a
full insert, or lost.
-/
inductive Step
    (names : Finset NodeId)
    (ids : Finset BlockId) :
    Cascade → CascadeEvent → Cascade → Prop where
  | insert
      (state : Cascade)
      (name : NodeId)
      (blocks : List KvBlock)
      (member : name ∈ names)
      (known : ∀ block ∈ blocks, block.id ∈ ids)
      (bytes : ∀ block ∈ blocks, block.data ≠ []) :
      Step names ids state (.insert name blocks)
        (state.inserted name blocks)
  | send
      (state : Cascade)
      (name : NodeId)
      (task : ReplicateTask)
      (member : name ∈ names)
      (oldest : (state.cluster.nodes name).queue.head? = some task) :
      Step names ids state (.send name)
        ({ state with
            cluster :=
              state.cluster.update name
                (state.cluster.nodes name).popQueue } |>.withWire
          (task :: state.cluster.wire))
  | deliver
      (state : Cascade)
      (task : ReplicateTask)
      (member : task.peerId ∈ names)
      (onWire : task ∈ state.cluster.wire) :
      Step names ids state (.deliver task)
        ((state.inserted task.peerId
            [CacheNode.receivedBlock task.block]).withWire
          (state.cluster.wire.erase task))
  | lose
      (state : Cascade)
      (task : ReplicateTask)
      (onWire : task ∈ state.cluster.wire) :
      Step names ids state (.lose task)
        (state.withWire (state.cluster.wire.erase task))

/-- Tiers of the named servers that lack some of the blocks. -/
def missing
    (names : Finset NodeId)
    (ids : Finset BlockId)
    (state : Cascade) :
    Nat :=
  ∑ name ∈ names, (state.cluster.nodes name).missing ids

/-- Pushes that are queued or on their way. -/
def outstanding
    (names : Finset NodeId)
    (state : Cascade) :
    Nat :=
  ∑ name ∈ names, (state.cluster.nodes name).queue.length +
    state.cluster.wire.length

/-- A sum over servers changes by what changes at one of them. -/
theorem sum_update
    {names : Finset NodeId}
    {name : NodeId}
    (member : name ∈ names)
    (cluster : Cluster)
    (node : CacheNode)
    (weight : CacheNode → Nat) :
    ∑ other ∈ names, weight ((cluster.update name node).nodes other) +
        weight (cluster.nodes name) =
      ∑ other ∈ names, weight (cluster.nodes other) + weight node := by
  have others :
      ∑ other ∈ names.erase name,
          weight ((cluster.update name node).nodes other) =
        ∑ other ∈ names.erase name, weight (cluster.nodes other) := by
    refine Finset.sum_congr rfl ?_
    intro other inOthers
    rw [Cluster.update_nodes_of_ne _ (Finset.ne_of_mem_erase inOthers)]
  rw [← Finset.add_sum_erase names _ member,
    ← Finset.add_sum_erase names (fun other => weight (cluster.nodes other))
      member, others, Cluster.update_nodes_self]
  omega

/--
The state of a cascade: known servers, known ids on their way, and a budget of
missing copies that pays for every attempt.
-/
structure Paid
    (names : Finset NodeId)
    (ids : Finset BlockId)
    (factor : Nat)
    (state : Cascade) : Prop where
  servers :
    ∀ name ∈ names, (state.cluster.nodes name).Known ids factor
  wired : ∀ task ∈ state.cluster.wire, task.block.id ∈ ids
  budget :
    state.attempted + state.missing names ids * (factor - 1) ≤
      3 * names.card * ids.card * (factor - 1)

section Steps

variable
  {names : Finset NodeId}
  {ids : Finset BlockId}
  {factor : Nat}
  {state : Cascade}

/-- A change of one server that pays for its attempts. -/
theorem Paid.update
    (paid : state.Paid names ids factor)
    {name : NodeId}
    (member : name ∈ names)
    {node : CacheNode}
    (known : node.Known ids factor)
    (attempts : Nat)
    (payment :
      attempts + node.missing ids * (factor - 1) ≤
        (state.cluster.nodes name).missing ids * (factor - 1)) :
    ({ cluster := state.cluster.update name node
       attempted := state.attempted + attempts } :
      Cascade).Paid names ids factor := by
  refine ⟨?_, paid.wired, ?_⟩
  · intro other inNames
    by_cases same : other = name
    · subst same
      simp only [Cluster.update_nodes_self]
      exact known
    · simp only [Cluster.update_nodes_of_ne _ same]
      exact paid.servers other inNames
  · have budget := paid.budget
    have balance :=
      congrArg (· * (factor - 1))
        (sum_update member state.cluster node fun server =>
          server.missing ids)
    simp only [Nat.add_mul] at balance
    unfold Cascade.missing at budget ⊢
    dsimp only
    omega

/-- An insert of known blocks is paid. -/
theorem Paid.inserted
    (paid : state.Paid names ids factor)
    {name : NodeId}
    (member : name ∈ names)
    {blocks : List KvBlock}
    (known : ∀ block ∈ blocks, block.id ∈ ids) :
    (state.inserted name blocks).Paid names ids factor := by
  have server := paid.servers name member
  refine paid.update member (server.insert known) _ ?_
  have attempted := (state.cluster.nodes name).attempts_le blocks
  rw [server.factor_eq] at attempted
  have paidBlocks :=
    Nat.mul_le_mul_right (factor - 1)
      (CacheNode.missing_insert server.consistent known)
  rw [Nat.add_mul] at paidBlocks
  omega

/-- What is on its way does not matter to the budget. -/
theorem Paid.withWire
    (paid : state.Paid names ids factor)
    {wire : List ReplicateTask}
    (known : ∀ task ∈ wire, task.block.id ∈ ids) :
    (state.withWire wire).Paid names ids factor :=
  ⟨paid.servers, known, paid.budget⟩

/-- Every step is paid. -/
theorem Step.paid
    {event : CascadeEvent}
    {after : Cascade}
    (paid : state.Paid names ids factor)
    (step : Step names ids state event after) :
    after.Paid names ids factor := by
  cases step with
  | insert name blocks member known bytes =>
      exact paid.inserted member known
  | send name task member oldest =>
      have server := paid.servers name member
      have popped :=
        paid.update member server.popQueue 0
          (by simp [CacheNode.missing, CacheNode.popQueue])
      refine popped.withWire ?_
      intro other onWire
      rcases List.mem_cons.mp onWire with isTask | before
      · rw [isTask]
        exact server.queued task (List.mem_of_mem_head? oldest)
      · exact paid.wired other before
  | deliver task member onWire =>
      refine (paid.inserted member ?_).withWire fun other still =>
        paid.wired other (List.mem_of_mem_erase still)
      intro block isReceived
      rw [List.mem_singleton] at isReceived
      rw [isReceived]
      exact paid.wired task onWire
  | lose task onWire =>
      exact paid.withWire fun other still =>
        paid.wired other (List.mem_of_mem_erase still)

/-- What is outstanding changes with one queue and with the wire. -/
theorem outstanding_update
    (state : Cascade)
    {name : NodeId}
    (member : name ∈ names)
    (node : CacheNode)
    (wire : List ReplicateTask)
    (attempted : Nat) :
    (({ cluster := state.cluster.update name node
        attempted := attempted } : Cascade).withWire wire).outstanding names +
        (state.cluster.nodes name).queue.length +
        state.cluster.wire.length =
      state.outstanding names + node.queue.length + wire.length := by
  have balance :=
    sum_update member state.cluster node fun server => server.queue.length
  simp only [Cascade.outstanding, Cascade.withWire] at balance ⊢
  omega

/-- Inserts queue no more than they attempt. -/
theorem outstanding_inserted
    (state : Cascade)
    {name : NodeId}
    (member : name ∈ names)
    (blocks : List KvBlock)
    (wire : List ReplicateTask) :
    ((state.inserted name blocks).withWire wire).outstanding names +
        state.attempted + state.cluster.wire.length ≤
      state.outstanding names + (state.inserted name blocks).attempted +
        wire.length := by
  obtain ⟨pushed, drops, counted, _, inserted⟩ :=
    (state.cluster.nodes name).insert_pushes blocks
  have balance :=
    outstanding_update state member
      ((state.cluster.nodes name).insert blocks).2 wire
      (state.inserted name blocks).attempted
  have queued :
      ((state.cluster.nodes name).insert blocks).2.queue.length =
        (state.cluster.nodes name).queue.length + pushed.length := by
    rw [inserted, List.length_append]
  simp only [Cascade.inserted] at balance ⊢
  omega

/-- Only attempts add to what is outstanding, and deliveries use it up. -/
theorem Step.outstanding_le
    {event : CascadeEvent}
    {after : Cascade}
    (step : Step names ids state event after) :
    (if event.isDelivery then 1 else 0) + after.outstanding names +
        state.attempted ≤
      state.outstanding names + after.attempted := by
  cases step with
  | insert name blocks member known bytes =>
      have queued :=
        outstanding_inserted state member blocks state.cluster.wire
      simp only [CascadeEvent.isDelivery, Bool.false_eq_true, ↓reduceIte]
      change
        0 + ((state.inserted name blocks).withWire
          state.cluster.wire).outstanding names + state.attempted ≤ _
      omega
  | send name task member oldest =>
      have balance :=
        outstanding_update state member
          (state.cluster.nodes name).popQueue
          (task :: state.cluster.wire) state.attempted
      have waiting : 0 < (state.cluster.nodes name).queue.length :=
        List.length_pos_of_mem (List.mem_of_mem_head? oldest)
      simp only [CacheNode.popQueue, List.length_tail,
        List.length_cons] at balance
      simp only [CascadeEvent.isDelivery, Bool.false_eq_true, ↓reduceIte,
        Cascade.withWire, CacheNode.popQueue] at balance ⊢
      omega
  | deliver task member onWire =>
      have queued :=
        outstanding_inserted state member
          [CacheNode.receivedBlock task.block]
          (state.cluster.wire.erase task)
      have waiting := List.length_pos_of_mem onWire
      rw [List.length_erase_of_mem onWire] at queued
      simp only [CascadeEvent.isDelivery, ↓reduceIte]
      change
        _ ≤ _ + (state.inserted task.peerId
          [CacheNode.receivedBlock task.block]).attempted
      omega
  | lose task onWire =>
      have shorter := List.length_erase_of_mem onWire
      simp only [CascadeEvent.isDelivery, Bool.false_eq_true, ↓reduceIte,
        Cascade.outstanding, Cascade.withWire]
      omega

/-- Over a run, deliveries and what is still outstanding were attempted. -/
theorem deliveries_le
    {events : List CascadeEvent}
    {last : Cascade}
    (run : LabelledRun (Step names ids) state events last) :
    events.countP CascadeEvent.isDelivery + last.outstanding names +
        state.attempted ≤
      state.outstanding names + last.attempted := by
  induction run with
  | nil state =>
      simp
  | cons head tail inductionHypothesis =>
      have one := head.outstanding_le
      rw [List.countP_cons]
      omega

end Steps

end Cascade

open Cascade in
/--
Whatever the rings of the servers are, and in whatever order pushes are
delivered, all inserts together attempt at most one push less than the factor
for every server, tier and id, and there are no more deliveries than attempts.
-/
theorem replication_cascade_bounded
    {names : Finset NodeId}
    {ids : Finset BlockId}
    {factor : Nat}
    {cluster : Cluster}
    (consistent :
      ∀ name ∈ names, (cluster.nodes name).store.SsdConsistent)
    (factor_eq :
      ∀ name ∈ names,
        (cluster.nodes name).router.replicationFactor = factor)
    (noneQueued : ∀ name ∈ names, (cluster.nodes name).queue = [])
    (noneWired : cluster.wire = [])
    {events : List CascadeEvent}
    {last : Cascade}
    (run : LabelledRun (Step names ids) ⟨cluster, 0⟩ events last) :
    last.attempted ≤ 3 * names.card * ids.card * (factor - 1) ∧
      events.countP CascadeEvent.isDelivery ≤
        3 * names.card * ids.card * (factor - 1) := by
  have initial : (⟨cluster, 0⟩ : Cascade).Paid names ids factor := by
    refine ⟨?_, by simp [noneWired], ?_⟩
    · intro name member
      exact ⟨consistent name member, factor_eq name member,
        by simp [noneQueued name member]⟩
    · have most :
          (⟨cluster, 0⟩ : Cascade).missing names ids ≤
            names.card * (3 * ids.card) := by
        refine (Finset.sum_le_card_nsmul _ _ (3 * ids.card) ?_).trans_eq
          (by simp)
        intro name _
        exact (cluster.nodes name).missing_le ids
      have scaled := Nat.mul_le_mul_right (factor - 1) most
      calc
        0 + (⟨cluster, 0⟩ : Cascade).missing names ids * (factor - 1) ≤
            names.card * (3 * ids.card) * (factor - 1) := by
          omega
        _ = 3 * names.card * ids.card * (factor - 1) := by
          ring
  have none : (⟨cluster, 0⟩ : Cascade).outstanding names = 0 := by
    simp only [outstanding, noneWired, List.length_nil, Nat.add_zero]
    refine Finset.sum_eq_zero ?_
    intro name member
    rw [noneQueued name member]
    rfl
  have final :=
    run.invariant (Cascade.Paid names ids factor)
      (fun paid step => step.paid paid) initial
  have delivered := deliveries_le run
  have budget := final.budget
  exact ⟨by omega, by omega⟩

/--
A client's insert is pushed to the other server, which takes the block and
pushes it no further.
-/
theorem replication_cascade_bounded_pair :
    ∃ events last,
      LabelledRun (Cascade.Step {nodeA, nodeB} {sampleBlock})
          ⟨sampleCluster [nodeA, nodeB], 0⟩ events last ∧
        events.countP CascadeEvent.isDelivery = 1 ∧
        last.attempted ≤ 6 := by
  have run :
      LabelledRun (Cascade.Step {nodeA, nodeB} {sampleBlock})
        ⟨sampleCluster [nodeA, nodeB], 0⟩ _ _ :=
    .cons (.insert _ nodeA [sampleInsert] (by decide)
      (by simp [sampleInsert]) (by simp [sampleInsert])) <|
    .cons (.send _ nodeA ⟨nodeB, sampleInsert⟩ (by decide)
      (by decide +kernel)) <|
    .cons (.deliver _ ⟨nodeB, sampleInsert⟩ (by decide)
      List.mem_cons_self) <|
    .nil _
  have bounded :=
    replication_cascade_bounded
      (fun name _ =>
        (create_zero_copies sampleStoreConfig sampleStoreConfig_small
          fun _ _ => True).consistent)
      (fun _ _ => rfl) (fun _ _ => rfl) rfl run
  exact ⟨_, _, run, rfl, bounded.1.trans (by decide)⟩

end Lethe
