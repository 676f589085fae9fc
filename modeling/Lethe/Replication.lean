import Lethe.Eviction
import Lethe.Routing

namespace Lethe

/-!
# Replication

A node pushes blocks to its peers through a bounded queue that worker threads
drain.  New blocks go to the replicas of their route; after a membership
change a round over all local blocks in whose route the node appears goes to
every other member, in batches that wait for room in the queue.

Iterating over a tier lists its blocks in the order of a hash map, so the
listings are parameters.
-/

/-- Longest queue of pushes. -/
def replicationQueueMax : Nat :=
  1024

/-- Blocks that one tick of a re-replication round dispatches at most. -/
def reReplicationBatch : Nat :=
  256

/-- A push that waits for a worker. -/
structure ReplicateTask where
  peerId : NodeId
  block : KvBlock
  deriving DecidableEq

/-- One push of a block to each target. -/
def pushTasks
    (targets : List NodeId)
    (block : KvBlock) :
    List ReplicateTask :=
  targets.map fun peer => ⟨peer, block⟩

/--
State of one cache server.  The count of drops is taken not to reach 2^64,
where the counter of the source wraps.
-/
structure CacheNode where
  nodeId : NodeId
  store : TieredStore
  router : Router
  evictor : Evictor
  queue : List ReplicateTask
  overflowDrops : Nat
  rerepRound : List BlockId
  rerepCursor : Nat
  rerepActive : Bool

namespace CacheNode

/-- Queue one push, or count a drop if the queue is full. -/
def enqueue
    (node : CacheNode)
    (task : ReplicateTask) :
    CacheNode :=
  if replicationQueueMax ≤ node.queue.length then
    { node with overflowDrops := node.overflowDrops + 1 }
  else
    { node with queue := node.queue ++ [task] }

/-- The replicas of a block's route other than this node. -/
def replicaTargets
    (node : CacheNode)
    (id : BlockId) :
    List NodeId :=
  (node.router.route id).replicas.filter fun peer => peer ≠ node.nodeId

/-- Queue a push of a new block to each replica. -/
def replicateOut
    (node : CacheNode)
    (block : KvBlock) :
    CacheNode :=
  (pushTasks (node.replicaTargets block.id) block).foldl enqueue node

/-- Pushes are queued while there is room; the others are counted. -/
theorem foldl_enqueue_eq
    (tasks : List ReplicateTask)
    (node : CacheNode) :
    tasks.foldl enqueue node =
      { node with
        queue :=
          node.queue ++
            tasks.take (replicationQueueMax - node.queue.length)
        overflowDrops :=
          node.overflowDrops +
            (tasks.drop
              (replicationQueueMax - node.queue.length)).length } := by
  induction tasks generalizing node with
  | nil =>
      simp
  | cons task rest inductionHypothesis =>
      rw [List.foldl_cons, inductionHypothesis]
      unfold enqueue
      split
      · next full =>
          rw [Nat.sub_eq_zero_of_le full]
          simp only [List.take_zero, List.append_nil, List.drop_zero,
            List.length_cons, CacheNode.mk.injEq, true_and, and_true]
          omega
      · next room =>
          obtain ⟨spare, isSpare⟩ :
              ∃ spare,
                replicationQueueMax - node.queue.length = spare + 1 :=
            ⟨replicationQueueMax - node.queue.length - 1, by omega⟩
          have spareAfter :
              replicationQueueMax - (node.queue ++ [task]).length =
                spare := by
            rw [List.length_append, List.length_singleton]
            omega
          simp only [spareAfter, isSpare, List.take_succ_cons,
            List.drop_succ_cons, List.append_assoc, List.singleton_append]

/-- Every member of a block's route other than this node, primary first. -/
def rerepTargets
    (node : CacheNode)
    (id : BlockId) :
    List NodeId :=
  (node.router.route id).primary.toList.filter (fun peer =>
      peer ≠ node.nodeId) ++
    node.replicaTargets id

/-- The block read back for a push. -/
def pushedBlock
    (id : BlockId)
    (got : GetResult) :
    KvBlock :=
  { id := id, data := got.data, tier := got.tierFound }

/-- Move on to the next block of the round. -/
def nextInRound
    (node : CacheNode) :
    CacheNode :=
  { node with rerepCursor := node.rerepCursor + 1 }

/--
Handle the block under the cursor and report how many were dispatched.  A
block without targets or without bytes is passed over; a block whose pushes do
not all fit the queue ends the tick.
-/
def drainStep
    (node : CacheNode) :
    Option (Nat × CacheNode) :=
  match node.rerepRound[node.rerepCursor]? with
  | none => none
  | some id =>
      let targets := node.rerepTargets id
      if targets = [] then
        some (0, node.nextInRound)
      else if replicationQueueMax < node.queue.length + targets.length then
        none
      else
        let read := node.store.get id
        match read.1 with
        | none => some (0, { node with store := read.2 }.nextInRound)
        | some got =>
            some (1,
              { node with
                store := read.2
                queue :=
                  node.queue ++
                    pushTasks targets (pushedBlock id got) }.nextInRound)

/-- Handle blocks of the round until the tick ends or the batch is full. -/
def drainLoop :
    Nat → Nat → CacheNode → CacheNode
  | 0, _, node => node
  | steps + 1, dispatched, node =>
      if dispatched < reReplicationBatch then
        match node.drainStep with
        | none => node
        | some (sent, next) => drainLoop steps (dispatched + sent) next
      else
        node

/-- What handling one block of a round can do. -/
inductive DrainEffect
    (node : CacheNode)
    (id : BlockId) :
    CacheNode → Prop where
  | noTargets
      (covered : node.rerepTargets id = []) :
      DrainEffect node id node.nextInRound
  | noBytes
      (missing : (node.store.get id).1 = none) :
      DrainEffect node id
        { node with store := (node.store.get id).2 }.nextInRound
  | dispatched
      {got : GetResult}
      (read : (node.store.get id).1 = some got) :
      DrainEffect node id
        { node with
          store := (node.store.get id).2
          queue :=
            node.queue ++
              pushTasks (node.rerepTargets id)
                (pushedBlock id got) }.nextInRound

/-- Handling a block moves on to the next one of the same round. -/
theorem DrainEffect.movesOn
    {node next : CacheNode}
    {id : BlockId}
    (effect : DrainEffect node id next) :
    next.rerepRound = node.rerepRound ∧
      next.rerepCursor = node.rerepCursor + 1 ∧
      next.rerepActive = node.rerepActive ∧
      next.nodeId = node.nodeId ∧
      next.router = node.router := by
  cases effect with
  | noTargets covered =>
      exact ⟨rfl, rfl, rfl, rfl, rfl⟩
  | noBytes missing =>
      exact ⟨rfl, rfl, rfl, rfl, rfl⟩
  | dispatched read =>
      exact ⟨rfl, rfl, rfl, rfl, rfl⟩

/-- How a block is handled, and whether it counts as dispatched. -/
theorem drainStep_cases
    {node next : CacheNode}
    {sent : Nat}
    (stepped : node.drainStep = some (sent, next)) :
    ∃ id,
      node.rerepRound[node.rerepCursor]? = some id ∧
        (node.rerepTargets id = [] ∧ sent = 0 ∧ next = node.nextInRound ∨
          (node.store.get id).1 = none ∧
            sent = 0 ∧
            next =
              { node with store := (node.store.get id).2 }.nextInRound ∨
          ∃ got,
            (node.store.get id).1 = some got ∧
              node.queue.length + (node.rerepTargets id).length ≤
                replicationQueueMax ∧
              sent = 1 ∧
              next =
                { node with
                  store := (node.store.get id).2
                  queue :=
                    node.queue ++
                      pushTasks (node.rerepTargets id)
                        (pushedBlock id got) }.nextInRound) := by
  unfold drainStep at stepped
  split at stepped
  · simp at stepped
  · next id found =>
      refine ⟨id, found, ?_⟩
      dsimp only at stepped
      split at stepped
      · next covered =>
          simp only [Option.some.injEq, Prod.mk.injEq] at stepped
          exact Or.inl ⟨covered, stepped.1.symm, stepped.2.symm⟩
      · split at stepped
        · simp at stepped
        · next fits =>
            split at stepped
            · next missing =>
                simp only [Option.some.injEq, Prod.mk.injEq] at stepped
                exact
                  Or.inr (Or.inl
                    ⟨missing, stepped.1.symm, stepped.2.symm⟩)
            · next got read =>
                simp only [Option.some.injEq, Prod.mk.injEq] at stepped
                exact
                  Or.inr (Or.inr
                    ⟨got, read, Nat.not_lt.mp fits, stepped.1.symm,
                      stepped.2.symm⟩)

/-- Every handled block has one of the listed effects. -/
theorem drainStep_effect
    {node next : CacheNode}
    {sent : Nat}
    (stepped : node.drainStep = some (sent, next)) :
    ∃ id,
      node.rerepRound[node.rerepCursor]? = some id ∧
        DrainEffect node id next := by
  obtain ⟨id, found,
    ⟨covered, _, rfl⟩ | ⟨missing, _, rfl⟩ | ⟨got, read, _, _, rfl⟩⟩ :=
    drainStep_cases stepped
  · exact ⟨id, found, .noTargets covered⟩
  · exact ⟨id, found, .noBytes missing⟩
  · exact ⟨id, found, .dispatched read⟩

/-- What handling one block preserves, a whole tick preserves. -/
theorem drainLoop_preserves
    (holds : CacheNode → Prop)
    (preserved :
      ∀ {node next id},
        holds node →
        node.rerepRound[node.rerepCursor]? = some id →
        DrainEffect node id next →
        holds next)
    (steps dispatched : Nat)
    {node : CacheNode}
    (initially : holds node) :
    holds (drainLoop steps dispatched node) := by
  induction steps generalizing dispatched node with
  | zero =>
      exact initially
  | succ steps inductionHypothesis =>
      unfold drainLoop
      split
      · split
        · exact initially
        · next sent next stepped =>
            obtain ⟨id, found, effect⟩ := drainStep_effect stepped
            exact
              inductionHypothesis _ (preserved initially found effect)
      · exact initially

/-- The round is over once every candidate was handled. -/
def finishRound
    (node : CacheNode) :
    CacheNode :=
  if node.rerepRound.length ≤ node.rerepCursor then
    { node with rerepActive := false }
  else
    node

/-- One tick of the sweep. -/
def drainReReplication
    (node : CacheNode) :
    CacheNode :=
  if node.rerepActive then
    (drainLoop (node.rerepRound.length - node.rerepCursor) 0
      node).finishRound
  else
    node

/-- Blocks of the listings in whose route this node appears. -/
def candidates
    (node : CacheNode)
    (listing : Tier → List BlockMeta) :
    List BlockId :=
  ((listing .hbm ++ listing .dram ++ listing .ssd).map
    BlockMeta.id).filter fun id =>
      node.nodeId ∈ (node.router.route id).members

/-- Replace the round by a new one. -/
def startRound
    (node : CacheNode)
    (round : List BlockId) :
    CacheNode :=
  { node with
    rerepRound := round
    rerepCursor := 0
    rerepActive := round ≠ [] }

/-- Start a round after peers were lost and dispatch its first batch. -/
def triggerReReplication
    (node : CacheNode)
    (lostPeers : List NodeId)
    (listing : Tier → List BlockMeta) :
    CacheNode :=
  if lostPeers = [] then
    node
  else
    (node.startRound (node.candidates listing)).drainReReplication

/-- A tick leaves the server's name and ring alone. -/
theorem drainReReplication_ring
    (node : CacheNode) :
    node.drainReReplication.nodeId = node.nodeId ∧
      node.drainReReplication.router = node.router := by
  unfold drainReReplication
  split
  · have looped :
        (drainLoop (node.rerepRound.length - node.rerepCursor) 0
            node).nodeId = node.nodeId ∧
          (drainLoop (node.rerepRound.length - node.rerepCursor) 0
            node).router = node.router := by
      refine
        drainLoop_preserves
          (fun next =>
            next.nodeId = node.nodeId ∧ next.router = node.router)
          ?_ _ 0 ⟨rfl, rfl⟩
      intro before next id kept _ effect
      cases effect with
      | noTargets covered =>
          exact kept
      | noBytes missing =>
          exact kept
      | dispatched read =>
          exact kept
    unfold finishRound
    split
    · exact looped
    · exact looped
  · exact ⟨rfl, rfl⟩

/-- Starting a round leaves the server's name and ring alone. -/
theorem triggerReReplication_ring
    (node : CacheNode)
    (lostPeers : List NodeId)
    (listing : Tier → List BlockMeta) :
    (node.triggerReReplication lostPeers listing).nodeId = node.nodeId ∧
      (node.triggerReReplication lostPeers listing).router =
        node.router := by
  unfold triggerReReplication
  split
  · exact ⟨rfl, rfl⟩
  · exact drainReReplication_ring _

/-- The listings show each tier in some order. -/
def Lists
    (store : TieredStore)
    (listing : Tier → List BlockMeta) : Prop :=
  ∀ tier, (listing tier).Perm (store.snapshot tier)

end CacheNode

end Lethe
