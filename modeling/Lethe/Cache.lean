import Lethe.Replication

namespace Lethe

/-!
# Cache server

The calls of one server: batched lookups, inserts, fetches and evictions.  A
lookup answers from the local store or points at the primary of the block's
route; an insert stores the block and queues pushes to the replicas if the
block is new, which it reads off the byte counters.
-/

/-- Where a looked-up block was found. -/
inductive LookupWhere where
  | localHit (tier : Tier) (localData : List UInt8)
  | remoteHit (remoteNode : NodeId)
  | miss
  deriving DecidableEq

/-- Answer for one block of a lookup. -/
structure LookupEntry where
  id : BlockId
  found : LookupWhere
  deriving DecidableEq

namespace CacheNode

/-- Look up one block. -/
def lookupOne
    (node : CacheNode)
    (id : BlockId) :
    LookupEntry × CacheNode :=
  let read := node.store.get id
  let after := { node with store := read.2 }
  match read.1 with
  | some got => (⟨id, .localHit got.tierFound got.data⟩, after)
  | none =>
      match (node.router.route id).primary with
      | some primary =>
          if primary = node.nodeId then
            (⟨id, .miss⟩, after)
          else
            (⟨id, .remoteHit primary⟩, after)
      | none => (⟨id, .miss⟩, after)

/-- Look up a batch of blocks in order. -/
def lookup
    (node : CacheNode) :
    List BlockId → List LookupEntry × CacheNode
  | [] => ([], node)
  | id :: rest =>
      let first := node.lookupOne id
      let others := first.2.lookup rest
      (first.1 :: others.1, others.2)

/-- Bytes counted over all tiers. -/
def totalUsed
    (node : CacheNode) :
    Nat :=
  addSize
    (addSize (node.store.usedBytes .hbm) (node.store.usedBytes .dram))
    (node.store.usedBytes .ssd)

/-- Store one block with its own tier as the hint and push it if it is new. -/
def insertOne
    (node : CacheNode)
    (block : KvBlock) :
    Bool × CacheNode :=
  let landed := node.store.put block block.tier
  let after := { node with store := landed.2 }
  if landed.1.isSome ∧ node.totalUsed < after.totalUsed then
    (true, after.replicateOut block)
  else
    (false, after)

/-- Insert a batch of blocks and count the new ones. -/
def insert
    (node : CacheNode) :
    List KvBlock → UInt32 × CacheNode
  | [] => (0, node)
  | block :: rest =>
      let first := node.insertOne block
      let others := first.2.insert rest
      ((if first.1 then 1 else 0) + others.1, others.2)

/-- Read one block from the local store only. -/
def fetchLocal
    (node : CacheNode)
    (id : BlockId) :
    Option (List UInt8 × Tier) × CacheNode :=
  let read := node.store.get id
  (read.1.map fun got => (got.data, got.tierFound),
    { node with store := read.2 })

/-- The block that a push carries over the wire, as the receiver inserts it. -/
def receivedBlock
    (block : KvBlock) :
    KvBlock :=
  { id := block.id, data := block.data, tier := .dram }

/-- Run one eviction pass over a tier. -/
def evict
    (node : CacheNode)
    (tier : Tier)
    (blocks : List BlockMeta) :
    CacheNode :=
  let pass := node.evictor.runPassForTier node.store tier blocks
  { node with store := pass.2.2, evictor := pass.2.1 }

/-- Demote one block. -/
def demote
    (node : CacheNode)
    (id : BlockId) :
    CacheNode :=
  { node with store := (node.store.demote id).2 }

/-- Looking up only changes the store, as a read does. -/
theorem lookupOne_node
    (node : CacheNode)
    (id : BlockId) :
    (node.lookupOne id).2 = { node with store := (node.store.get id).2 } := by
  unfold lookupOne
  dsimp only
  split
  · rfl
  · split
    · split <;> rfl
    · rfl

/-- The entry of a block names it. -/
theorem lookupOne_id
    (node : CacheNode)
    (id : BlockId) :
    (node.lookupOne id).1.id = id := by
  unfold lookupOne
  dsimp only
  split
  · rfl
  · split
    · split <;> rfl
    · rfl

/-- A batch is answered block by block. -/
theorem lookup_ids
    (node : CacheNode)
    (ids : List BlockId) :
    (node.lookup ids).1.map LookupEntry.id = ids := by
  induction ids generalizing node with
  | nil =>
      rfl
  | cons id rest inductionHypothesis =>
      simp only [lookup, List.map_cons, lookupOne_id, inductionHypothesis]

/-! ## Properties of all bytes that a server stores or is about to push -/

/-- Every stored copy and every queued push has the property. -/
structure Carries
    (holds : BlockId → List UInt8 → Prop)
    (node : CacheNode) : Prop where
  store : node.store.Copies holds
  queue : ∀ task ∈ node.queue, holds task.block.id task.block.data

namespace Carries

variable
  {holds : BlockId → List UInt8 → Prop}
  {node : CacheNode}
  (carries : node.Carries holds)

include carries

/-- Changing the store for one whose copies have the property. -/
theorem withStore
    {store : TieredStore}
    (copies : store.Copies holds) :
    ({ node with store := store } : CacheNode).Carries holds :=
  ⟨copies, carries.queue⟩

theorem enqueue
    {task : ReplicateTask}
    (good : holds task.block.id task.block.data) :
    (node.enqueue task).Carries holds := by
  unfold CacheNode.enqueue
  split
  · exact ⟨carries.store, carries.queue⟩
  · refine ⟨carries.store, ?_⟩
    intro queued member
    rcases List.mem_append.mp member with earlier | new
    · exact carries.queue queued earlier
    · rw [List.mem_singleton.mp new]
      exact good

theorem replicateOut
    {block : KvBlock}
    (good : holds block.id block.data) :
    (node.replicateOut block).Carries holds := by
  have tasks :
      ∀ task ∈ pushTasks (node.replicaTargets block.id) block,
        holds task.block.id task.block.data := by
    intro task member
    obtain ⟨peer, _, isTask⟩ := List.mem_map.mp member
    subst isTask
    exact good
  unfold CacheNode.replicateOut
  generalize pushTasks (node.replicaTargets block.id) block = pushes
    at tasks
  induction pushes generalizing node with
  | nil =>
      exact carries
  | cons task rest inductionHypothesis =>
      exact
        inductionHypothesis (carries.enqueue (tasks task (by simp)))
          (fun later member =>
            tasks later (List.mem_cons_of_mem _ member))

theorem insertOne
    {block : KvBlock}
    (good : holds block.id block.data) :
    (node.insertOne block).2.Carries holds := by
  have stored := carries.withStore (carries.store.put good block.tier)
  unfold CacheNode.insertOne
  dsimp only
  split
  · exact stored.replicateOut good
  · exact stored

theorem insert
    {blocks : List KvBlock}
    (good : ∀ block ∈ blocks, holds block.id block.data) :
    (node.insert blocks).2.Carries holds := by
  induction blocks generalizing node with
  | nil =>
      exact carries
  | cons block rest inductionHypothesis =>
      exact
        inductionHypothesis (carries.insertOne (good block (by simp)))
          (fun later member => good later (List.mem_cons_of_mem _ member))

theorem read
    (id : BlockId) :
    ({ node with store := (node.store.get id).2 } : CacheNode).Carries
      holds :=
  carries.withStore ((TieredStore.copies_stable _).get carries.store id)

theorem lookupOne
    (id : BlockId) :
    (node.lookupOne id).2.Carries holds := by
  rw [lookupOne_node]
  exact carries.read id

theorem lookup
    (ids : List BlockId) :
    (node.lookup ids).2.Carries holds := by
  induction ids generalizing node with
  | nil =>
      exact carries
  | cons id rest inductionHypothesis =>
      exact inductionHypothesis (carries.lookupOne id)

theorem evict
    (tier : Tier)
    (blocks : List BlockMeta) :
    (node.evict tier blocks).Carries holds :=
  ⟨(TieredStore.copies_stable _).runPassForTier carries.store node.evictor
    tier blocks, carries.queue⟩

theorem demote
    (id : BlockId) :
    (node.demote id).Carries holds :=
  ⟨(TieredStore.copies_stable _).demote carries.store id, carries.queue⟩

/-- Dispatching a block queues bytes that were read from the store. -/
theorem drainEffect
    {id : BlockId}
    {next : CacheNode}
    (effect : DrainEffect node id next) :
    next.Carries holds := by
  cases effect with
  | noTargets covered =>
      exact ⟨carries.store, carries.queue⟩
  | noBytes missing =>
      exact ⟨(carries.read id).store, carries.queue⟩
  | dispatched read =>
      refine ⟨(carries.read id).store, ?_⟩
      intro task member
      rcases List.mem_append.mp member with earlier | new
      · exact carries.queue task earlier
      · obtain ⟨peer, _, isTask⟩ := List.mem_map.mp new
        subst isTask
        exact carries.store.every (TieredStore.copy_of_get read)

theorem drainReReplication :
    node.drainReReplication.Carries holds := by
  unfold CacheNode.drainReReplication
  split
  · have drained :=
      drainLoop_preserves _
        (fun held _ effect => Carries.drainEffect held effect)
        (node.rerepRound.length - node.rerepCursor) 0 carries
    unfold CacheNode.finishRound
    split
    · exact ⟨drained.store, drained.queue⟩
    · exact drained
  · exact carries

theorem triggerReReplication
    (lostPeers : List NodeId)
    (listing : Tier → List BlockMeta) :
    (node.triggerReReplication lostPeers listing).Carries holds := by
  unfold CacheNode.triggerReReplication
  split
  · exact carries
  · have started :
        (node.startRound (node.candidates listing)).Carries holds :=
      ⟨carries.store, carries.queue⟩
    exact started.drainReReplication

end Carries

/-- The local hit of one lookup is a read. -/
theorem read_of_lookupOne
    {node : CacheNode}
    {id : BlockId}
    {tier : Tier}
    {localData : List UInt8}
    (isLocal :
      (node.lookupOne id).1.found = .localHit tier localData) :
    (node.lookupOne id).1.id = id ∧
      node.store.copy tier id = some localData := by
  unfold lookupOne at isLocal ⊢
  cases read : (node.store.get id).1 with
  | some got =>
      simp only [read, LookupWhere.localHit.injEq] at isLocal ⊢
      obtain ⟨sameTier, sameData⟩ := isLocal
      subst sameTier sameData
      exact ⟨trivial, TieredStore.copy_of_get read⟩
  | none =>
      simp only [read] at isLocal
      split at isLocal
      · split at isLocal <;> simp at isLocal
      · simp at isLocal

/-- A remote hit of one lookup names the primary, which is another node. -/
theorem primary_of_lookupOne
    {node : CacheNode}
    {id : BlockId}
    {remoteNode : NodeId}
    (isRemote : (node.lookupOne id).1.found = .remoteHit remoteNode) :
    (node.router.route id).primary = some remoteNode ∧
      remoteNode ≠ node.nodeId := by
  unfold lookupOne at isRemote
  cases read : (node.store.get id).1 with
  | some got =>
      simp [read] at isRemote
  | none =>
      simp only [read] at isRemote
      split at isRemote
      · next primary isPrimary =>
          split at isRemote
          · simp at isRemote
          · next elsewhere =>
              simp only [LookupWhere.remoteHit.injEq] at isRemote
              subst isRemote
              exact ⟨isPrimary, elsewhere⟩
      · simp at isRemote

/--
Every answer of a lookup is one that a single lookup gives at a node that keeps
an invariant of single lookups.
-/
theorem exists_lookupOne_of_mem_lookup
    (invariant : CacheNode → Prop)
    (kept :
      ∀ {node} id, invariant node → invariant (node.lookupOne id).2)
    {node : CacheNode}
    (start : invariant node)
    {ids : List BlockId}
    {entry : LookupEntry}
    (answered : entry ∈ (node.lookup ids).1) :
    ∃ reached id,
      invariant reached ∧ (reached.lookupOne id).1 = entry := by
  induction ids generalizing node with
  | nil =>
      simp [lookup] at answered
  | cons id rest inductionHypothesis =>
      rcases List.mem_cons.mp answered with isFirst | later
      · exact ⟨node, id, start, isFirst.symm⟩
      · exact inductionHypothesis (kept id start) later

/-- Remote hits of a lookup name the primary, which is another node. -/
theorem primary_of_lookup
    {node : CacheNode}
    {ids : List BlockId}
    {entry : LookupEntry}
    (answered : entry ∈ (node.lookup ids).1)
    {remoteNode : NodeId}
    (isRemote : entry.found = .remoteHit remoteNode) :
    ∃ id,
      (node.router.route id).primary = some remoteNode ∧
        remoteNode ≠ node.nodeId := by
  obtain ⟨reached, id, ⟨sameRouter, sameNode⟩, isEntry⟩ :=
    exists_lookupOne_of_mem_lookup
      (fun reached =>
        reached.router = node.router ∧ reached.nodeId = node.nodeId)
      (fun id same => by
        rw [lookupOne_node]
        exact same)
      ⟨rfl, rfl⟩ answered
  subst isEntry
  rw [← sameRouter, ← sameNode]
  exact ⟨id, primary_of_lookupOne isRemote⟩

/-- Local hits of a lookup carry bytes with the property. -/
theorem holds_of_lookup
    {holds : BlockId → List UInt8 → Prop}
    {node : CacheNode}
    (carries : node.Carries holds)
    {ids : List BlockId}
    {entry : LookupEntry}
    (answered : entry ∈ (node.lookup ids).1)
    {tier : Tier}
    {localData : List UInt8}
    (isLocal : entry.found = .localHit tier localData) :
    holds entry.id localData := by
  obtain ⟨reached, id, stillCarries, isEntry⟩ :=
    exists_lookupOne_of_mem_lookup (Carries holds)
      (fun id carried => carried.lookupOne id) carries answered
  subst isEntry
  obtain ⟨sameId, held⟩ := read_of_lookupOne isLocal
  rw [sameId]
  exact stillCarries.store.every held

end CacheNode

end Lethe
