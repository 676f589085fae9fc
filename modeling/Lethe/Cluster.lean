import Lethe.Cache
import Lethe.RoutingStability
import Lethe.SsdRecovery
import Lethe.Library.LabelledRun

namespace Lethe

/-!
# Cluster

Any number of cache servers exchange pushes over a wire that may reorder,
duplicate and lose them.  Servers restart at any point, also in the middle of
an access to their SSD file.  Payloads are a function of the block identity;
the invariant is that every copy anywhere carries that payload.
-/

/-- All servers and the pushes on their way. -/
structure Cluster where
  nodes : NodeId → CacheNode
  wire : List ReplicateTask

/-- What happens in the cluster, with the answers given to clients. -/
inductive ClusterEvent where
  | insert (node : NodeId) (blocks : List KvBlock)
  | lookup
      (node : NodeId)
      (ids : List BlockId)
      (answer : List LookupEntry)
  | fetch
      (node : NodeId)
      (id : BlockId)
      (answer : Option (List UInt8 × Tier))
  | demote (node : NodeId) (id : BlockId)
  | evict (node : NodeId) (tier : Tier) (blocks : List BlockMeta)
  | setPeers (node : NodeId) (router : Router)
  | trigger
      (node : NodeId)
      (lostPeers : List NodeId)
      (listing : Tier → List BlockMeta)
  | drain (node : NodeId)
  | send (node : NodeId)
  | deliver (task : ReplicateTask)
  | lose (task : ReplicateTask)
  | restart
      (node : NodeId)
      (router : Router)
      (interrupted : SsdCall)
      (count : Nat)

namespace TieredStore

/--
The store after a restart in the middle of a call into the SSD tier: the
in-memory tiers are empty and the file is reopened as the call left it.  A
call stopped before its first store is a restart between calls.
-/
def reopen
    (store : TieredStore)
    (interrupted : SsdCall)
    (count : Nat) :
    TieredStore :=
  { create store.config fun _ => 0 with
    ssd := store.ssd.map fun tierStore =>
      interrupted.killedAt tierStore count }

end TieredStore

namespace CacheNode

/-- Hand the oldest push to a worker. -/
def popQueue
    (node : CacheNode) :
    CacheNode :=
  { node with queue := node.queue.tail }

/-- The server after a restart. -/
def restart
    (node : CacheNode)
    (router : Router)
    (interrupted : SsdCall)
    (count : Nat) :
    CacheNode where
  nodeId := node.nodeId
  store := node.store.reopen interrupted count
  router := router
  evictor := { node.evictor with hand := fun _ => 0 }
  queue := []
  overflowDrops := 0
  rerepRound := []
  rerepCursor := 0
  rerepActive := false

end CacheNode

namespace Cluster

/-- Replace the state of one server. -/
def update
    (cluster : Cluster)
    (name : NodeId)
    (node : CacheNode) :
    Cluster :=
  { cluster with nodes := Function.update cluster.nodes name node }

@[simp] theorem update_nodes_self
    (cluster : Cluster)
    (name : NodeId)
    (node : CacheNode) :
    (cluster.update name node).nodes name = node :=
  Function.update_self ..

@[simp] theorem update_nodes_of_ne
    (cluster : Cluster)
    {name other : NodeId}
    (different : other ≠ name)
    (node : CacheNode) :
    (cluster.update name node).nodes other = cluster.nodes other :=
  Function.update_of_ne different ..

/-- Steps of a cluster whose clients insert the payload of each identity. -/
inductive Step
    (payload : BlockId → List UInt8) :
    Cluster → ClusterEvent → Cluster → Prop where
  | insert
      (cluster : Cluster)
      (name : NodeId)
      (blocks : List KvBlock)
      (genuine : ∀ block ∈ blocks, block.data = payload block.id) :
      Step payload cluster (.insert name blocks)
        (cluster.update name ((cluster.nodes name).insert blocks).2)
  | lookup
      (cluster : Cluster)
      (name : NodeId)
      (ids : List BlockId) :
      Step payload cluster
        (.lookup name ids ((cluster.nodes name).lookup ids).1)
        (cluster.update name ((cluster.nodes name).lookup ids).2)
  | fetch
      (cluster : Cluster)
      (name : NodeId)
      (id : BlockId) :
      Step payload cluster
        (.fetch name id ((cluster.nodes name).fetchLocal id).1)
        (cluster.update name ((cluster.nodes name).fetchLocal id).2)
  | demote
      (cluster : Cluster)
      (name : NodeId)
      (id : BlockId) :
      Step payload cluster (.demote name id)
        (cluster.update name ((cluster.nodes name).demote id))
  | evict
      (cluster : Cluster)
      (name : NodeId)
      (tier : Tier)
      (blocks : List BlockMeta)
      (listed :
        blocks.Perm ((cluster.nodes name).store.snapshot tier)) :
      Step payload cluster (.evict name tier blocks)
        (cluster.update name ((cluster.nodes name).evict tier blocks))
  | setPeers
      (cluster : Cluster)
      (name : NodeId)
      (router : Router) :
      Step payload cluster (.setPeers name router)
        (cluster.update name { cluster.nodes name with router := router })
  | trigger
      (cluster : Cluster)
      (name : NodeId)
      (lostPeers : List NodeId)
      (listing : Tier → List BlockMeta)
      (listed : CacheNode.Lists (cluster.nodes name).store listing) :
      Step payload cluster (.trigger name lostPeers listing)
        (cluster.update name
          ((cluster.nodes name).triggerReReplication lostPeers listing))
  | drain
      (cluster : Cluster)
      (name : NodeId) :
      Step payload cluster (.drain name)
        (cluster.update name (cluster.nodes name).drainReReplication)
  | send
      (cluster : Cluster)
      (name : NodeId)
      (task : ReplicateTask)
      (oldest : (cluster.nodes name).queue.head? = some task) :
      Step payload cluster (.send name)
        { (cluster.update name (cluster.nodes name).popQueue) with
          wire := task :: cluster.wire }
  | deliver
      (cluster : Cluster)
      (task : ReplicateTask)
      (onWire : task ∈ cluster.wire) :
      Step payload cluster (.deliver task)
        (cluster.update task.peerId
          ((cluster.nodes task.peerId).insert
            [CacheNode.receivedBlock task.block]).2)
  | lose
      (cluster : Cluster)
      (task : ReplicateTask) :
      Step payload cluster (.lose task)
        { cluster with wire := cluster.wire.erase task }
  | restart
      (cluster : Cluster)
      (name : NodeId)
      (router : Router)
      (interrupted : SsdCall)
      (count : Nat)
      (genuine :
        ∀ block,
          interrupted = .put block →
          block.data = payload block.id) :
      Step payload cluster (.restart name router interrupted count)
        (cluster.update name
          ((cluster.nodes name).restart router interrupted count))

/-- Servers with empty tiers over all-zero files, and nothing on its way. -/
structure Fresh
    (cluster : Cluster) : Prop where
  store_eq :
    ∀ name,
      ∃ config : TieredStoreConfig,
        (∀ geometry,
          config.ssd = some geometry → geometry.SmallSlots) ∧
        (cluster.nodes name).store =
          TieredStore.create config fun _ => 0
  queue_eq : ∀ name, (cluster.nodes name).queue = []
  wire_eq : cluster.wire = []

end Cluster

/-- The answer given by an event, if any, carries the right payloads. -/
def ClusterEvent.AnswersWith
    (payload : BlockId → List UInt8) :
    ClusterEvent → Prop
  | .fetch _ id answer =>
      ∀ data tier, answer = some (data, tier) → data = payload id
  | .lookup _ _ answer =>
      ∀ entry ∈ answer,
        ∀ tier localData,
          entry.found = .localHit tier localData →
          localData = payload entry.id
  | _ => True

/-! ## Every copy carries its payload -/

/-- A killed call into the SSD tier leaves only copies with the property. -/
theorem SsdCall.killedAt_holds
    {holds : BlockId → List UInt8 → Prop}
    {store : SsdBlockStore}
    (consistent : store.Consistent)
    (small : store.geometry.SmallSlots)
    (every :
      ∀ {id block},
        store.getCopy id = some block →
        holds id block.data)
    {call : SsdCall}
    (good :
      ∀ block, call = .put block → holds block.id block.data)
    (count : Nat)
    {id : BlockId}
    {block : KvBlock}
    (copied : (call.killedAt store count).getCopy id = some block) :
    holds id block.data := by
  obtain ⟨_, outcome⟩ := SsdCall.killedAt_spec consistent small call count
  rcases outcome with before | after
  · exact every (by rw [← before, copied])
  · rw [after] at copied
    cases call with
    | erase erased =>
        rw [SsdCall.complete, consistent.getCopy_erase] at copied
        split at copied
        · simp at copied
        · exact every copied
    | put new =>
        rw [SsdCall.complete] at copied
        cases accepted : (store.put new).1 with
        | false =>
            rw [SsdBlockStore.put_of_rejected accepted] at copied
            exact every copied
        | true =>
            have fits := (SsdBlockStore.put_accepted_iff.mp accepted).1
            have stored :=
              TieredStore.getCopy_put_or_kept consistent.sound accepted id
            rw [copied, SsdBlockStore.namedBytes_of_lt
              (Nat.lt_of_le_of_lt fits small)] at stored
            by_cases same : id = new.id
            · rw [if_pos same, Option.map_some, Option.some.injEq] at stored
              cases held : store.getCopy new.id with
              | none =>
                  simp only [held, Option.map_none,
                    Option.getD_none] at stored
                  rw [same, stored]
                  exact good new rfl
              | some older =>
                  simp only [held, Option.map_some,
                    Option.getD_some] at stored
                  rw [same, stored]
                  exact every held
            · rw [if_neg same, Option.map_some] at stored
              obtain ⟨older, held, sameData⟩ :=
                Option.map_eq_some_iff.mp stored.symm
              rw [← sameData]
              exact every held

/-- Reopening the file keeps a property of all copies. -/
theorem TieredStore.Copies.reopen
    {holds : BlockId → List UInt8 → Prop}
    {store : TieredStore}
    (copies : store.Copies holds)
    {interrupted : SsdCall}
    (good :
      ∀ block, interrupted = .put block → holds block.id block.data)
    (count : Nat) :
    (store.reopen interrupted count).Copies holds := by
  have everyInFile :
      ∀ {tierStore},
        store.ssd = some tierStore →
        ∀ {id block},
          tierStore.getCopy id = some block →
          holds id block.data := by
    intro tierStore present id block copied
    have held : store.copy .ssd id = some block.data := by
      simp [copy, present, copied]
    exact copies.every held
  refine ⟨?_, ?_⟩
  · intro reopened isReopened
    obtain ⟨tierStore, present, isStore⟩ :=
      Option.map_eq_some_iff.mp isReopened
    subst isStore
    obtain ⟨agrees, small⟩ := copies.consistent tierStore present
    exact
      ⟨(SsdCall.killedAt_spec agrees small interrupted count).1, small⟩
  · intro tier id data copied
    cases tier with
    | hbm =>
        simp only [copy, TieredStore.reopen, create] at copied
        split at copied
        · simp at copied
        · simp at copied
    | dram =>
        simp [copy, TieredStore.reopen, create] at copied
    | ssd =>
        simp only [copy, TieredStore.reopen, Option.bind_eq_some_iff,
          Option.map_eq_some_iff] at copied
        obtain ⟨reopened, ⟨tierStore, present, isStore⟩, block,
          blockCopied, isData⟩ := copied
        subst isStore isData
        obtain ⟨agrees, small⟩ := copies.consistent tierStore present
        exact
          SsdCall.killedAt_holds agrees small (everyInFile present) good
            count blockCopied

namespace Cluster

/-- Every copy, queued push and push on its way has the property. -/
structure Carries
    (holds : BlockId → List UInt8 → Prop)
    (cluster : Cluster) : Prop where
  nodes : ∀ name, (cluster.nodes name).Carries holds
  wire : ∀ task ∈ cluster.wire, holds task.block.id task.block.data

/-- Replacing a server by one that has the property. -/
theorem Carries.update
    {holds : BlockId → List UInt8 → Prop}
    {cluster : Cluster}
    (carries : cluster.Carries holds)
    {name : NodeId}
    {node : CacheNode}
    (good : node.Carries holds) :
    (cluster.update name node).Carries holds := by
  refine ⟨?_, carries.wire⟩
  intro other
  by_cases same : other = name
  · subst same
    simpa using good
  · simpa [same] using carries.nodes other

/-- Handing a queued push to the wire keeps the property. -/
theorem Carries.send
    {holds : BlockId → List UInt8 → Prop}
    {cluster : Cluster}
    (carries : cluster.Carries holds)
    {name : NodeId}
    {task : ReplicateTask}
    (oldest : (cluster.nodes name).queue.head? = some task) :
    ({ (cluster.update name (cluster.nodes name).popQueue) with
        wire := task :: cluster.wire } : Cluster).Carries holds := by
  have popped : (cluster.nodes name).popQueue.Carries holds :=
    ⟨(carries.nodes name).store, fun queued member =>
      (carries.nodes name).queue queued (List.mem_of_mem_tail member)⟩
  refine ⟨(carries.update popped).nodes, ?_⟩
  intro sent member
  rcases List.mem_cons.mp member with isTask | earlier
  · rw [isTask]
    exact (carries.nodes name).queue task (List.mem_of_head? oldest)
  · exact carries.wire sent earlier

/-- Inserting the block of a push on its way keeps the property. -/
theorem Carries.deliver
    {holds : BlockId → List UInt8 → Prop}
    {cluster : Cluster}
    (carries : cluster.Carries holds)
    {task : ReplicateTask}
    (onWire : task ∈ cluster.wire) :
    (cluster.update task.peerId
      ((cluster.nodes task.peerId).insert
        [CacheNode.receivedBlock task.block]).2).Carries holds := by
  refine carries.update ((carries.nodes task.peerId).insert ?_)
  intro block member
  rw [List.mem_singleton.mp member]
  exact carries.wire task onWire

/-- A fresh cluster stores nothing. -/
theorem Fresh.carries
    {cluster : Cluster}
    (fresh : cluster.Fresh)
    (holds : BlockId → List UInt8 → Prop) :
    cluster.Carries holds := by
  refine ⟨?_, by simp [fresh.wire_eq]⟩
  intro name
  obtain ⟨config, small, isStore⟩ := fresh.store_eq name
  refine ⟨?_, by simp [fresh.queue_eq name]⟩
  rw [isStore]
  exact TieredStore.create_zero_copies config small holds

/-- One step keeps every copy genuine. -/
theorem Carries.step
    {payload : BlockId → List UInt8}
    {before after : Cluster}
    {event : ClusterEvent}
    (carries : before.Carries fun id data => data = payload id)
    (step : Step payload before event after) :
    after.Carries fun id data => data = payload id := by
  cases step with
  | insert name blocks genuine =>
      exact carries.update ((carries.nodes name).insert genuine)
  | lookup name ids =>
      exact carries.update ((carries.nodes name).lookup ids)
  | fetch name id =>
      exact carries.update ((carries.nodes name).read id)
  | demote name id =>
      exact carries.update ((carries.nodes name).demote id)
  | evict name tier blocks listed =>
      exact carries.update ((carries.nodes name).evict tier blocks)
  | setPeers name router =>
      exact
        carries.update
          ⟨(carries.nodes name).store, (carries.nodes name).queue⟩
  | trigger name lostPeers listing listed =>
      exact
        carries.update
          ((carries.nodes name).triggerReReplication lostPeers listing)
  | drain name =>
      exact carries.update (carries.nodes name).drainReReplication
  | send name task oldest =>
      exact carries.send oldest
  | deliver task onWire =>
      exact carries.deliver onWire
  | lose task =>
      exact
        ⟨carries.nodes, fun kept member =>
          carries.wire kept (List.mem_of_mem_erase member)⟩
  | restart name router interrupted count genuine =>
      exact
        carries.update
          ⟨(carries.nodes name).store.reopen genuine count, by
            simp [CacheNode.restart]⟩

/-- One step answers with genuine payloads. -/
theorem Carries.answers
    {payload : BlockId → List UInt8}
    {before after : Cluster}
    {event : ClusterEvent}
    (carries : before.Carries fun id data => data = payload id)
    (step : Step payload before event after) :
    event.AnswersWith payload := by
  cases step with
  | fetch name id =>
      intro data tier answered
      obtain ⟨got, read, isAnswer⟩ := Option.map_eq_some_iff.mp answered
      simp only [Prod.mk.injEq] at isAnswer
      rw [← isAnswer.1]
      exact
        (carries.nodes name).store.every (TieredStore.copy_of_get read)
  | lookup name ids =>
      intro entry answered tier localData isLocal
      exact
        CacheNode.holds_of_lookup (carries.nodes name) answered isLocal
  | insert name blocks genuine =>
      trivial
  | demote name id =>
      trivial
  | evict name tier blocks listed =>
      trivial
  | setPeers name router =>
      trivial
  | trigger name lostPeers listing listed =>
      trivial
  | drain name =>
      trivial
  | send name task oldest =>
      trivial
  | deliver task onWire =>
      trivial
  | lose task =>
      trivial
  | restart name router interrupted count genuine =>
      trivial

end Cluster

/--
In every run of a cluster that starts empty, every fetch that finds its block
and every local hit of a lookup returns the payload of the block.
-/
theorem cluster_answers_genuine_payloads
    (payload : BlockId → List UInt8)
    {initial final : Cluster}
    {events : List ClusterEvent}
    (fresh : initial.Fresh)
    (run : LabelledRun (Cluster.Step payload) initial events final) :
    ∀ event ∈ events, event.AnswersWith payload := by
  have initially := fresh.carries fun id data => data = payload id
  exact
    run.labels_of_invariant Cluster.Carries.step Cluster.Carries.answers
      initially

/-! ## Three servers -/

/-- Sixteen bytes of DRAM and two file slots of sixteen bytes. -/
def sampleStoreConfig : TieredStoreConfig where
  dramBytes := 16
  ssd := some twoSlotGeometry

theorem sampleStoreConfig_small
    (geometry : SsdGeometry)
    (configured : sampleStoreConfig.ssd = some geometry) :
    geometry.SmallSlots := by
  simp only [sampleStoreConfig, Option.some.injEq] at configured
  subst configured
  exact twoSlotGeometry_small

/-- A server that has just started on a ring of the given peers. -/
def sampleNode
    (peers : List NodeId)
    (name : NodeId) :
    CacheNode where
  nodeId := name
  store := TieredStore.create sampleStoreConfig fun _ => 0
  router := sampleRouter name peers
  evictor := { config := {}, hand := fun _ => 0 }
  queue := []
  overflowDrops := 0
  rerepRound := []
  rerepCursor := 0
  rerepActive := false

/-- Servers that have just started, with nothing on its way. -/
def sampleCluster
    (peers : List NodeId) :
    Cluster where
  nodes := sampleNode peers
  wire := []

theorem sampleCluster_fresh
    (peers : List NodeId) :
    (sampleCluster peers).Fresh where
  store_eq := fun _ => ⟨sampleStoreConfig, sampleStoreConfig_small, rfl⟩
  queue_eq := fun _ => rfl
  wire_eq := rfl

/-- One byte, stored in the file of whoever takes the block first. -/
def sampleInsert : KvBlock where
  id := sampleBlock
  data := [7]
  tier := .ssd

/--
The block reaches the second node's memory and survives a restart of the third
node in its file; both answer with its payload.
-/
theorem cluster_answers_genuine_payloads_sample :
    ∃ events final,
      LabelledRun (Cluster.Step fun _ => [7])
          (sampleCluster [nodeA, nodeB, nodeC]) events final ∧
        (ClusterEvent.fetch nodeC sampleBlock (some ([7], .ssd)) ∈ events ∧
          ClusterEvent.lookup nodeB [sampleBlock]
            [⟨sampleBlock, .localHit .dram [7]⟩] ∈ events) ∧
        ∀ event ∈ events, event.AnswersWith fun _ => [7] := by
  have genuine : ∀ block ∈ [sampleInsert], block.data = [7] := by
    simp [sampleInsert]
  have run :
      LabelledRun (Cluster.Step fun _ => [7])
        (sampleCluster [nodeA, nodeB, nodeC]) _ _ :=
    .cons (.insert _ nodeC [sampleInsert] genuine) <|
    .cons (.send _ nodeC ⟨nodeB, sampleInsert⟩ (by decide +kernel)) <|
    .cons (.deliver _ ⟨nodeB, sampleInsert⟩ List.mem_cons_self) <|
    .cons
      (.restart _ nodeC (sampleRouter nodeC [nodeA, nodeB, nodeC])
        (.erase sampleBlock) 0 (by simp)) <|
    .cons (.fetch _ nodeC sampleBlock) <|
    .cons (.lookup _ nodeB [sampleBlock]) <|
    .nil _
  refine
    ⟨_, _, run, ⟨?_, ?_⟩,
      cluster_answers_genuine_payloads _ (sampleCluster_fresh _) run⟩
  · refine List.mem_of_getElem? (i := 4) ?_
    exact congrArg (fun answer =>
      some (ClusterEvent.fetch nodeC sampleBlock answer))
      (by decide +kernel)
  · refine List.mem_of_getElem? (i := 5) ?_
    exact congrArg (fun answer =>
      some (ClusterEvent.lookup nodeB [sampleBlock] answer))
      (by decide +kernel)

end Lethe
