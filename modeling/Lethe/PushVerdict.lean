import Lethe.InsertCounts
import Lethe.Service

namespace Lethe

open TieredStore

/-!
# The verdict on a push

A replication worker pushes a block with an insert call and takes the push for
good if the peer counts the block as new.  The peer counts a block by the
growth of its byte counters, so a push of a block that it holds already, or of
one without bytes, is reported as a failure although the peer has the block.
-/

/-- One block of an insert request. -/
structure InsertRequestBlock where
  id : BlockId
  kvData : List UInt8
  tierHint : UInt32

/-- What the insert handler answers. -/
structure InsertResponse where
  acceptedCount : UInt32
  rejectedCount : UInt32
  deriving DecidableEq, Repr

/-- The tier that a hint of a request names; unknown hints mean memory. -/
def tierOfHint
    (rawHint : UInt32) :
    Tier :=
  if rawHint = 0 then
    .hbm
  else if rawHint = 2 then
    .ssd
  else
    .dram

/-- The block that the insert handler builds from a request. -/
def InsertRequestBlock.kvBlock
    (block : InsertRequestBlock) :
    KvBlock where
  id := block.id
  data := block.kvData
  tier := tierOfHint block.tierHint

/-- Answer an insert request. -/
def CacheNode.serveInsert
    (node : CacheNode)
    (blocks : List InsertRequestBlock) :
    InsertResponse × CacheNode :=
  let inserted := node.insert (blocks.map InsertRequestBlock.kvBlock)
  (⟨inserted.1, UInt32.ofNat blocks.length - inserted.1⟩, inserted.2)

/-- The transport that pushes blocks over remote calls, with its stubs. -/
structure GrpcStreamTransport where
  peers : AList fun _ : NodeId => String

namespace GrpcStreamTransport

/-- Push a block; true if the call succeeds and the peer counts the block. -/
def send
    (transport : GrpcStreamTransport)
    (listening : String → Option NodeId)
    (peerId : NodeId)
    (id : BlockId)
    (data : List UInt8)
    (world : ServedCluster) :
    Bool × ServedCluster :=
  match transport.peers.lookup peerId with
  | none =>
      (false, world)
  | some address =>
      match
        world.attempt
          (fun node => node.serveInsert [⟨id, data, 1⟩])
          (listening address) with
      | (.ok response, after) =>
          (decide (0 < response.acceptedCount), after)
      | (_, after) =>
          (false, after)

end GrpcStreamTransport

/-- What the replication workers count. -/
structure ReplicatorCounts where
  replicateAttempts : UInt64 := 0
  replicateFailures : UInt64 := 0

/-- A worker handles one task. -/
def ReplicatorCounts.work
    (counts : ReplicatorCounts)
    (transport : Option GrpcStreamTransport)
    (listening : String → Option NodeId)
    (task : ReplicateTask)
    (world : ServedCluster) :
    ReplicatorCounts × ServedCluster :=
  let attempted :=
    { counts with replicateAttempts := counts.replicateAttempts + 1 }
  let failed :=
    { attempted with replicateFailures := counts.replicateFailures + 1 }
  match transport with
  | none =>
      (failed, world)
  | some transport =>
      let sent :=
        transport.send listening task.peerId task.block.id task.block.data
          world
      (if sent.1 then attempted else failed, sent.2)

namespace CacheNode

/-- The insert handler stores a pushed block as the receiver of a push does. -/
theorem serveInsert_push
    (node : CacheNode)
    (block : KvBlock) :
    let served := node.serveInsert [⟨block.id, block.data, 1⟩]
    (0 < served.1.acceptedCount ↔
      (node.insertOne (receivedBlock block)).1 = true) ∧
    served.2.store = (node.store.put (receivedBlock block) .dram).2 := by
  have received :
      ([⟨block.id, block.data, 1⟩] : List InsertRequestBlock).map
          InsertRequestBlock.kvBlock =
        [receivedBlock block] :=
    rfl
  simp only [serveInsert, received, insert]
  refine ⟨?_, ?_⟩
  · cases (node.insertOne (receivedBlock block)).1 <;> decide
  · exact store_insertOne node (receivedBlock block)

/-- The sum of the counters when a tier takes a new block. -/
theorem totalUsed_of_absent
    {node : CacheNode}
    (sound : node.store.SsdSound)
    {block : KvBlock}
    {tier : Tier}
    (accepted : (node.store.putToTier block tier).1 = true)
    (absent : node.store.copy tier block.id = none) :
    ({ node with store := (node.store.putToTier block tier).2 } :
      CacheNode).totalUsed =
      addSize node.totalUsed block.data.length := by
  have own := usedBytes_putToTier_of_absent sound accepted absent
  have others (query : Tier) (different : query ≠ tier) :=
    node.store.usedBytes_putToTier_of_ne block different
  cases tier with
  | hbm =>
      simp only [totalUsed, own, others .dram (by decide),
        others .ssd (by decide), addSize, sizeRange]
      omega
  | dram =>
      simp only [totalUsed, own, others .hbm (by decide),
        others .ssd (by decide), addSize, sizeRange]
      omega
  | ssd =>
      simp only [totalUsed, own, others .hbm (by decide),
        others .dram (by decide), addSize, sizeRange]
      omega

/--
The tier that takes a pushed block lacks it, the block has bytes and the sum of
the counters has room for them; a block that no tier takes is not there.
-/
def PushCountedRight
    (node : CacheNode)
    (block : KvBlock) :
    Prop :=
  match node.store.takingTier (receivedBlock block) .dram with
  | some tier =>
      node.store.copy tier block.id = none ∧
        block.data ≠ [] ∧
        node.totalUsed + block.data.length < sizeRange
  | none =>
      ¬ node.store.Resident block.id

instance
    (node : CacheNode)
    (block : KvBlock) :
    Decidable (node.PushCountedRight block) :=
  match takes : node.store.takingTier (receivedBlock block) .dram with
  | some tier =>
      decidable_of_iff
        (node.store.copy tier block.id = none ∧
          block.data ≠ [] ∧
          node.totalUsed + block.data.length < sizeRange)
        (by simp [PushCountedRight, takes])
  | none =>
      decidable_of_iff
        (¬ node.store.Resident block.id)
        (by simp [PushCountedRight, takes])

/-- The sum of the counters grows exactly by bytes that do not wrap it. -/
theorem totalUsed_lt_addSize_iff
    (node : CacheNode)
    {data : List UInt8}
    (sized : data.length < sizeRange) :
    node.totalUsed < addSize node.totalUsed data.length ↔
      data ≠ [] ∧ node.totalUsed + data.length < sizeRange := by
  have bounded : node.totalUsed < sizeRange :=
    Nat.mod_lt _ (by decide)
  rw [← List.length_pos_iff]
  simp only [addSize, sizeRange] at bounded sized ⊢
  omega

/-- A pushed block is counted exactly if it is there afterwards. -/
theorem counted_iff_held_iff
    {node : CacheNode}
    (sound : node.store.SsdSound)
    {block : KvBlock}
    (sized : block.data.length < sizeRange) :
    ((node.insertOne (receivedBlock block)).1 = true ↔
        (node.store.put (receivedBlock block) .dram).2.Resident block.id) ↔
      node.PushCountedRight block := by
  have held :
      (node.store.put (receivedBlock block) .dram).2.Resident block.id ↔
        node.store.Resident block.id ∨
          (node.store.takingTier (receivedBlock block) .dram).isSome = true :=
    resident_put_self sound (receivedBlock block)
  have hint : (receivedBlock block).tier = .dram :=
    rfl
  rw [held, insertOne_true_iff, hint, put_eq_takingTier]
  unfold PushCountedRight
  cases takes : node.store.takingTier (receivedBlock block) .dram with
  | none =>
      simp
  | some tier =>
      have accepted := accepted_of_takingTier takes
      simp only [Option.isSome_some, true_and, or_true, iff_true]
      cases copied : node.store.copy tier block.id with
      | some data =>
          have unchanged :
              (node.store.putToTier (receivedBlock block) tier).2 =
                node.store :=
            putToTier_of_present sound copied
          simp [unchanged]
      | none =>
          rw [totalUsed_of_absent sound accepted copied]
          simpa [receivedBlock] using
            node.totalUsed_lt_addSize_iff sized

end CacheNode

/-- What the worker and the peer know after a call that went through. -/
theorem send_of_answered
    {transport : GrpcStreamTransport}
    {listening : String → Option NodeId}
    {task : ReplicateTask}
    {address : String}
    {name : NodeId}
    {world : ServedCluster}
    (isPeer : transport.peers.lookup task.peerId = some address)
    (listens : listening address = some name)
    (answered : world.faults.head?.join = none) :
    let sent :=
      transport.send listening task.peerId task.block.id task.block.data world
    let node := world.cluster.nodes name
    (sent.1 = true ↔
      (node.insertOne (CacheNode.receivedBlock task.block)).1 = true) ∧
    (sent.2.cluster.nodes name).store =
      (node.store.put (CacheNode.receivedBlock task.block) .dram).2 := by
  have served := (world.cluster.nodes name).serveInsert_push task.block
  simp only [GrpcStreamTransport.send, isPeer, ServedCluster.attempt, listens,
    answered, decide_eq_true_eq]
  refine ⟨served.1, ?_⟩
  rw [← served.2]
  simp [Cluster.update]

/--
A push whose call goes through is acknowledged exactly if the peer holds the
block afterwards, and a worker counts a failure exactly if it does not, if and
only if the peer counts the block right.
-/
theorem push_acknowledged_iff_held_iff
    {transport : GrpcStreamTransport}
    {listening : String → Option NodeId}
    {task : ReplicateTask}
    {address : String}
    {name : NodeId}
    {world : ServedCluster}
    (isPeer : transport.peers.lookup task.peerId = some address)
    (listens : listening address = some name)
    (answered : world.faults.head?.join = none)
    (sound : (world.cluster.nodes name).store.SsdSound)
    (sized : task.block.data.length < sizeRange)
    (counts : ReplicatorCounts) :
    let sent :=
      transport.send listening task.peerId task.block.id task.block.data world
    let worked := counts.work (some transport) listening task world
    let after := sent.2.cluster.nodes name
    ((sent.1 = true ↔ after.store.Resident task.block.id) ∧
        (worked.1.replicateFailures = counts.replicateFailures ↔
          after.store.Resident task.block.id)) ↔
      (world.cluster.nodes name).PushCountedRight task.block := by
  intro sent worked after
  obtain ⟨verdict, stored⟩ := send_of_answered isPeer listens answered
  have failures :
      worked.1.replicateFailures = counts.replicateFailures ↔
        sent.1 = true := by
    simp only [worked, ReplicatorCounts.work]
    change (if sent.1 = true then _ else _ : ReplicatorCounts).replicateFailures
      = _ ↔ _
    split
    · next good =>
        simp [good]
    · next bad =>
        simp [bad]
  rw [failures, and_self, ← CacheNode.counted_iff_held_iff sound sized]
  simp only [sent, after, verdict, stored]

/-- Two servers, the second of which holds the sample block. -/
def samplePushWorld : ServedCluster where
  cluster :=
    (sampleCluster [nodeA, nodeB]).update nodeB
      ((sampleNode [nodeA, nodeB] nodeB).insert
        [CacheNode.receivedBlock sampleInsert]).2
  faults := []

/-- A transport that knows the second server. -/
def sampleTransport : GrpcStreamTransport where
  peers := AList.singleton nodeB "b"

/-- The second server answers at every address. -/
def sampleListening : String → Option NodeId :=
  fun _ => some nodeB

/-- A push of a block that the peer holds is reported as a failure. -/
theorem push_of_held_block_fails :
    let task : ReplicateTask := ⟨nodeB, sampleInsert⟩
    let sent :=
      sampleTransport.send sampleListening task.peerId task.block.id
        task.block.data samplePushWorld
    let worked :=
      ({} : ReplicatorCounts).work (some sampleTransport)
        sampleListening task samplePushWorld
    sent.1 = false ∧
      (sent.2.cluster.nodes nodeB).store.Resident task.block.id ∧
      worked.1.replicateFailures = 1 := by
  decide +kernel

/-- A push to a server that has just started. -/
theorem push_acknowledged_iff_held_iff_sample :
    let task : ReplicateTask := ⟨nodeB, sampleInsert⟩
    let world : ServedCluster := ⟨sampleCluster [nodeA, nodeB], []⟩
    let sent :=
      sampleTransport.send sampleListening task.peerId task.block.id
        task.block.data world
    sent.1 = true ↔
      (sent.2.cluster.nodes nodeB).store.Resident task.block.id := by
  have sound :
      (sampleNode [nodeA, nodeB] nodeB).store.SsdSound :=
    create_ssdSound sampleStoreConfig _
  have right :=
    push_acknowledged_iff_held_iff
      (show sampleTransport.peers.lookup
          (⟨nodeB, sampleInsert⟩ : ReplicateTask).peerId = some "b" by
        decide +kernel)
      (show sampleListening "b" = some nodeB from rfl)
      (show (⟨sampleCluster [nodeA, nodeB], []⟩ :
          ServedCluster).faults.head?.join = none from rfl)
      sound (by decide) {}
  exact (right.mpr (by decide +kernel)).1

end Lethe
