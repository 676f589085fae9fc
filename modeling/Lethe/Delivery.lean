import Lethe.Cluster

namespace Lethe

/-!
# Delivery of pushes

Workers take pushes out of the queues, and each push on its way is delivered
once, to a server that has room for it.  The receiver inserts the block as if
a client had sent it and may queue pushes of its own.
-/

namespace CacheNode

/-- Queueing pushes appends those that fit and counts the others. -/
theorem foldl_enqueue
    (tasks : List ReplicateTask)
    (node : CacheNode) :
    ∃ pushed drops,
      pushed.Sublist tasks ∧
        pushed.length + drops = tasks.length ∧
        tasks.foldl enqueue node =
          { node with
            queue := node.queue ++ pushed
            overflowDrops := node.overflowDrops + drops } := by
  refine
    ⟨tasks.take (replicationQueueMax - node.queue.length),
      (tasks.drop (replicationQueueMax - node.queue.length)).length,
      List.take_sublist _ _, ?_, foldl_enqueue_eq tasks node⟩
  rw [← List.length_append, List.take_append_drop]

/-- Queueing pushes leaves the store alone. -/
theorem store_replicateOut
    (node : CacheNode)
    (block : KvBlock) :
    (node.replicateOut block).store = node.store := by
  unfold replicateOut
  obtain ⟨_, _, _, _, queued⟩ :=
    foldl_enqueue (pushTasks (node.replicaTargets block.id) block) node
  rw [queued]

/-- What inserting one block does to a server. -/
structure Inserted
    (node : CacheNode)
    (block : KvBlock)
    (after : CacheNode)
    (pushed : List ReplicateTask) : Prop where
  pushed_sublist :
    pushed.Sublist (pushTasks (node.replicaTargets block.id) block)
  after_eq :
    ∃ drops,
      after =
        { node with
          store := (node.store.put block block.tier).2
          queue := node.queue ++ pushed
          overflowDrops := node.overflowDrops + drops }

/-- Inserting one block stores it and queues some of its pushes. -/
theorem insert_inserted
    (node : CacheNode)
    (block : KvBlock) :
    ∃ pushed, Inserted node block (node.insert [block]).2 pushed := by
  simp only [insert, insertOne]
  split
  · obtain ⟨pushed, drops, fits, _, result⟩ :=
      foldl_enqueue (pushTasks (node.replicaTargets block.id) block)
        { node with store := (node.store.put block block.tier).2 }
    exact ⟨pushed, fits, drops, result⟩
  · exact ⟨[], List.nil_sublist _, 0, by simp⟩

/-- An accepted block was stored, and all pushes are queued unless dropped. -/
theorem insert_accepted
    {node : CacheNode}
    {block : KvBlock}
    (accepted : (node.insert [block]).1 = 1)
    (noDrop :
      (node.insert [block]).2.overflowDrops = node.overflowDrops) :
    (node.store.put block block.tier).1.isSome = true ∧
      (node.insert [block]).2 =
        { node with
          store := (node.store.put block block.tier).2
          queue :=
            node.queue ++
              pushTasks (node.replicaTargets block.id) block } := by
  simp only [insert, insertOne] at accepted noDrop ⊢
  split at accepted
  · next isNew =>
      rw [if_pos isNew] at noDrop ⊢
      refine ⟨isNew.1, ?_⟩
      obtain ⟨pushed, drops, fits, counted, result⟩ :=
        foldl_enqueue (pushTasks (node.replicaTargets block.id) block)
          { node with store := (node.store.put block block.tier).2 }
      have queuedAll :
          replicateOut
              { node with store := (node.store.put block block.tier).2 }
              block =
            _ := result
      rw [queuedAll] at noDrop
      have noneDropped : drops = 0 := by
        simpa using noDrop
      subst noneDropped
      rw [queuedAll, fits.eq_of_length counted]
      rfl
  · simp at accepted

end CacheNode

namespace Cluster

/-- A push that a server has queued or that is on its way. -/
def Queued
    (cluster : Cluster)
    (name : NodeId)
    (task : ReplicateTask) : Prop :=
  task ∈ (cluster.nodes name).queue ∨ task ∈ cluster.wire

/-- A queued push stays queued when a server's queue only grows. -/
theorem Queued.update
    {cluster : Cluster}
    {name replaced : NodeId}
    {task : ReplicateTask}
    (queued : cluster.Queued name task)
    {node : CacheNode}
    (grows : (cluster.nodes replaced).queue ⊆ node.queue) :
    (cluster.update replaced node).Queued name task := by
  rcases queued with waiting | onWire
  · refine Or.inl ?_
    by_cases isReplaced : name = replaced
    · subst isReplaced
      rw [update_nodes_self]
      exact grows waiting
    · rwa [update_nodes_of_ne _ isReplaced]
  · exact Or.inr onWire

/-- What workers and deliveries do. -/
inductive PushEvent where
  | send (node : NodeId)
  | deliver (task : ReplicateTask)

/-- The cluster after a receiver has taken a push off the wire. -/
def delivered
    (cluster : Cluster)
    (task : ReplicateTask) :
    Cluster :=
  { (cluster.update task.peerId
      ((cluster.nodes task.peerId).insert
        [CacheNode.receivedBlock task.block]).2) with
    wire := cluster.wire.erase task }

/-- Steps of workers and deliveries. -/
inductive Push :
    Cluster → PushEvent → Cluster → Prop where
  | send
      (cluster : Cluster)
      (name : NodeId)
      (task : ReplicateTask)
      (oldest : (cluster.nodes name).queue.head? = some task) :
      Push cluster (.send name)
        { (cluster.update name (cluster.nodes name).popQueue) with
          wire := task :: cluster.wire }
  | deliver
      (cluster : Cluster)
      (task : ReplicateTask)
      (onWire : task ∈ cluster.wire)
      (room :
        ((cluster.nodes task.peerId).store.put
          (CacheNode.receivedBlock task.block) .dram).1.isSome = true) :
      Push cluster (.deliver task) (cluster.delivered task)

/-- Consistent files are a property of all copies. -/
theorem carries_of_consistent
    {cluster : Cluster}
    (consistent :
      ∀ name, (cluster.nodes name).store.SsdConsistent) :
    cluster.Carries fun _ _ => True :=
  ⟨fun name => ⟨⟨consistent name, fun _ => trivial⟩, fun _ _ => trivial⟩,
    fun _ _ => trivial⟩

namespace Push

variable
  {before after : Cluster}
  {event : PushEvent}

/-- Pushes only change the stores and the queues. -/
theorem node_eq
    (step : Push before event after)
    (name : NodeId) :
    ∃ store queue drops,
      after.nodes name =
        { before.nodes name with
          store := store
          queue := queue
          overflowDrops := drops } := by
  cases step with
  | send sender task oldest =>
      by_cases same : name = sender
      · subst same
        exact ⟨_, _, _, update_nodes_self ..⟩
      · exact ⟨_, _, _, update_nodes_of_ne _ same _⟩
  | deliver task onWire room =>
      by_cases same : name = task.peerId
      · subst same
        obtain ⟨pushed, inserted⟩ :=
          CacheNode.insert_inserted (before.nodes task.peerId)
            (CacheNode.receivedBlock task.block)
        obtain ⟨drops, result⟩ := inserted.after_eq
        exact ⟨_, _, _, (update_nodes_self ..).trans result⟩
      · exact ⟨_, _, _, update_nodes_of_ne _ same _⟩

/-- Pushes keep a property of all bytes. -/
theorem carries
    {holds : BlockId → List UInt8 → Prop}
    (carried : before.Carries holds)
    (step : Push before event after) :
    after.Carries holds := by
  cases step with
  | send sender task oldest =>
      exact carried.send oldest
  | deliver task onWire room =>
      exact
        ⟨(carried.deliver onWire).nodes, fun kept member =>
          carried.wire kept (List.mem_of_mem_erase member)⟩

/-- A block becomes resident where a push of it is delivered. -/
theorem resident_iff
    {holds : BlockId → List UInt8 → Prop}
    (carried : before.Carries holds)
    (step : Push before event after)
    (name : NodeId)
    (id : BlockId) :
    (after.nodes name).store.Resident id ↔
      (before.nodes name).store.Resident id ∨
        ∃ task,
          event = .deliver task ∧
            task.peerId = name ∧ task.block.id = id := by
  cases step with
  | send sender task oldest =>
      by_cases same : name = sender
      · subst same
        simp [CacheNode.popQueue]
      · simp [same]
  | deliver task onWire room =>
      by_cases same : name = task.peerId
      · subst same
        obtain ⟨pushed, inserted⟩ :=
          CacheNode.insert_inserted (before.nodes task.peerId)
            (CacheNode.receivedBlock task.block)
        obtain ⟨drops, result⟩ := inserted.after_eq
        have stored :=
          TieredStore.resident_put
            (carried.nodes task.peerId).store.consistent.ssdSound
            (CacheNode.receivedBlock task.block) .dram id
        simp only [delivered, update_nodes_self, result]
        rw [show (CacheNode.receivedBlock task.block).tier = .dram from rfl,
          stored, room]
        simp [CacheNode.receivedBlock, eq_comm]
      · simp [delivered, same, Ne.symm same]

/-- Resident blocks stay resident. -/
theorem keeps_resident
    {holds : BlockId → List UInt8 → Prop}
    (carried : before.Carries holds)
    (step : Push before event after)
    {name : NodeId}
    {id : BlockId}
    (resident : (before.nodes name).store.Resident id) :
    (after.nodes name).store.Resident id :=
  (step.resident_iff carried name id).mpr (Or.inl resident)

/-- A push stays queued or on its way until it is delivered. -/
theorem keeps_task
    (step : Push before event after)
    {name : NodeId}
    {task : ReplicateTask}
    (queued : before.Queued name task) :
    after.Queued name task ∨ event = .deliver task := by
  cases step with
  | send sender sent oldest =>
      refine Or.inl ?_
      rcases queued with waiting | onWire
      · by_cases same : name = sender
        · subst same
          obtain ⟨rest, isQueue⟩ :=
            List.head?_eq_some_iff.mp oldest
          rw [isQueue] at waiting
          rcases List.mem_cons.mp waiting with isSent | later
          · exact Or.inr (by simp [isSent])
          · exact Or.inl (by simpa [CacheNode.popQueue, isQueue])
        · exact Or.inl (by simpa [same])
      · exact Or.inr (List.mem_cons_of_mem _ onWire)
  | deliver received onWire room =>
      rcases queued with waiting | inFlight
      · refine Or.inl (Or.inl ?_)
        by_cases same : name = received.peerId
        · subst same
          obtain ⟨pushed, inserted⟩ :=
            CacheNode.insert_inserted (before.nodes received.peerId)
              (CacheNode.receivedBlock received.block)
          obtain ⟨drops, result⟩ := inserted.after_eq
          simp [delivered, result, waiting]
        · simpa [delivered, same]
      · by_cases same : task = received
        · exact Or.inr (by rw [same])
        · exact Or.inl (Or.inr ((List.mem_erase_of_ne same).mpr inFlight))

/-- A new push is one that the receiver of an older push of the block adds. -/
theorem origin_of_task
    (step : Push before event after)
    {name : NodeId}
    {task : ReplicateTask}
    (queued : after.Queued name task) :
    (∃ sender, before.Queued sender task) ∨
      ∃ received,
        received ∈ before.wire ∧
          task.block.id = received.block.id ∧
          task.peerId ∈
            (before.nodes name).replicaTargets task.block.id := by
  cases step with
  | send sender sent oldest =>
      refine Or.inl ?_
      rcases queued with waiting | inFlight
      · refine ⟨name, Or.inl ?_⟩
        by_cases same : name = sender
        · subst same
          simp only [update_nodes_self, CacheNode.popQueue] at waiting
          exact List.mem_of_mem_tail waiting
        · simpa [same] using waiting
      · rcases List.mem_cons.mp inFlight with isSent | earlier
        · subst isSent
          exact ⟨sender, Or.inl (List.mem_of_head? oldest)⟩
        · exact ⟨name, Or.inr earlier⟩
  | deliver received onWire room =>
      rcases queued with waiting | inFlight
      · by_cases same : name = received.peerId
        · subst same
          obtain ⟨pushed, inserted⟩ :=
            CacheNode.insert_inserted (before.nodes received.peerId)
              (CacheNode.receivedBlock received.block)
          obtain ⟨drops, result⟩ := inserted.after_eq
          simp only [delivered, update_nodes_self, result] at waiting
          rcases List.mem_append.mp waiting with earlier | new
          · exact Or.inl ⟨_, Or.inl earlier⟩
          · obtain ⟨peer, target, isTask⟩ :=
              List.mem_map.mp (inserted.pushed_sublist.subset new)
            subst isTask
            exact Or.inr ⟨received, onWire, rfl, target⟩
        · refine Or.inl ⟨name, Or.inl ?_⟩
          simpa [delivered, same] using waiting
      · exact Or.inl ⟨name, Or.inr (List.mem_of_mem_erase inFlight)⟩

end Push

end Cluster

end Lethe
