import Lethe.Cluster
import Mathlib.Logic.Relation

namespace Lethe

/-!
# The replication queue

Two producers fill the queue of pushes.  A new block is pushed to its replicas
one by one, each under the lock, and a full queue drops the push.  The sweep of
a re-replication round looks whether the pushes of a block fit, releases the
lock to read the block, and then queues all of them.
-/

namespace CacheNode

/-! ## What a push reports -/

/-- Queue the pushes of a new block and name the peers. -/
def replicateOutReported
    (node : CacheNode)
    (block : KvBlock) :
    List NodeId × CacheNode :=
  (node.replicaTargets block.id, node.replicateOut block)

/-- The replicas that got one push each, and those whose push was dropped. -/
structure ReplicateOutcome
    (node : CacheNode)
    (block : KvBlock)
    (given dropped : List NodeId) : Prop where
  distinct : (node.replicaTargets block.id).Nodup
  inOrder : given.Sublist (node.replicaTargets block.id)
  accounted : (given ++ dropped).Perm (node.replicaTargets block.id)
  queue_eq :
    (node.replicateOutReported block).2.queue =
      node.queue ++ pushTasks given block
  drops_eq :
    (node.replicateOutReported block).2.overflowDrops =
      node.overflowDrops + dropped.length

/-- The peers that the call names are those that got a push. -/
def ReportsQueued
    (node : CacheNode)
    (block : KvBlock) : Prop :=
  ∃ given dropped,
    node.ReplicateOutcome block given dropped ∧
      (node.replicateOutReported block).1 = given

variable {node : CacheNode}

/-- The replicas of a route are distinct. -/
theorem nodup_replicaTargets
    (node : CacheNode)
    (id : BlockId) :
    (node.replicaTargets id).Nodup := by
  have distinct := node.router.route_members_nodup id
  exact (distinct.sublist (List.sublist_append_right _ _)).filter _

/-- The first replicas get a push, as many as the queue has room for. -/
theorem replicateOut_outcome
    (node : CacheNode)
    (block : KvBlock) :
    node.ReplicateOutcome block
      ((node.replicaTargets block.id).take
        (replicationQueueMax - node.queue.length))
      ((node.replicaTargets block.id).drop
        (replicationQueueMax - node.queue.length)) where
  distinct := node.nodup_replicaTargets block.id
  inOrder := List.take_sublist _ _
  accounted := by
    rw [List.take_append_drop]
  queue_eq := by
    rw [replicateOutReported, replicateOut, foldl_enqueue_eq]
    simp only [pushTasks, List.map_take]
  drops_eq := by
    rw [replicateOutReported, replicateOut, foldl_enqueue_eq]
    simp only [pushTasks, List.length_drop, List.length_map]

/-- The queue tells who got a push. -/
theorem ReplicateOutcome.given_unique
    {block : KvBlock}
    {given dropped others otherDropped : List NodeId}
    (outcome : node.ReplicateOutcome block given dropped)
    (other : node.ReplicateOutcome block others otherDropped) :
    given = others := by
  have sameTasks : pushTasks given block = pushTasks others block :=
    List.append_cancel_left (outcome.queue_eq.symm.trans other.queue_eq)
  refine List.map_injective_iff.mpr ?_ sameTasks
  intro left right same
  exact congrArg ReplicateTask.peerId same

/--
The call names exactly the peers that got a push if there are no replicas to
push to or the queue has room for all of them, and only then.
-/
theorem replicate_out_reports_queued_iff
    (node : CacheNode)
    (block : KvBlock) :
    node.ReportsQueued block ↔
      node.replicaTargets block.id = [] ∨
        node.queue.length + (node.replicaTargets block.id).length ≤
          replicationQueueMax := by
  have outcome := node.replicateOut_outcome block
  constructor
  · rintro ⟨given, dropped, other, reported⟩
    have all :
        (node.replicaTargets block.id).take
            (replicationQueueMax - node.queue.length) =
          node.replicaTargets block.id :=
      (outcome.given_unique other).trans reported.symm
    have fits := List.take_eq_self_iff _ |>.mp all
    cases targets : node.replicaTargets block.id with
    | nil =>
        exact Or.inl rfl
    | cons first rest =>
        rw [targets, List.length_cons] at fits
        right
        rw [List.length_cons]
        omega
  · intro fits
    refine ⟨_, _, outcome, ?_⟩
    rcases fits with noTargets | room
    · rw [noTargets, List.take_nil]
      exact noTargets
    · rw [List.take_of_length_le (by omega)]
      rfl

/-- A server whose queue is full. -/
def crowdedNode : CacheNode :=
  { sampleNode [nodeA, nodeB, nodeC] nodeA with
    queue := List.replicate replicationQueueMax ⟨nodeB, sampleInsert⟩ }

/-- The only push is dropped, and its peer is named all the same. -/
theorem dropped_push_is_reported :
    (crowdedNode.replicateOutReported sampleInsert).1 = [nodeB] ∧
      (crowdedNode.replicateOutReported sampleInsert).2.queue =
        crowdedNode.queue ∧
      (crowdedNode.replicateOutReported sampleInsert).2.overflowDrops = 1 ∧
      ¬ crowdedNode.ReportsQueued sampleInsert := by
  have outcome := crowdedNode.replicateOut_outcome sampleInsert
  have targets : crowdedNode.replicaTargets sampleInsert.id = [nodeB] := by
    decide +kernel
  have full : replicationQueueMax - crowdedNode.queue.length = 0 := by
    simp [crowdedNode]
  rw [targets, full] at outcome
  refine ⟨targets, ?_, outcome.drops_eq, ?_⟩
  · rw [outcome.queue_eq]
    exact List.append_nil _
  · rintro ⟨given, dropped, other, reported⟩
    have noneGiven : given = [] := other.given_unique outcome
    rw [noneGiven] at reported
    exact List.cons_ne_nil _ _ (targets.symm.trans reported)

end CacheNode

/-! ## Threads that share the queue -/

/-- Where the sweep of a round is; it holds the lock of the round throughout. -/
inductive SweepPoint where
  | idle
  | looping (dispatched : Nat)
  | routed (dispatched : Nat) (id : BlockId) (targets : List NodeId)
  | reading (dispatched : Nat) (id : BlockId) (targets : List NodeId)
  | pushing (dispatched : Nat) (targets : List NodeId) (block : KvBlock)

/--
The length of the queue when the sweep last looked, and the pushes that other
threads have added and taken since.  No thread reads it.
-/
structure CheckWindow where
  queued : Nat := 0
  appended : Nat := 0
  popped : Nat := 0

/--
A server, the pushes that calls in progress have still to queue, and the sweep.
-/
structure QueueThreads where
  node : CacheNode
  calls : List (List ReplicateTask) := []
  sweep : SweepPoint := .idle
  window : CheckWindow := {}

/-- One section under a lock, or a change of the store or the ring. -/
inductive QueueEvent where
  | replicateOut (block : KvBlock)
  | queueNext (call : Nat)
  | pop
  | startRound (round : List BlockId)
  | sweep
  | setStore (store : TieredStore)
  | setRouter (router : Router)

namespace QueueThreads

/-- The sweep leaves its loop and releases the round. -/
def leaveLoop
    (state : QueueThreads) :
    QueueThreads :=
  { state with node := state.node.finishRound, sweep := .idle }

/-- The next section of the sweep. -/
def sweepNext
    (state : QueueThreads) :
    QueueThreads :=
  match state.sweep with
  | .idle =>
      if state.node.rerepActive then
        { state with sweep := .looping 0 }
      else
        state
  | .looping dispatched =>
      if dispatched < reReplicationBatch then
        match state.node.rerepRound[state.node.rerepCursor]? with
        | some id =>
            { state with
              sweep := .routed dispatched id (state.node.rerepTargets id) }
        | none => state.leaveLoop
      else
        state.leaveLoop
  | .routed dispatched id targets =>
      if targets = [] then
        { state with
          node := state.node.nextInRound
          sweep := .looping dispatched }
      else if replicationQueueMax <
          state.node.queue.length + targets.length then
        state.leaveLoop
      else
        { state with
          sweep := .reading dispatched id targets
          window := { queued := state.node.queue.length } }
  | .reading dispatched id targets =>
      let read := state.node.store.get id
      match read.1 with
      | none =>
          { state with
            node := { state.node with store := read.2 }.nextInRound
            sweep := .looping dispatched }
      | some got =>
          { state with
            node := { state.node with store := read.2 }
            sweep :=
              .pushing dispatched targets (CacheNode.pushedBlock id got) }
  | .pushing dispatched targets block =>
      { state with
        node :=
          { state.node with
            queue :=
              state.node.queue ++ pushTasks targets block }.nextInRound
        sweep := .looping (dispatched + 1) }

/-- One step of one of the threads. -/
def next
    (state : QueueThreads) :
    QueueEvent → QueueThreads
  | .replicateOut block =>
      { state with
        calls :=
          state.calls ++
            [pushTasks (state.node.replicaTargets block.id) block] }
  | .queueNext call =>
      match state.calls[call]? with
      | some (task :: rest) =>
          { state with
            node := state.node.enqueue task
            calls := state.calls.set call rest
            window :=
              { state.window with
                appended :=
                  state.window.appended +
                    ((state.node.enqueue task).queue.length -
                      state.node.queue.length) } }
      | _ => state
  | .pop =>
      match state.node.queue with
      | _ :: rest =>
          { state with
            node := { state.node with queue := rest }
            window :=
              { state.window with popped := state.window.popped + 1 } }
      | [] => state
  | .startRound round =>
      match state.sweep with
      | .idle => { state with node := state.node.startRound round }
      | _ => state
  | .sweep => state.sweepNext
  | .setStore store =>
      { state with node := { state.node with store := store } }
  | .setRouter router =>
      { state with node := { state.node with router := router } }

/-- The queue is not longer than it may be. -/
def Bounded
    (state : QueueThreads) : Prop :=
  state.node.queue.length ≤ replicationQueueMax

/--
While the sweep reads a block or is about to push it, the pushes fitted when it
looked, and the queue has changed by what the others added and took.
-/
def Windowed
    (state : QueueThreads) : Prop :=
  match state.sweep with
  | .reading _ _ targets
  | .pushing _ targets _ =>
      state.node.queue.length + state.window.popped =
          state.window.queued + state.window.appended ∧
        state.window.queued + targets.length ≤ replicationQueueMax
  | _ => True

/--
A step that queues the pushes of the sweep comes while the others have not
added more pushes than the sweep left room for and workers have taken since.
-/
def PushFits
    (state : QueueThreads) :
    QueueEvent → Prop
  | .sweep =>
      match state.sweep with
      | .pushing _ targets _ =>
          state.window.appended ≤
            replicationQueueMax -
                (state.window.queued + targets.length) +
              state.window.popped
      | _ => True
  | _ => True

instance
    (state : QueueThreads)
    (event : QueueEvent) :
    Decidable (state.PushFits event) := by
  unfold PushFits
  split
  · split <;> infer_instance
  · infer_instance

variable {state : QueueThreads}

/-- Queueing a push makes the queue longer, but not beyond its bound. -/
theorem enqueue_length
    (node : CacheNode)
    (task : ReplicateTask) :
    node.queue.length ≤ (node.enqueue task).queue.length ∧
      (node.queue.length ≤ replicationQueueMax →
        (node.enqueue task).queue.length ≤ replicationQueueMax) := by
  unfold CacheNode.enqueue
  split
  · exact ⟨Nat.le_refl _, id⟩
  · simp only [List.length_append, List.length_singleton]
    omega

/-- What the other threads do to the queue shows in the window. -/
structure Balanced
    (before after : QueueThreads) : Prop where
  sweep_eq : after.sweep = before.sweep
  queued_eq : after.window.queued = before.window.queued
  balance :
    after.node.queue.length + after.window.popped +
        before.window.appended =
      before.node.queue.length + before.window.popped +
        after.window.appended
  bounded : before.Bounded → after.Bounded

/-- Every step but those of the sweep is balanced and keeps the bound. -/
theorem balanced_next
    (state : QueueThreads)
    {event : QueueEvent}
    (other : event ≠ .sweep) :
    state.Balanced (state.next event) := by
  cases event with
  | sweep =>
      exact (other rfl).elim
  | queueNext call =>
      unfold next
      dsimp only
      split
      · next task rest _ =>
          obtain ⟨longer, bounded⟩ := enqueue_length state.node task
          refine ⟨rfl, rfl, ?_, bounded⟩
          dsimp only
          omega
      · exact ⟨rfl, rfl, rfl, id⟩
  | pop =>
      unfold next
      dsimp only
      split
      · next task rest isQueue =>
          have length : state.node.queue.length = rest.length + 1 := by
            rw [isQueue, List.length_cons]
          refine ⟨rfl, rfl, ?_, ?_⟩
          · dsimp only
            omega
          · unfold Bounded
            dsimp only
            omega
      · exact ⟨rfl, rfl, rfl, id⟩
  | startRound round =>
      unfold next
      dsimp only
      split
      · exact ⟨rfl, rfl, rfl, id⟩
      · exact ⟨rfl, rfl, rfl, id⟩
  | replicateOut block =>
      exact ⟨rfl, rfl, rfl, id⟩
  | setStore store =>
      exact ⟨rfl, rfl, rfl, id⟩
  | setRouter router =>
      exact ⟨rfl, rfl, rfl, id⟩

/-- The other threads leave the sweep's account of the queue right. -/
theorem Windowed.of_balanced
    {after : QueueThreads}
    (windowed : state.Windowed)
    (balanced : state.Balanced after) :
    after.Windowed := by
  obtain ⟨sameSweep, sameQueued, balance, _⟩ := balanced
  unfold Windowed at windowed ⊢
  rw [sameSweep, sameQueued]
  split at windowed
  · omega
  · omega
  · trivial

/-- Leaving the loop leaves the queue alone. -/
@[simp] theorem leaveLoop_queue
    (state : QueueThreads) :
    state.leaveLoop.node.queue = state.node.queue := by
  unfold leaveLoop CacheNode.finishRound
  dsimp only
  split <;> rfl

/-- The sweep changes the queue by its pushes only. -/
theorem sweepNext_queue
    (state : QueueThreads) :
    state.sweepNext.node.queue =
      match state.sweep with
      | .pushing _ targets block =>
          state.node.queue ++ pushTasks targets block
      | _ => state.node.queue := by
  unfold sweepNext
  cases state.sweep with
  | idle =>
      dsimp only
      split <;> rfl
  | looping dispatched =>
      dsimp only
      split
      · split
        · rfl
        · exact state.leaveLoop_queue
      · exact state.leaveLoop_queue
  | routed dispatched id targets =>
      dsimp only
      split
      · rfl
      · split
        · exact state.leaveLoop_queue
        · rfl
  | reading dispatched id targets =>
      dsimp only
      split <;> rfl
  | pushing dispatched targets block =>
      rfl

/-- The sweep keeps its account of the queue. -/
theorem Windowed.sweepNext
    (windowed : state.Windowed) :
    state.sweepNext.Windowed := by
  unfold QueueThreads.sweepNext
  cases atPoint : state.sweep with
  | idle =>
      dsimp only
      split
      · trivial
      · exact windowed
  | looping dispatched =>
      dsimp only
      split
      · split <;> trivial
      · trivial
  | routed dispatched id targets =>
      dsimp only
      split
      · trivial
      · split
        · trivial
        · next fits =>
            exact ⟨rfl, Nat.not_lt.mp fits⟩
  | reading dispatched id targets =>
      dsimp only
      split
      · trivial
      · rw [Windowed, atPoint] at windowed
        exact windowed
  | pushing dispatched targets block =>
      trivial

/-- Every step keeps the account of the sweep. -/
theorem Windowed.next
    {event : QueueEvent}
    (windowed : state.Windowed) :
    (state.next event).Windowed := by
  by_cases isSweep : event = .sweep
  · subst isSweep
    exact windowed.sweepNext
  · exact windowed.of_balanced (state.balanced_next isSweep)

/-- A step keeps the bound exactly if it meets the condition. -/
theorem bounded_next_iff
    {event : QueueEvent}
    (windowed : state.Windowed)
    (bounded : state.Bounded) :
    (state.next event).Bounded ↔ state.PushFits event := by
  by_cases isSweep : event = .sweep
  · subst isSweep
    change state.sweepNext.Bounded ↔ _
    unfold Bounded PushFits
    rw [sweepNext_queue]
    cases atPoint : state.sweep with
    | pushing dispatched targets block =>
        rw [Windowed, atPoint] at windowed
        simp only [pushTasks, List.length_append, List.length_map]
        omega
    | _ =>
        exact iff_of_true bounded trivial
  · have kept := (state.balanced_next isSweep).bounded bounded
    cases event with
    | sweep =>
        exact (isSweep rfl).elim
    | _ =>
        exact iff_of_true kept trivial

/--
The queue stays within its bound throughout a run exactly if, between each look
of the sweep and its pushes, the other threads add no more pushes than the look
left room for and workers take meanwhile.
-/
theorem queue_bounded_iff_pushes_fit
    (state : QueueThreads)
    (idle : state.sweep = .idle)
    (bounded : state.Bounded)
    (events : List QueueEvent) :
    (∀ earlier,
        earlier <+: events →
        (earlier.foldl next state).Bounded) ↔
      ∀ earlier event,
        earlier ++ [event] <+: events →
        (earlier.foldl next state).PushFits event := by
  have windowed : state.Windowed := by
    rw [Windowed, idle]
    trivial
  exact EventRun.good_at_prefixes_iff Windowed.next bounded_next_iff windowed
    bounded

/-! ## A sweep that nobody disturbs -/

/-- The sweep takes some steps while no other thread does. -/
abbrev Sweeps :
    QueueThreads → QueueThreads → Prop :=
  Relation.ReflTransGen fun before after => after = before.next .sweep

/-- The sweep looks at the pushes of a block that has some. -/
theorem sweeps_look
    (state : QueueThreads)
    {dispatched : Nat}
    {id : BlockId}
    {targets : List NodeId}
    (atBlock : state.sweep = .routed dispatched id targets)
    (someTargets : targets ≠ [])
    (fits :
      ¬ replicationQueueMax < state.node.queue.length + targets.length) :
    ∃ after,
      state.Sweeps after ∧
        match (state.node.store.get id).1 with
        | none =>
            after.node =
                { state.node with
                  store := (state.node.store.get id).2 }.nextInRound ∧
              after.sweep = .looping dispatched
        | some got =>
            after.node =
                { state.node with
                  store := (state.node.store.get id).2
                  queue :=
                    state.node.queue ++
                      pushTasks targets
                        (CacheNode.pushedBlock id got) }.nextInRound ∧
              after.sweep = .looping (dispatched + 1) := by
  have looked :
      state.next .sweep =
        { state with
          sweep := .reading dispatched id targets
          window := { queued := state.node.queue.length } } := by
    simp only [next, sweepNext, atBlock, someTargets, fits, ↓reduceIte]
  cases read : (state.node.store.get id).1 with
  | none =>
      refine ⟨_, .head looked.symm (.single rfl), ?_⟩
      simp only [next, sweepNext, read, and_self]
  | some got =>
      refine ⟨_, .head looked.symm (.head rfl (.single rfl)), ?_⟩
      simp only [next, sweepNext, read, and_self]

/-- One handled block, in the sections of the sweep. -/
theorem sweeps_drainStep
    {dispatched : Nat}
    (atLoop : state.sweep = .looping dispatched)
    (unfilled : dispatched < reReplicationBatch) :
    ∃ after,
      state.Sweeps after ∧
        match state.node.drainStep with
        | none =>
            after.node = state.node.finishRound ∧ after.sweep = .idle
        | some (sent, handled) =>
            after.node = handled ∧
              after.sweep = .looping (dispatched + sent) := by
  unfold CacheNode.drainStep
  cases isId : state.node.rerepRound[state.node.rerepCursor]? with
  | none =>
      refine ⟨_, .single rfl, ?_⟩
      simp only [next, sweepNext, atLoop, unfilled, ↓reduceIte, isId]
      exact ⟨rfl, rfl⟩
  | some id =>
      have routed :
          state.next .sweep =
            { state with
              sweep :=
                .routed dispatched id (state.node.rerepTargets id) } := by
        simp only [next, sweepNext, atLoop, unfilled, ↓reduceIte, isId]
      by_cases noTargets : state.node.rerepTargets id = []
      · refine ⟨_, .head routed.symm (.single rfl), ?_⟩
        simp only [next, sweepNext, noTargets, ↓reduceIte, Nat.add_zero,
          and_self]
      · by_cases full :
            replicationQueueMax <
              state.node.queue.length + (state.node.rerepTargets id).length
        · refine ⟨_, .head routed.symm (.single rfl), ?_⟩
          simp only [next, sweepNext, noTargets, full, ↓reduceIte]
          exact ⟨rfl, rfl⟩
        · obtain ⟨after, swept, result⟩ :=
            sweeps_look
              { state with
                sweep :=
                  .routed dispatched id (state.node.rerepTargets id) }
              rfl noTargets full
          refine ⟨after, .head routed.symm swept, ?_⟩
          simp only [noTargets, full, ↓reduceIte]
          cases read : (state.node.store.get id).1 with
          | none =>
              simpa only [read, Nat.add_zero] using result
          | some got =>
              simpa only [read] using result

/-- The whole loop, in the sections of the sweep. -/
theorem sweeps_drainLoop
    (steps : Nat)
    (state : QueueThreads)
    {dispatched : Nat}
    (atLoop : state.sweep = .looping dispatched)
    (enough :
      state.node.rerepRound.length ≤ state.node.rerepCursor + steps) :
    ∃ after,
      state.Sweeps after ∧
        after.node =
          (CacheNode.drainLoop steps dispatched state.node).finishRound ∧
        after.sweep = .idle := by
  induction steps generalizing dispatched state with
  | zero =>
      refine ⟨_, .single rfl, ?_⟩
      have noBlock :
          state.node.rerepRound[state.node.rerepCursor]? = none :=
        List.getElem?_eq_none enough
      simp only [next, sweepNext, atLoop, noBlock, CacheNode.drainLoop]
      split <;> exact ⟨rfl, rfl⟩
  | succ steps inductionHypothesis =>
      unfold CacheNode.drainLoop
      split
      · next unfilled =>
          obtain ⟨middle, swept, result⟩ :=
            sweeps_drainStep atLoop unfilled
          cases stepped : state.node.drainStep with
          | none =>
              simp only [stepped] at result
              exact ⟨middle, swept, result⟩
          | some outcome =>
              obtain ⟨sent, handled⟩ := outcome
              simp only [stepped] at result
              obtain ⟨rfl, atNextLoop⟩ := result
              obtain ⟨_, _, effect⟩ := CacheNode.drainStep_effect stepped
              obtain ⟨sameRound, movedOn, _⟩ := effect.movesOn
              obtain ⟨after, sweptOn, finished⟩ :=
                inductionHypothesis middle atNextLoop
                  (by rw [sameRound]; omega)
              exact ⟨after, swept.trans sweptOn, finished⟩
      · next filled =>
          refine ⟨_, .single rfl, ?_⟩
          simp only [next, sweepNext, atLoop, filled, ↓reduceIte]
          exact ⟨rfl, rfl⟩

/-- Without other threads the sections of a sweep make up one tick. -/
theorem sweeps_drainReReplication
    (idle : state.sweep = .idle) :
    ∃ after,
      state.Sweeps after ∧
        after.node = state.node.drainReReplication ∧
        after.sweep = .idle := by
  unfold CacheNode.drainReReplication
  split
  · next active =>
      have entered :
          state.next .sweep = { state with sweep := .looping 0 } := by
        simp only [next, sweepNext, idle, active, ↓reduceIte]
      obtain ⟨after, swept, isNode, isIdle⟩ :=
        sweeps_drainLoop
          (state.node.rerepRound.length - state.node.rerepCursor)
          { state with sweep := .looping 0 } rfl (by dsimp only; omega)
      exact ⟨after, .head entered.symm swept, isNode, isIdle⟩
  · exact ⟨state, .refl, rfl, idle⟩

/-! ## Runs of one server -/

/-- A server that holds a block whose only other owner is its peer. -/
def holdingThreads : QueueThreads where
  node :=
    { sampleNode [nodeA, nodeB, nodeC] nodeA with
      store :=
        ((sampleNode [nodeA, nodeB, nodeC] nodeA).store.put sampleInsert
          .dram).2 }

/-- Calls for the block, each of which queues its push. -/
def repeatedCalls : Nat → List QueueEvent
  | 0 => []
  | count + 1 =>
      repeatedCalls count ++ [.replicateOut sampleInsert, .queueNext count]

/-- The calls fill the queue with pushes of the block. -/
theorem foldl_repeatedCalls
    (count : Nat)
    (fits : count ≤ replicationQueueMax) :
    (repeatedCalls count).foldl next holdingThreads =
      { holdingThreads with
        node :=
          { holdingThreads.node with
            queue := List.replicate count ⟨nodeB, sampleInsert⟩ }
        calls := List.replicate count []
        window := { appended := count } } := by
  induction count with
  | zero =>
      rfl
  | succ count inductionHypothesis =>
      have targets :
          holdingThreads.node.replicaTargets sampleInsert.id = [nodeB] := by
        decide +kernel
      have sameTargets (queue : List ReplicateTask) :
          ({ holdingThreads.node with queue := queue } :
              CacheNode).replicaTargets sampleInsert.id =
            [nodeB] :=
        targets
      have room :
          ¬ replicationQueueMax ≤
            (List.replicate count
              (⟨nodeB, sampleInsert⟩ : ReplicateTask)).length := by
        rw [List.length_replicate]
        omega
      have last :
          (List.replicate count ([] : List ReplicateTask) ++
              [[⟨nodeB, sampleInsert⟩]])[count]? =
            some [⟨nodeB, sampleInsert⟩] := by
        simp
      rw [repeatedCalls, List.foldl_append,
        inductionHypothesis (by omega)]
      simp only [List.foldl_cons, List.foldl_nil, next, sameTargets,
        pushTasks, List.map_cons, List.map_nil, last, CacheNode.enqueue,
        room, ↓reduceIte]
      simp [List.replicate_succ']

/--
The sweep sees room for its one push, a call takes that place while the sweep
reads the block, and the sweep queues its push all the same.
-/
def overfillingEvents : List QueueEvent :=
  repeatedCalls 1023 ++
    [.startRound [sampleBlock], .sweep, .sweep, .sweep, .sweep,
      .replicateOut sampleInsert, .queueNext 1023, .sweep]

/-- The queue of a fresh server ends up longer than it may be. -/
theorem sweep_overfills_queue :
    holdingThreads.node.queue = [] ∧
      (overfillingEvents.foldl next holdingThreads).node.queue.length =
        1025 ∧
      ¬ (overfillingEvents.foldl next holdingThreads).Bounded := by
  have overfull :
      (overfillingEvents.foldl next holdingThreads).node.queue.length =
        1025 := by
    rw [overfillingEvents, List.foldl_append,
      foldl_repeatedCalls 1023 (by decide)]
    decide +kernel
  refine ⟨rfl, overfull, ?_⟩
  rw [Bounded, overfull]
  decide

/-- A sweep whose block is pushed while nobody else uses the queue. -/
def quietSweep : List QueueEvent :=
  [.startRound [sampleBlock], .sweep, .sweep, .sweep, .sweep, .sweep]

theorem queue_bounded_in_quiet_sweep :
    (quietSweep.foldl next holdingThreads).node.queue.length = 1 ∧
      ∀ earlier,
        earlier <+: quietSweep →
        (earlier.foldl next holdingThreads).Bounded := by
  refine ⟨by decide +kernel, ?_⟩
  refine (queue_bounded_iff_pushes_fit holdingThreads rfl
    (Nat.zero_le _) quietSweep).mpr ?_
  exact EventRun.conditions_of_check (by decide +kernel)

end QueueThreads

end Lethe
