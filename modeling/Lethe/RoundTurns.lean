import Lethe.ReplicationQueue

namespace Lethe

/-!
# Turns of a re-replication round

The sweep handles the blocks of a round one after another, over any number of
ticks.  Between two ticks workers take pushes out of the queue, new blocks are
pushed to their replicas, and the store changes in any way.  A tick stops at a
block whose pushes do not fit and comes back to it, so every block has exactly
one turn.
-/

/-- The turn of one block: the server before and after. -/
structure RoundTurn where
  id : BlockId
  before : CacheNode
  after : CacheNode

namespace RoundTurn

/-- The turn handles the block under the cursor. -/
structure Step
    (node : CacheNode)
    (turn : RoundTurn)
    (next : CacheNode) : Prop where
  before_eq : turn.before = node
  after_eq : turn.after = next
  found : node.rerepRound[node.rerepCursor]? = some turn.id
  handled : ∃ sent, node.drainStep = some (sent, next)

/-- The turn queued pushes. -/
def queues
    (turn : RoundTurn) :
    Bool :=
  turn.before.queue.length < turn.after.queue.length

/--
A block that its turn finds in the store is pushed once to every other member
of its route, within the bound of the queue; nothing is queued for any other.
-/
structure Complete
    (self : NodeId)
    (router : Router)
    (turn : RoundTurn) : Prop where
  distinct :
    ((router.route turn.id).members.filter fun peer => peer ≠ self).Nodup
  pushed :
    ∀ got,
      (turn.before.store.get turn.id).1 = some got →
      turn.after.queue =
        turn.before.queue ++
          pushTasks
            ((router.route turn.id).members.filter fun peer => peer ≠ self)
            (CacheNode.pushedBlock turn.id got)
  passed :
    (turn.before.store.get turn.id).1 = none →
    turn.after.queue = turn.before.queue
  fits :
    turn.queues = true →
    turn.after.queue.length ≤ replicationQueueMax

end RoundTurn

namespace CacheNode

/-- The turns of one tick, in order. -/
def drainTurns :
    Nat → Nat → CacheNode → List RoundTurn
  | 0, _, _ => []
  | steps + 1, dispatched, node =>
      if dispatched < reReplicationBatch then
        match node.rerepRound[node.rerepCursor]?, node.drainStep with
        | some id, some (sent, next) =>
            ⟨id, node, next⟩ :: drainTurns steps (dispatched + sent) next
        | _, _ => []
      else
        []

/-- The turns of a tick, none if no round is active. -/
def tickTurns
    (node : CacheNode) :
    List RoundTurn :=
  if node.rerepActive then
    drainTurns (node.rerepRound.length - node.rerepCursor) 0 node
  else
    []

/-- The loop of a tick is the run of its turns. -/
theorem run_drainTurns
    (steps dispatched : Nat)
    (node : CacheNode) :
    LabelledRun RoundTurn.Step node (drainTurns steps dispatched node)
      (drainLoop steps dispatched node) := by
  induction steps generalizing dispatched node with
  | zero =>
      exact .nil node
  | succ steps inductionHypothesis =>
      unfold drainTurns drainLoop
      split
      · cases stepped : node.drainStep with
        | none =>
            cases node.rerepRound[node.rerepCursor]? <;> exact .nil node
        | some outcome =>
            obtain ⟨sent, next⟩ := outcome
            obtain ⟨id, found, _⟩ := drainStep_effect stepped
            simp only [found]
            exact .cons ⟨rfl, rfl, found, sent, stepped⟩
              (inductionHypothesis (dispatched + sent) next)
      · exact .nil node

/-- The targets of a round are the members of the route but the server. -/
theorem rerepTargets_eq_filter
    (node : CacheNode)
    (id : BlockId) :
    node.rerepTargets id =
      (node.router.route id).members.filter fun peer =>
        peer ≠ node.nodeId := by
  rw [RouteResult.members, List.filter_append]
  rfl

/-- Ending a round changes only whether it is active. -/
theorem finishRound_eq
    (node : CacheNode) :
    node.finishRound =
      { node with rerepActive := node.finishRound.rerepActive } := by
  unfold finishRound
  by_cases atEnd : node.rerepRound.length ≤ node.rerepCursor
  · rw [if_pos atEnd]
  · rw [if_neg atEnd]

end CacheNode

/-- Every turn is complete. -/
theorem RoundTurn.Step.complete
    {node next : CacheNode}
    {turn : RoundTurn}
    (step : RoundTurn.Step node turn next) :
    turn.Complete node.nodeId node.router := by
  obtain ⟨rfl, rfl, found, sent, stepped⟩ := step
  obtain ⟨id, isFound, handled⟩ := CacheNode.drainStep_cases stepped
  obtain rfl : turn.id = id :=
    Option.some.inj (found.symm.trans isFound)
  have targets := turn.before.rerepTargets_eq_filter turn.id
  have distinct :=
    (turn.before.router.route_members_nodup turn.id).filter fun peer =>
      decide (peer ≠ turn.before.nodeId)
  rcases handled with
    ⟨covered, _, after⟩ | ⟨missing, _, after⟩ | ⟨got, read, fits, _, after⟩
  · have kept : turn.after.queue = turn.before.queue := by
      rw [after]
      rfl
    refine ⟨distinct, fun got _ => ?_, fun _ => kept, ?_⟩
    · rw [← targets, covered, kept]
      exact (List.append_nil _).symm
    · simp [RoundTurn.queues, kept]
  · have kept : turn.after.queue = turn.before.queue := by
      rw [after]
      rfl
    refine ⟨distinct, fun got read => ?_, fun _ => kept, ?_⟩
    · rw [missing] at read
      simp at read
    · simp [RoundTurn.queues, kept]
  · have grown :
        turn.after.queue =
          turn.before.queue ++
            pushTasks (turn.before.rerepTargets turn.id)
              (CacheNode.pushedBlock turn.id got) := by
      rw [after]
      rfl
    refine ⟨distinct, fun other otherRead => ?_, fun missing => ?_,
      fun _ => ?_⟩
    · rw [read] at otherRead
      rw [grown, ← targets, Option.some.inj otherRead]
    · rw [read] at missing
      simp at missing
    · rw [grown, List.length_append, pushTasks, List.length_map]
      exact fits

/-- What a list of turns, one after another, does to the round. -/
structure RoundTurn.Progress
    (node : CacheNode)
    (turns : List RoundTurn)
    (next : CacheNode) : Prop where
  nodeId_eq : next.nodeId = node.nodeId
  router_eq : next.router = node.router
  round_eq : next.rerepRound = node.rerepRound
  active_eq : next.rerepActive = node.rerepActive
  ids_eq :
    turns.map RoundTurn.id =
      (node.rerepRound.drop node.rerepCursor).take turns.length
  cursor_eq : next.rerepCursor = node.rerepCursor + turns.length
  cursor_le :
    node.rerepCursor ≤ node.rerepRound.length →
    next.rerepCursor ≤ node.rerepRound.length
  complete : ∀ turn ∈ turns, turn.Complete node.nodeId node.router

/-- Turns handle the blocks from the cursor on, one by one. -/
theorem RoundTurn.progress_of_run
    {node last : CacheNode}
    {turns : List RoundTurn}
    (run : LabelledRun RoundTurn.Step node turns last) :
    RoundTurn.Progress node turns last := by
  induction run with
  | nil node =>
      exact
        ⟨rfl, rfl, rfl, rfl, rfl, rfl, fun bound => bound, by simp⟩
  | @cons node middle last turn rest step tail later =>
      obtain ⟨sent, stepped⟩ := step.handled
      obtain ⟨_, _, effect⟩ := CacheNode.drainStep_effect stepped
      obtain ⟨sameRound, movedOn, sameActive, sameName, sameRing⟩ :=
        effect.movesOn
      obtain ⟨inside, isId⟩ := List.getElem?_eq_some_iff.mp step.found
      refine
        ⟨later.nodeId_eq.trans sameName, later.router_eq.trans sameRing,
          later.round_eq.trans sameRound, later.active_eq.trans sameActive,
          ?_, ?_, ?_, ?_⟩
      · rw [List.map_cons, later.ids_eq, sameRound, movedOn,
          List.length_cons, List.drop_eq_getElem_cons inside, isId,
          List.take_succ_cons]
      · rw [later.cursor_eq, movedOn, List.length_cons]
        omega
      · intro _
        have bounded := later.cursor_le
        rw [sameRound, movedOn] at bounded
        exact bounded inside
      · intro other member
        rcases List.mem_cons.mp member with isTurn | inRest
        · rw [isTurn]
          exact step.complete
        · rw [← sameName, ← sameRing]
          exact later.complete other inRest

/-- A block whose pushes are queued counts as dispatched. -/
theorem CacheNode.drainStep_sent
    {node next : CacheNode}
    {sent : Nat}
    (stepped : node.drainStep = some (sent, next)) :
    sent ≤ 1 ∧ (node.queue.length < next.queue.length → sent = 1) := by
  obtain ⟨id, _,
    ⟨_, rfl, rfl⟩ | ⟨_, rfl, rfl⟩ | ⟨got, _, _, rfl, rfl⟩⟩ :=
    drainStep_cases stepped
  · exact ⟨Nat.zero_le _, fun longer => (Nat.lt_irrefl _ longer).elim⟩
  · exact ⟨Nat.zero_le _, fun longer => (Nat.lt_irrefl _ longer).elim⟩
  · exact ⟨Nat.le_refl _, fun _ => rfl⟩

/-- A tick queues the pushes of no more blocks than a batch has. -/
theorem CacheNode.countP_drainTurns
    (steps dispatched : Nat)
    (node : CacheNode)
    (unfilled : dispatched ≤ reReplicationBatch) :
    dispatched + (drainTurns steps dispatched node).countP RoundTurn.queues ≤
      reReplicationBatch := by
  induction steps generalizing dispatched node with
  | zero =>
      exact unfilled
  | succ steps inductionHypothesis =>
      unfold drainTurns
      split
      · next room =>
          split
          · next id sent next _ stepped =>
              obtain ⟨atMostOne, counts⟩ := drainStep_sent stepped
              have rest :=
                inductionHypothesis (dispatched + sent) next (by omega)
              rw [List.countP_cons]
              split
              · next queued =>
                  have isOne := counts (of_decide_eq_true queued)
                  omega
              · omega
          · exact unfilled
      · exact unfilled

/-! ## Whole rounds -/

/-- What may happen while a round is active, besides a new round. -/
inductive RoundEvent where
  | tick
  | pop
  | queuePush (task : ReplicateTask)
  | setStore (store : TieredStore)

/-- A tick: the server before and after it, and its turns. -/
structure RoundTick where
  before : CacheNode
  turns : List RoundTurn
  after : CacheNode

/-- The server goes through the turns; then the round may be over. -/
def RoundTick.Runs
    (tick : RoundTick) : Prop :=
  ∃ last,
    LabelledRun RoundTurn.Step tick.before tick.turns last ∧
      tick.after = { last with rerepActive := tick.after.rerepActive }

/-- A server and all ticks so far.  No step reads them. -/
structure RoundRun where
  node : CacheNode
  ticks : List RoundTick := []

namespace RoundRun

/-- The turns of all ticks so far. -/
def turns
    (state : RoundRun) :
    List RoundTurn :=
  state.ticks.flatMap RoundTick.turns

/-- One step. -/
def next
    (state : RoundRun) :
    RoundEvent → RoundRun
  | .tick =>
      { node := state.node.drainReReplication
        ticks :=
          state.ticks ++
            [⟨state.node, state.node.tickTurns,
              state.node.drainReReplication⟩] }
  | .pop =>
      { state with
        node := { state.node with queue := state.node.queue.tail } }
  | .queuePush task =>
      { state with node := state.node.enqueue task }
  | .setStore store =>
      { state with node := { state.node with store := store } }

/-- What holds of the turns so far. -/
structure Covers
    (start : CacheNode)
    (round : List BlockId)
    (state : RoundRun) : Prop where
  nodeId_eq : state.node.nodeId = start.nodeId
  router_eq : state.node.router = start.router
  round_eq : state.node.rerepRound = round
  cursor_le : state.node.rerepCursor ≤ round.length
  active_or :
    state.node.rerepActive = true ∨ state.node.rerepCursor = round.length
  inOrder :
    state.turns.map RoundTurn.id = round.take state.node.rerepCursor
  complete :
    ∀ turn ∈ state.turns, turn.Complete start.nodeId start.router
  batches :
    ∀ tick ∈ state.ticks,
      tick.turns.countP RoundTurn.queues ≤ reReplicationBatch
  runs : ∀ tick ∈ state.ticks, tick.Runs

variable
  {start : CacheNode}
  {round : List BlockId}
  {state : RoundRun}

namespace Covers

/-- A new round has had no turn. -/
theorem startRound
    (start : CacheNode)
    (round : List BlockId) :
    Covers start round { node := start.startRound round } := by
  refine
    ⟨rfl, rfl, rfl, Nat.zero_le _, ?_, rfl, List.forall_mem_nil _,
      List.forall_mem_nil _, List.forall_mem_nil _⟩
  cases round with
  | nil =>
      exact Or.inr rfl
  | cons first rest =>
      exact Or.inl rfl

variable (covers : Covers start round state)

include covers

/-- Steps that leave the round alone keep what holds of it. -/
theorem of_same_round
    {node : CacheNode}
    (sameName : node.nodeId = state.node.nodeId)
    (sameRing : node.router = state.node.router)
    (sameRound : node.rerepRound = state.node.rerepRound)
    (sameCursor : node.rerepCursor = state.node.rerepCursor)
    (sameActive : node.rerepActive = state.node.rerepActive) :
    Covers start round { state with node := node } where
  nodeId_eq := sameName.trans covers.nodeId_eq
  router_eq := sameRing.trans covers.router_eq
  round_eq := sameRound.trans covers.round_eq
  cursor_le := sameCursor ▸ covers.cursor_le
  active_or := by
    dsimp only
    rw [sameActive, sameCursor]
    exact covers.active_or
  inOrder := by
    dsimp only
    rw [sameCursor]
    exact covers.inOrder
  complete := covers.complete
  batches := covers.batches
  runs := covers.runs

/-- A tick is added to those before. -/
theorem addTick
    {turns : List RoundTurn}
    {last after : CacheNode}
    (run : LabelledRun RoundTurn.Step state.node turns last)
    (after_eq : after = { last with rerepActive := after.rerepActive })
    (few : turns.countP RoundTurn.queues ≤ reReplicationBatch)
    (activeOr : state.node.rerepActive = true ∨ turns = []) :
    Covers start round
      { node := last
        ticks := state.ticks ++ [⟨state.node, turns, after⟩] } := by
  have progress := RoundTurn.progress_of_run run
  exact
    { nodeId_eq := progress.nodeId_eq.trans covers.nodeId_eq
      router_eq := progress.router_eq.trans covers.router_eq
      round_eq := progress.round_eq.trans covers.round_eq
      cursor_le := by
        have bounded := progress.cursor_le
        rw [covers.round_eq] at bounded
        exact bounded covers.cursor_le
      active_or := by
        dsimp only
        rw [progress.active_eq, progress.cursor_eq]
        rcases activeOr with active | noTurns
        · exact Or.inl active
        · rw [noTurns]
          exact covers.active_or
      inOrder := by
        have earlier := covers.inOrder
        unfold RoundRun.turns at earlier ⊢
        rw [List.flatMap_append, List.map_append, earlier,
          List.flatMap_singleton, progress.ids_eq, covers.round_eq,
          progress.cursor_eq, List.take_add]
      complete := by
        unfold RoundRun.turns
        rw [List.flatMap_append, List.flatMap_singleton,
          List.forall_mem_append]
        refine ⟨covers.complete, ?_⟩
        rw [← covers.nodeId_eq, ← covers.router_eq]
        exact progress.complete
      batches :=
        List.forall_mem_append.mpr
          ⟨covers.batches, List.forall_mem_singleton.mpr few⟩
      runs :=
        List.forall_mem_append.mpr
          ⟨covers.runs, List.forall_mem_singleton.mpr ⟨last, run, after_eq⟩⟩ }

/-- The round ends once its last block had its turn. -/
theorem finishRound :
    Covers start round { state with node := state.node.finishRound } := by
  unfold CacheNode.finishRound
  split
  · next atEnd =>
      rw [covers.round_eq] at atEnd
      exact
        ⟨covers.nodeId_eq, covers.router_eq, covers.round_eq,
          covers.cursor_le, Or.inr (Nat.le_antisymm covers.cursor_le atEnd),
          covers.inOrder, covers.complete, covers.batches, covers.runs⟩
  · exact covers

/-- A tick. -/
theorem tick :
    Covers start round (state.next .tick) := by
  unfold RoundRun.next CacheNode.drainReReplication CacheNode.tickTurns
  cases active : state.node.rerepActive with
  | false =>
      exact covers.addTick (.nil state.node) rfl (Nat.zero_le _) (Or.inr rfl)
  | true =>
      have run :=
        CacheNode.run_drainTurns
          (state.node.rerepRound.length - state.node.rerepCursor) 0
          state.node
      have few :=
        CacheNode.countP_drainTurns
          (state.node.rerepRound.length - state.node.rerepCursor) 0
          state.node (Nat.zero_le _)
      rw [Nat.zero_add] at few
      exact
        (covers.addTick run (CacheNode.finishRound_eq _) few
          (Or.inl active)).finishRound

/-- Every step keeps what holds of the round. -/
theorem next
    (event : RoundEvent) :
    Covers start round (state.next event) := by
  cases event with
  | tick =>
      exact covers.tick
  | pop =>
      exact covers.of_same_round rfl rfl rfl rfl rfl
  | queuePush task =>
      unfold RoundRun.next CacheNode.enqueue
      dsimp only
      split
      · exact covers.of_same_round rfl rfl rfl rfl rfl
      · exact covers.of_same_round rfl rfl rfl rfl rfl
  | setStore store =>
      exact covers.of_same_round rfl rfl rfl rfl rfl

end Covers

/--
In every run of a round, each block has its turn in order and is pushed to all
other members of its route if it is found, no tick queues the pushes of more
than a batch of blocks, and once the round is over all of it was handled.  The
turns of a tick lead from the server before it to the server after it.
-/
structure SkipsNothing
    (start : CacheNode)
    (round : List BlockId)
    (state : RoundRun) : Prop where
  inOrder : state.turns.map RoundTurn.id <+: round
  finished :
    state.node.rerepActive = false →
    state.turns.map RoundTurn.id = round
  complete :
    ∀ turn ∈ state.turns, turn.Complete start.nodeId start.router
  batches :
    ∀ tick ∈ state.ticks,
      tick.turns.countP RoundTurn.queues ≤ reReplicationBatch
  runs : ∀ tick ∈ state.ticks, tick.Runs

theorem round_skips_nothing
    (start : CacheNode)
    (round : List BlockId)
    (events : List RoundEvent) :
    SkipsNothing start round
      (events.foldl next { node := start.startRound round }) := by
  have covers :
      Covers start round
        (events.foldl next { node := start.startRound round }) :=
    List.foldlRecOn events next (Covers.startRound start round)
      fun _ held event _ => held.next event
  refine ⟨?_, ?_, covers.complete, covers.batches, covers.runs⟩
  · rw [covers.inOrder]
    exact List.take_prefix _ _
  · intro inactive
    rcases covers.active_or with active | atEnd
    · rw [inactive] at active
      simp at active
    · rw [covers.inOrder, atEnd, List.take_length]

/-! ## Rounds come to an end -/

/-- With an empty queue a tick handles the block under the cursor. -/
theorem cursor_lt_tick
    (node : CacheNode)
    (active : node.rerepActive = true)
    {id : BlockId}
    (found : node.rerepRound[node.rerepCursor]? = some id)
    (few : (node.rerepTargets id).length ≤ replicationQueueMax)
    (empty : node.queue = []) :
    node.rerepCursor < node.drainReReplication.rerepCursor := by
  obtain ⟨inside, _⟩ := List.getElem?_eq_some_iff.mp found
  obtain ⟨steps, left⟩ :
      ∃ steps, node.rerepRound.length - node.rerepCursor = steps + 1 :=
    ⟨node.rerepRound.length - node.rerepCursor - 1, by omega⟩
  obtain ⟨⟨sent, next⟩, stepped⟩ :
      ∃ outcome, node.drainStep = some outcome := by
    have fits :
        ¬ replicationQueueMax <
          node.queue.length + (node.rerepTargets id).length := by
      rw [empty, List.length_nil]
      omega
    unfold CacheNode.drainStep
    rw [found]
    dsimp only
    rw [if_neg fits]
    split
    · exact ⟨_, rfl⟩
    · split <;> exact ⟨_, rfl⟩
  have progress :=
    RoundTurn.progress_of_run
      (CacheNode.run_drainTurns (steps + 1) 0 node)
  have someTurn :
      0 < (CacheNode.drainTurns (steps + 1) 0 node).length := by
    simp [CacheNode.drainTurns, found, stepped, reReplicationBatch]
  rw [CacheNode.drainReReplication, if_pos active, left,
    CacheNode.finishRound_eq]
  dsimp only
  rw [progress.cursor_eq]
  omega

/-- Workers empty the queue. -/
theorem foldl_pop
    (count : Nat)
    (state : RoundRun) :
    (List.replicate count RoundEvent.pop).foldl next state =
      { state with
        node :=
          { state.node with queue := state.node.queue.drop count } } := by
  induction count generalizing state with
  | zero =>
      rfl
  | succ count inductionHypothesis =>
      rw [List.replicate_succ, List.foldl_cons, inductionHypothesis]
      simp [next]

/--
If no block has more targets than the queue has places, workers and ticks can
bring every round to its end.
-/
theorem round_can_finish
    (few :
      ∀ id ∈ round,
        ((start.router.route id).members.filter fun peer =>
          peer ≠ start.nodeId).length ≤ replicationQueueMax)
    (covers : Covers start round state) :
    ∃ events : List RoundEvent,
      (events.foldl next state).node.rerepActive = false := by
  induction left : round.length - state.node.rerepCursor
    using Nat.strong_induction_on generalizing state with
  | _ left inductionHypothesis =>
      cases active : state.node.rerepActive with
      | false =>
          exact ⟨[], active⟩
      | true =>
          have emptied :=
            foldl_pop state.node.queue.length state
          rw [List.drop_length] at emptied
          have coversEmptied :
              Covers start round
                { state with node := { state.node with queue := [] } } :=
            covers.of_same_round rfl rfl rfl rfl rfl
          cases found : round[state.node.rerepCursor]? with
          | none =>
              refine ⟨[.tick], ?_⟩
              have atEnd := List.getElem?_eq_none_iff.mp found
              rw [← covers.round_eq] at atEnd
              simp [next, CacheNode.drainReReplication, active,
                Nat.sub_eq_zero_of_le atEnd, CacheNode.drainLoop,
                CacheNode.finishRound, atEnd]
          | some id =>
              have fewTargets := few id (List.mem_of_getElem? found)
              rw [← covers.nodeId_eq, ← covers.router_eq,
                ← CacheNode.rerepTargets_eq_filter] at fewTargets
              rw [← covers.round_eq] at found
              have further :=
                cursor_lt_tick { state.node with queue := [] } active found
                  fewTargets rfl
              obtain ⟨inside, _⟩ := List.getElem?_eq_some_iff.mp found
              rw [covers.round_eq] at inside
              obtain ⟨events, finished⟩ :=
                inductionHypothesis _
                  (left ▸ Nat.sub_lt_sub_left inside further)
                  coversEmptied.tick rfl
              refine
                ⟨List.replicate state.node.queue.length .pop ++
                    .tick :: events, ?_⟩
              rw [List.foldl_append, emptied]
              exact finished

end RoundRun

end Lethe
