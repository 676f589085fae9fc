import Lethe.ReplicationQueue
import Lethe.Library.WorkerPool

namespace Lethe

open WorkerPool

/-!
# The workers of the replicator

Four workers wait on a condition variable for pushes that calls and the sweep
queue.  Each push wakes a worker while the lock is held.  The destructor clears
the running flag under the lock, wakes all workers, and joins them before the
sweep, so that pushes may still be queued when no worker is left.
-/

/-- Number of worker threads. -/
def replicationWorkers : Nat :=
  4

/-- A push in the hands of a worker, before and after it is counted. -/
inductive PushWork where
  | taken (task : ReplicateTask)
  | sending (task : ReplicateTask)
  deriving DecidableEq

namespace PushWork

/-- The push itself. -/
def task : PushWork → ReplicateTask
  | taken task => task
  | sending task => task

/-- Steps before the transport is called. -/
def size : PushWork → Nat
  | taken _ => 1
  | sending _ => 0

end PushWork

/-- The pushes in the hands of a worker. -/
def pushesHeld : Worker PushWork → List ReplicateTask
  | .busy work => [work.task]
  | _ => []

/-- Whether a worker is calling the transport. -/
def isSending : Worker PushWork → Bool
  | .busy (.sending _) => true
  | _ => false

/--
The pushes queued, taken, and done with their verdicts, and those queued when
no worker was left.  No thread reads it.
-/
structure WorkerLog where
  queued : List ReplicateTask := []
  taken : List ReplicateTask := []
  done : List (ReplicateTask × Bool) := []
  stranded : List ReplicateTask := []

/-- The threads that fill the queue, the workers, and their counters. -/
structure ReplicatorThreads where
  producers : QueueThreads
  workers : List (Worker PushWork)
  running : Bool := true
  attempts : UInt64 := 0
  failures : UInt64 := 0
  log : WorkerLog := {}

/-- One lock section, or one step of a worker or of the destructor. -/
inductive ReplicatorEvent where
  | produce (event : QueueEvent) (choices : List Nat)
  | look (worker : Nat)
  | wakeUp (worker : Nat)
  | beginSend (worker : Nat)
  | endSend (worker : Nat) (ok : Bool)
  | stop
  | notifyAll

namespace ReplicatorThreads

/-- The queue, the flag and the workers. -/
def pool
    (state : ReplicatorThreads) :
    Pool ReplicateTask PushWork :=
  ⟨state.producers.node.queue, state.running, state.workers⟩

/-- One notification for each push, each of a chosen worker. -/
def notifyEach :
    List Nat → List ReplicateTask → List (Worker PushWork) →
      List (Worker PushWork)
  | _, [], workers => workers
  | choices, _ :: tasks, workers =>
      notifyEach choices.tail tasks
        (Pool.notifyOne (choices.headD 0) workers)

/-- The pushes that an event of a producer queues. -/
def appended
    (state : ReplicatorThreads)
    (event : QueueEvent) :
    List ReplicateTask :=
  (state.producers.next event).node.queue.drop
    state.producers.node.queue.length

/-- A section of a call, of the sweep, or of the store and the ring. -/
def produce
    (state : ReplicatorThreads)
    (event : QueueEvent)
    (choices : List Nat) :
    ReplicatorThreads :=
  { state with
    producers := state.producers.next event
    workers := notifyEach choices (state.appended event) state.workers
    log :=
      { state.log with
        queued := state.log.queued ++ state.appended event
        stranded :=
          if state.pool.Empty then
            state.log.stranded ++ state.appended event
          else
            state.log.stranded } }

/-- A worker takes the lock and looks at the queue. -/
def look
    (state : ReplicatorThreads)
    (worker : Nat) :
    ReplicatorThreads :=
  match state.workers[worker]? with
  | some .ready =>
      match state.producers.node.queue with
      | task :: _ =>
          { state with
            producers := state.producers.next .pop
            workers := state.workers.set worker (.busy (.taken task))
            log := { state.log with taken := state.log.taken ++ [task] } }
      | [] =>
          { state with
            workers :=
              state.workers.set worker
                (if state.running then .asleep else .gone) }
  | _ => state

/-- One step of one of the threads. -/
def next
    (state : ReplicatorThreads) :
    ReplicatorEvent → ReplicatorThreads
  | .produce .pop _ => state
  | .produce event choices => state.produce event choices
  | .look worker => state.look worker
  | .wakeUp worker =>
      match state.workers[worker]? with
      | some .asleep =>
          { state with workers := state.workers.set worker .ready }
      | _ => state
  | .beginSend worker =>
      match state.workers[worker]? with
      | some (.busy (.taken task)) =>
          { state with
            workers := state.workers.set worker (.busy (.sending task))
            attempts := state.attempts + 1 }
      | _ => state
  | .endSend worker ok =>
      match state.workers[worker]? with
      | some (.busy (.sending task)) =>
          { state with
            workers := state.workers.set worker .ready
            failures := if ok then state.failures else state.failures + 1
            log := { state.log with done := state.log.done ++ [(task, ok)] } }
      | _ => state
  | .stop => { state with running := false }
  | .notifyAll => { state with workers := state.workers.map Worker.woken }

/-- The threads of a server right after the constructor. -/
def start
    (node : CacheNode) :
    ReplicatorThreads where
  producers := { node := { node with queue := [] } }
  workers := List.replicate replicationWorkers .ready

/-- The state after some events. -/
def run
    (node : CacheNode)
    (events : List ReplicatorEvent) :
    ReplicatorThreads :=
  events.foldl next (start node)

/-! ## Steps of the pool -/

/-- One submission for each push. -/
def submissions :
    List Nat → List ReplicateTask →
      List (Step ReplicateTask PushWork)
  | _, [] => []
  | choices, task :: tasks =>
      .submit (choices.headD 0) task :: submissions choices.tail tasks

/-- The steps of the pool that an event amounts to. -/
def poolSteps
    (state : ReplicatorThreads) :
    ReplicatorEvent → List (Step ReplicateTask PushWork)
  | .produce .pop _ => []
  | .produce event choices => submissions choices (state.appended event)
  | .look worker => [.look worker]
  | .wakeUp worker => [.wakeUp worker]
  | .beginSend worker =>
      match state.workers[worker]? with
      | some (.busy (.taken task)) => [.proceed worker (.sending task)]
      | _ => []
  | .endSend worker _ =>
      match state.workers[worker]? with
      | some (.busy (.sending _)) => [.finish worker]
      | _ => []
  | .stop => [.stop]
  | .notifyAll => [.notifyAll]

variable {state : ReplicatorThreads}

theorem foldl_submissions
    (choices : List Nat)
    (tasks : List ReplicateTask)
    (pool : Pool ReplicateTask PushWork) :
    (submissions choices tasks).foldl (Pool.next PushWork.taken) pool =
      { pool with
        queue := pool.queue ++ tasks
        workers := notifyEach choices tasks pool.workers } := by
  induction tasks generalizing choices pool with
  | nil =>
      rw [List.append_nil]
      rfl
  | cons task tasks inductionHypothesis =>
      rw [submissions, List.foldl_cons, inductionHypothesis]
      simp only [Pool.next, notifyEach, List.append_assoc,
        List.singleton_append]

/-- Producers only append to the queue. -/
theorem queue_grows
    (producers : QueueThreads)
    {event : QueueEvent}
    (notPop : event ≠ .pop) :
    producers.node.queue <+: (producers.next event).node.queue := by
  cases event with
  | pop =>
      exact (notPop rfl).elim
  | queueNext call =>
      simp only [QueueThreads.next, CacheNode.enqueue]
      grind
  | sweep =>
      simp only [QueueThreads.next]
      rw [QueueThreads.sweepNext_queue]
      grind
  | startRound round =>
      simp only [QueueThreads.next, CacheNode.startRound]
      grind
  | replicateOut | setStore | setRouter =>
      exact List.prefix_rfl

theorem queue_next
    (state : ReplicatorThreads)
    {event : QueueEvent}
    (notPop : event ≠ .pop) :
    (state.producers.next event).node.queue =
      state.producers.node.queue ++ state.appended event := by
  obtain ⟨rest, isRest⟩ := queue_grows state.producers notPop
  unfold appended
  rw [← isRest, List.drop_left]

/-- Every event but a pop of its own is a section of a producer. -/
theorem next_produce
    (state : ReplicatorThreads)
    {event : QueueEvent}
    (notPop : event ≠ .pop)
    (choices : List Nat) :
    state.next (.produce event choices) = state.produce event choices ∧
      state.poolSteps (.produce event choices) =
        submissions choices (state.appended event) := by
  cases event with
  | pop =>
      exact (notPop rfl).elim
  | _ =>
      exact ⟨rfl, rfl⟩

/-- An event is some steps of the pool. -/
theorem pool_next
    (state : ReplicatorThreads)
    (event : ReplicatorEvent) :
    (state.next event).pool =
      (state.poolSteps event).foldl (Pool.next PushWork.taken)
        state.pool := by
  cases event with
  | produce event choices =>
      by_cases isPop : event = .pop
      · subst isPop
        rfl
      · obtain ⟨isProduce, isSteps⟩ := state.next_produce isPop choices
        rw [isProduce, isSteps, foldl_submissions]
        unfold pool produce
        dsimp only
        rw [state.queue_next isPop]
  | stop | notifyAll =>
      rfl
  | look | wakeUp | beginSend | endSend =>
      simp only [next, look, poolSteps, Pool.next, Pool.look, pool,
        QueueThreads.next, List.foldl_cons, List.foldl_nil]
      grind [Pool.next]

/-- What every step of the pool preserves every event preserves. -/
theorem pool_invariant
    (holds : Pool ReplicateTask PushWork → Prop)
    (preserved :
      ∀ {pool} step, holds pool → holds (pool.next PushWork.taken step))
    (before : holds state.pool)
    (event : ReplicatorEvent) :
    holds (state.next event).pool := by
  rw [pool_next]
  exact List.foldlRecOn _ _ before fun _ held step _ => preserved step held

/-! ## No wake-up is lost -/

/--
While a worker sleeps, each queued push has a worker of its own that is about
to look at the queue.
-/
theorem queue_length_le_of_asleep
    (node : CacheNode)
    (events : List ReplicatorEvent)
    (sleeps : .asleep ∈ (run node events).workers) :
    (run node events).producers.node.queue.length ≤
      (run node events).workers.countP Worker.isReady := by
  have covered : (run node events).pool.Covered := by
    refine List.foldlRecOn events next
      (motive := fun state => state.pool.Covered) ?_ ?_
    · intro _
      exact Nat.zero_le _
    · intro state held event _
      exact pool_invariant _ (fun step covered => covered.next _ step) held
        event
  exact covered (List.countP_pos_iff.2 ⟨_, sleeps, rfl⟩)

/-- Four workers go to sleep before a push is queued. -/
def queueWhileAsleep : List ReplicatorEvent :=
  [ .look 0, .look 1, .look 2, .look 3,
    .produce (.replicateOut sampleInsert) [], .produce (.queueNext 0) [2] ]

/-- Three of the four go on sleeping. -/
theorem queue_length_le_of_asleep_three :
    (run QueueThreads.holdingThreads.node queueWhileAsleep).workers =
        [.asleep, .asleep, .ready, .asleep] ∧
      (run QueueThreads.holdingThreads.node
        queueWhileAsleep).producers.node.queue.length ≤ 1 := by
  have isWorkers :
      (run QueueThreads.holdingThreads.node queueWhileAsleep).workers =
        [.asleep, .asleep, .ready, .asleep] := by
    decide +kernel
  refine ⟨isWorkers, ?_⟩
  refine (queue_length_le_of_asleep _ _ ?_).trans ?_
  · rw [isWorkers]
    exact List.mem_cons_self
  · rw [isWorkers]
    exact Nat.le_refl _

/-! ## Every push is taken and done once -/

/-- The log, the queue, the workers and the counters of 64 bits agree. -/
structure Accounted
    (state : ReplicatorThreads) :
    Prop where
  inOrder :
    state.log.queued = state.log.taken ++ state.producers.node.queue
  takenOnce :
    state.log.taken.Perm
      (state.log.done.map Prod.fst ++ state.workers.flatMap pushesHeld)
  attempts_eq :
    state.attempts =
      UInt64.ofNat
        (state.log.done.length + state.workers.countP isSending)
  failures_eq :
    state.failures =
      UInt64.ofNat (state.log.done.countP fun entry => !entry.2)

theorem accounted_start
    (node : CacheNode) :
    (start node).Accounted where
  inOrder := rfl
  takenOnce := List.Perm.nil
  attempts_eq := rfl
  failures_eq := rfl

/-- A notification changes no worker that holds a push. -/
theorem notifyOne_held
    (choice : Nat)
    (workers : List (Worker PushWork)) :
    (workers.flatMap pushesHeld).Perm
        ((Pool.notifyOne choice workers).flatMap pushesHeld) ∧
      (Pool.notifyOne choice workers).countP isSending =
        workers.countP isSending := by
  rcases Pool.notifyOne_cases choice workers with
    ⟨index, slept, wakes⟩ | ⟨_, same⟩
  · rw [wakes]
    have held := ListUpdate.flatMap_set_perm slept pushesHeld .ready
    have sending := ListUpdate.countP_set_add slept isSending .ready
    simp only [pushesHeld, List.append_nil] at held
    exact ⟨held.symm, by simpa [isSending] using sending⟩
  · rw [same]
    exact ⟨List.Perm.refl _, rfl⟩

theorem notifyEach_held
    (choices : List Nat)
    (tasks : List ReplicateTask)
    (workers : List (Worker PushWork)) :
    (workers.flatMap pushesHeld).Perm
        ((notifyEach choices tasks workers).flatMap pushesHeld) ∧
      (notifyEach choices tasks workers).countP isSending =
        workers.countP isSending := by
  induction tasks generalizing choices workers with
  | nil =>
      exact ⟨List.Perm.refl _, rfl⟩
  | cons task tasks inductionHypothesis =>
      obtain ⟨oneHeld, oneSending⟩ :=
        notifyOne_held (choices.headD 0) workers
      obtain ⟨restHeld, restSending⟩ :=
        inductionHypothesis choices.tail
          (Pool.notifyOne (choices.headD 0) workers)
      exact ⟨oneHeld.trans restHeld, restSending.trans oneSending⟩

section Accounts

variable (accounted : state.Accounted)

include accounted

theorem Accounted.produce
    {event : QueueEvent}
    (notPop : event ≠ .pop)
    (choices : List Nat) :
    (state.produce event choices).Accounted := by
  obtain ⟨held, sending⟩ :=
    notifyEach_held choices (state.appended event) state.workers
  refine ⟨?_, ?_, ?_, accounted.failures_eq⟩
  · simp only [ReplicatorThreads.produce]
    rw [state.queue_next notPop, accounted.inOrder, List.append_assoc]
  · exact accounted.takenOnce.trans (held.append_left _)
  · simp only [ReplicatorThreads.produce]
    rw [sending]
    exact accounted.attempts_eq

/-- A worker goes on with what it holds, and may begin to send it. -/
theorem Accounted.set
    {worker : Nat}
    {attempts : UInt64}
    {before after : Worker PushWork}
    (found : state.workers[worker]? = some before)
    (sameHeld : pushesHeld before = pushesHeld after)
    (begun :
      attempts + UInt64.ofNat (if isSending before then 1 else 0) =
        state.attempts + UInt64.ofNat (if isSending after then 1 else 0)) :
    Accounted
      { state with
        workers := state.workers.set worker after
        attempts := attempts } := by
  have held := ListUpdate.flatMap_set_perm found pushesHeld after
  have sending := ListUpdate.countP_set_add found isSending after
  rw [sameHeld, List.perm_append_right_iff] at held
  refine ⟨accounted.inOrder, ?_, ?_, accounted.failures_eq⟩
  · exact accounted.takenOnce.trans (held.symm.append_left _)
  · dsimp only
    rw [accounted.attempts_eq, ← UInt64.ofNat_add, Nat.add_assoc, ← sending,
      ← Nat.add_assoc, UInt64.ofNat_add] at begun
    exact (UInt64.add_left_inj _).mp begun

theorem Accounted.look
    (worker : Nat) :
    (state.look worker).Accounted := by
  unfold ReplicatorThreads.look
  split
  next looked =>
    split
    next task rest queued =>
      have held :=
        ListUpdate.flatMap_set_perm looked pushesHeld (.busy (.taken task))
      have sending :=
        ListUpdate.countP_set_add looked isSending (.busy (.taken task))
      simp only [pushesHeld, PushWork.task, List.append_nil] at held
      simp only [isSending, Bool.false_eq_true, if_false,
        Nat.add_zero] at sending
      refine ⟨?_, ?_, ?_, accounted.failures_eq⟩
      · simp only [QueueThreads.next, queued]
        rw [accounted.inOrder, queued, List.append_assoc,
          List.singleton_append]
      · refine (accounted.takenOnce.append_right [task]).trans ?_
        rw [List.append_assoc]
        exact held.symm.append_left _
      · dsimp only
        rw [sending]
        exact accounted.attempts_eq
    next isEmpty =>
      refine accounted.set looked ?_ ?_
      · split <;> rfl
      · cases state.running <;> rfl
  next =>
    exact accounted

theorem Accounted.endSend
    {worker : Nat}
    {task : ReplicateTask}
    (worked : state.workers[worker]? = some (.busy (.sending task)))
    (ok : Bool) :
    Accounted
      { state with
        workers := state.workers.set worker .ready
        failures := if ok then state.failures else state.failures + 1
        log :=
          { state.log with done := state.log.done ++ [(task, ok)] } } := by
  have held := ListUpdate.flatMap_set_perm worked pushesHeld .ready
  have sending := ListUpdate.countP_set_add worked isSending .ready
  simp only [pushesHeld, PushWork.task, List.append_nil] at held
  simp only [isSending, Bool.false_eq_true, if_false, if_true] at sending
  refine ⟨accounted.inOrder, ?_, ?_, ?_⟩
  · dsimp only
    rw [List.map_append, List.append_assoc]
    refine accounted.takenOnce.trans (List.Perm.append_left _ ?_)
    exact held.symm.trans List.perm_append_comm
  · dsimp only
    rw [accounted.attempts_eq, List.length_append, List.length_singleton]
    congr 1
    omega
  · dsimp only
    rw [List.countP_append, List.countP_singleton, accounted.failures_eq]
    cases ok with
    | false =>
        exact (UInt64.ofNat_add _ _).symm
    | true =>
        rfl

theorem Accounted.notifyAll :
    Accounted
      { state with workers := state.workers.map Worker.woken } := by
  have held :
      ∀ worker : Worker PushWork,
        pushesHeld worker.woken = pushesHeld worker := by
    intro worker
    cases worker with
    | _ =>
        rfl
  have sending :
      isSending ∘ Worker.woken = isSending := by
    funext worker
    cases worker with
    | _ =>
        rfl
  refine ⟨accounted.inOrder, ?_, ?_, accounted.failures_eq⟩
  · dsimp only
    rw [List.flatMap_map]
    simp only [held]
    exact accounted.takenOnce
  · dsimp only
    rw [List.countP_map, sending]
    exact accounted.attempts_eq

theorem Accounted.next
    (event : ReplicatorEvent) :
    (state.next event).Accounted := by
  cases event with
  | produce event choices =>
      by_cases isPop : event = .pop
      · subst isPop
        exact accounted
      · rw [(state.next_produce isPop choices).1]
        exact accounted.produce isPop choices
  | look worker =>
      exact accounted.look worker
  | wakeUp worker =>
      simp only [ReplicatorThreads.next]
      split
      next slept =>
        exact accounted.set slept rfl rfl
      next =>
        exact accounted
  | beginSend worker =>
      simp only [ReplicatorThreads.next]
      split
      next task worked =>
        exact accounted.set worked rfl (UInt64.add_zero _)
      next =>
        exact accounted
  | endSend worker ok =>
      simp only [ReplicatorThreads.next]
      split
      next task worked =>
        exact accounted.endSend worked ok
      next =>
        exact accounted
  | stop =>
      exact ⟨accounted.inOrder, accounted.takenOnce, accounted.attempts_eq,
        accounted.failures_eq⟩
  | notifyAll =>
      exact accounted.notifyAll

theorem Accounted.foldl
    (events : List ReplicatorEvent) :
    (events.foldl ReplicatorThreads.next state).Accounted :=
  List.foldlRecOn events ReplicatorThreads.next accounted
    fun _ held event _ => held.next event

end Accounts

/--
Whatever the threads do, pushes are taken in the order in which they were
queued, each taken push is in one worker's hands or was done once, and the
counters tell, modulo 2^64, the pushes begun and those that failed.
-/
theorem accounted_run
    (node : CacheNode)
    (events : List ReplicatorEvent) :
    (run node events).Accounted :=
  (accounted_start node).foldl events

/-! ## Shutting down -/

/-- Whether an event gets a worker on. -/
def getsOn
    (state : ReplicatorThreads) :
    ReplicatorEvent → Bool
  | .look worker =>
      match state.workers[worker]? with
      | some .ready => true
      | _ => false
  | .beginSend worker =>
      match state.workers[worker]? with
      | some (.busy (.taken _)) => true
      | _ => false
  | .endSend worker _ =>
      match state.workers[worker]? with
      | some (.busy (.sending _)) => true
      | _ => false
  | _ => false

/-- Number of events of a run that get a worker on. -/
def progress :
    ReplicatorThreads → List ReplicatorEvent → Nat
  | _, [] => 0
  | state, event :: events =>
      (if state.getsOn event then 1 else 0) +
        progress (state.next event) events

/-- Steps that the queue and the workers may still need. -/
def stepsLeft
    (state : ReplicatorThreads) :
    Nat :=
  state.pool.measure PushWork.size 1

/-- Once stopped the workers stay stopped. -/
theorem running_next
    (stopped : state.pool.running = false)
    (event : ReplicatorEvent) :
    (state.next event).pool.running = false := by
  refine pool_invariant (fun pool => pool.running = false) ?_ stopped event
  intro pool step held
  refine Pool.next_of_move PushWork.taken (motive := fun after =>
    after.running = false) fun move => ?_
  cases move with
  | stop =>
      rfl
  | _ =>
      exact held

/-- From the notification on no worker sleeps. -/
theorem woken_run
    (node : CacheNode)
    (before between after : List ReplicatorEvent) :
    (run node
      (before ++ .stop :: (between ++ .notifyAll :: after))).pool.Woken := by
  have stopped :
      (between.foldl next ((run node before).next .stop)).pool.running =
        false :=
    List.foldlRecOn between next
      (motive := fun state => state.pool.running = false) rfl
      fun _ held event _ => running_next held event
  unfold run
  rw [List.foldl_append, List.foldl_cons, List.foldl_append, List.foldl_cons]
  refine List.foldlRecOn after next
    (motive := fun state => state.pool.Woken) ?_ ?_
  · exact ⟨stopped, Pool.asleepCount_notifyAll _⟩
  · intro state held event _
    exact pool_invariant _ (fun step woken => woken.next _ step) held event

/-- An event that gets a worker on is an effective step of the pool. -/
theorem poolSteps_of_getsOn
    {event : ReplicatorEvent}
    (getsOn : state.getsOn event = true) :
    ∃ step,
      state.poolSteps event = [step] ∧
        state.pool.Effective PushWork.size step := by
  cases event with
  | look | beginSend | endSend =>
      simp only [ReplicatorThreads.getsOn] at getsOn
      split at getsOn
      next found =>
        simp [poolSteps, found, Pool.Effective, pool, PushWork.size]
      next =>
        contradiction
  | produce | wakeUp | stop | notifyAll =>
      contradiction

/-- An event that gets a worker on leaves fewer steps. -/
theorem stepsLeft_next_lt
    (woken : state.pool.Woken)
    {event : ReplicatorEvent}
    (getsOn : state.getsOn event = true) :
    (state.next event).stepsLeft < state.stepsLeft := by
  obtain ⟨step, isStep, effective⟩ := poolSteps_of_getsOn getsOn
  unfold stepsLeft
  rw [pool_next, isStep, List.foldl_cons, List.foldl_nil]
  exact Pool.measure_next_lt PushWork.taken PushWork.size 1
    (fun _ => Nat.le_refl _) woken effective

/-- Queued pushes add four steps each. -/
theorem measure_submissions
    (choices : List Nat)
    (tasks : List ReplicateTask)
    {pool : Pool ReplicateTask PushWork}
    (woken : pool.Woken) :
    ((submissions choices tasks).foldl (Pool.next PushWork.taken)
        pool).measure PushWork.size 1 ≤
      pool.measure PushWork.size 1 + 4 * tasks.length := by
  induction tasks generalizing choices pool with
  | nil =>
      exact Nat.le_refl _
  | cons task tasks inductionHypothesis =>
      have first :=
        Pool.measure_next_le PushWork.taken PushWork.size 1 woken
          (.submit (choices.headD 0) task) (by simp) id
      have rest :=
        inductionHypothesis choices.tail
          (woken.next PushWork.taken (.submit (choices.headD 0) task))
      rw [submissions, List.foldl_cons, List.length_cons]
      simp only [Pool.submitted, List.length_singleton] at first
      omega

section Others

variable {event : ReplicatorEvent}
  (notProduce : ∀ queueEvent choices, event ≠ .produce queueEvent choices)

include notProduce

/-- Only a producer queues or strands a push. -/
theorem log_next
    (state : ReplicatorThreads) :
    (state.next event).log.queued = state.log.queued ∧
      (state.next event).log.stranded = state.log.stranded := by
  cases event with
  | produce queueEvent choices =>
      exact (notProduce queueEvent choices rfl).elim
  | stop | notifyAll =>
      exact ⟨rfl, rfl⟩
  | look | wakeUp | beginSend | endSend =>
      simp only [next, look]
      grind

/-- Other steps of the pool leave no more steps. -/
theorem stepsLeft_next_le
    (woken : state.pool.Woken)
    (stays : state.getsOn event = false) :
    (state.next event).stepsLeft ≤ state.stepsLeft := by
  have atMost := Pool.measure_next_le PushWork.taken PushWork.size 1 woken
  unfold stepsLeft
  rw [pool_next]
  cases event with
  | produce queueEvent choices =>
      exact (notProduce queueEvent choices rfl).elim
  | look worker =>
      refine atMost (.look worker) (by simp) ?_
      intro looked
      have isReady : state.workers[worker]? = some .ready := looked
      simp [getsOn, isReady] at stays
  | wakeUp worker =>
      exact atMost (.wakeUp worker) (by simp) id
  | beginSend | endSend =>
      simp only [getsOn] at stays
      simp only [poolSteps]
      grind
  | stop =>
      exact atMost .stop (by simp) id
  | notifyAll =>
      exact atMost .notifyAll (by simp) id

/-- The other events are one step of the pool at most, and submit nothing. -/
theorem poolSteps_of_notProduce
    (state : ReplicatorThreads) :
    state.poolSteps event = [] ∨
      ∃ step, state.poolSteps event = [step] ∧ Pool.submitted step = [] := by
  cases event with
  | produce queueEvent choices =>
      exact (notProduce queueEvent choices rfl).elim
  | look | wakeUp | stop | notifyAll =>
      exact Or.inr ⟨_, rfl, rfl⟩
  | beginSend | endSend =>
      simp only [poolSteps]
      grind [Pool.submitted]

end Others

/-- One event, its progress and the pushes it queues. -/
theorem progress_next
    (woken : state.pool.Woken)
    (event : ReplicatorEvent) :
    (if state.getsOn event then 1 else 0) + (state.next event).stepsLeft +
        4 * state.log.queued.length ≤
      state.stepsLeft + 4 * (state.next event).log.queued.length := by
  by_cases produces : ∃ queueEvent choices, event = .produce queueEvent choices
  · obtain ⟨queueEvent, choices, rfl⟩ := produces
    by_cases isPop : queueEvent = .pop
    · subst isPop
      simp [getsOn, next]
    · obtain ⟨isProduce, isSteps⟩ := state.next_produce isPop choices
      have more :=
        measure_submissions choices (state.appended queueEvent) woken
      rw [← isSteps, ← pool_next, isProduce] at more
      rw [isProduce]
      simp only [getsOn, produce, stepsLeft, List.length_append,
        Bool.false_eq_true, if_false] at more ⊢
      omega
  · have notProduce :
        ∀ queueEvent choices, event ≠ .produce queueEvent choices :=
      fun queueEvent choices same => produces ⟨queueEvent, choices, same⟩
    rw [(state.log_next notProduce).1]
    split
    next getsOn =>
      have fewer := stepsLeft_next_lt woken getsOn
      omega
    next stays =>
      have noMore :=
        stepsLeft_next_le notProduce woken (by simpa using stays)
      omega

/-- The progress of a run is bounded by what is there and what is queued. -/
theorem progress_le
    (woken : state.pool.Woken)
    (events : List ReplicatorEvent) :
    state.progress events + 4 * state.log.queued.length ≤
      state.stepsLeft + 4 * (events.foldl next state).log.queued.length := by
  induction events generalizing state with
  | nil =>
      simp only [progress, List.foldl_nil]
      omega
  | cons event events inductionHypothesis =>
      have first := progress_next woken event
      have rest :=
        inductionHypothesis
          (pool_invariant _ (fun step woken => woken.next _ step) woken
            event)
      rw [progress, List.foldl_cons]
      omega

/-! ### Who is left, and what is left -/

/-- The workers are as many as at the start. -/
theorem length_workers_next
    (state : ReplicatorThreads)
    (event : ReplicatorEvent) :
    (state.next event).workers.length = state.workers.length := by
  refine pool_invariant
    (fun pool => pool.workers.length = state.workers.length) ?_ rfl event
  intro pool step held
  refine Pool.next_of_move PushWork.taken (motive := fun after =>
    after.workers.length = state.workers.length) fun move => ?_
  cases move with
  | idle | submitAwake | stop =>
      exact held
  | notifyAll =>
      exact (List.length_map _).trans held
  | _ =>
      exact List.length_set.trans held

theorem length_workers_run
    (node : CacheNode)
    (events : List ReplicatorEvent) :
    (run node events).workers.length = replicationWorkers :=
  List.foldlRecOn events next
    (motive := fun state => state.workers.length = replicationWorkers)
    List.length_replicate
    fun state held event _ => (state.length_workers_next event).trans held

theorem stepsLeft_run_le
    (node : CacheNode)
    (events : List ReplicatorEvent) :
    (run node events).stepsLeft ≤
      4 * (run node events).producers.node.queue.length + 12 := by
  have each :
      ∀ steps ∈ (run node events).workers.map (Worker.rest PushWork.size),
        steps ≤ 3 := by
    intro steps member
    obtain ⟨worker, _, rfl⟩ := List.mem_map.1 member
    rcases worker with _ | _ | (_ | _) | _ <;>
      simp [Worker.rest, PushWork.size]
  have all := List.sum_le_card_nsmul _ 3 each
  rw [List.length_map, length_workers_run] at all
  exact Nat.add_le_add_left all _

/-- While a worker is left nothing is stranded, afterwards the whole queue. -/
def Leftover
    (state : ReplicatorThreads) :
    Prop :=
  if state.pool.Empty then
    state.producers.node.queue = state.log.stranded
  else
    state.log.stranded = []

/-- A notification does not make a worker leave. -/
theorem empty_notifyEach
    (choices : List Nat)
    (tasks : List ReplicateTask)
    (workers : List (Worker PushWork)) :
    (∀ worker ∈ notifyEach choices tasks workers, worker = .gone) ↔
      ∀ worker ∈ workers, worker = .gone := by
  induction tasks generalizing choices workers with
  | nil =>
      exact Iff.rfl
  | cons task tasks inductionHypothesis =>
      rw [notifyEach, inductionHypothesis]
      rcases Pool.notifyOne_cases (choices.headD 0) workers with
        ⟨index, slept, wakes⟩ | ⟨_, same⟩
      · rw [wakes]
        refine iff_of_false (Pool.not_empty_set slept (by simp)) ?_
        intro allGone
        have gone := allGone _ (List.mem_of_getElem? slept)
        contradiction
      · rw [same]

theorem Leftover.produce
    (leftover : state.Leftover)
    {event : QueueEvent}
    (notPop : event ≠ .pop)
    (choices : List Nat) :
    (state.produce event choices).Leftover := by
  have sameEmpty :
      (state.produce event choices).pool.Empty ↔ state.pool.Empty :=
    empty_notifyEach _ _ _
  unfold Leftover at leftover ⊢
  simp only [sameEmpty]
  split at leftover
  next empty =>
    simp only [empty, if_true, ReplicatorThreads.produce]
    rw [state.queue_next notPop, leftover]
  next someone =>
    simp only [someone, if_false, ReplicatorThreads.produce]
    exact leftover

/-- One step of the pool that submits nothing leaves what is stranded right. -/
theorem Leftover.of_step
    {state after : ReplicatorThreads}
    (leftover : state.Leftover)
    (sameStranded : after.log.stranded = state.log.stranded)
    {step : Step ReplicateTask PushWork}
    (isNext : after.pool = state.pool.next PushWork.taken step)
    (submitsNothing : Pool.submitted step = []) :
    after.Leftover := by
  unfold Leftover at leftover ⊢
  rw [sameStranded]
  split at leftover
  next empty =>
    obtain ⟨sameWorkers, sameQueue⟩ := empty.next PushWork.taken step
    rw [← isNext] at sameWorkers sameQueue
    rw [submitsNothing, List.append_nil] at sameQueue
    have stillEmpty : after.pool.Empty := by
      unfold Pool.Empty
      rw [sameWorkers]
      exact empty
    rw [if_pos stillEmpty]
    exact sameQueue.trans leftover
  next someone =>
    split
    next empty =>
      rw [isNext] at empty
      have lastLeft :=
        Pool.queue_eq_nil_of_empty_next PushWork.taken someone empty
      rw [← isNext] at lastLeft
      exact lastLeft.trans leftover.symm
    next =>
      exact leftover

theorem Leftover.next
    (leftover : state.Leftover)
    (event : ReplicatorEvent) :
    (state.next event).Leftover := by
  by_cases produces : ∃ queueEvent choices, event = .produce queueEvent choices
  · obtain ⟨queueEvent, choices, rfl⟩ := produces
    by_cases isPop : queueEvent = .pop
    · subst isPop
      exact leftover
    · rw [(state.next_produce isPop choices).1]
      exact leftover.produce isPop choices
  · have notProduce :
        ∀ queueEvent choices, event ≠ .produce queueEvent choices :=
      fun queueEvent choices same => produces ⟨queueEvent, choices, same⟩
    have isNext := state.pool_next event
    have sameStranded := (state.log_next notProduce).2
    rcases state.poolSteps_of_notProduce notProduce with
      none | ⟨step, one, submitsNothing⟩
    · rw [none, List.foldl_nil] at isNext
      have sameQueue := congrArg Pool.queue isNext
      unfold Leftover
      rw [isNext, sameStranded]
      simp only [pool] at sameQueue
      rw [sameQueue]
      exact leftover
    · rw [one, List.foldl_cons, List.foldl_nil] at isNext
      exact leftover.of_step sameStranded isNext submitsNothing

theorem leftover_run
    (node : CacheNode)
    (events : List ReplicatorEvent) :
    (run node events).Leftover := by
  refine List.foldlRecOn events next ?_ fun _ held event _ => held.next event
  unfold Leftover
  rw [if_neg]
  · rfl
  · intro empty
    have gone := empty .ready (List.mem_replicate.2 ⟨by decide, rfl⟩)
    contradiction

/-- While a worker is left, one can get on. -/
theorem exists_getsOn
    (woken : state.pool.Woken)
    {worker : Worker PushWork}
    (member : worker ∈ state.workers)
    (present : worker ≠ .gone) :
    ∃ event, state.getsOn event = true := by
  obtain ⟨index, found⟩ := List.getElem?_of_mem member
  cases worker with
  | ready =>
      exact ⟨.look index, by simp [getsOn, found]⟩
  | busy work =>
      cases work with
      | taken task =>
          exact ⟨.beginSend index, by simp [getsOn, found]⟩
      | sending task =>
          exact ⟨.endSend index true, by simp [getsOn, found]⟩
  | asleep =>
      have nobody := List.countP_eq_zero.1 woken.noneSleeps
      exact (nobody _ member rfl).elim
  | gone =>
      exact (present rfl).elim

/-- Workers that have left hold no push. -/
theorem flatMap_pushesHeld_of_empty
    {workers : List (Worker PushWork)}
    (allGone : ∀ worker ∈ workers, worker = .gone) :
    workers.flatMap pushesHeld = [] := by
  rw [List.flatMap_eq_nil_iff]
  intro worker member
  rw [allGone worker member]
  rfl

/--
What holds after the destructor has cleared the flag and woken the workers.  No
worker sleeps.  In all that follows the workers get on at most four times for
each push in the queue or queued later, and twelve times more; while a worker
is left one can get on.  When all have left, every push queued before was sent
once, and those queued after are never sent.
-/
structure ShutDown
    (state : ReplicatorThreads) :
    Prop where
  noneSleeps : .asleep ∉ state.workers
  bounded :
    ∀ later,
      state.progress later + 4 * state.log.queued.length ≤
        4 * state.producers.node.queue.length + 12 +
          4 * (later.foldl next state).log.queued.length
  canGetOn :
    (∃ worker ∈ state.workers, worker ≠ .gone) →
      ∃ event, state.getsOn event = true
  sentOnce :
    (∀ worker ∈ state.workers, worker = .gone) →
      state.log.queued = state.log.taken ++ state.log.stranded ∧
        state.producers.node.queue = state.log.stranded ∧
        state.log.taken.Perm (state.log.done.map Prod.fst)

/-- From the notification of the destructor on the workers leave. -/
theorem shutDown_run
    (node : CacheNode)
    (before between after : List ReplicatorEvent) :
    (run node
      (before ++ .stop :: (between ++ .notifyAll :: after))).ShutDown := by
  have woken := woken_run node before between after
  revert woken
  generalize before ++ .stop :: (between ++ .notifyAll :: after) = events
  intro woken
  have accounted : (run node events).Accounted :=
    (accounted_start node).foldl events
  have leftover := leftover_run node events
  have few := stepsLeft_run_le node events
  refine ⟨?_, ?_, ?_, ?_⟩
  · intro sleeps
    exact List.countP_eq_zero.1 woken.noneSleeps _ sleeps rfl
  · intro later
    exact (progress_le woken later).trans (Nat.add_le_add_right few _)
  · rintro ⟨worker, member, present⟩
    exact exists_getsOn woken member present
  · intro allGone
    have empty : (run node events).pool.Empty := allGone
    unfold Leftover at leftover
    rw [if_pos empty] at leftover
    have takenOnce := accounted.takenOnce
    rw [flatMap_pushesHeld_of_empty allGone, List.append_nil] at takenOnce
    exact ⟨accounted.inOrder.trans (congrArg _ leftover), leftover, takenOnce⟩

end ReplicatorThreads

end Lethe
