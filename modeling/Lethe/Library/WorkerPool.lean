import Lethe.Library.ListUpdate

namespace WorkerPool

open ListUpdate

/-!
# Workers that share a queue through a condition variable

A worker looks at the queue under a lock.  It takes the oldest task, or goes to
sleep if there is none, or leaves if the pool was stopped.  A submission wakes
one sleeping worker, any of them; a sleeping worker may also wake by itself.

1. While a worker sleeps, every queued task has a worker of its own that is
   about to look (`Covered`).
2. After the pool was stopped and all workers were woken none sleeps again
   (`Woken`), and every effective step of a worker lowers a measure that only
   submissions raise, so that the workers leave.
3. The last worker leaves an empty queue.
-/

/-- What a worker thread is doing. -/
inductive Worker (Work : Type) where
  | ready
  | asleep
  | busy (work : Work)
  | gone
  deriving DecidableEq

namespace Worker

variable {Work : Type}

@[simp] def isReady : Worker Work → Bool
  | ready => true
  | _ => false

@[simp] def isAsleep : Worker Work → Bool
  | asleep => true
  | _ => false

/-- The worker after a notification of all. -/
def woken : Worker Work → Worker Work
  | asleep => ready
  | other => other

/-- What a worker may still have to do on its own. -/
def rest
    (size : Work → Nat) :
    Worker Work → Nat
  | ready => 1
  | asleep => 1
  | busy work => size work + 2
  | gone => 0

theorem eq_asleep_of_isAsleep
    {worker : Worker Work}
    (sleeps : worker.isAsleep = true) :
    worker = asleep := by
  cases worker with
  | asleep =>
      rfl
  | ready | busy | gone =>
      contradiction

end Worker

/-- The queue, whether the pool runs, and the workers. -/
structure Pool (Task Work : Type) where
  queue : List Task
  running : Bool
  workers : List (Worker Work)

/-- One lock section, or one step of a worker outside the lock. -/
inductive Step (Task Work : Type) where
  | submit (choice : Nat) (task : Task)
  | look (index : Nat)
  | wakeUp (index : Nat)
  | proceed (index : Nat) (work : Work)
  | finish (index : Nat)
  | stop
  | notifyAll

namespace Pool

variable {Task Work : Type}

/-- Wake the chosen worker if it sleeps, else the first that does. -/
def notifyOne
    (choice : Nat)
    (workers : List (Worker Work)) :
    List (Worker Work) :=
  match workers[choice]? with
  | some .asleep => workers.set choice .ready
  | _ =>
      match workers.findIdx? Worker.isAsleep with
      | some index => workers.set index .ready
      | none => workers

variable (start : Task → Work)

/-- A worker takes the lock and looks at the queue. -/
def look
    (pool : Pool Task Work)
    (index : Nat) :
    Pool Task Work :=
  match pool.workers[index]? with
  | some .ready =>
      match pool.queue with
      | task :: rest =>
          { pool with
            queue := rest
            workers := pool.workers.set index (.busy (start task)) }
      | [] =>
          { pool with
            workers :=
              pool.workers.set index
                (if pool.running then .asleep else .gone) }
  | _ => pool

/-- The effect of a step. -/
def next
    (pool : Pool Task Work) :
    Step Task Work → Pool Task Work
  | .submit choice task =>
      { pool with
        queue := pool.queue ++ [task]
        workers := notifyOne choice pool.workers }
  | .look index => pool.look start index
  | .wakeUp index =>
      match pool.workers[index]? with
      | some .asleep =>
          { pool with workers := pool.workers.set index .ready }
      | _ => pool
  | .proceed index work =>
      match pool.workers[index]? with
      | some (.busy _) =>
          { pool with workers := pool.workers.set index (.busy work) }
      | _ => pool
  | .finish index =>
      match pool.workers[index]? with
      | some (.busy _) =>
          { pool with workers := pool.workers.set index .ready }
      | _ => pool
  | .stop => { pool with running := false }
  | .notifyAll => { pool with workers := pool.workers.map Worker.woken }

/-- The task that a step submits. -/
def submitted : Step Task Work → List Task
  | .submit _ task => [task]
  | _ => []

/-- Number of workers that are about to look. -/
def readyCount
    (pool : Pool Task Work) :
    Nat :=
  pool.workers.countP Worker.isReady

/-- Number of workers that sleep. -/
def asleepCount
    (pool : Pool Task Work) :
    Nat :=
  pool.workers.countP Worker.isAsleep

/-! ## What a step can do -/

/-- A notification wakes one sleeping worker if there is one. -/
theorem notifyOne_cases
    (choice : Nat)
    (workers : List (Worker Work)) :
    (∃ index,
      workers[index]? = some .asleep ∧
        notifyOne choice workers = workers.set index .ready) ∨
      workers.countP Worker.isAsleep = 0 ∧
        notifyOne choice workers = workers := by
  unfold notifyOne
  split
  next chosen =>
    exact Or.inl ⟨choice, chosen, rfl⟩
  next =>
    split
    next index found =>
      obtain ⟨inside, sleeps, _⟩ :=
        List.findIdx?_eq_some_iff_getElem.1 found
      refine Or.inl ⟨index, ?_, rfl⟩
      rw [List.getElem?_eq_getElem inside,
        Worker.eq_asleep_of_isAsleep sleeps]
    next notFound =>
      refine Or.inr ⟨?_, rfl⟩
      rw [List.countP_eq_zero]
      intro worker member sleeps
      have awake := List.findIdx?_eq_none_iff.1 notFound worker member
      rw [awake] at sleeps
      contradiction

/-- Everything that a step can do. -/
inductive Move
    (pool : Pool Task Work) :
    Step Task Work → Pool Task Work → Prop where
  | idle
      (step : Step Task Work)
      (submitsNothing : submitted step = []) :
      Move pool step pool
  | submitWaking
      (choice : Nat)
      (task : Task)
      (index : Nat)
      (slept : pool.workers[index]? = some .asleep) :
      Move pool (.submit choice task)
        { pool with
          queue := pool.queue ++ [task]
          workers := pool.workers.set index .ready }
  | submitAwake
      (choice : Nat)
      (task : Task)
      (noneSleeps : pool.asleepCount = 0) :
      Move pool (.submit choice task)
        { pool with queue := pool.queue ++ [task] }
  | take
      (index : Nat)
      (task : Task)
      (rest : List Task)
      (looked : pool.workers[index]? = some .ready)
      (queued : pool.queue = task :: rest) :
      Move pool (.look index)
        { pool with
          queue := rest
          workers := pool.workers.set index (.busy (start task)) }
  | sleep
      (index : Nat)
      (looked : pool.workers[index]? = some .ready)
      (isEmpty : pool.queue = [])
      (runs : pool.running = true) :
      Move pool (.look index)
        { pool with workers := pool.workers.set index .asleep }
  | leave
      (index : Nat)
      (looked : pool.workers[index]? = some .ready)
      (isEmpty : pool.queue = [])
      (stopped : pool.running = false) :
      Move pool (.look index)
        { pool with workers := pool.workers.set index .gone }
  | wakeUp
      (index : Nat)
      (slept : pool.workers[index]? = some .asleep) :
      Move pool (.wakeUp index)
        { pool with workers := pool.workers.set index .ready }
  | proceed
      (index : Nat)
      (before after : Work)
      (worked : pool.workers[index]? = some (.busy before)) :
      Move pool (.proceed index after)
        { pool with workers := pool.workers.set index (.busy after) }
  | finish
      (index : Nat)
      (work : Work)
      (worked : pool.workers[index]? = some (.busy work)) :
      Move pool (.finish index)
        { pool with workers := pool.workers.set index .ready }
  | stop :
      Move pool .stop { pool with running := false }
  | notifyAll :
      Move pool .notifyAll
        { pool with workers := pool.workers.map Worker.woken }

theorem move_next
    (pool : Pool Task Work)
    (step : Step Task Work) :
    Move start pool step (pool.next start step) := by
  cases step with
  | submit choice task =>
      simp only [next]
      rcases notifyOne_cases choice pool.workers with
        ⟨index, slept, wakes⟩ | ⟨noneSleeps, same⟩
      · rw [wakes]
        exact .submitWaking choice task index slept
      · rw [same]
        exact .submitAwake choice task noneSleeps
  | look index =>
      simp only [next, look]
      split
      next looked =>
        split
        next task rest queued =>
          exact .take index task rest looked queued
        next isEmpty =>
          split
          next runs =>
            exact .sleep index looked isEmpty runs
          next stopped =>
            exact .leave index looked isEmpty (by simpa using stopped)
      next =>
        exact .idle _ rfl
  | wakeUp index =>
      simp only [next]
      split
      next slept =>
        exact .wakeUp index slept
      next =>
        exact .idle _ rfl
  | proceed index work =>
      simp only [next]
      split
      next before worked =>
        exact .proceed index before work worked
      next =>
        exact .idle _ rfl
  | finish index =>
      simp only [next]
      split
      next work worked =>
        exact .finish index work worked
      next =>
        exact .idle _ rfl
  | stop =>
      exact .stop
  | notifyAll =>
      exact .notifyAll

variable {pool : Pool Task Work}

/-- What holds after everything that a step can do holds after it. -/
theorem next_of_move
    {step : Step Task Work}
    {motive : Pool Task Work → Prop}
    (afterMove : ∀ {after}, Move start pool step after → motive after) :
    motive (pool.next start step) :=
  afterMove (pool.move_next start step)

/-! ## No wake-up is lost -/

/-- While a worker sleeps, each queued task has a worker about to look. -/
def Covered
    (pool : Pool Task Work) :
    Prop :=
  0 < pool.asleepCount → pool.queue.length ≤ pool.readyCount

theorem asleepCount_notifyAll
    (workers : List (Worker Work)) :
    (workers.map Worker.woken).countP Worker.isAsleep = 0 := by
  rw [List.countP_eq_zero]
  intro worker member sleeps
  obtain ⟨before, _, rfl⟩ := List.mem_map.1 member
  cases before with
  | _ =>
      contradiction

/-- A worker that changes without going to sleep. -/
theorem Covered.set
    (covered : pool.Covered)
    {index : Nat}
    {before after : Worker Work}
    (found : pool.workers[index]? = some before)
    (awake : after.isAsleep = false)
    {queue : List Task}
    (enough :
      queue.length + (if before.isReady then 1 else 0) ≤
        pool.queue.length + if after.isReady then 1 else 0) :
    Covered
      { pool with
        queue := queue
        workers := pool.workers.set index after } := by
  have ready := countP_set_add found Worker.isReady after
  have asleep := countP_set_add found Worker.isAsleep after
  unfold Covered readyCount asleepCount at *
  rw [awake, if_neg Bool.false_ne_true] at asleep
  dsimp only
  omega

theorem Covered.next
    (covered : pool.Covered)
    (step : Step Task Work) :
    (pool.next start step).Covered := by
  refine next_of_move start fun move => ?_
  cases move with
  | idle | stop =>
      exact covered
  | submitWaking _ _ _ slept =>
      exact covered.set slept rfl (by simp)
  | submitAwake choice task noneSleeps =>
      exact fun sleeps => absurd noneSleeps (Nat.ne_of_gt sleeps)
  | take index task rest looked queued =>
      exact covered.set looked rfl (by simp [queued])
  | sleep _ _ isEmpty _ | leave _ _ isEmpty _ =>
      intro _
      rw [isEmpty]
      exact Nat.zero_le _
  | wakeUp _ slept =>
      exact covered.set slept rfl (by simp)
  | proceed _ _ _ worked | finish _ _ worked =>
      exact covered.set worked rfl (by simp)
  | notifyAll =>
      intro sleeps
      exact absurd (asleepCount_notifyAll pool.workers)
        (Nat.ne_of_gt sleeps)

/-! ## Leaving -/

/-- Everyone has left. -/
def Empty
    (pool : Pool Task Work) :
    Prop :=
  ∀ worker ∈ pool.workers, worker = .gone

instance [DecidableEq Work] (pool : Pool Task Work) :
    Decidable pool.Empty :=
  inferInstanceAs (Decidable (∀ worker ∈ pool.workers, worker = .gone))

/-- The pool was stopped, and no worker sleeps. -/
structure Woken
    (pool : Pool Task Work) :
    Prop where
  stopped : pool.running = false
  noneSleeps : pool.asleepCount = 0

/-- A worker that is set to something else than sleep. -/
theorem asleepCount_set
    {workers : List (Worker Work)}
    {index : Nat}
    {after : Worker Work}
    (noneSleeps : workers.countP Worker.isAsleep = 0)
    (awake : after.isAsleep = false) :
    (workers.set index after).countP Worker.isAsleep = 0 := by
  rw [List.countP_eq_zero] at noneSleeps ⊢
  intro worker member
  rcases List.mem_or_eq_of_mem_set member with stays | isSet
  · exact noneSleeps worker stays
  · rw [isSet, awake]
    exact Bool.false_ne_true

theorem Woken.next
    (woken : pool.Woken)
    (step : Step Task Work) :
    (pool.next start step).Woken := by
  obtain ⟨stopped, noneSleeps⟩ := woken
  have nobody := List.countP_eq_zero.1 noneSleeps
  refine next_of_move start fun move => ?_
  cases move with
  | idle | submitAwake =>
      exact ⟨stopped, noneSleeps⟩
  | submitWaking _ _ _ slept | wakeUp _ slept =>
      exact (nobody _ (List.mem_of_getElem? slept) rfl).elim
  | take | leave | proceed | finish =>
      exact ⟨stopped, asleepCount_set noneSleeps rfl⟩
  | sleep index looked isEmpty runs =>
      rw [stopped] at runs
      contradiction
  | stop =>
      exact ⟨rfl, noneSleeps⟩
  | notifyAll =>
      exact ⟨stopped, asleepCount_notifyAll pool.workers⟩

/-- A worker that is set to something else has not left. -/
theorem not_empty_set
    {workers : List (Worker Work)}
    {index : Nat}
    {before after : Worker Work}
    (found : workers[index]? = some before)
    (present : after ≠ .gone) :
    ¬ ∀ worker ∈ workers.set index after, worker = .gone := by
  intro allGone
  obtain ⟨inside, _⟩ := List.getElem?_eq_some_iff.1 found
  exact present (allGone after (List.mem_set inside after))

/-- The last worker leaves an empty queue behind. -/
theorem queue_eq_nil_of_empty_next
    (someone : ¬ pool.Empty)
    {step : Step Task Work} :
    (pool.next start step).Empty → (pool.next start step).queue = [] := by
  refine next_of_move start (motive := fun after =>
    after.Empty → after.queue = []) fun move empty => ?_
  cases move with
  | idle | submitAwake | stop =>
      exact (someone empty).elim
  | submitWaking _ _ _ slept | wakeUp _ slept =>
      exact (not_empty_set slept (by simp) empty).elim
  | take _ _ _ looked _ =>
      exact (not_empty_set looked (by simp) empty).elim
  | sleep _ _ isEmpty _ | leave _ _ isEmpty _ =>
      exact isEmpty
  | proceed _ _ _ worked | finish _ _ worked =>
      exact (not_empty_set worked (by simp) empty).elim
  | notifyAll =>
      refine (someone fun worker member => ?_).elim
      have woken := empty _ (List.mem_map_of_mem member)
      cases worker with
      | gone =>
          rfl
      | ready | asleep | busy =>
          contradiction

/-- Who has left does not come back, and nobody takes a task. -/
theorem Empty.next
    (empty : pool.Empty)
    (step : Step Task Work) :
    (pool.next start step).workers = pool.workers ∧
      (pool.next start step).queue = pool.queue ++ submitted step := by
  have nobody
      {index : Nat}
      {worker : Worker Work}
      (found : pool.workers[index]? = some worker)
      (present : worker ≠ .gone) :
      False :=
    present (empty worker (List.mem_of_getElem? found))
  refine next_of_move start (motive := fun after =>
    after.workers = pool.workers ∧
      after.queue = pool.queue ++ submitted step) fun move => ?_
  cases move with
  | idle step submitsNothing =>
      rw [submitsNothing, List.append_nil]
      exact ⟨rfl, rfl⟩
  | submitAwake =>
      exact ⟨rfl, rfl⟩
  | submitWaking _ _ _ slept | wakeUp _ slept =>
      exact (nobody slept (by simp)).elim
  | take _ _ _ looked | sleep _ looked | leave _ looked =>
      exact (nobody looked (by simp)).elim
  | proceed _ _ _ worked | finish _ _ worked =>
      exact (nobody worked (by simp)).elim
  | stop =>
      exact ⟨rfl, (List.append_nil _).symm⟩
  | notifyAll =>
      have fixed : ∀ worker ∈ pool.workers, worker.woken = id worker := by
        intro worker member
        rw [empty worker member]
        rfl
      exact ⟨(List.map_congr_left fixed).trans (List.map_id _),
        (List.append_nil _).symm⟩

/-! ## How long leaving takes -/

section Measure

variable (size : Work → Nat) (limit : Nat)

/-- What the queue and the workers may still have to do. -/
def measure
    (pool : Pool Task Work) :
    Nat :=
  (limit + 3) * pool.queue.length +
    (pool.workers.map (Worker.rest size)).sum

/-- A step with which a worker gets on. -/
def Effective
    (pool : Pool Task Work) :
    Step Task Work → Prop
  | .look index => pool.workers[index]? = some .ready
  | .proceed index work =>
      ∃ before,
        pool.workers[index]? = some (.busy before) ∧
          size work < size before
  | .finish index => ∃ work, pool.workers[index]? = some (.busy work)
  | _ => False

/-- Every effective step of a stopped pool lowers the measure. -/
theorem measure_next_lt
    (bounded : ∀ task, size (start task) ≤ limit)
    (woken : pool.Woken)
    {step : Step Task Work}
    (effective : pool.Effective size step) :
    (pool.next start step).measure size limit <
      pool.measure size limit := by
  unfold measure
  cases step with
  | look index =>
      have looked : pool.workers[index]? = some .ready := effective
      simp only [next, look, looked]
      cases queued : pool.queue with
      | nil =>
          have rest :=
            sum_map_set_add looked (Worker.rest size) (.gone : Worker Work)
          simp only [Worker.rest] at rest
          simp only [woken.stopped, Bool.false_eq_true, if_false]
          omega
      | cons task tasks =>
          have rest :=
            sum_map_set_add looked (Worker.rest size) (.busy (start task))
          have small := bounded task
          simp only [Worker.rest] at rest
          simp only [List.length_cons, Nat.mul_succ]
          omega
  | proceed index work =>
      obtain ⟨before, worked, smaller⟩ := effective
      have rest :=
        sum_map_set_add worked (Worker.rest size) (.busy work)
      simp only [Worker.rest] at rest
      simp only [next, worked]
      omega
  | finish index =>
      obtain ⟨work, worked⟩ := effective
      have rest :=
        sum_map_set_add worked (Worker.rest size) (.ready : Worker Work)
      simp only [Worker.rest] at rest
      simp only [next, worked]
      omega
  | submit | wakeUp | stop | notifyAll =>
      exact effective.elim

/-- Other steps raise the measure by what they submit. -/
theorem measure_next_le
    (woken : pool.Woken)
    (step : Step Task Work)
    (notProceed : ∀ index work, step ≠ .proceed index work)
    (ineffective : ¬ pool.Effective size step) :
    (pool.next start step).measure size limit ≤
      pool.measure size limit +
        (limit + 3) * (submitted step).length := by
  have nobody := List.countP_eq_zero.1 woken.noneSleeps
  refine next_of_move start (motive := fun after =>
    after.measure size limit ≤
      pool.measure size limit + (limit + 3) * (submitted step).length)
    fun move => ?_
  cases move with
  | idle | stop =>
      exact Nat.le_add_right _ _
  | submitWaking _ _ _ slept | wakeUp _ slept =>
      exact (nobody _ (List.mem_of_getElem? slept) rfl).elim
  | submitAwake choice task noneSleeps =>
      simp only [measure, submitted, List.length_append,
        List.length_singleton, Nat.mul_add]
      omega
  | take _ _ _ looked | sleep _ looked | leave _ looked =>
      exact (ineffective looked).elim
  | proceed index before work worked =>
      exact (notProceed index work rfl).elim
  | finish index work worked =>
      exact (ineffective ⟨work, worked⟩).elim
  | notifyAll =>
      have same : pool.workers.map Worker.woken = pool.workers := by
        refine (List.map_congr_left ?_).trans (List.map_id _)
        intro worker member
        cases worker with
        | asleep =>
            exact (nobody _ member rfl).elim
        | _ =>
            rfl
      unfold measure
      dsimp only
      rw [same]
      exact Nat.le_add_right _ _

end Measure

end Pool

end WorkerPool
