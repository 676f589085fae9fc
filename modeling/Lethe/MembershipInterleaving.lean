import Lethe.MembershipRuns
import Lethe.Library.LabelledRun

namespace Lethe

/-!
# Interleaved membership calls

The heartbeat thread and any number of heartbeat handlers share the peer
entries and the ring.  A change of membership takes several steps: it raises
the epoch, lists the live peers under the lock of the entries, and then
installs the list under the lock of the router.  Nothing orders the last step
of one change against the last step of another.

Lists of live peers are numbered in the order in which they are computed.  The
numbers are history only; no step depends on them.  As long as no list is
installed after a later one, the ring agrees with the entries whenever no
change is in progress.
-/

/-- Where a call is inside a change of membership. -/
inductive ChangePoint where
  | raise (lostPeers : List NodeId)
  | collect (lostPeers : List NodeId)
  | install
      (lostPeers : List NodeId)
      (aliveIds : List NodeId)
      (number : Nat)
  | trigger (lostPeers : List NodeId)
  deriving DecidableEq

/-- Where a handler of one heartbeat is. -/
inductive HandlerPoint where
  | receive (sender : NodeId)
  | changing (reply : HeartbeatReply) (point : ChangePoint)
  | finished (reply : HeartbeatReply)
  deriving DecidableEq

/-- Where the heartbeat thread is in its loop. -/
inductive LoopPoint where
  | send
  | note (targets : List NodeId)
  | rejoining (point : ChangePoint)
  | judge
  | burying (point : ChangePoint)
  deriving DecidableEq

/-- A server, with the number of lists computed and that of the one in use. -/
structure NumberedServer where
  server : Server
  collected : Nat
  installed : Nat

/-- All threads that work on the membership of one server. -/
structure ConcurrentServer where
  shared : NumberedServer
  loop : LoopPoint
  handlers : List HandlerPoint

/-- A step of the schedule. -/
inductive ThreadEvent where
  | arrive (sender : NodeId)
  | handler
      (index : Nat)
      (now : Int)
      (listing : Tier → List BlockMeta)
  | loop
      (answered : List NodeId)
      (now : Int)
      (listing : Tier → List BlockMeta)

namespace NumberedServer

/-- Change the entries. -/
def withMembership
    (shared : NumberedServer)
    (membership : Membership) :
    NumberedServer :=
  { shared with server := { shared.server with membership := membership } }

/-- Change the cache server. -/
def withNode
    (shared : NumberedServer)
    (node : CacheNode) :
    NumberedServer :=
  { shared with server := { shared.server with node := node } }

/-- The next step of a change, and where the change is afterwards. -/
def advance
    (blake3 : List UInt8 → Hash256)
    (shared : NumberedServer)
    (listing : Tier → List BlockMeta) :
    ChangePoint → NumberedServer × Option ChangePoint
  | .raise lostPeers =>
      (shared.withMembership shared.server.membership.bumpEpoch,
        some (.collect lostPeers))
  | .collect lostPeers =>
      ({ shared with collected := shared.collected + 1 },
        some (.install lostPeers shared.server.membership.aliveIds
          (shared.collected + 1)))
  | .install lostPeers aliveIds number =>
      ({ shared.withNode
          { shared.server.node with
            router :=
              shared.server.node.router.setPeers blake3 aliveIds } with
          installed := number },
        some (.trigger lostPeers))
  | .trigger lostPeers =>
      (shared.withNode
        (shared.server.node.triggerReReplication lostPeers listing), none)

end NumberedServer

namespace HandlerPoint

/-- The change that the handler is in. -/
def change : HandlerPoint → Option ChangePoint
  | receive _ => none
  | changing _ point => some point
  | finished _ => none

/-- The handler has returned its reply. -/
def isFinished : HandlerPoint → Bool
  | receive _ => false
  | changing _ _ => false
  | finished _ => true

/-- The next step of a handler. -/
def advance
    (blake3 : List UInt8 → Hash256)
    (shared : NumberedServer)
    (now : Int)
    (listing : Tier → List BlockMeta) :
    HandlerPoint → NumberedServer × HandlerPoint
  | receive sender =>
      let noted := shared.server.membership.noteHeartbeat sender now
      (shared.withMembership noted.2,
        if noted.1 then
          changing noted.2.reply (.raise [])
        else
          finished noted.2.reply)
  | changing reply point =>
      let moved := shared.advance blake3 listing point
      (moved.1,
        match moved.2 with
        | some point => changing reply point
        | none => finished reply)
  | finished reply => (shared, finished reply)

end HandlerPoint

namespace LoopPoint

/-- The change that the heartbeat thread is in. -/
def change : LoopPoint → Option ChangePoint
  | send => none
  | note _ => none
  | rejoining point => some point
  | judge => none
  | burying point => some point

/-- The next step of the heartbeat thread. -/
def advance
    (blake3 : List UInt8 → Hash256)
    (shared : NumberedServer)
    (answered : List NodeId)
    (now : Int)
    (listing : Tier → List BlockMeta) :
    LoopPoint → NumberedServer × LoopPoint
  | send => (shared, note shared.server.membership.targets)
  | note targets =>
      let noted :=
        shared.server.membership.noteReplies
          (targets.filter fun peerId => peerId ∈ answered) now
      (shared.withMembership noted.2,
        if noted.1 = [] then judge else rejoining (.raise []))
  | rejoining point =>
      let moved := shared.advance blake3 listing point
      (moved.1,
        match moved.2 with
        | some point => rejoining point
        | none => judge)
  | judge =>
      let judged := shared.server.membership.evaluateSuspicions now
      (shared.withMembership judged.2,
        if judged.1 = [] then send else burying (.raise judged.1))
  | burying point =>
      let moved := shared.advance blake3 listing point
      (moved.1,
        match moved.2 with
        | some point => burying point
        | none => send)

end LoopPoint

namespace ConcurrentServer

/-- A server on which no thread has started its work. -/
def start
    (server : Server) :
    ConcurrentServer where
  shared := { server := server, collected := 0, installed := 0 }
  loop := .send
  handlers := []

/-- The changes of membership in progress. -/
def changes
    (state : ConcurrentServer) :
    List ChangePoint :=
  state.loop.change.toList ++ state.handlers.filterMap HandlerPoint.change

/-- The state after a step, if the step is possible. -/
def next
    (blake3 : List UInt8 → Hash256)
    (state : ConcurrentServer) :
    ThreadEvent → Option ConcurrentServer
  | .arrive sender =>
      some { state with handlers := state.handlers ++ [.receive sender] }
  | .handler index now listing =>
      (state.handlers[index]?).map fun handler =>
        let moved := handler.advance blake3 state.shared now listing
        { state with
          shared := moved.1
          handlers := state.handlers.set index moved.2 }
  | .loop answered now listing =>
      let moved :=
        state.loop.advance blake3 state.shared answered now listing
      some { state with shared := moved.1, loop := moved.2 }

/-- The change that a step continues. -/
def continues
    (state : ConcurrentServer) :
    ThreadEvent → Option ChangePoint
  | .arrive _ => none
  | .handler index _ _ =>
      (state.handlers[index]?).bind HandlerPoint.change
  | .loop _ _ _ => state.loop.change

/-- The step does not install a list after a later one was installed. -/
def installsInOrder
    (state : ConcurrentServer)
    (event : ThreadEvent) :
    Bool :=
  match state.continues event with
  | some (.install _ _ number) => state.shared.installed < number
  | _ => true

/-- A heartbeat comes from one of the given peers. -/
def arrivesFrom
    (peerIds : List NodeId) :
    ThreadEvent → Bool
  | .arrive sender => sender ∈ peerIds
  | .handler _ _ _ => true
  | .loop _ _ _ => true

/-- The state after a step, if heartbeats come from the given peers. -/
def nextFrom
    (blake3 : List UInt8 → Hash256)
    (peerIds : List NodeId)
    (state : ConcurrentServer)
    (event : ThreadEvent) :
    Option ConcurrentServer :=
  if arrivesFrom peerIds event then state.next blake3 event else none

/-- Any interleaving, with heartbeats from the given peers. -/
def Step
    (blake3 : List UInt8 → Hash256)
    (peerIds : List NodeId)
    (before : ConcurrentServer)
    (event : ThreadEvent)
    (after : ConcurrentServer) : Prop :=
  before.nextFrom blake3 peerIds event = some after

/-- The state after a step that installs no list after a later one. -/
def orderedNext
    (blake3 : List UInt8 → Hash256)
    (peerIds : List NodeId)
    (state : ConcurrentServer)
    (event : ThreadEvent) :
    Option ConcurrentServer :=
  if state.installsInOrder event then
    state.nextFrom blake3 peerIds event
  else
    none

/-- A step that installs no list after a later one. -/
def OrderedStep
    (blake3 : List UInt8 → Hash256)
    (peerIds : List NodeId)
    (before : ConcurrentServer)
    (event : ThreadEvent)
    (after : ConcurrentServer) : Prop :=
  before.orderedNext blake3 peerIds event = some after

end ConcurrentServer

/-! ## What a step does to the changes in progress -/

/-- One change takes the place of another; all others stay. -/
structure Replaces
    (old new : Option ChangePoint)
    (before after : List ChangePoint) : Prop where
  new_or_mem : ∀ point ∈ after, new = some point ∨ point ∈ before
  old_or_mem : ∀ point ∈ before, old = some point ∨ point ∈ after
  new_mem : ∀ point, new = some point → point ∈ after
  old_mem : ∀ point, old = some point → point ∈ before

namespace ConcurrentServer

/-- A step of the heartbeat thread replaces its own change. -/
theorem changes_loop
    (state : ConcurrentServer)
    (shared : NumberedServer)
    (loop : LoopPoint) :
    Replaces state.loop.change loop.change state.changes
      ({ state with shared := shared, loop := loop } :
        ConcurrentServer).changes := by
  refine ⟨?_, ?_, ?_, ?_⟩
  · intro point member
    rcases List.mem_append.mp member with own | others
    · exact Or.inl (Option.mem_toList.mp own)
    · exact Or.inr (List.mem_append_right _ others)
  · intro point member
    rcases List.mem_append.mp member with own | others
    · exact Or.inl (Option.mem_toList.mp own)
    · exact Or.inr (List.mem_append_right _ others)
  · intro point isNew
    exact List.mem_append_left _ (Option.mem_toList.mpr isNew)
  · intro point isOld
    exact List.mem_append_left _ (Option.mem_toList.mpr isOld)

/-- A step of a handler replaces its own change. -/
theorem changes_handler
    (state : ConcurrentServer)
    (shared : NumberedServer)
    {index : Nat}
    {before : HandlerPoint}
    (running : state.handlers[index]? = some before)
    (after : HandlerPoint) :
    Replaces before.change after.change state.changes
      ({ state with
          shared := shared
          handlers := state.handlers.set index after } :
        ConcurrentServer).changes := by
  obtain ⟨inside, isBefore⟩ := List.getElem?_eq_some_iff.mp running
  refine ⟨?_, ?_, ?_, ?_⟩
  · intro point member
    rcases List.mem_append.mp member with own | others
    · exact Or.inr (List.mem_append_left _ own)
    · obtain ⟨handler, isHandler, isPoint⟩ := List.mem_filterMap.mp others
      rcases List.mem_or_eq_of_mem_set isHandler with earlier | isAfter
      · refine Or.inr (List.mem_append_right _ ?_)
        exact List.mem_filterMap.mpr ⟨handler, earlier, isPoint⟩
      · exact Or.inl (isAfter ▸ isPoint)
  · intro point member
    rcases List.mem_append.mp member with own | others
    · exact Or.inr (List.mem_append_left _ own)
    · obtain ⟨handler, isHandler, isPoint⟩ := List.mem_filterMap.mp others
      obtain ⟨place, bound, isThere⟩ := List.mem_iff_getElem.mp isHandler
      by_cases same : index = place
      · subst same
        rw [isBefore] at isThere
        exact Or.inl (isThere ▸ isPoint)
      · refine Or.inr (List.mem_append_right _ ?_)
        refine List.mem_filterMap.mpr ⟨handler, ?_, isPoint⟩
        refine List.mem_iff_getElem.mpr ⟨place, by simpa using bound, ?_⟩
        rw [List.getElem_set_ne same]
        exact isThere
  · intro point isNew
    refine List.mem_append_right _ (List.mem_filterMap.mpr ?_)
    exact ⟨after, List.mem_set inside after, isNew⟩
  · intro point isOld
    refine List.mem_append_right _ (List.mem_filterMap.mpr ?_)
    exact ⟨before, List.mem_of_getElem? running, isOld⟩

end ConcurrentServer

/-- What a step of a thread can do to the shared state and its own change. -/
inductive Move
    (blake3 : List UInt8 → Hash256)
    (before : NumberedServer) :
    Option ChangePoint →
      NumberedServer → Option ChangePoint → Prop where
  | quiet
      (membership : Membership)
      (refreshes : before.server.membership.Refreshes membership)
      (sameAlive :
        ∀ peerId,
          membership.isAlive peerId =
            before.server.membership.isAlive peerId) :
      Move blake3 before none (before.withMembership membership) none
  | begins
      (membership : Membership)
      (refreshes : before.server.membership.Refreshes membership)
      (lostPeers : List NodeId) :
      Move blake3 before none (before.withMembership membership)
        (some (.raise lostPeers))
  | continues
      (listing : Tier → List BlockMeta)
      (point : ChangePoint) :
      Move blake3 before (some point)
        (before.advance blake3 listing point).1
        (before.advance blake3 listing point).2

/-- A step of a change, with the point that the change reaches. -/
theorem Move.continues_to
    {blake3 : List UInt8 → Hash256}
    {before : NumberedServer}
    (listing : Tier → List BlockMeta)
    (point : ChangePoint)
    {new : Option ChangePoint}
    (reached : (before.advance blake3 listing point).2 = new) :
    Move blake3 before (some point)
      (before.advance blake3 listing point).1 new := by
  rw [← reached]
  exact .continues listing point

theorem Membership.Refreshes.refl
    (membership : Membership) :
    membership.Refreshes membership :=
  ⟨rfl, rfl, fun _ => Iff.rfl, id⟩

theorem HandlerPoint.advance_move
    (blake3 : List UInt8 → Hash256)
    {shared : NumberedServer}
    {handler : HandlerPoint}
    (known :
      ∀ sender,
        handler = .receive sender →
        sender ∈ shared.server.membership.peers)
    (now : Int)
    (listing : Tier → List BlockMeta) :
    Move blake3 shared handler.change
      (handler.advance blake3 shared now listing).1
      (handler.advance blake3 shared now listing).2.change := by
  cases handler with
  | receive sender =>
      have refreshes :=
        Membership.noteHeartbeat_refreshes (known sender rfl) now
      simp only [HandlerPoint.advance]
      split
      · exact .begins _ refreshes []
      · next stays =>
          exact .quiet _ refreshes
            (Membership.isAlive_noteHeartbeat_of_stays (known sender rfl)
              stays)
  | changing reply point =>
      refine .continues_to listing point ?_
      simp only [HandlerPoint.advance]
      split
      · next later isLater =>
          exact isLater
      · next isOver =>
          exact isOver
  | finished reply =>
      exact .quiet _ (.refl _) fun _ => rfl

theorem LoopPoint.advance_move
    (blake3 : List UInt8 → Hash256)
    (shared : NumberedServer)
    (loop : LoopPoint)
    (answered : List NodeId)
    (now : Int)
    (listing : Tier → List BlockMeta) :
    Move blake3 shared loop.change
      (loop.advance blake3 shared answered now listing).1
      (loop.advance blake3 shared answered now listing).2.change := by
  cases loop with
  | send =>
      exact .quiet _ (.refl _) fun _ => rfl
  | note targets =>
      have refreshes :=
        Membership.noteReplies_refreshes shared.server.membership
          (targets.filter fun peerId => peerId ∈ answered) now
      simp only [LoopPoint.advance]
      split
      · next nobody =>
          exact .quiet _ refreshes (Membership.isAlive_noteReplies nobody)
      · exact .begins _ refreshes []
  | judge =>
      have refreshes :=
        Membership.evaluateSuspicions_refreshes shared.server.membership now
      simp only [LoopPoint.advance]
      split
      · next nobody =>
          exact
            .quiet _ refreshes
              (Membership.isAlive_evaluateSuspicions nobody)
      · exact .begins _ refreshes _
  | rejoining point =>
      refine .continues_to listing point ?_
      simp only [LoopPoint.advance]
      split
      · next later isLater =>
          exact isLater
      · next isOver =>
          exact isOver
  | burying point =>
      refine .continues_to listing point ?_
      simp only [LoopPoint.advance]
      split
      · next later isLater =>
          exact isLater
      · next isOver =>
          exact isOver

/-! ## Lists installed in order -/

/-- The change has yet to compute its list. -/
def ChangePoint.Owes
    (point : ChangePoint) : Prop :=
  (∃ lostPeers, point = .raise lostPeers) ∨
    ∃ lostPeers, point = .collect lostPeers

@[simp] theorem ChangePoint.not_owes_install
    (lostPeers aliveIds : List NodeId)
    (number : Nat) :
    ¬ (ChangePoint.install lostPeers aliveIds number).Owes := by
  simp [Owes]

@[simp] theorem ChangePoint.not_owes_trigger
    (lostPeers : List NodeId) :
    ¬ (ChangePoint.trigger lostPeers).Owes := by
  simp [Owes]

/--
The list computed last is on the ring or about to be installed, and it names
the live peers unless some change has yet to compute its own.
-/
structure Latest
    (shared : NumberedServer)
    (changes : List ChangePoint)
    (aliveIds : List NodeId) : Prop where
  numbers :
    ∀ {lostPeers held number},
      .install lostPeers held number ∈ changes →
      number ≤ shared.collected
  last :
    ∀ {lostPeers held},
      .install lostPeers held shared.collected ∈ changes →
      held = aliveIds
  placed :
    (shared.installed = shared.collected ∧
        shared.server.node.router.peers = aliveIds) ∨
      (shared.installed < shared.collected ∧
        ∃ lostPeers,
          .install lostPeers aliveIds shared.collected ∈ changes)
  current :
    (∀ point ∈ changes, ¬ point.Owes) →
    ∀ peerId,
      peerId ∈ aliveIds ↔
        peerId = shared.server.membership.localNodeId ∨
          shared.server.membership.isAlive peerId = true

/-- Steps that touch neither lists nor flags keep the list computed last. -/
theorem Latest.mono
    {before after : NumberedServer}
    {changes later : List ChangePoint}
    {aliveIds : List NodeId}
    (latest : Latest before changes aliveIds)
    (sameCollected : after.collected = before.collected)
    (sameInstalled : after.installed = before.installed)
    (samePeers :
      after.server.node.router.peers = before.server.node.router.peers)
    (sameInstalls :
      ∀ lostPeers held number,
        .install lostPeers held number ∈ later ↔
          .install lostPeers held number ∈ changes)
    (current :
      (∀ point ∈ later, ¬ point.Owes) →
      ∀ peerId,
        peerId ∈ aliveIds ↔
          peerId = after.server.membership.localNodeId ∨
            after.server.membership.isAlive peerId = true) :
    Latest after later aliveIds where
  numbers := by
    intro lostPeers held number member
    rw [sameCollected]
    exact latest.numbers ((sameInstalls _ _ _).mp member)
  last := by
    intro lostPeers held member
    rw [sameCollected] at member
    exact latest.last ((sameInstalls _ _ _).mp member)
  placed := by
    rw [sameInstalled, sameCollected, samePeers]
    rcases latest.placed with onRing | ⟨behind, lostPeers, held⟩
    · exact Or.inl onRing
    · exact Or.inr ⟨behind, lostPeers, (sameInstalls _ _ _).mpr held⟩
  current := current

/-- A change that is not an installation does not affect installations. -/
theorem Replaces.install_iff
    {old new : Option ChangePoint}
    {before after : List ChangePoint}
    (replaces : Replaces old new before after)
    (oldNoInstall :
      ∀ lostPeers held number, old ≠ some (.install lostPeers held number))
    (newNoInstall :
      ∀ lostPeers held number, new ≠ some (.install lostPeers held number))
    (lostPeers held : List NodeId)
    (number : Nat) :
    .install lostPeers held number ∈ after ↔
      .install lostPeers held number ∈ before := by
  constructor
  · intro member
    rcases replaces.new_or_mem _ member with isNew | earlier
    · exact absurd isNew (newNoInstall _ _ _)
    · exact earlier
  · intro member
    rcases replaces.old_or_mem _ member with isOld | later
    · exact absurd isOld (oldNoInstall _ _ _)
    · exact later

/-- If nobody owes a list afterwards, and the moved change did not before. -/
theorem Replaces.none_owes
    {old new : Option ChangePoint}
    {before after : List ChangePoint}
    (replaces : Replaces old new before after)
    (oldOwesNot : ∀ point, old = some point → ¬ point.Owes)
    (noneOwes : ∀ point ∈ after, ¬ point.Owes) :
    ∀ point ∈ before, ¬ point.Owes := by
  intro point member
  rcases replaces.old_or_mem point member with isOld | later
  · exact oldOwesNot point isOld
  · exact noneOwes point later

section Moves

variable
  {blake3 : List UInt8 → Hash256}
  {before after : NumberedServer}
  {changes later : List ChangePoint}
  {aliveIds : List NodeId}

/-- A change computes its list: from now on that list is the last. -/
theorem Latest.collect
    (latest : Latest before changes aliveIds)
    {lostPeers : List NodeId}
    (replaces :
      Replaces (some (.collect lostPeers))
        (some (.install lostPeers before.server.membership.aliveIds
          (before.collected + 1))) changes later) :
    Latest { before with collected := before.collected + 1 } later
      before.server.membership.aliveIds where
  numbers := by
    intro lostPeers held number member
    rcases replaces.new_or_mem _ member with isNew | earlier
    · cases isNew
      exact Nat.le_refl _
    · exact Nat.le_succ_of_le (latest.numbers earlier)
  last := by
    intro lostPeers held member
    rcases replaces.new_or_mem _ member with isNew | earlier
    · cases isNew
      rfl
    · have bound := latest.numbers earlier
      simp only at bound
      omega
  placed := by
    refine Or.inr ⟨?_, lostPeers, replaces.new_mem _ rfl⟩
    rcases latest.placed with ⟨same, _⟩ | ⟨behind, _⟩
    · exact Nat.lt_succ_of_le (Nat.le_of_eq same)
    · exact Nat.lt_succ_of_lt behind
  current := fun _ _ => Membership.mem_aliveIds

/-- A change installs its list, which is newer than the one in use. -/
theorem Latest.install
    (latest : Latest before changes aliveIds)
    {lostPeers held : List NodeId}
    {number : Nat}
    (inOrder : before.installed < number)
    (replaces :
      Replaces (some (.install lostPeers held number))
        (some (.trigger lostPeers)) changes later)
    (listing : Tier → List BlockMeta) :
    Latest
      (before.advance blake3 listing (.install lostPeers held number)).1
      later aliveIds where
  numbers := by
    intro otherLost other otherNumber member
    rcases replaces.new_or_mem _ member with isNew | earlier
    · cases isNew
    · exact latest.numbers earlier
  last := by
    intro otherLost other member
    rcases replaces.new_or_mem _ member with isNew | earlier
    · cases isNew
    · exact latest.last earlier
  placed := by
    have mine := replaces.old_mem _ rfl
    have bound := latest.numbers mine
    change
      (number = before.collected ∧ held = aliveIds) ∨
        (number < before.collected ∧ _)
    by_cases isLast : number = before.collected
    · rw [isLast] at mine
      exact Or.inl ⟨isLast, latest.last mine⟩
    · refine Or.inr ⟨by omega, ?_⟩
      rcases latest.placed with ⟨same, _⟩ | ⟨_, holder, held⟩
      · omega
      · refine ⟨holder, ?_⟩
        rcases replaces.old_or_mem _ held with isOld | stays
        · cases isOld
          exact absurd rfl isLast
        · exact stays
  current := by
    intro noneOwes
    refine latest.current (replaces.none_owes ?_ noneOwes)
    intro point isOld
    cases isOld
    simp

/-- Every step of every thread keeps track of the list computed last. -/
theorem Latest.move
    (latest : Latest before changes aliveIds)
    {old new : Option ChangePoint}
    (move : Move blake3 before old after new)
    (replaces : Replaces old new changes later)
    (inOrder :
      ∀ lostPeers held number,
        old = some (.install lostPeers held number) →
        before.installed < number) :
    ∃ aliveIds, Latest after later aliveIds := by
  cases move with
  | quiet membership refreshes sameAlive =>
      refine
        ⟨aliveIds, latest.mono rfl rfl rfl
          (replaces.install_iff (by simp) (by simp)) ?_⟩
      intro noneOwes peerId
      have current :=
        latest.current (replaces.none_owes (by simp) noneOwes) peerId
      rw [← refreshes.localNodeId_eq, ← sameAlive] at current
      exact current
  | begins membership refreshes lostPeers =>
      refine
        ⟨aliveIds, latest.mono rfl rfl rfl
          (replaces.install_iff (by simp) (by simp)) ?_⟩
      intro noneOwes
      exact
        absurd (Or.inl ⟨lostPeers, rfl⟩)
          (noneOwes _ (replaces.new_mem _ rfl))
  | continues listing point =>
      cases point with
      | raise lostPeers =>
          refine
            ⟨aliveIds, latest.mono rfl rfl rfl
              (replaces.install_iff (by simp)
                (by simp [NumberedServer.advance])) ?_⟩
          intro noneOwes
          exact
            absurd (Or.inr ⟨lostPeers, rfl⟩)
              (noneOwes _ (replaces.new_mem _ rfl))
      | collect lostPeers =>
          exact ⟨_, latest.collect replaces⟩
      | install lostPeers held number =>
          exact
            ⟨_, latest.install (inOrder _ _ _ rfl) replaces listing⟩
      | trigger lostPeers =>
          have samePeers :=
            congrArg Router.peers
              (CacheNode.triggerReReplication_ring before.server.node
                lostPeers listing).2
          refine
            ⟨aliveIds, latest.mono rfl rfl samePeers
              (replaces.install_iff (by simp)
                (by simp [NumberedServer.advance])) ?_⟩
          intro noneOwes
          refine latest.current (replaces.none_owes ?_ noneOwes)
          intro point isOld
          cases isOld
          simp

/-- A step adds no entry. -/
theorem Move.known_iff
    {old new : Option ChangePoint}
    (move : Move blake3 before old after new)
    (peerId : NodeId) :
    peerId ∈ after.server.membership.peers ↔
      peerId ∈ before.server.membership.peers := by
  cases move with
  | quiet membership refreshes sameAlive =>
      exact refreshes.known_iff peerId
  | begins membership refreshes lostPeers =>
      exact refreshes.known_iff peerId
  | continues listing point =>
      cases point with
      | raise lostPeers =>
          exact Iff.rfl
      | collect lostPeers =>
          exact Iff.rfl
      | install lostPeers held number =>
          exact Iff.rfl
      | trigger lostPeers =>
          exact Iff.rfl

end Moves

namespace ConcurrentServer

/-- What holds between any two steps if lists are installed in order. -/
structure InOrder
    (peerIds : List NodeId)
    (state : ConcurrentServer) : Prop where
  known :
    ∀ peerId,
      peerId ∈ state.shared.server.membership.peers ↔ peerId ∈ peerIds
  waiting : ∀ sender, .receive sender ∈ state.handlers → sender ∈ peerIds
  latest : ∃ aliveIds, Latest state.shared state.changes aliveIds

/-- The condition on a step that continues an installation. -/
theorem installed_lt
    {state : ConcurrentServer}
    {event : ThreadEvent}
    (inOrder : state.installsInOrder event = true)
    {lostPeers held : List NodeId}
    {number : Nat}
    (continuing :
      state.continues event = some (.install lostPeers held number)) :
    state.shared.installed < number := by
  simpa [installsInOrder, continuing] using inOrder

/-- A handler that moves on waits for nothing. -/
theorem advance_not_receive
    {blake3 : List UInt8 → Hash256}
    {shared : NumberedServer}
    {now : Int}
    {listing : Tier → List BlockMeta}
    (handler : HandlerPoint)
    (sender : NodeId) :
    (handler.advance blake3 shared now listing).2 ≠ .receive sender := by
  cases handler with
  | receive waiting =>
      simp only [HandlerPoint.advance]
      split <;> simp
  | changing reply point =>
      simp only [HandlerPoint.advance]
      split <;> simp
  | finished reply =>
      simp [HandlerPoint.advance]

theorem InOrder.step
    {blake3 : List UInt8 → Hash256}
    {peerIds : List NodeId}
    {before after : ConcurrentServer}
    {event : ThreadEvent}
    (held : before.InOrder peerIds)
    (ordered : OrderedStep blake3 peerIds before event after) :
    after.InOrder peerIds := by
  simp only [OrderedStep, orderedNext, nextFrom,
    Option.ite_none_right_eq_some] at ordered
  obtain ⟨inOrder, arrives, stepped⟩ := ordered
  obtain ⟨aliveIds, latest⟩ := held.latest
  cases event with
  | arrive sender =>
      cases stepped
      refine ⟨held.known, ?_, aliveIds, ?_⟩
      · intro other member
        rcases List.mem_append.mp member with earlier | new
        · exact held.waiting other earlier
        · cases List.mem_singleton.mp new
          simpa [arrivesFrom] using arrives
      · simpa [changes, List.filterMap_cons, HandlerPoint.change]
          using latest
  | handler index now listing =>
      simp only [next, Option.map_eq_some_iff] at stepped
      obtain ⟨handler, running, isAfter⟩ := stepped
      subst isAfter
      have known :
          ∀ sender,
            handler = .receive sender →
            sender ∈ before.shared.server.membership.peers := by
        intro sender isWaiting
        subst isWaiting
        exact
          (held.known sender).mpr
            (held.waiting sender (List.mem_of_getElem? running))
      have move :=
        HandlerPoint.advance_move blake3 known now listing
      refine
        ⟨fun peerId => (move.known_iff peerId).trans (held.known peerId),
          ?_, ?_⟩
      · intro sender member
        rcases List.mem_or_eq_of_mem_set member with earlier | isNew
        · exact held.waiting sender earlier
        · exact absurd isNew.symm (advance_not_receive handler sender)
      · refine
          latest.move move (changes_handler before _ running _) ?_
        intro lostPeers installing number isOld
        have continuing :
            before.continues (.handler index now listing) =
              some (.install lostPeers installing number) := by
          simp [continues, running, isOld]
        exact installed_lt inOrder continuing
  | loop answered now listing =>
      cases stepped
      have move :=
        LoopPoint.advance_move blake3 before.shared before.loop answered
          now listing
      refine
        ⟨fun peerId => (move.known_iff peerId).trans (held.known peerId),
          held.waiting, ?_⟩
      refine latest.move move (changes_loop before _ _) ?_
      intro lostPeers installing number isOld
      exact installed_lt inOrder isOld

/-- At first nobody is at work and the ring agrees with the entries. -/
theorem start_inOrder
    {peerIds : List NodeId}
    {server : Server}
    (configured : server.Configured peerIds) :
    (start server).InOrder peerIds where
  known := configured.known
  waiting := by
    intro sender member
    simp [start] at member
  latest := by
    refine
      ⟨server.node.router.peers, ?_, ?_, Or.inl ⟨rfl, rfl⟩,
        fun _ => configured.agrees⟩
    · intro lostPeers held number member
      simp [start, changes, LoopPoint.change] at member
    · intro lostPeers held member
      simp [start, changes, LoopPoint.change] at member

end ConcurrentServer

/--
In every interleaving of the heartbeat thread with handlers of heartbeats from
configured peers that installs lists in the order of their computation, the
ring holds the local node and exactly the live peers whenever no change of
membership is in progress.
-/
theorem ring_agrees_when_lists_installed_in_order
    (blake3 : List UInt8 → Hash256)
    (config : MembershipConfig)
    (node : CacheNode)
    (seedPeers : List StaticPeer)
    (startTime : Int)
    {events : List ThreadEvent}
    {final : ConcurrentServer}
    (run :
      LabelledRun
        (ConcurrentServer.OrderedStep blake3
          (seedPeers.map StaticPeer.nodeId))
        (.start (Server.create blake3 config node seedPeers startTime))
        events final)
    (noChange : final.changes = []) :
    final.shared.server.Agrees := by
  have inOrder : final.InOrder (seedPeers.map StaticPeer.nodeId) :=
    run.invariant
      (ConcurrentServer.InOrder (seedPeers.map StaticPeer.nodeId))
      ConcurrentServer.InOrder.step
      (ConcurrentServer.start_inOrder
        (Server.create_configured config node seedPeers startTime))
  obtain ⟨aliveIds, latest⟩ := inOrder.latest
  rw [noChange] at latest
  rcases latest.placed with ⟨_, onRing⟩ | ⟨_, _, pending⟩
  · intro peerId
    rw [onRing]
    exact latest.current (by simp) peerId
  · simp at pending

/-! ## Two rejoins whose lists are installed in the wrong order -/

/-- Both configured peers are heard and die. -/
def bothDie : List ThreadEvent :=
  [ .loop [] 0 fun _ => [],
    .loop [nodeB, nodeC] 0 fun _ => [],
    .loop [] 0 fun _ => [],
    .loop [] 4000 fun _ => [],
    .loop [] 4000 fun _ => [],
    .loop [] 4000 fun _ => [],
    .loop [] 4000 fun _ => [],
    .loop [] 4000 fun _ => [],
    .loop [] 4000 fun _ => [],
    .loop [] 4000 fun _ => [] ]

/-- A step of a handler. -/
def handlerStep
    (index : Nat) :
    ThreadEvent :=
  .handler index 5000 fun _ => []

/-- Both peers come back; the first handler computes its list first. -/
def bothReturn : List ThreadEvent :=
  bothDie ++
    [ .arrive nodeB, .arrive nodeC,
      handlerStep 0, handlerStep 0, handlerStep 0,
      handlerStep 1, handlerStep 1, handlerStep 1 ]

/-- The first handler installs its list last. -/
def overtakenEvents : List ThreadEvent :=
  bothReturn ++
    [ handlerStep 1, handlerStep 1, handlerStep 0, handlerStep 0 ]

/-- The handlers install their lists in order. -/
def orderedEvents : List ThreadEvent :=
  bothReturn ++
    [ handlerStep 0, handlerStep 1, handlerStep 1, handlerStep 0 ]

/--
The handler of the second node's heartbeat lists the live peers before the
third node is marked alive and installs its list after the other handler: the
third node stays off the ring.
-/
theorem ring_update_lost :
    ∃ final,
      LabelledRun
          (ConcurrentServer.Step sampleBlake3
            (sampleSeeds.map StaticPeer.nodeId))
          (.start sampleServer) overtakenEvents final ∧
        final.loop = .send ∧
        final.handlers.all HandlerPoint.isFinished = true ∧
        final.changes = [] ∧
        ¬ final.shared.server.Agrees := by
  have executes :
      (overtakenEvents.foldlM
        (ConcurrentServer.nextFrom sampleBlake3
          (sampleSeeds.map StaticPeer.nodeId))
        (.start sampleServer)).map
          (fun final =>
            (final.loop, final.handlers.all HandlerPoint.isFinished,
              final.changes,
              final.shared.server.membership.isAlive nodeC,
              final.shared.server.node.router.peers)) =
        some (.send, true, [], true, [nodeA, nodeB]) := by
    decide +kernel
  obtain ⟨final, executed, result⟩ := Option.map_eq_some_iff.mp executes
  simp only [Prod.mk.injEq] at result
  obtain ⟨atSend, allFinished, noChange, alive, peers⟩ := result
  refine
    ⟨final, LabelledRun.of_foldlM executed, atSend, allFinished, noChange,
      ?_⟩
  intro agrees
  have onRing := (agrees nodeC).mpr (Or.inr alive)
  rw [peers] at onRing
  exact absurd onRing (by decide)

theorem ring_agrees_when_lists_installed_in_order_sample :
    ∃ final,
      LabelledRun
          (ConcurrentServer.OrderedStep sampleBlake3
            (sampleSeeds.map StaticPeer.nodeId))
          (.start sampleServer) orderedEvents final ∧
        final.changes = [] ∧
        final.shared.server.Agrees := by
  have executes :
      (orderedEvents.foldlM
        (ConcurrentServer.orderedNext sampleBlake3
          (sampleSeeds.map StaticPeer.nodeId))
        (.start sampleServer)).map ConcurrentServer.changes =
          some [] := by
    decide +kernel
  obtain ⟨final, executed, noChange⟩ := Option.map_eq_some_iff.mp executes
  have run := LabelledRun.of_foldlM executed
  exact
    ⟨final, run, noChange,
      ring_agrees_when_lists_installed_in_order sampleBlake3 {}
        (sampleNode [] nodeA) sampleSeeds 0 run noChange⟩

end Lethe
