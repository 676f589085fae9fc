import Lethe.MembershipRuns
import Lethe.Recovery

namespace Lethe

/-!
# Placement after a rejoin

When a dead peer answers again, every server puts it back on its ring.  The
call that does so passes no lost peers, so no round starts: nobody pushes the
blocks that the peer owns from then on.  A rejoin leaves a block on all its
owners only if they had it before or it was already on its way to them.
-/

/-- The call finds no peer dead. -/
def MembershipEvent.NoDeath
    (membership : Membership) :
    MembershipEvent → Prop
  | .heartbeat _ _ => True
  | .replies _ _ => True
  | .tick now _ => (membership.evaluateSuspicions now).1 = []

/-- Nobody dies, and new entries are those of the given senders. -/
structure Membership.Gains
    (sends : NodeId → Prop)
    (before after : Membership) : Prop where
  localNodeId_eq : after.localNodeId = before.localNodeId
  known :
    ∀ peerId ∈ after.peers, peerId ∈ before.peers ∨ sends peerId
  alive :
    ∀ peerId,
      before.isAlive peerId = true → after.isAlive peerId = true

/-- The live peers are distinct, and so is the list with the local node. -/
theorem Membership.nodup_aliveIds
    {membership : Membership}
    (notSelf : membership.localNodeId ∉ membership.peers) :
    membership.aliveIds.Nodup := by
  have keys := membership.peers.keys_nodup
  refine List.nodup_cons.mpr ⟨?_, ?_⟩
  · intro listed
    obtain ⟨entry, isEntry, isLocal⟩ := List.mem_map.mp listed
    rw [← isLocal] at notSelf
    exact
      notSelf
        (AList.mem_keys.mpr
          (List.mem_map_of_mem (List.mem_of_mem_filter isEntry)))
  · exact keys.sublist (List.filter_sublist.map Sigma.fst)

/-- Answers make nobody dead. -/
theorem Membership.noteReplies_gains
    (sends : NodeId → Prop)
    (membership : Membership)
    (succeeded : List NodeId)
    (now : Int) :
    membership.Gains sends (membership.noteReplies succeeded now).2 where
  localNodeId_eq := rfl
  known := fun _ member => Or.inl (mem_noteReplies.mp member)
  alive := by
    intro peerId alive
    unfold isAlive at alive ⊢
    rw [lookup_noteReplies]
    split
    · cases found : membership.peers.lookup peerId with
      | none =>
          simp [found] at alive
      | some info =>
          simp [PeerInfo.contacted]
    · exact alive

namespace Server

variable {blake3 : List UInt8 → Hash256}

/-- What a call without a death can do: it may rebuild the ring. -/
inductive Welcomes
    (blake3 : List UInt8 → Hash256)
    (sends : NodeId → Prop)
    (before : Server) :
    Server → Prop where
  | noted
      (membership : Membership)
      (gains : before.membership.Gains sends membership) :
      Welcomes blake3 sends before { before with membership := membership }
  | rebuilt
      (membership : Membership)
      (gains : before.membership.Gains sends membership) :
      Welcomes blake3 sends before
        { node :=
            { before.node with
              router :=
                before.node.router.setPeers blake3 membership.aliveIds }
          membership := membership.bumpEpoch }

/-- Only the ring of the cache server may change. -/
theorem Welcomes.node_eq
    {sends : NodeId → Prop}
    {before after : Server}
    (welcomes : before.Welcomes blake3 sends after) :
    ∃ router, after.node = { before.node with router := router } := by
  cases welcomes with
  | noted membership gains =>
      exact ⟨_, rfl⟩
  | rebuilt membership gains =>
      exact ⟨_, rfl⟩

/-- A call without a death starts no round. -/
theorem next_welcomes
    (blake3 : List UInt8 → Hash256)
    {sends : NodeId → Prop}
    {server : Server}
    {event : MembershipEvent}
    (sent : event.SentBy sends)
    (noDeath : event.NoDeath server.membership) :
    server.Welcomes blake3 sends (server.next blake3 event) := by
  cases event with
  | heartbeat sender now =>
      have gains :
          server.membership.Gains sends
            (server.membership.noteHeartbeat sender now).2 := by
        refine ⟨rfl, ?_, ?_⟩
        · intro peerId member
          rcases Membership.mem_noteHeartbeat.mp member with isSender | old
          · rw [isSender]
            exact Or.inr sent
          · exact Or.inl old
        · intro peerId alive
          rw [Membership.isAlive_noteHeartbeat, alive, Bool.or_true]
      simp only [next, onHeartbeat]
      split
      · exact .rebuilt _ gains
      · exact .noted _ gains
  | replies answered now =>
      have gains :=
        server.membership.noteReplies_gains sends
          (server.membership.targets.filter fun peerId =>
            peerId ∈ answered) now
      simp only [next, sendHeartbeatsToAllPeers]
      split
      · exact .noted _ gains
      · exact .rebuilt _ gains
  | tick now listing =>
      have nobody : (server.membership.evaluateSuspicions now).1 = [] :=
        noDeath
      have gains :
          server.membership.Gains sends
            (server.membership.evaluateSuspicions now).2 := by
        refine ⟨rfl, ?_, ?_⟩
        · exact fun _ member =>
            Or.inl (Membership.mem_evaluateSuspicions.mp member)
        · intro peerId alive
          rwa [Membership.isAlive_evaluateSuspicions nobody]
      simp only [next, detect]
      rw [if_pos nobody]
      exact .noted _ gains

/--
A server under its own name, without an entry for itself, on a ring of
distinct live peers with the given settings.
-/
structure Ready
    (blake3 : List UInt8 → Hash256)
    (full : Router)
    (name : NodeId)
    (server : Server) : Prop where
  ring : server.node.HasRing blake3 full name
  localNodeId_eq : server.membership.localNodeId = name
  notSelf : name ∉ server.membership.peers
  distinct : server.node.router.peers.Nodup
  live :
    ∀ peerId ∈ server.node.router.peers,
      peerId = name ∨ server.membership.isAlive peerId = true

/-- The ring of a server grows in a call without a death. -/
theorem Ready.next
    {full : Router}
    {name : NodeId}
    {server : Server}
    (ready : server.Ready blake3 full name)
    {event : MembershipEvent}
    (sent : event.SentBy fun sender => sender ≠ name)
    (noDeath : event.NoDeath server.membership) :
    (server.next blake3 event).Ready blake3 full name ∧
      server.node.router.peers ⊆
        (server.next blake3 event).node.router.peers := by
  have welcomes := next_welcomes blake3 sent noDeath
  have stranger
      {membership : Membership}
      (gains :
        server.membership.Gains (fun sender => sender ≠ name)
          membership) :
      name ∉ membership.peers := by
    intro member
    rcases gains.known name member with old | isOther
    · exact ready.notSelf old
    · exact isOther rfl
  generalize server.next blake3 event = after at welcomes
  cases welcomes with
  | noted membership gains =>
      refine
        ⟨⟨ready.ring, gains.localNodeId_eq.trans ready.localNodeId_eq,
          stranger gains, ready.distinct, ?_⟩, List.Subset.refl _⟩
      intro peerId onRing
      exact (ready.live peerId onRing).imp_right (gains.alive peerId)
  | rebuilt membership gains =>
      have isLocal := gains.localNodeId_eq.trans ready.localNodeId_eq
      have notSelf := stranger gains
      refine
        ⟨⟨⟨ready.ring.nodeId_eq, Router.setPeers_built blake3 _ _,
          ready.ring.variant.vnodesPerPeer_eq,
          ready.ring.variant.replicationFactor_eq⟩, isLocal, notSelf,
          ?_, ?_⟩, ?_⟩
      · refine Membership.nodup_aliveIds ?_
        rwa [isLocal]
      · intro peerId onRing
        rw [← isLocal]
        exact Membership.mem_aliveIds.mp onRing
      · intro peerId onRing
        refine Membership.mem_aliveIds.mpr ?_
        rw [isLocal]
        exact (ready.live peerId onRing).imp_right (gains.alive peerId)

end Server

/-! ## Owners that a server knows -/

namespace Router

variable
  {blake3 : List UInt8 → Hash256}
  {full router : Router}

/-- A ring of some of the peers is the full ring without the others. -/
theorem perm_survivors
    (fullDistinct : full.peers.Nodup)
    (distinct : router.peers.Nodup)
    (subset : router.peers ⊆ full.peers) :
    router.peers.Perm
      (full.survivors (full.peers.toFinset \ router.peers.toFinset)) := by
  refine
    (List.perm_ext_iff_of_nodup distinct
      (fullDistinct.sublist List.filter_sublist)).mpr ?_
  intro peer
  simp only [List.mem_filter, Finset.mem_sdiff, List.mem_toFinset,
    decide_eq_true_eq, not_and, not_not]
  exact
    ⟨fun known => ⟨subset known, fun _ => known⟩,
      fun listed => listed.2 listed.1⟩

/-- An owner on the full ring is an owner on every ring that has it. -/
theorem Variant.mem_members_of_known
    (built : full.Built blake3)
    (hashes : DistinctHashes blake3 full.vnodesPerPeer full.peers)
    (fullDistinct : full.peers.Nodup)
    (variant : full.Variant blake3 router)
    (distinct : router.peers.Nodup)
    (subset : router.peers ⊆ full.peers)
    {id : BlockId}
    {owner : NodeId}
    (isOwner : owner ∈ (full.route id).members)
    (known : owner ∈ router.peers) :
    owner ∈ (router.route id).members := by
  rw [variant.members_eq built hashes
    (perm_survivors fullDistinct distinct subset)]
  rw [route_eq built, RouteResult.members_ofPicked] at isOwner
  refine mem_take_filter _ isOwner ?_
  simp [known]

end Router

/-! ## Clusters whose servers have a membership -/

/-- A cluster, with the membership component of each server. -/
structure MemberCluster where
  cluster : Cluster
  memberships : NodeId → Membership

/-- Membership calls, ticks of rounds, and pushes. -/
inductive RejoinEvent where
  | member (node : NodeId) (event : MembershipEvent)
  | drain (node : NodeId)
  | push (event : Cluster.PushEvent)

namespace MemberCluster

/-- One server of the cluster. -/
def server
    (state : MemberCluster)
    (name : NodeId) :
    Server where
  node := state.cluster.nodes name
  membership := state.memberships name

/-- The cluster with one server replaced. -/
def withServer
    (state : MemberCluster)
    (name : NodeId)
    (server : Server) :
    MemberCluster where
  cluster := state.cluster.update name server.node
  memberships := Function.update state.memberships name server.membership

/--
Steps in which nobody is found dead.  Servers send no heartbeats to themselves,
and pushes are delivered to servers that have room.
-/
inductive Step
    (blake3 : List UInt8 → Hash256) :
    MemberCluster → RejoinEvent → MemberCluster → Prop where
  | member
      (state : MemberCluster)
      (name : NodeId)
      (event : MembershipEvent)
      (sent : event.SentBy fun sender => sender ≠ name)
      (noDeath : event.NoDeath (state.memberships name)) :
      Step blake3 state (.member name event)
        (state.withServer name ((state.server name).next blake3 event))
  | drain
      (state : MemberCluster)
      (name : NodeId) :
      Step blake3 state (.drain name)
        { state with
          cluster :=
            state.cluster.update name
              (state.cluster.nodes name).drainReReplication }
  | push
      (state : MemberCluster)
      {event : Cluster.PushEvent}
      {next : Cluster}
      (pushed : Cluster.Push state.cluster event next) :
      Step blake3 state (.push event) { state with cluster := next }

/-- The servers of a ring are ready. -/
def Ready
    (blake3 : List UInt8 → Hash256)
    (full : Router)
    (state : MemberCluster) : Prop :=
  ∀ name ∈ full.peers, (state.server name).Ready blake3 full name

/-- No round is active and no push is queued or on its way. -/
structure Quiet
    (state : MemberCluster) : Prop where
  inactive : ∀ name, (state.cluster.nodes name).rerepActive = false
  queue_eq : ∀ name, (state.cluster.nodes name).queue = []
  wire_eq : state.cluster.wire = []

/--
The owner has the block, or a push of it to the owner is queued or on its way,
or it is still to come in the round of a server that has it and knows the owner.
-/
def Provided
    (full : Router)
    (state : MemberCluster)
    (id : BlockId)
    (owner : NodeId) : Prop :=
  (state.cluster.nodes owner).store.Resident id ∨
    (∃ name task,
      state.cluster.Queued name task ∧
        task.peerId = owner ∧ task.block.id = id) ∨
    ∃ name ∈ full.peers,
      name ≠ owner ∧
        id ∈ (state.cluster.nodes name).outstanding ∧
        (state.cluster.nodes name).store.Resident id ∧
        owner ∈ (state.cluster.nodes name).router.peers

/-- What is provided stays so while copies stay and debts are kept or paid. -/
theorem Provided.mono
    {full : Router}
    {before after : MemberCluster}
    {id : BlockId}
    {owner : NodeId}
    (provided : before.Provided full id owner)
    (resident :
      (before.cluster.nodes owner).store.Resident id →
      (after.cluster.nodes owner).store.Resident id)
    (pushes :
      ∀ name task,
        before.cluster.Queued name task →
        task.peerId = owner →
        task.block.id = id →
        after.Provided full id owner)
    (rounds :
      ∀ name ∈ full.peers,
        name ≠ owner →
        id ∈ (before.cluster.nodes name).outstanding →
        (before.cluster.nodes name).store.Resident id →
        owner ∈ (before.cluster.nodes name).router.peers →
        after.Provided full id owner) :
    after.Provided full id owner := by
  rcases provided with held | ⟨name, task, queued, isOwner, isBlock⟩ |
    ⟨name, onRing, other, stillOut, held, known⟩
  · exact Or.inl (resident held)
  · exact pushes name task queued isOwner isBlock
  · exact rounds name onRing other stillOut held known

/-- In a quiet cluster only the owner's own copy provides for it. -/
theorem Quiet.provided_iff
    {state : MemberCluster}
    (quiet : state.Quiet)
    (full : Router)
    (id : BlockId)
    (owner : NodeId) :
    state.Provided full id owner ↔
      (state.cluster.nodes owner).store.Resident id := by
  simp [Provided, Cluster.Queued, CacheNode.outstanding, quiet.queue_eq,
    quiet.wire_eq, quiet.inactive]

@[simp] theorem server_withServer_self
    (state : MemberCluster)
    (name : NodeId)
    (server : Server) :
    (state.withServer name server).server name = server := by
  simp [MemberCluster.server, withServer]

theorem server_withServer_of_ne
    (state : MemberCluster)
    {name other : NodeId}
    (different : other ≠ name)
    (server : Server) :
    (state.withServer name server).server other = state.server other := by
  simp [MemberCluster.server, withServer, different]

/-- A membership call without a death only changes the ring. -/
theorem next_node_eq
    (blake3 : List UInt8 → Hash256)
    (state : MemberCluster)
    {name : NodeId}
    {event : MembershipEvent}
    {sends : NodeId → Prop}
    (sent : event.SentBy sends)
    (noDeath : event.NoDeath (state.memberships name)) :
    ∃ router,
      ((state.server name).next blake3 event).node =
        { state.cluster.nodes name with router := router } :=
  (@Server.next_welcomes blake3 sends (state.server name) event sent
    noDeath).node_eq

/-- No other server is touched. -/
theorem withServer_next_nodes
    (blake3 : List UInt8 → Hash256)
    (state : MemberCluster)
    {name : NodeId}
    {event : MembershipEvent}
    {sends : NodeId → Prop}
    (sent : event.SentBy sends)
    (noDeath : event.NoDeath (state.memberships name))
    (other : NodeId) :
    ∃ router,
      ((state.withServer name
          ((state.server name).next blake3 event)).cluster.nodes other) =
        { state.cluster.nodes other with router := router } := by
  by_cases same : other = name
  · subst same
    obtain ⟨router, sameNode⟩ := state.next_node_eq blake3 sent noDeath
    exact ⟨router, (Cluster.update_nodes_self ..).trans sameNode⟩
  · exact ⟨_, Cluster.update_nodes_of_ne _ same _⟩

/-- A ready server stays so while it keeps its name, ring and membership. -/
theorem server_ready_of_same_ring
    {blake3 : List UInt8 → Hash256}
    {full : Router}
    {name : NodeId}
    {before : Server}
    (ready : before.Ready blake3 full name)
    {node : CacheNode}
    (sameName : node.nodeId = before.node.nodeId)
    (sameRing : node.router = before.node.router) :
    ({ before with node := node } : Server).Ready blake3 full name where
  ring :=
    ⟨sameName.trans ready.ring.nodeId_eq, by
      rw [sameRing]
      exact ready.ring.variant⟩
  localNodeId_eq := ready.localNodeId_eq
  notSelf := ready.notSelf
  distinct := by
    rw [sameRing]
    exact ready.distinct
  live := by
    rw [sameRing]
    exact ready.live

/-- A ready server re-replicates to every other owner that it knows. -/
theorem server_targets_known_owner
    {blake3 : List UInt8 → Hash256}
    {full : Router}
    {name : NodeId}
    {server : Server}
    (ready : server.Ready blake3 full name)
    (built : full.Built blake3)
    (hashes : DistinctHashes blake3 full.vnodesPerPeer full.peers)
    (fullDistinct : full.peers.Nodup)
    (within : server.node.router.peers ⊆ full.peers)
    {id : BlockId}
    {owner : NodeId}
    (isOwner : owner ∈ (full.route id).members)
    (known : owner ∈ server.node.router.peers)
    (other : name ≠ owner) :
    owner ∈ server.node.rerepTargets id := by
  have owns :=
    ready.ring.variant.mem_members_of_known built hashes fullDistinct
      ready.distinct within isOwner known
  exact
    CacheNode.mem_rerepTargets.mpr
      ⟨owns, fun same =>
        other (ready.ring.nodeId_eq.symm.trans same.symm)⟩

namespace Step

variable
  {blake3 : List UInt8 → Hash256}
  {full : Router}
  {before after : MemberCluster}
  {event : RejoinEvent}

/-- Ready servers stay ready, and their rings only grow. -/
theorem ready
    (ready : before.Ready blake3 full)
    (step : Step blake3 before event after)
    {name : NodeId}
    (onRing : name ∈ full.peers) :
    (after.server name).Ready blake3 full name ∧
      (before.cluster.nodes name).router.peers ⊆
        (after.cluster.nodes name).router.peers := by
  have here := ready name onRing
  cases step with
  | member changed call sent noDeath =>
      by_cases same : name = changed
      · subst same
        have next := here.next sent noDeath
        refine ⟨?_, ?_⟩
        · rw [server_withServer_self]
          exact next.1
        · simp only [withServer, Cluster.update_nodes_self]
          exact next.2
      · refine ⟨?_, ?_⟩
        · rw [server_withServer_of_ne _ same]
          exact here
        · simp [withServer, same]
  | drain drained =>
      by_cases same : name = drained
      · subst same
        have kept :=
          CacheNode.drainReReplication_ring (before.cluster.nodes name)
        refine ⟨?_, ?_⟩
        · have next := server_ready_of_same_ring here kept.1 kept.2
          simpa [MemberCluster.server] using next
        · simp [kept.2]
      · refine ⟨?_, ?_⟩
        · simpa [MemberCluster.server, same] using here
        · simp [same]
  | push pushed =>
      obtain ⟨store, queue, drops, sameNode⟩ := pushed.node_eq name
      refine ⟨?_, ?_⟩
      · refine server_ready_of_same_ring here ?_ ?_
        · rw [sameNode]
          rfl
        · rw [sameNode]
          rfl
      · simp [sameNode]

/-- Steps keep a property of all bytes. -/
theorem carries
    {holds : BlockId → List UInt8 → Prop}
    (carried : before.cluster.Carries holds)
    (step : Step blake3 before event after) :
    after.cluster.Carries holds := by
  cases step with
  | member changed call sent noDeath =>
      obtain ⟨router, sameNode⟩ := before.next_node_eq blake3 sent noDeath
      refine carried.update ?_
      rw [sameNode]
      exact ⟨(carried.nodes changed).store, (carried.nodes changed).queue⟩
  | drain drained =>
      exact carried.update (carried.nodes drained).drainReReplication
  | push pushed =>
      exact pushed.carries carried

/-- What is provided stays so. -/
theorem provided
    (built : full.Built blake3)
    (hashes : DistinctHashes blake3 full.vnodesPerPeer full.peers)
    (fullDistinct : full.peers.Nodup)
    {blocks : Set BlockId}
    (carried :
      before.cluster.Carries fun id data => id ∈ blocks → data ≠ [])
    (ready : before.Ready blake3 full)
    (within :
      ∀ name ∈ full.peers,
        (before.cluster.nodes name).router.peers ⊆ full.peers)
    (step : Step blake3 before event after)
    {id : BlockId}
    (isBlock : id ∈ blocks)
    {owner : NodeId}
    (isOwner : owner ∈ (full.route id).members)
    (provided : before.Provided full id owner) :
    after.Provided full id owner := by
  have grows {name : NodeId} (onRing : name ∈ full.peers) :=
    (step.ready ready onRing).2
  cases step with
  | member changed call sent noDeath =>
      have same :=
        before.withServer_next_nodes blake3 sent noDeath
      refine provided.mono ?_ ?_ ?_
      · obtain ⟨router, sameNode⟩ := same owner
        rw [sameNode]
        exact fun held => held
      · intro name task queued toOwner ofBlock
        refine Or.inr (Or.inl ⟨name, task, ?_, toOwner, ofBlock⟩)
        obtain ⟨router, sameNode⟩ := same name
        rw [Cluster.Queued, sameNode]
        exact queued
      · intro name onRing other stillOut held known
        refine Or.inr (Or.inr ⟨name, onRing, other, ?_, ?_,
          grows onRing known⟩)
        · obtain ⟨router, sameNode⟩ := same name
          rw [sameNode]
          exact stillOut
        · obtain ⟨router, sameNode⟩ := same name
          rw [sameNode]
          exact held
  | drain drained =>
      have advances :=
        CacheNode.Advances.drainReReplication (carried.nodes drained)
      have residents :=
        @Cluster.resident_update before.cluster drained _
          advances.resident_iff
      refine provided.mono (residents owner id).mpr ?_ ?_
      · intro name task queued toOwner ofBlock
        exact
          Or.inr (Or.inl
            ⟨name, task, queued.update advances.queue_subset, toOwner,
              ofBlock⟩)
      · intro name onRing other stillOut held known
        by_cases isDrained : name = drained
        · subst isDrained
          have isTarget :
              owner ∈ (before.cluster.nodes name).rerepTargets id :=
            server_targets_known_owner (ready name onRing) built hashes
              fullDistinct (within name onRing) isOwner known other
          rcases advances.handled id isBlock held stillOut owner isTarget
            with later | ⟨task, queued, toOwner, ofBlock⟩
          · refine Or.inr (Or.inr ⟨name, onRing, other, ?_,
              (residents name id).mpr held, grows onRing known⟩)
            rwa [Cluster.update_nodes_self]
          · refine
              Or.inr (Or.inl
                ⟨name, task, Or.inl ?_, toOwner, ofBlock⟩)
            rwa [Cluster.update_nodes_self]
        · refine Or.inr (Or.inr ⟨name, onRing, other, ?_,
            (residents name id).mpr held, grows onRing known⟩)
          rwa [Cluster.update_nodes_of_ne _ isDrained]
  | push pushed =>
      refine provided.mono (pushed.keeps_resident carried) ?_ ?_
      · intro name task queued toOwner ofBlock
        rcases pushed.keeps_task queued with stillQueued | isDelivery
        · exact
            Or.inr (Or.inl ⟨name, task, stillQueued, toOwner, ofBlock⟩)
        · exact
            Or.inl
              ((pushed.resident_iff carried owner id).mpr
                (Or.inr ⟨task, isDelivery, toOwner, ofBlock⟩))
      · intro name onRing other stillOut held known
        obtain ⟨store, queue, drops, sameNode⟩ := pushed.node_eq name
        refine Or.inr (Or.inr ⟨name, onRing, other, ?_,
          pushed.keeps_resident carried held, grows onRing known⟩)
        rw [sameNode]
        exact stillOut

/-- In a quiet cluster nothing is copied and nothing is started. -/
theorem quiet
    (quiet : before.Quiet)
    (step : Step blake3 before event after) :
    after.Quiet ∧
      ∀ name,
        (after.cluster.nodes name).store =
          (before.cluster.nodes name).store := by
  cases step with
  | member changed call sent noDeath =>
      have same :=
        before.withServer_next_nodes blake3 sent noDeath
      refine ⟨⟨?_, ?_, quiet.wire_eq⟩, ?_⟩
      · intro name
        obtain ⟨router, sameNode⟩ := same name
        rw [sameNode]
        exact quiet.inactive name
      · intro name
        obtain ⟨router, sameNode⟩ := same name
        rw [sameNode]
        exact quiet.queue_eq name
      · intro name
        obtain ⟨router, sameNode⟩ := same name
        rw [sameNode]
  | drain drained =>
      have nothing :
          before.cluster.update drained
              (before.cluster.nodes drained).drainReReplication =
            before.cluster := by
        simp [CacheNode.drainReReplication, quiet.inactive drained,
          Cluster.update]
      rw [nothing]
      exact ⟨quiet, fun _ => rfl⟩
  | push pushed =>
      cases pushed with
      | send sender task oldest =>
          simp [quiet.queue_eq] at oldest
      | deliver task onWire room =>
          simp [quiet.wire_eq] at onWire

end Step

/-- Every owner on the ring has its blocks. -/
def Placed
    (full : Router)
    (blocks : Set BlockId)
    (state : MemberCluster) : Prop :=
  ∀ id ∈ blocks,
    ∀ owner ∈ (full.route id).members,
      (state.cluster.nodes owner).store.Resident id

/-- Every owner on the ring is provided with its blocks. -/
def AllProvided
    (full : Router)
    (blocks : Set BlockId)
    (state : MemberCluster) : Prop :=
  ∀ id ∈ blocks,
    ∀ owner ∈ (full.route id).members,
      state.Provided full id owner

section Runs

variable
  {blake3 : List UInt8 → Hash256}
  {full : Router}
  {first last : MemberCluster}
  {events : List RejoinEvent}

/-- Rings of ready servers only grow. -/
theorem ring_subset_of_run
    (run : LabelledRun (Step blake3) first events last)
    (ready : first.Ready blake3 full)
    {name : NodeId}
    (onRing : name ∈ full.peers) :
    (first.cluster.nodes name).router.peers ⊆
      (last.cluster.nodes name).router.peers := by
  induction run with
  | nil =>
      exact List.Subset.refl _
  | cons head tail inductionHypothesis =>
      exact
        List.Subset.trans (head.ready ready onRing).2
          (inductionHypothesis fun _ onFull =>
            (head.ready ready onFull).1)

/-- What is provided stays so, if the rings end up within the full one. -/
theorem provided_of_run
    (built : full.Built blake3)
    (hashes : DistinctHashes blake3 full.vnodesPerPeer full.peers)
    (fullDistinct : full.peers.Nodup)
    {blocks : Set BlockId}
    (run : LabelledRun (Step blake3) first events last)
    (carried :
      first.cluster.Carries fun id data => id ∈ blocks → data ≠ [])
    (ready : first.Ready blake3 full)
    (within :
      ∀ name ∈ full.peers,
        (last.cluster.nodes name).router.peers ⊆ full.peers)
    (provided : first.AllProvided full blocks) :
    last.AllProvided full blocks := by
  induction run with
  | nil =>
      exact provided
  | cons head tail inductionHypothesis =>
      have nextReady : Ready blake3 full _ :=
        fun _ onFull => (head.ready ready onFull).1
      refine
        inductionHypothesis (head.carries carried) nextReady within ?_
      intro id isBlock owner isOwner
      refine
        head.provided built hashes fullDistinct carried ready ?_ isBlock
          isOwner (provided id isBlock owner isOwner)
      intro name onRing
      exact
        List.Subset.trans
          (ring_subset_of_run (.cons head tail) ready onRing)
          (within name onRing)

/-- A run from a quiet cluster moves no block. -/
theorem store_eq_of_run
    (run : LabelledRun (Step blake3) first events last)
    (quiet : first.Quiet)
    (name : NodeId) :
    (last.cluster.nodes name).store = (first.cluster.nodes name).store := by
  induction run with
  | nil =>
      rfl
  | cons head tail inductionHypothesis =>
      have next := head.quiet quiet
      exact (inductionHypothesis next.1).trans (next.2 name)

end Runs

end MemberCluster

/--
Dead peers come back with whatever they hold, and every server of the full ring
handles it.  When no round or push is left, the blocks are on all owners of the
full ring if every owner was provided for at the start.  If nothing was in
progress at the start, they are there only then.
-/
theorem rejoin_restores_placement
    (blake3 : List UInt8 → Hash256)
    {full : Router}
    (built : full.Built blake3)
    (hashes : DistinctHashes blake3 full.vnodesPerPeer full.peers)
    (fullDistinct : full.peers.Nodup)
    (blocks : Set BlockId)
    {initial final : MemberCluster}
    (ready : initial.Ready blake3 full)
    (nonempty :
      initial.cluster.Carries fun id data => id ∈ blocks → data ≠ [])
    {events : List RejoinEvent}
    (run : LabelledRun (MemberCluster.Step blake3) initial events final)
    (handled :
      ∀ name ∈ full.peers,
        (final.cluster.nodes name).router.peers.Perm full.peers)
    (settled : final.Quiet) :
    (initial.AllProvided full blocks → final.Placed full blocks) ∧
      (initial.Quiet →
        (final.Placed full blocks ↔ initial.AllProvided full blocks)) := by
  have restores
      (provided : initial.AllProvided full blocks) :
      final.Placed full blocks := by
    have still :=
      MemberCluster.provided_of_run built hashes fullDistinct run nonempty
        ready (fun name onRing => (handled name onRing).subset) provided
    intro id isBlock owner isOwner
    exact
      (settled.provided_iff full id owner).mp
        (still id isBlock owner isOwner)
  refine ⟨restores, fun quiet => ⟨?_, restores⟩⟩
  intro placed id isBlock owner isOwner
  refine (quiet.provided_iff full id owner).mpr ?_
  rw [← MemberCluster.store_eq_of_run run quiet owner]
  exact placed id isBlock owner isOwner

/-! ## The first of three servers comes back -/

/-- The configured peers of a server. -/
def peersOf
    (name : NodeId) :
    List StaticPeer :=
  [ ⟨nodeA, "node-a:7001"⟩, ⟨nodeB, "node-b:7001"⟩,
    ⟨nodeC, "node-c:7001"⟩ ].filter fun peer => peer.nodeId ≠ name

/-- The server with the sample block in its memory. -/
def CacheNode.holdingSample
    (node : CacheNode) :
    CacheNode :=
  { node with store := (node.store.put sampleInsert .dram).2 }

/--
The other two servers have seen the first one die and hold the block; the first
one has just started and may have kept it.
-/
def sampleReturn
    (kept : Bool) :
    MemberCluster where
  cluster :=
    { nodes := fun name =>
        if name = nodeA then
          if kept then
            (sampleNode [nodeA, nodeB, nodeC] name).holdingSample
          else
            sampleNode [nodeA, nodeB, nodeC] name
        else
          (sampleNode [nodeB, nodeC] name).holdingSample
      wire := [] }
  memberships := fun name =>
    if name = nodeA then
      Membership.create {} name (peersOf name) 5000
    else
      (((Membership.create {} name (peersOf name) 0).noteHeartbeat nodeA
        0).2.evaluateSuspicions 4000).2

/-- Both survivors get an answer from the first server. -/
def sampleWelcome : List RejoinEvent :=
  [ .member nodeB (.replies [nodeA] 5000),
    .member nodeC (.replies [nodeA] 5000) ]

/-- The cluster after one survivor has got its answer. -/
def MemberCluster.answered
    (state : MemberCluster)
    (name : NodeId) :
    MemberCluster :=
  state.withServer name
    ((state.server name).next sampleBlake3 (.replies [nodeA] 5000))

/-- The cluster after both survivors have put the first server on their rings. -/
def sampleReturned
    (kept : Bool) :
    MemberCluster :=
  ((sampleReturn kept).answered nodeB).answered nodeC

theorem sampleReturned_run
    (kept : Bool) :
    LabelledRun (MemberCluster.Step sampleBlake3) (sampleReturn kept)
      sampleWelcome (sampleReturned kept) :=
  .cons (.member _ nodeB (.replies [nodeA] 5000) trivial trivial) <|
  .cons (.member _ nodeC (.replies [nodeA] 5000) trivial trivial) <|
  .nil _

theorem sampleReturn_ready
    (kept : Bool) :
    (sampleReturn kept).Ready sampleBlake3
      (sampleRouter nodeA [nodeA, nodeB, nodeC]) := by
  intro name onRing
  have facts :
      ∀ kept,
        ∀ name ∈ [nodeA, nodeB, nodeC],
          ((sampleReturn kept).cluster.nodes name).nodeId = name ∧
            ((sampleReturn kept).memberships name).localNodeId = name ∧
            name ∉ ((sampleReturn kept).memberships name).peers ∧
            ((sampleReturn kept).cluster.nodes name).router.peers.Nodup ∧
            ∀ peerId ∈
                ((sampleReturn kept).cluster.nodes name).router.peers,
              peerId = name ∨
                ((sampleReturn kept).memberships name).isAlive peerId =
                  true := by
    decide +kernel
  obtain ⟨sameName, isLocal, notSelf, distinct, live⟩ :=
    facts kept name onRing
  refine ⟨⟨sameName, ?_⟩, isLocal, notSelf, distinct, live⟩
  simp only [MemberCluster.server, sampleReturn]
  split
  · split
    · exact ⟨sampleRouter_built name _, rfl, rfl⟩
    · exact ⟨sampleRouter_built name _, rfl, rfl⟩
  · exact ⟨sampleRouter_built name _, rfl, rfl⟩

theorem sampleReturn_quiet
    (kept : Bool) :
    (sampleReturn kept).Quiet := by
  have node (name : NodeId) :
      ((sampleReturn kept).cluster.nodes name).rerepActive = false ∧
        ((sampleReturn kept).cluster.nodes name).queue = [] := by
    simp only [sampleReturn]
    split
    · split
      · exact ⟨rfl, rfl⟩
      · exact ⟨rfl, rfl⟩
    · exact ⟨rfl, rfl⟩
  exact ⟨fun name => (node name).1, fun name => (node name).2, rfl⟩

theorem sampleReturned_quiet
    (kept : Bool) :
    (sampleReturned kept).Quiet :=
  (sampleReturned_run kept).invariant _
    (fun quiet step => (step.quiet quiet).1) (sampleReturn_quiet kept)

theorem sampleReturned_peers :
    ∀ kept,
      ∀ name ∈ [nodeA, nodeB, nodeC],
        ((sampleReturned kept).cluster.nodes name).router.peers.Perm
          [nodeA, nodeB, nodeC] := by
  decide +kernel

/--
Both owners on the survivors' ring have the block, the first server comes back
empty, and everybody handles it.  Nothing is left to do, but the first server
is an owner on the full ring and does not have the block.
-/
theorem rejoined_owner_without_block :
    LabelledRun (MemberCluster.Step sampleBlake3) (sampleReturn false)
        sampleWelcome (sampleReturned false) ∧
      (∀ owner ∈ ((sampleRouter nodeB [nodeB, nodeC]).route
          sampleBlock).members,
        ((sampleReturn false).cluster.nodes owner).store.Resident
          sampleBlock) ∧
      (∀ name ∈ [nodeA, nodeB, nodeC],
        ((sampleReturned false).cluster.nodes name).router.peers.Perm
          [nodeA, nodeB, nodeC]) ∧
      (sampleReturned false).Quiet ∧
      nodeA ∈ ((sampleRouter nodeA [nodeA, nodeB, nodeC]).route
        sampleBlock).members ∧
      ¬ ((sampleReturned false).cluster.nodes nodeA).store.Resident
        sampleBlock :=
  ⟨sampleReturned_run false, by decide +kernel, sampleReturned_peers false,
    sampleReturned_quiet false, by decide +kernel, by decide +kernel⟩

/-- If the first server kept the block, all owners have it in the end. -/
theorem rejoin_restores_placement_sample :
    (sampleReturn true).AllProvided
        (sampleRouter nodeA [nodeA, nodeB, nodeC]) {sampleBlock} ∧
      (sampleReturned true).Placed
        (sampleRouter nodeA [nodeA, nodeB, nodeC]) {sampleBlock} := by
  have provided :
      (sampleReturn true).AllProvided
        (sampleRouter nodeA [nodeA, nodeB, nodeC]) {sampleBlock} := by
    intro id isBlock owner isOwner
    rw [Set.mem_singleton_iff.mp isBlock] at isOwner ⊢
    refine Or.inl ?_
    revert owner
    decide +kernel
  have fresh (name : NodeId) (peers : List NodeId) :
      (sampleNode peers name).Carries fun id data =>
        id ∈ ({sampleBlock} : Set BlockId) → data ≠ [] :=
    ((sampleCluster_fresh peers).carries _).nodes name
  have holding (name : NodeId) (peers : List NodeId) :
      (sampleNode peers name).holdingSample.Carries fun id data =>
        id ∈ ({sampleBlock} : Set BlockId) → data ≠ [] :=
    (fresh name peers).withStore
      ((fresh name peers).store.put (by simp [sampleInsert]) .dram)
  refine
    ⟨provided,
      (rejoin_restores_placement sampleBlake3
        (sampleRouter_built nodeA [nodeA, nodeB, nodeC])
        (by decide +kernel) (by decide +kernel) {sampleBlock}
        (sampleReturn_ready true) ⟨?_, ?_⟩
        (sampleReturned_run true) (sampleReturned_peers true)
        (sampleReturned_quiet true)).1 provided⟩
  · intro name
    simp only [sampleReturn, ↓reduceIte]
    split
    · exact holding name _
    · exact holding name _
  · simp [sampleReturn]

end Lethe
