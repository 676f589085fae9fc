import Lethe.Cluster
import Lethe.Membership

namespace Lethe

/-!
# Runs of membership calls

Membership calls that each run to completion change the ring and the epoch
together, except that a heartbeat from a peer without an entry marks the peer
alive and does neither.  So the ring never holds a dead peer, and it holds all
live peers exactly as long as heartbeats come from configured peers only.

The reply to a heartbeat is made before the epoch is raised.  Two replies with
one epoch can therefore differ, if the later one answers a peer marked dead.
-/

namespace Server

variable {blake3 : List UInt8 → Hash256}

theorem run_concat
    (server : Server)
    (events : List MembershipEvent)
    (event : MembershipEvent) :
    server.run blake3 (events ++ [event]) =
      (server.run blake3 events).next blake3 event := by
  simp [run]

/-- What every call preserves, a sequence of calls preserves. -/
theorem run_preserves
    (holds : Server → Prop)
    {events : List MembershipEvent}
    (preserved :
      ∀ {server event},
        event ∈ events →
        holds server →
        holds (server.next blake3 event))
    {server : Server}
    (initially : holds server) :
    holds (server.run blake3 events) := by
  induction events generalizing server with
  | nil =>
      exact initially
  | cons event rest inductionHypothesis =>
      refine inductionHypothesis ?_ (preserved (by simp) initially)
      intro server later member
      exact preserved (List.mem_cons_of_mem _ member)

/-! ## The ring holds live peers only -/

/--
The ring is built from the local node and peers marked alive; membership and
cache agree on who the local node is.
-/
structure RoutesToLive
    (blake3 : List UInt8 → Hash256)
    (server : Server) : Prop where
  sameName : server.membership.localNodeId = server.node.nodeId
  built : server.node.router.Built blake3
  live :
    ∀ peerId ∈ server.node.router.peers,
      peerId = server.membership.localNodeId ∨
        server.membership.isAlive peerId = true

/-- A rebuilt ring holds the local node and the live peers. -/
theorem onMembershipChange_peers
    (server : Server)
    (lostPeers : List NodeId)
    (listing : Tier → List BlockMeta) :
    (server.onMembershipChange blake3 lostPeers
        listing).node.router.peers =
      server.membership.aliveIds :=
  congrArg Router.peers
    (CacheNode.triggerReReplication_ring _ lostPeers listing).2

theorem onMembershipChange_nodeId
    (server : Server)
    (lostPeers : List NodeId)
    (listing : Tier → List BlockMeta) :
    (server.onMembershipChange blake3 lostPeers listing).node.nodeId =
      server.node.nodeId :=
  (CacheNode.triggerReReplication_ring _ lostPeers listing).1

theorem onMembershipChange_built
    (server : Server)
    (lostPeers : List NodeId)
    (listing : Tier → List BlockMeta) :
    (server.onMembershipChange blake3 lostPeers
      listing).node.router.Built blake3 := by
  have sameRouter :=
    (CacheNode.triggerReReplication_ring
      { server.node with
        router :=
          server.node.router.setPeers blake3
            server.membership.bumpEpoch.aliveIds }
      lostPeers listing).2
  unfold onMembershipChange
  rw [sameRouter]
  exact Router.setPeers_built blake3 _ _

theorem RoutesToLive.next
    {server : Server}
    (routes : server.RoutesToLive blake3)
    (event : MembershipEvent) :
    (server.next blake3 event).RoutesToLive blake3 := by
  have effect := server.next_effect blake3 event
  generalize server.next blake3 event = after at effect
  cases effect with
  | quiet _ membership refreshes sameAlive =>
      refine
        ⟨refreshes.localNodeId_eq.trans routes.sameName, routes.built, ?_⟩
      intro peerId onRing
      rw [refreshes.localNodeId_eq, sameAlive]
      exact routes.live peerId onRing
  | joined sender now unknown =>
      refine ⟨routes.sameName, routes.built, ?_⟩
      intro peerId onRing
      rcases routes.live peerId onRing with isLocal | alive
      · exact Or.inl isLocal
      · refine Or.inr ?_
        rw [Membership.isAlive_noteHeartbeat, alive, Bool.or_true]
  | changed _ membership refreshes lostPeers listing =>
      refine
        ⟨?_, onMembershipChange_built _ lostPeers listing, ?_⟩
      · rw [onMembershipChange_nodeId]
        exact refreshes.localNodeId_eq.trans routes.sameName
      · intro peerId onRing
        rw [onMembershipChange_peers] at onRing
        exact Membership.mem_aliveIds.mp onRing

theorem create_routesToLive
    (config : MembershipConfig)
    (node : CacheNode)
    (seedPeers : List StaticPeer)
    (now : Int) :
    (create blake3 config node seedPeers now).RoutesToLive blake3 where
  sameName := rfl
  built := Router.setPeers_built blake3 _ _
  live := by
    intro peerId onRing
    rcases List.mem_cons.mp onRing with isLocal | isSeed
    · exact Or.inl isLocal
    · exact
        Or.inr (Membership.isAlive_create.mpr (List.mem_of_mem_filter isSeed))

theorem run_routesToLive
    (config : MembershipConfig)
    (node : CacheNode)
    (seedPeers : List StaticPeer)
    (now : Int)
    (events : List MembershipEvent) :
    ((create blake3 config node seedPeers now).run blake3
      events).RoutesToLive blake3 :=
  run_preserves (RoutesToLive blake3) (fun _ held => held.next _)
    (create_routesToLive config node seedPeers now)

end Server

/--
After any membership calls, and whatever blocks the server holds then, a
remote hit of a lookup names a peer that is marked alive and is not the local
node.
-/
theorem remote_hits_name_live_peers
    (blake3 : List UInt8 → Hash256)
    (config : MembershipConfig)
    (node : CacheNode)
    (seedPeers : List StaticPeer)
    (startTime : Int)
    (events : List MembershipEvent)
    {server : Server}
    (reached :
      server =
        (Server.create blake3 config node seedPeers startTime).run blake3
          events)
    (store : TieredStore)
    (ids : List BlockId)
    {entry : LookupEntry}
    (answered :
      entry ∈ (({ server.node with store := store } :
        CacheNode).lookup ids).1)
    {remoteNode : NodeId}
    (isRemote : entry.found = .remoteHit remoteNode) :
    server.membership.isAlive remoteNode = true ∧
      remoteNode ≠ server.membership.localNodeId := by
  have routes : server.RoutesToLive blake3 := by
    rw [reached]
    exact
      Server.run_routesToLive config node seedPeers startTime events
  obtain ⟨id, isPrimary, elsewhere⟩ :=
    CacheNode.primary_of_lookup answered isRemote
  have onRing : remoteNode ∈ server.node.router.peers :=
    routes.built.primary_mem_peers isPrimary
  have remote : remoteNode ≠ server.membership.localNodeId := by
    rw [routes.sameName]
    exact elsewhere
  rcases routes.live remoteNode onRing with isLocal | alive
  · exact absurd isLocal remote
  · exact ⟨alive, remote⟩

/-- A server that is configured with the other two nodes. -/
def sampleSeeds : List StaticPeer :=
  [⟨nodeB, "node-b:7001"⟩, ⟨nodeC, "node-c:7001"⟩]

/-- The first node, just started. -/
def sampleServer : Server :=
  Server.create sampleBlake3 {} (sampleNode [] nodeA) sampleSeeds 0

/-- The second node is heard once and then dies. -/
def sampleDeath : List MembershipEvent :=
  [.heartbeat nodeB 0, .tick 4000 fun _ => []]

/-- A block just before a virtual node of the third node. -/
def otherBlock : BlockId :=
  ⟨.fill 0, 0, 0, 0⟩

theorem remote_hits_name_live_peers_sample :
    (((sampleServer.run sampleBlake3 sampleDeath).node.lookup
        [otherBlock]).1 = [⟨otherBlock, .remoteHit nodeC⟩] ∧
      (sampleServer.run sampleBlake3 sampleDeath).membership.isAlive
        nodeB = false) ∧
      (sampleServer.run sampleBlake3 sampleDeath).membership.isAlive
          nodeC = true ∧
        nodeC ≠
          (sampleServer.run sampleBlake3
            sampleDeath).membership.localNodeId :=
  have answers :
      ((sampleServer.run sampleBlake3 sampleDeath).node.lookup
        [otherBlock]).1 = [⟨otherBlock, .remoteHit nodeC⟩] := by
    decide +kernel
  have answered :
      ⟨otherBlock, .remoteHit nodeC⟩ ∈
        ((sampleServer.run sampleBlake3 sampleDeath).node.lookup
          [otherBlock]).1 := by
    rw [answers]
    exact List.mem_singleton_self _
  ⟨⟨answers, by decide +kernel⟩,
    remote_hits_name_live_peers sampleBlake3 {} (sampleNode [] nodeA)
      sampleSeeds 0 sampleDeath rfl _ [otherBlock] answered rfl⟩

/-! ## The ring holds all live peers -/

namespace Server

variable {blake3 : List UInt8 → Hash256}

/-- The ring's peers are the local node and exactly the live peers. -/
def Agrees
    (server : Server) : Prop :=
  ∀ peerId,
    peerId ∈ server.node.router.peers ↔
      peerId = server.membership.localNodeId ∨
        server.membership.isAlive peerId = true

/-- Some peer is alive before and dead after, or the other way round. -/
def AliveChanged
    (before after : Server) : Prop :=
  ∃ peerId,
    after.membership.isAlive peerId ≠ before.membership.isAlive peerId

/-- A change of membership leaves the server in agreement. -/
theorem onMembershipChange_agrees
    (server : Server)
    (lostPeers : List NodeId)
    (listing : Tier → List BlockMeta) :
    (server.onMembershipChange blake3 lostPeers listing).Agrees := by
  intro peerId
  rw [onMembershipChange_peers]
  exact Membership.mem_aliveIds

/-- A call without unknown senders is quiet or changes ring and epoch. -/
theorem next_quiet_or_changed
    (blake3 : List UInt8 → Hash256)
    {server : Server}
    {event : MembershipEvent}
    (fromKnown : event.SentBy fun sender => sender ∈ server.membership.peers) :
    ((server.next blake3 event).membership.epoch =
          server.membership.epoch ∧
        (server.next blake3 event).node = server.node ∧
        ¬ server.AliveChanged (server.next blake3 event)) ∨
      ((server.next blake3 event).membership.epoch =
          addSize server.membership.epoch 1 ∧
        (server.next blake3 event).Agrees) := by
  have effect := server.next_effect blake3 event
  generalize server.next blake3 event = after at effect
  cases effect with
  | quiet _ membership refreshes sameAlive =>
      refine Or.inl ⟨refreshes.epoch_eq, rfl, ?_⟩
      rintro ⟨peerId, differs⟩
      exact differs (sameAlive peerId)
  | joined sender now unknown =>
      exact absurd fromKnown unknown
  | changed _ membership refreshes lostPeers listing =>
      refine Or.inr ⟨?_, onMembershipChange_agrees _ _ _⟩
      exact congrArg (fun epoch => addSize epoch 1) refreshes.epoch_eq

/-- A call without unknown senders adds no entry. -/
theorem next_refreshes
    (blake3 : List UInt8 → Hash256)
    {server : Server}
    {event : MembershipEvent}
    (fromKnown : event.SentBy fun sender => sender ∈ server.membership.peers) :
    (server.next blake3 event).membership.localNodeId =
        server.membership.localNodeId ∧
      ∀ peerId,
        peerId ∈ (server.next blake3 event).membership.peers ↔
          peerId ∈ server.membership.peers := by
  have effect := server.next_effect blake3 event
  generalize server.next blake3 event = after at effect
  cases effect with
  | quiet _ membership refreshes sameAlive =>
      exact ⟨refreshes.localNodeId_eq, refreshes.known_iff⟩
  | joined sender now unknown =>
      exact absurd fromKnown unknown
  | changed _ membership refreshes lostPeers listing =>
      exact ⟨refreshes.localNodeId_eq, refreshes.known_iff⟩

/-- Agreement survives calls without unknown senders. -/
theorem Agrees.next
    {server : Server}
    (agrees : server.Agrees)
    {event : MembershipEvent}
    (fromKnown : event.SentBy fun sender => sender ∈ server.membership.peers) :
    (server.next blake3 event).Agrees := by
  rcases next_quiet_or_changed blake3 fromKnown with
    ⟨_, sameNode, unchanged⟩ | ⟨_, agreesAfter⟩
  · intro peerId
    have sameAlive :
        (server.next blake3 event).membership.isAlive peerId =
          server.membership.isAlive peerId :=
      not_not.mp fun differs => unchanged ⟨peerId, differs⟩
    rw [sameNode, (next_refreshes blake3 fromKnown).1, sameAlive]
    exact agrees peerId
  · exact agreesAfter

/-- The entries stay sound in every call. -/
theorem sound_next
    {server : Server}
    (sound : server.membership.Sound)
    (event : MembershipEvent) :
    (server.next blake3 event).membership.Sound := by
  have effect := server.next_effect blake3 event
  generalize server.next blake3 event = after at effect
  cases effect with
  | quiet _ membership refreshes sameAlive =>
      exact refreshes.sound sound
  | joined sender now unknown =>
      exact sound.noteHeartbeat sender now
  | changed _ membership refreshes lostPeers listing =>
      have kept := refreshes.sound sound
      exact ⟨kept.named, kept.selfAlive⟩

/-- A heartbeat from an unknown peer changes the live peers, not the epoch. -/
theorem aliveChanged_of_unknown
    {server : Server}
    {sender : NodeId}
    (unknown : sender ∉ server.membership.peers)
    (now : Int) :
    server.AliveChanged (server.next blake3 (.heartbeat sender now)) := by
  rw [next_unknown blake3 unknown]
  refine ⟨sender, ?_⟩
  have dead : server.membership.isAlive sender = false := by
    rw [Bool.eq_false_iff]
    intro alive
    exact unknown (Membership.known_of_isAlive alive)
  rw [Membership.isAlive_noteHeartbeat, dead]
  simp

/-- One call raises the epoch by one at most. -/
theorem epoch_next_le
    (blake3 : List UInt8 → Hash256)
    (server : Server)
    (event : MembershipEvent) :
    (server.next blake3 event).membership.epoch ≤
      server.membership.epoch + 1 := by
  have effect := server.next_effect blake3 event
  generalize server.next blake3 event = after at effect
  cases effect with
  | quiet _ membership refreshes sameAlive =>
      rw [refreshes.epoch_eq]
      exact Nat.le_succ _
  | joined sender now unknown =>
      exact Nat.le_succ _
  | changed _ membership refreshes lostPeers listing =>
      change addSize membership.epoch 1 ≤ _
      rw [refreshes.epoch_eq]
      exact Nat.mod_le _ _

theorem epoch_run_le
    (blake3 : List UInt8 → Hash256)
    (server : Server)
    (events : List MembershipEvent) :
    (server.run blake3 events).membership.epoch ≤
      server.membership.epoch + events.length := by
  induction events generalizing server with
  | nil =>
      exact Nat.le_refl _
  | cons event rest inductionHypothesis =>
      have first := server.epoch_next_le blake3 event
      have others := inductionHypothesis (server.next blake3 event)
      change ((server.next blake3 event).run blake3 rest).membership.epoch ≤ _
      rw [List.length_cons]
      omega

/-- State of a server that has heard from configured peers only. -/
structure Configured
    (peerIds : List NodeId)
    (server : Server) : Prop where
  known :
    ∀ peerId, peerId ∈ server.membership.peers ↔ peerId ∈ peerIds
  sound : server.membership.Sound
  agrees : server.Agrees

namespace Configured

variable
  {peerIds : List NodeId}
  {server : Server}
  {event : MembershipEvent}

theorem fromKnown
    (configured : server.Configured peerIds)
    (sent : event.SentBy (· ∈ peerIds)) :
    event.SentBy fun sender => sender ∈ server.membership.peers := by
  cases event with
  | heartbeat sender now =>
      exact (configured.known sender).mpr sent
  | replies answered now =>
      trivial
  | tick now listing =>
      trivial

theorem next
    (configured : server.Configured peerIds)
    (sent : event.SentBy (· ∈ peerIds)) :
    (server.next blake3 event).Configured peerIds := by
  have fromKnown := configured.fromKnown sent
  have knownIff := (next_refreshes blake3 fromKnown).2
  exact
    ⟨fun peerId => (knownIff peerId).trans (configured.known peerId),
      sound_next configured.sound event, configured.agrees.next fromKnown⟩

theorem run
    (blake3 : List UInt8 → Hash256)
    (configured : server.Configured peerIds)
    {events : List MembershipEvent}
    (sent : ∀ event ∈ events, event.SentBy (· ∈ peerIds)) :
    (server.run blake3 events).Configured peerIds :=
  run_preserves (Server.Configured peerIds)
    (fun member held => held.next (sent _ member)) configured

end Configured

/-- At first the server agrees with its configuration. -/
theorem create_configured
    (config : MembershipConfig)
    (node : CacheNode)
    (seedPeers : List StaticPeer)
    (now : Int) :
    (create blake3 config node seedPeers now).Configured
      (seedPeers.map StaticPeer.nodeId) where
  known := fun _ => Membership.mem_create
  sound := Membership.create_sound _ _ _ _
  agrees := by
    intro peerId
    change
      peerId ∈ node.nodeId ::
          (seedPeers.map StaticPeer.nodeId).filter _ ↔
        peerId = node.nodeId ∨
          (Membership.create config node.nodeId seedPeers
            now).isAlive peerId = true
    rw [Membership.isAlive_create, List.mem_cons, List.mem_filter,
      decide_eq_true_iff]
    by_cases isLocal : peerId = node.nodeId
    · simp [isLocal]
    · simp [isLocal]

/-- If only raised epochs change the live peers, no unknown peer was heard. -/
theorem sent_of_raises
    {peerIds : List NodeId}
    {events : List MembershipEvent}
    {server : Server}
    (known :
      ∀ peerId, peerId ∈ server.membership.peers ↔ peerId ∈ peerIds)
    (raises :
      ∀ earlier event,
        earlier ++ [event] <+: events →
        (server.run blake3 earlier).AliveChanged
          (server.run blake3 (earlier ++ [event])) →
        (server.run blake3 earlier).membership.epoch <
          (server.run blake3 (earlier ++ [event])).membership.epoch) :
    ∀ event ∈ events, event.SentBy (· ∈ peerIds) := by
  induction events generalizing server with
  | nil =>
      simp
  | cons first rest inductionHypothesis =>
      have firstSent : first.SentBy (· ∈ peerIds) := by
        cases first with
        | heartbeat sender now =>
            refine (known sender).mp ?_
            by_contra unknown
            have raised :=
              raises [] (.heartbeat sender now) (by simp)
                (aliveChanged_of_unknown unknown now)
            change
              _ < (server.next blake3
                (.heartbeat sender now)).membership.epoch at raised
            rw [next_unknown blake3 unknown] at raised
            exact Nat.lt_irrefl _ raised
        | replies answered now =>
            trivial
        | tick now listing =>
            trivial
      have fromKnown :
          first.SentBy fun sender => sender ∈ server.membership.peers := by
        simpa only [known] using firstSent
      have knownAfter := (next_refreshes blake3 fromKnown).2
      refine List.forall_mem_cons.mpr ⟨firstSent, ?_⟩
      refine
        inductionHypothesis
          (fun peerId => (knownAfter peerId).trans (known peerId)) ?_
      intro earlier event isPrefix
      exact
        raises (first :: earlier) event
          (List.prefix_cons_inj first |>.mpr isPrefix)

end Server

/--
In a run of fewer than `2 ^ 64` membership calls, the ring holds the local node
and exactly the live peers at all times and every change of the live peers
raises the epoch, if and only if all heartbeats come from configured peers.
-/
theorem ring_agrees_iff_heartbeats_from_seeds
    (blake3 : List UInt8 → Hash256)
    (config : MembershipConfig)
    (node : CacheNode)
    (seedPeers : List StaticPeer)
    (startTime : Int)
    {events : List MembershipEvent}
    (short : events.length < sizeRange)
    {start : Server}
    (created :
      start = Server.create blake3 config node seedPeers startTime) :
    ((∀ earlier,
        earlier <+: events →
        (start.run blake3 earlier).Agrees) ∧
      ∀ earlier event,
        earlier ++ [event] <+: events →
        (start.run blake3 earlier).AliveChanged
          (start.run blake3 (earlier ++ [event])) →
        (start.run blake3 earlier).membership.epoch <
          (start.run blake3 (earlier ++ [event])).membership.epoch) ↔
      ∀ event ∈ events,
        event.SentBy (· ∈ seedPeers.map StaticPeer.nodeId) := by
  have configured :
      start.Configured (seedPeers.map StaticPeer.nodeId) := by
    rw [created]
    exact Server.create_configured config node seedPeers startTime
  constructor
  · rintro ⟨_, raises⟩
    exact Server.sent_of_raises configured.known raises
  · intro sent
    have reached :
        ∀ earlier,
          earlier <+: events →
          (start.run blake3 earlier).Configured
            (seedPeers.map StaticPeer.nodeId) := by
      intro earlier isPrefix
      exact
        configured.run blake3 fun event member =>
          sent event (isPrefix.subset member)
    refine ⟨fun earlier isPrefix => (reached earlier isPrefix).agrees, ?_⟩
    intro earlier event isPrefix changed
    rw [Server.run_concat] at changed ⊢
    have before :=
      reached earlier ((List.prefix_append _ _).trans isPrefix)
    have fromKnown :=
      before.fromKnown (sent event (isPrefix.subset (by simp)))
    rcases Server.next_quiet_or_changed blake3 fromKnown with
      ⟨_, _, unchanged⟩ | ⟨raised, _⟩
    · exact absurd changed unchanged
    · have counted := start.epoch_run_le blake3 earlier
      have fresh : start.membership.epoch = 0 := by
        rw [created]
        rfl
      have shorter := isPrefix.length_le
      rw [List.length_append, List.length_singleton] at shorter
      rw [raised, addSize_of_lt (by omega)]
      exact Nat.lt_succ_self _

/-- The second node dies and comes back. -/
def sampleRejoin : List MembershipEvent :=
  sampleDeath ++ [.heartbeat nodeB 4000, .heartbeat nodeC 4001]

theorem sampleRejoin_sent :
    ∀ event ∈ sampleRejoin,
      event.SentBy (· ∈ sampleSeeds.map StaticPeer.nodeId) := by
  simp [sampleRejoin, sampleDeath, MembershipEvent.SentBy, sampleSeeds]

theorem ring_agrees_iff_heartbeats_from_seeds_sample :
    (sampleServer.run sampleBlake3 sampleDeath).Agrees ∧
      (sampleServer.run sampleBlake3 sampleRejoin).Agrees ∧
      (sampleServer.run sampleBlake3 sampleDeath).membership.epoch = 1 ∧
      (sampleServer.run sampleBlake3 sampleRejoin).membership.epoch = 2 :=
  have agrees :=
    ((ring_agrees_iff_heartbeats_from_seeds sampleBlake3 {}
      (sampleNode [] nodeA) sampleSeeds 0
      (by decide : sampleRejoin.length < sizeRange) rfl).mpr
        sampleRejoin_sent).1
  ⟨agrees sampleDeath (List.prefix_append _ _),
    agrees sampleRejoin (List.prefix_refl _),
    by decide +kernel, by decide +kernel⟩

/--
A server configured with the second node only hears from the third: it marks
it alive, but neither puts it on the ring nor raises the epoch.
-/
theorem unknown_joiner_not_on_ring :
    ∃ (start after : Server),
      start =
          Server.create sampleBlake3 {} (sampleNode [] nodeA)
            [⟨nodeB, "node-b:7001"⟩] 0 ∧
        after = start.run sampleBlake3 [.heartbeat nodeC 1] ∧
        ¬ after.Agrees ∧
        start.AliveChanged after ∧
        after.membership.epoch = start.membership.epoch := by
  refine ⟨_, _, rfl, rfl, ?_, ⟨nodeC, by decide +kernel⟩, by decide +kernel⟩
  intro agrees
  have onRing := (agrees nodeC).mpr (Or.inr (by decide +kernel))
  exact absurd onRing (by decide +kernel)

/-! ## Replies of one epoch -/

namespace Server

variable {blake3 : List UInt8 → Hash256}

/-- The reply to an event, if it is a heartbeat. -/
def replyTo
    (blake3 : List UInt8 → Hash256)
    (server : Server) :
    MembershipEvent → Option HeartbeatReply
  | .heartbeat sender now => some (server.onHeartbeat blake3 sender now).1
  | .replies _ _ => none
  | .tick _ _ => none

/-- The replies that a server gives in a sequence of calls. -/
def replies
    (blake3 : List UInt8 → Hash256)
    (server : Server) :
    List MembershipEvent → List HeartbeatReply
  | [] => []
  | event :: rest =>
      (server.replyTo blake3 event).toList ++
        (server.next blake3 event).replies blake3 rest

theorem replies_concat
    (server : Server)
    (events : List MembershipEvent)
    (event : MembershipEvent) :
    server.replies blake3 (events ++ [event]) =
      server.replies blake3 events ++
        ((server.run blake3 events).replyTo blake3 event).toList := by
  induction events generalizing server with
  | nil =>
      simp [replies, run]
  | cons first rest inductionHypothesis =>
      simp only [List.cons_append, replies, inductionHypothesis,
        List.append_assoc]
      rfl

/-- What is known about the replies given so far. -/
structure Answered
    (server : Server)
    (given : List HeartbeatReply) : Prop where
  epoch_le :
    ∀ reply ∈ given, reply.clusterEpoch ≤ server.membership.epoch
  current :
    ∀ reply ∈ given,
      reply.clusterEpoch = server.membership.epoch →
      ∀ peerId,
        peerId ∈ reply.peerIds ↔ server.membership.isAlive peerId = true

/-- After a heartbeat the sender is alive, as are all that were before. -/
theorem isAlive_next_heartbeat
    (server : Server)
    (sender : NodeId)
    (now : Int)
    (peerId : NodeId) :
    (server.next blake3 (.heartbeat sender now)).membership.isAlive peerId =
      (decide (peerId = sender) ||
        server.membership.isAlive peerId) := by
  rw [← Membership.isAlive_noteHeartbeat server.membership sender now]
  simp only [Server.next, onHeartbeat]
  split
  · rfl
  · rfl

/-- The reply to a heartbeat has the old epoch and lists the live peers. -/
theorem onHeartbeat_reply
    (blake3 : List UInt8 → Hash256)
    {server : Server}
    (sound : server.membership.Sound)
    (sender : NodeId)
    (now : Int) :
    (server.onHeartbeat blake3 sender now).1.clusterEpoch =
        server.membership.epoch ∧
      ∀ peerId,
        peerId ∈ (server.onHeartbeat blake3 sender now).1.peerIds ↔
          (server.next blake3
            (.heartbeat sender now)).membership.isAlive peerId = true := by
  refine ⟨rfl, ?_⟩
  intro peerId
  rw [isAlive_next_heartbeat, ← Membership.isAlive_noteHeartbeat _ _ now]
  exact (sound.noteHeartbeat sender now).mem_peerIds_reply

/-- The reply to a heartbeat has the old epoch and lists the sender too. -/
theorem replyTo_spec
    {server : Server}
    (sound : server.membership.Sound)
    {event : MembershipEvent}
    {reply : HeartbeatReply}
    (answers : server.replyTo blake3 event = some reply) :
    ∃ sender now,
      event = .heartbeat sender now ∧
        reply.clusterEpoch = server.membership.epoch ∧
        ∀ peerId,
          peerId ∈ reply.peerIds ↔
            peerId = sender ∨ server.membership.isAlive peerId = true := by
  cases event with
  | heartbeat sender now =>
      cases answers
      refine ⟨sender, now, rfl, rfl, ?_⟩
      intro peerId
      rw [(onHeartbeat_reply blake3 sound sender now).2, isAlive_next_heartbeat,
        Bool.or_eq_true, decide_eq_true_iff]
  | replies answered now =>
      cases answers
  | tick now listing =>
      cases answers

/-- All replies of the current epoch keep showing the live peers. -/
theorem Answered.next
    {server : Server}
    {given : List HeartbeatReply}
    (answered : server.Answered given)
    (sound : server.membership.Sound)
    {event : MembershipEvent}
    (fromKnown : event.SentBy fun sender => sender ∈ server.membership.peers)
    (noWrap : server.membership.epoch + 1 < sizeRange) :
    (server.next blake3 event).Answered
      (given ++ (server.replyTo blake3 event).toList) := by
  have notLater :
      ∀ reply ∈ given ++ (server.replyTo blake3 event).toList,
        reply.clusterEpoch ≤ server.membership.epoch := by
    intro reply member
    rcases List.mem_append.mp member with earlier | new
    · exact answered.epoch_le reply earlier
    · obtain ⟨_, _, _, sameEpoch, _⟩ :=
        replyTo_spec sound (Option.mem_toList.mp new)
      exact Nat.le_of_eq sameEpoch
  rcases next_quiet_or_changed blake3 fromKnown with
    ⟨sameEpoch, _, unchanged⟩ | ⟨raised, _⟩
  · refine ⟨by rwa [sameEpoch], ?_⟩
    intro reply member ofEpoch peerId
    rcases List.mem_append.mp member with earlier | new
    · rw [sameEpoch] at ofEpoch
      rw [answered.current reply earlier ofEpoch peerId,
        not_not.mp fun differs => unchanged ⟨peerId, differs⟩]
    · obtain ⟨sender, now, isHeartbeat, _, lists⟩ :=
        replyTo_spec sound (Option.mem_toList.mp new)
      rw [lists, isHeartbeat, isAlive_next_heartbeat, Bool.or_eq_true,
        decide_eq_true_iff]
  · rw [addSize_of_lt noWrap] at raised
    refine ⟨?_, ?_⟩
    · intro reply member
      rw [raised]
      exact Nat.le_succ_of_le (notLater reply member)
    · intro reply member ofEpoch
      have bound := notLater reply member
      omega

end Server

/-- Replies with the same epoch list the same peers. -/
def OneViewPerEpoch
    (given : List HeartbeatReply) : Prop :=
  ∀ first ∈ given,
    ∀ second ∈ given,
      first.clusterEpoch = second.clusterEpoch →
      ∀ peerId, peerId ∈ first.peerIds ↔ peerId ∈ second.peerIds

/-- A further reply fits if its sender was alive or it opens the epoch. -/
theorem Server.Answered.oneViewPerEpoch_append
    {blake3 : List UInt8 → Hash256}
    {server : Server}
    {given : List HeartbeatReply}
    (answered : server.Answered given)
    (sound : server.membership.Sound)
    (event : MembershipEvent) :
    OneViewPerEpoch (given ++ (server.replyTo blake3 event).toList) ↔
      OneViewPerEpoch given ∧
        ((∃ reply ∈ given,
            reply.clusterEpoch = server.membership.epoch) →
          event.SentBy fun sender =>
            server.membership.isAlive sender = true) := by
  cases answers : server.replyTo blake3 event with
  | none =>
      have noSender :
          event.SentBy fun sender =>
            server.membership.isAlive sender = true := by
        cases event with
        | heartbeat sender now =>
            simp [Server.replyTo] at answers
        | replies answered now =>
            trivial
        | tick now listing =>
            trivial
      simp [noSender]
  | some reply =>
      obtain ⟨sender, now, isHeartbeat, sameEpoch, lists⟩ :=
        Server.replyTo_spec sound answers
      subst isHeartbeat
      rw [Option.toList_some]
      constructor
      · intro oneView
        refine
          ⟨fun first isFirst second isSecond =>
            oneView first (List.mem_append_left _ isFirst) second
              (List.mem_append_left _ isSecond), ?_⟩
        rintro ⟨earlier, isEarlier, ofEpoch⟩
        have same :=
          oneView earlier (List.mem_append_left _ isEarlier) reply
            (by simp) (ofEpoch.trans sameEpoch.symm) sender
        rw [answered.current earlier isEarlier ofEpoch, lists] at same
        exact same.mpr (Or.inl rfl)
      · rintro ⟨oneView, senderAlive⟩
        have fits :
            ∀ earlier ∈ given,
              earlier.clusterEpoch = reply.clusterEpoch →
              ∀ peerId,
                peerId ∈ earlier.peerIds ↔ peerId ∈ reply.peerIds := by
          intro earlier isEarlier ofEpoch peerId
          rw [sameEpoch] at ofEpoch
          have alive := senderAlive ⟨earlier, isEarlier, ofEpoch⟩
          rw [answered.current earlier isEarlier ofEpoch, lists]
          refine ⟨Or.inr, ?_⟩
          rintro (isSender | already)
          · rw [isSender]
            exact alive
          · exact already
        intro first isFirst second isSecond ofEpoch peerId
        rw [List.mem_append, List.mem_singleton] at isFirst isSecond
        rcases isFirst with firstGiven | firstNew
        · rcases isSecond with secondGiven | secondNew
          · exact oneView first firstGiven second secondGiven ofEpoch peerId
          · subst secondNew
            exact fits first firstGiven ofEpoch peerId
        · rcases isSecond with secondGiven | secondNew
          · subst firstNew
            exact (fits second secondGiven ofEpoch.symm peerId).symm
          · rw [firstNew, secondNew]

/-- A heartbeat was handled while the epoch was the given one. -/
def Server.HeardIn
    (blake3 : List UInt8 → Hash256)
    (start : Server)
    (events : List MembershipEvent)
    (epoch : Nat) : Prop :=
  ∃ earlier sender now,
    earlier ++ [.heartbeat sender now] <+: events ∧
      (start.run blake3 earlier).membership.epoch = epoch

/-- The epochs of the replies are those in which heartbeats were handled. -/
theorem Server.exists_reply_iff
    {blake3 : List UInt8 → Hash256}
    {start : Server}
    {events : List MembershipEvent}
    {epoch : Nat} :
    (∃ reply ∈ start.replies blake3 events, reply.clusterEpoch = epoch) ↔
      start.HeardIn blake3 events epoch := by
  induction events using List.reverseRecOn with
  | nil =>
      simp [Server.replies, Server.HeardIn]
  | append_singleton earlier event inductionHypothesis =>
      rw [Server.replies_concat]
      constructor
      · rintro ⟨reply, member, ofEpoch⟩
        rcases List.mem_append.mp member with given | new
        · obtain ⟨before, sender, now, isPrefix, sameEpoch⟩ :=
            inductionHypothesis.mp ⟨reply, given, ofEpoch⟩
          exact
            ⟨before, sender, now,
              isPrefix.trans (List.prefix_append _ _), sameEpoch⟩
        · cases event with
          | heartbeat sender now =>
              cases Option.mem_toList.mp new
              exact
                ⟨earlier, sender, now, List.prefix_refl _, ofEpoch⟩
          | replies answered now =>
              simp [Server.replyTo] at new
          | tick now listing =>
              simp [Server.replyTo] at new
      · rintro ⟨before, sender, now, isPrefix, sameEpoch⟩
        rcases List.prefix_concat_iff.mp isPrefix with isAll | inEarlier
        · obtain ⟨isEarlier, isEvent⟩ :=
            List.append_inj' isAll rfl
          subst isEarlier
          cases isEvent
          exact
            ⟨_, List.mem_append_right _ (Option.mem_toList.mpr rfl),
              sameEpoch⟩
        · obtain ⟨reply, given, ofEpoch⟩ :=
            inductionHypothesis.mpr
              ⟨before, sender, now, inEarlier, sameEpoch⟩
          exact ⟨reply, List.mem_append_left _ given, ofEpoch⟩

/-- The replies so far describe the server that they come from. -/
theorem Server.Configured.answered
    (blake3 : List UInt8 → Hash256)
    {peerIds : List NodeId}
    {start : Server}
    (configured : start.Configured peerIds)
    (fresh : start.membership.epoch = 0)
    {events : List MembershipEvent}
    (short : events.length < sizeRange)
    (sent : ∀ event ∈ events, event.SentBy (· ∈ peerIds)) :
    (start.run blake3 events).Answered (start.replies blake3 events) := by
  induction events using List.reverseRecOn with
  | nil =>
      exact ⟨by simp [Server.replies], by simp [Server.replies]⟩
  | append_singleton earlier event inductionHypothesis =>
      rw [List.length_append, List.length_singleton] at short
      have sentEarlier :
          ∀ event ∈ earlier, event.SentBy (· ∈ peerIds) :=
        fun event member => sent event (List.mem_append_left _ member)
      have reached := configured.run blake3 sentEarlier
      have counted := start.epoch_run_le blake3 earlier
      rw [Server.run_concat, Server.replies_concat]
      exact
        (inductionHypothesis (by omega) sentEarlier).next reached.sound
          (reached.fromKnown (sent event (by simp))) (by omega)

/--
In a run of fewer than `2 ^ 64` membership calls with heartbeats from
configured peers, replies with one epoch list the same peers if and only if
every heartbeat that is not the first of its epoch comes from a live peer.
-/
theorem replies_of_epoch_agree_iff
    (blake3 : List UInt8 → Hash256)
    (config : MembershipConfig)
    (node : CacheNode)
    (seedPeers : List StaticPeer)
    (startTime : Int)
    {events : List MembershipEvent}
    (short : events.length < sizeRange)
    (sent :
      ∀ event ∈ events,
        event.SentBy (· ∈ seedPeers.map StaticPeer.nodeId))
    {start : Server}
    (created :
      start = Server.create blake3 config node seedPeers startTime) :
    OneViewPerEpoch (start.replies blake3 events) ↔
      ∀ earlier event,
        earlier ++ [event] <+: events →
        start.HeardIn blake3 earlier
          (start.run blake3 earlier).membership.epoch →
        event.SentBy fun sender =>
          (start.run blake3 earlier).membership.isAlive sender = true := by
  have configured :
      start.Configured (seedPeers.map StaticPeer.nodeId) := by
    rw [created]
    exact Server.create_configured config node seedPeers startTime
  have fresh : start.membership.epoch = 0 := by
    rw [created]
    rfl
  induction events using List.reverseRecOn with
  | nil =>
      simp [Server.replies, OneViewPerEpoch]
  | append_singleton earlier event inductionHypothesis =>
      rw [List.length_append, List.length_singleton] at short
      have sentEarlier :
          ∀ event ∈ earlier,
            event.SentBy (· ∈ seedPeers.map StaticPeer.nodeId) :=
        fun event member => sent event (List.mem_append_left _ member)
      have reached := configured.run blake3 sentEarlier
      have answered :=
        configured.answered blake3 fresh (by omega) sentEarlier
      have earlierReplies := inductionHypothesis (by omega) sentEarlier
      rw [Server.replies_concat,
        answered.oneViewPerEpoch_append reached.sound event,
        Server.exists_reply_iff]
      refine (and_congr_left' earlierReplies).trans ?_
      constructor
      · rintro ⟨before, last⟩ shorter other isPrefix
        rcases List.prefix_concat_iff.mp isPrefix with isAll | inEarlier
        · obtain ⟨isEarlier, isEvent⟩ :=
            List.append_inj' isAll rfl
          subst isEarlier
          cases isEvent
          exact last
        · exact before shorter other inEarlier
      · intro all
        refine ⟨?_, all earlier event (List.prefix_refl _)⟩
        intro shorter other isPrefix
        exact
          all shorter other (isPrefix.trans (List.prefix_append _ _))

theorem replies_of_epoch_agree_iff_sample :
    OneViewPerEpoch (sampleServer.replies sampleBlake3 sampleRejoin) ∧
      ∀ earlier event,
        earlier ++ [event] <+: sampleRejoin →
        sampleServer.HeardIn sampleBlake3 earlier
          (sampleServer.run sampleBlake3 earlier).membership.epoch →
        event.SentBy fun sender =>
          (sampleServer.run sampleBlake3 earlier).membership.isAlive
            sender = true := by
  have epochs :
      ((sampleServer.replies sampleBlake3 sampleRejoin).map
        HeartbeatReply.clusterEpoch).Nodup := by
    decide +kernel
  have oneView :
      OneViewPerEpoch (sampleServer.replies sampleBlake3 sampleRejoin) := by
    intro first isFirst second isSecond ofEpoch peerId
    rw [List.inj_on_of_nodup_map epochs isFirst isSecond ofEpoch]
  exact
    ⟨oneView,
      (replies_of_epoch_agree_iff sampleBlake3 {} (sampleNode [] nodeA)
        sampleSeeds 0 (by decide) sampleRejoin_sent rfl).mp oneView⟩

/--
The second node dies, the third is heard, and then the second comes back: both
replies carry the epoch of the death, but only the later lists the second node.
-/
theorem replies_of_epoch_differ :
    (∀ event ∈ sampleDeath ++
        [.heartbeat nodeC 4000, .heartbeat nodeB 4001],
      event.SentBy (· ∈ sampleSeeds.map StaticPeer.nodeId)) ∧
      ¬ OneViewPerEpoch
        (sampleServer.replies sampleBlake3
          (sampleDeath ++
            [.heartbeat nodeC 4000, .heartbeat nodeB 4001])) := by
  refine ⟨by simp [sampleDeath, MembershipEvent.SentBy, sampleSeeds], ?_⟩
  intro oneView
  have replies :
      sampleServer.replies sampleBlake3
          (sampleDeath ++
            [.heartbeat nodeC 4000, .heartbeat nodeB 4001]) =
        [⟨[⟨nodeB, 0, false⟩, ⟨nodeC, 0, false⟩], 0⟩,
          ⟨[⟨nodeC, 1, false⟩], 1⟩,
          ⟨[⟨nodeB, 1, false⟩, ⟨nodeC, 1, false⟩], 1⟩] := by
    decide +kernel
  rw [replies] at oneView
  have same :=
    oneView ⟨[⟨nodeC, 1, false⟩], 1⟩ (by simp)
      ⟨[⟨nodeB, 1, false⟩, ⟨nodeC, 1, false⟩], 1⟩ (by simp) rfl nodeB
  exact absurd same (by decide +kernel)

end Lethe
