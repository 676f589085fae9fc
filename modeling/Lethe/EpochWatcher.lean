import Lethe.HashRing
import Lethe.MembershipRuns
import Lethe.Library.LabelledRun

namespace Lethe

open ClockwiseRing

/-!
# The client's epoch watcher

A client polls the servers with heartbeats and rebuilds its ring from the
first reply that carries a newer epoch than the last one it took.  A reply
lists the peers of the server that gives it, and that server itself only if it
keeps an entry for its own name.
-/

/-- One server's view of the cluster, as a probe returns it. -/
structure EpochSnapshot where
  sourcePeer : NodeId
  epoch : Nat
  alivePeers : List PeerStatus := []
  deriving DecidableEq, Repr

/-- A probe copies the reply's fields. -/
def EpochSnapshot.ofReply
    (sourcePeer : NodeId)
    (reply : HeartbeatReply) :
    EpochSnapshot where
  sourcePeer := sourcePeer
  epoch := reply.clusterEpoch
  alivePeers := reply.alivePeers

/-- State of a client's watcher. -/
structure EpochWatcher where
  seedPeers : List NodeId
  ring : HashRing
  epoch : Nat
  alivePeers : List PeerStatus
  deriving DecidableEq, Repr

namespace EpochWatcher

/-- A watcher as constructed: the configured peers count as alive. -/
def create
    (seedPeers : List NodeId)
    (ring : HashRing) :
    EpochWatcher where
  seedPeers := seedPeers
  ring := ring
  epoch := 0
  alivePeers := seedPeers.map fun peer => { nodeId := peer }

/-- Peers to probe: not suspected ones, else all known, else the seeds. -/
def candidateIds
    (watcher : EpochWatcher) :
    List NodeId :=
  let unsuspected :=
    (watcher.alivePeers.filter fun peer => !peer.suspected).map
      PeerStatus.nodeId
  if unsuspected ≠ [] then
    unsuspected
  else if watcher.alivePeers ≠ [] then
    watcher.alivePeers.map PeerStatus.nodeId
  else
    watcher.seedPeers

/-- The first candidate that answers, if any. -/
def probeAnyPeer
    (watcher : EpochWatcher)
    (answers : NodeId → Bool) :
    Option NodeId :=
  watcher.candidateIds.find? answers

/-- Take over a snapshot with a newer epoch, ignore any other. -/
def applyIfNewer
    (blake3 : List UInt8 → Hash256)
    (watcher : EpochWatcher)
    (snap : EpochSnapshot) :
    EpochWatcher :=
  if snap.epoch ≤ watcher.epoch then
    watcher
  else
    { watcher with
      epoch := snap.epoch
      alivePeers := snap.alivePeers
      ring :=
        HashRing.setPeers blake3 watcher.ring.vnodesPerPeer
          (snap.alivePeers.map PeerStatus.nodeId) }

end EpochWatcher

/-- Virtual nodes of different peers have different positions. -/
def SeparatePeers
    (blake3 : List UInt8 → Hash256)
    (vnodesPerPeer : Nat)
    (peers : List NodeId) : Prop :=
  ∀ first ∈ virtualNodes blake3 vnodesPerPeer peers,
    ∀ second ∈ virtualNodes blake3 vnodesPerPeer peers,
      first.1 = second.1 →
      first.2 = second.2

instance
    (blake3 : List UInt8 → Hash256)
    (vnodesPerPeer : Nat)
    (peers : List NodeId) :
    Decidable (SeparatePeers blake3 vnodesPerPeer peers) :=
  inferInstanceAs (Decidable (∀ first ∈ _, ∀ second ∈ _, _))

/--
A ring over some of the server's peers has the server's primary exactly if the
server's primary is one of them or the server has none.
-/
theorem primary_eq_iff_mem
    {blake3 : List UInt8 → Hash256}
    {router : Router}
    (built : router.Built blake3)
    (separate :
      SeparatePeers blake3 router.vnodesPerPeer router.peers)
    {clientPeers : List NodeId}
    (subset : clientPeers ⊆ router.peers)
    (id : BlockId) :
    (HashRing.setPeers blake3 router.vnodesPerPeer clientPeers).primary
        id.hash =
        (router.route id).primary ↔
      ∀ primary,
        (router.route id).primary = some primary →
        primary ∈ clientPeers := by
  obtain ⟨partSorted, partEntries⟩ :=
    HashRing.setPeers_sorted blake3 router.vnodesPerPeer clientPeers
  have onPart (entry : Nat × NodeId) :
      entry ∈
          (HashRing.setPeers blake3 router.vnodesPerPeer
            clientPeers).ring ↔
        entry.2 ∈ clientPeers ∧ entry ∈ router.circle := by
    rw [partEntries.mem_iff, built.circle_perm.mem_iff, mem_virtualNodes,
      mem_virtualNodes]
    constructor
    · rintro ⟨member, isPosition⟩
      exact ⟨member, subset member, isPosition⟩
    · rintro ⟨member, _, isPosition⟩
      exact ⟨member, isPosition⟩
  have partSubset :
      (HashRing.setPeers blake3 router.vnodesPerPeer
        clientPeers).ring ⊆ router.circle :=
    fun entry member => ((onPart entry).mp member).2
  rw [HashRing.primary_eq_head, Router.primary_eq_head built]
  change
    (clockwise Prod.fst (hashBlock id) _).head?.map Prod.snd = _ ↔ _
  cases isFirst :
      (clockwise Prod.fst (hashBlock id) router.circle).head? with
  | none =>
      have noEntries : router.circle = [] := by
        refine List.eq_nil_iff_forall_not_mem.mpr ?_
        intro entry member
        rw [List.head?_eq_none_iff] at isFirst
        have visited :
            entry ∈ clockwise Prod.fst (hashBlock id) router.circle :=
          mem_clockwise.mpr member
        rw [isFirst] at visited
        simp at visited
      rw [noEntries, List.subset_nil] at partSubset
      simp [partSubset, clockwise]
  | some first =>
      have onCircle : first ∈ router.circle :=
        mem_clockwise.mp (List.mem_of_head? isFirst)
      simp only [Option.map_some, Option.some.injEq, forall_eq']
      constructor
      · intro same
        obtain ⟨entry, isEntry, sameName⟩ := Option.map_eq_some_iff.mp same
        have member :=
          (onPart entry).mp (mem_clockwise.mp (List.mem_of_head? isEntry))
        rw [← sameName]
        exact member.1
      · intro isClient
        obtain ⟨same, isHead, inPart, samePosition⟩ :=
          head_clockwise_of_subset built.circle_sorted partSorted
            partSubset isFirst ((onPart first).mpr ⟨isClient, onCircle⟩)
        have sameName : same.2 = first.2 :=
          separate same
            (built.circle_perm.mem_iff.mp (partSubset inPart)) first
            (built.circle_perm.mem_iff.mp onCircle) samePosition
        rw [isHead, Option.map_some, sameName]

/-- A watcher with an older epoch takes over the names of the reply. -/
theorem EpochWatcher.applyIfNewer_of_lt
    {blake3 : List UInt8 → Hash256}
    {watcher : EpochWatcher}
    {snap : EpochSnapshot}
    (newer : watcher.epoch < snap.epoch) :
    (watcher.applyIfNewer blake3 snap).ring =
      HashRing.setPeers blake3 watcher.ring.vnodesPerPeer
        (snap.alivePeers.map PeerStatus.nodeId) := by
  rw [applyIfNewer, if_neg (Nat.not_le_of_lt newer)]

/--
Let a server's ring agree with its entries, and let a watcher with an older
epoch and as many virtual nodes per peer take over the reply to a heartbeat
from a known peer.  Then both give a block the same primary if and only if the
server keeps an entry for itself or is not the primary.
-/
theorem watcher_primary_eq_iff
    (blake3 : List UInt8 → Hash256)
    (config : MembershipConfig)
    (node : CacheNode)
    (seedPeers : List StaticPeer)
    (startTime : Int)
    (events : List MembershipEvent)
    {server : Server}
    (reached :
      server =
        (Server.create blake3 config node seedPeers startTime).run blake3
          events)
    (agrees : server.Agrees)
    {sender : NodeId}
    (known : sender ∈ server.membership.peers)
    {now : Int}
    {reply : HeartbeatReply}
    {after : Server}
    (handled : server.onHeartbeat blake3 sender now = (reply, after))
    (separate :
      SeparatePeers blake3 after.node.router.vnodesPerPeer
        after.node.router.peers)
    {watcher : EpochWatcher}
    (older : watcher.epoch < server.membership.epoch)
    (sameVnodes :
      watcher.ring.vnodesPerPeer = after.node.router.vnodesPerPeer)
    (sourcePeer : NodeId)
    (id : BlockId) :
    (watcher.applyIfNewer blake3
          (.ofReply sourcePeer reply)).ring.primary id.hash =
        (after.node.router.route id).primary ↔
      server.membership.localNodeId ∈ server.membership.peers ∨
        (after.node.router.route id).primary ≠
          some server.membership.localNodeId := by
  have sound : server.membership.Sound := by
    rw [reached]
    exact
      Server.run_preserves (fun server => server.membership.Sound)
        (fun _ held => Server.sound_next held _)
        (Membership.create_sound _ _ _ _)
  have routes : server.RoutesToLive blake3 := by
    rw [reached]
    exact
      Server.run_routesToLive config node seedPeers startTime events
  have isAfter : server.next blake3 (.heartbeat sender now) = after :=
    congrArg Prod.snd handled
  have fromKnown :
      (MembershipEvent.heartbeat sender now).SentBy
        fun sender => sender ∈ server.membership.peers :=
    known
  have built : after.node.router.Built blake3 := by
    rw [← isAfter]
    exact (routes.next _).built
  have agreesAfter : after.Agrees := by
    rw [← isAfter]
    exact agrees.next fromKnown
  obtain ⟨sameName, knownIff⟩ := Server.next_refreshes blake3 fromKnown
  rw [isAfter] at sameName knownIff
  have soundAfter : after.membership.Sound := by
    rw [← isAfter]
    exact Server.sound_next sound _
  obtain ⟨sameEpoch, lists⟩ :=
    Server.onHeartbeat_reply blake3 sound sender now
  rw [isAfter] at lists
  rw [handled] at sameEpoch lists
  have listed :
      server.membership.localNodeId ∈ reply.peerIds ↔
        server.membership.localNodeId ∈ server.membership.peers := by
    rw [← knownIff, ← sameName, ← soundAfter.isAlive_self]
    exact lists _
  rw [EpochWatcher.applyIfNewer_of_lt (by rwa [← sameEpoch] at older),
    sameVnodes]
  refine (primary_eq_iff_mem built separate ?_ id).trans ?_
  · intro peerId member
    exact (agreesAfter peerId).mpr (Or.inr ((lists peerId).mp member))
  · rw [← listed]
    constructor
    · intro primaryListed
      by_cases isLocal :
          (after.node.router.route id).primary =
            some server.membership.localNodeId
      · exact Or.inl (primaryListed _ isLocal)
      · exact Or.inr isLocal
    · intro condition primary isPrimary
      have onRing := built.primary_mem_peers isPrimary
      rcases (agreesAfter primary).mp onRing with isLocal | alive
      · rw [sameName] at isLocal
        subst isLocal
        rcases condition with keepsSelf | notPrimary
        · exact keepsSelf
        · exact absurd isPrimary notPrimary
      · exact (lists primary).mpr alive

/-- A watcher that has not seen any reply yet. -/
def sampleWatcher : EpochWatcher :=
  .create [nodeA, nodeB] (HashRing.setPeers sampleBlake3 2 [nodeA, nodeB])

/-- The server after a death and a rejoin. -/
def rejoinedServer : Server :=
  sampleServer.run sampleBlake3 sampleRejoin

theorem rejoinedServer_agrees :
    rejoinedServer.Agrees :=
  ((Server.create_configured {} (sampleNode [] nodeA) sampleSeeds 0).run
    sampleBlake3 sampleRejoin_sent).agrees

/-- The ring that the rejoined server routes by after one more heartbeat. -/
theorem rejoinedServer_separate :
    SeparatePeers sampleBlake3
      (rejoinedServer.onHeartbeat sampleBlake3 nodeB
        5000).2.node.router.vnodesPerPeer
      (rejoinedServer.onHeartbeat sampleBlake3 nodeB
        5000).2.node.router.peers := by
  decide +kernel

theorem watcher_primary_eq_iff_sample :
    (rejoinedServer.onHeartbeat sampleBlake3 nodeB
        5000).2.node.router.route otherBlock = ⟨some nodeC, [nodeA]⟩ ∧
      (sampleWatcher.applyIfNewer sampleBlake3
        (.ofReply nodeA
          (rejoinedServer.onHeartbeat sampleBlake3 nodeB
            5000).1)).ring.primary otherBlock.hash = some nodeC := by
  have route :
      (rejoinedServer.onHeartbeat sampleBlake3 nodeB
          5000).2.node.router.route otherBlock =
        ⟨some nodeC, [nodeA]⟩ := by
    decide +kernel
  refine ⟨route, ?_⟩
  have same :=
    watcher_primary_eq_iff sampleBlake3 {} (sampleNode [] nodeA)
      sampleSeeds 0 sampleRejoin (rfl : rejoinedServer = _)
      rejoinedServer_agrees
      (by decide +kernel) (Prod.mk.eta.symm) rejoinedServer_separate
      (by decide +kernel : sampleWatcher.epoch < _) (by decide +kernel)
      nodeA otherBlock
  rw [route] at same
  exact same.mpr (Or.inr (by decide))

/--
The reply of the first node does not list the first node, so the watcher sends
a block to the second node that the first node is the primary of.
-/
theorem watcher_ring_lacks_source :
    rejoinedServer.Agrees ∧
      nodeB ∈ rejoinedServer.membership.peers ∧
      sampleWatcher.epoch < rejoinedServer.membership.epoch ∧
      (rejoinedServer.onHeartbeat sampleBlake3 nodeB
        5000).2.node.router.route sampleBlock = ⟨some nodeA, [nodeB]⟩ ∧
      (sampleWatcher.applyIfNewer sampleBlake3
        (.ofReply nodeA
          (rejoinedServer.onHeartbeat sampleBlake3 nodeB
            5000).1)).ring.primary sampleBlock.hash = some nodeB :=
  ⟨rejoinedServer_agrees, by decide +kernel, by decide +kernel,
    by decide +kernel, by decide +kernel⟩

/-! ## Polls answered by several servers -/

/-- Some servers, a watcher, and the last reply that the watcher received. -/
structure WatchedCluster where
  servers : NodeId → Server
  watcher : EpochWatcher
  lastReply : Option (NodeId × HeartbeatReply)

/-- What happens around a watcher. -/
inductive WatchEvent where
  | member (name : NodeId) (event : MembershipEvent)
  | restart
      (name : NodeId)
      (config : MembershipConfig)
      (node : CacheNode)
      (seedPeers : List StaticPeer)
      (now : Int)
  | poll (answers : NodeId → Bool) (sender : NodeId) (now : Int)

namespace WatchedCluster

variable (blake3 : List UInt8 → Hash256)

/-- Replace the state of one server. -/
def update
    (state : WatchedCluster)
    (name : NodeId)
    (server : Server) :
    WatchedCluster :=
  { state with servers := Function.update state.servers name server }

/--
The state after an event.  A poll is a heartbeat to the first candidate that
answers; its reply is taken over if its epoch is newer.
-/
def next
    (state : WatchedCluster) :
    WatchEvent → WatchedCluster
  | .member name event =>
      state.update name ((state.servers name).next blake3 event)
  | .restart name config node seedPeers now =>
      state.update name (Server.create blake3 config node seedPeers now)
  | .poll answers sender now =>
      match state.watcher.probeAnyPeer answers with
      | none => state
      | some name =>
          let handled := (state.servers name).onHeartbeat blake3 sender now
          { state.update name handled.2 with
            watcher :=
              state.watcher.applyIfNewer blake3 (.ofReply name handled.1)
            lastReply := some (name, handled.1) }

/-- The state after a sequence of events. -/
def run
    (state : WatchedCluster)
    (events : List WatchEvent) :
    WatchedCluster :=
  events.foldl (next blake3) state

/-- Servers as constructed, before the first answered poll. -/
structure Fresh
    (state : WatchedCluster) : Prop where
  servers_eq :
    ∀ name,
      ∃ config node seedPeers now,
        state.servers name =
          Server.create blake3 config node seedPeers now
  lastReply_eq : state.lastReply = none

variable {blake3}

/-- The ring holds no peer that the last reply does not list. -/
def FollowsLastReply
    (state : WatchedCluster) : Prop :=
  ∀ name reply,
    state.lastReply = some (name, reply) →
    ∀ peerId,
      peerId ≠ name →
      peerId ∉ reply.peerIds →
      peerId ∉ state.watcher.ring.peers

/--
The event is no answered poll, or the answering server has a newer epoch than
the watcher, or it knows all other peers of the watcher's ring to be alive.
-/
def NewerOrCovers
    (state : WatchedCluster) :
    WatchEvent → Prop
  | .member _ _ => True
  | .restart _ _ _ _ _ => True
  | .poll answers sender _ =>
      ∀ name,
        state.watcher.probeAnyPeer answers = some name →
        state.watcher.epoch < (state.servers name).membership.epoch ∨
          ∀ peerId ∈ state.watcher.ring.peers,
            peerId = name ∨ peerId = sender ∨
              (state.servers name).membership.isAlive peerId = true

/-- The entries of all servers are sound. -/
def Sound
    (state : WatchedCluster) : Prop :=
  ∀ name, (state.servers name).membership.Sound

theorem Sound.update
    {state : WatchedCluster}
    (sound : state.Sound)
    (name : NodeId)
    {server : Server}
    (serverSound : server.membership.Sound) :
    (state.update name server).Sound := by
  intro other
  by_cases same : other = name
  · subst same
    simpa [WatchedCluster.update] using serverSound
  · simpa [WatchedCluster.update, Function.update_of_ne same] using
      sound other

theorem Sound.next
    {state : WatchedCluster}
    (sound : state.Sound)
    (event : WatchEvent) :
    (state.next blake3 event).Sound := by
  cases event with
  | member name event =>
      exact sound.update name (Server.sound_next (sound name) event)
  | restart name config node seedPeers now =>
      exact sound.update name (Membership.create_sound _ _ _ _)
  | poll answers sender now =>
      simp only [WatchedCluster.next]
      split
      · exact sound
      · next name _ =>
          exact
            sound.update name
              (Server.sound_next (sound name) (.heartbeat sender now))

/-- The reply to a poll lists the sender and the live peers. -/
theorem Sound.mem_peerIds
    {state : WatchedCluster}
    (sound : state.Sound)
    {name sender : NodeId}
    {now : Int}
    {peerId : NodeId} :
    peerId ∈
        ((state.servers name).onHeartbeat blake3 sender now).1.peerIds ↔
      peerId = sender ∨
        (state.servers name).membership.isAlive peerId = true := by
  rw [(Server.onHeartbeat_reply blake3 (sound name) sender now).2,
    Server.isAlive_next_heartbeat, Bool.or_eq_true, decide_eq_true_iff]

/-- A step keeps following the last reply exactly under the condition. -/
theorem Sound.followsLastReply_next
    {state : WatchedCluster}
    (sound : state.Sound)
    (follows : state.FollowsLastReply)
    {event : WatchEvent} :
    (state.next blake3 event).FollowsLastReply ↔
      state.NewerOrCovers event := by
  cases event with
  | member name event =>
      exact ⟨fun _ => trivial, fun _ => follows⟩
  | restart name config node seedPeers now =>
      exact ⟨fun _ => trivial, fun _ => follows⟩
  | poll answers sender now =>
      simp only [WatchedCluster.next, NewerOrCovers]
      cases probed : state.watcher.probeAnyPeer answers with
      | none =>
          simpa using follows
      | some name =>
          simp only [Option.some.injEq, forall_eq']
          rw [FollowsLastReply]
          simp only [Option.some.injEq, Prod.mk.injEq, and_imp,
            forall_apply_eq_imp_iff, forall_eq']
          by_cases newer :
              state.watcher.epoch < (state.servers name).membership.epoch
          · refine ⟨fun _ => Or.inl newer, ?_⟩
            intro _ peerId _ unlisted onRing
            rw [EpochWatcher.applyIfNewer_of_lt newer] at onRing
            exact unlisted (HashRing.mem_of_mem_peers onRing)
          · have ignored :
                state.watcher.applyIfNewer blake3
                    (.ofReply name
                      ((state.servers name).onHeartbeat blake3 sender
                        now).1) =
                  state.watcher :=
              if_pos (Nat.le_of_not_lt newer)
            rw [ignored]
            simp only [newer, false_or, sound.mem_peerIds]
            constructor
            · intro unlisted peerId onRing
              by_cases isSource : peerId = name
              · exact Or.inl isSource
              · refine Or.inr ?_
                by_contra notListed
                exact unlisted peerId isSource notListed onRing
            · intro covers peerId notSource notListed onRing
              rcases covers peerId onRing with isSource | listed
              · exact notSource isSource
              · exact notListed listed

end WatchedCluster

/--
In every run of several servers and a watcher, the watcher's ring never holds a
peer that the last answering server does not list, itself apart, if and only if
every poll is answered by a server with a newer epoch than the watcher's or by
one that knows the peers of the ring to be alive.
-/
theorem watcher_follows_last_reply_iff
    (blake3 : List UInt8 → Hash256)
    {start : WatchedCluster}
    (fresh : start.Fresh blake3)
    (events : List WatchEvent) :
    (∀ earlier,
        earlier <+: events →
        (start.run blake3 earlier).FollowsLastReply) ↔
      ∀ earlier event,
        earlier ++ [event] <+: events →
        (start.run blake3 earlier).NewerOrCovers event := by
  have sound : start.Sound := by
    intro name
    obtain ⟨config, node, seedPeers, now, created⟩ := fresh.servers_eq name
    rw [created]
    exact Membership.create_sound _ _ _ _
  refine
    EventRun.good_at_prefixes_iff
      (fun held => WatchedCluster.Sound.next held _)
      (fun held follows => held.followsLastReply_next follows) sound ?_
  intro name reply isLast
  rw [fresh.lastReply_eq] at isLast
  cases isLast

/-- Three servers, each configured with the other two, and a watcher. -/
def sampleWatched : WatchedCluster where
  servers := fun name =>
    Server.create sampleBlake3 {} (sampleNode [] name)
      (([nodeA, nodeB, nodeC].filter (· ≠ name)).map fun peer =>
        ⟨peer, peer.name ++ ":7001"⟩) 0
  watcher := sampleWatcher
  lastReply := none

theorem sampleWatched_fresh :
    sampleWatched.Fresh sampleBlake3 :=
  ⟨fun name => ⟨{}, sampleNode [] name, _, 0, rfl⟩, rfl⟩

/-- A poll that only the given server answers. -/
def pollAt
    (name sender : NodeId) :
    WatchEvent :=
  .poll (fun candidate => candidate = name) sender 6000

theorem watcher_follows_last_reply_iff_sample :
    (sampleWatched.run sampleBlake3 [pollAt nodeA nodeB]).FollowsLastReply ∧
      ((sampleWatched.run sampleBlake3
          [pollAt nodeA nodeB]).lastReply.map Prod.fst = some nodeA ∧
        nodeB ∈ (sampleWatched.run sampleBlake3
          [pollAt nodeA nodeB]).watcher.ring.peers) := by
  have follows :=
    (watcher_follows_last_reply_iff sampleBlake3 sampleWatched_fresh
      [pollAt nodeA nodeB]).mpr
  refine
    ⟨follows ?_ _ (List.prefix_refl _), by decide +kernel,
      by decide +kernel⟩
  refine EventRun.conditions_cons ?_ EventRun.conditions_nil
  intro name isName
  have isA : nodeA = name :=
    Option.some.inj
      ((by decide +kernel :
        sampleWatched.watcher.probeAnyPeer (· = nodeA) =
          some nodeA).symm.trans isName)
  subst isA
  refine Or.inr ?_
  decide +kernel

/--
The watcher has taken over epoch 2 of the first node, which saw the second node
die and come back.  The second node then sees the third die, in its epoch 1;
the watcher ignores its reply and keeps the third node on its ring.
-/
def staleEvents : List WatchEvent :=
  [ .member nodeA (.heartbeat nodeB 0),
    .member nodeA (.tick 4000 fun _ => []),
    .member nodeA (.heartbeat nodeB 4000),
    .member nodeB (.heartbeat nodeC 0),
    pollAt nodeA nodeB,
    .member nodeB (.tick 5000 fun _ => []),
    pollAt nodeB nodeA ]

theorem watcher_keeps_dead_node :
    sampleWatched.Fresh sampleBlake3 ∧
      ¬ (sampleWatched.run sampleBlake3 staleEvents).FollowsLastReply := by
  refine ⟨sampleWatched_fresh, ?_⟩
  have last :
      (sampleWatched.run sampleBlake3 staleEvents).lastReply =
        some (nodeB, ⟨[⟨nodeA, 1, false⟩], 1⟩) := by
    decide +kernel
  intro follows
  exact
    follows _ _ last nodeC (by decide) (by decide +kernel)
      (by decide +kernel)

end Lethe
