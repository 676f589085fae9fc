import Lethe.Cache
import Lethe.RoutingStability

namespace Lethe

/-!
# Membership

A server keeps an entry for every peer that it was configured with or has
heard from.  Heartbeats and replies refresh an entry, and a detector marks
peers dead that were silent for too long.  A change of membership raises the
epoch, rebuilds the ring from the local node and the peers marked alive, and
starts a re-replication round if peers were lost.

Times are readings of the steady clock.  Which outbound heartbeats were
answered in time is a parameter of the call that sends them.
-/

/-- A configured peer. -/
structure StaticPeer where
  nodeId : NodeId
  address : String
  deriving DecidableEq, Repr

/-- What a server knows about one peer. -/
structure PeerInfo where
  nodeId : NodeId
  address : String := ""
  lastSeen : Int := 0
  lastSeenEpoch : Nat := 0
  suspected : Bool := false
  alive : Bool := true
  everSeen : Bool := false
  deriving DecidableEq, Repr

/-- Silence after which a peer is suspected or dead, in milliseconds. -/
structure MembershipConfig where
  suspectAfter : Int := 1000
  deadAfter : Int := 3000
  deriving DecidableEq, Repr

/-- One peer of a heartbeat reply. -/
structure PeerStatus where
  nodeId : NodeId
  lastSeenEpoch : Nat := 0
  suspected : Bool := false
  deriving DecidableEq, Repr

/-- The answer to a heartbeat: the server's view of the cluster. -/
structure HeartbeatReply where
  alivePeers : List PeerStatus
  clusterEpoch : Nat
  deriving DecidableEq, Repr

/-- The names that a reply lists. -/
def HeartbeatReply.peerIds
    (reply : HeartbeatReply) :
    List NodeId :=
  reply.alivePeers.map PeerStatus.nodeId

/-- Entries of the peers, by name. -/
abbrev Peers : Type :=
  AList fun _ : NodeId => PeerInfo

/-- Change every entry of the map in place. -/
def Peers.update
    (peers : Peers)
    (revise : NodeId → PeerInfo → PeerInfo) :
    Peers where
  entries :=
    peers.entries.map fun entry => ⟨entry.1, revise entry.1 entry.2⟩
  nodupKeys := by
    have sameKeys :
        (peers.entries.map fun entry =>
          (⟨entry.1, revise entry.1 entry.2⟩ :
            Sigma fun _ : NodeId => PeerInfo)).keys =
          peers.entries.keys := by
      simp [List.keys, Function.comp_def]
    rw [List.NodupKeys, sameKeys]
    exact peers.nodupKeys

/-- State of the membership component of one server. -/
structure Membership where
  config : MembershipConfig
  localNodeId : NodeId
  peers : Peers
  epoch : Nat

namespace PeerInfo

/-- The entry after a heartbeat from the peer or a reply to one. -/
def contacted
    (info : PeerInfo)
    (now : Int)
    (epoch : Nat) :
    PeerInfo :=
  { info with
    lastSeen := now
    lastSeenEpoch := epoch
    suspected := false
    alive := true
    everSeen := true }

end PeerInfo

namespace Membership

/-- File a configured peer as alive, unless its name is taken. -/
def addSeed
    (now : Int)
    (peers : Peers)
    (peer : StaticPeer) :
    Peers :=
  if peer.nodeId ∈ peers then
    peers
  else
    peers.insert peer.nodeId
      { nodeId := peer.nodeId
        address := peer.address
        lastSeen := now }

/-- The component as constructed: every configured peer counts as alive. -/
def create
    (config : MembershipConfig)
    (localNodeId : NodeId)
    (seedPeers : List StaticPeer)
    (now : Int) :
    Membership where
  config := config
  localNodeId := localNodeId
  peers := seedPeers.foldl (addSeed now) ∅
  epoch := 0

/-- The peer has an entry that is marked alive. -/
def isAlive
    (membership : Membership)
    (peerId : NodeId) :
    Bool :=
  (membership.peers.lookup peerId).any PeerInfo.alive

/-- The local node and the peers marked alive. -/
def aliveIds
    (membership : Membership) :
    List NodeId :=
  membership.localNodeId ::
    (membership.peers.entries.filter fun entry => entry.2.alive).map
      Sigma.fst

/-- Peers that heartbeats are sent to. -/
def targets
    (membership : Membership) :
    List NodeId :=
  (membership.peers.entries.filter fun entry =>
    entry.1 ≠ membership.localNodeId ∧ entry.2.address ≠ "").map Sigma.fst

/-- Refresh the entry of one peer that answered; collect it if it was dead. -/
def noteReply
    (now : Int)
    (epoch : Nat)
    (state : List NodeId × Peers)
    (peerId : NodeId) :
    List NodeId × Peers :=
  match state.2.lookup peerId with
  | none => state
  | some info =>
      (if info.alive then state.1 else state.1 ++ [peerId],
        state.2.insert peerId (info.contacted now epoch))

/-- Refresh the peers that answered and return those that were dead. -/
def noteReplies
    (membership : Membership)
    (succeeded : List NodeId)
    (now : Int) :
    List NodeId × Membership :=
  let noted :=
    succeeded.foldl (noteReply now membership.epoch) ([], membership.peers)
  (noted.1, { membership with peers := noted.2 })

/-- The detector's verdict on one entry: whether it dies, and the new entry. -/
def judge
    (membership : Membership)
    (now : Int)
    (peerId : NodeId)
    (info : PeerInfo) :
    Bool × PeerInfo :=
  if peerId = membership.localNodeId then
    (false, info)
  else if info.alive = false then
    (false, info)
  else if info.everSeen = false then
    (false, info)
  else if now - info.lastSeen > membership.config.deadAfter then
    (true, { info with alive := false, suspected := true })
  else if now - info.lastSeen > membership.config.suspectAfter then
    (false, { info with suspected := true })
  else
    (false, { info with suspected := false })

/-- Judge every entry and return the peers that just died. -/
def evaluateSuspicions
    (membership : Membership)
    (now : Int) :
    List NodeId × Membership :=
  ((membership.peers.entries.filter fun entry =>
      (membership.judge now entry.1 entry.2).1).map Sigma.fst,
    { membership with
      peers :=
        membership.peers.update fun peerId info =>
          (membership.judge now peerId info).2 })

/-- The reply that describes the current entries. -/
def reply
    (membership : Membership) :
    HeartbeatReply where
  clusterEpoch := membership.epoch
  alivePeers :=
    (membership.peers.entries.filter fun entry => entry.2.alive).map
      fun entry =>
        { nodeId := entry.2.nodeId
          lastSeenEpoch := entry.2.lastSeenEpoch
          suspected := entry.2.suspected }

/--
The locked part of handling a heartbeat.  A sender without an entry gets one,
and the entry is refreshed; the result says whether it was marked dead.
-/
def noteHeartbeat
    (membership : Membership)
    (peerId : NodeId)
    (now : Int) :
    Bool × Membership :=
  let info :=
    (membership.peers.lookup peerId).getD { nodeId := peerId }
  (!info.alive,
    { membership with
      peers :=
        membership.peers.insert peerId
          (info.contacted now membership.epoch) })

/-- Raise the epoch. -/
def bumpEpoch
    (membership : Membership) :
    Membership :=
  { membership with epoch := addSize membership.epoch 1 }

end Membership

/-! ## What the calls do to the entries -/

/-- Changing all entries keeps the names. -/
theorem Peers.lookup_update
    (peers : Peers)
    (revise : NodeId → PeerInfo → PeerInfo)
    (peerId : NodeId) :
    (peers.update revise).lookup peerId =
      (peers.lookup peerId).map (revise peerId) := by
  change
    (peers.entries.map fun entry =>
        (⟨entry.1, revise entry.1 entry.2⟩ :
          Sigma fun _ : NodeId => PeerInfo)).dlookup peerId =
      (peers.entries.dlookup peerId).map (revise peerId)
  induction peers.entries with
  | nil =>
      rfl
  | cons entry rest inductionHypothesis =>
      obtain ⟨name, info⟩ := entry
      by_cases same : peerId = name
      · subst same
        simp
      · rw [List.map_cons, List.dlookup_cons_ne _ ⟨name, _⟩ same,
          List.dlookup_cons_ne _ ⟨name, _⟩ same]
        exact inductionHypothesis

namespace Membership

variable {membership : Membership}

theorem isAlive_iff
    {peerId : NodeId} :
    membership.isAlive peerId = true ↔
      ∃ info, membership.peers.lookup peerId = some info ∧
        info.alive = true := by
  unfold isAlive
  cases membership.peers.lookup peerId with
  | none =>
      simp
  | some info =>
      simp

/-- Only known peers are alive. -/
theorem known_of_isAlive
    {peerId : NodeId}
    (alive : membership.isAlive peerId = true) :
    peerId ∈ membership.peers := by
  obtain ⟨info, found, _⟩ := isAlive_iff.mp alive
  rw [← AList.lookup_isSome, found]
  rfl

/-- Listing the entries marked alive names the live peers. -/
theorem mem_alive_entries
    {peerId : NodeId} :
    (∃ info, (⟨peerId, info⟩ : Sigma fun _ : NodeId => PeerInfo) ∈
        membership.peers.entries.filter fun entry => entry.2.alive) ↔
      membership.isAlive peerId = true := by
  simp only [isAlive_iff, List.mem_filter, AList.mem_lookup_iff.symm,
    Option.mem_def]

theorem mem_aliveIds
    {peerId : NodeId} :
    peerId ∈ membership.aliveIds ↔
      peerId = membership.localNodeId ∨
        membership.isAlive peerId = true := by
  rw [aliveIds, List.mem_cons, List.mem_map, ← mem_alive_entries]
  refine or_congr_right ?_
  constructor
  · rintro ⟨⟨name, info⟩, listed, isName⟩
    subst isName
    exact ⟨info, listed⟩
  · rintro ⟨info, listed⟩
    exact ⟨⟨peerId, info⟩, listed, rfl⟩

theorem mem_foldl_addSeed
    {now : Int}
    {seedPeers : List StaticPeer}
    {peers : Peers}
    {peerId : NodeId} :
    peerId ∈ seedPeers.foldl (addSeed now) peers ↔
      peerId ∈ peers ∨ peerId ∈ seedPeers.map StaticPeer.nodeId := by
  induction seedPeers generalizing peers with
  | nil =>
      simp
  | cons peer rest inductionHypothesis =>
      rw [List.foldl_cons, inductionHypothesis, List.map_cons,
        List.mem_cons, ← or_assoc]
      refine or_congr_left ?_
      unfold addSeed
      split
      · next taken =>
          constructor
          · exact Or.inl
          · rintro (already | isPeer)
            · exact already
            · rwa [isPeer]
      · rw [AList.mem_insert, or_comm]

/-- What holds of the entries of new peers holds of all configured ones. -/
theorem forall_foldl_addSeed
    (holds : NodeId → PeerInfo → Prop)
    {now : Int}
    (fresh :
      ∀ peer : StaticPeer,
        holds peer.nodeId
          { nodeId := peer.nodeId, address := peer.address, lastSeen := now })
    {seedPeers : List StaticPeer}
    {peers : Peers}
    (initially :
      ∀ {peerId info},
        peers.lookup peerId = some info →
        holds peerId info)
    {peerId : NodeId}
    {info : PeerInfo}
    (found :
      (seedPeers.foldl (addSeed now) peers).lookup peerId = some info) :
    holds peerId info := by
  induction seedPeers generalizing peers with
  | nil =>
      exact initially found
  | cons peer rest inductionHypothesis =>
      refine inductionHypothesis ?_ found
      intro peerId info found
      unfold addSeed at found
      split at found
      · exact initially found
      · by_cases same : peerId = peer.nodeId
        · subst same
          rw [AList.lookup_insert] at found
          cases found
          exact fresh peer
        · rw [AList.lookup_insert_ne same] at found
          exact initially found

/-- Configured peers are alive and filed under their names. -/
theorem lookup_foldl_addSeed
    {now : Int}
    {seedPeers : List StaticPeer}
    {peers : Peers}
    (initially :
      ∀ {peerId info},
        peers.lookup peerId = some info →
        info.nodeId = peerId ∧ info.alive = true)
    {peerId : NodeId}
    {info : PeerInfo}
    (found :
      (seedPeers.foldl (addSeed now) peers).lookup peerId = some info) :
    info.nodeId = peerId ∧ info.alive = true :=
  forall_foldl_addSeed
    (fun peerId info => info.nodeId = peerId ∧ info.alive = true)
    (fun _ => ⟨rfl, rfl⟩) initially found

section Create

variable
  {config : MembershipConfig}
  {localNodeId : NodeId}
  {seedPeers : List StaticPeer}
  {now : Int}

/-- At first the known peers are the configured ones. -/
theorem mem_create
    {peerId : NodeId} :
    peerId ∈ (create config localNodeId seedPeers now).peers ↔
      peerId ∈ seedPeers.map StaticPeer.nodeId := by
  refine mem_foldl_addSeed.trans ?_
  simp [AList.notMem_empty]

/-- At first all known peers are alive. -/
theorem isAlive_create
    {peerId : NodeId} :
    (create config localNodeId seedPeers now).isAlive peerId = true ↔
      peerId ∈ seedPeers.map StaticPeer.nodeId := by
  rw [← mem_create]
  refine ⟨known_of_isAlive, ?_⟩
  intro known
  rw [← AList.lookup_isSome, Option.isSome_iff_exists] at known
  obtain ⟨info, found⟩ := known
  refine isAlive_iff.mpr ⟨info, found, ?_⟩
  exact (lookup_foldl_addSeed (by simp) found).2

end Create

/-- Refreshing an entry that is there. -/
theorem lookup_noteReply
    (now : Int)
    (epoch : Nat)
    (state : List NodeId × Peers)
    (answered peerId : NodeId) :
    (noteReply now epoch state answered).2.lookup peerId =
      if peerId = answered then
        (state.2.lookup peerId).map fun info => info.contacted now epoch
      else
        state.2.lookup peerId := by
  unfold noteReply
  by_cases same : peerId = answered
  · subst same
    cases found : state.2.lookup peerId with
    | none =>
        simp [found]
    | some info =>
        simp
  · cases state.2.lookup answered with
    | none =>
        simp [same]
    | some info =>
        simp [same, AList.lookup_insert_ne same]

/-- Refreshing the entries of several peers. -/
theorem lookup_foldl_noteReply
    (now : Int)
    (epoch : Nat)
    (succeeded : List NodeId)
    (state : List NodeId × Peers)
    (peerId : NodeId) :
    (succeeded.foldl (noteReply now epoch) state).2.lookup peerId =
      if peerId ∈ succeeded then
        (state.2.lookup peerId).map fun info => info.contacted now epoch
      else
        state.2.lookup peerId := by
  induction succeeded generalizing state with
  | nil =>
      simp
  | cons answered rest inductionHypothesis =>
      rw [List.foldl_cons, inductionHypothesis, lookup_noteReply]
      by_cases isAnswered : peerId = answered
      · by_cases again : peerId ∈ rest
        · simp [← isAnswered, again, Function.comp_def,
            PeerInfo.contacted]
        · simp [← isAnswered, again]
      · simp [isAnswered]

/-- The peers that answered are refreshed, all others are left alone. -/
theorem lookup_noteReplies
    (membership : Membership)
    (succeeded : List NodeId)
    (now : Int)
    (peerId : NodeId) :
    (membership.noteReplies succeeded now).2.peers.lookup peerId =
      if peerId ∈ succeeded then
        (membership.peers.lookup peerId).map fun info =>
          info.contacted now membership.epoch
      else
        membership.peers.lookup peerId :=
  lookup_foldl_noteReply now membership.epoch succeeded _ peerId

/-- Collected peers stay collected. -/
theorem foldl_noteReply_grows
    (now : Int)
    (epoch : Nat)
    (succeeded : List NodeId)
    (state : List NodeId × Peers) :
    state.1 <+: (succeeded.foldl (noteReply now epoch) state).1 := by
  induction succeeded generalizing state with
  | nil =>
      exact List.prefix_refl _
  | cons answered rest inductionHypothesis =>
      refine List.IsPrefix.trans ?_ (inductionHypothesis _)
      unfold noteReply
      split
      · exact List.prefix_refl _
      · split
        · exact List.prefix_refl _
        · exact List.prefix_append _ _

/-- Nobody is collected only if everyone who answered was alive before. -/
theorem alive_of_foldl_noteReply
    {now : Int}
    {epoch : Nat}
    {succeeded : List NodeId}
    {state : List NodeId × Peers}
    (nobody : (succeeded.foldl (noteReply now epoch) state).1 = [])
    {peerId : NodeId}
    (answered : peerId ∈ succeeded)
    {info : PeerInfo}
    (found : state.2.lookup peerId = some info) :
    info.alive = true := by
  induction succeeded generalizing state with
  | nil =>
      simp at answered
  | cons first rest inductionHypothesis =>
      rw [List.foldl_cons] at nobody
      by_cases isFirst : peerId = first
      · subst isFirst
        have firstEmpty :=
          foldl_noteReply_grows now epoch rest
            (noteReply now epoch state peerId)
        rw [nobody, List.prefix_nil] at firstEmpty
        simp only [noteReply, found] at firstEmpty
        by_contra dead
        simp [dead] at firstEmpty
      · refine inductionHypothesis nobody ?_ ?_
        · simpa [isFirst] using answered
        · rw [lookup_noteReply, if_neg isFirst, found]

/-- If nobody came back, the live peers are the same. -/
theorem isAlive_noteReplies
    {succeeded : List NodeId}
    {now : Int}
    (nobody : (membership.noteReplies succeeded now).1 = [])
    (peerId : NodeId) :
    (membership.noteReplies succeeded now).2.isAlive peerId =
      membership.isAlive peerId := by
  unfold isAlive
  rw [lookup_noteReplies]
  split
  · next answered =>
      cases found : membership.peers.lookup peerId with
      | none =>
          rfl
      | some info =>
          have alive : info.alive = true :=
            alive_of_foldl_noteReply nobody answered found
          simp [PeerInfo.contacted, alive]
  · rfl

theorem lookup_evaluateSuspicions
    (membership : Membership)
    (now : Int)
    (peerId : NodeId) :
    (membership.evaluateSuspicions now).2.peers.lookup peerId =
      (membership.peers.lookup peerId).map fun info =>
        (membership.judge now peerId info).2 :=
  Peers.lookup_update _ _ _

/-- What the detector can decide about an entry. -/
inductive Verdict
    (membership : Membership)
    (now : Int)
    (peerId : NodeId)
    (info : PeerInfo) :
    Bool × PeerInfo → Prop where
  | survives
      (suspected : Bool) :
      Verdict membership now peerId info
        (false, { info with suspected := suspected })
  | dies
      (remote : peerId ≠ membership.localNodeId)
      (alive : info.alive = true)
      (seen : info.everSeen = true)
      (silent : now - info.lastSeen > membership.config.deadAfter) :
      Verdict membership now peerId info
        (true, { info with alive := false, suspected := true })

theorem judge_verdict
    (membership : Membership)
    (now : Int)
    (peerId : NodeId)
    (info : PeerInfo) :
    Verdict membership now peerId info
      (membership.judge now peerId info) := by
  unfold judge
  split
  · exact .survives info.suspected
  · next remote =>
      split
      · exact .survives info.suspected
      · next alive =>
          split
          · exact .survives info.suspected
          · next seen =>
              split
              · next silent =>
                  exact
                    .dies remote (by simpa using alive)
                      (by simpa using seen) silent
              · split
                · exact .survives true
                · exact .survives false

/-- An entry that does not die keeps its mark. -/
theorem judge_alive
    {now : Int}
    {peerId : NodeId}
    {info : PeerInfo}
    (survives : (membership.judge now peerId info).1 = false) :
    (membership.judge now peerId info).2.alive = info.alive := by
  have verdict := membership.judge_verdict now peerId info
  generalize membership.judge now peerId info = judged at survives verdict
  cases verdict with
  | survives suspected =>
      rfl
  | dies remote alive seen silent =>
      simp at survives

/-- If nobody died, the live peers are the same. -/
theorem isAlive_evaluateSuspicions
    {now : Int}
    (nobody : (membership.evaluateSuspicions now).1 = [])
    (peerId : NodeId) :
    (membership.evaluateSuspicions now).2.isAlive peerId =
      membership.isAlive peerId := by
  unfold isAlive
  rw [lookup_evaluateSuspicions]
  cases found : membership.peers.lookup peerId with
  | none =>
      rfl
  | some info =>
      have listed := AList.mem_lookup_iff.mp (Option.mem_def.mpr found)
      simp only [evaluateSuspicions, List.map_eq_nil_iff,
        List.filter_eq_nil_iff, Bool.not_eq_true] at nobody
      simp [judge_alive (nobody _ listed)]

theorem lookup_noteHeartbeat
    (membership : Membership)
    (sender : NodeId)
    (now : Int)
    (peerId : NodeId) :
    (membership.noteHeartbeat sender now).2.peers.lookup peerId =
      if peerId = sender then
        some (((membership.peers.lookup sender).getD
          { nodeId := sender }).contacted now membership.epoch)
      else
        membership.peers.lookup peerId := by
  unfold noteHeartbeat
  by_cases same : peerId = sender
  · subst same
    simp
  · simp [same, AList.lookup_insert_ne same]

/-- The sender of a heartbeat is alive from then on. -/
theorem isAlive_noteHeartbeat
    (membership : Membership)
    (sender : NodeId)
    (now : Int)
    (peerId : NodeId) :
    (membership.noteHeartbeat sender now).2.isAlive peerId =
      (decide (peerId = sender) || membership.isAlive peerId) := by
  unfold isAlive
  rw [lookup_noteHeartbeat]
  by_cases same : peerId = sender
  · simp [same, PeerInfo.contacted]
  · simp [same]

/-- A heartbeat is a rejoin if its sender has an entry that is marked dead. -/
theorem noteHeartbeat_rejoins
    {sender : NodeId}
    {now : Int} :
    (membership.noteHeartbeat sender now).1 = true ↔
      sender ∈ membership.peers ∧ membership.isAlive sender = false := by
  rw [← AList.lookup_isSome]
  unfold noteHeartbeat isAlive
  cases membership.peers.lookup sender with
  | none =>
      simp
  | some info =>
      simp

/-- A heartbeat that is no rejoin comes from a live peer, if it is known. -/
theorem isAlive_noteHeartbeat_of_stays
    {sender : NodeId}
    (known : sender ∈ membership.peers)
    {now : Int}
    (stays : ¬ (membership.noteHeartbeat sender now).1 = true)
    (peerId : NodeId) :
    (membership.noteHeartbeat sender now).2.isAlive peerId =
      membership.isAlive peerId := by
  rw [noteHeartbeat_rejoins] at stays
  have alive : membership.isAlive sender = true := by
    simpa [known] using stays
  rw [isAlive_noteHeartbeat]
  by_cases isSender : peerId = sender
  · simp [isSender, alive]
  · simp [isSender]

/-- The peers with an entry, after each of the locked parts. -/
theorem mem_noteHeartbeat
    {sender : NodeId}
    {now : Int}
    {peerId : NodeId} :
    peerId ∈ (membership.noteHeartbeat sender now).2.peers ↔
      peerId = sender ∨ peerId ∈ membership.peers :=
  AList.mem_insert _

theorem mem_noteReplies
    {succeeded : List NodeId}
    {now : Int}
    {peerId : NodeId} :
    peerId ∈ (membership.noteReplies succeeded now).2.peers ↔
      peerId ∈ membership.peers := by
  rw [← AList.lookup_isSome, ← AList.lookup_isSome, lookup_noteReplies]
  split <;> simp

theorem mem_evaluateSuspicions
    {now : Int}
    {peerId : NodeId} :
    peerId ∈ (membership.evaluateSuspicions now).2.peers ↔
      peerId ∈ membership.peers := by
  rw [← AList.lookup_isSome, ← AList.lookup_isSome,
    lookup_evaluateSuspicions]
  simp

/--
Entries carry the name they are filed under, and the local node's own entry,
if it has one, is never marked dead.
-/
structure Sound
    (membership : Membership) : Prop where
  named :
    ∀ {peerId info},
      membership.peers.lookup peerId = some info →
      info.nodeId = peerId
  selfAlive :
    ∀ {info},
      membership.peers.lookup membership.localNodeId = some info →
      info.alive = true

theorem create_sound
    (config : MembershipConfig)
    (localNodeId : NodeId)
    (seedPeers : List StaticPeer)
    (now : Int) :
    (create config localNodeId seedPeers now).Sound where
  named := fun found => (lookup_foldl_addSeed (by simp) found).1
  selfAlive := fun found => (lookup_foldl_addSeed (by simp) found).2

theorem Sound.noteHeartbeat
    (sound : membership.Sound)
    (sender : NodeId)
    (now : Int) :
    (membership.noteHeartbeat sender now).2.Sound where
  named := by
    intro peerId info found
    rw [lookup_noteHeartbeat] at found
    split at found
    · next same =>
        subst same
        cases known : membership.peers.lookup peerId with
        | none =>
            rw [known] at found
            cases found
            rfl
        | some old =>
            have sameName := sound.named known
            rw [known] at found
            cases found
            exact sameName
    · exact sound.named found
  selfAlive := by
    intro info found
    rw [lookup_noteHeartbeat] at found
    split at found
    · cases found
      rfl
    · exact sound.selfAlive found

theorem Sound.noteReplies
    (sound : membership.Sound)
    (succeeded : List NodeId)
    (now : Int) :
    (membership.noteReplies succeeded now).2.Sound where
  named := by
    intro peerId info found
    rw [lookup_noteReplies] at found
    split at found
    · obtain ⟨old, known, isInfo⟩ := Option.map_eq_some_iff.mp found
      have sameName := sound.named known
      subst isInfo
      exact sameName
    · exact sound.named found
  selfAlive := by
    intro info found
    rw [lookup_noteReplies] at found
    split at found
    · obtain ⟨old, known, isInfo⟩ := Option.map_eq_some_iff.mp found
      subst isInfo
      rfl
    · exact sound.selfAlive found

theorem Sound.evaluateSuspicions
    (sound : membership.Sound)
    (now : Int) :
    (membership.evaluateSuspicions now).2.Sound where
  named := by
    intro peerId info found
    rw [lookup_evaluateSuspicions] at found
    obtain ⟨old, known, isInfo⟩ := Option.map_eq_some_iff.mp found
    have sameName := sound.named known
    have verdict := membership.judge_verdict now peerId old
    generalize membership.judge now peerId old = judged at isInfo verdict
    subst isInfo
    cases verdict with
    | survives suspected =>
        exact sameName
    | dies remote alive seen silent =>
        exact sameName
  selfAlive := by
    intro info found
    rw [lookup_evaluateSuspicions] at found
    obtain ⟨old, known, isInfo⟩ := Option.map_eq_some_iff.mp found
    have alive := sound.selfAlive known
    have verdict :=
      membership.judge_verdict now membership.localNodeId old
    change
      (membership.judge now membership.localNodeId old).2 = info at isInfo
    generalize membership.judge now membership.localNodeId old = judged
      at isInfo verdict
    subst isInfo
    cases verdict with
    | survives suspected =>
        exact alive
    | dies remote _ _ _ =>
        exact absurd rfl remote

/-- A locked part that adds no entry. -/
structure Refreshes
    (before after : Membership) : Prop where
  localNodeId_eq : after.localNodeId = before.localNodeId
  epoch_eq : after.epoch = before.epoch
  known_iff :
    ∀ peerId, peerId ∈ after.peers ↔ peerId ∈ before.peers
  sound : before.Sound → after.Sound

theorem noteReplies_refreshes
    (membership : Membership)
    (succeeded : List NodeId)
    (now : Int) :
    membership.Refreshes (membership.noteReplies succeeded now).2 :=
  ⟨rfl, rfl, fun _ => mem_noteReplies,
    fun sound => sound.noteReplies succeeded now⟩

theorem evaluateSuspicions_refreshes
    (membership : Membership)
    (now : Int) :
    membership.Refreshes (membership.evaluateSuspicions now).2 :=
  ⟨rfl, rfl, fun _ => mem_evaluateSuspicions,
    fun sound => sound.evaluateSuspicions now⟩

/-- A heartbeat from a known peer adds no entry. -/
theorem noteHeartbeat_refreshes
    {sender : NodeId}
    (known : sender ∈ membership.peers)
    (now : Int) :
    membership.Refreshes (membership.noteHeartbeat sender now).2 where
  localNodeId_eq := rfl
  epoch_eq := rfl
  known_iff := by
    intro peerId
    rw [mem_noteHeartbeat]
    constructor
    · rintro (isSender | already)
      · rwa [isSender]
      · exact already
    · exact Or.inr
  sound := fun sound => sound.noteHeartbeat sender now

/-- The local node is alive in its own entries if it has one. -/
theorem Sound.isAlive_self
    (sound : membership.Sound) :
    membership.isAlive membership.localNodeId = true ↔
      membership.localNodeId ∈ membership.peers := by
  refine ⟨known_of_isAlive, ?_⟩
  intro known
  rw [← AList.lookup_isSome, Option.isSome_iff_exists] at known
  obtain ⟨info, found⟩ := known
  exact isAlive_iff.mpr ⟨info, found, sound.selfAlive found⟩

/-- The reply names the live peers. -/
theorem Sound.mem_peerIds_reply
    (sound : membership.Sound)
    {peerId : NodeId} :
    peerId ∈ membership.reply.peerIds ↔
      membership.isAlive peerId = true := by
  rw [← mem_alive_entries]
  simp only [HeartbeatReply.peerIds, reply, List.map_map, List.mem_map,
    Function.comp_apply]
  constructor
  · rintro ⟨⟨name, info⟩, listed, isName⟩
    have found : membership.peers.lookup name = some info :=
      AList.mem_lookup_iff.mpr (List.mem_of_mem_filter listed)
    rw [sound.named found] at isName
    subst isName
    exact ⟨info, listed⟩
  · rintro ⟨info, listed⟩
    have found : membership.peers.lookup peerId = some info :=
      AList.mem_lookup_iff.mpr (List.mem_of_mem_filter listed)
    exact ⟨⟨peerId, info⟩, listed, sound.named found⟩

end Membership

/-- A cache server with its membership component. -/
structure Server where
  node : CacheNode
  membership : Membership

/-- A membership call, run to completion. -/
inductive MembershipEvent where
  | heartbeat (peerId : NodeId) (now : Int)
  | replies (answered : List NodeId) (now : Int)
  | tick (now : Int) (listing : Tier → List BlockMeta)

/-- The event is no heartbeat, or its sender has the property. -/
def MembershipEvent.SentBy
    (sends : NodeId → Prop) :
    MembershipEvent → Prop
  | .heartbeat sender _ => sends sender
  | .replies _ _ => True
  | .tick _ _ => True

namespace Server

variable (blake3 : List UInt8 → Hash256)

/-- A server as constructed, on a ring of itself and the configured peers. -/
def create
    (config : MembershipConfig)
    (node : CacheNode)
    (seedPeers : List StaticPeer)
    (now : Int) :
    Server where
  node :=
    { node with
      router :=
        node.router.setPeers blake3
          (node.nodeId ::
            (seedPeers.map StaticPeer.nodeId).filter fun peerId =>
              peerId ≠ node.nodeId) }
  membership := Membership.create config node.nodeId seedPeers now

/-- Raise the epoch, rebuild the ring and start a round for lost peers. -/
def onMembershipChange
    (server : Server)
    (lostPeers : List NodeId)
    (listing : Tier → List BlockMeta) :
    Server :=
  let membership := server.membership.bumpEpoch
  let node :=
    { server.node with
      router := server.node.router.setPeers blake3 membership.aliveIds }
  { node := node.triggerReReplication lostPeers listing
    membership := membership }

/--
Handle a heartbeat.  The reply is made before the change of membership that a
dead sender causes.
-/
def onHeartbeat
    (server : Server)
    (peerId : NodeId)
    (now : Int) :
    HeartbeatReply × Server :=
  let noted := server.membership.noteHeartbeat peerId now
  let after := { server with membership := noted.2 }
  (noted.2.reply,
    if noted.1 then
      after.onMembershipChange blake3 [] fun _ => []
    else
      after)

/-- Send heartbeats to all peers and handle the answers that came in time. -/
def sendHeartbeatsToAllPeers
    (server : Server)
    (answered : List NodeId)
    (now : Int) :
    Server :=
  let succeeded :=
    server.membership.targets.filter fun peerId => peerId ∈ answered
  let noted := server.membership.noteReplies succeeded now
  let after := { server with membership := noted.2 }
  if noted.1 = [] then
    after
  else
    after.onMembershipChange blake3 [] fun _ => []

/-- Run the detector and handle the deaths it finds. -/
def detect
    (server : Server)
    (now : Int)
    (listing : Tier → List BlockMeta) :
    Server :=
  let judged := server.membership.evaluateSuspicions now
  let after := { server with membership := judged.2 }
  if judged.1 = [] then
    after
  else
    after.onMembershipChange blake3 judged.1 listing

/-- The server after one membership call. -/
def next
    (server : Server) :
    MembershipEvent → Server
  | .heartbeat peerId now => (server.onHeartbeat blake3 peerId now).2
  | .replies answered now =>
      server.sendHeartbeatsToAllPeers blake3 answered now
  | .tick now listing => server.detect blake3 now listing

/-- A sender without an entry counts as alive before its first heartbeat. -/
theorem next_unknown
    {server : Server}
    {sender : NodeId}
    (unknown : sender ∉ server.membership.peers)
    (now : Int) :
    server.next blake3 (.heartbeat sender now) =
      { server with
        membership := (server.membership.noteHeartbeat sender now).2 } := by
  have noRejoin :
      ¬ (server.membership.noteHeartbeat sender now).1 = true := by
    simp [Membership.noteHeartbeat_rejoins, unknown]
  simp [next, onHeartbeat, noRejoin]

/-- What a membership call can do. -/
inductive Effect
    (before : Server) :
    MembershipEvent → Server → Prop where
  | quiet
      (event : MembershipEvent)
      (membership : Membership)
      (refreshes : before.membership.Refreshes membership)
      (sameAlive :
        ∀ peerId,
          membership.isAlive peerId = before.membership.isAlive peerId) :
      Effect before event { before with membership := membership }
  | joined
      (peerId : NodeId)
      (now : Int)
      (unknown : peerId ∉ before.membership.peers) :
      Effect before (.heartbeat peerId now)
        { before with
          membership := (before.membership.noteHeartbeat peerId now).2 }
  | changed
      (event : MembershipEvent)
      (membership : Membership)
      (refreshes : before.membership.Refreshes membership)
      (lostPeers : List NodeId)
      (listing : Tier → List BlockMeta) :
      Effect before event
        (({ before with membership := membership } :
          Server).onMembershipChange blake3 lostPeers listing)

/-- Every membership call has one of the listed effects. -/
theorem next_effect
    (server : Server)
    (event : MembershipEvent) :
    server.Effect blake3 event (server.next blake3 event) := by
  cases event with
  | heartbeat sender now =>
      by_cases known : sender ∈ server.membership.peers
      · have refreshes := Membership.noteHeartbeat_refreshes known now
        simp only [next, onHeartbeat]
        split
        · exact .changed _ _ refreshes _ _
        · next stays =>
            exact
              .quiet _ _ refreshes
                (Membership.isAlive_noteHeartbeat_of_stays known stays)
      · rw [next_unknown blake3 known now]
        exact .joined sender now known
  | replies answered now =>
      simp only [next, sendHeartbeatsToAllPeers]
      split
      · next nobody =>
          exact
            .quiet _ _ (Membership.noteReplies_refreshes _ _ _)
              (Membership.isAlive_noteReplies nobody)
      · exact
          .changed _ _ (Membership.noteReplies_refreshes _ _ _) _ _
  | tick now listing =>
      simp only [next, detect]
      split
      · next nobody =>
          exact
            .quiet _ _ (Membership.evaluateSuspicions_refreshes _ _)
              (Membership.isAlive_evaluateSuspicions nobody)
      · exact
          .changed _ _ (Membership.evaluateSuspicions_refreshes _ _) _ _

/-- The server after a sequence of membership calls. -/
def run
    (server : Server)
    (events : List MembershipEvent) :
    Server :=
  events.foldl (next blake3) server

end Server

end Lethe
