import Lethe.MembershipRuns

namespace Lethe

/-!
# The detector follows the silence rule

The detector keeps four fields per peer and skips peers that are dead or were
never heard from.  With a clock that does not go back, its marks are those of
a rule over the whole history: a peer is dead if its last contact is too long
ago, and suspected if it is somewhat long ago.
-/

/-- The clock reading of a membership call. -/
def MembershipEvent.time :
    MembershipEvent → Int
  | .heartbeat _ now => now
  | .replies _ now => now
  | .tick now _ => now

/-! ## One entry -/

/--
The entry tells when the peer was last heard from; it is only marked dead if
that was too long ago at a time that has passed.
-/
def PeerInfo.Tracks
    (info : PeerInfo)
    (deadAfter clock : Int) :
    Option Int → Prop
  | none =>
      info.everSeen = false ∧ info.alive = true ∧ info.suspected = false
  | some contact =>
      info.everSeen = true ∧
        info.lastSeen = contact ∧
        (info.alive = false →
          info.suspected = true ∧ deadAfter < clock - contact)

namespace PeerInfo.Tracks

variable
  {info : PeerInfo}
  {deadAfter clock now : Int}
  {last : Option Int}

/-- The mark of a dead peer stays right as time passes. -/
theorem later
    (tracks : info.Tracks deadAfter clock last)
    (passes : clock ≤ now) :
    info.Tracks deadAfter now last := by
  cases last with
  | none =>
      exact tracks
  | some contact =>
      obtain ⟨seen, isLast, dead⟩ := tracks
      refine ⟨seen, isLast, fun isDead => ?_⟩
      obtain ⟨suspected, silent⟩ := dead isDead
      exact ⟨suspected, by omega⟩

/-- A contact is noted. -/
theorem contacted
    (info : PeerInfo)
    (deadAfter now : Int)
    (epoch : Nat) :
    (info.contacted now epoch).Tracks deadAfter now (some now) :=
  ⟨rfl, rfl, fun dead => by simp [PeerInfo.contacted] at dead⟩

end PeerInfo.Tracks

namespace Membership

variable
  {membership : Membership}
  {clock now : Int}
  {peerId : NodeId}
  {info : PeerInfo}
  {last : Option Int}

/-- The entry of another node says what the silence rule says. -/
def SilenceRule
    (config : MembershipConfig)
    (now : Int)
    (last : Option Int)
    (info : PeerInfo) : Prop :=
  (info.alive = true ↔
      last = none ∨
        ∃ contact, last = some contact ∧ now - contact ≤ config.deadAfter) ∧
    (info.suspected = true ↔
      ∃ contact, last = some contact ∧ now - contact > config.suspectAfter)

/-- The detector keeps track of the last contact. -/
theorem tracks_judge
    (remote : peerId ≠ membership.localNodeId)
    (tracks : info.Tracks membership.config.deadAfter clock last)
    (passes : clock ≤ now) :
    (membership.judge now peerId info).2.Tracks
      membership.config.deadAfter now last := by
  have later := tracks.later passes
  cases last with
  | none =>
      obtain ⟨unseen, alive, trusted⟩ := later
      simpa [judge, remote, alive, unseen] using
        (show info.Tracks membership.config.deadAfter now none from
          ⟨unseen, alive, trusted⟩)
  | some contact =>
      obtain ⟨seen, rfl, dead⟩ := later
      unfold judge
      rw [if_neg remote]
      split
      · exact ⟨seen, rfl, dead⟩
      · rw [if_neg (by simp [seen])]
        split
        · next silent =>
            exact ⟨seen, rfl, fun _ => ⟨rfl, silent⟩⟩
        · next alive _ =>
            split
            · exact ⟨seen, rfl, fun isDead => (alive isDead).elim⟩
            · exact ⟨seen, rfl, fun isDead => (alive isDead).elim⟩

/-- The detector's marks follow the silence rule. -/
theorem silenceRule_judge
    (thresholds :
      membership.config.suspectAfter ≤ membership.config.deadAfter)
    (remote : peerId ≠ membership.localNodeId)
    (tracks : info.Tracks membership.config.deadAfter clock last)
    (passes : clock ≤ now) :
    SilenceRule membership.config now last
      (membership.judge now peerId info).2 := by
  have later := tracks.later passes
  cases last with
  | none =>
      obtain ⟨unseen, alive, trusted⟩ := later
      simp [SilenceRule, judge, remote, alive, unseen, trusted]
  | some contact =>
      obtain ⟨seen, rfl, dead⟩ := later
      unfold judge
      rw [if_neg remote]
      split
      · next isDead =>
          obtain ⟨suspected, silent⟩ := dead isDead
          simp only [SilenceRule, isDead, suspected, Bool.false_eq_true,
            reduceCtorEq, Option.some.injEq, exists_eq_left', false_or,
            false_iff, true_iff]
          omega
      · next isAlive =>
          rw [if_neg (by simp [seen])]
          split
          · next silent =>
              simp only [SilenceRule, Bool.false_eq_true, reduceCtorEq,
                Option.some.injEq, exists_eq_left', false_or, false_iff,
                true_iff]
              omega
          · next heard =>
              have alive : info.alive = true := by
                simpa using isAlive
              split
              · next quiet =>
                  simp only [SilenceRule, alive, reduceCtorEq,
                    Option.some.injEq, exists_eq_left', false_or, true_iff]
                  omega
              · next recent =>
                  simp only [SilenceRule, alive, Bool.false_eq_true,
                    reduceCtorEq, Option.some.injEq, exists_eq_left',
                    false_or, true_iff, false_iff]
                  omega

/-- The detector reports a peer exactly if it marks it dead. -/
theorem mem_evaluateSuspicions_report
    (now : Int)
    (found : membership.peers.lookup peerId = some info) :
    peerId ∈ (membership.evaluateSuspicions now).1 ↔
      info.alive = true ∧
        (membership.judge now peerId info).2.alive = false := by
  have reported :
      peerId ∈ (membership.evaluateSuspicions now).1 ↔
        (membership.judge now peerId info).1 = true := by
    simp only [evaluateSuspicions, List.mem_map, List.mem_filter]
    constructor
    · rintro ⟨⟨name, other⟩, ⟨listed, dies⟩, rfl⟩
      have sameInfo := AList.mem_lookup_iff.mpr listed
      rw [Option.mem_def, found, Option.some.injEq] at sameInfo
      rw [sameInfo]
      exact dies
    · intro dies
      exact
        ⟨⟨peerId, info⟩,
          ⟨AList.mem_lookup_iff.mp (Option.mem_def.mpr found), dies⟩, rfl⟩
  rw [reported]
  have verdict := membership.judge_verdict now peerId info
  generalize membership.judge now peerId info = judged at verdict
  cases verdict with
  | survives suspected =>
      simp
  | dies remote alive seen silent =>
      simp [alive]

/-- Heartbeats are sent to known peers. -/
theorem mem_peers_of_mem_targets
    (isTarget : peerId ∈ membership.targets) :
    peerId ∈ membership.peers := by
  obtain ⟨⟨name, info⟩, listed, rfl⟩ := List.mem_map.mp isTarget
  have found :=
    AList.mem_lookup_iff.mpr (List.mem_of_mem_filter listed)
  rw [← AList.lookup_isSome, Option.mem_def.mp found]
  rfl

end Membership

/-! ## Runs -/

namespace Server

section Calls

variable (blake3 : List UInt8 → Hash256)

/-- The time of the contact with a peer that a call makes, if any. -/
def contactAt
    (server : Server)
    (peerId : NodeId) :
    MembershipEvent → Option Int
  | .heartbeat sender now =>
      if sender = peerId then some now else none
  | .replies answered now =>
      if peerId ∈ server.membership.targets ∧ peerId ∈ answered then
        some now
      else
        none
  | .tick _ _ => none

/-- The time of the last contact with a peer in a run, if any. -/
def lastContact
    (server : Server)
    (peerId : NodeId) :
    List MembershipEvent → Option Int
  | [] => none
  | event :: rest =>
      ((server.next blake3 event).lastContact peerId rest).or
        (server.contactAt peerId event)

/-- A call changes the entries as its locked part does. -/
theorem next_peers
    (server : Server)
    (event : MembershipEvent) :
    (server.next blake3 event).membership.peers =
      match event with
      | .heartbeat sender now =>
          (server.membership.noteHeartbeat sender now).2.peers
      | .replies answered now =>
          (server.membership.noteReplies
            (server.membership.targets.filter fun peerId =>
              peerId ∈ answered) now).2.peers
      | .tick now _ =>
          (server.membership.evaluateSuspicions now).2.peers := by
  cases event with
  | heartbeat sender now =>
      simp only [next, onHeartbeat]
      split <;> rfl
  | replies answered now =>
      simp only [next, sendHeartbeatsToAllPeers]
      split <;> rfl
  | tick now listing =>
      simp only [next, detect]
      split <;> rfl

/-- A call changes neither the thresholds nor the server's own name. -/
theorem next_config
    (server : Server)
    (event : MembershipEvent) :
    (server.next blake3 event).membership.config =
        server.membership.config ∧
      (server.next blake3 event).membership.localNodeId =
        server.membership.localNodeId := by
  cases event with
  | heartbeat sender now =>
      simp only [next, onHeartbeat]
      split <;> exact ⟨rfl, rfl⟩
  | replies answered now =>
      simp only [next, sendHeartbeatsToAllPeers]
      split <;> exact ⟨rfl, rfl⟩
  | tick now listing =>
      simp only [next, detect]
      split <;> exact ⟨rfl, rfl⟩

end Calls

/-- The entry of a peer tells its last contact; without one there was none. -/
def Tracked
    (server : Server)
    (peerId : NodeId)
    (clock : Int)
    (last : Option Int) : Prop :=
  match server.membership.peers.lookup peerId with
  | none => last = none
  | some info => info.Tracks server.membership.config.deadAfter clock last

variable
  {server : Server}
  {peerId : NodeId}
  {clock : Int}
  {last : Option Int}

/-- The record stays right as time passes. -/
theorem Tracked.later
    (tracked : server.Tracked peerId clock last)
    {now : Int}
    (passes : clock ≤ now) :
    server.Tracked peerId now last := by
  unfold Tracked at tracked ⊢
  split
  · next unknown =>
      simpa only [unknown] using tracked
  · next info found =>
      simp only [found] at tracked
      exact tracked.later passes

/-- Every call keeps track of the last contact. -/
theorem Tracked.next
    (blake3 : List UInt8 → Hash256)
    (remote : peerId ≠ server.membership.localNodeId)
    (tracked : server.Tracked peerId clock last)
    {event : MembershipEvent}
    (passes : clock ≤ event.time) :
    (server.next blake3 event).Tracked peerId event.time
      ((server.contactAt peerId event).or last) := by
  have kept := tracked.later passes
  unfold Tracked at kept ⊢
  rw [next_peers, (next_config blake3 server event).1]
  cases event with
  | heartbeat sender now =>
      simp only [Membership.lookup_noteHeartbeat, contactAt]
      by_cases isSender : peerId = sender
      · simp only [isSender, ↓reduceIte, Option.some_or]
        exact .contacted _ _ _ _
      · rw [if_neg isSender, if_neg fun same => isSender same.symm,
          Option.none_or]
        exact kept
  | replies answered now =>
      simp only [Membership.lookup_noteReplies, contactAt, List.mem_filter,
        decide_eq_true_eq]
      by_cases heard :
          peerId ∈ server.membership.targets ∧ peerId ∈ answered
      · have known := Membership.mem_peers_of_mem_targets heard.1
        rw [← AList.lookup_isSome, Option.isSome_iff_exists] at known
        obtain ⟨info, found⟩ := known
        simp only [heard, and_self, ↓reduceIte, found, Option.map_some,
          Option.some_or]
        exact .contacted _ _ _ _
      · rw [if_neg heard, if_neg heard, Option.none_or]
        exact kept
  | tick now listing =>
      simp only [Membership.lookup_evaluateSuspicions, contactAt,
        Option.none_or]
      unfold Tracked at tracked
      cases found : server.membership.peers.lookup peerId with
      | none =>
          simp only [found] at tracked
          exact tracked
      | some info =>
          simp only [found] at tracked
          exact Membership.tracks_judge remote tracked passes

/-- A run with a clock that does not go back keeps track of contacts. -/
theorem Tracked.run
    (blake3 : List UInt8 → Hash256)
    (remote : peerId ≠ server.membership.localNodeId)
    (tracked : server.Tracked peerId clock last)
    {events : List MembershipEvent}
    {now : Int}
    (ordered :
      (clock :: events.map MembershipEvent.time ++ [now]).Pairwise
        (· ≤ ·)) :
    (server.run blake3 events).Tracked peerId now
      ((server.lastContact blake3 peerId events).or last) := by
  induction events generalizing server clock last with
  | nil =>
      have passes : clock ≤ now := by
        simpa using ordered
      exact tracked.later passes
  | cons event rest inductionHypothesis =>
      have first : clock ≤ event.time := by
        simp only [List.map_cons, List.cons_append,
          List.pairwise_cons] at ordered
        exact ordered.1 _ List.mem_cons_self
      have afterFirst := tracked.next blake3 remote first
      rw [← (next_config blake3 server event).2] at remote
      have result :=
        inductionHypothesis remote afterFirst ordered.tail
      rw [lastContact, Option.or_assoc]
      exact result

/-- Configured peers have not been heard from. -/
theorem tracked_create
    (blake3 : List UInt8 → Hash256)
    (config : MembershipConfig)
    (node : CacheNode)
    (seedPeers : List StaticPeer)
    (start clock : Int)
    (peerId : NodeId) :
    (create blake3 config node seedPeers start).Tracked peerId clock
      none := by
  unfold Tracked
  split
  · rfl
  · next info found =>
      exact
        Membership.forall_foldl_addSeed
          (fun _ info => info.Tracks config.deadAfter clock none)
          (fun _ => ⟨rfl, rfl, rfl⟩) (by simp) found

/-- A run keeps the thresholds and the server's own name. -/
theorem run_config
    (blake3 : List UInt8 → Hash256)
    (server : Server)
    (events : List MembershipEvent) :
    (server.run blake3 events).membership.config =
        server.membership.config ∧
      (server.run blake3 events).membership.localNodeId =
        server.membership.localNodeId := by
  refine
    List.foldlRecOn events (next blake3)
      (motive := fun state =>
        state.membership.config = server.membership.config ∧
          state.membership.localNodeId = server.membership.localNodeId)
      ⟨rfl, rfl⟩ ?_
  intro state held event _
  obtain ⟨sameConfig, sameName⟩ := next_config blake3 state event
  exact ⟨sameConfig.trans held.1, sameName.trans held.2⟩

/--
After the detector has run, the mark of every known peer is that of the silence
rule for its last contact, and a peer is reported exactly if it was alive
before the call and is not afterwards.
-/
theorem detector_follows_silence_rule
    (blake3 : List UInt8 → Hash256)
    {config : MembershipConfig}
    (thresholds : config.suspectAfter ≤ config.deadAfter)
    (node : CacheNode)
    (seedPeers : List StaticPeer)
    (start : Int)
    (events : List MembershipEvent)
    (now : Int)
    (ordered :
      (events.map MembershipEvent.time ++ [now]).Pairwise (· ≤ ·))
    {peerId : NodeId}
    (remote : peerId ≠ node.nodeId)
    {before : PeerInfo}
    (known :
      ((create blake3 config node seedPeers start).run blake3
        events).membership.peers.lookup peerId = some before) :
    ∃ after,
      (((create blake3 config node seedPeers start).run blake3
          events).membership.evaluateSuspicions now).2.peers.lookup peerId =
          some after ∧
        Membership.SilenceRule config now
          ((create blake3 config node seedPeers start).lastContact blake3
            peerId events)
          after ∧
        (peerId ∈
            (((create blake3 config node seedPeers start).run blake3
              events).membership.evaluateSuspicions now).1 ↔
          before.alive = true ∧ after.alive = false) := by
  obtain ⟨clock, first⟩ :
      ∃ clock : Int,
        ∀ time ∈ events.map MembershipEvent.time ++ [now], clock ≤ time := by
    cases times : events.map MembershipEvent.time ++ [now] with
    | nil =>
        simp at times
    | cons time rest =>
        rw [times, List.pairwise_cons] at ordered
        exact ⟨time, by simpa using ordered.1⟩
  have tracked :=
    (tracked_create blake3 config node seedPeers start clock peerId).run
      blake3 remote (List.pairwise_cons.mpr ⟨first, ordered⟩)
  obtain ⟨sameConfig, sameName⟩ :=
    run_config blake3 (create blake3 config node seedPeers start) events
  have isConfig :
      ((create blake3 config node seedPeers start).run blake3
        events).membership.config = config :=
    sameConfig
  rw [Option.or_none, Tracked, known] at tracked
  have rule :=
    Membership.silenceRule_judge (by rw [isConfig]; exact thresholds)
      (fun isSelf => remote (isSelf.trans sameName)) tracked
      (Int.le_refl now)
  rw [isConfig] at rule
  refine
    ⟨_, ?_, rule, Membership.mem_evaluateSuspicions_report now known⟩
  rw [Membership.lookup_evaluateSuspicions, known]
  rfl

/-- The second node is dead 4 seconds after its only heartbeat. -/
theorem detector_follows_silence_rule_sample :
    ∃ after,
      ((sampleServer.run sampleBlake3
          sampleDeath).membership.evaluateSuspicions
            5000).2.peers.lookup nodeB = some after ∧
        Membership.SilenceRule {} 5000 (some 0) after := by
  have isKnown :
      ((sampleServer.run sampleBlake3 sampleDeath).membership.peers.lookup
        nodeB).isSome = true := by
    decide +kernel
  obtain ⟨before, known⟩ := Option.isSome_iff_exists.mp isKnown
  obtain ⟨after, found, rule, _⟩ :=
    detector_follows_silence_rule sampleBlake3 (by decide)
      (sampleNode [] nodeA) sampleSeeds 0 sampleDeath 5000
      (by decide) (by decide) known
  exact ⟨after, found, rule⟩

end Server

end Lethe
