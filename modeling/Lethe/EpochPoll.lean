import Lethe.EpochWatcher

namespace Lethe

/-!
# The fall-back of the epoch poll

A poll asks its candidates one after another until one gives a snapshot.  The
list of candidates is chosen before the first probe, from the flags of the
known peers alone, so a peer outside it is not asked however many of the
candidates fail.  While they fail, the watcher keeps its list of peers, and
with it the candidates of the next poll.
-/

/-- A probe of a peer returns a snapshot or none, or raises. -/
abbrev HeartbeatProbe :=
  NodeId → Except String (Option EpochSnapshot)

namespace HeartbeatProbe

/-- What a poll keeps of a probe; an exception is logged and dropped. -/
def snapshot?
    (probe : HeartbeatProbe)
    (peerId : NodeId) :
    Option EpochSnapshot :=
  match probe peerId with
  | .error _ =>
      none
  | .ok snap =>
      snap

/-- The peer answers the probe. -/
def answers
    (probe : HeartbeatProbe)
    (peerId : NodeId) :
    Bool :=
  (probe.snapshot? peerId).isSome

/-- Probe the candidates in turn until one returns a snapshot. -/
def firstSnapshot
    (probe : HeartbeatProbe) :
    List NodeId → Option EpochSnapshot
  | [] =>
      none
  | peerId :: rest =>
      match probe peerId with
      | .error _ =>
          firstSnapshot probe rest
      | .ok none =>
          firstSnapshot probe rest
      | .ok (some snap) =>
          some snap

/-- One poll: a snapshot of the first candidate that answers. -/
def probeAnyPeer
    (probe : HeartbeatProbe)
    (watcher : EpochWatcher) :
    Option EpochSnapshot :=
  probe.firstSnapshot watcher.candidateIds

theorem snapshot?_eq_some_iff
    {probe : HeartbeatProbe}
    {peerId : NodeId}
    {snap : EpochSnapshot} :
    probe.snapshot? peerId = some snap ↔
      probe peerId = .ok (some snap) := by
  rw [snapshot?]
  cases probe peerId with
  | error raised =>
      simp
  | ok returned =>
      simp

theorem answers_iff
    {probe : HeartbeatProbe}
    {peerId : NodeId} :
    probe.answers peerId = true ↔
      ∃ snap, probe peerId = .ok (some snap) := by
  simp only [answers, Option.isSome_iff_exists, snapshot?_eq_some_iff]

theorem firstSnapshot_eq_findSome
    (probe : HeartbeatProbe)
    (candidates : List NodeId) :
    probe.firstSnapshot candidates =
      candidates.findSome? probe.snapshot? := by
  induction candidates with
  | nil =>
      rfl
  | cons peerId rest inductionHypothesis =>
      rw [firstSnapshot, List.findSome?_cons, snapshot?,
        ← inductionHypothesis]
      rcases probe peerId with raised | (_ | snap) <;> rfl

/-- The snapshot of a poll was returned by a candidate. -/
theorem exists_candidate_of_probeAnyPeer
    {probe : HeartbeatProbe}
    {watcher : EpochWatcher}
    {snap : EpochSnapshot}
    (polled : probe.probeAnyPeer watcher = some snap) :
    ∃ peerId ∈ watcher.candidateIds,
      probe peerId = .ok (some snap) := by
  rw [probeAnyPeer, firstSnapshot_eq_findSome] at polled
  obtain ⟨peerId, isCandidate, returned⟩ :=
    List.exists_of_findSome?_eq_some polled
  exact ⟨peerId, isCandidate, snapshot?_eq_some_iff.mp returned⟩

/-- A poll fails exactly if no candidate answers. -/
theorem probeAnyPeer_eq_none_iff
    {probe : HeartbeatProbe}
    {watcher : EpochWatcher} :
    probe.probeAnyPeer watcher = none ↔
      ∀ peerId ∈ watcher.candidateIds,
        probe.answers peerId = false := by
  simp [probeAnyPeer, firstSnapshot_eq_findSome, answers]

/-- A poll returns what the first candidate that answers gives. -/
theorem probeAnyPeer_eq_bind
    (probe : HeartbeatProbe)
    (watcher : EpochWatcher) :
    probe.probeAnyPeer watcher =
      (watcher.probeAnyPeer probe.answers).bind probe.snapshot? := by
  rw [probeAnyPeer, firstSnapshot_eq_findSome, EpochWatcher.probeAnyPeer]
  induction watcher.candidateIds with
  | nil =>
      rfl
  | cons peerId rest inductionHypothesis =>
      rw [List.findSome?_cons, List.find?_cons, answers]
      cases given : probe.snapshot? peerId with
      | none =>
          exact inductionHypothesis
      | some snap =>
          exact given.symm

end HeartbeatProbe

namespace EpochWatcher

/-- The names a watcher has: its known peers and its seeds. -/
def knownOrSeeds
    (watcher : EpochWatcher) :
    List NodeId :=
  watcher.alivePeers.map PeerStatus.nodeId ++ watcher.seedPeers

/--
Some known peer that is not suspected answers, if there is such a peer, and
some known peer answers, if there is one.
-/
def PreferredAnswer
    (watcher : EpochWatcher)
    (probe : HeartbeatProbe) : Prop :=
  ((∃ peer ∈ watcher.alivePeers, peer.suspected = false) →
    ∃ peer ∈ watcher.alivePeers,
      peer.suspected = false ∧ probe.answers peer.nodeId = true) ∧
  (watcher.alivePeers ≠ [] →
    ∃ peer ∈ watcher.alivePeers, probe.answers peer.nodeId = true)

/-- With a peer that is not suspected, only such peers are candidates. -/
theorem mem_candidateIds_of_unsuspected
    {watcher : EpochWatcher}
    (someUnsuspected :
      ∃ peer ∈ watcher.alivePeers, peer.suspected = false)
    {peerId : NodeId} :
    peerId ∈ watcher.candidateIds ↔
      ∃ peer ∈ watcher.alivePeers,
        peer.suspected = false ∧ peer.nodeId = peerId := by
  have someListed :
      (watcher.alivePeers.filter fun peer => !peer.suspected).map
        PeerStatus.nodeId ≠ [] := by
    simpa [List.filter_eq_nil_iff] using someUnsuspected
  have listed :
      watcher.candidateIds =
        (watcher.alivePeers.filter fun peer => !peer.suspected).map
          PeerStatus.nodeId :=
    if_pos someListed
  simp [listed, and_assoc]

/-- With suspected peers only, all known peers are candidates. -/
theorem candidateIds_of_suspected
    {watcher : EpochWatcher}
    (noneUnsuspected :
      ¬ ∃ peer ∈ watcher.alivePeers, peer.suspected = false) :
    watcher.candidateIds =
      if watcher.alivePeers ≠ [] then
        watcher.alivePeers.map PeerStatus.nodeId
      else
        watcher.seedPeers := by
  have noneListed :
      (watcher.alivePeers.filter fun peer => !peer.suspected).map
        PeerStatus.nodeId = [] := by
    simpa [List.filter_eq_nil_iff] using noneUnsuspected
  simp only [candidateIds, noneListed, ne_eq, not_true_eq_false,
    if_false]

/-- The candidates are known peers or seeds. -/
theorem candidateIds_subset
    (watcher : EpochWatcher) :
    watcher.candidateIds ⊆ watcher.knownOrSeeds := by
  intro peerId isCandidate
  rw [knownOrSeeds, List.mem_append]
  by_cases someUnsuspected :
      ∃ peer ∈ watcher.alivePeers, peer.suspected = false
  · obtain ⟨peer, isKnown, _, isName⟩ :=
      (mem_candidateIds_of_unsuspected someUnsuspected).mp isCandidate
    exact Or.inl (List.mem_map.mpr ⟨peer, isKnown, isName⟩)
  · rw [candidateIds_of_suspected someUnsuspected] at isCandidate
    split at isCandidate
    · exact Or.inl isCandidate
    · exact Or.inr isCandidate

/-- If some peer answers, a candidate does exactly if a preferred one does. -/
theorem candidate_answers_iff
    {watcher : EpochWatcher}
    {probe : HeartbeatProbe}
    (someAnswer :
      ∃ peerId ∈ watcher.knownOrSeeds, probe.answers peerId = true) :
    (∃ peerId ∈ watcher.candidateIds, probe.answers peerId = true) ↔
      watcher.PreferredAnswer probe := by
  by_cases someUnsuspected :
      ∃ peer ∈ watcher.alivePeers, peer.suspected = false
  · simp only [mem_candidateIds_of_unsuspected someUnsuspected]
    constructor
    · rintro ⟨peerId, ⟨peer, isKnown, unsuspected, isName⟩, answered⟩
      subst isName
      exact
        ⟨fun _ => ⟨peer, isKnown, unsuspected, answered⟩,
          fun _ => ⟨peer, isKnown, answered⟩⟩
    · rintro ⟨preferred, _⟩
      obtain ⟨peer, isKnown, unsuspected, answered⟩ :=
        preferred someUnsuspected
      exact
        ⟨peer.nodeId, ⟨peer, isKnown, unsuspected, rfl⟩, answered⟩
  · rw [candidateIds_of_suspected someUnsuspected]
    by_cases someKnown : watcher.alivePeers ≠ []
    · simp only [if_pos someKnown, List.mem_map,
        exists_exists_and_eq_and]
      constructor
      · intro answered
        exact
          ⟨fun unsuspected => absurd unsuspected someUnsuspected,
            fun _ => answered⟩
      · rintro ⟨_, known⟩
        exact known someKnown
    · rw [if_neg someKnown]
      constructor
      · intro _
        exact
          ⟨fun unsuspected => absurd unsuspected someUnsuspected,
            fun known => absurd known someKnown⟩
      · intro _
        simpa [knownOrSeeds, not_not.mp someKnown] using someAnswer

/--
Let some known peer or seed answer.  A poll returns a snapshot from a peer that
answers exactly if the answer comes from a preferred peer: one that is not
suspected, if the watcher knows any, and one that it knows, if it knows any.
-/
theorem poll_falls_back_iff
    (watcher : EpochWatcher)
    (probe : HeartbeatProbe) :
    ((∃ peerId ∈ watcher.knownOrSeeds, probe.answers peerId = true) →
        ∃ snap,
          probe.probeAnyPeer watcher = some snap ∧
            ∃ peerId ∈ watcher.knownOrSeeds,
              probe peerId = .ok (some snap)) ↔
      ((∃ peerId ∈ watcher.knownOrSeeds, probe.answers peerId = true) →
        watcher.PreferredAnswer probe) := by
  refine forall_congr' fun someAnswer => ?_
  rw [← candidate_answers_iff someAnswer]
  constructor
  · rintro ⟨snap, polled, _⟩
    obtain ⟨peerId, isCandidate, returned⟩ :=
      HeartbeatProbe.exists_candidate_of_probeAnyPeer polled
    exact
      ⟨peerId, isCandidate, HeartbeatProbe.answers_iff.mpr ⟨snap, returned⟩⟩
  · rintro ⟨peerId, isCandidate, answered⟩
    cases polled : probe.probeAnyPeer watcher with
    | none =>
        have silent :=
          HeartbeatProbe.probeAnyPeer_eq_none_iff.mp polled peerId
            isCandidate
        simp [silent] at answered
    | some snap =>
        obtain ⟨source, isSource, returned⟩ :=
          HeartbeatProbe.exists_candidate_of_probeAnyPeer polled
        exact
          ⟨snap, rfl, source, watcher.candidateIds_subset isSource,
            returned⟩

/-- A snapshot that lists two peers, with the given flags. -/
def sampleSnapshot
    (firstSuspected secondSuspected : Bool) :
    EpochSnapshot where
  sourcePeer := nodeC
  epoch := 1
  alivePeers := [⟨nodeA, 1, firstSuspected⟩, ⟨nodeB, 1, secondSuspected⟩]

/-- The first peer is down, the second answers. -/
def secondAnswers : HeartbeatProbe :=
  fun peerId =>
    if peerId = nodeB then
      .ok (some (sampleSnapshot false false))
    else
      .error "unavailable"

/-- A watcher that has taken over the sample snapshot. -/
def sampleInformed
    (firstSuspected secondSuspected : Bool) :
    EpochWatcher :=
  sampleWatcher.applyIfNewer sampleBlake3
    (sampleSnapshot firstSuspected secondSuspected)

theorem poll_falls_back_iff_suspected :
    ∃ snap,
      secondAnswers.probeAnyPeer (sampleInformed true true) = some snap ∧
        ∃ peerId ∈ (sampleInformed true true).knownOrSeeds,
          secondAnswers peerId = .ok (some snap) :=
  (poll_falls_back_iff (sampleInformed true true) secondAnswers).mpr
    (fun _ =>
      ⟨fun unsuspected => absurd unsuspected (by decide +kernel),
        fun _ => by decide +kernel⟩)
    (by decide +kernel)

/--
The only peer that is not suspected is down.  The other one is known, is a seed
and answers, but the poll does not ask it.
-/
theorem poll_skips_answering_peer :
    nodeB ∈ (sampleInformed false true).seedPeers ∧
      nodeB ∈ (sampleInformed false true).knownOrSeeds ∧
      secondAnswers.answers nodeB = true ∧
      secondAnswers.probeAnyPeer (sampleInformed false true) = none := by
  decide +kernel

/-- One turn of the polling loop: poll and take over a newer snapshot. -/
def loopTurn
    (blake3 : List UInt8 → Hash256)
    (watcher : EpochWatcher)
    (probe : HeartbeatProbe) :
    EpochWatcher :=
  match probe.probeAnyPeer watcher with
  | none =>
      watcher
  | some snap =>
      watcher.applyIfNewer blake3 snap

/-- Turns of the polling loop; the peers answer differently in each. -/
def loop
    (blake3 : List UInt8 → Hash256)
    (watcher : EpochWatcher)
    (probes : List HeartbeatProbe) :
    EpochWatcher :=
  probes.foldl (loopTurn blake3) watcher

/--
While its candidates are silent a watcher does not change, whatever the other
known peers and the seeds would answer.
-/
theorem loop_of_silent_candidates
    (blake3 : List UInt8 → Hash256)
    {watcher : EpochWatcher}
    {probes : List HeartbeatProbe}
    (silent :
      ∀ probe ∈ probes,
        ∀ peerId ∈ watcher.candidateIds,
          probe.answers peerId = false) :
    watcher.loop blake3 probes = watcher := by
  induction probes with
  | nil =>
      rfl
  | cons probe rest inductionHypothesis =>
      have unchanged : watcher.loopTurn blake3 probe = watcher := by
        rw [loopTurn,
          HeartbeatProbe.probeAnyPeer_eq_none_iff.mpr
            (silent probe List.mem_cons_self)]
      rw [loop, List.foldl_cons, unchanged]
      exact
        inductionHypothesis fun other isOther =>
          silent other (List.mem_cons_of_mem probe isOther)

end EpochWatcher

namespace WatchedCluster

/-- The probe of a poll: a heartbeat to the servers that answer. -/
def heartbeatProbe
    (blake3 : List UInt8 → Hash256)
    (state : WatchedCluster)
    (answers : NodeId → Bool)
    (sender : NodeId)
    (now : Int) :
    HeartbeatProbe :=
  fun peerId =>
    if answers peerId then
      .ok (some (.ofReply peerId
        ((state.servers peerId).onHeartbeat blake3 sender now).1))
    else
      .ok none

/-- A poll event is a turn of the loop whose probe asks the servers. -/
theorem next_poll_watcher
    (blake3 : List UInt8 → Hash256)
    (state : WatchedCluster)
    (answers : NodeId → Bool)
    (sender : NodeId)
    (now : Int) :
    (state.next blake3 (.poll answers sender now)).watcher =
      state.watcher.loopTurn blake3
        (state.heartbeatProbe blake3 answers sender now) := by
  have sameAnswers :
      (state.heartbeatProbe blake3 answers sender now).answers =
        answers := by
    funext peerId
    simp only [HeartbeatProbe.answers, HeartbeatProbe.snapshot?,
      heartbeatProbe]
    cases answers peerId <;> rfl
  rw [EpochWatcher.loopTurn, HeartbeatProbe.probeAnyPeer_eq_bind,
    sameAnswers, next]
  cases probed : state.watcher.probeAnyPeer answers with
  | none =>
      rfl
  | some peerId =>
      have answered : answers peerId = true :=
        List.find?_some probed
      simp [HeartbeatProbe.snapshot?, heartbeatProbe, answered]

end WatchedCluster

end Lethe
