import Lethe.ConnectorLoads

namespace Lethe

/-!
# Soundness of reported prefix hits

A server answers a block that it does not have by naming the block's primary,
without asking it.  The client keeps such an answer as a hit, and the
connector counts it.  So the reported prefix may contain blocks that no server
has; how far it reaches is decided by the first block that the asked server
answers as a miss.
-/

namespace CacheNode

/-- The server answers a block of a batch as a miss wherever it occurs. -/
def AnswersMiss
    (node : CacheNode)
    (ids : List BlockId)
    (id : BlockId) : Prop :=
  ∀ entry ∈ (node.lookup ids).1, entry.id = id → entry.found = .miss

instance
    (node : CacheNode)
    (ids : List BlockId)
    (id : BlockId) :
    Decidable (node.AnswersMiss ids id) :=
  inferInstanceAs (Decidable (∀ entry ∈ (node.lookup ids).1, _))

/-- The server misses the block and its ring names no other primary. -/
def Lacks
    (node : CacheNode)
    (id : BlockId) : Prop :=
  (node.store.get id).1 = none ∧
    ∀ primary,
      (node.router.route id).primary = some primary →
      primary = node.nodeId

/-- A single block is answered as a miss if the server lacks it. -/
theorem lookupOne_miss_iff
    (node : CacheNode)
    (id : BlockId) :
    (node.lookupOne id).1.found = .miss ↔ node.Lacks id := by
  unfold lookupOne Lacks
  dsimp only
  split
  · next got read =>
      simp [read]
  · next missed =>
      split
      · next primary isPrimary =>
          split
          · next isSelf =>
              simp [missed, isPrimary, isSelf]
          · next isOther =>
              simp [missed, isPrimary, isOther]
      · next noPrimary =>
          simp [missed, noPrimary]

/-- Reading one block does not change which other ones a server lacks. -/
theorem lacks_lookupOne
    {node : CacheNode}
    (consistent : node.store.SsdConsistent)
    {read id : BlockId}
    (different : id ≠ read) :
    (node.lookupOne read).2.Lacks id ↔ node.Lacks id := by
  have sameProbe :
      (node.store.get read).2.probe id = node.store.probe id := by
    simp [TieredStore.probe,
      TieredStore.copy_get_of_ne consistent different]
  rw [lookupOne_node, Lacks, Lacks, TieredStore.get_eq_none_iff,
    TieredStore.get_eq_none_iff, sameProbe]

/-- In a batch of distinct blocks, the answered misses are those lacking. -/
theorem lookup_miss_iff
    {node : CacheNode}
    (consistent : node.store.SsdConsistent)
    {ids : List BlockId}
    (distinct : ids.Nodup)
    {entry : LookupEntry}
    (answered : entry ∈ (node.lookup ids).1) :
    entry.found = .miss ↔ node.Lacks entry.id := by
  induction ids generalizing node with
  | nil =>
      simp [lookup] at answered
  | cons id rest inductionHypothesis =>
      obtain ⟨fresh, distinctRest⟩ := List.nodup_cons.mp distinct
      have ids := node.lookup_ids (id :: rest)
      simp only [lookup, List.map_cons, List.cons.injEq] at ids
      simp only [lookup, List.mem_cons] at answered
      rcases answered with isFirst | later
      · rw [isFirst, ids.1]
        exact node.lookupOne_miss_iff id
      · have stillConsistent :
            (node.lookupOne id).2.store.SsdConsistent := by
          rw [lookupOne_node]
          exact TieredStore.ssdConsistent_stable.get consistent id
        rw [inductionHypothesis stillConsistent distinctRest later,
          lacks_lookupOne consistent]
        intro same
        have member : entry.id ∈ rest := by
          rw [← ids.2]
          exact List.mem_map_of_mem later
        exact fresh (by rwa [← same])

/-- A block of a batch of distinct ones is missed if the server lacks it. -/
theorem answersMiss_iff_lacks
    {node : CacheNode}
    (consistent : node.store.SsdConsistent)
    {ids : List BlockId}
    (distinct : ids.Nodup)
    {id : BlockId}
    (asked : id ∈ ids) :
    node.AnswersMiss ids id ↔ node.Lacks id := by
  constructor
  · intro missed
    rw [← node.lookup_ids ids] at asked
    obtain ⟨entry, answered, isBlock⟩ := List.mem_map.mp asked
    rw [← isBlock, ← lookup_miss_iff consistent distinct answered]
    exact missed entry answered isBlock
  · intro lacks entry answered isBlock
    rw [lookup_miss_iff consistent distinct answered, isBlock]
    exact lacks

/-- The handler reports a block as a hit unless it is answered as a miss. -/
theorem mem_serveLookup_hits
    {node : CacheNode}
    {ids : List BlockId}
    {id : BlockId} :
    (∃ hit ∈ (node.serveLookup ids).1.hits, hit.blockId = id) ↔
      ¬ node.AnswersMiss ids id := by
  have reported (entry : LookupEntry) :
      (∃ hit, entry.hit? node.nodeId = some hit ∧ hit.blockId = id) ↔
        entry.id = id ∧ entry.found ≠ .miss := by
    unfold LookupEntry.hit?
    split
    · next found =>
        simp [found]
    · next found =>
        simp [found]
    · next found =>
        simp [found]
  unfold AnswersMiss
  push Not
  simp only [serveLookup, List.mem_filterMap]
  constructor
  · rintro ⟨hit, ⟨entry, member, isHit⟩, isBlock⟩
    obtain ⟨sameId, notMiss⟩ := (reported entry).mp ⟨hit, isHit, isBlock⟩
    exact ⟨entry, member, sameId, notMiss⟩
  · rintro ⟨entry, member, sameId, notMiss⟩
    obtain ⟨hit, isHit, isBlock⟩ := (reported entry).mpr ⟨sameId, notMiss⟩
    exact ⟨hit, ⟨entry, member, isHit⟩, isBlock⟩

end CacheNode

namespace ServedCluster

/-- The state of a server when an attempt of a lookup is answered, if ever. -/
def answering
    (server : NodeId)
    (ids : List BlockId) :
    Nat → ServedCluster → Option CacheNode
  | 0, _ => none
  | attempts + 1, world =>
      match world.faults.head?.join with
      | none => some (world.cluster.nodes server)
      | some .requestLost =>
          answering server ids attempts
            { world with faults := world.faults.tail }
      | some .responseLost =>
          answering server ids attempts
            ⟨world.cluster.update server
                ((world.cluster.nodes server).serveLookup ids).2,
              world.faults.tail⟩
      | some .refused => none

/-- The client gets the answer of the attempt that gets through. -/
theorem callWithRetry_lookup
    {listening : String → Option NodeId}
    {address : String}
    {server : NodeId}
    (listens : listening address = some server)
    (ids : List BlockId)
    (attempts : Nat)
    (world : ServedCluster) :
    (callWithRetry ((network listening).lookup address ids) attempts
        world).1 =
      (answering server ids attempts world).map
        fun node => (node.serveLookup ids).1 := by
  have reaches :
      (network listening).lookup address ids =
        attempt (fun node => node.serveLookup ids) (some server) := by
    simp only [network, listens]
  rw [reaches]
  induction attempts generalizing world with
  | zero =>
      rfl
  | succ attempts inductionHypothesis =>
      simp only [callWithRetry, attempt, answering]
      cases fault : world.faults.head?.join with
      | none =>
          rfl
      | some kind =>
          cases kind with
          | requestLost =>
              exact inductionHypothesis _
          | responseLost =>
              exact inductionHypothesis _
          | refused =>
              rfl

/-- A server that answers has what all servers have. -/
theorem answering_carries
    {holds : BlockId → List UInt8 → Prop}
    {server : NodeId}
    {ids : List BlockId}
    {attempts : Nat}
    {world : ServedCluster}
    (carries : world.cluster.Carries holds)
    {node : CacheNode}
    (answers : answering server ids attempts world = some node) :
    node.Carries holds := by
  induction attempts generalizing world with
  | zero =>
      contradiction
  | succ attempts inductionHypothesis =>
      unfold answering at answers
      split at answers
      · cases answers
        exact carries.nodes server
      · exact inductionHypothesis (by exact carries) answers
      · refine inductionHypothesis ?_ answers
        exact carries.update ((carries.nodes server).lookup ids)
      · contradiction

end ServedCluster

/-- A leading run is longer than an index if all elements up to it match. -/
theorem lt_length_takeWhile_iff
    {Item : Type}
    (test : Item → Bool)
    (items : List Item)
    (last : Nat) :
    last < (items.takeWhile test).length ↔
      ∀ index,
        index ≤ last →
        ∃ item, items[index]? = some item ∧ test item = true := by
  have length :
      (items.takeWhile test).length =
        items.findIdx fun item => !test item := by
    rw [List.takeWhile_eq_take_findIdx_not, List.length_take,
      Nat.min_eq_left List.findIdx_le_length]
  rw [length, List.lt_findIdx_iff]
  constructor
  · rintro ⟨inside, all⟩ index bounded
    have here : index < items.length := by
      omega
    exact
      ⟨items[index], List.getElem?_eq_getElem here, by
        simpa using all index bounded⟩
  · intro all
    obtain ⟨_, isLast, _⟩ := all last (Nat.le_refl last)
    refine ⟨(List.getElem?_eq_some_iff.mp isLast).1, ?_⟩
    intro index bounded
    obtain ⟨item, isItem, passes⟩ := all index bounded
    obtain ⟨_, rfl⟩ := List.getElem?_eq_some_iff.mp isItem
    simpa using passes

namespace Connector

variable
  {World : Type}
  (blake3 : List UInt8 → Hash256)
  (network : Network World)
  {connector : Connector}
  (request : Request)
  (world : World)

/-- Matched blocks reach past an index that leaves tokens to compute. -/
theorem lt_matchedBlocks_iff
    (positive : 0 < connector.blockSize)
    (last : Nat) :
    last < connector.matchedBlocks blake3 network request world ↔
      last < connector.leadingHits blake3 network request world ∧
        (last + 1) * connector.blockSize <
          request.promptTokenIds.length := by
  have bounded :=
    Nat.le_trans
      (Nat.mul_le_mul_right connector.blockSize
        (connector.leadingHits_le blake3 network request world))
      (Nat.div_mul_le_self _ _)
  unfold matchedBlocks
  dsimp only
  generalize connector.leadingHits blake3 network request world = hits
    at bounded ⊢
  have grows :
      last + 1 ≤ hits →
        (last + 1) * connector.blockSize ≤ hits * connector.blockSize :=
    Nat.mul_le_mul_right connector.blockSize
  have growsTwice :
      last + 2 ≤ hits →
        (last + 2) * connector.blockSize ≤ hits * connector.blockSize :=
    Nat.mul_le_mul_right connector.blockSize
  have oneMore :
      (last + 2) * connector.blockSize =
        (last + 1) * connector.blockSize + connector.blockSize :=
    Nat.succ_mul (last + 1) connector.blockSize
  split
  · next whole =>
      constructor
      · intro inside
        have room := growsTwice (by omega)
        exact ⟨by omega, by omega⟩
      · rintro ⟨inside, left⟩
        by_contra outside
        have isLast : hits = last + 1 := by
          omega
        rw [isLast] at whole
        omega
  · next partly =>
      constructor
      · intro inside
        have room := grows inside
        exact ⟨inside, by omega⟩
      · exact And.left

end Connector

namespace Connector

section Served

variable
  {blake3 : List UInt8 → Hash256}
  {connector : Connector}
  {request : Request}

/-- Presence markers of all whole blocks of the prompt. -/
def probeIds
    (blake3 : List UInt8 → Hash256)
    (connector : Connector)
    (request : Request) :
    List BlockId :=
  (connector.promptHashes blake3 request).map connector.presenceMarker

/-- The hash of a reported hit identifies its marker. -/
theorem mem_hitHashes
    {node : CacheNode}
    {hash : Hash256} :
    (hash ∈
        (node.serveLookup (connector.probeIds blake3 request)).1.hits.map
          fun hit => hit.blockId.hash) ↔
      ¬ node.AnswersMiss (connector.probeIds blake3 request)
        (connector.presenceMarker hash) := by
  rw [← CacheNode.mem_serveLookup_hits, List.mem_map]
  constructor
  · rintro ⟨hit, member, isHash⟩
    refine ⟨hit, member, ?_⟩
    obtain ⟨entry, answered, isHit⟩ := List.mem_filterMap.mp member
    have sameId : hit.blockId = entry.id := by
      unfold LookupEntry.hit? at isHit
      split at isHit
      · rw [← Option.some.inj isHit]
      · rw [← Option.some.inj isHit]
      · simp at isHit
    have probed :
        entry.id ∈ connector.probeIds blake3 request := by
      rw [← node.lookup_ids (connector.probeIds blake3 request)]
      exact List.mem_map_of_mem answered
    obtain ⟨probedHash, _, isMarker⟩ := List.mem_map.mp probed
    rw [sameId, ← isMarker] at isHash ⊢
    rw [← isHash]
    rfl
  · rintro ⟨hit, member, isMarker⟩
    exact ⟨hit, member, by rw [isMarker]; rfl⟩

variable
  {listening : String → Option NodeId}
  {server : NodeId}
  {world : ServedCluster}

/-- The lookup hits a leading run of blocks that are not answered as misses. -/
theorem lt_leadingHits_iff
    (noRing : connector.client.ring = none)
    (listens :
      listening connector.client.primaryAddress = some server)
    (last : Nat) :
    last <
        connector.leadingHits blake3 (ServedCluster.network listening)
          request world ↔
      ∃ node,
        ServedCluster.answering server (connector.probeIds blake3 request)
            maxAttempts world = some node ∧
          ∀ index,
            index ≤ last →
            ∃ hash,
              (connector.promptHashes blake3 request)[index]? =
                  some hash ∧
                ¬ node.AnswersMiss (connector.probeIds blake3 request)
                  (connector.presenceMarker hash) := by
  unfold leadingHits
  dsimp only
  rw [lt_length_takeWhile_iff]
  by_cases noBlocks : connector.promptHashes blake3 request = []
  · rw [noBlocks]
    constructor
    · intro all
      obtain ⟨hash, impossible, _⟩ := all 0 (Nat.zero_le last)
      simp at impossible
    · rintro ⟨_, _, all⟩
      obtain ⟨hash, impossible, _⟩ := all 0 (Nat.zero_le last)
      simp at impossible
  · have someIds : connector.probeIds blake3 request ≠ [] := by
      simpa [probeIds] using noBlocks
    have answered :=
      LetheClient.lookup_hits_of_no_ring (ServedCluster.network listening)
        noRing someIds none world
    rw [show connector.client.stub none = connector.client.primaryAddress
      from rfl, ServedCluster.callWithRetry_lookup listens] at answered
    change
      (connector.client.lookup (ServedCluster.network listening)
        ((connector.promptHashes blake3 request).map
          connector.presenceMarker) none world).1.hits = _ at answered
    rw [answered]
    cases reached :
        ServedCluster.answering server (connector.probeIds blake3 request)
          maxAttempts world with
    | none =>
        simp only [Option.map_none, Option.getD_none, List.map_nil,
          List.not_mem_nil, decide_false, Bool.false_eq_true, and_false,
          exists_false, reduceCtorEq, false_and, iff_false]
        intro all
        exact all 0 (Nat.zero_le last)
    | some node =>
        simp only [Option.map_some, Option.getD_some, decide_eq_true_eq,
          mem_hitHashes, Option.some.injEq, exists_eq_left']

end Served

end Connector

/-- Some server of the cluster has the identity. -/
def Cluster.Holds
    (cluster : Cluster)
    (id : BlockId) : Prop :=
  ∃ name, (cluster.nodes name).store.Resident id

namespace Connector

/-- If tokens are reported, all blocks up to their end are in the cluster. -/
def ReportHeld
    (blake3 : List UInt8 → Hash256)
    (listening : String → Option NodeId)
    (connector : Connector)
    (request : Request)
    (numComputedTokens : Nat)
    (world : ServedCluster) : Prop :=
  let reported :=
    (connector.getNumNewMatchedTokens blake3
      (ServedCluster.network listening) request numComputedTokens
      world).1.1
  0 < reported →
  ∀ index,
    index < (numComputedTokens + reported) / connector.blockSize →
    ∃ hash,
      (connector.promptHashes blake3 request)[index]? = some hash ∧
        world.cluster.Holds (connector.presenceMarker hash)

/-- A server answers one of the blocks up to an index as a miss. -/
def StopsBy
    (blake3 : List UInt8 → Hash256)
    (connector : Connector)
    (request : Request)
    (node : CacheNode)
    (last : Nat) : Prop :=
  ∃ index hash,
    index ≤ last ∧
      (connector.promptHashes blake3 request)[index]? = some hash ∧
      node.AnswersMiss (connector.probeIds blake3 request)
        (connector.presenceMarker hash)

/--
For every block that nobody has a server that answers stops up to it, or up to
the first one not computed locally if that comes later, or no token follows.
-/
def StopsInTime
    (blake3 : List UInt8 → Hash256)
    (server : NodeId)
    (connector : Connector)
    (request : Request)
    (numComputedTokens : Nat)
    (world : ServedCluster)
    (stops : CacheNode → Nat → Prop) : Prop :=
  ∀ node,
    ServedCluster.answering server (connector.probeIds blake3 request)
      maxAttempts world = some node →
    ∀ index hash,
      (connector.promptHashes blake3 request)[index]? = some hash →
      ¬ world.cluster.Holds (connector.presenceMarker hash) →
      let last := max index (numComputedTokens / connector.blockSize)
      request.promptTokenIds.length ≤ (last + 1) * connector.blockSize ∨
        stops node last

section Report

variable
  {blake3 : List UInt8 → Hash256}
  {listening : String → Option NodeId}
  {server : NodeId}
  {connector : Connector}
  {request : Request}
  {world : ServedCluster}

/-- Reported tokens end with the matched blocks. -/
theorem reportHeld_iff
    (positive : 0 < connector.blockSize)
    {numComputedTokens : Nat}
    (aligned : connector.blockSize ∣ numComputedTokens) :
    connector.ReportHeld blake3 listening request numComputedTokens
        world ↔
      ∀ index hash,
        (connector.promptHashes blake3 request)[index]? = some hash →
        max index (numComputedTokens / connector.blockSize) <
          connector.matchedBlocks blake3 (ServedCluster.network listening)
            request world →
        world.cluster.Holds (connector.presenceMarker hash) := by
  obtain ⟨first, isFirst⟩ := aligned
  have inPrompt :=
    connector.matchedBlocks_le blake3 (ServedCluster.network listening)
      request world
  unfold ReportHeld
  dsimp only
  rw [newTokens_eq, isFirst, Nat.mul_div_cancel_left first positive,
    Nat.mul_comm connector.blockSize first, ← Nat.sub_mul, ← Nat.add_mul,
    Nat.mul_div_cancel _ positive]
  generalize
    connector.matchedBlocks blake3 (ServedCluster.network listening)
      request world = matched at inPrompt ⊢
  constructor
  · intro sound index hash found inside
    have someTokens : 0 < (matched - first) * connector.blockSize :=
      Nat.mul_pos (by omega) positive
    obtain ⟨same, foundSame, held⟩ :=
      sound someTokens index (by omega)
    rw [found, Option.some.injEq] at foundSame
    rwa [foundSame]
  · intro sound someTokens index inside
    have someBlocks : 0 < matched - first :=
      Nat.pos_of_mul_pos_right someTokens
    have bounded :
        index < (connector.promptHashes blake3 request).length := by
      rw [promptHashes, length_blockHashes]
      omega
    exact
      ⟨_, List.getElem?_eq_getElem bounded,
        sound index _ (List.getElem?_eq_getElem bounded) (by omega)⟩

variable
  (positive : 0 < connector.blockSize)
  (noRing : connector.client.ring = none)
  (listens : listening connector.client.primaryAddress = some server)

include positive noRing listens

/-- Blocks count as matched up to where the server stops or tokens end. -/
theorem lt_matchedBlocks_iff_not_stopsBy
    (last : Nat) :
    last <
        connector.matchedBlocks blake3 (ServedCluster.network listening)
          request world ↔
      (last + 1) * connector.blockSize < request.promptTokenIds.length ∧
        ∃ node,
          ServedCluster.answering server
              (connector.probeIds blake3 request) maxAttempts world =
            some node ∧
            ¬ connector.StopsBy blake3 request node last := by
  rw [lt_matchedBlocks_iff blake3 _ request world positive,
    lt_leadingHits_iff noRing listens, and_comm]
  refine and_congr_right fun left => ?_
  have paged :
      last < request.promptTokenIds.length / connector.blockSize :=
    (Nat.le_div_iff_mul_le positive).mpr (Nat.le_of_lt left)
  refine exists_congr fun node => and_congr_right fun _ => ?_
  constructor
  · rintro all ⟨index, hash, bounded, found, missed⟩
    obtain ⟨same, foundSame, notMissed⟩ := all index bounded
    rw [found, Option.some.injEq] at foundSame
    exact notMissed (by rwa [← foundSame])
  · intro runsOn index bounded
    have inside :
        index < (connector.promptHashes blake3 request).length := by
      rw [promptHashes, length_blockHashes]
      omega
    refine ⟨_, List.getElem?_eq_getElem inside, ?_⟩
    intro missed
    exact
      runsOn
        ⟨index, _, bounded, List.getElem?_eq_getElem inside, missed⟩

variable
  {numComputedTokens : Nat}
  (aligned : connector.blockSize ∣ numComputedTokens)

include aligned

/-- Reported blocks are held if the server stops before those that are not. -/
theorem reportHeld_iff_stops
    {stops : CacheNode → Nat → Prop}
    (stopsBy_iff :
      ∀ node,
        ServedCluster.answering server (connector.probeIds blake3 request)
          maxAttempts world = some node →
        ∀ last, connector.StopsBy blake3 request node last ↔ stops node last) :
    connector.ReportHeld blake3 listening request numComputedTokens
        world ↔
      connector.StopsInTime blake3 server request numComputedTokens world
        stops := by
  rw [reportHeld_iff positive aligned]
  unfold StopsInTime
  constructor
  · intro sound node answers index hash found missing
    by_contra runsOn
    obtain ⟨left, goesOn⟩ := not_or.mp runsOn
    refine missing (sound index hash found ?_)
    rw [lt_matchedBlocks_iff_not_stopsBy positive noRing listens]
    exact ⟨Nat.lt_of_not_le left, node, answers,
      fun stopped => goesOn ((stopsBy_iff node answers _).mp stopped)⟩
  · intro inTime index hash found inside
    by_contra missing
    rw [lt_matchedBlocks_iff_not_stopsBy positive noRing listens] at inside
    obtain ⟨left, node, answers, runsOn⟩ := inside
    rcases inTime node answers index hash found missing with
      noTokens | stopped
    · omega
    · exact runsOn ((stopsBy_iff node answers _).mpr stopped)

/--
For a prompt of distinct blocks a server stops at the first one that it lacks
itself and for which its ring names no other node.
-/
theorem reportHeld_iff_lacks
    (distinct : (connector.promptHashes blake3 request).Nodup)
    {holds : BlockId → List UInt8 → Prop}
    (carries : world.cluster.Carries holds) :
    connector.ReportHeld blake3 listening request numComputedTokens
        world ↔
      connector.StopsInTime blake3 server request numComputedTokens world
        fun node last =>
          ∃ index hash,
            index ≤ last ∧
              (connector.promptHashes blake3 request)[index]? =
                some hash ∧
              node.Lacks (connector.presenceMarker hash) := by
  refine
    reportHeld_iff_stops positive noRing listens aligned
      fun node answers last => ?_
  have answering := ServedCluster.answering_carries carries answers
  have markers : (connector.probeIds blake3 request).Nodup :=
    distinct.map fun _ _ same => congrArg BlockId.hash same
  refine exists_congr fun index => exists_congr fun hash =>
    and_congr_right fun _ => and_congr_right fun found => ?_
  exact CacheNode.answersMiss_iff_lacks answering.store.consistent markers
    (List.mem_map_of_mem (List.mem_of_getElem? found))

end Report

end Connector

/--
All reported blocks are somewhere in the cluster if and only if, when the
asked server answers at all, it stops early enough: for every block of the
prompt that nobody has, it answers a miss up to that block, or up to the first
one not computed locally if that comes later, or no token follows.
-/
theorem reported_prefix_held_iff
    (blake3 : List UInt8 → Hash256)
    {listening : String → Option NodeId}
    {server : NodeId}
    {connector : Connector}
    (positive : 0 < connector.blockSize)
    (noRing : connector.client.ring = none)
    (listens :
      listening connector.client.primaryAddress = some server)
    (request : Request)
    (world : ServedCluster)
    {numComputedTokens : Nat}
    (aligned : connector.blockSize ∣ numComputedTokens) :
    connector.ReportHeld blake3 listening request numComputedTokens
        world ↔
      connector.StopsInTime blake3 server request numComputedTokens world
        (connector.StopsBy blake3 request) :=
  Connector.reportHeld_iff_stops positive noRing listens aligned
    fun _ _ _ => Iff.rfl

/-! ## Reporting what nobody has -/

/-- Three empty servers. -/
def sampleEmpty : ServedCluster where
  cluster := sampleCluster [nodeA, nodeB, nodeC]
  faults := []

/--
The second node names the primaries of both blocks, and both are reported
although all servers are empty.
-/
theorem empty_cluster_reports_prefix :
    (sampleConnector.getNumNewMatchedTokens promptBlake3
        (ServedCluster.network fun _ => some nodeB) samplePrompt 0
        sampleEmpty).1.1 = 4 ∧
      ¬ sampleConnector.ReportHeld promptBlake3 (fun _ => some nodeB)
        samplePrompt 0 sampleEmpty := by
  have reported :
      (sampleConnector.getNumNewMatchedTokens promptBlake3
        (ServedCluster.network fun _ => some nodeB) samplePrompt 0
        sampleEmpty).1.1 = 4 := by
    decide +kernel
  refine ⟨reported, ?_⟩
  intro sound
  have fresh :=
    (sampleCluster_fresh [nodeA, nodeB, nodeC]).carries fun _ _ => False
  unfold Connector.ReportHeld at sound
  dsimp only at sound
  rw [reported] at sound
  obtain ⟨hash, _, name, tier, resident⟩ :=
    sound (by decide) 0 (by decide)
  obtain ⟨data, held⟩ := Option.isSome_iff_exists.mp resident
  exact (fresh.nodes name).store.every held

theorem reported_prefix_held_iff_sample :
    (sampleConnector.getNumNewMatchedTokens promptBlake3
        (ServedCluster.network fun _ => some nodeA) samplePrompt 2
        sampleServed).1.1 = 2 ∧
      sampleConnector.ReportHeld promptBlake3 (fun _ => some nodeA)
        samplePrompt 2 sampleServed := by
  refine ⟨by decide +kernel, ?_⟩
  have hashes :
      sampleConnector.promptHashes promptBlake3 samplePrompt =
        [firstHash, secondHash] := by
    decide +kernel
  have held :
      ∀ hash ∈ [firstHash, secondHash],
        (sampleServed.cluster.nodes nodeA).store.Resident
          (sampleConnector.presenceMarker hash) := by
    decide +kernel
  refine
    (reported_prefix_held_iff promptBlake3 (by decide) rfl rfl samplePrompt
      sampleServed (by decide)).mpr ?_
  intro node _ index hash found missing
  rw [hashes] at found
  exact absurd ⟨nodeA, held hash (List.mem_of_getElem? found)⟩ missing

end Lethe
