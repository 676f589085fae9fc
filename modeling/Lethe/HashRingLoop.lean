import Lethe.HashRing
import Lethe.RouteWalk

namespace Lethe

open ClockwiseRing

/-!
# The loop of the client's walk

The walk of the client goes round the ring until it has seen enough distinct
peers and does not count its steps.  It asks for the replicas or for 32 times
the virtual nodes of a peer, whichever is less.  It ends exactly if the ring
has so many peers; if not, it goes round for ever.
-/

namespace HashRing

variable {hashRing : HashRing}

/-- How many distinct peers the loop waits for. -/
def loopLimit
    (hashRing : HashRing)
    (nReplicas : Nat) :
    Nat :=
  min nReplicas (hashRing.vnodesPerPeer * 32)

/-- The loop goes on while too few peers are listed. -/
theorem unfinished_iff
    {nReplicas : Nat}
    {out : List NodeId} :
    hashRing.unfinished nReplicas out = true ↔
      out.length < hashRing.loopLimit nReplicas := by
  simp only [unfinished, loopLimit, decide_eq_true_eq]
  omega

/-- The loop waits for no more peers than its limit. -/
theorem walk_loopLimit
    (nReplicas fuel index : Nat)
    (out : List NodeId) :
    hashRing.walk (hashRing.loopLimit nReplicas) fuel index out =
      hashRing.walk nReplicas fuel index out := by
  have sameTest (listed : List NodeId) :
      hashRing.unfinished (hashRing.loopLimit nReplicas) listed =
        hashRing.unfinished nReplicas listed := by
    rw [Bool.eq_iff_iff, unfinished_iff, unfinished_iff]
    simp only [loopLimit]
    omega
  induction fuel generalizing index out with
  | zero =>
      simp only [walk, sameTest]
  | succ fuel inductionHypothesis =>
      simp only [walk, sameTest, inductionHypothesis]

/-- More fuel does not change the result of a walk that ends. -/
theorem walk_add
    {nReplicas fuel index : Nat}
    {out result : List NodeId}
    (ended : hashRing.walk nReplicas fuel index out = some result)
    (more : Nat) :
    hashRing.walk nReplicas (fuel + more) index out = some result := by
  induction fuel generalizing index out with
  | zero =>
      simp only [walk] at ended
      split at ended
      · simp at ended
      · next finished =>
          cases more with
          | zero =>
              simp only [walk, finished, Bool.false_eq_true, ↓reduceIte]
              exact ended
          | succ more =>
              simp only [walk, finished, Bool.false_eq_true, ↓reduceIte]
              exact ended
  | succ fuel inductionHypothesis =>
      rw [Nat.succ_add]
      by_cases goesOn : hashRing.unfinished nReplicas out = true
      · simp only [walk, goesOn, ↓reduceIte] at ended ⊢
        exact inductionHypothesis ended
      · simp only [walk, goesOn, Bool.false_eq_true, ↓reduceIte] at ended ⊢
        exact ended

/-- All walks that end give the same result. -/
theorem route_unique
    {blockHash : Hash256}
    {nReplicas fuel otherFuel : Nat}
    {result other : List NodeId}
    (ended : hashRing.route fuel blockHash nReplicas = some result)
    (otherEnded : hashRing.route otherFuel blockHash nReplicas = some other) :
    result = other := by
  unfold route at ended otherEnded
  by_cases empty : hashRing.ring = []
  · simp only [empty, ↓reduceIte] at ended otherEnded
    exact Option.some.inj (ended.symm.trans otherEnded)
  · simp only [empty, ↓reduceIte] at ended otherEnded
    have first := walk_add ended otherFuel
    have second := walk_add otherEnded fuel
    rw [Nat.add_comm] at second
    exact Option.some.inj (first.symm.trans second)

/-- A walk over too few peers never ends. -/
theorem walk_eq_none
    {nReplicas : Nat}
    {names : List NodeId}
    (onRing : hashRing.peers ⊆ names)
    (few : names.length < hashRing.loopLimit nReplicas)
    {index : Nat}
    (inside : index < hashRing.ring.length)
    {out : List NodeId}
    (distinct : out.Nodup)
    (listed : out ⊆ names)
    (fuel : Nat) :
    hashRing.walk nReplicas fuel index out = none := by
  have goesOn :
      ∀ {seen : List NodeId},
        seen.Nodup →
        seen ⊆ names →
        hashRing.unfinished nReplicas seen = true :=
    fun distinct listed =>
      unfinished_iff.mpr
        (Nat.lt_of_le_of_lt
          (List.subperm_of_subset distinct listed).length_le few)
  induction fuel generalizing index out with
  | zero =>
      simp only [walk, goesOn distinct listed, ↓reduceIte]
  | succ fuel inductionHypothesis =>
      have met : hashRing.peerAt index ∈ names := by
        apply onRing
        rw [peerAt, List.getElem?_eq_getElem inside]
        exact List.mem_map_of_mem (List.getElem_mem inside)
      have insideNext :
          (index + 1) % hashRing.ring.length < hashRing.ring.length :=
        Nat.mod_lt _ (by omega)
      simp only [walk, goesOn distinct listed, ↓reduceIte]
      split
      · exact inductionHypothesis insideNext distinct listed
      · next isNew =>
          refine inductionHypothesis insideNext ?_ ?_
          · rw [List.nodup_append_comm]
            exact List.nodup_cons.mpr ⟨isNew, distinct⟩
          · simp [listed, met]

/-! ## Rings of a list of peers -/

section Peers

variable
  {blake3 : List UInt8 → Hash256}
  {vnodesPerPeer : Nat}
  {peers : List NodeId}

/-- Clockwise from anywhere on a client's ring, every peer is met once. -/
theorem length_clockwisePeers
    (blake3 : List UInt8 → Hash256)
    (peers : List NodeId)
    (someVnodes : 1 ≤ vnodesPerPeer)
    (target : Nat) :
    (clockwisePeers (setPeers blake3 vnodesPerPeer peers).ring
      target).length =
      peers.eraseDups.length := by
  refine List.Perm.length_eq ?_
  rw [List.perm_ext_iff_of_nodup (nodup_clockwisePeers _ _)
    (nodup_eraseDups _)]
  intro peer
  have entries := (setPeers_sorted blake3 vnodesPerPeer peers).2
  rw [mem_clockwisePeers, List.mem_eraseDups]
  simp only [entries.mem_iff, mem_virtualNodes]
  constructor
  · rintro ⟨_, member, _⟩
    exact member
  · intro member
    exact ⟨_, member, 0, someVnodes, rfl⟩

/-- A ring of some peers with virtual nodes has entries. -/
theorem setPeers_ring_ne_nil
    (blake3 : List UInt8 → Hash256)
    (someVnodes : 1 ≤ vnodesPerPeer)
    (somePeers : peers ≠ []) :
    (setPeers blake3 vnodesPerPeer peers).ring ≠ [] := by
  obtain ⟨peer, member⟩ := List.exists_mem_of_ne_nil _ somePeers
  have entries := (setPeers_sorted blake3 vnodesPerPeer peers).2
  have onRing :=
    entries.mem_iff.mpr
      (mem_virtualNodes.mpr ⟨member, 0, someVnodes, rfl⟩)
  exact List.ne_nil_of_mem onRing

/-- With enough peers the route ends after one lap at most. -/
theorem route_of_enough
    (someVnodes : 1 ≤ vnodesPerPeer)
    (somePeers : peers ≠ [])
    {nReplicas : Nat}
    (enough :
      (setPeers blake3 vnodesPerPeer peers).loopLimit nReplicas ≤
        peers.eraseDups.length)
    (blockHash : Hash256) :
    (setPeers blake3 vnodesPerPeer peers).route
        (setPeers blake3 vnodesPerPeer peers).ring.length blockHash
        nReplicas =
      some
        ((clockwisePeers (setPeers blake3 vnodesPerPeer peers).ring
            (leU64FromDigest blockHash)).take
          ((setPeers blake3 vnodesPerPeer peers).loopLimit nReplicas)) := by
  have nonempty := setPeers_ring_ne_nil blake3 someVnodes somePeers
  have limited :
      (setPeers blake3 vnodesPerPeer peers).route
          (setPeers blake3 vnodesPerPeer peers).ring.length blockHash
          nReplicas =
        (setPeers blake3 vnodesPerPeer peers).route
          (setPeers blake3 vnodesPerPeer peers).ring.length blockHash
          ((setPeers blake3 vnodesPerPeer peers).loopLimit nReplicas) := by
    simp only [route, nonempty, ↓reduceIte, walk_loopLimit]
  rw [limited]
  refine route_eq (setPeers_sorted blake3 vnodesPerPeer peers).1 nonempty
    (Nat.min_le_right _ _) ?_ (Nat.le_refl _)
  rw [length_clockwisePeers blake3 peers someVnodes]
  exact enough

/-- With too few peers the route never ends. -/
theorem route_of_few
    (someVnodes : 1 ≤ vnodesPerPeer)
    (somePeers : peers ≠ [])
    {nReplicas : Nat}
    (few :
      peers.eraseDups.length <
        (setPeers blake3 vnodesPerPeer peers).loopLimit nReplicas)
    (blockHash : Hash256)
    (fuel : Nat) :
    (setPeers blake3 vnodesPerPeer peers).route fuel blockHash nReplicas =
      none := by
  have nonempty := setPeers_ring_ne_nil blake3 someVnodes somePeers
  rw [route, if_neg nonempty]
  refine walk_eq_none ?_ few
    (Nat.mod_lt _ (List.length_pos_of_ne_nil nonempty)) List.nodup_nil
    (List.nil_subset _) fuel
  intro peer onRing
  exact List.mem_eraseDups.mpr (mem_of_mem_peers onRing)

/-- The route ends and lists distinct peers, as many as wanted and there are. -/
def RouteReturns
    (blake3 : List UInt8 → Hash256)
    (vnodesPerPeer : Nat)
    (peers : List NodeId)
    (blockHash : Hash256)
    (nReplicas : Nat) : Prop :=
  ∃ fuel out,
    (setPeers blake3 vnodesPerPeer peers).route fuel blockHash nReplicas =
        some out ∧
      out.length = min nReplicas peers.eraseDups.length ∧
      out.Nodup ∧
      out ⊆ peers

/--
The route returns what it should exactly if there are enough peers and the
limit of the loop does not cut it short, or the limit is the number of peers.
-/
theorem client_route_returns_iff
    (blake3 : List UInt8 → Hash256)
    {vnodesPerPeer : Nat}
    (someVnodes : 1 ≤ vnodesPerPeer)
    {peers : List NodeId}
    (somePeers : peers ≠ [])
    (blockHash : Hash256)
    (nReplicas : Nat) :
    RouteReturns blake3 vnodesPerPeer peers blockHash nReplicas ↔
      (nReplicas ≤ peers.eraseDups.length ∧
          nReplicas ≤ 32 * vnodesPerPeer) ∨
        peers.eraseDups.length = 32 * vnodesPerPeer := by
  have limit :
      (setPeers blake3 vnodesPerPeer peers).loopLimit nReplicas =
        min nReplicas (vnodesPerPeer * 32) :=
    rfl
  have met :=
    length_clockwisePeers blake3 peers someVnodes
      (leU64FromDigest blockHash)
  constructor
  · rintro ⟨fuel, out, ended, size, _, _⟩
    by_cases few :
        peers.eraseDups.length <
          (setPeers blake3 vnodesPerPeer peers).loopLimit nReplicas
    · rw [route_of_few someVnodes somePeers few] at ended
      simp at ended
    · have result :=
        route_of_enough someVnodes somePeers (Nat.not_lt.mp few) blockHash
      rw [route_unique ended result, List.length_take, met] at size
      omega
  · intro condition
    have enough :
        (setPeers blake3 vnodesPerPeer peers).loopLimit nReplicas ≤
          peers.eraseDups.length := by
      omega
    refine
      ⟨_, _, route_of_enough someVnodes somePeers enough blockHash, ?_,
        ?_, ?_⟩
    · rw [List.length_take, met]
      omega
    · exact (nodup_clockwisePeers _ _).sublist (List.take_sublist _ _)
    · intro peer listed
      obtain ⟨position, onRing⟩ :=
        mem_clockwisePeers.mp (List.mem_of_mem_take listed)
      exact mem_of_mem_peers (List.mem_map_of_mem onRing)

end Peers

/-- Two replicas on a ring of one peer are looked for without end. -/
theorem lone_peer_route_never_returns :
    (∀ fuel,
        (setPeers sampleBlake3 2 [nodeA]).route fuel sampleBlock.hash 2 =
          none) ∧
      ¬ RouteReturns sampleBlake3 2 [nodeA] sampleBlock.hash 2 := by
  have never (fuel : Nat) :
      (setPeers sampleBlake3 2 [nodeA]).route fuel sampleBlock.hash 2 =
        none :=
    route_of_few (by decide) (by simp) (by decide) sampleBlock.hash fuel
  refine ⟨never, ?_⟩
  rintro ⟨fuel, out, ended, _⟩
  rw [never fuel] at ended
  simp at ended

/-- Two of three peers are found. -/
theorem client_route_returns_two_of_three :
    RouteReturns sampleBlake3 2 [nodeA, nodeB, nodeC] sampleBlock.hash 2 :=
  (client_route_returns_iff sampleBlake3 (by decide) (by simp)
    sampleBlock.hash 2).mpr (Or.inl (by decide))

end HashRing

end Lethe
