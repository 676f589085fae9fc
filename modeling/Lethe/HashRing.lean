import Lethe.RoutingStability

namespace Lethe

open ClockwiseRing

/-!
# The client's ring

The Python client routes requests itself, with a ring of pairs of a hash and a
peer name.  It sorts the pairs as tuples, spells the midpoint differently and
walks without a bound on the number of steps, so the walk takes fuel here and
returns nothing when the fuel runs out.
-/

/-- The client's ring of named virtual nodes. -/
structure HashRing where
  vnodesPerPeer : Nat
  ring : List (Nat × NodeId)
  deriving DecidableEq, Repr

/-- The peers on a client's ring. -/
def HashRing.peers
    (hashRing : HashRing) :
    List NodeId :=
  hashRing.ring.map Prod.snd

/-- Order of pairs as Python compares tuples. -/
def tupleLe
    (left right : Nat × NodeId) : Prop :=
  left.1 < right.1 ∨ (left.1 = right.1 ∧ left.2.name ≤ right.2.name)

instance : DecidableRel tupleLe :=
  fun _ _ => inferInstanceAs (Decidable (_ ∨ _))

namespace HashRing

/-- The midpoint of the client's search stays inside the interval. -/
theorem midpoint_inside
    {low high : Nat}
    (active : low < high) :
    low ≤ (low + high) / 2 ∧ (low + high) / 2 < high := by
  omega

/-- A ring of the given peers: all their virtual nodes, sorted. -/
def setPeers
    (blake3 : List UInt8 → Hash256)
    (vnodesPerPeer : Nat)
    (peers : List NodeId) :
    HashRing where
  vnodesPerPeer := vnodesPerPeer
  ring := (virtualNodes blake3 vnodesPerPeer peers).insertionSort tupleLe

/-- The entry at an index lies before the target. -/
def entryBelow
    (hashRing : HashRing)
    (target index : Nat) :
    Bool :=
  match hashRing.ring[index]? with
  | some entry => entry.1 < target
  | none => false

/-- Index of the first entry from the target on, with wraparound. -/
def startIndex
    (hashRing : HashRing)
    (target : Nat) :
    Nat :=
  bisect (fun low high => (low + high) / 2) midpoint_inside
    (hashRing.entryBelow target) 0 hashRing.ring.length %
      hashRing.ring.length

/-- Name met at a ring position. -/
def peerAt
    (hashRing : HashRing)
    (index : Nat) :
    NodeId :=
  ((hashRing.ring[index]?).map Prod.snd).getD default

/--
The loop condition.  The set of seen peers holds exactly the peers listed so
far, so its size is the length of that list.
-/
def unfinished
    (hashRing : HashRing)
    (nReplicas : Nat)
    (out : List NodeId) :
    Bool :=
  out.length < nReplicas ∧ out.length < hashRing.vnodesPerPeer * 32

/-- Walk from an index and list new peers until enough were seen. -/
def walk
    (hashRing : HashRing)
    (nReplicas : Nat) :
    Nat → Nat → List NodeId → Option (List NodeId)
  | 0, _, out =>
      if hashRing.unfinished nReplicas out then none else some out
  | fuel + 1, index, out =>
      if hashRing.unfinished nReplicas out then
        hashRing.walk nReplicas fuel ((index + 1) % hashRing.ring.length)
          (if hashRing.peerAt index ∈ out then
            out
          else
            out ++ [hashRing.peerAt index])
      else
        some out

/-- The owners of a block hash, primary first. -/
def route
    (hashRing : HashRing)
    (fuel : Nat)
    (blockHash : Hash256)
    (nReplicas : Nat) :
    Option (List NodeId) :=
  if hashRing.ring = [] then
    some []
  else
    hashRing.walk nReplicas fuel
      (hashRing.startIndex (leU64FromDigest blockHash)) []

/-- The ring arranges the virtual nodes of its peers by position. -/
theorem setPeers_sorted
    (blake3 : List UInt8 → Hash256)
    (vnodesPerPeer : Nat)
    (peers : List NodeId) :
    (setPeers blake3 vnodesPerPeer peers).ring.Pairwise
        (fun left right => left.1 ≤ right.1) ∧
      (setPeers blake3 vnodesPerPeer peers).ring.Perm
        (virtualNodes blake3 vnodesPerPeer peers) := by
  have : Std.Total tupleLe := by
    refine ⟨?_⟩
    intro left right
    rcases Nat.lt_trichotomy left.1 right.1 with less | same | greater
    · exact Or.inl (Or.inl less)
    · rcases String.le_total left.2.name right.2.name with ordered | reversed
      · exact Or.inl (Or.inr ⟨same, ordered⟩)
      · exact Or.inr (Or.inr ⟨same.symm, reversed⟩)
    · exact Or.inr (Or.inl greater)
  have : IsTrans (Nat × NodeId) tupleLe := by
    refine ⟨?_⟩
    rintro first second third (less | ⟨same, ordered⟩)
      (laterLess | ⟨laterSame, laterOrdered⟩)
    · exact Or.inl (Nat.lt_trans less laterLess)
    · exact Or.inl (laterSame ▸ less)
    · exact Or.inl (same ▸ laterLess)
    · exact Or.inr ⟨same.trans laterSame, String.le_trans ordered laterOrdered⟩
  refine ⟨?_, List.perm_insertionSort _ _⟩
  refine (List.pairwise_insertionSort tupleLe _).imp ?_
  rintro left right (less | ⟨same, _⟩)
  · exact Nat.le_of_lt less
  · exact Nat.le_of_eq same

/-- The ring built from a list holds no other peers. -/
theorem mem_of_mem_peers
    {blake3 : List UInt8 → Hash256}
    {vnodesPerPeer : Nat}
    {peers : List NodeId}
    {peer : NodeId}
    (onRing : peer ∈ (setPeers blake3 vnodesPerPeer peers).peers) :
    peer ∈ peers := by
  obtain ⟨⟨position, owner⟩, isEntry, isPeer⟩ := List.mem_map.mp onRing
  rw [(setPeers_sorted blake3 vnodesPerPeer peers).2.mem_iff,
    mem_virtualNodes] at isEntry
  rw [← isPeer]
  exact isEntry.1

/-- The search starts the walk at the target. -/
theorem rotate_startIndex
    {hashRing : HashRing}
    (sorted :
      hashRing.ring.Pairwise fun left right => left.1 ≤ right.1)
    (target : Nat) :
    hashRing.ring.rotate (hashRing.startIndex target) =
      clockwise Prod.fst target hashRing.ring := by
  refine rotate_bisect_eq_clockwise sorted ?_
  intro query bound
  simp [entryBelow, List.getElem?_eq_getElem bound]

/--
A walk over given names picks from them what the server picks, as soon as they
contain enough distinct peers.
-/
theorem walk_eq_pick
    {hashRing : HashRing}
    {nReplicas : Nat}
    (limit : nReplicas ≤ hashRing.vnodesPerPeer * 32)
    {names : List NodeId}
    {index fuel : Nat}
    {out : List NodeId}
    (inside : index < hashRing.ring.length)
    (follows :
      ∀ (step : Nat) (bound : step < names.length),
        hashRing.peerAt ((index + step) % hashRing.ring.length) =
          names[step])
    (enough : nReplicas ≤ (pick nReplicas out names).length)
    (enoughFuel : names.length ≤ fuel) :
    hashRing.walk nReplicas fuel index out =
      some (pick nReplicas out names) := by
  induction names generalizing index fuel out with
  | nil =>
      have finished : hashRing.unfinished nReplicas out = false := by
        simp only [pick] at enough
        simp [unfinished]
        omega
      cases fuel with
      | zero =>
          simp [walk, finished, pick]
      | succ fuel =>
          simp [walk, finished, pick]
  | cons name rest inductionHypothesis =>
      obtain ⟨fuel, isFuel⟩ : ∃ smaller, fuel = smaller + 1 :=
        ⟨fuel - 1, by simp only [List.length_cons] at enoughFuel; omega⟩
      subst isFuel
      by_cases room : out.length < nReplicas
      · have unfinished : hashRing.unfinished nReplicas out = true := by
          simp [HashRing.unfinished, room]
          omega
        have here : hashRing.peerAt index = name := by
          have first := follows 0 (by simp)
          simpa [Nat.mod_eq_of_lt inside] using first
        simp only [walk, unfinished, ↓reduceIte, here, pick, room]
          at enough ⊢
        refine inductionHypothesis (Nat.mod_lt _ (by omega)) ?_ enough
          (by simpa using enoughFuel)
        intro step bound
        have later := follows (step + 1) (by simpa using bound)
        rw [List.getElem_cons_succ] at later
        rw [Nat.mod_add_mod, ← later]
        congr 2
        omega
      · have finished : hashRing.unfinished nReplicas out = false := by
          simp [HashRing.unfinished]
          omega
        simp [walk, finished, pick, room]

/-- Indexing modulo the length from a start index walks the rotated ring. -/
theorem peerAt_eq_rotate
    (hashRing : HashRing)
    (start step : Nat)
    (bound :
      step < ((hashRing.ring.rotate start).map Prod.snd).length) :
    hashRing.peerAt ((start + step) % hashRing.ring.length) =
      ((hashRing.ring.rotate start).map Prod.snd)[step] := by
  have inside : step < hashRing.ring.length := by
    simpa using bound
  have wrapped :
      (start + step) % hashRing.ring.length < hashRing.ring.length :=
    Nat.mod_lt _ (by omega)
  simp [peerAt, List.getElem_rotate, Nat.add_comm step start,
    List.getElem?_eq_getElem wrapped]

/-- With enough peers and fuel, the client lists the first distinct ones. -/
theorem route_eq
    {hashRing : HashRing}
    (sorted :
      hashRing.ring.Pairwise fun left right => left.1 ≤ right.1)
    {blockHash : Hash256}
    {nReplicas fuel : Nat}
    (nonempty : hashRing.ring ≠ [])
    (limit : nReplicas ≤ hashRing.vnodesPerPeer * 32)
    (enough :
      nReplicas ≤
        (clockwisePeers hashRing.ring
          (leU64FromDigest blockHash)).length)
    (enoughFuel : hashRing.ring.length ≤ fuel) :
    hashRing.route fuel blockHash nReplicas =
      some
        ((clockwisePeers hashRing.ring
          (leU64FromDigest blockHash)).take nReplicas) := by
  have positive : 0 < hashRing.ring.length :=
    List.length_pos_iff.mpr nonempty
  have follows :=
    hashRing.peerAt_eq_rotate
      (hashRing.startIndex (leU64FromDigest blockHash))
  rw [rotate_startIndex sorted] at follows
  have picks :
      pick nReplicas []
          ((clockwise Prod.fst (leU64FromDigest blockHash)
            hashRing.ring).map Prod.snd) =
        (clockwisePeers hashRing.ring
          (leU64FromDigest blockHash)).take nReplicas :=
    pick_nil _ _
  have sameLength :
      ((clockwise Prod.fst (leU64FromDigest blockHash)
        hashRing.ring).map Prod.snd).length =
          hashRing.ring.length := by
    rw [← rotate_startIndex sorted]
    simp
  have inside :
      hashRing.startIndex (leU64FromDigest blockHash) <
        hashRing.ring.length :=
    Nat.mod_lt _ positive
  rw [← picks, route, if_neg nonempty]
  refine walk_eq_pick limit inside follows ?_ (by omega)
  rw [picks, List.length_take]
  omega

/-- The first owner of a block hash; one replica needs no more steps. -/
def primary
    (hashRing : HashRing)
    (blockHash : Hash256) :
    Option NodeId :=
  (hashRing.route hashRing.ring.length blockHash 1).bind List.head?

/-- The client's primary is the first peer met clockwise. -/
theorem primary_eq_head
    (blake3 : List UInt8 → Hash256)
    (vnodesPerPeer : Nat)
    (peers : List NodeId)
    (blockHash : Hash256) :
    (setPeers blake3 vnodesPerPeer peers).primary blockHash =
      (clockwise Prod.fst (leU64FromDigest blockHash)
        (setPeers blake3 vnodesPerPeer peers).ring).head?.map
          Prod.snd := by
  obtain ⟨sorted, entries⟩ := setPeers_sorted blake3 vnodesPerPeer peers
  by_cases empty : (setPeers blake3 vnodesPerPeer peers).ring = []
  · simp [primary, route, empty, clockwise]
  · obtain ⟨⟨position, peer⟩, onRing⟩ := List.exists_mem_of_ne_nil _ empty
    have someVnodes : 0 < vnodesPerPeer := by
      obtain ⟨_, _, inRange, _⟩ :=
        mem_virtualNodes.mp (entries.mem_iff.mp onRing)
      omega
    have enough :
        1 ≤ (clockwisePeers (setPeers blake3 vnodesPerPeer peers).ring
          (leU64FromDigest blockHash)).length := by
      rw [Nat.succ_le_iff, List.length_pos_iff]
      intro noPeers
      have met :
          peer ∈ clockwisePeers (setPeers blake3 vnodesPerPeer peers).ring
            (leU64FromDigest blockHash) :=
        mem_clockwisePeers.mpr ⟨position, onRing⟩
      rw [noPeers] at met
      simp at met
    have limit :
        1 ≤ (setPeers blake3 vnodesPerPeer peers).vnodesPerPeer * 32 := by
      simp only [setPeers]
      omega
    rw [primary, route_eq sorted empty limit enough (Nat.le_refl _),
      ← head?_clockwisePeers]
    cases clockwisePeers (setPeers blake3 vnodesPerPeer peers).ring
      (leU64FromDigest blockHash) with
    | nil =>
        rfl
    | cons primary rest =>
        rfl

end HashRing

/--
The server's ring over one ordering of the peers and the client's ring over
another give the same owners in the same order; the client needs no more steps
than the ring has entries.
-/
theorem server_and_client_rings_agree
    (blake3 : List UInt8 → Hash256)
    {router : Router}
    (built : router.Built blake3)
    (someVnodes : 1 ≤ router.vnodesPerPeer)
    (distinctPeers : router.peers.Nodup)
    (distinct :
      DistinctHashes blake3 router.vnodesPerPeer router.peers)
    {clientPeers : List NodeId}
    (samePeers : clientPeers.Perm router.peers)
    (positive : 1 ≤ router.replicationFactor)
    (enough :
      router.replicationFactor ≤
        min router.peers.length (32 * router.vnodesPerPeer))
    (id : BlockId)
    {fuel : Nat}
    (enoughFuel : router.ring.length ≤ fuel) :
    (HashRing.setPeers blake3 router.vnodesPerPeer clientPeers).route fuel
        id.hash router.replicationFactor =
      some (router.route id).members := by
  obtain ⟨sorted, entries⟩ :=
    HashRing.setPeers_sorted blake3 router.vnodesPerPeer clientPeers
  have sameRing :
      (HashRing.setPeers blake3 router.vnodesPerPeer clientPeers).ring =
        router.circle := by
    have sameEntries :
        (HashRing.setPeers blake3 router.vnodesPerPeer
          clientPeers).ring.Perm router.circle :=
      (entries.trans (samePeers.flatMap_right _)).trans
        built.circle_perm.symm
    refine sorted_unique sorted built.circle_sorted ?_ sameEntries
    refine ((sameEntries.trans built.circle_perm).map _).nodup_iff.mpr ?_
    exact distinct
  have peerCount :=
    built.length_clockwisePeers someVnodes distinctPeers
      (leU64FromDigest id.hash)
  have circleLength : router.circle.length = router.ring.length := by
    simp [Router.circle]
  have nonempty : router.circle ≠ [] := by
    intro empty
    rw [empty] at peerCount
    simp only [clockwisePeers, clockwise, List.filter_nil,
      List.append_nil, List.map_nil, List.eraseDups_nil,
      List.length_nil] at peerCount
    omega
  rw [HashRing.route_eq sorted (by rwa [sameRing])
    (by simp only [HashRing.setPeers]; omega)
    (by rw [sameRing, peerCount]; omega)
    (by rw [sameRing, circleLength]; exact enoughFuel),
    sameRing, Router.route_eq built]
  have want : router.want = router.replicationFactor := by
    unfold Router.want
    omega
  rw [want]
  rw [RouteResult.members_ofPicked]
  rfl

theorem server_and_client_rings_agree_sample :
    (HashRing.setPeers sampleBlake3 2 [nodeC, nodeA, nodeB]).route 6
          sampleBlock.hash 2 =
        some
          ((sampleRouter nodeA [nodeA, nodeB, nodeC]).route
            sampleBlock).members ∧
      (sampleRouter nodeA [nodeA, nodeB, nodeC]).route sampleBlock =
        ⟨some nodeA, [nodeB]⟩ :=
  have samePeers : [nodeC, nodeA, nodeB].Perm [nodeA, nodeB, nodeC] := by
    decide
  ⟨server_and_client_rings_agree sampleBlake3
      (sampleRouter_built nodeA [nodeA, nodeB, nodeC])
      (by decide) (by decide) (by decide +kernel) samePeers (by decide)
      (by decide) sampleBlock (by decide +kernel),
    by decide +kernel⟩

end Lethe
