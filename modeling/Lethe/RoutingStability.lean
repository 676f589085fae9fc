import Lethe.Routing

namespace Lethe

open ClockwiseRing

/-!
# Routing under membership changes

When no two virtual nodes collide, a ring is determined by its set of peers,
and removing peers deletes their entries without moving any other.  Routes
before and after a removal are therefore prefixes of one clockwise sequence
and of the same sequence with the removed peers deleted.
-/

section Sequences

/-- A peer with virtual nodes owns those that its name determines. -/
theorem mem_virtualNodes
    {blake3 : List UInt8 → Hash256}
    {vnodesPerPeer : Nat}
    {peers : List NodeId}
    {position : Nat}
    {peer : NodeId} :
    (position, peer) ∈ virtualNodes blake3 vnodesPerPeer peers ↔
      peer ∈ peers ∧
        ∃ virtualNode < vnodesPerPeer,
          hashVirtualNode blake3 peer virtualNode = position := by
  simp only [virtualNodes, List.mem_flatMap, List.mem_map, List.mem_range,
    Prod.mk.injEq]
  constructor
  · rintro ⟨owner, member, virtualNode, inRange, isPosition, isPeer⟩
    subst isPeer
    exact ⟨member, virtualNode, inRange, isPosition⟩
  · rintro ⟨member, virtualNode, inRange, isPosition⟩
    exact ⟨peer, member, virtualNode, inRange, isPosition, rfl⟩

/-- Virtual nodes of the remaining peers. -/
theorem virtualNodes_filter
    (blake3 : List UInt8 → Hash256)
    (vnodesPerPeer : Nat)
    (keep : NodeId → Bool)
    (peers : List NodeId) :
    virtualNodes blake3 vnodesPerPeer (peers.filter keep) =
      (virtualNodes blake3 vnodesPerPeer peers).filter
        fun node => keep node.2 := by
  induction peers with
  | nil =>
      rfl
  | cons peer rest inductionHypothesis =>
      unfold virtualNodes at inductionHypothesis ⊢
      cases kept : keep peer with
      | true =>
          simp [kept, inductionHypothesis, List.filter_map,
            Function.comp_def]
      | false =>
          simp [kept, inductionHypothesis, List.filter_map,
            Function.comp_def]

/-- Deleting peers from a circle deletes them from its clockwise sequence. -/
theorem clockwisePeers_filter
    (keep : NodeId → Bool)
    (circle : List (Nat × NodeId))
    (target : Nat) :
    clockwisePeers (circle.filter fun node => keep node.2) target =
      (clockwisePeers circle target).filter keep := by
  unfold clockwisePeers
  rw [clockwise_filter, ← eraseDups_filter, List.filter_map]
  rfl

/-- The clockwise sequence meets the owners of the circle. -/
theorem mem_clockwisePeers
    {circle : List (Nat × NodeId)}
    {target : Nat}
    {peer : NodeId} :
    peer ∈ clockwisePeers circle target ↔
      ∃ position, (position, peer) ∈ circle := by
  simp [clockwisePeers]

theorem nodup_clockwisePeers
    (circle : List (Nat × NodeId))
    (target : Nat) :
    (clockwisePeers circle target).Nodup :=
  nodup_eraseDups _

/-- Deleting before cutting keeps at least what deleting after cutting does. -/
theorem mem_take_filter
    (keep : NodeId → Bool)
    {peers : List NodeId}
    {count : Nat}
    {peer : NodeId}
    (member : peer ∈ peers.take count)
    (kept : keep peer = true) :
    peer ∈ (peers.filter keep).take count := by
  induction peers generalizing count with
  | nil =>
      simp at member
  | cons head rest inductionHypothesis =>
      cases count with
      | zero =>
          simp at member
      | succ count =>
          rw [List.take_succ_cons] at member
          cases headKept : keep head with
          | true =>
              rw [List.filter_cons_of_pos headKept, List.take_succ_cons]
              rcases List.mem_cons.mp member with isHead | inRest
              · rw [isHead]
                simp
              · exact List.mem_cons_of_mem _ (inductionHypothesis inRest)
          | false =>
              rw [List.filter_cons_of_neg (by simp [headKept])]
              rcases List.mem_cons.mp member with isHead | inRest
              · rw [isHead, headKept] at kept
                simp at kept
              · have shorter := inductionHypothesis inRest
                exact List.take_subset_take_left _ (Nat.le_succ count)
                  shorter

end Sequences

namespace Router

variable
  {blake3 : List UInt8 → Hash256}
  {before after : Router}

/-- Without collisions, deleting peers deletes their part of the circle. -/
theorem circle_eq_filter
    (builtBefore : before.Built blake3)
    (builtAfter : after.Built blake3)
    (sameVnodes : after.vnodesPerPeer = before.vnodesPerPeer)
    (distinct :
      DistinctHashes blake3 before.vnodesPerPeer before.peers)
    (keep : NodeId → Bool)
    (remaining : after.peers.Perm (before.peers.filter keep)) :
    after.circle = before.circle.filter fun node => keep node.2 := by
  have sameEntries :
      after.circle.Perm
        (before.circle.filter fun node => keep node.2) := by
    have perPeers :
        (virtualNodes blake3 before.vnodesPerPeer after.peers).Perm
          (virtualNodes blake3 before.vnodesPerPeer
            (before.peers.filter keep)) :=
      remaining.flatMap_right _
    rw [virtualNodes_filter] at perPeers
    have arranged := builtAfter.circle_perm
    rw [sameVnodes] at arranged
    exact
      (arranged.trans perPeers).trans
        (builtBefore.circle_perm.filter _).symm
  have distinctBefore : (before.circle.map Prod.fst).Nodup :=
    (builtBefore.circle_perm.map Prod.fst).nodup_iff.mpr distinct
  refine
    sorted_unique builtAfter.circle_sorted
      (builtBefore.circle_sorted.filter _) ?_ sameEntries
  refine (sameEntries.map Prod.fst).nodup_iff.mpr ?_
  exact distinctBefore.sublist (List.filter_sublist.map _)

/-- A route after a removal is cut from the old sequence of peers. -/
theorem route_eq_filter
    (builtBefore : before.Built blake3)
    (builtAfter : after.Built blake3)
    (sameVnodes : after.vnodesPerPeer = before.vnodesPerPeer)
    (distinct :
      DistinctHashes blake3 before.vnodesPerPeer before.peers)
    (keep : NodeId → Bool)
    (remaining : after.peers.Perm (before.peers.filter keep))
    (id : BlockId) :
    after.route id =
      .ofPicked
        (((clockwisePeers before.circle (hashBlock id)).filter keep).take
          after.want) := by
  rw [route_eq builtAfter,
    circle_eq_filter builtBefore builtAfter sameVnodes distinct keep
      remaining,
    clockwisePeers_filter]

/-- Only peers own virtual nodes. -/
theorem Built.mem_peers
    {router : Router}
    (built : router.Built blake3)
    {target : Nat}
    {peer : NodeId}
    (met : peer ∈ clockwisePeers router.circle target) :
    peer ∈ router.peers := by
  obtain ⟨position, onCircle⟩ := Lethe.mem_clockwisePeers.mp met
  rw [built.circle_perm.mem_iff, mem_virtualNodes] at onCircle
  exact onCircle.1

/-- The owners on the circle of a built ring are its peers. -/
theorem Built.mem_clockwisePeers
    {router : Router}
    (built : router.Built blake3)
    (someVnodes : 0 < router.vnodesPerPeer)
    {target : Nat}
    {peer : NodeId} :
    peer ∈ clockwisePeers router.circle target ↔
      peer ∈ router.peers := by
  constructor
  · exact built.mem_peers
  · intro member
    refine
      Lethe.mem_clockwisePeers.mpr ⟨hashVirtualNode blake3 peer 0, ?_⟩
    rw [built.circle_perm.mem_iff, mem_virtualNodes]
    exact ⟨member, 0, someVnodes, rfl⟩

/-- Clockwise from anywhere, every peer is met once. -/
theorem Built.length_clockwisePeers
    {router : Router}
    (built : router.Built blake3)
    (someVnodes : 0 < router.vnodesPerPeer)
    (distinctPeers : router.peers.Nodup)
    (target : Nat) :
    (clockwisePeers router.circle target).length =
      router.peers.length := by
  refine List.Perm.length_eq ?_
  rw [List.perm_ext_iff_of_nodup (nodup_clockwisePeers _ _) distinctPeers]
  intro peer
  exact built.mem_clockwisePeers someVnodes

/-- The members of a route are peers. -/
theorem Built.members_subset
    {router : Router}
    (built : router.Built blake3)
    (id : BlockId) :
    (router.route id).members ⊆ router.peers := by
  intro peer member
  rw [route_eq built, RouteResult.members_ofPicked] at member
  exact built.mem_peers (List.mem_of_mem_take member)

/-- The primary of a route is a peer. -/
theorem Built.primary_mem_peers
    {router : Router}
    (built : router.Built blake3)
    {id : BlockId}
    {primary : NodeId}
    (isPrimary : (router.route id).primary = some primary) :
    primary ∈ router.peers := by
  refine built.members_subset id ?_
  simp [RouteResult.members, isPrimary]

/-- On a ring with peers, every block has a primary. -/
theorem Built.exists_primary
    {router : Router}
    (built : router.Built blake3)
    (someVnodes : 0 < router.vnodesPerPeer)
    {peer : NodeId}
    (onRing : peer ∈ router.peers)
    (id : BlockId) :
    ∃ primary, (router.route id).primary = some primary := by
  have met :
      peer ∈ clockwisePeers router.circle (hashBlock id) :=
    (built.mem_clockwisePeers someVnodes).mpr onRing
  obtain ⟨count, isCount⟩ : ∃ count, router.want = count + 1 :=
    ⟨router.want - 1, by unfold want; omega⟩
  rw [route_eq built, isCount]
  cases isSequence : clockwisePeers router.circle (hashBlock id) with
  | nil =>
      rw [isSequence] at met
      simp at met
  | cons primary rest =>
      exact ⟨primary, rfl⟩

end Router

/--
Removing one peer cuts the route out of the old clockwise sequence without
that peer; so primaries other than it stay, and so do all surviving members.
-/
theorem route_minimal_disruption
    (blake3 : List UInt8 → Hash256)
    {before after : Router}
    (builtBefore : before.Built blake3)
    (builtAfter : after.Built blake3)
    (sameVnodes : after.vnodesPerPeer = before.vnodesPerPeer)
    (sameFactor : after.replicationFactor = before.replicationFactor)
    (distinct :
      DistinctHashes blake3 before.vnodesPerPeer before.peers)
    (removed : NodeId)
    (remaining :
      after.peers.Perm
        (before.peers.filter fun peer => decide (peer ≠ removed)))
    (id : BlockId) :
    after.route id =
        .ofPicked
          (((clockwisePeers before.circle (hashBlock id)).filter
            fun peer => decide (peer ≠ removed)).take
              (max 1 before.replicationFactor)) ∧
      ((before.route id).primary ≠ some removed →
        (after.route id).primary = (before.route id).primary) ∧
      ∀ node ∈ (before.route id).members,
        node ≠ removed →
        node ∈ (after.route id).members := by
  have sameWant : after.want = max 1 before.replicationFactor := by
    rw [Router.want, sameFactor]
  have routeAfter :=
    Router.route_eq_filter builtBefore builtAfter sameVnodes distinct _
      remaining id
  have routeBefore := Router.route_eq builtBefore id
  rw [sameWant] at routeAfter
  have wantBefore : before.want = max 1 before.replicationFactor :=
    rfl
  rw [wantBefore] at routeBefore
  generalize clockwisePeers before.circle (hashBlock id) = sequence
    at routeBefore routeAfter ⊢
  obtain ⟨count, isCount⟩ :
      ∃ count, max 1 before.replicationFactor = count + 1 :=
    ⟨max 1 before.replicationFactor - 1, by omega⟩
  rw [isCount] at routeBefore routeAfter ⊢
  refine ⟨routeAfter, ?_, ?_⟩
  · rw [routeBefore, routeAfter]
    cases sequence with
    | nil =>
        intro _
        rfl
    | cons primary rest =>
        intro survives
        have kept : primary ≠ removed := by
          intro same
          exact survives (by simp [RouteResult.ofPicked, same])
        simp [RouteResult.ofPicked, kept]
  · intro node member survives
    rw [routeBefore, RouteResult.members_ofPicked] at member
    rw [routeAfter, RouteResult.members_ofPicked]
    exact
      mem_take_filter (fun peer => decide (peer ≠ removed)) member
        (decide_eq_true survives)

/-! ## Three nodes with two virtual nodes each -/

/-- First node. -/
def nodeA : NodeId :=
  ⟨"node-a", by decide⟩

/-- Second node. -/
def nodeB : NodeId :=
  ⟨"node-b", by decide⟩

/-- Third node. -/
def nodeC : NodeId :=
  ⟨"node-c", by decide⟩

/-- BLAKE3 digests of the six ring keys. -/
def sampleDigests : List (List UInt8 × List UInt8) := [
  (ringKey nodeA 0,
    [ 221, 138, 97, 138, 95, 22, 141, 151, 226, 43, 235,
      116, 0, 166, 169, 7, 11, 44, 146, 250, 54, 8,
      61, 110, 48, 17, 234, 253, 3, 185, 245, 79 ]),
  (ringKey nodeA 1,
    [ 68, 29, 219, 30, 110, 150, 77, 68, 197, 8, 85,
      236, 60, 80, 177, 247, 146, 185, 93, 11, 242, 178,
      180, 39, 255, 137, 208, 54, 75, 26, 102, 166 ]),
  (ringKey nodeB 0,
    [ 46, 198, 94, 25, 159, 31, 170, 68, 197, 48, 101,
      230, 207, 151, 189, 77, 74, 220, 244, 56, 112, 46,
      168, 211, 174, 139, 235, 201, 15, 245, 230, 153 ]),
  (ringKey nodeB 1,
    [ 133, 36, 229, 70, 223, 175, 15, 116, 82, 167, 250,
      36, 55, 185, 114, 206, 68, 203, 93, 8, 226, 70,
      173, 218, 235, 234, 145, 234, 227, 5, 34, 7 ]),
  (ringKey nodeC 0,
    [ 187, 201, 40, 86, 212, 144, 219, 68, 11, 223, 226,
      218, 184, 197, 57, 228, 120, 205, 180, 167, 18, 149,
      2, 245, 252, 218, 214, 253, 72, 129, 226, 188 ]),
  (ringKey nodeC 1,
    [ 11, 83, 160, 82, 203, 130, 202, 0, 237, 83, 107,
      58, 204, 196, 137, 108, 7, 127, 31, 190, 177, 142,
      218, 97, 228, 235, 13, 168, 143, 148, 119, 26 ])]

/-- The hash function that a table of inputs and digests describes. -/
def digestTable
    (rows : List (List UInt8 × List UInt8))
    (input : List UInt8) :
    Hash256 :=
  match rows.find? fun row => row.1 = input ∧ row.2.length = 32 with
  | some row =>
      if length_eq : row.2.length = 32 then
        ⟨row.2, length_eq⟩
      else
        .fill 0
  | none => .fill 0

/-- A hash function that agrees with BLAKE3 on the six ring keys. -/
def sampleBlake3 : List UInt8 → Hash256 :=
  digestTable sampleDigests

/-- A ring of the given peers that keeps two copies of every block. -/
def sampleRouter
    (localNodeId : NodeId)
    (peers : List NodeId) :
    Router :=
  Router.setPeers sampleBlake3
    { localNodeId := localNodeId
      vnodesPerPeer := 2
      replicationFactor := 2
      peers := []
      ring := [] }
    peers

theorem sampleRouter_built
    (localNodeId : NodeId)
    (peers : List NodeId) :
    (sampleRouter localNodeId peers).Built sampleBlake3 :=
  Router.setPeers_built sampleBlake3 _ peers

/-- A block that the ring places just before a virtual node of the first node. -/
def sampleBlock : BlockId :=
  ⟨.fill 68, 0, 0, 0⟩

theorem route_minimal_disruption_sample :
    (sampleRouter nodeA [nodeA, nodeB, nodeC]).route
          sampleBlock =
        ⟨some nodeA, [nodeB]⟩ ∧
      (sampleRouter nodeA [nodeC, nodeA]).route sampleBlock =
        .ofPicked
          (((clockwisePeers
            (sampleRouter nodeA [nodeA, nodeB, nodeC]).circle
            (hashBlock sampleBlock)).filter
              fun peer => decide (peer ≠ nodeB)).take (max 1 2)) ∧
      ((sampleRouter nodeA [nodeC, nodeA]).route
        sampleBlock).primary = some nodeA :=
  have settled :=
    route_minimal_disruption sampleBlake3
      (sampleRouter_built nodeA [nodeA, nodeB, nodeC])
      (sampleRouter_built nodeA [nodeC, nodeA])
      rfl rfl (by decide +kernel) nodeB (by decide +kernel) sampleBlock
  ⟨by decide +kernel, settled.1, by decide +kernel⟩

end Lethe
