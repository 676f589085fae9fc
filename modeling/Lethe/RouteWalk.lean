import Lethe.RoutingStability

namespace Lethe

open ClockwiseRing

/-!
# The walk of a route

`routeChecked` follows the code of a route index by index and gives up where
the code would read outside the ring or the peers.  On a built ring it never
does, and the route is the list of the first distinct peers met clockwise from
the block's position.
-/

namespace Router

/-- The search for the first entry from the target on. -/
def searchChecked
    (ring : List RingEntry)
    (target low high : Nat) :
    Option Nat :=
  if low < high then
    match ring[low + (high - low) / 2]? with
    | none => none
    | some entry =>
        if entry.hash < target then
          searchChecked ring target (low + (high - low) / 2 + 1) high
        else
          searchChecked ring target low (low + (high - low) / 2)
  else
    some low
termination_by high - low

/-- The walk from an index, with the peers picked so far. -/
def walkChecked
    (router : Router)
    (index : Nat) :
    Nat → Nat → List NodeId → Option (List NodeId)
  | 0, _, picked => some picked
  | left + 1, step, picked =>
      if picked.length < router.want then
        match router.ring[(index + step) % router.ring.length]? with
        | none => none
        | some entry =>
            match router.peers[entry.peerIdx]? with
            | none => none
            | some peer =>
                router.walkChecked index left (step + 1)
                  (if peer ∈ picked then picked else picked ++ [peer])
      else
        some picked

/-- The owners of a block, or nothing if an index is out of range. -/
def routeChecked
    (router : Router)
    (id : BlockId) :
    Option RouteResult :=
  if router.ring = [] ∨ router.peers = [] then
    some {}
  else
    match searchChecked router.ring (hashBlock id) 0 router.ring.length with
    | none => none
    | some low =>
        (router.walkChecked (low % router.ring.length) router.ring.length 0
          []).map .ofPicked

/-! ## No index is out of range -/

/-- The search reads entries of the ring only. -/
theorem searchChecked_eq
    (router : Router)
    (target low high : Nat)
    (inside : high ≤ router.ring.length) :
    searchChecked router.ring target low high =
      some
        (bisect (fun low high => low + (high - low) / 2) midpoint_inside
          (router.entryBelow target) low high) := by
  rw [searchChecked, bisect]
  split
  · next active =>
      have bounds := midpoint_inside active
      have found :=
        List.getElem?_eq_getElem
          (show low + (high - low) / 2 < router.ring.length by omega)
      rw [entryBelow, found]
      dsimp only
      split
      · next below =>
          rw [if_pos (by simpa using below)]
          exact router.searchChecked_eq target _ high inside
      · next notBelow =>
          rw [if_neg (by simpa using notBelow)]
          exact router.searchChecked_eq target low _ (by omega)
  · rfl
termination_by high - low

variable
  {blake3 : List UInt8 → Hash256}
  {router : Router}

/-- Every entry of a built ring names a peer. -/
theorem Built.peerIdx_lt
    (built : router.Built blake3)
    {entry : RingEntry}
    (member : entry ∈ router.ring) :
    entry.peerIdx < router.peers.length := by
  have listed := built.entries.mem_iff.mp member
  simp only [ringEntries, List.mem_flatMap, List.mem_map] at listed
  obtain ⟨⟨peer, index⟩, indexed, virtualNode, _, isEntry⟩ := listed
  subst isEntry
  exact
    (List.getElem?_eq_some_iff.mp
      (List.mem_zipIdx_iff_getElem?.mp indexed)).1

/-- The peer at a position of a built ring. -/
theorem Built.peerAt_eq_some
    (built : router.Built blake3)
    {index : Nat}
    {entry : RingEntry}
    (found : router.ring[index]? = some entry) :
    router.peers[entry.peerIdx]? = some (router.peerAt index) := by
  have bound := built.peerIdx_lt (List.mem_of_getElem? found)
  simp [peerAt, peerOf, found, List.getElem?_eq_getElem bound]

/-- The walk reads entries of the ring and peers only. -/
theorem Built.walkChecked_eq
    (built : router.Built blake3)
    (nonempty : router.ring ≠ [])
    (index left step : Nat)
    (picked : List NodeId) :
    router.walkChecked index left step picked =
      some
        (pick router.want picked
          ((List.range left).map fun offset =>
            router.peerAt
              ((index + (step + offset)) % router.ring.length))) := by
  induction left generalizing step picked with
  | zero =>
      rfl
  | succ left inductionHypothesis =>
      have wrapped :
          (index + step) % router.ring.length < router.ring.length :=
        Nat.mod_lt _ (List.length_pos_of_ne_nil nonempty)
      have found := List.getElem?_eq_getElem wrapped
      rw [List.range_succ_eq_map, List.map_cons, List.map_map, pick,
        walkChecked, found]
      dsimp only
      rw [built.peerAt_eq_some found]
      dsimp only
      split
      · rw [inductionHypothesis]
        simp only [Function.comp_def, Nat.succ_eq_add_one,
          Nat.add_assoc, Nat.add_comm 1, Nat.add_zero]
      · rfl

/-- On a built ring the code of a route never reads out of range. -/
theorem Built.routeChecked_eq
    (built : router.Built blake3)
    (id : BlockId) :
    router.routeChecked id = some (router.route id) := by
  unfold routeChecked route
  split
  · rfl
  · next someEntry =>
      have nonempty : router.ring ≠ [] :=
        fun empty => someEntry (Or.inl empty)
      rw [router.searchChecked_eq _ _ _ (Nat.le_refl _)]
      dsimp only
      rw [built.walkChecked_eq nonempty]
      simp only [Nat.zero_add, Option.map_some]
      rfl

/-! ## The first distinct peers -/

/-- The peers in the order in which the walk of a block meets them. -/
def metPeers
    (router : Router)
    (id : BlockId) :
    List NodeId :=
  let first :=
    router.circle.findIdx fun entry => hashBlock id ≤ entry.1
  (router.circle.drop first ++ router.circle.take first).map Prod.snd

/-- How many owners a block has. -/
def ownerCount
    (router : Router) :
    Nat :=
  min (max 1 router.replicationFactor) router.peers.eraseDups.length

/-- The clockwise walk starts at the first entry from the position on. -/
theorem Built.clockwisePeers_eq
    (built : router.Built blake3)
    (id : BlockId) :
    clockwisePeers router.circle (hashBlock id) =
      (router.metPeers id).eraseDups := by
  rw [clockwisePeers, clockwise_eq_drop_append_take built.circle_sorted]
  rfl

/-- Every peer is met once, however often it is listed. -/
theorem Built.length_distinct_peers
    (built : router.Built blake3)
    (someVnodes : 0 < router.vnodesPerPeer)
    (target : Nat) :
    (clockwisePeers router.circle target).length =
      router.peers.eraseDups.length := by
  refine List.Perm.length_eq ?_
  rw [List.perm_ext_iff_of_nodup (nodup_clockwisePeers _ _)
    (nodup_eraseDups _)]
  intro peer
  rw [built.mem_clockwisePeers someVnodes, List.mem_eraseDups]

/-- A route has as many members as it can. -/
theorem Built.members_eq
    (built : router.Built blake3)
    (someVnodes : 0 < router.vnodesPerPeer)
    (id : BlockId) :
    (router.route id).members =
        (router.metPeers id).eraseDups.take router.ownerCount ∧
      (router.route id).members.length = router.ownerCount := by
  have met := built.length_distinct_peers someVnodes (hashBlock id)
  rw [built.clockwisePeers_eq] at met
  rw [route_eq built, RouteResult.members_ofPicked,
    built.clockwisePeers_eq]
  constructor
  · rw [ownerCount, want, ← met, List.take_eq_take_iff]
    omega
  · rw [List.length_take, met]
    rfl

/--
A route never reads out of range.  It is empty exactly if there are no peers or
no virtual nodes; otherwise it lists the first distinct peers met clockwise
from the block's position, as many as asked for and available.
-/
theorem route_lists_clockwise_successors
    (built : router.Built blake3)
    (id : BlockId) :
    ∃ result,
      router.routeChecked id = some result ∧
        (result = {} ↔
          router.peers = [] ∨ router.vnodesPerPeer = 0) ∧
        (router.peers ≠ [] →
          router.vnodesPerPeer ≠ 0 →
          result.members.length = router.ownerCount ∧
            result.members.Nodup ∧
            result.members =
              (router.metPeers id).eraseDups.take router.ownerCount) := by
  refine ⟨router.route id, built.routeChecked_eq id, ?_, ?_⟩
  · constructor
    · intro empty
      by_contra some
      rw [not_or] at some
      obtain ⟨_, size⟩ :=
        built.members_eq (Nat.pos_of_ne_zero some.2) id
      rw [empty] at size
      have distinct : router.peers.eraseDups ≠ [] := by
        intro noneLeft
        obtain ⟨peer, member⟩ := List.exists_mem_of_ne_nil _ some.1
        rw [← List.mem_eraseDups, noneLeft] at member
        simp at member
      have positive := List.length_pos_of_ne_nil distinct
      simp only [RouteResult.members, Option.toList_none,
        List.append_nil, List.length_nil, ownerCount] at size
      omega
    · intro none
      have noEntries : router.ring = [] := by
        rcases none with noPeers | noVnodes
        · exact built.ring_eq_nil noPeers
        · have entries := built.entries
          have noneListed :
              ringEntries blake3 router.vnodesPerPeer router.peers = [] := by
            rw [noVnodes]
            exact List.flatMap_eq_nil_iff.mpr fun _ _ => rfl
          rw [noneListed] at entries
          exact entries.eq_nil
      rw [route, if_pos (Or.inl noEntries)]
  · intro _ someVnodes
    obtain ⟨listed, size⟩ :=
      built.members_eq (Nat.pos_of_ne_zero someVnodes) id
    exact ⟨size, router.route_members_nodup id, listed⟩

/-- A ring that lists one of three nodes twice. -/
def repeatingRouter : Router :=
  sampleRouter nodeA [nodeA, nodeB, nodeC, nodeB]

/-- Two of the nodes own the block. -/
theorem route_lists_clockwise_successors_repeating :
    repeatingRouter.routeChecked sampleBlock =
        some ⟨some nodeA, [nodeB]⟩ ∧
      ∃ result,
        repeatingRouter.routeChecked sampleBlock = some result ∧
          result.members.length = 2 ∧
          result.members.Nodup := by
  refine ⟨by decide +kernel, ?_⟩
  have built : repeatingRouter.Built sampleBlake3 :=
    setPeers_built sampleBlake3 _ _
  obtain ⟨result, isResult, _, listed⟩ :=
    route_lists_clockwise_successors built sampleBlock
  obtain ⟨size, distinct, _⟩ := listed (by decide) (by decide)
  exact ⟨result, isResult, size, distinct⟩

end Router

end Lethe
