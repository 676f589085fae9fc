import Lethe.Types
import Lethe.Library.ClockwiseRing
import Lethe.Library.LittleEndian
import Mathlib.Data.List.Sort

namespace Lethe

open ClockwiseRing

/-!
# Server-side routing

Every peer owns a number of virtual nodes on a ring of 64-bit hashes.  A block
belongs to the first distinct peers met clockwise from its own hash.  The hash
function is a parameter of the development.

The ring is sorted by hash alone and the sort is not stable, so `Built` allows
any sorted arrangement of the entries; `setPeers` chooses one of them.
-/

/--
Names of cluster nodes.  The empty string is no name: the code uses it where
no node is meant.
-/
structure NodeId where
  name : String
  nonempty : name ≠ ""
  deriving DecidableEq, Repr

/-- The name that a node gets by default. -/
instance : Inhabited NodeId :=
  ⟨⟨"node0", by decide⟩⟩

/-- One virtual node: its hash and the index of its peer. -/
structure RingEntry where
  hash : Nat
  peerIdx : Nat
  deriving DecidableEq, Repr

/-- Owners of a block; the primary is missing when the ring is empty. -/
structure RouteResult where
  primary : Option NodeId := none
  replicas : List NodeId := []
  deriving DecidableEq, Repr

/-- A node's view of the ring. -/
structure Router where
  localNodeId : NodeId
  vnodesPerPeer : Nat
  replicationFactor : Nat
  peers : List NodeId
  ring : List RingEntry
  deriving DecidableEq, Repr

/-- The first eight bytes of a digest as a little-endian number. -/
def leU64FromDigest
    (digest : Hash256) :
    Nat :=
  LittleEndian.decode (digest.bytes.take 8)

/-- Position of a block on the ring: the head of its content hash. -/
def hashBlock
    (id : BlockId) :
    Nat :=
  leU64FromDigest id.hash

/-- The bytes hashed for one virtual node of a peer. -/
def ringKey
    (peer : NodeId)
    (virtualNode : Nat) :
    List UInt8 :=
  (peer.name ++ "#" ++ toString virtualNode).toUTF8.toList

namespace RouteResult

/-- Split the picked peers into the primary and the replicas. -/
def ofPicked : List NodeId → RouteResult
  | [] => {}
  | primary :: replicas => ⟨some primary, replicas⟩

/-- The primary followed by the replicas. -/
def members
    (route : RouteResult) :
    List NodeId :=
  route.primary.toList ++ route.replicas

@[simp] theorem members_ofPicked
    (picked : List NodeId) :
    (ofPicked picked).members = picked := by
  cases picked with
  | nil =>
      rfl
  | cons primary replicas =>
      rfl

end RouteResult

section Ring

variable (blake3 : List UInt8 → Hash256)

/-- Position of one virtual node of a peer. -/
def hashVirtualNode
    (peer : NodeId)
    (virtualNode : Nat) :
    Nat :=
  leU64FromDigest (blake3 (ringKey peer virtualNode))

/-- The unsorted ring entries of a list of peers. -/
def ringEntries
    (vnodesPerPeer : Nat)
    (peers : List NodeId) :
    List RingEntry :=
  peers.zipIdx.flatMap fun indexed =>
    (List.range vnodesPerPeer).map fun virtualNode =>
      ⟨hashVirtualNode blake3 indexed.1 virtualNode, indexed.2⟩

/-- Replace the peers and rebuild the ring. -/
def Router.setPeers
    (router : Router)
    (peerIds : List NodeId) :
    Router :=
  { router with
    peers := peerIds
    ring :=
      (ringEntries blake3 router.vnodesPerPeer peerIds).insertionSort
        fun left right => left.hash ≤ right.hash }

/-- The ring is some arrangement by hash of the peers' entries. -/
structure Router.Built
    (router : Router) : Prop where
  sorted :
    router.ring.Pairwise fun left right => left.hash ≤ right.hash
  entries :
    router.ring.Perm
      (ringEntries blake3 router.vnodesPerPeer router.peers)

/-- Rebuilding the ring sorts the entries of the new peers. -/
theorem Router.setPeers_built
    (router : Router)
    (peerIds : List NodeId) :
    (router.setPeers blake3 peerIds).Built blake3 := by
  have : Std.Total fun left right : RingEntry => left.hash ≤ right.hash :=
    ⟨fun left right => Nat.le_total left.hash right.hash⟩
  have : IsTrans RingEntry fun left right => left.hash ≤ right.hash :=
    ⟨fun _ _ _ => Nat.le_trans⟩
  exact
    ⟨List.pairwise_insertionSort _ _, List.perm_insertionSort _ _⟩

end Ring

namespace Router

/-- The midpoint of the server's search stays inside the interval. -/
theorem midpoint_inside
    {low high : Nat}
    (active : low < high) :
    low ≤ low + (high - low) / 2 ∧ low + (high - low) / 2 < high := by
  omega

/-- The entry at an index lies before the target. -/
def entryBelow
    (router : Router)
    (target index : Nat) :
    Bool :=
  match router.ring[index]? with
  | some entry => entry.hash < target
  | none => false

/-- Index of the first entry from the target on, with wraparound. -/
def startIndex
    (router : Router)
    (target : Nat) :
    Nat :=
  bisect (fun low high => low + (high - low) / 2) midpoint_inside
    (router.entryBelow target) 0 router.ring.length % router.ring.length

/-- Name of the peer that owns an entry. -/
def peerOf
    (router : Router)
    (entry : RingEntry) :
    NodeId :=
  (router.peers[entry.peerIdx]?).getD default

/-- Name of the peer met at a ring position. -/
def peerAt
    (router : Router)
    (index : Nat) :
    NodeId :=
  ((router.ring[index]?).map router.peerOf).getD default

/-- How many distinct peers a route asks for. -/
def want
    (router : Router) :
    Nat :=
  max 1 router.replicationFactor

/-- Walk clockwise and pick the next distinct peers. -/
def picked
    (router : Router)
    (target : Nat) :
    List NodeId :=
  pick router.want []
    ((List.range router.ring.length).map fun step =>
      router.peerAt ((router.startIndex target + step) % router.ring.length))

/-- The owners of a block. -/
def route
    (router : Router)
    (id : BlockId) :
    RouteResult :=
  if router.ring = [] ∨ router.peers = [] then
    {}
  else
    .ofPicked (router.picked (hashBlock id))

/-- The members of a route are distinct. -/
theorem route_members_nodup
    (router : Router)
    (id : BlockId) :
    (router.route id).members.Nodup := by
  unfold route
  split
  · exact List.nodup_nil
  · rw [RouteResult.members_ofPicked, picked, pick_nil]
    exact (nodup_eraseDups _).sublist (List.take_sublist _ _)

/-! ## Routes as clockwise walks -/

/-- The ring with the owners' names in place of their indices. -/
def circle
    (router : Router) :
    List (Nat × NodeId) :=
  router.ring.map fun entry => (entry.hash, router.peerOf entry)

end Router

/-- The distinct peers met clockwise from a target. -/
def clockwisePeers
    (circle : List (Nat × NodeId))
    (target : Nat) :
    List NodeId :=
  ((clockwise Prod.fst target circle).map Prod.snd).eraseDups

/-- The first distinct peer is the first peer. -/
theorem head?_clockwisePeers
    (circle : List (Nat × NodeId))
    (target : Nat) :
    (clockwisePeers circle target).head? =
      (clockwise Prod.fst target circle).head?.map Prod.snd := by
  unfold clockwisePeers
  cases clockwise Prod.fst target circle with
  | nil =>
      rfl
  | cons first rest =>
      simp [List.eraseDups_cons]

/-- The named virtual nodes of a list of peers. -/
def virtualNodes
    (blake3 : List UInt8 → Hash256)
    (vnodesPerPeer : Nat)
    (peers : List NodeId) :
    List (Nat × NodeId) :=
  peers.flatMap fun peer =>
    (List.range vnodesPerPeer).map fun virtualNode =>
      (hashVirtualNode blake3 peer virtualNode, peer)

/-- No two virtual nodes share a position. -/
def DistinctHashes
    (blake3 : List UInt8 → Hash256)
    (vnodesPerPeer : Nat)
    (peers : List NodeId) : Prop :=
  ((virtualNodes blake3 vnodesPerPeer peers).map Prod.fst).Nodup

instance
    (blake3 : List UInt8 → Hash256)
    (vnodesPerPeer : Nat)
    (peers : List NodeId) :
    Decidable (DistinctHashes blake3 vnodesPerPeer peers) :=
  inferInstanceAs (Decidable (List.Nodup _))

namespace Router

variable
  {blake3 : List UInt8 → Hash256}
  {router : Router}

/-- Looking up the names turns the ring entries into the virtual nodes. -/
theorem ringEntries_named
    (vnodesPerPeer : Nat)
    (peers : List NodeId) :
    (ringEntries blake3 vnodesPerPeer peers).map
        (fun entry => (entry.hash, (peers[entry.peerIdx]?).getD default)) =
      virtualNodes blake3 vnodesPerPeer peers := by
  have perPeer :
      ∀ indexed ∈ peers.zipIdx,
        ((List.range vnodesPerPeer).map fun virtualNode =>
            (hashVirtualNode blake3 indexed.1 virtualNode,
              (peers[indexed.2]?).getD default)) =
          (List.range vnodesPerPeer).map fun virtualNode =>
            (hashVirtualNode blake3 indexed.1 virtualNode, indexed.1) := by
    rintro ⟨peer, index⟩ member
    have found : peers[index]? = some peer :=
      List.mem_zipIdx_iff_getElem?.mp member
    simp [found]
  unfold ringEntries virtualNodes
  rw [List.map_flatMap]
  simp only [List.map_map, Function.comp_def]
  rw [List.flatMap_congr perPeer]
  conv_rhs =>
    rw [← List.zipIdx_map_fst 0 peers, List.flatMap_map]

/-- The circle of a built ring arranges the virtual nodes of its peers. -/
theorem Built.circle_perm
    (built : router.Built blake3) :
    router.circle.Perm
      (virtualNodes blake3 router.vnodesPerPeer router.peers) := by
  rw [← ringEntries_named]
  exact built.entries.map _

/-- The circle of a built ring is sorted by position. -/
theorem Built.circle_sorted
    (built : router.Built blake3) :
    router.circle.Pairwise fun left right => left.1 ≤ right.1 := by
  unfold circle
  rw [List.pairwise_map]
  exact built.sorted

/-- A built ring without peers is empty. -/
theorem Built.ring_eq_nil
    (built : router.Built blake3)
    (noPeers : router.peers = []) :
    router.ring = [] := by
  have entries := built.entries
  rw [noPeers] at entries
  exact entries.eq_nil

/-- Indexing modulo the length from a start index walks the rotated ring. -/
theorem map_peerAt_eq_rotate
    (router : Router)
    (start : Nat) :
    ((List.range router.ring.length).map fun step =>
        router.peerAt ((start + step) % router.ring.length)) =
      (router.ring.rotate start).map router.peerOf := by
  apply List.ext_getElem
  · simp
  · intro index bound _
    have inside : index < router.ring.length := by
      simpa using bound
    have wrapped :
        (start + index) % router.ring.length < router.ring.length :=
      Nat.mod_lt _ (by omega)
    simp [peerAt, List.getElem_rotate, Nat.add_comm index start,
      List.getElem?_eq_getElem wrapped]

/-- The search starts the walk at the target. -/
theorem rotate_startIndex
    (built : router.Built blake3)
    (target : Nat) :
    router.ring.rotate (router.startIndex target) =
      clockwise RingEntry.hash target router.ring := by
  refine rotate_bisect_eq_clockwise built.sorted ?_
  intro query bound
  simp [entryBelow, List.getElem?_eq_getElem bound]

/-- The picked peers are the first distinct ones met clockwise. -/
theorem picked_eq
    (built : router.Built blake3)
    (target : Nat) :
    router.picked target =
      (clockwisePeers router.circle target).take router.want := by
  have names :
      (clockwise RingEntry.hash target router.ring).map router.peerOf =
        (clockwise Prod.fst target router.circle).map Prod.snd := by
    rw [circle, ← clockwise_map Prod.fst target
      (fun entry : RingEntry => (entry.hash, router.peerOf entry)),
      List.map_map]
    rfl
  rw [picked, map_peerAt_eq_rotate, rotate_startIndex built, names,
    pick_nil]
  rfl

/-- A route lists the first distinct peers met clockwise from the block. -/
theorem route_eq
    (built : router.Built blake3)
    (id : BlockId) :
    router.route id =
      .ofPicked
        ((clockwisePeers router.circle (hashBlock id)).take
          router.want) := by
  unfold route
  split
  · next empty =>
      have noEntries : router.ring = [] := by
        rcases empty with noEntries | noPeers
        · exact noEntries
        · exact built.ring_eq_nil noPeers
      simp [circle, noEntries, clockwisePeers, clockwise,
        RouteResult.ofPicked]
  · rw [picked_eq built]

/-- The primary is the first peer met clockwise. -/
theorem primary_eq_head
    (built : router.Built blake3)
    (id : BlockId) :
    (router.route id).primary =
      (clockwise Prod.fst (hashBlock id) router.circle).head?.map
        Prod.snd := by
  obtain ⟨count, isCount⟩ : ∃ count, router.want = count + 1 :=
    ⟨router.want - 1, by unfold want; omega⟩
  rw [route_eq built, isCount, ← head?_clockwisePeers]
  cases clockwisePeers router.circle (hashBlock id) with
  | nil =>
      rfl
  | cons primary rest =>
      rfl

end Router

end Lethe
