import Lethe.HashRing
import Mathlib.Data.List.AList

namespace Lethe

/-!
# The Python client

The client groups looked-up blocks by the node that its own ring names and
sends one batched request per group, retrying a few times.  A hit that names a
node is followed by a fetch from that node; its bytes are recorded beside the
hit, which stays in the result whether or not the fetch succeeds.

The network is a parameter: a function for each remote call that takes and
returns the state of the world, so that calls may change the servers.
-/

/-- What one attempt of a remote call gives. -/
inductive RpcOutcome (Response : Type) where
  | ok (response : Response)
  | retryable
  | failed

/-- A found block, with the node said to have it. -/
structure LookupHit where
  blockId : BlockId
  sourceNode : Option NodeId
  tier : Tier
  deriving DecidableEq

/-- A server's answer to a batched lookup. -/
structure LookupResponse where
  hits : List LookupHit
  misses : List BlockId
  deriving DecidableEq

/-- A server's answer to a fetch. -/
structure FetchResponse where
  found : Bool
  kvData : List UInt8
  deriving DecidableEq

/-- Remote calls to the server at an address. -/
structure Network (World : Type) where
  lookup :
    String → List BlockId → World → RpcOutcome LookupResponse × World
  fetch : String → BlockId → World → RpcOutcome FetchResponse × World

/-- How often a remote call is tried. -/
def maxAttempts : Nat :=
  3

/-- Try a remote call, again after errors that may pass. -/
def callWithRetry
    {World Response : Type}
    (rpc : World → RpcOutcome Response × World) :
    Nat → World → Option Response × World
  | 0, world => (none, world)
  | attempts + 1, world =>
      match rpc world with
      | (.ok response, after) => (some response, after)
      | (.retryable, after) => callWithRetry rpc attempts after
      | (.failed, after) => (none, after)

/-- What a lookup of the client returns. -/
structure LookupResult where
  hits : List LookupHit := []
  misses : List BlockId := []
  fetched : AList (fun _ : Hash256 => Option (List UInt8)) := ∅

/-- Virtual nodes of each peer on the client's ring. -/
def clientVnodesPerPeer : Nat :=
  128

/-- Addresses known to a client, and its ring if it has peers. -/
structure LetheClient where
  primaryAddress : String
  peers : AList (fun _ : NodeId => String)
  ring : Option HashRing

namespace LetheClient

/-- A client of the given servers. -/
def create
    (blake3 : List UInt8 → Hash256)
    (primaryAddress : String)
    (peers : AList (fun _ : NodeId => String)) :
    LetheClient where
  primaryAddress := primaryAddress
  peers := peers
  ring :=
    if peers.keys = [] then
      none
    else
      some (HashRing.setPeers blake3 clientVnodesPerPeer peers.keys)

/-- The address used when a call may name one. -/
def stub
    (client : LetheClient)
    (address : Option String) :
    String :=
  match address.filter fun given => given ≠ "" with
  | some given => given
  | none => client.primaryAddress

/-- The address of a node, if the client knows one. -/
def stubForNode
    (client : LetheClient)
    (node : NodeId) :
    Option String :=
  (client.peers.lookup node).filter fun address => address ≠ ""

/--
The node to ask for a block, if the ring names a known one.  Asking the ring
for one owner takes one step of its walk.
-/
def primaryNode
    (client : LetheClient)
    (id : BlockId) :
    Option NodeId := do
  let ring ← client.ring
  let routed ← ring.route 1 id.hash 1
  routed.head?.filter fun node => node ∈ client.peers

/-- Add a block to the group of its key, or to a new last group. -/
def addToGroup
    (key : Option NodeId)
    (id : BlockId) :
    List (Option NodeId × List BlockId) →
      List (Option NodeId × List BlockId)
  | [] => [(key, [id])]
  | (other, batch) :: rest =>
      if other = key then
        (other, batch ++ [id]) :: rest
      else
        (other, batch) :: addToGroup key id rest

/-- The blocks by the node to ask, in order of first appearance. -/
def groups
    (client : LetheClient)
    (ids : List BlockId) :
    List (Option NodeId × List BlockId) :=
  ids.foldl (fun grouped id => addToGroup (client.primaryNode id) id grouped)
    []

section Calls

variable
  {World : Type}
  (network : Network World)
  (client : LetheClient)

/-- Pull the bytes of one block. -/
def fetch
    (id : BlockId)
    (address : Option String)
    (world : World) :
    Option (List UInt8) × World :=
  let called :=
    callWithRetry (network.fetch (client.stub address) id) maxAttempts world
  match called.1 with
  | some response =>
      if response.found then
        (some response.kvData, called.2)
      else
        (none, called.2)
  | none => (none, called.2)

/-- Record the bytes of a block from the node that a hit names. -/
def fetchIntoResult
    (id : BlockId)
    (sourceNode : NodeId)
    (result : LookupResult)
    (world : World) :
    LookupResult × World :=
  match client.peers.lookup sourceNode with
  | none =>
      ({ result with fetched := result.fetched.insert id.hash none }, world)
  | some address =>
      let pulled := client.fetch network id (some address) world
      ({ result with fetched := result.fetched.insert id.hash pulled.1 },
        pulled.2)

/-- Take over one hit, and fetch it if it names a node. -/
def noteHit
    (state : LookupResult × World)
    (hit : LookupHit) :
    LookupResult × World :=
  let result := { state.1 with hits := state.1.hits ++ [hit] }
  match hit.sourceNode with
  | some sourceNode =>
      client.fetchIntoResult network hit.blockId sourceNode result state.2
  | none => (result, state.2)

/-- Take over misses. -/
def noteMisses
    (state : LookupResult × World)
    (ids : List BlockId) :
    LookupResult × World :=
  ({ state.1 with misses := state.1.misses ++ ids }, state.2)

/-- Ask for one group; without an answer all its blocks are misses. -/
def lookupGroup
    (address : Option String)
    (state : LookupResult × World)
    (group : Option NodeId × List BlockId) :
    LookupResult × World :=
  let target :=
    match group.1 with
    | some node => client.stubForNode node
    | none => some (client.stub address)
  match target with
  | none => noteMisses state group.2
  | some server =>
      let called :=
        callWithRetry (network.lookup server group.2) maxAttempts state.2
      match called.1 with
      | none => noteMisses (state.1, called.2) group.2
      | some response =>
          noteMisses
            (response.hits.foldl (client.noteHit network)
              (state.1, called.2))
            response.misses

/-- Resolve blocks against the cluster. -/
def lookup
    (ids : List BlockId)
    (address : Option String)
    (world : World) :
    LookupResult × World :=
  (client.groups ids).foldl (client.lookupGroup network address)
    ({}, world)

end Calls

/-! ## Hits of the result -/

section Hits

variable
  {World : Type}
  {network : Network World}
  {client : LetheClient}

/-- A fetch leaves the hits alone. -/
theorem fetchIntoResult_hits
    (id : BlockId)
    (sourceNode : NodeId)
    (result : LookupResult)
    (world : World) :
    (client.fetchIntoResult network id sourceNode result world).1.hits =
      result.hits := by
  unfold fetchIntoResult
  split
  · rfl
  · rfl

/-- Every hit of a response stays in the result. -/
theorem foldl_noteHit_hits
    (hits : List LookupHit)
    (state : LookupResult × World) :
    (hits.foldl (client.noteHit network) state).1.hits =
      state.1.hits ++ hits := by
  induction hits generalizing state with
  | nil =>
      simp
  | cons hit rest inductionHypothesis =>
      have noted :
          (client.noteHit network state hit).1.hits =
            state.1.hits ++ [hit] := by
        unfold noteHit
        split
        · rw [fetchIntoResult_hits]
        · rfl
      rw [List.foldl_cons, inductionHypothesis, noted]
      simp

/-- Without a ring, all blocks go to the primary address in one request. -/
theorem groups_of_no_ring
    (noRing : client.ring = none)
    {ids : List BlockId}
    (someIds : ids ≠ []) :
    client.groups ids = [(none, ids)] := by
  have noPrimary (id : BlockId) : client.primaryNode id = none := by
    simp [primaryNode, noRing]
  have grows (earlier later : List BlockId) :
      later.foldl
          (fun grouped id =>
            addToGroup (client.primaryNode id) id grouped)
          [(none, earlier)] =
        [(none, earlier ++ later)] := by
    induction later generalizing earlier with
    | nil =>
        simp
    | cons id rest inductionHypothesis =>
        rw [List.foldl_cons, noPrimary, addToGroup, if_pos rfl,
          inductionHypothesis, List.append_assoc]
        rfl
  cases ids with
  | nil =>
      contradiction
  | cons id rest =>
      rw [groups, List.foldl_cons, noPrimary]
      exact grows [id] rest

/-- The hits of a client without a ring are those of the one response. -/
theorem lookup_hits_of_no_ring
    (network : Network World)
    (noRing : client.ring = none)
    {ids : List BlockId}
    (someIds : ids ≠ [])
    (address : Option String)
    (world : World) :
    (client.lookup network ids address world).1.hits =
      ((callWithRetry (network.lookup (client.stub address) ids) maxAttempts
        world).1.map LookupResponse.hits).getD [] := by
  rw [lookup, groups_of_no_ring noRing someIds, List.foldl_cons,
    List.foldl_nil, lookupGroup]
  dsimp only
  split
  · next unanswered =>
      rw [unanswered]
      rfl
  · next response answered =>
      rw [answered]
      exact foldl_noteHit_hits response.hits _

end Hits

end LetheClient

end Lethe
