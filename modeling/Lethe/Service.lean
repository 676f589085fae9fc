import Lethe.Client
import Lethe.Cluster

namespace Lethe

/-!
# Remote calls to cache servers

The handlers turn the answers of a server into messages: local and remote hits
both become hits of the response.  Calls reach a server through its address
and may fail on the way there or on the way back.
-/

/-- The hit that the handler reports for an entry, if any. -/
def LookupEntry.hit?
    (entry : LookupEntry)
    (server : NodeId) :
    Option LookupHit :=
  match entry.found with
  | .localHit tier _ => some ⟨entry.id, some server, tier⟩
  | .remoteHit remoteNode => some ⟨entry.id, some remoteNode, .dram⟩
  | .miss => none

namespace CacheNode

/-- Answer a batched lookup. -/
def serveLookup
    (node : CacheNode)
    (ids : List BlockId) :
    LookupResponse × CacheNode :=
  let answered := node.lookup ids
  (⟨answered.1.filterMap fun entry => entry.hit? node.nodeId,
      (answered.1.filter fun entry => entry.found = .miss).map
        LookupEntry.id⟩,
    answered.2)

/-- Answer a fetch from the local store. -/
def serveFetch
    (node : CacheNode)
    (id : BlockId) :
    FetchResponse × CacheNode :=
  let answered := node.fetchLocal id
  match answered.1 with
  | some found => (⟨true, found.1⟩, answered.2)
  | none => (⟨false, []⟩, answered.2)

end CacheNode

/-- What can go wrong with one attempt of a remote call. -/
inductive RpcFault where
  | requestLost
  | responseLost
  | refused
  deriving DecidableEq

/-- Servers behind a network; the faults of coming attempts are fixed. -/
structure ServedCluster where
  cluster : Cluster
  faults : List (Option RpcFault)

namespace ServedCluster

/-- One attempt of a call that a handler answers; nobody may listen there. -/
def attempt
    {Response : Type}
    (handler : CacheNode → Response × CacheNode)
    (listening : Option NodeId)
    (world : ServedCluster) :
    RpcOutcome Response × ServedCluster :=
  match listening with
  | none => (.retryable, { world with faults := world.faults.tail })
  | some name =>
      let answered := handler (world.cluster.nodes name)
      let served : ServedCluster :=
        ⟨world.cluster.update name answered.2, world.faults.tail⟩
      match world.faults.head?.join with
      | none => (.ok answered.1, served)
      | some .requestLost =>
          (.retryable, { world with faults := world.faults.tail })
      | some .responseLost => (.retryable, served)
      | some .refused =>
          (.failed, { world with faults := world.faults.tail })

/-- The network of servers that listen at the given addresses. -/
def network
    (listening : String → Option NodeId) :
    Network ServedCluster where
  lookup := fun address ids =>
    attempt (fun node => node.serveLookup ids) (listening address)
  fetch := fun address id =>
    attempt (fun node => node.serveFetch id) (listening address)

end ServedCluster

end Lethe
