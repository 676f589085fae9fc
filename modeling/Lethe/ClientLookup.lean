import Lethe.Service
import Lethe.Library.InsertionDict

namespace Lethe

/-!
# What a lookup of the client returns

The client asks every primary once, apart from retries, and every block that it
is asked for ends up among the hits or the misses of the result exactly once.

A hit that names a node is fetched from there at once.  The outcome goes into a
table by the hash of the block, next to the hit, which stays.
-/

/-- The handler sorts the blocks of a request into hits and misses. -/
theorem CacheNode.serveLookup_perm
    (node : CacheNode)
    (ids : List BlockId) :
    ((node.serveLookup ids).1.hits.map LookupHit.blockId ++
      (node.serveLookup ids).1.misses).Perm ids := by
  have sorted (entries : List LookupEntry) :
      ((entries.filterMap fun entry => entry.hit? node.nodeId).map
          LookupHit.blockId ++
        (entries.filter fun entry => entry.found = .miss).map
          LookupEntry.id).Perm
        (entries.map LookupEntry.id) := by
    induction entries with
    | nil =>
        exact List.Perm.refl _
    | cons entry rest inductionHypothesis =>
        cases found : entry.found with
        | localHit tier bytes =>
            simpa [LookupEntry.hit?, found] using inductionHypothesis
        | remoteHit remoteNode =>
            simpa [LookupEntry.hit?, found] using inductionHypothesis
        | miss =>
            simp only [LookupEntry.hit?, found, List.filterMap_cons,
              List.filter_cons, decide_true, ↓reduceIte, List.map_cons]
            exact List.perm_middle.trans (inductionHypothesis.cons _)
  have whole := sorted (node.lookup ids).1
  rwa [CacheNode.lookup_ids] at whole

namespace Network

variable {World : Type}

/-- Every lookup that succeeds is answered by the handler of a server. -/
def LookupServed
    (network : Network World) :
    Prop :=
  ∀ address ids world response,
    (network.lookup address ids world).1 = .ok response →
    ∃ node : CacheNode, response = (node.serveLookup ids).1

/-- Bytes that a fetch returns are held under the identity it asks for. -/
def FetchServed
    (network : Network World)
    (holds : World → BlockId → List UInt8 → Prop) :
    Prop :=
  ∀ address id world bytes,
    (network.fetch address id world).1 = .ok ⟨true, bytes⟩ →
    holds world id bytes

/-- One remote call. -/
def Step
    (network : Network World)
    (before after : World) :
    Prop :=
  (∃ address ids, (network.lookup address ids before).2 = after) ∨
    ∃ address id, (network.fetch address id before).2 = after

/-- Remote calls, one after another. -/
def Reaches
    (network : Network World) :
    World → World → Prop :=
  Relation.ReflTransGen network.Step

/-- The same network with a list of the lookup requests it was sent. -/
def logged
    (network : Network World) :
    Network (World × List (String × List BlockId)) where
  lookup address ids state :=
    let answered := network.lookup address ids state.1
    (answered.1, (answered.2, state.2 ++ [(address, ids)]))
  fetch address id state :=
    let answered := network.fetch address id state.1
    (answered.1, (answered.2, state.2))

end Network

namespace ServedCluster

/-- An attempt that succeeds was answered by the handler of a server. -/
theorem attempt_ok
    {Response : Type}
    {handler : CacheNode → Response × CacheNode}
    {listening : Option NodeId}
    {world : ServedCluster}
    {response : Response}
    (answered : (world.attempt handler listening).1 = .ok response) :
    ∃ name, response = (handler (world.cluster.nodes name)).1 := by
  unfold attempt at answered
  split at answered
  · simp at answered
  · rename_i name
    dsimp only at answered
    split at answered
    · simp only [RpcOutcome.ok.injEq] at answered
      exact ⟨name, answered.symm⟩
    · simp at answered
    · simp at answered
    · simp at answered

/-- Lookups through the network of a cluster are answered by its servers. -/
theorem network_lookupServed
    (listening : String → Option NodeId) :
    (network listening).LookupServed := by
  intro address ids world response answered
  obtain ⟨name, isAnswer⟩ := attempt_ok answered
  exact ⟨world.cluster.nodes name, isAnswer⟩

/-- A tier of some server holds the bytes under the full identity. -/
def Holds
    (world : ServedCluster)
    (id : BlockId)
    (bytes : List UInt8) :
    Prop :=
  ∃ name tier, (world.cluster.nodes name).store.copy tier id = some bytes

/-- Fetches through the network of a cluster return what its tiers hold. -/
theorem network_fetchServed
    (listening : String → Option NodeId) :
    (network listening).FetchServed Holds := by
  intro address id world bytes answered
  obtain ⟨name, isAnswer⟩ := attempt_ok answered
  refine ⟨name, ?_⟩
  unfold CacheNode.serveFetch CacheNode.fetchLocal at isAnswer
  dsimp only at isAnswer
  cases read : ((world.cluster.nodes name).store.get id).1 with
  | none =>
      simp [read] at isAnswer
  | some got =>
      simp only [read, Option.map_some, FetchResponse.mk.injEq,
        true_and] at isAnswer
      rw [isAnswer]
      exact ⟨got.tierFound, TieredStore.copy_of_get read⟩

end ServedCluster

namespace LetheClient

/-! ## Groups -/

section Groups

variable {key : Option NodeId} {id : BlockId}

/-- Adding a block adds it once. -/
theorem addToGroup_perm
    (grouped : List (Option NodeId × List BlockId)) :
    ((addToGroup key id grouped).flatMap Prod.snd).Perm
      (grouped.flatMap Prod.snd ++ [id]) := by
  induction grouped with
  | nil =>
      simp [addToGroup]
  | cons group rest inductionHypothesis =>
      unfold addToGroup
      split
      · simp only [List.flatMap_cons, List.append_assoc]
        exact List.perm_append_comm.append_left _
      · simp only [List.flatMap_cons, List.append_assoc]
        exact inductionHypothesis.append_left _

/-- The groups are a dictionary of batches. -/
theorem addToGroup_eq_alter
    (grouped : List (Option NodeId × List BlockId)) :
    addToGroup key id grouped =
      DictEntries.alter key (fun batch => batch.getD [] ++ [id])
        grouped := by
  induction grouped with
  | nil =>
      rfl
  | cons group rest inductionHypothesis =>
      simp only [addToGroup, DictEntries.alter, inductionHypothesis,
        Option.getD_some]

end Groups

/-- Blocks sorted into one group for each primary, in their order. -/
structure Grouped
    (client : LetheClient)
    (ids : List BlockId)
    (grouped : List (Option NodeId × List BlockId)) :
    Prop where
  distinct : (grouped.map Prod.fst).Nodup
  batches :
    ∀ group ∈ grouped,
      group.2 = ids.filter fun id => client.primaryNode id = group.1
  covers :
    ∀ id ∈ ids, client.primaryNode id ∈ grouped.map Prod.fst
  complete : (grouped.flatMap Prod.snd).Perm ids

/-- The batch of a key, empty if the key has none. -/
theorem Grouped.getD_batch
    {client : LetheClient}
    {ids : List BlockId}
    {grouped : List (Option NodeId × List BlockId)}
    (sorted : client.Grouped ids grouped)
    (key : Option NodeId) :
    (DictEntries.get? key grouped).getD [] =
      ids.filter fun id => client.primaryNode id = key := by
  cases found : DictEntries.get? key grouped with
  | some batch =>
      exact sorted.batches _
        ((DictEntries.mem_iff_get? sorted.distinct).mpr found)
  | none =>
      rw [Option.getD_none, eq_comm, List.filter_eq_nil_iff]
      intro id isId sameKey
      obtain ⟨group, isGroup, isKey⟩ :=
        List.mem_map.mp (sorted.covers id isId)
      rw [decide_eq_true_eq] at sameKey
      have held :=
        (DictEntries.mem_iff_get? sorted.distinct).mp
          (show (group.1, group.2) ∈ grouped from isGroup)
      rw [isKey, sameKey, found] at held
      simp at held

/-- The groups stay right when a block is added. -/
theorem Grouped.add
    {client : LetheClient}
    {ids : List BlockId}
    {grouped : List (Option NodeId × List BlockId)}
    (sorted : client.Grouped ids grouped)
    (id : BlockId) :
    client.Grouped (ids ++ [id])
      (addToGroup (client.primaryNode id) id grouped) where
  distinct := by
    rw [addToGroup_eq_alter]
    exact DictEntries.nodup_alter sorted.distinct
  batches := by
    rintro ⟨key, batch⟩ member
    rw [addToGroup_eq_alter,
      DictEntries.mem_iff_get? (DictEntries.nodup_alter sorted.distinct),
      DictEntries.get?_alter] at member
    rw [List.filter_append]
    split at member
    · next isKey =>
        subst isKey
        simp only [Option.some.injEq] at member
        rw [← member, sorted.getD_batch (client.primaryNode id)]
        simp
    · next otherKey =>
        have old :=
          (DictEntries.mem_iff_get? sorted.distinct).mpr member
        rw [sorted.batches _ old]
        simp [Ne.symm otherKey]
  covers other isOther := by
    rw [addToGroup_eq_alter, DictEntries.mem_keys_alter]
    rcases List.mem_append.mp isOther with isOld | isNew
    · exact Or.inr (sorted.covers other isOld)
    · rw [List.mem_singleton] at isNew
      exact Or.inl (by rw [isNew])
  complete :=
    (addToGroup_perm grouped).trans (sorted.complete.append_right _)

/-- The groups of the client. -/
theorem groups_grouped
    (client : LetheClient)
    (ids : List BlockId) :
    client.Grouped ids (client.groups ids) := by
  induction ids using List.reverseRecOn with
  | nil =>
      exact ⟨by simp [groups], by simp [groups], by simp, by simp [groups]⟩
  | append_singleton ids id inductionHypothesis =>
      unfold groups at inductionHypothesis ⊢
      rw [List.foldl_append, List.foldl_cons, List.foldl_nil]
      exact inductionHypothesis.add id

/-- Asking any ring for one owner comes to an end within one step. -/
theorem route_one_isSome
    (ring : HashRing)
    (hash : Hash256) :
    (ring.route 1 hash 1).isSome = true := by
  unfold HashRing.route
  split
  · rfl
  · unfold HashRing.walk
    split
    · simp [HashRing.walk, HashRing.unfinished]
    · rfl

/-! ## Hits and misses -/

section Classified

variable
  {World : Type}
  {network : Network World}
  {client : LetheClient}

/-- All blocks that a result speaks of. -/
def classified
    (result : LookupResult) :
    List BlockId :=
  result.hits.map LookupHit.blockId ++ result.misses

/-- Taking over hits and their fetches adds no misses. -/
theorem foldl_noteHit_misses
    (hits : List LookupHit)
    (state : LookupResult × World) :
    (hits.foldl (client.noteHit network) state).1.misses =
      state.1.misses := by
  have noted (state : LookupResult × World) (hit : LookupHit) :
      (client.noteHit network state hit).1.misses = state.1.misses := by
    unfold noteHit fetchIntoResult
    dsimp only
    split
    · split <;> rfl
    · rfl
  induction hits generalizing state with
  | nil =>
      rfl
  | cons hit rest inductionHypothesis =>
      rw [List.foldl_cons, inductionHypothesis, noted]

/-- A call goes through remote calls, the last of which gave its response. -/
theorem callWithRetry_reaches
    {Response : Type}
    {rpc : World → RpcOutcome Response × World}
    (steps : ∀ before, network.Step before (rpc before).2)
    (attempts : Nat)
    (world : World) :
    network.Reaches world (callWithRetry rpc attempts world).2 ∧
      ∀ response,
        (callWithRetry rpc attempts world).1 = some response →
        ∃ before,
          network.Reaches world before ∧
            (rpc before).1 = .ok response := by
  induction attempts generalizing world with
  | zero =>
      exact ⟨.refl, by simp [callWithRetry]⟩
  | succ attempts inductionHypothesis =>
      have first := steps world
      unfold callWithRetry
      split
      · next given after answered =>
          rw [answered] at first
          refine ⟨.single first, ?_⟩
          intro response isGiven
          simp only [Option.some.injEq] at isGiven
          exact ⟨world, .refl, by rw [answered, isGiven]⟩
      · next after answered =>
          rw [answered] at first
          obtain ⟨reached, responses⟩ := inductionHypothesis after
          refine ⟨.head first reached, ?_⟩
          intro response isGiven
          obtain ⟨before, later, gave⟩ := responses response isGiven
          exact ⟨before, .head first later, gave⟩
      · next after answered =>
          rw [answered] at first
          exact ⟨.single first, by simp⟩

/-- A lookup at an address is made of remote calls. -/
theorem lookup_reaches
    (server : String)
    (ids : List BlockId)
    (world : World) :
    let called :=
      callWithRetry (network.lookup server ids) maxAttempts world
    network.Reaches world called.2 ∧
      ∀ response,
        called.1 = some response →
        ∃ before,
          network.Reaches world before ∧
            (network.lookup server ids before).1 = .ok response :=
  callWithRetry_reaches (fun _ => Or.inl ⟨server, ids, rfl⟩) _ _

/-- The address that a group is sent to, if there is one. -/
def groupAddress
    (client : LetheClient)
    (address : Option String)
    (key : Option NodeId) :
    Option String :=
  match key with
  | some node =>
      client.stubForNode node
  | none =>
      some (client.stub address)

/-- A group is sent to its address, if it has one. -/
theorem lookupGroup_eq
    (address : Option String)
    (state : LookupResult × World)
    (group : Option NodeId × List BlockId) :
    client.lookupGroup network address state group =
      match client.groupAddress address group.1 with
      | none =>
          noteMisses state group.2
      | some server =>
          let called :=
            callWithRetry (network.lookup server group.2) maxAttempts state.2
          match called.1 with
          | none =>
              noteMisses (state.1, called.2) group.2
          | some response =>
              noteMisses
                (response.hits.foldl (client.noteHit network)
                  (state.1, called.2))
                response.misses :=
  rfl

/-- Noting misses adds them to what the result speaks of. -/
theorem classified_noteMisses
    (state : LookupResult × World)
    (ids : List BlockId) :
    classified (noteMisses state ids).1 = classified state.1 ++ ids := by
  simp [classified, noteMisses]

/-- A group adds exactly its blocks to what the result speaks of. -/
theorem classified_lookupGroup
    (served : network.LookupServed)
    (address : Option String)
    (state : LookupResult × World)
    (group : Option NodeId × List BlockId) :
    (classified (client.lookupGroup network address state group).1).Perm
      (classified state.1 ++ group.2) := by
  rw [lookupGroup_eq]
  cases client.groupAddress address group.1 with
  | none =>
      dsimp only
      rw [classified_noteMisses]
  | some server =>
      dsimp only
      cases called :
          (callWithRetry (network.lookup server group.2) maxAttempts
            state.2).1 with
      | none =>
          rw [classified_noteMisses]
      | some response =>
          obtain ⟨before, _, answered⟩ :=
            (lookup_reaches server group.2 state.2).2 response called
          obtain ⟨node, isAnswer⟩ := served _ _ _ _ answered
          have sorted := node.serveLookup_perm group.2
          rw [← isAnswer] at sorted
          rw [classified_noteMisses]
          simp only [classified, foldl_noteHit_hits, foldl_noteHit_misses,
            List.map_append]
          grind

/-- A lookup speaks of every block exactly as often as it was asked. -/
theorem classified_lookup
    (served : network.LookupServed)
    (client : LetheClient)
    (ids : List BlockId)
    (address : Option String)
    (world : World) :
    (classified (client.lookup network ids address world).1).Perm ids := by
  have each
      (grouped : List (Option NodeId × List BlockId))
      (state : LookupResult × World) :
      (classified
        (grouped.foldl (client.lookupGroup network address) state).1).Perm
        (classified state.1 ++ grouped.flatMap Prod.snd) := by
    induction grouped generalizing state with
    | nil =>
        simp
    | cons group rest inductionHypothesis =>
        rw [List.foldl_cons, List.flatMap_cons, ← List.append_assoc]
        refine (inductionHypothesis _).trans ?_
        exact (classified_lookupGroup served address state group).append_right
          _
  exact (each (client.groups ids) ({}, world)).trans
    (client.groups_grouped ids).complete

end Classified

/-! ## Requests -/

section Requests

variable
  {World : Type}
  {network : Network World}
  {client : LetheClient}

/-- The requests of a call are copies of one, at most as many as attempts. -/
theorem callWithRetry_logged
    (server : String)
    (ids : List BlockId)
    (attempts : Nat)
    (world : World)
    (log : List (String × List BlockId)) :
    let called := callWithRetry (network.lookup server ids) attempts world
    ∃ tries ≤ attempts,
      callWithRetry (network.logged.lookup server ids) attempts (world, log) =
        (called.1, (called.2, log ++ List.replicate tries (server, ids))) := by
  induction attempts generalizing world log with
  | zero =>
      exact ⟨0, Nat.le_refl 0, by simp [callWithRetry]⟩
  | succ attempts inductionHypothesis =>
      cases answered : network.lookup server ids world with
      | mk outcome after =>
          cases outcome with
          | ok response =>
              exact ⟨1, by omega,
                by simp [callWithRetry, Network.logged, answered]⟩
          | failed =>
              exact ⟨1, by omega,
                by simp [callWithRetry, Network.logged, answered]⟩
          | retryable =>
              obtain ⟨tries, bounded, later⟩ :=
                inductionHypothesis after (log ++ [(server, ids)])
              refine ⟨tries + 1, by omega, ?_⟩
              simp only [Network.logged] at later
              simp only [callWithRetry, Network.logged, answered, later,
                List.replicate_succ, List.append_assoc,
                List.singleton_append]

/-- Fetches are not in the list of lookup requests. -/
theorem fetch_logged
    (id : BlockId)
    (address : Option String)
    (world : World)
    (log : List (String × List BlockId)) :
    let pulled := client.fetch network id address world
    client.fetch network.logged id address (world, log) =
      (pulled.1, (pulled.2, log)) := by
  have called (attempts : Nat) (world : World) :
      callWithRetry (network.logged.fetch (client.stub address) id) attempts
          (world, log) =
        let plain :=
          callWithRetry (network.fetch (client.stub address) id) attempts
            world
        (plain.1, (plain.2, log)) := by
    induction attempts generalizing world with
    | zero =>
        rfl
    | succ attempts inductionHypothesis =>
        cases answered : network.fetch (client.stub address) id world with
        | mk outcome after =>
            simp only [Network.logged] at inductionHypothesis
            cases outcome <;>
              simp [callWithRetry, Network.logged, answered,
                inductionHypothesis]
  simp only [fetch, called]
  split
  · split <;> rfl
  · rfl

/-- Taking over hits sends no lookup request. -/
theorem foldl_noteHit_logged
    (hits : List LookupHit)
    (result : LookupResult)
    (world : World)
    (log : List (String × List BlockId)) :
    let noted := hits.foldl (client.noteHit network) (result, world)
    hits.foldl (client.noteHit network.logged) (result, (world, log)) =
      (noted.1, (noted.2, log)) := by
  have one (state : LookupResult × World) (hit : LookupHit) :
      client.noteHit network.logged (state.1, (state.2, log)) hit =
        ((client.noteHit network state hit).1,
          ((client.noteHit network state hit).2, log)) := by
    unfold noteHit fetchIntoResult
    dsimp only
    split
    · split
      · rfl
      · rw [fetch_logged]
    · rfl
  induction hits generalizing result world with
  | nil =>
      rfl
  | cons hit rest inductionHypothesis =>
      simp only [List.foldl_cons, one (result, world) hit]
      exact inductionHypothesis _ _

/-- One request for a group, repeated by retries. -/
def RequestedOnce
    (client : LetheClient)
    (address : Option String)
    (group : Option NodeId × List BlockId)
    (sent : List (String × List BlockId)) :
    Prop :=
  match client.groupAddress address group.1 with
  | none =>
      sent = []
  | some server =>
      ∃ tries ≤ maxAttempts, sent = List.replicate tries (server, group.2)

/-- A group sends its request and changes nothing else of the run. -/
theorem lookupGroup_logged
    (network : Network World)
    (client : LetheClient)
    (address : Option String)
    (result : LookupResult)
    (world : World)
    (log : List (String × List BlockId))
    (group : Option NodeId × List BlockId) :
    let plain := client.lookupGroup network address (result, world) group
    ∃ sent,
      client.RequestedOnce address group sent ∧
        client.lookupGroup network.logged address (result, (world, log))
            group =
          (plain.1, (plain.2, log ++ sent)) := by
  simp only [lookupGroup_eq, RequestedOnce]
  cases client.groupAddress address group.1 with
  | none =>
      exact ⟨[], rfl, by simp [noteMisses]⟩
  | some server =>
      obtain ⟨tries, bounded, called⟩ :=
        callWithRetry_logged server group.2 maxAttempts world log
      refine ⟨_, ⟨tries, bounded, rfl⟩, ?_⟩
      dsimp only
      rw [called]
      dsimp only
      split
      · rfl
      · rw [foldl_noteHit_logged]
        rfl

/-- A lookup sends one request for each group, in the order of the groups. -/
theorem lookup_logged
    (network : Network World)
    (client : LetheClient)
    (ids : List BlockId)
    (address : Option String)
    (world : World) :
    let plain := client.lookup network ids address world
    ∃ sent,
      List.Forall₂ (client.RequestedOnce address) (client.groups ids) sent ∧
        client.lookup network.logged ids address (world, []) =
          (plain.1, (plain.2, sent.flatten)) := by
  have each
      (grouped : List (Option NodeId × List BlockId))
      (state : LookupResult × World)
      (log : List (String × List BlockId)) :
      ∃ sent,
        List.Forall₂ (client.RequestedOnce address) grouped sent ∧
          grouped.foldl (client.lookupGroup network.logged address)
              (state.1, (state.2, log)) =
            let plain :=
              grouped.foldl (client.lookupGroup network address) state
            (plain.1, (plain.2, log ++ sent.flatten)) := by
    induction grouped generalizing state log with
    | nil =>
        exact ⟨[], .nil, by simp⟩
    | cons group rest inductionHypothesis =>
        obtain ⟨sent, once, first⟩ :=
          lookupGroup_logged network client address state.1 state.2 log group
        obtain ⟨later, onceEach, others⟩ :=
          inductionHypothesis
            (client.lookupGroup network address state group) (log ++ sent)
        refine ⟨sent :: later, .cons once onceEach, ?_⟩
        simp only [List.foldl_cons, first, others, List.flatten_cons,
          List.append_assoc]
  have whole := each (client.groups ids) ({}, world) []
  simpa [lookup] using whole

end Requests

/--
A lookup asks every primary that the ring names for some block at most once,
apart from retries, with all its blocks, and sorts every block it was asked for
into the hits or the misses exactly once.  The walk of the ring always ends.
-/
theorem lookup_classifies_every_block_once
    {World : Type}
    {network : Network World}
    (served : network.LookupServed)
    (client : LetheClient)
    (ids : List BlockId)
    (address : Option String)
    (world : World) :
    let result := (client.lookup network ids address world).1
    let logged := client.lookup network.logged ids address (world, [])
    (∀ ring ∈ client.ring, ∀ id ∈ ids, (ring.route 1 id.hash 1).isSome) ∧
    ((client.groups ids).map Prod.fst).Nodup ∧
    (∀ group ∈ client.groups ids,
      group.2 = ids.filter fun id => client.primaryNode id = group.1) ∧
    (logged.1 = result ∧
      ∃ sent,
        logged.2.2 = sent.flatten ∧
          List.Forall₂ (client.RequestedOnce address) (client.groups ids)
            sent) ∧
    (result.hits.map LookupHit.blockId ++ result.misses).Perm ids := by
  intro result logged
  have grouped := client.groups_grouped ids
  obtain ⟨sent, once, run⟩ := lookup_logged network client ids address world
  refine ⟨fun ring _ id _ => route_one_isSome ring id.hash, grouped.distinct,
    grouped.batches, ⟨?_, sent, ?_, once⟩,
    classified_lookup served client ids address world⟩
  · simp only [logged, run, result]
  · simp only [logged, run]

/-! ## Two servers and a client -/

/-- Two servers; the first holds two layers under one hash. -/
def sampleLayers : Cluster :=
  (sampleCluster [nodeA, nodeB]).update nodeA
    ((sampleNode [nodeA, nodeB] nodeA).insert
      [ sampleInsert,
        { sampleInsert with
          id := { sampleBlock with layer := 1 }, data := [8] } ]).2

/-- A client of the first server, with a small ring. -/
def sampleClient : LetheClient where
  primaryAddress := "a"
  peers := AList.singleton nodeA "a"
  ring := some (HashRing.setPeers sampleBlake3 2 [nodeA])

/-- The first server answers at every address. -/
def sampleClientNetwork : Network ServedCluster :=
  ServedCluster.network fun _ => some nodeA

/-- A block that is asked for twice and one that nobody has. -/
theorem lookup_classifies_every_block_once_repeated :
    let missing := { sampleBlock with layer := 2 }
    let ids := [sampleBlock, missing, sampleBlock]
    let result :=
      (sampleClient.lookup sampleClientNetwork ids none
        ⟨sampleLayers, [some .requestLost]⟩).1
    (result.hits.map LookupHit.blockId ++ result.misses).Perm ids ∧
      result.misses = [missing] :=
  ⟨(lookup_classifies_every_block_once
      (ServedCluster.network_lookupServed fun _ => some nodeA) sampleClient
      _ none _).2.2.2.2,
    by decide +kernel⟩

/-! ## Follow-up fetches -/

/-- The fetch that follows a hit, and the bytes it produced, if any. -/
structure FollowUp where
  id : BlockId
  bytes : Option (List UInt8)
  deriving DecidableEq

section FollowUps

variable
  {World : Type}
  (network : Network World)
  (client : LetheClient)

/-- What is fetched for a hit that names a node. -/
def pull
    (id : BlockId)
    (sourceNode : NodeId)
    (world : World) :
    Option (List UInt8) × World :=
  match client.peers.lookup sourceNode with
  | none =>
      (none, world)
  | some address =>
      client.fetch network id (some address) world

/-- List the fetch that follows a hit. -/
def noteFollowUp
    (state : List FollowUp × World)
    (hit : LookupHit) :
    List FollowUp × World :=
  match hit.sourceNode with
  | none =>
      state
  | some sourceNode =>
      let pulled := client.pull network hit.blockId sourceNode state.2
      (state.1 ++ [⟨hit.blockId, pulled.1⟩], pulled.2)

/-- List the fetches that follow the hits of a group. -/
def groupFollowUps
    (address : Option String)
    (state : List FollowUp × World)
    (group : Option NodeId × List BlockId) :
    List FollowUp × World :=
  match client.groupAddress address group.1 with
  | none =>
      state
  | some server =>
      let called :=
        callWithRetry (network.lookup server group.2) maxAttempts state.2
      match called.1 with
      | none =>
          (state.1, called.2)
      | some response =>
          response.hits.foldl (client.noteFollowUp network)
            (state.1, called.2)

/-- The fetches that a lookup makes for its hits, in order. -/
def followUps
    (ids : List BlockId)
    (address : Option String)
    (world : World) :
    List FollowUp :=
  ((client.groups ids).foldl (client.groupFollowUps network address)
    ([], world)).1

end FollowUps

/-- The table of fetched bytes after some fetches. -/
def recorded
    (followUps : List FollowUp) :
    AList fun _ : Hash256 => Option (List UInt8) :=
  followUps.foldl
    (fun fetched followUp => fetched.insert followUp.id.hash followUp.bytes)
    ∅

/-- The last fetch of a block with a given hash. -/
def lastWithHash
    (followUps : List FollowUp)
    (hash : Hash256) :
    Option FollowUp :=
  (followUps.filter fun followUp => followUp.id.hash = hash).getLast?

/-- The table holds what the last fetch with the hash gave. -/
theorem lookup_recorded
    (followUps : List FollowUp)
    (hash : Hash256) :
    (recorded followUps).lookup hash =
      (lastWithHash followUps hash).map FollowUp.bytes := by
  induction followUps using List.reverseRecOn with
  | nil =>
      rfl
  | append_singleton followUps last inductionHypothesis =>
      unfold recorded lastWithHash at inductionHypothesis ⊢
      rw [List.foldl_append, List.foldl_cons, List.foldl_nil,
        List.filter_append]
      by_cases same : last.id.hash = hash
      · subst same
        rw [AList.lookup_insert]
        simp
      · rw [AList.lookup_insert_ne (Ne.symm same), inductionHypothesis]
        simp [same]

section Followed

variable
  {World : Type}
  {network : Network World}
  {client : LetheClient}

/-- A result and a list of fetches that tell the same story. -/
structure Follows
    (result : LookupResult × World)
    (listed : List FollowUp × World) :
    Prop where
  world : result.2 = listed.2
  fetched : result.1.fetched = recorded listed.1
  hits :
    listed.1.map FollowUp.id =
      (result.1.hits.filter fun hit => hit.sourceNode.isSome).map
        LookupHit.blockId

/-- Both take over a hit. -/
theorem Follows.noteHit
    {result : LookupResult × World}
    {listed : List FollowUp × World}
    (follows : Follows result listed)
    (hit : LookupHit) :
    Follows (client.noteHit network result hit)
      (client.noteFollowUp network listed hit) := by
  unfold LetheClient.noteHit noteFollowUp
  cases source : hit.sourceNode with
  | none =>
      refine ⟨follows.world, follows.fetched, ?_⟩
      simp [follows.hits, source]
  | some sourceNode =>
      dsimp only
      unfold fetchIntoResult pull
      cases client.peers.lookup sourceNode with
      | none =>
          refine ⟨follows.world, ?_, ?_⟩
          · simp [recorded, follows.fetched]
          · simp [follows.hits, source]
      | some address =>
          dsimp only
          rw [follows.world]
          refine ⟨rfl, ?_, ?_⟩
          · simp [recorded, follows.fetched]
          · simp [follows.hits, source]

/-- Both take over the hits of a response. -/
theorem Follows.noteHits
    {result : LookupResult × World}
    {listed : List FollowUp × World}
    (follows : Follows result listed)
    (hits : List LookupHit) :
    Follows (hits.foldl (client.noteHit network) result)
      (hits.foldl (client.noteFollowUp network) listed) := by
  induction hits generalizing result listed with
  | nil =>
      exact follows
  | cons hit rest inductionHypothesis =>
      exact inductionHypothesis (follows.noteHit hit)

/-- Misses have no fetches. -/
theorem Follows.noteMisses
    {result : LookupResult × World}
    {listed : List FollowUp × World}
    (follows : Follows result listed)
    (ids : List BlockId) :
    Follows (LetheClient.noteMisses result ids) listed :=
  ⟨follows.world, follows.fetched, follows.hits⟩

/-- Both look up a group. -/
theorem Follows.lookupGroup
    {result : LookupResult × World}
    {listed : List FollowUp × World}
    (follows : Follows result listed)
    (address : Option String)
    (group : Option NodeId × List BlockId) :
    Follows (client.lookupGroup network address result group)
      (client.groupFollowUps network address listed group) := by
  rw [lookupGroup_eq]
  unfold groupFollowUps
  cases client.groupAddress address group.1 with
  | none =>
      exact follows.noteMisses group.2
  | some server =>
      dsimp only
      rw [follows.world]
      have called (world : World) :
          Follows (result.1, world) (listed.1, world) :=
        ⟨rfl, follows.fetched, follows.hits⟩
      split
      · exact (called _).noteMisses group.2
      · exact ((called _).noteHits _).noteMisses _

/-- A result tells the same story as the fetches listed beside it. -/
theorem lookup_follows
    (network : Network World)
    (client : LetheClient)
    (ids : List BlockId)
    (address : Option String)
    (world : World) :
    Follows (client.lookup network ids address world)
      ((client.groups ids).foldl (client.groupFollowUps network address)
        ([], world)) := by
  have each
      (grouped : List (Option NodeId × List BlockId))
      {result : LookupResult × World}
      {listed : List FollowUp × World}
      (follows : Follows result listed) :
      Follows
        (grouped.foldl (client.lookupGroup network address) result)
        (grouped.foldl (client.groupFollowUps network address) listed) := by
    induction grouped generalizing result listed with
    | nil =>
        exact follows
    | cons group rest inductionHypothesis =>
        exact inductionHypothesis (follows.lookupGroup address group)
  exact each (client.groups ids) ⟨rfl, rfl, rfl⟩

/-- Every fetch follows a hit that stays in the result. -/
theorem hit_of_followUp
    {ids : List BlockId}
    {address : Option String}
    {world : World}
    {followUp : FollowUp}
    (followed : followUp ∈ client.followUps network ids address world) :
    followUp.id ∈
      (client.lookup network ids address world).1.hits.map
        LookupHit.blockId := by
  have listed : followUp.id ∈
      (client.followUps network ids address world).map FollowUp.id :=
    List.mem_map_of_mem followed
  unfold followUps at listed
  rw [(lookup_follows network client ids address world).hits] at listed
  obtain ⟨hit, isHit, sameId⟩ := List.mem_map.mp listed
  exact List.mem_map.mpr ⟨hit, (List.mem_filter.mp isHit).1, sameId⟩

end Followed

/--
Blocks whose follow-up fetch produced no bytes are misses and not hits exactly
if there are none: a hit stays a hit.
-/
theorem failed_follow_up_is_miss_iff
    {World : Type}
    (network : Network World)
    (client : LetheClient)
    (ids : List BlockId)
    (address : Option String)
    (world : World) :
    let result := (client.lookup network ids address world).1
    (∀ followUp ∈ client.followUps network ids address world,
      followUp.bytes = none →
      followUp.id ∈ result.misses ∧
        followUp.id ∉ result.hits.map LookupHit.blockId) ↔
    ∀ followUp ∈ client.followUps network ids address world,
      followUp.bytes ≠ none := by
  intro result
  constructor
  · intro reclassified followUp followed failed
    exact (reclassified followUp followed failed).2 (hit_of_followUp followed)
  · intro produced followUp followed failed
    exact absurd failed (produced followUp followed)

/-- The fetch after a hit is refused; the block stays a hit. -/
theorem failed_follow_up_stays_hit :
    let world : ServedCluster := ⟨sampleLayers, [none, some .refused]⟩
    let result :=
      (sampleClient.lookup sampleClientNetwork [sampleBlock] none world).1
    sampleClient.followUps sampleClientNetwork [sampleBlock] none world =
        [⟨sampleBlock, none⟩] ∧
      result.hits.map LookupHit.blockId = [sampleBlock] ∧
      result.misses = [] := by
  decide +kernel

/-- Without faults the fetch after a hit gives the bytes of the block. -/
theorem followUps_sample :
    sampleClient.followUps sampleClientNetwork [sampleBlock] none
        ⟨sampleLayers, []⟩ =
      [⟨sampleBlock, some [7]⟩] := by
  decide +kernel

/-- The fetch after a hit gives the bytes of the block. -/
theorem failed_follow_up_is_miss_iff_answered :
    let world : ServedCluster := ⟨sampleLayers, []⟩
    let result :=
      (sampleClient.lookup sampleClientNetwork [sampleBlock] none world).1
    sampleClient.followUps sampleClientNetwork [sampleBlock] none world =
        [⟨sampleBlock, some [7]⟩] ∧
      ∀ followUp ∈
          sampleClient.followUps sampleClientNetwork [sampleBlock] none world,
        followUp.bytes = none →
        followUp.id ∈ result.misses ∧
          followUp.id ∉ result.hits.map LookupHit.blockId := by
  refine ⟨followUps_sample,
    (failed_follow_up_is_miss_iff sampleClientNetwork sampleClient
      [sampleBlock] none ⟨sampleLayers, []⟩).mpr ?_⟩
  simp [followUps_sample]

/-! ## Bytes of a hit -/

section Held

variable
  {World : Type}
  {network : Network World}
  {holds : World → BlockId → List UInt8 → Prop}
  {client : LetheClient}

/--
The bytes were held under the identity at a moment of a call that started in
the given world.
-/
def HeldSince
    (network : Network World)
    (holds : World → BlockId → List UInt8 → Prop)
    (world : World)
    (id : BlockId)
    (bytes : List UInt8) :
    Prop :=
  ∃ moment, network.Reaches world moment ∧ holds moment id bytes

/-- A fetch is made of remote calls and gives bytes that were held. -/
theorem fetch_held
    (served : network.FetchServed holds)
    (id : BlockId)
    (address : Option String)
    (world : World) :
    let pulled := client.fetch network id address world
    network.Reaches world pulled.2 ∧
      ∀ bytes,
        pulled.1 = some bytes →
        HeldSince network holds world id bytes := by
  obtain ⟨reached, responses⟩ :=
    callWithRetry_reaches
      (fun before =>
        (Or.inr ⟨client.stub address, id, rfl⟩ :
          network.Step before
            (network.fetch (client.stub address) id before).2))
      maxAttempts world
  unfold fetch
  dsimp only
  split
  · next response called =>
      obtain ⟨before, earlier, answered⟩ := responses response called
      split
      · next found =>
          refine ⟨reached, ?_⟩
          intro bytes isData
          simp only [Option.some.injEq] at isData
          refine ⟨before, earlier, served _ _ _ _ (answered.trans ?_)⟩
          rw [← isData, ← found]
      · exact ⟨reached, by simp⟩
  · exact ⟨reached, by simp⟩

/-- All bytes that the fetches of a call have produced were held. -/
structure AllHeld
    (network : Network World)
    (holds : World → BlockId → List UInt8 → Prop)
    (start : World)
    (listed : List FollowUp × World) :
    Prop where
  reached : network.Reaches start listed.2
  held :
    ∀ followUp ∈ listed.1,
      ∀ bytes,
        followUp.bytes = some bytes →
        HeldSince network holds start followUp.id bytes

/-- The fetch that follows a hit produces bytes that were held. -/
theorem AllHeld.noteFollowUp
    (served : network.FetchServed holds)
    {start : World}
    {listed : List FollowUp × World}
    (before : AllHeld network holds start listed)
    (hit : LookupHit) :
    AllHeld network holds start
      (client.noteFollowUp network listed hit) := by
  unfold LetheClient.noteFollowUp
  split
  · exact before
  · rename_i sourceNode _
    have pulled :
        let pulled :=
          client.pull network hit.blockId sourceNode listed.2
        network.Reaches listed.2 pulled.2 ∧
          ∀ bytes,
            pulled.1 = some bytes →
            HeldSince network holds listed.2 hit.blockId bytes := by
      unfold pull
      split
      · exact ⟨.refl, by simp⟩
      · exact fetch_held served _ _ _
    refine ⟨before.reached.trans pulled.1, ?_⟩
    intro followUp followed bytes produced
    rcases List.mem_append.mp followed with earlier | isLast
    · exact before.held followUp earlier bytes produced
    · rw [List.mem_singleton] at isLast
      rw [isLast] at produced ⊢
      obtain ⟨moment, later, held⟩ := pulled.2 bytes produced
      exact ⟨moment, before.reached.trans later, held⟩

/-- The fetches that follow a group produce bytes that were held. -/
theorem AllHeld.groupFollowUps
    (served : network.FetchServed holds)
    {start : World}
    {listed : List FollowUp × World}
    (before : AllHeld network holds start listed)
    (address : Option String)
    (group : Option NodeId × List BlockId) :
    AllHeld network holds start
      (client.groupFollowUps network address listed group) := by
  unfold LetheClient.groupFollowUps
  split
  · exact before
  · rename_i server _
    have asked : AllHeld network holds start
        (listed.1,
          (callWithRetry (network.lookup server group.2) maxAttempts
            listed.2).2) :=
      ⟨before.reached.trans (lookup_reaches server group.2 listed.2).1,
        before.held⟩
    dsimp only
    split
    · exact asked
    · refine List.foldlRecOn
        (motive := fun state : List FollowUp × World =>
          AllHeld network holds start state)
        _ _ ?_ ?_
      · exact asked
      · exact fun _ earlier hit _ => earlier.noteFollowUp served hit

/-- The fetches of a lookup produce bytes that were held during the call. -/
theorem followUps_held
    (served : network.FetchServed holds)
    (client : LetheClient)
    (ids : List BlockId)
    (address : Option String)
    (world : World) :
    AllHeld network holds world
      ((client.groups ids).foldl (client.groupFollowUps network address)
        ([], world)) := by
  refine List.foldlRecOn
    (motive := fun state : List FollowUp × World =>
      AllHeld network holds world state)
    (client.groups ids) (client.groupFollowUps network address) ?_ ?_
  · exact ⟨.refl, by simp⟩
  · exact fun _ before group _ => before.groupFollowUps served address group

end Held

/--
The bytes recorded for a hit whose fetch succeeded are those that the fetch
found under its full identity exactly if the last fetch of the call for a block
with the same hash gave the same bytes.
-/
theorem fetched_bytes_belong_iff
    {World : Type}
    {network : Network World}
    {holds : World → BlockId → List UInt8 → Prop}
    (served : network.FetchServed holds)
    (client : LetheClient)
    (ids : List BlockId)
    (address : Option String)
    (world : World) :
    let result := (client.lookup network ids address world).1
    let followUps := client.followUps network ids address world
    (∀ followUp ∈ followUps,
      ∀ bytes,
        followUp.bytes = some bytes →
        HeldSince network holds world followUp.id bytes ∧
        result.fetched.lookup followUp.id.hash = some (some bytes)) ↔
    ∀ followUp ∈ followUps,
      ∀ bytes,
        followUp.bytes = some bytes →
        ∃ last ∈ lastWithHash followUps followUp.id.hash,
          last.bytes = some bytes := by
  intro result followUps
  have during := followUps_held served client ids address world
  have fetched (hash : Hash256) :
      result.fetched.lookup hash =
        (lastWithHash followUps hash).map FollowUp.bytes := by
    simp only [result, followUps]
    rw [(lookup_follows network client ids address world).fetched,
      lookup_recorded]
    rfl
  have agree (hash : Hash256) (bytes : List UInt8) :
      result.fetched.lookup hash = some (some bytes) ↔
        ∃ last ∈ lastWithHash followUps hash, last.bytes = some bytes := by
    rw [fetched, Option.map_eq_some_iff]
    rfl
  constructor
  · intro right followUp followed bytes produced
    exact (agree _ _).mp (right followUp followed bytes produced).2
  · intro same followUp followed bytes produced
    exact ⟨during.held followUp followed bytes produced,
      (agree _ _).mpr (same followUp followed bytes produced)⟩

/-- Two layers share a hash; the bytes of the second replace the first's. -/
theorem fetched_bytes_of_other_layer :
    let world : ServedCluster := ⟨sampleLayers, []⟩
    let upper := { sampleBlock with layer := 1 }
    let ids := [sampleBlock, upper]
    let result := (sampleClient.lookup sampleClientNetwork ids none world).1
    sampleClient.followUps sampleClientNetwork ids none world =
        [⟨sampleBlock, some [7]⟩, ⟨upper, some [8]⟩] ∧
      result.hits.map LookupHit.blockId = ids ∧
      result.fetched.lookup sampleBlock.hash = some (some [8]) := by
  decide +kernel

/-- A block that is asked for alone is recorded with its bytes. -/
theorem fetched_bytes_belong_iff_single :
    let world : ServedCluster := ⟨sampleLayers, []⟩
    let result :=
      (sampleClient.lookup sampleClientNetwork [sampleBlock] none world).1
    HeldSince sampleClientNetwork ServedCluster.Holds world sampleBlock [7] ∧
      result.fetched.lookup sampleBlock.hash = some (some [7]) := by
  have served : sampleClientNetwork.FetchServed ServedCluster.Holds :=
    ServedCluster.network_fetchServed fun _ => some nodeA
  have belong :=
    (fetched_bytes_belong_iff served sampleClient [sampleBlock] none
      ⟨sampleLayers, []⟩).mpr
  rw [followUps_sample] at belong
  exact
    belong (by simp [lastWithHash]) ⟨sampleBlock, some [7]⟩ (by simp) [7]
      rfl

end LetheClient

end Lethe
