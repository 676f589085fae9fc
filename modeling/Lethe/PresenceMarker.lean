import Lethe.Delivery
import Lethe.PrefixHits

namespace Lethe

/-!
# Presence markers

The worker saves the blocks of a step layer by layer, one batch for each layer,
and a pool of threads inserts the batches in any order.  Every batch also
carries a marker for each of its hashes, and the scheduler takes the marker for
the whole block.  So the marker is there once the first layer has been
inserted, and it stays when a layer is rejected or evicted.
-/

/-- The layer number derived from the name of a layer. -/
def layerIdFor
    (sha256 : String → Hash256)
    (layerName : String) :
    UInt32 :=
  UInt32.ofNat (LittleEndian.decode ((sha256 layerName).bytes.take 4))

/-- Payload of a marker. -/
def presencePayload : List UInt8 :=
  [1]

/-- Pages of one layer's cache, each with some bytes. -/
structure KvLayer where
  pages : List (List UInt8)
  nonempty : ∀ page ∈ pages, page ≠ []

/-- A block as the client's insert request carries it. -/
def requestBlock
    (id : BlockId)
    (payload : List UInt8) :
    KvBlock :=
  { id := id, data := payload, tier := .dram }

namespace Connector

variable
  (sha256 : String → Hash256)
  (connector : Connector)

/-- Identity of one layer of a block. -/
def layerBlock
    (hash : Hash256)
    (layerName : String) :
    BlockId where
  hash := hash
  layer := layerIdFor sha256 layerName
  headGroup := 0
  modelId := connector.modelId

@[simp] theorem layerBlock_hash
    (hash : Hash256)
    (layerName : String) :
    (connector.layerBlock sha256 hash layerName).hash = hash :=
  rfl

/-- What one stored block adds to a batch; a page out of range is skipped. -/
def savedBlocks
    (layerName : String)
    (kvLayer : KvLayer)
    (spec : BlockSpec) :
    List KvBlock :=
  match kvLayer.pages[spec.vllmBlockId]? with
  | none => []
  | some page =>
      [ requestBlock (connector.layerBlock sha256 spec.chainedHash layerName)
          page,
        requestBlock (connector.presenceMarker spec.chainedHash)
          presencePayload ]

/-- The batch of one layer. -/
def saveKvLayer
    (stores : List RequestPayload)
    (layerName : String)
    (kvLayer : KvLayer) :
    List KvBlock :=
  stores.flatMap fun payload =>
    payload.blocks.flatMap (connector.savedBlocks sha256 layerName kvLayer)

/-- The blocks that a step's loads fetch. -/
def startLoadKv
    (layerNames : List String)
    (loads : List RequestPayload) :
    List BlockId :=
  loads.flatMap fun payload =>
    layerNames.flatMap fun layerName =>
      (payload.blocks.filter fun spec => spec.isHit).map fun spec =>
        connector.layerBlock sha256 spec.chainedHash layerName

end Connector

/-- Answer fetches one after the other. -/
def CacheNode.serveFetches
    (node : CacheNode) :
    List BlockId → List (BlockId × FetchResponse) × CacheNode
  | [] => ([], node)
  | id :: rest =>
      let first := node.serveFetch id
      let others := first.2.serveFetches rest
      ((id, first.1) :: others.1, others.2)

/-- A server and the batches that wait to be inserted there. -/
structure SavingNode where
  node : CacheNode
  inflightSaves : List (List KvBlock)

/--
What happens to them: a step saves its blocks, a thread of the pool gets the
next block of its batch inserted, an eviction pass makes a call, the scheduler
probes some hashes, a block is fetched.
-/
inductive SaveEvent where
  | save (stores : List RequestPayload) (kvLayers : String → KvLayer)
  | insertNext (index : Nat)
  | evict (call : EvictorCall)
  | probe (hashes : List Hash256)
  | fetch (id : BlockId)

namespace SavingNode

variable
  (sha256 : String → Hash256)
  (connector : Connector)
  (layerNames : List String)

/-- One event. -/
def next
    (state : SavingNode) :
    SaveEvent → SavingNode
  | .save stores kvLayers =>
      { state with
        inflightSaves :=
          state.inflightSaves ++
            (layerNames.map fun layerName =>
              connector.saveKvLayer sha256 stores layerName
                (kvLayers layerName)).filter fun batch => batch ≠ [] }
  | .insertNext index =>
      match state.inflightSaves[index]? with
      | some (block :: rest) =>
          { node := (state.node.insert [block]).2
            inflightSaves := state.inflightSaves.set index rest }
      | _ => state
  | .evict call =>
      { state with
        node :=
          { state.node with store := call.apply state.node.store } }
  | .probe hashes =>
      { state with
        node :=
          (state.node.serveLookup
            (hashes.map connector.presenceMarker)).2 }
  | .fetch id =>
      { state with node := (state.node.serveFetch id).2 }

/-- Several events. -/
def run
    (state : SavingNode)
    (events : List SaveEvent) :
    SavingNode :=
  events.foldl (next sha256 connector layerNames) state

/-- A whole eviction pass is a run of its calls, but for the evictor's hand. -/
theorem exists_run_evict
    (state : SavingNode)
    (tier : Tier)
    (blocks : List BlockMeta) :
    ∃ calls : List EvictorCall,
      state.run sha256 connector layerNames (calls.map .evict) =
        { state with
          node :=
            { state.node.evict tier blocks with
              evictor := state.node.evictor } } := by
  obtain ⟨calls, isPass⟩ :=
    state.node.evictor.runPassForTier_calls state.node.store tier blocks
  refine ⟨calls, ?_⟩
  have applied :
      state.run sha256 connector layerNames (calls.map .evict) =
        { state with
          node :=
            { state.node with
              store :=
                calls.foldl EvictorCall.apply state.node.store } } := by
    clear isPass
    induction calls generalizing state with
    | nil =>
        rfl
    | cons call rest inductionHypothesis =>
        exact inductionHypothesis _
  rw [applied, ← isPass]
  rfl

/-- A block of this identity waits to be inserted. -/
def Waiting
    (state : SavingNode)
    (id : BlockId) : Prop :=
  ∃ batch ∈ state.inflightSaves, ∃ block ∈ batch, block.id = id

/-- The hashes that a probe would report as cached. -/
def reported
    (state : SavingNode)
    (hashes : List Hash256) :
    List Hash256 :=
  (state.node.serveLookup (hashes.map connector.presenceMarker)).1.hits.map
    fun hit => hit.blockId.hash

/--
Every layer of a hash is stored, and the fetches that a step submits for it
return bytes in whatever order they are served.
-/
def Loadable
    (state : SavingNode)
    (hash : Hash256) : Prop :=
  (∀ layerName ∈ layerNames,
      state.node.store.Resident
        (connector.layerBlock sha256 hash layerName)) ∧
    ∀ loads fetches,
      fetches.Perm (connector.startLoadKv sha256 layerNames loads) →
      ∀ answer ∈ (state.node.serveFetches fetches).1,
        answer.1.hash = hash →
        answer.2.found = true

/-- The identity is that of a layer of the model. -/
def IsLayer
    (id : BlockId) : Prop :=
  ∃ layerName ∈ layerNames,
    id = connector.layerBlock sha256 id.hash layerName

/--
What keeps markers honest.  A page that one layer has, all layers have.  There
is room for every layer that is inserted.  A pass erases a layer only while its
marker is neither stored nor waiting, unless the two are one block.  A hash is
probed only when no layer that the store lacks is waiting.
-/
def Careful
    (state : SavingNode) :
    SaveEvent → Prop
  | .save stores kvLayers =>
      ∀ payload ∈ stores,
        ∀ spec ∈ payload.blocks,
        ∀ one ∈ layerNames,
        ∀ other ∈ layerNames,
          spec.vllmBlockId < (kvLayers one).pages.length →
          spec.vllmBlockId < (kvLayers other).pages.length
  | .insertNext index =>
      ∀ block rest,
        state.inflightSaves[index]? = some (block :: rest) →
        IsLayer sha256 connector layerNames block.id →
        state.node.store.HasRoom block block.tier
  | .evict call =>
      ∀ id,
        call = .erase id →
        IsLayer sha256 connector layerNames id →
        id = connector.presenceMarker id.hash ∨
          ¬ state.node.store.Resident (connector.presenceMarker id.hash) ∧
            ¬ state.Waiting (connector.presenceMarker id.hash)
  | .probe hashes =>
      ∀ hash ∈ hashes,
        ∀ layerName ∈ layerNames,
          state.Waiting (connector.layerBlock sha256 hash layerName) →
          state.node.store.Resident
            (connector.layerBlock sha256 hash layerName)
  | .fetch _ => True

end SavingNode

/-! ## Servers that answer for themselves -/

namespace CacheNode

/-- The ring names no other server. -/
def Alone
    (node : CacheNode) : Prop :=
  ∀ id primary,
    (node.router.route id).primary = some primary →
    primary = node.nodeId

/-- A server that is the only peer of its ring is alone. -/
theorem alone_of_peers
    {blake3 : List UInt8 → Hash256}
    {node : CacheNode}
    (built : node.router.Built blake3)
    (only : ∀ peer ∈ node.router.peers, peer = node.nodeId) :
    node.Alone := by
  intro id primary isPrimary
  exact only primary (built.primary_mem_peers isPrimary)

/-- Lookups keep exactly the resident identities. -/
theorem resident_lookup
    {node : CacheNode}
    (consistent : node.store.SsdConsistent)
    (ids : List BlockId)
    (id : BlockId) :
    (node.lookup ids).2.store.Resident id ↔ node.store.Resident id := by
  induction ids generalizing node with
  | nil =>
      rfl
  | cons first rest inductionHypothesis =>
      have after :=
        TieredStore.ssdConsistent_stable.get consistent first
      have others := @inductionHypothesis (node.lookupOne first).2
      rw [lookupOne_node] at others
      simp only [lookup, lookupOne_node]
      rw [others after, TieredStore.resident_get consistent]

/-- A lookup only changes the store. -/
theorem lookup_node
    (node : CacheNode)
    (ids : List BlockId) :
    ∃ store, (node.lookup ids).2 = { node with store := store } := by
  induction ids generalizing node with
  | nil =>
      exact ⟨node.store, rfl⟩
  | cons first rest inductionHypothesis =>
      obtain ⟨store, result⟩ := inductionHypothesis (node.lookupOne first).2
      refine ⟨store, ?_⟩
      rw [lookup, result, lookupOne_node]

/-- A server that answers a block from its own store has it. -/
theorem resident_of_lookup
    {node : CacheNode}
    (consistent : node.store.SsdConsistent)
    {ids : List BlockId}
    {entry : LookupEntry}
    (answered : entry ∈ (node.lookup ids).1)
    {tier : Tier}
    {localData : List UInt8}
    (isLocal : entry.found = .localHit tier localData) :
    node.store.Resident entry.id := by
  obtain ⟨reached, id, ⟨_, sameBlocks⟩, isEntry⟩ :=
    exists_lookupOne_of_mem_lookup
      (fun reached =>
        reached.store.SsdConsistent ∧
          ∀ query, reached.store.Resident query ↔ node.store.Resident query)
      (fun id ⟨consistentHere, same⟩ => by
        rw [lookupOne_node]
        exact
          ⟨TieredStore.ssdConsistent_stable.get consistentHere id,
            fun query =>
              (TieredStore.resident_get consistentHere id query).trans
                (same query)⟩)
      ⟨consistent, fun _ => Iff.rfl⟩ answered
  subst isEntry
  obtain ⟨sameId, held⟩ := read_of_lookupOne isLocal
  rw [sameId]
  exact (sameBlocks id).mp ⟨tier, by simp [held]⟩

/-- A server that is alone reports only looked-up blocks that it has. -/
theorem Alone.resident_of_hit
    {node : CacheNode}
    (alone : node.Alone)
    (consistent : node.store.SsdConsistent)
    {ids : List BlockId}
    {hit : LookupHit}
    (reported : hit ∈ (node.serveLookup ids).1.hits) :
    hit.blockId ∈ ids ∧ node.store.Resident hit.blockId := by
  obtain ⟨entry, answered, isHit⟩ := List.mem_filterMap.mp reported
  have asked := List.mem_map_of_mem (f := LookupEntry.id) answered
  rw [lookup_ids] at asked
  unfold LookupEntry.hit? at isHit
  split at isHit
  · next tier localData isLocal =>
      cases isHit
      exact ⟨asked, resident_of_lookup consistent answered isLocal⟩
  · next remoteNode isRemote =>
      obtain ⟨id, isPrimary, elsewhere⟩ :=
        primary_of_lookup answered isRemote
      exact absurd (alone id remoteNode isPrimary) elsewhere
  · contradiction

/-- A fetch only changes the store, as a read does. -/
theorem serveFetch_node
    (node : CacheNode)
    (id : BlockId) :
    (node.serveFetch id).2 = { node with store := (node.store.get id).2 } := by
  unfold serveFetch fetchLocal
  dsimp only
  split
  · rfl
  · rfl

/-- A fetch finds every resident block that has bytes. -/
theorem serveFetch_found
    {node : CacheNode}
    (copies : node.store.Copies fun _ data => data ≠ [])
    {id : BlockId}
    (resident : node.store.Resident id) :
    (node.serveFetch id).1.found = true := by
  obtain ⟨tier, held⟩ := resident
  obtain ⟨data, held⟩ := Option.isSome_iff_exists.mp held
  obtain ⟨got, read⟩ :=
    TieredStore.get_of_bytes held (copies.every held)
  simp [serveFetch, fetchLocal, read]

/-- Fetches of resident blocks that have bytes all find them. -/
theorem serveFetches_found
    {node : CacheNode}
    (copies : node.store.Copies fun _ data => data ≠ [])
    {fetches : List BlockId}
    {answer : BlockId × FetchResponse}
    (answered : answer ∈ (node.serveFetches fetches).1)
    (resident : node.store.Resident answer.1) :
    answer.2.found = true := by
  induction fetches generalizing node with
  | nil =>
      simp [serveFetches] at answered
  | cons id rest inductionHypothesis =>
      rcases List.mem_cons.mp answered with isFirst | later
      · subst isFirst
        exact serveFetch_found copies resident
      · rw [serveFetch_node] at later
        refine
          inductionHypothesis
            ((TieredStore.copies_stable _).get copies id) later ?_
        rwa [TieredStore.resident_get copies.consistent]

/-- Every answer is about a block that was asked for. -/
theorem mem_of_mem_serveFetches
    {node : CacheNode}
    {fetches : List BlockId}
    {answer : BlockId × FetchResponse}
    (answered : answer ∈ (node.serveFetches fetches).1) :
    answer.1 ∈ fetches := by
  induction fetches generalizing node with
  | nil =>
      simp [serveFetches] at answered
  | cons id rest inductionHypothesis =>
      rcases List.mem_cons.mp answered with isFirst | later
      · rw [isFirst]
        exact List.mem_cons_self
      · exact List.mem_cons_of_mem _ (inductionHypothesis later)

end CacheNode

namespace Connector

variable
  {sha256 : String → Hash256}
  {connector : Connector}

/-- A fetched block is a layer of the model. -/
theorem layer_of_mem_startLoadKv
    {layerNames : List String}
    {loads : List RequestPayload}
    {id : BlockId}
    (fetched : id ∈ connector.startLoadKv sha256 layerNames loads) :
    ∃ layerName ∈ layerNames,
      id = connector.layerBlock sha256 id.hash layerName := by
  obtain ⟨payload, _, inPayload⟩ := List.mem_flatMap.mp fetched
  obtain ⟨layerName, isLayer, inLayer⟩ := List.mem_flatMap.mp inPayload
  obtain ⟨spec, _, isFetched⟩ := List.mem_map.mp inLayer
  subst isFetched
  exact ⟨layerName, isLayer, rfl⟩

/-- The blocks of a batch are layers and markers of pages in range. -/
theorem mem_saveKvLayer
    {stores : List RequestPayload}
    {layerName : String}
    {kvLayer : KvLayer}
    {block : KvBlock} :
    block ∈ connector.saveKvLayer sha256 stores layerName kvLayer ↔
      ∃ payload ∈ stores,
        ∃ spec ∈ payload.blocks,
        ∃ page,
          kvLayer.pages[spec.vllmBlockId]? = some page ∧
            (block =
                requestBlock
                  (connector.layerBlock sha256 spec.chainedHash layerName)
                  page ∨
              block =
                requestBlock (connector.presenceMarker spec.chainedHash)
                  presencePayload) := by
  have perSpec (spec : BlockSpec) :
      block ∈ connector.savedBlocks sha256 layerName kvLayer spec ↔
        ∃ page,
          kvLayer.pages[spec.vllmBlockId]? = some page ∧
            (block =
                requestBlock
                  (connector.layerBlock sha256 spec.chainedHash layerName)
                  page ∨
              block =
                requestBlock (connector.presenceMarker spec.chainedHash)
                  presencePayload) := by
    unfold savedBlocks
    cases kvLayer.pages[spec.vllmBlockId]? with
    | none =>
        simp
    | some page =>
        simp
  simp only [saveKvLayer, List.mem_flatMap, perSpec]

/-- Every block of a batch has bytes. -/
theorem data_of_mem_saveKvLayer
    {stores : List RequestPayload}
    {layerName : String}
    {kvLayer : KvLayer}
    {block : KvBlock}
    (saved :
      block ∈ connector.saveKvLayer sha256 stores layerName kvLayer) :
    block.data ≠ [] := by
  obtain ⟨payload, _, spec, _, page, inRange, isBlock | isBlock⟩ :=
    mem_saveKvLayer.mp saved
  · subst isBlock
    exact kvLayer.nonempty page (List.mem_of_getElem? inRange)
  · subst isBlock
    simp [requestBlock, presencePayload]

end Connector

/-! ## Honest markers -/

namespace SavingNode

variable
  {sha256 : String → Hash256}
  {connector : Connector}
  {layerNames : List String}
  {state : SavingNode}

/-- Every layer of a hash is stored or waits if its marker does. -/
def Covered
    (sha256 : String → Hash256)
    (connector : Connector)
    (layerNames : List String)
    (state : SavingNode) : Prop :=
  ∀ hash,
    state.node.store.Resident (connector.presenceMarker hash) ∨
        state.Waiting (connector.presenceMarker hash) →
      ∀ layerName ∈ layerNames,
        state.node.store.Resident
            (connector.layerBlock sha256 hash layerName) ∨
          state.Waiting (connector.layerBlock sha256 hash layerName)

/-- A lone server, blocks with bytes, and covered markers. -/
structure Honest
    (sha256 : String → Hash256)
    (connector : Connector)
    (layerNames : List String)
    (state : SavingNode) : Prop where
  alone : state.node.Alone
  carries : state.node.Carries fun _ data => data ≠ []
  nonempty :
    ∀ batch ∈ state.inflightSaves, ∀ block ∈ batch, block.data ≠ []
  covered : Covered sha256 connector layerNames state

/-- Steps that keep what is resident and what waits keep markers covered. -/
theorem Covered.of_same
    (covered : Covered sha256 connector layerNames state)
    {node : CacheNode}
    (same :
      ∀ id, node.store.Resident id ↔ state.node.store.Resident id) :
    Covered sha256 connector layerNames { state with node := node } := by
  intro hash marked layerName isLayer
  rw [same] at marked ⊢
  exact covered hash marked layerName isLayer

/-- Saving the blocks of a step whose pages all layers have. -/
theorem Covered.save
    (covered : Covered sha256 connector layerNames state)
    {stores : List RequestPayload}
    {kvLayers : String → KvLayer}
    (careful :
      Careful sha256 connector layerNames state (.save stores kvLayers)) :
    Covered sha256 connector layerNames
      (state.next sha256 connector layerNames (.save stores kvLayers)) := by
  have grows {id : BlockId} (waiting : state.Waiting id) :
      (state.next sha256 connector layerNames
        (.save stores kvLayers)).Waiting id := by
    obtain ⟨batch, inflight, found⟩ := waiting
    exact ⟨batch, List.mem_append_left _ inflight, found⟩
  intro hash marked layerName isLayer
  have earlier
      (before :
        state.node.store.Resident (connector.presenceMarker hash) ∨
          state.Waiting (connector.presenceMarker hash)) :=
    (covered hash before layerName isLayer).imp_right grows
  rcases marked with stored | ⟨batch, inflight, block, inBatch, isMarker⟩
  · exact earlier (Or.inl stored)
  rcases List.mem_append.mp inflight with old | new
  · exact earlier (Or.inr ⟨batch, old, block, inBatch, isMarker⟩)
  obtain ⟨saved, _⟩ := List.mem_filter.mp new
  obtain ⟨one, isOne, isBatch⟩ := List.mem_map.mp saved
  rw [← isBatch] at inBatch
  obtain ⟨payload, stored, spec, inPayload, page, inRange, isBlock⟩ :=
    Connector.mem_saveKvLayer.mp inBatch
  have sameHash : spec.chainedHash = hash := by
    rcases isBlock with isBlock | isBlock
    · subst isBlock
      exact congrArg BlockId.hash isMarker
    · subst isBlock
      exact congrArg BlockId.hash isMarker
  have bounded :=
    careful payload stored spec inPayload one isOne layerName isLayer
      (List.getElem?_eq_some_iff.mp inRange).1
  have otherPage := List.getElem?_eq_getElem bounded
  have saves :=
    (@Connector.mem_saveKvLayer sha256 connector stores layerName
      (kvLayers layerName) _).mpr
      ⟨payload, stored, spec, inPayload, _, otherPage, Or.inl rfl⟩
  refine Or.inr ⟨_, List.mem_append_right _ (List.mem_filter.mpr ⟨?_, ?_⟩),
    _, saves, ?_⟩
  · exact List.mem_map.mpr ⟨layerName, isLayer, rfl⟩
  · exact decide_eq_true (List.ne_nil_of_mem saves)
  · rw [← sameHash]
    rfl

/-- Taking a block out of a batch leaves all others waiting. -/
theorem waiting_set
    {index : Nat}
    {block : KvBlock}
    {rest : List KvBlock}
    (batch : state.inflightSaves[index]? = some (block :: rest))
    (node : CacheNode)
    (id : BlockId) :
    state.Waiting id ↔
      id = block.id ∨
        Waiting ⟨node, state.inflightSaves.set index rest⟩ id := by
  have bounded := (List.getElem?_eq_some_iff.mp batch).1
  constructor
  · rintro ⟨other, inflight, found, inOther, isFound⟩
    obtain ⟨place, isOther⟩ := List.mem_iff_getElem?.mp inflight
    by_cases here : index = place
    · subst here
      rw [batch, Option.some.injEq] at isOther
      subst isOther
      rcases List.mem_cons.mp inOther with isFirst | later
      · subst isFirst
        exact Or.inl isFound.symm
      · exact Or.inr ⟨rest, List.mem_set bounded rest, found, later, isFound⟩
    · refine Or.inr ⟨other, List.mem_iff_getElem?.mpr ⟨place, ?_⟩, found,
        inOther, isFound⟩
      rwa [List.getElem?_set_ne here]
  · rintro (isFirst | ⟨other, inflight, found, inOther, isFound⟩)
    · exact ⟨_, List.mem_of_getElem? batch, block, by simp, isFirst.symm⟩
    · rcases List.mem_or_eq_of_mem_set inflight with old | isRest
      · exact ⟨other, old, found, inOther, isFound⟩
      · subst isRest
        exact
          ⟨_, List.mem_of_getElem? batch, found,
            List.mem_cons_of_mem _ inOther, isFound⟩

/-- Inserting the next block of a batch, with room if it is a layer. -/
theorem Covered.insertNext
    (covered : Covered sha256 connector layerNames state)
    (consistent : state.node.store.SsdConsistent)
    {index : Nat}
    {block : KvBlock}
    {rest : List KvBlock}
    (batch : state.inflightSaves[index]? = some (block :: rest))
    (room :
      IsLayer sha256 connector layerNames block.id →
      state.node.store.HasRoom block block.tier) :
    Covered sha256 connector layerNames
      ⟨(state.node.insert [block]).2,
        state.inflightSaves.set index rest⟩ := by
  obtain ⟨pushed, inserted⟩ := CacheNode.insert_inserted state.node block
  obtain ⟨drops, result⟩ := inserted.after_eq
  have stored (id : BlockId) :
      (state.node.insert [block]).2.store.Resident id ↔
        state.node.store.Resident id ∨
          id = block.id ∧
            (state.node.store.put block block.tier).1.isSome = true := by
    rw [result]
    exact
      TieredStore.resident_put consistent.ssdSound block block.tier id
  have waiting := waiting_set batch (state.node.insert [block]).2
  intro hash marked layerName isLayer
  have before :
      state.node.store.Resident (connector.presenceMarker hash) ∨
        state.Waiting (connector.presenceMarker hash) := by
    rcases marked with isStored | stillWaits
    · rcases (stored _).mp isStored with old | ⟨isBlock, _⟩
      · exact Or.inl old
      · exact Or.inr ((waiting _).mpr (Or.inl isBlock))
    · exact Or.inr ((waiting _).mpr (Or.inr stillWaits))
  rcases covered hash before layerName isLayer with isStored | waits
  · exact Or.inl ((stored _).mpr (Or.inl isStored))
  · rcases (waiting _).mp waits with isBlock | stillWaits
    · refine Or.inl ((stored _).mpr (Or.inr ⟨isBlock, ?_⟩))
      refine TieredStore.put_of_hasRoom (room ⟨layerName, isLayer, ?_⟩)
      rw [← isBlock]
      rfl
    · exact Or.inr stillWaits

/-- Erasing a block that is no layer of a stored or waiting marker. -/
theorem Covered.erase
    (covered : Covered sha256 connector layerNames state)
    (consistent : state.node.store.SsdConsistent)
    {id : BlockId}
    (erasable :
      IsLayer sha256 connector layerNames id →
      id = connector.presenceMarker id.hash ∨
        ¬ state.node.store.Resident (connector.presenceMarker id.hash) ∧
          ¬ state.Waiting (connector.presenceMarker id.hash))
    {node : CacheNode}
    (isErased : node.store = (state.node.store.erase id).2) :
    Covered sha256 connector layerNames { state with node := node } := by
  have stored (other : BlockId) :
      node.store.Resident other ↔
        state.node.store.Resident other ∧ other ≠ id := by
    rw [isErased]
    exact TieredStore.resident_erase consistent id other
  intro hash marked layerName isLayer
  have before :
      state.node.store.Resident (connector.presenceMarker hash) ∨
        state.Waiting (connector.presenceMarker hash) :=
    marked.imp_left fun isStored => ((stored _).mp isStored).1
  by_cases same : id = connector.layerBlock sha256 hash layerName
  · have sameHash : id.hash = hash := by
      simp [same]
    have erased := erasable ⟨layerName, isLayer, by rw [sameHash, same]⟩
    rw [sameHash] at erased
    rcases erased with isMarker | unmarked
    · have waits := marked.resolve_left fun isStored =>
        ((stored _).mp isStored).2 isMarker.symm
      rw [← same, isMarker]
      exact Or.inr waits
    · exact absurd before (not_or.mpr unmarked)
  · exact
      (covered hash before layerName isLayer).imp_left fun isStored =>
        (stored _).mpr ⟨isStored, Ne.symm same⟩

/-- Saving the blocks of a step. -/
theorem Honest.save
    (honest : Honest sha256 connector layerNames state)
    {stores : List RequestPayload}
    {kvLayers : String → KvLayer}
    (careful :
      Careful sha256 connector layerNames state (.save stores kvLayers)) :
    Honest sha256 connector layerNames
      (state.next sha256 connector layerNames (.save stores kvLayers)) := by
  refine ⟨honest.alone, honest.carries, ?_, honest.covered.save careful⟩
  intro batch inflight
  rcases List.mem_append.mp inflight with old | new
  · exact honest.nonempty batch old
  · obtain ⟨layerName, _, isBatch⟩ :=
      List.mem_map.mp (List.mem_filter.mp new).1
    subst isBatch
    exact fun _ saved => Connector.data_of_mem_saveKvLayer saved

/-- Inserting the next block of a batch, with room if it is a layer. -/
theorem Honest.insertNext
    (honest : Honest sha256 connector layerNames state)
    {index : Nat}
    {block : KvBlock}
    {rest : List KvBlock}
    (batch : state.inflightSaves[index]? = some (block :: rest))
    (room :
      IsLayer sha256 connector layerNames block.id →
      state.node.store.HasRoom block block.tier) :
    Honest sha256 connector layerNames
      ⟨(state.node.insert [block]).2,
        state.inflightSaves.set index rest⟩ := by
  have waits := List.mem_of_getElem? batch
  obtain ⟨pushed, inserted⟩ := CacheNode.insert_inserted state.node block
  obtain ⟨drops, result⟩ := inserted.after_eq
  refine
    ⟨?_, honest.carries.insert ?_, ?_,
      honest.covered.insertNext honest.carries.store.consistent batch room⟩
  · rw [result]
    exact honest.alone
  · intro inserted isBlock
    rw [List.mem_singleton.mp isBlock]
    exact honest.nonempty _ waits block (by simp)
  · intro other inflight
    rcases List.mem_or_eq_of_mem_set inflight with old | isRest
    · exact honest.nonempty other old
    · subst isRest
      exact fun later inRest =>
        honest.nonempty _ waits later (List.mem_cons_of_mem _ inRest)

/-- A call of the eviction pass that erases no layer of a marker. -/
theorem Honest.evict
    (honest : Honest sha256 connector layerNames state)
    {call : EvictorCall}
    (careful : Careful sha256 connector layerNames state (.evict call)) :
    Honest sha256 connector layerNames
      (state.next sha256 connector layerNames (.evict call)) := by
  have consistent := honest.carries.store.consistent
  have stable :=
    TieredStore.copies_stable fun _ (data : List UInt8) => data ≠ []
  cases call with
  | clearVisited id =>
      exact
        ⟨honest.alone,
          honest.carries.withStore
            (stable.clearVisited honest.carries.store id),
          honest.nonempty, honest.covered.of_same fun _ => Iff.rfl⟩
  | demote id =>
      exact
        ⟨honest.alone,
          honest.carries.withStore (stable.demote honest.carries.store id),
          honest.nonempty,
          honest.covered.of_same
            (TieredStore.resident_demote consistent id)⟩
  | erase id =>
      exact
        ⟨honest.alone,
          honest.carries.withStore (stable.erase honest.carries.store id),
          honest.nonempty,
          honest.covered.erase consistent (careful id rfl) rfl⟩

/-- Careful steps keep markers honest. -/
theorem Honest.next
    (honest : Honest sha256 connector layerNames state)
    {event : SaveEvent}
    (careful : Careful sha256 connector layerNames state event) :
    Honest sha256 connector layerNames
      (state.next sha256 connector layerNames event) := by
  have consistent := honest.carries.store.consistent
  cases event with
  | save stores kvLayers =>
      exact honest.save careful
  | insertNext index =>
      simp only [SavingNode.next]
      split
      · next block rest batch =>
          exact honest.insertNext batch (careful block rest batch)
      · exact honest
  | evict call =>
      exact honest.evict careful
  | probe hashes =>
      obtain ⟨store, result⟩ :=
        CacheNode.lookup_node state.node
          (hashes.map connector.presenceMarker)
      refine
        ⟨?_, honest.carries.lookup _, honest.nonempty,
          honest.covered.of_same
            (CacheNode.resident_lookup consistent _)⟩
      simp only [SavingNode.next, CacheNode.serveLookup, result]
      exact honest.alone
  | fetch id =>
      have result := CacheNode.serveFetch_node state.node id
      refine ⟨?_, ?_, honest.nonempty, honest.covered.of_same ?_⟩
      · simp only [SavingNode.next, result]
        exact honest.alone
      · simp only [SavingNode.next, result]
        exact honest.carries.read id
      · rw [result]
        exact TieredStore.resident_get consistent id

/-- A reported hash whose waiting layers are stored is loadable. -/
theorem Honest.loadable
    (honest : Honest sha256 connector layerNames state)
    {hashes : List Hash256}
    (careful : Careful sha256 connector layerNames state (.probe hashes))
    {hash : Hash256}
    (hit : hash ∈ state.reported connector hashes) :
    (state.next sha256 connector layerNames (.probe hashes)).Loadable sha256
      connector layerNames hash := by
  have consistent := honest.carries.store.consistent
  have after := honest.next careful
  obtain ⟨found, reported, isHash⟩ := List.mem_map.mp hit
  obtain ⟨asked, held⟩ := honest.alone.resident_of_hit consistent reported
  obtain ⟨probed, isProbed, isMarker⟩ := List.mem_map.mp asked
  have sameHash : probed = hash := by
    rw [← isHash, ← isMarker]
    rfl
  rw [← isMarker, sameHash] at held
  rw [sameHash] at isProbed
  have resident
      (layerName : String)
      (isLayer : layerName ∈ layerNames) :
      (state.next sha256 connector layerNames
          (.probe hashes)).node.store.Resident
        (connector.layerBlock sha256 hash layerName) := by
    refine (CacheNode.resident_lookup consistent _ _).mpr ?_
    rcases honest.covered hash (Or.inl held) layerName isLayer with
      stored | waits
    · exact stored
    · exact careful hash isProbed layerName isLayer waits
  refine ⟨resident, ?_⟩
  intro loads fetches order answer answered sameAnswer
  refine CacheNode.serveFetches_found after.carries.store answered ?_
  have submitted :=
    order.mem_iff.mp (CacheNode.mem_of_mem_serveFetches answered)
  obtain ⟨layerName, isLayer, isId⟩ :=
    Connector.layer_of_mem_startLoadKv submitted
  rw [isId, sameAnswer]
  exact resident layerName isLayer

end SavingNode

/--
In a run of a lone server that starts without waiting batches and with all
layers of its markers stored, if every step is careful, then every hash that a
probe reports is loadable.
-/
theorem probe_hits_loadable
    (sha256 : String → Hash256)
    (connector : Connector)
    (layerNames : List String)
    {node : CacheNode}
    {events : List SaveEvent}
    (alone : node.Alone)
    (carries : node.Carries fun _ data => data ≠ [])
    (covered :
      ∀ hash,
        node.store.Resident (connector.presenceMarker hash) →
        ∀ layerName ∈ layerNames,
          node.store.Resident
            (connector.layerBlock sha256 hash layerName))
    (careful :
      ∀ earlier event,
        earlier ++ [event] <+: events →
        SavingNode.Careful sha256 connector layerNames
          (SavingNode.run sha256 connector layerNames ⟨node, []⟩ earlier)
          event)
    {earlier : List SaveEvent}
    {hashes : List Hash256}
    (probed : earlier ++ [.probe hashes] <+: events)
    {hash : Hash256}
    (hit :
      hash ∈
        (SavingNode.run sha256 connector layerNames ⟨node, []⟩
          earlier).reported connector hashes) :
    (SavingNode.run sha256 connector layerNames ⟨node, []⟩
      (earlier ++ [.probe hashes])).Loadable sha256 connector layerNames
        hash := by
  have initially :
      SavingNode.Honest sha256 connector layerNames ⟨node, []⟩ := by
    refine ⟨alone, carries, by simp, ?_⟩
    intro hash marked layerName isLayer
    rcases marked with stored | waits
    · exact Or.inl (covered hash stored layerName isLayer)
    · simp [SavingNode.Waiting] at waits
  have before :=
    EventRun.good_of_conditions (fun honest met => honest.next met)
      initially
      fun first event isPrefix =>
        careful first event
          (isPrefix.trans ((List.prefix_append _ _).trans probed))
  have loadable := before.loadable (careful _ _ probed) hit
  unfold SavingNode.run at loadable ⊢
  rwa [List.foldl_append]

/-! ## A model with two layers -/

/-- First layer of the model. -/
def firstLayer : String :=
  "model.layers.0.self_attn.attn"

/-- Second layer of the model. -/
def secondLayer : String :=
  "model.layers.1.self_attn.attn"

/-- A hash function that agrees with SHA-256 on the two names. -/
def sampleSha256
    (layerName : String) :
    Hash256 :=
  if layerName = firstLayer then
    ⟨[ 60, 192, 116, 84, 103, 51, 115, 8, 67, 148, 153, 118, 210, 243, 84,
      199, 252, 130, 180, 142, 73, 150, 175, 131, 125, 207, 196, 63, 221,
      192, 36, 31 ], rfl⟩
  else
    ⟨[ 128, 252, 35, 240, 187, 79, 238, 23, 193, 130, 20, 51, 100, 58, 130,
      223, 231, 221, 216, 72, 41, 154, 33, 1, 191, 134, 21, 101, 175, 76,
      171, 65 ], rfl⟩

/-- One page of one byte in each layer. -/
def samplePages
    (layerName : String) :
    KvLayer where
  pages := if layerName = firstLayer then [[7]] else [[8]]
  nonempty := by
    split
    · simp
    · simp

/-- The one block of the prompt is saved in both layers. -/
def sampleSave : SaveEvent :=
  .save [⟨"request-0", [⟨.fill 68, 0, false⟩]⟩] samplePages

/-- A lone server after the given events. -/
def savedSample
    (events : List SaveEvent) :
    SavingNode :=
  SavingNode.run sampleSha256 sampleConnector [firstLayer, secondLayer]
    ⟨sampleNode [nodeA] nodeA, []⟩ events

/--
Only the batch of the first layer has been inserted.  The marker is reported,
but the second layer is not stored and its fetch finds nothing.
-/
theorem marker_without_second_layer :
    Hash256.fill 68 ∈
        (savedSample
          [sampleSave, .insertNext 0, .insertNext 0]).reported
            sampleConnector [.fill 68] ∧
      ¬ (savedSample
        [ sampleSave, .insertNext 0, .insertNext 0,
          .probe [.fill 68] ]).Loadable sampleSha256 sampleConnector
            [firstLayer, secondLayer] (.fill 68) ∧
      ((savedSample
        [ sampleSave, .insertNext 0, .insertNext 0,
          .probe [.fill 68] ]).node.serveFetch
            (sampleConnector.layerBlock sampleSha256 (.fill 68)
              secondLayer)).1.found =
        false := by
  refine ⟨by decide +kernel, ?_, by decide +kernel⟩
  intro loadable
  have stored := loadable.1 secondLayer (by simp)
  revert stored
  decide +kernel

/-- Steps that insert a block with room are careful. -/
theorem SavingNode.careful_insertNext
    {sha256 : String → Hash256}
    {connector : Connector}
    {layerNames : List String}
    {state : SavingNode}
    {index : Nat}
    {block : KvBlock}
    {rest : List KvBlock}
    (batch : state.inflightSaves[index]? = some (block :: rest))
    (room : state.node.store.HasRoom block block.tier) :
    Careful sha256 connector layerNames state (.insertNext index) := by
  intro other later isBatch _
  rw [batch, Option.some.injEq, List.cons.injEq] at isBatch
  rw [← isBatch.1]
  exact room

/-- Both batches are inserted before the hash is probed. -/
def sampleSaved : List SaveEvent :=
  [sampleSave, .insertNext 1, .insertNext 0, .insertNext 0, .insertNext 1]

/-- The probe reports the hash, and both layers can be loaded. -/
theorem probe_hits_loadable_sample :
    Hash256.fill 68 ∈
        (savedSample sampleSaved).reported sampleConnector [.fill 68] ∧
      (savedSample (sampleSaved ++ [.probe [.fill 68]])).Loadable
        sampleSha256 sampleConnector [firstLayer, secondLayer]
          (.fill 68) := by
  have hit :
      Hash256.fill 68 ∈
        (savedSample sampleSaved).reported sampleConnector [.fill 68] := by
    decide +kernel
  have copies (holds : BlockId → List UInt8 → Prop) :=
    TieredStore.create_zero_copies sampleStoreConfig sampleStoreConfig_small
      holds
  refine
    ⟨hit,
      probe_hits_loadable sampleSha256 sampleConnector
        [firstLayer, secondLayer]
        (CacheNode.alone_of_peers (sampleRouter_built nodeA [nodeA]) ?_)
        ⟨copies _, by simp [sampleNode]⟩ ?_ ?_ List.prefix_rfl hit⟩
  · decide
  · rintro hash ⟨tier, held⟩
    obtain ⟨data, held⟩ := Option.isSome_iff_exists.mp held
    exact ((copies fun _ _ => False).every held).elim
  · unfold SavingNode.run sampleSaved
    refine
      EventRun.conditions_cons ?_ <|
      EventRun.conditions_cons
        (SavingNode.careful_insertNext rfl (by decide +kernel)) <|
      EventRun.conditions_cons
        (SavingNode.careful_insertNext rfl (by decide +kernel)) <|
      EventRun.conditions_cons
        (SavingNode.careful_insertNext rfl (by decide +kernel)) <|
      EventRun.conditions_cons
        (SavingNode.careful_insertNext rfl (by decide +kernel)) <|
      EventRun.conditions_cons ?_
      EventRun.conditions_nil
    · intro payload stored spec inPayload one _ other _ inRange
      have onePage (layerName : String) :
          (samplePages layerName).pages.length = 1 := by
        unfold samplePages
        split
        · rfl
        · rfl
      rwa [onePage] at inRange ⊢
    · intro hash isHash layerName isLayer waits
      clear waits
      rw [List.mem_singleton.mp isHash]
      revert layerName
      decide +kernel

end Lethe
