import Lethe.Connector
import Lethe.InsertReach
import Lethe.Service

namespace Lethe

/-!
# Which blocks the connector loads

The pending load of a request is a number of blocks, and the blocks to load
are that many leading blocks of the prompt.  The tokens they stand for lie
behind those computed locally, so the two regions agree only when nothing was
computed locally.
-/

/-- A call that tells the connector about the allocation of a request. -/
structure AllocCall where
  request : Request
  blockIdGroups : List (List Nat)
  numExternalTokens : Nat

/-- The blocks that a list of payloads holds for one request. -/
def specsOf
    (payloads : List RequestPayload)
    (requestId : String) :
    List BlockSpec :=
  (payloads.filter fun payload => payload.requestId = requestId).flatMap
    RequestPayload.blocks

namespace Connector

/-- The connector after calls for several requests. -/
def afterAllocs
    (connector : Connector)
    (calls : List AllocCall) :
    Connector :=
  calls.foldl
    (fun current call =>
      current.updateStateAfterAlloc call.request call.blockIdGroups
        call.numExternalTokens)
    connector

/-- A block that is to be loaded into its page. -/
def loadSpec
    (block : Hash256 × Nat) :
    BlockSpec :=
  ⟨block.1, block.2, true⟩

/-- A block that is to be stored from its page. -/
def storeSpec
    (block : Hash256 × Nat) :
    BlockSpec :=
  ⟨block.1, block.2, false⟩

/-- The prompt blocks with a page, in prompt order. -/
def pagedBlocks
    (blake3 : List UInt8 → Hash256)
    (connector : Connector)
    (request : Request)
    (allocated : List Nat) :
    List (Hash256 × Nat) :=
  (connector.promptHashes blake3 request).zip allocated

/-- The blocks of the tokens between two positions of the prompt. -/
def regionSpecs
    (blake3 : List UInt8 → Hash256)
    (connector : Connector)
    (request : Request)
    (allocated : List Nat)
    (first last : Nat) :
    List BlockSpec :=
  (((connector.pagedBlocks blake3 request allocated).drop
      (first / connector.blockSize)).take
    (last / connector.blockSize - first / connector.blockSize)).map loadSpec

/-! ## Other requests -/

section Others

variable
  {blake3 : List UInt8 → Hash256}
  {connector : Connector}
  {requestId : String}

/-- A call for another request leaves a pending load alone. -/
theorem lookup_updateStateAfterAlloc_other
    {request : Request}
    (different : request.requestId ≠ requestId)
    (groups : List (List Nat))
    (tokens : Nat) :
    (connector.updateStateAfterAlloc request groups
        tokens).requestsNeedLoad.lookup requestId =
      connector.requestsNeedLoad.lookup requestId := by
  unfold updateStateAfterAlloc
  split
  · rfl
  · split
    · rfl
    · dsimp only
      split
      · rfl
      · exact AList.lookup_insert_ne different.symm

@[simp] theorem blockSize_updateStateAfterAlloc
    (request : Request)
    (groups : List (List Nat))
    (tokens : Nat) :
    (connector.updateStateAfterAlloc request groups tokens).blockSize =
      connector.blockSize := by
  unfold updateStateAfterAlloc
  split
  · rfl
  · split
    · rfl
    · dsimp only
      split
      · rfl
      · rfl

/-- Calls for other requests leave the pending load and the settings alone. -/
theorem afterAllocs_others
    (connector : Connector)
    {calls : List AllocCall}
    (different : ∀ call ∈ calls, call.request.requestId ≠ requestId) :
    (connector.afterAllocs calls).requestsNeedLoad.lookup requestId =
        connector.requestsNeedLoad.lookup requestId ∧
      (connector.afterAllocs calls).blockSize = connector.blockSize := by
  unfold afterAllocs
  induction calls generalizing connector with
  | nil =>
      exact ⟨rfl, rfl⟩
  | cons call rest inductionHypothesis =>
      rw [List.foldl_cons]
      obtain ⟨sameLoad, sameSize⟩ :=
        inductionHypothesis
          (connector.updateStateAfterAlloc call.request call.blockIdGroups
            call.numExternalTokens)
          fun later member =>
            different later (List.mem_cons_of_mem _ member)
      rw [sameLoad, sameSize, blockSize_updateStateAfterAlloc]
      exact
        ⟨lookup_updateStateAfterAlloc_other
          (different call List.mem_cons_self) _ _, rfl⟩

/-- A payload of another request is not among the blocks of a request. -/
theorem specsOf_appendPayload_other
    {other : String}
    (different : other ≠ requestId)
    (payloads : List RequestPayload)
    (blocks : List BlockSpec) :
    specsOf (appendPayload payloads other blocks) requestId =
      specsOf payloads requestId := by
  unfold appendPayload
  split
  · rfl
  · simp [specsOf, different]

/-- The payload of a request is appended to its blocks. -/
theorem specsOf_appendPayload_same
    (payloads : List RequestPayload)
    (blocks : List BlockSpec) :
    specsOf (appendPayload payloads requestId blocks) requestId =
      specsOf payloads requestId ++ blocks := by
  unfold appendPayload
  split
  · next none =>
      rw [none, List.append_nil]
  · simp [specsOf]

/-- What scheduling keeps of a request that is not scheduled. -/
structure Untouched
    (requestId : String)
    (before after : ConnectorMetadata × Connector) : Prop where
  loads_eq :
    specsOf after.1.loads requestId = specsOf before.1.loads requestId
  stores_eq :
    specsOf after.1.stores requestId = specsOf before.1.stores requestId
  lookup_eq :
    after.2.requestsNeedLoad.lookup requestId =
      before.2.requestsNeedLoad.lookup requestId
  blockSize_eq : after.2.blockSize = before.2.blockSize

theorem Untouched.refl
    (state : ConnectorMetadata × Connector) :
    Untouched requestId state state :=
  ⟨rfl, rfl, rfl, rfl⟩

theorem Untouched.trans
    {first second third : ConnectorMetadata × Connector}
    (earlier : Untouched requestId first second)
    (later : Untouched requestId second third) :
    Untouched requestId first third :=
  ⟨later.loads_eq.trans earlier.loads_eq,
    later.stores_eq.trans earlier.stores_eq,
    later.lookup_eq.trans earlier.lookup_eq,
    later.blockSize_eq.trans earlier.blockSize_eq⟩

/-- Scheduling another request. -/
theorem scheduleRequest_other
    (state : ConnectorMetadata × Connector)
    {newReq : NewRequest}
    (different : newReq.reqId ≠ requestId) :
    Untouched requestId state (scheduleRequest blake3 state newReq) := by
  unfold scheduleRequest
  split
  · exact .refl state
  · split
    · exact .refl state
    · exact
        ⟨specsOf_appendPayload_other different _ _,
          specsOf_appendPayload_other different _ _,
          AList.lookup_erase_ne different.symm, rfl⟩

/-- Scheduling any number of other requests. -/
theorem foldl_scheduleRequest_others
    (blake3 : List UInt8 → Hash256)
    (state : ConnectorMetadata × Connector)
    {newReqs : List NewRequest}
    (different : ∀ newReq ∈ newReqs, newReq.reqId ≠ requestId) :
    Untouched requestId state
      (newReqs.foldl (scheduleRequest blake3) state) := by
  induction newReqs generalizing state with
  | nil =>
      exact .refl state
  | cons newReq rest inductionHypothesis =>
      rw [List.foldl_cons]
      exact
        (scheduleRequest_other state
          (different newReq List.mem_cons_self)).trans
          (inductionHypothesis _ fun later member =>
            different later (List.mem_cons_of_mem _ member))

end Others

/-! ## The blocks of one request -/

section Request

variable
  {blake3 : List UInt8 → Hash256}
  {connector : Connector}
  {request : Request}
  {allocated : List Nat}

/-- The paged blocks are marked as loads up to the pending number. -/
theorem blockSpecs_eq
    (nLoad : Nat) :
    connector.blockSpecs blake3 request.promptTokenIds allocated nLoad =
      (connector.pagedBlocks blake3 request allocated).mapIdx
        fun index block => ⟨block.1, block.2, decide (index < nLoad)⟩ := by
  have sameBlocks :
      (blockHashes blake3 connector.blockSize request.promptTokenIds
          (min (request.promptTokenIds.length / connector.blockSize)
            allocated.length)).zip allocated =
        connector.pagedBlocks blake3 request allocated := by
    rw [blockHashes_take blake3 connector.blockSize request.promptTokenIds
      (Nat.min_le_left _ _), pagedBlocks, promptHashes]
    conv_rhs => rw [List.zip_eq_zip_take_min]
    rw [length_blockHashes]
    conv_lhs => rw [List.zip_eq_zip_take_min]
    simp [List.take_take]
  rw [blockSpecs, sameBlocks]

/-- The blocks before the pending number are loaded, the others stored. -/
theorem blockSpecs_append
    (nLoad : Nat) :
    connector.blockSpecs blake3 request.promptTokenIds allocated nLoad =
      ((connector.pagedBlocks blake3 request allocated).take nLoad).map
          loadSpec ++
        ((connector.pagedBlocks blake3 request allocated).drop nLoad).map
          storeSpec := by
  rw [blockSpecs_eq]
  generalize connector.pagedBlocks blake3 request allocated = blocks
  refine List.ext_getElem (by simp; omega) ?_
  intro index inside _
  rw [List.getElem_mapIdx]
  by_cases isLoad : index < nLoad
  · rw [List.getElem_append_left (by simp at inside ⊢; omega)]
    simp [loadSpec, isLoad]
  · rw [List.getElem_append_right (by simp; omega)]
    have position :
        nLoad + (index - min nLoad blocks.length) = index := by
      simp at inside
      omega
    simp [storeSpec, isLoad, position]

/-- Blocks to load. -/
theorem loads_blockSpecs
    (nLoad : Nat) :
    ((connector.blockSpecs blake3 request.promptTokenIds allocated
        nLoad).filter fun spec => spec.isHit) =
      ((connector.pagedBlocks blake3 request allocated).take nLoad).map
        loadSpec := by
  rw [blockSpecs_append, List.filter_append, List.filter_map,
    List.filter_map]
  simp [Function.comp_def, loadSpec, storeSpec]

/-- Blocks to store. -/
theorem stores_blockSpecs
    (nLoad : Nat) :
    ((connector.blockSpecs blake3 request.promptTokenIds allocated
        nLoad).filter fun spec => !spec.isHit) =
      ((connector.pagedBlocks blake3 request allocated).drop nLoad).map
        storeSpec := by
  rw [blockSpecs_append, List.filter_append, List.filter_map,
    List.filter_map]
  simp [Function.comp_def, loadSpec, storeSpec]

/-- The paged blocks depend on the block size only. -/
theorem pagedBlocks_congr
    {other : Connector}
    (sameSize : other.blockSize = connector.blockSize) :
    other.pagedBlocks blake3 request allocated =
      connector.pagedBlocks blake3 request allocated := by
  rw [pagedBlocks, pagedBlocks, promptHashes, promptHashes, sameSize]

/-- A request without tokens or pages has no paged blocks. -/
theorem pagedBlocks_of_skipped
    (skipped : request.promptTokenIds = [] ∨ allocated = []) :
    connector.pagedBlocks blake3 request allocated = [] := by
  rw [← List.length_eq_zero_iff, pagedBlocks, promptHashes, List.length_zip,
    length_blockHashes]
  rcases skipped with noTokens | noPages
  · simp [noTokens]
  · simp [noPages]

/-- Scheduling a request splits its paged blocks at the pending number. -/
theorem buildConnectorMeta_specs
    (blake3 : List UInt8 → Hash256)
    {nLoad : Nat}
    (pending :
      ((connector.requestsNeedLoad.lookup request.requestId).map
        PendingLoad.nBlocks).getD 0 = nLoad)
    (groups : List (List Nat))
    {earlier later : List NewRequest}
    (earlierDiffer :
      ∀ newReq ∈ earlier, newReq.reqId ≠ request.requestId)
    (laterDiffer :
      ∀ newReq ∈ later, newReq.reqId ≠ request.requestId) :
    let metadata :=
      (connector.buildConnectorMeta blake3
        (earlier ++
          ⟨request.requestId, request.promptTokenIds,
            allocated :: groups⟩ :: later)).1
    specsOf metadata.loads request.requestId =
        ((connector.pagedBlocks blake3 request allocated).take nLoad).map
          loadSpec ∧
      specsOf metadata.stores request.requestId =
        ((connector.pagedBlocks blake3 request allocated).drop nLoad).map
          storeSpec := by
  have before :=
    foldl_scheduleRequest_others blake3
      ({ blockSize := connector.blockSize }, connector) earlierDiffer
  dsimp only
  rw [buildConnectorMeta, List.foldl_append, List.foldl_cons]
  generalize
    earlier.foldl (scheduleRequest blake3)
      ({ blockSize := connector.blockSize }, connector) = state
    at before ⊢
  have after :=
    foldl_scheduleRequest_others blake3
      (scheduleRequest blake3 state
        ⟨request.requestId, request.promptTokenIds, allocated :: groups⟩)
      laterDiffer
  rw [after.loads_eq, after.stores_eq]
  have stillPending :
      ((state.2.requestsNeedLoad.lookup request.requestId).map
        PendingLoad.nBlocks).getD 0 = nLoad := by
    rw [before.lookup_eq]
    exact pending
  have samePaged :
      ({ state.2 with
          requestsNeedLoad :=
            state.2.requestsNeedLoad.erase
              request.requestId } : Connector).pagedBlocks blake3 request
          allocated =
        connector.pagedBlocks blake3 request allocated :=
    pagedBlocks_congr before.blockSize_eq
  by_cases skipped : request.promptTokenIds = [] ∨ allocated = []
  · have noBlocks : connector.pagedBlocks blake3 request allocated = [] :=
      pagedBlocks_of_skipped skipped
    simp only [scheduleRequest, skipped, ↓reduceIte]
    rw [before.loads_eq, before.stores_eq, noBlocks]
    simp [specsOf]
  · simp only [scheduleRequest, skipped, ↓reduceIte, stillPending]
    rw [specsOf_appendPayload_same, specsOf_appendPayload_same,
      before.loads_eq, before.stores_eq, loads_blockSpecs, stores_blockSpecs,
      samePaged]
    simp [specsOf]

end Request

end Connector

/-! ## The external region -/

namespace Connector

section Region

variable
  {blake3 : List UInt8 → Hash256}
  {connector : Connector}
  {request : Request}
  {allocated : List Nat}

/-- The page of a prompt block is the allocated one at its index. -/
theorem pagedBlocks_page
    {index : Nat}
    {block : Hash256 × Nat}
    (found :
      (connector.pagedBlocks blake3 request allocated)[index]? =
        some block) :
    allocated[index]? = some block.2 := by
  rw [pagedBlocks, List.getElem?_zip_eq_some] at found
  exact found.2

/-- A page is allocated once. -/
theorem page_inj
    (distinct : allocated.Nodup)
    {left right page : Nat}
    (foundLeft : allocated[left]? = some page)
    (foundRight : allocated[right]? = some page) :
    left = right := by
  obtain ⟨inside, _⟩ := List.getElem?_eq_some_iff.mp foundLeft
  exact
    (List.getElem?_inj inside distinct).mp (foundLeft.trans foundRight.symm)

/-- The pending load of a request for which pages were allocated. -/
theorem lookup_updateStateAfterAlloc_same
    (connector : Connector)
    (request : Request)
    (groups : List (List Nat))
    {numExternalTokens count : Nat}
    (external : 0 < numExternalTokens)
    (isCount : numExternalTokens / connector.blockSize = count)
    (someBlocks : 0 < count)
    (enough : count ≤ allocated.length) :
    (connector.updateStateAfterAlloc request (allocated :: groups)
        numExternalTokens).requestsNeedLoad.lookup request.requestId =
      some ⟨count, allocated.take count⟩ := by
  have somePages : allocated ≠ [] := by
    intro none
    simp only [none, List.length_nil] at enough
    omega
  simp [updateStateAfterAlloc, isCount, somePages, Nat.min_eq_left enough,
    Nat.ne_of_gt external, Nat.ne_of_gt someBlocks]

/-- Reported tokens are whole blocks behind those computed locally. -/
theorem exists_region
    {World : Type}
    (blake3 : List UInt8 → Hash256)
    (network : Network World)
    (world : World)
    (positive : 0 < connector.blockSize)
    {numComputedTokens numExternalTokens : Nat}
    (aligned : connector.blockSize ∣ numComputedTokens)
    (reported :
      (connector.getNumNewMatchedTokens blake3 network request
        numComputedTokens world).1.1 = numExternalTokens)
    (external : 0 < numExternalTokens) :
    ∃ first last,
      first < last ∧
        last ≤ request.promptTokenIds.length / connector.blockSize ∧
        numComputedTokens / connector.blockSize = first ∧
        (numComputedTokens + numExternalTokens) / connector.blockSize =
          last ∧
        numExternalTokens / connector.blockSize = last - first ∧
        (first = 0 ↔ numComputedTokens = 0) := by
  obtain ⟨first, isFirst⟩ := aligned
  have inPrompt := connector.matchedBlocks_le blake3 network request world
  rw [connector.newTokens_eq] at reported
  generalize
    connector.matchedBlocks blake3 network request world = last
    at reported inPrompt
  have ends :
      numComputedTokens + numExternalTokens =
        last * connector.blockSize := by
    omega
  rw [Nat.mul_comm] at isFirst
  refine ⟨first, last, ?_, inPrompt, ?_, ?_, ?_, ?_⟩
  · refine Nat.lt_of_mul_lt_mul_right (a := connector.blockSize) ?_
    omega
  · rw [isFirst, Nat.mul_div_cancel first positive]
  · rw [ends, Nat.mul_div_cancel last positive]
  · rw [← reported, isFirst, ← Nat.sub_mul, Nat.mul_div_cancel _ positive]
  · rw [isFirst]
    simp [Nat.ne_of_gt positive]

/--
Loading as many leading blocks as the region has is loading the region, and
stores nothing of it, exactly if the region starts with the prompt.
-/
theorem leading_blocks_eq_region_iff
    (distinct : allocated.Nodup)
    {first last : Nat}
    (someBlocks : first < last)
    (paged :
      last ≤ (connector.pagedBlocks blake3 request allocated).length) :
    (((connector.pagedBlocks blake3 request allocated).take
            (last - first)).map loadSpec =
          (((connector.pagedBlocks blake3 request allocated).drop
            first).take (last - first)).map loadSpec ∧
        ∀ spec ∈ ((connector.pagedBlocks blake3 request allocated).drop
            (last - first)).map storeSpec,
          ∀ index,
            first ≤ index →
            index < last →
            allocated[index]? ≠ some spec.vllmBlockId) ↔
      first = 0 := by
  constructor
  · rintro ⟨sameLoads, _⟩
    have heads := congrArg (fun specs => specs[0]?) sameLoads
    have leading :
        0 < (connector.pagedBlocks blake3 request allocated).length := by
      omega
    have regional :
        first <
          (connector.pagedBlocks blake3 request allocated).length := by
      omega
    have positive : 0 < last - first := by
      omega
    simp only [List.getElem?_map, List.getElem?_take, positive, ↓reduceIte,
      List.getElem?_drop, Nat.add_zero, List.getElem?_eq_getElem leading,
      List.getElem?_eq_getElem regional, Option.map_some, loadSpec,
      Option.some.injEq, BlockSpec.mk.injEq] at heads
    have atStart :=
      pagedBlocks_page (List.getElem?_eq_getElem leading)
    have atFirst :=
      pagedBlocks_page (List.getElem?_eq_getElem regional)
    rw [heads.2.1] at atStart
    exact page_inj distinct atFirst atStart
  · intro isStart
    subst isStart
    refine ⟨by simp, ?_⟩
    intro spec member index _ inside isPage
    obtain ⟨block, stored, isSpec⟩ := List.mem_map.mp member
    subst isSpec
    obtain ⟨offset, found⟩ := List.mem_iff_getElem?.mp stored
    rw [List.getElem?_drop] at found
    have same := page_inj distinct isPage (pagedBlocks_page found)
    omega

end Region

end Connector

/--
A request whose external tokens were reported, allocated and scheduled gets
exactly the blocks of those tokens loaded, and none of them stored, if and
only if nothing of the prompt was computed locally.  Other requests may be
announced in between and scheduled in the same step.
-/
theorem load_region_iff_nothing_computed
    {World : Type}
    (blake3 : List UInt8 → Hash256)
    (network : Network World)
    (world : World)
    (connector : Connector)
    (positive : 0 < connector.blockSize)
    (request : Request)
    {numComputedTokens numExternalTokens : Nat}
    (aligned : connector.blockSize ∣ numComputedTokens)
    (reported :
      (connector.getNumNewMatchedTokens blake3 network request
        numComputedTokens world).1.1 = numExternalTokens)
    (external : 0 < numExternalTokens)
    {allocated : List Nat}
    (distinct : allocated.Nodup)
    (enough :
      (numComputedTokens + numExternalTokens) / connector.blockSize ≤
        allocated.length)
    (groups : List (List Nat))
    {otherCalls : List AllocCall}
    (othersDiffer :
      ∀ call ∈ otherCalls,
        call.request.requestId ≠ request.requestId)
    {earlier later : List NewRequest}
    (earlierDiffer :
      ∀ newReq ∈ earlier, newReq.reqId ≠ request.requestId)
    (laterDiffer :
      ∀ newReq ∈ later, newReq.reqId ≠ request.requestId) :
    let announced :=
      (connector.updateStateAfterAlloc request (allocated :: groups)
        numExternalTokens).afterAllocs otherCalls
    let metadata :=
      (announced.buildConnectorMeta blake3
        (earlier ++
          ⟨request.requestId, request.promptTokenIds,
            allocated :: groups⟩ :: later)).1
    (specsOf metadata.loads request.requestId =
          connector.regionSpecs blake3 request allocated numComputedTokens
            (numComputedTokens + numExternalTokens) ∧
        ∀ spec ∈ specsOf metadata.stores request.requestId,
          ∀ index,
            numComputedTokens / connector.blockSize ≤ index →
            index <
              (numComputedTokens + numExternalTokens) /
                connector.blockSize →
            allocated[index]? ≠ some spec.vllmBlockId) ↔
      numComputedTokens = 0 := by
  obtain
    ⟨first, last, someBlocks, inPrompt, firstBlock, lastBlock, externalBlocks,
      startsPrompt⟩ :=
    Connector.exists_region blake3 network world positive aligned reported
      external
  rw [lastBlock] at enough
  have paged :
      last ≤ (connector.pagedBlocks blake3 request allocated).length := by
    simp only [Connector.pagedBlocks, Connector.promptHashes,
      List.length_zip, length_blockHashes]
    omega
  obtain ⟨sameLoad, sameSize⟩ :=
    (connector.updateStateAfterAlloc request (allocated :: groups)
      numExternalTokens).afterAllocs_others othersDiffer
  have pending :
      ((((connector.updateStateAfterAlloc request (allocated :: groups)
          numExternalTokens).afterAllocs otherCalls).requestsNeedLoad.lookup
            request.requestId).map PendingLoad.nBlocks).getD 0 =
        last - first := by
    rw [sameLoad,
      connector.lookup_updateStateAfterAlloc_same request groups external
        externalBlocks (by omega) (by omega)]
    rfl
  obtain ⟨loads, stores⟩ :=
    Connector.buildConnectorMeta_specs blake3 pending groups earlierDiffer
      laterDiffer
  rw [Connector.blockSize_updateStateAfterAlloc] at sameSize
  rw [Connector.pagedBlocks_congr sameSize] at loads stores
  dsimp only at loads stores ⊢
  rw [loads, stores, Connector.regionSpecs, firstBlock, lastBlock,
    Connector.leading_blocks_eq_region_iff distinct someBlocks paged,
    startsPrompt]

/-! ## A prompt of two blocks and a half -/

/-- Digest of the first two tokens. -/
def firstDigest : List UInt8 := [
  70, 105, 52, 63, 211, 145, 124, 146, 157, 114, 224,
  245, 211, 68, 155, 214, 23, 196, 118, 156, 68, 11,
  23, 93, 195, 96, 100, 191, 185, 143, 50, 62]

/-- Digest of the next two tokens, chained to the first. -/
def secondDigest : List UInt8 := [
  76, 176, 184, 255, 249, 237, 167, 165, 171, 185, 136,
  12, 31, 175, 42, 210, 253, 73, 70, 251, 103, 166,
  11, 74, 176, 246, 191, 152, 235, 153, 42, 149]

/-- A hash function that agrees with BLAKE3 on the blocks of the prompt. -/
def promptBlake3 : List UInt8 → Hash256 :=
  digestTable [
    (List.replicate 32 0 ++ [1, 0, 0, 0, 2, 0, 0, 0], firstDigest),
    (firstDigest ++ [3, 0, 0, 0, 4, 0, 0, 0], secondDigest)]

/-- Hash of the first block. -/
def firstHash : Hash256 :=
  ⟨firstDigest, by decide⟩

/-- Hash of the second block. -/
def secondHash : Hash256 :=
  ⟨secondDigest, by decide⟩

/-- Five tokens. -/
def samplePrompt : Request :=
  ⟨"request-0", [1, 2, 3, 4, 5]⟩

/-- Blocks of two tokens, and a client of a single address. -/
def sampleConnector : Connector where
  blockSize := 2
  modelId := 0
  client := LetheClient.create promptBlake3 "lethe-node0:50051" ∅
  requestsNeedLoad := ∅

/-- The first node listens at every address. -/
def sampleNetwork : Network ServedCluster :=
  ServedCluster.network fun _ => some nodeA

/-- A single server that has both blocks of the prompt. -/
def sampleServed : ServedCluster where
  cluster :=
    ((sampleCluster [nodeA]).inserted nodeA
        { id := sampleConnector.presenceMarker firstHash, data := [1] }
      ).inserted nodeA
        { id := sampleConnector.presenceMarker secondHash, data := [1] }
  faults := []

/-- The step's blocks when some leading tokens were computed locally. -/
def sampleMetadata
    (numComputedTokens : Nat) :
    ConnectorMetadata :=
  ((sampleConnector.updateStateAfterAlloc samplePrompt [[10, 11, 12]]
    (sampleConnector.getNumNewMatchedTokens promptBlake3 sampleNetwork
      samplePrompt numComputedTokens sampleServed).1.1).buildConnectorMeta
    promptBlake3 [⟨"request-0", [1, 2, 3, 4, 5], [[10, 11, 12]]⟩]).1

/--
With the first block computed locally, the connector reports the second one
but loads the first over it and stores the second, which nobody computes.
-/
theorem connector_loads_computed_block :
    (sampleConnector.getNumNewMatchedTokens promptBlake3 sampleNetwork
        samplePrompt 2 sampleServed).1.1 = 2 ∧
      sampleConnector.regionSpecs promptBlake3 samplePrompt [10, 11, 12] 2
        4 = [⟨secondHash, 11, true⟩] ∧
      specsOf (sampleMetadata 2).loads "request-0" =
        [⟨firstHash, 10, true⟩] ∧
      specsOf (sampleMetadata 2).stores "request-0" =
        [⟨secondHash, 11, false⟩] := by
  decide +kernel

theorem load_region_iff_nothing_computed_sample :
    specsOf (sampleMetadata 0).loads "request-0" =
        [⟨firstHash, 10, true⟩, ⟨secondHash, 11, true⟩] ∧
      specsOf (sampleMetadata 0).loads "request-0" =
        sampleConnector.regionSpecs promptBlake3 samplePrompt [10, 11, 12]
          0 4 := by
  have reported :
      (sampleConnector.getNumNewMatchedTokens promptBlake3 sampleNetwork
        samplePrompt 0 sampleServed).1.1 = 4 := by
    decide +kernel
  have distinct : ([10, 11, 12] : List Nat).Nodup := by
    decide
  have settled :=
    load_region_iff_nothing_computed promptBlake3 sampleNetwork
      sampleServed sampleConnector (by decide) samplePrompt (by decide)
      reported (by decide) distinct (by decide) []
      (List.forall_mem_nil _) (List.forall_mem_nil _)
      (List.forall_mem_nil _)
  refine ⟨by decide +kernel, ?_⟩
  rw [sampleMetadata, reported]
  exact (settled.mpr rfl).1

end Lethe
