import Lethe.Client

namespace Lethe

/-!
# The vLLM connector, scheduler side

The scheduler asks the connector how many tokens of a prompt the cluster has,
tells it which blocks were allocated for them, and collects the blocks to load
and to store in this step.  The three calls share only a table of pending
loads by request.
-/

/-- Hash of a block of tokens, chained to the hash of the block before it. -/
def chainedBlockHash
    (blake3 : List UInt8 → Hash256)
    (prevHash : Hash256)
    (blockTokens : List UInt32) :
    Hash256 :=
  blake3
    (prevHash.bytes ++
      blockTokens.flatMap fun token => LittleEndian.encode 4 token.toNat)

/-- Hashes of consecutive blocks, each chained to the one before. -/
def hashChain
    (blake3 : List UInt8 → Hash256) :
    Hash256 → List (List UInt32) → List Hash256
  | _, [] => []
  | running, block :: rest =>
      let next := chainedBlockHash blake3 running block
      next :: hashChain blake3 next rest

/-- The first blocks of a prompt. -/
def promptBlocks
    (blockSize : Nat)
    (tokenIds : List UInt32)
    (count : Nat) :
    List (List UInt32) :=
  (List.range count).map fun index =>
    (tokenIds.drop (index * blockSize)).take blockSize

/-- Chained hashes of the first blocks of a prompt. -/
def blockHashes
    (blake3 : List UInt8 → Hash256)
    (blockSize : Nat)
    (tokenIds : List UInt32)
    (count : Nat) :
    List Hash256 :=
  hashChain blake3 (.fill 0) (promptBlocks blockSize tokenIds count)

/-- Fewer blocks are leading blocks. -/
theorem take_promptBlocks
    (blockSize : Nat)
    (tokenIds : List UInt32)
    {fewer more : Nat}
    (ordered : fewer ≤ more) :
    (promptBlocks blockSize tokenIds more).take fewer =
      promptBlocks blockSize tokenIds fewer := by
  rw [promptBlocks, promptBlocks, ← List.map_take, List.take_range,
    Nat.min_eq_left ordered]

section Hashes

variable (blake3 : List UInt8 → Hash256)

@[simp] theorem length_hashChain
    (running : Hash256)
    (blocks : List (List UInt32)) :
    (hashChain blake3 running blocks).length = blocks.length := by
  induction blocks generalizing running with
  | nil =>
      rfl
  | cons block rest inductionHypothesis =>
      simp [hashChain, inductionHypothesis]

/-- Hashes of leading blocks do not depend on later ones. -/
theorem hashChain_take
    (running : Hash256)
    (blocks : List (List UInt32))
    (count : Nat) :
    hashChain blake3 running (blocks.take count) =
      (hashChain blake3 running blocks).take count := by
  induction blocks generalizing running count with
  | nil =>
      simp [hashChain]
  | cons block rest inductionHypothesis =>
      cases count with
      | zero =>
          simp [hashChain]
      | succ count =>
          simp [hashChain, inductionHypothesis]

@[simp] theorem length_blockHashes
    (blockSize : Nat)
    (tokenIds : List UInt32)
    (count : Nat) :
    (blockHashes blake3 blockSize tokenIds count).length = count := by
  simp [blockHashes, promptBlocks]

/-- Fewer blocks have the leading hashes of more blocks. -/
theorem blockHashes_take
    (blockSize : Nat)
    (tokenIds : List UInt32)
    {fewer more : Nat}
    (ordered : fewer ≤ more) :
    blockHashes blake3 blockSize tokenIds fewer =
      (blockHashes blake3 blockSize tokenIds more).take fewer := by
  rw [blockHashes, ← take_promptBlocks blockSize tokenIds ordered,
    hashChain_take]
  rfl

end Hashes

/-- A request as the scheduler shows it to the connector. -/
structure Request where
  requestId : String
  promptTokenIds : List UInt32

/-- A load that was announced for a request. -/
structure PendingLoad where
  nBlocks : Nat
  allocatedBlockIds : List Nat

/-- A request that is scheduled for the first time in a step. -/
structure NewRequest where
  reqId : String
  promptTokenIds : List UInt32
  blockIds : List (List Nat)

/-- One block to load or to store. -/
structure BlockSpec where
  chainedHash : Hash256
  vllmBlockId : Nat
  isHit : Bool
  deriving DecidableEq

/-- The blocks of one request. -/
structure RequestPayload where
  requestId : String
  blocks : List BlockSpec
  deriving DecidableEq

/-- What the worker has to load and to store in one step. -/
structure ConnectorMetadata where
  loads : List RequestPayload := []
  stores : List RequestPayload := []
  blockSize : Nat
  deriving DecidableEq

/-- Settings, client and pending loads of the connector. -/
structure Connector where
  blockSize : Nat
  modelId : UInt32
  client : LetheClient
  requestsNeedLoad : AList (fun _ : String => PendingLoad)

/-- Layer under which the presence of a block is recorded. -/
def presenceLayer : UInt32 :=
  0

namespace Connector

/-- Identity that says whether a block is present. -/
def presenceMarker
    (connector : Connector)
    (hash : Hash256) :
    BlockId where
  hash := hash
  layer := presenceLayer
  headGroup := 0
  modelId := connector.modelId

/--
Tokens that the cluster has beyond those computed locally, and whether they
are loaded asynchronously.  Only leading hits count, and one block is held
back when they cover the whole prompt.
-/
def getNumNewMatchedTokens
    {World : Type}
    (blake3 : List UInt8 → Hash256)
    (network : Network World)
    (connector : Connector)
    (request : Request)
    (numComputedTokens : Nat)
    (world : World) :
    (Nat × Bool) × World :=
  let tokenIds := request.promptTokenIds
  if tokenIds = [] then
    ((0, false), world)
  else
    let nBlocks := tokenIds.length / connector.blockSize
    if nBlocks = 0 then
      ((0, false), world)
    else
      let hashes :=
        blockHashes blake3 connector.blockSize tokenIds nBlocks
      let looked :=
        connector.client.lookup network (hashes.map connector.presenceMarker)
          none world
      let hitSet := looked.1.hits.map fun hit => hit.blockId.hash
      let contiguousHits :=
        (hashes.takeWhile fun hash => hash ∈ hitSet).length
      let hitTokens := contiguousHits * connector.blockSize
      let heldTokens :=
        if tokenIds.length ≤ hitTokens then
          hitTokens - connector.blockSize
        else
          hitTokens
      ((heldTokens - numComputedTokens, false), looked.2)

/-- Note the load of a request for which blocks were allocated. -/
def updateStateAfterAlloc
    (connector : Connector)
    (request : Request)
    (blockIdGroups : List (List Nat))
    (numExternalTokens : Nat) :
    Connector :=
  if numExternalTokens = 0 then
    connector
  else
    match blockIdGroups with
    | [] => connector
    | group :: _ =>
        let wanted := numExternalTokens / connector.blockSize
        if group = [] ∨ wanted = 0 then
          connector
        else
          let nBlocks := min wanted group.length
          { connector with
            requestsNeedLoad :=
              connector.requestsNeedLoad.insert request.requestId
                ⟨nBlocks, group.take nBlocks⟩ }

/-- The blocks of a prompt that have a page, loads first. -/
def blockSpecs
    (blake3 : List UInt8 → Hash256)
    (connector : Connector)
    (tokenIds : List UInt32)
    (allocated : List Nat)
    (nLoad : Nat) :
    List BlockSpec :=
  let nWholeBlocks :=
    min (tokenIds.length / connector.blockSize) allocated.length
  ((blockHashes blake3 connector.blockSize tokenIds nWholeBlocks).zip
    allocated).mapIdx fun index block =>
      ⟨block.1, block.2, decide (index < nLoad)⟩

/-- Append the blocks of a request unless there are none. -/
def appendPayload
    (payloads : List RequestPayload)
    (requestId : String)
    (blocks : List BlockSpec) :
    List RequestPayload :=
  if blocks = [] then
    payloads
  else
    payloads ++ [⟨requestId, blocks⟩]

/-- Collect the blocks of one new request and forget its pending load. -/
def scheduleRequest
    (blake3 : List UInt8 → Hash256)
    (state : ConnectorMetadata × Connector)
    (newReq : NewRequest) :
    ConnectorMetadata × Connector :=
  match newReq.blockIds with
  | [] => state
  | allocated :: _ =>
      if newReq.promptTokenIds = [] ∨ allocated = [] then
        state
      else
        let pending := state.2.requestsNeedLoad.lookup newReq.reqId
        let popped : Connector :=
          { state.2 with
            requestsNeedLoad :=
              state.2.requestsNeedLoad.erase newReq.reqId }
        let nLoad := (pending.map PendingLoad.nBlocks).getD 0
        let specs :=
          popped.blockSpecs blake3 newReq.promptTokenIds allocated nLoad
        ({ state.1 with
            loads :=
              appendPayload state.1.loads newReq.reqId
                (specs.filter fun spec => spec.isHit)
            stores :=
              appendPayload state.1.stores newReq.reqId
                (specs.filter fun spec => !spec.isHit) },
          popped)

/-- Collect the blocks of all new requests of a step. -/
def buildConnectorMeta
    (blake3 : List UInt8 → Hash256)
    (connector : Connector)
    (scheduledNewReqs : List NewRequest) :
    ConnectorMetadata × Connector :=
  scheduledNewReqs.foldl (scheduleRequest blake3)
    ({ blockSize := connector.blockSize }, connector)

/-! ## Reported tokens -/

section Reported

variable
  {World : Type}
  (blake3 : List UInt8 → Hash256)
  (network : Network World)
  (connector : Connector)
  (request : Request)
  (world : World)

/-- Hashes of all whole blocks of the prompt. -/
def promptHashes :
    List Hash256 :=
  blockHashes blake3 connector.blockSize request.promptTokenIds
    (request.promptTokenIds.length / connector.blockSize)

/-- Leading blocks of the prompt that the lookup reports as hits. -/
def leadingHits :
    Nat :=
  let hashes := connector.promptHashes blake3 request
  (hashes.takeWhile fun hash =>
    hash ∈
      (connector.client.lookup network (hashes.map connector.presenceMarker)
        none world).1.hits.map fun hit => hit.blockId.hash).length

/-- Blocks up to the end of the reported tokens. -/
def matchedBlocks :
    Nat :=
  let contiguousHits := connector.leadingHits blake3 network request world
  if request.promptTokenIds.length ≤
      contiguousHits * connector.blockSize then
    contiguousHits - 1
  else
    contiguousHits

theorem leadingHits_le :
    connector.leadingHits blake3 network request world ≤
      request.promptTokenIds.length / connector.blockSize := by
  unfold leadingHits
  refine Nat.le_trans (List.takeWhile_sublist _).length_le ?_
  rw [promptHashes, length_blockHashes]

theorem matchedBlocks_le :
    connector.matchedBlocks blake3 network request world ≤
      request.promptTokenIds.length / connector.blockSize := by
  have bounded := connector.leadingHits_le blake3 network request world
  unfold matchedBlocks
  dsimp only
  split
  · omega
  · exact bounded

/-- The reported tokens are those of the matched blocks not yet computed. -/
theorem newTokens_eq
    (numComputedTokens : Nat) :
    (connector.getNumNewMatchedTokens blake3 network request
        numComputedTokens world).1.1 =
      connector.matchedBlocks blake3 network request world *
          connector.blockSize -
        numComputedTokens := by
  have bounded := connector.matchedBlocks_le blake3 network request world
  unfold getNumNewMatchedTokens
  dsimp only
  split
  · next noTokens =>
      have none :
          connector.matchedBlocks blake3 network request world = 0 := by
        simpa [noTokens] using bounded
      simp [none]
  · split
    · next noBlocks =>
        have none :
            connector.matchedBlocks blake3 network request world = 0 := by
          omega
        simp [none]
    · unfold matchedBlocks leadingHits promptHashes
      dsimp only
      split
      · rw [Nat.sub_mul, Nat.one_mul]
      · rfl

end Reported

end Connector

end Lethe
