import Mathlib.Order.Bounds.Basic
import Lethe.PrefixHits

namespace Lethe

/-!
# Tokens that the connector reports and blocks that it saves

The number of tokens reported to the scheduler is the largest one that is safe
for it: whole blocks, all present, and at least one token of the prompt left to
compute.

The blocks to save are chosen by the length of the prompt and by the pages of
the request.  A step that schedules only part of a prompt may end inside a
block whose page is allocated already; that block is saved before it is full.
-/

namespace Connector

section Tokens

variable
  {World : Type}
  (blake3 : List UInt8 → Hash256)
  (network : Network World)
  (connector : Connector)
  (request : Request)
  (world : World)

/-- The hashes that the lookup of a prompt reports as hits. -/
def hitHashes :
    List Hash256 :=
  (connector.client.lookup network
    ((connector.promptHashes blake3 request).map connector.presenceMarker)
    none world).1.hits.map fun hit => hit.blockId.hash

/--
A number of tokens that the scheduler may take over: whole blocks that are all
present together with those before them and leave something to compute.
-/
structure SafeCount
    (numComputedTokens count : Nat) :
    Prop where
  whole : connector.blockSize ∣ count
  room :
    0 < count →
    numComputedTokens + count < request.promptTokenIds.length
  present :
    0 < count →
    ∀ index < (numComputedTokens + count) / connector.blockSize,
      ∃ hash ∈ connector.hitHashes blake3 network request world,
        (connector.promptHashes blake3 request)[index]? = some hash

/-- The leading hits reach as far as all blocks are hits. -/
theorem le_leadingHits_iff
    (count : Nat) :
    count ≤ connector.leadingHits blake3 network request world ↔
      ∀ index < count,
        ∃ hash ∈ connector.hitHashes blake3 network request world,
          (connector.promptHashes blake3 request)[index]? = some hash := by
  cases count with
  | zero =>
      simp
  | succ last =>
      unfold leadingHits
      dsimp only
      rw [Nat.succ_le_iff, lt_length_takeWhile_iff]
      simp only [decide_eq_true_eq, Nat.lt_succ_iff]
      constructor
      · intro all index bounded
        obtain ⟨hash, isHash, isHit⟩ := all index bounded
        exact ⟨hash, isHit, isHash⟩
      · intro all index bounded
        obtain ⟨hash, isHit, isHash⟩ := all index bounded
        exact ⟨hash, isHash, isHit⟩

/-- The matched blocks are the most that are hits and end inside the prompt. -/
theorem le_matchedBlocks_iff
    (positive : 0 < connector.blockSize)
    (someTokens : request.promptTokenIds ≠ [])
    (count : Nat) :
    count ≤ connector.matchedBlocks blake3 network request world ↔
      count ≤ connector.leadingHits blake3 network request world ∧
        count * connector.blockSize < request.promptTokenIds.length := by
  have tokens : 0 < request.promptTokenIds.length :=
    List.length_pos_iff.mpr someTokens
  have inPrompt :
      connector.leadingHits blake3 network request world *
          connector.blockSize ≤
        request.promptTokenIds.length :=
    (Nat.le_div_iff_mul_le positive).mp
      (connector.leadingHits_le blake3 network request world)
  unfold matchedBlocks
  dsimp only
  generalize connector.leadingHits blake3 network request world = hits
    at inPrompt ⊢
  split
  · next all =>
      have whole :
          request.promptTokenIds.length = hits * connector.blockSize := by
        omega
      have someHits : 0 < hits := by
        rw [whole] at tokens
        exact Nat.pos_of_mul_pos_right tokens
      rw [whole, Nat.mul_lt_mul_right positive]
      omega
  · next notAll =>
      constructor
      · intro below
        have ends := Nat.mul_le_mul_right connector.blockSize below
        exact ⟨below, by omega⟩
      · exact fun both => both.1

/--
The reported number of tokens is the greatest that is safe for the scheduler.
-/
theorem matched_tokens_greatest_safe
    (positive : 0 < connector.blockSize)
    {numComputedTokens : Nat}
    (aligned : connector.blockSize ∣ numComputedTokens)
    (inside : numComputedTokens < request.promptTokenIds.length) :
    IsGreatest
      {count |
        connector.SafeCount blake3 network request world numComputedTokens
          count}
      (connector.getNumNewMatchedTokens blake3 network request
        numComputedTokens world).1.1 := by
  have someTokens : request.promptTokenIds ≠ [] :=
    List.length_pos_iff.mp (by omega)
  have reaches (count : Nat) :=
    connector.le_matchedBlocks_iff blake3 network request world positive
      someTokens count
  rw [newTokens_eq]
  constructor
  · have matched := (reaches _).mp (Nat.le_refl _)
    refine ⟨?_, ?_, ?_⟩
    · exact Nat.dvd_sub (Nat.dvd_mul_left _ _) aligned
    · intro some
      omega
    · intro some
      rw [Nat.add_sub_cancel' (by omega), Nat.mul_div_cancel _ positive]
      exact (connector.le_leadingHits_iff blake3 network request world _).mp
        matched.1
  · intro count safe
    rcases Nat.eq_zero_or_pos count with none | some
    · omega
    · obtain ⟨blocks, isBlocks⟩ := Nat.dvd_add aligned safe.whole
      have present := safe.present some
      have room := safe.room some
      rw [isBlocks, Nat.mul_div_cancel_left _ positive] at present
      rw [isBlocks, Nat.mul_comm] at room
      have below :=
        (reaches blocks).mpr
          ⟨(connector.le_leadingHits_iff blake3 network request world
            blocks).mpr present, room⟩
      have ends := Nat.mul_le_mul_right connector.blockSize below
      rw [Nat.mul_comm] at isBlocks
      omega

end Tokens

/-- One of two blocks is computed; the other one is reported. -/
theorem matched_tokens_greatest_safe_sample :
    (sampleConnector.getNumNewMatchedTokens promptBlake3 sampleNetwork
        samplePrompt 2 sampleServed).1.1 = 2 ∧
      IsGreatest
        {count |
          sampleConnector.SafeCount promptBlake3 sampleNetwork samplePrompt
            sampleServed 2 count}
        (sampleConnector.getNumNewMatchedTokens promptBlake3 sampleNetwork
          samplePrompt 2 sampleServed).1.1 :=
  ⟨by decide +kernel,
    sampleConnector.matched_tokens_greatest_safe promptBlake3 sampleNetwork
      samplePrompt sampleServed (by decide) (by decide) (by decide)⟩

/-! ## Saved blocks -/

section Saved

variable
  {blake3 : List UInt8 → Hash256}
  {connector : Connector}
  {request : Request}
  {allocated : List Nat}

/-- The hash and the page of a block. -/
def pageOf
    (spec : BlockSpec) :
    Hash256 × Nat :=
  (spec.chainedHash, spec.vllmBlockId)

/-- Blocks to load and to save are the paged blocks of the prompt in order. -/
theorem map_pageOf_split
    (blocks : List (Hash256 × Nat))
    (nLoad : Nat) :
    ((blocks.take nLoad).map loadSpec ++
      (blocks.drop nLoad).map storeSpec).map pageOf = blocks := by
  have loaded : pageOf ∘ loadSpec = id :=
    rfl
  have stored : pageOf ∘ storeSpec = id :=
    rfl
  rw [List.map_append, List.map_map, List.map_map, loaded, stored,
    List.map_id, List.map_id, List.take_append_drop]

/-- A request without a pending load gets at most its external blocks. -/
theorem nBlocks_updateStateAfterAlloc_le
    (fresh : connector.requestsNeedLoad.lookup request.requestId = none)
    (groups : List (List Nat))
    (numExternalTokens : Nat) :
    (((connector.updateStateAfterAlloc request groups
        numExternalTokens).requestsNeedLoad.lookup
          request.requestId).map PendingLoad.nBlocks).getD 0 ≤
      numExternalTokens / connector.blockSize := by
  unfold updateStateAfterAlloc
  split
  · simp [fresh]
  · split
    · simp [fresh]
    · dsimp only
      split
      · simp [fresh]
      · rw [AList.lookup_insert]
        exact Nat.min_le_left _ _

/-- The paged blocks of a request with pages for its first tokens. -/
theorem length_pagedBlocks
    (blake3 : List UInt8 → Hash256)
    (connector : Connector)
    (request : Request)
    (allocated : List Nat) :
    (connector.pagedBlocks blake3 request allocated).length =
      min (request.promptTokenIds.length / connector.blockSize)
        allocated.length := by
  simp [pagedBlocks, promptHashes]

/--
The blocks behind the loaded ones are full exactly if the scheduled tokens end
with a block or cover all blocks of the prompt.
-/
theorem all_full_iff
    {blockSize tokens promptBlocks paged nLoad : Nat}
    (positive : 0 < blockSize)
    (isPaged :
      paged = min promptBlocks ((tokens + blockSize - 1) / blockSize))
    (loadFull : nLoad ≤ tokens / blockSize) :
    (∀ position < paged - nLoad,
      (min nLoad paged + position + 1) * blockSize ≤ tokens) ↔
      tokens % blockSize = 0 ∨ promptBlocks ≤ tokens / blockSize := by
  have rounded :
      (tokens + blockSize - 1) / blockSize ≤ tokens / blockSize ↔
        tokens % blockSize = 0 := by
    rw [Nat.div_le_iff_le_mul_add_pred positive]
    have parts := Nat.div_add_mod tokens blockSize
    have below := Nat.mod_lt tokens positive
    omega
  have full (count : Nat) :
      count * blockSize ≤ tokens ↔ count ≤ tokens / blockSize :=
    (Nat.le_div_iff_mul_le positive).symm
  rw [← rounded]
  simp only [full]
  constructor
  · intro all
    rcases Nat.lt_or_ge nLoad paged with some | none
    · have last := all (paged - nLoad - 1) (by omega)
      omega
    · omega
  · intro covered position inside
    omega

end Saved

/--
The blocks that a step saves for a new request are all full exactly if the
tokens of the step end with a block or cover all whole blocks of the prompt.
Other requests may be announced in between and scheduled in the same step.
-/
theorem only_finished_blocks_saved_iff
    (blake3 : List UInt8 → Hash256)
    (connector : Connector)
    (positive : 0 < connector.blockSize)
    (request : Request)
    (fresh : connector.requestsNeedLoad.lookup request.requestId = none)
    (numComputedTokens numExternalTokens numScheduledTokens : Nat)
    {allocated : List Nat}
    (enough :
      allocated.length =
        (numComputedTokens + numExternalTokens + numScheduledTokens +
          connector.blockSize - 1) / connector.blockSize)
    (allocGroups groups : List (List Nat))
    {otherCalls : List AllocCall}
    (othersDiffer :
      ∀ call ∈ otherCalls,
        call.request.requestId ≠ request.requestId)
    {earlier later : List NewRequest}
    (earlierDiffer :
      ∀ newReq ∈ earlier, newReq.reqId ≠ request.requestId)
    (laterDiffer :
      ∀ newReq ∈ later, newReq.reqId ≠ request.requestId) :
    let announced :=
      (connector.updateStateAfterAlloc request allocGroups
        numExternalTokens).afterAllocs otherCalls
    let metadata :=
      (announced.buildConnectorMeta blake3
        (earlier ++
          ⟨request.requestId, request.promptTokenIds,
            allocated :: groups⟩ :: later)).1
    let loads := specsOf metadata.loads request.requestId
    let stores := specsOf metadata.stores request.requestId
    let tokens :=
      numComputedTokens + numExternalTokens + numScheduledTokens
    (loads ++ stores).map pageOf =
        connector.pagedBlocks blake3 request allocated ∧
      ((∀ position < stores.length,
          (loads.length + position + 1) * connector.blockSize ≤ tokens) ↔
        tokens % connector.blockSize = 0 ∨
          request.promptTokenIds.length / connector.blockSize ≤
            tokens / connector.blockSize) := by
  intro announced metadata loads stores tokens
  obtain ⟨sameLoad, sameSize⟩ :=
    (connector.updateStateAfterAlloc request allocGroups
      numExternalTokens).afterAllocs_others othersDiffer
  rw [blockSize_updateStateAfterAlloc] at sameSize
  obtain ⟨nLoad, pending⟩ :
      ∃ nLoad,
        ((announced.requestsNeedLoad.lookup request.requestId).map
          PendingLoad.nBlocks).getD 0 = nLoad :=
    ⟨_, rfl⟩
  have bounded :=
    nBlocks_updateStateAfterAlloc_le fresh allocGroups numExternalTokens
  rw [← sameLoad, pending] at bounded
  obtain ⟨isLoads, isStores⟩ :=
    buildConnectorMeta_specs blake3 pending groups earlierDiffer laterDiffer
  rw [pagedBlocks_congr sameSize] at isLoads isStores
  change loads = _ at isLoads
  change stores = _ at isStores
  refine ⟨?_, ?_⟩
  · rw [isLoads, isStores, map_pageOf_split]
  · have loadFull : nLoad ≤ tokens / connector.blockSize :=
      bounded.trans (Nat.div_le_div_right (by omega))
    have isPaged := connector.length_pagedBlocks blake3 request allocated
    rw [enough] at isPaged
    rw [isLoads, isStores, List.length_map, List.length_map,
      List.length_take, List.length_drop]
    exact all_full_iff positive isPaged loadFull

/-- The blocks that a step saves for the sample prompt on a cold cache. -/
def sampleStores
    (pages : List Nat) :
    List BlockSpec :=
  specsOf
    ((sampleConnector.updateStateAfterAlloc samplePrompt [pages]
      0).buildConnectorMeta promptBlake3
        [⟨"request-0", [1, 2, 3, 4, 5], [pages]⟩]).1.stores
    "request-0"

/--
Three tokens are scheduled and get two pages of two tokens each; the second
page is saved as a full block although its last token is not computed.
-/
theorem unfinished_block_saved :
    ([10, 11] : List Nat).length =
        (3 + sampleConnector.blockSize - 1) / sampleConnector.blockSize ∧
      sampleStores [10, 11] =
        [⟨firstHash, 10, false⟩, ⟨secondHash, 11, false⟩] ∧
      ¬ (1 + 1) * sampleConnector.blockSize ≤ 3 := by
  decide +kernel

/-- Four scheduled tokens end with a block. -/
theorem only_finished_blocks_saved_iff_sample :
    (sampleStores [10, 11]).length = 2 ∧
      ∀ position < (sampleStores [10, 11]).length,
        (position + 1) * 2 ≤ 4 := by
  have saved :=
    (only_finished_blocks_saved_iff promptBlake3 sampleConnector (by decide)
      samplePrompt (by decide) 0 0 4
      (show ([10, 11] : List Nat).length = _ by decide) [[10, 11]] []
      (List.forall_mem_nil _) (List.forall_mem_nil _)
      (List.forall_mem_nil _)).2.mpr (by decide)
  refine ⟨by decide +kernel, fun position inside => ?_⟩
  have full := saved position inside
  change _ ≤ 4 at full
  have noLoads :
      (specsOf
        ((sampleConnector.updateStateAfterAlloc samplePrompt [[10, 11]]
          0).buildConnectorMeta promptBlake3
            [⟨"request-0", [1, 2, 3, 4, 5], [[10, 11]]⟩]).1.loads
        "request-0").length = 0 := by
    decide +kernel
  change (List.length (specsOf _ "request-0") + position + 1) * 2 ≤ 4 at full
  omega

end Connector

end Lethe
