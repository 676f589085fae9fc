import Lethe.ConnectorLoads

namespace Lethe

/-!
# Delivery of pending loads

In each scheduler step the connector notes loads for requests whose blocks were
allocated, and then packs the work of the step for the worker.  It forgets a
noted load when it comes to the request in the list of newly scheduled
requests.  A request that is resumed after a preemption is not in that list, so
its load stays behind.
-/

/-- One scheduler step: the allocations and then the newly scheduled requests. -/
structure SchedulerStep where
  allocs : List AllocCall
  scheduledNewReqs : List NewRequest

/-- The pages of the first cache group, if the listing is not passed over. -/
def NewRequest.pages
    (newReq : NewRequest) :
    Option (List Nat) :=
  match newReq.blockIds with
  | [] => none
  | allocated :: _ =>
      if newReq.promptTokenIds = [] ∨ allocated = [] then
        none
      else
        some allocated

/-- The listing of a request that takes up its pending load. -/
def listingOf
    (scheduledNewReqs : List NewRequest)
    (requestId : String) :
    Option NewRequest :=
  scheduledNewReqs.find? fun newReq =>
    newReq.reqId = requestId ∧ newReq.pages.isSome

namespace Connector

/-- The call notes a load. -/
def records
    (connector : Connector)
    (call : AllocCall) :
    Bool :=
  match call.blockIdGroups with
  | [] => false
  | group :: _ =>
      group ≠ [] ∧ call.numExternalTokens / connector.blockSize ≠ 0

/-- Whole blocks of a listed prompt that have a page. -/
def wholeBlocks
    (connector : Connector)
    (newReq : NewRequest) :
    Nat :=
  min (newReq.promptTokenIds.length / connector.blockSize)
    (newReq.pages.getD []).length

/-- The metadata of a step and the connector after it. -/
def step
    (blake3 : List UInt8 → Hash256)
    (connector : Connector)
    (scheduled : SchedulerStep) :
    ConnectorMetadata × Connector :=
  (connector.afterAllocs scheduled.allocs).buildConnectorMeta blake3
    scheduled.scheduledNewReqs

/-- The connector after several steps. -/
def afterSteps
    (blake3 : List UInt8 → Hash256)
    (connector : Connector)
    (steps : List SchedulerStep) :
    Connector :=
  steps.foldl (fun current scheduled => (current.step blake3 scheduled).2)
    connector

/-- No load is left pending and every load noted in the step is delivered. -/
def Delivers
    (blake3 : List UInt8 → Hash256)
    (connector : Connector)
    (scheduled : SchedulerStep) : Prop :=
  (connector.step blake3 scheduled).2.requestsNeedLoad = ∅ ∧
    ∀ call ∈ scheduled.allocs,
      connector.records call = true →
      ∃ payload ∈ (connector.step blake3 scheduled).1.loads,
        payload.requestId = call.request.requestId

/--
Every request with a noted load is listed as new in the step, and the first
listing that is not passed over has a whole block with a page.
-/
def ListsLoads
    (connector : Connector)
    (scheduled : SchedulerStep) : Prop :=
  ∀ call ∈ scheduled.allocs,
    connector.records call = true →
    ∃ newReq,
      listingOf scheduled.scheduledNewReqs call.request.requestId =
          some newReq ∧
        0 < connector.wholeBlocks newReq

/-! ## Noting loads -/

section Noting

variable {connector : Connector}

/-- When a call notes a load. -/
theorem records_iff
    {call : AllocCall} :
    connector.records call = true ↔
      ∃ group rest,
        call.blockIdGroups = group :: rest ∧
          group ≠ [] ∧
          call.numExternalTokens / connector.blockSize ≠ 0 := by
  unfold records
  cases call.blockIdGroups with
  | nil =>
      simp
  | cons group rest =>
      rw [decide_eq_true_iff]
      constructor
      · intro recorded
        exact ⟨group, rest, rfl, recorded⟩
      · rintro ⟨_, _, same, recorded⟩
        cases same
        exact recorded

/-- A call that notes no load changes nothing. -/
theorem updateStateAfterAlloc_of_not_records
    {call : AllocCall}
    (unrecorded : ¬ connector.records call = true) :
    connector.updateStateAfterAlloc call.request call.blockIdGroups
        call.numExternalTokens =
      connector := by
  rw [records_iff] at unrecorded
  unfold updateStateAfterAlloc
  split
  · rfl
  · split
    · rfl
    · next group rest isGroups =>
        refine if_pos ?_
        by_contra neither
        rw [not_or] at neither
        exact unrecorded ⟨group, rest, isGroups, neither⟩

/-- A call that notes a load files a positive number of blocks. -/
theorem updateStateAfterAlloc_of_records
    {call : AllocCall}
    (recorded : connector.records call = true) :
    ∃ load : PendingLoad,
      0 < load.nBlocks ∧
        connector.updateStateAfterAlloc call.request call.blockIdGroups
            call.numExternalTokens =
          { connector with
            requestsNeedLoad :=
              connector.requestsNeedLoad.insert call.request.requestId
                load } := by
  obtain ⟨group, rest, isGroups, someGroup, someBlocks⟩ :=
    records_iff.mp recorded
  have someTokens : call.numExternalTokens ≠ 0 := by
    intro none
    rw [none, Nat.zero_div] at someBlocks
    exact someBlocks rfl
  refine
    ⟨⟨min (call.numExternalTokens / connector.blockSize) group.length,
      group.take
        (min (call.numExternalTokens / connector.blockSize)
          group.length)⟩, ?_, ?_⟩
  · have positive := List.length_pos_iff.mpr someGroup
    exact Nat.lt_min.mpr ⟨Nat.pos_of_ne_zero someBlocks, positive⟩
  · unfold updateStateAfterAlloc
    rw [if_neg someTokens, isGroups]
    exact if_neg (not_or.mpr ⟨someGroup, someBlocks⟩)

/-- All pending loads have blocks. -/
def LoadsPositive
    (connector : Connector) : Prop :=
  ∀ {requestId load},
    connector.requestsNeedLoad.lookup requestId = some load →
    0 < load.nBlocks

/-- Without pending loads there is none without blocks. -/
theorem loadsPositive_of_idle
    (idle : connector.requestsNeedLoad = ∅) :
    connector.LoadsPositive := by
  intro requestId load found
  rw [idle] at found
  simp at found

/-- What one call does to the pending loads. -/
theorem updateStateAfterAlloc_spec
    (positive : connector.LoadsPositive)
    (call : AllocCall) :
    let after :=
      connector.updateStateAfterAlloc call.request call.blockIdGroups
        call.numExternalTokens
    after.LoadsPositive ∧
      ∀ requestId,
        requestId ∈ after.requestsNeedLoad ↔
          requestId ∈ connector.requestsNeedLoad ∨
            (connector.records call = true ∧
              call.request.requestId = requestId) := by
  dsimp only
  by_cases recorded : connector.records call = true
  · obtain ⟨load, someBlocks, isAfter⟩ :=
      updateStateAfterAlloc_of_records recorded
    rw [isAfter]
    refine ⟨?_, ?_⟩
    · intro requestId other found
      by_cases same : requestId = call.request.requestId
      · subst same
        rw [AList.lookup_insert] at found
        cases found
        exact someBlocks
      · rw [AList.lookup_insert_ne same] at found
        exact positive found
    · intro requestId
      simp only [AList.mem_insert, recorded, true_and]
      rw [or_comm, eq_comm]
  · rw [updateStateAfterAlloc_of_not_records recorded]
    exact ⟨positive, fun requestId => by simp [recorded]⟩

/-- The pending loads after the allocations of a step. -/
theorem afterAllocs_spec
    (positive : connector.LoadsPositive)
    (calls : List AllocCall) :
    (connector.afterAllocs calls).blockSize = connector.blockSize ∧
      (connector.afterAllocs calls).LoadsPositive ∧
      ∀ requestId,
        requestId ∈ (connector.afterAllocs calls).requestsNeedLoad ↔
          requestId ∈ connector.requestsNeedLoad ∨
            ∃ call ∈ calls,
              connector.records call = true ∧
                call.request.requestId = requestId := by
  unfold afterAllocs
  induction calls generalizing connector with
  | nil =>
      exact ⟨rfl, positive, by simp⟩
  | cons call rest inductionHypothesis =>
      rw [List.foldl_cons]
      obtain ⟨positiveAfter, member⟩ :=
        updateStateAfterAlloc_spec positive call
      obtain ⟨sameSize, positiveLast, memberLast⟩ :=
        inductionHypothesis positiveAfter
      refine
        ⟨sameSize.trans (blockSize_updateStateAfterAlloc _ _ _),
          positiveLast, ?_⟩
      intro requestId
      have sameRecords (other : AllocCall) :
          (connector.updateStateAfterAlloc call.request
              call.blockIdGroups call.numExternalTokens).records other =
            connector.records other := by
        simp [records]
      rw [memberLast, member]
      simp only [sameRecords, List.mem_cons, exists_eq_or_imp, or_assoc]

end Noting

/-! ## Packing the work of a step -/

section Packing

variable {blake3 : List UInt8 → Hash256}

/-- The payloads name the request. -/
def Names
    (payloads : List RequestPayload)
    (requestId : String) : Prop :=
  ∃ payload ∈ payloads, payload.requestId = requestId

theorem names_appendPayload
    {payloads : List RequestPayload}
    {other requestId : String}
    {blocks : List BlockSpec} :
    Names (appendPayload payloads other blocks) requestId ↔
      Names payloads requestId ∨ (blocks ≠ [] ∧ other = requestId) := by
  unfold appendPayload Names
  split
  · next none =>
      simp [none]
  · next some =>
      simp [some, or_and_right, exists_or]

/-- A request has blocks to load if it has a whole block and a load. -/
theorem loads_ne_nil_iff
    {connector : Connector}
    {newReq : NewRequest}
    {allocated : List Nat}
    {nLoad : Nat} :
    ((connector.blockSpecs blake3 newReq.promptTokenIds allocated
        nLoad).filter fun spec => spec.isHit) ≠ [] ↔
      0 < min (newReq.promptTokenIds.length / connector.blockSize)
          allocated.length ∧
        0 < nLoad := by
  let request : Request := ⟨newReq.reqId, newReq.promptTokenIds⟩
  have loads :
      ((connector.blockSpecs blake3 newReq.promptTokenIds allocated
          nLoad).filter fun spec => spec.isHit) =
        ((connector.pagedBlocks blake3 request allocated).take
          nLoad).map loadSpec :=
    @loads_blockSpecs blake3 connector request allocated nLoad
  rw [loads, ← List.length_pos_iff, List.length_map, List.length_take,
    pagedBlocks, List.length_zip, promptHashes, length_blockHashes,
    Nat.lt_min, and_comm]

/-- Listings that are passed over change nothing. -/
theorem scheduleRequest_of_no_pages
    {state : ConnectorMetadata × Connector}
    {newReq : NewRequest}
    (noPages : newReq.pages = none) :
    scheduleRequest blake3 state newReq = state := by
  unfold NewRequest.pages at noPages
  unfold scheduleRequest
  split
  · rfl
  · next allocated rest isGroups =>
      rw [isGroups] at noPages
      refine if_pos ?_
      by_contra some
      simp [some] at noPages

/-- Other listings drop the pending load; it is packed if it has a block. -/
theorem scheduleRequest_of_pages
    (blake3 : List UInt8 → Hash256)
    (state : ConnectorMetadata × Connector)
    {newReq : NewRequest}
    (somePages : newReq.pages.isSome = true)
    (requestId : String) :
    (scheduleRequest blake3 state newReq).2 =
        { state.2 with
          requestsNeedLoad :=
            state.2.requestsNeedLoad.erase newReq.reqId } ∧
      (Names (scheduleRequest blake3 state newReq).1.loads requestId ↔
        Names state.1.loads requestId ∨
          (newReq.reqId = requestId ∧
            0 < state.2.wholeBlocks newReq ∧
            ∃ load,
              state.2.requestsNeedLoad.lookup newReq.reqId = some load ∧
                0 < load.nBlocks)) := by
  obtain ⟨allocated, isPages⟩ := Option.isSome_iff_exists.mp somePages
  have whole :
      state.2.wholeBlocks newReq =
        min (newReq.promptTokenIds.length / state.2.blockSize)
          allocated.length := by
    rw [wholeBlocks, isPages, Option.getD_some]
  unfold NewRequest.pages at isPages
  split at isPages
  · simp at isPages
  · next first rest isGroups =>
      split at isPages
      · simp at isPages
      · next taken =>
          cases isPages
          unfold scheduleRequest
          simp only [isGroups, if_neg taken, true_and]
          rw [names_appendPayload, loads_ne_nil_iff, whole]
          cases state.2.requestsNeedLoad.lookup newReq.reqId with
          | none =>
              simp
          | some load =>
              simp [and_comm, and_assoc]

/-- The pending load of a request after all listings, and whether it is packed. -/
theorem foldl_scheduleRequest_spec
    (blake3 : List UInt8 → Hash256)
    (newReqs : List NewRequest)
    (state : ConnectorMetadata × Connector)
    (requestId : String) :
    let after := newReqs.foldl (scheduleRequest blake3) state
    after.2.blockSize = state.2.blockSize ∧
      after.2.requestsNeedLoad.lookup requestId =
        (if (listingOf newReqs requestId).isSome then
          none
        else
          state.2.requestsNeedLoad.lookup requestId) ∧
      (Names after.1.loads requestId ↔
        Names state.1.loads requestId ∨
          ∃ newReq load,
            listingOf newReqs requestId = some newReq ∧
              0 < state.2.wholeBlocks newReq ∧
              state.2.requestsNeedLoad.lookup requestId = some load ∧
              0 < load.nBlocks) := by
  induction newReqs generalizing state with
  | nil =>
      simp [listingOf]
  | cons newReq rest inductionHypothesis =>
      dsimp only at inductionHypothesis ⊢
      rw [List.foldl_cons]
      obtain ⟨sameSize, pending, packed⟩ :=
        inductionHypothesis (scheduleRequest blake3 state newReq)
      rw [pending, packed, sameSize]
      clear pending packed sameSize inductionHypothesis
      cases isPages : newReq.pages with
      | none =>
          have passedOver :
              listingOf (newReq :: rest) requestId =
                listingOf rest requestId := by
            simp [listingOf, isPages]
          rw [scheduleRequest_of_no_pages isPages, passedOver]
          exact ⟨rfl, rfl, Iff.rfl⟩
      | some allocated =>
          obtain ⟨dropped, packs⟩ :=
            scheduleRequest_of_pages blake3 state (by rw [isPages]; rfl)
              requestId
          rw [dropped, packs]
          refine ⟨rfl, ?_⟩
          by_cases isRequest : newReq.reqId = requestId
          · have found :
                listingOf (newReq :: rest) requestId = some newReq := by
              simp [listingOf, isPages, isRequest]
            subst isRequest
            rw [found]
            simp
          · have passedOver :
                listingOf (newReq :: rest) requestId =
                  listingOf rest requestId := by
              simp [listingOf, isRequest]
            have kept :
                (state.2.requestsNeedLoad.erase newReq.reqId).lookup
                    requestId =
                  state.2.requestsNeedLoad.lookup requestId :=
              AList.lookup_erase_ne (Ne.symm isRequest)
            rw [passedOver]
            simp only [kept, isRequest, false_and, or_false]
            exact ⟨trivial, Iff.rfl⟩

end Packing

/-! ## Whole steps -/

section Steps

variable {connector : Connector}

/-- A map without entries is empty. -/
theorem eq_empty_of_lookup
    {loads : AList fun _ : String => PendingLoad}
    (none : ∀ requestId, loads.lookup requestId = none) :
    loads = ∅ := by
  refine AList.ext (List.eq_nil_iff_forall_not_mem.mpr ?_)
  intro entry member
  have found : loads.lookup entry.1 = some entry.2 :=
    AList.mem_lookup_iff.mpr member
  rw [none] at found
  cases found

/-- What a step does to the pending loads if there were none before. -/
theorem step_spec
    (blake3 : List UInt8 → Hash256)
    (idle : connector.requestsNeedLoad = ∅)
    (scheduled : SchedulerStep)
    (requestId : String) :
    ((connector.step blake3 scheduled).2.requestsNeedLoad.lookup
          requestId = none ↔
        ((∃ call ∈ scheduled.allocs,
            connector.records call = true ∧
              call.request.requestId = requestId) →
          (listingOf scheduled.scheduledNewReqs
            requestId).isSome = true)) ∧
      (Names (connector.step blake3 scheduled).1.loads requestId ↔
        (∃ call ∈ scheduled.allocs,
            connector.records call = true ∧
              call.request.requestId = requestId) ∧
          ∃ newReq,
            listingOf scheduled.scheduledNewReqs requestId =
                some newReq ∧
              0 < connector.wholeBlocks newReq) := by
  obtain ⟨sameSize, positiveAfter, noted⟩ :=
    afterAllocs_spec (loadsPositive_of_idle idle) scheduled.allocs
  have isNoted := noted requestId
  simp only [idle, AList.notMem_empty, false_or] at isNoted
  obtain ⟨_, pending, packed⟩ :=
    foldl_scheduleRequest_spec blake3 scheduled.scheduledNewReqs
      ({ blockSize := (connector.afterAllocs scheduled.allocs).blockSize },
        connector.afterAllocs scheduled.allocs) requestId
  have sameWhole (newReq : NewRequest) :
      (connector.afterAllocs scheduled.allocs).wholeBlocks newReq =
        connector.wholeBlocks newReq := by
    rw [wholeBlocks, wholeBlocks, sameSize]
  rw [← isNoted, ← AList.lookup_isSome, Option.isSome_iff_exists]
  constructor
  · rw [step, buildConnectorMeta, pending]
    split
    · next listed =>
        simp [listed]
    · next unlisted =>
        rw [Option.eq_none_iff_forall_ne_some]
        simp [unlisted]
  · rw [step, buildConnectorMeta, packed]
    simp only [Names, List.not_mem_nil, false_and, exists_false, false_or,
      sameWhole]
    constructor
    · rintro ⟨newReq, load, listed, someBlocks, found, _⟩
      exact ⟨⟨load, found⟩, newReq, listed, someBlocks⟩
    · rintro ⟨⟨load, found⟩, newReq, listed, someBlocks⟩
      exact
        ⟨newReq, load, listed, someBlocks, found, positiveAfter found⟩

/-- With nothing pending before, a step delivers exactly if it lists loads. -/
theorem delivers_iff
    (blake3 : List UInt8 → Hash256)
    (idle : connector.requestsNeedLoad = ∅)
    (scheduled : SchedulerStep) :
    connector.Delivers blake3 scheduled ↔
      connector.ListsLoads scheduled := by
  constructor
  · rintro ⟨_, delivered⟩ call isCall recorded
    have named := delivered call isCall recorded
    exact ((step_spec blake3 idle scheduled _).2.mp named).2
  · intro lists
    refine ⟨eq_empty_of_lookup ?_, ?_⟩
    · intro requestId
      refine (step_spec blake3 idle scheduled requestId).1.mpr ?_
      rintro ⟨call, isCall, recorded, isRequest⟩
      subst isRequest
      obtain ⟨newReq, listed, _⟩ := lists call isCall recorded
      rw [listed]
      rfl
    · intro call isCall recorded
      exact
        (step_spec blake3 idle scheduled _).2.mpr
          ⟨⟨call, isCall, recorded, rfl⟩, lists call isCall recorded⟩

/-- The block size stays the same. -/
theorem step_blockSize
    (blake3 : List UInt8 → Hash256)
    (idle : connector.requestsNeedLoad = ∅)
    (scheduled : SchedulerStep) :
    (connector.step blake3 scheduled).2.blockSize =
      connector.blockSize := by
  have allocSize :=
    (afterAllocs_spec (loadsPositive_of_idle idle) scheduled.allocs).1
  have packSize :=
    (foldl_scheduleRequest_spec blake3 scheduled.scheduledNewReqs
      ({ blockSize := (connector.afterAllocs scheduled.allocs).blockSize },
        connector.afterAllocs scheduled.allocs) "").1
  exact packSize.trans allocSize

/-- Whether a step lists its loads depends on the block size only. -/
theorem listsLoads_congr
    {other : Connector}
    (sameSize : other.blockSize = connector.blockSize)
    (scheduled : SchedulerStep) :
    other.ListsLoads scheduled ↔ connector.ListsLoads scheduled := by
  unfold ListsLoads records wholeBlocks
  rw [sameSize]

end Steps

end Connector

/--
Starting with nothing pending, every step of a sequence leaves nothing pending
and delivers all loads noted in it, if and only if in every step each request
with a noted load is listed as new, with a whole block that has a page in its
first listing that is not passed over.
-/
theorem every_load_delivered_iff
    (blake3 : List UInt8 → Hash256)
    {connector : Connector}
    (idle : connector.requestsNeedLoad = ∅)
    (steps : List SchedulerStep) :
    (∀ earlier scheduled,
        earlier ++ [scheduled] <+: steps →
        (connector.afterSteps blake3 earlier).Delivers blake3 scheduled) ↔
      ∀ scheduled ∈ steps, connector.ListsLoads scheduled := by
  induction steps generalizing connector with
  | nil =>
      simp
  | cons first rest inductionHypothesis =>
      have firstStep := connector.delivers_iff blake3 idle first
      have sameLists (scheduled : SchedulerStep) :=
        Connector.listsLoads_congr
          (connector.step_blockSize blake3 idle first) scheduled
      constructor
      · intro delivered
        have firstDelivered := delivered [] first (by simp)
        have others :=
          (inductionHypothesis firstDelivered.1).mp
            fun earlier scheduled isPrefix =>
              delivered (first :: earlier) scheduled
                ((List.prefix_cons_inj first).mpr isPrefix)
        refine List.forall_mem_cons.mpr ⟨firstStep.mp firstDelivered, ?_⟩
        intro scheduled member
        exact (sameLists scheduled).mp (others scheduled member)
      · intro lists
        obtain ⟨firstLists, restLists⟩ := List.forall_mem_cons.mp lists
        have firstDelivered := firstStep.mpr firstLists
        have others :=
          (inductionHypothesis firstDelivered.1).mpr
            fun scheduled member =>
              (sameLists scheduled).mpr (restLists scheduled member)
        intro earlier scheduled isPrefix
        cases earlier with
        | nil =>
            have isFirst : scheduled = first := by
              simpa using isPrefix
            rw [isFirst]
            exact firstDelivered
        | cons start later =>
            obtain ⟨isFirst, restPrefix⟩ :=
              List.cons_prefix_cons.mp isPrefix
            subst isFirst
            exact others later scheduled restPrefix

/-- A request is admitted, preempted, and resumed with its blocks cached. -/
def resumedSteps : List SchedulerStep :=
  [ ⟨[⟨samplePrompt, [[10, 11, 12]], 4⟩],
      [⟨"request-0", [1, 2, 3, 4, 5], [[10, 11, 12]]⟩]⟩,
    ⟨[⟨samplePrompt, [[20, 21, 22]], 4⟩], []⟩ ]

/--
The load of the resumed request stays pending and nothing is delivered for it.
-/
theorem resumed_load_not_delivered :
    sampleConnector.requestsNeedLoad = ∅ ∧
      ¬ ∀ earlier scheduled,
        earlier ++ [scheduled] <+: resumedSteps →
        (sampleConnector.afterSteps promptBlake3 earlier).Delivers
          promptBlake3 scheduled := by
  refine ⟨rfl, ?_⟩
  intro delivered
  have last :=
    delivered (resumedSteps.take 1)
      ⟨[⟨samplePrompt, [[20, 21, 22]], 4⟩], []⟩ (List.prefix_refl _)
  have pending :
      (((sampleConnector.afterSteps promptBlake3
          (resumedSteps.take 1)).step promptBlake3
            ⟨[⟨samplePrompt, [[20, 21, 22]], 4⟩],
              []⟩).2.requestsNeedLoad.lookup "request-0").isSome =
        true := by
    decide +kernel
  rw [last.1] at pending
  simp at pending

theorem every_load_delivered_iff_sample :
    sampleConnector.Delivers promptBlake3
        ⟨[⟨samplePrompt, [[10, 11, 12]], 4⟩],
          [⟨"request-0", [1, 2, 3, 4, 5], [[10, 11, 12]]⟩]⟩ := by
  have delivered :=
    (every_load_delivered_iff promptBlake3
      (rfl : sampleConnector.requestsNeedLoad = ∅)
      (resumedSteps.take 1)).mpr
  refine delivered ?_ [] _ (List.prefix_refl _)
  intro scheduled member call isCall recorded
  cases List.mem_singleton.mp member
  cases List.mem_singleton.mp isCall
  exact ⟨_, rfl, by decide⟩

end Lethe
