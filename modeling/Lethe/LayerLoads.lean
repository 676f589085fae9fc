import Lethe.PresenceMarker
import Lethe.Library.InsertionDict

namespace Lethe

/-!
# Loading a layer's pages

At the start of a step the worker submits a fetch for every layer of every
block to load.  The fetches are kept by request, layer and position.  Before a
layer is computed, the worker takes the fetches of that layer, waits for them
and copies the bytes into the pages that the metadata names.

Fetches run on other threads and finish in any order.  A fetch that does not
finish in time counts as one without bytes.
-/

/-- Element types of a cache tensor; others have no counterpart in numpy. -/
inductive KvDtype where
  | float16
  | float32
  | bfloat16
  | other (name : String)
  deriving DecidableEq, Repr

/-- Bytes of one element in numpy. -/
def KvDtype.itemsize? : KvDtype → Option Nat
  | .float16 =>
      some 2
  | .float32 =>
      some 4
  | .bfloat16 =>
      some 2
  | .other _ =>
      none

/-- Why loading a layer raises, with what the message names. -/
inductive LoadError where
  | notWorker
  | noEngine
  | unexpectedShape (shape : List Nat) (layerName : String)
  | shapeDrift
      (layerName : String)
      (saved loaded : List Nat × KvDtype)
  | unsupportedDtype (dtype : KvDtype)
  | sizeMismatch (got expected : Nat) (shape : List Nat) (dtype : KvDtype)
  deriving DecidableEq, Repr

/-- A cache tensor, with the bytes of each page along its second axis. -/
structure KvTensor where
  shape : List Nat
  dtype : KvDtype
  pages : List (List UInt8)
  paged : pages.length = shape.getD 1 0

namespace KvTensor

/-- Shape of one page. -/
def perBlockShape
    (tensor : KvTensor) :
    List Nat :=
  2 :: tensor.shape.getD 2 0 :: tensor.shape.drop 3

/-- Write the bytes of one page. -/
def setPage
    (tensor : KvTensor)
    (page : Nat)
    (bytes : List UInt8) :
    KvTensor :=
  { tensor with
    pages := tensor.pages.set page bytes
    paged := by rw [List.length_set, tensor.paged] }

end KvTensor

/-- The size that a payload must have. -/
def expectedBytes?
    (shape : List Nat)
    (dtype : KvDtype) :
    Option Nat :=
  dtype.itemsize?.map fun itemsize => shape.prod * itemsize

/-- Read a payload as a tensor of the given shape; its bytes stay the same. -/
def bytesToTensor
    (payload : List UInt8)
    (shape : List Nat)
    (dtype : KvDtype) :
    Except LoadError (List UInt8) :=
  match expectedBytes? shape dtype with
  | none =>
      .error (.unsupportedDtype dtype)
  | some expected =>
      if payload.length ≠ expected then
        .error (.sizeMismatch payload.length expected shape dtype)
      else
        .ok payload

/-- The cache of a layer: none, a tensor, or one tensor per engine. -/
inductive KvCacheAttr where
  | missing
  | tensor (tensor : KvTensor)
  | engines (tensors : List KvTensor)

namespace KvCacheAttr

/-- The tensor that is loaded into, if there is one. -/
def selected : KvCacheAttr → Except LoadError (Option KvTensor)
  | .missing =>
      .ok none
  | .tensor whole =>
      .ok (some whole)
  | .engines [] =>
      .error .noEngine
  | .engines (first :: _) =>
      .ok (some first)

/-- The cache with the selected tensor replaced. -/
def replaced
    (cache : KvCacheAttr)
    (loaded : KvTensor) :
    KvCacheAttr :=
  match cache with
  | .missing =>
      .missing
  | .tensor _ =>
      .tensor loaded
  | .engines [] =>
      .engines []
  | .engines (_ :: rest) =>
      .engines (loaded :: rest)

end KvCacheAttr

/-- What a forward context says about attention: keys are layer names. -/
inductive AttnMetadata where
  | none
  | layers (names : List String)
  | engines (parts : List (Option (List String)))
  | other

/-- The layers to fetch for, if the metadata is of a known kind. -/
def AttnMetadata.layerNames? : AttnMetadata → Option (List String)
  | .none =>
      Option.none
  | .layers names =>
      some names
  | .engines parts =>
      some (parts.flatMap fun part => part.getD [])
  | .other =>
      Option.none

/-- Where a fetch belongs. -/
structure LoadKey where
  requestId : String
  layerId : UInt32
  blockIndex : Nat
  deriving DecidableEq, Repr

/--
The worker side of the connector: fetches in flight by the number of their
call, the calls submitted so far, the shapes seen by saves and the caches of
the current forward context, if there is one.
-/
structure LoadWorker where
  isWorker : Bool
  inflightLoads : InsertionDict LoadKey Nat
  submitted : List BlockId
  layerShapePin : AList fun _ : String => List Nat × KvDtype
  noCompileLayers : Option (AList fun _ : String => KvCacheAttr)

namespace LoadWorker

/-- Submit the fetch of one block of one layer; blocks to store are skipped. -/
def submitBlock
    (sha256 : String → Hash256)
    (connector : Connector)
    (requestId layerName : String)
    (worker : LoadWorker)
    (indexed : BlockSpec × Nat) :
    LoadWorker :=
  if indexed.1.isHit then
    { worker with
      inflightLoads :=
        worker.inflightLoads.set
          ⟨requestId, layerIdFor sha256 layerName, indexed.2⟩
          worker.submitted.length
      submitted :=
        worker.submitted ++
          [connector.layerBlock sha256 indexed.1.chainedHash layerName] }
  else
    worker

/-- Submit the fetches of one layer of a request. -/
def submitLayer
    (sha256 : String → Hash256)
    (connector : Connector)
    (payload : RequestPayload)
    (worker : LoadWorker)
    (layerName : String) :
    LoadWorker :=
  payload.blocks.zipIdx.foldl
    (submitBlock sha256 connector payload.requestId layerName) worker

/-- Submit the fetches of a request. -/
def submitRequest
    (sha256 : String → Hash256)
    (connector : Connector)
    (layerNames : List String)
    (worker : LoadWorker)
    (payload : RequestPayload) :
    LoadWorker :=
  layerNames.foldl (submitLayer sha256 connector payload) worker

/-- Submit the fetches of a step; metadata of another kind is ignored. -/
def startLoadKv
    (sha256 : String → Hash256)
    (connector : Connector)
    (metadata : Option ConnectorMetadata)
    (attnMetadata : AttnMetadata)
    (worker : LoadWorker) :
    Option LoadError × LoadWorker :=
  if worker.isWorker = false then
    (some .notWorker, worker)
  else
    match metadata with
    | none =>
        (none, worker)
    | some metadata =>
        match attnMetadata.layerNames? with
        | none =>
            (none, worker)
        | some layerNames =>
            (none,
              metadata.loads.foldl
                (submitRequest sha256 connector layerNames) worker)

/-- The pages of each request, by the position of its blocks. -/
def blockIdLookup
    (loads : List RequestPayload) :
    InsertionDict String (List Nat) :=
  loads.foldl
    (fun dict payload =>
      dict.set payload.requestId (payload.blocks.map BlockSpec.vllmBlockId))
    InsertionDict.empty

/-- Copy the results into their pages until one cannot be read. -/
def inject
    (pagesOf : InsertionDict String (List Nat))
    (tensor : KvTensor) :
    List ((String × Nat) × Option (List UInt8)) →
      Option LoadError × KvTensor
  | [] =>
      (none, tensor)
  | (_, none) :: rest =>
      inject pagesOf tensor rest
  | ((requestId, blockIndex), some payload) :: rest =>
      match ((pagesOf.get? requestId).getD [])[blockIndex]? with
      | none =>
          inject pagesOf tensor rest
      | some vllmBlock =>
          if tensor.shape.getD 1 0 ≤ vllmBlock then
            inject pagesOf tensor rest
          else
            match
              bytesToTensor payload tensor.perBlockShape tensor.dtype with
            | .error error =>
                (some error, tensor)
            | .ok bytes =>
                inject pagesOf (tensor.setPage vllmBlock bytes) rest

/-- The bytes that the fetches of a layer gave, by request and position. -/
def results
    (answer : Nat → Option (List UInt8))
    (entries : List (LoadKey × Nat)) :
    InsertionDict (String × Nat) (Option (List UInt8)) :=
  entries.foldl
    (fun dict entry =>
      dict.set (entry.1.requestId, entry.1.blockIndex) (answer entry.2))
    InsertionDict.empty

/-- Check the selected tensor of a layer and copy the results into it. -/
def injectLayer
    (loads : List RequestPayload)
    (layerName : String)
    (pinned : Option (List Nat × KvDtype))
    (tensor : KvTensor)
    (loaded : List ((String × Nat) × Option (List UInt8))) :
    Option LoadError × KvTensor :=
  if tensor.shape.length < 4 ∨ tensor.shape[0]? ≠ some 2 then
    (some (.unexpectedShape tensor.shape layerName), tensor)
  else
    match
      pinned.filter fun saved =>
        saved ≠ (tensor.perBlockShape, tensor.dtype) with
    | some saved =>
        (some (.shapeDrift layerName saved
          (tensor.perBlockShape, tensor.dtype)), tensor)
    | none =>
        inject (blockIdLookup loads) tensor loaded

/--
Take the fetches of a layer, wait for them and copy their bytes into the pages
of the layer.  A layer without a cache is skipped.
-/
def waitForLayerLoad
    (sha256 : String → Hash256)
    (answer : Nat → Option (List UInt8))
    (metadata : Option ConnectorMetadata)
    (layerName : String)
    (worker : LoadWorker) :
    Option LoadError × LoadWorker :=
  if worker.isWorker = false then
    (some .notWorker, worker)
  else
    match metadata with
    | none =>
        (none, worker)
    | some metadata =>
        if metadata.loads = [] then
          (none, worker)
        else
          let layerId := layerIdFor sha256 layerName
          let ours :=
            worker.inflightLoads.filterKeys fun key => key.layerId = layerId
          let drained :=
            { worker with
              inflightLoads :=
                worker.inflightLoads.filterKeys
                  fun key => key.layerId ≠ layerId }
          let loaded := results answer ours.entries
          if loaded.entries = [] then
            (none, drained)
          else
            match worker.noCompileLayers with
            | none =>
                (none, drained)
            | some layers =>
                match layers.lookup layerName with
                | none =>
                    (none, drained)
                | some cache =>
                    match cache.selected with
                    | .error error =>
                        (some error, drained)
                    | .ok none =>
                        (none, drained)
                    | .ok (some tensor) =>
                        let injected :=
                          injectLayer metadata.loads layerName
                            (worker.layerShapePin.lookup layerName) tensor
                            loaded.entries
                        (injected.1,
                          { drained with
                            noCompileLayers :=
                              some
                                (layers.insert layerName
                                  (cache.replaced injected.2)) })

end LoadWorker

/--
Run submitted calls on other threads in the given order; a call that is not in
it does not finish in time.
-/
def runFetches
    {World : Type}
    (network : Network World)
    (client : LetheClient)
    (submitted : List BlockId) :
    List Nat → World → List (Nat × Option (List UInt8))
  | [], _ =>
      []
  | call :: order, world =>
      match submitted[call]? with
      | none =>
          runFetches network client submitted order world
      | some id =>
          let pulled := client.fetch network id none world
          (call, pulled.1) ::
            runFetches network client submitted order pulled.2

/-- The bytes that a call gave, if any. -/
def answerOf
    (finished : List (Nat × Option (List UInt8)))
    (call : Nat) :
    Option (List UInt8) :=
  (DictEntries.get? call finished).join

namespace LoadWorker

/-! ## Submitted fetches -/

section Submitted

variable
  {sha256 : String → Hash256}
  {connector : Connector}
  {loads : List RequestPayload}
  {layerNames : List String}

/-- A hit among the loads, at the place that a key names. -/
structure LoadAt
    (sha256 : String → Hash256)
    (loads : List RequestPayload)
    (key : LoadKey)
    (layerName : String)
    (spec : BlockSpec) :
    Prop where
  request :
    ∃ payload ∈ loads,
      payload.requestId = key.requestId ∧
        payload.blocks[key.blockIndex]? = some spec
  layer : layerIdFor sha256 layerName = key.layerId
  isHit : spec.isHit = true

/-- Every fetch in flight is one of the block that its key names. -/
def Placed
    (sha256 : String → Hash256)
    (connector : Connector)
    (layerNames : List String)
    (loads : List RequestPayload)
    (worker : LoadWorker) :
    Prop :=
  ∀ key call,
    worker.inflightLoads.get? key = some call →
    ∃ layerName ∈ layerNames,
      ∃ spec,
        LoadAt sha256 loads key layerName spec ∧
          worker.submitted[call]? =
            some
              (connector.layerBlock sha256 spec.chainedHash layerName)

/-- Submitting one block keeps the fetches in place. -/
theorem Placed.submitBlock
    {worker : LoadWorker}
    (placed : Placed sha256 connector layerNames loads worker)
    {payload : RequestPayload}
    (isPayload : payload ∈ loads)
    {layerName : String}
    (isLayer : layerName ∈ layerNames)
    {indexed : BlockSpec × Nat}
    (isBlock : indexed ∈ payload.blocks.zipIdx) :
    Placed sha256 connector layerNames loads
      (submitBlock sha256 connector payload.requestId layerName worker
        indexed) := by
  unfold LoadWorker.submitBlock
  split
  · next isHit =>
      intro key call found
      rw [InsertionDict.get?_set] at found
      split at found
      · next isKey =>
          subst isKey
          simp only [Option.some.injEq] at found
          refine ⟨layerName, isLayer, indexed.1,
            ⟨⟨payload, isPayload, rfl, ?_⟩, rfl, isHit⟩, ?_⟩
          · exact List.mem_zipIdx_iff_getElem?.mp isBlock
          · rw [← found, List.getElem?_concat_length]
      · obtain ⟨otherLayer, isOther, spec, loadAt, isId⟩ :=
          placed key call found
        refine ⟨otherLayer, isOther, spec, loadAt, ?_⟩
        rw [List.getElem?_append_left
          (List.getElem?_eq_some_iff.mp isId).1]
        exact isId
  · exact placed

/-- Submitting a step's fetches keeps them in place. -/
theorem Placed.submitLoads
    {worker : LoadWorker}
    (placed : Placed sha256 connector layerNames loads worker) :
    Placed sha256 connector layerNames loads
      (loads.foldl (submitRequest sha256 connector layerNames) worker) :=
  List.foldlRecOn loads _ placed fun _ beforeRequest _ isPayload =>
    List.foldlRecOn layerNames _ beforeRequest
      fun _ beforeLayer _ isLayer =>
        List.foldlRecOn _ _ beforeLayer fun _ beforeBlock _ isBlock =>
          beforeBlock.submitBlock isPayload isLayer isBlock

/-- The submitted fetches are those that the loads ask for. -/
theorem submitted_submitLoads
    (worker : LoadWorker) :
    (loads.foldl (submitRequest sha256 connector layerNames)
        worker).submitted =
      worker.submitted ++ connector.startLoadKv sha256 layerNames loads := by
  have blocks
      (requestId layerName : String)
      (specs : List BlockSpec)
      (first : Nat)
      (worker : LoadWorker) :
      ((specs.zipIdx first).foldl
          (submitBlock sha256 connector requestId layerName)
          worker).submitted =
        worker.submitted ++
          (specs.filter fun spec => spec.isHit).map fun spec =>
            connector.layerBlock sha256 spec.chainedHash layerName := by
    induction specs generalizing first worker with
    | nil =>
        simp
    | cons spec rest inductionHypothesis =>
        rw [List.zipIdx_cons, List.foldl_cons, inductionHypothesis]
        cases isHit : spec.isHit <;> simp [LoadWorker.submitBlock, isHit]
  have layers
      (payload : RequestPayload)
      (names : List String)
      (worker : LoadWorker) :
      (names.foldl (submitLayer sha256 connector payload) worker).submitted =
        worker.submitted ++
          names.flatMap fun layerName =>
            (payload.blocks.filter fun spec => spec.isHit).map fun spec =>
              connector.layerBlock sha256 spec.chainedHash layerName := by
    induction names generalizing worker with
    | nil =>
        simp
    | cons layerName rest inductionHypothesis =>
        rw [List.foldl_cons, inductionHypothesis, submitLayer, blocks,
          List.flatMap_cons, List.append_assoc]
  unfold Connector.startLoadKv
  induction loads generalizing worker with
  | nil =>
      simp
  | cons payload rest inductionHypothesis =>
      rw [List.foldl_cons, inductionHypothesis, submitRequest, layers,
        List.flatMap_cons, List.append_assoc]

/-- A key is in flight. -/
def InFlight
    (worker : LoadWorker)
    (key : LoadKey) :
    Prop :=
  (worker.inflightLoads.get? key).isSome = true

/-- Submitting one block forgets no other. -/
theorem InFlight.submitBlock
    {worker : LoadWorker}
    {key : LoadKey}
    (inFlight : worker.InFlight key)
    (requestId layerName : String)
    (indexed : BlockSpec × Nat) :
    (submitBlock sha256 connector requestId layerName worker
      indexed).InFlight key := by
  unfold LoadWorker.submitBlock
  split
  · unfold InFlight
    rw [InsertionDict.get?_set]
    split
    · rfl
    · exact inFlight
  · exact inFlight

/-- Submitting a layer forgets nothing. -/
theorem InFlight.submitLayer
    {worker : LoadWorker}
    {key : LoadKey}
    (inFlight : worker.InFlight key)
    (payload : RequestPayload)
    (layerName : String) :
    (submitLayer sha256 connector payload worker layerName).InFlight key :=
  List.foldlRecOn (motive := fun current => InFlight current key) _ _
    inFlight fun _ before _ _ => before.submitBlock _ _ _

/-- Submitting a request forgets nothing. -/
theorem InFlight.submitRequest
    {worker : LoadWorker}
    {key : LoadKey}
    (inFlight : worker.InFlight key)
    (payload : RequestPayload) :
    (submitRequest sha256 connector layerNames worker payload).InFlight key :=
  List.foldlRecOn (motive := fun current => InFlight current key) _ _
    inFlight fun _ before _ _ => before.submitLayer _ _

/-- What one item establishes and no item undoes holds after all of them. -/
theorem foldl_reaches
    {State Item : Type}
    (holds : State → Prop)
    {next : State → Item → State}
    (kept : ∀ state item, holds state → holds (next state item))
    {items : List Item}
    {item : Item}
    (isItem : item ∈ items)
    (established : ∀ state, holds (next state item))
    (state : State) :
    holds (items.foldl next state) := by
  obtain ⟨earlier, later, shape⟩ := List.append_of_mem isItem
  rw [shape, List.foldl_append, List.foldl_cons]
  exact List.foldlRecOn later next (established _)
    fun _ before other _ => kept _ other before

/-- Every hit of the loads is in flight for every layer. -/
theorem inFlight_submitLoads
    (worker : LoadWorker)
    {key : LoadKey}
    {layerName : String}
    (isLayer : layerName ∈ layerNames)
    {spec : BlockSpec}
    (loadAt : LoadAt sha256 loads key layerName spec) :
    (loads.foldl (submitRequest sha256 connector layerNames)
      worker).InFlight key := by
  obtain ⟨payload, isPayload, sameRequest, isBlock⟩ := loadAt.request
  have isKey :
      (⟨payload.requestId, layerIdFor sha256 layerName, key.blockIndex⟩ :
        LoadKey) = key := by
    rw [sameRequest, loadAt.layer]
  have inBlocks : (spec, key.blockIndex) ∈ payload.blocks.zipIdx :=
    List.mem_zipIdx_iff_getElem?.mpr isBlock
  refine foldl_reaches (fun current => InFlight current key)
    (fun _ other before => before.submitRequest other) isPayload ?_ worker
  refine foldl_reaches (fun current => InFlight current key)
    (fun _ other before => before.submitLayer payload other) isLayer ?_
  refine foldl_reaches (fun current => InFlight current key)
    (fun _ other before => before.submitBlock _ _ other) inBlocks ?_
  intro current
  simp only [submitBlock, loadAt.isHit, ↓reduceIte, isKey, InFlight,
    InsertionDict.get?_set, Option.isSome_some]

end Submitted

/-! ## Pages -/

/-- The page that a result belongs to. -/
def targetPage
    (pagesOf : InsertionDict String (List Nat))
    (place : String × Nat) :
    Option Nat :=
  ((pagesOf.get? place.1).getD [])[place.2]?

/-- A payload of the right size is read. -/
theorem bytesToTensor_of_sized
    {payload : List UInt8}
    {shape : List Nat}
    {dtype : KvDtype}
    (sized : expectedBytes? shape dtype = some payload.length) :
    bytesToTensor payload shape dtype = .ok payload := by
  simp [bytesToTensor, sized]

/-- What copying results into the pages of a tensor leads to. -/
structure Injected
    (pagesOf : InsertionDict String (List Nat))
    (loaded : List ((String × Nat) × Option (List UInt8)))
    (before after : KvTensor) :
    Prop where
  shape : after.shape = before.shape
  dtype : after.dtype = before.dtype
  written :
    ∀ page bytes,
      page < before.pages.length →
      (∀ place payload,
        (place, some payload) ∈ loaded →
        targetPage pagesOf place = some page →
        payload = bytes) →
      (∃ place,
        (place, some bytes) ∈ loaded ∧
          targetPage pagesOf place = some page) →
      after.pages[page]? = some bytes
  kept :
    ∀ page,
      (∀ place payload,
        (place, some payload) ∈ loaded →
        targetPage pagesOf place ≠ some page) →
      after.pages[page]? = before.pages[page]?

/-- A result that is not written anywhere. -/
theorem Injected.skip
    {pagesOf : InsertionDict String (List Nat)}
    {loaded : List ((String × Nat) × Option (List UInt8))}
    {before after : KvTensor}
    (injected : Injected pagesOf loaded before after)
    {place : String × Nat}
    {result : Option (List UInt8)}
    (skipped :
      result ≠ none →
      ∀ page,
        targetPage pagesOf place = some page →
        before.pages.length ≤ page) :
    Injected pagesOf ((place, result) :: loaded) before after where
  shape := injected.shape
  dtype := injected.dtype
  written := by
    rintro page bytes inside same ⟨other, isResult, isTarget⟩
    refine injected.written page bytes inside ?_ ⟨other, ?_, isTarget⟩
    · exact fun place payload later =>
        same place payload (List.mem_cons_of_mem _ later)
    · rcases List.mem_cons.mp isResult with isHead | later
      · obtain ⟨rfl, rfl⟩ := Prod.mk.inj isHead
        have outside := skipped (by simp) page isTarget
        omega
      · exact later
  kept page untouched :=
    injected.kept page fun place payload later =>
      untouched place payload (List.mem_cons_of_mem _ later)

/-- A result that is written to its page. -/
theorem Injected.write
    {pagesOf : InsertionDict String (List Nat)}
    {loaded : List ((String × Nat) × Option (List UInt8))}
    {before after : KvTensor}
    {place : String × Nat}
    {payload : List UInt8}
    {target : Nat}
    (isTarget : targetPage pagesOf place = some target)
    (inside : target < before.pages.length)
    (injected :
      Injected pagesOf loaded (before.setPage target payload) after) :
    Injected pagesOf ((place, some payload) :: loaded) before after where
  shape := injected.shape
  dtype := injected.dtype
  written := by
    rintro page bytes pageInside same ⟨other, isResult, otherTarget⟩
    by_cases again :
        ∃ place, (place, some bytes) ∈ loaded ∧
          targetPage pagesOf place = some page
    · refine injected.written page bytes ?_ ?_ again
      · simpa [KvTensor.setPage] using pageInside
      · exact fun place payload later =>
          same place payload (List.mem_cons_of_mem _ later)
    · have isHead : (other, some bytes) = (place, some payload) := by
        rcases List.mem_cons.mp isResult with isHead | later
        · exact isHead
        · exact absurd ⟨other, later, otherTarget⟩ again
      obtain ⟨rfl, isPayload⟩ := Prod.mk.inj isHead
      rw [Option.some.injEq] at isPayload
      subst isPayload
      obtain rfl : target = page :=
        Option.some.inj (isTarget.symm.trans otherTarget)
      rw [injected.kept target ?_]
      · simp [KvTensor.setPage, inside]
      · intro place payload later samePage
        have isBytes :=
          same place payload (List.mem_cons_of_mem _ later) samePage
        exact again ⟨place, isBytes ▸ later, samePage⟩
  kept := by
    intro page untouched
    have otherPage : target ≠ page := by
      intro samePage
      exact untouched place payload List.mem_cons_self
        (samePage ▸ isTarget)
    rw [injected.kept page fun place payload later =>
      untouched place payload (List.mem_cons_of_mem _ later)]
    simp [KvTensor.setPage, otherPage]

/-- Results of the right size are copied without an error. -/
theorem inject_injected
    (pagesOf : InsertionDict String (List Nat))
    (loaded : List ((String × Nat) × Option (List UInt8)))
    (tensor : KvTensor)
    (sized :
      ∀ place payload,
        (place, some payload) ∈ loaded →
        expectedBytes? tensor.perBlockShape tensor.dtype =
          some payload.length) :
    (inject pagesOf tensor loaded).1 = none ∧
      Injected pagesOf loaded tensor (inject pagesOf tensor loaded).2 := by
  induction loaded generalizing tensor with
  | nil =>
      exact ⟨rfl, rfl, rfl, by simp, by simp [inject]⟩
  | cons first rest inductionHypothesis =>
      have later := fun place payload isLater =>
        sized place payload (List.mem_cons_of_mem first isLater)
      obtain ⟨place, result⟩ := first
      cases result with
      | none =>
          obtain ⟨noError, injected⟩ := inductionHypothesis tensor later
          exact ⟨noError, injected.skip (by simp)⟩
      | some payload =>
          unfold inject
          split
          · next noPage =>
              obtain ⟨noError, injected⟩ := inductionHypothesis tensor later
              refine ⟨noError, injected.skip fun _ page isTarget => ?_⟩
              simp [targetPage, noPage] at isTarget
          · next target isTarget =>
              split
              · next outside =>
                  obtain ⟨noError, injected⟩ :=
                    inductionHypothesis tensor later
                  refine ⟨noError, injected.skip fun _ page isPage => ?_⟩
                  rw [targetPage, isTarget, Option.some.injEq] at isPage
                  rw [tensor.paged, ← isPage]
                  exact outside
              · next inside =>
                  have isRead :=
                    bytesToTensor_of_sized
                      (sized place payload List.mem_cons_self)
                  obtain ⟨noError, injected⟩ :=
                    inductionHypothesis (tensor.setPage target payload) later
                  simp only [isRead]
                  refine ⟨noError, injected.write isTarget ?_⟩
                  rw [tensor.paged]
                  omega

/-- The results of a layer are the answers to its fetches. -/
theorem mem_results_iff
    {answer : Nat → Option (List UInt8)}
    {layerId : UInt32}
    (inflight : InsertionDict LoadKey Nat)
    {place : String × Nat}
    {result : Option (List UInt8)} :
    (place, result) ∈
        (results answer
          (inflight.filterKeys fun key => key.layerId = layerId).entries
          ).entries ↔
      ∃ call,
        inflight.get? ⟨place.1, layerId, place.2⟩ = some call ∧
          answer call = result := by
  generalize isOurs :
    inflight.filterKeys (fun key => key.layerId = layerId) = ours
  have ofLayer : ∀ entry ∈ ours.entries, entry.1.layerId = layerId := by
    intro entry isEntry
    rw [← isOurs] at isEntry
    simpa [InsertionDict.filterKeys] using (List.mem_filter.mp isEntry).2
  have distinct :
      (ours.entries.map fun entry =>
        (entry.1.requestId, entry.1.blockIndex)).Nodup := by
    refine List.Nodup.map_on ?_ (ours.distinct.of_map)
    intro left isLeft right isRight samePlace
    rw [Prod.mk.injEq] at samePlace
    refine List.inj_on_of_nodup_map ours.distinct isLeft isRight ?_
    rw [LoadKey.mk.injEq]
    exact ⟨samePlace.1, by rw [ofLayer left isLeft, ofLayer right isRight],
      samePlace.2⟩
  have sameCall (call : Nat) :
      inflight.get? ⟨place.1, layerId, place.2⟩ = some call ↔
        (⟨place.1, layerId, place.2⟩, call) ∈ ours.entries := by
    rw [InsertionDict.mem_entries, ← isOurs,
      InsertionDict.get?_filterKeys _ (by simp)]
  rw [InsertionDict.mem_entries, results,
    InsertionDict.get?_foldl_set_iff distinct]
  simp only [sameCall]
  constructor
  · rintro ⟨⟨key, call⟩, isEntry, isPlace, isResult⟩
    refine ⟨call, ?_, isResult⟩
    rw [← isPlace, ← ofLayer _ isEntry]
    exact isEntry
  · rintro ⟨call, isEntry, isResult⟩
    exact ⟨_, isEntry, rfl, isResult⟩

/-- The pages of a request. -/
theorem targetPage_iff
    {loads : List RequestPayload}
    (requests : (loads.map RequestPayload.requestId).Nodup)
    {place : String × Nat}
    {page : Nat} :
    targetPage (blockIdLookup loads) place = some page ↔
      ∃ payload ∈ loads,
        payload.requestId = place.1 ∧
          ∃ spec,
            payload.blocks[place.2]? = some spec ∧
              spec.vllmBlockId = page := by
  have known (pages : List Nat) :
      (blockIdLookup loads).get? place.1 = some pages ↔
        ∃ payload ∈ loads,
          payload.requestId = place.1 ∧
            payload.blocks.map BlockSpec.vllmBlockId = pages :=
    InsertionDict.get?_foldl_set_iff requests
  unfold targetPage
  cases found : (blockIdLookup loads).get? place.1 with
  | none =>
      simp only [Option.getD_none, List.getElem?_nil, reduceCtorEq, false_iff]
      rintro ⟨payload, isPayload, sameRequest, _⟩
      have present := (known _).mpr ⟨payload, isPayload, sameRequest, rfl⟩
      simp [found] at present
  | some pages =>
      obtain ⟨payload, isPayload, sameRequest, isPages⟩ :=
        (known pages).mp found
      rw [Option.getD_some, ← isPages, List.getElem?_map,
        Option.map_eq_some_iff]
      constructor
      · intro isPage
        exact ⟨payload, isPayload, sameRequest, isPage⟩
      · rintro ⟨other, isOther, otherRequest, spec, isSpec, isPage⟩
        have present :=
          (known _).mpr ⟨other, isOther, otherRequest, rfl⟩
        rw [found, Option.some.injEq, ← isPages] at present
        have specs := congrArg (fun pages => pages[place.2]?) present
        simp only [List.getElem?_map, isSpec, Option.map_some,
          Option.map_eq_some_iff] at specs
        obtain ⟨same, isSame, samePage⟩ := specs
        exact ⟨same, isSame, samePage.trans isPage⟩

/-- No page belongs to two places. -/
theorem targetPage_inj
    {loads : List RequestPayload}
    (requests : (loads.map RequestPayload.requestId).Nodup)
    (pages :
      (loads.flatMap fun payload =>
        payload.blocks.map BlockSpec.vllmBlockId).Nodup)
    {left right : String × Nat}
    {page : Nat}
    (isLeft : targetPage (blockIdLookup loads) left = some page)
    (isRight : targetPage (blockIdLookup loads) right = some page) :
    left = right := by
  obtain ⟨payload, isPayload, sameRequest, spec, isSpec, isPage⟩ :=
    (targetPage_iff requests).mp isLeft
  obtain ⟨other, isOther, otherRequest, otherSpec, isOtherSpec, otherPage⟩ :=
    (targetPage_iff requests).mp isRight
  obtain ⟨within, between⟩ := List.nodup_flatMap.mp pages
  have leftPage :
      (payload.blocks.map BlockSpec.vllmBlockId)[left.2]? = some page := by
    simp [isSpec, isPage]
  have rightPage :
      (other.blocks.map BlockSpec.vllmBlockId)[right.2]? = some page := by
    simp [isOtherSpec, otherPage]
  have samePayload : payload = other := by
    by_contra different
    have symmetric :
        Std.Symm (Function.onFun List.Disjoint fun payload : RequestPayload =>
          payload.blocks.map BlockSpec.vllmBlockId) :=
      ⟨fun _ _ apart => apart.symm⟩
    exact between.forall isPayload isOther different
      (List.mem_of_getElem? leftPage) (List.mem_of_getElem? rightPage)
  subst samePayload
  exact Prod.ext (sameRequest.symm.trans otherRequest)
    (Connector.page_inj (within payload isPayload) leftPage rightPage)

/-! ## One layer of a step -/

/-- Submitting fetches touches neither caches nor saved shapes. -/
structure SameCaches
    (before after : LoadWorker) :
    Prop where
  isWorker : after.isWorker = before.isWorker
  layerShapePin : after.layerShapePin = before.layerShapePin
  noCompileLayers : after.noCompileLayers = before.noCompileLayers

theorem sameCaches_submitLoads
    (sha256 : String → Hash256)
    (connector : Connector)
    (layerNames : List String)
    (loads : List RequestPayload)
    (worker : LoadWorker) :
    SameCaches worker
      (loads.foldl (submitRequest sha256 connector layerNames) worker) := by
  have one
      (requestId layerName : String)
      (current : LoadWorker)
      (indexed : BlockSpec × Nat)
      (same : SameCaches worker current) :
      SameCaches worker
        (submitBlock sha256 connector requestId layerName current
          indexed) := by
    unfold submitBlock
    split
    · exact ⟨same.isWorker, same.layerShapePin, same.noCompileLayers⟩
    · exact same
  refine List.foldlRecOn loads _ ⟨rfl, rfl, rfl⟩
    fun _ beforeRequest _ _ => ?_
  refine List.foldlRecOn layerNames _ beforeRequest
    fun _ beforeLayer _ _ => ?_
  exact List.foldlRecOn _ _ beforeLayer
    fun _ beforeBlock _ _ => one _ _ _ _ beforeBlock

/-- Putting the selected tensor back changes nothing. -/
theorem replaced_selected
    {cache : KvCacheAttr}
    {tensor : KvTensor}
    (selected : cache.selected = .ok (some tensor)) :
    cache.replaced tensor = cache := by
  unfold KvCacheAttr.selected at selected
  split at selected
  · simp at selected
  · simp only [Except.ok.injEq, Option.some.injEq] at selected
    rw [KvCacheAttr.replaced, selected]
  · simp at selected
  · simp only [Except.ok.injEq, Option.some.injEq] at selected
    rw [KvCacheAttr.replaced, selected]

/-- The caches after one tensor of one layer has been loaded. -/
structure OneLoaded
    (before : AList fun _ : String => KvCacheAttr)
    (worker : LoadWorker)
    (layerName : String)
    (cache : KvCacheAttr)
    (loaded : KvTensor) :
    Prop where
  layer :
    (worker.noCompileLayers.bind fun layers => layers.lookup layerName) =
      some (cache.replaced loaded)
  others :
    ∀ other,
      other ≠ layerName →
      (worker.noCompileLayers.bind fun layers => layers.lookup other) =
        before.lookup other

/-- Without a change the selected tensor is as it was. -/
theorem OneLoaded.refl
    {caches : AList fun _ : String => KvCacheAttr}
    {worker : LoadWorker}
    (hasLayers : worker.noCompileLayers = some caches)
    {layerName : String}
    {cache : KvCacheAttr}
    (cached : caches.lookup layerName = some cache)
    {tensor : KvTensor}
    (selected : cache.selected = .ok (some tensor)) :
    OneLoaded caches worker layerName cache tensor where
  layer := by
    rw [hasLayers, replaced_selected selected]
    exact cached
  others other _ := by
    rw [hasLayers]
    rfl

/-- A tensor with pages along its second axis and without drift. -/
structure Loadable
    (worker : LoadWorker)
    (layerName : String)
    (tensor : KvTensor) :
    Prop where
  axes : 4 ≤ tensor.shape.length
  halves : tensor.shape[0]? = some 2
  noDrift :
    ∀ saved ∈ worker.layerShapePin.lookup layerName,
      saved = (tensor.perBlockShape, tensor.dtype)

/-- A tensor stays loadable while the pinned shapes are the same. -/
theorem Loadable.of_sameCaches
    {before after : LoadWorker}
    {layerName : String}
    {tensor : KvTensor}
    (loadable : Loadable before layerName tensor)
    (same : SameCaches before after) :
    Loadable after layerName tensor := by
  refine ⟨loadable.axes, loadable.halves, ?_⟩
  rw [same.layerShapePin]
  exact loadable.noDrift

/-- Waiting for a layer copies its results and touches no other layer. -/
theorem waitForLayerLoad_injected
    {sha256 : String → Hash256}
    (answer : Nat → Option (List UInt8))
    {metadata : ConnectorMetadata}
    (someLoads : metadata.loads ≠ [])
    {layerName : String}
    {worker : LoadWorker}
    (isWorker : worker.isWorker = true)
    {caches : AList fun _ : String => KvCacheAttr}
    (hasLayers : worker.noCompileLayers = some caches)
    {cache : KvCacheAttr}
    (cached : caches.lookup layerName = some cache)
    {tensor : KvTensor}
    (selected : cache.selected = .ok (some tensor))
    (loadable : Loadable worker layerName tensor)
    {loaded : List ((String × Nat) × Option (List UInt8))}
    (isLoaded :
      (results answer
        (worker.inflightLoads.filterKeys fun key =>
          key.layerId = layerIdFor sha256 layerName).entries).entries =
        loaded)
    (sized :
      ∀ place payload,
        (place, some payload) ∈ loaded →
        expectedBytes? tensor.perBlockShape tensor.dtype =
          some payload.length) :
    let waited :=
      worker.waitForLayerLoad sha256 answer (some metadata) layerName
    waited.1 = none ∧
      ∃ after,
        OneLoaded caches waited.2 layerName cache after ∧
          Injected (blockIdLookup metadata.loads) loaded tensor after := by
  obtain ⟨noError, injected⟩ :=
    inject_injected (blockIdLookup metadata.loads) loaded tensor sized
  have unchecked :
      (worker.layerShapePin.lookup layerName).filter
          (fun saved =>
            decide (saved ≠ (tensor.perBlockShape, tensor.dtype))) =
        none := by
    rw [Option.filter_eq_none_iff]
    intro saved isSaved
    simp [loadable.noDrift saved isSaved]
  have goodShape :
      ¬ (tensor.shape.length < 4 ∨ tensor.shape[0]? ≠ some 2) := by
    have axes := loadable.axes
    have halves := loadable.halves
    simp only [not_or, not_not]
    exact ⟨by omega, halves⟩
  unfold waitForLayerLoad
  simp only [isWorker, Bool.true_eq_false, ↓reduceIte, someLoads, isLoaded,
    hasLayers, cached, selected]
  split
  · next nothing =>
      refine ⟨rfl, tensor, .refl rfl cached selected, ?_⟩
      rw [nothing]
      exact ⟨rfl, rfl, by simp, fun _ _ => rfl⟩
  · simp only [injectLayer, if_neg goodShape, unchecked]
    refine ⟨noError, _, ⟨?_, ?_⟩, injected⟩
    · exact AList.lookup_insert _
    · exact fun other different => AList.lookup_insert_ne different

section Step

variable
  {sha256 : String → Hash256}
  {connector : Connector}
  {loads : List RequestPayload}
  {layerNames : List String}
  {layerName : String}

/-- A key names one block of the loads. -/
theorem LoadAt.unique
    (requests : (loads.map RequestPayload.requestId).Nodup)
    {key : LoadKey}
    {otherName : String}
    {spec otherSpec : BlockSpec}
    (loadAt : LoadAt sha256 loads key layerName spec)
    (otherAt : LoadAt sha256 loads key otherName otherSpec) :
    spec = otherSpec := by
  obtain ⟨payload, isPayload, sameRequest, isSpec⟩ := loadAt.request
  obtain ⟨other, isOther, otherRequest, isOtherSpec⟩ := otherAt.request
  have samePayload : payload = other :=
    List.inj_on_of_nodup_map requests isPayload isOther
      (sameRequest.trans otherRequest.symm)
  rw [samePayload, isOtherSpec] at isSpec
  exact (Option.some.inj isSpec).symm

/-- A fetch in flight for a layer is one of the block that its key names. -/
theorem Placed.loadAt
    {worker : LoadWorker}
    (placed : Placed sha256 connector layerNames loads worker)
    (layerIds : (layerNames.map (layerIdFor sha256)).Nodup)
    (isLayer : layerName ∈ layerNames)
    {key : LoadKey}
    (ofLayer : key.layerId = layerIdFor sha256 layerName)
    {call : Nat}
    (found : worker.inflightLoads.get? key = some call) :
    ∃ spec,
      LoadAt sha256 loads key layerName spec ∧
        worker.submitted[call]? =
          some (connector.layerBlock sha256 spec.chainedHash layerName) := by
  obtain ⟨otherName, isOther, spec, loadAt, isId⟩ := placed key call found
  obtain rfl : otherName = layerName :=
    List.inj_on_of_nodup_map layerIds isOther isLayer
      (loadAt.layer.trans ofLayer)
  exact ⟨spec, loadAt, isId⟩

/-- The fetch in flight for a load is one of its block of the layer. -/
theorem Placed.exists_fetch
    {worker : LoadWorker}
    (placed : Placed sha256 connector layerNames loads worker)
    (requests : (loads.map RequestPayload.requestId).Nodup)
    (layerIds : (layerNames.map (layerIdFor sha256)).Nodup)
    (isLayer : layerName ∈ layerNames)
    {key : LoadKey}
    {spec : BlockSpec}
    (loadAt : LoadAt sha256 loads key layerName spec)
    (inFlight : worker.InFlight key) :
    ∃ call,
      worker.inflightLoads.get? key = some call ∧
        worker.submitted[call]? =
          some (connector.layerBlock sha256 spec.chainedHash layerName) := by
  obtain ⟨call, found⟩ := Option.isSome_iff_exists.mp inFlight
  obtain ⟨other, otherAt, isFetch⟩ :=
    placed.loadAt layerIds isLayer loadAt.layer.symm found
  obtain rfl := loadAt.unique requests otherAt
  exact ⟨call, found, isFetch⟩

/-- From an idle worker on, all fetches in flight are those of the step. -/
theorem placed_of_idle
    {worker : LoadWorker}
    (idle : worker.inflightLoads = InsertionDict.empty) :
    Placed sha256 connector layerNames loads
      (loads.foldl (submitRequest sha256 connector layerNames) worker) := by
  refine Placed.submitLoads ?_
  intro key call found
  simp [idle] at found

/-- Every load of a step has a fetch of its block of the layer. -/
theorem exists_fetch_of_idle
    {worker : LoadWorker}
    (idle : worker.inflightLoads = InsertionDict.empty)
    (requests : (loads.map RequestPayload.requestId).Nodup)
    (layerIds : (layerNames.map (layerIdFor sha256)).Nodup)
    (isLayer : layerName ∈ layerNames)
    {key : LoadKey}
    {spec : BlockSpec}
    (loadAt : LoadAt sha256 loads key layerName spec) :
    let started :=
      loads.foldl (submitRequest sha256 connector layerNames) worker
    ∃ call,
      started.inflightLoads.get? key = some call ∧
        started.submitted[call]? =
          some (connector.layerBlock sha256 spec.chainedHash layerName) :=
  (placed_of_idle idle).exists_fetch requests layerIds isLayer loadAt
    (inFlight_submitLoads worker isLayer loadAt)

/-- A load whose fetch for a layer gave bytes, with its page. -/
structure Fills
    (sha256 : String → Hash256)
    (connector : Connector)
    (loads : List RequestPayload)
    (layerName : String)
    (started : LoadWorker)
    (answer : Nat → Option (List UInt8))
    (page : Nat)
    (bytes : List UInt8)
    (key : LoadKey)
    (spec : BlockSpec)
    (call : Nat) :
    Prop where
  loadAt : LoadAt sha256 loads key layerName spec
  inFlight : started.inflightLoads.get? key = some call
  isFetch :
    started.submitted[call]? =
      some (connector.layerBlock sha256 spec.chainedHash layerName)
  answered : answer call = some bytes
  isPage : spec.vllmBlockId = page

/-- Results with bytes for a page are the loads that fill it. -/
theorem result_for_page_iff
    {started : LoadWorker}
    (placed : Placed sha256 connector layerNames loads started)
    (requests : (loads.map RequestPayload.requestId).Nodup)
    (layerIds : (layerNames.map (layerIdFor sha256)).Nodup)
    (isLayer : layerName ∈ layerNames)
    (answer : Nat → Option (List UInt8))
    (page : Nat)
    (bytes : List UInt8) :
    (∃ place,
      (place, some bytes) ∈
          (results answer
            (started.inflightLoads.filterKeys fun key =>
              key.layerId = layerIdFor sha256 layerName).entries
            ).entries ∧
        targetPage (blockIdLookup loads) place = some page) ↔
      ∃ key spec call,
        Fills sha256 connector loads layerName started answer page bytes key
          spec call := by
  simp only [mem_results_iff, targetPage_iff requests]
  constructor
  · rintro ⟨place, ⟨call, found, answered⟩, payload, isPayload, sameRequest,
      spec, isSpec, isPage⟩
    obtain ⟨fetched, loadAt, isFetch⟩ :=
      placed.loadAt layerIds isLayer rfl found
    obtain ⟨other, isOther, otherRequest, isFetched⟩ := loadAt.request
    obtain rfl : payload = other :=
      List.inj_on_of_nodup_map requests isPayload isOther
        (sameRequest.trans otherRequest.symm)
    obtain rfl : spec = fetched :=
      Option.some.inj (isSpec.symm.trans isFetched)
    exact ⟨_, spec, call, loadAt, found, isFetch, answered, isPage⟩
  · rintro ⟨key, spec, call, fills⟩
    obtain ⟨payload, isPayload, sameRequest, isSpec⟩ := fills.loadAt.request
    refine ⟨(key.requestId, key.blockIndex), ⟨call, ?_, fills.answered⟩,
      payload, isPayload, sameRequest, spec, isSpec, fills.isPage⟩
    rw [fills.loadAt.layer]
    exact fills.inFlight

/--
Copied results are in the pages of the loads that they were fetched for, and
the other pages are as before.
-/
theorem Injected.pages_of_fills
    {started : LoadWorker}
    {answer : Nat → Option (List UInt8)}
    {before after : KvTensor}
    (injected :
      Injected (blockIdLookup loads)
        (results answer
          (started.inflightLoads.filterKeys fun key =>
            key.layerId = layerIdFor sha256 layerName).entries).entries
        before after)
    (placed : Placed sha256 connector layerNames loads started)
    (requests : (loads.map RequestPayload.requestId).Nodup)
    (pages :
      (loads.flatMap fun payload =>
        payload.blocks.map BlockSpec.vllmBlockId).Nodup)
    (layerIds : (layerNames.map (layerIdFor sha256)).Nodup)
    (isLayer : layerName ∈ layerNames) :
    let fills := Fills sha256 connector loads layerName started answer
    (∀ page bytes key spec call,
      fills page bytes key spec call →
      page < before.pages.length →
      after.pages[page]? = some bytes) ∧
    ∀ page,
      (∀ bytes key spec call, ¬ fills page bytes key spec call) →
      after.pages[page]? = before.pages[page]? := by
  have forPage :=
    result_for_page_iff placed requests layerIds isLayer answer
  constructor
  · intro page bytes key spec call filled inside
    obtain ⟨place, isResult, isTarget⟩ :=
      (forPage page bytes).mpr ⟨key, spec, call, filled⟩
    refine injected.written page bytes inside ?_ ⟨place, isResult, isTarget⟩
    intro other payload isOther otherTarget
    obtain rfl := targetPage_inj requests pages isTarget otherTarget
    rw [InsertionDict.mem_entries] at isResult isOther
    rw [isResult] at isOther
    exact (Option.some.inj (Option.some.inj isOther)).symm
  · intro page untouched
    refine injected.kept page ?_
    intro place payload isResult isTarget
    obtain ⟨key, spec, call, filled⟩ :=
      (forPage page payload).mp ⟨place, isResult, isTarget⟩
    exact untouched payload key spec call filled

end Step

/--
After the fetches of a step have been submitted and a layer has been waited
for, the page of every load whose fetch for the layer gave bytes holds these
bytes, and all other pages of the layer and all other layers are unchanged.
Every load has a fetch of its own block of the layer.
-/
theorem loaded_bytes_land_in_their_pages
    {World : Type}
    (network : Network World)
    (world : World)
    (order : List Nat)
    (sha256 : String → Hash256)
    (connector : Connector)
    {metadata : ConnectorMetadata}
    (requests : (metadata.loads.map RequestPayload.requestId).Nodup)
    (pages :
      (metadata.loads.flatMap fun payload =>
        payload.blocks.map BlockSpec.vllmBlockId).Nodup)
    {attnMetadata : AttnMetadata}
    {layerNames : List String}
    (isLayers : attnMetadata.layerNames? = some layerNames)
    (layerIds : (layerNames.map (layerIdFor sha256)).Nodup)
    {layerName : String}
    (isLayer : layerName ∈ layerNames)
    {worker : LoadWorker}
    (isWorker : worker.isWorker = true)
    (idle : worker.inflightLoads = InsertionDict.empty)
    {caches : AList fun _ : String => KvCacheAttr}
    (hasLayers : worker.noCompileLayers = some caches)
    {cache : KvCacheAttr}
    (cached : caches.lookup layerName = some cache)
    {tensor : KvTensor}
    (selected : cache.selected = .ok (some tensor))
    (loadable : Loadable worker layerName tensor) :
    let started :=
      (worker.startLoadKv sha256 connector (some metadata) attnMetadata).2
    let answer :=
      answerOf
        (runFetches network connector.client started.submitted order world)
    let waited :=
      started.waitForLayerLoad sha256 answer (some metadata) layerName
    let fills :=
      Fills sha256 connector metadata.loads layerName started answer
    (∀ key call bytes,
      started.inflightLoads.get? key = some call →
      key.layerId = layerIdFor sha256 layerName →
      answer call = some bytes →
      expectedBytes? tensor.perBlockShape tensor.dtype =
        some bytes.length) →
    waited.1 = none ∧
      (∀ key spec,
        LoadAt sha256 metadata.loads key layerName spec →
        ∃ call,
          started.inflightLoads.get? key = some call ∧
            started.submitted[call]? =
              some
                (connector.layerBlock sha256 spec.chainedHash layerName)) ∧
      ∃ loaded,
        OneLoaded caches waited.2 layerName cache loaded ∧
          loaded.shape = tensor.shape ∧
          loaded.dtype = tensor.dtype ∧
          (∀ page bytes key spec call,
            fills page bytes key spec call →
            page < tensor.pages.length →
            loaded.pages[page]? = some bytes) ∧
          ∀ page,
            (∀ bytes key spec call, ¬ fills page bytes key spec call) →
            loaded.pages[page]? = tensor.pages[page]? := by
  intro started answer waited fills sized
  have isStarted :
      started =
        metadata.loads.foldl (submitRequest sha256 connector layerNames)
          worker := by
    simp [started, startLoadKv, isWorker, isLayers]
  have placed :
      Placed sha256 connector layerNames metadata.loads started := by
    rw [isStarted]
    exact placed_of_idle idle
  have sameCaches : SameCaches worker started := by
    rw [isStarted]
    exact sameCaches_submitLoads sha256 connector layerNames metadata.loads
      worker
  have fetched :
      ∀ key spec,
        LoadAt sha256 metadata.loads key layerName spec →
        ∃ call,
          started.inflightLoads.get? key = some call ∧
            started.submitted[call]? =
              some
                (connector.layerBlock sha256 spec.chainedHash
                  layerName) := by
    intro key spec loadAt
    rw [isStarted]
    exact exists_fetch_of_idle idle requests layerIds isLayer loadAt
  have hasCaches : started.noCompileLayers = some caches :=
    sameCaches.noCompileLayers.trans hasLayers
  have startedWorker : started.isWorker = true :=
    sameCaches.isWorker.trans isWorker
  by_cases noLoads : metadata.loads = []
  · have unchanged : waited = (none, started) := by
      simp [waited, waitForLayerLoad, startedWorker, noLoads]
    refine ⟨by rw [unchanged], fetched, tensor, ?_, rfl, rfl, ?_,
      fun _ _ => rfl⟩
    · rw [unchanged]
      exact .refl hasCaches cached selected
    · intro page bytes key spec call filled
      obtain ⟨payload, isPayload, _⟩ := filled.loadAt.request
      simp [noLoads] at isPayload
  · obtain ⟨noError, loaded, oneLoaded, injected⟩ :=
      waitForLayerLoad_injected answer noLoads startedWorker
        hasCaches cached selected (loadable.of_sameCaches sameCaches) rfl
        (by
          intro place payload isResult
          obtain ⟨call, found, answered⟩ := (mem_results_iff _).mp isResult
          exact sized _ call payload found rfl answered)
    exact
      ⟨noError, fetched, loaded, oneLoaded, injected.shape, injected.dtype,
        injected.pages_of_fills placed requests pages layerIds isLayer⟩

/-! ## A prompt of two blocks -/

/-- Both blocks of a prompt are loaded, into pages in reverse order. -/
def sampleLoads : ConnectorMetadata where
  loads := [⟨"request-0", [⟨firstHash, 1, true⟩, ⟨secondHash, 0, true⟩]⟩]
  blockSize := 2

/-- Two pages of four bytes. -/
def sampleTensor : KvTensor where
  shape := [2, 2, 1, 1]
  dtype := .float16
  pages := [[0, 0, 0, 0], [0, 0, 0, 0]]
  paged := rfl

/-- A worker with the caches of two layers. -/
def sampleWorker : LoadWorker where
  isWorker := true
  inflightLoads := InsertionDict.empty
  submitted := []
  layerShapePin := ∅
  noCompileLayers :=
    some
      ((AList.singleton secondLayer (.tensor sampleTensor)).insert firstLayer
        (.tensor sampleTensor))

/-- A server that has only the first block. -/
def sampleFetches : Network Unit where
  lookup _ _ world := (.failed, world)
  fetch _ id world :=
    (.ok ⟨decide (id.hash = firstHash), [1, 2, 3, 4]⟩, world)

/-- The fetches of both layers finish in reverse order. -/
theorem runFetches_sample :
    runFetches sampleFetches sampleConnector.client
        (sampleWorker.startLoadKv sampleSha256 sampleConnector
          (some sampleLoads) (.layers [firstLayer, secondLayer])).2.submitted
        [3, 2, 1, 0] () =
      [(3, none), (2, some [1, 2, 3, 4]), (1, none),
        (0, some [1, 2, 3, 4])] := by
  decide +kernel

theorem loaded_bytes_land_in_their_pages_sample :
    let started :=
      (sampleWorker.startLoadKv sampleSha256 sampleConnector
        (some sampleLoads) (.layers [firstLayer, secondLayer])).2
    let answer :=
      answerOf
        (runFetches sampleFetches sampleConnector.client started.submitted
          [3, 2, 1, 0] ())
    let waited :=
      started.waitForLayerLoad sampleSha256 answer (some sampleLoads)
        firstLayer
    waited.1 = none ∧
      ∃ loaded,
        OneLoaded
            ((AList.singleton secondLayer (.tensor sampleTensor)).insert
              firstLayer (.tensor sampleTensor))
            waited.2 firstLayer (.tensor sampleTensor) loaded ∧
          loaded.pages[1]? = some [1, 2, 3, 4] := by
  intro started answer waited
  have landed :=
    loaded_bytes_land_in_their_pages sampleFetches () [3, 2, 1, 0]
      sampleSha256 sampleConnector
      (show (sampleLoads.loads.map RequestPayload.requestId).Nodup by decide)
      (by decide +kernel)
      (show (AttnMetadata.layers [firstLayer, secondLayer]).layerNames? =
        some [firstLayer, secondLayer] from rfl)
      (by decide +kernel)
      (show firstLayer ∈ [firstLayer, secondLayer] by simp)
      (show sampleWorker.isWorker = true from rfl) rfl rfl
      (AList.lookup_insert _)
      (show (KvCacheAttr.tensor sampleTensor).selected =
        .ok (some sampleTensor) from rfl)
      ⟨by decide, by decide, by simp [sampleWorker]⟩
      (by
        intro key call bytes _ _ answered
        rw [runFetches_sample] at answered
        have isAnswer :=
          DictEntries.mem_of_get? (Option.join_eq_some_iff.mp answered)
        simp only [List.mem_cons, Prod.mk.injEq, reduceCtorEq, and_false,
          Option.some.injEq, false_or, List.not_mem_nil,
          or_false] at isAnswer
        rcases isAnswer with ⟨_, isBytes⟩ | ⟨_, isBytes⟩
        · rw [isBytes]
          decide
        · rw [isBytes]
          decide)
  obtain ⟨noError, _, loaded, oneLoaded, _, _, filled, _⟩ := landed
  refine ⟨noError, loaded, oneLoaded, ?_⟩
  refine filled 1 [1, 2, 3, 4]
    ⟨"request-0", layerIdFor sampleSha256 firstLayer, 0⟩
    ⟨firstHash, 1, true⟩ 0 ⟨?_, ?_, ?_, ?_, rfl⟩ (by decide)
  · exact ⟨⟨_, List.mem_cons_self, rfl, rfl⟩, rfl, rfl⟩
  · decide +kernel
  · decide +kernel
  · rw [runFetches_sample]
    rfl

end LoadWorker

end Lethe
