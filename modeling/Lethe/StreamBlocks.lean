import Lethe.Cluster
import Lethe.ResidentReads

namespace Lethe

/-!
# Streamed blocks

A peer may stream a block in several chunks with their offsets.  The handler
hands every chunk to the store as if it were a whole block, and the tiers keep
the first payload of an id.  What a fetch returns afterwards is the complete
payload exactly if the first chunk is the whole payload already, or the block
was on the node before and no chunk got in front of it.
-/

/-- Why a block is streamed. -/
inductive ChunkPurpose where
  | replication
  | readRepair
  | prefillToDecode
  deriving DecidableEq

/-- A part of a block as it is sent. -/
structure BlockChunk where
  id : BlockId
  payload : List UInt8
  offset : Nat
  last : Bool
  purpose : ChunkPurpose
  deriving DecidableEq

/-- The answer to a stream of chunks. -/
structure StreamAck where
  receivedCount : UInt32
  totalBytes : UInt64
  deriving DecidableEq

/-- The block that a chunk is stored as. -/
def streamedBlock
    (epoch : UInt64)
    (id : BlockId)
    (payload : List UInt8) :
    KvBlock :=
  { id := id, data := payload, tier := .dram, insertedEpoch := epoch }

/-- Store a chunk. -/
def TieredStore.receiveChunk
    (epoch : UInt64)
    (id : BlockId)
    (store : TieredStore)
    (payload : List UInt8) :
    TieredStore :=
  (store.put (streamedBlock epoch id payload) .dram).2

namespace CacheNode

/-- Store a streamed block in DRAM, whatever it was streamed for. -/
def ingestStreamedBlock
    (node : CacheNode)
    (epoch : UInt64)
    (id : BlockId)
    (payload : List UInt8)
    (_purpose : ChunkPurpose) :
    CacheNode :=
  { node with store := node.store.receiveChunk epoch id payload }

/-- Count a chunk of the stream and store it. -/
def receiveMessage
    (epoch : UInt64)
    (received : StreamAck × CacheNode)
    (chunk : BlockChunk) :
    StreamAck × CacheNode :=
  (⟨received.1.receivedCount + 1,
      received.1.totalBytes + UInt64.ofNat chunk.payload.length⟩,
    received.2.ingestStreamedBlock epoch chunk.id chunk.payload
      chunk.purpose)

/-- Receive a stream of chunks. -/
def streamBlocks
    (node : CacheNode)
    (epoch : UInt64)
    (chunks : List BlockChunk) :
    StreamAck × CacheNode :=
  chunks.foldl (receiveMessage epoch) (⟨0, 0⟩, node)

end CacheNode

/-- A block and the way its payload is cut into chunks, at least one. -/
structure ChunkedBlock where
  id : BlockId
  purpose : ChunkPurpose
  first : List UInt8
  rest : List (List UInt8)

namespace ChunkedBlock

/-- The chunks in order. -/
def chunks
    (block : ChunkedBlock) :
    List (List UInt8) :=
  block.first :: block.rest

/-- The complete payload. -/
def payload
    (block : ChunkedBlock) :
    List UInt8 :=
  block.chunks.flatten

/-- Messages for chunks that start at an offset. -/
def messagesFrom
    (id : BlockId)
    (purpose : ChunkPurpose) :
    Nat → List (List UInt8) → List BlockChunk
  | _, [] => []
  | offset, chunk :: later =>
      { id := id
        payload := chunk
        offset := offset
        last := later.isEmpty
        purpose := purpose } ::
        messagesFrom id purpose (offset + chunk.length) later

/-- The messages that send a block. -/
def messages
    (block : ChunkedBlock) :
    List BlockChunk :=
  messagesFrom block.id block.purpose 0 block.chunks

/-- The same block in one piece. -/
def whole
    (block : ChunkedBlock) :
    ChunkedBlock where
  id := block.id
  purpose := block.purpose
  first := block.payload
  rest := []

@[simp] theorem payload_whole
    (block : ChunkedBlock) :
    block.whole.payload = block.payload := by
  simp [whole, payload, chunks]

end ChunkedBlock

/-- The store after the chunks of one block. -/
def TieredStore.receive
    (epoch : UInt64)
    (store : TieredStore)
    (block : ChunkedBlock) :
    TieredStore :=
  block.chunks.foldl (receiveChunk epoch block.id) store

namespace CacheNode

/-- The messages of one block store its chunks. -/
theorem foldl_messagesFrom
    (epoch : UInt64)
    (id : BlockId)
    (purpose : ChunkPurpose)
    (chunks : List (List UInt8))
    (offset : Nat)
    (received : StreamAck × CacheNode) :
    ((ChunkedBlock.messagesFrom id purpose offset chunks).foldl
        (receiveMessage epoch) received).2 =
      { received.2 with
        store :=
          chunks.foldl (TieredStore.receiveChunk epoch id)
            received.2.store } := by
  induction chunks generalizing offset received with
  | nil =>
      rfl
  | cons chunk later inductionHypothesis =>
      exact inductionHypothesis _ _

/-- A stream of blocks stores them block by block. -/
theorem streamBlocks_messages
    (node : CacheNode)
    (epoch : UInt64)
    (blocks : List ChunkedBlock) :
    (node.streamBlocks epoch (blocks.flatMap ChunkedBlock.messages)).2 =
      { node with
        store := blocks.foldl (TieredStore.receive epoch) node.store } := by
  suffices all :
      ∀ received : StreamAck × CacheNode,
        ((blocks.flatMap ChunkedBlock.messages).foldl
            (receiveMessage epoch) received).2 =
          { received.2 with
            store :=
              blocks.foldl (TieredStore.receive epoch)
                received.2.store } from
    all (⟨0, 0⟩, node)
  induction blocks with
  | nil =>
      intro received
      rfl
  | cons block rest inductionHypothesis =>
      intro received
      rw [List.flatMap_cons, List.foldl_append, inductionHypothesis,
        ChunkedBlock.messages, foldl_messagesFrom]
      rfl

end CacheNode

/-! ## What one chunk does -/

namespace TieredStore

section Chunk

variable
  {store : TieredStore}
  {epoch : UInt64}
  {id : BlockId}

/-- DRAM has room for a chunk. -/
def DramTakes
    (store : TieredStore)
    (epoch : UInt64)
    (id : BlockId)
    (chunk : List UInt8) : Prop :=
  store.dram.HasRoom (streamedBlock epoch id chunk)

instance
    (store : TieredStore)
    (epoch : UInt64)
    (id : BlockId) :
    DecidablePred (store.DramTakes epoch id) :=
  fun chunk =>
    inferInstanceAs
      (Decidable (store.dram.HasRoom (streamedBlock epoch id chunk)))

/-- A block that DRAM holds stays as it is. -/
theorem receiveChunk_of_held
    {data : List UInt8}
    (held : store.copy .dram id = some data)
    (chunk : List UInt8) :
    store.receiveChunk epoch id chunk = store := by
  have accepted :
      store.putToTier (streamedBlock epoch id chunk) .dram =
        (true, store) := by
    have present :
        store.dram.get (streamedBlock epoch id chunk).id = some data :=
      held
    simp only [putToTier]
    rw [BlockStore.put_of_present present]
  simp [receiveChunk, put, fallthrough, putInFirst, accepted]

/-- A chunk that DRAM takes is what it holds. -/
theorem copy_receiveChunk_of_taken
    (consistent : store.SsdConsistent)
    (absent : store.copy .dram id = none)
    {chunk : List UInt8}
    (takes : store.DramTakes epoch id chunk)
    (query : Tier)
    (other : BlockId) :
    (store.receiveChunk epoch id chunk).copy query other =
      if query = .dram ∧ other = id then
        some chunk
      else
        store.copy query other := by
  have accepted :
      (store.putToTier (streamedBlock epoch id chunk) .dram).1 = true :=
    putToTier_accepted_iff.mpr takes
  rw [receiveChunk, put_of_hint accepted,
    copy_putToTier_of_accepted consistent accepted]
  simp [streamedBlock, absent]

/-- A chunk that DRAM does not take can only get into the file. -/
theorem receiveChunk_of_full
    {chunk : List UInt8}
    (full : ¬ store.DramTakes epoch id chunk) :
    store.receiveChunk epoch id chunk =
      (store.putToTier (streamedBlock epoch id chunk) .ssd).2 := by
  have rejected :
      (store.putToTier (streamedBlock epoch id chunk) .dram).1 = false := by
    rw [← Bool.not_eq_true, putToTier_accepted_iff]
    exact full
  have unchanged := putToTier_of_rejected rejected
  simp only [receiveChunk, put, fallthrough, putInFirst, rejected,
    unchanged, Bool.false_eq_true, ↓reduceIte]
  split
  · rfl
  · rfl

/-- The copies next to a chunk that DRAM does not take. -/
theorem copy_receiveChunk_of_full
    (consistent : store.SsdConsistent)
    {chunk : List UInt8}
    (full : ¬ store.DramTakes epoch id chunk)
    {query : Tier}
    {other : BlockId}
    (elsewhere : query ≠ .ssd ∨ other ≠ id) :
    (store.receiveChunk epoch id chunk).copy query other =
      store.copy query other := by
  rw [receiveChunk_of_full full]
  cases accepted :
      (store.putToTier (streamedBlock epoch id chunk) .ssd).1 with
  | false =>
      rw [putToTier_of_rejected accepted]
  | true =>
      rw [copy_putToTier_of_accepted consistent accepted]
      refine if_neg ?_
      rintro ⟨isSsd, isId⟩
      rcases elsewhere with notSsd | notId
      · exact notSsd isSsd
      · exact notId isId

/-- The copy in the file after a chunk that DRAM does not take. -/
theorem ssd_copy_receiveChunk_of_full
    (consistent : store.SsdConsistent)
    {chunk : List UInt8}
    (full : ¬ store.DramTakes epoch id chunk) :
    (store.receiveChunk epoch id chunk).copy .ssd id =
      (store.copy .ssd id).or
        (if store.TierHasRoom (streamedBlock epoch id chunk) .ssd then
          some chunk
        else
          none) := by
  rw [receiveChunk_of_full full]
  by_cases room : store.TierHasRoom (streamedBlock epoch id chunk) .ssd
  · rw [copy_putToTier_of_accepted consistent
      (putToTier_accepted_iff.mpr room), if_pos room]
    cases held : store.copy .ssd id <;> simp [streamedBlock, held]
  · have rejected :
        (store.putToTier (streamedBlock epoch id chunk) .ssd).1 = false := by
      rwa [← Bool.not_eq_true, putToTier_accepted_iff]
    rw [putToTier_of_rejected rejected, if_neg room]
    simp

/-- Chunks keep the file consistent. -/
theorem SsdConsistent.receiveChunk
    (consistent : store.SsdConsistent)
    (epoch : UInt64)
    (id : BlockId)
    (chunk : List UInt8) :
    (store.receiveChunk epoch id chunk).SsdConsistent :=
  consistent.put _ .dram

end Chunk

/-! ## What the chunks of a block do -/

/--
The copies after some chunks of a block: DRAM holds what it held or the first
chunk that it takes, and the file what it held or a chunk that came before.
-/
structure Received
    (epoch : UInt64)
    (id : BlockId)
    (chunks : List (List UInt8))
    (before after : TieredStore) : Prop where
  others :
    ∀ query other, other ≠ id → after.copy query other = before.copy query other
  hbm : after.copy .hbm id = before.copy .hbm id
  dram :
    after.copy .dram id =
      (before.copy .dram id).or
        (chunks.find? fun chunk => before.DramTakes epoch id chunk)
  ssdKept :
    ∀ data,
      before.copy .ssd id = some data →
      after.copy .ssd id = some data
  ssdNew :
    ∀ data,
      before.copy .ssd id = none →
      after.copy .ssd id = some data →
      data ∈ chunks.takeWhile fun chunk =>
        ¬ before.DramTakes epoch id chunk

section Chunks

variable
  {store : TieredStore}
  {epoch : UInt64}
  {id : BlockId}

/-- Chunks of a block that DRAM holds change nothing. -/
theorem foldl_receiveChunk_of_held
    {data : List UInt8}
    (held : store.copy .dram id = some data)
    (chunks : List (List UInt8)) :
    chunks.foldl (receiveChunk epoch id) store = store := by
  induction chunks with
  | nil =>
      rfl
  | cons chunk later inductionHypothesis =>
      rw [List.foldl_cons, receiveChunk_of_held held, inductionHypothesis]

/-- Nothing changes. -/
theorem Received.refl
    (store : TieredStore)
    {chunks : List (List UInt8)}
    (held :
      (chunks.find? fun chunk => store.DramTakes epoch id chunk) = none ∨
        (store.copy .dram id).isSome = true) :
    Received epoch id chunks store store := by
  refine ⟨fun _ _ _ => rfl, rfl, ?_, fun _ inFile => inFile, ?_⟩
  · rcases held with noneTaken | inDram
    · rw [noneTaken, Option.or_none]
    · rw [Option.or_of_isSome inDram]
  · intro data absent inFile
    rw [absent] at inFile
    simp at inFile

/-- DRAM takes the first chunk, and the others change nothing. -/
theorem Received.of_taken
    (consistent : store.SsdConsistent)
    (absent : store.copy .dram id = none)
    {chunk : List UInt8}
    (takes : store.DramTakes epoch id chunk)
    (later : List (List UInt8)) :
    Received epoch id (chunk :: later) store
      (store.receiveChunk epoch id chunk) := by
  have copies := copy_receiveChunk_of_taken consistent absent takes
  refine ⟨?_, by simp [copies], by simp [copies, absent, takes], ?_, ?_⟩
  · intro query other different
    simp [copies, different]
  · intro data inFile
    simpa [copies] using inFile
  · intro data notInFile inFile
    simp [copies, notInFile] at inFile

/-- DRAM does not take the first chunk. -/
theorem Received.cons_of_full
    (consistent : store.SsdConsistent)
    {chunk : List UInt8}
    (full : ¬ store.DramTakes epoch id chunk)
    {later : List (List UInt8)}
    {after : TieredStore}
    (rest :
      Received epoch id later (store.receiveChunk epoch id chunk) after) :
    Received epoch id (chunk :: later) store after := by
  have sameRoom :
      (store.receiveChunk epoch id chunk).DramTakes epoch id =
        store.DramTakes epoch id := by
    unfold DramTakes
    rw [receiveChunk_of_full full, putToTier_ssd_dram]
  have inFile := ssd_copy_receiveChunk_of_full consistent full
  refine ⟨?_, ?_, ?_, ?_, ?_⟩
  · intro query other different
    rw [rest.others query other different,
      copy_receiveChunk_of_full consistent full (Or.inr different)]
  · rw [rest.hbm,
      copy_receiveChunk_of_full consistent full (Or.inl (by decide))]
  · rw [rest.dram,
      copy_receiveChunk_of_full consistent full (Or.inl (by decide))]
    simp [sameRoom, full]
  · intro data held
    refine rest.ssdKept data ?_
    rw [inFile, held]
    rfl
  · intro data absent held
    cases first : (store.receiveChunk epoch id chunk).copy .ssd id with
    | none =>
        have member := rest.ssdNew data first held
        simp only [sameRoom] at member
        rw [List.takeWhile_cons_of_pos (by simpa using full)]
        exact List.mem_cons_of_mem _ member
    | some other =>
        have isOther : data = other := by
          rw [rest.ssdKept other first] at held
          exact (Option.some_inj.mp held).symm
        rw [inFile, absent, Option.none_or] at first
        split at first
        · rw [Option.some_inj] at first
          rw [isOther, ← first,
            List.takeWhile_cons_of_pos (by simpa using full)]
          simp
        · simp at first

/-- What the chunks of a block leave in the tiers. -/
theorem received_foldl
    (consistent : store.SsdConsistent)
    (chunks : List (List UInt8)) :
    Received epoch id chunks store
      (chunks.foldl (receiveChunk epoch id) store) := by
  induction chunks generalizing store with
  | nil =>
      exact .refl store (Or.inl rfl)
  | cons chunk later inductionHypothesis =>
      cases inDram : store.copy .dram id with
      | some data =>
          rw [foldl_receiveChunk_of_held inDram]
          exact .refl store (Or.inr (by simp [inDram]))
      | none =>
          rw [List.foldl_cons]
          by_cases takes : store.DramTakes epoch id chunk
          · have taken :
                (store.receiveChunk epoch id chunk).copy .dram id =
                  some chunk := by
              simp [copy_receiveChunk_of_taken consistent inDram takes]
            rw [foldl_receiveChunk_of_held taken]
            exact .of_taken consistent inDram takes later
          · exact .cons_of_full consistent takes
              (inductionHypothesis (consistent.receiveChunk epoch id chunk))

end Chunks

end TieredStore

/-! ## What a fetch returns -/

namespace ChunkedBlock

/-- A chunk that is the whole payload is the first, or the first is empty. -/
theorem first_of_chunk_eq_payload
    {block : ChunkedBlock}
    {chunk : List UInt8}
    (member : chunk ∈ block.chunks)
    (isPayload : chunk = block.payload) :
    block.first = block.payload ∨ block.first = [] := by
  rcases List.mem_cons.mp member with isFirst | inRest
  · exact Or.inl (isFirst ▸ isPayload)
  · have part : chunk.length ≤ block.rest.flatten.length :=
      (List.sublist_flatten_of_mem inRest).length_le
    have total :
        block.payload.length =
          block.first.length + block.rest.flatten.length := by
      simp only [payload, chunks, List.flatten_cons, List.length_append]
    rw [isPayload] at part
    exact Or.inr (List.eq_nil_of_length_eq_zero (by omega))

/-- After a first chunk that is the whole payload all others are empty. -/
theorem rest_empty_of_first
    {block : ChunkedBlock}
    (whole : block.first = block.payload)
    {chunk : List UInt8}
    (member : chunk ∈ block.rest) :
    chunk = [] := by
  have nothing : block.rest.flatten = [] := by
    have shape : block.first ++ block.rest.flatten = block.first :=
      whole.symm
    simpa using shape
  exact List.flatten_eq_nil_iff.mp nothing chunk member

end ChunkedBlock

namespace TieredStore

/-- The first chunk of a block for which DRAM has room. -/
def dramChunk
    (epoch : UInt64)
    (store : TieredStore)
    (block : ChunkedBlock) :
    Option (List UInt8) :=
  block.chunks.find? fun chunk => store.DramTakes epoch block.id chunk

/--
A block arrives complete: an empty block is not in the file, and the first
chunk is the whole payload, or memory holds the block, or the file holds it and
DRAM has no room for a chunk with bytes that comes before an empty one.
-/
structure Arrives
    (epoch : UInt64)
    (store : TieredStore)
    (block : ChunkedBlock) : Prop where
  notEmptyInFile :
    block.payload = [] → store.copy .ssd block.id = none
  complete :
    block.first = block.payload ∨
      (store.copy .hbm block.id).isSome = true ∨
      (store.copy .dram block.id).isSome = true ∨
      ((store.copy .ssd block.id).isSome = true ∧
        ∀ chunk, store.dramChunk epoch block = some chunk → chunk = [])

section Fetch

variable
  {store : TieredStore}
  {epoch : UInt64}
  {block : ChunkedBlock}

/-- A chunk with bytes that DRAM takes is complete if the first chunk is. -/
theorem dramChunk_eq_payload_iff
    (emptyFits : store.DramTakes epoch block.id [])
    {chunk : List UInt8}
    (taken : store.dramChunk epoch block = some chunk)
    (bytes : chunk ≠ []) :
    chunk = block.payload ↔ block.first = block.payload := by
  constructor
  · intro isPayload
    rcases ChunkedBlock.first_of_chunk_eq_payload
      (List.mem_of_find?_eq_some taken) isPayload with whole | isEmpty
    · exact whole
    · simp [dramChunk, ChunkedBlock.chunks, isEmpty, emptyFits] at taken
      exact absurd taken bytes
  · intro whole
    rcases List.mem_cons.mp (List.mem_of_find?_eq_some taken) with
      isFirst | inRest
    · rw [isFirst, whole]
    · exact absurd (ChunkedBlock.rest_empty_of_first whole inRest) bytes

/-- What the chunks of one block leave in the tiers. -/
theorem received_receive
    (consistent : store.SsdConsistent)
    (epoch : UInt64)
    (block : ChunkedBlock) :
    Received epoch block.id block.chunks store (store.receive epoch block) :=
  received_foldl consistent block.chunks

/-- The chunks of an empty block leave an empty copy in DRAM. -/
theorem answer_receive_of_empty
    (consistent : store.SsdConsistent)
    (emptyFits : store.DramTakes epoch block.id [])
    (agree :
      ∀ tier data, store.copy tier block.id = some data → data = block.payload)
    (isEmpty : block.payload = []) :
    Probe.answer ((store.receive epoch block).copy .hbm block.id)
        ((store.receive epoch block).copy .dram block.id)
        ((store.receive epoch block).copy .ssd block.id) =
          some block.payload ↔
      store.copy .ssd block.id = none := by
  have received := received_receive consistent epoch block
  have firstEmpty : block.first = [] :=
    List.flatten_eq_nil_iff.mp isEmpty block.first (by
      simp [ChunkedBlock.chunks])
  have inDram :
      (store.receive epoch block).copy .dram block.id = some [] := by
    rw [received.dram]
    cases held : store.copy .dram block.id with
    | some data =>
        rw [agree .dram data held, isEmpty]
        rfl
    | none =>
        simp [ChunkedBlock.chunks, firstEmpty, emptyFits]
  have inFile :
      (store.receive epoch block).copy .ssd block.id =
        store.copy .ssd block.id := by
    cases held : store.copy .ssd block.id with
    | some data =>
        exact received.ssdKept data held
    | none =>
        refine Option.eq_none_iff_forall_ne_some.mpr fun data written => ?_
        have member := received.ssdNew data held written
        rw [ChunkedBlock.chunks, firstEmpty,
          List.takeWhile_cons_of_neg (by simpa using emptyFits)] at member
        simp at member
  rw [received.hbm, inDram, inFile, isEmpty]
  exact Probe.answer_of_empty_iff
    (fun data held => (agree .hbm data held).trans isEmpty)
    (fun data held => (agree .ssd data held).trans isEmpty)

/-- The file gets the payload of a block that is nowhere, if DRAM is full. -/
theorem ssd_receive_eq_payload_iff
    (consistent : store.SsdConsistent)
    (emptyFits : store.DramTakes epoch block.id [])
    (bytes : block.payload ≠ [])
    (room :
      store.HasRoom (streamedBlock epoch block.id block.payload) .dram)
    (notTaken :
      ∀ chunk, store.dramChunk epoch block = some chunk → chunk = [])
    (notInFile : store.copy .ssd block.id = none) :
    (store.receive epoch block).copy .ssd block.id = some block.payload ↔
      block.first = block.payload := by
  constructor
  · intro inFile
    have member :=
      (received_receive consistent epoch block).ssdNew block.payload
        notInFile inFile
    rcases ChunkedBlock.first_of_chunk_eq_payload
      ((List.takeWhile_sublist _).subset member) rfl with whole | isEmpty
    · exact whole
    · rw [ChunkedBlock.chunks, isEmpty,
        List.takeWhile_cons_of_neg (by simpa using emptyFits)] at member
      simp at member
  · intro whole
    have full : ¬ store.DramTakes epoch block.id block.first := by
      intro takes
      have isEmpty := notTaken block.first (by
        simp [dramChunk, ChunkedBlock.chunks, takes])
      exact bytes (whole ▸ isEmpty)
    have fileRoom :
        store.TierHasRoom (streamedBlock epoch block.id block.first) .ssd := by
      obtain ⟨tier, named, hasRoom⟩ := room
      rw [← whole] at hasRoom
      simp only [fallthrough, List.mem_cons, List.not_mem_nil,
        or_false] at named
      rcases named with rfl | rfl
      · exact absurd hasRoom full
      · exact hasRoom
    have written :
        (store.receiveChunk epoch block.id block.first).copy .ssd block.id =
          some block.payload := by
      rw [ssd_copy_receiveChunk_of_full consistent full, notInFile,
        if_pos fileRoom, whole]
      rfl
    exact
      (received_foldl (consistent.receiveChunk epoch block.id block.first)
        block.rest).ssdKept block.payload written

/--
A block that memory does not hold is complete if its first chunk is, or if the
file holds it and no chunk with bytes gets in front of it.
-/
theorem answer_receive_of_no_memory
    (consistent : store.SsdConsistent)
    (emptyFits : store.DramTakes epoch block.id [])
    (agree :
      ∀ tier data, store.copy tier block.id = some data → data = block.payload)
    (room :
      store.HasRoom (streamedBlock epoch block.id block.payload) .dram)
    (bytes : block.payload ≠ [])
    (notInDram : store.copy .dram block.id = none) :
    Probe.answer none
        ((store.receive epoch block).copy .dram block.id)
        ((store.receive epoch block).copy .ssd block.id) =
          some block.payload ↔
      block.first = block.payload ∨
        ((store.copy .ssd block.id).isSome = true ∧
          ∀ chunk, store.dramChunk epoch block = some chunk → chunk = []) := by
  have received := received_receive consistent epoch block
  have dramAfter :
      (store.receive epoch block).copy .dram block.id =
        store.dramChunk epoch block := by
    rw [received.dram, notInDram, Option.none_or]
    rfl
  rw [dramAfter]
  by_cases notTaken :
      ∀ chunk, store.dramChunk epoch block = some chunk → chunk = []
  · rw [Probe.answer_of_ssd_iff notTaken bytes]
    cases inFile : store.copy .ssd block.id with
    | some data =>
        obtain rfl := agree .ssd data inFile
        exact
          ⟨fun _ => Or.inr ⟨rfl, notTaken⟩,
            fun _ => received.ssdKept _ inFile⟩
    | none =>
        rw [ssd_receive_eq_payload_iff consistent emptyFits bytes room
          notTaken inFile]
        simp
  · push Not at notTaken
    obtain ⟨chunk, taken, chunkBytes⟩ := notTaken
    rw [taken, Probe.answer_of_dram chunkBytes, Option.some_inj,
      dramChunk_eq_payload_iff emptyFits taken chunkBytes]
    simp [chunkBytes]

/--
After the chunks of a block a read returns the complete payload exactly if the
block arrives.
-/
theorem answer_receive_iff
    (consistent : store.SsdConsistent)
    (emptyFits : store.DramTakes epoch block.id [])
    (agree :
      ∀ tier data, store.copy tier block.id = some data → data = block.payload)
    (room :
      store.HasRoom (streamedBlock epoch block.id block.payload) .dram) :
    Probe.answer ((store.receive epoch block).copy .hbm block.id)
        ((store.receive epoch block).copy .dram block.id)
        ((store.receive epoch block).copy .ssd block.id) =
          some block.payload ↔
      store.Arrives epoch block := by
  have received := received_receive consistent epoch block
  by_cases isEmpty : block.payload = []
  · rw [answer_receive_of_empty consistent emptyFits agree isEmpty]
    have firstWhole : block.first = block.payload := by
      rw [isEmpty]
      exact List.flatten_eq_nil_iff.mp isEmpty block.first (by
        simp [ChunkedBlock.chunks])
    exact
      ⟨fun notInFile => ⟨fun _ => notInFile, Or.inl firstWhole⟩,
        fun arrives => arrives.notEmptyInFile isEmpty⟩
  · have arrives_iff :
        store.Arrives epoch block ↔
          (block.first = block.payload ∨
            (store.copy .hbm block.id).isSome = true ∨
            (store.copy .dram block.id).isSome = true ∨
            ((store.copy .ssd block.id).isSome = true ∧
              ∀ chunk,
                store.dramChunk epoch block = some chunk → chunk = [])) :=
      ⟨fun arrives => arrives.complete,
        fun complete => ⟨fun absurdly => absurd absurdly isEmpty, complete⟩⟩
    rw [arrives_iff]
    cases inHbm : store.copy .hbm block.id with
    | some data =>
        obtain rfl := agree .hbm data inHbm
        rw [received.hbm, inHbm]
        simp [Probe.answer_of_hbm isEmpty]
    | none =>
        rw [received.hbm, inHbm]
        cases inDram : store.copy .dram block.id with
        | some data =>
            obtain rfl := agree .dram data inDram
            rw [received.dram, inDram, Option.some_or]
            simp [Probe.answer_of_dram isEmpty]
        | none =>
            rw [answer_receive_of_no_memory consistent emptyFits agree room
              isEmpty inDram]
            simp

end Fetch

/-! ## Whole streams -/

/-- The store after a stream of blocks. -/
def stream
    (epoch : UInt64)
    (store : TieredStore)
    (blocks : List ChunkedBlock) :
    TieredStore :=
  blocks.foldl (receive epoch) store

/-- The file agrees with its index and DRAM keeps within its capacity. -/
structure Receiving
    (store : TieredStore) : Prop where
  consistent : store.SsdConsistent
  bounded : store.dram.usedBytes ≤ store.dram.capacityBytes

/-- Every block finds room for its payload when its first chunk comes. -/
def RoomForAll
    (epoch : UInt64)
    (store : TieredStore)
    (blocks : List ChunkedBlock) : Prop :=
  ∀ earlier block,
    earlier ++ [block] <+: blocks →
    (store.stream epoch earlier).HasRoom
      (streamedBlock epoch block.id block.payload) .dram

section Stream

variable
  {store : TieredStore}
  {epoch : UInt64}
  {blocks : List ChunkedBlock}

/-- DRAM has room for an empty chunk. -/
theorem Receiving.emptyFits
    (receiving : store.Receiving)
    (epoch : UInt64)
    (id : BlockId) :
    store.DramTakes epoch id [] :=
  Or.inr ((Nat.mod_le _ _).trans receiving.bounded)

/-- A chunk keeps DRAM within its capacity. -/
theorem Receiving.receiveChunk
    (receiving : store.Receiving)
    (epoch : UInt64)
    (id : BlockId)
    (chunk : List UInt8) :
    (store.receiveChunk epoch id chunk).Receiving := by
  refine ⟨receiving.consistent.receiveChunk epoch id chunk, ?_⟩
  by_cases takes : store.DramTakes epoch id chunk
  · have accepted :
        (store.putToTier (streamedBlock epoch id chunk) .dram).1 = true :=
      putToTier_accepted_iff.mpr takes
    rw [TieredStore.receiveChunk, put_of_hint accepted]
    exact BlockStore.usedBytes_put_le receiving.bounded _
  · rw [receiveChunk_of_full takes, putToTier_ssd_dram]
    exact receiving.bounded

/-- A block keeps DRAM within its capacity. -/
theorem Receiving.receive
    (receiving : store.Receiving)
    (epoch : UInt64)
    (block : ChunkedBlock) :
    (store.receive epoch block).Receiving :=
  List.foldlRecOn block.chunks (TieredStore.receiveChunk epoch block.id)
    receiving fun _ before chunk _ => before.receiveChunk epoch block.id chunk

/-- A stream keeps DRAM within its capacity. -/
theorem Receiving.stream
    (receiving : store.Receiving)
    (epoch : UInt64)
    (blocks : List ChunkedBlock) :
    (store.stream epoch blocks).Receiving :=
  List.foldlRecOn blocks (TieredStore.receive epoch) receiving
    fun _ before block _ => before.receive epoch block

/-- A stream leaves the copies of all other blocks. -/
theorem copy_stream_of_not_mem
    (receiving : store.Receiving)
    {id : BlockId}
    (other : id ∉ blocks.map ChunkedBlock.id)
    (tier : Tier) :
    (store.stream epoch blocks).copy tier id = store.copy tier id := by
  induction blocks generalizing store with
  | nil =>
      rfl
  | cons block rest inductionHypothesis =>
      rw [List.map_cons, List.mem_cons, not_or] at other
      have received := received_receive receiving.consistent epoch block
      exact
        (inductionHypothesis (receiving.receive epoch block) other.2).trans
          (received.others tier id other.1)

/--
After a stream of different blocks a read of one of them returns its payload
exactly if the block arrives in the state before its first chunk.
-/
theorem answer_stream_iff
    (receiving : store.Receiving)
    (distinct : (blocks.map ChunkedBlock.id).Nodup)
    (agree :
      ∀ block ∈ blocks,
        ∀ tier data,
          store.copy tier block.id = some data → data = block.payload)
    (room : store.RoomForAll epoch blocks)
    {earlier : List ChunkedBlock}
    {block : ChunkedBlock}
    (next : earlier ++ [block] <+: blocks) :
    Probe.answer ((store.stream epoch blocks).copy .hbm block.id)
        ((store.stream epoch blocks).copy .dram block.id)
        ((store.stream epoch blocks).copy .ssd block.id) =
          some block.payload ↔
      (store.stream epoch earlier).Arrives epoch block := by
  have roomNow := room earlier block next
  obtain ⟨later, rfl⟩ := next
  simp only [List.map_append, List.map_cons, List.append_assoc,
    List.singleton_append] at distinct
  have notEarlier : block.id ∉ earlier.map ChunkedBlock.id :=
    fun member =>
      (List.nodup_append.mp distinct).2.2 _ member _ (List.mem_cons_self ..)
        rfl
  have notLater : block.id ∉ later.map ChunkedBlock.id :=
    (List.nodup_cons.mp (List.nodup_append.mp distinct).2.1).1
  have before := receiving.stream epoch earlier
  have split :
      store.stream epoch (earlier ++ [block] ++ later) =
        ((store.stream epoch earlier).receive epoch block).stream epoch
          later := by
    simp [TieredStore.stream, List.foldl_append]
  have after :
      ∀ tier,
        (store.stream epoch (earlier ++ [block] ++ later)).copy tier
            block.id =
          ((store.stream epoch earlier).receive epoch block).copy tier
            block.id := by
    intro tier
    rw [split, copy_stream_of_not_mem (before.receive epoch block) notLater]
  have agreeNow :
      ∀ tier data,
        (store.stream epoch earlier).copy tier block.id = some data →
        data = block.payload := by
    intro tier data held
    rw [copy_stream_of_not_mem receiving notEarlier] at held
    exact agree block (by simp) tier data held
  rw [after, after, after]
  exact answer_receive_iff before.consistent
    (before.emptyFits epoch block.id) agreeNow roomNow

end Stream

end TieredStore

namespace CacheNode

/-- The node after a stream of blocks. -/
def afterStream
    (node : CacheNode)
    (epoch : UInt64)
    (blocks : List ChunkedBlock) :
    CacheNode :=
  (node.streamBlocks epoch (blocks.flatMap ChunkedBlock.messages)).2

/-- The payload that a fetch returns. -/
def fetchedBytes
    (node : CacheNode)
    (id : BlockId) :
    Option (List UInt8) :=
  (node.fetchLocal id).1.map Prod.fst

@[simp] theorem store_afterStream
    (node : CacheNode)
    (epoch : UInt64)
    (blocks : List ChunkedBlock) :
    (node.afterStream epoch blocks).store =
      node.store.stream epoch blocks := by
  rw [afterStream, streamBlocks_messages]
  rfl

/-- A fetch returns the answer of three lookups. -/
theorem fetchedBytes_eq
    (node : CacheNode)
    (id : BlockId) :
    node.fetchedBytes id =
      Probe.answer (node.store.copy .hbm id) (node.store.copy .dram id)
        (node.store.copy .ssd id) := by
  rw [← TieredStore.get_data, fetchedBytes, fetchLocal, Option.map_map]
  rfl

end CacheNode

open TieredStore

/-- A block in one piece arrives unless it is empty and in the file. -/
theorem TieredStore.arrives_whole_iff
    {store : TieredStore}
    {epoch : UInt64}
    {block : ChunkedBlock} :
    store.Arrives epoch block.whole ↔
      (block.payload = [] → store.copy .ssd block.id = none) := by
  constructor
  · intro arrives isEmpty
    exact arrives.notEmptyInFile (by rwa [ChunkedBlock.payload_whole])
  · intro notEmptyInFile
    refine ⟨fun isEmpty => notEmptyInFile ?_, Or.inl ?_⟩
    · rwa [ChunkedBlock.payload_whole] at isEmpty
    · rw [ChunkedBlock.payload_whole]
      rfl


section Completeness

variable
  {node : CacheNode}
  {epoch : UInt64}
  {blocks : List ChunkedBlock}

/-- A block that arrives in chunks arrives in one piece. -/
theorem fetchedBytes_whole_of_arrives
    (receiving : node.store.Receiving)
    (distinct : (blocks.map ChunkedBlock.id).Nodup)
    (agree :
      ∀ block ∈ blocks,
        ∀ tier data,
          node.store.copy tier block.id = some data → data = block.payload)
    (roomWhole :
      node.store.RoomForAll epoch (blocks.map ChunkedBlock.whole))
    {earlier : List ChunkedBlock}
    {block : ChunkedBlock}
    (next : earlier ++ [block] <+: blocks)
    (arrives : (node.store.stream epoch earlier).Arrives epoch block) :
    (node.afterStream epoch (blocks.map ChunkedBlock.whole)).fetchedBytes
        block.id =
      some block.payload := by
  have sameIds :
      ∀ list : List ChunkedBlock,
        (list.map ChunkedBlock.whole).map ChunkedBlock.id =
          list.map ChunkedBlock.id := by
    intro list
    rw [List.map_map]
    rfl
  have nextWhole :
      earlier.map ChunkedBlock.whole ++ [block.whole] <+:
        blocks.map ChunkedBlock.whole := by
    simpa using next.map ChunkedBlock.whole
  have agreeWhole :
      ∀ whole ∈ blocks.map ChunkedBlock.whole,
        ∀ tier data,
          node.store.copy tier whole.id = some data →
          data = whole.payload := by
    intro whole member tier data held
    obtain ⟨source, inBlocks, rfl⟩ := List.mem_map.mp member
    rw [ChunkedBlock.payload_whole]
    exact agree source inBlocks tier data held
  have notEarlier : block.id ∉ earlier.map ChunkedBlock.id := by
    have someDistinct := distinct.sublist (next.map _).sublist
    rw [List.map_append] at someDistinct
    exact fun member =>
      (List.nodup_append.mp someDistinct).2.2 _ member _ (by simp) rfl
  have sameCopy :
      (node.store.stream epoch (earlier.map ChunkedBlock.whole)).copy .ssd
          block.id =
        (node.store.stream epoch earlier).copy .ssd block.id := by
    rw [copy_stream_of_not_mem receiving (by rwa [sameIds]),
      copy_stream_of_not_mem receiving notEarlier]
  have answered :=
    answer_stream_iff receiving (by rwa [sameIds]) agreeWhole roomWhole
      nextWhole
  rw [ChunkedBlock.payload_whole, arrives_whole_iff, sameCopy] at answered
  rw [CacheNode.fetchedBytes_eq, CacheNode.store_afterStream]
  exact answered.mpr arrives.notEmptyInFile

/--
After a stream of different blocks in chunks, on a node with room, every fetch
returns the complete payload, as it does after a stream in one piece, exactly
if every block arrives in the state before its first chunk.
-/
theorem streamed_blocks_complete_iff
    (receiving : node.store.Receiving)
    (distinct : (blocks.map ChunkedBlock.id).Nodup)
    (agree :
      ∀ block ∈ blocks,
        ∀ tier data,
          node.store.copy tier block.id = some data → data = block.payload)
    (room : node.store.RoomForAll epoch blocks)
    (roomWhole :
      node.store.RoomForAll epoch (blocks.map ChunkedBlock.whole)) :
    (∀ block ∈ blocks,
      (node.afterStream epoch blocks).fetchedBytes block.id =
          some block.payload ∧
        (node.afterStream epoch blocks).fetchedBytes block.id =
          (node.afterStream epoch
            (blocks.map ChunkedBlock.whole)).fetchedBytes block.id) ↔
      ∀ earlier block,
        earlier ++ [block] <+: blocks →
        (node.store.stream epoch earlier).Arrives epoch block := by
  have complete_iff :
      ∀ {earlier block},
        earlier ++ [block] <+: blocks →
        ((node.afterStream epoch blocks).fetchedBytes block.id =
            some block.payload ↔
          (node.store.stream epoch earlier).Arrives epoch block) := by
    intro earlier block next
    rw [CacheNode.fetchedBytes_eq, CacheNode.store_afterStream]
    exact answer_stream_iff receiving distinct agree room next
  constructor
  · intro complete earlier block next
    have member : block ∈ blocks := next.subset (by simp)
    exact (complete_iff next).mp (complete block member).1
  · intro arrive block member
    obtain ⟨earlier, later, rfl⟩ := List.append_of_mem member
    have next : earlier ++ [block] <+: earlier ++ block :: later :=
      ⟨later, by simp⟩
    have chunked := (complete_iff next).mpr (arrive earlier block next)
    refine ⟨chunked, chunked.trans ?_⟩
    exact
      (fetchedBytes_whole_of_arrives receiving distinct agree roomWhole next
        (arrive earlier block next)).symm

end Completeness

/-- A condition on a stream of one block. -/
theorem TieredStore.conditions_singleton
    {condition : TieredStore → ChunkedBlock → Prop}
    {store : TieredStore}
    {epoch : UInt64}
    {only : ChunkedBlock}
    (meets : condition store only) :
    ∀ earlier block,
      earlier ++ [block] <+: [only] →
      condition (store.stream epoch earlier) block :=
  EventRun.conditions_cons meets EventRun.conditions_nil

/-- Two chunks of one byte. -/
def splitBlock : ChunkedBlock where
  id := smallId
  purpose := .readRepair
  first := [1]
  rest := [[2]]

/-- Two bytes in the first chunk and none in the second. -/
def paddedBlock : ChunkedBlock where
  id := smallId
  purpose := .readRepair
  first := [1, 2]
  rest := [[]]

/-- Only the first of two chunks is kept, and a fetch returns it as a hit. -/
theorem second_chunk_dropped :
    let node := sampleNode [nodeA, nodeB] nodeA
    (node.afterStream 0 [splitBlock]).fetchedBytes smallId = some [1] ∧
      (node.afterStream 0 [splitBlock.whole]).fetchedBytes smallId =
        some [1, 2] ∧
      splitBlock.payload = [1, 2] ∧
      node.store.HasRoom (streamedBlock 0 smallId [1, 2]) .dram := by
  decide +kernel

/-- A first chunk with all the bytes is fetched complete. -/
theorem streamed_blocks_complete_iff_padded :
    let node := sampleNode [nodeA, nodeB] nodeA
    (node.afterStream 0 [paddedBlock]).fetchedBytes smallId =
      some [1, 2] := by
  have receiving : (sampleNode [nodeA, nodeB] nodeA).store.Receiving :=
    ⟨(create_zero_copies sampleStoreConfig sampleStoreConfig_small
      fun _ _ => True).consistent, by decide⟩
  have nothing :
      ∀ block ∈ [paddedBlock],
        ∀ tier data,
          (sampleNode [nodeA, nodeB] nodeA).store.copy tier block.id =
            some data →
          data = block.payload := by
    intro block member tier data held
    obtain rfl := List.mem_singleton.mp member
    have absent :
        (sampleNode [nodeA, nodeB] nodeA).store.copy tier paddedBlock.id =
          none := by
      cases tier <;> decide +kernel
    rw [absent] at held
    exact absurd held (by simp)
  have room :
      ∀ block : ChunkedBlock,
        block.payload = [1, 2] →
        (sampleNode [nodeA, nodeB] nodeA).store.RoomForAll 0 [block] := by
    intro block bytes
    have fits :
        addSize 0 (streamedBlock 0 block.id block.payload).data.length ≤
          16 := by
      rw [bytes]
      exact (by decide : addSize 0 2 ≤ 16)
    exact
      @conditions_singleton
        (fun store block =>
          store.HasRoom (streamedBlock 0 block.id block.payload) .dram)
        _ _ _ ⟨.dram, by decide, Or.inr fits⟩
  have complete :=
    (@streamed_blocks_complete_iff (sampleNode [nodeA, nodeB] nodeA) 0
      [paddedBlock] receiving (by decide) nothing
      (room paddedBlock (by decide)) (room paddedBlock.whole (by decide))).mpr
      (conditions_singleton ⟨fun _ => by decide +kernel, Or.inl rfl⟩)
  exact (complete paddedBlock (by simp)).1

end Lethe
