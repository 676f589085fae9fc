import Lethe.Cache
import Lethe.Demotion
import Lethe.ResidentReads

namespace Lethe

/-!
# A batched lookup answers like single lookups

Each entry of a batch reads the local store, and a read may promote its block.
A promotion moves one copy of one block to a faster tier, so if all copies of
every block have the same bytes, every block keeps its contents and every later
read gives the answer it would have given at the start.
-/

namespace TieredStore

variable {store : TieredStore}

/-! ## Contents -/

/-- Some tier holds the block with these bytes. -/
def HoldsBytes
    (store : TieredStore)
    (id : BlockId)
    (data : List UInt8) : Prop :=
  ∃ tier, store.copy tier id = some data

/-- If all copies agree, the first one is any of them. -/
theorem CopiesAgree.firstCopy_eq_some_iff
    {id : BlockId}
    (agree : store.CopiesAgree id)
    {data : List UInt8} :
    store.firstCopy id = some data ↔ store.HoldsBytes id data := by
  unfold firstCopy HoldsBytes
  constructor
  · intro first
    rcases Option.or_eq_some_iff.mp first with inHbm | ⟨_, slower⟩
    · exact ⟨.hbm, inHbm⟩
    · rcases Option.or_eq_some_iff.mp slower with inDram | ⟨_, inSsd⟩
      · exact ⟨.dram, inDram⟩
      · exact ⟨.ssd, inSsd⟩
  · rintro ⟨tier, held⟩
    cases inHbm : store.copy .hbm id with
    | some other =>
        rw [agree _ _ _ _ inHbm held]
        rfl
    | none =>
        cases inDram : store.copy .dram id with
        | some other =>
            rw [agree _ _ _ _ inDram held]
            rfl
        | none =>
            cases tier with
            | hbm =>
                simp [inHbm] at held
            | dram =>
                simp [inDram] at held
            | ssd =>
                exact held

/--
A read of a block whose copies agree returns its bytes, unless they are empty
and the file has them.
-/
theorem CopiesAgree.get_data
    {id : BlockId}
    (agree : store.CopiesAgree id) :
    (store.get id).1.map GetResult.data =
      if store.copy .ssd id = some [] then none else store.firstCopy id := by
  rw [TieredStore.get_data]
  split
  · next emptyInFile =>
      have hbmEmpty : ∀ data, store.copy .hbm id = some data → data = [] :=
        fun data held => agree _ _ _ _ held emptyInFile
      have dramEmpty :
          ∀ data, store.copy .dram id = some data → data = [] :=
        fun data held => agree _ _ _ _ held emptyInFile
      rw [emptyInFile]
      cases inHbm : store.copy .hbm id <;>
        cases inDram : store.copy .dram id <;>
          simp_all [Probe.answer, Probe.note, Probe.start, Probe.missed]
  · next notEmptyInFile =>
      refine (Probe.answer_eq_first_iff _ _ _).mpr ?_
      intro firstEmpty
      have isEmpty : store.HoldsBytes id [] :=
        agree.firstCopy_eq_some_iff.mp firstEmpty
      obtain ⟨tier, held⟩ := isEmpty
      refine ⟨?_, fun data inDram => agree _ _ _ _ inDram held⟩
      cases inSsd : store.copy .ssd id with
      | none =>
          rfl
      | some data =>
          rw [agree _ _ _ _ inSsd held] at inSsd
          exact (notEmptyInFile inSsd).elim

/-! ## What a read leaves -/

/-- A promotion goes to a memory tier. -/
theorem promotionTarget_ne_ssd
    (store : TieredStore)
    (found : Tier) :
    store.promotionTarget found ≠ .ssd := by
  unfold promotionTarget
  dsimp only
  repeat' split
  all_goals
    simp

/--
A read changes no copy, or it moves the copy it has read to another tier in
memory.
-/
theorem get_moves
    (store : TieredStore)
    (id : BlockId) :
    (store.get id).2.copy = store.copy ∨
      ∃ data found target,
        (store.get id).1.map GetResult.data = some data ∧
          store.copy found id = some data ∧
          target ≠ found ∧
          target ≠ .ssd ∧
          ((store.recordHit id).putToTier
            (relocated id data target) target).1 = true ∧
          (store.get id).2 =
            (store.recordHit id).move (relocated id data target) target
              found := by
  unfold get
  dsimp only
  split
  · exact Or.inl rfl
  · next hit =>
      have held := copy_of_probe_hit (Bool.not_eq_true _ ▸ hit)
      split
      · next promotes =>
          split
          · next accepted =>
              exact Or.inr
                ⟨_, _, _, rfl, held, promotionTarget_ne_of_promotes promotes,
                  store.promotionTarget_ne_ssd _, accepted, rfl⟩
          · next rejected =>
              rw [putToTier_of_rejected (Bool.not_eq_true _ ▸ rejected)]
              exact Or.inl (recordHit_copy store id)
      · exact Or.inl (recordHit_copy store id)

/-- One store answers every read as another one does. -/
structure Mirrors
    (before after : TieredStore) : Prop where
  sound : after.SsdSound
  agree : ∀ id, after.CopiesAgree id
  holds_iff :
    ∀ id data, after.HoldsBytes id data ↔ before.HoldsBytes id data
  emptyInFile_iff :
    ∀ id, after.copy .ssd id = some [] ↔ before.copy .ssd id = some []

namespace Mirrors

/-- A store mirrors itself. -/
theorem refl
    (sound : store.SsdSound)
    (agree : ∀ id, store.CopiesAgree id) :
    Mirrors store store :=
  ⟨sound, agree, fun _ _ => Iff.rfl, fun _ => Iff.rfl⟩

/-- Mirroring composes. -/
theorem trans
    {middle after : TieredStore}
    (first : Mirrors store middle)
    (second : Mirrors middle after) :
    Mirrors store after where
  sound := second.sound
  agree := second.agree
  holds_iff := fun id data =>
    (second.holds_iff id data).trans (first.holds_iff id data)
  emptyInFile_iff := fun id =>
    (second.emptyInFile_iff id).trans (first.emptyInFile_iff id)

/-- Copies that come from a store whose copies agree. -/
theorem of_copies
    {after : TieredStore}
    (agree : ∀ id, store.CopiesAgree id)
    (sound : after.SsdSound)
    (holds_iff :
      ∀ id data, after.HoldsBytes id data ↔ store.HoldsBytes id data)
    (emptyInFile_iff :
      ∀ id, after.copy .ssd id = some [] ↔ store.copy .ssd id = some []) :
    Mirrors store after := by
  refine ⟨sound, ?_, holds_iff, emptyInFile_iff⟩
  intro id first second data other inFirst inSecond
  obtain ⟨tier, held⟩ := (holds_iff id data).mp ⟨first, inFirst⟩
  obtain ⟨otherTier, otherHeld⟩ :=
    (holds_iff id other).mp ⟨second, inSecond⟩
  exact agree id _ _ _ _ held otherHeld

/-- Both stores give the same answer. -/
theorem get_data
    {after : TieredStore}
    (mirrors : Mirrors store after)
    (agree : ∀ id, store.CopiesAgree id)
    (id : BlockId) :
    (after.get id).1.map GetResult.data =
      (store.get id).1.map GetResult.data := by
  have sameFirst : after.firstCopy id = store.firstCopy id := by
    ext data
    rw [(mirrors.agree id).firstCopy_eq_some_iff, mirrors.holds_iff,
      (agree id).firstCopy_eq_some_iff]
  rw [(mirrors.agree id).get_data, (agree id).get_data, sameFirst]
  simp only [mirrors.emptyInFile_iff]

end Mirrors

/-- A read leaves a store that answers every read as before. -/
theorem mirrors_get
    (sound : store.SsdSound)
    (agree : ∀ id, store.CopiesAgree id)
    (read : BlockId) :
    Mirrors store (store.get read).2 := by
  have soundAfter := ssdSound_stable.get sound read
  rcases store.get_moves read with
    sameCopies | ⟨data, found, target, answer, held, different, inMemory,
      accepted, moved⟩
  · refine .of_copies agree soundAfter ?_ ?_
    · intro id data
      simp only [HoldsBytes, sameCopies]
    · intro id
      rw [sameCopies]
  · have arrived :
        (store.copy target read).getD (storedBytes target data) = data := by
      cases older : store.copy target read with
      | some other =>
          exact agree read _ _ _ _ older held
      | none =>
          rw [Option.getD_none, storedBytes, if_neg inMemory]
    have copies :
        ∀ tier id,
          (store.get read).2.copy tier id =
            if tier = found ∧ id = read then
              none
            else if tier = target ∧ id = read then
              some data
            else
              store.copy tier id := by
      intro tier id
      rw [moved, (ssdSound_stable.recordHit sound read).copy_move accepted,
        recordHit_copy, relocated_id, relocated_data, arrived]
    refine .of_copies agree soundAfter ?_ ?_
    · intro id bytes
      by_cases isRead : id = read
      · subst isRead
        constructor
        · rintro ⟨tier, heldAfter⟩
          rw [copies] at heldAfter
          split at heldAfter
          · simp at heldAfter
          · split at heldAfter
            · exact ⟨found, held.trans heldAfter⟩
            · exact ⟨tier, heldAfter⟩
        · rintro ⟨tier, heldBefore⟩
          refine ⟨target, ?_⟩
          rw [copies, agree id _ _ _ _ heldBefore held]
          simp [different]
      · simp [HoldsBytes, copies, isRead]
    · intro id
      by_cases isRead : id = read
      · subst isRead
        have notEmpty : store.copy .ssd id ≠ some [] := by
          intro emptyInFile
          rw [(agree id).get_data, if_pos emptyInFile] at answer
          simp at answer
        rw [copies]
        split
        · simp [notEmpty]
        · rw [if_neg fun onTarget => inMemory onTarget.1.symm]
      · rw [copies]
        simp [isRead]

end TieredStore

/-! ## Entries of a batch -/

/-- Where a block was found, without the tier. -/
inductive LookupPlace where
  | localHit
  | remoteHit
  | miss
  deriving DecidableEq

/-- What an entry says, apart from the tier. -/
structure LookupAnswer where
  place : LookupPlace
  remoteNode : Option NodeId := none
  localData : List UInt8 := []
  deriving DecidableEq

/-- The answer of an entry. -/
def LookupEntry.answer
    (entry : LookupEntry) :
    LookupAnswer :=
  match entry.found with
  | .localHit _ data => { place := .localHit, localData := data }
  | .remoteHit node => { place := .remoteHit, remoteNode := some node }
  | .miss => { place := .miss }

/-- The result of a lookup, with its 32-bit counters. -/
structure ServerLookupResult where
  entries : List LookupEntry := []
  hitCount : UInt32 := 0
  missCount : UInt32 := 0
  deriving DecidableEq

/-- Append an entry and count it. -/
def ServerLookupResult.push
    (result : ServerLookupResult)
    (entry : LookupEntry) :
    ServerLookupResult :=
  match entry.found with
  | .miss =>
      { result with
        entries := result.entries ++ [entry]
        missCount := result.missCount + 1 }
  | _ =>
      { result with
        entries := result.entries ++ [entry]
        hitCount := result.hitCount + 1 }

namespace CacheNode

/-- One pass of the loop of a lookup. -/
def lookupStep
    (state : ServerLookupResult × CacheNode)
    (id : BlockId) :
    ServerLookupResult × CacheNode :=
  (state.1.push (state.2.lookupOne id).1, (state.2.lookupOne id).2)

/-- Look up a list of blocks, counting hits and misses. -/
def lookupBatch
    (node : CacheNode)
    (ids : List BlockId) :
    ServerLookupResult × CacheNode :=
  ids.foldl lookupStep ({}, node)

end CacheNode

@[simp] theorem ServerLookupResult.push_entries
    (result : ServerLookupResult)
    (entry : LookupEntry) :
    (result.push entry).entries = result.entries ++ [entry] := by
  unfold ServerLookupResult.push
  split <;> rfl

/-- The entry is a miss. -/
def LookupEntry.isMiss
    (entry : LookupEntry) :
    Bool :=
  entry.found = .miss

/-- The counters are the numbers of hits and misses, modulo 2^32. -/
structure ServerLookupResult.Counted
    (result : ServerLookupResult) : Prop where
  hits :
    result.hitCount =
      UInt32.ofNat (result.entries.countP fun entry => !entry.isMiss)
  misses :
    result.missCount =
      UInt32.ofNat (result.entries.countP LookupEntry.isMiss)

namespace ServerLookupResult.Counted

variable {result : ServerLookupResult}

/-- Each pass counts its entry. -/
theorem push
    (counted : result.Counted)
    (entry : LookupEntry) :
    (result.push entry).Counted := by
  obtain ⟨hits, misses⟩ := counted
  unfold ServerLookupResult.push
  split
  · next isMiss =>
      constructor
      · simp [hits, LookupEntry.isMiss, isMiss]
      · simp [misses, LookupEntry.isMiss, isMiss]
  · next isHit =>
      have notMiss : entry.found ≠ .miss := isHit
      constructor
      · simp [hits, LookupEntry.isMiss, notMiss]
      · simp [misses, LookupEntry.isMiss, notMiss]

/-- Every entry is a hit or a miss. -/
theorem total
    (counted : result.Counted) :
    result.hitCount + result.missCount =
      UInt32.ofNat result.entries.length := by
  rw [counted.hits, counted.misses, ← UInt32.ofNat_add,
    List.length_eq_countP_add_countP LookupEntry.isMiss, Nat.add_comm]
  simp

/-- The counters are exact for a result of fewer than 2^32 entries. -/
theorem total_exact
    (counted : result.Counted)
    (short : result.entries.length < 2 ^ 32) :
    result.hitCount.toNat + result.missCount.toNat =
      result.entries.length := by
  have all :=
    List.length_eq_countP_add_countP (l := result.entries)
      LookupEntry.isMiss
  simp only [Bool.not_eq_true, Bool.decide_eq_false] at all
  have fits :
      ∀ counts : LookupEntry → Bool,
        (UInt32.ofNat (result.entries.countP counts)).toNat =
          result.entries.countP counts :=
    fun counts =>
      UInt32.toNat_ofNat_of_lt'
        (Nat.lt_of_le_of_lt List.countP_le_length short)
  rw [counted.hits, counted.misses, fits, fits, Nat.add_comm]
  exact all.symm

end ServerLookupResult.Counted

namespace CacheNode

variable {node : CacheNode}

/-- The answer of an entry depends on the store through the bytes it reads. -/
theorem answer_lookupOne
    (node : CacheNode)
    (id : BlockId) :
    (node.lookupOne id).1.answer =
      match (node.store.get id).1.map GetResult.data with
      | some data => { place := .localHit, localData := data }
      | none =>
          match (node.router.route id).primary with
          | some primary =>
              if primary = node.nodeId then
                { place := .miss }
              else
                { place := .remoteHit, remoteNode := some primary }
          | none => { place := .miss } := by
  unfold lookupOne
  cases answer : (node.store.get id).1 with
  | some got =>
      simp only [answer, Option.map_some]
      rfl
  | none =>
      simp only [answer, Option.map_none]
      cases (node.router.route id).primary with
      | some primary =>
          dsimp only
          split <;> rfl
      | none =>
          rfl

/-- Another node answers every single lookup as this one does. -/
structure MirrorsNode
    (before after : CacheNode) : Prop where
  nodeId : after.nodeId = before.nodeId
  router : after.router = before.router
  store : before.store.Mirrors after.store

/-- Nodes that mirror each other give the same answer. -/
theorem MirrorsNode.answer
    {after : CacheNode}
    (mirrors : node.MirrorsNode after)
    (agree : ∀ id, node.store.CopiesAgree id)
    (id : BlockId) :
    (after.lookupOne id).1.answer = (node.lookupOne id).1.answer := by
  rw [answer_lookupOne, answer_lookupOne, mirrors.store.get_data agree,
    mirrors.router, mirrors.nodeId]

/-- A single lookup leaves a node that answers as before. -/
theorem MirrorsNode.lookupOne
    {after : CacheNode}
    (mirrors : node.MirrorsNode after)
    (id : BlockId) :
    node.MirrorsNode (after.lookupOne id).2 := by
  rw [lookupOne_node]
  exact
    ⟨mirrors.nodeId, mirrors.router,
      mirrors.store.trans
        (TieredStore.mirrors_get mirrors.store.sound mirrors.store.agree
          id)⟩

/-- The loop of a lookup, started with some entries. -/
theorem foldl_lookupStep
    (ids : List BlockId)
    (result : ServerLookupResult)
    (node : CacheNode) :
    (ids.foldl lookupStep (result, node)).1.entries =
        result.entries ++ (node.lookup ids).1 ∧
      (ids.foldl lookupStep (result, node)).2 = (node.lookup ids).2 ∧
      (result.Counted →
        (ids.foldl lookupStep (result, node)).1.Counted) := by
  induction ids generalizing result node with
  | nil =>
      exact ⟨(List.append_nil _).symm, rfl, id⟩
  | cons first rest inductionHypothesis =>
      obtain ⟨entries, after, counted⟩ :=
        inductionHypothesis (result.push (node.lookupOne first).1)
          (node.lookupOne first).2
      refine ⟨?_, after, fun before => counted (before.push _)⟩
      rw [ServerLookupResult.push_entries, List.append_assoc] at entries
      exact entries

/-- The entries of a lookup. -/
theorem lookupBatch_entries
    (node : CacheNode)
    (ids : List BlockId) :
    (node.lookupBatch ids).1.entries = (node.lookup ids).1 :=
  (foldl_lookupStep ids {} node).1

/-- The counters of a lookup. -/
theorem lookupBatch_counted
    (node : CacheNode)
    (ids : List BlockId) :
    (node.lookupBatch ids).1.Counted :=
  (foldl_lookupStep ids {} node).2.2 ⟨rfl, rfl⟩

/-- The answers of a batch are those of the mirrored node. -/
theorem MirrorsNode.lookup
    (agree : ∀ id, node.store.CopiesAgree id)
    (ids : List BlockId)
    {after : CacheNode}
    (mirrors : node.MirrorsNode after) :
    (after.lookup ids).1.map LookupEntry.answer =
      ids.map fun id => (node.lookupOne id).1.answer := by
  induction ids generalizing after with
  | nil =>
      rfl
  | cons first rest inductionHypothesis =>
      simp only [CacheNode.lookup, List.map_cons, mirrors.answer agree,
        inductionHypothesis (mirrors.lookupOne first)]

/--
A batch has one entry per block, in the order of the blocks, its counters add
up to the size of the batch, and every entry answers as a lookup of its block
alone.
-/
structure AnswersLikeSingles
    (node : CacheNode)
    (ids : List BlockId) : Prop where
  inOrder : (node.lookupBatch ids).1.entries.map LookupEntry.id = ids
  total :
    (node.lookupBatch ids).1.hitCount + (node.lookupBatch ids).1.missCount =
      UInt32.ofNat ids.length
  total_exact :
    ids.length < 2 ^ 32 →
      (node.lookupBatch ids).1.hitCount.toNat +
          (node.lookupBatch ids).1.missCount.toNat =
        ids.length
  answers :
    ∀ (index : Nat) (id : BlockId),
      ids[index]? = some id →
        ∃ entry single : LookupEntry,
          (node.lookupBatch ids).1.entries[index]? = some entry ∧
            (node.lookupBatch [id]).1.entries = [single] ∧
            entry.answer = single.answer

/-- Batches of any blocks, with repetitions, answer like single lookups. -/
theorem batched_lookup_answers_like_singles
    (sound : node.store.SsdSound)
    (agree : ∀ id, node.store.CopiesAgree id)
    (ids : List BlockId) :
    node.AnswersLikeSingles ids := by
  have inOrder :
      (node.lookupBatch ids).1.entries.map LookupEntry.id = ids := by
    rw [lookupBatch_entries, lookup_ids]
  have size : (node.lookupBatch ids).1.entries.length = ids.length := by
    rw [← List.length_map LookupEntry.id, inOrder]
  have counted := node.lookupBatch_counted ids
  refine ⟨inOrder, ?_, ?_, ?_⟩
  · rw [counted.total, size]
  · intro short
    rw [counted.total_exact (size ▸ short), size]
  · intro index id isId
    have mirrors : node.MirrorsNode node :=
      ⟨rfl, rfl, .refl sound agree⟩
    have answers := congrArg (·[index]?) (mirrors.lookup agree ids)
    simp only [List.getElem?_map, isId, Option.map_some,
      Option.map_eq_some_iff] at answers
    obtain ⟨entry, isEntry, same⟩ := answers
    refine ⟨entry, (node.lookupOne id).1, ?_, ?_, same⟩
    · rw [lookupBatch_entries, isEntry]
    · rw [lookupBatch_entries]
      rfl

/-- A server over a store, without peers. -/
def lone
    (store : TieredStore) :
    CacheNode where
  nodeId := default
  store := store
  router :=
    { localNodeId := default
      vnodesPerPeer := 1
      replicationFactor := 1
      peers := []
      ring := [] }
  evictor := { config := {}, hand := fun _ => 0 }
  queue := []
  overflowDrops := 0
  rerepRound := []
  rerepCursor := 0
  rerepActive := false

/-- A block in DRAM, with room for it in HBM. -/
def warmNode : CacheNode :=
  lone
    ((TieredStore.create { hbmBytes := 4, dramBytes := 4 } fun _ => 0).put
      { id := ⟨.fill 3, 0, 0, 0⟩, data := [1, 2] } .dram).2

/-- The second read promotes the block, and all reads give one answer. -/
theorem batched_lookup_across_promotion :
    ((warmNode.lookupBatch
        (List.replicate 4 ⟨.fill 3, 0, 0, 0⟩)).2.store.copy .hbm
        ⟨.fill 3, 0, 0, 0⟩ =
        some [1, 2]) ∧
      warmNode.AnswersLikeSingles
        (List.replicate 4 ⟨.fill 3, 0, 0, 0⟩) := by
  refine ⟨by decide +kernel, ?_⟩
  have sound : warmNode.store.SsdSound :=
    (TieredStore.create_ssdSound _ _).put _ .dram
  exact batched_lookup_answers_like_singles sound
    (fun _ => TieredStore.copiesAgree_of_dram_only rfl rfl) _

/-- An empty server without peers. -/
def emptyNode : CacheNode :=
  lone (TieredStore.create { dramBytes := 4 } fun _ => 0)

/-- It has nothing and points nowhere. -/
theorem lookup_emptyNode
    (ids : List BlockId) :
    emptyNode.lookup ids = (ids.map (⟨·, .miss⟩), emptyNode) := by
  induction ids with
  | nil =>
      rfl
  | cons first rest inductionHypothesis =>
      have missed :
          emptyNode.lookupOne first = (⟨first, .miss⟩, emptyNode) :=
        rfl
      simp only [lookup, missed, inductionHypothesis, List.map_cons]

/-- Its lookups count misses only. -/
theorem missCount_emptyNode
    (ids : List BlockId) :
    (emptyNode.lookupBatch ids).1.hitCount = 0 ∧
      (emptyNode.lookupBatch ids).1.missCount = UInt32.ofNat ids.length := by
  obtain ⟨hits, misses⟩ := emptyNode.lookupBatch_counted ids
  rw [lookupBatch_entries, lookup_emptyNode, List.countP_map] at hits misses
  rw [hits, misses]
  constructor
  · simp [Function.comp_def, LookupEntry.isMiss]
  · simp [Function.comp_def, LookupEntry.isMiss]

/-- More blocks than a 32-bit counter counts. -/
def manyIds : List BlockId :=
  List.replicate (2 ^ 32) ⟨.fill 3, 0, 0, 0⟩

/-- A lookup of 2^32 blocks that misses all of them counts no miss. -/
theorem lookup_counters_wrap :
    manyIds.length = 2 ^ 32 ∧
      emptyNode.store.SsdSound ∧
      (∀ id, emptyNode.store.CopiesAgree id) ∧
      (emptyNode.lookupBatch manyIds).1.missCount = 0 ∧
      (emptyNode.lookupBatch manyIds).1.hitCount.toNat +
          (emptyNode.lookupBatch manyIds).1.missCount.toNat ≠
        manyIds.length := by
  have size : manyIds.length = 2 ^ 32 := List.length_replicate
  obtain ⟨hits, misses⟩ := missCount_emptyNode manyIds
  have wrapped : (emptyNode.lookupBatch manyIds).1.missCount = 0 := by
    rw [misses, size]
    rfl
  refine ⟨size, TieredStore.create_ssdSound _ _,
    fun _ => TieredStore.copiesAgree_of_dram_only rfl rfl, wrapped, ?_⟩
  rw [hits, wrapped, size]
  decide

end CacheNode

end Lethe
