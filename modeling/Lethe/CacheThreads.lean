import Lethe.Delivery
import Lethe.TierAccounting
import Lethe.TieredStoreInterleaving

namespace Lethe

/-!
# Threads of a cache server

An insert tells a new block from one that was there by reading the byte
counters of all tiers before and after it stores the block.  The reads, the
attempts on each tier and the calls of eviction passes are single steps, and
no lock spans two of them.

Each insert carries along how far other threads have raised and lowered the
counters between its two reads; this history decides nothing in a step.
-/

/-- Tiers read before the given one. -/
def Tier.earlier : Tier → List Tier
  | .hbm => []
  | .dram => [.hbm]
  | .ssd => [.hbm, .dram]

/-- The given tier and those read after it. -/
def Tier.onward : Tier → List Tier
  | .hbm => allTiers
  | .dram => [.dram, .ssd]
  | .ssd => [.ssd]

/-- The tier read next. -/
def Tier.next? : Tier → Option Tier
  | .hbm => some .dram
  | .dram => some .ssd
  | .ssd => none

/-! ## Insert calls -/

/-- Where an insert stands with its current block. -/
inductive InsertPoint where
  | readBefore (tier : Tier) (sum : Nat)
  | put (before : Nat) (tiers : List Tier)
  | readAfter (before : Nat) (tier : Tier) (sum : Nat)
  | replicate
  deriving DecidableEq

/-- Tiers between their two reads. -/
def InsertPoint.watched : InsertPoint → List Tier
  | .readBefore tier _ => tier.earlier
  | .put _ _ => allTiers
  | .readAfter _ tier _ => tier.onward
  | .replicate => []

/-- What became of one block, and what other threads did in the meantime. -/
structure InsertOutcome where
  block : KvBlock
  landed : Bool
  added : Bool
  counted : Bool
  raised : Nat
  lowered : Nat
  deriving DecidableEq

/--
An insert in progress: the blocks of the request and those to go, the count,
the blocks handed to the replicator, and the history of the current and of the
finished blocks.
-/
structure InsertCall where
  request : List KvBlock
  blocks : List KvBlock
  accepted : UInt32
  replicated : List KvBlock
  point : InsertPoint
  added : Bool
  raised : Nat
  lowered : Nat
  outcomes : List InsertOutcome
  deriving DecidableEq

namespace InsertCall

/-- An insert that has not done anything yet. -/
def start
    (blocks : List KvBlock) :
    InsertCall where
  request := blocks
  blocks := blocks
  accepted := 0
  replicated := []
  point := .readBefore .hbm 0
  added := false
  raised := 0
  lowered := 0
  outcomes := []

/-- Go on to the next block. -/
def finish
    (call : InsertCall)
    (block : KvBlock)
    (rest : List KvBlock)
    (landed counted : Bool) :
    InsertCall where
  request := call.request
  blocks := rest
  accepted := if counted then call.accepted + 1 else call.accepted
  replicated :=
    if counted then call.replicated ++ [block] else call.replicated
  point := .readBefore .hbm 0
  added := false
  raised := 0
  lowered := 0
  outcomes :=
    call.outcomes ++
      [⟨block, landed, call.added, counted, call.raised, call.lowered⟩]

/-- One step of an insert. -/
def advance
    (node : CacheNode)
    (call : InsertCall) :
    CacheNode × InsertCall :=
  match call.blocks with
  | [] => (node, call)
  | block :: rest =>
      match call.point with
      | .readBefore tier sum =>
          let total := addSize sum (node.store.usedBytes tier)
          (node,
            { call with
              point :=
                match tier.next? with
                | some later => .readBefore later total
                | none =>
                    .put total (TieredStore.fallthrough block.tier) })
      | .put _ [] => (node, call.finish block rest false false)
      | .put before (tier :: slower) =>
          let result := node.store.putToTier block tier
          ({ node with store := result.2 },
            if result.1 then
              { call with
                point := .readAfter before .hbm 0
                added := (node.store.copy tier block.id).isNone }
            else
              { call with point := .put before slower })
      | .readAfter before tier sum =>
          let total := addSize sum (node.store.usedBytes tier)
          (node,
            match tier.next? with
            | some later =>
                { call with point := .readAfter before later total }
            | none =>
                if before < total then
                  { call with point := .replicate }
                else
                  call.finish block rest true false)
      | .replicate =>
          (node.replicateOut block, call.finish block rest true true)

/-- Note what a step of another thread does to the watched counters. -/
def observe
    (before after : TieredStore)
    (call : InsertCall) :
    InsertCall :=
  { call with
    raised :=
      call.raised + TieredStore.raisedIn before after call.point.watched
    lowered :=
      call.lowered + TieredStore.raisedIn after before call.point.watched }

end InsertCall

/-! ## Eviction passes -/

/-- Where a pass stands in its walk over the snapshot. -/
structure PassWalk where
  tier : Tier
  need : Nat
  freed : Nat
  entries : List BlockMeta
  steps : Nat
  deriving DecidableEq

/-- Where an eviction pass stands. -/
inductive PassPoint where
  | readUsed (tier : Tier)
  | takeSnapshot (tier : Tier) (need : Nat)
  | walk (state : PassWalk)
  | demote (state : PassWalk) (entry : BlockMeta) (point : CallPoint)
  | erase
      (state : PassWalk)
      (entry : BlockMeta)
      (tiers : List Tier)
      (removed : Nat)
  | done
  deriving DecidableEq

/-- The server with the hand of a tier moved. -/
def CacheNode.setHand
    (node : CacheNode)
    (tier : Tier)
    (hand : Nat) :
    CacheNode :=
  { node with
    evictor :=
      { node.evictor with
        hand := Function.update node.evictor.hand tier hand } }

namespace PassPoint

/-- Go on to the next entry after a victim. -/
def afterVictim
    (node : CacheNode)
    (state : PassWalk)
    (removed : Nat) :
    CacheNode × PassPoint :=
  (node.setHand state.tier (node.evictor.hand state.tier + 1),
    .walk
      { state with
        freed := addSize state.freed removed
        steps := state.steps - 1 })

/-- One step of a pass whose snapshot lists its tier in the given order. -/
def advance
    (node : CacheNode)
    (listing : List BlockMeta) :
    PassPoint → CacheNode × PassPoint
  | .readUsed tier =>
      (node,
        if node.evictor.pressure node.store tier then
          .takeSnapshot tier (node.evictor.need node.store tier)
        else
          .done)
  | .takeSnapshot tier need =>
      (node,
        if listing = [] then
          .done
        else
          .walk ⟨tier, need, 0, listing, 2 * listing.length⟩)
  | .walk state =>
      if state.need ≤ state.freed ∨ state.steps = 0 then
        (node, .done)
      else
        let hand :=
          ClockHand.wrap state.entries.length (node.evictor.hand state.tier)
        match state.entries[hand]? with
        | none => (node.setHand state.tier hand, .done)
        | some entry =>
            if entry.visited then
              ({ node with
                  store :=
                    node.store.clearVisited entry.id }.setHand state.tier
                      (hand + 1),
                .walk
                  { state with
                    entries := state.entries.set hand entry.clearBit
                    steps := state.steps - 1 })
            else
              (node.setHand state.tier hand,
                if state.tier = .ssd then
                  .erase state entry allTiers 0
                else
                  .demote state entry .demote)
  | .demote state entry point =>
      let stepped := TierCall.advance node.store ⟨entry.id, point⟩
      let after := { node with store := stepped.1 }
      match stepped.2, point with
      | .done, .drop _ => afterVictim after state entry.sizeBytes
      | .done, _ => (after, .erase state entry allTiers 0)
      | later, _ => (after, .demote state entry later)
  | .erase state entry [] removed =>
      afterVictim { node with store := node.store.forget entry.id } state
        removed
  | .erase state entry (tier :: rest) removed =>
      let erased := node.store.eraseFromTier entry.id tier
      ({ node with store := erased.2 },
        .erase state entry rest (addSize removed erased.1))
  | .done => (node, .done)

/-- The listing is the snapshot, if the next step takes it. -/
def Lists
    (store : TieredStore)
    (listing : List BlockMeta) :
    PassPoint → Prop
  | .takeSnapshot tier _ => listing.Perm (store.snapshot tier)
  | _ => True

end PassPoint

/-! ## Any interleaving -/

/-- A thread of the server. -/
inductive CacheThread where
  | insert (call : InsertCall)
  | evict (point : PassPoint)
  deriving DecidableEq

namespace CacheThread

/-- One step of a thread. -/
def advance
    (node : CacheNode)
    (listing : List BlockMeta) :
    CacheThread → CacheNode × CacheThread
  | .insert call =>
      let stepped := call.advance node
      (stepped.1, .insert stepped.2)
  | .evict point =>
      let stepped := point.advance node listing
      (stepped.1, .evict stepped.2)

/-- Note what a step of another thread does. -/
def observe
    (before after : TieredStore) :
    CacheThread → CacheThread
  | .insert call => .insert (call.observe before after)
  | .evict point => .evict point

/-- The listing is the snapshot, if the next step takes it. -/
def Lists
    (store : TieredStore)
    (listing : List BlockMeta) :
    CacheThread → Prop
  | .insert _ => True
  | .evict point => point.Lists store listing

instance
    (store : TieredStore)
    (listing : List BlockMeta)
    (thread : CacheThread) :
    Decidable (thread.Lists store listing) :=
  match thread with
  | .insert _ => isTrue trivial
  | .evict (.takeSnapshot tier _) =>
      inferInstanceAs (Decidable (listing.Perm (store.snapshot tier)))
  | .evict (.readUsed _) => isTrue trivial
  | .evict (.walk _) => isTrue trivial
  | .evict (.demote _ _ _) => isTrue trivial
  | .evict (.erase _ _ _ _) => isTrue trivial
  | .evict .done => isTrue trivial

end CacheThread

/-- A server and its threads. -/
structure ConcurrentCache where
  node : CacheNode
  threads : List CacheThread

/-- A call starts, or a thread takes its next step. -/
inductive CacheEvent where
  | startInsert (blocks : List KvBlock)
  | startPass (tier : Tier)
  | advance (index : Nat) (listing : List BlockMeta)
  deriving DecidableEq

namespace ConcurrentCache

/-- Let one thread take a step; inserts of the others note it. -/
def advance
    (state : ConcurrentCache)
    (index : Nat)
    (thread : CacheThread)
    (listing : List BlockMeta) :
    ConcurrentCache :=
  let stepped := thread.advance state.node listing
  { node := stepped.1
    threads :=
      (state.threads.map
        (CacheThread.observe state.node.store stepped.1.store)).set index
          stepped.2 }

/--
The state after an event, if the event is possible.  No block is so large that
its size and all capacities together exceed the range of a counter.
-/
def next
    (state : ConcurrentCache) :
    CacheEvent → Option ConcurrentCache
  | .startInsert blocks =>
      if ∀ block ∈ blocks,
          state.node.store.capacityIn allTiers + block.data.length <
            sizeRange then
        some
          { state with
            threads := state.threads ++ [.insert (.start blocks)] }
      else
        none
  | .startPass tier =>
      some
        { state with threads := state.threads ++ [.evict (.readUsed tier)] }
  | .advance index listing =>
      match state.threads[index]? with
      | none => none
      | some thread =>
          if thread.Lists state.node.store listing then
            some (state.advance index thread listing)
          else
            none

/-- Any interleaving of any number of inserts and eviction passes. -/
def Step
    (before : ConcurrentCache)
    (event : CacheEvent)
    (after : ConcurrentCache) : Prop :=
  before.next event = some after

end ConcurrentCache

/-! ## Threads that run alone -/

/-- Sums that start from zero. -/
theorem addSize_zero_addSize
    (first second : Nat) :
    addSize (addSize 0 first) second = addSize first second := by
  simp [addSize]

namespace CacheThread

/-- Steps of one thread with nothing in between. -/
def Alone
    (listing : List BlockMeta) :
    CacheNode × CacheThread → CacheNode × CacheThread → Prop :=
  Relation.ReflTransGen fun before after =>
    before.2.advance before.1 listing = after

variable
  {listing : List BlockMeta}
  {node : CacheNode}
  {call : InsertCall}
  {block : KvBlock}
  {rest : List KvBlock}

/-- The three reads before a block is stored. -/
theorem readBefore_alone
    (current : call.blocks = block :: rest)
    (ready : call.point = .readBefore .hbm 0) :
    Alone listing (node, .insert call)
      (node,
        .insert
          { call with
            point :=
              .put node.totalUsed
                (TieredStore.fallthrough block.tier) }) := by
  cases call
  cases current
  cases ready
  rw [CacheNode.totalUsed,
    ← addSize_zero_addSize (node.store.usedBytes .hbm)]
  exact .head rfl (.head rfl (.head rfl .refl))

/-- The three reads after a block is stored. -/
theorem readAfter_alone
    (current : call.blocks = block :: rest)
    {before : Nat}
    (ready : call.point = .readAfter before .hbm 0) :
    Alone listing (node, .insert call)
      (node,
        .insert
          (if before < node.totalUsed then
            { call with point := .replicate }
          else
            call.finish block rest true false)) := by
  cases call
  cases current
  cases ready
  rw [CacheNode.totalUsed,
    ← addSize_zero_addSize (node.store.usedBytes .hbm)]
  exact .head rfl (.head rfl (.head rfl .refl))

/-- The attempts to store a block. -/
theorem put_alone
    (current : call.blocks = block :: rest)
    {before : Nat}
    {tiers : List Tier}
    (ready : call.point = .put before tiers) :
    ∃ later : InsertCall,
      Alone listing (node, .insert call)
          ({ node with store := (node.store.putInFirst block tiers).2 },
            .insert later) ∧
        later.accepted = call.accepted ∧
        if (node.store.putInFirst block tiers).1.isSome then
          later.blocks = block :: rest ∧
            later.point = .readAfter before .hbm 0
        else
          later.blocks = rest ∧ later.point = .readBefore .hbm 0 := by
  induction tiers generalizing node call with
  | nil =>
      refine
        ⟨call.finish block rest false false, .single ?_, rfl, rfl, rfl⟩
      simp [advance, InsertCall.advance, current, ready,
        TieredStore.putInFirst]
  | cons tier slower inductionHypothesis =>
      cases accepted : (node.store.putToTier block tier).1 with
      | true =>
          refine
            ⟨{ call with
                point := .readAfter before .hbm 0
                added := (node.store.copy tier block.id).isNone },
              .single ?_, rfl, ?_⟩
          · simp [advance, InsertCall.advance, current, ready,
              TieredStore.putInFirst, accepted]
          · simpa [TieredStore.putInFirst, accepted] using current
      | false =>
          have unchanged := TieredStore.putToTier_of_rejected accepted
          have goesOn :
              (node.store.putInFirst block (tier :: slower)) =
                node.store.putInFirst block slower := by
            simp [TieredStore.putInFirst, accepted, unchanged]
          rw [goesOn]
          obtain ⟨later, reached, sameCount, shape⟩ :=
            @inductionHypothesis node
              { call with point := .put before slower } current rfl
          refine ⟨later, .head ?_ reached, sameCount, shape⟩
          simp [advance, InsertCall.advance, current, ready, accepted,
            unchanged]

/-- One block of an insert. -/
theorem insertOne_alone
    (current : call.blocks = block :: rest)
    (ready : call.point = .readBefore .hbm 0) :
    ∃ later : InsertCall,
      Alone listing (node, .insert call)
          ((node.insertOne block).2, .insert later) ∧
        later.blocks = rest ∧
        later.point = .readBefore .hbm 0 ∧
        later.accepted =
          call.accepted + if (node.insertOne block).1 then 1 else 0 := by
  have reads := @readBefore_alone listing node call block rest current ready
  obtain ⟨stored, storing, sameCount, shape⟩ :=
    @put_alone listing node
      { call with
        point :=
          .put node.totalUsed (TieredStore.fallthrough block.tier) }
      block rest current _ _ rfl
  have reached := reads.trans storing
  unfold CacheNode.insertOne
  rw [← TieredStore.put] at reached shape
  cases landed : (node.store.put block block.tier).1.isSome with
  | false =>
      rw [landed] at shape
      simp only [landed, Bool.false_eq_true, false_and, ↓reduceIte,
        UInt32.add_zero]
      exact ⟨stored, reached, shape.1, shape.2, sameCount⟩
  | true =>
      rw [landed] at shape
      have compares :=
        @readAfter_alone listing
          { node with store := (node.store.put block block.tier).2 } stored
          block rest shape.1 _ shape.2
      by_cases grown :
          node.totalUsed <
            ({ node with
              store := (node.store.put block block.tier).2 } :
              CacheNode).totalUsed
      · rw [if_pos grown] at compares
        simp only [landed, grown, and_self, ↓reduceIte]
        refine
          ⟨stored.finish block rest true true,
            (reached.trans compares).tail ?_, rfl, rfl, ?_⟩
        · simp [advance, InsertCall.advance, shape.1, InsertCall.finish]
        · simp [InsertCall.finish, sameCount]
      · rw [if_neg grown] at compares
        simp only [landed, grown, and_false, Bool.false_eq_true, ↓reduceIte,
          UInt32.add_zero]
        exact
          ⟨_, reached.trans compares, rfl, rfl, sameCount⟩

/-- An insert that runs alone is the sequential insert. -/
theorem insert_alone
    (ready : call.point = .readBefore .hbm 0) :
    ∃ later : InsertCall,
      Alone listing (node, .insert call)
          ((node.insert call.blocks).2, .insert later) ∧
        later.blocks = [] ∧
        later.accepted = call.accepted + (node.insert call.blocks).1 := by
  generalize current : call.blocks = blocks
  induction blocks generalizing node call with
  | nil =>
      exact ⟨call, .refl, current, (UInt32.add_zero _).symm⟩
  | cons block rest inductionHypothesis =>
      obtain ⟨afterFirst, first, blocks, point, count⟩ :=
        @insertOne_alone listing node call block rest current ready
      obtain ⟨later, others, isDone, total⟩ :=
        @inductionHypothesis (node.insertOne block).2 afterFirst point
          blocks
      refine ⟨later, first.trans others, isDone, ?_⟩
      rw [total, count, CacheNode.insert, UInt32.add_assoc]

end CacheThread

namespace CacheNode

variable
  (node : CacheNode)
  (tier : Tier)
  (first second : Nat)

@[simp] theorem store_setHand :
    (node.setHand tier first).store = node.store := rfl

@[simp] theorem hand_setHand :
    (node.setHand tier first).evictor.hand tier = first := by
  simp [setHand]

@[simp] theorem setHand_setHand :
    (node.setHand tier first).setHand tier second =
      node.setHand tier second := by
  simp [setHand]

@[simp] theorem setHand_self :
    node.setHand tier (node.evictor.hand tier) = node := by
  simp [setHand]

/-- The server after a walk over a snapshot of the tier. -/
def swept
    (walked : ClockHand.Scan BlockMeta SweepState) :
    CacheNode :=
  { node with store := walked.state.store }.setHand tier walked.hand

/-- Earlier positions of the hand and contents of the store are gone. -/
theorem swept_setHand
    (store : TieredStore)
    (walked : ClockHand.Scan BlockMeta SweepState) :
    ({ node with store := store }.setHand tier first).swept tier walked =
      node.swept tier walked :=
  setHand_setHand { node with store := walked.state.store } tier first
    walked.hand

end CacheNode

namespace CacheThread

variable
  {listing : List BlockMeta}
  {node : CacheNode}
  {state : PassWalk}
  {entry : BlockMeta}

/-- A server and the pass that just took a step on it. -/
def ofPass
    (stepped : CacheNode × PassPoint) :
    CacheNode × CacheThread :=
  (stepped.1, .evict stepped.2)

/-- The erasures of a victim. -/
theorem erase_alone :
    Alone listing (node, .evict (.erase state entry allTiers 0))
      (ofPass
        (PassPoint.afterVictim
          { node with store := (node.store.erase entry.id).2 } state
          (node.store.erase entry.id).1)) := by
  unfold TieredStore.erase
  dsimp only
  rw [← addSize_zero_addSize
    (node.store.eraseFromTier entry.id .hbm).1]
  exact .head rfl (.head rfl (.head rfl (.head rfl .refl)))

/-- Where a pass stands after a demotion with the given result. -/
def afterDemotion
    (node : CacheNode)
    (state : PassWalk)
    (entry : BlockMeta)
    (demoted : Bool × TieredStore) :
    CacheNode × CacheThread :=
  if demoted.1 then
    ofPass
      (PassPoint.afterVictim { node with store := demoted.2 } state
        entry.sizeBytes)
  else
    ({ node with store := demoted.2 },
      .evict (.erase state entry allTiers 0))

/-- The drop that ends a demotion. -/
theorem drop_alone
    {source : Tier}
    {store : TieredStore} :
    Alone listing
      ({ node with store := store },
        .evict (.demote state entry (.drop source)))
      (afterDemotion node state entry
        (true, (store.eraseFromTier entry.id source).2)) :=
  .single rfl

/-- What moving a block from a faster tier to SSD returns. -/
def demotedToSsd
    (store : TieredStore)
    (id : BlockId)
    (bytes : List UInt8)
    (source : Tier) :
    Bool × TieredStore :=
  let moved :=
    store.putToTier (TieredStore.relocated id bytes .ssd) .ssd
  if moved.1 then
    (true, (moved.2.eraseFromTier id source).2)
  else
    (false, moved.2)

/-- The last copy of a demotion, with the drop if it succeeds. -/
theorem demoteToSsd_alone
    {bytes : List UInt8}
    {source : Tier}
    (different : Tier.ssd ≠ source) :
    Alone listing
      (node,
        .evict (.demote state entry (.demoteToSsd bytes source different)))
      (afterDemotion node state entry
        (demotedToSsd node.store entry.id bytes source)) := by
  unfold demotedToSsd
  generalize isMoved :
    node.store.putToTier (TieredStore.relocated entry.id bytes .ssd) .ssd =
      moved
  obtain ⟨accepted, after⟩ := moved
  cases accepted with
  | true =>
      refine .head ?_ drop_alone
      simp [advance, PassPoint.advance, TierCall.advance,
        TierCall.copyInto, isMoved]
  | false =>
      refine .single ?_
      simp [advance, PassPoint.advance, TierCall.advance,
        TierCall.copyInto, isMoved, afterDemotion]

/-- The demotion of a block read from HBM. -/
theorem demoteToDram_alone
    {bytes : List UInt8}
    (inHbm : node.store.copy .hbm entry.id = some bytes) :
    Alone listing
      (node, .evict (.demote state entry (.demoteToDram bytes)))
      (afterDemotion node state entry (node.store.demote entry.id)) := by
  cases accepted :
      (node.store.putToTier
        (TieredStore.relocated entry.id bytes .dram) .dram).1 with
  | true =>
      have demoted :
          node.store.demote entry.id =
            (true,
              ((node.store.putToTier
                (TieredStore.relocated entry.id bytes .dram)
                .dram).2.eraseFromTier entry.id .hbm).2) := by
        simp [TieredStore.demote, inHbm, accepted]
      rw [demoted]
      refine .head ?_ drop_alone
      simp [advance, PassPoint.advance, TierCall.advance,
        TierCall.copyInto, accepted]
  | false =>
      have unchanged := TieredStore.putToTier_of_rejected accepted
      have demoted :
          node.store.demote entry.id =
            demotedToSsd node.store entry.id bytes .hbm := by
        simp [TieredStore.demote, inHbm, accepted, unchanged,
          demotedToSsd]
      rw [demoted]
      refine .head ?_ (demoteToSsd_alone (by decide))
      simp [advance, PassPoint.advance, TierCall.advance,
        TierCall.copyInto, accepted, unchanged]

/-- The demotion of a block that is not in HBM. -/
theorem demoteReadDram_alone
    (notInHbm : node.store.copy .hbm entry.id = none) :
    Alone listing (node, .evict (.demote state entry .demoteReadDram))
      (afterDemotion node state entry (node.store.demote entry.id)) := by
  cases inDram : node.store.copy .dram entry.id with
  | some bytes =>
      have demoted :
          node.store.demote entry.id =
            demotedToSsd node.store entry.id bytes .dram := by
        simp [TieredStore.demote, notInHbm, inDram, demotedToSsd]
      rw [demoted]
      refine .head ?_ (demoteToSsd_alone (by decide))
      simp [advance, PassPoint.advance, TierCall.advance, inDram]
  | none =>
      have demoted :
          node.store.demote entry.id = (false, node.store) := by
        simp [TieredStore.demote, notInHbm, inDram]
      rw [demoted]
      refine .single ?_
      simp [advance, PassPoint.advance, TierCall.advance, inDram,
        afterDemotion]

/-- The demotion of a victim. -/
theorem demote_alone :
    Alone listing (node, .evict (.demote state entry .demote))
      (afterDemotion node state entry (node.store.demote entry.id)) := by
  unfold CallPoint.demote
  cases inHbm : node.store.copy .hbm entry.id with
  | some bytes =>
      refine .head ?_ (demoteToDram_alone inHbm)
      simp [advance, PassPoint.advance, TierCall.advance, inHbm]
  | none =>
      refine .head ?_ (demoteReadDram_alone inHbm)
      simp [advance, PassPoint.advance, TierCall.advance, inHbm]

/-- A victim is pushed out of its tier. -/
theorem victim_alone :
    Alone listing
      (node,
        .evict
          (if state.tier = .ssd then
            .erase state entry allTiers 0
          else
            .demote state entry .demote))
      (ofPass
        (PassPoint.afterVictim
          { node with
            store := (evictBlock node.store state.tier entry).2 }
          state (evictBlock node.store state.tier entry).1)) := by
  unfold evictBlock
  by_cases slowest : state.tier = .ssd
  · rw [if_pos slowest]
    simp only [slowest, ↓reduceIte, Bool.false_eq_true]
    exact erase_alone
  · rw [if_neg slowest]
    simp only [slowest, ↓reduceIte]
    have demotes := @demote_alone listing node state entry
    generalize node.store.demote entry.id = demoted at demotes ⊢
    obtain ⟨isDemoted, store⟩ := demoted
    cases isDemoted with
    | true =>
        exact demotes
    | false =>
        exact demotes.trans erase_alone

/-- An entry whose bit is clear stays as it is. -/
theorem set_clearBit
    {entries : List BlockMeta}
    {hand : Nat}
    (isEntry : entries[hand]? = some entry)
    (unvisited : entry.visited = false) :
    entries.set hand entry.clearBit = entries := by
  have same : entry.clearBit = entry := by
    rw [BlockMeta.clearBit, ← unvisited]
  obtain ⟨inside, isHere⟩ := List.getElem?_eq_some_iff.mp isEntry
  rw [same, ← isHere]
  exact List.set_getElem_self inside

/-- The walk goes on behind a victim. -/
theorem ofPass_afterVictim
    {tier : Tier}
    {need freed steps hand removed : Nat}
    {entries : List BlockMeta}
    {store : TieredStore} :
    ofPass
        (PassPoint.afterVictim
          { node.setHand tier hand with store := store }
          ⟨tier, need, freed, entries, steps + 1⟩ removed) =
      ({ node with store := store }.setHand tier (hand + 1),
        .evict
          (.walk ⟨tier, need, addSize freed removed, entries, steps⟩)) := by
  simp [ofPass, PassPoint.afterVictim, CacheNode.setHand]

/-- The walk over the snapshot. -/
theorem walk_alone
    {tier : Tier}
    {need steps freed : Nat}
    {entries : List BlockMeta}
    {evicted : List BlockId}
    {walked : ClockHand.Scan BlockMeta SweepState}
    (isWalk :
      ClockHand.scan (SweepState.done need) (SweepState.visit tier)
        BlockMeta.clearBit steps
        ⟨entries, node.evictor.hand tier, ⟨node.store, freed, evicted⟩⟩ =
          walked) :
    Alone listing
      (node, .evict (.walk ⟨tier, need, freed, entries, steps⟩))
      (node.swept tier walked, .evict .done) := by
  induction steps generalizing node entries freed evicted with
  | zero =>
      subst isWalk
      refine .single ?_
      simp [advance, PassPoint.advance, ClockHand.scan,
        CacheNode.swept]
  | succ steps inductionHypothesis =>
      rw [ClockHand.scan] at isWalk
      by_cases enough : need ≤ freed
      · rw [if_pos (by simpa using enough)] at isWalk
        subst isWalk
        refine .single ?_
        simp [advance, PassPoint.advance, CacheNode.swept, enough]
      · rw [if_neg (by simpa using enough)] at isWalk
        dsimp only at isWalk
        generalize isHand :
          ClockHand.wrap entries.length (node.evictor.hand tier) = hand
            at isWalk
        cases isEntry : entries[hand]? with
        | none =>
            rw [isEntry] at isWalk
            subst isWalk
            refine .single ?_
            simp [advance, PassPoint.advance, CacheNode.swept, enough, isHand,
              isEntry]
        | some entry =>
            have goesOn
                {store : TieredStore}
                {others : List BlockMeta}
                {freedNow : Nat}
                {evictedNow : List BlockId}
                (isRest :
                  ClockHand.scan (SweepState.done need)
                    (SweepState.visit tier) BlockMeta.clearBit steps
                    ⟨others, hand + 1, ⟨store, freedNow, evictedNow⟩⟩ =
                      walked) :
                Alone listing
                  ({ node with store := store }.setHand tier (hand + 1),
                    .evict
                      (.walk ⟨tier, need, freedNow, others, steps⟩))
                  (node.swept tier walked, .evict .done) := by
              rw [← node.swept_setHand tier (hand + 1) store]
              exact inductionHypothesis (by simpa using isRest)
            simp only [isEntry, SweepState.visit] at isWalk
            cases visited : entry.visited with
            | true =>
                rw [visited, if_pos rfl] at isWalk
                refine .head ?_ (goesOn isWalk)
                simp [advance, PassPoint.advance, enough, isHand, isEntry,
                  visited]
            | false =>
                rw [visited, if_neg Bool.false_ne_true,
                  set_clearBit isEntry visited] at isWalk
                have evicts :=
                  @victim_alone listing (node.setHand tier hand)
                    ⟨tier, need, freed, entries, steps + 1⟩ entry
                rw [ofPass_afterVictim] at evicts
                refine .head ?_ (evicts.trans (goesOn isWalk))
                simp [advance, PassPoint.advance, enough, isHand, isEntry,
                  visited]

/-- A pass that runs alone is the sequential pass. -/
theorem pass_alone
    (tier : Tier) :
    Alone listing (node, .evict (.readUsed tier))
      (node.evict tier listing, .evict .done) := by
  unfold CacheNode.evict Evictor.runPassForTier
  by_cases pressure : node.evictor.pressure node.store tier = true
  · have starts :
        advance node listing (.evict (.readUsed tier)) =
          (node,
            .evict
              (.takeSnapshot tier (node.evictor.need node.store tier))) := by
      simp [advance, PassPoint.advance, pressure]
    refine .head starts ?_
    by_cases empty : listing = []
    · rw [if_neg (by simp [empty])]
      refine .single ?_
      simp [advance, PassPoint.advance, empty]
    · have walks :=
        @walk_alone listing node tier (node.evictor.need node.store tier)
          (2 * listing.length) 0 listing [] _ rfl
      rw [if_pos ⟨pressure, empty⟩]
      refine .head ?_ walks
      simp [advance, PassPoint.advance, empty]
  · rw [if_neg (by simp [pressure])]
    refine .single ?_
    simp [advance, PassPoint.advance, pressure]

end CacheThread

end Lethe
