import Lethe.CacheThreads

namespace Lethe

/-!
# Concurrent inserts and eviction passes

Since an insert infers from the byte counters whether its block is new, what
other threads add or take away between its two reads of a tier counts as if it
had done it itself.  The counters it reads, its own bytes and the history of
the other threads balance at every step.
-/

/-- One more tier is read. -/
theorem Tier.earlier_next
    {tier later : Tier}
    (isNext : tier.next? = some later) :
    later.earlier = tier.earlier ++ [tier] ∧
      tier.onward = tier :: later.onward := by
  cases tier with
  | hbm =>
      cases isNext
      exact ⟨rfl, rfl⟩
  | dram =>
      cases isNext
      exact ⟨rfl, rfl⟩
  | ssd =>
      cases isNext

/-- The last tier is read. -/
theorem Tier.earlier_last
    {tier : Tier}
    (isLast : tier.next? = none) :
    allTiers = tier.earlier ++ [tier] ∧ tier.onward = [tier] := by
  cases tier with
  | hbm =>
      cases isLast
  | dram =>
      cases isLast
  | ssd =>
      exact ⟨rfl, rfl⟩

/--
A new block that has bytes is counted, and a block that was there is not.
-/
def InsertOutcome.Correct
    (outcome : InsertOutcome) : Prop :=
  (outcome.added = true →
      outcome.block.data ≠ [] →
      outcome.counted = true) ∧
    (outcome.added = false → outcome.counted = false)

/--
Between the two reads of each tier, other threads took away less than the size
of a new block and what they added, and added no more than they took away if
the tier that accepted the block had it already.
-/
def InsertOutcome.Undisturbed
    (outcome : InsertOutcome) : Prop :=
  (outcome.added = true →
      outcome.block.data ≠ [] →
      outcome.lowered < outcome.raised + outcome.block.data.length) ∧
    (outcome.landed = true →
      outcome.added = false →
      outcome.raised ≤ outcome.lowered)

namespace InsertOutcome

variable {outcome : InsertOutcome}

/-- Counters that other threads left alone. -/
theorem undisturbed_of_still
    (notRaised : outcome.raised = 0)
    (notLowered : outcome.lowered = 0) :
    outcome.Undisturbed := by
  constructor
  · intro _ nonempty
    have positive := List.length_pos_of_ne_nil nonempty
    omega
  · intro _ _
    omega

/-- A block that no tier took is not counted, and rightly so. -/
theorem correct_iff_of_rejected
    (rejected : outcome.landed = false)
    (notAdded : outcome.added = false)
    (notCounted : outcome.counted = false) :
    outcome.Correct ↔ outcome.Undisturbed := by
  unfold Correct Undisturbed
  simp [rejected, notAdded, notCounted]

/-- A block that a tier took is counted if the counters seem to have grown. -/
theorem correct_iff_of_landed
    (landed : outcome.landed = true)
    (counted_iff :
      outcome.counted = true ↔
        outcome.lowered <
          outcome.raised +
            if outcome.added then outcome.block.data.length else 0) :
    outcome.Correct ↔ outcome.Undisturbed := by
  unfold Correct Undisturbed
  cases added : outcome.added with
  | false =>
      simp only [added, Bool.false_eq_true, ↓reduceIte, Nat.add_zero]
        at counted_iff
      rw [← Nat.not_lt, ← counted_iff]
      simp [landed]
  | true =>
      simp only [added, ↓reduceIte] at counted_iff
      rw [counted_iff]
      simp

end InsertOutcome

/-! ## What holds between two steps -/

namespace InsertCall

/-- Bytes that the call has added to the counters for its current block. -/
def ownBytes
    (call : InsertCall) :
    Nat :=
  if call.added then
    ((call.blocks.head?).map fun block => block.data.length).getD 0
  else
    0

/--
The sums read so far, the counters still watched and the history of other
threads fit together.
-/
def Balanced
    (store : TieredStore)
    (call : InsertCall) : Prop :=
  match call.point with
  | .readBefore tier sum =>
      call.added = false ∧
        sum ≤ store.capacityIn tier.earlier ∧
        sum + call.raised = store.usedIn tier.earlier + call.lowered
  | .put before _ =>
      call.added = false ∧
        before + call.raised = store.usedIn allTiers + call.lowered
  | .readAfter before tier sum =>
      sum ≤ store.capacityIn tier.earlier ∧
        before + call.ownBytes + call.raised =
          sum + store.usedIn tier.onward + call.lowered
  | .replicate => call.lowered < call.raised + call.ownBytes

/-- What holds of an insert between two steps. -/
structure Sound
    (store : TieredStore)
    (call : InsertCall) : Prop where
  sized :
    ∀ block ∈ call.blocks,
      store.capacityIn allTiers + block.data.length < sizeRange
  balanced : call.Balanced store
  request_eq :
    call.request = call.outcomes.map InsertOutcome.block ++ call.blocks
  accepted_eq : call.accepted = UInt32.ofNat call.replicated.length
  replicated_eq :
    call.replicated =
      (call.outcomes.filter fun outcome => outcome.counted).map
        InsertOutcome.block
  correct_iff :
    ∀ outcome ∈ call.outcomes,
      outcome.Correct ↔ outcome.Undisturbed

variable
  {store : TieredStore}
  {call : InsertCall}

/-- A new insert has nothing behind it. -/
theorem start_sound
    {blocks : List KvBlock}
    (sized :
      ∀ block ∈ blocks,
        store.capacityIn allTiers + block.data.length < sizeRange) :
    (start blocks).Sound store where
  sized := sized
  balanced := ⟨rfl, Nat.zero_le _, rfl⟩
  request_eq := rfl
  accepted_eq := rfl
  replicated_eq := rfl
  correct_iff := by
    simp [start]

section Observe

variable
  (before after : TieredStore)
  (call : InsertCall)

@[simp] theorem point_observe :
    (call.observe before after).point = call.point := rfl

@[simp] theorem added_observe :
    (call.observe before after).added = call.added := rfl

@[simp] theorem ownBytes_observe :
    (call.observe before after).ownBytes = call.ownBytes := rfl

@[simp] theorem raised_observe :
    (call.observe before after).raised =
      call.raised +
        TieredStore.raisedIn before after call.point.watched := rfl

@[simp] theorem lowered_observe :
    (call.observe before after).lowered =
      call.lowered +
        TieredStore.raisedIn after before call.point.watched := rfl

end Observe

/-- Noting a step of another thread keeps the balance. -/
theorem Sound.observe
    {before after : TieredStore}
    (sound : call.Sound before)
    (capacities :
      ∀ tier, after.capacityBytes tier = before.capacityBytes tier) :
    (call.observe before after).Sound after := by
  have sameSums := TieredStore.capacityIn_congr capacities
  refine
    ⟨by rw [sameSums]; exact sound.sized, ?_, sound.request_eq,
      sound.accepted_eq, sound.replicated_eq, sound.correct_iff⟩
  have moved :=
    TieredStore.usedIn_balance before after call.point.watched
  have balanced := sound.balanced
  unfold Balanced at balanced ⊢
  simp only [point_observe, added_observe, ownBytes_observe,
    raised_observe, lowered_observe, sameSums]
  cases point : call.point with
  | readBefore tier sum =>
      simp only [point, InsertPoint.watched] at balanced moved ⊢
      exact ⟨balanced.1, balanced.2.1, by omega⟩
  | put before tiers =>
      simp only [point, InsertPoint.watched] at balanced moved ⊢
      exact ⟨balanced.1, by omega⟩
  | readAfter before tier sum =>
      simp only [point, InsertPoint.watched] at balanced moved ⊢
      exact ⟨balanced.1, by omega⟩
  | replicate =>
      simpa [point, InsertPoint.watched, TieredStore.raisedIn] using
        balanced

/-- Going on to the next block. -/
theorem Sound.finish
    (sound : call.Sound store)
    {block : KvBlock}
    {rest : List KvBlock}
    (current : call.blocks = block :: rest)
    {landed counted : Bool}
    (correct :
      InsertOutcome.Correct
          ⟨block, landed, call.added, counted, call.raised,
            call.lowered⟩ ↔
        InsertOutcome.Undisturbed
          ⟨block, landed, call.added, counted, call.raised,
            call.lowered⟩) :
    (call.finish block rest landed counted).Sound store where
  sized := by
    intro later member
    refine sound.sized later ?_
    rw [current]
    exact List.mem_cons_of_mem _ member
  balanced := ⟨rfl, Nat.zero_le _, rfl⟩
  request_eq := by
    simp [InsertCall.finish, sound.request_eq, current]
  accepted_eq := by
    cases counted with
    | false =>
        exact sound.accepted_eq
    | true =>
        simp [InsertCall.finish, sound.accepted_eq, UInt32.ofNat_add]
  replicated_eq := by
    cases counted with
    | false =>
        simp [InsertCall.finish, sound.replicated_eq]
    | true =>
        simp [InsertCall.finish, sound.replicated_eq]
  correct_iff := by
    intro outcome member
    rcases List.mem_append.mp member with earlier | isLast
    · exact sound.correct_iff outcome earlier
    · rw [List.mem_singleton.mp isLast]
      exact correct

/-- Moving on within a block. -/
theorem Sound.moveTo
    (sound : call.Sound store)
    {after : TieredStore}
    (capacities :
      ∀ tier, after.capacityBytes tier = store.capacityBytes tier)
    {point : InsertPoint}
    {added : Bool}
    (balanced :
      ({ call with point := point, added := added } :
        InsertCall).Balanced after) :
    ({ call with point := point, added := added } :
      InsertCall).Sound after where
  sized := by
    rw [TieredStore.capacityIn_congr capacities]
    exact sound.sized
  balanced := balanced
  request_eq := sound.request_eq
  accepted_eq := sound.accepted_eq
  replicated_eq := sound.replicated_eq
  correct_iff := sound.correct_iff

/-- The sum of the counters read so far does not wrap. -/
theorem read_sum
    (accounted : store.Accounted)
    (bounded : store.capacityIn allTiers < sizeRange)
    {tier : Tier}
    {sum : Nat}
    (small : sum ≤ store.capacityIn tier.earlier) :
    addSize sum (store.usedBytes tier) = sum + store.usedBytes tier ∧
      sum + store.usedBytes tier ≤
        store.capacityIn (tier.earlier ++ [tier]) := by
  have used := accounted.usedBytes_le tier
  have whole :
      store.capacityIn (tier.earlier ++ [tier]) ≤
        store.capacityIn allTiers := by
    cases tier <;> simp [Tier.earlier, allTiers]
  simp only [TieredStore.capacityIn_append, TieredStore.capacityIn_cons,
    TieredStore.capacityIn_nil] at whole ⊢
  exact ⟨addSize_of_lt (by omega), by omega⟩

section Current

variable
  {block : KvBlock}
  {rest : List KvBlock}
  (sound : call.Sound store)
  (current : call.blocks = block :: rest)

include sound current

/-- The current block is within the range of the counters. -/
theorem Sound.bounded :
    store.capacityIn allTiers + block.data.length < sizeRange :=
  sound.sized block (by rw [current]; exact List.mem_cons_self)

/-- Reading a counter before the block is stored. -/
theorem Sound.readBefore
    (accounted : store.Accounted)
    {tier : Tier}
    {sum : Nat}
    (point : call.point = .readBefore tier sum) :
    ({ call with
        point :=
          match tier.next? with
          | some later =>
              .readBefore later (addSize sum (store.usedBytes tier))
          | none =>
              .put (addSize sum (store.usedBytes tier))
                (TieredStore.fallthrough block.tier) } :
      InsertCall).Sound store := by
  have bounded := sound.bounded current
  have balanced := sound.balanced
  simp only [Balanced, point] at balanced
  obtain ⟨notAdded, small, fits⟩ := balanced
  obtain ⟨exactSum, within⟩ := read_sum accounted (by omega) small
  rw [exactSum]
  refine sound.moveTo (fun _ => rfl) ?_
  cases isNext : tier.next? with
  | some later =>
      obtain ⟨earlier, _⟩ := Tier.earlier_next isNext
      simp only [Balanced, earlier]
      refine ⟨notAdded, within, ?_⟩
      simp only [TieredStore.usedIn_append, TieredStore.usedIn_cons,
        TieredStore.usedIn_nil]
      omega
  | none =>
      obtain ⟨earlier, _⟩ := Tier.earlier_last isNext
      simp only [Balanced, earlier]
      refine ⟨notAdded, ?_⟩
      simp only [TieredStore.usedIn_append, TieredStore.usedIn_cons,
        TieredStore.usedIn_nil]
      omega

/-- A tier takes the block. -/
theorem Sound.putAccepted
    (accounted : store.Accounted)
    {before : Nat}
    {tiers : List Tier}
    (point : call.point = .put before tiers)
    {tier : Tier}
    (accepted : (store.putToTier block tier).1 = true) :
    ({ call with
        point := .readAfter before .hbm 0
        added := (store.copy tier block.id).isNone } :
      InsertCall).Sound (store.putToTier block tier).2 := by
  have balanced := sound.balanced
  simp only [Balanced, point] at balanced
  have grown :=
    accounted.usedIn_putToTier
      (accounted.noWrap (sound.bounded current) _) accepted
  refine
    sound.moveTo (fun query => store.capacityBytes_putToTier block tier query)
      ?_
  simp only [Balanced, ownBytes, current, List.head?_cons, Option.map_some,
    Option.getD_some, Tier.onward, Nat.zero_le, true_and]
  omega

/-- Reading a counter after the block is stored, and the comparison. -/
theorem Sound.readAfter
    (accounted : store.Accounted)
    {before : Nat}
    {tier : Tier}
    {sum : Nat}
    (point : call.point = .readAfter before tier sum) :
    (match tier.next? with
      | some later =>
          { call with
            point :=
              .readAfter before later
                (addSize sum (store.usedBytes tier)) }
      | none =>
          if before < addSize sum (store.usedBytes tier) then
            { call with point := .replicate }
          else
            call.finish block rest true false :
      InsertCall).Sound store := by
  have bounded := sound.bounded current
  have balanced := sound.balanced
  simp only [Balanced, point] at balanced
  obtain ⟨small, fits⟩ := balanced
  obtain ⟨exactSum, within⟩ := read_sum accounted (by omega) small
  rw [exactSum]
  cases isNext : tier.next? with
  | some later =>
      obtain ⟨earlier, onward⟩ := Tier.earlier_next isNext
      rw [onward, TieredStore.usedIn_cons] at fits
      refine sound.moveTo (fun _ => rfl) ?_
      simp only [Balanced, earlier]
      refine ⟨within, ?_⟩
      change before + call.ownBytes + call.raised = _
      omega
  | none =>
      obtain ⟨_, onward⟩ := Tier.earlier_last isNext
      rw [onward, TieredStore.usedIn_cons, TieredStore.usedIn_nil] at fits
      dsimp only
      split
      · refine sound.moveTo (fun _ => rfl) ?_
        change call.lowered < call.raised + call.ownBytes
        omega
      · refine
          sound.finish current
            (InsertOutcome.correct_iff_of_landed rfl ?_)
        simp only [ownBytes, current, List.head?_cons, Option.map_some,
          Option.getD_some] at fits
        simp only [Bool.false_eq_true, false_iff, Nat.not_lt]
        omega

/-- The block is handed to the replicator. -/
theorem Sound.replicate
    (point : call.point = .replicate) :
    (call.finish block rest true true).Sound store := by
  have balanced := sound.balanced
  simp only [Balanced, point, ownBytes, current, List.head?_cons,
    Option.map_some, Option.getD_some] at balanced
  refine
    sound.finish current (InsertOutcome.correct_iff_of_landed rfl ?_)
  simpa using balanced

end Current

/-- One step of an insert. -/
theorem Sound.advance
    {node : CacheNode}
    (sound : call.Sound node.store)
    (accounted : node.store.Accounted) :
    node.store.Kept (call.advance node).1.store ∧
      (call.advance node).2.Sound (call.advance node).1.store := by
  unfold InsertCall.advance
  split
  · exact ⟨.refl accounted, sound⟩
  · next block rest current =>
      split
      · next tier sum point =>
          exact
            ⟨.refl accounted, sound.readBefore current accounted point⟩
      · next before point =>
          have balanced := sound.balanced
          simp only [Balanced, point] at balanced
          exact
            ⟨.refl accounted,
              sound.finish current
                (InsertOutcome.correct_iff_of_rejected rfl balanced.1 rfl)⟩
      · next before tier slower point =>
          have kept :=
            TieredStore.Kept.putToTier accounted
              (accounted.noWrap (sound.bounded current) tier)
          refine ⟨kept, ?_⟩
          dsimp only
          split
          · next accepted =>
              exact sound.putAccepted current accounted point accepted
          · next rejected =>
              rw [TieredStore.putToTier_of_rejected
                (Bool.eq_false_of_not_eq_true rejected)]
              refine sound.moveTo (fun _ => rfl) ?_
              simpa only [Balanced, point] using sound.balanced
      · next before tier sum point =>
          exact
            ⟨.refl accounted, sound.readAfter current accounted point⟩
      · next point =>
          simp only [CacheNode.store_replicateOut]
          exact ⟨.refl accounted, sound.replicate current point⟩

end InsertCall

/-- What a demotion is about to copy fits the tier it was read from. -/
def CallPoint.Sized
    (store : TieredStore) :
    CallPoint → Prop
  | .demoteToDram bytes => bytes.length ≤ store.capacityBytes .hbm
  | .demoteToSsd bytes source _ =>
      bytes.length ≤ store.capacityBytes source
  | .demoteReadHbm => True
  | .demoteReadDram => True
  | .drop _ => True
  | .done => True
  | .getRead _ _ => False
  | .getRecord _ => False
  | .getPromote _ _ _ _ => False

namespace TierCall

variable {store : TieredStore}

/-- A copy from one tier into another. -/
theorem copyInto_kept
    (accounted : store.Accounted)
    (bounded : store.capacityIn allTiers < sizeRange)
    {id : BlockId}
    {bytes : List UInt8}
    {target source : Tier}
    (different : target ≠ source)
    (sized : bytes.length ≤ store.capacityBytes source)
    {otherwise : CallPoint}
    (sizedOtherwise : otherwise.Sized store) :
    store.Kept (copyInto store id bytes target source otherwise).1 ∧
      (copyInto store id bytes target source otherwise).2.Sized store := by
  refine
    ⟨.putToTier accounted
      (accounted.noWrap_of_source bounded different sized), ?_⟩
  unfold copyInto
  dsimp only
  split
  · trivial
  · exact sizedOtherwise

/-- One step of a demotion. -/
theorem advance_kept
    (accounted : store.Accounted)
    (bounded : store.capacityIn allTiers < sizeRange)
    (call : TierCall)
    (sized : call.point.Sized store) :
    store.Kept (call.advance store).1 ∧
      (call.advance store).2.Sized store := by
  unfold advance
  cases point : call.point with
  | getRead tier probe =>
      rw [point] at sized
      exact sized.elim
  | getRecord probe =>
      rw [point] at sized
      exact sized.elim
  | getPromote bytes found target different =>
      rw [point] at sized
      exact sized.elim
  | demoteReadHbm =>
      dsimp only
      split
      · next bytes held =>
          exact ⟨.refl accounted, accounted.length_le held⟩
      · exact ⟨.refl accounted, trivial⟩
  | demoteReadDram =>
      dsimp only
      split
      · next bytes held =>
          exact ⟨.refl accounted, accounted.length_le held⟩
      · exact ⟨.refl accounted, trivial⟩
  | demoteToDram bytes =>
      rw [point] at sized
      exact copyInto_kept accounted bounded (by decide) sized sized
  | demoteToSsd bytes source different =>
      rw [point] at sized
      exact copyInto_kept accounted bounded different sized trivial
  | drop source =>
      exact ⟨.eraseFromTier accounted call.id source, trivial⟩
  | done =>
      exact ⟨.refl accounted, trivial⟩

end TierCall

/-- Only capacities matter. -/
theorem CallPoint.Sized.of_capacities
    {before after : TieredStore}
    (capacities :
      ∀ tier, after.capacityBytes tier = before.capacityBytes tier)
    {point : CallPoint}
    (sized : point.Sized before) :
    point.Sized after := by
  cases point with
  | demoteToDram bytes =>
      exact sized.trans_eq (capacities .hbm).symm
  | demoteToSsd bytes source different =>
      exact sized.trans_eq (capacities source).symm
  | _ =>
      exact sized

/-- A pass holds no bytes but those of a demotion. -/
def PassPoint.Sized
    (store : TieredStore) :
    PassPoint → Prop
  | .demote _ _ point => point.Sized store
  | _ => True

theorem PassPoint.Sized.of_capacities
    {before after : TieredStore}
    (capacities :
      ∀ tier, after.capacityBytes tier = before.capacityBytes tier)
    {point : PassPoint}
    (sized : point.Sized before) :
    point.Sized after := by
  cases point with
  | demote state entry point =>
      exact CallPoint.Sized.of_capacities capacities sized
  | _ =>
      trivial

/-- One step of a pass. -/
theorem PassPoint.advance_kept
    {node : CacheNode}
    (accounted : node.store.Accounted)
    (bounded : node.store.capacityIn allTiers < sizeRange)
    (listing : List BlockMeta)
    {point : PassPoint}
    (sized : point.Sized node.store) :
    node.store.Kept (point.advance node listing).1.store ∧
      (point.advance node listing).2.Sized node.store := by
  cases point with
  | readUsed tier =>
      refine ⟨.refl accounted, ?_⟩
      simp only [advance]
      split <;> trivial
  | takeSnapshot tier need =>
      refine ⟨.refl accounted, ?_⟩
      simp only [advance]
      split <;> trivial
  | walk state =>
      simp only [advance]
      split
      · exact ⟨.refl accounted, trivial⟩
      · split
        · exact ⟨.refl accounted, trivial⟩
        · next entry _ =>
            split
            · exact
                ⟨⟨accounted.clearVisited entry.id, fun _ => rfl⟩, trivial⟩
            · refine ⟨.refl accounted, ?_⟩
              split <;> trivial
  | demote state entry point =>
      have stepped :=
        TierCall.advance_kept accounted bounded ⟨entry.id, point⟩ sized
      simp only [advance]
      split
      · exact ⟨stepped.1, trivial⟩
      · exact ⟨stepped.1, trivial⟩
      · exact stepped
  | erase state entry tiers removed =>
      cases tiers with
      | nil =>
          exact ⟨⟨accounted.forget entry.id, fun _ => rfl⟩, trivial⟩
      | cons tier rest =>
          exact ⟨.eraseFromTier accounted entry.id tier, trivial⟩
  | done =>
      exact ⟨.refl accounted, trivial⟩

namespace CacheThread

/-- What holds of a thread between two steps. -/
def Sound
    (store : TieredStore) :
    CacheThread → Prop
  | .insert call => call.Sound store
  | .evict point => point.Sized store

/-- A step of another thread. -/
theorem Sound.observe
    {before after : TieredStore}
    {thread : CacheThread}
    (sound : thread.Sound before)
    (kept : before.Kept after) :
    (thread.observe before after).Sound after := by
  cases thread with
  | insert call =>
      exact InsertCall.Sound.observe sound kept.capacities
  | evict point =>
      exact PassPoint.Sized.of_capacities kept.capacities sound

/-- A step of the thread itself. -/
theorem Sound.advance
    {node : CacheNode}
    {thread : CacheThread}
    (sound : thread.Sound node.store)
    (accounted : node.store.Accounted)
    (bounded : node.store.capacityIn allTiers < sizeRange)
    (listing : List BlockMeta) :
    node.store.Kept (thread.advance node listing).1.store ∧
      (thread.advance node listing).2.Sound
        (thread.advance node listing).1.store := by
  cases thread with
  | insert call =>
      exact InsertCall.Sound.advance sound accounted
  | evict point =>
      have stepped :=
        PassPoint.advance_kept accounted bounded listing sound
      exact
        ⟨stepped.1,
          PassPoint.Sized.of_capacities stepped.1.capacities stepped.2⟩

end CacheThread

namespace ConcurrentCache

/-- What holds between two steps of a server. -/
structure Sound
    (state : ConcurrentCache) : Prop where
  accounted : state.node.store.Accounted
  bounded : state.node.store.capacityIn allTiers < sizeRange
  threads : ∀ thread ∈ state.threads, thread.Sound state.node.store

variable {state : ConcurrentCache}

/-- One more thread. -/
theorem Sound.start
    (sound : state.Sound)
    {thread : CacheThread}
    (soundThread : thread.Sound state.node.store) :
    ({ state with threads := state.threads ++ [thread] } :
      ConcurrentCache).Sound := by
  refine ⟨sound.accounted, sound.bounded, ?_⟩
  intro other member
  rcases List.mem_append.mp member with earlier | isNew
  · exact sound.threads other earlier
  · rw [List.mem_singleton.mp isNew]
    exact soundThread

/-- A thread takes a step. -/
theorem Sound.advance
    (sound : state.Sound)
    {index : Nat}
    {thread : CacheThread}
    (running : state.threads[index]? = some thread)
    (listing : List BlockMeta) :
    (state.advance index thread listing).Sound := by
  obtain ⟨kept, soundAfter⟩ :=
    (sound.threads thread (List.mem_of_getElem? running)).advance
      sound.accounted sound.bounded listing
  refine ⟨kept.accounted, ?_, ?_⟩
  · exact
      (TieredStore.capacityIn_congr kept.capacities _).trans_lt sound.bounded
  · intro other member
    rcases List.mem_or_eq_of_mem_set member with watching | isMoved
    · obtain ⟨earlier, isEarlier, isOther⟩ := List.mem_map.mp watching
      rw [← isOther]
      exact (sound.threads earlier isEarlier).observe kept
    · rw [isMoved]
      exact soundAfter

/-- Any step. -/
theorem Sound.step
    {before after : ConcurrentCache}
    {event : CacheEvent}
    (sound : before.Sound)
    (step : Step before event after) :
    after.Sound := by
  unfold Step at step
  cases event with
  | startInsert blocks =>
      simp only [next] at step
      split at step
      · next sized =>
          cases step
          exact sound.start (InsertCall.start_sound sized)
      · cases step
  | startPass tier =>
      cases step
      exact sound.start trivial
  | advance index listing =>
      simp only [next] at step
      split at step
      · cases step
      · next thread running =>
          split at step
          · cases step
            exact sound.advance running listing
          · cases step

end ConcurrentCache

/--
In every interleaving of inserts and eviction passes: the count of an insert is
the number, in 32 bits, of the blocks it handed to the replicator, these are
the counted ones, and a block is counted as it should be exactly if other
threads did not move the counters against it between the two reads.
-/
theorem insert_counts_new_blocks_iff
    {initial final : ConcurrentCache}
    {events : List CacheEvent}
    (accounted : initial.node.store.Accounted)
    (bounded : initial.node.store.capacityIn allTiers < sizeRange)
    (idle : initial.threads = [])
    (run : LabelledRun ConcurrentCache.Step initial events final)
    {call : InsertCall}
    (running : .insert call ∈ final.threads) :
    call.request =
        call.outcomes.map InsertOutcome.block ++ call.blocks ∧
      call.accepted = UInt32.ofNat call.replicated.length ∧
      call.replicated =
        (call.outcomes.filter fun outcome => outcome.counted).map
          InsertOutcome.block ∧
      ∀ outcome ∈ call.outcomes,
        outcome.Correct ↔ outcome.Undisturbed := by
  have sound : initial.Sound :=
    ⟨accounted, bounded, by simp [idle]⟩
  have soundAfter :=
    run.invariant _ (fun holds step => holds.step step) sound
  have soundCall : call.Sound final.node.store :=
    soundAfter.threads _ running
  exact
    ⟨soundCall.request_eq, soundCall.accepted_eq, soundCall.replicated_eq,
      soundCall.correct_iff⟩

/-! ## A new block hidden by an eviction -/

/-- A server whose sixteen bytes of memory hold a block of fifteen. -/
def fullCache : ConcurrentCache where
  node :=
    { sampleNode [nodeA, nodeB] nodeA with
      store :=
        ((TieredStore.create { dramBytes := 16 } fun _ => 0).putToTier
          { id := contendedId, data := List.replicate 15 1 } .dram).2 }
  threads := []

/-- A new block of one byte. -/
def lateInsert : KvBlock where
  id := sampleBlock
  data := [7]
  tier := .dram

/-- The insert reads the counters of all tiers. -/
def readingEvents : List CacheEvent :=
  [.startInsert [lateInsert], .advance 0 [], .advance 0 [], .advance 0 []]

/-- A pass over memory erases the large block. -/
def erasingEvents : List CacheEvent :=
  [ .startPass .dram, .advance 1 [],
    .advance 1 (fullCache.node.store.snapshot .dram), .advance 1 [],
    .advance 1 [], .advance 1 [], .advance 1 [], .advance 1 [],
    .advance 1 [], .advance 1 [], .advance 1 [], .advance 1 [] ]

/-- The insert stores the block and reads the counters again. -/
def storingEvents : List CacheEvent :=
  [.advance 0 [], .advance 0 [], .advance 0 [], .advance 0 []]

/-- The pass runs between the two readings. -/
def hiddenEvents : List CacheEvent :=
  readingEvents ++ erasingEvents ++ storingEvents

/-- The insert when it returns: the block was added but not counted. -/
def hiddenInsert : InsertCall :=
  { InsertCall.start [] with
    request := [lateInsert]
    outcomes := [⟨lateInsert, true, true, false, 0, 15⟩] }

theorem fullCache_accounted :
    fullCache.node.store.Accounted ∧
      fullCache.node.store.capacityIn allTiers < sizeRange := by
  have fresh :=
    TieredStore.create_zero_copies { dramBytes := 16 } (by simp)
      (fun _ _ => True)
  have empty :=
    TieredStore.Accounted.create (by decide) (by decide) fresh.consistent
  exact ⟨empty.putToTier (by decide +kernel), by decide +kernel⟩

/--
The insert has read fifteen bytes when the pass erases the block they belong
to; the new block is stored, and the counters read one byte.  The block is
neither counted nor queued for a replica.
-/
theorem new_block_hidden_by_eviction :
    (fullCache.node.store.Accounted ∧
      fullCache.node.store.capacityIn allTiers < sizeRange ∧
      fullCache.threads = []) ∧
      ∃ final call,
        LabelledRun ConcurrentCache.Step fullCache hiddenEvents final ∧
          .insert call ∈ final.threads ∧
          call.blocks = [] ∧
          call.outcomes = [⟨lateInsert, true, true, false, 0, 15⟩] ∧
          call.accepted = 0 ∧
          call.replicated = [] ∧
          final.node.store.Resident sampleBlock ∧
          final.node.queue = [] := by
  have hidden :
      (hiddenEvents.foldlM ConcurrentCache.next fullCache).map
        (fun final =>
          (final.threads, final.node.queue,
            decide (final.node.store.Resident sampleBlock))) =
          some ([.insert hiddenInsert, .evict .done], [], true) := by
    decide +kernel
  obtain ⟨final, executed, reached⟩ := Option.map_eq_some_iff.mp hidden
  simp only [Prod.mk.injEq, decide_eq_true_eq] at reached
  obtain ⟨threads, queue, resident⟩ := reached
  refine
    ⟨⟨fullCache_accounted.1, fullCache_accounted.2, rfl⟩, final,
      hiddenInsert, LabelledRun.of_foldlM executed, ?_, rfl, rfl, rfl, rfl,
      resident, queue⟩
  rw [threads]
  exact List.mem_cons_self

/-- A pass over memory only reads its counter between the two readings. -/
def countedEvents : List CacheEvent :=
  readingEvents ++ [.startPass .dram, .advance 1 []] ++ storingEvents ++
    [.advance 0 []]

/-- The insert when it returns: the block was added and counted. -/
def countedInsert : InsertCall :=
  { InsertCall.start [] with
    request := [lateInsert]
    accepted := 1
    replicated := [lateInsert]
    outcomes := [⟨lateInsert, true, true, true, 0, 0⟩] }

theorem insert_counts_new_blocks_iff_sample :
    ∃ final,
      LabelledRun ConcurrentCache.Step fullCache countedEvents final ∧
        .insert countedInsert ∈ final.threads ∧
        countedInsert.accepted = UInt32.ofNat countedInsert.replicated.length ∧
        ∀ outcome ∈ countedInsert.outcomes,
          outcome.Correct ∧ outcome.Undisturbed := by
  have counted :
      (countedEvents.foldlM ConcurrentCache.next fullCache).map
        (fun final => final.threads) =
          some
            [.insert countedInsert, .evict (.takeSnapshot .dram 3)] := by
    decide +kernel
  obtain ⟨final, executed, threads⟩ := Option.map_eq_some_iff.mp counted
  have run := LabelledRun.of_foldlM executed
  have running : .insert countedInsert ∈ final.threads := by
    rw [threads]
    exact List.mem_cons_self
  obtain ⟨_, accepted, _, correct_iff⟩ :=
    insert_counts_new_blocks_iff fullCache_accounted.1
      fullCache_accounted.2 rfl run running
  refine ⟨final, run, running, accepted, ?_⟩
  intro outcome member
  have undisturbed : outcome.Undisturbed := by
    rw [List.mem_singleton.mp member]
    exact InsertOutcome.undisturbed_of_still rfl rfl
  exact ⟨(correct_iff outcome member).mpr undisturbed, undisturbed⟩

end Lethe
