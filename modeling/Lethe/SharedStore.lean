import Lethe.TierAccounting
import Lethe.TieredStoreInterleaving

namespace Lethe

/-!
# Concurrent calls of the tiered store

`Put` tries its tiers one after the other, and `Erase` clears the three tiers
one by one before it wipes the counter and the visited bit.  Every access to a
tier and every section under the counter lock is one atomic step, between
which the steps of any other call may run.

A record kept beside the store, which no step reads, lists the blocks whose
erasure completed with no insertion overlapping or following it.
-/

namespace TieredStore

/-- The block has a counter or a visited bit. -/
def Recorded
    (store : TieredStore)
    (id : BlockId) : Prop :=
  id ∈ store.accessCounts ∨ id ∈ store.visited

instance
    (store : TieredStore)
    (id : BlockId) :
    Decidable (store.Recorded id) :=
  inferInstanceAs (Decidable (_ ∨ _))

/-- An attempt to store a block changes no copy but one of its own. -/
theorem SsdSound.copy_putToTier_cases
    {store : TieredStore}
    (sound : store.SsdSound)
    (block : KvBlock)
    (tier query : Tier)
    (id : BlockId) :
    (store.putToTier block tier).2.copy query id = store.copy query id ∨
      id = block.id ∧
        ((store.putToTier block tier).2.copy query id).isSome = true := by
  cases accepted : (store.putToTier block tier).1 with
  | false =>
      rw [putToTier_of_rejected accepted]
      exact Or.inl rfl
  | true =>
      rw [sound.copy_putToTier accepted]
      split
      · next isBlock =>
          exact Or.inr ⟨isBlock.2, rfl⟩
      · exact Or.inl rfl

/-- Storing bytes leaves the bookkeeping alone. -/
@[simp] theorem recorded_putToTier
    (store : TieredStore)
    (block : KvBlock)
    (tier : Tier)
    (id : BlockId) :
    (store.putToTier block tier).2.Recorded id ↔ store.Recorded id := by
  simp [Recorded]

/-- Dropping bytes leaves the bookkeeping alone. -/
@[simp] theorem recorded_eraseFromTier
    (store : TieredStore)
    (erased : BlockId)
    (tier : Tier)
    (id : BlockId) :
    (store.eraseFromTier erased tier).2.Recorded id ↔
      store.Recorded id := by
  simp [Recorded]

/-- A hit adds its own block to the bookkeeping. -/
@[simp] theorem recorded_recordHit
    (store : TieredStore)
    (hit id : BlockId) :
    (store.recordHit hit).Recorded id ↔ id = hit ∨ store.Recorded id := by
  simp only [Recorded, recordHit, AList.mem_insert, Finset.mem_insert]
  tauto

/-- An erasure takes its own block out of the bookkeeping. -/
@[simp] theorem recorded_forget
    (store : TieredStore)
    (forgotten id : BlockId) :
    (store.forget forgotten).Recorded id ↔
      id ≠ forgotten ∧ store.Recorded id := by
  simp only [Recorded, forget, AList.mem_erase, Finset.mem_erase]
  tauto

/-- Clearing a visited bit records nothing. -/
theorem recorded_of_clearVisited
    {store : TieredStore}
    {cleared id : BlockId}
    (recorded : (store.clearVisited cleared).Recorded id) :
    store.Recorded id :=
  recorded.imp_right Finset.mem_of_mem_erase

end TieredStore

namespace CallPoint

/-- The next step counts a hit. -/
def records : CallPoint → Bool
  | .getRecord probe => !probe.missed
  | _ => false

end CallPoint

/-- Only the step that counts a hit adds to the bookkeeping. -/
theorem TierCall.recorded_advance
    {store : TieredStore}
    {call : TierCall}
    {id : BlockId}
    (recorded : (call.advance store).1.Recorded id) :
    store.Recorded id ∨ id = call.id ∧ call.point.records = true := by
  have detail := call.advance_detail store
  generalize call.advance store = result at detail recorded
  cases detail with
  | kept noDrop =>
      exact Or.inl recorded
  | recorded atRecord hit noDrop =>
      rcases (TieredStore.recorded_recordHit _ _ _).mp recorded with
        isHit | earlier
      · refine Or.inr ⟨isHit, ?_⟩
        simp [atRecord, CallPoint.records, hit]
      · exact Or.inl earlier
  | copied isMove different accepted =>
      exact Or.inl ((TieredStore.recorded_putToTier _ _ _ _).mp recorded)
  | dropped isDrop =>
      exact
        Or.inl ((TieredStore.recorded_eraseFromTier _ _ _ _).mp recorded)

/-- A call of the tiered store between two of its atomic steps. -/
inductive PendingCall where
  | move (call : TierCall)
  | put (block : KvBlock) (tiers : List Tier)
  | erase (id : BlockId) (tiers : List Tier) (undisturbed : Bool)
  | done
  deriving DecidableEq

namespace PendingCall

/--
One atomic step.  A put stops at the first tier that accepts the block; an
erasure wipes the bookkeeping once no tier is left.
-/
def advance
    (store : TieredStore) :
    PendingCall → TieredStore × PendingCall
  | .move call =>
      ((call.advance store).1,
        .move { call with point := (call.advance store).2 })
  | .put block (tier :: slower) =>
      let result := store.putToTier block tier
      (result.2, .put block (if result.1 then [] else slower))
  | .erase id (tier :: rest) undisturbed =>
      ((store.eraseFromTier id tier).2, .erase id rest undisturbed)
  | .erase id [] _ =>
      (store.forget id, .done)
  | call =>
      (store, call)

/-- Block whose undisturbed erasure the next step completes. -/
def retires : PendingCall → Option BlockId
  | .erase id [] true => some id
  | _ => none

/-- The call has returned. -/
def finished : PendingCall → Bool
  | .move call => call.point = .done
  | .put _ tiers => tiers = []
  | .erase _ _ _ => false
  | .done => true

/-- The call is about to drop the block from the tier. -/
def drops
    (id : BlockId)
    (tier : Tier) :
    PendingCall → Bool
  | .move call => call = ⟨id, .drop tier⟩
  | _ => false

/-- The call is an insertion of the block. -/
def puts
    (id : BlockId) :
    PendingCall → Bool
  | .put block (_ :: _) => block.id = id
  | _ => false

/-- The call is an erasure of the block. -/
def erases
    (id : BlockId) :
    PendingCall → Bool
  | .erase erased _ _ => erased = id
  | _ => false

/-- The call is an erasure of the block that no insertion has overlapped. -/
def clears
    (id : BlockId) :
    PendingCall → Bool
  | .erase erased _ undisturbed => erased = id && undisturbed
  | _ => false

/-- The call is such an erasure and has cleared the tier already. -/
def cleared
    (id : BlockId)
    (tier : Tier) :
    PendingCall → Bool
  | .erase erased tiers undisturbed =>
      erased = id && undisturbed && tier ∉ tiers
  | _ => false

/-- An insertion of the block begins. -/
def disturb
    (id : BlockId) :
    PendingCall → PendingCall
  | .erase erased tiers undisturbed =>
      .erase erased tiers (undisturbed && erased ≠ id)
  | call => call

/-- An insertion is of its own block. -/
theorem id_of_puts
    {block : KvBlock}
    {tiers : List Tier}
    {id : BlockId}
    (puts : (PendingCall.put block tiers).puts id = true) :
    block.id = id := by
  cases tiers with
  | nil =>
      simp [PendingCall.puts] at puts
  | cons tier slower =>
      simpa [PendingCall.puts] using puts

/-- Overlapping an erasure leaves its pending drops alone. -/
@[simp] theorem drops_disturb
    (disturbed id : BlockId)
    (tier : Tier)
    (call : PendingCall) :
    (call.disturb disturbed).drops id tier = call.drops id tier := by
  cases call <;> rfl

/-- An overlapped erasure still is one. -/
@[simp] theorem erases_disturb
    (disturbed id : BlockId)
    (call : PendingCall) :
    (call.disturb disturbed).erases id = call.erases id := by
  cases call <;> rfl

/-- Insertions are not affected by one that starts. -/
@[simp] theorem puts_disturb
    (disturbed id : BlockId)
    (call : PendingCall) :
    (call.disturb disturbed).puts id = call.puts id := by
  cases call <;> rfl

/-- Erasures of other blocks stay undisturbed. -/
theorem clears_disturb
    {disturbed id : BlockId}
    {call : PendingCall}
    (clears : (call.disturb disturbed).clears id = true) :
    id ≠ disturbed ∧ call.clears id = true := by
  cases call with
  | erase erased tiers undisturbed =>
      simp only [disturb, PendingCall.clears, Bool.and_eq_true,
        decide_eq_true_eq] at clears ⊢
      obtain ⟨isErased, clean, different⟩ := clears
      exact ⟨isErased ▸ different, isErased, clean⟩
  | _ =>
      simp [disturb, PendingCall.clears] at clears

/-- The tiers cleared for other blocks stay cleared. -/
theorem cleared_disturb
    {disturbed id : BlockId}
    {tier : Tier}
    {call : PendingCall}
    (cleared : (call.disturb disturbed).cleared id tier = true) :
    call.cleared id tier = true := by
  cases call with
  | erase erased tiers undisturbed =>
      simp only [disturb, PendingCall.cleared, Bool.and_eq_true,
        decide_eq_true_eq] at cleared ⊢
      obtain ⟨⟨isErased, clean, _⟩, passed⟩ := cleared
      exact ⟨⟨isErased, clean⟩, passed⟩
  | _ =>
      simp [disturb, PendingCall.cleared] at cleared

/-! ## Calls with nothing in between -/

/-- A call that takes a number of steps with nothing in between. -/
def alone
    (store : TieredStore) :
    Nat → PendingCall → TieredStore × PendingCall
  | 0, call => (store, call)
  | steps + 1, call =>
      alone (call.advance store).1 steps (call.advance store).2

/-- The call returns and leaves the store as given. -/
def Completes
    (store : TieredStore)
    (call : PendingCall)
    (after : TieredStore) : Prop :=
  ∃ steps last, alone store steps call = (after, last) ∧ last.finished = true

/-- Steps of a read or a demotion with nothing in between. -/
theorem alone_move
    (store : TieredStore)
    (id : BlockId)
    (steps : Nat)
    (point : CallPoint) :
    alone store steps (.move ⟨id, point⟩) =
      ((TierCall.alone store id steps point).1,
        .move ⟨id, (TierCall.alone store id steps point).2⟩) := by
  induction steps generalizing store point with
  | zero =>
      rfl
  | succ steps inductionHypothesis =>
      exact inductionHypothesis _ _

/-- An undisturbed read is the sequential one. -/
theorem completes_get
    (store : TieredStore)
    (id : BlockId) :
    Completes store (.move ⟨id, .get⟩) (store.get id).2 := by
  obtain ⟨steps, runs⟩ := TierCall.get_alone store id
  refine ⟨steps, .move ⟨id, .done⟩, ?_, by simp [finished]⟩
  rw [alone_move, runs]

/-- An undisturbed demotion is the sequential one. -/
theorem completes_demote
    (store : TieredStore)
    (id : BlockId) :
    Completes store (.move ⟨id, .demote⟩) (store.demote id).2 := by
  obtain ⟨steps, runs⟩ := TierCall.demote_alone store id
  refine ⟨steps, .move ⟨id, .done⟩, ?_, by simp [finished]⟩
  rw [alone_move, runs]

/-- An undisturbed insertion is the sequential one. -/
theorem completes_put
    (store : TieredStore)
    (block : KvBlock)
    (hint : Tier) :
    Completes store (.put block (TieredStore.fallthrough hint))
      (store.put block hint).2 := by
  unfold TieredStore.put
  generalize TieredStore.fallthrough hint = tiers
  induction tiers generalizing store with
  | nil =>
      exact ⟨0, .put block [], rfl, rfl⟩
  | cons tier slower inductionHypothesis =>
      unfold TieredStore.putInFirst
      cases accepted : (store.putToTier block tier).1 with
      | true =>
          refine ⟨1, .put block [], ?_, rfl⟩
          simp [alone, advance, accepted]
      | false =>
          obtain ⟨steps, last, runs, returned⟩ :=
            inductionHypothesis (store.putToTier block tier).2
          refine ⟨steps + 1, last, ?_, returned⟩
          simp [alone, advance, accepted, runs]

/-- An undisturbed erasure is the sequential one. -/
theorem completes_erase
    (store : TieredStore)
    (id : BlockId)
    (undisturbed : Bool) :
    Completes store (.erase id allTiers undisturbed) (store.erase id).2 :=
  ⟨4, .done, rfl, rfl⟩

end PendingCall

/-- The store, the calls made so far, and the record of erased blocks. -/
structure SharedStore where
  store : TieredStore
  calls : List PendingCall
  gone : List BlockId

/-- What happens next: a call starts or one in progress takes a step. -/
inductive SharedEvent where
  | startGet (id : BlockId)
  | startDemote (id : BlockId)
  | startPut (block : KvBlock) (hint : Tier)
  | startErase (id : BlockId)
  | clearVisited (id : BlockId)
  | advance (index : Nat)

namespace SharedStore

/-- Some call is of the given kind. -/
def HasCall
    (state : SharedStore)
    (kind : PendingCall → Bool) : Prop :=
  state.calls.any kind = true

instance
    (state : SharedStore)
    (kind : PendingCall → Bool) :
    Decidable (state.HasCall kind) :=
  inferInstanceAs (Decidable (_ = true))

/-- Start a call. -/
def start
    (state : SharedStore)
    (call : PendingCall) :
    SharedStore :=
  { state with calls := state.calls ++ [call] }

/-- An insertion starts: it overlaps the erasures of its block. -/
def startPut
    (state : SharedStore)
    (block : KvBlock)
    (hint : Tier) :
    SharedStore where
  store := state.store
  calls :=
    state.calls.map (PendingCall.disturb block.id) ++
      [.put block (TieredStore.fallthrough hint)]
  gone := state.gone.filter fun id => id ≠ block.id

/-- Let one call take its next atomic step. -/
def advance
    (state : SharedStore)
    (index : Nat)
    (call : PendingCall) :
    SharedStore where
  store := (call.advance state.store).1
  calls := state.calls.set index (call.advance state.store).2
  gone := call.retires.toList ++ state.gone

/-- The state after an event. -/
def next
    (state : SharedStore) :
    SharedEvent → SharedStore
  | .startGet id => state.start (.move ⟨id, .get⟩)
  | .startDemote id => state.start (.move ⟨id, .demote⟩)
  | .startPut block hint => state.startPut block hint
  | .startErase id =>
      state.start
        (.erase id allTiers (!decide (state.HasCall (PendingCall.puts id))))
  | .clearVisited id =>
      { state with store := state.store.clearVisited id }
  | .advance index =>
      match state.calls[index]? with
      | some call => state.advance index call
      | none => state

/-! ## What the calls of a state are after a step -/

/-- A call after a step was there before it or is the one that moved. -/
theorem hasCall_before_advance
    {state : SharedStore}
    {index : Nat}
    {call : PendingCall}
    {kind : PendingCall → Bool}
    (after : (state.advance index call).HasCall kind) :
    state.HasCall kind ∨ kind (call.advance state.store).2 = true := by
  obtain ⟨other, member, isKind⟩ := List.any_eq_true.mp after
  rcases List.mem_or_eq_of_mem_set member with earlier | isMoved
  · exact Or.inl (List.any_eq_true.mpr ⟨other, earlier, isKind⟩)
  · rw [isMoved] at isKind
    exact Or.inr isKind

/-- A call other than the one that moved stays as it is. -/
theorem hasCall_after_advance
    {state : SharedStore}
    {index : Nat}
    {call : PendingCall}
    {kind : PendingCall → Bool}
    (running : state.calls[index]? = some call)
    (before : state.HasCall kind) :
    (state.advance index call).HasCall kind ∨ kind call = true := by
  obtain ⟨other, member, isKind⟩ := List.any_eq_true.mp before
  obtain ⟨position, found⟩ := List.mem_iff_getElem?.mp member
  by_cases same : position = index
  · rw [same, running, Option.some.injEq] at found
    rw [found]
    exact Or.inr isKind
  · refine Or.inl (List.any_eq_true.mpr ⟨other, ?_, isKind⟩)
    refine List.mem_iff_getElem?.mpr ⟨position, ?_⟩
    simp only [advance, List.getElem?_set_ne (Ne.symm same), found]

/-- The call that moved is there after the step. -/
theorem hasCall_moved
    {state : SharedStore}
    {index : Nat}
    {call : PendingCall}
    {kind : PendingCall → Bool}
    (running : state.calls[index]? = some call)
    (isKind : kind (call.advance state.store).2 = true) :
    (state.advance index call).HasCall kind := by
  obtain ⟨inRange, _⟩ := List.getElem?_eq_some_iff.mp running
  exact List.any_eq_true.mpr ⟨_, List.mem_set inRange _, isKind⟩

/-- A step within a kind of call changes nothing about that kind. -/
theorem hasCall_advance_iff
    {state : SharedStore}
    {index : Nat}
    {call : PendingCall}
    {kind : PendingCall → Bool}
    (running : state.calls[index]? = some call)
    (same : kind (call.advance state.store).2 = kind call) :
    (state.advance index call).HasCall kind ↔ state.HasCall kind := by
  constructor
  · intro after
    rcases hasCall_before_advance after with before | moved
    · exact before
    · refine List.any_eq_true.mpr
        ⟨call, List.mem_of_getElem? running, ?_⟩
      rw [← same]
      exact moved
  · intro before
    rcases hasCall_after_advance running before with after | isCall
    · exact after
    · refine hasCall_moved running ?_
      rw [same]
      exact isCall

/-- Starting a call of another kind changes nothing about a kind. -/
theorem hasCall_start_iff
    {state : SharedStore}
    {call : PendingCall}
    {kind : PendingCall → Bool}
    (other : kind call = false) :
    (state.start call).HasCall kind ↔ state.HasCall kind := by
  simp [HasCall, start, other]

/-- The calls once an insertion has started. -/
theorem hasCall_startPut_iff
    {state : SharedStore}
    {block : KvBlock}
    {hint : Tier}
    {kind : PendingCall → Bool} :
    (state.startPut block hint).HasCall kind ↔
      state.HasCall (fun call => kind (call.disturb block.id)) ∨
        kind (.put block (TieredStore.fallthrough hint)) = true := by
  simp [HasCall, startPut, List.any_map, Function.comp_def]

/-- A call that has returned takes no further step. -/
theorem advance_of_idle
    {state : SharedStore}
    {index : Nat}
    {call : PendingCall}
    (running : state.calls[index]? = some call)
    (idle : call.advance state.store = (state.store, call))
    (retiresNone : call.retires = none) :
    state.advance index call = state := by
  obtain ⟨inRange, isCall⟩ := List.getElem?_eq_some_iff.mp running
  unfold advance
  rw [idle, retiresNone, ← isCall, List.set_getElem_self]
  rfl

end SharedStore

end Lethe
