import Lethe.TieredStore
import Lethe.Library.LabelledRun

namespace Lethe

/-!
# Concurrent reads and demotions

Each tier store locks itself for the length of one call, and the counters have
a lock of their own, but no lock spans two of them.  A read or a demotion is
therefore a sequence of atomic steps between which any other call may run.
Both move a block by copying it first and dropping the old copy afterwards;
`drop` is the point in between.
-/

/-- Where a `Get` or `Demote` call stands between two atomic steps. -/
inductive CallPoint where
  | getRead (tier : Tier) (probe : Probe)
  | getRecord (probe : Probe)
  | getPromote
      (bytes : List UInt8)
      (found target : Tier)
      (different : target ≠ found)
  | demoteReadHbm
  | demoteReadDram
  | demoteToDram (bytes : List UInt8)
  | demoteToSsd
      (bytes : List UInt8)
      (source : Tier)
      (different : Tier.ssd ≠ source)
  | drop (source : Tier)
  | done
  deriving DecidableEq

/-- A call in progress. -/
structure TierCall where
  id : BlockId
  point : CallPoint
  deriving DecidableEq

/-- The store together with the calls in progress. -/
structure ConcurrentStore where
  store : TieredStore
  calls : List TierCall

namespace CallPoint

/-- First step of a read. -/
def get : CallPoint :=
  .getRead .hbm Probe.start

/-- First step of a demotion. -/
def demote : CallPoint :=
  .demoteReadHbm

/-- Next step of a read that has found no bytes up to the given tier. -/
def afterEmptyRead
    (tier : Tier)
    (probe : Probe) :
    CallPoint :=
  match tier with
  | .hbm => .getRead .dram probe
  | .dram => .getRead .ssd probe
  | .ssd => .getRecord probe

/-- Tier into which the next step copies the block, if it does. -/
def putTarget : CallPoint → Option Tier
  | .getPromote _ _ target _ => some target
  | .demoteToDram _ => some .dram
  | .demoteToSsd _ _ _ => some .ssd
  | _ => none

/-- A copy that the next step makes if the target has room. -/
structure PendingMove where
  bytes : List UInt8
  target : Tier
  source : Tier
  deriving DecidableEq

/-- The copy that the next step tries to make. -/
def putMove : CallPoint → Option PendingMove
  | .getPromote bytes found target _ => some ⟨bytes, target, found⟩
  | .demoteToDram bytes => some ⟨bytes, .dram, .hbm⟩
  | .demoteToSsd bytes source _ => some ⟨bytes, .ssd, source⟩
  | _ => none

/-- The target of the next copy. -/
theorem putTarget_eq_putMove
    (point : CallPoint) :
    point.putTarget = point.putMove.map PendingMove.target := by
  cases point <;> rfl

end CallPoint

namespace TierCall

/-- Copy bytes into a tier; on success the source remains to be dropped. -/
def copyInto
    (store : TieredStore)
    (id : BlockId)
    (bytes : List UInt8)
    (target source : Tier)
    (otherwise : CallPoint) :
    TieredStore × CallPoint :=
  let moved :=
    store.putToTier (TieredStore.relocated id bytes target) target
  (moved.2, if moved.1 then .drop source else otherwise)

/-- One atomic step of a call. -/
def advance
    (store : TieredStore)
    (call : TierCall) :
    TieredStore × CallPoint :=
  match call.point with
  | .getRead tier probe =>
      let noted := probe.note tier (store.copy tier call.id)
      (store,
        if noted.bytes = [] then
          .afterEmptyRead tier noted
        else
          .getRecord noted)
  | .getRecord probe =>
      if probe.missed then
        (store, .done)
      else if promotes :
          store.promotes (store.nextCount call.id) probe.found = true then
        (store.recordHit call.id,
          .getPromote probe.bytes probe.found
            (store.promotionTarget probe.found)
            (TieredStore.promotionTarget_ne_of_promotes promotes))
      else
        (store.recordHit call.id, .done)
  | .getPromote bytes found target _ =>
      copyInto store call.id bytes target found .done
  | .demoteReadHbm =>
      match store.copy .hbm call.id with
      | some bytes => (store, .demoteToDram bytes)
      | none => (store, .demoteReadDram)
  | .demoteReadDram =>
      match store.copy .dram call.id with
      | some bytes => (store, .demoteToSsd bytes .dram (by decide))
      | none => (store, .done)
  | .demoteToDram bytes =>
      copyInto store call.id bytes .dram .hbm
        (.demoteToSsd bytes .hbm (by decide))
  | .demoteToSsd bytes source _ =>
      copyInto store call.id bytes .ssd source .done
  | .drop source => ((store.eraseFromTier call.id source).2, .done)
  | .done => (store, .done)

/-- What one atomic step does, and at which point of the call. -/
inductive Detail
    (store : TieredStore)
    (call : TierCall) :
    TieredStore × CallPoint → Prop where
  | kept
      {point : CallPoint}
      (noDrop : ∀ source, point ≠ .drop source) :
      Detail store call (store, point)
  | recorded
      {probe : Probe}
      {point : CallPoint}
      (atRecord : call.point = .getRecord probe)
      (hit : probe.missed = false)
      (noDrop : ∀ source, point ≠ .drop source) :
      Detail store call (store.recordHit call.id, point)
  | copied
      {move : CallPoint.PendingMove}
      (isMove : call.point.putMove = some move)
      (different : move.target ≠ move.source)
      (accepted :
        (store.putToTier
          (TieredStore.relocated call.id move.bytes move.target)
          move.target).1 = true) :
      Detail store call
        ((store.putToTier
          (TieredStore.relocated call.id move.bytes move.target)
          move.target).2,
          .drop move.source)
  | dropped
      {source : Tier}
      (isDrop : call.point = .drop source) :
      Detail store call ((store.eraseFromTier call.id source).2, .done)

/-- A copy into a tier is rejected without a change or accepted. -/
theorem copyInto_detail
    {store : TieredStore}
    {call : TierCall}
    (move : CallPoint.PendingMove)
    {otherwise : CallPoint}
    (isMove : call.point.putMove = some move)
    (different : move.target ≠ move.source)
    (noDrop : ∀ source, otherwise ≠ .drop source) :
    Detail store call
      (copyInto store call.id move.bytes move.target move.source
        otherwise) := by
  unfold copyInto
  cases accepted :
      (store.putToTier
        (TieredStore.relocated call.id move.bytes move.target)
        move.target).1 with
  | true =>
      simp only [accepted, ↓reduceIte]
      exact .copied isMove different accepted
  | false =>
      simp only [accepted, Bool.false_eq_true, ↓reduceIte,
        TieredStore.putToTier_of_rejected accepted]
      exact .kept noDrop

/-- Every atomic step does one of the listed things. -/
theorem advance_detail
    (store : TieredStore)
    (call : TierCall) :
    Detail store call (call.advance store) := by
  unfold advance
  cases point : call.point with
  | getRead tier probe =>
      refine .kept ?_
      intro source
      split
      · cases tier <;> simp [CallPoint.afterEmptyRead]
      · simp
  | getRecord probe =>
      dsimp only
      split
      · exact .kept (by simp)
      · next hit =>
          split
          · exact .recorded point (by simpa using hit) (by simp)
          · exact .recorded point (by simpa using hit) (by simp)
  | getPromote bytes found target different =>
      exact
        copyInto_detail ⟨bytes, target, found⟩
          (by rw [point]; rfl) different (by simp)
  | demoteReadHbm =>
      dsimp only
      split
      · exact .kept (by simp)
      · exact .kept (by simp)
  | demoteReadDram =>
      dsimp only
      split
      · exact .kept (by simp)
      · exact .kept (by simp)
  | demoteToDram bytes =>
      exact
        copyInto_detail ⟨bytes, .dram, .hbm⟩
          (by rw [point]; rfl) (by simp) (by simp)
  | demoteToSsd bytes source different =>
      exact
        copyInto_detail ⟨bytes, .ssd, source⟩
          (by rw [point]; rfl) different (by simp)
  | drop source =>
      exact .dropped point
  | done =>
      exact .kept (by simp)

/-- A call that takes a number of steps with nothing in between. -/
def alone
    (store : TieredStore)
    (id : BlockId) :
    Nat → CallPoint → TieredStore × CallPoint
  | 0, point => (store, point)
  | steps + 1, point =>
      let stepped := advance store ⟨id, point⟩
      alone stepped.1 id steps stepped.2

variable (store : TieredStore) (id : BlockId)

/-- The reads of an undisturbed `Get` are the probe of the store. -/
theorem get_reads_alone :
    ∃ steps,
      alone store id steps .get = (store, .getRecord (store.probe id)) := by
  unfold CallPoint.get TieredStore.probe
  generalize isHbm : Probe.start.note .hbm (store.copy .hbm id) = afterHbm
  by_cases hbmBytes : afterHbm.bytes = []
  · generalize isDram :
      afterHbm.note .dram (store.copy .dram id) = afterDram
    by_cases dramBytes : afterDram.bytes = []
    · refine ⟨3, ?_⟩
      simp [alone, advance, isHbm, hbmBytes, CallPoint.afterEmptyRead,
        isDram, dramBytes]
    · refine ⟨2, ?_⟩
      rw [Probe.note_of_nonempty dramBytes]
      simp [alone, advance, isHbm, hbmBytes, CallPoint.afterEmptyRead,
        isDram, dramBytes]
  · refine ⟨1, ?_⟩
    rw [Probe.note_of_nonempty hbmBytes, Probe.note_of_nonempty hbmBytes]
    simp [alone, advance, isHbm, hbmBytes]

/-- Steps taken one after the other. -/
theorem alone_add
    (first second : Nat)
    (point : CallPoint) :
    alone store id (first + second) point =
      alone (alone store id first point).1 id second
        (alone store id first point).2 := by
  induction first generalizing store point with
  | zero =>
      simp [alone]
  | succ first inductionHypothesis =>
      rw [Nat.succ_add]
      simp only [alone]
      exact inductionHypothesis _ _

/-- An undisturbed call of `Get` is the sequential read. -/
theorem get_alone :
    ∃ steps, alone store id steps .get = ((store.get id).2, .done) := by
  obtain ⟨reads, afterReads⟩ := get_reads_alone store id
  have later :
      ∃ steps,
        alone store id steps (.getRecord (store.probe id)) =
          ((store.get id).2, .done) := by
    cases missed : (store.probe id).missed with
    | true =>
        exact ⟨1, by simp [alone, advance, TieredStore.get, missed]⟩
    | false =>
        by_cases promotes :
            store.promotes (store.nextCount id) (store.probe id).found =
              true
        · cases accepted :
              ((store.recordHit id).putToTier
                (TieredStore.relocated id (store.probe id).bytes
                  (store.promotionTarget (store.probe id).found))
                (store.promotionTarget (store.probe id).found)).1 with
          | true =>
              refine ⟨3, ?_⟩
              simp [alone, advance, copyInto, TieredStore.get, missed,
                promotes, accepted]
          | false =>
              refine ⟨2, ?_⟩
              simp [alone, advance, copyInto, TieredStore.get, missed,
                promotes, accepted]
        · refine ⟨1, ?_⟩
          simp [alone, advance, TieredStore.get, missed, promotes]
  obtain ⟨rest, afterRest⟩ := later
  refine ⟨reads + rest, ?_⟩
  rw [alone_add, afterReads]
  exact afterRest

/-- An undisturbed call of `Demote` is the sequential demotion. -/
theorem demote_alone :
    ∃ steps,
      alone store id steps .demote = ((store.demote id).2, .done) := by
  unfold CallPoint.demote
  cases inHbm : store.copy .hbm id with
  | some bytes =>
      cases toDram :
          (store.putToTier
            (TieredStore.relocated id bytes .dram) .dram).1 with
      | true =>
          refine ⟨3, ?_⟩
          simp [alone, advance, copyInto, TieredStore.demote, inHbm, toDram]
      | false =>
          have unchanged := TieredStore.putToTier_of_rejected toDram
          cases toSsd :
              (store.putToTier
                (TieredStore.relocated id bytes .ssd) .ssd).1 with
          | true =>
              refine ⟨4, ?_⟩
              simp [alone, advance, copyInto, TieredStore.demote, inHbm,
                toDram, unchanged, toSsd]
          | false =>
              refine ⟨3, ?_⟩
              simp [alone, advance, copyInto, TieredStore.demote, inHbm,
                toDram, unchanged, toSsd]
  | none =>
      cases inDram : store.copy .dram id with
      | some bytes =>
          cases toSsd :
              (store.putToTier
                (TieredStore.relocated id bytes .ssd) .ssd).1 with
          | true =>
              refine ⟨4, ?_⟩
              simp [alone, advance, copyInto, TieredStore.demote, inHbm,
                inDram, toSsd]
          | false =>
              refine ⟨3, ?_⟩
              simp [alone, advance, copyInto, TieredStore.demote, inHbm,
                inDram, toSsd]
      | none =>
          refine ⟨2, ?_⟩
          simp [alone, advance, TieredStore.demote, inHbm, inDram]

end TierCall

/-- What happens next: a call starts or one in progress takes a step. -/
inductive CallEvent where
  | startGet (id : BlockId)
  | startDemote (id : BlockId)
  | advance (index : Nat)
  deriving DecidableEq

namespace ConcurrentStore

/-- Start a call. -/
def start
    (state : ConcurrentStore)
    (id : BlockId)
    (point : CallPoint) :
    ConcurrentStore :=
  { state with calls := state.calls ++ [⟨id, point⟩] }

/-- Let one call in progress take its next atomic step. -/
def advance
    (state : ConcurrentStore)
    (index : Nat)
    (call : TierCall) :
    ConcurrentStore where
  store := (call.advance state.store).1
  calls :=
    state.calls.set index
      { call with point := (call.advance state.store).2 }

/-- The state after an event, if the event is possible. -/
def next
    (state : ConcurrentStore) :
    CallEvent → Option ConcurrentStore
  | .startGet id => some (state.start id .get)
  | .startDemote id => some (state.start id .demote)
  | .advance index =>
      (state.calls[index]?).map fun call => state.advance index call

/-- Any interleaving of any number of reads and demotions. -/
def Step
    (before : ConcurrentStore)
    (event : CallEvent)
    (after : ConcurrentStore) : Prop :=
  before.next event = some after

/--
The event completes a copy into a tier from which another call, having copied
the same block elsewhere, is about to drop it.
-/
def disturbs
    (state : ConcurrentStore) :
    CallEvent → Bool
  | .advance index =>
      match state.calls[index]? with
      | some call =>
          match call.point.putTarget, (call.advance state.store).2 with
          | some target, .drop _ =>
              state.calls.any fun other =>
                other.id = call.id && other.point = .drop target
          | _, _ => false
      | none => false
  | _ => false

/-- The state after an event that disturbs no other call. -/
def undisturbedNext
    (state : ConcurrentStore)
    (event : CallEvent) :
    Option ConcurrentStore :=
  if state.disturbs event then none else state.next event

/-- A step that disturbs no other call. -/
def UndisturbedStep
    (before : ConcurrentStore)
    (event : CallEvent)
    (after : ConcurrentStore) : Prop :=
  before.undisturbedNext event = some after

/-- An undisturbed copy lands where nobody is about to drop it. -/
theorem not_drop_of_undisturbed
    {state : ConcurrentStore}
    {index : Nat}
    {call : TierCall}
    {target source : Tier}
    (undisturbed : state.disturbs (.advance index) = false)
    (running : state.calls[index]? = some call)
    (isPut : call.point.putTarget = some target)
    (copied : (call.advance state.store).2 = .drop source)
    {other : TierCall}
    (member : other ∈ state.calls)
    (sameId : other.id = call.id) :
    other.point ≠ .drop target := by
  simp only [disturbs, running, isPut, copied, List.any_eq_false,
    Bool.and_eq_true, decide_eq_true_eq, not_and] at undisturbed
  exact undisturbed other member sameId

/-- Some tier holds the block and no call is about to drop it from there. -/
def Secure
    (state : ConcurrentStore)
    (id : BlockId) : Prop :=
  ∃ tier,
    (state.store.copy tier id).isSome = true ∧
      ∀ call ∈ state.calls,
        call.id = id →
        call.point ≠ .drop tier

/-- What holds between any two steps of an undisturbed run. -/
structure Secured
    (ids : BlockId → Prop)
    (state : ConcurrentStore) : Prop where
  consistent : state.store.SsdConsistent
  secure : ∀ id, ids id → state.Secure id

/-- A copy stays secure if the call that moved on does not drop it. -/
theorem Secure.of_calls
    {before after : ConcurrentStore}
    {moved : TierCall}
    (calls :
      ∀ other ∈ after.calls, other ∈ before.calls ∨ other = moved)
    {id : BlockId}
    {tier : Tier}
    (held : (after.store.copy tier id).isSome = true)
    (free :
      ∀ other ∈ before.calls,
        other.id = id →
        other.point ≠ .drop tier)
    (movedFree : moved.id = id → moved.point ≠ .drop tier) :
    after.Secure id := by
  refine ⟨tier, held, ?_⟩
  intro other member sameId
  rcases calls other member with earlier | isMoved
  · exact free other earlier sameId
  · subst isMoved
    exact movedFree sameId

/-- Starting a call drops nothing. -/
theorem Secured.start
    {ids : BlockId → Prop}
    {state : ConcurrentStore}
    (secured : state.Secured ids)
    (id : BlockId)
    {point : CallPoint}
    (noDrop : ∀ source, point ≠ .drop source) :
    (state.start id point).Secured ids := by
  have calls :
      ∀ other ∈ (state.start id point).calls,
        other ∈ state.calls ∨ other = ⟨id, point⟩ := by
    intro other member
    simpa [ConcurrentStore.start] using member
  refine ⟨secured.consistent, ?_⟩
  intro kept isKept
  obtain ⟨tier, held, free⟩ := secured.secure kept isKept
  exact .of_calls calls held free fun _ => noDrop tier

/-- An undisturbed atomic step leaves every block a secure copy. -/
theorem Secured.advance
    {ids : BlockId → Prop}
    {state : ConcurrentStore}
    (secured : state.Secured ids)
    {index : Nat}
    {call : TierCall}
    (running : state.calls[index]? = some call)
    (undisturbed : state.disturbs (.advance index) = false) :
    (state.advance index call).Secured ids := by
  have isRunning : call ∈ state.calls := List.mem_of_getElem? running
  have undisturbedHere :
      ∀ {target source},
        call.point.putTarget = some target →
        (call.advance state.store).2 = .drop source →
        ∀ other ∈ state.calls,
          other.id = call.id →
          other.point ≠ .drop target :=
    fun isPut copied _ member sameId =>
      not_drop_of_undisturbed undisturbed running isPut copied member sameId
  have callsAfter :
      ∀ other ∈ (state.advance index call).calls,
        other ∈ state.calls ∨
          other = { call with point := (call.advance state.store).2 } :=
    fun other member => List.mem_or_eq_of_mem_set member
  have storeAfter :
      (state.advance index call).store = (call.advance state.store).1 :=
    rfl
  generalize state.advance index call = after at callsAfter storeAfter ⊢
  have detail := call.advance_detail state.store
  generalize call.advance state.store = result
    at detail callsAfter storeAfter undisturbedHere
  cases detail with
  | kept noDrop =>
      refine ⟨by rw [storeAfter]; exact secured.consistent, ?_⟩
      intro kept isKept
      obtain ⟨tier, held, free⟩ := secured.secure kept isKept
      refine .of_calls callsAfter ?_ free fun _ => noDrop tier
      rwa [storeAfter]
  | recorded atRecord hit noDrop =>
      have consistent :=
        TieredStore.ssdConsistent_stable.recordHit secured.consistent call.id
      refine ⟨by rw [storeAfter]; exact consistent, ?_⟩
      intro kept isKept
      obtain ⟨tier, held, free⟩ := secured.secure kept isKept
      refine .of_calls callsAfter ?_ free fun _ => noDrop tier
      rwa [storeAfter, TieredStore.recordHit_copy]
  | @copied move isMove different accepted =>
      have isPut : call.point.putTarget = some move.target := by
        rw [CallPoint.putTarget_eq_putMove, isMove]
        rfl
      have copies := TieredStore.copy_putToTier_of_accepted
        secured.consistent accepted
      refine ⟨by rw [storeAfter]; exact secured.consistent.putToTier _ _, ?_⟩
      intro kept isKept
      by_cases same : kept = call.id
      · subst same
        refine .of_calls callsAfter ?_ (undisturbedHere isPut rfl) ?_
        · rw [storeAfter, copies]
          simp
        · simp [Ne.symm different]
      · obtain ⟨tier, held, free⟩ := secured.secure kept isKept
        refine .of_calls callsAfter ?_ free ?_
        · rw [storeAfter, copies]
          simpa [same] using held
        · intro sameId
          exact (same sameId.symm).elim
  | dropped isDrop =>
      rename_i source
      refine ⟨by rw [storeAfter]; exact secured.consistent.eraseFromTier _ _,
        ?_⟩
      intro kept isKept
      obtain ⟨tier, held, free⟩ := secured.secure kept isKept
      have elsewhere : ¬ (tier = source ∧ kept = call.id) := by
        rintro ⟨sameTier, sameId⟩
        refine free call isRunning sameId.symm ?_
        rw [isDrop, sameTier]
      refine .of_calls callsAfter ?_ free ?_
      · rw [storeAfter, TieredStore.copy_eraseFromTier secured.consistent,
          if_neg elsewhere]
        exact held
      · simp

/-- One undisturbed step. -/
theorem Secured.step
    {ids : BlockId → Prop}
    {before after : ConcurrentStore}
    {event : CallEvent}
    (secured : before.Secured ids)
    (step : UndisturbedStep before event after) :
    after.Secured ids := by
  unfold UndisturbedStep undisturbedNext at step
  split at step
  · simp at step
  · next undisturbed =>
      simp only [Bool.not_eq_true] at undisturbed
      cases event with
      | startGet id =>
          simp only [next, Option.some.injEq] at step
          subst step
          exact secured.start id (by simp [CallPoint.get])
      | startDemote id =>
          simp only [next, Option.some.injEq] at step
          subst step
          exact secured.start id (by simp [CallPoint.demote])
      | advance index =>
          simp only [next, Option.map_eq_some_iff] at step
          obtain ⟨call, running, isAfter⟩ := step
          subst isAfter
          exact secured.advance running undisturbed

end ConcurrentStore

/--
In every run without a copy into a tier that another call is about to clear,
a block that is resident at the start is resident in every state reached.
-/
theorem resident_throughout_undisturbed_run
    {initial final : ConcurrentStore}
    {events : List CallEvent}
    (consistent : initial.store.SsdConsistent)
    (idle : initial.calls = [])
    (run :
      LabelledRun ConcurrentStore.UndisturbedStep initial events final)
    (id : BlockId)
    (resident : initial.store.Resident id) :
    final.store.Resident id := by
  have secured : initial.Secured initial.store.Resident := by
    refine ⟨consistent, ?_⟩
    rintro kept ⟨tier, held⟩
    exact ⟨tier, held, by simp [idle]⟩
  have securedAfter :=
    run.invariant _ (fun holds step => holds.step step) secured
  obtain ⟨tier, held, _⟩ := securedAfter.secure id resident
  exact ⟨tier, held⟩

/-! ## A block lost between a promotion and a demotion -/

/-- Identity of the contended block. -/
def contendedId : BlockId :=
  ⟨.fill 5, 0, 0, 0⟩

/-- The block is in DRAM, below an empty HBM tier; no call is in progress. -/
def contendedStore : ConcurrentStore where
  store :=
    ((TieredStore.create { hbmBytes := 4, dramBytes := 4 } fun _ => 0).put
      { id := contendedId, data := [1, 2] } .dram).2
  calls := []

/-- Two reads in a row; the second one copies the block to HBM. -/
def promotionEvents : List CallEvent :=
  [ .startGet contendedId, .advance 0, .advance 0, .advance 0,
    .startGet contendedId, .advance 1, .advance 1, .advance 1, .advance 1 ]

/-- A whole demotion, and only then the promotion drops the DRAM copy. -/
def overlappingEvents : List CallEvent :=
  promotionEvents ++
    [ .startDemote contendedId, .advance 2, .advance 2, .advance 2,
      .advance 1 ]

/-- The promotion finishes before the demotion starts. -/
def separateEvents : List CallEvent :=
  promotionEvents ++
    [ .advance 1, .startDemote contendedId, .advance 2, .advance 2,
      .advance 2 ]

/-- The store is well formed and holds the block. -/
theorem contendedStore_resident :
    contendedStore.store.SsdConsistent ∧
      contendedStore.store.Resident contendedId := by
  constructor
  · have fresh :=
      TieredStore.create_zero_copies { hbmBytes := 4, dramBytes := 4 }
        (by simp) (fun _ _ => True)
    exact (fresh.put trivial .dram).consistent
  · decide +kernel

/--
The second read has copied the block to HBM when the demotion copies it back:
DRAM still holds it and reports success, the demotion drops the HBM copy, and
then the read drops the DRAM copy.
-/
theorem block_lost_between_promotion_and_demotion :
    contendedStore.store.SsdConsistent ∧
      contendedStore.calls = [] ∧
      contendedStore.store.Resident contendedId ∧
      ∃ final,
        LabelledRun ConcurrentStore.Step contendedStore overlappingEvents
            final ∧
          ¬ final.store.Resident contendedId := by
  have lost :
      (overlappingEvents.foldlM ConcurrentStore.next contendedStore).map
        (fun final => decide (final.store.Resident contendedId)) =
          some false := by
    decide +kernel
  obtain ⟨final, executed, gone⟩ := Option.map_eq_some_iff.mp lost
  exact
    ⟨contendedStore_resident.1, rfl, contendedStore_resident.2, final,
      LabelledRun.of_foldlM executed, of_decide_eq_false gone⟩

theorem resident_throughout_undisturbed_run_separate :
    ∃ final,
      LabelledRun ConcurrentStore.UndisturbedStep contendedStore
          separateEvents final ∧
        final.store.Resident contendedId := by
  have runs :
      (separateEvents.foldlM ConcurrentStore.undisturbedNext
        contendedStore).isSome = true := by
    decide +kernel
  obtain ⟨final, executed⟩ := Option.isSome_iff_exists.mp runs
  have run := LabelledRun.of_foldlM executed
  exact
    ⟨final, run,
      resident_throughout_undisturbed_run contendedStore_resident.1 rfl run
        contendedId contendedStore_resident.2⟩

end Lethe
