import Lethe.SharedStore

namespace Lethe

/-!
# Bookkeeping of concurrent store calls

A counter and a visited bit should be there for resident blocks only, and an
erased block should be gone.  A read that is overtaken by an erasure counts its
hit afterwards or copies the block back.  If no read or demotion does so, the
bookkeeping is right whenever no call is in progress.
-/

namespace SharedStore

/-- No call is in progress. -/
def Quiet
    (state : SharedStore) : Prop :=
  ∀ call ∈ state.calls, call.finished = true

/-- The bookkeeping is about resident blocks, and erased ones are gone. -/
structure Tidy
    (state : SharedStore) : Prop where
  recorded :
    ∀ id, state.store.Recorded id → state.store.Resident id
  gone :
    ∀ id ∈ state.gone, ¬ state.store.Resident id

/-- Some tier holds the block and no call is about to drop it from there. -/
def Secure
    (state : SharedStore)
    (id : BlockId) : Prop :=
  ∃ tier ∈ allTiers,
    (state.store.copy tier id).isSome = true ∧
      ¬ state.HasCall (PendingCall.drops id tier)

/-- The block has a secure copy, or its bookkeeping is about to be wiped. -/
def Sheltered
    (state : SharedStore)
    (id : BlockId) : Prop :=
  state.Secure id ∨ state.HasCall (PendingCall.erases id)

/-- An erasure that no insertion overlaps or follows has cleared the tier. -/
def Vacated
    (state : SharedStore)
    (id : BlockId)
    (tier : Tier) : Prop :=
  id ∈ state.gone ∨ state.HasCall (PendingCall.cleared id tier)

/--
The copy does not bring back a block that is being erased.  If the block is
recorded, then once it is copied some tier other than the source holds it, and
no call is about to drop it from there.
-/
def SafeCopy
    (state : SharedStore)
    (id : BlockId)
    (move : CallPoint.PendingMove) : Prop :=
  ¬ state.Vacated id move.target ∧
    (state.store.Recorded id →
      state.HasCall (PendingCall.erases id) ∨
        ∃ tier ∈ allTiers,
          tier ≠ move.source ∧
            (tier = move.target ∨
              (state.store.copy tier id).isSome = true) ∧
            ¬ state.HasCall (PendingCall.drops id tier))

/--
A hit is counted only for a block that is there to stay or being erased, and a
copy that the target has room for is safe.
-/
def CarefulStep
    (state : SharedStore)
    (call : TierCall) : Prop :=
  (call.point.records = true → state.Sheltered call.id) ∧
    ∀ move ∈ call.point.putMove,
      state.store.TierHasRoom
        (TieredStore.relocated call.id move.bytes move.target)
        move.target →
      state.SafeCopy call.id move

/-- The event is no careless step of a read or a demotion. -/
def Careful
    (state : SharedStore) :
    SharedEvent → Prop
  | .advance index =>
      match state.calls[index]? with
      | some (.move call) => state.CarefulStep call
      | _ => True
  | _ => True

instance
    (state : SharedStore)
    (id : BlockId) :
    Decidable (state.Sheltered id) :=
  inferInstanceAs (Decidable ((∃ tier ∈ allTiers, _ ∧ _) ∨ _))

instance
    (state : SharedStore)
    (id : BlockId)
    (tier : Tier) :
    Decidable (state.Vacated id tier) :=
  inferInstanceAs (Decidable (_ ∨ _))

instance
    (state : SharedStore)
    (id : BlockId)
    (move : CallPoint.PendingMove) :
    Decidable (state.SafeCopy id move) :=
  inferInstanceAs (Decidable (_ ∧ (_ → _ ∨ ∃ tier ∈ allTiers, _)))

instance
    (state : SharedStore)
    (call : TierCall) :
    Decidable (state.CarefulStep call) :=
  inferInstanceAs (Decidable ((_ → _) ∧ ∀ move ∈ call.point.putMove, _ → _))

instance
    (state : SharedStore)
    (event : SharedEvent) :
    Decidable (state.Careful event) := by
  unfold Careful
  split
  · split <;> infer_instance
  · infer_instance

/-! ## The invariant -/

/-- What holds between any two steps of a careful run. -/
structure Kept
    (state : SharedStore) : Prop where
  sound : state.store.SsdSound
  sheltered :
    ∀ id, state.store.Recorded id → state.Sheltered id
  vacated :
    ∀ id tier, state.Vacated id tier → state.store.copy tier id = none
  apart :
    ∀ id,
      state.HasCall (PendingCall.puts id) →
      id ∉ state.gone ∧ ¬ state.HasCall (PendingCall.clears id)

/-- With no call in progress the invariant says that the state is tidy. -/
theorem Kept.tidy
    {state : SharedStore}
    (kept : state.Kept)
    (quiet : state.Quiet) :
    state.Tidy := by
  constructor
  · intro id recorded
    rcases kept.sheltered id recorded with ⟨tier, _, held, _⟩ | erasing
    · exact ⟨tier, held⟩
    · obtain ⟨call, member, erases⟩ := List.any_eq_true.mp erasing
      have finished := quiet call member
      cases call with
      | erase erased tiers undisturbed =>
          simp [PendingCall.finished] at finished
      | _ =>
          simp [PendingCall.erases] at erases
  · rintro id isGone ⟨tier, held⟩
    rw [kept.vacated id tier (Or.inl isGone)] at held
    simp at held

/-- An erasure that has cleared a tier is an undisturbed one. -/
theorem clears_of_cleared
    {id : BlockId}
    {tier : Tier}
    {call : PendingCall}
    (cleared : call.cleared id tier = true) :
    call.clears id = true := by
  cases call with
  | erase erased tiers undisturbed =>
      simp only [PendingCall.cleared, Bool.and_eq_true] at cleared
      simp only [PendingCall.clears, Bool.and_eq_true]
      exact cleared.1
  | _ =>
      simp [PendingCall.cleared] at cleared

/-- Insertions stay apart from erasures where neither kind is new. -/
theorem Kept.apart_mono
    {before after : SharedStore}
    (kept : before.Kept)
    {id : BlockId}
    (sameGone : after.gone = before.gone)
    (clears :
      after.HasCall (PendingCall.clears id) →
      before.HasCall (PendingCall.clears id))
    (puts : before.HasCall (PendingCall.puts id)) :
    id ∉ after.gone ∧ ¬ after.HasCall (PendingCall.clears id) := by
  obtain ⟨notGone, notClears⟩ := kept.apart id puts
  rw [sameGone]
  exact ⟨notGone, fun isClearing => notClears (clears isClearing)⟩

/-- A block that is being inserted is not one that was erased. -/
theorem Kept.not_vacated_of_puts
    {state : SharedStore}
    (kept : state.Kept)
    {id : BlockId}
    (puts : state.HasCall (PendingCall.puts id))
    (tier : Tier) :
    ¬ state.Vacated id tier := by
  obtain ⟨notGone, notClears⟩ := kept.apart id puts
  rintro (isGone | cleared)
  · exact notGone isGone
  · obtain ⟨call, member, isCleared⟩ := List.any_eq_true.mp cleared
    exact notClears
      (List.any_eq_true.mpr ⟨call, member, clears_of_cleared isCleared⟩)

/-! ## Steps of reads and demotions -/

/-- Only the moved call can be newly about to drop a block. -/
theorem drops_before_move
    {state : SharedStore}
    {index : Nat}
    {call : TierCall}
    {id : BlockId}
    {tier : Tier}
    (free : ¬ state.HasCall (PendingCall.drops id tier))
    (movedFree :
      id = call.id → (call.advance state.store).2 ≠ .drop tier) :
    ¬ (state.advance index (.move call)).HasCall
      (PendingCall.drops id tier) := by
  intro after
  rcases hasCall_before_advance after with before | moved
  · exact free before
  · simp only [PendingCall.advance, PendingCall.drops, TierCall.mk.injEq,
      decide_eq_true_eq] at moved
    exact movedFree moved.1.symm moved.2

/-- A safe copy of a recorded block leaves it secure. -/
theorem SafeCopy.secure
    {before after : SharedStore}
    {id : BlockId}
    {move : CallPoint.PendingMove}
    (safe : before.SafeCopy id move)
    (recorded : before.store.Recorded id)
    (held :
      ∀ tier,
        tier = move.target ∨ (before.store.copy tier id).isSome = true →
        (after.store.copy tier id).isSome = true)
    (free :
      ∀ tier,
        tier ≠ move.source →
        ¬ before.HasCall (PendingCall.drops id tier) →
        ¬ after.HasCall (PendingCall.drops id tier)) :
    after.Secure id ∨ before.HasCall (PendingCall.erases id) := by
  rcases safe.2 recorded with
    erasing | ⟨tier, isTier, notSource, holds, freeBefore⟩
  · exact Or.inr erasing
  · exact
      Or.inl
        ⟨tier, isTier, held tier holds, free tier notSource freeBefore⟩

/-- A careful step of a read or a demotion leaves recorded blocks secure. -/
theorem Kept.secure_move
    {state : SharedStore}
    (kept : state.Kept)
    {index : Nat}
    {call : TierCall}
    (running : state.calls[index]? = some (.move call))
    (careful : state.CarefulStep call)
    {id : BlockId}
    (recorded : (call.advance state.store).1.Recorded id)
    (secure : state.Secure id) :
    (state.advance index (.move call)).Secure id ∨
      state.HasCall (PendingCall.erases id) := by
  obtain ⟨tier, isTier, held, free⟩ := secure
  have movedFree :
      ∀ tier,
        ¬ state.HasCall (PendingCall.drops id tier) →
        (id = call.id → (call.advance state.store).2 ≠ .drop tier) →
        ¬ (state.advance index (.move call)).HasCall
          (PendingCall.drops id tier) :=
    fun _ => drops_before_move
  have storeAfter :
      (state.advance index (.move call)).store =
        (call.advance state.store).1 :=
    rfl
  generalize state.advance index (.move call) = after
    at movedFree storeAfter ⊢
  have detail := call.advance_detail state.store
  generalize call.advance state.store = result
    at detail movedFree storeAfter recorded
  cases detail with
  | kept noDrop =>
      refine Or.inl ⟨tier, isTier, ?_, ?_⟩
      · rwa [storeAfter]
      · exact movedFree tier free fun _ => noDrop tier
  | recorded atRecord hit noDrop =>
      refine Or.inl ⟨tier, isTier, ?_, ?_⟩
      · rwa [storeAfter, TieredStore.recordHit_copy]
      · exact movedFree tier free fun _ => noDrop tier
  | @copied move isMove different accepted =>
      have copies :=
        TieredStore.SsdSound.copy_putToTier kept.sound accepted
      have recordedBefore :=
        (TieredStore.recorded_putToTier _ _ _ _).mp recorded
      by_cases same : id = call.id
      · subst same
        refine
          (careful.2 move isMove
            (TieredStore.putToTier_accepted_iff.mp accepted)).secure
            recordedBefore ?_ ?_
        · intro safe holds
          rw [storeAfter, copies]
          rcases holds with isTarget | heldBefore
          · simp [isTarget]
          · split
            · simp
            · exact heldBefore
        · intro safe notSource safeFree
          refine movedFree safe safeFree ?_
          intro _ isDrop
          exact notSource (CallPoint.drop.inj isDrop).symm
      · refine Or.inl ⟨tier, isTier, ?_, ?_⟩
        · rw [storeAfter, copies]
          simpa [same] using held
        · exact movedFree tier free fun sameId => (same sameId).elim
  | @dropped source isDrop =>
      have elsewhere : ¬ (tier = source ∧ id = call.id) := by
        rintro ⟨sameTier, sameId⟩
        refine free (List.any_eq_true.mpr
          ⟨.move call, List.mem_of_getElem? running, ?_⟩)
        obtain ⟨callId, point⟩ := call
        subst sameTier sameId
        simp only at isDrop
        simp [PendingCall.drops, isDrop]
      refine Or.inl ⟨tier, isTier, ?_, ?_⟩
      · rw [storeAfter,
          TieredStore.SsdSound.copy_eraseFromTier kept.sound,
          if_neg elsewhere]
        exact held
      · exact movedFree tier free (by simp)

/-- A careful step of a read or a demotion brings no erased block back. -/
theorem Kept.vacated_move
    {state : SharedStore}
    (kept : state.Kept)
    {call : TierCall}
    (careful : state.CarefulStep call)
    {id : BlockId}
    {tier : Tier}
    (vacated : state.Vacated id tier) :
    (call.advance state.store).1.copy tier id = none := by
  have absent := kept.vacated id tier vacated
  have detail := call.advance_detail state.store
  generalize call.advance state.store = result at detail
  cases detail with
  | kept noDrop =>
      exact absent
  | recorded atRecord hit noDrop =>
      exact absent
  | @copied move isMove different accepted =>
      obtain ⟨notVacated, _⟩ :=
        careful.2 move isMove
          (TieredStore.putToTier_accepted_iff.mp accepted)
      rw [TieredStore.SsdSound.copy_putToTier kept.sound accepted, if_neg,
        absent]
      rintro ⟨isTarget, isBlock⟩
      rw [isTarget, isBlock] at vacated
      exact notVacated vacated
  | dropped isDrop =>
      rw [TieredStore.SsdSound.copy_eraseFromTier kept.sound, absent,
        ite_self]

/-- Steps of reads and demotions keep the file well formed. -/
theorem ssdSound_move
    {store : TieredStore}
    (sound : store.SsdSound)
    (call : TierCall) :
    (call.advance store).1.SsdSound := by
  have detail := call.advance_detail store
  generalize call.advance store = result at detail
  cases detail with
  | kept noDrop =>
      exact sound
  | recorded atRecord hit noDrop =>
      exact sound
  | copied isMove different accepted =>
      exact sound.putToTier _ _
  | dropped isDrop =>
      exact sound.eraseFromTier _ _

/-- A careful step of a read or a demotion keeps the invariant. -/
theorem Kept.move
    {state : SharedStore}
    (kept : state.Kept)
    {index : Nat}
    {call : TierCall}
    (running : state.calls[index]? = some (.move call))
    (careful : state.CarefulStep call) :
    (state.advance index (.move call)).Kept := by
  have erasing :
      ∀ id,
        (state.advance index (.move call)).HasCall
            (PendingCall.erases id) ↔
          state.HasCall (PendingCall.erases id) :=
    fun _ => hasCall_advance_iff running rfl
  refine ⟨ssdSound_move kept.sound call, ?_, ?_, ?_⟩
  · intro id recorded
    have before : state.Sheltered id := by
      rcases TierCall.recorded_advance recorded with
        earlier | ⟨isBlock, records⟩
      · exact kept.sheltered id earlier
      · rw [isBlock]
        exact careful.1 records
    rcases before with secure | erases
    · rcases kept.secure_move running careful recorded secure with
        secureAfter | erases
      · exact Or.inl secureAfter
      · exact Or.inr ((erasing id).mpr erases)
    · exact Or.inr ((erasing id).mpr erases)
  · intro id tier vacated
    refine kept.vacated_move careful (vacated.imp_right ?_)
    exact (hasCall_advance_iff running rfl).mp
  · intro id puts
    exact
      kept.apart_mono rfl (hasCall_advance_iff running rfl).mp
        ((hasCall_advance_iff running rfl).mp puts)

/-! ## Steps of insertions and erasures -/

/-- A secure copy stays secure where the store keeps it and no drop is new. -/
theorem Secure.mono
    {before after : SharedStore}
    {id : BlockId}
    (secure : before.Secure id)
    (held :
      ∀ tier,
        (before.store.copy tier id).isSome = true →
        (after.store.copy tier id).isSome = true)
    (drops :
      ∀ tier,
        after.HasCall (PendingCall.drops id tier) →
        before.HasCall (PendingCall.drops id tier)) :
    after.Secure id := by
  obtain ⟨tier, isTier, heldBefore, free⟩ := secure
  exact ⟨tier, isTier, held tier heldBefore, fun isDrop =>
    free (drops tier isDrop)⟩

/-- An attempt to store the block in one tier keeps the invariant. -/
theorem Kept.put
    {state : SharedStore}
    (kept : state.Kept)
    {index : Nat}
    {block : KvBlock}
    {tier : Tier}
    {slower : List Tier}
    (running : state.calls[index]? = some (.put block (tier :: slower))) :
    (state.advance index (.put block (tier :: slower))).Kept := by
  have putting : state.HasCall (PendingCall.puts block.id) :=
    List.any_eq_true.mpr
      ⟨_, List.mem_of_getElem? running, by simp [PendingCall.puts]⟩
  have copies := kept.sound.copy_putToTier_cases block tier
  refine ⟨kept.sound.putToTier _ _, ?_, ?_, ?_⟩
  · intro id recorded
    have before :=
      kept.sheltered id
        ((TieredStore.recorded_putToTier _ _ _ _).mp recorded)
    refine before.imp (fun secure => ?_) (hasCall_advance_iff running rfl).mpr
    refine secure.mono ?_ fun _ => (hasCall_advance_iff running rfl).mp
    intro query held
    rcases copies query id with same | ⟨_, stored⟩
    · exact same ▸ held
    · exact stored
  · intro id query vacated
    have before : state.Vacated id query :=
      vacated.imp_right (hasCall_advance_iff running rfl).mp
    rcases copies query id with same | ⟨isBlock, _⟩
    · exact same.trans (kept.vacated id query before)
    · rw [isBlock] at before
      exact (kept.not_vacated_of_puts putting query before).elim
  · intro id puts
    have before : state.HasCall (PendingCall.puts id) := by
      rcases hasCall_before_advance puts with before | moved
      · exact before
      · exact PendingCall.id_of_puts moved ▸ putting
    exact
      kept.apart_mono rfl (hasCall_advance_iff running rfl).mp before

/-- Clearing one tier keeps the invariant. -/
theorem Kept.erase
    {state : SharedStore}
    (kept : state.Kept)
    {index : Nat}
    {erased : BlockId}
    {tier : Tier}
    {rest : List Tier}
    {undisturbed : Bool}
    (running :
      state.calls[index]? =
        some (.erase erased (tier :: rest) undisturbed)) :
    (state.advance index (.erase erased (tier :: rest) undisturbed)).Kept := by
  have copies :=
    TieredStore.SsdSound.copy_eraseFromTier kept.sound erased tier
  refine ⟨kept.sound.eraseFromTier _ _, ?_, ?_, ?_⟩
  · intro id recorded
    have before :=
      kept.sheltered id
        ((TieredStore.recorded_eraseFromTier _ _ _ _).mp recorded)
    by_cases isErased : id = erased
    · refine Or.inr (hasCall_moved running ?_)
      simp [PendingCall.advance, PendingCall.erases, isErased]
    · refine before.imp (fun secure => ?_)
        (hasCall_advance_iff running rfl).mpr
      refine secure.mono ?_ fun _ => (hasCall_advance_iff running rfl).mp
      intro query held
      have same : (state.store.eraseFromTier erased tier).2.copy query id =
          state.store.copy query id := by
        rw [copies, if_neg fun both => isErased both.2]
      exact same ▸ held
  · intro id query vacated
    refine (copies query id).trans ?_
    split
    · rfl
    · next elsewhere =>
        refine kept.vacated id query ?_
        rcases vacated with isGone | cleared
        · exact Or.inl isGone
        · refine Or.inr ?_
          rcases hasCall_before_advance cleared with before | moved
          · exact before
          · refine List.any_eq_true.mpr
              ⟨_, List.mem_of_getElem? running, ?_⟩
            simp only [PendingCall.advance, PendingCall.cleared,
              Bool.and_eq_true, decide_eq_true_eq] at moved
            simp only [PendingCall.cleared, Bool.and_eq_true,
              decide_eq_true_eq, List.mem_cons, not_or]
            exact
              ⟨moved.1,
                fun sameTier => elsewhere ⟨sameTier, moved.1.1.symm⟩,
                moved.2⟩
  · intro id puts
    exact
      kept.apart_mono rfl (hasCall_advance_iff running rfl).mp
        ((hasCall_advance_iff running rfl).mp puts)

/-- The end of an undisturbed erasure is the only way to be newly gone. -/
theorem mem_gone_forget
    {state : SharedStore}
    {index : Nat}
    {erased id : BlockId}
    {undisturbed : Bool}
    (isGone :
      id ∈ (state.advance index (.erase erased [] undisturbed)).gone) :
    id ∈ state.gone ∨ id = erased ∧ undisturbed = true := by
  cases undisturbed with
  | false =>
      exact Or.inl isGone
  | true =>
      rcases List.mem_cons.mp isGone with isErased | earlier
      · exact Or.inr ⟨isErased, rfl⟩
      · exact Or.inl earlier

/-- Wiping the bookkeeping at the end of an erasure keeps the invariant. -/
theorem Kept.forget
    {state : SharedStore}
    (kept : state.Kept)
    {index : Nat}
    {erased : BlockId}
    {undisturbed : Bool}
    (running :
      state.calls[index]? = some (.erase erased [] undisturbed)) :
    (state.advance index (.erase erased [] undisturbed)).Kept := by
  have isCall := List.mem_of_getElem? running
  refine ⟨TieredStore.ssdSound_stable.forget kept.sound _, ?_, ?_, ?_⟩
  · intro id recorded
    obtain ⟨notErased, recordedBefore⟩ :=
      (TieredStore.recorded_forget _ _ _).mp recorded
    rcases kept.sheltered id recordedBefore with secure | erasing
    · refine Or.inl (secure.mono (fun _ held => held) fun _ => ?_)
      exact (hasCall_advance_iff running rfl).mp
    · rcases hasCall_after_advance running erasing with after | isErasure
      · exact Or.inr after
      · simp only [PendingCall.erases, decide_eq_true_eq] at isErasure
        exact (notErased isErasure.symm).elim
  · intro id query vacated
    refine kept.vacated id query ?_
    rcases vacated with isGone | cleared
    · rcases mem_gone_forget isGone with earlier | ⟨isErased, clean⟩
      · exact Or.inl earlier
      · refine Or.inr (List.any_eq_true.mpr ⟨_, isCall, ?_⟩)
        simp [PendingCall.cleared, isErased, clean]
    · rcases hasCall_before_advance cleared with before | moved
      · exact Or.inr before
      · simp [PendingCall.advance, PendingCall.cleared] at moved
  · intro id puts
    obtain ⟨notGone, notClears⟩ :=
      kept.apart id ((hasCall_advance_iff running rfl).mp puts)
    constructor
    · intro isGone
      rcases mem_gone_forget isGone with earlier | ⟨isErased, clean⟩
      · exact notGone earlier
      · refine notClears (List.any_eq_true.mpr ⟨_, isCall, ?_⟩)
        simp [PendingCall.clears, isErased, clean]
    · intro clears
      rcases hasCall_before_advance clears with before | moved
      · exact notClears before
      · simp [PendingCall.advance, PendingCall.clears] at moved

/-- Every step of a call in progress keeps the invariant. -/
theorem Kept.advance
    {state : SharedStore}
    (kept : state.Kept)
    {index : Nat}
    {call : PendingCall}
    (running : state.calls[index]? = some call)
    (careful : state.Careful (.advance index)) :
    (state.advance index call).Kept := by
  cases call with
  | move call =>
      simp only [Careful, running] at careful
      exact kept.move running careful
  | put block tiers =>
      cases tiers with
      | nil =>
          rwa [advance_of_idle running rfl rfl]
      | cons tier slower =>
          exact kept.put running
  | erase erased tiers undisturbed =>
      cases tiers with
      | nil =>
          exact kept.forget running
      | cons tier rest =>
          exact kept.erase running
  | done =>
      rwa [advance_of_idle running rfl rfl]

/-! ## Calls that start -/

/-- A read or a demotion starts. -/
theorem Kept.startMove
    {state : SharedStore}
    (kept : state.Kept)
    (id : BlockId)
    {point : CallPoint}
    (noDrop : ∀ source, point ≠ .drop source) :
    (state.start (.move ⟨id, point⟩)).Kept := by
  refine ⟨kept.sound, ?_, ?_, ?_⟩
  · intro other recorded
    refine (kept.sheltered other recorded).imp (fun secure => ?_)
      (hasCall_start_iff rfl).mpr
    refine secure.mono (fun _ held => held) fun tier =>
      (hasCall_start_iff ?_).mp
    simp [PendingCall.drops, noDrop tier]
  · intro other tier vacated
    exact
      kept.vacated other tier (vacated.imp_right (hasCall_start_iff rfl).mp)
  · intro other puts
    exact
      kept.apart_mono rfl (hasCall_start_iff rfl).mp
        ((hasCall_start_iff rfl).mp puts)

/-- An erasure starts: it has cleared no tier yet. -/
theorem Kept.startErase
    {state : SharedStore}
    (kept : state.Kept)
    (erased : BlockId) :
    (state.next (.startErase erased)).Kept := by
  refine ⟨kept.sound, ?_, ?_, ?_⟩
  · intro id recorded
    refine (kept.sheltered id recorded).imp (fun secure => ?_) ?_
    · exact secure.mono (fun _ held => held) fun _ =>
        (hasCall_start_iff rfl).mp
    · intro erasing
      simp only [HasCall, SharedStore.next, start, List.any_append,
        Bool.or_eq_true]
      exact Or.inl erasing
  · intro id tier vacated
    refine kept.vacated id tier (vacated.imp_right ?_)
    refine (hasCall_start_iff ?_).mp
    simp [PendingCall.cleared, mem_allTiers tier]
  · intro id puts
    have before : state.HasCall (PendingCall.puts id) :=
      (hasCall_start_iff rfl).mp puts
    obtain ⟨notGone, notClears⟩ := kept.apart id before
    refine ⟨notGone, ?_⟩
    rw [SharedStore.next, hasCall_start_iff]
    · exact notClears
    · simp only [PendingCall.clears, Bool.and_eq_false_iff,
        decide_eq_false_iff_not, Bool.not_eq_false', decide_eq_true_eq]
      by_cases isErased : erased = id
      · exact Or.inr (isErased ▸ before)
      · exact Or.inl isErased

/-- An insertion starts: erasures of its block count as overlapped. -/
theorem Kept.startPut
    {state : SharedStore}
    (kept : state.Kept)
    (block : KvBlock)
    (hint : Tier) :
    (state.startPut block hint).Kept := by
  refine ⟨kept.sound, ?_, ?_, ?_⟩
  · intro id recorded
    refine (kept.sheltered id recorded).imp (fun secure => ?_) ?_
    · refine secure.mono (fun _ held => held) ?_
      intro tier isDrop
      rcases hasCall_startPut_iff.mp isDrop with earlier | isPut
      · simpa only [PendingCall.drops_disturb] using earlier
      · simp [PendingCall.drops] at isPut
    · intro erasing
      refine hasCall_startPut_iff.mpr (Or.inl ?_)
      simpa only [PendingCall.erases_disturb] using erasing
  · intro id tier vacated
    refine kept.vacated id tier ?_
    rcases vacated with isGone | cleared
    · exact Or.inl (List.mem_filter.mp isGone).1
    · rcases hasCall_startPut_iff.mp cleared with earlier | isPut
      · obtain ⟨call, member, isCleared⟩ := List.any_eq_true.mp earlier
        exact
          Or.inr (List.any_eq_true.mpr
            ⟨call, member, PendingCall.cleared_disturb isCleared⟩)
      · simp [PendingCall.cleared] at isPut
  · intro id puts
    have notBlock :
        id ≠ block.id →
        id ∉ state.gone ∧ ¬ state.HasCall (PendingCall.clears id) := by
      intro different
      refine kept.apart id ?_
      rcases hasCall_startPut_iff.mp puts with earlier | isPut
      · simpa using earlier
      · exact (different (PendingCall.id_of_puts isPut).symm).elim
    constructor
    · intro isGone
      obtain ⟨earlier, different⟩ := List.mem_filter.mp isGone
      exact (notBlock (by simpa using different)).1 earlier
    · intro clears
      rcases hasCall_startPut_iff.mp clears with earlier | isPut
      · obtain ⟨call, member, isClearing⟩ := List.any_eq_true.mp earlier
        obtain ⟨different, before⟩ := PendingCall.clears_disturb isClearing
        exact (notBlock different).2
          (List.any_eq_true.mpr ⟨call, member, before⟩)
      · simp [PendingCall.clears] at isPut

/-- One careful step. -/
theorem Kept.next
    {state : SharedStore}
    {event : SharedEvent}
    (kept : state.Kept)
    (careful : state.Careful event) :
    (state.next event).Kept := by
  cases event with
  | startGet id =>
      exact kept.startMove id (by simp [CallPoint.get])
  | startDemote id =>
      exact kept.startMove id (by simp [CallPoint.demote])
  | startPut block hint =>
      exact kept.startPut block hint
  | startErase id =>
      exact kept.startErase id
  | clearVisited id =>
      refine
        ⟨TieredStore.ssdSound_stable.clearVisited kept.sound id, ?_,
          kept.vacated, kept.apart⟩
      intro other recorded
      exact
        kept.sheltered other (TieredStore.recorded_of_clearVisited recorded)
  | advance index =>
      cases running : state.calls[index]? with
      | some call =>
          simp only [SharedStore.next, running]
          exact kept.advance running careful
      | none =>
          simpa only [SharedStore.next, running] using kept

/-- Before the first call there is nothing but the bookkeeping to check. -/
theorem kept_of_fresh
    {store : TieredStore}
    (sound : store.SsdSound)
    (recorded : ∀ id, store.Recorded id → store.Resident id) :
    Kept ⟨store, [], []⟩ := by
  refine ⟨sound, ?_, ?_, ?_⟩
  · intro id isRecorded
    obtain ⟨tier, held⟩ := recorded id isRecorded
    exact Or.inl ⟨tier, mem_allTiers tier, held, by simp [HasCall]⟩
  · intro id tier vacated
    simp [Vacated, HasCall] at vacated
  · intro id puts
    simp [HasCall] at puts

/--
If every read counts its hit while the block is there to stay, and no read or
demotion copies a block back that is being erased or into a tier from which it
is about to be dropped, then whenever no call is in progress every counter and
visited bit is that of a resident block, and an erased block is nowhere.
-/
theorem bookkeeping_never_outlives_block
    {store : TieredStore}
    (sound : store.SsdSound)
    (recorded : ∀ id, store.Recorded id → store.Resident id)
    {events : List SharedEvent}
    (careful :
      ∀ earlier event,
        earlier ++ [event] <+: events →
        (earlier.foldl next ⟨store, [], []⟩).Careful event)
    {earlier : List SharedEvent}
    (reached : earlier <+: events)
    (quiet : (earlier.foldl next ⟨store, [], []⟩).Quiet) :
    (earlier.foldl next ⟨store, [], []⟩).Tidy := by
  have kept :=
    EventRun.good_of_conditions (fun kept careful => kept.next careful)
      (kept_of_fresh sound recorded)
      fun first event isPrefix =>
        careful first event (isPrefix.trans reached)
  exact kept.tidy quiet

/-! ## A read overtaken by an erasure -/

/-- Nothing has been counted yet; DRAM holds the contended block. -/
def contended : SharedStore :=
  ⟨contendedStore.store, [], []⟩

/-- A read finds the bytes, an erasure runs, and then the read counts. -/
def countedAfterErasure : List SharedEvent :=
  [ .startGet contendedId, .advance 0, .advance 0,
    .startErase contendedId, .advance 1, .advance 1, .advance 1, .advance 1,
    .advance 0 ]

/-- Two reads; the second one is about to copy the block to HBM. -/
def aboutToPromote : List SharedEvent :=
  [ .startGet contendedId, .advance 0, .advance 0, .advance 0,
    .startGet contendedId, .advance 1, .advance 1, .advance 1 ]

/-- An erasure runs before the second read copies the block. -/
def promotedAfterErasure : List SharedEvent :=
  aboutToPromote ++
    [ .startErase contendedId, .advance 2, .advance 2, .advance 2, .advance 2,
      .advance 1, .advance 1 ]

/-- The second read ends, with an insertion around it, before the erasure. -/
def erasedAfterPromotion : List SharedEvent :=
  aboutToPromote ++
    [ .startPut { id := contendedId, data := [1, 2] } .dram, .advance 1,
      .advance 2, .advance 1, .startErase contendedId, .advance 3, .advance 3,
      .advance 3, .advance 3 ]

/-- Nothing has been counted in the contended store. -/
theorem contended_unrecorded
    (id : BlockId) :
    ¬ contendedStore.store.Recorded id := by
  have noCounts : contendedStore.store.accessCounts = ∅ := rfl
  have noBits : contendedStore.store.visited = ∅ := rfl
  simp [TieredStore.Recorded, noCounts, noBits]

/--
The erasure wipes the counter before the first read counts its hit: the counter
outlives the block.  In the second run the erasure clears all tiers before the
read copies the block to HBM: the erased block is back.
-/
theorem erasure_overtakes_read :
    contendedStore.store.SsdSound ∧
      (∀ id, ¬ contendedStore.store.Recorded id) ∧
      ((countedAfterErasure.foldl next contended).Quiet ∧
        (countedAfterErasure.foldl next contended).store.Recorded
          contendedId ∧
        ¬ (countedAfterErasure.foldl next contended).store.Resident
          contendedId) ∧
      (promotedAfterErasure.foldl next contended).Quiet ∧
        contendedId ∈ (promotedAfterErasure.foldl next contended).gone ∧
        (promotedAfterErasure.foldl next contended).store.Resident
          contendedId := by
  refine ⟨contendedStore_resident.1.ssdSound, contended_unrecorded, ?_⟩
  unfold Quiet
  decide +kernel

theorem bookkeeping_never_outlives_block_promoted :
    contendedId ∈ (erasedAfterPromotion.foldl next contended).gone ∧
      (erasedAfterPromotion.foldl next contended).Tidy := by
  have careful :=
    EventRun.conditions_of_check
      (show EventRun.checkConditions next Careful contended
        erasedAfterPromotion = true by decide +kernel)
  have quiet : (erasedAfterPromotion.foldl next contended).Quiet := by
    unfold Quiet
    decide +kernel
  exact
    ⟨by decide +kernel,
      bookkeeping_never_outlives_block contendedStore_resident.1.ssdSound
        (fun id recorded => (contended_unrecorded id recorded).elim)
        careful List.prefix_rfl quiet⟩

end SharedStore

end Lethe
