import Lethe.Library.KeyedTotal
import Lethe.SsdSoundness

namespace Lethe

open ByteMemory

/-!
# Opening an arbitrary file

The scan at startup reads one header per slot of whatever the file contains.
A slot with a live header of a fitting size is usable; every other slot goes to
the free list.  An identity is indexed under the first usable slot that names
it, and the payload of every usable slot is counted.  So a second slot that
names the same identity is counted without being indexed or free.
-/

namespace SlotFile

section Naming

variable (geometry : SsdGeometry) (memory : Memory)

/-- The scan takes the slot for the home of a block. -/
def Usable (slot : Nat) : Prop :=
  Live geometry memory slot ∧
    (header geometry memory slot).payloadSize ≤ geometry.slotPayloadBytes

instance (slot : Nat) : Decidable (Usable geometry memory slot) :=
  inferInstanceAs (Decidable (_ ∧ _))

/-- Payload bytes that the scan counts for a slot. -/
def usableBytes (slot : Nat) : Nat :=
  if Usable geometry memory slot then
    (header geometry memory slot).payloadSize
  else
    0

/-- No two usable slots name the same identity. -/
def NoRepeats : Prop :=
  ∀ first < geometry.totalSlots,
    ∀ second < geometry.totalSlots,
      Usable geometry memory first →
      Usable geometry memory second →
      (header geometry memory first).id =
        (header geometry memory second).id →
      first = second

instance : Decidable (NoRepeats geometry memory) :=
  inferInstanceAs (Decidable (∀ _ < _, ∀ _ < _, _ → _ → _ → _))

/-- The first usable slot below a limit that names an identity. -/
structure FirstNaming
    (limit : Nat)
    (id : BlockId)
    (slot : Nat) : Prop where
  bound : slot < limit
  usable : Usable geometry memory slot
  names : (header geometry memory slot).id = id
  first :
    ∀ earlier < slot,
      Usable geometry memory earlier →
      (header geometry memory earlier).id ≠ id

end Naming

variable {geometry : SsdGeometry} {memory : Memory}

namespace FirstNaming

variable {limit : Nat} {id : BlockId} {slot : Nat}

/-- There is one first slot. -/
theorem unique
    (one : FirstNaming geometry memory limit id slot)
    {other : Nat}
    (two : FirstNaming geometry memory limit id other) :
    slot = other := by
  rcases Nat.lt_trichotomy slot other with earlier | same | later
  · exact (two.first slot earlier one.usable one.names).elim
  · exact same
  · exact (one.first other later two.usable two.names).elim

/-- Every identity named by a usable slot has a first slot. -/
theorem exists_of_usable
    (bound : slot < limit)
    (usable : Usable geometry memory slot)
    (names : (header geometry memory slot).id = id) :
    ∃ firstSlot, FirstNaming geometry memory limit id firstSlot := by
  induction slot using Nat.strong_induction_on with
  | _ slot inductionHypothesis =>
      by_cases repeated :
          ∃ earlier < slot,
            Usable geometry memory earlier ∧
              (header geometry memory earlier).id = id
      · obtain ⟨earlier, before, earlierUsable, earlierNames⟩ := repeated
        exact inductionHypothesis earlier before
          (Nat.lt_trans before bound) earlierUsable earlierNames
      · refine ⟨slot, bound, usable, names, ?_⟩
        intro earlier before earlierUsable earlierNames
        exact repeated ⟨earlier, before, earlierUsable, earlierNames⟩

/-- Raising the limit to include a slot that does not come first for it. -/
theorem succ_iff
    (notNew :
      ¬ Usable geometry memory limit ∨
        (header geometry memory limit).id ≠ id ∨
        ∃ earlier, FirstNaming geometry memory limit id earlier) :
    FirstNaming geometry memory (limit + 1) id slot ↔
      FirstNaming geometry memory limit id slot := by
  constructor
  · rintro ⟨bound, usable, names, first⟩
    refine ⟨?_, usable, names, first⟩
    refine Nat.lt_of_le_of_ne (Nat.le_of_lt_succ bound) ?_
    rintro rfl
    rcases notNew with unusable | elsewhere | ⟨earlier, before⟩
    · exact unusable usable
    · exact elsewhere names
    · exact first earlier before.bound before.usable before.names
  · rintro ⟨bound, usable, names, first⟩
    exact ⟨Nat.lt_succ_of_lt bound, usable, names, first⟩

/-- Without repetitions every usable slot comes first. -/
theorem of_noRepeats
    (distinct : NoRepeats geometry memory)
    (bound : slot < geometry.totalSlots)
    (usable : Usable geometry memory slot) :
    FirstNaming geometry memory geometry.totalSlots
      (header geometry memory slot).id slot := by
  refine ⟨bound, usable, rfl, ?_⟩
  intro earlier before earlierUsable sameId
  have same :=
    distinct earlier (Nat.lt_trans before bound) slot bound earlierUsable
      usable sameId
  exact Nat.ne_of_lt before same

end FirstNaming

/-- The bytes that the scan counts fit a 64-bit counter. -/
theorem sum_usableBytes_lt
    {limit : Nat}
    (bound : limit ≤ geometry.totalSlots) :
    ∑ slot ∈ Finset.range limit, usableBytes geometry memory slot <
      sizeRange := by
  have each :
      ∀ slot ∈ Finset.range limit,
        usableBytes geometry memory slot ≤ geometry.slotBytes := by
    intro slot _
    unfold usableBytes
    split
    · next usable =>
        exact Nat.le_trans usable.2 (Nat.sub_le _ _)
    · exact Nat.zero_le _
  have total := Finset.sum_le_card_nsmul _ _ _ each
  rw [Finset.card_range, smul_eq_mul] at total
  exact Nat.lt_of_le_of_lt
    (Nat.le_trans total (Nat.mul_le_mul_right _ bound)) geometry.file_fits

end SlotFile

namespace SsdBlockStore

open SlotFile (Usable usableBytes FirstNaming NoRepeats)

variable {geometry : SsdGeometry} {memory : Memory}

/-! ## The scan -/

/-- What the scan has accumulated over the slots below a limit. -/
structure Scanned
    (geometry : SsdGeometry)
    (memory : Memory)
    (limit : Nat)
    (scan : Scan) : Prop where
  index_iff :
    ∀ {id slot},
      scan.index.lookup id = some slot ↔
        FirstNaming geometry memory limit id slot
  free_iff :
    ∀ {slot},
      slot ∈ scan.freeSlots ↔
        slot < limit ∧ ¬ Usable geometry memory slot
  free_nodup : scan.freeSlots.Nodup
  liveBytes_eq :
    scan.liveBytes =
      ∑ slot ∈ Finset.range limit, usableBytes geometry memory slot

section ScanStep

variable {limit : Nat} {scan : Scan}

/-- The payload of a usable slot is counted, its identity indexed if new. -/
theorem scanSlot_of_usable
    (usable : Usable geometry memory limit) :
    scanSlot geometry memory scan limit =
      { scan with
        index :=
          if (SlotFile.header geometry memory limit).id ∈ scan.index then
            scan.index
          else
            scan.index.insert
              (SlotFile.header geometry memory limit).id limit
        liveBytes :=
          addSize scan.liveBytes
            (SlotFile.header geometry memory limit).payloadSize } := by
  have magic :
      (slotHeaderAt memory (geometry.slotOffset limit)).magic =
        slotMagicLive :=
    usable.1
  have notOversized :
      ¬ (slotHeaderAt memory (geometry.slotOffset limit)).payloadSize >
        geometry.slotPayloadBytes :=
    Nat.not_lt.mpr usable.2
  unfold scanSlot
  simp only [magic, ne_eq, not_true_eq_false, ↓reduceIte, notOversized]
  rfl

/-- An unusable slot goes to the free list. -/
theorem scanSlot_of_unusable
    (unusable : ¬ Usable geometry memory limit) :
    scanSlot geometry memory scan limit =
      { scan with freeSlots := limit :: scan.freeSlots } := by
  unfold scanSlot
  dsimp only
  split
  · rfl
  · next live =>
      split
      · rfl
      · next fits =>
          exact (unusable
            ⟨Decidable.not_not.mp live, Nat.not_lt.mp fits⟩).elim

/-- The index has the identity exactly if an earlier usable slot names it. -/
theorem Scanned.mem_index_iff
    (scanned : Scanned geometry memory limit scan)
    {id : BlockId} :
    id ∈ scan.index ↔
      ∃ slot, FirstNaming geometry memory limit id slot := by
  rw [← AList.lookup_isSome, Option.isSome_iff_exists]
  exact exists_congr fun _ => scanned.index_iff

/-- Indexing the identity of a usable slot if it is new. -/
theorem Scanned.index_step
    (scanned : Scanned geometry memory limit scan)
    (usable : Usable geometry memory limit)
    {id : BlockId}
    {slot : Nat} :
    (if (SlotFile.header geometry memory limit).id ∈ scan.index then
        scan.index
      else
        scan.index.insert
          (SlotFile.header geometry memory limit).id limit).lookup id =
        some slot ↔
      FirstNaming geometry memory (limit + 1) id slot := by
  by_cases isNew : id = (SlotFile.header geometry memory limit).id
  · subst isNew
    split
    · next known =>
        rw [scanned.index_iff]
        exact (FirstNaming.succ_iff
          (Or.inr (Or.inr (scanned.mem_index_iff.mp known)))).symm
    · next unknown =>
        have firstHere :
            FirstNaming geometry memory (limit + 1)
              (SlotFile.header geometry memory limit).id limit := by
          refine ⟨Nat.lt_succ_self _, usable, rfl, ?_⟩
          intro earlier before earlierUsable sameId
          exact unknown (scanned.mem_index_iff.mpr
            (FirstNaming.exists_of_usable before earlierUsable sameId))
        rw [AList.lookup_insert, Option.some.injEq]
        constructor
        · rintro rfl
          exact firstHere
        · exact firstHere.unique
  · rw [FirstNaming.succ_iff (Or.inr (Or.inl (Ne.symm isNew))),
      ← scanned.index_iff]
    split
    · rfl
    · rw [AList.lookup_insert_ne isNew]

/-- Scanning a usable slot. -/
theorem Scanned.step_usable
    (scanned : Scanned geometry memory limit scan)
    (bound : limit < geometry.totalSlots)
    (usable : Usable geometry memory limit) :
    Scanned geometry memory (limit + 1)
      (scanSlot geometry memory scan limit) := by
  have counted :
      usableBytes geometry memory limit =
        (SlotFile.header geometry memory limit).payloadSize :=
    if_pos usable
  have fits :
      ∑ slot ∈ Finset.range (limit + 1), usableBytes geometry memory slot <
        sizeRange :=
    SlotFile.sum_usableBytes_lt bound
  rw [scanSlot_of_usable usable]
  refine ⟨scanned.index_step usable, ?_, scanned.free_nodup, ?_⟩
  · intro slot
    rw [scanned.free_iff]
    constructor
    · rintro ⟨before, unusable⟩
      exact ⟨Nat.lt_succ_of_lt before, unusable⟩
    · rintro ⟨before, unusable⟩
      refine ⟨Nat.lt_of_le_of_ne (Nat.le_of_lt_succ before) ?_, unusable⟩
      rintro rfl
      exact unusable usable
  · rw [Finset.sum_range_succ, counted] at fits ⊢
    simp only [scanned.liveBytes_eq]
    exact addSize_of_lt fits

/-- Scanning an unusable slot. -/
theorem Scanned.step_unusable
    (scanned : Scanned geometry memory limit scan)
    (unusable : ¬ Usable geometry memory limit) :
    Scanned geometry memory (limit + 1)
      (scanSlot geometry memory scan limit) := by
  have counted : usableBytes geometry memory limit = 0 :=
    if_neg unusable
  rw [scanSlot_of_unusable unusable]
  refine ⟨?_, ?_, ?_, ?_⟩
  · intro id slot
    rw [FirstNaming.succ_iff (Or.inl unusable)]
    exact scanned.index_iff
  · intro slot
    rw [List.mem_cons, scanned.free_iff]
    constructor
    · rintro (isLimit | ⟨before, slotUnusable⟩)
      · subst isLimit
        exact ⟨Nat.lt_succ_self _, unusable⟩
      · exact ⟨Nat.lt_succ_of_lt before, slotUnusable⟩
    · rintro ⟨before, slotUnusable⟩
      rcases Nat.lt_succ_iff_lt_or_eq.mp before with less | isLimit
      · exact Or.inr ⟨less, slotUnusable⟩
      · exact Or.inl isLimit
  · refine List.nodup_cons.mpr ⟨?_, scanned.free_nodup⟩
    intro member
    exact Nat.lt_irrefl _ (scanned.free_iff.mp member).1
  · rw [Finset.sum_range_succ, counted, Nat.add_zero]
    exact scanned.liveBytes_eq

end ScanStep

/-- The scan of the slots below a limit. -/
def scanTo
    (geometry : SsdGeometry)
    (memory : Memory)
    (limit : Nat) :
    Scan :=
  (List.range limit).foldl (scanSlot geometry memory) ⟨[], ∅, 0⟩

/-- One more slot. -/
theorem scanTo_succ
    (geometry : SsdGeometry)
    (memory : Memory)
    (limit : Nat) :
    scanTo geometry memory (limit + 1) =
      scanSlot geometry memory (scanTo geometry memory limit) limit := by
  simp [scanTo, List.range_succ]

/-- Any file can be scanned. -/
theorem scanned_scanTo
    {limit : Nat}
    (bound : limit ≤ geometry.totalSlots) :
    Scanned geometry memory limit (scanTo geometry memory limit) := by
  induction limit with
  | zero =>
      refine ⟨?_, ?_, List.nodup_nil, rfl⟩
      · intro id slot
        constructor
        · intro found
          simp [scanTo] at found
        · intro naming
          exact (Nat.not_lt_zero _ naming.bound).elim
      · intro slot
        simp [scanTo]
  | succ limit inductionHypothesis =>
      have scanned := inductionHypothesis (Nat.le_of_succ_le bound)
      rw [scanTo_succ]
      by_cases usable : Usable geometry memory limit
      · exact scanned.step_usable bound usable
      · exact scanned.step_unusable usable

/-- What the store looks like after any file was opened. -/
theorem scanned_rebuildIndexFromMmap
    (geometry : SsdGeometry)
    (memory : Memory) :
    Scanned geometry memory geometry.totalSlots
      ⟨(rebuildIndexFromMmap geometry memory).freeSlots,
        (rebuildIndexFromMmap geometry memory).index,
        (rebuildIndexFromMmap geometry memory).usedBytes⟩ :=
  scanned_scanTo (Nat.le_refl _)

/-- Opening any file yields sound bookkeeping. -/
theorem rebuildIndexFromMmap_sound
    (geometry : SsdGeometry)
    (memory : Memory) :
    (rebuildIndexFromMmap geometry memory).Sound := by
  have scanned := scanned_rebuildIndexFromMmap geometry memory
  refine ⟨?_, ?_, scanned.free_nodup, rfl⟩
  · intro id slot found
    have naming := scanned.index_iff.mp found
    exact ⟨naming.bound, naming.usable.1, naming.usable.2, naming.names⟩
  · intro slot member
    obtain ⟨bound, unusable⟩ := scanned.free_iff.mp member
    refine ⟨bound, ?_⟩
    intro id found
    exact unusable (scanned.index_iff.mp found).usable

/-! ## When every slot is accounted for -/

/-- Every slot is free or indexed, and the counter covers the indexed ones. -/
structure SlotsAccounted (store : SsdBlockStore) : Prop where
  free_or_indexed :
    ∀ slot < store.geometry.totalSlots,
      (store.freeSlots.count slot = 1 ∧
          ∀ id, store.index.lookup id ≠ some slot) ∨
        (store.freeSlots.count slot = 0 ∧
          ∃! id, store.index.lookup id = some slot)
  indexed :
    ∀ id slot,
      store.index.lookup id = some slot →
      (store.slotHeader slot).magic = slotMagicLive ∧
        (store.slotHeader slot).payloadSize ≤
          store.geometry.slotPayloadBytes ∧
        (store.slotHeader slot).id = id
  used_eq :
    store.usedBytes =
      store.index.total fun entry =>
        (store.slotHeader entry.2).payloadSize

/-- Without repetitions the scan counts the payloads it indexes. -/
theorem liveBytes_scanTo
    (distinct : NoRepeats geometry memory)
    {limit : Nat}
    (bound : limit ≤ geometry.totalSlots) :
    (scanTo geometry memory limit).liveBytes =
      (scanTo geometry memory limit).index.total fun entry =>
        (SlotFile.header geometry memory entry.2).payloadSize := by
  induction limit with
  | zero =>
      rfl
  | succ limit inductionHypothesis =>
      have before := Nat.le_of_succ_le bound
      have scanned : Scanned geometry memory limit _ :=
        scanned_scanTo before
      have scannedAfter : Scanned geometry memory (limit + 1) _ :=
        scanned_scanTo bound
      rw [scannedAfter.liveBytes_eq, Finset.sum_range_succ,
        ← scanned.liveBytes_eq, inductionHypothesis before, scanTo_succ]
      by_cases usable : Usable geometry memory limit
      · have fresh :
            (SlotFile.header geometry memory limit).id ∉
              (scanTo geometry memory limit).index := by
          intro known
          obtain ⟨slot, naming⟩ := scanned.mem_index_iff.mp known
          have same :=
            distinct slot (Nat.lt_of_lt_of_le naming.bound before) limit
              bound naming.usable usable naming.names
          exact Nat.ne_of_lt naming.bound same
        rw [scanSlot_of_usable usable]
        simp only [fresh, ↓reduceIte, AList.total_insert_of_notMem fresh]
        rw [usableBytes, if_pos usable, Nat.add_comm]
      · rw [scanSlot_of_unusable usable, usableBytes, if_neg usable,
          Nat.add_zero]

/-- A usable slot is not free, any other slot is free once. -/
theorem count_freeSlots
    {slot : Nat}
    (bound : slot < geometry.totalSlots) :
    (rebuildIndexFromMmap geometry memory).freeSlots.count slot =
      if Usable geometry memory slot then 0 else 1 := by
  have scanned := scanned_rebuildIndexFromMmap geometry memory
  split
  · next usable =>
      refine List.count_eq_zero.mpr ?_
      intro member
      exact (scanned.free_iff.mp member).2 usable
  · next unusable =>
      exact List.count_eq_one_of_mem scanned.free_nodup
        (scanned.free_iff.mpr ⟨bound, unusable⟩)

/--
Opening a file accounts for every slot exactly if no two usable slots name the
same identity.
-/
theorem rebuild_accounts_slots_iff
    (geometry : SsdGeometry)
    (memory : Memory) :
    (rebuildIndexFromMmap geometry memory).SlotsAccounted ↔
      NoRepeats geometry memory := by
  have scanned := scanned_rebuildIndexFromMmap geometry memory
  have sound := rebuildIndexFromMmap_sound geometry memory
  constructor
  · intro accounted first firstBound second secondBound firstUsable
      secondUsable sameId
    have firstSlot :
        ∀ slot < geometry.totalSlots,
          Usable geometry memory slot →
          FirstNaming geometry memory geometry.totalSlots
            (SlotFile.header geometry memory slot).id slot := by
      intro slot bound usable
      rcases accounted.free_or_indexed slot bound with
        ⟨free, _⟩ | ⟨_, id, found, _⟩
      · rw [count_freeSlots bound, if_pos usable] at free
        simp at free
      · have naming := scanned.index_iff.mp found
        rw [naming.names]
        exact naming
    have firstNaming := firstSlot first firstBound firstUsable
    rw [sameId] at firstNaming
    exact firstNaming.unique (firstSlot second secondBound secondUsable)
  · intro distinct
    refine ⟨?_, ?_, liveBytes_scanTo distinct (Nat.le_refl _)⟩
    · intro slot isSlot
      have bound : slot < geometry.totalSlots := isSlot
      rw [count_freeSlots bound]
      by_cases usable : Usable geometry memory slot
      · have found :=
          scanned.index_iff.mpr (FirstNaming.of_noRepeats distinct bound
            usable)
        refine Or.inr ⟨if_pos usable, _, found, ?_⟩
        intro other otherFound
        exact sound.id_unique otherFound found
      · refine Or.inl ⟨if_neg usable, ?_⟩
        intro id found
        exact usable (scanned.index_iff.mp found).usable
    · intro id slot found
      exact (sound.index_slot found).2

/-- A file of two slots whose live headers name the same identity. -/
def repeatedHeaders : Memory :=
  fun address =>
    if address = 0 ∨ address = 80 then
      slotMagicLive
    else if address = 4 ∨ address = 84 then
      1
    else
      0

/-- The second slot is neither free nor indexed, and its byte is counted. -/
theorem repeated_header_leaks_slot :
    (rebuildIndexFromMmap twoSlotGeometry repeatedHeaders).freeSlots = [] ∧
      (rebuildIndexFromMmap twoSlotGeometry repeatedHeaders).index.entries =
        [⟨⟨.fill 0, 0, 0, 0⟩, 0⟩] ∧
      (rebuildIndexFromMmap twoSlotGeometry repeatedHeaders).usedBytes = 2 ∧
      ¬ (rebuildIndexFromMmap twoSlotGeometry
        repeatedHeaders).SlotsAccounted := by
  have overcounted :
      (rebuildIndexFromMmap twoSlotGeometry repeatedHeaders).usedBytes ≠
        (rebuildIndexFromMmap twoSlotGeometry
          repeatedHeaders).index.total fun entry =>
            ((rebuildIndexFromMmap twoSlotGeometry
              repeatedHeaders).slotHeader entry.2).payloadSize := by
    decide +kernel
  refine ⟨by decide +kernel, by decide +kernel, by decide +kernel, ?_⟩
  intro accounted
  exact overcounted accounted.used_eq

end SsdBlockStore

end Lethe
