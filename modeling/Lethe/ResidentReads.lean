import Lethe.SingleCopy

namespace Lethe

/-!
# Reading resident blocks

A read looks through the tiers from the fastest on and goes on to the next tier
as long as it has no bytes.  An empty payload therefore does not end the
search, and an empty payload that was last seen in the file counts as a miss.
A read returns the payload of the first tier that holds the block exactly if
that payload has bytes, or it is empty and no slower tier overrides it.
-/

/-- The answer of three lookups, each made only without bytes so far. -/
def Probe.answer
    (inHbm inDram inSsd : Option (List UInt8)) :
    Option (List UInt8) :=
  let probe :=
    ((Probe.start.note .hbm inHbm).note .dram inDram).note .ssd inSsd
  if probe.missed then none else some probe.bytes

/--
The answer is the first copy exactly if that copy has bytes or nothing slower
covers it.
-/
theorem Probe.answer_eq_first_iff
    (inHbm inDram inSsd : Option (List UInt8)) :
    Probe.answer inHbm inDram inSsd = inHbm.or (inDram.or inSsd) ↔
      (inHbm.or (inDram.or inSsd) = some [] →
        inSsd = none ∧ ∀ data, inDram = some data → data = []) := by
  rcases inHbm with _ | (_ | ⟨hbmByte, hbmRest⟩) <;>
    rcases inDram with _ | (_ | ⟨dramByte, dramRest⟩) <;>
      rcases inSsd with _ | (_ | ⟨ssdByte, ssdRest⟩) <;>
        simp [Probe.answer, Probe.note, Probe.start, Probe.missed]

/-- Bytes in HBM are the answer. -/
theorem Probe.answer_of_hbm
    {data : List UInt8}
    (bytes : data ≠ [])
    (inDram inSsd : Option (List UInt8)) :
    Probe.answer (some data) inDram inSsd = some data :=
  (Probe.answer_eq_first_iff _ _ _).mpr fun isEmpty =>
    absurd (Option.some_inj.mp isEmpty) bytes

/-- Bytes in DRAM are the answer without a copy in HBM. -/
theorem Probe.answer_of_dram
    {data : List UInt8}
    (bytes : data ≠ [])
    (inSsd : Option (List UInt8)) :
    Probe.answer none (some data) inSsd = some data :=
  (Probe.answer_eq_first_iff _ _ _).mpr fun isEmpty =>
    absurd (Option.some_inj.mp isEmpty) bytes

/-- If memory has no bytes, the bytes of the file are the answer. -/
theorem Probe.answer_of_ssd_iff
    {inDram inSsd : Option (List UInt8)}
    (noBytes : ∀ data, inDram = some data → data = [])
    {data : List UInt8}
    (bytes : data ≠ []) :
    Probe.answer none inDram inSsd = some data ↔ inSsd = some data := by
  rcases inDram with _ | inMemory
  · rcases inSsd with _ | (_ | ⟨byte, rest⟩) <;>
      simp [Probe.answer, Probe.note, Probe.start, Probe.missed, bytes.symm]
  · obtain rfl := noBytes inMemory rfl
    rcases inSsd with _ | (_ | ⟨byte, rest⟩) <;>
      simp [Probe.answer, Probe.note, Probe.start, Probe.missed, bytes.symm]

/-- Copies that are all empty are an answer exactly if none is in the file. -/
theorem Probe.answer_of_empty_iff
    {inHbm inSsd : Option (List UInt8)}
    (hbmEmpty : ∀ data, inHbm = some data → data = [])
    (ssdEmpty : ∀ data, inSsd = some data → data = []) :
    Probe.answer inHbm (some []) inSsd = some [] ↔ inSsd = none := by
  have first : inHbm.or ((some []).or inSsd) = some [] := by
    rcases inHbm with _ | inMemory
    · rfl
    · rw [hbmEmpty inMemory rfl]
      rfl
  rcases inSsd with _ | inFile
  · have answered :=
      (Probe.answer_eq_first_iff inHbm (some []) none).mpr (by simp)
    rw [first] at answered
    simp [answered]
  · obtain rfl := ssdEmpty inFile rfl
    have unanswered :
        Probe.answer inHbm (some []) (some []) ≠
          inHbm.or ((some []).or (some [])) := by
      rw [Ne, Probe.answer_eq_first_iff, first]
      simp
    rw [first] at unanswered
    simp [unanswered]

namespace TieredStore

/-- The payload in the first tier that holds a block. -/
def firstCopy
    (store : TieredStore)
    (id : BlockId) :
    Option (List UInt8) :=
  (store.copy .hbm id).or
    ((store.copy .dram id).or (store.copy .ssd id))

/-- The block appears in the snapshot of some tier. -/
def Listed
    (store : TieredStore)
    (id : BlockId) : Prop :=
  ∃ tier, id ∈ (store.snapshot tier).map BlockMeta.id

/-- A read is a hit exactly on listed blocks and returns the first copy. -/
def ReadsFirstCopy
    (store : TieredStore)
    (id : BlockId) : Prop :=
  ((store.get id).1.isSome = true ↔ store.Listed id) ∧
    ∀ got,
      (store.get id).1 = some got →
      store.firstCopy id = some got.data

/--
If the first copy of a block is empty then the file does not hold the block and
a copy in DRAM is empty too.
-/
def EmptyCopyUncovered
    (store : TieredStore)
    (id : BlockId) : Prop :=
  store.firstCopy id = some [] →
    store.copy .ssd id = none ∧
      ∀ data, store.copy .dram id = some data → data = []

/-- A listed block has a first copy. -/
theorem listed_iff
    {store : TieredStore}
    (consistent : store.SsdConsistent)
    (id : BlockId) :
    store.Listed id ↔ (store.firstCopy id).isSome = true := by
  have held :
      store.Listed id ↔ ∃ tier, (store.copy tier id).isSome = true := by
    simp only [Listed, mem_snapshot_ids consistent]
  rw [held, firstCopy]
  constructor
  · rintro ⟨tier, holds⟩
    cases tier <;> simp [holds]
  · intro holds
    simp only [Option.isSome_or, Bool.or_eq_true] at holds
    rcases holds with inHbm | inDram | inSsd
    · exact ⟨.hbm, inHbm⟩
    · exact ⟨.dram, inDram⟩
    · exact ⟨.ssd, inSsd⟩

/-- A read returns the answer of its three lookups. -/
theorem get_data
    (store : TieredStore)
    (id : BlockId) :
    (store.get id).1.map GetResult.data =
      Probe.answer (store.copy .hbm id) (store.copy .dram id)
        (store.copy .ssd id) := by
  change _ =
    if (store.probe id).missed then none else some (store.probe id).bytes
  unfold get
  dsimp only
  split
  · rfl
  · split
    · split <;> rfl
    · rfl

/-- Reads of one block return its first copy exactly if no copy covers it. -/
theorem readsFirstCopy_iff
    {store : TieredStore}
    (consistent : store.SsdConsistent)
    (id : BlockId) :
    store.ReadsFirstCopy id ↔ store.EmptyCopyUncovered id := by
  have asData :
      store.ReadsFirstCopy id ↔
        (store.get id).1.map GetResult.data = store.firstCopy id := by
    unfold ReadsFirstCopy
    rw [listed_iff consistent]
    cases (store.get id).1 with
    | none =>
        cases store.firstCopy id <;> simp
    | some got =>
        cases store.firstCopy id <;> simp [eq_comm]
  rw [asData, get_data]
  exact Probe.answer_eq_first_iff (store.copy .hbm id)
    (store.copy .dram id) (store.copy .ssd id)

end TieredStore

open TieredStore

/-- Runs of calls keep the file consistent. -/
theorem storeAfter_consistent
    {config : TieredStoreConfig}
    (small :
      ∀ geometry, config.ssd = some geometry → geometry.SmallSlots)
    (calls : List StoreCall) :
    (storeAfter config calls).SsdConsistent :=
  List.foldlRecOn calls StoreCall.apply (create_zero_consistent small)
    fun _ consistent call _ => call.consistent_apply consistent

/--
In every state that a run reaches, a read of a block is a hit exactly if some
tier lists it and returns the payload of the first tier that holds it, exactly
if that payload has bytes, or the file does not hold the block and DRAM holds
no bytes of it.
-/
theorem store_runs_read_first_copy_iff
    {config : TieredStoreConfig}
    (small :
      ∀ geometry, config.ssd = some geometry → geometry.SmallSlots)
    (calls : List StoreCall)
    (id : BlockId) :
    (storeAfter config calls).ReadsFirstCopy id ↔
      (storeAfter config calls).EmptyCopyUncovered id :=
  readsFirstCopy_iff (storeAfter_consistent small calls) id

/-- An empty payload in the file is listed and cannot be read. -/
theorem empty_payload_in_file_missed :
    let store :=
      storeAfter tenByteConfig [.put { id := smallId, data := [] } .ssd]
    smallId ∈ (store.snapshot .ssd).map BlockMeta.id ∧
      (store.get smallId).1 = none := by
  decide +kernel

/-- A block with bytes is read from the first tier that holds it. -/
theorem store_runs_read_first_copy_iff_short :
    (storeAfter tenByteConfig shortCalls).ReadsFirstCopy smallId := by
  refine
    (store_runs_read_first_copy_iff tenByteConfig_small shortCalls
      smallId).mpr ?_
  intro isEmpty
  exact absurd isEmpty (by decide +kernel)

end Lethe
