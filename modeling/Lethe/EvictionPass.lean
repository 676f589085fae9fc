import Lethe.Demotion
import Lethe.EvictionRoom

namespace Lethe

/-!
# Which blocks an eviction pass keeps

The walk of a pass pays for its demotions with `lives`: as long as no entry is
visited more often than its block can be demoted, nothing is lost.  A second
visit to a block that the first lap already moved to SSD finds no copy in
memory, and the erasure that follows a failed demotion drops the SSD copy too.
-/

open TieredStore

/-- Freed bytes after the walk has paid for one entry. -/
def charge
    (freed : Nat)
    (entry : BlockMeta) :
    Nat :=
  if entry.visited then freed else addSize freed entry.sizeBytes

/-- The walk still needs bytes when it meets each of the entries. -/
def Runs
    (need : Nat) :
    Nat → List BlockMeta → Prop
  | _, [] => True
  | freed, entry :: rest =>
      freed < need ∧ Runs need (charge freed entry) rest

instance decidableRuns
    (need freed : Nat)
    (entries : List BlockMeta) :
    Decidable (Runs need freed entries) :=
  match entries with
  | [] => isTrue trivial
  | entry :: rest =>
      have := decidableRuns need (charge freed entry) rest
      inferInstanceAs (Decidable (_ ∧ _))

/-- A walk that gets through a list gets through its beginning. -/
theorem Runs.of_append
    {need freed : Nat}
    {first second : List BlockMeta}
    (runs : Runs need freed (first ++ second)) :
    Runs need freed first := by
  induction first generalizing freed with
  | nil =>
      trivial
  | cons entry rest inductionHypothesis =>
      exact ⟨runs.1, inductionHypothesis runs.2⟩

/-- How often the walk takes a block as its victim. -/
def victimCount
    (entries : List BlockMeta)
    (id : BlockId) :
    Nat :=
  entries.countP fun entry => !entry.visited && entry.id = id

theorem victimCount_append
    (first second : List BlockMeta)
    (id : BlockId) :
    victimCount (first ++ second) id =
      victimCount first id + victimCount second id :=
  List.countP_append

theorem victimCount_cons
    (entry : BlockMeta)
    (rest : List BlockMeta)
    (id : BlockId) :
    victimCount (entry :: rest) id =
      victimCount [entry] id + victimCount rest id :=
  victimCount_append [entry] rest id

/-- The entries ahead can all be paid for. -/
structure Paid
    (ids : Finset BlockId)
    (store : TieredStore)
    (entries : List BlockMeta) : Prop where
  room : Room ids store
  known : ∀ entry ∈ entries, entry.id ∈ ids
  affordable : ∀ id, victimCount entries id ≤ store.lives id

/-- Effect of one visit that is paid for. -/
structure PaidVisit
    (ids : Finset BlockId)
    (sweep next : SweepState)
    (entry : BlockMeta)
    (rest : List BlockMeta) : Prop where
  paid : Paid ids next.store rest
  keeps : Keeps sweep.store next.store
  freed_eq : next.freed = charge sweep.freed entry
  lives_eq :
    ∀ id,
      next.store.lives id =
        sweep.store.lives id - victimCount [entry] id

section Walk

variable
  {ids : Finset BlockId}
  {tier : Tier}
  {sweep : SweepState}
  {entry : BlockMeta}
  {entries rest : List BlockMeta}
  {need : Nat}

/-- One visit. -/
theorem Paid.visit
    (inMemoryTier : tier ≠ .ssd)
    (paid : Paid ids sweep.store (entry :: rest)) :
    PaidVisit ids sweep (sweep.visit tier entry) entry rest := by
  have knownRest : ∀ other ∈ rest, other.id ∈ ids :=
    fun other member => paid.known other (List.mem_cons_of_mem _ member)
  cases visited : entry.visited with
  | true =>
      have free : ∀ id, victimCount [entry] id = 0 := by
        intro id
        simp [victimCount, visited]
      have sameCopies :
          (sweep.visit tier entry).store.copy = sweep.store.copy := by
        simp [SweepState.visit, visited]
      refine ⟨⟨?_, knownRest, ?_⟩, Keeps.of_copy_eq sameCopies, ?_, ?_⟩
      · simp only [SweepState.visit, visited, ↓reduceIte]
        exact ⟨paid.room.consistent, paid.room.accounted, paid.room.bytes,
          paid.room.slots, paid.room.fits⟩
      · intro id
        have affordable := paid.affordable id
        rw [victimCount_cons, free, Nat.zero_add] at affordable
        simp only [SweepState.visit, visited, ↓reduceIte]
        exact affordable
      · simp [SweepState.visit, charge, visited]
      · intro id
        rw [free]
        simp only [SweepState.visit, visited, ↓reduceIte]
        rfl
  | false =>
      have here : victimCount [entry] entry.id = 1 := by
        simp [victimCount, visited]
      have alive : 0 < sweep.store.lives entry.id := by
        have affordable := paid.affordable entry.id
        rw [victimCount_cons, here] at affordable
        omega
      obtain ⟨demoted, room, keeps, lives_eq⟩ :=
        paid.room.demote (paid.known entry (by simp)) alive
      have after :
          sweep.visit tier entry =
            { store := (sweep.store.demote entry.id).2
              freed := addSize sweep.freed entry.sizeBytes
              evicted := sweep.evicted ++ [entry.id] } := by
        simp [SweepState.visit, visited, evictBlock, inMemoryTier, demoted]
      have livesAfter :
          ∀ id,
            (sweep.store.demote entry.id).2.lives id =
              sweep.store.lives id - victimCount [entry] id := by
        intro id
        rw [lives_eq]
        by_cases same : id = entry.id
        · rw [if_pos same, same, here]
        · have elsewhere : victimCount [entry] id = 0 := by
            simp [victimCount, Ne.symm same]
          rw [if_neg same, elsewhere, Nat.sub_zero]
      rw [after]
      refine ⟨⟨room, knownRest, ?_⟩, keeps, ?_, livesAfter⟩
      · intro id
        have affordable := paid.affordable id
        rw [victimCount_cons] at affordable
        simp only [livesAfter]
        omega
      · simp [charge, visited]

/-- A walk that is paid for keeps every block, wherever it stops. -/
theorem Paid.walk_keeps
    (inMemoryTier : tier ≠ .ssd)
    (paid : Paid ids sweep.store entries) :
    Keeps sweep.store
      (ClockHand.walk (SweepState.done need) (SweepState.visit tier)
        entries sweep).store := by
  induction entries generalizing sweep with
  | nil =>
      exact Keeps.of_copy_eq rfl
  | cons entry rest inductionHypothesis =>
      by_cases stopped : sweep.done need = true
      · rw [ClockHand.walk_of_stopped stopped]
        exact Keeps.of_copy_eq rfl
      · have visited := paid.visit inMemoryTier
        rw [ClockHand.walk_cons, if_neg stopped]
        exact visited.keeps.trans (inductionHypothesis visited.paid)

/-- A walk that keeps needing bytes visits everything ahead of it. -/
theorem Paid.walk_runs
    (inMemoryTier : tier ≠ .ssd)
    (paid : Paid ids sweep.store entries)
    (next : BlockMeta)
    (runs : Runs need sweep.freed (entries ++ [next])) :
    let after :=
      ClockHand.walk (SweepState.done need) (SweepState.visit tier)
        entries sweep
    after.freed < need ∧
      ∀ id,
        after.store.lives id =
          sweep.store.lives id - victimCount entries id := by
  induction entries generalizing sweep with
  | nil =>
      exact ⟨runs.1, fun id => by simp [victimCount]⟩
  | cons entry rest inductionHypothesis =>
      obtain ⟨needed, runsRest⟩ := runs
      have goes : ¬ sweep.done need = true := by
        simpa using needed
      have visited := paid.visit inMemoryTier
      rw [← visited.freed_eq] at runsRest
      obtain ⟨below, lives⟩ :=
        inductionHypothesis visited.paid runsRest
      rw [ClockHand.walk_cons, if_neg goes]
      refine ⟨below, ?_⟩
      intro id
      rw [lives, visited.lives_eq, victimCount_cons entry rest,
        Nat.sub_sub]

/-- A walk that runs out of need stops before the next entry. -/
theorem Paid.walk_stops
    (inMemoryTier : tier ≠ .ssd)
    (paid : Paid ids sweep.store entries)
    (next : BlockMeta)
    (stops : ¬ Runs need sweep.freed (entries ++ [next])) :
    (ClockHand.walk (SweepState.done need) (SweepState.visit tier)
      entries sweep).done need = true := by
  induction entries generalizing sweep with
  | nil =>
      simpa [Runs] using stops
  | cons entry rest inductionHypothesis =>
      by_cases stopped : sweep.done need = true
      · rwa [ClockHand.walk_of_stopped stopped]
      · have visited := paid.visit inMemoryTier
        have needed : sweep.freed < need := by
          simpa using stopped
        rw [ClockHand.walk_cons, if_neg stopped]
        apply inductionHypothesis visited.paid
        intro runsRest
        rw [visited.freed_eq] at runsRest
        exact stops ⟨needed, runsRest⟩

end Walk

/-! ## Two laps over a snapshot -/

section Laps

variable
  {store : TieredStore}
  {order before : List BlockMeta}

/-- A block is not a victim more often than it is listed. -/
theorem victimCount_le_count
    (entries : List BlockMeta)
    (id : BlockId) :
    victimCount entries id ≤ (entries.map BlockMeta.id).count id := by
  unfold victimCount
  rw [List.count_eq_countP, List.countP_map]
  apply List.countP_mono_left
  intro entry _ isVictim
  simp only [Bool.and_eq_true, decide_eq_true_eq] at isVictim
  simpa using isVictim.2

/-- A lap takes each block of a snapshot at most once. -/
theorem victimCount_le_one
    {entries : List BlockMeta}
    (noDuplicates : (entries.map BlockMeta.id).Nodup)
    (id : BlockId) :
    victimCount entries id ≤ 1 :=
  Nat.le_trans (victimCount_le_count entries id)
    (List.nodup_iff_count_le_one.mp noDuplicates id)

/-- Blocks that are not listed are no victims. -/
theorem victimCount_of_unlisted
    {entries : List BlockMeta}
    {id : BlockId}
    (unlisted : id ∉ entries.map BlockMeta.id) :
    victimCount entries id = 0 := by
  have bound := victimCount_le_count entries id
  rw [List.count_eq_zero_of_not_mem unlisted] at bound
  omega

/-- The first lap spares a visited entry. -/
theorem victimCount_of_visited
    (noDuplicates : (order.map BlockMeta.id).Nodup)
    {entry : BlockMeta}
    (member : entry ∈ order)
    (visited : entry.visited = true) :
    victimCount order entry.id = 0 := by
  unfold victimCount
  rw [List.countP_eq_zero]
  intro other otherMember isVictim
  simp only [Bool.and_eq_true, Bool.not_eq_true',
    decide_eq_true_eq] at isVictim
  have same : other = entry :=
    List.inj_on_of_nodup_map noDuplicates otherMember member isVictim.2
  rw [same, visited] at isVictim
  simp at isVictim

/-- Clearing bits does not change which blocks are listed. -/
@[simp] theorem map_clearBit_ids
    (entries : List BlockMeta) :
    (entries.map BlockMeta.clearBit).map BlockMeta.id =
      entries.map BlockMeta.id := by
  simp [Function.comp_def, BlockMeta.clearBit]

/--
A first lap and part of a second can be paid for when every block is in memory
and the second lap revisits no first-lap victim that HBM does not hold.
-/
theorem victimCount_laps_le_lives
    (noDuplicates : (order.map BlockMeta.id).Nodup)
    (inMemory : ∀ entry ∈ order, store.InMemory entry.id)
    (sublist : before.Sublist order)
    (spared :
      ∀ entry ∈ before,
        entry.visited = true ∨
          (store.copy .hbm entry.id).isSome = true)
    (id : BlockId) :
    victimCount (order ++ before.map BlockMeta.clearBit) id ≤
      store.lives id := by
  have once := victimCount_le_one noDuplicates id
  have secondDuplicates :
      ((before.map BlockMeta.clearBit).map BlockMeta.id).Nodup := by
    rw [map_clearBit_ids]
    exact noDuplicates.sublist (sublist.map _)
  have again := victimCount_le_one secondDuplicates id
  rw [victimCount_append]
  by_cases revisited : id ∈ before.map BlockMeta.id
  · obtain ⟨entry, member, isId⟩ := List.mem_map.mp revisited
    subst isId
    have listed := sublist.subset member
    have held := inMemory entry listed
    rcases spared entry member with visited | inHbm
    · rw [victimCount_of_visited noDuplicates listed visited]
      simp only [lives, held, ↓reduceIte]
      omega
    · simp only [lives, held, inHbm, ↓reduceIte]
      omega
  · have none :
        victimCount (before.map BlockMeta.clearBit) id = 0 := by
      apply victimCount_of_unlisted
      rwa [map_clearBit_ids]
    by_cases listed : id ∈ order.map BlockMeta.id
    · obtain ⟨entry, member, isId⟩ := List.mem_map.mp listed
      subst isId
      simp only [lives, inMemory entry member, ↓reduceIte]
      omega
    · rw [victimCount_of_unlisted listed, none]
      exact Nat.zero_le _

end Laps

/-- A victim with no copy left in memory is erased everywhere. -/
theorem not_resident_of_visit
    {sweep : SweepState}
    {tier : Tier}
    {entry : BlockMeta}
    (consistent : sweep.store.SsdConsistent)
    (victim : entry.visited = false)
    (spent : sweep.store.lives entry.id = 0) :
    ¬ (sweep.visit tier entry).store.Resident entry.id := by
  rintro ⟨query, held⟩
  have erased :
      (sweep.visit tier entry).store =
        (sweep.store.erase entry.id).2 := by
    simp [SweepState.visit, victim, evictBlock, demote_of_no_lives spent]
  rw [erased, copy_erase consistent] at held
  simp at held

/-- A block without copies gets none from the rest of the walk. -/
theorem walk_not_resident
    {sweep : SweepState}
    (need : Nat)
    (tier : Tier)
    (entries : List BlockMeta)
    {id : BlockId}
    (consistent : sweep.store.SsdConsistent)
    (gone : ¬ sweep.store.Resident id) :
    ¬ (ClockHand.walk (SweepState.done need) (SweepState.visit tier)
      entries sweep).store.Resident id := by
  have initial : sweep.store.Copies fun held _ => held ≠ id := by
    refine ⟨consistent, ?_⟩
    intro query held data copied same
    exact gone ⟨query, by rw [← same, copied]; rfl⟩
  have final := (copies_stable _).walk initial need tier entries
  rintro ⟨query, held⟩
  obtain ⟨data, copied⟩ := Option.isSome_iff_exists.mp held
  exact final.every copied rfl

/-- First-lap victims that a second visit would find out of memory. -/
def doomed
    (store : TieredStore)
    (entry : BlockMeta) :
    Bool :=
  !entry.visited && (store.copy .hbm entry.id).isNone

/--
The walk still needs bytes when its second lap meets again a block that the
first lap demoted out of memory.
-/
def DropsOnSecondLap
    (store : TieredStore)
    (need : Nat)
    (order : List BlockMeta) : Prop :=
  ∃ before dropped after,
    order = before ++ dropped :: after ∧
      doomed store dropped = true ∧
      Runs need 0 (order ++ (before ++ [dropped]).map BlockMeta.clearBit)

section TwoLaps

variable
  {ids : Finset BlockId}
  {store : TieredStore}
  {order : List BlockMeta}
  {tier : Tier}
  {need : Nat}

/-- Both laps are paid for up to the first doomed entry of the second. -/
theorem paid_laps
    (room : Room ids store)
    (known : ∀ entry ∈ order, entry.id ∈ ids)
    (noDuplicates : (order.map BlockMeta.id).Nodup)
    (inMemory : ∀ entry ∈ order, store.InMemory entry.id)
    {before : List BlockMeta}
    (sublist : before.Sublist order)
    (spared : ∀ entry ∈ before, doomed store entry = false) :
    Paid ids store (order ++ before.map BlockMeta.clearBit) := by
  refine ⟨room, ?_, victimCount_laps_le_lives noDuplicates inMemory
    sublist ?_⟩
  · intro entry member
    rcases List.mem_append.mp member with inOrder | inSecond
    · exact known entry inOrder
    · obtain ⟨original, originalMember, isEntry⟩ :=
        List.mem_map.mp inSecond
      subst isEntry
      exact known original (sublist.subset originalMember)
  · intro entry member
    have notDoomed := spared entry member
    simp only [doomed, Bool.and_eq_false_iff,
      Bool.not_eq_false'] at notDoomed
    rcases notDoomed with visited | inHbm
    · exact Or.inl visited
    · exact Or.inr (by simpa using inHbm)

/-- The two laps split where the second one meets an entry again. -/
theorem laps_eq_of_shape
    {before after : List BlockMeta}
    {dropped : BlockMeta}
    (shape : order = before ++ dropped :: after) :
    order ++ order.map BlockMeta.clearBit =
      (order ++ before.map BlockMeta.clearBit) ++
        dropped.clearBit :: after.map BlockMeta.clearBit := by
  nth_rewrite 2 [shape]
  simp

/-- If the first doomed entry is met again, its block is lost. -/
theorem lost_of_runs
    (inMemoryTier : tier ≠ .ssd)
    {sweep : SweepState}
    {before after : List BlockMeta}
    {dropped : BlockMeta}
    (shape : order = before ++ dropped :: after)
    (isDoomed : doomed sweep.store dropped = true)
    (paid :
      Paid ids sweep.store (order ++ before.map BlockMeta.clearBit))
    (runs :
      Runs need sweep.freed
        (order ++ before.map BlockMeta.clearBit ++ [dropped.clearBit])) :
    ¬ (ClockHand.walk (SweepState.done need) (SweepState.visit tier)
      (order ++ order.map BlockMeta.clearBit) sweep).store.Resident
        dropped.id := by
  simp only [doomed, Bool.and_eq_true, Bool.not_eq_true',
    Option.isNone_iff_eq_none] at isDoomed
  obtain ⟨unvisited, notInHbm⟩ := isDoomed
  obtain ⟨below, livesAfter⟩ :=
    paid.walk_runs inMemoryTier dropped.clearBit runs
  have consistent :=
    ssdConsistent_stable.walk paid.room.consistent need tier
      (order ++ before.map BlockMeta.clearBit)
  rw [laps_eq_of_shape shape, ClockHand.walk_append, ClockHand.walk_cons]
  generalize
    ClockHand.walk (SweepState.done need) (SweepState.visit tier)
      (order ++ before.map BlockMeta.clearBit) sweep = middle
    at below livesAfter consistent
  have spent : middle.store.lives dropped.clearBit.id = 0 := by
    have victim : 0 < victimCount order dropped.id := by
      refine List.countP_pos_iff.mpr ⟨dropped, by simp [shape], ?_⟩
      simp [unvisited]
    have atMostOnce := lives_le_one notInHbm
    have after := livesAfter dropped.id
    rw [victimCount_append] at after
    show middle.store.lives dropped.id = 0
    omega
  have goes : ¬ middle.done need = true := by
    simpa using below
  rw [if_neg goes]
  exact
    walk_not_resident need tier _
      (ssdConsistent_stable.visit consistent tier dropped.clearBit)
      (not_resident_of_visit consistent rfl spent)

/-- The first doomed entry comes no later than any other. -/
theorem first_doomed_comes_first
    {before after otherBefore otherAfter : List BlockMeta}
    {dropped other : BlockMeta}
    (shape : order = before ++ dropped :: after)
    (spared : ∀ entry ∈ before, doomed store entry = false)
    (otherShape : order = otherBefore ++ other :: otherAfter)
    (otherDoomed : doomed store other = true) :
    before ++ [dropped] <+: otherBefore ++ [other] := by
  have isPrefix : before ++ [dropped] <+: order :=
    ⟨after, by simp [shape]⟩
  have otherIsPrefix : otherBefore ++ [other] <+: order :=
    ⟨otherAfter, by simp [otherShape]⟩
  have beforePrefix : before <+: order :=
    ⟨dropped :: after, shape.symm⟩
  by_cases later : before.length ≤ otherBefore.length
  · exact
      List.prefix_of_prefix_length_le isPrefix otherIsPrefix
        (by simpa using later)
  · have inside : otherBefore ++ [other] <+: before :=
      List.prefix_of_prefix_length_le otherIsPrefix beforePrefix
        (by simp only [List.length_append, List.length_singleton]; omega)
    have harmless := spared other (inside.subset (by simp))
    rw [otherDoomed] at harmless
    simp at harmless

/--
Two laps over blocks that are all in memory keep every block exactly when the
second lap stops before the first doomed entry.
-/
theorem laps_keep_iff
    (sweep : SweepState)
    (inMemoryTier : tier ≠ .ssd)
    (start : sweep.freed = 0)
    (room : Room ids sweep.store)
    (known : ∀ entry ∈ order, entry.id ∈ ids)
    (noDuplicates : (order.map BlockMeta.id).Nodup)
    (inMemory : ∀ entry ∈ order, sweep.store.InMemory entry.id) :
    Keeps sweep.store
        (ClockHand.walk (SweepState.done need) (SweepState.visit tier)
          (order ++ order.map BlockMeta.clearBit) sweep).store ↔
      ¬ DropsOnSecondLap sweep.store need order := by
  cases first : order.find? (doomed sweep.store) with
  | none =>
      rw [List.find?_eq_none] at first
      have paid :=
        paid_laps room known noDuplicates inMemory
          (List.Sublist.refl order) (fun entry member => by
            simpa using first entry member)
      refine iff_of_true (paid.walk_keeps inMemoryTier) ?_
      rintro ⟨before, dropped, after, shape, isDoomed, _⟩
      exact first dropped (by simp [shape]) isDoomed
  | some dropped =>
      obtain ⟨isDoomed, before, after, shape, notDoomed⟩ :=
        List.find?_eq_some_iff_append.mp first
      have spared :
          ∀ entry ∈ before, doomed sweep.store entry = false := by
        intro entry member
        simpa using notDoomed entry member
      have sublist : before.Sublist order := by
        rw [shape]
        exact List.sublist_append_left before (dropped :: after)
      have paid :=
        paid_laps room known noDuplicates inMemory sublist spared
      by_cases runs :
          Runs need sweep.freed
            (order ++ before.map BlockMeta.clearBit ++
              [dropped.clearBit])
      · refine iff_of_false ?_ ?_
        · intro keeps
          obtain ⟨query, held⟩ :=
            keeps.resident dropped.id (by
              rcases inMemory dropped (by simp [shape]) with held | held
              · exact ⟨.hbm, held⟩
              · exact ⟨.dram, held⟩)
          exact
            lost_of_runs inMemoryTier shape isDoomed paid runs
              ⟨query, held⟩
        · rw [start] at runs
          refine not_not.mpr ⟨before, dropped, after, shape, isDoomed, ?_⟩
          simpa using runs
      · have stops := paid.walk_stops inMemoryTier dropped.clearBit runs
        refine iff_of_true ?_ ?_
        · rw [laps_eq_of_shape shape, ClockHand.walk_append,
            ClockHand.walk_of_stopped stops]
          exact paid.walk_keeps inMemoryTier
        · rintro ⟨otherBefore, other, otherAfter, otherShape, otherDoomed,
            otherRuns⟩
          obtain ⟨remaining, isOther⟩ :=
            first_doomed_comes_first shape spared otherShape otherDoomed
          rw [← isOther, List.map_append, ← List.append_assoc] at otherRuns
          apply runs
          rw [start]
          simpa using otherRuns.of_append

end TwoLaps

/-! ## Whole passes -/

/-- No two tiers disagree about the bytes of a block. -/
def TieredStore.TiersAgree
    (store : TieredStore) : Prop :=
  ∀ id, store.CopiesAgree id

/-- Every copy from before is still stored in some tier, byte by byte. -/
def TieredStore.SameBytes
    (before after : TieredStore) : Prop :=
  ∀ {tier id data},
    before.copy tier id = some data →
    ∃ target, after.copy target id = some data

/-- The blocks that a snapshot lists. -/
def listedIds
    (blocks : List BlockMeta) :
    Finset BlockId :=
  (blocks.map BlockMeta.id).toFinset

/-- The second lap of a DRAM pass reaches a block that the first one demoted. -/
def Evictor.DropsBlock
    (evictor : Evictor)
    (store : TieredStore)
    (blocks : List BlockMeta) : Prop :=
  evictor.pressure store .dram = true ∧
    DropsOnSecondLap store (evictor.need store .dram)
      (evictor.handOrder .dram blocks)

section Passes

variable
  {evictor : Evictor}
  {store : TieredStore}
  {tier : Tier}
  {blocks : List BlockMeta}

/-- A pass never makes up bytes. -/
theorem pass_bytes
    (consistent : store.SsdConsistent)
    {query : Tier}
    {id : BlockId}
    {data : List UInt8}
    (held :
      (evictor.runPassForTier store tier blocks).2.2.copy query id =
        some data) :
    ∃ source, store.copy source id = some data := by
  have initial :
      store.Copies fun id data =>
        ∃ source, store.copy source id = some data :=
    ⟨consistent, fun {source _ _} copied => ⟨source, copied⟩⟩
  exact
    ((copies_stable _).runPassForTier initial evictor tier blocks).every
      held

/-- When the tiers agree, keeping blocks means keeping bytes. -/
theorem sameBytes_iff_keeps
    (consistent : store.SsdConsistent)
    (agree : store.TiersAgree) :
    store.SameBytes (evictor.runPassForTier store tier blocks).2.2 ↔
      store.Keeps (evictor.runPassForTier store tier blocks).2.2 := by
  constructor
  · intro same
    refine ⟨?_, fun held => pass_bytes consistent held⟩
    rintro id ⟨query, held⟩
    obtain ⟨data, copied⟩ := Option.isSome_iff_exists.mp held
    obtain ⟨target, kept⟩ := same copied
    exact ⟨target, by simp [kept]⟩
  · intro keeps query id data copied
    obtain ⟨target, held⟩ := keeps.resident id ⟨query, by simp [copied]⟩
    obtain ⟨kept, isKept⟩ := Option.isSome_iff_exists.mp held
    obtain ⟨source, original⟩ := keeps.bytes isKept
    exact ⟨target, by rw [isKept, agree id _ _ _ _ copied original]⟩

/-- The snapshot in hand order lists the same blocks. -/
theorem handOrder_perm :
    (evictor.handOrder tier blocks).Perm blocks :=
  List.rotate_perm blocks _

/-- Room for the listed blocks, from the bytes and slots they may need. -/
theorem room_of_listed
    (consistent : store.SsdConsistent)
    (accounted : store.dram.Accounted)
    (slots : blocks.length ≤ store.freeSlotCount)
    (fits : store.FitSlots (listedIds blocks))
    (bytes :
      store.dram.usedBytes +
          ∑ id ∈ listedIds blocks, store.pendingBytes id ≤
        store.dram.capacityBytes) :
    Room (listedIds blocks) store where
  consistent := consistent
  accounted := accounted
  bytes := bytes
  slots :=
    calc
      ((listedIds blocks).filter store.InMemory).card
          ≤ (listedIds blocks).card := Finset.card_filter_le _ _
      _ ≤ (blocks.map BlockMeta.id).length := List.toFinset_card_le _
      _ = blocks.length := List.length_map _
      _ ≤ store.freeSlotCount := slots
  fits := fits

/-- Demoting blocks that are in DRAM already adds no bytes there. -/
theorem pendingBytes_of_dram_listed
    (consistent : store.SsdConsistent)
    (listed : blocks.Perm (store.snapshot .dram)) :
    ∑ id ∈ listedIds blocks, store.pendingBytes id = 0 := by
  apply Finset.sum_eq_zero
  intro id member
  have held :=
    (mem_snapshot_ids consistent).mp
      ((listed.map BlockMeta.id).subset (List.mem_toFinset.mp member))
  simp [pendingBytes, held]

/-- Demoting blocks from HBM adds at most their sizes to DRAM. -/
theorem pendingBytes_of_hbm_listed
    (listed : blocks.Perm (store.snapshot .hbm)) :
    ∑ id ∈ listedIds blocks, store.pendingBytes id ≤
      (blocks.map BlockMeta.sizeBytes).sum := by
  have noDuplicates : (blocks.map BlockMeta.id).Nodup :=
    (listed.map BlockMeta.id).nodup_iff.mpr (store.snapshot_ids_nodup .hbm)
  unfold listedIds
  rw [List.sum_toFinset _ noDuplicates, List.map_map]
  apply List.sum_le_sum
  intro entry member
  obtain ⟨data, held, size⟩ :=
    copy_of_mem_snapshot_hbm (listed.subset member)
  simp only [Function.comp_apply, pendingBytes, held, Option.map_some,
    Option.getD_some, size]
  split
  · exact Nat.zero_le _
  · exact Nat.le_refl _

/-- What a pass keeps is decided by its second lap. -/
theorem pass_keeps_iff
    (evictor : Evictor)
    (inMemoryTier : tier ≠ .ssd)
    (listed : blocks.Perm (store.snapshot tier))
    (room : Room (listedIds blocks) store) :
    store.Keeps (evictor.runPassForTier store tier blocks).2.2 ↔
      ¬ (evictor.pressure store tier = true ∧
        DropsOnSecondLap store (evictor.need store tier)
          (evictor.handOrder tier blocks)) := by
  have inMemory :
      ∀ entry ∈ evictor.handOrder tier blocks,
        store.InMemory entry.id := by
    intro entry member
    have held :=
      (mem_snapshot_ids room.consistent).mp
        (List.mem_map_of_mem
          (listed.subset (handOrder_perm.subset member)))
    cases tier with
    | hbm =>
        exact Or.inl held
    | dram =>
        exact Or.inr held
    | ssd =>
        exact (inMemoryTier rfl).elim
  have known :
      ∀ entry ∈ evictor.handOrder tier blocks,
        entry.id ∈ listedIds blocks := by
    intro entry member
    exact List.mem_toFinset.mpr
      (List.mem_map_of_mem (handOrder_perm.subset member))
  have noDuplicates :
      ((evictor.handOrder tier blocks).map BlockMeta.id).Nodup :=
    ((handOrder_perm.trans listed).map BlockMeta.id).nodup_iff.mpr
      (store.snapshot_ids_nodup tier)
  unfold Evictor.runPassForTier
  by_cases runs : evictor.pressure store tier = true ∧ blocks ≠ []
  · rw [if_pos runs]
    simp only [evictor.sweep_state, runs.1, true_and]
    exact
      laps_keep_iff { store := store, freed := 0, evicted := [] }
        inMemoryTier rfl room known noDuplicates inMemory
  · rw [if_neg runs]
    refine iff_of_true (Keeps.of_copy_eq rfl) ?_
    rintro ⟨pressed, before, dropped, after, shape, _⟩
    refine runs ⟨pressed, ?_⟩
    intro empty
    simp [Evictor.handOrder, empty] at shape

end Passes

/--
A DRAM pass with a free SSD slot for every DRAM block keeps every block exactly
when its second lap does not reach a block that the first lap demoted.  An HBM
pass with room for every HBM block in both slower tiers always keeps them.
-/
theorem eviction_pass_keeps_blocks_iff
    (evictor : Evictor)
    {store : TieredStore}
    (consistent : store.SsdConsistent)
    (accounted : store.dram.Accounted)
    {dramBlocks hbmBlocks : List BlockMeta}
    (dramListed : dramBlocks.Perm (store.snapshot .dram))
    (hbmListed : hbmBlocks.Perm (store.snapshot .hbm)) :
    (dramBlocks.length ≤ store.freeSlotCount →
      store.FitSlots (listedIds dramBlocks) →
      (store.Keeps (evictor.runPassForTier store .dram dramBlocks).2.2 ↔
          ¬ evictor.DropsBlock store dramBlocks) ∧
        (store.TiersAgree →
          (store.SameBytes
              (evictor.runPassForTier store .dram dramBlocks).2.2 ↔
            ¬ evictor.DropsBlock store dramBlocks))) ∧
      (hbmBlocks.length ≤ store.freeSlotCount →
        store.FitSlots (listedIds hbmBlocks) →
        store.dram.usedBytes + (hbmBlocks.map BlockMeta.sizeBytes).sum ≤
          store.dram.capacityBytes →
        store.Keeps (evictor.runPassForTier store .hbm hbmBlocks).2.2 ∧
          (store.TiersAgree →
            store.SameBytes
              (evictor.runPassForTier store .hbm hbmBlocks).2.2)) := by
  constructor
  · intro slots fits
    have room : Room (listedIds dramBlocks) store := by
      refine room_of_listed consistent accounted slots fits ?_
      rw [pendingBytes_of_dram_listed consistent dramListed]
      exact accounted.usedBytes_le
    have keepsIff := pass_keeps_iff evictor (by simp) dramListed room
    refine ⟨keepsIff, ?_⟩
    intro agree
    rw [sameBytes_iff_keeps consistent agree]
    exact keepsIff
  · intro slots fits bytes
    have needed := pendingBytes_of_hbm_listed hbmListed
    have room : Room (listedIds hbmBlocks) store :=
      room_of_listed consistent accounted slots fits (by omega)
    have keeps :
        store.Keeps (evictor.runPassForTier store .hbm hbmBlocks).2.2 := by
      rw [pass_keeps_iff evictor (by simp) hbmListed room]
      rintro ⟨_, before, dropped, after, shape, isDoomed, _⟩
      have member : dropped ∈ evictor.handOrder .hbm hbmBlocks := by
        rw [shape]
        simp
      obtain ⟨data, held, _⟩ :=
        copy_of_mem_snapshot_hbm
          (hbmListed.subset (handOrder_perm.subset member))
      simp [doomed, held] at isDoomed
    refine ⟨keeps, ?_⟩
    intro agree
    exact (sameBytes_iff_keeps consistent agree).mpr keeps

/-! ## A pass that drops a block -/

/-- Identity of a block of one byte. -/
def smallId : BlockId :=
  ⟨.fill 1, 0, 0, 0⟩

/-- Identity of a block of nine bytes. -/
def largeId : BlockId :=
  ⟨.fill 2, 0, 0, 0⟩

/-- Ten bytes of HBM and of DRAM over an empty SSD file. -/
def tenByteStore : TieredStore :=
  TieredStore.create
    { hbmBytes := 10, dramBytes := 10, ssd := some twoSlotGeometry }
    fun _ => 0

/-- Both blocks are inserted into one tier and the large one is read once. -/
def crowdedStore
    (tier : Tier) :
    TieredStore :=
  let small :=
    (tenByteStore.put { id := smallId, data := [7] } tier).2
  let both :=
    (small.put { id := largeId, data := List.replicate 9 8 } tier).2
  (both.get largeId).2

/-- Default watermarks, with each hand at the second position. -/
def secondHandEvictor : Evictor where
  config := {}
  hand := fun _ => 1

/-- Every payload of the crowded store has at most sixteen bytes. -/
theorem crowdedStore_copies
    (tier : Tier) :
    (crowdedStore tier).Copies fun _ data => data.length ≤ 16 := by
  have fresh :
      tenByteStore.Copies fun _ data => data.length ≤ 16 := by
    refine create_zero_copies _ ?_ _
    intro geometry configured
    simp only [Option.some.injEq] at configured
    subst configured
    exact twoSlotGeometry_small
  exact
    (copies_stable _).get
      ((fresh.put (by decide) tier).put (by decide) tier) largeId

/-- Its payloads fit the slots of its file. -/
theorem crowdedStore_fitSlots
    (tier : Tier)
    (ids : Finset BlockId) :
    (crowdedStore tier).FitSlots ids := by
  intro tierStore present id _ query data held
  have sixteen :
      (crowdedStore tier).ssd.map (fun tierStore =>
        tierStore.geometry.slotPayloadBytes) = some 16 := by
    cases tier <;> decide +kernel
  simp only [present, Option.map_some, Option.some.injEq] at sixteen
  rw [sixteen]
  exact (crowdedStore_copies tier).every held

/-- Its DRAM tier counts what it stores. -/
theorem crowdedStore_accounted
    (tier : Tier) :
    (crowdedStore tier).dram.Accounted where
  usedBytes_eq := by cases tier <;> decide +kernel
  usedBytes_le := by cases tier <;> decide +kernel
  capacityBytes_lt := by cases tier <;> decide +kernel

/--
The pass demotes the small block in its first lap, spares the large one, and
drops the small block from SSD when the second lap meets it again.
-/
theorem dram_pass_drops_demoted_block :
    (crowdedStore .dram).SsdConsistent ∧
      (crowdedStore .dram).dram.Accounted ∧
      ((crowdedStore .dram).snapshot .dram).length ≤
        (crowdedStore .dram).freeSlotCount ∧
      (crowdedStore .dram).FitSlots
        (listedIds ((crowdedStore .dram).snapshot .dram)) ∧
      (crowdedStore .dram).Resident smallId ∧
      ¬ (secondHandEvictor.runPassForTier (crowdedStore .dram) .dram
        ((crowdedStore .dram).snapshot .dram)).2.2.Resident smallId :=
  ⟨(crowdedStore_copies .dram).consistent, crowdedStore_accounted .dram,
    by decide +kernel, crowdedStore_fitSlots .dram _, by decide +kernel,
    by decide +kernel⟩

theorem eviction_pass_keeps_blocks_iff_crowded :
    ((crowdedStore .dram).Keeps
        (secondHandEvictor.runPassForTier (crowdedStore .dram) .dram
          ((crowdedStore .dram).snapshot .dram)).2.2 ↔
      ¬ secondHandEvictor.DropsBlock (crowdedStore .dram)
        ((crowdedStore .dram).snapshot .dram)) ∧
      (crowdedStore .hbm).Keeps
        (secondHandEvictor.runPassForTier (crowdedStore .hbm) .hbm
          ((crowdedStore .hbm).snapshot .hbm)).2.2 :=
  have settled (tier : Tier) :=
    eviction_pass_keeps_blocks_iff secondHandEvictor
      (crowdedStore_copies tier).consistent (crowdedStore_accounted tier)
      (List.Perm.refl ((crowdedStore tier).snapshot .dram))
      (List.Perm.refl ((crowdedStore tier).snapshot .hbm))
  ⟨((settled .dram).1 (by decide +kernel)
      (crowdedStore_fitSlots .dram _)).1,
    ((settled .hbm).2 (by decide +kernel) (crowdedStore_fitSlots .hbm _)
      (by decide +kernel)).1⟩

end Lethe
