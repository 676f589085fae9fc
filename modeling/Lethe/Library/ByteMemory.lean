import Mathlib.Data.List.Basic

namespace ByteMemory

/-!
# Byte-addressed memory and interrupted store sequences

A memory maps every address to a byte.  A piece of code that only writes is the
list of its individual stores in program order, so that stopping it at an
arbitrary point is taking a prefix of that list.  Frame lemmas say which reads
a store sequence cannot affect.
-/

/-- Contents of a byte-addressed region. -/
abbrev Memory := Nat → UInt8

/-- One single-byte store. -/
structure Store where
  address : Nat
  value : UInt8
  deriving Repr, DecidableEq

/-- Perform one store. -/
def write
    (memory : Memory)
    (entry : Store) :
    Memory :=
  fun address =>
    if address = entry.address then entry.value else memory address

/-- Perform a sequence of stores in program order. -/
def run
    (memory : Memory)
    (stores : List Store) :
    Memory :=
  stores.foldl write memory

/-- The stores that copy a byte string to consecutive addresses. -/
def storesAt
    (address : Nat) :
    List UInt8 → List Store
  | [] => []
  | byte :: rest =>
      ⟨address, byte⟩ :: storesAt (address + 1) rest

/-- Read a byte string from consecutive addresses. -/
def load
    (memory : Memory)
    (address : Nat) :
    Nat → List UInt8
  | 0 => []
  | count + 1 =>
      memory address :: load memory (address + 1) count

@[simp] theorem run_nil
    (memory : Memory) :
    run memory [] = memory :=
  rfl

/-- Store sequences compose by concatenation. -/
theorem run_append
    (memory : Memory)
    (first second : List Store) :
    run memory (first ++ second) =
      run (run memory first) second := by
  simp [run]

/-- An address that no store mentions keeps its byte. -/
theorem run_of_untouched
    {memory : Memory}
    {stores : List Store}
    {address : Nat}
    (untouched :
      ∀ entry ∈ stores, entry.address ≠ address) :
    run memory stores address = memory address := by
  induction stores generalizing memory with
  | nil =>
      rfl
  | cons entry rest inductionHypothesis =>
      have headMisses : address ≠ entry.address :=
        (untouched entry (by simp)).symm
      have restUntouched :
          ∀ later ∈ rest, later.address ≠ address :=
        fun later member => untouched later (by simp [member])
      have tail :
          run (write memory entry) rest address =
            write memory entry address :=
        inductionHypothesis restUntouched
      simpa [run, write, headMisses] using tail

/-- Copied bytes land between the first address and the end of the string. -/
theorem mem_storesAt_bounds
    {address : Nat}
    {bytes : List UInt8}
    {entry : Store}
    (member : entry ∈ storesAt address bytes) :
    address ≤ entry.address ∧
      entry.address < address + bytes.length := by
  induction bytes generalizing address with
  | nil =>
      simp [storesAt] at member
  | cons byte rest inductionHypothesis =>
      simp only [storesAt, List.mem_cons] at member
      rcases member with isHead | inRest
      · subst isHead
        simp
      · have bounds := inductionHypothesis inRest
        simp only [List.length_cons]
        omega

@[simp] theorem length_load
    (memory : Memory)
    (address count : Nat) :
    (load memory address count).length = count := by
  induction count generalizing address with
  | zero =>
      rfl
  | succ count inductionHypothesis =>
      simp [load, inductionHypothesis]

/-- The first bytes of a longer read are a shorter read. -/
theorem take_load
    (memory : Memory)
    {address count longer : Nat}
    (shorter : count ≤ longer) :
    (load memory address longer).take count = load memory address count := by
  induction count generalizing address longer with
  | zero =>
      rfl
  | succ count inductionHypothesis =>
      obtain ⟨rest, isLonger⟩ :=
        Nat.exists_eq_succ_of_ne_zero (Nat.ne_zero_of_lt shorter)
      subst isLonger
      simp only [load, List.take_succ_cons]
      rw [inductionHypothesis (Nat.le_of_succ_le_succ shorter)]

/-- Memories that agree on a range give the same bytes when it is read. -/
theorem load_congr
    {first second : Memory}
    {address count : Nat}
    (agree :
      ∀ query,
        address ≤ query →
        query < address + count →
        first query = second query) :
    load first address count = load second address count := by
  induction count generalizing address with
  | zero =>
      rfl
  | succ count inductionHypothesis =>
      have head : first address = second address :=
        agree address (Nat.le_refl address) (by omega)
      have tail :
          load first (address + 1) count =
            load second (address + 1) count :=
        inductionHypothesis
          (fun query lower upper =>
            agree query (by omega) (by omega))
      simp [load, head, tail]

/-- Memories from which the same bytes are read agree on the range. -/
theorem eq_of_load_eq
    {first second : Memory}
    {address count query : Nat}
    (sameBytes : load first address count = load second address count)
    (lower : address ≤ query)
    (upper : query < address + count) :
    first query = second query := by
  induction count generalizing address with
  | zero =>
      omega
  | succ count inductionHypothesis =>
      simp only [load, List.cons.injEq] at sameBytes
      by_cases atHead : query = address
      · rw [atHead]
        exact sameBytes.1
      · exact inductionHypothesis sameBytes.2 (by omega) (by omega)

/-- Memories from which the same bytes are read agree on every part. -/
theorem load_part_eq
    {first second : Memory}
    {address count part size : Nat}
    (sameBytes : load first address count = load second address count)
    (lower : address ≤ part)
    (upper : part + size ≤ address + count) :
    load first part size = load second part size := by
  apply load_congr
  intro query fromPart toPart
  exact eq_of_load_eq sameBytes (by omega) (by omega)

/-- Stores outside a range do not change what is read from it. -/
theorem load_run_of_untouched
    {memory : Memory}
    {stores : List Store}
    {address count : Nat}
    (untouched :
      ∀ entry ∈ stores,
        entry.address < address ∨
          address + count ≤ entry.address) :
    load (run memory stores) address count =
      load memory address count := by
  apply load_congr
  intro query lower upper
  apply run_of_untouched
  intro entry member
  rcases untouched entry member with below | above
  · omega
  · omega

/-- A copied byte string is read back from the addresses it was copied to. -/
theorem load_run_storesAt
    (memory : Memory)
    (address : Nat)
    (bytes : List UInt8) :
    load (run memory (storesAt address bytes)) address bytes.length =
      bytes := by
  induction bytes generalizing memory address with
  | nil =>
      rfl
  | cons byte rest inductionHypothesis =>
      have head :
          run memory (storesAt address (byte :: rest)) address = byte := by
        have untouched :
            ∀ entry ∈ storesAt (address + 1) rest,
              entry.address ≠ address := by
          intro entry member
          have bounds := mem_storesAt_bounds member
          omega
        have kept :
            run (write memory ⟨address, byte⟩)
                (storesAt (address + 1) rest) address =
              write memory ⟨address, byte⟩ address :=
          run_of_untouched untouched
        simpa [storesAt, run, write] using kept
      have tail :=
        inductionHypothesis
          (write memory ⟨address, byte⟩) (address + 1)
      simp only [List.length_cons, load, head]
      rw [show
        run memory (storesAt address (byte :: rest)) =
          run (write memory ⟨address, byte⟩)
            (storesAt (address + 1) rest) from rfl, tail]

/-- Two byte strings placed at given addresses share no address. -/
def Apart
    (first second : Nat × List UInt8) : Prop :=
  first.1 + first.2.length ≤ second.1 ∨
    second.1 + second.2.length ≤ first.1

/-- The stores that copy several byte strings to their addresses, in order. -/
def storesOf
    (fields : List (Nat × List UInt8)) :
    List Store :=
  fields.flatMap fun field => storesAt field.1 field.2

/-- A store of a field sequence belongs to one of its fields. -/
theorem mem_storesOf
    {fields : List (Nat × List UInt8)}
    {entry : Store}
    (member : entry ∈ storesOf fields) :
    ∃ field ∈ fields,
      field.1 ≤ entry.address ∧
        entry.address < field.1 + field.2.length := by
  obtain ⟨field, fieldMember, stored⟩ := List.mem_flatMap.mp member
  exact ⟨field, fieldMember, mem_storesAt_bounds stored⟩

/-- Each of several pairwise disjoint copied byte strings is read back. -/
theorem load_run_storesOf
    {memory : Memory}
    {fields : List (Nat × List UInt8)}
    {field : Nat × List UInt8}
    (disjoint : fields.Pairwise Apart)
    (member : field ∈ fields) :
    load (run memory (storesOf fields)) field.1 field.2.length =
      field.2 := by
  induction fields generalizing memory with
  | nil =>
      simp at member
  | cons head rest inductionHypothesis =>
      have parts := List.pairwise_cons.mp disjoint
      have shape :
          run memory (storesOf (head :: rest)) =
            run (run memory (storesAt head.1 head.2)) (storesOf rest) := by
        rw [← run_append]
        rfl
      rw [shape]
      rcases List.mem_cons.mp member with isHead | inRest
      · subst isHead
        rw [load_run_of_untouched, load_run_storesAt]
        intro entry entryMember
        obtain ⟨other, otherMember, lower, upper⟩ :=
          mem_storesOf entryMember
        rcases parts.1 other otherMember with before | after
        · exact Or.inr (Nat.le_trans before lower)
        · exact Or.inl (Nat.lt_of_lt_of_le upper after)
      · exact inductionHypothesis parts.2 inRest

end ByteMemory
