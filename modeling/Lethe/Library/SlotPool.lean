import Mathlib.Data.List.AList
import Mathlib.Data.List.Range

/-!
# Numbered places and the tables they hold

A pool of numbered places is split between a free list and the places in use.
As long as every number below the bound stands in exactly one of the two lists,
and once, a place that is taken from the free list is nobody else's, and the
free list is empty only if all places are in use.

What such a pool is for is a table with a bounded number of keys: it takes a new
key while it has fewer keys than places.
-/

namespace SlotPool

/-- Every number below the bound is in one of the two lists, and once. -/
def Split
    (total : Nat)
    (free used : List Nat) :
    Prop :=
  (free ++ used).Perm (List.range total)

namespace Split

variable
  {total : Nat}
  {free used : List Nat}

/-- Lists without repetition that share out the numbers below the bound. -/
theorem of_mem
    (freeOnce : free.Nodup)
    (usedOnce : used.Nodup)
    (apart : ∀ place ∈ free, place ∉ used)
    (places : ∀ place, place < total ↔ place ∈ free ∨ place ∈ used) :
    Split total free used := by
  have once : (free ++ used).Nodup := by
    refine List.nodup_append.mpr ⟨freeOnce, usedOnce, ?_⟩
    intro place isFree other isUsed same
    subst same
    exact apart place isFree isUsed
  refine (List.perm_ext_iff_of_nodup once List.nodup_range).mpr ?_
  intro place
  rw [List.mem_append, List.mem_range, places]

/-- No number occurs twice in the two lists together. -/
theorem nodup_append
    (split : Split total free used) :
    (free ++ used).Nodup :=
  split.nodup_iff.mpr List.nodup_range

/-- The free list has no repetition. -/
theorem free_nodup
    (split : Split total free used) :
    free.Nodup :=
  (List.nodup_append.mp split.nodup_append).1

/-- No place is in use twice. -/
theorem used_nodup
    (split : Split total free used) :
    used.Nodup :=
  (List.nodup_append.mp split.nodup_append).2.1

/-- A free place is not in use. -/
theorem notMem_used
    (split : Split total free used)
    {place : Nat}
    (isFree : place ∈ free) :
    place ∉ used := by
  intro isUsed
  exact
    (List.nodup_append.mp split.nodup_append).2.2 place isFree place isUsed
      rfl

/-- The places are those that are free or in use. -/
theorem lt_iff
    (split : Split total free used)
    (place : Nat) :
    place < total ↔ place ∈ free ∨ place ∈ used := by
  rw [← List.mem_range, ← split.mem_iff, List.mem_append]

/-- A place is free exactly if fewer places are in use than there are. -/
theorem free_ne_nil_iff
    (split : Split total free used) :
    free ≠ [] ↔ used.length < total := by
  have counted : free.length + used.length = total := by
    simpa using split.length_eq
  rw [← List.length_pos_iff]
  omega

end Split

end SlotPool

/-- A table with at most as many keys as it has places. -/
structure BoundedTable (Key Value : Type) where
  places : Nat
  entries : AList fun _ : Key => Value
  bounded : entries.keys.length ≤ places

namespace BoundedTable

variable
  {Key Value : Type}
  [DecidableEq Key]

/-- A table without keys. -/
def empty
    (places : Nat) :
    BoundedTable Key Value where
  places := places
  entries := ∅
  bounded := Nat.zero_le _

/-- The value of a key. -/
def lookup
    (table : BoundedTable Key Value)
    (key : Key) :
    Option Value :=
  table.entries.lookup key

/-- Add a key if there is a place; a key that is there keeps its value. -/
def add
    (table : BoundedTable Key Value)
    (key : Key)
    (value : Value) :
    Bool × BoundedTable Key Value :=
  if key ∈ table.entries then
    (true, table)
  else if room : table.entries.keys.length < table.places then
    (true,
      { places := table.places
        entries := table.entries.insert key value
        bounded := by
          rw [AList.keys_insert, List.length_cons]
          exact Nat.lt_of_le_of_lt List.length_erase_le room })
  else
    (false, table)

/-- Give up the place of a key. -/
def remove
    (table : BoundedTable Key Value)
    (key : Key) :
    BoundedTable Key Value where
  places := table.places
  entries := table.entries.erase key
  bounded := by
    rw [AList.keys_erase]
    exact Nat.le_trans List.length_erase_le table.bounded

@[simp] theorem places_add
    (table : BoundedTable Key Value)
    (key : Key)
    (value : Value) :
    (table.add key value).2.places = table.places := by
  unfold add
  split
  · rfl
  · split <;> rfl

/-- A key is accepted if it is there or a place is left. -/
theorem add_accepted_iff
    (table : BoundedTable Key Value)
    (key : Key)
    (value : Value) :
    (table.add key value).1 = true ↔
      key ∈ table.entries ∨
        table.entries.keys.length < table.places := by
  unfold add
  split
  · next present =>
      simp [present]
  · next absent =>
      split
      · next room =>
          simp [room]
      · next full =>
          simp [absent, full]

/-- An accepted new key has the new value, and the other keys keep theirs. -/
theorem lookup_add
    (table : BoundedTable Key Value)
    (key : Key)
    (value : Value)
    (other : Key) :
    (table.add key value).2.lookup other =
      if (table.add key value).1 = true ∧ table.lookup key = none ∧
          other = key then
        some value
      else
        table.lookup other := by
  unfold add lookup
  split
  · next present =>
      have notNone : table.entries.lookup key ≠ none :=
        fun missed => AList.lookup_eq_none.mp missed present
      simp [notNone]
  · next absent =>
      have missed : table.entries.lookup key = none :=
        AList.lookup_eq_none.mpr absent
      split
      · by_cases same : other = key
        · subst same
          simp [missed]
        · simp [same, AList.lookup_insert_ne same]
      · simp

/-- A removed key has no value, and the other keys keep theirs. -/
theorem lookup_remove
    (table : BoundedTable Key Value)
    (key other : Key) :
    (table.remove key).lookup other =
      if other = key then none else table.lookup other := by
  unfold remove lookup
  by_cases same : other = key
  · subst same
    simp
  · simp [same, AList.lookup_erase_ne same]

end BoundedTable
