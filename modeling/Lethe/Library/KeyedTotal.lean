import Mathlib.Algebra.BigOperators.Group.List.Basic
import Mathlib.Algebra.Order.Ring.Nat
import Mathlib.Data.List.AList

/-!
# Totals over association lists

The sum of a weight over the entries of a duplicate-free association list, and
how it changes when one entry is added or removed.
-/

namespace AList

variable {α : Type} {β : α → Type}

/-- Sum of a weight over all entries. -/
def total
    (weight : (Σ key, β key) → Nat)
    (entries : AList β) :
    Nat :=
  (entries.entries.map weight).sum

variable [DecidableEq α]

/-- A fresh entry adds its weight. -/
theorem total_insert_of_notMem
    {weight : (Σ key, β key) → Nat}
    {entries : AList β}
    {key : α}
    {value : β key}
    (fresh : key ∉ entries) :
    total weight (entries.insert key value) =
      weight ⟨key, value⟩ + total weight entries := by
  unfold total
  rw [entries_insert_of_notMem fresh]
  simp

/-- An association list consists of one of its entries and the others. -/
theorem entries_perm_of_lookup
    {entries : AList β}
    {key : α}
    {value : β key}
    (present : entries.lookup key = some value) :
    entries.entries.Perm (⟨key, value⟩ :: (entries.erase key).entries) := by
  have inKeys : key ∈ entries.entries.keys :=
    lookup_isSome.mp (by simp [present])
  obtain ⟨found, before, after, fresh, shape, erased⟩ :=
    List.exists_of_kerase inKeys
  have sameValue : found = value := by
    have foundHere : entries.lookup key = some found := by
      apply (List.mem_dlookup_iff entries.nodupKeys).mpr
      rw [shape]
      simp
    simpa [foundHere] using present
  subst sameValue
  have erasedEntries : (entries.erase key).entries = before ++ after :=
    erased
  rw [erasedEntries, shape]
  exact List.perm_middle

/-- A removed entry takes its weight with it. -/
theorem total_erase_of_lookup
    {weight : (Σ key, β key) → Nat}
    {entries : AList β}
    {key : α}
    {value : β key}
    (present : entries.lookup key = some value) :
    total weight entries =
      weight ⟨key, value⟩ + total weight (entries.erase key) := by
  have parts := ((entries_perm_of_lookup present).map weight).sum_eq
  simpa [total] using parts

end AList
