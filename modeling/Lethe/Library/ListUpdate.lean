import Mathlib.Data.List.Perm.Basic
import Mathlib.Algebra.BigOperators.Group.List.Basic
import Mathlib.Algebra.Order.Ring.Nat

namespace ListUpdate

/-!
# Lists of which one element changes

A list of threads in which one thread takes a step.  Counts, sums and joined
lists over all elements change by that element alone.
-/

variable {Item Part : Type}

/-- Before and after the change the list is that element and the others. -/
theorem exists_rest
    {items : List Item}
    {index : Nat}
    {before : Item}
    (found : items[index]? = some before)
    (after : Item) :
    ∃ rest,
      items.Perm (before :: rest) ∧
        (items.set index after).Perm (after :: rest) := by
  obtain ⟨inside, isBefore⟩ := List.getElem?_eq_some_iff.1 found
  refine ⟨items.eraseIdx index, ?_, List.set_perm_cons_eraseIdx inside after⟩
  rw [← isBefore]
  exact (List.getElem_cons_eraseIdx_perm inside).symm

theorem countP_set_add
    {items : List Item}
    {index : Nat}
    {before : Item}
    (found : items[index]? = some before)
    (condition : Item → Bool)
    (after : Item) :
    (items.set index after).countP condition +
        (if condition before then 1 else 0) =
      items.countP condition + (if condition after then 1 else 0) := by
  obtain ⟨rest, isItems, isSet⟩ := exists_rest found after
  rw [isItems.countP_eq, isSet.countP_eq, List.countP_cons, List.countP_cons]
  omega

theorem sum_map_set_add
    {items : List Item}
    {index : Nat}
    {before : Item}
    (found : items[index]? = some before)
    (weight : Item → Nat)
    (after : Item) :
    ((items.set index after).map weight).sum + weight before =
      (items.map weight).sum + weight after := by
  obtain ⟨rest, isItems, isSet⟩ := exists_rest found after
  rw [(isItems.map weight).sum_eq, (isSet.map weight).sum_eq, List.map_cons,
    List.map_cons, List.sum_cons, List.sum_cons]
  omega

theorem flatMap_set_perm
    {items : List Item}
    {index : Nat}
    {before : Item}
    (found : items[index]? = some before)
    (parts : Item → List Part)
    (after : Item) :
    ((items.set index after).flatMap parts ++ parts before).Perm
      (items.flatMap parts ++ parts after) := by
  obtain ⟨rest, isItems, isSet⟩ := exists_rest found after
  have whole := (isItems.flatMap_right parts).append_right (parts after)
  have changed := (isSet.flatMap_right parts).append_right (parts before)
  rw [List.flatMap_cons] at whole changed
  refine changed.trans (List.Perm.trans ?_ whole.symm)
  refine List.perm_append_comm.trans ?_
  rw [List.append_assoc]
  exact List.perm_append_comm.append_left _

end ListUpdate
