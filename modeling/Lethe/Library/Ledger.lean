import Lethe.Library.ClockHand
import Mathlib.Algebra.BigOperators.Group.List.Basic
import Mathlib.Algebra.Order.Ring.Nat

/-!
# Ledgers of claims and gains

A task works through a list of charges.  Each charge claims an amount and
gains another, and the task stops as soon as its claims reach what it needs.
Its gains reach the need too exactly if no first part of the list claims enough
without gaining enough.
-/

namespace Ledger

/-- What a piece of work claims and what it gains. -/
structure Charge where
  claimed : Nat
  gained : Nat

/-- Two pieces of work together. -/
def Charge.add
    (total charge : Charge) :
    Charge where
  claimed := total.claimed + charge.claimed
  gained := total.gained + charge.gained

/-- All claims. -/
def claimed
    (charges : List Charge) :
    Nat :=
  (charges.map Charge.claimed).sum

/-- All gains. -/
def gained
    (charges : List Charge) :
    Nat :=
  (charges.map Charge.gained).sum

/-- The claims are enough. -/
def enough
    (need : Nat)
    (total : Charge) :
    Bool :=
  need ≤ total.claimed

/-- Work through the charges until the claims are enough. -/
def spend
    (need : Nat)
    (charges : List Charge)
    (total : Charge) :
    Charge :=
  ClockHand.walk (enough need) Charge.add charges total

/-- Totals of a list of charges. -/
theorem foldl_add
    (charges : List Charge)
    (total : Charge) :
    (charges.foldl Charge.add total).claimed =
        total.claimed + claimed charges ∧
      (charges.foldl Charge.add total).gained =
        total.gained + gained charges := by
  induction charges generalizing total with
  | nil =>
      exact ⟨rfl, rfl⟩
  | cons charge rest inductionHypothesis =>
      obtain ⟨claims, gains⟩ := inductionHypothesis (total.add charge)
      rw [List.foldl_cons, claims, gains]
      simp only [Charge.add, claimed, gained, List.map_cons, List.sum_cons]
      omega

/-- More charges gain no less. -/
theorem gained_mono
    {first second : List Charge}
    (part : first <+: second) :
    gained first ≤ gained second := by
  obtain ⟨rest, rfl⟩ := part
  simp [gained]

/-- Charges that each gain what they claim gain it together. -/
theorem claimed_le_gained
    {charges : List Charge}
    (each : ∀ charge ∈ charges, charge.claimed ≤ charge.gained) :
    claimed charges ≤ gained charges := by
  induction charges with
  | nil =>
      exact Nat.le_refl _
  | cons charge rest inductionHypothesis =>
      simp only [claimed, gained, List.map_cons, List.sum_cons]
      exact
        Nat.add_le_add (each charge (by simp))
          (inductionHypothesis fun other member =>
            each other (List.mem_cons_of_mem _ member))

/-- The charges that are worked through, from nothing. -/
def spent
    (need : Nat)
    (charges : List Charge) :
    List Charge :=
  ClockHand.trace (enough need) Charge.add charges ⟨0, 0⟩

/-- The totals are those of the charges that are worked through. -/
theorem spend_eq
    (need : Nat)
    (charges : List Charge) :
    (spend need charges ⟨0, 0⟩).claimed = claimed (spent need charges) ∧
      (spend need charges ⟨0, 0⟩).gained = gained (spent need charges) := by
  have totals := foldl_add (spent need charges) ⟨0, 0⟩
  simp only [Nat.zero_add] at totals
  rw [spend, ClockHand.walk_eq_foldl_trace]
  exact totals

/-- If all claims together are enough, the claims reach the need. -/
theorem need_le_claimed_spent
    {need : Nat}
    {charges : List Charge}
    (claimsEnough : need ≤ claimed charges) :
    need ≤ claimed (spent need charges) := by
  rcases @ClockHand.stopped_or_trace_eq _ _ (enough need) Charge.add ⟨0, 0⟩
    charges with stopped | all
  · rw [← (spend_eq need charges).1]
    exact of_decide_eq_true stopped
  · rw [spent, all]
    exact claimsEnough

/-- A shorter part than the charges worked through does not claim enough. -/
theorem claimed_lt_of_worked
    {need : Nat}
    {charges met : List Charge}
    {charge : Charge}
    (worked : met ++ [charge] <+: spent need charges) :
    claimed met < need := by
  have running := ClockHand.not_stopped_before worked
  have short : ¬ need ≤ (met.foldl Charge.add ⟨0, 0⟩).claimed :=
    of_decide_eq_false running
  rw [(foldl_add met ⟨0, 0⟩).1] at short
  simpa using short

/--
If the claims are enough in the end, the gains are enough exactly if no part
of the list claims enough without gaining enough.
-/
theorem gains_enough_iff
    {need : Nat}
    {charges : List Charge}
    (claimsEnough : need ≤ claimed charges) :
    need ≤ (spend need charges ⟨0, 0⟩).gained ↔
      ∀ met,
        met <+: charges →
        need ≤ claimed met →
        need ≤ gained met := by
  rw [(spend_eq need charges).2]
  have worked : spent need charges <+: charges := ClockHand.trace_initial _
  constructor
  · intro gains met part claims
    rcases List.prefix_or_prefix_of_prefix worked part with longer | shorter
    · exact gains.trans (gained_mono longer)
    · obtain ⟨rest, isSpent⟩ := shorter
      cases rest with
      | nil =>
          rw [List.append_nil] at isSpent
          rwa [isSpent]
      | cons charge rest =>
          have worked : met ++ [charge] <+: spent need charges :=
            ⟨rest, by simpa using isSpent⟩
          exact absurd claims (Nat.not_le.mpr (claimed_lt_of_worked worked))
  · intro parts
    exact parts _ worked (need_le_claimed_spent claimsEnough)

end Ledger
