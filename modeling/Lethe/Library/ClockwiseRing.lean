import Mathlib.Algebra.Order.Ring.Nat
import Mathlib.Data.List.Rotate

/-!
# Clockwise walks over a sorted ring

A ring is a list of entries sorted by key.  Walking it clockwise from a target
visits the entries with keys from the target on and then wraps to the smallest
keys.  Bisection finds the first visited entry, index arithmetic modulo the
length visits the rest, and a bounded walk keeps the first few distinct names
it meets.
-/

namespace ClockwiseRing

/-! ## Bisection -/

/--
Bisection of a half-open index interval.

The midpoint is a parameter, so that implementations that spell it differently
share one search; `below` says that an index lies before the sought one.
-/
def bisect
    (midpoint : Nat → Nat → Nat)
    (inside :
      ∀ {low high},
        low < high →
        low ≤ midpoint low high ∧ midpoint low high < high)
    (below : Nat → Bool)
    (low high : Nat) :
    Nat :=
  if active : low < high then
    if below (midpoint low high) then
      bisect midpoint inside below (midpoint low high + 1) high
    else
      bisect midpoint inside below low (midpoint low high)
  else
    low
termination_by high - low
decreasing_by
  · have bounds := inside active
    omega
  · have bounds := inside active
    omega

/--
An index separates a predicate when the indices before it satisfy the
predicate and the remaining indices of the interval do not.
-/
structure Separates
    (below : Nat → Bool)
    (size index : Nat) : Prop where
  le_size : index ≤ size
  before : ∀ query, query < index → below query = true
  after : ∀ query, index ≤ query → query < size → below query = false

/--
Bisection keeps everything left of the interval below and everything right of
it not below, so it ends at a separating index.
-/
theorem bisect_separates
    {midpoint : Nat → Nat → Nat}
    {inside :
      ∀ {low high},
        low < high →
        low ≤ midpoint low high ∧ midpoint low high < high}
    {below : Nat → Bool}
    {size low high : Nat}
    (downward :
      ∀ {first second},
        first ≤ second →
        second < size →
        below second = true →
        below first = true)
    (lowLeHigh : low ≤ high)
    (highLeSize : high ≤ size)
    (leftBelow : ∀ query, query < low → below query = true)
    (rightNotBelow :
      ∀ query, high ≤ query → query < size → below query = false) :
    Separates below size (bisect midpoint inside below low high) := by
  rw [bisect]
  split
  · next active =>
      have bounds := inside active
      split
      · next holds =>
          apply bisect_separates downward (by omega) highLeSize
          · intro query queryBound
            exact downward
              (by omega : query ≤ midpoint low high)
              (by omega) holds
          · exact rightNotBelow
      · next fails =>
          apply bisect_separates downward bounds.1 (by omega) leftBelow
          intro query queryLower queryUpper
          by_contra holds
          exact fails
            (downward queryLower queryUpper (by simpa using holds))
  · next inactive =>
      have met : low = high := by
        omega
      subst met
      exact ⟨highLeSize, leftBelow, rightNotBelow⟩
termination_by high - low

/-! ## Clockwise order -/

section Clockwise

variable {κ : Type} [LinearOrder κ] {ε : Type}

/-- Entries from the target on, followed by the entries before it. -/
def clockwise
    (key : ε → κ)
    (target : κ)
    (ring : List ε) :
    List ε :=
  ring.filter (fun entry => decide (target ≤ key entry)) ++
    ring.filter (fun entry => decide (key entry < target))

/-- A clockwise walk visits exactly the entries of the ring. -/
@[simp] theorem mem_clockwise
    {key : ε → κ}
    {target : κ}
    {ring : List ε}
    {entry : ε} :
    entry ∈ clockwise key target ring ↔ entry ∈ ring := by
  simp only [clockwise, List.mem_append, List.mem_filter,
    decide_eq_true_eq]
  constructor
  · rintro (⟨member, _⟩ | ⟨member, _⟩)
    · exact member
    · exact member
  · intro member
    rcases le_or_gt target (key entry) with atLeast | less
    · exact Or.inl ⟨member, atLeast⟩
    · exact Or.inr ⟨member, less⟩

/-- Removing entries from a ring removes them from its clockwise walk. -/
theorem clockwise_filter
    (key : ε → κ)
    (target : κ)
    (keep : ε → Bool)
    (ring : List ε) :
    clockwise key target (ring.filter keep) =
      (clockwise key target ring).filter keep := by
  simp only [clockwise, List.filter_append, List.filter_filter,
    Bool.and_comm]

/-- Clockwise walks only depend on the keys that the entries are given. -/
theorem clockwise_map
    {φ : Type}
    (key : φ → κ)
    (target : κ)
    (project : ε → φ)
    (ring : List ε) :
    (clockwise (fun entry => key (project entry)) target ring).map project =
      clockwise key target (ring.map project) := by
  simp only [clockwise, List.map_append, List.filter_map]
  rfl

/--
In a sorted ring, the index that separates the keys before the target splits
the ring into the two halves of the clockwise walk.
-/
theorem rotate_eq_clockwise
    {key : ε → κ}
    {target : κ}
    {ring : List ε}
    {below : Nat → Bool}
    {index : Nat}
    (separates : Separates below ring.length index)
    (belowSpec :
      ∀ (query : Nat) (bound : query < ring.length),
        below query = decide (key (ring.get ⟨query, bound⟩) < target)) :
    ring.rotate (index % ring.length) = clockwise key target ring := by
  have firstHalf :
      ∀ entry ∈ ring.take index, key entry < target := by
    intro entry member
    obtain ⟨query, bound, isEntry⟩ := List.mem_take_iff_getElem.mp member
    have queryLt : query < index := by
      omega
    have queryBound : query < ring.length := by
      omega
    have holds := separates.before query queryLt
    rw [belowSpec query queryBound, decide_eq_true_eq] at holds
    rw [← isEntry]
    exact holds
  have secondHalf :
      ∀ entry ∈ ring.drop index, target ≤ key entry := by
    intro entry member
    obtain ⟨query, bound, isEntry⟩ := List.mem_drop_iff_getElem.mp member
    have fails := separates.after (index + query) (by omega) (by omega)
    rw [belowSpec (index + query) (by omega), decide_eq_false_iff_not,
      not_lt] at fails
    rw [← isEntry]
    exact fails
  have split :
      clockwise key target ring =
        ring.drop index ++ ring.take index := by
    have keepNone :
        ∀ entry ∈ ring.take index, ¬ target ≤ key entry :=
      fun entry member => not_le.mpr (firstHalf entry member)
    have dropNone :
        ∀ entry ∈ ring.drop index, ¬ key entry < target :=
      fun entry member => not_lt.mpr (secondHalf entry member)
    conv_lhs =>
      rw [clockwise, ← List.take_append_drop index ring]
    rw [List.filter_append, List.filter_append,
      List.filter_eq_nil_iff.mpr (by simpa using keepNone),
      List.filter_eq_self.mpr (by simpa using secondHalf),
      List.filter_eq_self.mpr (by simpa using firstHalf),
      List.filter_eq_nil_iff.mpr (by simpa using dropNone)]
    simp
  rw [List.rotate_mod, List.rotate_eq_drop_append_take separates.le_size,
    split]

/-- In a sorted ring, bisection finds where the clockwise walk starts. -/
theorem rotate_bisect_eq_clockwise
    {midpoint : Nat → Nat → Nat}
    {inside :
      ∀ {low high},
        low < high →
        low ≤ midpoint low high ∧ midpoint low high < high}
    {key : ε → κ}
    {target : κ}
    {ring : List ε}
    (sorted : ring.Pairwise fun left right => key left ≤ key right)
    {below : Nat → Bool}
    (belowSpec :
      ∀ (query : Nat) (bound : query < ring.length),
        below query = decide (key (ring.get ⟨query, bound⟩) < target)) :
    ring.rotate
        (bisect midpoint inside below 0 ring.length % ring.length) =
      clockwise key target ring := by
  have ordered := List.pairwise_iff_getElem.mp sorted
  refine rotate_eq_clockwise
    (bisect_separates ?_ (Nat.zero_le _) (Nat.le_refl _) ?_ ?_) belowSpec
  · intro first second firstLe secondBound secondBelow
    rw [belowSpec second secondBound, decide_eq_true_eq] at secondBelow
    rw [belowSpec first (Nat.lt_of_le_of_lt firstLe secondBound),
      decide_eq_true_eq]
    rcases Nat.lt_or_eq_of_le firstLe with less | same
    · exact lt_of_le_of_lt (ordered first second _ secondBound less)
        secondBelow
    · subst same
      exact secondBelow
  · intro query queryBound
    omega
  · intro query queryLower queryUpper
    omega

/--
The clockwise walk of a sorted ring starts at the first entry from the target
on; if there is none it starts at the first entry of the ring.
-/
theorem clockwise_eq_drop_append_take
    {key : ε → κ}
    {target : κ}
    {ring : List ε}
    (sorted : ring.Pairwise fun left right => key left ≤ key right) :
    clockwise key target ring =
      ring.drop (ring.findIdx fun entry => target ≤ key entry) ++
        ring.take (ring.findIdx fun entry => target ≤ key entry) := by
  have ordered := List.pairwise_iff_getElem.mp sorted
  have separates :
      Separates
        (fun query => (ring[query]?).any fun entry => key entry < target)
        ring.length (ring.findIdx fun entry => target ≤ key entry) := by
    refine ⟨List.findIdx_le_length, ?_, ?_⟩
    · intro query before
      have bound := Nat.lt_of_lt_of_le before List.findIdx_le_length
      have notFound := List.not_of_lt_findIdx before
      simpa [List.getElem?_eq_getElem bound] using notFound
    · intro query after bound
      have found :=
        List.findIdx_getElem (w := Nat.lt_of_le_of_lt after bound)
      have least := of_decide_eq_true found
      have larger : target ≤ key ring[query] := by
        rcases Nat.lt_or_eq_of_le after with less | same
        · exact le_trans least (ordered _ query _ bound less)
        · simpa only [same] using least
      simpa [List.getElem?_eq_getElem bound] using larger
  rw [← rotate_eq_clockwise separates, List.rotate_mod,
    List.rotate_eq_drop_append_take separates.le_size]
  intro query bound
  simp [List.getElem?_eq_getElem bound]

/--
Two rings sorted by key with the same entries are the same list when no two
entries share a key.
-/
theorem sorted_unique
    {key : ε → κ}
    {first second : List ε}
    (firstSorted :
      first.Pairwise (fun left right => key left ≤ key right))
    (secondSorted :
      second.Pairwise (fun left right => key left ≤ key right))
    (distinct : (first.map key).Nodup)
    (sameEntries : first.Perm second) :
    first = second := by
  apply List.Perm.eq_of_pairwise _ firstSorted secondSorted sameEntries
  intro left right leftMember rightMember leftLe rightLe
  exact List.inj_on_of_nodup_map distinct leftMember
    (sameEntries.mem_iff.mpr rightMember) (le_antisymm leftLe rightLe)

/-- A clockwise walk from the target meets the first entry no later. -/
def NoLater
    (key : ε → κ)
    (target : κ)
    (first second : ε) : Prop :=
  (target ≤ key first ∧ (target ≤ key second → key first ≤ key second)) ∨
    (key first < target ∧ key second < target ∧ key first ≤ key second)

/-- Entries that are met no later than each other share their key. -/
theorem NoLater.key_eq
    {key : ε → κ}
    {target : κ}
    {first second : ε}
    (forward : NoLater key target first second)
    (backward : NoLater key target second first) :
    key first = key second := by
  rcases forward with ⟨firstAfter, firstLe⟩ | ⟨_, secondBefore, firstLe⟩
  · rcases backward with ⟨secondAfter, secondLe⟩ | ⟨_, firstBefore, _⟩
    · exact le_antisymm (firstLe secondAfter) (secondLe firstAfter)
    · exact absurd firstAfter (not_le.mpr firstBefore)
  · rcases backward with ⟨secondAfter, _⟩ | ⟨_, _, secondLe⟩
    · exact absurd secondAfter (not_le.mpr secondBefore)
    · exact le_antisymm firstLe secondLe

/-- The first entry of a clockwise walk is met no later than any other. -/
theorem noLater_of_head_clockwise
    {key : ε → κ}
    {target : κ}
    {ring : List ε}
    (sorted : ring.Pairwise fun left right => key left ≤ key right)
    {first : ε}
    (isFirst : (clockwise key target ring).head? = some first)
    {other : ε}
    (member : other ∈ ring) :
    NoLater key target first other := by
  have ordered (keep : ε → Bool) :
      ∀ {head entry},
        (ring.filter keep).head? = some head →
        entry ∈ ring.filter keep →
        key head ≤ key entry := by
    intro head entry isHead isEntry
    have pairs := sorted.filter keep
    cases isFiltered : ring.filter keep with
    | nil =>
        rw [isFiltered] at isHead
        simp at isHead
    | cons start rest =>
        rw [isFiltered] at isHead isEntry pairs
        cases isHead
        rcases List.mem_cons.mp isEntry with same | later
        · exact le_of_eq (congrArg key same.symm)
        · exact (List.pairwise_cons.mp pairs).1 entry later
  rw [clockwise, List.head?_append] at isFirst
  cases isAhead :
      (ring.filter fun entry => decide (target ≤ key entry)).head? with
  | some head =>
      rw [isAhead] at isFirst
      cases isFirst
      refine Or.inl ⟨?_, ?_⟩
      · exact
          of_decide_eq_true
            (List.mem_filter.mp (List.mem_of_head? isAhead)).2
      · intro otherAhead
        exact
          ordered _ isAhead
            (List.mem_filter.mpr ⟨member, decide_eq_true otherAhead⟩)
  | none =>
      rw [isAhead] at isFirst
      have behind : ∀ entry ∈ ring, key entry < target := by
        intro entry isEntry
        rw [List.head?_eq_none_iff, List.filter_eq_nil_iff] at isAhead
        exact not_le.mp fun ahead =>
          isAhead entry isEntry (decide_eq_true ahead)
      have isFirst :
          (ring.filter fun entry =>
            decide (key entry < target)).head? = some first := isFirst
      have firstMember := List.mem_of_mem_filter (List.mem_of_head? isFirst)
      refine
        Or.inr ⟨behind first firstMember, behind other member, ?_⟩
      exact
        ordered _ isFirst
          (List.mem_filter.mpr
            ⟨member, decide_eq_true (behind other member)⟩)

/--
If the first entry met on a ring lies on a smaller ring too, both walks meet
the same key first.
-/
theorem head_clockwise_of_subset
    {key : ε → κ}
    {target : κ}
    {ring part : List ε}
    (ringSorted : ring.Pairwise fun left right => key left ≤ key right)
    (partSorted : part.Pairwise fun left right => key left ≤ key right)
    (subset : part ⊆ ring)
    {first : ε}
    (isFirst : (clockwise key target ring).head? = some first)
    (inPart : first ∈ part) :
    ∃ same,
      (clockwise key target part).head? = some same ∧
        same ∈ part ∧
        key same = key first := by
  cases isHead : (clockwise key target part).head? with
  | none =>
      rw [List.head?_eq_none_iff] at isHead
      have visited : first ∈ clockwise key target part :=
        mem_clockwise.mpr inPart
      rw [isHead] at visited
      simp at visited
  | some same =>
      have isMember : same ∈ part :=
        mem_clockwise.mp (List.mem_of_head? isHead)
      refine ⟨same, rfl, isMember, ?_⟩
      exact
        (noLater_of_head_clockwise partSorted isHead inPart).key_eq
          (noLater_of_head_clockwise ringSorted isFirst (subset isMember))

end Clockwise

/-! ## First distinct names -/

section Distinct

variable {α : Type} [DecidableEq α]

/-- Keep the first names met until enough distinct ones were kept. -/
def pick
    (want : Nat) :
    List α → List α → List α
  | picked, [] => picked
  | picked, name :: rest =>
      if picked.length < want then
        pick want
          (if name ∈ picked then picked else picked ++ [name]) rest
      else
        picked

/-- Picking is taking a prefix of the names in order of first occurrence. -/
theorem pick_eq
    (want : Nat)
    (picked names : List α) :
    pick want picked names =
      picked ++
        ((names.removeAll picked).eraseDups).take
          (want - picked.length) := by
  induction names generalizing picked with
  | nil =>
      simp [pick]
  | cons name rest inductionHypothesis =>
      by_cases room : picked.length < want
      · by_cases known : name ∈ picked
        · simp only [pick, room, ↓reduceIte, known]
          rw [inductionHypothesis, List.cons_removeAll]
          simp [known]
        · simp only [pick, room, ↓reduceIte, known]
          rw [inductionHypothesis, List.cons_removeAll]
          have smaller :
              want - picked.length = want - (picked.length + 1) + 1 := by
            omega
          have sameRest :
              List.filter (fun other => !other == name)
                  (rest.removeAll picked) =
                rest.removeAll (picked ++ [name]) := by
            simp only [List.removeAll, List.filter_filter]
            congr 1
            funext other
            simp [Bool.and_comm, beq_eq_decide]
          simp [known, List.eraseDups_cons, smaller, sameRest]
      · have full : want - picked.length = 0 := by
          omega
        simp [pick, room, full]

/-- Picking from scratch takes the first distinct names. -/
theorem pick_nil
    (want : Nat)
    (names : List α) :
    pick want [] names = names.eraseDups.take want := by
  rw [pick_eq]
  simp

/-- Keeping first occurrences commutes with dropping names. -/
theorem eraseDups_filter
    (keep : α → Bool)
    (names : List α) :
    (names.filter keep).eraseDups = names.eraseDups.filter keep := by
  cases names with
  | nil =>
      rfl
  | cons name rest =>
      have tail :=
        eraseDups_filter keep (rest.filter fun other => !other == name)
      rw [List.eraseDups_cons]
      by_cases kept : keep name = true
      · rw [List.filter_cons_of_pos kept, List.filter_cons_of_pos kept,
          List.eraseDups_cons, ← tail, List.filter_filter,
          List.filter_filter]
        simp only [Bool.and_comm]
      · rw [List.filter_cons_of_neg kept, List.filter_cons_of_neg kept,
          ← tail, List.filter_filter]
        congr 2
        funext other
        by_cases same : other = name
        · subst same
          simpa using kept
        · simp [same]
termination_by names.length
decreasing_by
  have filtered :=
    List.length_filter_le (fun other => !other == name) rest
  simp only [List.length_cons]
  omega

/-- First occurrences are listed without repetition. -/
theorem nodup_eraseDups
    (names : List α) :
    names.eraseDups.Nodup := by
  induction names with
  | nil =>
      simp
  | cons name rest inductionHypothesis =>
      rw [List.eraseDups_cons, eraseDups_filter, List.nodup_cons]
      constructor
      · simp [List.mem_filter]
      · exact inductionHypothesis.filter _

end Distinct

end ClockwiseRing
