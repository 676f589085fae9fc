import Mathlib.Data.List.Induction
import Mathlib.Data.List.Rotate

/-!
# Clock scans

A hand walks cyclically over a fixed number of entries and refreshes each
entry it passes, until a condition on the accumulated state holds or a step
bound is reached.  Two laps of such a scan are one fold over the entries in
hand order followed by the refreshed entries in the same order.  The entries
that a scan visits are a first part of these two laps.
-/

namespace ClockHand

variable {Entry State : Type}

/-- Entries, hand and accumulated state of a scan. -/
structure Scan (Entry State : Type) where
  entries : List Entry
  hand : Nat
  state : State

/-- Position of the hand once it has wrapped around. -/
def wrap
    (size hand : Nat) :
    Nat :=
  if size ≤ hand then 0 else hand

/-- Visit at most `steps` entries, as long as `stop` does not hold. -/
def scan
    (stop : State → Bool)
    (process : State → Entry → State)
    (refresh : Entry → Entry) :
    Nat → Scan Entry State → Scan Entry State
  | 0, current => current
  | steps + 1, current =>
      if stop current.state then
        current
      else
        let hand := wrap current.entries.length current.hand
        match current.entries[hand]? with
        | none => { current with hand := hand }
        | some entry =>
            scan stop process refresh steps
              { entries := current.entries.set hand (refresh entry)
                hand := hand + 1
                state := process current.state entry }

/-- Fold over a list that ignores everything after the stop condition. -/
def walk
    (stop : State → Bool)
    (process : State → Entry → State)
    (entries : List Entry)
    (state : State) :
    State :=
  entries.foldl
    (fun state entry => if stop state then state else process state entry)
    state

/-- The entries that a walk visits before it stops. -/
def trace
    (stop : State → Bool)
    (process : State → Entry → State) :
    List Entry → State → List Entry
  | [], _ => []
  | entry :: rest, state =>
      if stop state then
        []
      else
        entry :: trace stop process rest (process state entry)

/-- Entries met in a number of steps when each is requeued refreshed. -/
def met
    (refresh : Entry → Entry) :
    Nat → List Entry → List Entry
  | 0, _ => []
  | _ + 1, [] => []
  | steps + 1, entry :: rest =>
      entry :: met refresh steps (rest ++ [refresh entry])

section Walk

variable
  {stop : State → Bool}
  {process : State → Entry → State}
  {state : State}

@[simp] theorem walk_nil : walk stop process [] state = state :=
  rfl

theorem walk_cons
    (entry : Entry)
    (rest : List Entry) :
    walk stop process (entry :: rest) state =
      walk stop process rest
        (if stop state then state else process state entry) :=
  rfl

theorem walk_append
    (first second : List Entry) :
    walk stop process (first ++ second) state =
      walk stop process second (walk stop process first state) :=
  List.foldl_append

/-- A stopped walk stays where it is. -/
theorem walk_of_stopped
    (stopped : stop state = true)
    (entries : List Entry) :
    walk stop process entries state = state := by
  induction entries with
  | nil =>
      rfl
  | cons entry rest inductionHypothesis =>
      rw [walk_cons, if_pos stopped, inductionHypothesis]

/-- A property that every visit preserves holds after the walk. -/
theorem walk_preserves
    (holds : State → Prop)
    (preserved :
      ∀ current entry, holds current → holds (process current entry))
    (entries : List Entry)
    (initial : holds state) :
    holds (walk stop process entries state) := by
  induction entries generalizing state with
  | nil =>
      exact initial
  | cons entry rest inductionHypothesis =>
      rw [walk_cons]
      apply inductionHypothesis
      split
      · exact initial
      · exact preserved state entry initial

/-- A walk visits a first part of the entries. -/
theorem trace_initial
    (entries : List Entry) :
    trace stop process entries state <+: entries := by
  induction entries generalizing state with
  | nil =>
      exact List.prefix_rfl
  | cons entry rest inductionHypothesis =>
      rw [trace]
      split
      · exact List.nil_prefix
      · exact List.cons_prefix_cons.mpr ⟨rfl, inductionHypothesis⟩

/-- A walk is a fold over the entries it visits. -/
theorem walk_eq_foldl_trace
    (entries : List Entry) :
    walk stop process entries state =
      (trace stop process entries state).foldl process state := by
  induction entries generalizing state with
  | nil =>
      rfl
  | cons entry rest inductionHypothesis =>
      rw [walk_cons, trace]
      cases stopped : stop state with
      | true =>
          exact walk_of_stopped stopped rest
      | false =>
          exact inductionHypothesis

/-- A walk stops or visits everything. -/
theorem stopped_or_trace_eq
    (entries : List Entry) :
    stop (walk stop process entries state) = true ∨
      trace stop process entries state = entries := by
  induction entries generalizing state with
  | nil =>
      exact Or.inr rfl
  | cons entry rest inductionHypothesis =>
      rw [walk_cons, trace]
      cases stopped : stop state with
      | true =>
          left
          rw [if_pos rfl, walk_of_stopped stopped]
          exact stopped
      | false =>
          simp only [Bool.false_eq_true, ↓reduceIte]
          exact inductionHypothesis.imp id (congrArg (entry :: ·))

/-- A walk has not stopped before an entry that it visits. -/
theorem not_stopped_before
    {entries earlier : List Entry}
    {entry : Entry}
    (visited : earlier ++ [entry] <+: trace stop process entries state) :
    stop (earlier.foldl process state) = false := by
  induction entries generalizing earlier state with
  | nil =>
      simp [trace] at visited
  | cons first rest inductionHypothesis =>
      rw [trace] at visited
      cases stopped : stop state with
      | true =>
          simp [stopped] at visited
      | false =>
          simp only [stopped, Bool.false_eq_true, ↓reduceIte] at visited
          cases earlier with
          | nil =>
              exact stopped
          | cons other later =>
              obtain ⟨rfl, visited⟩ := List.cons_prefix_cons.mp visited
              rw [List.foldl_cons]
              exact inductionHypothesis visited

/-- What every visit keeps holds at every point of a walk. -/
theorem trace_invariant
    (holds : State → Prop)
    {entries earlier : List Entry}
    (keeps :
      ∀ current entry,
        entry ∈ entries →
        stop current = false →
        holds current →
        holds (process current entry))
    (initial : holds state)
    (visited : earlier <+: trace stop process entries state) :
    holds (earlier.foldl process state) := by
  induction earlier using List.reverseRecOn with
  | nil =>
      exact initial
  | append_singleton before entry inductionHypothesis =>
      rw [List.foldl_append]
      refine keeps _ entry ?_ (not_stopped_before visited)
        (inductionHypothesis ((List.prefix_append _ _).trans visited))
      exact (trace_initial entries).subset (visited.subset (by simp))

/-- A walk that notes every entry has noted the entries it visits. -/
theorem walk_notes
    {note : State × List Entry → Entry → State × List Entry}
    {ends : State × List Entry → Bool}
    (notes :
      ∀ noted entry, (note noted entry).2 = noted.2 ++ [entry])
    (entries : List Entry)
    (noted : State × List Entry) :
    (walk ends note entries noted).2 =
      noted.2 ++ trace ends note entries noted := by
  induction entries generalizing noted with
  | nil =>
      exact (List.append_nil noted.2).symm
  | cons entry rest inductionHypothesis =>
      rw [walk_cons, trace]
      cases stopped : ends noted with
      | true =>
          rw [if_pos rfl, if_pos rfl, walk_of_stopped stopped,
            List.append_nil]
      | false =>
          rw [if_neg Bool.false_ne_true, if_neg Bool.false_ne_true,
            inductionHypothesis, notes, List.append_assoc,
            List.singleton_append]

/-- Walks over states with more to them project to walks. -/
theorem walk_project
    {Other : Type}
    {ends : Other → Bool}
    {note : Other → Entry → Other}
    (project : Other → State)
    (sameEnd : ∀ other, ends other = stop (project other))
    (sameStep :
      ∀ other entry,
        project (note other entry) = process (project other) entry)
    (entries : List Entry)
    (other : Other) :
    project (walk ends note entries other) =
        walk stop process entries (project other) ∧
      trace ends note entries other =
        trace stop process entries (project other) := by
  induction entries generalizing other with
  | nil =>
      exact ⟨rfl, rfl⟩
  | cons entry rest inductionHypothesis =>
      rw [walk_cons, walk_cons, trace, trace, ← sameEnd]
      cases ends other with
      | true =>
          rw [if_pos rfl, if_pos rfl, if_pos rfl, if_pos rfl]
          exact ⟨(inductionHypothesis other).1, rfl⟩
      | false =>
          simp only [Bool.false_eq_true, ↓reduceIte, ← sameStep]
          exact
            ⟨(inductionHypothesis _).1,
              congrArg (entry :: ·) (inductionHypothesis _).2⟩

end Walk

/-- Behind an entry of the second lap lies the whole first lap. -/
theorem first_lap_before
    {refresh : Entry → Entry}
    {queue earlier : List Entry}
    {entry : Entry}
    (visited :
      earlier ++ [entry] <+: queue ++ queue.map refresh)
    (notInQueue : entry ∉ queue) :
    queue <+: earlier := by
  rcases List.prefix_or_prefix_of_prefix visited
    (List.prefix_append queue (queue.map refresh)) with inFirst | behind
  · exact absurd (inFirst.subset (by simp)) notInQueue
  · rcases List.prefix_concat_iff.mp behind with whole | behind
    · exact absurd (whole ▸ (by simp)) notInQueue
    · exact behind

/-- A whole lap meets the queue in order and requeues it refreshed. -/
theorem met_append
    (refresh : Entry → Entry)
    (front back : List Entry)
    (steps : Nat) :
    met refresh (front.length + steps) (front ++ back) =
      front ++ met refresh steps (back ++ front.map refresh) := by
  induction front generalizing back with
  | nil =>
      simp
  | cons entry rest inductionHypothesis =>
      have more :
          (entry :: rest).length + steps = (rest.length + steps) + 1 := by
        simp only [List.length_cons]
        omega
      rw [more]
      simp only [List.cons_append, met, List.append_assoc, List.map_cons]
      rw [inductionHypothesis]
      simp

/-- Two laps meet the queue twice, refreshed the second time. -/
theorem met_two_laps
    (refresh : Entry → Entry)
    (queue : List Entry) :
    met refresh (2 * queue.length) queue = queue ++ queue.map refresh := by
  have firstLap := met_append refresh queue [] queue.length
  have secondLap := met_append refresh (queue.map refresh) [] 0
  simp only [List.append_nil, List.nil_append, List.length_map, Nat.add_zero,
    met] at firstLap secondLap
  rw [Nat.two_mul, firstLap, secondLap]

/-- The entry under the hand comes first in hand order. -/
theorem rotate_eq_cons
    {entries : List Entry}
    {hand : Nat}
    (inside : hand < entries.length) :
    entries.rotate hand =
      entries[hand] ::
        (entries.drop (hand + 1) ++ entries.take hand) := by
  rw [List.rotate_eq_drop_append_take (Nat.le_of_lt inside),
    List.drop_eq_getElem_cons inside, List.cons_append]

/-- Replacing the entry under the hand and advancing requeues it at the back. -/
theorem rotate_set_succ
    {entries : List Entry}
    {hand : Nat}
    (inside : hand < entries.length)
    (entry : Entry) :
    (entries.set hand entry).rotate
        (wrap entries.length (hand + 1)) =
      entries.drop (hand + 1) ++ entries.take hand ++ [entry] := by
  have split : (entries.set hand entry).rotate (hand + 1) =
      entries.drop (hand + 1) ++ entries.take hand ++ [entry] := by
    have bound : hand + 1 ≤ (entries.set hand entry).length := by
      rw [List.length_set]
      exact inside
    have shortened : (entries.take hand).length = hand :=
      List.length_take_of_le (Nat.le_of_lt inside)
    rw [List.rotate_eq_drop_append_take bound,
      List.drop_set_of_lt (Nat.lt_succ_self hand), List.take_set,
      List.take_succ_eq_append_getElem inside, List.set_append,
      if_neg (by omega), shortened, Nat.sub_self, List.set_cons_zero,
      List.append_assoc]
  unfold wrap
  by_cases last : entries.length ≤ hand + 1
  · have atEnd : hand + 1 = (entries.set hand entry).length := by
      simp only [List.length_set]
      omega
    rw [if_pos last, List.rotate_zero, ← split, atEnd,
      List.rotate_length]
  · rw [if_neg last, split]

/-- The scan folds over the entries it meets, starting under the hand. -/
theorem scan_state
    (stop : State → Bool)
    (process : State → Entry → State)
    (refresh : Entry → Entry)
    (steps : Nat)
    (current : Scan Entry State) :
    (scan stop process refresh steps current).state =
      walk stop process
        (met refresh steps
          (current.entries.rotate
            (wrap current.entries.length current.hand)))
        current.state := by
  induction steps generalizing current with
  | zero =>
      rfl
  | succ steps inductionHypothesis =>
      by_cases stopped : stop current.state = true
      · rw [walk_of_stopped stopped]
        simp [scan, stopped]
      · by_cases inside :
            wrap current.entries.length current.hand <
              current.entries.length
        · rw [rotate_eq_cons inside]
          simp only [scan, stopped, Bool.false_eq_true, ↓reduceIte,
            List.getElem?_eq_getElem inside, met, walk_cons]
          rw [inductionHypothesis]
          simp only [List.length_set]
          rw [rotate_set_succ inside]
        · have none : current.entries = [] := by
            cases empty : current.entries with
            | nil =>
                rfl
            | cons entry rest =>
                rw [empty] at inside
                unfold wrap at inside
                split at inside
                · simp at inside
                · next below =>
                    exact (inside (Nat.not_le.mp below)).elim
          simp [scan, stopped, none, met]

/-- Two laps of a scan fold over the entries in hand order, twice. -/
theorem scan_two_laps
    (stop : State → Bool)
    (process : State → Entry → State)
    (refresh : Entry → Entry)
    (entries : List Entry)
    (hand : Nat)
    (state : State) :
    (scan stop process refresh (2 * entries.length)
        ⟨entries, hand, state⟩).state =
      walk stop process
        (entries.rotate (wrap entries.length hand) ++
          (entries.rotate (wrap entries.length hand)).map refresh)
        state := by
  have twoLaps :=
    met_two_laps refresh (entries.rotate (wrap entries.length hand))
  rw [List.length_rotate] at twoLaps
  rw [scan_state, twoLaps]

end ClockHand
