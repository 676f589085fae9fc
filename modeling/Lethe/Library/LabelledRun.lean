import Mathlib.Data.List.Induction
import Mathlib.Logic.Relation

/-!
# Finite runs of labelled transition systems

A run records the label of every step it takes, in order.  An invariant is
proved once per step and holds after every run; a fact about single labels is
proved once per step from states that satisfy the invariant and holds of every
label of every run.

For a step function the runs are the folds of its event lists.  There a
property holds in every state reached exactly if every step meets the condition
under which one step preserves it.
-/

/-- A finite run of a step relation, with the labels of its steps in order. -/
inductive LabelledRun (step : State → Label → State → Prop) :
    State → List Label → State → Prop where
  | nil (state : State) :
      LabelledRun step state [] state
  | cons
      {first middle last : State}
      {label : Label}
      {labels : List Label}
      (head : step first label middle)
      (tail : LabelledRun step middle labels last) :
      LabelledRun step first (label :: labels) last

namespace LabelledRun

variable
  {step : State → Label → State → Prop}
  {first last : State}
  {labels : List Label}

/-- A property that every step preserves holds after every run. -/
theorem invariant
    (holds : State → Prop)
    (preserved :
      ∀ {before after label},
        holds before →
        step before label after →
        holds after)
    (run : LabelledRun step first labels last)
    (initially : holds first) :
    holds last := by
  induction run with
  | nil =>
      exact initially
  | cons head tail inductionHypothesis =>
      exact inductionHypothesis (preserved initially head)

/--
If every step from a state satisfying the invariant carries an acceptable
label, all labels of a run are acceptable.
-/
theorem labels_of_invariant
    {holds : State → Prop}
    {acceptable : Label → Prop}
    (preserved :
      ∀ {before after label},
        holds before →
        step before label after →
        holds after)
    (accepted :
      ∀ {before after label},
        holds before →
        step before label after →
        acceptable label)
    (run : LabelledRun step first labels last)
    (initially : holds first) :
    ∀ label ∈ labels, acceptable label := by
  induction run with
  | nil =>
      simp
  | cons head tail inductionHypothesis =>
      intro label member
      rcases List.mem_cons.mp member with isHead | inTail
      · subst isHead
        exact accepted initially head
      · exact inductionHypothesis (preserved initially head) label inTail

/-- Executing a partial step function on a list of labels gives a run. -/
theorem of_foldlM
    {next : State → Label → Option State}
    (executed : labels.foldlM next first = some last) :
    LabelledRun (fun before label after => next before label = some after)
      first labels last := by
  induction labels generalizing first with
  | nil =>
      simp only [List.foldlM_nil, Option.pure_def,
        Option.some.injEq] at executed
      subst executed
      exact .nil first
  | cons label rest inductionHypothesis =>
      simp only [List.foldlM_cons, Option.bind_eq_bind,
        Option.bind_eq_some_iff] at executed
      obtain ⟨middle, head, tail⟩ := executed
      exact .cons head (inductionHypothesis tail)

end LabelledRun

namespace EventRun

variable
  {next : State → Event → State}
  {start : State}
  {events : List Event}

/-- The steps of a run all meet a condition if they do so one by one. -/
theorem conditions_cons
    {condition : State → Event → Prop}
    {first : Event}
    (meetsFirst : condition start first)
    (meetRest :
      ∀ earlier event,
        earlier ++ [event] <+: events →
        condition (earlier.foldl next (next start first)) event) :
    ∀ earlier event,
      earlier ++ [event] <+: first :: events →
      condition (earlier.foldl next start) event := by
  intro earlier event isPrefix
  cases earlier with
  | nil =>
      rw [List.nil_append, List.cons_prefix_cons] at isPrefix
      rw [isPrefix.1]
      exact meetsFirst
  | cons head rest =>
      rw [List.cons_append, List.cons_prefix_cons] at isPrefix
      rw [isPrefix.1]
      exact meetRest rest event isPrefix.2

/-- If the steps of a run all meet a condition, they do so one by one. -/
theorem conditions_cons_iff
    {condition : State → Event → Prop}
    {first : Event} :
    (∀ earlier event,
      earlier ++ [event] <+: first :: events →
      condition (earlier.foldl next start) event) ↔
    condition start first ∧
      ∀ earlier event,
        earlier ++ [event] <+: events →
        condition (earlier.foldl next (next start first)) event := by
  constructor
  · intro meet
    refine ⟨meet [] first (by simp), ?_⟩
    intro earlier event isPrefix
    exact meet (first :: earlier) event
      (by simpa [List.cons_prefix_cons] using isPrefix)
  · rintro ⟨meetsFirst, meetRest⟩
    exact conditions_cons meetsFirst meetRest

/-- A run without steps has none that could miss a condition. -/
theorem conditions_nil
    {condition : State → Event → Prop} :
    ∀ earlier event,
      earlier ++ [event] <+: [] →
      condition (earlier.foldl next start) event := by
  intro earlier event isPrefix
  simp at isPrefix

/-- Check a condition at every step of a run. -/
def checkConditions
    (next : State → Event → State)
    (condition : State → Event → Prop)
    [∀ state event, Decidable (condition state event)] :
    State → List Event → Bool
  | _, [] => true
  | state, event :: events =>
      decide (condition state event) &&
        checkConditions next condition (next state event) events

/-- The steps of a run that passes the check all meet the condition. -/
theorem conditions_of_check
    {condition : State → Event → Prop}
    [∀ state event, Decidable (condition state event)]
    (checked : checkConditions next condition start events = true) :
    ∀ earlier event,
      earlier ++ [event] <+: events →
      condition (earlier.foldl next start) event := by
  induction events generalizing start with
  | nil =>
      exact conditions_nil
  | cons first rest inductionHypothesis =>
      simp only [checkConditions, Bool.and_eq_true,
        decide_eq_true_eq] at checked
      exact conditions_cons checked.1 (inductionHypothesis checked.2)

/--
If steps that meet a condition keep a good state good, a run whose steps all
meet it ends in a good state.
-/
theorem good_of_conditions
    {good : State → Prop}
    {condition : State → Event → Prop}
    (goodNext :
      ∀ {state event},
        good state →
        condition state event →
        good (next state event))
    (goodStart : good start)
    (conditions :
      ∀ earlier event,
        earlier ++ [event] <+: events →
        condition (earlier.foldl next start) event) :
    good (events.foldl next start) := by
  induction events using List.reverseRecOn with
  | nil =>
      exact goodStart
  | append_singleton events event inductionHypothesis =>
      have before := inductionHypothesis fun earlier other isPrefix =>
        conditions earlier other (isPrefix.trans (List.prefix_append _ _))
      rw [List.foldl_append]
      exact goodNext before (conditions events event List.prefix_rfl)

/--
If a step keeps a good state good exactly under some condition, all states of a
run are good exactly if all its steps meet the condition.
-/
theorem good_at_prefixes_iff
    {known good : State → Prop}
    {condition : State → Event → Prop}
    (knownNext : ∀ {state event}, known state → known (next state event))
    (goodNext :
      ∀ {state event},
        known state →
        good state →
        (good (next state event) ↔ condition state event))
    (knownStart : known start)
    (goodStart : good start) :
    (∀ earlier, earlier <+: events → good (earlier.foldl next start)) ↔
      ∀ earlier event,
        earlier ++ [event] <+: events →
        condition (earlier.foldl next start) event := by
  have knownAlways (earlier : List Event) :
      known (earlier.foldl next start) :=
    List.foldlRecOn earlier next knownStart
      fun _ held _ _ => knownNext held
  constructor
  · intro goodAlways earlier event isPrefix
    have before := (List.prefix_append earlier [event]).trans isPrefix
    have after := goodAlways _ isPrefix
    rw [List.foldl_append] at after
    exact (goodNext (knownAlways _) (goodAlways _ before)).mp after
  · intro conditions earlier isPrefix
    have both :=
      good_of_conditions
        (fun {state event}
            (held : known state ∧ good state)
            (met : condition state event) =>
          ⟨knownNext held.1, (goodNext held.1 held.2).mpr met⟩)
        ⟨knownStart, goodStart⟩
        (fun first event inEarlier =>
          conditions first event (inEarlier.trans isPrefix))
    exact both.2

end EventRun
