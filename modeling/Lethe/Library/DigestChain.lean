import Mathlib.Data.List.Basic
import Mathlib.Data.List.Induction

namespace DigestChain

/-!
# Chains of digests

Each block of a sequence is joined to the digest before it and digested again.
Two chains from one start that end in the same digest ran over the same blocks,
unless the strings they digested collide or one of them digests to the start.
The types of states, blocks and inputs are arbitrary; joining has to be
injective.
-/

section Definitions

variable
  {State Block Input : Type}
  (digest : Input → State)
  (join : State → Block → Input)

/-- The digest after a sequence of blocks. -/
def last
    (start : State)
    (blocks : List Block) :
    State :=
  blocks.foldl (fun running block => digest (join running block)) start

/-- The inputs that a chain digests, one for each block. -/
def inputs : State → List Block → List Input
  | _, [] => []
  | running, block :: rest =>
      join running block :: inputs (digest (join running block)) rest

/-- Two computations digest distinct inputs to one value, or one to `start`. -/
def Exhibits
    (start : State)
    (first second : List Input) : Prop :=
  (∃ left ∈ first, ∃ right ∈ second,
    left ≠ right ∧ digest left = digest right) ∨
  ∃ input ∈ first ++ second, digest input = start

end Definitions

section Chains

variable
  {State Block Input : Type}
  {digest : Input → State}
  {join : State → Block → Input}

/-- One more block digests one more input. -/
theorem last_concat
    (start : State)
    (blocks : List Block)
    (block : Block) :
    last digest join start (blocks ++ [block]) =
      digest (join (last digest join start blocks) block) := by
  simp [last]

/-- The input of one more block follows those before it. -/
theorem inputs_concat
    (start : State)
    (blocks : List Block)
    (block : Block) :
    inputs digest join start (blocks ++ [block]) =
      inputs digest join start blocks ++
        [join (last digest join start blocks) block] := by
  induction blocks generalizing start with
  | nil =>
      rfl
  | cons first rest inductionHypothesis =>
      simp [inputs, last, inductionHypothesis]

/-- More inputs exhibit what fewer inputs exhibit. -/
theorem Exhibits.mono
    {start : State}
    {first second moreFirst moreSecond : List Input}
    (exhibits : Exhibits digest start first second)
    (firstSubset : first ⊆ moreFirst)
    (secondSubset : second ⊆ moreSecond) :
    Exhibits digest start moreFirst moreSecond := by
  rcases exhibits with
    ⟨left, inFirst, right, inSecond, different, digests⟩ |
      ⟨input, member, isStart⟩
  · exact Or.inl
      ⟨left, firstSubset inFirst, right, secondSubset inSecond,
        different, digests⟩
  · refine Or.inr ⟨input, ?_, isStart⟩
    rcases List.mem_append.mp member with inFirst | inSecond
    · exact List.mem_append_left _ (firstSubset inFirst)
    · exact List.mem_append_right _ (secondSubset inSecond)

/-- Chains that end in the same digest ran over the same blocks. -/
theorem blocks_eq_of_last_eq
    (injective :
      ∀ {left right block other},
        join left block = join right other →
        left = right ∧ block = other)
    (start : State)
    (first second : List Block)
    (same :
      last digest join start first = last digest join start second) :
    first = second ∨
      Exhibits digest start
        (inputs digest join start first)
        (inputs digest join start second) := by
  induction first using List.reverseRecOn generalizing second with
  | nil =>
      rcases List.eq_nil_or_concat' second with
        isNil | ⟨others, other, shape⟩
      · exact Or.inl isNil.symm
      · subst shape
        rw [last_concat] at same
        refine Or.inr (Or.inr ⟨_, ?_, same.symm⟩)
        simp [inputs_concat]
  | append_singleton blocks block inductionHypothesis =>
      rcases List.eq_nil_or_concat' second with
        isNil | ⟨others, other, shape⟩
      · subst isNil
        rw [last_concat] at same
        refine Or.inr (Or.inr ⟨_, ?_, same⟩)
        simp [inputs_concat]
      · subst shape
        rw [last_concat, last_concat] at same
        rw [inputs_concat, inputs_concat]
        by_cases joined :
            join (last digest join start blocks) block =
              join (last digest join start others) other
        · obtain ⟨earlier, blockEq⟩ := injective joined
          rcases inductionHypothesis others earlier with equal | exhibits
          · rw [equal, blockEq]
            exact Or.inl rfl
          · exact Or.inr
              (exhibits.mono (List.subset_append_left _ _)
                (List.subset_append_left _ _))
        · exact Or.inr
            (Or.inl ⟨_, by simp, _, by simp, joined, same⟩)

end Chains

end DigestChain
