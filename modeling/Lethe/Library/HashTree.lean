import Mathlib.Data.Nat.Digits.Defs
import Mathlib.Data.Nat.EvenOddRec
import Mathlib.Data.List.Range
import Mathlib.Tactic.Ring

namespace HashTree

/-!
# Left-balanced trees over a sequence of leaves

The left subtree of a node with `n` leaves holds the largest power of two
below `n`.  Three ways to reach the root are compared:

1. the recursion on the two subtrees (`root`);
2. pairing neighbours layer by layer (`layer`);
3. a stack that holds one full subtree for each one-bit of the number of
   leaves read (`peaks`), merged when a leaf is added (`merge`) and rolled up
   from its top at the end (`rollUp`).
-/

/-! ## Sizes -/

/-- Leaves of the left subtree over `size` leaves. -/
def leftSize
    (size : Nat) :
    Nat :=
  2 ^ (size - 1).log2

/-- The left size is the one power of two that leaves at most as much. -/
theorem leftSize_eq
    {size level : Nat}
    (below : 2 ^ level < size)
    (enough : size ≤ 2 * 2 ^ level) :
    leftSize size = 2 ^ level := by
  have positive := Nat.two_pow_pos level
  unfold leftSize
  rw [(Nat.log2_eq_iff (by omega)).2]
  rw [Nat.pow_succ]
  omega

/-- Some level gives the left size of two or more leaves. -/
theorem exists_leftSize
    {size : Nat}
    (several : 1 < size) :
    ∃ level,
      leftSize size = 2 ^ level ∧
        2 ^ level < size ∧
          size ≤ 2 * 2 ^ level := by
  have lower := Nat.log2_self_le (n := size - 1) (by omega)
  have upper := Nat.lt_log2_self (n := size - 1)
  rw [Nat.pow_succ] at upper
  exact ⟨(size - 1).log2, rfl, by omega, by omega⟩

theorem leftSize_lt
    {size : Nat}
    (several : 1 < size) :
    leftSize size < size := by
  obtain ⟨level, isPower, below, _⟩ := exists_leftSize several
  omega

theorem leftSize_pos
    (size : Nat) :
    0 < leftSize size :=
  Nat.two_pow_pos _

/-- Number of one-bits. -/
def ones
    (value : Nat) :
    Nat :=
  (Nat.digits 2 value).sum

@[simp] theorem ones_zero :
    ones 0 = 0 := by
  simp [ones]

@[simp] theorem ones_double
    (value : Nat) :
    ones (2 * value) = ones value := by
  rcases Nat.eq_zero_or_pos value with isZero | positive
  · simp [isZero]
  · unfold ones
    rw [Nat.digits_def' (by omega) (by omega)]
    simp

@[simp] theorem ones_double_succ
    (value : Nat) :
    ones (2 * value + 1) = ones value + 1 := by
  unfold ones
  rw [Nat.digits_def' (by omega) (by omega)]
  have half : (2 * value + 1) / 2 = value := by
    omega
  have bit : (2 * value + 1) % 2 = 1 := by
    omega
  rw [half, bit, List.sum_cons, Nat.add_comm]

theorem ones_mul_two_pow
    (value level : Nat) :
    ones (value * 2 ^ level) = ones value := by
  induction level with
  | zero =>
      simp
  | succ level inductionHypothesis =>
      have doubled : value * 2 ^ (level + 1) = 2 * (value * 2 ^ level) := by
        ring
      rw [doubled, ones_double, inductionHypothesis]

/-- Adding one adds at most one one-bit. -/
theorem ones_succ_le
    (value : Nat) :
    ones (value + 1) ≤ ones value + 1 := by
  induction value using Nat.evenOddRec with
  | h0 =>
      exact Nat.le_of_eq (ones_double_succ 0)
  | h_even half _ =>
      simp
  | h_odd half carried =>
      have doubled : 2 * half + 1 + 1 = 2 * (half + 1) := by
        ring
      rw [doubled, ones_double, ones_double_succ]
      omega

theorem ones_pos
    {value : Nat}
    (positive : 0 < value) :
    0 < ones value := by
  induction value using Nat.evenOddRec with
  | h0 =>
      contradiction
  | h_even half inductionHypothesis =>
      rw [ones_double]
      exact inductionHypothesis (by omega)
  | h_odd half _ =>
      simp

/-- A number below `2 ^ bits` has at most that many one-bits. -/
theorem ones_le_of_lt
    {value bits : Nat}
    (bounded : value < 2 ^ bits) :
    ones value ≤ bits := by
  induction bits generalizing value with
  | zero =>
      have isZero : value = 0 := by
        simpa using bounded
      simp [isZero]
  | succ bits inductionHypothesis =>
      rw [Nat.pow_succ] at bounded
      rcases Nat.even_or_odd' value with ⟨half, isEven | isOdd⟩
      · subst isEven
        rw [ones_double]
        exact Nat.le_succ_of_le (inductionHypothesis (by omega))
      · subst isOdd
        rw [ones_double_succ]
        exact Nat.succ_le_succ (inductionHypothesis (by omega))

section Layers

variable {Node : Type*} (combine : Node → Node → Node)

/-! ## Layers -/

/-- Pair up neighbours; an odd node at the end is passed on. -/
def layer :
    List Node → List Node
  | left :: right :: rest => combine left right :: layer rest
  | rest => rest

theorem length_layer
    (nodes : List Node) :
    (layer combine nodes).length = (nodes.length + 1) / 2 := by
  fun_induction layer combine nodes with
  | case1 left right rest inductionHypothesis =>
      simp only [List.length_cons, inductionHypothesis]
      omega
  | case2 nodes short =>
      rcases nodes with _ | ⟨left, _ | ⟨right, rest⟩⟩
      · simp
      · simp
      · exact (short left right rest rfl).elim

/-- Layers of two parts are taken apart after an even number of nodes. -/
theorem layer_append
    {left : List Node}
    (right : List Node)
    {half : Nat}
    (even : left.length = 2 * half) :
    layer combine (left ++ right) =
      layer combine left ++ layer combine right := by
  induction half generalizing left with
  | zero =>
      have isNil : left = [] := List.eq_nil_of_length_eq_zero (by omega)
      subst isNil
      rfl
  | succ half inductionHypothesis =>
      match left, even with
      | first :: second :: rest, even =>
          simp only [List.length_cons] at even
          simp only [List.cons_append, layer]
          rw [inductionHypothesis (by omega)]
      | [_], even =>
          simp only [List.length_cons, List.length_nil] at even
          omega

/-- Three or more nodes keep a full even left part. -/
theorem exists_split
    {nodes : List Node}
    (several : 2 < nodes.length) :
    ∃ left right level,
      nodes = left ++ right ∧
        left.length = 2 * 2 ^ level ∧
          0 < right.length ∧
            right.length ≤ 2 * 2 ^ level := by
  obtain ⟨level, isPower, below, enough⟩ :=
    exists_leftSize (Nat.lt_of_succ_lt several)
  cases level with
  | zero =>
      simp only [pow_zero] at enough
      omega
  | succ level =>
      rw [Nat.pow_succ] at below enough
      refine ⟨nodes.take (2 ^ level * 2), nodes.drop (2 ^ level * 2), level,
        (List.take_append_drop _ _).symm, ?_, ?_, ?_⟩
      · rw [List.length_take]
        omega
      · rw [List.length_drop]
        omega
      · rw [List.length_drop]
        omega

end Layers

section Tree

variable {Node : Type*} [Inhabited Node] (combine : Node → Node → Node)

/-! ## The root and its two subtrees -/

/-- The root of the left-balanced tree over some nodes. -/
def root
    (nodes : List Node) :
    Node :=
  if 1 < nodes.length then
    combine
      (root (nodes.take (leftSize nodes.length)))
      (root (nodes.drop (leftSize nodes.length)))
  else
    nodes.headD default
termination_by nodes.length
decreasing_by
  · have smaller := leftSize_lt ‹1 < nodes.length›
    rw [List.length_take]
    omega
  · have positive := leftSize_pos nodes.length
    rw [List.length_drop]
    omega

/-- The roots of the two subtrees below the root. -/
def children
    (nodes : List Node) :
    Node × Node :=
  (root combine (nodes.take (leftSize nodes.length)),
    root combine (nodes.drop (leftSize nodes.length)))

@[simp] theorem root_singleton
    (node : Node) :
    root combine [node] = node := by
  rw [root]
  simp

theorem root_eq_children
    {nodes : List Node}
    (several : 1 < nodes.length) :
    root combine nodes =
      combine (children combine nodes).1 (children combine nodes).2 := by
  rw [root, if_pos several]
  rfl

/-- Equal subtrees below the root give equal roots. -/
theorem root_eq_of_children_eq
    {nodes others : List Node}
    (several : 1 < nodes.length)
    (othersSeveral : 1 < others.length)
    (sameChildren : children combine nodes = children combine others) :
    root combine nodes = root combine others := by
  rw [root_eq_children combine several, sameChildren,
    ← root_eq_children combine othersSeveral]

/-- A full left part and a right part of at most its size are the subtrees. -/
theorem children_append
    {left right : List Node}
    (level : Nat)
    (full : left.length = 2 ^ level)
    (nonempty : 0 < right.length)
    (fits : right.length ≤ 2 ^ level) :
    children combine (left ++ right) =
      (root combine left, root combine right) := by
  have split : leftSize (left ++ right).length = left.length := by
    rw [full]
    apply leftSize_eq
    · rw [List.length_append]
      omega
    · rw [List.length_append]
      omega
  unfold children
  rw [split, List.take_left, List.drop_left]

@[simp] theorem children_pair
    (left right : Node) :
    children combine [left, right] = (left, right) := by
  have halves :
      children combine ([left] ++ [right]) =
        (root combine [left], root combine [right]) :=
    children_append combine 0 rfl (by simp) (by simp)
  simpa using halves

theorem root_append
    {left right : List Node}
    (level : Nat)
    (full : left.length = 2 ^ level)
    (nonempty : 0 < right.length)
    (fits : right.length ≤ 2 ^ level) :
    root combine (left ++ right) =
      combine (root combine left) (root combine right) := by
  have positive := Nat.two_pow_pos level
  have several : 1 < (left ++ right).length := by
    rw [List.length_append]
    omega
  rw [root_eq_children combine several,
    children_append combine level full nonempty fits]

/-- Pairing up neighbours does not change the root. -/
theorem root_layer
    (nodes : List Node) :
    root combine (layer combine nodes) = root combine nodes := by
  induction size : nodes.length using Nat.strong_induction_on
    generalizing nodes with
  | h size inductionHypothesis =>
      by_cases several : 2 < nodes.length
      · obtain ⟨left, right, level, rfl, full, positive, fits⟩ :=
          exists_split several
        have power := Nat.two_pow_pos level
        rw [List.length_append] at size
        have leftRoot := inductionHypothesis left.length (by omega) left rfl
        have rightRoot :=
          inductionHypothesis right.length (by omega) right rfl
        rw [layer_append combine right full,
          root_append combine level (by
            rw [length_layer]
            omega) (by
            rw [length_layer]
            omega) (by
            rw [length_layer]
            omega),
          leftRoot, rightRoot,
          root_append combine (level + 1) (by
            rw [Nat.pow_succ]
            omega) positive (by
            rw [Nat.pow_succ]
            omega)]
      · match nodes with
        | [] => rfl
        | [node] => rfl
        | [left, right] =>
            have paired :
                root combine ([left] ++ [right]) =
                  combine (root combine [left]) (root combine [right]) :=
              root_append combine 0 rfl (by simp) (by simp)
            simp only [List.singleton_append, root_singleton] at paired
            rw [paired, layer, layer]
            · rw [root_singleton]
            · simp
        | first :: second :: third :: rest =>
            simp at several

/-- Nor does it change the two subtrees, as long as three nodes are left. -/
theorem children_layer
    {nodes : List Node}
    (several : 2 < nodes.length) :
    children combine (layer combine nodes) = children combine nodes := by
  obtain ⟨left, right, level, rfl, full, positive, fits⟩ :=
    exists_split several
  rw [layer_append combine right full,
    children_append combine level (by
      rw [length_layer]
      omega) (by
      rw [length_layer]
      omega) (by
      rw [length_layer]
      omega),
    root_layer, root_layer,
    children_append combine (level + 1) (by
      rw [Nat.pow_succ]
      omega) positive (by
      rw [Nat.pow_succ]
      omega)]

end Tree

section Numbered

variable {Node : Type*} (combine : Node → Node → Node) (leaf : Nat → Node)

/-! ## Full subtrees of numbered leaves -/

/-- The full subtree of `2 ^ level` leaves with a given number. -/
def node :
    Nat → Nat → Node
  | 0, index => leaf index
  | level + 1, index =>
      combine (node level (2 * index)) (node level (2 * index + 1))

/-- One full subtree for each one-bit of a count, the last one first. -/
def peaks
    (level count : Nat) :
    List Node :=
  if count = 0 then
    []
  else if count % 2 = 1 then
    node combine leaf level (count - 1) :: peaks (level + 1) (count / 2)
  else
    peaks (level + 1) (count / 2)
termination_by count

@[simp] theorem peaks_zero
    (level : Nat) :
    peaks combine leaf level 0 = [] := by
  rw [peaks, if_pos rfl]

@[simp] theorem peaks_double
    (level count : Nat) :
    peaks combine leaf level (2 * count) =
      peaks combine leaf (level + 1) count := by
  rcases Nat.eq_zero_or_pos count with isZero | positive
  · simp [isZero]
  · have half : 2 * count / 2 = count := by
      omega
    rw [peaks, if_neg (by omega), if_neg (by omega), half]

@[simp] theorem peaks_double_succ
    (level count : Nat) :
    peaks combine leaf level (2 * count + 1) =
      node combine leaf level (2 * count) ::
        peaks combine leaf (level + 1) count := by
  have half : (2 * count + 1) / 2 = count := by
    omega
  rw [peaks, if_neg (by omega), if_pos (by omega), half,
    Nat.add_sub_cancel]

theorem peaks_mul_two_pow
    (level count : Nat) :
    peaks combine leaf 0 (count * 2 ^ level) =
      peaks combine leaf level count := by
  induction level generalizing count with
  | zero =>
      simp
  | succ level inductionHypothesis =>
      have doubled : count * 2 ^ (level + 1) = 2 * count * 2 ^ level := by
        ring
      rw [doubled, inductionHypothesis, peaks_double]

theorem length_peaks
    (level count : Nat) :
    (peaks combine leaf level count).length = ones count := by
  induction count using Nat.evenOddRec generalizing level with
  | h0 =>
      simp
  | h_even half inductionHypothesis =>
      rw [peaks_double, ones_double, inductionHypothesis]
  | h_odd half inductionHypothesis =>
      rw [peaks_double_succ, ones_double_succ, List.length_cons,
        inductionHypothesis]

/-! ## Merging the stack -/

/-- Merge the two nodes on top while the stack is higher than a target. -/
def merge
    (target : Nat)
    (top : Node) :
    List Node → List Node
  | [] => [top]
  | below :: rest =>
      if target < rest.length + 2 then
        merge target (combine below top) rest
      else
        top :: below :: rest

/-- Merging to the one-bits of the new count gives the new peaks. -/
theorem merge_peaks
    (level count : Nat) :
    merge combine (ones (count + 1))
        (node combine leaf level count)
        (peaks combine leaf level count) =
      peaks combine leaf level (count + 1) := by
  induction count using Nat.evenOddRec generalizing level with
  | h0 =>
      have single := peaks_double_succ combine leaf level 0
      rw [peaks_zero] at single ⊢
      exact single.symm
  | h_even half _ =>
      have height := length_peaks combine leaf (level + 1) half
      rw [peaks_double_succ, peaks_double, ones_double_succ]
      cases stack : peaks combine leaf (level + 1) half with
      | nil =>
          rfl
      | cons below rest =>
          rw [stack, List.length_cons] at height
          rw [merge, if_neg (by omega)]
  | h_odd half inductionHypothesis =>
      have carried : 2 * half + 1 + 1 = 2 * (half + 1) := by
        ring
      have growth := ones_succ_le half
      rw [carried, ones_double, peaks_double, peaks_double_succ, merge,
        length_peaks, if_pos (by omega)]
      exact inductionHypothesis (level + 1)

/-- A stack that is already merged stays as it is. -/
theorem merge_of_length_le
    {target : Nat}
    {top : Node}
    {rest : List Node}
    (short : rest.length + 1 ≤ target) :
    merge combine target top rest = top :: rest := by
  cases rest with
  | nil =>
      rfl
  | cons below rest =>
      rw [List.length_cons] at short
      rw [merge, if_neg (by omega)]

/-- Fold a stack from its top into one node. -/
def rollUp
    (last : Node)
    (stack : List Node) :
    Node :=
  stack.foldl (fun right left => combine left right) last

/-- Neighbouring full subtrees pair up to those of the next level. -/
theorem layer_nodes
    (level count : Nat)
    (rest : List Node) :
    layer combine
        ((List.range (2 * count)).map (node combine leaf level) ++ rest) =
      (List.range count).map (node combine leaf (level + 1)) ++
        layer combine rest := by
  induction count generalizing rest with
  | zero =>
      rfl
  | succ count inductionHypothesis =>
      have doubled : 2 * (count + 1) = 2 * count + 1 + 1 := by
        ring
      rw [doubled, List.range_succ, List.range_succ, List.range_succ]
      simp only [List.map_append, List.map_cons, List.map_nil,
        List.append_assoc, List.singleton_append]
      rw [inductionHypothesis]
      rfl

section Maps

variable {Image : Type*} (combineImage : Image → Image → Image)
  (image : Node → Image)
  (respects :
    ∀ left right,
      image (combine left right) = combineImage (image left) (image right))

include respects

/-- A map that respects combination maps full subtrees to full subtrees. -/
theorem map_node
    (level index : Nat) :
    image (node combine leaf level index) =
      node combineImage (fun number => image (leaf number)) level index := by
  induction level generalizing index with
  | zero =>
      rfl
  | succ level inductionHypothesis =>
      rw [node, node, respects, inductionHypothesis, inductionHypothesis]

/-- It maps peaks to peaks too. -/
theorem map_peaks
    (level count : Nat) :
    (peaks combine leaf level count).map image =
      peaks combineImage (fun number => image (leaf number)) level
        count := by
  induction count using Nat.evenOddRec generalizing level with
  | h0 =>
      simp
  | h_even half inductionHypothesis =>
      rw [peaks_double, peaks_double, inductionHypothesis]
  | h_odd half inductionHypothesis =>
      rw [peaks_double_succ, peaks_double_succ, List.map_cons,
        inductionHypothesis,
        map_node combine leaf combineImage image respects]

end Maps

/-- Full subtrees of leaves that are numbered from a full subtree on. -/
theorem node_shift
    (level start index : Nat) :
    node combine (fun offset => leaf (start * 2 ^ level + offset)) level
        index =
      node combine leaf level (start + index) := by
  induction level generalizing start index with
  | zero =>
      simp [node]
  | succ level inductionHypothesis =>
      have doubled : start * 2 ^ (level + 1) = 2 * start * 2 ^ level := by
        ring
      simp only [node, doubled, inductionHypothesis, Nat.mul_add,
        Nat.add_assoc]

variable [Inhabited Node]

/-- The root over full subtrees is that over those of the next level. -/
theorem root_nodes_double
    (level count : Nat)
    (rest : List Node) :
    root combine
        ((List.range (2 * count)).map (node combine leaf level) ++ rest) =
      root combine
        ((List.range count).map (node combine leaf (level + 1)) ++
          layer combine rest) := by
  rw [← root_layer, layer_nodes]

/-- The root over full subtrees is that over their leaves. -/
theorem root_nodes
    (level count : Nat) :
    root combine ((List.range count).map (node combine leaf level)) =
      root combine ((List.range (count * 2 ^ level)).map leaf) := by
  induction level generalizing count with
  | zero =>
      rw [pow_zero, Nat.mul_one]
      rfl
  | succ level inductionHypothesis =>
      have doubled : count * 2 ^ (level + 1) = 2 * count * 2 ^ level := by
        ring
      have nextLevel := root_nodes_double combine leaf level count []
      simp only [layer, List.append_nil] at nextLevel
      rw [doubled, ← inductionHypothesis, nextLevel]

/-- Rolling up the peaks and one more node gives the root over all. -/
theorem rollUp_peaks
    (last : Node)
    (level count : Nat) :
    rollUp combine last (peaks combine leaf level count) =
      root combine
        ((List.range count).map (node combine leaf level) ++ [last]) := by
  induction count using Nat.evenOddRec generalizing level last with
  | h0 =>
      simp [rollUp]
  | h_even half inductionHypothesis =>
      rw [peaks_double, inductionHypothesis, root_nodes_double]
      rfl
  | h_odd half inductionHypothesis =>
      have rolled :=
        inductionHypothesis
          (combine (node combine leaf level (2 * half)) last) (level + 1)
      rw [peaks_double_succ, List.range_succ, List.map_append,
        List.append_assoc, root_nodes_double]
      exact rolled

/-- A full subtree is the root over its leaves. -/
theorem root_leaves
    (level index : Nat) :
    root combine
        ((List.range (2 ^ level)).map fun offset =>
          leaf (index * 2 ^ level + offset)) =
      node combine leaf level index := by
  have single :=
    root_nodes combine (fun offset => leaf (index * 2 ^ level + offset))
      level 1
  rw [Nat.one_mul] at single
  rw [← single]
  simpa using node_shift combine leaf level index 0

/-- The subtrees of a full subtree are full. -/
theorem children_leaves
    (level index : Nat) :
    children combine
        ((List.range (2 ^ (level + 1))).map fun offset =>
          leaf (index * 2 ^ (level + 1) + offset)) =
      (node combine leaf level (2 * index),
        node combine leaf level (2 * index + 1)) := by
  have halves : 2 ^ (level + 1) = 2 ^ level + 2 ^ level := by
    ring
  have positive := Nat.two_pow_pos level
  have leftStart (offset : Nat) :
      index * 2 ^ (level + 1) + offset =
        2 * index * 2 ^ level + offset := by
    ring
  have rightStart (offset : Nat) :
      2 * index * 2 ^ level + (2 ^ level + offset) =
        (2 * index + 1) * 2 ^ level + offset := by
    ring
  simp only [leftStart]
  rw [halves, List.range_add, List.map_append, List.map_map,
    children_append combine level (by simp) (by simp) (by simp),
    root_leaves]
  simp only [Function.comp_def, rightStart]
  rw [root_leaves]

end Numbered

end HashTree
