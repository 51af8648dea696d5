import AegisCognition.Foundation.Machine
import Mathlib.Data.BitVec
import Mathlib.Data.Rat.Lemmas
import Mathlib.Algebra.Order.Field.Rat
import Mathlib.Data.Set.Function
import Std.Data.ExtTreeSet.Lemmas

/-!
# The order of context candidates

Candidates are sorted by their retention class and then by utility per token, which is compared by
cross products. The products stop at the largest `u64`. Where two products of one pair both stop
there, the pair is ordered by utility instead, and three candidates can then form a cycle.
-/

namespace Aegis.Context

open Std (ExtTreeSet OrientedCmp TransCmp)
open Foundation

inductive ContextNodeKind
  | task
  | evidence
  | file
  | symbol
  | memory
  | policy
  | tool
  deriving DecidableEq

inductive ContextRetentionClass
  | «protected»
  | condensable
  | ephemeral
  deriving DecidableEq

structure ContextNode where
  nodeId : BitVec 128
  kind : ContextNodeKind
  retentionClass : ContextRetentionClass
  tokenCost : BitVec 32
  utilityScore : BitVec 32
  dependencyCoverage : BitVec 32
  contradictionRisk : BitVec 32

/-- The check of `insert_node`. -/
def ContextNode.isAccepted (node : ContextNode) : Bool :=
  node.nodeId != 0 && node.tokenCost != 0

def ContextNode.deterministicUtility (node : ContextNode) : Nat :=
  saturatingAdd u64Max node.utilityScore.toNat node.dependencyCoverage.toNat -
    node.contradictionRisk.toNat

def fileMemoryRelationSupportUtility : Nat := 1000000

def contextNodeUtilityWithFileRelationSupport
    (relatedMemoryIds : ExtTreeSet (BitVec 128) compare) (node : ContextNode) : Nat :=
  let relationSupport :=
    if node.kind = .memory ∧ node.nodeId ∈ relatedMemoryIds then
      fileMemoryRelationSupportUtility
    else 0
  saturatingAdd u64Max node.deterministicUtility relationSupport

def retentionRank : ContextRetentionClass → Nat
  | .«protected» => 0
  | .condensable => 1
  | .ephemeral => 2

/-- The order that both orders of candidates are, with the utility that they read. -/
def orderByUtility (utility : ContextNode → Nat) (left right : ContextNode) : Ordering :=
  (compare (retentionRank left.retentionClass) (retentionRank right.retentionClass)).then <|
    (compare (saturatingMul u64Max (utility right) left.tokenCost.toNat)
      (saturatingMul u64Max (utility left) right.tokenCost.toNat)).then <|
    (compare (utility right) (utility left)).then <|
    (compare left.tokenCost.toNat right.tokenCost.toNat).then <|
    compare left.nodeId right.nodeId

def candidateOrder : ContextNode → ContextNode → Ordering :=
  orderByUtility ContextNode.deterministicUtility

def candidateOrderWithFileRelationSupport
    (relatedMemoryIds : ExtTreeSet (BitVec 128) compare) : ContextNode → ContextNode → Ordering :=
  orderByUtility (contextNodeUtilityWithFileRelationSupport relatedMemoryIds)

/-- The order is a strict total order of these nodes, and goes by utility per token in each
class. -/
structure OrdersByDensity (utility : ContextNode → Nat)
    (order : ContextNode → ContextNode → Ordering) (nodes : Set ContextNode) : Prop where
  antisymm : ∀ x ∈ nodes, ∀ y ∈ nodes, order x y = (order y x).swap
  trans : ∀ x ∈ nodes, ∀ y ∈ nodes, ∀ z ∈ nodes, order x y = .lt → order y z = .lt → order x z = .lt
  total : ∀ x ∈ nodes, ∀ y ∈ nodes, x ≠ y → order x y = .lt ∨ order y x = .lt
  density : ∀ x ∈ nodes, ∀ y ∈ nodes, x.retentionClass = y.retentionClass →
    utility y * x.tokenCost.toNat < utility x * y.tokenCost.toNat → order x y ≠ .gt

/-- Of two nodes of one class, the denser one has the higher utility, or one cross product of the
two is exact. -/
def ProductsFit (utility : ContextNode → Nat) (nodes : Set ContextNode) : Prop :=
  ∀ x ∈ nodes, ∀ y ∈ nodes, x.retentionClass = y.retentionClass → utility x < utility y →
    utility y * x.tokenCost.toNat < utility x * y.tokenCost.toNat →
      utility y * x.tokenCost.toNat < u64Max

section Keys

variable {utility : ContextNode → Nat} {x y : ContextNode} {nodes : Set ContextNode}

/-- The utility per token. -/
def densityOf (utility : ContextNode → Nat) (node : ContextNode) : ℚ :=
  utility node / node.tokenCost.toNat

theorem tokenCost_pos (accepted : x.isAccepted = true) : 0 < x.tokenCost.toNat := by
  simp only [ContextNode.isAccepted, Bool.and_eq_true, bne_iff_ne] at accepted
  exact BitVec.lt_def.mp (BitVec.pos_iff_ne_zero _ |>.mpr accepted.2)

theorem densityOf_lt_iff (hx : x.isAccepted = true) (hy : y.isAccepted = true) :
    densityOf utility y < densityOf utility x ↔
      utility y * x.tokenCost.toNat < utility x * y.tokenCost.toNat := by
  have posX : (0 : ℚ) < x.tokenCost.toNat := Nat.cast_pos.mpr (tokenCost_pos hx)
  have posY : (0 : ℚ) < y.tokenCost.toNat := Nat.cast_pos.mpr (tokenCost_pos hy)
  rw [densityOf, densityOf, div_lt_div_iff₀ posY posX]
  exact_mod_cast Iff.rfl

/-- The order without a bound on the products, which compares the keys one after the other. -/
def orderByKeys (utility : ContextNode → Nat) : ContextNode → ContextNode → Ordering :=
  compareLex (compareOn (retentionRank ·.retentionClass)) <|
    compareLex (fun left right => compareOn (densityOf utility) right left) <|
    compareLex (fun left right => compareOn utility right left) <|
    compareLex (compareOn (·.tokenCost.toNat)) (compareOn (·.nodeId))

instance : TransCmp (orderByKeys utility) :=
  inferInstanceAs
    (TransCmp (compareLex (compareOn _) (compareLex _ (compareLex _ (compareLex _ _)))))

theorem compare_densityOf (hx : x.isAccepted = true) (hy : y.isAccepted = true) :
    compare (densityOf utility y) (densityOf utility x) =
      compare (utility y * x.tokenCost.toNat) (utility x * y.tokenCost.toNat) := by
  obtain less | same | more := lt_trichotomy (utility y * x.tokenCost.toNat)
    (utility x * y.tokenCost.toNat)
  · rw [Nat.compare_eq_lt.mpr less]
    exact compare_lt_iff_lt.mpr ((densityOf_lt_iff hx hy).mpr less)
  · rw [Nat.compare_eq_eq.mpr same]
    exact compare_eq_iff_eq.mpr (le_antisymm
      (le_of_not_gt fun less => ((densityOf_lt_iff hy hx).mp less).ne same.symm)
      (le_of_not_gt fun less => ((densityOf_lt_iff hx hy).mp less).ne same))
  · rw [Nat.compare_eq_gt.mpr more]
    exact compare_gt_iff_gt.mpr ((densityOf_lt_iff hy hx).mpr more)

/-- Bounds on two numbers do not matter to what is decided after them, unless both are reached. -/
theorem compare_saturated_then {a b bound : Nat} {rest : Ordering}
    (below : a < b → bound ≤ a → rest = .lt) (above : b < a → bound ≤ b → rest = .gt) :
    (compare (min a bound) (min b bound)).then rest = (compare a b).then rest := by
  obtain less | rfl | more := lt_trichotomy a b
  · by_cases large : bound ≤ a
    · rw [below less large, Nat.compare_eq_lt.mpr less, min_eq_right large,
        min_eq_right (large.trans less.le), Nat.compare_eq_eq.mpr rfl]
      rfl
    · rw [Nat.compare_eq_lt.mpr less, Nat.compare_eq_lt.mpr (by omega)]
  · rw [Nat.compare_eq_eq.mpr rfl, Nat.compare_eq_eq.mpr rfl]
  · by_cases large : bound ≤ b
    · rw [above more large, Nat.compare_eq_gt.mpr more, min_eq_right large,
        min_eq_right (large.trans more.le), Nat.compare_eq_eq.mpr rfl]
      rfl
    · rw [Nat.compare_eq_gt.mpr more, Nat.compare_eq_gt.mpr (by omega)]

/-- A denser node with no lower utility comes first by the rules for equal densities, too. -/
theorem tieBreak_lt {u v c d : Nat} {rest : Ordering} (denser : v * c < u * d) (notLower : v ≤ u) :
    (compare v u).then ((compare c d).then rest) = .lt := by
  obtain less | rfl := notLower.lt_or_eq
  · rw [Nat.compare_eq_lt.mpr less]
    rfl
  · rw [Nat.compare_eq_eq.mpr rfl, Nat.compare_eq_lt.mpr (lt_of_mul_lt_mul_left denser v.zero_le)]
    rfl

theorem tieBreak_gt {u v c d : Nat} {rest : Ordering} (denser : u * d < v * c) (notLower : u ≤ v) :
    (compare v u).then ((compare c d).then rest) = .gt := by
  have swapped := @tieBreak_lt _ _ _ _ rest.swap denser notLower
  rw [← Nat.compare_swap v u, ← Nat.compare_swap c d, ← Ordering.swap_then, ← Ordering.swap_then,
    Ordering.swap_eq_lt] at swapped
  exact swapped

theorem orderByUtility_eq (hx : x.isAccepted = true) (hy : y.isAccepted = true)
    (fits : ProductsFit utility nodes) (memX : x ∈ nodes) (memY : y ∈ nodes) :
    orderByUtility utility x y = orderByKeys utility x y := by
  have keys : orderByKeys utility x y =
      (compare (retentionRank x.retentionClass) (retentionRank y.retentionClass)).then
        ((compare (densityOf utility y) (densityOf utility x)).then
          ((compare (utility y) (utility x)).then
            ((compare x.tokenCost.toNat y.tokenCost.toNat).then (compare x.nodeId y.nodeId)))) :=
    rfl
  rw [keys, orderByUtility, compare_densityOf hx hy]
  by_cases sameClass : x.retentionClass = y.retentionClass
  · congr 1
    apply compare_saturated_then
    · intro denser large
      exact tieBreak_lt denser (le_of_not_gt fun lower =>
        large.not_gt (fits x memX y memY sameClass lower denser))
    · intro denser large
      exact tieBreak_gt denser (le_of_not_gt fun lower =>
        large.not_gt (fits y memY x memX sameClass.symm lower denser))
  · have apart : retentionRank x.retentionClass ≠ retentionRank y.retentionClass := by
      intro same
      cases hx : x.retentionClass <;> cases hy : y.retentionClass <;> simp_all [retentionRank]
    obtain less | more := apart.lt_or_gt
    · rw [Nat.compare_eq_lt.mpr less]
      rfl
    · rw [Nat.compare_eq_gt.mpr more]
      rfl

theorem orderByUtility_gt (sameClass : x.retentionClass = y.retentionClass)
    (lower : utility x < utility y)
    (denser : utility y * x.tokenCost.toNat < utility x * y.tokenCost.toNat)
    (large : u64Max ≤ utility y * x.tokenCost.toNat) : orderByUtility utility x y = .gt := by
  have both : saturatingMul u64Max (utility y) x.tokenCost.toNat =
      saturatingMul u64Max (utility x) y.tokenCost.toNat := by
    rw [saturatingMul, saturatingMul, min_eq_right large, min_eq_right (large.trans denser.le)]
  rw [orderByUtility, sameClass, both, Nat.compare_eq_gt.mpr lower]
  simp

theorem ordersByDensity_iff (accepted : ∀ node ∈ nodes, node.isAccepted = true)
    (distinct : Set.InjOn ContextNode.nodeId nodes) :
    OrdersByDensity utility (orderByUtility utility) nodes ↔ ProductsFit utility nodes := by
  constructor
  · intro orders x hx y hy sameClass lower denser
    by_contra large
    exact orders.density x hx y hy sameClass denser
      (orderByUtility_gt sameClass lower denser (Nat.le_of_not_lt large))
  · intro fits
    have same (x) (hx : x ∈ nodes) (y) (hy : y ∈ nodes) :
        orderByUtility utility x y = orderByKeys utility x y :=
      orderByUtility_eq (accepted x hx) (accepted y hy) fits hx hy
    refine ⟨fun x hx y hy => ?_, fun x hx y hy z hz less less' => ?_, fun x hx y hy apart => ?_,
      fun x hx y hy sameClass denser => ?_⟩
    · rw [same x hx y hy, same y hy x hx]
      exact OrientedCmp.eq_swap
    · rw [same x hx y hy] at less
      rw [same y hy z hz] at less'
      rw [same x hx z hz]
      exact TransCmp.lt_trans less less'
    · rw [same x hx y hy, same y hy x hx]
      cases order : orderByKeys utility x y with
      | lt => exact .inl rfl
      | gt => exact .inr (OrientedCmp.lt_of_gt order)
      | eq =>
          -- The last key is the id, which no other node has.
          simp only [orderByKeys, compareLex, compareOn, Ordering.then_eq_eq,
            compare_eq_iff_eq] at order
          exact absurd (distinct hx hy (Std.compare_eq_iff_eq.mp order.2.2.2.2)) apart
    · rw [same x hx y hy]
      have first := compare_lt_iff_lt.mpr
        ((densityOf_lt_iff (accepted x hx) (accepted y hy)).mpr denser)
      simp [orderByKeys, compareLex, compareOn, sameClass, first]

end Keys

/-- Both orders of the candidates are strict total orders by utility per token if and only if their
products fit. -/
theorem candidate_orders_by_density_iff (nodes : Set ContextNode)
    (relatedMemoryIds : ExtTreeSet (BitVec 128) compare)
    (accepted : ∀ node ∈ nodes, node.isAccepted = true)
    (distinct : Set.InjOn ContextNode.nodeId nodes) :
    OrdersByDensity ContextNode.deterministicUtility candidateOrder nodes ∧
        OrdersByDensity (contextNodeUtilityWithFileRelationSupport relatedMemoryIds)
          (candidateOrderWithFileRelationSupport relatedMemoryIds) nodes ↔
      ProductsFit ContextNode.deterministicUtility nodes ∧
        ProductsFit (contextNodeUtilityWithFileRelationSupport relatedMemoryIds) nodes :=
  and_congr (ordersByDensity_iff accepted distinct) (ordersByDensity_iff accepted distinct)

def memoryNode (nodeId : BitVec 128) (utilityScore dependencyCoverage tokenCost : BitVec 32) :
    ContextNode :=
  ⟨nodeId, .memory, .condensable, tokenCost, utilityScore, dependencyCoverage, 0⟩

theorem two_memories_order_by_density :
    OrdersByDensity ContextNode.deterministicUtility candidateOrder
        {memoryNode 1 9 0 2, memoryNode 2 8 0 4} ∧
      OrdersByDensity (contextNodeUtilityWithFileRelationSupport ∅)
        (candidateOrderWithFileRelationSupport ∅) {memoryNode 1 9 0 2, memoryNode 2 8 0 4} := by
  refine (candidate_orders_by_density_iff _ ∅ ?_ ?_).mpr ⟨?_, ?_⟩
  · simp [memoryNode, ContextNode.isAccepted]
  · simp [Set.InjOn, memoryNode]
  · simp [ProductsFit, memoryNode, ContextNode.deterministicUtility, saturatingAdd]
    decide
  · simp [ProductsFit, memoryNode, ContextNode.deterministicUtility, saturatingAdd,
      contextNodeUtilityWithFileRelationSupport]
    decide

def wideNode : ContextNode := memoryNode 1 (2 ^ 32 - 1) (2 ^ 32 - 1) (2 ^ 32 - 1)
def denseNode : ContextNode := memoryNode 2 (2 ^ 32 - 1) 11 (2 ^ 31 + 1)
def smallNode : ContextNode := memoryNode 3 (2 ^ 30 + 1) 0 (2 ^ 29)

/-- Each of the three nodes comes before the next one, and the last before the first. -/
theorem saturated_products_cycle :
    (∀ node ∈ ({wideNode, denseNode, smallNode} : Set ContextNode), node.isAccepted = true) ∧
      Set.InjOn ContextNode.nodeId {wideNode, denseNode, smallNode} ∧
      ¬ OrdersByDensity ContextNode.deterministicUtility candidateOrder
        {wideNode, denseNode, smallNode} := by
  refine ⟨?_, ?_, fun orders => ?_⟩
  · rintro node (rfl | rfl | rfl) <;> decide
  · simp [Set.InjOn, wideNode, denseNode, smallNode, memoryNode]
  · have wide_first := orders.trans wideNode (by simp) denseNode (by simp) smallNode (by simp)
      (by decide) (by decide)
    exact absurd wide_first (by decide)

end Aegis.Context
