import Mathlib.Analysis.Complex.Exponential
import Mathlib.Data.List.TakeWhile
import Mathlib.Data.Prod.Lex
import Mathlib.Order.Bounds.Defs
import AegisCognition.Foundation.Selection
import AegisCognition.Foundation.Update

/-!
# Folding the edges of a memory graph

Folding reinforces the edges that are in use, lets all edges decay, drops those below a threshold
and keeps the heaviest edge of every pair of nodes. The passes write into the list of edges. The
check of an edge stands inside the second of them, so that a refused graph may have changed.

Weights are elements of an ordered ring, which no rounding touches. The exponential function is a
parameter.
-/

namespace Aegis.Memory

open Foundation List

variable {K : Type} [CommRing K] [LinearOrder K]

structure MemoryEdge (K : Type) where
  edgeId : Nat
  fromNode : Nat
  toNode : Nat
  weight : K
  timeSinceLastAccess : K

def MemoryEdge.isValid (edge : MemoryEdge K) : Bool :=
  0 < edge.edgeId && 0 < edge.fromNode && 0 < edge.toNode && edge.fromNode != edge.toNode &&
    0 ≤ edge.weight && 0 ≤ edge.timeSinceLastAccess

structure MemoryGraph (K : Type) where
  edges : List (MemoryEdge K)

structure FoldingConfig (K : Type) where
  decayRate : K
  reinforceFactor : K
  pruningThreshold : K

def FoldingConfig.isValid (config : FoldingConfig K) : Bool :=
  0 ≤ config.decayRate && 0 ≤ config.reinforceFactor && 0 ≤ config.pruningThreshold

/-- `clamp(0.0, 1.0)`. -/
def clamp (weight : K) : K :=
  if weight < 0 then 0 else if 1 < weight then 1 else weight

section Passes

variable (exp : K → K) (config : FoldingConfig K)

def reinforceEdge (reinforceFactor : K) (edge : MemoryEdge K) : MemoryEdge K :=
  if edge.timeSinceLastAccess = 0 then { edge with weight := clamp (edge.weight + reinforceFactor) }
  else edge

def reinforceActivePaths (reinforceFactor : K) : EStateM String (MemoryGraph K) Unit := do
  refuse (reinforceFactor < 0) "invalid reinforce factor"
  modify fun graph => ⟨graph.edges.map (reinforceEdge reinforceFactor)⟩

def decayEdge (edge : MemoryEdge K) : MemoryEdge K :=
  { edge with weight := clamp (edge.weight * exp (-config.decayRate * edge.timeSinceLastAccess)) }

/-- The loop over the edges. It stops at the first one that is not valid, and those before it have
decayed. -/
def decayEdges : List (MemoryEdge K) → List (MemoryEdge K) × Bool
  | [] => ([], true)
  | edge :: edges =>
      if edge.isValid then
        let (edges, finished) := decayEdges edges
        (decayEdge exp config edge :: edges, finished)
      else (edge :: edges, false)

def decayLinks : EStateM String (MemoryGraph K) Unit := do
  refuse (config.isValid = false) "invalid folding config"
  let graph ← get
  let (edges, finished) := decayEdges exp config graph.edges
  set (MemoryGraph.mk edges)
  refuse (finished = false) "invalid memory edge"
  modify fun graph => ⟨graph.edges.filter fun edge => config.pruningThreshold ≤ edge.weight⟩

/-- The key that the edges are sorted by. -/
def compareEdges (first second : MemoryEdge K) : Ordering :=
  compareLex (compareOn (·.fromNode)) (compareLex (compareOn (·.toNode)) (compareOn (·.edgeId)))
    first second

/-- Give the last edge the weight of another one between the same nodes, if that is heavier. -/
def compactEdge (compacted : List (MemoryEdge K)) (edge : MemoryEdge K) : List (MemoryEdge K) :=
  match compacted.getLast? with
  | some existing =>
      if existing.fromNode = edge.fromNode ∧ existing.toNode = edge.toNode then
        if existing.weight < edge.weight then
          compacted.dropLast ++ [{ existing with
            weight := edge.weight
            timeSinceLastAccess := edge.timeSinceLastAccess }]
        else compacted
      else compacted ++ [edge]
  | none => compacted ++ [edge]

def deduplicateEdges (edges : List (MemoryEdge K)) : List (MemoryEdge K) :=
  (sortBy compareEdges edges).foldl compactEdge []

def foldMemory : EStateM String (MemoryGraph K) Unit := do
  refuse (config.isValid = false) "invalid folding config"
  reinforceActivePaths config.reinforceFactor
  decayLinks exp config
  modify fun graph => ⟨deduplicateEdges graph.edges⟩

end Passes

/-! ### What the passes do -/

section Results

variable {exp : K → K} {config : FoldingConfig K} {graph next : MemoryGraph K} {error : String}

theorem decayEdges_eq (edges : List (MemoryEdge K)) : decayEdges exp config edges =
    ((edges.takeWhile MemoryEdge.isValid).map (decayEdge exp config) ++
      edges.dropWhile MemoryEdge.isValid, edges.all MemoryEdge.isValid) := by
  induction edges with
  | nil => rfl
  | cons edge edges ih =>
      rw [decayEdges]
      by_cases valid : edge.isValid = true
      · simp [valid, ih]
      · simp [valid]

/-- The edges as a refused pass leaves them: those before the first invalid one have decayed. -/
def partlyDecayed (exp : K → K) (config : FoldingConfig K) (edges : List (MemoryEdge K)) :
    List (MemoryEdge K) :=
  (edges.takeWhile MemoryEdge.isValid).map (decayEdge exp config) ++
    edges.dropWhile MemoryEdge.isValid

theorem partlyDecayed_cons (edge : MemoryEdge K) (edges : List (MemoryEdge K)) :
    partlyDecayed exp config (edge :: edges) =
      if edge.isValid then decayEdge exp config edge :: partlyDecayed exp config edges
      else edge :: edges := by
  unfold partlyDecayed
  by_cases valid : edge.isValid = true <;> simp [valid]

theorem partlyDecayed_eq_iff {edges : List (MemoryEdge K)} :
    partlyDecayed exp config edges = edges ↔
      ∀ edge ∈ edges.takeWhile MemoryEdge.isValid, decayEdge exp config edge = edge := by
  induction edges with
  | nil => simp [partlyDecayed]
  | cons edge edges ih =>
      rw [partlyDecayed_cons]
      by_cases valid : edge.isValid = true
      · rw [if_pos valid, takeWhile_cons_of_pos valid, forall_mem_cons, List.cons.injEq, ih]
      · simp [valid]

section

variable (exp : K → K) (config : FoldingConfig K)

/-- The edges that are heavy enough when they have decayed. -/
def survivors (edges : List (MemoryEdge K)) : List (MemoryEdge K) :=
  (edges.map (decayEdge exp config)).filter fun edge => config.pruningThreshold ≤ edge.weight

theorem decayLinks_eq (graph : MemoryGraph K) : decayLinks exp config graph =
      if config.isValid = false then .error "invalid folding config" graph
      else if graph.edges.all MemoryEdge.isValid = false then
        .error "invalid memory edge" ⟨partlyDecayed exp config graph.edges⟩
      else .ok () ⟨survivors exp config graph.edges⟩ := by
  have started (valid : config.isValid = true) :
      (refuse (config.isValid = false) "invalid folding config" :
        EStateM String (MemoryGraph K) Unit) graph = .ok () graph :=
    refuse_ok_iff.mpr ⟨by rw [valid]; decide, rfl⟩
  have read : (get : EStateM String (MemoryGraph K) _) graph = .ok graph graph :=
    get_ok_iff.mpr ⟨rfl, rfl⟩
  unfold decayLinks
  split
  · next invalid => exact bind_error_iff.mpr (.inl (refuse_error_iff.mpr ⟨invalid, rfl, rfl⟩))
  · next valid =>
      have start := started (Bool.not_eq_false _ ▸ valid)
      split
      · next stopped =>
          refine bind_error_iff.mpr (.inr ⟨(), graph, start, ?_⟩)
          refine bind_error_iff.mpr (.inr ⟨graph, graph, read, ?_⟩)
          rw [decayEdges_eq]
          refine bind_error_iff.mpr (.inr ⟨(), ⟨partlyDecayed exp config graph.edges⟩,
            set_ok_iff.mpr rfl, ?_⟩)
          exact bind_error_iff.mpr (.inl (refuse_error_iff.mpr ⟨stopped, rfl, rfl⟩))
      · next finished =>
          have all : ∀ edge ∈ graph.edges, edge.isValid = true :=
            all_eq_true.mp (Bool.not_eq_false _ ▸ finished)
          refine bind_ok_iff.mpr ⟨(), graph, start, bind_ok_iff.mpr ⟨graph, graph, read, ?_⟩⟩
          rw [decayEdges_eq, takeWhile_eq_self_iff.mpr all, dropWhile_eq_nil_iff.mpr all,
            append_nil]
          refine bind_ok_iff.mpr ⟨(), ⟨graph.edges.map (decayEdge exp config)⟩,
            set_ok_iff.mpr rfl, ?_⟩
          exact bind_ok_iff.mpr ⟨(), _, refuse_ok_iff.mpr ⟨finished, rfl⟩, modify_ok_iff.mpr rfl⟩

theorem foldMemory_eq (graph : MemoryGraph K) : foldMemory exp config graph =
      let edges := graph.edges.map (reinforceEdge config.reinforceFactor)
      if config.isValid = false then .error "invalid folding config" graph
      else if edges.all MemoryEdge.isValid = false then
        .error "invalid memory edge" ⟨partlyDecayed exp config edges⟩
      else .ok () ⟨deduplicateEdges (survivors exp config edges)⟩ := by
  simp only
  unfold foldMemory
  split
  · next invalid => exact bind_error_iff.mpr (.inl (refuse_error_iff.mpr ⟨invalid, rfl, rfl⟩))
  · next valid =>
      have start : (refuse (config.isValid = false) "invalid folding config" :
          EStateM String (MemoryGraph K) Unit) graph = .ok () graph :=
        refuse_ok_iff.mpr ⟨valid, rfl⟩
      have factor : ¬ config.reinforceFactor < 0 := by
        rw [Bool.not_eq_false] at valid
        simp only [FoldingConfig.isValid, Bool.and_eq_true, decide_eq_true_eq] at valid
        exact not_lt.mpr valid.1.2
      have reinforced : reinforceActivePaths config.reinforceFactor graph =
          .ok () ⟨graph.edges.map (reinforceEdge config.reinforceFactor)⟩ :=
        bind_ok_iff.mpr ⟨(), graph, refuse_ok_iff.mpr ⟨factor, rfl⟩, modify_ok_iff.mpr rfl⟩
      have decayed := decayLinks_eq exp config
        ⟨graph.edges.map (reinforceEdge config.reinforceFactor)⟩
      rw [if_neg valid] at decayed
      split
      · next stopped =>
          rw [if_pos stopped] at decayed
          refine bind_error_iff.mpr (.inr ⟨(), graph, start, ?_⟩)
          refine bind_error_iff.mpr (.inr ⟨(), _, reinforced, ?_⟩)
          exact bind_error_iff.mpr (.inl decayed)
      · next finished =>
          rw [if_neg finished] at decayed
          refine bind_ok_iff.mpr ⟨(), graph, start, bind_ok_iff.mpr ⟨(), _, reinforced, ?_⟩⟩
          exact bind_ok_iff.mpr ⟨(), _, decayed, modify_ok_iff.mpr rfl⟩

end

end Results

/-! ### What is left of the edges -/

section Compacting

variable {L : Type} {edge : MemoryEdge L} {weight : L}

/-- The pair of nodes, in the order that the edges are sorted by. -/
def MemoryEdge.ends (edge : MemoryEdge L) : Nat ×ₗ Nat :=
  toLex (edge.fromNode, edge.toNode)

theorem weight_inj : { edge with weight := weight } = edge ↔ weight = edge.weight := by
  cases edge
  simp

theorem ends_le_of_compareEdges {first second : MemoryEdge L}
    (le : (compareEdges first second).isLE = true) : first.ends ≤ second.ends := by
  unfold compareEdges compareLex at le
  rw [Ordering.isLE_then_iff_or] at le
  unfold MemoryEdge.ends
  rw [Prod.Lex.toLex_le_toLex]
  obtain less | ⟨same, le⟩ := le
  · exact .inl (Nat.compare_eq_lt.mp less)
  · refine .inr ⟨Nat.compare_eq_eq.mp same, ?_⟩
    exact Nat.isLE_compare.mp (Ordering.isLE_left_of_isLE_then le)

instance : Std.TransCmp (compareEdges (K := L)) :=
  inferInstanceAs (Std.TransCmp (compareLex (compareOn (MemoryEdge.fromNode (K := L)))
    (compareLex (compareOn MemoryEdge.toNode) (compareOn MemoryEdge.edgeId))))

variable [LinearOrder L]

/-- The edge with the larger of the two weights. -/
def heavier (existing edge : MemoryEdge L) : MemoryEdge L :=
  if existing.weight < edge.weight then
    { existing with
      weight := edge.weight
      timeSinceLastAccess := edge.timeSinceLastAccess }
  else existing

theorem ends_heavier (existing edge : MemoryEdge L) :
    (heavier existing edge).ends = existing.ends := by
  unfold heavier
  split <;> rfl

theorem weight_heavier (existing edge : MemoryEdge L) :
    (heavier existing edge).weight = max existing.weight edge.weight := by
  unfold heavier
  split
  · next lt => exact (max_eq_right lt.le).symm
  · next le => exact (max_eq_left (not_lt.mp le)).symm

theorem compactEdge_eq (compacted : List (MemoryEdge L)) (edge : MemoryEdge L) :
    compactEdge compacted edge = mergeLast MemoryEdge.ends heavier compacted edge := by
  unfold compactEdge mergeLast
  cases found : compacted.getLast? with
  | none => rfl
  | some existing =>
      have same : existing.ends = edge.ends ↔
          existing.fromNode = edge.fromNode ∧ existing.toNode = edge.toNode := by
        unfold MemoryEdge.ends
        rw [toLex_inj, Prod.mk.injEq]
      simp only [same]
      split
      · unfold heavier
        split
        · rfl
        · exact (dropLast_append_getLast? _ found).symm
      · rfl

/-- One edge is left for each pair of nodes. -/
theorem merged_deduplicateEdges (edges : List (MemoryEdge L)) :
    Merged MemoryEdge.ends MemoryEdge.weight (sortBy compareEdges edges)
      (deduplicateEdges edges) := by
  have compacted : deduplicateEdges edges =
      (sortBy compareEdges edges).foldl (mergeLast MemoryEdge.ends heavier) [] := by
    unfold deduplicateEdges
    congr 1
    funext compacted edge
    exact compactEdge_eq compacted edge
  rw [compacted]
  refine merged_foldl (fun existing edge _ => ends_heavier existing edge) weight_heavier ?_
  exact pairwise_map.mpr ((pairwise_sortBy edges).imp ends_le_of_compareEdges)

end Compacting

section Folded

variable {exp : K → K} {config : FoldingConfig K}

/-- The folded edges: at most one for each pair of nodes, with the largest weight among the edges of
the pair that are heavy enough when they have decayed. -/
structure IsFolded (exp : K → K) (config : FoldingConfig K) (edges folded : List (MemoryEdge K)) :
    Prop where
  nodup : (folded.map MemoryEdge.ends).Nodup
  heaviest : ∀ edge ∈ folded, IsGreatest
    {weight | ∃ other ∈ survivors exp config (edges.map (reinforceEdge config.reinforceFactor)),
      other.ends = edge.ends ∧ other.weight = weight} edge.weight
  complete : ∀ edge ∈ survivors exp config (edges.map (reinforceEdge config.reinforceFactor)),
    ∃ kept ∈ folded, kept.ends = edge.ends
  noNew : ∀ edge ∈ folded, ∃ old ∈ edges, old.ends = edge.ends

@[simp] theorem ends_decayEdge (edge : MemoryEdge K) :
    (decayEdge exp config edge).ends = edge.ends :=
  rfl

@[simp] theorem ends_reinforceEdge (factor : K) (edge : MemoryEdge K) :
    (reinforceEdge factor edge).ends = edge.ends := by
  unfold reinforceEdge
  split <;> rfl

theorem isFolded_deduplicateEdges (exp : K → K) (config : FoldingConfig K)
    (edges : List (MemoryEdge K)) : IsFolded exp config edges (deduplicateEdges
      (survivors exp config (edges.map (reinforceEdge config.reinforceFactor)))) := by
  have merged := merged_deduplicateEdges
    (survivors exp config (edges.map (reinforceEdge config.reinforceFactor)))
  refine ⟨merged.nodup, fun edge mem => ⟨?_, ?_⟩, fun edge mem => ?_, fun edge mem => ?_⟩
  · obtain ⟨other, found, same⟩ := merged.attained edge mem
    exact ⟨other, mem_sortBy.mp found, same⟩
  · rintro _ ⟨other, found, same, rfl⟩
    exact merged.largest edge mem other (mem_sortBy.mpr found) same
  · refine mem_map.mp ((merged.keys _).mpr ?_)
    exact mem_map_of_mem (mem_sortBy.mpr mem)
  · obtain ⟨other, found, same, -⟩ := merged.attained edge mem
    obtain ⟨decayed, -⟩ := mem_filter.mp (mem_sortBy.mp found)
    rw [map_map, mem_map] at decayed
    obtain ⟨old, mem, rfl⟩ := decayed
    refine ⟨old, mem, ?_⟩
    rw [← same, Function.comp_apply, ends_decayEdge, ends_reinforceEdge]

end Folded

/-! ### What a refused pass changes -/

section Refused

variable {exp : K → K} {config : FoldingConfig K}
variable {factor weight : K} {edge : MemoryEdge K} {edges : List (MemoryEdge K)}

/-- What the passes rely on of the exponential function. -/
structure DecaysFrom (exp : K → K) : Prop where
  zero : exp 0 = 1
  nonneg : ∀ x, 0 ≤ exp x
  lt_one : ∀ x < 0, exp x < 1

theorem FoldingConfig.isValid_iff : config.isValid = true ↔
    0 ≤ config.decayRate ∧ 0 ≤ config.reinforceFactor ∧ 0 ≤ config.pruningThreshold := by
  simp only [FoldingConfig.isValid, Bool.and_eq_true, decide_eq_true_eq, and_assoc]

theorem MemoryEdge.time_nonneg (valid : edge.isValid = true) : 0 ≤ edge.timeSinceLastAccess := by
  simp only [isValid, Bool.and_eq_true, decide_eq_true_eq] at valid
  exact valid.2

theorem DecaysFrom.le_one (decays : DecaysFrom exp) {x : K} (le : x ≤ 0) : exp x ≤ 1 := by
  obtain rfl | lt := le.eq_or_lt
  · exact decays.zero.le
  · exact (decays.lt_one x lt).le

theorem DecaysFrom.eq_one_iff (decays : DecaysFrom exp) {x : K} (le : x ≤ 0) :
    exp x = 1 ↔ x = 0 := by
  constructor
  · intro one
    by_contra ne
    exact (decays.lt_one x (lt_of_le_of_ne le ne)).ne one
  · rintro rfl
    exact decays.zero

theorem clamp_eq_self (nonneg : 0 ≤ weight) (le : weight ≤ 1) : clamp weight = weight := by
  unfold clamp
  rw [if_neg (not_lt.mpr nonneg), if_neg (not_lt.mpr le)]

variable [IsStrictOrderedRing K]

theorem clamp_eq_one (lt : 1 < weight) : clamp weight = 1 := by
  unfold clamp
  rw [if_neg (not_lt.mpr (zero_le_one.trans lt.le)), if_pos lt]

theorem clamp_nonneg (weight : K) : 0 ≤ clamp weight := by
  unfold clamp
  split
  · exact le_rfl
  · next nonneg =>
      split
      · exact zero_le_one
      · exact not_lt.mp nonneg

theorem clamp_le_one (weight : K) : clamp weight ≤ 1 := by
  unfold clamp
  split
  · exact zero_le_one
  · split
    · exact le_rfl
    · next le => exact not_lt.mp le

/-- Adding a factor keeps the weight that is full already, and any weight if the factor is zero. -/
theorem clamp_add_eq_iff (nonneg : 0 ≤ weight) (nonneg' : 0 ≤ factor) :
    clamp (weight + factor) = weight ↔ weight = 1 ∨ weight ≤ 1 ∧ factor = 0 := by
  have sum : 0 ≤ weight + factor := add_nonneg nonneg nonneg'
  constructor
  · intro same
    obtain le | lt := le_or_gt (weight + factor) 1
    · rw [clamp_eq_self sum le] at same
      have zero : factor = 0 := add_eq_left.mp same
      rw [zero, add_zero] at le
      exact .inr ⟨le, zero⟩
    · exact .inl (same.symm.trans (clamp_eq_one lt))
  · rintro (rfl | ⟨le, rfl⟩)
    · obtain rfl | pos := nonneg'.eq_or_lt
      · rw [add_zero, clamp_eq_self nonneg le_rfl]
      · exact clamp_eq_one (lt_add_of_pos_right 1 pos)
    · rw [add_zero, clamp_eq_self nonneg le]

/-- Scaling down keeps a weight of zero, and a weight up to one if it is scaled by one. -/
theorem clamp_mul_eq_iff (nonneg : 0 ≤ weight) (nonneg' : 0 ≤ factor) (le_one : factor ≤ 1) :
    clamp (weight * factor) = weight ↔ weight = 0 ∨ weight ≤ 1 ∧ factor = 1 := by
  have product : 0 ≤ weight * factor := mul_nonneg nonneg nonneg'
  have below : weight * factor ≤ weight := mul_le_of_le_one_right nonneg le_one
  constructor
  · intro same
    have bounded : weight ≤ 1 := same ▸ clamp_le_one _
    rw [clamp_eq_self product (below.trans bounded)] at same
    obtain one | zero := mul_right_eq_self₀.mp same
    · exact .inr ⟨bounded, one⟩
    · exact .inl zero
  · rintro (rfl | ⟨le, rfl⟩)
    · rw [zero_mul, clamp_eq_self le_rfl zero_le_one]
    · rw [mul_one, clamp_eq_self nonneg le]

/-- Reinforcing the edge changes nothing. -/
def KeptByReinforcing (config : FoldingConfig K) (edge : MemoryEdge K) : Prop :=
  edge.timeSinceLastAccess = 0 →
    edge.weight = 1 ∨ edge.weight ≤ 1 ∧ config.reinforceFactor = 0

/-- The decay of the edge changes nothing. -/
def KeptByDecay (config : FoldingConfig K) (edge : MemoryEdge K) : Prop :=
  edge.weight = 0 ∨ edge.weight ≤ 1 ∧ (config.decayRate = 0 ∨ edge.timeSinceLastAccess = 0)

theorem reinforceEdge_eq_iff (valid : config.isValid = true) (nonneg : 0 ≤ edge.weight) :
    reinforceEdge config.reinforceFactor edge = edge ↔ KeptByReinforcing config edge := by
  unfold reinforceEdge KeptByReinforcing
  split
  · next active =>
      rw [weight_inj, clamp_add_eq_iff nonneg (FoldingConfig.isValid_iff.mp valid).2.1]
      exact (imp_iff_right active).symm
  · next idle => simp [idle]

theorem decayEdge_eq_iff (decays : DecaysFrom exp) (valid : config.isValid = true)
    (nonneg : 0 ≤ edge.weight) (valid' : edge.isValid = true) :
    decayEdge exp config edge = edge ↔ KeptByDecay config edge := by
  have rate : 0 ≤ config.decayRate := (FoldingConfig.isValid_iff.mp valid).1
  have exponent : -config.decayRate * edge.timeSinceLastAccess ≤ 0 := by
    rw [neg_mul]
    exact neg_nonpos.mpr (mul_nonneg rate (MemoryEdge.time_nonneg valid'))
  unfold decayEdge KeptByDecay
  rw [weight_inj, clamp_mul_eq_iff nonneg (decays.nonneg _) (decays.le_one exponent),
    decays.eq_one_iff exponent, mul_eq_zero, neg_eq_zero]

theorem reinforced_of_decayed (decays : DecaysFrom exp)
    (same : decayEdge exp config (reinforceEdge factor edge) = edge) :
    reinforceEdge factor edge = edge := by
  unfold reinforceEdge at same ⊢
  split
  · next active =>
      rw [if_pos active] at same
      have weights := congrArg MemoryEdge.weight same
      simp only [decayEdge, active, mul_zero, decays.zero, mul_one] at weights
      rw [clamp_eq_self (clamp_nonneg _) (clamp_le_one _)] at weights
      exact weight_inj.mpr weights
  · rfl

theorem reinforced_of_partlyDecayed (decays : DecaysFrom exp)
    (same : partlyDecayed exp config (edges.map (reinforceEdge factor)) = edges) :
    edges.map (reinforceEdge factor) = edges := by
  induction edges with
  | nil => rfl
  | cons edge edges ih =>
      rw [map_cons, partlyDecayed_cons] at same
      split at same
      · obtain ⟨head, tail⟩ := List.cons.inj same
        rw [map_cons, reinforced_of_decayed decays head, ih tail]
      · exact same

theorem map_reinforceEdge_eq_iff (valid : config.isValid = true)
    (nonneg : ∀ edge ∈ edges, 0 ≤ edge.weight) :
    edges.map (reinforceEdge config.reinforceFactor) = edges ↔
      ∀ edge ∈ edges, KeptByReinforcing config edge := by
  conv_lhs => rhs; rw [← map_id edges]
  rw [map_inj_left]
  exact forall₂_congr fun edge mem => reinforceEdge_eq_iff valid (nonneg edge mem)

theorem isValid_reinforceEdge (nonneg : 0 ≤ edge.weight) :
    (reinforceEdge factor edge).isValid = edge.isValid := by
  unfold reinforceEdge
  split
  · simp [MemoryEdge.isValid, nonneg, clamp_nonneg]
  · rfl

theorem all_isValid_map_reinforceEdge (nonneg : ∀ edge ∈ edges, 0 ≤ edge.weight) :
    (edges.map (reinforceEdge factor)).all MemoryEdge.isValid = edges.all MemoryEdge.isValid := by
  rw [all_map, Bool.eq_iff_iff, all_eq_true, all_eq_true]
  refine forall₂_congr fun edge mem => ?_
  rw [Function.comp_apply, isValid_reinforceEdge (nonneg edge mem)]

end Refused

/-! ### All or nothing -/

section AllOrNothing

variable {exp : K → K} {config : FoldingConfig K} {graph : MemoryGraph K}

/-- A refusal changes nothing, and a fold leaves the heaviest edges. -/
structure AllOrNothing (exp : K → K) (config : FoldingConfig K) (graph : MemoryGraph K) :
    Prop where
  foldRefused : ∀ error next, foldMemory exp config graph = .error error next → next = graph
  decayRefused : ∀ error next, decayLinks exp config graph = .error error next → next = graph
  folded : ∀ next, foldMemory exp config graph = .ok () next →
    IsFolded exp config graph.edges next.edges

theorem folded_of_foldMemory {next : MemoryGraph K}
    (h : foldMemory exp config graph = .ok () next) :
    IsFolded exp config graph.edges next.edges := by
  rw [foldMemory_eq] at h
  simp only at h
  split at h
  · cases h
  · split at h
    · cases h
    · cases h
      exact isFolded_deduplicateEdges exp config graph.edges

/-- Nothing is refused, or nothing is written before the refusal. -/
def RefusedUnchanged (config : FoldingConfig K) (edges : List (MemoryEdge K)) : Prop :=
  config.isValid = false ∨ (∀ edge ∈ edges, edge.isValid = true) ∨
    (∀ edge ∈ edges, KeptByReinforcing config edge) ∧
      ∀ edge ∈ edges.takeWhile MemoryEdge.isValid, KeptByDecay config edge

variable [IsStrictOrderedRing K]

theorem partlyDecayed_eq_iff_kept {edges : List (MemoryEdge K)} (decays : DecaysFrom exp)
    (valid : config.isValid = true) (nonneg : ∀ edge ∈ edges, 0 ≤ edge.weight) :
    partlyDecayed exp config edges = edges ↔
      ∀ edge ∈ edges.takeWhile MemoryEdge.isValid, KeptByDecay config edge := by
  rw [partlyDecayed_eq_iff]
  refine forall₂_congr fun edge mem => ?_
  have inside : edge ∈ edges := (List.takeWhile_prefix _).subset mem
  exact decayEdge_eq_iff decays valid (nonneg edge inside) (mem_takeWhile_imp mem)

/-- Folding is all or nothing exactly where nothing is written before a refusal. -/
theorem folding_allOrNothing_iff (decays : DecaysFrom exp)
    (nonneg : ∀ edge ∈ graph.edges, 0 ≤ edge.weight) :
    AllOrNothing exp config graph ↔ RefusedUnchanged config graph.edges := by
  obtain ⟨edges⟩ := graph
  simp only at nonneg
  have folding := foldMemory_eq exp config ⟨edges⟩
  have decaying := decayLinks_eq exp config ⟨edges⟩
  simp only [all_isValid_map_reinforceEdge nonneg] at folding decaying
  cases valid : config.isValid with
  | false =>
      rw [if_pos valid] at folding decaying
      refine iff_of_true ⟨?_, ?_, fun _ h => folded_of_foldMemory h⟩ (.inl valid)
      · rintro _ _ h
        cases folding.symm.trans h
        rfl
      · rintro _ _ h
        cases decaying.symm.trans h
        rfl
  | true =>
      rw [if_neg (by rw [valid]; decide)] at folding decaying
      cases all : edges.all MemoryEdge.isValid with
      | true =>
          rw [if_neg (by rw [all]; decide)] at folding decaying
          refine iff_of_true ⟨?_, ?_, fun _ h => folded_of_foldMemory h⟩
            (.inr (.inl (all_eq_true.mp all)))
          · rintro _ _ h
            cases folding.symm.trans h
          · rintro _ _ h
            cases decaying.symm.trans h
      | false =>
          rw [if_pos all] at folding decaying
          have kept := partlyDecayed_eq_iff_kept decays valid nonneg
          have kept' := map_reinforceEdge_eq_iff valid nonneg
          constructor
          · intro h
            have first := congrArg MemoryGraph.edges (h.foldRefused _ _ folding)
            have second := congrArg MemoryGraph.edges (h.decayRefused _ _ decaying)
            exact .inr (.inr ⟨kept'.mp (reinforced_of_partlyDecayed decays first), kept.mp second⟩)
          · rintro (invalid | every | ⟨reinforced, decayed⟩)
            · rw [valid] at invalid
              cases invalid
            · rw [all_eq_true.mpr every] at all
              cases all
            · rw [kept'.mpr reinforced, kept.mpr decayed] at folding
              rw [kept.mpr decayed] at decaying
              refine ⟨?_, ?_, fun _ h => folded_of_foldMemory h⟩
              · rintro _ _ h
                cases folding.symm.trans h
                rfl
              · rintro _ _ h
                cases decaying.symm.trans h
                rfl

theorem decaysFrom_exp : DecaysFrom Real.exp :=
  ⟨Real.exp_zero, Real.exp_nonneg, fun _ => Real.exp_lt_one_iff.mpr⟩

/-- The edge between 1 and 2 is in use, and a later edge has no id. -/
theorem refused_fold_reinforces : ¬ AllOrNothing Real.exp ⟨0, 1, 0⟩
    ⟨[⟨1, 1, 2, 0, 0⟩, ⟨0, 1, 2, 0, 0⟩]⟩ := by
  intro h
  have changed : foldMemory Real.exp ⟨0, 1, 0⟩ ⟨[⟨1, 1, 2, 0, 0⟩, ⟨0, 1, 2, 0, 0⟩]⟩ =
      .error "invalid memory edge" ⟨[⟨1, 1, 2, 1, 0⟩, ⟨0, 1, 2, 1, 0⟩]⟩ := by
    have nonneg : ¬ (1 : ℝ) < 0 := not_lt.mpr zero_le_one
    rw [foldMemory_eq]
    simp [FoldingConfig.isValid, reinforceEdge, clamp, MemoryEdge.isValid, partlyDecayed_cons,
      decayEdge, nonneg]
  have same := congrArg MemoryGraph.edges (h.foldRefused _ _ changed)
  simp at same

theorem stored_edges_fold : AllOrNothing Real.exp ⟨1, 1, 0⟩
    ⟨[⟨1, 1, 2, 1, 0⟩, ⟨2, 1, 2, 0, 3⟩]⟩ := by
  refine (folding_allOrNothing_iff decaysFrom_exp ?_).mpr (.inr (.inl ?_))
  · simp
  · simp [MemoryEdge.isValid]

end AllOrNothing

end Aegis.Memory
