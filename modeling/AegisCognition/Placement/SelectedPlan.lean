import AegisCognition.Placement.Choice
import AegisCognition.Placement.Makespan

/-!
# What a selected plan is made of

A cooperative plan is selected at one place in its construction. There the check of the task has
passed, the inventory names every resource once, each slice is bound to its specification, and the
buffers are laid out between the slices.
-/

namespace Aegis.Placement

open Std Foundation Resource CooperativeInventory CooperativeReservationLedger List

variable {debug : PlacementError → String} {task : CooperativePlacementTask}
variable {capabilities : List PlacementCapability} {paths : List PlacementTransferPath}
variable {nowMs : Nat} {plan : CooperativePlacementPlan}
variable {slices placed : List CooperativePlacementSlice}
variable {inventory : CooperativeInventory}

/-! ### Inventories -/

/-- Resources that have identities, and paths that are valid, each of them listed once. -/
structure Inventoried (capabilities : List PlacementCapability)
    (paths : List PlacementTransferPath) : Prop where
  named : ∀ capability ∈ capabilities, isBlank capability.id = false
  distinct : (capabilities.map (·.id)).Nodup
  valid : ∀ path ∈ paths, path.validate = .ok ()
  separate : (paths.map (·.id)).Nodup

/-- The identities that have been read are those of the items read so far. -/
def Recorded {α : Type} (id : α → String) (seen : List α) (inventory : CooperativeInventory) :
    Prop :=
  (seen.map id).Nodup ∧ ∀ name, name ∈ inventory.ids ↔ name ∈ seen.map id

theorem Recorded.concat {α : Type} {id : α → String} {seen : List α} {item : α}
    {next : CooperativeInventory} (recorded : Recorded id seen inventory)
    (fresh : id item ∉ inventory.ids) (entered : next.ids = inventory.ids.insert (id item)) :
    Recorded id (seen ++ [item]) next := by
  refine ⟨?_, fun name => ?_⟩
  · apply nodup_map_concat recorded.1
    intro other mem same
    exact fresh ((recorded.2 _).mpr (mem_map.mpr ⟨other, mem, same⟩))
  · rw [entered, ExtTreeSet.mem_insert, map_append, mem_append, recorded.2,
      map_singleton, mem_singleton, Std.compare_eq_iff_eq]
    constructor
    · rintro (same | mem)
      · exact .inr same.symm
      · exact .inl mem
    · rintro (mem | same)
      · exact .inr mem
      · exact .inl same.symm

theorem readCapability_ok {capability : PlacementCapability} {next : CooperativeInventory}
    (h : inventory.readCapability capability = .ok next) :
    isBlank capability.id = false ∧ capability.id ∉ inventory.ids ∧
      next.ids = inventory.ids.insert capability.id := by
  simp only [readCapability, ite_error_eq_ok_iff, not_or, Bool.not_eq_true] at h
  obtain ⟨⟨named, fresh⟩, read⟩ := h
  refine ⟨named, fresh, ?_⟩
  split at read <;> obtain rfl := Except.ok.inj read <;> rfl

theorem readPath_ok {path : PlacementTransferPath} {next : CooperativeInventory}
    (h : inventory.readPath path = .ok next) :
    path.validate = .ok () ∧ path.id ∉ inventory.ids ∧
      next.ids = inventory.ids.insert path.id := by
  simp only [readPath, bind_eq_ok_iff, refuseWhen_eq_ok_iff, pure_eq_ok_iff] at h
  obtain ⟨_, valid, _, fresh, rfl⟩ := h
  exact ⟨valid, fresh, rfl⟩

/-- The inventory is refused if a resource has no identity, or that of another one. -/
theorem read_inventoried (h : CooperativeInventory.read capabilities paths = .ok inventory) :
    Inventoried capabilities paths := by
  obtain ⟨middle, first, second⟩ := bind_eq_ok_iff.mp h
  have nothing {α : Type} (id : α → String) {inventory : CooperativeInventory}
      (unread : inventory.ids = ∅) : Recorded id [] inventory := by
    simp [Recorded, unread]
  have resources : Recorded PlacementCapability.id capabilities middle ∧
      ∀ capability ∈ capabilities, isBlank capability.id = false := by
    refine foldlM_invariant (motive := fun seen inventory =>
      Recorded PlacementCapability.id seen inventory ∧
        ∀ capability ∈ seen, isBlank capability.id = false) ?_ ⟨nothing _ rfl, by simp⟩ first
    intro seen capability rest before after _ inv read
    obtain ⟨named, fresh, entered⟩ := readCapability_ok read
    refine ⟨inv.1.concat fresh entered, ?_⟩
    rw [forall_mem_append, forall_mem_singleton]
    exact ⟨inv.2, named⟩
  have routes : Recorded PlacementTransferPath.id paths inventory ∧
      ∀ path ∈ paths, path.validate = .ok () := by
    refine foldlM_invariant (motive := fun seen inventory =>
      Recorded PlacementTransferPath.id seen inventory ∧ ∀ path ∈ seen, path.validate = .ok ())
      ?_ ⟨nothing _ rfl, by simp⟩ second
    intro seen path rest before after _ inv read
    obtain ⟨valid, fresh, entered⟩ := readPath_ok read
    refine ⟨inv.1.concat fresh entered, ?_⟩
    rw [forall_mem_append, forall_mem_singleton]
    exact ⟨inv.2, valid⟩
  exact ⟨resources.2, resources.1.1, routes.2, routes.1.1⟩

/-! ### Slices -/

theorem cooperativeDeferred_not_selected (slices : List CooperativePlacementSlice)
    (reason : String) : (cooperativeDeferred task slices reason nowMs).decision ≠ "selected" := by
  simp [cooperativeDeferred]

variable {specifications : List CooperativeSliceSpec}

theorem placeSlices_deferred
    (h : placeSlices task capabilities paths nowMs slices specifications = .ok (.inl plan)) :
    plan.decision ≠ "selected" := by
  induction specifications generalizing slices with
  | nil => cases Except.ok.inj h
  | cons specification rest ih =>
      rw [placeSlices, bind_eq_ok_iff] at h
      obtain ⟨placement, -, h⟩ := h
      cases placement with
      | bound slice => exact ih h
      | unbound slice reason =>
          obtain rfl := Sum.inl.inj (Except.ok.inj h)
          exact cooperativeDeferred_not_selected _ _

/-- Slices that have been placed one by one for their specifications. -/
def PlacedFor (task : CooperativePlacementTask) (capabilities : List PlacementCapability)
    (paths : List PlacementTransferPath) (nowMs : Nat)
    (specifications : List CooperativeSliceSpec) (slices : List CooperativePlacementSlice) : Prop :=
  List.Forall₂ (fun specification slice =>
    placeSlice task capabilities paths nowMs specification = .ok (.bound slice))
    specifications slices

/-- Unless a plan is deferred, all its slices are placed. -/
theorem placeSlices_placed
    (h : placeSlices task capabilities paths nowMs slices specifications = .ok (.inr placed)) :
    ∃ added, placed = slices ++ added ∧
      PlacedFor task capabilities paths nowMs specifications added := by
  induction specifications generalizing slices with
  | nil =>
      obtain rfl := Sum.inr.inj (Except.ok.inj h)
      exact ⟨[], (append_nil _).symm, .nil⟩
  | cons specification rest ih =>
      rw [placeSlices, bind_eq_ok_iff] at h
      obtain ⟨placement, first, h⟩ := h
      cases placement with
      | bound slice =>
          obtain ⟨added, rfl, others⟩ := ih h
          exact ⟨slice :: added, by simp, .cons first others⟩
      | unbound slice reason => cases Except.ok.inj h

theorem placeSlice_bound_iff {specification : CooperativeSliceSpec}
    {slice : CooperativePlacementSlice} :
    placeSlice task capabilities paths nowMs specification = .ok (.bound slice) ↔
      ∃ placement, PlacementPlan.buildWithPaths (cooperativeSliceTask task specification)
          (scopedCapabilities specification capabilities) paths nowMs = .ok placement ∧
        placement.decision = "selected" ∧ placement.executor ≠ none ∧
        ¬ (0 < specification.dataBytes ∧ placement.dataTier = none) ∧
        cooperativeBoundSlice specification placement = slice := by
  rw [placeSlice]
  cases PlacementPlan.buildWithPaths (cooperativeSliceTask task specification)
      (scopedCapabilities specification capabilities) paths nowMs with
  | error error => cases error <;> simp
  | ok placement =>
      dsimp only
      split
      · rename_i unusable
        simp only [Except.ok.injEq, reduceCtorEq, false_iff]
        rintro ⟨_, rfl, selected, executor, stored, -⟩
        obtain other | unplaced | unstored := unusable
        · exact other selected
        · exact executor unplaced
        · exact stored unstored
      · rename_i usable
        simp only [not_or, ne_eq, not_not] at usable
        simp only [Except.ok.injEq, SlicePlacement.bound.injEq]
        constructor
        · rintro rfl
          exact ⟨placement, rfl, usable.1, usable.2.1, usable.2.2, rfl⟩
        · rintro ⟨_, rfl, -, -, -, same⟩
          exact same

/-- What it may cost to place a slice on one pair of resources or another. -/
def sliceCosts (task : CooperativePlacementTask) (capabilities : List PlacementCapability)
    (paths : List PlacementTransferPath) (nowMs : Nat) (specification : CooperativeSliceSpec) :
    Set Nat :=
  { cost | ∃ pair ∈ pairsOf (cooperativeSliceTask task specification)
      (scopedCapabilities specification capabilities) paths nowMs,
    pair.estimatedLatencyUs = some cost }

theorem placeSlice_isLeast (inventoried : Inventoried capabilities paths)
    {specification : CooperativeSliceSpec} {slice : CooperativePlacementSlice}
    (placed : placeSlice task capabilities paths nowMs specification = .ok (.bound slice)) :
    ∃ cost, slice.estimatedLatencyUs = some cost ∧
      IsLeast (sliceCosts task capabilities paths nowMs specification) cost := by
  obtain ⟨placement, built, selected, -, -, rfl⟩ := placeSlice_bound_iff.mp placed
  obtain ⟨listed, -, ⟨pair, least, selects⟩ | ⟨-, other⟩⟩ := buildWithPaths_cases built
  · obtain ⟨mem, cost, known, below⟩ := selectPair_least least
    have distinct : ((scopedCapabilities specification capabilities).map (·.id)).Nodup :=
      inventoried.distinct.sublist ((filter_sublist.trans filter_sublist).map _)
    refine ⟨cost, ?_, ⟨pair, mem, known⟩, fun other ⟨first, inside, priced⟩ =>
      below first inside other priced⟩
    have meets : pair.eligible ∧ pair.executorId = placement.executor ∧
        pair.dataTierId = placement.dataTier :=
      ⟨eligible_of_cost mem (by simp [known]), selects.executor.symm, selects.dataTier.symm⟩
    show (placement.pairCandidates.find? fun candidate => candidate.eligible ∧
      candidate.executorId = placement.executor ∧
        candidate.dataTierId = placement.dataTier).bind (·.estimatedLatencyUs) = some cost
    -- The lookup goes by the ends of the pair, which no other pair has.
    cases found : placement.pairCandidates.find? fun candidate => candidate.eligible ∧
        candidate.executorId = placement.executor ∧
          candidate.dataTierId = placement.dataTier with
    | none =>
        have absent := List.find?_eq_none.mp found pair (listed ▸ mem)
        exact absurd (decide_eq_true meets) absent
    | some candidate =>
        have inside := mem_of_find?_eq_some found
        have sound := List.find?_some found
        rw [decide_eq_true_eq] at sound
        rw [pairsOf_ext distinct (listed ▸ inside) mem (sound.2.1.trans meets.2.1.symm)
          (sound.2.2.trans meets.2.2.symm)]
        exact known
  · exact absurd selected other

theorem PlacedFor.binds (inventoried : Inventoried capabilities paths)
    (placed : PlacedFor task capabilities paths nowMs specifications slices) :
    List.Forall₂ Binds specifications slices := by
  refine placed.imp fun specification slice placed => ?_
  obtain ⟨cost, known, -⟩ := placeSlice_isLeast inventoried placed
  obtain ⟨placement, -, -, -, -, rfl⟩ := placeSlice_bound_iff.mp placed
  exact ⟨rfl, rfl, rfl, by simp [known]⟩

/-! ### Plans -/

/-- The data tier of the buffers, if there are any. -/
def bufferTier (task : CooperativePlacementTask) (capabilities : List PlacementCapability) :
    Option String :=
  if task.bufferPolicy.capacityBytes = 0 then none
  else selectCooperativeBufferTier task capabilities

/-- What a selected plan consists of. -/
structure Assembled (task : CooperativePlacementTask) (capabilities : List PlacementCapability)
    (paths : List PlacementTransferPath) (nowMs : Nat) (inventory : CooperativeReservationLedger)
    (plan : CooperativePlacementPlan) : Prop where
  valid : task.validate = .ok ()
  tiered : task.bufferPolicy.capacityBytes ≠ 0 → bufferTier task capabilities ≠ none
  taskId : plan.taskId = task.taskId
  placed : PlacedFor task capabilities paths nowMs task.slices plan.slices
  buffers : plan.buffers = buildCooperativeBuffers task plan.slices (bufferTier task capabilities)
    capabilities paths
  reservation : plan.reservation = aggregateCooperativeReservation plan.slices plan.buffers
  fits : inventory.ensureFits plan.reservation = .ok ()
  makespan : plan.estimatedMakespanUs = cooperativeMakespan task.mode plan.slices

theorem build_assembled
    (built : CooperativePlacementPlan.build debug task capabilities paths nowMs = .ok plan)
    (selected : plan.decision = "selected") :
    ∃ inventory, fromInventory capabilities paths = .ok inventory ∧
      Assembled task capabilities paths nowMs inventory plan := by
  simp only [CooperativePlacementPlan.build, bind_eq_ok_iff] at built
  obtain ⟨_, valid, _, -, inventory, read, built⟩ := built
  refine ⟨inventory, read, ?_⟩
  split at built
  · cases built
    exact absurd selected (cooperativeDeferred_not_selected _ _)
  · rename_i tiered
    obtain ⟨outcome, placement, built⟩ := bind_eq_ok_iff.mp built
    cases outcome with
    | inl deferred =>
        cases built
        exact absurd selected (placeSlices_deferred placement)
    | inr slices =>
        obtain ⟨_, rfl, placed⟩ := placeSlices_placed placement
        have complete := Except.ok.inj built
        simp only [CooperativePlacementPlan.complete] at complete
        split at complete
        · subst complete
          exact absurd selected (cooperativeDeferred_not_selected _ _)
        · rename_i fits
          subst complete
          refine ⟨valid, fun capacity => ?_, rfl, placed, rfl, rfl, fits, rfl⟩
          rw [bufferTier, if_neg capacity]
          exact fun none_fits => tiered ⟨capacity, none_fits⟩

theorem fromInventory_inventoried {inventory : CooperativeReservationLedger}
    (read : fromInventory capabilities paths = .ok inventory) :
    Inventoried capabilities paths := by
  obtain ⟨_, read, -⟩ := bind_eq_ok_iff.mp read
  exact read_inventoried read

end Aegis.Placement
