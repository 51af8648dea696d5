import AegisCognition.Foundation.Collection
import AegisCognition.Placement.CooperativePlan
import AegisCognition.Placement.Conservation

/-!
# What a cooperative plan claims

The reservation of a plan enters the claims of its slices and of its buffers one by one. So an
amount in it is zero exactly if all the claims on it are, whether or not a sum has stopped at its
bound. A slice and a spill claim bytes of a storage together with a place in its queue.
-/

namespace Aegis.Placement

open Std Foundation Resource CooperativeAdmissionLedger List

variable {reservation : CooperativeReservation} {slice : CooperativePlacementSlice}
variable {buffer : CooperativeBufferPlan} {slices : List CooperativePlacementSlice}
variable {buffers : List CooperativeBufferPlan} {id : String}

/-! ### The claims of a plan -/

def executorClaims (claim : CooperativeSliceReservation) (id : String) :
    List (Claim CooperativeResource String) :=
  [⟨.executorQueueSlots, id, claim.executorQueueSlots⟩,
    ⟨.executorMemoryBytes, id, claim.executorMemoryBytes⟩]

def dataTierClaims (claim : CooperativeSliceReservation) (id : String) :
    List (Claim CooperativeResource String) :=
  [⟨.dataTierBytes, id, claim.dataTierBytes⟩, ⟨.storageBytes, id, claim.storageBytes⟩,
    ⟨.storageInFlight, id, claim.storageInFlight⟩]

def pathClaims (claim : CooperativeSliceReservation) (id : String) :
    List (Claim CooperativeResource String) :=
  [⟨.transferTokens, id, claim.transferTokens⟩, ⟨.sharedMemoryBytes, id, claim.sharedMemoryBytes⟩]

def sliceClaims (slice : CooperativePlacementSlice) : List (Claim CooperativeResource String) :=
  slice.executorId.elim [] (executorClaims slice.reservation) ++
  slice.dataTierId.elim [] (dataTierClaims slice.reservation) ++
  slice.transferPathId.elim [] (pathClaims slice.reservation)

def spillClaims (spill : CooperativeSpillReservation) : List (Claim CooperativeResource String) :=
  [⟨.storageBytes, spill.storageId, spill.storageBytes⟩,
    ⟨.storageInFlight, spill.storageId, spill.storageInFlight⟩,
    ⟨.transferTokens, spill.transferPathId, spill.transferTokens⟩]

def bufferClaims (buffer : CooperativeBufferPlan) : List (Claim CooperativeResource String) :=
  buffer.dataTierId.elim [] (fun id => [⟨.bufferBytes, id, buffer.capacityBytes⟩]) ++
  buffer.spillReservation.elim [] spillClaims

def planClaims (slices : List CooperativePlacementSlice) (buffers : List CooperativeBufferPlan) :
    List (Claim CooperativeResource String) :=
  slices.flatMap sliceClaims ++ buffers.flatMap bufferClaims

theorem tally_addSlice (reservation : CooperativeReservation) (slice : CooperativePlacementSlice) :
    (addSlice reservation slice).tally =
      (sliceClaims slice).foldl (enter CooperativeResource.bound) reservation.tally := by
  funext resource
  rw [addSlice, sliceClaims]
  cases slice.executorId <;> cases slice.dataTierId <;> cases slice.transferPathId <;>
    cases resource <;> rfl

theorem tally_addBuffer (reservation : CooperativeReservation) (buffer : CooperativeBufferPlan) :
    (addBuffer reservation buffer).tally =
      (bufferClaims buffer).foldl (enter CooperativeResource.bound) reservation.tally := by
  funext resource
  rw [addBuffer, bufferClaims]
  cases buffer.dataTierId <;> cases buffer.spillReservation <;> cases resource <;> rfl

theorem tally_foldl {α : Type} {add : CooperativeReservation → α → CooperativeReservation}
    {claims : α → List (Claim CooperativeResource String)}
    (h : ∀ reservation a, (add reservation a).tally =
      (claims a).foldl (enter CooperativeResource.bound) reservation.tally) (xs : List α)
    (reservation : CooperativeReservation) :
    (xs.foldl add reservation).tally =
      (xs.flatMap claims).foldl (enter CooperativeResource.bound) reservation.tally := by
  induction xs generalizing reservation with
  | nil => rfl
  | cons x xs ih => rw [foldl_cons, ih, h, flatMap_cons, foldl_append]

theorem tally_aggregate (slices : List CooperativePlacementSlice)
    (buffers : List CooperativeBufferPlan) :
    (aggregateCooperativeReservation slices buffers).tally =
      (planClaims slices buffers).foldl (enter CooperativeResource.bound)
        CooperativeReservation.empty.tally := by
  rw [aggregateCooperativeReservation, tally_foldl tally_addBuffer, tally_foldl tally_addSlice,
    planClaims, foldl_append]

theorem amount_aggregate_eq_zero_iff {resource : CooperativeResource} :
    Tally.amount ((aggregateCooperativeReservation slices buffers).tally resource) id = 0 ↔
      ∀ claim ∈ planClaims slices buffers,
        claim.kind = resource → claim.key = id → claim.amount = 0 := by
  rw [tally_aggregate, amount_foldl_enter_eq_zero_iff bound_ne_zero, tally_empty]
  exact and_iff_right Tally.amount_empty

/-- A claim of something leaves something in the reservation. -/
theorem amount_aggregate_ne_zero {claim : Claim CooperativeResource String}
    (mem : claim ∈ planClaims slices buffers) (claimed : claim.amount ≠ 0) :
    Tally.amount ((aggregateCooperativeReservation slices buffers).tally claim.kind)
      claim.key ≠ 0 :=
  fun zero => claimed (amount_aggregate_eq_zero_iff.mp zero claim mem rfl rfl)

theorem aggregate_positive (slices : List CooperativePlacementSlice)
    (buffers : List CooperativeBufferPlan) :
    (aggregateCooperativeReservation slices buffers).Positive := by
  intro resource
  rw [tally_aggregate]
  refine noZero_foldl_enter bound_ne_zero (fun resource => ?_) resource
  rw [tally_empty]
  exact Tally.noZero_empty

/-! ### What slices and buffers claim -/

/-- A slice that has been placed takes a slot of its executor, and of a storage either both bytes
and a place in its queue or neither. -/
structure Bound (slice : CooperativePlacementSlice) : Prop where
  executor : slice.executorId ≠ none
  slots : slice.reservation.executorQueueSlots = 1
  paired : slice.reservation.storageBytes = 0 ↔ slice.reservation.storageInFlight = 0

/-- A spill takes something of all that it names. -/
structure Spilling (spill : CooperativeSpillReservation) : Prop where
  storageBytes : spill.storageBytes ≠ 0
  storageInFlight : spill.storageInFlight ≠ 0
  transferTokens : spill.transferTokens ≠ 0

theorem sliceClaims_paired (bound : Bound slice) :
    (∀ claim ∈ sliceClaims slice, claim.kind = .storageBytes → claim.key = id →
      claim.amount = 0) ↔
    ∀ claim ∈ sliceClaims slice, claim.kind = .storageInFlight → claim.key = id →
      claim.amount = 0 := by
  have paired := bound.paired
  cases executor : slice.executorId <;> cases tier : slice.dataTierId <;>
    cases path : slice.transferPathId <;>
    simp [sliceClaims, executorClaims, dataTierClaims, pathClaims, executor, tier, path, paired]

theorem bufferClaims_paired
    (spilling : ∀ spill, buffer.spillReservation = some spill → Spilling spill) :
    (∀ claim ∈ bufferClaims buffer, claim.kind = .storageBytes → claim.key = id →
      claim.amount = 0) ↔
    ∀ claim ∈ bufferClaims buffer, claim.kind = .storageInFlight → claim.key = id →
      claim.amount = 0 := by
  cases tier : buffer.dataTierId <;> cases spills : buffer.spillReservation with
  | none => simp [bufferClaims, tier, spills]
  | some spill =>
      obtain ⟨bytes, inFlight, -⟩ := spilling spill spills
      simp [bufferClaims, spillClaims, tier, spills, bytes, inFlight]

theorem aggregate_paired (bound : ∀ slice ∈ slices, Bound slice)
    (spilling : ∀ buffer ∈ buffers, ∀ spill, buffer.spillReservation = some spill →
      Spilling spill) (id : String) :
    Tally.amount (aggregateCooperativeReservation slices buffers).storageBytes id = 0 ↔
      Tally.amount (aggregateCooperativeReservation slices buffers).storageInFlight id = 0 := by
  have bytes := @amount_aggregate_eq_zero_iff slices buffers id .storageBytes
  have inFlight := @amount_aggregate_eq_zero_iff slices buffers id .storageInFlight
  simp only [CooperativeReservation.tally, planClaims, forall_mem_append,
    forall_mem_flatMap] at bytes inFlight
  rw [bytes, inFlight]
  refine and_congr (forall₂_congr fun slice mem => sliceClaims_paired (bound slice mem))
    (forall₂_congr fun buffer mem => bufferClaims_paired (spilling buffer mem))

theorem aggregate_claims (bound : ∀ slice ∈ slices, Bound slice) (nonempty : slices ≠ []) :
    ∃ id, Tally.amount
      (aggregateCooperativeReservation slices buffers).executorQueueSlots id ≠ 0 := by
  obtain ⟨slice, mem⟩ := exists_mem_of_ne_nil slices nonempty
  obtain ⟨executorId, executor⟩ := Option.ne_none_iff_exists'.mp (bound slice mem).executor
  have taken : (⟨.executorQueueSlots, executorId, 1⟩ : Claim CooperativeResource String) ∈
      planClaims slices buffers := by
    refine mem_append_left _ (mem_flatMap.mpr ⟨slice, mem, ?_⟩)
    simp [sliceClaims, executor, executorClaims, (bound slice mem).slots]
  exact ⟨executorId, amount_aggregate_ne_zero taken Nat.one_ne_zero⟩

theorem aggregate_spill {spill : CooperativeSpillReservation} (mem : buffer ∈ buffers)
    (spills : buffer.spillReservation = some spill) (spilling : Spilling spill) :
    Tally.amount (aggregateCooperativeReservation slices buffers).storageBytes
        spill.storageId ≠ 0 ∧
      Tally.amount (aggregateCooperativeReservation slices buffers).storageInFlight
        spill.storageId ≠ 0 ∧
      Tally.amount (aggregateCooperativeReservation slices buffers).transferTokens
        spill.transferPathId ≠ 0 := by
  have claimed : ∀ claim ∈ spillClaims spill, claim ∈ planClaims slices buffers := by
    intro claim of_spill
    refine mem_append_right _ (mem_flatMap.mpr ⟨buffer, mem, ?_⟩)
    rw [bufferClaims, spills]
    exact mem_append_right _ of_spill
  simp only [spillClaims, forall_mem_cons] at claimed
  obtain ⟨bytes, inFlight, tokens, -⟩ := claimed
  exact ⟨amount_aggregate_ne_zero bytes spilling.storageBytes,
    amount_aggregate_ne_zero inFlight spilling.storageInFlight,
    amount_aggregate_ne_zero tokens spilling.transferTokens⟩

end Aegis.Placement
