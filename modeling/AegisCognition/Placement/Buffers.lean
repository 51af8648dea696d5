import AegisCognition.Placement.SelectedPlan
import AegisCognition.Placement.Soundness

/-!
# Buffers of a selected plan

A buffer holds no more than what is moved through it, but it keeps the watermarks of its policy.
So it fails its own check where the high watermark exceeds what it holds, and passes it otherwise:
its identity, the order of the watermarks and the reservation of a spill are always in place.
-/

namespace Aegis.Placement

open Std Foundation Resource List

variable {debug : PlacementError → String} {task : CooperativePlacementTask}
variable {capabilities : List PlacementCapability} {paths : List PlacementTransferPath}
variable {nowMs dataBytes : Nat} {plan : CooperativePlacementPlan}
variable {slices : List CooperativePlacementSlice} {buffer : CooperativeBufferPlan}
variable {spill : CooperativeSpillReservation} {dataTierId id : String}
variable {fromSlice toSlice : Option String}

namespace CooperativeSpillReservation

def validate (spill : CooperativeSpillReservation) : Except PlacementError Unit := do
  refuseWhen (spill.schema ≠ cooperativePlacementSpillSchemaV1 ∨ isBlank spill.storageId ∨
      isBlank spill.transferPathId)
    (.invalidTask "cooperative spill metadata has an invalid identity or schema")
  refuseWhen (spill.storageBytes = 0 ∨ spill.storageInFlight = 0 ∨ spill.transferTokens = 0)
    (.invalidTask ("cooperative spill metadata must reserve storage bytes, in-flight capacity, " ++
      "and transfer tokens"))

end CooperativeSpillReservation

namespace CooperativeBufferPlan

/-- The reservation of a spill is checked on its own and against the buffer. -/
def validateSpill (buffer : CooperativeBufferPlan) (spill : CooperativeSpillReservation) :
    Except PlacementError Unit := do
  spill.validate
  refuseWhen (spill.storageBytes < buffer.capacityBytes)
    (.invalidTask "cooperative spill reservation is smaller than the buffer budget")

def validate (buffer : CooperativeBufferPlan) : Except PlacementError Unit := do
  refuseWhen (buffer.schema ≠ cooperativePlacementBufferSchemaV1 ∨ isBlank buffer.id)
    (.invalidTask "cooperative buffer metadata has an invalid identity or schema")
  refuseWhen (buffer.capacityBytes = 0 ∨ buffer.maxInFlightBuffers = 0 ∨
      buffer.capacityBytes < buffer.maxInFlightBuffers ∨
      buffer.highWatermarkBytes < buffer.lowWatermarkBytes ∨
      buffer.capacityBytes < buffer.highWatermarkBytes)
    (.invalidTask "cooperative buffer capacity and watermarks are invalid")
  refuseWhen (buffer.spillToStorage ≠ buffer.spillReservation.isSome)
    (.invalidTask "cooperative spill flag and reservation metadata disagree")
  buffer.spillReservation.elim (.ok ()) buffer.validateSpill

end CooperativeBufferPlan

/-! ### One buffer -/

/-- A spill goes over one of the paths to one of the storages that have room for the buffer. -/
theorem selectCooperativeSpillReservation_eq_some
    {executorBySliceId : ExtTreeMap String (Option String)}
    (h : selectCooperativeSpillReservation task buffer executorBySliceId capabilities paths =
      some spill) :
    ∃ storage ∈ capabilities, ∃ path ∈ paths, spill = {
      schema := cooperativePlacementSpillSchemaV1
      storageId := storage.id
      storageBytes := buffer.capacityBytes
      storageInFlight := 1
      transferPathId := path.id
      transferTokens := 1 } := by
  simp only [selectCooperativeSpillReservation, Option.bind_eq_bind, Option.bind_eq_some_iff] at h
  obtain ⟨_, -, _, -, sourceExecutor, -, best, chosen, same⟩ := h
  suffices named : ∃ storage ∈ capabilities, ∃ path ∈ paths, best = (storage.id, path.id) by
    obtain ⟨storage, mem, path, listed, rfl⟩ := named
    exact ⟨storage, mem, path, listed, (Option.some.inj same).symm⟩
  -- Every round of the selection keeps the best entry or takes that of its storage.
  refine foldlRecOn (motive := fun best => ∀ entry, best = some entry →
    ∃ storage ∈ capabilities, ∃ path ∈ paths, entry = (storage.id, path.id)) _ _ (by simp) ?_
    best chosen
  intro best inv storage mem entry taken
  split at taken
  · exact inv entry taken
  · rename_i path selected
    split at taken
    · refine ⟨storage, (mem_filter.mp mem).1, path, ?_, (Option.some.inj taken).symm⟩
      exact (mem_filter.mp (mem_of_minBy selected)).1
    · exact inv entry taken

/-- What the policy of a task with buffers makes sure of. -/
structure Buffered (policy : CooperativeBufferPolicy) : Prop where
  capacity : policy.capacityBytes ≠ 0
  inFlight : policy.maxInFlightBuffers ≠ 0
  covers : policy.maxInFlightBuffers ≤ policy.capacityBytes
  high : policy.highWatermarkBytes ≤ policy.capacityBytes
  low : policy.lowWatermarkBytes ≤ policy.highWatermarkBytes

theorem CooperativePlacementTask.buffered (valid : task.validate = .ok ())
    (several : task.mode ≠ .singleExecutor) : Buffered task.bufferPolicy := by
  simp only [CooperativePlacementTask.validate, bind_eq_ok_iff] at valid
  obtain ⟨_, -, _, -, _, policy, -⟩ := valid
  simp only [CooperativeBufferPolicy.validate, bind_eq_ok_iff, refuseWhen_eq_ok_iff, several,
    ne_eq, not_false_eq_true, true_and, not_or, Nat.not_lt] at policy
  obtain ⟨_, ⟨capacity, inFlight⟩, _, covers, _, ⟨high, low⟩, -⟩ := policy
  exact ⟨capacity, inFlight, covers, high, low⟩

/-- What is known of every buffer that is laid out by a policy. -/
structure LaidOut (policy : CooperativeBufferPolicy) (dataBytes : Nat)
    (buffer : CooperativeBufferPlan) : Prop where
  schema : buffer.schema = cooperativePlacementBufferSchemaV1
  named : isBlank buffer.id = false
  capacity : buffer.capacityBytes =
    min policy.capacityBytes (max dataBytes policy.maxInFlightBuffers)
  inFlight : buffer.maxInFlightBuffers = policy.maxInFlightBuffers
  high : buffer.highWatermarkBytes = policy.highWatermarkBytes
  low : buffer.lowWatermarkBytes = policy.lowWatermarkBytes
  flag : buffer.spillToStorage = buffer.spillReservation.isSome
  reserved : ∀ spill, buffer.spillReservation = some spill → buffer.validateSpill spill = .ok ()

theorem makeBuffer_laidOut (inventoried : Inventoried capabilities paths)
    (buffered : Buffered task.bufferPolicy) (named : isBlank id = false) :
    LaidOut task.bufferPolicy dataBytes
      (makeBuffer task slices dataTierId capabilities paths id fromSlice toSlice dataBytes) := by
  simp only [makeBuffer]
  split
  · refine ⟨rfl, named, rfl, rfl, rfl, rfl, rfl, ?_⟩
    intro spill selected
    obtain ⟨storage, mem, path, listed, rfl⟩ := selectCooperativeSpillReservation_eq_some selected
    have storing := inventoried.named storage mem
    have routing := (isBlank_of_validate (inventoried.valid path listed)).1
    have holds := buffered.capacity
    have flies := buffered.inFlight
    simp only [CooperativeBufferPlan.validateSpill, CooperativeSpillReservation.validate,
      bind_eq_ok_iff, refuseWhen_eq_ok_iff]
    refine ⟨(), ⟨(), by simp [storing, routing], ?_⟩, by simp⟩
    omega
  · exact ⟨rfl, named, rfl, rfl, rfl, rfl, rfl, fun _ selected => by cases selected⟩

/-- A buffer passes its check exactly if the high watermark does not exceed what is moved
through it and what may be in flight. -/
theorem LaidOut.validate_iff {policy : CooperativeBufferPolicy}
    (laid : LaidOut policy dataBytes buffer) (buffered : Buffered policy) :
    buffer.validate = .ok () ↔
      policy.highWatermarkBytes ≤ max dataBytes policy.maxInFlightBuffers := by
  have last : buffer.spillReservation.elim (.ok ()) buffer.validateSpill = .ok () := by
    cases spills : buffer.spillReservation with
    | none => rfl
    | some spill => exact laid.reserved spill spills
  obtain ⟨capacity, inFlight, covers, high, low⟩ := buffered
  simp only [CooperativeBufferPlan.validate, bind_eq_ok_iff, refuseWhen_eq_ok_iff, last,
    laid.schema, laid.named, laid.flag, laid.capacity, laid.inFlight, laid.high, laid.low]
  constructor
  · rintro ⟨_, -, _, sized, -⟩
    omega
  · intro reached
    refine ⟨(), by simp, (), ?_, (), by simp, trivial⟩
    omega

/-! ### All buffers -/

theorem isBlank_buffer (id : String) : isBlank ("cooperative-buffer-" ++ id) = false := by
  rw [isBlank, String.toList_append, all_append]
  rfl

/-- Every buffer can fill up to the high watermark with what is moved through it. -/
def WatermarkReached (task : CooperativePlacementTask) : Prop :=
  let policy := task.bufferPolicy
  match task.mode with
  | .singleExecutor => True
  | .parallelSlices => ∀ slice ∈ task.slices, policy.highWatermarkBytes ≤
      max (max slice.inputBytes slice.outputBytes) policy.maxInFlightBuffers
  | .pipeline => ∀ slice ∈ task.slices, ∀ producer ∈ task.slices,
      producer.id ∈ slice.dependsOn → policy.highWatermarkBytes ≤
        max (max producer.outputBytes slice.inputBytes) policy.maxInFlightBuffers

theorem forall_mem_iff_of_forall₂ {α β : Type} {r : α → β → Prop} {p : α → Prop} {q : β → Prop}
    {xs : List α} {ys : List β} (h : List.Forall₂ r xs ys)
    (same : ∀ x ∈ xs, ∀ y, r x y → (p x ↔ q y)) : (∀ x ∈ xs, p x) ↔ ∀ y ∈ ys, q y := by
  constructor
  · intro all y mem
    obtain ⟨x, inside, related⟩ := exists_left_of_forall₂ h mem
    exact (same x inside y related).mp (all x inside)
  · intro all x mem
    obtain ⟨y, inside, related⟩ := exists_right_of_forall₂ h mem
    exact (same x mem y related).mpr (all y inside)

/-- The lookup of what a producer puts out. -/
theorem getElem?_outputBytes (inventoried : Inventoried capabilities paths)
    (valid : task.validate = .ok ())
    (placed : PlacedFor task capabilities paths nowMs task.slices slices)
    {producer : CooperativeSliceSpec} (mem : producer ∈ task.slices) :
    (ExtTreeMap.ofList (slices.map fun slice => (slice.id, slice.outputBytes))
      compare)[producer.id]? = some producer.outputBytes := by
  have staged := (CooperativePlacementTask.staged valid).of_binds (placed.binds inventoried)
  have distinct : ((slices.map fun slice => (slice.id, slice.outputBytes)).map Prod.fst).Nodup := by
    simpa only [map_map, Function.comp_def] using staged.distinct
  rw [OrderedMap.getElem?_ofList_eq_some_iff distinct, mem_map]
  obtain ⟨slice, inside, bound⟩ := exists_right_of_forall₂ placed mem
  obtain ⟨placement, -, -, -, -, rfl⟩ := placeSlice_bound_iff.mp bound
  exact ⟨_, inside, rfl⟩

/-- The buffers of a selected plan pass their check exactly if all of them can fill up to the high
watermark. -/
theorem buffers_validate_iff
    (built : CooperativePlacementPlan.build debug task capabilities paths nowMs = .ok plan)
    (selected : plan.decision = "selected") :
    (∀ buffer ∈ plan.buffers, buffer.validate = .ok ()) ↔ WatermarkReached task := by
  obtain ⟨inventory, read, assembled⟩ := build_assembled built selected
  have inventoried := fromInventory_inventoried read
  rw [assembled.buffers, WatermarkReached]
  cases mode : task.mode with
  | singleExecutor =>
      cases bufferTier task capabilities <;> simp [buildCooperativeBuffers, mode]
  | parallelSlices =>
      have buffered := CooperativePlacementTask.buffered assembled.valid (by simp [mode])
      obtain ⟨tier, tiered⟩ := Option.ne_none_iff_exists'.mp (assembled.tiered buffered.capacity)
      simp only [tiered, buildCooperativeBuffers, mode, forall_mem_map]
      symm
      apply forall_mem_iff_of_forall₂ assembled.placed
      intro specification _ slice placed
      obtain ⟨placement, -, -, -, -, rfl⟩ := placeSlice_bound_iff.mp placed
      exact ((makeBuffer_laidOut inventoried buffered (isBlank_buffer _)).validate_iff
        buffered).symm
  | pipeline =>
      have buffered := CooperativePlacementTask.buffered assembled.valid (by simp [mode])
      obtain ⟨tier, tiered⟩ := Option.ne_none_iff_exists'.mp (assembled.tiered buffered.capacity)
      simp only [tiered, buildCooperativeBuffers, mode, forall_mem_flatMap,
        forall_mem_map]
      symm
      apply forall_mem_iff_of_forall₂ assembled.placed
      intro specification mem slice placed
      obtain ⟨placement, -, -, -, -, rfl⟩ := placeSlice_bound_iff.mp placed
      have dependencies {dependency : String} : dependency ∈ sortedDependencies
          (cooperativeBoundSlice specification placement).dependsOn ↔
            dependency ∈ specification.dependsOn := by
        simp only [cooperativeBoundSlice, sortedDependencies, mem_sortBy]
      have valid_iff {producer : CooperativeSliceSpec} (listed : producer ∈ task.slices) :=
        getElem?_outputBytes inventoried assembled.valid assembled.placed listed
      have named (dependency : String) : isBlank ("cooperative-buffer-" ++ dependency ++ "-" ++
          (cooperativeBoundSlice specification placement).id) = false := by
        rw [String.append_assoc, String.append_assoc]
        exact isBlank_buffer _
      constructor
      · intro reached dependency depends
        obtain ⟨producer, listed, rfl, -⟩ := (CooperativePlacementTask.staged
          assembled.valid).earlier specification mem dependency (dependencies.mp depends)
        apply ((makeBuffer_laidOut inventoried buffered (named _)).validate_iff buffered).mpr
        rw [valid_iff listed]
        exact reached producer listed (dependencies.mp depends)
      · intro checked producer listed depends
        have reached := ((makeBuffer_laidOut inventoried buffered (named _)).validate_iff
          buffered).mp (checked producer.id (dependencies.mpr depends))
        rw [valid_iff listed] at reached
        exact reached

/-- Two slices that move 8 bytes each, and buffers that may hold 100. -/
def bufferedTask (highWatermarkBytes : Nat) : CooperativePlacementTask :=
  { scatteredTask with
    mode := .parallelSlices
    slices := [scatteredSlice "decode" 0 [], scatteredSlice "infer" 0 []]
    bufferPolicy := {
      capacityBytes := 100
      maxInFlightBuffers := 1
      highWatermarkBytes := highWatermarkBytes
      lowWatermarkBytes := 4
      allowSpillToStorage := false } }

theorem low_watermark_validates : ∃ plan, CooperativePlacementPlan.build PlacementError.debug
    (bufferedTask 8) hostCapabilities [] 0 = .ok plan ∧ plan.buffers.length = 2 ∧
      ∀ buffer ∈ plan.buffers, buffer.validate = .ok () := by
  obtain ⟨plan, built, facts⟩ := exists_ok_of_any
    (x := CooperativePlacementPlan.build PlacementError.debug (bufferedTask 8) hostCapabilities
      [] 0)
    (p := fun plan => plan.decision = "selected" ∧ plan.buffers.length = 2) (by decide +kernel)
  obtain ⟨selected, length⟩ := of_decide_eq_true facts
  refine ⟨plan, built, length, (buffers_validate_iff built selected).mpr ?_⟩
  show ∀ slice ∈ [_, _], 8 ≤ max (max _ _) _
  decide

/-- The buffers hold the 8 bytes, and their watermark stays where the policy has put it. -/
theorem high_watermark_unreached : ∃ plan, CooperativePlacementPlan.build PlacementError.debug
    (bufferedTask 80) hostCapabilities [] 0 = .ok plan ∧ plan.decision = "selected" ∧
      ∃ buffer ∈ plan.buffers, buffer.capacityBytes = 8 ∧ buffer.highWatermarkBytes = 80 ∧
        buffer.validate =
          .error (.invalidTask "cooperative buffer capacity and watermarks are invalid") := by
  obtain ⟨plan, built, facts⟩ := exists_ok_of_any
    (x := CooperativePlacementPlan.build PlacementError.debug (bufferedTask 80) hostCapabilities
      [] 0)
    (p := fun plan => plan.decision = "selected" ∧
      ∃ buffer ∈ plan.buffers, buffer.capacityBytes = 8 ∧ buffer.highWatermarkBytes = 80 ∧
        buffer.validate =
          .error (.invalidTask "cooperative buffer capacity and watermarks are invalid"))
    (by decide +kernel)
  exact ⟨plan, built, of_decide_eq_true facts⟩

end Aegis.Placement
