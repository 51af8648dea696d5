import AegisCognition.Placement.Buffers
import AegisCognition.Placement.Claims

/-!
# The planner and the admission ledger

The planner's check of a reservation saturates where that of the admission ledger is exact, and
the admission asks for more: it refuses zero entries, blank identities, storage bytes without a
place in the queue of the storage, and spill paths that are not reserved. A selected plan has none
of these. What it may have is two buffers that spill to one storage over different paths, which
the request cannot express, and sums that the types cannot count.
-/

namespace Aegis.Placement

open Std Foundation Resource CooperativeAdmissionLedger CooperativeInventory List ExtTreeMap

variable {debug : PlacementError → String} {task : CooperativePlacementTask}
variable {capabilities : List PlacementCapability} {paths : List PlacementTransferPath}
variable {nowMs : Nat} {plan : CooperativePlacementPlan}
variable {slices placed : List CooperativePlacementSlice}
variable {buffer : CooperativeBufferPlan} {spill : CooperativeSpillReservation}

/-! ### Selected plans -/

theorem placeSlice_bound {specification : CooperativeSliceSpec} {slice : CooperativePlacementSlice}
    (h : placeSlice task capabilities paths nowMs specification = .ok (.bound slice)) :
    Bound slice := by
  obtain ⟨placement, -, -, executor, -, rfl⟩ := placeSlice_bound_iff.mp h
  refine ⟨executor, rfl, ?_⟩
  simp only [cooperativeBoundSlice]
  split <;> simp_all

theorem makeBuffer_spilling {dataTierId id : String} {fromSlice toSlice : Option String}
    {dataBytes : Nat} (buffered : Buffered task.bufferPolicy)
    (h : (makeBuffer task slices dataTierId capabilities paths id fromSlice toSlice
      dataBytes).spillReservation = some spill) : Spilling spill := by
  have holds := buffered.capacity
  have flies := buffered.inFlight
  simp only [makeBuffer] at h
  split at h
  · obtain ⟨storage, -, path, -, rfl⟩ := selectCooperativeSpillReservation_eq_some h
    refine ⟨?_, Nat.one_ne_zero, Nat.one_ne_zero⟩
    simp only
    omega
  · cases h

theorem buildCooperativeBuffers_spilling {bufferTierId : Option String}
    (valid : task.validate = .ok ())
    (mem : buffer ∈ buildCooperativeBuffers task slices bufferTierId capabilities paths)
    (spills : buffer.spillReservation = some spill) : Spilling spill := by
  have buffered (several : task.mode ≠ .singleExecutor) : Buffered task.bufferPolicy :=
    CooperativePlacementTask.buffered valid several
  simp only [buildCooperativeBuffers] at mem
  split at mem
  · cases mem
  · split at mem <;> rename_i mode
    · cases mem
    · obtain ⟨slice, -, rfl⟩ := mem_map.mp mem
      exact makeBuffer_spilling (buffered (by simp [mode])) spills
    · obtain ⟨slice, -, mem⟩ := mem_flatMap.mp mem
      obtain ⟨dependency, -, rfl⟩ := mem_map.mp mem
      exact makeBuffer_spilling (buffered (by simp [mode])) spills

/-- What is known of a selected plan: its slices are placed, its spills claim something, and its
reservation has passed the check of the inventory. -/
structure Selected (inventory : CooperativeReservationLedger) (plan : CooperativePlacementPlan) :
    Prop where
  named : plan.taskId ≠ 0
  nonempty : plan.slices ≠ []
  bound : ∀ slice ∈ plan.slices, Bound slice
  spilling : ∀ buffer ∈ plan.buffers, ∀ spill, buffer.spillReservation = some spill →
    Spilling spill
  reservation : plan.reservation = aggregateCooperativeReservation plan.slices plan.buffers
  fits : inventory.ensureFits plan.reservation = .ok ()

theorem build_selected
    (built : CooperativePlacementPlan.build debug task capabilities paths nowMs = .ok plan)
    (selected : plan.decision = "selected") :
    ∃ inventory, CooperativeReservationLedger.fromInventory capabilities paths = .ok inventory ∧
      Selected inventory plan := by
  obtain ⟨inventory, read, assembled⟩ := build_assembled built selected
  have valid := assembled.valid
  simp only [CooperativePlacementTask.validate, bind_eq_ok_iff, refuseWhen_eq_ok_iff,
    not_or] at valid
  obtain ⟨_, -, _, ⟨nonzero, nonempty⟩, -⟩ := valid
  refine ⟨inventory, read, assembled.taskId ▸ nonzero, ?_, ?_, ?_, assembled.reservation,
    assembled.fits⟩
  · intro none_placed
    have placed := assembled.placed
    rw [none_placed, PlacedFor, List.forall₂_nil_right_iff] at placed
    exact nonempty placed
  · intro slice mem
    obtain ⟨specification, -, placed⟩ := exists_left_of_forall₂ assembled.placed mem
    exact placeSlice_bound placed
  · rw [assembled.buffers]
    exact fun buffer mem spill spills =>
      buildCooperativeBuffers_spilling assembled.valid mem spills

/-! ### Inventories -/

section Inventory

variable {inventory : CooperativeReservationLedger} {ledger : CooperativeAdmissionLedger}
variable {reservation : CooperativeReservation} {resource : CooperativeResource} {id : String}
variable {map capacity used : ExtTreeMap String Nat} {bound amount : Nat} {text : String}

/-- What an inventory has in use is in queues and on paths, and not in a data tier. -/
theorem read_tierBytes {inventory : CooperativeInventory}
    (h : CooperativeInventory.read capabilities paths = .ok inventory) (id : String) :
    inventory.used.tierBytes id = 0 := by
  obtain ⟨middle, first, second⟩ := bind_eq_ok_iff.mp h
  have capability : ∀ before capability after,
      readCapability before capability = .ok after →
      after.used.tierBytes id = before.used.tierBytes id := by
    intro before capability after read
    unfold readCapability at read
    split at read
    · cases read
    · split at read <;> cases read
      all_goals dsimp only
      all_goals split <;> rfl
  have path : ∀ before path after, readPath before path = .ok after →
      after.used.tierBytes id = before.used.tierBytes id := by
    intro before path after read
    simp only [readPath, bind_eq_ok_iff] at read
    obtain ⟨_, -, _, -, same⟩ := read
    obtain rfl := pure_eq_ok_iff.mp same
    dsimp only
    split <;> rfl
  have between : middle.used.tierBytes id = 0 :=
    foldlM_invariant (motive := fun _ inventory => inventory.used.tierBytes id = 0)
      (fun _ _ _ _ _ _ zero read => (capability _ _ _ read).trans zero)
      (by simp [CooperativeReservation.tierBytes, CooperativeReservation.empty]) first
  exact foldlM_invariant (motive := fun _ inventory => inventory.used.tierBytes id = 0)
    (fun _ _ _ _ _ _ zero read => (path _ _ _ read).trans zero) between second

/-- Both ledgers start from the same inventory. -/
theorem fromInventory_agree
    (opened : fromInventory capabilities paths = .ok ledger)
    (read : CooperativeReservationLedger.fromInventory capabilities paths = .ok inventory) :
    ledger.capacity = inventory.capacity ∧ ledger.used = inventory.used ∧
      validateCooperativeCapacity inventory.capacity = .ok () ∧
      (∀ id, ledger.used.tierBytes id = 0) ∧ ledger.nextLeaseId = 1 ∧
      ledger.nextGeneration = 1 := by
  obtain ⟨observed, known, same⟩ := bind_eq_ok_iff.mp read
  obtain rfl := pure_eq_ok_iff.mp same
  simp only [fromInventory, known, Except.mapError, bind_eq_ok_iff]
    at opened
  obtain ⟨_, inventory_eq, fresh, built, _, -, _, -, same⟩ := opened
  cases inventory_eq
  obtain rfl := pure_eq_ok_iff.mp same
  obtain ⟨_, capacity, same⟩ := bind_eq_ok_iff.mp built
  obtain rfl := pure_eq_ok_iff.mp same
  exact ⟨rfl, rfl, capacity, read_tierBytes known, rfl, rfl⟩

theorem validateCooperativeMap_named (h : validateCooperativeMap map text false = .ok ())
    (held : map[id]? = some amount) : isBlank id = false := by
  have sound := refuseWhen_eq_ok_iff.mp h
  rw [any_eq_true] at sound
  refine Bool.eq_false_of_not_eq_true fun blank => sound ⟨(id, amount), ?_, by simp [blank]⟩
  exact mem_toList_iff_getElem?_eq_some.mpr held

theorem validateCooperativeCapacity_named {capacity : CooperativeReservation}
    (h : validateCooperativeCapacity capacity = .ok ())
    (held : (capacity.tally resource)[id]? = some amount) : isBlank id = false := by
  simp only [validateCooperativeCapacity, bind_eq_ok_iff] at h
  obtain ⟨_, h1, _, h2, _, h3, _, h4, _, -, _, h5, _, h6, _, h7, h8⟩ := h
  cases resource <;> exact validateCooperativeMap_named ‹_› held

theorem validateCooperativeMap_of_named (positive : Tally.NoZero map)
    (named : ∀ id, Tally.amount map id ≠ 0 → isBlank id = false) :
    validateCooperativeMap map text true = .ok () := by
  refine refuseWhen_eq_ok_iff.mpr fun refused => ?_
  obtain ⟨⟨id, amount⟩, mem, bad⟩ := any_eq_true.mp refused
  have nonzero : amount ≠ 0 := positive.entry_ne_zero mem
  have held := Tally.amount_of_getElem? (mem_toList_iff_getElem?_eq_some.mp mem)
  rw [named id (held ▸ nonzero)] at bad
  simp [nonzero] at bad

/-- What the admission asks of a reservation beside its fit. -/
theorem validateCooperativeReservation_of_named (positive : reservation.Positive)
    (named : ∀ resource id, Tally.amount (reservation.tally resource) id ≠ 0 → isBlank id = false)
    (paired : ∀ id, Tally.amount reservation.storageBytes id = 0 ↔
      Tally.amount reservation.storageInFlight id = 0)
    (claims : ∃ id, Tally.amount reservation.executorQueueSlots id ≠ 0) :
    validateCooperativeReservation reservation = .ok () := by
  have maps (resource : CooperativeResource) (text : String) :
      validateCooperativeMap (reservation.tally resource) text true = .ok () :=
    validateCooperativeMap_of_named (positive resource) (named resource)
  have held {map : ExtTreeMap String Nat} (noZero : Tally.NoZero map) {id : String}
      (mem : id ∈ map.keys) : Tally.amount map id ≠ 0 := by
    intro zero
    obtain ⟨amount, found⟩ := Option.isSome_iff_exists.mp <|
      mem_iff_isSome_getElem?.mp (mem_keys.mp mem)
    exact noZero id (found.trans (congrArg some ((Tally.amount_of_getElem? found).symm.trans zero)))
  refine bind_eq_ok_iff.mpr ⟨(), bind_eq_ok_iff.mpr ⟨(), ?_, ?_⟩, ?_⟩
  · simp only [validateCooperativeUsageReservation, bind_eq_ok_iff]
    exact ⟨(), maps .executorQueueSlots _, (), maps .executorMemoryBytes _, (),
      maps .dataTierBytes _, (), maps .bufferBytes _, (), maps .storageBytes _, (),
      maps .storageInFlight _, (), maps .transferTokens _, maps .sharedMemoryBytes _⟩
  · refine refuseWhen_eq_ok_iff.mpr fun refused => ?_
    simp only [Bool.or_eq_true, any_eq_true, beq_iff_eq] at refused
    obtain ⟨id, mem, zero⟩ | ⟨id, mem, zero⟩ := refused
    · exact held (positive .storageBytes) mem ((paired id).mpr zero)
    · exact held (positive .storageInFlight) mem ((paired id).mp zero)
  · refine refuseWhen_eq_ok_iff.mpr fun empty => ?_
    obtain ⟨id, claimed⟩ := claims
    rw [eq_empty_of_isEmpty empty] at claimed
    exact claimed Tally.amount_empty

/-! ### The two checks -/

theorem ensureCooperativeMapFits_of (positive : Tally.NoZero map)
    (fits : ∀ id, Tally.amount map id ≠ 0 → ∃ limit, capacity[id]? = some limit ∧
      Tally.amount used id + Tally.amount map id ≤ bound ∧
      Tally.amount used id + Tally.amount map id ≤ limit) :
    ensureCooperativeMapFits bound text capacity used map = .ok () := by
  refine forM_eq_ok_iff.mpr fun entry mem => ?_
  have held := Tally.amount_of_getElem? (mem_toList_iff_getElem?_eq_some.mp mem)
  obtain ⟨limit, limited, sums⟩ := fits entry.1 (held ▸ positive.entry_ne_zero mem)
  rw [held] at sums
  rw [ensureCooperativeEntryFits, limited]
  exact refuseWhen_eq_ok_iff.mpr (not_checkedAdd_all_lt.mpr sums)

/-- A reservation that passes the planner's check passes that of the admission, if nothing in it
exceeds its type. -/
theorem ensureMapsFit_of_ensureFits (capacity_eq : ledger.capacity = inventory.capacity)
    (used_eq : ledger.used = inventory.used) (positive : reservation.Positive)
    (fits : inventory.ensureFits reservation = .ok ())
    (countable : CooperativeReservationLedger.Countable ledger.used reservation) :
    ledger.ensureMapsFit reservation = .ok () := by
  obtain ⟨separate, combined⟩ := CooperativeReservationLedger.ensureFits_ok fits
  rw [← capacity_eq, ← used_eq] at separate combined
  have maps (resource : CooperativeResource) (data : resource ≠ .dataTierBytes)
      (buffer : resource ≠ .bufferBytes) (text : String) :
      ensureCooperativeMapFits resource.bound text (ledger.capacity.tally resource)
        (ledger.used.tally resource) (reservation.tally resource) = .ok () := by
    refine ensureCooperativeMapFits_of (positive resource) fun id claimed => ?_
    obtain ⟨limit, limited, le⟩ := separate resource id data buffer claimed
    have counted := countable.separate resource id
    exact ⟨limit, limited, counted, (Nat.min_eq_left counted).symm.trans_le le⟩
  simp only [ensureMapsFit, bind_eq_ok_iff]
  refine ⟨(), maps .executorQueueSlots (by simp) (by simp) _, (),
    maps .executorMemoryBytes (by simp) (by simp) _, (), forM_eq_ok_iff.mpr fun id _ => ?_, (),
    maps .storageBytes (by simp) (by simp) _, (), maps .storageInFlight (by simp) (by simp) _, (),
    maps .transferTokens (by simp) (by simp) _, maps .sharedMemoryBytes (by simp) (by simp) _⟩
  have counted := countable.combined id
  have tier := combined id
  simp only [CooperativeReservation.tierBytes] at counted tier
  simp only [ensureCooperativeCombinedFits, bind_eq_ok_iff, okOr_eq_ok_iff, checkedAdd_eq_some_iff]
  refine ⟨_, ⟨by omega, rfl⟩, _, ⟨by omega, rfl⟩, ?_⟩
  split
  · rfl
  · rename_i claimed
    obtain ⟨limit, limited, le⟩ := tier claimed
    rw [limited]
    exact refuseWhen_eq_ok_iff.mpr (not_checkedAdd_all_lt.mpr
      ⟨counted, (Nat.min_eq_left counted).symm.trans_le le⟩)

end Inventory

/-! ### Admission of a selected plan -/

section

variable (plan : CooperativePlacementPlan)

/-- The spills of a plan: each storage with the path to it. -/
def planSpills : List (String × String) :=
  plan.buffers.filterMap fun buffer => buffer.spillReservation.map fun spill =>
    (spill.storageId, spill.transferPathId)

/-- The request that is built from a plan. -/
def admissionRequest (attemptId : Nat) (planDigest : String)
    (spillPaths : ExtTreeMap String String) : CooperativeAdmissionRequest where
  schema := cooperativeAdmissionSchemaV1
  taskId := plan.taskId
  attemptId := attemptId
  planDigest := planDigest
  reservation := plan.reservation
  spillPaths := spillPaths

theorem cooperativeSpillPaths_eq_collect :
    cooperativeSpillPaths plan = (planSpills plan).foldlM (collectEntry
      "cooperative plan maps one storage identity to multiple spill paths") ∅ := by
  rw [planSpills, foldlM_filterMap, cooperativeSpillPaths]
  congr 1
  funext spillPaths buffer
  cases buffer.spillReservation <;> rfl

theorem cooperativeSpillPaths_isOk_iff :
    (∃ spillPaths, cooperativeSpillPaths plan = .ok spillPaths) ↔ Functional (planSpills plan) := by
  rw [cooperativeSpillPaths_eq_collect, collect_isOk_iff]
  exact and_iff_right fun _ _ _ held => by simp at held

end

section Admission

variable {inventory : CooperativeReservationLedger} {ledger : CooperativeAdmissionLedger}
variable {spillPaths : ExtTreeMap String String} {attemptId admittedAtMs : Nat}
variable {planDigest : String}

section

variable (selected : Selected inventory plan)
variable (capacity : validateCooperativeCapacity inventory.capacity = .ok ())
include selected capacity

/-- Every identity in the reservation of a selected plan is one of the inventory. -/
theorem Selected.named_ids {resource : CooperativeResource} {id : String}
    (claimed : Tally.amount (plan.reservation.tally resource) id ≠ 0) : isBlank id = false := by
  obtain ⟨separate, combined⟩ := CooperativeReservationLedger.ensureFits_ok selected.fits
  have tier (held : plan.reservation.tierBytes id ≠ 0) : isBlank id = false := by
    obtain ⟨limit, limited, -⟩ := combined id held
    exact @validateCooperativeCapacity_named .dataTierBytes id limit _ capacity limited
  cases resource with
  | dataTierBytes => exact tier (mt (fun zero => (Nat.add_eq_zero_iff.mp zero).1) claimed)
  | bufferBytes => exact tier (mt (fun zero => (Nat.add_eq_zero_iff.mp zero).2) claimed)
  | _ =>
      obtain ⟨limit, limited, -⟩ := separate _ id (by simp) (by simp) claimed
      exact validateCooperativeCapacity_named capacity limited

theorem Selected.reservation_valid : validateCooperativeReservation plan.reservation = .ok () := by
  refine validateCooperativeReservation_of_named ?_ (fun resource id => selected.named_ids capacity)
    ?_ ?_ <;> rw [selected.reservation]
  · exact aggregate_positive _ _
  · exact aggregate_paired selected.bound selected.spilling
  · exact aggregate_claims selected.bound selected.nonempty

theorem Selected.request_valid (paths : cooperativeSpillPaths plan = .ok spillPaths)
    (attempt : attemptId ≠ 0)
    (digest : isBlank planDigest = false)
    (short : planDigest.utf8ByteSize ≤ maxCooperativePlanDigestBytes) :
    (admissionRequest plan attemptId planDigest spillPaths).validate = .ok () := by
  simp only [CooperativeAdmissionRequest.validate, bind_eq_ok_iff, refuseWhen_eq_ok_iff]
  refine ⟨(), fun other => other rfl, (), not_or.mpr ⟨selected.named, attempt⟩, (), ?_, (),
    selected.reservation_valid capacity, forM_eq_ok_iff.mpr ?_⟩
  · simp only [admissionRequest, digest, Bool.false_or, Bool.not_eq_true]
    exact decide_eq_false (Nat.not_lt_of_le short)
  · rintro ⟨storageId, pathId⟩ mem
    have held : spillPaths[storageId]? = some pathId :=
      mem_toList_iff_getElem?_eq_some.mp mem
    rw [cooperativeSpillPaths_eq_collect] at paths
    obtain absent | entry := mem_of_collect paths held
    · simp at absent
    · simp only [planSpills, mem_filterMap, Option.map_eq_some_iff, Prod.mk.injEq] at entry
      obtain ⟨buffer, inside, spill, spills, rfl, rfl⟩ := entry
      have claimed := @aggregate_spill buffer plan.slices _ spill inside spills
        (selected.spilling buffer inside spill spills)
      rw [← selected.reservation] at claimed
      obtain ⟨bytes, inFlight, tokens⟩ := claimed
      have storage := @Selected.named_ids _ inventory selected capacity .storageBytes _ bytes
      have path := @Selected.named_ids _ inventory selected capacity .transferTokens _ tokens
      refine bind_eq_ok_iff.mpr ⟨(), refuseWhen_eq_ok_iff.mpr ?_, refuseWhen_eq_ok_iff.mpr ?_⟩
      · simp [storage, path]
      · simp [admissionRequest, bytes, inFlight, tokens]

end

/-- A selected plan has spill paths exactly if it spills to no storage over two paths. If it has
them, a fresh admission ledger over the same inventory admits the plan exactly if no sum of what
is in use and what is claimed exceeds its type. -/
theorem selected_plan_admitted_iff
    (built : CooperativePlacementPlan.build debug task capabilities paths nowMs = .ok plan)
    (ready : plan.decision = "selected" ∧ plan.reservationStatus = "READY_ALL_OR_NONE")
    (opened : fromInventory capabilities paths = .ok ledger)
    (attempt : attemptId ≠ 0) (digest : isBlank planDigest = false)
    (short : planDigest.utf8ByteSize ≤ maxCooperativePlanDigestBytes) :
    ((∃ spillPaths, cooperativeSpillPaths plan = .ok spillPaths) ↔
      ∀ storageId path path', (storageId, path) ∈ planSpills plan →
        (storageId, path') ∈ planSpills plan → path = path') ∧
    ∀ spillPaths, cooperativeSpillPaths plan = .ok spillPaths →
      ((ledger.admitRequest (admissionRequest plan attemptId planDigest spillPaths)
          admittedAtMs).1 = .ok (.admitted (ledger.issueLease
            (admissionRequest plan attemptId planDigest spillPaths) admittedAtMs)) ↔
        CooperativeReservationLedger.Countable ledger.used plan.reservation) := by
  obtain ⟨inventory, read, selected⟩ := build_selected built ready.1
  obtain ⟨capacity_eq, used_eq, capacity, tiers, leaseId, generation⟩ :=
    fromInventory_agree opened read
  have initial : CooperativeAdmissionLedger.Initial ledger :=
    .fromInventory capabilities paths ledger opened
  refine ⟨(cooperativeSpillPaths_isOk_iff plan).trans ?_, fun spillPaths spills => ⟨?_, ?_⟩⟩
  · constructor
    · exact fun functional storageId path path' mem mem' =>
        functional (storageId, path) mem (storageId, path') mem' rfl
    · rintro agree ⟨storageId, path⟩ mem ⟨_, path'⟩ mem' rfl
      exact agree storageId path path' mem mem'
  · intro admitted
    obtain ⟨_, refused, -⟩ | ⟨_, _, already, -⟩ | ⟨_, exhausted, -⟩ | ⟨_, -, admissible, -⟩ :=
      ledger.admit_cases (admissionRequest plan attemptId planDigest spillPaths) admittedAtMs
    · rw [refused] at admitted
      cases admitted
    · rw [already] at admitted
      cases admitted
    · rw [exhausted] at admitted
      cases admitted
    · have fits := ensureFits_ok admissible.fits
      refine ⟨(initial.start.2.2.2.2.add fits).1, fun id => ?_⟩
      by_cases claimed : plan.reservation.tierBytes id = 0
      · rw [tiers, claimed]
        exact Nat.zero_le _
      · exact ((ensureMapsFit_ok fits).2 id claimed).1
  · intro countable
    have valid := selected.request_valid capacity spills attempt digest short
    have reservation := selected.reservation_valid capacity
    have maps := ensureMapsFit_of_ensureFits capacity_eq used_eq
      (validateCooperativeReservation_positive reservation) selected.fits countable
    have admissible : CooperativeAdmissionLedger.Admissible ledger
        (admissionRequest plan attemptId planDigest spillPaths) :=
      ⟨valid, by rw [initial.start.2.2.1]; simp, bind_eq_ok_iff.mpr ⟨(), reservation, maps⟩,
        leaseId ▸ by decide⟩
    obtain ⟨_, -, refused⟩ | ⟨_, _, -, -, found, -⟩ | ⟨_, -, -, exhausted⟩ | ⟨_, admitted, -⟩ :=
      ledger.admit_cases (admissionRequest plan attemptId planDigest spillPaths) admittedAtMs
    · obtain ⟨_, refused⟩ := refused admissible
      obtain ⟨_, added⟩ := initial.conserved.add_isOk admissible
      rw [refused] at added
      cases added
    · rw [admissible.fresh] at found
      cases found
    · rw [generation] at exhausted
      exact absurd exhausted (by decide)
    · exact congrArg Prod.fst admitted

end Admission

/-! ### Two slices that feed a third -/

def sampleCapabilities : List PlacementCapability :=
  [sampleCapability "cpu-0" .cpu, sampleCapability "gpu-0" .accelerator,
    sampleCapability "ram-0" .hostMemory, sampleCapability "ssd-0" .storage]

def samplePaths : List PlacementTransferPath :=
  [samplePath "cpu-ssd" "cpu-0", samplePath "gpu-ssd" "gpu-0"]

def sampleSlice (id : String) (stage : Nat) (dependsOn : List String)
    (executorDomain : PlacementDomain) : CooperativeSliceSpec where
  id := id
  stage := stage
  dependsOn := dependsOn
  executorDomain := executorDomain
  dataTierDomain := .hostMemory
  requiredDataTierId := none
  inputBytes := 0
  outputBytes := 0
  workingMemoryBytes := 64
  workUnits := 1

/-- A pipeline of which the slice `infer` runs on an executor of the given domain. -/
def sampleTask (inferOn : PlacementDomain) : CooperativePlacementTask where
  schema := cooperativePlacementTaskSchemaV1
  taskId := 1
  mode := .pipeline
  slices := [sampleSlice "decode" 0 [] .cpu, sampleSlice "infer" 0 [] inferOn,
    sampleSlice "merge" 1 ["decode", "infer"] .cpu]
  bufferPolicy := {
    capacityBytes := 16
    maxInFlightBuffers := 16
    highWatermarkBytes := 12
    lowWatermarkBytes := 4
    allowSpillToStorage := true }
  deadlineMs := none
  requiresLocalOnly := true
  allowStorage := true

def samplePlan (inferOn : PlacementDomain) : Except PlacementError CooperativePlacementPlan :=
  CooperativePlacementPlan.build PlacementError.debug (sampleTask inferOn) sampleCapabilities
    samplePaths 0

/-- The buffers of a pipeline on one processor spill over one path. -/
theorem one_processor_plan_countable : ∃ plan ledger, samplePlan .cpu = .ok plan ∧
    planSpills plan = [("ssd-0", "cpu-ssd"), ("ssd-0", "cpu-ssd")] ∧
    fromInventory sampleCapabilities samplePaths = .ok ledger ∧
    CooperativeReservationLedger.Countable ledger.used plan.reservation := by
  obtain ⟨plan, built, facts⟩ := exists_ok_of_any (x := samplePlan .cpu) (p := fun plan =>
    plan.decision = "selected" && plan.reservationStatus = "READY_ALL_OR_NONE" &&
    planSpills plan = [("ssd-0", "cpu-ssd"), ("ssd-0", "cpu-ssd")] &&
    (fromInventory sampleCapabilities samplePaths).toOption.any
      fun ledger => (cooperativeSpillPaths plan).toOption.any fun spillPaths =>
        (ledger.admitRequest (admissionRequest plan 1 "digest" spillPaths) 0).1 =
          .ok (.admitted (ledger.issueLease (admissionRequest plan 1 "digest" spillPaths) 0)))
    (by decide +kernel)
  simp only [Bool.and_eq_true, decide_eq_true_eq] at facts
  obtain ⟨⟨⟨selected, ready⟩, spills⟩, admits⟩ := facts
  obtain ⟨ledger, opened, admits⟩ := exists_ok_of_any admits
  obtain ⟨spillPaths, paths, admits⟩ := exists_ok_of_any admits
  exact ⟨plan, ledger, built, spills, opened,
    ((selected_plan_admitted_iff built ⟨selected, ready⟩ opened (by decide) (by decide +kernel)
      (by decide +kernel)).2 spillPaths paths).mp (of_decide_eq_true admits)⟩

/-- The buffers of a pipeline on a processor and an accelerator spill to one storage over two
paths, which the plan does not notice. -/
theorem two_executors_plan_refused : ∃ plan, samplePlan .accelerator = .ok plan ∧
    plan.decision = "selected" ∧ plan.reservationStatus = "READY_ALL_OR_NONE" ∧
    (fromInventory sampleCapabilities samplePaths).toOption.isSome ∧
    cooperativeSpillPaths plan =
      .error "cooperative plan maps one storage identity to multiple spill paths" := by
  obtain ⟨plan, built, facts⟩ := exists_ok_of_any (x := samplePlan .accelerator)
    (p := fun plan => plan.decision = "selected" ∧
      plan.reservationStatus = "READY_ALL_OR_NONE" ∧
      (fromInventory sampleCapabilities samplePaths).toOption.isSome ∧
      cooperativeSpillPaths plan =
        .error "cooperative plan maps one storage identity to multiple spill paths")
    (by decide +kernel)
  exact ⟨plan, built, of_decide_eq_true facts⟩

end Aegis.Placement
