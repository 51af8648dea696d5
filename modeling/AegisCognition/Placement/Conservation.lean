import AegisCognition.Placement.Plan
import AegisCognition.Resource.CooperativeConservation

/-!
# What the planner's ledger conserves

What is in use of a resource for an identity should be what was in use at the start and the sum
over the active leases, within the capacity. Saturation breaks this where a capacity is the largest
value of its type: there every request fits, and the sum stops short. The cancellation of a lease
then takes more away than the lease has added.

So the ledger conserves exactly if no plan that it takes claims more than the type can count.
-/

namespace Aegis.Placement

open Std Foundation Resource
open CooperativeInventory CooperativeReservation OrderedMap Tally

variable {left right used reservation : CooperativeReservation} {id : String}

@[simp] theorem tally_addCooperativeReservation (left right : CooperativeReservation)
    (resource : CooperativeResource) :
    (addCooperativeReservation left right).tally resource =
      addSaturating resource.bound (left.tally resource) (right.tally resource) := by
  cases resource <;> rfl

@[simp] theorem tally_subtractCooperativeReservation (left right : CooperativeReservation)
    (resource : CooperativeResource) :
    (subtractCooperativeReservation left right).tally resource =
      subtractSaturating (left.tally resource) (right.tally resource) := by
  cases resource <;> rfl

theorem bound_ne_zero (resource : CooperativeResource) : resource.bound ≠ 0 := by
  cases resource <;> decide

/-- Two reservations without zero entries that hold the same amounts are equal. -/
theorem eq_of_amounts (positive : left.Positive) (positive' : right.Positive)
    (same : ∀ resource id, Tally.amount (left.tally resource) id =
      Tally.amount (right.tally resource) id) : left = right := by
  have tallies (resource : CooperativeResource) : left.tally resource = right.tally resource :=
    (positive resource).ext (positive' resource) (same resource)
  have h1 := tallies .executorQueueSlots
  have h2 := tallies .executorMemoryBytes
  have h3 := tallies .dataTierBytes
  have h4 := tallies .bufferBytes
  have h5 := tallies .storageBytes
  have h6 := tallies .storageInFlight
  have h7 := tallies .transferTokens
  have h8 := tallies .sharedMemoryBytes
  cases left
  cases right
  simp only [CooperativeReservation.tally] at h1 h2 h3 h4 h5 h6 h7 h8
  rw [h1, h2, h3, h4, h5, h6, h7, h8]

/-! ### The checks -/

theorem ensureMapFits_ok {bound : Nat} {resource : String}
    {capacity used requested : ExtTreeMap String Nat}
    (h : ensureMapFits bound resource capacity used requested = .ok ())
    (claimed : Tally.amount requested id ≠ 0) :
    ∃ limit, capacity[id]? = some limit ∧
      min (Tally.amount used id + Tally.amount requested id) bound ≤ limit := by
  cases found : requested[id]? with
  | none =>
      rw [Tally.amount, found] at claimed
      exact absurd rfl claimed
  | some amount =>
      have fits := forM_eq_ok_iff.mp h (id, amount)
        (ExtTreeMap.mem_toList_iff_getElem?_eq_some.mpr found)
      rw [amount_of_getElem? found] at claimed ⊢
      unfold ensureEntryFits at fits
      rw [if_neg claimed] at fits
      split at fits
      · cases fits
      · rename_i limit limited
        exact ⟨limit, limited, Nat.le_of_not_lt (refuseWhen_eq_ok_iff.mp fits)⟩

theorem ensureCombinedU64MapFits_ok {resource : String} {tiers : ExtTreeMap String Nat}
    (h : ensureCombinedU64MapFits resource tiers used.dataTierBytes used.bufferBytes
      reservation.dataTierBytes reservation.bufferBytes = .ok ())
    (claimed : reservation.tierBytes id ≠ 0) :
    ∃ limit, tiers[id]? = some limit ∧
      min (used.tierBytes id + reservation.tierBytes id) u64Max ≤ limit := by
  have fits := forM_eq_ok_iff.mp h id (mem_tierIds claimed)
  simp only [tierBytes] at claimed ⊢
  have positive : saturatingAdd u64Max (Tally.amount reservation.dataTierBytes id)
      (Tally.amount reservation.bufferBytes id) ≠ 0 := by
    have large : u64Max ≠ 0 := by decide
    unfold saturatingAdd
    omega
  simp only [ensureCombinedFits, if_neg positive] at fits
  split at fits
  · cases fits
  · rename_i limit limited
    have le := Nat.le_of_not_lt (refuseWhen_eq_ok_iff.mp fits)
    unfold saturatingAdd at le
    exact ⟨limit, limited, by omega⟩

namespace CooperativeReservationLedger

variable {ledger : CooperativeReservationLedger} {initial : CooperativeReservation}

/-- What the check of the ledger establishes about what a reservation claims. -/
theorem ensureFits_ok (h : ledger.ensureFits reservation = .ok ()) :
    (∀ resource id, resource ≠ .dataTierBytes → resource ≠ .bufferBytes →
      Tally.amount (reservation.tally resource) id ≠ 0 →
      ∃ limit, (ledger.capacity.tally resource)[id]? = some limit ∧
        min (Tally.amount (ledger.used.tally resource) id +
          Tally.amount (reservation.tally resource) id) resource.bound ≤ limit) ∧
    ∀ id, reservation.tierBytes id ≠ 0 →
      ∃ limit, ledger.capacity.dataTierBytes[id]? = some limit ∧
        min (ledger.used.tierBytes id + reservation.tierBytes id) u64Max ≤ limit := by
  simp only [ensureFits, ensureU32MapFits, ensureU64MapFits, bind_eq_ok_iff] at h
  obtain ⟨_, h1, _, h2, _, h3, _, h4, _, h5, _, h6, h7⟩ := h
  refine ⟨fun resource id data buffer claimed => ?_, fun id => ensureCombinedU64MapFits_ok h3⟩
  cases resource with
  | dataTierBytes => exact absurd rfl data
  | bufferBytes => exact absurd rfl buffer
  | _ => exact ensureMapFits_ok ‹_› claimed

/-- No amount that is in use after the reservation exceeds its type. -/
structure Countable (used reservation : CooperativeReservation) : Prop where
  separate : ∀ resource id, Tally.amount (used.tally resource) id +
    Tally.amount (reservation.tally resource) id ≤ resource.bound
  combined : ∀ id, used.tierBytes id + reservation.tierBytes id ≤ u64Max

theorem within_add (within : Within ledger.capacity ledger.used)
    (fits : ledger.ensureFits reservation = .ok ()) (countable : Countable ledger.used reservation)
    {result : CooperativeReservation}
    (sums : ∀ resource id, Tally.amount (result.tally resource) id =
      Tally.amount (ledger.used.tally resource) id +
        Tally.amount (reservation.tally resource) id) : Within ledger.capacity result := by
  obtain ⟨separate, combined⟩ := ensureFits_ok fits
  refine within.grow countable.separate (fun resource id data buffer claimed => ?_)
    (fun id claimed => ?_) sums
  · obtain ⟨limit, limited, le⟩ := separate resource id data buffer claimed
    rwa [Nat.min_eq_left (countable.separate resource id), ← amount_of_getElem? limited] at le
  · obtain ⟨limit, limited, le⟩ := combined id claimed
    rwa [Nat.min_eq_left (countable.combined id), ← amount_of_getElem? limited] at le

/-! ### Leases -/

/-- What the active leases hold of a resource for an identity. -/
def reserved (ledger : CooperativeReservationLedger) (resource : CooperativeResource)
    (id : String) : Nat :=
  ((valueList ledger.active).map fun lease =>
    Tally.amount (lease.reservation.tally resource) id).sum

/-- What is in use is what was in use at the start and the sum over the active leases, within the
capacity. -/
structure Conserved (initial : CooperativeReservation) (ledger : CooperativeReservationLedger) :
    Prop where
  used_eq : ∀ resource id, Tally.amount (ledger.used.tally resource) id =
    Tally.amount (initial.tally resource) id + ledger.reserved resource id
  within : Within ledger.capacity ledger.used

/-- What every call keeps, whatever it claims. -/
structure Accounted (ledger : CooperativeReservationLedger) : Prop where
  leaseIdLt : ∀ (leaseId : Nat) (lease : CooperativeReservationLease),
    ledger.active[leaseId]? = some lease → leaseId < ledger.nextLeaseId
  used_positive : ledger.used.Positive
  typed : ∀ resource id, Tally.amount (ledger.capacity.tally resource) id ≤ resource.bound

variable {plan : CooperativePlacementPlan} {lease : CooperativeReservationLease} {leaseId : Nat}
variable {op : ReservationOp}

theorem reserved_withLease (h : Accounted ledger) (reservation : CooperativeReservation)
    (resource : CooperativeResource) (id : String) :
    (ledger.withLease reservation).reserved resource id =
      Tally.amount (reservation.tally resource) id + ledger.reserved resource id := by
  have fresh : ledger.active[ledger.nextLeaseId]? = none := by
    cases found : ledger.active[ledger.nextLeaseId]? with
    | none => rfl
    | some lease => exact absurd (h.leaseIdLt _ _ found) (Nat.lt_irrefl _)
  have added : (valueList (ledger.active.insert ledger.nextLeaseId
      ⟨ledger.nextLeaseId, reservation⟩)).Perm
      (⟨ledger.nextLeaseId, reservation⟩ :: valueList ledger.active) :=
    valueList_insert_perm fresh
  have moved := added.map fun lease => Tally.amount (lease.reservation.tally resource) id
  simpa [reserved, withLease] using moved.sum_eq

theorem reserved_withoutLease (active : ledger.active[leaseId]? = some lease)
    (resource : CooperativeResource) (id : String) :
    ledger.reserved resource id = Tally.amount (lease.reservation.tally resource) id +
      (ledger.withoutLease leaseId lease.reservation).reserved resource id := by
  have moved := (valueList_erase_perm active).map
    fun lease => Tally.amount (lease.reservation.tally resource) id
  simpa [reserved, withoutLease] using moved.sum_eq

section

variable (ledger : CooperativeReservationLedger)

/-- A call takes a ready plan that fits, cancels an active lease, or changes nothing. -/
theorem step_cases (op : ReservationOp) : (∃ plan, op = .reserve plan ∧ plan.isReady = true ∧
      ledger.ensureFits plan.reservation = .ok () ∧
      ledger.step op = ledger.withLease plan.reservation) ∨
    (∃ leaseId lease, op = .cancel leaseId ∧ ledger.active[leaseId]? = some lease ∧
      ledger.step op = ledger.withoutLease leaseId lease.reservation) ∨
    (ledger.step op = ledger ∧ ∀ plan, op = .reserve plan →
      ¬ (plan.isReady = true ∧ ledger.ensureFits plan.reservation = .ok ())) := by
  cases op with
  | reserve plan =>
      simp only [step, reserve]
      by_cases ready : plan.isReady = false
      · refine .inr (.inr ⟨by rw [if_pos ready], ?_⟩)
        rintro _ ⟨⟩ ⟨ready', -⟩
        rw [ready] at ready'
        cases ready'
      · rw [if_neg ready]
        cases fits : ledger.ensureFits plan.reservation with
        | error error =>
            refine .inr (.inr ⟨rfl, ?_⟩)
            rintro _ ⟨⟩ ⟨-, fits'⟩
            rw [fits] at fits'
            cases fits'
        | ok _ => exact .inl ⟨plan, rfl, Bool.eq_true_of_not_eq_false ready, fits, rfl⟩
  | cancel leaseId =>
      simp only [step, cancel]
      cases found : ledger.active[leaseId]? with
      | none => exact .inr (.inr ⟨rfl, nofun⟩)
      | some lease => exact .inr (.inl ⟨leaseId, lease, rfl, found, rfl⟩)

/-- The lease id of a plan that is taken can be counted on. -/
def HasLeaseId : ReservationOp → Prop
  | .reserve plan => plan.isReady = true → ledger.ensureFits plan.reservation = .ok () →
      ledger.nextLeaseId < u64Max
  | .cancel _ => True

/-- What a plan that is taken claims can be counted. -/
def ClaimsCountable : ReservationOp → Prop
  | .reserve plan => plan.isReady = true → ledger.ensureFits plan.reservation = .ok () →
      Countable ledger.used plan.reservation
  | .cancel _ => True

end

theorem Accounted.step (h : Accounted ledger) (op : ReservationOp)
    (room : ledger.HasLeaseId op) : Accounted (ledger.step op) := by
  obtain ⟨plan, rfl, ready, fits, he⟩ | ⟨leaseId, lease, rfl, active, he⟩ | ⟨he, -⟩ :=
    ledger.step_cases op
  · rw [he]
    have counts := room ready fits
    have next : (ledger.withLease plan.reservation).nextLeaseId = ledger.nextLeaseId + 1 :=
      saturatingAdd_of_le counts
    refine ⟨fun leaseId lease active => ?_, fun resource => ?_, h.typed⟩
    · rw [next]
      obtain ⟨rfl, -⟩ | ⟨-, active⟩ := getElem?_insert_eq_some_iff.mp active
      · exact Nat.lt_succ_self _
      · exact Nat.lt_succ_of_lt (h.leaseIdLt leaseId lease active)
    · change Tally.NoZero ((addCooperativeReservation _ _).tally resource)
      rw [tally_addCooperativeReservation]
      exact (h.used_positive resource).addSaturating (bound_ne_zero resource) _
  · rw [he]
    refine ⟨fun otherId other active' => ?_, fun resource => ?_, h.typed⟩
    · exact h.leaseIdLt otherId other (getElem?_erase_eq_some_iff.mp active').2
    · change Tally.NoZero ((subtractCooperativeReservation _ _).tally resource)
      rw [tally_subtractCooperativeReservation]
      exact (h.used_positive resource).subtractSaturating _
  · rwa [he]

/-- A lease that is taken keeps the account exactly if what it claims can be counted. -/
theorem Conserved.withLease_iff (h : Conserved initial ledger) (accounted : Accounted ledger)
    (fits : ledger.ensureFits reservation = .ok ()) :
    Conserved initial (ledger.withLease reservation) ↔ Countable ledger.used reservation := by
  have amounts (resource : CooperativeResource) (id : String) :
      Tally.amount ((ledger.withLease reservation).used.tally resource) id =
        min (Tally.amount (ledger.used.tally resource) id +
          Tally.amount (reservation.tally resource) id) resource.bound := by
    change Tally.amount ((addCooperativeReservation _ _).tally resource) id = _
    rw [tally_addCooperativeReservation]
    exact amount_addSaturating (h.within.bounded resource) id
  have total (resource : CooperativeResource) (id : String) :
      Tally.amount (initial.tally resource) id +
        (ledger.withLease reservation).reserved resource id =
      Tally.amount (ledger.used.tally resource) id +
        Tally.amount (reservation.tally resource) id := by
    have old := h.used_eq resource id
    rw [reserved_withLease accounted]
    omega
  constructor
  · intro kept
    have exact_sum (resource : CooperativeResource) (id : String) :
        Tally.amount ((ledger.withLease reservation).used.tally resource) id =
          Tally.amount (ledger.used.tally resource) id +
            Tally.amount (reservation.tally resource) id :=
      (kept.used_eq resource id).trans (total resource id)
    refine ⟨fun resource id => exact_sum resource id ▸ kept.within.bounded resource id,
      fun id => ?_⟩
    have tier := (kept.within.combined id).trans (accounted.typed .dataTierBytes id)
    have data := exact_sum .dataTierBytes id
    have buffer := exact_sum .bufferBytes id
    simp only [CooperativeReservation.tally, CooperativeResource.bound] at data buffer tier
    simp only [tierBytes] at tier ⊢
    omega
  · intro countable
    have sums (resource : CooperativeResource) (id : String) :
        Tally.amount ((ledger.withLease reservation).used.tally resource) id =
          Tally.amount (ledger.used.tally resource) id +
            Tally.amount (reservation.tally resource) id :=
      (amounts resource id).trans (Nat.min_eq_left (countable.separate resource id))
    exact ⟨fun resource id => (sums resource id).trans (total resource id).symm,
      within_add h.within fits countable sums⟩

/-- A cancellation takes away what the lease has added. -/
theorem Conserved.withoutLease (h : Conserved initial ledger)
    (active : ledger.active[leaseId]? = some lease) :
    Conserved initial (ledger.withoutLease leaseId lease.reservation) := by
  have amounts (resource : CooperativeResource) (id : String) :
      Tally.amount ((ledger.withoutLease leaseId lease.reservation).used.tally resource) id =
        Tally.amount (ledger.used.tally resource) id -
          Tally.amount (lease.reservation.tally resource) id := by
    change Tally.amount ((subtractCooperativeReservation _ _).tally resource) id = _
    rw [tally_subtractCooperativeReservation]
    exact amount_subtractSaturating _ _ id
  have smaller (resource : CooperativeResource) (id : String) :
      Tally.amount ((ledger.withoutLease leaseId lease.reservation).used.tally resource) id ≤
        Tally.amount (ledger.used.tally resource) id :=
    amounts resource id ▸ Nat.sub_le _ _
  refine ⟨fun resource id => ?_, fun resource id => (smaller resource id).trans
    (h.within.bounded resource id), fun resource id data buffer => (smaller resource id).trans
    (h.within.separate resource id data buffer), fun id => ?_⟩
  · have old := h.used_eq resource id
    have held := reserved_withoutLease active resource id
    rw [amounts]
    omega
  · exact (Nat.add_le_add (smaller .dataTierBytes id) (smaller .bufferBytes id)).trans
      (h.within.combined id)

theorem Conserved.step_iff (h : Conserved initial ledger) (accounted : Accounted ledger)
    (op : ReservationOp) : Conserved initial (ledger.step op) ↔ ledger.ClaimsCountable op := by
  obtain ⟨plan, rfl, ready, fits, he⟩ | ⟨leaseId, lease, rfl, active, he⟩ | ⟨he, untaken⟩ :=
    ledger.step_cases op
  · rw [he, h.withLease_iff accounted fits]
    exact ⟨fun countable _ _ => countable, fun claims => claims ready fits⟩
  · rw [he]
    exact iff_of_true (h.withoutLease active) trivial
  · rw [he]
    refine iff_of_true h ?_
    cases op with
    | reserve plan => exact fun ready fits => absurd ⟨ready, fits⟩ (untaken plan rfl)
    | cancel leaseId => trivial

/-! ### Runs -/

/-- A call issues a lease exactly when it takes a plan. -/
def leasesIssued (ledger : CooperativeReservationLedger) : ReservationOp → Nat
  | .reserve plan =>
      match (ledger.reserve plan).1 with
      | .ok _ => 1
      | .error _ => 0
  | .cancel _ => 0

/-- What would be in use if these leases, and no others, had ever been taken. -/
def replayed (initial : CooperativeReservation) (leases : List CooperativeReservationLease) :
    CooperativeReservation :=
  leases.foldl (fun used lease => addCooperativeReservation used lease.reservation) initial

theorem amount_replayed {initial : CooperativeReservation}
    {leases : List CooperativeReservationLease} {resource : CooperativeResource}
    (bounded : ∀ id, Tally.amount (initial.tally resource) id +
      (leases.map fun lease => Tally.amount (lease.reservation.tally resource) id).sum ≤
        resource.bound) (id : String) :
    Tally.amount ((replayed initial leases).tally resource) id =
      Tally.amount (initial.tally resource) id +
        (leases.map fun lease => Tally.amount (lease.reservation.tally resource) id).sum := by
  induction leases generalizing initial with
  | nil => rfl
  | cons lease leases ih =>
      simp only [List.map_cons, List.sum_cons] at bounded ⊢
      have first (id : String) : Tally.amount
          ((addCooperativeReservation initial lease.reservation).tally resource) id =
          Tally.amount (initial.tally resource) id +
            Tally.amount (lease.reservation.tally resource) id := by
        have start (id : String) : Tally.amount (initial.tally resource) id ≤ resource.bound := by
          have := bounded id
          omega
        have := bounded id
        rw [tally_addCooperativeReservation, amount_addSaturating start]
        omega
      have rest := @ih (addCooperativeReservation initial lease.reservation) fun id => by
        rw [first, Nat.add_assoc]
        exact bounded id
      rw [first, Nat.add_assoc] at rest
      exact rest

theorem replayed_positive (positive : initial.Positive)
    (leases : List CooperativeReservationLease) : (replayed initial leases).Positive :=
  foldl_keeps (fun used lease kept resource => by
    rw [tally_addCooperativeReservation]
    exact (kept resource).addSaturating (bound_ne_zero resource) _) positive

/-- While the account is kept, the history of the ledger can be forgotten but for its leases. -/
theorem Conserved.used_eq_replayed (h : Conserved initial ledger) (accounted : Accounted ledger)
    (positive : initial.Positive) :
    ledger.used = replayed initial (valueList ledger.active) := by
  refine eq_of_amounts accounted.used_positive (replayed_positive positive _) fun resource id => ?_
  rw [amount_replayed]
  · exact h.used_eq resource id
  · exact fun id => h.used_eq resource id ▸ h.within.bounded resource id

section Inventory

variable {inventory next : CooperativeInventory} {capability : PlacementCapability}
variable {path : PlacementTransferPath}

theorem positive_iff : reservation.Positive ↔ Tally.NoZero reservation.executorQueueSlots ∧
    Tally.NoZero reservation.executorMemoryBytes ∧ Tally.NoZero reservation.dataTierBytes ∧
    Tally.NoZero reservation.bufferBytes ∧ Tally.NoZero reservation.storageBytes ∧
    Tally.NoZero reservation.storageInFlight ∧ Tally.NoZero reservation.transferTokens ∧
    Tally.NoZero reservation.sharedMemoryBytes := by
  constructor
  · exact fun h => ⟨h .executorQueueSlots, h .executorMemoryBytes, h .dataTierBytes,
      h .bufferBytes, h .storageBytes, h .storageInFlight, h .transferTokens,
      h .sharedMemoryBytes⟩
  · rintro ⟨h1, h2, h3, h4, h5, h6, h7, h8⟩ resource
    cases resource <;> assumption

theorem readCapability_positive (positive : inventory.used.Positive)
    (h : inventory.readCapability capability = .ok next) : next.used.Positive := by
  obtain ⟨h1, h2, h3, h4, h5, h6, h7, h8⟩ := positive_iff.mp positive
  unfold readCapability at h
  split at h
  · cases h
  · split at h <;> cases h
    all_goals dsimp only
    · split
      · exact positive
      · rename_i depth
        exact positive_iff.mpr ⟨h1.insert depth, h2, h3, h4, h5, h6, h7, h8⟩
    · split
      · exact positive
      · rename_i depth
        exact positive_iff.mpr ⟨h1.insert depth, h2, h3, h4, h5, h6, h7, h8⟩
    · exact positive
    · split
      · exact positive
      · rename_i depth
        exact positive_iff.mpr ⟨h1, h2, h3, h4, h5, h6.insert depth, h7, h8⟩

theorem readPath_positive (positive : inventory.used.Positive)
    (h : inventory.readPath path = .ok next) : next.used.Positive := by
  obtain ⟨h1, h2, h3, h4, h5, h6, h7, h8⟩ := positive_iff.mp positive
  simp only [readPath, bind_eq_ok_iff] at h
  obtain ⟨_, -, _, -, same⟩ := h
  obtain rfl := pure_eq_ok_iff.mp same
  dsimp only
  split
  · exact positive
  · rename_i tokens
    exact positive_iff.mpr ⟨h1, h2, h3, h4, h5, h6, h7.insert tokens, h8⟩

/-- Only what is counted is entered into the usage of an inventory. -/
theorem read_positive {capabilities : List PlacementCapability}
    {paths : List PlacementTransferPath}
    (h : CooperativeInventory.read capabilities paths = .ok inventory) :
    inventory.used.Positive := by
  obtain ⟨middle, first, second⟩ := bind_eq_ok_iff.mp h
  have start : CooperativeReservation.empty.Positive := fun resource => by
    rw [CooperativeAdmissionLedger.tally_empty]
    exact noZero_empty
  have between : middle.used.Positive :=
    foldlM_invariant (motive := fun _ inventory => inventory.used.Positive)
      (fun _ _ _ _ _ _ positive read => readCapability_positive positive read) start first
  exact foldlM_invariant (motive := fun _ inventory => inventory.used.Positive)
    (fun _ _ _ _ _ _ positive read => readPath_positive positive read) between second

end Inventory

variable {capabilities : List PlacementCapability} {paths : List PlacementTransferPath}

theorem fromInventory_start (built : fromInventory capabilities paths = .ok ledger) :
    ledger.active = ∅ ∧ ledger.nextLeaseId = 1 ∧ ledger.used.Positive := by
  obtain ⟨inventory, read, same⟩ := bind_eq_ok_iff.mp built
  obtain rfl := pure_eq_ok_iff.mp same
  exact ⟨rfl, rfl, read_positive read⟩

/-- Fewer leases than there are ids: every plan that is taken gets an id of its own. -/
theorem hasLeaseId_of_bounded {ops : List ReservationOp} (start : ledger.nextLeaseId = 1)
    (bounded : totalCost step leasesIssued ledger ops < u64Max) :
    Along step HasLeaseId ledger ops := by
  have keep : ∀ issued (ledger : CooperativeReservationLedger) op,
      ledger.nextLeaseId = issued + 1 → issued + leasesIssued ledger op < u64Max →
      HasLeaseId ledger op ∧
        (ledger.step op).nextLeaseId = issued + leasesIssued ledger op + 1 := by
    intro issued ledger op next room
    cases op with
    | cancel leaseId =>
        refine ⟨trivial, ?_⟩
        obtain ⟨plan, other, -⟩ | ⟨leaseId', lease, -, -, he⟩ | ⟨he, -⟩ :=
          ledger.step_cases (.cancel leaseId)
        · cases other
        · rw [he]
          exact next
        · rw [he]
          exact next
    | reserve plan =>
        simp only [leasesIssued, HasLeaseId, step, reserve] at room ⊢
        by_cases ready : plan.isReady = false
        · simp only [if_pos ready]
          exact ⟨fun ready' => absurd (ready.symm.trans ready') Bool.false_ne_true, next⟩
        · simp only [if_neg ready] at room ⊢
          cases fits : ledger.ensureFits plan.reservation with
          | error error => exact ⟨fun _ fits' => (by cases fits'), next⟩
          | ok _ =>
              simp only [fits] at room
              refine ⟨fun _ _ => next ▸ room, ?_⟩
              change saturatingAdd u64Max ledger.nextLeaseId 1 = _
              rw [next, saturatingAdd_of_le room]
  exact along_of_metered keep ops start (by rwa [Nat.zero_add])

/-- While the account is kept, cancelling a lease leaves what would be in use without it. -/
theorem Conserved.cancel (h : Conserved initial ledger) (accounted : Accounted ledger)
    (positive : initial.Positive) (active : ledger.active[leaseId]? = some lease) :
    (ledger.cancel leaseId).1 = .ok lease ∧ (ledger.cancel leaseId).2.used =
      replayed initial (valueList (ledger.active.erase leaseId)) := by
  have taken : ledger.cancel leaseId =
      (.ok lease, ledger.withoutLease leaseId lease.reservation) := by
    simp only [CooperativeReservationLedger.cancel, active]
  have released : Accounted (ledger.step (.cancel leaseId)) :=
    accounted.step (.cancel leaseId) trivial
  have state : ledger.step (.cancel leaseId) = ledger.withoutLease leaseId lease.reservation := by
    rw [step, taken]
  rw [state] at released
  rw [taken]
  exact ⟨rfl, (h.withoutLease active).used_eq_replayed released positive⟩

/-- In every state of every run, what is in use is what was at the start and the sum over the
active leases, within the capacity, and the cancellation of a lease leaves what would be in use
without it, exactly if no plan that is taken claims more than the types can count. -/
theorem run_reservations_conserve_iff (built : fromInventory capabilities paths = .ok ledger)
    (within : Within ledger.capacity ledger.used)
    (typed : ∀ resource id, Tally.amount (ledger.capacity.tally resource) id ≤ resource.bound)
    (ops : List ReservationOp) (bounded : totalCost step leasesIssued ledger ops < u64Max) :
    (∀ before after, ops = before ++ after →
      (∀ resource id, Tally.amount ((run step ledger before).used.tally resource) id =
        Tally.amount (ledger.used.tally resource) id +
          ((valueList (run step ledger before).active).map fun lease =>
            Tally.amount (lease.reservation.tally resource) id).sum) ∧
      Within (run step ledger before).capacity (run step ledger before).used ∧
      ∀ (leaseId : Nat) (lease : CooperativeReservationLease),
        (run step ledger before).active[leaseId]? = some lease →
        ((run step ledger before).cancel leaseId).1 = .ok lease ∧
        ((run step ledger before).cancel leaseId).2.used = replayed ledger.used
          (valueList ((run step ledger before).active.erase leaseId))) ↔
    Along step ClaimsCountable ledger ops := by
  obtain ⟨idle, first, positive⟩ := fromInventory_start built
  have accounted : Accounted ledger := ⟨by simp [idle], positive, typed⟩
  have start : Conserved ledger.used ledger := ⟨by simp [reserved, idle], within⟩
  have keep (ledger : CooperativeReservationLedger) (op : ReservationOp)
      (accounted : Accounted ledger) (room : ledger.HasLeaseId op) :
      Accounted (ledger.step op) := accounted.step op room
  have exact_step (next : CooperativeReservationLedger) (op : ReservationOp)
      (accounted : Accounted next) (kept : Conserved ledger.used next) (_ : next.HasLeaseId op) :
      Conserved ledger.used (next.step op) ↔ next.ClaimsCountable op :=
    kept.step_iff accounted op
  have lawful : Along step HasLeaseId ledger ops := hasLeaseId_of_bounded first bounded
  rw [← run_prefixes_iff_along_of_legal keep exact_step lawful accounted start]
  constructor
  · intro kept before after split
    obtain ⟨used_eq, within, -⟩ := kept before after split
    exact ⟨used_eq, within⟩
  · rintro kept before after rfl
    have conserved := kept before after rfl
    have reached : Accounted (run step ledger before) :=
      run_invariant_along keep lawful.append_left accounted
    exact ⟨conserved.used_eq, conserved.within, fun leaseId lease active =>
      conserved.cancel reached positive active⟩

/-! ### A ledger for one executor -/

/-- A processor without memory of its own. -/
def cpu (queueDepth queueCapacity : Nat) : PlacementCapability where
  id := "cpu"
  domain := .cpu
  usableBytes := none
  computeUnitsPerUs := none
  latencyUs := none
  queueDepth := queueDepth
  queueCapacity := some queueCapacity
  pressure := false
  localOnly := true
  confidence := .unknown
  acceleratorKind := none
  backend := none
  vendor := none
  capabilities := []
  transferPaths := []

def queueSlots (slots : Nat) : CooperativeReservation :=
  { CooperativeReservation.empty with
    executorQueueSlots := (∅ : ExtTreeMap String Nat).insert "cpu" slots }

/-- A selected plan that claims slots in the queue of the processor and nothing else. -/
def queuePlan (slots : Nat) : CooperativePlacementPlan where
  schema := "aegis-cooperative-placement-plan-v1"
  taskId := 1
  mode := .singleExecutor
  decision := "selected"
  reason := ""
  slices := []
  buffers := []
  reservation := queueSlots slots
  reservationStatus := "READY_ALL_OR_NONE"
  estimatedMakespanUs := none
  plannedAtMs := 0

def cpuLedger (queueDepth queueCapacity : Nat) : CooperativeReservationLedger where
  capacity :=
    { queueSlots queueCapacity with
      executorMemoryBytes := (∅ : ExtTreeMap String Nat).insert "cpu" 0 }
  used := queueSlots queueDepth
  nextLeaseId := 1
  active := ∅

theorem cpuLedger_built {queueDepth queueCapacity : Nat} (busy : queueDepth ≠ 0) :
    fromInventory [cpu queueDepth queueCapacity] [] =
      .ok (cpuLedger queueDepth queueCapacity) := by
  have named : isBlank "cpu" = false := by decide +kernel
  have read : readCapability ⟨.empty, .empty, ∅⟩
      (cpu queueDepth queueCapacity) =
      .ok ⟨(cpuLedger queueDepth queueCapacity).capacity, queueSlots queueDepth,
        (∅ : ExtTreeSet String).insert "cpu"⟩ := by
    simp [readCapability, cpu, named, busy, cpuLedger, queueSlots, CooperativeReservation.empty]
  rw [fromInventory, CooperativeInventory.read, List.foldlM_cons, read]
  rfl

theorem amount_queueSlots (slots : Nat) (resource : CooperativeResource) (id : String) :
    Tally.amount ((queueSlots slots).tally resource) id =
      if resource = .executorQueueSlots ∧ id = "cpu" then slots else 0 := by
  cases resource with
  | executorQueueSlots =>
      change Tally.amount ((∅ : ExtTreeMap String Nat).insert "cpu" slots) id = _
      have same : compare "cpu" id = .eq ↔ id = "cpu" :=
        LawfulEqCmp.compare_eq_iff_eq.trans eq_comm
      simp [amount_insert, same]
  | _ => simp [queueSlots, CooperativeReservation.tally, CooperativeReservation.empty]

theorem amount_cpuLedger_capacity (queueDepth queueCapacity : Nat)
    (resource : CooperativeResource) (id : String) :
    Tally.amount ((cpuLedger queueDepth queueCapacity).capacity.tally resource) id =
      if resource = .executorQueueSlots ∧ id = "cpu" then queueCapacity else 0 := by
  cases resource with
  | executorMemoryBytes =>
      change Tally.amount ((∅ : ExtTreeMap String Nat).insert "cpu" 0) id = _
      simp [amount_insert]
  | executorQueueSlots => exact amount_queueSlots queueCapacity .executorQueueSlots id
  | _ => rfl

theorem cpuLedger_typed {queueDepth queueCapacity : Nat} (counts : queueCapacity ≤ u32Max)
    (resource : CooperativeResource) (id : String) :
    Tally.amount ((cpuLedger queueDepth queueCapacity).capacity.tally resource) id ≤
      resource.bound := by
  rw [amount_cpuLedger_capacity]
  split
  · rename_i claimed
    exact claimed.1 ▸ counts
  · exact Nat.zero_le _

theorem cpuLedger_within {queueDepth queueCapacity : Nat} (le : queueDepth ≤ queueCapacity)
    (counts : queueCapacity ≤ u32Max) :
    Within (cpuLedger queueDepth queueCapacity).capacity
      (cpuLedger queueDepth queueCapacity).used := by
  have fits (resource : CooperativeResource) (id : String) :
      Tally.amount ((cpuLedger queueDepth queueCapacity).used.tally resource) id ≤
        Tally.amount ((cpuLedger queueDepth queueCapacity).capacity.tally resource) id := by
    rw [amount_cpuLedger_capacity, cpuLedger, amount_queueSlots]
    split
    · exact le
    · exact Nat.le_refl 0
  refine ⟨fun resource id => (fits resource id).trans (cpuLedger_typed counts resource id),
    fun resource id _ _ => fits resource id, fun id => ?_⟩
  have data := amount_queueSlots queueDepth .dataTierBytes id
  have buffer := amount_queueSlots queueDepth .bufferBytes id
  simp only [CooperativeReservation.tally, reduceCtorEq, false_and, if_false] at data buffer
  rw [tierBytes, cpuLedger, data, buffer]
  exact Nat.zero_le _

theorem countable_queueSlots {slots claimed : Nat} (room : slots + claimed ≤ u32Max) :
    Countable (queueSlots slots) (queueSlots claimed) := by
  refine ⟨fun resource id => ?_, fun id => ?_⟩
  · rw [amount_queueSlots, amount_queueSlots]
    split
    · rename_i counted
      exact counted.1 ▸ room
    · exact Nat.zero_le _
  · exact Nat.zero_le _

theorem cpuLedger_reservation_conserved :
    Within (run step (cpuLedger 1 4) [.reserve (queuePlan 2)]).capacity
      (run step (cpuLedger 1 4) [.reserve (queuePlan 2)]).used :=
  ((run_reservations_conserve_iff (cpuLedger_built (by decide))
    (cpuLedger_within (by decide) (by decide)) (cpuLedger_typed (by decide))
    [.reserve (queuePlan 2), .cancel 1] (by decide +kernel)).mpr
    ⟨fun _ _ => countable_queueSlots (by decide), trivial, trivial⟩
    [.reserve (queuePlan 2)] [.cancel 1] rfl).2.1

/-- Of two slots that are claimed next to the largest count but one, the sum counts one. The
cancellation gives back two. -/
theorem saturated_reservation_not_conserved :
    fromInventory [cpu (u32Max - 1) u32Max] [] = .ok (cpuLedger (u32Max - 1) u32Max) ∧
    Within (cpuLedger (u32Max - 1) u32Max).capacity (cpuLedger (u32Max - 1) u32Max).used ∧
    ((cpuLedger (u32Max - 1) u32Max).reserve (queuePlan 2)).1 = .ok ⟨1, queueSlots 2⟩ ∧
    Tally.amount (run step (cpuLedger (u32Max - 1) u32Max)
      [.reserve (queuePlan 2)]).used.executorQueueSlots "cpu" = u32Max ∧
    Tally.amount (cpuLedger (u32Max - 1) u32Max).used.executorQueueSlots "cpu" +
      ((valueList (run step (cpuLedger (u32Max - 1) u32Max)
        [.reserve (queuePlan 2)]).active).map fun lease =>
          Tally.amount lease.reservation.executorQueueSlots "cpu").sum = u32Max + 1 ∧
    Tally.amount (run step (cpuLedger (u32Max - 1) u32Max)
      [.reserve (queuePlan 2), .cancel 1]).used.executorQueueSlots "cpu" = u32Max - 2 :=
  ⟨cpuLedger_built (by decide), cpuLedger_within (by decide) (by decide), by decide +kernel,
    by decide +kernel, by decide +kernel, by decide +kernel⟩

end CooperativeReservationLedger

end Aegis.Placement
