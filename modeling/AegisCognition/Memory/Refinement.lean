import AegisCognition.Foundation.Registry
import AegisCognition.Foundation.Run
import AegisCognition.Memory.Slots

/-!
# The slab is a registry of handles

The calls on a slab are followed by a registry: an insertion adds the identifier it returned, a
removal drops its identifier, an update changes what its identifier stands for. The slab finds
under every identifier exactly what the registry says, and its counters agree with it.
-/

namespace Aegis.Memory

open Foundation GenerationalSlab.SlotChange Registry GenerationalSlab SlotId List BitVec Option

universe u

variable {T : Type u}

inductive SlabCall (T : Type u)
  | tryInsert (val : T)
  | get (slotId : SlotId)
  | remove (slotId : SlotId)
  | tryUpdate (slotId : SlotId) (update : T → T)

/-- The identifier that a call names. -/
def SlabCall.slotId? : SlabCall T → Option SlotId
  | .tryInsert _ => none
  | .get slotId | .remove slotId | .tryUpdate slotId _ => some slotId

/-- A slab and the registry of what its calls answered. -/
structure Tracked (T : Type u) where
  slab : GenerationalSlab T
  history : Registry SlotId T

namespace Tracked

variable [HasPayloadLen T]

def afterInsert (s : Tracked T) (val : T) : Except String SlotId × GenerationalSlab T → Tracked T
  | (.ok slotId, slab) => ⟨slab, s.history.add slotId val⟩
  | (.error _, slab) => ⟨slab, s.history⟩

def afterRemove (s : Tracked T) (slotId : SlotId) : Option T × GenerationalSlab T → Tracked T
  | (some _, slab) => ⟨slab, s.history.drop slotId⟩
  | (none, slab) => ⟨slab, s.history⟩

def afterUpdate (s : Tracked T) (slotId : SlotId) (update : T → T) :
    Except String Unit × GenerationalSlab T → Tracked T
  | (.ok _, slab) => ⟨slab, s.history.modify slotId update⟩
  | (.error _, slab) => ⟨slab, s.history⟩

def step (s : Tracked T) : SlabCall T → Tracked T
  | .tryInsert val => s.afterInsert val (s.slab.tryInsert val)
  | .get _ => s
  | .remove slotId => s.afterRemove slotId (s.slab.remove slotId)
  | .tryUpdate slotId update => s.afterUpdate slotId update (s.slab.tryUpdate slotId update)

/-- What the registry and the budget say to an insertion. -/
def insertResult (s : Tracked T) (val : T) : Except String Unit :=
  s.slab.layoutBudget.elim (.ok ())
    (·.checkInsert s.history.live.length (s.history.total payloadLen) (payloadLen val))

/-- What the registry and the budget say to an update. -/
def updateResult (s : Tracked T) (slotId : SlotId) (update : T → T) : Except String Unit :=
  match s.history.lookup slotId with
  | none => .error "slot not found"
  | some val =>
    s.slab.budgetResult slotId.unpack.2 (poolClassForPayloadLen (payloadLen (update val)))
      ((s.history.modify slotId update).total payloadLen)

/-- The slab answers a call as the registry and the budget do, and a removed value is gone. -/
def Answers (s : Tracked T) : SlabCall T → Prop
  | .tryInsert val => (s.slab.tryInsert val).1.map (fun _ => ()) = s.insertResult val
  | .get slotId => s.slab.get slotId = s.history.lookup slotId
  | .remove slotId =>
    (s.slab.remove slotId).1 = s.history.lookup slotId ∧ (s.slab.remove slotId).2.get slotId = none
  | .tryUpdate slotId update => (s.slab.tryUpdate slotId update).1 = s.updateResult slotId update

/-- The payload bytes that a call makes the slab hold, if only for a moment: an update stores its
value before it checks it, and an insertion under a budget checks first. -/
def attemptedBytes (s : Tracked T) : SlabCall T → Nat
  | .tryInsert val =>
    if s.slab.layoutBudget.isSome then 0 else s.history.total payloadLen + payloadLen val
  | .tryUpdate slotId update => (s.history.modify slotId update).total payloadLen
  | .get _ | .remove _ => 0

/-- A call names an identifier with the class code of a pool, and after it no size class has more
than `2 ^ 29` slots, no slot has been reused `2 ^ 32 - 1` times and the payload fits a word. -/
structure Fits (s : Tracked T) (call : SlabCall T) : Prop where
  canonical : ∀ slotId ∈ call.slotId?, slotId.Canonical
  slots : ∀ poolClass, ((s.step call).slab.pool poolClass).entries.length ≤ 2 ^ 29
  reuses : ∀ index, GenerationalSlab.uses (s.step call).history.issued index - 1 < 2 ^ 32 - 1
  payload : s.attemptedBytes call ≤ usizeMax

/-- The slab finds what the registry says, and its counters agree with the registry. -/
structure Refines (s : Tracked T) : Prop where
  sound : s.history.Sound
  indexed : s.slab.Indexed s.history.issued
  finds : ∀ slotId, slotId.Canonical → s.slab.get slotId = s.history.lookup slotId
  holds : ∀ weight, s.slab.total weight = s.history.total weight
  live : s.slab.liveLen = s.history.live.length
  bytes : s.slab.payloadBytes = s.history.total payloadLen
  bytes_le : s.history.total payloadLen ≤ usizeMax
  budget : ∀ budget, s.slab.layoutBudget = some budget →
    s.history.live.length ≤ budget.maxLiveSlots ∧
      s.history.total payloadLen ≤ budget.maxPayloadBytes

namespace Refines

variable {s : Tracked T}

theorem empty {slab : GenerationalSlab T}
    (pools : ∀ poolClass, ∃ capacity, slab.pool poolClass = .withCapacity capacity)
    (live : slab.liveLen = 0) (bytes : slab.payloadBytes = 0) : Refines ⟨slab, {}⟩ where
  sound := .empty
  indexed := by
    refine ⟨?_, nofun, ?_⟩
    · intro poolClass
      obtain ⟨capacity, empty⟩ := pools poolClass
      exact empty ▸ .withCapacity capacity
    · intro poolClass slot entry found
      obtain ⟨capacity, empty⟩ := pools poolClass
      rw [empty] at found
      exact nomatch found
  finds := by
    intro slotId canonical
    obtain ⟨capacity, empty⟩ := pools slotId.unpack.2
    simp [GenerationalSlab.get, empty, SlabPool.get, SlabPool.withCapacity, Registry.lookup]
  holds := by
    intro weight
    have none (poolClass : PoolClass) : (slab.pool poolClass).total weight = 0 := by
      obtain ⟨capacity, empty⟩ := pools poolClass
      simp [empty, SlabPool.total, SlabPool.values, SlabPool.withCapacity]
    have upTo32 := none .upTo32
    have upTo64 := none .upTo64
    have upTo128 := none .upTo128
    have upTo256 := none .upTo256
    have overflow := none .overflow
    simp only [GenerationalSlab.pool] at upTo32 upTo64 upTo128 upTo256 overflow
    simp [total_eq, Registry.total, upTo32, upTo64, upTo128, upTo256, overflow]
  live := live
  bytes := bytes
  bytes_le := Nat.zero_le _
  budget := fun _ _ => ⟨Nat.zero_le _, Nat.zero_le _⟩

section

variable (refines : s.Refines)
include refines

/-- Every live value has a slot, so the live values are far fewer than a word can count. -/
theorem live_lt : s.history.live.length < 2 ^ 32 := by
  have count := refines.holds fun _ => 1
  have pool_le (poolClass : PoolClass) : (s.slab.pool poolClass).total (fun _ => 1) ≤ 2 ^ 29 := by
    refine Nat.le_trans ?_ (refines.indexed.valid poolClass).small
    simp only [SlabPool.total, SlabPool.values, map_const', sum_replicate_nat,
      Nat.mul_one]
    exact length_filterMap_le _ _
  have upTo32 := pool_le .upTo32
  have upTo64 := pool_le .upTo64
  have upTo128 := pool_le .upTo128
  have upTo256 := pool_le .upTo256
  have overflow := pool_le .overflow
  simp only [GenerationalSlab.pool] at upTo32 upTo64 upTo128 upTo256 overflow
  rw [total_eq] at count
  simp only [Registry.total, map_const', sum_replicate_nat, Nat.mul_one] at count
  omega

/-- A value joins the slab and the registry. -/
theorem add {val : T} {poolClass : PoolClass} {slot : Nat}
    {generation : Generation} {pool : SlabPool T}
    (inserts : (s.slab.pool poolClass).Inserts val slot generation pool)
    (next : generation.get.toNat = GenerationalSlab.uses s.history.issued
      (packIndex (BitVec.ofNat 32 slot) poolClass) + 1)
    (fits : s.history.total payloadLen + payloadLen val ≤ usizeMax)
    (budget : ∀ budget, s.slab.layoutBudget = some budget →
      s.history.live.length + 1 ≤ budget.maxLiveSlots ∧
        s.history.total payloadLen + payloadLen val ≤ budget.maxPayloadBytes) :
    Refines
      ⟨s.slab.settle poolClass pool (wrappingAdd s.slab.liveLen 1)
        (wrappingAdd s.slab.payloadBytes (payloadLen val)),
        s.history.add (.new (BitVec.ofNat 32 slot) generation poolClass) val⟩ where
  sound := refines.sound.add (refines.indexed.fresh next)
  indexed := refines.indexed.add inserts next
  finds := by
    intro slotId canonical
    rw [(of_inserts _ _ inserts).get_eq canonical, lookup_add, refines.finds slotId canonical]
  holds := by
    intro weight
    have sum := s.slab.total_settle weight poolClass pool (wrappingAdd s.slab.liveLen 1)
      (wrappingAdd s.slab.payloadBytes (payloadLen val))
    rw [inserts.total, refines.holds] at sum
    rw [total_add]
    show GenerationalSlab.total weight (s.slab.settle _ _ _ _) = _
    omega
  live := by
    have live_lt := refines.live_lt
    show wrappingAdd s.slab.liveLen 1 = s.history.live.length + 1
    rw [refines.live, wrappingAdd, Nat.mod_eq_of_lt]
    exact Nat.lt_of_le_of_lt live_lt (by decide)
  bytes := by
    show wrappingAdd s.slab.payloadBytes (payloadLen val) = _
    rw [refines.bytes, wrappingAdd, Nat.mod_eq_of_lt (Nat.lt_succ_of_le fits), total_add,
      Nat.add_comm]
  bytes_le := by
    rw [total_add, Nat.add_comm]
    exact fits
  budget := by
    intro limit present
    rw [layoutBudget_settle] at present
    rw [total_add, Nat.add_comm]
    exact budget limit present

section

variable {slotId : SlotId} (canonical : slotId.Canonical) {val : T}
include canonical

/-- A value leaves the slab and the registry. -/
theorem drop (found : s.slab.get slotId = some val) {pool : SlabPool T}
    (replaces : (s.slab.pool slotId.unpack.2).Replaces val slotId.unpack.1.toNat
      slotId.generation none pool) :
    Refines
      ⟨s.slab.settle slotId.unpack.2 pool (s.slab.liveLen - 1)
        (s.slab.payloadBytes - payloadLen val), s.history.drop slotId⟩ := by
  have live : s.history.lookup slotId = some val :=
    (refines.finds slotId canonical).symm.trans found
  have length := refines.sound.length_drop live
  have bytes := refines.sound.total_drop payloadLen live
  have packed := new_unpack canonical
  refine ⟨refines.sound.drop, refines.indexed.replace replaces, ?_, ?_, ?_, ?_, ?_, ?_⟩
  · intro other canonicalOther
    rw [(of_replaces _ _ replaces slotId.unpack_lt).get_eq canonicalOther, ofNat_toNat,
      setWidth_eq, packed, lookup_drop, refines.finds other canonicalOther]
  · intro weight
    have sum := s.slab.total_settle weight slotId.unpack.2 pool (s.slab.liveLen - 1)
      (s.slab.payloadBytes - payloadLen val)
    have moved := replaces.total weight
    have dropped := refines.sound.total_drop weight live
    have before := refines.holds weight
    simp only [elim_none] at moved
    show GenerationalSlab.total weight (s.slab.settle _ _ _ _) =
      (s.history.drop slotId).total weight
    omega
  · show s.slab.liveLen - 1 = (s.history.drop slotId).live.length
    rw [refines.live]
    omega
  · show s.slab.payloadBytes - payloadLen val = (s.history.drop slotId).total payloadLen
    rw [refines.bytes]
    omega
  · have before := refines.bytes_le
    show (s.history.drop slotId).total payloadLen ≤ usizeMax
    omega
  · intro limit present
    rw [layoutBudget_settle] at present
    have before := refines.budget limit present
    show (s.history.drop slotId).live.length ≤ _ ∧ (s.history.drop slotId).total payloadLen ≤ _
    omega

/-- A value changes in the slab and in the registry. -/
theorem modify {update : T → T} (found : s.slab.get slotId = some val) {pool : SlabPool T}
    (replaces : (s.slab.pool slotId.unpack.2).Replaces val slotId.unpack.1.toNat
      slotId.generation (some (update val)) pool)
    (fits : s.slab.payloadBytes - payloadLen val + payloadLen (update val) ≤ usizeMax)
    (budget : ∀ budget, s.slab.layoutBudget = some budget →
      s.slab.payloadBytes - payloadLen val + payloadLen (update val) ≤ budget.maxPayloadBytes) :
    Refines
      ⟨s.slab.settle slotId.unpack.2 pool s.slab.liveLen
        (s.slab.payloadBytes - payloadLen val + payloadLen (update val)),
        s.history.modify slotId update⟩ := by
  have live : s.history.lookup slotId = some val :=
    (refines.finds slotId canonical).symm.trans found
  have length : (s.history.modify slotId update).live.length = s.history.live.length :=
    length_map _
  have bytes := refines.sound.total_modify (f := update) payloadLen live
  have dropped := refines.sound.total_drop payloadLen live
  have held := refines.bytes
  have packed := new_unpack canonical
  refine ⟨refines.sound.modify, refines.indexed.replace replaces, ?_, ?_, ?_, ?_, ?_, ?_⟩
  · intro other canonicalOther
    rw [(of_replaces _ _ replaces slotId.unpack_lt).get_eq canonicalOther, ofNat_toNat,
      setWidth_eq, packed, lookup_modify, refines.finds other canonicalOther]
    split
    · rename_i same
      rw [same, live, map_some]
    · rfl
  · intro weight
    have sum := s.slab.total_settle weight slotId.unpack.2 pool s.slab.liveLen
      (s.slab.payloadBytes - payloadLen val + payloadLen (update val))
    have moved := replaces.total weight
    have modified := refines.sound.total_modify (f := update) weight live
    have before := refines.holds weight
    simp only [elim_some] at moved
    show GenerationalSlab.total weight (s.slab.settle _ _ _ _) =
      (s.history.modify slotId update).total weight
    omega
  · exact refines.live.trans length.symm
  · show s.slab.payloadBytes - payloadLen val + payloadLen (update val) =
      (s.history.modify slotId update).total payloadLen
    omega
  · show (s.history.modify slotId update).total payloadLen ≤ usizeMax
    omega
  · intro limit present
    rw [layoutBudget_settle] at present
    have before := refines.budget limit present
    have allowed := budget limit present
    show (s.history.modify slotId update).live.length ≤ _ ∧
      (s.history.modify slotId update).total payloadLen ≤ _
    omega

/-- The byte count that an update leaves is the total of the modified registry. -/
theorem bytes_modify (update : T → T) (found : s.slab.get slotId = some val) :
    s.slab.payloadBytes - payloadLen val + payloadLen (update val) =
      (s.history.modify slotId update).total payloadLen := by
  have live : s.history.lookup slotId = some val :=
    (refines.finds slotId canonical).symm.trans found
  have modified := refines.sound.total_modify (f := update) payloadLen live
  have dropped := refines.sound.total_drop payloadLen live
  have held := refines.bytes
  omega

/-- An update that fits leaves a byte count that is a machine word. -/
theorem update_fits {update : T → T} (found : s.slab.get slotId = some val)
    (fits : s.Fits (.tryUpdate slotId update)) :
    s.slab.payloadBytes - payloadLen val + payloadLen (update val) ≤ usizeMax :=
  (refines.bytes_modify canonical update found).trans_le fits.payload

end

/-- A call leaves the slab as it was and the registry with it, or the slab follows the
registry. -/
theorem step (call : SlabCall T) (fits : s.Fits call) :
    (s.step call).Refines := by
  cases call with
  | tryInsert val =>
      obtain ⟨error, -, refused⟩ | ⟨allowed, done⟩ := tryInsert_cases s.slab val
      · have same : s.step (.tryInsert val) = s := congrArg (s.afterInsert val) refused
        exact same.symm ▸ refines
      · have after := congrArg (s.afterInsert val) done
        have slots := fits.slots (poolClassForPayloadLen (payloadLen val))
        have reuses := fits.reuses
        have payload := fits.payload
        rw [Tracked.step, after] at slots reuses
        simp only [afterInsert, pool_settle, if_true] at slots reuses
        obtain ⟨slot, number, inserts⟩ :=
          SlabPool.insert_inserts (refines.indexed.valid _) slots
        rw [Tracked.step, after]
        simp only [afterInsert, number] at reuses ⊢
        have count := reuses (packIndex (BitVec.ofNat 32 slot)
          (poolClassForPayloadLen (payloadLen val)))
        simp only [Registry.add, GenerationalSlab.Indexed.uses_concat, SlotId.new, if_true,
          Nat.add_sub_cancel] at count
        have within : ∀ budget, s.slab.layoutBudget = some budget →
            s.history.total payloadLen + payloadLen val ≤ usizeMax ∧
              s.history.live.length + 1 ≤ budget.maxLiveSlots ∧
              s.history.total payloadLen + payloadLen val ≤ budget.maxPayloadBytes := by
          intro budget present
          have checked := RuntimeLayoutBudget.checkInsert_ok_iff.mp
            (by simpa only [present, elim_some] using allowed)
          rw [refines.live, refines.bytes] at checked
          exact ⟨checked.2.2.1, checked.2.1.2, checked.2.2.2⟩
        refine refines.add inserts (refines.indexed.generation_eq inserts count) ?_
          fun budget present => (within budget present).2
        cases present : s.slab.layoutBudget with
        | none => simpa [attemptedBytes, present] using payload
        | some budget => exact (within budget present).1
  | get slotId => exact refines
  | remove slotId =>
      have canonical := fits.canonical slotId rfl
      obtain ⟨-, same⟩ | ⟨val, pool, found, replaces, done⟩ :=
        remove_cases refines.indexed.valid slotId
      · have same : s.step (.remove slotId) = s := congrArg (s.afterRemove slotId) same
        exact same.symm ▸ refines
      · rw [Tracked.step, done]
        exact refines.drop canonical found replaces
  | tryUpdate slotId update =>
      have canonical := fits.canonical slotId rfl
      obtain ⟨-, same⟩ | ⟨val, found, rest⟩ :=
        tryUpdate_cases refines.indexed.valid slotId update
      · have same : s.step (.tryUpdate slotId update) = s :=
          congrArg (s.afterUpdate slotId update) same
        exact same.symm ▸ refines
      · have fit := refines.update_fits canonical found fits
        obtain ⟨error, -, same⟩ | ⟨stands, pool, replaces, done⟩ := rest fit
        · have same : s.step (.tryUpdate slotId update) = s :=
            congrArg (s.afterUpdate slotId update) same
          exact same.symm ▸ refines
        · rw [Tracked.step, done]
          exact refines.modify canonical found replaces fit fun _ => le_of_budgetResult stands

/-- The answers of a call that fits are the registry's. -/
theorem answers (call : SlabCall T) (fits : s.Fits call) : s.Answers call := by
  cases call with
  | tryInsert val =>
      have counts : s.insertResult val = s.slab.layoutBudget.elim (.ok ())
          (·.checkInsert s.slab.liveLen s.slab.payloadBytes (payloadLen val)) := by
        rw [refines.live, refines.bytes]
        rfl
      show (s.slab.tryInsert val).1.map _ = s.insertResult val
      obtain ⟨error, failed, refused⟩ | ⟨allowed, done⟩ := tryInsert_cases s.slab val
      · rw [refused, counts, failed]
        rfl
      · rw [done, counts, allowed]
        rfl
  | get slotId => exact refines.finds slotId (fits.canonical slotId rfl)
  | remove slotId =>
      have canonical := fits.canonical slotId rfl
      have after := (refines.step (.remove slotId) fits).finds slotId canonical
      obtain ⟨missing, same⟩ | ⟨val, pool, found, -, done⟩ :=
        remove_cases refines.indexed.valid slotId
      · refine ⟨?_, by rw [same, missing]⟩
        rw [same, ← refines.finds slotId canonical, missing]
      · rw [Tracked.step, done, afterRemove, lookup_drop, if_pos rfl] at after
        refine ⟨?_, by rw [done, after]⟩
        rw [done, ← refines.finds slotId canonical, found]
  | tryUpdate slotId update =>
      have canonical := fits.canonical slotId rfl
      show (s.slab.tryUpdate slotId update).1 = s.updateResult slotId update
      rw [updateResult, ← refines.finds slotId canonical]
      obtain ⟨missing, same⟩ | ⟨val, found, rest⟩ :=
        tryUpdate_cases refines.indexed.valid slotId update
      · rw [same, missing]
      · have bytes := refines.bytes_modify canonical update found
        rw [found, ← bytes]
        obtain ⟨error, failed, same⟩ | ⟨stands, pool, -, done⟩ :=
          rest (refines.update_fits canonical found fits)
        · rw [same]
          exact failed.symm
        · rw [done]
          exact stands.symm

/-- No call changes the budget. -/
theorem layoutBudget_step (call : SlabCall T) (fits : s.Fits call) :
    (s.step call).slab.layoutBudget = s.slab.layoutBudget := by
  cases call with
  | tryInsert val =>
      obtain ⟨error, -, refused⟩ | ⟨-, done⟩ := tryInsert_cases s.slab val
      · rw [Tracked.step, refused, afterInsert]
      · rw [Tracked.step, done]
        exact layoutBudget_settle ..
  | get slotId => rfl
  | remove slotId =>
      obtain ⟨-, same⟩ | ⟨val, pool, -, -, done⟩ := remove_cases refines.indexed.valid slotId
      · rw [Tracked.step, same, afterRemove]
      · rw [Tracked.step, done]
        exact layoutBudget_settle ..
  | tryUpdate slotId update =>
      obtain ⟨-, same⟩ | ⟨val, found, rest⟩ :=
        tryUpdate_cases refines.indexed.valid slotId update
      · rw [Tracked.step, same, afterUpdate]
      · obtain ⟨error, -, same⟩ | ⟨-, pool, -, done⟩ :=
          rest (refines.update_fits (fits.canonical slotId rfl) found fits)
        · rw [Tracked.step, same, afterUpdate]
        · rw [Tracked.step, done]
          exact layoutBudget_settle ..

end

end Refines

/-- A run whose calls all fit. -/
theorem Refines.run {s : Tracked T} {calls : List (SlabCall T)} (refines : s.Refines)
    (fits : Along Tracked.step Fits s calls) : (Foundation.run Tracked.step s calls).Refines :=
  run_invariant_along (fun _ call refines => Refines.step refines call) fits refines

theorem Refines.layoutBudget_run {s : Tracked T} {calls : List (SlabCall T)} (refines : s.Refines)
    (fits : Along Tracked.step Fits s calls) :
    (Foundation.run Tracked.step s calls).slab.layoutBudget = s.slab.layoutBudget := by
  induction calls generalizing s with
  | nil => rfl
  | cons call calls ih =>
      have later := ih (refines.step call fits.1) fits.2
      exact later.trans (refines.layoutBudget_step call fits.1)

/-- An identifier that was handed out and finds nothing never finds anything again. -/
theorem Refines.gone_step {s : Tracked T} (refines : s.Refines) {slotId : SlotId}
    (issued : slotId ∈ s.history.issued) (gone : s.history.lookup slotId = none)
    (call : SlabCall T) (fits : s.Fits call) :
    slotId ∈ (s.step call).history.issued ∧ (s.step call).history.lookup slotId = none := by
  have after := (refines.step call fits).sound.distinct
  cases call with
  | tryInsert val =>
      simp only [Tracked.step] at after ⊢
      cases answer : s.slab.tryInsert val with
      | mk result slab =>
          cases result with
          | error error => exact ⟨issued, gone⟩
          | ok new =>
              rw [answer] at after
              have fresh : slotId ≠ new := by
                rintro rfl
                exact (nodup_append.mp after).2.2 slotId issued slotId
                  (mem_singleton_self _) rfl
              refine ⟨mem_append_left _ issued, ?_⟩
              simp only [afterInsert, lookup_add, if_neg fresh, gone]
  | get other => exact ⟨issued, gone⟩
  | remove other =>
      simp only [Tracked.step]
      cases answer : s.slab.remove other with
      | mk result slab =>
          cases result with
          | none => exact ⟨issued, gone⟩
          | some val =>
              refine ⟨issued, ?_⟩
              simp only [afterRemove, lookup_drop, gone, ite_self]
  | tryUpdate other update =>
      simp only [Tracked.step]
      cases answer : s.slab.tryUpdate other update with
      | mk result slab =>
          cases result with
          | error error => exact ⟨issued, gone⟩
          | ok done =>
              refine ⟨issued, ?_⟩
              simp only [afterUpdate, lookup_modify, gone, map_none, ite_self]

theorem Refines.gone {s : Tracked T} {calls : List (SlabCall T)} (refines : s.Refines)
    (fits : Along Tracked.step Fits s calls) {slotId : SlotId}
    (issued : slotId ∈ s.history.issued) (gone : s.history.lookup slotId = none) :
    (Foundation.run Tracked.step s calls).history.lookup slotId = none := by
  induction calls generalizing s with
  | nil => exact gone
  | cons call calls ih =>
      have next := refines.gone_step issued gone call fits.1
      exact ih (refines.step call fits.1) fits.2 next.1 next.2

end Tracked

namespace GenerationalSlab

/-- A slab as its constructors build it. -/
inductive Fresh : GenerationalSlab T → Prop
  | new : Fresh .new
  | withCapacity (capacity : Nat) : Fresh (.withCapacity capacity)
  | withLayoutBudget {budget : RuntimeLayoutBudget} {slab : GenerationalSlab T}
      (built : withLayoutBudget budget = .ok slab) : Fresh slab

variable [HasPayloadLen T]

/-- Whether a call answers with an error or finds nothing. -/
def fails (slab : GenerationalSlab T) : SlabCall T → Bool
  | .tryInsert val => (slab.tryInsert val).1.toOption.isNone
  | .get slotId => (slab.get slotId).isNone
  | .remove slotId => (slab.remove slotId).1.isNone
  | .tryUpdate slotId update => (slab.tryUpdate slotId update).1.toOption.isNone

def after (slab : GenerationalSlab T) : SlabCall T → GenerationalSlab T
  | .tryInsert val => (slab.tryInsert val).2
  | .get _ => slab
  | .remove slotId => (slab.remove slotId).2
  | .tryUpdate slotId update => (slab.tryUpdate slotId update).2

end GenerationalSlab

section Results

variable [HasPayloadLen T] {slab : GenerationalSlab T} {s : Tracked T}

theorem GenerationalSlab.Fresh.refines (fresh : slab.Fresh) : Tracked.Refines ⟨slab, {}⟩ := by
  cases fresh with
  | new => exact .empty (fun poolClass => ⟨0, by cases poolClass <;> rfl⟩) rfl rfl
  | withCapacity capacity =>
      exact .empty (fun poolClass => by cases poolClass <;> exact ⟨_, rfl⟩) rfl rfl
  | withLayoutBudget built =>
      simp only [GenerationalSlab.withLayoutBudget] at built
      split at built
      · cases built
      · cases built
        exact .empty (fun poolClass => by cases poolClass <;> exact ⟨_, rfl⟩) rfl rfl

/-- The sum that the slab computes over its values is the total of the registry. -/
theorem Tracked.Refines.totalPayloadBytes (refines : s.Refines) :
    s.slab.totalPayloadBytes = s.history.total payloadLen := by
  have wrapped (lengths : List Nat) (start : Nat) (fits : start + lengths.sum ≤ usizeMax) :
      lengths.foldl wrappingAdd start = start + lengths.sum := by
    induction lengths generalizing start with
    | nil => rfl
    | cons length lengths ih =>
        rw [sum_cons] at fits ⊢
        have step : wrappingAdd start length = start + length :=
          Nat.mod_eq_of_lt (by omega)
        rw [foldl_cons, step, ih _ (by omega), Nat.add_assoc]
  have held : (s.slab.iter.map payloadLen).sum = s.history.total payloadLen := refines.holds _
  simp only [GenerationalSlab.totalPayloadBytes]
  split
  · exact refines.bytes
  · rw [wrapped _ _ (by rw [held, Nat.zero_add]; exact refines.bytes_le), held, Nat.zero_add]

theorem Tracked.Refines.after_eq_of_fails (refines : s.Refines) (call : SlabCall T)
    (fits : s.Fits call) (failed : s.slab.fails call) : s.slab.after call = s.slab := by
  cases call with
  | tryInsert val =>
      obtain ⟨error, -, refused⟩ | ⟨-, done⟩ := tryInsert_cases s.slab val
      · exact congrArg Prod.snd refused
      · have succeeded := congrArg (fun answer => answer.1.toOption.isNone) done
        exact nomatch failed.symm.trans succeeded
  | get slotId => rfl
  | remove slotId =>
      obtain ⟨-, same⟩ | ⟨val, pool, -, -, done⟩ :=
        remove_cases refines.indexed.valid slotId
      · exact congrArg Prod.snd same
      · have succeeded := congrArg (fun answer => answer.1.isNone) done
        exact nomatch failed.symm.trans succeeded
  | tryUpdate slotId update =>
      obtain ⟨-, same⟩ | ⟨val, found, rest⟩ :=
        tryUpdate_cases refines.indexed.valid slotId update
      · exact congrArg Prod.snd same
      · obtain ⟨error, -, same⟩ | ⟨-, pool, -, done⟩ :=
          rest (refines.update_fits (fits.canonical slotId rfl) found fits)
        · exact congrArg Prod.snd same
        · have succeeded := congrArg (fun answer => answer.1.toOption.isNone) done
          exact nomatch failed.symm.trans succeeded

/-- A slab that only sees identifiers with the class code of a pool is a registry: it never
hands out an identifier twice, finds exactly the live ones, each with the value stored last,
counts them and their payload, and keeps its budget. It refuses a call exactly when the registry
and the budget do, a removal takes the value it returns, and a call that fails changes nothing. -/
theorem slab_refines_registry (fresh : slab.Fresh) (calls : List (SlabCall T))
    (fits : Along Tracked.step Tracked.Fits ⟨slab, {}⟩ calls) :
    let s := run Tracked.step (⟨slab, {}⟩ : Tracked T) calls
    s.history.issued.Nodup ∧
    (∀ slotId, slotId.Canonical → s.slab.get slotId = s.history.lookup slotId) ∧
    (∀ slotId ∈ s.history.issued, s.slab.get slotId = none →
      ∀ more, Along Tracked.step Tracked.Fits s more →
        (run Tracked.step s more).slab.get slotId = none) ∧
    s.slab.len = s.history.live.length ∧
    s.slab.totalPayloadBytes = s.history.total payloadLen ∧
    (∀ budget, s.slab.layoutBudget = some budget →
      s.slab.len ≤ budget.maxLiveSlots ∧ s.slab.totalPayloadBytes ≤ budget.maxPayloadBytes) ∧
    (∀ call, s.Fits call → s.slab.fails call → s.slab.after call = s.slab) ∧
    s.slab.layoutBudget = slab.layoutBudget ∧ ∀ call, s.Fits call → s.Answers call := by
  intro s
  have refines : s.Refines := fresh.refines.run fits
  refine ⟨refines.sound.distinct, refines.finds, ?_, refines.live, refines.totalPayloadBytes, ?_,
    refines.after_eq_of_fails, fresh.refines.layoutBudget_run fits, refines.answers⟩
  · intro slotId issued none more fitsMore
    have canonical := (refines.indexed.known slotId issued).1
    rw [refines.finds slotId canonical] at none
    rw [(refines.run fitsMore).finds slotId canonical]
    exact refines.gone fitsMore issued none
  · intro budget present
    rw [refines.totalPayloadBytes, GenerationalSlab.len, refines.live]
    exact refines.budget budget present

end Results

/-! ### Identifiers without a pool -/

/-- A call that names no identifier, made early in a run, fits when its pools and payload do. -/
theorem Tracked.Fits.of_few [HasPayloadLen T] {s : Tracked T} {call : SlabCall T}
    (canonical : ∀ slotId ∈ call.slotId?, slotId.Canonical)
    (slots : ∀ poolClass, ((s.step call).slab.pool poolClass).entries.length ≤ 2 ^ 29)
    (few : (s.step call).history.issued.length < 2 ^ 32 - 1)
    (payload : s.attemptedBytes call ≤ usizeMax) : s.Fits call := by
  refine ⟨canonical, slots, fun index => ?_, payload⟩
  have uses_le : GenerationalSlab.uses (s.step call).history.issued index ≤ _ :=
    countP_le_length
  omega

/-- A note comes, is read, and goes. -/
def noteCalls : List (SlabCall String) :=
  let slotId := SlotId.new 0 .first .upTo32
  [.tryInsert "note", .get slotId, .remove slotId]

theorem noteCalls_refine :
    (run Tracked.step ⟨.new, {}⟩ noteCalls).slab.len = 0 := by
  have refines := slab_refines_registry .new noteCalls
    ⟨.of_few nofun (by intro poolClass; cases poolClass <;> decide) (by decide) (by decide +kernel),
      .of_few (by decide) (by intro poolClass; cases poolClass <;> decide) (by decide) (by decide),
      .of_few (by decide) (by intro poolClass; cases poolClass <;> decide) (by decide) (by decide),
      trivial⟩
  exact refines.2.2.2.1.trans (by decide +kernel)

def longNote : String := String.ofList (List.replicate 300 'x')

/-- The slot of the overflow pool under a class code that no pool has. -/
def strayId : SlotId := ⟨0xA0000000, .first⟩

/-- An identifier that was never handed out may find a value: three class codes that no pool has
are read as the overflow pool. -/
theorem strayId_finds_value :
    ¬ ∀ (slab : GenerationalSlab String) (calls : List (SlabCall String)), slab.Fresh →
      Along Tracked.step Tracked.Fits ⟨slab, {}⟩ calls →
      ∀ slotId, (run Tracked.step ⟨slab, {}⟩ calls).slab.get slotId =
        (run Tracked.step ⟨slab, {}⟩ calls).history.lookup slotId := by
  intro refines
  have same := refines .new [.tryInsert longNote] .new
    ⟨.of_few nofun (by intro poolClass; cases poolClass <;> decide +kernel) (by decide +kernel)
      (by decide +kernel), trivial⟩ strayId
  revert same
  decide +kernel

end Aegis.Memory
