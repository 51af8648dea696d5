import AegisCognition.Foundation.Machine
import AegisCognition.Memory.SlabPool

/-!
# The generational slab

Five pools by payload length behind one kind of identifier, an optional budget, and counters of
the live values and of their payload bytes that are kept beside the pools.
-/

namespace Aegis.Memory

open Foundation

universe u

/-- Values whose payload has a length in bytes. -/
class HasPayloadLen (T : Type u) where
  payloadLen : T → Nat

export HasPayloadLen (payloadLen)

instance : HasPayloadLen String := ⟨String.utf8ByteSize⟩

/-- `usize::MAX` on the machines the source is built for. -/
abbrev usizeMax : Nat := u64Max

/-- The sum of two machine words, which wraps around. -/
def wrappingAdd (a b : Nat) : Nat :=
  (a + b) % (usizeMax + 1)

def runtimeLayoutPayloadAlignment : Nat := 64

structure RuntimeLayoutBudget where
  maxLiveSlots : Nat
  maxPayloadBytes : Nat
  payloadAlignment : Nat

namespace RuntimeLayoutBudget

def isValid (budget : RuntimeLayoutBudget) : Bool :=
  decide (0 < budget.maxLiveSlots) && decide (0 < budget.maxPayloadBytes) &&
    budget.payloadAlignment == runtimeLayoutPayloadAlignment

def checkInsert (budget : RuntimeLayoutBudget)
    (currentLiveSlots currentPayloadBytes incomingPayloadBytes : Nat) : Except String Unit :=
  if !budget.isValid then .error "invalid runtime layout budget"
  else
    match checkedAdd usizeMax currentLiveSlots 1 with
    | none => .error "runtime layout slot budget overflow"
    | some nextLiveSlots =>
      if budget.maxLiveSlots < nextLiveSlots then .error "runtime layout slot budget exceeded"
      else
        match checkedAdd usizeMax currentPayloadBytes incomingPayloadBytes with
        | none => .error "runtime layout payload byte budget overflow"
        | some nextPayloadBytes =>
          if budget.maxPayloadBytes < nextPayloadBytes then
            .error "runtime layout payload byte budget exceeded"
          else .ok ()

/-- An insertion that passes the check stays within the budget and within machine words. -/
theorem checkInsert_ok_iff {budget : RuntimeLayoutBudget} {slots bytes incoming : Nat} :
    budget.checkInsert slots bytes incoming = .ok () ↔
      budget.isValid ∧ (slots + 1 ≤ usizeMax ∧ slots + 1 ≤ budget.maxLiveSlots) ∧
        bytes + incoming ≤ usizeMax ∧ bytes + incoming ≤ budget.maxPayloadBytes := by
  simp only [checkInsert]
  by_cases valid : budget.isValid = true
  · by_cases slotsFit : slots + 1 ≤ usizeMax
    · by_cases bytesFit : bytes + incoming ≤ usizeMax
      · simp only [valid, checkedAdd, slotsFit, bytesFit, if_true]
        by_cases few : slots + 1 ≤ budget.maxLiveSlots
        · by_cases short : bytes + incoming ≤ budget.maxPayloadBytes
          · simp [few, short, Nat.not_lt.mpr few, Nat.not_lt.mpr short]
          · simp [few, short, Nat.not_lt.mpr few, Nat.not_le.mp short]
        · simp [few, Nat.not_le.mp few]
      · simp only [valid, checkedAdd, slotsFit, bytesFit, if_true, if_false]
        by_cases few : slots + 1 ≤ budget.maxLiveSlots
        · simp [Nat.not_lt.mpr few]
        · simp [Nat.not_le.mp few]
    · simp [valid, checkedAdd, slotsFit]
  · simp [valid]

end RuntimeLayoutBudget

structure GenerationalSlab (T : Type u) where
  pool32 : SlabPool T
  pool64 : SlabPool T
  pool128 : SlabPool T
  pool256 : SlabPool T
  poolOverflow : SlabPool T
  layoutBudget : Option RuntimeLayoutBudget
  liveLen : Nat
  payloadBytes : Nat

namespace GenerationalSlab

variable {T : Type u}

def withCapacity (capacity : Nat) : GenerationalSlab T :=
  let secondaryCapacity := min (max (capacity / 4) 1) capacity
  { pool32 := .withCapacity capacity
    pool64 := .withCapacity secondaryCapacity
    pool128 := .withCapacity secondaryCapacity
    pool256 := .withCapacity secondaryCapacity
    poolOverflow := .withCapacity secondaryCapacity
    layoutBudget := none
    liveLen := 0
    payloadBytes := 0 }

def new : GenerationalSlab T where
  pool32 := .new
  pool64 := .new
  pool128 := .new
  pool256 := .new
  poolOverflow := .new
  layoutBudget := none
  liveLen := 0
  payloadBytes := 0

def withLayoutBudget (budget : RuntimeLayoutBudget) : Except String (GenerationalSlab T) :=
  if !budget.isValid then .error "invalid runtime layout budget"
  else .ok { withCapacity budget.maxLiveSlots with layoutBudget := some budget }

def pool (slab : GenerationalSlab T) : PoolClass → SlabPool T
  | .upTo32 => slab.pool32
  | .upTo64 => slab.pool64
  | .upTo128 => slab.pool128
  | .upTo256 => slab.pool256
  | .overflow => slab.poolOverflow

def withPool (slab : GenerationalSlab T) (poolClass : PoolClass) (pool : SlabPool T) :
    GenerationalSlab T :=
  match poolClass with
  | .upTo32 => { slab with pool32 := pool }
  | .upTo64 => { slab with pool64 := pool }
  | .upTo128 => { slab with pool128 := pool }
  | .upTo256 => { slab with pool256 := pool }
  | .overflow => { slab with poolOverflow := pool }

def get (slab : GenerationalSlab T) (slotId : SlotId) : Option T :=
  let (index, poolClass) := slotId.unpack
  (slab.pool poolClass).get index slotId.generation

def getMutUntracked (slab : GenerationalSlab T) (slotId : SlotId) (update : T → T) :
    GenerationalSlab T :=
  let (index, poolClass) := slotId.unpack
  slab.withPool poolClass ((slab.pool poolClass).getMut index slotId.generation update)

variable [HasPayloadLen T]

section

variable (slab : GenerationalSlab T)

def insertUnchecked (val : T) (len : Nat) : SlotId × GenerationalSlab T :=
  let poolClass := poolClassForPayloadLen len
  let ((index, generation), pool) := (slab.pool poolClass).insert val
  (.new index generation poolClass, slab.withPool poolClass pool)

def tryInsert (val : T) : Except String SlotId × GenerationalSlab T :=
  let len := payloadLen val
  match slab.layoutBudget.elim (.ok ()) (·.checkInsert slab.liveLen slab.payloadBytes len) with
  | .error error => (.error error, slab)
  | .ok () =>
    let (slotId, slab) := slab.insertUnchecked val len
    (.ok slotId,
      { slab with
        liveLen := wrappingAdd slab.liveLen 1
        payloadBytes := wrappingAdd slab.payloadBytes len })

/-- Whether an update may stand: the value keeps its pool and the payload keeps its budget. -/
def budgetResult (oldPoolClass newPoolClass : PoolClass) (nextPayloadBytes : Nat) :
    Except String Unit :=
  if newPoolClass ≠ oldPoolClass then
    .error "runtime layout pool class change requires remove and insert"
  else
    match slab.layoutBudget with
    | some budget =>
      if budget.maxPayloadBytes < nextPayloadBytes then
        .error "runtime layout payload byte budget exceeded"
      else .ok ()
    | none => .ok ()

/-- The value is updated in place and put back when the update may not stand. The check for an
overflow of the byte count comes between the two and puts nothing back. -/
def tryUpdate (slotId : SlotId) (update : T → T) : Except String Unit × GenerationalSlab T :=
  match slab.get slotId with
  | none => (.error "slot not found", slab)
  | some oldValue =>
    let oldPoolClass := slotId.unpack.2
    let updated := slab.getMutUntracked slotId update
    match updated.get slotId with
    | none => (.error "slot not found", updated)
    | some newValue =>
      let newPoolClass := poolClassForPayloadLen (payloadLen newValue)
      let currentWithoutOld := updated.payloadBytes - payloadLen oldValue
      match checkedAdd usizeMax currentWithoutOld (payloadLen newValue) with
      | none => (.error "runtime layout payload byte budget overflow", updated)
      | some nextPayloadBytes =>
        match updated.budgetResult oldPoolClass newPoolClass nextPayloadBytes with
        | .error error => (.error error, updated.getMutUntracked slotId fun _ => oldValue)
        | .ok () => (.ok (), { updated with payloadBytes := nextPayloadBytes })

end

def remove (slab : GenerationalSlab T) (slotId : SlotId) : Option T × GenerationalSlab T :=
  let (index, poolClass) := slotId.unpack
  let (removed, pool) := (slab.pool poolClass).remove index slotId.generation
  let slab := slab.withPool poolClass pool
  match removed with
  | some value =>
    (removed,
      { slab with
        liveLen := slab.liveLen - 1
        payloadBytes := slab.payloadBytes - payloadLen value })
  | none => (removed, slab)

omit [HasPayloadLen T] in
def len (slab : GenerationalSlab T) : Nat := slab.liveLen

/-- The values, pool after pool. -/
def iter (slab : GenerationalSlab T) : List T :=
  slab.pool32.values ++ slab.pool64.values ++ slab.pool128.values ++ slab.pool256.values ++
    slab.poolOverflow.values

def totalPayloadBytes (slab : GenerationalSlab T) : Nat :=
  if slab.layoutBudget.isSome then slab.payloadBytes
  else (slab.iter.map payloadLen).foldl wrappingAdd 0

end GenerationalSlab

end Aegis.Memory
