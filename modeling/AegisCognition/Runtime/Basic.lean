import AegisCognition.Resource.Admission
import AegisCognition.Resource.Lane
import AegisCognition.Task.Ledger

/-!
# The authoritative runtime

The runtime owns the task ledger, the admission controller, the execution lanes and the
admission results that a poll for another task left behind. An operation returns its
result with the next runtime; the result `none` is a panic.

Cooperative admission lives beside this state and shares nothing with it, so its two
fields are left out.
-/

namespace Aegis.Runtime

open Std Foundation Resource Aegis.Task

inductive RuntimeAdmission where
  | admitted (token : ResourceLeaseToken)
  | queued (position : Nat) (reason : String)
  | rejected (reason : ResourceError)
  deriving DecidableEq

structure QueuedRuntimeAdmission where
  taskId : Nat
  attemptId : Nat
  admission : RuntimeAdmission

inductive RuntimeOutcome where
  | done
  | failed
  | retryWait
  | cancelled
  | timedOut
  deriving DecidableEq

inductive RuntimeError where
  | task (error : TaskLedgerError)
  | resource (error : ResourceError)
  | taskRequestMismatch
  | attemptMismatch
  | invalidTransition (status : TaskStatus)
  | invalidOutcome (text : String)
  | laneAccounting (lane : ExecutionLane)
  deriving DecidableEq

inductive AttemptKind where
  | initial
  | retry

section Debug

/-- None of the texts that reach it holds a character to escape. -/
def debugText (text : String) : String :=
  "\"" ++ text ++ "\""

def debugResourceError : ResourceError → String
  | .invalidRequest text => "InvalidRequest(" ++ debugText text ++ ")"
  | .capabilityDenied text => "CapabilityDenied(" ++ debugText text ++ ")"
  | .resourceUnavailable text => "ResourceUnavailable(" ++ debugText text ++ ")"
  | .deadlineExceeded => "DeadlineExceeded"
  | .resourceExhausted => "ResourceExhausted"
  | .unknownLease leaseId => "UnknownLease(" ++ toString leaseId ++ ")"
  | .invalidLeaseToken text => "InvalidLeaseToken(" ++ debugText text ++ ")"
  | .leaseFenced leaseId => "LeaseFenced(" ++ toString leaseId ++ ")"
  | .unsupportedControl text => "UnsupportedControl(" ++ debugText text ++ ")"

def debugLane : ExecutionLane → String
  | .io => "Io"
  | .cpu => "Cpu"
  | .pythonCognition => "PythonCognition"
  | .accelerator => "Accelerator"
  | .untrusted => "Untrusted"

/-- The derived debug form of an error, which the results of a drain embed. -/
def RuntimeError.debug : RuntimeError → String
  | .task error => "Task(" ++ error.debug ++ ")"
  | .resource error => "Resource(" ++ debugResourceError error ++ ")"
  | .taskRequestMismatch => "TaskRequestMismatch"
  | .attemptMismatch => "AttemptMismatch"
  | .invalidTransition status => "InvalidTransition(" ++ status.debug ++ ")"
  | .invalidOutcome text => "InvalidOutcome(" ++ debugText text ++ ")"
  | .laneAccounting lane => "LaneAccounting(" ++ debugLane lane ++ ")"

end Debug

def mapTransitionError : TaskLedgerError → RuntimeError
  | .invalidStatusTransition _ source _ => .invalidTransition source
  | other => .task other

/-- A request never outlives the hard deadline of its task. -/
def constrainRequestToTaskDeadline (request : ResourceRequest)
    (taskHardDeadlineMs : Option Nat) : ResourceRequest :=
  { request with
    deadlineMs :=
      match request.deadlineMs, taskHardDeadlineMs with
      | some requestDeadlineMs, some taskDeadlineMs => some (min requestDeadlineMs taskDeadlineMs)
      | none, taskDeadlineMs => taskDeadlineMs
      | requestDeadlineMs, none => requestDeadlineMs }

structure AuthoritativeRuntime where
  ledger : TaskLedger
  admission : AdmissionController
  lanes : ExecutionLaneRegistry
  pendingAdmissions : ExtTreeMap (Nat × Nat) RuntimeAdmission pairCompare
  deriving DecidableEq

namespace AuthoritativeRuntime

def new (deadlineHorizonMs : Nat) (profile : HardwareProfile) : AuthoritativeRuntime where
  ledger := .new deadlineHorizonMs
  admission := .fromHardware profile
  lanes := .forProfile profile
  pendingAdmissions := ∅

section

variable (runtime : AuthoritativeRuntime)

/-- The checks that come before a lane is acquired. `none` lets the attempt through. -/
def attemptRefusal (request : ResourceRequest) (nowMs : Nat) (attemptKind : AttemptKind) :
    Option (Except RuntimeError RuntimeAdmission) :=
  match runtime.ledger.task request.taskId with
  | none => some (.error (.task (.missingTask request.taskId)))
  | some task =>
      match attemptKind with
      | .initial =>
          if task.status ≠ .ready then some (.error (.invalidTransition task.status))
          else if request.attemptId ≠ task.attemptId then some (.error .attemptMismatch)
          else
            match runtime.ledger.validateStatusTransition request.taskId .admitted with
            | .error error => some (.error (mapTransitionError error))
            | .ok () =>
                if TaskStatus.canTransitionTo .admitted .running then none
                else some (.error (.invalidTransition .admitted))
      | .retry =>
          if task.status ≠ .retryWait then some (.error (.invalidTransition task.status))
          else if checkedAdd u64Max task.attemptId 1 ≠ some request.attemptId then
            some (.error .attemptMismatch)
          else if task.deadlinePassed nowMs then some (.ok (.rejected .deadlineExceeded))
          else if task.backoffPending nowMs then
            some (.ok (.rejected (.resourceUnavailable "retry backoff has not elapsed")))
          else
            match runtime.ledger.validateRetryStart request.taskId request.attemptId nowMs with
            | .error error => some (.error (.task error))
            | .ok () => none

/-- The ledger transitions that follow a granted lease. -/
def startAttempt (ledger : TaskLedger) (lease : ResourceLease) (nowMs : Nat) :
    AttemptKind → Except TaskLedgerError Unit × TaskLedger
  | .initial =>
      match ledger.transitionStatus lease.taskId .admitted with
      | (.error error, next) => (.error error, next)
      | (.ok (), next) => next.transitionStatus lease.taskId .running
  | .retry => ledger.startRetryAttempt lease.taskId lease.attemptId nowMs

def admitExisting (request : ResourceRequest) (nowMs : Nat) (attemptKind : AttemptKind) :
    Option (Except RuntimeError RuntimeAdmission) × AuthoritativeRuntime :=
  match runtime.attemptRefusal request nowMs attemptKind with
  | some refusal => (some refusal, runtime)
  | none =>
      let lane := laneForWorkKind request.workKind
      match runtime.lanes.tryAcquire lane with
      | (false, lanes) =>
          match runtime.admission.enqueue request nowMs with
          | (.error error, admission) =>
              (some (.error (.resource error)),
                { runtime with lanes := lanes, admission := admission })
          | (.ok position, admission) =>
              (some (.ok (.queued position "execution lane at bounded capacity")),
                { runtime with lanes := lanes, admission := admission })
      | (true, lanes) =>
          match runtime.admission.admitRequest request nowMs with
          | (none, admission) =>
              (none, { runtime with lanes := lanes, admission := admission })
          | (some (.admitted lease), admission) =>
              match startAttempt runtime.ledger lease nowMs attemptKind with
              | (.error error, ledger) =>
                  (some (.error (.task error)),
                    { runtime with
                      ledger := ledger
                      admission := (admission.release lease.leaseId).2
                      lanes := (lanes.release lane).2 })
              | (.ok (), ledger) =>
                  (some (.ok (.admitted (.fromLease lease))),
                    { runtime with ledger := ledger, admission := admission, lanes := lanes })
          | (some (.queued position reason), admission) =>
              (some (.ok (.queued position reason)),
                { runtime with admission := admission, lanes := (lanes.release lane).2 })
          | (some (.rejected reason), admission) =>
              (some (.ok (.rejected reason)),
                { runtime with admission := admission, lanes := (lanes.release lane).2 })

def submit (task : TaskCard) (request : ResourceRequest) (nowMs : Nat) :
    Option (Except RuntimeError RuntimeAdmission) × AuthoritativeRuntime :=
  if task.taskId ≠ request.taskId then (some (.error .taskRequestMismatch), runtime)
  else if task.attemptId ≠ request.attemptId then (some (.error .attemptMismatch), runtime)
  else if task.status ≠ .pending then
    (some (.error (.invalidTransition task.status)), runtime)
  else
    let request := constrainRequestToTaskDeadline request task.hardDeadlineMs
    match runtime.ledger.insertTask task with
    | (.error error, ledger) => (some (.error (.task error)), { runtime with ledger := ledger })
    | (.ok (), ledger) =>
        match ledger.transitionStatus request.taskId .ready with
        | (.error error, ledger) =>
            (some (.error (.task error)), { runtime with ledger := ledger })
        | (.ok (), ledger) =>
            { runtime with ledger := ledger }.admitExisting request nowMs .initial

/-- Forget the result that is kept for a task attempt. -/
def dropPending (key : Nat × Nat) : AuthoritativeRuntime :=
  { runtime with pendingAdmissions := runtime.pendingAdmissions.erase key }

/-- A rejection that is kept for an attempt is consumed when its owner tries again. -/
def consumeRejection (key : Nat × Nat) : AuthoritativeRuntime :=
  match runtime.pendingAdmissions[key]? with
  | some (.rejected _) => runtime.dropPending key
  | _ => runtime

end

def retry (runtime : AuthoritativeRuntime) (taskId : Nat) (request : ResourceRequest)
    (nowMs : Nat) : Option (Except RuntimeError RuntimeAdmission) × AuthoritativeRuntime :=
  if request.taskId ≠ taskId then (some (.error .taskRequestMismatch), runtime)
  else
    match runtime.ledger.task taskId with
    | none => (some (.error (.task (.missingTask taskId))), runtime)
    | some task =>
        if task.status ≠ .retryWait then
          (some (.error (.invalidTransition task.status)), runtime)
        else if checkedAdd u64Max task.attemptId 1 ≠ some request.attemptId then
          (some (.error .attemptMismatch), runtime)
        else
          let request := constrainRequestToTaskDeadline request task.hardDeadlineMs
          let key := (taskId, request.attemptId)
          let runtime := runtime.consumeRejection key
          match runtime.admission.queuedAttempt taskId request.attemptId with
          | some (position, queued) =>
              if queued = request then
                (some (.ok (.queued position "retry attempt is already queued")),
                  runtime.dropPending key)
              else
                (some (.error (.resource (.invalidRequest
                  "queued retry attempt already has a different resource request"))), runtime)
          | none => (runtime.dropPending key).admitExisting request nowMs .retry

section

variable (runtime : AuthoritativeRuntime)

def queuedAttemptKind (request : ResourceRequest) : Except RuntimeError AttemptKind :=
  match runtime.ledger.task request.taskId with
  | none => .error (.task (.missingTask request.taskId))
  | some task =>
      if task.status = .ready ∧ request.attemptId = task.attemptId then .ok .initial
      else if task.status = .retryWait ∧
          checkedAdd u64Max task.attemptId 1 = some request.attemptId then .ok .retry
      else if task.status = .ready ∨ task.status = .retryWait then .error .attemptMismatch
      else .error (.invalidTransition task.status)

/-- How one iteration of a drain ends: without a result, with a result after which the
loop goes on or stops, or in a panic. -/
inductive DrainProgress where
  | stop
  | yield (result : QueuedRuntimeAdmission) (proceed : Bool)
  | panicked

/-- The runtime after the front entry of its queue is taken off. -/
def dropFront : AuthoritativeRuntime :=
  { runtime with admission := runtime.admission.popQueued.2 }

def isQueued : RuntimeAdmission → Bool
  | .queued _ _ => true
  | _ => false

/-- The last part of an iteration: the front entry is taken off and tried again. -/
def readmitFront (request : ResourceRequest) (nowMs : Nat) (attemptKind : AttemptKind) :
    DrainProgress × AuthoritativeRuntime :=
  match runtime.dropFront.admitExisting request nowMs attemptKind with
  | (none, next) => (.panicked, next)
  | (some outcome, next) =>
      let admission := match outcome with
        | .ok admission => admission
        | .error error => .rejected (.resourceUnavailable
            ("queued task state could not be restored: " ++ error.debug))
      (.yield ⟨request.taskId, request.attemptId, admission⟩ (!isQueued admission), next)

/-- One iteration of the loop of `drain_queued`. -/
def drainOnce (nowMs : Nat) : DrainProgress × AuthoritativeRuntime :=
  match runtime.admission.peekQueued with
  | none => (.stop, runtime)
  | some request =>
      match runtime.queuedAttemptKind request with
      | .error error =>
          (.yield ⟨request.taskId, request.attemptId, .rejected (.resourceUnavailable
            ("queued task state could not be restored: " ++ error.debug))⟩ true,
            runtime.dropFront)
      | .ok .initial => runtime.readmitFront request nowMs .initial
      | .ok .retry =>
          match runtime.ledger.task request.taskId with
          -- `expect("queued retry task was validated above")`
          | none => (.panicked, runtime)
          | some task =>
              if task.deadlinePassed nowMs then
                let (transition, ledger) :=
                  runtime.ledger.transitionStatus request.taskId .timedOut
                let reason := match transition with
                  | .ok () => .deadlineExceeded
                  | .error error => .resourceUnavailable
                      ("expired queued retry could not be timed out: " ++ error.debug)
                (.yield ⟨request.taskId, request.attemptId, .rejected reason⟩ true,
                  { runtime.dropFront with ledger := ledger })
              else if task.backoffPending nowMs then (.stop, runtime)
              else runtime.readmitFront request nowMs .retry

end

def drainLoop (nowMs : Nat) : Nat → AuthoritativeRuntime →
    Option (List QueuedRuntimeAdmission) × AuthoritativeRuntime
  | 0, runtime => (some [], runtime)
  | remaining + 1, runtime =>
      match runtime.drainOnce nowMs with
      | (.stop, next) => (some [], next)
      | (.panicked, next) => (none, next)
      | (.yield result false, next) => (some [result], next)
      | (.yield result true, next) =>
          let (results, last) := drainLoop nowMs remaining next
          (results.map (result :: ·), last)

section

variable (runtime : AuthoritativeRuntime)

/-- The loop makes as many iterations as the queue had entries when it began. -/
def drainQueued (nowMs : Nat) : Option (List QueuedRuntimeAdmission) × AuthoritativeRuntime :=
  drainLoop nowMs runtime.admission.queuedRequests.length runtime

/-- One result of a drain is handed to the polling task, or kept for its owner. -/
def deliver (key : Nat × Nat)
    (acc : Option RuntimeAdmission × ExtTreeMap (Nat × Nat) RuntimeAdmission pairCompare)
    (result : QueuedRuntimeAdmission) :
    Option RuntimeAdmission × ExtTreeMap (Nat × Nat) RuntimeAdmission pairCompare :=
  if (result.taskId, result.attemptId) = key ∧ acc.1.isNone then
    (some result.admission, acc.2)
  else (acc.1, acc.2.insert (result.taskId, result.attemptId) result.admission)

def pollQueued (taskId attemptId nowMs : Nat) :
    Option (Option RuntimeAdmission) × AuthoritativeRuntime :=
  let key := (taskId, attemptId)
  match runtime.pendingAdmissions[key]? with
  | some admission => (some (some admission), runtime.dropPending key)
  | none =>
      match runtime.drainQueued nowMs with
      | (none, next) => (none, next)
      | (some results, next) =>
          let (target, pending) := results.foldl (deliver key) (none, next.pendingAdmissions)
          (some target, { next with pendingAdmissions := pending })

/-- The part of `cancel_queued` that follows its checks of the task. -/
def withdrawQueued (taskId attemptId : Nat) : Except RuntimeError Bool × AuthoritativeRuntime :=
  match runtime.admission.removeQueued taskId attemptId with
  | (false, admission) => (.ok false, { runtime with admission := admission })
  | (true, admission) =>
      let cleared := { runtime with admission := admission }.dropPending (taskId, attemptId)
      match cleared.ledger.transitionStatus taskId .cancelled with
      | (.error error, ledger) => (.error (.task error), { cleared with ledger := ledger })
      | (.ok (), ledger) => (.ok true, { cleared with ledger := ledger })

def cancelQueued (taskId attemptId : Nat) : Except RuntimeError Bool × AuthoritativeRuntime :=
  match runtime.pendingAdmissions[(taskId, attemptId)]? with
  | some (.admitted _) => (.ok false, runtime)
  | _ =>
      match runtime.ledger.task taskId with
      | none => (.error (.task (.missingTask taskId)), runtime)
      | some task =>
          let isInitial := task.status = .ready ∧ task.attemptId = attemptId
          let isRetry := task.status = .retryWait ∧
            checkedAdd u64Max task.attemptId 1 = some attemptId
          if ¬ isInitial ∧ ¬ isRetry then
            if task.attemptId = attemptId then (.ok false, runtime)
            else (.error .attemptMismatch, runtime)
          else runtime.withdrawQueued taskId attemptId

/-- Both transitions and both counters are checked before `Cancelling` becomes visible. -/
def cancelAndRelease (token : ResourceLeaseToken) :
    Except RuntimeError Unit × AuthoritativeRuntime :=
  match runtime.admission.inspectToken token with
  | .error error => (.error (.resource error), runtime)
  | .ok lease =>
      match runtime.ledger.validateStatusTransition lease.taskId .cancelling with
      | .error error => (.error (mapTransitionError error), runtime)
      | .ok () =>
          let lane := laneForWorkKind lease.workKind
          if TaskStatus.canTransitionTo .cancelling .cancelled = false then
            (.error (.invalidTransition .cancelling), runtime)
          else if runtime.lanes.canRelease lane = false then
            (.error (.laneAccounting lane), runtime)
          else
            match runtime.ledger.transitionStatus lease.taskId .cancelling with
            | (.error error, ledger) =>
                (.error (.task error), { runtime with ledger := ledger })
            | (.ok (), ledger) =>
                let reconcile := (ledger.transitionStatus lease.taskId .needsReconciliation).2
                match runtime.admission.releaseFenced token with
                | (.error error, admission) =>
                    (.error (.resource error),
                      { runtime with ledger := reconcile, admission := admission })
                | (.ok _, admission) =>
                    match runtime.lanes.release lane with
                    | (false, lanes) =>
                        (.error (.laneAccounting lane),
                          { runtime with
                            ledger := reconcile, admission := admission, lanes := lanes })
                    | (true, lanes) =>
                        let (transition, ledger) :=
                          ledger.transitionStatus lease.taskId .cancelled
                        (transition.mapError .task,
                          { runtime with
                            ledger := ledger, admission := admission, lanes := lanes })

/-- Every subsystem is validated before any of them is changed. -/
def releaseAndTransition (token : ResourceLeaseToken) (target : TaskStatus)
    (retryNotBeforeMs : Option Nat) :
    Except RuntimeError Unit × AuthoritativeRuntime :=
  match runtime.admission.inspectToken token with
  | .error error => (.error (.resource error), runtime)
  | .ok lease =>
      let validation := match retryNotBeforeMs with
        | some notBeforeMs => runtime.ledger.validateRetryWait lease.taskId notBeforeMs
        | none => runtime.ledger.validateStatusTransition lease.taskId target
      match validation with
      | .error error => (.error (mapTransitionError error), runtime)
      | .ok () =>
          let lane := laneForWorkKind lease.workKind
          if runtime.lanes.canRelease lane = false then (.error (.laneAccounting lane), runtime)
          else
            match runtime.admission.releaseFenced token with
            | (.error error, admission) =>
                (.error (.resource error), { runtime with admission := admission })
            | (.ok _, admission) =>
                match runtime.lanes.release lane with
                | (false, lanes) =>
                    (.error (.laneAccounting lane),
                      { runtime with admission := admission, lanes := lanes })
                | (true, lanes) =>
                    let (transition, ledger) := match retryNotBeforeMs with
                      | some notBeforeMs =>
                          runtime.ledger.scheduleRetryWait lease.taskId notBeforeMs
                      | none => runtime.ledger.transitionStatus lease.taskId target
                    (transition.mapError .task,
                      { runtime with
                        ledger := ledger, admission := admission, lanes := lanes })

/-- When the next attempt of a failed task may start, if the policy allows one and it
would start before the hard deadline. -/
def retryStart (task : TaskCard) (taskId nowMs : Nat) : Option Nat :=
  ((runtime.ledger.retryDelayAfterCurrentAttempt taskId).bind
    (checkedAdd u64Max nowMs)).filter fun dueMs => !task.deadlinePassed dueMs

/-- `finish_at` once a lease that outlived its deadline has been turned into a time-out. -/
def settle (token : ResourceLeaseToken) (nowMs : Nat) :
    RuntimeOutcome → Except RuntimeError Unit × AuthoritativeRuntime
  | .cancelled => runtime.cancelAndRelease token
  | .done => runtime.releaseAndTransition token .done none
  | .failed => runtime.releaseAndTransition token .failed none
  | .timedOut => runtime.releaseAndTransition token .timedOut none
  | .retryWait =>
      match runtime.admission.inspectToken token with
      | .error error => (.error (.resource error), runtime)
      | .ok lease =>
          match runtime.ledger.task lease.taskId with
          | none => (.error (.task (.missingTask lease.taskId)), runtime)
          | some task =>
              match runtime.retryStart task lease.taskId nowMs with
              | some notBeforeMs =>
                  runtime.releaseAndTransition token .retryWait (some notBeforeMs)
              | none => runtime.releaseAndTransition token .failed none

def finishAt (token : ResourceLeaseToken) (outcome : RuntimeOutcome) (nowMs : Nat) :
    Except RuntimeError Unit × AuthoritativeRuntime :=
  if outcome = .cancelled then runtime.settle token nowMs outcome
  else
    match runtime.admission.inspectToken token with
    | .error error => (.error (.resource error), runtime)
    | .ok lease =>
        runtime.settle token nowMs (if lease.isExpired nowMs then .timedOut else outcome)

/-- One lease of `reap_expired`, with the number of leases reclaimed so far. -/
def reapOne (nowMs : Nat) (acc : Nat × AuthoritativeRuntime) (token : ResourceLeaseToken) :
    Nat × AuthoritativeRuntime :=
  match acc.2.finishAt token .timedOut nowMs with
  | (.ok (), next) => (acc.1 + 1, next)
  | (.error _, next) => (acc.1, next)

def reapExpired (nowMs : Nat) : Nat × AuthoritativeRuntime :=
  (runtime.admission.expiredTokens nowMs).foldl (reapOne nowMs) (0, runtime)

def observeResourceSample (sample : ResourceUsageSample) :
    CapacityFeedback × AuthoritativeRuntime :=
  let (feedback, admission) := runtime.admission.capacityFeedback sample
  (feedback, { runtime with admission := admission })

end

end AuthoritativeRuntime

/-- One call on the runtime with its arguments. `finish` reads the clock, so the time is
one of them. -/
inductive RuntimeOp where
  | submit (task : TaskCard) (request : ResourceRequest) (nowMs : Nat)
  | retry (taskId : Nat) (request : ResourceRequest) (nowMs : Nat)
  | finish (token : ResourceLeaseToken) (outcome : RuntimeOutcome) (nowMs : Nat)
  | drainQueued (nowMs : Nat)
  | pollQueued (taskId attemptId nowMs : Nat)
  | cancelQueued (taskId attemptId : Nat)
  | reapExpired (nowMs : Nat)
  | observeResourceSample (sample : ResourceUsageSample)

namespace AuthoritativeRuntime

def step (runtime : AuthoritativeRuntime) : RuntimeOp → AuthoritativeRuntime
  | .submit task request nowMs => (runtime.submit task request nowMs).2
  | .retry taskId request nowMs => (runtime.retry taskId request nowMs).2
  | .finish token outcome nowMs => (runtime.finishAt token outcome nowMs).2
  | .drainQueued nowMs => (runtime.drainQueued nowMs).2
  | .pollQueued taskId attemptId nowMs => (runtime.pollQueued taskId attemptId nowMs).2
  | .cancelQueued taskId attemptId => (runtime.cancelQueued taskId attemptId).2
  | .reapExpired nowMs => (runtime.reapExpired nowMs).2
  | .observeResourceSample sample => (runtime.observeResourceSample sample).2

end AuthoritativeRuntime

end Aegis.Runtime
