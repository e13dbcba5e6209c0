import FakeNetNG.OrderedDict
import Mathlib.Data.Finset.Basic

/-!
# The mutation coordinator

A submission runs in three sections: it is checked and accepted under the metadata lock, its
callback runs without the lock, and its end is recorded under the lock again. Each of the two
locked sections is one function here, and so is every other method that takes the lock.
-/

namespace FakeNetNG
namespace Coordination

def commandCacheLimit : ℕ := 256

/-- The service states that the coordinator and its callers use. -/
inductive ServiceState
  | stopped | starting | healthy | degraded | failed | recovering
  deriving DecidableEq

/-- What `submit` is called with. Of `describe` only the verification id is read, and no
conflict names means that the operation conflicts with every other. -/
structure Request where
  commandId : String
  expectedVersion : ℤ
  controller : Option String
  controllerValid : Bool
  kind : String
  verificationId : Option String
  internal : Bool
  conflictNames : Option (Finset String)
  requestIdentity : Option String
  deriving DecidableEq

structure Verification where
  content : String
  verificationId : Option String
  deriving DecidableEq

/-- A response. The optional fields are keys that only some responses have. -/
structure Response where
  state : ServiceState
  stateVersion : ℤ
  runId : Option String
  changed : Bool
  commandId : String
  inProgress : Bool
  replayed : Bool
  lastRunOutcome : Option String
  boundRunId : Option String
  configIdentity : Option String
  configResult : Option String
  verification : Option Verification
  verificationId : Option String
  captureCheckpoint : Option String
  releaseController : Option Bool
  deriving DecidableEq

/-- A cache entry. The exception is there once the command has failed. -/
structure Record where
  controller : Option String
  kind : String
  requestIdentity : Option String
  response : Response
  exception : Option String
  deriving DecidableEq

/-- What the callback returns. The run id and the last outcome may be given as `None`. -/
structure Result where
  state : Option ServiceState
  runId : Option (Option String)
  failureReason : Option String
  controller : Option String
  releaseController : Option Bool
  changed : Option Bool
  configIdentity : Option String
  lastRunOutcome : Option (Option String)
  boundRunId : Option String
  configResult : Option String
  verification : Option Verification
  captureCheckpoint : Option String

inductive Rejection
  | controlledShutdown
  | invalidIdentity
  | activeController (active : String)
  | missingIdentity
  | missingRequestIdentity
  | foreignCommand
  | otherKind (cached incoming : String)
  | otherRequest (cached incoming : String)
  | operationBusy (kind commandId : String)
  | stateConflict (expected current : ℤ)
  deriving DecidableEq

namespace Rejection

def code : Rejection → String
  | controlledShutdown => "not_allowed_in_state"
  | invalidIdentity => "controller_identity_missing"
  | activeController _ => "controller_conflict"
  | missingIdentity => "controller_identity_missing"
  | missingRequestIdentity => "invalid_request"
  | foreignCommand => "controller_conflict"
  | otherKind _ _ => "invalid_request"
  | otherRequest _ _ => "invalid_request"
  | operationBusy _ _ => "operation_busy"
  | stateConflict _ _ => "state_conflict"

def message : Rejection → String
  | controlledShutdown => "service is in controlled shutdown; new mutations rejected"
  | invalidIdentity => "mutation requires a valid X-FakeNet-Controller-ID header"
  | activeController _ => "another controller owns the active run"
  | missingIdentity => "mutation requires controller identity"
  | missingRequestIdentity => "verification requires a non-empty semantic request identity"
  | foreignCommand => "command_id belongs to another controller"
  | otherKind _ _ => "command_id belongs to another kind"
  | otherRequest _ _ => "command_id reused with different request"
  | operationBusy _ _ => "another mutation is executing"
  | stateConflict _ _ => "expected_state_version does not match current state"

end Rejection

/-- How the first section of a submission ends. Only an accepted one runs its callback. -/
inductive Reply
  | rejected (rejection : Rejection)
  | raised (exception : String)
  | replay (response : Response)
  | accepted
  deriving DecidableEq

structure Coordinator where
  state : ServiceState
  stateVersion : ℤ
  runId : Option String
  controller : Option String
  failureReason : Option String
  configIdentity : Option String
  commands : Dict String Record
  draining : Bool
  lastRunOutcome : Option String
  operationActive : Bool
  activeOperations : Dict String (Option (Finset String))
  exitFenced : Finset String
  exitFailure : Option String
  idleRecovery : Bool
  idleRecoveryRunning : Bool

namespace Coordinator

def start : Coordinator where
  state := .stopped
  stateVersion := 1
  runId := none
  controller := none
  failureReason := none
  configIdentity := none
  commands := Dict.empty
  draining := false
  lastRunOutcome := none
  operationActive := false
  activeOperations := Dict.empty
  exitFenced := ∅
  exitFailure := none
  idleRecovery := false
  idleRecoveryRunning := false

/-- Two scopes conflict when they share a name or when one of them is everything. -/
def conflict : Option (Finset String) → Option (Finset String) → Bool
  | some names,some others => ¬ Disjoint names others
  | _,_ => true

def activeConflicts (s : Coordinator) (conflictNames : Option (Finset String)) : Bool :=
  if s.activeOperations.size = 0 then
    false
  else if s.state ≠ .stopped ∨ s.controller ≠ none then
    true
  else
    s.activeOperations.values.any fun names => conflict names conflictNames

/-- Starts the retained recovery unless an operation is active or it runs already. -/
def dispatchIdleRecovery (s : Coordinator) : Coordinator :=
  if s.activeOperations.size ≠ 0 ∨ ¬ s.idleRecovery ∨ s.idleRecoveryRunning then
    s
  else
    { s with idleRecoveryRunning := true }

def completed (s : Coordinator) : List String :=
  s.commands.keys.filter fun key => !s.activeOperations.contains key

def trim (s : Coordinator) : Coordinator :=
  let evicted := s.completed.take (s.completed.length-commandCacheLimit)
  { s with commands := s.commands.filter fun key _ => key ∉ evicted }

def popActive (s : Coordinator) (commandId : String) : Coordinator :=
  let active := s.activeOperations.pop commandId
  { s with activeOperations := active, operationActive := active.size ≠ 0 }

def finishOperation (s : Coordinator) (commandId : String) : Coordinator :=
  ((s.popActive commandId).dispatchIdleRecovery).trim

def gate (s : Coordinator) (q : Request) : Option Rejection :=
  if (s.draining ∨ s.state = .recovering ∨ s.idleRecovery) ∧ ¬ q.internal then
    some .controlledShutdown
  else if ¬ q.controllerValid then
    some .invalidIdentity
  else
    match s.controller with
    | some active =>
        if q.controller ≠ some active then some (.activeController active) else gateRequest q
    | none => gateRequest q
where
  gateRequest (q : Request) : Option Rejection :=
    if q.controller = none ∧ ¬ q.internal then
      some .missingIdentity
    else if q.kind = "verify_egress" ∧ (q.requestIdentity = none ∨ q.requestIdentity = some "") then
      some .missingRequestIdentity
    else
      none

def replay (cached : Record) (q : Request) : Reply :=
  if cached.controller ≠ q.controller then
    .rejected .foreignCommand
  else if cached.kind ≠ q.kind ∧ (q.kind = "verify_egress" ∨ cached.kind = "verify_egress") then
    .rejected (.otherKind cached.kind q.kind)
  else
    match cached.requestIdentity,q.requestIdentity with
    | some identity,some incoming =>
        if identity ≠ incoming then .rejected (.otherRequest identity incoming) else answer cached
    | _,_ => answer cached
where
  answer (cached : Record) : Reply :=
    match cached.exception with
    | some exception => .raised exception
    | none => .replay { cached.response with replayed := true }

def progressRecord (s : Coordinator) (q : Request) : Record where
  controller := q.controller
  kind := q.kind
  requestIdentity := q.requestIdentity
  response :=
    { state := s.state, stateVersion := s.stateVersion+1, runId := s.runId, changed := false,
      commandId := q.commandId, inProgress := true, replayed := false, lastRunOutcome := none,
      boundRunId := none, configIdentity := none, configResult := none, verification := none,
      verificationId := if q.kind = "verify_egress" then q.verificationId else none,
      captureCheckpoint := none, releaseController := none }
  exception := none

def accept (s : Coordinator) (q : Request) : Coordinator :=
  { s with
    stateVersion := s.stateVersion+1
    activeOperations := s.activeOperations.set q.commandId q.conflictNames
    operationActive := true
    commands := s.commands.set q.commandId (s.progressRecord q) }

def submit (s : Coordinator) (q : Request) : Reply × Coordinator :=
  match s.gate q with
  | some rejection => (.rejected rejection,s)
  | none =>
      match s.commands.get? q.commandId with
      | some cached => (replay cached q,s)
      | none =>
          if s.activeConflicts q.conflictNames then
            (.rejected (.operationBusy q.kind q.commandId),s)
          else if q.expectedVersion ≠ s.stateVersion then
            (.rejected (.stateConflict q.expectedVersion s.stateVersion),s)
          else
            (.accepted,s.accept q)

/-- The callback raised. Without its record the section itself would raise. -/
def fail (s : Coordinator) (q : Request) (exception : String) : Coordinator :=
  match s.commands.get? q.commandId with
  | none => s
  | some record =>
      { s with commands := s.commands.set q.commandId { record with exception := some exception } }
        |>.finishOperation q.commandId

def fence (s : Coordinator) (result : Result) : Result :=
  { result with
    state := some .failed
    failureReason := s.exitFailure
    releaseController := some false
    runId := result.runId.filter Option.isSome }

def finalReason (s : Coordinator) (result : Result) : Option String :=
  match result.failureReason with
  | some reason => some reason
  | none => if result.state.getD s.state ≠ .failed then none else s.failureReason

def finalOutcome (s : Coordinator) (result : Result) : Option String :=
  match result.lastRunOutcome with
  | some outcome => outcome
  | none =>
      if result.releaseController = some true ∧ result.changed.getD true ∧
          result.state = some .stopped then
        some "ok"
      else
        s.lastRunOutcome

def apply (s : Coordinator) (result : Result) : Coordinator :=
  { s with
    runId := result.runId.getD s.runId
    state := result.state.getD s.state
    failureReason := s.finalReason result
    controller :=
      if result.releaseController = some true then none else result.controller <|> s.controller
    configIdentity := result.configIdentity <|> s.configIdentity
    lastRunOutcome := s.finalOutcome result }

def keepsCheckpoint (s : Coordinator) (q : Request) (fenced : Bool) (result : Result) : Bool :=
  !fenced && q.kind == "capture_stop" && result.releaseController == some false &&
    result.state == some .healthy && result.captureCheckpoint.isSome &&
    result.runId.join.isSome && result.runId.join == s.runId

def finalResponse (s : Coordinator) (q : Request) (fenced : Bool) (result : Result) : Response :=
  let verification := if q.kind = "verify_egress" then result.verification else none
  let keeps := s.keepsCheckpoint q fenced result
  { state := s.state, stateVersion := s.stateVersion, runId := s.runId,
    changed := result.changed.getD true, commandId := q.commandId, inProgress := false,
    replayed := false, lastRunOutcome := s.lastRunOutcome, boundRunId := result.boundRunId,
    configIdentity := result.configIdentity, configResult := result.configResult,
    verification := verification, verificationId := verification.bind Verification.verificationId,
    captureCheckpoint := if keeps then result.captureCheckpoint else none,
    releaseController := if keeps then some false else none }

def finalRecord (s : Coordinator) (q : Request) (fenced : Bool) (result : Result) : Record where
  controller := q.controller
  kind := q.kind
  requestIdentity := q.requestIdentity
  response := s.finalResponse q fenced result
  exception := none

/-- The operation is finished once before its final record is stored, and once after. -/
def complete (s : Coordinator) (q : Request) (result : Result) : Coordinator :=
  let fenced : Bool := q.commandId ∈ s.exitFenced
  let s := { s with exitFenced := s.exitFenced.erase q.commandId }.finishOperation q.commandId
  let result := if fenced then s.fence result else result
  let s := s.apply result
  { s with commands := s.commands.set q.commandId (s.finalRecord q fenced result) }
    |>.finishOperation q.commandId

/-- What a recovery marker says of the run it was left by. -/
structure Marker where
  needsRecovery : Bool
  runId : Option String
  controllerId : Option String

inductive Method
  | recoverWhenIdle
  | recoveryDone
  | recordTerminalFailure (reason : String)
  | beginDraining
  | restoreResponsibility (marker : Option Marker) (state : ServiceState) (reason : Option String)
      (lastRunOutcome : Option String)
  | failControlledExit (reason : String)
  | updateHealthState (state : ServiceState) (failureReason : Option String)
  | setConfigIdentity (identity : String)

def recordTerminalFailure (s : Coordinator) (reason : String) : Coordinator :=
  let stopped := s.state = .stopped
  { s with
    runId := if stopped then none else s.runId
    controller := if stopped then none else s.controller
    state := if stopped then .stopped else .failed
    failureReason := some reason
    lastRunOutcome := some "failed" }

def restoreResponsibility (s : Coordinator) (marker : Option Marker) (state : ServiceState)
    (reason lastRunOutcome : Option String) : Coordinator :=
  let owned := marker.filter Marker.needsRecovery
  { s with
    state := state
    failureReason := reason
    lastRunOutcome := lastRunOutcome <|> s.lastRunOutcome
    runId := if state = .stopped then none else (owned.map Marker.runId).getD s.runId
    controller :=
      if state = .stopped then none else (owned.map Marker.controllerId).getD s.controller }

def failControlledExit (s : Coordinator) (reason : String) : Coordinator :=
  { s with
    draining := true
    exitFailure := some reason
    exitFenced := s.exitFenced ∪ s.activeOperations.keys.toFinset
    state := .failed
    failureReason := some reason }

def updateHealthState (s : Coordinator) (state : ServiceState) (failureReason : Option String) :
    Coordinator :=
  let failing := s.exitFailure.any (· ≠ "") ∧
    (state = .healthy ∨ state = .starting ∨ state = .degraded)
  { s with
    state := if failing then .failed else state
    failureReason := if failing then s.exitFailure else failureReason }

def Method.call : Method → Coordinator → Coordinator
  | .recoverWhenIdle,s => { s with idleRecovery := true }.dispatchIdleRecovery
  | .recoveryDone,s => { s with idleRecovery := false, idleRecoveryRunning := false }
  | .recordTerminalFailure reason,s => s.recordTerminalFailure reason
  | .beginDraining,s => { s with draining := true }
  | .restoreResponsibility marker state reason lastRunOutcome,s =>
      s.restoreResponsibility marker state reason lastRunOutcome
  | .failControlledExit reason,s => s.failControlledExit reason
  | .updateHealthState state failureReason,s => s.updateHealthState state failureReason
  | .setConfigIdentity identity,s => { s with configIdentity := some identity }

end Coordinator
end Coordination
end FakeNetNG
