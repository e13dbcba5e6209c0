import FakeNetNG.CoordinationRuns
import FakeNetNG.GuardedSteps
import Mathlib.Logic.Function.Basic

/-!
# The two phases of a service stop

A stop request starts an attempt: the coordinator drains, a worker brings the run to its end and
publishes the outcome, and a watchdog fails the attempt when its budget is used up. The handlers of
the service controls take no lock to see whether the stop is authorised. The worker, the
watchdogs of all attempts, the handlers and the coordinator take turns in any order.
-/

namespace FakeNetNG
namespace ServiceStop

open Coordination GuardedSteps

inductive Phase
  | idle | draining | succeeded | failed
  deriving DecidableEq

structure Report where
  attempt : ℕ
  phase : Phase
  reason : Option String
  deadline : Option ℕ
  deriving DecidableEq

def Report.validSuccess (r : Report) (now : ℕ) : Bool := r.phase = .succeeded ∧ r.deadline.any (now < ·)

/-- Where a failure goes: `handled` is false for the one that is reported outside of the guarded part. -/
structure Failure where
  reason : String
  handled : Bool
  deriving DecidableEq

/-- How far the worker is. It holds the lock from `publishing` to `written`. -/
inductive Stage
  | entered | waiting | converging | checking | agreed | publishing | writing | written
  | failing (failure : Failure)
  | cleared (failure : Failure)
  | told (failure : Failure)
  | leaving | ended
  deriving DecidableEq

/-- How far a watchdog is. It holds the lock from `seized` to `told`. -/
inductive Watching
  | idle | armed | fired | seized | cleared | told | done
  deriving DecidableEq

/-- What a worker shares with its watchdog. -/
structure Watch where
  deadline : ℕ
  expired : Bool
  complete : Bool
  watching : Watching

inductive Owner
  | worker
  | watchdog (attempt : ℕ)
  deriving DecidableEq

/-- `result` is the published report and the copy of it that is kept. `written` lists all of them, the oldest
first, and `seen` is the coordinator as the worker of the attempt saw it last. -/
structure Service where
  budget : ℕ
  now : ℕ
  world : World
  attempt : ℕ
  ready : Bool
  committed : Bool
  deadline : Option ℕ
  result : Report
  lock : Option Owner
  worker : Stage
  watch : ℕ → Watch
  stopPending : Bool
  written : List Report
  seen : Option (ℕ × Coordinator)

def exhausted : String := "prestop total budget exhausted"

namespace Service

def start (budget : ℕ) : Service where
  budget := budget
  now := 0
  world := World.start
  attempt := 0
  ready := false
  committed := false
  deadline := none
  result := ⟨0,.idle,none,none⟩
  lock := none
  worker := .ended
  watch := fun _ => ⟨0,false,false,.idle⟩
  stopPending := false
  written := [⟨0,.idle,none,none⟩]
  seen := none

/-- The handler of the stop control must not wait for a worker that does file or service I/O. -/
def stopAuthorized (s : Service) : Bool := s.ready && s.committed && s.deadline.any (s.now < ·)

def write (s : Service) (phase : Phase) (reason : Option String) : Service :=
  let report : Report := ⟨s.attempt,phase,reason,s.deadline⟩
  { s with result := report, written := s.written++[report] }

def call (s : Service) (method : Coordinator.Method) : Service :=
  { s with world := { s.world with coordinator := method.call s.world.coordinator } }

def watchdog (s : Service) (n : ℕ) (watch : Watch) : Service := { s with watch := Function.update s.watch n watch }

def current (s : Service) : Watch := s.watch s.attempt

def idle (s : Service) : Bool := s.world.coordinator.activeOperations.size = 0

/-- `request`, under the lock. `writes` is false when the report cannot be written. -/
def request (s : Service) (writes : Bool) : Option Service :=
  allow (s.lock = none ∧ s.stopPending = false)
    (if s.stopAuthorized ∨ s.worker ≠ .ended ∨ ¬ s.idle ∧ s.attempt ≠ 0 then s
      else
        let s := { s.call .beginDraining with ready := false, committed := false, attempt := s.attempt+1 }
        if writes then { (s.write .draining none).watchdog s.attempt ⟨0,false,false,.idle⟩ with worker := .entered }
        else s)

def svcStop (s : Service) : Service := if s.stopAuthorized then { s with stopPending := true } else s

def fails (s : Service) (reason : String) : Service := { s with worker := .failing ⟨reason,true⟩ }

def raises (s : Service) (reason : String) : Service := { s.fails reason with ready := false, lock := none }

def late (s : Service) : Bool := s.current.expired || decide (s.current.deadline ≤ s.now)

def enter (s : Service) : Option Service :=
  let deadline := s.now+s.budget
  allow (s.worker = .entered)
    { s.watchdog s.attempt { s.current with deadline := deadline, watching := .armed } with
      deadline := some deadline, worker := .waiting }

/-- `wait_for_idle` ends: with no operation in flight, or in time with one of them left. -/
def idled (s : Service) : Option Service :=
  allow (s.worker = .waiting)
    (if s.idle then { s with worker := .converging }
      else { s with worker := .failing ⟨"inflight_timeout",false⟩ })

/-- The convergence returns the state of the coordinator and its reason, or raises. -/
def converged (s : Service) (outcome : Except String (ServiceState × Option String)) : Option Service :=
  allow (s.worker = .converging)
    (match outcome with
      | .error reason => s.fails reason
      | .ok (state,reason) =>
        if s.current.deadline ≤ s.now then s.fails exhausted
        else if state ≠ .stopped then s.fails ((reason.filter (· ≠ "")).getD "not cleanly stopped")
        else { s with worker := .checking })

def released (c : Coordinator) : Bool := c.state = .stopped ∧ c.runId = none ∧ c.controller = none

def snapshot (s : Service) : Option Service :=
  let c := s.world.coordinator
  allow (s.worker = .checking)
    (if released c then { s with worker := .agreed, seen := some (s.attempt,c) }
      else s.fails "recovery responsibility remains")

def acquire (s : Service) : Option Service :=
  allow (s.worker = .agreed ∧ s.lock = none)
    (if s.late then s.fails exhausted else { s with lock := some .worker, ready := true, worker := .publishing })

def published (s : Service) (outcome : Except String Unit) : Option Service :=
  allow (s.worker = .publishing)
    (match outcome with
      | .error reason => s.raises reason
      | .ok () => if s.late then s.raises exhausted else { s with worker := .writing })

def writeSuccess (s : Service) (outcome : Except String Unit) : Option Service :=
  allow (s.worker = .writing)
    (match outcome with
      | .error reason => s.raises reason
      | .ok () => { s.write .succeeded none with worker := .written })

def commit (s : Service) : Option Service :=
  allow (s.worker = .written)
    (if s.late then s.raises exhausted
      else { s.watchdog s.attempt { s.current with complete := true } with
        committed := true, lock := none, worker := .leaving })

/-- The three parts of `_fail`. -/
def clear (s : Service) (failure : Failure) : Option Service :=
  allow (s.worker = .failing failure) { s with ready := false, committed := false, worker := .cleared failure }

def tell (s : Service) (failure : Failure) : Option Service :=
  allow (s.worker = .cleared failure) { s.call (.failControlledExit failure.reason) with worker := .told failure }

/-- When the report cannot be written outside of the guarded part, the thread is at its end. -/
def report (s : Service) (failure : Failure) (writes : Bool) : Option Service :=
  allow (s.worker = .told failure ∧ s.lock = none)
    (if writes then { s.write .failed (some failure.reason) with ready := false, worker := .leaving }
      else { s with ready := false, worker := if failure.handled then .leaving else .ended })

def leave (s : Service) : Option Service :=
  let watching := if s.current.watching = .armed then .done else s.current.watching
  allow (s.worker = .leaving)
    { s.watchdog s.attempt { s.current with complete := true, watching := watching } with worker := .ended }

def fire (s : Service) (n : ℕ) : Option Service :=
  allow ((s.watch n).watching = .armed ∧ (s.watch n).deadline ≤ s.now)
    (s.watchdog n { s.watch n with expired := true, watching := .fired })

def seize (s : Service) (n : ℕ) : Option Service :=
  allow ((s.watch n).watching = .fired ∧ s.lock = none)
    (if (s.watch n).complete then s.watchdog n { s.watch n with watching := .done }
      else { s.watchdog n { s.watch n with watching := .seized } with lock := some (.watchdog n) })

def watchClear (s : Service) (n : ℕ) : Option Service :=
  allow ((s.watch n).watching = .seized)
    { s.watchdog n { s.watch n with watching := .cleared } with ready := false, committed := false }

def watchTell (s : Service) (n : ℕ) : Option Service :=
  allow ((s.watch n).watching = .cleared)
    ((s.call (.failControlledExit exhausted)).watchdog n { s.watch n with watching := .told })

def watchReport (s : Service) (n : ℕ) (writes : Bool) : Option Service :=
  let s' := if writes then s.write .failed (some exhausted) else s
  allow ((s.watch n).watching = .told)
    { s'.watchdog n { s.watch n with watching := .done } with ready := false, lock := none }

end Service

inductive Event
  | request (writes : Bool)
  | svcStop
  | enter
  | idled
  | converged (outcome : Except String (ServiceState × Option String))
  | snapshot
  | acquire
  | published (outcome : Except String Unit)
  | writeSuccess (outcome : Except String Unit)
  | commit
  | clear (failure : Failure)
  | tell (failure : Failure)
  | report (failure : Failure) (writes : Bool)
  | leave
  | fire (n : ℕ)
  | seize (n : ℕ)
  | watchClear (n : ℕ)
  | watchTell (n : ℕ)
  | watchReport (n : ℕ) (writes : Bool)
  | coordinator (event : Coordination.Event)
  | tick (passed : ℕ)

namespace Service

def step (s : Service) : Event → Option Service
  | .request writes => s.request writes
  | .svcStop => some s.svcStop
  | .enter => s.enter
  | .idled => s.idled
  | .converged outcome => s.converged outcome
  | .snapshot => s.snapshot
  | .acquire => s.acquire
  | .published outcome => s.published outcome
  | .writeSuccess outcome => s.writeSuccess outcome
  | .commit => s.commit
  | .clear failure => s.clear failure
  | .tell failure => s.tell failure
  | .report failure writes => s.report failure writes
  | .leave => s.leave
  | .fire n => s.fire n
  | .seize n => s.seize n
  | .watchClear n => s.watchClear n
  | .watchTell n => s.watchTell n
  | .watchReport n writes => s.watchReport n writes
  | .coordinator event => (s.world.step event).map fun w => { s with world := w }
  | .tick passed => some { s with now := s.now+passed }

def Reachable (s : Service) : Prop := ∃ budget, Reaches step (start budget) s

end Service
end ServiceStop
end FakeNetNG
