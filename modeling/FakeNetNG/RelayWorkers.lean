import FakeNetNG.Routines
import FakeNetNG.RelayNat

/-!
# The workers of the relay

A client that is let in takes a pending slot, and its worker changes the slot for an active one when
the name in the greeting has been checked. Two local flags say which slot the worker has. The journal
of each worker and the holders of the slots are written down beside the state of the code.
-/

namespace FakeNetNG
namespace RelayWorkers

structure Settings where
  maxPending : ℕ
  maxPendingPerSource : ℕ
  maxActive : ℕ
  maxActivePerSource : ℕ

/-- A counter of slots with its count by source, where a missing entry reads as zero. The code does
not keep the holders. -/
structure SlotCount where
  total : ℤ
  bySource : Addr → ℤ
  holders : List (ℕ × Addr)

namespace SlotCount

def empty : SlotCount := ⟨0,fun _ => 0,[]⟩

def full (maxTotal maxPerSource : ℕ) (source : Addr) (c : SlotCount) : Bool :=
  c.total ≥ maxTotal ∨ c.bySource source ≥ maxPerSource

def take (worker : ℕ) (source : Addr) (c : SlotCount) : SlotCount :=
  ⟨c.total+1,Function.update c.bySource source (c.bySource source+1),(worker,source) :: c.holders⟩

def release (worker : ℕ) (source : Addr) (c : SlotCount) : SlotCount :=
  if c.bySource source ≠ 0 then
    ⟨c.total-1,Function.update c.bySource source (c.bySource source-1),c.holders.erase (worker,source)⟩
  else c

end SlotCount

inductive Slot
  | pending | active
  deriving DecidableEq

inductive RelayError
  | clientHello (message : String)
  | other (name message : String)

def RelayError.runtime (message : String) : RelayError := .other "RuntimeError" message

/-- `type(exc).__name__`. -/
def RelayError.name : RelayError → String
  | clientHello _ => "ClientHelloError"
  | other name _ => name

/-- The events that go to the log of the diverter. -/
inductive RelayLog
  | deny (mapping : RelayNatMapping) (reason reasonCode : String) (src : Addr) (sport : ℕ)
      (sni : Option String)
  | allow (domain : String) (originalIp : Addr) (sni : String)
  | upstream (ip : Addr) (port sport : ℕ)
  | rejected (mapping : Option RelayNatMapping) (source : Addr) (sport : ℕ)
  | quiesceRst (mapping : Option RelayNatMapping) (source : Addr) (sport : ℕ)
  | quiesce (reason : String) (abortedConnections : ℕ)

inductive Connection
  | client (worker : ℕ) | upstream (worker : ℕ)
  deriving DecidableEq

inductive Event
  | acquired (source : Addr) (generation : ℕ)
  | promoted
  | registered (token : String)
  | logged (log : RelayLog)
  | released (slot : Slot)
  | revoked (token : String)
  | terminal (outcome reasonCode : String) (sni : Option String)
  | disconnected (connection : Connection) (abortive : Bool)
  | closed (generation : ℕ)
  | finished

structure State where
  stop : Bool
  quiesce : Bool
  pending : SlotCount
  active : SlotCount
  connections : List Connection
  workers : List ℕ
  journal : ℕ → List Event

namespace State

def init : State := ⟨false,false,.empty,.empty,[],[],fun _ => []⟩

def note (w : ℕ) (e : Event) (s : State) : State :=
  { s with journal := Function.update s.journal w (s.journal w++[e]) }

end State

section Quota

variable (settings : Settings) (w : ℕ) (source : Addr)

def acquirePending (generation : ℕ) (s : State) : Bool × State :=
  if s.pending.full settings.maxPending settings.maxPendingPerSource source then (false,s)
  else (true,{ s with pending := s.pending.take w source }.note w (.acquired source generation))

def releasePendingLocked (s : State) : State :=
  if s.pending.bySource source ≠ 0 then
    { s with pending := s.pending.release w source }.note w (.released .pending)
  else s

def promoteActive (s : State) : Bool × State :=
  if s.active.full settings.maxActive settings.maxActivePerSource source then
    (false,releasePendingLocked w source s)
  else
    (true,{ s with
      pending := s.pending.release w source
      active := s.active.take w source }.note w .promoted)

def releasePending (s : State) : State := releasePendingLocked w source s

def releaseActive (s : State) : State :=
  if s.active.bySource source ≠ 0 then
    { s with active := s.active.release w source }.note w (.released .active)
  else s

end Quota

/-- What the sockets, the callbacks and the relay loop answer a worker, each of which may raise. -/
structure Answers where
  clientTimeout : Except RelayError Unit
  readClientHello : Except RelayError (List UInt8 × String)
  selectSourceIPv4 : Except RelayError Addr
  socket : Except RelayError Unit
  upstreamTimeout : Except RelayError Unit
  bind : Except RelayError Unit
  getsockname : Except RelayError ℕ
  registerControlFlow : Except RelayError String
  connect : Except RelayError Unit
  activateRelayMapping : Except RelayError Bool
  logAllow : Except RelayError Unit
  logUpstream : Except RelayError Unit
  relay : Except RelayError Unit
  logDeny : Except RelayError Unit

/-- An accepted connection. The target is what `consumeRelayTarget` returns where the source is local
and its rate of new flows is allowed. -/
structure Client where
  worker : ℕ
  source : Addr
  sport : ℕ
  target : Except RelayError (Option RelayNatMapping)
  logRejected : Except RelayError Unit
  answers : Answers

/-- The local variables of `_handle_client`. -/
structure Locals where
  upstream : Bool
  token : Option String
  pending : Bool
  active : Bool
  helloSni : Option String
  denyReasonCode : Option String

def Locals.init : Locals := ⟨false,none,true,false,none,none⟩

abbrev Worker := Routine State Locals RelayError

open Routine

def denyReasonCode (e : RelayError) (helloSni : Option String) : String :=
  match e with
  | .clientHello _ => if helloSni.isSome then "sni_mismatch" else "clienthello_error"
  | .other .. => "relay_error"

def checkStop : Worker Unit := do
  let stopping ← read State.stop
  if stopping then Routine.raise (.runtime "relay is stopping")

def logEgressEvent (w : ℕ) (log : RelayLog) (r : Except RelayError Unit) : Worker Unit := do
  modify (State.note w (.logged log))
  answer r

section Worker

variable (settings : Settings) (c : Client) (mapping : RelayNatMapping)

def promoteOrRaise : Worker Unit := do
  let promoted ← locked (promoteActive settings c.worker c.source)
  if !promoted then
    assign fun l => { l with pending := false }
    Routine.raise (.runtime "active relay quota exceeded")
  assign fun l => { l with pending := false, active := true }

def registerControlFlow : Worker Unit :=
  match c.answers.registerControlFlow with
  | .error e => Routine.raise e
  | .ok token => do
    modify (State.note c.worker (.registered token))
    assign fun l => { l with token := some token }

/-- The `try` block. -/
def serve : Worker Unit := do
  checkStop
  answer c.answers.clientTimeout
  let hello ← answer c.answers.readClientHello
  assign fun l => { l with helloSni := some hello.2 }
  if hello.2 ≠ mapping.domain then Routine.raise (.clientHello "SNI does not match mapped domain")
  checkStop
  promoteOrRaise settings c
  let _ ← answer c.answers.selectSourceIPv4
  answer c.answers.socket
  assign fun l => { l with upstream := true }
  modify fun s => { s with connections := .upstream c.worker :: s.connections }
  answer c.answers.upstreamTimeout
  answer c.answers.bind
  checkStop
  let sourcePort ← answer c.answers.getsockname
  registerControlFlow c
  answer c.answers.connect
  let activated ← answer c.answers.activateRelayMapping
  if !activated then Routine.raise (.runtime "relay NAT mapping expired before activation")
  logEgressEvent c.worker (.allow mapping.domain mapping.serverIp hello.2) c.answers.logAllow
  logEgressEvent c.worker (.upstream mapping.serverIp mapping.serverPort sourcePort) c.answers.logUpstream
  answer c.answers.relay

/-- The `except` block: a relay that is stopped or quiesced closes its clients itself. -/
def deny (e : RelayError) : Worker Unit := do
  let stopping ← read State.stop
  if !stopping then
    let quiescing ← read State.quiesce
    if !quiescing then
      let l ← locals
      let reasonCode := denyReasonCode e l.helloSni
      assign fun l => { l with denyReasonCode := some reasonCode }
      let sni := if reasonCode = "sni_mismatch" then l.helloSni else none
      logEgressEvent c.worker (.deny mapping e.name reasonCode c.source c.sport sni) c.answers.logDeny

def disconnect (connection : Connection) (abortive : Bool) : Worker Unit := do
  modify fun s => { s with connections := s.connections.erase connection }
  modify (State.note c.worker (.disconnected connection abortive))

def releaseSlots (l : Locals) : Worker Unit := do
  if l.pending then modify (releasePending c.worker c.source) else pure ()
  if l.active then modify (releaseActive c.worker c.source) else pure ()

def revokeToken (l : Locals) : Worker Unit :=
  match l.token with
  | none => pure ()
  | some token => if token ≠ "" then modify (State.note c.worker (.revoked token)) else pure ()

def closeConnections (l : Locals) : Worker Unit := do
  disconnect c (.client c.worker) (l.denyReasonCode.isSome && l.denyReasonCode ≠ some "relay_error")
  if l.upstream then disconnect c (.upstream c.worker) false else pure ()

/-- The `finally` block, with what the local variables are by then. The client is held for one greeting
timeout after a failure of the relay's own, which changes nothing here. -/
def cleanUp (l : Locals) : Worker Unit := do
  releaseSlots c l
  revokeToken c l
  let outcome := if l.denyReasonCode.isSome then "deny" else "closed"
  modify (State.note c.worker (.terminal outcome (l.denyReasonCode.getD "session_closed") l.helloSni))
  closeConnections c l
  modify (State.note c.worker (.closed mapping.generation))
  modify fun s => { s with workers := s.workers.erase c.worker }.note c.worker .finished

def teardown : Worker Unit := do
  let l ← locals
  cleanUp c mapping l

def handleClient : Worker Unit := do
  modify fun s => { s with connections := .client c.worker :: s.connections }
  ((serve settings c mapping).tryExcept (deny c mapping)).tryFinally (teardown c mapping)

end Worker

/-- What the accept loop does with one connection: it is refused, or its worker is started. -/
def acceptClient (settings : Settings) (c : Client) : Worker Unit := do
  let stopping ← read State.stop
  if stopping then pure ()
  else
    let quiescing ← read State.quiesce
    let target ← answer c.target
    match target with
    | none =>
      logEgressEvent c.worker
        (if quiescing then .quiesceRst none c.source c.sport else .rejected none c.source c.sport) c.logRejected
    | some mapping =>
      if quiescing then
        modify (State.note c.worker (.closed mapping.generation))
        logEgressEvent c.worker (.quiesceRst (some mapping) c.source c.sport) c.logRejected
      else
        let acquired ← locked (acquirePending settings c.worker c.source mapping.generation)
        if acquired then
          modify fun s => { s with workers := c.worker :: s.workers }
          handleClient settings c mapping
        else
          modify (State.note c.worker (.closed mapping.generation))
          logEgressEvent c.worker (.rejected (some mapping) c.source c.sport) c.logRejected

inductive RelayCall
  | accept (c : Client)
  | stop
  | quiesce (reason : String) (logged : Except RelayError Unit)

/-- Stopping and quiescing close the connections, which the workers see in what their sockets answer. -/
def RelayCall.body (settings : Settings) : RelayCall → Prog State (Except RelayError Unit)
  | accept c => do
    let r ← acceptClient settings c Locals.init
    return r.1
  | stop => do
    Prog.locked fun s => ((),{ s with stop := true })
    let _ ← Prog.read State.connections
    return .ok ()
  | quiesce _ logged => do
    Prog.locked fun s => ((),{ s with quiesce := true })
    let _ ← Prog.read State.connections
    return logged

def ownWorker (P : Pool State RelayCall (Except RelayError Unit)) : RelayCall → Prop
  | .accept c => P.shared.journal c.worker = [] ∧
      ∀ t d q, P.threads t = some (.accept d,q) → d.worker ≠ c.worker
  | _ => True

end RelayWorkers
end FakeNetNG
