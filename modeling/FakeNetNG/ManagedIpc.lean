import FakeNetNG.GuardedSteps

/-!
# The channel to the managed child

The supervisor and the child exchange one line for each request over two pipes. A request runs
under a lock with a writer thread of its own, a reader thread fills a bounded queue, and any of the
waits may end at its deadline. The child serves the lines in order and may end at any point.
-/

namespace FakeNetNG
namespace ManagedIpc

inductive Kind
  | ready | start | stop | health | stacks
  deriving DecidableEq

structure Request (τ : Type) where
  runId : String
  seq : ℕ
  kind : Kind
  payload : τ

/-- A result: the identity of the process, what a probe observed, the stacks of the threads, or that
the instance is stopped. -/
inductive Reply (τ : Type)
  | ready (pid : ℕ) (creationTime : String)
  | probe (detail : τ)
  | stacks (detail : τ)
  | stopped

structure Response (τ : Type) where
  runId : String
  seq : ℤ
  body : Except String (Reply τ)

/-- `leaving` is the end of the loop, after the response to a stop, and `ended` that of the process. -/
structure Child where
  runId : String
  pid : ℕ
  creationTime : String
  seq : ℕ
  instanceMade : Bool
  channelClosed : Bool
  leaving : Bool
  ended : Bool

def Child.gone (c : Child) : Bool := c.leaving || c.ended

/-- What the calls that a request makes come to: up to the creation of the instance, its start and
the probe, the stacks, and the stop. -/
structure Outside (τ : Type) where
  made : Except String Unit
  probe : Except String τ
  threadStacks : τ
  stopped : Except String Unit

variable {τ : Type}

def Child.handle (c : Child) (q : Request τ) (o : Outside τ) : Except String (Reply τ) × Bool × Bool :=
  match q.kind,c.instanceMade with
  | .ready,false => (.ok (.ready c.pid c.creationTime),false,false)
  | .start,false =>
    match o.made with
    | .error detail => (.error detail,false,false)
    | .ok () => (o.probe.map .probe,true,false)
  | .health,true => (o.probe.map .probe,true,false)
  | .stacks,made => (.ok (.stacks o.threadStacks),made,false)
  | .stop,true =>
    match o.stopped with
    | .error detail => (.error detail,true,false)
    | .ok () => (.ok .stopped,true,true)
  | .stop,false => (.ok .stopped,false,true)
  | _,made => (.error "managed operation not allowed in current state",made,false)

/-- The faults of a test that alter the response to a health or a stacks request. -/
inductive IpcFault
  | permanentTimeout | onceTimeout | stacksUnavailable | eof | wrongRun | repeat | reverse
  deriving DecidableEq

inductive IpcAction (τ : Type)
  | send (response : Response τ)
  | drop
  | eof

def ipcResponse (fault : Option IpcFault) (kind : Kind) (response : Response τ) : IpcAction τ :=
  match kind,fault with
  | .stacks,some .stacksUnavailable => .drop
  | .health,some .permanentTimeout => .drop
  | .health,some .onceTimeout => .drop
  | .health,some .eof => .eof
  | .health,some .wrongRun => .send { response with runId := "00000000-0000-0000-0000-000000000000" }
  | .health,some .repeat => .send { response with seq := response.seq-1 }
  | .health,some .reverse => .send { response with seq := response.seq-2 }
  | _,_ => .send response

inductive Phase
  | writing | waiting
  deriving DecidableEq

/-- The call under the lock, the writer thread that has not ended, the failures that are kept, the queue
of the reader, the two pipes and the child. `executed` and `returned` are what has happened so far. -/
structure Channel (τ : Type) where
  runId : String
  sequence : ℕ
  call : Option (Request τ × Phase)
  writer : Option (Request τ)
  writeFailed : Bool
  protocolFailure : Bool
  readFailure : Option String
  responses : List (Except String (Response τ))
  toChild : List (Request τ)
  fromChild : List (Response τ)
  child : Child
  executed : List (Request τ × Except String (Reply τ))
  returned : List (Request τ × Reply τ)

def responseLimit : ℕ := 64

namespace Channel

def start (runId : String) (pid : ℕ) (creationTime : String) : Channel τ where
  runId := runId
  sequence := 0
  call := none
  writer := none
  writeFailed := false
  protocolFailure := false
  readFailure := none
  responses := []
  toChild := []
  fromChild := []
  child := ⟨runId,pid,creationTime,0,false,false,false,false⟩
  executed := []
  returned := []

def Refusing (w : Channel τ) : Prop :=
  w.protocolFailure = true ∨ w.readFailure.isSome = true ∨ w.writeFailed = true

instance (w : Channel τ) : Decidable w.Refusing := inferInstanceAs (Decidable (_ ∨ _ ∨ _))

/-- `request` up to the start of its writer thread. A request that fails a check has used its number. -/
def request (w : Channel τ) (kind : Kind) (payload : τ) (alive : Bool) : Option (Channel τ) :=
  match w.call with
  | some _ => none
  | none =>
    let w := { w with sequence := w.sequence+1 }
    let q : Request τ := ⟨w.runId,w.sequence,kind,payload⟩
    if alive = false ∨ w.Refusing then some w
    else some { w with call := some (q,.writing), writer := some q }

def writeDone (w : Channel τ) : Option (Channel τ) :=
  match w.writer with
  | none => none
  | some q =>
    let w := { w with writer := none, toChild := w.toChild++[q] }
    match w.call with
    | some (q,.writing) => some { w with call := some (q,.waiting) }
    | _ => some w

def writeRaises (w : Channel τ) : Option (Channel τ) :=
  match w.writer with
  | none => none
  | some _ =>
    let w := { w with writer := none }
    match w.call with
    | some (_,.writing) => some { w with call := none }
    | _ => some w

def writeDeadline (w : Channel τ) : Option (Channel τ) :=
  match w.call,w.writer with
  | some (_,.writing),some _ => some { w with writeFailed := true, call := none }
  | _,_ => none

def responseDeadline (w : Channel τ) : Option (Channel τ) :=
  match w.call,w.responses with
  | some (_,.waiting),[] => some { w with call := none }
  | _,_ => none

def take (w : Channel τ) : Option (Channel τ) :=
  match w.call,w.responses with
  | some (q,.waiting),entry::rest =>
    let w := { w with call := none, responses := rest }
    match entry with
    | .error _ => some w
    | .ok response =>
      if response.runId ≠ w.runId ∨ response.seq ≠ q.seq then some { w with protocolFailure := true }
      else
        match response.body with
        | .error _ => some w
        | .ok reply => some { w with returned := w.returned++[(q,reply)] }
  | _,_ => none

def read (w : Channel τ) : Option (Channel τ) :=
  match w.readFailure,w.fromChild with
  | none,response::rest =>
    let w := { w with fromChild := rest }
    if w.responses.length < responseLimit then some { w with responses := w.responses++[.ok response] }
    else some { w with readFailure := some "Full()" }
  | _,_ => none

def readRaises (w : Channel τ) (failure : String) : Option (Channel τ) :=
  match w.readFailure with
  | some _ => none
  | none =>
    let w := { w with readFailure := some failure }
    if w.responses.length < responseLimit then some { w with responses := w.responses++[.error failure] }
    else some w

def endChild (w : Channel τ) : Channel τ := { w with child := { w.child with ended := true } }

/-- The end of a turn of the loop of the child: the response goes out unless the pipe was closed. After a stop
the loop is left; the process ends some time later. -/
def act (w : Channel τ) (exiting : Bool) : IpcAction τ → Channel τ
  | .drop => w
  | .eof => { w with child := { w.child with channelClosed := true } }
  | .send response =>
    let w := if w.child.channelClosed then w else { w with fromChild := w.fromChild++[response] }
    if exiting then { w with child := { w.child with leaving := true } } else w

/-- One turn of the loop of the child. `crash` is an end of the process between the work on the request
and the response to it. -/
def serve (w : Channel τ) (o : Outside τ) (fault : Option IpcFault) (crash : Bool) : Option (Channel τ) :=
  match w.child.gone,w.toChild with
  | false,q::rest =>
    let w := { w with toChild := rest }
    if q.runId ≠ w.child.runId ∨ q.seq ≠ w.child.seq+1 then some w.endChild
    else
      let (body,made,exiting) := w.child.handle q o
      let w := { w with
        child := { w.child with seq := q.seq, instanceMade := made }
        executed := w.executed++[(q,body)] }
      if crash then some w.endChild
      else some (w.act exiting (ipcResponse fault q.kind ⟨w.child.runId,q.seq,body⟩))
  | _,_ => none

end Channel

inductive Event (τ : Type)
  | request (kind : Kind) (payload : τ) (alive : Bool)
  | writeDone
  | writeRaises
  | writeDeadline
  | responseDeadline
  | take
  | read
  | readRaises (failure : String)
  | serve (o : Outside τ) (fault : Option IpcFault) (crash : Bool)
  | childEnds

def Channel.step (w : Channel τ) : Event τ → Option (Channel τ)
  | .request kind payload alive => w.request kind payload alive
  | .writeDone => w.writeDone
  | .writeRaises => w.writeRaises
  | .writeDeadline => w.writeDeadline
  | .responseDeadline => w.responseDeadline
  | .take => w.take
  | .read => w.read
  | .readRaises failure => w.readRaises failure
  | .serve o fault crash => w.serve o fault crash
  | .childEnds => some w.endChild

def Channel.Reachable (w : Channel τ) : Prop :=
  ∃ runId pid creationTime, GuardedSteps.Reaches Channel.step (Channel.start runId pid creationTime) w

end ManagedIpc
end FakeNetNG
