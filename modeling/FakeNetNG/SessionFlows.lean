import FakeNetNG.OrderedDict
import Mathlib.Data.String.Basic
import Mathlib.Data.Prod.Lex
import Mathlib.Tactic

/-!
# The registry of session flows

`SessionFlowRegistry` allocates a flow for each connection generation and maps its endpoints to
directions. A flow is an object that the list of all flows and both tables share: here the tables
hold its position in the list.
-/

namespace FakeNetNG
namespace Report

inductive Protocol
  | tcp
  | udp
  | other
  deriving DecidableEq

inductive Direction
  | outbound
  | inbound
  | unknown
  deriving DecidableEq

/-- `str(direction or 'unknown')`, which is unknown if it is not one of `DIRECTIONS`. -/
def Direction.ofText (text : String) : Direction :=
  if text = "outbound" then outbound
  else if text = "inbound" then inbound
  else unknown

/-- The address as text, and the port. -/
abbrev Endpoint := String × ℕ

structure Ends where
  source : Endpoint
  destination : Endpoint
  deriving DecidableEq

def Ends.reverse (e : Ends) : Ends := ⟨e.destination,e.source⟩

@[simp] theorem Ends.reverse_reverse (e : Ends) : e.reverse.reverse = e := rfl

def thFin : ℕ := 0x01
def thSyn : ℕ := 0x02
def thRst : ℕ := 0x04
def thAck : ℕ := 0x10

def tcpSequenceModulus : ℕ := 2^32

/-- What `_packet_parts` finds in a packet. The numbers of other protocols are zero. -/
structure Facts where
  version : ℕ
  protocol : Protocol
  source : Endpoint
  destination : Endpoint
  seq : ℕ
  ack : ℕ
  flags : ℕ
  payload : List UInt8
  deriving DecidableEq

namespace Facts

def ends (p : Facts) : Ends := ⟨p.source,p.destination⟩

def hasFlag (p : Facts) (flag : ℕ) : Bool := p.flags &&& flag ≠ 0

def syn (p : Facts) : Bool := p.protocol = .tcp && p.hasFlag thSyn

def closes (p : Facts) : Bool := p.protocol = .tcp && (p.hasFlag thFin || p.hasFlag thRst)

def synSequence (p : Facts) : ℕ := p.seq % tcpSequenceModulus

def isNewSyn (p : Facts) : Option ℕ → Bool
  | none => false
  | some known => p.syn && p.synSequence ≠ known

end Facts

structure FlowKey where
  protocol : Protocol
  low : Endpoint
  high : Endpoint
  version : ℕ
  deriving DecidableEq

def endpointMin (a b : Endpoint) : Endpoint := ofLex (min (toLex a) (toLex b))

def endpointMax (a b : Endpoint) : Endpoint := ofLex (max (toLex a) (toLex b))

def canonicalKey (p : Facts) : FlowKey :=
  ⟨p.protocol,endpointMin p.source p.destination,endpointMax p.source p.destination,p.version⟩

theorem ends_of_canonicalKey {p q : Facts} (h : canonicalKey p = canonicalKey q) :
    p.ends = q.ends ∨ p.ends = q.ends.reverse := by
  injection h with _ hlow hhigh _
  have hlow : min (toLex p.source) (toLex p.destination) = min (toLex q.source) (toLex q.destination) :=
    congrArg toLex hlow
  have hhigh : max (toLex p.source) (toLex p.destination) = max (toLex q.source) (toLex q.destination) :=
    congrArg toLex hhigh
  obtain hp | hp := le_total (toLex p.source) (toLex p.destination) <;>
    obtain hq | hq := le_total (toLex q.source) (toLex q.destination) <;>
    simp only [hp,hq,min_eq_left,min_eq_right,max_eq_left,max_eq_right,EmbeddingLike.apply_eq_iff_eq]
      at hlow hhigh
  · exact .inl (by simp [Facts.ends,hlow,hhigh])
  · exact .inr (by simp [Facts.ends,Ends.reverse,hlow,hhigh])
  · exact .inr (by simp [Facts.ends,Ends.reverse,hlow,hhigh])
  · exact .inl (by simp [Facts.ends,hlow,hhigh])

/-- A flow of the registry. What `update` sets later and no grouping reads is left out. -/
structure Flow where
  /-- The text is `flow-` and this number. -/
  id : ℕ
  protocol : Protocol
  version : ℕ
  source : Endpoint
  destination : Endpoint
  startedAt : Option ℚ
  endedAt : Option ℚ
  closed : Bool
  directions : Dict Ends Direction
  synSequences : Dict Ends ℕ
  logicalIds : List String

structure Registry where
  nextId : ℕ
  flows : List Flow
  byKey : FlowKey → Option ℕ
  logicalToFlow : String → Option ℕ

/-- What the capture hands to the registry. A packet that cannot be parsed has no facts. -/
structure Observation where
  facts : Option Facts
  direction : String
  timestamp : Option ℚ
  logicalPacketId : Option String

/-- A bare SYN without a recorded direction comes from the initiator. -/
def originDirection (o : Observation) (p : Facts) : Direction :=
  if Direction.ofText o.direction = .unknown ∧ p.protocol = .tcp ∧ p.syn ∧ ¬p.hasFlag thAck then
    .outbound
  else
    Direction.ofText o.direction

namespace Flow

def new (id : ℕ) (p : Facts) (timestamp : Option ℚ) (direction : Direction) : Flow where
  id := id
  protocol := p.protocol
  version := p.version
  source := p.source
  destination := p.destination
  startedAt := timestamp
  endedAt := timestamp
  closed := false
  directions := Dict.empty.set p.ends direction
  synSequences := if p.syn then Dict.empty.set p.ends p.synSequence else Dict.empty
  logicalIds := []

/-- The peer of a known direction has the other one. -/
def registerDirection (origin : Direction) (e : Ends) (f : Flow) : Flow :=
  if f.directions.contains e then f
  else
    let direction :=
      match f.directions.get? e.reverse with
      | some .outbound => .inbound
      | some .inbound => .outbound
      | _ => origin
    { f with directions := f.directions.set e direction }

def registerSyn (p : Facts) (f : Flow) : Flow :=
  if p.syn ∧ ¬f.synSequences.contains p.ends then
    { f with synSequences := f.synSequences.set p.ends p.synSequence }
  else f

def registerTime (timestamp : Option ℚ) (f : Flow) : Flow :=
  match timestamp with
  | none => f
  | some t =>
    { f with
      startedAt := match f.startedAt with
        | none => some t
        | some started => if t < started then some t else some started
      endedAt := match f.endedAt with
        | none => some t
        | some ended => if ended < t then some t else some ended }

def registerLogical (logicalPacketId : Option String) (f : Flow) : Flow :=
  match logicalPacketId with
  | none => f
  | some logical => { f with logicalIds := logical :: f.logicalIds }

def registerClose (p : Facts) (f : Flow) : Flow := if p.closes then { f with closed := true } else f

def register (o : Observation) (p : Facts) (f : Flow) : Flow :=
  (((f.registerDirection (originDirection o p) p.ends).registerSyn p).registerTime o.timestamp
    |>.registerLogical o.logicalPacketId).registerClose p

/-- A SYN with another sequence number than the first one of the same endpoint. -/
def newSynGeneration (p : Facts) (f : Flow) : Bool :=
  p.isNewSyn (f.synSequences.get? p.ends)

/-- The packet starts a new connection on the tuple of the flow. -/
def restarts (p : Facts) (f : Flow) : Bool := (f.closed && p.syn) || f.newSynGeneration p

end Flow

namespace Registry

def empty : Registry := ⟨1,[],fun _ => none,fun _ => none⟩

def flowId (r : Registry) (i : ℕ) : Option ℕ := (r.flows[i]?).map Flow.id

/-- The position of the flow that the packet joins, if it does not open one. -/
def joined (r : Registry) (p : Facts) : Option ℕ :=
  match r.byKey (canonicalKey p) with
  | none => none
  | some i =>
    match r.flows[i]? with
    | none => none
    | some f => if f.restarts p then none else some i

def allocate (r : Registry) (p : Facts) (timestamp : Option ℚ) (direction : Direction) : Registry :=
  { r with
    nextId := r.nextId+1
    flows := r.flows++[Flow.new r.nextId p timestamp direction]
    byKey := Function.update r.byKey (canonicalKey p) (some r.flows.length) }

def markLogical (table : String → Option ℕ) (i : ℕ) : Option String → String → Option ℕ
  | none => table
  | some logical => Function.update table logical (some i)

def registerAt (r : Registry) (i : ℕ) (o : Observation) (p : Facts) : Registry :=
  { r with
    flows := r.flows.modify i (Flow.register o p)
    logicalToFlow := markLogical r.logicalToFlow i o.logicalPacketId }

def known (r : Registry) (o : Observation) : Option ℕ := o.logicalPacketId.bind r.logicalToFlow

/-- The identifier of the flow, and none for what is no TCP or UDP packet. -/
def observePacket (r : Registry) (o : Observation) : Option ℕ × Registry :=
  match o.facts with
  | none => (none,r)
  | some p =>
    if p.protocol = .other then (none,r)
    else
      match r.known o with
      | some i => (r.flowId i,r)
      | none =>
        let (i,r) :=
          match r.joined p with
          | some i => (i,r)
          | none => (r.flows.length,r.allocate p o.timestamp (originDirection o p))
        let r := r.registerAt i o p
        (r.flowId i,r)

def directionFor (r : Registry) (flowId : ℕ) (e : Ends) : Direction :=
  match r.flows.find? (·.id = flowId) with
  | none => .unknown
  | some f => (f.directions.get? e).getD .unknown

/-- The registry after all observations, with the flow of each. -/
def observeAll : Registry → List Observation → List (Option ℕ) × Registry
  | r,[] => ([],r)
  | r,o :: rest =>
    let (id,r) := r.observePacket o
    let (ids,r) := observeAll r rest
    (id :: ids,r)

end Registry

end Report
end FakeNetNG
