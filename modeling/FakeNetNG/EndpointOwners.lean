import FakeNetNG.BaselineAudit

/-!
# The owners of changed endpoints

`foreign_udp_owner_changes` accepts a changed port listing when the changed rows are UDP endpoints of processes
that ran before the trace and are not managed. The rows it compares have no process; it looks the process up in
the raw listing, where it takes the first row of the endpoint.
-/

namespace FakeNetNG
namespace EndpointOwners

open BaselineAudit

section Evidence

variable (ρ : Type)

/-- A field that is missing has no value. -/
structure Baseline where
  runId : Option ρ
  sections : Option Sections
  windowStartNs : Option ℚ

structure Sample where
  runId : Option ρ
  current : Option Sections

/-- `ProcessId` as it stands in the JSON. -/
structure ProcessRow where
  processId : Option Json.Value
  creationTime : Option Text

structure StartMarker where
  runId : Option ρ
  timeNs : Option ℚ
  processes : Option (List ProcessRow)

/-- The flags tell whether the fields are `True`. -/
structure EndMarker where
  runId : Option ρ
  complete : Bool
  absent : Bool

structure Proof where
  runId : Option ρ
  start : Option (StartMarker ρ)
  endMarker : Option (EndMarker ρ)

end Evidence

inductive Direction
  | removed | added
  deriving DecidableEq

structure Attributed where
  direction : Direction
  row : Text
  pid : ℤ
  creationTime : Text
  deriving DecidableEq

structure Refused where
  direction : Direction
  row : Text
  pid : ℤ
  reason : String
  deriving DecidableEq

structure Verdict where
  accepted : Bool
  rawEqual : Bool
  attributed : List Attributed
  refused : List Refused
  failure : Option Fault
  deriving DecidableEq

def Verdict.start : Verdict := ⟨false,false,[],[],none⟩

def field {α : Type} (value : Option α) : Except Fault α :=
  match value with
  | none => .error .other
  | some a => .ok a

def ensure (message : String) (condition : Bool) : Except Fault Unit := if condition then .ok () else .error (.valueError message)

section Owners

variable (py : Runtime)

/-- `int(value)`; `none` where it raises. -/
def toInt : Json.Value → Option ℤ
  | .bool b => some (if b then 1 else 0)
  | .int n => some n
  | .float f => py.truncate f
  | .str s => Text.readInt s
  | _ => none

def managedId (process : Json.Value) : Except Fault ℤ :=
  match (process.get? "Id".toList).bind (toInt py) with
  | none => .error (.valueError "managed process identity is incomplete")
  | some id => .ok id

def managedProcessIds (observed : Option Text) : Except Fault (List ℤ) :=
  match py.loads (observed.getD "None".toList) with
  | none => .error (.valueError "managed process evidence is not parseable")
  | some observed =>
    match observed.get? "managed".toList with
    | some (.arr processes) => processes.mapM (managedId py)
    | _ => .error (.valueError "managed process evidence is incomplete")

def startId (row : ProcessRow) : Except Fault (ℤ × Text) := do
  let value ← field row.processId
  let id ← field (toInt py value)
  let creationTime ← field row.creationTime
  return (id,creationTime)

/-- The processes at the start of the trace; no two have one identifier. -/
def startIds (rows : List ProcessRow) : Except Fault (List (ℤ × Text)) := do
  let ids ← rows.mapM (startId py)
  ensure "ambiguous process identity" (decide (ids.map Prod.fst).Nodup)
  return ids

/-- The endpoint and the process of a raw UDP row; the process is read only when it is taken. -/
def rawRow (line : Text) : Option (Text × Text) :=
  match words line with
  | [protocol,addressPort,foreign,pid] =>
    if py.upper protocol = "UDP".toList ∧ foreign = "*:*".toList ∧ py.isdigit pid then some (addressPort,pid) else none
  | _ => none

def rawRows (text : Text) : List (Text × Text) := (splitlines text).filterMap (rawRow py)

def rawOwner (text addressPort : Text) : Except Fault ℤ :=
  match (rawRows py text).find? fun row => row.1 = addressPort with
  | none => .error (.valueError ("raw owner row unavailable for "++String.ofList addressPort))
  | some row => field (Text.readInt row.2)

def udpAddress (line : Text) : Option Text :=
  match words line with
  | [protocol,addressPort,_] => if py.upper protocol = "UDP".toList then some addressPort else none
  | _ => none

def changedRows (before after : Text) : List (Direction × Text) :=
  ((surplus (splitlines before) (splitlines after)).map fun line => (Direction.removed,line))++
    (surplus (splitlines after) (splitlines before)).map fun line => (Direction.added,line)

/-- What the loop over the changed rows looks at. -/
structure Owners where
  managed : List ℤ
  started : List (ℤ × Text)
  before : Text
  after : Text

def Owners.listing (owners : Owners) : Direction → Text
  | .removed => owners.before
  | .added => owners.after

def attributeRow (owners : Owners) (verdict : Verdict) (direction : Direction) (line : Text) : Except Fault Verdict := do
  let addressPort ← field (udpAddress py line)
  let owner ← rawOwner py (owners.listing direction) addressPort
  if owner ∈ owners.managed then
    return { verdict with refused := verdict.refused++[⟨direction,line,owner,"baseline-managed owner"⟩] }
  match owners.started.lookup owner with
  | none => return { verdict with refused := verdict.refused++[⟨direction,line,owner,"owner created during run or unknown"⟩] }
  | some creationTime =>
    return { verdict with attributed := verdict.attributed++[⟨direction,line,owner,creationTime⟩] }

def attributeRows (owners : Owners) : Verdict → List (Direction × Text) → Verdict
  | verdict, [] => { verdict with accepted := !verdict.attributed.isEmpty && verdict.refused.isEmpty }
  | verdict, row :: rest =>
    match attributeRow py owners verdict row.1 row.2 with
    | .error fault => { verdict with failure := some fault }
    | .ok verdict => attributeRows owners verdict rest

variable {ρ : Type} [DecidableEq ρ]

def endCovered (run : ρ) (proof : Proof ρ) : Bool :=
  match proof.endMarker with
  | none => true
  | some marker => marker.runId = some run && marker.complete && marker.absent

/-- The identity of the run and its coverage, and then the comparison. -/
def compared (baseline : Baseline ρ) (sample : Sample ρ) (proof : Proof ρ) : Except Fault (List (String × Difference)) := do
  let run ← field baseline.runId
  let sampleRun ← field sample.runId
  ensure "run identity or start coverage unavailable" (sampleRun = run)
  let proofRun ← field proof.runId
  ensure "run identity or start coverage unavailable" (proofRun = run)
  let start ← field proof.start
  ensure "run identity or start coverage unavailable" (start.runId = some run)
  ensure "end coverage marker is not complete" (endCovered run proof)
  let sections ← field baseline.sections
  let current ← field sample.current
  auditCompare py sections current

def isolated (differences : List (String × Difference)) : Except Fault (Text × Text) :=
  match differences with
  | [(name,⟨false,some before,some after⟩)] =>
    if name = "listen_ports" then .ok (before,after) else .error (.valueError "not an isolated endpoint difference")
  | _ => .error (.valueError "not an isolated endpoint difference")

def prepare (baseline : Baseline ρ) (sample : Sample ρ) (proof : Proof ρ) (differences : List (String × Difference)) :
    Except Fault (Owners × List (Direction × Text)) := do
  let (before,after) ← isolated differences
  let windowStart ← field baseline.windowStartNs
  let start ← field proof.start
  let time ← field start.timeNs
  ensure "baseline sampling predates observation start" (time ≤ windowStart)
  let changed := changedRows before after
  ensure "no changed rows in normalized difference" (!changed.isEmpty)
  ensure "non-UDP row remains in difference" (changed.all fun row => (udpAddress py row.2).isSome)
  let sections ← field baseline.sections
  let current ← field sample.current
  let managed ← managedProcessIds py (sections "windivert_processes")
  let rows ← field start.processes
  let started ← startIds py rows
  let rawBefore ← field (sections "listen_ports")
  let rawAfter ← field (current "listen_ports")
  return (⟨managed,started,rawBefore,rawAfter⟩,changed)

def foreignUdpOwnerChanges (baseline : Baseline ρ) (sample : Sample ρ) (proof : Proof ρ) : Verdict :=
  match compared py baseline sample proof with
  | .error fault => { Verdict.start with failure := some fault }
  | .ok [] => { Verdict.start with accepted := true, rawEqual := true }
  | .ok differences =>
    match prepare py baseline sample proof differences with
    | .error fault => { Verdict.start with failure := some fault }
    | .ok (owners,changed) => attributeRows py owners .start changed

end Owners

end EndpointOwners
end FakeNetNG
