import FakeNetNG.OrderedDict
import FakeNetNG.PortSpec
import FakeNetNG.Fallible

/-!
# UDP lifetimes from AFD events

`udp_lifetimes` reads the events of the Windows socket driver once. A creation of a UDP socket starts a
lifetime under its process and endpoint pointer, the next creation under the same pointers ends it, and the
events in between fill it in. A send is completed by the exit of the same call; calls that cannot be told apart
stay ambiguous until the next creation.
-/

namespace FakeNetNG
namespace Afd

def afdProvider : String := "Microsoft-Windows-Winsock-AFD"

inductive Fault
  | parseError | keyError | typeError | valueError
  deriving DecidableEq

structure AfdEvent where
  provider : String
  id : ℤ
  time : String
  xml : String

/-- The text of a data item, `None` for an empty one. -/
abbrev Field := Option Text

/-- What the source looks up in the parsed XML: the provider element with its name, the text of the event
identifier, and the data items with their names. -/
structure EventXml where
  provider : Option (Option String)
  eventId : Option Field
  data : List (Option String × Field)

/-- `int` reads the decimal digits of any script as ASCII ones. -/
def asciiDigits (text : Text) : Text := text.map fun c => ((Text.digitValue c).map Nat.digitChar).getD c

/-- `int(text, 0)` without its sign. -/
def readPrefixed : Text → Option ℕ
  | '0' :: 'x' :: digits | '0' :: 'X' :: digits => readBase 16 (dropUnderscore digits)
  | '0' :: 'o' :: digits | '0' :: 'O' :: digits => readBase 8 (dropUnderscore digits)
  | '0' :: 'b' :: digits | '0' :: 'B' :: digits => readBase 2 (dropUnderscore digits)
  | digits =>
    match Text.readDigitGroups digits with
    | none => none
    | some n => if n ≠ 0 ∧ digits.head?.bind Text.digitValue = some 0 then none else some n
where
  dropUnderscore : Text → Text
    | '_' :: digits => digits
    | digits => digits
  readBase (base : ℕ) (digits : Text) : Option ℕ :=
    let groups := Text.split '_' digits
    if groups.all fun group => group ≠ [] && group.all fun c => (IpAddress.hexDigit c).any (· < base) then
      groups.flatten.foldl (fun value c => do return (← value)*base+(← IpAddress.hexDigit c)) (some 0)
    else none

/-- `int(text, 0)`. -/
def readAutoInt (text : Text) : Option ℤ :=
  match asciiDigits (Text.intStrip text) with
  | '-' :: digits => (readPrefixed digits).map fun n : ℕ => -(n:ℤ)
  | '+' :: digits => (readPrefixed digits).map fun n : ℕ => (n:ℤ)
  | digits => (readPrefixed digits).map fun n : ℕ => (n:ℤ)

example : readAutoInt "0xC000_0005".toList = some 0xC0000005 := by decide
example : readAutoInt "017".toList = none := by decide
example : readAutoInt ['٠','x','1','٢'] = some 0x12 := by decide +kernel

/-- `bytes.fromhex`: two digits for a byte, with ASCII blanks between the bytes. -/
def fromHex : Text → Option (List ℕ)
  | [] => some []
  | c::rest =>
    if c = ' ' ∨ (9 ≤ c.toNat ∧ c.toNat ≤ 13) then fromHex rest
    else
      match rest with
      | [] => none
      | d::rest => do
        let high ← IpAddress.hexDigit c
        let low ← IpAddress.hexDigit d
        let bytes ← fromHex rest
        return (high*16+low)::bytes

inductive SocketHost
  | v4 (bytes : List ℕ)
  | v6 (bytes : List ℕ) (scope : ℕ)
  deriving DecidableEq

structure SocketAddress where
  family : ℕ
  host : SocketHost
  port : ℕ
  deriving DecidableEq

def littleEndian (bytes : List ℕ) : ℕ := bytes.foldr (fun byte value => byte+256*value) 0

def bigEndian (bytes : List ℕ) : ℕ := bytes.foldl (fun value byte => 256*value+byte) 0

def slice (first last : ℕ) (bytes : List ℕ) : List ℕ := (bytes.take last).drop first

def socketAddress (value : Field) : Except Fault SocketAddress :=
  match value with
  | none => .error .typeError
  | some text =>
    match fromHex text with
    | none => .error .valueError
    | some raw =>
      let family := littleEndian (raw.take 2)
      let port := bigEndian (slice 2 4 raw)
      if family = 2 ∧ raw.length = 16 then .ok ⟨family,.v4 (slice 4 8 raw),port⟩
      else if family = 23 ∧ raw.length = 28 then
        .ok ⟨family,.v6 (slice 8 24 raw) (littleEndian (slice 24 28 raw)),port⟩
      else .error .valueError

abbrev SocketKey := Field × Field

structure AfdCall where
  kind : ℤ
  key : SocketKey
  entering : Bool
  successful : Bool
  time : String
  data : List (String × Field)

/-- `data.get(name)`; a later item of a name hides the earlier ones. -/
def lookupField (data : List (String × Field)) (name : String) : Option Field := data.reverse.lookup name

def getField (data : List (String × Field)) (name : String) : Except Fault Field :=
  match lookupField data name with
  | none => .error .keyError
  | some value => .ok value

def toInt (read : Text → Option ℤ) (value : Field) : Except Fault ℤ :=
  match value with
  | none => .error .typeError
  | some text =>
    match read text with
    | none => .error .valueError
    | some n => .ok n

def dataItems : List (Option String × Field) → Except Fault (List (String × Field))
  | [] => .ok []
  | (none,_)::_ => .error .keyError
  | (some name,value)::rest => (dataItems rest).map ((name,value)::·)

def kinds : List ℤ := [1000,1030,1007,1013,1001]

def sameIdentity (xml : EventXml) (kind : ℤ) : Except Fault Unit :=
  if xml.provider ≠ some (some afdProvider) then .error .valueError
  else
    match xml.eventId with
    | none => .error .valueError
    | some text => do
      let id ← toInt Text.readInt text
      if id ≠ kind then .error .valueError else .ok ()

/-- What the loop does before it looks at its tables; `none` for an event that it skips. -/
def afdCall (fromstring : String → Option EventXml) (event : AfdEvent) : Except Fault (Option AfdCall) :=
  if event.provider ≠ afdProvider then .ok none
  else if event.id ∉ kinds then .ok none
  else
    match fromstring event.xml with
    | none => .error .parseError
    | some xml => do
      sameIdentity xml event.id
      let data ← dataItems xml.data
      let process ← getField data "Process"
      let endpoint ← getField data "Endpoint"
      let enterExit ← toInt Text.readInt (← getField data "EnterExit")
      if enterExit ≠ 0 ∧ enterExit ≠ 1 then return none
      let status ← toInt readAutoInt (← getField data "Status")
      return some ⟨event.id,(process,endpoint),decide (enterExit = 0),decide (status = 0),event.time,data⟩

structure Sent where
  event : ℕ
  time : String
  destination : SocketAddress
  completed : Option ℕ
  completionTime : Option String
  succeeded : Bool
  deriving DecidableEq

structure Lifetime where
  key : SocketKey
  pid : ℤ
  created : ℕ
  creationTime : String
  creationSucceeded : Bool
  requestedBind : Option SocketAddress
  bound : Option SocketAddress
  bindEvent : Option ℕ
  bindTime : Option String
  outbound : List Sent
  closeRequested : Option ℕ
  closed : Option ℕ
  closeTime : Option String
  supersededWithoutClose : Bool
  deriving DecidableEq

structure CallKey where
  key : SocketKey
  kind : ℤ
  buffer : Field
  length : Field
  address : Field
  deriving DecidableEq

/-- The tables of the loop. An active lifetime is named by its position; a pending send by that of its
lifetime and its own, and it is `none` when it cannot be told apart. -/
structure Scan where
  active : Dict SocketKey ℕ
  lifetimes : List Lifetime
  pending : Dict CallKey (Option (ℕ × ℕ))

def Scan.start : Scan := ⟨Dict.empty,[],Dict.empty⟩

/-- `data.get('Buffer')`, where an empty text is `None` already. -/
def AfdCall.get (call : AfdCall) (name : String) : Field := (lookupField call.data name).join

def AfdCall.callKey (call : AfdCall) : Except Fault CallKey := do
  let address ← getField call.data "Address"
  return ⟨call.key,call.kind,call.get "Buffer",call.get "BufferLength",address⟩

def AfdCall.isCreation (call : AfdCall) : Bool := decide (call.kind = 1000) && call.entering

def supersede (item : Lifetime) : Lifetime :=
  if item.closed.isNone then { item with supersededWithoutClose := true } else item

def retire (key : SocketKey) (scan : Scan) : Scan where
  active := scan.active.pop key
  lifetimes :=
    match scan.active.get? key with
    | none => scan.lifetimes
    | some i => scan.lifetimes.modify i supersede
  pending := scan.pending.filter fun call _ => call.key ≠ key

def newLifetime (index : ℕ) (call : AfdCall) (pid : ℤ) : Lifetime where
  key := call.key
  pid := pid
  created := index
  creationTime := call.time
  creationSucceeded := false
  requestedBind := none
  bound := none
  bindEvent := none
  bindTime := none
  outbound := []
  closeRequested := none
  closed := none
  closeTime := none
  supersededWithoutClose := false

/-- `int(data['SocketType']) == 2 and int(data['Protocol']) == 17`. -/
def AfdCall.isUdp (call : AfdCall) : Except Fault Bool := do
  let socketType ← toInt Text.readInt (← getField call.data "SocketType")
  if socketType ≠ 2 then return false
  let protocol ← toInt Text.readInt (← getField call.data "Protocol")
  return decide (protocol = 17)

def create (index : ℕ) (call : AfdCall) (scan : Scan) : Except Fault Scan := do
  let scan := retire call.key scan
  if !(← call.isUdp) then return scan
  let pid ← toInt readAutoInt (← getField call.data "ProcessId")
  return { scan with
    lifetimes := scan.lifetimes++[newLifetime index call pid]
    active := scan.active.set call.key scan.lifetimes.length }

def bind (index : ℕ) (call : AfdCall) (item : Lifetime) : Except Fault Lifetime := do
  let address ← socketAddress (← getField call.data "Address")
  if call.entering then return { item with requestedBind := some address }
  if call.successful && item.requestedBind.isSome then
    return { item with bound := some address, bindEvent := some index, bindTime := some call.time }
  return item

def close (index : ℕ) (call : AfdCall) (item : Lifetime) : Lifetime :=
  if call.entering then { item with closeRequested := some index }
  else if call.successful && item.closeRequested.isSome then
    { item with closed := some index, closeTime := some call.time }
  else item

def complete (index : ℕ) (call : AfdCall) (sent : Sent) : Sent :=
  { sent with completed := some index, completionTime := some call.time, succeeded := call.successful }

def send (index : ℕ) (call : AfdCall) (i : ℕ) (item : Lifetime) (scan : Scan) : Except Fault Scan := do
  let key ← call.callKey
  if call.entering then
    let destination ← socketAddress key.address
    let sent : Sent := ⟨index,call.time,destination,none,none,false⟩
    let ambiguous := scan.pending.contains key || key.buffer.isNone
    return { scan with
      lifetimes := scan.lifetimes.set i { item with outbound := item.outbound++[sent] }
      pending := scan.pending.set key (if ambiguous then none else some (i,item.outbound.length)) }
  else
    match scan.pending.get? key with
    | none => return scan
    | some none => return scan
    | some (some (owner,position)) =>
      return { scan with
        lifetimes := scan.lifetimes.modify owner fun item =>
          { item with outbound := item.outbound.modify position (complete index call) }
        pending := scan.pending.pop key }

def scanCall (index : ℕ) (call : AfdCall) (scan : Scan) : Except Fault Scan :=
  if call.isCreation then create index call scan
  else
    match scan.active.get? call.key with
    | none => .ok scan
    | some i =>
      match scan.lifetimes[i]? with
      | none => .ok scan
      | some item =>
        if item.closed.isSome then .ok scan
        else if call.kind = 1000 then
          .ok { scan with lifetimes := scan.lifetimes.set i { item with creationSucceeded := call.successful } }
        else if call.kind = 1030 then do
          let item ← bind index call item
          return { scan with lifetimes := scan.lifetimes.set i item }
        else if call.kind = 1001 then
          .ok { scan with lifetimes := scan.lifetimes.set i (close index call item) }
        else send index call i item scan

def scanEvents (fromstring : String → Option EventXml) : ℕ → List AfdEvent → Scan → Except Fault Scan
  | _, [], scan => .ok scan
  | index, event::rest, scan => do
    match ← afdCall fromstring event with
    | none => scanEvents fromstring (index+1) rest scan
    | some call =>
      let scan ← scanCall index call scan
      scanEvents fromstring (index+1) rest scan

def udpLifetimes (fromstring : String → Option EventXml) (events : List AfdEvent) : Except Fault (List Lifetime) :=
  (scanEvents fromstring 0 events .start).map Scan.lifetimes

end Afd
end FakeNetNG
