import FakeNetNG.Base64
import FakeNetNG.JsonText
import FakeNetNG.Utf8Text

/-!
# The originals of a capture

`CaptureOriginalsWriter` appends a line for each observation and for each indicator to a journal. The
count of a journal goes up before its line is made, and a call may raise at every step after that.
-/

namespace FakeNetNG
namespace Originals

open Json (Value FloatText)

/-- A value that a caller passes. The keys of a mapping are given as `str` makes them. -/
inductive PyValue
  | none
  | bool (b : Bool)
  | int (n : ℤ)
  | float (f : FloatText)
  | str (s : Text)
  | bytes (raw : List UInt8)
  /-- A list, a tuple or a set. -/
  | items (values : List PyValue)
  | dict (members : List (Text × PyValue))
  /-- Anything else, with its `str`. -/
  | other (text : Text)

def setMember (name : Text) (v : Value) : List (Text × Value) → List (Text × Value)
  | [] => [(name,v)]
  | m :: members => if m.1 = name then (name,v) :: members else m :: setMember name v members

mutual

def jsonSafe : PyValue → Value
  | .none => .null
  | .bool b => .bool b
  | .int n => .int n
  | .float f => .float f
  | .str s => .str s
  | .bytes raw => .obj [("encoding".toList,.str "base64".toList),
      ("value".toList,.str (Base64.plainEncode raw))]
  | .items values => .arr (jsonSafeItems values)
  | .dict members => .obj (jsonSafeMembers members [])
  | .other text => .str text

def jsonSafeItems : List PyValue → List Value
  | [] => []
  | v :: values => jsonSafe v :: jsonSafeItems values

def jsonSafeMembers : List (Text × PyValue) → List (Text × Value) → List (Text × Value)
  | [],safe => safe
  | (name,v) :: members,safe => jsonSafeMembers members (setMember name (jsonSafe v) safe)

end

def journalSchema : Text := "fakenet.capture-originals-journal.v1".toList

def observationsName : Text := "observations".toList

def nbisName : Text := "nbis".toList

/-- What the stream of a journal has taken, and how many records were counted. -/
structure Journal where
  bytes : List UInt8
  count : ℕ

/-- Where an append raises: before anything gets to the stream, in the write after this many bytes,
or in the flush, which leaves the line in the stream. -/
structure Faults where
  prepare : Bool
  write : Option ℕ
  flush : Bool

def lineOf (record : Value) : List UInt8 := Utf8.encode (Json.write record)++[Utf8.newline]

/-- `_append`. A record that `json.dumps` cannot write is none. -/
def Journal.append (stopped : Bool) (faults : Faults) (record : Option Value) (j : Journal) :
    Bool × Journal :=
  if stopped || faults.prepare then (false,j)
  else
    match record,faults.write with
    | none,_ => (false,j)
    | some record,some taken => (false,{ j with bytes := j.bytes++(lineOf record).take taken })
    | some record,none => (!faults.flush,{ j with bytes := j.bytes++lineOf record })

def journalHead (captureId journal : Text) : List (Text × Value) :=
  [("schema".toList,.str journalSchema),("journal".toList,.str journal),
    ("capture_id".toList,.str captureId)]

/-- An entry is a mapping, with each value as `json.dumps` writes it, or none if it cannot. -/
structure ObservationCall where
  entry : Option (List (Text × Option Value))
  faults : Faults

structure NbiCall where
  session : Option (List (Text × PyValue))
  applicationLayerProto : Text
  isSslEncrypted : PyValue
  networkMode : Text
  nbi : Option (List (Text × PyValue))
  recordedAt : FloatText
  faults : Faults

inductive Call
  | recordObservation (c : ObservationCall)
  | recordNbi (c : NbiCall)

def persistedKeys : List Text :=
  ["logical_packet_id".toList,"observation_role".toList,"direction".toList,"length".toList,
    "sha256".toList,"flow_id".toList,"timestamp".toList]

def entryValue (entry : List (Text × Option Value)) (key : Text) : Option (Option Value) :=
  (entry.find? fun m => m.1 = key).map Prod.snd

/-- The persisted members of an entry, in the order of their keys. -/
def persistedMembers (entry : List (Text × Option Value)) : List Text → Option (List (Text × Value))
  | [] => some []
  | key :: keys =>
    match entryValue entry key with
    | none => persistedMembers entry keys
    | some v => v.bind fun v => (persistedMembers entry keys).map ((key,v) :: ·)

def observationRecord (captureId : Text) (ordinal : ℕ) (entry : List (Text × Option Value)) :
    Option Value :=
  (persistedMembers entry persistedKeys).map fun members =>
    .obj (journalHead captureId observationsName++("ordinal".toList,.int ordinal) :: members)

def nbiRecord (captureId : Text) (ordinal : ℕ) (c : NbiCall) (nbi : List (Text × PyValue)) : Value :=
  .obj (journalHead captureId nbisName++
    [("ordinal".toList,.int ordinal),("recorded_at".toList,.float c.recordedAt),
      ("application_layer_proto".toList,.str c.applicationLayerProto),
      ("is_ssl_encrypted".toList,jsonSafe c.isSslEncrypted),
      ("network_mode".toList,.str c.networkMode),
      ("session".toList,jsonSafe (.dict (c.session.getD []))),
      ("metrics".toList,jsonSafe (.dict nbi))])

structure Writer where
  captureId : Text
  pairBasename : Text
  observations : Journal
  nbis : Journal
  closed : Bool
  isSealed : Bool

namespace Writer

def openJournal (captureId pairBasename journal : Text) (createdAt : FloatText) : Journal where
  bytes := lineOf (.obj (journalHead captureId journal++
    [("pair_basename".toList,.str pairBasename),("created_at".toList,.float createdAt)]))
  count := 0

/-- A new writer. The constructor refuses an identifier that is no UUID. -/
def create (validUuid : Text → Bool) (captureId pairBasename : Text) (observationsAt nbisAt : FloatText) :
    Option Writer :=
  if validUuid captureId then
    some ⟨captureId,pairBasename,openJournal captureId pairBasename observationsName observationsAt,
      openJournal captureId pairBasename nbisName nbisAt,false,false⟩
  else none

def stopped (w : Writer) : Bool := w.closed || w.isSealed

def recordObservation (w : Writer) (c : ObservationCall) : Bool × Writer :=
  match c.entry with
  | none => (false,w)
  | some entry =>
    let j : Journal := { w.observations with count := w.observations.count+1 }
    let r := j.append w.stopped c.faults (observationRecord w.captureId j.count entry)
    (r.1,{ w with observations := r.2 })

def recordNbi (w : Writer) (c : NbiCall) : Bool × Writer :=
  match c.nbi with
  | none => (false,w)
  | some nbi =>
    let j : Journal := { w.nbis with count := w.nbis.count+1 }
    let r := j.append w.stopped c.faults (some (nbiRecord w.captureId j.count c nbi))
    (r.1,{ w with nbis := r.2 })

def call (w : Writer) : Call → Bool × Writer
  | .recordObservation c => w.recordObservation c
  | .recordNbi c => w.recordNbi c

/-- All calls one after the other, each of which may raise. -/
def run (w : Writer) : List Call → List Bool × Writer
  | [] => ([],w)
  | c :: calls =>
    let r := w.call c
    let rest := run r.2 calls
    (r.1 :: rest.1,rest.2)

end Writer

end Originals
end FakeNetNG
