import FakeNetNG.Fallible
import FakeNetNG.PcapFormat

/-!
# Writing a capture

The pair of PCAP files, the index of the observations, and the two ways in which the diverter writes
a packet to both. The SHA-256 digest and the registry of the flows are parameters.
-/

namespace FakeNetNG
namespace Pcap

inductive ErrorKind
  | pcapWriteError
  | payloadReportError
  | other
  deriving DecidableEq

structure Raised where
  kind : ErrorKind
  message : String
  deriving DecidableEq

structure Writer where
  snaplen : ℕ
  rawFile : Bytes
  ethernetFile : Bytes
  rawWriteCount : ℕ
  ethernetWriteCount : ℕ
  lastRecordOrdinal : ℕ
  lastTimestamp : Option ℚ
  rejectedInputCount : ℕ
  lastRejectionLog : Option ℚ
  writeError : Option String
  closed : Bool

/-- What a write meets: the clock, and for each file how much of the record it takes if writing
to it raises. -/
structure Conditions where
  clock : ℚ
  rawWrite : Option ℕ
  ethernetWrite : Option ℕ

def ethernetDestination : Bytes := [0x02,0x00,0x00,0x00,0x00,0x02]

def ethernetSource : Bytes := [0x02,0x00,0x00,0x00,0x00,0x01]

def etherType (version : ℕ) : Bytes := if version = 4 then [0x08,0x00] else [0x86,0xdd]

def ethernetHeader (version : ℕ) : Bytes := ethernetDestination++ethernetSource++etherType version

def versionOf (first : UInt8) : ℕ := first.toNat/16

def pcapSnaplen : ℕ := 262144

namespace Writer

variable (f : Format)

def openPair (snaplen : ℕ) : Writer where
  snaplen := snaplen
  rawFile := f.fileHeader .raw snaplen
  ethernetFile := f.fileHeader .ethernet snaplen
  rawWriteCount := 0
  ethernetWriteCount := 0
  lastRecordOrdinal := 0
  lastTimestamp := none
  rejectedInputCount := 0
  lastRejectionLog := none
  writeError := none
  closed := false

/-- The input is counted, and logged unless the last such log is less than a second old. -/
def rejectInput (now : ℚ) (w : Writer) : Writer :=
  { w with
    rejectedInputCount := w.rejectedInputCount+1
    lastRejectionLog :=
      match w.lastRejectionLog with
      | none => some now
      | some last => if 1 ≤ now-last then some now else some last }

def fail (message : String) (w : Writer) : Except Raised Bool × Writer :=
  (.error ⟨.pcapWriteError,message⟩,{ w with writeError := some message })

/-- What gets to a file of one record, and the error if its packing or its write raises. -/
def append (fault : Option ℕ) (r : Record) : Bytes × Option String :=
  match f.pack r,fault with
  | none,_ => ([],some "argument out of range")
  | some bytes,none => (bytes,none)
  | some bytes,some kept => (bytes.take kept,some "OSError")

def writeIpPacket (c : Conditions) (raw : Bytes) : Fallible Writer Raised Bool := fun w =>
  if w.closed then (.error ⟨.pcapWriteError,"paired pcap writer is closed"⟩,w)
  else
    match w.writeError,raw with
    | some message,_ => (.error ⟨.pcapWriteError,message⟩,w)
    | none,[] => (.ok false,w.rejectInput c.clock)
    | none,first :: _ =>
      let version := versionOf first
      if version ≠ 4 ∧ version ≠ 6 then (.ok false,w.rejectInput c.clock)
      else
        let ethernet := ethernetHeader version++raw
        if w.snaplen < raw.length ∨ w.snaplen < ethernet.length then
          w.fail s!"pcap record exceeds snaplen {w.snaplen}"
        else
          let seconds := truncate c.clock
          let subseconds := intround (f.subseconds c.clock)
          match append f c.rawWrite ⟨seconds,subseconds,raw⟩ with
          | (bytes,some e) => fail s!"paired pcap write failed: {e}" { w with rawFile := w.rawFile++bytes }
          | (bytes,none) =>
            let w := { w with rawFile := w.rawFile++bytes, rawWriteCount := w.rawWriteCount+1 }
            match append f c.ethernetWrite ⟨seconds,subseconds,ethernet⟩ with
            | (bytes,some e) =>
              fail s!"paired pcap write failed: {e}" { w with ethernetFile := w.ethernetFile++bytes }
            | (bytes,none) =>
              (.ok true,
                { w with
                  ethernetFile := w.ethernetFile++bytes
                  ethernetWriteCount := w.ethernetWriteCount+1
                  lastRecordOrdinal := w.rawWriteCount
                  lastTimestamp := some c.clock })

end Writer

structure Entry where
  ordinal : ℕ
  logicalPacketId : String
  observationRole : String
  direction : String
  length : ℕ
  sha256 : String
  flowId : Option String
  timestamp : Option ℚ
  deriving DecidableEq

structure Index where
  entries : List Entry
  nextLogicalPacketId : ℕ

def observationRoles : List String := ["initial","final","inbound"]

/-- `packet-%08d`. -/
def packetName (n : ℕ) : String :=
  "packet-"++String.ofList (List.replicate (8-(toString n).length) '0')++toString n

/-- `value or default`. -/
def orElse (value default : String) : String := if value = "" then default else value

namespace Index

def empty : Index := ⟨[],1⟩

def newLogicalPacketId : Fallible Index Raised String := fun i =>
  (.ok (packetName i.nextLogicalPacketId),
    { i with nextLogicalPacketId := i.nextLogicalPacketId+1 })

def record (sha256 : Bytes → String) (raw : Bytes) (observationRole : String)
    (logicalPacketId : Option String) (flowId : Option String) (direction : String)
    (timestamp : Option ℚ) (recordOrdinal : Option ℕ) : Fallible Index Raised Entry := fun i =>
  if observationRole ∉ observationRoles then
    (.error ⟨.payloadReportError,s!"unknown observation role '{observationRole}'"⟩,i)
  else if raw = [] then
    (.error ⟨.payloadReportError,"empty observation cannot be indexed"⟩,i)
  else
    let expected := i.entries.length+1
    let ordinal := recordOrdinal.getD expected
    if ordinal ≠ expected then
      (.error ⟨.payloadReportError,
        s!"observation ordinal {ordinal} is not expected ordinal {expected}"⟩,i)
    else
      let entry : Entry := {
        ordinal := ordinal
        logicalPacketId := orElse (logicalPacketId.getD "") (packetName ordinal)
        observationRole := observationRole
        direction := orElse direction "unknown"
        length := raw.length
        sha256 := sha256 raw
        flowId := flowId
        timestamp := timestamp }
      (.ok entry,{ i with entries := i.entries++[entry] })

end Index

/-- What the capture leaves on a packet object. -/
structure Attributes where
  logicalPacketId : Option String := none
  flowId : Option String := none
  observation : Option Entry := none

/-- A packet object at a capture hook. Its octets, its direction and whether it is mangled may have
changed since the hook before. -/
structure Packet where
  object : ℕ
  octets : Bytes
  mangled : Bool
  direction : String

/-- What one call meets. -/
structure Surroundings extends Conditions where
  sealed : Bool
  now : ℚ
  /-- What the journal of the originals raises. -/
  originals : Option String

structure Diverter (ρ : Type) where
  writer : Writer
  index : Index
  registry : ρ
  attributes : ℕ → Attributes

namespace Diverter

open Fallible

variable {ρ : Type} (f : Format) (sha256 : Bytes → String)
  (observePacket : Bytes → String → ℚ → String → Fallible ρ Raised (Option String))

def onWriter {α : Type} (m : Fallible Writer Raised α) : Fallible (Diverter ρ) Raised α := fun s =>
  ((m s.writer).1,{ s with writer := (m s.writer).2 })

def onIndex {α : Type} (m : Fallible Index Raised α) : Fallible (Diverter ρ) Raised α := fun s =>
  ((m s.index).1,{ s with index := (m s.index).2 })

def onRegistry {α : Type} (m : Fallible ρ Raised α) : Fallible (Diverter ρ) Raised α := fun s =>
  ((m s.registry).1,{ s with registry := (m s.registry).2 })

def setAttributes (object : ℕ) (change : Attributes → Attributes) :
    Fallible (Diverter ρ) Raised Unit :=
  modify fun s =>
    { s with attributes := Function.update s.attributes object (change (s.attributes object)) }

/-- Both ways observe the flow, write the pair, and index the record that was written. -/
def capture (e : Surroundings) (raw : Bytes) (observationRole direction logicalPacketId : String) :
    Fallible (Diverter ρ) Raised (Option String × Entry) := do
  let flowId ← onRegistry (observePacket raw direction e.now logicalPacketId)
  let written ← onWriter (Writer.writeIpPacket f e.toConditions raw)
  if written = false then
    raise ⟨.pcapWriteError,"paired pcap writer rejected packet"⟩
  else
    let s ← get
    let writerOrdinal :=
      if s.writer.lastRecordOrdinal = 0 then s.index.entries.length+1 else s.writer.lastRecordOrdinal
    let entry ← onIndex (Index.record sha256 raw observationRole (some logicalPacketId) flowId direction
      (some (s.writer.lastTimestamp.getD e.now)) (some writerOrdinal))
    match e.originals with
    | some message => raise ⟨.other,message⟩
    | none => pure (flowId,entry)

def logicalPacketIdOf (pkt : Packet) : Fallible (Diverter ρ) Raised String := do
  let s ← get
  match (s.attributes pkt.object).logicalPacketId with
  | some logicalPacketId => pure logicalPacketId
  | none =>
    let logicalPacketId ← onIndex Index.newLogicalPacketId
    setAttributes pkt.object fun a => { a with logicalPacketId := some logicalPacketId }
    pure logicalPacketId

def roleOf (pkt : Packet) : String := if pkt.mangled then "final" else "initial"

/-- The packet was written before with the same role and the same octets. -/
def sameAsBefore (pkt : Packet) (previous : Option Entry) : Bool :=
  match previous with
  | none => false
  | some entry => entry.observationRole = roleOf pkt && entry.length = pkt.octets.length &&
      entry.sha256 = sha256 pkt.octets

def writePcapLocked (e : Surroundings) (pkt : Packet) : Fallible (Diverter ρ) Raised Bool := do
  if e.sealed then
    pure false
  else
    let logicalPacketId ← logicalPacketIdOf pkt
    let s ← get
    if sameAsBefore sha256 pkt (s.attributes pkt.object).observation then
      pure true
    else
      let r ← capture f sha256 observePacket e pkt.octets (roleOf pkt) pkt.direction logicalPacketId
      setAttributes pkt.object fun a => { a with flowId := r.1, observation := some r.2 }
      pure true

def recordRawCaptureLocked (e : Surroundings) (raw : Bytes) (observationRole direction : String)
    (logicalPacketId : Option String) : Fallible (Diverter ρ) Raised (Option Entry) := do
  if e.sealed then
    pure none
  else
    let logicalPacketId ← match logicalPacketId with
      | some logicalPacketId => pure logicalPacketId
      | none => onIndex Index.newLogicalPacketId
    let r ← capture f sha256 observePacket e raw observationRole direction logicalPacketId
    pure (some r.2)

def initial (registry : ρ) : Diverter ρ :=
  ⟨.openPair f pcapSnaplen,.empty,registry,fun _ => {}⟩

end Diverter

inductive Call
  | writePcap (e : Surroundings) (pkt : Packet)
  | recordRawCapture (e : Surroundings) (raw : Bytes) (observationRole direction : String)
      (logicalPacketId : Option String)

namespace Call

variable {ρ : Type} (f : Format) (sha256 : Bytes → String)
  (observePacket : Bytes → String → ℚ → String → Fallible ρ Raised (Option String))

def surroundings : Call → Surroundings
  | writePcap e _ => e
  | recordRawCapture e _ _ _ _ => e

def octets : Call → Bytes
  | writePcap _ pkt => pkt.octets
  | recordRawCapture _ raw _ _ _ => raw

def perform : Call → Fallible (Diverter ρ) Raised Unit
  | writePcap e pkt => do
    let _ ← Diverter.writePcapLocked f sha256 observePacket e pkt
    pure ()
  | recordRawCapture e raw observationRole direction logicalPacketId => do
    let _ ← Diverter.recordRawCaptureLocked f sha256 observePacket e raw observationRole direction
      logicalPacketId
    pure ()

/-- The calls one after the other, up to the first that raises. -/
def performAll : List Call → Fallible (Diverter ρ) Raised Unit
  | [] => pure ()
  | call :: calls => do
    perform f sha256 observePacket call
    performAll calls

end Call

end Pcap
end FakeNetNG
