import FakeNetNG.CaptureValidation
import FakeNetNG.OrderedDict
import FakeNetNG.OriginalsJournal

/-!
# Sealing and loading the originals

The seal binds the journals and the pair of PCAP files by their facts and counts. Loading checks the
facts, every line of both journals and the observations against the PCAP files.
-/

namespace FakeNetNG
namespace Originals

open Json (Value FloatText)
open Pcap (Format ReadRecord require)

def originalsSchema : Text := "fakenet.capture-originals.v1".toList

structure File where
  name : Text
  bytes : List UInt8
  device : ℕ
  inode : ℕ

structure FileFacts where
  name : Text
  bytes : ℕ
  sha256 : Text
  device : ℕ
  inode : ℕ
  records : Option ℕ

/-- The values of the seal that loading reads. -/
structure Seal where
  schema : Text
  captureId : Text
  pairBasename : Text
  rawPcap : FileFacts
  convertedPcap : Option FileFacts
  observations : FileFacts
  nbis : FileFacts

/-- The files of a sealed capture. -/
structure Group where
  raw : File
  converted : Option File
  observations : File
  nbis : File
  inventory : Seal

/-- What `int`, `float`, `hash` and `str` make of a value that was read. Equal keys have one hash
here, and a list or an object has none. -/
structure PyValues where
  κ : Type
  decEq : DecidableEq κ
  int : Value → Option ℤ
  /-- `abs(float(value) - timestamp) > 0.000001`. -/
  timestampDiffers : Value → ℚ → Option Bool
  hash : Value → Option κ
  str : Value → Text
  lower : Text → Text
  int_int : ∀ n, int (.int n) = some n
  hash_scalar : ∀ v, (hash v).isSome ↔ (∀ items, v ≠ .arr items) ∧ ∀ members, v ≠ .obj members

namespace Writer

def observationsSuffix : Text := ".observations.ndjson".toList

def nbisSuffix : Text := ".nbis.ndjson".toList

def fileFacts (sha256 : List UInt8 → Text) (file : File) (records : Option ℕ) : FileFacts :=
  ⟨file.name,file.bytes.length,sha256 file.bytes,file.device,file.inode,records⟩

/-- `seal`, where every step of the file system succeeds. The identities of the journals are those
that the file system gave to them. -/
def sealGroup (w : Writer) (sha256 : List UInt8 → Text) (raw : File) (converted : Option File)
    (observationsId nbisId : ℕ × ℕ) : Option (Group × Writer) :=
  if w.isSealed ∨ w.closed ∨ raw.name ≠ w.pairBasename then none
  else
    let observations : File :=
      ⟨raw.name++observationsSuffix,w.observations.bytes,observationsId.1,observationsId.2⟩
    let nbis : File := ⟨raw.name++nbisSuffix,w.nbis.bytes,nbisId.1,nbisId.2⟩
    some ({
      raw := raw
      converted := converted
      observations := observations
      nbis := nbis
      inventory := {
        schema := originalsSchema
        captureId := w.captureId
        pairBasename := w.pairBasename
        rawPcap := fileFacts sha256 raw none
        convertedPcap := converted.map (fileFacts sha256 · none)
        observations := fileFacts sha256 observations (some w.observations.count)
        nbis := fileFacts sha256 nbis (some w.nbis.count) } },{ w with isSealed := true })

end Writer

def verifyFacts (sha256 : List UInt8 → Text) (verifyPhysical : Bool) (facts : Option FileFacts)
    (file : File) (what : String) : Except String Unit :=
  match facts with
  | none => .error s!"{what} facts are missing from the seal"
  | some facts => do
    require (facts.name = file.name) s!"{what} name is foreign to the seal"
    require (facts.bytes = file.bytes.length) s!"{what} byte count differs from the seal"
    require (facts.sha256 = sha256 file.bytes) s!"{what} SHA-256 differs from the seal"
    require (¬verifyPhysical ∨ facts.device = file.device ∧ facts.inode = file.inode)
      s!"{what} file identity differs from the seal (physical replacement)"

def isText (v : Option Value) (accepts : Text → Bool) : Bool :=
  match v with
  | some (.str s) => accepts s
  | _ => false

def hasText (record : Value) (key value : Text) : Bool := isText (record.get? key) fun s => s = value

/-- The checks of one line of a journal. The first is the header, which has no ordinal. -/
def checkLine (py : PyValues) (captureId journal : Text) (number : ℕ) (line : Text) :
    Except String Value :=
  match Json.loads line with
  | none => .error s!"journal line {number} is not valid JSON"
  | some record =>
    match record with
    | .obj _ =>
      if hasText record "schema".toList journalSchema ∧ hasText record "journal".toList journal ∧
          hasText record "capture_id".toList captureId then
        if number = 0 then .ok record
        else
          match py.int ((record.get? "ordinal".toList).getD (.int (-1))) with
          | none => .error s!"journal line {number} ordinal is not an integer"
          | some ordinal =>
            if ordinal = number then .ok record
            else .error s!"journal ordinal mismatch at line {number}"
      else .error s!"journal header/line {number} is foreign or invalid"
    | _ => .error s!"journal line {number} is not an object"

def checkLines (py : PyValues) (captureId journal : Text) : ℕ → List Text → Except String (List Value)
  | _,[] => .ok []
  | number,line :: lines =>
    match checkLine py captureId journal number line with
    | .error e => .error e
    | .ok record => (checkLines py captureId journal (number+1) lines).map (record :: ·)

def loadJournal (py : PyValues) (sha256 : List UInt8 → Text) (verifyPhysical : Bool) (facts : FileFacts)
    (file : File) (journal captureId : Text) : Except String (List Value) := do
  verifyFacts sha256 verifyPhysical (some facts) file "journal"
  require (file.bytes = [] ∨ file.bytes.getLast? = some Utf8.newline)
    "journal is truncated (missing final newline)"
  match Utf8.decode file.bytes with
  | none => .error "journal is not valid UTF-8"
  | some text =>
    let lines := Utf8.linesOf text
    require (lines ≠ []) "journal header is missing"
    let records ← checkLines py captureId journal 0 lines
    require (facts.records = some (records.length-1)) "journal record count differs from the seal"
    pure (records.drop 1)

abbrev Entry := List (Text × Value)

def entryKeys : List Text := "ordinal".toList :: persistedKeys

def entryOf (record : Value) : Entry :=
  entryKeys.filterMap fun key => (record.get? key).map (key,·)

/-- The records of the raw file, which the converted file has to match. -/
def readPair (f : Format) (raw : File) (converted : Option File) : Except String (List ReadRecord) := do
  let rawRecords ← Pcap.readPcap f raw.bytes
  match converted with
  | none => pure rawRecords
  | some converted => do
    let convertedRecords ← Pcap.readPcap f converted.bytes
    Pcap.validatePair rawRecords (some convertedRecords)
    pure rawRecords

def Entry.get? (entry : Entry) (key : Text) : Option Value :=
  (entry.find? fun m => m.1 = key).map Prod.snd

def raised {α : Type} : Option α → Except String α
  | none => .error "TypeError or ValueError"
  | some a => .ok a

def validateIndexRecord (py : PyValues) (sha256 : List UInt8 → Text) (raw : ReadRecord) (entry : Entry) :
    Except String Unit := do
  let ordinal ← raised (py.int ((entry.get? "ordinal".toList).getD (.int (-1))))
  require (ordinal = raw.ordinal) s!"observation ordinal mismatch at {raw.ordinal}"
  let length ← raised (py.int ((entry.get? "length".toList).getD (.int (-1))))
  require (length = raw.data.length) s!"observation length mismatch at {raw.ordinal}"
  require (isText (entry.get? "sha256".toList) fun s => s = sha256 raw.data)
    s!"observation hash mismatch at {raw.ordinal}"
  let differs ← match entry.get? "timestamp".toList with
    | none => pure false
    | some timestamp => raised (py.timestampDiffers timestamp raw.timestamp)
  require (differs = false) s!"observation timestamp mismatch at {raw.ordinal}"
  require (isText (entry.get? "observation_role".toList) fun s => String.ofList s ∈ Pcap.observationRoles)
    s!"invalid observation role at {raw.ordinal}"

def validateIndex (py : PyValues) (sha256 : List UInt8 → Text) (raw : List ReadRecord)
    (entries : List Entry) : Except String Unit := do
  require (raw.length = entries.length)
    s!"observation index/PCAP count mismatch: {entries.length}/{raw.length}"
  (raw.zip entries).forM fun x => validateIndexRecord py sha256 x.1 x.2

structure NbiEntry where
  transportLayerProto : Option Value
  sport : Option Value
  dstIp : Option Value
  dport : Option Value
  isSslEncrypted : Option Value
  networkMode : Option Value
  nbi : Value

/-- `value or default`, for the values that are false. -/
def orValue (v : Option Value) (default : Value) : Value :=
  match v with
  | none | some .null | some (.bool false) | some (.int 0) | some (.str []) | some (.arr [])
  | some (.obj []) => default
  | some (.float f) => if f.text = "0.0".toList ∨ f.text = "-0.0".toList then default else .float f
  | some v => v

abbrev NbiKey (py : PyValues) := (py.κ × py.κ) × Text

/-- An indicator and what it is filed under. An unhashable process raises. -/
def nbiOf (py : PyValues) (number : ℕ) (record : Value) : Except String (NbiKey py × NbiEntry) :=
  match record.get? "metrics".toList with
  | some (.obj metrics) =>
    let session := orValue (record.get? "session".toList) (.obj [])
    match session with
    | .obj _ =>
      let pid := py.hash ((session.get? "pid".toList).getD .null)
      let comm := py.hash ((session.get? "comm".toList).getD .null)
      match pid,comm with
      | some pid,some comm =>
        let protocol :=
          py.lower (py.str (orValue (record.get? "application_layer_proto".toList) (.str [])))
        .ok (((pid,comm),protocol),{
          transportLayerProto := session.get? "transport_layer_proto".toList
          sport := session.get? "sport".toList
          dstIp := session.get? "dst_ip".toList
          dport := session.get? "dport".toList
          isSslEncrypted := record.get? "is_ssl_encrypted".toList
          networkMode := record.get? "network_mode".toList
          nbi := .obj metrics })
      | _,_ => .error "TypeError: unhashable type"
    | _ => .error s!"NBI original {number} session mapping is invalid"
  | _ => .error s!"NBI original {number} lacks its metrics object"

def verifyConverted (sha256 : List UInt8 → Text) (verifyPhysical : Bool) (g : Group) :
    Except String Unit :=
  match g.converted with
  | none =>
    require (g.inventory.convertedPcap.isNone)
      "seal lists a converted PCAP that was not supplied for verification"
  | some converted =>
    verifyFacts sha256 verifyPhysical g.inventory.convertedPcap converted "converted PCAP"

section Loading

variable (py : PyValues) (f : Format) (sha256 : List UInt8 → Text) (validUuid : Text → Bool)
  (verifyPhysical : Bool)

instance : DecidableEq py.κ := py.decEq

abbrev Nbis := Dict (py.κ × py.κ) (Dict Text (List NbiEntry))

variable {py} in
def fileNbi (nbis : Nbis py) (key : NbiKey py) (entry : NbiEntry) : Nbis py :=
  let protocols := (nbis.get? key.1).getD .empty
  nbis.set key.1 (protocols.set key.2 ((protocols.get? key.2).getD []++[entry]))

def fileNbis : ℕ → List Value → Nbis py → Except String (Nbis py)
  | _,[],nbis => .ok nbis
  | number,record :: records,nbis =>
    match nbiOf py number record with
    | .error e => .error e
    | .ok (key,entry) => fileNbis (number+1) records (fileNbi nbis key entry)

structure Loaded where
  captureId : Text
  entries : List Entry
  nbis : Nbis py

/-- `load_capture_originals`. -/
def load (g : Group) : Except String (Loaded py) := do
  require (g.inventory.schema = originalsSchema) "capture originals seal schema is invalid"
  require (validUuid g.inventory.captureId) "capture originals seal lacks a valid capture id"
  require (g.inventory.pairBasename = g.raw.name) "capture originals seal belongs to a foreign capture"
  verifyFacts sha256 verifyPhysical (some g.inventory.rawPcap) g.raw "raw PCAP"
  verifyConverted sha256 verifyPhysical g
  let records ← readPair f g.raw g.converted
  require (g.inventory.observations.name = g.raw.name++Writer.observationsSuffix ∧
    g.inventory.nbis.name = g.raw.name++Writer.nbisSuffix)
    "seal journal names are foreign to this capture"
  let observationRecords ← loadJournal py sha256 verifyPhysical g.inventory.observations g.observations
    observationsName g.inventory.captureId
  let nbiRecords ← loadJournal py sha256 verifyPhysical g.inventory.nbis g.nbis nbisName
    g.inventory.captureId
  let entries := observationRecords.map entryOf
  validateIndex py sha256 records entries
  let nbis ← fileNbis py 1 nbiRecords .empty
  pure ⟨g.inventory.captureId,entries,nbis⟩

end Loading

end Originals
end FakeNetNG
