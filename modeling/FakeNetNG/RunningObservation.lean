import FakeNetNG.Pcapng
import FakeNetNG.PyJson

/-!
# The observation of a running engine

`evaluate_capture` looks at the packets that left the VM while the engine ran. A packet to one of the probe's
destinations is a leak. That there was none is only believed of a complete capture on the VM's one interface, and
per address family after a calibration in which a packet on the same path was seen.
-/

namespace FakeNetNG
namespace RunningObservation

open Json (Value)
open PyJson
open Pcapng (Bytes Packet Family)

def destinations : List Text := ["198.51.100.77".toList,"2001:db8::77".toList]

/-- What is found at a path. -/
structure FileFacts where
  absolute : Bool
  isSymlink : Bool
  isFile : Bool
  size : ℕ
  parentSymlink : Bool
  bytes : Bytes

/-- What the observation uses of its runtime: `str.lower`, `datetime.fromisoformat(text).timestamp()`, the
hexadecimal SHA-256, `json.loads`, the files, and the template of the probe's script. -/
structure Runtime extends Primitives where
  lower : Text → Text
  timestamp : Text → Except Fault ℚ
  sha256 : Bytes → Text
  loads : Bytes → Except Fault Value
  look : Text → Except Fault FileFacts
  probeTemplate : Text

/-- A NIC of a snapshot is a dictionary. -/
structure Nic where
  members : List (Text × Value)

def Nic.value (nic : Nic) : Value := .obj nic.members

/-- What is read of a snapshot with a list of NICs; `null` is what it does not have. -/
structure Snapshot where
  vmUuid : Value
  nics : List Nic
  networkingSha256 : Value
  natSha256 : Value
  routeToGuest : Value
  networkType : Value

structure Topology where
  vmUuid : Value
  nics : List Nic
  networkingSha256 : Value
  natSha256 : Value
  route : Value
  networkType : Value

def Topology.value (target : Topology) : Value :=
  .obj [("vm_uuid".toList,target.vmUuid),("nics".toList,.arr (target.nics.map Nic.value)),
    ("networking_sha256".toList,target.networkingSha256),("nat_sha256".toList,target.natSha256),
    ("route".toList,target.route),("network_type".toList,target.networkType)]

/-- The arguments of `evaluate_capture`. -/
structure Request where
  capture : Bytes
  probe : Value
  snapshot : Snapshot
  calibrationRef : Value
  started : ℚ
  ended : ℚ
  heartbeatPort : ℕ
  captureIdentity : Value
  now : ℚ

section Runtime

variable (py : Runtime)

def isConnected (nic : Nic) : Bool :=
  truthy py.toPrimitives (member nic.value "present") && truthy py.toPrimitives (member nic.value "start_connected")

def topology (snapshot : Snapshot) : Topology where
  vmUuid := snapshot.vmUuid
  nics := snapshot.nics.filter (isConnected py)
  networkingSha256 := snapshot.networkingSha256
  natSha256 := snapshot.natSha256
  route := snapshot.routeToGuest
  networkType := snapshot.networkType

/-- `str(nic.get('mac', '')).lower()`. -/
def Nic.mac (nic : Nic) : Text := py.lower (str py.toPrimitives (memberOr nic.value "mac" (.str [])))

def macs (snapshot : Snapshot) : List Text := (topology py snapshot).nics.map (Nic.mac py)

def isLeak (snapshot : Snapshot) (p : Packet) : Bool :=
  (macs py snapshot).contains p.mac && destinations.contains p.destination

/-- `value.replace('Z', '+00:00')`. -/
def replaceZulu (value : Text) : Text := value.flatMap fun c => if c = 'Z' then "+00:00".toList else [c]

def time (v : Value) : Except Fault ℚ := py.timestamp (replaceZulu (str py.toPrimitives v))

/-- `_time(row[name])`. -/
def timeOf (row : Value) (name : String) : Except Fault ℚ := item row name >>= time py

def rawRef (ref : Value) : Except Fault Bytes := do
  ensure (isDict ref) "evidence reference missing"
  let facts ← py.look (str py.toPrimitives (memberOr ref "path" (.str [])))
  ensure (facts.absolute && !facts.isSymlink && facts.isFile) "unsafe evidence reference"
  ensure (facts.size ≤ Pcapng.limit && !facts.parentSymlink) "unsafe or oversized evidence reference"
  ensure (facts.bytes.length ≤ Pcapng.limit && isText (py.sha256 facts.bytes) (member ref "sha256"))
    "evidence hash or size mismatch"
  return facts.bytes

/-- `json.loads(_raw_ref(v[name]))`. -/
def loadRef (v : Value) (name : String) : Except Fault Value := do
  let ref ← item v name
  let raw ← rawRef py ref
  py.loads raw

/-- `for row in v.get('steps') or []`. -/
def stepsOf (v : Value) : Except Fault (List Value) := do
  let steps ← get v "steps"
  iterate (orElse py.toPrimitives steps (.arr []))

/-- What `parse_capture` returns or raises. -/
def parsed (raw : Bytes) : Except Fault Pcapng.Capture :=
  match (Pcapng.parseCapture raw).2 with
  | .error text => .error (.value text)
  | .ok capture => .ok capture

def familyName : Family → String
  | .ipv4 => "ipv4"
  | .ipv6 => "ipv6"

def familyOf (v : Value) : Option Family :=
  if isText "ipv4".toList v then some .ipv4
  else if isText "ipv6".toList v then some .ipv6
  else none

def routeFields : List String := ["source","interface","next_hop"]

def isRoute (route : Value) : Bool := isDict route && routeFields.all fun name => truthy py.toPrimitives (member route name)

def routeStep (family : Option Family) (result : List (Family × Value)) (row : Value) : Except Fault (List (Family × Value)) := do
  let v ← get row "family"
  match familyOf v with
  | none => .error (.value "probe family unavailable")
  | some key =>
    if family.isSome ∧ family ≠ some key then .ok result
    else do
      let route ← get row "route"
      ensure (isRoute py route) "probe route unavailable"
      ensure ((result.lookup key).all fun known => same py.toPrimitives known route)
        "multiple paths in one family unsupported"
      return result.filter (fun entry => entry.1 ≠ key)++[(key,route)]

def requiredFamilies : Option Family → List Family
  | some family => [family]
  | none => [.ipv4,.ipv6]

def routeKeys (probe : Value) (family : Option Family) : Except Fault (List (Family × Value)) := do
  let rows ← stepsOf py probe
  let result ← rows.foldlM (routeStep py family) []
  ensure ((requiredFamilies family).all fun key => (result.lookup key).isSome)
    ("path evidence incomplete:"++(family.map familyName).getD "dual-stack")
  return result

/-- `route_keys(probe, family)[family]`. -/
def routeOf (probe : Value) (family : Family) : Except Fault Value := do
  let result ← routeKeys py probe (some family)
  match result.lookup family with
  | some route => .ok route
  | none => .error ⟨.keyError,"'"++familyName family++"'"⟩

def singleNic (target : Topology) : Except Fault Nic :=
  match target.nics with
  | [nic] =>
    if truthy py.toPrimitives (member nic.value "interface_present") then .ok nic
    else .error (.value "single mapped NIC required; other topology unsupported")
  | _ => .error (.value "single mapped NIC required; other topology unsupported")

def interfaceName (nic : Nic) (capture : Pcapng.Capture) : Except Fault Value := do
  let name ← item nic.value "interface"
  hash name
  ensure (!capture.interfaces.isEmpty && capture.interfaces.all fun i => isText i.name name) "capture interface mismatch"
  return name

def outside (started ended : ℚ) (row : Value) : Except Fault Bool := do
  let stepStart ← timeOf py row "started"
  if started ≤ stepStart then do
    let stepEnd ← timeOf py row "ended"
    return !(stepStart ≤ stepEnd && stepEnd ≤ ended)
  else return true

/-- When the probe was completed, within the bounds of the capture. -/
def completedAt (r : Request) : Except Fault ℚ := do
  let completed ← timeOf py r.probe "completed_at"
  ensure (completed ≤ r.ended) "capture window does not cover probe"
  let rows ← stepsOf py r.probe
  let missed ← any (outside py r.started r.ended) rows
  ensure (!missed) "capture window does not cover probe"
  return completed

def isHeartbeat (r : Request) (completed : ℚ) (p : Packet) : Bool :=
  (macs py r.snapshot).contains p.mac && p.sourcePort = some r.heartbeatPort && completed ≤ p.time && p.time ≤ r.ended

def calibrationSchema : Text := "fakenetng.egress-visibility.v1".toList

def readReceipt (r : Request) : Except Fault Value := do
  let raw ← rawRef py r.calibrationRef
  let receipt ← py.loads raw
  let schema ← get receipt "schema"
  ensure (isText calibrationSchema schema) "calibration schema invalid"
  let identity ← get receipt "capture_identity"
  let target ← get receipt "topology"
  ensure (same py.toPrimitives identity r.captureIdentity && same py.toPrimitives target (topology py r.snapshot).value)
    "calibration topology or capture settings changed"
  return receipt

def createdAt (r : Request) (receipt : Value) : Except Fault ℚ := do
  let before ← timeOf py receipt "created_at"
  let expires ← timeOf py receipt "expires_at"
  ensure (before ≤ r.started && r.started ≤ r.ended && r.ended ≤ r.now+1 && r.now < expires && expires ≤ before+3600)
    "calibration expired or time order invalid"
  return before

def checkStopped (receipt : Value) : Except Fault Unit := do
  let state ← loadRef py receipt "guest_status"
  let name ← get state "state"
  let runId ← get state "run_id"
  ensure (isText "stopped".toList name && isNull runId) "calibration engine not stopped"

def readBaseline (receipt : Value) : Except Fault Value := do
  let baseline ← loadRef py receipt "probe"
  getOr baseline "probe" baseline

def contextKeys : List String := ["vm_uuid","boot_id","account","sid","session","token_integrity_level"]

def checkContext (r : Request) (baseline : Value) (key : String) : Except Fault Unit := do
  let identity ← getOr baseline "identity" (.obj [])
  let known ← get identity key
  ensure (truthy py.toPrimitives known) "calibration guest context changed"
  let current ← getOr r.probe "identity" (.obj [])
  let value ← get current key
  ensure (same py.toPrimitives known value) "calibration guest context changed"

def plannedIds : List Text := ["ipv4_udp_random".toList,"ipv6_udp_random".toList]

def plannedId (row : Value) : Except Fault Value := do
  let id ← get row "id"
  hash id
  return id

def checkPlanned (row : Value) : Except Fault Unit := do
  let kind ← get row "kind"
  ensure (isText "udp".toList kind) "calibration destination invalid"
  let destination ← get row "destination"
  hash destination
  ensure (destinations.any fun d => isText d destination) "calibration destination invalid"
  let probeKind ← get row "probe_kind"
  ensure (isText "udp_raw".toList probeKind) "calibration destination invalid"

def readPayload (receipt : Value) : Except Fault Value := do
  let template ← get receipt "probe_template_sha256"
  ensure (isText (py.sha256 (Utf8.encode py.probeTemplate)) template) "calibration probe template changed"
  let payload := orElse py.toPrimitives (member receipt "probe_payload") (.obj [])
  let mode ← get payload "calibration_mode"
  let positive ← get payload "positive_enabled"
  ensure (isBool true mode && isBool false positive) "calibration fixed probe mode invalid"
  return payload

def readPlanned (payload : Value) : Except Fault (List Value) := do
  let steps ← get payload "steps"
  let planned := orElse py.toPrimitives steps (.arr [])
  let count ← len planned
  ensure (count = 2) "calibration matrix invalid"
  let rows ← iterate planned
  let ids ← rows.mapM plannedId
  ensure ((ids.all fun id => plannedIds.any fun planned => isText planned id) &&
    plannedIds.all fun planned => ids.any fun id => isText planned id) "calibration matrix invalid"
  rows.forM checkPlanned
  return ids

def probeSchema : Text := "fakenetng.windows-egress-probe.v2".toList

def exposureSchema : Text := "fakenetng.ipv6-exposure.v1".toList

def exposureLists : List String := ["interfaces","addresses","routes","os_map","errors"]

def checkExposure (exposure : Value) : Except Fault Unit := do
  ensure (isNull exposure || (isDict exposure && isText exposureSchema (member exposure "schema"))) "probe ipv6 exposure invalid"
  exposureLists.forM fun key =>
    ensure (isNull exposure || isList (member exposure key)) ("probe ipv6 exposure "++key++" missing")

def checkInstance (inst nonce : Value) (scriptHash : Text) : Except Fault Unit := do
  ensure (isDict inst) "probe instance missing"
  ensure (!isNull (member inst "pid") && !isNull (member inst "creation_ticks")) "probe instance identity missing"
  ensure (isNull nonce || same py.toPrimitives (member inst "nonce") nonce) "probe instance nonce mismatch"
  ensure (isText scriptHash (member inst "script_hash")) "probe script identity mismatch"

def stepId (step : Value) : Except Fault Text :=
  match step with
  | .obj _ =>
    match member step "id" with
    | .str id => .ok id
    | _ => .error (.value "probe step malformed")
  | _ => .error (.value "probe step malformed")

def checkCoverage (value : Value) (seen : List Text) (expectedIds : List Value) : Except Fault Unit :=
  if isBool false (member value "matrix_run") then ensure seen.isEmpty "probe matrix skipped but rows present"
  else do
    ensure (isBool true (member value "matrix_run")) "probe matrix_run missing"
    ensure seen.Nodup "probe matrix duplicate row"
    let known := seen.all fun id => expectedIds.any fun e => isText id e
    let covered := expectedIds.all fun e => seen.any fun id => isText id e
    ensure (known && (covered || isBool true (member value "stop_remaining"))) "probe matrix coverage mismatch"

/-- `validate_probe_result` for a known script and without the positive probe. -/
def validateProbeResult (value : Value) (expectedIds : List Value) (nonce : Value) (scriptHash : Text) : Except Fault Unit := do
  ensure (isDict value && isText probeSchema (member value "schema")) "probe schema mismatch"
  ensure (isNull nonce || same py.toPrimitives (member value "nonce") nonce) "probe nonce mismatch"
  ensure (isDict (member value "identity")) "probe identity missing"
  checkExposure (member value "ipv6_exposure")
  checkInstance py (member value "instance") nonce scriptHash
  match member value "steps" with
  | .arr steps => do
    let seen ← steps.mapM stepId
    checkCoverage value seen expectedIds
  | _ => .error (.value "probe matrix rows missing")

/-- `type(v) in (int, float)`; a float that is no number of the line fails every comparison. -/
def exactNumber? : Value → Option ℚ
  | .int n => some n
  | .float f => (py.float f).rational?
  | _ => none

/-- The bounds of the calibration's capture, for receipts that have them. -/
def readWindow (receipt : Value) (before : ℚ) : Except Fault (Option (ℚ × ℚ)) :=
  let window := member receipt "capture_window"
  if isNull window then .ok none
  else do
    ensure (isDict window) "calibration capture window invalid"
    match exactNumber? py (member window "started"),exactNumber? py (member window "ended") with
    | some windowStart, some windowEnd => do
      ensure (before-60 ≤ windowStart && windowStart ≤ windowEnd && windowEnd ≤ before) "calibration capture window invalid"
      return some (windowStart,windowEnd)
    | _, _ => .error (.value "calibration capture window invalid")

def checkStepTimes (before : ℚ) (window : Option (ℚ × ℚ)) (row : Value) : Except Fault Unit := do
  let stepStart ← timeOf py row "started"
  let stepEnd ← timeOf py row "ended"
  ensure (match window with
    | none => before-60 ≤ stepStart && stepStart ≤ stepEnd && stepEnd ≤ before
    | some _ => 0 ≤ stepEnd-stepStart && stepEnd-stepStart ≤ 60) "calibration probe time invalid"

/-- What the receipt and its evidence say. -/
structure Calibration where
  receipt : Value
  baseline : Value
  window : Option (ℚ × ℚ)
  old : Pcapng.Capture

def readCalibration (r : Request) : Except Fault Calibration := do
  let receipt ← readReceipt py r
  let before ← createdAt py r receipt
  checkStopped py receipt
  let baseline ← readBaseline py receipt
  contextKeys.forM (checkContext py r baseline)
  let payload ← readPayload py receipt
  let ids ← readPlanned py payload
  let scriptHash := py.sha256 (Utf8.encode (canonicalJson payload))
  validateProbeResult py baseline ids (member payload "nonce") scriptHash
  let window ← readWindow py receipt before
  let rows ← stepsOf py baseline
  rows.forM (checkStepTimes py before window)
  let ref ← item receipt "capture"
  let raw ← rawRef py ref
  let old ← parsed raw
  return ⟨receipt,baseline,window,old⟩

/-- `str(p['source_port'])`. -/
def portText : Option ℕ → Text
  | none => "None".toList
  | some port => Text.decimal port

def portValue : Option ℕ → Value
  | none => .null
  | some port => .int port

/-- The packet left when the row of the probe, or the calibration's capture, says. -/
def inTime (window : Option (ℚ × ℚ)) (p : Packet) (row : Value) : Except Fault Bool :=
  match window with
  | some (windowStart,windowEnd) => .ok (windowStart ≤ p.time && p.time ≤ windowEnd)
  | none => do
    let stepStart ← timeOf py row "started"
    if stepStart ≤ p.time then do
      let stepEnd ← timeOf py row "ended"
      return p.time ≤ stepEnd
    else return false

def isEndpoint (p : Packet) (endpoint : Value) : Bool := decide (':' :: portText p.sourcePort <:+ str py.toPrimitives endpoint)

def rowMatches (window : Option (ℚ × ℚ)) (p : Packet) (row : Value) : Except Fault Bool := do
  let destination ← get row "destination"
  if isText p.destination destination then do
    let port ← get row "port"
    if same py.toPrimitives port (portValue p.destinationPort) then do
      let endpoint ← getOr row "local_endpoint" (.str [])
      if isEndpoint py p endpoint then inTime py window p row else return false
    else return false
  else return false

def packetMatches (r : Request) (c : Calibration) (interface route : Value) (family : Family) (rows : List Value) (p : Packet) :
    Except Fault Bool :=
  if (macs py r.snapshot).contains p.mac && isText p.interface interface && p.family = family then do
    let source ← item route "source"
    if isText p.source source && destinations.contains p.destination then do
      let nonce ← getOr c.baseline "nonce" (.str [])
      let nonce ← text nonce
      if Utf8.encode nonce <:+: p.payload then any (rowMatches py c.window p) rows else return false
    else return false
  else return false

def isSent (family : Family) (row : Value) : Except Fault Bool := do
  let v ← get row "family"
  if isText (familyName family).toList v then do
    let sent ← get row "send_completed"
    return isBool true sent
  else return false

def confirmedRoute (r : Request) (c : Calibration) (interface : Value) (family : Family) : Except Fault Value := do
  let route ← routeOf py r.probe family
  let known ← routeOf py c.baseline family
  ensure (same py.toPrimitives known route) ("calibration guest routes changed:"++familyName family)
  let steps ← item c.baseline "steps"
  let steps ← iterate steps
  let rows ← select (isSent family) steps
  let matching ← select (packetMatches py r c interface route family rows) c.old.packets
  let nonce ← get c.baseline "nonce"
  ensure (!matching.isEmpty && truthy py.toPrimitives nonce) ("same-path outbound calibration missing:"++familyName family)
  return route

end Runtime

structure Path where
  family : Family
  interface : Value
  value : Option Bool
  visible : Bool
  route : Option Value
  reason : String

def noEgress : String := "scoped_running_window_no_egress_observed"

def Path.confirmed (family : Family) (interface route : Value) : Path where
  family := family
  interface := interface
  value := some true
  visible := true
  route := some route
  reason := noEgress

def Path.unknown (family : Family) (interface : Value) (reason : String) : Path where
  family := family
  interface := interface
  value := none
  visible := false
  route := none
  reason := reason

/-- `except (ValueError, KeyError, TypeError, AttributeError)`. -/
def pathCatches : Kind → Bool
  | .osError => false
  | .otherError => false
  | _ => true

/-- `except (ValueError, OSError, KeyError, TypeError, AttributeError)`. -/
def catches : Kind → Bool
  | .otherError => false
  | _ => true

def observePath (py : Runtime) (r : Request) (c : Calibration) (interface : Value) (family : Family) : Except Fault Path :=
  match confirmedRoute py r c interface family with
  | .ok route => .ok (.confirmed family interface route)
  | .error fault => if pathCatches fault.kind then .ok (.unknown family interface fault.text) else .error fault

/-- What a result says of the calibration. -/
structure CalibrationRecord where
  ref : Value
  expiresAt : Value
  probeTemplateSha256 : Value
  captureIdentity : Value

structure Result where
  value : Option Bool
  reason : String
  paths : List Path
  /-- The packets without their payloads. -/
  leaks : List Packet
  commonComplete : Bool
  calibration : Option CalibrationRecord
  families : List Path

def Result.init : Result where
  value := none
  reason := "observation_incomplete"
  paths := []
  leaks := []
  commonComplete := false
  calibration := none
  families := []

def Result.leaked (leaks : List Packet) (result : Result) : Result :=
  { result with
    value := some false
    reason := "running_egress_leak_observed"
    leaks := leaks.map fun p => { p with payload := [] } }

def Result.calibrated (ref receipt : Value) (result : Result) : Result :=
  { result with
    commonComplete := true
    calibration := some {
      ref := ref
      expiresAt := member receipt "expires_at"
      probeTemplateSha256 := member receipt "probe_template_sha256"
      captureIdentity := member receipt "capture_identity" } }

def Result.addPath (path : Path) (result : Result) : Result := { result with paths := result.paths++[path] }

def Result.concluded (families : List Path) (result : Result) : Result :=
  if families.all fun path => path.value = some true then
    { result with
      families := families
      value := some true
      reason := noEgress }
  else
    { result with
      families := families
      reason := "one_or_more_family_paths_unconfirmed" }

def Result.failed (reason : String) (result : Result) : Result := { result with reason := reason }

section Verdict

open Fallible

variable (py : Runtime) (r : Request)

def observeFamily (c : Calibration) (interface : Value) (family : Family) : Fallible Result Fault Path := do
  let path ← ofExcept (observePath py r c interface family)
  modify (Result.addPath path)
  return path

def checkCapture (capture : Pcapng.Capture) : Except Fault Value := do
  let nic ← singleNic py (topology py r.snapshot)
  let interface ← interfaceName nic capture
  let completed ← completedAt py r
  ensure (capture.packets.any (isHeartbeat py r completed)) "current post-probe control heartbeat missing"
  return interface

/-- The body of the `try` statement. -/
def evaluate : Fallible Result Fault Unit :=
  let leaks := (Pcapng.parseCapture r.capture).1.filter (isLeak py r.snapshot)
  if leaks.isEmpty then do
    let capture ← ofExcept (parsed r.capture)
    let interface ← ofExcept (checkCapture py r capture)
    let calibration ← ofExcept (readCalibration py r)
    modify (Result.calibrated r.calibrationRef calibration.receipt)
    let ipv4 ← observeFamily py r calibration interface .ipv4
    let ipv6 ← observeFamily py r calibration interface .ipv6
    modify (Result.concluded [ipv4,ipv6])
  else modify (Result.leaked leaks)

def handle (fault : Fault) : Fallible Result Fault Unit :=
  if catches fault.kind then modify (Result.failed fault.text) else Fallible.raise fault

def evaluateCapture : Except Fault Result :=
  match (evaluate py r).tryExcept handle Result.init with
  | (.ok (),result) => .ok result
  | (.error fault,_) => .error fault

end Verdict

end RunningObservation
end FakeNetNG
