import FakeNetNG.EgressContract

/-!
# The merged host verdict

The outcomes of the matrix, the eight checks and the completeness of a probe are merged with what
the guest and the host say.
-/

namespace FakeNetNG
namespace Egress

structure Ref where
  path : String
  sha256 : String
  kind : String

def Ref.text (ref : Ref) : String := ref.path++"#"++ref.sha256

/-- A row of the probe, with the record of its route. -/
structure ProbeRow where
  get : Record
  route : Record

/-- A row of the expected matrix. -/
structure ExpectedStep where
  get : Record
  expected : String

structure RunningObservation where
  value : Scalar
  commonComplete : Scalar
  leaks : List Record
  familyValue : Record
  evidenceRefs : List Ref

/-- The facts of the probe, over the exposure facts that the scope guard normalizes. -/
structure ProbeResult (Exposure : Type) where
  steps : List ProbeRow
  matrixRun : Scalar
  notRunReason : Option Scalar
  probeInstance : Record
  identity : Record
  positive : Option Record
  firewall : List Record
  firewallError : Scalar
  finalConsistency : Scalar
  completedAt : Scalar
  ipv6Exposure : Option Exposure
  runningObservation : RunningObservation

structure GuestResult where
  healthy : Scalar
  controlEffective : Scalar
  producerMatch : Scalar
  effectivePorts : Ports
  manifest : List Ref

/-- The request, with its process rules if it names them. -/
structure MergeRequest where
  get : Record
  requiredControlPorts : Ports
  processRulesEquivalent : Option Scalar

structure MergeEvidence where
  host : Option Ref
  identityProbe : Option Ref
  probe : Option Ref
  finalHost : Option Ref

/-- What the merge is given. -/
structure MergeInput (Exposure : Type) where
  request : MergeRequest
  guest : Option GuestResult
  probe : ProbeResult Exposure
  expected : List (String × ExpectedStep)
  sample : Option Record
  channels : Record
  evidence : MergeEvidence

/-- `normalize_ipv6_exposure`, which passes the facts against which there are no reasons, and
`str.lower`. The merge only passes their results on, so any functions may stand here. -/
structure MergeEnv (Exposure : Type) where
  reasons : Exposure → List String
  fingerprint : Exposure → String
  lower : String → String

def scopedContainment (report : RunningObservation) (family : String) : Option Bool :=
  if report.value.isFalse || report.leaks ≠ [] then some false
  else if !report.commonComplete.isTrue then none
  else if report.value.isTrue then some true
  else if (report.familyValue family).isTrue then some true
  else none

def familyMatches (lower : String → String) (value : Scalar) (family : String) : Bool :=
  let text := lower value.orEmpty
  if family = "ipv4" then ["internetwork","ipv4","af_inet","2"].contains text
  else if family = "ipv6" then ["internetworkv6","ipv6","af_inet6","23"].contains text
  else false

/-- The text before and after the last colon. -/
def splitLast (text : List Char) : Option (List Char × List Char) :=
  if text.contains ':' then
    some ((text.reverse.dropWhile (· ≠ ':')).tail.reverse,(text.reverse.takeWhile (· ≠ ':')).reverse)
  else
    none

/-- `host.strip('[]').split('%')[0]`. -/
def bareHost (host : List Char) : List Char :=
  let bracket := fun c : Char => c = '[' || c = ']'
  ((host.dropWhile bracket).rdropWhile bracket).takeWhile (· ≠ '%')

def endpointMatches (value : Scalar) (destination : String) (port : Scalar) : Bool :=
  match splitLast value.orEmpty.toList with
  | none => false
  | some (host,tail) =>
      if Text.isDecimal port.toText.toList && tail ≠ port.toText.toList then false
      else bareHost host = destination.toList

def routeKnown (route : Record) : Bool :=
  ["source","interface","next_hop"].all fun key => (route key).truthy

def contains (part text : String) : Bool := (Text.find part.toList text.toList).isSome

/-- `classify_step`, for a step that is to be blocked. -/
def classifyBlocked (kind : String) (o : ProbeRow) (contained : Option Bool) (verified : Bool) :
    Outcome × String :=
  if (o.get "received").orEmpty ≠ "" then (.fail,"unexpected_response")
  else if contained ≠ some true then (.unknown,"running_observation_unconfirmed")
  else if !routeKnown o.route then (.unknown,"route_unconfirmed")
  else
    let localEndpoint := (o.get "local_endpoint").orEmpty
    if localEndpoint = "" || !contains (o.route "source").toText localEndpoint then
      (.unknown,"source_endpoint_unconfirmed")
    else if !verified then (.unknown,"probe_execution_unconfirmed")
    else if kind = "udp" ∨ kind = "dns" then
      if (o.get "send_completed").isTrue && (o.get "sent").isPositive then
        (.pass,"completed_send_and_scoped_no_egress")
      else (.unknown,"send_not_completed")
    else if kind = "tcp" then
      if (o.get "attempted").isTrue && (o.get "connect_called").isTrue &&
          (o.get "connect_wait_timed_out").isTrue && (o.get "connect_completed").isFalse &&
          (o.get "exclusive").isTrue && o.get "bound_local_endpoint" = .text localEndpoint &&
          o.get "connect_error" = .text "connect timeout" then
        (.pass,"valid_connect_attempt_and_scoped_no_egress")
      else (.unknown,"effective_connect_attempt_unconfirmed")
    else (.unknown,"actual_emission_unconfirmed")

def classifyIcmp (o : ProbeRow) (contained : Option Bool) (verified : Bool) : Outcome × String :=
  if o.get "response_type" ≠ .text "icmp_echo" ∨ o.get "status" ≠ .text "Success" ∨
      !(o.get "nonce_match").isTrue then
    (.unknown,"icmp_nonce_mismatch")
  else if !routeKnown o.route ∨ .text (o.get "responder").orEmpty ≠ o.route "source" ∨
      !(o.get "remote_endpoint").same (o.route "source") then
    (.unknown,"icmp_responder_mismatch")
  else if contained ≠ some true then (.unknown,"running_observation_unconfirmed")
  else if !verified then (.unknown,"probe_execution_unconfirmed")
  else (.pass,"strict_local_icmp_nonce_and_scoped_no_egress")

def inRange (x : Scalar) (low high : ℤ) : Bool :=
  match x with
  | .int n => low ≤ n && n ≤ high
  | _ => false

def classifyTcp (o : ProbeRow) : Outcome × String :=
  let responseType := (o.get "response_type").orEmpty
  let answered (reason : String) : Outcome × String :=
    if !(o.get "nonce_match").isTrue then (.unknown,"tcp_nonce_mismatch")
    else if !(o.get "elapsed_ms").isInt then (.unknown,"elapsed_missing")
    else (.pass,reason)
  if responseType = "tcp_nonce" then answered "strict_raw_tcp_nonce_response"
  else if responseType ≠ "http" ∧ responseType ≠ "tls_http" then
    (.unknown,"tcp_response_type_mismatch")
  else if !inRange (o.get "status") 100 599 then (.unknown,"http_status_invalid")
  else answered "strict_http_nonce_response"

def classifyDns (step : ExpectedStep) (o : ProbeRow) : Outcome × String :=
  if (o.get "response_type").orEmpty ≠ "dns" ∨ !(o.get "qr").isTrue then
    (.unknown,"dns_response_invalid")
  else if step.get "dns_txid" ≠ .none ∧ !(o.get "transaction_id").same (step.get "dns_txid") then
    (.unknown,"dns_transaction_mismatch")
  else if (step.get "question").orEmpty = "" ∨
      (o.get "question").orEmpty ≠ (step.get "question").orEmpty then
    (.unknown,"dns_question_mismatch")
  else if !(o.get "qtype").same (.int 1) ∨ !(o.get "qclass").same (.int 1) then
    (.unknown,"dns_question_type_mismatch")
  else if !inRange (o.get "rcode") 0 5 then (.unknown,"dns_rcode_invalid")
  else if !(o.get "nonce_match").isTrue then (.unknown,"dns_nonce_mismatch")
  else (.pass,"strict_dns_transaction_response")

def classifyStep (lower : String → String) (step : ExpectedStep) (o : ProbeRow)
    (contained : Option Bool) (verified : Bool) : Outcome × String :=
  let kind := (step.get "kind").orEmpty
  if step.expected = "blocked" then classifyBlocked kind o contained verified
  else if step.expected ≠ "local_fake" then (.unknown,"expectation_unknown")
  else if (o.get "received").orEmpty = "" ∨ !(o.get "sent").isPositive then
    (.unknown,"no_verified_response")
  else if ["tcp","udp","dns","icmp"].contains kind ∧
      !familyMatches lower (o.get "address_family") (step.get "family").orEmpty then
    (.unknown,"address_family_mismatch")
  else if kind = "icmp" then classifyIcmp o contained verified
  else if !endpointMatches (o.get "remote_endpoint") (step.get "destination").orEmpty
      (step.get "port") then
    (.unknown,"remote_endpoint_mismatch")
  else if (o.get "local_endpoint").orEmpty = "" then (.unknown,"local_endpoint_missing")
  else if kind = "tcp" then classifyTcp o
  else
    let responseKind := if step.get "probe_kind" = .text "dns" then "dns" else kind
    if responseKind = "udp" then
      if (o.get "response_type").orEmpty ≠ "udp_nonce" ∨ !(o.get "nonce_match").isTrue then
        (.unknown,"udp_nonce_mismatch")
      else (.pass,"strict_udp_nonce_response")
    else if responseKind = "dns" then classifyDns step o
    else (.unknown,"response_not_verified")

variable {Exposure : Type}

def executionVerified (probe : ProbeResult Exposure) (step : ExpectedStep) (row : ProbeRow) : Bool :=
  ["pid","creation_ticks","script_hash"].all (fun key => (probe.probeInstance key).truthy) &&
    (row.get "probe_pid").same (probe.probeInstance "pid") &&
    (row.get "probe_birth_ticks").same (probe.probeInstance "creation_ticks") &&
    (row.get "script_hash").same (probe.probeInstance "script_hash") &&
    ["kind","family","destination","port"].all fun key => (row.get key).same (step.get key)

/-- A leak of the running observation goes where the step goes. -/
def leaksTo (step : ExpectedStep) (leak : Record) : Bool :=
  (leak "family").same (step.get "family") && (leak "destination").same (step.get "destination") &&
    (step.get "port" = .none || (leak "destination_port").same (step.get "port"))

def matrixStep (lower : String → String) (probe : ProbeResult Exposure) (id : String)
    (step : ExpectedStep) : MatrixStep :=
  -- of two rows with one id the later one counts
  match probe.steps.reverse.find? (fun row => row.get "id" = .text id) with
  | none => ⟨id,if probe.matrixRun.isTrue then .unknown else .notRun,
      (probe.notRunReason.elim "missing_matrix_row" Scalar.toText)⟩
  | some row =>
      let contained := scopedContainment probe.runningObservation (step.get "family").toText
      let (outcome,reason) :=
        classifyStep lower step row contained (executionVerified probe step row)
      if probe.runningObservation.leaks.any (leaksTo step) then
        ⟨id,.fail,"running_egress_leak_observed"⟩
      else
        ⟨id,outcome,reason⟩

def matrixSteps (lower : String → String) (probe : ProbeResult Exposure)
    (expected : List (String × ExpectedStep)) : List MatrixStep :=
  expected.map fun step => matrixStep lower probe step.1 step.2

def firewallValue (probe : ProbeResult Exposure) : Option Bool :=
  let names := probe.firewall.map fun row => (row "name").toText
  if probe.firewallError.truthy ∨ probe.firewall.length ≠ 3 then none
  else if ¬["Domain","Private","Public"].all (names.contains ·) then none
  else some (probe.firewall.all fun row => (row "enabled").isFalse)

def sampleContextRequired : List String :=
  ["account","sid","session","token_integrity_level","launcher_path","launcher_sha256",
    "protocol_class"]

/-- A required fact that is missing or says that it is unknown. -/
def unstated (lower : String → String) (x : Scalar) : Bool :=
  x = .none || x = .text "" ||
    ["unknown","none"].contains (lower (String.ofList (Text.strip x.toText.toList)))

def isHexDigit (c : Char) : Bool := c.isDigit || ('a' ≤ c && c ≤ 'f') || ('A' ≤ c && c ≤ 'F')

def compareContext (lower : String → String) (identity sample : Record) :
    List String → Option Bool
  | [] => some true
  | key :: keys =>
      if unstated lower (identity key) then none
      else if (identity key).toText ≠ (sample key).toText then some false
      else compareContext lower identity sample keys

def sampleContextMatches (lower : String → String) (identity : Record) : Option Record → Option Bool
  | none => none
  | some sample =>
      let launcher := (sample "launcher_path").orEmpty
      let digest := (sample "launcher_sha256").orEmpty.toList
      if sampleContextRequired.any fun key => unstated lower (sample key) then none
      else if launcher = "" ∨ launcher.toList.head? ≠ some '/' ∧ ¬ ':' ∈ launcher.toList then none
      else if digest.length ≠ 64 ∨ ¬digest.all isHexDigit then none
      else compareContext lower identity sample
        ["account","sid","session","token_integrity_level","protocol_class"]

def sampleValue (env : MergeEnv Exposure) (input : MergeInput Exposure) : Option Bool :=
  let value := sampleContextMatches env.lower input.probe.identity input.sample
  match input.request.processRulesEquivalent with
  | none => value
  | some rules =>
      if value = some true ∧ ¬rules.isTrue then (if rules = .none then none else some false) else value

def controlValue (channels : Record) : Option Bool :=
  let values := ["windows_mcp","fakenet_mcp","velo_mcp"].map channels
  if values.any Scalar.isFalse then some false
  else if values.all Scalar.isTrue then some true
  else none

def guestValue (guest : Option GuestResult) (field : GuestResult → Scalar) : Scalar :=
  guest.elim .none field

def exclusionValue (input : MergeInput Exposure) : Option Bool :=
  let guestControl := guestValue input.guest (·.controlEffective)
  let control := controlValue input.channels
  if guestControl.isFalse ∨ control = some false then some false
  else if guestControl.isTrue ∧ control = some true then some true
  else none

def positiveMatch (probe : ProbeResult Exposure) : Bool := (nonceMatch probe.positive).isTrue

def localValue (input : MergeInput Exposure) : Option Bool :=
  let producer := guestValue input.guest (·.producerMatch)
  if positiveMatch input.probe ∧ producer.isTrue then some true
  else if positiveMatch input.probe ∧ producer = .none then none
  else if input.probe.positive.isNone then none
  else some false

def checkValue (env : MergeEnv Exposure) (input : MergeInput Exposure) : CheckName → Scalar
  | .firewallDisabled => .ofOption (firewallValue input.probe)
  | .fakenetRunningHealthy => guestValue input.guest (·.healthy)
  | .mcpControlExclusionsEffective => .ofOption (exclusionValue input)
  | .blockedBeforeInterception => if localValue input = some true then .bool false else .none
  | .controlChannelsReachable => .ofOption (controlValue input.channels)
  | .localInterceptionObserved => .ofOption (localValue input)
  | .runningEgressContained => .ofOption (scopedContainment input.probe.runningObservation "ipv4")
  | .samplePathEquivalent => .ofOption (sampleValue env input)

def allRefs (input : MergeInput Exposure) : List Ref :=
  let evidence := input.evidence
  evidence.host.toList++input.probe.runningObservation.evidenceRefs++evidence.identityProbe.toList++
    evidence.probe.toList++evidence.finalHost.toList++input.guest.elim [] (·.manifest)

def refsOf (texts : List String) (ref : Option Ref) : List String :=
  texts.filter fun text => (ref.elim "" (·.path)).toList.isPrefixOf text.toList

def checkRefs (input : MergeInput Exposure) : CheckName → List String :=
  let texts := (allRefs input).map Ref.text
  let hostRefs := refsOf texts input.evidence.host
  let probeRefs := refsOf texts input.evidence.probe
  let guestRefs := texts.filter fun text => !(hostRefs++probeRefs).contains text
  fun
  | .firewallDisabled => probeRefs
  | .fakenetRunningHealthy => guestRefs
  | .mcpControlExclusionsEffective => guestRefs
  | .blockedBeforeInterception => if probeRefs ≠ [] then probeRefs else hostRefs
  | .controlChannelsReachable => hostRefs
  | .localInterceptionObserved => probeRefs++guestRefs
  | .runningEgressContained =>
      probeRefs++input.probe.runningObservation.evidenceRefs.map Ref.text
  | .samplePathEquivalent => probeRefs

def mergeCheck (env : MergeEnv Exposure) (input : MergeInput Exposure) (key : CheckName) : Check :=
  let value := checkValue env input key
  ⟨value,if value = .none then [] else checkRefs input key⟩

/-- The guard of the facts, and none of them where there are no facts. -/
def normalizeIpv6Exposure (env : MergeEnv Exposure) : Option Exposure → ScopeGuard
  | none => ⟨none,none⟩
  | some facts => ⟨if env.reasons facts = [] then some true else none,some (env.fingerprint facts)⟩

def scopeGuard (env : MergeEnv Exposure) (probe : ProbeResult Exposure) : ScopeGuard :=
  let guard := normalizeIpv6Exposure env probe.ipv6Exposure
  if probe.ipv6Exposure.isSome ∧
      probe.runningObservation.leaks.any fun row => row "family" = .text "ipv6" then
    { guard with value := some false }
  else
    guard

def completionPresent (probe : ProbeResult Exposure) : Bool :=
  match probe.completedAt with
  | .text s => s ≠ ""
  | _ => false

/-- What `build_host_result` makes of a completeness when the probe does not say when it was done. -/
def withCompletion (probe : ProbeResult Exposure) (c : Completeness) : Completeness :=
  if completionPresent probe then c
  else
    { c with
      complete := false
      status := .underdetermined
      reason := "probe_completion_missing"
      unknownSteps := if c.unknownSteps.contains "probe_completion" then c.unknownSteps
        else c.unknownSteps++["probe_completion"] }

def bindingKeys : List String := ["run_id","vm_epoch","policy_identity","execution_context_identity"]

structure HostResult where
  steps : List MatrixStep
  completeness : Completeness
  status : Status
  failedChecks : List String
  unknownChecks : List String
  samplePathQualified : Bool
  stopRemainingProbes : Bool

def addIfAbsent (name : String) (names : List String) : List String :=
  if names.contains name then names else names++[name]

/-- The last part of `build_host_result`. -/
def mergeStatus (steps : List MatrixStep) (c : Completeness) (conclusion : Conclusion) : HostResult where
  steps := steps
  completeness := c
  status :=
    let status := match c.status with
      | .invalidEnvironment => .invalidEnvironment
      | .underdetermined =>
          if conclusion.status = .qualifiedInScope then .underdetermined else conclusion.status
      | .complete => conclusion.status
    if status = .qualifiedInScope ∧ c.complete = false then .underdetermined else status
  failedChecks := match c.status with
    | .invalidEnvironment => addIfAbsent "matrix_completeness" conclusion.failedChecks
    | _ => conclusion.failedChecks
  unknownChecks := match c.status with
    | .underdetermined => addIfAbsent "matrix_completeness" conclusion.unknownChecks
    | _ => conclusion.unknownChecks
  samplePathQualified := conclusion.samplePathQualified && c.complete
  stopRemainingProbes := conclusion.stopRemainingProbes || c.status = .invalidEnvironment

def mergePlan (input : MergeInput Exposure) : Plan where
  bindings := bindingKeys.map fun key => (key,input.request.get key)
  probeNonce := input.request.get "probe_nonce"
  requiredControlPorts := input.request.requiredControlPorts
  profile := qualificationProfile
  requiredIds := ipv4RequiredIds
  diagnosticIds := ipv6DiagnosticIds

def mergeObservation (env : MergeEnv Exposure) (input : MergeInput Exposure) (c : Completeness) :
    Observation where
  bindings := input.request.get
  contractVersion := contractVersion
  profile := qualificationProfile
  guard := scopeGuard env input.probe
  recomputed := normalizeIpv6Exposure env input.probe.ipv6Exposure
  responseNonce := if positiveMatch input.probe then input.request.get "probe_nonce" else .none
  effectivePorts := input.guest.elim .missing (·.effectivePorts)
  checks := mergeCheck env input
  completeness := c

/-- `build_host_result`, as far as the verdict goes. -/
def buildHostResult (env : MergeEnv Exposure) (input : MergeInput Exposure) :
    Except String HostResult := do
  let steps := matrixSteps env.lower input.probe input.expected
  let evaluated ← evaluateVerificationCompleteness (input.expected.map (·.1)) steps
    input.probe.positive (guestValue input.guest (·.producerMatch)) input.probe.finalConsistency
  let c := withCompletion input.probe evaluated
  let conclusion ← evaluateInterceptionQualification (mergePlan input) (mergeObservation env input c)
  return mergeStatus steps c conclusion

end Egress
end FakeNetNG
