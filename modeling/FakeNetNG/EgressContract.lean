import FakeNetNG.IpText
import Mathlib.Tactic

/-!
# The qualification contract

The completeness of a verification and the assessment of its checks. Both are read-only functions of
the material that they are given.
-/

namespace FakeNetNG
namespace Egress

/-- A value that was read from a report, as far as the code looks at it. -/
inductive Scalar
  | none
  | bool (b : Bool)
  | int (n : ℤ)
  | text (s : String)
  /-- A float with what `str` makes of it, and its value when it is finite. -/
  | float (repr : String) (value : Option ℚ)
  /-- A container with what `str` makes of it. -/
  | other (repr : String) (truthy : Bool)
  deriving DecidableEq

namespace Scalar

def truthy : Scalar → Bool
  | none => false
  | bool b => b
  | int n => n ≠ 0
  | text s => s ≠ ""
  | float _ v => v ≠ some 0
  | other _ b => b

/-- `str`. -/
def toText : Scalar → String
  | none => "None"
  | bool b => if b then "True" else "False"
  | int n => toString n
  | text s => s
  | float repr _ => repr
  | other repr _ => repr

/-- `str(value or '')`. -/
def orEmpty (x : Scalar) : String := if x.truthy then x.toText else ""

def number : Scalar → Option ℚ
  | bool b => some (if b then 1 else 0)
  | int n => some n
  | float _ v => v
  | _ => Option.none

/-- `==`, for which a truth value is a number and `nan` differs from itself. -/
def same (x y : Scalar) : Bool :=
  match x.number,y.number with
  | some m,some n => m = n
  | _,_ => x = y ∧ x ≠ float "nan" Option.none

def isTrue (x : Scalar) : Bool := x = bool true
def isFalse (x : Scalar) : Bool := x = bool false

/-- `type(x) is int` and positive. -/
def isPositive : Scalar → Bool
  | int n => 0 < n
  | _ => false

def isInt : Scalar → Bool
  | int _ => true
  | bool _ => true
  | _ => false

def ofOption : Option Bool → Scalar
  | some b => bool b
  | Option.none => none

@[simp] theorem ofOption_isTrue {v : Option Bool} : (ofOption v).isTrue = true ↔ v = some true := by
  cases v <;> simp [ofOption,isTrue]

end Scalar

/-- A dictionary, with `none` for a key that it does not have. -/
abbrev Record := String → Scalar

def matrixTcpPorts : List ℕ := [80,443,139]
def matrixUdpPorts : List ℕ := [53,443,67,68,137,138,1900,5355]

/-- The ids of one family in the order of `matrix_definition`. -/
def familyIds (family : String) : List String :=
  matrixTcpPorts.map (fun port => family++"_tcp_"++toString port)++[family++"_tcp_random"]++
    matrixUdpPorts.map (fun port => family++"_udp_"++toString port)++
    [family++"_udp_random",family++"_icmp",family++"_dns_nonce_invalid"]

def ipv4RequiredIds : List String := familyIds "ipv4"
def ipv6DiagnosticIds : List String := familyIds "ipv6"

/-- `matrix_step_ids`, which the random ports do not change. -/
def matrixStepIds : List String := familyIds "ipv4"++familyIds "ipv6"

inductive Outcome
  | pass
  | fail
  | unknown
  | notRun
  deriving DecidableEq

structure MatrixStep where
  id : String
  outcome : Outcome
  reasonCode : String

inductive CompletenessStatus
  | invalidEnvironment
  | underdetermined
  | complete
  deriving DecidableEq

structure Completeness where
  status : CompletenessStatus
  complete : Bool
  failedSteps : List String
  unknownSteps : List String
  missingSteps : List String
  requiredIds : List String
  diagnosticIds : List String
  planned : ℕ
  observed : ℕ
  reason : String

def outcomeOf (steps : List MatrixStep) (id : String) : Option Outcome :=
  (steps.find? (·.id = id)).map (·.outcome)

/-- The ids of a family whose rows have one of the outcomes. -/
def withOutcome (steps : List MatrixStep) (ids : List String) (outcomes : List Outcome) :
    List String :=
  ids.filter fun id => (outcomeOf steps id).any (outcomes.contains ·)

/-- The nonce of the positive, which is missing or a dictionary that is not empty. -/
def nonceMatch (positive : Option Record) : Scalar :=
  match positive with
  | none => .none
  | some record => record "nonce_match"

def positiveFailed (positive : Option Record) (producerMatch : Scalar) : Bool :=
  producerMatch.isFalse || (nonceMatch positive).isFalse

def failedSteps (expected : List String) (steps : List MatrixStep) (positive : Option Record)
    (producerMatch finalConsistency : Scalar) : List String :=
  withOutcome steps ipv4RequiredIds [.fail]++withOutcome steps ipv6DiagnosticIds [.fail]++
    (if positiveFailed positive producerMatch then ["positive_interception"] else [])++
    (if finalConsistency.isFalse then ["final_consistency"] else [])++
    (if expected ≠ matrixStepIds then ["completeness_profile_invalid"] else [])

def missingSteps (expected : List String) (steps : List MatrixStep) : List String :=
  expected.filter fun id => (outcomeOf steps id).isNone

def unknownSteps (expected : List String) (steps : List MatrixStep) (positive : Option Record)
    (producerMatch finalConsistency : Scalar) : List String :=
  withOutcome steps ipv4RequiredIds [.unknown,.notRun]++
    (if !positiveFailed positive producerMatch &&
        !((nonceMatch positive).isTrue && producerMatch.isTrue) then ["positive_interception"] else [])++
    (if !finalConsistency.isFalse && !finalConsistency.isTrue then ["final_consistency"] else [])++
    missingSteps expected steps

def completenessStatus (failed unknown : List String) : CompletenessStatus :=
  if failed ≠ [] then .invalidEnvironment else if unknown ≠ [] then .underdetermined else .complete

theorem completenessStatus_eq_invalid {failed unknown : List String} (h : failed ≠ []) :
    completenessStatus failed unknown = .invalidEnvironment := if_pos h

theorem completenessStatus_eq_complete {failed unknown : List String} :
    completenessStatus failed unknown = .complete ↔ failed = [] ∧ unknown = [] := by
  by_cases hfailed : failed = []
  · by_cases hunknown : unknown = []
    · simp [completenessStatus,hfailed,hunknown]
    · simp [completenessStatus,hfailed,hunknown]
  · simp [completenessStatus,hfailed]

/-- `evaluate_verification_completeness` for the fixed profile. -/
def evaluateVerificationCompleteness (expected : List String) (steps : List MatrixStep)
    (positive : Option Record) (producerMatch finalConsistency : Scalar) :
    Except String Completeness :=
  if expected = [] ∨ ¬expected.Nodup then
    .error "completeness_expected_invalid"
  else if ¬(steps.map (·.id)).Nodup then
    .error "completeness_row_duplicate"
  else if steps.any (fun step => !expected.contains step.id) then
    .error "completeness_row_unplanned"
  else
    let failed := failedSteps expected steps positive producerMatch finalConsistency
    let unknown := unknownSteps expected steps positive producerMatch finalConsistency
    let status := completenessStatus failed unknown
    .ok ⟨status,status = .complete,failed,unknown,missingSteps expected steps,ipv4RequiredIds,
      ipv6DiagnosticIds,expected.length,steps.length,
      match status with
      | .invalidEnvironment => "matrix_or_final_failed"
      | .underdetermined => "matrix_positive_or_final_unknown"
      | .complete => "all_matrix_rows_positive_producer_and_final_passed"⟩

inductive CheckName
  | firewallDisabled
  | fakenetRunningHealthy
  | mcpControlExclusionsEffective
  | blockedBeforeInterception
  | controlChannelsReachable
  | localInterceptionObserved
  | runningEgressContained
  | samplePathEquivalent
  deriving DecidableEq

namespace CheckName

def name : CheckName → String
  | firewallDisabled => "firewall_disabled"
  | fakenetRunningHealthy => "fakenet_running_healthy"
  | mcpControlExclusionsEffective => "mcp_control_exclusions_effective"
  | blockedBeforeInterception => "blocked_before_interception"
  | controlChannelsReachable => "control_channels_reachable"
  | localInterceptionObserved => "local_interception_observed"
  | runningEgressContained => "running_egress_contained"
  | samplePathEquivalent => "sample_path_equivalent"

/-- `EXPECTED_CHECKS`. -/
def wanted : CheckName → Bool
  | blockedBeforeInterception => false
  | _ => true

def all : List CheckName :=
  [firewallDisabled,fakenetRunningHealthy,mcpControlExclusionsEffective,blockedBeforeInterception,
    controlChannelsReachable,localInterceptionObserved,runningEgressContained,samplePathEquivalent]

theorem mem_all (key : CheckName) : key ∈ all := by cases key <;> decide

end CheckName

structure Check where
  value : Scalar
  evidenceRefs : List String

/-- `_refs`. -/
def validRefs (refs : List String) : Bool :=
  0 < refs.length && refs.length ≤ 1024 && refs.all (· ≠ "")

inductive Judgement
  | fine
  | unknown
  | failed
  deriving DecidableEq

def judge (key : CheckName) (check : Check) : Except String Judgement :=
  match check.value with
  | .none => .ok .unknown
  | .bool b =>
      if !validRefs check.evidenceRefs then
        .error ("interception_check_evidence_missing:"++key.name)
      else if b = key.wanted then
        .ok .fine
      else
        .ok .failed
  | _ => .error ("interception_check_not_tristate:"++key.name)

/-- The failed and the unknown checks, in order. -/
def judgeAll (checks : CheckName → Check) : List CheckName → Except String (List String × List String)
  | [] => .ok ([],[])
  | key :: keys => do
      let judgement ← judge key (checks key)
      let (failed,unknown) ← judgeAll checks keys
      match judgement with
      | .fine => .ok (failed,unknown)
      | .unknown => .ok (failed,key.name :: unknown)
      | .failed => .ok (key.name :: failed,unknown)

/-- A list of ports that was read, or none. -/
inductive Ports
  | missing
  | invalid
  | list (ports : List Scalar)

def validPorts : Ports → Bool
  | .list ports => 0 < ports.length && ports.length ≤ 64 &&
      ports.all (fun port => match port with | .int n => 1 ≤ n && n ≤ 65535 | _ => false) &&
      ports.Nodup
  | _ => false

/-- The scope guard of the observation, or of the facts when they are normalized again. -/
structure ScopeGuard where
  value : Option Bool
  fingerprint : Option String
  deriving DecidableEq

structure Plan where
  bindings : List (String × Scalar)
  probeNonce : Scalar
  requiredControlPorts : Ports
  profile : String
  requiredIds : List String
  diagnosticIds : List String

structure Observation where
  bindings : Record
  contractVersion : ℕ
  profile : String
  guard : ScopeGuard
  recomputed : ScopeGuard
  responseNonce : Scalar
  effectivePorts : Ports
  checks : CheckName → Check
  completeness : Completeness

inductive Status
  | selfBlockedEnvironment
  | invalidEnvironment
  | underdetermined
  | qualifiedInScope
  deriving DecidableEq

structure Conclusion where
  status : Status
  failedChecks : List String
  unknownChecks : List String
  samplePathQualified : Bool
  stopRemainingProbes : Bool

def contractVersion : ℕ := 3
def qualificationProfile : String := "ipv4-v1"

def validBinding : Scalar → Bool
  | .text s => Text.strip s.toList ≠ []
  | _ => false

def validNonce : Scalar → Bool
  | .text s => 1 ≤ s.length && s.length ≤ 256
  | _ => false

def judgeGuard (guard recomputed : ScopeGuard) : Judgement :=
  if guard.value = some true && guard = recomputed then .fine
  else if guard.value = some false && guard = recomputed then .failed
  else .unknown

/-- What the contract makes of a completeness that was evaluated. -/
def judgeCompleteness (c : Completeness) : Except String Judgement :=
  if c.planned ≠ 30 ∨ c.observed ≠ 30 then
    .error "interception_completeness_invalid"
  else if c.complete then
    if c.status ≠ .complete ∨ c.missingSteps ≠ [] ∨ c.unknownSteps ≠ [] ∨ c.failedSteps ≠ [] then
      .error "interception_completeness_invalid"
    else
      .ok .fine
  else if c.status = .complete then
    .error "interception_completeness_invalid"
  else if c.status = .invalidEnvironment then
    .ok .failed
  else
    .ok .unknown

def entryIf (wanted judgement : Judgement) (name : String) : List String :=
  if judgement = wanted then [name] else []

def judgePorts (required effective : Ports) : Except String Judgement :=
  match required,effective with
  | _,.missing => .ok .unknown
  | .list required,.list ports =>
      if !validPorts (.list ports) then
        .error "interception_effective_control_ports_invalid"
      else if required.all (ports.contains ·) then
        .ok .fine
      else
        .ok .failed
  | _,_ => .error "interception_effective_control_ports_invalid"

def conclude (failed unknown : List String) : Conclusion where
  status := if failed.contains "blocked_before_interception" then .selfBlockedEnvironment
    else if failed ≠ [] then .invalidEnvironment
    else if unknown ≠ [] then .underdetermined
    else .qualifiedInScope
  failedChecks := failed
  unknownChecks := unknown
  samplePathQualified := failed = [] ∧ unknown = []
  stopRemainingProbes := failed ≠ []

theorem conclude_failure {failed unknown : List String} :
    ((conclude failed unknown).stopRemainingProbes = true ↔ failed ≠ []) ∧
      ((conclude failed unknown).status = .selfBlockedEnvironment ∨
        (conclude failed unknown).status = .invalidEnvironment ↔ failed ≠ []) := by
  refine ⟨decide_eq_true_iff,?_⟩
  by_cases hself : failed.contains "blocked_before_interception" = true
  · have hstatus : (conclude failed unknown).status = .selfBlockedEnvironment := if_pos hself
    have hne : failed ≠ [] := by
      rintro rfl
      cases hself
    simp [hstatus,hne]
  · by_cases hfailed : failed = []
    · by_cases hunknown : unknown = []
      · simp [conclude,hfailed,hunknown]
      · simp [conclude,hfailed,hunknown]
    · have hstatus : (conclude failed unknown).status = .invalidEnvironment :=
        (if_neg hself).trans (if_pos hfailed)
      simp [hstatus,hfailed]

theorem conclude_qualified {failed unknown : List String}
    (h : (conclude failed unknown).status = .qualifiedInScope) : failed = [] ∧ unknown = [] := by
  unfold conclude at h
  dsimp only at h
  split at h
  · cases h
  · split at h
    · cases h
    · split at h
      · cases h
      · simp_all

def checkBindings (observed : Record) : List (String × Scalar) → Except String Unit
  | [] => .ok ()
  | (key,value) :: rest =>
      if !validBinding value then .error ("interception_binding_missing:"++key)
      else if observed key ≠ value then .error ("interception_binding_changed:"++key)
      else checkBindings observed rest

def evaluateInterceptionQualification (plan : Plan) (o : Observation) : Except String Conclusion := do
  checkBindings o.bindings plan.bindings
  if !validNonce plan.probeNonce then
    throw "interception_nonce_invalid"
  if !validPorts plan.requiredControlPorts then
    throw "interception_control_ports_invalid"
  let profile := if plan.profile ≠ qualificationProfile ∨ o.profile ≠ plan.profile then
    ["qualification_profile"] else []
  let scope := if plan.requiredIds ≠ ipv4RequiredIds ∨ plan.diagnosticIds ≠ ipv6DiagnosticIds then
    ["matrix_profile_scope"] else []
  let guard := judgeGuard o.guard o.recomputed
  let version := if o.contractVersion ≠ contractVersion then ["qualification_contract_version"] else []
  let (failedChecks,unknownChecks) ← judgeAll o.checks CheckName.all
  let nonce := if (o.checks .localInterceptionObserved).value.isTrue ∧ o.responseNonce ≠ plan.probeNonce
    then ["response_nonce_mismatch"] else []
  let ids := if o.completeness.requiredIds ≠ ipv4RequiredIds ∨
      o.completeness.diagnosticIds ≠ ipv6DiagnosticIds then ["matrix_profile_scope"] else []
  let completeness ← judgeCompleteness o.completeness
  let ports ← judgePorts plan.requiredControlPorts o.effectivePorts
  let failed := entryIf .failed guard "scope_guard"++failedChecks++nonce++ids++
    entryIf .failed completeness "matrix_completeness"++
    entryIf .failed ports "missing_control_exclusion_ports"
  let unknown := profile++scope++entryIf .unknown guard "scope_guard"++version++unknownChecks++
    entryIf .unknown completeness "matrix_completeness"++
    entryIf .unknown ports "effective_control_exclusion_ports"
  return conclude failed unknown

end Egress
end FakeNetNG
