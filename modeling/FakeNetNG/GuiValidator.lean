import FakeNetNG.Addresses
import FakeNetNG.GuiConfig
import FakeNetNG.Hostname
import FakeNetNG.OrderedDict

/-!
# The validator of the editor

`validate` collects the errors of a configuration model. Each error names a section and an option; its
text and the warnings are left out. Nothing is an exception that leaves `validate`.
-/

namespace FakeNetNG
namespace Validator

open Text

structure Issue where
  location : Text
  key : String
  deriving DecidableEq

def errorIf (wrong : Prop) [Decidable wrong] (location : Text) (key : String) : List Issue :=
  if wrong then [⟨location,key⟩] else []

def getbooleanTrue : List Text := ["1".toList,"yes".toList,"true".toList,"on".toList]

def getbooleanFalse : List Text := ["0".toList,"no".toList,"false".toList,"off".toList]

def fuzzyTrue : List Text :=
  ["yes".toList,"on".toList,"true".toList,"enable".toList,"enabled".toList]

def listenerClasses : List Text :=
  ["DNSListener".toList,"DomainEgressRelay".toList,"FTPListener".toList,"HTTPListener".toList,
    "IRCListener".toList,"POPListener".toList,"ProxyListener".toList,"RawListener".toList,
    "SMTPListener".toList,"TFTPListener".toList]

section Rules

variable (py : CaseMap)

def isEnabled (sec : Section) : Bool := py.lower (sec.stripped py "Enabled") ∈ getbooleanTrue

def isYes (sec : Section) (key : String) : Bool := py.lower (sec.stripped py key) ∈ fuzzyTrue

/-- `schema.egress_policy_enabled`, for the policy of the diverter. -/
def policyActive (m : ConfigModel) : Bool :=
  py.lower (strip (m.diverter.getOr py "ExternalAccessPolicy" "Disabled")) ∈
    ["egresscontrol".toList,"domainallowlist".toList]

def enabledListeners (m : ConfigModel) : List Section := m.listenerSections.filter (isEnabled py)

/-- The protocol and port of each listener that is expanded. -/
def expandedBindings (sec : Section) : Option (List (Text × ℤ)) :=
  (ConfigModel.expandPorts (sec.getOr py "Port" "")).map fun ports =>
    ports.map (py.upper (sec.stripped py "Protocol"),·)

def checkSectionNames (m : ConfigModel) : List Issue :=
  m.sections.flatMap fun sec =>
    errorIf (sec.isListener ∧ py.lower sec.name ∈ ["fakenet".toList,"diverter".toList]) sec.name ""

def validPort (port : ℤ) : Bool := 1 ≤ port ∧ port ≤ 65535

def checkPort (sec : Section) : List Issue :=
  match sec.get py "Port" with
  | none => [⟨sec.name,"Port"⟩]
  | some port =>
    if strip port = [] then [⟨sec.name,"Port"⟩]
    else
      match ConfigModel.expandPorts port with
      | none => [⟨sec.name,"Port"⟩]
      | some ports => errorIf (ports = [] ∨ ¬ports.all validPort) sec.name "Port"

def checkListenerSection (sec : Section) : List Issue :=
  (match sec.get py "Enabled" with
    | none => [⟨sec.name,"Enabled"⟩]
    | some enabled => errorIf (py.lower (strip enabled) ∉ getbooleanTrue++getbooleanFalse) sec.name
        "Enabled")++
  checkPort py sec++
  errorIf (py.upper (sec.stripped py "Protocol") ∉ ["TCP".toList,"UDP".toList]) sec.name "Protocol"++
  errorIf (sec.stripped py "Listener" ≠ [] ∧ sec.stripped py "Listener" ∉ listenerClasses) sec.name
    "Listener"

/-- A section claims names or bindings, one after the other. Each may have been claimed by another. -/
def claim {α : Type} [DecidableEq α] (owner : Text) : List α → Dict α Text → List Issue × Dict α Text
  | [],owners => ([],owners)
  | x :: claimed,owners =>
    let rest := claim owner claimed (owners.set x owner)
    (errorIf (∃ prior ∈ owners.get? x, prior ≠ [] ∧ prior ≠ owner) owner "Port"++rest.1,rest.2)

def checkListeners : List Section → Dict Text Text → Dict (Text × ℤ) Text → Option (List Issue)
  | [],_,_ => some []
  | sec :: sections,names,bindings =>
    (ConfigModel.expandedListenerNames py sec).bind fun expanded =>
    (if isEnabled py sec then expandedBindings py sec else some []).bind fun bound =>
      let named := claim sec.name (expanded.map py.lower) names
      let taken := claim sec.name bound bindings
      (checkListeners sections named.2 taken.2).map fun rest =>
        checkListenerSection py sec++named.1++taken.1++rest

def checkListenerStructure (m : ConfigModel) : Option (List Issue) :=
  checkListeners py m.listenerSections .empty .empty

/-- Two lists of which one has to be empty. -/
def checkPair (holder : Section) (white black : String) : List Issue :=
  errorIf (holder.stripped py white ≠ [] ∧ holder.stripped py black ≠ []) holder.name s!"{white}/{black}"

def checkExclusivity (m : ConfigModel) : List Issue :=
  (m.diverter :: m.listenerSections).flatMap fun holder =>
    checkPair py holder "ProcessWhiteList" "ProcessBlackList"++
      checkPair py holder "HostWhiteList" "HostBlackList"

def checkRedirectDefaults (m : ConfigModel) : Option (List Issue) :=
  if isYes py m.diverter "RedirectAllTraffic" then
    (m.listenerSections.mapM (ConfigModel.expandedListenerNames py)).map fun names =>
      let expanded := names.flatten.map py.lower
      ["DefaultTCPListener","DefaultUDPListener"].flatMap fun key =>
        let value := m.diverter.stripped py key
        errorIf (value = [] ∨ py.lower value ∉ expanded) m.diverter.name key
  else some []

def divertsTraffic (m : ConfigModel) : Bool :=
  py.lower (strip (m.fakenet.getOr py "DivertTraffic" "No")) = "yes".toList

def checkFakenet (m : ConfigModel) : List Issue :=
  errorIf (divertsTraffic py m ∧ py.lower (m.diverter.stripped py "NetworkMode") ∉
    ["singlehost".toList,"multihost".toList,"auto".toList]) m.diverter.name "NetworkMode"

def usableUnicastIpv4 (text : Text) : Option (BitVec 32) :=
  match IpAddress.read text with
  | some (.v4 bits) =>
    if Addr.isLoopbackBits bits || Addr.isLinkLocal bits || Addr.isMulticast bits ||
        Addr.isUnspecified bits || Addr.isReserved bits then none
    else some bits
  | _ => none

def isRfc1918 (bits : BitVec 32) : Bool :=
  Addr.isPrivate bits && !(Addr.isLoopbackBits bits || Addr.isLinkLocal bits)

variable (idna : String → Option String)

def hostnameForbidden : Text := [':','/','@','*','?','\\']

def validHostname (domain : Text) : Bool :=
  (idna (String.ofList domain)).isSome && domain ≠ [] && domain.length ≤ 253 &&
    !domain.any (hostnameForbidden.contains ·) &&
    (split '.' (domain.rdropWhile (· = '.'))).all fun label => 0 < label.length && label.length ≤ 63

/-- An option with one value while the policy is on, which is its default too. -/
structure LockedField where
  key : String
  expected : String
  isInt : Bool

def lockedFields : List LockedField :=
  [⟨"ExternalAllowedTCPPorts","443",false⟩,⟨"ExternalVerifyTLSSNI","Yes",false⟩,
    ⟨"ExternalBlockExternalIPv6","Yes",false⟩,⟨"ExternalBlockQUIC","Yes",false⟩,
    ⟨"ExternalProcessRedirectProtocol","TCP",false⟩,⟨"ExternalTLSHelloTimeout","5",true⟩,
    ⟨"ExternalTLSHelloMaxBytes","65536",true⟩,⟨"ExternalMaxPendingFlows","256",true⟩,
    ⟨"ExternalMaxPendingPerSource","32",true⟩,⟨"ExternalMaxActiveRelays","128",true⟩,
    ⟨"ExternalMaxActivePerSource","16",true⟩,⟨"ExternalRelayIdleTimeout","300",true⟩,
    ⟨"ExternalRelayBufferBytes","1048576",true⟩]

def checkLocked (diverter : Section) (field : LockedField) : List Issue :=
  let value := diverter.get py field.key
  if (value.map strip).getD [] = [] then
    errorIf (field.key = "ExternalAllowedTCPPorts") diverter.name field.key
  else
    let value := strip (value.getD [])
    errorIf (¬if field.isInt then (readInt value).isSome ∧ readInt value = readInt field.expected.toList
      else py.lower value = py.lower field.expected.toList) diverter.name field.key

def allowedDomains (diverter : Section) : List Text :=
  ((split ',' (diverter.getOr py "ExternalAllowedDomains" "")).map strip).filter (· ≠ [])

def wildcardPrefix : Text := ['*','.']

/-- The domain without the `*.` of a wildcard. -/
def candidateOf (domain : Text) : Text := if wildcardPrefix <+: domain then domain.drop 2 else domain

def checkDomains (diverter : Section) : List Issue :=
  (allowedDomains py diverter).flatMap fun domain =>
    errorIf (¬validHostname idna (candidateOf domain)) diverter.name "ExternalAllowedDomains"

def checkDnsServer (diverter : Section) : List Issue :=
  let server := strip (diverter.getOr py "ExternalDnsServer" "Auto")
  errorIf (py.lower server ≠ "auto".toList ∧ usableUnicastIpv4 server = none) diverter.name
    "ExternalDnsServer"

/-- A number between two bounds. -/
def readBetween (low high : ℤ) (text : Text) : Option ℤ :=
  (readInt text).filter fun n => low ≤ n ∧ n ≤ high

def relayPort (diverter : Section) : Option ℤ :=
  readBetween 1 65535 (strip (diverter.getOr py "ExternalRelayPort" "38927"))

def listensAs (sec : Section) (listener : String) : Bool := sec.getOr py "Listener" "" = listener.toList

/-- A listener for DNS on port 53. -/
def servesDns (sec : Section) : Bool :=
  listensAs py sec "DNSListener" &&
    (ConfigModel.expandPorts (sec.getOr py "Port" "")).any fun ports => ports.contains 53

def hasProtocol (protocol : String) (sec : Section) : Bool :=
  py.upper (sec.getOr py "Protocol" "") = protocol.toList

def dnsCount (enabled : List Section) (protocol : String) : ℕ :=
  (enabled.filter fun sec => servesDns py sec && hasProtocol py protocol sec).length

def checkRelay (relayPort : Option ℤ) (relay : Section) : List Issue :=
  errorIf (¬hasProtocol py "TCP" relay) relay.name "Protocol"++
    errorIf (∃ port ∈ (relay.get py "Port").bind (readInt ∘ strip), ∃ expected ∈ relayPort,
      port ≠ expected) relay.name "Port"

def checkPolicyTopology (m : ConfigModel) (relayPort : Option ℤ) : List Issue :=
  let enabled := enabledListeners py m
  (match enabled.filter (listensAs py · "DomainEgressRelay") with
    | [relay] => checkRelay py relayPort relay
    | _ => [⟨m.diverter.name,"ExternalAccessPolicy"⟩])++
  errorIf (dnsCount py enabled "UDP" ≠ 1 ∨ dnsCount py enabled "TCP" ≠ 1) m.diverter.name
    "ExternalAccessPolicy"++
  enabled.flatMap fun sec =>
    errorIf (¬listensAs py sec "DomainEgressRelay" ∧ ∃ expected ∈ relayPort,
      ∃ bindings ∈ expandedBindings py sec, ∃ binding ∈ bindings, binding.2 = expected) sec.name "Port"

def checkPolicyCore (m : ConfigModel) : List Issue :=
  errorIf (¬divertsTraffic py m) m.fakenet.name "DivertTraffic"++
    lockedFields.flatMap (checkLocked py m.diverter)++checkDomains py idna m.diverter++
    checkDnsServer py m.diverter++
    errorIf (readBetween 1 30 (strip (m.diverter.getOr py "ExternalDnsTimeout" "3")) = none)
      m.diverter.name "ExternalDnsTimeout"++
    errorIf (relayPort py m.diverter = none) m.diverter.name "ExternalRelayPort"++
    checkPolicyTopology py m (relayPort py m.diverter)

def takeoverKeys : List String :=
  ["ExternalTakeoverDnsTTL","ExternalTakeoverProbeTCPPorts","ExternalTakeoverProbeTimeoutMs"]

def requested (diverter : Section) : Bool := (diverter.get py "ExternalTakeoverIPv4").isSome

/-- The private address that other domains lead to. -/
def takeoverSink (diverter : Section) : Option (BitVec 32) :=
  match IpAddress.read (diverter.stripped py "ExternalTakeoverIPv4") with
  | some (.v4 bits) => if isRfc1918 bits then some bits else none
  | _ => none

def checkProbePorts (diverter : Section) : List Issue :=
  let ports := diverter.stripped py "ExternalTakeoverProbeTCPPorts"
  errorIf (ports ≠ [] ∧ ¬∃ expanded ∈ ConfigModel.expandPorts ports,
    expanded.length ≤ 64 ∧ ∀ port ∈ expanded, validPort port) diverter.name
    "ExternalTakeoverProbeTCPPorts"

def checkProbeTimeout (diverter : Section) : List Issue :=
  errorIf (readBetween 100 5000 (strip (diverter.getOr py "ExternalTakeoverProbeTimeoutMs" "500")) = none)
    diverter.name "ExternalTakeoverProbeTimeoutMs"

def checkTakeover (m : ConfigModel) : List Issue × Option (BitVec 32) :=
  let diverter := m.diverter
  if requested py diverter then
    match takeoverSink py diverter with
    | none => ([⟨diverter.name,"ExternalTakeoverIPv4"⟩],none)
    | some sink =>
      let text := diverter.stripped py "ExternalTakeoverIPv4"
      let server := diverter.stripped py "ExternalDnsServer"
      (errorIf (py.lower server ≠ "auto".toList ∧ server = text) diverter.name "ExternalTakeoverIPv4"++
        errorIf (readBetween 1 300 (diverter.stripped py "ExternalTakeoverDnsTTL") = none) diverter.name
          "ExternalTakeoverDnsTTL"++
        checkProbePorts py diverter++checkProbeTimeout py diverter++
        errorIf (py.lower (strip (diverter.getOr py "ExternalNonAllowedAction" "Divert")) ≠
          "divert".toList) diverter.name "ExternalNonAllowedAction"++
        ((enabledListeners py m).filter (servesDns py)).flatMap fun sec =>
          errorIf (sec.stripped py "ResponseA" ≠ [] ∧ sec.stripped py "ResponseA" ≠ text) sec.name
            "ResponseA",some sink)
  else
    (takeoverKeys.flatMap fun key => errorIf (diverter.get py key).isSome diverter.name key,none)

structure ReviewedRule where
  protocol : Text
  ipv4 : Text
  /-- All ports, or one. -/
  port : Option ℕ
  deriving DecidableEq

/-- One rule of `parse_reviewed_ipv4_rules`. -/
def parseRule (part : Text) : Except PolicyError ReviewedRule :=
  match split '/' (strip part) with
  | [protocol,ipv4,port] =>
    if protocol ∉ ["TCP".toList,"UDP".toList] then
      .error (.policyConfig "reviewed IPv4 rule protocol must be TCP or UDP")
    else if strip ipv4 ≠ ipv4 ∨ ipv4 = [] then
      .error (.policyConfig "reviewed IPv4 address is invalid")
    else
      match IpAddress.read ipv4 with
      | none => .error (.policyConfig "reviewed IPv4 rule requires one canonical IPv4 address")
      | some (.v6 _) =>
        .error (.policyConfig "reviewed IPv4 rule requires a global unicast IPv4 address")
      | some (.v4 bits) =>
        if IpAddress.dotted bits ≠ ipv4 ∨ ¬Addr.isGlobalIpv4 (.v4 bits) then
          .error (.policyConfig "reviewed IPv4 rule requires a global unicast IPv4 address")
        else if port = ['*'] then .ok ⟨protocol,ipv4,none⟩
        else if port = [] ∨ ¬port.all isDigit then
          .error (.policyConfig "reviewed IPv4 rule port must be * or decimal")
        else
          match readDigits port with
          | none => .error (.value "Exceeds the limit for integer string conversion")
          | some n =>
            if 1 ≤ n ∧ n ≤ 65535 then .ok ⟨protocol,ipv4,some n⟩
            else .error (.policyConfig "reviewed IPv4 rule port must be between 1 and 65535")
  | _ => .error (.policyConfig "reviewed IPv4 rules must use PROTOCOL/IPv4/PORT")

/-- A rule for all ports of an address goes with no other rule for it. -/
def conflicts (rule prior : ReviewedRule) : Bool :=
  rule.protocol = prior.protocol ∧ rule.ipv4 = prior.ipv4 ∧ (rule.port = none ∨ prior.port = none)

def parseRules : List Text → List ReviewedRule → Except PolicyError (List ReviewedRule)
  | [],parsed => .ok parsed
  | part :: parts,parsed =>
    match parseRule part with
    | .error e => .error e
    | .ok rule =>
      if rule ∈ parsed then
        .error (.policyConfig "ExternalAllowedIPv4Rules contains a duplicate rule")
      else if parsed.any (conflicts rule) then
        .error (.policyConfig "reviewed IPv4 wildcard and exact ports conflict")
      else parseRules parts (parsed++[rule])

/-- `parse_reviewed_ipv4_rules`, up to the index that it builds from the rules. The last of equal keys
counts. -/
def parseReviewedIpv4Rules (config : List (Text × Text)) : Except PolicyError (List ReviewedRule) :=
  match config.reverse.find? fun item => item.1 = "externalallowedipv4rules".toList with
  | none => .ok []
  | some (_,raw) =>
    if config.any fun item => "tcp/".toList <+: py.lower (strip item.1) ∨
        "udp/".toList <+: py.lower (strip item.1) then
      .error (.policyConfig "reviewed IPv4 rule fragments cannot be separate options")
    else
      let parts := split ',' raw
      if strip raw = [] ∨ parts.any (strip · = []) then
        .error (.policyConfig "ExternalAllowedIPv4Rules contains an empty rule")
      else if 32 < parts.length then
        .error (.policyConfig "ExternalAllowedIPv4Rules permits at most 32 rules")
      else
        match parseRules parts [] with
        | .error e => .error e
        | .ok rules =>
          if 16 < (rules.map ReviewedRule.ipv4).dedup.length then
            .error (.policyConfig "ExternalAllowedIPv4Rules permits at most 16 IPv4 addresses")
          else .ok rules

def checkReviewedRules (m : ConfigModel) : Option (List Issue) :=
  match parseReviewedIpv4Rules py (m.diverter.items.map fun item => (py.lower item.1,item.2)) with
  | .ok _ => some []
  | .error (.policyConfig _) => some [⟨m.diverter.name,"ExternalAllowedIPv4Rules"⟩]
  | .error _ => none

variable (isFile : Text → Bool)

def redirectKeys : List String :=
  ["ExternalProcessRedirectProtocol","ExternalProcessRedirectImagePath",
    "ExternalProcessRedirectImageSHA256","ExternalProcessRedirectOriginalIPv4",
    "ExternalProcessRedirectTargetIPv4"]

/-- `^[A-Za-z]:\\.+$`. -/
def isAbsoluteWindowsPath : Text → Bool
  | drive :: ':' :: '\\' :: rest => drive.isAlpha && rest ≠ [] && !rest.contains '\n'
  | _ => false

def isSha256 (text : Text) : Bool := text.length = 64 && text.all fun c => (IpAddress.hexDigit c).isSome

def checkRedirectAddress (m : ConfigModel) (sink : Option (BitVec 32)) (key : String)
    (usable : BitVec 32 → Bool) : List Issue :=
  let value := m.diverter.stripped py key
  let server := m.diverter.stripped py "ExternalDnsServer"
  errorIf (value ≠ [] ∧ ¬∃ bits ∈ usableUnicastIpv4 value, usable bits) m.diverter.name key++
    errorIf (value ≠ [] ∧ py.lower server ≠ "auto".toList ∧ value = server) m.diverter.name key++
    errorIf (value ≠ [] ∧ ∃ bits ∈ sink, value = IpAddress.dotted bits) m.diverter.name key

def checkProcessRedirect (m : ConfigModel) (sink : Option (BitVec 32)) : List Issue :=
  let diverter := m.diverter
  if isYes py diverter "ExternalProcessRedirectEnabled" then
    let path := diverter.stripped py "ExternalProcessRedirectImagePath"
    let sha256 := diverter.stripped py "ExternalProcessRedirectImageSHA256"
    let original := diverter.stripped py "ExternalProcessRedirectOriginalIPv4"
    let target := diverter.stripped py "ExternalProcessRedirectTargetIPv4"
    (redirectKeys.flatMap fun key => errorIf (diverter.stripped py key = []) diverter.name key)++
      errorIf (path ≠ [] ∧ ¬(isAbsoluteWindowsPath path ∧ isFile path)) diverter.name
        "ExternalProcessRedirectImagePath"++
      errorIf (sha256 ≠ [] ∧ ¬isSha256 sha256) diverter.name "ExternalProcessRedirectImageSHA256"++
      checkRedirectAddress py m sink "ExternalProcessRedirectOriginalIPv4" (!Addr.isPrivate ·)++
      checkRedirectAddress py m sink "ExternalProcessRedirectTargetIPv4" isRfc1918++
      errorIf (original ≠ [] ∧ target ≠ [] ∧ original = target) diverter.name
        "ExternalProcessRedirectTargetIPv4"
  else []

def isPlaceholderChar (c : Char) : Bool := c.isUpper || c.isDigit || c = '_'

/-- `^__[A-Z0-9_]+__$`. -/
def isPlaceholder (text : Text) : Bool :=
  "__".toList.isPrefixOf text && "__".toList.isSuffixOf text && 5 ≤ text.length &&
    text.all isPlaceholderChar

def isTokenChar (c : Char) : Bool := c.isLower || c = '_'

/-- What `\{([a-z_]+)\}` finds. -/
def commandTokens : ℕ → Text → List Text
  | 0,_ => []
  | _,[] => []
  | fuel+1,'\x7b' :: rest =>
    let token := rest.takeWhile isTokenChar
    match rest.drop token.length with
    | '\x7d' :: after => if token ≠ [] then token :: commandTokens fuel after else commandTokens fuel rest
    | _ => commandTokens fuel rest
  | fuel+1,_ :: rest => commandTokens fuel rest

def executeCmdAllowed : List Text :=
  ["pid".toList,"procname".toList,"src_addr".toList,"src_port".toList,"dst_addr".toList,
    "dst_port".toList]

def checkItem (sec : Section) (item : Text × Text) : List Issue :=
  errorIf (isPlaceholder (strip item.2)) sec.name (String.ofList item.1)++
    errorIf (isPlaceholder item.1) sec.name (String.ofList item.1)++
    errorIf (py.lower item.1 = "executecmd".toList ∧
      ∃ token ∈ commandTokens item.2.length item.2, token ∉ executeCmdAllowed) sec.name
      (String.ofList item.1)

def checkValues (m : ConfigModel) : List Issue :=
  (m.fakenet :: m.diverter :: m.listenerSections).flatMap fun sec => sec.items.flatMap (checkItem py sec)

/-- The rules of the policy, or the one that stays while it is off. -/
def checkPolicy (m : ConfigModel) : Option (List Issue × Option (BitVec 32)) :=
  if policyActive py m then
    let takeover := checkTakeover py m
    (checkReviewedRules py m).map fun reviewed =>
      (checkPolicyCore py idna m++takeover.1++reviewed,takeover.2)
  else
    some (errorIf (m.diverter.stripped py "ExternalTakeoverIPv4" ≠ [] ∧ takeoverSink py m.diverter = none)
      m.diverter.name "ExternalTakeoverIPv4",none)

/-- `validate` of a main configuration. -/
def validate (m : ConfigModel) : Option (List Issue) :=
  (checkListenerStructure py m).bind fun listeners =>
  (checkRedirectDefaults py m).bind fun defaults =>
  (checkPolicy py idna m).map fun policy =>
    checkSectionNames py m++listeners++checkExclusivity py m++defaults++checkFakenet py m++policy.1++
      checkProcessRedirect py isFile m policy.2++checkValues py m

end Rules

end Validator
end FakeNetNG
