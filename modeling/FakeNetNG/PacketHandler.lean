import FakeNetNG.Fallible
import FakeNetNG.FlowRecords
import FakeNetNG.PolicyOperations
import FakeNetNG.ProcessRedirect

/-!
# The packet handler of the Windows diverter

`_handle_policy_packet` classifies one captured packet and drops it, sends it, or hands
it to the base NAT first. It runs on the one receiver thread, while other threads use
the policy and the redirect engine: each of its calls into them is answered under the
states that the sections of that call find, which `PacketEnvironment` lists by call
site. It also says what the packet parser and the base NAT make of the packet, whether
the driver takes it, and which calls raise.

A handling changes the flow records and leaves a trace of what it did to the outside.
The flow audit, the latency reports and the reports on the teardown of redirected
connections are left out: they swallow their exceptions and decide nothing.
-/

namespace FakeNetNG

structure WdPacket where
  raw : List UInt8
  isOutbound : Bool
  isLoopback : Bool
  interfaceIndex : ℤ
  subinterfaceIndex : ℤ

namespace WdPacket

def byteAt (raw : List UInt8) (i : ℕ) : ℕ := (raw.getD i 0).toNat

def version (raw : List UInt8) : ℕ := (byteAt raw 0 &&& 0xf0) >>> 4

/-- `socket.inet_ntoa(raw[i:i+4])`. -/
def inetNtoa (raw : List UInt8) (i : ℕ) : Addr :=
  .dotted (byteAt raw i) (byteAt raw (i+1)) (byteAt raw (i+2)) (byteAt raw (i+3))

def hasIpv4Header (raw : List UInt8) : Bool :=
  let headerLength := (byteAt raw 0 &&& 0x0f)*4
  20 ≤ raw.length && version raw = 4 && 20 ≤ headerLength && headerLength ≤ raw.length

def fragmentBits (raw : List UInt8) : ℕ := (byteAt raw 6*256+byteAt raw 7) &&& 0x3fff

def classifyProcessRedirectIpv4Fragment (raw : List UInt8) (isOutbound : Bool)
    (originalIpv4 targetIpv4 frozenLocalIpv4 : Addr) : Bool :=
  hasIpv4Header raw && byteAt raw 9 = 6 && fragmentBits raw ≠ 0 &&
    if isOutbound then inetNtoa raw 16 = originalIpv4
    else inetNtoa raw 12 = targetIpv4 && inetNtoa raw 16 = frozenLocalIpv4

def classifyReviewedIpv4Fragment (raw : List UInt8) (targetProtocols : List (Proto × Addr)) :
    Option (Proto × Addr) :=
  if hasIpv4Header raw then
    let protocol := if byteAt raw 9 = 6 then some Proto.tcp
      else if byteAt raw 9 = 17 then some Proto.udp else none
    (protocol.map fun protocol => (protocol,inetNtoa raw 16)).filter fun target =>
      fragmentBits raw ≠ 0 && target ∈ targetProtocols
  else none

end WdPacket

inductive Verdict
  | redirectTlsRelay | allowInternalUpstream | allowReviewedIp | allowTakeoverSink | divertFake
  | reinjectLocal | dropExternal
  deriving DecidableEq

def classifyIpv6Preparse (raw : List UInt8) (isLoopback : Bool) : Option Verdict :=
  if raw ≠ [] ∧ WdPacket.version raw = 6 then
    some (if isLoopback then .reinjectLocal else .dropExternal)
  else none

/-- What the packet parser reads: the handled transport protocol, if any, with its flags
and the endpoints. -/
structure ParsedPacket where
  proto : Option Proto
  tcpFlags : ℕ
  tuple : FlowTuple
  deriving DecidableEq

/-- `WindowsPacketCtx`: the endpoints of the captured packet and those written since. -/
structure PacketCtx where
  isOutbound : Bool
  ipver : ℕ
  proto : Option Proto
  tcpFlags : ℕ
  original : FlowTuple
  current : FlowTuple
  mangled : Bool
  interfaceIndex : ℤ
  subinterfaceIndex : ℤ
  deriving DecidableEq

namespace PacketCtx

def ofWdPacket (wdpkt : WdPacket) (parsed : ParsedPacket) : PacketCtx where
  isOutbound := wdpkt.isOutbound
  ipver := WdPacket.version wdpkt.raw
  proto := parsed.proto
  tcpFlags := parsed.tcpFlags
  original := parsed.tuple
  current := parsed.tuple
  mangled := false
  interfaceIndex := wdpkt.interfaceIndex
  subinterfaceIndex := wdpkt.subinterfaceIndex

/-- `str(pkt.proto or '')`. -/
def protoName (pkt : PacketCtx) : Proto := pkt.proto.getD (.other "")

/-- `(pkt.proto, pkt.src_ip0, pkt.sport0, pkt.dst_ip0, pkt.dport0)`. -/
def flowKey (pkt : PacketCtx) : FlowKey :=
  ⟨pkt.protoName,pkt.original.srcIp,pkt.original.sport,pkt.original.dstIp,pkt.original.dport⟩

/-- The test of `_is_new_tcp_syn` and `_remember_observed_nat_syn`. -/
def isSyn (pkt : PacketCtx) : Bool :=
  pkt.proto = some .tcp && pkt.tcpFlags &&& thSyn ≠ 0 && pkt.tcpFlags &&& thAck = 0

def processRedirectPacketTuple (pkt : PacketCtx) : PacketTuple where
  direction := if pkt.isOutbound then .outbound else .inbound
  ipv4Version := pkt.ipver
  fragmented := false
  protocol := pkt.protoName
  tcpFlags := if pkt.proto = some .tcp then pkt.tcpFlags else 0
  sourceIpv4 := pkt.original.srcIp
  sourcePort := pkt.original.sport
  targetIpv4 := pkt.original.dstIp
  targetPort := pkt.original.dport
  interfaceIndex := pkt.interfaceIndex
  subinterfaceIndex := pkt.subinterfaceIndex

def reviewedPacketTuple (pkt : PacketCtx) : ReviewedPacketTuple where
  protocol := pkt.protoName
  sourceIpv4 := pkt.current.srcIp
  sourcePort := pkt.current.sport
  targetIpv4 := pkt.current.dstIp
  targetPort := pkt.current.dport
  interfaceIndex := pkt.interfaceIndex
  subinterfaceIndex := pkt.subinterfaceIndex
  outbound := pkt.isOutbound

/-- `pkt.src_ip` and `pkt.sport` assigned. -/
def withSource (pkt : PacketCtx) (ip : Addr) (port : ℕ) : PacketCtx :=
  { pkt with current := { pkt.current with srcIp := ip, sport := port }, mangled := true }

/-- `pkt.dst_ip` and `pkt.dport` assigned. -/
def withDestination (pkt : PacketCtx) (ip : Addr) (port : ℕ) : PacketCtx :=
  { pkt with current := { pkt.current with dstIp := ip, dport := port }, mangled := true }

/-- `pkt.proto in ('UDP', 'TCP')`. -/
def isTransport (pkt : PacketCtx) : Bool := pkt.proto = some .udp || pkt.proto = some .tcp

end PacketCtx

structure TakeoverRoute where
  sourceIpv4 : Addr
  interfaceIndex : ℤ
  deriving DecidableEq

structure RedirectSetup where
  rule : ProcessRedirectRule
  frozenLocalIpv4 : Addr

structure WindowsDiverter where
  cfg : PolicyConfig
  processRedirect : Option RedirectSetup
  takeoverRoute : Option TakeoverRoute
  reviewedTargetProtocols : List (Proto × Addr)
  isListener : Proto → ℕ → Bool

inductive Raised
  | pcapWriteError
  | policyError (e : PolicyError)
  | exception
  deriving DecidableEq

inductive EgressEvent
  | dropExternal (reason : String)
  | processRedirectDeny (reason : String)
  | processRedirectBCompatibilityDeny
  | processRedirectCommitFailed
  | processRedirectMappingCreated
  | processRedirectInjectCall (succeeded : Bool)
  | allowInternalUpstream
  | allowTakeoverSink
  | redirectTlsRelay (domain : String)
  | establishedBypass
  | divertFake
  | divertFakeProbe
  deriving DecidableEq

/-- The calls of `finalize_egress_verdict`, which is made once in a handling. -/
inductive VerdictQuery
  | takeover | reviewed | isLocal | isListener
  deriving DecidableEq

inductive Site
  | parse | writePcap | writeMangled | writeRedirected
  | log (event : EgressEvent)
  | matchControlFlow
  | matchesTakeoverSink
  | matchRelayReverse
  | prepare
  | matchRelayForward
  | leaseFor
  | createRelayMapping
  | matchReviewedIp
  | isLocalDnsSink
  | handlePkt
  | getPidComm
  | verdict (query : VerdictQuery)
  | rewriteSource | rewriteDestination
  | send | sendFailed
  | closeRelayMapping
  | commit | abort | suspend
  deriving DecidableEq

structure BaseRewrite where
  tuple : FlowTuple
  mangled : Bool

def PacketCtx.withBase (pkt : PacketCtx) (rewrite : BaseRewrite) : PacketCtx :=
  { pkt with current := rewrite.tuple, mangled := rewrite.mangled }

/-- What the handling of one packet meets. The base NAT gets the forward redirections or
not. -/
structure PacketEnvironment where
  parsed : ParsedPacket
  policy : Site → ℕ → EgressPolicy
  engine : ℕ → ProcessRedirectEngine
  redirect : RedirectAnswers
  base : (forwardNat : Bool) → BaseRewrite
  accepted : Bool
  probe : Bool
  raises : Site → Option Raised

/-- A packet on its way to the driver: as captured, or with the endpoints of the context. -/
inductive Wire
  | captured
  | packet (pkt : PacketCtx)
  deriving DecidableEq

inductive HandlerEvent
  | wrotePcap
  | logged (event : EgressEvent)
  | raised (e : Raised)
  | sent (wire : Wire)
  | closedMapping (generation : ℕ)
  | committed (token : Option ℕ) (outcome : Bool)
  | aborted (token : Option ℕ)
  | suspendedEngine
  deriving DecidableEq

structure Handling where
  pkt : PacketCtx
  flows : FlowRecords
  newMapping : Option ℕ
  trace : List HandlerEvent

namespace Handling

def emit (h : Handling) (e : HandlerEvent) : Handling := { h with trace := h.trace ++ [e] }

def start (wdpkt : WdPacket) (env : PacketEnvironment) (flows : FlowRecords) : Handling where
  pkt := .ofWdPacket wdpkt env.parsed
  flows := flows
  newMapping := none
  trace := []

end Handling

abbrev HandlerM := Fallible Handling Raised

def emit (e : HandlerEvent) : HandlerM Unit := .modify fun h => h.emit e

def raise {α : Type} (e : Raised) : HandlerM α := do
  emit (.raised e)
  .raise e

namespace PacketEnvironment

variable (env : PacketEnvironment)

/-- A call that answers `a` unless it raises. -/
def call {α : Type} (site : Site) (a : α) : HandlerM α :=
  match env.raises site with
  | none => pure a
  | some e => raise e

def ask {α : Type} (site : Site) (operation : Prog EgressPolicy α) : HandlerM α :=
  env.call site (operation.under (env.policy site))

def logEgressEvent (event : EgressEvent) : HandlerM Unit := do
  env.call (.log event) ()
  emit (.logged event)

def writePcap (site : Site) : HandlerM Unit := do
  env.call site ()
  emit .wrotePcap

def closeRelayMapping (generation : ℕ) : HandlerM Unit := do
  env.call .closeRelayMapping ()
  emit (.closedMapping generation)

/-- `_send_packet`. An exception of the driver is caught, and reported as a failed send. -/
def sendPacket : HandlerM Bool := do
  let h ← .get
  env.call .send ()
  emit (.sent (.packet h.pkt))
  if env.accepted then return true
  else env.call .sendFailed false

def sendCaptured : HandlerM Unit := do
  env.call .send ()
  emit (.sent .captured)

def rewriteDestination (ip : Addr) (port : ℕ) : HandlerM Unit := do
  env.call .rewriteDestination ()
  .modify fun h => { h with pkt := h.pkt.withDestination ip port }

def rewriteSource (ip : Addr) (port : ℕ) : HandlerM Unit := do
  env.call .rewriteSource ()
  .modify fun h => { h with pkt := h.pkt.withSource ip port }

def isExactLocalIpv4 (site : Site) (ip : Addr) : HandlerM Bool :=
  env.ask site (.read fun s => s.isExactLocalIpv4 ip)

end PacketEnvironment

/-- The keyword arguments of `finalize_egress_verdict`. -/
structure VerdictArgs where
  relayRedirected : Bool := false
  permit : Option ControlPermit := none
  relayReturnFixed : Bool := false
  reviewedRule : Option ReviewedIPv4Rule := none

def onlyIf (b : Bool) (m : HandlerM Unit) : HandlerM Unit := if b then m else pure ()

/-- `if m: return`, then `rest`. -/
def unlessFinal (m : HandlerM Bool) (rest : HandlerM Unit) : HandlerM Unit := do
  if ← m then pure () else rest

namespace WindowsDiverter

variable (d : WindowsDiverter) (env : PacketEnvironment)

def onTakeoverRoute (pkt : PacketCtx) : Bool :=
  d.takeoverRoute.any fun route =>
    pkt.original.srcIp = route.sourceIpv4 && pkt.interfaceIndex = route.interfaceIndex

def matchesTakeoverSinkRoute (site : Site) : HandlerM Bool := do
  let h ← .get
  if d.onTakeoverRoute h.pkt then
    env.ask site (.read (EgressPolicy.matchesTakeoverSinkLocked h.pkt.flowKey))
  else return false

/-- The last tests of `_compute_egress_verdict`. -/
def localVerdict : HandlerM Verdict := do
  let h ← .get
  if ← env.isExactLocalIpv4 (.verdict .isLocal) h.pkt.current.dstIp then
    match h.pkt.proto with
    | none => return .reinjectLocal
    | some proto =>
      if ← env.call (.verdict .isListener) (d.isListener proto h.pkt.current.dport) then
        return .divertFake
      else return .reinjectLocal
  else return .dropExternal

def relayVerdict : HandlerM Verdict := do
  let h ← .get
  if h.pkt.proto = some .tcp ∧ h.pkt.current.dport = d.cfg.relayPort then
    if ← env.isExactLocalIpv4 (.verdict .isLocal) h.pkt.current.dstIp then
      if ← env.call (.verdict .isListener) (d.isListener .tcp h.pkt.current.dport) then
        return .redirectTlsRelay
      else return .dropExternal
    else return .dropExternal
  else return .dropExternal

def reviewedVerdict (rule : ReviewedIPv4Rule) : HandlerM Verdict := do
  let h ← .get
  match ← env.ask (.verdict .reviewed)
      (.read (EgressPolicy.matchReviewedIpLocked h.pkt.reviewedPacketTuple)) with
  | none => return .dropExternal
  | some current =>
    if current.ruleId = rule.ruleId then return .allowReviewedIp else return .dropExternal

/-- `_compute_egress_verdict`. -/
def finalizeEgressVerdict (args : VerdictArgs) : HandlerM Verdict := do
  if args.permit.isSome then return .allowInternalUpstream
  else if ← d.matchesTakeoverSinkRoute env (.verdict .takeover) then
    return .allowTakeoverSink
  else if args.relayReturnFixed then
    let h ← .get
    if ← env.isExactLocalIpv4 (.verdict .isLocal) h.pkt.current.dstIp then
      return .reinjectLocal
    else return .dropExternal
  else if args.relayRedirected then d.relayVerdict env
  else
    match args.reviewedRule with
    | some rule => reviewedVerdict env rule
    | none => d.localVerdict env

/-- A branch of the handler. One that says `true` has finished the packet. -/
def allowControlFlow : HandlerM Bool := do
  let h ← .get
  match h.pkt.proto with
  | none => return false
  | some _ =>
    match ← env.ask .matchControlFlow (EgressPolicy.matchControlFlow h.pkt.flowKey) with
    | none => return false
    | some permit =>
      let verdict ← d.finalizeEgressVerdict env { permit := some permit }
      if verdict = .allowInternalUpstream then
        env.logEgressEvent .allowInternalUpstream
        let _ ← env.sendPacket
        return true
      else return true

def allowTakeoverSink : HandlerM Bool := do
  if ← d.matchesTakeoverSinkRoute env .matchesTakeoverSink then
    let verdict ← d.finalizeEgressVerdict env {}
    if verdict = .allowTakeoverSink then
      env.logEgressEvent .allowTakeoverSink
      let _ ← env.sendPacket
      return true
    else
      env.logEgressEvent (.dropExternal "takeover_revalidation_failed")
      return true
  else return false

def applyDomainRelayReturnFixup : HandlerM (Option RelayNatMapping) := do
  let h ← .get
  match h.pkt.proto with
  | none => return none
  | some _ =>
    match ← env.ask .matchRelayReverse (EgressPolicy.matchNat RelayNat.reverse h.pkt.flowKey) with
    | none => return none
    | some mapping =>
      env.rewriteSource mapping.serverIp mapping.serverPort
      return some mapping

def returnRelay : HandlerM Bool := do
  match ← applyDomainRelayReturnFixup env with
  | none => return false
  | some mapping =>
    let verdict ← d.finalizeEgressVerdict env { relayReturnFixed := true }
    if verdict = .reinjectLocal then
      env.writePcap .writeMangled
      if ← env.sendPacket then return true
      else
        env.closeRelayMapping mapping.generation
        return true
    else
      env.logEgressEvent (.dropExternal "stale_relay_return")
      env.closeRelayMapping mapping.generation
      return true

def injectRedirected (prepared : PreparedRedirect) (rewrite : HandlerM Unit) : HandlerM Bool :=
  Fallible.tryExcept
    (do
      rewrite
      env.writePcap .writeRedirected
      env.sendPacket)
    fun e => do
      env.call .abort ()
      emit (.aborted prepared.token)
      .raise e

def settleRedirected (prepared : PreparedRedirect) (sent : Bool) : HandlerM Unit := do
  let committed ← Fallible.tryExcept
    (do
      env.call .commit ()
      emit (.committed prepared.token sent)
      return true)
    fun _ => do
      env.call .suspend ()
      emit .suspendedEngine
      env.logEgressEvent .processRedirectCommitFailed
      return false
  onlyIf committed do
    onlyIf (prepared.decision.reason = "new_mapping" && sent)
      (env.logEgressEvent .processRedirectMappingCreated)
    onlyIf (!sent || prepared.decision.reason = "new_mapping")
      (env.logEgressEvent (.processRedirectInjectCall sent))

def rewriteRedirected (prepared : PreparedRedirect) (rewrite : HandlerM Unit) : HandlerM Bool := do
  let sent ← injectRedirected env prepared rewrite
  settleRedirected env prepared sent
  return true

/-- Assigning `None` to an endpoint raises. -/
def assignEndpoint (assign : Addr → ℕ → HandlerM Unit) : Option Addr → Option ℕ → HandlerM Unit
  | some ip, some port => assign ip port
  | _, _ => raise .exception

def applyProcessRedirect (rule : ProcessRedirectRule) : HandlerM Bool := do
  let h ← .get
  let prepared ← env.call .prepare
    ((rule.prepare h.pkt.processRedirectPacketTuple env.redirect).under env.engine)
  let decision := prepared.decision
  match decision.action with
  | .notApplicable => return false
  | .passUnchanged =>
    if h.pkt.isOutbound then return false
    else if ← env.sendPacket then return true
    else
      env.logEgressEvent .processRedirectBCompatibilityDeny
      return true
  | .drop =>
    env.logEgressEvent (.processRedirectDeny decision.reason)
    return true
  | .rewriteOutbound =>
    rewriteRedirected env prepared (assignEndpoint env.rewriteDestination
      decision.rewriteTargetIpv4 decision.rewriteTargetPort)
  | .rewriteInbound =>
    rewriteRedirected env prepared (assignEndpoint env.rewriteSource
      decision.rewriteSourceIpv4 decision.rewriteSourcePort)

def redirectProcess : HandlerM Bool :=
  match d.processRedirect with
  | none => pure false
  | some setup => applyProcessRedirect env setup.rule

def isNewTcpSyn : HandlerM Bool := do
  let h ← .get
  if h.pkt.isSyn then
    Fallible.modify fun h => { h with flows := h.flows.recordSyn h.pkt.original }
    return true
  else return false

def applyDomainRelayForwardRedirect : HandlerM (Option RelayNatMapping) := do
  let h ← .get
  match ← env.ask .matchRelayForward (EgressPolicy.matchNat RelayNat.forward h.pkt.flowKey) with
  | none => return none
  | some mapping =>
    env.rewriteDestination mapping.relayIp mapping.relayPort
    return some mapping

def redirectDomainTlsSyn : HandlerM (Option (RelayNatMapping × Lease)) := do
  let h ← .get
  let flow := h.pkt.original
  match ← env.ask .leaseFor (EgressPolicy.leaseFor flow.dstIp flow.dport) with
  | none => return none
  | some lease =>
    match ← env.ask .createRelayMapping (EgressPolicy.createRelayMapping flow.srcIp flow.sport
        flow.dstIp flow.dport flow.srcIp d.cfg.relayPort) with
    | .error e => raise (.policyError e)
    | .ok mapping =>
      env.rewriteDestination flow.srcIp d.cfg.relayPort
      return some (mapping,lease)

/-- A full reservation table denies the packet; `none` when it does. -/
def redirectNewSyn : HandlerM (Option (Option (RelayNatMapping × Lease))) :=
  Fallible.tryExcept
    (do
      let redirected ← d.redirectDomainTlsSyn env
      return some redirected)
    fun e =>
      match e with
      | .policyError (.quotaExceeded _) => do
        env.logEgressEvent (.dropExternal "relay_mapping_pending_quota")
        return none
      | e => .raise e

/-- The relay mapping that the packet was redirected by, if any; `none` when the packet is
denied. -/
def redirectRelay : HandlerM (Option (Option RelayNatMapping)) := do
  let h ← .get
  match h.pkt.proto with
  | none => return some none
  | some _ =>
    match ← applyDomainRelayForwardRedirect env with
    | some mapping => return some (some mapping)
    | none =>
      if ← isNewTcpSyn then
        match ← d.redirectNewSyn env with
        | none => return none
        | some none => return some none
        | some (some (mapping,lease)) =>
          Fallible.modify fun h => { h with newMapping := some mapping.generation }
          env.logEgressEvent (.redirectTlsRelay lease.domain)
          return some (some mapping)
      else return some none

def allowReviewedIp : HandlerM Bool := do
  let h ← .get
  match h.pkt.proto with
  | none => return false
  | some _ =>
    match ← env.ask .matchReviewedIp
        (.read (EgressPolicy.matchReviewedIpLocked h.pkt.reviewedPacketTuple)) with
    | none => return false
    | some rule =>
      let verdict ← d.finalizeEgressVerdict env { reviewedRule := some rule }
      if verdict = .allowReviewedIp then
        let _ ← env.sendPacket
        return true
      else
        env.logEgressEvent (.dropExternal "reviewed_ip_revalidation_failed")
        return true

def isExternalDnsQuery (pkt : PacketCtx) : Bool :=
  pkt.isTransport && pkt.current.dport = 53 && pkt.original.dstIp = d.cfg.externalDnsServer

def isLocalDnsSinkReply : HandlerM Bool := do
  let h ← .get
  if h.pkt.isTransport ∧ h.pkt.original.sport = 53 then
    env.isExactLocalIpv4 .isLocalDnsSink h.pkt.original.dstIp
  else return false

def isDiverted : HandlerM Bool := do
  let h ← .get
  if d.cfg.nonAllowedAction = .divert ∨ d.isExternalDnsQuery h.pkt then return true
  else isLocalDnsSinkReply env

def isMidstreamTcpFlow : HandlerM Bool := do
  let h ← .get
  if h.pkt.proto = some .tcp ∧ h.pkt.tcpFlags &&& thSyn = 0 then
    let (midstream,flows) := h.flows.classifyMidstream h.pkt.original
    Fallible.modify fun h => { h with flows := flows }
    return midstream
  else return false

/-- `handle_pkt`; a packet on the translated leg of a recorded flow skips the forward
redirections. -/
def handlePkt : HandlerM Unit := do
  let h ← .get
  let forwardNat := !(h.pkt.proto = some .tcp && h.pkt.original ∈ h.flows.natForward)
  env.call .handlePkt ()
  Fallible.modify fun h => { h with pkt := h.pkt.withBase (env.base forwardNat) }

/-- Whether the base NAT handled the packet; `none` when it was passed as older than the
capture. -/
def divertPacket : HandlerM (Option Bool) := do
  if ← d.isDiverted env then
    if ← isMidstreamTcpFlow then
      env.call .getPidComm ()
      env.logEgressEvent .establishedBypass
      let _ ← env.sendPacket
      return none
    else
      handlePkt env
      return some true
  else return some false

def rememberObservedNatSyn : HandlerM Unit :=
  Fallible.modify fun h =>
    if h.pkt.isSyn then
      { h with flows := h.flows.rememberTranslated h.pkt.original h.pkt.current }
    else h

def closeMapping (generation : Option ℕ) : HandlerM Unit :=
  match generation with
  | none => pure ()
  | some generation => env.closeRelayMapping generation

def logDiverted : HandlerM Unit := do
  if env.probe then
    env.call .getPidComm ()
    env.logEgressEvent .divertFakeProbe
  else env.logEgressEvent .divertFake

def deliverPacket (mapping : Option RelayNatMapping) (handledByBase : Bool) : HandlerM Unit := do
  let verdict ← d.finalizeEgressVerdict env { relayRedirected := mapping.isSome }
  if verdict = .dropExternal then
    env.logEgressEvent (.dropExternal "no_authorized_route")
    closeMapping env (mapping.map (·.generation))
  else
    let h ← .get
    onlyIf (h.pkt.mangled && !handledByBase) (env.writePcap .writeMangled)
    if ← env.sendPacket then
      onlyIf (verdict = .divertFake) (logDiverted env)
      onlyIf handledByBase rememberObservedNatSyn
    else closeMapping env (mapping.map (·.generation))

def routePacket : HandlerM Unit := do
  match ← d.redirectRelay env with
  | none => pure ()
  | some (some mapping) => d.deliverPacket env (some mapping) false
  | some none =>
    unlessFinal (d.allowReviewedIp env) do
      match ← d.divertPacket env with
      | none => pure ()
      | some handledByBase => d.deliverPacket env none handledByBase

def handleOutbound : HandlerM Unit :=
  unlessFinal (d.allowControlFlow env) <|
  unlessFinal (d.allowTakeoverSink env) <|
  unlessFinal (d.returnRelay env) <|
  unlessFinal (d.redirectProcess env) <|
  d.routePacket env

def handleInbound : HandlerM Unit :=
  unlessFinal (d.redirectProcess env) <|
  env.logEgressEvent (.dropExternal "unexpected_policy_inbound")

def handleParsed : HandlerM Unit := do
  env.call .parse ()
  env.writePcap .writePcap
  let h ← .get
  if h.pkt.isOutbound then d.handleOutbound env else d.handleInbound env

/-- The `except` clauses. -/
def failClosed (e : Raised) : HandlerM Unit := do
  let h ← .get
  closeMapping env h.newMapping
  if e = .pcapWriteError then .raise e
  else env.logEgressEvent (.dropExternal "policy_exception")

def isRedirectFragment (wdpkt : WdPacket) : Bool :=
  match d.processRedirect with
  | none => false
  | some setup => WdPacket.classifyProcessRedirectIpv4Fragment wdpkt.raw wdpkt.isOutbound
      setup.rule.originalIpv4 setup.rule.targetIpv4 setup.frozenLocalIpv4

def handlePolicyPacket (wdpkt : WdPacket) : HandlerM Unit :=
  if wdpkt.raw = [] then env.logEgressEvent (.dropExternal "empty_packet")
  else
    match classifyIpv6Preparse wdpkt.raw wdpkt.isLoopback with
    | some verdict =>
      if verdict = .reinjectLocal then env.sendCaptured
      else env.logEgressEvent (.dropExternal "external_ipv6")
    | none =>
      if WdPacket.version wdpkt.raw ≠ 4 then
        env.logEgressEvent (.dropExternal "unknown_ip_version")
      else if d.isRedirectFragment wdpkt then
        env.logEgressEvent (.processRedirectDeny "process_redirect_fragment")
      else
        match WdPacket.classifyReviewedIpv4Fragment wdpkt.raw d.reviewedTargetProtocols with
        | some _ => env.logEgressEvent (.dropExternal "reviewed_ip_fragment")
        | none => (d.handleParsed env).tryExcept (failClosed env)

def handled (wdpkt : WdPacket) (flows : FlowRecords) : Handling :=
  (d.handlePolicyPacket env wdpkt).final (.start wdpkt env flows)

end WindowsDiverter
end FakeNetNG
