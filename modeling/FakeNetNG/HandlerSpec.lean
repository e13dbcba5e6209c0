import FakeNetNG.PacketHandler

/-!
# What one handling does

The branches of the packet handler, one specification for each. Up to the first branch
that finishes the packet, the handling stands at `Before`: the packet and the flow
records are as they were found and nothing has been sent or raised. Every way to the
end goes through `Ended`: what was sent was permitted and came before any exception,
and the flow records changed in one of four ways.
-/

namespace FakeNetNG

namespace HandlerEvent

def isSent : HandlerEvent → Bool
  | sent _ => true
  | _ => false

def isRaised : HandlerEvent → Bool
  | raised _ => true
  | _ => false

def isBypass : HandlerEvent → Bool
  | logged .establishedBypass => true
  | _ => false

end HandlerEvent

/-- A captured packet with everything that its handling depends on. -/
structure Arrival where
  d : WindowsDiverter
  env : PacketEnvironment
  wdpkt : WdPacket
  flows : FlowRecords

namespace Arrival

variable (a : Arrival)

def pkt : PacketCtx := .ofWdPacket a.wdpkt a.env.parsed

def key : FlowTuple := a.env.parsed.tuple

def isSyn : Bool := a.pkt.isSyn

def handled : Handling := a.d.handled a.env a.wdpkt a.flows

/-- The takeover sink is available and the packet was captured on its way there. -/
def TakeoverMatch (site : Site) (pkt : PacketCtx) : Prop :=
  a.d.onTakeoverRoute pkt = true ∧
    EgressPolicy.matchesTakeoverSinkLocked pkt.flowKey (a.env.policy site 0) = true

/-- The destination is local when the verdict on the packet is made. -/
def IsLocal (pkt : PacketCtx) : Prop :=
  (a.env.policy (.verdict .isLocal) 0).isExactLocalIpv4 pkt.current.dstIp = true

def prepared (rule : ProcessRedirectRule) : PreparedRedirect :=
  (rule.prepare a.pkt.processRedirectPacketTuple a.env.redirect).under a.env.engine

def Midstream : Prop :=
  a.pkt.proto = some .tcp ∧ a.pkt.tcpFlags &&& thSyn = 0 ∧ a.key ∉ a.flows.synObserved

/-- The five ways for a packet to leave for a destination that is not local. -/
inductive Authorised : PacketCtx → Prop
  | controlPermit (permit : ControlPermit) :
      (EgressPolicy.matchControlFlow a.pkt.flowKey).under (a.env.policy .matchControlFlow) =
        some permit → Authorised a.pkt
  | takeoverSink {pkt : PacketCtx} : a.TakeoverMatch (.verdict .takeover) pkt → Authorised pkt
  | reviewedIp (rule : ReviewedIPv4Rule) :
      EgressPolicy.matchReviewedIpLocked a.pkt.reviewedPacketTuple
        (a.env.policy (.verdict .reviewed) 0) = some rule → Authorised a.pkt
  | processRedirect {pkt : PacketCtx} (setup : RedirectSetup) :
      a.d.processRedirect = some setup →
      (a.prepared setup.rule).decision.action = .rewriteOutbound →
      pkt.current.dstIp = setup.rule.targetIpv4 → Authorised pkt
  | startupRace : a.Midstream → Authorised a.pkt

/-- The packet is the captured one up to its endpoints. -/
structure Carries (pkt : PacketCtx) : Prop where
  isOutbound : pkt.isOutbound = a.wdpkt.isOutbound
  proto : pkt.proto = a.env.parsed.proto
  original : pkt.original = a.key
  interfaceIndex : pkt.interfaceIndex = a.wdpkt.interfaceIndex

def Permitted : Wire → Prop
  | .captured => WdPacket.version a.wdpkt.raw = 6 ∧ a.wdpkt.isLoopback = true
  | .packet pkt => a.Carries pkt ∧ (pkt.isOutbound = true → a.IsLocal pkt ∨ a.Authorised pkt)

/-- What is sent was permitted, and nothing had been sent or raised before. -/
def Confined (past : List HandlerEvent) (e : HandlerEvent) : Prop :=
  ∀ wire, e = .sent wire →
    (∀ e' ∈ past, e'.isSent = false ∧ e'.isRaised = false) ∧ a.Permitted wire

/-! The branches before the one that records a SYN let the packet go on. -/

def ControlDeclines : Prop :=
  a.env.raises .matchControlFlow = none ∧
    (EgressPolicy.matchControlFlow a.pkt.flowKey).under (a.env.policy .matchControlFlow) = none

def TakeoverDeclines : Prop :=
  a.d.onTakeoverRoute a.pkt = true → a.env.raises .matchesTakeoverSink = none ∧
    EgressPolicy.matchesTakeoverSinkLocked a.pkt.flowKey (a.env.policy .matchesTakeoverSink 0) = false

def RelayReturnDeclines : Prop :=
  a.env.raises .matchRelayReverse = none ∧
    (EgressPolicy.matchNat RelayNat.reverse a.pkt.flowKey).under
      (a.env.policy .matchRelayReverse) = none

def RedirectDeclines : Prop :=
  ∀ setup, a.d.processRedirect = some setup → a.env.raises .prepare = none ∧
    ((a.prepared setup.rule).decision.action = .notApplicable ∨
      (a.prepared setup.rule).decision.action = .passUnchanged)

def RelayForwardDeclines : Prop :=
  a.env.raises .matchRelayForward = none ∧
    (EgressPolicy.matchNat RelayNat.forward a.pkt.flowKey).under
      (a.env.policy .matchRelayForward) = none

/-- A SYN gets to the branch that records it. -/
structure SynReaches : Prop where
  nonempty : a.wdpkt.raw ≠ []
  version : WdPacket.version a.wdpkt.raw = 4
  redirectFragment : a.d.isRedirectFragment a.wdpkt = false
  reviewedFragment :
    WdPacket.classifyReviewedIpv4Fragment a.wdpkt.raw a.d.reviewedTargetProtocols = none
  outbound : a.wdpkt.isOutbound = true
  parse : a.env.raises .parse = none
  writePcap : a.env.raises .writePcap = none
  control : a.ControlDeclines
  takeover : a.TakeoverDeclines
  relayReturn : a.RelayReturnDeclines
  redirect : a.RedirectDeclines
  relayForward : a.RelayForwardDeclines

def translated : FlowTuple :=
  (a.env.base !(a.pkt.proto = some .tcp && a.key ∈ (a.flows.recordSyn a.key).natForward)).tuple

/-- How a handling leaves the flow records. -/
inductive RecordsEffect : FlowRecords → Prop
  | kept : (a.isSyn = true → ¬a.SynReaches) → RecordsEffect a.flows
  | observed : a.isSyn = true → a.SynReaches → RecordsEffect (a.flows.recordSyn a.key)
  | translated : a.isSyn = true → a.SynReaches →
      RecordsEffect ((a.flows.recordSyn a.key).rememberTranslated a.key a.translated)
  | classified : a.isSyn = false → RecordsEffect (a.flows.classifyMidstream a.key).2

structure Before (pkt : PacketCtx) (flows : FlowRecords) (h : Handling) : Prop where
  pkt : h.pkt = pkt
  flows : h.flows = flows
  quiet : ∀ e ∈ h.trace, e.isSent = false ∧ e.isRaised = false
  bypass : ∀ e ∈ h.trace, e.isBypass = true → a.Midstream

structure Ended (h : Handling) : Prop where
  records : a.RecordsEffect h.flows
  confined : Justified a.Confined h.trace
  bypass : ∀ e ∈ h.trace, e.isBypass = true → a.Midstream

variable {a} {pkt : PacketCtx} {flows : FlowRecords} {h : Handling}

theorem Before.ended (hb : a.Before pkt flows h) (hr : a.RecordsEffect flows) : a.Ended h := by
  refine ⟨hb.flows ▸ hr,?_,hb.bypass⟩
  intro past e rest heq wire he
  -- nothing of the trace is a send
  have hmem : e ∈ h.trace := heq ▸ List.mem_append_right _ List.mem_cons_self
  have hquiet := (hb.quiet e hmem).1
  rw [he] at hquiet
  cases hquiet

theorem Ended.emit (he : a.Ended h) {e : HandlerEvent} (hs : e.isSent = false)
    (hb : e.isBypass = true → a.Midstream) : a.Ended (h.emit e) := by
  refine ⟨he.records,he.confined.snoc ?_,?_⟩
  · rintro wire rfl
    cases hs
  · intro e' hmem
    rcases List.mem_append.mp hmem with hmem | hmem
    · exact he.bypass e' hmem
    · rw [List.mem_singleton.mp hmem]
      exact hb

theorem Before.emit (hb : a.Before pkt flows h) {e : HandlerEvent} (hs : e.isSent = false)
    (hr : e.isRaised = false) (hm : e.isBypass = true → a.Midstream) :
    a.Before pkt flows (h.emit e) := by
  refine ⟨hb.pkt,hb.flows,?_,?_⟩
  · intro e' hmem
    rcases List.mem_append.mp hmem with hmem | hmem
    · exact hb.quiet e' hmem
    · rw [List.mem_singleton.mp hmem]
      exact ⟨hs,hr⟩
  · intro e' hmem
    rcases List.mem_append.mp hmem with hmem | hmem
    · exact hb.bypass e' hmem
    · rw [List.mem_singleton.mp hmem]
      exact hm

theorem Before.raised (hb : a.Before pkt flows h) (hr : a.RecordsEffect flows) (e : Raised) :
    a.Ended (h.emit (.raised e)) :=
  (hb.ended hr).emit rfl fun h => (by cases h)

theorem Before.sent (hb : a.Before pkt flows h) (hr : a.RecordsEffect flows) {wire : Wire}
    (hp : a.Permitted wire) : a.Ended (h.emit (.sent wire)) := by
  have hended := hb.ended hr
  refine ⟨hended.records,hended.confined.snoc ?_,?_⟩
  · rintro wire' ⟨⟩
    exact ⟨hb.quiet,hp⟩
  · intro e' hmem
    rcases List.mem_append.mp hmem with hmem | hmem
    · exact hb.bypass e' hmem
    · rw [List.mem_singleton.mp hmem]
      intro hbypass
      cases hbypass

end Arrival
end FakeNetNG
