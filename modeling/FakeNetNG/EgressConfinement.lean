import FakeNetNG.HandlerRun
import FakeNetNG.PolicyPermits

/-!
# Egress confinement

An outbound packet that the handler sends to a destination that is not local was
authorised in one of five ways, each stated on the policy state or the engine decision
that answered the handler.
-/

namespace FakeNetNG

def PacketCtx.sentKey (pkt : PacketCtx) : FlowKey :=
  ⟨pkt.protoName,pkt.current.srcIp,pkt.current.sport,pkt.current.dstIp,pkt.current.dport⟩

namespace EgressPolicy

variable {s : EgressPolicy}

/-- At `now` the open policy holds a permit for exactly this flow. -/
structure LivePermit (s : EgressPolicy) (now : ℚ) (key : FlowKey) (permit : ControlPermit) : Prop where
  isOpen : s.closed = false ∧ s.egressSuspended = false
  filed : s.permits.byKey.get? key = some permit
  live : now < s.permits.expiry permit.serial

/-- A reviewed rule covers the packet, on the route that the rule's address is bound to. -/
structure ReviewedRoute (s : EgressPolicy) (packet : ReviewedPacketTuple)
    (rule : ReviewedIPv4Rule) : Prop where
  isOpen : s.closed = false ∧ s.egressSuspended = false
  bound : ∃ binding, s.reviewedRouteBindings.get? packet.targetIpv4 = some binding ∧
    packet.sourceIpv4 = binding.sourceIpv4 ∧ packet.interfaceIndex = binding.interfaceIndex ∧
    (s.cfg.reviewedMatchIndex.get? (packet.protocol,binding.targetIpv4) = some (.all rule) ∨
      ∃ table, s.cfg.reviewedMatchIndex.get? (packet.protocol,binding.targetIpv4) =
        some (.ports table) ∧ table.get? packet.targetPort = some rule)

/-- The sink is available and the flow leads from a local address to it. -/
structure AvailableSink (s : EgressPolicy) (key : FlowKey) : Prop where
  available : s.takeoverAvailableLocked = true
  source : key.srcIp ∈ s.localIpv4
  target : s.cfg.takeoverIpv4 = some key.dstIp

theorem foldl_remove_expiry (l : List (String × ControlPermit)) (t : PermitTable) :
    (l.foldl PermitTable.remove t).expiry = t.expiry := by
  induction l generalizing t with
  | nil => rfl
  | cons e l ih => exact ih (t.remove e)

theorem matchControlFlowLocked_live {key : FlowKey} {now : ℚ} {permit : ControlPermit}
    (h : (matchControlFlowLocked key now s).1 = some permit) : s.LivePermit now key permit := by
  unfold matchControlFlowLocked at h
  split at h
  · cases h
  · rename_i hopen
    rw [Bool.or_eq_true,not_or,Bool.not_eq_true,Bool.not_eq_true] at hopen
    dsimp only at h
    split at h
    · cases h
    · rename_i permit' hfiled
      split at h
      · rename_i hlive
        have hsame : permit' = permit := by
          split at h <;> exact Option.some.inj h
        subst hsame
        rw [cleanupLocked_permits] at hlive hfiled
        have hexpiry : (s.permits.cleanup now).expiry = s.permits.expiry := foldl_remove_expiry _ _
        rw [hexpiry] at hlive
        exact ⟨hopen,(PermitTable.cleanup_loses s.permits now).byKey _ _ hfiled,hlive⟩
      · cases h

theorem matchReviewedIpLocked_route {packet : ReviewedPacketTuple} {rule : ReviewedIPv4Rule}
    (h : matchReviewedIpLocked packet s = some rule) : s.ReviewedRoute packet rule := by
  unfold matchReviewedIpLocked at h
  split at h
  · cases h
  · rename_i hguard
    simp only [Bool.or_eq_true,not_or,Bool.not_eq_true] at hguard
    split at h
    · cases h
    · rename_i binding hbinding
      split at h
      · cases h
      · rename_i hroute
        obtain ⟨hsource,hinterface⟩ := not_or.mp hroute
        refine ⟨⟨hguard.1.1.1.1.1.1,hguard.1.1.1.1.1.2⟩,binding,hbinding,not_not.mp hsource,
          not_not.mp hinterface,?_⟩
        split at h
        · cases h
        · rename_i rule' hindex
          cases h
          exact .inl hindex
        · rename_i table hindex
          exact .inr ⟨table,hindex,h⟩

theorem matchesTakeoverSinkLocked_available {key : FlowKey}
    (h : matchesTakeoverSinkLocked key s = true) : s.AvailableSink key := by
  simp only [matchesTakeoverSinkLocked,Bool.and_eq_true,decide_eq_true_eq] at h
  obtain ⟨⟨⟨⟨⟨havailable,-⟩,hsource⟩,htarget⟩,-⟩,-⟩ := h
  exact ⟨havailable,hsource,htarget.symm⟩

end EgressPolicy

namespace Arrival

variable {a : Arrival} {pkt : PacketCtx}

/-- Why a packet may leave for a destination that is not local. -/
inductive Authority (a : Arrival) (pkt : PacketCtx) : Prop
  | controlPermit (permit : ControlPermit) :
      (a.env.policy .matchControlFlow 1).LivePermit (a.env.policy .matchControlFlow 0).now
        pkt.sentKey permit → Authority a pkt
  | takeoverSink : a.d.onTakeoverRoute pkt = true →
      (a.env.policy (.verdict .takeover) 0).AvailableSink pkt.flowKey → Authority a pkt
  | reviewedIp (rule : ReviewedIPv4Rule) :
      (a.env.policy (.verdict .reviewed) 0).ReviewedRoute pkt.reviewedPacketTuple rule →
      Authority a pkt
  | processRedirect (setup : RedirectSetup) : a.d.processRedirect = some setup →
      (a.prepared setup.rule).decision.action = .rewriteOutbound →
      pkt.current.dstIp = setup.rule.targetIpv4 → Authority a pkt
  | startupRace : a.Midstream → pkt.current = pkt.original → Authority a pkt

theorem Authorised.authority (h : a.Authorised pkt) : a.Authority pkt := by
  cases h with
  | controlPermit permit hpermit =>
    exact .controlPermit permit (EgressPolicy.matchControlFlowLocked_live hpermit)
  | takeoverSink hmatch =>
    exact .takeoverSink hmatch.1 (EgressPolicy.matchesTakeoverSinkLocked_available hmatch.2)
  | reviewedIp rule hrule => exact .reviewedIp rule (EgressPolicy.matchReviewedIpLocked_route hrule)
  | processRedirect setup hsetup haction htarget => exact .processRedirect setup hsetup haction htarget
  | startupRace hmid => exact .startupRace hmid rfl

theorem version_of_sent (h : .sent (.packet pkt) ∈ a.handled.trace) :
    WdPacket.version a.wdpkt.raw = 4 := by
  by_contra hversion
  let clear : Handling → Prop := fun s => ∀ p, .sent (.packet p) ∉ s.trace
  have hlog : ∀ event, Fallible.wp (a.env.logEgressEvent event) (fun _ => clear) (fun _ => clear)
      (.start a.wdpkt a.env a.flows) := by
    intro event
    simp [clear,PacketEnvironment.logEgressEvent,Handling.emit,Handling.start]
  have hnone : clear a.handled := by
    refine Fallible.final_of_wp ?_
    unfold WindowsDiverter.handlePolicyPacket
    split
    · exact hlog _
    · split
      · split
        · simp [clear,PacketEnvironment.sendCaptured,Handling.emit,Handling.start]
        · exact hlog _
      · exact hlog _
  exact hnone pkt h

end Arrival

/-- Whatever the policy, the engine, the base NAT and the driver answer, a packet is sent
before anything was raised, an IPv6 packet only from the loopback interface, and an outbound
IPv4 packet only to a local destination or under one of the five authorities. -/
theorem egress_confined (a : Arrival) (past rest : List HandlerEvent) (wire : Wire)
    (h : a.handled.trace = past++.sent wire::rest) :
    (∀ e ∈ past, e.isSent = false ∧ e.isRaised = false) ∧
    (WdPacket.version a.wdpkt.raw = 6 → a.wdpkt.isLoopback = true) ∧
    (WdPacket.version a.wdpkt.raw = 4 ∨ WdPacket.version a.wdpkt.raw = 6) ∧
    (WdPacket.version a.wdpkt.raw = 4 → ∃ pkt, wire = .packet pkt ∧ a.Carries pkt ∧
      (a.wdpkt.isOutbound = true →
        (a.env.policy (.verdict .isLocal) 0).isExactLocalIpv4 pkt.current.dstIp = false →
        a.Authority pkt)) := by
  obtain ⟨hquiet,hpermitted⟩ := a.handled_ended.confined past _ rest h wire rfl
  refine ⟨hquiet,?_⟩
  cases wire with
  | captured =>
    obtain ⟨hsix,hloop⟩ := hpermitted
    refine ⟨fun _ => hloop,.inr hsix,fun hfour => ?_⟩
    rw [hsix] at hfour
    cases hfour
  | packet pkt =>
    obtain ⟨hcarries,hout⟩ := hpermitted
    have hmem : .sent (.packet pkt) ∈ a.handled.trace := by simp [h]
    have hfour := Arrival.version_of_sent hmem
    refine ⟨fun hsix => ?_,.inl hfour,fun _ => ⟨pkt,rfl,hcarries,fun houtbound hlocal => ?_⟩⟩
    · rw [hfour] at hsix
      cases hsix
    · rcases hout (hcarries.isOutbound.trans houtbound) with hl | hauth
      · exact absurd hl (by simp [Arrival.IsLocal,hlocal])
      · exact hauth.authority

def WindowsDiverter.sample : WindowsDiverter where
  cfg := .twoDomains
  processRedirect := none
  takeoverRoute := none
  reviewedTargetProtocols := []
  isListener := fun _ _ => false

def FlowTuple.lookup : FlowTuple := ⟨.dotted 10 0 0 5,50000,.dotted 8 8 8 8,53⟩

def WdPacket.lookup (tcpFlags : UInt8) : WdPacket where
  raw := [0x45,0,0,40,0,1,0,0,128,6,0,0,10,0,0,5,8,8,8,8,
    0xc3,0x50,0,53,0,0,0,1,0,0,0,0,0x50,tcpFlags,0x20,0,0,0,0,0]
  isOutbound := true
  isLoopback := false
  interfaceIndex := 7
  subinterfaceIndex := 0

def PacketEnvironment.steady (policy : EgressPolicy) (tuple : FlowTuple) (tcpFlags : ℕ) :
    PacketEnvironment where
  parsed := ⟨some .tcp,tcpFlags,tuple⟩
  policy := fun _ _ => policy
  engine := fun _ => .init (Clock.every 1)
  redirect := ⟨.raised,.raised,.raised⟩
  base := fun _ => ⟨tuple,false⟩
  accepted := true
  probe := false
  raises := fun _ => none

def EgressPolicy.lookupPermitted : EgressPolicy :=
  ((PolicyCall.registerControlFlow .dns ⟨.tcp,.dotted 10 0 0 5,50000,.dotted 8 8 8 8,53⟩ none 10
    none "t").body.run (.init .twoDomains [.dotted 10 0 0 5] (Clock.every 1))).2

def Arrival.lookupSyn : Arrival where
  d := .sample
  env := .steady .lookupPermitted .lookup 2
  wdpkt := .lookup 2
  flows := .empty

theorem egress_confined_lookupSyn :
    ∃ pkt, .sent (.packet pkt) ∈ Arrival.lookupSyn.handled.trace ∧
      pkt.current.dstIp = .dotted 8 8 8 8 ∧ Arrival.lookupSyn.Authority pkt := by
  have htrace : Arrival.lookupSyn.handled.trace =
      [.wrotePcap,.logged .allowInternalUpstream]++.sent (.packet Arrival.lookupSyn.pkt)::[] := by
    decide +kernel
  obtain ⟨-,-,-,hfour⟩ := egress_confined Arrival.lookupSyn _ _ _ htrace
  obtain ⟨pkt,hwire,-,hauthority⟩ := hfour (by decide)
  cases hwire
  refine ⟨Arrival.lookupSyn.pkt,by simp [htrace],by decide,?_⟩
  exact hauthority rfl (by decide)

end FakeNetNG
