import FakeNetNG.HandlerBranches

/-!
# The whole handling of a packet

The branches after the recording of a SYN, and the handler put together: every handling
ends at `Ended`.
-/

namespace FakeNetNG

open Fallible

namespace Arrival

variable {a : Arrival} {pkt : PacketCtx} {flows : FlowRecords} {h : Handling}

/-- The flow records once a SYN that got this far was recorded. -/
def synFlows (a : Arrival) : FlowRecords :=
  if a.isSyn then a.flows.recordSyn a.key else a.flows

theorem recordsEffect_synFlows (hreach : a.isSyn = true → a.SynReaches) :
    a.RecordsEffect a.synFlows := by
  unfold synFlows
  split
  · rename_i hsyn
    exact .observed hsyn (hreach hsyn)
  · rename_i hsyn
    exact .kept fun h => absurd h hsyn

theorem Before.newMapping (hb : a.Before pkt flows h) (generation : Option ℕ) :
    a.Before pkt flows { h with newMapping := generation } :=
  ⟨hb.pkt,hb.flows,hb.quiet,hb.bypass⟩

theorem applyDomainRelayForwardRedirect_wp (hb : a.Before a.pkt a.flows h) :
    wp (WindowsDiverter.applyDomainRelayForwardRedirect a.env)
      (fun mapping s => match mapping with
        | none => a.Before a.pkt a.flows s ∧ a.RelayForwardDeclines
        | some _ => a.RecordsEffect a.flows ∧ ∃ ip port,
            a.Before (a.pkt.withDestination ip port) a.flows s)
      (fun _ => a.Ended) h := by
  unfold WindowsDiverter.applyDomainRelayForwardRedirect
  simp only [wp_bind,wp_get,hb.pkt,wp_ask]
  refine ⟨fun hraise => ?_,fun e he => ?_⟩
  · split
    · rename_i hnone
      exact ⟨hb,hraise,hnone⟩
    · rename_i mapping hmapping
      have hr : a.RecordsEffect a.flows := kept_of_not_reaches fun hs => by
        rw [hs.relayForward.2] at hmapping
        cases hmapping
      rw [wp_bind]
      refine wp_mono (rewriteDestination_wp hb hr _ _) ?_ fun _ _ hs => hs
      intro _ s hs
      exact ⟨hr,_,_,hs⟩
  · refine hb.raised (kept_of_not_reaches fun hs => ?_) e
    rw [hs.relayForward.1] at he
    cases he

theorem isNewTcpSyn_wp (hb : a.Before a.pkt a.flows h) :
    wp WindowsDiverter.isNewTcpSyn (fun _ => a.Before a.pkt a.synFlows) (fun _ => a.Ended) h := by
  unfold WindowsDiverter.isNewTcpSyn
  simp only [wp_bind,wp_get,hb.pkt]
  unfold synFlows isSyn
  split
  · rw [wp_bind,wp_modify]
    exact ⟨hb.pkt,by rw [hb.flows,hb.pkt]; rfl,hb.quiet,hb.bypass⟩
  · exact hb

theorem redirectDomainTlsSyn_wp (hb : a.Before a.pkt flows h) (hr : a.RecordsEffect flows) :
    wp (a.d.redirectDomainTlsSyn a.env)
      (fun redirected s => match redirected with
        | none => a.Before a.pkt flows s
        | some _ => ∃ ip port, a.Before (a.pkt.withDestination ip port) flows s)
      (fun _ => a.Ended) h := by
  unfold WindowsDiverter.redirectDomainTlsSyn
  simp only [wp_bind,wp_get,hb.pkt,wp_ask]
  refine ⟨fun _ => ?_,fun e _ => hb.raised hr e⟩
  split
  · exact hb
  · rw [wp_bind,wp_ask]
    refine ⟨fun _ => ?_,fun e _ => hb.raised hr e⟩
    split
    · exact hb.raised hr _
    · rw [wp_bind]
      refine wp_mono (rewriteDestination_wp hb hr _ _) ?_ fun _ _ hs => hs
      intro _ s hs
      exact ⟨_,_,hs⟩

theorem redirectNewSyn_wp (hb : a.Before a.pkt flows h) (hr : a.RecordsEffect flows) :
    wp (a.d.redirectNewSyn a.env)
      (fun redirected s => match redirected with
        | none => a.Ended s
        | some none => a.Before a.pkt flows s
        | some (some _) => ∃ ip port, a.Before (a.pkt.withDestination ip port) flows s)
      (fun _ => a.Ended) h := by
  unfold WindowsDiverter.redirectNewSyn
  rw [wp_tryExcept,wp_bind]
  refine wp_mono (redirectDomainTlsSyn_wp hb hr) ?_ ?_
  · intro redirected s hs
    cases redirected with
    | none => exact hs
    | some redirected => exact hs
  · intro e s hs
    split
    · rw [wp_bind]
      exact wp_mono (hs.log rfl) (fun _ _ hs => hs) fun _ _ hs => hs
    · exact hs

/-- The packet after the relay branch: denied, redirected to the relay, or as captured. -/
def Relayed (a : Arrival) (redirected : Option (Option RelayNatMapping)) (h : Handling) : Prop :=
  match redirected with
  | none => a.Ended h
  | some (some _) => ∃ ip port flows, a.RecordsEffect flows ∧
      a.Before (a.pkt.withDestination ip port) flows h
  | some none => a.Before a.pkt a.synFlows h ∧ (a.isSyn = true → a.SynReaches)

theorem redirectRelay_wp (hb : a.Before a.pkt a.flows h)
    (hreach : a.isSyn = true → a.RelayForwardDeclines → a.SynReaches) :
    wp (a.d.redirectRelay a.env) a.Relayed (fun _ => a.Ended) h := by
  unfold WindowsDiverter.redirectRelay
  simp only [wp_bind,wp_get,hb.pkt]
  split
  · rename_i hproto
    have hsyn : a.isSyn = false := isSyn_eq_false hproto
    have hflows : a.synFlows = a.flows := by simp [synFlows,hsyn]
    unfold Relayed
    rw [wp_pure,hflows]
    exact ⟨hb,fun htrue => absurd htrue (by simp [hsyn])⟩
  · rw [wp_bind]
    refine wp_mono (applyDomainRelayForwardRedirect_wp hb) ?_ fun _ _ hs => hs
    intro mapping s hs
    cases mapping with
    | some mapping =>
      obtain ⟨hr,ip,port,hs⟩ := hs
      exact ⟨ip,port,a.flows,hr,hs⟩
    | none =>
      obtain ⟨hs,hdeclines⟩ := hs
      have hreach : a.isSyn = true → a.SynReaches := fun hsyn => hreach hsyn hdeclines
      have hr := recordsEffect_synFlows hreach
      rw [wp_bind]
      refine wp_mono (isNewTcpSyn_wp hs) ?_ fun _ _ hs => hs
      intro syn s hs
      cases syn with
      | false => exact ⟨hs,hreach⟩
      | true =>
        simp only [if_true,wp_bind]
        refine wp_mono (redirectNewSyn_wp hs hr) ?_ fun _ _ hs => hs
        intro redirected s hs
        rcases redirected with _ | _ | ⟨mapping,lease⟩
        · exact hs
        · exact ⟨hs,hreach⟩
        · obtain ⟨ip,port,hs⟩ := hs
          simp only [wp_bind,wp_modify]
          refine wp_mono ((hs.newMapping _).log hr fun hm => (by cases hm)) ?_ fun _ _ hs => hs
          intro _ s hs
          exact ⟨ip,port,a.synFlows,hr,hs⟩

theorem allowReviewedIp_wp (hb : a.Before a.pkt flows h) (hr : a.RecordsEffect flows) :
    wp (a.d.allowReviewedIp a.env) (a.After flows True) (fun _ => a.Ended) h := by
  unfold WindowsDiverter.allowReviewedIp
  simp only [wp_bind,wp_get,hb.pkt]
  split
  · exact ⟨hb,fun _ => trivial⟩
  · rw [wp_bind,wp_ask]
    refine ⟨fun _ => ?_,fun e _ => hb.raised hr e⟩
    split
    · exact ⟨hb,fun _ => trivial⟩
    · rw [wp_bind]
      refine wp_mono (finalizeEgressVerdict_wp hb hr _) ?_ fun _ _ hs => hs
      rintro v s ⟨rfl,hv⟩
      split
      · rename_i hallow
        subst hallow
        have hp : a.Authorised a.pkt := by
          cases hv with
          | reviewed rule _ hrule => exact .reviewedIp rule hrule
          | isLocal hverdict _ => rcases hverdict with hv | hv | hv <;> cases hv
        rw [wp_bind]
        exact wp_mono (hb.sendEnd hr ⟨carries_pkt,fun _ => .inr hp⟩) (fun _ _ hs => hs)
          fun _ _ hs => hs
      · rw [wp_bind]
        exact wp_mono (hb.logEnd hr rfl) (fun _ _ hs => hs) fun _ _ hs => hs

theorem isDiverted_wp (hb : a.Before pkt flows h) (hr : a.RecordsEffect flows) :
    wp (a.d.isDiverted a.env) (fun _ s => s = h) (fun _ => a.Ended) h := by
  unfold WindowsDiverter.isDiverted
  simp only [wp_bind,wp_get]
  split
  · rfl
  · unfold WindowsDiverter.isLocalDnsSinkReply PacketEnvironment.isExactLocalIpv4
    simp only [wp_bind,wp_get]
    split
    · rw [wp_ask]
      exact ⟨fun _ => rfl,fun e _ => hb.raised hr e⟩
    · rfl

/-- A packet is taken for midstream only when no SYN of its flow is on record, and otherwise
the records stay as they are. -/
theorem isMidstreamTcpFlow_wp (hb : a.Before a.pkt a.synFlows h) :
    wp WindowsDiverter.isMidstreamTcpFlow
      (fun midstream s => if midstream then
          a.Midstream ∧ ∃ flows, a.RecordsEffect flows ∧ a.Before a.pkt flows s
        else a.Before a.pkt a.synFlows s)
      (fun _ => a.Ended) h := by
  unfold WindowsDiverter.isMidstreamTcpFlow
  simp only [wp_bind,wp_get,hb.pkt]
  split
  · rename_i htcp
    have hsyn : a.isSyn = false := by simp [isSyn,PacketCtx.isSyn,htcp.2]
    have hflows : a.synFlows = a.flows := by simp [synFlows,hsyn]
    have hkey : a.pkt.original = a.key := rfl
    rw [hflows] at hb ⊢
    rw [wp_bind,wp_modify,wp_pure,hb.flows,hkey]
    cases hm : (a.flows.classifyMidstream a.key).1 with
    | true =>
      have hnot := (FlowRecords.classifyMidstream_fst a.key).mp hm
      exact ⟨⟨htcp.1,htcp.2,hnot⟩,_,.classified hsyn,hb.pkt,rfl,hb.quiet,hb.bypass⟩
    | false =>
      have hsame : (a.flows.classifyMidstream a.key).2 = a.flows := by
        have hmem : a.key ∈ a.flows.synObserved := by
          by_contra hnot
          rw [(FlowRecords.classifyMidstream_fst a.key).mpr hnot] at hm
          cases hm
        simp [FlowRecords.classifyMidstream,hmem]
      exact ⟨hb.pkt,hsame,hb.quiet,hb.bypass⟩
  · exact hb

/-- What the base NAT makes of the captured packet. -/
def baseRewrite (a : Arrival) : BaseRewrite :=
  a.env.base !(a.pkt.proto = some .tcp && a.key ∈ a.synFlows.natForward)

theorem handlePkt_wp (hb : a.Before a.pkt a.synFlows h) (hr : a.RecordsEffect a.synFlows) :
    wp (WindowsDiverter.handlePkt a.env)
      (fun _ => a.Before (a.pkt.withBase a.baseRewrite) a.synFlows) (fun _ => a.Ended) h := by
  unfold WindowsDiverter.handlePkt
  simp only [wp_bind,wp_get,wp_call,wp_modify,hb.pkt,hb.flows]
  refine ⟨fun _ => ?_,fun e _ => hb.raised hr e⟩
  exact ⟨rfl,rfl,hb.quiet,hb.bypass⟩

/-- The packet after the base NAT had its turn. -/
def Diverted (a : Arrival) (handledByBase : Option Bool) (h : Handling) : Prop :=
  match handledByBase with
  | none => a.Ended h
  | some false => a.Before a.pkt a.synFlows h
  | some true => a.Before (a.pkt.withBase a.baseRewrite) a.synFlows h

theorem divertPacket_wp (hb : a.Before a.pkt a.synFlows h) (hr : a.RecordsEffect a.synFlows) :
    wp (a.d.divertPacket a.env) a.Diverted (fun _ => a.Ended) h := by
  unfold WindowsDiverter.divertPacket
  rw [wp_bind]
  refine wp_mono (isDiverted_wp hb hr) ?_ fun _ _ hs => hs
  rintro diverted s rfl
  cases diverted with
  | false => exact hb
  | true =>
    simp only [if_true,wp_bind]
    refine wp_mono (isMidstreamTcpFlow_wp hb) ?_ fun _ _ hs => hs
    intro midstream s hs
    cases midstream with
    | false =>
      simp only [Bool.false_eq_true,if_false,wp_bind] at hs ⊢
      exact wp_mono (handlePkt_wp hs hr) (fun _ _ hs => hs) fun _ _ hs => hs
    | true =>
      obtain ⟨hm,flows,hr,hs⟩ := hs
      simp only [if_true,wp_bind]
      refine wp_mono (hs.call hr _ _) ?_ fun _ _ hs => hs
      rintro _ s ⟨-,rfl⟩
      rw [wp_bind]
      refine wp_mono (hs.log hr fun _ => hm) ?_ fun _ _ hs => hs
      intro _ s hs
      rw [wp_bind]
      exact wp_mono (hs.sendEnd hr ⟨carries_pkt,fun _ => .inr (.startupRace hm)⟩)
        (fun _ _ hs => hs) fun _ _ hs => hs

theorem closeMapping_wp (he : a.Ended h) (generation : Option ℕ) :
    wp (WindowsDiverter.closeMapping a.env generation) (fun _ => a.Ended) (fun _ => a.Ended) h := by
  unfold WindowsDiverter.closeMapping
  split
  · exact he
  · exact he.closeRelayMapping _

theorem logDiverted_wp (he : a.Ended h) :
    wp (WindowsDiverter.logDiverted a.env) (fun _ s => a.Ended s ∧ s.flows = h.flows ∧ s.pkt = h.pkt)
      (fun _ => a.Ended) h := by
  unfold WindowsDiverter.logDiverted PacketEnvironment.logEgressEvent
  split
  · simp only [wp_bind,wp_call,wp_emit]
    refine ⟨fun _ => ⟨fun _ => ?_,fun e _ => he.raised e⟩,fun e _ => he.raised e⟩
    exact ⟨he.emit rfl fun hb => (by cases hb),rfl,rfl⟩
  · simp only [wp_bind,wp_call,wp_emit]
    refine ⟨fun _ => ?_,fun e _ => he.raised e⟩
    exact ⟨he.emit rfl fun hb => (by cases hb),rfl,rfl⟩

theorem rememberObservedNatSyn_wp (he : a.Ended h)
    (hremember : h.pkt.isSyn = true →
      a.RecordsEffect (h.flows.rememberTranslated h.pkt.original h.pkt.current)) :
    wp WindowsDiverter.rememberObservedNatSyn (fun _ => a.Ended) (fun _ => a.Ended) h := by
  unfold WindowsDiverter.rememberObservedNatSyn
  rw [wp_modify]
  split
  · rename_i hsyn
    exact ⟨hremember hsyn,he.confined,he.bypass⟩
  · exact he

/-- The last verdict finds the destination local or the sink matched, or drops the packet. -/
theorem permitted_of_verdict {mapping : Option RelayNatMapping}
    {verdict : Verdict} (hc : a.Carries pkt)
    (hv : VerdictHolds a { relayRedirected := mapping.isSome } pkt verdict)
    (hdrop : verdict ≠ .dropExternal) : a.Permitted (.packet pkt) := by
  refine ⟨hc,fun _ => ?_⟩
  cases hv with
  | permit hp => cases hp
  | takeover hmatch => exact .inr (.takeoverSink hmatch)
  | reviewed rule hargs _ => cases hargs
  | isLocal _ hlocal => exact .inl hlocal
  | drop => exact absurd rfl hdrop

theorem deliverPacket_wp (hb : a.Before pkt flows h) (hr : a.RecordsEffect flows)
    (hc : a.Carries pkt) (mapping : Option RelayNatMapping) (handledByBase : Bool)
    (hremember : handledByBase = true → pkt.isSyn = true →
      a.RecordsEffect (flows.rememberTranslated pkt.original pkt.current)) :
    wp (a.d.deliverPacket a.env mapping handledByBase) (fun _ => a.Ended) (fun _ => a.Ended) h := by
  unfold WindowsDiverter.deliverPacket
  rw [wp_bind]
  refine wp_mono (finalizeEgressVerdict_wp hb hr _) ?_ fun _ _ hs => hs
  rintro verdict s ⟨rfl,hv⟩
  split
  · rw [wp_bind]
    refine wp_mono (hb.logEnd hr rfl) ?_ fun _ _ hs => hs
    intro _ s hs
    exact closeMapping_wp hs _
  · rename_i hdrop
    have hp := permitted_of_verdict hc hv hdrop
    have hpcap : wp (onlyIf (s.pkt.mangled && !handledByBase) (a.env.writePcap .writeMangled))
        (fun _ => a.Before pkt flows) (fun _ => a.Ended) s := by
      unfold onlyIf
      split
      · exact hb.writePcap hr _
      · exact hb
    rw [wp_bind,wp_get,wp_bind]
    refine wp_mono hpcap ?_ fun _ _ hs => hs
    intro _ s hs
    rw [wp_bind]
    refine wp_mono (hs.sendPacket hr hp) ?_ fun _ _ hs => hs
    rintro sent s ⟨he,hflows,hpkt⟩
    cases sent with
    | false => exact closeMapping_wp he _
    | true =>
      have hlog : wp (onlyIf (verdict = .divertFake) (WindowsDiverter.logDiverted a.env))
          (fun _ s' => a.Ended s' ∧ s'.flows = s.flows ∧ s'.pkt = s.pkt) (fun _ => a.Ended) s := by
        unfold onlyIf
        split
        · exact logDiverted_wp he
        · exact ⟨he,rfl,rfl⟩
      simp only [if_true,wp_bind]
      refine wp_mono hlog ?_ fun _ _ hs => hs
      rintro _ s' ⟨he',hflows',hpkt'⟩
      cases handledByBase with
      | false => exact he'
      | true =>
        refine rememberObservedNatSyn_wp he' fun hsyn => ?_
        rw [hflows',hpkt',hflows,hpkt]
        rw [hpkt',hpkt] at hsyn
        exact hremember rfl hsyn

theorem routePacket_wp (hb : a.Before a.pkt a.flows h)
    (hreach : a.isSyn = true → a.RelayForwardDeclines → a.SynReaches) :
    wp (a.d.routePacket a.env) (fun _ => a.Ended) (fun _ => a.Ended) h := by
  unfold WindowsDiverter.routePacket
  rw [wp_bind]
  refine wp_mono (redirectRelay_wp hb hreach) ?_ fun _ _ hs => hs
  intro redirected s hs
  match redirected with
  | none => exact hs
  | some (some mapping) =>
    obtain ⟨ip,port,flows,hr,hs⟩ := hs
    exact deliverPacket_wp hs hr (carries_withDestination ip port) _ _ fun hf => (by cases hf)
  | some none =>
    obtain ⟨hs,hreach⟩ := hs
    have hr := recordsEffect_synFlows hreach
    refine unlessFinal_wp (allowReviewedIp_wp hs hr) fun s hs _ => ?_
    rw [wp_bind]
    refine wp_mono (divertPacket_wp hs hr) ?_ fun _ _ hs => hs
    intro diverted s hs
    match diverted with
    | none => exact hs
    | some false =>
      exact deliverPacket_wp hs hr carries_pkt _ _ fun hf => (by cases hf)
    | some true =>
      refine deliverPacket_wp hs hr (carries_withBase _) _ _ fun _ hsyn => ?_
      have hsyn : a.isSyn = true := hsyn
      have hflows : a.synFlows = a.flows.recordSyn a.key := by simp [synFlows,hsyn]
      have htuple : a.baseRewrite.tuple = a.translated := by
        unfold baseRewrite translated
        rw [hflows]
      change a.RecordsEffect (a.synFlows.rememberTranslated a.key a.baseRewrite.tuple)
      rw [hflows,htuple]
      exact .translated hsyn (hreach hsyn)

theorem handleOutbound_wp (hb : a.Before a.pkt a.flows h)
    (hreach : a.ControlDeclines → a.TakeoverDeclines → a.RelayReturnDeclines →
      a.RedirectDeclines → a.RelayForwardDeclines → a.SynReaches) :
    wp (a.d.handleOutbound a.env) (fun _ => a.Ended) (fun _ => a.Ended) h := by
  unfold WindowsDiverter.handleOutbound
  refine unlessFinal_wp (allowControlFlow_wp hb) fun s hb hcontrol => ?_
  refine unlessFinal_wp (allowTakeoverSink_wp hb) fun s hb htakeover => ?_
  refine unlessFinal_wp (returnRelay_wp hb) fun s hb hreturn => ?_
  refine unlessFinal_wp (redirectProcess_wp hb) fun s hb hredirect => ?_
  exact routePacket_wp hb fun hsyn hforward =>
    hreach (hcontrol hsyn) (htakeover hsyn) (hreturn hsyn) (hredirect hsyn) hforward

theorem handleInbound_wp (hb : a.Before a.pkt a.flows h) (hin : a.wdpkt.isOutbound = false) :
    wp (a.d.handleInbound a.env) (fun _ => a.Ended) (fun _ => a.Ended) h := by
  unfold WindowsDiverter.handleInbound
  refine unlessFinal_wp (redirectProcess_wp hb) fun s hb _ => ?_
  exact hb.logEnd (kept_of_not_reaches (not_reaches_of_inbound hin)) rfl

theorem handleParsed_wp (hb : a.Before a.pkt a.flows h) (hraw : a.wdpkt.raw ≠ [])
    (hversion : WdPacket.version a.wdpkt.raw = 4)
    (hredirect : a.d.isRedirectFragment a.wdpkt = false)
    (hreviewed :
      WdPacket.classifyReviewedIpv4Fragment a.wdpkt.raw a.d.reviewedTargetProtocols = none) :
    wp (a.d.handleParsed a.env) (fun _ => a.Ended) (fun _ => a.Ended) h := by
  unfold WindowsDiverter.handleParsed PacketEnvironment.writePcap
  simp only [wp_bind,wp_call,wp_emit,wp_get]
  refine ⟨fun hparse => ⟨fun hpcap => ?_,fun e he => ?_⟩,fun e he => ?_⟩
  · have hb := hb.emit (e:=.wrotePcap) rfl rfl fun hm => (by cases hm)
    rw [hb.pkt]
    split
    · rename_i hout
      exact handleOutbound_wp hb fun hcontrol htakeover hreturn hengine hforward =>
        ⟨hraw,hversion,hredirect,hreviewed,hout,hparse,hpcap,hcontrol,htakeover,hreturn,hengine,
          hforward⟩
    · rename_i hin
      exact handleInbound_wp hb (by simpa [pkt,PacketCtx.ofWdPacket] using hin)
  · refine hb.raised (kept_of_not_reaches fun hs => ?_) e
    rw [hs.writePcap] at he
    cases he
  · refine hb.raised (kept_of_not_reaches fun hs => ?_) e
    rw [hs.parse] at he
    cases he

theorem failClosed_wp (he : a.Ended h) (e : Raised) :
    wp (WindowsDiverter.failClosed a.env e) (fun _ => a.Ended) (fun _ => a.Ended) h := by
  unfold WindowsDiverter.failClosed
  rw [wp_bind,wp_get,wp_bind]
  refine wp_mono (closeMapping_wp he _) ?_ fun _ _ hs => hs
  intro _ s hs
  split
  · exact hs
  · exact hs.log rfl

theorem before_start : a.Before a.pkt a.flows (.start a.wdpkt a.env a.flows) :=
  ⟨rfl,rfl,fun _ he => (by cases he),fun _ he => (by cases he)⟩

/-- Every handling ends with permitted sends and one of the four effects on the records. -/
theorem handled_ended (a : Arrival) : a.Ended a.handled := by
  refine final_of_wp ?_
  have hb : a.Before a.pkt a.flows (.start a.wdpkt a.env a.flows) := before_start
  unfold WindowsDiverter.handlePolicyPacket
  split
  · rename_i hraw
    exact hb.logEnd (kept_of_not_reaches fun hs => hs.nonempty hraw) rfl
  · split
    · rename_i verdict hverdict
      have hsix : WdPacket.version a.wdpkt.raw = 6 ∧
          verdict = if a.wdpkt.isLoopback then .reinjectLocal else .dropExternal := by
        unfold classifyIpv6Preparse at hverdict
        split at hverdict
        · rename_i hversion
          exact ⟨hversion.2,(Option.some.inj hverdict).symm⟩
        · cases hverdict
      have hr : a.RecordsEffect a.flows := kept_of_not_reaches fun hs => by
        rw [hs.version] at hsix
        cases hsix.1
      split
      · rename_i hlocal
        have hloop : a.wdpkt.isLoopback = true := by
          cases hl : a.wdpkt.isLoopback with
          | true => rfl
          | false =>
            rw [hsix.2,hl] at hlocal
            cases hlocal
        unfold PacketEnvironment.sendCaptured
        rw [wp_bind,wp_call]
        exact ⟨fun _ => hb.sent hr ⟨hsix.1,hloop⟩,fun e _ => hb.raised hr e⟩
      · exact hb.logEnd hr rfl
    · split
      · rename_i hversion
        exact hb.logEnd (kept_of_not_reaches fun hs => hversion hs.version) rfl
      · rename_i hraw _ _ hversion
        split
        · rename_i hfragment
          refine hb.logEnd (kept_of_not_reaches fun hs => ?_) rfl
          rw [hs.redirectFragment] at hfragment
          cases hfragment
        · rename_i hredirect
          split
          · rename_i target hfragment
            refine hb.logEnd (kept_of_not_reaches fun hs => ?_) rfl
            rw [hs.reviewedFragment] at hfragment
            cases hfragment
          · rename_i hreviewed
            have hparsed := handleParsed_wp hb hraw (not_not.mp hversion)
              (Bool.eq_false_iff.mpr hredirect) hreviewed
            rw [wp_tryExcept]
            exact wp_mono hparsed (fun _ _ hs => hs) fun e _ hs => failClosed_wp hs e

end Arrival
end FakeNetNG
