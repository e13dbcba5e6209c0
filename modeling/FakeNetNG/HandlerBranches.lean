import FakeNetNG.HandlerSpec
import FakeNetNG.RedirectDecision

/-!
# The branches of the packet handler

Weakest preconditions of the handler's calls, and from them the specification of each
branch: it finishes the packet at `Ended`, or it leaves the packet as it found it.
-/

namespace FakeNetNG

open Fallible

variable {env : PacketEnvironment} {h : Handling}

@[simp] theorem wp_emit {Q : Unit → Handling → Prop} {E : Raised → Handling → Prop}
    (e : HandlerEvent) : wp (emit e) Q E h ↔ Q () (h.emit e) := Iff.rfl

@[simp] theorem wp_raiseEvent {α : Type} {Q : α → Handling → Prop} {E : Raised → Handling → Prop}
    (e : Raised) : wp (raise e : HandlerM α) Q E h ↔ E e (h.emit (.raised e)) := Iff.rfl

@[simp] theorem wp_call {α : Type} {Q : α → Handling → Prop} {E : Raised → Handling → Prop}
    (site : Site) (x : α) : wp (env.call site x) Q E h ↔
      (env.raises site = none → Q x h) ∧
        ∀ e, env.raises site = some e → E e (h.emit (.raised e)) := by
  unfold PacketEnvironment.call
  cases hraise : env.raises site with
  | none => simp
  | some e => simp

@[simp] theorem wp_ask {α : Type} {Q : α → Handling → Prop} {E : Raised → Handling → Prop}
    (site : Site) (operation : Prog EgressPolicy α) : wp (env.ask site operation) Q E h ↔
      (env.raises site = none → Q (operation.under (env.policy site)) h) ∧
        ∀ e, env.raises site = some e → E e (h.emit (.raised e)) := wp_call site _

namespace Arrival

variable {a : Arrival} {pkt : PacketCtx} {flows : FlowRecords}

theorem Ended.raised (he : a.Ended h) (e : Raised) : a.Ended (h.emit (.raised e)) :=
  he.emit rfl fun h => (by cases h)

theorem Ended.call (he : a.Ended h) {α : Type} (site : Site) (x : α) :
    wp (a.env.call site x) (fun _ => a.Ended) (fun _ => a.Ended) h := by
  rw [wp_call]
  exact ⟨fun _ => he,fun e _ => he.raised e⟩

theorem Ended.log (he : a.Ended h) {event : EgressEvent}
    (hm : (HandlerEvent.logged event).isBypass = false) :
    wp (a.env.logEgressEvent event) (fun _ => a.Ended) (fun _ => a.Ended) h := by
  unfold PacketEnvironment.logEgressEvent
  rw [wp_bind]
  refine wp_mono (he.call _ _) (fun _ s hs => ?_) fun _ _ hs => hs
  exact hs.emit rfl fun hb => (by rw [hm] at hb; cases hb)

theorem Ended.closeRelayMapping (he : a.Ended h) (generation : ℕ) :
    wp (a.env.closeRelayMapping generation) (fun _ => a.Ended) (fun _ => a.Ended) h := by
  unfold PacketEnvironment.closeRelayMapping
  rw [wp_bind]
  refine wp_mono (he.call _ _) (fun _ s hs => ?_) fun _ _ hs => hs
  exact hs.emit rfl fun hb => (by cases hb)

/-- A call before the packet is decided, when the records may stay as they are. -/
theorem Before.call (hb : a.Before pkt flows h) (hr : a.RecordsEffect flows) {α : Type}
    (site : Site) (x : α) :
    wp (a.env.call site x) (fun y s => y = x ∧ s = h) (fun _ => a.Ended) h := by
  rw [wp_call]
  exact ⟨fun _ => ⟨rfl,rfl⟩,fun e _ => hb.raised hr e⟩

theorem Before.log (hb : a.Before pkt flows h) (hr : a.RecordsEffect flows) {event : EgressEvent}
    (hm : (HandlerEvent.logged event).isBypass = true → a.Midstream) :
    wp (a.env.logEgressEvent event) (fun _ => a.Before pkt flows) (fun _ => a.Ended) h := by
  unfold PacketEnvironment.logEgressEvent
  simp only [wp_bind,wp_call,wp_emit]
  exact ⟨fun _ => hb.emit rfl rfl hm,fun e _ => hb.raised hr e⟩

theorem Before.writePcap (hb : a.Before pkt flows h) (hr : a.RecordsEffect flows) (site : Site) :
    wp (a.env.writePcap site) (fun _ => a.Before pkt flows) (fun _ => a.Ended) h := by
  unfold PacketEnvironment.writePcap
  simp only [wp_bind,wp_call,wp_emit]
  exact ⟨fun _ => hb.emit rfl rfl fun h => (by cases h),fun e _ => hb.raised hr e⟩

/-- A report that finishes the packet. -/
theorem Before.logEnd (hb : a.Before pkt flows h) (hr : a.RecordsEffect flows) {event : EgressEvent}
    (hm : (HandlerEvent.logged event).isBypass = false) :
    wp (a.env.logEgressEvent event) (fun _ => a.Ended) (fun _ => a.Ended) h :=
  (hb.ended hr).log hm

theorem Before.sendPacket (hb : a.Before pkt flows h) (hr : a.RecordsEffect flows)
    (hp : a.Permitted (.packet pkt)) :
    wp a.env.sendPacket (fun _ s => a.Ended s ∧ s.flows = flows ∧ s.pkt = pkt)
      (fun _ => a.Ended) h := by
  have hsent : a.Ended (h.emit (.sent (.packet h.pkt))) := by
    rw [hb.pkt]
    exact hb.sent hr hp
  have hsame : (h.emit (.sent (.packet h.pkt))).flows = flows ∧
      (h.emit (.sent (.packet h.pkt))).pkt = pkt := ⟨hb.flows,hb.pkt⟩
  unfold PacketEnvironment.sendPacket
  simp only [wp_bind,wp_get,wp_call,wp_emit]
  refine ⟨fun _ => ?_,fun e _ => hb.raised hr e⟩
  split
  · exact ⟨hsent,hsame⟩
  · rw [wp_call]
    exact ⟨fun _ => ⟨hsent,hsame⟩,fun e _ => hsent.raised e⟩

/-- A permitted send that finishes the packet. -/
theorem Before.sendEnd (hb : a.Before pkt flows h) (hr : a.RecordsEffect flows)
    (hp : a.Permitted (.packet pkt)) :
    wp a.env.sendPacket (fun _ => a.Ended) (fun _ => a.Ended) h :=
  wp_mono (hb.sendPacket hr hp) (fun _ _ hs => hs.1) fun _ _ hs => hs

theorem carries_pkt : a.Carries a.pkt := ⟨rfl,rfl,rfl,rfl⟩

theorem carries_withSource (ip : Addr) (port : ℕ) : a.Carries (a.pkt.withSource ip port) :=
  ⟨rfl,rfl,rfl,rfl⟩

theorem carries_withDestination (ip : Addr) (port : ℕ) :
    a.Carries (a.pkt.withDestination ip port) := ⟨rfl,rfl,rfl,rfl⟩

theorem carries_withBase (rewrite : BaseRewrite) : a.Carries (a.pkt.withBase rewrite) :=
  ⟨rfl,rfl,rfl,rfl⟩

/-- What the verdict says about the packet. -/
inductive VerdictHolds (a : Arrival) (args : VerdictArgs) (pkt : PacketCtx) :
    Verdict → Prop
  | permit : args.permit.isSome = true → VerdictHolds a args pkt .allowInternalUpstream
  | takeover : a.TakeoverMatch (.verdict .takeover) pkt →
      VerdictHolds a args pkt .allowTakeoverSink
  | reviewed (rule : ReviewedIPv4Rule) : args.reviewedRule.isSome = true →
      EgressPolicy.matchReviewedIpLocked pkt.reviewedPacketTuple
        (a.env.policy (.verdict .reviewed) 0) = some rule →
      VerdictHolds a args pkt .allowReviewedIp
  | isLocal {verdict : Verdict} :
      verdict = .reinjectLocal ∨ verdict = .divertFake ∨ verdict = .redirectTlsRelay →
      a.IsLocal pkt → VerdictHolds a args pkt verdict
  | drop : VerdictHolds a args pkt .dropExternal

theorem matchesTakeoverSinkRoute_wp (hb : a.Before pkt flows h) (site : Site)
    (hr : a.d.onTakeoverRoute pkt = true → a.env.raises site ≠ none → a.RecordsEffect flows) :
    wp (a.d.matchesTakeoverSinkRoute a.env site)
      (fun b s => s = h ∧ if b then a.TakeoverMatch site pkt
        else a.d.onTakeoverRoute pkt = true → a.env.raises site = none ∧
          EgressPolicy.matchesTakeoverSinkLocked pkt.flowKey (a.env.policy site 0) = false)
      (fun _ => a.Ended) h := by
  unfold WindowsDiverter.matchesTakeoverSinkRoute
  simp only [wp_bind,wp_get,hb.pkt]
  split
  · rename_i hroute
    rw [wp_ask,Prog.under_read]
    refine ⟨fun hraise => ⟨rfl,?_⟩,fun e he => ?_⟩
    · split
      · rename_i hmatch
        exact ⟨hroute,hmatch⟩
      · rename_i hmatch
        exact fun _ => ⟨hraise,Bool.eq_false_iff.mpr hmatch⟩
    · exact hb.raised (hr hroute (by simp [he])) e
  · rename_i hroute
    exact ⟨rfl,fun htrue => absurd htrue hroute⟩

theorem isExactLocalIpv4_wp (hb : a.Before pkt flows h) (hr : a.RecordsEffect flows) :
    wp (a.env.isExactLocalIpv4 (.verdict .isLocal) h.pkt.current.dstIp)
      (fun b s => s = h ∧ (b = true → a.IsLocal pkt)) (fun _ => a.Ended) h := by
  unfold PacketEnvironment.isExactLocalIpv4
  rw [wp_ask,hb.pkt]
  exact ⟨fun _ => ⟨rfl,fun hl => hl⟩,fun e _ => hb.raised hr e⟩

theorem localVerdict_wp (hb : a.Before pkt flows h) (hr : a.RecordsEffect flows)
    (args : VerdictArgs) :
    wp (a.d.localVerdict a.env) (fun v s => s = h ∧ VerdictHolds a args pkt v)
      (fun _ => a.Ended) h := by
  unfold WindowsDiverter.localVerdict
  simp only [wp_bind,wp_get]
  refine wp_mono (isExactLocalIpv4_wp hb hr) ?_ fun _ _ hs => hs
  rintro b s ⟨rfl,hlocal⟩
  cases b with
  | false => exact ⟨rfl,.drop⟩
  | true =>
    cases hproto : s.pkt.proto with
    | none => exact ⟨rfl,.isLocal (.inl rfl) (hlocal rfl)⟩
    | some proto =>
      simp only [if_true,wp_bind]
      refine wp_mono (hb.call hr _ _) ?_ fun _ _ hs => hs
      rintro b s ⟨-,rfl⟩
      cases b with
      | false => exact ⟨rfl,.isLocal (.inl rfl) (hlocal rfl)⟩
      | true => exact ⟨rfl,.isLocal (.inr (.inl rfl)) (hlocal rfl)⟩

theorem relayVerdict_wp (hb : a.Before pkt flows h) (hr : a.RecordsEffect flows)
    (args : VerdictArgs) :
    wp (a.d.relayVerdict a.env) (fun v s => s = h ∧ VerdictHolds a args pkt v)
      (fun _ => a.Ended) h := by
  unfold WindowsDiverter.relayVerdict
  simp only [wp_bind,wp_get]
  split
  · rw [wp_bind]
    refine wp_mono (isExactLocalIpv4_wp hb hr) ?_ fun _ _ hs => hs
    rintro b s ⟨rfl,hlocal⟩
    cases b with
    | false => exact ⟨rfl,.drop⟩
    | true =>
      simp only [if_true,wp_bind]
      refine wp_mono (hb.call hr _ _) ?_ fun _ _ hs => hs
      rintro b s ⟨-,rfl⟩
      cases b with
      | false => exact ⟨rfl,.drop⟩
      | true => exact ⟨rfl,.isLocal (.inr (.inr rfl)) (hlocal rfl)⟩
  · exact ⟨rfl,.drop⟩

theorem reviewedVerdict_wp (hb : a.Before pkt flows h) (hr : a.RecordsEffect flows)
    (args : VerdictArgs) (rule : ReviewedIPv4Rule)
    (hargs : args.reviewedRule = some rule) :
    wp (WindowsDiverter.reviewedVerdict a.env rule)
      (fun v s => s = h ∧ VerdictHolds a args pkt v) (fun _ => a.Ended) h := by
  unfold WindowsDiverter.reviewedVerdict
  simp only [wp_bind,wp_get,wp_ask,hb.pkt,Prog.under_read]
  refine ⟨fun _ => ?_,fun e _ => hb.raised hr e⟩
  split
  · exact ⟨rfl,.drop⟩
  · rename_i current hmatch
    split
    · exact ⟨rfl,.reviewed current (by simp [hargs]) hmatch⟩
    · exact ⟨rfl,.drop⟩

/-- The verdict leaves everything as it is. -/
theorem finalizeEgressVerdict_wp (hb : a.Before pkt flows h) (hr : a.RecordsEffect flows)
    (args : VerdictArgs) :
    wp (a.d.finalizeEgressVerdict a.env args)
      (fun v s => s = h ∧ VerdictHolds a args pkt v) (fun _ => a.Ended) h := by
  unfold WindowsDiverter.finalizeEgressVerdict
  split
  · rename_i hpermit
    exact ⟨rfl,.permit hpermit⟩
  · rw [wp_bind]
    refine wp_mono (matchesTakeoverSinkRoute_wp hb _ fun _ _ => hr) ?_ fun _ _ hs => hs
    rintro b s ⟨rfl,htakeover⟩
    cases b with
    | true => exact ⟨rfl,.takeover htakeover⟩
    | false =>
      split
      · rename_i hfalse
        cases hfalse
      · split
        · simp only [wp_bind,wp_get]
          refine wp_mono (isExactLocalIpv4_wp hb hr) ?_ fun _ _ hs => hs
          rintro b s ⟨rfl,hlocal⟩
          cases b with
          | false => exact ⟨rfl,.drop⟩
          | true => exact ⟨rfl,.isLocal (.inl rfl) (hlocal rfl)⟩
        · split
          · exact relayVerdict_wp hb hr args
          · split
            · rename_i rule hrule
              exact reviewedVerdict_wp hb hr args rule hrule
            · exact localVerdict_wp hb hr args

/-- What a branch leaves: the finished packet, or the packet as it was captured, and then
the branch declined it if it is a SYN. -/
def After (a : Arrival) (flows : FlowRecords) (declines : Prop) (final : Bool) (h : Handling) : Prop :=
  if final then a.Ended h else a.Before a.pkt flows h ∧ (a.isSyn = true → declines)

theorem isSyn_eq_false (h : a.pkt.proto = none) : a.isSyn = false := by
  simp [isSyn,PacketCtx.isSyn,h]

theorem kept_of_not_reaches (hn : ¬a.SynReaches) : a.RecordsEffect a.flows := .kept fun _ => hn

theorem unlessFinal_wp {m : HandlerM Bool} {rest : HandlerM Unit} {declines : Prop}
    (hm : wp m (a.After flows declines) (fun _ => a.Ended) h)
    (hrest : ∀ s, a.Before a.pkt flows s → (a.isSyn = true → declines) →
      wp rest (fun _ => a.Ended) (fun _ => a.Ended) s) :
    wp (unlessFinal m rest) (fun _ => a.Ended) (fun _ => a.Ended) h := by
  unfold unlessFinal
  rw [wp_bind]
  refine wp_mono hm ?_ fun _ _ hs => hs
  intro b s hs
  cases b with
  | true => exact hs
  | false => exact hrest s hs.1 hs.2

theorem allowControlFlow_wp (hb : a.Before a.pkt a.flows h) :
    wp (a.d.allowControlFlow a.env) (a.After a.flows a.ControlDeclines) (fun _ => a.Ended) h := by
  unfold WindowsDiverter.allowControlFlow
  simp only [wp_bind,wp_get,hb.pkt]
  split
  · rename_i hproto
    exact ⟨hb,fun hsyn => absurd hsyn (by simp [isSyn_eq_false hproto])⟩
  · simp only [wp_bind,wp_ask]
    refine ⟨fun hraise => ?_,fun e he => ?_⟩
    · split
      · rename_i hnone
        exact ⟨hb,fun _ => ⟨hraise,hnone⟩⟩
      · rename_i permit hpermit
        have hr : a.RecordsEffect a.flows := kept_of_not_reaches fun hs => by
          rw [hs.control.2] at hpermit
          cases hpermit
        rw [wp_bind]
        refine wp_mono (finalizeEgressVerdict_wp hb hr _) ?_ fun _ _ hs => hs
        rintro v s ⟨rfl,-⟩
        split
        · simp only [wp_bind]
          refine wp_mono (hb.log hr fun hm => (by cases hm)) ?_ fun _ _ hs => hs
          intro _ s hs
          rw [wp_bind]
          refine wp_mono (hs.sendEnd hr ⟨carries_pkt,fun _ => ?_⟩) (fun _ _ hs => hs) fun _ _ hs => hs
          exact .inr (.controlPermit permit hpermit)
        · exact hb.ended hr
    · refine hb.raised (kept_of_not_reaches fun hs => ?_) e
      rw [hs.control.1] at he
      cases he

theorem allowTakeoverSink_wp (hb : a.Before a.pkt a.flows h) :
    wp (a.d.allowTakeoverSink a.env) (a.After a.flows a.TakeoverDeclines) (fun _ => a.Ended) h := by
  unfold WindowsDiverter.allowTakeoverSink
  rw [wp_bind]
  refine wp_mono (matchesTakeoverSinkRoute_wp hb .matchesTakeoverSink ?_) ?_ fun _ _ hs => hs
  · intro hroute hraise
    exact kept_of_not_reaches fun hs => hraise (hs.takeover hroute).1
  · rintro b s ⟨rfl,hmatch⟩
    cases b with
    | false => exact ⟨hb,fun _ => hmatch⟩
    | true =>
      obtain ⟨hroute,hsink⟩ := hmatch
      have hr : a.RecordsEffect a.flows := kept_of_not_reaches fun hs => by
        rw [(hs.takeover hroute).2] at hsink
        cases hsink
      simp only [if_true,wp_bind]
      refine wp_mono (finalizeEgressVerdict_wp hb hr _) ?_ fun _ _ hs => hs
      rintro v s ⟨rfl,hv⟩
      split
      · rename_i hallow
        subst hallow
        have hp : a.Authorised a.pkt := by
          cases hv with
          | takeover hmatch => exact .takeoverSink hmatch
          | isLocal hverdict _ => rcases hverdict with hv | hv | hv <;> cases hv
        rw [wp_bind]
        refine wp_mono (hb.log hr fun hm => (by cases hm)) ?_ fun _ _ hs => hs
        intro _ s hs
        rw [wp_bind]
        exact wp_mono (hs.sendEnd hr ⟨carries_pkt,fun _ => .inr hp⟩) (fun _ _ hs => hs)
          fun _ _ hs => hs
      · rw [wp_bind]
        exact wp_mono (hb.logEnd hr rfl) (fun _ _ hs => hs) fun _ _ hs => hs

/-- Writing endpoints into the packet. -/
theorem Before.rewritten (hb : a.Before pkt flows h) (pkt' : PacketCtx) :
    a.Before pkt' flows { h with pkt := pkt' } := ⟨rfl,hb.flows,hb.quiet,hb.bypass⟩

theorem rewriteSource_wp (hb : a.Before a.pkt flows h) (hr : a.RecordsEffect flows) (ip : Addr)
    (port : ℕ) :
    wp (a.env.rewriteSource ip port) (fun _ => a.Before (a.pkt.withSource ip port) flows)
      (fun _ => a.Ended) h := by
  unfold PacketEnvironment.rewriteSource
  simp only [wp_bind,wp_call,wp_modify,hb.pkt]
  exact ⟨fun _ => hb.rewritten _,fun e _ => hb.raised hr e⟩

theorem rewriteDestination_wp (hb : a.Before a.pkt flows h) (hr : a.RecordsEffect flows) (ip : Addr)
    (port : ℕ) :
    wp (a.env.rewriteDestination ip port) (fun _ => a.Before (a.pkt.withDestination ip port) flows)
      (fun _ => a.Ended) h := by
  unfold PacketEnvironment.rewriteDestination
  simp only [wp_bind,wp_call,wp_modify,hb.pkt]
  exact ⟨fun _ => hb.rewritten _,fun e _ => hb.raised hr e⟩

/-- The reply of the relay goes to a local destination or nowhere. -/
theorem returnRelay_wp (hb : a.Before a.pkt a.flows h) :
    wp (a.d.returnRelay a.env) (a.After a.flows a.RelayReturnDeclines) (fun _ => a.Ended) h := by
  unfold WindowsDiverter.returnRelay WindowsDiverter.applyDomainRelayReturnFixup
  simp only [wp_bind,wp_get,hb.pkt]
  split
  · rename_i hproto
    exact ⟨hb,fun hsyn => absurd hsyn (by simp [isSyn_eq_false hproto])⟩
  · simp only [wp_bind,wp_ask]
    refine ⟨fun hraise => ?_,fun e he => ?_⟩
    · split
      · rename_i hnone
        exact ⟨hb,fun _ => ⟨hraise,hnone⟩⟩
      · rename_i mapping hmapping
        have hr : a.RecordsEffect a.flows := kept_of_not_reaches fun hs => by
          rw [hs.relayReturn.2] at hmapping
          cases hmapping
        rw [wp_bind]
        refine wp_mono (rewriteSource_wp hb hr _ _) ?_ fun _ _ hs => hs
        intro _ s hs
        simp only [wp_pure,wp_bind]
        refine wp_mono (finalizeEgressVerdict_wp hs hr _) ?_ fun _ _ hs => hs
        rintro v s' ⟨rfl,hv⟩
        split
        · rename_i hlocal
          subst hlocal
          have hp : a.IsLocal (a.pkt.withSource mapping.serverIp mapping.serverPort) := by
            cases hv with
            | isLocal _ hlocal => exact hlocal
          simp only [wp_bind]
          refine wp_mono (hs.writePcap hr _) ?_ fun _ _ hs => hs
          intro _ s hs
          rw [wp_bind]
          refine wp_mono (hs.sendEnd hr ⟨carries_withSource _ _,fun _ => .inl hp⟩) ?_ fun _ _ hs => hs
          intro b s he
          split
          · exact he
          · rw [wp_bind]
            exact wp_mono (he.closeRelayMapping _) (fun _ _ hs => hs) fun _ _ hs => hs
        · simp only [wp_bind]
          refine wp_mono (hs.logEnd hr rfl) ?_ fun _ _ hs => hs
          intro _ s he
          rw [wp_bind]
          exact wp_mono (he.closeRelayMapping _) (fun _ _ hs => hs) fun _ _ hs => hs
    · refine hb.raised (kept_of_not_reaches fun hs => ?_) e
      rw [hs.relayReturn.1] at he
      cases he

/-- The packet is not decided yet, and may be sent as it is now. -/
def Rewritten (a : Arrival) (flows : FlowRecords) (h : Handling) : Prop :=
  ∃ pkt, a.Permitted (.packet pkt) ∧ a.Before pkt flows h

theorem injectRedirected_wp {rewrite : HandlerM Unit} (prepared : PreparedRedirect)
    (hr : a.RecordsEffect flows)
    (hrewrite : wp rewrite (fun _ => a.Rewritten flows) (fun _ => a.Ended) h) :
    wp (WindowsDiverter.injectRedirected a.env prepared rewrite) (fun _ => a.Ended)
      (fun _ => a.Ended) h := by
  -- the failure is reported to the engine and raised again
  have habort : ∀ (e : Raised) s, a.Ended s →
      wp (do
        a.env.call .abort ()
        emit (.aborted prepared.token)
        Fallible.raise e : HandlerM Bool) (fun _ => a.Ended) (fun _ => a.Ended) s := by
    intro e s hs
    rw [wp_bind]
    refine wp_mono (hs.call _ _) ?_ fun _ _ hs => hs
    intro _ s hs
    rw [wp_bind,wp_emit,wp_raise]
    exact hs.emit rfl fun hb => (by cases hb)
  unfold WindowsDiverter.injectRedirected
  rw [wp_tryExcept,wp_bind]
  refine wp_mono hrewrite ?_ habort
  rintro _ s ⟨pkt,hp,hs⟩
  rw [wp_bind]
  refine wp_mono (hs.writePcap hr _) ?_ habort
  intro _ s hs
  exact wp_mono (hs.sendEnd hr hp) (fun _ _ hs => hs) habort

theorem onlyIf_wp (he : a.Ended h) (b : Bool) {m : HandlerM Unit}
    (hm : wp m (fun _ => a.Ended) (fun _ => a.Ended) h) :
    wp (onlyIf b m) (fun _ => a.Ended) (fun _ => a.Ended) h := by
  cases b with
  | true => exact hm
  | false => exact he

theorem settleRedirected_wp (he : a.Ended h) (prepared : PreparedRedirect) (sent : Bool) :
    wp (WindowsDiverter.settleRedirected a.env prepared sent) (fun _ => a.Ended)
      (fun _ => a.Ended) h := by
  unfold WindowsDiverter.settleRedirected
  rw [wp_bind]
  have hcommit : wp (Fallible.tryExcept
      (do
        a.env.call .commit ()
        emit (.committed prepared.token sent)
        return true)
      fun _ => do
        a.env.call .suspend ()
        emit .suspendedEngine
        a.env.logEgressEvent .processRedirectCommitFailed
        return false : HandlerM Bool) (fun _ => a.Ended) (fun _ => a.Ended) h := by
    rw [wp_tryExcept,wp_bind]
    refine wp_mono (he.call _ _) ?_ ?_
    · intro _ s hs
      exact hs.emit rfl fun hb => (by cases hb)
    · intro e s hs
      rw [wp_bind]
      refine wp_mono (hs.call _ _) ?_ fun _ _ hs => hs
      intro _ s hs
      rw [wp_bind,wp_emit,wp_bind]
      exact wp_mono ((hs.emit rfl fun hb => (by cases hb)).log rfl) (fun _ _ hs => hs)
        fun _ _ hs => hs
  refine wp_mono hcommit ?_ fun _ _ hs => hs
  intro committed s hs
  refine onlyIf_wp hs committed ?_
  rw [wp_bind]
  refine wp_mono (onlyIf_wp hs _ (hs.log rfl)) ?_ fun _ _ hs => hs
  intro _ s hs
  exact onlyIf_wp hs _ (hs.log rfl)

theorem rewriteRedirected_wp {rewrite : HandlerM Unit} (prepared : PreparedRedirect)
    (hr : a.RecordsEffect a.flows)
    (hrewrite : wp rewrite (fun _ => a.Rewritten a.flows) (fun _ => a.Ended) h) (declines : Prop) :
    wp (WindowsDiverter.rewriteRedirected a.env prepared rewrite) (a.After a.flows declines)
      (fun _ => a.Ended) h := by
  unfold WindowsDiverter.rewriteRedirected
  rw [wp_bind]
  refine wp_mono (injectRedirected_wp prepared hr hrewrite) ?_ fun _ _ hs => hs
  intro sent s hs
  rw [wp_bind]
  exact wp_mono (settleRedirected_wp hs prepared sent) (fun _ _ hs => hs) fun _ _ hs => hs

theorem assignEndpoint_wp {assign : Addr → ℕ → HandlerM Unit} (hb : a.Before pkt flows h)
    (hr : a.RecordsEffect flows) (ip? : Option Addr) (port? : Option ℕ)
    (hassign : ∀ ip port, ip? = some ip →
      wp (assign ip port) (fun _ => a.Rewritten flows) (fun _ => a.Ended) h) :
    wp (WindowsDiverter.assignEndpoint assign ip? port?) (fun _ => a.Rewritten flows)
      (fun _ => a.Ended) h := by
  cases ip? with
  | none => exact hb.raised hr _
  | some ip =>
    cases port? with
    | none => exact hb.raised hr _
    | some port => exact hassign ip port rfl

theorem not_reaches_of_inbound (hin : a.wdpkt.isOutbound = false) : ¬a.SynReaches := by
  intro hs
  rw [hs.outbound] at hin
  cases hin

theorem permitted_of_inbound (hin : a.wdpkt.isOutbound = false) {pkt : PacketCtx}
    (hc : a.Carries pkt) : a.Permitted (.packet pkt) := by
  refine ⟨hc,fun hout => ?_⟩
  rw [hc.isOutbound,hin] at hout
  cases hout

/-- The engine's decision on the captured packet, applied to it. -/
theorem applyProcessRedirect_wp (hb : a.Before a.pkt a.flows h) {setup : RedirectSetup}
    (hsetup : a.d.processRedirect = some setup) :
    wp (WindowsDiverter.applyProcessRedirect a.env setup.rule) (a.After a.flows a.RedirectDeclines)
      (fun _ => a.Ended) h := by
  unfold WindowsDiverter.applyProcessRedirect
  simp only [wp_bind,wp_get,hb.pkt,wp_call]
  refine ⟨fun hraise => ?_,fun e he => ?_⟩
  · have hprepared : (setup.rule.prepare a.pkt.processRedirectPacketTuple a.env.redirect).under a.env.engine =
        a.prepared setup.rule := rfl
    rw [hprepared]
    have hfinal : (a.prepared setup.rule).decision.action ≠ .notApplicable →
        (a.prepared setup.rule).decision.action ≠ .passUnchanged → a.RecordsEffect a.flows :=
      fun h₁ h₂ => kept_of_not_reaches fun hs => (hs.redirect setup hsetup).2.elim h₁ h₂
    have hdeclines : (a.prepared setup.rule).decision.action = .notApplicable ∨
        (a.prepared setup.rule).decision.action = .passUnchanged → a.RedirectDeclines := by
      intro haction setup' hsetup'
      rw [hsetup] at hsetup'
      cases hsetup'
      exact ⟨hraise,haction⟩
    have hdecision : a.wdpkt.isOutbound = true →
        setup.rule.OutboundDecision (a.prepared setup.rule) := fun hout =>
      (ProcessRedirectRule.prepare_outboundDecision (by
        simp [PacketCtx.processRedirectPacketTuple,pkt,PacketCtx.ofWdPacket,hout]) _).under _
    cases haction : (a.prepared setup.rule).decision.action with
    | notApplicable => exact ⟨hb,fun _ => hdeclines (.inl haction)⟩
    | passUnchanged =>
      dsimp only
      split
      · exact ⟨hb,fun _ => hdeclines (.inr haction)⟩
      · rename_i hin
        have hin : a.wdpkt.isOutbound = false := by simpa [pkt,PacketCtx.ofWdPacket] using hin
        have hr := kept_of_not_reaches (not_reaches_of_inbound hin)
        rw [wp_bind]
        refine wp_mono (hb.sendEnd hr (permitted_of_inbound hin carries_pkt)) ?_ fun _ _ hs => hs
        intro b s hs
        split
        · exact hs
        · rw [wp_bind]
          exact wp_mono (hs.log rfl) (fun _ _ hs => hs) fun _ _ hs => hs
    | drop =>
      have hr := hfinal (by simp [haction]) (by simp [haction])
      rw [wp_bind]
      exact wp_mono (hb.logEnd hr rfl) (fun _ _ hs => hs) fun _ _ hs => hs
    | rewriteOutbound =>
      have hr := hfinal (by simp [haction]) (by simp [haction])
      refine rewriteRedirected_wp _ hr (assignEndpoint_wp hb hr _ _ fun ip port hip => ?_) _
      refine wp_mono (rewriteDestination_wp hb hr ip port) ?_ fun _ _ hs => hs
      intro _ s hs
      refine ⟨_,⟨carries_withDestination ip port,fun hout => .inr ?_⟩,hs⟩
      have htarget : some ip = some setup.rule.targetIpv4 :=
        hip.symm.trans ((hdecision hout).2 haction)
      exact .processRedirect setup hsetup haction (Option.some.inj htarget)
    | rewriteInbound =>
      have hr := hfinal (by simp [haction]) (by simp [haction])
      have hin : a.wdpkt.isOutbound = false := by
        cases hout : a.wdpkt.isOutbound with
        | false => rfl
        | true => exact absurd haction (hdecision hout).1
      refine rewriteRedirected_wp _ hr (assignEndpoint_wp hb hr _ _ fun ip port _ => ?_) _
      refine wp_mono (rewriteSource_wp hb hr ip port) ?_ fun _ _ hs => hs
      intro _ s hs
      exact ⟨_,permitted_of_inbound hin (carries_withSource ip port),hs⟩
  · refine hb.raised (kept_of_not_reaches fun hs => ?_) e
    rw [(hs.redirect setup hsetup).1] at he
    cases he

theorem redirectProcess_wp (hb : a.Before a.pkt a.flows h) :
    wp (a.d.redirectProcess a.env) (a.After a.flows a.RedirectDeclines) (fun _ => a.Ended) h := by
  unfold WindowsDiverter.redirectProcess
  split
  · rename_i hnone
    refine ⟨hb,fun _ setup hsetup => ?_⟩
    rw [hnone] at hsetup
    cases hsetup
  · rename_i setup hsetup
    exact applyProcessRedirect_wp hb hsetup

end Arrival
end FakeNetNG
