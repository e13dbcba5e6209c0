import FakeNetNG.PolicyPermits
import FakeNetNG.RelayGenerations

/-!
# Revocation on an address change

`update_local_ipv4` takes back what was granted to sources that left the machine. It
reaches the permits and the mappings of the generation table; a mapping in its teardown
grace and the reviewed route bindings are in neither. The bindings are the concern of the
route snapshots that the diverter compares after each update.
-/

namespace FakeNetNG

/-- `is_exact_local_ipv4` against the snapshot `addresses`. -/
def Admissible (addresses : List Addr) (a : Addr) : Prop :=
  a ∈ addresses ∨ a.isLoopback = true

/-- `m` is in a rewrite table and no longer in the generation table. -/
def RelayNat.InTeardown (n : RelayNat) (m : RelayNatMapping) : Prop :=
  (m ∈ n.forward.values ∨ m ∈ n.reverse.values) ∧ m ∉ n.generation.values

namespace EgressPolicy

variable {s s₀ : EgressPolicy} {snapshot : List Addr}

/-- What the policy authorises once `s₀` was updated to `snapshot`. -/
structure Confined (snapshot : List Addr) (s₀ s : EgressPolicy) : Prop where
  localIpv4 : s.localIpv4 = snapshot
  permits : ∀ k p, s.permits.byKey.get? k = some p → Admissible snapshot k.srcIp
  forward : ∀ k m, s.nat.forward.get? k = some m →
    Admissible snapshot k.srcIp ∨ s₀.nat.InTeardown m
  reverse : ∀ k m, s.nat.reverse.get? k = some m →
    Admissible snapshot k.srcIp ∨ s₀.nat.InTeardown m
  bindings : ∀ t b, s.reviewedRouteBindings.get? t = some b →
    Admissible snapshot b.sourceIpv4 ∨ s₀.reviewedRouteBindings.get? t = some b

theorem admissible_of_isExactLocal (h : s.localIpv4 = snapshot) {a : Addr}
    (ha : s.isExactLocalIpv4 a = true) : Admissible snapshot a := by
  simpa [isExactLocalIpv4,h,Admissible] using ha

theorem updateLocalIpv4Locked_confined {addresses : List Addr} (hp : s.permits.Inv)
    (hn : s.nat.Numbered) (h : (updateLocalIpv4Locked addresses s).1 = .bool true) :
    Confined (Addr.localIpv4Snapshot addresses) s (updateLocalIpv4Locked addresses s).2 := by
  rcases updateLocalIpv4Locked_cases addresses s with hu | ⟨-,hu⟩
  · rw [hu] at h
    cases h
  · have hsh := RelayNat.drop_shrinks s.nat s.now fun m =>
      m.sampleIp ∉ Addr.localIpv4Snapshot addresses ∨ m.relayIp ∉ Addr.localIpv4Snapshot addresses
    -- a rewrite entry that the walk over the generation table left
    have hleft : ∀ m, m ∈ s.nat.generation.values →
        m.sampleIp ∉ Addr.localIpv4Snapshot addresses ∨
          m.relayIp ∉ Addr.localIpv4Snapshot addresses →
        (updateLocalIpv4Locked addresses s).2.nat.forward.get? m.forwardKey ≠ some m ∧
          (updateLocalIpv4Locked addresses s).2.nat.reverse.get? m.reverseKey ≠ some m := by
      intro m hm hout
      rw [hu.nat]
      exact RelayNat.foldl_remove_rewrites
        (List.mem_filter.mpr ⟨hm,decide_eq_true hout⟩) s.nat s.now
    refine ⟨hu.localIpv4,fun k p hk => ?_,fun k m hk => ?_,fun k m hk => ?_,fun t b hb => ?_⟩
    · rw [hu.permits] at hk
      have hsrc := hp.drop_byKey hk
      have hkey := (hp.byKey k p ((PermitTable.drop_loses _ _).byKey k p hk)).1
      rw [hkey] at hsrc
      exact .inl (by simpa using hsrc)
    · have hk' : s.nat.forward.get? k = some m := by
        rw [hu.nat] at hk
        exact hsh.forward k m hk
      have hkey := hn.forwardKey k m hk'
      by_cases hg : m ∈ s.nat.generation.values
      · refine .inl (.inl ?_)
        by_contra hout
        rw [hkey] at hk hout
        exact (hleft m hg (.inl hout)).1 hk
      · exact .inr ⟨.inl ((Dict.mem_values_iff _ _).mpr ⟨k,hk'⟩),hg⟩
    · have hk' : s.nat.reverse.get? k = some m := by
        rw [hu.nat] at hk
        exact hsh.reverse k m hk
      have hkey := hn.reverseKey k m hk'
      by_cases hg : m ∈ s.nat.generation.values
      · refine .inl (.inl ?_)
        by_contra hout
        rw [hkey] at hk hout
        exact (hleft m hg (.inr hout)).2 hk
      · exact .inr ⟨.inr ((Dict.mem_values_iff _ _).mpr ⟨k,hk'⟩),hg⟩
    · rw [hu.reviewedRouteBindings] at hb
      exact .inr hb

end EgressPolicy

def PolicySection.grants : PolicySection → Bool
  | updateLocalIpv4 _ | activateRoutes _ | fileControlFlow .. | createRelayMapping .. => true
  | _ => false

namespace EgressPolicy

variable {s s₀ : EgressPolicy} {snapshot : List Addr}

theorem confined_of_parts {s' : EgressPolicy} (h : Confined snapshot s₀ s)
    (hl : s'.localIpv4 = s.localIpv4) (hb : s'.reviewedRouteBindings = s.reviewedRouteBindings)
    (hp : ∀ k p, s'.permits.byKey.get? k = some p → s.permits.byKey.get? k = some p)
    (hf : ∀ k m, s'.nat.forward.get? k = some m → s.nat.forward.get? k = some m)
    (hr : ∀ k m, s'.nat.reverse.get? k = some m → s.nat.reverse.get? k = some m) :
    Confined snapshot s₀ s' :=
  ⟨hl.trans h.localIpv4,fun k p hk => h.permits k p (hp k p hk),fun k m hk => h.forward k m (hf k m hk),
    fun k m hk => h.reverse k m (hr k m hk),by rw [hb]; exact h.bindings⟩

theorem confined_section (sec : PolicySection) (hg : sec.grants = false)
    (h : Confined snapshot s₀ s) : Confined snapshot s₀ (sec.apply s) := by
  have hfiles : sec.filesPermit = false := by cases sec <;> first | rfl | cases hg
  have hmaps : sec.filesMapping ≠ true := by cases sec <;> first | exact Bool.false_ne_true | cases hg
  have hlo := sec.permits_loses s hfiles
  have hreg := (sec.regular s).ext
  have hkeep : (sec.apply s).localIpv4 = s.localIpv4 ∧
      (sec.apply s).reviewedRouteBindings = s.reviewedRouteBindings := by
    by_cases hc : sec.isControl = false
    · exact ⟨(sec.sameControl s hc).localIpv4,(sec.sameControl s hc).reviewedRouteBindings⟩
    · cases sec with
      | suspend => exact ⟨rfl,rfl⟩
      | close => exact ⟨rfl,rfl⟩
      | suspendTakeover reason =>
        simp only [PolicySection.apply,suspendTakeover]
        split_ifs <;> exact ⟨rfl,rfl⟩
      | updateLocalIpv4 => cases hg
      | activateRoutes => cases hg
      | _ => exact absurd rfl hc
  refine confined_of_parts h hkeep.1 hkeep.2 hlo.byKey (fun k m hk => ?_) fun k m hk => ?_
  · exact (hreg.forward k m hk).resolve_right fun hx => hmaps hx.1
  · exact (hreg.reverse k m hk).resolve_right fun hx => hmaps hx.1

theorem readClock_confined {Q : ℚ → Prop} (hq : ∀ now, Q now) :
    readClock.Ensures (Confined snapshot s₀) Q :=
  Prog.ensures_locked fun _ hs => ⟨confined_section .tick rfl hs,hq _⟩

theorem isExactLocal_confined (a : Addr) :
    (Prog.read fun s : EgressPolicy => s.isExactLocalIpv4 a).Ensures (Confined snapshot s₀)
      fun b => b = true → Admissible snapshot a :=
  Prog.ensures_read fun _ hs hb => admissible_of_isExactLocal hs.localIpv4 hb

theorem read_confined {α : Type} (f : EgressPolicy → α) :
    (Prog.read f).Ensures (Confined snapshot s₀) fun _ => True :=
  Prog.ensures_read fun _ _ => trivial

theorem fileControlFlow_confined (kind : ControlKind) {key : FlowKey} (domain : String)
    (relay : Option RelayNatMapping) (ttl : ℤ) (g : ℕ) (token : String)
    (hk : Admissible snapshot key.srcIp) :
    (fileControlFlow kind key domain relay ttl g token).Ensures (Confined snapshot s₀)
      fun _ => True := by
  refine (readClock_confined fun _ => trivial).bind fun now _ => Prog.ensures_locked fun s hs => ?_
  refine ⟨?_,trivial⟩
  unfold fileControlFlowLocked
  split
  · exact hs
  · split_ifs
    · exact hs
    · exact hs
    · refine ⟨hs.localIpv4,fun k p hp => ?_,hs.forward,hs.reverse,hs.bindings⟩
      rcases PermitTable.file_byKey hp with rfl | hp
      · exact hk
      · exact hs.permits k p hp

theorem registerControlFlow_confined (kind : ControlKind) (key : FlowKey) (domain : Option String)
    (ttl : ℤ) (generation : Option ℕ) (token : String) :
    (registerControlFlow kind key domain ttl generation token).Ensures (Confined snapshot s₀)
      fun _ => True := by
  refine Prog.Ensures.bind (read_confined _) fun opened _ => ?_
  cases opened with
  | some e => trivial
  | none =>
    refine Prog.Ensures.bind (isExactLocal_confined key.srcIp) fun isLocal hlocal => ?_
    cases isLocal with
    | false => trivial
    | true =>
      refine Prog.Ensures.bind (read_confined _) fun cfg _ => ?_
      cases kind with
      | dns =>
        change (registerDns cfg key ttl token).Ensures _ _
        unfold registerDns
        split
        · trivial
        · exact fileControlFlow_confined _ _ _ _ _ _ (hlocal rfl)
      | tlsRelay =>
        change (registerTlsRelay cfg key domain ttl (generation.getD 0) token).Ensures _ _
        unfold registerTlsRelay
        cases permitDomain cfg domain with
        | error e => trivial
        | ok name =>
          refine Prog.Ensures.bind (Q:=fun _ => True) (Prog.ensures_locked fun s hs =>
            ⟨confined_section (.relayFlow key.proto key.dstIp key.dport name (generation.getD 0))
              rfl hs,trivial⟩) fun r _ => ?_
          cases r with
          | error e => trivial
          | ok m => exact fileControlFlow_confined _ _ _ _ _ _ (hlocal rfl)
      | other kind => trivial

theorem createRelayMappingLocked_confined (lease : Lease) {sampleIp : Addr} (samplePort : ℕ)
    (serverIp : Addr) (serverPort : ℕ) {relayIp : Addr} (relayPort : ℕ) (now : ℚ)
    (hsample : Admissible snapshot sampleIp) (hrelay : Admissible snapshot relayIp)
    (h : Confined snapshot s₀ s) :
    Confined snapshot s₀ (createRelayMappingLocked lease sampleIp samplePort serverIp serverPort
      relayIp relayPort now s).2 := by
  have hsh := RelayNat.cleanup_shrinks s.nat now
  have hc : Confined snapshot s₀ (s.cleanupLocked now) :=
    confined_of_parts h rfl rfl
      (PermitTable.cleanup_loses s.permits now).byKey hsh.forward hsh.reverse
  unfold createRelayMappingLocked
  split
  · exact h
  · dsimp only
    split
    · exact hc
    · split_ifs
      · exact hc
      · exact hc
      · exact hc
      · exact hc
      · exact hc
      · exact ⟨hc.localIpv4,hc.permits,hc.forward,hc.reverse,hc.bindings⟩
      · refine ⟨hc.localIpv4,hc.permits,fun k m hk => ?_,fun k m hk => ?_,hc.bindings⟩
        · rcases (Dict.get?_set_eq_some _ _ _ _ _).mp hk with ⟨rfl,-⟩ | ⟨-,hk⟩
          · exact .inl hsample
          · exact hc.forward k m hk
        · rcases (Dict.get?_set_eq_some _ _ _ _ _).mp hk with ⟨rfl,-⟩ | ⟨-,hk⟩
          · exact .inl hrelay
          · exact hc.reverse k m hk

theorem createRelayMapping_confined (sampleIp : Addr) (samplePort : ℕ) (serverIp : Addr)
    (serverPort : ℕ) (relayIp : Addr) (relayPort : ℕ) :
    (createRelayMapping sampleIp samplePort serverIp serverPort relayIp relayPort).Ensures
      (Confined snapshot s₀) fun _ => True := by
  have hlease : (leaseFor serverIp serverPort).Ensures (Confined snapshot s₀) fun _ => True := by
    unfold leaseFor
    split
    · exact (readClock_confined fun _ => trivial).bind fun now _ => Prog.ensures_locked fun s hs =>
        ⟨confined_section (.leaseFor serverIp now) rfl hs,trivial⟩
    · trivial
  refine hlease.bind fun lease _ => ?_
  cases lease with
  | none => trivial
  | some lease =>
    refine Prog.Ensures.bind (isExactLocal_confined sampleIp) fun sampleLocal hsample => ?_
    cases sampleLocal with
    | false => trivial
    | true =>
      refine Prog.Ensures.bind (isExactLocal_confined relayIp) fun relayLocal hrelay => ?_
      cases relayLocal with
      | false => trivial
      | true =>
        refine Prog.Ensures.bind (read_confined _) fun cfg _ => ?_
        split_ifs
        · trivial
        · exact (readClock_confined fun _ => trivial).bind fun now _ => Prog.ensures_locked
            fun s hs => ⟨createRelayMappingLocked_confined _ _ _ _ _ _ (hsample rfl) (hrelay rfl) hs,
              trivial⟩

theorem prepareBindings_confined (items : List RouteItem)
    (prepared : Dict Addr ReviewedRouteBinding)
    (hp : ∀ t b, prepared.get? t = some b → Admissible snapshot b.sourceIpv4) :
    (prepareBindings items prepared).Ensures (Confined snapshot s₀) fun r =>
      ∀ prepared, r = .ok prepared →
        ∀ t b, prepared.get? t = some b → Admissible snapshot b.sourceIpv4 := by
  induction items generalizing prepared with
  | nil =>
    intro prepared' he
    cases he
    exact hp
  | cons item items ih =>
    cases item with
    | error e => exact fun _ he => by cases he
    | ok b =>
      unfold prepareBindings
      split
      · split_ifs
        · exact fun _ he => by cases he
        · exact fun _ he => by cases he
        · refine Prog.Ensures.bind (Q:=fun l => l = true → b.sourceIpv4 ∈ snapshot)
            (Prog.ensures_read fun s hs hl => ?_) fun sourceLocal hsource => ?_
          · rw [← hs.localIpv4]
            exact of_decide_eq_true hl
          · cases sourceLocal with
            | false => exact fun _ he => by cases he
            | true =>
              refine Prog.Ensures.bind (read_confined _) fun targetLocal _ => ?_
              cases targetLocal with
              | true => exact fun _ he => by cases he
              | false =>
                refine ih _ fun t b' hb => ?_
                rcases (Dict.get?_set_eq_some _ _ _ _ _).mp hb with ⟨-,rfl⟩ | ⟨-,hb⟩
                · exact .inl (hsource rfl)
                · exact hp t b' hb
      · exact fun _ he => by cases he

theorem activateReviewedIpRoutes_confined (bindings : List RouteItem) :
    (activateReviewedIpRoutes bindings).Ensures (Confined snapshot s₀) fun _ => True := by
  refine Prog.Ensures.bind (prepareBindings_confined bindings Dict.empty fun _ _ h => ?_)
    fun r hr => ?_
  · cases h
  · cases r with
    | error e => trivial
    | ok prepared =>
      refine Prog.Ensures.bind (read_confined _) fun cfg _ => ?_
      split
      · refine Prog.ensures_locked fun s hs => ⟨?_,trivial⟩
        unfold activateRoutesLocked
        split
        · exact hs
        · split_ifs
          · exact hs
          · exact ⟨hs.localIpv4,hs.permits,hs.forward,hs.reverse,
              fun t b hb => .inl (hr prepared rfl t b hb)⟩
      · trivial

end EgressPolicy

def PolicyCall.isUpdate : PolicyCall → Bool
  | updateLocalIpv4 _ => true
  | _ => false

open EgressPolicy in
theorem PolicyCall.body_confined {snapshot : List Addr} {s₀ : EgressPolicy} (c : PolicyCall)
    (hc : c.isUpdate = false) : c.body.Ensures (Confined snapshot s₀) fun _ => True := by
  have hrest (hg : ∀ sec, c.Uses sec → sec.grants = false) :
      c.body.Ensures (Confined snapshot s₀) fun _ => True :=
    (c.body_keeps fun sec hu s hs => confined_section sec (hg sec hu) hs).ensures
  cases c with
  | updateLocalIpv4 addresses => cases hc
  | activateReviewedIpRoutes bindings => exact activateReviewedIpRoutes_confined bindings
  | registerControlFlow kind key domain ttl generation token =>
    exact registerControlFlow_confined kind key domain ttl generation token
  | createRelayMapping sampleIp samplePort serverIp serverPort relayIp relayPort =>
    exact (createRelayMapping_confined sampleIp samplePort serverIp serverPort relayIp
      relayPort).bind fun _ _ => trivial
  | _ =>
    refine hrest fun sec hu => ?_
    cases sec <;> first | rfl | simp [Uses] at hu

theorem EgressPolicy.Confined.runAll {snapshot : List Addr} {s₀ s : EgressPolicy}
    (h : Confined snapshot s₀ s) {calls : List PolicyCall}
    (hc : ∀ c ∈ calls, c.isUpdate = false) :
    Confined snapshot s₀ (Prog.runAll PolicyCall.body s calls) := by
  induction calls generalizing s with
  | nil => exact h
  | cons c calls ih =>
    have hstep := (c.body_confined (hc c List.mem_cons_self)).run h
    exact ih hstep.1 fun d hd => hc d (List.mem_cons_of_mem _ hd)

/-- The call authorises a packet with source address `a`. -/
def PolicyCall.AuthorisesFrom (c : PolicyCall) (s : EgressPolicy) (a : Addr) : Prop :=
  match c with
  | matchControlFlow key => key.srcIp = a ∧ ∃ permit, (c.body.run s).1 = .permit (some permit)
  | matchRelayForward key => key.srcIp = a ∧ ∃ m, (c.body.run s).1 = .mapping (some m)
  | matchRelayReverse key => key.srcIp = a ∧ ∃ m, (c.body.run s).1 = .mapping (some m)
  | matchReviewedIp packet => packet.sourceIpv4 = a ∧ ∃ rule, (c.body.run s).1 = .rule (some rule)
  | matchesTakeoverSink key => key.srcIp = a ∧ (c.body.run s).1 = .bool true
  | _ => False

/-- The authority that an update does not reach: a mapping in its teardown grace, and a
route binding. -/
def PolicyCall.Outlives (c : PolicyCall) (s₀ s : EgressPolicy) : Prop :=
  match c with
  | matchRelayForward _ | matchRelayReverse _ =>
    ∃ m, (c.body.run s).1 = .mapping (some m) ∧ s₀.nat.InTeardown m
  | matchReviewedIp packet => ∃ b, s₀.reviewedRouteBindings.get? packet.targetIpv4 = some b ∧
      b.sourceIpv4 = packet.sourceIpv4
  | _ => False

namespace EgressPolicy

variable {s s₀ : EgressPolicy} {snapshot : List Addr}

theorem matchControlFlowLocked_byKey {key : FlowKey} {now : ℚ} {permit : ControlPermit}
    (h : (matchControlFlowLocked key now s).1 = some permit) :
    s.permits.byKey.get? key = some permit := by
  unfold matchControlFlowLocked at h
  split_ifs at h
  dsimp only at h
  split at h
  · cases h
  · rename_i p hp
    split_ifs at h <;>
    · cases h
      exact (PermitTable.cleanup_loses s.permits now).byKey _ _ hp

theorem matchNatLocked_table {table : RelayNat → Dict FlowKey RelayNatMapping} {key : FlowKey}
    {now : ℚ} {m : RelayNatMapping} (h : (matchNatLocked table key now s).1 = some m) :
    (table (s.nat.cleanup now)).get? key = some m := by
  unfold matchNatLocked at h
  split_ifs at h
  dsimp only at h
  split at h
  · cases h
  · rename_i x hx
    split_ifs at h <;>
    · cases h
      exact hx

theorem matchReviewedIpLocked_binding {packet : ReviewedPacketTuple} {rule : ReviewedIPv4Rule}
    (h : matchReviewedIpLocked packet s = some rule) :
    ∃ b, s.reviewedRouteBindings.get? packet.targetIpv4 = some b ∧
      b.sourceIpv4 = packet.sourceIpv4 := by
  unfold matchReviewedIpLocked at h
  split_ifs at h
  split at h
  · cases h
  · rename_i b hb
    split_ifs at h with hsrc
    exact ⟨b,hb,(not_not.mp (not_or.mp hsrc).1).symm⟩

theorem Confined.authorises (h : Confined snapshot s₀ s) {c : PolicyCall} {a : Addr}
    (ha : c.AuthorisesFrom s a) : Admissible snapshot a ∨ c.Outlives s₀ s := by
  cases c with
  | matchControlFlow key =>
    obtain ⟨rfl,permit,hr⟩ := ha
    have hk := matchControlFlowLocked_byKey (s:=s.ticked) (Reply.permit.inj hr)
    exact .inl (h.permits key permit hk)
  | matchRelayForward key =>
    obtain ⟨rfl,m,hr⟩ := ha
    have hm := matchNatLocked_table (s:=s.ticked) (Reply.mapping.inj hr)
    exact (h.forward key m ((RelayNat.cleanup_shrinks _ _).forward _ _ hm)).imp_right
      fun ht => ⟨m,hr,ht⟩
  | matchRelayReverse key =>
    obtain ⟨rfl,m,hr⟩ := ha
    have hm := matchNatLocked_table (s:=s.ticked) (Reply.mapping.inj hr)
    exact (h.reverse key m ((RelayNat.cleanup_shrinks _ _).reverse _ _ hm)).imp_right
      fun ht => ⟨m,hr,ht⟩
  | matchReviewedIp packet =>
    obtain ⟨rfl,rule,hr⟩ := ha
    obtain ⟨b,hb,hsrc⟩ := matchReviewedIpLocked_binding (Reply.rule.inj hr)
    rcases h.bindings _ b hb with hadm | hold
    · rw [hsrc] at hadm
      exact .inl hadm
    · exact .inr ⟨b,hold,hsrc⟩
  | matchesTakeoverSink key =>
    obtain ⟨rfl,hr⟩ := ha
    have hb : matchesTakeoverSinkLocked key s = true := Reply.bool.inj hr
    simp only [matchesTakeoverSinkLocked,Bool.and_eq_true,decide_eq_true_eq] at hb
    rw [h.localIpv4] at hb
    exact .inl (.inl hb.1.1.1.2)
  | _ => exact ha.elim

end EgressPolicy

/-- After an update that returns true, and as long as there is no other, a packet is
authorised from an address of the new snapshot or a loopback address, by a mapping that
was in its teardown grace, or through a route binding that was activated before. -/
theorem address_change_revokes (cfg : PolicyConfig) (localIpv4 : List Addr) (clock : Clock)
    (calls : List PolicyCall) (htokens : (calls.filterMap PolicyCall.token?).Nodup)
    (addresses : List Addr) (later : List PolicyCall)
    (hupdate : ((PolicyCall.updateLocalIpv4 addresses).body.run
      (Prog.runAll PolicyCall.body (EgressPolicy.init cfg localIpv4 clock) calls)).1 = .bool true)
    (hlater : ∀ c ∈ later, c.isUpdate = false) (c : PolicyCall) (a : Addr)
    (ha : c.AuthorisesFrom (Prog.runAll PolicyCall.body (EgressPolicy.init cfg localIpv4 clock)
      (calls ++ .updateLocalIpv4 addresses :: later)) a) :
    Admissible (Addr.localIpv4Snapshot addresses) a ∨
      c.Outlives (Prog.runAll PolicyCall.body (EgressPolicy.init cfg localIpv4 clock) calls)
        (Prog.runAll PolicyCall.body (EgressPolicy.init cfg localIpv4 clock)
          (calls ++ .updateLocalIpv4 addresses :: later)) := by
  have hp : (Prog.runAll PolicyCall.body (EgressPolicy.init cfg localIpv4 clock) calls).permits.Inv :=
    permits_inv_of_tokens PermitTable.inv_empty htokens fun _ _ => rfl
  have hn : (Prog.runAll PolicyCall.body (EgressPolicy.init cfg localIpv4 clock) calls).nat.Numbered :=
    EgressPolicy.numbered_runAll RelayNat.Numbered.empty calls
  have hconf := EgressPolicy.updateLocalIpv4Locked_confined hp hn hupdate
  rw [Prog.runAll_append,Prog.runAll_cons] at ha ⊢
  exact (hconf.runAll hlater).authorises ha

def newSourceQuery : FlowKey := ⟨.udp,.dotted 10 0 0 6,40000,.dotted 8 8 8 8,53⟩

theorem address_change_revokes_newSourceQuery :
    ((PolicyCall.updateLocalIpv4 [.dotted 10 0 0 6]).body.run
      (EgressPolicy.init .twoDomains [.dotted 10 0 0 5] (.every 1))).1 = .bool true ∧
    (PolicyCall.matchControlFlow newSourceQuery).AuthorisesFrom
      (Prog.runAll PolicyCall.body (EgressPolicy.init .twoDomains [.dotted 10 0 0 5] (.every 1))
        [.updateLocalIpv4 [.dotted 10 0 0 6],
          .registerControlFlow .dns newSourceQuery none 10 none "t"]) (.dotted 10 0 0 6) ∧
    (Admissible (Addr.localIpv4Snapshot [.dotted 10 0 0 6]) (.dotted 10 0 0 6) ∨
      (PolicyCall.matchControlFlow newSourceQuery).Outlives
        (EgressPolicy.init .twoDomains [.dotted 10 0 0 5] (.every 1))
        (Prog.runAll PolicyCall.body (EgressPolicy.init .twoDomains [.dotted 10 0 0 5] (.every 1))
          [.updateLocalIpv4 [.dotted 10 0 0 6],
            .registerControlFlow .dns newSourceQuery none 10 none "t"])) := by
  have hupdate : ((PolicyCall.updateLocalIpv4 [.dotted 10 0 0 6]).body.run
      (EgressPolicy.init .twoDomains [.dotted 10 0 0 5] (.every 1))).1 = .bool true := by
    decide
  have ha : (PolicyCall.matchControlFlow newSourceQuery).AuthorisesFrom
      (Prog.runAll PolicyCall.body (EgressPolicy.init .twoDomains [.dotted 10 0 0 5] (.every 1))
        [.updateLocalIpv4 [.dotted 10 0 0 6],
          .registerControlFlow .dns newSourceQuery none 10 none "t"]) (.dotted 10 0 0 6) :=
    ⟨rfl,⟨0,"t",.dns,newSourceQuery,""⟩,by decide +kernel⟩
  exact ⟨hupdate,ha,address_change_revokes .twoDomains [.dotted 10 0 0 5] (.every 1) []
    List.nodup_nil [.dotted 10 0 0 6] [.registerControlFlow .dns newSourceQuery none 10 none "t"]
    hupdate (by simp [PolicyCall.isUpdate]) _ _ ha⟩

/-- One reviewed target, reached from `10.0.0.5` on interface 7. -/
def PolicyConfig.oneReviewed : PolicyConfig :=
  { PolicyConfig.twoDomains with
    reviewedIpv4Rules := [⟨"r1",.tcp,.dotted 93 184 216 34,some 443⟩]
    reviewedMatchIndex := Dict.empty.set (.tcp,.dotted 93 184 216 34)
      (.ports (Dict.empty.set 443 ⟨"r1",.tcp,.dotted 93 184 216 34,some 443⟩)) }

/-- The binding still authorises its source address after that address has left. -/
theorem address_change_keeps_binding :
    ¬∀ (cfg : PolicyConfig) (localIpv4 : List Addr) (clock : Clock) (calls : List PolicyCall)
      (addresses : List Addr) (later : List PolicyCall),
      (calls.filterMap PolicyCall.token?).Nodup →
      ((PolicyCall.updateLocalIpv4 addresses).body.run
        (Prog.runAll PolicyCall.body (EgressPolicy.init cfg localIpv4 clock) calls)).1 = .bool true →
      (∀ c ∈ later, c.isUpdate = false) →
      ∀ (c : PolicyCall) (a : Addr),
        c.AuthorisesFrom (Prog.runAll PolicyCall.body (EgressPolicy.init cfg localIpv4 clock)
          (calls ++ .updateLocalIpv4 addresses :: later)) a →
        Admissible (Addr.localIpv4Snapshot addresses) a := by
  intro h
  have hbad := h .oneReviewed [.dotted 10 0 0 5] (.every 1)
    [.activateReviewedIpRoutes [.ok ⟨.dotted 93 184 216 34,.dotted 10 0 0 5,7⟩]]
    [.dotted 10 0 0 6] [] List.nodup_nil (by decide) (by simp)
    (.matchReviewedIp ⟨.tcp,.dotted 10 0 0 5,50000,.dotted 93 184 216 34,443,7,0,true⟩)
    (.dotted 10 0 0 5) ⟨rfl,⟨"r1",.tcp,.dotted 93 184 216 34,some 443⟩,by decide⟩
  exact absurd hbad (by unfold Admissible; decide)

end FakeNetNG
