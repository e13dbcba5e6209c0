import FakeNetNG.RelayNatRuns

/-!
# Shutting the egress policy

A policy that was closed or suspended is shut: its tables are empty, no operation
refills them, and no operation authorises anything. The proof does not look at the
order in which operations run, so it covers an operation that passed its openness
check, or read its clock, before the policy was shut.
-/

namespace FakeNetNG

/-- The tables and the counters are as after construction. -/
structure RelayNat.Vacant (n : RelayNat) : Prop where
  forward : n.forward = Dict.empty
  reverse : n.reverse = Dict.empty
  client : n.client = Dict.empty
  generation : n.generation = Dict.empty
  pending : n.pending = 0
  pendingBySource : ∀ ip, n.pendingBySource ip = 0
  active : n.active = 0
  activeBySource : ∀ ip, n.activeBySource ip = 0

namespace RelayNat

variable {n : RelayNat}

theorem clear_vacant : n.clear.Vacant :=
  ⟨rfl,rfl,rfl,rfl,rfl,fun _ => rfl,rfl,fun _ => rfl⟩

theorem Vacant.drop (h : n.Vacant) (now : ℚ) (p : RelayNatMapping → Bool) : n.drop now p = n := by
  simp [RelayNat.drop,h.generation,Dict.values,Dict.empty]

theorem Vacant.cleanup (h : n.Vacant) (now : ℚ) : (n.cleanup now).Vacant := by
  have hd := h.drop now fun m => (n.cell m).expiresAt ≤ now
  obtain ⟨hf,hr,hc,hg,hp,hps,ha,has⟩ := h
  refine ⟨?_,?_,?_,?_,?_,fun ip => ?_,?_,fun ip => ?_⟩ <;>
    simp only [RelayNat.cleanup,expireRewrites,expireTombstones,hd]
  · rw [hf]; rfl
  · rw [hr]; rfl
  · exact hc
  · exact hg
  · exact hp
  · exact hps ip
  · exact ha
  · exact has ip

end RelayNat

theorem PermitTable.drop_of_empty {t : PermitTable} (h : t.byToken = Dict.empty)
    (p : ControlPermit → Bool) : t.drop p = t := by
  simp [PermitTable.drop,h,Dict.empty]

namespace EgressPolicy

/-- Closed or suspended, with every table empty. -/
structure Shut (s : EgressPolicy) : Prop where
  off : s.closed = true ∨ s.egressSuspended = true
  leases : ∀ domain leases, s.leases.get? domain = some leases → leases = Dict.empty
  aliases : s.aliases = Dict.empty
  byKey : s.permits.byKey = Dict.empty
  byToken : s.permits.byToken = Dict.empty
  nat : s.nat.Vacant

variable {s : EgressPolicy}

theorem emptyLeases_get? (domains : List String) (domain : String) (leases : Dict Addr Lease)
    (h : (emptyLeases domains).get? domain = some leases) : leases = Dict.empty := by
  have hfold : ∀ (l : List String) (d : Dict String (Dict Addr Lease)),
      (∀ k v, d.get? k = some v → v = Dict.empty) →
      ∀ k v, (l.foldl (fun d domain => d.set domain Dict.empty) d).get? k = some v →
        v = Dict.empty := by
    intro l
    induction l with
    | nil => exact fun d hd => hd
    | cons a l ih =>
      intro d hd
      refine ih _ fun k v hv => ?_
      rcases (Dict.get?_set_eq_some _ _ _ _ _).mp hv with ⟨-,rfl⟩ | ⟨-,hv⟩
      · rfl
      · exact hd k v hv
  refine hfold domains Dict.empty (fun k v hv => ?_) domain leases h
  cases hv

theorem suspendLocked_shut (s : EgressPolicy) : s.suspendLocked.Shut :=
  ⟨.inr rfl,emptyLeases_get? _,rfl,rfl,rfl,RelayNat.clear_vacant⟩

theorem closeLocked_shut (s : EgressPolicy) : s.closeLocked.Shut :=
  ⟨.inl rfl,emptyLeases_get? _,rfl,rfl,rfl,⟨rfl,rfl,rfl,rfl,rfl,fun _ => rfl,rfl,fun _ => rfl⟩⟩

theorem Shut.flags (h : s.Shut) : (s.closed || s.egressSuspended) = true := by
  rcases h.off with h | h <;> simp [h]

theorem Shut.ensureOpen (h : s.Shut) : ∃ e, s.ensureOpen = some e := by
  unfold EgressPolicy.ensureOpen
  rcases h.off with h | h
  · simp [h]
  · by_cases hc : s.closed = true <;> simp [h,hc]

theorem Shut.congr {s' : EgressPolicy} (h : s.Shut) (hc : s'.closed = s.closed)
    (hs : s'.egressSuspended = s.egressSuspended) (hl : s'.leases = s.leases)
    (ha : s'.aliases = s.aliases) (hk : s'.permits.byKey = s.permits.byKey)
    (ht : s'.permits.byToken = s.permits.byToken) (hn : s'.nat = s.nat) : s'.Shut := by
  obtain ⟨h₁,h₂,h₃,h₄,h₅,h₆⟩ := h
  exact ⟨by rw [hc,hs]; exact h₁,by rw [hl]; exact h₂,by rw [ha]; exact h₃,by rw [hk]; exact h₄,
    by rw [ht]; exact h₅,by rw [hn]; exact h₆⟩

theorem Shut.cleanupLocked (h : s.Shut) (now : ℚ) : (s.cleanupLocked now).Shut := by
  have hp : (s.cleanupLocked now).permits = s.permits := by
    rw [cleanupLocked_permits,PermitTable.cleanup,PermitTable.drop_of_empty h.byToken]
  refine ⟨h.off,?_,?_,?_,?_,h.nat.cleanup now⟩
  · intro domain leases hl
    rw [cleanupLocked_leases,Dict.get?_mapValues] at hl
    cases hg : s.leases.get? domain with
    | none => simp [hg] at hl
    | some l =>
      have hl' := h.leases domain l hg
      subst hl'
      rw [hg] at hl
      exact (Option.some.inj hl).symm
  · rw [cleanupLocked_aliases,h.aliases]
    rfl
  · rw [hp]; exact h.byKey
  · rw [hp]; exact h.byToken

theorem Shut.updateLocalIpv4Locked (h : s.Shut) (addresses : List Addr) :
    (updateLocalIpv4Locked addresses s).2.Shut := by
  rcases updateLocalIpv4Locked_cases addresses s with hu | ⟨-,hu⟩
  · rw [hu]
    exact suspendLocked_shut _
  · have hp := hu.permits.trans (PermitTable.drop_of_empty h.byToken _)
    exact h.congr hu.closed hu.egressSuspended hu.leases hu.aliases (by rw [hp]) (by rw [hp])
      (hu.nat.trans (h.nat.drop _ _))

theorem Shut.consume (h : s.Shut) (key : Addr × ℕ) (now : ℚ) :
    (consumeRelayTargetLocked key now s).1 = none ∧
      (consumeRelayTargetLocked key now s).2.Shut := by
  have hc := h.cleanupLocked now
  have hn : (s.cleanupLocked now).nat.client.get? key = none := by rw [hc.nat.client]; rfl
  simp only [consumeRelayTargetLocked,hn]
  exact ⟨trivial,hc⟩

end EgressPolicy

open EgressPolicy in
theorem PolicySection.shut (sec : PolicySection) (s : EgressPolicy) (h : s.Shut) :
    (sec.apply s).Shut := by
  obtain ⟨e,he⟩ := h.ensureOpen
  cases sec with
  | tick => exact h.congr rfl rfl rfl rfl rfl rfl rfl
  | updateLocalIpv4 addresses => exact h.updateLocalIpv4Locked addresses
  | activateRoutes prepared => simpa [apply,activateRoutesLocked,he] using h
  | suspendTakeover reason =>
    simp only [apply,EgressPolicy.suspendTakeover]
    split_ifs
    · exact h.congr rfl rfl rfl rfl rfl rfl rfl
    · exact h
  | suspend => exact suspendLocked_shut s
  | resolveDnsRule qname now =>
    simp only [apply,resolveDnsRuleLocked]
    split_ifs <;> exact h.cleanupLocked now
  | registerAlias domain aliasName ttl => simpa [apply,registerAliasLocked,he] using h
  | replaceLeases domain replacement => simpa [apply,replaceLeasesLocked,he] using h
  | leaseFor ip now => simpa [apply,leaseForLocked,h.flags] using h
  | relayFlow proto dstIp dport domain generation => simpa [apply,relayFlowLocked,he] using h
  | fileControlFlow kind key domain relay generation token expires =>
    simpa [apply,fileControlFlowLocked,he] using h
  | matchControlFlow key now => simpa [apply,matchControlFlowLocked,h.flags] using h
  | revokeControlFlow token =>
    have hn : s.permits.byToken.get? token = none := by rw [h.byToken]; rfl
    simpa [apply,revokeControlFlowLocked,hn] using h
  | createRelayMapping lease sampleIp samplePort serverIp serverPort relayIp relayPort now =>
    simpa [apply,createRelayMappingLocked,he] using h
  | matchForward key now => simpa [apply,matchNatLocked,h.flags] using h
  | matchReverse key now => simpa [apply,matchNatLocked,h.flags] using h
  | consumeRelayTarget key now => exact (h.consume key now).2
  | activateRelayMapping generation =>
    have hn : s.nat.generation.get? generation = none := by rw [h.nat.generation]; rfl
    simpa [apply,activateRelayMappingLocked,hn] using h
  | closeRelayMapping generation grace =>
    have hn : s.nat.generation.get? generation = none := by rw [h.nat.generation]; rfl
    simpa [apply,closeRelayMappingLocked,hn] using h
  | drainExpiredLeases =>
    have ht : s.ticked.Shut := h.congr rfl rfl rfl rfl rfl rfl rfl
    exact (ht.cleanupLocked s.now).congr rfl rfl rfl rfl rfl rfl rfl
  | close => exact closeLocked_shut s

def PolicyCall.Denied : PolicyCall → EgressPolicy.Reply → Prop
  | leaseFor _ _, r => r = .lease none
  | matchControlFlow _, r => r = .permit none
  | matchRelayForward _, r => r = .mapping none
  | matchRelayReverse _, r => r = .mapping none
  | consumeRelayTarget _ _, r => r = .mapping none
  | matchReviewedIp _, r => r = .rule none
  | matchesTakeoverSink _, r => r = .bool false
  | _, _ => True

namespace EgressPolicy

theorem clocked_late {α : Type} {m : ℚ → EgressPolicy → α × EgressPolicy} {f : α → Reply}
    {Q : Reply → Prop} (h : ∀ now s, s.Shut → (m now s).2.Shut ∧ Q (f (m now s).1)) :
    (mapReply f (readClock.bind fun now => .locked (m now))).Ensures Shut Q ∧
      (mapReply f (readClock.bind fun now => .locked (m now))).Late Shut Q := by
  have hclock : ∀ s : EgressPolicy, s.Shut → s.ticked.Shut :=
    fun s hs => PolicySection.shut .tick s hs
  have hsec : ∀ now, ((Prog.locked (m now)).bind fun a => .done (f a)).Ensures Shut Q :=
    fun now s hs => h now s hs
  exact ⟨fun s hs => ⟨hclock s hs,hsec s.now⟩,fun s hs => ⟨hclock s hs,hsec s.now⟩,
    fun s => ⟨hsec s.now,fun _ => trivial⟩⟩

theorem read_late {f : EgressPolicy → Reply} {Q : Reply → Prop} (h : ∀ s, s.Shut → Q (f s)) :
    (Prog.read f).Ensures Shut Q ∧ (Prog.read f).Late Shut Q :=
  ⟨Prog.ensures_read h,Prog.ensures_read h,fun _ => trivial⟩

/-- Whatever an operation has done so far, its answer is a denial once the policy is shut. -/
theorem body_denied (c : PolicyCall) :
    c.body.Ensures Shut c.Denied ∧ c.body.Late Shut c.Denied := by
  have hkeep := c.body_keeps fun sec _ => sec.shut
  cases c with
  | leaseFor ip port =>
    simp only [PolicyCall.body,EgressPolicy.leaseFor]
    split_ifs
    · refine clocked_late fun now s hs => ⟨PolicySection.shut (.leaseFor ip now) s hs,?_⟩
      simp [PolicyCall.Denied,leaseForLocked,hs.flags]
    · exact ⟨rfl,trivial⟩
  | matchControlFlow key =>
    refine clocked_late fun now s hs => ⟨PolicySection.shut (.matchControlFlow key now) s hs,?_⟩
    simp [PolicyCall.Denied,matchControlFlowLocked,hs.flags]
  | matchRelayForward key =>
    refine clocked_late fun now s hs => ⟨PolicySection.shut (.matchForward key now) s hs,?_⟩
    simp [PolicyCall.Denied,matchNatLocked,hs.flags]
  | matchRelayReverse key =>
    refine clocked_late fun now s hs => ⟨PolicySection.shut (.matchReverse key now) s hs,?_⟩
    simp [PolicyCall.Denied,matchNatLocked,hs.flags]
  | consumeRelayTarget sampleIp samplePort =>
    refine clocked_late fun now s hs => ⟨(hs.consume _ now).2,?_⟩
    simp only [PolicyCall.Denied,(hs.consume _ now).1]
  | matchReviewedIp packet =>
    refine read_late fun s hs => ?_
    simp [PolicyCall.Denied,matchReviewedIpLocked,hs.flags]
  | matchesTakeoverSink key =>
    refine read_late fun s hs => ?_
    rcases hs.off with h | h <;>
      simp [PolicyCall.Denied,matchesTakeoverSinkLocked,takeoverAvailableLocked,h]
  | _ => exact ⟨hkeep.ensures,hkeep.late⟩

end EgressPolicy

/-- Thread `t` of `P` runs the locked section of an operation that shuts the policy, and `P'`
is the pool right after it. -/
def ShutsDown (P P' : Pool EgressPolicy PolicyCall EgressPolicy.Reply) : Prop :=
  ∃ t c, P.threads t = some (c,c.body) ∧
    P' = P.move (c.body.run P.shared).2 t (some (c,.done (c.body.run P.shared).1)) ∧
    (c = .suspend ∨ c = .close ∨
      (∃ addresses, c = .updateLocalIpv4 addresses) ∧ P'.shared.egressSuspended = true)

theorem PolicySection.flags (sec : PolicySection) (s : EgressPolicy) :
    (sec.apply s).Shut ∨ (sec.apply s).closed = s.closed ∧
      (sec.apply s).egressSuspended = s.egressSuspended := by
  by_cases hc : sec.isControl = false
  · have hsame := sec.sameControl s hc
    exact .inr ⟨hsame.closed,hsame.egressSuspended⟩
  · cases sec with
    | suspend => exact .inl (EgressPolicy.suspendLocked_shut s)
    | close => exact .inl (EgressPolicy.closeLocked_shut s)
    | updateLocalIpv4 addresses =>
      rcases EgressPolicy.updateLocalIpv4Locked_cases addresses s with hu | ⟨-,hu⟩
      · refine .inl ?_
        rw [apply,hu]
        exact EgressPolicy.suspendLocked_shut _
      · exact .inr ⟨hu.closed,hu.egressSuspended⟩
    | activateRoutes prepared =>
      refine .inr ?_
      simp only [apply,EgressPolicy.activateRoutesLocked]
      split
      · exact ⟨rfl,rfl⟩
      · split_ifs <;> exact ⟨rfl,rfl⟩
    | suspendTakeover reason =>
      refine .inr ?_
      simp only [apply,EgressPolicy.suspendTakeover]
      split_ifs <;> exact ⟨rfl,rfl⟩
    | _ => exact absurd rfl hc

theorem PolicySection.off_shut (sec : PolicySection) (s : EgressPolicy)
    (h : s.closed = true ∨ s.egressSuspended = true → s.Shut) :
    (sec.apply s).closed = true ∨ (sec.apply s).egressSuspended = true → (sec.apply s).Shut := by
  intro hoff
  rcases sec.flags s with hs | ⟨hc,he⟩
  · exact hs
  · rw [hc,he] at hoff
    exact sec.shut s (h hoff)

theorem shut_of_steps {cfg : PolicyConfig} {localIpv4 : List Addr} {clock : Clock}
    {P : Pool EgressPolicy PolicyCall EgressPolicy.Reply}
    (h : Pool.Steps PolicyCall.body Pool.anyCall
      (Pool.start (EgressPolicy.init cfg localIpv4 clock)) P)
    (hoff : P.shared.closed = true ∨ P.shared.egressSuspended = true) : P.shared.Shut := by
  have hinit : (EgressPolicy.init cfg localIpv4 clock).closed = true ∨
      (EgressPolicy.init cfg localIpv4 clock).egressSuspended = true →
      (EgressPolicy.init cfg localIpv4 clock).Shut := by
    rintro (h | h) <;> cases h
  exact (Pool.ensures_steps (fun _ c _ => (c.body_keeps fun sec _ => sec.off_shut).ensures) h
    hinit fun t c p ht => by cases ht).1 hoff

theorem ShutsDown.step {P P' : Pool EgressPolicy PolicyCall EgressPolicy.Reply}
    (h : ShutsDown P P') : Pool.Step PolicyCall.body Pool.anyCall P P' ∧
      (P'.shared.closed = true ∨ P'.shared.egressSuspended = true) := by
  obtain ⟨t,c,ht,rfl,hc⟩ := h
  rcases hc with rfl | rfl | ⟨⟨addresses,rfl⟩,hs⟩
  · exact ⟨.exec t _ _ _ ht,.inr rfl⟩
  · exact ⟨.exec t _ _ _ ht,.inl rfl⟩
  · exact ⟨.exec t _ _ _ ht,.inr hs⟩

/-- Once a locked section has shut the policy, in every interleaving of all operations the
tables stay empty and every answer is a denial: of a call run from there, and of a call
in flight, whatever it read before. -/
theorem shut_policy_denies (cfg : PolicyConfig) (localIpv4 : List Addr) (clock : Clock)
    (P P' P'' : Pool EgressPolicy PolicyCall EgressPolicy.Reply)
    (hrun : Pool.Steps PolicyCall.body Pool.anyCall
      (Pool.start (EgressPolicy.init cfg localIpv4 clock)) P)
    (hshut : ShutsDown P P') (hlater : Pool.Steps PolicyCall.body Pool.anyCall P' P'') :
    P''.shared.Shut ∧ (∀ c : PolicyCall, c.Denied (c.body.run P''.shared).1) ∧
      ∀ t c f k r, P''.threads t = some (c,.step f k) → k P''.shared = .done r → c.Denied r := by
  obtain ⟨hstep,hoff⟩ := hshut.step
  have hrun' := hrun.tail hstep
  have hs' := shut_of_steps hrun' hoff
  have hlate {R : Pool EgressPolicy PolicyCall EgressPolicy.Reply}
      (h : Pool.Steps PolicyCall.body Pool.anyCall
        (Pool.start (EgressPolicy.init cfg localIpv4 clock)) R) :=
    Pool.late_steps (fun _ c _ => (EgressPolicy.body_denied c).2) h fun t c p ht => by cases ht
  have hs : P''.shared.Shut :=
    (Pool.ensures_steps (fun _ c _ => (EgressPolicy.body_denied c).2.ensures) hlater hs'
      fun t c p ht => (hlate hrun' t c p ht).ensures).1
  refine ⟨hs,fun c => ((EgressPolicy.body_denied c).1.run hs).2,?_⟩
  intro t c f k r ht hk
  have hr := ((hlate (hrun'.trans hlater) t c _ ht).1 _ hs).2
  rw [hk] at hr
  exact hr

/-- An address is leased, a `suspend` waits for the lock, and a lookup of the address has read its clock. -/
def pendingLookup : Pool EgressPolicy PolicyCall EgressPolicy.Reply :=
  Pool.schedule PolicyCall.body
    (Pool.start (EgressPolicy.init .twoDomains [.dotted 10 0 0 5] (.every 1)))
    (.call 0 (.replaceLeases "a.test" [(.dotted 93 184 216 34,60)])::List.replicate 4 (.go 0)++
      [.call 0 .suspend,.call 1 (.leaseFor (.dotted 93 184 216 34) 443),.go 1])

/-- The lookup would have found the lease. -/
theorem shut_policy_denies_pendingLookup :
    Pool.Steps PolicyCall.body Pool.anyCall
      (Pool.start (EgressPolicy.init .twoDomains [.dotted 10 0 0 5] (.every 1))) pendingLookup ∧
    (pendingLookup.shared.leases.get? "a.test").map (·.size) = some 1 ∧
    ∃ P', ShutsDown pendingLookup P' ∧ P'.shared.Shut ∧ (∀ c : PolicyCall, c.Denied (c.body.run P'.shared).1) ∧
      ∀ t c f k r, P'.threads t = some (c,.step f k) → k P'.shared = .done r → c.Denied r := by
  have hrun : Pool.Steps PolicyCall.body Pool.anyCall
      (Pool.start (EgressPolicy.init .twoDomains [.dotted 10 0 0 5] (.every 1))) pendingLookup :=
    Pool.schedule_steps _ _
  have hshut : ShutsDown pendingLookup _ := ⟨0,.suspend,rfl,rfl,.inl rfl⟩
  obtain ⟨hs,hlater,hd⟩ := shut_policy_denies _ _ _ _ _ _ hrun hshut .refl
  exact ⟨hrun,by decide,_,hshut,hs,hlater,hd⟩

end FakeNetNG
