import FakeNetNG.PolicyShutdown

/-!
# The lease and alias tables

What the calls of the egress policy do to its leases and aliases. `Retains` says what a
call that grants nothing may do to them: forget what has expired.
-/

namespace FakeNetNG

/-- The positive lifetimes that the records give to `ip`. -/
def lifetimes (records : List (Addr × ℤ)) (ip : Addr) : Set ℤ :=
  {ttl : ℤ | 0 < ttl ∧ (ip,ttl) ∈ records}

namespace EgressPolicy

theorem lifetimes_append (records : List (Addr × ℤ)) (r : Addr × ℤ) (ip : Addr) :
    lifetimes (records++[r]) ip =
      if 0 < r.2 ∧ r.1 = ip then insert r.2 (lifetimes records ip) else lifetimes records ip := by
  rcases r with ⟨a,t⟩
  ext ttl
  split_ifs with h
  · obtain ⟨ht,rfl⟩ := h
    simp only [lifetimes,List.mem_append,List.mem_singleton,Prod.mk.injEq,true_and,
      Set.mem_ofPred_eq,Set.mem_insert_iff]
    constructor
    · rintro ⟨hp,hm | rfl⟩
      · exact .inr ⟨hp,hm⟩
      · exact .inl rfl
    · rintro (rfl | ⟨hp,hm⟩)
      · exact ⟨ht,.inr rfl⟩
      · exact ⟨hp,.inl hm⟩
  · simp only [lifetimes,List.mem_append,List.mem_singleton,Prod.mk.injEq,Set.mem_ofPred_eq]
    constructor
    · rintro ⟨hp,hm | ⟨rfl,rfl⟩⟩
      · exact ⟨hp,hm⟩
      · exact absurd ⟨hp,rfl⟩ h
    · rintro ⟨hp,hm⟩
      exact ⟨hp,.inl hm⟩

theorem replacement_append (domain : String) (now : ℚ) (records : List (Addr × ℤ)) (r : Addr × ℤ) :
    replacement domain now (records++[r]) =
      if 0 < r.2 ∧ r.1.isGlobalIpv4 then
        (replacement domain now records).set r.1 ⟨domain,r.1,
          match (replacement domain now records).get? r.1 with
          | none => now+r.2
          | some previous => min (now+r.2) previous.expiresAt⟩
      else replacement domain now records := by
  rw [replacement,List.foldl_append]
  rfl

/-- The loop invariant of the replacement table: it holds the addresses that some record
lists, each until the end of its smallest lifetime. -/
theorem replacement_inv (domain : String) (now : ℚ) (records : List (Addr × ℤ)) (ip : Addr) :
    (∀ lease, (replacement domain now records).get? ip = some lease → ip.isGlobalIpv4 = true ∧
      ∃ ttl : ℤ, IsLeast (lifetimes records ip) ttl ∧ lease = ⟨domain,ip,now+ttl⟩) ∧
    (ip.isGlobalIpv4 = true → (lifetimes records ip).Nonempty →
      ∃ lease, (replacement domain now records).get? ip = some lease) := by
  induction records using List.reverseRecOn with
  | nil => simp [replacement,lifetimes]
  | append_singleton records r ih =>
    obtain ⟨hsome,hall⟩ := ih
    rw [replacement_append,lifetimes_append]
    split_ifs with hr hip hip
    · obtain ⟨ht,rfl⟩ := hip
      rw [Dict.get?_set_self]
      refine ⟨?_,fun _ _ => ⟨_,rfl⟩⟩
      rintro lease hl
      cases hl
      refine ⟨hr.2,?_⟩
      cases hprev : (replacement domain now records).get? r.1 with
      | none =>
        have hempty : lifetimes records r.1 = ∅ := by
          by_contra hne
          obtain ⟨lease,hl⟩ := hall hr.2 (Set.nonempty_iff_ne_empty.mpr hne)
          rw [hprev] at hl
          cases hl
        rw [hempty]
        exact ⟨r.2,by simp,rfl⟩
      | some previous =>
        obtain ⟨-,ttl,hleast,rfl⟩ := hsome previous hprev
        refine ⟨min r.2 ttl,hleast.insert r.2,?_⟩
        dsimp only
        rw [Int.cast_min,min_add_add_left]
    · have hne : r.1 ≠ ip := fun he => hip ⟨hr.1,he⟩
      rw [Dict.get?_set_of_ne _ _ hne.symm]
      exact ⟨hsome,hall⟩
    · have hng : ¬r.1.isGlobalIpv4 = true := fun hg => hr ⟨hip.1,hg⟩
      obtain ⟨-,rfl⟩ := hip
      refine ⟨?_,fun hg => absurd hg hng⟩
      intro lease hl
      exact absurd (hsome lease hl).1 hng
    · exact ⟨hsome,hall⟩

theorem replacement_get?_eq_some {domain : String} {now : ℚ} {records : List (Addr × ℤ)} {ip : Addr}
    {lease : Lease} : (replacement domain now records).get? ip = some lease ↔
      ip.isGlobalIpv4 = true ∧ ∃ ttl : ℤ, IsLeast (lifetimes records ip) ttl ∧
        lease = ⟨domain,ip,now+ttl⟩ := by
  obtain ⟨hsome,hall⟩ := replacement_inv domain now records ip
  constructor
  · exact hsome lease
  · rintro ⟨hg,ttl,hleast,rfl⟩
    obtain ⟨lease,hl⟩ := hall hg hleast.nonempty
    obtain ⟨-,ttl',hleast',rfl⟩ := hsome lease hl
    rw [hl,hleast'.unique hleast]

/-- The lease of the domain `d` for `ip`, expired or not. -/
def leaseAt (s : EgressPolicy) (d : String) (ip : Addr) : Option Lease :=
  (s.leases.get? d).bind fun table => table.get? ip

/-- Nothing is granted, and only what has expired is forgotten. -/
structure Retains (s s' : EgressPolicy) : Prop where
  cfg : s'.cfg = s.cfg
  closed : s'.closed = s.closed
  egressSuspended : s'.egressSuspended = s.egressSuspended
  now : s.now ≤ s'.now
  leased : ∀ d ip lease, s'.leaseAt d ip = some lease → s.leaseAt d ip = some lease
  leaseKept : ∀ d ip lease, s.leaseAt d ip = some lease → s'.now < lease.expiresAt →
    s'.leaseAt d ip = some lease
  aliased : ∀ q entry, s'.aliases.get? q = some entry → s.aliases.get? q = some entry
  aliasKept : ∀ q entry, s.aliases.get? q = some entry → s'.now < entry.2 →
    s'.aliases.get? q = some entry

namespace Retains

variable {s s' s'' : EgressPolicy}

theorem of_eq (hcfg : s'.cfg = s.cfg) (hclosed : s'.closed = s.closed)
    (hsuspended : s'.egressSuspended = s.egressSuspended) (hnow : s.now ≤ s'.now)
    (hleases : s'.leases = s.leases) (haliases : s'.aliases = s.aliases) : Retains s s' where
  cfg := hcfg
  closed := hclosed
  egressSuspended := hsuspended
  now := hnow
  leased d ip lease h := by rwa [leaseAt,hleases] at h
  leaseKept d ip lease h _ := by rwa [leaseAt,hleases]
  aliased q entry h := by rwa [haliases] at h
  aliasKept q entry h _ := by rwa [haliases]

theorem refl (s : EgressPolicy) : Retains s s := of_eq rfl rfl rfl le_rfl rfl rfl

theorem trans (h : Retains s s') (h' : Retains s' s'') : Retains s s'' where
  cfg := h'.cfg.trans h.cfg
  closed := h'.closed.trans h.closed
  egressSuspended := h'.egressSuspended.trans h.egressSuspended
  now := h.now.trans h'.now
  leased d ip lease hl := h.leased d ip lease (h'.leased d ip lease hl)
  leaseKept d ip lease hl hn :=
    h'.leaseKept d ip lease (h.leaseKept d ip lease hl (h'.now.trans_lt hn)) hn
  aliased q entry ha := h.aliased q entry (h'.aliased q entry ha)
  aliasKept q entry ha hn :=
    h'.aliasKept q entry (h.aliasKept q entry ha (h'.now.trans_lt hn)) hn

theorem ticked (s : EgressPolicy) : Retains s s.ticked :=
  of_eq rfl rfl rfl s.clock.now_le_next rfl rfl

theorem leaseAt_cleanup {now : ℚ} {d : String} {ip : Addr} {lease : Lease} :
    (s.cleanupLocked now).leaseAt d ip = some lease ↔
      s.leaseAt d ip = some lease ∧ now < lease.expiresAt := by
  rw [leaseAt,leaseAt,cleanupLocked_leases,Dict.get?_mapValues]
  cases s.leases.get? d with
  | none => simp
  | some table => simp [Dict.get?_filter_eq_some]

theorem cleanup {now : ℚ} (h : now ≤ s.now) : Retains s (s.cleanupLocked now) where
  cfg := rfl
  closed := rfl
  egressSuspended := rfl
  now := le_rfl
  leased d ip lease hl := (leaseAt_cleanup.mp hl).1
  leaseKept d ip lease hl hn := leaseAt_cleanup.mpr ⟨hl,h.trans_lt hn⟩
  aliased q entry ha := by
    rw [cleanupLocked_aliases,Dict.get?_filter_eq_some] at ha
    exact ha.1
  aliasKept q entry ha hn := by
    rw [cleanupLocked_aliases,Dict.get?_filter_eq_some]
    exact ⟨ha,decide_eq_true (h.trans_lt hn)⟩

theorem after_cleanup {now : ℚ} (h : now ≤ s.now) (hcfg : s'.cfg = s.cfg)
    (hclosed : s'.closed = s.closed) (hsuspended : s'.egressSuspended = s.egressSuspended)
    (hclock : s'.clock = s.clock) (hleases : s'.leases = (s.cleanupLocked now).leases)
    (haliases : s'.aliases = (s.cleanupLocked now).aliases) : Retains s s' := by
  have hnow : s.now ≤ s'.now := by rw [EgressPolicy.now,EgressPolicy.now,hclock]
  exact (cleanup h).trans (of_eq hcfg hclosed hsuspended hnow hleases haliases)

end Retains

end EgressPolicy

namespace PolicySection

/-- The sections that neither grant names or leases nor shut the policy. -/
def isPassive : PolicySection → Bool
  | updateLocalIpv4 _ | suspend | registerAlias _ _ _ | replaceLeases _ _ | close => false
  | _ => true

/-- The reading that a section brings was taken before the section. -/
def Timely (s : EgressPolicy) : PolicySection → Prop
  | resolveDnsRule _ now | leaseFor _ now | matchControlFlow _ now
  | createRelayMapping _ _ _ _ _ _ _ now | matchForward _ now | matchReverse _ now
  | consumeRelayTarget _ now => now ≤ s.now
  | _ => True

open EgressPolicy

theorem matchNatLocked_retains {s : EgressPolicy} (table : RelayNat → Dict FlowKey RelayNatMapping)
    (key : FlowKey) {now : ℚ} (h : now ≤ s.now) : Retains s (matchNatLocked table key now s).2 := by
  unfold matchNatLocked
  split_ifs
  · exact .refl s
  · dsimp only
    split
    · exact .cleanup h
    · split_ifs <;> exact .after_cleanup h rfl rfl rfl rfl rfl rfl

theorem retains (sec : PolicySection) (s : EgressPolicy) (hp : sec.isPassive = true)
    (ht : sec.Timely s) : Retains s (sec.apply s) := by
  have hnext : s.now ≤ s.ticked.now := s.clock.now_le_next
  cases sec with
  | tick => exact .ticked s
  | activateRoutes prepared =>
    simp only [apply,activateRoutesLocked]
    split
    · exact .refl s
    · split_ifs <;> exact .of_eq rfl rfl rfl le_rfl rfl rfl
  | suspendTakeover reason =>
    simp only [apply,EgressPolicy.suspendTakeover]
    split_ifs <;> exact .of_eq rfl rfl rfl le_rfl rfl rfl
  | resolveDnsRule qname now =>
    simp only [apply,resolveDnsRuleLocked]
    split_ifs <;> exact .cleanup ht
  | leaseFor ip now =>
    simp only [apply,leaseForLocked]
    split_ifs
    · exact .refl s
    · exact .cleanup ht
  | relayFlow proto dstIp dport domain generation =>
    have htick : Retains s (s.ticked.cleanupLocked s.now) := (Retains.ticked s).trans (.cleanup hnext)
    simp only [apply,relayFlowLocked]
    split
    · exact .refl s
    · split
      · exact htick
      · split_ifs <;> exact htick
  | fileControlFlow kind key domain relay generation token expires =>
    simp only [apply,fileControlFlowLocked]
    split
    · exact .refl s
    · split_ifs <;> exact .of_eq rfl rfl rfl le_rfl rfl rfl
  | matchControlFlow key now =>
    simp only [apply,matchControlFlowLocked]
    split_ifs
    · exact .refl s
    · split
      · exact .cleanup ht
      · split_ifs <;> exact .after_cleanup ht rfl rfl rfl rfl rfl rfl
  | revokeControlFlow token =>
    simp only [apply,revokeControlFlowLocked]
    split <;> exact .of_eq rfl rfl rfl le_rfl rfl rfl
  | createRelayMapping lease sampleIp samplePort serverIp serverPort relayIp relayPort now =>
    simp only [apply,createRelayMappingLocked]
    split
    · exact .refl s
    · split
      · exact .cleanup ht
      · split_ifs <;> exact .after_cleanup ht rfl rfl rfl rfl rfl rfl
  | matchForward key now => exact matchNatLocked_retains _ key ht
  | matchReverse key now => exact matchNatLocked_retains _ key ht
  | consumeRelayTarget key now =>
    simp only [apply,consumeRelayTargetLocked]
    split
    · exact .cleanup ht
    · split_ifs <;> exact .after_cleanup ht rfl rfl rfl rfl rfl rfl
  | activateRelayMapping generation =>
    simp only [apply,activateRelayMappingLocked]
    split
    · exact .refl s
    · split_ifs
      · exact .refl s
      · exact .refl s
      · exact .refl s
      · exact .of_eq rfl rfl rfl hnext rfl rfl
  | closeRelayMapping generation grace =>
    simp only [apply,closeRelayMappingLocked]
    split
    · exact .refl s
    · split_ifs <;> exact .of_eq rfl rfl rfl hnext rfl rfl
  | drainExpiredLeases =>
    exact ((Retains.ticked s).trans (.cleanup hnext)).trans (.of_eq rfl rfl rfl le_rfl rfl rfl)
  | updateLocalIpv4 _ => cases hp
  | suspend => cases hp
  | registerAlias _ _ _ => cases hp
  | replaceLeases _ _ => cases hp
  | close => cases hp

theorem tick_retains (sec : PolicySection) (s : EgressPolicy) (hp : sec.isPassive = true)
    (ht : sec.Timely s.ticked) : Retains s (sec.apply s.ticked) :=
  (Retains.ticked s).trans (sec.retains s.ticked hp ht)

end PolicySection

namespace PolicyCall

open EgressPolicy

/-- The calls that neither grant names or leases nor shut the policy. -/
def isPassive : PolicyCall → Bool
  | updateLocalIpv4 _ | suspend | registerAlias _ _ _ | replaceLeases _ _ | close => false
  | _ => true

theorem retains_of_uses (c : PolicyCall) (s : EgressPolicy)
    (h : ∀ sec, c.Uses sec → sec.isPassive = true ∧ ∀ s, sec.Timely s) :
    Retains s (c.body.run s).2 := by
  have hkeep := c.body_keeps (I:=Retains s) fun sec hu s' hs' =>
    hs'.trans (sec.retains s' (h sec hu).1 ((h sec hu).2 s'))
  exact (hkeep.ensures.run (.refl s)).1

theorem leaseFor_retains (ip : Addr) (port : ℕ) (s : EgressPolicy) :
    Retains s ((EgressPolicy.leaseFor ip port).run s).2 := by
  rw [leaseFor_run]
  split_ifs
  · exact PolicySection.tick_retains (.leaseFor ip s.now) s rfl s.clock.now_le_next
  · exact .refl s

theorem createRelayMapping_retains (sampleIp : Addr) (samplePort : ℕ) (serverIp : Addr)
    (serverPort : ℕ) (relayIp : Addr) (relayPort : ℕ) (s : EgressPolicy) : Retains s
      ((EgressPolicy.createRelayMapping sampleIp samplePort serverIp serverPort relayIp
        relayPort).run s).2 := by
  have hlease := leaseFor_retains serverIp serverPort s
  unfold EgressPolicy.createRelayMapping
  simp only [Prog.bind_eq,Prog.run_bind]
  rcases hl : (EgressPolicy.leaseFor serverIp serverPort).run s with ⟨_ | lease,s₁⟩
  · rw [hl] at hlease
    exact hlease
  · rw [hl] at hlease
    simp only [Prog.run_bind,Prog.run_read]
    by_cases hs : s₁.isExactLocalIpv4 sampleIp = true
    · by_cases hr : s₁.isExactLocalIpv4 relayIp = true
      · by_cases hp : relayPort = s₁.cfg.relayPort
        · simp only [hs,hr,hp,Bool.not_true,Bool.false_eq_true,if_false,Prog.run_bind,Prog.run_read,
            ne_eq,not_true_eq_false]
          exact hlease.trans (PolicySection.tick_retains (.createRelayMapping lease sampleIp
            samplePort serverIp serverPort relayIp _ s₁.now) s₁ rfl s₁.clock.now_le_next)
        · simpa [hs,hr,hp] using hlease
      · simpa [hs,hr] using hlease
    · simpa [hs] using hlease

theorem retains (c : PolicyCall) (s : EgressPolicy) (hc : c.isPassive = true) :
    Retains s (c.body.run s).2 := by
  have hnext : s.now ≤ s.ticked.now := s.clock.now_le_next
  cases c with
  | activateReviewedIpRoutes bindings =>
    apply retains_of_uses
    rintro sec ⟨prepared,rfl⟩
    exact ⟨rfl,fun _ => trivial⟩
  | matchReviewedIp packet => exact .refl s
  | suspendTakeover reason => exact PolicySection.retains (.suspendTakeover reason) s rfl trivial
  | takeoverAvailable => exact .refl s
  | matchesTakeoverSink key => exact .refl s
  | isExactLocalIpv4 value => exact .refl s
  | resolveDnsRule qname =>
    simp only [body,EgressPolicy.resolveDnsRule,Prog.bind_eq,Prog.run_bind,Prog.run_read]
    split
    · exact .refl s
    · exact PolicySection.tick_retains (.resolveDnsRule _ s.now) s rfl hnext
  | leaseFor ip port =>
    rw [body,mapReply_run]
    exact leaseFor_retains ip port s
  | registerControlFlow kind key domain ttl generation token =>
    apply retains_of_uses
    rintro sec (rfl | ⟨domain,rfl⟩ | ⟨kind,domain,relay,g,token,expires,rfl⟩)
    all_goals exact ⟨rfl,fun _ => trivial⟩
  | matchControlFlow key =>
    exact PolicySection.tick_retains (.matchControlFlow key s.now) s rfl hnext
  | revokeControlFlow token => exact PolicySection.retains (.revokeControlFlow token) s rfl trivial
  | createRelayMapping sampleIp samplePort serverIp serverPort relayIp relayPort =>
    rw [body,mapReply_run]
    exact createRelayMapping_retains sampleIp samplePort serverIp serverPort relayIp relayPort s
  | matchRelayForward key => exact PolicySection.tick_retains (.matchForward key s.now) s rfl hnext
  | matchRelayReverse key => exact PolicySection.tick_retains (.matchReverse key s.now) s rfl hnext
  | consumeRelayTarget sampleIp samplePort =>
    exact PolicySection.tick_retains (.consumeRelayTarget (sampleIp,samplePort) s.now) s rfl hnext
  | activateRelayMapping generation =>
    exact PolicySection.retains (.activateRelayMapping generation) s rfl trivial
  | relayClientMappingState sampleIp samplePort => exact .ticked s
  | relayClientMappingActive sampleIp samplePort => exact .ticked s
  | closeRelayMapping generation grace =>
    exact PolicySection.retains (.closeRelayMapping generation grace) s rfl trivial
  | drainExpiredLeases => exact PolicySection.retains .drainExpiredLeases s rfl trivial
  | updateLocalIpv4 _ => cases hc
  | suspend => cases hc
  | registerAlias _ _ _ => cases hc
  | replaceLeases _ _ => cases hc
  | close => cases hc

end PolicyCall

namespace EgressPolicy

theorem registerAlias_run (domain aliasName : String) (ttl : ℤ) (s : EgressPolicy) :
    (registerAlias domain aliasName ttl).run s =
      match Hostname.normalizeHostname s.cfg.idna domain,
        Hostname.normalizeHostname s.cfg.idna aliasName with
      | .error e, _ => (.raised e,s)
      | _, .error e => (.raised e,s)
      | .ok root, .ok q =>
        if (s.cfg.matchAllowedDomain root).isNone || ttl ≤ 0 then (.bool false,s)
        else registerAliasLocked root q ttl s := by
  have hread : (registerAlias domain aliasName ttl).run s =
      (match Hostname.normalizeHostname s.cfg.idna domain,
        Hostname.normalizeHostname s.cfg.idna aliasName with
      | .error e, _ => (Prog.done (.raised e) : Prog EgressPolicy Reply)
      | _, .error e => .done (.raised e)
      | .ok root, .ok q =>
        if (s.cfg.matchAllowedDomain root).isNone || ttl ≤ 0 then .done (.bool false)
        else .locked (registerAliasLocked root q ttl)).run s := rfl
  rw [hread]
  split
  · rfl
  · rfl
  · split_ifs <;> rfl

theorem replaceLeases_run (domain : String) (records : List (Addr × ℤ)) (s : EgressPolicy) :
    (replaceLeases domain records).run s =
      match Hostname.normalizeHostname s.cfg.idna domain with
      | .error e => (.raised e,s)
      | .ok d =>
        if (s.cfg.matchAllowedDomain d).isNone then
          (.raised (.value "lease domain is not allowed"),s)
        else replaceLeasesLocked d (replacement d s.now records) s.ticked := by
  have hread : (replaceLeases domain records).run s =
      (match Hostname.normalizeHostname s.cfg.idna domain with
      | .error e => (Prog.done (.raised e) : Prog EgressPolicy Reply)
      | .ok d =>
        if (s.cfg.matchAllowedDomain d).isNone then
          .done (.raised (.value "lease domain is not allowed"))
        else readClock.bind fun now =>
          .locked (replaceLeasesLocked d (replacement d now records))).run s := rfl
  rw [hread]
  split
  · rfl
  · split_ifs <;> rfl

theorem registerAlias_run_cases (domain aliasName : String) (ttl : ℤ) (s : EgressPolicy) :
    (((registerAlias domain aliasName ttl).run s).1 ≠ .bool true ∧
      ((registerAlias domain aliasName ttl).run s).2 = s) ∨
    ∃ root q, Hostname.normalizeHostname s.cfg.idna domain = .ok root ∧
      Hostname.normalizeHostname s.cfg.idna aliasName = .ok q ∧
      (s.cfg.matchAllowedDomain root).isSome = true ∧ s.ensureOpen = none ∧
      (registerAlias domain aliasName ttl).run s =
        (.bool true,{ s.ticked with aliases := s.aliases.set q (root,s.now+ttl) }) := by
  rw [registerAlias_run]
  split
  · exact .inl ⟨by simp,rfl⟩
  · exact .inl ⟨by simp,rfl⟩
  · rename_i root q hroot hq
    split_ifs with hc
    · exact .inl ⟨by simp,rfl⟩
    · simp only [Bool.or_eq_true,decide_eq_true_eq,not_or,Option.isNone_iff_eq_none] at hc
      simp only [registerAliasLocked]
      cases hopen : s.ensureOpen with
      | some e => exact .inl ⟨by simp,rfl⟩
      | none => exact .inr ⟨root,q,hroot,hq,Option.isSome_iff_ne_none.mpr hc.1,rfl,rfl⟩

/-- A call of `replace_leases` has no effect, or replaces the leases of one domain and
drops the aliases for it. -/
theorem replaceLeases_run_cases (domain : String) (records : List (Addr × ℤ)) (s : EgressPolicy) :
    ((∀ ips, ((replaceLeases domain records).run s).1 ≠ .addresses ips) ∧
      Retains s ((replaceLeases domain records).run s).2) ∨
    ∃ d ips, Hostname.normalizeHostname s.cfg.idna domain = .ok d ∧ s.ensureOpen = none ∧
      (replaceLeases domain records).run s = (.addresses ips,
        { s.ticked with
          leases := s.leases.set d (replacement d s.now records)
          aliases := s.aliases.filter fun _ entry => entry.1 ≠ d }) := by
  rw [replaceLeases_run]
  split
  · exact .inl ⟨by simp,.refl s⟩
  · rename_i d hd
    split_ifs
    · exact .inl ⟨by simp,.refl s⟩
    · have hopen : s.ticked.ensureOpen = s.ensureOpen := rfl
      simp only [replaceLeasesLocked,hopen]
      cases s.ensureOpen with
      | some e => exact .inl ⟨by simp,.ticked s⟩
      | none => exact .inr ⟨d,_,hd,rfl,rfl⟩

theorem ensureOpen_eq_none {s : EgressPolicy} (h : s.ensureOpen = none) :
    s.closed = false ∧ s.egressSuspended = false := by
  unfold ensureOpen at h
  split_ifs at h with hc hs
  exact ⟨by simpa using hc,by simpa using hs⟩

end EgressPolicy

open EgressPolicy in
theorem PolicySection.apply_cfg (sec : PolicySection) (s : EgressPolicy) :
    (sec.apply s).cfg = s.cfg := by
  by_cases hc : sec.isControl = false
  · exact (sec.sameControl s hc).cfg
  · cases sec with
    | updateLocalIpv4 addresses =>
      rcases updateLocalIpv4Locked_cases addresses s with hu | ⟨-,hu⟩
      · rw [apply,hu]
        rfl
      · exact hu.cfg
    | activateRoutes prepared =>
      simp only [apply,activateRoutesLocked]
      split
      · rfl
      · split_ifs <;> rfl
    | suspendTakeover reason =>
      simp only [apply,EgressPolicy.suspendTakeover]
      split_ifs <;> rfl
    | suspend => rfl
    | close => rfl
    | _ => exact absurd rfl hc

theorem PolicyCall.run_cfg (c : PolicyCall) (s : EgressPolicy) : (c.body.run s).2.cfg = s.cfg := by
  have hkeep := c.body_keeps (I:=fun s' => s'.cfg = s.cfg) fun sec _ s' hs' => by
    rw [sec.apply_cfg,hs']
  exact (hkeep.ensures.run rfl).1

end FakeNetNG
