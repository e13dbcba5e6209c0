import FakeNetNG.PolicyOperations

/-!
# The SNI decision of the relay

`create_relay_mapping` fixes the domain of a connection when its SYN is seen, from the
first domain in dictionary order that holds a lease for the address. The relay compares
the server name of the ClientHello with that domain once the hello has arrived. The two
agree on every name exactly while no second domain holds a lease for the same address.
-/

namespace FakeNetNG

/-- The check of `_handle_client` on the server name of a parsed ClientHello. -/
def RelayNatMapping.checkSni (mapping : RelayNatMapping) (sni : String) : Except String Unit :=
  if sni ≠ mapping.domain then .error "SNI does not match mapped domain" else .ok ()

theorem RelayNatMapping.checkSni_ok_iff (mapping : RelayNatMapping) (sni : String) :
    mapping.checkSni sni = .ok () ↔ sni = mapping.domain := by
  unfold checkSni
  by_cases h : sni = mapping.domain <;> simp [h]

namespace EgressPolicy

variable {s : EgressPolicy}

def leaseHolders (s : EgressPolicy) (ip : Addr) (now : ℚ) : List String :=
  (s.leases.entries.filter fun e =>
    ((e.2.get? ip).filter fun lease => now < lease.expiresAt).isSome).map Prod.fst

theorem mem_leaseHolders_iff {ip : Addr} {now : ℚ} {domain : String} :
    domain ∈ s.leaseHolders ip now ↔ ∃ leases lease, s.leases.get? domain = some leases ∧
      leases.get? ip = some lease ∧ now < lease.expiresAt := by
  simp only [leaseHolders,List.mem_map,List.mem_filter,Option.isSome_iff_exists,
    Option.filter_eq_some_iff,decide_eq_true_eq,Prod.exists,exists_and_right,exists_eq_right,
    Dict.get?_eq_some_iff]
  constructor
  · rintro ⟨leases,hm,lease,hl,ht⟩
    exact ⟨leases,lease,hm,hl,ht⟩
  · rintro ⟨leases,lease,hm,hl,ht⟩
    exact ⟨leases,hm,lease,hl,ht⟩

theorem leaseHolders_cleanupLocked {ip : Addr} {now later : ℚ} (h : now ≤ later) (domain : String) :
    domain ∈ (s.cleanupLocked now).leaseHolders ip later ↔ domain ∈ s.leaseHolders ip later := by
  rw [mem_leaseHolders_iff,mem_leaseHolders_iff]
  simp only [cleanupLocked_leases,Dict.get?_mapValues,Option.map_eq_some_iff]
  constructor
  · rintro ⟨_,lease,⟨leases,hd,rfl⟩,hl,ht⟩
    rw [Dict.get?_filter_eq_some] at hl
    exact ⟨leases,lease,hd,hl.1,ht⟩
  · rintro ⟨leases,lease,hd,hl,ht⟩
    have hlive : (leases.filter fun _ lease => now < lease.expiresAt).get? ip = some lease := by
      rw [Dict.get?_filter_eq_some]
      exact ⟨hl,by simpa using lt_of_le_of_lt h ht⟩
    exact ⟨_,lease,⟨leases,hd,rfl⟩,hlive,ht⟩

theorem createRelayMappingLocked_domain {lease : Lease} {sampleIp : Addr} {samplePort : ℕ}
    {serverIp : Addr} {serverPort : ℕ} {relayIp : Addr} {relayPort : ℕ} {now : ℚ}
    {m : RelayNatMapping}
    (h : (createRelayMappingLocked lease sampleIp samplePort serverIp serverPort relayIp relayPort
      now s).1 = .ok m) : m.domain ∈ s.leaseHolders serverIp now := by
  unfold createRelayMappingLocked at h
  split at h
  · cases h
  · dsimp only at h
    split at h
    · cases h
    · rename_i current hlease
      obtain ⟨leases,hd,hl⟩ := Option.bind_eq_some_iff.mp hlease
      split_ifs at h with hexp
      cases h
      rw [← leaseHolders_cleanupLocked le_rfl,mem_leaseHolders_iff]
      exact ⟨leases,current,hd,hl,not_le.mp hexp⟩

theorem createRelayMapping_domain {sampleIp : Addr} {samplePort : ℕ} {serverIp : Addr}
    {serverPort : ℕ} {relayIp : Addr} {relayPort : ℕ} {m : RelayNatMapping}
    (h : ((createRelayMapping sampleIp samplePort serverIp serverPort relayIp relayPort).run s).1 =
      .ok m) : m.domain ∈ s.leaseHolders serverIp s.clock.next.now := by
  obtain ⟨lease,s₁,hlease,-,-,-,hrun⟩ := createRelayMapping_run_ok h
  rw [hrun] at h
  have hdomain := createRelayMappingLocked_domain h
  rw [leaseFor_run] at hlease
  split_ifs at hlease
  · unfold leaseForLocked at hlease
    split_ifs at hlease
    · cases hlease
    · obtain ⟨-,rfl⟩ := Prod.mk.inj hlease
      have hlater : s.now ≤ s.clock.next.now := s.clock.now_le_next
      exact (leaseHolders_cleanupLocked (s:=s.ticked) hlater m.domain).mp hdomain
  · cases hlease

end EgressPolicy

/-- The relay accepts exactly the names that hold a lease for the address of a mapped
connection if and only if a single domain holds one. -/
theorem sni_exact_iff_one_holder (s : EgressPolicy) (sampleIp : Addr) (samplePort : ℕ) (ip : Addr)
    (relayIp : Addr) (relayPort : ℕ) (m : RelayNatMapping)
    (h : ((EgressPolicy.createRelayMapping sampleIp samplePort ip 443 relayIp relayPort).run s).1 =
      .ok m) :
    (∀ d, m.checkSni d = .ok () ↔ d ∈ s.leaseHolders ip s.clock.next.now) ↔
      ∀ d ∈ s.leaseHolders ip s.clock.next.now, ∀ d' ∈ s.leaseHolders ip s.clock.next.now,
        d = d' := by
  have hm := EgressPolicy.createRelayMapping_domain h
  simp only [RelayNatMapping.checkSni_ok_iff]
  constructor
  · intro hexact d hd d' hd'
    rw [(hexact d).mpr hd,(hexact d').mpr hd']
  · intro hone d
    constructor
    · rintro rfl
      exact hm
    · intro hd
      exact hone d hd m.domain hm

/-- The policy of two domains after the first resolved to 93.184.216.34 and the second to
`ip`. -/
def EgressPolicy.resolved (ip : Addr) : EgressPolicy :=
  Prog.runAll PolicyCall.body (.init .twoDomains [.dotted 10 0 0 5] (Clock.every 1))
    [.replaceLeases "a.test" [(.dotted 93 184 216 34,60)],.replaceLeases "b.test" [(ip,60)]]

def RelayNatMapping.firstClient : RelayNatMapping :=
  ⟨1,"a.test",.dotted 10 0 0 5,50000,.dotted 93 184 216 34,443,.dotted 10 0 0 5,8443,3⟩

/-- Two domains on two addresses: the mapped name is the one that is accepted. -/
theorem sni_exact_iff_one_holder_separate :
    (RelayNatMapping.firstClient.checkSni "a.test" = .ok () ↔
      "a.test" ∈ (EgressPolicy.resolved (.dotted 93 184 216 35)).leaseHolders (.dotted 93 184 216 34)
        (EgressPolicy.resolved (.dotted 93 184 216 35)).clock.next.now) ∧
      (RelayNatMapping.firstClient.checkSni "b.test" = .ok () ↔
        "b.test" ∈ (EgressPolicy.resolved (.dotted 93 184 216 35)).leaseHolders
          (.dotted 93 184 216 34)
          (EgressPolicy.resolved (.dotted 93 184 216 35)).clock.next.now) := by
  have hexact := (sni_exact_iff_one_holder (.resolved (.dotted 93 184 216 35)) (.dotted 10 0 0 5)
    50000 (.dotted 93 184 216 34) (.dotted 10 0 0 5) 8443 .firstClient (by decide +kernel)).mpr
    (by decide +kernel)
  exact ⟨hexact "a.test",hexact "b.test"⟩

/-- Both domains resolve to one address: the second is refused although it holds a lease. -/
theorem shared_address_denies_second_domain :
    ((EgressPolicy.createRelayMapping (.dotted 10 0 0 5) 50000 (.dotted 93 184 216 34) 443
        (.dotted 10 0 0 5) 8443).run (.resolved (.dotted 93 184 216 34))).1 = .ok .firstClient ∧
      "b.test" ∈ (EgressPolicy.resolved (.dotted 93 184 216 34)).leaseHolders
        (.dotted 93 184 216 34) (EgressPolicy.resolved (.dotted 93 184 216 34)).clock.next.now ∧
      RelayNatMapping.firstClient.checkSni "b.test" = .error "SNI does not match mapped domain" := by
  decide +kernel

end FakeNetNG
