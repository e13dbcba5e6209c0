import FakeNetNG.DnsHistory
import FakeNetNG.DnsValidation

/-!
# Addresses told and addresses leased

The listener filters answers with `ip.is_global` and the policy installs leases for
`is_global_ipv4`. What the sample is told is leased exactly when the two agree on the
addresses of the answer; nothing is leased that the sample is not told.
-/

namespace FakeNetNG

namespace EgressPolicy

variable {s s' : EgressPolicy}

def Sheds (s s' : EgressPolicy) : Prop :=
  ∀ d ip lease, s'.leaseAt d ip = some lease → s.leaseAt d ip = some lease

namespace Sheds

theorem of_eq (h : s'.leases = s.leases) : Sheds s s' := by
  intro d ip lease hl
  rwa [leaseAt,h] at hl

theorem clean (now : ℚ) (h : s'.leases = (s.cleanupLocked now).leases) : Sheds s s' := by
  intro d ip lease hl
  rw [leaseAt,h] at hl
  exact (Retains.leaseAt_cleanup.mp hl).1

theorem of_none (h : ∀ d ip, s'.leaseAt d ip = none) : Sheds s s' := by
  intro d ip lease hl
  rw [h] at hl
  cases hl

end Sheds

theorem leaseAt_clearTables (s : EgressPolicy) (d : String) (ip : Addr) :
    s.clearTables.leaseAt d ip = none := by
  refine Option.eq_none_iff_forall_ne_some.mpr fun lease hl => ?_
  obtain ⟨table,ht,hl⟩ := Option.bind_eq_some_iff.mp hl
  rw [emptyLeases_get? _ _ _ ht] at hl
  cases hl

theorem matchNatLocked_sheds (table : RelayNat → Dict FlowKey RelayNatMapping) (key : FlowKey)
    (now : ℚ) (s : EgressPolicy) : Sheds s (matchNatLocked table key now s).2 := by
  unfold matchNatLocked
  split_ifs
  · exact .of_eq rfl
  · dsimp only
    split
    · exact .clean now rfl
    · split_ifs <;> exact .clean now rfl

end EgressPolicy

open EgressPolicy in
theorem PolicySection.sheds (sec : PolicySection) (s : EgressPolicy)
    (h : ∀ d r, sec ≠ .replaceLeases d r) : Sheds s (sec.apply s) := by
  cases sec with
  | tick => exact .of_eq rfl
  | updateLocalIpv4 addresses =>
    rcases updateLocalIpv4Locked_cases addresses s with hu | ⟨-,hu⟩
    · rw [apply,hu]
      exact .of_none fun d ip => leaseAt_clearTables _ d ip
    · exact .of_eq hu.leases
  | activateRoutes prepared =>
    simp only [apply,activateRoutesLocked]
    split
    · exact .of_eq rfl
    · split_ifs <;> exact .of_eq rfl
  | suspendTakeover reason =>
    simp only [apply,EgressPolicy.suspendTakeover]
    split_ifs <;> exact .of_eq rfl
  | suspend => exact .of_none fun d ip => leaseAt_clearTables _ d ip
  | resolveDnsRule qname now =>
    simp only [apply,resolveDnsRuleLocked]
    split_ifs <;> exact .clean now rfl
  | registerAlias domain aliasName ttl =>
    simp only [apply,registerAliasLocked]
    split <;> exact .of_eq rfl
  | replaceLeases domain replacement => exact absurd rfl (h domain replacement)
  | leaseFor ip now =>
    simp only [apply,leaseForLocked]
    split_ifs
    · exact .of_eq rfl
    · exact .clean now rfl
  | relayFlow proto dstIp dport domain generation =>
    have hclean : Sheds s (s.ticked.cleanupLocked s.now) := .clean s.now rfl
    simp only [apply,relayFlowLocked]
    split
    · exact .of_eq rfl
    · split
      · exact hclean
      · split_ifs <;> exact hclean
  | fileControlFlow kind key domain relay generation token expires =>
    simp only [apply,fileControlFlowLocked]
    split
    · exact .of_eq rfl
    · split_ifs <;> exact .of_eq rfl
  | matchControlFlow key now =>
    simp only [apply,matchControlFlowLocked]
    split_ifs
    · exact .of_eq rfl
    · split
      · exact .clean now rfl
      · split_ifs <;> exact .clean now rfl
  | revokeControlFlow token =>
    simp only [apply,revokeControlFlowLocked]
    split <;> exact .of_eq rfl
  | createRelayMapping lease sampleIp samplePort serverIp serverPort relayIp relayPort now =>
    simp only [apply,createRelayMappingLocked]
    split
    · exact .of_eq rfl
    · split
      · exact .clean now rfl
      · split_ifs <;> exact .clean now rfl
  | matchForward key now => exact matchNatLocked_sheds _ key now s
  | matchReverse key now => exact matchNatLocked_sheds _ key now s
  | consumeRelayTarget key now =>
    simp only [apply,consumeRelayTargetLocked]
    split
    · exact .clean now rfl
    · split_ifs <;> exact .clean now rfl
  | activateRelayMapping generation =>
    simp only [apply,activateRelayMappingLocked]
    split
    · exact .of_eq rfl
    · split_ifs <;> exact .of_eq rfl
  | closeRelayMapping generation grace =>
    simp only [apply,closeRelayMappingLocked]
    split
    · exact .of_eq rfl
    · split_ifs <;> exact .of_eq rfl
  | drainExpiredLeases => exact .clean s.now rfl
  | close => exact .of_none fun d ip => leaseAt_clearTables _ d ip

namespace EgressPolicy

/-- Every leased address is global and none of the special blocks. -/
def Reviewed (s : EgressPolicy) : Prop :=
  ∀ d ip lease, s.leaseAt d ip = some lease → ip.isGlobalIpv4 = true

theorem Reviewed.sheds {s s' : EgressPolicy} (hs : s.Reviewed) (h : Sheds s s') : s'.Reviewed :=
  fun d ip lease hl => hs d ip lease (h d ip lease hl)

theorem leaseAt_set {d : String} {table : Dict Addr Lease} {s s' : EgressPolicy}
    (h : s'.leases = s.leases.set d table) (d' : String) (ip : Addr) :
    s'.leaseAt d' ip = if d' = d then table.get? ip else s.leaseAt d' ip := by
  rw [leaseAt,h,Dict.get?_set]
  split_ifs <;> rfl

theorem Reviewed.replace {s : EgressPolicy} (hs : s.Reviewed) (d : String) (now : ℚ)
    (records : List (Addr × ℤ)) :
    (replaceLeasesLocked d (replacement d now records) s).2.Reviewed := by
  unfold replaceLeasesLocked
  split
  · exact hs
  · intro d' ip lease hl
    rw [leaseAt_set (s:=s) rfl] at hl
    split_ifs at hl
    · exact (replacement_get?_eq_some.mp hl).1
    · exact hs d' ip lease hl

end EgressPolicy

open EgressPolicy in
theorem PolicyCall.body_reviewed (c : PolicyCall) :
    c.body.Ensures Reviewed fun _ => True := by
  refine Prog.Each.ensures ?_
  by_cases hc : ∃ domain records, c = .replaceLeases domain records
  · obtain ⟨domain,records,rfl⟩ := hc
    refine Prog.Each.bind (Prog.each_read fun s hs => hs) fun cfg => ?_
    split
    · trivial
    · split_ifs
      · trivial
      · exact (Prog.each_locked fun s hs => hs).bind fun now =>
          Prog.each_locked fun s hs => hs.replace _ _ _
  · refine c.body_keeps fun sec hu s hs => hs.sheds (sec.sheds s ?_)
    rintro d r rfl
    cases c with
    | replaceLeases domain records => exact hc ⟨domain,records,rfl⟩
    | _ => simp [Uses] at hu

theorem reviewed_of_steps {cfg : PolicyConfig} {localIpv4 : List Addr} {clock : Clock}
    {allows : Pool EgressPolicy PolicyCall EgressPolicy.Reply → PolicyCall → Prop}
    {P : Pool EgressPolicy PolicyCall EgressPolicy.Reply}
    (h : Pool.Steps PolicyCall.body allows (Pool.start (EgressPolicy.init cfg localIpv4 clock)) P) :
    P.shared.Reviewed := by
  refine (Pool.ensures_steps (fun _ c _ => c.body_reviewed) h ?_ fun t c p ht => by cases ht).1
  intro d ip lease hl
  obtain ⟨table,ht,hl⟩ := Option.bind_eq_some_iff.mp hl
  rw [EgressPolicy.emptyLeases_get? _ _ _ ht] at hl
  cases hl

namespace Dns

open EgressPolicy

/-- The callbacks of the diverter: the policy behind them, and a log that may raise. -/
def policyCallbacks (log : EgressEvent → Except DnsError Unit) : Callbacks EgressPolicy where
  replaceDnsLeases domain records := fun s =>
    match (replaceLeases domain records).run s with
    | (.addresses installed,s) => (.ok installed,s)
    | (.raised e,s) => (.error (.policy e),s)
    | (_,s) => (.ok [],s)
  registerDnsAlias domain name ttl := fun s =>
    match (registerAlias domain name ttl).run s with
    | (.raised e,s) => (.error (.policy e),s)
    | (_,s) => (.ok (),s)
  logEgressEvent event := Fallible.ofExcept (log event)

def told (r : DNSRecord) : List (BitVec 32) :=
  r.rr.filterMap fun rr => match rr.rdata with
    | .a address => some address
    | _ => none

variable {idna : String → Option String} {log : EgressEvent → Except DnsError Unit}
  {reviewed : RuleIds} {request upstream : DNSRecord} {qname allowedRoot : String}
  {s s' : EgressPolicy}

variable (log reviewed allowedRoot) in
theorem logLeases_state (records : List (Addr × ℤ)) (addresses : List Addr) (s : EgressPolicy) :
    (logLeases (policyCallbacks log) reviewed allowedRoot records addresses s).2 = s := by
  have hlog : ∀ event t, Fallible.wp ((policyCallbacks log).logEgressEvent event) (fun _ u => u = t)
      (fun _ u => u = t) t := fun event t => (Fallible.wp_ofExcept _).mpr ⟨fun _ _ => rfl,fun _ _ => rfl⟩
  refine Fallible.final_of_wp (I:=(· = s)) ?_
  induction addresses with
  | nil => simp [logLeases]
  | cons address rest ih =>
    rw [logLeases]
    split
    · simp
    · rw [Fallible.wp_bind]
      refine Fallible.wp_mono (hlog _ s) ?_ fun _ _ h => h
      rintro _ _ rfl
      split
      · exact ih
      · rw [Fallible.wp_bind,Fallible.wp_tryExcept]
        refine Fallible.wp_mono (hlog _ _) ?_ ?_
        · rintro _ _ rfl
          exact ih
        · rintro _ _ rfl
          exact ih

theorem replaceLeases_reply (domain : String) (records : List (Addr × ℤ)) (s : EgressPolicy) :
    (∃ e t, (replaceLeases domain records).run s = (.raised e,t)) ∨
    ∃ d, s.ensureOpen = none ∧ (replaceLeases domain records).run s =
      (.addresses ((replacement d s.now records).keys.mergeSort Addr.textLe),
        { s.ticked with
          leases := s.leases.set d (replacement d s.now records)
          aliases := s.aliases.filter fun _ entry => entry.1 ≠ d }) := by
  rw [replaceLeases_run]
  split
  · exact .inl ⟨_,_,rfl⟩
  · rename_i d _
    split_ifs
    · exact .inl ⟨_,_,rfl⟩
    · have hopen : s.ticked.ensureOpen = s.ensureOpen := rfl
      simp only [replaceLeasesLocked,hopen]
      cases s.ensureOpen with
      | some e => exact .inl ⟨e,_,rfl⟩
      | none => exact .inr ⟨d,rfl,rfl⟩

theorem registerAlias_leases (domain name : String) (ttl : ℤ) (s : EgressPolicy) :
    ((registerAlias domain name ttl).run s).2.leases = s.leases := by
  rcases registerAlias_run_cases domain name ttl s with ⟨-,h⟩ | ⟨_,_,-,-,-,-,h⟩
  · rw [h]
  · rw [h]
    rfl

theorem install_ok {v : Synthesis}
    (h : install (policyCallbacks log) reviewed allowedRoot v s = (.ok (),s')) :
    (v.records ≠ [] ∧ ∃ d, s.ensureOpen = none ∧ s'.ensureOpen = none ∧ s'.clock = s.clock.next ∧
      s'.leases = s.leases.set d (replacement d s.now v.records)) ∨
    (v.records = [] ∧ v.hosts = [] ∧ s'.leases = s.leases) := by
  unfold install at h
  by_cases hrecords : v.records ≠ []
  · rw [if_pos hrecords] at h
    obtain ⟨installed,t,hreplace,hlogs⟩ := Fallible.run_of_bind h
    have hstate := logLeases_state log reviewed allowedRoot v.records installed t
    rw [hlogs] at hstate
    obtain rfl : s' = t := hstate
    rcases replaceLeases_reply allowedRoot v.records s with ⟨e,t,hrun⟩ | ⟨d,hopen,hrun⟩
    · simp only [policyCallbacks,hrun] at hreplace
      cases hreplace
    · simp only [policyCallbacks,hrun] at hreplace
      cases hreplace
      exact .inl ⟨hrecords,d,hopen,hopen,rfl,rfl⟩
  · rw [if_neg hrecords] at h
    refine .inr ⟨not_not.mp hrecords,?_⟩
    by_cases hhosts : v.hosts = []
    · refine ⟨hhosts,?_⟩
      rw [if_neg (not_not.mpr hhosts)] at h
      split_ifs at h
      · have hleases := registerAlias_leases allowedRoot v.current (minTtl (v.chain.map Link.ttl)) s
        change (match (registerAlias allowedRoot v.current (minTtl (v.chain.map Link.ttl))).run s with
          | (.raised e,s) => (.error (.policy e),s)
          | (_,s) => (.ok (),s) : Except DnsError Unit × EgressPolicy) = _ at h
        generalize (registerAlias allowedRoot v.current (minTtl (v.chain.map Link.ttl))).run s = r
          at h hleases
        split at h
        · cases h
        · cases h
          exact hleases
      · cases h
        rfl
      · cases h
    · rw [if_pos hhosts] at h
      cases h

theorem validate_ok {bytes : List UInt8}
    (h : validateAndSynthesize idna (policyCallbacks log) reviewed request upstream qname allowedRoot
      s = (.ok bytes,s')) :
    ∃ v, synthesize idna request upstream qname = .ok v ∧ v.response.pack = .ok bytes ∧
      install (policyCallbacks log) reviewed allowedRoot v s = (.ok (),s') := by
  obtain ⟨v,t,hv,h⟩ := Fallible.run_of_bind h
  obtain ⟨hsynthesize,rfl⟩ := Prod.mk.inj hv
  have hrest : (install (policyCallbacks log) reviewed allowedRoot v >>= fun _ =>
      Fallible.ofExcept v.response.pack) s = (.ok bytes,s') := h
  obtain ⟨_,u,hinstall,hpacked⟩ := Fallible.run_of_bind hrest
  obtain ⟨hpack,rfl⟩ := Prod.mk.inj hpacked
  exact ⟨v,hsynthesize,hpack,hinstall⟩

theorem told_response (request : DNSRecord) (start : String) (chain : List Link)
    (hs : List (BitVec 32 × ℕ)) :
    told (response idna request start chain hs) = (positives chain hs).map Prod.fst := by
  have haliases : (chain.map fun link => (⟨labelOf idna link.owner,link.ttl,
      .cname (labelOf idna link.target)⟩ : RR)).filterMap (fun rr => match rr.rdata with
        | .a address => some address
        | _ => none) = [] := by
    rw [List.filterMap_map]
    exact List.filterMap_eq_nil_iff.mpr fun _ _ => rfl
  rw [told,response,List.filterMap_append,haliases,List.nil_append,List.filterMap_map]
  rw [← List.filterMap_eq_map]
  rfl

theorem foldr_min_pos (ttls : List ℕ) (ttl : ℕ) :
    0 < ttls.foldr min ttl ↔ (∀ t ∈ ttls, 0 < t) ∧ 0 < ttl := by
  induction ttls with
  | nil => simp
  | cons t ttls ih => rw [List.foldr_cons,lt_min_iff,ih,List.forall_mem_cons,and_assoc]

theorem minTtl_pos (ttls : List ℕ) (ttl : ℕ) :
    0 < minTtl (ttls++[ttl]) ↔ (∀ t ∈ ttls, 0 < t) ∧ 0 < ttl := by
  cases ttls with
  | nil => simp [minTtl]
  | cons t ttls =>
    rw [List.cons_append,minTtl,foldr_min_pos,List.forall_mem_cons]
    simp only [List.mem_append,List.mem_singleton,or_imp,forall_and,forall_eq]
    tauto

theorem mem_hosts {rr : RR} {a : BitVec 32} (hrr : rr ∈ upstream.rr) (ha : rr.rdata = .a a)
    (hname : HasName idna rr.rname) : (a,rr.ttl) ∈ contents idna upstream := by
  obtain ⟨owner,howner⟩ := hname
  refine List.mem_map.mpr ⟨⟨owner,a,rr.ttl⟩,List.mem_filterMap.mpr ⟨rr,hrr,?_⟩,rfl⟩
  simp [host?,ha,howner,Except.toOption]

theorem of_mem_contents {a : BitVec 32} {ttl : ℕ} (h : (a,ttl) ∈ contents idna upstream) :
    ∃ rr ∈ upstream.rr, rr.rdata = .a a ∧ rr.ttl = ttl := by
  obtain ⟨host,hhost,hcontent⟩ := List.mem_map.mp h
  obtain ⟨rr,hrr,hfound⟩ := List.mem_filterMap.mp hhost
  refine ⟨rr,hrr,?_⟩
  unfold host? at hfound
  split at hfound
  · rename_i address hdata
    cases howner : (normName idna rr.rname.toText).toOption with
    | none =>
      rw [howner] at hfound
      cases hfound
    | some owner =>
      rw [howner] at hfound
      obtain rfl := Option.some.inj hfound
      obtain ⟨rfl,rfl⟩ := Prod.mk.inj hcontent
      exact ⟨hdata,rfl⟩
  · cases hfound

theorem told_records {v : Synthesis} (hv : synthesize idna request upstream qname = .ok v)
    (a : BitVec 32) : a ∈ told v.response ↔ ∃ ttl, (Addr.v4 a,ttl) ∈ v.records := by
  obtain ⟨start,chain,-,-,-,-,rfl⟩ := (synthesize_eq_ok _ _ _ _).mp hv
  rw [told_response]
  simp [leasesOf]

theorem records_positive {v : Synthesis} (hv : synthesize idna request upstream qname = .ok v)
    {ip : Addr} {ttl : ℤ} (h : (ip,ttl) ∈ v.records) : 0 < ttl ∧ ∃ a, ip = .v4 a := by
  obtain ⟨start,chain,-,-,-,-,rfl⟩ := (synthesize_eq_ok _ _ _ _).mp hv
  obtain ⟨x,hx,hrecord⟩ := List.mem_map.mp h
  obtain ⟨rfl,rfl⟩ := Prod.mk.inj hrecord
  have hpositive := (List.mem_filter.mp hx).2
  exact ⟨by simpa using hpositive,x.1,rfl⟩

theorem mem_told {v : Synthesis} (hv : synthesize idna request upstream qname = .ok v)
    (h : v.records ≠ [] ∨ v.hosts = []) (a : BitVec 32) :
    a ∈ told v.response ↔ ∃ rr ∈ upstream.rr, rr.rdata = .a a ∧ 0 < rr.ttl := by
  obtain ⟨start,chain,-,hread,-,-,rfl⟩ := (synthesize_eq_ok _ _ _ _).mp hv
  rw [Ne,leasesOf_eq_nil,← Ne,positives_ne_nil] at h
  dsimp only at h
  have htold : a ∈ told (response idna request start chain (contents idna upstream)) ↔
      ∃ ttl, (a,ttl) ∈ contents idna upstream ∧ 0 < effectiveTtl chain ttl := by
    rw [told_response]
    simp [positives]
  rw [htold]
  constructor
  · rintro ⟨ttl,hmem,hpositive⟩
    obtain ⟨rr,hrr,ha,rfl⟩ := of_mem_contents hmem
    exact ⟨rr,hrr,ha,((minTtl_pos _ _).mp hpositive).2⟩
  · rintro ⟨rr,hrr,ha,hpositive⟩
    have hmem := mem_hosts hrr ha (hread.answer rr hrr).1
    rcases h with ⟨x,-,hx⟩ | hnone
    · exact ⟨rr.ttl,hmem,(minTtl_pos _ _).mpr ⟨((minTtl_pos _ _).mp hx).1,hpositive⟩⟩
    · rw [hnone] at hmem
      cases hmem

/-- Every address told has a lease, and every new lease is for an address told. -/
def ToldLeased (s s' : EgressPolicy) (r : DNSRecord) : Prop :=
  (∀ a ∈ told r, ∃ lease, ((PolicyCall.leaseFor (.v4 a) 443).body.run s').1 = .lease (some lease)) ∧
    ∀ d ip lease, s'.leaseAt d ip = some lease → s.leaseAt d ip ≠ some lease →
      ∃ a ∈ told r, ip = .v4 a

/-- The A records with time left are for reviewed address space. -/
def Agrees (upstream : DNSRecord) : Prop :=
  ∀ rr ∈ upstream.rr, ∀ a, rr.rdata = .a a → 0 < rr.ttl → Addr.isGlobalIpv4 (.v4 a) = true

section Accepted

variable {v : Synthesis} {d : String}

theorem told_of_leased (hv : synthesize idna request upstream qname = .ok v)
    (hleases : s'.leases = s.leases.set d (replacement d s.now v.records)) {d' : String} {ip : Addr}
    {lease : Lease} (hl : s'.leaseAt d' ip = some lease) (hnew : s.leaseAt d' ip ≠ some lease) :
    ∃ a ∈ told v.response, ip = .v4 a := by
  rw [leaseAt_set hleases] at hl
  split_ifs at hl
  · obtain ⟨-,ttl,hleast,-⟩ := replacement_get?_eq_some.mp hl
    obtain ⟨-,a,rfl⟩ := records_positive hv hleast.1.2
    exact ⟨a,(told_records hv a).mpr ⟨ttl,hleast.1.2⟩,rfl⟩
  · exact absurd hl hnew

theorem leased_of_told (hv : synthesize idna request upstream qname = .ok v)
    (hopen : s'.ensureOpen = none)
    (hleases : s'.leases = s.leases.set d (replacement d s.now v.records))
    (hsoon : s'.now < s.now+1) {a : BitVec 32} (ha : a ∈ told v.response)
    (hglobal : Addr.isGlobalIpv4 (.v4 a) = true) :
    ∃ lease, ((PolicyCall.leaseFor (.v4 a) 443).body.run s').1 = .lease (some lease) := by
  obtain ⟨ttl,hrecord⟩ := (told_records hv a).mp ha
  obtain ⟨lease,hlease⟩ := (replacement_inv d s.now v.records (.v4 a)).2 hglobal
    ⟨ttl,(records_positive hv hrecord).1,hrecord⟩
  obtain ⟨-,least,hleast,rfl⟩ := replacement_get?_eq_some.mp hlease
  have hat : s'.leaseAt d (.v4 a) = some ⟨d,.v4 a,s.now+least⟩ := by
    rw [leaseAt_set hleases,if_pos rfl,hlease]
  have hlive : s'.now < s.now+least := by
    have hone : (1 : ℚ) ≤ least := by exact_mod_cast hleast.1.1
    linarith
  obtain ⟨found,hfound⟩ := findLease_isSome (Retains.leaseAt_cleanup.mpr ⟨hat,hlive⟩) hlive
  obtain ⟨hclosed,hsuspended⟩ := ensureOpen_eq_none hopen
  exact ⟨found,(leaseFor_reply _ _ _).mpr ⟨by decide,hclosed,hsuspended,hfound⟩⟩

end Accepted

theorem inNetwork_whole {a b : BitVec 32} : Addr.inNetwork a (b,32) = true ↔ a = b := by
  simp [Addr.inNetwork,BitVec.toNat_eq]

/-- The two notions of a global address differ on multicast, on the relay anycast block and on the two
addresses that `is_private` takes out of 192.0.0.0/24. -/
theorem isGlobalIpv4_iff {a : BitVec 32} (h : Addr.isGlobal a = true) :
    Addr.isGlobalIpv4 (.v4 a) = true ↔
      Addr.isMulticast a = false ∧ Addr.inNetwork a (Addr.network 192 88 99 0 24) = false ∧
        a ≠ 0xc0000009 ∧ a ≠ 0xc000000a := by
  have hzero : Addr.inNetwork a (Addr.network 0 0 0 0 8) = false → Addr.isUnspecified a = false := by
    intro hnetwork
    by_contra hunspecified
    obtain rfl : a = 0 := by simpa [Addr.isUnspecified] using hunspecified
    exact absurd hnetwork (by decide)
  by_cases hexception : a = 0xc0000009 ∨ a = 0xc000000a
  · obtain rfl | rfl := hexception <;> decide
  · have hplain : Addr.privateExceptions.any (Addr.inNetwork a) = false := by
      rw [Bool.eq_false_iff]
      intro hany
      simp only [Addr.privateExceptions,Addr.network,List.any_cons,List.any_nil,Bool.or_false,Bool.or_eq_true,
        inNetwork_whole] at hany
      exact hexception hany
    rw [Addr.isGlobal,Addr.isPrivate,hplain,Bool.not_false,Bool.and_true] at h
    rw [not_or] at hexception
    simp only [Addr.nonReviewedNetworks,Addr.privateNetworks,Addr.isGlobal,Addr.isPrivate,hplain,Bool.not_false,
      Bool.and_true,Addr.isGlobalIpv4,
      Addr.isReserved,Addr.isLoopbackBits,Addr.isLinkLocal,Addr.isMulticast,List.any_cons,List.any_nil,
      Bool.or_false,Bool.and_eq_true,Bool.not_eq_true',Bool.or_eq_false_iff] at h ⊢
    simp only [h,hzero h.2.1,hexception,ne_eq,not_false_iff,true_and,and_true]
    tauto

/-- What an accepted answer tells is leased right after exactly when the policy reviews the
addresses of the answer. -/
theorem told_leased_iff {cfg : PolicyConfig} {localIpv4 : List Addr} {clock : Clock}
    {P : Pool EgressPolicy PolicyCall Reply} {bytes : List UInt8}
    (hrun : Pool.Steps PolicyCall.body Pool.anyCall (Pool.start (init cfg localIpv4 clock)) P)
    (haccepted : validateAndSynthesize idna (policyCallbacks log) reviewed request upstream qname
      allowedRoot P.shared = (.ok bytes,s'))
    (hsoon : s'.now < P.shared.now+1) :
    ∃ v, synthesize idna request upstream qname = .ok v ∧ v.response.pack = .ok bytes ∧
      (ToldLeased P.shared s' v.response ↔ Agrees upstream) := by
  have hreviewed := reviewed_of_steps hrun
  generalize P.shared = s at haccepted hsoon hreviewed
  obtain ⟨v,hv,hpack,hinstall⟩ := validate_ok haccepted
  have hdone := install_ok hinstall
  have htold := mem_told hv (hdone.imp (·.1) (·.2.1))
  have hafter : s'.Reviewed := by
    rcases hdone with ⟨-,d,-,-,-,hleases⟩ | ⟨-,-,hleases⟩
    · intro d' ip lease hl
      rw [leaseAt_set hleases] at hl
      split_ifs at hl
      · exact (replacement_get?_eq_some.mp hl).1
      · exact hreviewed d' ip lease hl
    · exact hreviewed.sheds (.of_eq hleases)
  refine ⟨v,hv,hpack,fun h rr hrr a ha hpositive => ?_,fun h => ⟨fun a ha => ?_,?_⟩⟩
  · obtain ⟨lease,hreply⟩ := h.1 a ((htold a).mpr ⟨rr,hrr,ha,hpositive⟩)
    obtain ⟨-,-,-,hfound⟩ := (leaseFor_reply _ _ _).mp hreply
    obtain ⟨d,hat,-⟩ := findLease_eq_some hfound
    exact hafter d _ lease (Retains.leaseAt_cleanup.mp hat).1
  · obtain ⟨rr,hrr,haddress,hpositive⟩ := (htold a).mp ha
    rcases hdone with ⟨-,d,-,hopen,-,hleases⟩ | ⟨hnone,-,-⟩
    · exact leased_of_told hv hopen hleases hsoon ha (h rr hrr a haddress hpositive)
    · obtain ⟨ttl,hrecord⟩ := (told_records hv a).mp ha
      rw [hnone] at hrecord
      cases hrecord
  · intro d' ip lease hl hnew
    rcases hdone with ⟨-,d,-,-,-,hleases⟩ | ⟨-,-,hleases⟩
    · exact told_of_leased hv hleases hl hnew
    · rw [leaseAt,hleases] at hl
      exact absurd hl hnew

/-- A policy that has just been opened, under a clock that stands still. -/
def openPolicy : EgressPolicy := init .twoDomains [] ⟨fun _ => 0,fun _ _ _ => le_rfl,0⟩

/-- What the listener makes of an answer to the example query. -/
def answered (upstream : DNSRecord) : Except DnsError (List UInt8) × EgressPolicy :=
  validateAndSynthesize asciiCodec (policyCallbacks fun _ => .ok ()) Dict.empty exampleQuery upstream
    "a.test" "a.test" openPolicy

theorem told_leased_iff_example : ∃ bytes, (answered exampleAnswer).1 = .ok bytes ∧
    ∃ v, synthesize asciiCodec exampleQuery exampleAnswer "a.test" = .ok v ∧
      v.response.pack = .ok bytes ∧
      (ToldLeased openPolicy (answered exampleAnswer).2 v.response ↔ Agrees exampleAnswer) := by
  have hok : (answered exampleAnswer).1.toOption.isSome = true := by decide +kernel
  have hsoon : (answered exampleAnswer).2.now < openPolicy.now+1 := by decide +kernel
  cases hrun : (answered exampleAnswer).1 with
  | error e =>
    rw [hrun] at hok
    cases hok
  | ok bytes =>
    exact ⟨bytes,rfl,told_leased_iff (P:=Pool.start openPolicy) .refl (Prod.ext hrun rfl) hsoon⟩

/-- An answer with an address of 192.88.99.0/24, which `ipaddress` calls global. -/
def relayAnycastAnswer : DNSRecord :=
  ⟨⟨7,true,false,true,true,0⟩,⟨name ["a","test"],1,1⟩,
    [⟨name ["a","test"],60,.a 0xc0586301⟩],[],[]⟩

/-- The answer is accepted and told to the sample, and no lease is there. -/
theorem relay_anycast_not_leased : ∃ bytes v, (answered relayAnycastAnswer).1 = .ok bytes ∧
    synthesize asciiCodec exampleQuery relayAnycastAnswer "a.test" = .ok v ∧
    v.response.pack = .ok bytes ∧ (answered relayAnycastAnswer).2.now < openPolicy.now+1 ∧
    ¬ToldLeased openPolicy (answered relayAnycastAnswer).2 v.response := by
  have hok : (answered relayAnycastAnswer).1.toOption.isSome = true := by decide +kernel
  have hsoon : (answered relayAnycastAnswer).2.now < openPolicy.now+1 := by decide +kernel
  have htold : (synthesize asciiCodec exampleQuery relayAnycastAnswer "a.test").toOption.map
      (fun v => told v.response) = some [0xc0586301] := by decide +kernel
  have hnone : ((PolicyCall.leaseFor (.v4 0xc0586301) 443).body.run
      (answered relayAnycastAnswer).2).1 = .lease none := by decide +kernel
  cases hrun : (answered relayAnycastAnswer).1 with
  | error e =>
    rw [hrun] at hok
    cases hok
  | ok bytes =>
    obtain ⟨v,hv,hpack,-⟩ := validate_ok (Prod.ext hrun rfl)
    rw [hv] at htold
    have haddresses : told v.response = [0xc0586301] := Option.some.inj htold
    refine ⟨bytes,v,rfl,hv,hpack,hsoon,fun h => ?_⟩
    obtain ⟨lease,hlease⟩ := h.1 0xc0586301 (by simp [haddresses])
    rw [hnone] at hlease
    cases hlease

end Dns

end FakeNetNG
