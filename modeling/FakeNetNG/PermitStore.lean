import FakeNetNG.PolicySections

/-!
# The control permits of all reachable states

The two permit tables hold the same permits as long as no token is drawn twice, and the
capacity test of `register_control_flow` keeps both small. The test counts the entries of
the table, and the `dns` path does not sweep the table before it, so that permits which
have expired can fill it.
-/

namespace FakeNetNG

/-- How many permits the tables may hold. -/
def permitCapacity : ℤ := maxPending+maxActive

theorem Dict.size_le_of_subset {κ ν : Type} [DecidableEq κ] {d d' : Dict κ ν}
    (h : ∀ k v, d'.get? k = some v → d.get? k = some v) : d'.size ≤ d.size := by
  have hkeys : d'.keys ⊆ d.keys := by
    intro k hk
    obtain ⟨v,hv⟩ := (d'.contains_iff k).mp ((d'.contains_iff_mem_keys k).mpr hk)
    exact (d.contains_iff_mem_keys k).mp ((d.contains_iff k).mpr ⟨v,h k v hv⟩)
  simpa [Dict.size,Dict.keys] using d'.nodup.length_le_of_subset hkeys

namespace PermitTable

variable {t : PermitTable}

theorem Inv.mem_values (h : t.Inv) (p : ControlPermit) :
    p ∈ t.byKey.values ↔ p ∈ t.byToken.values := by
  simp only [Dict.mem_values_iff]
  constructor
  · rintro ⟨k,hk⟩
    exact ⟨_,(h.byKey k p hk).2⟩
  · rintro ⟨token,ht⟩
    exact ⟨_,(h.byToken token p ht).2⟩

theorem Inv.byToken_size (h : t.Inv) : t.byToken.size ≤ t.byKey.size := by
  have hnodup : (t.byToken.values.map ControlPermit.key).Nodup := by
    rw [List.Nodup,List.pairwise_map]
    refine Dict.pairwise_values fun i j p q hp hq hne hkey => hne ?_
    obtain ⟨hi,hpk⟩ := h.byToken i p hp
    obtain ⟨hj,hqk⟩ := h.byToken j q hq
    rw [hkey,hqk] at hpk
    rw [← hi,← hj,Option.some.inj hpk]
  have hsub : t.byToken.values.map ControlPermit.key ⊆ t.byKey.keys := by
    intro k hk
    obtain ⟨p,hp,rfl⟩ := List.mem_map.mp hk
    obtain ⟨token,ht⟩ := (Dict.mem_values_iff _ _).mp hp
    exact (Dict.contains_iff_mem_keys _ _).mp
      ((Dict.contains_iff _ _).mpr ⟨p,(h.byToken token p ht).2⟩)
  simpa [Dict.size,Dict.keys,Dict.values] using hnodup.length_le_of_subset hsub

theorem file_size (t : PermitTable) (token : String) (kind : ControlKind) (key : FlowKey)
    (domain : String) (expires : ℚ) : (t.file token kind key domain expires).byKey.size =
      if t.byKey.contains key then t.byKey.size else t.byKey.size+1 := by
  have hsize : ∀ d : Dict FlowKey ControlPermit, d.size = d.keys.length := by
    intro d
    simp [Dict.size,Dict.keys]
  split_ifs with hc
  · rw [hsize,hsize]
    show (t.byKey.set key _).keys.length = _
    rw [Dict.keys_set_of_contains _ _ hc]
  · rw [Bool.not_eq_true] at hc
    rw [hsize,hsize]
    show (t.byKey.set key _).keys.length = _
    rw [Dict.keys_set_of_new _ _ hc,List.length_append,List.length_singleton]

theorem foldl_remove_expiry (l : List (String × ControlPermit)) (t : PermitTable) :
    (l.foldl remove t).expiry = t.expiry := by
  induction l generalizing t with
  | nil => rfl
  | cons e l ih => exact ih (t.remove e)

theorem cleanup_expiry (t : PermitTable) (now : ℚ) : (t.cleanup now).expiry = t.expiry :=
  foldl_remove_expiry _ t

end PermitTable

namespace EgressPolicy

variable {s : EgressPolicy}

theorem fileControlFlowLocked_cases (kind : ControlKind) (key : FlowKey) (domain : String)
    (relay : Option RelayNatMapping) (generation : ℕ) (token : String) (expires : ℚ)
    (s : EgressPolicy) :
    (fileControlFlowLocked kind key domain relay generation token expires s).2 = s ∨
    (kind = .tlsRelay → s.nat.generation.get? generation = relay) ∧
      (s.permits.byKey.contains key = true ∨ (s.permits.byKey.size : ℤ) < permitCapacity) ∧
      (fileControlFlowLocked kind key domain relay generation token expires s).2 =
        { s with permits := s.permits.file token kind key domain expires } := by
  unfold fileControlFlowLocked
  split
  · exact .inl rfl
  · split_ifs with hgone hfull
    · exact .inl rfl
    · exact .inl rfl
    · refine .inr ⟨fun hk => ?_,?_,rfl⟩
      · by_contra hne
        exact hgone ⟨hk,hne⟩
      · by_cases hc : s.permits.byKey.contains key = true
        · exact .inl hc
        · rw [Bool.not_eq_true] at hc
          exact .inr (not_le.mp fun hle => hfull ⟨hc,hle⟩)

end EgressPolicy

open EgressPolicy

theorem PolicySection.byKey_size (sec : PolicySection) (s : EgressPolicy)
    (h : (s.permits.byKey.size : ℤ) ≤ permitCapacity) :
    ((sec.apply s).permits.byKey.size : ℤ) ≤ permitCapacity := by
  by_cases hfiles : sec.filesPermit = false
  · have hle := Dict.size_le_of_subset (sec.permits_loses s hfiles).byKey
    omega
  · cases sec with
    | fileControlFlow kind key domain relay generation token expires =>
      rcases fileControlFlowLocked_cases kind key domain relay generation token expires s with
        hsame | ⟨-,hroom,hfiled⟩
      · rw [apply,hsame]
        exact h
      · rw [apply,hfiled]
        show ((s.permits.file token kind key domain expires).byKey.size : ℤ) ≤ permitCapacity
        rw [PermitTable.file_size]
        split_ifs with hc
        · exact h
        · have hlt := hroom.resolve_left hc
          push_cast
          omega
    | _ => exact absurd rfl hfiles

namespace EgressPolicy

/-- What the permit tables hold in every reachable state. -/
structure PermitStore (cfg : PolicyConfig) (s : EgressPolicy) : Prop where
  config : s.cfg = cfg
  inv : s.permits.Inv
  size : (s.permits.byKey.size : ℤ) ≤ permitCapacity
  dns : ∀ k p, s.permits.byKey.get? k = some p → p.kind = .dns →
    p.key.dstIp = cfg.externalDnsServer ∧ p.key.dport = 53

/-- A mapping that the relay has picked up, for the domain and the server of the permit. -/
def RelayBacked (p : ControlPermit) (s : EgressPolicy) : Prop :=
  ∃ g m, s.nat.generation.get? g = some m ∧ (s.nat.cell m).consumed = true ∧
    m.domain = p.domain ∧ m.serverIp = p.key.dstIp ∧ m.serverPort = p.key.dport

theorem brought_permit {c : PolicyCall} {f : EgressPolicy → EgressPolicy} {k : FlowKey}
    {p : ControlPermit} (h : Brought True c f s) (hp : (f s).permits.byKey.get? k = some p) :
    s.permits.byKey.get? k = some p ∨ k = p.key ∧
      (p.kind = .dns → p.key.dstIp = s.cfg.externalDnsServer ∧ p.key.dport = 53) ∧
      (p.kind = .tlsRelay → RelayBacked p s) := by
  rcases h with rfl | ⟨sec,rfl,hfits,-⟩
  · exact .inl hp
  · by_cases hfiles : sec.filesPermit = false
    · exact .inl ((sec.permits_loses s hfiles).byKey k p hp)
    · cases sec with
      | fileControlFlow kind key domain relay generation token expires =>
        rcases fileControlFlowLocked_cases kind key domain relay generation token expires s with
          hsame | ⟨hrelay,-,hfiled⟩
        · rw [PolicySection.apply,hsame] at hp
          exact .inl hp
        · rw [PolicySection.apply,hfiled] at hp
          rcases (Dict.get?_set_eq_some _ _ _ _ _).mp hp with ⟨rfl,rfl⟩ | ⟨-,hp⟩
          · refine .inr ⟨rfl,fun hk => ?_,fun hk => ?_⟩
            · cases hk
              exact hfits
            · cases hk
              obtain ⟨m,rfl,hdomain,hip,hport,-,hcons⟩ := hfits
              exact ⟨generation,m,hrelay rfl,hcons,hdomain,hip,hport⟩
          · exact .inl hp
      | _ => exact absurd rfl hfiles

theorem brought_inv {c : PolicyCall} {f : EgressPolicy → EgressPolicy} (h : Brought True c f s)
    (hi : s.permits.Inv) : (f s).permits.Inv := by
  rcases h with rfl | ⟨sec,rfl,-,htoken⟩
  · exact hi
  · by_cases hfiles : sec.filesPermit = false
    · exact (sec.permits_loses s hfiles).inv hi
    · cases sec with
      | fileControlFlow kind key domain relay generation token expires =>
        obtain ⟨hdrawn,hfresh⟩ := htoken token rfl
        rcases fileControlFlowLocked_cases kind key domain relay generation token expires s with
          hsame | ⟨-,-,hfiled⟩
        · rw [PolicySection.apply,hsame]
          exact hi
        · rw [PolicySection.apply,hfiled]
          exact hi.file (hfresh trivial token hdrawn) kind key domain expires
      | _ => exact absurd rfl hfiles

theorem PermitStore.brought {cfg : PolicyConfig} {c : PolicyCall}
    {f : EgressPolicy → EgressPolicy} (h : s.PermitStore cfg) (hf : Brought True c f s) :
    (f s).PermitStore cfg := by
  refine ⟨(brought_later hf).cfg.trans h.config,brought_inv hf h.inv,?_,fun k p hp hk => ?_⟩
  · rcases hf with rfl | ⟨sec,rfl,-⟩
    · exact h.size
    · exact sec.byKey_size s h.size
  · rcases brought_permit hf hp with hold | ⟨-,hdns,-⟩
    · exact h.dns k p hold hk
    · rw [← h.config]
      exact hdns hk

theorem matchControlFlowLocked_some {key : FlowKey} {now : ℚ} {p : ControlPermit}
    (hi : s.permits.Inv) (h : (matchControlFlowLocked key now s).1 = some p) :
    p.key = key ∧ now < s.permits.expiry p.serial := by
  have hclean := PermitTable.cleanup_loses s.permits now
  unfold matchControlFlowLocked at h
  split_ifs at h
  dsimp only at h
  split at h
  · cases h
  · rename_i permit hk
    split_ifs at h with hlive hkind
    · cases h
      rw [cleanupLocked_permits,PermitTable.cleanup_expiry] at hlive
      exact ⟨(hi.byKey key p (hclean.byKey key p hk)).1,hlive⟩
    · cases h
      rw [cleanupLocked_permits,PermitTable.cleanup_expiry] at hlive
      exact ⟨(hi.byKey key p (hclean.byKey key p hk)).1,hlive⟩

end EgressPolicy

theorem init_byKey_size (cfg : PolicyConfig) (localIpv4 : List Addr) (clock : Clock) :
    ((init cfg localIpv4 clock).permits.byKey.size : ℤ) ≤ permitCapacity := by
  show ((0 : ℕ) : ℤ) ≤ permitCapacity
  decide

/-- In every reachable state, as long as no token is drawn twice: the two tables hold the same
permits under their own keys and tokens, and no more than the capacity; a `dns` permit leads to
the external resolver; a `tls_relay` permit enters while a mapping that the relay has picked up
backs it; and a match is for the identical flow and before the expiry. -/
theorem permit_store (cfg : PolicyConfig) (localIpv4 : List Addr) (clock : Clock)
    (P : Pool EgressPolicy PolicyCall Reply)
    (hrun : Pool.Steps PolicyCall.body drawsFresh (Pool.start (init cfg localIpv4 clock)) P) :
    (P.shared.permits.Inv ∧
      ∀ p, p ∈ P.shared.permits.byKey.values ↔ p ∈ P.shared.permits.byToken.values) ∧
    ((P.shared.permits.byKey.size : ℤ) ≤ maxPending+maxActive ∧
      (P.shared.permits.byToken.size : ℤ) ≤ maxPending+maxActive) ∧
    (∀ p ∈ P.shared.permits.byKey.values, p.kind = .dns →
      p.key.dstIp = cfg.externalDnsServer ∧ p.key.dport = 53) ∧
    (∀ P', Pool.Step PolicyCall.body drawsFresh P P' → ∀ p ∈ P'.shared.permits.byKey.values,
      p ∉ P.shared.permits.byKey.values → p.kind = .tlsRelay → RelayBacked p P.shared) ∧
    ∀ key found p, found 1 = P.shared → (matchControlFlow key).under found = some p →
      p.key = key ∧ (found 0).now < P.shared.permits.expiry p.serial := by
  have hinit : (init cfg localIpv4 clock).PermitStore cfg :=
    ⟨rfl,PermitTable.inv_empty,init_byKey_size cfg localIpv4 clock,fun k p hp => (by cases hp)⟩
  have hP := fitted_of_steps True (fun _ _ ha _ => ha)
    (fun c f s hf _ hs => PermitStore.brought hs hf) hrun hinit
  obtain ⟨-,-,hinv,hsize,hdns⟩ := hP.shared
  refine ⟨⟨hinv,hinv.mem_values⟩,⟨hsize,?_⟩,fun p hp => ?_,fun P' hstep p hp hnew hk => ?_,
    fun key found p hfound h => ?_⟩
  · exact (Nat.cast_le.mpr hinv.byToken_size).trans hsize
  · obtain ⟨k,hk⟩ := (Dict.mem_values_iff _ _).mp hp
    exact hdns k p hk
  · obtain ⟨c,f,hf,hshared⟩ := fitted_step hP hstep
    obtain ⟨k,hkey⟩ := (Dict.mem_values_iff _ _).mp hp
    rw [hshared] at hkey
    rcases brought_permit hf hkey with hold | ⟨-,-,hrelay⟩
    · exact absurd ((Dict.mem_values_iff _ _).mpr ⟨k,hold⟩) hnew
    · exact hrelay hk
  · rw [← hfound] at hinv ⊢
    exact matchControlFlowLocked_some hinv h

/-- A query of the sample to the external resolver from the `i`-th port, allowed for a second. -/
def dnsQueryKey (i : ℕ) : FlowKey := ⟨.udp,.dotted 10 0 0 5,1024+i,.dotted 8 8 8 8,53⟩

def PolicyCall.dnsQuery (i : ℕ) : PolicyCall :=
  .registerControlFlow .dns (dnsQueryKey i) none 1 none (toString i)

def queried : Pool EgressPolicy PolicyCall Reply :=
  (Pool.start (init .twoDomains [.dotted 10 0 0 5] (.every 1))).move
    ((PolicyCall.dnsQuery 0).body.run (init .twoDomains [.dotted 10 0 0 5] (.every 1))).2 0 none

theorem queried_steps : Pool.Steps PolicyCall.body drawsFresh
    (Pool.start (init .twoDomains [.dotted 10 0 0 5] (.every 1))) queried := by
  have hcall : Pool.Step PolicyCall.body drawsFresh
      (Pool.start (init .twoDomains [.dotted 10 0 0 5] (.every 1))) _ :=
    .call 0 (.dnsQuery 0) rfl ⟨fun _ _ => rfl,fun t d p ht => (by cases ht)⟩
  exact (Relation.ReflTransGen.single hcall).trans (Pool.steps_run _ 0 (PolicyCall.dnsQuery 0) _ _)

theorem permit_store_queried :
    queried.shared.permits.byToken.size = 1 ∧
    (queried.shared.permits.Inv ∧ ∀ p, p ∈ queried.shared.permits.byKey.values ↔
      p ∈ queried.shared.permits.byToken.values) ∧
    ((queried.shared.permits.byKey.size : ℤ) ≤ maxPending+maxActive ∧
      (queried.shared.permits.byToken.size : ℤ) ≤ maxPending+maxActive) ∧
    ∀ p ∈ queried.shared.permits.byKey.values, p.kind = .dns →
      p.key.dstIp = .dotted 8 8 8 8 ∧ p.key.dport = 53 := by
  obtain ⟨hinv,hsize,hdns,-⟩ := permit_store .twoDomains [.dotted 10 0 0 5] (.every 1) queried
    queried_steps
  exact ⟨by decide,hinv,hsize,hdns⟩

namespace EgressPolicy

/-- The error of a registration that finds no room. -/
def capacityError : PolicyError := .runtime "control flow permit table is full"

/-- How many permits of the table are not expired at `t`. -/
def livePermits (s : EgressPolicy) (t : ℚ) : ℕ :=
  s.permits.byKey.countP fun p => t < s.permits.expiry p.serial

variable {s : EgressPolicy}

/-- A call raises the capacity error from its filing section. -/
def CapacityAnswer (kind : ControlKind) (key : FlowKey) (token : String) (reply : Reply)
    (s : EgressPolicy) : Prop :=
  reply = .raised capacityError → ∃ domain relay generation expires,
    (fileControlFlowLocked kind key domain relay generation token expires s).1 = reply

theorem capacityAnswer_of_ne {kind : ControlKind} {key : FlowKey} {token : String} {e : PolicyError}
    (he : e ≠ capacityError) (reply : Reply)
    (h : (Prog.done (.raised e) : Prog EgressPolicy Reply) = .done reply) :
    CapacityAnswer kind key token reply s := by
  cases h
  intro heq
  cases heq
  exact absurd rfl he

theorem ensureOpen_ne {e : PolicyError} (h : s.ensureOpen = some e) : e ≠ capacityError := by
  unfold ensureOpen at h
  split_ifs at h
  · cases h
    decide
  · cases h
    decide

theorem normalizeHostname_ne {idna : String → Option String} {value : String} {e : PolicyError}
    (h : Hostname.normalizeHostname idna value = .error e) : e ≠ capacityError := by
  have hpolicy : ∀ message, PolicyError.policyConfig message ≠ capacityError := by
    intro message he
    cases he
  unfold Hostname.normalizeHostname at h
  dsimp only at h
  split at h
  · cases h
    exact hpolicy _
  · split at h
    · cases h
      exact hpolicy _
    · split at h
      · cases h
        exact hpolicy _
      · cases h

theorem permitDomain_ne {cfg : PolicyConfig} {domain : Option String} {e : PolicyError}
    (h : permitDomain cfg domain = .error e) : e ≠ capacityError := by
  unfold permitDomain at h
  cases domain with
  | none => cases h
  | some domain =>
    dsimp only at h
    split_ifs at h
    exact normalizeHostname_ne h

theorem relayFlowLocked_ne {proto : Proto} {dstIp : Addr} {dport : ℕ} {domain : String}
    {generation : ℕ} {e : PolicyError}
    (h : (relayFlowLocked proto dstIp dport domain generation s).1 = .error e) :
    e ≠ capacityError := by
  unfold relayFlowLocked at h
  split at h
  · rename_i e' he
    cases h
    exact ensureOpen_ne he
  · dsimp only at h
    split at h
    · cases h
      decide
    · split_ifs at h
      cases h
      decide

/-- Every residual of a registration, whatever states it meets. -/
abbrev Registering (kind : ControlKind) (key : FlowKey) (token : String)
    (p : Prog EgressPolicy Reply) (s : EgressPolicy) : Prop :=
  p.Answers (fun _ => True) (fun _ _ => True) (CapacityAnswer kind key token) s

theorem fileControlFlow_answers (kind : ControlKind) (key : FlowKey) (domain : String)
    (relay : Option RelayNatMapping) (ttl : ℤ) (generation : ℕ) (token : String)
    (s : EgressPolicy) : Registering kind key token
      (fileControlFlow kind key domain relay ttl generation token) s := by
  intro s₁ _ _
  refine ⟨fun _ h => (by cases h),fun s₂ _ _ => ⟨fun reply h _ => ?_,trivial⟩⟩
  cases h
  exact ⟨domain,relay,generation,_,rfl⟩

theorem registerTlsRelay_answers (cfg : PolicyConfig) (key : FlowKey) (domain : Option String)
    (ttl : ℤ) (generation : ℕ) (token : String) (s : EgressPolicy) :
    (∀ reply, registerTlsRelay cfg key domain ttl generation token = .done reply →
      CapacityAnswer .tlsRelay key token reply s) ∧
    Registering .tlsRelay key token (registerTlsRelay cfg key domain ttl generation token) s := by
  unfold registerTlsRelay
  cases hd : permitDomain cfg domain with
  | error e => exact ⟨capacityAnswer_of_ne (permitDomain_ne hd),trivial⟩
  | ok domain =>
    refine ⟨fun _ h => (by cases h),Prog.answers_locked_bind fun s₁ _ _ => ?_⟩
    cases hr : (relayFlowLocked key.proto key.dstIp key.dport domain generation s₁).1 with
    | error e => exact ⟨capacityAnswer_of_ne (relayFlowLocked_ne hr),trivial⟩
    | ok m =>
      exact ⟨fun _ h => (by cases h),fileControlFlow_answers _ _ _ _ _ _ _ _⟩

theorem registerControlFlow_answers (kind : ControlKind) (key : FlowKey) (domain : Option String)
    (ttl : ℤ) (generation : Option ℕ) (token : String) (s : EgressPolicy) :
    Registering kind key token (registerControlFlow kind key domain ttl generation token) s := by
  refine Prog.answers_locked_bind fun s₁ _ _ => ?_
  cases he : s₁.ensureOpen with
  | some e => exact ⟨capacityAnswer_of_ne (ensureOpen_ne he),trivial⟩
  | none =>
    refine ⟨fun _ h => (by cases h),Prog.answers_locked_bind fun s₂ _ _ => ?_⟩
    split_ifs
    · exact ⟨capacityAnswer_of_ne (by decide),trivial⟩
    · refine ⟨fun _ h => (by cases h),Prog.answers_locked_bind fun s₃ _ _ => ?_⟩
      cases kind with
      | dns =>
        show (∀ reply, registerDns s₃.cfg key ttl token = .done reply → _) ∧
          Registering .dns key token (registerDns s₃.cfg key ttl token) s₃
        unfold registerDns
        split_ifs
        · exact ⟨capacityAnswer_of_ne (by decide),trivial⟩
        · exact ⟨fun _ h => (by cases h),fileControlFlow_answers _ _ _ _ _ _ _ _⟩
      | tlsRelay => exact registerTlsRelay_answers s₃.cfg key domain ttl (generation.getD 0) token s₃
      | other kind => exact ⟨capacityAnswer_of_ne (by decide),trivial⟩

theorem registering_outline : Pool.Outline PolicyCall.body Pool.anyCall (fun _ => True)
    (fun c p s => ∀ kind key domain ttl generation token,
      c = .registerControlFlow kind key domain ttl generation token → Registering kind key token p s)
    fun _ _ => True where
  call P c _ _ := by
    rintro kind key domain ttl generation token rfl
    exact registerControlFlow_answers kind key domain ttl generation token P.shared
  exec c f k s hp _ := by
    refine ⟨trivial,fun kind key domain ttl generation token hc => ?_⟩
    exact (hp kind key domain ttl generation token hc s trivial trivial).2
  frame c f k d q s _ _ _ hq kind key domain ttl generation token hd :=
    Prog.Answers.rely (R:=fun _ _ => True) (fun _ _ _ _ _ => trivial)
      (hq kind key domain ttl generation token hd) trivial
  allows _ _ _ _ _ _ _ := ⟨trivial,trivial⟩

/-- The filing section raises the capacity error exactly when it comes to the capacity test with
a new key and the table is full. -/
theorem fileControlFlowLocked_full (kind : ControlKind) (key : FlowKey) (domain : String)
    (relay : Option RelayNatMapping) (generation : ℕ) (token : String) (expires : ℚ)
    (s : EgressPolicy) :
    (fileControlFlowLocked kind key domain relay generation token expires s).1 =
      .raised capacityError ↔
    s.ensureOpen = none ∧ ¬(kind = .tlsRelay ∧ s.nat.generation.get? generation ≠ relay) ∧
      s.permits.byKey.contains key = false ∧ permitCapacity ≤ s.permits.byKey.size := by
  unfold fileControlFlowLocked
  cases he : s.ensureOpen with
  | some e =>
    have hne := ensureOpen_ne he
    simp [hne]
  | none =>
    dsimp only
    split_ifs with hgone hfull
    · simp [hgone,capacityError]
    · exact ⟨fun _ => ⟨rfl,hgone,hfull⟩,fun _ => rfl⟩
    · refine ⟨fun h => (by cases h),fun h => absurd h.2.2 hfull⟩

theorem livePermits_full {t : ℚ} (hsize : (s.permits.byKey.size : ℤ) = permitCapacity) :
    permitCapacity ≤ s.livePermits t ↔
      ∀ p ∈ s.permits.byKey.values, t < s.permits.expiry p.serial := by
  have hle : s.livePermits t ≤ s.permits.byKey.size := List.countP_le_length
  have hall : s.livePermits t = s.permits.byKey.size ↔
      ∀ p ∈ s.permits.byKey.values, t < s.permits.expiry p.serial := by
    rw [livePermits,Dict.countP,Dict.size,List.countP_eq_length,Dict.values]
    simp only [decide_eq_true_eq,List.forall_mem_map]
  rw [← hall,← hsize]
  omega

end EgressPolicy

/-- In every reachable state: a registration raises the capacity error only from its filing
section, and this section does so with room for live permits exactly where the condition fails,
that is, where a full table with an expired permit meets a new key. -/
theorem permit_capacity (cfg : PolicyConfig) (localIpv4 : List Addr) (clock : Clock)
    (P : Pool EgressPolicy PolicyCall Reply)
    (hrun : Pool.Steps PolicyCall.body Pool.anyCall (Pool.start (init cfg localIpv4 clock)) P) :
    (∀ u kind key domain ttl generation token f k,
      P.threads u = some (.registerControlFlow kind key domain ttl generation token,.step f k) →
      k P.shared = .done (.raised capacityError) → ∃ domain relay generation expires,
        (fileControlFlowLocked kind key domain relay generation token expires P.shared).1 =
          .raised capacityError) ∧
    ∀ kind key domain relay generation token expires t,
      ((fileControlFlowLocked kind key domain relay generation token expires P.shared).1 =
          .raised capacityError → maxPending+maxActive ≤ P.shared.livePermits t) ↔
        P.shared.Off ∨ (kind = .tlsRelay ∧ P.shared.nat.generation.get? generation ≠ relay) ∨
          P.shared.permits.byKey.contains key = true ∨
          P.shared.permits.byKey.size < maxPending+maxActive ∨
          ∀ p ∈ P.shared.permits.byKey.values, t < P.shared.permits.expiry p.serial := by
  have hthreads := (Pool.outlined_steps registering_outline hrun (Pool.outlined_start trivial)).threads
  have hsize : (P.shared.permits.byKey.size : ℤ) ≤ permitCapacity :=
    (fitted_of_steps False (fun _ _ _ => False.elim)
      (J:=fun s => (s.permits.byKey.size : ℤ) ≤ permitCapacity)
      (fun c f s hf _ hs => by
        rcases hf with rfl | ⟨sec,rfl,-⟩
        · exact hs
        · exact sec.byKey_size s hs) hrun (init_byKey_size cfg localIpv4 clock)).shared.2
  refine ⟨fun u kind key domain ttl generation token f k hu hk => ?_,
    fun kind key domain relay generation token expires t => ?_⟩
  · have hanswer := hthreads u _ _ hu kind key domain ttl generation token rfl P.shared trivial trivial
    exact hanswer.1 _ hk rfl
  · rw [fileControlFlowLocked_full]
    rw [ensureOpen_eq_none_iff]
    constructor
    · intro h
      by_contra hfails
      push Not at hfails
      obtain ⟨hopen,hkept,hnew,hfull,p,hp,hexpired⟩ := hfails
      have hlive := h ⟨hopen,fun hgone => hgone.2 (hkept hgone.1),by simpa using hnew,hfull⟩
      have hall := (livePermits_full (le_antisymm hsize hfull)).mp hlive p hp
      exact absurd hall (not_lt.mpr hexpired)
    · rintro h ⟨hopen,hkept,hnew,hfull⟩
      rcases h with hoff | hgone | hknown | hroom | hall
      · exact absurd hoff hopen
      · exact absurd hgone hkept
      · rw [hnew] at hknown
        cases hknown
      · exact absurd hfull (not_le.mpr hroom)
      · exact (livePermits_full (le_antisymm hsize hfull)).mpr hall

/-- What `k` queries, one a second and each allowed for a second, leave. -/
structure Queried (k : ℕ) (s : EgressPolicy) : Prop where
  config : s.cfg = .twoDomains
  opened : s.ensureOpen = none
  isLocal : s.isExactLocalIpv4 (.dotted 10 0 0 5) = true
  readings : ∀ i, s.clock.readings i = i
  tick : s.clock.tick = k
  size : s.permits.byKey.size = k
  ports : ∀ key p, s.permits.byKey.get? key = some p → key.sport < 1024+k
  expired : ∀ serial, s.permits.expiry serial ≤ k

namespace Queried

variable {k : ℕ} {s : EgressPolicy}

theorem now (h : Queried k s) : s.now = k := by
  rw [EgressPolicy.now,Clock.now,h.readings,h.tick]

theorem run (h : Queried k s) : (PolicyCall.dnsQuery k).body.run s =
    fileControlFlowLocked .dns (dnsQueryKey k) "" none 0 (toString k) (k+1) s.ticked := by
  show (registerControlFlow .dns (dnsQueryKey k) none 1 none (toString k)).run s = _
  rw [registerControlFlow_run,h.opened]
  have hlocal : s.isExactLocalIpv4 (dnsQueryKey k).srcIp = true := h.isLocal
  simp only [hlocal,if_true,h.config]
  have hdns : (registerDns .twoDomains (dnsQueryKey k) 1 (toString k)).run s =
      fileControlFlowLocked .dns (dnsQueryKey k) "" none 0 (toString k)
        (s.now+((max 1 1 : ℤ) : ℚ)) s.ticked := rfl
  rw [hdns,h.now]
  norm_num

theorem contains (h : Queried k s) : s.permits.byKey.contains (dnsQueryKey k) = false := by
  rw [Dict.contains_eq_false_iff]
  cases hg : s.permits.byKey.get? (dnsQueryKey k) with
  | none => rfl
  | some p => exact absurd (h.ports _ p hg) (lt_irrefl _)

theorem step (h : Queried k s) (hk : (k : ℤ) < permitCapacity) :
    Queried (k+1) ((PolicyCall.dnsQuery k).body.run s).2 := by
  rw [h.run]
  have hopen : s.ticked.ensureOpen = none := h.opened
  have hfile : (fileControlFlowLocked .dns (dnsQueryKey k) "" none 0 (toString k) (k+1)
      s.ticked).2 = { s.ticked with
        permits := s.permits.file (toString k) .dns (dnsQueryKey k) "" (k+1) } := by
    unfold fileControlFlowLocked
    have hroom : ¬(s.ticked.permits.byKey.contains (dnsQueryKey k) = false ∧
        maxPending+maxActive ≤ s.ticked.permits.byKey.size) := by
      rintro ⟨-,hfull⟩
      rw [ticked_permits,h.size] at hfull
      exact absurd hk (not_lt.mpr hfull)
    rw [hopen]
    simp only [reduceCtorEq,false_and,if_false,if_neg hroom]
    rfl
  rw [hfile]
  refine ⟨h.config,hopen,h.isLocal,h.readings,?_,?_,fun key p hp => ?_,fun serial => ?_⟩
  · show s.clock.tick+1 = k+1
    rw [h.tick]
  · show (s.permits.file _ _ _ _ _).byKey.size = k+1
    rw [PermitTable.file_size,if_neg (by simp [h.contains]),h.size]
  · rcases PermitTable.file_byKey hp with rfl | hp
    · show 1024+k < _
      omega
    · have hlt := h.ports key p hp
      omega
  · show Function.update s.permits.expiry s.permits.serial (k+1 : ℚ) serial ≤ _
    push_cast
    by_cases hserial : serial = s.permits.serial
    · subst hserial
      simp
    · rw [Function.update_of_ne hserial]
      exact (h.expired serial).trans (by simp)

theorem runAll {n : ℕ} (hn : (n : ℤ) ≤ permitCapacity) :
    Queried n (Prog.runAll PolicyCall.body
      (init .twoDomains [.dotted 10 0 0 5] (.every 1)) ((List.range n).map .dnsQuery)) := by
  induction n with
  | zero =>
    refine ⟨rfl,rfl,by decide,fun i => ?_,rfl,rfl,fun key p hp => (by cases hp),
      fun serial => ?_⟩
    · simp [init,Clock.every]
    · exact le_rfl
  | succ n ih =>
    have hn' : (n : ℤ) < permitCapacity := by
      push_cast at hn
      omega
    rw [List.range_succ,List.map_append,Prog.runAll_append]
    exact (ih hn'.le).step hn'

theorem refused (h : Queried k s) (hk : (k : ℤ) = permitCapacity) :
    ((PolicyCall.dnsQuery k).body.run s).1 = .raised capacityError ∧ s.livePermits s.now = 0 := by
  constructor
  · rw [h.run,fileControlFlowLocked_full]
    refine ⟨h.opened,fun hgone => (by cases hgone.1),h.contains,?_⟩
    rw [ticked_permits,h.size,hk]
  · rw [livePermits,Dict.countP,List.countP_eq_zero]
    intro e _
    rw [h.now,decide_eq_true_eq,not_lt]
    exact h.expired _

end Queried

def exhausted : EgressPolicy :=
  Prog.runAll PolicyCall.body (init .twoDomains [.dotted 10 0 0 5] (.every 1))
    ((List.range 384).map .dnsQuery)

theorem exhausted_steps : Pool.Steps PolicyCall.body Pool.anyCall
    (Pool.start (init .twoDomains [.dotted 10 0 0 5] (.every 1))) (Pool.start exhausted) :=
  Pool.steps_runAll (fun _ _ _ => trivial) _ _

theorem permit_capacity_exhausted :
    ((fileControlFlowLocked .dns (dnsQueryKey 384) "" none 0 "384" 385 exhausted).1 =
        .raised capacityError → maxPending+maxActive ≤ exhausted.livePermits exhausted.now) ↔
      exhausted.Off ∨
        (ControlKind.dns = .tlsRelay ∧ exhausted.nat.generation.get? 0 ≠ none) ∨
        exhausted.permits.byKey.contains (dnsQueryKey 384) = true ∨
        exhausted.permits.byKey.size < maxPending+maxActive ∨
        ∀ p ∈ exhausted.permits.byKey.values, exhausted.now < exhausted.permits.expiry p.serial := by
  have hsteps := exhausted_steps
  generalize exhausted = s at hsteps ⊢
  exact (permit_capacity .twoDomains [.dotted 10 0 0 5] (.every 1) (Pool.start s) hsteps).2
    .dns (dnsQueryKey 384) "" none 0 "384" 385 s.now

/-- A reachable state in which a DNS query is refused for want of room, although all permits of
the table have expired. -/
theorem expired_permits_block :
    Pool.Steps PolicyCall.body Pool.anyCall
        (Pool.start (init .twoDomains [.dotted 10 0 0 5] (.every 1))) (Pool.start exhausted) ∧
      ((PolicyCall.dnsQuery 384).body.run exhausted).1 =
        .raised (.runtime "control flow permit table is full") ∧
      exhausted.livePermits exhausted.now = 0 ∧ ¬maxPending+maxActive ≤ 0 := by
  obtain ⟨hraised,hlive⟩ := (Queried.runAll (n:=384) (by decide)).refused (by decide)
  exact ⟨exhausted_steps,hraised,hlive,by decide⟩

end FakeNetNG
