import FakeNetNG.RelayExpiry
import FakeNetNG.PolicyPermits

/-!
# What an operation brings to its sections

A section gets its clock reading, and the mapping behind a `tls_relay` permit, from an
earlier step of its call. `Fits` says what these values have to do with the state that
the section finds, whatever the other threads did in between: the reading is one that
the clock has passed, and the mapping was consumed for the same domain and server.
-/

namespace FakeNetNG

namespace RelayNat

/-- What a section can do to the relay tables: `now` is the reading that it works with, `passed`
that the clock has passed this reading, and `off` that the policy is closed or suspended. -/
inductive Change (off passed : Prop) (now : ℚ) (n : RelayNat) : RelayNat → Prop
  | same : Change off passed now n n
  | clear : off → Change off passed now n n.clear
  | close : off → Change off passed now n
      { n.clear with tombstones := Dict.empty, clientTombstones := Dict.empty }
  | drop (p) : passed → Change off passed now n (n.drop now p)
  | clean : passed → Change off passed now n (n.cleanup now)
  | spend : passed → Change off passed now n
      { n.cleanup now with lastGeneration := (n.cleanup now).lastGeneration+1 }
  | insert (m) : passed → m.generation = (n.cleanup now).lastGeneration+1 →
      (n.cleanup now).client.get? m.clientKey = none →
      ((n.cleanup now).clientTombstones.get? m.clientKey).getD 0 ≤ now →
      Change off passed now n
        ({ n.cleanup now with lastGeneration := (n.cleanup now).lastGeneration+1 }.insert m now)
  | refresh (m) : passed → Change off passed now n ((n.cleanup now).refresh m now)
  | consume (m) : passed → Change off passed now n ((n.cleanup now).consume m now)
  | activate (m) : passed → Change off passed now n (n.activate m now)
  | retain (g m grace) : passed → n.generation.get? g = some m →
      Change off passed now n (n.retain m now grace)
  | remove (g m) : passed → n.generation.get? g = some m → Change off passed now n (n.remove m now)

end RelayNat

theorem PolicySection.cfg (sec : PolicySection) (s : EgressPolicy) : (sec.apply s).cfg = s.cfg := by
  by_cases hc : sec.isControl = false
  · exact (sec.sameControl s hc).cfg
  · cases sec with
    | updateLocalIpv4 addresses =>
      rcases EgressPolicy.updateLocalIpv4Locked_cases addresses s with hu | ⟨-,hu⟩
      · rw [apply,hu]
        rfl
      · exact hu.cfg
    | activateRoutes prepared =>
      simp only [apply,EgressPolicy.activateRoutesLocked]
      split
      · rfl
      · split_ifs <;> rfl
    | suspendTakeover reason =>
      simp only [apply,EgressPolicy.suspendTakeover]
      split_ifs <;> rfl
    | suspend => rfl
    | close => rfl
    | _ => exact absurd rfl hc

theorem PolicySection.seen (sec : PolicySection) (s : EgressPolicy) {t : ℚ} (h : s.clock.Seen t) :
    (sec.apply s).clock.Seen t := by
  rcases sec.clock s with hc | hc
  · rw [hc]
    exact h
  · rw [hc]
    exact Clock.seen_next h

namespace PolicySection

/-- The reading of the clock that a section works with. -/
def reading : PolicySection → EgressPolicy → ℚ
  | resolveDnsRule _ now, _ | leaseFor _ now, _ | matchControlFlow _ now, _
  | createRelayMapping _ _ _ _ _ _ _ now, _ | matchForward _ now, _ | matchReverse _ now, _
  | consumeRelayTarget _ now, _ => now
  | _, s => s.now

def token? : PolicySection → Option String
  | fileControlFlow _ _ _ _ _ token _ => some token
  | _ => none

/-- What the checks before the last section of `register_control_flow` have established. -/
def Checked (kind : ControlKind) (key : FlowKey) (domain : String)
    (relay : Option RelayNatMapping) (s : EgressPolicy) : Prop :=
  match kind with
  | .dns => key.dstIp = s.cfg.externalDnsServer ∧ key.dport = 53
  | .tlsRelay => ∃ m, relay = some m ∧ m.domain = domain ∧ m.serverIp = key.dstIp ∧
      m.serverPort = key.dport ∧ m.generation ≤ s.nat.lastGeneration ∧
      (s.nat.cell m).consumed = true
  | .other _ => False

/-- The values brought to a section fit the state that it finds. -/
def Fits : PolicySection → EgressPolicy → Prop
  | resolveDnsRule _ now, s | leaseFor _ now, s | matchControlFlow _ now, s
  | createRelayMapping _ _ _ _ _ _ _ now, s | matchForward _ now, s | matchReverse _ now, s
  | consumeRelayTarget _ now, s => s.clock.Seen now
  | fileControlFlow kind key domain relay _ _ _, s => Checked kind key domain relay s
  | _, _ => True

end PolicySection

/-- The policy is closed or suspended. -/
def EgressPolicy.Off (s : EgressPolicy) : Prop := s.closed = true ∨ s.egressSuspended = true

theorem EgressPolicy.ensureOpen_eq_none_iff (s : EgressPolicy) : s.ensureOpen = none ↔ ¬s.Off := by
  unfold ensureOpen Off
  by_cases hc : s.closed = true
  · simp [hc]
  · by_cases hs : s.egressSuspended = true <;> simp [hc,hs]

namespace EgressPolicy

open RelayNat

section Change

variable {off passed : Prop} (hp : passed)
include hp

theorem leaseForLocked_change (ip : Addr) (now : ℚ) (s : EgressPolicy) :
    Change off passed now s.nat (leaseForLocked ip now s).2.nat := by
  unfold leaseForLocked
  split_ifs
  · exact .same
  · exact .clean hp

theorem matchControlFlowLocked_change (key : FlowKey) (now : ℚ) (s : EgressPolicy) :
    Change off passed now s.nat (matchControlFlowLocked key now s).2.nat := by
  unfold matchControlFlowLocked
  split_ifs
  · exact .same
  · dsimp only
    split
    · exact .clean hp
    · split_ifs <;> exact .clean hp

theorem createRelayMappingLocked_change (lease : Lease) (sampleIp : Addr) (samplePort : ℕ)
    (serverIp : Addr) (serverPort : ℕ) (relayIp : Addr) (relayPort : ℕ) (now : ℚ)
    (s : EgressPolicy) :
    Change off passed now s.nat (createRelayMappingLocked lease sampleIp samplePort serverIp
      serverPort relayIp relayPort now s).2.nat := by
  unfold createRelayMappingLocked
  split
  · exact .same
  · dsimp only
    split
    · exact .clean hp
    · split_ifs with hexp hdup htomb hpend hsrc hrev
      · exact .clean hp
      · exact .clean hp
      · exact .clean hp
      · exact .clean hp
      · exact .clean hp
      · exact .spend hp
      · simp only [Bool.or_eq_true,not_or,Bool.not_eq_true,Dict.contains_eq_false_iff] at hdup
        simp only [not_or,not_lt] at htomb
        exact .insert _ hp rfl hdup.2 htomb.2

theorem matchNatLocked_change (table : RelayNat → Dict FlowKey RelayNatMapping) (key : FlowKey)
    (now : ℚ) (s : EgressPolicy) :
    Change off passed now s.nat (matchNatLocked table key now s).2.nat := by
  unfold matchNatLocked
  split_ifs
  · exact .same
  · dsimp only
    split
    · exact .clean hp
    · split_ifs
      · exact .refresh _ hp
      · exact .clean hp
      · exact .clean hp

theorem consumeRelayTargetLocked_change (key : Addr × ℕ) (now : ℚ) (s : EgressPolicy) :
    Change off passed now s.nat (consumeRelayTargetLocked key now s).2.nat := by
  unfold consumeRelayTargetLocked
  dsimp only
  split
  · exact .clean hp
  · split_ifs
    · exact .clean hp
    · exact .consume _ hp

end Change
end EgressPolicy

open EgressPolicy RelayNat in
theorem PolicySection.change (sec : PolicySection) (s : EgressPolicy) :
    Change (sec.apply s).Off (sec.Fits s → (sec.apply s).clock.Seen (sec.reading s)) (sec.reading s)
      s.nat (sec.apply s).nat := by
  have hread : s.clock.next.Seen s.now := Clock.seen_next_of_le le_rfl
  cases sec with
  | tick => exact .same
  | updateLocalIpv4 addresses =>
    rcases updateLocalIpv4Locked_cases addresses s with hu | ⟨-,hu⟩
    · rw [apply,hu]
      exact .clear (.inr rfl)
    · have hnat : (apply (.updateLocalIpv4 addresses) s).nat = _ := hu.nat
      rw [hnat]
      refine .drop _ fun _ => ?_
      rw [apply,hu.clock]
      exact hread
  | activateRoutes prepared =>
    simp only [apply,activateRoutesLocked]
    split
    · exact .same
    · split_ifs <;> exact .same
  | suspendTakeover reason =>
    simp only [apply,EgressPolicy.suspendTakeover]
    split_ifs <;> exact .same
  | suspend => exact .clear (.inr rfl)
  | resolveDnsRule qname now =>
    have hclean : (apply (.resolveDnsRule qname now) s).nat = s.nat.cleanup now := by
      simp only [apply,resolveDnsRuleLocked]
      split_ifs <;> rfl
    rw [hclean]
    exact .clean fun h => seen _ s h
  | registerAlias domain aliasName ttl =>
    simp only [apply,registerAliasLocked]
    split <;> exact .same
  | replaceLeases domain replacement =>
    simp only [apply,replaceLeasesLocked]
    split <;> exact .same
  | leaseFor ip now => exact leaseForLocked_change (fun h => seen _ s h) ip now s
  | relayFlow proto dstIp dport domain generation =>
    simp only [apply,relayFlowLocked]
    split
    · exact .same
    · split
      · exact .clean fun _ => hread
      · split_ifs <;> exact .clean fun _ => hread
  | fileControlFlow kind key domain relay generation token expires =>
    rw [apply,fileControlFlowLocked_nat]
    exact .same
  | matchControlFlow key now => exact matchControlFlowLocked_change (fun h => seen _ s h) key now s
  | revokeControlFlow token =>
    simp only [apply,revokeControlFlowLocked]
    split <;> exact .same
  | createRelayMapping lease sampleIp samplePort serverIp serverPort relayIp relayPort now =>
    exact createRelayMappingLocked_change (fun h => seen _ s h) ..
  | matchForward key now => exact matchNatLocked_change (fun h => seen _ s h) _ key now s
  | matchReverse key now => exact matchNatLocked_change (fun h => seen _ s h) _ key now s
  | consumeRelayTarget key now =>
    exact consumeRelayTargetLocked_change (fun h => seen _ s h) key now s
  | activateRelayMapping generation =>
    simp only [apply,activateRelayMappingLocked]
    split
    · exact .same
    · split_ifs
      · exact .same
      · exact .same
      · exact .same
      · exact .activate _ fun _ => hread
  | closeRelayMapping generation grace =>
    simp only [apply,closeRelayMappingLocked]
    split
    · exact .same
    · rename_i m hm
      split_ifs
      · exact .retain generation m _ (fun _ => hread) hm
      · exact .remove generation m (fun _ => hread) hm
  | drainExpiredLeases => exact .clean fun _ => hread
  | close => exact .close (.inl rfl)

namespace RelayNat

variable {n n' : RelayNat}

/-- A mapping that has been handed to the relay stays so. -/
def KeepsConsumed (n n' : RelayNat) : Prop :=
  ∀ g ≤ n.lastGeneration, (n.cells g).consumed = true → (n'.cells g).consumed = true

theorem setCell_keepsConsumed (n : RelayNat) (m : RelayNatMapping) {c : MappingCell}
    (h : (n.cell m).consumed = true → c.consumed = true) : KeepsConsumed n (n.setCell m c) := by
  intro g _ hc
  by_cases hgm : g = m.generation
  · subst hgm
    simpa [setCell] using h hc
  · simpa [setCell,Function.update_of_ne hgm] using hc

theorem Change.keepsConsumed {off passed : Prop} {now : ℚ} (h : Change off passed now n n') :
    KeepsConsumed n n' := by
  have hcells := (cleanup_shrinks n now).cells
  have hlast := (cleanup_shrinks n now).lastGeneration
  have hclean : ∀ {n'}, KeepsConsumed (n.cleanup now) n' → KeepsConsumed n n' := by
    intro n' hkeep g hg hc
    rw [← hlast] at hg
    rw [← hcells] at hc
    exact hkeep g hg hc
  have hsame : ∀ {n' : RelayNat}, n'.cells = n.cells → KeepsConsumed n n' := by
    intro n' he g _ hc
    rw [he]
    exact hc
  cases h with
  | same => exact hsame rfl
  | clear => exact hsame rfl
  | close => exact hsame rfl
  | drop p => exact hsame (drop_shrinks n now p).cells
  | clean => exact hsame hcells
  | spend => exact hsame hcells
  | insert m _ hg =>
    refine hclean fun g hle hc => ?_
    have hne : g ≠ m.generation := by omega
    simpa [RelayNat.insert,Function.update_of_ne hne] using hc
  | refresh m => exact hclean (setCell_keepsConsumed _ m id)
  | consume m => exact hclean (setCell_keepsConsumed _ m fun _ => rfl)
  | activate m =>
    intro g hg hc
    have hset := setCell_keepsConsumed (n.releasePending m) m
      (c:={ (n.releasePending m).cell m with
        active := true, expiresAt := now+relayIdleTimeout+30 }) id
    exact hset g (by simpa using hg) (by simpa using hc)
  | retain g m grace =>
    intro g hg hc
    have hset := setCell_keepsConsumed (n.releaseQuota m) m
      (c:={ (n.releaseQuota m).cell m with active := false, expiresAt := now+grace }) id
    exact hset g (by simpa using hg) (by simpa using hc)
  | remove g m => exact hsame (remove_shrinks n m now).cells

end RelayNat

theorem PolicySection.keepsConsumed (sec : PolicySection) (s : EgressPolicy) :
    RelayNat.KeepsConsumed s.nat (sec.apply s).nat := (sec.change s).keepsConsumed

/-- What any number of sections leaves as it was. -/
structure Later (s s' : EgressPolicy) : Prop where
  seen : ∀ t, s.clock.Seen t → s'.clock.Seen t
  cfg : s'.cfg = s.cfg
  lastGeneration : s.nat.lastGeneration ≤ s'.nat.lastGeneration
  consumed : RelayNat.KeepsConsumed s.nat s'.nat

namespace Later

variable {s s' s'' : EgressPolicy}

theorem refl (s : EgressPolicy) : Later s s := ⟨fun _ h => h,rfl,le_rfl,fun _ _ h => h⟩

theorem trans (h : Later s s') (h' : Later s' s'') : Later s s'' :=
  ⟨fun t ht => h'.seen t (h.seen t ht),h'.cfg.trans h.cfg,
    h.lastGeneration.trans h'.lastGeneration,
    fun g hg hc => h'.consumed g (hg.trans h.lastGeneration) (h.consumed g hg hc)⟩

end Later

theorem PolicySection.later (sec : PolicySection) (s : EgressPolicy) : Later s (sec.apply s) :=
  ⟨fun _ ht => sec.seen s ht,sec.cfg s,(sec.regular s).ext.lastGeneration,sec.keepsConsumed s⟩

namespace PolicySection

theorem Checked.later {kind : ControlKind} {key : FlowKey} {domain : String}
    {relay : Option RelayNatMapping} {s s' : EgressPolicy} (h : Checked kind key domain relay s)
    (hl : Later s s') : Checked kind key domain relay s' := by
  cases kind with
  | dns =>
    obtain ⟨hip,hport⟩ := h
    exact ⟨hip.trans (by rw [hl.cfg]),hport⟩
  | tlsRelay =>
    obtain ⟨m,hm,hdomain,hip,hport,hg,hcons⟩ := h
    exact ⟨m,hm,hdomain,hip,hport,hg.trans hl.lastGeneration,hl.consumed _ hg hcons⟩
  | other kind => exact h

/-- The sections that take nothing from an earlier step. -/
def isPlain : PolicySection → Bool
  | resolveDnsRule .. | leaseFor .. | fileControlFlow .. | matchControlFlow ..
  | createRelayMapping .. | matchForward .. | matchReverse .. | consumeRelayTarget .. => false
  | _ => true

theorem fits_of_plain {sec : PolicySection} (h : sec.isPlain = true) (s : EgressPolicy) :
    sec.Fits s := by
  cases sec with
  | resolveDnsRule | leaseFor | fileControlFlow | matchControlFlow | createRelayMapping
  | matchForward | matchReverse | consumeRelayTarget => cases h
  | _ => trivial

theorem token?_of_plain {sec : PolicySection} (h : sec.isPlain = true) : sec.token? = none := by
  cases sec with
  | fileControlFlow => cases h
  | _ => rfl

end PolicySection

def PolicyCall.isPlain : PolicyCall → Bool
  | resolveDnsRule .. | leaseFor .. | registerControlFlow .. | matchControlFlow ..
  | createRelayMapping .. | matchRelayForward .. | matchRelayReverse ..
  | consumeRelayTarget .. => false
  | _ => true

theorem PolicyCall.uses_plain {c : PolicyCall} (hc : c.isPlain = true) {sec : PolicySection}
    (h : c.Uses sec) : sec.isPlain = true := by
  cases c with
  | activateReviewedIpRoutes bindings =>
    obtain ⟨prepared,rfl⟩ := h
    rfl
  | registerAlias domain aliasName ttl =>
    obtain ⟨domain',aliasName',rfl⟩ := h
    rfl
  | replaceLeases domain records =>
    obtain rfl | ⟨domain',replacement,rfl⟩ := h
    · rfl
    · rfl
  | updateLocalIpv4 | suspendTakeover | suspend | revokeControlFlow | activateRelayMapping
  | relayClientMappingState | relayClientMappingActive | closeRelayMapping | drainExpiredLeases
  | close =>
    cases h
    rfl
  | matchReviewedIp | takeoverAvailable | matchesTakeoverSink | isExactLocalIpv4 => exact h.elim
  | _ => cases hc

/-- No permit has the token of the call. -/
def PolicyCall.Fresh (c : PolicyCall) (s : EgressPolicy) : Prop :=
  ∀ token, c.token? = some token → s.permits.byToken.get? token = none

/-- One atomic step of a call `c`, with values that fit the state; where the tokens are
`fresh`, the token that it files is new. -/
def Brought (fresh : Prop) (c : PolicyCall) (f : EgressPolicy → EgressPolicy) (s : EgressPolicy) :
    Prop :=
  f = id ∨ ∃ sec : PolicySection, f = sec.apply ∧ sec.Fits s ∧
    ∀ token, sec.token? = some token → c.token? = some token ∧ (fresh → c.Fresh s)

/-- What a call relies on while it is not running. -/
def Rely (fresh : Prop) (c : PolicyCall) (s s' : EgressPolicy) : Prop :=
  Later s s' ∧ (fresh → c.Fresh s → c.Fresh s')

namespace EgressPolicy

variable {fresh : Prop} {c : PolicyCall} {s s' : EgressPolicy}

theorem rely_refl (fresh : Prop) (c : PolicyCall) (s : EgressPolicy) : Rely fresh c s s :=
  ⟨.refl s,fun _ h => h⟩

theorem rely_trans {s'' : EgressPolicy} (h : Rely fresh c s s') (h' : Rely fresh c s' s'') :
    Rely fresh c s s'' :=
  ⟨h.1.trans h'.1,fun hf hs => h'.2 hf (h.2 hf hs)⟩

theorem brought_id : Brought fresh c id s := .inl rfl

theorem brought_of (sec : PolicySection) (hfits : sec.Fits s) (h : sec.token? = none) :
    Brought fresh c sec.apply s := by
  refine .inr ⟨sec,rfl,hfits,fun token ht => ?_⟩
  rw [h] at ht
  cases ht

/-- The rest of a call whose values fit. -/
abbrev Fitted {α : Type} (fresh : Prop) (c : PolicyCall) (p : Prog EgressPolicy α)
    (s : EgressPolicy) : Prop :=
  p.Brings (fun s => s.nat.Numbered) (Rely fresh c) (Brought fresh c) s

theorem clocked_fitted {α : Type} {m : ℚ → EgressPolicy → α × EgressPolicy}
    (sec : ℚ → PolicySection) (hsec : ∀ now, (fun s => (m now s).2) = (sec now).apply)
    (hfits : ∀ now s, s.clock.Seen now → (sec now).Fits s) (htoken : ∀ now, (sec now).token? = none) :
    Fitted fresh c (readClock.bind fun now => .locked (m now)) s := by
  intro s₁ _ _
  refine ⟨brought_of .tick trivial rfl,Prog.brings_locked fun s₂ hr _ => ?_⟩
  have hseen : s₂.clock.Seen s₁.now := hr.1.seen _ (Clock.seen_next_of_le le_rfl)
  rw [hsec]
  exact brought_of (sec s₁.now) (hfits _ _ hseen) (htoken _)

theorem mapReply_fitted {α : Type} {f : α → Reply} {p : Prog EgressPolicy α} (h : Fitted fresh c p s) :
    Fitted fresh c (mapReply f p) s := h.bind fun _ _ => trivial

theorem leaseFor_fitted (ip : Addr) (port : ℕ) : Fitted fresh c (leaseFor ip port) s := by
  unfold leaseFor
  split
  · exact clocked_fitted (fun now => .leaseFor ip now) (fun _ => rfl) (fun _ _ h => h) fun _ => rfl
  · trivial

theorem createRelayMapping_fitted (sampleIp : Addr) (samplePort : ℕ) (serverIp : Addr)
    (serverPort : ℕ) (relayIp : Addr) (relayPort : ℕ) :
    Fitted fresh c (createRelayMapping sampleIp samplePort serverIp serverPort relayIp relayPort)
      s := by
  refine Prog.Brings.bind (leaseFor_fitted serverIp serverPort) fun lease s => ?_
  cases lease with
  | none => trivial
  | some lease =>
    refine Prog.Brings.bind (Prog.brings_locked fun _ _ _ => brought_id) fun sampleLocal s => ?_
    cases sampleLocal with
    | false => trivial
    | true =>
      refine Prog.Brings.bind (Prog.brings_locked fun _ _ _ => brought_id) fun relayLocal s => ?_
      cases relayLocal with
      | false => trivial
      | true =>
        refine Prog.Brings.bind (Prog.brings_locked fun _ _ _ => brought_id) fun cfg s => ?_
        split_ifs
        · trivial
        · exact clocked_fitted (fun now => .createRelayMapping lease sampleIp samplePort serverIp
            serverPort relayIp relayPort now) (fun _ => rfl) (fun _ _ h => h) fun _ => rfl

theorem fresh_of_loses (h : c.Fresh s) (hl : PermitTable.Loses s.permits s'.permits) : c.Fresh s' := by
  intro token ht
  cases hg : s'.permits.byToken.get? token with
  | none => rfl
  | some p =>
    have hold := hl.byToken token p hg
    rw [h token ht] at hold
    cases hold

theorem fileControlFlow_fitted (kind : ControlKind) (key : FlowKey) (domain : String)
    (relay : Option RelayNatMapping) (ttl : ℤ) (generation : ℕ) {token : String}
    (htoken : c.token? = some token) (hchecked : PolicySection.Checked kind key domain relay s)
    (hfresh : fresh → c.Fresh s) :
    Fitted fresh c (fileControlFlow kind key domain relay ttl generation token) s := by
  intro s₁ hr₁ _
  refine ⟨brought_of .tick trivial rfl,Prog.brings_locked fun s₂ hr₂ _ => ?_⟩
  have hlater : Later s s₂ := (hr₁.1.trans (PolicySection.later .tick s₁)).trans hr₂.1
  refine .inr ⟨.fileControlFlow kind key domain relay generation token (s₁.now+max 1 ttl),rfl,
    hchecked.later hlater,fun token' ht => ⟨?_,fun hf => ?_⟩⟩
  · cases ht
    exact htoken
  · have htick : c.Fresh s₁.ticked := fun t ht => hr₁.2 hf (hfresh hf) t ht
    exact hr₂.2 hf htick

theorem registerTlsRelay_fitted (cfg : PolicyConfig) (key : FlowKey) (domain : Option String)
    (ttl : ℤ) (generation : ℕ) {token : String} (htoken : c.token? = some token)
    (hfresh : fresh → c.Fresh s) :
    Fitted fresh c (registerTlsRelay cfg key domain ttl generation token) s := by
  unfold registerTlsRelay
  cases permitDomain cfg domain with
  | error e => trivial
  | ok domain =>
    refine Prog.brings_locked_bind fun s₁ hr hnumbered => ?_
    let sec := PolicySection.relayFlow key.proto key.dstIp key.dport domain generation
    refine ⟨brought_of sec trivial rfl,?_⟩
    cases hok : (relayFlowLocked key.proto key.dstIp key.dport domain generation s₁).1 with
    | error e => trivial
    | ok m =>
      obtain ⟨hg,hfits,-,-⟩ := relayFlowLocked_ok hnumbered hok
      refine fileControlFlow_fitted _ _ _ _ _ _ htoken ?_ fun hf => ?_
      · have hspent := hnumbered.spent m (.inr (.inr (.inr ((Dict.mem_values_iff _ _).mpr ⟨_,hg⟩))))
        simp only [relayFlowFits,Bool.and_eq_true,decide_eq_true_eq] at hfits
        obtain ⟨⟨⟨⟨-,hcons⟩,hdomain⟩,hip⟩,hport⟩ := hfits
        have hchecked : PolicySection.Checked .tlsRelay key domain (some m) s₁ :=
          ⟨m,rfl,hdomain,hip,hport,hspent,hcons⟩
        exact hchecked.later (sec.later s₁)
      · exact fresh_of_loses (hr.2 hf (hfresh hf)) (sec.permits_loses s₁ rfl)

theorem registerControlFlow_fitted (kind : ControlKind) (key : FlowKey) (domain : Option String)
    (ttl : ℤ) (generation : Option ℕ) (token : String)
    (hfresh : fresh → (PolicyCall.registerControlFlow kind key domain ttl generation token).Fresh s) :
    Fitted fresh (.registerControlFlow kind key domain ttl generation token)
      (registerControlFlow kind key domain ttl generation token) s := by
  refine Prog.brings_locked_bind fun s₁ hr₁ _ => ⟨brought_id,?_⟩
  have hfresh₁ := fun hf => hr₁.2 hf (hfresh hf)
  cases s₁.ensureOpen with
  | some e => trivial
  | none =>
    refine Prog.brings_locked_bind fun s₂ hr₂ _ => ⟨brought_id,?_⟩
    have hfresh₂ := fun hf => hr₂.2 hf (hfresh₁ hf)
    split_ifs with hforeign
    · trivial
    · refine Prog.brings_locked_bind fun s₃ hr₃ _ => ⟨brought_id,?_⟩
      have hfresh₃ := fun hf => hr₃.2 hf (hfresh₂ hf)
      cases kind with
      | other kind => trivial
      | dns =>
        change Fitted fresh _ (registerDns s₃.cfg key ttl token) s₃
        unfold registerDns
        split_ifs with hbad
        · trivial
        · simp only [not_or,ne_eq,not_not] at hbad
          exact fileControlFlow_fitted _ _ _ _ _ _ rfl ⟨hbad.1,hbad.2.1⟩ hfresh₃
      | tlsRelay =>
        exact registerTlsRelay_fitted s₃.cfg key domain ttl (generation.getD 0) rfl hfresh₃

theorem body_fitted (c : PolicyCall) (h : fresh → c.Fresh s) : Fitted fresh c c.body s := by
  by_cases hplain : c.isPlain = true
  · refine c.body_each.brings fun f hf s => ?_
    rcases hf with rfl | ⟨sec,rfl,hu⟩
    · exact brought_id
    · have hsec := PolicyCall.uses_plain hplain hu
      exact brought_of sec (PolicySection.fits_of_plain hsec s) (PolicySection.token?_of_plain hsec)
  · cases c with
    | resolveDnsRule qname =>
      refine Prog.brings_locked_bind fun s₁ _ _ => ⟨brought_id,?_⟩
      cases Hostname.normalizeHostname s₁.cfg.idna qname with
      | error e => trivial
      | ok qname =>
        exact clocked_fitted (fun now => .resolveDnsRule qname now) (fun _ => rfl)
          (fun _ _ h => h) fun _ => rfl
    | leaseFor ip port => exact mapReply_fitted (leaseFor_fitted ip port)
    | registerControlFlow kind key domain ttl generation token =>
      exact registerControlFlow_fitted kind key domain ttl generation token h
    | matchControlFlow key =>
      exact mapReply_fitted (clocked_fitted (fun now => .matchControlFlow key now) (fun _ => rfl)
        (fun _ _ h => h) fun _ => rfl)
    | createRelayMapping sampleIp samplePort serverIp serverPort relayIp relayPort =>
      exact mapReply_fitted (createRelayMapping_fitted ..)
    | matchRelayForward key =>
      exact mapReply_fitted (clocked_fitted (fun now => .matchForward key now) (fun _ => rfl)
        (fun _ _ h => h) fun _ => rfl)
    | matchRelayReverse key =>
      exact mapReply_fitted (clocked_fitted (fun now => .matchReverse key now) (fun _ => rfl)
        (fun _ _ h => h) fun _ => rfl)
    | consumeRelayTarget sampleIp samplePort =>
      exact mapReply_fitted (clocked_fitted (fun now => .consumeRelayTarget (sampleIp,samplePort) now)
        (fun _ => rfl) (fun _ _ h => h) fun _ => rfl)
    | _ => exact absurd rfl hplain

/-- Two calls do not draw the same token. -/
def Apart (fresh : Prop) (c d : PolicyCall) : Prop :=
  fresh → ∀ token, c.token? = some token → d.token? ≠ some token

theorem brought_later {f : EgressPolicy → EgressPolicy} (h : Brought fresh c f s) :
    Later s (f s) := by
  rcases h with rfl | ⟨sec,rfl,-⟩
  · exact .refl s
  · exact sec.later s

theorem brought_numbered {f : EgressPolicy → EgressPolicy} (h : Brought fresh c f s)
    (hn : s.nat.Numbered) : (f s).nat.Numbered := by
  rcases h with rfl | ⟨sec,rfl,-⟩
  · exact hn
  · exact (sec.regular s).numbered hn

theorem brought_rely {f : EgressPolicy → EgressPolicy} {d : PolicyCall} (h : Brought fresh c f s)
    (hcd : Apart fresh c d) : Rely fresh d s (f s) := by
  refine ⟨brought_later h,fun hf hd => ?_⟩
  rcases h with rfl | ⟨sec,rfl,-,htoken⟩
  · exact hd
  · by_cases hfiles : sec.filesPermit = false
    · exact fresh_of_loses hd (sec.permits_loses s hfiles)
    · cases sec with
      | fileControlFlow kind key domain relay generation token expires =>
        obtain ⟨hc,-⟩ := htoken token rfl
        intro token' ht
        have hne : token' ≠ token := by
          rintro rfl
          exact hcd hf token' hc ht
        have hold := hd token' ht
        simp only [PolicySection.apply,fileControlFlowLocked]
        split
        · exact hold
        · split_ifs
          · exact hold
          · exact hold
          · cases hg : (s.permits.file token kind key domain expires).byToken.get? token' with
            | none => rfl
            | some p =>
              rcases PermitTable.file_byToken hg with heq | hp
              · exact absurd heq hne
              · rw [hold] at hp
                cases hp
      | _ => exact absurd rfl hfiles

end EgressPolicy

open EgressPolicy

/-- Only calls whose token is new may start. -/
def drawsFresh (P : Pool EgressPolicy PolicyCall Reply) (c : PolicyCall) : Prop :=
  c.Fresh P.shared ∧ ∀ t d p, P.threads t = some (d,p) → Apart True c d

section Runs

variable {fresh : Prop} {allows : Pool EgressPolicy PolicyCall Reply → PolicyCall → Prop}
  {J : EgressPolicy → Prop}

theorem fitted_outline
    (hallows : ∀ P c, allows P c → fresh → drawsFresh P c)
    (hJ : ∀ c f s, Brought fresh c f s → s.nat.Numbered → J s → J (f s)) :
    Pool.Outline PolicyCall.body allows (fun s => s.nat.Numbered ∧ J s) (Fitted fresh)
      (Apart fresh) where
  call P c ha _ := body_fitted c fun hf => (hallows P c ha hf).1
  exec c f k s hp hs := by
    obtain ⟨hf,hk⟩ := hp s (rely_refl fresh c s) hs.1
    exact ⟨⟨brought_numbered hf hs.1,hJ c f s hf hs.1 hs.2⟩,hk⟩
  frame c f k d q s hcd hp hs hq := by
    obtain ⟨hf,-⟩ := hp s (rely_refl fresh c s) hs.1
    exact Prog.Brings.rely (R:=Rely fresh d) (fun _ _ _ => rely_trans) hq (brought_rely hf hcd)
  allows P c ha t d q ht := by
    refine ⟨fun hf => (hallows P c ha hf).2 t d q ht trivial,fun hf token hd hc => ?_⟩
    exact (hallows P c ha hf).2 t d q ht trivial token hc hd

variable {cfg : PolicyConfig} {localIpv4 : List Addr} {clock : Clock}
  {P P' : Pool EgressPolicy PolicyCall Reply}

variable (fresh) in
theorem fitted_of_steps (hallows : ∀ P c, allows P c → fresh → drawsFresh P c)
    (hJ : ∀ c f s, Brought fresh c f s → s.nat.Numbered → J s → J (f s))
    (h : Pool.Steps PolicyCall.body allows (Pool.start (init cfg localIpv4 clock)) P)
    (hinit : J (init cfg localIpv4 clock)) :
    Pool.Outlined (fun s => s.nat.Numbered ∧ J s) (Fitted fresh) (Apart fresh) P :=
  Pool.outlined_steps (fitted_outline hallows hJ) h
    (Pool.outlined_start ⟨RelayNat.Numbered.empty,hinit⟩)

theorem fitted_step (hp : Pool.Outlined (fun s => s.nat.Numbered ∧ J s) (Fitted fresh)
    (Apart fresh) P) (h : Pool.Step PolicyCall.body allows P P') :
    ∃ c f, Brought fresh c f P.shared ∧ P'.shared = f P.shared := by
  cases h with
  | call t c hn ha => exact ⟨c,id,brought_id,rfl⟩
  | exec t c f k he =>
    exact ⟨c,f,(hp.threads t c _ he _ (rely_refl fresh c P.shared) hp.shared.1).1,rfl⟩
  | ret t c a he => exact ⟨c,id,brought_id,rfl⟩

end Runs

end FakeNetNG
