import FakeNetNG.RelayGenerations

/-!
# The deadlines of relay mappings

Matching and consumption test the clock before they extend a deadline; activation and
teardown retention do not, and `register_control_flow` builds its permit with a second
reading that nothing compares with the deadline. `Timely` excludes exactly these steps,
and under it a deadline that the clock has passed stays passed.
-/

namespace FakeNetNG

def PolicySection.isQuiet : PolicySection → Bool
  | matchForward _ _ | matchReverse _ _ | consumeRelayTarget _ _ | activateRelayMapping _
  | closeRelayMapping _ _ => false
  | _ => true

def PolicyCall.isQuiet : PolicyCall → Bool
  | matchRelayForward _ | matchRelayReverse _ | consumeRelayTarget _ _ | activateRelayMapping _
  | closeRelayMapping _ _ => false
  | _ => true

open EgressPolicy RelayNat in
theorem PolicySection.quiet_cells (sec : PolicySection) (s : EgressPolicy) (h : sec.isQuiet = true)
    (g : ℕ) (hg : g ≤ s.nat.lastGeneration) : (sec.apply s).nat.cells g = s.nat.cells g := by
  have hclean : ∀ now, (s.nat.cleanup now).cells g = s.nat.cells g :=
    fun now => by rw [(cleanup_shrinks s.nat now).cells]
  cases sec with
  | tick => rfl
  | updateLocalIpv4 addresses =>
    rcases updateLocalIpv4Locked_cases addresses s with hu | ⟨-,hu⟩
    · rw [apply,hu]
      rfl
    · rw [apply,hu.nat,(drop_shrinks _ _ _).cells]
  | activateRoutes prepared =>
    simp only [apply,activateRoutesLocked]
    split
    · rfl
    · split_ifs <;> rfl
  | suspendTakeover reason =>
    simp only [apply,EgressPolicy.suspendTakeover]
    split_ifs <;> rfl
  | suspend => rfl
  | resolveDnsRule qname now =>
    simp only [apply,resolveDnsRuleLocked]
    split_ifs <;> exact hclean now
  | registerAlias domain aliasName ttl =>
    simp only [apply,registerAliasLocked]
    split <;> rfl
  | replaceLeases domain replacement =>
    simp only [apply,replaceLeasesLocked]
    split <;> rfl
  | leaseFor ip now =>
    simp only [apply,leaseForLocked]
    split_ifs
    · rfl
    · exact hclean now
  | relayFlow proto dstIp dport domain generation =>
    simp only [apply,relayFlowLocked]
    split
    · rfl
    · split
      · exact hclean s.now
      · split_ifs <;> exact hclean s.now
  | fileControlFlow kind key domain relay generation token expires =>
    rw [apply,fileControlFlowLocked_nat]
  | matchControlFlow key now =>
    simp only [apply,matchControlFlowLocked]
    split_ifs
    · rfl
    · split
      · exact hclean now
      · split_ifs <;> exact hclean now
  | revokeControlFlow token =>
    simp only [apply,revokeControlFlowLocked]
    split <;> rfl
  | createRelayMapping lease sampleIp samplePort serverIp serverPort relayIp relayPort now =>
    simp only [apply,createRelayMappingLocked]
    split
    · rfl
    · split
      · exact hclean now
      · split_ifs
        · exact hclean now
        · exact hclean now
        · exact hclean now
        · exact hclean now
        · exact hclean now
        · exact hclean now
        · -- the new cell has a new number
          have hlast := (cleanup_shrinks s.nat now).lastGeneration
          have hne : g ≠ (s.nat.cleanup now).lastGeneration+1 := by omega
          exact (Function.update_of_ne hne _ _).trans (hclean now)
  | matchForward key now => cases h
  | matchReverse key now => cases h
  | consumeRelayTarget key now => cases h
  | activateRelayMapping generation => cases h
  | closeRelayMapping generation grace => cases h
  | drainExpiredLeases => exact hclean s.now
  | close => rfl

theorem PolicyCall.uses_quiet {c : PolicyCall} (hc : c.isQuiet = true) {sec : PolicySection}
    (h : c.Uses sec) : sec.isQuiet = true := by
  cases c with
  | matchRelayForward key => cases hc
  | matchRelayReverse key => cases hc
  | consumeRelayTarget sampleIp samplePort => cases hc
  | activateRelayMapping generation => cases hc
  | closeRelayMapping generation grace => cases hc
  | _ =>
    cases sec with
    | matchForward key now => simp [Uses] at h
    | matchReverse key now => simp [Uses] at h
    | consumeRelayTarget key now => simp [Uses] at h
    | activateRelayMapping generation => simp [Uses] at h
    | closeRelayMapping generation grace => simp [Uses] at h
    | _ => rfl

theorem PolicyCall.quiet_cells {c : PolicyCall} (hc : c.isQuiet = true) (s : EgressPolicy) (g : ℕ)
    (hg : g ≤ s.nat.lastGeneration) : (c.body.run s).2.nat.cells g = s.nat.cells g := by
  have hkeep := c.body_keeps
    (I:=fun s' => s'.nat.cells g = s.nat.cells g ∧ g ≤ s'.nat.lastGeneration)
    fun sec hu s' hs => ⟨(sec.quiet_cells s' (uses_quiet hc hu) g hs.2).trans hs.1,
      hs.2.trans (sec.regular s').ext.lastGeneration⟩
  exact (hkeep.ensures.run ⟨rfl,hg⟩).1.1

namespace EgressPolicy

variable {s : EgressPolicy} {m : RelayNatMapping}

def deadline (s : EgressPolicy) (m : RelayNatMapping) : ℚ := (s.nat.cell m).expiresAt

/-- `m` is a mapping whose number is spent, and no other mapping has it. -/
structure Known (s : EgressPolicy) (m : RelayNatMapping) : Prop where
  numbered : s.nat.Numbered
  spent : m.generation ≤ s.nat.lastGeneration
  same : ∀ x, s.nat.Has x → x.generation = m.generation → x = m

theorem known_of_filed (hn : s.nat.Numbered) (h : s.nat.generation.get? m.generation = some m) :
    s.Known m := by
  have hm : s.nat.Has m := .inr (.inr (.inr ((Dict.mem_values_iff _ _).mpr ⟨_,h⟩)))
  exact ⟨hn,hn.spent m hm,fun x hx he => hn.unique x m hx hm he⟩

theorem Known.run (h : s.Known m) (c : PolicyCall) : (c.body.run s).2.Known m := by
  have hreg := c.regular s
  refine ⟨hreg.numbered h.numbered,h.spent.trans hreg.ext.lastGeneration,fun x hx he => ?_⟩
  rcases hreg.ext.has hx with hx | hx
  · exact h.same x hx he
  · have hle := h.spent
    omega

theorem Known.of_generation (h : s.Known m) {g : ℕ} {x : RelayNatMapping}
    (hx : s.nat.generation.get? g = some x) (hg : g = m.generation) : x = m := by
  refine h.same x (.inr (.inr (.inr ((Dict.mem_values_iff _ _).mpr ⟨g,hx⟩)))) ?_
  rw [h.numbered.key g x hx,hg]

/-- How an operation can change the cell of a mapping, with the test it made first. -/
inductive CellChange (s : EgressPolicy) (m : RelayNatMapping) : PolicyCall → MappingCell → Prop
  | same (c) : CellChange s m c (s.nat.cell m)
  | refresh (c) : c.isQuiet = false → s.now < s.deadline m → (s.nat.cell m).active = true →
      CellChange s m c { s.nat.cell m with expiresAt := s.now+relayIdleTimeout+30 }
  | consume (sampleIp samplePort) : s.now < s.deadline m → (s.nat.cell m).consumed = false →
      s.nat.client.get? (sampleIp,samplePort) = some m →
      CellChange s m (.consumeRelayTarget sampleIp samplePort)
        { s.nat.cell m with consumed := true, expiresAt := s.now+helloTimeout+5 }
  | activate : s.nat.generation.get? m.generation = some m → (s.nat.cell m).consumed = true →
      (s.nat.cell m).active = false → s.nat.active < maxActive →
      s.nat.activeBySource m.sampleIp < maxActivePerSource →
      CellChange s m (.activateRelayMapping m.generation)
        { s.nat.cell m with active := true, expiresAt := s.now+relayIdleTimeout+30 }
  | retain (grace) : s.nat.generation.get? m.generation = some m →
      0 < Option.getD grace relayTeardownGraceSeconds →
      CellChange s m (.closeRelayMapping m.generation grace)
        { s.nat.cell m with
          active := false, expiresAt := s.now+Option.getD grace relayTeardownGraceSeconds }

theorem matchNatLocked_cell (table : RelayNat → Dict FlowKey RelayNatMapping) (key : FlowKey)
    (now : ℚ) (s : EgressPolicy) (m : RelayNatMapping) :
    (matchNatLocked table key now s).2.nat.cell m = s.nat.cell m ∨
    now < s.deadline m ∧ (s.nat.cell m).active = true ∧
      (matchNatLocked table key now s).2.nat.cell m =
        { s.nat.cell m with expiresAt := now+relayIdleTimeout+30 } := by
  have hcell := (RelayNat.cleanup_shrinks s.nat now).cell
  unfold matchNatLocked
  split_ifs
  · exact .inl rfl
  · dsimp only
    split
    · exact .inl (hcell m)
    · rename_i x hx
      split_ifs with hlt hact
      · rw [cleanupLocked_nat,hcell] at hlt hact
        by_cases he : m.generation = x.generation
        · have hsame : s.nat.cell m = s.nat.cell x := by rw [RelayNat.cell,he,RelayNat.cell]
          refine .inr ⟨by rw [deadline,hsame]; exact hlt,by rw [hsame]; exact hact,?_⟩
          simp [RelayNat.refresh,RelayNat.setCell,RelayNat.cell,he,
            (RelayNat.cleanup_shrinks s.nat now).cells]
        · refine .inl (Eq.trans ?_ (hcell m))
          simp [RelayNat.refresh,RelayNat.setCell,RelayNat.cell,he]
      · exact .inl (hcell m)
      · exact .inl (hcell m)

theorem matchNatLocked_live {table : RelayNat → Dict FlowKey RelayNatMapping} {key : FlowKey}
    {now : ℚ} (h : (matchNatLocked table key now s).1 = some m) : now < s.deadline m := by
  have hcell := (RelayNat.cleanup_shrinks s.nat now).cell
  unfold matchNatLocked at h
  split_ifs at h
  dsimp only at h
  split at h
  · cases h
  · split_ifs at h with hlt hact
    · cases h
      rwa [cleanupLocked_nat,hcell] at hlt
    · cases h
      rwa [cleanupLocked_nat,hcell] at hlt

theorem consumeRelayTargetLocked_cell (sampleIp : Addr) (samplePort : ℕ) (h : s.Known m) :
    CellChange s m (.consumeRelayTarget sampleIp samplePort)
      ((consumeRelayTargetLocked (sampleIp,samplePort) s.now s.ticked).2.nat.cell m) := by
  have hsh := RelayNat.cleanup_shrinks s.nat s.now
  unfold consumeRelayTargetLocked
  dsimp only
  split
  · rw [cleanupLocked_nat,ticked_nat,hsh.cell]
    exact .same _
  · rename_i x hx
    have hx' := hsh.client _ x hx
    split_ifs with hstale
    · rw [cleanupLocked_nat,ticked_nat,hsh.cell]
      exact .same _
    · by_cases he : x.generation = m.generation
      · have hxm : x = m :=
          h.same x (.inr (.inr (.inl ((Dict.mem_values_iff _ _).mpr ⟨_,hx'⟩)))) he
        subst hxm
        simp only [cleanupLocked_nat,ticked_nat,hsh.cell,not_or,not_le,Bool.not_eq_true] at hstale
        simp only [cleanupLocked_nat,ticked_nat,RelayNat.consume,RelayNat.setCell_cell_self,hsh.cell]
        exact .consume _ _ hstale.2 hstale.1 hx'
      · have hcell : ((s.ticked.cleanupLocked s.now).nat.consume x s.now).cell m = s.nat.cell m := by
          rw [RelayNat.consume,RelayNat.setCell_cell_of_ne (Ne.symm he),cleanupLocked_nat,
            ticked_nat,hsh.cell]
        rw [hcell]
        exact .same _

theorem consumeRelayTargetLocked_live {key : Addr × ℕ} {now : ℚ}
    (h : (consumeRelayTargetLocked key now s).1 = some m) : now < s.deadline m := by
  have hcell := (RelayNat.cleanup_shrinks s.nat now).cell
  unfold consumeRelayTargetLocked at h
  dsimp only at h
  split at h
  · cases h
  · split_ifs at h with hstale
    cases h
    simp only [cleanupLocked_nat,hcell,not_or,not_le] at hstale
    exact hstale.2

theorem activateRelayMappingLocked_cell (generation : ℕ) (h : s.Known m) :
    CellChange s m (.activateRelayMapping generation)
      ((activateRelayMappingLocked generation s).2.nat.cell m) := by
  unfold activateRelayMappingLocked
  split
  · exact .same _
  · rename_i x hx
    have hkey := h.numbered.key generation x hx
    split_ifs with hcons hact hfull
    · exact .same _
    · exact .same _
    · exact .same _
    · by_cases he : generation = m.generation
      · have hxm := h.of_generation hx he
        subst hxm
        subst he
        obtain ⟨hact',hsrc⟩ := not_or.mp hfull
        have hcell : (s.nat.activate x s.now).cell x =
            { s.nat.cell x with active := true, expiresAt := s.now+relayIdleTimeout+30 } := by
          simp [RelayNat.activate,RelayNat.setCell,RelayNat.cell]
        rw [hcell]
        exact .activate hx (by simpa using hcons) (by simpa using hact) (not_le.mp hact')
          (not_le.mp hsrc)
      · have hcell : (s.nat.activate x s.now).cell m = s.nat.cell m := by
          have hne : m.generation ≠ x.generation := by rw [hkey]; exact Ne.symm he
          simp [RelayNat.activate,RelayNat.setCell,RelayNat.cell,hne]
        rw [hcell]
        exact .same _

theorem closeRelayMappingLocked_cell (generation : ℕ) (grace : Option ℚ) (h : s.Known m) :
    CellChange s m (.closeRelayMapping generation grace)
      ((closeRelayMappingLocked generation grace s).nat.cell m) := by
  unfold closeRelayMappingLocked
  split
  · exact .same _
  · rename_i x hx
    have hkey := h.numbered.key generation x hx
    dsimp only
    split_ifs with hpos
    · by_cases he : generation = m.generation
      · have hxm := h.of_generation hx he
        subst hxm
        subst he
        have hcell : (s.nat.retain x s.now (grace.getD relayTeardownGraceSeconds)).cell x =
            { s.nat.cell x with
              active := false, expiresAt := s.now+grace.getD relayTeardownGraceSeconds } := by
          simp [RelayNat.retain,RelayNat.addTombstones,RelayNat.setCell,RelayNat.cell]
        rw [hcell]
        exact .retain grace hx hpos
      · have hcell : (s.nat.retain x s.now (grace.getD relayTeardownGraceSeconds)).cell m =
            s.nat.cell m := by
          have hne : m.generation ≠ x.generation := by rw [hkey]; exact Ne.symm he
          simp [RelayNat.retain,RelayNat.addTombstones,RelayNat.setCell,RelayNat.cell,hne]
        rw [hcell]
        exact .same _
    · have hcell : (s.nat.remove x s.now).cell m = s.nat.cell m :=
        (RelayNat.remove_shrinks s.nat x s.now).cell m
      rw [hcell]
      exact .same _

theorem cellChange (h : s.Known m) (c : PolicyCall) :
    CellChange s m c ((c.body.run s).2.nat.cell m) := by
  by_cases hq : c.isQuiet = true
  · have hcell : (c.body.run s).2.nat.cell m = s.nat.cell m :=
      PolicyCall.quiet_cells hq s m.generation h.spent
    rw [hcell]
    exact .same c
  · cases c with
    | matchRelayForward key =>
      rcases matchNatLocked_cell RelayNat.forward key s.now s.ticked m with hc | ⟨hlt,hact,hc⟩
      · exact hc ▸ .same _
      · exact hc ▸ .refresh _ rfl hlt hact
    | matchRelayReverse key =>
      rcases matchNatLocked_cell RelayNat.reverse key s.now s.ticked m with hc | ⟨hlt,hact,hc⟩
      · exact hc ▸ .same _
      · exact hc ▸ .refresh _ rfl hlt hact
    | consumeRelayTarget sampleIp samplePort => exact consumeRelayTargetLocked_cell _ _ h
    | activateRelayMapping generation => exact activateRelayMappingLocked_cell generation h
    | closeRelayMapping generation grace => exact closeRelayMappingLocked_cell generation grace h
    | _ => exact absurd rfl hq

theorem clock_of_loud {c : PolicyCall} (hc : c.isQuiet = false) (s : EgressPolicy) :
    (c.body.run s).2.clock = s.clock ∨ (c.body.run s).2.clock = s.clock.next := by
  cases c with
  | matchRelayForward key => exact .inr (matchNatLocked_clock _ key s.now)
  | matchRelayReverse key => exact .inr (matchNatLocked_clock _ key s.now)
  | consumeRelayTarget sampleIp samplePort => exact .inr (consumeRelayTargetLocked_clock _ s.now)
  | activateRelayMapping generation =>
    simp only [PolicyCall.body,Prog.run_locked,activateRelayMappingLocked]
    split
    · exact .inl rfl
    · split_ifs
      · exact .inl rfl
      · exact .inl rfl
      · exact .inl rfl
      · exact .inr rfl
  | closeRelayMapping generation grace =>
    simp only [PolicyCall.body,Prog.run_locked,closeRelayMappingLocked]
    split
    · exact .inl rfl
    · split_ifs <;> exact .inr rfl
  | _ => cases hc

/-- So a deadline that they leave the clock at or past was already reached by their reading. -/
theorem deadline_le_now_of_loud {c : PolicyCall} (hc : c.isQuiet = false) {t : ℚ}
    (h : (c.body.run s).2.clock.Seen t) : t ≤ s.now := by
  rcases clock_of_loud hc s with he | he
  · rw [he] at h
    exact Clock.seen_le_now h
  · rw [he] at h
    exact Clock.le_now_of_seen_next h

end EgressPolicy

namespace PolicyCall

/-- The operation treats `m` as live authority: it returns it, files a `tls_relay` permit
on it, or activates it. -/
def Authorises (c : PolicyCall) (s : EgressPolicy) (m : RelayNatMapping) : Prop :=
  match c with
  | matchRelayForward _ | matchRelayReverse _ | consumeRelayTarget _ _ =>
    (c.body.run s).1 = .mapping (some m)
  | registerControlFlow .tlsRelay _ _ _ generation _ =>
    generation.getD 0 = m.generation ∧ ∃ token, (c.body.run s).1 = .token token
  | activateRelayMapping generation =>
    generation = m.generation ∧ (c.body.run s).1 = .bool true
  | _ => False

/-- The deadline of the mapping is tested where the code does not test it: an activation
that the quotas allow and a teardown retention read the clock before the deadline, a
retained mapping that was never active is gone within its initial lifetimes, and the
second reading of `register_control_flow` is before the deadline as the first one is. -/
def Timely (s : EgressPolicy) : PolicyCall → Prop
  | activateRelayMapping generation => ∀ m, s.nat.generation.get? generation = some m →
      (s.nat.cell m).consumed = true →
      ((s.nat.cell m).active = true → ¬s.clock.Seen (s.deadline m)) ∧
      ((s.nat.cell m).active = false → s.nat.active < maxActive →
        s.nat.activeBySource m.sampleIp < maxActivePerSource → s.now < s.deadline m)
  | closeRelayMapping generation grace => ∀ m, s.nat.generation.get? generation = some m →
      0 < grace.getD relayTeardownGraceSeconds → s.now < s.deadline m ∧
      ((s.nat.cell m).active = true ∨
        s.now+grace.getD relayTeardownGraceSeconds ≤ m.createdAt+2*(helloTimeout+5))
  | registerControlFlow .tlsRelay key domain _ generation _ => ∀ m name,
      s.nat.generation.get? (generation.getD 0) = some m →
      EgressPolicy.permitDomain s.cfg domain = .ok name →
      EgressPolicy.relayFlowFits key.proto key.dstIp key.dport name m (s.nat.cell m) = true →
      s.now < s.deadline m → s.clock.next.now < s.deadline m
  | _ => True

end PolicyCall

namespace EgressPolicy

variable {s : EgressPolicy} {m : RelayNatMapping}

theorem relayFlowLocked_ok {proto : Proto} {dstIp : Addr} {dport : ℕ} {domain : String} {g : ℕ}
    {x : RelayNatMapping} (hn : s.nat.Numbered)
    (h : (relayFlowLocked proto dstIp dport domain g s).1 = .ok x) :
    s.nat.generation.get? g = some x ∧
      relayFlowFits proto dstIp dport domain x (s.nat.cell x) = true ∧ s.now < s.deadline x ∧
      (relayFlowLocked proto dstIp dport domain g s).2.clock = s.clock.next := by
  have hsh := RelayNat.cleanup_shrinks s.nat s.now
  unfold relayFlowLocked at h ⊢
  split at h
  · cases h
  · dsimp only at h ⊢
    split at h
    · cases h
    · rename_i x' hx
      split_ifs at h ⊢ with hfit
      cases h
      rw [cleanupLocked_nat,ticked_nat,hsh.cell] at hfit
      exact ⟨hsh.generation _ _ hx,hfit,hn.cleanup_live hx,rfl⟩

theorem registerTlsRelay_token {cfg : PolicyConfig} {key : FlowKey} {domain : Option String} {ttl : ℤ}
    {g : ℕ} {token tok : String}
    (h : ((registerTlsRelay cfg key domain ttl g token).run s).1 = .token tok) :
    ∃ name x, permitDomain cfg domain = .ok name ∧
      (relayFlowLocked key.proto key.dstIp key.dport name g s).1 = .ok x ∧
      ((registerTlsRelay cfg key domain ttl g token).run s).2.clock =
        (relayFlowLocked key.proto key.dstIp key.dport name g s).2.clock.next := by
  unfold registerTlsRelay at h ⊢
  cases hd : permitDomain cfg domain with
  | error e => simp [hd] at h
  | ok name =>
    simp only [hd,Prog.bind_eq,Prog.run_bind,Prog.run_locked] at h ⊢
    cases hf : (relayFlowLocked key.proto key.dstIp key.dport name g s).1 with
    | error e => simp [hf] at h
    | ok x =>
      refine ⟨name,x,rfl,hf,?_⟩
      simp only [fileControlFlow,Prog.bind_eq,Prog.run_bind,Prog.run_locked]
      rw [fileControlFlowLocked_clock]
      rfl

theorem registerControlFlow_live {key : FlowKey} {domain : Option String} {ttl : ℤ}
    {generation : Option ℕ} {token : String} (h : s.Known m)
    (ht : PolicyCall.Timely s (.registerControlFlow .tlsRelay key domain ttl generation token))
    (ha : PolicyCall.Authorises (.registerControlFlow .tlsRelay key domain ttl generation token) s m) :
    ¬((PolicyCall.registerControlFlow .tlsRelay key domain ttl generation token).body.run
      s).2.clock.Seen (s.deadline m) := by
  obtain ⟨hg,tok,hr⟩ := ha
  simp only [PolicyCall.body,registerControlFlow_run] at hr ⊢
  cases hopen : s.ensureOpen with
  | some e => simp [hopen] at hr
  | none =>
    cases hl : s.isExactLocalIpv4 key.srcIp with
    | false => simp [hopen,hl] at hr
    | true =>
      simp only [hopen,hl,if_true] at hr ⊢
      obtain ⟨name,x,hname,hok,hclock⟩ := registerTlsRelay_token hr
      obtain ⟨hx,hfit,hlt,hc⟩ := relayFlowLocked_ok h.numbered hok
      have hxm := h.of_generation hx hg
      subst hxm
      have hlt' := ht x name hx hname hfit hlt
      rw [hclock,hc]
      intro hseen
      exact absurd (Clock.le_now_of_seen_next hseen) (not_le.mpr hlt')

theorem activateRelayMappingLocked_true {g : ℕ} (h : (activateRelayMappingLocked g s).1 = true) :
    ∃ x, s.nat.generation.get? g = some x ∧ (s.nat.cell x).consumed = true ∧
      ((s.nat.cell x).active = true ∧ (activateRelayMappingLocked g s).2 = s ∨
        (s.nat.cell x).active = false ∧ s.nat.active < maxActive ∧
          s.nat.activeBySource x.sampleIp < maxActivePerSource) := by
  unfold activateRelayMappingLocked at h ⊢
  split at h
  · cases h
  · rename_i x hx
    split_ifs at h ⊢ with hcons hact hfull
    · exact ⟨x,hx,by simpa using hcons,.inl ⟨hact,rfl⟩⟩
    · obtain ⟨hlim,hsrc⟩ := not_or.mp hfull
      exact ⟨x,hx,by simpa using hcons,.inr ⟨by simpa using hact,not_le.mp hlim,not_le.mp hsrc⟩⟩

theorem lapsed_step {c : PolicyCall} (h : s.Known m) (ht : c.Timely s)
    (hseen : (c.body.run s).2.clock.Seen (s.deadline m)) :
    ¬c.Authorises s m ∧ (c.body.run s).2.deadline m = s.deadline m := by
  constructor
  · intro ha
    cases c with
    | matchRelayForward key =>
      have hlt := matchNatLocked_live (EgressPolicy.Reply.mapping.inj ha)
      exact absurd (deadline_le_now_of_loud rfl hseen) (not_le.mpr hlt)
    | matchRelayReverse key =>
      have hlt := matchNatLocked_live (EgressPolicy.Reply.mapping.inj ha)
      exact absurd (deadline_le_now_of_loud rfl hseen) (not_le.mpr hlt)
    | consumeRelayTarget sampleIp samplePort =>
      have hlt := consumeRelayTargetLocked_live (EgressPolicy.Reply.mapping.inj ha)
      exact absurd (deadline_le_now_of_loud rfl hseen) (not_le.mpr hlt)
    | registerControlFlow kind key domain ttl generation token =>
      cases kind with
      | tlsRelay => exact registerControlFlow_live h ht ha hseen
      | dns => exact ha
      | other kind => exact ha
    | activateRelayMapping generation =>
      obtain ⟨hg,hr⟩ := ha
      obtain ⟨x,hx,hcons,hx'⟩ := activateRelayMappingLocked_true (EgressPolicy.Reply.bool.inj hr)
      have hxm := h.of_generation hx hg
      subst hxm
      rcases hx' with ⟨hact,hs⟩ | ⟨hact,hlim,hsrc⟩
      · have hs' : ((PolicyCall.activateRelayMapping generation).body.run s).2 = s := hs
        rw [hs'] at hseen
        exact (ht x hx hcons).1 hact hseen
      · exact absurd (deadline_le_now_of_loud rfl hseen)
          (not_le.mpr ((ht x hx hcons).2 hact hlim hsrc))
    | _ => exact ha
  · have hcc := cellChange h c
    simp only [deadline] at hseen ⊢
    generalize hcell : (c.body.run s).2.nat.cell m = cell at hcc
    cases hcc with
    | same => rfl
    | refresh _ hq hlt _ => exact absurd (deadline_le_now_of_loud hq hseen) (not_le.mpr hlt)
    | consume sampleIp samplePort hlt _ _ =>
      exact absurd (deadline_le_now_of_loud rfl hseen) (not_le.mpr hlt)
    | activate hm hcons hact hlim hsrc =>
      exact absurd (deadline_le_now_of_loud rfl hseen)
        (not_le.mpr ((ht m hm hcons).2 hact hlim hsrc))
    | retain grace hm hpos =>
      exact absurd (deadline_le_now_of_loud rfl hseen) (not_le.mpr (ht m hm hpos).1)

/-- A mapping that was never active lives for at most two hello timeouts with their margins. -/
structure Unproven (s : EgressPolicy) (m : RelayNatMapping) : Prop where
  inactive : (s.nat.cell m).active = false
  bound : s.deadline m ≤ m.createdAt+2*(helloTimeout+5)
  unconsumed : ∀ k, s.nat.client.get? k = some m → (s.nat.cell m).consumed = false →
    s.deadline m ≤ m.createdAt+(helloTimeout+5)

theorem closeRelayMappingLocked_client {grace : Option ℚ}
    (hm : s.nat.generation.get? m.generation = some m)
    (hpos : 0 < grace.getD relayTeardownGraceSeconds) :
    (closeRelayMappingLocked m.generation grace s).nat.client = s.nat.client.pop m.clientKey := by
  simp [closeRelayMappingLocked,hm,hpos,RelayNat.retain,RelayNat.addTombstones,RelayNat.setCell]

theorem Unproven.run {c : PolicyCall} (h : s.Known m) (ht : c.Timely s) (hu : s.Unproven m)
    (ha : ((c.body.run s).2.nat.cell m).active = false) : (c.body.run s).2.Unproven m := by
  have hclient : ∀ k, (c.body.run s).2.nat.client.get? k = some m →
      s.nat.client.get? k = some m := by
    intro k hk
    rcases (c.regular s).ext.client k m hk with hk | ⟨-,hk⟩
    · exact hk
    · exact absurd h.spent (not_le.mpr hk)
  have hcc := cellChange h c
  obtain ⟨hin,hb,hc⟩ := hu
  simp only [deadline] at hb hc
  constructor
  · exact ha
  · simp only [deadline]
    generalize (c.body.run s).2.nat.cell m = cell at hcc ha
    cases hcc with
    | same => exact hb
    | refresh _ _ _ hact => rw [hin] at hact; cases hact
    | consume sampleIp samplePort hlt hcons hk =>
      have hle := hc _ hk hcons
      simp only [deadline] at hlt ⊢
      linarith
    | activate => cases ha
    | retain grace hm hpos =>
      rcases (ht m hm hpos).2 with hact | hle
      · rw [hin] at hact; cases hact
      · exact hle
  · intro k hk
    have hk' := hclient k hk
    simp only [deadline]
    generalize hcell : (c.body.run s).2.nat.cell m = cell at hcc ha
    intro hcons
    cases hcc with
    | same => exact hc k hk' hcons
    | refresh _ _ _ hact => rw [hin] at hact; cases hact
    | consume => cases hcons
    | activate => cases ha
    | retain grace hm hpos =>
      -- the close took `m` out of the client table
      have hpop : ((PolicyCall.closeRelayMapping m.generation grace).body.run s).2.nat.client =
          s.nat.client.pop m.clientKey := closeRelayMappingLocked_client hm hpos
      rw [hpop,Dict.get?_pop_eq_some] at hk
      exact absurd (h.numbered.clientKey k m hk.2) hk.1

theorem createRelayMappingLocked_ok {lease : Lease} {sampleIp : Addr} {samplePort : ℕ}
    {serverIp : Addr} {serverPort : ℕ} {relayIp : Addr} {relayPort : ℕ} {now : ℚ}
    (h : (createRelayMappingLocked lease sampleIp samplePort serverIp serverPort relayIp relayPort
      now s).1 = .ok m) :
    ∃ s', (createRelayMappingLocked lease sampleIp samplePort serverIp serverPort relayIp relayPort
        now s).2 = s' ∧
      s'.nat.generation.get? m.generation = some m ∧ m.createdAt = now ∧
      s'.nat.cell m = ⟨now+helloTimeout+5,false,false⟩ := by
  refine ⟨_,rfl,?_⟩
  unfold createRelayMappingLocked at h ⊢
  split at h
  · cases h
  · dsimp only at h ⊢
    split at h
    · cases h
    · split_ifs at h ⊢
      cases h
      exact ⟨Dict.get?_set_self _ _ _,rfl,Function.update_self _ _ _⟩

theorem createRelayMapping_ok {sampleIp : Addr} {samplePort : ℕ} {serverIp : Addr}
    {serverPort : ℕ} {relayIp : Addr} {relayPort : ℕ}
    (h : ((PolicyCall.createRelayMapping sampleIp samplePort serverIp serverPort relayIp
      relayPort).body.run s).1 = .mapping (some m)) :
    ∃ s', ((PolicyCall.createRelayMapping sampleIp samplePort serverIp serverPort relayIp
        relayPort).body.run s).2 = s' ∧
      s'.nat.generation.get? m.generation = some m ∧
      s'.nat.cell m = ⟨m.createdAt+helloTimeout+5,false,false⟩ := by
  simp only [PolicyCall.body,mapReply_run] at h ⊢
  cases hr : ((createRelayMapping sampleIp samplePort serverIp serverPort relayIp
      relayPort).run s).1 with
  | error e => simp [hr,mappingReply] at h
  | ok x =>
    rw [hr] at h
    cases h
    obtain ⟨lease,s₁,-,-,-,-,hrun⟩ := createRelayMapping_run_ok hr
    rw [hrun] at hr ⊢
    obtain ⟨s',hs',hg,hc,hcell⟩ := createRelayMappingLocked_ok hr
    rw [← hc] at hcell
    exact ⟨s',hs',hg,hcell⟩

end EgressPolicy

/-- `create_relay_mapping` returned `m` in the run `calls` from `s`. -/
def Created (s : EgressPolicy) (calls : List PolicyCall) (m : RelayNatMapping) : Prop :=
  ∃ i sampleIp samplePort serverIp serverPort relayIp relayPort,
    calls[i]? = some (.createRelayMapping sampleIp samplePort serverIp serverPort relayIp relayPort) ∧
    ((PolicyCall.createRelayMapping sampleIp samplePort serverIp serverPort relayIp
      relayPort).body.run (Prog.runAll PolicyCall.body s (calls.take i))).1 = .mapping (some m)

/-- Expired relay authority stays expired in the run `calls` from `s`. The call number `i`
leaves the clock at or past the deadline that `m` had before it; from that call on no call
treats `m` as authority or moves its deadline. A mapping that was not active so far
expires, and then authorises nothing, within twice the hello timeout and its margin. -/
structure ExpiryRespected (s : EgressPolicy) (calls : List PolicyCall) : Prop where
  lapsed : ∀ i j m c, i ≤ j → calls[j]? = some c → Created s (calls.take i) m →
    (Prog.runAll PolicyCall.body s (calls.take (i+1))).clock.Seen
      ((Prog.runAll PolicyCall.body s (calls.take i)).deadline m) →
    ¬c.Authorises (Prog.runAll PolicyCall.body s (calls.take j)) m ∧
      (Prog.runAll PolicyCall.body s (calls.take (j+1))).deadline m =
        (Prog.runAll PolicyCall.body s (calls.take i)).deadline m
  gone : ∀ j m c, calls[j]? = some c → Created s (calls.take j) m →
    (∀ k ≤ j, ((Prog.runAll PolicyCall.body s (calls.take k)).nat.cell m).active = false) →
    (Prog.runAll PolicyCall.body s (calls.take j)).deadline m ≤ m.createdAt+2*(helloTimeout+5) ∧
    ((Prog.runAll PolicyCall.body s (calls.take (j+1))).clock.Seen
        (m.createdAt+2*(helloTimeout+5)) →
      ¬c.Authorises (Prog.runAll PolicyCall.body s (calls.take j)) m)

section Runs

open EgressPolicy

variable {s : EgressPolicy} {m : RelayNatMapping} {calls : List PolicyCall}

theorem EgressPolicy.Known.runAll (h : s.Known m) (calls : List PolicyCall) :
    (Prog.runAll PolicyCall.body s calls).Known m := by
  induction calls generalizing s with
  | nil => exact h
  | cons c calls ih => exact ih (h.run c)

theorem Created.split (hn : s.nat.Numbered) (h : Created s calls m) :
    ∃ i, i < calls.length ∧ ((Prog.runAll PolicyCall.body s (calls.take (i+1))).Known m ∧
      (Prog.runAll PolicyCall.body s (calls.take (i+1))).Unproven m) := by
  obtain ⟨i,sampleIp,samplePort,serverIp,serverPort,relayIp,relayPort,hi,hr⟩ := h
  obtain ⟨s',hs',hg,hcell⟩ := createRelayMapping_ok hr
  have hlt : i < calls.length := (List.getElem?_eq_some_iff.mp hi).1
  refine ⟨i,hlt,?_⟩
  have hstate : Prog.runAll PolicyCall.body s (calls.take (i+1)) = s' := by
    rw [Prog.runAll_take_succ hi,hs']
  have hnum := numbered_runAll hn (calls.take (i+1))
  rw [hstate] at hnum ⊢
  refine ⟨known_of_filed hnum hg,⟨by rw [hcell],?_,fun k _ _ => ?_⟩⟩
  · rw [deadline,hcell]
    norm_num [helloTimeout]
    linarith
  · rw [deadline,hcell]
    norm_num [helloTimeout]
    linarith

theorem runAll_take_of_le {i j : ℕ} (h : i ≤ j) : Prog.runAll PolicyCall.body s (calls.take j) =
    Prog.runAll PolicyCall.body (Prog.runAll PolicyCall.body s (calls.take i))
      ((calls.take j).drop i) := by
  rw [← Prog.runAll_append,← min_eq_left h,← List.take_take,min_eq_left h,List.take_append_drop]

theorem Created.known_at (hn : s.nat.Numbered) {i j : ℕ} (h : Created s (calls.take i) m)
    (hij : i ≤ j) : (Prog.runAll PolicyCall.body s (calls.take j)).Known m := by
  obtain ⟨i₀,hi₀,hk,-⟩ := h.split hn
  have hle : i₀+1 ≤ i := hi₀.trans_le (List.length_take_le i calls)
  rw [List.take_take,min_eq_left hle] at hk
  rw [runAll_take_of_le (hle.trans hij)]
  exact hk.runAll _

theorem lapsed_frozen (hn : s.nat.Numbered)
    (hok : Prog.AllAt PolicyCall.body (fun s c => c.Timely s) s calls) {i : ℕ}
    (hm : Created s (calls.take i) m)
    (hseen : (Prog.runAll PolicyCall.body s (calls.take (i+1))).clock.Seen
      ((Prog.runAll PolicyCall.body s (calls.take i)).deadline m)) {j : ℕ} (hij : i ≤ j)
    (hj : j < calls.length) :
    (Prog.runAll PolicyCall.body s (calls.take (j+1))).clock.Seen
      ((Prog.runAll PolicyCall.body s (calls.take i)).deadline m) ∧
    (Prog.runAll PolicyCall.body s (calls.take (j+1))).deadline m =
      (Prog.runAll PolicyCall.body s (calls.take i)).deadline m := by
  induction j,hij using Nat.le_induction with
  | base =>
    have hc := List.getElem?_eq_getElem hj
    refine ⟨hseen,?_⟩
    rw [Prog.runAll_take_succ hc] at hseen ⊢
    exact (lapsed_step (hm.known_at hn le_rfl) (hok.at hc) hseen).2
  | succ j hij ih =>
    obtain ⟨hs,hd⟩ := ih (Nat.lt_of_succ_lt hj)
    have hc := List.getElem?_eq_getElem hj
    have hs' := (calls[j+1]).seen hs
    rw [Prog.runAll_take_succ hc]
    refine ⟨hs',?_⟩
    rw [← hd] at hs' ⊢
    exact (lapsed_step (hm.known_at hn (Nat.le_succ_of_le hij)) (hok.at hc) hs').2

theorem unproven_at (hn : s.nat.Numbered)
    (hok : Prog.AllAt PolicyCall.body (fun s c => c.Timely s) s calls) {j : ℕ}
    (hm : Created s (calls.take j) m) (hj : j ≤ calls.length)
    (hidle : ∀ k ≤ j, ((Prog.runAll PolicyCall.body s (calls.take k)).nat.cell m).active = false) :
    (Prog.runAll PolicyCall.body s (calls.take j)).Unproven m := by
  obtain ⟨i,hi,hk,hu⟩ := hm.split hn
  have hij : i+1 ≤ j := hi.trans_le (List.length_take_le j calls)
  rw [List.take_take,min_eq_left hij] at hk hu
  have hall : ∀ k, i+1 ≤ k → k ≤ j →
      (Prog.runAll PolicyCall.body s (calls.take k)).Known m ∧
        (Prog.runAll PolicyCall.body s (calls.take k)).Unproven m := by
    intro k hik
    induction k,hik using Nat.le_induction with
    | base => exact fun _ => ⟨hk,hu⟩
    | succ k hik ih =>
      intro hkj
      obtain ⟨hk',hu'⟩ := ih (Nat.le_of_succ_le hkj)
      have hc := List.getElem?_eq_getElem (show k < calls.length by omega)
      have ha := hidle (k+1) hkj
      rw [Prog.runAll_take_succ hc] at ha ⊢
      exact ⟨hk'.run _,Unproven.run hk' (hok.at hc) hu' ha⟩
  exact (hall j hij le_rfl).2

end Runs

/-- Expired relay authority stays expired in every run whose calls are timely. -/
theorem expiry_respected_of_timely (cfg : PolicyConfig) (localIpv4 : List Addr) (clock : Clock)
    (calls : List PolicyCall)
    (htimely : Prog.AllAt PolicyCall.body (fun s c => c.Timely s)
      (EgressPolicy.init cfg localIpv4 clock) calls) :
    ExpiryRespected (EgressPolicy.init cfg localIpv4 clock) calls := by
  have hn : (EgressPolicy.init cfg localIpv4 clock).nat.Numbered := RelayNat.Numbered.empty
  constructor
  · intro i j m c hij hc hm hseen
    have hj : j < calls.length := (List.getElem?_eq_some_iff.mp hc).1
    obtain ⟨hs,hd⟩ := lapsed_frozen hn htimely hm hseen hij hj
    refine ⟨?_,hd⟩
    have hdj : (Prog.runAll PolicyCall.body (EgressPolicy.init cfg localIpv4 clock)
        (calls.take j)).deadline m = (Prog.runAll PolicyCall.body
        (EgressPolicy.init cfg localIpv4 clock) (calls.take i)).deadline m := by
      rcases Nat.eq_or_lt_of_le hij with rfl | hlt
      · rfl
      · obtain ⟨j,rfl⟩ : ∃ k, j = k+1 := ⟨j-1,by omega⟩
        exact (lapsed_frozen hn htimely hm hseen (Nat.lt_succ_iff.mp hlt)
          (Nat.lt_of_succ_lt hj)).2
    rw [← hdj,Prog.runAll_take_succ hc] at hs
    exact (EgressPolicy.lapsed_step (hm.known_at hn hij) (htimely.at hc) hs).1
  · intro j m c hc hm hidle
    have hj : j < calls.length := (List.getElem?_eq_some_iff.mp hc).1
    have hu := unproven_at hn htimely hm hj.le hidle
    refine ⟨hu.bound,fun hseen => ?_⟩
    obtain ⟨i,hi,ht⟩ := hseen
    have hs : (Prog.runAll PolicyCall.body (EgressPolicy.init cfg localIpv4 clock)
        (calls.take (j+1))).clock.Seen ((Prog.runAll PolicyCall.body
        (EgressPolicy.init cfg localIpv4 clock) (calls.take j)).deadline m) :=
      ⟨i,hi,hu.bound.trans ht⟩
    rw [Prog.runAll_take_succ hc] at hs
    exact (EgressPolicy.lapsed_step (hm.known_at hn le_rfl)
      (htimely.at hc) hs).1

/-- The first mapping of a run from `twoDomains`. -/
def firstMapping (createdAt : ℚ) : RelayNatMapping :=
  ⟨1,"a.test",.dotted 10 0 0 5,50000,.dotted 93 184 216 34,443,.dotted 10 0 0 5,8443,createdAt⟩

/-- On a clock of one second, the relayed connection is timely. -/
theorem expiry_respected_of_timely_relayedConnection :
    Prog.AllAt PolicyCall.body (fun s c => c.Timely s)
      (EgressPolicy.init .twoDomains [.dotted 10 0 0 5] (.every 1)) PolicyCall.relayedConnection ∧
    ExpiryRespected (EgressPolicy.init .twoDomains [.dotted 10 0 0 5] (.every 1))
      PolicyCall.relayedConnection := by
  have htimely : Prog.AllAt PolicyCall.body (fun s c => c.Timely s)
      (EgressPolicy.init .twoDomains [.dotted 10 0 0 5] (.every 1))
      PolicyCall.relayedConnection := by
    refine ⟨trivial,trivial,trivial,fun m hm _ => ?_,fun m hm _ => ?_,trivial⟩
    · have hfirst : m = firstMapping 2 := Option.some.inj (hm.symm.trans (by decide +kernel))
      subst hfirst
      exact ⟨fun h => absurd h (by decide +kernel),fun _ _ _ => by decide +kernel⟩
    · have hfirst : m = firstMapping 2 := Option.some.inj (hm.symm.trans (by decide +kernel))
      subst hfirst
      exact ⟨by decide +kernel,.inl (by decide +kernel)⟩
  exact ⟨htimely,expiry_respected_of_timely _ _ _ _ htimely⟩

/-- A relay worker that activates after its mapping was already reported expired. -/
def lateActivation : List PolicyCall :=
  [.replaceLeases "a.test" [(.dotted 93 184 216 34,60)],
    .createRelayMapping (.dotted 10 0 0 5) 50000 (.dotted 93 184 216 34) 443 (.dotted 10 0 0 5) 8443,
    .consumeRelayTarget (.dotted 10 0 0 5) 50000,
    .relayClientMappingState (.dotted 10 0 0 5) 50000,
    .relayClientMappingState (.dotted 10 0 0 5) 50000,.activateRelayMapping 1]

theorem late_activation_revives :
    ¬ExpiryRespected (EgressPolicy.init .twoDomains [.dotted 10 0 0 5] (.every 6)) lateActivation := by
  intro h
  have hcreated : Created (EgressPolicy.init .twoDomains [.dotted 10 0 0 5] (.every 6))
      (lateActivation.take 4) (firstMapping 12) :=
    ⟨1,_,_,_,_,_,_,rfl,by decide +kernel⟩
  have hseen := h.lapsed 4 5 (firstMapping 12) (.activateRelayMapping 1) (by decide) rfl hcreated
    ⟨5,by decide +kernel,by decide +kernel⟩
  exact hseen.1 ⟨rfl,by decide +kernel⟩

end FakeNetNG
