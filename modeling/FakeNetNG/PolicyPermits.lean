import FakeNetNG.PolicyOperations

/-!
# The control permit tables

A permit is filed under its key and under its token. As long as tokens are not drawn
twice, the two tables hold the same permits, so that walking one of them reaches all.
-/

namespace FakeNetNG
namespace PermitTable

variable {t t' t'' : PermitTable}

structure Inv (t : PermitTable) : Prop where
  byKey : ∀ k p, t.byKey.get? k = some p → p.key = k ∧ t.byToken.get? p.token = some p
  byToken : ∀ token p, t.byToken.get? token = some p → p.token = token ∧ t.byKey.get? p.key = some p

theorem inv_clear (t : PermitTable) : t.clear.Inv :=
  ⟨fun _ _ h => (by cases h),fun _ _ h => (by cases h)⟩

theorem inv_empty : empty.Inv := ⟨fun _ _ h => (by cases h),fun _ _ h => (by cases h)⟩

/-- Permits are only lost. -/
structure Loses (t t' : PermitTable) : Prop where
  byKey : ∀ k p, t'.byKey.get? k = some p → t.byKey.get? k = some p
  byToken : ∀ token p, t'.byToken.get? token = some p → t.byToken.get? token = some p
  inv : t.Inv → t'.Inv

theorem Loses.refl (t : PermitTable) : Loses t t := ⟨fun _ _ h => h,fun _ _ h => h,id⟩

theorem Loses.trans (h : Loses t t') (h' : Loses t' t'') : Loses t t'' :=
  ⟨fun k p hp => h.byKey k p (h'.byKey k p hp),fun k p hp => h.byToken k p (h'.byToken k p hp),
    fun ht => h'.inv (h.inv ht)⟩

theorem clear_loses (t : PermitTable) : Loses t t.clear :=
  ⟨fun _ _ h => (by cases h),fun _ _ h => (by cases h),fun _ => inv_clear t⟩

theorem refresh_loses (t : PermitTable) (permit : ControlPermit) (now : ℚ) :
    Loses t (t.refresh permit now) := ⟨fun _ _ h => h,fun _ _ h => h,fun h => ⟨h.byKey,h.byToken⟩⟩

theorem Inv.remove (h : t.Inv) {e : String × ControlPermit} (he : t.byToken.get? e.1 = some e.2) :
    (t.remove e).Inv := by
  obtain ⟨htok,hkey⟩ := h.byToken _ _ he
  constructor
  · intro k p hp
    obtain ⟨hp,hne⟩ := (Dict.get?_popIf_eq_some _ _ _ _ _).mp hp
    obtain ⟨hk,hpt⟩ := h.byKey k p hp
    refine ⟨hk,(Dict.get?_pop_eq_some _ _ _ _).mpr ⟨fun heq => hne ?_,hpt⟩⟩
    have hpe : p = e.2 := by
      rw [heq,he] at hpt
      exact (Option.some.inj hpt).symm
    exact ⟨by rw [← hk,hpe],hpe⟩
  · intro token p hp
    obtain ⟨hne,hp⟩ := (Dict.get?_pop_eq_some _ _ _ _).mp hp
    obtain ⟨hpt,hpk⟩ := h.byToken token p hp
    refine ⟨hpt,(Dict.get?_popIf_eq_some _ _ _ _ _).mpr ⟨hpk,fun heq => hne ?_⟩⟩
    rw [← hpt,heq.2,htok]

theorem remove_byKey (t : PermitTable) (e : String × ControlPermit) (k : FlowKey) (p : ControlPermit)
    (h : (t.remove e).byKey.get? k = some p) : t.byKey.get? k = some p ∧ ¬(k = e.2.key ∧ p = e.2) :=
  (Dict.get?_popIf_eq_some _ _ _ _ _).mp h

theorem remove_byToken (t : PermitTable) (e : String × ControlPermit) (token : String)
    (p : ControlPermit) (h : (t.remove e).byToken.get? token = some p) :
    token ≠ e.1 ∧ t.byToken.get? token = some p := (Dict.get?_pop_eq_some _ _ _ _).mp h

theorem foldl_remove_loses (l : List (String × ControlPermit)) (t : PermitTable)
    (hl : ∀ e ∈ l, t.byToken.get? e.1 = some e.2) (hd : (l.map Prod.fst).Nodup) :
    Loses t (l.foldl remove t) ∧
      ∀ e ∈ l, ∀ k, (l.foldl remove t).byKey.get? k = some e.2 → k ≠ e.2.key := by
  induction l generalizing t with
  | nil => exact ⟨.refl t,fun _ h => (by cases h)⟩
  | cons a l ih =>
    obtain ⟨ha,hd⟩ := List.nodup_cons.mp hd
    have hstep : Loses t (t.remove a) :=
      ⟨fun k p hp => (remove_byKey t a k p hp).1,fun k p hp => (remove_byToken t a k p hp).2,
        fun h => h.remove (hl a List.mem_cons_self)⟩
    have hl' : ∀ e ∈ l, (t.remove a).byToken.get? e.1 = some e.2 := by
      intro e he
      refine (Dict.get?_pop_eq_some _ _ _ _).mpr ⟨fun heq => ha ?_,hl e (List.mem_cons_of_mem _ he)⟩
      rw [← heq]
      exact List.mem_map_of_mem he
    obtain ⟨hlo,hout⟩ := ih (t.remove a) hl' hd
    refine ⟨hstep.trans hlo,fun e he k hk => ?_⟩
    rcases List.mem_cons.mp he with rfl | he
    · exact fun heq => (remove_byKey t e k e.2 (hlo.byKey k _ hk)).2 ⟨heq,rfl⟩
    · exact hout e he k hk

theorem drop_entries (t : PermitTable) (p : ControlPermit → Bool) :
    (∀ e ∈ t.byToken.entries.filter fun e => p e.2, t.byToken.get? e.1 = some e.2) ∧
      ((t.byToken.entries.filter fun e => p e.2).map Prod.fst).Nodup := by
  refine ⟨fun e he => ?_,Dict.filter_nodup t.byToken.nodup _⟩
  exact (Dict.get?_eq_some_iff _ _ _).mpr (List.mem_of_mem_filter he)

theorem drop_loses (t : PermitTable) (p : ControlPermit → Bool) : Loses t (t.drop p) :=
  (foldl_remove_loses _ t (drop_entries t p).1 (drop_entries t p).2).1

theorem cleanup_loses (t : PermitTable) (now : ℚ) : Loses t (t.cleanup now) := drop_loses t _

/-- With both tables in step, a walk over the tokens reaches every key. -/
theorem Inv.drop_byKey (h : t.Inv) {p : ControlPermit → Bool} {k : FlowKey} {permit : ControlPermit}
    (hk : (t.drop p).byKey.get? k = some permit) : p permit = false := by
  obtain ⟨hlo,hout⟩ := foldl_remove_loses _ t (drop_entries t p).1 (drop_entries t p).2
  obtain ⟨hkey,htok⟩ := h.byKey k permit (hlo.byKey k permit hk)
  by_contra hp
  have hmem : (permit.token,permit) ∈ t.byToken.entries.filter fun e => p e.2 :=
    List.mem_filter.mpr ⟨(Dict.get?_eq_some_iff _ _ _).mp htok,by simpa using hp⟩
  exact hout _ hmem k hk hkey.symm

theorem Inv.file (h : t.Inv) {token : String} (hfresh : t.byToken.get? token = none)
    (kind : ControlKind) (key : FlowKey) (domain : String) (expires : ℚ) :
    (t.file token kind key domain expires).Inv := by
  let byToken := (t.byKey.get? key).elim t.byToken fun previous => t.byToken.pop previous.token
  -- the tokens that survive are those of the other keys
  have hold : ∀ tok p, byToken.get? tok = some p ↔ t.byToken.get? tok = some p ∧ p.key ≠ key := by
    intro tok p
    cases hprev : t.byKey.get? key with
    | none =>
      simp only [byToken,hprev,Option.elim_none]
      refine ⟨fun hp => ⟨hp,fun hk => ?_⟩,fun hp => hp.1⟩
      have hkey := (h.byToken tok p hp).2
      rw [hk,hprev] at hkey
      cases hkey
    | some previous =>
      simp only [byToken,hprev,Option.elim_some,Dict.get?_pop_eq_some]
      obtain ⟨hpk,hpt⟩ := h.byKey key previous hprev
      constructor
      · rintro ⟨hne,hp⟩
        refine ⟨hp,fun hk => hne ?_⟩
        obtain ⟨htok,hkey⟩ := h.byToken tok p hp
        rw [hk,hprev] at hkey
        rw [← htok,Option.some.inj hkey]
      · rintro ⟨hp,hk⟩
        refine ⟨fun htok => hk ?_,hp⟩
        rw [htok,hpt] at hp
        rw [← Option.some.inj hp,hpk]
  have hbyToken : (t.file token kind key domain expires).byToken =
      byToken.set token ⟨t.serial,token,kind,key,domain⟩ := by
    unfold PermitTable.file
    simp only [byToken]
    cases t.byKey.get? key <;> rfl
  constructor
  · intro k p hp
    rw [hbyToken]
    rcases (Dict.get?_set_eq_some _ _ _ _ _).mp hp with ⟨rfl,rfl⟩ | ⟨hne,hp⟩
    · exact ⟨rfl,Dict.get?_set_self _ _ _⟩
    · obtain ⟨hk,hpt⟩ := h.byKey k p hp
      refine ⟨hk,(Dict.get?_set_of_ne _ _ fun heq => ?_).trans
        ((hold _ _).mpr ⟨hpt,fun heq => hne (hk.symm.trans heq)⟩)⟩
      rw [heq,hfresh] at hpt
      cases hpt
  · intro tok p hp
    rw [hbyToken] at hp
    rcases (Dict.get?_set_eq_some _ _ _ _ _).mp hp with ⟨rfl,rfl⟩ | ⟨-,hp⟩
    · exact ⟨rfl,Dict.get?_set_self _ _ _⟩
    · obtain ⟨hp,hk⟩ := (hold tok p).mp hp
      obtain ⟨htok,hkey⟩ := h.byToken tok p hp
      exact ⟨htok,(Dict.get?_set_of_ne _ _ hk).trans hkey⟩

theorem file_byKey {token : String} {kind : ControlKind} {key : FlowKey} {domain : String}
    {expires : ℚ} {k : FlowKey} {p : ControlPermit}
    (h : (t.file token kind key domain expires).byKey.get? k = some p) :
    k = key ∨ t.byKey.get? k = some p :=
  ((Dict.get?_set_eq_some _ _ _ _ _).mp h).imp And.left And.right

theorem file_byToken {token : String} {kind : ControlKind} {key : FlowKey} {domain : String}
    {expires : ℚ} {tok : String} {p : ControlPermit}
    (h : (t.file token kind key domain expires).byToken.get? tok = some p) :
    tok = token ∨ t.byToken.get? tok = some p := by
  rcases (Dict.get?_set_eq_some _ _ _ _ _).mp h with ⟨htok,-⟩ | ⟨-,hp⟩
  · exact .inl htok
  · refine .inr ?_
    cases hprev : t.byKey.get? key with
    | none => simpa only [hprev] using hp
    | some previous =>
      simp only [hprev,Dict.get?_pop_eq_some] at hp
      exact hp.2

end PermitTable
/-- The section that files a permit. -/
def PolicySection.filesPermit : PolicySection → Bool
  | fileControlFlow .. => true
  | _ => false

def PolicyCall.filesPermit : PolicyCall → Bool
  | registerControlFlow .. => true
  | _ => false

open EgressPolicy PermitTable in
theorem PolicySection.permits_loses (sec : PolicySection) (s : EgressPolicy)
    (h : sec.filesPermit = false) : Loses s.permits (sec.apply s).permits := by
  have hclean : ∀ now, Loses s.permits (s.permits.cleanup now) := cleanup_loses s.permits
  cases sec with
  | fileControlFlow kind key domain relay generation token expires => cases h
  | tick => exact .refl _
  | updateLocalIpv4 addresses =>
    rcases updateLocalIpv4Locked_cases addresses s with hu | ⟨-,hu⟩
    · rw [apply,hu]
      exact clear_loses _
    · rw [apply,hu.permits]
      exact drop_loses _ _
  | activateRoutes prepared =>
    simp only [apply,activateRoutesLocked]
    split
    · exact .refl _
    · split_ifs <;> exact .refl _
  | suspendTakeover reason =>
    simp only [apply,EgressPolicy.suspendTakeover]
    split_ifs <;> exact .refl _
  | suspend => exact clear_loses _
  | resolveDnsRule qname now =>
    simp only [apply,resolveDnsRuleLocked]
    split_ifs <;> exact hclean now
  | registerAlias domain aliasName ttl =>
    simp only [apply,registerAliasLocked]
    split <;> exact .refl _
  | replaceLeases domain replacement =>
    simp only [apply,replaceLeasesLocked]
    split <;> exact .refl _
  | leaseFor ip now =>
    simp only [apply,leaseForLocked]
    split_ifs
    · exact .refl _
    · exact hclean now
  | relayFlow proto dstIp dport domain generation =>
    simp only [apply,relayFlowLocked]
    split
    · exact .refl _
    · split
      · exact hclean s.now
      · split_ifs <;> exact hclean s.now
  | matchControlFlow key now =>
    simp only [apply,matchControlFlowLocked]
    split_ifs
    · exact .refl _
    · split
      · exact hclean now
      · split_ifs
        · exact (hclean now).trans (refresh_loses _ _ _)
        · exact hclean now
        · exact hclean now
  | revokeControlFlow token =>
    simp only [apply,revokeControlFlowLocked]
    split
    · exact .refl _
    · rename_i permit hp
      exact ⟨fun k p hk => (remove_byKey _ _ k p hk).1,fun k p hk => (remove_byToken _ _ k p hk).2,
        fun hi => hi.remove hp⟩
  | createRelayMapping lease sampleIp samplePort serverIp serverPort relayIp relayPort now =>
    simp only [apply,createRelayMappingLocked]
    split
    · exact .refl _
    · split
      · exact hclean now
      · split_ifs <;> exact hclean now
  | matchForward key now =>
    simp only [apply,matchNatLocked]
    split_ifs
    · exact .refl _
    · split
      · exact hclean now
      · split_ifs <;> exact hclean now
  | matchReverse key now =>
    simp only [apply,matchNatLocked]
    split_ifs
    · exact .refl _
    · split
      · exact hclean now
      · split_ifs <;> exact hclean now
  | consumeRelayTarget key now =>
    simp only [apply,consumeRelayTargetLocked]
    split
    · exact hclean now
    · split_ifs <;> exact hclean now
  | activateRelayMapping generation =>
    simp only [apply,activateRelayMappingLocked]
    split
    · exact .refl _
    · split_ifs <;> exact .refl _
  | closeRelayMapping generation grace =>
    simp only [apply,closeRelayMappingLocked]
    split
    · exact .refl _
    · split_ifs <;> exact .refl _
  | drainExpiredLeases => exact hclean s.now
  | close => exact clear_loses _

theorem PolicyCall.permits_loses {c : PolicyCall} (hc : c.filesPermit = false) (s : EgressPolicy) :
    PermitTable.Loses s.permits (c.body.run s).2.permits := by
  have huse : ∀ sec, c.Uses sec → sec.filesPermit = false := by
    intro sec hu
    cases c with
    | registerControlFlow kind key domain ttl generation token => cases hc
    | _ =>
      cases sec with
      | fileControlFlow kind key domain relay generation token expires => simp [Uses] at hu
      | _ => rfl
  have hkeep := c.body_keeps (I:=fun s' => PermitTable.Loses s.permits s'.permits)
    fun sec hu s' hs => hs.trans (sec.permits_loses s' (huse sec hu))
  exact (hkeep.ensures.run (.refl _)).1

namespace EgressPolicy

variable {s : EgressPolicy}

theorem fileControlFlow_permits (kind : ControlKind) (key : FlowKey) (domain : String)
    (relay : Option RelayNatMapping) (ttl : ℤ) (g : ℕ) (token : String) :
    ((fileControlFlow kind key domain relay ttl g token).run s).2.permits = s.permits ∨
    ∃ expires, ((fileControlFlow kind key domain relay ttl g token).run s).2.permits =
      s.permits.file token kind key domain expires := by
  simp only [fileControlFlow,Prog.bind_eq,Prog.run_bind,readClock,Prog.run_locked,
    fileControlFlowLocked]
  split
  · exact .inl rfl
  · split_ifs
    · exact .inl rfl
    · exact .inl rfl
    · exact .inr ⟨_,rfl⟩

/-- A registration loses permits, and then files at most one, for a local source. -/
theorem registerControlFlow_permits (kind : ControlKind) (key : FlowKey) (domain : Option String)
    (ttl : ℤ) (generation : Option ℕ) (token : String) :
    ∃ t, PermitTable.Loses s.permits t ∧
      (((registerControlFlow kind key domain ttl generation token).run s).2.permits = t ∨
      s.isExactLocalIpv4 key.srcIp = true ∧ ∃ kind' name expires,
        ((registerControlFlow kind key domain ttl generation token).run s).2.permits =
          t.file token kind' key name expires) := by
  rw [registerControlFlow_run]
  cases s.ensureOpen with
  | some e => exact ⟨s.permits,.refl _,.inl rfl⟩
  | none =>
    by_cases hl : s.isExactLocalIpv4 key.srcIp = true
    · simp only [hl,if_true]
      cases kind with
      | dns =>
        simp only [registerDns]
        split_ifs
        · exact ⟨s.permits,.refl _,.inl rfl⟩
        · refine ⟨s.permits,.refl _,?_⟩
          rcases fileControlFlow_permits .dns key "" none ttl 0 token with hf | ⟨expires,hf⟩
          · exact .inl hf
          · exact .inr ⟨trivial,_,_,expires,hf⟩
      | tlsRelay =>
        simp only [registerTlsRelay]
        cases permitDomain s.cfg domain with
        | error e => exact ⟨s.permits,.refl _,.inl rfl⟩
        | ok name =>
          simp only [Prog.bind_eq,Prog.run_bind,Prog.run_locked]
          have hlo := PolicySection.permits_loses
            (.relayFlow key.proto key.dstIp key.dport name (generation.getD 0)) s rfl
          refine ⟨_,hlo,?_⟩
          cases (relayFlowLocked key.proto key.dstIp key.dport name (generation.getD 0) s).1 with
          | error e => exact .inl rfl
          | ok m =>
            rcases fileControlFlow_permits .tlsRelay key name (some m) ttl (generation.getD 0) token
              with hf | ⟨expires,hf⟩
            · exact .inl hf
            · exact .inr ⟨trivial,_,_,expires,hf⟩
      | other kind => exact ⟨s.permits,.refl _,.inl rfl⟩
    · simp only [hl]
      exact ⟨s.permits,.refl _,.inl rfl⟩

end EgressPolicy

/-- The token that `secrets.token_hex` answers in a call. -/
def PolicyCall.token? : PolicyCall → Option String
  | registerControlFlow _ _ _ _ _ token => some token
  | _ => none

/-- One call: the tables stay in step if its token is new, and no other token appears. -/
theorem PolicyCall.permits_step (c : PolicyCall) (s : EgressPolicy) :
    (s.permits.Inv → (∀ token, c.token? = some token → s.permits.byToken.get? token = none) →
      (c.body.run s).2.permits.Inv) ∧
    ∀ token p, (c.body.run s).2.permits.byToken.get? token = some p →
      s.permits.byToken.get? token = some p ∨ c.token? = some token := by
  by_cases hc : c.filesPermit = false
  · have hlo := permits_loses hc s
    exact ⟨fun h _ => hlo.inv h,fun token p hp => .inl (hlo.byToken token p hp)⟩
  · cases c with
    | registerControlFlow kind key domain ttl generation token =>
      obtain ⟨t,hlo,hrun⟩ :=
        EgressPolicy.registerControlFlow_permits (s:=s) kind key domain ttl generation token
      simp only [body]
      rcases hrun with hrun | ⟨-,kind',name,expires,hrun⟩
      · rw [hrun]
        exact ⟨fun h _ => hlo.inv h,fun tok p hp => .inl (hlo.byToken tok p hp)⟩
      · rw [hrun]
        refine ⟨fun h hnew => (hlo.inv h).file ?_ _ _ _ _,fun tok p hp => ?_⟩
        · cases hg : t.byToken.get? token with
          | none => rfl
          | some p =>
            have hold := hlo.byToken token p hg
            rw [hnew token rfl] at hold
            cases hold
        · rcases PermitTable.file_byToken hp with rfl | hold
          · exact .inr rfl
          · exact .inl (hlo.byToken tok p hold)
    | _ => exact absurd rfl hc

/-- As long as no token is drawn twice, the two tables stay in step. -/
theorem permits_inv_of_tokens {s : EgressPolicy} {calls : List PolicyCall} (h : s.permits.Inv)
    (htokens : (calls.filterMap PolicyCall.token?).Nodup)
    (hnew : ∀ token ∈ calls.filterMap PolicyCall.token?, s.permits.byToken.get? token = none) :
    (Prog.runAll PolicyCall.body s calls).permits.Inv := by
  induction calls generalizing s with
  | nil => exact h
  | cons c calls ih =>
    obtain ⟨hinv,htok⟩ := c.permits_step s
    have hhead : ∀ token, c.token? = some token →
        token ∈ (c::calls).filterMap PolicyCall.token? :=
      fun token ht => List.mem_filterMap.mpr ⟨c,List.mem_cons_self,ht⟩
    have htail : ∀ token ∈ calls.filterMap PolicyCall.token?, c.token? ≠ some token ∧
        token ∈ (c::calls).filterMap PolicyCall.token? := by
      intro token ht
      cases hc : c.token? with
      | none =>
        rw [List.filterMap_cons_none hc]
        exact ⟨by simp,ht⟩
      | some tok =>
        rw [List.filterMap_cons_some hc] at htokens ⊢
        refine ⟨fun he => (List.nodup_cons.mp htokens).1 ?_,List.mem_cons_of_mem _ ht⟩
        rw [Option.some.inj he]
        exact ht
    have hnodup : (calls.filterMap PolicyCall.token?).Nodup :=
      htokens.sublist (List.Sublist.filterMap _ (List.sublist_cons_self c calls))
    refine ih (hinv h fun token ht => hnew token (hhead token ht)) hnodup fun token ht => ?_
    cases hg : (c.body.run s).2.permits.byToken.get? token with
    | none => rfl
    | some p =>
      rcases htok token p hg with hold | hold
      · rw [hnew token (htail token ht).2] at hold
        cases hold
      · exact absurd hold (htail token ht).1

end FakeNetNG
