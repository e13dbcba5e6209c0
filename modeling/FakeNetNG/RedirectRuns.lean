import FakeNetNG.RedirectTables

/-!
# The tables along interleaved runs

Every section keeps the invariant of the tables. The last section of `prepare` needs
more than the invariant: that no transaction of its flow appeared since its first
section and that there is still room for one. Both survive what the other operations
do, because only `prepare` adds transactions, and there is a single packet receiver.
-/

namespace FakeNetNG
namespace ProcessRedirectRule

open ProcessRedirectEngine

variable {rule : ProcessRedirectRule} {s : ProcessRedirectEngine}

theorem InvFor.foldl_retire {live : RedirectTransaction → Prop}
    {f : ProcessRedirectEngine → RedirectMapping → ProcessRedirectEngine}
    (hf : ∀ s m, f s m = s ∨ ∃ seconds reason, 3 ≤ seconds ∧ f s m = rule.retire m seconds reason s)
    (l : List RedirectMapping) (h : InvFor rule live s)
    (hl : ∀ m ∈ l, ∀ m', s.forward.get? (rule.forwardKey m) = some m' → m' = m) :
    InvFor rule live (l.foldl f s) ∧ (l.foldl f s).transactions = s.transactions := by
  induction l generalizing s with
  | nil => exact ⟨h,rfl⟩
  | cons m l ih =>
    rcases hf s m with he | ⟨seconds,reason,hsec,he⟩
    · simp only [List.foldl_cons,he]
      exact ih h fun m' hm' => hl m' (List.mem_cons_of_mem _ hm')
    · simp only [List.foldl_cons,he]
      refine ih (h.retire (hl m List.mem_cons_self) hsec reason) fun m' hm' m'' hm'' => ?_
      have hback : s.forward.get? (rule.forwardKey m') = some m'' :=
        ((Dict.get?_pop_eq_some _ _ _ _).mp hm'').2
      exact hl m' (List.mem_cons_of_mem _ hm') m'' hback

theorem Tables.mem_values (h : Tables rule s) {m : RedirectMapping} (hm : m ∈ s.forward.values) :
    s.forward.get? (rule.forwardKey m) = some m := by
  obtain ⟨k,hk⟩ := (Dict.mem_values_iff _ _).mp hm
  rw [← h.forward_key k m hk]
  exact hk

theorem Tables.mem_values_same (h : Tables rule s) {m m' : RedirectMapping}
    (hm : m ∈ s.forward.values) (hm' : s.forward.get? (rule.forwardKey m) = some m') : m' = m :=
  Option.some.inj (hm'.symm.trans (h.mem_values hm))

/-- A transaction that cleanup keeps. -/
def young (now : ℚ) (t : RedirectTransaction) : Prop := ¬2 ≤ now-t.createdAt

theorem InvFor.purge (h : Inv rule s) (now : ℚ) :
    InvFor rule (young now) (ProcessRedirectRule.purge now s) := by
  obtain ⟨⟨a₁,a₂,a₃,a₄,a₅⟩,⟨b₁,b₂,b₃,b₄,b₅,b₆,b₇⟩,⟨c₁,c₂,c₃⟩⟩ := h
  refine ⟨⟨a₁,a₂,a₃,a₄,a₅⟩,⟨b₁,b₂,b₃,b₄,b₅,b₆,?_⟩,⟨c₁,c₂,c₃⟩⟩
  intro i t hi hold hyoung
  rcases b₇ i t hi hold trivial with hf | ⟨item,hk,ht⟩
  · exact .inl hf
  · have hlate : now < item.1 := by
      have hyoung := not_le.mp hyoung
      linarith
    exact .inr ⟨item,(Dict.get?_filter_eq_some _ _ _ _).mpr ⟨hk,by simpa using hlate⟩,ht⟩

theorem InvFor.timeOut {live : RedirectTransaction → Prop} (h : InvFor rule live s) (now : ℚ)
    (e : ℕ × RedirectTransaction) : InvFor rule live (rule.timeOut now s e) := by
  unfold ProcessRedirectRule.timeOut
  split_ifs
  · exact (h.popTransaction e.1).addTombstone _ le_rfl _
  · exact h.popTransaction e.1
  · exact h

theorem timeOut_transactions (now : ℚ) (e : ℕ × RedirectTransaction) :
    (rule.timeOut now s e).transactions =
      if 2 ≤ now-e.2.createdAt then s.transactions.pop e.1 else s.transactions := by
  unfold ProcessRedirectRule.timeOut
  split_ifs <;> rfl

/-- A transaction that is still there after the loop was not timed out by it. -/
theorem foldl_timeOut_get? (now : ℚ) (l : List (ℕ × RedirectTransaction)) {i : ℕ}
    {t : RedirectTransaction} (h : (l.foldl (rule.timeOut now) s).transactions.get? i = some t) :
    s.transactions.get? i = some t ∧ ∀ e ∈ l, e.1 = i → young now e.2 := by
  induction l generalizing s with
  | nil => exact ⟨h,by simp⟩
  | cons e l ih =>
    obtain ⟨hi,hl⟩ := ih h
    rw [timeOut_transactions] at hi
    split_ifs at hi with hold
    · rw [Dict.get?_pop_eq_some] at hi
      refine ⟨hi.2,fun e' he' hk => ?_⟩
      rcases List.mem_cons.mp he' with rfl | he'
      · exact absurd hk.symm hi.1
      · exact hl e' he' hk
    · refine ⟨hi,fun e' he' hk => ?_⟩
      rcases List.mem_cons.mp he' with rfl | he'
      · exact hold
      · exact hl e' he' hk

theorem foldl_timeOut_inv {live : RedirectTransaction → Prop} (now : ℚ)
    (l : List (ℕ × RedirectTransaction)) (h : InvFor rule live s) :
    InvFor rule live (l.foldl (rule.timeOut now) s) := by
  induction l generalizing s with
  | nil => exact h
  | cons e l ih => exact ih (h.timeOut now e)

/-- With no transaction left that is not live, the invariant is the full one. -/
theorem InvFor.full {live : RedirectTransaction → Prop} (h : InvFor rule live s)
    (hlive : ∀ i t, s.transactions.get? i = some t → live t) : Inv rule s := by
  obtain ⟨ht,⟨b₁,b₂,b₃,b₄,b₅,b₆,b₇⟩,hc⟩ := h
  exact ⟨ht,⟨b₁,b₂,b₃,b₄,b₅,b₆,fun i t hi hold _ => b₇ i t hi hold (hlive i t hi)⟩,hc⟩

theorem expire_cases (now : ℚ) (s : ProcessRedirectEngine) (m : RedirectMapping) :
    rule.expire now s m = s ∨
      ∃ seconds reason, 3 ≤ seconds ∧ rule.expire now s m = rule.retire m seconds reason s := by
  unfold expire
  split
  · exact .inl rfl
  · exact .inr ⟨240,_,by norm_num,rfl⟩

theorem cleanup_inv (h : Inv rule s) (now : ℚ) : Inv rule (rule.cleanup now s) := by
  have hfold := foldl_timeOut_inv now (purge now s).transactions.entries (h.purge now)
  have hfull := hfold.full fun i t hi => by
    obtain ⟨hi,hl⟩ := foldl_timeOut_get? now _ hi
    exact hl (i,t) ((Dict.get?_eq_some_iff _ _ _).mp hi) rfl
  refine (hfull.foldl_retire (expire_cases now) _ fun m hm m' hm' => ?_).1
  exact hfull.tables.mem_values_same (List.mem_eraseDups.mp hm) hm'

theorem SameTables.refl (s : ProcessRedirectEngine) : SameTables s s :=
  ⟨rfl,rfl,rfl,rfl,rfl,rfl,le_rfl⟩

theorem SameTables.trans {s s' s'' : ProcessRedirectEngine} (h : SameTables s s')
    (h' : SameTables s' s'') : SameTables s s'' := by
  obtain ⟨h₁,h₂,h₃,h₄,h₅,h₆,h₇⟩ := h
  obtain ⟨g₁,g₂,g₃,g₄,g₅,g₆,g₇⟩ := h'
  exact ⟨g₁.trans h₁,g₂.trans h₂,g₃.trans h₃,g₄.trans h₄,g₅.trans h₅,g₆.trans h₆,h₇.trans g₇⟩

theorem sameTables_ticked (s : ProcessRedirectEngine) : SameTables s s.ticked :=
  ⟨rfl,rfl,rfl,rfl,rfl,rfl,now_le_ticked s⟩

/-- Only the clock, the generations spent, the reservations and the query budget may differ. -/
structure Quiet (s s' : ProcessRedirectEngine) : Prop extends SameTables s s' where
  closed : s'.closed = s.closed
  suspended : s'.suspended = s.suspended
  generation : s.generation ≤ s'.generation
  synQueryCache : s'.synQueryCache = s.synQueryCache
  aPass : s'.aPass = s.aPass
  log : s'.log = s.log

theorem Quiet.refl (s : ProcessRedirectEngine) : Quiet s s := ⟨.refl s,rfl,rfl,le_rfl,rfl,rfl,rfl⟩

theorem Quiet.trans {s s' s'' : ProcessRedirectEngine} (h : Quiet s s') (h' : Quiet s' s'') :
    Quiet s s'' :=
  ⟨h.toSameTables.trans h'.toSameTables,h'.closed.trans h.closed,h'.suspended.trans h.suspended,
    h.generation.trans h'.generation,h'.synQueryCache.trans h.synQueryCache,
    h'.aPass.trans h.aPass,h'.log.trans h.log⟩

theorem reserve_quiet (key : RedirectKey) (s : ProcessRedirectEngine) : Quiet s (reserve key s) :=
  ⟨⟨rfl,rfl,rfl,rfl,rfl,rfl,le_rfl⟩,rfl,rfl,le_rfl,rfl,rfl,rfl⟩

theorem consumeQueryBudget_quiet (s : ProcessRedirectEngine) :
    Quiet s (consumeQueryBudget s.now s.ticked).2 := by
  unfold consumeQueryBudget
  dsimp only
  split <;> exact ⟨⟨rfl,rfl,rfl,rfl,rfl,rfl,now_le_ticked s⟩,rfl,rfl,le_rfl,rfl,rfl,rfl⟩

/-- What `prepare` goes on with after its first section cleaned up and found the engine
available, with no tombstone and no mapping under the key of a SYN. -/
structure Queries (rule : ProcessRedirectRule) (key : RedirectKey) (s : ProcessRedirectEngine) :
    Prop where
  available : s.unavailable = false
  unblocked : s.tombstones.get? key = none
  unmapped : s.forward.get? key = none
  room : s.transactions.size < 128
  notPending : ∀ i t, s.transactions.get? i = some t → t.newMapping = true →
    rule.forwardKey t.mapping ≠ key

/-- The outcomes of the first section, in terms of the state after its cleanup. -/
inductive Begins (rule : ProcessRedirectRule) (packet : PacketTuple) (now : ℚ)
    (s : ProcessRedirectEngine) : Stage × ProcessRedirectEngine → Prop
  | dropped (reason s') : Quiet s s' → Begins rule packet now s (.decided (.drop reason),s')
  | existing (m) : s.unavailable = false → s.forward.get? packet.key = some m →
      s.transactions.size < 128 →
      Begins rule packet now s
        (.decided (rewrite m packet false (rule.outboundDecision m packet "existing_mapping") s).1,
          (rewrite m packet false (rule.outboundDecision m packet "existing_mapping") s).2)
  | passed (expires) : s.forward.get? packet.key = none → packet.newSyn = false →
      s.aPass.get? packet.key = some expires → now < expires →
      Begins rule packet now s (.decided (.pass "non_target_flow"),
        ({ s with aPass := s.aPass.set packet.key (now+aPassIdleSeconds) }).record
          (.decided packet (.pass "non_target_flow")))
  | query (cached s') : packet.newSyn = true → Queries rule packet.key s →
      (cached = .nothing ∨ ∃ item, s.synQueryCache.get? packet.key = some item ∧ item.2 = cached) →
      Quiet s s' → Begins rule packet now s (.query cached,s')

theorem beginSyn_begins {packet : PacketTuple} {now : ℚ} (hsyn : packet.newSyn = true) (h₁ : s.unavailable = false)
    (h₂ : s.tombstones.get? packet.key = none) (h₃ : s.forward.get? packet.key = none) :
    Begins rule packet now s (rule.beginSyn packet.key s) := by
  unfold beginSyn
  split
  · exact .dropped _ s (.refl s)
  · split
    · exact .dropped _ s (.refl s)
    · split
      · exact .dropped _ s (.refl s)
      · rename_i hroom hpending
        have hqueries : Queries rule packet.key s := by
          refine ⟨h₁,h₂,h₃,by omega,fun i t hi hnew he => hpending ?_⟩
          have hmem : t ∈ s.transactions.values := (Dict.mem_values_iff _ _).mpr ⟨i,hi⟩
          exact List.any_eq_true.mpr ⟨t,hmem,by simp [hnew,he]⟩
        split
        · rename_i item hitem
          exact .query _ _ hsyn hqueries (.inr ⟨item,hitem,rfl⟩) (reserve_quiet _ s)
        · split
          · exact .dropped _ s (.refl s)
          · have hquiet := consumeQueryBudget_quiet s
            dsimp only
            split
            · exact .query _ _ hsyn hqueries (.inl rfl) (hquiet.trans (reserve_quiet _ _))
            · exact .dropped _ _ hquiet

theorem beginUnmapped_begins {packet : PacketTuple} {now : ℚ}
    (hf : s.forward.get? packet.key = none) (hsyn : packet.newSyn = false) :
    Begins rule packet now s (beginUnmapped packet now s) := by
  unfold beginUnmapped
  split
  · exact .dropped _ s (.refl s)
  · rename_i expires hpass
    split
    · rename_i hlive
      exact .passed expires hf hsyn hpass hlive
    · exact .dropped _ s (.refl s)

theorem beginPrepare_begins (rule : ProcessRedirectRule) (packet : PacketTuple) (s : ProcessRedirectEngine) :
    Begins rule packet s.now (rule.cleanup s.now s.ticked) (rule.beginPrepare packet s) := by
  unfold beginPrepare
  dsimp only
  split
  · exact .dropped _ _ (.refl _)
  · rename_i hopen
    have hopen : (rule.cleanup s.now s.ticked).unavailable = false := by simpa using hopen
    split
    · exact .dropped _ _ (.refl _)
    · rename_i htomb
      split
      · rename_i m hm
        split
        · exact .dropped _ _ (.refl _)
        · rename_i hroom
          exact .existing m hopen hm (not_le.mp hroom)
      · rename_i hf
        split
        · rename_i hsyn
          exact beginSyn_begins hsyn hopen htomb hf
        · rename_i hsyn
          exact beginUnmapped_begins hf (by simpa using hsyn)

theorem rewrite_inv (h : Inv rule s) {m : RedirectMapping}
    (hm : s.forward.get? (rule.forwardKey m) = some m) (hroom : s.transactions.size < 128)
    (packet : PacketTuple) (decision : ProcessRedirectDecision) :
    Inv rule (rewrite m packet false decision s).2 :=
  (h.newTransaction hm hroom packet).congr ⟨rfl,rfl,rfl,rfl,rfl,rfl,le_rfl⟩

/-- What the first section of `prepare` leaves for the last one: no transaction of the flow,
and room for one. -/
def Reserved (rule : ProcessRedirectRule) (key : RedirectKey) (s : ProcessRedirectEngine) : Prop :=
  s.transactions.size < 128 ∧ ∀ i t, s.transactions.get? i = some t → rule.forwardKey t.mapping ≠ key

/-- A SYN whose owner is looked up: its flow has no transaction, not even one of a mapping
that went away. -/
theorem Queries.reserved (h : Inv rule s) {key : RedirectKey} (hq : Queries rule key s) :
    Reserved rule key s := by
  refine ⟨hq.room,fun i t hi he => ?_⟩
  cases hnew : t.newMapping with
  | true => exact hq.notPending i t hi hnew he
  | false =>
    rcases h.pending.blocked i t hi hnew trivial with hm | ⟨item,hitem,-⟩
    · rw [he,hq.unmapped] at hm
      cases hm
    · rw [he,hq.unblocked] at hitem
      cases hitem

/-- The first section keeps the invariant, and reserves the flow that it does not decide. -/
theorem beginPrepare_inv (h : Inv rule s) (packet : PacketTuple) :
    Inv rule (rule.beginPrepare packet s).2 ∧ ∀ cached,
      (rule.beginPrepare packet s).1 = .query cached →
        Reserved rule packet.key (rule.beginPrepare packet s).2 := by
  have hclean : Inv rule (rule.cleanup s.now s.ticked) := cleanup_inv (h.congr (sameTables_ticked s)) _
  have hbegins := beginPrepare_begins rule packet s
  generalize rule.beginPrepare packet s = r at hbegins ⊢
  cases hbegins with
  | dropped reason s' hq => exact ⟨hclean.congr hq.toSameTables,by simp⟩
  | existing m hopen hm hroom =>
    have hkey := hclean.tables.forward_key _ _ hm
    exact ⟨rewrite_inv hclean (hkey ▸ hm) hroom packet _,by simp⟩
  | passed expires hf hsyn hpass hlive =>
    exact ⟨hclean.congr ⟨rfl,rfl,rfl,rfl,rfl,rfl,le_rfl⟩,by simp⟩
  | query cached s' hsyn hq hcached hquiet =>
    refine ⟨hclean.congr hquiet.toSameTables,fun _ _ => ?_⟩
    have hres := hq.reserved hclean
    rw [Reserved,hquiet.transactions]
    exact hres

theorem pendingNew_length : (pendingNew s).length = s.transactions.countP (·.newMapping) := by
  rw [pendingNew,List.length_map,Dict.countP_eq_length]

theorem pendingNew_countP (p : RedirectMapping → Bool) :
    (pendingNew s).countP p = s.transactions.countP fun t => t.newMapping && p t.mapping := by
  rw [pendingNew,List.countP_map,List.countP_filter,Dict.countP,Dict.values,List.countP_map]
  congr 1
  funext e
  simp [Bool.and_comm]

theorem mem_pendingNew {i : ℕ} {t : RedirectTransaction} (hi : s.transactions.get? i = some t)
    (hnew : t.newMapping = true) : t.mapping ∈ pendingNew s := by
  have hmem : t ∈ s.transactions.values := (Dict.mem_values_iff _ _).mpr ⟨i,hi⟩
  exact List.mem_map.mpr ⟨t,List.mem_filter.mpr ⟨hmem,hnew⟩,rfl⟩

/-- The outcomes of the last section of `prepare`. -/
inductive Creates (rule : ProcessRedirectRule) (packet : PacketTuple) (owner : ProcessOwnerIdentity)
    (answers : RedirectAnswers) (s : ProcessRedirectEngine) :
    PreparedRedirect × ProcessRedirectEngine → Prop
  | dropped (reason s') : Quiet s s' → Creates rule packet owner answers s (.drop reason,s')
  | created (s') : Quiet s s' → s.unavailable = false →
      s'.generation = (freshMapping packet owner s).generation →
      load (fun _ => true) s < 1024 →
      load (fun m => m.pid = owner.pid) s < 256 →
      s.client.get? (freshMapping packet owner s).clientKey = none →
      (∀ m ∈ pendingNew s, m.clientKey ≠ (freshMapping packet owner s).clientKey) →
      Creates rule packet owner answers s
        (rule.rewriteNew (freshMapping packet owner s) packet owner answers s')

theorem createMapping_creates (rule : ProcessRedirectRule) (packet : PacketTuple) (owner : ProcessOwnerIdentity)
    (answers : RedirectAnswers) (s : ProcessRedirectEngine) :
    Creates rule packet owner answers s (rule.createMapping packet owner answers s) := by
  unfold createMapping
  split
  · exact .dropped _ s (.refl s)
  · rename_i hopen
    split
    · exact .dropped _ s (.refl s)
    · split
      · exact .dropped _ s (.refl s)
      · rename_i htotal
        split
        · exact .dropped _ s (.refl s)
        · rename_i hpid
          have hquiet : Quiet s { s.ticked with generation := s.generation+1 } :=
            ⟨⟨rfl,rfl,rfl,rfl,rfl,rfl,now_le_ticked s⟩,rfl,rfl,Nat.le_succ _,rfl,rfl,rfl⟩
          dsimp only
          split
          · exact .dropped _ _ hquiet
          · rename_i hclient
            rw [Bool.or_eq_true,not_or,Bool.not_eq_true,Dict.contains_eq_false_iff,
              List.any_eq_true] at hclient
            refine .created _ hquiet (by simpa using hopen) rfl ?_ ?_ hclient.1 ?_
            · rw [pendingNew_length,Dict.size_eq_countP] at htotal
              simpa [load] using htotal
            · rw [pendingNew_countP] at hpid
              simpa [load] using hpid
            · intro m hm he
              exact hclient.2 ⟨m,hm,by simpa using he⟩

/-- The last section keeps the invariant of an engine that still has room for the flow. -/
theorem createMapping_inv (h : Inv rule s) {packet : PacketTuple}
    (hkey : ∀ owner, rule.forwardKey (freshMapping packet owner s) = packet.key)
    (hres : Reserved rule packet.key s) (owner : ProcessOwnerIdentity) (answers : RedirectAnswers) :
    Inv rule (rule.createMapping packet owner answers s).2 := by
  have hcreates := createMapping_creates rule packet owner answers s
  generalize rule.createMapping packet owner answers s = r at hcreates ⊢
  cases hcreates with
  | dropped reason s' hq => exact h.congr hq.toSameTables
  | created s' hq hopen hgen htotal hpid hclient hend =>
    have hs' : Inv rule ((s'.setCell (freshMapping packet owner s)
        ⟨(freshMapping packet owner s).createdAt,false,false,none⟩).record
        (.created (freshMapping packet owner s).generation packet owner answers)) :=
      (h.congr hq.toSameTables).congr ⟨rfl,rfl,rfl,rfl,rfl,rfl,le_rfl⟩
    have hload : ∀ p, load p s' = load p s := by
      intro p
      simp only [load,hq.forward,hq.transactions]
    refine InvFor.congr (hs'.newTransaction_new (m:=freshMapping packet owner s) ?_ ?_ ?_ ?_ ?_ ?_
      packet) ⟨rfl,rfl,rfl,rfl,rfl,rfl,le_rfl⟩
    · change s'.client.get? _ = none
      rw [hq.client]
      exact hclient
    · intro i t hi
      rw [hkey]
      exact hres.2 i t ((congrArg (·.get? i) hq.transactions).symm.trans hi)
    · intro i t hi hnew
      have hi' : s.transactions.get? i = some t :=
        (congrArg (·.get? i) hq.transactions).symm.trans hi
      exact hend _ (mem_pendingNew hi' hnew)
    · exact (hload _).trans_lt htotal
    · exact (hload _).trans_lt hpid
    · exact (congrArg Dict.size hq.transactions).trans_lt hres.1

theorem inboundLocked_inv (h : Inv rule s) (packet : PacketTuple) :
    Inv rule (rule.inboundLocked packet s).2 := by
  have hclean : Inv rule (rule.cleanup s.now s.ticked) := cleanup_inv (h.congr (sameTables_ticked s)) _
  unfold inboundLocked
  dsimp only
  split
  · exact hclean
  · split
    · exact hclean
    · split
      · exact hclean
      · rename_i m hm
        split
        · exact hclean
        · rename_i hroom
          have hkey := hclean.tables.reverse_key _ _ hm
          have hm := (hclean.tables.reverse_iff m).mp (hkey ▸ hm)
          exact rewrite_inv hclean hm (not_le.mp hroom) packet _

theorem markFin_same (m : RedirectMapping) (packet : PacketTuple) (s : ProcessRedirectEngine) :
    SameTables s (markFin m packet s) := by
  unfold markFin
  dsimp only
  split
  · exact ⟨rfl,rfl,rfl,rfl,rfl,rfl,now_le_ticked s⟩
  · exact ⟨rfl,rfl,rfl,rfl,rfl,rfl,le_rfl⟩

theorem observeTcp_inv (h : Inv rule s) {m : RedirectMapping}
    (hsame : ∀ m', s.forward.get? (rule.forwardKey m) = some m' → m' = m) (packet : PacketTuple) :
    Inv rule (rule.observeTcp m packet s) := by
  have hfin := markFin_same m packet s
  unfold observeTcp
  split
  · exact h.retire hsame (by norm_num) _
  · split
    · dsimp only
      split
      · exact (h.congr hfin).retire (hfin.forward ▸ hsame) (by norm_num) _
      · exact h.congr hfin
    · exact h

theorem touch_same (m : RedirectMapping) (s : ProcessRedirectEngine) : SameTables s (touch m s) :=
  ⟨rfl,rfl,rfl,rfl,rfl,rfl,now_le_ticked s⟩

/-- A pending mapping whose transaction was just taken out may be installed. -/
theorem install_popTransaction_inv (h : Inv rule s) {token : ℕ} {t : RedirectTransaction}
    (ht : s.transactions.get? token = some t) (hnew : t.newMapping = true) :
    Inv rule (rule.install t.mapping (popTransaction token s)) := by
  refine (h.popTransaction token).install (h.pending.absent token t ht hnew) ?_ ?_ ?_ ?_
  · intro i u hi
    obtain ⟨hne,hi⟩ := (Dict.get?_pop_eq_some _ _ _ _).mp hi
    exact h.pending.alone token i t u ht hi hnew hne.symm
  · intro i u hi hnew'
    obtain ⟨hne,hi⟩ := (Dict.get?_pop_eq_some _ _ _ _).mp hi
    exact h.pending.endpoint token i t u ht hi hnew hnew' hne.symm
  · have hload := load_popTransaction ht hnew fun _ => true
    have htotal := h.capacities.total
    simp only [if_true] at hload
    omega
  · have hload := load_popTransaction ht hnew fun m => m.pid = t.mapping.pid
    have hpid := h.capacities.pid t.mapping.pid
    simp only [decide_true,if_true] at hload
    omega

theorem confirm_popTransaction_inv (h : Inv rule s) {token : ℕ} {t : RedirectTransaction}
    (ht : s.transactions.get? token = some t) : Inv rule (rule.confirm t (popTransaction token s)) := by
  unfold confirm
  dsimp only
  split
  · rename_i hnew
    have hinstall := install_popTransaction_inv h ht hnew
    refine observeTcp_inv (hinstall.congr (touch_same _ _)) (fun m' hm' => ?_) _
    have hself := Dict.get?_set_self s.forward (rule.forwardKey t.mapping) t.mapping
    exact Option.some.inj (hm'.symm.trans hself)
  · refine observeTcp_inv ((h.popTransaction token).congr (touch_same _ _)) (fun m' hm' => ?_) _
    exact h.pending.same token t m' ht hm'

theorem inv_record_iff (e : RedirectEvent) : Inv rule (s.record e) ↔ Inv rule s :=
  ⟨fun h => h.congr ⟨rfl,rfl,rfl,rfl,rfl,rfl,le_rfl⟩,fun h => h.congr ⟨rfl,rfl,rfl,rfl,rfl,rfl,le_rfl⟩⟩

/-- A settled transaction is the last one that may know of its mapping. -/
theorem commitLocked_inv (h : Inv rule s) (token : ℕ) (outcome : Bool) :
    Inv rule (rule.commitLocked token outcome s).2 := by
  have hrecord := (inv_record_iff (.committed token outcome)).mpr h
  unfold commitLocked
  split
  · exact h
  · rename_i t ht
    split
    · exact confirm_popTransaction_inv hrecord ht
    · exact (hrecord.popTransaction token).retire (fun m' => h.pending.same token t m' ht) le_rfl _

theorem abortLocked_inv (h : Inv rule s) (token : ℕ) : Inv rule (rule.abortLocked token s).2 := by
  unfold abortLocked
  split
  · exact h
  · rename_i t ht
    exact (h.popTransaction token).retire (fun m' => h.pending.same token t m' ht) le_rfl _

/-- Without transactions and with the tables as they are, only the tables matter. -/
theorem Tables.inv_of_no_transactions (h : Tables rule s) (ht : s.transactions = Dict.empty)
    (htotal : s.forward.countP (fun _ => true) ≤ 1024)
    (hpid : ∀ pid, s.forward.countP (fun m => m.pid = pid) ≤ 256) : Inv rule s := by
  refine ⟨h,⟨?_,?_,?_,?_,?_,?_,?_⟩,⟨?_,?_,?_⟩⟩
  · simp [ht]
  · simp [ht]
  · simp [ht]
  · simp [ht]
  · simp [ht]
  · simp [ht]
  · simp [ht]
  · simpa [load,ht] using htotal
  · intro pid
    simpa [load,ht] using hpid pid
  · simp [ht]

theorem suspendLocked_inv (h : Inv rule s) (reason : String) :
    Inv rule (rule.suspendLocked reason s).2 := by
  unfold suspendLocked
  split
  · exact h
  · have hflag : Inv rule
        { s with suspended := true, suspendReason := s.suspendReason.or (some reason) } :=
      h.congr ⟨rfl,rfl,rfl,rfl,rfl,rfl,le_rfl⟩
    have hfold := (hflag.foldl_retire (f:=fun s m => rule.retire m 240 "suspended" s)
      (fun s m => .inr ⟨240,_,by norm_num,rfl⟩) s.forward.values
      fun m hm m' hm' => h.tables.mem_values_same hm hm').1
    obtain ⟨⟨a₁,a₂,a₃,a₄,a₅⟩,-,hcap⟩ := hfold
    refine Tables.inv_of_no_transactions ⟨a₁,a₂,a₃,a₄,a₅⟩ rfl ?_ fun pid => ?_
    · exact (Nat.le_add_right _ _).trans hcap.total
    · exact (Nat.le_add_right _ _).trans (hcap.pid pid)

theorem closeLocked_inv (s : ProcessRedirectEngine) : Inv rule (closeLocked s) := by
  refine Tables.inv_of_no_transactions ⟨?_,?_,?_,?_,?_⟩ rfl ?_ ?_ <;>
    simp [closeLocked,ProcessRedirectEngine.record]

theorem resumeLocked_inv (h : Inv rule s) : Inv rule (resumeLocked s).2 := by
  unfold resumeLocked
  split
  · exact h
  · exact h.congr ⟨rfl,rfl,rfl,rfl,rfl,rfl,le_rfl⟩

/-- What every operation but `prepare` does to the transactions. -/
def Shrinks (s s' : ProcessRedirectEngine) : Prop :=
  s'.transactions.size ≤ s.transactions.size ∧
    ∀ i t, s'.transactions.get? i = some t → s.transactions.get? i = some t

theorem Shrinks.refl (s : ProcessRedirectEngine) : Shrinks s s := ⟨le_rfl,fun _ _ h => h⟩

theorem Shrinks.trans {a b c : ProcessRedirectEngine} (h : Shrinks a b) (h' : Shrinks b c) :
    Shrinks a c :=
  ⟨h'.1.trans h.1,fun i t hi => h.2 i t (h'.2 i t hi)⟩

theorem shrinks_of_eq {s' : ProcessRedirectEngine} (h : s'.transactions = s.transactions) :
    Shrinks s s' :=
  ⟨by rw [h],by simp [h]⟩

theorem shrinks_popTransaction (token : ℕ) (s : ProcessRedirectEngine) :
    Shrinks s (popTransaction token s) :=
  ⟨Dict.size_pop_le _ _,fun _ _ hi => ((Dict.get?_pop_eq_some _ _ _ _).mp hi).2⟩

theorem Reserved.shrinks {key : RedirectKey} {s' : ProcessRedirectEngine} (h : Reserved rule key s)
    (hs : Shrinks s s') : Reserved rule key s' :=
  ⟨hs.1.trans_lt h.1,fun i t hi => h.2 i t (hs.2 i t hi)⟩

theorem observeTcp_transactions (m : RedirectMapping) (packet : PacketTuple)
    (s : ProcessRedirectEngine) : (rule.observeTcp m packet s).transactions = s.transactions := by
  have hfin := (markFin_same m packet s).transactions
  unfold observeTcp
  split
  · rfl
  · split
    · dsimp only
      split
      · exact hfin
      · exact hfin
    · rfl

theorem confirm_transactions (t : RedirectTransaction) (s : ProcessRedirectEngine) :
    (rule.confirm t s).transactions = s.transactions := by
  unfold confirm
  rw [observeTcp_transactions]
  split <;> rfl

theorem commitLocked_shrinks (token : ℕ) (outcome : Bool) (s : ProcessRedirectEngine) :
    Shrinks s (rule.commitLocked token outcome s).2 := by
  unfold commitLocked
  split
  · exact .refl s
  · split
    · exact (shrinks_popTransaction token s).trans (shrinks_of_eq (confirm_transactions _ _))
    · exact shrinks_popTransaction token s

theorem abortLocked_shrinks (token : ℕ) (s : ProcessRedirectEngine) :
    Shrinks s (rule.abortLocked token s).2 := by
  unfold abortLocked
  split
  · exact .refl s
  · exact shrinks_popTransaction token s

theorem shrinks_of_empty {s' : ProcessRedirectEngine} (h : s'.transactions = Dict.empty) :
    Shrinks s s' :=
  ⟨by simp [h],by simp [h]⟩

theorem suspendLocked_shrinks (reason : String) (s : ProcessRedirectEngine) :
    Shrinks s (rule.suspendLocked reason s).2 := by
  unfold suspendLocked
  split
  · exact .refl s
  · exact shrinks_of_empty rfl

theorem resumeLocked_shrinks (s : ProcessRedirectEngine) : Shrinks s (resumeLocked s).2 := by
  unfold resumeLocked
  split
  · exact .refl s
  · exact shrinks_of_eq rfl

/-- Safety of a part of `prepare`: the others only take transactions away. -/
abbrev PrepareSafe (rule : ProcessRedirectRule) {α : Type} (Q : α → ProcessRedirectEngine → Prop)
    (p : Prog ProcessRedirectEngine α) (s : ProcessRedirectEngine) : Prop :=
  Pool.Safe (Inv rule) Shrinks (fun _ _ => True) Q p s

theorem prepareSafe_same {α : Type} {key : RedirectKey}
    {m : ProcessRedirectEngine → α × ProcessRedirectEngine} (hm : ∀ s, SameTables s (m s).2)
    (hres : Reserved rule key s) :
    PrepareSafe rule (fun _ s => Reserved rule key s) (.locked m) s := by
  refine Pool.safe_locked fun s' hs' hi => ⟨hi.congr (hm s'),trivial,?_⟩
  exact (hres.shrinks hs').shrinks (shrinks_of_eq (hm s').transactions)

theorem resolveOwner_safe {key : RedirectKey} (hres : Reserved rule key s) (answers : RedirectAnswers)
    (cached : OwnerReply) :
    PrepareSafe rule (fun _ s => Reserved rule key s) (resolveOwner key answers cached) s := by
  cases cached with
  | nothing =>
    unfold resolveOwner
    cases answers.owner with
    | raised => exact hres
    | returned reply =>
      refine Pool.Safe.bind (prepareSafe_same (fun s => ?_) hres) fun _ s hs => hs
      exact ⟨rfl,rfl,rfl,rfl,rfl,rfl,now_le_ticked s⟩
  | invalid => exact hres
  | resolution r => exact hres

theorem suspend_safe (reason : String) (s : ProcessRedirectEngine) :
    PrepareSafe rule (fun _ _ => True) (rule.suspend reason) s :=
  Pool.safe_locked fun _ _ hi => ⟨suspendLocked_inv hi reason,trivial,trivial⟩

theorem prepareTarget_safe {packet : PacketTuple}
    (hkey : ∀ s owner, rule.forwardKey (freshMapping packet owner s) = packet.key)
    (hres : Reserved rule packet.key s) (answers : RedirectAnswers) (owner : ProcessOwnerIdentity) :
    PrepareSafe rule (fun _ _ => True) (rule.prepareTarget packet answers owner) s := by
  refine Pool.Safe.bind (prepareSafe_same (fun s => ⟨rfl,rfl,rfl,rfl,rfl,rfl,le_rfl⟩) hres)
    fun _ s hres => ?_
  have hsuspend : ∀ (reason : String) (p : PreparedRedirect), PrepareSafe rule (fun _ _ => True)
      ((rule.suspend reason).bind fun _ => .done p) s :=
    fun reason p => Pool.Safe.bind (suspend_safe reason s) fun _ _ _ => trivial
  split
  · exact hsuspend _ _
  · split
    · exact hsuspend _ _
    · split
      · trivial
      · trivial
      · refine Pool.safe_locked fun s' hs' hi => ⟨?_,trivial,trivial⟩
        exact createMapping_inv hi (hkey s') (hres.shrinks hs') owner answers

theorem prepareQueried_safe {packet : PacketTuple}
    (hkey : ∀ s owner, rule.forwardKey (freshMapping packet owner s) = packet.key)
    (hres : Reserved rule packet.key s) (answers : RedirectAnswers) (cached : OwnerReply) :
    PrepareSafe rule (fun _ _ => True) (rule.prepareQueried packet answers cached) s := by
  refine Pool.Safe.bind (resolveOwner_safe hres answers cached) fun reply s hres => ?_
  cases reply with
  | none => trivial
  | some reply =>
    cases reply with
    | nothing => trivial
    | invalid => trivial
    | resolution r =>
      dsimp only
      split
      · trivial
      · split
        · refine (prepareSafe_same (fun s => ?_) hres).mono fun _ _ _ => trivial
          exact ⟨rfl,rfl,rfl,rfl,rfl,rfl,now_le_ticked s⟩
        · exact prepareTarget_safe hkey hres answers _

theorem prepareOutbound_safe {packet : PacketTuple}
    (hkey : ∀ s owner, rule.forwardKey (freshMapping packet owner s) = packet.key)
    (answers : RedirectAnswers) (s : ProcessRedirectEngine) :
    PrepareSafe rule (fun _ _ => True) (rule.prepareOutbound packet answers) s := by
  have hbegin : PrepareSafe rule
      (fun stage s => ∀ cached, stage = .query cached → Reserved rule packet.key s)
      (.locked (rule.beginPrepare packet)) s := by
    refine Pool.safe_locked fun s' _ hi => ?_
    obtain ⟨hinv,hres⟩ := beginPrepare_inv hi packet
    exact ⟨hinv,trivial,hres⟩
  refine hbegin.bind fun stage s hstage => ?_
  cases stage with
  | decided prepared => trivial
  | query cached =>
    refine (prepareQueried_safe hkey (hstage cached rfl) answers cached).bind fun prepared s _ => ?_
    refine Pool.safe_locked fun s' _ hi => ⟨?_,trivial,trivial⟩
    exact hi.congr ⟨rfl,rfl,rfl,rfl,rfl,rfl,le_rfl⟩

theorem prepare_safe (packet : PacketTuple) (answers : RedirectAnswers) (s : ProcessRedirectEngine) :
    PrepareSafe rule (fun _ _ => True) (rule.prepare packet answers) s := by
  unfold prepare
  split
  · trivial
  · rename_i htcp
    split
    · unfold prepareInbound
      split
      · trivial
      · split
        · trivial
        · exact Pool.safe_locked fun s' _ hi => ⟨inboundLocked_inv hi packet,trivial,trivial⟩
    · trivial
    · split
      · trivial
      · rename_i htarget
        split
        · trivial
        · refine prepareOutbound_safe (fun s owner => ?_) answers s
          have hproto : packet.protocol = .tcp := by
            by_contra hne
            exact htcp (.inr hne)
          simp [forwardKey,RedirectMapping.forwardKey,freshMapping,PacketTuple.key,hproto,
            not_not.mp htarget]

end ProcessRedirectRule

namespace RedirectCall

open ProcessRedirectRule

def isPrepare : RedirectCall → Bool
  | prepare _ _ => true
  | _ => false

/-- The single packet receiver: no second `prepare` starts before the first has returned. -/
def oneReceiver (P : Pool ProcessRedirectEngine RedirectCall RedirectReply) (c : RedirectCall) : Prop :=
  c.isPrepare = true → ∀ t d p, P.threads t = some (d,p) → d.isPrepare = false

def Relies (c : RedirectCall) (s s' : ProcessRedirectEngine) : Prop := c.isPrepare = true → Shrinks s s'

def Guarantees (c : RedirectCall) (s s' : ProcessRedirectEngine) : Prop :=
  c.isPrepare = false → Shrinks s s'

theorem safe_of_section {rule : ProcessRedirectRule} {α : Type} {c : RedirectCall}
    {m : ProcessRedirectEngine → α × ProcessRedirectEngine} {f : α → RedirectReply}
    (hinv : ∀ s, Inv rule s → Inv rule (m s).2) (hshrinks : ∀ s, Shrinks s (m s).2)
    (s : ProcessRedirectEngine) :
    Pool.Safe (Inv rule) c.Relies c.Guarantees (fun _ _ => True)
      ((Prog.locked m).bind fun a => .done (f a)) s :=
  fun s' _ hi => ⟨hinv s' hi,fun _ => hshrinks s',trivial⟩

theorem safe_mono {rule : ProcessRedirectRule} {packet : PacketTuple} {answers : RedirectAnswers}
    {α : Type} {p : Prog ProcessRedirectEngine α} {s : ProcessRedirectEngine}
    (h : PrepareSafe rule (fun _ _ => True) p s) :
    Pool.Safe (Inv rule) (prepare packet answers).Relies (prepare packet answers).Guarantees
      (fun _ _ => True) p s := by
  induction p generalizing s with
  | done a => trivial
  | step f k ih =>
    intro s' hr hi
    obtain ⟨hi',-,hk⟩ := h s' (hr rfl) hi
    refine ⟨hi',fun hp => ?_,ih s' hk⟩
    cases hp

theorem body_safe (rule : ProcessRedirectRule) (c : RedirectCall) (s : ProcessRedirectEngine) :
    Pool.Safe (Inv rule) c.Relies c.Guarantees (fun _ _ => True) (c.body rule) s := by
  cases c with
  | prepare packet answers =>
    exact Pool.Safe.bind (safe_mono (prepare_safe packet answers s)) fun _ _ _ => trivial
  | commit token outcome =>
    exact fun s' _ hi => ⟨commitLocked_inv hi token outcome,fun _ => commitLocked_shrinks _ _ s',trivial⟩
  | abort token =>
    exact fun s' _ hi => ⟨abortLocked_inv hi token,fun _ => abortLocked_shrinks _ s',trivial⟩
  | close => exact fun s' _ hi => ⟨closeLocked_inv s',fun _ => shrinks_of_empty rfl,trivial⟩
  | suspend reason =>
    exact safe_of_section (fun s hi => suspendLocked_inv hi reason) (suspendLocked_shrinks reason) s
  | resume routeValid fileValid =>
    dsimp only [body]
    unfold ProcessRedirectRule.resume
    split
    · exact safe_of_section (fun s hi => resumeLocked_inv hi) resumeLocked_shrinks s
    · trivial

theorem sound (rule : ProcessRedirectRule) :
    Pool.Sound (body rule) oneReceiver (Inv rule) Relies Guarantees (fun _ _ _ => True)
      fun c d => c.isPrepare = true → d.isPrepare = false where
  refl c s _ := .refl s
  trans c a b d h h' hc := (h hc).trans (h' hc)
  stable _ _ _ _ _ _ := trivial
  guar c d hcd s s' hg hd := hg (by
    cases hc : c.isPrepare with
    | false => rfl
    | true => rw [hcd hc] at hd; cases hd)
  body c s _ := body_safe rule c s
  allows P c ha t d q ht := by
    refine ⟨fun hc => ha hc t d q ht,fun hd => ?_⟩
    cases hc : c.isPrepare with
    | false => rfl
    | true =>
      rw [ha hc t d q ht] at hd
      cases hd

end RedirectCall

/-- The representation of the mappings and the capacities of the engine. -/
structure ProcessRedirectEngine.Consistent (rule : ProcessRedirectRule) (s : ProcessRedirectEngine) :
    Prop where
  reverse_same : ∀ m, m ∈ s.reverse.values ↔ m ∈ s.forward.values
  client_same : ∀ m, m ∈ s.client.values ↔ m ∈ s.forward.values
  forward_key : ∀ k m, s.forward.get? k = some m → k = m.forwardKey rule.originalIpv4
  reverse_key : ∀ k m, s.reverse.get? k = some m → k = m.reverseKey rule.targetIpv4
  client_key : ∀ k m, s.client.get? k = some m → k = m.clientKey
  endpoint_unique : (s.forward.values++ProcessRedirectRule.pendingNew s).Pairwise fun m m' =>
    m.clientKey ≠ m'.clientKey
  total : s.forward.size+(ProcessRedirectRule.pendingNew s).length ≤ 1024
  pid : ∀ pid, (s.forward.values++ProcessRedirectRule.pendingNew s).countP (fun m => m.pid = pid) ≤ 256
  transactions : s.transactions.size ≤ 128

namespace ProcessRedirectRule

variable {rule : ProcessRedirectRule} {s : ProcessRedirectEngine}

theorem Tables.mem_reverse_values (h : Tables rule s) (m : RedirectMapping) :
    m ∈ s.reverse.values ↔ m ∈ s.forward.values := by
  simp only [Dict.mem_values_iff]
  constructor
  · rintro ⟨k,hk⟩
    rw [h.reverse_key k m hk] at hk
    exact ⟨_,(h.reverse_iff m).mp hk⟩
  · rintro ⟨k,hk⟩
    rw [h.forward_key k m hk] at hk
    exact ⟨_,(h.reverse_iff m).mpr hk⟩

theorem Tables.mem_client_values (h : Tables rule s) (m : RedirectMapping) :
    m ∈ s.client.values ↔ m ∈ s.forward.values := by
  simp only [Dict.mem_values_iff]
  constructor
  · rintro ⟨k,hk⟩
    rw [h.client_key k m hk] at hk
    exact ⟨_,(h.client_iff m).mp hk⟩
  · rintro ⟨k,hk⟩
    rw [h.forward_key k m hk] at hk
    exact ⟨_,(h.client_iff m).mpr hk⟩

theorem InvFor.endpoint_unique {live : RedirectTransaction → Prop} (h : InvFor rule live s) :
    (s.forward.values++pendingNew s).Pairwise fun m m' => m.clientKey ≠ m'.clientKey := by
  refine List.pairwise_append.mpr ⟨?_,?_,?_⟩
  · refine Dict.pairwise_values fun k k' m m' hk hk' hne he => hne ?_
    have hm := (h.tables.client_iff m).mpr (h.tables.forward_key k m hk ▸ hk)
    have hm' := (h.tables.client_iff m').mpr (h.tables.forward_key k' m' hk' ▸ hk')
    rw [he,hm'] at hm
    rw [h.tables.forward_key k m hk,h.tables.forward_key k' m' hk',Option.some.inj hm]
  · rw [pendingNew,List.pairwise_map,List.pairwise_filter]
    refine Dict.pairwise_values fun i j t u hi hj hij hnew hnew' he => ?_
    exact h.pending.endpoint i j t u hi hj hnew hnew' hij he.symm
  · intro m hm m' hm' he
    obtain ⟨t,ht,rfl⟩ := List.mem_map.mp hm'
    obtain ⟨ht,hnew⟩ := List.mem_filter.mp ht
    obtain ⟨i,hi⟩ := (Dict.mem_values_iff _ _).mp ht
    have hclient := (h.tables.client_iff m).mpr (h.tables.mem_values hm)
    rw [he,h.pending.absent i t hi hnew] at hclient
    cases hclient

theorem InvFor.consistent {live : RedirectTransaction → Prop} (h : InvFor rule live s) :
    s.Consistent rule where
  reverse_same := h.tables.mem_reverse_values
  client_same := h.tables.mem_client_values
  forward_key := h.tables.forward_key
  reverse_key := h.tables.reverse_key
  client_key := h.tables.client_key
  endpoint_unique := h.endpoint_unique
  total := by
    have htotal := h.capacities.total
    rw [pendingNew_length,Dict.size_eq_countP]
    simpa [load] using htotal
  pid := by
    intro pid
    have hpid := h.capacities.pid pid
    rw [List.countP_append,pendingNew_countP,Dict.values,List.countP_map]
    exact hpid
  transactions := h.capacities.transactions

end ProcessRedirectRule

/-- With one packet receiver, every interleaving of the operations, at the granularity of
their locked sections, keeps the tables consistent. -/
theorem redirect_tables_consistent (rule : ProcessRedirectRule) (clock : Clock)
    (P : Pool ProcessRedirectEngine RedirectCall ProcessRedirectRule.RedirectReply)
    (h : Pool.Steps (RedirectCall.body rule) RedirectCall.oneReceiver (Pool.start (.init clock)) P) :
    P.shared.Consistent rule :=
  (Pool.protected_steps (RedirectCall.sound rule) h
    (Pool.protected_start (ProcessRedirectRule.init_inv clock))).shared.consistent

/-- Connections of `C:/a.exe` to 203.0.113.9 go to 192.168.1.9. -/
def ProcessRedirectRule.sample : ProcessRedirectRule where
  originalIpv4 := .dotted 203 0 113 9
  targetIpv4 := .dotted 192 168 1 9
  fileIdentity := ⟨"C:/a.exe",7,42⟩
  lcMapString := fun path => path.map Char.toLower

/-- A packet of one client port to the original address. -/
def PacketTuple.toOriginal (tcpFlags : ℕ) : PacketTuple where
  direction := .outbound
  ipv4Version := 4
  fragmented := false
  protocol := .tcp
  tcpFlags := tcpFlags
  sourceIpv4 := .dotted 10 0 0 5
  sourcePort := 50000
  targetIpv4 := .dotted 203 0 113 9
  targetPort := 80
  interfaceIndex := 3
  subinterfaceIndex := 0

/-- The resolver names the file `fileId` of the volume, and every other query succeeds. -/
def RedirectAnswers.ownedBy (fileId : ℤ) : RedirectAnswers where
  owner := .returned (.resolution ⟨.resolved,some ⟨1234,1,"c:/A.exe",7,fileId⟩⟩)
  route := .returned ⟨true,none⟩
  identityValid := .returned true

/-- A SYN of the reviewed process, and its injection. -/
def RedirectCall.redirectedSyn : List RedirectCall :=
  [.prepare (.toOriginal thSyn) (.ownedBy 42),.commit 1 true]

theorem redirect_tables_consistent_redirectedSyn :
    (Prog.runAll (RedirectCall.body .sample) (.init (Clock.every 1))
        RedirectCall.redirectedSyn).Consistent .sample ∧
      (Prog.runAll (RedirectCall.body .sample) (.init (Clock.every 1))
        RedirectCall.redirectedSyn).forward.size = 1 :=
  ⟨redirect_tables_consistent .sample (Clock.every 1) (Pool.start _)
    (Pool.steps_runAll (fun _ _ hidle _ t _ _ ht => by simp [hidle t] at ht) _
      RedirectCall.redirectedSyn),
    by decide +kernel⟩

end FakeNetNG
