import FakeNetNG.RedirectRuns

/-!
# Quarantine of redirected flows

`_add_tombstone_locked` writes its deadline over the one that is there. A normal close or a
suspension blocks a flow for four minutes, a failed injection or a forgotten transaction for
three seconds, and of one mapping several transactions may be outstanding when it is closed.
So a flow stays blocked for as long as it was announced in every run in which such a
transaction finds no deadline that is more than three seconds away.
-/

namespace FakeNetNG
namespace ProcessRedirectRule

open ProcessRedirectEngine

variable {rule : ProcessRedirectRule} {s s' : ProcessRedirectEngine}

/-- No tombstone lasts longer than four minutes. -/
def Bounded (s : ProcessRedirectEngine) : Prop :=
  ∀ key item, s.tombstones.get? key = some item → item.1 ≤ s.now+240

/-- The flow is blocked until `e`, unless the clock got there or the engine is closed. -/
def BlockedUntil (key : RedirectKey) (e : ℚ) (s : ProcessRedirectEngine) : Prop :=
  s.closed = true ∨ e ≤ s.now ∨ ∃ item, s.tombstones.get? key = some item ∧ e ≤ item.1

structure Lasting (s s' : ProcessRedirectEngine) : Prop where
  now : s.now ≤ s'.now
  bounded : Bounded s → Bounded s'
  blocked : Bounded s → ∀ key e, BlockedUntil key e s → BlockedUntil key e s'

theorem Lasting.refl (s : ProcessRedirectEngine) : Lasting s s := ⟨le_rfl,id,fun _ _ _ h => h⟩

theorem Lasting.trans {s'' : ProcessRedirectEngine} (h : Lasting s s') (h' : Lasting s' s'') :
    Lasting s s'' :=
  ⟨h.now.trans h'.now,fun hb => h'.bounded (h.bounded hb),
    fun hb key e he => h'.blocked (h.bounded hb) key e (h.blocked hb key e he)⟩

theorem lasting_of_eq (ht : s'.tombstones = s.tombstones) (hc : s'.closed = s.closed)
    (hn : s.now ≤ s'.now) : Lasting s s' := by
  refine ⟨hn,fun hb key item hk => ?_,fun _ key e he => ?_⟩
  · rw [ht] at hk
    exact (hb key item hk).trans (by linarith)
  · unfold BlockedUntil at he ⊢
    rw [ht,hc]
    exact he.imp_right fun h => h.imp_left fun h => h.trans hn

theorem Quiet.lasting (h : Quiet s s') : Lasting s s' := lasting_of_eq h.tombstones h.closed h.now

theorem lasting_foldl {α : Type} {f : ProcessRedirectEngine → α → ProcessRedirectEngine}
    (hf : ∀ s a, Lasting s (f s a)) (l : List α) (s : ProcessRedirectEngine) :
    Lasting s (l.foldl f s) := by
  induction l generalizing s with
  | nil => exact .refl s
  | cons a l ih => exact (hf s a).trans (ih _)

theorem lasting_addTombstone {m : RedirectMapping} {seconds : ℚ} {reason : String}
    (hle : seconds ≤ 240) (hnew : Bounded s → ∀ key ∈ [rule.forwardKey m,rule.reverseKey m],
      ∀ item ∈ s.tombstones.get? key, item.1 ≤ s.now+seconds) :
    Lasting s (rule.addTombstone m seconds reason s) := by
  have hnow : s.now ≤ (rule.addTombstone m seconds reason s).now := now_le_ticked s
  refine ⟨hnow,fun hb key item hk => ?_,fun hb key e he => ?_⟩
  · simp only [addTombstone,Dict.get?_set] at hk
    split_ifs at hk
    · obtain rfl := Option.some.inj hk
      dsimp only
      linarith
    · obtain rfl := Option.some.inj hk
      dsimp only
      linarith
    · exact (hb key item hk).trans (by linarith)
  · obtain hc | hpast | ⟨item,hk,hitem⟩ := he
    · exact .inl hc
    · exact .inr (.inl (hpast.trans hnow))
    · right
      right
      by_cases hkey : key ∈ [rule.forwardKey m,rule.reverseKey m]
      · exact tombstones_addTombstone hk hitem (hitem.trans (hnew hb key hkey item hk))
      · simp only [List.mem_cons,List.not_mem_nil,or_false,not_or] at hkey
        refine ⟨item,?_,hitem⟩
        simp only [addTombstone,Dict.get?_set]
        rw [if_neg hkey.2,if_neg hkey.1]
        exact hk

theorem lasting_retire_long (m : RedirectMapping) (reason : String) (s : ProcessRedirectEngine) :
    Lasting s (rule.retire m 240 reason s) := by
  have hremove : Lasting s (rule.removeMapping m s) := lasting_of_eq rfl rfl le_rfl
  exact hremove.trans (lasting_addTombstone le_rfl fun hb key _ item hk => hb key item hk)

/-- The tombstones of the flow end within the three seconds for which a transaction that fails
or is forgotten blocks it. -/
def EndsSoon (rule : ProcessRedirectRule) (m : RedirectMapping) (s : ProcessRedirectEngine) : Prop :=
  ∀ key ∈ [rule.forwardKey m,rule.reverseKey m], ∀ item ∈ s.tombstones.get? key, item.1 ≤ s.now+3

theorem lasting_addTombstone_short {m : RedirectMapping} {reason : String}
    (h : EndsSoon rule m s) : Lasting s (rule.addTombstone m 3 reason s) :=
  lasting_addTombstone (by norm_num) fun _ => h

theorem lasting_retire_short {m : RedirectMapping} {reason : String} (h : EndsSoon rule m s) :
    Lasting s (rule.retire m 3 reason s) := by
  have hremove : Lasting s (rule.removeMapping m s) := lasting_of_eq rfl rfl le_rfl
  have hsoon : EndsSoon rule m (rule.removeMapping m s) := h
  exact hremove.trans (lasting_addTombstone_short hsoon)

theorem lasting_purge {now : ℚ} (h : now ≤ s.now) : Lasting s (purge now s) := by
  refine ⟨le_rfl,fun hb key item hk => ?_,fun hb key e he => ?_⟩
  · exact hb key item ((Dict.get?_filter_eq_some _ _ _ _).mp hk).1
  · obtain hc | hpast | ⟨item,hk,hitem⟩ := he
    · exact .inl hc
    · exact .inr (.inl hpast)
    · by_cases hlive : now < item.1
      · exact .inr (.inr ⟨item,(Dict.get?_filter_eq_some _ _ _ _).mpr ⟨hk,by simpa using hlive⟩,hitem⟩)
      · exact .inr (.inl (hitem.trans ((not_lt.mp hlive).trans h)))

/-- Of the transactions that `now` finds too old, the flows of the new ones end soon. -/
def TimeoutsEndSoon (rule : ProcessRedirectRule) (now : ℚ) (l : List RedirectTransaction)
    (s : ProcessRedirectEngine) : Prop :=
  ∀ t ∈ l, t.newMapping = true → 2 ≤ now-t.createdAt → EndsSoon rule t.mapping s

theorem EndsSoon.addTombstone {m m' : RedirectMapping} {reason : String} (h : EndsSoon rule m s) :
    EndsSoon rule m (rule.addTombstone m' 3 reason s) := by
  intro key hkey item hk
  have hnow : s.now ≤ (rule.addTombstone m' 3 reason s).now := now_le_ticked s
  simp only [ProcessRedirectRule.addTombstone,Dict.get?_set,Option.mem_def] at hk
  split_ifs at hk
  · obtain rfl := Option.some.inj hk
    dsimp only
    linarith
  · obtain rfl := Option.some.inj hk
    dsimp only
    linarith
  · exact (h key hkey item hk).trans (by linarith)

theorem lasting_timeOuts (now : ℚ) (l : List (ℕ × RedirectTransaction))
    (h : TimeoutsEndSoon rule now (l.map Prod.snd) s) : Lasting s (l.foldl (rule.timeOut now) s) := by
  induction l generalizing s with
  | nil => exact .refl s
  | cons e l ih =>
    have hrest : TimeoutsEndSoon rule now (l.map Prod.snd) s :=
      fun t ht => h t (List.mem_cons_of_mem _ ht)
    have hpop : Lasting s (popTransaction e.1 s) := lasting_of_eq rfl rfl le_rfl
    by_cases hold : 2 ≤ now-e.2.createdAt
    · by_cases hnew : e.2.newMapping = true
      · have hstep : rule.timeOut now s e =
            rule.addTombstone e.2.mapping 3 "pending_timeout" (popTransaction e.1 s) := by
          simp [timeOut,hold,hnew]
        have hsoon : EndsSoon rule e.2.mapping (popTransaction e.1 s) :=
          h e.2 (by simp) hnew hold
        rw [List.foldl_cons,hstep]
        refine (hpop.trans (lasting_addTombstone_short hsoon)).trans (ih fun t ht hn ho => ?_)
        exact EndsSoon.addTombstone (s:=popTransaction e.1 s) (hrest t ht hn ho)
      · have hstep : rule.timeOut now s e = popTransaction e.1 s := by
          simp [timeOut,hold,hnew]
        rw [List.foldl_cons,hstep]
        exact hpop.trans (ih hrest)
    · have hstep : rule.timeOut now s e = s := by
        simp [timeOut,hold]
      rw [List.foldl_cons,hstep]
      exact ih hrest

theorem lasting_expire (now : ℚ) (s : ProcessRedirectEngine) (m : RedirectMapping) :
    Lasting s (rule.expire now s m) := by
  unfold expire
  split
  · exact .refl s
  · exact lasting_retire_long m _ s

theorem lasting_cleanup (h : TimeoutsEndSoon rule s.now s.transactions.values s) :
    Lasting s (rule.cleanup s.now s.ticked) := by
  have htick : Lasting s s.ticked := lasting_of_eq rfl rfl (now_le_ticked s)
  have hpurge : Lasting s.ticked (purge s.now s.ticked) := lasting_purge (now_le_ticked s)
  have hsoon : TimeoutsEndSoon rule s.now (s.transactions.entries.map Prod.snd)
      (purge s.now s.ticked) := by
    intro t ht hnew hold key hkey item hk
    have hitem := h t ht hnew hold key hkey item ((Dict.get?_filter_eq_some _ _ _ _).mp hk).1
    have hnow : s.now ≤ (purge s.now s.ticked).now := now_le_ticked s
    linarith
  exact (htick.trans hpurge).trans
    ((lasting_timeOuts s.now _ hsoon).trans (lasting_foldl (lasting_expire s.now) _ _))

theorem lasting_rewrite (m : RedirectMapping) (packet : PacketTuple) (new : Bool)
    (decision : ProcessRedirectDecision) (s : ProcessRedirectEngine) :
    Lasting s (rewrite m packet new decision s).2 := lasting_of_eq rfl rfl (now_le_ticked s)

theorem lasting_beginPrepare (packet : PacketTuple)
    (h : TimeoutsEndSoon rule s.now s.transactions.values s) :
    Lasting s (rule.beginPrepare packet s).2 := by
  have hclean := lasting_cleanup h
  have hbegins := beginPrepare_begins rule packet s
  generalize rule.beginPrepare packet s = r at hbegins ⊢
  cases hbegins with
  | dropped reason s' hq => exact hclean.trans hq.lasting
  | existing m => exact hclean.trans (lasting_rewrite m packet false _ _)
  | passed expires => exact hclean.trans (lasting_of_eq rfl rfl le_rfl)
  | query cached s' _ _ _ hq => exact hclean.trans hq.lasting

theorem lasting_createMapping (packet : PacketTuple) (owner : ProcessOwnerIdentity)
    (answers : RedirectAnswers) (s : ProcessRedirectEngine) :
    Lasting s (rule.createMapping packet owner answers s).2 := by
  have hcreates := createMapping_creates rule packet owner answers s
  generalize rule.createMapping packet owner answers s = r at hcreates ⊢
  cases hcreates with
  | dropped reason s' hq => exact hq.lasting
  | created s' hq => exact hq.lasting.trans (lasting_of_eq rfl rfl (now_le_ticked s'))

theorem lasting_inboundLocked (packet : PacketTuple)
    (h : TimeoutsEndSoon rule s.now s.transactions.values s) :
    Lasting s (rule.inboundLocked packet s).2 := by
  have hclean := lasting_cleanup h
  unfold inboundLocked
  dsimp only
  split
  · exact hclean
  · split
    · exact hclean
    · split
      · exact hclean
      · split
        · exact hclean
        · exact hclean.trans (lasting_rewrite _ packet false _ _)

theorem lasting_observeTcp (m : RedirectMapping) (packet : PacketTuple) (s : ProcessRedirectEngine) :
    Lasting s (rule.observeTcp m packet s) := by
  have hfin : Lasting s (markFin m packet s) := by
    unfold markFin
    dsimp only
    split
    · exact lasting_of_eq rfl rfl (now_le_ticked s)
    · exact lasting_of_eq rfl rfl le_rfl
  unfold observeTcp
  dsimp only
  split
  · exact lasting_retire_long m _ s
  · split
    · split
      · exact hfin.trans (lasting_retire_long m _ _)
      · exact hfin
    · exact .refl s

theorem lasting_confirm (t : RedirectTransaction) (s : ProcessRedirectEngine) :
    Lasting s (rule.confirm t s) := by
  have hinstall : Lasting s (if t.newMapping then rule.install t.mapping s else s) := by
    split
    · exact lasting_of_eq rfl rfl le_rfl
    · exact .refl s
  have htouch : ∀ s, Lasting s (touch t.mapping s) := fun s => lasting_of_eq rfl rfl (now_le_ticked s)
  exact (hinstall.trans (htouch _)).trans (lasting_observeTcp _ _ _)

theorem lasting_suspendLocked (reason : String) (s : ProcessRedirectEngine) :
    Lasting s (rule.suspendLocked reason s).2 := by
  unfold suspendLocked
  split
  · exact .refl s
  · have hflag : Lasting s
        { s with suspended := true, suspendReason := s.suspendReason.or (some reason) } :=
      lasting_of_eq rfl rfl le_rfl
    have hfold := lasting_foldl (f:=fun s m => rule.retire m 240 "suspended" s)
      (fun s m => lasting_retire_long m _ s) s.forward.values
      { s with suspended := true, suspendReason := s.suspendReason.or (some reason) }
    exact (hflag.trans hfold).trans (lasting_of_eq rfl rfl le_rfl)

theorem lasting_closeLocked (s : ProcessRedirectEngine) : Lasting s (closeLocked s) :=
  ⟨le_rfl,fun _ key item hk => absurd hk (by simp [closeLocked,ProcessRedirectEngine.record]),
    fun _ _ _ _ => .inl rfl⟩

/-- The transactions that a section fails or forgets find no deadline more than three seconds
away. -/
def Spares (rule : ProcessRedirectRule) (s : ProcessRedirectEngine) : RedirectSection → Prop
  | .commit token false | .abort token =>
    ∀ t ∈ s.transactions.get? token, EndsSoon rule t.mapping s
  | .beginPrepare _ | .inbound _ => TimeoutsEndSoon rule s.now s.transactions.values s
  | _ => True

theorem lasting_section (sec : RedirectSection) (h : Spares rule s sec) :
    Lasting s (sec.apply rule s) := by
  cases sec with
  | beginPrepare packet => exact lasting_beginPrepare packet h
  | cacheResolution key reply => exact lasting_of_eq rfl rfl (now_le_ticked s)
  | passNonTarget key => exact lasting_of_eq rfl rfl (now_le_ticked s)
  | recordTarget key => exact lasting_of_eq rfl rfl le_rfl
  | createMapping packet owner answers => exact lasting_createMapping packet owner answers s
  | releaseReservation key => exact lasting_of_eq rfl rfl le_rfl
  | inbound packet => exact lasting_inboundLocked packet h
  | commit token outcome =>
    show Lasting s (rule.commitLocked token outcome s).2
    unfold commitLocked
    split
    · exact .refl s
    · rename_i t ht
      have hpop : Lasting s ((popTransaction token s).record (.committed token outcome)) :=
        lasting_of_eq rfl rfl le_rfl
      cases outcome with
      | true => exact hpop.trans (lasting_confirm t _)
      | false =>
        have hsoon : EndsSoon rule t.mapping s := h t ht
        exact hpop.trans (lasting_retire_short hsoon)
  | abort token =>
    show Lasting s (rule.abortLocked token s).2
    unfold abortLocked
    split
    · exact .refl s
    · rename_i t ht
      have hpop : Lasting s (popTransaction token s) := lasting_of_eq rfl rfl le_rfl
      have hsoon : EndsSoon rule t.mapping s := h t ht
      exact hpop.trans (lasting_retire_short hsoon)
  | close => exact lasting_closeLocked s
  | suspend reason => exact lasting_suspendLocked reason s
  | resume =>
    unfold RedirectSection.apply resumeLocked
    dsimp only
    split
    · exact .refl s
    · exact lasting_of_eq rfl rfl le_rfl

def Handles (rule : ProcessRedirectRule) (packet : PacketTuple) : Prop :=
  packet.ipv4Version = 4 ∧ packet.protocol = .tcp ∧
    (packet.direction = .outbound ∧ packet.targetIpv4 = rule.originalIpv4 ∨
      packet.direction = .inbound ∧ packet.sourceIpv4 = rule.targetIpv4 ∧
        packet.targetIpv4 ≠ rule.targetIpv4)

variable (rule) in
theorem blocked_cleanup {key : RedirectKey} {item : ℚ × String} {now : ℚ}
    (hk : s.tombstones.get? key = some item) (hnow : now < item.1) :
    ∃ item', (rule.cleanup now s).tombstones.get? key = some item' := by
  have hadd : ∀ (s : ProcessRedirectEngine) m seconds reason, (∃ i, s.tombstones.get? key = some i) →
      ∃ i, (rule.addTombstone m seconds reason s).tombstones.get? key = some i := by
    rintro s m seconds reason ⟨i,hi⟩
    simp only [addTombstone,Dict.get?_set]
    split_ifs
    · exact ⟨_,rfl⟩
    · exact ⟨_,rfl⟩
    · exact ⟨i,hi⟩
  have htimeOut : ∀ (s : ProcessRedirectEngine) e, (∃ i, s.tombstones.get? key = some i) →
      ∃ i, (rule.timeOut now s e).tombstones.get? key = some i := by
    intro s e h
    unfold timeOut
    split_ifs
    · exact hadd (popTransaction e.1 s) _ _ _ h
    · exact h
    · exact h
  have hexpire : ∀ (s : ProcessRedirectEngine) m, (∃ i, s.tombstones.get? key = some i) →
      ∃ i, (rule.expire now s m).tombstones.get? key = some i := by
    intro s m h
    obtain he | ⟨seconds,reason,-,he⟩ := expire_cases now s m
    · rw [he]
      exact h
    · rw [he]
      exact hadd (rule.removeMapping m s) _ _ _ h
  have hfold : ∀ {α : Type} (f : ProcessRedirectEngine → α → ProcessRedirectEngine),
      (∀ s a, (∃ i, s.tombstones.get? key = some i) → ∃ i, (f s a).tombstones.get? key = some i) →
      ∀ (l : List α) (s : ProcessRedirectEngine), (∃ i, s.tombstones.get? key = some i) →
        ∃ i, (l.foldl f s).tombstones.get? key = some i := by
    intro α f hf l
    induction l with
    | nil => exact fun s h => h
    | cons a l ih => exact fun s h => ih _ (hf s a h)
  have hpurge : ∃ i, (purge now s).tombstones.get? key = some i :=
    ⟨item,(Dict.get?_filter_eq_some _ _ _ _).mpr ⟨hk,by simpa using hnow⟩⟩
  exact hfold _ hexpire _ _ (hfold _ htimeOut _ _ hpurge)

theorem prepare_drops {packet : PacketTuple} {i : ℚ × String} {found : ℕ → ProcessRedirectEngine}
    (hhandles : Handles rule packet) (hk : (found 0).tombstones.get? packet.key = some i)
    (hnow : (found 0).now < i.1) (answers : RedirectAnswers) :
    ((rule.prepare packet answers).under found).decision.action = .drop := by
  obtain ⟨item',hk'⟩ := blocked_cleanup rule (s:=(found 0).ticked) hk hnow
  obtain ⟨hversion,hproto,⟨hdir,htarget⟩ | ⟨hdir,hsource,htarget⟩⟩ := hhandles
  · have hprepare : rule.prepare packet answers = if packet.fragmented then
        pure (.drop "process_redirect_fragment") else rule.prepareOutbound packet answers := by
      simp [prepare,hversion,hproto,hdir,htarget]
    rw [hprepare]
    by_cases hfragment : packet.fragmented = true
    · rw [if_pos hfragment]
      rfl
    · rw [if_neg hfragment]
      obtain ⟨reason,hbegin⟩ : ∃ reason, (rule.beginPrepare packet (found 0)).1 =
          .decided (.drop reason) := by
        unfold beginPrepare
        dsimp only
        split
        · exact ⟨_,rfl⟩
        · rw [hk']
          exact ⟨_,rfl⟩
      rw [prepareOutbound,Prog.bind_eq,Prog.locked,Prog.bind]
      rw [Prog.under]
      dsimp only [Prog.bind_done]
      rw [hbegin]
      rfl
  · have hprepare : rule.prepare packet answers = if packet.fragmented then
        pure (.drop "process_redirect_fragment") else .locked (rule.inboundLocked packet) := by
      simp [prepare,prepareInbound,hversion,hproto,hdir,hsource,htarget]
    rw [hprepare]
    by_cases hfragment : packet.fragmented = true
    · rw [if_pos hfragment]
      rfl
    · rw [if_neg hfragment,Prog.under_locked]
      unfold inboundLocked
      dsimp only
      split
      · rfl
      · rw [hk']
        rfl

def sparing (rule : ProcessRedirectRule) (f : ProcessRedirectEngine → ProcessRedirectEngine)
    (s : ProcessRedirectEngine) : Prop := ∀ sec : RedirectSection, f = sec.apply rule → Spares rule s sec

theorem sparing_of_empty (h : s.tombstones.size = 0 ∨ s.transactions.size = 0)
    (f : ProcessRedirectEngine → ProcessRedirectEngine) : sparing rule f s := by
  have hnone : ∀ {κ ν : Type} [DecidableEq κ] (d : Dict κ ν), d.size = 0 → ∀ k v, d.get? k ≠ some v := by
    intro κ ν _ d hd k v hk
    have hmem := (Dict.get?_eq_some_iff d k v).mp hk
    rw [List.length_eq_zero_iff.mp hd] at hmem
    cases hmem
  have hsoon : ∀ t, (∃ i, s.transactions.get? i = some t) → EndsSoon rule t.mapping s := by
    rintro t ⟨i,hi⟩ key - item hk
    obtain ht | ht := h
    · exact absurd hk (hnone _ ht key item)
    · exact absurd hi (hnone _ ht i t)
  have htimeouts : TimeoutsEndSoon rule s.now s.transactions.values s :=
    fun t ht _ _ => hsoon t ((Dict.mem_values_iff _ _).mp ht)
  rintro sec -
  cases sec with
  | beginPrepare packet => exact htimeouts
  | inbound packet => exact htimeouts
  | commit token outcome =>
    cases outcome with
    | true => trivial
    | false => exact fun t ht => hsoon t ⟨token,ht⟩
  | abort token => exact fun t ht => hsoon t ⟨token,ht⟩
  | _ => trivial

theorem shortens_of_not_spares {sec : RedirectSection} {token : ℕ}
    (hsec : sec = .commit token false ∨ sec = .abort token) (h : ¬Spares rule s sec) :
    ∃ key item item', s.tombstones.get? key = some item ∧
      (sec.apply rule s).tombstones.get? key = some item' ∧ item'.1 < item.1 := by
  obtain ⟨t,ht,hlate⟩ : ∃ t, s.transactions.get? token = some t ∧ ¬EndsSoon rule t.mapping s := by
    by_contra hnone
    apply h
    obtain rfl | rfl := hsec <;>
    · intro t ht
      by_contra hlate
      exact hnone ⟨t,ht,hlate⟩
  obtain ⟨key,hkey,item,hk,hitem⟩ : ∃ key ∈ [rule.forwardKey t.mapping,rule.reverseKey t.mapping],
      ∃ item ∈ s.tombstones.get? key, s.now+3 < item.1 := by
    unfold EndsSoon at hlate
    push Not at hlate
    exact hlate
  refine ⟨key,item,(s.now+3,"injection_failure"),hk,?_,hitem⟩
  have htombstones : (sec.apply rule s).tombstones =
      (s.tombstones.set (rule.forwardKey t.mapping) (s.now+3,"injection_failure")).set
        (rule.reverseKey t.mapping) (s.now+3,"injection_failure") := by
    obtain rfl | rfl := hsec
    · show (rule.commitLocked token false s).2.tombstones = _
      rw [commitLocked,ht]
      rfl
    · show (rule.abortLocked token s).2.tombstones = _
      rw [abortLocked,ht]
      rfl
  rw [htombstones,Dict.get?_set,Dict.get?_set]
  simp only [List.mem_cons,List.not_mem_nil,or_false] at hkey
  obtain rfl | rfl := hkey
  · rw [if_pos rfl,ite_self]
  · rw [if_pos rfl]

theorem init_bounded (clock : Clock) : Bounded (.init clock) := by
  intro key item hk
  simp [ProcessRedirectEngine.init] at hk

end ProcessRedirectRule

open ProcessRedirectRule in
/-- In a run in which no transaction that fails or is forgotten finds its flow blocked for more
than three further seconds, a flow stays blocked until the deadline that was announced, and
`prepare` drops its packets until then. -/
theorem redirect_quarantine (rule : ProcessRedirectRule) (clock : Clock)
    (P P' : Pool ProcessRedirectEngine RedirectCall RedirectReply)
    (h₀ : Pool.CheckedSteps (RedirectCall.body rule) Pool.anyCall (sparing rule)
      (Pool.start (.init clock)) P)
    (h : Pool.CheckedSteps (RedirectCall.body rule) Pool.anyCall (sparing rule) P P')
    (key : RedirectKey) (item : ℚ × String) (hk : P.shared.tombstones.get? key = some item)
    (hopen : P'.shared.closed = false) (hnow : P'.shared.now < item.1) :
    (∃ item', P'.shared.tombstones.get? key = some item' ∧ item.1 ≤ item'.1) ∧
      ∀ packet answers found, packet.key = key → rule.Handles packet → found 0 = P'.shared →
        ((rule.prepare packet answers).under found).decision.action = .drop := by
  have hstart : ∀ t c p, (Pool.start (.init clock) : Pool ProcessRedirectEngine RedirectCall
      RedirectReply).threads t = some (c,p) → p.Each rule.IsSection := by
    intro t c p ht
    cases ht
  have hsection : ∀ f s, rule.IsSection f → sparing rule f s → Lasting s (f s) := by
    rintro f s ⟨sec,rfl⟩ hok
    exact lasting_section sec (hok sec rfl)
  have hbounded : Bounded P.shared :=
    Pool.checked_induction (RedirectCall.body_each rule)
      (fun f s hf hok hb => (hsection f s hf hok).bounded hb) h₀ hstart (init_bounded clock)
  have hthreads := Pool.each_steps (RedirectCall.body_each rule) (Pool.CheckedSteps.steps h₀) hstart
  have hlast : Bounded P'.shared ∧ BlockedUntil key item.1 P'.shared := by
    refine Pool.checked_induction (I:=fun s => Bounded s ∧ BlockedUntil key item.1 s)
      (RedirectCall.body_each rule) (fun f s hf hok hs => ?_) h hthreads
      ⟨hbounded,.inr (.inr ⟨item,hk,le_rfl⟩)⟩
    have hl := hsection f s hf hok
    exact ⟨hl.bounded hs.1,hl.blocked hs.1 key item.1 hs.2⟩
  obtain ⟨-,hclosed | hpast | ⟨item',hk',hitem⟩⟩ := hlast
  · rw [hopen] at hclosed
    cases hclosed
  · exact absurd hnow (not_lt.mpr hpast)
  · refine ⟨⟨item',hk',hitem⟩,fun packet answers found hpacket hhandles hfound => ?_⟩
    refine prepare_drops (i:=item') hhandles ?_ ?_ answers
    · rw [hfound,hpacket]
      exact hk'
    · rw [hfound]
      exact hnow.trans_le hitem

/-- A redirected connection is closed by a reset, with no other packet outstanding. -/
def RedirectCall.resetAlone : List (Pool.Turn RedirectCall) :=
  [.call 0 (.prepare (.toOriginal thSyn) (.ownedBy 42)),.go 0,.go 0,.go 0,.go 0,.go 0,
    .call 1 (.commit 1 true),.go 1,
    .call 2 (.prepare (.toOriginal thRst) (.ownedBy 42)),.go 2,
    .call 3 (.commit 2 true),.go 3]

/-- Its next packets, the last a SYN of the same port. -/
def RedirectCall.portReused : List (Pool.Turn RedirectCall) :=
  [.call 4 (.prepare (.toOriginal thAck) (.ownedBy 42)),.go 4,
    .call 5 (.prepare (.toOriginal thSyn) (.ownedBy 42)),.go 5]

/-- The pools after the reset and after the later packets. -/
def RedirectCall.afterReset : Pool ProcessRedirectEngine RedirectCall
    ProcessRedirectRule.RedirectReply :=
  Pool.schedule (RedirectCall.body .sample) (Pool.start (.init (Clock.every 1)))
    RedirectCall.resetAlone

def RedirectCall.afterReuse : Pool ProcessRedirectEngine RedirectCall
    ProcessRedirectRule.RedirectReply :=
  Pool.schedule (RedirectCall.body .sample) RedirectCall.afterReset RedirectCall.portReused

theorem redirect_quarantine_resetAlone :
    (∃ item', RedirectCall.afterReuse.shared.tombstones.get? (PacketTuple.toOriginal thSyn).key =
        some item' ∧ (251 : ℚ) ≤ item'.1) ∧
      ∀ packet answers found, packet.key = (PacketTuple.toOriginal thSyn).key →
        ProcessRedirectRule.Handles .sample packet → found 0 = RedirectCall.afterReuse.shared →
          ((ProcessRedirectRule.sample.prepare packet answers).under found).decision.action =
            .drop :=
  redirect_quarantine .sample (Clock.every 1) RedirectCall.afterReset RedirectCall.afterReuse
    (Pool.schedule_checked _ _ fun i hi f => ProcessRedirectRule.sparing_of_empty
      ((by decide +kernel : ∀ i < RedirectCall.resetAlone.length,
        (Pool.schedule (RedirectCall.body .sample) (Pool.start (.init (Clock.every 1)))
          (RedirectCall.resetAlone.take i)).shared.tombstones.size = 0 ∨
        (Pool.schedule (RedirectCall.body .sample) (Pool.start (.init (Clock.every 1)))
          (RedirectCall.resetAlone.take i)).shared.transactions.size = 0) i hi) f)
    (Pool.schedule_checked _ _ fun i hi f => ProcessRedirectRule.sparing_of_empty
      ((by decide +kernel : ∀ i < RedirectCall.portReused.length,
        (Pool.schedule (RedirectCall.body .sample) RedirectCall.afterReset
          (RedirectCall.portReused.take i)).shared.tombstones.size = 0 ∨
        (Pool.schedule (RedirectCall.body .sample) RedirectCall.afterReset
          (RedirectCall.portReused.take i)).shared.transactions.size = 0) i hi) f)
    (PacketTuple.toOriginal thSyn).key (251,"normal_close") (by decide +kernel)
    (by decide +kernel) (by decide +kernel)

/-- The same reset while another packet of the connection is outstanding. -/
def RedirectCall.resetWithOutstanding : List RedirectCall :=
  [.prepare (.toOriginal thSyn) (.ownedBy 42),.commit 1 true,
    .prepare (.toOriginal thAck) (.ownedBy 42),.prepare (.toOriginal thRst) (.ownedBy 42),
    .commit 3 true]

/-- The outstanding packet cannot be injected, and two more packets follow. -/
def RedirectCall.lateFailure : List RedirectCall :=
  [.abort 2,.prepare (.toOriginal thAck) (.ownedBy 42),.prepare (.toOriginal thAck) (.ownedBy 42)]

/-- The abort cuts the quarantine of four minutes short, and a SYN of the same port is redirected
in it. -/
theorem late_failure_unblocks :
    let s := Prog.runAll (RedirectCall.body .sample) (.init (Clock.every 1))
      RedirectCall.resetWithOutstanding
    let s' := Prog.runAll (RedirectCall.body .sample) s RedirectCall.lateFailure
    s.tombstones.get? (PacketTuple.toOriginal thSyn).key = some (253,"normal_close") ∧
      s'.closed = false ∧ s'.now < 253 ∧
      s'.tombstones.get? (PacketTuple.toOriginal thSyn).key = some (17,"injection_failure") ∧
      ((ProcessRedirectRule.sample.prepare (.toOriginal thSyn) (.ownedBy 42)).run
        s').1.decision.action = .rewriteOutbound := by
  decide +kernel

end FakeNetNG
