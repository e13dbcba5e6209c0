import FakeNetNG.ProcessRedirect

/-!
# The tables of the process redirect engine

The three tables hold the same mappings, a pending mapping shares its client endpoint
with no other, and the capacities hold, in every interleaving with a single packet
receiver. `_remove_mapping_locked` pops by key without looking at the mapping it finds;
what makes that safe is that a transaction never sees another mapping under the key of
its own: it is dropped after two seconds, and the flow of a mapping that went away is
blocked for at least three.
-/

namespace FakeNetNG
namespace ProcessRedirectRule

open ProcessRedirectEngine

variable {rule : ProcessRedirectRule} {s : ProcessRedirectEngine}

theorem reverseKey_eq_iff (m m' : RedirectMapping) :
    rule.reverseKey m = rule.reverseKey m' ↔ rule.forwardKey m = rule.forwardKey m' := by
  simp only [reverseKey,forwardKey,RedirectMapping.reverseKey,RedirectMapping.forwardKey,
    RedirectKey.mk.injEq]
  tauto

theorem clientKey_eq_of_forwardKey_eq {m m' : RedirectMapping}
    (h : rule.forwardKey m = rule.forwardKey m') : m.clientKey = m'.clientKey := by
  simp only [forwardKey,RedirectMapping.forwardKey,RedirectKey.mk.injEq] at h
  obtain ⟨-,h₁,h₂,-,-,h₃,h₄⟩ := h
  simp [RedirectMapping.clientKey,h₁,h₂,h₃,h₄]

/-- The established mappings with `p` and those that a pending transaction would add. -/
def load (p : RedirectMapping → Bool) (s : ProcessRedirectEngine) : ℕ :=
  s.forward.countP p+s.transactions.countP fun t => t.newMapping && p t.mapping

/-- The three tables agree and every entry stands under its own key. -/
structure Tables (rule : ProcessRedirectRule) (s : ProcessRedirectEngine) : Prop where
  forward_key : ∀ k m, s.forward.get? k = some m → k = rule.forwardKey m
  reverse_key : ∀ k m, s.reverse.get? k = some m → k = rule.reverseKey m
  client_key : ∀ k m, s.client.get? k = some m → k = m.clientKey
  reverse_iff : ∀ m, s.reverse.get? (rule.reverseKey m) = some m ↔
    s.forward.get? (rule.forwardKey m) = some m
  client_iff : ∀ m, s.client.get? m.clientKey = some m ↔
    s.forward.get? (rule.forwardKey m) = some m

/-- What the transactions of the engine have to do with its tables. The flow of a mapping
that went away is only known to be blocked for the transactions in `live`. -/
structure Pending (rule : ProcessRedirectRule) (live : RedirectTransaction → Prop)
    (s : ProcessRedirectEngine) : Prop where
  token_le : ∀ i t, s.transactions.get? i = some t → i ≤ s.token
  created : ∀ i t, s.transactions.get? i = some t → t.createdAt ≤ s.now
  absent : ∀ i t, s.transactions.get? i = some t → t.newMapping = true →
    s.client.get? t.mapping.clientKey = none
  alone : ∀ i j t u, s.transactions.get? i = some t → s.transactions.get? j = some u →
    t.newMapping = true → i ≠ j → rule.forwardKey u.mapping ≠ rule.forwardKey t.mapping
  endpoint : ∀ i j t u, s.transactions.get? i = some t → s.transactions.get? j = some u →
    t.newMapping = true → u.newMapping = true → i ≠ j → u.mapping.clientKey ≠ t.mapping.clientKey
  same : ∀ i t m, s.transactions.get? i = some t →
    s.forward.get? (rule.forwardKey t.mapping) = some m → m = t.mapping
  blocked : ∀ i t, s.transactions.get? i = some t → t.newMapping = false → live t →
    s.forward.get? (rule.forwardKey t.mapping) = some t.mapping ∨
      ∃ item, s.tombstones.get? (rule.forwardKey t.mapping) = some item ∧ t.createdAt+3 ≤ item.1

structure Capacities (s : ProcessRedirectEngine) : Prop where
  total : load (fun _ => true) s ≤ 1024
  pid : ∀ pid, load (fun m => m.pid = pid) s ≤ 256
  transactions : s.transactions.size ≤ 128

structure InvFor (rule : ProcessRedirectRule) (live : RedirectTransaction → Prop)
    (s : ProcessRedirectEngine) : Prop where
  tables : Tables rule s
  pending : Pending rule live s
  capacities : Capacities s

/-- The invariant between sections. -/
abbrev Inv (rule : ProcessRedirectRule) (s : ProcessRedirectEngine) : Prop :=
  InvFor rule (fun _ => True) s

theorem init_inv (clock : Clock) : Inv rule (.init clock) := by
  refine ⟨⟨?_,?_,?_,?_,?_⟩,⟨?_,?_,?_,?_,?_,?_,?_⟩,⟨?_,?_,?_⟩⟩ <;>
    simp [ProcessRedirectEngine.init,load]

/-- The invariant only reads the tables, the tombstones, the transactions and the time. -/
structure SameTables (s s' : ProcessRedirectEngine) : Prop where
  forward : s'.forward = s.forward
  reverse : s'.reverse = s.reverse
  client : s'.client = s.client
  transactions : s'.transactions = s.transactions
  tombstones : s'.tombstones = s.tombstones
  token : s'.token = s.token
  now : s.now ≤ s'.now

theorem InvFor.congr {live : RedirectTransaction → Prop} {s' : ProcessRedirectEngine}
    (h : InvFor rule live s) (hs : SameTables s s') : InvFor rule live s' := by
  obtain ⟨hf,hr,hc,ht,hb,hk,hn⟩ := hs
  obtain ⟨⟨a₁,a₂,a₃,a₄,a₅⟩,⟨b₁,b₂,b₃,b₄,b₅,b₆,b₇⟩,⟨c₁,c₂,c₃⟩⟩ := h
  have hload : ∀ p, load p s' = load p s := by
    intro p
    simp only [load,hf,ht]
  refine ⟨⟨?_,?_,?_,?_,?_⟩,⟨?_,?_,?_,?_,?_,?_,?_⟩,⟨?_,?_,?_⟩⟩ <;>
    simp only [hf,hr,hc,ht,hb,hk,hload] <;> try assumption
  exact fun i t h => (b₂ i t h).trans hn

theorem now_le_ticked (s : ProcessRedirectEngine) : s.now ≤ s.ticked.now := s.clock.now_le_next

theorem InvFor.forward_none {live : RedirectTransaction → Prop} (h : InvFor rule live s)
    {m : RedirectMapping} (hc : s.client.get? m.clientKey = none) :
    s.forward.get? (rule.forwardKey m) = none := by
  cases hf : s.forward.get? (rule.forwardKey m) with
  | none => rfl
  | some m' =>
    have hkey := h.tables.forward_key _ _ hf
    have hm' : s.client.get? m'.clientKey = some m' :=
      (h.tables.client_iff m').mpr (hkey ▸ hf)
    rw [← clientKey_eq_of_forwardKey_eq hkey,hc] at hm'
    cases hm'

theorem InvFor.popTransaction {live : RedirectTransaction → Prop} (h : InvFor rule live s) (i : ℕ) :
    InvFor rule live (ProcessRedirectEngine.popTransaction i s) := by
  have hpop : ∀ j t, (s.transactions.pop i).get? j = some t → s.transactions.get? j = some t :=
    fun j t hj => ((Dict.get?_pop_eq_some _ _ _ _).mp hj).2
  obtain ⟨ht,⟨b₁,b₂,b₃,b₄,b₅,b₆,b₇⟩,⟨c₁,c₂,c₃⟩⟩ := h
  have hload : ∀ p, load p (ProcessRedirectEngine.popTransaction i s) ≤ load p s :=
    fun p => Nat.add_le_add_left (Dict.countP_pop_le _ _ _) _
  refine ⟨⟨ht.1,ht.2,ht.3,ht.4,ht.5⟩,⟨?_,?_,?_,?_,?_,?_,?_⟩,⟨?_,?_,?_⟩⟩
  · exact fun j t hj => b₁ j t (hpop j t hj)
  · exact fun j t hj => b₂ j t (hpop j t hj)
  · exact fun j t hj => b₃ j t (hpop j t hj)
  · exact fun j k t u hj hk => b₄ j k t u (hpop j t hj) (hpop k u hk)
  · exact fun j k t u hj hk => b₅ j k t u (hpop j t hj) (hpop k u hk)
  · exact fun j t m hj => b₆ j t m (hpop j t hj)
  · exact fun j t hj => b₇ j t (hpop j t hj)
  · exact (hload _).trans c₁
  · exact fun pid => (hload _).trans (c₂ pid)
  · exact (Dict.size_pop_le _ _).trans c₃

/-- A transaction that leaves takes its pending mapping out of the load. -/
theorem load_popTransaction {i : ℕ} {t : RedirectTransaction} (hi : s.transactions.get? i = some t)
    (hnew : t.newMapping = true) (p : RedirectMapping → Bool) :
    load p (ProcessRedirectEngine.popTransaction i s)+(if p t.mapping then 1 else 0) =
      load p s := by
  have hcount := Dict.countP_pop s.transactions i t (fun t => t.newMapping && p t.mapping) hi
  simp only [hnew,Bool.true_and] at hcount
  simp only [load,ProcessRedirectEngine.popTransaction]
  omega

theorem tombstones_addTombstone {m : RedirectMapping} {seconds : ℚ} {reason : String}
    {k : RedirectKey} {item : ℚ × String} (hk : s.tombstones.get? k = some item) {t : ℚ}
    (ht : t ≤ item.1) (hnow : t ≤ s.now+seconds) :
    ∃ item', (rule.addTombstone m seconds reason s).tombstones.get? k = some item' ∧
      t ≤ item'.1 := by
  simp only [addTombstone,Dict.get?_set]
  split_ifs
  · exact ⟨_,rfl,hnow⟩
  · exact ⟨_,rfl,hnow⟩
  · exact ⟨item,hk,ht⟩

theorem tombstones_addTombstone_self (m : RedirectMapping) (seconds : ℚ) (reason : String) :
    (rule.addTombstone m seconds reason s).tombstones.get? (rule.forwardKey m) =
      some (s.now+seconds,reason) := by
  simp only [addTombstone,Dict.get?_set]
  split_ifs <;> rfl

theorem InvFor.addTombstone {live : RedirectTransaction → Prop} (h : InvFor rule live s)
    (m : RedirectMapping) {seconds : ℚ} (hsec : 3 ≤ seconds) (reason : String) :
    InvFor rule live (rule.addTombstone m seconds reason s) := by
  obtain ⟨⟨a₁,a₂,a₃,a₄,a₅⟩,⟨b₁,b₂,b₃,b₄,b₅,b₆,b₇⟩,⟨c₁,c₂,c₃⟩⟩ := h
  refine ⟨⟨a₁,a₂,a₃,a₄,a₅⟩,⟨b₁,?_,b₃,b₄,b₅,b₆,?_⟩,⟨c₁,c₂,c₃⟩⟩
  · exact fun i t hi => (b₂ i t hi).trans (now_le_ticked s)
  · intro i t hi hold hlive
    rcases b₇ i t hi hold hlive with hf | ⟨item,hk,ht⟩
    · exact .inl hf
    · have hcreated := b₂ i t hi
      exact .inr (tombstones_addTombstone hk ht (by linarith))

/-- A mapping leaves the tables, provided no other one stands under its key. -/
theorem Tables.removeMapping (h : Tables rule s) {m : RedirectMapping}
    (hsame : ∀ m', s.forward.get? (rule.forwardKey m) = some m' → m' = m) :
    Tables rule (rule.removeMapping m s) := by
  obtain ⟨a₁,a₂,a₃,a₄,a₅⟩ := h
  refine ⟨?_,?_,?_,?_,?_⟩
  · exact fun k m' hk => a₁ k m' ((Dict.get?_pop_eq_some _ _ _ _).mp hk).2
  · exact fun k m' hk => a₂ k m' ((Dict.get?_pop_eq_some _ _ _ _).mp hk).2
  · exact fun k m' hk => a₃ k m' ((Dict.get?_popIf_eq_some _ _ _ _ _).mp hk).1
  · intro m'
    simp only [ProcessRedirectRule.removeMapping,Dict.get?_pop_eq_some,ne_eq,reverseKey_eq_iff,a₄]
  · intro m'
    simp only [ProcessRedirectRule.removeMapping,Dict.get?_pop_eq_some,Dict.get?_popIf_eq_some,a₅]
    constructor
    · rintro ⟨hf,hn⟩
      refine ⟨fun he => hn ?_,hf⟩
      have heq : m' = m := hsame m' (he ▸ hf)
      exact ⟨congrArg _ heq,heq⟩
    · rintro ⟨hne,hf⟩
      exact ⟨hf,fun hc => hne (congrArg _ hc.2)⟩

theorem load_removeMapping_le (p : RedirectMapping → Bool) (m : RedirectMapping) :
    load p (rule.removeMapping m s) ≤ load p s :=
  Nat.add_le_add_right (Dict.countP_pop_le _ _ _) _

theorem InvFor.retire {live : RedirectTransaction → Prop} (h : InvFor rule live s)
    {m : RedirectMapping} (hsame : ∀ m', s.forward.get? (rule.forwardKey m) = some m' → m' = m)
    {seconds : ℚ} (hsec : 3 ≤ seconds) (reason : String) :
    InvFor rule live (rule.retire m seconds reason s) := by
  have htables := h.tables.removeMapping hsame
  obtain ⟨-,⟨b₁,b₂,b₃,b₄,b₅,b₆,b₇⟩,⟨c₁,c₂,c₃⟩⟩ := h
  have hforward : ∀ k m', (s.forward.pop (rule.forwardKey m)).get? k = some m' →
      s.forward.get? k = some m' := fun k m' hk => ((Dict.get?_pop_eq_some _ _ _ _).mp hk).2
  refine ⟨⟨htables.1,htables.2,htables.3,htables.4,htables.5⟩,⟨b₁,?_,?_,b₄,b₅,?_,?_⟩,⟨?_,?_,c₃⟩⟩
  · exact fun i t hi => (b₂ i t hi).trans (now_le_ticked s)
  · intro i t hi hnew
    have habsent := b₃ i t hi hnew
    cases hc : (s.client.popIf m.clientKey m).get? t.mapping.clientKey with
    | none => exact hc
    | some m' =>
      rw [Dict.get?_popIf_eq_some,habsent] at hc
      cases hc.1
  · exact fun i t m' hi hf => b₆ i t m' hi (hforward _ _ hf)
  · intro i t hi hold hlive
    have hcreated : t.createdAt ≤ (rule.removeMapping m s).now := b₂ i t hi
    by_cases hk : rule.forwardKey t.mapping = rule.forwardKey m
    · refine .inr ⟨((rule.removeMapping m s).now+seconds,reason),?_,?_⟩
      · rw [hk]
        exact tombstones_addTombstone_self m seconds reason
      · dsimp only
        linarith
    · rcases b₇ i t hi hold hlive with hf | ⟨item,hitem,ht⟩
      · exact .inl ((Dict.get?_pop_of_ne _ hk).trans hf)
      · exact .inr (tombstones_addTombstone (s:=rule.removeMapping m s) hitem ht (by linarith))
  · exact (load_removeMapping_le _ m).trans c₁
  · exact fun pid => (load_removeMapping_le _ m).trans (c₂ pid)

theorem InvFor.install {live : RedirectTransaction → Prop} (h : InvFor rule live s)
    {m : RedirectMapping} (hc : s.client.get? m.clientKey = none)
    (hkey : ∀ i t, s.transactions.get? i = some t → rule.forwardKey t.mapping ≠ rule.forwardKey m)
    (hend : ∀ i t, s.transactions.get? i = some t → t.newMapping = true →
      t.mapping.clientKey ≠ m.clientKey)
    (htotal : load (fun _ => true) s < 1024) (hpid : load (fun m' => m'.pid = m.pid) s < 256) :
    InvFor rule live (rule.install m s) := by
  have hf := h.forward_none hc
  have hr : s.reverse.get? (rule.reverseKey m) = none := by
    cases hr : s.reverse.get? (rule.reverseKey m) with
    | none => rfl
    | some m' =>
      have hk := h.tables.reverse_key _ _ hr
      have hm' := (h.tables.reverse_iff m').mp (hk ▸ hr)
      rw [← (reverseKey_eq_iff m m').mp hk,hf] at hm'
      cases hm'
  have hload : ∀ p, load p (rule.install m s) = load p s+(if p m then 1 else 0) := by
    intro p
    have hcount := Dict.countP_set_of_new s.forward (rule.forwardKey m) m p hf
    simp only [load,ProcessRedirectRule.install,hcount]
    omega
  obtain ⟨⟨a₁,a₂,a₃,a₄,a₅⟩,⟨b₁,b₂,b₃,b₄,b₅,b₆,b₇⟩,⟨c₁,c₂,c₃⟩⟩ := h
  refine ⟨⟨?_,?_,?_,?_,?_⟩,⟨b₁,b₂,?_,b₄,b₅,?_,?_⟩,⟨?_,?_,c₃⟩⟩
  · intro k m' hk
    rcases (Dict.get?_set_eq_some _ _ _ _ _).mp hk with ⟨rfl,rfl⟩ | ⟨-,hk⟩
    · rfl
    · exact a₁ k m' hk
  · intro k m' hk
    rcases (Dict.get?_set_eq_some _ _ _ _ _).mp hk with ⟨rfl,rfl⟩ | ⟨-,hk⟩
    · rfl
    · exact a₂ k m' hk
  · intro k m' hk
    rcases (Dict.get?_set_eq_some _ _ _ _ _).mp hk with ⟨rfl,rfl⟩ | ⟨-,hk⟩
    · rfl
    · exact a₃ k m' hk
  · intro m'
    simp only [ProcessRedirectRule.install,Dict.get?_set_eq_some,ne_eq,reverseKey_eq_iff,a₄]
  · intro m'
    simp only [ProcessRedirectRule.install,Dict.get?_set_eq_some,a₅]
    constructor
    · rintro (⟨-,rfl⟩ | ⟨hne,hm'⟩)
      · exact .inl ⟨rfl,rfl⟩
      · exact .inr ⟨fun he => hne (clientKey_eq_of_forwardKey_eq he),hm'⟩
    · rintro (⟨-,rfl⟩ | ⟨hne,hm'⟩)
      · exact .inl ⟨rfl,rfl⟩
      · refine .inr ⟨fun he => ?_,hm'⟩
        have hm'' := (a₅ m').mpr hm'
        rw [he,hc] at hm''
        cases hm''
  · intro i t hi hnew
    exact (Dict.get?_set_of_ne _ _ (hend i t hi hnew)).trans (b₃ i t hi hnew)
  · intro i t m' hi hm'
    exact b₆ i t m' hi ((Dict.get?_set_of_ne _ _ (hkey i t hi)).symm.trans hm')
  · intro i t hi hold hlive
    rcases b₇ i t hi hold hlive with hf' | hitem
    · exact .inl ((Dict.get?_set_of_ne _ _ (hkey i t hi)).trans hf')
    · exact .inr hitem
  · rw [hload]
    simpa using htotal
  · intro pid
    rw [hload]
    by_cases hp : m.pid = pid
    · subst hp
      simpa using hpid
    · simpa [hp] using c₂ pid

theorem get?_newTransaction {m : RedirectMapping} {packet : PacketTuple} {new : Bool} {i : ℕ}
    {t : RedirectTransaction} (h : (newTransaction m packet new s).transactions.get? i = some t) :
    i = s.token+1 ∧ t = ⟨s.token+1,m,packet,new,s.now⟩ ∨ s.transactions.get? i = some t := by
  rcases (Dict.get?_set_eq_some _ _ _ _ _).mp h with ⟨hi,ht⟩ | ⟨-,ht⟩
  · exact .inl ⟨hi,ht⟩
  · exact .inr ht

theorem InvFor.newToken {live : RedirectTransaction → Prop} (h : InvFor rule live s) :
    s.transactions.get? (s.token+1) = none := by
  cases ht : s.transactions.get? (s.token+1) with
  | none => rfl
  | some t => exact absurd (h.pending.token_le _ _ ht) (Nat.not_succ_le_self _)

theorem InvFor.newTransaction {live : RedirectTransaction → Prop} (h : InvFor rule live s)
    {m : RedirectMapping} (hm : s.forward.get? (rule.forwardKey m) = some m)
    (hroom : s.transactions.size < 128) (packet : PacketTuple) :
    InvFor rule live (ProcessRedirectEngine.newTransaction m packet false s) := by
  have hnone := h.newToken
  have hload : ∀ p, load p (ProcessRedirectEngine.newTransaction m packet false s) = load p s := by
    intro p
    have hcount := Dict.countP_set_of_new s.transactions (s.token+1)
      ⟨s.token+1,m,packet,false,s.now⟩ (fun t => t.newMapping && p t.mapping) hnone
    simp only [load,ProcessRedirectEngine.newTransaction,hcount]
    simp [ticked]
  have hsize := Dict.size_set_of_new s.transactions (s.token+1) ⟨s.token+1,m,packet,false,s.now⟩ hnone
  have hpending : ∀ i t, s.transactions.get? i = some t → t.newMapping = true →
      rule.forwardKey t.mapping ≠ rule.forwardKey m := by
    intro i t hi hnew he
    have hclient := (h.tables.client_iff m).mpr hm
    rw [← clientKey_eq_of_forwardKey_eq he,h.pending.absent i t hi hnew] at hclient
    cases hclient
  obtain ⟨⟨a₁,a₂,a₃,a₄,a₅⟩,⟨b₁,b₂,b₃,b₄,b₅,b₆,b₇⟩,⟨c₁,c₂,c₃⟩⟩ := h
  refine ⟨⟨a₁,a₂,a₃,a₄,a₅⟩,⟨?_,?_,?_,?_,?_,?_,?_⟩,⟨?_,?_,?_⟩⟩
  · intro i t hi
    rcases get?_newTransaction hi with ⟨rfl,-⟩ | hi
    · exact le_rfl
    · exact (b₁ i t hi).trans (Nat.le_succ _)
  · intro i t hi
    rcases get?_newTransaction hi with ⟨-,rfl⟩ | hi
    · exact now_le_ticked s
    · exact (b₂ i t hi).trans (now_le_ticked s)
  · intro i t hi hnew
    rcases get?_newTransaction hi with ⟨-,rfl⟩ | hi
    · cases hnew
    · exact b₃ i t hi hnew
  · intro i j t u hi hj hnew hij
    rcases get?_newTransaction hi with ⟨-,rfl⟩ | hi
    · cases hnew
    · rcases get?_newTransaction hj with ⟨-,rfl⟩ | hj
      · exact (hpending i t hi hnew).symm
      · exact b₄ i j t u hi hj hnew hij
  · intro i j t u hi hj hnew hnew' hij
    rcases get?_newTransaction hi with ⟨-,rfl⟩ | hi
    · cases hnew
    · rcases get?_newTransaction hj with ⟨-,rfl⟩ | hj
      · cases hnew'
      · exact b₅ i j t u hi hj hnew hnew' hij
  · intro i t m' hi hm'
    rcases get?_newTransaction hi with ⟨-,rfl⟩ | hi
    · exact Option.some.inj (hm'.symm.trans hm)
    · exact b₆ i t m' hi hm'
  · intro i t hi hold hlive
    rcases get?_newTransaction hi with ⟨-,rfl⟩ | hi
    · exact .inl hm
    · exact b₇ i t hi hold hlive
  · rw [hload]
    exact c₁
  · intro pid
    rw [hload]
    exact c₂ pid
  · exact hsize.trans_le hroom

theorem InvFor.newTransaction_new {live : RedirectTransaction → Prop} (h : InvFor rule live s)
    {m : RedirectMapping} (hc : s.client.get? m.clientKey = none)
    (hkey : ∀ i t, s.transactions.get? i = some t → rule.forwardKey t.mapping ≠ rule.forwardKey m)
    (hend : ∀ i t, s.transactions.get? i = some t → t.newMapping = true →
      t.mapping.clientKey ≠ m.clientKey)
    (htotal : load (fun _ => true) s < 1024) (hpid : load (fun m' => m'.pid = m.pid) s < 256)
    (hroom : s.transactions.size < 128) (packet : PacketTuple) :
    InvFor rule live (ProcessRedirectEngine.newTransaction m packet true s) := by
  have hf := h.forward_none hc
  have hnone := h.newToken
  have hload : ∀ p, load p (ProcessRedirectEngine.newTransaction m packet true s) =
      load p s+(if p m then 1 else 0) := by
    intro p
    have hcount := Dict.countP_set_of_new s.transactions (s.token+1)
      ⟨s.token+1,m,packet,true,s.now⟩ (fun t => t.newMapping && p t.mapping) hnone
    simp only [load,ProcessRedirectEngine.newTransaction,hcount,Bool.true_and]
    simp [ticked]
    omega
  have hsize := Dict.size_set_of_new s.transactions (s.token+1) ⟨s.token+1,m,packet,true,s.now⟩ hnone
  obtain ⟨⟨a₁,a₂,a₃,a₄,a₅⟩,⟨b₁,b₂,b₃,b₄,b₅,b₆,b₇⟩,⟨c₁,c₂,c₃⟩⟩ := h
  refine ⟨⟨a₁,a₂,a₃,a₄,a₅⟩,⟨?_,?_,?_,?_,?_,?_,?_⟩,⟨?_,?_,?_⟩⟩
  · intro i t hi
    rcases get?_newTransaction hi with ⟨rfl,-⟩ | hi
    · exact le_rfl
    · exact (b₁ i t hi).trans (Nat.le_succ _)
  · intro i t hi
    rcases get?_newTransaction hi with ⟨-,rfl⟩ | hi
    · exact now_le_ticked s
    · exact (b₂ i t hi).trans (now_le_ticked s)
  · intro i t hi hnew
    rcases get?_newTransaction hi with ⟨-,rfl⟩ | hi
    · exact hc
    · exact b₃ i t hi hnew
  · intro i j t u hi hj hnew hij
    rcases get?_newTransaction hi with ⟨hi',rfl⟩ | hi
    · rcases get?_newTransaction hj with ⟨hj',-⟩ | hj
      · exact absurd (hi'.trans hj'.symm) hij
      · exact hkey j u hj
    · rcases get?_newTransaction hj with ⟨-,rfl⟩ | hj
      · exact (hkey i t hi).symm
      · exact b₄ i j t u hi hj hnew hij
  · intro i j t u hi hj hnew hnew' hij
    rcases get?_newTransaction hi with ⟨hi',rfl⟩ | hi
    · rcases get?_newTransaction hj with ⟨hj',-⟩ | hj
      · exact absurd (hi'.trans hj'.symm) hij
      · exact hend j u hj hnew'
    · rcases get?_newTransaction hj with ⟨-,rfl⟩ | hj
      · exact (hend i t hi hnew).symm
      · exact b₅ i j t u hi hj hnew hnew' hij
  · intro i t m' hi hm'
    rcases get?_newTransaction hi with ⟨-,rfl⟩ | hi
    · exact absurd (hm'.symm.trans hf) (by simp)
    · exact b₆ i t m' hi hm'
  · intro i t hi hold hlive
    rcases get?_newTransaction hi with ⟨-,rfl⟩ | hi
    · cases hold
    · exact b₇ i t hi hold hlive
  · rw [hload]
    simpa using htotal
  · intro pid
    rw [hload]
    by_cases hp : m.pid = pid
    · subst hp
      simpa using hpid
    · simpa [hp] using c₂ pid
  · exact hsize.trans_le hroom

end ProcessRedirectRule
end FakeNetNG
