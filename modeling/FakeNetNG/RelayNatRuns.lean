import FakeNetNG.RelayNatInvariant
import FakeNetNG.PolicyOperations

/-!
# The relay NAT invariant over whole runs

Each locked section keeps `RelayNat.Inv`, so every sequence and every interleaving of
the operations does.
-/

namespace FakeNetNG
namespace EgressPolicy

variable {s : EgressPolicy}

theorem updateLocalIpv4Locked_nat_inv (addresses : List Addr) (h : s.nat.Inv) :
    (updateLocalIpv4Locked addresses s).2.nat.Inv := by
  rcases updateLocalIpv4Locked_cases addresses s with hu | ⟨-,hu⟩
  · rw [hu]
    exact RelayNat.inv_clear _
  · rw [hu.nat]
    exact (h.drop _ _).1

theorem relayFlowLocked_nat_inv (proto : Proto) (dstIp : Addr) (dport : ℕ) (domain : String)
    (generation : ℕ) (h : s.nat.Inv) :
    (relayFlowLocked proto dstIp dport domain generation s).2.nat.Inv := by
  have hc := (h.cleanup s.now).1
  unfold relayFlowLocked
  split
  · exact h
  · dsimp only
    split
    · exact hc
    · split_ifs <;> exact hc

theorem fileControlFlowLocked_nat (kind : ControlKind) (key : FlowKey) (domain : String)
    (relay : Option RelayNatMapping) (generation : ℕ) (token : String) (expires : ℚ) :
    (fileControlFlowLocked kind key domain relay generation token expires s).2.nat = s.nat := by
  unfold fileControlFlowLocked
  split
  · rfl
  · split_ifs <;> rfl

theorem matchControlFlowLocked_nat_inv (key : FlowKey) (now : ℚ) (h : s.nat.Inv) :
    (matchControlFlowLocked key now s).2.nat.Inv := by
  have hc := (h.cleanup now).1
  unfold matchControlFlowLocked
  split_ifs
  · exact h
  · dsimp only
    split
    · exact hc
    · split_ifs <;> exact hc

theorem createRelayMappingLocked_nat_inv (lease : Lease) (sampleIp : Addr) (samplePort : ℕ)
    (serverIp : Addr) (serverPort : ℕ) (relayIp : Addr) (relayPort : ℕ) (now : ℚ) (h : s.nat.Inv) :
    (createRelayMappingLocked lease sampleIp samplePort serverIp serverPort relayIp relayPort
      now s).2.nat.Inv := by
  obtain ⟨hc,-,-,-,hf,-⟩ := h.cleanup now
  have hlive : ∀ k x, (s.nat.cleanup now).forward.get? k = some x →
      now < ((s.nat.cleanup now).cell x).expiresAt := by
    intro k x hx
    have hcells := (h.cleanup now).2.1
    rw [RelayNat.cell,hcells]
    exact ((hf k x).mp hx).2
  unfold createRelayMappingLocked
  split
  · exact h
  · dsimp only
    split
    · exact hc
    · split_ifs with hexp hdup htomb hpend hsrc hrev
      · exact hc
      · exact hc
      · exact hc
      · exact hc
      · exact hc
      · exact hc.spend
      · simp only [Bool.or_eq_true,not_or,Bool.not_eq_true,Dict.contains_eq_false_iff] at hdup hrev
        simp only [not_or,not_lt] at htomb
        refine hc.insert rfl hdup.1 hrev hdup.2 hlive (fun e he => ?_) (not_le.mp hpend)
          (not_le.mp hsrc)
        have ht := htomb.2
        change (s.nat.cleanup now).clientTombstones.get? (sampleIp,samplePort) = some e at he
        rw [cleanupLocked_nat,he] at ht
        exact ht

/-- A matched entry that is refreshed is active, so it is no teardown remnant. -/
theorem matchNatLocked_nat_inv {table : RelayNat → Dict FlowKey RelayNatMapping}
    (htable : ∀ n : RelayNat, n.Inv → ∀ k m, (table n).get? k = some m →
      n.forward.get? m.forwardKey = some m) (key : FlowKey) (now : ℚ) (h : s.nat.Inv) :
    (matchNatLocked table key now s).2.nat.Inv := by
  have hc := (h.cleanup now).1
  unfold matchNatLocked
  split_ifs
  · exact h
  · dsimp only
    split
    · exact hc
    · rename_i m hm
      split_ifs with hlt hact
      · have hfw := htable _ hc _ _ hm
        have hgen : (s.nat.cleanup now).generation.get? m.generation = some m := by
          by_contra hng
          have hidle := (hc.retained m hfw hng).1
          rw [cleanupLocked_nat,hidle] at hact
          cases hact
        exact hc.setCell hgen rfl
      · exact hc
      · exact hc

theorem consumeRelayTargetLocked_nat_inv (key : Addr × ℕ) (now : ℚ) (h : s.nat.Inv) :
    (consumeRelayTargetLocked key now s).2.nat.Inv := by
  have hc := (h.cleanup now).1
  unfold consumeRelayTargetLocked
  dsimp only
  split
  · exact hc
  · rename_i m hm
    split_ifs
    · exact hc
    · exact hc.setCell (hc.client_filed _ _ hm).2 rfl

theorem activateRelayMappingLocked_nat_inv (generation : ℕ) (h : s.nat.Inv) :
    (activateRelayMappingLocked generation s).2.nat.Inv := by
  unfold activateRelayMappingLocked
  split
  · exact h
  · rename_i m hm
    split_ifs with hcons hact hfull
    · exact h
    · exact h
    · exact h
    · obtain ⟨hact',hsrc⟩ := not_or.mp hfull
      exact h.activate (h.filed hm).1 (by simpa using hact) (not_le.mp hact') (not_le.mp hsrc) _

theorem closeRelayMappingLocked_nat_inv (generation : ℕ) (grace : Option ℚ)
    (hg : PolicySection.graceOk (.closeRelayMapping generation grace)) (h : s.nat.Inv) :
    (closeRelayMappingLocked generation grace s).nat.Inv := by
  have hle : grace.getD relayTeardownGraceSeconds ≤ relayTombstoneSeconds := by
    cases grace with
    | none => norm_num [relayTeardownGraceSeconds,relayTombstoneSeconds]
    | some grace => exact hg
  unfold closeRelayMappingLocked
  split
  · exact h
  · rename_i m hm
    dsimp only
    split_ifs
    · exact h.retain (h.filed hm).1 _ hle
    · exact h.remove (h.filed hm).1 _

end EgressPolicy

open EgressPolicy in
/-- One section, from any state that satisfies the invariant. -/
theorem PolicySection.nat_inv (sec : PolicySection) (s : EgressPolicy) (hg : sec.graceOk)
    (h : s.nat.Inv) : (sec.apply s).nat.Inv := by
  cases sec with
  | tick => exact h
  | updateLocalIpv4 addresses => exact updateLocalIpv4Locked_nat_inv addresses h
  | activateRoutes prepared =>
    simp only [apply,activateRoutesLocked]
    split
    · exact h
    · split_ifs <;> exact h
  | suspendTakeover reason =>
    simp only [apply,EgressPolicy.suspendTakeover]
    split_ifs <;> exact h
  | suspend => exact RelayNat.inv_clear _
  | resolveDnsRule qname now =>
    simp only [apply,resolveDnsRuleLocked]
    split_ifs <;> exact (h.cleanup now).1
  | registerAlias domain aliasName ttl =>
    simp only [apply,registerAliasLocked]
    split <;> exact h
  | replaceLeases domain replacement =>
    simp only [apply,replaceLeasesLocked]
    split <;> exact h
  | leaseFor ip now =>
    simp only [apply,leaseForLocked]
    split_ifs
    · exact h
    · exact (h.cleanup now).1
  | relayFlow proto dstIp dport domain generation => exact relayFlowLocked_nat_inv _ _ _ _ _ h
  | fileControlFlow kind key domain relay generation token expires =>
    rw [apply,fileControlFlowLocked_nat]
    exact h
  | matchControlFlow key now => exact matchControlFlowLocked_nat_inv key now h
  | revokeControlFlow token =>
    simp only [apply,revokeControlFlowLocked]
    split <;> exact h
  | createRelayMapping lease sampleIp samplePort serverIp serverPort relayIp relayPort now =>
    exact createRelayMappingLocked_nat_inv _ _ _ _ _ _ _ _ h
  | matchForward key now =>
    refine matchNatLocked_nat_inv (fun n hn k m hm => ?_) key now h
    have hk := (hn.forward_filed k m hm).1
    rwa [← hk]
  | matchReverse key now =>
    exact matchNatLocked_nat_inv (fun n hn k m hm => (hn.reverse_filed k m hm).2) key now h
  | consumeRelayTarget key now => exact consumeRelayTargetLocked_nat_inv key now h
  | activateRelayMapping generation => exact activateRelayMappingLocked_nat_inv generation h
  | closeRelayMapping generation grace => exact closeRelayMappingLocked_nat_inv generation grace hg h
  | drainExpiredLeases => exact (h.cleanup s.now).1
  | close =>
    obtain ⟨h₁,h₂,h₃,h₄,h₅,h₆,h₇,h₈,hk,hg',hc,hf,hr,ho,hog,hfr,-⟩ := RelayNat.inv_clear s.nat
    exact ⟨h₁,h₂,h₃,h₄,h₅,h₆,h₇,h₈,hk,hg',hc,hf,hr,ho,hog,hfr,fun m hm => by cases hm⟩

theorem PolicyCall.body_nat_inv (c : PolicyCall) (hc : c.graceOk) :
    c.body.Ensures (fun s => s.nat.Inv) fun _ => True :=
  (c.body_keeps fun sec hu s hs => sec.nat_inv s (PolicyCall.graceOk_of_uses hc hu) hs).ensures

theorem EgressPolicy.init_nat_inv (cfg : PolicyConfig) (localIpv4 : List Addr) (clock : Clock) :
    (init cfg localIpv4 clock).nat.Inv := RelayNat.inv_empty

/-- The invariant in every interleaving of the operations. -/
theorem nat_inv_of_steps {cfg : PolicyConfig} {localIpv4 : List Addr} {clock : Clock}
    {P : Pool EgressPolicy PolicyCall EgressPolicy.Reply}
    (h : Pool.Steps PolicyCall.body (fun _ c => c.graceOk)
      (Pool.start (EgressPolicy.init cfg localIpv4 clock)) P) : P.shared.nat.Inv :=
  (Pool.ensures_steps (fun _ c hc => c.body_nat_inv hc) h (EgressPolicy.init_nat_inv ..)
    fun t c p ht => by cases ht).1

theorem nat_inv_of_runAll {s : EgressPolicy} {calls : List PolicyCall} (h : s.nat.Inv)
    (hc : ∀ c ∈ calls, c.graceOk) : (Prog.runAll PolicyCall.body s calls).nat.Inv := by
  induction calls generalizing s with
  | nil => exact h
  | cons c calls ih =>
    have hstep := (c.body_nat_inv (hc c List.mem_cons_self)).run h
    exact ih hstep.1 fun d hd => hc d (List.mem_cons_of_mem _ hd)

namespace RelayNat

/-- What the tables promise to their readers. -/
structure Consistent (n : RelayNat) : Prop where
  pending : n.pending = (n.generation.values.filter fun m => !(n.cell m).active).length
  pendingBySource : ∀ ip, n.pendingBySource ip =
    (n.generation.values.filter fun m => !(n.cell m).active && m.sampleIp = ip).length
  active : n.active = (n.generation.values.filter fun m => (n.cell m).active).length
  activeBySource : ∀ ip, n.activeBySource ip =
    (n.generation.values.filter fun m => (n.cell m).active && m.sampleIp = ip).length
  pending_quota : 0 ≤ n.pending ∧ n.pending ≤ 256
  pendingBySource_quota : ∀ ip, 0 ≤ n.pendingBySource ip ∧ n.pendingBySource ip ≤ 32
  active_quota : 0 ≤ n.active ∧ n.active ≤ 128
  activeBySource_quota : ∀ ip, 0 ≤ n.activeBySource ip ∧ n.activeBySource ip ≤ 16
  client_iff_generation : ∀ m, m ∈ n.client.values ↔ m ∈ n.generation.values
  filed : ∀ m ∈ n.generation.values,
    n.generation.get? m.generation = some m ∧ n.client.get? m.clientKey = some m ∧
      n.forward.get? m.forwardKey = some m ∧ n.reverse.get? m.reverseKey = some m
  forward_iff_reverse : ∀ m, m ∈ n.forward.values ↔ m ∈ n.reverse.values
  one_client : ∀ m ∈ n.forward.values, ∀ m' ∈ n.forward.values, m.clientKey = m'.clientKey → m = m'

theorem Inv.consistent {n : RelayNat} (h : n.Inv) : n.Consistent := by
  have hnonneg (p : RelayNatMapping → Bool) : (0 : ℤ) ≤ n.generation.countP p := Int.natCast_nonneg _
  have hfw : ∀ m ∈ n.forward.values, n.forward.get? m.forwardKey = some m := by
    intro m hm
    obtain ⟨k,hk⟩ := (Dict.mem_values_iff _ _).mp hm
    have hkey := (h.forward_filed k m hk).1
    rwa [← hkey]
  have hgen : ∀ m ∈ n.generation.values, n.generation.get? m.generation = some m := by
    intro m hm
    obtain ⟨g,hg⟩ := (Dict.mem_values_iff _ _).mp hm
    exact (h.filed hg).1
  refine ⟨?_,fun ip => ?_,?_,fun ip => ?_,⟨?_,h.pending_le⟩,
    fun ip => ⟨?_,h.pendingBySource_le ip⟩,⟨?_,h.active_le⟩,fun ip => ⟨?_,h.activeBySource_le ip⟩,
    fun m => ?_,fun m hm => h.filed (hgen m hm),fun m => ?_,fun m hm m' hm' => ?_⟩
  · rw [h.pending,Dict.countP_eq_length]; rfl
  · rw [h.pendingBySource ip,Dict.countP_eq_length]; rfl
  · rw [h.active,Dict.countP_eq_length]; rfl
  · rw [h.activeBySource ip,Dict.countP_eq_length]; rfl
  · rw [h.pending]; exact hnonneg _
  · rw [h.pendingBySource ip]; exact hnonneg _
  · rw [h.active]; exact hnonneg _
  · rw [h.activeBySource ip]; exact hnonneg _
  · rw [Dict.mem_values_iff,Dict.mem_values_iff]
    constructor
    · exact fun ⟨k,hk⟩ => ⟨m.generation,(h.client_filed k m hk).2⟩
    · exact fun ⟨g,hg⟩ => ⟨m.clientKey,(h.filed hg).2.1⟩
  · rw [Dict.mem_values_iff,Dict.mem_values_iff]
    constructor
    · exact fun ⟨k,hk⟩ => ⟨m.reverseKey,(h.forward_filed k m hk).2⟩
    · exact fun ⟨k,hk⟩ => ⟨m.forwardKey,(h.reverse_filed k m hk).2⟩
  · exact h.one_client m m' (hfw m hm) (hfw m' hm')

end RelayNat

/-- The relay NAT tables are consistent after every sequence of policy operations that
closes no mapping with a grace above the tombstone period, whatever the clock reads. -/
theorem relay_nat_consistent (cfg : PolicyConfig) (localIpv4 : List Addr) (clock : Clock)
    (calls : List PolicyCall) (hgrace : ∀ c ∈ calls, c.graceOk) :
    (Prog.runAll PolicyCall.body (EgressPolicy.init cfg localIpv4 clock) calls).nat.Consistent :=
  (nat_inv_of_runAll (EgressPolicy.init_nat_inv ..) hgrace).consistent

theorem relay_nat_consistent_relayedConnection :
    (∀ c ∈ PolicyCall.relayedConnection, c.graceOk) ∧
    (Prog.runAll PolicyCall.body (EgressPolicy.init .twoDomains [.dotted 10 0 0 5] (.every 1))
      PolicyCall.relayedConnection).nat.Consistent := by
  have hgrace : ∀ c ∈ PolicyCall.relayedConnection, c.graceOk := by
    simp [PolicyCall.relayedConnection,PolicyCall.graceOk,relayTombstoneSeconds]
    norm_num
  exact ⟨hgrace,relay_nat_consistent _ _ _ _ hgrace⟩

end FakeNetNG
