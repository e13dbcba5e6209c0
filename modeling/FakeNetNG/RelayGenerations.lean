import FakeNetNG.RelayNatRuns

/-!
# Generation numbers

A generation number names one mapping for ever. `Extends` says that a step only loses
entries or files mappings with new numbers, and `Numbered` that no two entries of any
table share a number. Neither depends on a bound on the teardown grace.
-/

namespace FakeNetNG
namespace RelayNat

variable {n n' n'' : RelayNat} {m : RelayNatMapping}

/-- Entries are only lost. -/
structure Shrinks (n n' : RelayNat) : Prop where
  forward : ∀ k x, n'.forward.get? k = some x → n.forward.get? k = some x
  reverse : ∀ k x, n'.reverse.get? k = some x → n.reverse.get? k = some x
  client : ∀ k x, n'.client.get? k = some x → n.client.get? k = some x
  generation : ∀ k x, n'.generation.get? k = some x → n.generation.get? k = some x
  cells : n'.cells = n.cells
  lastGeneration : n'.lastGeneration = n.lastGeneration

theorem Shrinks.refl (n : RelayNat) : Shrinks n n :=
  ⟨fun _ _ h => h,fun _ _ h => h,fun _ _ h => h,fun _ _ h => h,rfl,rfl⟩

theorem Shrinks.trans (h : Shrinks n n') (h' : Shrinks n' n'') : Shrinks n n'' :=
  ⟨fun k x hx => h.forward k x (h'.forward k x hx),fun k x hx => h.reverse k x (h'.reverse k x hx),
    fun k x hx => h.client k x (h'.client k x hx),
    fun k x hx => h.generation k x (h'.generation k x hx),h'.cells.trans h.cells,
    h'.lastGeneration.trans h.lastGeneration⟩

theorem Shrinks.cell (h : Shrinks n n') (m : RelayNatMapping) : n'.cell m = n.cell m := by
  rw [RelayNat.cell,h.cells,RelayNat.cell]

theorem remove_shrinks (n : RelayNat) (m : RelayNatMapping) (now : ℚ) :
    Shrinks n (n.remove m now) := by
  refine ⟨fun k x hx => ?_,fun k x hx => ?_,fun k x hx => ?_,fun k x hx => ?_,?_,?_⟩
  · simp only [remove,addTombstones,Dict.get?_popIf_eq_some,releaseQuota_forward] at hx
    exact hx.1
  · simp only [remove,addTombstones,Dict.get?_popIf_eq_some,releaseQuota_reverse] at hx
    exact hx.1
  · simp only [remove,addTombstones,Dict.get?_popIf_eq_some,releaseQuota_client] at hx
    exact hx.1
  · simp only [remove,addTombstones,Dict.get?_pop_eq_some,releaseQuota_generation] at hx
    exact hx.2
  · simp [remove,addTombstones]
  · simp [remove,addTombstones]

theorem foldl_remove_shrinks (l : List RelayNatMapping) (n : RelayNat) (now : ℚ) :
    Shrinks n (l.foldl (fun n m => n.remove m now) n) := by
  induction l generalizing n with
  | nil => exact .refl n
  | cons m l ih => exact (remove_shrinks n m now).trans (ih _)

theorem drop_shrinks (n : RelayNat) (now : ℚ) (p : RelayNatMapping → Bool) :
    Shrinks n (n.drop now p) := foldl_remove_shrinks _ n now

theorem cleanup_shrinks (n : RelayNat) (now : ℚ) : Shrinks n (n.cleanup now) := by
  have hd := drop_shrinks n now fun m => (n.cell m).expiresAt ≤ now
  refine hd.trans ⟨fun k x hx => ?_,fun k x hx => ?_,fun _ _ hx => hx,fun _ _ hx => hx,rfl,rfl⟩
  · exact ((Dict.get?_filter_eq_some _ _ _ _).mp hx).1
  · exact ((Dict.get?_filter_eq_some _ _ _ _).mp hx).1

theorem clear_shrinks (n : RelayNat) : Shrinks n n.clear :=
  ⟨fun _ _ h => (by cases h),fun _ _ h => (by cases h),fun _ _ h => (by cases h),
    fun _ _ h => (by cases h),rfl,rfl⟩

/-- Every entry is old, or new with a new number where new mappings are filed at all. -/
structure Extends (new : Prop) (n n' : RelayNat) : Prop where
  forward : ∀ k x, n'.forward.get? k = some x →
    n.forward.get? k = some x ∨ new ∧ n.lastGeneration < x.generation
  reverse : ∀ k x, n'.reverse.get? k = some x →
    n.reverse.get? k = some x ∨ new ∧ n.lastGeneration < x.generation
  client : ∀ k x, n'.client.get? k = some x →
    n.client.get? k = some x ∨ new ∧ n.lastGeneration < x.generation
  generation : ∀ k x, n'.generation.get? k = some x →
    n.generation.get? k = some x ∨ new ∧ n.lastGeneration < x.generation
  lastGeneration : n.lastGeneration ≤ n'.lastGeneration

variable {new : Prop}

theorem Shrinks.extends (h : Shrinks n n') : Extends new n n' :=
  ⟨fun k x hx => .inl (h.forward k x hx),fun k x hx => .inl (h.reverse k x hx),
    fun k x hx => .inl (h.client k x hx),fun k x hx => .inl (h.generation k x hx),
    h.lastGeneration.ge⟩

theorem Extends.refl (n : RelayNat) : Extends new n n := (Shrinks.refl n).extends

theorem Extends.trans (h : Extends new n n') (h' : Extends new n' n'') : Extends new n n'' := by
  have hlt : ∀ {g : ℕ}, new ∧ n'.lastGeneration < g → new ∧ n.lastGeneration < g :=
    fun hl => ⟨hl.1,h.lastGeneration.trans_lt hl.2⟩
  refine ⟨fun k x hx => ?_,fun k x hx => ?_,fun k x hx => ?_,fun k x hx => ?_,
    h.lastGeneration.trans h'.lastGeneration⟩
  · exact (h'.forward k x hx).elim (h.forward k x) fun hl => .inr (hlt hl)
  · exact (h'.reverse k x hx).elim (h.reverse k x) fun hl => .inr (hlt hl)
  · exact (h'.client k x hx).elim (h.client k x) fun hl => .inr (hlt hl)
  · exact (h'.generation k x hx).elim (h.generation k x) fun hl => .inr (hlt hl)

/-- `m` stands in some table. -/
def Has (n : RelayNat) (m : RelayNatMapping) : Prop :=
  m ∈ n.forward.values ∨ m ∈ n.reverse.values ∨ m ∈ n.client.values ∨ m ∈ n.generation.values

theorem Extends.has (h : Extends new n n') (hm : n'.Has m) :
    n.Has m ∨ n.lastGeneration < m.generation := by
  simp only [Has,Dict.mem_values_iff] at hm ⊢
  rcases hm with ⟨k,hk⟩ | ⟨k,hk⟩ | ⟨k,hk⟩ | ⟨k,hk⟩
  · exact (h.forward k m hk).imp (fun hx => .inl ⟨k,hx⟩) And.right
  · exact (h.reverse k m hk).imp (fun hx => .inr (.inl ⟨k,hx⟩)) And.right
  · exact (h.client k m hk).imp (fun hx => .inr (.inr (.inl ⟨k,hx⟩))) And.right
  · exact (h.generation k m hk).imp (fun hx => .inr (.inr (.inr ⟨k,hx⟩))) And.right

theorem Shrinks.has (h : Shrinks n n') (hm : n'.Has m) : n.Has m := by
  simp only [Has,Dict.mem_values_iff] at hm ⊢
  rcases hm with ⟨k,hk⟩ | ⟨k,hk⟩ | ⟨k,hk⟩ | ⟨k,hk⟩
  · exact .inl ⟨k,h.forward k m hk⟩
  · exact .inr (.inl ⟨k,h.reverse k m hk⟩)
  · exact .inr (.inr (.inl ⟨k,h.client k m hk⟩))
  · exact .inr (.inr (.inr ⟨k,h.generation k m hk⟩))

/-- Numbers are spent, and shared by no two entries. -/
structure Numbered (n : RelayNat) : Prop where
  key : ∀ g x, n.generation.get? g = some x → x.generation = g
  clientKey : ∀ k x, n.client.get? k = some x → k = x.clientKey
  forwardKey : ∀ k x, n.forward.get? k = some x → k = x.forwardKey
  reverseKey : ∀ k x, n.reverse.get? k = some x → k = x.reverseKey
  spent : ∀ x, n.Has x → x.generation ≤ n.lastGeneration
  unique : ∀ x y, n.Has x → n.Has y → x.generation = y.generation → x = y

theorem Numbered.shrinks (h : n.Numbered) (hs : Shrinks n n') : n'.Numbered :=
  ⟨fun g x hx => h.key g x (hs.generation g x hx),fun k x hx => h.clientKey k x (hs.client k x hx),
    fun k x hx => h.forwardKey k x (hs.forward k x hx),
    fun k x hx => h.reverseKey k x (hs.reverse k x hx),
    fun x hx => by rw [hs.lastGeneration]; exact h.spent x (hs.has hx),
    fun x y hx hy => h.unique x y (hs.has hx) (hs.has hy)⟩

theorem Numbered.empty : (empty : RelayNat).Numbered := by
  have hno : ∀ x, ¬(RelayNat.empty : RelayNat).Has x := by
    intro x hx
    simp [Has,RelayNat.empty,Dict.values,Dict.empty] at hx
  exact ⟨fun _ _ h => (by cases h),fun _ _ h => (by cases h),fun _ _ h => (by cases h),
    fun _ _ h => (by cases h),fun x hx => absurd hx (hno x),
    fun x _ hx => absurd hx (hno x)⟩

/-- Only the cells, counters and tombstones differ. -/
theorem Numbered.congr (h : n.Numbered) (hf : n'.forward = n.forward) (hr : n'.reverse = n.reverse)
    (hc : n'.client = n.client) (hg : n'.generation = n.generation)
    (hl : n.lastGeneration ≤ n'.lastGeneration) : n'.Numbered := by
  have hhas : ∀ x, n'.Has x ↔ n.Has x := by
    intro x
    simp only [Has,hf,hr,hc,hg]
  refine ⟨by rw [hg]; exact h.key,by rw [hc]; exact h.clientKey,by rw [hf]; exact h.forwardKey,
    by rw [hr]; exact h.reverseKey,fun x hx => ?_,fun x y hx hy => ?_⟩
  · exact (h.spent x ((hhas x).mp hx)).trans hl
  · exact h.unique x y ((hhas x).mp hx) ((hhas y).mp hy)

theorem Numbered.insert (h : n.Numbered) (hg : m.generation = n.lastGeneration+1) (now : ℚ) :
    ({ n with lastGeneration := n.lastGeneration+1 }.insert m now).Numbered := by
  have hhas : ∀ x, ({ n with lastGeneration := n.lastGeneration+1 }.insert m now).Has x →
      x = m ∨ n.Has x := by
    intro x hx
    simp only [Has,Dict.mem_values_iff,RelayNat.insert,Dict.get?_set_eq_some] at hx ⊢
    rcases hx with ⟨k,⟨-,h⟩ | ⟨-,h⟩⟩ | ⟨k,⟨-,h⟩ | ⟨-,h⟩⟩ | ⟨k,⟨-,h⟩ | ⟨-,h⟩⟩ | ⟨k,⟨-,h⟩ | ⟨-,h⟩⟩
    · exact .inl h
    · exact .inr (.inl ⟨k,h⟩)
    · exact .inl h
    · exact .inr (.inr (.inl ⟨k,h⟩))
    · exact .inl h
    · exact .inr (.inr (.inr (.inl ⟨k,h⟩)))
    · exact .inl h
    · exact .inr (.inr (.inr (.inr ⟨k,h⟩)))
  refine ⟨fun g x hx => ?_,fun k x hx => ?_,fun k x hx => ?_,fun k x hx => ?_,fun x hx => ?_,
    fun x y hx hy he => ?_⟩
  · rcases (Dict.get?_set_eq_some _ _ _ _ _).mp hx with ⟨rfl,rfl⟩ | ⟨-,hx⟩
    · rfl
    · exact h.key g x hx
  · rcases (Dict.get?_set_eq_some _ _ _ _ _).mp hx with ⟨rfl,rfl⟩ | ⟨-,hx⟩
    · rfl
    · exact h.clientKey k x hx
  · rcases (Dict.get?_set_eq_some _ _ _ _ _).mp hx with ⟨rfl,rfl⟩ | ⟨-,hx⟩
    · rfl
    · exact h.forwardKey k x hx
  · rcases (Dict.get?_set_eq_some _ _ _ _ _).mp hx with ⟨rfl,rfl⟩ | ⟨-,hx⟩
    · rfl
    · exact h.reverseKey k x hx
  · rcases hhas x hx with rfl | hx
    · exact hg.le
    · exact (h.spent x hx).trans (Nat.le_succ _)
  · rcases hhas x hx with rfl | hx' <;> rcases hhas y hy with rfl | hy'
    · rfl
    · have hle := h.spent y hy'
      omega
    · have hle := h.spent x hx'
      omega
    · exact h.unique x y hx' hy' he

theorem insert_extends (hnew : new) (hg : m.generation = n.lastGeneration+1) (now : ℚ) :
    Extends new n ({ n with lastGeneration := n.lastGeneration+1 }.insert m now) := by
  have hlt : new ∧ n.lastGeneration < m.generation := ⟨hnew,by omega⟩
  refine ⟨fun k x hx => ?_,fun k x hx => ?_,fun k x hx => ?_,fun k x hx => ?_,Nat.le_succ _⟩ <;>
    rcases (Dict.get?_set_eq_some _ _ _ _ _).mp hx with ⟨-,rfl⟩ | ⟨-,hx⟩
  · exact .inr hlt
  · exact .inl hx
  · exact .inr hlt
  · exact .inl hx
  · exact .inr hlt
  · exact .inl hx
  · exact .inr hlt
  · exact .inl hx

theorem foldl_remove_generation {l : List RelayNatMapping} (hm : m ∈ l) (n : RelayNat) (now : ℚ) :
    (l.foldl (fun n m => n.remove m now) n).generation.get? m.generation = none := by
  induction l generalizing n with
  | nil => cases hm
  | cons a l ih =>
    rcases List.mem_cons.mp hm with rfl | hm
    · cases hg : (List.foldl (fun n m => n.remove m now) n (m::l)).generation.get? m.generation with
      | none => rfl
      | some x =>
        have hx := (foldl_remove_shrinks l (n.remove m now) now).generation _ x hg
        simp [remove,addTombstones] at hx
    · exact ih hm _

/-- A removed mapping is also out of the rewrite tables. -/
theorem foldl_remove_rewrites {l : List RelayNatMapping} (hm : m ∈ l) (n : RelayNat) (now : ℚ) :
    (l.foldl (fun n m => n.remove m now) n).forward.get? m.forwardKey ≠ some m ∧
      (l.foldl (fun n m => n.remove m now) n).reverse.get? m.reverseKey ≠ some m := by
  induction l generalizing n with
  | nil => cases hm
  | cons a l ih =>
    rcases List.mem_cons.mp hm with rfl | hm
    · have hsh := foldl_remove_shrinks l (n.remove m now) now
      constructor
      · intro hx
        have hx' := hsh.forward _ m hx
        simp [remove,addTombstones,Dict.get?_popIf_eq_some] at hx'
      · intro hx
        have hx' := hsh.reverse _ m hx
        simp [remove,addTombstones,Dict.get?_popIf_eq_some] at hx'
    · exact ih hm _

/-- What a cleanup leaves in the generation table is not expired. -/
theorem Numbered.cleanup_live (h : n.Numbered) {now : ℚ} {g : ℕ}
    (hm : (n.cleanup now).generation.get? g = some m) : now < (n.cell m).expiresAt := by
  have hg : n.generation.get? g = some m := (cleanup_shrinks n now).generation g m hm
  by_contra hle
  have hmem : m ∈ n.generation.values.filter fun m => (n.cell m).expiresAt ≤ now :=
    List.mem_filter.mpr ⟨(Dict.mem_values_iff _ _).mpr ⟨g,hg⟩,decide_eq_true (not_lt.mp hle)⟩
  have hnone := foldl_remove_generation hmem n now
  rw [h.key g m hg] at hnone
  exact absurd (hm.symm.trans hnone) (by simp)

/-- What every section does to the numbers. -/
structure Regular (new : Prop) (n n' : RelayNat) : Prop where
  ext : Extends new n n'
  numbered : n.Numbered → n'.Numbered

theorem Regular.refl (n : RelayNat) : Regular new n n := ⟨.refl n,id⟩

theorem Regular.trans (h : Regular new n n') (h' : Regular new n' n'') : Regular new n n'' :=
  ⟨h.ext.trans h'.ext,fun hn => h'.numbered (h.numbered hn)⟩

theorem Shrinks.regular (h : Shrinks n n') : Regular new n n' := ⟨h.extends,fun hn => hn.shrinks h⟩

theorem Regular.mono {new' : Prop} (h : Regular new n n') (hn : new → new') : Regular new' n n' := by
  refine ⟨⟨?_,?_,?_,?_,h.ext.lastGeneration⟩,h.numbered⟩
  · exact fun k x hx => (h.ext.forward k x hx).imp_right (And.imp_left hn)
  · exact fun k x hx => (h.ext.reverse k x hx).imp_right (And.imp_left hn)
  · exact fun k x hx => (h.ext.client k x hx).imp_right (And.imp_left hn)
  · exact fun k x hx => (h.ext.generation k x hx).imp_right (And.imp_left hn)

theorem regular_of_tables (hf : n'.forward = n.forward) (hr : n'.reverse = n.reverse)
    (hc : n'.client = n.client) (hg : n'.generation = n.generation)
    (hl : n.lastGeneration ≤ n'.lastGeneration) : Regular new n n' := by
  refine ⟨⟨?_,?_,?_,?_,hl⟩,fun hn => hn.congr hf hr hc hg hl⟩
  · rw [hf]; exact fun _ _ => .inl
  · rw [hr]; exact fun _ _ => .inl
  · rw [hc]; exact fun _ _ => .inl
  · rw [hg]; exact fun _ _ => .inl

theorem setCell_regular (n : RelayNat) (m : RelayNatMapping) (c : MappingCell) :
    Regular new n (n.setCell m c) := regular_of_tables rfl rfl rfl rfl le_rfl

theorem activate_regular (n : RelayNat) (m : RelayNatMapping) (now : ℚ) :
    Regular new n (n.activate m now) := by
  apply regular_of_tables <;> simp [activate,RelayNat.setCell]

theorem insert_regular (hnew : new) (hg : m.generation = n.lastGeneration+1) (now : ℚ) :
    Regular new n ({ n with lastGeneration := n.lastGeneration+1 }.insert m now) :=
  ⟨insert_extends hnew hg now,fun hn => hn.insert hg now⟩

/-- The teardown retention is a change of cells and counters, then a loss of two entries. -/
theorem retain_regular (n : RelayNat) (m : RelayNatMapping) (now grace : ℚ) :
    Regular new n (n.retain m now grace) := by
  let n₁ := (n.releaseQuota m).setCell m
    { (n.releaseQuota m).cell m with active := false, expiresAt := now+grace }
  have h₁ : Regular new n n₁ := by
    apply regular_of_tables <;> simp [n₁,RelayNat.setCell]
  have h₂ : Shrinks n₁ (n.retain m now grace) := by
    refine ⟨fun _ _ hx => hx,fun _ _ hx => hx,fun k x hx => ?_,fun k x hx => ?_,rfl,rfl⟩
    · exact ((Dict.get?_pop_eq_some _ _ _ _).mp hx).2
    · exact ((Dict.get?_pop_eq_some _ _ _ _).mp hx).2
  exact h₁.trans h₂.regular

end RelayNat

/-- The section that files a mapping. -/
def PolicySection.filesMapping : PolicySection → Bool
  | createRelayMapping .. => true
  | _ => false

def PolicyCall.filesMapping : PolicyCall → Bool
  | createRelayMapping .. => true
  | _ => false

open EgressPolicy RelayNat in
theorem EgressPolicy.matchNatLocked_regular {new : Prop} (table : RelayNat → Dict FlowKey RelayNatMapping)
    (key : FlowKey) (now : ℚ) (s : EgressPolicy) :
    Regular new s.nat (matchNatLocked table key now s).2.nat := by
  have hc : Regular new s.nat (s.nat.cleanup now) := (cleanup_shrinks s.nat now).regular
  unfold matchNatLocked
  split_ifs
  · exact .refl _
  · dsimp only
    split
    · exact hc
    · split_ifs
      · exact hc.trans (setCell_regular _ _ _)
      · exact hc
      · exact hc

open EgressPolicy RelayNat in
theorem PolicySection.regular (sec : PolicySection) (s : EgressPolicy) :
    Regular (sec.filesMapping = true) s.nat (sec.apply s).nat := by
  have hclean : ∀ {new : Prop} now, Regular new s.nat (s.nat.cleanup now) :=
    fun now => (cleanup_shrinks _ now).regular
  cases sec with
  | tick => exact .refl _
  | updateLocalIpv4 addresses =>
    rcases updateLocalIpv4Locked_cases addresses s with hu | ⟨-,hu⟩
    · rw [apply,hu]
      exact (clear_shrinks s.nat).regular
    · rw [apply,hu.nat]
      exact (drop_shrinks _ _ _).regular
  | activateRoutes prepared =>
    simp only [apply,activateRoutesLocked]
    split
    · exact .refl _
    · split_ifs <;> exact .refl _
  | suspendTakeover reason =>
    simp only [apply,EgressPolicy.suspendTakeover]
    split_ifs <;> exact .refl _
  | suspend => exact (clear_shrinks s.nat).regular
  | resolveDnsRule qname now =>
    simp only [apply,resolveDnsRuleLocked]
    split_ifs <;> exact hclean now
  | registerAlias domain aliasName ttl =>
    simp only [apply,registerAliasLocked]
    split <;> exact .refl _
  | replaceLeases domain replacement =>
    simp only [apply,replaceLeasesLocked]
    split <;> exact .refl _
  | leaseFor ip now =>
    simp only [apply,leaseForLocked]
    split_ifs
    · exact .refl _
    · exact hclean now
  | relayFlow proto dstIp dport domain generation =>
    simp only [apply,relayFlowLocked]
    split
    · exact .refl _
    · split
      · exact hclean s.now
      · split_ifs <;> exact hclean s.now
  | fileControlFlow kind key domain relay generation token expires =>
    rw [apply,fileControlFlowLocked_nat]
    exact .refl _
  | matchControlFlow key now =>
    simp only [apply,matchControlFlowLocked]
    split_ifs
    · exact .refl _
    · split
      · exact hclean now
      · split_ifs <;> exact hclean now
  | revokeControlFlow token =>
    simp only [apply,revokeControlFlowLocked]
    split <;> exact .refl _
  | createRelayMapping lease sampleIp samplePort serverIp serverPort relayIp relayPort now =>
    simp only [apply,createRelayMappingLocked]
    split
    · exact .refl _
    · split
      · exact hclean now
      · split_ifs
        · exact hclean now
        · exact hclean now
        · exact hclean now
        · exact hclean now
        · exact hclean now
        · exact (hclean now).trans (regular_of_tables rfl rfl rfl rfl (Nat.le_succ _))
        · exact (hclean now).trans (insert_regular rfl rfl now)
  | matchForward key now => exact matchNatLocked_regular _ key now s
  | matchReverse key now => exact matchNatLocked_regular _ key now s
  | consumeRelayTarget key now =>
    simp only [apply,consumeRelayTargetLocked]
    split
    · exact hclean now
    · split_ifs
      · exact hclean now
      · exact (hclean now).trans (setCell_regular _ _ _)
  | activateRelayMapping generation =>
    simp only [apply,activateRelayMappingLocked]
    split
    · exact .refl _
    · split_ifs
      · exact .refl _
      · exact .refl _
      · exact .refl _
      · exact activate_regular _ _ _
  | closeRelayMapping generation grace =>
    simp only [apply,closeRelayMappingLocked]
    split
    · exact .refl _
    · split_ifs
      · exact retain_regular _ _ _ _
      · exact (remove_shrinks _ _ _).regular
  | drainExpiredLeases => exact hclean s.now
  | close =>
    exact (clear_shrinks s.nat).regular.trans (regular_of_tables rfl rfl rfl rfl le_rfl)

/-- One operation, with the state it started from fixed. -/
theorem PolicyCall.regular (c : PolicyCall) (s : EgressPolicy) :
    RelayNat.Regular (c.filesMapping = true) s.nat (c.body.run s).2.nat := by
  have huse : ∀ sec, c.Uses sec → sec.filesMapping = true → c.filesMapping = true := by
    intro sec hu hf
    cases sec with
    | createRelayMapping lease sampleIp samplePort serverIp serverPort relayIp relayPort now =>
      cases c with
      | createRelayMapping => rfl
      | _ => simp [Uses] at hu
    | _ => cases hf
  have hkeep := c.body_keeps
    (I:=fun s' => RelayNat.Regular (c.filesMapping = true) s.nat s'.nat)
    fun sec hu s' hs => hs.trans ((sec.regular s').mono (huse sec hu))
  exact (hkeep.ensures.run (.refl s.nat)).1

theorem EgressPolicy.numbered_runAll {s : EgressPolicy} (h : s.nat.Numbered) (calls : List PolicyCall) :
    (Prog.runAll PolicyCall.body s calls).nat.Numbered := by
  induction calls generalizing s with
  | nil => exact h
  | cons c calls ih => exact ih ((c.regular s).numbered h)

end FakeNetNG
