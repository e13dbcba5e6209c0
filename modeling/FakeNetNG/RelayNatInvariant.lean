import FakeNetNG.RelayNat

/-!
# The relay NAT representation invariant

`RelayNat.Inv` says that the counters count, that the four dictionaries file the same
mappings under their own keys, and that a mapping kept only for its teardown grace is
covered by a client tombstone that outlives it. The last clause is what keeps a second
mapping of the same client out of the rewrite tables.
-/

namespace FakeNetNG
namespace RelayNat

variable {n : RelayNat} {m : RelayNatMapping} {now grace : ℚ}

def isPending (n : RelayNat) (m : RelayNatMapping) : Bool := !(n.cell m).active

def isActive (n : RelayNat) (m : RelayNatMapping) : Bool := (n.cell m).active

structure Inv (n : RelayNat) : Prop where
  pending : n.pending = n.generation.countP n.isPending
  pendingBySource : ∀ ip, n.pendingBySource ip =
    n.generation.countP fun m => n.isPending m && m.sampleIp = ip
  active : n.active = n.generation.countP n.isActive
  activeBySource : ∀ ip, n.activeBySource ip =
    n.generation.countP fun m => n.isActive m && m.sampleIp = ip
  pending_le : n.pending ≤ maxPending
  pendingBySource_le : ∀ ip, n.pendingBySource ip ≤ maxPendingPerSource
  active_le : n.active ≤ maxActive
  activeBySource_le : ∀ ip, n.activeBySource ip ≤ maxActivePerSource
  generation_key : ∀ g m, n.generation.get? g = some m → m.generation = g
  generation_filed : ∀ g m, n.generation.get? g = some m →
    n.client.get? m.clientKey = some m ∧ n.forward.get? m.forwardKey = some m
  client_filed : ∀ k m, n.client.get? k = some m →
    k = m.clientKey ∧ n.generation.get? m.generation = some m
  forward_filed : ∀ k m, n.forward.get? k = some m →
    k = m.forwardKey ∧ n.reverse.get? m.reverseKey = some m
  reverse_filed : ∀ k m, n.reverse.get? k = some m →
    k = m.reverseKey ∧ n.forward.get? m.forwardKey = some m
  one_client : ∀ m m', n.forward.get? m.forwardKey = some m →
    n.forward.get? m'.forwardKey = some m' → m.clientKey = m'.clientKey → m = m'
  one_generation : ∀ m m', n.forward.get? m.forwardKey = some m →
    n.forward.get? m'.forwardKey = some m' → m.generation = m'.generation → m = m'
  fresh : ∀ m, n.forward.get? m.forwardKey = some m → m.generation ≤ n.lastGeneration
  retained : ∀ m, n.forward.get? m.forwardKey = some m → n.generation.get? m.generation ≠ some m →
    (n.cell m).active = false ∧
      ∃ e, n.clientTombstones.get? m.clientKey = some e ∧ (n.cell m).expiresAt ≤ e

/-- A mapping of the generation table is filed under all four of its keys. -/
theorem Inv.filed (h : n.Inv) {g : ℕ} (hm : n.generation.get? g = some m) :
    n.generation.get? m.generation = some m ∧ n.client.get? m.clientKey = some m ∧
      n.forward.get? m.forwardKey = some m ∧ n.reverse.get? m.reverseKey = some m := by
  obtain ⟨hc,hf⟩ := h.generation_filed g m hm
  refine ⟨?_,hc,hf,(h.forward_filed _ _ hf).2⟩
  rw [h.generation_key g m hm]
  exact hm

theorem inv_clear (n : RelayNat) : n.clear.Inv := by
  constructor <;> simp [clear,maxPending,maxPendingPerSource,maxActive,maxActivePerSource]

theorem inv_empty : empty.Inv := by
  constructor <;> simp [empty,maxPending,maxPendingPerSource,maxActive,maxActivePerSource]

@[simp] theorem releasePending_forward : (n.releasePending m).forward = n.forward := by
  unfold releasePending; split <;> rfl
@[simp] theorem releasePending_reverse : (n.releasePending m).reverse = n.reverse := by
  unfold releasePending; split <;> rfl
@[simp] theorem releasePending_client : (n.releasePending m).client = n.client := by
  unfold releasePending; split <;> rfl
@[simp] theorem releasePending_generation : (n.releasePending m).generation = n.generation := by
  unfold releasePending; split <;> rfl
@[simp] theorem releasePending_cells : (n.releasePending m).cells = n.cells := by
  unfold releasePending; split <;> rfl
@[simp] theorem releasePending_lastGeneration :
    (n.releasePending m).lastGeneration = n.lastGeneration := by
  unfold releasePending; split <;> rfl
@[simp] theorem releasePending_tombstones : (n.releasePending m).tombstones = n.tombstones := by
  unfold releasePending; split <;> rfl
@[simp] theorem releasePending_clientTombstones :
    (n.releasePending m).clientTombstones = n.clientTombstones := by
  unfold releasePending; split <;> rfl
@[simp] theorem releasePending_active : (n.releasePending m).active = n.active := by
  unfold releasePending; split <;> rfl
@[simp] theorem releasePending_activeBySource :
    (n.releasePending m).activeBySource = n.activeBySource := by
  unfold releasePending; split <;> rfl

/-- The tables a quota release leaves alone. -/
theorem releaseQuota_tables :
    (n.releaseQuota m).forward = n.forward ∧ (n.releaseQuota m).reverse = n.reverse ∧
    (n.releaseQuota m).client = n.client ∧ (n.releaseQuota m).generation = n.generation ∧
    (n.releaseQuota m).cells = n.cells ∧ (n.releaseQuota m).lastGeneration = n.lastGeneration ∧
    (n.releaseQuota m).tombstones = n.tombstones ∧
    (n.releaseQuota m).clientTombstones = n.clientTombstones := by
  unfold releaseQuota
  split
  · split <;> exact ⟨rfl,rfl,rfl,rfl,rfl,rfl,rfl,rfl⟩
  · simp

@[simp] theorem releaseQuota_forward : (n.releaseQuota m).forward = n.forward :=
  releaseQuota_tables.1
@[simp] theorem releaseQuota_reverse : (n.releaseQuota m).reverse = n.reverse :=
  releaseQuota_tables.2.1
@[simp] theorem releaseQuota_client : (n.releaseQuota m).client = n.client :=
  releaseQuota_tables.2.2.1
@[simp] theorem releaseQuota_generation : (n.releaseQuota m).generation = n.generation :=
  releaseQuota_tables.2.2.2.1
@[simp] theorem releaseQuota_cells : (n.releaseQuota m).cells = n.cells :=
  releaseQuota_tables.2.2.2.2.1
@[simp] theorem releaseQuota_lastGeneration :
    (n.releaseQuota m).lastGeneration = n.lastGeneration := releaseQuota_tables.2.2.2.2.2.1
@[simp] theorem releaseQuota_tombstones : (n.releaseQuota m).tombstones = n.tombstones :=
  releaseQuota_tables.2.2.2.2.2.2.1
@[simp] theorem releaseQuota_clientTombstones :
    (n.releaseQuota m).clientTombstones = n.clientTombstones := releaseQuota_tables.2.2.2.2.2.2.2

/-- The counters as functions of the generation table, which is all that a release and a
removal of `m` have to keep in step. -/
structure Counts (n : RelayNat) (generation : Dict ℕ RelayNatMapping)
    (cell : RelayNatMapping → MappingCell) : Prop where
  pending : n.pending = generation.countP fun m => !(cell m).active
  pendingBySource : ∀ ip, n.pendingBySource ip =
    generation.countP fun m => !(cell m).active && m.sampleIp = ip
  active : n.active = generation.countP fun m => (cell m).active
  activeBySource : ∀ ip, n.activeBySource ip =
    generation.countP fun m => (cell m).active && m.sampleIp = ip

theorem Inv.counts (h : n.Inv) : n.Counts n.generation n.cell :=
  ⟨h.pending,h.pendingBySource,h.active,h.activeBySource⟩

theorem Counts.congr {generation : Dict ℕ RelayNatMapping} {cell cell' : RelayNatMapping → MappingCell}
    (h : n.Counts generation cell)
    (hc : ∀ g m, generation.get? g = some m → (cell' m).active = (cell m).active) :
    n.Counts generation cell' := by
  obtain ⟨h₁,h₂,h₃,h₄⟩ := h
  refine ⟨?_,fun ip => ?_,?_,fun ip => ?_⟩
  · rw [h₁]; congr 1
    exact generation.countP_congr _ _ fun g m hm => by rw [hc g m hm]
  · rw [h₂]; congr 1
    exact generation.countP_congr _ _ fun g m hm => by rw [hc g m hm]
  · rw [h₃]; congr 1
    exact generation.countP_congr _ _ fun g m hm => by rw [hc g m hm]
  · rw [h₄]; congr 1
    exact generation.countP_congr _ _ fun g m hm => by rw [hc g m hm]

/-- Removing a pending mapping from the table is matched by the pending release. -/
theorem Counts.releasePending {generation : Dict ℕ RelayNatMapping}
    {cell : RelayNatMapping → MappingCell} (h : n.Counts generation cell) {g : ℕ}
    (hm : generation.get? g = some m) (ha : (cell m).active = false) :
    (n.releasePending m).Counts (generation.pop g) cell := by
  obtain ⟨h₁,h₂,h₃,h₄⟩ := h
  have hp (p : RelayNatMapping → Bool) := generation.countP_pop g m p hm
  have hb := hp fun x => !(cell x).active && x.sampleIp = m.sampleIp
  simp only [ha,Bool.not_false,decide_true,Bool.and_true,if_true] at hb
  have hne : n.pendingBySource m.sampleIp ≠ 0 := by
    rw [h₂,← hb]
    positivity
  unfold RelayNat.releasePending
  rw [if_pos hne]
  refine ⟨?_,fun ip => ?_,?_,fun ip => ?_⟩
  · have hh := hp fun x => !(cell x).active
    simp only [ha,Bool.not_false,if_true] at hh
    simp only [h₁,← hh]
    push_cast
    ring
  · by_cases hip : ip = m.sampleIp
    · subst hip
      simp only [Function.update_self,h₂,← hb]
      push_cast
      ring
    · have hh := hp fun x => !(cell x).active && x.sampleIp = ip
      simp only [Ne.symm hip,decide_false,Bool.and_false,Bool.false_eq_true,if_false,add_zero] at hh
      simp only [Function.update_of_ne hip,h₂,hh]
  · have hh := hp fun x => (cell x).active
    simp only [ha,Bool.false_eq_true,if_false,add_zero] at hh
    simp only [h₃,hh]
  · have hh := hp fun x => (cell x).active && x.sampleIp = ip
    simp only [ha,Bool.false_and,Bool.false_eq_true,if_false,add_zero] at hh
    simp only [h₄,hh]

theorem Counts.releaseQuota {generation : Dict ℕ RelayNatMapping}
    (h : n.Counts generation n.cell) {g : ℕ} (hm : generation.get? g = some m) :
    (n.releaseQuota m).Counts (generation.pop g) n.cell := by
  unfold RelayNat.releaseQuota
  cases ha : (n.cell m).active with
  | false =>
    rw [if_neg (by simp)]
    exact h.releasePending hm ha
  | true =>
    obtain ⟨h₁,h₂,h₃,h₄⟩ := h
    have hp (p : RelayNatMapping → Bool) := generation.countP_pop g m p hm
    have hb := hp fun x => (n.cell x).active && x.sampleIp = m.sampleIp
    simp only [ha,decide_true,Bool.and_true,if_true] at hb
    have hne : n.activeBySource m.sampleIp ≠ 0 := by
      rw [h₄,← hb]
      positivity
    rw [if_pos rfl,if_pos hne]
    refine ⟨?_,fun ip => ?_,?_,fun ip => ?_⟩
    · have hh := hp fun x => !(n.cell x).active
      simp only [ha,Bool.not_true,Bool.false_eq_true,if_false,add_zero] at hh
      simp only [h₁,hh]
    · have hh := hp fun x => !(n.cell x).active && x.sampleIp = ip
      simp only [ha,Bool.not_true,Bool.false_and,Bool.false_eq_true,if_false,add_zero] at hh
      simp only [h₂,hh]
    · have hh := hp fun x => (n.cell x).active
      simp only [ha,if_true] at hh
      simp only [h₃,← hh]
      push_cast
      ring
    · by_cases hip : ip = m.sampleIp
      · subst hip
        simp only [Function.update_self,h₄,← hb]
        push_cast
        ring
      · have hh := hp fun x => (n.cell x).active && x.sampleIp = ip
        simp only [Ne.symm hip,decide_false,Bool.and_false,Bool.false_eq_true,if_false,add_zero] at hh
        simp only [Function.update_of_ne hip,h₄,hh]

/-- A quota release never raises a counter. -/
theorem releasePending_le (ip : Addr) :
    (n.releasePending m).pending ≤ n.pending ∧
      (n.releasePending m).pendingBySource ip ≤ n.pendingBySource ip := by
  unfold releasePending
  split
  · refine ⟨by simp,?_⟩
    by_cases hip : ip = m.sampleIp
    · subst hip; simp
    · simp [Function.update_of_ne hip]
  · exact ⟨le_rfl,le_rfl⟩

theorem releaseQuota_le (ip : Addr) :
    (n.releaseQuota m).pending ≤ n.pending ∧
      (n.releaseQuota m).pendingBySource ip ≤ n.pendingBySource ip ∧
      (n.releaseQuota m).active ≤ n.active ∧
      (n.releaseQuota m).activeBySource ip ≤ n.activeBySource ip := by
  unfold releaseQuota
  split
  · split
    · refine ⟨le_rfl,le_rfl,by simp,?_⟩
      by_cases hip : ip = m.sampleIp
      · subst hip; simp
      · simp [Function.update_of_ne hip]
    · exact ⟨le_rfl,le_rfl,le_rfl,le_rfl⟩
  · have hp := releasePending_le (n:=n) (m:=m) ip
    simp [hp.1,hp.2]

theorem remove_forward (k : FlowKey) (x : RelayNatMapping) :
    (n.remove m now).forward.get? k = some x ↔
      n.forward.get? k = some x ∧ ¬(k = m.forwardKey ∧ x = m) := by
  simp only [remove,addTombstones,releaseQuota_forward]
  exact Dict.get?_popIf_eq_some _ _ _ _ _

theorem remove_reverse (k : FlowKey) (x : RelayNatMapping) :
    (n.remove m now).reverse.get? k = some x ↔
      n.reverse.get? k = some x ∧ ¬(k = m.reverseKey ∧ x = m) := by
  simp only [remove,addTombstones,releaseQuota_reverse]
  exact Dict.get?_popIf_eq_some _ _ _ _ _

theorem remove_client (k : Addr × ℕ) (x : RelayNatMapping) :
    (n.remove m now).client.get? k = some x ↔
      n.client.get? k = some x ∧ ¬(k = m.clientKey ∧ x = m) := by
  simp only [remove,addTombstones,releaseQuota_client]
  exact Dict.get?_popIf_eq_some _ _ _ _ _

theorem remove_generation (g : ℕ) (x : RelayNatMapping) :
    (n.remove m now).generation.get? g = some x ↔
      g ≠ m.generation ∧ n.generation.get? g = some x := by
  simp only [remove,addTombstones,releaseQuota_generation]
  exact Dict.get?_pop_eq_some _ _ _ _

theorem remove_clientTombstones (k : Addr × ℕ) :
    (n.remove m now).clientTombstones.get? k =
      if k = m.clientKey then some (now+relayTombstoneSeconds) else n.clientTombstones.get? k := by
  simp only [remove,addTombstones,releaseQuota_clientTombstones]
  exact Dict.get?_set _ _ _ _

@[simp] theorem remove_cells : (n.remove m now).cells = n.cells := by
  simp [remove,addTombstones]

@[simp] theorem remove_cell (x : RelayNatMapping) : (n.remove m now).cell x = n.cell x := by
  simp [cell]

@[simp] theorem remove_lastGeneration : (n.remove m now).lastGeneration = n.lastGeneration := by
  simp [remove,addTombstones]

theorem remove_counts (h : n.Counts n.generation n.cell)
    (hm : n.generation.get? m.generation = some m) (now : ℚ) :
    (n.remove m now).Counts (n.remove m now).generation (n.remove m now).cell := by
  have hgen : (n.remove m now).generation = n.generation.pop m.generation := by
    simp [remove,addTombstones]
  have hcell : (n.remove m now).cell = n.cell := funext fun x => remove_cell x
  obtain ⟨h₁,h₂,h₃,h₄⟩ := h.releaseQuota hm
  rw [hgen,hcell]
  exact ⟨h₁,h₂,h₃,h₄⟩

theorem retain_counts (h : n.Counts n.generation n.cell)
    (hkey : ∀ g x, n.generation.get? g = some x → x.generation = g)
    (hm : n.generation.get? m.generation = some m) (now grace : ℚ) :
    (n.retain m now grace).Counts (n.retain m now grace).generation
      (n.retain m now grace).cell := by
  have hgen : (n.retain m now grace).generation = n.generation.pop m.generation := by
    simp [retain,addTombstones,setCell]
  have hcell : ∀ g x, (n.generation.pop m.generation).get? g = some x →
      ((n.retain m now grace).cell x).active = (n.cell x).active := by
    intro g x hx
    rw [Dict.get?_pop_eq_some] at hx
    have hne : x.generation ≠ m.generation := by rw [hkey g x hx.2]; exact hx.1
    simp [retain,addTombstones,setCell,cell,hne]
  obtain ⟨h₁,h₂,h₃,h₄⟩ := (h.releaseQuota hm).congr hcell
  rw [hgen]
  exact ⟨h₁,h₂,h₃,h₄⟩

theorem Inv.remove (h : n.Inv) (hm : n.generation.get? m.generation = some m) (now : ℚ) :
    (n.remove m now).Inv := by
  obtain ⟨-,hc,hf,hr⟩ := h.filed hm
  have hcnt := remove_counts h.counts hm now
  have hle := releaseQuota_le (n:=n) (m:=m)
  have hgm : ∀ x, n.generation.get? x.generation = some x → x.generation = m.generation → x = m :=
    fun x hx he => Option.some.inj (by rw [← hx,he,hm])
  refine ⟨hcnt.pending,hcnt.pendingBySource,hcnt.active,hcnt.activeBySource,
    (hle m.sampleIp).1.trans h.pending_le,fun ip => (hle ip).2.1.trans (h.pendingBySource_le ip),
    (hle m.sampleIp).2.2.1.trans h.active_le,
    fun ip => (hle ip).2.2.2.trans (h.activeBySource_le ip),?_,?_,?_,?_,?_,?_,?_,?_,?_⟩
  · intro g x hx
    rw [remove_generation] at hx
    exact h.generation_key g x hx.2
  · intro g x hx
    rw [remove_generation] at hx
    have hxm : x ≠ m := by
      rintro rfl
      exact hx.1 (h.generation_key g x hx.2).symm
    obtain ⟨hxc,hxf⟩ := h.generation_filed g x hx.2
    exact ⟨(remove_client _ _).mpr ⟨hxc,fun he => hxm he.2⟩,
      (remove_forward _ _).mpr ⟨hxf,fun he => hxm he.2⟩⟩
  · intro k x hx
    rw [remove_client] at hx
    obtain ⟨rfl,hg⟩ := h.client_filed k x hx.1
    refine ⟨rfl,(remove_generation _ _).mpr ⟨?_,hg⟩⟩
    intro he
    have hxm := hgm x hg he
    exact hx.2 ⟨by rw [hxm],hxm⟩
  · intro k x hx
    rw [remove_forward] at hx
    obtain ⟨rfl,hxr⟩ := h.forward_filed k x hx.1
    refine ⟨rfl,(remove_reverse _ _).mpr ⟨hxr,?_⟩⟩
    rintro ⟨-,rfl⟩
    exact hx.2 ⟨rfl,rfl⟩
  · intro k x hx
    rw [remove_reverse] at hx
    obtain ⟨rfl,hxf⟩ := h.reverse_filed k x hx.1
    refine ⟨rfl,(remove_forward _ _).mpr ⟨hxf,?_⟩⟩
    rintro ⟨-,rfl⟩
    exact hx.2 ⟨rfl,rfl⟩
  · intro x y hx hy he
    rw [remove_forward] at hx hy
    exact h.one_client x y hx.1 hy.1 he
  · intro x y hx hy he
    rw [remove_forward] at hx hy
    exact h.one_generation x y hx.1 hy.1 he
  · intro x hx
    rw [remove_forward] at hx
    simpa using h.fresh x hx.1
  · intro x hx hng
    rw [remove_forward] at hx
    have hxm : x ≠ m := fun he => hx.2 ⟨by rw [he],he⟩
    have hxg : n.generation.get? x.generation ≠ some x := by
      intro hg
      refine hng ((remove_generation _ _).mpr ⟨?_,hg⟩)
      exact fun he => hxm (hgm x hg he)
    obtain ⟨ha,e,he,hle⟩ := h.retained x hx.1 hxg
    have hck : x.clientKey ≠ m.clientKey := fun hk => hxm (h.one_client x m hx.1 hf hk)
    refine ⟨by simpa using ha,e,?_,by simpa using hle⟩
    rw [remove_clientTombstones,if_neg hck]
    exact he

@[simp] theorem retain_forward : (n.retain m now grace).forward = n.forward := by
  simp [retain,addTombstones,setCell]
@[simp] theorem retain_reverse : (n.retain m now grace).reverse = n.reverse := by
  simp [retain,addTombstones,setCell]
@[simp] theorem retain_lastGeneration :
    (n.retain m now grace).lastGeneration = n.lastGeneration := by
  simp [retain,addTombstones,setCell]

theorem retain_client (k : Addr × ℕ) (x : RelayNatMapping) :
    (n.retain m now grace).client.get? k = some x ↔
      k ≠ m.clientKey ∧ n.client.get? k = some x := by
  simp only [retain,addTombstones,setCell,releaseQuota_client]
  exact Dict.get?_pop_eq_some _ _ _ _

theorem retain_generation (g : ℕ) (x : RelayNatMapping) :
    (n.retain m now grace).generation.get? g = some x ↔
      g ≠ m.generation ∧ n.generation.get? g = some x := by
  simp only [retain,addTombstones,setCell,releaseQuota_generation]
  exact Dict.get?_pop_eq_some _ _ _ _

theorem retain_clientTombstones (k : Addr × ℕ) :
    (n.retain m now grace).clientTombstones.get? k =
      if k = m.clientKey then some (now+relayTombstoneSeconds) else n.clientTombstones.get? k := by
  simp only [retain,addTombstones,setCell,releaseQuota_clientTombstones]
  exact Dict.get?_set _ _ _ _

theorem retain_cell_self : (n.retain m now grace).cell m =
    { n.cell m with active := false, expiresAt := now+grace } := by
  simp [retain,addTombstones,setCell,cell]

theorem retain_cell_of_ne {x : RelayNatMapping} (h : x.generation ≠ m.generation) :
    (n.retain m now grace).cell x = n.cell x := by
  simp [retain,addTombstones,setCell,cell,h]

/-- The grace must not outlive the tombstone: this is the only place where it matters. -/
theorem Inv.retain (h : n.Inv) (hm : n.generation.get? m.generation = some m)
    (now : ℚ) (hg : grace ≤ relayTombstoneSeconds) : (n.retain m now grace).Inv := by
  obtain ⟨-,hc,hf,hr⟩ := h.filed hm
  have hgm : ∀ x, n.generation.get? x.generation = some x → x.generation = m.generation → x = m :=
    fun x hx he => Option.some.inj (by rw [← hx,he,hm])
  have hcnt := retain_counts h.counts h.generation_key hm now grace
  have hle := releaseQuota_le (n:=n) (m:=m)
  refine ⟨hcnt.pending,hcnt.pendingBySource,hcnt.active,hcnt.activeBySource,(hle m.sampleIp).1.trans h.pending_le,
    fun ip => (hle ip).2.1.trans (h.pendingBySource_le ip),
    (hle m.sampleIp).2.2.1.trans h.active_le,
    fun ip => (hle ip).2.2.2.trans (h.activeBySource_le ip),?_,?_,?_,?_,?_,?_,?_,?_,?_⟩
  · intro g x hx
    rw [retain_generation] at hx
    exact h.generation_key g x hx.2
  · intro g x hx
    rw [retain_generation] at hx
    obtain ⟨hxg,hxc,hxf,-⟩ := h.filed hx.2
    refine ⟨(retain_client _ _).mpr ⟨?_,hxc⟩,by simpa using hxf⟩
    intro hk
    have hxm := h.one_client x m hxf hf hk
    exact hx.1 (by rw [← h.generation_key g x hx.2,hxm])
  · intro k x hx
    rw [retain_client] at hx
    obtain ⟨rfl,hxg⟩ := h.client_filed k x hx.2
    refine ⟨rfl,(retain_generation _ _).mpr ⟨?_,hxg⟩⟩
    exact fun he => hx.1 (by rw [hgm x hxg he])
  · simpa using h.forward_filed
  · simpa using h.reverse_filed
  · simpa using h.one_client
  · simpa using h.one_generation
  · simpa using h.fresh
  · intro x hx hng
    rw [retain_forward] at hx
    by_cases hxm : x = m
    · subst hxm
      rw [retain_cell_self]
      refine ⟨rfl,now+relayTombstoneSeconds,?_,?_⟩
      · rw [retain_clientTombstones,if_pos rfl]
      · simpa using hg
    · have hne : x.generation ≠ m.generation := fun he => hxm (h.one_generation x m hx hf he)
      have hxg : n.generation.get? x.generation ≠ some x :=
        fun hg' => hng ((retain_generation _ _).mpr ⟨hne,hg'⟩)
      have hck : x.clientKey ≠ m.clientKey := fun hk => hxm (h.one_client x m hx hf hk)
      rw [retain_cell_of_ne hne,retain_clientTombstones,if_neg hck]
      exact h.retained x hx hxg

/-- Removal of a list of mappings of the generation table, one after the other. -/
theorem foldl_remove (now : ℚ) (l : List RelayNatMapping) (h : n.Inv)
    (hl : ∀ x ∈ l, n.generation.get? x.generation = some x) (hd : l.Nodup) :
    let n' := l.foldl (fun n m => n.remove m now) n
    n'.Inv ∧ n'.cells = n.cells ∧ n'.lastGeneration = n.lastGeneration ∧
      (∀ g x, n'.generation.get? g = some x ↔ n.generation.get? g = some x ∧ x ∉ l) ∧
      (∀ k x, n'.forward.get? k = some x ↔ n.forward.get? k = some x ∧ x ∉ l) ∧
      (∀ k x, n'.reverse.get? k = some x ↔ n.reverse.get? k = some x ∧ x ∉ l) := by
  induction l generalizing n with
  | nil => simp [h]
  | cons a l ih =>
    obtain ⟨hal,hd⟩ := List.nodup_cons.mp hd
    have hag := hl a (by simp)
    have hne : ∀ x ∈ l, x.generation ≠ a.generation := by
      intro x hx he
      have hxg := hl x (by simp [hx])
      rw [he,hag] at hxg
      exact hal (by rw [Option.some.inj hxg]; exact hx)
    obtain ⟨hi,hcl,hlg,hgn,hfw,hrv⟩ := ih (h.remove hag now)
      (fun x hx => (remove_generation _ _).mpr ⟨hne x hx,hl x (by simp [hx])⟩) hd
    refine ⟨hi,?_,?_,?_,?_,?_⟩
    · simpa using hcl
    · simpa using hlg
    · intro g x
      rw [List.foldl_cons,hgn,remove_generation,List.mem_cons,not_or]
      constructor
      · rintro ⟨⟨hg,hx⟩,hxl⟩
        exact ⟨hx,fun he => hg (by rw [← he]; exact (h.generation_key g x hx).symm),hxl⟩
      · rintro ⟨hx,hxa,hxl⟩
        refine ⟨⟨fun hg => hxa ?_,hx⟩,hxl⟩
        rw [hg,hag] at hx
        exact (Option.some.inj hx).symm
    · intro k x
      rw [List.foldl_cons,hfw,remove_forward,List.mem_cons,not_or]
      constructor
      · rintro ⟨⟨hx,hn⟩,hxl⟩
        refine ⟨hx,fun he => hn ⟨?_,he⟩,hxl⟩
        rw [(h.forward_filed k x hx).1,he]
      · rintro ⟨hx,hxa,hxl⟩
        exact ⟨⟨hx,fun he => hxa he.2⟩,hxl⟩
    · intro k x
      rw [List.foldl_cons,hrv,remove_reverse,List.mem_cons,not_or]
      constructor
      · rintro ⟨⟨hx,hn⟩,hxl⟩
        refine ⟨hx,fun he => hn ⟨?_,he⟩,hxl⟩
        rw [(h.reverse_filed k x hx).1,he]
      · rintro ⟨hx,hxa,hxl⟩
        exact ⟨⟨hx,fun he => hxa he.2⟩,hxl⟩

theorem Inv.values_nodup (h : n.Inv) : n.generation.values.Nodup := by
  apply List.Nodup.of_map RelayNatMapping.generation
  have hkeys : n.generation.values.map RelayNatMapping.generation =
      n.generation.entries.map Prod.fst := by
    rw [Dict.values,List.map_map]
    apply List.map_congr_left
    rintro ⟨g,x⟩ hx
    exact h.generation_key g x ((Dict.get?_eq_some_iff _ _ _).mpr hx)
  rw [hkeys]
  exact n.generation.nodup

theorem Inv.mem_values (h : n.Inv) (x : RelayNatMapping) :
    x ∈ n.generation.values ↔ n.generation.get? x.generation = some x := by
  rw [Dict.mem_values_iff]
  constructor
  · rintro ⟨g,hx⟩
    exact (h.filed hx).1
  · exact fun hx => ⟨_,hx⟩

/-- What dropping does: exactly the mappings with `p` leave, and from all four tables. -/
theorem Inv.drop (h : n.Inv) (now : ℚ) (p : RelayNatMapping → Bool) :
    (n.drop now p).Inv ∧ (n.drop now p).cells = n.cells ∧
      (n.drop now p).lastGeneration = n.lastGeneration ∧
      (∀ g x, (n.drop now p).generation.get? g = some x ↔
        n.generation.get? g = some x ∧ p x = false) ∧
      (∀ k x, (n.drop now p).forward.get? k = some x ↔ n.forward.get? k = some x ∧
        ¬(n.generation.get? x.generation = some x ∧ p x = true)) ∧
      (∀ k x, (n.drop now p).reverse.get? k = some x ↔ n.reverse.get? k = some x ∧
        ¬(n.generation.get? x.generation = some x ∧ p x = true)) := by
  have hmem : ∀ x, x ∈ n.generation.values.filter p ↔
      n.generation.get? x.generation = some x ∧ p x = true := by
    intro x
    rw [List.mem_filter,h.mem_values]
  obtain ⟨hi,hcl,hlg,hgn,hfw,hrv⟩ := foldl_remove now (n.generation.values.filter p) h
    (fun x hx => ((hmem x).mp hx).1) (h.values_nodup.filter _)
  refine ⟨hi,hcl,hlg,fun g x => ?_,fun k x => ?_,fun k x => ?_⟩
  · refine (hgn g x).trans (and_congr_right fun hx => ?_)
    rw [hmem,not_and,Bool.not_eq_true]
    exact ⟨fun hh => hh (h.filed hx).1,fun hh _ => hh⟩
  · exact (hfw k x).trans (and_congr_right fun hx => not_congr (hmem x))
  · exact (hrv k x).trans (and_congr_right fun hx => not_congr (hmem x))

/-- Expiry of the rewrite entries and the tombstones, once no mapping of the generation
table is expired: a retained entry that stays keeps its client tombstone. -/
theorem Inv.expire (h : n.Inv)
    (hl : ∀ g x, n.generation.get? g = some x → now < (n.cell x).expiresAt) :
    ((n.expireRewrites now).expireTombstones now).Inv := by
  obtain ⟨h₁,h₂,h₃,h₄,h₅,h₆,h₇,h₈,hk,hg,hc,hf,hr,ho,hog,hfr,ht⟩ := h
  have hfw : ∀ k x, (n.forward.filter fun _ m => now < (n.cell m).expiresAt).get? k = some x ↔
      n.forward.get? k = some x ∧ now < (n.cell x).expiresAt := by
    intro k x
    rw [Dict.get?_filter_eq_some,decide_eq_true_eq]
  have hrv : ∀ k x, (n.reverse.filter fun _ m => now < (n.cell m).expiresAt).get? k = some x ↔
      n.reverse.get? k = some x ∧ now < (n.cell x).expiresAt := by
    intro k x
    rw [Dict.get?_filter_eq_some,decide_eq_true_eq]
  refine ⟨h₁,h₂,h₃,h₄,h₅,h₆,h₇,h₈,hk,?_,hc,?_,?_,?_,?_,?_,?_⟩
  · intro g x hx
    exact ⟨(hg g x hx).1,(hfw _ _).mpr ⟨(hg g x hx).2,hl g x hx⟩⟩
  · intro k x hx
    obtain ⟨hx,hle⟩ := (hfw k x).mp hx
    exact ⟨(hf k x hx).1,(hrv _ _).mpr ⟨(hf k x hx).2,hle⟩⟩
  · intro k x hx
    obtain ⟨hx,hle⟩ := (hrv k x).mp hx
    exact ⟨(hr k x hx).1,(hfw _ _).mpr ⟨(hr k x hx).2,hle⟩⟩
  · intro x y hx hy
    exact ho x y ((hfw _ _).mp hx).1 ((hfw _ _).mp hy).1
  · intro x y hx hy
    exact hog x y ((hfw _ _).mp hx).1 ((hfw _ _).mp hy).1
  · intro x hx
    exact hfr x ((hfw _ _).mp hx).1
  · intro x hx hng
    obtain ⟨hx,hle⟩ := (hfw _ _).mp hx
    obtain ⟨ha,e,he,hxe⟩ := ht x hx hng
    refine ⟨ha,e,?_,hxe⟩
    exact (Dict.get?_filter_eq_some _ _ _ _).mpr ⟨he,by simpa using hle.trans_le hxe⟩

/-- One lemma for `_cleanup_locked`: what is left is exactly what is not expired. -/
theorem Inv.cleanup (h : n.Inv) (now : ℚ) :
    (n.cleanup now).Inv ∧ (n.cleanup now).cells = n.cells ∧
      (n.cleanup now).lastGeneration = n.lastGeneration ∧
      (∀ g x, (n.cleanup now).generation.get? g = some x ↔
        n.generation.get? g = some x ∧ now < (n.cell x).expiresAt) ∧
      (∀ k x, (n.cleanup now).forward.get? k = some x ↔
        n.forward.get? k = some x ∧ now < (n.cell x).expiresAt) ∧
      (∀ k x, (n.cleanup now).reverse.get? k = some x ↔
        n.reverse.get? k = some x ∧ now < (n.cell x).expiresAt) := by
  obtain ⟨hi,hcl,hlg,hgn,hfw,hrv⟩ := h.drop now fun m => (n.cell m).expiresAt ≤ now
  have hcell : ∀ x, (n.drop now fun m => (n.cell m).expiresAt ≤ now).cell x = n.cell x := by
    intro x
    rw [cell,hcl,cell]
  refine ⟨?_,hcl,hlg,?_,?_,?_⟩
  · apply hi.expire
    intro g x hx
    rw [hcell]
    simpa using ((hgn g x).mp hx).2
  · intro g x
    exact (hgn g x).trans (and_congr_right fun _ => by simp)
  · intro k x
    refine (Dict.get?_filter_eq_some _ _ _ _).trans ?_
    rw [hfw,hcell]
    constructor
    · exact fun hx => ⟨hx.1.1,of_decide_eq_true hx.2⟩
    · exact fun hx => ⟨⟨hx.1,fun hn => absurd hx.2 (by simpa using hn.2)⟩,decide_eq_true hx.2⟩
  · intro k x
    refine (Dict.get?_filter_eq_some _ _ _ _).trans ?_
    rw [hrv,hcell]
    constructor
    · exact fun hx => ⟨hx.1.1,of_decide_eq_true hx.2⟩
    · exact fun hx => ⟨⟨hx.1,fun hn => absurd hx.2 (by simpa using hn.2)⟩,decide_eq_true hx.2⟩

/-- A spent generation number alone. -/
theorem Inv.spend (h : n.Inv) : ({ n with lastGeneration := n.lastGeneration+1 } : RelayNat).Inv := by
  obtain ⟨h₁,h₂,h₃,h₄,h₅,h₆,h₇,h₈,hk,hg,hc,hf,hr,ho,hog,hfr,ht⟩ := h
  exact ⟨h₁,h₂,h₃,h₄,h₅,h₆,h₇,h₈,hk,hg,hc,hf,hr,ho,hog,fun x hx => (hfr x hx).trans (Nat.le_succ _),
    ht⟩

/-- A new number with a new cell is one more pending mapping. -/
theorem Counts.insert (h : n.Counts n.generation n.cell)
    (hnew : ∀ g x, n.generation.get? g = some x → x.generation ≠ m.generation)
    (hg : n.generation.get? m.generation = none) (now : ℚ) :
    (n.insert m now).Counts (n.insert m now).generation (n.insert m now).cell := by
  have hpred (q : RelayNatMapping → MappingCell → Bool) :
      (n.insert m now).generation.countP (fun x => q x ((n.insert m now).cell x)) =
      n.generation.countP (fun x => q x (n.cell x)) +
        if q m ⟨now+helloTimeout+5,false,false⟩ then 1 else 0 := by
    have hself : (n.insert m now).cell m = ⟨now+helloTimeout+5,false,false⟩ :=
      Function.update_self _ _ _
    refine (Dict.countP_set_of_new _ _ _ _ hg).trans ?_
    rw [hself]
    congr 1
    refine n.generation.countP_congr _ _ fun g x hx => ?_
    have hx' : (n.insert m now).cell x = n.cell x := Function.update_of_ne (hnew g x hx) _ _
    rw [hx']
  obtain ⟨h₁,h₂,h₃,h₄⟩ := h
  refine ⟨?_,fun ip => ?_,?_,fun ip => ?_⟩
  · rw [hpred fun _ c => !c.active]
    simp [RelayNat.insert,h₁]
  · rw [hpred fun x c => !c.active && x.sampleIp = ip]
    by_cases hip : ip = m.sampleIp
    · subst hip
      simp [RelayNat.insert,h₂]
    · simp [RelayNat.insert,Function.update_of_ne hip,Ne.symm hip,h₂]
  · rw [hpred fun _ c => c.active]
    simp [RelayNat.insert,h₃]
  · rw [hpred fun x c => c.active && x.sampleIp = ip]
    simp [RelayNat.insert,h₄]

theorem Inv.insert (h : n.Inv) (hg : m.generation = n.lastGeneration+1)
    (hf : n.forward.get? m.forwardKey = none) (hr : n.reverse.get? m.reverseKey = none)
    (hc : n.client.get? m.clientKey = none)
    (hl : ∀ k x, n.forward.get? k = some x → now < (n.cell x).expiresAt)
    (ht : ∀ e, n.clientTombstones.get? m.clientKey = some e → e ≤ now)
    (hp : n.pending < maxPending) (hps : n.pendingBySource m.sampleIp < maxPendingPerSource) :
    ({ n with lastGeneration := n.lastGeneration+1 }.insert m now).Inv := by
  -- the number is new, so no cell of a filed mapping changes
  have hnew : ∀ x, n.forward.get? x.forwardKey = some x → x.generation ≠ m.generation := by
    intro x hx he
    have hle := h.fresh x hx
    omega
  have hgnone : n.generation.get? m.generation = none := by
    cases hx : n.generation.get? m.generation with
    | none => rfl
    | some x => exact absurd (h.generation_key _ _ hx) (hnew x (h.filed hx).2.2.1)
  have hclient : ∀ x, n.forward.get? x.forwardKey = some x → x.clientKey ≠ m.clientKey := by
    intro x hx he
    by_cases hxg : n.generation.get? x.generation = some x
    · have hxc := (h.filed hxg).2.1
      rw [he,hc] at hxc
      cases hxc
    · obtain ⟨-,e,hte,hxe⟩ := h.retained x hx hxg
      rw [he] at hte
      exact absurd (hl _ x hx) (not_lt.mpr (hxe.trans (ht e hte)))
  have hcell : ∀ x, n.forward.get? x.forwardKey = some x →
      Function.update n.cells m.generation ⟨now+helloTimeout+5,false,false⟩ x.generation =
        n.cell x := fun x hx => Function.update_of_ne (hnew x hx) _ _
  have hcnt := h.spend.counts.insert (fun g x hx => hnew x (h.filed hx).2.2.1) hgnone now
  refine ⟨hcnt.pending,hcnt.pendingBySource,hcnt.active,hcnt.activeBySource,?_,fun ip => ?_,
    h.active_le,h.activeBySource_le,
    ?_,?_,?_,?_,?_,?_,?_,?_,?_⟩
  · simp only [RelayNat.insert]
    omega
  · simp only [RelayNat.insert]
    by_cases hip : ip = m.sampleIp
    · subst hip
      rw [Function.update_self]
      omega
    · rw [Function.update_of_ne hip]
      exact h.pendingBySource_le ip
  · intro g x hx
    rcases (Dict.get?_set_eq_some _ _ _ _ _).mp hx with ⟨rfl,rfl⟩ | ⟨-,hx⟩
    · rfl
    · exact h.generation_key g x hx
  · intro g x hx
    rcases (Dict.get?_set_eq_some _ _ _ _ _).mp hx with ⟨rfl,rfl⟩ | ⟨-,hx⟩
    · exact ⟨Dict.get?_set_self _ _ _,Dict.get?_set_self _ _ _⟩
    · obtain ⟨-,hxc,hxf,-⟩ := h.filed hx
      refine ⟨(Dict.get?_set_of_ne _ _ (hclient x hxf)).trans hxc,
        (Dict.get?_set_of_ne _ _ ?_).trans hxf⟩
      intro hk
      rw [hk,hf] at hxf
      cases hxf
  · intro k x hx
    rcases (Dict.get?_set_eq_some _ _ _ _ _).mp hx with ⟨rfl,rfl⟩ | ⟨-,hx⟩
    · exact ⟨rfl,Dict.get?_set_self _ _ _⟩
    · obtain ⟨rfl,hxg⟩ := h.client_filed k x hx
      exact ⟨rfl,(Dict.get?_set_of_ne _ _ (hnew x (h.filed hxg).2.2.1)).trans hxg⟩
  · intro k x hx
    rcases (Dict.get?_set_eq_some _ _ _ _ _).mp hx with ⟨rfl,rfl⟩ | ⟨-,hx⟩
    · exact ⟨rfl,Dict.get?_set_self _ _ _⟩
    · obtain ⟨rfl,hxr⟩ := h.forward_filed k x hx
      refine ⟨rfl,(Dict.get?_set_of_ne _ _ ?_).trans hxr⟩
      intro hk
      rw [hk,hr] at hxr
      cases hxr
  · intro k x hx
    rcases (Dict.get?_set_eq_some _ _ _ _ _).mp hx with ⟨rfl,rfl⟩ | ⟨-,hx⟩
    · exact ⟨rfl,Dict.get?_set_self _ _ _⟩
    · obtain ⟨rfl,hxf⟩ := h.reverse_filed k x hx
      refine ⟨rfl,(Dict.get?_set_of_ne _ _ ?_).trans hxf⟩
      intro hk
      rw [hk,hf] at hxf
      cases hxf
  · intro x y hx hy he
    rcases (Dict.get?_set_eq_some _ _ _ _ _).mp hx with ⟨-,hxm⟩ | ⟨-,hx⟩ <;>
      rcases (Dict.get?_set_eq_some _ _ _ _ _).mp hy with ⟨-,hym⟩ | ⟨-,hy⟩
    · exact hxm.trans hym.symm
    · exact absurd (hxm ▸ he).symm (hclient y hy)
    · exact absurd (hym ▸ he) (hclient x hx)
    · exact h.one_client x y hx hy he
  · intro x y hx hy he
    rcases (Dict.get?_set_eq_some _ _ _ _ _).mp hx with ⟨-,hxm⟩ | ⟨-,hx⟩ <;>
      rcases (Dict.get?_set_eq_some _ _ _ _ _).mp hy with ⟨-,hym⟩ | ⟨-,hy⟩
    · exact hxm.trans hym.symm
    · exact absurd (hxm ▸ he).symm (hnew y hy)
    · exact absurd (hym ▸ he) (hnew x hx)
    · exact h.one_generation x y hx hy he
  · intro x hx
    rcases (Dict.get?_set_eq_some _ _ _ _ _).mp hx with ⟨-,rfl⟩ | ⟨-,hx⟩
    · exact hg.le
    · exact (h.fresh x hx).trans (Nat.le_succ _)
  · intro x hx hng
    rcases (Dict.get?_set_eq_some _ _ _ _ _).mp hx with ⟨-,rfl⟩ | ⟨-,hx⟩
    · exact absurd (Dict.get?_set_self _ _ _) hng
    · have hxg : n.generation.get? x.generation ≠ some x := fun hh =>
        hng ((Dict.get?_set_of_ne _ _ (hnew x hx)).trans hh)
      have hh := h.retained x hx hxg
      simp only [RelayNat.insert,cell] at hh ⊢
      rw [hcell x hx]
      exact hh

theorem setCell_cell_of_ne {c : MappingCell} {x : RelayNatMapping}
    (h : x.generation ≠ m.generation) : (n.setCell m c).cell x = n.cell x := by
  simp [setCell,cell,h]

@[simp] theorem setCell_cell_self {c : MappingCell} : (n.setCell m c).cell m = c := by
  simp [setCell,cell]

/-- A change of deadline or of `consumed` on a mapping of the generation table. -/
theorem Inv.setCell (h : n.Inv) (hm : n.generation.get? m.generation = some m) {c : MappingCell}
    (ha : c.active = (n.cell m).active) : (n.setCell m c).Inv := by
  have hgm : ∀ x, n.forward.get? x.forwardKey = some x → x.generation = m.generation → x = m :=
    fun x hx he => h.one_generation x m hx (h.filed hm).2.2.1 he
  have hact : ∀ g x, n.generation.get? g = some x →
      ((n.setCell m c).cell x).active = (n.cell x).active := by
    intro g x hx
    by_cases he : x.generation = m.generation
    · rw [hgm x (h.filed hx).2.2.1 he,setCell_cell_self,ha]
    · rw [setCell_cell_of_ne he]
  obtain ⟨h₁,h₂,h₃,h₄⟩ := h.counts.congr hact
  refine ⟨h₁,h₂,h₃,h₄,h.pending_le,h.pendingBySource_le,h.active_le,h.activeBySource_le,
    h.generation_key,h.generation_filed,h.client_filed,h.forward_filed,h.reverse_filed,h.one_client,
    h.one_generation,h.fresh,?_⟩
  intro x hx hng
  have hne : x.generation ≠ m.generation := fun he => hng (by rw [hgm x hx he]; exact hm)
  rw [setCell_cell_of_ne hne]
  exact h.retained x hx hng

theorem activate_counts (h : n.Counts n.generation n.cell)
    (hkey : ∀ g x, n.generation.get? g = some x → x.generation = g)
    (hm : n.generation.get? m.generation = some m) (ha : (n.cell m).active = false)
    (now : ℚ) :
    (n.activate m now).Counts (n.activate m now).generation (n.activate m now).cell := by
  have hgen : (n.activate m now).generation = n.generation := by simp [activate,RelayNat.setCell]
  have hself : ((n.activate m now).cell m).active = true := by
    simp [activate,RelayNat.setCell,cell]
  have hother : ∀ g x, (n.generation.pop m.generation).get? g = some x →
      ((n.activate m now).cell x).active = (n.cell x).active := by
    intro g x hx
    rw [Dict.get?_pop_eq_some] at hx
    have hne : x.generation ≠ m.generation := by rw [hkey g x hx.2]; exact hx.1
    simp [activate,RelayNat.setCell,cell,hne]
  obtain ⟨h₁,h₂,h₃,h₄⟩ := (h.releasePending hm ha).congr hother
  have hp (p : RelayNatMapping → Bool) := n.generation.countP_pop m.generation m p hm
  rw [hgen]
  refine ⟨?_,fun ip => ?_,?_,fun ip => ?_⟩
  · rw [← hp,hself]
    exact h₁
  · rw [← hp,hself]
    exact h₂ ip
  · have hact : (n.activate m now).active = n.active+1 := by simp [activate,RelayNat.setCell]
    rw [releasePending_active] at h₃
    rw [← hp,hself,hact,h₃]
    simp
  · have hact : (n.activate m now).activeBySource ip =
        if ip = m.sampleIp then n.activeBySource ip+1 else n.activeBySource ip := by
      by_cases hip : ip = m.sampleIp
      · subst hip
        simp [activate,RelayNat.setCell]
      · simp [activate,RelayNat.setCell,hip]
    rw [releasePending_activeBySource] at h₄
    rw [← hp,hself,hact,h₄ ip]
    by_cases hip : ip = m.sampleIp
    · subst hip
      simp
    · simp [hip,Ne.symm hip]

theorem Inv.activate (h : n.Inv) (hm : n.generation.get? m.generation = some m)
    (ha : (n.cell m).active = false) (hl : n.active < maxActive)
    (hls : n.activeBySource m.sampleIp < maxActivePerSource) (now : ℚ) : (n.activate m now).Inv := by
  have hcnt := activate_counts h.counts h.generation_key hm ha now
  have hle := releasePending_le (n:=n) (m:=m)
  have hgen : (n.activate m now).generation = n.generation := by
    simp [RelayNat.activate,RelayNat.setCell]
  have hclient : (n.activate m now).client = n.client := by
    simp [RelayNat.activate,RelayNat.setCell]
  have hforward : (n.activate m now).forward = n.forward := by
    simp [RelayNat.activate,RelayNat.setCell]
  have hreverse : (n.activate m now).reverse = n.reverse := by
    simp [RelayNat.activate,RelayNat.setCell]
  refine ⟨hcnt.pending,hcnt.pendingBySource,hcnt.active,hcnt.activeBySource,
    (hle m.sampleIp).1.trans h.pending_le,fun ip => (hle ip).2.trans (h.pendingBySource_le ip),
    ?_,fun ip => ?_,?_,?_,?_,?_,?_,?_,?_,?_,?_⟩
  · have hact : (n.activate m now).active = n.active+1 := by
      simp [RelayNat.activate,RelayNat.setCell]
    omega
  · by_cases hip : ip = m.sampleIp
    · subst hip
      have hact : (n.activate m now).activeBySource m.sampleIp =
          n.activeBySource m.sampleIp+1 := by
        simp [RelayNat.activate,RelayNat.setCell]
      omega
    · have hact : (n.activate m now).activeBySource ip = n.activeBySource ip := by
        simp [RelayNat.activate,RelayNat.setCell,hip]
      rw [hact]
      exact h.activeBySource_le ip
  · rw [hgen]; exact h.generation_key
  · rw [hgen,hclient,hforward]; exact h.generation_filed
  · rw [hgen,hclient]; exact h.client_filed
  · rw [hforward,hreverse]; exact h.forward_filed
  · rw [hforward,hreverse]; exact h.reverse_filed
  · rw [hforward]; exact h.one_client
  · rw [hforward]; exact h.one_generation
  · rw [hforward]
    simpa [RelayNat.activate,RelayNat.setCell] using h.fresh
  · rw [hforward,hgen]
    intro x hx hng
    have hne : x.generation ≠ m.generation := by
      intro he
      exact hng (by rw [h.one_generation x m hx (h.filed hm).2.2.1 he]; exact hm)
    have hh := h.retained x hx hng
    simpa [RelayNat.activate,RelayNat.setCell,cell,hne] using hh

end RelayNat
end FakeNetNG
