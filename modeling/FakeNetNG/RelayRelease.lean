import FakeNetNG.RelayWorkers

/-!
# Every slot is released once

The counters are exact in every state: they count the holders. A worker's ledger sums its journal up,
and the flags of its local variables say what is in the ledger and which slot it holds.
-/

namespace FakeNetNG
namespace RelayWorkers

namespace SlotCount

variable {c : SlotCount} {w : ℕ} {source : Addr}

/-- The numbers are those of the holders. -/
structure Exact (c : SlotCount) : Prop where
  total : c.total = c.holders.length
  bySource : ∀ x, c.bySource x = c.holders.countP fun h => h.2 = x

structure Within (maxTotal maxPerSource : ℕ) (c : SlotCount) : Prop where
  total : c.total ≤ maxTotal
  bySource : ∀ x, c.bySource x ≤ maxPerSource

theorem exact_empty : Exact empty := ⟨rfl,fun _ => rfl⟩

theorem Exact.take (h : c.Exact) (w : ℕ) (source : Addr) : (c.take w source).Exact := by
  refine ⟨by simp [SlotCount.take,h.total],fun x => ?_⟩
  by_cases hx : x = source
  · subst hx
    simp [SlotCount.take,h.bySource]
  · simp [SlotCount.take,h.bySource,hx,Ne.symm hx]

theorem Exact.pos (h : c.Exact) (hmem : (w,source) ∈ c.holders) : 0 < c.bySource source := by
  rw [h.bySource]
  exact_mod_cast List.countP_pos_iff.mpr ⟨_,hmem,by simp⟩

theorem release_of_mem (h : c.Exact) (hmem : (w,source) ∈ c.holders) : c.release w source =
    ⟨c.total-1,Function.update c.bySource source (c.bySource source-1),c.holders.erase (w,source)⟩ :=
  if_pos (h.pos hmem).ne'

theorem Exact.release (h : c.Exact) (hmem : (w,source) ∈ c.holders) : (c.release w source).Exact := by
  have hlength := List.length_erase_of_mem hmem
  have hpos := List.length_pos_of_mem hmem
  rw [release_of_mem h hmem]
  refine ⟨?_,fun x => ?_⟩
  · show c.total-1 = ((c.holders.erase (w,source)).length : ℤ)
    rw [hlength,h.total]
    omega
  · have hsource := h.pos hmem
    show Function.update c.bySource source (c.bySource source-1) x =
      ((c.holders.erase (w,source)).countP fun h => h.2 = x : ℕ)
    rw [List.countP_erase]
    by_cases hx : x = source
    · subst hx
      rw [h.bySource] at hsource ⊢
      simp [hmem]
      omega
    · simp [h.bySource,hx,Ne.symm hx]

theorem Within.take {maxTotal maxPerSource : ℕ} (h : c.Within maxTotal maxPerSource)
    (hroom : c.full maxTotal maxPerSource source = false) (w : ℕ) :
    (c.take w source).Within maxTotal maxPerSource := by
  simp only [full,decide_eq_false_iff_not,not_or,not_le,ge_iff_le] at hroom
  refine ⟨by simp only [SlotCount.take]; omega,fun x => ?_⟩
  by_cases hx : x = source
  · subst hx
    simp only [SlotCount.take,Function.update_self]
    omega
  · simpa [SlotCount.take,hx] using h.bySource x

theorem Within.release {maxTotal maxPerSource : ℕ} (h : c.Within maxTotal maxPerSource) (w : ℕ) (source : Addr) :
    (c.release w source).Within maxTotal maxPerSource := by
  unfold SlotCount.release
  split_ifs
  · refine ⟨(sub_one_lt _).le.trans h.total,fun x => ?_⟩
    by_cases hx : x = source
    · subst hx
      simp only [Function.update_self]
      exact (sub_one_lt _).le.trans (h.bySource x)
    · simpa [hx] using h.bySource x
  · exact h

theorem count_take (v : ℕ) (x : Addr) : (c.take w source).holders.count (v,x) =
    c.holders.count (v,x)+if v = w ∧ x = source then 1 else 0 := by
  simp only [SlotCount.take,List.count_cons,beq_iff_eq,Prod.mk.injEq,eq_comm (a:=w),eq_comm (a:=source)]

theorem count_release (h : c.Exact) (hmem : (w,source) ∈ c.holders) (v : ℕ) (x : Addr) :
    (c.release w source).holders.count (v,x) =
      c.holders.count (v,x)-if v = w ∧ x = source then 1 else 0 := by
  rw [release_of_mem h hmem,List.count_erase]
  simp only [beq_iff_eq,Prod.mk.injEq,eq_comm (a:=w),eq_comm (a:=source)]

theorem Exact.eq_empty (h : c.Exact) (hnone : c.holders = []) : c = empty := by
  obtain ⟨total,bySource,holders⟩ := c
  obtain rfl : holders = [] := hnone
  have htotal : total = 0 := h.total
  have hbySource : bySource = fun _ => 0 := funext h.bySource
  rw [htotal,hbySource]
  rfl

end SlotCount

structure Ledger where
  acquired : List (Addr × ℕ)
  promoted : ℕ
  registered : List String
  released : List Slot
  revoked : List String
  closed : List ℕ
  finished : ℕ

def Ledger.add (l : Ledger) : Event → Ledger
  | .acquired source generation => { l with acquired := l.acquired++[(source,generation)] }
  | .promoted => { l with promoted := l.promoted+1 }
  | .registered token => { l with registered := l.registered++[token] }
  | .released slot => { l with released := l.released++[slot] }
  | .revoked token => { l with revoked := l.revoked++[token] }
  | .closed generation => { l with closed := l.closed++[generation] }
  | .finished => { l with finished := l.finished+1 }
  | .logged _ | .terminal .. | .disconnected .. => l

def ledger (events : List Event) : Ledger := events.foldl Ledger.add ⟨[],0,[],[],[],[],0⟩

theorem ledger_snoc (events : List Event) (e : Event) : ledger (events++[e]) = (ledger events).add e :=
  List.foldl_append

/-- One slot was taken and one released, the active one after a promotion; the tokens are revoked and
the mapping is closed. -/
structure Settled (l : Ledger) : Prop where
  slot : l.promoted = 0 ∧ l.released = [.pending] ∨ l.promoted = 1 ∧ l.released = [.active]
  revoked : l.revoked = l.registered.filter (· ≠ "")
  closed : ∃ source generation, l.acquired = [(source,generation)] ∧ l.closed = [generation]

/-- What the shared state says of one worker. -/
@[ext] structure View where
  pending : Addr → ℕ
  active : Addr → ℕ
  ledger : Ledger

def State.view (w : ℕ) (s : State) : View :=
  ⟨fun x => s.pending.holders.count (w,x),fun x => s.active.holders.count (w,x),ledger (s.journal w)⟩

/-- A worker with a slot has taken one and is not at its end, and at its end it has settled. -/
structure Proper (v : View) : Prop where
  holding : ∀ x, v.pending x ≠ 0 ∨ v.active x ≠ 0 → v.ledger.acquired ≠ [] ∧ v.ledger.finished = 0
  settled : v.ledger.finished ≠ 0 → Settled v.ledger

structure Inv (settings : Settings) (s : State) : Prop where
  pending : s.pending.Exact
  active : s.active.Exact
  pendingWithin : s.pending.Within settings.maxPending settings.maxPendingPerSource
  activeWithin : s.active.Within settings.maxActive settings.maxActivePerSource
  proper : ∀ w, Proper (s.view w)

/-- Another thread does not touch what concerns the worker. -/
def Spares (w : ℕ) (s s' : State) : Prop := s'.view w = s.view w

/-- A section of the worker concerns no other one. -/
def Touches (w : ℕ) (s s' : State) : Prop := ∀ v, v ≠ w → s'.view v = s.view v

variable {settings : Settings} {s s' : State} {w : ℕ} {source : Addr} {generation : ℕ}

theorem inv_init (settings : Settings) : Inv settings State.init :=
  ⟨SlotCount.exact_empty,SlotCount.exact_empty,⟨Int.natCast_nonneg _,fun _ => Int.natCast_nonneg _⟩,
    ⟨Int.natCast_nonneg _,fun _ => Int.natCast_nonneg _⟩,
    fun _ => ⟨fun x h => absurd h (by simp [State.view,State.init,SlotCount.empty]),fun h => absurd rfl h⟩⟩

theorem view_note_self (w : ℕ) (e : Event) (s : State) :
    (s.note w e).view w = { s.view w with ledger := (s.view w).ledger.add e } := by
  simp [State.view,State.note,ledger_snoc]

theorem touches_note (w : ℕ) (e : Event) (s : State) : Touches w s (s.note w e) := by
  intro v hv
  simp [State.view,State.note,hv]

/-- A section of a worker has to keep its own view proper. -/
theorem Inv.proper_of_touches (h : Inv settings s) (htouches : Touches w s s') (hproper : Proper (s'.view w)) :
    ∀ v, Proper (s'.view v) := by
  intro v
  by_cases hv : v = w
  · exact hv ▸ hproper
  · rw [htouches v hv]
    exact h.proper v

theorem Inv.note (h : Inv settings s) (e : Event) (hproper : Proper ((s.note w e).view w)) :
    Inv settings (s.note w e) :=
  ⟨h.pending,h.active,h.pendingWithin,h.activeWithin,h.proper_of_touches (touches_note w e s) hproper⟩

/-- The view of a worker with these slots and this part of its ledger. -/
def seen (source : Addr) (generation : ℕ) (l : Locals) (pending active : Bool) (released : List Slot)
    (revoked : List String) (closed : List ℕ) (finished : ℕ) : View where
  pending x := if x = source ∧ pending = true then 1 else 0
  active x := if x = source ∧ active = true then 1 else 0
  ledger := ⟨[(source,generation)],if l.active then 1 else 0,l.token.toList,released,revoked,closed,finished⟩

/-- What the shared state says of a worker whose flags are these. -/
def expected (source : Addr) (generation : ℕ) (l : Locals) : View :=
  seen source generation l l.pending l.active (if l.pending || l.active then [] else [.pending]) [] [] 0

/-- A worker that is not at its end. -/
def Running (v : View) : Prop := v.ledger.acquired ≠ [] ∧ v.ledger.finished = 0

theorem Running.proper {v : View} (h : Running v) : Proper v := ⟨fun _ _ => h,fun hfinished => absurd h.2 hfinished⟩

theorem running_expected (source : Addr) (generation : ℕ) (l : Locals) : Running (expected source generation l) :=
  ⟨List.cons_ne_nil _ _,rfl⟩

theorem acquirePending_spec (h : Inv settings s) (hfresh : s.view w = ⟨fun _ => 0,fun _ => 0,ledger []⟩)
    (hacquired : (acquirePending settings w source generation s).1 = true) :
    Inv settings (acquirePending settings w source generation s).2 ∧
      Touches w s (acquirePending settings w source generation s).2 ∧
      (acquirePending settings w source generation s).2.view w = expected source generation Locals.init := by
  unfold acquirePending at hacquired ⊢
  split_ifs at hacquired ⊢ with hfull
  have hroom := Bool.eq_false_iff.mpr hfull
  have htouches : Touches w s
      ({ s with pending := s.pending.take w source }.note w (.acquired source generation)) := by
    intro v hv
    simp [State.view,State.note,hv,SlotCount.count_take]
  have hview : ({ s with pending := s.pending.take w source }.note w (.acquired source generation)).view w =
      expected source generation Locals.init := by
    obtain ⟨hpending,hactive,hledger⟩ := View.mk.inj hfresh
    ext1
    · funext x
      simpa [State.view,State.note,expected,seen,Locals.init,SlotCount.count_take] using congrFun hpending x
    · funext x
      simpa [State.view,State.note,expected,seen,Locals.init] using congrFun hactive x
    · simp only [State.view,State.note,Function.update_self,ledger_snoc,hledger]
      rfl
  refine ⟨⟨h.pending.take w source,h.active,h.pendingWithin.take hroom w,h.activeWithin,
    h.proper_of_touches htouches ?_⟩,htouches,hview⟩
  rw [hview]
  exact (running_expected source generation _).proper

theorem acquirePending_refused (h : (acquirePending settings w source generation s).1 = false) :
    (acquirePending settings w source generation s).2 = s := by
  unfold acquirePending at h ⊢
  split_ifs at h ⊢
  rfl

theorem mem_of_view_pending (h : (s.view w).pending source ≠ 0) : (w,source) ∈ s.pending.holders :=
  List.count_pos_iff.mp (Nat.pos_of_ne_zero h)

theorem mem_of_view_active (h : (s.view w).active source ≠ 0) : (w,source) ∈ s.active.holders :=
  List.count_pos_iff.mp (Nat.pos_of_ne_zero h)

theorem releasePendingLocked_spec (h : Inv settings s) (hmem : (w,source) ∈ s.pending.holders)
    (hrunning : Running (s.view w)) :
    Inv settings (releasePendingLocked w source s) ∧ Touches w s (releasePendingLocked w source s) ∧
      (releasePendingLocked w source s).view w =
        ⟨fun x => (s.view w).pending x-if x = source then 1 else 0,(s.view w).active,
          (s.view w).ledger.add (.released .pending)⟩ := by
  unfold releasePendingLocked
  rw [if_pos (h.pending.pos hmem).ne']
  have htouches : Touches w s ({ s with pending := s.pending.release w source }.note w (.released .pending)) := by
    intro v hv
    simp [State.view,State.note,hv,SlotCount.count_release h.pending hmem]
  have hview : ({ s with pending := s.pending.release w source }.note w (.released .pending)).view w =
      ⟨fun x => (s.view w).pending x-if x = source then 1 else 0,(s.view w).active,
        (s.view w).ledger.add (.released .pending)⟩ := by
    rw [view_note_self]
    simp [State.view,SlotCount.count_release h.pending hmem]
  refine ⟨⟨h.pending.release hmem,h.active,h.pendingWithin.release w source,h.activeWithin,
    h.proper_of_touches htouches ?_⟩,htouches,hview⟩
  rw [hview]
  exact Running.proper hrunning

theorem releaseActive_spec (h : Inv settings s) (hmem : (w,source) ∈ s.active.holders)
    (hrunning : Running (s.view w)) :
    Inv settings (releaseActive w source s) ∧ Touches w s (releaseActive w source s) ∧
      (releaseActive w source s).view w =
        ⟨(s.view w).pending,fun x => (s.view w).active x-if x = source then 1 else 0,
          (s.view w).ledger.add (.released .active)⟩ := by
  unfold releaseActive
  rw [if_pos (h.active.pos hmem).ne']
  have htouches : Touches w s ({ s with active := s.active.release w source }.note w (.released .active)) := by
    intro v hv
    simp [State.view,State.note,hv,SlotCount.count_release h.active hmem]
  have hview : ({ s with active := s.active.release w source }.note w (.released .active)).view w =
      ⟨(s.view w).pending,fun x => (s.view w).active x-if x = source then 1 else 0,
        (s.view w).ledger.add (.released .active)⟩ := by
    rw [view_note_self]
    simp [State.view,SlotCount.count_release h.active hmem]
  refine ⟨⟨h.pending,h.active.release hmem,h.pendingWithin,h.activeWithin.release w source,
    h.proper_of_touches htouches ?_⟩,htouches,hview⟩
  rw [hview]
  exact Running.proper hrunning

theorem promoteActive_spec (h : Inv settings s) (hmem : (w,source) ∈ s.pending.holders)
    (hrunning : Running (s.view w)) :
    Inv settings (promoteActive settings w source s).2 ∧ Touches w s (promoteActive settings w source s).2 ∧
      (promoteActive settings w source s).2.view w =
        if (promoteActive settings w source s).1 then
          ⟨fun x => (s.view w).pending x-if x = source then 1 else 0,
            fun x => (s.view w).active x+if x = source then 1 else 0,(s.view w).ledger.add .promoted⟩
        else
          ⟨fun x => (s.view w).pending x-if x = source then 1 else 0,(s.view w).active,
            (s.view w).ledger.add (.released .pending)⟩ := by
  unfold promoteActive
  cases hroom : s.active.full settings.maxActive settings.maxActivePerSource source with
  | true => exact releasePendingLocked_spec h hmem hrunning
  | false =>
    have htouches : Touches w s ({ s with
        pending := s.pending.release w source
        active := s.active.take w source }.note w .promoted) := by
      intro v hv
      simp [State.view,State.note,hv,SlotCount.count_release h.pending hmem,SlotCount.count_take]
    have hview : ({ s with
        pending := s.pending.release w source
        active := s.active.take w source }.note w .promoted).view w =
        ⟨fun x => (s.view w).pending x-if x = source then 1 else 0,
          fun x => (s.view w).active x+if x = source then 1 else 0,(s.view w).ledger.add .promoted⟩ := by
      rw [view_note_self]
      simp [State.view,SlotCount.count_release h.pending hmem,SlotCount.count_take]
    refine ⟨⟨h.pending.release hmem,h.active.take w source,h.pendingWithin.release w source,
      h.activeWithin.take hroom w,h.proper_of_touches htouches (hview.symm ▸ Running.proper hrunning)⟩,htouches,hview⟩

open Routine

/-- The shared state says `V` of the worker, and its local variables are in `φ`. -/
def Sees (w : ℕ) (V : Locals → View) (φ : Locals → Prop) (l : Locals) (s : State) : Prop :=
  s.view w = V l ∧ φ l

variable {V : Locals → View} {φ ψ : Locals → Prop} {fail : Locals → State → Prop}

theorem sees_stable (l : Locals) (s s' : State) (h : Sees w V φ l s) (hspares : Spares w s s') : Sees w V φ l s' :=
  ⟨hspares.trans h.1,h.2⟩

/-- A change of the state that no worker's view shows. -/
structure Quiet (f : State → State) : Prop where
  pending : ∀ s, (f s).pending = s.pending
  active : ∀ s, (f s).active = s.active
  view : ∀ s v, (f s).view v = s.view v

theorem quiet_note {e : Event} (h : ∀ l : Ledger, l.add e = l) : Quiet (State.note w e) := by
  refine ⟨fun _ => rfl,fun _ => rfl,fun s v => ?_⟩
  by_cases hv : v = w
  · subst hv
    rw [view_note_self,h]
  · exact touches_note w e s v hv

theorem Quiet.inv {f : State → State} (hf : Quiet f) (h : Inv settings s) : Inv settings (f s) :=
  ⟨hf.pending s ▸ h.pending,hf.active s ▸ h.active,hf.pending s ▸ h.pendingWithin,hf.active s ▸ h.activeWithin,
    fun v => hf.view s v ▸ h.proper v⟩

theorem triple_quiet {f : State → State} (hf : Quiet f) :
    Triple (Inv settings) (Spares w) (Touches w) (Sees w V φ) (modify f : Worker Unit) (fun _ => Sees w V φ) fail :=
  triple_locked sees_stable fun _ s h hs => ⟨hf.inv hs,fun v _ => hf.view s v,(hf.view s w).trans h.1,h.2⟩

theorem triple_read {α : Type} (f : State → α) :
    Triple (Inv settings) (Spares w) (Touches w) (Sees w V φ) (read f : Worker α) (fun _ => Sees w V φ) fail :=
  triple_locked sees_stable fun _ _ h hs => ⟨hs,fun _ _ => rfl,h⟩

theorem triple_note (e : Event) (h : ∀ l, φ l → Proper { V l with ledger := (V l).ledger.add e }) :
    Triple (Inv settings) (Spares w) (Touches w) (Sees w V φ) (modify (State.note w e) : Worker Unit)
      (fun _ => Sees w (fun l => { V l with ledger := (V l).ledger.add e }) φ) fail := by
  refine triple_locked sees_stable fun l s hl hs => ?_
  have hview : (s.note w e).view w = { V l with ledger := (V l).ledger.add e } := by rw [view_note_self,hl.1]
  exact ⟨hs.note e (hview ▸ h l hl.2),touches_note w e s,hview,hl.2⟩

section Client

variable (settings) (c : Client) (mapping : RelayNatMapping)

/-- The flags mirror what the shared state says of the worker. -/
def Owns (φ : Locals → Prop) : Locals → State → Prop :=
  Sees c.worker (expected c.source mapping.generation) φ

/-- The worker does not claim two slots. -/
def Exclusive (l : Locals) : Prop := l.pending = true → l.active = false

structure Waiting (l : Locals) : Prop where
  pending : l.pending = true
  active : l.active = false
  token : l.token = none

structure Relaying (l : Locals) : Prop where
  pending : l.pending = false
  active : l.active = true
  token : l.token = none

/-- A part of the `try` block. -/
def Part {α : Type} (φ : Locals → Prop) (m : Worker α) (ψ : Locals → Prop) : Prop :=
  Triple (Inv settings) (Spares c.worker) (Touches c.worker) (Owns c mapping φ) m (fun _ => Owns c mapping ψ)
    (Owns c mapping Exclusive)

end Client

variable {c : Client} {mapping : RelayNatMapping}

theorem Part.bind {α β : Type} {q χ : Locals → Prop} {m : Worker α} {k : α → Worker β}
    (hm : Part settings c mapping φ m q) (hk : ∀ a, Part settings c mapping q (k a) χ) :
    Part settings c mapping φ (m >>= k) χ := Triple.bind hm hk

theorem part_answer {α : Type} (hφ : ∀ l, φ l → Exclusive l) (r : Except RelayError α) :
    Part settings c mapping φ (answer r) φ :=
  triple_answer (fun _ _ _ h => h) fun l _ h => ⟨h.1,hφ l h.2⟩

theorem part_raise {α : Type} (hφ : ∀ l, φ l → Exclusive l) (e : RelayError) :
    Part settings c mapping φ (Routine.raise e : Worker α) ψ := triple_raise fun l _ h => ⟨h.1,hφ l h.2⟩

theorem part_assign {f : Locals → Locals}
    (hf : ∀ l, (f l).pending = l.pending ∧ (f l).active = l.active ∧ (f l).token = l.token)
    (hφ : ∀ l, φ l → φ (f l)) : Part settings c mapping φ (assign f) φ := by
  refine triple_assign fun l s h => ⟨h.1.trans ?_,hφ l h.2⟩
  obtain ⟨hpending,hactive,htoken⟩ := hf l
  simp only [expected,seen,hpending,hactive,htoken]

theorem part_checkStop (hφ : ∀ l, φ l → Exclusive l) : Part settings c mapping φ checkStop φ := by
  refine Part.bind (triple_read _) fun stopping => ?_
  cases stopping with
  | true => exact part_raise hφ _
  | false => exact triple_pure fun _ _ h => h

theorem part_log (hφ : ∀ l, φ l → Exclusive l) (log : RelayLog) (r : Except RelayError Unit) :
    Part settings c mapping φ (logEgressEvent c.worker log r) φ :=
  Part.bind (triple_quiet (quiet_note fun _ => rfl)) fun _ => part_answer hφ r

theorem Waiting.exclusive {l : Locals} (h : Waiting l) : Exclusive l := fun _ => h.active

theorem Relaying.exclusive {l : Locals} (h : Relaying l) : Exclusive l := fun hpending => by
  rw [h.pending] at hpending
  cases hpending

/-- The two flags follow the slot in both cases of the promotion. -/
theorem part_promote : Part settings c mapping Waiting (promoteOrRaise settings c) Relaying := by
  have hspec : ∀ l s, Owns c mapping Waiting l s → Inv settings s →
      Inv settings (promoteActive settings c.worker c.source s).2 ∧
        Touches c.worker s (promoteActive settings c.worker c.source s).2 ∧
        (promoteActive settings c.worker c.source s).2.view c.worker =
          if (promoteActive settings c.worker c.source s).1 then
            seen c.source mapping.generation { l with active := true } false true [] [] [] 0
          else seen c.source mapping.generation l false false [.pending] [] [] 0 := by
    rintro l s ⟨hview,hl⟩ hs
    have hmem : (c.worker,c.source) ∈ s.pending.holders := mem_of_view_pending (by
      rw [hview]
      simp [expected,seen,hl.pending])
    obtain ⟨hs',htouches,hview'⟩ := promoteActive_spec hs hmem (hview.symm ▸ running_expected _ _ l)
    refine ⟨hs',htouches,hview'.trans ?_⟩
    rw [hview]
    split_ifs
    · simp [expected,seen,hl.pending,hl.active,hl.token,Ledger.add]
    · simp [expected,seen,hl.pending,hl.active,hl.token,Ledger.add]
  refine triple_locked_bind sees_stable (fun l s h hs => ⟨(hspec l s h hs).1,(hspec l s h hs).2.1⟩)
    fun l s h hs => ?_
  have hview := (hspec l s h hs).2.2
  have hl := h.2
  generalize promoteActive settings c.worker c.source s = r at hview ⊢
  obtain ⟨promoted,s'⟩ := r
  cases promoted with
  | true =>
    refine triple_assign ?_
    rintro _ _ ⟨rfl,rfl⟩
    refine ⟨hview.trans ?_,rfl,rfl,hl.token⟩
    simp [expected,seen]
  | false =>
    refine Triple.bind (Q:=fun _ => Owns c mapping Exclusive) (triple_assign ?_) fun _ => ?_
    · rintro _ _ ⟨rfl,rfl⟩
      refine ⟨hview.trans ?_,fun hpending => by cases hpending⟩
      simp [expected,seen,hl.active]
    · exact triple_raise fun _ _ h => h

theorem part_register : Part settings c mapping Relaying (registerControlFlow c) Exclusive := by
  unfold registerControlFlow
  cases c.answers.registerControlFlow with
  | error e => exact part_raise (fun _ => Relaying.exclusive) e
  | ok token =>
    have hproper : ∀ l, Relaying l → Proper { expected c.source mapping.generation l with
        ledger := (expected c.source mapping.generation l).ledger.add (.registered token) } := fun l _ =>
      Running.proper ⟨List.cons_ne_nil _ _,rfl⟩
    refine Triple.bind (triple_note (.registered token) hproper) fun _ => triple_assign fun l s h => ?_
    refine ⟨h.1.trans ?_,h.2.exclusive⟩
    simp [expected,seen,Ledger.add,h.2.token]

theorem part_serve : Part settings c mapping Waiting (serve settings c mapping) Exclusive := by
  have hwaiting : ∀ l, Waiting l → Exclusive l := fun _ => Waiting.exclusive
  have hrelaying : ∀ l, Relaying l → Exclusive l := fun _ => Relaying.exclusive
  have hexclusive : ∀ l, Exclusive l → Exclusive l := fun _ h => h
  unfold serve
  refine (part_checkStop hwaiting).bind fun _ => (part_answer hwaiting _).bind fun _ =>
    (part_answer hwaiting _).bind fun hello => Part.bind (q:=Waiting) ?_ fun _ => ?_
  · exact part_assign (fun _ => ⟨rfl,rfl,rfl⟩) fun _ h => ⟨h.pending,h.active,h.token⟩
  refine triple_ite (fun _ => part_raise hwaiting _) fun _ => ?_
  refine (part_checkStop hwaiting).bind fun _ => part_promote.bind fun _ => (part_answer hrelaying _).bind fun _ =>
    (part_answer hrelaying _).bind fun _ => Part.bind (q:=Relaying) ?_ fun _ => ?_
  · exact part_assign (fun _ => ⟨rfl,rfl,rfl⟩) fun _ h => ⟨h.pending,h.active,h.token⟩
  refine Part.bind (triple_quiet ⟨fun _ => rfl,fun _ => rfl,fun _ _ => rfl⟩) fun _ =>
    (part_answer hrelaying _).bind fun _ => (part_answer hrelaying _).bind fun _ =>
    (part_checkStop hrelaying).bind fun _ => (part_answer hrelaying _).bind fun sourcePort =>
    part_register.bind fun _ => (part_answer hexclusive _).bind fun _ =>
    (part_answer hexclusive _).bind fun activated => ?_
  refine triple_ite (fun _ => part_raise hexclusive _) fun _ => ?_
  exact (part_log hexclusive _ _).bind fun _ => (part_log hexclusive _ _).bind fun _ => part_answer hexclusive _

theorem part_deny (e : RelayError) : Part settings c mapping Exclusive (deny c mapping e) Exclusive := by
  have hexclusive : ∀ l, Exclusive l → Exclusive l := fun _ h => h
  have hdone : Part settings c mapping Exclusive (pure ()) Exclusive := triple_pure fun _ _ h => h
  unfold deny
  refine Part.bind (triple_read _) fun stopping => triple_ite (fun _ => ?_) fun _ => hdone
  refine Part.bind (triple_read _) fun quiescing => triple_ite (fun _ => ?_) fun _ => hdone
  refine Part.bind (q:=Exclusive) (triple_locals fun _ _ h => h) fun l => ?_
  refine Part.bind (q:=Exclusive) (part_assign (fun _ => ⟨rfl,rfl,rfl⟩) fun _ h => h) fun _ => ?_
  exact part_log hexclusive _ _

/-- The last slot the worker had. -/
def lastSlot (l : Locals) : Slot := if l.active then .active else .pending

/-- The tokens that have to be revoked. -/
def tokens (l : Locals) : List String := l.token.toList.filter (· ≠ "")

/-- A part of the `finally` block, which finds the local variables `l₀`. -/
def Cleanup (settings : Settings) (w : ℕ) (l₀ : Locals) (V : View) (m : Worker Unit) (V' : View) : Prop :=
  Triple (Inv settings) (Spares w) (Touches w) (Sees w (fun _ => V) (· = l₀)) m
    (fun _ => Sees w (fun _ => V') (· = l₀)) fun _ _ => False

variable {l₀ : Locals} {V₁ V₂ V₃ : View}

theorem Cleanup.bind {U : View} {m : Worker Unit} {k : Unit → Worker Unit} (hm : Cleanup settings w l₀ V₁ m U)
    (hk : Cleanup settings w l₀ U (k ()) V₃) : Cleanup settings w l₀ V₁ (m >>= k) V₃ :=
  Triple.bind hm fun _ => hk

theorem cleanup_done (V : View) : Cleanup settings w l₀ V (pure ()) V := triple_pure fun _ _ h => h

theorem cleanup_quiet {f : State → State} (hf : Quiet f) (V : View) : Cleanup settings w l₀ V (Routine.modify f) V :=
  triple_quiet hf

theorem cleanup_note (e : Event) {V : View} (h : Proper { V with ledger := V.ledger.add e }) :
    Cleanup settings w l₀ V (Routine.modify (State.note w e)) { V with ledger := V.ledger.add e } :=
  triple_note e fun _ _ => h

theorem cleanup_disconnect (connection : Connection) (abortive : Bool) (V : View) :
    Cleanup settings c.worker l₀ V (disconnect c connection abortive) V := by
  refine Cleanup.bind (U:=V) (cleanup_quiet ?_ V) (cleanup_quiet (quiet_note fun _ => rfl) V)
  exact ⟨fun _ => rfl,fun _ => rfl,fun _ _ => rfl⟩

theorem cleanup_releasePending (hpending : l₀.pending = true) (hactive : l₀.active = false) :
    Cleanup settings c.worker l₀ (expected c.source generation l₀)
      (Routine.modify (releasePending c.worker c.source))
      (seen c.source generation l₀ false false [.pending] [] [] 0) := by
  refine triple_locked sees_stable fun l s h hs => ?_
  have hmem : (c.worker,c.source) ∈ s.pending.holders := mem_of_view_pending (by
    rw [h.1]
    simp [expected,seen,hpending])
  obtain ⟨hs',htouches,hview⟩ := releasePendingLocked_spec hs hmem (h.1.symm ▸ running_expected _ _ l₀)
  refine ⟨hs',htouches,hview.trans ?_,h.2⟩
  rw [h.1]
  simp [expected,seen,hpending,hactive,Ledger.add]

theorem cleanup_releaseActive (hpending : l₀.pending = false) (hactive : l₀.active = true) :
    Cleanup settings c.worker l₀ (expected c.source generation l₀)
      (Routine.modify (releaseActive c.worker c.source))
      (seen c.source generation l₀ false false [.active] [] [] 0) := by
  refine triple_locked sees_stable fun l s h hs => ?_
  have hmem : (c.worker,c.source) ∈ s.active.holders := mem_of_view_active (by
    rw [h.1]
    simp [expected,seen,hactive])
  obtain ⟨hs',htouches,hview⟩ := releaseActive_spec hs hmem (h.1.symm ▸ running_expected _ _ l₀)
  refine ⟨hs',htouches,hview.trans ?_,h.2⟩
  rw [h.1]
  simp [expected,seen,hpending,hactive,Ledger.add]

/-- The flags release the slot that the worker has, if it has one. -/
theorem cleanup_releaseSlots (hl : Exclusive l₀) :
    Cleanup settings c.worker l₀ (expected c.source generation l₀) (releaseSlots c l₀)
      (seen c.source generation l₀ false false [lastSlot l₀] [] [] 0) := by
  unfold releaseSlots lastSlot
  cases hpending : l₀.pending with
  | true =>
    have hactive := hl hpending
    rw [hactive]
    exact Cleanup.bind (cleanup_releasePending hpending hactive) (cleanup_done _)
  | false =>
    cases hactive : l₀.active with
    | true => exact cleanup_releaseActive hpending hactive
    | false =>
      have hview : expected c.source generation l₀ =
          seen c.source generation l₀ false false [.pending] [] [] 0 := by
        simp [expected,hpending,hactive]
      rw [hview]
      exact cleanup_done _

theorem cleanup_revokeToken : Cleanup settings c.worker l₀
    (seen c.source generation l₀ false false [lastSlot l₀] [] [] 0) (revokeToken c l₀)
    (seen c.source generation l₀ false false [lastSlot l₀] (tokens l₀) [] 0) := by
  unfold revokeToken tokens
  cases l₀.token with
  | none => exact cleanup_done _
  | some token =>
    by_cases htoken : token = ""
    · simpa [htoken] using cleanup_done _
    · have hnote : Cleanup settings c.worker l₀ (seen c.source generation l₀ false false [lastSlot l₀] [] [] 0)
          (Routine.modify (State.note c.worker (.revoked token))) _ :=
        cleanup_note (.revoked token) (Running.proper ⟨List.cons_ne_nil _ _,rfl⟩)
      simpa [htoken,seen,Ledger.add] using hnote

theorem settled_seen (source : Addr) (generation : ℕ) (l : Locals) :
    Settled (seen source generation l false false [lastSlot l] (tokens l) [generation] 1).ledger := by
  refine ⟨?_,rfl,source,generation,rfl,rfl⟩
  unfold seen lastSlot
  cases l.active with
  | true => exact .inr ⟨rfl,rfl⟩
  | false => exact .inl ⟨rfl,rfl⟩

theorem cleanup_finish : Cleanup settings c.worker l₀
    (seen c.source generation l₀ false false [lastSlot l₀] (tokens l₀) [generation] 0)
    (Routine.modify fun s => { s with workers := s.workers.erase c.worker }.note c.worker .finished)
    (seen c.source generation l₀ false false [lastSlot l₀] (tokens l₀) [generation] 1) := by
  refine triple_locked sees_stable fun l s h hs => ?_
  have hs₀ : Inv settings { s with workers := s.workers.erase c.worker } :=
    ⟨hs.pending,hs.active,hs.pendingWithin,hs.activeWithin,hs.proper⟩
  have hview : ({ s with workers := s.workers.erase c.worker }.note c.worker .finished).view c.worker =
      seen c.source generation l₀ false false [lastSlot l₀] (tokens l₀) [generation] 1 := by
    rw [view_note_self]
    show { s.view c.worker with ledger := (s.view c.worker).ledger.add .finished } = _
    rw [h.1]
    rfl
  refine ⟨hs₀.note .finished ?_,touches_note c.worker .finished { s with workers := s.workers.erase c.worker },hview,h.2⟩
  rw [hview]
  exact ⟨fun x hx => absurd hx (by simp [seen]),fun _ => settled_seen _ _ _⟩

theorem cleanup_closeConnections (V : View) : Cleanup settings c.worker l₀ V (closeConnections c l₀) V := by
  refine Cleanup.bind (cleanup_disconnect _ _ V) (triple_ite (fun _ => ?_) fun _ => cleanup_done V)
  exact cleanup_disconnect _ _ V

theorem cleanup_cleanUp (hl : Exclusive l₀) : Cleanup settings c.worker l₀
    (expected c.source mapping.generation l₀) (cleanUp c mapping l₀)
    (seen c.source mapping.generation l₀ false false [lastSlot l₀] (tokens l₀) [mapping.generation] 1) := by
  have hclosed : Cleanup settings c.worker l₀
      (seen c.source mapping.generation l₀ false false [lastSlot l₀] (tokens l₀) [] 0)
      (Routine.modify (State.note c.worker (.closed mapping.generation)))
      (seen c.source mapping.generation l₀ false false [lastSlot l₀] (tokens l₀) [mapping.generation] 0) :=
    cleanup_note _ (Running.proper ⟨List.cons_ne_nil _ _,rfl⟩)
  refine (cleanup_releaseSlots hl).bind (cleanup_revokeToken.bind ?_)
  refine (cleanup_quiet (quiet_note fun _ => rfl) _).bind ((cleanup_closeConnections _).bind ?_)
  exact hclosed.bind cleanup_finish

/-- A worker that has taken a slot is at its end. -/
def Ended (w : ℕ) (s : State) : Prop := (s.view w).ledger.acquired ≠ [] → (s.view w).ledger.finished ≠ 0

theorem teardown_spec : Triple (Inv settings) (Spares c.worker) (Touches c.worker) (Owns c mapping Exclusive)
    (teardown c mapping) (fun _ _ => Ended c.worker) fun _ => Ended c.worker := by
  have hlocals : Triple (Inv settings) (Spares c.worker) (Touches c.worker) (Owns c mapping Exclusive)
      (locals : Worker Locals) (fun l₀ => Sees c.worker (fun _ => expected c.source mapping.generation l₀)
        fun l => l = l₀ ∧ Exclusive l₀) fun _ => Ended c.worker :=
    triple_locals fun l s h => ⟨h.1,rfl,h.2⟩
  refine Triple.bind hlocals fun l₀ => ?_
  by_cases hl : Exclusive l₀
  · refine Triple.mono (cleanup_cleanUp hl) (fun l s h => ⟨h.1,h.2.1⟩) (fun _ l s h _ => ?_) fun _ _ h => h.elim
    rw [h.1]
    exact one_ne_zero
  · exact fun l s h => absurd h.2.2 hl

theorem handleClient_spec : Triple (Inv settings) (Spares c.worker) (Touches c.worker) (Owns c mapping Waiting)
    (handleClient settings c mapping) (fun _ _ => Ended c.worker) fun _ => Ended c.worker := by
  refine Triple.bind (triple_quiet ⟨fun _ => rfl,fun _ => rfl,fun _ _ => rfl⟩) fun _ => ?_
  exact triple_tryFinally (triple_tryExcept part_serve part_deny) teardown_spec

/-- The view of a worker that has done nothing. -/
def unseen : View := ⟨fun _ => 0,fun _ => 0,ledger []⟩

theorem refused_spec (g : ℕ) (log : RelayLog) (r : Except RelayError Unit) :
    Triple (Inv settings) (Spares w) (Touches w) (Sees w (fun _ => unseen) (· = Locals.init))
      (Routine.modify (State.note w (.closed g)) >>= fun _ => logEgressEvent w log r)
      (fun _ _ => Ended w) fun _ => Ended w := by
  have hclosed : Triple (Inv settings) (Spares w) (Touches w) (Sees w (fun _ => unseen) (· = Locals.init))
      (Routine.modify (State.note w (.closed g)) : Worker Unit)
      (fun _ => Sees w (fun _ => { unseen with ledger := unseen.ledger.add (.closed g) }) (· = Locals.init))
      fun _ => Ended w := triple_note _ fun l _ => ⟨fun x h => absurd h (by simp [unseen]),fun h => absurd rfl h⟩
  refine hclosed.bind fun _ => Triple.bind (triple_quiet (quiet_note fun _ => rfl)) fun _ => ?_
  refine triple_answer (fun _ l s h hacquired => ?_) fun l s h hacquired => ?_ <;>
  · rw [h.1] at hacquired
    exact absurd rfl hacquired

theorem ended_of_unseen {φ : Locals → Prop} {l : Locals} (h : Sees w (fun _ => unseen) φ l s) : Ended w s := by
  intro hacquired
  rw [h.1] at hacquired
  exact absurd rfl hacquired

theorem acceptClient_spec : Triple (Inv settings) (Spares c.worker) (Touches c.worker)
    (Sees c.worker (fun _ => unseen) (· = Locals.init)) (acceptClient settings c)
    (fun _ _ => Ended c.worker) fun _ => Ended c.worker := by
  refine Triple.bind (triple_read _) fun stopping => triple_ite (fun _ => triple_pure fun _ _ => ended_of_unseen)
    fun _ => ?_
  refine Triple.bind (triple_read _) fun quiescing => ?_
  refine Triple.bind (triple_answer (fun _ _ _ h => h) fun _ _ => ended_of_unseen) fun target => ?_
  cases target with
  | none =>
    refine Triple.bind (triple_quiet (quiet_note fun _ => rfl)) fun _ => ?_
    exact triple_answer (fun _ _ _ => ended_of_unseen) fun _ _ => ended_of_unseen
  | some mapping =>
    refine triple_ite (fun _ => refused_spec _ _ _) fun _ => ?_
    have hspec : ∀ l s, Sees c.worker (fun _ => unseen) (· = Locals.init) l s → Inv settings s →
        (acquirePending settings c.worker c.source mapping.generation s).1 = true →
        Inv settings (acquirePending settings c.worker c.source mapping.generation s).2 ∧
          Touches c.worker s (acquirePending settings c.worker c.source mapping.generation s).2 ∧
          (acquirePending settings c.worker c.source mapping.generation s).2.view c.worker =
            expected c.source mapping.generation Locals.init :=
      fun l s h hs hacquired => acquirePending_spec hs h.1 hacquired
    refine triple_locked_bind sees_stable (fun l s h hs => ?_) fun l s h hs => ?_
    · cases hacquired : (acquirePending settings c.worker c.source mapping.generation s).1 with
      | true => exact ⟨(hspec l s h hs hacquired).1,(hspec l s h hs hacquired).2.1⟩
      | false =>
        rw [acquirePending_refused hacquired]
        exact ⟨hs,fun _ _ => rfl⟩
    · refine triple_ite (fun hacquired => ?_) fun hacquired => ?_
      · refine Triple.mono (Triple.bind (triple_quiet ⟨fun _ => rfl,fun _ => rfl,fun _ _ => rfl⟩)
          fun _ => handleClient_spec) ?_ (fun _ _ _ h => h) fun _ _ h => h
        rintro _ _ ⟨rfl,rfl⟩
        refine ⟨(hspec _ s h hs hacquired).2.2.trans ?_,?_⟩
        · rw [h.2]
        · rw [h.2]
          exact ⟨rfl,rfl,rfl⟩
      · refine Triple.mono (refused_spec _ _ _) ?_ (fun _ _ _ h => h) fun _ _ h => h
        rintro _ _ ⟨rfl,rfl⟩
        rw [acquirePending_refused (Bool.eq_false_iff.mpr hacquired)]
        exact h

namespace RelayCall

def spares : RelayCall → State → State → Prop
  | accept c => Spares c.worker
  | _ => fun _ _ => True

def touches : RelayCall → State → State → Prop
  | accept c => Touches c.worker
  | _ => fun s s' => ∀ v, s'.view v = s.view v

def ends : RelayCall → State → Prop
  | accept c => Ended c.worker
  | _ => fun _ => True

/-- No two clients have the same worker. -/
def apart : RelayCall → RelayCall → Prop
  | accept c, accept d => c.worker ≠ d.worker
  | _, _ => True

theorem touches_view {d : RelayCall} (h : d.touches s s') (hw : ∀ c, d = .accept c → c.worker ≠ w) :
    s'.view w = s.view w := by
  cases d with
  | accept c => exact h w (hw c rfl).symm
  | stop => exact h w
  | quiesce reason logged => exact h w

theorem flag_safe {f : State → State} (hf : Quiet f) (r : Except RelayError Unit) {d : RelayCall}
    (htouches : ∀ s s', (∀ v, s'.view v = s.view v) → d.touches s s') (hends : ∀ s, d.ends s) (s : State) :
    Pool.Safe (Inv settings) d.spares d.touches (fun _ => d.ends)
      ((Prog.locked fun s => ((),f s)).bind fun _ => (Prog.read State.connections).bind fun _ => .done r) s :=
  fun s' _ hs' => ⟨hf.inv hs',htouches _ _ (hf.view s'),fun _ _ hs'' => ⟨hs'',htouches _ _ fun _ => rfl,hends _⟩⟩

end RelayCall

theorem unseen_of_journal (h : Inv settings s) (hjournal : s.journal w = []) : s.view w = unseen := by
  have hledger : (s.view w).ledger = ledger [] := congrArg ledger hjournal
  have hzero : ∀ x, (s.view w).pending x = 0 ∧ (s.view w).active x = 0 := by
    intro x
    by_contra hne
    have hslot : (s.view w).pending x ≠ 0 ∨ (s.view w).active x ≠ 0 := not_and_or.mp hne
    have hacquired := ((h.proper w).holding x hslot).1
    rw [hledger] at hacquired
    exact hacquired rfl
  ext1
  · exact funext fun x => (hzero x).1
  · exact funext fun x => (hzero x).2
  · exact hledger

theorem relay_refl (c : RelayCall) (s : State) : c.spares s s := by
  cases c with
  | accept c => rfl
  | _ => trivial

theorem relay_outline (settings : Settings) : Pool.Outline (RelayCall.body settings) ownWorker (Inv settings)
    (fun c p s => Pool.Safe (Inv settings) c.spares c.touches (fun _ => c.ends) p s) RelayCall.apart := by
  refine Pool.outline_of_safe relay_refl (fun c a b d => ?_) (fun c a s s' => ?_) (fun c d hapart s s' => ?_)
    (fun P c hallowed hs => ?_) fun P c hallowed t d q hd => ?_
  · cases c with
    | accept c => exact fun h h' => Eq.trans h' h
    | _ => exact fun _ _ => trivial
  · cases c with
    | accept c =>
      intro h hspares hacquired
      rw [hspares] at hacquired ⊢
      exact h hacquired
    | _ => exact fun _ _ => trivial
  · cases d with
    | accept d =>
      refine fun h => RelayCall.touches_view h ?_
      rintro c rfl
      exact hapart
    | _ => exact fun _ => trivial
  · cases c with
    | accept c =>
      refine Pool.Safe.bind (acceptClient_spec _ _ ⟨unseen_of_journal hs hallowed.1,rfl⟩) ?_
      rintro ⟨e | a,l⟩ s' ⟨hpost,hfail⟩
      · exact hfail e rfl
      · exact hpost a rfl
    | stop =>
      exact RelayCall.flag_safe (d:=.stop) (f:=fun s => { s with stop := true })
        ⟨fun _ => rfl,fun _ => rfl,fun _ _ => rfl⟩ _ (fun _ _ h => h) (fun _ => trivial) _
    | quiesce reason logged =>
      exact RelayCall.flag_safe (d:=.quiesce reason logged) (f:=fun s => { s with quiesce := true })
        ⟨fun _ => rfl,fun _ => rfl,fun _ _ => rfl⟩ _ (fun _ _ h => h) (fun _ => trivial) _
  · cases c with
    | accept c =>
      cases d with
      | accept d => exact ⟨(hallowed.2 t d q hd).symm,hallowed.2 t d q hd⟩
      | _ => exact ⟨trivial,trivial⟩
    | _ =>
      cases d <;> exact ⟨trivial,trivial⟩

variable {P P' : Pool State RelayCall (Except RelayError Unit)}

/-- The worker's thread has not returned. -/
def InFlight (P : Pool State RelayCall (Except RelayError Unit)) (w : ℕ) : Prop :=
  ∃ t c p, P.threads t = some (.accept c,p) ∧ c.worker = w

theorem inFlight_of_ne {t : ℕ} {x : Option (RelayCall × Prog State (Except RelayError Unit))} {s : State}
    (h : InFlight P w) (hx : ∀ c p, P.threads t = some (.accept c,p) → c.worker ≠ w) : InFlight (P.move s t x) w := by
  obtain ⟨u,c,p,hthread,hw⟩ := h
  refine ⟨u,c,p,?_,hw⟩
  rw [Pool.move_threads_of_ne]
  · exact hthread
  · rintro rfl
    exact hx c p hthread hw

/-- A worker that has taken a slot is in flight or at its end. -/
theorem inFlight_of_steps (h : Pool.Steps (RelayCall.body settings) ownWorker (Pool.start State.init) P) :
    ∀ w, (P.shared.view w).ledger.acquired ≠ [] → (P.shared.view w).ledger.finished ≠ 0 ∨ InFlight P w := by
  induction h with
  | refl => exact fun w hacquired => absurd rfl hacquired
  | @tail Q _ hrun hstep ih =>
    have hpool := Pool.outlined_steps (relay_outline settings) hrun (Pool.outlined_start (inv_init settings))
    intro w hacquired
    cases hstep with
    | call t c hidle hallowed =>
      refine (ih w hacquired).imp_right fun hflight => inFlight_of_ne hflight fun c' p hthread => ?_
      rw [hidle] at hthread
      cases hthread
    | exec t d f k hthread =>
      by_cases hw : ∃ c, d = .accept c ∧ c.worker = w
      · obtain ⟨c,rfl,hworker⟩ := hw
        exact .inr ⟨t,c,_,Pool.move_threads_self _ _ _ _,hworker⟩
      · have hsafe := hpool.threads t d _ hthread _ (relay_refl d _) hpool.shared
        have hview : ((Q.move (f Q.shared) t (some (d,k Q.shared))).shared).view w = Q.shared.view w :=
          RelayCall.touches_view hsafe.2.1 fun c hc hworker => hw ⟨c,hc,hworker⟩
        rw [hview] at hacquired ⊢
        refine (ih w hacquired).imp_right fun hflight => inFlight_of_ne hflight fun c p hc hworker => ?_
        rw [hthread] at hc
        cases hc
        exact hw ⟨c,rfl,hworker⟩
    | ret t d r hthread =>
      by_cases hw : ∃ c, d = .accept c ∧ c.worker = w
      · obtain ⟨c,rfl,rfl⟩ := hw
        exact .inl (hpool.threads t _ _ hthread hacquired)
      · refine (ih w hacquired).imp_right fun hflight => inFlight_of_ne hflight fun c p hc hworker => ?_
        rw [hthread] at hc
        cases hc
        exact hw ⟨c,rfl,hworker⟩

/-- In every state of the relay the counters are within their limits, a worker that has taken a slot is
in flight or has released exactly one, revoked its token and closed its mapping, and the counters are at
zero where no worker is in flight. -/
theorem workers_release_once (settings : Settings)
    (h : Pool.Steps (RelayCall.body settings) ownWorker (Pool.start State.init) P) :
    (P.shared.pending.Within settings.maxPending settings.maxPendingPerSource ∧
      P.shared.active.Within settings.maxActive settings.maxActivePerSource) ∧
    (∀ w, (ledger (P.shared.journal w)).acquired ≠ [] →
      Settled (ledger (P.shared.journal w)) ∨ InFlight P w) ∧
    (∀ t c r, P.threads t = some (.accept c,.done r) →
      (ledger (P.shared.journal c.worker)).acquired ≠ [] → Settled (ledger (P.shared.journal c.worker))) ∧
    ((∀ w, ¬InFlight P w) → P.shared.pending = .empty ∧ P.shared.active = .empty) := by
  have hpool := Pool.outlined_steps (relay_outline settings) h (Pool.outlined_start (inv_init settings))
  have hinv := hpool.shared
  have hlive := inFlight_of_steps h
  refine ⟨⟨hinv.pendingWithin,hinv.activeWithin⟩,fun w hacquired => (hlive w hacquired).imp_left (hinv.proper w).settled,
    fun t c r hthread hacquired => ?_,fun hnone => ?_⟩
  · exact (hinv.proper c.worker).settled (hpool.threads t _ _ hthread hacquired)
  · have hidle : ∀ w x, (P.shared.view w).pending x = 0 ∧ (P.shared.view w).active x = 0 := by
      intro w x
      by_contra hne
      have hslot : (P.shared.view w).pending x ≠ 0 ∨ (P.shared.view w).active x ≠ 0 := not_and_or.mp hne
      obtain ⟨hacquired,hfinished⟩ := (hinv.proper w).holding x hslot
      exact (hlive w hacquired).elim (fun h => h hfinished) (hnone w)
    refine ⟨hinv.pending.eq_empty (List.eq_nil_iff_forall_not_mem.mpr fun ⟨w,x⟩ hmem => ?_),
      hinv.active.eq_empty (List.eq_nil_iff_forall_not_mem.mpr fun ⟨w,x⟩ hmem => ?_)⟩
    · exact List.count_pos_iff.mpr hmem |>.ne' (hidle w x).1
    · exact List.count_pos_iff.mpr hmem |>.ne' (hidle w x).2

/-- A client whose upstream server refuses the connection after the flow was filed. -/
def refusedUpstream : Client where
  worker := 7
  source := .dotted 10 0 0 5
  sport := 50000
  target := .ok (some ⟨1,"a.test",.dotted 10 0 0 5,50000,.dotted 93 184 216 34,443,.dotted 10 0 0 5,38927,0⟩)
  logRejected := .ok ()
  answers :=
    { clientTimeout := .ok ()
      readClientHello := .ok ([22,3,1],"a.test")
      selectSourceIPv4 := .ok (.dotted 10 0 0 5)
      socket := .ok ()
      upstreamTimeout := .ok ()
      bind := .ok ()
      getsockname := .ok 51000
      registerControlFlow := .ok "3f2a"
      connect := .error (.other "ConnectionRefusedError" "refused")
      activateRelayMapping := .ok true
      logAllow := .ok ()
      logUpstream := .ok ()
      relay := .ok ()
      logDeny := .error (.other "OSError" "log") }

def reviewedSettings : Settings := ⟨256,32,128,16⟩

def afterRefused : State := ((RelayCall.body reviewedSettings (.accept refusedUpstream)).run State.init).2

theorem workers_release_once_example :
    Settled (ledger (afterRefused.journal 7)) ∧ (ledger (afterRefused.journal 7)).released = [.active] ∧
      (ledger (afterRefused.journal 7)).revoked = ["3f2a"] ∧ afterRefused.active = .empty := by
  have hcall : Pool.Step (RelayCall.body reviewedSettings) ownWorker (Pool.start State.init)
      ((Pool.start State.init).move State.init 0
        (some (.accept refusedUpstream,RelayCall.body reviewedSettings (.accept refusedUpstream)))) :=
    Pool.Step.call 0 _ rfl ⟨rfl,fun t d q hd => by cases hd⟩
  have hrun : Pool.Steps (RelayCall.body reviewedSettings) ownWorker _
      ((Pool.start State.init).move afterRefused 0 none) :=
    Pool.steps_run (Pool.start State.init) 0 (.accept refusedUpstream) _ State.init
  have hnone : ∀ w, ¬InFlight ((Pool.start State.init).move afterRefused 0 none) w := by
    rintro w ⟨t,c,p,hthread,-⟩
    by_cases ht : t = 0
    · subst ht
      rw [Pool.move_threads_self] at hthread
      cases hthread
    · rw [Pool.move_threads_of_ne _ _ _ ht] at hthread
      cases hthread
  have hreleased := workers_release_once reviewedSettings ((Relation.ReflTransGen.single hcall).trans hrun)
  refine ⟨(hreleased.2.1 7 (by decide)).resolve_right (hnone 7),by decide,by decide,
    (hreleased.2.2.2 hnone).2⟩

end RelayWorkers
end FakeNetNG
