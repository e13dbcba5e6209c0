import FakeNetNG.ExitRegistration

/-!
# Recovery of the registry

Wherever installs and restores stopped, the record still says what stood before the first of them,
and a restore that is let through brings it back.
-/

namespace FakeNetNG

namespace Registry

variable {r : Registry}

@[simp] theorem createKey_values (k : RegKey) (r : Registry) : (r.createKey k).values = r.values := rfl
@[simp] theorem createKey_other (k : RegKey) (r : Registry) : (r.createKey k).other = r.other := rfl

theorem createKey_keys_of_mem (k : RegKey) {j : RegKey} (h : r.keys j = true) :
    (r.createKey k).keys j = true := by
  simp [createKey,h]

@[simp] theorem createKey_keys_self (k : RegKey) (r : Registry) : (r.createKey k).keys k = true := by
  simp [createKey]

theorem createKey_of_mem {k : RegKey} (h : r.keys k = true) : r.createKey k = r := by
  refine Registry.ext (funext fun j => ?_) rfl rfl
  by_cases hj : r.keys j = true
  · simp [createKey,hj]
  · have hjk : j ≠ k := fun hjk => hj (hjk ▸ h)
    have hparent : k.parent ≠ some j := fun hp => hj (r.parents k j hp h)
    simp [createKey,hj,hjk,hparent]

theorem setValue_eq {slot : Slot} (h : r.keys slot.key = true) (v : RegValue) :
    (r.setValue slot v).keys = r.keys ∧ (r.setValue slot v).other = r.other ∧
      (r.setValue slot v).values = Function.update r.values slot (some v) := by
  simp [setValue,h]

theorem deleteKey_eq {k : RegKey} (h : r.isEmpty k = true) :
    (r.deleteKey k).keys = Function.update r.keys k false ∧ (r.deleteKey k).other = r.other ∧
      (r.deleteKey k).values = r.values := by
  simp [deleteKey,h]

end Registry

namespace ExitRegistration

open Fallible Faulty

variable {r₀ r r' r'' : Registry} {b : Registration} {s : ExitScene} {healthy : Prop}

/-- The record says what the registry was. -/
structure Recorded (r₀ : Registry) (b : Registration) : Prop where
  schema : b.schema = schemaText
  slots : b.entries.map (·.slot) = Slot.all
  before : ∀ entry ∈ b.entries, entry.before = r₀.values entry.slot
  created : b.createdKeys = missing r₀

theorem Recorded.exists_entry (h : Recorded r₀ b) (slot : Slot) :
    ∃ entry ∈ b.entries, entry.slot = slot := by
  have hslot : slot ∈ b.entries.map (·.slot) := by
    rw [h.slots]
    exact Slot.mem_all slot
  exact List.mem_map.mp hslot

theorem mem_missing {k : RegKey} : k ∈ missing r₀ ↔ r₀.keys k = false := by
  simp [missing,RegKey.mem_all]

/-- The registry is on the way between the original and the installed one. -/
structure Between (r₀ : Registry) (b : Registration) (r : Registry) : Prop where
  other : r.other = r₀.other
  keys : ∀ k, r₀.keys k = true → r.keys k = true
  values : ∀ entry ∈ b.entries,
    r.values entry.slot = r₀.values entry.slot ∨ r.values entry.slot = entry.after
  restored : b.phase = "restored" → r = r₀

theorem between_self (r₀ : Registry) (b : Registration) : Between r₀ b r₀ :=
  ⟨rfl,fun _ h => h,fun _ _ => Or.inl rfl,fun _ => rfl⟩

/-- What holds of every scene that installs and restores leave. -/
def Recoverable (r₀ : Registry) (s : ExitScene) : Prop :=
  match s.record with
  | none => s.registry = r₀
  | some b => Recorded r₀ b ∧ Between r₀ b s.registry

/-- Nothing is left to restore. -/
def Settled (r₀ : Registry) (s : ExitScene) : Prop :=
  s.registry = r₀ ∧ ∀ b, s.record = some b → b.phase = "restored" ∧ Recorded r₀ b

theorem Settled.recoverable (h : Settled r₀ s) : Recoverable r₀ s := by
  obtain ⟨hregistry,hrecord⟩ := h
  unfold Recoverable
  cases hb : s.record with
  | none => exact hregistry
  | some b =>
    obtain ⟨-,hrecorded⟩ := hrecord b hb
    rw [hregistry]
    exact ⟨hrecorded,between_self r₀ b⟩

/-- A step of `restore` leaves each value and each key or puts back the original. -/
structure Toward (r₀ r r' : Registry) : Prop where
  values : ∀ slot, r'.values slot = r.values slot ∨ r'.values slot = r₀.values slot
  keys : ∀ k, r'.keys k = true → r.keys k = true
  kept : ∀ k, r₀.keys k = true → r.keys k = true → r'.keys k = true
  other : r'.other = r.other

theorem toward_refl (r₀ r : Registry) : Toward r₀ r r :=
  ⟨fun _ => Or.inl rfl,fun _ h => h,fun _ _ h => h,rfl⟩

theorem Toward.trans (h : Toward r₀ r r') (h' : Toward r₀ r' r'') : Toward r₀ r r'' where
  values slot := by
    rcases h'.values slot with hv | hv
    · rw [hv]
      exact h.values slot
    · exact Or.inr hv
  keys k hk := h.keys k (h'.keys k hk)
  kept k hk₀ hk := h'.kept k hk₀ (h.kept k hk₀ hk)
  other := h'.other.trans h.other

theorem Toward.value_eq (h : Toward r₀ r r') {slot : Slot} (hslot : r.values slot = r₀.values slot) :
    r'.values slot = r₀.values slot := by
  rcases h.values slot with hv | hv
  · rw [hv,hslot]
  · exact hv

theorem Between.toward (h : Between r₀ b r) (ht : Toward r₀ r r') : Between r₀ b r' where
  other := ht.other.trans h.other
  keys k hk := ht.kept k hk (h.keys k hk)
  values entry hentry := by
    rcases ht.values entry.slot with hv | hv
    · rw [hv]
      exact h.values entry hentry
    · exact Or.inl hv
  restored hphase := by
    have hr : r = r₀ := h.restored hphase
    subst hr
    refine Registry.ext (funext fun k => ?_) (funext fun slot => ?_) ht.other
    · rw [Bool.eq_iff_iff]
      exact ⟨ht.keys k,fun hk => ht.kept k hk hk⟩
    · exact (ht.values slot).elim id id

/-- The registry goes toward the original, with the record as it is. -/
def Goes (r₀ : Registry) (s t : ExitScene) : Prop :=
  t.record = s.record ∧ Toward r₀ s.registry t.registry

theorem goes_refl (r₀ : Registry) (s : ExitScene) : Goes r₀ s s := ⟨rfl,toward_refl _ _⟩

theorem Goes.trans {t u : ExitScene} (h : Goes r₀ s t) (h' : Goes r₀ t u) : Goes r₀ s u :=
  ⟨h'.1.trans h.1,h.2.trans h'.2⟩

theorem read_meets {Q : Option RegValue → ExitScene → Prop} {R : ExitScene → Prop} (slot : Slot)
    (h : Q (s.registry.values slot) s) (hfail : R s) : Meets healthy (read slot) Q R s :=
  meets_attempt h fun _ => ⟨hfail,hfail⟩

theorem onRegistry_meets {f : Registry → Registry} {Q : Unit → ExitScene → Prop}
    {R : ExitScene → Prop} (h : Q () { s with registry := f s.registry })
    (hfail : R s ∧ R { s with registry := f s.registry }) :
    Meets healthy (onRegistry f) Q R s := meets_attempt h fun _ => hfail

theorem write_meets {slot : Slot} {v : RegValue} (hkey : s.registry.keys slot.key = true)
    (hv : r₀.values slot = some v) :
    Meets healthy (write slot v) (fun _ t => Goes r₀ s t ∧ t.registry.values slot = some v)
      (Goes r₀ s) s := by
  have hcreate : ∀ k, s.registry.keys k = true →
      Meets healthy (onRegistry (Registry.createKey k)) (fun _ t => t = s) (Goes r₀ s) s := by
    intro k hk
    have hsame : ({ s with registry := s.registry.createKey k } : ExitScene) = s := by
      rw [Registry.createKey_of_mem hk]
    exact onRegistry_meets hsame ⟨goes_refl r₀ s,by rw [hsame]; exact goes_refl r₀ s⟩
  obtain ⟨hkeys,hother,hvalues⟩ := Registry.setValue_eq hkey v
  have htoward : Toward r₀ s.registry (s.registry.setValue slot v) := by
    refine ⟨fun j => ?_,by simp [hkeys],by simp [hkeys],hother⟩
    by_cases hj : j = slot
    · subst hj
      exact Or.inr (by rw [hvalues,Function.update_self,hv])
    · exact Or.inl (by rw [hvalues,Function.update_of_ne hj])
  have hset : Meets healthy (onRegistry (Registry.setValue slot v))
      (fun _ t => Goes r₀ s t ∧ t.registry.values slot = some v) (Goes r₀ s) s := by
    refine onRegistry_meets ⟨⟨rfl,htoward⟩,?_⟩ ⟨goes_refl r₀ s,⟨rfl,htoward⟩⟩
    change (s.registry.setValue slot v).values slot = some v
    rw [hvalues,Function.update_self]
  have hown : Meets healthy (do
      onRegistry (Registry.createKey slot.key)
      onRegistry (Registry.setValue slot v))
      (fun _ t => Goes r₀ s t ∧ t.registry.values slot = some v) (Goes r₀ s) s := by
    refine (hcreate slot.key hkey).bind fun _ t ht => ?_
    rw [ht]
    exact hset
  unfold write
  cases hp : slot.key.parent with
  | none => exact hown
  | some p =>
    have hparent : s.registry.keys p = true := s.registry.parents slot.key p hp hkey
    exact (hcreate p hparent).bind fun _ t ht => ht ▸ hown

theorem deleteValue_meets {slot : Slot} (hslot : s.registry.values slot ≠ none)
    (hv : r₀.values slot = none) :
    Meets healthy (deleteValue slot) (fun _ t => Goes r₀ s t ∧ t.registry.values slot = none)
      (Goes r₀ s) s := by
  have htoward : Toward r₀ s.registry (s.registry.deleteValue slot) := by
    refine ⟨fun j => ?_,fun _ h => h,fun _ _ h => h,rfl⟩
    by_cases hj : j = slot
    · subst hj
      exact Or.inr ((Function.update_self _ _ _).trans hv.symm)
    · exact Or.inl (Function.update_of_ne hj _ _)
  refine (meets_state (Q:=fun a t => a = s ∧ t = s) ⟨rfl,rfl⟩).bind ?_
  rintro a t ⟨rfl,rfl⟩
  simp only [hslot,if_false]
  exact onRegistry_meets ⟨⟨rfl,htoward⟩,Function.update_self _ _ _⟩ ⟨goes_refl r₀ _,⟨rfl,htoward⟩⟩

theorem putBack_meets {entry : RegistrationEntry} (hb : Between r₀ b s.registry)
    (hbefore : entry.before = r₀.values entry.slot) (hactual : s.registry.values entry.slot ≠ entry.before) :
    Meets healthy (putBack entry)
      (fun _ t => Goes r₀ s t ∧ t.registry.values entry.slot = entry.before) (Goes r₀ s) s := by
  unfold putBack
  cases hv : entry.before with
  | none =>
    rw [hv] at hactual hbefore
    exact deleteValue_meets hactual hbefore.symm
  | some v =>
    rw [hv] at hbefore
    have hkey : r₀.keys entry.slot.key = true := r₀.owned entry.slot (by simp [← hbefore])
    exact write_meets (hb.keys _ hkey) hbefore.symm

theorem restoreSlot_meets {entry : RegistrationEntry} (hrecorded : Recorded r₀ b)
    (hb : Between r₀ b s.registry) (hentry : entry ∈ b.entries) :
    Meets healthy (restoreSlot entry)
      (fun _ t => Goes r₀ s t ∧ t.registry.values entry.slot = r₀.values entry.slot) (Goes r₀ s) s := by
  have hbefore : entry.before = r₀.values entry.slot := hrecorded.before entry hentry
  refine (read_meets (Q:=fun a t => a = s.registry.values entry.slot ∧ t = s) entry.slot
    ⟨rfl,rfl⟩ (goes_refl r₀ s)).bind ?_
  rintro a t ⟨rfl,rfl⟩
  split
  · rename_i hactual
    have hafter : t.registry.values entry.slot = entry.after := by
      rcases hb.values entry hentry with h | h
      · exact absurd (h.trans hbefore.symm) hactual
      · exact h
    simp only [hafter,ne_eq,not_true_eq_false,if_false]
    refine (putBack_meets hb hbefore hactual).bind ?_
    rintro - u ⟨hgoes,hvalue⟩
    refine (read_meets (Q:=fun a v => a = entry.before ∧ v = u) entry.slot
      ⟨hvalue,rfl⟩ hgoes).bind ?_
    rintro a v ⟨rfl,rfl⟩
    simp only [not_true_eq_false,if_false]
    exact meets_pure ⟨hgoes,hvalue.trans hbefore⟩
  · rename_i hactual
    exact meets_pure ⟨goes_refl r₀ t,(not_not.mp hactual).trans hbefore⟩

theorem restoreSlots_meets {entries : List RegistrationEntry} (hrecorded : Recorded r₀ b)
    (hb : Between r₀ b s.registry) (hentries : ∀ entry ∈ entries, entry ∈ b.entries) :
    Meets healthy (restoreSlots entries) (fun _ t => Goes r₀ s t ∧
      ∀ entry ∈ entries, t.registry.values entry.slot = r₀.values entry.slot) (Goes r₀ s) s := by
  induction entries generalizing s with
  | nil => exact meets_pure ⟨goes_refl r₀ s,by simp⟩
  | cons entry entries ih =>
    refine (restoreSlot_meets hrecorded hb (hentries entry (by simp))).bind ?_
    rintro - t ⟨hgoes,hvalue⟩
    refine (ih (hb.toward hgoes.2) fun e he => hentries e (by simp [he])).mono ?_ fun u hu =>
      hgoes.trans hu
    rintro - u ⟨hgoes',hvalues⟩
    refine ⟨hgoes.trans hgoes',fun e he => ?_⟩
    rcases List.mem_cons.mp he with rfl | he
    · exact hgoes'.2.value_eq hvalue
    · exact hvalues e he

/-- What is left to delete. -/
structure Surplus (r₀ : Registry) (keys : List RegKey) (r : Registry) : Prop where
  values : r.values = r₀.values
  other : r.other = r₀.other
  kept : ∀ k, r₀.keys k = true → r.keys k = true
  surplus : ∀ k, r.keys k = true → r₀.keys k = true ∨ k ∈ keys

theorem Surplus.eq (h : Surplus r₀ [] r) : r = r₀ := by
  refine Registry.ext (funext fun k => ?_) h.values h.other
  rw [Bool.eq_iff_iff]
  exact ⟨fun hk => (h.surplus k hk).elim id (by simp),h.kept k⟩

/-- A key that was created is empty once the keys below are gone. -/
theorem Surplus.isEmpty {k : RegKey} {keys : List RegKey} (h : Surplus r₀ (k :: keys) r)
    (hk : r₀.keys k = false) (hsorted : ∀ j ∈ keys, j.path.length ≤ k.path.length) :
    r.isEmpty k = true := by
  rw [Registry.isEmpty_iff]
  refine ⟨?_,?_,?_⟩
  · rw [h.other]
    by_contra hother
    simp [r₀.occupied k (by simpa using hother)] at hk
  · rintro slot rfl
    rw [h.values]
    by_contra hslot
    simp [r₀.owned slot hslot] at hk
  · intro j hj
    by_contra hpresent
    have hlonger : k.path.length < j.path.length := RegKey.length_parent_lt hj
    rcases h.surplus j (by simpa using hpresent) with hj₀ | hmem
    · simp [r₀.parents j k hj hj₀] at hk
    · rcases List.mem_cons.mp hmem with rfl | hmem
      · exact absurd hlonger (lt_irrefl _)
      · exact absurd (hsorted j hmem) (not_le.mpr hlonger)

theorem deleteEmptyKey_meets {k : RegKey} {keys : List RegKey}
    (h : Surplus r₀ (k :: keys) s.registry) (hk : r₀.keys k = false)
    (hsorted : ∀ j ∈ keys, j.path.length ≤ k.path.length) :
    Meets healthy (deleteEmptyKey k) (fun _ t => Goes r₀ s t ∧ Surplus r₀ keys t.registry)
      (Goes r₀ s) s := by
  have hempty : s.registry.isEmpty k = true := h.isEmpty hk hsorted
  refine (meets_attempt (Q:=fun a t => a = s.registry.keys k ∧ t = s) ⟨by simp [hempty],rfl⟩
    fun _ => ⟨goes_refl r₀ s,goes_refl r₀ s⟩).bind ?_
  rintro a t ⟨rfl,rfl⟩
  have hsurplus : ∀ j, j ≠ k → t.registry.keys j = true → r₀.keys j = true ∨ j ∈ keys := by
    intro j hjk hj
    rcases h.surplus j hj with hj | hj
    · exact Or.inl hj
    · exact Or.inr ((List.mem_cons.mp hj).resolve_left hjk)
  split
  · obtain ⟨hkeys,hother,hvalues⟩ := Registry.deleteKey_eq hempty
    have hne : ∀ j, r₀.keys j = true → j ≠ k := by
      rintro j hj rfl
      simp [hk] at hj
    have hgoes : Goes r₀ t { t with registry := t.registry.deleteKey k } := by
      refine ⟨rfl,fun slot => Or.inl (by rw [hvalues]),fun j hj => ?_,fun j hj₀ hj => ?_,hother⟩
      · rw [hkeys] at hj
        by_cases hjk : j = k
        · simp [hjk] at hj
        · rwa [Function.update_of_ne hjk] at hj
      · rw [hkeys,Function.update_of_ne (hne j hj₀)]
        exact hj
    refine onRegistry_meets ⟨hgoes,?_⟩ ⟨goes_refl r₀ t,hgoes⟩
    refine ⟨hvalues.trans h.values,hother.trans h.other,fun j hj => ?_,fun j hj => ?_⟩
    · rw [hkeys,Function.update_of_ne (hne j hj)]
      exact h.kept j hj
    · rw [hkeys] at hj
      by_cases hjk : j = k
      · simp [hjk] at hj
      · rw [Function.update_of_ne hjk] at hj
        exact hsurplus j hjk hj
  · rename_i habsent
    refine meets_pure ⟨goes_refl r₀ t,h.values,h.other,h.kept,fun j hj => hsurplus j ?_ hj⟩
    rintro rfl
    exact habsent hj

theorem deleteKeys_meets {keys : List RegKey} (h : Surplus r₀ keys s.registry)
    (hkeys : ∀ k ∈ keys, r₀.keys k = false)
    (hsorted : keys.Pairwise fun a b => b.path.length ≤ a.path.length) :
    Meets healthy (deleteKeys keys) (fun _ t => Goes r₀ s t ∧ t.registry = r₀) (Goes r₀ s) s := by
  induction keys generalizing s with
  | nil => exact meets_pure ⟨goes_refl r₀ s,h.eq⟩
  | cons k keys ih =>
    obtain ⟨hfirst,hrest⟩ := List.pairwise_cons.mp hsorted
    refine (deleteEmptyKey_meets h (hkeys k (by simp)) hfirst).bind ?_
    rintro - t ⟨hgoes,hsurplus⟩
    refine (ih hsurplus (fun j hj => hkeys j (by simp [hj])) hrest).mono ?_ fun u hu =>
      hgoes.trans hu
    rintro - u ⟨hgoes',heq⟩
    exact ⟨hgoes.trans hgoes',heq⟩

theorem pairwise_deepestFirst (keys : List RegKey) :
    (deepestFirst keys).Pairwise fun a b => b.path.length ≤ a.path.length := by
  have htotal : Std.Total fun a b : RegKey => b.path.length ≤ a.path.length :=
    ⟨fun a b => Nat.le_total _ _⟩
  have htrans : IsTrans RegKey fun a b => b.path.length ≤ a.path.length :=
    ⟨fun a b c hab hbc => hbc.trans hab⟩
  exact List.pairwise_insertionSort _ keys

theorem mem_deepestFirst {keys : List RegKey} {k : RegKey} : k ∈ deepestFirst keys ↔ k ∈ keys :=
  List.mem_insertionSort _

/-- The slots that hold something foreign stop a restore at the start. -/
theorem preflight_meets {entries : List RegistrationEntry} (hs : healthy → ∀ entry ∈ entries,
      s.registry.values entry.slot = entry.before ∨ s.registry.values entry.slot = entry.after) :
    Meets healthy (preflight entries) (fun _ t => t = s ∧ ∀ entry ∈ entries,
      s.registry.values entry.slot = entry.before ∨ s.registry.values entry.slot = entry.after)
      (· = s) s := by
  induction entries with
  | nil => exact meets_pure ⟨rfl,by simp⟩
  | cons entry entries ih =>
    refine (read_meets (Q:=fun a t => a = s.registry.values entry.slot ∧ t = s)
      (R:=(· = s)) entry.slot ⟨rfl,rfl⟩ rfl).bind ?_
    rintro a t ⟨rfl,rfl⟩
    split
    · rename_i hforeign
      refine meets_raise (fun hh => ?_) rfl
      rcases hs hh entry (by simp) with h | h
      · exact hforeign.1 h
      · exact hforeign.2 h
    · rename_i hfine
      refine (ih fun hh e he => hs hh e (by simp [he])).mono ?_ fun _ h => h
      rintro - u ⟨rfl,hentries⟩
      refine ⟨rfl,fun e he => ?_⟩
      rcases List.mem_cons.mp he with rfl | he
      · tauto
      · exact hentries e he

theorem mem_restoreOrder {entry : RegistrationEntry} (entries : List RegistrationEntry) :
    entry ∈ entries.take 1++(entries.drop 1).reverse ↔ entry ∈ entries := by
  cases entries <;> simp

theorem load_meets {Q : Registration → ExitScene → Prop} {R : ExitScene → Prop}
    (hrecorded : Recorded r₀ b) (h : Q b s) : Meets healthy (load b) Q R s := by
  unfold load
  simp only [hrecorded.schema,hrecorded.slots,ne_eq,not_true_eq_false,if_false]
  exact meets_pure h

theorem recoverable_of_goes {t : ExitScene} (hb : s.record = some b) (hrecorded : Recorded r₀ b)
    (hbetween : Between r₀ b s.registry) (h : Goes r₀ s t) : Recoverable r₀ t := by
  unfold Recoverable
  rw [h.1,hb]
  exact ⟨hrecorded,hbetween.toward h.2⟩

/-- A restore that returns has restored, and one that stops can be repeated. -/
theorem restore_meets (h : Recoverable r₀ s) :
    Meets healthy restore (fun _ => Settled r₀) (Recoverable r₀) s := by
  refine (meets_attempt (Q:=fun a t => a = s.record ∧ t = s) ⟨rfl,rfl⟩ fun _ => ⟨h,h⟩).bind ?_
  rintro a t ⟨rfl,rfl⟩
  unfold Recoverable at h
  cases hrecord : t.record with
  | none =>
    rw [hrecord] at h
    exact meets_pure ⟨h,by simp [hrecord]⟩
  | some b =>
    rw [hrecord] at h
    obtain ⟨hrecorded,hbetween⟩ := h
    have hgoes : ∀ u, Goes r₀ t u → Recoverable r₀ u := fun u hu =>
      recoverable_of_goes hrecord hrecorded hbetween hu
    refine (load_meets hrecorded (Q:=fun a u => a = b ∧ u = t) ⟨rfl,rfl⟩).bind ?_
    rintro a u ⟨rfl,rfl⟩
    have hfine : ∀ entry ∈ a.entries, u.registry.values entry.slot = entry.before ∨
        u.registry.values entry.slot = entry.after := by
      intro entry hentry
      rw [hrecorded.before entry hentry]
      exact hbetween.values entry hentry
    refine ((preflight_meets fun _ => hfine).mono (fun _ _ h => h.1)
      fun v hv => hgoes v (hv ▸ goes_refl r₀ u)).bind ?_
    rintro - v rfl
    refine ((restoreSlots_meets hrecorded hbetween fun entry hentry =>
      (mem_restoreOrder a.entries).mp hentry).mono (fun _ _ h => h) hgoes).bind ?_
    rintro - w ⟨hback,hvalues⟩
    have horiginal : w.registry.values = r₀.values := by
      funext slot
      obtain ⟨entry,hentry,rfl⟩ := hrecorded.exists_entry slot
      exact hvalues entry ((mem_restoreOrder a.entries).mpr hentry)
    have hsurplus : Surplus r₀ (deepestFirst a.createdKeys) w.registry := by
      refine ⟨horiginal,hback.2.other.trans hbetween.other,fun k hk =>
        (hbetween.toward hback.2).keys k hk,fun k _ => ?_⟩
      by_cases hk : r₀.keys k = true
      · exact Or.inl hk
      · refine Or.inr (mem_deepestFirst.mpr ?_)
        rw [hrecorded.created,mem_missing]
        exact Bool.not_eq_true _ ▸ hk
    refine ((deleteKeys_meets hsurplus (fun k hk => ?_) (pairwise_deepestFirst _)).mono
      (fun _ _ h => h) fun x hx => hgoes x (hback.trans hx)).bind ?_
    · rw [← mem_missing,← hrecorded.created]
      exact mem_deepestFirst.mp hk
    · rintro - x ⟨hdone,hregistry⟩
      have hsettled : Settled r₀ { x with record := some { a with phase := "restored" } } := by
        refine ⟨hregistry,?_⟩
        rintro _ ⟨⟩
        exact ⟨rfl,hrecorded.schema,hrecorded.slots,hrecorded.before,hrecorded.created⟩
      exact meets_attempt hsettled fun _ => ⟨hgoes x (hback.trans hdone),hsettled.recoverable⟩

theorem Between.createKey (h : Between r₀ b r) (hphase : b.phase ≠ "restored") (k : RegKey) :
    Between r₀ b (r.createKey k) where
  other := h.other
  keys j hj := Registry.createKey_keys_of_mem k (h.keys j hj)
  values := h.values
  restored hrestored := absurd hrestored hphase

theorem Between.setValue (h : Between r₀ b r) (hrecorded : Recorded r₀ b)
    (hphase : b.phase ≠ "restored") {entry : RegistrationEntry} (hentry : entry ∈ b.entries)
    {v : RegValue} (hv : entry.after = some v) : Between r₀ b (r.setValue entry.slot v) := by
  by_cases hkey : r.keys entry.slot.key = true
  · obtain ⟨hkeys,hother,hvalues⟩ := Registry.setValue_eq hkey v
    refine ⟨hother.trans h.other,fun k hk => ?_,fun e he => ?_,fun hrestored =>
      absurd hrestored hphase⟩
    · rw [hkeys]
      exact h.keys k hk
    · rw [hvalues]
      by_cases hslot : e.slot = entry.slot
      · have hnodup : (b.entries.map (·.slot)).Nodup := by
          rw [hrecorded.slots]
          decide
        rw [List.inj_on_of_nodup_map hnodup he hentry hslot,Function.update_self]
        exact Or.inr hv.symm
      · rw [Function.update_of_ne hslot]
        exact h.values e he
  · have hsame : r.setValue entry.slot v = r := by simp [Registry.setValue,hkey]
    rw [hsame]
    exact h

/-- An install or a restore is under way with this record. -/
def Underway (r₀ : Registry) (b : Registration) (t : ExitScene) : Prop :=
  t.record = some b ∧ Between r₀ b t.registry

theorem Underway.recoverable (h : Underway r₀ b s) (hrecorded : Recorded r₀ b) :
    Recoverable r₀ s := by
  unfold Recoverable
  rw [h.1]
  exact ⟨hrecorded,h.2⟩

theorem onRegistry_underway {f : Registry → Registry} (h : Underway r₀ b s)
    (hf : Between r₀ b s.registry → Between r₀ b (f s.registry)) :
    Meets False (onRegistry f) (fun _ => Underway r₀ b) (Underway r₀ b) s :=
  onRegistry_meets ⟨h.1,hf h.2⟩ ⟨h,h.1,hf h.2⟩

theorem write_underway {entry : RegistrationEntry} {v : RegValue} (h : Underway r₀ b s)
    (hrecorded : Recorded r₀ b) (hphase : b.phase ≠ "restored") (hentry : entry ∈ b.entries)
    (hv : entry.after = some v) :
    Meets False (write entry.slot v) (fun _ => Underway r₀ b) (Underway r₀ b) s := by
  have hcreate : ∀ k t, Underway r₀ b t →
      Meets False (onRegistry (Registry.createKey k)) (fun _ => Underway r₀ b) (Underway r₀ b) t :=
    fun k t ht => onRegistry_underway ht fun hb => hb.createKey hphase k
  have hown : ∀ t, Underway r₀ b t → Meets False (do
      onRegistry (Registry.createKey entry.slot.key)
      onRegistry (Registry.setValue entry.slot v)) (fun _ => Underway r₀ b) (Underway r₀ b) t :=
    fun t ht => (hcreate entry.slot.key t ht).bind fun _ u hu =>
      onRegistry_underway hu fun hb => hb.setValue hrecorded hphase hentry hv
  unfold write
  cases entry.slot.key.parent with
  | none => exact hown s h
  | some p => exact (hcreate p s h).bind fun _ t ht => hown t ht

theorem read_underway (slot : Slot) (h : Underway r₀ b s) :
    Meets False (read slot) (fun _ => Underway r₀ b) (Underway r₀ b) s := read_meets slot h h

theorem putAfter_underway {entry : RegistrationEntry} (h : Underway r₀ b s)
    (hrecorded : Recorded r₀ b) (hphase : b.phase ≠ "restored") (hentry : entry ∈ b.entries) :
    Meets False (putAfter entry) (fun _ => Underway r₀ b) (Underway r₀ b) s := by
  unfold putAfter
  split
  · exact meets_pure h
  · rename_i v hv
    exact write_underway h hrecorded hphase hentry hv

theorem writeEntry_underway {entry : RegistrationEntry} (h : Underway r₀ b s)
    (hrecorded : Recorded r₀ b) (hphase : b.phase ≠ "restored") (hentry : entry ∈ b.entries) :
    Meets False (writeEntry entry) (fun _ => Underway r₀ b) (Underway r₀ b) s := by
  refine (read_underway entry.slot h).bind fun a t ht => ?_
  split
  · exact meets_raise id ht
  · refine (putAfter_underway ht hrecorded hphase hentry).bind fun _ u hu => ?_
    refine (read_underway entry.slot hu).bind fun a v hv => ?_
    split
    · exact meets_raise id hv
    · exact meets_pure hv

theorem writeEntries_underway {entries : List RegistrationEntry} (h : Underway r₀ b s)
    (hrecorded : Recorded r₀ b) (hphase : b.phase ≠ "restored")
    (hentries : ∀ entry ∈ entries, entry ∈ b.entries) :
    Meets False (writeEntries entries) (fun _ => Underway r₀ b) (Underway r₀ b) s := by
  induction entries generalizing s with
  | nil => exact meets_pure h
  | cons entry entries ih =>
    refine (writeEntry_underway h hrecorded hphase (hentries entry (by simp))).bind fun _ t ht => ?_
    exact ih ht fun e he => hentries e (by simp [he])

theorem undo_meets (h : Recoverable r₀ s) (e : Halt) :
    Meets False (undo e) (fun _ => Recoverable r₀) (Recoverable r₀) s := by
  cases e with
  | crashed => exact meets_raise id h
  | raised message =>
    exact (restore_meets h).bind fun _ t ht => meets_raise id ht.recoverable

theorem recorded_entriesFor {before : Slot → Option RegValue} (hbefore : before = r₀.values)
    (flags : ℕ) (command phase : String) :
    Recorded r₀ ⟨schemaText,phase,missing r₀,entriesFor before flags command⟩ where
  schema := rfl
  slots := rfl
  before := by
    rw [hbefore]
    simp [entriesFor]
  created := rfl

theorem read_settled {slot : Slot} (h : Settled r₀ s) :
    Meets False (read slot) (fun a t => a = r₀.values slot ∧ t = s) (Recoverable r₀) s :=
  read_meets slot ⟨by rw [h.1],rfl⟩ h.recoverable

theorem installFresh_meets (h : Settled r₀ s) (command : String) :
    Meets False (installFresh command) (fun _ => Recoverable r₀) (Recoverable r₀) s := by
  have hrecoverable := h.recoverable
  refine (read_settled h).bind ?_
  rintro flag t ⟨hflag,rfl⟩
  refine (read_settled h).bind ?_
  rintro mode t ⟨hmode,rfl⟩
  refine (read_settled h).bind ?_
  rintro selfExits t ⟨hselfExits,rfl⟩
  refine (read_settled h).bind ?_
  rintro monitor t ⟨hmonitor,rfl⟩
  split
  · exact meets_raise id hrecoverable
  · rename_i flags hflags
    split
    · exact meets_raise id hrecoverable
    · refine (meets_attempt (Q:=fun a u => a = missing r₀ ∧ u = t) ⟨by rw [h.1],rfl⟩
        fun _ => ⟨hrecoverable,hrecoverable⟩).bind ?_
      rintro createdKeys u ⟨rfl,rfl⟩
      set entries : List RegistrationEntry := entriesFor _ flags command with hentries
      have hrecorded : ∀ phase, Recorded r₀ ⟨schemaText,phase,missing r₀,entries⟩ := by
        refine fun phase => recorded_entriesFor (funext fun slot => ?_) flags command phase
        cases slot <;> assumption
      have hprepared : Underway r₀ ⟨schemaText,"prepared",missing r₀,entries⟩
          { u with record := some ⟨schemaText,"prepared",missing r₀,entries⟩ } := by
        refine ⟨rfl,?_⟩
        rw [show ({ u with record := _ } : ExitScene).registry = r₀ from h.1]
        exact between_self r₀ _
      refine (meets_attempt (Q:=fun _ => Underway r₀ ⟨schemaText,"prepared",missing r₀,entries⟩)
        hprepared fun _ => ⟨hrecoverable,hprepared.recoverable (hrecorded _)⟩).bind fun _ v hv => ?_
      refine meets_tryExcept (P:=Recoverable r₀) ?_ fun _ e w hw => undo_meets hw e
      have horder : ∀ entry ∈ entries.drop 1++entries.take 1, entry ∈ entries := by
        intro entry hentry
        rcases List.mem_append.mp hentry with hmem | hmem
        · exact List.mem_of_mem_drop hmem
        · exact List.mem_of_mem_take hmem
      refine ((writeEntries_underway hv (hrecorded "prepared") (by simp) horder).mono
        (fun _ _ hw => hw) fun w hw => hw.recoverable (hrecorded "prepared")).bind fun _ w hw => ?_
      have hinstalled : Underway r₀ ⟨schemaText,"installed",missing r₀,entries⟩
          { w with record := some ⟨schemaText,"installed",missing r₀,entries⟩ } :=
        ⟨rfl,hw.2.other,hw.2.keys,hw.2.values,by simp⟩
      have hafter := hinstalled.recoverable (hrecorded "installed")
      exact meets_attempt hafter fun _ => ⟨hw.recoverable (hrecorded "prepared"),hafter⟩

theorem checkInstalled_meets (h : Recoverable r₀ s) (entries : List RegistrationEntry) :
    Meets False (checkInstalled entries) (fun _ => Recoverable r₀) (Recoverable r₀) s := by
  induction entries with
  | nil => exact meets_pure h
  | cons entry entries ih =>
    refine (read_meets (Q:=fun _ t => t = s) entry.slot rfl h).bind ?_
    rintro a t rfl
    split
    · exact meets_raise id h
    · exact ih

theorem install_meets (h : Recoverable r₀ s) (monitorExe : String) :
    Meets False (install monitorExe) (fun _ => Recoverable r₀) (Recoverable r₀) s := by
  unfold install
  split
  · exact meets_raise id h
  · refine (meets_attempt (Q:=fun a t => a = s.record ∧ t = s) ⟨rfl,rfl⟩ fun _ => ⟨h,h⟩).bind ?_
    rintro a t ⟨rfl,rfl⟩
    cases hrecord : t.record with
    | none =>
      refine installFresh_meets ⟨?_,by simp [hrecord]⟩ _
      simpa [Recoverable,hrecord] using h
    | some stored =>
      have hstored : Recorded r₀ stored ∧ Between r₀ stored t.registry := by
        simpa [Recoverable,hrecord] using h
      refine (load_meets hstored.1 (Q:=fun a u => a = stored ∧ u = t) ⟨rfl,rfl⟩).bind ?_
      rintro previous u ⟨rfl,rfl⟩
      split
      · split
        · exact meets_raise id h
        · exact checkInstalled_meets h _
      · split
        · exact (restore_meets h).bind fun _ v hv => installFresh_meets hv _
        · rename_i hphase
          have hrestored : previous.phase = "restored" := not_not.mp hphase
          refine installFresh_meets ⟨hstored.2.restored hrestored,?_⟩ _
          rintro _ hb
          cases hrecord.symm.trans hb
          exact ⟨hrestored,hstored.1⟩

inductive RegistrationCall
  | install (monitorExe : String)
  | restore

def RegistrationCall.body : RegistrationCall → Managed Unit
  | .install monitorExe => ExitRegistration.install monitorExe
  | .restore => ExitRegistration.restore

/-- What calls leave, each with the faults that it met. -/
def leaves (s : ExitScene) (history : List (RegistrationCall × List StepFault)) : ExitScene :=
  history.foldl (fun s call => (call.1.body (s,call.2)).2.1) s

theorem leaves_recoverable (h : Recoverable r₀ s) (history : List (RegistrationCall × List StepFault)) :
    Recoverable r₀ (leaves s history) := by
  induction history generalizing s with
  | nil => exact h
  | cons call history ih =>
    obtain ⟨call,faults⟩ := call
    refine ih ?_
    cases call with
    | install monitorExe => exact (install_meets h monitorExe).final faults
    | restore =>
      exact ((restore_meets h).mono (fun _ _ ht => ht.recoverable) fun _ ht => ht).final faults

/-- A slot that holds neither value of the record stops a restore. -/
theorem restore_foreign {entry : RegistrationEntry} (hrecord : s.record = some b)
    (hentry : entry ∈ b.entries) (hbefore : s.registry.values entry.slot ≠ entry.before)
    (hafter : s.registry.values entry.slot ≠ entry.after) :
    Meets False restore (fun _ _ => False) (· = s) s := by
  refine (meets_attempt (Q:=fun a t => a = s.record ∧ t = s) (R:=(· = s)) ⟨rfl,rfl⟩
    fun _ => ⟨rfl,rfl⟩).bind ?_
  rintro a t ⟨rfl,rfl⟩
  rw [hrecord]
  have hload : Meets False (load b) (fun a u => a = b ∧ u = t) (· = t) t := by
    unfold load
    split
    · exact meets_raise id rfl
    · split
      · exact meets_raise id rfl
      · exact meets_pure ⟨rfl,rfl⟩
  refine hload.bind ?_
  rintro a u ⟨rfl,rfl⟩
  refine (preflight_meets False.elim).bind ?_
  rintro - v ⟨rfl,hfine⟩
  rcases hfine entry hentry with h | h
  · exact absurd h hbefore
  · exact absurd h hafter

end ExitRegistration

open ExitRegistration in
/-- `install` and `restore`: whatever was installed and restored before, and wherever these calls
raised or crashed, a restore that is let through returns, and one that returns has brought back
every value and key. One that finds a foreign value raises and changes nothing. -/
theorem registration_recovers (r₀ : Registry) (history : List (RegistrationCall × List StepFault)) :
    ((restore (leaves ⟨r₀,none⟩ history,[])).1 = .ok () ∧
      ∀ faults, (restore (leaves ⟨r₀,none⟩ history,faults)).1 = .ok () →
        (restore (leaves ⟨r₀,none⟩ history,faults)).2.1.registry = r₀) ∧
    ∀ (s : ExitScene) (b : Registration) (entry : RegistrationEntry) (faults : List StepFault),
      s.record = some b → entry ∈ b.entries → s.registry.values entry.slot ≠ entry.before →
      s.registry.values entry.slot ≠ entry.after →
      (∃ e, (restore (s,faults)).1 = .error e) ∧ (restore (s,faults)).2.1 = s := by
  have hrecoverable : Recoverable r₀ (leaves ⟨r₀,none⟩ history) := leaves_recoverable (s:=⟨r₀,none⟩) rfl history
  refine ⟨⟨?_,fun faults hok => ?_⟩,fun s b entry faults hrecord hentry hbefore hafter => ?_⟩
  · obtain ⟨a,ha⟩ := (restore_meets hrecoverable).returns
    exact ha
  · exact ((restore_meets hrecoverable).of_ok hok).1
  · have hmeets := restore_foreign hrecord hentry hbefore hafter
    refine ⟨?_,(hmeets.mono (fun _ _ h => h.elim) fun _ h => h).final faults⟩
    cases hresult : (restore (s,faults)).1 with
    | error e => exact ⟨e,rfl⟩
    | ok a => exact (hmeets.of_ok hresult).elim

/-- A registry with nothing about the image. -/
def Registry.bare : Registry where
  keys := fun k => k = .ifeoParent
  values := fun _ => none
  other := fun k => k = .ifeoParent
  parents := by
    intro k p hp hk
    cases k <;> cases hp <;> simp at hk
  owned := by simp
  occupied := by simp

namespace ExitRegistration

def installed : ExitScene := leaves ⟨.bare,none⟩ [(.install "C:/m.exe",[])]

/-- Someone else has written the flag of an installed registration. -/
def tampered : ExitScene :=
  { installed with registry := installed.registry.setValue .globalFlag ⟨4,.int 1⟩ }

/-- An install writes the flag, and the restore after it takes a created key away again. -/
example : installed.registry.values .globalFlag = some ⟨4,.int 512⟩ ∧
    (leaves ⟨.bare,none⟩ [(.install "C:/m.exe",[]),(.restore,[])]).registry.keys .spe = false := by
  decide

end ExitRegistration

open ExitRegistration in
/-- A restore brings back what the install found, and after a foreign write it changes nothing. -/
theorem registration_recovers_tampered :
    (restore (installed,[])).2.1.registry = .bare ∧
      (∃ e, (restore (tampered,[])).1 = .error e) ∧ (restore (tampered,[])).2.1 = tampered := by
  obtain ⟨⟨hok,hback⟩,hforeign⟩ := registration_recovers .bare [(.install "C:/m.exe",[])]
  refine ⟨hback [] hok,?_⟩
  exact hforeign tampered _ ⟨.globalFlag,none,some ⟨4,.int 512⟩⟩ [] rfl (.head _) (by decide) (by decide)

end FakeNetNG
