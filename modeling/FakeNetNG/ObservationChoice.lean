import FakeNetNG.StreamGrouping

/-!
# The choice of observations

Each packet is judged by the roles of its observations alone. The loop compares every newcomer with
the observation it has chosen, so that an initial observation lets any number of final ones pass
after it.
-/

namespace FakeNetNG
namespace Report

open Role

variable {entries entries' selected : List Entry} {s s' : Selection} {x y : Entry} {id : String}

/-- The roles of the observations of one packet, in the order of the records. -/
def rolesOf (entries : List Entry) (id : String) : List Role :=
  (entries.filter fun x => x.logicalPacketId = id).map Entry.role

/-- One observation, or an initial and a final one. -/
def OneOrBoth (roles : List Role) : Prop := roles.length = 1 ∨ roles.Perm [initial,final]

/-- An initial observation with more than one final. -/
def Overcounted (roles : List Role) : Prop :=
  roles.count initial = 1 ∧ 2 ≤ roles.count final ∧ roles.count inbound = 0

/-- One observation of each packet is selected, the initial one if there is one. -/
structure Selects (entries selected : List Entry) : Prop where
  subset : ∀ x ∈ selected, x ∈ entries
  once : ∀ id, rolesOf entries id ≠ [] → ∃ x, (selected.filter fun x => x.logicalPacketId = id) = [x]
  prefersInitial : ∀ x ∈ selected, initial ∈ rolesOf entries x.logicalPacketId → x.role = initial

def Succeeds (entries : List Entry) : Prop := ∃ selected, chooseObservations entries = .ok selected

/-- The selection is what the packets' roles say, in every order of the records. -/
structure ChosenExactly (entries : List Entry) : Prop where
  succeeds : Succeeds entries ↔ ∀ id, rolesOf entries id ≠ [] → OneOrBoth (rolesOf entries id)
  selects : ∀ selected, chooseObservations entries = .ok selected → Selects entries selected
  reordered : ∀ entries', entries'.Perm entries → (Succeeds entries' ↔ Succeeds entries) ∧
    ∀ selected selected', chooseObservations entries = .ok selected →
      chooseObservations entries' = .ok selected' → selected'.Perm selected

/-- What the loop accepts of one packet, of which it has chosen an observation with this role. -/
@[grind] def Accepts : Option Role → List Role → Prop
  | _,[] => True
  | none,role :: roles => Accepts (some role) roles
  | some previous,role :: roles =>
    (role ≠ previous ∧ role ≠ inbound ∧ previous ≠ inbound) ∧ Accepts (some initial) roles

theorem accepts_initial {roles : List Role} : Accepts (some initial) roles ↔ ∀ role ∈ roles, role = final := by
  induction roles with
  | nil => simp [Accepts]
  | cons role roles ih =>
    rw [Accepts,ih]
    cases role <;> simp

theorem count_of_forall_final {roles : List Role} (h : ∀ role ∈ roles, role = final) :
    roles.count initial = 0 ∧ roles.count final = roles.length ∧ roles.count inbound = 0 := by
  rw [List.eq_replicate_of_mem h]
  simp [List.count_replicate]

/-- Accepted packets have one observation, or one initial and some final ones. -/
theorem counts_of_accepts {roles : List Role} (h : Accepts none roles) (hne : roles ≠ []) :
    roles.length = 1 ∨ roles.count initial = 1 ∧ 1 ≤ roles.count final ∧ roles.count inbound = 0 := by
  match roles,hne with
  | [role],_ => exact .inl rfl
  | first :: second :: rest,_ =>
    refine .inr ?_
    obtain ⟨⟨hne,hsecond,hfirst⟩,hrest⟩ := h
    obtain ⟨hinitial,hfinal,hinbound⟩ := count_of_forall_final (accepts_initial.mp hrest)
    cases first <;> cases second <;> simp_all

theorem accepts_initial_first {roles : List Role} (hinitial : roles.count initial = 1)
    (hinbound : roles.count inbound = 0) :
    Accepts none (roles.filter (· = initial)++roles.filter (· ≠ initial)) := by
  have hfront : roles.filter (· = initial) = [initial] := by
    rw [List.filter_eq,hinitial]
    rfl
  rw [hfront]
  refine accepts_initial.mpr fun role hrole => ?_
  obtain ⟨hmem,hne⟩ := List.mem_filter.mp hrole
  have hnone : inbound ∉ roles := List.count_eq_zero.mp hinbound
  cases role with
  | initial => simp at hne
  | final => rfl
  | inbound => exact absurd hmem hnone

theorem OneOrBoth.accepts {roles : List Role} (h : OneOrBoth roles) : Accepts none roles := by
  obtain h | h := h
  · obtain ⟨role,rfl⟩ := List.length_eq_one_iff.mp h
    trivial
  · obtain ⟨first,second,rfl⟩ := List.length_eq_two.mp h.length_eq
    have hinitial := h.count_eq initial
    have hfinal := h.count_eq final
    cases first <;> cases second <;> simp_all [Accepts]

/-- The role of the observation that is chosen of a packet so far. -/
def Selection.roleOf (s : Selection) (id : String) : Option Role := (s.byLogical id).map Entry.role

theorem rolesOf_cons (x : Entry) (entries : List Entry) (id : String) :
    rolesOf (x :: entries) id =
      if x.logicalPacketId = id then x.role :: rolesOf entries id else rolesOf entries id := by
  by_cases h : x.logicalPacketId = id <;> simp [rolesOf,h]

theorem rolesOf_append (entries entries' : List Entry) (id : String) :
    rolesOf (entries++entries') id = rolesOf entries id++rolesOf entries' id := by
  simp [rolesOf]

theorem mem_rolesOf {role : Role} :
    role ∈ rolesOf entries id ↔ ∃ x ∈ entries, x.logicalPacketId = id ∧ x.role = role := by
  simp [rolesOf,and_assoc]

theorem exists_chooseStep_iff :
    (∃ s', chooseStep s x = .ok s') ↔ Accepts (s.roleOf x.logicalPacketId) [x.role] := by
  unfold chooseStep Selection.roleOf
  cases hprevious : s.byLogical x.logicalPacketId with
  | none => simp [Accepts]
  | some previous =>
    cases x.role <;> cases hp : previous.role <;> simp [Accepts,hp]

theorem roleOf_chooseStep (h : chooseStep s x = .ok s') (id : String) :
    s'.roleOf id = if x.logicalPacketId = id then
      match s.roleOf id with
      | none => some x.role
      | some _ => some initial
    else s.roleOf id := by
  unfold chooseStep at h
  unfold Selection.roleOf
  by_cases hid : x.logicalPacketId = id
  · subst hid
    cases hprevious : s.byLogical x.logicalPacketId with
    | none =>
      simp only [hprevious,Except.ok.injEq] at h
      simp [← h]
    | some previous =>
      cases hx : x.role <;> cases hp : previous.role <;> simp [hprevious,hx,hp] at h <;>
        simp [← h,hprevious,hx,hp]
  · have hne : id ≠ x.logicalPacketId := Ne.symm hid
    cases hprevious : s.byLogical x.logicalPacketId with
    | none =>
      simp only [hprevious,Except.ok.injEq] at h
      simp [← h,hid,Function.update_of_ne hne]
    | some previous =>
      simp only [hprevious] at h
      split_ifs at h
      · cases h
        simp [hid,Function.update_of_ne hne]
      · cases h
        simp [hid]

theorem exists_foldlM_chooseStep_iff (entries : List Entry) (s : Selection) :
    (∃ s', entries.foldlM chooseStep s = .ok s') ↔
      ∀ id, Accepts (s.roleOf id) (rolesOf entries id) := by
  induction entries generalizing s with
  | nil => simp [rolesOf,Accepts,pure,Except.pure]
  | cons x entries ih =>
    rw [List.foldlM_cons]
    cases hstep : chooseStep s x with
    | error e =>
      have hrefused : ¬Accepts (s.roleOf x.logicalPacketId) [x.role] := by
        rw [← exists_chooseStep_iff,hstep]
        simp
      refine iff_of_false (by simp [bind,Except.bind]) fun h => hrefused ?_
      have hx := h x.logicalPacketId
      rw [rolesOf_cons,if_pos rfl] at hx
      cases hrole : s.roleOf x.logicalPacketId with
      | none => trivial
      | some previous =>
        rw [hrole] at hx
        exact ⟨hx.1,trivial⟩
    | ok s₁ =>
      show (∃ s', entries.foldlM chooseStep s₁ = .ok s') ↔ _
      have haccepts : Accepts (s.roleOf x.logicalPacketId) [x.role] := exists_chooseStep_iff.mp ⟨s₁,hstep⟩
      rw [ih]
      refine forall_congr' fun id => ?_
      rw [roleOf_chooseStep hstep,rolesOf_cons]
      by_cases hid : x.logicalPacketId = id
      · subst hid
        simp only [if_true]
        cases hrole : s.roleOf x.logicalPacketId with
        | none => exact Iff.rfl
        | some previous =>
          rw [hrole] at haccepts
          exact ⟨fun h => ⟨haccepts.1,h⟩,fun h => h.2⟩
      · simp [hid]

theorem chooseObservations_eq_ok_iff : chooseObservations entries = .ok selected ↔
    ∃ s, entries.foldlM chooseStep ⟨[],fun _ => none⟩ = .ok s ∧ s.selected = selected := by
  unfold chooseObservations
  cases entries.foldlM chooseStep ⟨[],fun _ => none⟩ <;> simp [Except.map]

theorem succeeds_iff : Succeeds entries ↔ ∀ id, Accepts none (rolesOf entries id) := by
  refine Iff.trans ?_ (exists_foldlM_chooseStep_iff entries ⟨[],fun _ => none⟩)
  simp [Succeeds,chooseObservations_eq_ok_iff]

/-- The selection after the records that were seen. -/
structure Tracks (seen : List Entry) (s : Selection) : Prop where
  subset : ∀ x ∈ s.selected, x ∈ seen
  filed : ∀ id, (s.selected.filter fun x => x.logicalPacketId = id) = (s.byLogical id).toList
  known : ∀ id, s.roleOf id = none ↔ rolesOf seen id = []
  prefersInitial : ∀ id, initial ∈ rolesOf seen id → s.roleOf id = some initial

theorem filter_replace (l : List Entry) {a b : Entry} {p : Entry → Bool} (h : p a = p b) :
    (l.replace a b).filter p = (l.filter p).replace a b := by
  induction l with
  | nil => rfl
  | cons c l ih =>
    by_cases hc : c = a
    · subst hc
      cases hp : p c <;> simp_all
    · have hac : (a == c) = false := by simp [Ne.symm hc]
      cases hp : p c <;> simp [List.replace_cons,hac,hp,ih]

theorem chooseStep_filed {seen : List Entry} (h : Tracks seen s) (hstep : chooseStep s x = .ok s')
    (id : String) : (s'.selected.filter fun y => y.logicalPacketId = id) = (s'.byLogical id).toList := by
  unfold chooseStep at hstep
  cases hprevious : s.byLogical x.logicalPacketId with
  | none =>
    simp only [hprevious,Except.ok.injEq] at hstep
    subst hstep
    rw [List.filter_append,h.filed]
    by_cases hid : x.logicalPacketId = id
    · subst hid
      simp [hprevious]
    · simp [hid,Function.update_of_ne (Ne.symm hid)]
  | some previous =>
    simp only [hprevious] at hstep
    split_ifs at hstep
    · cases hstep
      have hmem : previous ∈ s.selected.filter fun y => y.logicalPacketId = x.logicalPacketId := by
        rw [h.filed,hprevious]
        simp
      have hsame : previous.logicalPacketId = x.logicalPacketId := by simpa using (List.mem_filter.mp hmem).2
      rw [filter_replace _ (by rw [hsame]),h.filed]
      by_cases hid : x.logicalPacketId = id
      · subst hid
        simp [hprevious]
      · have hother : previous ∉ (s.byLogical id).toList := by
          rw [← h.filed]
          simp [hsame,hid]
        simp [Function.update_of_ne (Ne.symm hid),List.replace_of_not_mem hother]
    · cases hstep
      exact h.filed id

theorem Tracks.step {seen : List Entry} (h : Tracks seen s) (hstep : chooseStep s x = .ok s') :
    Tracks (seen++[x]) s' where
  subset y hy := by
    obtain hy | rfl := chooseStep_mem hstep hy
    · exact List.mem_append_left _ (h.subset y hy)
    · simp
  filed := chooseStep_filed h hstep
  known id := by
    rw [roleOf_chooseStep hstep,rolesOf_append,rolesOf_cons]
    by_cases hid : x.logicalPacketId = id
    · cases s.roleOf id <;> simp [hid]
    · simp [hid,h.known,rolesOf]
  prefersInitial id hinitial := by
    rw [roleOf_chooseStep hstep]
    rw [rolesOf_append,rolesOf_cons] at hinitial
    by_cases hid : x.logicalPacketId = id
    · rw [if_pos hid] at hinitial ⊢
      cases hrole : s.roleOf id with
      | none =>
        rw [(h.known id).mp hrole] at hinitial
        simpa [rolesOf,eq_comm] using hinitial
      | some role => rfl
    · rw [if_neg hid]
      exact h.prefersInitial id (by simpa [hid,rolesOf] using hinitial)

theorem Tracks.run {seen : List Entry} (entries : List Entry) (h : Tracks seen s)
    (hrun : entries.foldlM chooseStep s = .ok s') : Tracks (seen++entries) s' := by
  induction entries generalizing seen s with
  | nil =>
    cases hrun
    simpa using h
  | cons x entries ih =>
    obtain ⟨s₁,hstep,hrest⟩ := ok_of_bind hrun
    simpa using ih (h.step hstep) hrest

theorem selects_of_choose (h : chooseObservations entries = .ok selected) : Selects entries selected := by
  obtain ⟨s,hrun,rfl⟩ := chooseObservations_eq_ok_iff.mp h
  have hstart : Tracks [] ⟨[],fun _ => none⟩ := by
    constructor <;> simp [rolesOf,Selection.roleOf]
  have htracks : Tracks entries s := hstart.run entries hrun
  refine ⟨htracks.subset,fun id hid => ?_,fun x hx hinitial => ?_⟩
  · rw [htracks.filed]
    cases hchosen : s.byLogical id with
    | none => exact absurd ((htracks.known id).mp (by simp [Selection.roleOf,hchosen])) hid
    | some x => exact ⟨x,rfl⟩
  · have hmem : x ∈ s.selected.filter fun y => y.logicalPacketId = x.logicalPacketId := by simp [hx]
    rw [htracks.filed,Option.mem_toList] at hmem
    simpa [Selection.roleOf,Option.mem_def.mp hmem] using htracks.prefersInitial _ hinitial

theorem rolesOf_perm (h : entries'.Perm entries) (id : String) :
    (rolesOf entries' id).Perm (rolesOf entries id) := (h.filter _).map _

theorem eq_of_length_filter {p : Entry → Bool} (hlength : (entries.filter p).length = 1) (hx : x ∈ entries)
    (hy : y ∈ entries) (hpx : p x) (hpy : p y) : x = y := by
  obtain ⟨z,hz⟩ := List.length_eq_one_iff.mp hlength
  have hxz : x ∈ entries.filter p := List.mem_filter.mpr ⟨hx,hpx⟩
  have hyz : y ∈ entries.filter p := List.mem_filter.mpr ⟨hy,hpy⟩
  rw [hz,List.mem_singleton] at hxz hyz
  rw [hxz,hyz]

theorem eq_of_count_initial (hcount : (rolesOf entries id).count initial = 1) (hx : x ∈ entries)
    (hy : y ∈ entries) (hxid : x.logicalPacketId = id) (hyid : y.logicalPacketId = id)
    (hxrole : x.role = initial) (hyrole : y.role = initial) : x = y := by
  have hlength : (entries.filter fun z => z.role == initial && z.logicalPacketId = id).length = 1 := by
    rw [← hcount,rolesOf,List.count_eq_countP,List.countP_map,List.countP_filter,List.countP_eq_length_filter]
    simp
  exact eq_of_length_filter hlength hx hy (by simp [hxrole,hxid]) (by simp [hyrole,hyid])

theorem eq_of_length_one (hlength : (rolesOf entries id).length = 1) (hx : x ∈ entries)
    (hy : y ∈ entries) (hxid : x.logicalPacketId = id) (hyid : y.logicalPacketId = id) : x = y := by
  rw [rolesOf,List.length_map] at hlength
  exact eq_of_length_filter hlength hx hy (by simp [hxid]) (by simp [hyid])

theorem Selects.unique {selected' : List Entry} (haccepts : ∀ id, Accepts none (rolesOf entries id))
    (h : Selects entries selected) (h' : Selects entries selected') : selected'.Perm selected := by
  have hchosen : ∀ {chosen}, Selects entries chosen → ∀ {y}, y ∈ chosen →
      initial ∈ rolesOf entries y.logicalPacketId → y.role = initial :=
    fun h _ hy => h.prefersInitial _ hy
  have hfilter : ∀ id, (selected'.filter fun x => x.logicalPacketId = id) =
      selected.filter fun x => x.logicalPacketId = id := by
    intro id
    by_cases hid : rolesOf entries id = []
    · have hempty : ∀ {chosen}, Selects entries chosen →
          (chosen.filter fun x => x.logicalPacketId = id) = [] := by
        intro chosen hchosen
        refine List.filter_eq_nil_iff.mpr fun x hx hxid => ?_
        have hmem := mem_rolesOf.mpr ⟨x,hchosen.subset x hx,of_decide_eq_true hxid,rfl⟩
        simp [hid] at hmem
      rw [hempty h,hempty h']
    · obtain ⟨x,hx⟩ := h.once id hid
      obtain ⟨y,hy⟩ := h'.once id hid
      have hxmem : x ∈ selected.filter fun x => x.logicalPacketId = id := by simp [hx]
      have hymem : y ∈ selected'.filter fun x => x.logicalPacketId = id := by simp [hy]
      obtain ⟨hxmem,hxid⟩ := List.mem_filter.mp hxmem
      obtain ⟨hymem,hyid⟩ := List.mem_filter.mp hymem
      have hxid := of_decide_eq_true hxid
      have hyid := of_decide_eq_true hyid
      have hsame : y = x := by
        obtain hlength | ⟨hcount,-,-⟩ := counts_of_accepts (haccepts id) hid
        · exact eq_of_length_one hlength (h'.subset y hymem) (h.subset x hxmem) hyid hxid
        · have hinitial : initial ∈ rolesOf entries id := List.count_pos_iff.mp (by omega)
          exact eq_of_count_initial hcount (h'.subset y hymem) (h.subset x hxmem) hyid hxid
            (hchosen h' hymem (hyid ▸ hinitial)) (hchosen h hxmem (hxid ▸ hinitial))
      rw [hx,hy,hsame]
  refine List.perm_iff_count.mpr fun x => ?_
  rw [← List.count_filter (p:=fun y => y.logicalPacketId = x.logicalPacketId) (by simp),hfilter,
    List.count_filter (by simp)]

theorem Selects.of_perm (hperm : entries'.Perm entries) (h : Selects entries' selected) :
    Selects entries selected where
  subset x hx := hperm.mem_iff.mp (h.subset x hx)
  once id hid := by
    refine h.once id fun hnil => hid ?_
    have hroles := rolesOf_perm hperm id
    rw [hnil] at hroles
    exact List.nil_perm.mp hroles
  prefersInitial x hx hinitial := h.prefersInitial x hx ((rolesOf_perm hperm _).mem_iff.mpr hinitial)

/-- An order in which every packet that can be accepted is. -/
def initialFirst (entries : List Entry) : List Entry :=
  (entries.filter fun x => x.role = initial)++entries.filter fun x => x.role ≠ initial

theorem initialFirst_perm (entries : List Entry) : (initialFirst entries).Perm entries := by
  simpa [initialFirst] using List.filter_append_perm (fun x : Entry => decide (x.role = initial)) entries

theorem rolesOf_filter (entries : List Entry) (id : String) (p : Role → Bool) :
    rolesOf (entries.filter fun x => p x.role) id = (rolesOf entries id).filter p := by
  rw [rolesOf,rolesOf,List.filter_map,List.filter_filter,List.filter_filter]
  simp [Bool.and_comm]

theorem rolesOf_initialFirst (entries : List Entry) (id : String) :
    rolesOf (initialFirst entries) id =
      (rolesOf entries id).filter (· = initial)++(rolesOf entries id).filter (· ≠ initial) := by
  rw [initialFirst,rolesOf_append,← rolesOf_filter,← rolesOf_filter]

theorem oneOrBoth_or_overcounted {roles : List Role} (h : Accepts none roles) (hne : roles ≠ []) :
    OneOrBoth roles ∨ Overcounted roles := by
  obtain hlength | ⟨hinitial,hfinal,hinbound⟩ := counts_of_accepts h hne
  · exact .inl (.inl hlength)
  · by_cases hmore : 2 ≤ roles.count final
    · exact .inr ⟨hinitial,hmore,hinbound⟩
    · refine .inl (.inr (List.perm_iff_count.mpr fun role => ?_))
      cases role <;> simp <;> omega

theorem not_oneOrBoth_of_overcounted {roles : List Role} (h : Overcounted roles) : ¬OneOrBoth roles := by
  obtain ⟨hinitial,hfinal,-⟩ := h
  rintro (hlength | hperm)
  · obtain ⟨role,rfl⟩ := List.length_eq_one_iff.mp hlength
    cases role <;> simp at hfinal
  · rw [hperm.count_eq] at hfinal
    simp at hfinal

theorem OneOrBoth.of_perm {roles roles' : List Role} (h : roles'.Perm roles) (hone : OneOrBoth roles) :
    OneOrBoth roles' :=
  hone.imp (fun hlength => h.length_eq.trans hlength) h.trans

theorem Overcounted.of_perm {roles roles' : List Role} (h : roles'.Perm roles) (hover : Overcounted roles) :
    Overcounted roles' := by
  simpa only [Overcounted,h.count_eq] using hover

theorem Overcounted.ne_nil {roles : List Role} (h : Overcounted roles) : roles ≠ [] := by
  rintro rfl
  simp [Overcounted] at h

theorem succeeds_iff_oneOrBoth (h : ∀ id, ¬Overcounted (rolesOf entries id)) :
    Succeeds entries ↔ ∀ id, rolesOf entries id ≠ [] → OneOrBoth (rolesOf entries id) := by
  rw [succeeds_iff]
  refine forall_congr' fun id => ?_
  constructor
  · intro haccepts hne
    exact (oneOrBoth_or_overcounted haccepts hne).resolve_right (h id)
  · intro hone
    by_cases hne : rolesOf entries id = []
    · rw [hne]
      trivial
    · exact (hone hne).accepts

theorem succeeds_initialFirst
    (h : ∀ id, rolesOf entries id ≠ [] → OneOrBoth (rolesOf entries id) ∨ Overcounted (rolesOf entries id)) :
    Succeeds (initialFirst entries) := by
  refine succeeds_iff.mpr fun id => ?_
  have hperm := rolesOf_perm (initialFirst_perm entries) id
  by_cases hne : rolesOf entries id = []
  · rw [hne,List.perm_nil] at hperm
    rw [hperm]
    trivial
  · obtain hone | ⟨hinitial,-,hinbound⟩ := h id hne
    · exact (hone.of_perm hperm).accepts
    · rw [rolesOf_initialFirst]
      exact accepts_initial_first hinitial hinbound

theorem choose_perm (hperm : entries'.Perm entries) {selected' : List Entry}
    (h : chooseObservations entries = .ok selected) (h' : chooseObservations entries' = .ok selected') :
    selected'.Perm selected :=
  (selects_of_choose h).unique (succeeds_iff.mp ⟨_,h⟩) ((selects_of_choose h').of_perm hperm)

/-- The choice is exact unless a packet with an initial observation has several final ones and no
other packet is refused in every order. -/
theorem chosenExactly_iff (entries : List Entry) :
    ChosenExactly entries ↔ (∀ id, ¬Overcounted (rolesOf entries id)) ∨
      ∃ id, rolesOf entries id ≠ [] ∧ ¬OneOrBoth (rolesOf entries id) ∧ ¬Overcounted (rolesOf entries id) := by
  constructor
  · intro h
    by_contra hfails
    push Not at hfails
    obtain ⟨⟨id,hover⟩,haccepted⟩ := hfails
    have hfirst := succeeds_initialFirst fun id hne => or_iff_not_imp_left.mpr (haccepted id hne)
    have hsucceeds := ((h.reordered _ (initialFirst_perm entries)).1).mp hfirst
    exact not_oneOrBoth_of_overcounted hover (h.succeeds.mp hsucceeds id hover.ne_nil)
  rintro (hnone | ⟨id,hne,hrefused⟩)
  · refine ⟨succeeds_iff_oneOrBoth hnone,fun _ => selects_of_choose,fun entries' hperm => ?_⟩
    have hroles := fun id => rolesOf_perm hperm id
    refine ⟨?_,fun _ _ h h' => choose_perm hperm h h'⟩
    rw [succeeds_iff_oneOrBoth hnone,
      succeeds_iff_oneOrBoth fun id hover => hnone id (hover.of_perm (hroles id).symm)]
    refine forall_congr' fun id => imp_congr (not_congr ?_) ?_
    · exact ⟨fun h => List.nil_perm.mp (h ▸ hroles id),fun h => List.perm_nil.mp (h ▸ hroles id)⟩
    · exact ⟨.of_perm (hroles id).symm,.of_perm (hroles id)⟩
  · -- This packet is refused in every order, and so are the records.
    have hfails : ∀ entries', entries'.Perm entries → ¬Succeeds entries' := by
      intro entries' hperm hsucceeds
      have hroles := rolesOf_perm hperm id
      have hne' : rolesOf entries' id ≠ [] := by
        intro hnil
        rw [hnil] at hroles
        exact hne (List.nil_perm.mp hroles)
      obtain hone | hover := oneOrBoth_or_overcounted (succeeds_iff.mp hsucceeds id) hne'
      · exact hrefused.1 (hone.of_perm hroles.symm)
      · exact hrefused.2 (hover.of_perm hroles.symm)
    have hfails' := hfails entries (.refl _)
    exact ⟨iff_of_false hfails' fun h => hrefused.1 (h id hne),fun _ => selects_of_choose,
      fun entries' hperm => ⟨iff_of_false (hfails _ hperm) hfails',fun _ _ h h' => choose_perm hperm h h'⟩⟩

/-- Three observations of one packet, of which the loop takes the second final one for the first. -/
def twoFinals : List Entry :=
  [⟨1,none,0,initial,"outbound","a",none⟩,⟨2,none,0,final,"outbound","a",none⟩,
    ⟨3,none,0,final,"outbound","a",none⟩]

theorem twoFinals_accepted : ¬ChosenExactly twoFinals ∧ Succeeds twoFinals ∧ ¬Succeeds twoFinals.reverse := by
  have hsucceeds : Succeeds twoFinals := ⟨_,rfl⟩
  have hfails : ¬Succeeds twoFinals.reverse := by
    rintro ⟨selected,h⟩
    have haccepts := succeeds_iff.mp ⟨_,h⟩ "a"
    simp [twoFinals,rolesOf,Accepts] at haccepts
  refine ⟨fun h => ?_,hsucceeds,hfails⟩
  exact hfails ((h.reordered _ (List.reverse_perm _)).1.mpr hsucceeds)

end Report
end FakeNetNG
