import FakeNetNG.SessionFlows

/-!
# Connection generations

What a flow is for: the packets of one connection, in the order in which they joined it. The registry
keeps of each generation only what `Describes` says, and refines the book of all generations.
-/

namespace FakeNetNG
namespace Report

/-- A packet that joined a generation, and the direction that it gives to its source if nothing else
is known. -/
structure Member where
  facts : Facts
  origin : Direction

abbrev Generation := List Member

def Direction.opposite : Direction → Option Direction
  | outbound => some inbound
  | inbound => some outbound
  | unknown => none

namespace Generation

def closed (g : Generation) : Bool := g.any fun m => m.facts.closes

/-- The sequence number of the first SYN between these ends. -/
def firstSyn (g : Generation) (e : Ends) : Option ℕ :=
  (g.find? fun m => m.facts.syn && m.facts.ends = e).map fun m => m.facts.synSequence

/-- The opener gives its ends its own origin. The reverse ends have the opposite, or the origin of
their first packet if the opener's is unknown. -/
def orientation : Generation → Ends → Option Direction
  | [],_ => none
  | opener :: rest,e =>
    if e = opener.facts.ends then some opener.origin
    else (rest.find? fun m => m.facts.ends = e).map fun m => opener.origin.opposite.getD m.origin

/-- The packet starts a new connection on the same tuple. -/
def restarts (g : Generation) (p : Facts) : Bool :=
  (g.closed && p.syn) || p.isNewSyn (g.firstSyn p.ends)

/-- All packets have the key. -/
def Keyed (g : Generation) (k : FlowKey) : Prop := g ≠ [] ∧ ∀ m ∈ g, canonicalKey m.facts = k

end Generation

/-- All generations, and which one a key or a logical packet belongs to. -/
structure Book where
  generations : List Generation
  byKey : FlowKey → Option ℕ
  byLogical : String → Option ℕ

namespace Book

def empty : Book := ⟨[],fun _ => none,fun _ => none⟩

def joined (b : Book) (p : Facts) : Option ℕ :=
  match b.byKey (canonicalKey p) with
  | none => none
  | some i =>
    match b.generations[i]? with
    | none => none
    | some g => if g.restarts p then none else some i

def member (o : Observation) (p : Facts) : Member := ⟨p,originDirection o p⟩

/-- The generation that the observation belongs to, and the book with it. -/
def observe (b : Book) (o : Observation) : Option ℕ × Book :=
  match o.facts with
  | none => (none,b)
  | some p =>
    if p.protocol = .other then (none,b)
    else
      match o.logicalPacketId.bind b.byLogical with
      | some i => (some i,b)
      | none =>
        match b.joined p with
        | some i => (some i,{ b with
            generations := b.generations.modify i (·++[member o p])
            byLogical := Registry.markLogical b.byLogical i o.logicalPacketId })
        | none =>
          (some b.generations.length,{
            generations := b.generations++[[member o p]]
            byKey := Function.update b.byKey (canonicalKey p) (some b.generations.length)
            byLogical := Registry.markLogical b.byLogical b.generations.length o.logicalPacketId })

def observeAll : Book → List Observation → List (Option ℕ) × Book
  | b,[] => ([],b)
  | b,o :: rest =>
    let (i,b) := b.observe o
    let (is,b) := observeAll b rest
    (i :: is,b)

end Book

structure Describes (f : Flow) (g : Generation) : Prop where
  closed : f.closed = g.closed
  synSequences : ∀ e, f.synSequences.get? e = g.firstSyn e
  directions : ∀ e, f.directions.get? e = g.orientation e

namespace Flow

variable (f : Flow) (o : Observation) (p : Facts)

@[simp] theorem directions_registerSyn : (f.registerSyn p).directions = f.directions := by
  unfold registerSyn
  split <;> rfl
@[simp] theorem closed_registerSyn : (f.registerSyn p).closed = f.closed := by
  unfold registerSyn
  split <;> rfl
@[simp] theorem id_registerSyn : (f.registerSyn p).id = f.id := by
  unfold registerSyn
  split <;> rfl
@[simp] theorem synSequences_registerDirection (d : Direction) (e : Ends) :
    (f.registerDirection d e).synSequences = f.synSequences := by
  unfold registerDirection
  split <;> rfl
@[simp] theorem closed_registerDirection (d : Direction) (e : Ends) :
    (f.registerDirection d e).closed = f.closed := by
  unfold registerDirection
  split <;> rfl
@[simp] theorem id_registerDirection (d : Direction) (e : Ends) :
    (f.registerDirection d e).id = f.id := by
  unfold registerDirection
  split <;> rfl

theorem directions_register :
    (f.register o p).directions = (f.registerDirection (originDirection o p) p.ends).directions := by
  unfold register registerClose registerLogical registerTime
  split <;> split <;> split <;> simp

theorem synSequences_register : (f.register o p).synSequences = (f.registerSyn p).synSequences := by
  have hcomm : ((f.registerDirection (originDirection o p) p.ends).registerSyn p).synSequences =
      (f.registerSyn p).synSequences := by
    simp only [registerSyn,synSequences_registerDirection]
    split <;> simp
  unfold register registerClose registerLogical registerTime
  split <;> split <;> split <;> simp [hcomm]

theorem closed_register : (f.register o p).closed = (f.closed || p.closes) := by
  unfold register registerClose registerLogical registerTime
  split <;> split <;> split <;> simp_all

@[simp] theorem id_register : (f.register o p).id = f.id := by
  unfold register registerClose registerLogical registerTime
  split <;> split <;> split <;> simp

end Flow

theorem Generation.firstSyn_snoc (g : Generation) (m : Member) (e : Ends) :
    firstSyn (g++[m]) e = (g.firstSyn e).or
      (if m.facts.syn = true ∧ m.facts.ends = e then some m.facts.synSequence else none) := by
  unfold firstSyn
  rw [List.find?_append]
  cases hfound : g.find? fun m => m.facts.syn && m.facts.ends = e with
  | some m' => simp
  | none => by_cases h : m.facts.syn = true ∧ m.facts.ends = e <;> simp_all

theorem Generation.closed_snoc (g : Generation) (m : Member) :
    closed (g++[m]) = (g.closed || m.facts.closes) := by
  simp [closed]

namespace Describes

variable {f : Flow} {g : Generation} {o : Observation} {p : Facts}

theorem restarts (h : Describes f g) (p : Facts) : f.restarts p = g.restarts p := by
  unfold Flow.restarts Flow.newSynGeneration Generation.restarts
  rw [h.closed,h.synSequences]

theorem firstSyn_register (h : Describes f g) (e : Ends) :
    (f.register o p).synSequences.get? e = Generation.firstSyn (g++[Book.member o p]) e := by
  rw [Flow.synSequences_register,Generation.firstSyn_snoc,← h.synSequences e]
  unfold Flow.registerSyn
  by_cases hsyn : p.syn = true
  · cases hcontains : f.synSequences.contains p.ends with
    | true =>
      obtain ⟨known,hknown⟩ := (Dict.contains_iff _ _).mp hcontains
      by_cases he : p.ends = e
      · subst he
        simp [hknown]
      · simp [Book.member,he]
    | false =>
      have hnone := (Dict.contains_eq_false_iff _ _).mp hcontains
      by_cases he : p.ends = e
      · subst he
        simp [hsyn,hnone,Book.member]
      · simp [hsyn,Dict.get?_set,Book.member,he,Ne.symm he]
  · simp [hsyn,Book.member]

/-- The direction that the code gives to new ends is their orientation. -/
theorem orientation_register {k : FlowKey} (h : Describes f g) (hkey : Generation.Keyed g k)
    (hp : canonicalKey p = k) (e : Ends) :
    (f.register o p).directions.get? e = Generation.orientation (g++[Book.member o p]) e := by
  obtain ⟨hne,hmembers⟩ := hkey
  cases g with
  | nil => exact absurd rfl hne
  | cons opener rest =>
    have hdirections := h.directions
    rw [Flow.directions_register]
    simp only [Generation.orientation,List.cons_append,List.find?_append] at hdirections ⊢
    have hends : p.ends = opener.facts.ends ∨ p.ends = opener.facts.ends.reverse :=
      ends_of_canonicalKey (hp.trans (hmembers opener (by simp)).symm)
    unfold Flow.registerDirection
    cases hcontains : f.directions.contains p.ends with
    | true =>
      obtain ⟨d,hd⟩ := (Dict.contains_iff _ _).mp hcontains
      rw [hdirections] at hd
      rw [if_pos rfl,hdirections e]
      by_cases he : e = opener.facts.ends
      · simp [he]
      by_cases hpe : p.ends = e
      · subst hpe
        rw [if_neg he] at hd
        obtain ⟨m,hm,-⟩ := Option.map_eq_some_iff.mp hd
        simp [he,hm]
      · simp [he,Book.member,hpe]
    | false =>
      have hnone := (Dict.contains_eq_false_iff _ _).mp hcontains
      rw [hdirections] at hnone
      have hnew : p.ends ≠ opener.facts.ends := by
        intro heq
        simp [heq] at hnone
      have hreverse : p.ends.reverse = opener.facts.ends := by
        rw [hends.resolve_left hnew,Ends.reverse_reverse]
      have hopener : f.directions.get? p.ends.reverse = some opener.origin := by
        rw [hdirections,if_pos hreverse]
      rw [if_neg hnew,Option.map_eq_none_iff] at hnone
      simp only [Bool.false_eq_true,if_false,hopener,Dict.get?_set]
      by_cases hpe : e = p.ends
      · subst hpe
        cases horigin : opener.origin <;>
          simp [hnew,hnone,Book.member,Direction.opposite]
      · rw [if_neg hpe,hdirections e]
        by_cases he : e = opener.facts.ends
        · simp [he]
        · simp [he,Book.member,Ne.symm hpe]

theorem register {k : FlowKey} (h : Describes f g) (hkey : Generation.Keyed g k)
    (hp : canonicalKey p = k) : Describes (f.register o p) (g++[Book.member o p]) where
  closed := by rw [Flow.closed_register,Generation.closed_snoc,h.closed]; rfl
  synSequences := h.firstSyn_register
  directions := h.orientation_register hkey hp

/-- A new flow that its opener has joined. -/
theorem new (id : ℕ) (o : Observation) (p : Facts) :
    Describes ((Flow.new id p o.timestamp (originDirection o p)).register o p) [Book.member o p] where
  closed := by simp [Flow.closed_register,Flow.new,Generation.closed,Book.member]
  synSequences e := by
    rw [Flow.synSequences_register]
    by_cases hsyn : p.syn = true
    · by_cases he : p.ends = e
      · simp [Flow.registerSyn,Flow.new,hsyn,Dict.contains,Generation.firstSyn,Book.member,he]
      · simp [Flow.registerSyn,Flow.new,hsyn,Dict.contains,Generation.firstSyn,Book.member,he,
          Dict.get?_set,Ne.symm he]
    · simp [Flow.registerSyn,Flow.new,hsyn,Generation.firstSyn,Book.member]
  directions e := by
    rw [Flow.directions_register]
    by_cases he : e = p.ends
    · simp [Flow.registerDirection,Flow.new,Dict.contains,Generation.orientation,Book.member,he]
    · simp [Flow.registerDirection,Flow.new,Dict.contains,Generation.orientation,Book.member,he,
        Dict.get?_set]

end Describes

theorem Generation.Keyed.snoc {g : Generation} {k : FlowKey} (h : g.Keyed k) {m : Member}
    (hm : canonicalKey m.facts = k) : Generation.Keyed (g++[m]) k := by
  refine ⟨by simp,fun m' hm' => ?_⟩
  obtain hm' | rfl := by simpa using hm'
  · exact h.2 m' hm'
  · exact hm

theorem Generation.Keyed.unique {g : Generation} {k k' : FlowKey} (h : g.Keyed k) (h' : g.Keyed k') :
    k = k' := by
  obtain ⟨m,hm⟩ := List.exists_mem_of_ne_nil g h.1
  rw [← h.2 m hm,h'.2 m hm]

namespace Book

structure Sound (b : Book) : Prop where
  members : ∀ g ∈ b.generations, ∃ k, g.Keyed k
  byKey : ∀ k i, b.byKey k = some i → ∃ g, b.generations[i]? = some g ∧ g.Keyed k
  byLogical : ∀ l i, b.byLogical l = some i → i < b.generations.length

variable {b : Book} {o : Observation} {p : Facts} {i : ℕ}

/-- A packet joins the generation of its key, which it does not restart. -/
theorem joined_eq_some (h : b.joined p = some i) :
    ∃ g, b.byKey (canonicalKey p) = some i ∧ b.generations[i]? = some g ∧ g.restarts p = false := by
  unfold joined at h
  split at h
  · cases h
  · split at h
    · cases h
    · next hkey _ g hg =>
      split at h
      · cases h
      · cases h
        exact ⟨g,hkey,hg,Bool.eq_false_of_not_eq_true ‹_›⟩

theorem markLogical_lt {table : String → Option ℕ} {n : ℕ} (htable : ∀ l i, table l = some i → i < n)
    (hi : i < n) {logical : Option String} {l : String} {j : ℕ}
    (hj : Registry.markLogical table i logical l = some j) : j < n := by
  cases logical with
  | none => exact htable l j hj
  | some logical =>
    rw [Registry.markLogical,Function.update_apply] at hj
    split at hj
    · cases hj
      exact hi
    · exact htable l j hj

namespace Sound

theorem empty : empty.Sound where
  members := by simp [Book.empty]
  byKey := by simp [Book.empty]
  byLogical := by simp [Book.empty]

theorem join (h : b.Sound) (hjoined : b.joined p = some i) :
    Sound { b with
      generations := b.generations.modify i (·++[member o p])
      byLogical := Registry.markLogical b.byLogical i o.logicalPacketId } := by
  obtain ⟨g,hkey,hg,-⟩ := joined_eq_some hjoined
  obtain ⟨g',hg',hkeyed⟩ := h.byKey _ i hkey
  obtain rfl : g = g' := by rw [hg] at hg'; injection hg'
  have hmodified (j : ℕ) (g' : Generation) (k : FlowKey) (hj : b.generations[j]? = some g')
      (hk : g'.Keyed k) : ∃ g'', (b.generations.modify i (·++[member o p]))[j]? = some g'' ∧ g''.Keyed k := by
    rw [List.getElem?_modify,hj]
    by_cases hij : i = j
    · subst hij
      obtain rfl : g = g' := by rw [hg] at hj; injection hj
      exact ⟨_,rfl,by simpa using hk.snoc (hkeyed.unique hk)⟩
    · exact ⟨g',by simp [hij],hk⟩
  refine ⟨fun g'' hg'' => ?_,fun k j hj => ?_,fun l j hj => ?_⟩
  · obtain ⟨j,hj⟩ := List.mem_iff_getElem?.mp hg''
    obtain ⟨g',hg',-⟩ := Option.map_eq_some_iff.mp (List.getElem?_modify .. ▸ hj)
    obtain ⟨k,hk⟩ := h.members g' (List.mem_of_getElem? hg')
    obtain ⟨g₂,hg₂,hk₂⟩ := hmodified j g' k hg' hk
    rw [hj] at hg₂
    cases hg₂
    exact ⟨k,hk₂⟩
  · obtain ⟨g',hg',hk⟩ := h.byKey k j hj
    exact hmodified j g' k hg' hk
  · rw [List.length_modify]
    exact markLogical_lt h.byLogical (List.getElem?_eq_some_iff.mp hg).1 hj

theorem opens (h : b.Sound) : Sound {
    generations := b.generations++[[member o p]]
    byKey := Function.update b.byKey (canonicalKey p) (some b.generations.length)
    byLogical := Registry.markLogical b.byLogical b.generations.length o.logicalPacketId } where
  members g hg := by
    obtain hg | rfl := by simpa using hg
    · exact h.members g hg
    · exact ⟨canonicalKey p,by simp,by simp [member]⟩
  byKey k i hi := by
    change Function.update b.byKey (canonicalKey p) (some b.generations.length) k = some i at hi
    obtain hk | hk := eq_or_ne k (canonicalKey p)
    · rw [hk,Function.update_self] at hi
      cases hi
      exact ⟨[member o p],by simp,by simp,by simp [member,hk]⟩
    · rw [Function.update_of_ne hk] at hi
      obtain ⟨g,hg,hk⟩ := h.byKey k i hi
      have hlt := (List.getElem?_eq_some_iff.mp hg).1
      exact ⟨g,by rw [List.getElem?_append_left hlt,hg],hk⟩
  byLogical l i hi := by
    have hlt := markLogical_lt (n:=b.generations.length+1)
      (fun l i hi => (h.byLogical l i hi).trans (Nat.lt_succ_self _)) (Nat.lt_succ_self _) hi
    simpa using hlt

theorem observe (h : b.Sound) (o : Observation) : (b.observe o).2.Sound := by
  unfold Book.observe
  split
  · exact h
  split
  · exact h
  split
  · exact h
  split
  · next hjoined => exact h.join hjoined
  · exact h.opens

end Sound
end Book

structure Refines (r : Registry) (b : Book) : Prop where
  flows : List.Forall₂ Describes r.flows b.generations
  byKey : r.byKey = b.byKey
  byLogical : r.logicalToFlow = b.byLogical
  nextId : r.nextId = r.flows.length+1
  ids : ∀ i f, r.flows[i]? = some f → f.id = i+1
  sound : b.Sound

theorem forall₂_modify {α β : Type} {R : α → β → Prop} {l : List α} {l' : List β}
    (h : List.Forall₂ R l l') (i : ℕ) {f : α → α} {g : β → β}
    (hi : ∀ a b, l'[i]? = some b → R a b → R (f a) (g b)) :
    List.Forall₂ R (l.modify i f) (l'.modify i g) := by
  induction h generalizing i with
  | nil => cases i <;> exact .nil
  | cons hab htail ih =>
    cases i with
    | zero => exact .cons (hi _ _ rfl hab) htail
    | succ i => exact .cons hab (ih i fun a b hb => hi a b (by simpa using hb))

namespace Refines

variable {r : Registry} {b : Book} {o : Observation} {p : Facts}

theorem length (h : Refines r b) : r.flows.length = b.generations.length := h.flows.length_eq

theorem describes (h : Refines r b) {i : ℕ} {g : Generation} (hg : b.generations[i]? = some g) :
    ∃ f, r.flows[i]? = some f ∧ Describes f g := by
  obtain ⟨hi,rfl⟩ := List.getElem?_eq_some_iff.mp hg
  have hi' : i < r.flows.length := by rwa [h.length]
  exact ⟨r.flows[i],List.getElem?_eq_getElem hi',h.flows.get hi' hi⟩

theorem flowId (h : Refines r b) {i : ℕ} (hi : i < b.generations.length) : r.flowId i = some (i+1) := by
  obtain ⟨f,hf,-⟩ := h.describes (List.getElem?_eq_getElem hi)
  simp [Registry.flowId,hf,h.ids i f hf]

theorem joined (h : Refines r b) (p : Facts) : r.joined p = b.joined p := by
  unfold Registry.joined Book.joined
  rw [h.byKey]
  cases hkey : b.byKey (canonicalKey p) with
  | none => rfl
  | some i =>
    obtain ⟨g,hg,-⟩ := h.sound.byKey _ i hkey
    obtain ⟨f,hf,hdescribes⟩ := h.describes hg
    simp only [hg,hf,hdescribes.restarts]

theorem empty : Refines .empty .empty where
  flows := .nil
  byKey := rfl
  byLogical := rfl
  nextId := rfl
  ids := by simp [Registry.empty]
  sound := .empty

theorem join (h : Refines r b) {i : ℕ} (hjoined : b.joined p = some i) :
    Refines (r.registerAt i o p) { b with
      generations := b.generations.modify i (·++[Book.member o p])
      byLogical := Registry.markLogical b.byLogical i o.logicalPacketId } where
  flows := by
    obtain ⟨g,hkey,hg,-⟩ := Book.joined_eq_some hjoined
    obtain ⟨g',hg',hkeyed⟩ := h.sound.byKey _ i hkey
    obtain rfl : g = g' := by rw [hg] at hg'; injection hg'
    refine forall₂_modify h.flows i fun f g' hg' hdescribes => ?_
    obtain rfl : g = g' := by rw [hg] at hg'; injection hg'
    exact hdescribes.register hkeyed rfl
  byKey := h.byKey
  byLogical := by rw [← h.byLogical]; rfl
  nextId := by simpa [Registry.registerAt] using h.nextId
  ids j f hf := by
    obtain ⟨f',hf',rfl⟩ := Option.map_eq_some_iff.mp
      (List.getElem?_modify (Flow.register o p) i r.flows j ▸ hf)
    split
    · rw [Flow.id_register]
      exact h.ids j f' hf'
    · exact h.ids j f' hf'
  sound := h.sound.join hjoined

/-- The packet opens a generation. -/
theorem opens (h : Refines r b) :
    Refines ((r.allocate p o.timestamp (originDirection o p)).registerAt r.flows.length o p) {
      generations := b.generations++[[Book.member o p]]
      byKey := Function.update b.byKey (canonicalKey p) (some b.generations.length)
      byLogical := Registry.markLogical b.byLogical b.generations.length o.logicalPacketId } := by
  have hflows : ((r.allocate p o.timestamp (originDirection o p)).registerAt r.flows.length o p).flows =
      r.flows++[(Flow.new r.nextId p o.timestamp (originDirection o p)).register o p] := by
    simp [Registry.registerAt,Registry.allocate,List.modify_eq_set_getElem?]
  refine ⟨?_,?_,?_,?_,?_,h.sound.opens⟩
  · rw [hflows]
    exact List.rel_append h.flows (.cons (Describes.new _ o p) .nil)
  · show Function.update r.byKey _ _ = _
    rw [h.byKey,h.length]
  · rw [← h.byLogical,← h.length]
    rfl
  · rw [hflows]
    simpa [Registry.registerAt,Registry.allocate] using h.nextId
  · rw [hflows]
    intro i f hf
    obtain hlt | hlt := lt_or_ge i r.flows.length
    · rw [List.getElem?_append_left hlt] at hf
      exact h.ids i f hf
    · rw [List.getElem?_append_right hlt] at hf
      obtain ⟨hi,rfl⟩ := List.getElem?_eq_some_iff.mp hf
      simp at hi
      simp [Flow.new,h.nextId]
      omega

/-- One observation is filed in the same place, and the registry goes on refining the book. -/
theorem observePacket (h : Refines r b) (o : Observation) :
    (r.observePacket o).1 = (b.observe o).1.map (·+1) ∧ Refines (r.observePacket o).2 (b.observe o).2 := by
  unfold Registry.observePacket Book.observe
  cases o.facts with
  | none => exact ⟨rfl,h⟩
  | some p =>
    by_cases hother : p.protocol = .other
    · simp only [hother,if_true]
      exact ⟨rfl,h⟩
    have hknown : r.known o = o.logicalPacketId.bind b.byLogical := by rw [Registry.known,h.byLogical]
    simp only [hother,if_false,hknown]
    cases hknown : o.logicalPacketId.bind b.byLogical with
    | some i =>
      obtain ⟨l,-,hl⟩ := Option.bind_eq_some_iff.mp hknown
      exact ⟨h.flowId (h.sound.byLogical l i hl),h⟩
    | none =>
      rw [h.joined]
      cases hjoined : b.joined p with
      | some i =>
        have hjoin := h.join (o:=o) hjoined
        obtain ⟨g,-,hg,-⟩ := Book.joined_eq_some hjoined
        have hi : i < (b.generations.modify i (·++[Book.member o p])).length := by
          rw [List.length_modify]
          exact (List.getElem?_eq_some_iff.mp hg).1
        exact ⟨hjoin.flowId hi,hjoin⟩
      | none =>
        have hopens := h.opens (o:=o) (p:=p)
        rw [h.length] at hopens
        simp only [h.length]
        exact ⟨hopens.flowId (by simp),hopens⟩

theorem observeAll (h : Refines r b) (obs : List Observation) :
    (r.observeAll obs).1 = (b.observeAll obs).1.map (Option.map (·+1)) ∧
      Refines (r.observeAll obs).2 (b.observeAll obs).2 := by
  induction obs generalizing r b with
  | nil => exact ⟨rfl,h⟩
  | cons o rest ih =>
    obtain ⟨hid,hrefines⟩ := h.observePacket o
    obtain ⟨hids,hrefines⟩ := ih hrefines
    exact ⟨congrArg₂ List.cons hid hids,hrefines⟩

end Refines

end Report
end FakeNetNG
