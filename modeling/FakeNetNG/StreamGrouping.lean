import FakeNetNG.CaptureWriter
import FakeNetNG.FlowGenerations

/-!
# The streams of a payload report

The report selects one observation of each logical packet and puts its TCP segment into the list of a
flow and a direction. Which packets meet in one list is a matter of the generations and of the
directions that were recorded with the packets.
-/

namespace FakeNetNG
namespace Report

inductive Role
  | initial
  | final
  | inbound
  deriving DecidableEq

def Role.text : Role → String
  | .initial => "initial"
  | .final => "final"
  | .inbound => "inbound"

/-- A record of the capture with its entry in the index. -/
structure Entry where
  ordinal : ℕ
  facts : Option Facts
  timestamp : ℚ
  role : Role
  direction : String
  logicalPacketId : String
  flowId : Option ℕ
  deriving DecidableEq

structure Selection where
  selected : List Entry
  byLogical : String → Option Entry

/-- The initial observation of a packet counts, and the final one only where it is the first. -/
def chooseStep (s : Selection) (x : Entry) : Except String Selection :=
  match s.byLogical x.logicalPacketId with
  | none => .ok ⟨s.selected++[x],Function.update s.byLogical x.logicalPacketId (some x)⟩
  | some previous =>
    if x.role = previous.role then
      .error s!"logical packet {x.logicalPacketId} has duplicate {x.role.text} observations"
    else if x.role = .inbound ∨ previous.role = .inbound then
      .error (s!"logical packet {x.logicalPacketId} has incompatible observation roles "++
        s!"{previous.role.text}/{x.role.text}")
    else if x.role = .initial then
      .ok ⟨s.selected.replace previous x,Function.update s.byLogical x.logicalPacketId (some x)⟩
    else .ok s

def chooseObservations (entries : List Entry) : Except String (List Entry) :=
  (entries.foldlM chooseStep ⟨[],fun _ => none⟩).map Selection.selected

inductive FlowId
  | registered (number : ℕ)
  | unowned (ordinal : ℕ)
  deriving DecidableEq

structure Segment where
  start : ℕ
  payload : List UInt8
  fin : Bool
  ordinal : ℕ
  deriving DecidableEq

structure Streams where
  registry : Registry
  sentEnds : FlowId × Ends → Option ℕ
  peerAcks : FlowId × Ends → Option ℕ
  segments : FlowId × Direction → List Segment

def tcpSequenceHalf : ℕ := 2^31

/-- The flow of the entry. One that the capture did not allocate is allocated now. -/
def flowIdOf (r : Registry) (x : Entry) : FlowId × Registry :=
  match x.flowId with
  | some number => (.registered number,r)
  | none =>
    match r.observePacket ⟨x.facts,x.direction,some x.timestamp,some x.logicalPacketId⟩ with
    | (some number,r) => (.registered number,r)
    | (none,r) => (.unowned x.ordinal,r)

/-- The direction that the registry has for the ends, or else the one recorded with the packet. -/
def directionOf (r : Registry) (id : FlowId) (x : Entry) (e : Ends) : Direction :=
  let known := match id with
    | .registered number => r.directionFor number e
    | .unowned _ => .unknown
  if known = .unknown then .ofText x.direction else known

/-- One octet before the data that the peer has acknowledged. -/
def isKeepalive (s : Streams) (side : FlowId × Ends) (p : Facts) (start : ℕ) : Bool :=
  p.payload.length = 1 && p.flags = thAck && match s.sentEnds side with
    | none => false
    | some sentEnd =>
      start % tcpSequenceModulus = (sentEnd+tcpSequenceModulus-1) % tcpSequenceModulus &&
        s.peerAcks side = some sentEnd

def advanceSent (sentEnd : Option ℕ) (stop : ℕ) : Option ℕ :=
  match sentEnd with
  | none => some stop
  | some sentEnd =>
    let distance := (stop+tcpSequenceModulus-sentEnd) % tcpSequenceModulus
    if 0 < distance ∧ distance < tcpSequenceHalf then some stop else some sentEnd

def addSegment (s : Streams) (id : FlowId) (d : Direction) (p : Facts) (ordinal : ℕ) : Streams :=
  let start := p.seq+if p.hasFlag thSyn then 1 else 0
  let side := (id,p.ends)
  let keepalive := isKeepalive s side p start
  let stop := (start+p.payload.length) % tcpSequenceModulus
  let segment : Segment := ⟨start,if keepalive then [] else p.payload,p.hasFlag thFin,ordinal⟩
  { s with
    sentEnds :=
      if keepalive ∨ p.payload = [] then s.sentEnds
      else Function.update s.sentEnds side (advanceSent (s.sentEnds side) stop)
    peerAcks :=
      if p.hasFlag thAck then Function.update s.peerAcks (id,p.ends.reverse) (some p.ack) else s.peerAcks
    segments := Function.update s.segments (id,d) (s.segments (id,d)++[segment]) }

def groupStep (s : Streams) (x : Entry) : Except String Streams :=
  match x.facts with
  | none => .error "unable to parse packet"
  | some p =>
    if p.protocol = .other then .ok s
    else
      let (id,r) := flowIdOf s.registry x
      let s := { s with registry := r }
      if p.protocol = .tcp then .ok (addSegment s id (directionOf r id x p.ends) p x.ordinal) else .ok s

def groupStreams (r : Registry) (selected : List Entry) : Except String Streams :=
  selected.foldlM groupStep ⟨r,fun _ => none,fun _ => none,fun _ => []⟩

/-- One packet that the capture observed, wrote and indexed. -/
structure Captured where
  facts : Option Facts
  timestamp : ℚ
  role : Role
  direction : String
  logicalPacketId : String

namespace Captured

def observation (c : Captured) : Observation :=
  ⟨c.facts,c.direction,some c.timestamp,some c.logicalPacketId⟩

def entry (c : Captured) (ordinal : ℕ) (flowId : Option ℕ) : Entry where
  ordinal := ordinal
  facts := c.facts
  timestamp := c.timestamp
  role := c.role
  direction := Pcap.orElse c.direction "unknown"
  logicalPacketId := Pcap.orElse c.logicalPacketId (Pcap.packetName ordinal)
  flowId := flowId

end Captured

def registryOf (captured : List Captured) : Registry :=
  (Registry.empty.observeAll (captured.map Captured.observation)).2

def entriesOf (captured : List Captured) : List Entry :=
  let ids := (Registry.empty.observeAll (captured.map Captured.observation)).1
  ((captured.zip ids).zipIdx 1).map fun x => x.1.1.entry x.2 x.1.2

def streamsOf (captured : List Captured) : Except String Streams := do
  let selected ← chooseObservations (entriesOf captured)
  groupStreams (registryOf captured) selected

/-- The segments in one list are of packets between the same ends. -/
def SameSides (captured : List Captured) (s : Streams) : Prop :=
  ∀ key, ∀ a ∈ s.segments key, ∀ b ∈ s.segments key, ∀ x ∈ entriesOf captured, ∀ y ∈ entriesOf captured,
    ∀ p q, x.facts = some p → y.facts = some q → x.ordinal = a.ordinal → y.ordinal = b.ordinal →
      p.ends = q.ends

def bookOf (captured : List Captured) : Book :=
  (Book.empty.observeAll (captured.map Captured.observation)).2

/-- The generation of the record with this ordinal. -/
def generationOf (captured : List Captured) (ordinal : ℕ) : Option ℕ :=
  ((Book.empty.observeAll (captured.map Captured.observation)).1[ordinal-1]?).join

namespace Generation

/-- The opener was recorded as inbound or outbound, or is a bare SYN. -/
def originKnown (g : Generation) : Prop := ∃ opener ∈ g.head?, opener.origin ≠ .unknown

/-- What the report calls the direction of a packet that was recorded with this one. -/
def label (g : Generation) (e : Ends) (recorded : String) : Direction :=
  match g.orientation e with
  | some .outbound => .outbound
  | some .inbound => .inbound
  | _ => .ofText recorded

/-- The packets, each with its recorded direction, lie between the ends of a generation whose opener
has a known origin, or else no two of them with other ends have the same label. -/
def Separates (g : Generation) (packets : Set (Facts × String)) : Prop :=
  (g.originKnown ∧ ∀ x ∈ packets, (g.orientation x.1.ends).isSome) ∨
    ∀ x ∈ packets, ∀ y ∈ packets, x.1.ends ≠ y.1.ends → g.label x.1.ends x.2 ≠ g.label y.1.ends y.2

end Generation

/-- The selected TCP packets of a generation. -/
def filed (captured : List Captured) (selected : List Entry) (i : ℕ) : Set (Facts × String) :=
  { packet | ∃ x ∈ selected, x.facts = some packet.1 ∧ packet.1.protocol = .tcp ∧
    x.direction = packet.2 ∧ generationOf captured x.ordinal = some i }

theorem Generation.orientation_isSome {g : Generation} {k : FlowKey} (hg : g.Keyed k) {opener : Member}
    {rest : List Member} (hopener : g = opener :: rest) {e : Ends} (he : (g.orientation e).isSome) :
    e = opener.facts.ends ∨ e = opener.facts.ends.reverse := by
  subst hopener
  by_cases hends : e = opener.facts.ends
  · exact .inl hends
  · rw [orientation,if_neg hends,Option.isSome_map] at he
    obtain ⟨m,hm⟩ := Option.isSome_iff_exists.mp he
    have hmends : m.facts.ends = e := by simpa using List.find?_some hm
    rw [← hmends]
    refine ends_of_canonicalKey ?_
    rw [hg.2 m (List.mem_cons_of_mem _ (List.mem_of_find?_eq_some hm)),hg.2 opener (by simp)]

theorem Generation.label_ne {g : Generation} {k : FlowKey} (hg : g.Keyed k) (hknown : g.originKnown)
    {e e' : Ends} (he : (g.orientation e).isSome) (he' : (g.orientation e').isSome) (hne : e ≠ e')
    (recorded recorded' : String) : g.label e recorded ≠ g.label e' recorded' := by
  obtain ⟨opener,hopener,horigin⟩ := hknown
  obtain ⟨rest,hopener⟩ : ∃ rest, g = opener :: rest := List.head?_eq_some_iff.mp hopener
  have hopenerLabel : ∀ recorded, g.label opener.facts.ends recorded = opener.origin := by
    intro recorded
    rw [label,hopener,orientation,if_pos rfl]
    cases horigin' : opener.origin <;> simp_all
  have hpeerLabel : ∀ e recorded, (g.orientation e).isSome → e ≠ opener.facts.ends →
      some (g.label e recorded) = opener.origin.opposite := by
    intro e recorded he hpeer
    rw [hopener,orientation,if_neg hpeer,Option.isSome_map] at he
    obtain ⟨m,hm⟩ := Option.isSome_iff_exists.mp he
    rw [label,hopener,orientation,if_neg hpeer,hm]
    cases horigin' : opener.origin <;> simp_all [Direction.opposite]
  have hopposite : opener.origin.opposite ≠ some opener.origin := by
    cases opener.origin <;> simp [Direction.opposite]
  obtain rfl | hpeer := orientation_isSome hg hopener he <;>
    obtain rfl | hpeer' := orientation_isSome hg hopener he'
  · exact absurd rfl hne
  · rw [hopenerLabel]
    intro heq
    exact hopposite ((hpeerLabel e' recorded' he' (Ne.symm hne)).symm.trans (congrArg some heq.symm))
  · rw [hopenerLabel]
    intro heq
    exact hopposite ((hpeerLabel e recorded he hne).symm.trans (congrArg some heq))
  · exact absurd (hpeer.trans hpeer'.symm) hne

theorem Generation.Separates.label_ne {g : Generation} {k : FlowKey} (hg : g.Keyed k)
    {packets : Set (Facts × String)} (h : g.Separates packets) {x y : Facts × String}
    (hx : x ∈ packets) (hy : y ∈ packets) (hne : x.1.ends ≠ y.1.ends) :
    g.label x.1.ends x.2 ≠ g.label y.1.ends y.2 := by
  obtain ⟨hknown,hends⟩ | h := h
  · exact Generation.label_ne hg hknown (hends x hx) (hends y hy) hne _ _
  · exact h x hx y hy hne

theorem Refines.directionFor {r : Registry} {b : Book} (h : Refines r b) {i : ℕ} {g : Generation}
    (hg : b.generations[i]? = some g) (e : Ends) :
    r.directionFor (i+1) e = (g.orientation e).getD .unknown := by
  obtain ⟨f,hf,hdescribes⟩ := h.describes hg
  have hfind : r.flows.find? (·.id = i+1) = some f := by
    obtain ⟨hi,hfi⟩ := List.getElem?_eq_some_iff.mp hf
    rw [List.find?_eq_some_iff_getElem]
    refine ⟨by simp [h.ids i f hf],i,hi,hfi,fun j hj => ?_⟩
    have hj' := h.ids j _ (List.getElem?_eq_getElem (hj.trans hi))
    simp [hj']
    omega
  rw [Registry.directionFor,hfind]
  simp only [hdescribes.directions]

theorem Refines.directionOf {r : Registry} {b : Book} (h : Refines r b) {i : ℕ} {g : Generation}
    (hg : b.generations[i]? = some g) (x : Entry) (e : Ends) :
    directionOf r (.registered (i+1)) x e = g.label e x.direction := by
  unfold Report.directionOf Generation.label
  simp only [h.directionFor hg]
  cases g.orientation e with
  | none => simp
  | some d => cases d <;> simp

namespace Book

variable {b : Book}

theorem length_le_observe (b : Book) (o : Observation) :
    b.generations.length ≤ (b.observe o).2.generations.length := by
  unfold observe
  split
  · exact le_rfl
  split
  · exact le_rfl
  split
  · exact le_rfl
  split <;> simp

theorem observe_lt (hb : b.Sound) {o : Observation} {i : ℕ} (h : (b.observe o).1 = some i) :
    i < (b.observe o).2.generations.length := by
  unfold observe at h ⊢
  split at h
  · cases h
  split at h
  · cases h
  next hprotocol =>
  simp only [hprotocol,if_false]
  split at h
  · next hknown =>
    cases h
    obtain ⟨l,-,hl⟩ := Option.bind_eq_some_iff.mp hknown
    simpa [hknown] using hb.byLogical l i hl
  · next hknown =>
    split at h
    · next hjoined =>
      cases h
      obtain ⟨g,-,hg,-⟩ := joined_eq_some hjoined
      simpa [hknown,hjoined] using (List.getElem?_eq_some_iff.mp hg).1
    · next hjoined =>
      cases h
      simp

theorem observe_isSome {o : Observation} {p : Facts} (hp : o.facts = some p) (hother : p.protocol ≠ .other) :
    ((b.observe o).1).isSome := by
  unfold observe
  simp only [hp,hother,if_false]
  split
  · rfl
  split <;> rfl

theorem length_le_observeAll (b : Book) (obs : List Observation) :
    b.generations.length ≤ (b.observeAll obs).2.generations.length := by
  induction obs generalizing b with
  | nil => exact le_rfl
  | cons o rest ih => exact (b.length_le_observe o).trans (ih _)

theorem observeAll_getElem? (hb : b.Sound) {obs : List Observation} {n : ℕ} {o : Observation} {p : Facts}
    (ho : obs[n]? = some o) (hp : o.facts = some p) (hother : p.protocol ≠ .other) :
    ∃ i, (b.observeAll obs).1[n]? = some (some i) ∧ i < (b.observeAll obs).2.generations.length := by
  induction obs generalizing b n with
  | nil => simp at ho
  | cons o' rest ih =>
    cases n with
    | zero =>
      obtain rfl : o' = o := by simpa using ho
      obtain ⟨i,hi⟩ := Option.isSome_iff_exists.mp (observe_isSome (b:=b) hp hother)
      exact ⟨i,congrArg some hi,(observe_lt hb hi).trans_le (length_le_observeAll _ _)⟩
    | succ n => exact ih (hb.observe o') (by simpa using ho)

end Book

theorem registryOf_refines (captured : List Captured) : Refines (registryOf captured) (bookOf captured) :=
  (Refines.empty.observeAll _).2

theorem mem_entriesOf {captured : List Captured} {x : Entry} (hx : x ∈ entriesOf captured) :
    ∃ n c, captured[n]? = some c ∧ x.ordinal = n+1 ∧
      ∃ id, (Registry.empty.observeAll (captured.map Captured.observation)).1[n]? = some id ∧
        x = c.entry (n+1) id := by
  obtain ⟨⟨⟨c,id⟩,m⟩,hmem,rfl⟩ := List.mem_map.mp hx
  obtain ⟨n,rfl,hzip⟩ : ∃ n, m = n+1 ∧ (captured.zip
      (Registry.empty.observeAll (captured.map Captured.observation)).1)[n]? = some (c,id) := by
    have hle := List.le_snd_of_mem_zipIdx hmem
    refine ⟨m-1,by omega,?_⟩
    simpa using List.mk_mem_zipIdx_iff_le_and_getElem?_sub.mp hmem |>.2
  obtain ⟨hc,hid⟩ := List.getElem?_zip_eq_some.mp hzip
  exact ⟨n,c,hc,rfl,id,hid,rfl⟩

theorem entriesOf_ordinal {captured : List Captured} {x y : Entry} (hx : x ∈ entriesOf captured)
    (hy : y ∈ entriesOf captured) (h : x.ordinal = y.ordinal) : x = y := by
  obtain ⟨n,c,hc,hxn,id,hid,rfl⟩ := mem_entriesOf hx
  obtain ⟨m,c',hc',hyn,id',hid',rfl⟩ := mem_entriesOf hy
  obtain rfl : n = m := by omega
  rw [hc] at hc'
  rw [hid] at hid'
  cases hc'
  cases hid'
  rfl

theorem entriesOf_flowId {captured : List Captured} {x : Entry} (hx : x ∈ entriesOf captured) {p : Facts}
    (hp : x.facts = some p) (hother : p.protocol ≠ .other) :
    ∃ i g, generationOf captured x.ordinal = some i ∧ x.flowId = some (i+1) ∧
      (bookOf captured).generations[i]? = some g := by
  obtain ⟨n,c,hc,hn,id,hid,rfl⟩ := mem_entriesOf hx
  have hobservation : (captured.map Captured.observation)[n]? = some c.observation := by simp [hc]
  obtain ⟨i,hi,hlt⟩ := Book.observeAll_getElem? Book.Sound.empty hobservation hp hother
  rw [(Refines.empty.observeAll _).1,List.getElem?_map,hi] at hid
  cases hid
  refine ⟨i,_,?_,rfl,List.getElem?_eq_getElem hlt⟩
  show ((Book.empty.observeAll _).1[n+1-1]?).join = _
  rw [Nat.add_sub_cancel,hi]
  rfl

theorem mem_replace {l : List Entry} {a b y : Entry} (h : y ∈ l.replace a b) : y ∈ l ∨ y = b := by
  induction l with
  | nil => cases h
  | cons x l ih =>
    rw [List.replace_cons] at h
    split at h
    · obtain rfl | h := List.mem_cons.mp h
      · exact .inr rfl
      · exact .inl (List.mem_cons_of_mem _ h)
    · obtain rfl | h := List.mem_cons.mp h
      · exact .inl (List.mem_cons_self ..)
      · exact (ih h).imp_left (List.mem_cons_of_mem _)

theorem chooseStep_mem {s s' : Selection} {x : Entry} (h : chooseStep s x = .ok s') {y : Entry}
    (hy : y ∈ s'.selected) : y ∈ s.selected ∨ y = x := by
  unfold chooseStep at h
  split at h
  · cases h
    simpa using hy
  · split at h
    · cases h
    split at h
    · cases h
    split at h
    · cases h
      exact mem_replace hy
    · cases h
      exact .inl hy

theorem chooseObservations_subset {entries selected : List Entry}
    (h : chooseObservations entries = .ok selected) : ∀ x ∈ selected, x ∈ entries := by
  have hfold : ∀ (entries : List Entry) (s s' : Selection), entries.foldlM chooseStep s = .ok s' →
      ∀ y ∈ s'.selected, y ∈ s.selected ∨ y ∈ entries := by
    intro entries
    induction entries with
    | nil =>
      intro s s' h y hy
      cases h
      exact .inl hy
    | cons x entries ih =>
      intro s s' h y hy
      rw [List.foldlM_cons] at h
      cases hstep : chooseStep s x with
      | error e =>
        rw [hstep] at h
        cases h
      | ok s₁ =>
        rw [hstep] at h
        obtain hy | hy := ih s₁ s' h y hy
        · obtain hy | rfl := chooseStep_mem hstep hy
          · exact .inl hy
          · exact .inr (by simp)
        · exact .inr (by simp [hy])
  unfold chooseObservations at h
  cases hs : entries.foldlM chooseStep ⟨[],fun _ => none⟩ with
  | error e =>
    rw [hs] at h
    cases h
  | ok s =>
    rw [hs] at h
    cases h
    intro x hx
    exact (hfold entries _ s hs x hx).resolve_left (by simp)

def ordinals (s : Streams) (key : FlowId × Direction) : List ℕ := (s.segments key).map Segment.ordinal

def GoesTo (r : Registry) (x : Entry) (key : FlowId × Direction) : Prop :=
  ∃ p i, x.facts = some p ∧ p.protocol = .tcp ∧ x.flowId = some i ∧
    key = (.registered i,directionOf r (.registered i) x p.ends)

theorem ordinals_addSegment (s : Streams) (id : FlowId) (d : Direction) (p : Facts) (n m : ℕ)
    (key : FlowId × Direction) :
    m ∈ ordinals (addSegment s id d p n) key ↔ m ∈ ordinals s key ∨ key = (id,d) ∧ n = m := by
  unfold ordinals addSegment
  simp only [Function.update_apply]
  split
  · next hkey =>
    rw [List.map_append,List.mem_append,hkey]
    simp only [List.map_cons,List.map_nil,List.mem_singleton,true_and]
    exact or_congr Iff.rfl eq_comm
  · next hkey => simp [hkey]

/-- The flow of every TCP or UDP packet was allocated by the capture. -/
def Owned (x : Entry) : Prop := ∀ p, x.facts = some p → p.protocol ≠ .other → x.flowId.isSome

theorem groupStep_ok {s s' : Streams} {x : Entry} (hx : Owned x) (h : groupStep s x = .ok s') :
    s'.registry = s.registry ∧ ∀ key n, n ∈ ordinals s' key ↔
      n ∈ ordinals s key ∨ GoesTo s.registry x key ∧ x.ordinal = n := by
  unfold groupStep at h
  split at h
  · cases h
  next p hp =>
  by_cases hother : p.protocol = .other
  · rw [if_pos hother] at h
    cases h
    refine ⟨rfl,fun key n => ⟨.inl,?_⟩⟩
    rintro (h | ⟨⟨q,i,hq,htcp,-⟩,-⟩)
    · exact h
    · rw [hp] at hq
      cases hq
      rw [hother] at htcp
      cases htcp
  · obtain ⟨i,hi⟩ := Option.isSome_iff_exists.mp (hx p hp hother)
    simp only [if_neg hother,flowIdOf,hi] at h
    by_cases htcp : p.protocol = .tcp
    · rw [if_pos htcp] at h
      cases h
      refine ⟨rfl,fun key n => ?_⟩
      rw [ordinals_addSegment]
      refine or_congr Iff.rfl (and_congr ⟨fun hkey => ⟨p,i,hp,htcp,hi,hkey⟩,?_⟩ Iff.rfl)
      rintro ⟨q,j,hq,-,hj,hkey⟩
      rw [hp] at hq
      rw [hi] at hj
      cases hq
      cases hj
      exact hkey
    · rw [if_neg htcp] at h
      cases h
      refine ⟨rfl,fun key n => ⟨.inl,?_⟩⟩
      rintro (h | ⟨⟨q,j,hq,htcp',-⟩,-⟩)
      · exact h
      · rw [hp] at hq
        cases hq
        exact absurd htcp' htcp

theorem group_ok {selected : List Entry} (howned : ∀ x ∈ selected, Owned x) {s s' : Streams}
    (h : selected.foldlM groupStep s = .ok s') (key : FlowId × Direction) (n : ℕ) :
    n ∈ ordinals s' key ↔
      n ∈ ordinals s key ∨ ∃ x ∈ selected, GoesTo s.registry x key ∧ x.ordinal = n := by
  induction selected generalizing s with
  | nil =>
    cases h
    simp
  | cons x selected ih =>
    rw [List.foldlM_cons] at h
    cases hstep : groupStep s x with
    | error e =>
      rw [hstep] at h
      cases h
    | ok s₁ =>
      rw [hstep] at h
      obtain ⟨hregistry,hordinals⟩ := groupStep_ok (howned x (by simp)) hstep
      rw [ih (fun y hy => howned y (by simp [hy])) h,hordinals,hregistry]
      simp [or_assoc]

theorem groupStreams_ordinals {captured : List Captured} {selected : List Entry}
    (hselected : chooseObservations (entriesOf captured) = .ok selected) {s : Streams}
    (hs : groupStreams (registryOf captured) selected = .ok s) (key : FlowId × Direction) (n : ℕ) :
    n ∈ ordinals s key ↔ ∃ x ∈ selected, GoesTo (registryOf captured) x key ∧ x.ordinal = n := by
  have howned : ∀ x ∈ selected, Owned x := by
    intro x hx p hp hother
    obtain ⟨i,-,-,hid,-⟩ := entriesOf_flowId (chooseObservations_subset hselected x hx) hp hother
    simp [hid]
  rw [group_ok howned hs]
  simp [ordinals]

theorem goesTo_iff {captured : List Captured} {x : Entry} (hx : x ∈ entriesOf captured) {p : Facts}
    (hp : x.facts = some p) (htcp : p.protocol = .tcp) {i : ℕ} {g : Generation}
    (hi : generationOf captured x.ordinal = some i) (hg : (bookOf captured).generations[i]? = some g)
    (key : FlowId × Direction) :
    GoesTo (registryOf captured) x key ↔ key = (.registered (i+1),g.label p.ends x.direction) := by
  obtain ⟨i',g',hi',hid,hg'⟩ := entriesOf_flowId hx hp (by simp [htcp])
  obtain rfl : i = i' := by rw [hi] at hi'; injection hi'
  rw [← (registryOf_refines captured).directionOf hg x p.ends]
  constructor
  · rintro ⟨q,j,hq,-,hj,rfl⟩
    rw [hp] at hq
    rw [hid] at hj
    cases hq
    cases hj
    rfl
  · rintro rfl
    exact ⟨p,i+1,hp,htcp,hid,rfl⟩

/-- The selected packets of every generation are kept apart by their labels. -/
def LabelsSeparate (captured : List Captured) : Prop :=
  ∀ selected, chooseObservations (entriesOf captured) = .ok selected →
    ∀ i (g : Generation), (bookOf captured).generations[i]? = some g → g.Separates (filed captured selected i)

/-- The two halves of a conversation stay apart in a report exactly if the origin of every connection
is known or the directions recorded with its packets tell its two ends apart. -/
theorem sameSides_iff_labelsSeparate (captured : List Captured) (s : Streams)
    (hs : streamsOf captured = .ok s) : SameSides captured s ↔ LabelsSeparate captured := by
  obtain ⟨selected,hselected,hgroup⟩ : ∃ selected, chooseObservations (entriesOf captured) = .ok selected ∧
      groupStreams (registryOf captured) selected = .ok s := by
    unfold streamsOf at hs
    cases hchoose : chooseObservations (entriesOf captured) with
    | error e =>
      rw [hchoose] at hs
      cases hs
    | ok selected =>
      rw [hchoose] at hs
      exact ⟨selected,rfl,hs⟩
  have hsubset := chooseObservations_subset hselected
  have hordinals := groupStreams_ordinals hselected hgroup
  constructor
  · intro hsides selected' hselected' i g hg
    rw [hselected] at hselected'
    cases hselected'
    refine .inr ?_
    rintro ⟨p,d⟩ ⟨x,hx,hp,htcp,rfl,hi⟩ ⟨q,d'⟩ ⟨y,hy,hq,htcp',rfl,hi'⟩ hne hlabel
    have hgoes := (goesTo_iff (hsubset x hx) hp htcp hi hg _).mpr rfl
    have hgoes' := (goesTo_iff (hsubset y hy) hq htcp' hi' hg _).mpr (congrArg (Prod.mk _) hlabel)
    obtain ⟨a,ha,hax⟩ := List.mem_map.mp ((hordinals _ _).mpr ⟨x,hx,hgoes,rfl⟩)
    obtain ⟨b,hb,hby⟩ := List.mem_map.mp ((hordinals _ _).mpr ⟨y,hy,hgoes',rfl⟩)
    exact hne (hsides _ a ha b hb x (hsubset x hx) y (hsubset y hy) p q hp hq hax.symm hby.symm)
  · intro hlabels key a ha b hb x hx y hy p q hp hq hxa hyb
    obtain ⟨x',hx',hgoes,hxn⟩ := (hordinals key _).mp (List.mem_map_of_mem ha)
    obtain ⟨y',hy',hgoes',hyn⟩ := (hordinals key _).mp (List.mem_map_of_mem hb)
    obtain rfl := entriesOf_ordinal hx (hsubset x' hx') (hxa.trans hxn.symm)
    obtain rfl := entriesOf_ordinal hy (hsubset y' hy') (hyb.trans hyn.symm)
    have htcp : p.protocol = .tcp := by
      obtain ⟨p',-,hp',htcp,-⟩ := hgoes
      rw [hp] at hp'
      cases hp'
      exact htcp
    have htcp' : q.protocol = .tcp := by
      obtain ⟨q',-,hq',htcp',-⟩ := hgoes'
      rw [hq] at hq'
      cases hq'
      exact htcp'
    obtain ⟨i,g,hi,-,hg⟩ := entriesOf_flowId hx hp (by simp [htcp])
    obtain ⟨j,g',hj,-,hg'⟩ := entriesOf_flowId hy hq (by simp [htcp'])
    have hkey := (goesTo_iff hx hp htcp hi hg key).mp hgoes
    have hkey' := (goesTo_iff hy hq htcp' hj hg' key).mp hgoes'
    obtain rfl : i = j := by
      have := hkey.symm.trans hkey'
      simp at this
      exact this.1
    obtain rfl : g = g' := by rw [hg] at hg'; injection hg'
    by_contra hne
    obtain ⟨k,hk⟩ := (registryOf_refines captured).sound.members g (List.mem_of_getElem? hg)
    have hseparates := hlabels selected hselected i g hg
    have hlabel := hseparates.label_ne hk (x:=(p,x.direction)) (y:=(q,y.direction))
      ⟨x,hx',hp,htcp,rfl,hi⟩ ⟨y,hy',hq,htcp',rfl,hj⟩ hne
    exact hlabel (congrArg Prod.snd (hkey.symm.trans hkey'))

def client : Endpoint := ("10.0.0.2",49152)

def server : Endpoint := ("203.0.113.7",80)

/-- A connection that was open before the capture, whose packets have no recorded direction. -/
def midStream : List Captured :=
  [⟨some ⟨4,.tcp,client,server,1000,9000,0x18,[0x61]⟩,1,.initial,"unknown","packet-00000001"⟩,
    ⟨some ⟨4,.tcp,server,client,9000,1001,0x18,[0x62]⟩,2,.initial,"unknown","packet-00000002"⟩]

theorem midStream_segments :
    (streamsOf midStream).toOption.map (fun s => s.segments (.registered 1,.unknown)) =
      some [⟨1000,[0x61],false,1⟩,⟨9000,[0x62],false,2⟩] := by decide

theorem streamsOf_midStream : ∃ s, streamsOf midStream = .ok s ∧
    s.segments (.registered 1,.unknown) = [⟨1000,[0x61],false,1⟩,⟨9000,[0x62],false,2⟩] := by
  have hsegments := midStream_segments
  cases hs : streamsOf midStream with
  | error e =>
    rw [hs] at hsegments
    cases hsegments
  | ok s =>
    rw [hs] at hsegments
    exact ⟨s,rfl,Option.some.inj hsegments⟩

/-- Both halves of the conversation are in one list. -/
theorem midStream_mixes_sides : ∃ s, streamsOf midStream = .ok s ∧ ¬SameSides midStream s := by
  obtain ⟨s,hs,hsegments⟩ := streamsOf_midStream
  refine ⟨s,hs,fun hsides => ?_⟩
  have hne : (⟨client,server⟩ : Ends) ≠ ⟨server,client⟩ := by decide
  refine hne (hsides (.registered 1,.unknown) ⟨1000,[0x61],false,1⟩ (by simp [hsegments])
    ⟨9000,[0x62],false,2⟩ (by simp [hsegments])
    ⟨1,some ⟨4,.tcp,client,server,1000,9000,0x18,[0x61]⟩,1,.initial,"unknown","packet-00000001",some 1⟩ ?_
    ⟨2,some ⟨4,.tcp,server,client,9000,1001,0x18,[0x62]⟩,2,.initial,"unknown","packet-00000002",some 1⟩ ?_
    _ _ rfl rfl rfl rfl)
  · decide
  · decide

theorem sameSides_iff_labelsSeparate_midStream :
    ∃ s, streamsOf midStream = .ok s ∧ (SameSides midStream s ↔ LabelsSeparate midStream) := by
  obtain ⟨s,hs,-⟩ := streamsOf_midStream
  exact ⟨s,hs,sameSides_iff_labelsSeparate midStream s hs⟩

end Report
end FakeNetNG
