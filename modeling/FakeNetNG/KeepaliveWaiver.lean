import FakeNetNG.TcpAssembly

/-!
# The octets that are waived

A keep-alive probe repeats the last octet that its sender sent, and the report drops the octet of
the probe. The sender is known by its ends and the stream by its label. What the registry knows of the
ends labels all packets of a sender alike. Where it knows nothing the label is the direction recorded
with the single packet, and the octet may have been filed under another one.
-/

namespace FakeNetNG
namespace Report

variable {r : Registry} {s s' s₀ : Streams} {x y : Entry} {p q : Facts} {before selected : List Entry}

/-- The sequence number of the first octet. -/
def startOf (p : Facts) : ℕ := p.seq+if p.hasFlag thSyn then 1 else 0

def Carries (start : ℕ) (payload : List UInt8) (position : ℕ) : Prop :=
  ∃ i < payload.length, start+i ≡ position [MOD tcpSequenceModulus]

namespace Streams

def sender (s : Streams) (x : Entry) (p : Facts) : FlowId × Ends := ((flowIdOf s.registry x).1,p.ends)

/-- The list that the segment of the packet goes to. -/
def key (s : Streams) (x : Entry) (p : Facts) : FlowId × Direction :=
  ((flowIdOf s.registry x).1,directionOf (flowIdOf s.registry x).2 (flowIdOf s.registry x).1 x p.ends)

/-- The packet is taken for a keep-alive probe. -/
def waives (s : Streams) (x : Entry) (p : Facts) : Bool := isKeepalive s (s.sender x p) p (startOf p)

/-- The orientation that the registry has for the ends, or else the direction recorded with the packet. -/
def label (s : Streams) (x : Entry) (p : Facts) : Direction := (s.key x p).2

def segmentOf (s : Streams) (x : Entry) (p : Facts) : Segment :=
  ⟨startOf p,if s.waives x p then [] else p.payload,p.hasFlag thFin,x.ordinal⟩

end Streams

/-- The loop comes to the TCP packet `x` in the state `s`. -/
structure Takes (r : Registry) (before : List Entry) (s : Streams) (x : Entry) (p : Facts) : Prop where
  reached : groupStreams r before = .ok s
  facts : x.facts = some p
  tcp : p.protocol = .tcp

/-- The octet of every probe is in an earlier segment of its sender in the same list, and in the
stream that is assembled of the list. -/
def LosesNothing (r : Registry) (selected : List Entry) (streams : Streams) : Prop :=
  ∀ before x after s p, selected = before++x :: after → Takes r before s x p → s.waives x p →
    s.segments (s.key x p)++[s.segmentOf x p] <+: streams.segments (s.key x p) ∧
    (∃ segment ∈ s.segments (s.key x p), Carries segment.start segment.payload (startOf p) ∧
      ∃ y ∈ before, y.ordinal = segment.ordinal ∧ ∃ q, y.facts = some q ∧ q.ends = p.ends) ∧
    ∀ bytes c, assembleTcp (streams.segments (s.key x p)) = .ok (bytes,c) →
      ∃ cursor, c = some cursor ∧ ∃ n < bytes.length,
        cursor-bytes.length+n ≡ startOf p [ZMOD tcpSequenceModulus]

/-- The packet `y` was taken in the state `s`, before the loop had gone through `before`. -/
def Earlier (r : Registry) (before : List Entry) (s : Streams) (y : Entry) (q : Facts) : Prop :=
  ∃ before' after', before = before'++y :: after' ∧ Takes r before' s y q

/-- The registry knows which way the packets of the sender go. -/
def Oriented (r : Registry) (sender : FlowId × Ends) : Prop :=
  ∃ number, sender.1 = .registered number ∧ r.directionFor number sender.2 ≠ .unknown

def registryStep (r : Registry) (x : Entry) : Registry :=
  match x.facts with
  | none => r
  | some p => if p.protocol = .other then r else (flowIdOf r x).2

/-- The registry when the report has read some records. -/
def registryAfter (r : Registry) (before : List Entry) : Registry := before.foldl registryStep r

/-- The registry has an orientation for the packet once it has read it. -/
def Known (r : Registry) (y : Entry) (q : Facts) : Prop := Oriented (flowIdOf r y).2 ((flowIdOf r y).1,q.ends)

/-- A TCP packet of the sender with the octet at this position. -/
structure Sends (r : Registry) (y : Entry) (q : Facts) (sender : FlowId × Ends) (position : ℕ) : Prop where
  facts : y.facts = some q
  tcp : q.protocol = .tcp
  sender : ((flowIdOf r y).1,q.ends) = sender
  carries : Carries (startOf q) q.payload position

/-- Where the registry does not know the orientation of the sender at the start, an earlier packet of the sender
with the octet of the probe came when the registry had learned it, or was recorded with the direction that
labels the probe. -/
def RecordedAlike (r : Registry) (selected : List Entry) : Prop :=
  ∀ before x after s p, selected = before++x :: after → Takes r before s x p → s.waives x p →
    ¬Oriented r (s.sender x p) → ∃ before' y after' q, before = before'++y :: after' ∧
      Sends (registryAfter r before') y q (s.sender x p) (startOf p) ∧
      (Known (registryAfter r before') y q ∨ .ofText y.direction = s.label x p)

theorem groupStep_tcp (hx : x.facts = some p) (hp : p.protocol = .tcp) (h : groupStep s x = .ok s') :
    s'.segments = Function.update s.segments (s.key x p) (s.segments (s.key x p)++[s.segmentOf x p]) ∧
    s'.sentEnds = (if s.waives x p ∨ p.payload = [] then s.sentEnds else
      Function.update s.sentEnds (s.sender x p) (advanceSent (s.sentEnds (s.sender x p))
        ((startOf p+p.payload.length) % tcpSequenceModulus))) := by
  simp only [groupStep,hx,hp,reduceCtorEq,if_false,if_true,Except.ok.injEq] at h
  subst h
  exact ⟨rfl,rfl⟩

theorem groupStep_other (h : groupStep s x = .ok s') (hx : ∀ p, x.facts = some p → p.protocol ≠ .tcp) :
    s'.segments = s.segments ∧ s'.sentEnds = s.sentEnds := by
  unfold groupStep at h
  split at h
  · cases h
  next p hp =>
  by_cases hother : p.protocol = .other
  · rw [if_pos hother] at h
    cases h
    exact ⟨rfl,rfl⟩
  · simp only [if_neg hother,if_neg (hx p hp)] at h
    cases h
    exact ⟨rfl,rfl⟩

theorem groupStep_grows (h : groupStep s x = .ok s') (key : FlowId × Direction) :
    s.segments key <+: s'.segments key := by
  by_cases htcp : ∃ p, x.facts = some p ∧ p.protocol = .tcp
  · obtain ⟨p,hx,hp⟩ := htcp
    rw [(groupStep_tcp hx hp h).1,Function.update_apply]
    split
    · next hkey =>
      subst hkey
      exact List.prefix_append ..
    · exact List.prefix_refl _
  · rw [(groupStep_other h fun p hx hp => htcp ⟨p,hx,hp⟩).1]

theorem groupRun_grows (selected : List Entry) (h : selected.foldlM groupStep s = .ok s')
    (key : FlowId × Direction) : s.segments key <+: s'.segments key := by
  induction selected generalizing s with
  | nil =>
    cases h
    exact List.prefix_refl _
  | cons x selected ih =>
    obtain ⟨s₁,hstep,hrest⟩ := ok_of_bind h
    exact (groupStep_grows hstep key).trans (ih hrest)

theorem groupStreams_snoc (h : groupStreams r (before++[x]) = .ok s') :
    ∃ s, groupStreams r before = .ok s ∧ groupStep s x = .ok s' := by
  unfold groupStreams at h
  rw [List.foldlM_append] at h
  obtain ⟨s,hs,hlast⟩ := ok_of_bind h
  obtain ⟨s₁,hstep,hnil⟩ := ok_of_bind hlast
  cases hnil
  exact ⟨s,hs,hstep⟩

theorem groupStreams_split {x : Entry} {after : List Entry} (h : groupStreams r (before++x :: after) = .ok s') :
    ∃ s s₁, groupStreams r before = .ok s ∧ groupStep s x = .ok s₁ ∧ after.foldlM groupStep s₁ = .ok s' := by
  unfold groupStreams at h
  rw [List.foldlM_append] at h
  obtain ⟨s,hs,hrest⟩ := ok_of_bind h
  obtain ⟨s₁,hstep,hafter⟩ := ok_of_bind hrest
  exact ⟨s,s₁,hs,hstep,hafter⟩

theorem registry_groupStep (h : groupStep s x = .ok s') : s'.registry = registryStep s.registry x := by
  unfold groupStep at h
  unfold registryStep
  cases hx : x.facts with
  | none =>
    rw [hx] at h
    cases h
  | some p =>
    simp only [hx] at h ⊢
    by_cases hother : p.protocol = .other
    · rw [if_pos hother] at h ⊢
      cases h
      rfl
    · rw [if_neg hother] at h ⊢
      by_cases htcp : p.protocol = .tcp
      · rw [if_pos htcp] at h
        cases h
        rfl
      · rw [if_neg htcp] at h
        cases h
        rfl

theorem registry_groupStreams (h : groupStreams r before = .ok s) : s.registry = registryAfter r before := by
  induction before using List.reverseRecOn generalizing s with
  | nil =>
    cases h
    rfl
  | append_singleton before x ih =>
    obtain ⟨s₁,hs₁,hstep⟩ := groupStreams_snoc h
    rw [registry_groupStep hstep,ih hs₁,registryAfter,registryAfter,List.foldl_append,List.foldl_cons,List.foldl_nil]

theorem Takes.registryStep (h : Takes r before s x p) : registryStep s.registry x = (flowIdOf s.registry x).2 := by
  have hother : p.protocol ≠ .other := by
    rw [h.tcp]
    decide
  simp only [Report.registryStep,h.facts,if_neg hother]

theorem Earlier.append (h : Earlier r before s y q) (later : List Entry) : Earlier r (before++later) s y q := by
  obtain ⟨before',after',rfl,htakes⟩ := h
  exact ⟨before',after'++later,by simp,htakes⟩

theorem Earlier.snoc (h : Earlier r before s y q) (x : Entry) : Earlier r (before++[x]) s y q := by
  obtain ⟨before',after',rfl,htakes⟩ := h
  exact ⟨before',after'++[x],by simp,htakes⟩

theorem earlier_last (h : Takes r before s x p) : Earlier r (before++[x]) s x p := ⟨before,[],rfl,h⟩

theorem exists_earlier_of_mem (hs : groupStreams r before = .ok s) {key : FlowId × Direction}
    {segment : Segment} (hsegment : segment ∈ s.segments key) :
    ∃ s' y q, Earlier r before s' y q ∧ s'.key y q = key ∧ segment = s'.segmentOf y q := by
  induction before using List.reverseRecOn generalizing s with
  | nil =>
    cases hs
    cases hsegment
  | append_singleton before x ih =>
    obtain ⟨s₁,hs₁,hstep⟩ := groupStreams_snoc hs
    have hold : segment ∈ s₁.segments key → ∃ s' y q, Earlier r (before++[x]) s' y q ∧
        s'.key y q = key ∧ segment = s'.segmentOf y q := by
      intro hmem
      obtain ⟨s',y,q,hearlier,hkey⟩ := ih hs₁ hmem
      exact ⟨s',y,q,hearlier.snoc x,hkey⟩
    by_cases htcp : ∃ p, x.facts = some p ∧ p.protocol = .tcp
    · obtain ⟨p,hx,hp⟩ := htcp
      rw [(groupStep_tcp hx hp hstep).1,Function.update_apply] at hsegment
      split at hsegment
      · next hkey =>
        rw [List.mem_append,List.mem_singleton,← hkey] at hsegment
        obtain hmem | rfl := hsegment
        · exact hold hmem
        · exact ⟨s₁,x,p,earlier_last ⟨hs₁,hx,hp⟩,hkey.symm,rfl⟩
      · exact hold hsegment
    · rw [(groupStep_other hstep fun p hx hp => htcp ⟨p,hx,hp⟩).1] at hsegment
      exact hold hsegment

theorem exists_earlier_of_sentEnd (hs : groupStreams r before = .ok s) {side : FlowId × Ends} {stop : ℕ}
    (hstop : s.sentEnds side = some stop) : ∃ s' y q, Earlier r before s' y q ∧ ¬s'.waives y q ∧
      s'.sender y q = side ∧ q.payload ≠ [] ∧ (startOf q+q.payload.length) % tcpSequenceModulus = stop := by
  induction before using List.reverseRecOn generalizing s with
  | nil =>
    cases hs
    cases hstop
  | append_singleton before x ih =>
    obtain ⟨s₁,hs₁,hstep⟩ := groupStreams_snoc hs
    have hold : s₁.sentEnds side = some stop → ∃ s' y q, Earlier r (before++[x]) s' y q ∧
        ¬s'.waives y q ∧ s'.sender y q = side ∧ q.payload ≠ [] ∧
        (startOf q+q.payload.length) % tcpSequenceModulus = stop := by
      intro hstop
      obtain ⟨s',y,q,hearlier,hrest⟩ := ih hs₁ hstop
      exact ⟨s',y,q,hearlier.snoc x,hrest⟩
    by_cases htcp : ∃ p, x.facts = some p ∧ p.protocol = .tcp
    · obtain ⟨p,hx,hp⟩ := htcp
      rw [(groupStep_tcp hx hp hstep).2] at hstop
      split_ifs at hstop with hkept
      · exact hold hstop
      rw [Function.update_apply] at hstop
      split_ifs at hstop with hside
      · obtain ⟨hwaives,hpayload⟩ := not_or.mp hkept
        subst hside
        cases hend : s₁.sentEnds (s₁.sender x p) with
        | none =>
          rw [hend] at hstop
          exact ⟨s₁,x,p,earlier_last ⟨hs₁,hx,hp⟩,hwaives,rfl,hpayload,Option.some.inj hstop⟩
        | some sentEnd =>
          simp only [hend,advanceSent] at hstop
          split_ifs at hstop
          · exact ⟨s₁,x,p,earlier_last ⟨hs₁,hx,hp⟩,hwaives,rfl,hpayload,Option.some.inj hstop⟩
          · exact hold (hend.trans hstop)
      · exact hold hstop
    · rw [(groupStep_other hstep fun p hx hp => htcp ⟨p,hx,hp⟩).2] at hstop
      exact hold hstop

theorem exists_earlier_of_waives (hs : groupStreams r before = .ok s) (hwaives : s.waives x p) :
    ∃ s' y q, Earlier r before s' y q ∧ ¬s'.waives y q ∧ s'.sender y q = s.sender x p ∧
      Carries (startOf q) q.payload (startOf p) := by
  simp only [Streams.waives,isKeepalive,Bool.and_eq_true] at hwaives
  cases hend : s.sentEnds (s.sender x p) with
  | none => simp [hend] at hwaives
  | some sentEnd =>
    simp only [hend,Bool.and_eq_true,decide_eq_true_eq] at hwaives
    obtain ⟨s',y,q,hearlier,hkept,hsender,hpayload,hstop⟩ := exists_earlier_of_sentEnd hs hend
    refine ⟨s',y,q,hearlier,hkept,hsender,q.payload.length-1,?_,?_⟩
    · have hpos := List.length_pos_of_ne_nil hpayload
      omega
    · have hpos := List.length_pos_of_ne_nil hpayload
      have hlast := hwaives.2.1
      simp only [Nat.ModEq,tcpSequenceModulus] at hlast hstop ⊢
      omega

/-- What the registry knew of ends it still knows. -/
def Remembers (r r' : Registry) : Prop :=
  ∀ number e, r.directionFor number e ≠ .unknown → r'.directionFor number e = r.directionFor number e

theorem Remembers.refl (r : Registry) : Remembers r r := fun _ _ _ => rfl

theorem Remembers.trans {r r' r'' : Registry} (h : Remembers r r') (h' : Remembers r' r'') : Remembers r r'' := by
  intro number e hknown
  have hsame := h number e hknown
  rw [← hsame] at hknown ⊢
  exact h' number e hknown

theorem find?_of_directionFor {number : ℕ} {e : Ends} (h : r.directionFor number e ≠ .unknown) :
    ∃ f, r.flows.find? (·.id = number) = some f ∧ f.directions.get? e = some (r.directionFor number e) := by
  unfold Registry.directionFor at h ⊢
  cases hfind : r.flows.find? (·.id = number) with
  | none => simp [hfind] at h
  | some f =>
    refine ⟨f,rfl,?_⟩
    cases hget : f.directions.get? e with
    | none => simp [hfind,hget] at h
    | some d => simp [hget]

theorem directionFor_of_find? {number : ℕ} {e : Ends} {f : Flow} {d : Direction}
    (hfind : r.flows.find? (·.id = number) = some f) (hget : f.directions.get? e = some d) :
    r.directionFor number e = d := by
  rw [Registry.directionFor,hfind]
  simp [hget]

theorem find?_modify {l : List Flow} {p : Flow → Bool} {g : Flow → Flow} (hg : ∀ f, p (g f) = p f) {f : Flow}
    (h : l.find? p = some f) (i : ℕ) : (l.modify i g).find? p = some f ∨ (l.modify i g).find? p = some (g f) := by
  induction l generalizing i with
  | nil => cases h
  | cons f' l ih =>
    cases i with
    | zero =>
      rw [List.modify_zero_cons,List.find?_cons,hg]
      rw [List.find?_cons] at h
      cases hp : p f' with
      | true =>
        rw [hp] at h
        cases h
        exact .inr rfl
      | false =>
        rw [hp] at h
        exact .inl h
    | succ i =>
      rw [List.modify_succ_cons,List.find?_cons]
      rw [List.find?_cons] at h
      cases hp : p f' with
      | true =>
        rw [hp] at h
        exact .inl h
      | false =>
        rw [hp] at h
        exact ih h i

theorem get?_register {f : Flow} {e : Ends} {d : Direction} (h : f.directions.get? e = some d) (o : Observation) (p : Facts) :
    (f.register o p).directions.get? e = some d := by
  rw [Flow.directions_register,Flow.registerDirection]
  cases hcontains : f.directions.contains p.ends with
  | true => exact h
  | false =>
    have hne : e ≠ p.ends := by
      rintro rfl
      rw [(Dict.contains_eq_false_iff _ _).mp hcontains] at h
      cases h
    simp [Dict.get?_set,hne,h]

theorem remembers_registerAt (r : Registry) (i : ℕ) (o : Observation) (p : Facts) : Remembers r (r.registerAt i o p) := by
  intro number e hknown
  obtain ⟨f,hfind,hget⟩ := find?_of_directionFor hknown
  have hid : ∀ f, decide ((Flow.register o p f).id = number) = decide (f.id = number) := fun f => by simp
  obtain hsame | hsame := find?_modify hid hfind i
  · exact directionFor_of_find? hsame hget
  · exact directionFor_of_find? hsame (get?_register hget o p)

theorem remembers_allocate (r : Registry) (p : Facts) (timestamp : Option ℚ) (d : Direction) :
    Remembers r (r.allocate p timestamp d) := by
  intro number e hknown
  obtain ⟨f,hfind,hget⟩ := find?_of_directionFor hknown
  refine directionFor_of_find? ?_ hget
  rw [Registry.allocate,List.find?_append,hfind]
  rfl

theorem remembers_observePacket (r : Registry) (o : Observation) : Remembers r (r.observePacket o).2 := by
  unfold Registry.observePacket
  cases o.facts with
  | none => exact .refl r
  | some p =>
    dsimp only
    split
    · exact .refl r
    · cases r.known o with
      | some i => exact .refl r
      | none =>
        dsimp only
        cases r.joined p with
        | some i => exact remembers_registerAt r i o p
        | none => exact (remembers_allocate r p _ _).trans (remembers_registerAt _ _ o p)

theorem remembers_flowIdOf (r : Registry) (x : Entry) : Remembers r (flowIdOf r x).2 := by
  unfold flowIdOf
  cases x.flowId with
  | some number => exact .refl r
  | none =>
    have hobserved := remembers_observePacket r ⟨x.facts,x.direction,some x.timestamp,some x.logicalPacketId⟩
    dsimp only
    rcases hpair : r.observePacket ⟨x.facts,x.direction,some x.timestamp,some x.logicalPacketId⟩ with ⟨_ | number,r'⟩
    · rw [hpair] at hobserved
      exact hobserved
    · rw [hpair] at hobserved
      exact hobserved

theorem remembers_registryStep (r : Registry) (x : Entry) : Remembers r (registryStep r x) := by
  unfold registryStep
  cases x.facts with
  | none => exact .refl r
  | some p =>
    dsimp only
    split_ifs
    · exact .refl r
    · exact remembers_flowIdOf r x

theorem remembers_groupRun (selected : List Entry) (h : selected.foldlM groupStep s = .ok s') :
    Remembers s.registry s'.registry := by
  induction selected generalizing s with
  | nil =>
    cases h
    exact .refl _
  | cons x selected ih =>
    obtain ⟨s₁,hstep,hrest⟩ := ok_of_bind h
    have hknown := remembers_registryStep s.registry x
    rw [← registry_groupStep hstep] at hknown
    exact hknown.trans (ih hrest)

theorem Remembers.oriented {r r' : Registry} (h : Remembers r r') {sender : FlowId × Ends} (horiented : Oriented r sender) :
    Oriented r' sender := by
  obtain ⟨number,hnumber,hknown⟩ := horiented
  exact ⟨number,hnumber,by rwa [h number sender.2 hknown]⟩

theorem known_of_oriented (h : groupStreams r before = .ok s) (horiented : Oriented r (s.sender y q)) :
    Known s.registry y q :=
  ((remembers_groupRun before h).trans (remembers_flowIdOf s.registry y)).oriented horiented

theorem label_of_not_known (h : ¬Known s.registry y q) : s.label y q = .ofText y.direction := by
  simp only [Streams.label,Streams.key,directionOf]
  refine if_pos ?_
  cases hid : (flowIdOf s.registry y).1 with
  | unowned _ => rfl
  | registered number =>
    by_contra hknown
    exact h ⟨number,hid,hknown⟩

/-- Once the registry has the orientation of a sender it labels all packets of the sender alike. -/
theorem label_of_known {before' after' : List Entry} (htakes' : Takes r before' s' y q)
    (htakes : Takes r (before'++y :: after') s x p) (hsender : s'.sender y q = s.sender x p)
    (hknown : Known s'.registry y q) : s'.label y q = s.label x p := by
  obtain ⟨s₀,s₁,hs₀,hstep,hafter⟩ := groupStreams_split htakes.reached
  obtain rfl : s' = s₀ := Except.ok.inj (htakes'.reached.symm.trans hs₀)
  have hlater := (remembers_groupRun after' hafter).trans (remembers_flowIdOf s.registry x)
  rw [registry_groupStep hstep,htakes'.registryStep] at hlater
  obtain ⟨number,hnumber,hdirection⟩ := hknown
  have hnumber' : (flowIdOf s.registry x).1 = .registered number := (congrArg Prod.fst hsender).symm.trans hnumber
  have hends : q.ends = p.ends := congrArg Prod.snd hsender
  have hsame := hlater number q.ends hdirection
  simp only [Streams.label,Streams.key,directionOf]
  rw [show (flowIdOf s'.registry y).1 = .registered number from hnumber,hnumber']
  simp only [if_neg hdirection,← hends,hsame]

theorem key_eq_of_sender (hsender : s'.sender y q = s.sender x p) (hlabel : s'.label y q = s.label x p) :
    s'.key y q = s.key x p := by
  have hid : (flowIdOf s'.registry y).1 = (flowIdOf s.registry x).1 := (Prod.ext_iff.mp hsender).1
  exact Prod.ext hid hlabel

theorem sender_eq_of_key (hkey : s'.key y q = s.key x p) (hends : q.ends = p.ends) : s'.sender y q = s.sender x p := by
  have hid : (flowIdOf s'.registry y).1 = (flowIdOf s.registry x).1 := (Prod.ext_iff.mp hkey).1
  exact Prod.ext hid hends

/-- It is enough that all earlier packets between the ends were recorded alike: what the waiver takes was sent. -/
theorem recordedAlike_of_forall (h : ∀ before x after s p, selected = before++x :: after → Takes r before s x p →
    s.waives x p → ¬Oriented r (s.sender x p) → ∀ before' y after' q, before = before'++y :: after' →
      y.facts = some q → q.ends = p.ends →
        Known (registryAfter r before') y q ∨ .ofText y.direction = s.label x p) :
    RecordedAlike r selected := by
  intro before x after s p hselected htakes hwaives horiented
  obtain ⟨s',y,q,hearlier,-,hsender,hcarries⟩ := exists_earlier_of_waives htakes.reached hwaives
  obtain ⟨before',after',hbefore,htakes'⟩ := hearlier
  have hends : q.ends = p.ends := congrArg Prod.snd hsender
  have hregistry := registry_groupStreams htakes'.reached
  exact ⟨before',y,after',q,hbefore,⟨htakes'.facts,htakes'.tcp,hregistry ▸ hsender,hcarries⟩,
    h before x after s p hselected htakes hwaives horiented before' y after' q hbefore htakes'.facts hends⟩

theorem carries_of_waives (hwaives : s.waives y q) {position : ℕ} (h : Carries (startOf q) q.payload position) :
    startOf q ≡ position [MOD tcpSequenceModulus] := by
  obtain ⟨i,hi,hposition⟩ := h
  simp only [Streams.waives,isKeepalive,Bool.and_eq_true,decide_eq_true_eq] at hwaives
  obtain rfl : i = 0 := by omega
  exact hposition

/-- By induction on the number of earlier packets: one that is itself taken for a probe has its octet from an
earlier one. -/
theorem RecordedAlike.exists_kept (h : RecordedAlike r selected) {after : List Entry}
    (hselected : selected = before++x :: after) (htakes : Takes r before s x p) (hwaives : s.waives x p) :
    ∃ s' y q, Earlier r before s' y q ∧ ¬s'.waives y q ∧ s'.sender y q = s.sender x p ∧
      Carries (startOf q) q.payload (startOf p) ∧ s'.label y q = s.label x p := by
  induction hlength : before.length using Nat.strong_induction_on generalizing before x after s p with
  | _ n ih =>
    by_cases horiented : Oriented r (s.sender x p)
    · obtain ⟨s',y,q,hearlier,hkept,hsender,hcarries⟩ := exists_earlier_of_waives htakes.reached hwaives
      obtain ⟨before',after',rfl,htakes'⟩ := id hearlier
      rw [← hsender] at horiented
      exact ⟨s',y,q,hearlier,hkept,hsender,hcarries,
        label_of_known htakes' htakes hsender (known_of_oriented htakes'.reached horiented)⟩
    · obtain ⟨before',y,after',q,rfl,hsends,hlabels⟩ := h before x after s p hselected htakes hwaives horiented
      obtain ⟨s',s₁,hs',-,-⟩ := groupStreams_split htakes.reached
      have htakes' : Takes r before' s' y q := ⟨hs',hsends.facts,hsends.tcp⟩
      have hsender := hsends.sender
      rw [← registry_groupStreams hs'] at hsender hlabels
      have hlabel : s'.label y q = s.label x p := by
        by_cases hknown : Known s'.registry y q
        · exact label_of_known htakes' htakes hsender hknown
        · rw [label_of_not_known hknown]
          exact hlabels.resolve_left hknown
      by_cases hkept : s'.waives y q
      · have hselected' : selected = before'++y :: (after'++x :: after) := by simp [hselected]
        obtain ⟨s'',z,q',hearlier,hkept',hsender',⟨i,hi,hposition⟩,hlabel'⟩ :=
          ih before'.length (by simp [← hlength]) hselected' htakes' hkept rfl
        have hsame := carries_of_waives hkept hsends.carries
        exact ⟨s'',z,q',hearlier.append _,hkept',hsender'.trans hsender,⟨i,hi,hposition.trans hsame⟩,
          hlabel'.trans hlabel⟩
      · exact ⟨s',y,q,⟨before',after',rfl,htakes'⟩,hkept,hsender,hsends.carries,hlabel⟩

theorem Takes.keeps (htakes : Takes r before s x p) {after : List Entry}
    (h : groupStreams r (before++x :: after) = .ok s') :
    s.segments (s.key x p)++[s.segmentOf x p] <+: s'.segments (s.key x p) := by
  obtain ⟨s₀,s₁,hs₀,hstep,hafter⟩ := groupStreams_split h
  obtain rfl : s = s₀ := Except.ok.inj (htakes.reached.symm.trans hs₀)
  have hgrows := groupRun_grows after hafter (s.key x p)
  rwa [(groupStep_tcp htakes.facts htakes.tcp hstep).1,Function.update_self] at hgrows

theorem Earlier.mem (hearlier : Earlier r before s' y q) (hs : groupStreams r before = .ok s) :
    s'.segmentOf y q ∈ s.segments (s'.key y q) := by
  obtain ⟨before',after',rfl,htakes⟩ := hearlier
  exact (htakes.keeps hs).subset (by simp)

theorem segmentOf_payload {position : ℕ} (h : Carries (s.segmentOf y q).start (s.segmentOf y q).payload position) :
    ¬s.waives y q ∧ Carries (startOf q) q.payload position := by
  obtain ⟨i,hi,hposition⟩ := h
  by_cases hwaives : s.waives y q
  · simp [Streams.segmentOf,hwaives] at hi
  · simp only [Streams.segmentOf,hwaives] at hi hposition
    exact ⟨hwaives,i,hi,hposition⟩

theorem carries_segmentOf {position : ℕ} (hkept : ¬s.waives y q) (h : Carries (startOf q) q.payload position) :
    Carries (s.segmentOf y q).start (s.segmentOf y q).payload position := by
  simpa [Streams.segmentOf,hkept] using h

theorem ordinal_injective {selected : List Entry} (hordinals : (selected.map Entry.ordinal).Nodup)
    (hx : x ∈ selected) (hy : y ∈ selected) (h : x.ordinal = y.ordinal) : x = y :=
  List.inj_on_of_nodup_map hordinals hx hy h

/-- The waiver loses nothing exactly if the directions recorded with the packets of a sender that the registry
cannot label agree. The index gives every record an ordinal of its own. -/
theorem losesNothing_iff_recordedAlike (r : Registry) (selected : List Entry)
    (hordinals : (selected.map Entry.ordinal).Nodup) (streams : Streams)
    (h : groupStreams r selected = .ok streams) :
    LosesNothing r selected streams ↔ RecordedAlike r selected := by
  constructor
  · rintro hnothing before x after s p rfl htakes hwaives -
    obtain ⟨-,⟨segment,hsegment,hcarries,y,hy,hordinal,q,hq,hends⟩,-⟩ :=
      hnothing before x after s p rfl htakes hwaives
    obtain ⟨s',y',q',hearlier,hkey,rfl⟩ := exists_earlier_of_mem htakes.reached hsegment
    obtain ⟨before',after',rfl,htakes'⟩ := id hearlier
    obtain rfl : y = y' := ordinal_injective hordinals (List.mem_append_left _ hy) (by simp) hordinal
    obtain rfl : q = q' := Option.some.inj (hq.symm.trans htakes'.facts)
    obtain ⟨hkept,hcarries⟩ := segmentOf_payload hcarries
    refine ⟨before',y,after',q,rfl,⟨htakes'.facts,htakes'.tcp,?_,hcarries⟩,?_⟩
    · rw [← registry_groupStreams htakes'.reached]
      exact sender_eq_of_key hkey hends
    · rw [← registry_groupStreams htakes'.reached,or_iff_not_imp_left]
      intro hknown
      rw [← label_of_not_known hknown]
      exact congrArg Prod.snd hkey
  · rintro hlabels before x after s p rfl htakes hwaives
    obtain ⟨s',y,q,hearlier,hkept,hsender,hcarries,hlabel⟩ := hlabels.exists_kept rfl htakes hwaives
    have hkey := key_eq_of_sender hsender hlabel
    obtain ⟨before',after',hbefore,htakes'⟩ := id hearlier
    have hends : q.ends = p.ends := congrArg Prod.snd hsender
    have hgrows := htakes.keeps h
    have hmem : s'.segmentOf y q ∈ s.segments (s.key x p) := hkey ▸ hearlier.mem htakes.reached
    have hsegment := carries_segmentOf hkept hcarries
    refine ⟨hgrows,⟨_,hmem,hsegment,y,by simp [hbefore],rfl,q,htakes'.facts,hends⟩,fun bytes c hassembled => ?_⟩
    obtain ⟨i,hi,hposition⟩ := hsegment
    obtain ⟨cursor,hcursor,n,hn,hbyte⟩ :=
      assembleTcp_contains (hgrows.subset (List.mem_append_left _ hmem)) hi hassembled
    refine ⟨cursor,hcursor,n,hn,hbyte.trans ?_⟩
    exact_mod_cast hposition

/-- A connection whose opener has no recorded direction. -/
def reopened : Registry :=
  (Registry.empty.observePacket ⟨some ⟨4,.tcp,client,server,1000,9000,0x18,[0x61,0x62]⟩,"unknown",some 1,none⟩).2

def acknowledged : List Entry :=
  [⟨1,some ⟨4,.tcp,client,server,1000,9000,0x18,[0x61,0x62]⟩,1,.initial,"unknown","packet-00000001",some 1⟩,
    ⟨2,some ⟨4,.tcp,server,client,9000,1002,0x10,[]⟩,2,.initial,"inbound","packet-00000002",some 1⟩]

def probe : Facts := ⟨4,.tcp,client,server,1001,9000,0x10,[0x62]⟩

/-- The probe repeats the second octet, and its direction was recorded. -/
def probeEntry : Entry := ⟨3,some probe,3,.initial,"outbound","packet-00000003",some 1⟩

theorem groupStreams_probe : ∃ s streams, groupStreams reopened acknowledged = .ok s ∧
    groupStreams reopened (acknowledged++[probeEntry]) = .ok streams ∧ s.waives probeEntry probe ∧
      s.segments (s.key probeEntry probe) = [] := by
  have hbefore : (groupStreams reopened acknowledged).toOption.map
      (fun s => (s.waives probeEntry probe,s.segments (s.key probeEntry probe))) = some (true,[]) := by
    decide
  have hall : (groupStreams reopened (acknowledged++[probeEntry])).toOption.isSome := by decide
  cases hs : groupStreams reopened acknowledged with
  | error e => simp [hs,Except.toOption] at hbefore
  | ok s =>
    cases hstreams : groupStreams reopened (acknowledged++[probeEntry]) with
    | error e => simp [hstreams,Except.toOption] at hall
    | ok streams =>
      simp only [hs,Except.toOption,Option.map_some,Option.some.injEq,Prod.mk.injEq] at hbefore
      exact ⟨s,streams,rfl,rfl,hbefore⟩

/-- The octet of the probe is missing in the stream of the probe. -/
theorem relabelled_probe_lost : ∃ streams,
    groupStreams reopened (acknowledged++[probeEntry]) = .ok streams ∧
      ¬LosesNothing reopened (acknowledged++[probeEntry]) streams := by
  obtain ⟨s,streams,hs,hstreams,hwaives,hempty⟩ := groupStreams_probe
  refine ⟨streams,hstreams,fun hnothing => ?_⟩
  obtain ⟨-,⟨segment,hsegment,-⟩,-⟩ := hnothing acknowledged probeEntry [] s probe rfl ⟨hs,rfl,rfl⟩ hwaives
  simp [hempty] at hsegment

theorem losesNothing_iff_recordedAlike_example : ∃ streams,
    groupStreams reopened (acknowledged++[probeEntry]) = .ok streams ∧
      (LosesNothing reopened (acknowledged++[probeEntry]) streams ↔
        RecordedAlike reopened (acknowledged++[probeEntry])) := by
  obtain ⟨-,streams,-,hstreams,-⟩ := groupStreams_probe
  exact ⟨streams,hstreams,losesNothing_iff_recordedAlike _ _ (by decide) _ hstreams⟩

end Report
end FakeNetNG
