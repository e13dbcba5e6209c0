import FakeNetNG.RedirectRuns

/-!
# The authority behind redirect decisions

Every decision to rewrite a packet rests on what the history holds before it: the
engine was available, the mapping was made for a SYN whose owner was resolved, matched
and revalidated while its route was current, and a reply is only translated back after
the outbound packet of the same mapping was injected. None of this depends on how many
operations are in flight.
-/

namespace FakeNetNG
namespace ProcessRedirectRule

open ProcessRedirectEngine

variable {rule : ProcessRedirectRule} {s s' : ProcessRedirectEngine}

/-- The last suspension has not been followed by a resumption. -/
def suspendedIn (log : List RedirectEvent) : Bool :=
  log.foldl (fun suspended e =>
    match e with
    | .suspended => true
    | .resumed => false
    | _ => suspended) false

/-- The engine was neither closed nor suspended at the end of this history. -/
def Available (log : List RedirectEvent) : Prop := .closed ∉ log ∧ suspendedIn log = false

/-- A mapping made by a `prepare` with every check passed. -/
structure CreatedBy (rule : ProcessRedirectRule) (past : List RedirectEvent) (packet : PacketTuple)
    (owner : ProcessOwnerIdentity) (answers : RedirectAnswers) : Prop where
  available : Available past
  resolved : ∃ r : OwnerResolution, r.status = .resolved ∧ r.identity = some owner ∧
    .answered packet.key (.resolution r) ∈ past
  fileIdentity : rule.ownerMatchesRule owner = true
  route : ∃ route, answers.route = .returned route ∧ route.current = true
  revalidated : answers.identityValid = .returned true

/-- A decision to send a packet of mapping `generation` to the target. -/
structure OutboundOf (rule : ProcessRedirectRule) (packet : PacketTuple) (prepared : PreparedRedirect)
    (generation token : ℕ) : Prop where
  action : prepared.decision.action = .rewriteOutbound
  generation : prepared.decision.generation = some generation
  token : prepared.token = some token
  original : packet.targetIpv4 = rule.originalIpv4
  rewriteIpv4 : prepared.decision.rewriteTargetIpv4 = some rule.targetIpv4
  rewritePort : prepared.decision.rewriteTargetPort = some packet.targetPort

/-- The reply `reply` answers a packet that was sent to the target and injected, and what
the client is shown is the endpoint that this packet was addressed to. -/
def RoundTrip (rule : ProcessRedirectRule) (past : List RedirectEvent) (reply : PacketTuple)
    (prepared : PreparedRedirect) : Prop :=
  ∃ generation packet outbound token, prepared.decision.generation = some generation ∧
    OutboundOf rule packet outbound generation token ∧
    [.decided packet outbound,.committed token true].Sublist past ∧
    packet.sourceIpv4 = reply.targetIpv4 ∧ packet.sourcePort = reply.targetPort ∧
    packet.targetPort = reply.sourcePort ∧ packet.interfaceIndex = reply.interfaceIndex ∧
    packet.subinterfaceIndex = reply.subinterfaceIndex ∧
    prepared.decision.rewriteSourceIpv4 = some packet.targetIpv4 ∧
    prepared.decision.rewriteSourcePort = some packet.targetPort

def rewrites (prepared : PreparedRedirect) : Bool :=
  prepared.decision.action = .rewriteOutbound || prepared.decision.action = .rewriteInbound

def Authorised (rule : ProcessRedirectRule) (past : List RedirectEvent) : RedirectEvent → Prop
  | .created _ packet owner answers => CreatedBy rule past packet owner answers
  | .decided packet prepared =>
    (rewrites prepared = true → Available past ∧ ∃ generation packet' owner answers,
      prepared.decision.generation = some generation ∧
        .created generation packet' owner answers ∈ past) ∧
    (prepared.decision.action = .rewriteInbound → RoundTrip rule past packet prepared)
  | _ => True

/-- The packet that a mapping was made for. -/
structure Fits (packet : PacketTuple) (m : RedirectMapping) : Prop where
  sourceIpv4 : packet.sourceIpv4 = m.localIpv4
  sourcePort : packet.sourcePort = m.localPort
  targetPort : packet.targetPort = m.originalPort
  interfaceIndex : packet.interfaceIndex = m.interfaceIndex
  subinterfaceIndex : packet.subinterfaceIndex = m.subinterfaceIndex

/-- A mapping whose first packet was injected. -/
def Established (rule : ProcessRedirectRule) (log : List RedirectEvent) (m : RedirectMapping) : Prop :=
  ∃ packet prepared token, Fits packet m ∧ OutboundOf rule packet prepared m.generation token ∧
    [.decided packet prepared,.committed token true].Sublist log

/-- A pending transaction of a new mapping was decided on. -/
def Proposed (rule : ProcessRedirectRule) (log : List RedirectEvent) (token : ℕ)
    (t : RedirectTransaction) : Prop :=
  ∃ prepared, Fits t.packet t.mapping ∧
    OutboundOf rule t.packet prepared t.mapping.generation token ∧ .decided t.packet prepared ∈ log

/-- The state agrees with its history. -/
structure Traced (rule : ProcessRedirectRule) (s : ProcessRedirectEngine) : Prop where
  forward_key : ∀ k m, s.forward.get? k = some m → k = rule.forwardKey m
  reverse_key : ∀ k m, s.reverse.get? k = some m → k = rule.reverseKey m
  forward : ∀ k m, s.forward.get? k = some m → Established rule s.log m
  reverse : ∀ k m, s.reverse.get? k = some m → Established rule s.log m
  client : ∀ k m, s.client.get? k = some m → Established rule s.log m
  pending : ∀ i t, s.transactions.get? i = some t →
    if t.newMapping then Proposed rule s.log i t else Established rule s.log t.mapping
  cached : ∀ k item, s.synQueryCache.get? k = some item → .answered k item.2 ∈ s.log
  closed : s.closed = true ↔ .closed ∈ s.log
  suspended : s.suspended = suspendedIn s.log
  justified : Justified (Authorised rule) s.log

theorem init_traced (clock : Clock) : Traced rule (.init clock) := by
  refine ⟨?_,?_,?_,?_,?_,?_,?_,?_,?_,justified_nil _⟩ <;>
    simp [ProcessRedirectEngine.init,suspendedIn]

theorem Established.mono {log log' : List RedirectEvent} {m : RedirectMapping}
    (h : Established rule log m) (hl : log <+: log') : Established rule log' m := by
  obtain ⟨packet,prepared,token,hf,ho,hs⟩ := h
  exact ⟨packet,prepared,token,hf,ho,hs.trans hl.sublist⟩

theorem Proposed.mono {log log' : List RedirectEvent} {i : ℕ} {t : RedirectTransaction}
    (h : Proposed rule log i t) (hl : log <+: log') : Proposed rule log' i t := by
  obtain ⟨prepared,hf,ho,hd⟩ := h
  exact ⟨prepared,hf,ho,hl.subset hd⟩

theorem Established.created {log : List RedirectEvent} {m : RedirectMapping}
    (h : Established rule log m) (hj : Justified (Authorised rule) log) :
    ∃ packet owner answers, .created m.generation packet owner answers ∈ log := by
  obtain ⟨packet,prepared,token,-,ho,hs⟩ := h
  have hmem : .decided packet prepared ∈ log := hs.subset (by simp)
  obtain ⟨past,rest,rfl,ha⟩ := hj.of_mem hmem
  obtain ⟨-,generation,packet',owner,answers,hg,hc⟩ := ha.1 (by simp [rewrites,ho.action])
  rw [ho.generation] at hg
  cases hg
  exact ⟨packet',owner,answers,List.mem_append_left _ hc⟩

theorem Proposed.created {log : List RedirectEvent} {i : ℕ} {t : RedirectTransaction}
    (h : Proposed rule log i t) (hj : Justified (Authorised rule) log) :
    ∃ packet owner answers, .created t.mapping.generation packet owner answers ∈ log := by
  obtain ⟨prepared,-,ho,hd⟩ := h
  obtain ⟨past,rest,rfl,ha⟩ := hj.of_mem hd
  obtain ⟨-,generation,packet',owner,answers,hg,hc⟩ := ha.1 (by simp [rewrites,ho.action])
  rw [ho.generation] at hg
  cases hg
  exact ⟨packet',owner,answers,List.mem_append_left _ hc⟩

theorem Traced.available (h : Traced rule s) (hs : s.unavailable = false) : Available s.log := by
  simp only [unavailable,Bool.or_eq_false_iff] at hs
  refine ⟨fun hc => ?_,h.suspended.symm.trans hs.2⟩
  rw [h.closed.mpr hc] at hs
  cases hs.1

/-- The tables and the cache lose entries and the history stands still. -/
structure Lessens (s s' : ProcessRedirectEngine) : Prop where
  forward : ∀ k m, s'.forward.get? k = some m → s.forward.get? k = some m
  reverse : ∀ k m, s'.reverse.get? k = some m → s.reverse.get? k = some m
  client : ∀ k m, s'.client.get? k = some m → s.client.get? k = some m
  transactions : ∀ i t, s'.transactions.get? i = some t → s.transactions.get? i = some t
  synQueryCache : ∀ k item, s'.synQueryCache.get? k = some item → s.synQueryCache.get? k = some item
  aPass : ∀ k expires, s'.aPass.get? k = some expires → s.aPass.get? k = some expires
  closed : s'.closed = s.closed
  suspended : s'.suspended = s.suspended
  log : s'.log = s.log
  now : s.now ≤ s'.now

theorem Lessens.refl (s : ProcessRedirectEngine) : Lessens s s :=
  ⟨fun _ _ h => h,fun _ _ h => h,fun _ _ h => h,fun _ _ h => h,fun _ _ h => h,fun _ _ h => h,
    rfl,rfl,rfl,le_rfl⟩

theorem Lessens.trans {a b c : ProcessRedirectEngine} (h : Lessens a b) (h' : Lessens b c) :
    Lessens a c where
  forward k m hk := h.forward k m (h'.forward k m hk)
  reverse k m hk := h.reverse k m (h'.reverse k m hk)
  client k m hk := h.client k m (h'.client k m hk)
  transactions i t hi := h.transactions i t (h'.transactions i t hi)
  synQueryCache k item hk := h.synQueryCache k item (h'.synQueryCache k item hk)
  aPass k expires hk := h.aPass k expires (h'.aPass k expires hk)
  closed := h'.closed.trans h.closed
  suspended := h'.suspended.trans h.suspended
  log := h'.log.trans h.log
  now := h.now.trans h'.now

theorem Traced.lessens (h : Traced rule s) (hl : Lessens s s') : Traced rule s' where
  forward_key k m hk := h.forward_key k m (hl.forward k m hk)
  reverse_key k m hk := h.reverse_key k m (hl.reverse k m hk)
  forward k m hk := hl.log ▸ h.forward k m (hl.forward k m hk)
  reverse k m hk := hl.log ▸ h.reverse k m (hl.reverse k m hk)
  client k m hk := hl.log ▸ h.client k m (hl.client k m hk)
  pending i t hi := hl.log ▸ h.pending i t (hl.transactions i t hi)
  cached k item hk := hl.log ▸ h.cached k item (hl.synQueryCache k item hk)
  closed := by
    rw [hl.closed,hl.log]
    exact h.closed
  suspended := by
    rw [hl.suspended,hl.log]
    exact h.suspended
  justified := hl.log ▸ h.justified

theorem lessens_of_eq (hf : s'.forward = s.forward) (hr : s'.reverse = s.reverse)
    (hc : s'.client = s.client) (ht : s'.transactions = s.transactions)
    (hq : s'.synQueryCache = s.synQueryCache) (ha : s'.aPass = s.aPass)
    (hclosed : s'.closed = s.closed) (hsus : s'.suspended = s.suspended) (hlog : s'.log = s.log)
    (hnow : s.now ≤ s'.now) : Lessens s s' := by
  refine ⟨?_,?_,?_,?_,?_,?_,hclosed,hsus,hlog,hnow⟩ <;> simp [hf,hr,hc,ht,hq,ha]

theorem Quiet.lessens (h : Quiet s s') : Lessens s s' :=
  lessens_of_eq h.forward h.reverse h.client h.transactions h.synQueryCache h.aPass h.closed
    h.suspended h.log h.now

theorem lessens_ticked (s : ProcessRedirectEngine) : Lessens s s.ticked :=
  lessens_of_eq rfl rfl rfl rfl rfl rfl rfl rfl rfl (now_le_ticked s)

theorem lessens_addTombstone (m : RedirectMapping) (seconds : ℚ) (reason : String)
    (s : ProcessRedirectEngine) : Lessens s (rule.addTombstone m seconds reason s) :=
  lessens_of_eq rfl rfl rfl rfl rfl rfl rfl rfl rfl (now_le_ticked s)

theorem lessens_popTransaction (i : ℕ) (s : ProcessRedirectEngine) :
    Lessens s (popTransaction i s) where
  forward _ _ h := h
  reverse _ _ h := h
  client _ _ h := h
  transactions _ _ h := ((Dict.get?_pop_eq_some _ _ _ _).mp h).2
  synQueryCache _ _ h := h
  aPass _ _ h := h
  closed := rfl
  suspended := rfl
  log := rfl
  now := le_rfl

theorem lessens_removeMapping (m : RedirectMapping) (s : ProcessRedirectEngine) :
    Lessens s (rule.removeMapping m s) where
  forward _ _ h := ((Dict.get?_pop_eq_some _ _ _ _).mp h).2
  reverse _ _ h := ((Dict.get?_pop_eq_some _ _ _ _).mp h).2
  client _ _ h := ((Dict.get?_popIf_eq_some _ _ _ _ _).mp h).1
  transactions _ _ h := h
  synQueryCache _ _ h := h
  aPass _ _ h := h
  closed := rfl
  suspended := rfl
  log := rfl
  now := le_rfl

theorem lessens_retire (m : RedirectMapping) (seconds : ℚ) (reason : String)
    (s : ProcessRedirectEngine) : Lessens s (rule.retire m seconds reason s) :=
  (lessens_removeMapping m s).trans (lessens_addTombstone m seconds reason _)

theorem lessens_purge (now : ℚ) (s : ProcessRedirectEngine) : Lessens s (purge now s) where
  forward _ _ h := h
  reverse _ _ h := h
  client _ _ h := h
  transactions _ _ h := h
  synQueryCache _ _ h := ((Dict.get?_filter_eq_some _ _ _ _).mp h).1
  aPass _ _ h := ((Dict.get?_filter_eq_some _ _ _ _).mp h).1
  closed := rfl
  suspended := rfl
  log := rfl
  now := le_rfl

theorem lessens_timeOut (now : ℚ) (s : ProcessRedirectEngine) (e : ℕ × RedirectTransaction) :
    Lessens s (rule.timeOut now s e) := by
  unfold timeOut
  split_ifs
  · exact (lessens_popTransaction e.1 s).trans (lessens_addTombstone _ _ _ _)
  · exact lessens_popTransaction e.1 s
  · exact .refl s

theorem lessens_expire (now : ℚ) (s : ProcessRedirectEngine) (m : RedirectMapping) :
    Lessens s (rule.expire now s m) := by
  unfold expire
  split
  · exact .refl s
  · exact lessens_retire m 240 _ s

theorem lessens_foldl {α : Type} {f : ProcessRedirectEngine → α → ProcessRedirectEngine}
    (hf : ∀ s a, Lessens s (f s a)) (l : List α) (s : ProcessRedirectEngine) :
    Lessens s (l.foldl f s) := by
  induction l generalizing s with
  | nil => exact .refl s
  | cons a l ih => exact (hf s a).trans (ih (f s a))

theorem lessens_cleanup (now : ℚ) (s : ProcessRedirectEngine) : Lessens s (rule.cleanup now s) :=
  ((lessens_purge now s).trans (lessens_foldl (lessens_timeOut now) _ _)).trans
    (lessens_foldl (lessens_expire now) _ _)

theorem lessens_markFin (m : RedirectMapping) (packet : PacketTuple) (s : ProcessRedirectEngine) :
    Lessens s (markFin m packet s) := by
  unfold markFin
  dsimp only
  split
  · exact lessens_of_eq rfl rfl rfl rfl rfl rfl rfl rfl rfl (now_le_ticked s)
  · exact lessens_of_eq rfl rfl rfl rfl rfl rfl rfl rfl rfl le_rfl

theorem lessens_observeTcp (m : RedirectMapping) (packet : PacketTuple) (s : ProcessRedirectEngine) :
    Lessens s (rule.observeTcp m packet s) := by
  unfold observeTcp
  split
  · exact lessens_retire m 240 _ s
  · split
    · dsimp only
      split
      · exact (lessens_markFin m packet s).trans (lessens_retire m 240 _ _)
      · exact lessens_markFin m packet s
    · exact .refl s

def isControl : RedirectEvent → Bool
  | .suspended | .resumed | .closed => true
  | _ => false

theorem suspendedIn_append (log : List RedirectEvent) (e : RedirectEvent) (he : isControl e = false) :
    suspendedIn (log++[e]) = suspendedIn log := by
  simp only [suspendedIn,List.foldl_append,List.foldl_cons,List.foldl_nil]
  cases e with
  | suspended => cases he
  | resumed => cases he
  | _ => rfl

theorem prefix_record (e : RedirectEvent) (s : ProcessRedirectEngine) : s.log <+: (s.record e).log :=
  List.prefix_append _ _

theorem Traced.recordWith (h : Traced rule s) {e : RedirectEvent} (suspended : Bool)
    (hc : RedirectEvent.closed ≠ e) (hs : suspended = suspendedIn (s.log++[e]))
    (ha : Authorised rule s.log e) : Traced rule ({ s with suspended := suspended }.record e) where
  forward_key := h.forward_key
  reverse_key := h.reverse_key
  forward k m hk := (h.forward k m hk).mono (prefix_record e s)
  reverse k m hk := (h.reverse k m hk).mono (prefix_record e s)
  client k m hk := (h.client k m hk).mono (prefix_record e s)
  pending i t hi := by
    have hp := h.pending i t hi
    cases hnew : t.newMapping with
    | true =>
      simp only [hnew,if_true] at hp ⊢
      exact hp.mono (prefix_record e s)
    | false =>
      simp only [hnew,Bool.false_eq_true,if_false] at hp ⊢
      exact hp.mono (prefix_record e s)
  cached k item hk := List.mem_append_left _ (h.cached k item hk)
  closed := by simpa [ProcessRedirectEngine.record,hc] using h.closed
  suspended := hs
  justified := h.justified.snoc ha

theorem Traced.record (h : Traced rule s) {e : RedirectEvent} (he : isControl e = false)
    (ha : Authorised rule s.log e) : Traced rule (s.record e) := by
  have hc : RedirectEvent.closed ≠ e := by
    rintro rfl
    cases he
  exact h.recordWith s.suspended hc (h.suspended.trans (suspendedIn_append _ _ he).symm) ha

theorem Traced.setAPass (h : Traced rule s) (aPass : Dict RedirectKey ℚ) :
    Traced rule { s with aPass := aPass } :=
  ⟨h.forward_key,h.reverse_key,h.forward,h.reverse,h.client,h.pending,h.cached,h.closed,h.suspended,
    h.justified⟩

theorem Traced.newTransaction (h : Traced rule s) {m : RedirectMapping} {packet : PacketTuple}
    {new : Bool}
    (hm : if new then Proposed rule s.log (s.token+1) ⟨s.token+1,m,packet,new,s.now⟩
      else Established rule s.log m) :
    Traced rule (ProcessRedirectEngine.newTransaction m packet new s) where
  forward_key := h.forward_key
  reverse_key := h.reverse_key
  forward := h.forward
  reverse := h.reverse
  client := h.client
  pending i t hi := by
    rcases get?_newTransaction hi with ⟨rfl,rfl⟩ | hi
    · exact hm
    · exact h.pending i t hi
  cached := h.cached
  closed := h.closed
  suspended := h.suspended
  justified := h.justified

theorem rewrite_eq (m : RedirectMapping) (packet : PacketTuple) (new : Bool)
    (decision : ProcessRedirectDecision) (s : ProcessRedirectEngine) :
    (rewrite m packet new decision s).2 = ProcessRedirectEngine.newTransaction m packet new
      (s.record (.decided packet ⟨decision,some (s.token+1)⟩)) := rfl

theorem rewrite_existing_traced (h : Traced rule s) (hs : s.unavailable = false)
    {packet : PacketTuple} {m : RedirectMapping} (hm : s.forward.get? packet.key = some m)
    (reason : String) :
    Traced rule (rewrite m packet false (rule.outboundDecision m packet reason) s).2 := by
  have hest := h.forward _ _ hm
  obtain ⟨packet',owner,answers,hc⟩ := hest.created h.justified
  rw [rewrite_eq]
  refine (h.record (e:=.decided packet _) rfl ⟨fun _ => ?_,fun hin => ?_⟩).newTransaction ?_
  · exact ⟨h.available hs,m.generation,packet',owner,answers,rfl,hc⟩
  · cases hin
  · exact hest.mono (prefix_record _ s)

theorem rewrite_inbound_traced (h : Traced rule s) (hs : s.unavailable = false)
    {packet : PacketTuple} {m : RedirectMapping} (hm : s.reverse.get? packet.key = some m) :
    Traced rule (rewrite m packet false (rule.inboundDecision m packet) s).2 := by
  have hest := h.reverse _ _ hm
  have hkey := h.reverse_key _ _ hm
  obtain ⟨packet',owner,answers,hc⟩ := hest.created h.justified
  rw [rewrite_eq]
  refine (h.record (e:=.decided packet _) rfl ⟨fun _ => ?_,fun _ => ?_⟩).newTransaction ?_
  · exact ⟨h.available hs,m.generation,packet',owner,answers,rfl,hc⟩
  · obtain ⟨p,outbound,token,hf,ho,hsub⟩ := hest
    simp only [PacketTuple.key,reverseKey,RedirectMapping.reverseKey,RedirectKey.mk.injEq] at hkey
    obtain ⟨-,-,hport,hip,hlport,hif,hsubif⟩ := hkey
    refine ⟨m.generation,p,outbound,token,rfl,ho,hsub,?_,?_,?_,?_,?_,?_,?_⟩
    · rw [hf.sourceIpv4,hip]
    · rw [hf.sourcePort,hlport]
    · rw [hf.targetPort,hport]
    · rw [hf.interfaceIndex,hif]
    · rw [hf.subinterfaceIndex,hsubif]
    · simp [inboundDecision,ho.original]
    · simp [inboundDecision,hf.targetPort,hport]
  · exact hest.mono (prefix_record _ s)

def Grows (s s' : ProcessRedirectEngine) : Prop := s.log <+: s'.log

theorem Lessens.grows (h : Lessens s s') : Grows s s' := by
  rw [Grows,h.log]

/-- What `prepare` may return: a decision to rewrite a packet, or to pass a later packet of a
flow, stands in the history. -/
def Logged (packet : PacketTuple) (prepared : PreparedRedirect) (s : ProcessRedirectEngine) : Prop :=
  (rewrites prepared = true ∨ packet.direction = .outbound ∧ packet.newSyn = false ∧
    prepared.decision.action = .passUnchanged) → .decided packet prepared ∈ s.log

theorem logged_drop (packet : PacketTuple) (reason : String) (s : ProcessRedirectEngine) :
    Logged packet (.drop reason) s := by
  rintro (h | ⟨-,-,h⟩) <;> cases h

theorem Logged.grows {packet : PacketTuple} {prepared : PreparedRedirect}
    (h : Logged packet prepared s) (hg : Grows s s') : Logged packet prepared s' :=
  fun hp => hg.subset (h hp)

/-- The reply that the first section hands on came from the resolver for the same flow. -/
def Cached (key : RedirectKey) (cached : OwnerReply) (s : ProcessRedirectEngine) : Prop :=
  cached = .nothing ∨ .answered key cached ∈ s.log

theorem rewrite_logged (m : RedirectMapping) (packet : PacketTuple) (new : Bool)
    (decision : ProcessRedirectDecision) (s : ProcessRedirectEngine) :
    Logged packet (rewrite m packet new decision s).1 (rewrite m packet new decision s).2 :=
  fun _ => List.mem_append_right _ (List.mem_singleton.mpr rfl)

/-- What the first section leaves to the rest of `prepare`. -/
def Begun (packet : PacketTuple) (stage : Stage) (s : ProcessRedirectEngine) : Prop :=
  match stage with
  | .decided prepared => Logged packet prepared s
  | .query cached => packet.newSyn = true ∧ Cached packet.key cached s

theorem beginPrepare_traced (h : Traced rule s) (packet : PacketTuple) :
    Traced rule (rule.beginPrepare packet s).2 ∧ Grows s (rule.beginPrepare packet s).2 ∧
      Begun packet (rule.beginPrepare packet s).1 (rule.beginPrepare packet s).2 := by
  have hless : Lessens s (rule.cleanup s.now s.ticked) :=
    (lessens_ticked s).trans (lessens_cleanup _ _)
  have hclean := h.lessens hless
  have hbegins := beginPrepare_begins rule packet s
  generalize rule.beginPrepare packet s = r at hbegins ⊢
  cases hbegins with
  | dropped reason s' hq =>
    exact ⟨hclean.lessens hq.lessens,(hless.trans hq.lessens).grows,logged_drop _ _ _⟩
  | existing m hs hm hroom =>
    refine ⟨rewrite_existing_traced hclean hs hm _,?_,rewrite_logged _ _ _ _ _⟩
    exact hless.grows.trans (prefix_record _ _)
  | passed expires hf hsyn hpass hlive =>
    refine ⟨?_,hless.grows.trans (prefix_record _ _),fun _ => ?_⟩
    · refine (hclean.setAPass _).record (e:=.decided packet (.pass "non_target_flow")) rfl
        ⟨fun hr => ?_,fun hin => ?_⟩
      · cases hr
      · cases hin
    · exact List.mem_append_right _ (List.mem_singleton.mpr rfl)
  | query cached s' hsyn hq hcached hquiet =>
    refine ⟨hclean.lessens hquiet.lessens,(hless.trans hquiet.lessens).grows,hsyn,?_⟩
    rcases hcached with rfl | ⟨item,hitem,rfl⟩
    · exact .inl rfl
    · rw [Cached,hquiet.log]
      exact .inr (hclean.cached _ _ hitem)

theorem cacheResolution_traced (h : Traced rule s) (key : RedirectKey) (reply : OwnerReply) :
    Traced rule (cacheResolution key reply s) := by
  have hrecord := h.record (e:=.answered key reply) rfl trivial
  refine ⟨hrecord.forward_key,hrecord.reverse_key,hrecord.forward,hrecord.reverse,hrecord.client,
    hrecord.pending,?_,hrecord.closed,hrecord.suspended,hrecord.justified⟩
  intro k item hk
  rcases (Dict.get?_set_eq_some _ _ _ _ _).mp hk with ⟨rfl,rfl⟩ | ⟨-,hk⟩
  · exact List.mem_append_right _ (List.mem_singleton.mpr rfl)
  · exact List.mem_append_left _ (h.cached k item hk)

theorem passNonTarget_traced (h : Traced rule s) (key : RedirectKey) :
    Traced rule (passNonTarget key s) :=
  ((h.lessens (lessens_ticked s)).setAPass _).record rfl trivial

theorem createMapping_traced (h : Traced rule s) {packet : PacketTuple}
    {owner : ProcessOwnerIdentity} {answers : RedirectAnswers}
    (horiginal : packet.targetIpv4 = rule.originalIpv4)
    (hauthority : Available s.log → CreatedBy rule s.log packet owner answers) :
    Traced rule (rule.createMapping packet owner answers s).2 ∧
      Grows s (rule.createMapping packet owner answers s).2 ∧
      Logged packet (rule.createMapping packet owner answers s).1
        (rule.createMapping packet owner answers s).2 := by
  have hcreates := createMapping_creates rule packet owner answers s
  generalize rule.createMapping packet owner answers s = r at hcreates ⊢
  cases hcreates with
  | dropped reason s' hq => exact ⟨h.lessens hq.lessens,hq.lessens.grows,logged_drop _ _ _⟩
  | created s' hq hs hgen htotal hpid hclient hend =>
    have hs' : Traced rule s' := h.lessens hq.lessens
    have havail : Available s'.log := by
      rw [hq.log]
      exact h.available hs
    have hcell : Traced rule (s'.setCell (freshMapping packet owner s)
        ⟨(freshMapping packet owner s).createdAt,false,false,none⟩) :=
      hs'.lessens (lessens_of_eq rfl rfl rfl rfl rfl rfl rfl rfl rfl le_rfl)
    have hmade := hcell.record
      (e:=.created (freshMapping packet owner s).generation packet owner answers) rfl (by
        have hby := hauthority (h.available hs)
        rw [← hq.log] at hby
        exact hby)
    refine ⟨?_,?_,rewrite_logged _ _ _ _ _⟩
    · unfold rewriteNew
      rw [rewrite_eq]
      refine (hmade.record (e:=.decided packet _) rfl ⟨fun _ => ?_,fun hin => ?_⟩).newTransaction ?_
      · refine ⟨⟨fun hc => ?_,?_⟩,_,packet,owner,answers,rfl,?_⟩
        · have hne : RedirectEvent.closed ≠ .created (freshMapping packet owner s).generation packet
            owner answers := by simp
          rcases List.mem_append.mp hc with hc | hc
          · exact havail.1 hc
          · exact hne (List.mem_singleton.mp hc)
        · exact (suspendedIn_append _ _ rfl).trans havail.2
        · exact List.mem_append_right _ (List.mem_singleton.mpr rfl)
      · cases hin
      · exact ⟨_,⟨rfl,rfl,rfl,rfl,rfl⟩,⟨rfl,rfl,rfl,horiginal,rfl,rfl⟩,
          List.mem_append_right _ (List.mem_singleton.mpr rfl)⟩
    · refine (hq.lessens.grows).trans ?_
      exact (List.prefix_append _ _).trans (List.prefix_append _ _)

theorem inboundLocked_traced (h : Traced rule s) {packet : PacketTuple}
    (hin : packet.direction = .inbound) :
    Traced rule (rule.inboundLocked packet s).2 ∧ Grows s (rule.inboundLocked packet s).2 ∧
      Logged packet (rule.inboundLocked packet s).1 (rule.inboundLocked packet s).2 := by
  have hless : Lessens s (rule.cleanup s.now s.ticked) :=
    (lessens_ticked s).trans (lessens_cleanup _ _)
  have hclean := h.lessens hless
  have hdrop : ∀ reason, Traced rule (rule.cleanup s.now s.ticked) ∧
      Grows s (rule.cleanup s.now s.ticked) ∧
      Logged packet (.drop reason) (rule.cleanup s.now s.ticked) :=
    fun reason => ⟨hclean,hless.grows,logged_drop _ _ _⟩
  unfold inboundLocked
  dsimp only
  split
  · exact hdrop _
  · rename_i hs
    split
    · exact hdrop _
    · split
      · refine ⟨hclean,hless.grows,?_⟩
        rintro (hr | ⟨hout,-⟩)
        · cases hr
        · rw [hin] at hout
          cases hout
      · rename_i m hm
        split
        · exact hdrop _
        · refine ⟨rewrite_inbound_traced hclean (by simpa using hs) hm,?_,rewrite_logged _ _ _ _ _⟩
          exact hless.grows.trans (prefix_record _ _)

theorem Traced.install (h : Traced rule s) {m : RedirectMapping} (hm : Established rule s.log m) :
    Traced rule (rule.install m s) where
  forward_key k m' hk := by
    rcases (Dict.get?_set_eq_some _ _ _ _ _).mp hk with ⟨rfl,rfl⟩ | ⟨-,hk⟩
    · rfl
    · exact h.forward_key k m' hk
  reverse_key k m' hk := by
    rcases (Dict.get?_set_eq_some _ _ _ _ _).mp hk with ⟨rfl,rfl⟩ | ⟨-,hk⟩
    · rfl
    · exact h.reverse_key k m' hk
  forward k m' hk := by
    rcases (Dict.get?_set_eq_some _ _ _ _ _).mp hk with ⟨-,rfl⟩ | ⟨-,hk⟩
    · exact hm
    · exact h.forward k m' hk
  reverse k m' hk := by
    rcases (Dict.get?_set_eq_some _ _ _ _ _).mp hk with ⟨-,rfl⟩ | ⟨-,hk⟩
    · exact hm
    · exact h.reverse k m' hk
  client k m' hk := by
    rcases (Dict.get?_set_eq_some _ _ _ _ _).mp hk with ⟨-,rfl⟩ | ⟨-,hk⟩
    · exact hm
    · exact h.client k m' hk
  pending := h.pending
  cached := h.cached
  closed := h.closed
  suspended := h.suspended
  justified := h.justified

theorem established_of_committed (h : Traced rule s) {token : ℕ} {t : RedirectTransaction}
    (ht : s.transactions.get? token = some t) :
    Established rule (s.log++[.committed token true]) t.mapping := by
  have hp := h.pending token t ht
  cases hnew : t.newMapping with
  | true =>
    simp only [hnew,if_true] at hp
    obtain ⟨prepared,hf,ho,hd⟩ := hp
    exact ⟨t.packet,prepared,token,hf,ho,
      (List.singleton_sublist.mpr hd).append (List.Sublist.refl [RedirectEvent.committed token true])⟩
  | false =>
    simp only [hnew,Bool.false_eq_true,if_false] at hp
    exact hp.mono (List.prefix_append _ _)

theorem lessens_touch (m : RedirectMapping) (s : ProcessRedirectEngine) : Lessens s (touch m s) :=
  lessens_of_eq rfl rfl rfl rfl rfl rfl rfl rfl rfl (now_le_ticked s)

theorem confirm_log (t : RedirectTransaction) (s : ProcessRedirectEngine) :
    (rule.confirm t s).log = s.log := by
  unfold confirm
  rw [(lessens_observeTcp _ _ _).log]
  split <;> rfl

theorem commitLocked_traced (h : Traced rule s) (token : ℕ) (outcome : Bool) :
    Traced rule (rule.commitLocked token outcome s).2 ∧
      Grows s (rule.commitLocked token outcome s).2 := by
  unfold commitLocked
  split
  · exact ⟨h,List.prefix_refl _⟩
  · rename_i t ht
    have hpop : Traced rule ((popTransaction token s).record (.committed token outcome)) :=
      (h.lessens (lessens_popTransaction token s)).record rfl trivial
    split
    · rename_i hout
      subst hout
      refine ⟨?_,?_⟩
      · unfold confirm
        dsimp only
        refine Traced.lessens ?_ ((lessens_touch _ _).trans (lessens_observeTcp _ _ _))
        split
        · exact hpop.install (established_of_committed h ht)
        · exact hpop
      · rw [Grows,confirm_log]
        exact List.prefix_append _ _
    · refine ⟨hpop.lessens (lessens_retire _ _ _ _),?_⟩
      exact List.prefix_append _ _

theorem abortLocked_lessens (token : ℕ) (s : ProcessRedirectEngine) :
    Lessens s (rule.abortLocked token s).2 := by
  unfold abortLocked
  split
  · exact .refl s
  · exact (lessens_popTransaction token s).trans (lessens_retire _ _ _ _)

theorem closeLocked_traced (h : Traced rule s) : Traced rule (closeLocked s) where
  forward_key _ _ hk := by cases hk
  reverse_key _ _ hk := by cases hk
  forward _ _ hk := by cases hk
  reverse _ _ hk := by cases hk
  client _ _ hk := by cases hk
  pending _ _ hi := by cases hi
  cached _ _ hk := by cases hk
  closed := by simp [closeLocked,ProcessRedirectEngine.record]
  suspended := by
    simp only [closeLocked,ProcessRedirectEngine.record,suspendedIn,List.foldl_append,
      List.foldl_cons,List.foldl_nil]
    exact h.suspended
  justified := h.justified.snoc trivial

theorem Lessens.withSuspended {suspended : Bool} {reason : Option String}
    (h : Lessens { s with suspended := suspended, suspendReason := reason } s') :
    Lessens s { s' with suspended := s.suspended } :=
  ⟨h.forward,h.reverse,h.client,h.transactions,h.synQueryCache,h.aPass,h.closed,rfl,h.log,h.now⟩

theorem suspendLocked_traced (h : Traced rule s) (reason : String) :
    Traced rule (rule.suspendLocked reason s).2 ∧ Grows s (rule.suspendLocked reason s).2 := by
  unfold suspendLocked
  split
  · exact ⟨h,List.prefix_refl _⟩
  · dsimp only
    have hfold := lessens_foldl (f:=fun s m => rule.retire m 240 "suspended" s)
      (fun s m => lessens_retire m 240 _ s) s.forward.values
      { s with suspended := true, suspendReason := s.suspendReason.or (some reason) }
    generalize List.foldl (fun s m => rule.retire m 240 "suspended" s)
      { s with suspended := true, suspendReason := s.suspendReason.or (some reason) }
      s.forward.values = s₁ at hfold ⊢
    have hempty : Lessens s₁ { s₁ with transactions := Dict.empty, reservations := [] } :=
      ⟨fun _ _ h => h,fun _ _ h => h,fun _ _ h => h,fun _ _ h => (by cases h),fun _ _ h => h,
        fun _ _ h => h,rfl,rfl,rfl,le_rfl⟩
    have hbase := h.lessens (hfold.trans hempty).withSuspended
    have hrecord := hbase.recordWith (e:=.suspended) s₁.suspended (by simp)
      (by simp [suspendedIn,List.foldl_append,hfold.suspended]) trivial
    refine ⟨hrecord,?_⟩
    exact hfold.grows.trans (List.prefix_append _ _)

theorem resumeLocked_traced (h : Traced rule s) :
    Traced rule (resumeLocked s).2 ∧ Grows s (resumeLocked s).2 := by
  unfold resumeLocked
  split
  · exact ⟨h,List.prefix_refl _⟩
  · have hbase : Traced rule { s with suspendReason := none, generation := s.generation+1 } :=
      h.lessens (lessens_of_eq rfl rfl rfl rfl rfl rfl rfl rfl rfl le_rfl)
    refine ⟨hbase.recordWith (e:=.resumed) false (by simp) ?_ trivial,
      List.prefix_append _ _⟩
    simp [suspendedIn,List.foldl_append]

/-- Safety with respect to operations that never take an event back. -/
abbrev TracedSafe (rule : ProcessRedirectRule) {α : Type} (Q : α → ProcessRedirectEngine → Prop)
    (p : Prog ProcessRedirectEngine α) (s : ProcessRedirectEngine) : Prop :=
  Pool.Safe (Traced rule) Grows Grows Q p s

/-- The resolution behind a SYN was the resolver's answer for its flow. -/
def Answered (key : RedirectKey) (reply : Option OwnerReply) (s : ProcessRedirectEngine) : Prop :=
  ∀ r, reply = some (.resolution r) → .answered key (.resolution r) ∈ s.log

theorem resolveOwner_traced {key : RedirectKey} {cached : OwnerReply} (h : Cached key cached s)
    (answers : RedirectAnswers) :
    TracedSafe rule (Answered key) (resolveOwner key answers cached) s := by
  cases cached with
  | nothing =>
    unfold resolveOwner
    cases answers.owner with
    | raised =>
      intro r hr
      cases hr
    | returned reply =>
      refine Pool.Safe.bind (Q:=fun _ s => .answered key reply ∈ s.log)
        (Pool.safe_locked fun s' _ hi => ⟨cacheResolution_traced hi key reply,?_,?_⟩) ?_
      · exact List.prefix_append _ _
      · exact List.mem_append_right _ (List.mem_singleton.mpr rfl)
      · intro _ s hs r hr
        cases hr
        exact hs
  | invalid =>
    intro r hr
    cases hr
  | resolution r =>
    intro r' hr
    cases hr
    rcases h with h | h
    · cases h
    · exact h

theorem prepareTarget_traced {packet : PacketTuple} {answers : RedirectAnswers}
    {owner : ProcessOwnerIdentity} {r : OwnerResolution}
    (horiginal : packet.targetIpv4 = rule.originalIpv4) (hmatch : rule.ownerMatchesRule owner = true)
    (hstatus : r.status = .resolved) (hidentity : r.identity = some owner)
    (hanswered : .answered packet.key (.resolution r) ∈ s.log) :
    TracedSafe rule (Logged packet) (rule.prepareTarget packet answers owner) s := by
  refine Pool.Safe.bind (Q:=fun _ s => .answered packet.key (.resolution r) ∈ s.log)
    (Pool.safe_locked fun s' hg hi => ⟨hi.record rfl trivial,prefix_record _ s',?_⟩)
    fun _ s hanswered => ?_
  · exact List.mem_append_left _ (hg.subset hanswered)
  · have hsuspend : ∀ (reason : String) (p : String), TracedSafe rule (Logged packet)
        ((rule.suspend reason).bind fun _ => .done (.drop p)) s := fun reason p =>
      Pool.Safe.bind (Q:=fun _ _ => True)
        (Pool.safe_locked fun s' _ hi => ⟨(suspendLocked_traced hi reason).1,
          (suspendLocked_traced hi reason).2,trivial⟩)
        fun _ s _ => logged_drop packet p s
    split
    · exact hsuspend _ _
    · rename_i route hroute
      split
      · exact hsuspend _ _
      · rename_i hcurrent
        split
        · exact logged_drop _ _ _
        · exact logged_drop _ _ _
        · rename_i hvalid
          refine Pool.safe_locked fun s' hg hi => createMapping_traced hi horiginal fun havail => ?_
          exact ⟨havail,⟨r,hstatus,hidentity,hg.subset hanswered⟩,hmatch,
            ⟨route,hroute,by simpa using hcurrent⟩,hvalid⟩

theorem prepareQueried_traced {packet : PacketTuple} {cached : OwnerReply}
    (horiginal : packet.targetIpv4 = rule.originalIpv4) (hsyn : packet.newSyn = true)
    (h : Cached packet.key cached s) (answers : RedirectAnswers) :
    TracedSafe rule (Logged packet) (rule.prepareQueried packet answers cached) s := by
  refine Pool.Safe.bind (resolveOwner_traced h answers) fun reply s hs => ?_
  cases reply with
  | none => exact logged_drop _ _ _
  | some reply =>
    cases reply with
    | nothing => exact logged_drop _ _ _
    | invalid => exact logged_drop _ _ _
    | resolution r =>
      dsimp only
      split
      · exact logged_drop _ _ _
      · rename_i hstatus
        split
        · refine Pool.safe_locked fun s' _ hi =>
            ⟨passNonTarget_traced hi _,prefix_record _ _,?_⟩
          rintro (hr | ⟨-,hsyn',-⟩)
          · cases hr
          · rw [hsyn] at hsyn'
            cases hsyn'
        · rename_i owner howner
          obtain ⟨hidentity,hmatch⟩ := Option.filter_eq_some_iff.mp howner
          exact prepareTarget_traced horiginal hmatch (not_not.mp hstatus) hidentity (hs r rfl)

theorem prepare_traced (packet : PacketTuple) (answers : RedirectAnswers) (s : ProcessRedirectEngine) :
    TracedSafe rule (Logged packet) (rule.prepare packet answers) s := by
  have hna : ∀ s, Logged packet .notApplicable s := by
    rintro s (h | ⟨-,-,h⟩) <;> cases h
  unfold prepare
  split
  · exact hna s
  · split
    · rename_i hin
      unfold prepareInbound
      split
      · exact hna s
      · split
        · exact logged_drop _ _ _
        · exact Pool.safe_locked fun s' _ hi => inboundLocked_traced hi hin
    · exact logged_drop _ _ _
    · split
      · exact hna s
      · rename_i horiginal
        split
        · exact logged_drop _ _ _
        · refine Pool.Safe.bind (Pool.safe_locked fun s' _ hi => beginPrepare_traced hi packet)
            fun stage s hbegun => ?_
          cases stage with
          | decided prepared => exact hbegun
          | query cached =>
            refine Pool.Safe.bind (prepareQueried_traced (not_not.mp horiginal) hbegun.1 hbegun.2
              answers) fun prepared s hlogged => ?_
            refine Pool.safe_locked fun s' hg hi => ⟨?_,List.prefix_refl _,?_⟩
            · exact hi.lessens (lessens_of_eq rfl rfl rfl rfl rfl rfl rfl rfl rfl le_rfl)
            · exact (hlogged.grows hg).grows (List.prefix_refl _)

end ProcessRedirectRule

namespace RedirectCall

open ProcessRedirectRule

/-- What a call that is about to return has left in the history. -/
def ReplyLogged : RedirectCall → RedirectReply → ProcessRedirectEngine → Prop
  | prepare packet _, .prepared prepared, s => Logged packet prepared s
  | _, _, _ => True

theorem body_traced (rule : ProcessRedirectRule) (c : RedirectCall) (s : ProcessRedirectEngine) :
    Pool.Safe (Traced rule) Grows Grows c.ReplyLogged (c.body rule) s := by
  cases c with
  | prepare packet answers =>
    exact Pool.Safe.bind (prepare_traced packet answers s) fun _ _ h => h
  | commit token outcome =>
    exact fun s' _ hi => ⟨(commitLocked_traced hi token outcome).1,
      (commitLocked_traced hi token outcome).2,trivial⟩
  | abort token =>
    exact fun s' _ hi => ⟨hi.lessens (abortLocked_lessens token s'),
      (abortLocked_lessens token s').grows,trivial⟩
  | close => exact fun s' _ hi => ⟨closeLocked_traced hi,List.prefix_append _ _,trivial⟩
  | suspend reason =>
    exact fun s' _ hi => ⟨(suspendLocked_traced hi reason).1,(suspendLocked_traced hi reason).2,trivial⟩
  | resume routeValid fileValid =>
    dsimp only [body]
    unfold ProcessRedirectRule.resume
    split
    · exact fun s' _ hi => ⟨(resumeLocked_traced hi).1,(resumeLocked_traced hi).2,trivial⟩
    · trivial

theorem traced_sound (rule : ProcessRedirectRule) :
    Pool.Sound (body rule) Pool.anyCall (Traced rule) (fun _ => Grows) (fun _ => Grows) ReplyLogged
      fun _ _ => True where
  refl _ _ := List.prefix_refl _
  trans _ _ _ _ h h' := h.trans h'
  stable c a s s' h hg := by
    cases c with
    | prepare packet answers =>
      cases a with
      | prepared prepared => exact Logged.grows h hg
      | _ => trivial
    | _ => trivial
  guar _ _ _ _ _ h := h
  body c s _ := body_traced rule c s
  allows _ _ _ _ _ _ _ := ⟨trivial,trivial⟩

end RedirectCall

namespace ProcessRedirectEngine

/-- The generations that the engine still knows of. -/
def InUse (s : ProcessRedirectEngine) (generation : ℕ) : Prop :=
  ∃ m : RedirectMapping, m.generation = generation ∧
    (m ∈ s.forward.values ∨ m ∈ s.reverse.values ∨ m ∈ s.client.values ∨
      ∃ t ∈ s.transactions.values, t.mapping = m)

end ProcessRedirectEngine

open ProcessRedirectRule in
theorem ProcessRedirectRule.Traced.inUse {rule : ProcessRedirectRule} {s : ProcessRedirectEngine}
    (h : Traced rule s) {generation : ℕ} (hg : s.InUse generation) :
    ∃ packet owner answers, .created generation packet owner answers ∈ s.log := by
  obtain ⟨m,rfl,hm | hm | hm | ⟨t,ht,rfl⟩⟩ := hg
  · obtain ⟨k,hk⟩ := (Dict.mem_values_iff _ _).mp hm
    exact (h.forward k m hk).created h.justified
  · obtain ⟨k,hk⟩ := (Dict.mem_values_iff _ _).mp hm
    exact (h.reverse k m hk).created h.justified
  · obtain ⟨k,hk⟩ := (Dict.mem_values_iff _ _).mp hm
    exact (h.client k m hk).created h.justified
  · obtain ⟨i,hi⟩ := (Dict.mem_values_iff _ _).mp ht
    have hp := h.pending i t hi
    cases hnew : t.newMapping with
    | true =>
      simp only [hnew,if_true] at hp
      exact hp.created h.justified
    | false =>
      simp only [hnew,Bool.false_eq_true,if_false] at hp
      exact hp.created h.justified

open ProcessRedirectRule in
/-- In every interleaving: each decision and each mapping of the history was authorised by
what preceded it, a rewriting decision that is returned stands in the history, every
generation in use was created there, and the engine is available exactly when the history
says so. -/
theorem redirect_authorised (rule : ProcessRedirectRule) (clock : Clock)
    (P : Pool ProcessRedirectEngine RedirectCall RedirectReply)
    (h : Pool.Steps (RedirectCall.body rule) Pool.anyCall (Pool.start (.init clock)) P) :
    Justified (Authorised rule) P.shared.log ∧
      (∀ t packet answers prepared,
        P.returning t = some (.prepare packet answers,.prepared prepared) →
          rewrites prepared = true → .decided packet prepared ∈ P.shared.log) ∧
      (∀ generation, P.shared.InUse generation →
        ∃ packet owner answers, .created generation packet owner answers ∈ P.shared.log) ∧
      (P.shared.unavailable = false ↔ Available P.shared.log) := by
  have hprotected := Pool.protected_steps (RedirectCall.traced_sound rule) h
    (Pool.protected_start (init_traced clock))
  have htraced := hprotected.shared
  refine ⟨htraced.justified,?_,fun g hg => htraced.inUse hg,htraced.available,fun ha => ?_⟩
  · intro t packet answers prepared ht hr
    have hsafe := hprotected.safe t _ _ ((Pool.returning_eq_some_iff _ _ _ _).mp ht)
    exact hsafe (.inl hr)
  · have hclosed : P.shared.closed = false := by
      by_contra hc
      exact ha.1 (htraced.closed.mp (by simpa using hc))
    simp only [ProcessRedirectEngine.unavailable,Bool.or_eq_false_iff]
    exact ⟨hclosed,htraced.suspended.trans ha.2⟩

/-- A reply of the target to the client of `PacketTuple.toOriginal`. -/
def PacketTuple.fromTarget (tcpFlags : ℕ) : PacketTuple where
  direction := .inbound
  ipv4Version := 4
  fragmented := false
  protocol := .tcp
  tcpFlags := tcpFlags
  sourceIpv4 := .dotted 192 168 1 9
  sourcePort := 80
  targetIpv4 := .dotted 10 0 0 5
  targetPort := 50000
  interfaceIndex := 3
  subinterfaceIndex := 0

/-- A redirected SYN is injected and its answer translated back. -/
def RedirectCall.redirectedReply : Pool ProcessRedirectEngine RedirectCall
    ProcessRedirectRule.RedirectReply :=
  Pool.schedule (RedirectCall.body .sample) (Pool.start (.init (Clock.every 1)))
    [.call 0 (.prepare (.toOriginal thSyn) (.ownedBy 42)),.go 0,.go 0,.go 0,.go 0,.go 0,
      .call 1 (.commit 1 true),.go 1,
      .call 2 (.prepare (.fromTarget (thSyn+thAck)) (.ownedBy 42)),.go 2]

theorem redirect_authorised_redirectedReply :
    Justified (ProcessRedirectRule.Authorised .sample) RedirectCall.redirectedReply.shared.log ∧
      RedirectCall.redirectedReply.returning 2 =
        some (.prepare (.fromTarget (thSyn+thAck)) (.ownedBy 42),
          .prepared ⟨ProcessRedirectRule.sample.inboundDecision
            ⟨1,.dotted 10 0 0 5,50000,80,3,0,1234,1,5⟩ (.fromTarget (thSyn+thAck)),some 2⟩) :=
  ⟨(redirect_authorised .sample (Clock.every 1) RedirectCall.redirectedReply
    (Pool.schedule_steps _ _)).1,by decide +kernel⟩

/-- A SYN is decided on and the engine suspended before `prepare` gives its reservation back. -/
def RedirectCall.suspendedMidway : Pool ProcessRedirectEngine RedirectCall
    ProcessRedirectRule.RedirectReply :=
  Pool.schedule (RedirectCall.body .sample) (Pool.start (.init (Clock.every 1)))
    [.call 0 (.prepare (.toOriginal thSyn) (.ownedBy 42)),.go 0,.go 0,.go 0,.go 0,
      .call 1 (.suspend "operator"),.go 1,.go 1,.go 0]

/-- The decision that was made before the suspension is returned after it. -/
theorem rewrite_returned_while_suspended :
    Pool.Steps (RedirectCall.body .sample) Pool.anyCall (Pool.start (.init (Clock.every 1)))
        RedirectCall.suspendedMidway ∧
      RedirectCall.suspendedMidway.shared.suspended = true ∧
      (RedirectCall.suspendedMidway.returning 0).map Prod.fst =
        some (.prepare (.toOriginal thSyn) (.ownedBy 42)) ∧
      ∃ prepared, (RedirectCall.suspendedMidway.returning 0).map Prod.snd =
          some (.prepared prepared) ∧
        prepared.decision.action = .rewriteOutbound :=
  ⟨Pool.schedule_steps _ _,by decide +kernel,by decide +kernel,
    ⟨{ ProcessRedirectRule.sample.outboundDecision
        ⟨1,.dotted 10 0 0 5,50000,80,3,0,1234,1,5⟩ (.toOriginal thSyn) "new_mapping" with
      pid := some 1234
      processCreationTime := some 1
      processFileId := some 42 },some 1⟩,by decide +kernel,rfl⟩

end FakeNetNG
