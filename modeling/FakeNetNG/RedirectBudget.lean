import FakeNetNG.RedirectHistory
import FakeNetNG.TokenBucket

/-!
# The budget of owner queries

The engine asks for the owner of a flow only after its first section took a token, or with what an earlier
query left in the cache. A resolution that is `None` would be cached and asked for again without a token, but
the resolver of the program always returns a resolution. The programs are metered: next to the engine stand the
tokens that were taken and the questions that the resolver was asked.
-/

namespace FakeNetNG

structure TcpOwnerRow where
  localIpv4 : Addr
  localPort : ℕ
  remoteIpv4 : Addr
  remotePort : ℕ
  state : ℤ
  pid : ℤ

/-- What Windows answers: the rows of the TCP table, and the identity of a process, which is `none` for an
object of another type. -/
structure OwnerApi where
  tcpOwnerRows : Answer (List TcpOwnerRow)
  processIdentity : ℤ → Answer (Option ProcessOwnerIdentity)

def TcpOwnerRow.carries (packet : PacketTuple) (row : TcpOwnerRow) : Bool :=
  row.localIpv4 = packet.sourceIpv4 && row.localPort = packet.sourcePort && row.remoteIpv4 = packet.targetIpv4 &&
    row.remotePort = packet.targetPort && (decide (3 ≤ row.state) && decide (row.state ≤ 12))

/-- `StrictTcpOwnerResolver.resolve_tcp_owner`; the detail of an error is left out. -/
def resolveTcpOwner (api : OwnerApi) (packet : PacketTuple) : OwnerResolution :=
  match api.tcpOwnerRows with
  | .raised => ⟨.error,none⟩
  | .returned rows =>
    match rows.filter (TcpOwnerRow.carries packet) with
    | [] => ⟨.notFound,none⟩
    | [row] =>
      match api.processIdentity row.pid with
      | .raised => ⟨.error,none⟩
      | .returned none => ⟨.error,none⟩
      | .returned (some identity) => ⟨.resolved,some identity⟩
    | _ => ⟨.ambiguous,none⟩

/-- The answers of a `prepare` whose resolver is that of the program. -/
def RedirectAnswers.strict (api : OwnerApi) (packet : PacketTuple) (route : Answer RouteAnswer)
    (identityValid : Answer Bool) : RedirectAnswers :=
  ⟨.returned (.resolution (resolveTcpOwner api packet)),route,identityValid⟩

/-- The engine, the times at which a token was taken, and for each question to the resolver the time at which
its call took a token. -/
structure Metered where
  engine : ProcessRedirectEngine
  admissions : List ℚ
  queries : List (RedirectKey × Option ℚ)

def Metered.init (clock : Clock) : Metered := ⟨.init clock,[],[]⟩

def Metered.run (f : ProcessRedirectEngine → ProcessRedirectEngine) (s : Metered) : Metered :=
  { s with engine := f s.engine }

def Prog.metered {α : Type} : Prog ProcessRedirectEngine α → Prog Metered α
  | .done a => .done a
  | .step f k => .step (Metered.run f) fun s => (k s.engine).metered

namespace ProcessRedirectRule

open ProcessRedirectEngine

variable (rule : ProcessRedirectRule)

/-- The reading with which the first section took a token: the section goes on to the resolver and found
nothing in the cache. -/
def admission (packet : PacketTuple) (s : ProcessRedirectEngine) : Option ℚ :=
  let cleaned := rule.cleanup s.now s.ticked
  match (rule.beginPrepare packet s).1, cleaned.synQueryCache.get? packet.key with
  | .query _, none => some cleaned.now
  | _, _ => none

def beginMetered (packet : PacketTuple) (s : Metered) : (Stage × Option ℚ) × Metered :=
  let admitted := rule.admission packet s.engine
  let (stage,engine) := rule.beginPrepare packet s.engine
  ((stage,admitted),{ s with engine := engine, admissions := s.admissions++admitted.toList })

def recordQuery (key : RedirectKey) (admitted : Option ℚ) (s : Metered) : Metered :=
  { s with queries := s.queries++[(key,admitted)] }

/-- The resolver is asked when nothing, or `None`, came from the cache. -/
def askMetered (key : RedirectKey) (admitted : Option ℚ) (cached : OwnerReply) : Prog Metered Unit :=
  match cached with
  | .nothing => .locked fun s => ((),recordQuery key admitted s)
  | _ => pure ()

def prepareOutboundMetered (packet : PacketTuple) (answers : RedirectAnswers) : Prog Metered PreparedRedirect := do
  match ← Prog.locked (rule.beginMetered packet) with
  | (.decided prepared,_) => return prepared
  | (.query cached,admitted) =>
    askMetered packet.key admitted cached
    let prepared ← (rule.prepareQueried packet answers cached).metered
    (Prog.locked fun s => (prepared,releaseReservation packet.key s)).metered

def prepareMetered (packet : PacketTuple) (answers : RedirectAnswers) : Prog Metered PreparedRedirect :=
  if packet.ipv4Version ≠ 4 ∨ packet.protocol ≠ .tcp then pure .notApplicable
  else
    match packet.direction with
    | .inbound => (rule.prepareInbound packet).metered
    | .other _ => pure (.drop "invalid_direction")
    | .outbound =>
      if packet.targetIpv4 ≠ rule.originalIpv4 then pure .notApplicable
      else if packet.fragmented then pure (.drop "process_redirect_fragment")
      else rule.prepareOutboundMetered packet answers

end ProcessRedirectRule

open ProcessRedirectRule in
def RedirectCall.bodyMetered (rule : ProcessRedirectRule) (call : RedirectCall) : Prog Metered RedirectReply :=
  match call with
  | .prepare packet answers => (rule.prepareMetered packet answers).bind fun p => .done (.prepared p)
  | call => (RedirectCall.body rule call).metered

theorem Prog.metered_run {α : Type} (p : Prog ProcessRedirectEngine α) (s : Metered) :
    p.metered.run s = ((p.run s.engine).1,{ s with engine := (p.run s.engine).2 }) := by
  induction p generalizing s with
  | done a => rfl
  | step f k ih => exact ih s.engine (s.run f)

namespace ProcessRedirectRule

open ProcessRedirectEngine

variable {rule : ProcessRedirectRule} {s s' : ProcessRedirectEngine}

theorem askMetered_run (key : RedirectKey) (admitted : Option ℚ) (cached : OwnerReply) (m : Metered) :
    ((askMetered key admitted cached).run m).2.engine = m.engine := by
  cases cached <;> rfl

theorem prepareOutboundMetered_run (packet : PacketTuple) (answers : RedirectAnswers) (m : Metered) :
    ((rule.prepareOutboundMetered packet answers).run m).1 = ((rule.prepareOutbound packet answers).run m.engine).1 ∧
      ((rule.prepareOutboundMetered packet answers).run m).2.engine =
        ((rule.prepareOutbound packet answers).run m.engine).2 := by
  have hfirst : (rule.beginMetered packet m).1.1 = (rule.beginPrepare packet m.engine).1 ∧
      (rule.beginMetered packet m).2.engine = (rule.beginPrepare packet m.engine).2 := ⟨rfl,rfl⟩
  simp only [prepareOutboundMetered,prepareOutbound,Prog.bind_eq,Prog.run_bind,Prog.run_locked]
  rw [← hfirst.1,← hfirst.2]
  cases hbegin : rule.beginMetered packet m with
  | mk result after =>
    obtain ⟨stage,admitted⟩ := result
    cases stage with
    | decided prepared => exact ⟨rfl,rfl⟩
    | query cached =>
      have hask := askMetered_run packet.key admitted cached after
      simp only [Prog.run_bind,Prog.metered_run,hask,and_self]

/-- The meter changes nothing in what a call does. -/
theorem prepareMetered_run (packet : PacketTuple) (answers : RedirectAnswers) (m : Metered) :
    ((rule.prepareMetered packet answers).run m).1 = ((rule.prepare packet answers).run m.engine).1 ∧
      ((rule.prepareMetered packet answers).run m).2.engine = ((rule.prepare packet answers).run m.engine).2 := by
  rw [prepareMetered,prepare]
  by_cases hother : packet.ipv4Version ≠ 4 ∨ packet.protocol ≠ .tcp
  · rw [if_pos hother,if_pos hother]
    exact ⟨rfl,rfl⟩
  · rw [if_neg hother,if_neg hother]
    cases packet.direction with
    | inbound =>
      dsimp only
      rw [Prog.metered_run]
      exact ⟨rfl,rfl⟩
    | other name => exact ⟨rfl,rfl⟩
    | outbound =>
      dsimp only
      by_cases htarget : packet.targetIpv4 ≠ rule.originalIpv4
      · rw [if_pos htarget,if_pos htarget]
        exact ⟨rfl,rfl⟩
      · rw [if_neg htarget,if_neg htarget]
        cases packet.fragmented with
        | true => exact ⟨rfl,rfl⟩
        | false => exact prepareOutboundMetered_run packet answers m

/-- No resolution in the cache is `None`. -/
def Definite (s : ProcessRedirectEngine) : Prop := ∀ k item, s.synQueryCache.get? k = some item → item.2 ≠ .nothing

/-- A change that leaves the budget, and puts no `None` into the cache. -/
structure Saves (s s' : ProcessRedirectEngine) : Prop where
  tokens : s'.queryTokens = s.queryTokens
  refillAt : s'.queryRefillAt = s.queryRefillAt
  definite : Definite s → Definite s'
  now : s.now ≤ s'.now

theorem Saves.refl (s : ProcessRedirectEngine) : Saves s s := ⟨rfl,rfl,id,le_rfl⟩

theorem Saves.trans {a b c : ProcessRedirectEngine} (h : Saves a b) (h' : Saves b c) : Saves a c where
  tokens := h'.tokens.trans h.tokens
  refillAt := h'.refillAt.trans h.refillAt
  definite hs := h'.definite (h.definite hs)
  now := h.now.trans h'.now

theorem saves_of_lessens (h : Lessens s s') (htokens : s'.queryTokens = s.queryTokens)
    (hrefill : s'.queryRefillAt = s.queryRefillAt) : Saves s s' :=
  ⟨htokens,hrefill,fun hs k item hk => hs k item (h.synQueryCache k item hk),h.now⟩

/-- Steps that do not touch the cache. -/
theorem saves_of_eq (htokens : s'.queryTokens = s.queryTokens) (hrefill : s'.queryRefillAt = s.queryRefillAt)
    (hcache : s'.synQueryCache = s.synQueryCache) (hnow : s.now ≤ s'.now) : Saves s s' := by
  refine ⟨htokens,hrefill,fun hs k item hk => hs k item ?_,hnow⟩
  rwa [← hcache]

theorem saves_foldl {α : Type} {f : ProcessRedirectEngine → α → ProcessRedirectEngine} (hf : ∀ s a, Saves s (f s a))
    (l : List α) (s : ProcessRedirectEngine) : Saves s (l.foldl f s) := by
  induction l generalizing s with
  | nil => exact .refl s
  | cons a l ih => exact (hf s a).trans (ih (f s a))

theorem saves_retire (m : RedirectMapping) (seconds : ℚ) (reason : String) (s : ProcessRedirectEngine) :
    Saves s (rule.retire m seconds reason s) :=
  saves_of_lessens (lessens_retire m seconds reason s) rfl rfl

theorem saves_timeOut (now : ℚ) (s : ProcessRedirectEngine) (e : ℕ × RedirectTransaction) :
    Saves s (rule.timeOut now s e) := by
  have hless : Lessens s (rule.timeOut now s e) := lessens_timeOut now s e
  refine saves_of_lessens hless ?_ ?_ <;> rw [timeOut] <;> split <;> try rfl
  · split <;> rfl
  · split <;> rfl

theorem saves_expire (now : ℚ) (s : ProcessRedirectEngine) (m : RedirectMapping) : Saves s (rule.expire now s m) := by
  rw [expire]
  split
  · exact .refl s
  · exact saves_retire m 240 _ s

theorem saves_purge (now : ℚ) (s : ProcessRedirectEngine) : Saves s (purge now s) :=
  saves_of_lessens (lessens_purge now s) rfl rfl

theorem saves_ticked (s : ProcessRedirectEngine) : Saves s s.ticked :=
  saves_of_lessens (lessens_ticked s) rfl rfl

theorem saves_cleanup (now : ℚ) (s : ProcessRedirectEngine) : Saves s (rule.cleanup now s) :=
  ((saves_purge now s).trans (saves_foldl (saves_timeOut now) _ _)).trans (saves_foldl (saves_expire now) _ _)

def bucket (s : ProcessRedirectEngine) : TokenBucket.Bucket ℚ := ⟨s.queryTokens,s.queryRefillAt⟩

theorem Saves.bucket (h : Saves s s') : ProcessRedirectRule.bucket s' = ProcessRedirectRule.bucket s := by
  rw [ProcessRedirectRule.bucket,h.tokens,h.refillAt]
  rfl

/-- `_consume_query_budget_locked` takes from the bucket of 16 tokens that gains 32 in a second. -/
theorem consumeQueryBudget_take (now : ℚ) (s : ProcessRedirectEngine) :
    (consumeQueryBudget now s).1 = ((bucket s).take 16 32 now).1 ∧
      bucket (consumeQueryBudget now s).2 = ((bucket s).take 16 32 now).2 := by
  rw [consumeQueryBudget,TokenBucket.Bucket.take]
  show _ ∧ _
  by_cases htokens : (bucket s).refilled 16 32 now < 1
  · rw [if_pos htokens]
    simp only [TokenBucket.Bucket.refilled,bucket] at htokens
    simp [TokenBucket.Bucket.refilled,bucket,htokens]
  · rw [if_neg htokens]
    simp only [TokenBucket.Bucket.refilled,bucket] at htokens
    simp [TokenBucket.Bucket.refilled,bucket,htokens]

/-- The SYN took a token, or was refused one: its flow is not in the cache. -/
structure Asks (key : RedirectKey) (s : ProcessRedirectEngine) (r : Stage × ProcessRedirectEngine) : Prop where
  missing : s.synQueryCache.get? key = none
  bucket : bucket r.2 = ((bucket s).take 16 32 s.now).2
  granted : ((ProcessRedirectRule.bucket s).take 16 32 s.now).1 = true → r.1 = .query .nothing
  refused : ((ProcessRedirectRule.bucket s).take 16 32 s.now).1 = false → ∃ prepared, r.1 = .decided prepared
  definite : Definite s → Definite r.2
  now : s.now ≤ r.2.now

/-- The budget is not touched, and a query goes on with what the cache has. -/
structure KeepsBudget (key : RedirectKey) (s : ProcessRedirectEngine) (r : Stage × ProcessRedirectEngine) : Prop where
  saves : Saves s r.2
  cached : ∀ cached, r.1 = .query cached → ∃ item, s.synQueryCache.get? key = some item ∧ item.2 = cached

theorem keepsBudget_decided {key : RedirectKey} {prepared : PreparedRedirect} (h : Saves s s') :
    KeepsBudget key s (.decided prepared,s') :=
  ⟨h,fun _ hquery => (nomatch hquery)⟩

theorem beginSyn_budget (key : RedirectKey) (s : ProcessRedirectEngine) :
    KeepsBudget key s (rule.beginSyn key s) ∨ Asks key s (rule.beginSyn key s) := by
  rw [beginSyn]
  split
  · exact .inl (keepsBudget_decided (.refl s))
  · split
    · exact .inl (keepsBudget_decided (.refl s))
    · split
      · exact .inl (keepsBudget_decided (.refl s))
      · cases hcache : s.synQueryCache.get? key with
        | some item =>
          refine .inl ⟨saves_of_eq rfl rfl rfl le_rfl,fun cached hquery => ⟨item,hcache,?_⟩⟩
          cases hquery
          rfl
        | none =>
          dsimp only
          split
          · exact .inl (keepsBudget_decided (.refl s))
          · right
            obtain ⟨hgranted,hbucket⟩ := consumeQueryBudget_take s.now s.ticked
            have hquiet := consumeQueryBudget_quiet s
            have hcache' := hquiet.synQueryCache
            have hnow := hquiet.now
            have hsame : bucket s.ticked = bucket s := rfl
            rw [hsame] at hgranted hbucket
            cases hconsume : consumeQueryBudget s.now s.ticked with
            | mk granted after =>
              rw [hconsume] at hgranted hbucket hcache' hnow
              have hdefinite : Definite s → Definite after := fun hs k item hk => hs k item (hcache' ▸ hk)
              cases granted with
              | true => exact ⟨hcache,hbucket,fun _ => rfl,fun hno => absurd (hgranted.trans hno) (by simp),hdefinite,hnow⟩
              | false => exact ⟨hcache,hbucket,fun hyes => absurd (hgranted.trans hyes) (by simp),fun _ => ⟨_,rfl⟩,hdefinite,hnow⟩

theorem beginUnmapped_budget (packet : PacketTuple) (now : ℚ) (s : ProcessRedirectEngine) :
    KeepsBudget packet.key s (beginUnmapped packet now s) := by
  rw [beginUnmapped]
  split
  · exact keepsBudget_decided (.refl s)
  · split
    · exact keepsBudget_decided (saves_of_eq rfl rfl rfl le_rfl)
    · exact keepsBudget_decided (.refl s)

theorem beginPrepare_budget (packet : PacketTuple) (s : ProcessRedirectEngine) :
    KeepsBudget packet.key (rule.cleanup s.now s.ticked) (rule.beginPrepare packet s) ∨
      Asks packet.key (rule.cleanup s.now s.ticked) (rule.beginPrepare packet s) := by
  rw [beginPrepare]
  dsimp only
  split
  · exact .inl (keepsBudget_decided (.refl _))
  · split
    · exact .inl (keepsBudget_decided (.refl _))
    · split
      · split
        · exact .inl (keepsBudget_decided (.refl _))
        · exact .inl (keepsBudget_decided (saves_of_eq rfl rfl rfl (now_le_ticked _)))
      · split
        · exact beginSyn_budget _ _
        · exact .inl (beginUnmapped_budget packet s.now _)

theorem saves_markFin (m : RedirectMapping) (packet : PacketTuple) (s : ProcessRedirectEngine) :
    Saves s (markFin m packet s) := by
  have hless := lessens_markFin m packet s
  refine saves_of_lessens hless ?_ ?_ <;> rw [markFin] <;> split <;> rfl

theorem saves_observeTcp (m : RedirectMapping) (packet : PacketTuple) (s : ProcessRedirectEngine) :
    Saves s (rule.observeTcp m packet s) := by
  rw [observeTcp]
  split
  · exact saves_retire m 240 _ s
  · split
    · dsimp only
      split
      · exact (saves_markFin m packet s).trans (saves_retire m 240 _ _)
      · exact saves_markFin m packet s
    · exact .refl s

theorem saves_confirm (t : RedirectTransaction) (s : ProcessRedirectEngine) : Saves s (rule.confirm t s) := by
  have htouch : Saves s (touch t.mapping s) := saves_of_eq rfl rfl rfl (now_le_ticked s)
  have hinstall : Saves s (touch t.mapping (rule.install t.mapping s)) := saves_of_eq rfl rfl rfl (now_le_ticked s)
  rw [confirm]
  split
  · exact hinstall.trans (saves_observeTcp _ _ _)
  · exact htouch.trans (saves_observeTcp _ _ _)

theorem saves_commitLocked (token : ℕ) (outcome : Bool) (s : ProcessRedirectEngine) :
    Saves s (rule.commitLocked token outcome s).2 := by
  rw [commitLocked]
  split
  · exact .refl s
  · have hpop : Saves s ((popTransaction token s).record (.committed token outcome)) := saves_of_eq rfl rfl rfl le_rfl
    cases outcome with
    | true => exact hpop.trans (saves_confirm _ _)
    | false => exact hpop.trans (saves_retire _ 3 _ _)

theorem saves_abortLocked (token : ℕ) (s : ProcessRedirectEngine) : Saves s (rule.abortLocked token s).2 := by
  rw [abortLocked]
  split
  · exact .refl s
  · have hpop : Saves s (popTransaction token s) := saves_of_eq rfl rfl rfl le_rfl
    exact hpop.trans (saves_retire _ 3 _ _)

theorem saves_closeLocked (s : ProcessRedirectEngine) : Saves s (closeLocked s) :=
  ⟨rfl,rfl,fun _ _ _ hk => (nomatch hk),le_rfl⟩

theorem saves_suspendLocked (reason : String) (s : ProcessRedirectEngine) :
    Saves s (rule.suspendLocked reason s).2 := by
  rw [suspendLocked]
  split
  · exact .refl s
  · have hmark : Saves s { s with suspended := true, suspendReason := s.suspendReason.or (some reason) } :=
      saves_of_eq rfl rfl rfl le_rfl
    have hone : ∀ s m, Saves s (rule.retire m 240 "suspended" s) := fun s m => saves_retire m 240 "suspended" s
    have hretire := saves_foldl hone s.forward.values
      { s with suspended := true, suspendReason := s.suspendReason.or (some reason) }
    exact (hmark.trans hretire).trans (saves_of_eq rfl rfl rfl le_rfl)

theorem saves_resumeLocked (s : ProcessRedirectEngine) : Saves s (resumeLocked s).2 := by
  rw [resumeLocked]
  split
  · exact .refl s
  · exact saves_of_eq rfl rfl rfl le_rfl

theorem saves_inboundLocked (packet : PacketTuple) (s : ProcessRedirectEngine) :
    Saves s (rule.inboundLocked packet s).2 := by
  have hcleanup : Saves s (rule.cleanup s.now s.ticked) := (saves_ticked s).trans (saves_cleanup s.now s.ticked)
  rw [inboundLocked]
  split
  · exact hcleanup
  · split
    · exact hcleanup
    · split
      · exact hcleanup
      · split
        · exact hcleanup
        · exact hcleanup.trans (saves_of_eq rfl rfl rfl (now_le_ticked _))

theorem saves_createMapping (packet : PacketTuple) (owner : ProcessOwnerIdentity) (answers : RedirectAnswers)
    (s : ProcessRedirectEngine) : Saves s (rule.createMapping packet owner answers s).2 := by
  rw [createMapping]
  split
  · exact .refl s
  · split
    · exact .refl s
    · split
      · exact .refl s
      · split
        · exact .refl s
        · dsimp only
          split
          · exact saves_of_eq rfl rfl rfl (now_le_ticked s)
          · exact saves_of_eq rfl rfl rfl ((now_le_ticked s).trans (now_le_ticked s.ticked))

theorem saves_cacheResolution (key : RedirectKey) (r : OwnerResolution) (s : ProcessRedirectEngine) :
    Saves s (cacheResolution key (.resolution r) s) where
  tokens := rfl
  refillAt := rfl
  definite := by
    intro hs k item hk
    obtain ⟨-,rfl⟩ | ⟨-,hold⟩ := (Dict.get?_set_eq_some _ _ _ _ _).mp hk
    · intro hnone
      cases hnone
    · exact hs k item hold
  now := now_le_ticked s

/-- Every section saves. -/
abbrev Thrifty {α : Type} (p : Prog ProcessRedirectEngine α) : Prop := p.Each fun f => ∀ s, Saves s (f s)

theorem thrifty_locked {α : Type} {m : ProcessRedirectEngine → α × ProcessRedirectEngine}
    (h : ∀ s, Saves s (m s).2) : Thrifty (.locked m) :=
  Prog.each_locked h

theorem prepareTarget_thrifty (packet : PacketTuple) (answers : RedirectAnswers) (owner : ProcessOwnerIdentity) :
    Thrifty (rule.prepareTarget packet answers owner) := by
  refine Prog.Each.bind (thrifty_locked fun s => saves_of_eq rfl rfl rfl le_rfl) fun _ => ?_
  split
  · exact (thrifty_locked (saves_suspendLocked _)).bind fun _ => trivial
  · split
    · exact (thrifty_locked (saves_suspendLocked _)).bind fun _ => trivial
    · split
      · trivial
      · trivial
      · exact thrifty_locked (saves_createMapping packet owner answers)

/-- What is cached in a `prepare` with the resolver of the program is a resolution. -/
theorem resolveOwner_thrifty (key : RedirectKey) {answers : RedirectAnswers} {r : OwnerResolution}
    (howner : answers.owner = .returned (.resolution r)) (cached : OwnerReply) :
    Thrifty (resolveOwner key answers cached) := by
  cases cached with
  | nothing =>
    rw [resolveOwner,howner]
    exact (thrifty_locked (saves_cacheResolution key r)).bind fun _ => trivial
  | invalid => trivial
  | resolution r => trivial

theorem prepareQueried_thrifty (packet : PacketTuple) {answers : RedirectAnswers} {r : OwnerResolution}
    (howner : answers.owner = .returned (.resolution r)) (cached : OwnerReply) :
    Thrifty (rule.prepareQueried packet answers cached) := by
  refine Prog.Each.bind (resolveOwner_thrifty packet.key howner cached) fun reply => ?_
  cases reply with
  | none => trivial
  | some reply =>
    cases reply with
    | nothing => trivial
    | invalid => trivial
    | resolution r =>
      show Thrifty (if _ then _ else _)
      split
      · trivial
      · split
        · exact thrifty_locked fun s => saves_of_eq rfl rfl rfl (now_le_ticked s)
        · exact prepareTarget_thrifty packet answers _

theorem prepareInbound_thrifty (packet : PacketTuple) : Thrifty (rule.prepareInbound packet) := by
  rw [prepareInbound]
  split
  · trivial
  · split
    · trivial
    · exact thrifty_locked (saves_inboundLocked packet)

end ProcessRedirectRule

open ProcessRedirectRule

/-- What the meter shows: the bucket gave a token at each admission, and every question had one. -/
structure Metered.Frugal (m : Metered) : Prop where
  spent : TokenBucket.Spent 16 32 (bucket m.engine) m.admissions
  past : m.engine.queryRefillAt ≤ m.engine.now
  definite : Definite m.engine
  admitted : ∀ query ∈ m.queries, ∃ time, query.2 = some time

structure Metered.Budgeted (m : Metered) : Prop where
  bounded : ∀ first length, 0 ≤ length →
    (m.admissions.countP (fun time => decide (first ≤ time ∧ time ≤ first+length)) : ℚ) ≤ 16+32*length
  admitted : ∀ query ∈ m.queries, ∃ time, query.2 = some time

variable {rule : ProcessRedirectRule}

theorem Metered.Frugal.budgeted {m : Metered} (h : m.Frugal) : m.Budgeted where
  bounded := by
    intro first length hlength
    have hwithin := h.spent.within first (first+length) (by linarith)
    rw [add_sub_cancel_left] at hwithin
    exact hwithin
  admitted := h.admitted

theorem Metered.init_frugal (clock : Clock) : (Metered.init clock).Frugal where
  spent := TokenBucket.full_spent (by norm_num) (by norm_num)
  past := (clock.now_le_next).trans clock.next.now_le_next
  definite := fun _ _ hk => (nomatch hk)
  admitted := fun _ hquery => (nomatch hquery)

theorem Metered.Frugal.saves {m : Metered} {s' : ProcessRedirectEngine} (h : m.Frugal) (hs : Saves m.engine s') :
    { m with engine := s' }.Frugal where
  spent := by
    rw [hs.bucket]
    exact h.spent
  past := by
    rw [hs.refillAt]
    exact h.past.trans hs.now
  definite := hs.definite h.definite
  admitted := h.admitted

theorem Metered.Frugal.thrifty {α : Type} {p : Prog ProcessRedirectEngine α} (hp : Thrifty p) :
    p.metered.Ensures Metered.Frugal fun _ => True := by
  induction p with
  | done a => trivial
  | step f k ih => exact fun m hm => ⟨hm.saves (hp.1 m.engine),ih m.engine (hp.2 m.engine)⟩

theorem admission_keepsBudget {packet : PacketTuple} {s : ProcessRedirectEngine}
    (h : KeepsBudget packet.key (rule.cleanup s.now s.ticked) (rule.beginPrepare packet s)) : rule.admission packet s = none := by
  rw [admission]
  cases hstage : (rule.beginPrepare packet s).1 with
  | decided prepared => rfl
  | query cached =>
    obtain ⟨item,hitem,-⟩ := h.cached cached hstage
    simp only [hitem]

theorem admission_asks {packet : PacketTuple} {s : ProcessRedirectEngine}
    (h : Asks packet.key (rule.cleanup s.now s.ticked) (rule.beginPrepare packet s)) :
    rule.admission packet s = if ((bucket (rule.cleanup s.now s.ticked)).take 16 32 (rule.cleanup s.now s.ticked).now).1
      then some (rule.cleanup s.now s.ticked).now else none := by
  rw [admission]
  cases htaken : ((bucket (rule.cleanup s.now s.ticked)).take 16 32 (rule.cleanup s.now s.ticked).now).1 with
  | true => simp only [h.granted htaken,h.missing,if_true]
  | false =>
    obtain ⟨prepared,hstage⟩ := h.refused htaken
    simp [hstage]

/-- The first section takes a token with the question that it leaves, or leaves none. -/
theorem beginMetered_frugal (packet : PacketTuple) {m : Metered} (h : m.Frugal) :
    (rule.beginMetered packet m).2.Frugal ∧
      ((rule.beginMetered packet m).1.1 = .query .nothing → ∃ time, (rule.beginMetered packet m).1.2 = some time) := by
  have hcleaned : { m with engine := rule.cleanup m.engine.now m.engine.ticked }.Frugal :=
    h.saves ((saves_ticked m.engine).trans (saves_cleanup _ _))
  have hstage : (rule.beginMetered packet m).1.1 = (rule.beginPrepare packet m.engine).1 := rfl
  have hadmitted : (rule.beginMetered packet m).1.2 = rule.admission packet m.engine := rfl
  have hafter : (rule.beginMetered packet m).2 = { m with
    engine := (rule.beginPrepare packet m.engine).2
    admissions := m.admissions++(rule.admission packet m.engine).toList } := rfl
  rw [hstage,hadmitted,hafter]
  have hbudget : KeepsBudget packet.key (rule.cleanup m.engine.now m.engine.ticked) (rule.beginPrepare packet m.engine) ∨
      Asks packet.key (rule.cleanup m.engine.now m.engine.ticked) (rule.beginPrepare packet m.engine) :=
    beginPrepare_budget packet m.engine
  obtain hkeeps | hasks := hbudget
  · have hnone := admission_keepsBudget hkeeps
    constructor
    · have hfrugal := hcleaned.saves hkeeps.saves
      rw [hnone]
      simpa using hfrugal
    · intro hquery
      obtain ⟨item,hitem,hnothing⟩ := hkeeps.cached .nothing hquery
      exact absurd hnothing (hcleaned.definite packet.key item hitem)
  · have hsome := admission_asks hasks
    constructor
    · have hspent := hcleaned.spent.take (by norm_num) hcleaned.past
      refine ⟨?_,?_,hasks.definite hcleaned.definite,h.admitted⟩
      · show TokenBucket.Spent 16 32 (bucket (rule.beginPrepare packet m.engine).2) _
        rw [hasks.bucket,hsome]
        convert hspent using 2
        split <;> rfl
      · have hrefill : (rule.beginPrepare packet m.engine).2.queryRefillAt = (rule.cleanup m.engine.now m.engine.ticked).now :=
          (congrArg TokenBucket.Bucket.refillAt hasks.bucket).trans (TokenBucket.take_refillAt ..)
        show (rule.beginPrepare packet m.engine).2.queryRefillAt ≤ _
        rw [hrefill]
        exact hasks.now
    · intro hquery
      rw [hsome]
      split
      · exact ⟨_,rfl⟩
      · next hrefused =>
        obtain ⟨prepared,hdecided⟩ := hasks.refused (by simpa using hrefused)
        rw [hdecided] at hquery
        cases hquery

theorem askMetered_frugal {key : RedirectKey} {admitted : Option ℚ} {cached : OwnerReply}
    (h : cached = .nothing → ∃ time, admitted = some time) :
    (askMetered key admitted cached).Ensures Metered.Frugal fun _ => True := by
  cases cached with
  | nothing =>
    refine Prog.ensures_locked fun m hm => ⟨⟨hm.spent,hm.past,hm.definite,?_⟩,trivial⟩
    intro query hquery
    obtain hbefore | hthis := List.mem_append.mp hquery
    · exact hm.admitted query hbefore
    · rw [List.mem_singleton.mp hthis]
      exact h rfl
  | invalid => trivial
  | resolution r => trivial

theorem prepareOutboundMetered_frugal (packet : PacketTuple) {answers : RedirectAnswers} {r : OwnerResolution}
    (howner : answers.owner = .returned (.resolution r)) :
    (rule.prepareOutboundMetered packet answers).Ensures Metered.Frugal fun _ => True := by
  have hfirst : (Prog.locked (rule.beginMetered packet)).Ensures Metered.Frugal
      fun begun => begun.1 = .query .nothing → ∃ time, begun.2 = some time :=
    Prog.ensures_locked fun m hm => beginMetered_frugal packet hm
  refine hfirst.bind fun begun hbegun => ?_
  obtain ⟨stage,admitted⟩ := begun
  cases stage with
  | decided prepared => trivial
  | query cached =>
    have hask : (askMetered packet.key admitted cached).Ensures Metered.Frugal fun _ => True :=
      askMetered_frugal fun hnothing => hbegun (by rw [hnothing])
    refine hask.bind fun _ _ => (Metered.Frugal.thrifty (prepareQueried_thrifty packet howner cached)).bind fun prepared _ => ?_
    exact Metered.Frugal.thrifty (thrifty_locked fun s => saves_of_eq rfl rfl rfl le_rfl)

/-- The calls of the program: its resolver answers in every `prepare`. -/
def RedirectCall.Strict : RedirectCall → Prop
  | .prepare packet answers => ∃ api route identityValid, answers = .strict api packet route identityValid
  | _ => True

theorem RedirectCall.bodyMetered_frugal {call : RedirectCall} (h : call.Strict) :
    (call.bodyMetered rule).Ensures Metered.Frugal fun _ => True := by
  cases call with
  | prepare packet answers =>
    obtain ⟨api,route,identityValid,rfl⟩ := h
    refine Prog.Ensures.bind (Q:=fun _ => True) ?_ fun _ _ => trivial
    rw [prepareMetered]
    split
    · trivial
    · split
      · exact Metered.Frugal.thrifty (prepareInbound_thrifty packet)
      · trivial
      · split
        · trivial
        · split
          · trivial
          · exact prepareOutboundMetered_frugal packet rfl
  | commit token outcome => exact Metered.Frugal.thrifty (thrifty_locked (saves_commitLocked token outcome))
  | abort token => exact Metered.Frugal.thrifty (thrifty_locked (saves_abortLocked token))
  | close => exact Metered.Frugal.thrifty (thrifty_locked saves_closeLocked)
  | suspend reason =>
    exact Metered.Frugal.thrifty ((thrifty_locked (saves_suspendLocked reason)).bind fun _ => trivial)
  | resume routeValid fileValid =>
    refine Metered.Frugal.thrifty (Prog.Each.bind ?_ fun _ => trivial)
    unfold ProcessRedirectRule.resume
    split
    · exact thrifty_locked saves_resumeLocked
    · trivial

/-- In every interleaving of the operations at most 16 and 32 a second owner queries are admitted in a window,
and the resolver is asked only after an admission. -/
theorem query_budget (rule : ProcessRedirectRule) (clock : Clock) (P : Pool Metered RedirectCall RedirectReply)
    (h : Pool.Steps (RedirectCall.bodyMetered rule) (fun _ call => call.Strict) (Pool.start (Metered.init clock)) P) :
    P.shared.Budgeted := by
  have hfrugal := (Pool.ensures_steps (Q:=fun _ _ => True) (fun _ call hcall => RedirectCall.bodyMetered_frugal hcall) h
    (Metered.init_frugal clock) fun t c p ht => (nomatch ht)).1
  exact hfrugal.budgeted

/-- The flow of the sample packet belongs to the process 1234. -/
def OwnerApi.sample : OwnerApi where
  tcpOwnerRows := .returned [⟨.dotted 10 0 0 5,50000,.dotted 203 0 113 9,80,5,1234⟩]
  processIdentity := fun pid => .returned (some ⟨pid,1,"c:/A.exe",7,42⟩)

def RedirectCall.sampleSyn : RedirectCall :=
  .prepare (.toOriginal thSyn) (.strict .sample (.toOriginal thSyn) (.returned ⟨true,none⟩) (.returned true))

theorem query_budget_sampleSyn :
    ((RedirectCall.bodyMetered .sample .sampleSyn).run (Metered.init (Clock.every 1))).2.Budgeted ∧
      ((RedirectCall.bodyMetered .sample .sampleSyn).run (Metered.init (Clock.every 1))).2.admissions = [3] :=
  ⟨query_budget .sample (Clock.every 1)
    ((Pool.start (Metered.init (Clock.every 1))).move
      ((RedirectCall.bodyMetered .sample .sampleSyn).run (Metered.init (Clock.every 1))).2 0 none)
    ((Relation.ReflTransGen.single (.call 0 RedirectCall.sampleSyn rfl ⟨.sample,_,_,rfl⟩)).trans (Pool.steps_run _ 0 _ _ _)),
    by decide +kernel⟩

end FakeNetNG
