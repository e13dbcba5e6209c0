import FakeNetNG.PastTime
import FakeNetNG.DnsTables

/-!
# DNS authority and its history

The lease and alias tables are cleaned up lazily, replaced domain by domain and emptied
when the policy shuts. Here they are compared with the history of the calls: what is
still in force at the present time is in the tables exactly when the history grants it.
-/

namespace FakeNetNG

/-- A call with the first clock reading open to it and what it returned or raised. -/
structure PolicyEvent where
  time : ℚ
  call : PolicyCall
  reply : EgressPolicy.Reply

namespace PolicyEvent

variable (cfg : PolicyConfig)

/-- `replace_leases` of the domain `d` that took effect. -/
def Replaces (e : PolicyEvent) (d : String) (records : List (Addr × ℤ)) : Prop :=
  ∃ domain, e.call = .replaceLeases domain records ∧
    Hostname.normalizeHostname cfg.idna domain = .ok d ∧ ∃ ips, e.reply = .addresses ips

/-- `register_alias` of `q` for `root` that took effect. -/
def Registers (e : PolicyEvent) (q root : String) (ttl : ℤ) : Prop :=
  ∃ domain aliasName, e.call = .registerAlias domain aliasName ttl ∧
    Hostname.normalizeHostname cfg.idna aliasName = .ok q ∧
    Hostname.normalizeHostname cfg.idna domain = .ok root ∧ e.reply = .bool true

def Shuts (e : PolicyEvent) : Prop :=
  e.call = .close ∨ e.call = .suspend ∨
    ∃ addresses, e.call = .updateLocalIpv4 addresses ∧ e.reply = .bool false

/-- `ip` is listed as a global address with a positive lifetime, the smallest of which,
counted from the call, ends at `expires`. -/
def Lists (e : PolicyEvent) (d : String) (ip : Addr) (expires : ℚ) : Prop :=
  ∃ records ttl, e.Replaces cfg d records ∧ ip.isGlobalIpv4 = true ∧
    IsLeast (lifetimes records ip) ttl ∧ expires = e.time+ttl

def Aliases (e : PolicyEvent) (q root : String) (expires : ℚ) : Prop :=
  ∃ ttl, e.Registers cfg q root ttl ∧ expires = e.time+ttl

/-- The most recent `replace_leases` of `d` lists `ip` until `expires`. -/
def Leased (d : String) (ip : Addr) (expires : ℚ) : List PolicyEvent → Prop :=
  Since (fun e => ∀ records, ¬e.Replaces cfg d records) fun e => e.Lists cfg d ip expires

/-- The most recent `register_alias` of `q` is for `root`, until `expires`, and neither
new leases of `root` nor the end of the policy came after it. -/
def Aliased (q root : String) (expires : ℚ) : List PolicyEvent → Prop :=
  Since (fun e => (∀ root' ttl, ¬e.Registers cfg q root' ttl) ∧
    (∀ records, ¬e.Replaces cfg root records) ∧ ¬e.Shuts) fun e => e.Aliases cfg q root expires

variable {cfg}

theorem Replaces.unique {e : PolicyEvent} {d : String} {records records' : List (Addr × ℤ)}
    (h : e.Replaces cfg d records) (h' : e.Replaces cfg d records') : records = records' := by
  obtain ⟨domain,hc,-⟩ := h
  obtain ⟨domain',hc',-⟩ := h'
  rw [hc] at hc'
  cases hc'
  rfl

end PolicyEvent

def EgressPolicy.record (h : List PolicyEvent × EgressPolicy) (c : PolicyCall) :
    List PolicyEvent × EgressPolicy :=
  (⟨h.2.now,c,(c.body.run h.2).1⟩::h.1,(c.body.run h.2).2)

/-- The history of a sequence of calls, the newest first, and the state they lead to. -/
def EgressPolicy.history (s : EgressPolicy) (calls : List PolicyCall) :
    List PolicyEvent × EgressPolicy :=
  calls.foldl record ([],s)

namespace EgressPolicy

theorem history_snd (s : EgressPolicy) (calls : List PolicyCall) :
    (s.history calls).2 = Prog.runAll PolicyCall.body s calls := by
  induction calls using List.reverseRecOn with
  | nil => rfl
  | append_singleton calls c ih =>
    rw [Prog.runAll_append,← ih,history,List.foldl_append]
    rfl

/-- The tables hold what the history grants, up to what has expired. -/
structure Tracks (log : List PolicyEvent) (s : EgressPolicy) : Prop where
  shut : s.closed = true ∨ s.egressSuspended = true ↔ ∃ e ∈ log, e.Shuts
  noLease : s.closed = true ∨ s.egressSuspended = true → ∀ d ip, s.leaseAt d ip = none
  noAlias : s.closed = true ∨ s.egressSuspended = true → ∀ q, s.aliases.get? q = none
  leased : ∀ d ip lease, s.leaseAt d ip = some lease →
    lease.domain = d ∧ PolicyEvent.Leased s.cfg d ip lease.expiresAt log
  leaseKept : s.closed = false → s.egressSuspended = false → ∀ d ip expires,
    PolicyEvent.Leased s.cfg d ip expires log → s.now < expires →
      ∃ lease, s.leaseAt d ip = some lease ∧ lease.expiresAt = expires
  aliased : ∀ q root expires, s.aliases.get? q = some (root,expires) →
    PolicyEvent.Aliased s.cfg q root expires log
  aliasKept : ∀ q root expires, PolicyEvent.Aliased s.cfg q root expires log → s.now < expires →
    s.aliases.get? q = some (root,expires)
  rooted : ∀ q root expires, s.aliases.get? q = some (root,expires) →
    (s.cfg.matchAllowedDomain root).isSome = true

namespace Tracks

variable {log : List PolicyEvent} {s s' : EgressPolicy} {e : PolicyEvent}

theorem init (cfg : PolicyConfig) (localIpv4 : List Addr) (clock : Clock) :
    Tracks [] (EgressPolicy.init cfg localIpv4 clock) where
  shut := by simp [EgressPolicy.init]
  noLease h := by simp [EgressPolicy.init] at h
  noAlias _ _ := rfl
  leased d ip lease h := by
    obtain ⟨table,ht,hl⟩ := Option.bind_eq_some_iff.mp h
    rw [emptyLeases_get? _ _ _ ht] at hl
    cases hl
  leaseKept _ _ d ip expires h := absurd h not_since_nil
  aliased q root expires h := by cases h
  aliasKept q root expires h := absurd h not_since_nil
  rooted q root expires h := by cases h

theorem retain (h : Tracks log s) (hr : Retains s s')
    (hreplace : ∀ d records, ¬e.Replaces s.cfg d records)
    (hregister : ∀ q root ttl, ¬e.Registers s.cfg q root ttl) (hshut : ¬e.Shuts) :
    Tracks (e::log) s' := by
  have hlists : ∀ d ip expires, ¬e.Lists s.cfg d ip expires :=
    fun d ip expires ⟨records,_,hr,_⟩ => hreplace d records hr
  have haliases : ∀ q root expires, ¬e.Aliases s.cfg q root expires :=
    fun q root expires ⟨ttl,hr,_⟩ => hregister q root ttl hr
  have hleased : ∀ d ip expires, PolicyEvent.Leased s.cfg d ip expires (e::log) ↔
      PolicyEvent.Leased s.cfg d ip expires log :=
    fun d ip expires => since_cons_of_keeps (hreplace d) (hlists d ip expires)
  have haliased : ∀ q root expires, PolicyEvent.Aliased s.cfg q root expires (e::log) ↔
      PolicyEvent.Aliased s.cfg q root expires log :=
    fun q root expires =>
      since_cons_of_keeps ⟨hregister q,hreplace root,hshut⟩ (haliases q root expires)
  refine ⟨?_,?_,?_,?_,?_,?_,?_,?_⟩
  · rw [hr.closed,hr.egressSuspended,h.shut]
    simp [hshut]
  · intro hs d ip
    rw [hr.closed,hr.egressSuspended] at hs
    refine Option.eq_none_iff_forall_ne_some.mpr fun lease hl => ?_
    have hold := hr.leased d ip lease hl
    rw [h.noLease hs d ip] at hold
    cases hold
  · intro hs q
    rw [hr.closed,hr.egressSuspended] at hs
    refine Option.eq_none_iff_forall_ne_some.mpr fun entry ha => ?_
    have hold := hr.aliased q entry ha
    rw [h.noAlias hs q] at hold
    cases hold
  · intro d ip lease hl
    rw [hr.cfg,hleased]
    exact h.leased d ip lease (hr.leased d ip lease hl)
  · intro hc hs d ip expires hl hn
    rw [hr.closed] at hc
    rw [hr.egressSuspended] at hs
    rw [hr.cfg,hleased] at hl
    obtain ⟨lease,hat,rfl⟩ := h.leaseKept hc hs d ip expires hl (hr.now.trans_lt hn)
    exact ⟨lease,hr.leaseKept d ip lease hat hn,rfl⟩
  · intro q root expires ha
    rw [hr.cfg,haliased]
    exact h.aliased q root expires (hr.aliased q _ ha)
  · intro q root expires ha hn
    rw [hr.cfg,haliased] at ha
    exact hr.aliasKept q _ (h.aliasKept q root expires ha (hr.now.trans_lt hn)) hn
  · intro q root expires ha
    rw [hr.cfg]
    exact h.rooted q root expires (hr.aliased q _ ha)

theorem shutting (hcfg : s'.cfg = s.cfg) (hshut : e.Shuts)
    (hs' : s'.closed = true ∨ s'.egressSuspended = true)
    (hleases : ∀ d ip, s'.leaseAt d ip = none) (haliases : ∀ q, s'.aliases.get? q = none)
    (hregister : ∀ q root ttl, ¬e.Registers s.cfg q root ttl) : Tracks (e::log) s' where
  shut := by
    refine iff_of_true hs' ⟨e,by simp,hshut⟩
  noLease _ := hleases
  noAlias _ := haliases
  leased d ip lease hl := by
    rw [hleases d ip] at hl
    cases hl
  leaseKept hc hs := by simp [hc,hs] at hs'
  aliased q root expires ha := by
    rw [haliases q] at ha
    cases ha
  aliasKept q root expires ha := by
    have hm := (since_cons_of_not_keeps (fun hk => hk.2.2 hshut)).mp ha
    obtain ⟨ttl,hr,-⟩ := hm
    rw [hcfg] at hr
    exact absurd hr (hregister q root ttl)
  rooted q root expires ha := by
    rw [haliases q] at ha
    cases ha

theorem register (h : Tracks log s) {q root : String} {ttl : ℤ} (hopen : s.ensureOpen = none)
    (hallowed : (s.cfg.matchAllowedDomain root).isSome = true)
    (he : e.Registers s.cfg q root ttl) (htime : e.time = s.now) :
    Tracks (e::log) { s.ticked with aliases := s.aliases.set q (root,s.now+ttl) } := by
  obtain ⟨hclosed,hsuspended⟩ := ensureOpen_eq_none hopen
  obtain ⟨domain,aliasName,hcall,hq,hroot,hreply⟩ := he
  have hnext : s.now ≤ s.ticked.now := s.clock.now_le_next
  have hreplace : ∀ d records, ¬e.Replaces s.cfg d records := by
    rintro d records ⟨domain',hc,-⟩
    rw [hcall] at hc
    cases hc
  have hshut : ¬e.Shuts := by
    rintro (hc | hc | ⟨addresses,hc,-⟩) <;> rw [hcall] at hc <;> cases hc
  have hregister : ∀ q' root' ttl', e.Registers s.cfg q' root' ttl' →
      q' = q ∧ root' = root ∧ ttl' = ttl := by
    rintro q' root' ttl' ⟨domain',aliasName',hc,hq',hroot',-⟩
    rw [hcall] at hc
    cases hc
    rw [hq] at hq'
    rw [hroot] at hroot'
    cases hq'
    cases hroot'
    exact ⟨rfl,rfl,rfl⟩
  have hleased : ∀ d ip expires, PolicyEvent.Leased s.cfg d ip expires (e::log) ↔
      PolicyEvent.Leased s.cfg d ip expires log := fun d ip expires =>
    since_cons_of_keeps (hreplace d) fun ⟨records,_,hr,_⟩ => hreplace d records hr
  have haliased : ∀ q' root' expires, PolicyEvent.Aliased s.cfg q' root' expires (e::log) ↔
      (q' = q ∧ root' = root ∧ expires = s.now+ttl) ∨
      (q' ≠ q ∧ PolicyEvent.Aliased s.cfg q' root' expires log) := by
    intro q' root' expires
    rw [PolicyEvent.Aliased,since_cons]
    constructor
    · rintro (⟨ttl',hr,rfl⟩ | ⟨hk,hl⟩)
      · obtain ⟨rfl,rfl,rfl⟩ := hregister _ _ _ hr
        exact .inl ⟨rfl,rfl,by rw [htime]⟩
      · refine .inr ⟨?_,hl⟩
        rintro rfl
        exact hk.1 root ttl ⟨domain,aliasName,hcall,hq,hroot,hreply⟩
    · rintro (⟨rfl,rfl,rfl⟩ | ⟨hne,hl⟩)
      · exact .inl ⟨ttl,⟨domain,aliasName,hcall,hq,hroot,hreply⟩,by rw [htime]⟩
      · exact .inr ⟨⟨fun root' ttl' hr => hne (hregister _ _ _ hr).1,hreplace root',hshut⟩,hl⟩
  refine ⟨?_,?_,?_,?_,?_,?_,?_,?_⟩
  · refine h.shut.trans ?_
    simp [hshut]
  · intro hs
    exact h.noLease hs
  · intro hs
    exact absurd hs (by simp [ticked,hclosed,hsuspended])
  · intro d ip lease hl
    exact ⟨(h.leased d ip lease hl).1,(hleased d ip _).mpr (h.leased d ip lease hl).2⟩
  · intro _ _ d ip expires hl hn
    exact h.leaseKept hclosed hsuspended d ip expires ((hleased d ip expires).mp hl)
      (hnext.trans_lt hn)
  · intro q' root' expires ha
    refine (haliased q' root' expires).mpr ?_
    rcases (Dict.get?_set_eq_some _ _ _ _ _).mp ha with ⟨hq',hv⟩ | ⟨hne,hold⟩
    · cases hv
      exact .inl ⟨hq',rfl,rfl⟩
    · exact .inr ⟨hne,h.aliased q' root' expires hold⟩
  · intro q' root' expires ha hn
    refine (Dict.get?_set_eq_some _ _ _ _ _).mpr ?_
    rcases (haliased q' root' expires).mp ha with ⟨rfl,rfl,rfl⟩ | ⟨hne,hl⟩
    · exact .inl ⟨rfl,rfl⟩
    · exact .inr ⟨hne,h.aliasKept q' root' expires hl (hnext.trans_lt hn)⟩
  · intro q' root' expires ha
    rcases (Dict.get?_set_eq_some _ _ _ _ _).mp ha with ⟨-,hv⟩ | ⟨-,hold⟩
    · cases hv
      exact hallowed
    · exact h.rooted q' root' expires hold

theorem replace (h : Tracks log s) {d : String} {records : List (Addr × ℤ)}
    (hopen : s.ensureOpen = none) (he : e.Replaces s.cfg d records) (htime : e.time = s.now) :
    Tracks (e::log) { s.ticked with
      leases := s.leases.set d (replacement d s.now records)
      aliases := s.aliases.filter fun _ entry => entry.1 ≠ d } := by
  obtain ⟨hclosed,hsuspended⟩ := ensureOpen_eq_none hopen
  have hnext : s.now ≤ s.ticked.now := s.clock.now_le_next
  have hother : ∀ d' records', e.Replaces s.cfg d' records' → d' = d := by
    rintro d' records' ⟨domain',hc',hd',-⟩
    obtain ⟨domain,hc,hd,-⟩ := he
    rw [hc] at hc'
    cases hc'
    rw [hd] at hd'
    cases hd'
    rfl
  obtain ⟨domain,hcall,-⟩ := id he
  have hregister : ∀ q root ttl, ¬e.Registers s.cfg q root ttl := by
    rintro q root ttl ⟨domain',aliasName,hc,-⟩
    rw [hcall] at hc
    cases hc
  have hshut : ¬e.Shuts := by
    rintro (hc | hc | ⟨addresses,hc,-⟩) <;> rw [hcall] at hc <;> cases hc
  have haliased : ∀ q root expires, PolicyEvent.Aliased s.cfg q root expires (e::log) ↔
      root ≠ d ∧ PolicyEvent.Aliased s.cfg q root expires log := by
    intro q root expires
    rw [PolicyEvent.Aliased,since_cons]
    constructor
    · rintro (⟨ttl,hr,-⟩ | ⟨hk,hl⟩)
      · exact absurd hr (hregister q root ttl)
      · exact ⟨fun hd => hk.2.1 records (hd ▸ he),hl⟩
    · rintro ⟨hne,hl⟩
      exact .inr ⟨⟨hregister q,fun records' hr => hne (hother _ _ hr),hshut⟩,hl⟩
  have hleased : ∀ ip expires, PolicyEvent.Leased s.cfg d ip expires (e::log) ↔
      ip.isGlobalIpv4 = true ∧ ∃ ttl : ℤ, IsLeast (lifetimes records ip) ttl ∧
        expires = s.now+ttl := by
    intro ip expires
    refine (since_cons_of_not_keeps fun hk => hk records he).trans ?_
    constructor
    · rintro ⟨records',ttl,hr,hg,hleast,rfl⟩
      rw [hr.unique he] at hleast
      exact ⟨hg,ttl,hleast,by rw [htime]⟩
    · rintro ⟨hg,ttl,hleast,rfl⟩
      exact ⟨records,ttl,he,hg,hleast,by rw [htime]⟩
  have hleasedNe : ∀ d' ip expires, d' ≠ d → (PolicyEvent.Leased s.cfg d' ip expires (e::log) ↔
      PolicyEvent.Leased s.cfg d' ip expires log) := fun d' ip expires hne =>
    since_cons_of_keeps (fun records' hr => hne (hother _ _ hr))
      fun ⟨records',_,hr,_⟩ => hne (hother _ _ hr)
  refine ⟨?_,?_,?_,?_,?_,?_,?_,?_⟩
  · refine h.shut.trans ?_
    simp [hshut]
  · intro hs
    exact absurd hs (by simp [ticked,hclosed,hsuspended])
  · intro hs
    exact absurd hs (by simp [ticked,hclosed,hsuspended])
  · intro d' ip lease hl
    obtain ⟨table,ht,hl⟩ := Option.bind_eq_some_iff.mp hl
    rcases (Dict.get?_set_eq_some _ _ _ _ _).mp ht with ⟨rfl,rfl⟩ | ⟨hne,hold⟩
    · obtain ⟨hg,ttl,hleast,rfl⟩ := replacement_get?_eq_some.mp hl
      exact ⟨rfl,(hleased ip _).mpr ⟨hg,ttl,hleast,rfl⟩⟩
    · have hat : s.leaseAt d' ip = some lease := by rw [leaseAt,hold]; exact hl
      exact ⟨(h.leased d' ip lease hat).1,(hleasedNe d' ip _ hne).mpr (h.leased d' ip lease hat).2⟩
  · intro _ _ d' ip expires hl hn
    by_cases hd : d' = d
    · subst hd
      obtain ⟨hg,ttl,hleast,rfl⟩ := (hleased ip expires).mp hl
      refine ⟨⟨d',ip,s.now+ttl⟩,?_,rfl⟩
      simp only [leaseAt,Dict.get?_set_self,Option.bind_some]
      exact replacement_get?_eq_some.mpr ⟨hg,ttl,hleast,rfl⟩
    · obtain ⟨lease,hat,he⟩ := h.leaseKept hclosed hsuspended d' ip expires
        ((hleasedNe d' ip expires hd).mp hl) (hnext.trans_lt hn)
      refine ⟨lease,?_,he⟩
      simp only [leaseAt,Dict.get?_set_of_ne _ _ hd]
      exact hat
  · intro q root expires ha
    obtain ⟨ha,hne⟩ := (Dict.get?_filter_eq_some _ _ _ _).mp ha
    exact (haliased q root expires).mpr ⟨of_decide_eq_true hne,h.aliased q root expires ha⟩
  · intro q root expires ha hn
    obtain ⟨hne,hl⟩ := (haliased q root expires).mp ha
    exact (Dict.get?_filter_eq_some _ _ _ _).mpr
      ⟨h.aliasKept q root expires hl (hnext.trans_lt hn),decide_eq_true hne⟩
  · intro q root expires ha
    exact h.rooted q root expires ((Dict.get?_filter_eq_some _ _ _ _).mp ha).1

theorem passive (h : Tracks log s) (c : PolicyCall) (hc : c.isPassive = true) {time : ℚ}
    {reply : Reply} : Tracks (⟨time,c,reply⟩::log) (c.body.run s).2 := by
  apply h.retain (c.retains s hc)
  · rintro d records ⟨domain,rfl,-⟩
    cases hc
  · rintro q root ttl ⟨domain,aliasName,rfl,-⟩
    cases hc
  · rintro (rfl | rfl | ⟨addresses,rfl,-⟩) <;> cases hc

theorem leaseAt_of_shut (h : s.Shut) (d : String) (ip : Addr) : s.leaseAt d ip = none := by
  refine Option.eq_none_iff_forall_ne_some.mpr fun lease hl => ?_
  obtain ⟨table,ht,hl⟩ := Option.bind_eq_some_iff.mp hl
  rw [h.leases d table ht] at hl
  cases hl

theorem of_shut (c : PolicyCall) (reply : Reply) (time : ℚ) (hcfg : s'.cfg = s.cfg)
    (hshut : s'.Shut) (he : PolicyEvent.Shuts ⟨time,c,reply⟩) : Tracks (⟨time,c,reply⟩::log) s' := by
  apply shutting hcfg he hshut.off (leaseAt_of_shut hshut)
  · intro q
    rw [hshut.aliases]
    rfl
  · rintro q root ttl ⟨domain,aliasName,rfl,-⟩
    rcases he with hc | hc | ⟨addresses,hc,-⟩ <;> cases hc

theorem updateLocalIpv4 (h : Tracks log s) (addresses : List Addr) :
    Tracks (⟨s.now,.updateLocalIpv4 addresses,(updateLocalIpv4Locked addresses s).1⟩::log)
      (updateLocalIpv4Locked addresses s).2 := by
  rcases updateLocalIpv4Locked_cases addresses s with hu | ⟨hreply,hu⟩
  · rw [hu]
    refine of_shut (s:=s) _ _ _ rfl (suspendLocked_shut _) ?_
    exact .inr (.inr ⟨addresses,rfl,rfl⟩)
  · have hnow : s.now ≤ (updateLocalIpv4Locked addresses s).2.now := by
      rw [EgressPolicy.now,EgressPolicy.now,hu.clock]
      exact s.clock.now_le_next
    have hretains : Retains s (updateLocalIpv4Locked addresses s).2 :=
      .of_eq hu.cfg hu.closed hu.egressSuspended hnow hu.leases hu.aliases
    rw [hreply]
    cases hs : s.egressSuspended with
    | false =>
      apply h.retain hretains
      · rintro d records ⟨domain,hc,-⟩
        cases hc
      · rintro q root ttl ⟨domain,aliasName,hc,-⟩
        cases hc
      · rintro (hc | hc | ⟨addresses,-,hr⟩)
        · cases hc
        · cases hc
        · cases hr
    | true =>
      have hoff : (updateLocalIpv4Locked addresses s).2.egressSuspended = true := by
        rw [hu.egressSuspended,hs]
      -- the tables were emptied by the suspension that came first
      refine shutting hu.cfg (.inr (.inr ⟨addresses,rfl,rfl⟩)) (.inr hoff) ?_ ?_ ?_
      · intro d ip
        rw [leaseAt,hu.leases]
        exact h.noLease (.inr hs) d ip
      · intro q
        rw [hu.aliases]
        exact h.noAlias (.inr hs) q
      · rintro q root ttl ⟨domain,aliasName,hc,-⟩
        cases hc

theorem record (h : Tracks log s) (c : PolicyCall) :
    Tracks (⟨s.now,c,(c.body.run s).1⟩::log) (c.body.run s).2 := by
  by_cases hc : c.isPassive = true
  · exact h.passive c hc
  · cases c with
    | updateLocalIpv4 addresses => exact h.updateLocalIpv4 addresses
    | suspend => exact of_shut (s:=s) _ _ _ rfl (suspendLocked_shut s) (.inr (.inl rfl))
    | close => exact of_shut (s:=s) _ _ _ rfl (closeLocked_shut s) (.inl rfl)
    | registerAlias domain aliasName ttl =>
      rcases registerAlias_run_cases domain aliasName ttl s with
        ⟨hreply,hs⟩ | ⟨root,q,hroot,hq,hallowed,hopen,hrun⟩
      · rw [PolicyCall.body,hs]
        apply h.retain (.refl s)
        · rintro d records ⟨domain,hc,-⟩
          cases hc
        · rintro q root ttl ⟨domain',aliasName',-,-,-,hr⟩
          exact hreply hr
        · rintro (hc | hc | ⟨addresses,hc,-⟩) <;> cases hc
      · rw [PolicyCall.body,hrun]
        exact h.register hopen hallowed ⟨domain,aliasName,rfl,hq,hroot,rfl⟩ rfl
    | replaceLeases domain records =>
      rcases replaceLeases_run_cases domain records s with ⟨hreply,hr⟩ | ⟨d,ips,hd,hopen,hrun⟩
      · apply h.retain hr
        · rintro d records ⟨domain',-,-,ips,hr⟩
          exact hreply ips hr
        · rintro q root ttl ⟨domain,aliasName,hc,-⟩
          cases hc
        · rintro (hc | hc | ⟨addresses,hc,-⟩) <;> cases hc
      · rw [PolicyCall.body,hrun]
        exact h.replace hopen ⟨domain,rfl,hd,ips,rfl⟩ rfl
    | _ => simp [PolicyCall.isPassive] at hc

end Tracks

theorem history_tracks (cfg : PolicyConfig) (localIpv4 : List Addr) (clock : Clock)
    (calls : List PolicyCall) :
    Tracks ((init cfg localIpv4 clock).history calls).1 ((init cfg localIpv4 clock).history calls).2 := by
  induction calls using List.reverseRecOn with
  | nil => exact .init cfg localIpv4 clock
  | append_singleton calls c ih =>
    rw [history,List.foldl_append]
    exact ih.record c

theorem history_cfg (cfg : PolicyConfig) (localIpv4 : List Addr) (clock : Clock)
    (calls : List PolicyCall) : ((init cfg localIpv4 clock).history calls).2.cfg = cfg := by
  induction calls using List.reverseRecOn with
  | nil => rfl
  | append_singleton calls c ih =>
    rw [history,List.foldl_append]
    exact (c.run_cfg _).trans ih

variable {log : List PolicyEvent} {s : EgressPolicy}

theorem leaseFor_reply (ip : Addr) (port : ℕ) (lease : Lease) :
    ((PolicyCall.leaseFor ip port).body.run s).1 = .lease (some lease) ↔
      port ∈ allowedTcpPorts ∧ s.closed = false ∧ s.egressSuspended = false ∧
      findLease (s.cleanupLocked s.now).leases.entries ip s.now = some lease := by
  rw [PolicyCall.body,mapReply_run,leaseFor_run]
  split_ifs with hp
  · simp only [leaseForLocked]
    have hflags : (s.ticked.closed || s.ticked.egressSuspended) = (s.closed || s.egressSuspended) :=
      rfl
    rw [hflags]
    cases hc : s.closed <;> cases hs : s.egressSuspended <;> simp [hp]
  · simp [hp]

theorem findLease_eq_some {ip : Addr} {now : ℚ} {lease : Lease}
    (h : findLease s.leases.entries ip now = some lease) :
    ∃ d, s.leaseAt d ip = some lease ∧ now < lease.expiresAt := by
  obtain ⟨l₁,⟨d,table⟩,l₂,hsplit,hf,-⟩ := List.findSome?_eq_some_iff.mp h
  obtain ⟨hl,hn⟩ := Option.filter_eq_some_iff.mp hf
  refine ⟨d,?_,of_decide_eq_true hn⟩
  have hmem : s.leases.get? d = some table := by
    rw [Dict.get?_eq_some_iff,hsplit]
    simp
  rw [leaseAt,hmem]
  exact hl

theorem findLease_isSome {ip : Addr} {now : ℚ} {d : String} {lease : Lease}
    (h : s.leaseAt d ip = some lease) (hn : now < lease.expiresAt) :
    ∃ lease', findLease s.leases.entries ip now = some lease' := by
  obtain ⟨table,ht,hl⟩ := Option.bind_eq_some_iff.mp h
  rw [← Option.isSome_iff_exists,findLease,List.findSome?_isSome_iff]
  refine ⟨(d,table),(Dict.get?_eq_some_iff _ _ _).mp ht,?_⟩
  simp [hl,hn]

theorem Tracks.leaseFor_sound (h : Tracks log s) {ip : Addr} {port : ℕ} {lease : Lease}
    (hr : ((PolicyCall.leaseFor ip port).body.run s).1 = .lease (some lease)) :
    ∃ expires, PolicyEvent.Leased s.cfg lease.domain ip expires log ∧ s.now < expires := by
  obtain ⟨-,-,-,hf⟩ := (leaseFor_reply ip port lease).mp hr
  obtain ⟨d,hat,hn⟩ := findLease_eq_some hf
  obtain ⟨rfl,hl⟩ := h.leased d ip lease (Retains.leaseAt_cleanup.mp hat).1
  exact ⟨lease.expiresAt,hl,hn⟩

theorem Tracks.leaseFor_complete (h : Tracks log s) {ip : Addr} {port : ℕ}
    (hp : port ∈ allowedTcpPorts) (hc : s.closed = false) (hs : s.egressSuspended = false)
    {d : String} {expires : ℚ} (hl : PolicyEvent.Leased s.cfg d ip expires log)
    (hn : s.now < expires) :
    ∃ lease, ((PolicyCall.leaseFor ip port).body.run s).1 = .lease (some lease) := by
  obtain ⟨lease,hat,rfl⟩ := h.leaseKept hc hs d ip expires hl hn
  obtain ⟨lease',hf⟩ := findLease_isSome (Retains.leaseAt_cleanup.mpr ⟨hat,hn⟩) hn
  exact ⟨lease',(leaseFor_reply ip port lease').mpr ⟨hp,hc,hs,hf⟩⟩

theorem resolveDnsRule_reply {qname q : String}
    (hq : Hostname.normalizeHostname s.cfg.idna qname = .ok q) (root : String) :
    ((PolicyCall.resolveDnsRule qname).body.run s).1 = .name (some root) ↔
      if (s.cfg.matchAllowedDomain q).isSome then q = root
      else ∃ expires, s.aliases.get? q = some (root,expires) ∧ s.now < expires := by
  have hrun : (PolicyCall.resolveDnsRule qname).body.run s =
      (readClock.bind fun now => .locked (resolveDnsRuleLocked q now)).run s := by
    simp only [PolicyCall.body,resolveDnsRule,Prog.bind_eq,Prog.run_bind,Prog.run_read,hq]
  rw [hrun]
  simp only [Prog.run_bind,Prog.run_locked,readClock,resolveDnsRuleLocked]
  have hcfg : (s.ticked.cleanupLocked s.now).cfg = s.cfg := rfl
  have haliases : (s.ticked.cleanupLocked s.now).aliases =
      s.aliases.filter fun _ entry => s.now < entry.2 := rfl
  rw [hcfg,haliases]
  split_ifs with ha
  · simp
  · simp only [Reply.name.injEq,Option.map_eq_some_iff,Option.filter_eq_some_iff,
      Dict.get?_filter_eq_some,decide_eq_true_eq,Prod.exists]
    constructor
    · rintro ⟨_,expires,⟨⟨hg,hn⟩,-⟩,rfl⟩
      exact ⟨expires,hg,hn⟩
    · rintro ⟨expires,hg,hn⟩
      exact ⟨root,expires,⟨⟨hg,hn⟩,hn⟩,rfl⟩

theorem Tracks.resolveDnsRule_iff (h : Tracks log s) {qname q : String}
    (hq : Hostname.normalizeHostname s.cfg.idna qname = .ok q) (root : String) :
    ((PolicyCall.resolveDnsRule qname).body.run s).1 = .name (some root) ∧ root ≠ q ↔
      s.cfg.matchAllowedDomain q = none ∧
        ∃ expires, PolicyEvent.Aliased s.cfg q root expires log ∧ s.now < expires := by
  rw [resolveDnsRule_reply hq]
  cases hm : s.cfg.matchAllowedDomain q with
  | some pattern =>
    simp only [Option.isSome_some,if_true]
    constructor
    · rintro ⟨rfl,hne⟩
      exact absurd rfl hne
    · rintro ⟨hc,-⟩
      cases hc
  | none =>
    simp only [Option.isSome_none,Bool.false_eq_true,if_false,true_and]
    constructor
    · rintro ⟨⟨expires,hg,hn⟩,-⟩
      exact ⟨expires,h.aliased q root expires hg,hn⟩
    · rintro ⟨expires,ha,hn⟩
      have hg := h.aliasKept q root expires ha hn
      refine ⟨⟨expires,hg,hn⟩,?_⟩
      rintro rfl
      have hroot := h.rooted root root expires hg
      rw [hm] at hroot
      cases hroot

end EgressPolicy

open EgressPolicy PolicyEvent in
/-- The DNS authority of every run is what its history grants. -/
theorem dns_authority_refines_history (cfg : PolicyConfig) (localIpv4 : List Addr) (clock : Clock)
    (calls : List PolicyCall) (log : List PolicyEvent) (s : EgressPolicy)
    (hrun : (EgressPolicy.init cfg localIpv4 clock).history calls = (log,s)) :
    (∀ ip port lease, ((PolicyCall.leaseFor ip port).body.run s).1 = .lease (some lease) →
      ∃ expires, Leased cfg lease.domain ip expires log ∧ s.now < expires) ∧
    (∀ ip port, (∃ lease, ((PolicyCall.leaseFor ip port).body.run s).1 = .lease (some lease)) ↔
      port ∈ allowedTcpPorts ∧ s.closed = false ∧ s.egressSuspended = false ∧
        ∃ d expires, Leased cfg d ip expires log ∧ s.now < expires) ∧
    (∀ qname q root, Hostname.normalizeHostname cfg.idna qname = .ok q →
      (((PolicyCall.resolveDnsRule qname).body.run s).1 = .name (some root) ∧ root ≠ q ↔
        cfg.matchAllowedDomain q = none ∧
          ∃ expires, Aliased cfg q root expires log ∧ s.now < expires)) := by
  have h := history_tracks cfg localIpv4 clock calls
  have hcfg := history_cfg cfg localIpv4 clock calls
  rw [hrun] at h hcfg
  subst hcfg
  refine ⟨fun ip port lease hr => h.leaseFor_sound hr,?_,fun qname q root hq =>
    h.resolveDnsRule_iff hq root⟩
  intro ip port
  constructor
  · rintro ⟨lease,hr⟩
    obtain ⟨hp,hc,hs,-⟩ := (leaseFor_reply ip port lease).mp hr
    exact ⟨hp,hc,hs,lease.domain,h.leaseFor_sound hr⟩
  · rintro ⟨hp,hc,hs,d,expires,hl,hn⟩
    exact h.leaseFor_complete hp hc hs hl hn

def PolicyCall.aliasedDomain : List PolicyCall :=
  [.replaceLeases "a.test" [(.dotted 93 184 216 34,60),(.dotted 93 184 216 34,30)],
    .registerAlias "a.test" "Cdn.test" 20]

open EgressPolicy PolicyEvent in
theorem dns_authority_refines_history_alias :
    ∃ log s, (EgressPolicy.init .twoDomains [] (.every 1)).history PolicyCall.aliasedDomain = (log,s) ∧
      (∃ expires, Leased .twoDomains "a.test" (.dotted 93 184 216 34) expires log ∧
        s.now < expires) ∧
      ∃ expires, Aliased .twoDomains "cdn.test" "a.test" expires log ∧ s.now < expires := by
  have h := dns_authority_refines_history .twoDomains [] (.every 1) PolicyCall.aliasedDomain _ _ rfl
  refine ⟨_,_,rfl,?_,?_⟩
  · exact h.1 (.dotted 93 184 216 34) 443 ⟨"a.test",.dotted 93 184 216 34,30⟩ (by decide +kernel)
  · exact ((h.2.2 "cdn.test" "cdn.test" "a.test" (by decide)).mp
      ⟨by decide +kernel,by decide⟩).2

end FakeNetNG
