import FakeNetNG.BaseNat

/-!
# Runs of the base diverter's NAT

The forwarding tables against the history of the packets that went through the
callbacks. A reply is fixed up truthfully when the tables say what the most recent
packet of its receiver says; a callback that returns early keeps an older entry.
-/

namespace FakeNetNG
namespace NatTables

variable (cfg : DiverterConfig)

/-- What `check_should_ignore` answers. -/
def ignores (st : NatTables) (d : Datagram) : Bool :=
  cfg.listedToIgnore st.blacklistPorts d || cfg.listenerInitiated d

def hasDefault (d : Datagram) : Bool := (cfg.defaultListener d.proto).any (· ≠ 0)

/-- `maybe_redir_port` files the packet's source and redirects it. -/
def redirectsPort (st : NatTables) (d : Datagram) : Bool :=
  hasDefault cfg d && !st.portFwdTable.contains d.dkey && wantsDefault cfg d.parse &&
    st.ignoreTable.get? d.dkey ≠ some d.sport && !st.ignores cfg d

/-- `maybe_redir_port` takes the branch that deletes a stale entry. -/
def clearsPort (st : NatTables) (d : Datagram) : Bool :=
  hasDefault cfg d && !st.portFwdTable.contains d.dkey && !wantsDefault cfg d.parse

/-- `maybe_redir_ip` files the packet's source and redirects it. -/
def redirectsIp (st : NatTables) (d : Datagram) : Bool :=
  !st.ignores cfg d && cfg.singleHostMode && d.dstIp ∉ cfg.ipAddrs d.ipver

variable {cfg}

theorem checkShouldIgnore_fst (cfg : DiverterConfig) (st : NatTables) (d : Datagram) :
    (cfg.checkShouldIgnore d st).1 = st.ignores cfg d := by
  unfold DiverterConfig.checkShouldIgnore ignores
  by_cases hl : cfg.listedToIgnore st.blacklistPorts d = true
  · simp [hl]
  · by_cases hi : cfg.listenerInitiated d = true <;> simp [hl,hi]

theorem checkShouldIgnore_of_false {st : NatTables} {d : Datagram} (h : st.ignores cfg d = false) :
    cfg.checkShouldIgnore d st = (false,st) := by
  unfold ignores at h
  simp only [Bool.or_eq_false_iff] at h
  simp [DiverterConfig.checkShouldIgnore,h.1,h.2]

theorem checkShouldIgnore_tables (cfg : DiverterConfig) (st : NatTables) (d : Datagram) :
    (cfg.checkShouldIgnore d st).2.portFwdTable = st.portFwdTable ∧
      (cfg.checkShouldIgnore d st).2.ipFwdTable = st.ipFwdTable := by
  unfold DiverterConfig.checkShouldIgnore
  split_ifs <;> exact ⟨rfl,rfl⟩

theorem checkShouldIgnore_ignores {st : NatTables} {d : Datagram} (h : st.ignores cfg d = true) :
    (cfg.checkShouldIgnore d st).2.ignores cfg d = true := by
  unfold DiverterConfig.checkShouldIgnore
  split_ifs with hl hi
  · exact h
  · simp [ignores,hi]
  · exact h

@[simp] theorem openSession_portFwdTable (st : NatTables) (pkt : NatPacket) :
    (st.openSession pkt).portFwdTable = st.portFwdTable := by
  unfold openSession
  split_ifs <;> rfl

@[simp] theorem openSession_ipFwdTable (st : NatTables) (pkt : NatPacket) :
    (st.openSession pkt).ipFwdTable = st.ipFwdTable := by
  unfold openSession
  split_ifs <;> rfl

@[simp] theorem openSession_blacklistPorts (st : NatTables) (pkt : NatPacket) :
    (st.openSession pkt).blacklistPorts = st.blacklistPorts := by
  unfold openSession
  split_ifs <;> rfl

/-- What `maybe_redir_port` leaves to the callbacks after it. -/
structure PortCallback (cfg : DiverterConfig) (st : NatTables) (d : Datagram) (st' : NatTables)
    (pkt : NatPacket) : Prop where
  ports : ∀ E, st'.portFwdTable.get? E =
    if E = d.skey then
      if st.redirectsPort cfg d then some d.dport
      else if st.clearsPort cfg d then none else st.portFwdTable.get? E
    else st.portFwdTable.get? E
  ips : st'.ipFwdTable = st.ipFwdTable
  ignores : st'.ignores cfg d = st.ignores cfg d
  arrived : pkt.arrived = d
  source : pkt.srcIp = d.srcIp ∧ pkt.sport = d.sport
  target : pkt.dstIp = d.dstIp
  port : ∀ default, cfg.defaultListener d.proto = some default →
    pkt.dport = if st.redirectsPort cfg d then default else d.dport

theorem portCallback_same {st st' : NatTables} {d : Datagram}
    (hports : st'.portFwdTable = st.portFwdTable) (hips : st'.ipFwdTable = st.ipFwdTable)
    (hignores : st'.ignores cfg d = st.ignores cfg d) (hredirect : st.redirectsPort cfg d = false)
    (hclear : st.clearsPort cfg d = false) : PortCallback cfg st d st' d.parse where
  ports E := by simp [hports,hredirect,hclear]
  ips := hips
  ignores := hignores
  arrived := rfl
  source := ⟨rfl,rfl⟩
  target := rfl
  port default _ := by simp [hredirect,Datagram.parse]

theorem maybeRedirPort_spec (cfg : DiverterConfig) (st : NatTables) (d : Datagram) :
    PortCallback cfg st d (st.maybeRedirPort cfg d.parse).1 (st.maybeRedirPort cfg d.parse).2 := by
  have hproto : d.parse.arrived = d := rfl
  unfold maybeRedirPort
  rw [hproto]
  split
  · rename_i hd
    exact portCallback_same rfl rfl rfl (by simp [redirectsPort,hasDefault,hd])
      (by simp [clearsPort,hasDefault,hd])
  · rename_i default hd
    split_ifs with hzero hfwd hwants hign
    · exact portCallback_same rfl rfl rfl (by simp [redirectsPort,hasDefault,hd,hzero])
        (by simp [clearsPort,hasDefault,hd,hzero])
    · exact portCallback_same rfl rfl rfl (by simp [redirectsPort,hfwd]) (by simp [clearsPort,hfwd])
    · have hign' : st.ignoreTable.get? d.dkey = some d.sport := hign
      exact portCallback_same rfl rfl rfl (by simp [redirectsPort,hign'])
        (by simp [clearsPort,hwants])
    · cases hi : st.ignores cfg d with
      | true =>
        have hfst := (checkShouldIgnore_fst cfg st d).trans hi
        have htables := checkShouldIgnore_tables cfg st d
        have hkeeps := checkShouldIgnore_ignores hi
        rcases hc : cfg.checkShouldIgnore d st with ⟨b,st'⟩
        rw [hc] at hfst htables hkeeps
        dsimp only at hfst htables hkeeps
        subst hfst
        exact portCallback_same htables.1 htables.2 (by rw [hi]; exact hkeeps)
          (by simp [redirectsPort,hi]) (by simp [clearsPort,hwants])
      | false =>
        have hign' : st.ignoreTable.get? d.dkey ≠ some d.sport := hign
        have hredirect : st.redirectsPort cfg d = true := by
          simp [redirectsPort,hasDefault,hd,hzero,hfwd,hwants,hign',hi]
        rw [checkShouldIgnore_of_false hi]
        refine ⟨?_,by simp,?_,rfl,⟨rfl,rfl⟩,rfl,?_⟩
        · intro E
          simp only [openSession_portFwdTable,Dict.get?_set,hredirect,if_true]
          rfl
        · simp [ignores]
        · intro default' hd'
          rw [hd] at hd'
          cases hd'
          simp [hredirect]
    · have hredirect : st.redirectsPort cfg d = false := by simp [redirectsPort,hwants]
      have hclear : st.clearsPort cfg d = true := by
        simp [clearsPort,hasDefault,hd,hzero,hfwd,hwants]
      refine ⟨?_,by simp,by simp [ignores],rfl,⟨rfl,rfl⟩,rfl,?_⟩
      · intro E
        simp [Dict.get?_pop,hredirect,hclear]
      · intro default' hd'
        simp [hredirect,Datagram.parse]

/-- What `handle_pkt` does to the tables and to a packet that is not loopback. -/
structure Handled (cfg : DiverterConfig) (st : NatTables) (d : Datagram) (st' : NatTables)
    (pkt : NatPacket) : Prop where
  ports : ∀ E, st'.portFwdTable.get? E =
    if E = d.skey then
      if st.redirectsPort cfg d then some d.dport
      else if st.clearsPort cfg d then none else st.portFwdTable.get? E
    else st.portFwdTable.get? E
  ips : ∀ E, st'.ipFwdTable.get? E =
    if E = d.skey then
      if st.redirectsIp cfg d then some d.dstIp
      else if st.ignores cfg d then st.ipFwdTable.get? E else none
    else st.ipFwdTable.get? E
  sport : pkt.sport = ((st'.portFwdTable.get? d.dkey).filter (· ≠ 0)).getD d.sport
  srcIp : pkt.srcIp =
    if cfg.singleHostMode then (st'.ipFwdTable.get? d.dkey).getD d.srcIp else d.srcIp
  dport : ∀ default, cfg.defaultListener d.proto = some default →
    pkt.dport = if st.redirectsPort cfg d then default else d.dport
  dstIp : pkt.dstIp = if st.redirectsIp cfg d then cfg.getNewDestinationIp d.srcIp else d.dstIp

theorem maybeFixupSport_spec (pkt : NatPacket) (st : NatTables) :
    st.maybeFixupSport pkt = (st,{ pkt with
      sport := ((st.portFwdTable.get? pkt.arrived.dkey).filter (· ≠ 0)).getD pkt.sport }) := by
  unfold maybeFixupSport
  cases st.portFwdTable.get? pkt.arrived.dkey with
  | none => rfl
  | some newSport => by_cases hz : newSport = 0 <;> simp [hz,Option.filter]

theorem maybeFixupSrcip_spec (pkt : NatPacket) (st : NatTables) :
    st.maybeFixupSrcip cfg pkt = (st,{ pkt with
      srcIp := if cfg.singleHostMode then (st.ipFwdTable.get? pkt.arrived.dkey).getD pkt.srcIp
        else pkt.srcIp }) := by
  unfold maybeFixupSrcip
  split_ifs
  · cases st.ipFwdTable.get? pkt.arrived.dkey <;> rfl
  · rfl

theorem maybeRedirIp_spec (cfg : DiverterConfig) (pkt : NatPacket) (st : NatTables)
    (hdst : pkt.dstIp = pkt.arrived.dstIp) :
    (st.maybeRedirIp cfg pkt).1.portFwdTable = st.portFwdTable ∧
    (∀ E, (st.maybeRedirIp cfg pkt).1.ipFwdTable.get? E =
      if E = pkt.arrived.skey then
        if st.redirectsIp cfg pkt.arrived then some pkt.dstIp
        else if st.ignores cfg pkt.arrived then st.ipFwdTable.get? E else none
      else st.ipFwdTable.get? E) ∧
    (st.maybeRedirIp cfg pkt).2 = { pkt with
      dstIp := if st.redirectsIp cfg pkt.arrived then cfg.getNewDestinationIp pkt.srcIp
        else pkt.dstIp } := by
  unfold maybeRedirIp
  cases hi : st.ignores cfg pkt.arrived with
  | true =>
    have hfst := (checkShouldIgnore_fst cfg st pkt.arrived).trans hi
    have htables := checkShouldIgnore_tables cfg st pkt.arrived
    rcases hc : cfg.checkShouldIgnore pkt.arrived st with ⟨b,st'⟩
    rw [hc] at hfst htables
    dsimp only at hfst htables
    subst hfst
    exact ⟨htables.1,by simp [htables.2,redirectsIp,hi],by simp [redirectsIp,hi]⟩
  | false =>
    have hredirect : st.redirectsIp cfg pkt.arrived =
        (cfg.singleHostMode && decide (pkt.dstIp ∉ cfg.ipAddrs pkt.arrived.ipver)) := by
      simp [redirectsIp,hi,hdst]
    rw [checkShouldIgnore_of_false hi,hredirect]
    by_cases hc : (cfg.singleHostMode && decide (pkt.dstIp ∉ cfg.ipAddrs pkt.arrived.ipver)) = true
    · simp only [hc,if_true]
      exact ⟨trivial,fun E => Dict.get?_set _ _ _ _,trivial⟩
    · simp only [hc,if_false,Bool.false_eq_true]
      exact ⟨trivial,fun E => Dict.get?_pop _ _ _,trivial⟩

theorem handlePkt_handled (st : NatTables) (d : Datagram) (h : d.isLoopback cfg = false) :
    Handled cfg st d (st.handlePkt cfg NatCallback.all d).1 (st.handlePkt cfg NatCallback.all d).2 := by
  have hport := maybeRedirPort_spec cfg st d
  unfold handlePkt
  rw [if_neg (by simp [h])]
  simp only [NatCallback.all,List.foldl_cons,List.foldl_nil,NatCallback.run]
  rcases hr : st.maybeRedirPort cfg d.parse with ⟨st₁,pkt₁⟩
  rw [hr] at hport
  dsimp only at hport ⊢
  rw [maybeFixupSport_spec]
  obtain ⟨hports,hips,hpkt⟩ := maybeRedirIp_spec cfg { pkt₁ with
    sport := ((st₁.portFwdTable.get? pkt₁.arrived.dkey).filter (· ≠ 0)).getD pkt₁.sport } st₁
    (hport.target.trans (congrArg Datagram.dstIp hport.arrived.symm))
  dsimp only at hports hips hpkt ⊢
  rw [maybeFixupSrcip_spec,hpkt]
  have hredirect : st₁.redirectsIp cfg d = st.redirectsIp cfg d := by
    simp only [redirectsIp,hport.ignores]
  refine ⟨?_,?_,?_,?_,?_,?_⟩
  · intro E
    rw [hports]
    exact hport.ports E
  · intro E
    rw [hips,hport.arrived,hredirect,hport.ignores,hport.ips,hport.target]
  · rw [hports,hport.arrived,hport.source.2]
  · rw [hport.arrived,hport.source.1]
  · exact hport.port
  · rw [hport.arrived,hredirect,hport.source.1,hport.target]

end NatTables

/-- A packet that went through the callbacks and what they did to its destination. -/
structure NatEvent where
  datagram : Datagram
  redirectedIp : Bool
  redirectedPort : Bool

namespace NatEvent

def lastFrom (E : Endpoint) (log : List NatEvent) : Option NatEvent :=
  log.find? fun e => e.datagram.skey = E

def originalIp (E : Endpoint) (log : List NatEvent) : Option Addr :=
  (lastFrom E log).bind fun e => if e.redirectedIp then some e.datagram.dstIp else none

def originalPort (E : Endpoint) (log : List NatEvent) : Option ℕ :=
  (lastFrom E log).bind fun e => if e.redirectedPort then some e.datagram.dport else none

theorem originalIp_cons (E : Endpoint) (e : NatEvent) (log : List NatEvent) :
    originalIp E (e::log) =
      if E = e.datagram.skey then if e.redirectedIp then some e.datagram.dstIp else none
      else originalIp E log := by
  by_cases h : E = e.datagram.skey
  · simp [originalIp,lastFrom,h]
  · simp [originalIp,lastFrom,h,Ne.symm h]

theorem originalPort_cons (E : Endpoint) (e : NatEvent) (log : List NatEvent) :
    originalPort E (e::log) =
      if E = e.datagram.skey then if e.redirectedPort then some e.datagram.dport else none
      else originalPort E log := by
  by_cases h : E = e.datagram.skey
  · simp [originalPort,lastFrom,h]
  · simp [originalPort,lastFrom,h,Ne.symm h]

end NatEvent

namespace NatTables

open NatEvent

variable (cfg : DiverterConfig)

def event (st : NatTables) (d : Datagram) : NatEvent :=
  ⟨d,st.redirectsIp cfg d,st.redirectsPort cfg d⟩

def record (h : List NatEvent × NatTables) (d : Datagram) : List NatEvent × NatTables :=
  if d.isLoopback cfg then h
  else (h.2.event cfg d::h.1,(h.2.handlePkt cfg NatCallback.all d).1)

def history (blacklistPorts : Transport → List ℕ) (ds : List Datagram) :
    List NatEvent × NatTables :=
  ds.foldl (record cfg) ([],init blacklistPorts)

/-- The source of the packet `d` comes out as the history of its receiver says, `d` itself
included. -/
def Truthful (log : List NatEvent) (st : NatTables) (d : Datagram) : Prop :=
  let pkt := (st.handlePkt cfg NatCallback.all d).2
  pkt.srcIp = (originalIp d.dkey (st.event cfg d::log)).getD d.srcIp ∧
    pkt.sport = (originalPort d.dkey (st.event cfg d::log)).getD d.sport

instance (log : List NatEvent) (st : NatTables) (d : Datagram) : Decidable (st.Truthful cfg log d) :=
  inferInstanceAs (Decidable (_ ∧ _))

/-- A packet that an early return leaves alone has no entry in force, and none is filed for
port 0. -/
structure Careful (st : NatTables) (d : Datagram) : Prop where
  ignored : st.ignores cfg d = true → st.ipFwdTable.get? d.skey = none
  early : st.redirectsPort cfg d = false → st.clearsPort cfg d = false →
    st.portFwdTable.get? d.skey = none
  port : st.redirectsPort cfg d = true → d.dport ≠ 0

def CarefulRun (st : NatTables) : List Datagram → Prop
  | [] => True
  | d::ds => (d.isLoopback cfg = false → st.Careful cfg d) ∧
      CarefulRun (st.handlePkt cfg NatCallback.all d).1 ds

structure Tracks (log : List NatEvent) (st : NatTables) : Prop where
  ips : ∀ E, st.ipFwdTable.get? E = originalIp E log
  ports : ∀ E, st.portFwdTable.get? E = originalPort E log
  mode : ∀ E ip, st.ipFwdTable.get? E = some ip → cfg.singleHostMode = true
  nonzero : ∀ E, st.portFwdTable.get? E ≠ some 0

variable {cfg} {log : List NatEvent} {st st' : NatTables} {d : Datagram} {pkt : NatPacket}

theorem Tracks.init (blacklistPorts : Transport → List ℕ) :
    Tracks cfg [] (NatTables.init blacklistPorts) :=
  ⟨fun _ => rfl,fun _ => rfl,fun _ _ h => (by cases h),fun _ h => (by cases h)⟩

theorem Careful.tracks_self (hc : st.Careful cfg d) (hh : Handled cfg st d st' pkt) :
    st'.ipFwdTable.get? d.skey = (if st.redirectsIp cfg d then some d.dstIp else none) ∧
    st'.portFwdTable.get? d.skey = if st.redirectsPort cfg d then some d.dport else none := by
  rw [hh.ips,hh.ports,if_pos rfl,if_pos rfl]
  constructor
  · cases hr : st.redirectsIp cfg d with
    | true => simp
    | false =>
      cases hi : st.ignores cfg d with
      | true => simp [hc.ignored hi]
      | false => simp
  · cases hr : st.redirectsPort cfg d with
    | true => simp
    | false =>
      cases hl : st.clearsPort cfg d with
      | true => simp
      | false => simp [hc.early hr hl]

theorem Tracks.step (h : Tracks cfg log st) (hc : st.Careful cfg d)
    (hh : Handled cfg st d st' pkt) : Tracks cfg (st.event cfg d::log) st' := by
  obtain ⟨hip,hport⟩ := hc.tracks_self hh
  refine ⟨?_,?_,?_,?_⟩
  · intro E
    rw [originalIp_cons]
    by_cases hE : E = d.skey
    · subst hE
      rw [hip]
      exact (if_pos rfl).symm
    · rw [hh.ips,if_neg hE,h.ips]
      simp [event,hE]
  · intro E
    rw [originalPort_cons]
    by_cases hE : E = d.skey
    · subst hE
      rw [hport]
      exact (if_pos rfl).symm
    · rw [hh.ports,if_neg hE,h.ports]
      simp [event,hE]
  · intro E ip he
    by_cases hE : E = d.skey
    · subst hE
      rw [hip] at he
      cases hr : st.redirectsIp cfg d with
      | false => simp [hr] at he
      | true =>
        simp only [redirectsIp,Bool.and_eq_true] at hr
        exact hr.1.2
    · rw [hh.ips,if_neg hE] at he
      exact h.mode E ip he
  · intro E he
    by_cases hE : E = d.skey
    · subst hE
      rw [hport] at he
      cases hr : st.redirectsPort cfg d with
      | false => simp [hr] at he
      | true =>
        rw [hr] at he
        exact hc.port hr (Option.some.inj he)
    · rw [hh.ports,if_neg hE] at he
      exact h.nonzero E he

theorem Tracks.run (h : Tracks cfg log st) {ds : List Datagram} (hds : CarefulRun cfg st ds) :
    Tracks cfg (ds.foldl (record cfg) (log,st)).1 (ds.foldl (record cfg) (log,st)).2 := by
  induction ds generalizing log st with
  | nil => exact h
  | cons d ds ih =>
    rw [List.foldl_cons,record]
    cases hl : d.isLoopback cfg with
    | true =>
      have hsame : (st.handlePkt cfg NatCallback.all d).1 = st := by simp [handlePkt,hl]
      rw [if_pos rfl]
      exact ih h (hsame ▸ hds.2)
    | false =>
      rw [if_neg (by simp)]
      exact ih (h.step (hds.1 hl) (handlePkt_handled st d hl)) hds.2

theorem Tracks.receiver (h : Tracks cfg log st) (hself : d.skey = d.dkey → st.Careful cfg d)
    (hh : Handled cfg st d st' pkt) :
    st'.ipFwdTable.get? d.dkey = originalIp d.dkey (st.event cfg d::log) ∧
    st'.portFwdTable.get? d.dkey = originalPort d.dkey (st.event cfg d::log) ∧
    (∀ ip, st'.ipFwdTable.get? d.dkey = some ip → cfg.singleHostMode = true) ∧
    st'.portFwdTable.get? d.dkey ≠ some 0 := by
  by_cases hkey : d.skey = d.dkey
  · have hstep := h.step (hself hkey) hh
    exact ⟨hstep.ips _,hstep.ports _,hstep.mode _,hstep.nonzero _⟩
  · have hne : d.dkey ≠ d.skey := fun he => hkey he.symm
    rw [hh.ips,hh.ports,if_neg hne,if_neg hne,originalIp_cons,originalPort_cons]
    simp only [event,hne,if_false]
    exact ⟨h.ips _,h.ports _,h.mode _,h.nonzero _⟩

theorem Tracks.truthful (h : Tracks cfg log st) (hl : d.isLoopback cfg = false)
    (hself : d.skey = d.dkey → st.Careful cfg d) : st.Truthful cfg log d := by
  have hh := handlePkt_handled st d hl
  obtain ⟨hips,hports,hmode,hzero⟩ := h.receiver hself hh
  constructor
  · rw [hh.srcIp,← hips]
    cases hs : cfg.singleHostMode with
    | true => simp
    | false =>
      have hnone : (st.handlePkt cfg NatCallback.all d).1.ipFwdTable.get? d.dkey = none := by
        refine Option.eq_none_iff_forall_ne_some.mpr fun ip he => ?_
        rw [hmode ip he] at hs
        cases hs
      simp [hnone]
  · rw [hh.sport,← hports]
    cases hg : (st.handlePkt cfg NatCallback.all d).1.portFwdTable.get? d.dkey with
    | none => rfl
    | some port =>
      have hne : port ≠ 0 := by
        rintro rfl
        exact hzero hg
      simp [hne,Option.filter]

end NatTables

open NatTables in
/-- After every run of careful packets, a packet comes out with the source that the most
recent packet of its receiver asked for. -/
theorem nat_truthful_of_carefulRun (cfg : DiverterConfig) (blacklistPorts : Transport → List ℕ)
    (ds : List Datagram) (hds : CarefulRun cfg (NatTables.init blacklistPorts) ds) (d : Datagram)
    (hloop : d.isLoopback cfg = false)
    (hself : d.skey = d.dkey → (history cfg blacklistPorts ds).2.Careful cfg d) :
    (history cfg blacklistPorts ds).2.Truthful cfg (history cfg blacklistPorts ds).1 d :=
  ((Tracks.init blacklistPorts).run hds).truthful hloop hself

/-- A web listener on port 80 behind the default listener on port 1337, and one host that is
left alone. -/
def DiverterConfig.webOnly : DiverterConfig where
  redirectAllTraffic := true
  singleHostMode := true
  blacklistProcesses := []
  whitelistProcesses := []
  hostBlacklist := [.dotted 1 1 1 1]
  listenerPorts _ :=
    (Dict.empty.set 80 ⟨false,[],[],[],[]⟩).set 1337 ⟨false,[],[],[],[]⟩
  defaultListener _ := some 1337
  ipAddrs _ := [.dotted 10 0 0 5,.localhost]
  loopbackIp := .localhost
  externalIp := .dotted 10 0 0 5
  pid := 4

def Datagram.request (dst : Addr) (port : ℕ) : Datagram :=
  ⟨4,.tcp,.dotted 10 0 0 5,50000,dst,port,none,none⟩

def Datagram.reply (src : Addr) (port : ℕ) : Datagram :=
  ⟨4,.tcp,src,port,.dotted 10 0 0 5,50000,none,none⟩

open NatTables in
theorem nat_truthful_of_carefulRun_web :
    (history .webOnly (fun _ => []) [.request (.dotted 8 8 8 8) 8080]).2.Truthful .webOnly
      (history .webOnly (fun _ => []) [.request (.dotted 8 8 8 8) 8080]).1
      (.reply (.dotted 10 0 0 5) 1337) := by
  refine nat_truthful_of_carefulRun .webOnly (fun _ => []) [.request (.dotted 8 8 8 8) 8080]
    ⟨fun _ => ⟨?_,?_,?_⟩,trivial⟩ (.reply (.dotted 10 0 0 5) 1337) (by decide) ?_
  · decide
  · decide
  · decide
  · intro h
    exact absurd h (by decide)

open NatTables in
/-- The source port is used again for a host that is left alone, and the host's answer comes
out under the address of the first connection. -/
theorem ignored_reuse_misattributed :
    ¬(history .webOnly (fun _ => []) [.request (.dotted 8 8 8 8) 80,
        .request (.dotted 1 1 1 1) 80]).2.Truthful .webOnly
      (history .webOnly (fun _ => []) [.request (.dotted 8 8 8 8) 80,
        .request (.dotted 1 1 1 1) 80]).1 (.reply (.dotted 1 1 1 1) 80) := by
  decide

end FakeNetNG
