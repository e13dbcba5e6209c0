import FakeNetNG.EgressPolicy

/-!
# The operations of the egress policy

`PolicyCall` lists the public operations with their arguments and `body` gives each its
program. Reads of the clock, of `local_ipv4` and of the openness flags that the source
makes outside the lock are steps of their own.
-/

namespace FakeNetNG

/-- One argument of `activate_reviewed_ip_routes`: the error of an item that does not
convert or whose addresses do not parse, or the binding. -/
abbrev RouteItem := Except PolicyError ReviewedRouteBinding

inductive PolicyCall
  | updateLocalIpv4 (addresses : List Addr)
  | activateReviewedIpRoutes (bindings : List RouteItem)
  | matchReviewedIp (packet : ReviewedPacketTuple)
  | suspendTakeover (reason : String)
  | takeoverAvailable
  | matchesTakeoverSink (key : FlowKey)
  | suspend
  | isExactLocalIpv4 (value : Addr)
  | resolveDnsRule (qname : String)
  | registerAlias (domain aliasName : String) (ttl : ℤ)
  | replaceLeases (domain : String) (records : List (Addr × ℤ))
  | leaseFor (ip : Addr) (port : ℕ)
  | registerControlFlow (kind : ControlKind) (key : FlowKey) (domain : Option String) (ttl : ℤ)
      (generation : Option ℕ) (token : String)
  | matchControlFlow (key : FlowKey)
  | revokeControlFlow (token : String)
  | createRelayMapping (sampleIp : Addr) (samplePort : ℕ) (serverIp : Addr) (serverPort : ℕ)
      (relayIp : Addr) (relayPort : ℕ)
  | matchRelayForward (key : FlowKey)
  | matchRelayReverse (key : FlowKey)
  | consumeRelayTarget (sampleIp : Addr) (samplePort : ℕ)
  | activateRelayMapping (generation : ℕ)
  | relayClientMappingState (sampleIp : Addr) (samplePort : ℕ)
  | relayClientMappingActive (sampleIp : Addr) (samplePort : ℕ)
  | closeRelayMapping (generation : ℕ) (grace : Option ℚ)
  | drainExpiredLeases
  | close

namespace EgressPolicy

def readClock : Prog EgressPolicy ℚ := .locked fun s => (s.now,s.ticked)

/-- The loop over the bindings, with its unlocked reads of `local_ipv4`. -/
def prepareBindings : List RouteItem → Dict Addr ReviewedRouteBinding →
    Prog EgressPolicy (Except PolicyError (Dict Addr ReviewedRouteBinding))
  | [], prepared => pure (.ok prepared)
  | .error e::_, _ => pure (.error e)
  | .ok b::items, prepared =>
    match b.targetIpv4, b.sourceIpv4 with
    | .v4 _, .v4 _ =>
      if b.interfaceIndex ≤ 0 then
        pure (.error (.policyConfig "reviewed route binding is not canonical"))
      else if prepared.contains b.targetIpv4 then
        pure (.error (.policyConfig "reviewed route binding failed address validation"))
      else do
        let sourceLocal ← Prog.read fun s => decide (b.sourceIpv4 ∈ s.localIpv4)
        if !sourceLocal then
          return .error (.policyConfig "reviewed route binding failed address validation")
        let targetLocal ← Prog.read fun s => decide (b.targetIpv4 ∈ s.localIpv4)
        if targetLocal then
          return .error (.policyConfig "reviewed route binding failed address validation")
        prepareBindings items (prepared.set b.targetIpv4 b)
    | _, _ => pure (.error (.policyConfig "reviewed route binding is not canonical"))

def sameElements (xs ys : List Addr) : Bool := xs.all (ys.contains ·) && ys.all (xs.contains ·)

def activateReviewedIpRoutes (bindings : List RouteItem) : Prog EgressPolicy Reply := do
  match ← prepareBindings bindings Dict.empty with
  | .error e => return .raised e
  | .ok prepared =>
    let cfg ← Prog.read cfg
    if sameElements prepared.keys (cfg.reviewedIpv4Rules.map (·.ipv4)) then
      .locked (activateRoutesLocked prepared)
    else return .raised (.policyConfig
      "reviewed route bindings do not match configured IPv4 rules")

def resolveDnsRule (qname : String) : Prog EgressPolicy Reply := do
  let cfg ← Prog.read cfg
  match Hostname.normalizeHostname cfg.idna qname with
  | .error e => return .raised e
  | .ok qname =>
    let now ← readClock
    .locked (resolveDnsRuleLocked qname now)

def registerAlias (domain aliasName : String) (ttl : ℤ) : Prog EgressPolicy Reply := do
  let cfg ← Prog.read cfg
  match Hostname.normalizeHostname cfg.idna domain, Hostname.normalizeHostname cfg.idna aliasName with
  | .error e, _ => return .raised e
  | _, .error e => return .raised e
  | .ok domain, .ok aliasName =>
    if (cfg.matchAllowedDomain domain).isNone || ttl ≤ 0 then return .bool false
    .locked (registerAliasLocked domain aliasName ttl)

def replaceLeases (domain : String) (records : List (Addr × ℤ)) : Prog EgressPolicy Reply := do
  let cfg ← Prog.read cfg
  match Hostname.normalizeHostname cfg.idna domain with
  | .error e => return .raised e
  | .ok domain =>
    if (cfg.matchAllowedDomain domain).isNone then
      return .raised (.value "lease domain is not allowed")
    let now ← readClock
    .locked (replaceLeasesLocked domain (replacement domain now records))

def leaseFor (ip : Addr) (port : ℕ) : Prog EgressPolicy (Option Lease) :=
  if port ∈ allowedTcpPorts then do
    let now ← readClock
    .locked (leaseForLocked ip now)
  else pure none

/-- The permit is built with its own reading of the clock between the two locked blocks. -/
def fileControlFlow (kind : ControlKind) (key : FlowKey) (domain : String)
    (relay : Option RelayNatMapping) (ttl : ℤ) (generation : ℕ) (token : String) :
    Prog EgressPolicy Reply := do
  let now ← readClock
  .locked (fileControlFlowLocked kind key domain relay generation token (now+max 1 ttl))

def registerDns (cfg : PolicyConfig) (key : FlowKey) (ttl : ℤ) (token : String) :
    Prog EgressPolicy Reply :=
  if key.dstIp ≠ cfg.externalDnsServer ∨ key.dport ≠ 53 ∨ ¬(key.proto = .udp ∨ key.proto = .tcp) then
    pure (.raised (.value "invalid DNS control flow"))
  else fileControlFlow .dns key "" none ttl 0 token

/-- `normalize_hostname(domain) if domain else ""`. -/
def permitDomain (cfg : PolicyConfig) (domain : Option String) : Except PolicyError String :=
  match domain with
  | none => .ok ""
  | some domain => if domain = "" then .ok "" else Hostname.normalizeHostname cfg.idna domain

def registerTlsRelay (cfg : PolicyConfig) (key : FlowKey) (domain : Option String) (ttl : ℤ)
    (generation : ℕ) (token : String) : Prog EgressPolicy Reply := do
  match permitDomain cfg domain with
  | .error e => return .raised e
  | .ok domain =>
    match ← Prog.locked (relayFlowLocked key.proto key.dstIp key.dport domain generation) with
    | .error e => return .raised e
    | .ok m => fileControlFlow .tlsRelay key domain (some m) ttl generation token

def registerControlFlow (kind : ControlKind) (key : FlowKey) (domain : Option String) (ttl : ℤ)
    (generation : Option ℕ) (token : String) : Prog EgressPolicy Reply := do
  match ← Prog.read ensureOpen with
  | some e => return .raised e
  | none =>
    if !(← Prog.read (·.isExactLocalIpv4 key.srcIp)) then
      return .raised (.value "control flow source must be a local IPv4 address")
    let cfg ← Prog.read cfg
    match kind with
    | .dns => registerDns cfg key ttl token
    | .tlsRelay => registerTlsRelay cfg key domain ttl (generation.getD 0) token
    | .other _ => return .raised (.value "unknown control flow kind")

def matchControlFlow (key : FlowKey) : Prog EgressPolicy (Option ControlPermit) := do
  let now ← readClock
  .locked (matchControlFlowLocked key now)

def createRelayMapping (sampleIp : Addr) (samplePort : ℕ) (serverIp : Addr) (serverPort : ℕ)
    (relayIp : Addr) (relayPort : ℕ) : Prog EgressPolicy (Except PolicyError RelayNatMapping) := do
  match ← leaseFor serverIp serverPort with
  | none => return .error (.value "no current DNS lease for relay target")
  | some lease =>
    if !(← Prog.read (·.isExactLocalIpv4 sampleIp)) then
      return .error (.value "relay mapping endpoints must be local IPv4 addresses")
    if !(← Prog.read (·.isExactLocalIpv4 relayIp)) then
      return .error (.value "relay mapping endpoints must be local IPv4 addresses")
    let cfg ← Prog.read cfg
    if relayPort ≠ cfg.relayPort then return .error (.value "unexpected relay port")
    let now ← readClock
    .locked (createRelayMappingLocked lease sampleIp samplePort serverIp serverPort relayIp
      relayPort now)

/-- `_match_nat` with its reading of the clock. -/
def matchNat (table : RelayNat → Dict FlowKey RelayNatMapping) (key : FlowKey) :
    Prog EgressPolicy (Option RelayNatMapping) := do
  let now ← readClock
  .locked (matchNatLocked table key now)

def consumeRelayTarget (key : Addr × ℕ) : Prog EgressPolicy (Option RelayNatMapping) := do
  let now ← readClock
  .locked (consumeRelayTargetLocked key now)

def relayClientMappingState (key : Addr × ℕ) : Prog EgressPolicy ClientMappingState := do
  let now ← readClock
  .read (relayClientMappingStateLocked key now)

def mapReply {α : Type} (f : α → Reply) (p : Prog EgressPolicy α) : Prog EgressPolicy Reply :=
  p.bind fun a => .done (f a)

def mappingReply : Except PolicyError RelayNatMapping → Reply
  | .error e => .raised e
  | .ok m => .mapping (some m)

end EgressPolicy

open EgressPolicy in
/-- The program of each operation. -/
def PolicyCall.body : PolicyCall → Prog EgressPolicy Reply
  | updateLocalIpv4 addresses => .locked (updateLocalIpv4Locked addresses)
  | activateReviewedIpRoutes bindings => EgressPolicy.activateReviewedIpRoutes bindings
  | matchReviewedIp packet => .read fun s => .rule (matchReviewedIpLocked packet s)
  | suspendTakeover reason => .locked (EgressPolicy.suspendTakeover reason)
  | takeoverAvailable => .read fun s => .bool s.takeoverAvailableLocked
  | matchesTakeoverSink key => .read fun s => .bool (matchesTakeoverSinkLocked key s)
  | suspend => .locked fun s => (.unit,s.suspendLocked)
  | isExactLocalIpv4 value => .read fun s => .bool (s.isExactLocalIpv4 value)
  | resolveDnsRule qname => EgressPolicy.resolveDnsRule qname
  | registerAlias domain aliasName ttl => EgressPolicy.registerAlias domain aliasName ttl
  | replaceLeases domain records => EgressPolicy.replaceLeases domain records
  | leaseFor ip port => mapReply .lease (EgressPolicy.leaseFor ip port)
  | registerControlFlow kind key domain ttl generation token =>
    EgressPolicy.registerControlFlow kind key domain ttl generation token
  | matchControlFlow key => mapReply .permit (EgressPolicy.matchControlFlow key)
  | revokeControlFlow token => .locked fun s => (.unit,revokeControlFlowLocked token s)
  | createRelayMapping sampleIp samplePort serverIp serverPort relayIp relayPort =>
    mapReply mappingReply
      (EgressPolicy.createRelayMapping sampleIp samplePort serverIp serverPort relayIp relayPort)
  | matchRelayForward key => mapReply .mapping (matchNat RelayNat.forward key)
  | matchRelayReverse key => mapReply .mapping (matchNat RelayNat.reverse key)
  | consumeRelayTarget sampleIp samplePort =>
    mapReply .mapping (EgressPolicy.consumeRelayTarget (sampleIp,samplePort))
  | activateRelayMapping generation =>
    .locked fun s => (.bool (activateRelayMappingLocked generation s).1,
      (activateRelayMappingLocked generation s).2)
  | relayClientMappingState sampleIp samplePort =>
    mapReply .clientState (EgressPolicy.relayClientMappingState (sampleIp,samplePort))
  | relayClientMappingActive sampleIp samplePort =>
    mapReply (fun state => .bool (state = .active))
      (EgressPolicy.relayClientMappingState (sampleIp,samplePort))
  | closeRelayMapping generation grace =>
    .locked fun s => (.unit,closeRelayMappingLocked generation grace s)
  | drainExpiredLeases => .locked drainExpiredLeasesLocked
  | close => .locked fun s => (.unit,s.closeLocked)

/-- The locked sections, with the values that an operation brings to them. -/
inductive PolicySection
  | tick
  | updateLocalIpv4 (addresses : List Addr)
  | activateRoutes (prepared : Dict Addr ReviewedRouteBinding)
  | suspendTakeover (reason : String)
  | suspend
  | resolveDnsRule (qname : String) (now : ℚ)
  | registerAlias (domain aliasName : String) (ttl : ℤ)
  | replaceLeases (domain : String) (replacement : Dict Addr Lease)
  | leaseFor (ip : Addr) (now : ℚ)
  | relayFlow (proto : Proto) (dstIp : Addr) (dport : ℕ) (domain : String) (generation : ℕ)
  | fileControlFlow (kind : ControlKind) (key : FlowKey) (domain : String)
      (relay : Option RelayNatMapping) (generation : ℕ) (token : String) (expires : ℚ)
  | matchControlFlow (key : FlowKey) (now : ℚ)
  | revokeControlFlow (token : String)
  | createRelayMapping (lease : Lease) (sampleIp : Addr) (samplePort : ℕ) (serverIp : Addr)
      (serverPort : ℕ) (relayIp : Addr) (relayPort : ℕ) (now : ℚ)
  | matchForward (key : FlowKey) (now : ℚ)
  | matchReverse (key : FlowKey) (now : ℚ)
  | consumeRelayTarget (key : Addr × ℕ) (now : ℚ)
  | activateRelayMapping (generation : ℕ)
  | closeRelayMapping (generation : ℕ) (grace : Option ℚ)
  | drainExpiredLeases
  | close

namespace PolicySection

open EgressPolicy in
def apply : PolicySection → EgressPolicy → EgressPolicy
  | tick, s => s.ticked
  | updateLocalIpv4 addresses, s => (updateLocalIpv4Locked addresses s).2
  | activateRoutes prepared, s => (activateRoutesLocked prepared s).2
  | suspendTakeover reason, s => (EgressPolicy.suspendTakeover reason s).2
  | suspend, s => s.suspendLocked
  | resolveDnsRule qname now, s => (resolveDnsRuleLocked qname now s).2
  | registerAlias domain aliasName ttl, s => (registerAliasLocked domain aliasName ttl s).2
  | replaceLeases domain replacement, s => (replaceLeasesLocked domain replacement s).2
  | leaseFor ip now, s => (leaseForLocked ip now s).2
  | relayFlow proto dstIp dport domain generation, s =>
    (relayFlowLocked proto dstIp dport domain generation s).2
  | fileControlFlow kind key domain relay generation token expires, s =>
    (fileControlFlowLocked kind key domain relay generation token expires s).2
  | matchControlFlow key now, s => (matchControlFlowLocked key now s).2
  | revokeControlFlow token, s => revokeControlFlowLocked token s
  | createRelayMapping lease sampleIp samplePort serverIp serverPort relayIp relayPort now, s =>
    (createRelayMappingLocked lease sampleIp samplePort serverIp serverPort relayIp relayPort
      now s).2
  | matchForward key now, s => (matchNatLocked RelayNat.forward key now s).2
  | matchReverse key now, s => (matchNatLocked RelayNat.reverse key now s).2
  | consumeRelayTarget key now, s => (consumeRelayTargetLocked key now s).2
  | activateRelayMapping generation, s => (activateRelayMappingLocked generation s).2
  | closeRelayMapping generation grace, s => closeRelayMappingLocked generation grace s
  | drainExpiredLeases, s => (drainExpiredLeasesLocked s).2
  | close, s => s.closeLocked

/-- A teardown grace that the tombstone of the closed mapping outlives. -/
def graceOk : PolicySection → Prop
  | closeRelayMapping _ (some grace) => grace ≤ relayTombstoneSeconds
  | _ => True

end PolicySection

/-- The parts of the state that authorise or forbid whole groups of packets. -/
structure SameControl (s s' : EgressPolicy) : Prop where
  cfg : s'.cfg = s.cfg
  closed : s'.closed = s.closed
  egressSuspended : s'.egressSuspended = s.egressSuspended
  takeoverSuspended : s'.takeoverSuspended = s.takeoverSuspended
  localIpv4 : s'.localIpv4 = s.localIpv4
  reviewedRoutesActivated : s'.reviewedRoutesActivated = s.reviewedRoutesActivated
  reviewedRouteBindings : s'.reviewedRouteBindings = s.reviewedRouteBindings

theorem SameControl.refl (s : EgressPolicy) : SameControl s s := ⟨rfl,rfl,rfl,rfl,rfl,rfl,rfl⟩

theorem EgressPolicy.matchNatLocked_sameControl {s : EgressPolicy}
    (table : RelayNat → Dict FlowKey RelayNatMapping) (key : FlowKey) (now : ℚ) :
    SameControl s (matchNatLocked table key now s).2 := by
  unfold matchNatLocked
  split_ifs
  · exact .refl s
  · dsimp only
    split
    · exact ⟨rfl,rfl,rfl,rfl,rfl,rfl,rfl⟩
    · split_ifs <;> exact ⟨rfl,rfl,rfl,rfl,rfl,rfl,rfl⟩

namespace PolicySection

/-- The sections that change more than tables and the clock. -/
def isControl : PolicySection → Bool
  | updateLocalIpv4 _ | activateRoutes _ | suspendTakeover _ | suspend | close => true
  | _ => false

open EgressPolicy in
theorem sameControl (sec : PolicySection) (s : EgressPolicy) (h : sec.isControl = false) :
    SameControl s (sec.apply s) := by
  have hsame : ∀ now, SameControl s (s.cleanupLocked now) :=
    fun _ => ⟨rfl,rfl,rfl,rfl,rfl,rfl,rfl⟩
  cases sec with
  | tick => exact ⟨rfl,rfl,rfl,rfl,rfl,rfl,rfl⟩
  | resolveDnsRule qname now =>
    simp only [apply,resolveDnsRuleLocked]
    split_ifs <;> exact hsame now
  | registerAlias domain aliasName ttl =>
    simp only [apply,registerAliasLocked]
    split <;> exact ⟨rfl,rfl,rfl,rfl,rfl,rfl,rfl⟩
  | replaceLeases domain replacement =>
    simp only [apply,replaceLeasesLocked]
    split <;> exact ⟨rfl,rfl,rfl,rfl,rfl,rfl,rfl⟩
  | leaseFor ip now =>
    simp only [apply,leaseForLocked]
    split_ifs
    · exact .refl s
    · exact hsame now
  | relayFlow proto dstIp dport domain generation =>
    simp only [apply,relayFlowLocked]
    split
    · exact .refl s
    · split
      · exact ⟨rfl,rfl,rfl,rfl,rfl,rfl,rfl⟩
      · split_ifs <;> exact ⟨rfl,rfl,rfl,rfl,rfl,rfl,rfl⟩
  | fileControlFlow kind key domain relay generation token expires =>
    simp only [apply,fileControlFlowLocked]
    split
    · exact .refl s
    · split_ifs <;> exact ⟨rfl,rfl,rfl,rfl,rfl,rfl,rfl⟩
  | matchControlFlow key now =>
    simp only [apply,matchControlFlowLocked]
    split_ifs
    · exact .refl s
    · split
      · exact hsame now
      · split_ifs <;> exact ⟨rfl,rfl,rfl,rfl,rfl,rfl,rfl⟩
  | revokeControlFlow token =>
    simp only [apply,revokeControlFlowLocked]
    split <;> exact ⟨rfl,rfl,rfl,rfl,rfl,rfl,rfl⟩
  | createRelayMapping lease sampleIp samplePort serverIp serverPort relayIp relayPort now =>
    simp only [apply,createRelayMappingLocked]
    split
    · exact .refl s
    · split
      · exact hsame now
      · split_ifs <;> exact ⟨rfl,rfl,rfl,rfl,rfl,rfl,rfl⟩
  | matchForward key now => exact matchNatLocked_sameControl _ key now
  | matchReverse key now => exact matchNatLocked_sameControl _ key now
  | consumeRelayTarget key now =>
    simp only [apply,consumeRelayTargetLocked]
    split
    · exact hsame now
    · split_ifs <;> exact ⟨rfl,rfl,rfl,rfl,rfl,rfl,rfl⟩
  | activateRelayMapping generation =>
    simp only [apply,activateRelayMappingLocked]
    split
    · exact .refl s
    · split_ifs <;> exact ⟨rfl,rfl,rfl,rfl,rfl,rfl,rfl⟩
  | closeRelayMapping generation grace =>
    simp only [apply,closeRelayMappingLocked]
    split
    · exact .refl s
    · split_ifs <;> exact ⟨rfl,rfl,rfl,rfl,rfl,rfl,rfl⟩
  | drainExpiredLeases => exact ⟨rfl,rfl,rfl,rfl,rfl,rfl,rfl⟩
  | updateLocalIpv4 _ => cases h
  | activateRoutes _ => cases h
  | suspendTakeover _ => cases h
  | suspend => cases h
  | close => cases h

end PolicySection
namespace EgressPolicy

variable {s : EgressPolicy}

theorem matchNatLocked_clock (table : RelayNat → Dict FlowKey RelayNatMapping) (key : FlowKey)
    (now : ℚ) : (matchNatLocked table key now s).2.clock = s.clock := by
  unfold matchNatLocked
  split_ifs
  · rfl
  · dsimp only
    split
    · rfl
    · split_ifs <;> rfl

theorem consumeRelayTargetLocked_clock (key : Addr × ℕ) (now : ℚ) :
    (consumeRelayTargetLocked key now s).2.clock = s.clock := by
  unfold consumeRelayTargetLocked
  dsimp only
  split
  · rfl
  · split_ifs <;> rfl

theorem fileControlFlowLocked_clock (kind : ControlKind) (key : FlowKey) (domain : String)
    (relay : Option RelayNatMapping) (generation : ℕ) (token : String) (expires : ℚ) :
    (fileControlFlowLocked kind key domain relay generation token expires s).2.clock = s.clock := by
  unfold fileControlFlowLocked
  split
  · rfl
  · split_ifs <;> rfl

end EgressPolicy

open EgressPolicy in
theorem PolicySection.clock (sec : PolicySection) (s : EgressPolicy) :
    (sec.apply s).clock = s.clock ∨ (sec.apply s).clock = s.clock.next := by
  cases sec with
  | tick => exact .inr rfl
  | updateLocalIpv4 addresses =>
    rcases updateLocalIpv4Locked_cases addresses s with hu | ⟨-,hu⟩
    · rw [apply,hu]
      exact .inl rfl
    · exact .inr hu.clock
  | activateRoutes prepared =>
    simp only [apply,activateRoutesLocked]
    split
    · exact .inl rfl
    · split_ifs <;> exact .inl rfl
  | suspendTakeover reason =>
    simp only [apply,EgressPolicy.suspendTakeover]
    split_ifs <;> exact .inl rfl
  | suspend => exact .inl rfl
  | resolveDnsRule qname now =>
    simp only [apply,resolveDnsRuleLocked]
    split_ifs <;> exact .inl rfl
  | registerAlias domain aliasName ttl =>
    simp only [apply,registerAliasLocked]
    split
    · exact .inl rfl
    · exact .inr rfl
  | replaceLeases domain replacement =>
    simp only [apply,replaceLeasesLocked]
    split <;> exact .inl rfl
  | leaseFor ip now =>
    simp only [apply,leaseForLocked]
    split_ifs <;> exact .inl rfl
  | relayFlow proto dstIp dport domain generation =>
    simp only [apply,relayFlowLocked]
    split
    · exact .inl rfl
    · split
      · exact .inr rfl
      · split_ifs <;> exact .inr rfl
  | fileControlFlow kind key domain relay generation token expires =>
    exact .inl (fileControlFlowLocked_clock ..)
  | matchControlFlow key now =>
    simp only [apply,matchControlFlowLocked]
    split_ifs
    · exact .inl rfl
    · split
      · exact .inl rfl
      · split_ifs <;> exact .inl rfl
  | revokeControlFlow token =>
    simp only [apply,revokeControlFlowLocked]
    split <;> exact .inl rfl
  | createRelayMapping lease sampleIp samplePort serverIp serverPort relayIp relayPort now =>
    simp only [apply,createRelayMappingLocked]
    split
    · exact .inl rfl
    · split
      · exact .inl rfl
      · split_ifs <;> exact .inl rfl
  | matchForward key now => exact .inl (matchNatLocked_clock ..)
  | matchReverse key now => exact .inl (matchNatLocked_clock ..)
  | consumeRelayTarget key now => exact .inl (consumeRelayTargetLocked_clock ..)
  | activateRelayMapping generation =>
    simp only [apply,activateRelayMappingLocked]
    split
    · exact .inl rfl
    · split_ifs
      · exact .inl rfl
      · exact .inl rfl
      · exact .inl rfl
      · exact .inr rfl
  | closeRelayMapping generation grace =>
    simp only [apply,closeRelayMappingLocked]
    split
    · exact .inl rfl
    · split_ifs <;> exact .inr rfl
  | drainExpiredLeases => exact .inr rfl
  | close => exact .inl rfl

def PolicyCall.graceOk : PolicyCall → Prop
  | closeRelayMapping _ (some grace) => grace ≤ relayTombstoneSeconds
  | _ => True

/-- The sections an operation may run. -/
def PolicyCall.Uses : PolicyCall → PolicySection → Prop
  | updateLocalIpv4 addresses, sec => sec = .updateLocalIpv4 addresses
  | activateReviewedIpRoutes _, sec => ∃ prepared, sec = .activateRoutes prepared
  | suspendTakeover reason, sec => sec = .suspendTakeover reason
  | suspend, sec => sec = .suspend
  | resolveDnsRule _, sec => sec = .tick ∨ ∃ qname now, sec = .resolveDnsRule qname now
  | registerAlias _ _ ttl, sec => ∃ domain aliasName, sec = .registerAlias domain aliasName ttl
  | replaceLeases _ _, sec => sec = .tick ∨ ∃ domain replacement,
      sec = .replaceLeases domain replacement
  | leaseFor ip _, sec => sec = .tick ∨ ∃ now, sec = .leaseFor ip now
  | registerControlFlow _ key _ _ generation _, sec => sec = .tick ∨
      (∃ domain, sec = .relayFlow key.proto key.dstIp key.dport domain (generation.getD 0)) ∨
      ∃ kind domain relay g token expires,
        sec = .fileControlFlow kind key domain relay g token expires
  | matchControlFlow key, sec => sec = .tick ∨ ∃ now, sec = .matchControlFlow key now
  | revokeControlFlow token, sec => sec = .revokeControlFlow token
  | createRelayMapping sampleIp samplePort serverIp serverPort relayIp relayPort, sec =>
      sec = .tick ∨ (∃ now, sec = .leaseFor serverIp now) ∨ ∃ lease now,
        sec = .createRelayMapping lease sampleIp samplePort serverIp serverPort relayIp relayPort now
  | matchRelayForward key, sec => sec = .tick ∨ ∃ now, sec = .matchForward key now
  | matchRelayReverse key, sec => sec = .tick ∨ ∃ now, sec = .matchReverse key now
  | consumeRelayTarget sampleIp samplePort, sec =>
      sec = .tick ∨ ∃ now, sec = .consumeRelayTarget (sampleIp,samplePort) now
  | activateRelayMapping generation, sec => sec = .activateRelayMapping generation
  | relayClientMappingState _ _, sec => sec = .tick
  | relayClientMappingActive _ _, sec => sec = .tick
  | closeRelayMapping generation grace, sec => sec = .closeRelayMapping generation grace
  | drainExpiredLeases, sec => sec = .drainExpiredLeases
  | close, sec => sec = .close
  | _, _ => False

/-- What one atomic step of an operation does to the state: nothing, or one of its sections. -/
def IsSection (P : PolicySection → Prop) (f : EgressPolicy → EgressPolicy) : Prop :=
  f = id ∨ ∃ sec : PolicySection, f = sec.apply ∧ P sec

namespace EgressPolicy

variable {P : PolicySection → Prop}

theorem isSection_id : IsSection P id := .inl rfl

theorem isSection_of (sec : PolicySection) (h : P sec) : IsSection P sec.apply := .inr ⟨sec,rfl,h⟩

theorem readClock_each (h : P .tick) : readClock.Each (IsSection P) :=
  Prog.each_locked (isSection_of .tick h)

theorem mapReply_each {α : Type} {f : α → Reply} {p : Prog EgressPolicy α}
    (h : p.Each (IsSection P)) : (mapReply f p).Each (IsSection P) :=
  h.bind fun _ => trivial

theorem prepareBindings_each (items : List RouteItem) (prepared : Dict Addr ReviewedRouteBinding) :
    (prepareBindings items prepared).Each (IsSection P) := by
  induction items generalizing prepared with
  | nil => trivial
  | cons item items ih =>
    cases item with
    | error e => trivial
    | ok b =>
      unfold prepareBindings
      split
      · split_ifs
        · trivial
        · trivial
        · refine Prog.Each.bind (Prog.each_read isSection_id) fun sourceLocal => ?_
          cases sourceLocal with
          | false => trivial
          | true =>
            refine Prog.Each.bind (Prog.each_read isSection_id) fun targetLocal => ?_
            cases targetLocal with
            | false => exact ih _
            | true => trivial
      · trivial

theorem activateReviewedIpRoutes_each (bindings : List RouteItem)
    (h : ∀ prepared, P (.activateRoutes prepared)) :
    (activateReviewedIpRoutes bindings).Each (IsSection P) := by
  refine Prog.Each.bind (prepareBindings_each bindings Dict.empty) fun r => ?_
  cases r with
  | error e => trivial
  | ok prepared =>
    refine Prog.Each.bind (Prog.each_read isSection_id) fun cfg => ?_
    split
    · exact Prog.each_locked (isSection_of (.activateRoutes prepared) (h prepared))
    · trivial

theorem leaseFor_each (ip : Addr) (port : ℕ) (ht : P .tick) (h : ∀ now, P (.leaseFor ip now)) :
    (leaseFor ip port).Each (IsSection P) := by
  unfold leaseFor
  split
  · exact (readClock_each ht).bind fun now =>
      Prog.each_locked (isSection_of (.leaseFor ip now) (h now))
  · trivial

theorem fileControlFlow_each (kind : ControlKind) (key : FlowKey) (domain : String)
    (relay : Option RelayNatMapping) (ttl : ℤ) (generation : ℕ) (token : String) (ht : P .tick)
    (h : ∀ expires, P (.fileControlFlow kind key domain relay generation token expires)) :
    (fileControlFlow kind key domain relay ttl generation token).Each (IsSection P) :=
  (readClock_each ht).bind fun _ => Prog.each_locked (isSection_of _ (h _))

theorem registerControlFlow_each (kind : ControlKind) (key : FlowKey) (domain : Option String)
    (ttl : ℤ) (generation : Option ℕ) (token : String) :
    (registerControlFlow kind key domain ttl generation token).Each
      (IsSection (PolicyCall.registerControlFlow kind key domain ttl generation token).Uses) := by
  refine Prog.Each.bind (Prog.each_read isSection_id) fun opened => ?_
  cases opened with
  | some e => trivial
  | none =>
    refine Prog.Each.bind (Prog.each_read isSection_id) fun isLocal => ?_
    cases isLocal with
    | false => trivial
    | true =>
      refine Prog.Each.bind (Prog.each_read isSection_id) fun cfg => ?_
      cases kind with
      | dns =>
        change (registerDns cfg key ttl token).Each _
        unfold registerDns
        split
        · trivial
        · exact fileControlFlow_each _ _ _ _ _ _ _ (.inl rfl)
            fun _ => .inr (.inr ⟨_,_,_,_,_,_,rfl⟩)
      | tlsRelay =>
        change (registerTlsRelay cfg key domain ttl (generation.getD 0) token).Each _
        unfold registerTlsRelay
        cases permitDomain cfg domain with
        | error e => trivial
        | ok domain =>
          refine Prog.Each.bind (Prog.each_locked (isSection_of (.relayFlow key.proto key.dstIp
            key.dport domain (generation.getD 0)) (.inr (.inl ⟨_,rfl⟩)))) fun r => ?_
          cases r with
          | error e => trivial
          | ok m =>
            exact fileControlFlow_each _ _ _ _ _ _ _ (.inl rfl)
              fun _ => .inr (.inr ⟨_,_,_,_,_,_,rfl⟩)
      | other kind => trivial

theorem createRelayMapping_each (sampleIp : Addr) (samplePort : ℕ) (serverIp : Addr)
    (serverPort : ℕ) (relayIp : Addr) (relayPort : ℕ) :
    (createRelayMapping sampleIp samplePort serverIp serverPort relayIp relayPort).Each
      (IsSection (PolicyCall.createRelayMapping sampleIp samplePort serverIp serverPort relayIp
        relayPort).Uses) := by
  refine Prog.Each.bind (leaseFor_each serverIp serverPort (.inl rfl)
    fun _ => .inr (.inl ⟨_,rfl⟩)) fun lease => ?_
  cases lease with
  | none => trivial
  | some lease =>
    refine Prog.Each.bind (Prog.each_read isSection_id) fun sampleLocal => ?_
    cases sampleLocal with
    | false => trivial
    | true =>
      refine Prog.Each.bind (Prog.each_read isSection_id) fun relayLocal => ?_
      cases relayLocal with
      | false => trivial
      | true =>
        refine Prog.Each.bind (Prog.each_read isSection_id) fun cfg => ?_
        split_ifs
        · trivial
        · exact (readClock_each (.inl rfl)).bind fun now => Prog.each_locked (isSection_of
            (.createRelayMapping lease sampleIp samplePort serverIp serverPort relayIp relayPort now)
            (.inr (.inr ⟨_,_,rfl⟩)))

end EgressPolicy

open EgressPolicy in
theorem PolicyCall.body_each (c : PolicyCall) : c.body.Each (IsSection c.Uses) := by
  cases c with
  | updateLocalIpv4 addresses =>
    exact Prog.each_locked (isSection_of (.updateLocalIpv4 addresses) rfl)
  | activateReviewedIpRoutes bindings => exact activateReviewedIpRoutes_each bindings fun _ => ⟨_,rfl⟩
  | matchReviewedIp packet => exact Prog.each_read isSection_id
  | suspendTakeover reason => exact Prog.each_locked (isSection_of (.suspendTakeover reason) rfl)
  | takeoverAvailable => exact Prog.each_read isSection_id
  | matchesTakeoverSink key => exact Prog.each_read isSection_id
  | suspend => exact Prog.each_locked (isSection_of .suspend rfl)
  | isExactLocalIpv4 value => exact Prog.each_read isSection_id
  | resolveDnsRule qname =>
    refine Prog.Each.bind (Prog.each_read isSection_id) fun cfg => ?_
    cases Hostname.normalizeHostname cfg.idna qname with
    | error e => trivial
    | ok qname =>
      exact (readClock_each (.inl rfl)).bind fun now =>
        Prog.each_locked (isSection_of (.resolveDnsRule qname now) (.inr ⟨_,_,rfl⟩))
  | registerAlias domain aliasName ttl =>
    refine Prog.Each.bind (Prog.each_read isSection_id) fun cfg => ?_
    split
    · trivial
    · trivial
    · split_ifs
      · trivial
      · exact Prog.each_locked (isSection_of (.registerAlias _ _ ttl) ⟨_,_,rfl⟩)
  | replaceLeases domain records =>
    refine Prog.Each.bind (Prog.each_read isSection_id) fun cfg => ?_
    split
    · trivial
    · split_ifs
      · trivial
      · exact (readClock_each (.inl rfl)).bind fun now =>
          Prog.each_locked (isSection_of (.replaceLeases _ _) (.inr ⟨_,_,rfl⟩))
  | leaseFor ip port =>
    exact mapReply_each (leaseFor_each ip port (.inl rfl) fun _ => .inr ⟨_,rfl⟩)
  | registerControlFlow kind key domain ttl generation token => exact registerControlFlow_each ..
  | matchControlFlow key =>
    exact mapReply_each ((readClock_each (.inl rfl)).bind fun now =>
      Prog.each_locked (isSection_of (.matchControlFlow key now) (.inr ⟨_,rfl⟩)))
  | revokeControlFlow token => exact Prog.each_locked (isSection_of (.revokeControlFlow token) rfl)
  | createRelayMapping sampleIp samplePort serverIp serverPort relayIp relayPort =>
    exact mapReply_each (createRelayMapping_each ..)
  | matchRelayForward key =>
    exact mapReply_each ((readClock_each (.inl rfl)).bind fun now =>
      Prog.each_locked (isSection_of (.matchForward key now) (.inr ⟨_,rfl⟩)))
  | matchRelayReverse key =>
    exact mapReply_each ((readClock_each (.inl rfl)).bind fun now =>
      Prog.each_locked (isSection_of (.matchReverse key now) (.inr ⟨_,rfl⟩)))
  | consumeRelayTarget sampleIp samplePort =>
    exact mapReply_each ((readClock_each (.inl rfl)).bind fun now =>
      Prog.each_locked (isSection_of (.consumeRelayTarget (sampleIp,samplePort) now)
        (.inr ⟨_,rfl⟩)))
  | activateRelayMapping generation =>
    exact Prog.each_locked (isSection_of (.activateRelayMapping generation) rfl)
  | relayClientMappingState sampleIp samplePort =>
    refine mapReply_each (Prog.Each.bind (readClock_each ?_) fun now => Prog.each_read isSection_id)
    rfl
  | relayClientMappingActive sampleIp samplePort =>
    refine mapReply_each (Prog.Each.bind (readClock_each ?_) fun now => Prog.each_read isSection_id)
    rfl
  | closeRelayMapping generation grace =>
    exact Prog.each_locked (isSection_of (.closeRelayMapping generation grace) rfl)
  | drainExpiredLeases => exact Prog.each_locked (isSection_of .drainExpiredLeases rfl)
  | close => exact Prog.each_locked (isSection_of .close rfl)

theorem PolicyCall.body_keeps {I : EgressPolicy → Prop} (c : PolicyCall)
    (h : ∀ sec, c.Uses sec → ∀ s, I s → I (sec.apply s)) :
    c.body.Each fun f => ∀ s, I s → I (f s) := by
  refine c.body_each.mono fun f hf s hs => ?_
  rcases hf with rfl | ⟨sec,rfl,hu⟩
  · exact hs
  · exact h sec hu s hs

theorem PolicyCall.seen (c : PolicyCall) {s : EgressPolicy} {t : ℚ} (h : s.clock.Seen t) :
    (c.body.run s).2.clock.Seen t := by
  have hkeep := c.body_keeps (I:=fun s => s.clock.Seen t) fun sec _ s hs => by
    rcases sec.clock s with he | he
    · rw [he]
      exact hs
    · rw [he]
      exact Clock.seen_next hs
  exact (hkeep.ensures.run h).1

namespace EgressPolicy

variable {s : EgressPolicy}

@[simp] theorem mapReply_run {α : Type} (f : α → Reply) (p : Prog EgressPolicy α) :
    (mapReply f p).run s = (f (p.run s).1,(p.run s).2) := by
  simp [mapReply]

theorem leaseFor_run (ip : Addr) (port : ℕ) : (leaseFor ip port).run s =
    if port ∈ allowedTcpPorts then leaseForLocked ip s.now s.ticked else (none,s) := by
  unfold leaseFor
  split_ifs <;> rfl

theorem registerControlFlow_run (kind : ControlKind) (key : FlowKey) (domain : Option String)
    (ttl : ℤ) (generation : Option ℕ) (token : String) :
    (registerControlFlow kind key domain ttl generation token).run s =
      match s.ensureOpen with
      | some e => (.raised e,s)
      | none =>
        if s.isExactLocalIpv4 key.srcIp then
          match kind with
          | .dns => (registerDns s.cfg key ttl token).run s
          | .tlsRelay => (registerTlsRelay s.cfg key domain ttl (generation.getD 0) token).run s
          | .other _ => (.raised (.value "unknown control flow kind"),s)
        else (.raised (.value "control flow source must be a local IPv4 address"),s) := by
  simp only [registerControlFlow,Prog.bind_eq,Prog.run_bind,Prog.run_read]
  cases s.ensureOpen with
  | some e => rfl
  | none =>
    cases hl : s.isExactLocalIpv4 key.srcIp with
    | false => simp [hl]
    | true => cases kind <;> simp [hl]

/-- A mapping is made by the last section of the operation, on the state that the lease
lookup leaves. -/
theorem createRelayMapping_run_ok {sampleIp : Addr} {samplePort : ℕ} {serverIp : Addr}
    {serverPort : ℕ} {relayIp : Addr} {relayPort : ℕ} {m : RelayNatMapping}
    (h : ((createRelayMapping sampleIp samplePort serverIp serverPort relayIp relayPort).run s).1 =
      .ok m) :
    ∃ lease s₁, (leaseFor serverIp serverPort).run s = (some lease,s₁) ∧
      s₁.isExactLocalIpv4 sampleIp = true ∧ s₁.isExactLocalIpv4 relayIp = true ∧
      relayPort = s₁.cfg.relayPort ∧
      (createRelayMapping sampleIp samplePort serverIp serverPort relayIp relayPort).run s =
        createRelayMappingLocked lease sampleIp samplePort serverIp serverPort relayIp relayPort
          s₁.now s₁.ticked := by
  unfold createRelayMapping at h ⊢
  rcases hlease : (leaseFor serverIp serverPort).run s with ⟨_ | lease,s₁⟩
  · simp [hlease] at h
  · simp only [Prog.bind_eq,Prog.run_bind,hlease,Prog.run_read] at h ⊢
    by_cases hs : s₁.isExactLocalIpv4 sampleIp = true
    · by_cases hr : s₁.isExactLocalIpv4 relayIp = true
      · by_cases hp : relayPort = s₁.cfg.relayPort
        · refine ⟨lease,s₁,rfl,hs,hr,hp,?_⟩
          simp only [hs,hr,hp,Bool.not_true,Bool.false_eq_true,if_false,Prog.run_bind,Prog.run_read,
            ne_eq,not_true_eq_false]
          rfl
        · simp [hs,hr,hp] at h
      · simp [hs,hr] at h
    · simp [hs] at h

end EgressPolicy

theorem PolicyCall.graceOk_of_uses {c : PolicyCall} (hc : c.graceOk) {sec : PolicySection}
    (h : c.Uses sec) : sec.graceOk := by
  cases sec with
  | closeRelayMapping generation grace =>
    cases c with
    | closeRelayMapping generation' grace' =>
      cases h
      cases grace <;> exact hc
    | _ => simp [Uses] at h
  | _ => trivial

/-- A small configuration with two allowed domains, for runs on fixed inputs. -/
def PolicyConfig.twoDomains : PolicyConfig where
  allowedDomains := ["a.test","b.test"]
  allowedWildcards := []
  nonAllowedAction := .drop
  relayPort := 8443
  externalDnsServer := .dotted 8 8 8 8
  takeoverIpv4 := none
  reviewedIpv4Rules := []
  reviewedMatchIndex := Dict.empty
  idna := some

/-- A lease, a mapping of it, the relay's pick-up, and the end of the connection. -/
def PolicyCall.relayedConnection : List PolicyCall :=
  [.replaceLeases "a.test" [(.dotted 93 184 216 34,60)],
    .createRelayMapping (.dotted 10 0 0 5) 50000 (.dotted 93 184 216 34) 443 (.dotted 10 0 0 5) 8443,
    .consumeRelayTarget (.dotted 10 0 0 5) 50000,.activateRelayMapping 1,
    .closeRelayMapping 1 (some 5)]

end FakeNetNG
