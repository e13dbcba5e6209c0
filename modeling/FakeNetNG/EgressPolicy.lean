import FakeNetNG.RelayNat
import FakeNetNG.Hostname

/-!
# The egress policy

The state of `EgressPolicy` and its operations. A function named after a locked
block of the source is one section; an operation is the program of its sections and
unlocked reads, in the order of the source, so that a clock reading or an openness
check made before the lock is taken can be stale when the section runs.

The two permit dictionaries share their `ControlPermit` objects. As for relay
mappings, the stored record holds the fields that are never assigned, with a serial
number for the object's identity, and `expiry` the assigned one.
-/

namespace FakeNetNG

def expiredLeaseEventLimit : ℕ := 1024

/-- The only port list the constructor accepts. -/
def allowedTcpPorts : List ℕ := [443]

structure Lease where
  domain : String
  ip : Addr
  expiresAt : ℚ
  deriving DecidableEq

inductive ControlKind
  | dns | tlsRelay | other (kind : String)
  deriving DecidableEq

structure ControlPermit where
  serial : ℕ
  token : String
  kind : ControlKind
  key : FlowKey
  domain : String
  deriving DecidableEq

/-- `_permits_by_key` and `_permits_by_token`. -/
structure PermitTable where
  serial : ℕ
  byKey : Dict FlowKey ControlPermit
  byToken : Dict String ControlPermit
  expiry : ℕ → ℚ

structure ReviewedIPv4Rule where
  ruleId : String
  protocol : Proto
  ipv4 : Addr
  port : Option ℕ
  deriving DecidableEq

/-- One value of the match index: a rule for all ports, or a table of exact ports. -/
inductive ReviewedTarget
  | all (rule : ReviewedIPv4Rule)
  | ports (table : Dict ℕ ReviewedIPv4Rule)

structure ReviewedRouteBinding where
  targetIpv4 : Addr
  sourceIpv4 : Addr
  interfaceIndex : ℤ
  deriving DecidableEq

structure ReviewedPacketTuple where
  protocol : Proto
  sourceIpv4 : Addr
  sourcePort : ℕ
  targetIpv4 : Addr
  targetPort : ℕ
  interfaceIndex : ℤ
  subinterfaceIndex : ℤ
  outbound : Bool
  deriving DecidableEq

inductive NonAllowedAction
  | divert | drop
  deriving DecidableEq

/-- What the constructor fixes, and the IDNA codec. -/
structure PolicyConfig where
  allowedDomains : List String
  allowedWildcards : List String
  nonAllowedAction : NonAllowedAction
  relayPort : ℕ
  externalDnsServer : Addr
  takeoverIpv4 : Option Addr
  reviewedIpv4Rules : List ReviewedIPv4Rule
  reviewedMatchIndex : Dict (Proto × Addr) ReviewedTarget
  idna : String → Option String

/-- Canonical entry covering `name`: an exact domain, or a wildcard for its strict
subdomains. -/
def PolicyConfig.matchAllowedDomain (cfg : PolicyConfig) (name : String) : Option String :=
  if name ∈ cfg.allowedDomains then some name
  else cfg.allowedWildcards.find? fun pattern =>
    let suffix := pattern.toList.drop 1
    suffix.isSuffixOf name.toList && suffix.length < name.toList.length

structure EgressPolicy where
  cfg : PolicyConfig
  clock : Clock
  closed : Bool
  egressSuspended : Bool
  takeoverSuspended : Bool
  takeoverSuspendReason : Option String
  localIpv4 : List Addr
  reviewedRoutesActivated : Bool
  reviewedRouteBindings : Dict Addr ReviewedRouteBinding
  leases : Dict String (Dict Addr Lease)
  aliases : Dict String (String × ℚ)
  permits : PermitTable
  nat : RelayNat
  expiredLeaseEvents : List (String × Addr)

/-- `{domain: {} for domain in allowed_domains}`. -/
def emptyLeases (domains : List String) : Dict String (Dict Addr Lease) :=
  domains.foldl (fun d domain => d.set domain Dict.empty) Dict.empty

namespace PermitTable

def empty : PermitTable := ⟨0,Dict.empty,Dict.empty,fun _ => 0⟩

def clear (t : PermitTable) : PermitTable :=
  { t with byKey := Dict.empty, byToken := Dict.empty }

/-- Remove one entry of the token table, and the permit's own key. -/
def remove (t : PermitTable) (e : String × ControlPermit) : PermitTable :=
  { t with
    byToken := t.byToken.pop e.1
    byKey := t.byKey.popIf e.2.key e.2 }

/-- Remove every permit of the token table that satisfies `p`. -/
def drop (t : PermitTable) (p : ControlPermit → Bool) : PermitTable :=
  (t.byToken.entries.filter fun e => p e.2).foldl remove t

def cleanup (t : PermitTable) (now : ℚ) : PermitTable :=
  t.drop fun permit => t.expiry permit.serial ≤ now

/-- File a new permit; a permit of the same key loses its token. -/
def file (t : PermitTable) (token : String) (kind : ControlKind) (key : FlowKey)
    (domain : String) (expires : ℚ) : PermitTable :=
  let permit : ControlPermit := ⟨t.serial,token,kind,key,domain⟩
  let byToken := match t.byKey.get? key with
    | none => t.byToken
    | some previous => t.byToken.pop previous.token
  { serial := t.serial+1
    byKey := t.byKey.set key permit
    byToken := byToken.set token permit
    expiry := Function.update t.expiry t.serial expires }

def refresh (t : PermitTable) (permit : ControlPermit) (now : ℚ) : PermitTable :=
  { t with expiry := Function.update t.expiry permit.serial (now+relayIdleTimeout+30) }

end PermitTable

namespace EgressPolicy

def init (cfg : PolicyConfig) (localIpv4 : List Addr) (clock : Clock) : EgressPolicy where
  cfg := cfg
  clock := clock
  closed := false
  egressSuspended := false
  takeoverSuspended := false
  takeoverSuspendReason := none
  localIpv4 := Addr.localIpv4Snapshot localIpv4
  reviewedRoutesActivated := false
  reviewedRouteBindings := Dict.empty
  leases := emptyLeases cfg.allowedDomains
  aliases := Dict.empty
  permits := PermitTable.empty
  nat := RelayNat.empty
  expiredLeaseEvents := []

def now (s : EgressPolicy) : ℚ := s.clock.now

/-- The state after one reading of the clock. -/
def ticked (s : EgressPolicy) : EgressPolicy := { s with clock := s.clock.next }

/-- `_ensure_open`; `none` when it does not raise. -/
def ensureOpen (s : EgressPolicy) : Option PolicyError :=
  if s.closed then some (.runtime "egress policy is closed")
  else if s.egressSuspended then
    some (.runtime "egress policy is suspended after address change")
  else none

def isExactLocalIpv4 (s : EgressPolicy) (value : Addr) : Bool :=
  value ∈ s.localIpv4 || value.isLoopback

def clearTables (s : EgressPolicy) : EgressPolicy :=
  { s with
    leases := emptyLeases s.cfg.allowedDomains
    aliases := Dict.empty
    permits := s.permits.clear
    nat := s.nat.clear }

def suspendLocked (s : EgressPolicy) : EgressPolicy :=
  { s.clearTables with egressSuspended := true }

def suspendTakeoverLocked (s : EgressPolicy) (reason : String) : EgressPolicy :=
  { s with
    takeoverSuspended := true
    takeoverSuspendReason := s.takeoverSuspendReason.or (some reason) }

def takeoverAvailableLocked (s : EgressPolicy) : Bool :=
  s.cfg.takeoverIpv4.isSome && !s.closed && !s.egressSuspended && !s.takeoverSuspended

/-- `deque(maxlen=1024).append`. -/
def pushEvent (events : List (String × Addr)) (e : String × Addr) : List (String × Addr) :=
  (events ++ [e]).drop (events.length+1-expiredLeaseEventLimit)

def cleanupLeases (s : EgressPolicy) (now : ℚ) : EgressPolicy :=
  { s with
    leases := s.leases.mapValues fun _ leases => leases.filter fun _ lease => now < lease.expiresAt
    expiredLeaseEvents :=
      (s.leases.entries.flatMap fun e =>
        ((e.2.entries.filter fun l => l.2.expiresAt ≤ now).map fun l => (e.1,l.1))).foldl
        pushEvent s.expiredLeaseEvents }

def cleanupLocked (s : EgressPolicy) (now : ℚ) : EgressPolicy :=
  let s := s.cleanupLeases now
  { s with
    aliases := s.aliases.filter fun _ entry => now < entry.2
    permits := s.permits.cleanup now
    nat := s.nat.cleanup now }

/-- `self._leases` in dictionary order: the first domain with a live lease for `ip`. -/
def findLease (leases : List (String × Dict Addr Lease)) (ip : Addr) (now : ℚ) : Option Lease :=
  leases.findSome? fun e => (e.2.get? ip).filter fun lease => now < lease.expiresAt

inductive ClientMappingState
  | none | expired | active | pending
  deriving DecidableEq

/-- What a call returns or raises. -/
inductive Reply
  | raised (error : PolicyError)
  | unit
  | bool (b : Bool)
  | name (root : Option String)
  | addresses (ips : List Addr)
  | lease (lease : Option Lease)
  | token (token : String)
  | permit (permit : Option ControlPermit)
  | mapping (mapping : Option RelayNatMapping)
  | rule (rule : Option ReviewedIPv4Rule)
  | bindings (bindings : List ReviewedRouteBinding)
  | clientState (state : ClientMappingState)
  | events (events : List (String × Addr))
  deriving DecidableEq

def updateLocalIpv4Locked (addresses : List Addr) (s : EgressPolicy) : Reply × EgressPolicy :=
  let snapshot := Addr.localIpv4Snapshot addresses
  let s := { s with localIpv4 := snapshot }
  if s.cfg.externalDnsServer ∈ snapshot then (.bool false,s.suspendLocked)
  else if s.cfg.reviewedIpv4Rules.any (fun rule => rule.ipv4 ∈ snapshot) then
    (.bool false,s.suspendLocked)
  else
    let s := if s.cfg.takeoverIpv4.any (· ∈ snapshot) then
      s.suspendTakeoverLocked "sink_became_local" else s
    let s := { s with
      permits := s.permits.drop fun permit => permit.key.srcIp ∉ snapshot
      nat := s.nat.drop s.now fun m => m.sampleIp ∉ snapshot ∨ m.relayIp ∉ snapshot }
    (.bool (!s.egressSuspended),s.ticked)

def activateRoutesLocked (prepared : Dict Addr ReviewedRouteBinding) (s : EgressPolicy) :
    Reply × EgressPolicy :=
  match s.ensureOpen with
  | some e => (.raised e,s)
  | none =>
    if s.reviewedRoutesActivated then
      (.raised (.runtime "reviewed route bindings are already active"),s)
    else
      (.bindings ((prepared.entries.mergeSort fun a b => Addr.textLe a.1 b.1).map Prod.snd),
        { s with reviewedRouteBindings := prepared, reviewedRoutesActivated := true })

def validPort (port : ℕ) : Bool := 1 ≤ port && port ≤ 65535

def matchReviewedIpLocked (packet : ReviewedPacketTuple) (s : EgressPolicy) :
    Option ReviewedIPv4Rule :=
  if s.closed || s.egressSuspended || !s.reviewedRoutesActivated || !packet.outbound ||
      !(packet.protocol = .tcp || packet.protocol = .udp) ||
      !validPort packet.sourcePort || !validPort packet.targetPort then none
  else
    match s.reviewedRouteBindings.get? packet.targetIpv4 with
    | none => none
    | some binding =>
      if packet.sourceIpv4 ≠ binding.sourceIpv4 ∨
          packet.interfaceIndex ≠ binding.interfaceIndex then none
      else
        match s.cfg.reviewedMatchIndex.get? (packet.protocol,binding.targetIpv4) with
        | none => none
        | some (.all rule) => some rule
        | some (.ports table) => table.get? packet.targetPort

def matchesTakeoverSinkLocked (key : FlowKey) (s : EgressPolicy) : Bool :=
  s.takeoverAvailableLocked && (key.proto = .tcp || key.proto = .udp) &&
    key.srcIp ∈ s.localIpv4 && some key.dstIp = s.cfg.takeoverIpv4 &&
    validPort key.sport && validPort key.dport

def suspendTakeover (reason : String) (s : EgressPolicy) : Reply × EgressPolicy :=
  if s.cfg.takeoverIpv4.isSome then
    (.bool s.takeoverAvailableLocked,s.suspendTakeoverLocked reason)
  else (.bool false,s)

def resolveDnsRuleLocked (qname : String) (now : ℚ) (s : EgressPolicy) : Reply × EgressPolicy :=
  let s := s.cleanupLocked now
  if (s.cfg.matchAllowedDomain qname).isSome then (.name (some qname),s)
  else (.name (((s.aliases.get? qname).filter fun entry => now < entry.2).map Prod.fst),s)

def registerAliasLocked (domain aliasName : String) (ttl : ℤ) (s : EgressPolicy) :
    Reply × EgressPolicy :=
  match s.ensureOpen with
  | some e => (.raised e,s)
  | none => (.bool true,{ s.ticked with aliases := s.aliases.set aliasName (domain,s.now+ttl) })

/-- The replacement table that `replace_leases` builds outside the lock: the smallest
deadline of the positive lifetimes of each global address. -/
def replacement (domain : String) (now : ℚ) (records : List (Addr × ℤ)) : Dict Addr Lease :=
  records.foldl (fun d r =>
    if 0 < r.2 ∧ r.1.isGlobalIpv4 then
      let expires := match d.get? r.1 with
        | none => now+r.2
        | some previous => min (now+r.2) previous.expiresAt
      d.set r.1 ⟨domain,r.1,expires⟩
    else d) Dict.empty

def replaceLeasesLocked (domain : String) (replacement : Dict Addr Lease) (s : EgressPolicy) :
    Reply × EgressPolicy :=
  match s.ensureOpen with
  | some e => (.raised e,s)
  | none =>
    (.addresses (replacement.keys.mergeSort Addr.textLe),
      { s with
        leases := s.leases.set domain replacement
        aliases := s.aliases.filter fun _ entry => entry.1 ≠ domain })

def leaseForLocked (ip : Addr) (now : ℚ) (s : EgressPolicy) : Option Lease × EgressPolicy :=
  if s.closed || s.egressSuspended then (none,s)
  else
    let s := s.cleanupLocked now
    (findLease s.leases.entries ip now,s)

/-- What `register_control_flow` demands of the mapping behind a `tls_relay` flow. -/
def relayFlowFits (proto : Proto) (dstIp : Addr) (dport : ℕ) (domain : String)
    (m : RelayNatMapping) (c : MappingCell) : Bool :=
  proto = .tcp && c.consumed && m.domain = domain && m.serverIp = dstIp && m.serverPort = dport

/-- First locked block of `register_control_flow` for `tls_relay`. -/
def relayFlowLocked (proto : Proto) (dstIp : Addr) (dport : ℕ) (domain : String)
    (generation : ℕ) (s : EgressPolicy) : Except PolicyError RelayNatMapping × EgressPolicy :=
  match s.ensureOpen with
  | some e => (.error e,s)
  | none =>
    let s := s.ticked.cleanupLocked s.now
    match s.nat.generation.get? generation with
    | none => (.error (.value "invalid TLS relay control flow"),s)
    | some m =>
      if relayFlowFits proto dstIp dport domain m (s.nat.cell m) then (.ok m,s)
      else (.error (.value "invalid TLS relay control flow"),s)

/-- Second locked block of `register_control_flow`; `relay` is the mapping that the first
one found, for `tls_relay`. -/
def fileControlFlowLocked (kind : ControlKind) (key : FlowKey) (domain : String)
    (relay : Option RelayNatMapping) (generation : ℕ) (token : String) (expires : ℚ)
    (s : EgressPolicy) : Reply × EgressPolicy :=
  match s.ensureOpen with
  | some e => (.raised e,s)
  | none =>
    if kind = .tlsRelay ∧ s.nat.generation.get? generation ≠ relay then
      (.raised (.value "relay mapping expired during registration"),s)
    else if s.permits.byKey.contains key = false ∧
        maxPending+maxActive ≤ s.permits.byKey.size then
      (.raised (.runtime "control flow permit table is full"),s)
    else (.token token,{ s with permits := s.permits.file token kind key domain expires })

def matchControlFlowLocked (key : FlowKey) (now : ℚ) (s : EgressPolicy) :
    Option ControlPermit × EgressPolicy :=
  if s.closed || s.egressSuspended then (none,s)
  else
    let s := s.cleanupLocked now
    match s.permits.byKey.get? key with
    | none => (none,s)
    | some permit =>
      if now < s.permits.expiry permit.serial then
        if permit.kind = .tlsRelay then
          (some permit,{ s with permits := s.permits.refresh permit now })
        else (some permit,s)
      else (none,s)

def revokeControlFlowLocked (token : String) (s : EgressPolicy) : EgressPolicy :=
  match s.permits.byToken.get? token with
  | none => s
  | some permit => { s with permits := s.permits.remove (token,permit) }

def createRelayMappingLocked (lease : Lease) (sampleIp : Addr) (samplePort : ℕ)
    (serverIp : Addr) (serverPort : ℕ) (relayIp : Addr) (relayPort : ℕ) (now : ℚ)
    (s : EgressPolicy) : Except PolicyError RelayNatMapping × EgressPolicy :=
  match s.ensureOpen with
  | some e => (.error e,s)
  | none =>
    let s := s.cleanupLocked now
    let forwardKey : FlowKey := ⟨.tcp,sampleIp,samplePort,serverIp,serverPort⟩
    let clientKey := (sampleIp,samplePort)
    match (s.leases.get? lease.domain).bind fun leases => leases.get? serverIp with
    | none => (.error (.value "DNS lease expired while creating relay mapping"),s)
    | some current =>
      if current.expiresAt ≤ now then
        (.error (.value "DNS lease expired while creating relay mapping"),s)
      else if s.nat.forward.contains forwardKey || s.nat.client.contains clientKey then
        (.error (.value "relay mapping already exists"),s)
      else if now < (s.nat.tombstones.get? forwardKey).getD 0 ∨
          now < (s.nat.clientTombstones.get? clientKey).getD 0 then
        (.error (.value "relay mapping is tombstoned"),s)
      else if maxPending ≤ s.nat.pending then (.error (.quotaExceeded "global"),s)
      else if maxPendingPerSource ≤ s.nat.pendingBySource sampleIp then
        (.error (.quotaExceeded "per_source"),s)
      else
        let m : RelayNatMapping :=
          ⟨s.nat.lastGeneration+1,lease.domain,sampleIp,samplePort,serverIp,serverPort,
            relayIp,relayPort,now⟩
        -- the generation is spent even when the reverse key collides
        let s := { s with nat := { s.nat with lastGeneration := s.nat.lastGeneration+1 } }
        if s.nat.reverse.contains m.reverseKey then
          (.error (.value "relay reverse mapping collision"),s)
        else (.ok m,{ s with nat := s.nat.insert m now })

/-- `_match_nat` on the forward or the reverse table. Only an active mapping is
refreshed: the deadline before the SNI decision stays fixed. -/
def matchNatLocked (table : RelayNat → Dict FlowKey RelayNatMapping) (key : FlowKey) (now : ℚ)
    (s : EgressPolicy) : Option RelayNatMapping × EgressPolicy :=
  if s.closed || s.egressSuspended then (none,s)
  else
    let s := s.cleanupLocked now
    match (table s.nat).get? key with
    | none => (none,s)
    | some m =>
      if now < (s.nat.cell m).expiresAt then
        if (s.nat.cell m).active then (some m,{ s with nat := s.nat.refresh m now })
        else (some m,s)
      else (none,s)

def consumeRelayTargetLocked (key : Addr × ℕ) (now : ℚ) (s : EgressPolicy) :
    Option RelayNatMapping × EgressPolicy :=
  let s := s.cleanupLocked now
  match s.nat.client.get? key with
  | none => (none,s)
  | some m =>
    if (s.nat.cell m).consumed ∨ (s.nat.cell m).expiresAt ≤ now then (none,s)
    else (some m,{ s with nat := s.nat.consume m now })

def activateRelayMappingLocked (generation : ℕ) (s : EgressPolicy) : Bool × EgressPolicy :=
  match s.nat.generation.get? generation with
  | none => (false,s)
  | some m =>
    if (s.nat.cell m).consumed = false then (false,s)
    else if (s.nat.cell m).active then (true,s)
    else if maxActive ≤ s.nat.active ∨ maxActivePerSource ≤ s.nat.activeBySource m.sampleIp then
      (false,s)
    else (true,{ s.ticked with nat := s.nat.activate m s.now })

def relayClientMappingStateLocked (key : Addr × ℕ) (now : ℚ) (s : EgressPolicy) :
    ClientMappingState :=
  match s.nat.client.get? key with
  | none => .none
  | some m =>
    if (s.nat.cell m).expiresAt ≤ now then .expired
    else if (s.nat.cell m).active then .active else .pending

def closeRelayMappingLocked (generation : ℕ) (grace : Option ℚ) (s : EgressPolicy) : EgressPolicy :=
  match s.nat.generation.get? generation with
  | none => s
  | some m =>
    let grace := grace.getD relayTeardownGraceSeconds
    if 0 < grace then { s.ticked with nat := s.nat.retain m s.now grace }
    else { s.ticked with nat := s.nat.remove m s.now }

def drainExpiredLeasesLocked (s : EgressPolicy) : Reply × EgressPolicy :=
  let s := s.ticked.cleanupLocked s.now
  (.events s.expiredLeaseEvents,{ s with expiredLeaseEvents := [] })

def closeLocked (s : EgressPolicy) : EgressPolicy :=
  let s := s.clearTables
  { s with
    closed := true
    takeoverSuspended := true
    nat := { s.nat with tombstones := Dict.empty, clientTombstones := Dict.empty }
    expiredLeaseEvents := [] }

variable {s : EgressPolicy}

@[simp] theorem ticked_nat : s.ticked.nat = s.nat := rfl
@[simp] theorem ticked_permits : s.ticked.permits = s.permits := rfl
@[simp] theorem ticked_leases : s.ticked.leases = s.leases := rfl
@[simp] theorem ticked_localIpv4 : s.ticked.localIpv4 = s.localIpv4 := rfl
@[simp] theorem ticked_clock : s.ticked.clock = s.clock.next := rfl

@[simp] theorem cleanupLocked_nat (now : ℚ) : (s.cleanupLocked now).nat = s.nat.cleanup now := rfl
@[simp] theorem cleanupLocked_permits (now : ℚ) :
    (s.cleanupLocked now).permits = s.permits.cleanup now := rfl
@[simp] theorem cleanupLocked_leases (now : ℚ) : (s.cleanupLocked now).leases =
    s.leases.mapValues fun _ leases => leases.filter fun _ lease => now < lease.expiresAt := rfl
@[simp] theorem cleanupLocked_aliases (now : ℚ) :
    (s.cleanupLocked now).aliases = s.aliases.filter fun _ entry => now < entry.2 := rfl
@[simp] theorem cleanupLocked_localIpv4 (now : ℚ) :
    (s.cleanupLocked now).localIpv4 = s.localIpv4 := rfl
@[simp] theorem cleanupLocked_clock (now : ℚ) : (s.cleanupLocked now).clock = s.clock := rfl
@[simp] theorem cleanupLocked_cfg (now : ℚ) : (s.cleanupLocked now).cfg = s.cfg := rfl

/-- An address update that does not suspend the policy. -/
structure Updated (addresses : List Addr) (s s' : EgressPolicy) : Prop where
  cfg : s'.cfg = s.cfg
  clock : s'.clock = s.clock.next
  closed : s'.closed = s.closed
  egressSuspended : s'.egressSuspended = s.egressSuspended
  localIpv4 : s'.localIpv4 = Addr.localIpv4Snapshot addresses
  reviewedRoutesActivated : s'.reviewedRoutesActivated = s.reviewedRoutesActivated
  reviewedRouteBindings : s'.reviewedRouteBindings = s.reviewedRouteBindings
  leases : s'.leases = s.leases
  aliases : s'.aliases = s.aliases
  permits : s'.permits =
    s.permits.drop fun permit => permit.key.srcIp ∉ Addr.localIpv4Snapshot addresses
  nat : s'.nat = s.nat.drop s.now fun m =>
    m.sampleIp ∉ Addr.localIpv4Snapshot addresses ∨ m.relayIp ∉ Addr.localIpv4Snapshot addresses

theorem updateLocalIpv4Locked_cases (addresses : List Addr) (s : EgressPolicy) :
    updateLocalIpv4Locked addresses s = (.bool false,
      { s with localIpv4 := Addr.localIpv4Snapshot addresses }.suspendLocked) ∨
    (updateLocalIpv4Locked addresses s).1 = .bool (!s.egressSuspended) ∧
      Updated addresses s (updateLocalIpv4Locked addresses s).2 := by
  unfold updateLocalIpv4Locked
  dsimp only
  split_ifs
  · exact .inl rfl
  · exact .inl rfl
  all_goals exact .inr ⟨rfl,rfl,rfl,rfl,rfl,rfl,rfl,rfl,rfl,rfl,rfl,rfl⟩

end EgressPolicy
end FakeNetNG
