import FakeNetNG.OrderedDict
import FakeNetNG.Interleaving
import FakeNetNG.Addresses

/-!
# The process redirect engine

`ProcessRedirectEngine` decides, packet by packet, whether a flow of the reviewed
process is sent to the private target instead of its original address. `prepare`
works in locked sections with the owner and route queries between them, and hands out
a token that `commit` or `abort` settles once the packet was injected. The answers of
the resolver and of the route guard come with the call.

As in the relay NAT, the fields of a mapping that are never assigned after
construction form the stored record and the assigned ones live in `cells`, by
generation. The audit counters are left out: no decision reads them.
-/

namespace FakeNetNG

namespace Ntpath

def sep : Char := Char.ofNat 92

/-- `path.replace('/', '\\')`. -/
def replaceAltsep (path : List Char) : List Char := path.map fun c => if c = '/' then sep else c

/-- `str.split` at the separator. -/
def splitSep : List Char → List (List Char)
  | [] => [[]]
  | c::path =>
    match splitSep path with
    | [] => [[c]]
    | comp::comps => if c = sep then []::comp::comps else (c::comp)::comps

/-- The prefix of a device or UNC path ends at the second separator from `start` on. -/
def splitUnc (path : List Char) (start : ℕ) : List Char × Bool × List Char :=
  match (path.drop start).findIdx? (· = sep) with
  | none => (path,false,[])
  | some i =>
    match (path.drop (start+i+1)).findIdx? (· = sep) with
    | none => (path,false,[])
    | some j => (path.take (start+i+1+j),true,path.drop (start+i+1+j+1))

/-- `ntpath.splitroot` on a path without `/`: the drive, whether a root follows, the rest. -/
def splitroot (path : List Char) : List Char × Bool × List Char :=
  match path with
  | a::b::rest =>
    if a = sep then
      if b = sep then
        splitUnc path
          (if (path.take 8).map Char.toUpper = [sep,sep,'?',sep,'U','N','C',sep] then 8 else 2)
      else ([],true,b::rest)
    else if b = ':' then
      match rest with
      | c::tail => if c = sep then ([a,b],true,tail) else ([a,b],false,rest)
      | [] => ([a,b],false,[])
    else ([],false,path)
  | [a] => if a = sep then ([],true,[]) else ([],false,[a])
  | [] => ([],false,[])

def normComps (root : Bool) : List (List Char) → List (List Char) → List (List Char)
  | kept, [] => kept.reverse
  | kept, comp::comps =>
    if comp = [] ∨ comp = ['.'] then normComps root kept comps
    else if comp = ['.','.'] then
      match kept with
      | last::earlier =>
        if last ≠ ['.','.'] then normComps root earlier comps
        else normComps root (comp::kept) comps
      | [] => if root then normComps root [] comps else normComps root [comp] comps
    else normComps root (comp::kept) comps

def normpath (path : List Char) : List Char :=
  let (drive,root,rest) := splitroot (replaceAltsep path)
  let comps := normComps root [] (splitSep rest)
  let start := drive ++ if root then [sep] else []
  start ++ [sep].intercalate (if start = [] ∧ comps = [] then [['.']] else comps)

/-- `ntpath.normcase`, which calls the invariant lower-case map of the system. -/
def normcase (lcMapString : List Char → List Char) (path : List Char) : List Char :=
  lcMapString (replaceAltsep path)

end Ntpath

structure FrozenFileIdentity where
  finalPath : String
  volumeSerial : ℤ
  fileId : ℤ
  deriving DecidableEq

structure ProcessRedirectRule where
  originalIpv4 : Addr
  targetIpv4 : Addr
  fileIdentity : FrozenFileIdentity
  lcMapString : List Char → List Char

inductive OwnerResolutionStatus
  | resolved | notFound | ambiguous | error
  deriving DecidableEq

/-- `status.value.lower()`. -/
def OwnerResolutionStatus.text : OwnerResolutionStatus → String
  | resolved => "resolved"
  | notFound => "not_found"
  | ambiguous => "ambiguous"
  | error => "error"

structure ProcessOwnerIdentity where
  pid : ℤ
  creationTime : ℤ
  finalPath : String
  volumeSerial : ℤ
  fileId : ℤ
  deriving DecidableEq

/-- `identity` is `none` for an object of any other type. -/
structure OwnerResolution where
  status : OwnerResolutionStatus
  identity : Option ProcessOwnerIdentity
  deriving DecidableEq

/-- What the resolver returns: `None`, an object of a wrong type, or a resolution. -/
inductive OwnerReply
  | nothing | invalid | resolution (r : OwnerResolution)
  deriving DecidableEq

inductive Answer (α : Type)
  | raised | returned (a : α)
  deriving DecidableEq

structure RouteAnswer where
  current : Bool
  failureReason : Option String
  deriving DecidableEq

/-- What the adapters answer in the course of one `prepare`. -/
structure RedirectAnswers where
  owner : Answer OwnerReply
  route : Answer RouteAnswer
  identityValid : Answer Bool
  deriving DecidableEq

inductive Direction
  | inbound | outbound | other (name : String)
  deriving DecidableEq

structure PacketTuple where
  direction : Direction
  ipv4Version : ℕ
  fragmented : Bool
  protocol : Proto
  tcpFlags : ℕ
  sourceIpv4 : Addr
  sourcePort : ℕ
  targetIpv4 : Addr
  targetPort : ℕ
  interfaceIndex : ℤ
  subinterfaceIndex : ℤ
  deriving DecidableEq

def thFin : ℕ := 0x01
def thSyn : ℕ := 0x02
def thRst : ℕ := 0x04
def thAck : ℕ := 0x10

def PacketTuple.hasFlag (packet : PacketTuple) (flag : ℕ) : Bool := packet.tcpFlags &&& flag ≠ 0

def PacketTuple.newSyn (packet : PacketTuple) : Bool := packet.hasFlag thSyn && !packet.hasFlag thAck

structure RedirectKey where
  protocol : Proto
  sourceIpv4 : Addr
  sourcePort : ℕ
  targetIpv4 : Addr
  targetPort : ℕ
  interfaceIndex : ℤ
  subinterfaceIndex : ℤ
  deriving DecidableEq

/-- `_forward_key` and `_reverse_key`, which read the same fields. -/
def PacketTuple.key (packet : PacketTuple) : RedirectKey :=
  ⟨packet.protocol,packet.sourceIpv4,packet.sourcePort,packet.targetIpv4,packet.targetPort,
    packet.interfaceIndex,packet.subinterfaceIndex⟩

structure ClientKey where
  localIpv4 : Addr
  localPort : ℕ
  interfaceIndex : ℤ
  subinterfaceIndex : ℤ
  deriving DecidableEq

structure RedirectMapping where
  generation : ℕ
  localIpv4 : Addr
  localPort : ℕ
  originalPort : ℕ
  interfaceIndex : ℤ
  subinterfaceIndex : ℤ
  pid : ℤ
  processCreationTime : ℤ
  createdAt : ℚ
  deriving DecidableEq

namespace RedirectMapping

def forwardKey (m : RedirectMapping) (originalIpv4 : Addr) : RedirectKey :=
  ⟨.tcp,m.localIpv4,m.localPort,originalIpv4,m.originalPort,m.interfaceIndex,m.subinterfaceIndex⟩

def reverseKey (m : RedirectMapping) (targetIpv4 : Addr) : RedirectKey :=
  ⟨.tcp,targetIpv4,m.originalPort,m.localIpv4,m.localPort,m.interfaceIndex,m.subinterfaceIndex⟩

def clientKey (m : RedirectMapping) : ClientKey :=
  ⟨m.localIpv4,m.localPort,m.interfaceIndex,m.subinterfaceIndex⟩

end RedirectMapping

structure RedirectCell where
  lastSeenAt : ℚ
  clientFinSeen : Bool
  serverFinSeen : Bool
  halfClosedAt : Option ℚ

structure RedirectTransaction where
  token : ℕ
  mapping : RedirectMapping
  packet : PacketTuple
  newMapping : Bool
  createdAt : ℚ
  deriving DecidableEq

inductive ProcessRedirectAction
  | notApplicable | passUnchanged | rewriteOutbound | rewriteInbound | drop
  deriving DecidableEq

structure ProcessRedirectDecision where
  action : ProcessRedirectAction
  reason : String
  generation : Option ℕ := none
  rewriteTargetIpv4 : Option Addr := none
  rewriteTargetPort : Option ℕ := none
  rewriteSourceIpv4 : Option Addr := none
  rewriteSourcePort : Option ℕ := none
  pid : Option ℤ := none
  processCreationTime : Option ℤ := none
  processFileId : Option ℤ := none
  deriving DecidableEq

structure PreparedRedirect where
  decision : ProcessRedirectDecision
  token : Option ℕ := none
  deriving DecidableEq

namespace PreparedRedirect

def drop (reason : String) : PreparedRedirect := ⟨{ action := .drop, reason := reason },none⟩

def notApplicable : PreparedRedirect :=
  ⟨{ action := .notApplicable, reason := "not_applicable" },none⟩

def pass (reason : String) : PreparedRedirect :=
  ⟨{ action := .passUnchanged, reason := reason },none⟩

end PreparedRedirect

/-- What the sections leave in the history: the answers of the resolver and the owner
decisions on SYNs, the mappings made for them, the decisions to rewrite a packet or to
pass a later packet of a flow, and the calls that settle or stop them. -/
inductive RedirectEvent
  | answered (key : RedirectKey) (reply : OwnerReply)
  | ownerDecided (key : RedirectKey) (target : Bool)
  | created (generation : ℕ) (packet : PacketTuple) (owner : ProcessOwnerIdentity)
      (answers : RedirectAnswers)
  | decided (packet : PacketTuple) (prepared : PreparedRedirect)
  | committed (token : ℕ) (outcome : Bool)
  | suspended
  | resumed
  | closed
  deriving DecidableEq

/-- The fields of the engine. `log` is a history variable: the sections append to it and
none reads it. -/
structure ProcessRedirectEngine where
  clock : Clock
  closed : Bool
  suspended : Bool
  suspendReason : Option String
  generation : ℕ
  token : ℕ
  forward : Dict RedirectKey RedirectMapping
  reverse : Dict RedirectKey RedirectMapping
  client : Dict ClientKey RedirectMapping
  cells : ℕ → RedirectCell
  transactions : Dict ℕ RedirectTransaction
  reservations : List RedirectKey
  tombstones : Dict RedirectKey (ℚ × String)
  queryTokens : ℚ
  queryRefillAt : ℚ
  synQueryCache : Dict RedirectKey (ℚ × OwnerReply)
  aPass : Dict RedirectKey ℚ
  log : List RedirectEvent

def aPassIdleSeconds : ℚ := 300

namespace ProcessRedirectEngine

def init (clock : Clock) : ProcessRedirectEngine where
  clock := clock.next.next
  closed := false
  suspended := false
  suspendReason := none
  generation := 0
  token := 0
  forward := Dict.empty
  reverse := Dict.empty
  client := Dict.empty
  cells := fun _ => ⟨0,false,false,none⟩
  transactions := Dict.empty
  reservations := []
  tombstones := Dict.empty
  queryTokens := 16
  queryRefillAt := clock.now
  synQueryCache := Dict.empty
  aPass := Dict.empty
  log := []

def now (s : ProcessRedirectEngine) : ℚ := s.clock.now

def ticked (s : ProcessRedirectEngine) : ProcessRedirectEngine := { s with clock := s.clock.next }

def record (s : ProcessRedirectEngine) (e : RedirectEvent) : ProcessRedirectEngine :=
  { s with log := s.log ++ [e] }

def setCell (s : ProcessRedirectEngine) (m : RedirectMapping) (cell : RedirectCell) :
    ProcessRedirectEngine :=
  { s with cells := Function.update s.cells m.generation cell }

def unavailable (s : ProcessRedirectEngine) : Bool := s.closed || s.suspended

/-- `_new_transaction_locked`. -/
def newTransaction (m : RedirectMapping) (packet : PacketTuple) (new : Bool)
    (s : ProcessRedirectEngine) : ProcessRedirectEngine :=
  { s.ticked with
    token := s.token+1
    transactions := s.transactions.set (s.token+1) ⟨s.token+1,m,packet,new,s.now⟩ }

/-- `self._transactions.pop(token)`. -/
def popTransaction (token : ℕ) (s : ProcessRedirectEngine) : ProcessRedirectEngine :=
  { s with transactions := s.transactions.pop token }

end ProcessRedirectEngine

namespace ProcessRedirectRule

variable (rule : ProcessRedirectRule)

open ProcessRedirectEngine

def forwardKey (m : RedirectMapping) : RedirectKey := m.forwardKey rule.originalIpv4

def reverseKey (m : RedirectMapping) : RedirectKey := m.reverseKey rule.targetIpv4

def ownerMatchesRule (owner : ProcessOwnerIdentity) : Bool :=
  Ntpath.normcase rule.lcMapString (Ntpath.normpath owner.finalPath.toList) =
      Ntpath.normcase rule.lcMapString (Ntpath.normpath rule.fileIdentity.finalPath.toList) &&
    owner.volumeSerial = rule.fileIdentity.volumeSerial && owner.fileId = rule.fileIdentity.fileId

/-- `_add_tombstone_locked`: one deadline for both directions of the flow. -/
def addTombstone (m : RedirectMapping) (seconds : ℚ) (reason : String)
    (s : ProcessRedirectEngine) : ProcessRedirectEngine :=
  { s.ticked with
    tombstones := (s.tombstones.set (rule.forwardKey m) (s.now+seconds,reason)).set
      (rule.reverseKey m) (s.now+seconds,reason) }

/-- `_remove_mapping_locked`: only the client entry is compared before it goes. -/
def removeMapping (m : RedirectMapping) (s : ProcessRedirectEngine) : ProcessRedirectEngine :=
  { s with
    forward := s.forward.pop (rule.forwardKey m)
    reverse := s.reverse.pop (rule.reverseKey m)
    client := s.client.popIf m.clientKey m }

def retire (m : RedirectMapping) (seconds : ℚ) (reason : String) (s : ProcessRedirectEngine) :
    ProcessRedirectEngine :=
  rule.addTombstone m seconds reason (rule.removeMapping m s)

/-- The FIN bookkeeping of `_observe_tcp_locked`; the clock is read for the first FIN. -/
def markFin (m : RedirectMapping) (packet : PacketTuple) (s : ProcessRedirectEngine) :
    ProcessRedirectEngine :=
  let cell := s.cells m.generation
  let cell := if packet.direction = .outbound then { cell with clientFinSeen := true }
    else { cell with serverFinSeen := true }
  match cell.halfClosedAt with
  | none => s.ticked.setCell m { cell with halfClosedAt := some s.now }
  | some _ => s.setCell m cell

def observeTcp (m : RedirectMapping) (packet : PacketTuple) (s : ProcessRedirectEngine) :
    ProcessRedirectEngine :=
  if packet.hasFlag thRst then rule.retire m 240 "normal_close" s
  else if packet.hasFlag thFin then
    let s := markFin m packet s
    if (s.cells m.generation).clientFinSeen && (s.cells m.generation).serverFinSeen then
      rule.retire m 240 "normal_close" s
    else s
  else s

def purge (now : ℚ) (s : ProcessRedirectEngine) : ProcessRedirectEngine :=
  { s with
    aPass := s.aPass.filter fun _ expires => now < expires
    tombstones := s.tombstones.filter fun _ item => now < item.1
    synQueryCache := s.synQueryCache.filter fun _ item => now < item.1 }

def timeOut (now : ℚ) (s : ProcessRedirectEngine) (t : ℕ × RedirectTransaction) :
    ProcessRedirectEngine :=
  if 2 ≤ now-t.2.createdAt then
    let s := popTransaction t.1 s
    if t.2.newMapping then rule.addTombstone t.2.mapping 3 "pending_timeout" s else s
  else s

/-- Why an established mapping is closed at `now`. -/
def closeReason (now : ℚ) (cell : RedirectCell) : Option String :=
  if cell.halfClosedAt.any fun t => 120 ≤ now-t then some "half_close_timeout"
  else if 1800 ≤ now-cell.lastSeenAt then some "idle_timeout"
  else none

def expire (now : ℚ) (s : ProcessRedirectEngine) (m : RedirectMapping) : ProcessRedirectEngine :=
  match closeReason now (s.cells m.generation) with
  | none => s
  | some reason => rule.retire m 240 reason s

def cleanup (now : ℚ) (s : ProcessRedirectEngine) : ProcessRedirectEngine :=
  let s := purge now s
  let s := s.transactions.entries.foldl (rule.timeOut now) s
  s.forward.values.eraseDups.foldl (rule.expire now) s

/-- The first section of `prepare` decides, or lets the owner be looked up with what the
cache holds. -/
inductive Stage
  | decided (p : PreparedRedirect)
  | query (cached : OwnerReply)
  deriving DecidableEq

def rewrite (m : RedirectMapping) (packet : PacketTuple) (new : Bool)
    (decision : ProcessRedirectDecision) (s : ProcessRedirectEngine) :
    PreparedRedirect × ProcessRedirectEngine :=
  let prepared : PreparedRedirect := ⟨decision,some (s.token+1)⟩
  (prepared,(newTransaction m packet new s).record (.decided packet prepared))

def outboundDecision (m : RedirectMapping) (packet : PacketTuple) (reason : String) :
    ProcessRedirectDecision where
  action := .rewriteOutbound
  reason := reason
  generation := some m.generation
  rewriteTargetIpv4 := some rule.targetIpv4
  rewriteTargetPort := some packet.targetPort

def inboundDecision (m : RedirectMapping) (packet : PacketTuple) : ProcessRedirectDecision where
  action := .rewriteInbound
  reason := "reverse_mapping"
  generation := some m.generation
  rewriteSourceIpv4 := some rule.originalIpv4
  rewriteSourcePort := some packet.sourcePort

/-- `_consume_query_budget_locked`. -/
def consumeQueryBudget (now : ℚ) (s : ProcessRedirectEngine) : Bool × ProcessRedirectEngine :=
  let tokens := min 16 (s.queryTokens+max 0 (now-s.queryRefillAt)*32)
  let s := { s with queryRefillAt := now, queryTokens := tokens }
  if tokens < 1 then (false,s) else (true,{ s with queryTokens := tokens-1 })

def reserve (key : RedirectKey) (s : ProcessRedirectEngine) : ProcessRedirectEngine :=
  { s with reservations := key::s.reservations }

def beginUnmapped (packet : PacketTuple) (now : ℚ) (s : ProcessRedirectEngine) :
    Stage × ProcessRedirectEngine :=
  match s.aPass.get? packet.key with
  | none => (.decided (.drop "unmapped_a_flow"),s)
  | some expires =>
    if now < expires then
      (.decided (.pass "non_target_flow"),
        ({ s with aPass := s.aPass.set packet.key (now+aPassIdleSeconds) }).record
          (.decided packet (.pass "non_target_flow")))
    else (.decided (.drop "unmapped_a_flow"),s)

def beginSyn (key : RedirectKey) (s : ProcessRedirectEngine) : Stage × ProcessRedirectEngine :=
  if key ∈ s.reservations then (.decided (.drop "owner_query_pending"),s)
  else if 128 ≤ s.reservations.length+s.transactions.size then
    (.decided (.drop "pending_transaction_capacity"),s)
  else if s.transactions.values.any fun t => t.newMapping && rule.forwardKey t.mapping = key then
    (.decided (.drop "mapping_pending"),s)
  else
    match s.synQueryCache.get? key with
    | some cached => (.query cached.2,reserve key s)
    | none =>
      if 4096 ≤ s.synQueryCache.size then (.decided (.drop "owner_query_cache_full"),s)
      else
        let (granted,s) := consumeQueryBudget s.now s.ticked
        if granted then (.query .nothing,reserve key s)
        else (.decided (.drop "owner_query_budget_exhausted"),s)

/-- The first locked section of `prepare` for a packet to the original address. -/
def beginPrepare (packet : PacketTuple) (s : ProcessRedirectEngine) :
    Stage × ProcessRedirectEngine :=
  let now := s.now
  let s := rule.cleanup now s.ticked
  if s.unavailable then (.decided (.drop "process_redirect_unavailable"),s)
  else
    match s.tombstones.get? packet.key with
    | some item => (.decided (.drop (item.2 ++ "_tombstone")),s)
    | none =>
      match s.forward.get? packet.key with
      | some m =>
        if 128 ≤ s.transactions.size then (.decided (.drop "pending_transaction_capacity"),s)
        else
          let (prepared,s) := rewrite m packet false
            (rule.outboundDecision m packet "existing_mapping") s
          (.decided prepared,s)
      | none =>
        if packet.newSyn then rule.beginSyn packet.key s else beginUnmapped packet now s

def cacheResolution (key : RedirectKey) (reply : OwnerReply) (s : ProcessRedirectEngine) :
    ProcessRedirectEngine :=
  ({ s.ticked with synQueryCache := s.synQueryCache.set key (s.now+3,reply) }).record
    (.answered key reply)

def passNonTarget (key : RedirectKey) (s : ProcessRedirectEngine) : ProcessRedirectEngine :=
  ({ s.ticked with aPass := s.aPass.set key (s.now+aPassIdleSeconds) }).record
    (.ownerDecided key false)

def recordTarget (key : RedirectKey) (s : ProcessRedirectEngine) : ProcessRedirectEngine :=
  s.record (.ownerDecided key true)

def pendingNew (s : ProcessRedirectEngine) : List RedirectMapping :=
  (s.transactions.values.filter (·.newMapping)).map (·.mapping)

/-- The `_Mapping` built for a SYN, with the next generation. -/
def freshMapping (packet : PacketTuple) (owner : ProcessOwnerIdentity) (s : ProcessRedirectEngine) :
    RedirectMapping :=
  ⟨s.generation+1,packet.sourceIpv4,packet.sourcePort,packet.targetPort,packet.interfaceIndex,
    packet.subinterfaceIndex,owner.pid,owner.creationTime,s.now⟩

def rewriteNew (m : RedirectMapping) (packet : PacketTuple) (owner : ProcessOwnerIdentity)
    (answers : RedirectAnswers) (s : ProcessRedirectEngine) :
    PreparedRedirect × ProcessRedirectEngine :=
  rewrite m packet true
    { rule.outboundDecision m packet "new_mapping" with
      pid := some m.pid
      processCreationTime := some m.processCreationTime
      processFileId := some owner.fileId }
    ((s.setCell m ⟨m.createdAt,false,false,none⟩).record
      (.created m.generation packet owner answers))

/-- The last section of `prepare` for a SYN of the reviewed process. -/
def createMapping (packet : PacketTuple) (owner : ProcessOwnerIdentity) (answers : RedirectAnswers)
    (s : ProcessRedirectEngine) : PreparedRedirect × ProcessRedirectEngine :=
  if s.unavailable then (.drop "process_redirect_unavailable",s)
  else if s.forward.contains packet.key then (.drop "mapping_race",s)
  else if 1024 ≤ s.forward.size+(pendingNew s).length then (.drop "global_mapping_capacity",s)
  else if 256 ≤ s.forward.countP (fun m => m.pid = owner.pid) +
      (pendingNew s).countP (fun m => m.pid = owner.pid) then
    (.drop "per_pid_mapping_capacity",s)
  else
    let m := freshMapping packet owner s
    let pending := pendingNew s
    -- the generation and the reading are spent even when the endpoint conflicts
    let s := { s.ticked with generation := s.generation+1 }
    if s.client.contains m.clientKey || pending.any (fun item => item.clientKey = m.clientKey) then
      (.drop "client_endpoint_conflict",s)
    else rule.rewriteNew m packet owner answers s

def releaseReservation (key : RedirectKey) (s : ProcessRedirectEngine) : ProcessRedirectEngine :=
  { s with reservations := s.reservations.filter fun k => k ≠ key }

def inboundLocked (packet : PacketTuple) (s : ProcessRedirectEngine) :
    PreparedRedirect × ProcessRedirectEngine :=
  let s := rule.cleanup s.now s.ticked
  if s.unavailable then (.drop "process_redirect_unavailable",s)
  else
    match s.tombstones.get? packet.key with
    | some item => (.drop (item.2 ++ "_tombstone"),s)
    | none =>
      match s.reverse.get? packet.key with
      | none => (.pass "unmapped_target_ingress",s)
      | some m =>
        if 128 ≤ s.transactions.size then (.drop "pending_transaction_capacity",s)
        else rewrite m packet false (rule.inboundDecision m packet) s

def install (m : RedirectMapping) (s : ProcessRedirectEngine) : ProcessRedirectEngine :=
  { s with
    forward := s.forward.set (rule.forwardKey m) m
    reverse := s.reverse.set (rule.reverseKey m) m
    client := s.client.set m.clientKey m }

/-- `mapping.last_seen_at = self._clock()`. -/
def touch (m : RedirectMapping) (s : ProcessRedirectEngine) : ProcessRedirectEngine :=
  s.ticked.setCell m { s.cells m.generation with lastSeenAt := s.now }

/-- The part of `commit` for a packet that was injected. -/
def confirm (t : RedirectTransaction) (s : ProcessRedirectEngine) : ProcessRedirectEngine :=
  let s := if t.newMapping then rule.install t.mapping s else s
  rule.observeTcp t.mapping t.packet (touch t.mapping s)

inductive RedirectReply
  | prepared (p : PreparedRedirect)
  | bool (b : Bool)
  | unit
  | raised (message : String)
  deriving DecidableEq

def commitLocked (token : ℕ) (outcome : Bool) (s : ProcessRedirectEngine) :
    RedirectReply × ProcessRedirectEngine :=
  match s.transactions.get? token with
  | none => (.raised "unknown or already completed token",s)
  | some t =>
    let s := (popTransaction token s).record (.committed token outcome)
    if outcome then (.bool true,rule.confirm t s)
    else (.bool false,rule.retire t.mapping 3 "injection_failure" s)

def abortLocked (token : ℕ) (s : ProcessRedirectEngine) : RedirectReply × ProcessRedirectEngine :=
  match s.transactions.get? token with
  | none => (.raised "unknown or already completed token",s)
  | some t =>
    (.bool false,rule.retire t.mapping 3 "injection_failure" (popTransaction token s))

def closeLocked (s : ProcessRedirectEngine) : ProcessRedirectEngine :=
  ({ s with
    closed := true
    transactions := Dict.empty
    reservations := []
    forward := Dict.empty
    reverse := Dict.empty
    client := Dict.empty
    tombstones := Dict.empty
    synQueryCache := Dict.empty
    aPass := Dict.empty }).record .closed

def suspendLocked (reason : String) (s : ProcessRedirectEngine) : Bool × ProcessRedirectEngine :=
  if s.closed then (false,s)
  else
    let changed := !s.suspended
    let s := { s with suspended := true, suspendReason := s.suspendReason.or (some reason) }
    let s := s.forward.values.foldl (fun s m => rule.retire m 240 "suspended" s) s
    (changed,({ s with transactions := Dict.empty, reservations := [] }).record .suspended)

def resumeLocked (s : ProcessRedirectEngine) : Bool × ProcessRedirectEngine :=
  if s.closed then (false,s)
  else
    (true,({ s with
      suspended := false
      suspendReason := none
      generation := s.generation+1 }).record .resumed)

/-- The owner of the flow: the cached resolution unless it is `None`, else the resolver's,
which is cached. `none` when the resolver raises. -/
def resolveOwner (key : RedirectKey) (answers : RedirectAnswers) :
    OwnerReply → Prog ProcessRedirectEngine (Option OwnerReply)
  | .nothing =>
    match answers.owner with
    | .raised => pure none
    | .returned reply => do
      .locked fun s => ((),cacheResolution key reply s)
      return some reply
  | cached => pure (some cached)

/-- `failure_reason or 'route_snapshot_changed'`. -/
def routeFailure (route : RouteAnswer) : String :=
  match route.failureReason with
  | none => "route_snapshot_changed"
  | some reason => if reason = "" then "route_snapshot_changed" else reason

def suspend (reason : String) : Prog ProcessRedirectEngine Bool :=
  .locked (rule.suspendLocked reason)

def prepareTarget (packet : PacketTuple) (answers : RedirectAnswers) (owner : ProcessOwnerIdentity) :
    Prog ProcessRedirectEngine PreparedRedirect := do
  .locked fun s => ((),recordTarget packet.key s)
  match answers.route with
  | .raised =>
    let _ ← rule.suspend "route_query_failed"
    return .drop "route_query_failed"
  | .returned route =>
    if !route.current then
      let _ ← rule.suspend (routeFailure route)
      return .drop (routeFailure route)
    match answers.identityValid with
    | .raised => return .drop "owner_query_error"
    | .returned false => return .drop "process_identity_changed"
    | .returned true => .locked (rule.createMapping packet owner answers)

/-- The body of the `try` of `prepare`. -/
def prepareQueried (packet : PacketTuple) (answers : RedirectAnswers) (cached : OwnerReply) :
    Prog ProcessRedirectEngine PreparedRedirect := do
  match ← resolveOwner packet.key answers cached with
  | none => return .drop "owner_query_error"
  | some .nothing => return .drop "owner_result_invalid"
  | some .invalid => return .drop "owner_result_invalid"
  | some (.resolution r) =>
    if r.status ≠ .resolved then return .drop ("owner_" ++ r.status.text)
    match r.identity.filter rule.ownerMatchesRule with
    | none =>
      .locked fun s => (.pass "resolved_non_target_process",passNonTarget packet.key s)
    | some owner => rule.prepareTarget packet answers owner

def prepareOutbound (packet : PacketTuple) (answers : RedirectAnswers) :
    Prog ProcessRedirectEngine PreparedRedirect := do
  match ← Prog.locked (rule.beginPrepare packet) with
  | .decided prepared => return prepared
  | .query cached =>
    let prepared ← rule.prepareQueried packet answers cached
    .locked fun s => (prepared,releaseReservation packet.key s)

def prepareInbound (packet : PacketTuple) : Prog ProcessRedirectEngine PreparedRedirect :=
  if packet.sourceIpv4 ≠ rule.targetIpv4 ∨ packet.targetIpv4 = rule.targetIpv4 then
    pure .notApplicable
  else if packet.fragmented then pure (.drop "process_redirect_fragment")
  else .locked (rule.inboundLocked packet)

def prepare (packet : PacketTuple) (answers : RedirectAnswers) :
    Prog ProcessRedirectEngine PreparedRedirect :=
  if packet.ipv4Version ≠ 4 ∨ packet.protocol ≠ .tcp then pure .notApplicable
  else
    match packet.direction with
    | .inbound => rule.prepareInbound packet
    | .other _ => pure (.drop "invalid_direction")
    | .outbound =>
      if packet.targetIpv4 ≠ rule.originalIpv4 then pure .notApplicable
      else if packet.fragmented then pure (.drop "process_redirect_fragment")
      else rule.prepareOutbound packet answers

def resume (routeValid fileValid : Answer Bool) : Prog ProcessRedirectEngine Bool :=
  match routeValid, fileValid with
  | .returned true, .returned true => .locked resumeLocked
  | _, _ => pure false

end ProcessRedirectRule

inductive RedirectCall
  | prepare (packet : PacketTuple) (answers : RedirectAnswers)
  | commit (token : ℕ) (outcome : Bool)
  | abort (token : ℕ)
  | close
  | suspend (reason : String)
  | resume (routeValid fileValid : Answer Bool)
  deriving DecidableEq

open ProcessRedirectRule in
def RedirectCall.body (rule : ProcessRedirectRule) : RedirectCall → Prog ProcessRedirectEngine RedirectReply
  | prepare packet answers => (rule.prepare packet answers).bind fun p => .done (.prepared p)
  | commit token outcome => .locked (rule.commitLocked token outcome)
  | abort token => .locked (rule.abortLocked token)
  | close => .locked fun s => (.unit,closeLocked s)
  | suspend reason => (rule.suspend reason).bind fun b => .done (.bool b)
  | resume routeValid fileValid =>
    (ProcessRedirectRule.resume routeValid fileValid).bind fun b => .done (.bool b)

/-- The locked sections, with the values that an operation brings to them. -/
inductive RedirectSection
  | beginPrepare (packet : PacketTuple)
  | cacheResolution (key : RedirectKey) (reply : OwnerReply)
  | passNonTarget (key : RedirectKey)
  | recordTarget (key : RedirectKey)
  | createMapping (packet : PacketTuple) (owner : ProcessOwnerIdentity) (answers : RedirectAnswers)
  | releaseReservation (key : RedirectKey)
  | inbound (packet : PacketTuple)
  | commit (token : ℕ) (outcome : Bool)
  | abort (token : ℕ)
  | close
  | suspend (reason : String)
  | resume

namespace RedirectSection

open ProcessRedirectRule

def apply (rule : ProcessRedirectRule) : RedirectSection → ProcessRedirectEngine → ProcessRedirectEngine
  | beginPrepare packet, s => (rule.beginPrepare packet s).2
  | cacheResolution key reply, s => ProcessRedirectRule.cacheResolution key reply s
  | passNonTarget key, s => ProcessRedirectRule.passNonTarget key s
  | recordTarget key, s => ProcessRedirectRule.recordTarget key s
  | createMapping packet owner answers, s => (rule.createMapping packet owner answers s).2
  | releaseReservation key, s => ProcessRedirectRule.releaseReservation key s
  | inbound packet, s => (rule.inboundLocked packet s).2
  | commit token outcome, s => (rule.commitLocked token outcome s).2
  | abort token, s => (rule.abortLocked token s).2
  | close, s => closeLocked s
  | suspend reason, s => (rule.suspendLocked reason s).2
  | resume, s => (resumeLocked s).2

end RedirectSection

namespace ProcessRedirectRule

def IsSection (rule : ProcessRedirectRule) (f : ProcessRedirectEngine → ProcessRedirectEngine) : Prop :=
  ∃ sec : RedirectSection, f = sec.apply rule

variable {rule : ProcessRedirectRule}

theorem each_section {α : Type} {m : ProcessRedirectEngine → α × ProcessRedirectEngine}
    (sec : RedirectSection) (h : (fun s => (m s).2) = sec.apply rule) :
    (Prog.locked m).Each rule.IsSection :=
  Prog.each_locked ⟨sec,h⟩

theorem resolveOwner_each (key : RedirectKey) (answers : RedirectAnswers) (cached : OwnerReply) :
    (resolveOwner key answers cached).Each rule.IsSection := by
  cases cached with
  | nothing =>
    unfold resolveOwner
    cases answers.owner with
    | raised => trivial
    | returned reply =>
      exact (each_section (.cacheResolution key reply) rfl).bind fun _ => trivial
  | invalid => trivial
  | resolution r => trivial

theorem prepareTarget_each (packet : PacketTuple) (answers : RedirectAnswers)
    (owner : ProcessOwnerIdentity) : (rule.prepareTarget packet answers owner).Each rule.IsSection := by
  refine Prog.Each.bind (each_section (.recordTarget packet.key) rfl) fun _ => ?_
  split
  · exact (each_section (.suspend _) rfl).bind fun _ => trivial
  · split
    · exact (each_section (.suspend _) rfl).bind fun _ => trivial
    · split
      · trivial
      · trivial
      · exact each_section (.createMapping packet owner answers) rfl

theorem prepareQueried_each (packet : PacketTuple) (answers : RedirectAnswers) (cached : OwnerReply) :
    (rule.prepareQueried packet answers cached).Each rule.IsSection := by
  refine Prog.Each.bind (resolveOwner_each packet.key answers cached) fun reply => ?_
  cases reply with
  | none => trivial
  | some reply =>
    cases reply with
    | nothing => trivial
    | invalid => trivial
    | resolution r =>
      dsimp only
      split
      · trivial
      · split
        · exact each_section (.passNonTarget packet.key) rfl
        · exact prepareTarget_each packet answers _

theorem prepare_each (packet : PacketTuple) (answers : RedirectAnswers) :
    (rule.prepare packet answers).Each rule.IsSection := by
  unfold prepare
  split
  · trivial
  · split
    · unfold prepareInbound
      split
      · trivial
      · split
        · trivial
        · exact each_section (.inbound packet) rfl
    · trivial
    · split
      · trivial
      · split
        · trivial
        · refine Prog.Each.bind (each_section (.beginPrepare packet) rfl) fun stage => ?_
          cases stage with
          | decided prepared => trivial
          | query cached =>
            exact (prepareQueried_each packet answers cached).bind fun _ =>
              each_section (.releaseReservation packet.key) rfl

end ProcessRedirectRule

open ProcessRedirectRule in
theorem RedirectCall.body_each (rule : ProcessRedirectRule) (c : RedirectCall) :
    (c.body rule).Each rule.IsSection := by
  cases c with
  | prepare packet answers => exact (prepare_each packet answers).bind fun _ => trivial
  | commit token outcome => exact each_section (.commit token outcome) rfl
  | abort token => exact each_section (.abort token) rfl
  | close => exact each_section .close rfl
  | suspend reason => exact (each_section (.suspend reason) rfl).bind fun _ => trivial
  | resume routeValid fileValid =>
    dsimp only [body]
    unfold ProcessRedirectRule.resume
    split
    · exact (each_section .resume rfl).bind fun _ => trivial
    · trivial

end FakeNetNG
