import FakeNetNG.OrderedDict
import FakeNetNG.Addresses

/-!
# The base diverter's NAT

The layer 4 callbacks of `DiverterBase` and the tables behind them. A packet that goes
out to a foreign address or an unbound port is redirected and its source endpoint is
filed; a packet that comes back to a filed endpoint has its source fixed up. Lists that
are not configured are empty here, as the source treats both alike.
-/

namespace FakeNetNG

inductive Transport
  | tcp | udp
  deriving DecidableEq

/-- `gen_endpoint_key`; the text determines its three parts. -/
structure Endpoint where
  proto : Transport
  ip : Addr
  port : ℕ
  deriving DecidableEq

structure ListenerMeta where
  hidden : Bool
  procBl : List String
  procWl : List String
  hostBl : List Addr
  hostWl : List Addr

structure DiverterConfig where
  redirectAllTraffic : Bool
  singleHostMode : Bool
  blacklistProcesses : List String
  whitelistProcesses : List String
  hostBlacklist : List Addr
  listenerPorts : Transport → Dict ℕ ListenerMeta
  defaultListener : Transport → Option ℕ
  ipAddrs : ℕ → List Addr
  loopbackIp : Addr
  externalIp : Addr
  pid : ℕ

/-- A TCP or UDP datagram as it arrives, with the process that the system names for it. -/
structure Datagram where
  ipver : ℕ
  proto : Transport
  srcIp : Addr
  sport : ℕ
  dstIp : Addr
  dport : ℕ
  pid : Option ℕ
  comm : Option String

/-- `PacketCtx`: the arrived values stay beside the ones that callbacks assign. -/
structure NatPacket where
  arrived : Datagram
  srcIp : Addr
  sport : ℕ
  dstIp : Addr
  dport : ℕ

structure Session where
  dstIp : Addr
  dport : ℕ
  pid : Option ℕ
  comm : Option String
  dport0 : ℕ
  proto : Transport

structure NatTables where
  portFwdTable : Dict Endpoint ℕ
  ignoreTable : Dict Endpoint ℕ
  ipFwdTable : Dict Endpoint Addr
  blacklistPorts : Transport → List ℕ
  sessions : Dict ℕ Session

namespace Datagram

def skey (d : Datagram) : Endpoint := ⟨d.proto,d.srcIp,d.sport⟩
def dkey (d : Datagram) : Endpoint := ⟨d.proto,d.dstIp,d.dport⟩

def parse (d : Datagram) : NatPacket := ⟨d,d.srcIp,d.sport,d.dstIp,d.dport⟩

end Datagram

namespace DiverterConfig

variable (cfg : DiverterConfig)

def isHidden (proto : Transport) (port : ℕ) : Bool :=
  ((cfg.listenerPorts proto).get? port).any (·.hidden)

def getPortList (proto : Transport) : List ℕ := (cfg.listenerPorts proto).keys

def intersectsWithPorts (proto : Transport) (ports : List ℕ) : Bool :=
  ports.any (· ∈ cfg.getPortList proto)

/-- The test that `_isWhiteListMiss` makes. -/
def whiteListMiss {α : Type} [DecidableEq α] (thing : α) (whitelist : List α) : Bool :=
  !whitelist.isEmpty && thing ∉ whitelist

def isProcessWhiteListMiss (proto : Transport) (port : ℕ) (proc : String) : Bool :=
  ((cfg.listenerPorts proto).get? port).any fun l => whiteListMiss proc l.procWl

def isProcessBlackListHit (proto : Transport) (port : ℕ) (proc : String) : Bool :=
  ((cfg.listenerPorts proto).get? port).any fun l => proc ∈ l.procBl

def isHostWhiteListMiss (proto : Transport) (port : ℕ) (host : Addr) : Bool :=
  ((cfg.listenerPorts proto).get? port).any fun l => whiteListMiss host l.hostWl

def isHostBlackListHit (proto : Transport) (port : ℕ) (host : Addr) : Bool :=
  ((cfg.listenerPorts proto).get? port).any fun l => host ∈ l.hostBl

def getNewDestinationIp (srcIp : Addr) : Addr :=
  if srcIp.isLoopback then cfg.loopbackIp else cfg.externalIp

/-- The process checks of `SingleHost` mode. -/
def processIgnored (d : Datagram) : Bool :=
  cfg.singleHostMode && d.comm.any fun comm => comm ≠ "" &&
    (comm ∈ cfg.blacklistProcesses || whiteListMiss comm cfg.whitelistProcesses ||
      cfg.isProcessBlackListHit d.proto d.dport comm ||
      cfg.isProcessWhiteListMiss d.proto d.dport comm)

/-- The checks of `check_should_ignore` that read lists. -/
def listedToIgnore (blacklistPorts : Transport → List ℕ) (d : Datagram) : Bool :=
  !cfg.redirectAllTraffic || cfg.processIgnored d ||
    (blacklistPorts d.proto).any (fun port => port = d.sport || port = d.dport) ||
    d.dstIp ∈ cfg.hostBlacklist || cfg.isHostWhiteListMiss d.proto d.dport d.dstIp ||
    cfg.isHostBlackListHit d.proto d.dport d.dstIp

/-- A listener opens a connection of its own, as for FTP active mode. The source tests the
destination twice for loopback and never the source address. -/
def listenerInitiated (d : Datagram) : Bool :=
  d.pid = some cfg.pid && d.dstIp ∈ cfg.ipAddrs d.ipver && !d.dstIp.isLoopback &&
    d.srcIp ∈ cfg.ipAddrs d.ipver && !d.dstIp.isLoopback &&
    !cfg.intersectsWithPorts d.proto [d.sport,d.dport]

def checkShouldIgnore (d : Datagram) (st : NatTables) : Bool × NatTables :=
  if cfg.listedToIgnore st.blacklistPorts d then (true,st)
  else if cfg.listenerInitiated d then
    let ports := st.blacklistPorts d.proto ++ [d.sport]
    (true,{ st with blacklistPorts := Function.update st.blacklistPorts d.proto ports })
  else (false,st)

def decideRedirPort (pkt : NatPacket) : Bool :=
  let boundPorts := cfg.getPortList pkt.arrived.proto
  let srcLocal := decide (pkt.srcIp ∈ cfg.ipAddrs pkt.arrived.ipver)
  let sportBound := decide (pkt.sport ∈ boundPorts)
  let dportBound := decide (pkt.dport ∈ boundPorts)
  (!srcLocal && !dportBound) || (!sportBound && !dportBound)

end DiverterConfig

namespace NatTables

def init (blacklistPorts : Transport → List ℕ) : NatTables :=
  ⟨Dict.empty,Dict.empty,Dict.empty,blacklistPorts,Dict.empty⟩

def firstPacketNewSession (pkt : NatPacket) (st : NatTables) : Bool :=
  match st.sessions.get? pkt.sport with
  | none => true
  | some session =>
    (pkt.arrived.pid.isSome && (session.pid ≠ pkt.arrived.pid ||
      pkt.arrived.comm.isSome && session.comm ≠ pkt.arrived.comm)) ||
    (session.dstIp,session.dport) ≠ (pkt.dstIp,pkt.dport)

def addSession (pkt : NatPacket) (st : NatTables) : NatTables :=
  let session : Session :=
    ⟨pkt.dstIp,pkt.dport,pkt.arrived.pid,pkt.arrived.comm,pkt.arrived.dport,pkt.arrived.proto⟩
  { st with sessions := st.sessions.set pkt.sport session }

/-- The end of `maybe_redir_port`. -/
def openSession (pkt : NatPacket) (st : NatTables) : NatTables :=
  if st.firstPacketNewSession pkt then st.addSession pkt else st

variable (cfg : DiverterConfig)

def wantsDefault (pkt : NatPacket) : Bool :=
  cfg.isHidden pkt.arrived.proto pkt.dport || cfg.decideRedirPort pkt

def maybeRedirPort (pkt : NatPacket) (st : NatTables) : NatTables × NatPacket :=
  match cfg.defaultListener pkt.arrived.proto with
  | none => (st,pkt)
  | some default =>
    if default = 0 then (st,pkt)
    else if st.portFwdTable.contains pkt.arrived.dkey then (st,pkt)
    else if wantsDefault cfg pkt then
      if st.ignoreTable.get? pkt.arrived.dkey = some pkt.sport then (st,pkt)
      else
        match cfg.checkShouldIgnore pkt.arrived st with
        | (true,st) =>
          ({ st with ignoreTable := st.ignoreTable.set pkt.arrived.skey pkt.dport },pkt)
        | (false,st) =>
          let st := { st with portFwdTable := st.portFwdTable.set pkt.arrived.skey pkt.dport }
          let pkt := { pkt with dport := default }
          (st.openSession pkt,pkt)
    else
      let st := { st with portFwdTable := st.portFwdTable.pop pkt.arrived.skey }
      (st.openSession pkt,pkt)

def maybeFixupSport (pkt : NatPacket) (st : NatTables) : NatTables × NatPacket :=
  match st.portFwdTable.get? pkt.arrived.dkey with
  | none => (st,pkt)
  | some newSport => if newSport = 0 then (st,pkt) else (st,{ pkt with sport := newSport })

def maybeRedirIp (pkt : NatPacket) (st : NatTables) : NatTables × NatPacket :=
  match cfg.checkShouldIgnore pkt.arrived st with
  | (true,st) => (st,pkt)
  | (false,st) =>
    if cfg.singleHostMode && pkt.dstIp ∉ cfg.ipAddrs pkt.arrived.ipver then
      ({ st with ipFwdTable := st.ipFwdTable.set pkt.arrived.skey pkt.dstIp },
        { pkt with dstIp := cfg.getNewDestinationIp pkt.srcIp })
    else ({ st with ipFwdTable := st.ipFwdTable.pop pkt.arrived.skey },pkt)

def maybeFixupSrcip (pkt : NatPacket) (st : NatTables) : NatTables × NatPacket :=
  if cfg.singleHostMode then
    match st.ipFwdTable.get? pkt.arrived.dkey with
    | none => (st,pkt)
    | some newSrcip => (st,{ pkt with srcIp := newSrcip })
  else (st,pkt)

end NatTables

inductive NatCallback
  | maybeRedirPort | maybeFixupSport | maybeRedirIp | maybeFixupSrcip
  deriving DecidableEq

namespace NatCallback

def run (cfg : DiverterConfig) : NatCallback → NatTables × NatPacket → NatTables × NatPacket
  | maybeRedirPort, x => x.1.maybeRedirPort cfg x.2
  | maybeFixupSport, x => x.1.maybeFixupSport x.2
  | maybeRedirIp, x => x.1.maybeRedirIp cfg x.2
  | maybeFixupSrcip, x => x.1.maybeFixupSrcip cfg x.2

/-- The layer 4 list of `_callbacks`. -/
def all : List NatCallback := [maybeRedirPort,maybeFixupSport,maybeRedirIp,maybeFixupSrcip]

end NatCallback

def Datagram.isLoopback (cfg : DiverterConfig) (d : Datagram) : Bool :=
  d.srcIp = d.dstIp && d.dstIp = cfg.loopbackIp

/-- The layer 4 part of `handle_pkt`: loopback packets fall where they may. -/
def NatTables.handlePkt (cfg : DiverterConfig) (callbacks4 : List NatCallback) (st : NatTables)
    (d : Datagram) : NatTables × NatPacket :=
  if d.isLoopback cfg then (st,d.parse)
  else callbacks4.foldl (fun x cb => cb.run cfg x) (st,d.parse)

end FakeNetNG
