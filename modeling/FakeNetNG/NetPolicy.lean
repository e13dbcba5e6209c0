import Mathlib.Data.List.Basic
import Mathlib.Data.BitVec
import FakeNetNG.Fallible

/-!
# The Linux net policy

`NetPolicy` puts its rules into the kernel's tables by one `iptables` or `ip6tables` command
after another. Each command may fail or raise; the outcomes of the commands to come are given
from outside, and a rule is what the kernel makes of the command's arguments.
-/

namespace FakeNetNG
namespace NetPolicy

inductive Chain
  | mangleInput | rawOutput | filterOutput | ip6Output
  deriving DecidableEq

inductive Target
  | accept | drop
  deriving DecidableEq

/-- One option of a rule's specification. -/
inductive Criterion
  | tcp
  | inLoopback
  | outLoopback
  | source4 (ip : BitVec 32) (length : ℕ)
  | destination4 (ip : BitVec 32) (length : ℕ)
  | destination6 (ip : BitVec 128)
  | sport (port : ℕ)
  | dport (port : ℕ)
  deriving DecidableEq

/-- A rule as the kernel holds it. `tagged` says that it carries the policy's comment. -/
structure Rule where
  chain : Chain
  spec : List Criterion
  tagged : Bool
  target : Target
  deriving DecidableEq

abbrev Tables := Chain → List Rule

/-- An IPv6 packet that this host sends, with its two ports if it is a TCP packet. -/
structure Packet where
  destination : BitVec 128
  tcp : Option (ℕ × ℕ)
  outLoopback : Bool
  deriving DecidableEq

/-- Options on IPv4 addresses and on the interface a packet came in by match nothing that
leaves the host over IPv6. -/
def Criterion.matches (pkt : Packet) : Criterion → Bool
  | .tcp => pkt.tcp.isSome
  | .inLoopback => false
  | .outLoopback => pkt.outLoopback
  | .source4 _ _ => false
  | .destination4 _ _ => false
  | .destination6 ip => pkt.destination == ip
  | .sport port => pkt.tcp.any fun ports => ports.1 == port
  | .dport port => pkt.tcp.any fun ports => ports.2 == port

def Rule.matches (pkt : Packet) (rule : Rule) : Bool := rule.spec.all (Criterion.matches pkt)

/-- The target of the first rule that matches. Without one the chain's own policy decides. -/
def evaluate (chain : List Rule) (pkt : Packet) : Option Target :=
  (chain.find? (Rule.matches pkt)).map Rule.target

inductive Command
  | check (rule : Rule)
  | insert (rule : Rule)
  | delete (rule : Rule)
  | list (chain : Chain)

/-- `-I` inserts at the head of the chain and `-D` deletes the first equal rule. -/
def Command.apply : Command → Tables → Tables
  | .insert rule, tables =>
      Function.update tables rule.chain (rule :: tables rule.chain)
  | .delete rule, tables =>
      Function.update tables rule.chain ((tables rule.chain).erase rule)
  | .check _, tables => tables
  | .list _, tables => tables

def Command.returncode : Command → Tables → ℕ
  | .check rule, tables => if rule ∈ tables rule.chain then 0 else 1
  | .delete rule, tables => if rule ∈ tables rule.chain then 0 else 1
  | .insert _, _ => 0
  | .list _, _ => 0

/-- What becomes of a command. One that fails has no effect and exits with a code of its own.
One that raises, as by running out of time, may have had its effect. -/
inductive Outcome
  | done
  | failed
  | raised (applied : Bool)

inductive Mode
  | isolated | real
  deriving DecidableEq

inductive Fault
  | command
  | callback
  | runtimeError (message : String)
  | valueError (message : String)
  deriving DecidableEq

/-- A rule with the address as its arguments spell it. -/
structure OwnedRule where
  rule : Rule
  spelled : String
  deriving DecidableEq

/-- The policy object together with the kernel's tables and the outcomes of the commands to
come; a command past the end of the list is done. -/
structure State where
  tables : Tables
  owned : List OwnedRule
  mode : Option Mode
  outcomes : List Outcome

abbrev Action := Fallible State Fault

open Fallible

def run (command : Command) : Action ℕ := fun s =>
  match s.outcomes with
  | [] => (.ok (command.returncode s.tables),{ s with tables := command.apply s.tables })
  | .done :: rest =>
      (.ok (command.returncode s.tables),
        { s with tables := command.apply s.tables, outcomes := rest })
  | .failed :: rest => (.ok 2,{ s with outcomes := rest })
  | .raised false :: rest => (.error .command,{ s with outcomes := rest })
  | .raised true :: rest =>
      (.error .command,{ s with tables := command.apply s.tables, outcomes := rest })

namespace OwnedRule

def remove (owned : OwnedRule) : Action Bool := do
  let code ← run (.delete owned.rule)
  pure (code == 0)

def present (owned : OwnedRule) : Action Bool := do
  let code ← run (.check owned.rule)
  if code = 0 ∨ code = 1 then
    pure (code == 0)
  else
    raise (.runtimeError "policy rule probe failed")

end OwnedRule

inductive Address
  | v4 (ip : BitVec 32)
  | v6 (ip : BitVec 128)
  deriving DecidableEq

/-- A management endpoint: its address as it was written, what `ip_address` reads from it,
and its port. -/
structure ControlEndpoint where
  ip : String
  address : Address
  port : ℕ
  validPort : 0 < port ∧ port < 65536

def tagged (chain : Chain) (spec : List Criterion) (spelled : String) (target : Target) :
    OwnedRule :=
  ⟨⟨chain,spec,true,target⟩,spelled⟩

def loopback4 : BitVec 32 := 0x7f000000#32

/-- The address `::1`. -/
def loopback6 : BitVec 128 := 1#128

def endpointRules4 (endpoint : ControlEndpoint) : List OwnedRule :=
  match endpoint.address with
  | .v4 ip =>
      [tagged .rawOutput [.tcp,.destination4 ip 32,.sport endpoint.port] endpoint.ip .accept,
        tagged .mangleInput [.tcp,.source4 ip 32,.dport endpoint.port] endpoint.ip .accept]
  | .v6 _ => []

def v4Rules (endpoints : List ControlEndpoint) : List OwnedRule :=
  [tagged .mangleInput [.inLoopback,.source4 loopback4 8,.destination4 loopback4 8] "" .accept,
    tagged .rawOutput [.outLoopback] "" .accept]++endpoints.flatMap endpointRules4

def dropRule : OwnedRule := tagged .ip6Output [] "" .drop

def loopbackRule : OwnedRule := tagged .ip6Output [.destination6 loopback6] "" .accept

def endpointRules6 (endpoint : ControlEndpoint) : List OwnedRule :=
  match endpoint.address with
  | .v4 _ => []
  | .v6 ip =>
      [tagged .ip6Output [.tcp,.destination6 ip,.sport endpoint.port] endpoint.ip.toLower .accept]

def v6Rules (endpoints : List ControlEndpoint) : List OwnedRule :=
  dropRule :: loopbackRule :: endpoints.flatMap endpointRules6

inductive Family
  | four | six
  deriving DecidableEq

def legacyRules (endpoints : List ControlEndpoint) : Family → List OwnedRule
  | .four =>
      ⟨⟨.rawOutput,[.tcp],false,.accept⟩,""⟩ :: endpoints.flatMap fun endpoint =>
        match endpoint.address with
        | .v4 ip => [⟨⟨.mangleInput,[.source4 ip 32],false,.accept⟩,endpoint.ip⟩]
        | .v6 _ => []
  | .six =>
      ⟨⟨.ip6Output,[],false,.drop⟩,""⟩ :: endpoints.flatMap fun endpoint =>
        match endpoint.address with
        | .v4 _ => []
        | .v6 ip => [⟨⟨.ip6Output,[.destination6 ip],false,.accept⟩,endpoint.ip.toLower⟩]

def anyPresent : List OwnedRule → Action Bool
  | [] => pure false
  | owned :: rest => do
      if ← owned.present then pure true else anyPresent rest

def refuseLegacy (endpoints : List ControlEndpoint) (family : Family) : Action Unit := do
  if ← anyPresent (legacyRules endpoints family) then
    raise (.runtimeError "unowned legacy policy rule; explicit recovery required")
  else
    pure ()

def own (owned : OwnedRule) (s : State) : State :=
  if owned ∈ s.owned then s else { s with owned := s.owned++[owned] }

def installRule (owned : OwnedRule) : Action Unit := do
  if ← owned.present then
    modify (own owned)
  else
    let code ← run (.insert owned.rule)
    if code = 0 then
      modify (own owned)
    else
      raise (.runtimeError "policy rule insertion failed")

def install : List OwnedRule → Action Unit
  | [] => pure ()
  | owned :: rest => do
      installRule owned
      install rest

def installControlExclusionsV4 (endpoints : List ControlEndpoint) : Action ℕ := do
  refuseLegacy endpoints .four
  install (v4Rules endpoints)
  pure (v4Rules endpoints).length

def blockIpv6 (endpoints : List ControlEndpoint) : Action (List OwnedRule) := do
  refuseLegacy endpoints .six
  install (v6Rules endpoints)
  pure (v6Rules endpoints)

/-- Removes one copy of the rule. The result says whether the rule remains, which is also
assumed when a command raises. -/
def removeOwned (owned : OwnedRule) : Action Bool :=
  tryExcept
    (do
      if ← owned.present then
        let _ ← owned.remove
      owned.present)
    fun _ => pure true

def removeEach : List OwnedRule → Action (List OwnedRule)
  | [] => pure []
  | owned :: rest => do
      let remains ← removeOwned owned
      let remaining ← removeEach rest
      pure (if remains then owned :: remaining else remaining)

def removeAllOwned : Action Unit := do
  let s ← get
  let remaining ← removeEach s.owned
  modify fun s => { s with owned := remaining }
  if remaining ≠ [] then
    raise (.runtimeError "owned policy rules remain after cleanup")
  else
    pure ()

/-- The rules of a chain as `-S` lists them, or nothing if the command fails. -/
def listing (chain : Chain) : Action (Option (List Rule)) := do
  let code ← run (.list chain)
  let s ← get
  pure (if code = 0 then some (s.tables chain) else none)

structure Evidence where
  mode : Option Mode
  ownedRules : List OwnedRule
  ip6tablesOutput : Option (List Rule)
  iptablesOutput : Option (List Rule)

def evidence : Action Evidence := do
  let s ← get
  let ip6tablesOutput ← listing .ip6Output
  let iptablesOutput ← listing .filterOutput
  pure ⟨s.mode,s.owned,ip6tablesOutput,iptablesOutput⟩

/-- A callback of the diverter. It removes or installs rules of its own in the IPv4 tables. -/
structure Takeover where
  rewrite : Tables → Tables
  keepsIp6 : ∀ tables, rewrite tables .ip6Output = tables .ip6Output
  raises : Bool

def Takeover.call : Option Takeover → Action Unit
  | none => pure ()
  | some takeover => do
      modify fun s => { s with tables := takeover.rewrite s.tables }
      if takeover.raises then raise .callback else pure ()

def parseMode (mode : String) : Option Mode :=
  if mode.toLower = "isolated" then
    some .isolated
  else if mode.toLower = "real" then
    some .real
  else
    none

/-- The rules are changed first and the flag last, so a call that raises between the two
leaves the flag of the mode before. -/
def switchMode (endpoints : List ControlEndpoint) (takeoverPause takeoverResume : Option Takeover) :
    Mode → Action Unit
  | .real => do
      removeAllOwned
      Takeover.call takeoverPause
  | .isolated => do
      Takeover.call takeoverResume
      let _ ← installControlExclusionsV4 endpoints
      let _ ← blockIpv6 endpoints

def setMode (endpoints : List ControlEndpoint) (mode : String)
    (takeoverPause takeoverResume : Option Takeover) : Action Evidence :=
  match parseMode mode with
  | none => raise (.valueError "mode must be isolated|real")
  | some mode => do
      let s ← get
      if s.mode = some mode then
        evidence
      else
        switchMode endpoints takeoverPause takeoverResume mode
        modify fun s => { s with mode := some mode }
        evidence

structure Stopped where
  stopped : Bool
  ipv6BlockLeftover : Bool

def stop : Action Stopped := do
  removeAllOwned
  let leftover ← dropRule.present
  pure ⟨!leftover,leftover⟩

def oldLoopback : OwnedRule := tagged .mangleInput [.inLoopback] "" .accept

def adoptRule (owned : OwnedRule) : Action Bool := do
  if ← owned.present then
    if ← owned.remove then
      if ← owned.present then
        raise (.runtimeError "owned policy adoption failed")
      else
        pure true
    else
      raise (.runtimeError "owned policy adoption failed")
  else
    pure false

def adoptEach : List OwnedRule → Action (List OwnedRule)
  | [] => pure []
  | owned :: rest => do
      let found ← adoptRule owned
      let adopted ← adoptEach rest
      pure (if found then owned :: adopted else adopted)

def adoptLeftovers (endpoints : List ControlEndpoint) : Action (List OwnedRule) :=
  adoptEach (v4Rules endpoints++v6Rules endpoints++[oldLoopback])

end NetPolicy
end FakeNetNG
