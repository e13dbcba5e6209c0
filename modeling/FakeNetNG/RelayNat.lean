import FakeNetNG.OrderedDict
import FakeNetNG.Interleaving
import FakeNetNG.Addresses

/-!
# The relay NAT tables

`create_relay_mapping` files one `RelayNatMapping` object in four dictionaries and
counts it; closing, expiry and address changes take it out again. The tables, the
counters and the tombstones of `EgressPolicy` are grouped here with the locked
helpers that touch nothing else.

The fields of a mapping that are never assigned after construction form the record
stored in each table, and the assigned ones live in `cells`, by generation. A
generation is never reused, so equality of records is object identity.
-/

namespace FakeNetNG

/-- Reviewed resource limits: the constructor accepts no other values. -/
def helloTimeout : ℚ := 5
def relayIdleTimeout : ℚ := 300
def maxPending : ℤ := 256
def maxPendingPerSource : ℤ := 32
def maxActive : ℤ := 128
def maxActivePerSource : ℤ := 16
def relayTombstoneSeconds : ℚ := 120
def relayTeardownGraceSeconds : ℚ := 5

structure RelayNatMapping where
  generation : ℕ
  domain : String
  sampleIp : Addr
  samplePort : ℕ
  serverIp : Addr
  serverPort : ℕ
  relayIp : Addr
  relayPort : ℕ
  createdAt : ℚ
  deriving DecidableEq

namespace RelayNatMapping

def forwardKey (m : RelayNatMapping) : FlowKey :=
  ⟨.tcp,m.sampleIp,m.samplePort,m.serverIp,m.serverPort⟩

def reverseKey (m : RelayNatMapping) : FlowKey :=
  ⟨.tcp,m.relayIp,m.relayPort,m.sampleIp,m.samplePort⟩

def clientKey (m : RelayNatMapping) : Addr × ℕ := (m.sampleIp,m.samplePort)

end RelayNatMapping

/-- The assigned fields of a mapping. -/
structure MappingCell where
  expiresAt : ℚ
  consumed : Bool
  active : Bool

/-- `_nat_forward`, `_nat_reverse`, `_nat_client`, `_nat_generation`, the four counters,
the two tombstone tables and the generation counter. A missing `Counter` entry reads
as zero, so a `Counter` is a function. -/
structure RelayNat where
  lastGeneration : ℕ
  forward : Dict FlowKey RelayNatMapping
  reverse : Dict FlowKey RelayNatMapping
  client : Dict (Addr × ℕ) RelayNatMapping
  generation : Dict ℕ RelayNatMapping
  cells : ℕ → MappingCell
  pending : ℤ
  pendingBySource : Addr → ℤ
  active : ℤ
  activeBySource : Addr → ℤ
  tombstones : Dict FlowKey ℚ
  clientTombstones : Dict (Addr × ℕ) ℚ

namespace RelayNat

def empty : RelayNat where
  lastGeneration := 0
  forward := Dict.empty
  reverse := Dict.empty
  client := Dict.empty
  generation := Dict.empty
  cells := fun _ => ⟨0,false,false⟩
  pending := 0
  pendingBySource := fun _ => 0
  active := 0
  activeBySource := fun _ => 0
  tombstones := Dict.empty
  clientTombstones := Dict.empty

def cell (n : RelayNat) (m : RelayNatMapping) : MappingCell := n.cells m.generation

def setCell (n : RelayNat) (m : RelayNatMapping) (c : MappingCell) : RelayNat :=
  { n with cells := Function.update n.cells m.generation c }

/-- Everything but the tombstones and the generation counter, as `_suspend_locked` does. -/
def clear (n : RelayNat) : RelayNat :=
  { n with
    forward := Dict.empty
    reverse := Dict.empty
    client := Dict.empty
    generation := Dict.empty
    pending := 0
    pendingBySource := fun _ => 0
    active := 0
    activeBySource := fun _ => 0 }

def releasePending (n : RelayNat) (m : RelayNatMapping) : RelayNat :=
  if n.pendingBySource m.sampleIp ≠ 0 then
    { n with
      pending := n.pending-1
      pendingBySource := Function.update n.pendingBySource m.sampleIp
        (n.pendingBySource m.sampleIp-1) }
  else n

def releaseQuota (n : RelayNat) (m : RelayNatMapping) : RelayNat :=
  if (n.cell m).active then
    if n.activeBySource m.sampleIp ≠ 0 then
      { n with
        active := n.active-1
        activeBySource := Function.update n.activeBySource m.sampleIp
          (n.activeBySource m.sampleIp-1) }
    else n
  else n.releasePending m

def addTombstones (n : RelayNat) (m : RelayNatMapping) (now : ℚ) : RelayNat :=
  { n with
    tombstones := n.tombstones.set m.forwardKey (now+relayTombstoneSeconds)
    clientTombstones := n.clientTombstones.set m.clientKey (now+relayTombstoneSeconds) }

/-- `_remove_mapping_locked`. -/
def remove (n : RelayNat) (m : RelayNatMapping) (now : ℚ) : RelayNat :=
  let n := n.releaseQuota m
  let n := { n with
    forward := n.forward.popIf m.forwardKey m
    reverse := n.reverse.popIf m.reverseKey m
    client := n.client.popIf m.clientKey m
    generation := n.generation.pop m.generation }
  n.addTombstones m now

/-- `_retain_mapping_for_teardown_locked`: identity and quota are released now, and the
two rewrite entries stay matchable for the grace. -/
def retain (n : RelayNat) (m : RelayNatMapping) (now grace : ℚ) : RelayNat :=
  let n := n.releaseQuota m
  let n := n.setCell m { n.cell m with active := false, expiresAt := now+grace }
  let n := { n with
    generation := n.generation.pop m.generation
    client := n.client.pop m.clientKey }
  n.addTombstones m now

/-- Remove every mapping of the generation table that satisfies `p`. -/
def drop (n : RelayNat) (now : ℚ) (p : RelayNatMapping → Bool) : RelayNat :=
  (n.generation.values.filter p).foldl (fun n m => n.remove m now) n

def expireRewrites (n : RelayNat) (now : ℚ) : RelayNat :=
  { n with
    forward := n.forward.filter fun _ m => now < (n.cell m).expiresAt
    reverse := n.reverse.filter fun _ m => now < (n.cell m).expiresAt }

def expireTombstones (n : RelayNat) (now : ℚ) : RelayNat :=
  { n with
    tombstones := n.tombstones.filter fun _ expires => now < expires
    clientTombstones := n.clientTombstones.filter fun _ expires => now < expires }

/-- The relay half of `_cleanup_locked`. -/
def cleanup (n : RelayNat) (now : ℚ) : RelayNat :=
  let n := n.drop now fun m => (n.cell m).expiresAt ≤ now
  (n.expireRewrites now).expireTombstones now

def insert (n : RelayNat) (m : RelayNatMapping) (now : ℚ) : RelayNat :=
  { n with
    forward := n.forward.set m.forwardKey m
    reverse := n.reverse.set m.reverseKey m
    client := n.client.set m.clientKey m
    generation := n.generation.set m.generation m
    cells := Function.update n.cells m.generation ⟨now+helloTimeout+5,false,false⟩
    pending := n.pending+1
    pendingBySource := Function.update n.pendingBySource m.sampleIp
      (n.pendingBySource m.sampleIp+1) }

def refresh (n : RelayNat) (m : RelayNatMapping) (now : ℚ) : RelayNat :=
  n.setCell m { n.cell m with expiresAt := now+relayIdleTimeout+30 }

def consume (n : RelayNat) (m : RelayNatMapping) (now : ℚ) : RelayNat :=
  n.setCell m { n.cell m with consumed := true, expiresAt := now+helloTimeout+5 }

def activate (n : RelayNat) (m : RelayNatMapping) (now : ℚ) : RelayNat :=
  let n := n.releasePending m
  let n := n.setCell m { n.cell m with active := true, expiresAt := now+relayIdleTimeout+30 }
  { n with
    active := n.active+1
    activeBySource := Function.update n.activeBySource m.sampleIp
      (n.activeBySource m.sampleIp+1) }

end RelayNat
end FakeNetNG
