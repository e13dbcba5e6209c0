import Mathlib.Tactic

/-!
# Addresses, protocols and flow keys

Addresses are strings in the source. The strings that `ipaddress` reads as IPv4 are
exactly the canonical dotted ones, so they are kept here as 32-bit values; every
other string, an IPv6 address included, is kept as text and never passes an IPv4
check.
-/

namespace FakeNetNG

inductive Addr
  | v4 (bits : BitVec 32)
  | text (s : String)
  deriving DecidableEq

/-- The protocol names of packets and flow keys, after `upper()`. -/
inductive Proto
  | tcp | udp | other (name : String)
  deriving DecidableEq

namespace Addr

def dotted (a b c d : ℕ) : Addr := .v4 (BitVec.ofNat 32 (((a*256+b)*256+c)*256+d))

def toText : Addr → String
  | .text s => s
  | .v4 a => ".".intercalate
      [toString (a.toNat / 2^24),toString (a.toNat / 2^16 % 256),toString (a.toNat / 2^8 % 256),
        toString (a.toNat % 256)]

def textLe (a b : Addr) : Bool := !(b.toText < a.toText)

/-- `address in network` for the network `base/length`. -/
def inNetwork (address : BitVec 32) (network : BitVec 32 × ℕ) : Bool :=
  address.toNat / 2^(32-network.2) == network.1.toNat / 2^(32-network.2)

def network (a b c d length : ℕ) : BitVec 32 × ℕ :=
  (BitVec.ofNat 32 (((a*256+b)*256+c)*256+d),length)

def isUnspecified (address : BitVec 32) : Bool := address == 0
def isMulticast (address : BitVec 32) : Bool := inNetwork address (network 224 0 0 0 4)
def isReserved (address : BitVec 32) : Bool := inNetwork address (network 240 0 0 0 4)
def isLoopbackBits (address : BitVec 32) : Bool := inNetwork address (network 127 0 0 0 8)
def isLinkLocal (address : BitVec 32) : Bool := inNetwork address (network 169 254 0 0 16)

def privateNetworks : List (BitVec 32 × ℕ) :=
  [network 0 0 0 0 8,network 10 0 0 0 8,network 127 0 0 0 8,network 169 254 0 0 16,
    network 172 16 0 0 12,network 192 0 0 0 24,network 192 0 2 0 24,network 192 168 0 0 16,
    network 198 18 0 0 15,network 198 51 100 0 24,network 203 0 113 0 24,network 240 0 0 0 4]

/-- `_private_networks_exceptions`: two anycast addresses of the block 192.0.0.0/24. -/
def privateExceptions : List (BitVec 32 × ℕ) := [network 192 0 0 9 32,network 192 0 0 10 32]

/-- `ipaddress.IPv4Address.is_private`: the special-purpose registry. -/
def isPrivate (address : BitVec 32) : Bool :=
  privateNetworks.any (inNetwork address) && !privateExceptions.any (inNetwork address)

def isGlobal (address : BitVec 32) : Bool :=
  !inNetwork address (network 100 64 0 0 10) && !isPrivate address

def nonReviewedNetworks : List (BitVec 32 × ℕ) :=
  [network 0 0 0 0 8,network 10 0 0 0 8,network 100 64 0 0 10,network 127 0 0 0 8,
    network 169 254 0 0 16,network 172 16 0 0 12,network 192 0 0 0 24,network 192 0 2 0 24,
    network 192 88 99 0 24,network 192 168 0 0 16,network 198 18 0 0 15,network 198 51 100 0 24,
    network 203 0 113 0 24,network 224 0 0 0 4,network 240 0 0 0 4]

def isGlobalIpv4 : Addr → Bool
  | .text _ => false
  | .v4 a => isGlobal a && !isMulticast a && !isReserved a && !isUnspecified a &&
      !isLoopbackBits a && !isLinkLocal a && !nonReviewedNetworks.any (inNetwork a)

/-- `address.version == 4 and address.is_loopback`. -/
def isLoopback : Addr → Bool
  | .text _ => false
  | .v4 a => isLoopbackBits a

def localhost : Addr := dotted 127 0 0 1

/-- `_local_ipv4_snapshot`: the usable unicast addresses, with `127.0.0.1` always present. -/
def localIpv4Snapshot (values : List Addr) : List Addr :=
  localhost :: values.filter fun value =>
    match value with
    | .text _ => false
    | .v4 a => !isUnspecified a && !isMulticast a && value ≠ dotted 255 255 255 255

end Addr

structure FlowKey where
  proto : Proto
  srcIp : Addr
  sport : ℕ
  dstIp : Addr
  dport : ℕ
  deriving DecidableEq

end FakeNetNG
