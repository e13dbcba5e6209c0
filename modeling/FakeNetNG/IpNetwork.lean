import FakeNetNG.IpText

/-!
# Networks

`ip_network` reads an address with a prefix length, or a mask, and clears the bits of the host. Its text is the
shortest one of the address with the prefix length.
-/

namespace FakeNetNG

open Text

inductive IpNetwork
  | v4 (bits : BitVec 32) (prefixlen : ℕ)
  /-- The scope stands with its sign. -/
  | v6 (bits : BitVec 128) (scope : Text) (prefixlen : ℕ)
  deriving DecidableEq

namespace IpNetwork

def prefixFromPrefixString (maxPrefixlen : ℕ) (text : Text) : Option ℕ :=
  if isDecimal text ∧ readDecimal text ≤ maxPrefixlen then some (readDecimal text) else none

/-- `_prefix_from_ip_int`: the length of the ones that the mask starts with, when only zeros follow. -/
def prefixFromIpInt (mask : ℕ) : Option ℕ := (List.range 33).find? fun prefixlen => mask = 2^32-2^(32-prefixlen)

/-- `_prefix_from_ip_string`: a mask of the network, else one of the hosts. -/
def prefixFromIpString (text : Text) : Option ℕ :=
  match IpAddress.readV4 text with
  | none => none
  | some mask => (prefixFromIpInt mask.toNat).or (prefixFromIpInt (2^32-1-mask.toNat))

def clear (width prefixlen value : ℕ) : ℕ := value/2^(width-prefixlen)*2^(width-prefixlen)

def readV4 (address : Text) (mask : Option Text) : Option IpNetwork := do
  let bits ← IpAddress.readV4 address
  let prefixlen ←
    match mask with
    | none => some 32
    | some mask => (prefixFromPrefixString 32 mask).or (prefixFromIpString mask)
  return .v4 (BitVec.ofNat 32 (clear 32 prefixlen bits.toNat)) prefixlen

def readV6 (address : Text) (mask : Option Text) : Option IpNetwork := do
  let bits ← IpAddress.readV6 address
  let prefixlen ←
    match mask with
    | none => some 128
    | some mask => prefixFromPrefixString 128 mask
  let network := clear 128 prefixlen bits.toNat
  if network = bits.toNat then return .v6 bits (address.dropWhile (· ≠ '%')) prefixlen
  else return .v6 (BitVec.ofNat 128 network) [] prefixlen

/-- `ip_network(text, strict=False)`. -/
def read (text : Text) : Option IpNetwork :=
  match split '/' text with
  | [address] => (readV4 address none).or (readV6 address none)
  | [address,mask] => (readV4 address (some mask)).or (readV6 address (some mask))
  | _ => none

/-- A run of zero groups: where it starts and how long it is. -/
structure Run where
  start : ℕ
  length : ℕ

/-- The longest run of zeros, the first of several. -/
def longestRun : List Text → ℕ → Run → Run → Run
  | [], _, _, best => best
  | group :: rest, index, current, best =>
    if group = ['0'] then
      let current : Run := if current.length = 0 then ⟨index,1⟩ else ⟨current.start,current.length+1⟩
      longestRun rest (index+1) current (if best.length < current.length then current else best)
    else longestRun rest (index+1) ⟨index,0⟩ best

def compressHextets (groups : List Text) : List Text :=
  let best := longestRun groups 0 ⟨0,0⟩ ⟨0,0⟩
  if best.length ≤ 1 then groups
  else
    let final := best.start+best.length
    let groups := groups.take best.start++[[]]++groups.drop final++(if final = groups.length then [[]] else [])
    if best.start = 0 then [] :: groups else groups

def hextets (bits : BitVec 128) : List Text :=
  (List.range 8).map fun i => Nat.toDigits 16 (bits.toNat/65536^(7-i)%65536)

def withPrefixlen : IpNetwork → Text
  | .v4 bits prefixlen => IpAddress.dotted bits++ '/' :: decimal prefixlen
  | .v6 bits scope prefixlen => join [':'] (compressHextets (hextets bits))++scope++ '/' :: decimal prefixlen

def loopback : Text := "::1/128".toList

def multicast : Text := "ff00::/8".toList

example : (read "0:0::0001".toList).map withPrefixlen = some loopback := by decide
example : (read "FF02:0::5/8".toList).map withPrefixlen = some multicast := by decide
example : (read "10.1.2.3/0.0.255.255".toList).map withPrefixlen = some "10.1.0.0/16".toList := by decide

end IpNetwork
end FakeNetNG
