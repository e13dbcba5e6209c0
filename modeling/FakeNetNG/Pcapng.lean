import FakeNetNG.BlockScan
import FakeNetNG.IpNetwork
import FakeNetNG.Utf8Text

/-!
# Reading a pcapng capture

`parse_capture` reads the blocks of a capture one after another. A block that it does not accept ends the reading,
and the packets of the blocks before it have been observed nevertheless.
-/

namespace FakeNetNG
namespace Pcapng

open Text

abbrev Bytes := List UInt8

def limit : ℕ := 4*1024*1024

/-- `raw[a:b]`. -/
def slice (a b : ℕ) (raw : Bytes) : Bytes := (raw.take b).drop a

inductive Endian
  | little | big
  deriving DecidableEq

def Endian.number : Endian → Bytes → ℕ
  | little, raw => Nat.ofDigits 256 (raw.map UInt8.toNat)
  | big, raw => Nat.ofDigits 256 (raw.reverse.map UInt8.toNat)

def Endian.unpack (endian : Endian) (offset size : ℕ) (raw : Bytes) : ℕ := endian.number (slice offset (offset+size) raw)

/-- `if not condition: raise ValueError(text)`. -/
def ensure (condition : Bool) (text : String) : Except String Unit := if condition then .ok () else .error text

def need {α : Type} (value : Option α) (text : String) : Except String α :=
  match value with
  | none => .error text
  | some a => .ok a

/-- The loop of `_options`; each turn takes at least four bytes. -/
@[grind] def optionsFrom (endian : Endian) : ℕ → Bytes → List (ℕ × Bytes) → Except String (List (ℕ × Bytes))
  | 0, _, result => .ok result
  | fuel+1, raw, result =>
    if raw.length < 4 then .ok result
    else
      let code := endian.unpack 0 2 raw
      let length := endian.unpack 2 2 raw
      let rest := raw.drop 4
      if code = 0 then .ok result
      else if rest.length < length ∨ (result.lookup code).isSome then .error "invalid pcapng options"
      else optionsFrom endian fuel (rest.drop ((length+3)/4*4)) (result++[(code,rest.take length)])

def options (endian : Endian) (raw : Bytes) : Except String (List (ℕ × Bytes)) := optionsFrom endian raw.length raw []

theorem optionsFrom_fuel {endian : Endian} {fuel : ℕ} {raw : Bytes} (result : List (ℕ × Bytes)) (h : raw.length ≤ fuel) :
    optionsFrom endian (fuel+1) raw result = optionsFrom endian fuel raw result := by
  induction fuel generalizing raw result with
  | zero => rw [optionsFrom,optionsFrom,if_pos (by omega)]
  | succ fuel ih =>
    rw [optionsFrom]
    conv => rhs; rw [optionsFrom]
    by_cases hshort : raw.length < 4
    · rw [if_pos hshort,if_pos hshort]
    have hrest : ((raw.drop 4).drop ((endian.unpack 2 2 raw+3)/4*4)).length ≤ fuel := by
      simp only [List.length_drop]
      omega
    rw [if_neg hshort,if_neg hshort]
    simp only [ih _ hrest]

structure Interface where
  name : Text
  scale : ℕ

inductive Family
  | ipv4 | ipv6
  deriving DecidableEq

structure Packet where
  interface : Text
  mac : Text
  time : ℚ
  family : Family
  source : Text
  destination : Text
  protocol : ℕ
  sourcePort : Option ℕ
  destinationPort : Option ℕ
  payload : Bytes

/-- The variables of the loop over the blocks. -/
structure Scan where
  endian : Option Endian
  interfaces : List Interface
  packets : List Packet
  stats : List (ℕ × ℕ)

def Scan.init : Scan where
  endian := none
  interfaces := []
  packets := []
  stats := []

def sectionHeader : Bytes := [0x0a,0x0d,0x0d,0x0a]

def byteOrder (magic : Bytes) : Option Endian :=
  if magic = [0x4d,0x3c,0x2b,0x1a] then some .little
  else if magic = [0x1a,0x2b,0x3c,0x4d] then some .big
  else none

def startsSection (raw : Bytes) : Bool := raw.take 4 = sectionHeader

def openSection (raw : Bytes) (s : Scan) : Except String Scan :=
  if startsSection raw then
    if s.endian.isSome then .error "multiple capture sections"
    else .ok { s with endian := byteOrder (slice 8 12 raw) }
  else .ok s

/-- `'%02x' % b`. -/
def hex2 (b : UInt8) : Text := [Nat.digitChar (b.toNat/16),Nat.digitChar (b.toNat%16)]

def macText (raw : Bytes) : Text := join [':'] (raw.map hex2)

/-- `str(ipaddress.ip_address(raw))` of four bytes. -/
def addressV4 (raw : Bytes) : Text := IpAddress.dotted (BitVec.ofNat 32 (Endian.big.number raw))

/-- `str(ipaddress.ip_address(raw))` of sixteen bytes. -/
def addressV6 (raw : Bytes) : Text :=
  join [':'] (IpNetwork.compressHextets (IpNetwork.hextets (BitVec.ofNat 128 (Endian.big.number raw))))

def readInterface (endian : Endian) (body : Bytes) (s : Scan) : Except String Scan := do
  ensure (8 ≤ body.length) "invalid interface block"
  let link := endian.unpack 0 2 body
  let snap := endian.unpack 4 4 body
  let opts ← options endian (body.drop 8)
  ensure (link = 1 ∧ 65535 ≤ snap) "unsupported capture link or snapshot length"
  let resolution := (opts.lookup 9).getD [6]
  ensure (resolution.length = 1 ∧ (resolution.headD 0).toNat < 128) "unsupported timestamp resolution"
  let name ← need (Utf8.decode ((opts.lookup 2).getD [])) "'utf-8' codec can't decode the name"
  return { s with interfaces := s.interfaces++[⟨name,10^(resolution.headD 0).toNat⟩] }

/-- What the header of an IP packet says. -/
structure Header where
  family : Family
  source : Text
  destination : Text
  protocol : ℕ
  offset : ℕ

def readIpv4 (packet : Bytes) : Except String Header := do
  ensure (20 ≤ packet.length ∧ (packet.headD 0).toNat/16 = 4) "short IPv4 packet"
  let offset := (packet.headD 0).toNat%16*4
  ensure (20 ≤ offset ∧ offset ≤ packet.length) "invalid IPv4 header"
  return ⟨.ipv4,addressV4 (slice 12 16 packet),addressV4 (slice 16 20 packet),Endian.big.unpack 9 1 packet,offset⟩

def readIpv6 (packet : Bytes) : Except String Header := do
  ensure (40 ≤ packet.length ∧ (packet.headD 0).toNat/16 = 6) "short IPv6 packet"
  return ⟨.ipv6,addressV6 (slice 8 24 packet),addressV6 (slice 24 40 packet),Endian.big.unpack 6 1 packet,40⟩

def readHeader (ethertype : ℕ) (packet : Bytes) : Except String Header :=
  if ethertype = 0x0800 then readIpv4 packet
  else if ethertype = 0x86dd then readIpv6 packet
  else .error "unsupported captured Ethernet payload"

def portAt (header : Header) (packet : Bytes) (offset : ℕ) : Option ℕ :=
  if (header.protocol = 6 ∨ header.protocol = 17) ∧ header.offset+4 ≤ packet.length then
    some (Endian.big.unpack (header.offset+offset) 2 packet)
  else none

def readPacket (endian : Endian) (body : Bytes) (s : Scan) : Except String Scan := do
  ensure (20 ≤ body.length) "invalid packet block"
  let size := endian.unpack 12 4 body
  let iface ← need s.interfaces[endian.unpack 0 4 body]? "truncated packet or unknown interface"
  ensure (size = endian.unpack 16 4 body ∧ 20+size ≤ body.length) "truncated packet or unknown interface"
  let frame := slice 20 (20+size) body
  ensure (14 ≤ frame.length) "short Ethernet frame"
  let packet := frame.drop 14
  let header ← readHeader (Endian.big.unpack 12 2 frame) packet
  return { s with
    packets := s.packets++[{
      interface := iface.name
      mac := macText (slice 6 12 frame)
      time := (endian.unpack 4 4 body*2^32+endian.unpack 8 4 body : ℕ)/(iface.scale : ℚ)
      family := header.family
      source := header.source
      destination := header.destination
      protocol := header.protocol
      sourcePort := portAt header packet 0
      destinationPort := portAt header packet 2
      payload := packet.drop header.offset }] }

def counter (endian : Endian) (raw : Bytes) (text : String) : Except String ℕ :=
  if raw.length = 8 then .ok (endian.number raw) else .error text

def osCounter (endian : Endian) : Option Bytes → Except String ℕ
  | none => .ok 0
  | some raw => counter endian raw "invalid OS drop statistics"

def readStatistics (endian : Endian) (body : Bytes) (s : Scan) : Except String Scan := do
  ensure (12 ≤ body.length) "invalid statistics block"
  let iface := endian.unpack 0 4 body
  let opts ← options endian (body.drop 12)
  ensure (iface < s.interfaces.length ∧ (s.stats.lookup iface).isNone) "invalid statistics interface"
  let drops ← counter endian ((opts.lookup 5).getD []) "capture drop statistics missing"
  let osDrops ← osCounter endian (opts.lookup 7)
  return { s with stats := s.stats++[(iface,drops+osDrops)] }

def readBody (endian : Endian) (kind : ℕ) (body : Bytes) (s : Scan) : Except String Scan :=
  if kind = 1 then readInterface endian body s
  else if kind = 6 then readPacket endian body s
  else if kind = 5 then readStatistics endian body s
  else if kind = 0x0a0d0d0a ∨ kind = 4 then .ok s
  else .error "unsupported pcapng block"

/-- One turn of the loop, on the bytes from `pos` on. -/
def scanBlock (s : Scan) (raw : Bytes) : Except String (Scan × Bytes) := do
  ensure (12 ≤ raw.length) "truncated pcapng"
  let s ← openSection raw s
  let endian ← need s.endian "pcapng section missing"
  let kind := endian.unpack 0 4 raw
  let length := endian.unpack 4 4 raw
  ensure (12 ≤ length ∧ length%4 = 0 ∧ length ≤ raw.length) "invalid pcapng block"
  ensure (endian.unpack (length-4) 4 raw = length) "pcapng block length mismatch"
  let s ← readBody endian kind (slice 8 (length-4) raw) s
  return (s,raw.drop length)

structure Capture where
  interfaces : List Interface
  packets : List Packet
  drops : List (ℕ × ℕ)

def finish (s : Scan) : Except String Capture := do
  ensure (!s.interfaces.isEmpty && ((List.range s.interfaces.length).all fun i => (s.stats.lookup i).isSome) &&
    s.stats.all fun entry => entry.1 < s.interfaces.length) "final capture statistics missing"
  ensure (s.stats.all fun entry => entry.2 = 0) "capture dropped packets"
  return ⟨s.interfaces,s.packets,s.stats⟩

/-- `parse_capture`: the packets that were observed, and the capture if it was read to the end. -/
def parseCapture (raw : Bytes) : List Packet × Except String Capture :=
  if raw.length < 28 ∨ limit ≤ raw.length then ([],.error "capture size invalid or limit reached")
  else
    match BlockScan.scan scanBlock raw.length Scan.init raw with
    | (s,some text) => (s.packets,.error text)
    | (s,none) => (s.packets,finish s)

end Pcapng
end FakeNetNG
