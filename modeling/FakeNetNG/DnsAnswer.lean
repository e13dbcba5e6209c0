import FakeNetNG.Addresses
import FakeNetNG.Fallible
import FakeNetNG.Hostname
import FakeNetNG.OrderedDict

/-!
# Upstream DNS answers

`_validate_and_synthesize` of the DNS listener and what it uses of `dnslib`: the names of
a parsed message, the walk along the CNAME records, the checks of the three sections and
the calls that install authority. The `idna` codec is a parameter, and the callbacks act
on a state of any type.
-/

namespace FakeNetNG
namespace Dns

inductive DnsError
  | value (message : String)
  /-- The `UnicodeError` of the codec. -/
  | unicode
  | stopIteration
  /-- "Domain label too long". -/
  | nameTooLong (label : List (List UInt8))
  /-- "Label component too long". -/
  | labelTooLong (element : List UInt8)
  | policy (e : PolicyError)
  deriving DecidableEq

/-- `dnslib.DNSLabel`: the octets of each label. -/
structure DNSLabel where
  label : List (List UInt8)
  deriving DecidableEq

namespace DNSLabel

/-- `_decode` of one octet: `"\\%03d"` unless it is printable. -/
def decodeOctet (b : UInt8) : List Char :=
  if 33 ≤ b.toNat ∧ b.toNat < 127 then [Char.ofNat b.toNat]
  else ['\\',Nat.digitChar (b.toNat/100),Nat.digitChar (b.toNat/10%10),Nat.digitChar (b.toNat%10)]

def toText (name : DNSLabel) : String :=
  String.ofList (List.intercalate ['.'] (name.label.map fun l => l.flatMap decodeOctet)++['.'])

def rstripDots (text : List Char) : List Char := (text.reverse.dropWhile (· = '.')).reverse

/-- `ESCAPE.sub(lambda m: chr(int(m[1])), text)` for three digits after a backslash. -/
def unescape : List Char → List Char
  | '\\' :: a :: b :: c :: rest =>
    if a.isDigit && b.isDigit && c.isDigit then
      Char.ofNat ((a.toNat-48)*100+(b.toNat-48)*10+(c.toNat-48)) :: unescape rest
    else '\\' :: unescape (a :: b :: c :: rest)
  | c :: rest => c :: unescape rest
  | [] => []

def ofText (idna : String → Option String) (text : String) : Except DnsError DNSLabel :=
  if text = "" ∨ text = "." then .ok ⟨[]⟩
  else
    match idna (String.ofList (unescape text.toList)) with
    | none => .error .unicode
    | some encoded => .ok ⟨((rstripDots encoded.toList).splitOn '.').map fun l =>
        l.map fun c => UInt8.ofNat c.toNat⟩

end DNSLabel

def normName (idna : String → Option String) (value : String) : Except DnsError String :=
  match idna (String.ofList (DNSLabel.rstripDots value.toList)) with
  | none => .error .unicode
  | some encoded => .ok (String.ofList (encoded.toList.map Char.toLower))

inductive RData
  | a (address : BitVec 32)
  | cname (label : DNSLabel)
  | ns (label : DNSLabel)
  /-- A record of any other type. -/
  | other

structure RR where
  rname : DNSLabel
  ttl : ℕ
  rdata : RData

structure DNSHeader where
  id : ℕ
  qr : Bool
  aa : Bool
  ra : Bool
  rd : Bool
  rcode : ℕ

structure DNSQuestion where
  qname : DNSLabel
  qtype : ℕ
  qclass : ℕ

structure DNSRecord where
  header : DNSHeader
  q : DNSQuestion
  rr : List RR
  auth : List RR
  ar : List RR

/-- `dnslib.DNSBuffer` while it is written: the data and the offsets of the names in it. -/
structure DNSBuffer where
  data : List UInt8
  names : Dict (List (List UInt8)) ℕ

namespace DNSBuffer

/-- `struct.pack` of one number in network order. -/
def bigEndian (width n : ℕ) : List UInt8 :=
  (List.range width).reverse.map fun i => UInt8.ofNat (n/256^i)

def append (b : DNSBuffer) (octets : List UInt8) : DNSBuffer := { b with data := b.data++octets }

/-- The loop of `encode_name`; a name that is there already becomes a pointer. -/
def encodeLabels : List (List UInt8) → DNSBuffer → Except DnsError DNSBuffer
  | [], b => .ok (b.append [0])
  | element :: rest, b =>
    match b.names.get? (element :: rest) with
    | some pointer => .ok (b.append (bigEndian 2 (pointer%2^14+3*2^14)))
    | none =>
      if 63 < element.length then .error (.labelTooLong element)
      else encodeLabels rest ({ b with names := b.names.set (element :: rest) b.data.length }.append
        (UInt8.ofNat element.length :: element))

def encodeName (name : DNSLabel) (b : DNSBuffer) : Except DnsError DNSBuffer :=
  if 253 < (List.intercalate [46] name.label).length then .error (.nameTooLong name.label)
  else encodeLabels name.label b

def update (ptr n : ℕ) (b : DNSBuffer) : DNSBuffer :=
  { b with data := b.data.take ptr++bigEndian 2 n++b.data.drop (ptr+2) }

end DNSBuffer

/-- `QTYPE` of the record and `rdata.pack`; a response has no record of another type. -/
def RData.pack : RData → ℕ × (DNSBuffer → Except DnsError DNSBuffer)
  | a address => (1,fun b => .ok (b.append (DNSBuffer.bigEndian 4 address.toNat)))
  | cname label => (5,DNSBuffer.encodeName label)
  | ns label => (2,DNSBuffer.encodeName label)
  | other => (0,fun b => .ok b)

def RR.pack (rr : RR) (b : DNSBuffer) : Except DnsError DNSBuffer := do
  let b ← DNSBuffer.encodeName rr.rname b
  let b := b.append (DNSBuffer.bigEndian 2 rr.rdata.pack.1++DNSBuffer.bigEndian 2 1++
    DNSBuffer.bigEndian 4 rr.ttl)
  let ptr := b.data.length
  let b ← rr.rdata.pack.2 (b.append [0,0])
  pure (b.update ptr (b.data.length-(ptr+2)))

def packAll : List RR → DNSBuffer → Except DnsError DNSBuffer
  | [], b => .ok b
  | rr :: rest, b => do
    let b ← rr.pack b
    packAll rest b

def DNSHeader.bitmap (h : DNSHeader) : ℕ :=
  h.qr.toNat*2^15+h.aa.toNat*2^10+h.rd.toNat*2^8+h.ra.toNat*2^7+h.rcode

def DNSRecord.pack (r : DNSRecord) : Except DnsError (List UInt8) := do
  let counts := [r.header.id,r.header.bitmap,1,r.rr.length,r.auth.length,r.ar.length]
  let b ← DNSBuffer.encodeName r.q.qname ⟨counts.flatMap (DNSBuffer.bigEndian 2),Dict.empty⟩
  let b := b.append (DNSBuffer.bigEndian 2 r.q.qtype++DNSBuffer.bigEndian 2 r.q.qclass)
  let b ← packAll (r.rr++r.auth++r.ar) b
  pure b.data

/-- A CNAME record between normalised names: one element of `chain`. -/
structure Link where
  owner : String
  target : String
  ttl : ℕ
  deriving DecidableEq

def checkAuthority : List RR → Except DnsError Unit
  | [] => .ok ()
  | rr :: rest =>
    match rr.rdata with
    | .a _ => .error (.value "address injection outside answer section")
    | .cname _ => .error (.value "address injection outside answer section")
    | _ => checkAuthority rest

/-- The loop over the answer section: `cnames` and `addresses` by owner. -/
def readAnswers (idna : String → Option String) : List RR → Dict String (String × ℕ) →
    Dict String (List (BitVec 32 × ℕ)) →
    Except DnsError (Dict String (String × ℕ) × Dict String (List (BitVec 32 × ℕ)))
  | [], cnames, addresses => .ok (cnames,addresses)
  | rr :: rest, cnames, addresses => do
    let owner ← normName idna rr.rname.toText
    match rr.rdata with
    | .cname label =>
      if cnames.contains owner then .error (.value "multiple CNAME records for one owner")
      else
        let target ← normName idna label.toText
        readAnswers idna rest (cnames.set owner (target,rr.ttl)) addresses
    | .a address =>
      readAnswers idna rest cnames
        (addresses.set owner ((addresses.get? owner).getD []++[(address,rr.ttl)]))
    | _ => .error (.value "unexpected answer type")

/-- The walk along the CNAME records. The owners in `chain` are `visited`. -/
def walk (cnames : Dict String (String × ℕ)) (current : String) (chain : List Link) :
    Except DnsError (String × List Link) :=
  match cnames.get? current with
  | none => .ok (current,chain)
  | some (target,ttl) =>
    if current ∈ chain.map Link.owner ∨ 16 ≤ chain.length then
      .error (.value "CNAME loop or excessive chain")
    else walk cnames target (chain++[⟨current,target,ttl⟩])
termination_by 16-chain.length
decreasing_by simp only [List.length_append,List.length_singleton]; omega

def isBelow (name owner : String) : Bool :=
  name ≠ owner && (owner = "" || ('.' :: owner.toList).isSuffixOf name.toList)

def glueNames (idna : String → Option String) (relevant : List String) :
    List RR → Except DnsError (List String)
  | [] => .ok []
  | rr :: rest =>
    match rr.rdata with
    | .ns label => do
      let owner ← normName idna rr.rname.toText
      if relevant.any (isBelow · owner) then
        let glue ← normName idna label.toText
        let more ← glueNames idna relevant rest
        pure (glue :: more)
      else glueNames idna relevant rest
    | _ => glueNames idna relevant rest

def checkAdditional (idna : String → Option String) (relevant glue : List String) :
    List RR → Except DnsError Unit
  | [] => .ok ()
  | rr :: rest =>
    match rr.rdata with
    | .cname _ => .error (.value "address injection outside answer section")
    | .a address => do
      let owner ← normName idna rr.rname.toText
      -- an A record of four octets is an IPv4 address
      if owner ∉ glue ∨ owner ∈ relevant ∨ !Addr.isGlobal address then
        .error (.value "address injection outside answer section")
      else checkAdditional idna relevant glue rest
    | _ => checkAdditional idna relevant glue rest

def minTtl : List ℕ → ℕ
  | [] => 0
  | ttl :: ttls => ttls.foldr min ttl

def cnameAnswers (idna : String → Option String) : List Link → Except DnsError (List RR)
  | [] => .ok []
  | link :: rest => do
    let target ← DNSLabel.ofText idna link.target
    let owner ← DNSLabel.ofText idna link.owner
    let more ← cnameAnswers idna rest
    pure (⟨owner,link.ttl,.cname target⟩ :: more)

/-- `records` and the A records of the response, with `min(chain_ttls + [ttl])`. -/
def addressAnswers (idna : String → Option String) (current : String) (chainTtls : List ℕ) :
    List (BitVec 32 × ℕ) → Except DnsError (List (Addr × ℤ) × List RR)
  | [] => .ok ([],[])
  | (address,ttl) :: rest =>
    if !Addr.isGlobal address then .error (.value "upstream returned non-global IPv4")
    else if minTtl (chainTtls++[ttl]) ≤ 0 then addressAnswers idna current chainTtls rest
    else do
      let owner ← DNSLabel.ofText idna current
      let (records,answers) ← addressAnswers idna current chainTtls rest
      pure ((.v4 address,minTtl (chainTtls++[ttl])) :: records,
        ⟨owner,minTtl (chainTtls++[ttl]),.a address⟩ :: answers)

structure Synthesis where
  current : String
  chain : List Link
  hosts : List (BitVec 32 × ℕ)
  records : List (Addr × ℤ)
  response : DNSRecord

def synthesize (idna : String → Option String) (request upstream : DNSRecord) (qname : String) :
    Except DnsError Synthesis := do
  checkAuthority upstream.auth
  let (cnames,addresses) ← readAnswers idna upstream.rr Dict.empty Dict.empty
  let start ← normName idna qname
  let (current,chain) ← walk cnames start []
  let relevant := chain.map Link.owner++[current]
  if cnames.keys.any (· ∉ relevant) || addresses.keys.any (· ≠ current) then
    .error (.value "unrelated DNS answer owner")
  else
    let glue ← glueNames idna relevant upstream.auth
    checkAdditional idna relevant glue upstream.ar
    let aliases ← cnameAnswers idna chain
    let hosts := (addresses.get? current).getD []
    let (records,answers) ← addressAnswers idna current (chain.map Link.ttl) hosts
    pure ⟨current,chain,hosts,records,
      ⟨⟨request.header.id,true,false,true,request.header.rd,0⟩,request.q,aliases++answers,[],[]⟩⟩

inductive EgressEvent
  | dnsLeaseAdd (domain : String) (ip : Addr) (ttl : ℤ)
  | ipAllowDomainOverlap (domain : String) (ip : Addr) (ruleIds : String)

structure Callbacks (σ : Type) where
  replaceDnsLeases : String → List (Addr × ℤ) → Fallible σ DnsError (List Addr)
  registerDnsAlias : String → String → ℤ → Fallible σ DnsError Unit
  logEgressEvent : EgressEvent → Fallible σ DnsError Unit

variable {σ : Type}

abbrev RuleIds := Dict Addr (List String)

def logLeases (cb : Callbacks σ) (reviewed : RuleIds) (allowedRoot : String)
    (records : List (Addr × ℤ)) : List Addr → Fallible σ DnsError Unit
  | [] => pure ()
  | address :: rest =>
    match records.find? (·.1 = address) with
    | none => Fallible.raise .stopIteration
    | some (_,ttl) => do
      cb.logEgressEvent (.dnsLeaseAdd allowedRoot address ttl)
      match (reviewed.get? address).getD [] with
      | [] => logLeases cb reviewed allowedRoot records rest
      | id :: ids =>
        -- a failure of this event is only a warning
        (cb.logEgressEvent (.ipAllowDomainOverlap allowedRoot address
          (";".intercalate (id :: ids)))).tryExcept fun _ => pure ()
        logLeases cb reviewed allowedRoot records rest

def install (cb : Callbacks σ) (reviewed : RuleIds) (allowedRoot : String) (v : Synthesis) :
    Fallible σ DnsError Unit :=
  if v.records ≠ [] then do
    let installed ← cb.replaceDnsLeases allowedRoot v.records
    logLeases cb reviewed allowedRoot v.records installed
  else if v.hosts ≠ [] then
    Fallible.raise (.value "upstream answer has no positive-TTL A record")
  else if v.chain ≠ [] then
    if 0 < minTtl (v.chain.map Link.ttl) then
      cb.registerDnsAlias allowedRoot v.current (minTtl (v.chain.map Link.ttl))
    else pure ()
  else Fallible.raise (.value "upstream answer has no CNAME or A record")

def validateAndSynthesize (idna : String → Option String) (cb : Callbacks σ) (reviewed : RuleIds)
    (request upstream : DNSRecord) (qname allowedRoot : String) :
    Fallible σ DnsError (List UInt8) := do
  let v ← Fallible.ofExcept (synthesize idna request upstream qname)
  install cb reviewed allowedRoot v
  Fallible.ofExcept v.response.pack

end Dns
end FakeNetNG
