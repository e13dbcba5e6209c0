import FakeNetNG.Hostname

/-!
# The ClientHello reader

`parse_client_hello` and the loop that feeds it. The parser walks TLS records from the
front, so it is written here on the bytes that are left instead of an offset into all of
them. A `ClientHelloError` is kept as its message.
-/

namespace FakeNetNG
namespace ClientHello

def fromBytes (data : List UInt8) : ℕ := data.foldl (fun n b => n*256+b.toNat) 0

/-- The status that `parse_client_hello` returns when it does not raise. -/
inductive Status
  | needMore
  | ok (sni : String)
  deriving DecidableEq

/-- `_take` on the bytes that are left: what is taken and the rest. -/
def take (data : List UInt8) (count : ℕ) : Except String (List UInt8 × List UInt8) :=
  if data.length < count then .error "truncated ClientHello"
  else .ok (data.take count,data.drop count)

variable (idna : String → Option String)

def decodeName (nameRaw : List UInt8) : Except String String :=
  if nameRaw.all (· < 128) then
    match Hostname.normalizeHostname idna (String.ofList (nameRaw.map fun b => Char.ofNat b.toNat)) with
    | .ok name => .ok name
    | .error _ => .error "invalid SNI hostname"
  else .error "invalid SNI hostname"

def parseNames (names : List String) (data : List UInt8) : Except String (List String) :=
  match data with
  | [] => .ok names
  | nameType::hi::lo::rest =>
    let nameLen := fromBytes [hi,lo]
    if rest.length < nameLen then .error "truncated ClientHello"
    else if nameType = 0 then
      match decodeName idna (rest.take nameLen) with
      | .error e => .error e
      | .ok name => parseNames (names++[name]) (rest.drop nameLen)
    else parseNames names (rest.drop nameLen)
  | _ => .error "truncated ClientHello"
termination_by data.length
decreasing_by all_goals simp only [List.length_drop,List.length_cons]; omega

def parseExtension (names : List String) (extType : ℕ) (extData : List UInt8) :
    Except String (List String) :=
  if extType = 0xfe0d ∨ extType = 0xffce then .error "ECH extension is not allowed"
  else if extType = 0 then
    if extData.length < 2 ∨ fromBytes (extData.take 2) ≠ extData.length-2 then
      .error "invalid server_name extension"
    else parseNames idna names (extData.drop 2)
  else .ok names

def parseExtensions (names : List String) (data : List UInt8) : Except String (List String) :=
  match data with
  | [] => .ok names
  | t₁::t₂::l₁::l₂::rest =>
    let extLen := fromBytes [l₁,l₂]
    if rest.length < extLen then .error "truncated ClientHello"
    else
      match parseExtension idna names (fromBytes [t₁,t₂]) (rest.take extLen) with
      | .error e => .error e
      | .ok names => parseExtensions names (rest.drop extLen)
  | _ => .error "truncated ClientHello"
termination_by data.length
decreasing_by all_goals simp only [List.length_drop,List.length_cons]; omega

def parseClientHelloBody (body : List UInt8) : Except String String := do
  let (_,rest) ← take body (2+32)
  match rest with
  | [] => .error "missing session id"
  | sessionLength::rest =>
    let (_,rest) ← take rest sessionLength.toNat
    let (cipherLenRaw,rest) ← take rest 2
    let cipherLen := fromBytes cipherLenRaw
    if cipherLen < 2 ∨ cipherLen % 2 ≠ 0 then .error "invalid cipher suite vector"
    else
      let (_,rest) ← take rest cipherLen
      let (compressionLenRaw,rest) ← take rest 1
      let (_,rest) ← take rest (fromBytes compressionLenRaw)
      let (extensionsLenRaw,rest) ← take rest 2
      let (extensions,rest) ← take rest (fromBytes extensionsLenRaw)
      if rest ≠ [] then .error "trailing ClientHello bytes"
      else
        let names ← parseExtensions idna [] extensions
        match names with
        | [name] => .ok name
        | _ => .error "exactly one cleartext SNI hostname is required"

def announce (handshake : List UInt8) (required : Option ℕ) : Except String (Option ℕ) :=
  if 4 ≤ handshake.length ∧ required = none then
    if handshake.head? ≠ some 1 then .error "first handshake message is not ClientHello"
    else
      let required := 4+fromBytes ((handshake.take 4).drop 1)
      if 65536 < required then .error "ClientHello exceeds reviewed limit"
      else .ok (some required)
  else .ok required

/-- The loop of `parse_client_hello` on the bytes after the offset. -/
def parseRecords (handshake : List UInt8) (required : Option ℕ) (data : List UInt8) :
    Except String Status :=
  if required.any (· ≤ handshake.length) then
    (parseClientHelloBody idna ((handshake.take (required.getD 0)).drop 4)).map .ok
  else
    match data with
    | contentType::major::_::hi::lo::rest =>
      let recordLength := fromBytes [hi,lo]
      if contentType ≠ 22 ∨ major ≠ 3 then .error "not a TLS handshake record"
      else if 18432 < recordLength then .error "TLS record exceeds protocol limit"
      else if rest.length < recordLength then .ok .needMore
      else
        match announce (handshake++rest.take recordLength) required with
        | .error e => .error e
        | .ok required =>
          parseRecords (handshake++rest.take recordLength) required (rest.drop recordLength)
    | _ => .ok .needMore
termination_by data.length
decreasing_by simp only [List.length_drop,List.length_cons]; omega

def parseClientHello (data : List UInt8) : Except String Status := parseRecords idna [] none data

/-- What one `recv` gives, and the clock just before it. -/
structure Chunk where
  now : ℚ
  bytes : List UInt8

/-- `_read_client_hello` with the chunks that `recv` gives; after them the peer has closed,
which the reader learns at `eofAt`. -/
def readClientHello (helloMaxBytes : ℕ) (deadline eofAt : ℚ) (data : List UInt8) :
    List Chunk → Except String (List UInt8 × String)
  | [] =>
    if helloMaxBytes ≤ data.length then .error "ClientHello size limit exceeded"
    else if deadline ≤ eofAt then .error "ClientHello timeout"
    else .error "EOF before ClientHello"
  | chunk::chunks =>
    if helloMaxBytes ≤ data.length then .error "ClientHello size limit exceeded"
    else if deadline ≤ chunk.now then .error "ClientHello timeout"
    else if chunk.bytes = [] then .error "EOF before ClientHello"
    else
      match parseClientHello idna (data++chunk.bytes) with
      | .error e => .error e
      | .ok (.ok sni) => .ok (data++chunk.bytes,sni)
      | .ok .needMore =>
        readClientHello helloMaxBytes deadline eofAt (data++chunk.bytes) chunks

end ClientHello
end FakeNetNG
