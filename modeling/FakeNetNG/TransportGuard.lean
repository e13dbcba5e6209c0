import FakeNetNG.JsonTokens

/-!
# The guard of the MCP transport

The middleware stands before the MCP endpoint. It compares the headers of a request with its body and either
forwards the request, whose body it has read, or answers it with an error.
-/

namespace FakeNetNG
namespace TransportGuard

open JsonTokens

abbrev Bytes := List UInt8

def py (text : String) : PyText := ofText text.toList

def mcpProtocolVersion : PyText := py "2026-07-28"

def legacyVersions : List PyText := [py "2024-11-05",py "2025-03-26",py "2025-06-18",py "2025-11-25"]

def methodsNeedingName : List PyText := [py "tools/call",py "resources/read",py "prompts/get"]

def legacyMethods : List PyText := [py "initialize",py "notifications/initialized"]

def jsonrpcInvalidRequest : ℤ := -32600

def jsonrpcHeaderMismatch : ℤ := -32020

def jsonrpcUnsupportedVersion : ℤ := -32022

/-- How `json.loads(body.decode('utf-8'))` ends; bodies that nest too deep exhaust the interpreter. -/
inductive Loaded
  | value (v : Value)
  | valueError
  | recursionError

/-- `json.loads` and `json.dumps` on bytes; a value that nests too deep exhausts `json.dumps` as well. -/
structure Codec where
  loads : Bytes → Loaded
  dumps : Value → Option Bytes

inductive Fault
  | typeError | attributeError | recursionError
  deriving DecidableEq

/-- `_parse_json`: `None` for what is no JSON. -/
def parseJson (codec : Codec) (body : Bytes) : Except Fault Value :=
  match codec.loads body with
  | .value v => .ok v
  | .valueError => .ok (.lit .null)
  | .recursionError => .error .recursionError

def isDict : Value → Bool
  | .obj _ => true
  | _ => false

def isList : Value → Bool
  | .arr _ => true
  | _ => false

def isNone : Value → Bool
  | .lit .null => true
  | _ => false

/-- `value == text`. -/
def isText (text : PyText) : Value → Bool
  | .str s => s = text
  | _ => false

def member (v : Value) (name : String) : Option Value :=
  match v with
  | .obj members => (members.reverse.find? fun m => m.1 = py name).map Prod.snd
  | _ => none

/-- `v.get(name)`. -/
def get (v : Value) (name : String) : Value := (member v name).getD (.lit .null)

def truthy : Value → Bool
  | .lit .null => false
  | .lit (.bool b) => b
  | .lit (.int n) => n ≠ 0
  | .lit (.float f) => f.text ≠ "0.0".toList && f.text ≠ "-0.0".toList
  | .str s => s ≠ []
  | .arr items => !items.isEmpty
  | .obj members => !members.isEmpty

def orDict (v : Value) : Value := if truthy v then v else .obj []

/-- `type(v).__name__`. -/
def typeName : Value → String
  | .lit .null => "NoneType"
  | .lit (.bool _) => "bool"
  | .lit (.int _) => "int"
  | .lit (.float _) => "float"
  | .str _ => "str"
  | .arr _ => "list"
  | .obj _ => "dict"

structure Scope where
  kind : String
  path : Option String
  method : Option String
  headers : Option (List (Bytes × Bytes))

def latin1 (raw : Bytes) : PyText := raw.map fun b => .scalar (Char.ofNat b.toNat)

/-- `lower` of a character of Latin-1. -/
def lowerByte (b : UInt8) : UInt8 :=
  if (65 ≤ b ∧ b ≤ 90) ∨ (192 ≤ b ∧ b ≤ 222 ∧ b ≠ 215) then b+32 else b

/-- `headers.get(name)`; the last header of a name counts. -/
def Scope.header (scope : Scope) (name : String) : Option PyText :=
  ((scope.headers.getD []).reverse.find? fun h => latin1 (h.1.map lowerByte) = py name).map fun h => latin1 h.2

/-- An event that `receive` gives. -/
inductive Event
  | request (body : Option Bytes) (moreBody : Bool)
  | other

/-- `_read_body`; `none` while it waits for more events. -/
def readBody : List Event → Option Bytes
  | [] => none
  | .other :: _ => some []
  | .request body false :: _ => some (body.getD [])
  | .request body true :: rest => (readBody rest).map fun later => body.getD []++later

inductive Action
  | app
  | forward (body : Bytes) (controller : Option PyText)
  | start (status : ℕ) (headers : List (Bytes × Bytes))
  | body (raw : Bytes)

inductive Result
  | done
  | raised (fault : Fault)
  | waiting
  deriving DecidableEq

structure Run where
  actions : List Action
  result : Result

def ascii (text : String) : Bytes := text.toList.map fun c => UInt8.ofNat c.toNat

/-- `_plain`. -/
def answer (status : ℕ) (raw : Bytes) : List Action :=
  [.start status [(ascii "content-type",ascii "application/json"),(ascii "content-length",ascii (toString raw.length))],
    .body raw]

def optional : Option PyText → Value
  | none => .lit .null
  | some text => .str text

def texts (values : List PyText) : Value := .arr (values.map .str)

def errorBody (requestId : Value) (code : ℤ) (message : String) (data : Option Value) : Value :=
  .obj [(py "jsonrpc",.str (py "2.0")),(py "id",requestId),
    (py "error",.obj ([(py "code",.lit (.int code)),(py "message",.str (py message))]++
      (data.map fun v => (py "data",v)).toList))]

def raise (fault : Fault) : Run := ⟨[],.raised fault⟩

/-- `_jsonrpc`, always with the status 400. -/
def reject (codec : Codec) (payload : Value) : Run :=
  match codec.dumps payload with
  | none => raise .recursionError
  | some raw => ⟨answer 400 raw,.done⟩

section Checks

variable (codec : Codec) (scope : Scope) (body : Bytes)

/-- `_forward`, with the identity of the controller. -/
def forward : Run := ⟨[.forward body (scope.header "x-fakenet-controller-id")],.done⟩

def metaKey : String := "io.modelcontextprotocol/protocolVersion"

def mismatch (requestId : Value) (message : String) (data : Option Value) : Run :=
  reject codec (errorBody requestId jsonrpcHeaderMismatch message data)

def headerAndBody (header : Option PyText) (v : Value) : Option Value :=
  some (.obj [(py "header",optional header),(py "body",v)])

def legacyContradicts (method requested : PyText) (params : Value) : Bool :=
  let metaValue := orDict (get params "_meta")
  !isDict metaValue || (scope.header "mcp-method").any (· ≠ method) ||
    (scope.header "mcp-name").any (fun name => !isText name (get params "name")) ||
    (member metaValue metaKey).any fun v => !isText requested v

def legacyMethod (method : PyText) (params requestId : Value) : Run :=
  let version := scope.header "mcp-protocol-version"
  let initial := method = py "initialize"
  let requested := if initial then get params "protocolVersion" else optional version
  match requested with
  | .str requested =>
    if requested ∈ legacyVersions ∧ (version = some requested ∨ (initial ∧ version = none)) then
      if legacyContradicts scope method requested params then mismatch codec requestId "Header/body mismatch" none
      else forward scope body
    else unsupported
  | _ => unsupported
where
  unsupported : Run := reject codec (errorBody requestId jsonrpcUnsupportedVersion
    "Unsupported or missing legacy protocol version" (some (.obj [(py "supported",texts (mcpProtocolVersion :: legacyVersions))])))

def legacy (message : Value) : Run :=
  let params := (member message "params").getD (.obj [])
  let requestId := get message "id"
  match get message "method" with
  | .str method =>
    if isDict params then legacyMethod codec scope body method params requestId else invalid requestId
  | _ => invalid requestId
where
  invalid (requestId : Value) : Run := reject codec (errorBody requestId jsonrpcInvalidRequest "Invalid JSON-RPC request" none)

/-- The version of the protocol in `_meta`, which `get` reads of whatever stands there. -/
def metaVersion (params : Value) : Except Fault Value :=
  let metaValue := orDict (get params "_meta")
  if isDict metaValue then .ok (get metaValue metaKey) else .error .attributeError

def modernMeta (version : PyText) (params requestId : Value) : Run :=
  match metaVersion params with
  | .error fault => raise fault
  | .ok found =>
    if !isNone found && !isText version found then
      mismatch codec requestId "Header mismatch: MCP-Protocol-Version does not match body _meta"
        (headerAndBody (some version) found)
    else forward scope body

def modernName (version method : PyText) (params requestId : Value) : Run :=
  let header := scope.header "mcp-name"
  let bodyName := get params "name"
  if method ∈ methodsNeedingName ∧ ¬header.any (fun name => name ≠ [] && isText name bodyName) then
    mismatch codec requestId "Header mismatch: Mcp-Name header missing or does not match body" (headerAndBody header bodyName)
  else modernMeta codec scope body version params requestId

def modernMethod (version : PyText) (method params requestId : Value) : Run :=
  if isList method || isDict method then raise .typeError
  else if legacyMethods.any fun name => isText name method then
    reject codec (errorBody requestId jsonrpcUnsupportedVersion
      "Unsupported protocol version (legacy initialize era not served; this server speaks MCP 2026-07-28 only)"
      (some (.obj [(py "supported",texts [mcpProtocolVersion]),(py "requested",.str version)])))
  else
    match scope.header "mcp-method" with
    | none => methodMismatch none
    | some header =>
      if header ≠ [] ∧ isText header method then modernName codec scope body version header params requestId
      else methodMismatch (some header)
where
  methodMismatch (header : Option PyText) : Run :=
    mismatch codec requestId "Header mismatch: Mcp-Method header missing or does not match body" (headerAndBody header method)

def modern (version : PyText) (message : Value) : Run :=
  match member message "method" with
  | none => mismatch codec (.lit .null) "Header mismatch: request body is not a JSON-RPC request" none
  | some method =>
    let params := get message "params"
    let requestId := get message "id"
    if !isNone params && !isDict params then
      reject codec (errorBody requestId jsonrpcInvalidRequest "Invalid JSON-RPC request: params must be an object"
        (some (.obj [(py "params_type",.str (py (typeName params)))])))
    else modernMethod codec scope body version method (orDict params) requestId

end Checks

structure Middleware where
  codec : Codec
  endpointPath : String
  allowLegacyProtocol : Bool

def afterBody (codec : Codec) (events : List Event) (check : Bytes → Value → Run) : Run :=
  match readBody events with
  | none => ⟨[],.waiting⟩
  | some body =>
    match parseJson codec body with
    | .error fault => raise fault
    | .ok message => check body message

def Middleware.call (mw : Middleware) (scope : Scope) (events : List Event) : Run :=
  if scope.kind ≠ "http" then ⟨[.app],.done⟩
  else if scope.path.getD "" ≠ mw.endpointPath then ⟨[.app],.done⟩
  else if scope.method.getD "" ≠ "POST" then ⟨answer 405 (ascii "\x7b\"error\":\"method not allowed\"\x7d"),.done⟩
  else
    let version := scope.header "mcp-protocol-version"
    if mw.allowLegacyProtocol ∧ version ≠ some mcpProtocolVersion then
      afterBody mw.codec events fun body message => legacy mw.codec scope body message
    else
      match version with
      | none => required
      | some version =>
        if version = [] then required
        else if version ≠ mcpProtocolVersion then
          reject mw.codec (errorBody (.lit .null) jsonrpcUnsupportedVersion "Unsupported protocol version"
            (some (.obj [(py "supported",texts [mcpProtocolVersion]),(py "requested",.str version)])))
        else afterBody mw.codec events fun body message => modern mw.codec scope body version message
where
  required : Run := mismatch mw.codec (.lit .null) "Header mismatch: MCP-Protocol-Version header is required"
    (some (.obj [(py "supported",texts [mcpProtocolVersion])]))

end TransportGuard
end FakeNetNG
