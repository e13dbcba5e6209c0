import FakeNetNG.TransportGuard

/-!
# The outcome of a guarded request

A posted request is forwarded once with the body that was received, or answered once with an error of the
client, unless the body exhausts the decoder, or a modern request has a method that cannot be hashed or, with
headers that match, a `_meta` that is no dictionary. Then the middleware raises.
-/

namespace FakeNetNG
namespace TransportGuard

open JsonTokens

section Promise

variable (mw : Middleware) (scope : Scope) (body : Bytes)

/-- A request that is posted to the endpoint. -/
structure Posted : Prop where
  kind : scope.kind = "http"
  path : scope.path.getD "" = mw.endpointPath
  method : scope.method.getD "" = "POST"

/-- The body comes in chunks. -/
inductive Delivers : List Event → Bytes → Prop
  | last (chunk : Option Bytes) (rest : List Event) : Delivers (.request chunk false :: rest) (chunk.getD [])
  | more (chunk : Option Bytes) {events : List Event} {later : Bytes} (h : Delivers events later) :
      Delivers (.request chunk true :: events) (chunk.getD []++later)

/-- The headers of a forwarded request agree with its body. -/
structure Agrees (message : Value) (method : PyText) : Prop where
  loaded : mw.codec.loads body = .value message
  called : get message "method" = .str method
  methodHeader : ∀ header, scope.header "mcp-method" = some header → header = method
  name : method ∈ methodsNeedingName → ∀ header, scope.header "mcp-name" = some header →
    get (get message "params") "name" = .str header
  /-- A modern request of these methods has the header. -/
  named : method ∈ methodsNeedingName → scope.header "mcp-protocol-version" = some mcpProtocolVersion →
    (scope.header "mcp-name").isSome = true
  version : ∀ header, scope.header "mcp-protocol-version" = some header → ∀ found,
    member (get (get message "params") "_meta") metaKey = some found → isNone found = true ∨ found = .str header

def Forwards (run : Run) : Prop :=
  run.actions = [.forward body (scope.header "x-fakenet-controller-id")] ∧ ∃ message method, Agrees mw scope body message method

/-- One whole answer that blames the client. -/
def Answers (run : Run) : Prop := ∃ status raw, run.actions = answer status raw ∧ 400 ≤ status ∧ status < 500

structure Guarded (run : Run) : Prop where
  done : run.result = .done
  once : Forwards mw scope body run ∨ Answers run

/-- The version that a legacy request asks for is supported, and the header does not contradict it. -/
structure Offers (method : PyText) (params : Value) (requested : PyText) : Prop where
  asked : (if method = py "initialize" then get params "protocolVersion" else optional (scope.header "mcp-protocol-version")) =
    .str requested
  supported : requested ∈ legacyVersions
  header : scope.header "mcp-protocol-version" = some requested ∨
    (method = py "initialize" ∧ scope.header "mcp-protocol-version" = none)

def legacyParams (message : Value) : Value := (member message "params").getD (.obj [])

/-- A legacy request that is answered, and what with. -/
inductive LegacyRefused (message : Value) : Value → Prop
  | method (h : ∀ method, get message "method" ≠ .str method) :
    LegacyRefused message (errorBody (get message "id") jsonrpcInvalidRequest "Invalid JSON-RPC request" none)
  | params (h : isDict (legacyParams message) = false) :
    LegacyRefused message (errorBody (get message "id") jsonrpcInvalidRequest "Invalid JSON-RPC request" none)
  | unsupported {method : PyText} (hmethod : get message "method" = .str method) (hparams : isDict (legacyParams message) = true)
    (h : ∀ requested, ¬Offers scope method (legacyParams message) requested) :
    LegacyRefused message (errorBody (get message "id") jsonrpcUnsupportedVersion
      "Unsupported or missing legacy protocol version" (some (.obj [(py "supported",texts (mcpProtocolVersion :: legacyVersions))])))
  | contradicts {method requested : PyText} (hmethod : get message "method" = .str method)
    (hparams : isDict (legacyParams message) = true) (hoffers : Offers scope method (legacyParams message) requested)
    (h : legacyContradicts scope method requested (legacyParams message) = true) :
    LegacyRefused message (errorBody (get message "id") jsonrpcHeaderMismatch "Header/body mismatch" none)

/-- The params are a dictionary or missing. -/
def HasParams (message : Value) : Prop := isNone (get message "params") = true ∨ isDict (get message "params") = true

/-- The method of a modern request is in its header. -/
structure Called (message : Value) (method : PyText) : Prop where
  params : HasParams message
  called : member message "method" = some (.str method)
  notLegacy : method ∉ legacyMethods
  header : scope.header "mcp-method" = some method
  notEmpty : method ≠ []

/-- The name of a method that needs one is in its header as well. -/
structure Matches (message : Value) (method : PyText) : Prop extends Called scope message method where
  named : method ∈ methodsNeedingName → ∃ name, scope.header "mcp-name" = some name ∧ name ≠ [] ∧
    get (get message "params") "name" = .str name

/-- What `_meta` says of the version. -/
def metaFound (message : Value) : Value := get (orDict (get (get message "params") "_meta")) metaKey

/-- A modern request that is answered, and what with. -/
inductive ModernRefused (message : Value) : Value → Prop
  | noMethod (h : member message "method" = none) :
    ModernRefused message (errorBody (.lit .null) jsonrpcHeaderMismatch
      "Header mismatch: request body is not a JSON-RPC request" none)
  | params {method : Value} (hmethod : member message "method" = some method) (h : ¬HasParams message) :
    ModernRefused message (errorBody (get message "id") jsonrpcInvalidRequest
      "Invalid JSON-RPC request: params must be an object"
      (some (.obj [(py "params_type",.str (py (typeName (get message "params"))))])))
  | legacyMethod {method : PyText} (hparams : HasParams message) (hmethod : member message "method" = some (.str method))
    (h : method ∈ legacyMethods) :
    ModernRefused message (errorBody (get message "id") jsonrpcUnsupportedVersion
      "Unsupported protocol version (legacy initialize era not served; this server speaks MCP 2026-07-28 only)"
      (some (.obj [(py "supported",texts [mcpProtocolVersion]),(py "requested",.str mcpProtocolVersion)])))
  | methodHeader {method : Value} (hparams : HasParams message) (hmethod : member message "method" = some method)
    (hhashable : isList method = false ∧ isDict method = false) (hnotLegacy : ∀ name ∈ legacyMethods, method ≠ .str name)
    (h : ∀ header, scope.header "mcp-method" = some header → header = [] ∨ method ≠ .str header) :
    ModernRefused message (errorBody (get message "id") jsonrpcHeaderMismatch
      "Header mismatch: Mcp-Method header missing or does not match body" (headerAndBody (scope.header "mcp-method") method))
  | name {method : PyText} (hcalled : Called scope message method) (hneeds : method ∈ methodsNeedingName)
    (h : ∀ name, scope.header "mcp-name" = some name → name = [] ∨ get (get message "params") "name" ≠ .str name) :
    ModernRefused message (errorBody (get message "id") jsonrpcHeaderMismatch
      "Header mismatch: Mcp-Name header missing or does not match body"
      (headerAndBody (scope.header "mcp-name") (get (get message "params") "name")))
  | metaVersion {method : PyText} (hmatches : Matches scope message method)
    (hdict : isDict (orDict (get (get message "params") "_meta")) = true)
    (h : isNone (metaFound message) = false ∧ metaFound message ≠ .str mcpProtocolVersion) :
    ModernRefused message (errorBody (get message "id") jsonrpcHeaderMismatch
      "Header mismatch: MCP-Protocol-Version does not match body _meta"
      (headerAndBody (some mcpProtocolVersion) (metaFound message)))

/-- A request that is answered before its body is read, and what with. -/
inductive VersionRefused : Value → Prop
  | required (h : ∀ version, scope.header "mcp-protocol-version" = some version → version = []) :
    VersionRefused (errorBody (.lit .null) jsonrpcHeaderMismatch "Header mismatch: MCP-Protocol-Version header is required"
      (some (.obj [(py "supported",texts [mcpProtocolVersion])])))
  | unsupported {version : PyText} (hversion : scope.header "mcp-protocol-version" = some version) (hne : version ≠ [])
    (h : version ≠ mcpProtocolVersion) :
    VersionRefused (errorBody (.lit .null) jsonrpcUnsupportedVersion "Unsupported protocol version"
      (some (.obj [(py "supported",texts [mcpProtocolVersion]),(py "requested",.str version)])))

def ReadsBody : Prop := mw.allowLegacyProtocol = true ∨ scope.header "mcp-protocol-version" = some mcpProtocolVersion

def Modern : Prop := scope.header "mcp-protocol-version" = some mcpProtocolVersion

def BadMethod (message : Value) : Prop :=
  HasParams message ∧ ∃ method, member message "method" = some method ∧ (isList method = true ∨ isDict method = true)

/-- All headers match, and `_meta` is neither empty nor a dictionary. -/
structure BadMeta (message : Value) (method : PyText) : Prop extends Matches scope message method where
  metaTruthy : truthy (get (get message "params") "_meta") = true
  metaKind : isDict (get (get message "params") "_meta") = false

/-- What `_parse_json` makes of the body. -/
def Parsed (message : Value) : Prop :=
  mw.codec.loads body = .value message ∨ (mw.codec.loads body = .valueError ∧ message = .lit .null)

/-- The request is refused with an answer that quotes a value which nests too deep to be written. -/
def Unwritable : Prop := ∃ payload, mw.codec.dumps payload = none ∧
  ((¬ReadsBody mw scope ∧ VersionRefused scope payload) ∨
    (∃ message, Parsed mw body message ∧ ((ReadsBody mw scope ∧ ¬Modern scope ∧ LegacyRefused scope message payload) ∨
      (Modern scope ∧ ModernRefused scope message payload))))

def Escapes : Prop :=
  (ReadsBody mw scope ∧ mw.codec.loads body = .recursionError) ∨
  (Modern scope ∧ ∃ message, mw.codec.loads body = .value message ∧ (BadMethod message ∨ ∃ method, BadMeta scope message method)) ∨
  Unwritable mw scope body

end Promise

variable {mw : Middleware} {scope : Scope} {body : Bytes} {events : List Event} {message : Value}

theorem readBody_delivers (h : Delivers events body) : readBody events = some body := by
  induction h with
  | last chunk rest => rfl
  | more chunk _ ih => rw [readBody,ih,Option.map_some]

theorem not_guarded_raise (fault : Fault) : ¬Guarded mw scope body (raise fault) := fun h => (nomatch h.done)

theorem guarded_reject_iff (payload : Value) : Guarded mw scope body (reject mw.codec payload) ↔ mw.codec.dumps payload ≠ none := by
  rw [reject]
  cases hdumps : mw.codec.dumps payload with
  | none => exact iff_of_false (not_guarded_raise _) (not_not.mpr rfl)
  | some raw => exact iff_of_true ⟨rfl,.inr ⟨400,raw,rfl,le_rfl,by decide⟩⟩ (Option.some_ne_none raw)

theorem isText_iff {text : PyText} {v : Value} : isText text v = true ↔ v = .str text := by
  cases v <;> simp [isText]

theorem isNone_iff {v : Value} : isNone v = true ↔ v = .lit .null := by
  cases v with
  | lit l => cases l <;> simp [isNone]
  | _ => simp [isNone]

theorem orDict_of_isDict {v : Value} (h : isDict v = true) : orDict v = v := by
  cases v with
  | obj members =>
    cases members with
    | nil => rfl
    | cons m rest => rfl
  | _ => cases h

theorem get_orDict {v : Value} (h : isNone v = true ∨ isDict v = true) (name : String) : get (orDict v) name = get v name := by
  obtain h | h := h
  · rw [isNone_iff.mp h]
    rfl
  · rw [orDict_of_isDict h]

theorem get_of_member {v w : Value} {name : String} (h : member v name = some w) : get v name = w := by
  rw [get,h,Option.getD_some]

theorem legacyContradicts_eq_false {method requested : PyText} {params : Value}
    (h : legacyContradicts scope method requested params = false) :
    isDict (orDict (get params "_meta")) = true ∧ (∀ header, scope.header "mcp-method" = some header → header = method) ∧
    (∀ header, scope.header "mcp-name" = some header → get params "name" = .str header) ∧
    ∀ found, member (orDict (get params "_meta")) metaKey = some found → found = .str requested := by
  simp only [legacyContradicts,Bool.or_eq_false_iff,Bool.not_eq_false'] at h
  obtain ⟨⟨⟨hdict,hmethod⟩,hname⟩,hversion⟩ := h
  refine ⟨hdict,fun header hheader => ?_,fun header hheader => ?_,fun found hfound => ?_⟩
  · rw [hheader] at hmethod
    simpa using hmethod
  · rw [hheader] at hname
    exact isText_iff.mp (by simpa using hname)
  · rw [hfound] at hversion
    exact isText_iff.mp (by simpa using hversion)

theorem member_orDict (v : Value) (name : String) : member (orDict v) name = member v name := by
  rw [orDict]
  by_cases hv : truthy v = true
  · rw [if_pos hv]
  · rw [if_neg hv]
    cases v with
    | obj members =>
      have hnil : members = [] := by simpa [truthy] using hv
      rw [hnil]
    | _ => rfl

theorem get_params (message : Value) (name : String) :
    get ((member message "params").getD (.obj [])) name = get (get message "params") name := by
  have hparams : get message "params" = (member message "params").getD (.lit .null) := rfl
  rw [hparams]
  cases member message "params" <;> rfl

theorem Parsed.loaded (h : Parsed mw body message) {name : String} {v : Value}
    (hmember : member message name = some v) : mw.codec.loads body = .value message := by
  obtain h | ⟨-,rfl⟩ := h
  · exact h
  · cases hmember

theorem member_of_get {v : Value} {name : String} {text : PyText} (h : get v name = .str text) :
    member v name = some (.str text) := by
  rw [get] at h
  cases hmember : member v name with
  | none =>
    rw [hmember] at h
    cases h
  | some w =>
    rw [hmember] at h
    cases h
    rfl

theorem legacy_refused {codec : Codec} {payload : Value} (h : LegacyRefused scope message payload) :
    legacy codec scope body message = reject codec payload := by
  rw [legacy]
  cases h with
  | method h =>
    cases hmethod : get message "method" with
    | str method => exact absurd hmethod (h method)
    | _ => rfl
  | params h =>
    rw [legacyParams] at h
    cases hmethod : get message "method" with
    | str method =>
      dsimp only
      rw [h]
      rfl
    | _ => rfl
  | unsupported hmethod hparams h =>
    rw [legacyParams] at hparams h
    rw [hmethod]
    dsimp only
    rw [if_pos hparams,legacyMethod]
    split
    · next requested hrequested =>
      rw [if_neg]
      · rfl
      · rintro ⟨hsupported,hheader⟩
        exact h requested ⟨hrequested,hsupported,hheader⟩
    · rfl
  | contradicts hmethod hparams hoffers h =>
    rw [legacyParams] at hparams hoffers h
    rw [hmethod]
    dsimp only
    rw [if_pos hparams,legacyMethod,hoffers.asked]
    dsimp only
    rw [if_pos ⟨hoffers.supported,hoffers.header⟩,if_pos h]
    rfl

theorem legacy_cases (hversion : ¬Modern scope) (hparsed : Parsed mw body message) :
    (∃ payload, LegacyRefused scope message payload ∧ legacy mw.codec scope body message = reject mw.codec payload) ∨
    Guarded mw scope body (legacy mw.codec scope body message) := by
  have hrefused : ∀ payload, LegacyRefused scope message payload → ∃ payload, LegacyRefused scope message payload ∧
      legacy mw.codec scope body message = reject mw.codec payload := fun payload h => ⟨payload,h,legacy_refused h⟩
  by_cases hmethod : ∃ method, get message "method" = .str method
  swap
  · exact .inl (hrefused _ (.method fun method h => hmethod ⟨method,h⟩))
  obtain ⟨method,hmethod⟩ := hmethod
  cases hparams : isDict (legacyParams message) with
  | false => exact .inl (hrefused _ (.params hparams))
  | true =>
    by_cases hoffers : ∃ requested, Offers scope method (legacyParams message) requested
    swap
    · exact .inl (hrefused _ (.unsupported hmethod hparams fun requested h => hoffers ⟨requested,h⟩))
    obtain ⟨requested,hoffers⟩ := hoffers
    cases hcontradicts : legacyContradicts scope method requested (legacyParams message) with
    | true => exact .inl (hrefused _ (.contradicts hmethod hparams hoffers hcontradicts))
    | false =>
      have hforward : legacy mw.codec scope body message = forward scope body := by
        rw [legacyParams] at hparams hoffers hcontradicts
        rw [legacy,hmethod]
        dsimp only
        rw [if_pos hparams,legacyMethod,hoffers.asked]
        dsimp only
        rw [if_pos ⟨hoffers.supported,hoffers.header⟩,hcontradicts]
        rfl
      obtain ⟨-,hheader,hname,hmeta⟩ := legacyContradicts_eq_false hcontradicts
      rw [hforward]
      refine .inr ⟨rfl,.inl ⟨rfl,message,method,?_⟩⟩
      constructor
      · exact hparsed.loaded (member_of_get hmethod)
      · exact hmethod
      · exact hheader
      · intro _ header hsome
        rw [← get_params]
        exact hname header hsome
      · exact fun _ hmodern => absurd hmodern hversion
      · intro header hsome found hfound
        obtain hsame | ⟨-,hnone⟩ := hoffers.header
        · rw [hsome] at hsame
          cases hsame
          refine .inr (hmeta found ?_)
          rw [member_orDict,legacyParams,get_params]
          exact hfound
        · rw [hsome] at hnone
          cases hnone

theorem isDict_orDict {v : Value} : isDict (orDict v) = false ↔ truthy v = true ∧ isDict v = false := by
  rw [orDict]
  by_cases hv : truthy v = true
  · rw [if_pos hv]
    simp [hv]
  · rw [if_neg hv]
    simp [hv,isDict]

section Checked

variable {codec : Codec}

theorem modern_method (hparams : HasParams message) {method : Value} (hcalled : member message "method" = some method) :
    modern codec scope body mcpProtocolVersion message =
      modernMethod codec scope body mcpProtocolVersion method (orDict (get message "params")) (get message "id") := by
  have hno : ¬(!isNone (get message "params") && !isDict (get message "params")) = true := by
    obtain h | h := hparams <;> simp [h]
  rw [modern,hcalled]
  dsimp only
  rw [if_neg hno]

theorem not_any_legacy {method : Value} (h : ∀ name ∈ legacyMethods, method ≠ .str name) :
    ¬(legacyMethods.any fun name => isText name method) = true := by
  intro hany
  obtain ⟨name,hname,htext⟩ := List.any_eq_true.mp hany
  exact h name hname (isText_iff.mp htext)

theorem modern_called {method : PyText} (h : Called scope message method) :
    modern codec scope body mcpProtocolVersion message =
      modernName codec scope body mcpProtocolVersion method (orDict (get message "params")) (get message "id") := by
  have hlegacy : ¬(legacyMethods.any fun name => isText name (.str method)) = true := by
    refine not_any_legacy fun name hname hsame => ?_
    cases hsame
    exact h.notLegacy hname
  rw [modern_method h.params h.called,modernMethod,if_neg (by simp [isList,isDict]),if_neg hlegacy,h.header]
  dsimp only
  rw [if_pos ⟨h.notEmpty,isText_iff.mpr rfl⟩]

theorem modern_matches {method : PyText} (h : Matches scope message method) :
    modern codec scope body mcpProtocolVersion message =
      modernMeta codec scope body mcpProtocolVersion (orDict (get message "params")) (get message "id") := by
  rw [modern_called h.toCalled,modernName,if_neg]
  rintro ⟨hneeds,hnone⟩
  obtain ⟨name,hsome,hne,hbody⟩ := h.named hneeds
  refine hnone ?_
  rw [hsome,Option.any_some,get_orDict h.params,hbody]
  simp [hne,isText]

theorem modern_badMethod (h : BadMethod message) :
    modern codec scope body mcpProtocolVersion message = raise .typeError := by
  obtain ⟨hparams,method,hcalled,hkind⟩ := h
  rw [modern_method hparams hcalled,modernMethod,if_pos]
  rwa [Bool.or_eq_true]

theorem modern_badMeta {method : PyText} (h : BadMeta scope message method) :
    modern codec scope body mcpProtocolVersion message = raise .attributeError := by
  have hdict := isDict_orDict.mpr ⟨h.metaTruthy,h.metaKind⟩
  rw [modern_matches h.toMatches,modernMeta,metaVersion,get_orDict h.params,hdict]
  rfl

theorem modern_refused {payload : Value} (h : ModernRefused scope message payload) :
    modern codec scope body mcpProtocolVersion message = reject codec payload := by
  cases h with
  | noMethod h =>
    rw [modern,h]
    rfl
  | params hmethod h =>
    have hno : (!isNone (get message "params") && !isDict (get message "params")) = true := by
      rw [HasParams,not_or] at h
      simp [h.1,h.2]
    rw [modern,hmethod]
    dsimp only
    rw [if_pos hno]
  | legacyMethod hparams hmethod h =>
    rw [modern_method hparams hmethod,modernMethod,if_neg (by simp [isList,isDict]),if_pos]
    exact List.any_eq_true.mpr ⟨_,h,isText_iff.mpr rfl⟩
  | @methodHeader method hparams hmethod hhashable hnotLegacy h =>
    rw [modern_method hparams hmethod,modernMethod,if_neg (by simp [hhashable.1,hhashable.2]),
      if_neg (not_any_legacy hnotLegacy)]
    cases hheader : scope.header "mcp-method" with
    | none => rfl
    | some header =>
      dsimp only
      rw [if_neg]
      · rfl
      · rintro ⟨hne,htext⟩
        obtain hempty | hother := h header hheader
        · exact hne hempty
        · exact hother (isText_iff.mp htext)
  | name hcalled hneeds h =>
    have hmismatch : ¬((scope.header "mcp-name").any fun name => name ≠ [] && isText name (get (get message "params") "name")) =
        true := by
      intro hany
      obtain ⟨name,hsome,hgood⟩ := (Option.any_eq_true _ _).mp hany
      rw [Bool.and_eq_true,decide_eq_true_eq] at hgood
      obtain hempty | hother := h name hsome
      · exact hgood.1 hempty
      · exact hother (isText_iff.mp hgood.2)
    rw [modern_called hcalled,modernName,get_orDict hcalled.params,if_pos ⟨hneeds,hmismatch⟩]
    rfl
  | metaVersion hmatches hdict h =>
    have hfound : (!isNone (metaFound message) && !isText mcpProtocolVersion (metaFound message)) = true := by
      have htext : isText mcpProtocolVersion (metaFound message) = false := by
        rw [Bool.eq_false_iff]
        exact fun htext => h.2 (isText_iff.mp htext)
      simp [h.1,htext]
    rw [modern_matches hmatches,modernMeta,metaVersion,get_orDict hmatches.params,hdict]
    rw [if_pos rfl]
    dsimp only
    rw [metaFound] at hfound
    rw [if_pos hfound]
    rfl

theorem modern_forward {method : PyText} (hmatches : Matches scope message method)
    (hdict : isDict (orDict (get (get message "params") "_meta")) = true)
    (h : isNone (metaFound message) = true ∨ metaFound message = .str mcpProtocolVersion) :
    modern codec scope body mcpProtocolVersion message = forward scope body := by
  have hfound : ¬(!isNone (metaFound message) && !isText mcpProtocolVersion (metaFound message)) = true := by
    obtain hnone | htext := h
    · simp [hnone]
    · simp [htext,isText]
  rw [modern_matches hmatches,modernMeta,metaVersion,get_orDict hmatches.params,hdict]
  rw [if_pos rfl]
  dsimp only
  rw [metaFound] at hfound
  rw [if_neg hfound]

end Checked

theorem agrees_of_matches {method : PyText} (hversion : Modern scope) (hparsed : Parsed mw body message)
    (hmatches : Matches scope message method)
    (h : isNone (metaFound message) = true ∨ metaFound message = .str mcpProtocolVersion) : Agrees mw scope body message method := by
  constructor
  · exact hparsed.loaded hmatches.called
  · exact get_of_member hmatches.called
  · intro header hsome
    rw [hmatches.header] at hsome
    exact (Option.some.inj hsome).symm
  · intro hneeds header hsome
    obtain ⟨name,hname,-,hbody⟩ := hmatches.named hneeds
    rw [hname] at hsome
    cases hsome
    exact hbody
  · intro hneeds _
    obtain ⟨name,hname,-⟩ := hmatches.named hneeds
    rw [hname]
    rfl
  · intro header hsome found hfound
    have hsame : header = mcpProtocolVersion := Option.some.inj (hsome.symm.trans hversion)
    rw [metaFound,get,member_orDict,hfound,Option.getD_some] at h
    rw [hsame]
    exact h

theorem modern_cases (hversion : Modern scope) (hparsed : Parsed mw body message) :
    (∃ payload, ModernRefused scope message payload) ∨ BadMethod message ∨ (∃ method, BadMeta scope message method) ∨
    Guarded mw scope body (modern mw.codec scope body mcpProtocolVersion message) := by
  cases hmember : member message "method" with
  | none => exact .inl ⟨_,.noMethod hmember⟩
  | some value =>
    by_cases hparams : HasParams message
    swap
    · exact .inl ⟨_,.params hmember hparams⟩
    by_cases hkind : isList value = true ∨ isDict value = true
    · exact .inr (.inl ⟨hparams,value,hmember,hkind⟩)
    rw [not_or,Bool.not_eq_true,Bool.not_eq_true] at hkind
    by_cases hlegacy : ∃ name ∈ legacyMethods, value = .str name
    · obtain ⟨name,hname,rfl⟩ := hlegacy
      exact .inl ⟨_,.legacyMethod hparams hmember hname⟩
    have hnotLegacy : ∀ name ∈ legacyMethods, value ≠ .str name := fun name hname hsame => hlegacy ⟨name,hname,hsame⟩
    by_cases hheader : ∃ header, scope.header "mcp-method" = some header ∧ header ≠ [] ∧ value = .str header
    swap
    · refine .inl ⟨_,.methodHeader hparams hmember hkind hnotLegacy fun header hsome => ?_⟩
      by_contra hboth
      rw [not_or,not_not] at hboth
      exact hheader ⟨header,hsome,hboth⟩
    obtain ⟨method,hsome,hne,rfl⟩ := hheader
    have hcalled : Called scope message method :=
      ⟨hparams,hmember,fun hmem => hnotLegacy method hmem rfl,hsome,hne⟩
    by_cases hname : method ∈ methodsNeedingName → ∃ name, scope.header "mcp-name" = some name ∧ name ≠ [] ∧
        get (get message "params") "name" = .str name
    swap
    · rw [Classical.not_imp] at hname
      refine .inl ⟨_,.name hcalled hname.1 fun name hsome => ?_⟩
      by_contra hboth
      rw [not_or,not_not] at hboth
      exact hname.2 ⟨name,hsome,hboth⟩
    have hmatches : Matches scope message method := ⟨hcalled,hname⟩
    cases hdict : isDict (orDict (get (get message "params") "_meta")) with
    | false =>
      obtain ⟨htruthy,hother⟩ := isDict_orDict.mp hdict
      exact .inr (.inr (.inl ⟨method,hmatches,htruthy,hother⟩))
    | true =>
      by_cases hfound : isNone (metaFound message) = true ∨ metaFound message = .str mcpProtocolVersion
      · refine .inr (.inr (.inr ?_))
        rw [modern_forward hmatches hdict hfound]
        exact ⟨rfl,.inl ⟨rfl,message,method,agrees_of_matches hversion hparsed hmatches hfound⟩⟩
      · rw [not_or,Bool.not_eq_true] at hfound
        exact .inl ⟨_,.metaVersion hmatches hdict hfound⟩

theorem afterBody_guarded_iff {check : Bytes → Value → Run} (hbody : Delivers events body) :
    Guarded mw scope body (afterBody mw.codec events check) ↔
      mw.codec.loads body ≠ .recursionError ∧ ∀ message, Parsed mw body message → Guarded mw scope body (check body message) := by
  rw [afterBody,readBody_delivers hbody]
  dsimp only
  rw [parseJson]
  cases hloads : mw.codec.loads body with
  | recursionError => exact iff_of_false (not_guarded_raise _) fun h => h.1 rfl
  | valueError =>
    refine ⟨fun h => ⟨Loaded.noConfusion,fun message hparsed => ?_⟩,fun h => h.2 _ (.inr ⟨hloads,rfl⟩)⟩
    obtain hvalue | ⟨-,rfl⟩ := hparsed
    · rw [hloads] at hvalue
      cases hvalue
    · exact h
  | value message =>
    refine ⟨fun h => ⟨Loaded.noConfusion,fun message' hparsed => ?_⟩,fun h => h.2 _ (.inl hloads)⟩
    obtain hvalue | ⟨hother,-⟩ := hparsed
    · rw [hloads] at hvalue
      cases hvalue
      exact h
    · rw [hloads] at hother
      cases hother

theorem legacy_guarded_iff (hversion : ¬Modern scope) (hparsed : Parsed mw body message) :
    Guarded mw scope body (legacy mw.codec scope body message) ↔
      ∀ payload, LegacyRefused scope message payload → mw.codec.dumps payload ≠ none := by
  constructor
  · intro h payload hrefused
    rw [legacy_refused hrefused] at h
    exact (guarded_reject_iff payload).mp h
  · intro h
    obtain ⟨payload,hrefused,hrun⟩ | hguarded := legacy_cases hversion hparsed
    · rw [hrun]
      exact (guarded_reject_iff payload).mpr (h payload hrefused)
    · exact hguarded

theorem modern_guarded_iff (hversion : Modern scope) (hparsed : Parsed mw body message) :
    Guarded mw scope body (modern mw.codec scope body mcpProtocolVersion message) ↔
      ¬BadMethod message ∧ (¬∃ method, BadMeta scope message method) ∧
        ∀ payload, ModernRefused scope message payload → mw.codec.dumps payload ≠ none := by
  constructor
  · intro h
    refine ⟨fun hbad => ?_,?_,fun payload hrefused => ?_⟩
    · rw [modern_badMethod hbad] at h
      exact not_guarded_raise _ h
    · rintro ⟨method,hbad⟩
      rw [modern_badMeta hbad] at h
      exact not_guarded_raise _ h
    · rw [modern_refused hrefused] at h
      exact (guarded_reject_iff payload).mp h
  · rintro ⟨hmethod,hmeta,hwritable⟩
    obtain ⟨payload,hrefused⟩ | hbad | hbad | hguarded := modern_cases hversion hparsed
    · rw [modern_refused hrefused]
      exact (guarded_reject_iff payload).mpr (hwritable payload hrefused)
    · exact absurd hbad hmethod
    · exact absurd hbad hmeta
    · exact hguarded

theorem call_legacy (hposted : Posted mw scope) (hlegacy : mw.allowLegacyProtocol = true) (hversion : ¬Modern scope) :
    mw.call scope events = afterBody mw.codec events fun body message => legacy mw.codec scope body message := by
  rw [Middleware.call,if_neg (by simp [hposted.kind]),if_neg (by simp [hposted.path]),if_neg (by simp [hposted.method]),
    if_pos ⟨hlegacy,hversion⟩]

theorem call_modern (hposted : Posted mw scope) (hversion : Modern scope) : mw.call scope events =
    afterBody mw.codec events fun body message => modern mw.codec scope body mcpProtocolVersion message := by
  have hversion' : scope.header "mcp-protocol-version" = some mcpProtocolVersion := hversion
  have hne : mcpProtocolVersion ≠ [] := by decide
  rw [Middleware.call,if_neg (by simp [hposted.kind]),if_neg (by simp [hposted.path]),if_neg (by simp [hposted.method]),
    if_neg (by simp [hversion']),hversion']
  dsimp only
  rw [if_neg hne,if_neg (by simp)]

theorem call_refused (hposted : Posted mw scope) (hreads : ¬ReadsBody mw scope) {payload : Value}
    (h : VersionRefused scope payload) : mw.call scope events = reject mw.codec payload := by
  rw [ReadsBody,not_or] at hreads
  rw [Middleware.call,if_neg (by simp [hposted.kind]),if_neg (by simp [hposted.path]),if_neg (by simp [hposted.method]),
    if_neg (by simp [hreads.1])]
  cases h with
  | required h =>
    cases hheader : scope.header "mcp-protocol-version" with
    | none => rfl
    | some version =>
      dsimp only
      rw [if_pos (h version hheader)]
      rfl
  | unsupported hversion hne h =>
    rw [hversion]
    dsimp only
    rw [if_neg hne,if_pos h]

theorem exists_versionRefused (hreads : ¬ReadsBody mw scope) : ∃ payload, VersionRefused scope payload := by
  by_cases hversion : ∃ version, scope.header "mcp-protocol-version" = some version ∧ version ≠ []
  · obtain ⟨version,hheader,hne⟩ := hversion
    refine ⟨_,.unsupported hheader hne fun hsame => hreads (.inr ?_)⟩
    rw [hheader,hsame]
  · refine ⟨_,.required fun version hheader => ?_⟩
    by_contra hne
    exact hversion ⟨version,hheader,hne⟩

theorem modern_call_iff (hposted : Posted mw scope) (hbody : Delivers events body) (hversion : Modern scope) :
    Guarded mw scope body (mw.call scope events) ↔ ¬Escapes mw scope body := by
  rw [call_modern hposted hversion,afterBody_guarded_iff hbody]
  have hreads : ReadsBody mw scope := .inr hversion
  constructor
  · rintro ⟨hloads,hcheck⟩ (⟨-,hdeep⟩ | ⟨-,message,hvalue,hbad⟩ | ⟨payload,hdumps,hrefused⟩)
    · exact hloads hdeep
    · obtain ⟨hmethod,hmeta,-⟩ := (modern_guarded_iff hversion (.inl hvalue)).mp (hcheck message (.inl hvalue))
      obtain hbad | hbad := hbad
      · exact hmethod hbad
      · exact hmeta hbad
    · obtain ⟨hno,-⟩ | ⟨message,hparsed,⟨-,hno,-⟩ | ⟨-,hrefused⟩⟩ := hrefused
      · exact hno hreads
      · exact hno hversion
      · exact ((modern_guarded_iff hversion hparsed).mp (hcheck message hparsed)).2.2 payload hrefused hdumps
  · intro h
    refine ⟨fun hdeep => h (.inl ⟨hreads,hdeep⟩),fun message hparsed => ?_⟩
    refine (modern_guarded_iff hversion hparsed).mpr ⟨fun hbad => ?_,?_,fun payload hrefused hdumps => ?_⟩
    · obtain ⟨-,method,hmember,-⟩ := id hbad
      exact h (.inr (.inl ⟨hversion,message,hparsed.loaded hmember,.inl hbad⟩))
    · rintro ⟨method,hbad⟩
      exact h (.inr (.inl ⟨hversion,message,hparsed.loaded hbad.called,.inr ⟨method,hbad⟩⟩))
    · exact h (.inr (.inr ⟨payload,hdumps,.inr ⟨message,hparsed,.inr ⟨hversion,hrefused⟩⟩⟩))

theorem legacy_call_iff (hposted : Posted mw scope) (hbody : Delivers events body) (hlegacy : mw.allowLegacyProtocol = true)
    (hversion : ¬Modern scope) : Guarded mw scope body (mw.call scope events) ↔ ¬Escapes mw scope body := by
  rw [call_legacy hposted hlegacy hversion,afterBody_guarded_iff hbody]
  have hreads : ReadsBody mw scope := .inl hlegacy
  constructor
  · rintro ⟨hloads,hcheck⟩ (⟨-,hdeep⟩ | ⟨hmodern,-⟩ | ⟨payload,hdumps,hrefused⟩)
    · exact hloads hdeep
    · exact hversion hmodern
    · obtain ⟨hno,-⟩ | ⟨message,hparsed,⟨-,-,hrefused⟩ | ⟨hmodern,-⟩⟩ := hrefused
      · exact hno hreads
      · exact (legacy_guarded_iff hversion hparsed).mp (hcheck message hparsed) payload hrefused hdumps
      · exact hversion hmodern
  · intro h
    refine ⟨fun hdeep => h (.inl ⟨hreads,hdeep⟩),fun message hparsed => ?_⟩
    refine (legacy_guarded_iff hversion hparsed).mpr fun payload hrefused hdumps => ?_
    exact h (.inr (.inr ⟨payload,hdumps,.inr ⟨message,hparsed,.inl ⟨hreads,hversion,hrefused⟩⟩⟩))

/-- A request whose version is refused is answered before its body is read. -/
theorem refused_call_iff (hposted : Posted mw scope) (hreads : ¬ReadsBody mw scope) :
    Guarded mw scope body (mw.call scope events) ↔ ¬Escapes mw scope body := by
  constructor
  · rintro h (⟨hread,-⟩ | ⟨hmodern,-⟩ | ⟨payload,hdumps,hrefused⟩)
    · exact hreads hread
    · exact hreads (.inr hmodern)
    · obtain ⟨-,hrefused⟩ | ⟨message,-,⟨hread,-⟩ | ⟨hmodern,-⟩⟩ := hrefused
      · rw [call_refused hposted hreads hrefused] at h
        exact (guarded_reject_iff payload).mp h hdumps
      · exact hreads hread
      · exact hreads (.inr hmodern)
  · intro h
    obtain ⟨payload,hrefused⟩ := exists_versionRefused hreads
    rw [call_refused hposted hreads hrefused,guarded_reject_iff]
    exact fun hdumps => h (.inr (.inr ⟨payload,hdumps,.inl ⟨hreads,hrefused⟩⟩))

/-- A posted request is forwarded or answered, once, exactly when it is none of those that escape. -/
theorem call_guarded_iff (mw : Middleware) (scope : Scope) (events : List Event) (body : Bytes) (hposted : Posted mw scope)
    (hbody : Delivers events body) : Guarded mw scope body (mw.call scope events) ↔ ¬Escapes mw scope body := by
  by_cases hversion : Modern scope
  · exact modern_call_iff hposted hbody hversion
  by_cases hlegacy : mw.allowLegacyProtocol = true
  · exact legacy_call_iff hposted hbody hlegacy hversion
  · exact refused_call_iff hposted (not_or.mpr ⟨hlegacy,hversion⟩)

section Sample

def listMethodBody : Bytes := ascii "\x7b\"method\": []\x7d"

def listMethodCodec : Codec where
  loads body := if body = listMethodBody then .value (.obj [(py "method",.arr [])]) else .valueError
  dumps _ := some []

def modernOnly : Middleware := ⟨listMethodCodec,"/mcp",false⟩

def modernScope : Scope := ⟨"http",some "/mcp",some "POST",some [(ascii "MCP-Protocol-Version",ascii "2026-07-28")]⟩

theorem posted_modernScope : Posted modernOnly modernScope := ⟨rfl,rfl,rfl⟩

def oneChunk : List Event := [.request (some listMethodBody) false]

theorem delivers_oneChunk : Delivers oneChunk listMethodBody := .last (some listMethodBody) []

theorem call_guarded_iff_listMethod : Guarded modernOnly modernScope listMethodBody (modernOnly.call modernScope oneChunk) ↔
    ¬Escapes modernOnly modernScope listMethodBody :=
  call_guarded_iff modernOnly modernScope oneChunk listMethodBody posted_modernScope delivers_oneChunk

/-- The lookup of the list among the legacy methods raises. -/
theorem listMethod_escapes : ¬∀ (mw : Middleware) (scope : Scope) (events : List Event) (body : Bytes), Posted mw scope →
    Delivers events body → Guarded mw scope body (mw.call scope events) := by
  intro h
  have hdone := (h modernOnly modernScope oneChunk listMethodBody posted_modernScope delivers_oneChunk).done
  have hraised : (modernOnly.call modernScope oneChunk).result = .raised .typeError := by decide
  rw [hraised] at hdone
  cases hdone

end Sample

end TransportGuard
end FakeNetNG
