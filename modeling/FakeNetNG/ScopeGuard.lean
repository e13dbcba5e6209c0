import FakeNetNG.IpNetwork
import FakeNetNG.JsonTokens
import FakeNetNG.KeyedTable
import Mathlib.Data.Char

/-!
# The IPv6 scope guard

`normalize_ipv6_exposure` reads the facts about the IPv6 configuration into four tables and says whether the
loopback interface is all there is. Facts that cannot be read give a guard without a value. Two faults of the
runtime matter: `str` of a value that nests too deep, which is not caught, and a text with half of a surrogate
pair, which has no UTF-8 and is.
-/

namespace FakeNetNG
namespace JsonTokens

/-- `ord`. -/
def PyChar.toNat : PyChar → ℕ
  | .scalar c => c.toNat
  | .surrogate n => 0xd800+n

theorem PyChar.toNat_injective {a b : PyChar} (h : a.toNat = b.toNat) : a = b := by
  cases a with
  | scalar c =>
    cases b with
    | scalar d => rw [Char.toNat_inj.mp h]
    | surrogate n =>
      have hvalid := c.valid
      simp only [PyChar.toNat] at h
      simp only [UInt32.isValidChar,Nat.isValidChar,← Char.toNat.eq_1] at hvalid
      omega
  | surrogate n =>
    cases b with
    | scalar d =>
      have hvalid := d.valid
      simp only [PyChar.toNat] at h
      simp only [UInt32.isValidChar,Nat.isValidChar,← Char.toNat.eq_1] at hvalid
      omega
    | surrogate m =>
      simp only [PyChar.toNat] at h
      rw [Fin.ext (Nat.add_left_cancel h)]

def PyChar.isSurrogate : PyChar → Bool
  | .scalar _ => false
  | .surrogate _ => true

end JsonTokens

namespace ScopeGuard

open JsonTokens (PyChar PyText Value Token ofText toText tokens)
open KeyedTable

/-- Texts are compared by code points. -/
scoped instance : LinearOrder PyChar where
  le a b := a.toNat ≤ b.toNat
  le_refl a := le_refl a.toNat
  le_trans _ _ _ hab hbc := le_trans hab hbc
  le_antisymm _ _ hab hba := PyChar.toNat_injective (le_antisymm hab hba)
  le_total a b := le_total a.toNat b.toNat
  toDecidableLE a b := inferInstanceAs (Decidable (a.toNat ≤ b.toNat))
  toDecidableEq := inferInstance

inductive Fault
  | typeError | valueError | keyError | recursionError
  deriving DecidableEq

/-- `except (TypeError, ValueError, KeyError)`. -/
def Fault.caught : Fault → Bool
  | .recursionError => false
  | _ => true

/-- What the code uses of its runtime: `str.lower`, and `str` of a float or a container, which may raise. -/
structure Runtime where
  lower : PyText → PyText
  repr : Value → Except Fault PyText

/-- More digits than the runtime turns into a text. -/
def isLong (n : ℤ) : Bool := 4300 < (Text.decimal n.natAbs).length

mutual

/-- `sort_keys=True`. -/
def sortKeys : Value → Value
  | .arr items => .arr (sortItems items)
  | .obj members => .obj ((sortMembers members).mergeSort fun a b => decide (a.1 ≤ b.1))
  | v => v

def sortItems : List Value → List Value
  | [] => []
  | v :: items => sortKeys v :: sortItems items

def sortMembers : List (PyText × Value) → List (PyText × Value)
  | [] => []
  | (name,v) :: members => (name,sortKeys v) :: sortMembers members

end

theorem sortItems_eq (items : List Value) : sortItems items = items.map sortKeys := by
  induction items with
  | nil => rfl
  | cons v items ih => exact congrArg (sortKeys v :: ·) ih

theorem sortMembers_eq (members : List (PyText × Value)) :
    sortMembers members = members.map fun m => (m.1,sortKeys m.2) := by
  induction members with
  | nil => rfl
  | cons m members ih => exact congrArg ((m.1,sortKeys m.2) :: ·) ih

@[simp] theorem sortKeys_lit (l : JsonTokens.Literal) : sortKeys (.lit l) = .lit l := rfl

@[simp] theorem sortKeys_str (text : PyText) : sortKeys (.str text) = .str text := rfl

theorem sortKeys_arr (items : List Value) : sortKeys (.arr items) = .arr (items.map sortKeys) :=
  congrArg Value.arr (sortItems_eq items)

theorem sortKeys_obj (members : List (PyText × Value)) : sortKeys (.obj members) =
    .obj ((members.map fun m => (m.1,sortKeys m.2)).mergeSort fun a b => decide (a.1 ≤ b.1)) := by
  rw [← sortMembers_eq]
  rfl

def Token.isLong : Token → Bool
  | .lit (.int n) => ScopeGuard.isLong n
  | _ => false

def canonicalJson (v : Value) : Except Fault PyText :=
  if (tokens (sortKeys v)).any Token.isLong then .error .valueError else .ok (JsonTokens.write (sortKeys v))

/-- `hashlib.sha256(value.encode('utf-8')).hexdigest()`; a surrogate raises `UnicodeEncodeError`, a `ValueError`. -/
def sha256Text (sha256 : Text → Text) (text : PyText) : Except Fault Text :=
  if text.any PyChar.isSurrogate then .error .valueError else .ok (sha256 (toText text))

def fingerprint (sha256 : Text → Text) (v : Value) : Except Fault Text := canonicalJson v >>= sha256Text sha256

/-- `row.get(name)`; of several members with one name the last counts. -/
def get (row : Value) (name : String) : Value :=
  match row with
  | .obj members => ((members.reverse.find? fun m => m.1 = ofText name.toList).map Prod.snd).getD (.lit .null)
  | _ => .lit .null

def truthy : Value → Bool
  | .lit .null => false
  | .lit (.bool b) => b
  | .lit (.int n) => n ≠ 0
  | .lit (.float f) => f.text ≠ "0.0".toList && f.text ≠ "-0.0".toList
  | .str s => s ≠ []
  | .arr items => !items.isEmpty
  | .obj members => !members.isEmpty

def isMapping : Value → Bool
  | .obj _ => true
  | _ => false

/-- `type(v) is int` and not negative. -/
def index? : Value → Option ℕ
  | .lit (.int n) => if n < 0 then none else some n.toNat
  | _ => none

def text? : Value → Option PyText
  | .str s => if s = [] then none else some s
  | _ => none

/-- `if not condition: raise fault`. -/
def ensure (fault : Fault) (condition : Bool) : Except Fault Unit := if condition then .ok () else .error fault

def need {α : Type} (fault : Fault) (value : Option α) : Except Fault α :=
  match value with
  | none => .error fault
  | some a => .ok a

/-- A character as `ipaddress` takes it, to which a surrogate is one without a meaning. -/
def plain : PyChar → Char
  | .scalar c => c
  | .surrogate _ => Char.ofNat 0xfffd

/-- The scope of an address before its prefix length, with its sign. -/
def scopeOf (text : PyText) : PyText := (text.takeWhile (· ≠ .scalar '/')).dropWhile (· ≠ .scalar '%')

/-- `with_prefixlen` of a network that was read from a text. -/
def withPrefixlen (text : PyText) : IpNetwork → PyText
  | .v4 bits prefixlen => ofText (IpNetwork.v4 bits prefixlen).withPrefixlen
  | .v6 bits scope prefixlen =>
    ofText (Text.join [':'] (IpNetwork.compressHextets (IpNetwork.hextets bits)))++
      (if scope = [] then [] else scopeOf text)++ofText ('/' :: Text.decimal prefixlen)

/-- `ip_network(text, strict=False).with_prefixlen`. -/
def readNetwork (text : PyText) : Option PyText := (IpNetwork.read (text.map plain)).map (withPrefixlen text)

section Rows

variable (py : Runtime)

def str : Value → Except Fault PyText
  | .lit .null => .ok (ofText "None".toList)
  | .lit (.bool true) => .ok (ofText "True".toList)
  | .lit (.bool false) => .ok (ofText "False".toList)
  | .lit (.int n) => if isLong n then .error .valueError else .ok (ofText (Json.writeInt n))
  | .str s => .ok s
  | v => py.repr v

/-- `str(v or '')`. -/
def strOr (v : Value) : Except Fault PyText := if truthy v then str py v else .ok []

def forwarding (row : Value) : Except Fault PyText := (strOr py (get row "forwarding")).map py.lower

/-- `row.get('connection_state') or row.get('state') or ''`. -/
def connectionState (row : Value) : Except Fault PyText :=
  let state := get row "connection_state"
  (strOr py (if truthy state then state else get row "state")).map py.lower

structure Interface where
  forwarding : PyText
  connectionState : PyText

def readInterface (row : Value) : Except Fault (ℕ × Interface) := do
  ensure .typeError (isMapping row)
  let idx ← need .typeError (index? (get row "index"))
  let forwarding ← forwarding py row
  let state ← connectionState py row
  if forwarding = [] ∨ state = [] then .error .valueError else return (idx,⟨forwarding,state⟩)

def osType (row : Value) : Except Fault PyText := strOr py (get row "type")

def readOsMap (row : Value) : Except Fault (ℕ × PyText) := do
  ensure .typeError (isMapping row)
  let type ← osType py row
  let idx ← need .valueError (index? (get row "index"))
  if type = [] then .error .valueError else return (idx,type)

/-- `type(prefix) is int and 0 <= prefix <= 128`. -/
def prefixLength? (v : Value) : Option ℕ := (index? v).filter (· ≤ 128)

def readAddress (inter : List ℕ) (row : Value) : Except Fault ((ℕ ×ₗ PyText ×ₗ ℕ) × PyText) := do
  ensure .typeError (isMapping row)
  let state ← strOr py (get row "state")
  let idx ← need .valueError ((index? (get row "interface_index")).filter (· ∈ inter))
  let addr ← need .valueError (text? (get row "address"))
  let prefixlen ← need .valueError (prefixLength? (get row "prefix_length"))
  if state = [] then .error .valueError
  else
    let _ ← need .valueError (IpAddress.read (addr.map plain))
    return (toLex (idx,toLex (py.lower addr,prefixlen)),state)

def readRoute (inter : List ℕ) (row : Value) : Except Fault ((ℕ ×ₗ PyText ×ₗ PyText) × Unit) := do
  ensure .typeError (isMapping row)
  let idx ← need .valueError ((index? (get row "interface_index")).filter (· ∈ inter))
  let netText ← need .valueError (text? (get row "prefix"))
  match get row "next_hop" with
  | .str nextHop =>
    let network ← need .valueError (readNetwork netText)
    return (toLex (idx,toLex (network,py.lower nextHop)),())
  | _ => .error .valueError

structure Tables where
  inter : List (ℕ × Interface)
  mapping : List (ℕ × PyText)
  addressRows : List ((ℕ ×ₗ PyText ×ₗ ℕ) × PyText)
  routeRows : List ((ℕ ×ₗ PyText ×ₗ PyText) × Unit)

def indexes {ν : Type} (table : List (ℕ × ν)) : List ℕ := table.map Prod.fst

def readTables (interfaces addresses routes osMap : List Value) : Except Fault Tables := do
  let inter ← fill (readInterface py) .valueError interfaces []
  let mapping ← fill (readOsMap py) .valueError osMap []
  ensure .valueError (indexes mapping ⊆ indexes inter ∧ indexes inter ⊆ indexes mapping)
  let addressRows ← fill (readAddress py (indexes inter)) .valueError addresses []
  let routeRows ← fill (readRoute py (indexes inter)) .valueError routes []
  return ⟨inter,mapping,addressRows,routeRows⟩

/-- `mapping.get(idx, '')`. -/
def Tables.typeOf (tables : Tables) (idx : ℕ) : PyText := (tables.mapping.lookup idx).getD []

def add (reason : String) (reasons : List String) : List String :=
  if reason ∈ reasons then reasons else reasons++[reason]

def addIf (condition : Bool) (reason : String) (reasons : List String) : List String :=
  if condition then add reason reasons else reasons

def loopbackText : PyText := ofText "::1".toList

def unspecified : PyText := ofText "::".toList

def loopbackNetwork : PyText := ofText IpNetwork.loopback

def multicastNetwork : PyText := ofText IpNetwork.multicast

def isDisabled (forwarding : PyText) : Bool :=
  decide (forwarding ∈ [ofText "disabled".toList,ofText "false".toList,ofText "0".toList])

def isUp (state : PyText) : Bool := decide (state ∈ [ofText "up".toList,ofText "connected".toList])

def isLoopbackType (type : PyText) : Bool := py.lower type = ofText "loopback".toList

def isLoopbackAddress (key : ℕ ×ₗ PyText ×ₗ ℕ) : Bool :=
  (ofLex (ofLex key).2).1 = loopbackText && (ofLex (ofLex key).2).2 = 128

def isLoopbackRoute (key : ℕ ×ₗ PyText ×ₗ PyText) : Bool :=
  let (network,nextHop) := ofLex (ofLex key).2
  (network = loopbackNetwork && nextHop = unspecified) || (network = multicastNetwork && nextHop = unspecified)

def interfaceReasons (tables : Tables) (reasons : List String) (entry : ℕ × Interface) : List String :=
  addIf (!isUp entry.2.connectionState) "ipv6_interface_state_not_up"
    (addIf (!isDisabled entry.2.forwarding) "ipv6_forwarding_enabled"
      (addIf (!isLoopbackType py (tables.typeOf entry.1)) "ipv6_nonloopback_interface" reasons))

/-- What keeps the tables from showing the loopback alone. -/
def strictReasons (tables : Tables) : List String :=
  let reasons := tables.inter.foldl (interfaceReasons py tables) []
  let reasons := addIf (!tables.addressRows.any fun row => isLoopbackAddress row.1) "ipv6_loopback_address_missing" reasons
  let reasons := tables.addressRows.foldl
    (fun reasons row => addIf (!isLoopbackAddress row.1) "ipv6_nonloopback_address" reasons) reasons
  let reasons := addIf tables.routeRows.isEmpty "ipv6_route_list_empty" reasons
  tables.routeRows.foldl (fun reasons row => addIf (!isLoopbackRoute row.1) "ipv6_nonloopback_route" reasons) reasons

end Rows

def schema : String := "fakenetng.ipv6-scope-guard.v1"

def word (text : String) : Value := .str (ofText text.toList)

def number (n : ℕ) : Value := .lit (.int n)

def member (name : String) (v : Value) : PyText × Value := (ofText name.toList,v)

def canonicalInterface (tables : Tables) (entry : ℕ × Interface) : Value :=
  .obj [member "index" (number entry.1),member "forwarding" (.str entry.2.forwarding),
    member "connection_state" (.str entry.2.connectionState),
    member "type" (match tables.mapping.lookup entry.1 with | none => .lit .null | some type => .str type)]

def canonicalAddress (row : (ℕ ×ₗ PyText ×ₗ ℕ) × PyText) : Value :=
  .obj [member "interface_index" (number (ofLex row.1).1),member "address" (.str (ofLex (ofLex row.1).2).1),
    member "prefix_length" (number (ofLex (ofLex row.1).2).2),member "state" (.str row.2)]

def canonicalRoute (row : (ℕ ×ₗ PyText ×ₗ PyText) × Unit) : Value :=
  .obj [member "interface_index" (number (ofLex row.1).1),member "prefix" (.str (ofLex (ofLex row.1).2).1),
    member "next_hop" (.str (ofLex (ofLex row.1).2).2)]

def canonicalType (entry : ℕ × PyText) : Value := .obj [member "index" (number entry.1),member "type" (.str entry.2)]

def canonical (tables : Tables) : Value :=
  .obj [member "schema" (word schema),member "complete" (.lit (.bool true)),member "errors" (.arr []),
    member "interfaces" (.arr ((sorted tables.inter).map (canonicalInterface tables))),
    member "addresses" (.arr ((sorted tables.addressRows).map canonicalAddress)),
    member "routes" (.arr ((sorted tables.routeRows).map canonicalRoute)),
    member "os_map" (.arr ((sorted tables.mapping).map canonicalType))]

structure Guard where
  schema : String
  value : Option Bool
  reason : String
  reasons : List String
  fingerprint : Option Text
  canonical : Option Value
  evidenceRefs : List String
  authorized : Bool

def evidenceRefs : List String := ["windows-probe#ipv6_exposure"]

def invalid : Guard where
  schema := schema
  value := none
  reason := "ipv6_facts_invalid"
  reasons := ["ipv6_facts_invalid"]
  fingerprint := none
  canonical := none
  evidenceRefs := []
  authorized := false

def reasonsRecord (reasons : List String) : Value :=
  .obj [member "schema" (word schema),member "reasons" (.arr (reasons.map word))]

/-- The guard of facts that were not read to the end. -/
def refused (sha256 : Text → Text) (reasons : List String) : Except Fault Guard := do
  let fingerprint ← fingerprint sha256 (reasonsRecord reasons)
  return {
    schema := schema
    value := none
    reason := reasons.headD ""
    reasons := reasons
    fingerprint := some fingerprint
    canonical := none
    evidenceRefs := evidenceRefs
    authorized := false
  }

def assessed (sha256 : Text → Text) (py : Runtime) (tables : Tables) : Except Fault Guard := do
  let fingerprint ← fingerprint sha256 (canonical tables)
  return {
    schema := schema
    value := if (strictReasons py tables).isEmpty then some true else none
    reason := (strictReasons py tables).headD "strict_loopback_ipv6_only"
    reasons := strictReasons py tables
    fingerprint := some fingerprint
    canonical := some (canonical tables)
    evidenceRefs := evidenceRefs
    authorized := false
  }

/-- The handler of the reading, with the reasons there are so far. -/
def malformed (sha256 : Text → Text) (reasons : List String) (fault : Fault) : Except Fault Guard :=
  if fault.caught then refused sha256 (add "ipv6_facts_malformed" reasons) else .error fault

def rows? : Value → Option (List Value)
  | .arr items => if items = [] ∨ 256 < items.length then none else some items
  | _ => none

def schemaValid (facts : Value) : Bool :=
  match get facts "schema" with
  | .str s => s = ofText "fakenetng.ipv6-exposure.v1".toList
  | _ => false

def isComplete (facts : Value) : Bool :=
  match get facts "complete" with
  | .lit (.bool b) => b
  | _ => false

def noErrors (facts : Value) : Bool :=
  match get facts "errors" with
  | .arr items => items.isEmpty
  | _ => false

def factReasons (facts : Value) : List String :=
  let reasons := addIf (!schemaValid facts) "ipv6_schema_invalid" []
  let reasons := addIf (!isComplete facts) "ipv6_fact_incomplete" reasons
  let reasons := addIf (!noErrors facts) "ipv6_fact_error" reasons
  let reasons := addIf (rows? (get facts "interfaces")).isNone "ipv6_interfaces_invalid" reasons
  let reasons := addIf (rows? (get facts "addresses")).isNone "ipv6_addresses_invalid" reasons
  let reasons := addIf (rows? (get facts "routes")).isNone "ipv6_routes_invalid" reasons
  addIf (rows? (get facts "os_map")).isNone "ipv6_os_map_invalid" reasons

def rowsOf (facts : Value) (name : String) : List Value := (rows? (get facts name)).getD []

def readFacts (py : Runtime) (facts : Value) : Except Fault Tables :=
  readTables py (rowsOf facts "interfaces") (rowsOf facts "addresses") (rowsOf facts "routes") (rowsOf facts "os_map")

def normalizeIpv6Exposure (sha256 : Text → Text) (py : Runtime) (facts : Value) : Except Fault Guard :=
  if !isMapping facts then .ok invalid
  else if factReasons facts ≠ [] then refused sha256 (factReasons facts)
  else
    match readFacts py facts with
    | .error fault => malformed sha256 [] fault
    | .ok tables =>
      match assessed sha256 py tables with
      | .error fault => malformed sha256 (strictReasons py tables) fault
      | .ok guard => .ok guard

end ScopeGuard
end FakeNetNG
