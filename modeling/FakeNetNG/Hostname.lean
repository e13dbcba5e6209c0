import Mathlib.Tactic

/-!
# Hostnames

`normalize_hostname` and the errors that the egress policy raises. The IDNA codec is a
parameter: `idna value` is `value.encode("idna").decode("ascii")`, and `none` its
`UnicodeError`.
-/

namespace FakeNetNG

inductive PolicyError
  | policyConfig (message : String)
  | value (message : String)
  | runtime (message : String)
  | quotaExceeded (scope : String)
  deriving DecidableEq

namespace Hostname

/-- `str.isspace` of one character. -/
def isSpace (c : Char) : Bool :=
  let n := c.toNat
  (9 ≤ n && n ≤ 13) || (28 ≤ n && n ≤ 32) || (0x2000 ≤ n && n ≤ 0x200a) ||
    [0x85,0xa0,0x1680,0x2028,0x2029,0x202f,0x205f,0x3000].contains n

def strip (value : List Char) : List Char :=
  (value.dropWhile isSpace).reverse.dropWhile isSpace |>.reverse

def isLabelChar (c : Char) : Bool := c.isLower || c.isDigit

/-- `^[a-z0-9](?:[a-z0-9-]*[a-z0-9])?$` with at most 63 characters. -/
def validLabel (label : List Char) : Bool :=
  label.length ≤ 63 && label.head?.any isLabelChar && label.getLast?.any isLabelChar &&
    label.all fun c => isLabelChar c || c == '-'

/-- The characters and the pair that no hostname entry may hold. -/
def malformed (value : List Char) : Bool :=
  value.isEmpty || ['/','*',':'].any (value.contains ·) || value.any isSpace

def normalizeHostname (idna : String → Option String) (value : String) :
    Except PolicyError String :=
  let value := strip value.toList
  if malformed value then
    .error (.policyConfig "domain must be a hostname without scheme, port, path or wildcard")
  else
    let value := if value.getLast? = some '.' then value.dropLast else value
    match idna (String.ofList value) with
    | none => .error (.policyConfig "domain is not valid IDNA")
    | some encoded =>
      let result := encoded.toList.map Char.toLower
      if 253 < result.length || (result.splitOn '.').any (!validLabel ·) then
        .error (.policyConfig "domain has invalid labels")
      else .ok (String.ofList result)

example : normalizeHostname some " Example.COM. " = .ok "example.com" := by decide
example : normalizeHostname some "a..b" = .error (.policyConfig "domain has invalid labels") := by
  decide

end Hostname
end FakeNetNG
