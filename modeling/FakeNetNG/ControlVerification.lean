import FakeNetNG.FilterSources

/-!
# The verification of a filter

The verification reads the final filter of a run with a tokenizer and a parser of its own, takes
the tests on addresses as decided by the address of the control link, and tries all values of the
tests on ports.
-/

namespace FakeNetNG
namespace Verification

open Text BoolFilter ControlFilter

inductive Side
  | source
  | destination
  deriving DecidableEq

inductive Family
  | ip
  | ipv6
  deriving DecidableEq

/-- A token that is a test, with the groups that `atom` takes out of it. -/
inductive Lexeme
  | constant (value : Bool)
  | outbound
  | family (family : Family)
  | port (side : Side) (comparison : Comparison) (digits : Text)
  | address (family : Family) (comparison : Comparison) (value : Text)
  | unknown
  deriving DecidableEq

/-- What `\w` matches of the characters that tokens have. -/
def isWord (c : Char) : Bool := c.isAlphanum || c = '_' || Text.isDigit c

def keywords : List (Text × Token Lexeme) :=
  [("and".toList,.and),("or".toList,.or),("not".toList,.not),
    ("true".toList,.atom (.constant true)),("false".toList,.atom (.constant false)),
    ("outbound".toList,.atom .outbound),("ipv6".toList,.atom (.family .ipv6)),
    ("ip".toList,.atom (.family .ip))]

def endsKeyword (rest : Text) : Bool := rest.head?.all fun c => !isWord c && c ≠ '.'

def matchKeyword (previous : Option Char) (text : Text) : Option (Token Lexeme × Text) :=
  if previous.any isWord then
    none
  else
    keywords.findSome? fun (word,token) =>
      if word <+: text ∧ endsKeyword (text.drop word.length) then
        some (token,text.drop word.length)
      else
        none

/-- A name, an operator and a value, with spaces between them. -/
def matchTest (name : Text) (operators : List Comparison) (isValue : Char → Bool) (text : Text) :
    Option (Comparison × Text × Text) :=
  if name <+: text then
    let afterName := (text.drop name.length).dropWhile isSpace
    operators.findSome? fun operator =>
      if operator.text <+: afterName then
        let afterOperator := (afterName.drop operator.text.length).dropWhile isSpace
        let value := afterOperator.takeWhile isValue
        if value = [] then none else some (operator,value,afterOperator.dropWhile isValue)
      else
        none
  else
    none

def Side.name : Side → Text
  | .source => "tcp.srcport".toList
  | .destination => "tcp.dstport".toList

def Family.name : Family → Text
  | .ip => "ip.dstaddr".toList
  | .ipv6 => "ipv6.dstaddr".toList

def isAddressChar (c : Char) : Bool := (IpAddress.hexDigit c).isSome || c = ':' || c = '.'

def matchPort (side : Side) (text : Text) : Option (Token Lexeme × Text) :=
  (matchTest side.name [.notEqual,.equal] Text.isDigit text).map fun (operator,value,rest) =>
    (.atom (.port side operator value),rest)

def matchAddress (family : Family) (text : Text) : Option (Token Lexeme × Text) :=
  (matchTest family.name [.notEqual,.equal,.lessEqual,.greaterEqual,.less,.greater] isAddressChar
    text).map fun (operator,value,rest) => (.atom (.address family operator value),rest)

def matchWord (previous : Option Char) (text : Text) : Option (Token Lexeme × Text) :=
  matchKeyword previous text <|> matchPort .source text <|> matchPort .destination text <|>
    matchAddress .ip text <|> matchAddress .ipv6 text

/-- The token at the beginning of a text in lower case, and the text behind it. -/
def matchToken (previous : Option Char) (text : Text) : Option (Token Lexeme × Text) :=
  match text with
  | '(' :: rest => some (.opening,rest)
  | ')' :: rest => some (.closing,rest)
  | _ => matchWord previous text

theorem matchTest_lt {name : Text} {operators : List Comparison} {isValue : Char → Bool}
    {text value rest : Text} {operator : Comparison} (hname : name ≠ [])
    (h : matchTest name operators isValue text = some (operator,value,rest)) :
    rest.length < text.length := by
  unfold matchTest at h
  split at h
  · rename_i hstarts
    obtain ⟨found,-,hfound⟩ := List.exists_of_findSome?_eq_some h
    split at hfound
    · dsimp only at hfound
      split at hfound
      · cases hfound
      · simp only [Option.some.injEq,Prod.mk.injEq] at hfound
        obtain ⟨-,-,rfl⟩ := hfound
        have hpos := List.length_pos_iff.mpr hname
        have hle := hstarts.length_le
        calc _ ≤ _ := (List.dropWhile_sublist _).length_le
          _ ≤ _ := (List.dropWhile_sublist _).length_le
          _ ≤ _ := (List.drop_sublist _ _).length_le
          _ ≤ (text.drop name.length).length := (List.dropWhile_sublist _).length_le
          _ < text.length := by
            rw [List.length_drop]
            omega
    · cases hfound
  · cases h

theorem matchKeyword_lt {previous : Option Char} {text rest : Text} {token : Token Lexeme}
    (h : matchKeyword previous text = some (token,rest)) : rest.length < text.length := by
  have hne : ∀ entry ∈ keywords, entry.1 ≠ [] := by decide
  unfold matchKeyword at h
  split at h
  · cases h
  · obtain ⟨⟨word,found⟩,hentry,hfound⟩ := List.exists_of_findSome?_eq_some h
    dsimp only at hfound
    split at hfound
    · rename_i hstarts
      simp only [Option.some.injEq,Prod.mk.injEq] at hfound
      obtain ⟨-,rfl⟩ := hfound
      have hpos : 0 < word.length := List.length_pos_iff.mpr (hne (word,found) hentry)
      have hle := hstarts.1.length_le
      rw [List.length_drop]
      omega
    · cases hfound

theorem matchPort_lt {side : Side} {text rest : Text} {token : Token Lexeme}
    (h : matchPort side text = some (token,rest)) : rest.length < text.length := by
  obtain ⟨⟨operator,value,after⟩,hmatch,hfound⟩ := Option.map_eq_some_iff.mp h
  simp only [Prod.mk.injEq] at hfound
  obtain ⟨-,rfl⟩ := hfound
  exact matchTest_lt (by cases side <;> decide) hmatch

theorem matchAddress_lt {family : Family} {text rest : Text} {token : Token Lexeme}
    (h : matchAddress family text = some (token,rest)) : rest.length < text.length := by
  obtain ⟨⟨operator,value,after⟩,hmatch,hfound⟩ := Option.map_eq_some_iff.mp h
  simp only [Prod.mk.injEq] at hfound
  obtain ⟨-,rfl⟩ := hfound
  exact matchTest_lt (by cases family <;> decide) hmatch

theorem matchToken_lt {previous : Option Char} {text rest : Text} {token : Token Lexeme}
    (h : matchToken previous text = some (token,rest)) : rest.length < text.length := by
  unfold matchToken at h
  split at h
  · simp only [Option.some.injEq,Prod.mk.injEq] at h
    obtain ⟨-,rfl⟩ := h
    exact Nat.lt_succ_self _
  · simp only [Option.some.injEq,Prod.mk.injEq] at h
    obtain ⟨-,rfl⟩ := h
    exact Nat.lt_succ_self _
  · simp only [matchWord,Option.orElse_eq_orElse,Option.orElse_eq_or,Option.or_eq_some_iff] at h
    rcases h with h | ⟨-,h | ⟨-,h | ⟨-,h | ⟨-,h⟩⟩⟩⟩
    · exact matchKeyword_lt h
    · exact matchPort_lt h
    · exact matchPort_lt h
    · exact matchAddress_lt h
    · exact matchAddress_lt h

/-- The tokens of a text in lower case, when there is nothing else in it but spaces. -/
def tokenize (previous : Option Char) (text : Text) : Option (List (Token Lexeme)) :=
  match text with
  | [] => some []
  | c :: rest =>
      if isSpace c then
        tokenize (some c) rest
      else
        match h : matchToken previous (c :: rest) with
        | none => none
        | some (token,after) =>
            have : after.length ≤ rest.length := Nat.le_of_lt_succ (matchToken_lt h)
            (tokenize (c :: rest)[rest.length-after.length]? after).map (token :: ·)
termination_by text.length

/-- The letters that match an `s` or an `i` without regard to case, and are no such letter in lower case. -/
def isOdd (c : Char) : Bool := c = '\u017f' || c = '\u0131' || c = '\u0130'

/-- What a character is compared as when case is ignored. -/
def caseless (c : Char) : Char :=
  if c = '\u017f' then 's' else if isOdd c then 'i' else c.toLower

/-- The tokens of a text without regard to case. In lower case a token with an odd letter is no test that
`atom` knows. -/
def lex (previous : Option Char) (text : Text) : Option (List (Token Lexeme)) :=
  match text with
  | [] => some []
  | c :: rest =>
      if isSpace c then
        lex (some (caseless c)) rest
      else
        match h : matchToken previous ((c :: rest).map caseless) with
        | none => none
        | some (token,after) =>
            have : after.length ≤ rest.length := by simpa using Nat.le_of_lt_succ (matchToken_lt h)
            let size := rest.length+1-after.length
            (lex ((c :: rest).map caseless)[rest.length-after.length]? ((c :: rest).drop size)).map
              ((if ((c :: rest).take size).any isOdd then .atom .unknown else token) :: ·)
termination_by text.length
decreasing_by
  · exact Nat.lt_succ_self _
  · rw [List.length_drop,List.length_cons]
    omega

def version : IpAddress → Family
  | .v4 _ => .ip
  | .v6 _ => .ipv6

def addressNumber : IpAddress → ℕ
  | .v4 bits => bits.toNat
  | .v6 bits => bits.toNat

/-- What `int` raises for too many digits. -/
def tooManyDigits (digits : Text) : String :=
  "Exceeds the limit (4300 digits) for integer string conversion: value has "++
    String.ofList (decimal digits.length)++
    " digits; use sys.set_int_max_str_digits() to increase the limit"

def notAnAddress (text : Text) : String :=
  "'"++String.ofList text++"' does not appear to be an IPv4 or IPv6 address"

/-- `('var', 'port:%d')` is the variable of its port. -/
def atom (control : Option IpAddress) : Lexeme → Except String (Ast ℕ)
  | .constant value => .ok (.const value)
  | .outbound => .ok (.const true)
  | .family family => .ok (.const (control.all fun address => version address = family))
  | .address _ comparison text =>
      match control with
      | none => .error "control_address_missing"
      | some address =>
          match IpAddress.read text with
          | none => .error (notAnAddress text)
          | some value =>
              if version value ≠ version address then
                .ok (.const false)
              else
                .ok (.const (comparison.compare (addressNumber address) (addressNumber value)))
  | .port .destination _ _ => .error "filter_atom_unknown"
  | .unknown => .error "filter_atom_unknown"
  | .port .source comparison digits =>
      match readDigits digits with
      | none => .error (tooManyDigits digits)
      | some port =>
          if 1 ≤ port ∧ port ≤ 65535 then
            .ok (if comparison = .notEqual then .not (.var port) else .var port)
          else
            .error "filter_port_invalid"

def namedAddresses (raw : Text) : List Text :=
  raw.tails.filterMap fun text =>
    (matchTest Family.ip.name [.notEqual,.equal] (fun c => c.isDigit || c = '.') text).map (·.2.1)

def isLoopbackAddress : IpAddress → Bool
  | .v4 bits => bits.toNat/2^24 = 127
  | .v6 bits => bits = 1

/-- The address of the control link, or the reason to refuse. The outer error is raised. -/
def chooseControl (raw : Text) (controlIp : Option Text) :
    Except String (Except String (Option IpAddress)) :=
  match controlIp with
  | some (c :: rest) =>
      match IpAddress.read (c :: rest) with
      | none => .ok (.error "control_address_invalid")
      | some address => .ok (.ok (some address))
  | _ => do
      let addresses ← (namedAddresses raw).mapM fun text =>
        match IpAddress.read text with
        | none => .error (notAnAddress text)
        | some address => .ok address
      match (addresses.filter fun address => !isLoopbackAddress address).dedup with
      | [] => return .ok none
      | [address] => return .ok (some address)
      | _ => return .error "control_address_ambiguous"

structure Verdict where
  ok : Bool
  reason : String
  ports : List ℕ
  deriving DecidableEq

def refuse (reason : String) (ports : List ℕ) : Verdict := ⟨false,reason,ports⟩

def parseReason : ParseFault String → String
  | .unexpectedEnd => "filter_unexpected_end"
  | .parenthesis => "filter_parenthesis"
  | .keyword => "filter_atom_unknown"
  | .trailingTokens => "filter_trailing_tokens"
  | .outOfFuel => ""
  | .atom reason => reason

theorem parse_fault_ne_outOfFuel {control : Option IpAddress} {tokens : List (Token Lexeme)}
    {fault : ParseFault String} (h : parse (atom control) tokens = .error fault) :
    fault ≠ .outOfFuel := by
  rintro rfl
  exact parse_ne_outOfFuel tokens h

def portVariables (node : Ast ℕ) : List ℕ :=
  node.variables.dedup.mergeSort fun a b => decide (decimal a ≤ decimal b)

def assignment (target : ℕ) (others : List ℕ) (bits : ℕ) (port : ℕ) : Bool :=
  if port = target then true else others.contains port && bits.testBit (others.idxOf port)

def excludesControl (node : Ast ℕ) (ports : List ℕ) : Bool :=
  ports.all fun target =>
    let others := ports.filter (· ≠ target)
    (List.range (2^others.length)).all fun bits => !node.eval (assignment target others bits)

def verdict (node : Ast ℕ) : Verdict :=
  let required := portVariables node
  if 12 < required.length then
    refuse "filter_too_complex" []
  else if excludesControl node required then
    ⟨true,"restricted_filter_control_excluded",required.mergeSort⟩
  else
    refuse "filter_control_not_excluded" required

def isPort (side : Side) : Token Lexeme → Bool
  | .atom (.port s _ _) => s = side
  | _ => false

def parseControlFilter (text controlIp : Option Text) : Except String Verdict :=
  let raw := strip (text.getD [])
  if raw = [] ∨ 8192 < raw.length then
    .ok (refuse "filter_missing" [])
  else
    match lex none raw with
    | none => .ok (refuse "filter_token_unknown" [])
    | some tokens =>
        if tokens.any (isPort .destination) then
          .ok (refuse "filter_inbound_direction" [])
        else if ¬ tokens.any (isPort .source) then
          .ok (refuse "filter_no_ports" [])
        else
          match chooseControl (raw.map caseless) controlIp with
          | .error message => .error message
          | .ok (.error reason) => .ok (refuse reason [])
          | .ok (.ok control) =>
              match parse (atom control) tokens with
              | .error fault => .ok (refuse (parseReason fault) [])
              | .ok node => .ok (verdict node)

end Verification
end FakeNetNG
