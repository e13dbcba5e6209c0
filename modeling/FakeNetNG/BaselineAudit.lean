import FakeNetNG.Fallible
import FakeNetNG.JsonText
import FakeNetNG.PortSpec
import FakeNetNG.Surplus
import Mathlib.Data.Char
import Mathlib.Data.List.Lex

/-!
# The audit of a baseline

Two captures of the machine are compared section by section. The listing of the ports loses its process column
and its established connections first, so two listings are equal when they list the same endpoints equally often.
-/

namespace FakeNetNG
namespace BaselineAudit

inductive Fault
  | valueError (message : String)
  | other
  deriving DecidableEq

/-- What the code uses of its runtime: `str.upper`, `str.isdigit`, `json.loads`, `int` of a float, and the canonical
text of a section that holds JSON, with `none` where its rows are compared. -/
structure Runtime where
  upper : Text → Text
  isdigit : Text → Bool
  loads : Text → Option Json.Value
  truncate : Json.FloatText → Option ℤ
  normalizeJson : String → Text → Except Fault (Option Text)

def baselineFields : List String := ["routes","dns_servers","windivert_processes","listen_ports","services"]

def collectionFailed : Text := "__COLLECTION_FAILED__".toList

/-- The sections of a capture as `str` writes them; a section that is missing or `None` has no text. -/
abbrev Sections := String → Option Text

def isLineBreak (c : Char) : Bool := [10,11,12,13,28,29,30,0x85,0x2028,0x2029].contains c.toNat

/-- `splitlines`: a line break ends a line, and a carriage return takes the line feed behind it. -/
def splitlinesFrom (line : Text) : Text → List Text
  | [] => if line = [] then [] else [line]
  | '\r' :: '\n' :: rest => line :: splitlinesFrom [] rest
  | c :: rest => if isLineBreak c then line :: splitlinesFrom [] rest else splitlinesFrom (line++[c]) rest

def splitlines (text : Text) : List Text := splitlinesFrom [] text

def words (line : Text) : List Text := (line.splitOnP Text.isSpace).filter (· ≠ [])

def joinWords (parts : List Text) : Text := Text.join [' '] parts

section Audit

variable (py : Runtime)

def portRow (parts : List Text) : Option Text :=
  match parts with
  | [] => none
  | first :: _ =>
    let protocol := py.upper first
    if protocol = "TCP".toList then
      if 4 ≤ parts.length ∧ (parts[3]?.any fun state => py.upper state = "LISTENING".toList) then
        some (joinWords (parts.take 4))
      else none
    else if protocol = "UDP".toList ∧ 3 ≤ parts.length then some (joinWords (parts.take 3))
    else if protocol ∉ ["PROTO".toList,"ACTIVE".toList] then some (joinWords parts)
    else none

def sectionRow (name : String) (line : Text) : Option Text :=
  let parts := words line
  if name = "listen_ports" then portRow py parts
  else if parts = [] then none
  else some (joinWords parts)

def normalizeRows (name : String) (text : Text) : Text :=
  Text.join ['\n'] (((splitlines text).filterMap (sectionRow py name)).mergeSort fun a b => decide (a ≤ b))

def jsonSections : List String := ["windivert_processes","services","dns_servers"]

def normalize (name : String) (text : Text) : Except Fault Text :=
  if name ∈ jsonSections then do
    match ← py.normalizeJson name text with
    | some canonical => return canonical
    | none => return normalizeRows py name text
  else .ok (normalizeRows py name text)

structure Difference where
  collectionFailed : Bool
  before : Option Text
  after : Option Text
  deriving DecidableEq

/-- One turn of the loop of `audit_compare`: the difference of a section, if there is one. -/
def compareSection (baseline current : Sections) (name : String) : Except Fault (Option Difference) :=
  match baseline name,current name with
  | some before,some after =>
    if before = collectionFailed ∨ after = collectionFailed then .ok (some ⟨true,some before,some after⟩)
    else do
      let before ← normalize py name before
      let after ← normalize py name after
      if before ≠ after then return some ⟨false,some before,some after⟩ else return none
  | before,after => .ok (some ⟨true,before,after⟩)

/-- `audit_compare`, with the sections in their order. -/
def compareFrom (baseline current : Sections) : List String → Except Fault (List (String × Difference))
  | [] => .ok []
  | name :: rest => do
    let difference ← compareSection py baseline current name
    let differences ← compareFrom baseline current rest
    return (difference.map fun d => (name,d)).toList++differences

def auditCompare (baseline current : Sections) : Except Fault (List (String × Difference)) :=
  compareFrom py baseline current baselineFields

end Audit

end BaselineAudit
end FakeNetNG
