import FakeNetNG.BoolFilter
import FakeNetNG.ControlFilter

/-!
# The filters as they are written

The bases and the final filters of the diverter as concrete Boolean filters over the tests that
stand in them.
-/

namespace FakeNetNG
namespace ControlFilter

open Text BoolFilter

inductive Comparison
  | equal
  | notEqual
  | less
  | lessEqual
  | greater
  | greaterEqual
  deriving DecidableEq

def Comparison.text : Comparison → Text
  | .equal => "==".toList
  | .notEqual => "!=".toList
  | .less => "<".toList
  | .lessEqual => "<=".toList
  | .greater => ">".toList
  | .greaterEqual => ">=".toList

theorem Comparison.text_ne_nil (comparison : Comparison) : comparison.text ≠ [] := by
  cases comparison <;> decide

def Comparison.compare (left right : ℕ) : Comparison → Bool
  | .equal => left = right
  | .notEqual => left ≠ right
  | .less => left < right
  | .lessEqual => left ≤ right
  | .greater => left > right
  | .greaterEqual => left ≥ right

/-- The tests in the filters of the diverter. -/
inductive Clause
  | outbound
  | inbound
  | ip
  | ipv6
  | destination (comparison : Comparison) (address : BitVec 32)
  | source (address : BitVec 32)
  | isTcp
  | notLoopbackV6
  | port (n : ℕ)
  deriving DecidableEq

def Clause.text : Clause → Text
  | .outbound => "outbound".toList
  | .inbound => "inbound".toList
  | .ip => "ip".toList
  | .ipv6 => "ipv6".toList
  | .destination comparison address =>
      "ip.DstAddr".toList++ ' ' :: comparison.text++ ' ' :: IpAddress.dotted address
  | .source address => "ip.SrcAddr".toList++ ' ' :: "==".toList++ ' ' :: IpAddress.dotted address
  | .isTcp => "ip.Protocol".toList++ ' ' :: "==".toList++ ' ' :: "6".toList
  | .notLoopbackV6 => "ipv6.DstAddr".toList++ ' ' :: "!=".toList++ ' ' :: "::1".toList
  | .port n => "tcp.SrcPort".toList++ ' ' :: "!=".toList++ ' ' :: decimal n

theorem Clause.text_destination (comparison : Comparison) (address : BitVec 32) :
    (Clause.destination comparison address).text =
      "ip.DstAddr".toList++ ' ' :: comparison.text++ ' ' :: IpAddress.dotted address := rfl

theorem Clause.text_source (address : BitVec 32) :
    (Clause.source address).text =
      "ip.SrcAddr".toList++ ' ' :: "==".toList++ ' ' :: IpAddress.dotted address := rfl

theorem Clause.text_port (n : ℕ) :
    (Clause.port n).text = "tcp.SrcPort".toList++ ' ' :: "!=".toList++ ' ' :: decimal n := rfl

def addClause (s : Source Clause .conjunction) (a : Clause) : Source Clause .conjunction :=
  s.and (.atom a)

/-- `first and ...`. -/
def conjunction (first : Clause) (others : List Clause) : Source Clause .conjunction :=
  others.foldl addClause (.factor (.atom first))

def grouped (s : Source Clause .conjunction) : Source Clause .factor := .group (.conjunction s)

def controlSource (control : BitVec 32) (port : ℕ) (others : List ℕ) : Source Clause .factor :=
  .group (.or (.conjunction (.factor (.atom (.destination .notEqual control))))
    (.factor (grouped (conjunction (.port port) (others.map .port)))))

/-- The bounds of 127.0.0.0/8. -/
def loopbackFirst : BitVec 32 := 0x7F000000

def loopbackLast : BitVec 32 := 0x7FFFFFFF

def loopbackV4Source : Source Clause .factor :=
  .group (.or (.conjunction (.factor (.atom (.destination .less loopbackFirst))))
    (.factor (.atom (.destination .greater loopbackLast))))

def ipv4Arm (control : BitVec 32) (port : ℕ) (others : List ℕ) : Source Clause .conjunction :=
  ((conjunction .outbound [.ip]).and (controlSource control port others)).and loopbackV4Source

def dualSource (control : BitVec 32) (port : ℕ) (others : List ℕ) : Source Clause .disjunction :=
  .or (.conjunction (.factor (grouped (ipv4Arm control port others))))
    (.factor (grouped (conjunction .outbound [.ipv6,.notLoopbackV6])))

def redirectSource (target frozen : BitVec 32) : Source Clause .conjunction :=
  .factor (grouped (conjunction .inbound [.ip,.source target,.destination .equal frozen,.isTcp]))

def dualBaseSource : Source Clause .disjunction :=
  .conjunction (.and (.factor (.atom .outbound))
    (.group (.or (.conjunction (.factor (.atom .ip))) (.factor (.atom .ipv6)))))

def baseSource : Shape → Source Clause .disjunction
  | .legacy => .conjunction (conjunction .outbound [.ip])
  | .dual => dualBaseSource
  | .redirect target frozen =>
      .or (.conjunction (.factor (.group dualBaseSource))) (redirectSource target frozen)

def finalSource (control : BitVec 32) (port : ℕ) (others : List ℕ) : Shape → Source Clause .disjunction
  | .legacy => .conjunction (ipv4Arm control port others)
  | .dual => dualSource control port others
  | .redirect target frozen => .or (dualSource control port others) (redirectSource target frozen)

theorem holds_conjunction (truth : Clause → Bool) (first : Clause) (others : List Clause) :
    (conjunction first others).holds truth = (first :: others).all truth := by
  have hfold : ∀ (others : List Clause) (start : Source Clause .conjunction),
      (others.foldl addClause start).holds truth = (start.holds truth && others.all truth) := by
    intro others
    induction others with
    | nil =>
      intro start
      rw [List.foldl_nil,List.all_nil,Bool.and_true]
    | cons next others ih =>
      intro start
      rw [List.foldl_cons,ih,addClause,Source.holds,Source.holds,List.all_cons,Bool.and_assoc]
  rw [conjunction,hfold,List.all_cons]
  rfl

/-- A conjunction adds each test after an `and`. -/
theorem print_conjunction (text : Clause → Text) (first : Clause) (others : List Clause) :
    (conjunction first others).print text =
      join " and ".toList (text first :: others.map text) := by
  have hfold : ∀ (others : List Clause) (start : Source Clause .conjunction) (front : Text) (last : Clause),
      start.print text = front++text last →
      (others.foldl addClause start).print text =
        front++join " and ".toList (text last :: others.map text) := by
    intro others
    induction others with
    | nil =>
      intro start front last hstart
      rw [List.foldl_nil,hstart,List.map_nil,join_singleton]
    | cons next others ih =>
      intro start front last hstart
      have hnext : (addClause start next).print text = (front++text last++" and ".toList)++text next := by
        rw [addClause,Source.print,hstart]
        rfl
      rw [List.foldl_cons,ih _ _ next hnext,List.map_cons,join_cons]
      simp only [List.append_assoc]
  exact hfold others (.factor (.atom first)) [] first rfl

theorem text_port (n : ℕ) : (Clause.port n).text = "tcp.SrcPort != ".toList++decimal n := by
  have hliteral : "tcp.SrcPort != ".toList = "tcp.SrcPort".toList++ ' ' :: "!=".toList++[' '] := by
    decide
  rw [Clause.text_port,hliteral]
  simp only [List.append_assoc,List.cons_append,List.nil_append]

theorem print_ports (port : ℕ) (others : List ℕ) :
    (conjunction (.port port) (others.map .port)).print Clause.text =
      keepPort ((port :: others).map decimal) := by
  have htexts : (Clause.port port).text :: (others.map Clause.port).map Clause.text =
      ((port :: others).map decimal).map fun text => "tcp.SrcPort != ".toList++text := by
    simp only [List.map_map,List.map_cons,Function.comp_def,text_port]
  rw [print_conjunction,htexts]
  rfl

theorem print_controlSource (control : BitVec 32) (port : ℕ) (others : List ℕ) :
    (controlSource control port others).print Clause.text = clause control (port :: others) := by
  have hopen : "(ip.DstAddr != ".toList = '(' :: ("ip.DstAddr".toList++ ' ' :: "!=".toList++[' ']) := by
    decide
  have hor : " or (".toList = " or ".toList++['('] := by decide
  have hclose : "))".toList = [')',')'] := by decide
  have hbang : Comparison.notEqual.text = "!=".toList := rfl
  simp only [controlSource,grouped,Source.print,print_ports,Clause.text_destination,hbang]
  unfold clause negative
  rw [hopen,hor,hclose]
  simp only [List.append_assoc,List.cons_append,List.nil_append]

theorem print_loopbackV4Source : loopbackV4Source.print Clause.text = loopbackV4Clause := by
  decide

theorem print_ipv4Arm (control : BitVec 32) (port : ℕ) (others : List ℕ) :
    (ipv4Arm control port others).print Clause.text = finalLegacy control (port :: others) := by
  have hfront : (conjunction .outbound [.ip]).print Clause.text++" and ".toList =
      "outbound and ip and ".toList := by decide
  simp only [ipv4Arm,Source.print,print_controlSource,print_loopbackV4Source]
  rw [hfront]
  rfl

theorem print_dualSource (control : BitVec 32) (port : ℕ) (others : List ℕ) :
    (dualSource control port others).print Clause.text = finalDual control (port :: others) := by
  have hright : (conjunction .outbound [.ipv6,.notLoopbackV6]).print Clause.text =
      "outbound and ipv6 and ".toList++loopbackV6Clause := by decide
  have hopen : "(outbound and ip and ".toList = '(' :: "outbound and ip and ".toList := by
    decide
  have hmiddle : ") or (outbound and ipv6 and ".toList =
      [')']++(" or ".toList++(['(']++"outbound and ipv6 and ".toList)) := by decide
  simp only [dualSource,grouped,Source.print,print_ipv4Arm,hright]
  unfold finalDual finalLegacy
  rw [hopen,hmiddle]
  simp only [List.append_assoc,List.cons_append,List.nil_append]

theorem print_redirectSource (target frozen : BitVec 32) :
    " or ".toList++(redirectSource target frozen).print Clause.text =
      redirectTail (IpAddress.dotted target) (IpAddress.dotted frozen) := by
  have hsource : " or (inbound and ip and ip.SrcAddr == ".toList = " or ".toList++('(' ::
      ("inbound".toList++(" and ".toList++("ip".toList++(" and ".toList++
        ("ip.SrcAddr".toList++ ' ' :: "==".toList++[' '])))))) := by decide
  have hdestination : " and ip.DstAddr == ".toList =
      " and ".toList++("ip.DstAddr".toList++ ' ' :: "==".toList++[' ']) := by decide
  have hprotocol : " and ip.Protocol == 6)".toList =
      " and ".toList++(Clause.isTcp.text++[')']) := by decide
  have hin : Clause.inbound.text = "inbound".toList := rfl
  have hip : Clause.ip.text = "ip".toList := rfl
  have hequal : Comparison.equal.text = "==".toList := rfl
  unfold redirectTail
  rw [hsource,hdestination,hprotocol]
  simp only [redirectSource,grouped,Source.print,print_conjunction,List.map_cons,List.map_nil,
    join_cons,join_singleton,hin,hip,hequal,Clause.text_source,Clause.text_destination,
    List.append_assoc,List.cons_append,List.nil_append]

theorem print_finalSource (control : BitVec 32) (port : ℕ) (others : List ℕ) (shape : Shape) :
    (finalSource control port others shape).print Clause.text =
      finalText control (port :: others) shape := by
  cases shape with
  | legacy => exact print_ipv4Arm control port others
  | dual => exact print_dualSource control port others
  | redirect target frozen =>
    simp only [finalSource,Source.print,List.append_assoc,print_redirectSource,print_dualSource]
    rfl

theorem print_dualBaseSource : dualBaseSource.print Clause.text = dualBase := by decide

theorem print_baseSource (shape : Shape) :
    (baseSource shape).print Clause.text = baseText shape := by
  cases shape with
  | legacy => decide
  | dual => exact print_dualBaseSource
  | redirect target frozen =>
    simp only [baseSource,Source.print,List.append_assoc,print_redirectSource,print_dualBaseSource]
    rfl

end ControlFilter
end FakeNetNG
