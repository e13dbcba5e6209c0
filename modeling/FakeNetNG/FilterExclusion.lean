import FakeNetNG.FilterAgreement
import FakeNetNG.WinDivertFilter

/-!
# What an accepted filter excludes

The verification of any text in the filter language, not only of the texts that the diverter
writes: what it accepts takes the control link out of the interception, and it accepts what does
so by its port tests.
-/

namespace FakeNetNG
namespace Verification

open Text BoolFilter ControlFilter WinDivert

/-- The text of a filter that is written with the tokens of the verification. -/
def Writes (s : Source Lexeme .disjunction) (text : Text) : Prop :=
  tokenize none ((strip text).map Char.toLower) = some (s.tokens id)

/-- The value that an address test compares with, if it is a literal of its family. -/
def literal : Family → Text → Option ℕ
  | .ip,text => (IpAddress.readV4 text).map BitVec.toNat
  | .ipv6,text => (IpAddress.readV6 text).map BitVec.toNat

/-- An address test carries a literal of its own family. -/
def Lexeme.isLiteral : Lexeme → Bool
  | .address kind _ text => (literal kind text).isSome
  | .unknown => false
  | _ => true

def destinationField : Family → Field
  | .ip => .ipDstAddr
  | .ipv6 => .ipv6DstAddr

/-- A port of a packet with a TCP header; the packets of the filter language have no destination
port, so it comes beside the packet. -/
def portOf (p : Packet) (destinationPort : BitVec 16) : Side → Option ℕ
  | .source => Field.tcpSrcPort.value p
  | .destination => (Field.tcpSrcPort.value p).map fun _ => destinationPort.toNat

/-- What a test says about a packet. A test on a header that the packet does not have is false. -/
def lexemeHolds (p : Packet) (destinationPort : BitVec 16) : Lexeme → Bool
  | .constant value => value
  | .outbound => Test.outbound.holds p
  | .family .ip => Test.ip.holds p
  | .family .ipv6 => Test.ipv6.holds p
  | .port side comparison digits =>
      (portOf p destinationPort side).any fun port => comparison.compare port (numeral digits)
  | .address family comparison text =>
      (literal family text).any fun value =>
        (Test.compare (destinationField family) comparison value).holds p
  | .unknown => false

/-- What a test says when the packet goes to the control link and the ports match as given. -/
def lexemeUnder (control : BitVec 32) (values : ℕ → Bool) : Lexeme → Bool
  | .constant value => value
  | .outbound => true
  | .family family => family = .ip
  | .port _ comparison digits =>
      if comparison = .notEqual then !values (numeral digits) else values (numeral digits)
  | .address .ip comparison text =>
      (literal .ip text).any fun value => comparison.compare control.toNat value
  | .address .ipv6 _ _ => false
  | .unknown => false

def portsOf (s : Source Lexeme .disjunction) : List ℕ :=
  s.atoms.filterMap fun
    | .port _ _ digits => some (numeral digits)
    | _ => none

/-- A port test on the source port, of a valid port that `int` can read. -/
def Lexeme.isSourcePort : Lexeme → Bool
  | .port side _ digits =>
      side = .source && digits.length ≤ 4300 && 1 ≤ numeral digits && numeral digits ≤ 65535
  | _ => true

/-- A filter whose few ports are valid and which is false whenever one of them matches. -/
structure Excluding (control : BitVec 32) (s : Source Lexeme .disjunction) : Prop where
  literals : ∀ a ∈ s.atoms, a.isLiteral = true
  ports : ∀ a ∈ s.atoms, a.isSourcePort = true
  some : portsOf s ≠ []
  few : (portsOf s).dedup.length ≤ 12
  false : ∀ values : ℕ → Bool, (∃ n ∈ portsOf s, values n = true) →
    s.holds (lexemeUnder control values) = false

section Tests

variable {control : BitVec 32}

theorem colon_not_mem_of_readV4 {text : Text} {bits : BitVec 32}
    (h : IpAddress.readV4 text = some bits) : ':' ∉ text := by
  intro hcolon
  rcases IpAddress.mem_of_readV4 h hcolon with hdigit | hdot
  · exact absurd hdigit (by decide)
  · exact absurd hdot (by decide)

theorem colon_mem_of_readV6 {text : Text} {bits : BitVec 128}
    (h : IpAddress.readV6 text = some bits) : ':' ∈ text := by
  by_contra hcolon
  have haddress : ':' ∉ text.takeWhile (· ≠ '%') := fun hmem =>
    hcolon ((List.takeWhile_sublist _).subset hmem)
  have hparts : (split ':' (text.takeWhile (· ≠ '%'))).length = 1 := by
    rw [split,List.splitOn_eq_singleton haddress]
    rfl
  unfold IpAddress.readV6 at h
  dsimp only at h
  split at h
  · cases h
  · rw [if_pos (by rw [hparts]; omega)] at h
    cases h

theorem readV4_eq_none {text : Text} {bits : BitVec 128} (h : IpAddress.readV6 text = some bits) :
    IpAddress.readV4 text = none := by
  cases hv4 : IpAddress.readV4 text with
  | none => rfl
  | some other => exact absurd (colon_mem_of_readV6 h) (colon_not_mem_of_readV4 hv4)

theorem read_of_literal {family : Family} {text : Text} {value : ℕ}
    (h : literal family text = some value) :
    ∃ address, IpAddress.read text = some address ∧ version address = family ∧
      addressNumber address = value := by
  cases family with
  | ip =>
    obtain ⟨bits,hbits,hvalue⟩ := Option.map_eq_some_iff.mp h
    exact ⟨.v4 bits,by rw [IpAddress.read,hbits],rfl,hvalue⟩
  | ipv6 =>
    obtain ⟨bits,hbits,hvalue⟩ := Option.map_eq_some_iff.mp h
    exact ⟨.v6 bits,by rw [IpAddress.read,readV4_eq_none hbits,hbits]; rfl,rfl,hvalue⟩

theorem atom_address {family : Family} {comparison : Comparison} {text : Text} {value : ℕ}
    (h : literal family text = some value) :
    atom (some (.v4 control)) (.address family comparison text) =
      .ok (.const (lexemeUnder control (fun _ => false) (.address family comparison text))) := by
  obtain ⟨address,hread,hversion,hnumber⟩ := read_of_literal h
  simp only [atom,hread]
  cases family with
  | ip =>
    rw [if_neg (by rw [hversion]; exact fun h => h rfl),hnumber]
    simp [lexemeUnder,h,addressNumber]
  | ipv6 =>
    rw [if_pos (by rw [hversion]; exact fun h => by cases h)]
    rfl

theorem eval_atom {a : Lexeme} {tree : Ast ℕ} (hliteral : a.isLiteral = true)
    (h : atom (some (.v4 control)) a = .ok tree) (values : ℕ → Bool) :
    tree.eval values = lexemeUnder control values a := by
  cases a with
  | constant value =>
    cases h
    rfl
  | unknown => cases h
  | outbound =>
    cases h
    rfl
  | family family =>
    cases h
    cases family <;> rfl
  | address family comparison text =>
    obtain ⟨value,hvalue⟩ := Option.isSome_iff_exists.mp hliteral
    rw [atom_address hvalue] at h
    cases h
    cases family <;> rfl
  | port side comparison digits =>
    cases side with
    | destination => cases h
    | source =>
      simp only [atom,readDigits] at h
      split at h
      · cases h
      · rename_i port hport
        split at hport
        · cases hport
        · cases hport
          split at h
          · cases h
            cases comparison <;> simp [lexemeUnder,Ast.eval]
          · cases h

theorem variables_atom {a : Lexeme} {tree : Ast ℕ} (h : atom (some (.v4 control)) a = .ok tree) :
    tree.variables = ((fun
      | .port _ _ digits => some (numeral digits)
      | _ => none : Lexeme → Option ℕ) a).toList := by
  cases a with
  | constant value =>
    cases h
    rfl
  | unknown => cases h
  | outbound =>
    cases h
    rfl
  | family family =>
    cases h
    rfl
  | address family comparison text =>
    simp only [atom] at h
    split at h
    · cases h
    · split at h <;> cases h <;> rfl
  | port side comparison digits =>
    cases side with
    | destination => cases h
    | source =>
      simp only [atom,readDigits] at h
      split at h
      · cases h
      · rename_i port hport
        split at hport
        · cases hport
        · cases hport
          split at h
          · cases h
            split <;> rfl
          · cases h

theorem atom_ok {a : Lexeme} (hliteral : a.isLiteral = true) (hport : a.isSourcePort = true) :
    ∃ tree, atom (some (.v4 control)) a = .ok tree := by
  cases a with
  | constant value => exact ⟨_,rfl⟩
  | unknown => cases hliteral
  | outbound => exact ⟨_,rfl⟩
  | family family => exact ⟨_,rfl⟩
  | address family comparison text =>
    obtain ⟨value,hvalue⟩ := Option.isSome_iff_exists.mp hliteral
    exact ⟨_,atom_address hvalue⟩
  | port side comparison digits =>
    simp only [Lexeme.isSourcePort,Bool.and_eq_true,decide_eq_true_eq] at hport
    obtain ⟨⟨⟨rfl,hlength⟩,hlow⟩,hhigh⟩ := hport
    have hread : readDigits digits = some (numeral digits) := if_neg (by omega)
    refine ⟨if comparison = .notEqual then .not (.var (numeral digits)) else .var (numeral digits),?_⟩
    simp only [atom,hread]
    exact if_pos ⟨hlow,hhigh⟩

def Lexeme.isExact : Lexeme → Bool
  | .port _ comparison _ => comparison = .notEqual || comparison = .equal
  | _ => true

theorem lexemeHolds_eq {source : BitVec 32} {sourcePort : BitVec 16} (destinationPort : BitVec 16)
    {a : Lexeme} {tree : Ast ℕ} (hexact : a.isExact = true)
    (h : atom (some (.v4 control)) a = .ok tree) :
    lexemeHolds ⟨true,.v4 source control (.tcp sourcePort)⟩ destinationPort a =
      lexemeUnder control (fun n => decide (n = sourcePort.toNat)) a := by
  cases a with
  | constant value => rfl
  | unknown => cases h
  | outbound => rfl
  | family family => cases family <;> rfl
  | address family comparison text =>
    cases family with
    | ip => rfl
    | ipv6 => simp [lexemeHolds,lexemeUnder,Test.holds,destinationField,Field.value]
  | port side comparison digits =>
    cases side with
    | destination => cases h
    | source =>
      simp only [Lexeme.isExact,Bool.or_eq_true,decide_eq_true_eq] at hexact
      rcases hexact with rfl | rfl <;>
        simp [lexemeHolds,lexemeUnder,portOf,Field.value,Network.payload,Comparison.compare,eq_comm]

end Tests

def isExactToken : Token Lexeme → Bool
  | .atom a => a.isExact
  | _ => true

theorem matchTest_operator {name : Text} {operators : List Comparison} {isValue : Char → Bool}
    {text value rest : Text} {operator : Comparison}
    (h : matchTest name operators isValue text = some (operator,value,rest)) :
    operator ∈ operators := by
  unfold matchTest at h
  split at h
  · obtain ⟨found,hfound,hmatch⟩ := List.exists_of_findSome?_eq_some h
    split at hmatch
    · dsimp only at hmatch
      split at hmatch
      · cases hmatch
      · simp only [Option.some.injEq,Prod.mk.injEq] at hmatch
        rw [← hmatch.1]
        exact hfound
    · cases hmatch
  · cases h

theorem matchPort_exact {side : Side} {text rest : Text} {token : Token Lexeme}
    (h : matchPort side text = some (token,rest)) : isExactToken token = true := by
  obtain ⟨⟨operator,value,after⟩,hmatch,hfound⟩ := Option.map_eq_some_iff.mp h
  simp only [Prod.mk.injEq] at hfound
  rw [← hfound.1]
  have hoperator := matchTest_operator hmatch
  simp only [List.mem_cons,List.not_mem_nil,or_false] at hoperator
  rcases hoperator with rfl | rfl <;> rfl

theorem matchAddress_exact {family : Family} {text rest : Text} {token : Token Lexeme}
    (h : matchAddress family text = some (token,rest)) : isExactToken token = true := by
  obtain ⟨⟨operator,value,after⟩,hmatch,hfound⟩ := Option.map_eq_some_iff.mp h
  simp only [Prod.mk.injEq] at hfound
  rw [← hfound.1]
  rfl

theorem matchKeyword_exact {previous : Option Char} {text rest : Text} {token : Token Lexeme}
    (h : matchKeyword previous text = some (token,rest)) : isExactToken token = true := by
  have hexact : ∀ entry ∈ keywords, isExactToken entry.2 = true := by decide
  unfold matchKeyword at h
  split at h
  · cases h
  · obtain ⟨⟨word,found⟩,hentry,hfound⟩ := List.exists_of_findSome?_eq_some h
    dsimp only at hfound
    split at hfound
    · simp only [Option.some.injEq,Prod.mk.injEq] at hfound
      rw [← hfound.1]
      exact hexact (word,found) hentry
    · cases hfound

theorem matchToken_exact {previous : Option Char} {text rest : Text} {token : Token Lexeme}
    (h : matchToken previous text = some (token,rest)) : isExactToken token = true := by
  unfold matchToken at h
  split at h
  · cases h
    rfl
  · cases h
    rfl
  · simp only [matchWord,Option.orElse_eq_orElse,Option.orElse_eq_or,Option.or_eq_some_iff] at h
    rcases h with h | ⟨-,h | ⟨-,h | ⟨-,h | ⟨-,h⟩⟩⟩⟩
    · exact matchKeyword_exact h
    · exact matchPort_exact h
    · exact matchPort_exact h
    · exact matchAddress_exact h
    · exact matchAddress_exact h

theorem tokenize_exact {previous : Option Char} {text : Text} {tokens : List (Token Lexeme)}
    (h : tokenize previous text = some tokens) : ∀ token ∈ tokens, isExactToken token = true := by
  fun_induction tokenize previous text generalizing tokens with
  | case1 =>
    cases h
    exact fun _ htoken => absurd htoken List.not_mem_nil
  | case2 previous c rest hspace ih => exact ih h
  | case3 => cases h
  | case4 previous c rest hspace token after hmatch hle ih =>
    obtain ⟨others,hothers,rfl⟩ := Option.map_eq_some_iff.mp h
    intro other hother
    rcases List.mem_cons.mp hother with rfl | hother
    · exact matchToken_exact hmatch
    · exact ih hothers other hother

section Accepted

variable {control : BitVec 32} {s : Source Lexeme .disjunction}

theorem eval_tree {node : Ast ℕ} (htree : Source.IsTree (atom (some (.v4 control))) s node)
    (hliteral : ∀ a ∈ s.atoms, a.isLiteral = true) (values : ℕ → Bool) :
    node.eval values = s.holds (lexemeUnder control values) := by
  rw [htree.2,Source.eval_ast]
  refine Source.holds_congr fun a ha => ?_
  obtain ⟨tree,hread⟩ := htree.1 a ha
  rw [Source.treeOf,hread]
  exact eval_atom (hliteral a ha) hread values

theorem variables_tree {node : Ast ℕ} (htree : Source.IsTree (atom (some (.v4 control))) s node) :
    node.variables = portsOf s := by
  rw [htree.2,Source.variables_ast,portsOf,List.filterMap_eq_flatMap_toList]
  refine List.flatMap_congr fun a ha => ?_
  obtain ⟨tree,hread⟩ := htree.1 a ha
  rw [Source.treeOf,hread]
  exact variables_atom hread

theorem assignment_zero (target : ℕ) (others : List ℕ) :
    assignment target others 0 = fun n => decide (n = target) := by
  funext n
  unfold assignment
  by_cases h : n = target <;> simp [h]

theorem eval_of_verdict {node : Ast ℕ} (h : (verdict node).ok = true) {target : ℕ}
    (htarget : target ∈ (verdict node).ports) :
    node.eval (fun n => decide (n = target)) = false := by
  unfold verdict at h htarget
  dsimp only at h htarget
  split at h
  · cases h
  · rename_i hfew
    rw [if_neg hfew] at htarget
    split at h
    · rename_i hexcludes
      rw [if_pos hexcludes] at htarget
      have hmem : target ∈ portVariables node := (List.mergeSort_perm _ _).mem_iff.mp htarget
      have hall := List.all_eq_true.mp (List.all_eq_true.mp hexcludes target hmem) 0
        (List.mem_range.mpr (Nat.two_pow_pos _))
      rw [assignment_zero] at hall
      simpa using hall
    · cases h

theorem unknown_of_parse {address : Option IpAddress} {tokens : List (Token Lexeme)} {node : Ast ℕ}
    (h : parse (atom address) tokens = .ok node) : .atom .unknown ∉ tokens := by
  obtain ⟨s,hs,htree⟩ := Source.exists_of_parse h
  intro hmem
  rw [← hs,← Source.mem_atoms_iff] at hmem
  obtain ⟨tree,hread⟩ := htree.1 _ hmem
  cases hread

theorem parsed_of_ok {text controlIp : Text} {result : Verdict}
    (hcontrol : IpAddress.read controlIp = some (.v4 control))
    (h : parseControlFilter (some text) (some controlIp) = .ok result) (hok : result.ok = true) :
    ∃ tokens node, tokenize none ((strip text).map Char.toLower) = some tokens ∧
      parse (atom (some (.v4 control))) tokens = .ok node ∧ result = verdict node := by
  unfold parseControlFilter at h
  simp only [Option.getD_some,chooseControl_eq _ hcontrol] at h
  split at h
  · cases h
    cases hok
  · split at h
    · cases h
      cases hok
    · rename_i tokens htokens
      split at h
      · cases h
        cases hok
      · split at h
        · cases h
          cases hok
        · split at h
          · cases h
            cases hok
          · rename_i node hnode
            cases h
            exact ⟨tokens,node,tokenize_of_lex htokens (unknown_of_parse hnode),hnode,rfl⟩

theorem parseControlFilter_of_writes {text controlIp : Text}
    (hcontrol : IpAddress.read controlIp = some (.v4 control)) (hwrites : Writes s text)
    (hlength : (strip text).length ≤ 8192) (hexcluding : Excluding control s) :
    ∃ node, Source.IsTree (atom (some (.v4 control))) s node ∧
      parseControlFilter (some text) (some controlIp) = .ok (verdict node) := by
  have hread : ∀ a ∈ s.atoms, ∃ tree, atom (some (.v4 control)) a = .ok tree := fun a ha =>
    atom_ok (hexcluding.literals a ha) (hexcluding.ports a ha)
  have hparse : parse (atom (some (.v4 control))) (s.tokens id) =
      .ok (s.ast (Source.treeOf (atom (some (.v4 control))))) := by
    refine Source.parse_tokens s fun a ha => ?_
    obtain ⟨tree,htree⟩ := hread a ha
    rw [Source.treeOf,id,htree]
    rfl
  have hne : strip text ≠ [] := by
    intro hnil
    rw [Writes,hnil,List.map_nil,tokenize,Option.some.injEq] at hwrites
    have hjoins := s.joins_lt_length id
    rw [← hwrites,List.length_nil] at hjoins
    omega
  have hdestination : (s.tokens id).any (isPort .destination) = false := by
    rw [Source.any_tokens ⟨rfl,rfl,rfl,rfl,rfl⟩,List.any_eq_false]
    intro a ha
    have hport := hexcluding.ports a ha
    cases a with
    | port side comparison digits =>
      simp only [Lexeme.isSourcePort,Bool.and_eq_true,decide_eq_true_eq] at hport
      rw [hport.1.1.1]
      exact Bool.false_ne_true
    | _ => exact Bool.false_ne_true
  have hsource : (s.tokens id).any (isPort .source) = true := by
    rw [Source.any_tokens ⟨rfl,rfl,rfl,rfl,rfl⟩,List.any_eq_true]
    obtain ⟨port,hport⟩ := List.exists_mem_of_ne_nil _ hexcluding.some
    obtain ⟨a,ha,hdigits⟩ := List.mem_filterMap.mp hport
    refine ⟨a,ha,?_⟩
    have hside := hexcluding.ports a ha
    cases a with
    | port side comparison digits =>
      simp only [Lexeme.isSourcePort,Bool.and_eq_true,decide_eq_true_eq] at hside
      rw [hside.1.1.1]
      rfl
    | _ => cases hdigits
  refine ⟨_,⟨hread,rfl⟩,?_⟩
  unfold parseControlFilter
  simp only [Option.getD_some]
  rw [if_neg (not_or.mpr ⟨hne,by omega⟩),lex_of_tokenize hwrites]
  simp only [hdestination,hsource,chooseControl_eq _ hcontrol,hparse,Bool.false_eq_true,
    not_true_eq_false,if_false]

end Accepted

/-- With as many calls as it takes, the verification accepts only filters that are false for what answers on the
control link from one of the reported ports, and each filter of at most 8192 characters that is false whenever
one of its ports matches. -/
theorem accepted_excludes (text : Text) {controlIp : Text} {control : BitVec 32}
    (hcontrol : IpAddress.read controlIp = some (.v4 control)) :
    (∀ result, parseControlFilter (some text) (some controlIp) = .ok result → result.ok = true →
      (∃ s, Writes s text) ∧
      ∀ s, Writes s text → (∀ a ∈ s.atoms, a.isLiteral = true) →
        ∀ (source : BitVec 32) (sourcePort destinationPort : BitVec 16),
          sourcePort.toNat ∈ result.ports →
          s.holds (lexemeHolds ⟨true,.v4 source control (.tcp sourcePort)⟩ destinationPort) = false) ∧
    (∀ s, Writes s text → Excluding control s → (strip text).length ≤ 8192 →
      ∃ result, parseControlFilter (some text) (some controlIp) = .ok result ∧ result.ok = true ∧
        ∀ n, n ∈ result.ports ↔ n ∈ portsOf s) := by
  constructor
  · intro result hresult hok
    obtain ⟨tokens,node,htokens,hnode,rfl⟩ := parsed_of_ok hcontrol hresult hok
    obtain ⟨first,hfirst,htree⟩ := Source.exists_of_parse hnode
    refine ⟨⟨first,by rw [Writes,htokens,hfirst]⟩,fun s hs hliteral source sourcePort destinationPort
      hport => ?_⟩
    have hsame : s.tokens id = first.tokens id := by
      rw [Writes,htokens,Option.some.injEq] at hs
      rw [hfirst,hs]
    have hread : ∀ a ∈ s.atoms, ∃ tree, atom (some (.v4 control)) a = .ok tree := by
      intro a ha
      rw [Source.mem_atoms_iff,hsame,← Source.mem_atoms_iff] at ha
      exact htree.1 a ha
    have hexact : ∀ a ∈ s.atoms, a.isExact = true := by
      intro a ha
      rw [Source.mem_atoms_iff] at ha
      exact tokenize_exact hs (.atom a) ha
    have hholds : s.holds (lexemeHolds ⟨true,.v4 source control (.tcp sourcePort)⟩ destinationPort) =
        s.holds (lexemeUnder control fun n => decide (n = sourcePort.toNat)) := by
      refine Source.holds_congr fun a ha => ?_
      obtain ⟨tree,hatom⟩ := hread a ha
      exact lexemeHolds_eq destinationPort (hexact a ha) hatom
    have hstree : Source.IsTree (atom (some (.v4 control))) s node :=
      ⟨hread,by rw [htree.2,Source.ast_eq_of_tokens hsame]⟩
    rw [hholds,← eval_tree hstree hliteral]
    exact eval_of_verdict hok hport
  · intro s hs hexcluding hlength
    obtain ⟨node,htree,hparse⟩ := parseControlFilter_of_writes hcontrol hs hlength hexcluding
    have hvariables : node.variables = portsOf s := variables_tree htree
    have hverdict := verdict_eq (a:=node) (by rw [hvariables]; exact hexcluding.few)
      (fun target htarget values hvalue => by
        rw [hvariables] at htarget
        rw [eval_tree htree hexcluding.literals]
        exact hexcluding.false values ⟨target,htarget,hvalue⟩)
    refine ⟨_,hparse,by rw [hverdict],fun n => ?_⟩
    rw [hverdict,(List.mergeSort_perm _ _).mem_iff,mem_portVariables,hvariables]

end Verification
end FakeNetNG
