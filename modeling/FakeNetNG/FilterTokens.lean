import FakeNetNG.ControlVerification

/-!
# The tokens of the diverter's filters

What the tokenizer of the verification makes of the tests that the diverter writes.
-/

namespace FakeNetNG
namespace Verification

open Text BoolFilter ControlFilter

/-- A text without delimiters that begins before one ends before it. -/
theorem prefix_append_iff {part text rest : Text} (hspace : ' ' ∉ part) (hclosing : ')' ∉ part)
    (hrest : Delimited rest) : part <+: text++rest ↔ part <+: text := by
  constructor
  · intro h
    by_contra hnot
    have hlength : text.length < part.length := by
      by_contra hle
      exact hnot (List.prefix_of_prefix_length_le h (List.prefix_append text rest) (by omega))
    cases rest with
    | nil => exact hnot (by rwa [List.append_nil] at h)
    | cons c rest =>
      have hthrough : text++[c] <+: part := by
        have hwhole : text++[c] <+: text++c :: rest := ⟨rest,by simp⟩
        refine List.prefix_of_prefix_length_le hwhole h ?_
        rw [List.length_append,List.length_singleton]
        omega
      have hc : c ∈ part := hthrough.subset (by simp)
      simp only [Delimited,List.head?_cons,reduceCtorEq,Option.some.injEq,false_or] at hrest
      rcases hrest with rfl | rfl
      · exact hspace hc
      · exact hclosing hc
  · intro h
    exact h.trans (List.prefix_append text rest)

theorem endsKeyword_delimited {rest : Text} (h : Delimited rest) : endsKeyword rest = true := by
  rcases h with h | h | h <;> rw [endsKeyword,h] <;> decide

/-- What follows a prefix of a text ends it or not whatever delimiter comes behind the text. -/
theorem endsKeyword_append {text rest : Text} (h : Delimited rest) :
    endsKeyword (text++rest) = endsKeyword text := by
  cases text with
  | nil => exact endsKeyword_delimited h
  | cons c text => rfl

theorem matchKeyword_append {previous : Option Char} {text rest : Text}
    (hprevious : previous.any isWord = false) (hrest : Delimited rest) :
    matchKeyword previous (text++rest) =
      (matchKeyword none text).map fun (token,after) => (token,after++rest) := by
  have hplain : ∀ entry ∈ keywords, ' ' ∉ entry.1 ∧ ')' ∉ entry.1 := by decide
  unfold matchKeyword
  rw [hprevious,if_neg (by decide),Option.any_none,if_neg (by decide),List.map_findSome?,
    ← List.head?_filterMap,← List.head?_filterMap]
  refine congrArg List.head? (List.filterMap_congr fun entry hentry => ?_)
  obtain ⟨word,token⟩ := entry
  obtain ⟨hspace,hclosing⟩ := hplain (word,token) hentry
  dsimp only [Function.comp]
  by_cases hstarts : word <+: text
  · have hdrop : (text++rest).drop word.length = text.drop word.length++rest :=
      List.drop_append_of_le_length hstarts.length_le
    simp only [hdrop,endsKeyword_append hrest,prefix_append_iff hspace hclosing hrest]
    split <;> rfl
  · have hnot : ¬ word <+: text++rest := mt (prefix_append_iff hspace hclosing hrest).mp hstarts
    rw [if_neg fun h => hnot h.1,if_neg fun h => hstarts h.1]
    rfl

theorem matchTest_eq_none {name : Text} {operators : List Comparison} {isValue : Char → Bool}
    {text rest : Text} (hplain : ' ' ∉ name ∧ ')' ∉ name) (hrest : Delimited rest)
    (h : ¬ name <+: text) : matchTest name operators isValue (text++rest) = none := by
  unfold matchTest
  exact if_neg (mt (prefix_append_iff hplain.1 hplain.2 hrest).mp h)

/-- An operator is found before the ones that it begins with. -/
def Chosen (operators : List Comparison) (operator : Comparison) : Prop :=
  operators.find? (fun other => other.text <+: operator.text) = some operator

theorem takeWhile_value {isValue : Char → Bool} {value rest : Text}
    (hvalue : ∀ c ∈ value, isValue c = true) (hspace : isValue ' ' = false)
    (hclosing : isValue ')' = false) (hrest : Delimited rest) :
    (value++rest).takeWhile isValue = value ∧ (value++rest).dropWhile isValue = rest := by
  have hstop : rest.takeWhile isValue = [] ∧ rest.dropWhile isValue = rest := by
    cases rest with
    | nil => exact ⟨rfl,rfl⟩
    | cons c rest =>
      simp only [Delimited,List.head?_cons,reduceCtorEq,Option.some.injEq,false_or] at hrest
      rcases hrest with rfl | rfl
      · simp [hspace]
      · simp [hclosing]
  rw [List.takeWhile_append_of_pos hvalue,List.dropWhile_append_of_pos hvalue,hstop.1,hstop.2,
    List.append_nil]
  exact ⟨rfl,rfl⟩

theorem delimited_space (rest : Text) : Delimited (' ' :: rest) := Or.inr (Or.inl rfl)

theorem comparison_plain (comparison : Comparison) : ' ' ∉ comparison.text ∧ ')' ∉ comparison.text := by
  cases comparison <;> decide

theorem comparison_not_space (comparison : Comparison) : ∀ c ∈ comparison.text, isSpace c = false := by
  cases comparison <;> decide

/-- Spaces before an operator or a value are skipped. -/
theorem dropWhile_space {text : Text} (h : ∀ c ∈ text.head?, isSpace c = false) :
    (' ' :: text).dropWhile isSpace = text := by
  have hspace : isSpace ' ' = true := by decide
  cases text with
  | nil => rfl
  | cons c text => simp [hspace,h c rfl]

/-- A test as the diverter writes it. -/
theorem matchTest_eq {name : Text} {operators : List Comparison} {isValue : Char → Bool}
    {value rest : Text} {operator : Comparison} (hoperator : Chosen operators operator)
    (hne : value ≠ []) (hvalue : ∀ c ∈ value, isValue c = true ∧ isSpace c = false)
    (hspace : isValue ' ' = false) (hclosing : isValue ')' = false) (hrest : Delimited rest) :
    matchTest name operators isValue (name++ ' ' :: (operator.text++ ' ' :: (value++rest))) =
      some (operator,value,rest) := by
  have hname : ((name++ ' ' :: (operator.text++ ' ' :: (value++rest))).drop name.length).dropWhile
      isSpace = operator.text++ ' ' :: (value++rest) := by
    rw [List.drop_left]
    refine dropWhile_space fun c hc => ?_
    rw [List.head?_append_of_ne_nil _ operator.text_ne_nil] at hc
    exact comparison_not_space operator c (List.mem_of_mem_head? hc)
  have hbehind : ((operator.text++ ' ' :: (value++rest)).drop operator.text.length).dropWhile
      isSpace = value++rest := by
    rw [List.drop_left]
    refine dropWhile_space fun c hc => ?_
    rw [List.head?_append_of_ne_nil _ hne] at hc
    exact (hvalue c (List.mem_of_mem_head? hc)).2
  obtain ⟨htake,hdrop⟩ := takeWhile_value (fun c hc => (hvalue c hc).1) hspace hclosing hrest
  obtain ⟨hself,before,after,hsplit,hbefore⟩ := List.find?_eq_some_iff_append.mp hoperator
  unfold matchTest
  rw [if_pos (List.prefix_append _ _)]
  dsimp only
  rw [hname,List.findSome?_eq_some_iff]
  refine ⟨before,operator,after,hsplit,?_,fun other hother => ?_⟩
  · rw [if_pos (List.prefix_append _ _),hbehind,htake,hdrop,if_neg hne]
  · refine if_neg fun hstarts => ?_
    obtain ⟨hs,hc⟩ := comparison_plain other
    rw [prefix_append_iff hs hc (delimited_space _)] at hstarts
    have hnot := hbefore other hother
    simp only [hstarts,decide_true,Bool.not_true,Bool.false_eq_true] at hnot

theorem tokenize_space (previous : Option Char) (rest : Text) :
    tokenize previous (' ' :: rest) = tokenize (some ' ') rest := by
  rw [tokenize,if_pos (by decide)]

theorem tokenize_token {previous : Option Char} {c : Char} {rest after : Text} {token : Token Lexeme}
    (hspace : isSpace c = false) (h : matchToken previous (c :: rest) = some (token,after)) :
    tokenize previous (c :: rest) =
      (tokenize (c :: rest)[rest.length-after.length]? after).map (token :: ·) := by
  rw [tokenize,if_neg (by simp [hspace])]
  split
  · rename_i hnone
    rw [hnone] at h
    cases h
  · rename_i hsome
    rw [hsome] at h
    cases h
    rfl

theorem tokenize_unknown {previous : Option Char} {c : Char} {rest : Text}
    (hspace : isSpace c = false) (h : matchToken previous (c :: rest) = none) :
    tokenize previous (c :: rest) = none := by
  rw [tokenize,if_neg (by simp [hspace])]
  split
  · rfl
  · rename_i hsome
    rw [hsome] at h
    cases h

theorem tokenize_opening (previous : Option Char) (rest : Text) :
    tokenize previous ('(' :: rest) = (tokenize (some '(') rest).map (.opening :: ·) := by
  have hmatch : matchToken previous ('(' :: rest) = some (.opening,rest) := rfl
  rw [tokenize_token (by decide) hmatch,Nat.sub_self,List.getElem?_cons_zero]

theorem tokenize_closing (previous : Option Char) (rest : Text) :
    tokenize previous (')' :: rest) = (tokenize (some ')') rest).map (.closing :: ·) := by
  have hmatch : matchToken previous (')' :: rest) = some (.closing,rest) := rfl
  rw [tokenize_token (by decide) hmatch,Nat.sub_self,List.getElem?_cons_zero]

/-- Before a delimiter it does not matter what was read. -/
theorem tokenize_delimited {rest : Text} (h : Delimited rest) (previous other : Option Char) :
    tokenize previous rest = tokenize other rest := by
  cases rest with
  | nil => rw [tokenize,tokenize]
  | cons c rest =>
    simp only [Delimited,List.head?_cons,reduceCtorEq,Option.some.injEq,false_or] at h
    rcases h with rfl | rfl
    · rw [tokenize_space,tokenize_space]
    · rw [tokenize_closing,tokenize_closing]

/-- A text that is read as tokens, and then as the end says. -/
def Reads (ending : Option (List (Token Lexeme))) (rest : Text) (tokens : List (Token Lexeme)) : Prop :=
  ∀ previous : Option Char, previous.any isWord = false →
    tokenize previous rest = ending.map (tokens++·)

section Reading

variable {ending : Option (List (Token Lexeme))} {rest : Text} {tokens : List (Token Lexeme)}

theorem Reads.cons {previous : Option Char} (h : Reads ending rest tokens)
    (hprevious : previous.any isWord = false) (token : Token Lexeme) :
    (tokenize previous rest).map (token :: ·) = ending.map (token :: tokens++·) := by
  rw [h previous hprevious,Option.map_map]
  rfl

theorem Reads.word {word : Text} {token : Token Lexeme} (h : Reads ending rest tokens)
    (hrest : Delimited rest) (hspace : word.head?.any isSpace = false) (hne : word ≠ [])
    (hmatch : ∀ previous : Option Char, previous.any isWord = false →
      matchToken previous (word++rest) = some (token,rest)) :
    Reads ending (word++rest) (token :: tokens) := by
  intro previous hprevious
  obtain ⟨c,word,rfl⟩ := List.exists_cons_of_ne_nil hne
  have hc : isSpace c = false := by simpa using hspace
  have hmatched := hmatch previous hprevious
  rw [List.cons_append] at hmatched ⊢
  rw [tokenize_token hc hmatched,tokenize_delimited hrest _ none,h.cons (by rfl)]

/-- A word that is no parenthesis is matched as a word. -/
theorem matchToken_of_head {previous : Option Char} {text : Text}
    (h : text.head? ≠ some '(' ∧ text.head? ≠ some ')') :
    matchToken previous text = matchWord previous text := by
  unfold matchToken
  split
  · exact absurd rfl h.1
  · exact absurd rfl h.2
  · rfl

theorem matchToken_keyword {previous : Option Char} {word : Text} {token : Token Lexeme}
    (hprevious : previous.any isWord = false) (hrest : Delimited rest)
    (hhead : word.head? ≠ some '(' ∧ word.head? ≠ some ')' ∧ word ≠ [])
    (hword : matchKeyword none word = some (token,[])) :
    matchToken previous (word++rest) = some (token,rest) := by
  rw [matchToken_of_head (by rw [List.head?_append_of_ne_nil _ hhead.2.2]; exact ⟨hhead.1,hhead.2.1⟩),
    matchWord,matchKeyword_append hprevious hrest,hword]
  rfl

theorem Reads.keyword {word : Text} {token : Token Lexeme} (h : Reads ending rest tokens)
    (hrest : Delimited rest) (hspace : word.head?.any isSpace = false)
    (hhead : word.head? ≠ some '(' ∧ word.head? ≠ some ')' ∧ word ≠ [])
    (hword : matchKeyword none word = some (token,[])) :
    Reads ending (word++rest) (token :: tokens) :=
  h.word hrest hspace hhead.2.2 fun _ hprevious => matchToken_keyword hprevious hrest hhead hword

theorem Reads.space (h : Reads ending rest tokens) : Reads ending (' ' :: rest) tokens :=
  fun previous _ => by rw [tokenize_space,h _ (by decide)]

theorem reading : Reading (Reads ending) where
  opening := fun {rest tokens} h previous _ => by
    rw [tokenize_opening,h.cons (by decide)]
  closing := fun {rest tokens} h previous _ => by
    rw [tokenize_closing,h.cons (by decide)]
  and := fun {rest tokens} h => by
    have hliteral : " and ".toList = ' ' :: ("and".toList++[' ']) := by decide
    rw [hliteral,List.cons_append,List.append_assoc]
    exact (h.space.keyword (delimited_space rest) (by decide) (by decide)
      (by decide)).space
  or := fun {rest tokens} h => by
    have hliteral : " or ".toList = ' ' :: ("or".toList++[' ']) := by decide
    rw [hliteral,List.cons_append,List.append_assoc]
    exact (h.space.keyword (delimited_space rest) (by decide) (by decide)
      (by decide)).space
  not := fun {rest tokens} h => by
    have hliteral : "not ".toList = "not".toList++[' '] := by decide
    rw [hliteral,List.append_assoc]
    exact h.space.keyword (delimited_space rest) (by decide) (by decide)
      (by decide)

/-- The tests that the tokenizer knows. -/
def known : Clause → Bool
  | .inbound => false
  | .source _ => false
  | .isTcp => false
  | _ => true

def clauseLexeme : Clause → Lexeme
  | .ip => .family .ip
  | .ipv6 => .family .ipv6
  | .destination comparison address => .address .ip comparison (IpAddress.dotted address)
  | .notLoopbackV6 => .address .ipv6 .notEqual "::1".toList
  | .port n => .port .source .notEqual (decimal n)
  | _ => .outbound

def lowered (a : Clause) : Text := a.text.map Char.toLower

theorem toLower_of_isDigit {text : Text} (h : ∀ c ∈ text, c.isDigit = true ∨ c = '.') :
    text.map Char.toLower = text := by
  conv_rhs => rw [← List.map_id text]
  refine List.map_congr_left fun c hc => ?_
  rcases h c hc with hdigit | rfl
  · simp only [Char.isDigit,Bool.and_eq_true,decide_eq_true_eq] at hdigit
    refine dif_neg fun hupper => ?_
    have hle : 'A'.val ≤ '9'.val := UInt32.le_trans hupper.1 hdigit.2
    revert hle
    decide
  · decide

theorem lowered_destination (comparison : Comparison) (address : BitVec 32) :
    lowered (.destination comparison address) =
      "ip.dstaddr".toList++ ' ' :: (comparison.text++ ' ' :: IpAddress.dotted address) := by
  have hname : "ip.DstAddr".toList.map Char.toLower = "ip.dstaddr".toList := by decide
  have hcomparison : comparison.text.map Char.toLower = comparison.text := by
    cases comparison <;> decide
  have haddress : (IpAddress.dotted address).map Char.toLower = IpAddress.dotted address :=
    toLower_of_isDigit fun _ => IpAddress.mem_dotted
  have hspace : Char.toLower ' ' = ' ' := by decide
  rw [lowered,Clause.text_destination,List.map_append,List.map_append,List.map_cons,List.map_cons,
    hname,hcomparison,haddress,hspace,List.append_assoc,List.cons_append]

theorem lowered_port (n : ℕ) :
    lowered (.port n) = "tcp.srcport".toList++ ' ' :: (Comparison.notEqual.text++ ' ' :: decimal n) := by
  have hname : "tcp.SrcPort".toList.map Char.toLower = "tcp.srcport".toList := by decide
  have hcomparison : "!=".toList.map Char.toLower = Comparison.notEqual.text := by decide
  have hdigits : (decimal n).map Char.toLower = decimal n :=
    toLower_of_isDigit fun _ hc => Or.inl (isDigit_of_mem_decimal hc)
  have hspace : Char.toLower ' ' = ' ' := by decide
  rw [lowered,Clause.text_port,List.map_append,List.map_append,List.map_cons,List.map_cons,
    hname,hcomparison,hdigits,hspace,List.append_assoc,List.cons_append]

theorem Side.name_plain (side : Side) : ' ' ∉ side.name ∧ ')' ∉ side.name := by
  cases side <;> decide

theorem Family.name_plain (family : Family) : ' ' ∉ family.name ∧ ')' ∉ family.name := by
  cases family <;> decide

/-- A name of a field is no keyword, and no other name begins it. -/
theorem matchToken_name {previous : Option Char} {name tail : Text}
    (hprevious : previous.any isWord = false)
    (hhead : name.head? ≠ some '(' ∧ name.head? ≠ some ')' ∧ name ≠ [])
    (hkeyword : matchKeyword none name = none) :
    matchToken previous (name++ ' ' :: tail) =
      (matchPort .source (name++ ' ' :: tail) <|> matchPort .destination (name++ ' ' :: tail) <|>
        matchAddress .ip (name++ ' ' :: tail) <|> matchAddress .ipv6 (name++ ' ' :: tail)) := by
  have hfirst : (name++ ' ' :: tail).head? = name.head? := List.head?_append_of_ne_nil _ hhead.2.2
  rw [matchToken_of_head (by rw [hfirst]; exact ⟨hhead.1,hhead.2.1⟩),matchWord,
    matchKeyword_append hprevious (delimited_space tail),hkeyword]
  rfl

theorem matchPort_eq_none {side : Side} {name : Text} (h : ¬ side.name <+: name) (tail : Text) :
    matchPort side (name++ ' ' :: tail) = none := by
  unfold matchPort
  rw [matchTest_eq_none side.name_plain (delimited_space tail) h]
  rfl

theorem matchAddress_eq_none {family : Family} {name : Text} (h : ¬ family.name <+: name)
    (tail : Text) : matchAddress family (name++ ' ' :: tail) = none := by
  unfold matchAddress
  rw [matchTest_eq_none family.name_plain (delimited_space tail) h]
  rfl

theorem matchAddress_eq (family : Family) (comparison : Comparison) {value : Text} (hne : value ≠ [])
    (hvalue : ∀ c ∈ value, isAddressChar c = true ∧ isSpace c = false) (hrest : Delimited rest) :
    matchAddress family (family.name++ ' ' :: (comparison.text++ ' ' :: (value++rest))) =
      some (.atom (.address family comparison value),rest) := by
  have hchosen : Chosen [.notEqual,.equal,.lessEqual,.greaterEqual,.less,.greater] comparison := by
    unfold Chosen
    cases comparison <;> decide
  unfold matchAddress
  rw [matchTest_eq hchosen hne hvalue (by decide) (by decide) hrest]
  rfl

theorem matchPort_eq (n : ℕ) (hrest : Delimited rest) :
    matchPort .source (Side.source.name++ ' ' :: (Comparison.notEqual.text++ ' ' :: (decimal n++rest))) =
      some (.atom (.port .source .notEqual (decimal n)),rest) := by
  have hchosen : Chosen [.notEqual,.equal] .notEqual := by
    unfold Chosen
    decide
  have hdigits : ∀ c ∈ decimal n, isDigit c = true ∧ isSpace c = false := fun c hc =>
    ⟨isDigit_of_ascii (isDigit_of_mem_decimal hc),isSpace_of_isDigit (isDigit_of_mem_decimal hc)⟩
  unfold matchPort
  rw [matchTest_eq hchosen (decimal_ne_nil n) hdigits (by decide) (by decide) hrest]
  rfl

theorem isAddressChar_of_mem_dotted {bits : BitVec 32} {c : Char} (h : c ∈ IpAddress.dotted bits) :
    isAddressChar c = true ∧ isSpace c = false := by
  refine ⟨?_,IpAddress.isSpace_of_mem_dotted h⟩
  rcases IpAddress.mem_dotted h with hdigit | rfl
  · simp [isAddressChar,IpAddress.hexDigit,hdigit]
  · decide

theorem Reads.destination (h : Reads ending rest tokens) (hrest : Delimited rest)
    (comparison : Comparison) (address : BitVec 32) :
    Reads ending (lowered (.destination comparison address)++rest)
      (.atom (.address .ip comparison (IpAddress.dotted address)) :: tokens) := by
  have htext : lowered (.destination comparison address)++rest =
      Family.ip.name++ ' ' :: (comparison.text++ ' ' :: (IpAddress.dotted address++rest)) := by
    rw [lowered_destination]
    simp only [List.append_assoc,List.cons_append]
    rfl
  refine h.word hrest ?_ ?_ fun previous hprevious => ?_
  · rw [lowered_destination,List.head?_append_of_ne_nil _ (by decide)]
    decide
  · rw [lowered_destination]
    exact List.append_ne_nil_of_left_ne_nil (by decide) _
  · rw [htext,matchToken_name hprevious (by decide) (by decide),
      matchPort_eq_none (by decide),matchPort_eq_none (by decide),
      matchAddress_eq .ip comparison (IpAddress.dotted_ne_nil address)
        (fun _ => isAddressChar_of_mem_dotted) hrest]
    rfl

theorem Reads.port (h : Reads ending rest tokens) (hrest : Delimited rest) (n : ℕ) :
    Reads ending (lowered (.port n)++rest)
      (.atom (.port .source .notEqual (decimal n)) :: tokens) := by
  have htext : lowered (.port n)++rest =
      Side.source.name++ ' ' :: (Comparison.notEqual.text++ ' ' :: (decimal n++rest)) := by
    rw [lowered_port]
    simp only [List.append_assoc,List.cons_append]
    rfl
  refine h.word hrest ?_ ?_ fun previous hprevious => ?_
  · rw [lowered_port,List.head?_append_of_ne_nil _ (by decide)]
    decide
  · rw [lowered_port]
    exact List.append_ne_nil_of_left_ne_nil (by decide) _
  · rw [htext,matchToken_name hprevious (by decide) (by decide),matchPort_eq n hrest]
    rfl

theorem Reads.notLoopbackV6 (h : Reads ending rest tokens) (hrest : Delimited rest) :
    Reads ending (lowered .notLoopbackV6++rest)
      (.atom (.address .ipv6 .notEqual "::1".toList) :: tokens) := by
  have hlowered : lowered .notLoopbackV6 =
      Family.ipv6.name++ ' ' :: (Comparison.notEqual.text++ ' ' :: "::1".toList) := by decide
  refine h.word hrest (by decide) (by decide) fun previous hprevious => ?_
  rw [hlowered,List.append_assoc,List.cons_append,List.append_assoc,List.cons_append,
    matchToken_name hprevious (by decide) (by decide),
    matchPort_eq_none (by decide),matchPort_eq_none (by decide),
    matchAddress_eq_none (by decide),
    matchAddress_eq .ipv6 .notEqual (by decide) (by decide) hrest]
  rfl

/-- The tests that the tokenizer knows are read. -/
theorem Reads.clause (h : Reads ending rest tokens) (hrest : Delimited rest) {a : Clause}
    (ha : known a = true) : Reads ending (lowered a++rest) (.atom (clauseLexeme a) :: tokens) := by
  cases a with
  | outbound => exact h.keyword hrest (by decide) (by decide) (by decide)
  | ip => exact h.keyword hrest (by decide) (by decide) (by decide)
  | ipv6 => exact h.keyword hrest (by decide) (by decide) (by decide)
  | destination comparison address => exact h.destination hrest comparison address
  | notLoopbackV6 => exact h.notLoopbackV6 hrest
  | port n => exact h.port hrest n
  | inbound => cases ha
  | source address => cases ha
  | isTcp => cases ha

end Reading

end Verification
end FakeNetNG
