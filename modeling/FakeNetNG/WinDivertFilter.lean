import FakeNetNG.FilterSources

/-!
# What a filter accepts

The meaning of the packet filter language, as far as the diverter's filters go: a filter is a
Boolean combination of tests, and a test on a field whose header a packet does not have is false.
-/

namespace FakeNetNG
namespace WinDivert

open Text BoolFilter ControlFilter

/-- What follows the IP header. A TCP fragment without its header is an `other` of protocol 6. -/
inductive Payload
  | tcp (sourcePort : BitVec 16)
  | other (protocol : BitVec 8)
  deriving DecidableEq

def Payload.protocol : Payload → ℕ
  | .tcp _ => 6
  | .other protocol => protocol.toNat

inductive Network
  | v4 (source destination : BitVec 32) (payload : Payload)
  | v6 (destination : BitVec 128) (payload : Payload)
  deriving DecidableEq

def Network.payload : Network → Payload
  | .v4 _ _ payload => payload
  | .v6 _ payload => payload

structure Packet where
  outbound : Bool
  network : Network
  deriving DecidableEq

inductive Field
  | ipSrcAddr
  | ipDstAddr
  | ipProtocol
  | ipv6DstAddr
  | tcpSrcPort
  deriving DecidableEq

/-- A field of a packet that has its header. -/
def Field.value (p : Packet) : Field → Option ℕ
  | .ipSrcAddr =>
      match p.network with
      | .v4 source _ _ => some source.toNat
      | .v6 _ _ => none
  | .ipDstAddr =>
      match p.network with
      | .v4 _ destination _ => some destination.toNat
      | .v6 _ _ => none
  | .ipProtocol =>
      match p.network with
      | .v4 _ _ payload => some payload.protocol
      | .v6 _ _ => none
  | .ipv6DstAddr =>
      match p.network with
      | .v4 _ _ _ => none
      | .v6 destination _ => some destination.toNat
  | .tcpSrcPort =>
      match p.network.payload with
      | .tcp sourcePort => some sourcePort.toNat
      | .other _ => none

inductive Test
  | outbound
  | inbound
  | ip
  | ipv6
  | compare (field : Field) (comparison : Comparison) (value : ℕ)
  deriving DecidableEq

def Test.holds (p : Packet) : Test → Bool
  | .outbound => p.outbound
  | .inbound => !p.outbound
  | .ip =>
      match p.network with
      | .v4 _ _ _ => true
      | .v6 _ _ => false
  | .ipv6 =>
      match p.network with
      | .v4 _ _ _ => false
      | .v6 _ _ => true
  | .compare field comparison value =>
      match field.value p with
      | none => false
      | some actual => comparison.compare actual value

def flush (word : Text) : List Text := if word = [] then [] else [word]

/-- The words of a text after the beginning of a word: spaces part them, and a parenthesis is one. -/
@[grind] def wordsFrom (word : Text) : Text → List Text
  | [] => flush word
  | c :: rest =>
      if c = ' ' then flush word++wordsFrom [] rest
      else if c = '(' ∨ c = ')' then flush word++[c] :: wordsFrom [] rest
      else wordsFrom (word++[c]) rest

/-- The words that are tokens by themselves. -/
def keyword (word : Text) : Option (Token Test) :=
  if word = "(".toList then some .opening
  else if word = ")".toList then some .closing
  else if word = "and".toList then some .and
  else if word = "or".toList then some .or
  else if word = "not".toList then some .not
  else if word = "outbound".toList then some (.atom .outbound)
  else if word = "inbound".toList then some (.atom .inbound)
  else if word = "ip".toList then some (.atom .ip)
  else if word = "ipv6".toList then some (.atom .ipv6)
  else none

def readField (word : Text) : Option Field :=
  if word = "ip.SrcAddr".toList then some .ipSrcAddr
  else if word = "ip.DstAddr".toList then some .ipDstAddr
  else if word = "ip.Protocol".toList then some .ipProtocol
  else if word = "ipv6.DstAddr".toList then some .ipv6DstAddr
  else if word = "tcp.SrcPort".toList then some .tcpSrcPort
  else none

def readComparison (word : Text) : Option Comparison :=
  if word = "==".toList then some .equal
  else if word = "!=".toList then some .notEqual
  else if word = "<".toList then some .less
  else if word = "<=".toList then some .lessEqual
  else if word = ">".toList then some .greater
  else if word = ">=".toList then some .greaterEqual
  else none

def readNumber (word : Text) : Option ℕ := if isDecimal word then some (readDecimal word) else none

def readValue (word : Text) : Field → Option ℕ
  | .ipSrcAddr => (IpAddress.readV4 word).map BitVec.toNat
  | .ipDstAddr => (IpAddress.readV4 word).map BitVec.toNat
  | .ipProtocol => readNumber word
  | .ipv6DstAddr => (IpAddress.readV6 word).map BitVec.toNat
  | .tcpSrcPort => readNumber word

def readTest (field comparison value : Text) : Option Test := do
  let field ← readField field
  return .compare field (← readComparison comparison) (← readValue value field)

/-- A test of a field takes three words. -/
def readWords : List Text → Option (List (Token Test))
  | [] => some []
  | word :: rest =>
      match keyword word with
      | some token => (readWords rest).map (token :: ·)
      | none =>
          match rest with
          | comparison :: value :: rest => do
              let test ← readTest word comparison value
              return .atom test :: (← readWords rest)
          | _ => none

def compile (filter : Text) : Option (Ast Test) := do
  let tokens ← readWords (wordsFrom [] filter)
  match parse (fun test => (.ok (.var test) : Except Unit _)) tokens with
  | .ok node => some node
  | .error _ => none

/-- Whether a filter accepts a packet, when it is a filter. -/
def accepts (filter : Text) (p : Packet) : Option Bool :=
  (compile filter).map (Ast.eval (Test.holds p))

/-- A text that stays in one word. -/
def Plain (word : Text) : Prop := ∀ c ∈ word, c ≠ ' ' ∧ c ≠ '(' ∧ c ≠ ')'

instance (word : Text) : Decidable (Plain word) :=
  inferInstanceAs (Decidable (∀ c ∈ word, _))

theorem wordsFrom_append {start word rest : Text} (h : Plain word) :
    wordsFrom start (word++rest) = wordsFrom (start++word) rest := by
  induction word generalizing start with
  | nil => rw [List.nil_append,List.append_nil]
  | cons c word ih =>
    obtain ⟨hspace,hopening,hclosing⟩ := h c List.mem_cons_self
    have hrest : wordsFrom (start++[c]) (word++rest) = wordsFrom (start++[c]++word) rest :=
      ih fun d hd => h d (List.mem_cons_of_mem _ hd)
    rw [List.cons_append,wordsFrom,if_neg hspace,if_neg (not_or.mpr ⟨hopening,hclosing⟩),hrest,
      List.append_assoc,List.singleton_append]

theorem wordsFrom_of_delimited {word rest : Text} (hword : word ≠ []) (h : Delimited rest) :
    wordsFrom word rest = word :: wordsFrom [] rest := by
  have hflush : flush word = [word] := if_neg hword
  cases rest with
  | nil => exact hflush
  | cons c rest =>
    simp only [Delimited,List.head?_cons,reduceCtorEq,Option.some.injEq,false_or] at h
    rcases h with rfl | rfl
    · rw [wordsFrom,if_pos rfl,hflush,wordsFrom,if_pos rfl]
      rfl
    · rw [wordsFrom,if_neg (by decide),if_pos (by decide),hflush,wordsFrom,if_neg (by decide),
        if_pos (by decide)]
      rfl

theorem words_append {word rest : Text} (hplain : Plain word) (hne : word ≠ [])
    (hrest : Delimited rest) : wordsFrom [] (word++rest) = word :: wordsFrom [] rest := by
  rw [wordsFrom_append hplain,List.nil_append,wordsFrom_of_delimited hne hrest]

theorem words_space (rest : Text) : wordsFrom [] (' ' :: rest) = wordsFrom [] rest := by
  rw [wordsFrom,if_pos rfl]
  rfl

theorem readWords_keyword {word : Text} {token : Token Test} (h : keyword word = some token)
    (rest : List Text) : readWords (word :: rest) = (readWords rest).map (token :: ·) := by
  rw [readWords.eq_def]
  simp only [h]

theorem readWords_test {field comparison value : Text} {test : Test} (hfield : keyword field = none)
    (h : readTest field comparison value = some test) (rest : List Text) :
    readWords (field :: comparison :: value :: rest) = (readWords rest).map (.atom test :: ·) := by
  rw [readWords,hfield]
  simp only [h]
  cases readWords rest <;> rfl

/-- A text is read as tokens. -/
def Reads (rest : Text) (tokens : List (Token Test)) : Prop :=
  readWords (wordsFrom [] rest) = some tokens

theorem Reads.keyword {word rest : Text} {token : Token Test} {tokens : List (Token Test)}
    (h : Reads rest tokens) (hplain : Plain word) (hne : word ≠ []) (hrest : Delimited rest)
    (hkeyword : WinDivert.keyword word = some token) : Reads (word++rest) (token :: tokens) := by
  rw [Reads,words_append hplain hne hrest,readWords_keyword hkeyword,h]
  rfl

theorem Reads.space {rest : Text} {tokens : List (Token Test)} (h : Reads rest tokens) :
    Reads (' ' :: rest) tokens := by
  rw [Reads,words_space]
  exact h

theorem delimited_space (rest : Text) : Delimited (' ' :: rest) := Or.inr (Or.inl rfl)

theorem reading : Reading Reads where
  opening := fun {rest tokens} h => by
    have hwords : wordsFrom [] ('(' :: rest) = "(".toList :: wordsFrom [] rest := by
      rw [wordsFrom,if_neg (by decide),if_pos (by decide)]
      rfl
    rw [Reads,hwords,readWords_keyword (by decide : _ = some .opening),h]
    rfl
  closing := fun {rest tokens} h => by
    have hwords : wordsFrom [] (')' :: rest) = ")".toList :: wordsFrom [] rest := by
      rw [wordsFrom,if_neg (by decide),if_pos (by decide)]
      rfl
    rw [Reads,hwords,readWords_keyword (by decide : _ = some .closing),h]
    rfl
  and := fun {rest tokens} h => by
    have hliteral : " and ".toList = ' ' :: ("and".toList++[' ']) := by decide
    rw [hliteral,List.cons_append,List.append_assoc]
    exact (h.space.keyword (by decide) (by decide) (delimited_space rest)
      (by decide)).space
  or := fun {rest tokens} h => by
    have hliteral : " or ".toList = ' ' :: ("or".toList++[' ']) := by decide
    rw [hliteral,List.cons_append,List.append_assoc]
    exact (h.space.keyword (by decide) (by decide) (delimited_space rest)
      (by decide)).space
  not := fun {rest tokens} h => by
    have hliteral : "not ".toList = "not".toList++[' '] := by decide
    rw [hliteral,List.append_assoc]
    exact h.space.keyword (by decide) (by decide) (delimited_space rest)
      (by decide)

theorem Reads.test {field comparison value rest : Text} {test : Test} {tokens : List (Token Test)}
    (h : Reads rest tokens) (hrest : Delimited rest)
    (hplain : Plain field ∧ Plain comparison ∧ Plain value)
    (hne : field ≠ [] ∧ comparison ≠ [] ∧ value ≠ []) (hfield : WinDivert.keyword field = none)
    (htest : readTest field comparison value = some test) :
    Reads (field++ ' ' :: comparison++ ' ' :: value++rest) (.atom test :: tokens) := by
  have hwords : wordsFrom [] (field++ ' ' :: comparison++ ' ' :: value++rest) =
      field :: comparison :: value :: wordsFrom [] rest := by
    rw [List.append_assoc,List.append_assoc,List.cons_append,List.cons_append,
      words_append hplain.1 hne.1 (delimited_space _),words_space,
      words_append hplain.2.1 hne.2.1 (delimited_space _),words_space,
      words_append hplain.2.2 hne.2.2 hrest]
  rw [Reads,hwords,readWords_test hfield htest,h]
  rfl

/-- The test that the text of a clause is. -/
def clauseTest : Clause → Test
  | .outbound => .outbound
  | .inbound => .inbound
  | .ip => .ip
  | .ipv6 => .ipv6
  | .destination comparison address => .compare .ipDstAddr comparison address.toNat
  | .source address => .compare .ipSrcAddr .equal address.toNat
  | .isTcp => .compare .ipProtocol .equal 6
  | .notLoopbackV6 => .compare .ipv6DstAddr .notEqual 1
  | .port n => .compare .tcpSrcPort .notEqual n

theorem plain_of_isDigit {word : Text} (h : ∀ c ∈ word, c.isDigit = true ∨ c = '.') : Plain word := by
  intro c hc
  rcases h c hc with h | rfl
  · refine ⟨?_,?_,?_⟩
    all_goals
      rintro rfl
      revert h
      decide
  · decide

theorem plain_dotted (bits : BitVec 32) : Plain (IpAddress.dotted bits) :=
  plain_of_isDigit fun _ => IpAddress.mem_dotted

theorem plain_decimal (n : ℕ) : Plain (decimal n) :=
  plain_of_isDigit fun _ hc => Or.inl (isDigit_of_mem_decimal hc)

theorem plain_comparison (comparison : Comparison) : Plain comparison.text := by
  cases comparison <;> decide

theorem readComparison_text (comparison : Comparison) :
    readComparison comparison.text = some comparison := by
  cases comparison <;> decide

theorem readNumber_decimal (n : ℕ) : readNumber (decimal n) = some n := by
  rw [readNumber,if_pos (isDecimal_decimal n),readDecimal_decimal]

theorem readTest_eq {field comparison value : Text} {f : Field} {c : Comparison} {v : ℕ}
    (hfield : readField field = some f) (hcomparison : readComparison comparison = some c)
    (hvalue : readValue value f = some v) :
    readTest field comparison value = some (.compare f c v) := by
  simp only [readTest,hfield,hcomparison,hvalue,Option.bind_eq_bind,Option.bind_some]
  rfl

/-- Every clause is read as its test. -/
theorem reads_clause (a : Clause) (rest : Text) (tokens : List (Token Test)) (hrest : Delimited rest)
    (h : Reads rest tokens) : Reads (a.text++rest) (.atom (clauseTest a) :: tokens) := by
  cases a with
  | outbound => exact h.keyword (by decide) (by decide) hrest (by decide)
  | inbound => exact h.keyword (by decide) (by decide) hrest (by decide)
  | ip => exact h.keyword (by decide) (by decide) hrest (by decide)
  | ipv6 => exact h.keyword (by decide) (by decide) hrest (by decide)
  | destination comparison address =>
    have hvalue : readValue (IpAddress.dotted address) .ipDstAddr = some address.toNat := by
      rw [readValue,IpAddress.readV4_dotted]
      rfl
    exact h.test hrest ⟨by decide,plain_comparison _,plain_dotted _⟩
      ⟨by decide,comparison.text_ne_nil,IpAddress.dotted_ne_nil _⟩ (by decide)
      (readTest_eq (by decide) (readComparison_text _) hvalue)
  | source address =>
    have hvalue : readValue (IpAddress.dotted address) .ipSrcAddr = some address.toNat := by
      rw [readValue,IpAddress.readV4_dotted]
      rfl
    exact h.test hrest ⟨by decide,by decide,plain_dotted _⟩
      ⟨by decide,by decide,IpAddress.dotted_ne_nil _⟩ (by decide)
      (readTest_eq (by decide) (by decide) hvalue)
  | isTcp =>
    exact h.test hrest ⟨by decide,by decide,by decide⟩
      ⟨by decide,by decide,by decide⟩ (by decide) (by decide)
  | notLoopbackV6 =>
    exact h.test hrest ⟨by decide,by decide,by decide⟩
      ⟨by decide,by decide,by decide⟩ (by decide) (by decide)
  | port n =>
    exact h.test hrest ⟨by decide,by decide,plain_decimal _⟩
      ⟨by decide,by decide,decimal_ne_nil _⟩ (by decide)
      (readTest_eq (by decide) (by decide) (readNumber_decimal n))

/-- A written filter accepts what its tests say. -/
theorem accepts_print (s : Source Clause .disjunction) (p : Packet) :
    accepts (s.print Clause.text) p = some (s.holds fun a => (clauseTest a).holds p) := by
  have hreads : Reads (s.print Clause.text) (s.tokens clauseTest) := by
    have happend := reading.print (fun a _ => reads_clause a) (s := s) (Or.inl rfl)
      (show Reads [] [] from rfl)
    rw [List.append_nil,List.append_nil] at happend
    exact happend
  have hcompile : compile (s.print Clause.text) = some (s.ast fun a => .var (clauseTest a)) := by
    have hparse : parse (fun test => (.ok (.var test) : Except Unit _)) (s.tokens clauseTest) =
        .ok (s.ast fun a => .var (clauseTest a)) := Source.parse_tokens s fun a _ => rfl
    rw [compile,show readWords (wordsFrom [] (s.print Clause.text)) = _ from hreads]
    simp only [Option.bind_eq_bind,Option.bind_some,hparse]
  rw [accepts,hcompile,Option.map_some,Source.eval_ast]
  rfl

end WinDivert
end FakeNetNG
