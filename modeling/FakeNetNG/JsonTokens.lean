import FakeNetNG.JsonText

/-!
# JSON tokens

A string of Python may hold a surrogate without its other half. Its JSON texts are written and read
here token by token, and the way the characters of a string are escaped is a parameter of the writer:
the reader gives the tokens back whatever it is, as long as each escape reads as its character.
-/

namespace FakeNetNG
namespace JsonTokens

open Json

/-- A code point: a character or half of a surrogate pair. -/
inductive PyChar
  | scalar (c : Char)
  | surrogate (n : Fin 2048)
  deriving DecidableEq

abbrev PyText := List PyChar

instance (priority := high) PyText.lawfulBEq : LawfulBEq PyText := inferInstance

/-- A text in which nothing is a surrogate. -/
def ofText (text : Text) : PyText := text.map .scalar

/-- `chr(n)`. -/
def chr (n : ℕ) : PyChar :=
  if h : 0xd800 ≤ n ∧ n < 0xe000 then .surrogate ⟨n-0xd800,by omega⟩ else .scalar (Char.ofNat n)

/-- The values that are one word. -/
inductive Literal
  | null
  | bool (b : Bool)
  | int (n : ℤ)
  | float (f : FloatText)
  deriving DecidableEq

inductive Value
  | lit (l : Literal)
  | str (s : PyText)
  | arr (items : List Value)
  | obj (members : List (PyText × Value))

inductive Punct
  | openArr | closeArr | openObj | closeObj | comma | colon
  deriving DecidableEq

inductive Token
  | punct (p : Punct)
  | str (s : PyText)
  | lit (l : Literal)
  deriving DecidableEq

def Punct.char : Punct → Char
  | openArr => '['
  | closeArr => ']'
  | openObj => '\x7b'
  | closeObj => '\x7d'
  | comma => ','
  | colon => ':'

mutual

@[grind] def tokens : Value → List Token
  | .lit l => [.lit l]
  | .str s => [.str s]
  | .arr [] => [.punct .openArr,.punct .closeArr]
  | .arr (v :: items) => .punct .openArr :: tokens v++itemTokens items
  | .obj [] => [.punct .openObj,.punct .closeObj]
  | .obj ((name,v) :: members) =>
    .punct .openObj :: .str name :: .punct .colon :: tokens v++memberTokens members

/-- The items after the first, and the end of the array. -/
def itemTokens : List Value → List Token
  | [] => [.punct .closeArr]
  | v :: items => .punct .comma :: tokens v++itemTokens items

def memberTokens : List (PyText × Value) → List Token
  | [] => [.punct .closeObj]
  | (name,v) :: members => .punct .comma :: .str name :: .punct .colon :: tokens v++memberTokens members

end

def Literal.text : Literal → Text
  | null => "null".toList
  | bool true => "true".toList
  | bool false => "false".toList
  | int n => writeInt n
  | float f => f.text

/-- The escapes that `json.dumps` needs with `ensure_ascii=False`. -/
def escape : PyChar → PyText
  | .scalar c => ofText (escapeChar c)
  | .surrogate n => [.surrogate n]

def Token.text (esc : PyChar → PyText) : Token → PyText
  | punct p => [.scalar p.char]
  | str s => .scalar quote :: s.flatMap esc++[.scalar quote]
  | lit l => ofText l.text

def render (esc : PyChar → PyText) (ts : List Token) : PyText := ts.flatMap (Token.text esc)

/-- `json.dumps` with the separators `,` and `:`. -/
def write (v : Value) : PyText := render escape (tokens v)

def hexValue? : PyChar → Option ℕ
  | .scalar c => hexValue c
  | .surrogate _ => none

def readHex : PyText → Option (ℕ × PyText)
  | a :: b :: c :: d :: rest =>
    match hexValue? a,hexValue? b,hexValue? c,hexValue? d with
    | some a,some b,some c,some d => some (a*4096+b*256+c*16+d,rest)
    | _,_,_,_ => none
  | _ => none

/-- The second half of a surrogate pair. -/
def readLow : PyText → Option (ℕ × PyText)
  | b :: u :: rest =>
    if b = .scalar backslash ∧ u = .scalar 'u' then readHex rest else none
  | _ => none

/-- The character after `\u`, which takes the other half of a pair with it. -/
def readUnicode (text : PyText) : Option (PyChar × PyText) :=
  match readHex text with
  | none => none
  | some (high,rest) =>
    if 0xd800 ≤ high ∧ high < 0xdc00 ∧ [.scalar backslash,.scalar 'u'] <+: rest then
      match readLow rest with
      | none => none
      | some (low,rest') =>
        if 0xdc00 ≤ low ∧ low < 0xe000 then
          some (chr (0x10000+(high-0xd800)*0x400+(low-0xdc00)),rest')
        else some (chr high,rest)
    else some (chr high,rest)

def readEscape : PyText → Option (PyChar × PyText)
  | .scalar c :: rest =>
    if c = 'u' then readUnicode rest
    else if c = '/' then some (.scalar '/',rest)
    else (escapeLetters.find? fun e => e.2 = c).map fun e => (.scalar e.1,rest)
  | _ => none

def isControl : PyChar → Bool
  | .scalar c => c.toNat < 32
  | .surrogate _ => false

/-- The characters up to the closing quote. -/
@[grind] def readChars : ℕ → PyText → Option (PyText × PyText)
  | 0,_ => none
  | _,[] => none
  | fuel+1,c :: rest =>
    if c = .scalar quote then some ([],rest)
    else if c = .scalar backslash then
      (readEscape rest).bind fun e => (readChars fuel e.2).map fun r => (e.1 :: r.1,r.2)
    else if isControl c then none
    else (readChars fuel rest).map fun r => (c :: r.1,r.2)

def isLiteralChar : PyChar → Bool
  | .scalar c => c.isAlphanum || isNumberChar c
  | .surrogate _ => false

def toText : PyText → Text
  | [] => []
  | .scalar c :: rest => c :: toText rest
  | .surrogate _ :: rest => toText rest

def readLiteral (text : Text) : Option Literal :=
  if text = "null".toList then some .null
  else if text = "true".toList then some (.bool true)
  else if text = "false".toList then some (.bool false)
  else
    match readInt text with
    | some n => some (.int n)
    | none => if h : isFloatText text = true then some (.float ⟨text,h⟩) else none

def readPunct (c : PyChar) : Option Punct :=
  [Punct.openArr,.closeArr,.openObj,.closeObj,.comma,.colon].find? fun p => .scalar p.char = c

/-- The longest token first. -/
@[grind] def lex : ℕ → PyText → Option (List Token)
  | _,[] => some []
  | 0,_ => none
  | fuel+1,c :: rest =>
    if c = .scalar quote then
      (readChars (rest.length+1) rest).bind fun r => (lex fuel r.2).map (.str r.1 :: ·)
    else
      match readPunct c with
      | some p => (lex fuel rest).map (.punct p :: ·)
      | none =>
        if c ∈ ofText [' ','\t','\n','\r'] then lex fuel rest
        else
          (readLiteral (toText ((c :: rest).takeWhile isLiteralChar))).bind fun l =>
            (lex fuel ((c :: rest).dropWhile isLiteralChar)).map (.lit l :: ·)

mutual

def parseValue : ℕ → List Token → Option (Value × List Token)
  | 0,_ => none
  | _,.lit l :: rest => some (.lit l,rest)
  | _,.str s :: rest => some (.str s,rest)
  | _,.punct .openArr :: .punct .closeArr :: rest => some (.arr [],rest)
  | fuel+1,.punct .openArr :: rest =>
    (parseValue fuel rest).bind fun v => (parseItems fuel v.2).map fun r => (.arr (v.1 :: r.1),r.2)
  | _,.punct .openObj :: .punct .closeObj :: rest => some (.obj [],rest)
  | fuel+1,.punct .openObj :: .str name :: .punct .colon :: rest =>
    (parseValue fuel rest).bind fun v =>
      (parseMembers fuel v.2).map fun r => (.obj ((name,v.1) :: r.1),r.2)
  | _,_ => none

/-- The items after the first. -/
def parseItems : ℕ → List Token → Option (List Value × List Token)
  | 0,_ => none
  | _,.punct .closeArr :: rest => some ([],rest)
  | fuel+1,.punct .comma :: rest =>
    (parseValue fuel rest).bind fun v => (parseItems fuel v.2).map fun r => (v.1 :: r.1,r.2)
  | _,_ => none

def parseMembers : ℕ → List Token → Option (List (PyText × Value) × List Token)
  | 0,_ => none
  | _,.punct .closeObj :: rest => some ([],rest)
  | fuel+1,.punct .comma :: .str name :: .punct .colon :: rest =>
    (parseValue fuel rest).bind fun v => (parseMembers fuel v.2).map fun r => ((name,v.1) :: r.1,r.2)
  | _,_ => none

end

def parse (ts : List Token) : Option Value :=
  match parseValue (ts.length+1) ts with
  | some (v,[]) => some v
  | _ => none

/-- `json.loads`. -/
def loads (text : PyText) : Option Value := (lex (text.length+1) text).bind parse

/-- Each character is read back from its escape. -/
structure Reads (esc : PyChar → PyText) : Prop where
  char : ∀ c fuel rest, readChars (fuel+1) (esc c++rest) = (readChars fuel rest).map fun r => (c :: r.1,r.2)
  ne_nil : ∀ c, esc c ≠ []

variable {esc : PyChar → PyText}

theorem readChars_flatMap (hesc : Reads esc) (s rest : PyText) {fuel : ℕ} (hfuel : s.length < fuel) :
    readChars fuel (s.flatMap esc++.scalar quote :: rest) = some (s,rest) := by
  induction s generalizing fuel with
  | nil =>
    obtain ⟨fuel,rfl⟩ : ∃ n, fuel = n+1 := ⟨fuel-1,by simp at hfuel; omega⟩
    simp [readChars]
  | cons c s ih =>
    obtain ⟨fuel,rfl⟩ : ∃ n, fuel = n+1 := ⟨fuel-1,by simp at hfuel; omega⟩
    rw [List.flatMap_cons,List.append_assoc,hesc.char,ih (by simpa using hfuel)]
    rfl

theorem length_le_flatMap (hesc : Reads esc) (s : PyText) : s.length ≤ (s.flatMap esc).length := by
  induction s with
  | nil => simp
  | cons c s ih =>
    have hc := List.length_pos_iff.mpr (hesc.ne_nil c)
    rw [List.flatMap_cons,List.length_append,List.length_cons]
    omega

theorem readEscape_letter {e : Char × Char} (he : e ∈ escapeLetters) (rest : PyText) :
    readEscape (.scalar e.2 :: rest) = some (.scalar e.1,rest) := by
  obtain ⟨hu,hslash,hfind⟩ := escapeLetters_letter e he
  obtain ⟨e',he',heq⟩ := Option.map_eq_some_iff.mp hfind
  simp [readEscape,hu,hslash,he',heq]

theorem chr_toNat (c : Char) : chr c.toNat = .scalar c := by
  have hvalid : c.toNat < 0xd800 ∨ 0xdfff < c.toNat ∧ c.toNat < 0x110000 := c.valid
  unfold chr
  rw [dif_neg (by omega),Char.ofNat_toNat]

/-- Four digits for a character below the surrogates. -/
def hexText (c : Char) : Text :=
  [hexDigit (c.toNat/4096),hexDigit (c.toNat/256%16),hexDigit (c.toNat/16%16),hexDigit (c.toNat%16)]

theorem readEscape_hex {c : Char} (hc : c.toNat < 0xd800) (rest : PyText) :
    readEscape (ofText ('u' :: hexText c)++rest) = some (.scalar c,rest) := by
  have h₁ := hexValue_hexDigit (c.toNat/4096) (by omega)
  have h₂ := hexValue_hexDigit (c.toNat/256%16) (by omega)
  have h₃ := hexValue_hexDigit (c.toNat/16%16) (by omega)
  have h₄ := hexValue_hexDigit (c.toNat%16) (by omega)
  have hvalue : c.toNat/4096*4096+c.toNat/256%16*256+c.toNat/16%16*16+c.toNat%16 = c.toNat := by omega
  have hlow : ¬(0xd800 ≤ c.toNat ∧ c.toNat < 0xdc00 ∧ [.scalar backslash,.scalar 'u'] <+: rest) := by omega
  simp only [ofText,hexText,List.map_cons,List.map_nil,List.cons_append,List.nil_append,readEscape,if_true,
    readUnicode,readHex,hexValue?,h₁,h₂,h₃,h₄,hvalue,if_neg hlow,chr_toNat]

theorem readChars_escaped {c : PyChar} (text : PyText) (fuel : ℕ) {rest : PyText}
    (h : readEscape (text++rest) = some (c,rest)) :
    readChars (fuel+1) (.scalar backslash :: text++rest) = (readChars fuel rest).map fun r => (c :: r.1,r.2) := by
  have hquote : PyChar.scalar backslash ≠ .scalar quote := by decide
  rw [List.cons_append,readChars,if_neg hquote,if_pos rfl,h]
  rfl

theorem escapeChar_cases (c : Char) : (∃ e ∈ escapeLetters, e.1 = c ∧ escapeChar c = [backslash,e.2]) ∨
    (c.toNat < 32 ∧ escapeChar c = backslash :: 'u' :: hexText c) ∨
    (32 ≤ c.toNat ∧ c ≠ quote ∧ c ≠ backslash ∧ escapeChar c = [c]) := by
  unfold escapeChar
  cases hfind : escapeLetters.find? fun e => e.1 = c with
  | some e => exact .inl ⟨e,List.mem_of_find?_eq_some hfind,by simpa using List.find?_some hfind,rfl⟩
  | none =>
    have hnone := List.find?_eq_none.mp hfind
    have hquote : c ≠ quote := fun h => hnone (quote,quote) (by simp [escapeLetters]) (by simp [h])
    have hbackslash : c ≠ backslash := fun h =>
      hnone (backslash,backslash) (by simp [escapeLetters]) (by simp [h])
    by_cases hcontrol : c.toNat < 32
    · have h₁ : c.toNat/4096 = 0 := by omega
      have h₂ : c.toNat/256%16 = 0 := by omega
      have h₃ : c.toNat/16%16 = c.toNat/16 := by omega
      have hzero : hexDigit 0 = '0' := by decide
      exact .inr (.inl ⟨hcontrol,by rw [if_pos hcontrol,hexText,h₁,h₂,h₃,hzero]⟩)
    · exact .inr (.inr ⟨not_lt.mp hcontrol,hquote,hbackslash,if_neg hcontrol⟩)

theorem readChars_plain {c : PyChar} (hquote : c ≠ .scalar quote) (hbackslash : c ≠ .scalar backslash)
    (hcontrol : isControl c = false) (fuel : ℕ) (rest : PyText) :
    readChars (fuel+1) (c :: rest) = (readChars fuel rest).map fun r => (c :: r.1,r.2) := by
  rw [readChars,if_neg hquote,if_neg hbackslash,hcontrol]
  rfl

theorem reads_escape : Reads escape := by
  refine ⟨fun c fuel rest => ?_,fun c => ?_⟩
  · cases c with
    | surrogate n => exact readChars_plain (by simp) (by simp) rfl fuel rest
    | scalar c =>
      rw [escape]
      obtain ⟨e,he,rfl,hescape⟩ | ⟨hcontrol,hescape⟩ | ⟨hplain,hquote,hbackslash,hescape⟩ := escapeChar_cases c
      · rw [hescape]
        exact readChars_escaped [.scalar e.2] fuel (readEscape_letter he rest)
      · rw [hescape]
        exact readChars_escaped (ofText ('u' :: hexText c)) fuel (readEscape_hex (by omega) rest)
      · rw [hescape]
        refine readChars_plain (by simpa using hquote) (by simpa using hbackslash) ?_ fuel rest
        simpa [isControl] using hplain
  · cases c with
    | surrogate n => simp [escape]
    | scalar c => simpa [escape,ofText] using escapeChar_ne_nil c

theorem toText_ofText (text : Text) : toText (ofText text) = text := by
  induction text with
  | nil => rfl
  | cons c text ih => exact congrArg (c :: ·) ih

theorem readLiteral_text (l : Literal) : readLiteral l.text = some l := by
  cases l with
  | null => rfl
  | bool b =>
    cases b
    · rfl
    · rfl
  | int n =>
    have hword : ∀ word : Text, readInt word = none → writeInt n ≠ word := by
      rintro word hword rfl
      rw [readInt_write] at hword
      cases hword
    rw [Literal.text,readLiteral,if_neg (hword _ (by decide)),if_neg (hword _ (by decide)),
      if_neg (hword _ (by decide)),readInt_write]
  | float f =>
    have hword : ∀ word : Text, isFloatText word = false → f.text ≠ word := by
      rintro word hword rfl
      rw [f.valid] at hword
      cases hword
    have hint : readInt f.text = none := by
      have hvalid := f.valid
      simp only [isFloatText,Bool.or_eq_true,Bool.and_eq_true] at hvalid
      obtain hfloat | ⟨-,hfloat⟩ := hvalid
      · simp only [floatWords,List.contains_cons,List.contains_nil,Bool.or_false,Bool.or_eq_true,beq_iff_eq] at hfloat
        obtain h | h | h := hfloat <;>
        · rw [h]
          decide
      · exact (isFloat_spec hfloat).2
    rw [Literal.text,readLiteral,if_neg (hword _ (by decide)),if_neg (hword _ (by decide)),
      if_neg (hword _ (by decide)),hint]
    simp [f.valid]

theorem literal_text (l : Literal) : l.text ≠ [] ∧ ∀ c ∈ l.text, isLiteralChar (.scalar c) = true := by
  have hnumber : ∀ {c : Char}, isNumberChar c = true → isLiteralChar (.scalar c) = true := fun h => by
    simp [isLiteralChar,h]
  cases l with
  | null => exact ⟨by decide,by decide⟩
  | bool b =>
    cases b
    · exact ⟨by decide,by decide⟩
    · exact ⟨by decide,by decide⟩
  | int n =>
    obtain ⟨d,rest,-,hstart⟩ := startsNumber_writeInt n
    refine ⟨by rcases hstart with h | h <;> simp [Literal.text,h],fun c hc => hnumber ?_⟩
    exact List.all_eq_true.mp (writeInt_isNumberChar n) c hc
  | float f =>
    have hvalid := f.valid
    simp only [isFloatText,Bool.or_eq_true,Bool.and_eq_true] at hvalid
    rw [Literal.text]
    obtain hword | ⟨hchars,hfloat⟩ := hvalid
    · simp only [floatWords,List.contains_cons,List.contains_nil,Bool.or_false,Bool.or_eq_true,beq_iff_eq] at hword
      obtain h | h | h := hword <;>
      · rw [h]
        exact ⟨by decide,by decide⟩
    · obtain ⟨d,rest,-,hstart⟩ := (isFloat_spec hfloat).1
      exact ⟨by rcases hstart with h | h <;> simp [h],fun c hc => hnumber (List.all_eq_true.mp hchars c hc)⟩

def Token.isLit : Token → Bool
  | lit _ => true
  | _ => false

/-- Two literals next to each other would run together. -/
def Separated (ts : List Token) : Prop := ts.IsChain fun a b => a.isLit = false ∨ b.isLit = false

theorem readPunct_char (p : Punct) : readPunct (.scalar p.char) = some p := by
  cases p <;> decide

theorem punct_ne_quote (p : Punct) : PyChar.scalar p.char ≠ .scalar quote := by
  cases p <;> decide

theorem isLiteralChar_punct (p : Punct) : isLiteralChar (.scalar p.char) = false := by
  cases p <;> decide

theorem literal_head {c : PyChar} (h : isLiteralChar c = true) :
    c ≠ .scalar quote ∧ readPunct c = none ∧ c ∉ ofText [' ','\t','\n','\r'] := by
  have hne : ∀ d : PyChar, isLiteralChar d = false → c ≠ d := by
    rintro d hd rfl
    rw [h] at hd
    cases hd
  refine ⟨hne _ (by decide),?_,fun hmem => ?_⟩
  · rw [readPunct,List.find?_eq_none]
    intro p _ hp
    exact hne _ (isLiteralChar_punct p) (of_decide_eq_true hp).symm
  · have hspace : ∀ d ∈ ofText [' ','\t','\n','\r'], isLiteralChar d = false := by decide
    exact hne c (hspace c hmem) rfl

theorem render_stops (esc : PyChar → PyText) {ts : List Token} (h : ∀ t ∈ ts.head?, t.isLit = false) :
    ∀ c ∈ (render esc ts).head?, isLiteralChar c = false := by
  cases ts with
  | nil => simp [render]
  | cons t ts =>
    have ht := h t rfl
    intro c hc
    cases t with
    | punct p =>
      obtain rfl : PyChar.scalar p.char = c := by simpa [render,Token.text] using hc
      exact isLiteralChar_punct p
    | str s =>
      obtain rfl : PyChar.scalar quote = c := by simpa [render,Token.text] using hc
      decide
    | lit l => cases ht

theorem span_run {α : Type} {p : α → Bool} {front rest : List α} (hfront : ∀ a ∈ front, p a = true)
    (hrest : ∀ a ∈ rest.head?, p a = false) :
    (front++rest).takeWhile p = front ∧ (front++rest).dropWhile p = rest := by
  rw [List.takeWhile_append_of_pos hfront,List.dropWhile_append_of_pos hfront]
  cases rest with
  | nil => simp
  | cons a rest => simp [hrest a rfl]

/-- The tokens are read back, however the characters of the strings are escaped. -/
theorem lex_render (hesc : Reads esc) (ts : List Token) (hts : Separated ts) {fuel : ℕ} (hfuel : ts.length ≤ fuel) :
    lex fuel (render esc ts) = some ts := by
  induction ts generalizing fuel with
  | nil =>
    rw [render,List.flatMap_nil]
    cases fuel <;> rfl
  | cons t ts ih =>
    obtain ⟨fuel,rfl⟩ : ∃ n, fuel = n+1 := ⟨fuel-1,by simp at hfuel; omega⟩
    have hrest : Separated ts := List.IsChain.tail hts
    have hlex : lex fuel (render esc ts) = some ts := ih hrest (by simpa using hfuel)
    have htext : render esc (t :: ts) = t.text esc++render esc ts := by rw [render,List.flatMap_cons]; rfl
    rw [htext]
    cases t with
    | punct p =>
      rw [Token.text,List.cons_append,List.nil_append,lex,if_neg (punct_ne_quote p),readPunct_char p]
      simp only [hlex,Option.map_some]
    | str s =>
      have hlength := length_le_flatMap hesc s
      have hread : readChars ((s.flatMap esc++.scalar quote :: render esc ts).length+1)
          (s.flatMap esc++.scalar quote :: render esc ts) = some (s,render esc ts) := by
        refine readChars_flatMap hesc s (render esc ts) ?_
        simp only [List.length_append,List.length_cons]
        omega
      have hshape : Token.text esc (.str s)++render esc ts =
          .scalar quote :: (s.flatMap esc++.scalar quote :: render esc ts) := by simp [Token.text]
      rw [hshape,lex,if_pos rfl,hread]
      simp only [Option.bind_some,hlex,Option.map_some]
    | lit l =>
      obtain ⟨hne,hchars⟩ := literal_text l
      have hnext : ∀ t ∈ ts.head?, t.isLit = false := by
        cases ts with
        | nil => simp
        | cons t ts =>
          rintro _ ⟨⟩
          exact (List.isChain_cons_cons.mp hts).1.resolve_left (by simp [Token.isLit])
      have hall : ∀ c ∈ ofText l.text, isLiteralChar c = true := by
        intro c hc
        obtain ⟨d,hd,rfl⟩ := List.mem_map.mp hc
        exact hchars d hd
      obtain ⟨htake,hdrop⟩ := span_run hall (render_stops esc hnext)
      obtain ⟨c,tail,hhead⟩ := List.exists_cons_of_ne_nil (l:=ofText l.text) (by simpa [ofText] using hne)
      obtain ⟨hquote,hpunct,hspace⟩ := literal_head (hall c (by simp [hhead]))
      rw [Token.text]
      rw [hhead,List.cons_append] at htake hdrop ⊢
      rw [lex,if_neg hquote,hpunct]
      dsimp only
      rw [if_neg hspace,htake,hdrop,← hhead,toText_ofText,readLiteral_text]
      simp only [Option.bind_some,hlex,Option.map_some]

theorem separated_cons {t : Token} {ts : List Token} (ht : t.isLit = false) (hts : Separated ts) :
    Separated (t :: ts) := by
  cases ts with
  | nil => exact List.IsChain.singleton _
  | cons t' ts => exact List.isChain_cons_cons.mpr ⟨.inl ht,hts⟩

theorem separated_lit {l : Literal} {ts : List Token} (hnext : ∀ t ∈ ts.head?, t.isLit = false)
    (hts : Separated ts) : Separated (.lit l :: ts) := by
  cases ts with
  | nil => exact List.IsChain.singleton _
  | cons t ts => exact List.isChain_cons_cons.mpr ⟨.inr (hnext t rfl),hts⟩

theorem itemTokens_head (items : List Value) (rest : List Token) :
    ∀ t ∈ (itemTokens items++rest).head?, t.isLit = false := by
  cases items with
  | nil =>
    rw [itemTokens]
    rintro _ ⟨⟩
    rfl
  | cons v items =>
    rw [itemTokens]
    rintro _ ⟨⟩
    rfl

theorem memberTokens_head (members : List (PyText × Value)) (rest : List Token) :
    ∀ t ∈ (memberTokens members++rest).head?, t.isLit = false := by
  cases members with
  | nil =>
    rw [memberTokens]
    rintro _ ⟨⟩
    rfl
  | cons m members =>
    rw [memberTokens]
    rintro _ ⟨⟩
    rfl

mutual

theorem separated_tokens (v : Value) {rest : List Token} (hnext : ∀ t ∈ rest.head?, t.isLit = false)
    (hrest : Separated rest) : Separated (tokens v++rest) := by
  match v with
  | .lit l =>
    rw [tokens]
    exact separated_lit hnext hrest
  | .str s =>
    rw [tokens]
    exact separated_cons rfl hrest
  | .arr [] =>
    rw [tokens]
    exact separated_cons rfl (separated_cons rfl hrest)
  | .arr (v :: items) =>
    rw [tokens,List.append_assoc]
    exact separated_cons rfl (separated_tokens v (itemTokens_head items rest) (separated_itemTokens items hrest))
  | .obj [] =>
    rw [tokens]
    exact separated_cons rfl (separated_cons rfl hrest)
  | .obj ((name,v) :: members) =>
    rw [tokens,List.append_assoc]
    exact separated_cons rfl (separated_cons rfl (separated_cons rfl
      (separated_tokens v (memberTokens_head members rest) (separated_memberTokens members hrest))))

theorem separated_itemTokens (items : List Value) {rest : List Token} (hrest : Separated rest) :
    Separated (itemTokens items++rest) := by
  match items with
  | [] =>
    rw [itemTokens]
    exact separated_cons rfl hrest
  | v :: items =>
    rw [itemTokens,List.append_assoc]
    exact separated_cons rfl (separated_tokens v (itemTokens_head items rest) (separated_itemTokens items hrest))

theorem separated_memberTokens (members : List (PyText × Value)) {rest : List Token} (hrest : Separated rest) :
    Separated (memberTokens members++rest) := by
  match members with
  | [] =>
    rw [memberTokens]
    exact separated_cons rfl hrest
  | (name,v) :: members =>
    rw [memberTokens,List.append_assoc]
    exact separated_cons rfl (separated_cons rfl (separated_cons rfl
      (separated_tokens v (memberTokens_head members rest) (separated_memberTokens members hrest))))

end

theorem tokens_head (v : Value) : ∃ t rest, tokens v = t :: rest ∧ t ≠ .punct .closeArr := by
  cases v with
  | lit l => exact ⟨_,_,by rw [tokens],by simp⟩
  | str s => exact ⟨_,_,by rw [tokens],by simp⟩
  | arr items =>
    cases items with
    | nil => exact ⟨_,_,by rw [tokens],by simp⟩
    | cons v items => exact ⟨_,_,by rw [tokens]; rfl,by simp⟩
  | obj members =>
    cases members with
    | nil => exact ⟨_,_,by rw [tokens],by simp⟩
    | cons m members => exact ⟨_,_,by rw [tokens]; rfl,by simp⟩

theorem parseValue_arr {fuel : ℕ} {t : Token} {rest : List Token} (ht : t ≠ .punct .closeArr) :
    parseValue (fuel+1) (.punct .openArr :: t :: rest) =
      (parseValue fuel (t :: rest)).bind fun v => (parseItems fuel v.2).map fun r => (.arr (v.1 :: r.1),r.2) := by
  cases t with
  | punct p =>
    cases p with
    | closeArr => exact absurd rfl ht
    | _ => rfl
  | str s => rfl
  | lit l => rfl

mutual

theorem parseValue_tokens (v : Value) (rest : List Token) {fuel : ℕ} (hfuel : (tokens v).length ≤ fuel) :
    parseValue fuel (tokens v++rest) = some (v,rest) := by
  obtain ⟨fuel,rfl⟩ : ∃ n, fuel = n+1 := by
    obtain ⟨t,tail,htokens,-⟩ := tokens_head v
    rw [htokens] at hfuel
    exact ⟨fuel-1,by simp at hfuel; omega⟩
  match v with
  | .lit l =>
    rw [tokens]
    rfl
  | .str s =>
    rw [tokens]
    rfl
  | .arr [] =>
    rw [tokens]
    rfl
  | .arr (v :: items) =>
    rw [tokens] at hfuel ⊢
    simp only [List.length_append,List.length_cons] at hfuel
    have hv : parseValue fuel (tokens v++(itemTokens items++rest)) = some (v,itemTokens items++rest) :=
      parseValue_tokens v (itemTokens items++rest) (by omega)
    have hitems : parseItems fuel (itemTokens items++rest) = some (items,rest) :=
      parseItems_tokens items rest (by omega)
    obtain ⟨t,tail,htokens,ht⟩ := tokens_head v
    rw [List.append_assoc,List.cons_append]
    rw [htokens,List.cons_append] at hv ⊢
    rw [parseValue_arr ht,hv]
    simp only [Option.bind_some,hitems,Option.map_some]
  | .obj [] =>
    rw [tokens]
    rfl
  | .obj ((name,v) :: members) =>
    rw [tokens] at hfuel ⊢
    simp only [List.length_append,List.length_cons] at hfuel
    have hv : parseValue fuel (tokens v++(memberTokens members++rest)) = some (v,memberTokens members++rest) :=
      parseValue_tokens v (memberTokens members++rest) (by omega)
    have hmembers : parseMembers fuel (memberTokens members++rest) = some (members,rest) :=
      parseMembers_tokens members rest (by omega)
    rw [List.append_assoc,List.cons_append,List.cons_append,List.cons_append,parseValue,hv]
    simp only [Option.bind_some,hmembers,Option.map_some]

theorem parseItems_tokens (items : List Value) (rest : List Token) {fuel : ℕ}
    (hfuel : (itemTokens items).length ≤ fuel) : parseItems fuel (itemTokens items++rest) = some (items,rest) := by
  match items with
  | [] =>
    rw [itemTokens] at hfuel ⊢
    obtain ⟨fuel,rfl⟩ : ∃ n, fuel = n+1 := ⟨fuel-1,by simp at hfuel; omega⟩
    rfl
  | v :: items =>
    rw [itemTokens] at hfuel ⊢
    simp only [List.length_append,List.length_cons] at hfuel
    obtain ⟨fuel,rfl⟩ : ∃ n, fuel = n+1 := ⟨fuel-1,by omega⟩
    have hv : parseValue fuel (tokens v++(itemTokens items++rest)) = some (v,itemTokens items++rest) :=
      parseValue_tokens v (itemTokens items++rest) (by omega)
    have hitems : parseItems fuel (itemTokens items++rest) = some (items,rest) :=
      parseItems_tokens items rest (by omega)
    rw [List.append_assoc,List.cons_append,parseItems,hv]
    simp only [Option.bind_some,hitems,Option.map_some]

theorem parseMembers_tokens (members : List (PyText × Value)) (rest : List Token) {fuel : ℕ}
    (hfuel : (memberTokens members).length ≤ fuel) :
    parseMembers fuel (memberTokens members++rest) = some (members,rest) := by
  match members with
  | [] =>
    rw [memberTokens] at hfuel ⊢
    obtain ⟨fuel,rfl⟩ : ∃ n, fuel = n+1 := ⟨fuel-1,by simp at hfuel; omega⟩
    rfl
  | (name,v) :: members =>
    rw [memberTokens] at hfuel ⊢
    simp only [List.length_append,List.length_cons] at hfuel
    obtain ⟨fuel,rfl⟩ : ∃ n, fuel = n+1 := ⟨fuel-1,by omega⟩
    have hv : parseValue fuel (tokens v++(memberTokens members++rest)) = some (v,memberTokens members++rest) :=
      parseValue_tokens v (memberTokens members++rest) (by omega)
    have hmembers : parseMembers fuel (memberTokens members++rest) = some (members,rest) :=
      parseMembers_tokens members rest (by omega)
    rw [List.append_assoc,List.cons_append,List.cons_append,List.cons_append,parseMembers,hv]
    simp only [Option.bind_some,hmembers,Option.map_some]

end

theorem length_le_render (ts : List Token) : ts.length ≤ (render esc ts).length := by
  induction ts with
  | nil => simp
  | cons t ts ih =>
    have ht : 0 < (t.text esc).length := by
      cases t with
      | punct p => simp [Token.text]
      | str s => simp [Token.text]
      | lit l => simpa [Token.text,ofText] using List.length_pos_iff.mpr (literal_text l).1
    rw [render,List.flatMap_cons,List.length_append,List.length_cons]
    rw [render] at ih
    omega

/-- A written value is read back, however the characters of its strings are escaped. -/
theorem loads_render (hesc : Reads esc) (v : Value) : loads (render esc (tokens v)) = some v := by
  have hseparated : Separated (tokens v) := by
    have h := separated_tokens v (fun t ht => by cases ht) List.IsChain.nil
    rwa [List.append_nil] at h
  have hparse := parseValue_tokens v [] (Nat.le_succ (tokens v).length)
  rw [List.append_nil] at hparse
  rw [loads,lex_render hesc _ hseparated (Nat.le_succ_of_le (length_le_render _)),Option.bind_some,parse,hparse]

end JsonTokens
end FakeNetNG
