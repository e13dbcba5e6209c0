import FakeNetNG.IpText

/-!
# JSON texts

The compact texts that `json.dumps` writes and the texts that `json.loads` reads. Reading what was
written gives the value back.
-/

namespace FakeNetNG
namespace Json

def isNumberChar (c : Char) : Bool := c.isDigit || c = '-' || c = '+' || c = '.' || c = 'e' || c = 'E'

/-- A number without superfluous zeros in front. -/
def isNumeral (text : Text) : Bool :=
  text.all Char.isDigit && text = Text.decimal (Text.readDecimal text)

def stripSign : Text → Bool × Text
  | '-' :: rest => (true,rest)
  | text => (false,text)

def readInt (text : Text) : Option ℤ :=
  let (negative,digits) := stripSign text
  if isNumeral digits then
    some (if negative then -(Text.readDecimal digits : ℤ) else Text.readDecimal digits)
  else none

def isDigits (text : Text) : Bool := text ≠ [] && text.all Char.isDigit

/-- An exponent with its letter. -/
def isExponent : Text → Bool
  | [] => false
  | e :: rest =>
    (e = 'e' || e = 'E') && match rest with
      | '+' :: digits => isDigits digits
      | '-' :: digits => isDigits digits
      | digits => isDigits digits

/-- A number with a fraction or an exponent. -/
def isFloat (text : Text) : Bool :=
  let (_,body) := stripSign text
  let whole := body.takeWhile Char.isDigit
  let rest := body.dropWhile Char.isDigit
  isNumeral whole && match rest with
    | '.' :: fraction =>
      let digits := fraction.takeWhile Char.isDigit
      let exponent := fraction.dropWhile Char.isDigit
      digits ≠ [] && (exponent = [] || isExponent exponent)
    | rest => isExponent rest

/-- The three words for floats without a numeral. -/
def floatWords : List Text := ["NaN".toList,"Infinity".toList,"-Infinity".toList]

def isFloatText (text : Text) : Bool :=
  floatWords.contains text || (text.all isNumberChar && isFloat text)

/-- A float is given by the text that its `repr` writes. -/
structure FloatText where
  text : Text
  valid : isFloatText text = true
  deriving DecidableEq

inductive Value
  | null
  | bool (b : Bool)
  | int (n : ℤ)
  | float (f : FloatText)
  | str (s : Text)
  | arr (items : List Value)
  | obj (members : List (Text × Value))

namespace Value

/-- Of several members with one name the last counts. -/
def get? (v : Value) (name : Text) : Option Value :=
  match v with
  | obj members => (members.reverse.find? fun m => m.1 = name).map Prod.snd
  | _ => none

end Value

def quote : Char := Char.ofNat 34

def backslash : Char := Char.ofNat 92

def hexDigit (n : ℕ) : Char := if n < 10 then Char.ofNat (48+n) else Char.ofNat (87+n)

/-- The characters with an escape of one letter. -/
def escapeLetters : List (Char × Char) :=
  [(quote,quote),(backslash,backslash),('\n','n'),('\r','r'),('\t','t'),(Char.ofNat 8,'b'),
    (Char.ofNat 12,'f')]

def escapeChar (c : Char) : Text :=
  match escapeLetters.find? fun e => e.1 = c with
  | some e => [backslash,e.2]
  | none =>
    if c.toNat < 32 then
      [backslash,'u','0','0',hexDigit (c.toNat/16),hexDigit (c.toNat%16)]
    else [c]

def writeString (s : Text) : Text := quote :: s.flatMap escapeChar++[quote]

def writeInt (n : ℤ) : Text :=
  if n < 0 then '-' :: Text.decimal n.natAbs else Text.decimal n.natAbs

mutual

/-- `json.dumps` with `ensure_ascii=False` and without spaces. -/
@[grind] def write : Value → Text
  | .null => "null".toList
  | .bool true => "true".toList
  | .bool false => "false".toList
  | .int n => writeInt n
  | .float f => f.text
  | .str s => writeString s
  | .arr [] => ['[',']']
  | .arr (v :: items) => '[' :: write v++writeItems items
  | .obj [] => ['\x7b','\x7d']
  | .obj ((name,v) :: members) => '\x7b' :: writeString name++ ':' :: write v++writeMembers members

/-- The items after the first, and the end of the array. -/
def writeItems : List Value → Text
  | [] => [']']
  | v :: items => ',' :: write v++writeItems items

def writeMembers : List (Text × Value) → Text
  | [] => ['\x7d']
  | (name,v) :: members => ',' :: writeString name++ ':' :: write v++writeMembers members

end

def isSpace (c : Char) : Bool := c = ' ' || c = '\t' || c = '\n' || c = '\r'

def skipSpace (text : Text) : Text := text.dropWhile isSpace

def hexValue (c : Char) : Option ℕ :=
  if '0' ≤ c ∧ c ≤ '9' then some (c.toNat-48)
  else if 'a' ≤ c ∧ c ≤ 'f' then some (c.toNat-87)
  else if 'A' ≤ c ∧ c ≤ 'F' then some (c.toNat-55)
  else none

def readHex : Text → Option (ℕ × Text)
  | a :: b :: c :: d :: rest =>
    match hexValue a,hexValue b,hexValue c,hexValue d with
    | some a,some b,some c,some d => some (a*4096+b*256+c*16+d,rest)
    | _,_,_,_ => none
  | _ => none

/-- The character of `\u` and of a pair of surrogates. A lone surrogate, which no text of characters
holds, is refused. -/
def readUnicode (text : Text) : Option (Char × Text) :=
  match readHex text with
  | none => none
  | some (high,rest) =>
    if 0xd800 ≤ high ∧ high < 0xdc00 then
      match rest with
      | b :: 'u' :: rest =>
        if b = backslash then
          match readHex rest with
          | some (low,rest) =>
            if 0xdc00 ≤ low ∧ low < 0xe000 then
              some (Char.ofNat (0x10000+(high-0xd800)*0x400+(low-0xdc00)),rest)
            else none
          | none => none
        else none
      | _ => none
    else if 0xdc00 ≤ high ∧ high < 0xe000 then none
    else some (Char.ofNat high,rest)

def readEscape : Text → Option (Char × Text)
  | [] => none
  | c :: rest =>
    if c = 'u' then readUnicode rest
    else if c = '/' then some ('/',rest)
    else (escapeLetters.find? fun e => e.2 = c).map fun e => (e.1,rest)

/-- The characters up to the closing quote. Control characters are refused. -/
@[grind] def readChars : ℕ → Text → Option (Text × Text)
  | 0,_ => none
  | _,[] => none
  | fuel+1,c :: rest =>
    if c = quote then some ([],rest)
    else if c = backslash then
      (readEscape rest).bind fun e => (readChars fuel e.2).map fun r => (e.1 :: r.1,r.2)
    else if c.toNat < 32 then none
    else (readChars fuel rest).map fun r => (c :: r.1,r.2)

def readString : Text → Option (Text × Text)
  | [] => none
  | c :: rest => if c = quote then readChars (rest.length+1) rest else none

def readNumber (text : Text) : Option (Value × Text) :=
  let token := text.takeWhile isNumberChar
  let rest := text.dropWhile isNumberChar
  match readInt token with
  | some n => some (.int n,rest)
  | none => if h : isFloatText token = true then some (.float ⟨token,h⟩,rest) else none

/-- The words that stand for a value. -/
def words : List (Text × Value) :=
  [("null".toList,.null),("true".toList,.bool true),("false".toList,.bool false),
    ("NaN".toList,.float ⟨"NaN".toList,by decide⟩),
    ("Infinity".toList,.float ⟨"Infinity".toList,by decide⟩),
    ("-Infinity".toList,.float ⟨"-Infinity".toList,by decide⟩)]

def readWord (text : Text) : Option (Value × Text) :=
  (words.find? fun w => w.1.isPrefixOf text).map fun w => (w.2,text.drop w.1.length)

mutual

@[grind] def readValue : ℕ → Text → Option (Value × Text)
  | 0,_ => none
  | _,[] => none
  | fuel+1,c :: rest =>
    if c = quote then (readString (c :: rest)).map fun r => (.str r.1,r.2)
    else if c = '[' then
      match skipSpace rest with
      | ']' :: rest => some (.arr [],rest)
      | rest =>
        (readValue fuel rest).bind fun v => (readItems fuel v.2).map fun r => (.arr (v.1 :: r.1),r.2)
    else if c = '\x7b' then
      match skipSpace rest with
      | '\x7d' :: rest => some (.obj [],rest)
      | rest => (readMember fuel rest).bind fun m =>
          (readMembers fuel m.2).map fun r => (.obj (m.1 :: r.1),r.2)
    else
      match readWord (c :: rest) with
      | some r => some r
      | none => readNumber (c :: rest)

/-- The items after the first. -/
def readItems : ℕ → Text → Option (List Value × Text)
  | 0,_ => none
  | fuel+1,text =>
    match skipSpace text with
    | ']' :: rest => some ([],rest)
    | ',' :: rest =>
      (readValue fuel (skipSpace rest)).bind fun v =>
        (readItems fuel v.2).map fun r => (v.1 :: r.1,r.2)
    | _ => none

def readMember : ℕ → Text → Option ((Text × Value) × Text)
  | 0,_ => none
  | fuel+1,text =>
    (readString text).bind fun name =>
      match skipSpace name.2 with
      | ':' :: rest => (readValue fuel (skipSpace rest)).map fun v => ((name.1,v.1),v.2)
      | _ => none

def readMembers : ℕ → Text → Option (List (Text × Value) × Text)
  | 0,_ => none
  | fuel+1,text =>
    match skipSpace text with
    | '\x7d' :: rest => some ([],rest)
    | ',' :: rest =>
      (readMember fuel (skipSpace rest)).bind fun m =>
        (readMembers fuel m.2).map fun r => (m.1 :: r.1,r.2)
    | _ => none

end

/-- `json.loads`. -/
def loads (text : Text) : Option Value :=
  match readValue (text.length+1) (skipSpace text) with
  | some (v,rest) => if skipSpace rest = [] then some v else none
  | none => none

/-- A number that was written before this text ends there. -/
def Stops (rest : Text) : Prop := ∀ c ∈ rest.head?, isNumberChar c = false

theorem stops_nil : Stops [] := by simp [Stops]

theorem stops_cons {c : Char} {rest : Text} (h : isNumberChar c = false) : Stops (c :: rest) := by
  simpa [Stops] using h

theorem hexValue_hexDigit : ∀ n < 16, hexValue (hexDigit n) = some n := by decide

theorem escapeLetters_letter : ∀ e ∈ escapeLetters, e.2 ≠ 'u' ∧ e.2 ≠ '/' ∧
    (escapeLetters.find? fun e' => e'.2 = e.2).map Prod.fst = some e.1 := by decide

theorem readEscape_letter {e : Char × Char} (he : e ∈ escapeLetters) (rest : Text) :
    readEscape (e.2 :: rest) = some (e.1,rest) := by
  obtain ⟨hu,hslash,hfind⟩ := escapeLetters_letter e he
  obtain ⟨e',he',heq⟩ := Option.map_eq_some_iff.mp hfind
  simp [readEscape,hu,hslash,he',heq]

theorem readEscape_control {c : Char} (hc : c.toNat < 32) (rest : Text) :
    readEscape ('u' :: '0' :: '0' :: hexDigit (c.toNat/16) :: hexDigit (c.toNat%16) :: rest) =
      some (c,rest) := by
  have hhigh := hexValue_hexDigit (c.toNat/16) (by omega)
  have hlow := hexValue_hexDigit (c.toNat%16) (by omega)
  have hzero : hexValue '0' = some 0 := by decide
  have hvalue : c.toNat/16*16+c.toNat%16 = c.toNat := by omega
  have hsurrogate : ¬(0xd800 ≤ c.toNat ∧ c.toNat < 0xdc00) := by omega
  have hsurrogate' : ¬(0xdc00 ≤ c.toNat ∧ c.toNat < 0xe000) := by omega
  simp only [readEscape,if_true,readUnicode,readHex,hzero,hhigh,hlow,Nat.zero_mul,Nat.zero_add,hvalue,
    hsurrogate,hsurrogate',if_false,Char.ofNat_toNat]

theorem readChars_escapeChar (c : Char) (fuel : ℕ) (rest : Text) :
    readChars (fuel+1) (escapeChar c++rest) = (readChars fuel rest).map fun r => (c :: r.1,r.2) := by
  have hbackslash : backslash ≠ quote := by decide
  unfold escapeChar
  cases hfind : escapeLetters.find? fun e => e.1 = c with
  | some e =>
    have hc : e.1 = c := by simpa using List.find?_some hfind
    have hread := readEscape_letter (List.mem_of_find?_eq_some hfind) rest
    simp [readChars,hbackslash,hread,hc]
  | none =>
    have hnone := List.find?_eq_none.mp hfind
    have hquote : c ≠ quote := fun h => hnone (quote,quote) (by simp [escapeLetters]) (by simp [h])
    have hescape : c ≠ backslash := fun h =>
      hnone (backslash,backslash) (by simp [escapeLetters]) (by simp [h])
    by_cases hcontrol : c.toNat < 32
    · simp [hcontrol,readChars,hbackslash,readEscape_control hcontrol rest]
    · simp [hcontrol,readChars,hquote,hescape]

theorem readChars_write (s rest : Text) {fuel : ℕ} (hfuel : s.length < fuel) :
    readChars fuel (s.flatMap escapeChar++quote :: rest) = some (s,rest) := by
  induction s generalizing fuel with
  | nil =>
    obtain ⟨fuel,rfl⟩ : ∃ n, fuel = n+1 := ⟨fuel-1,by simp at hfuel; omega⟩
    simp [readChars]
  | cons c s ih =>
    obtain ⟨fuel,rfl⟩ : ∃ n, fuel = n+1 := ⟨fuel-1,by simp at hfuel; omega⟩
    rw [List.flatMap_cons,List.append_assoc,readChars_escapeChar,ih (by simpa using hfuel)]
    rfl

theorem escapeChar_ne_nil (c : Char) : escapeChar c ≠ [] := by
  unfold escapeChar
  split
  · simp
  · split <;> simp

theorem length_le_flatMap_escapeChar (s : Text) : s.length ≤ (s.flatMap escapeChar).length := by
  induction s with
  | nil => simp
  | cons c s ih =>
    have hc := List.length_pos_iff.mpr (escapeChar_ne_nil c)
    rw [List.flatMap_cons,List.length_append,List.length_cons]
    omega

theorem readString_write (s rest : Text) : readString (writeString s++rest) = some (s,rest) := by
  have hlength := length_le_flatMap_escapeChar s
  rw [writeString,List.cons_append,List.cons_append,List.append_assoc,readString,if_pos rfl]
  refine readChars_write s rest ?_
  simp only [List.length_append,List.length_cons,List.length_nil]
  omega

theorem decimal_ne_nil (n : ℕ) : Text.decimal n ≠ [] := Nat.toDigits_ne_nil

theorem decimal_isDigit {n : ℕ} {c : Char} (hc : c ∈ Text.decimal n) : c.isDigit = true :=
  Nat.isDigit_of_mem_toDigits (by omega) (by omega) hc

theorem isNumeral_decimal (n : ℕ) : isNumeral (Text.decimal n) = true := by
  have hread : Text.readDecimal (Text.decimal n) = n := Nat.ofDigitChars_ten_toDigits
  simp only [isNumeral,hread,decide_true,Bool.and_true,List.all_eq_true]
  exact fun c hc => decimal_isDigit hc

theorem stripSign_digit {text : Text} (h : ∀ c ∈ text.head?, c.isDigit = true) :
    stripSign text = (false,text) := by
  unfold stripSign
  split
  · next rest => simp at h
  · rfl

theorem readInt_write (n : ℤ) : readInt (writeInt n) = some n := by
  have hread : Text.readDecimal (Text.decimal n.natAbs) = n.natAbs := Nat.ofDigitChars_ten_toDigits
  by_cases hn : n < 0
  · have hvalue : -(n.natAbs:ℤ) = n := by omega
    simp only [writeInt,hn,if_true,readInt,stripSign,isNumeral_decimal,hread,hvalue]
  · have hdigit : ∀ c ∈ (Text.decimal n.natAbs).head?, c.isDigit = true := fun c hc =>
      decimal_isDigit (List.mem_of_mem_head? hc)
    have hvalue : (n.natAbs:ℤ) = n := by omega
    simp only [writeInt,hn,if_false,readInt,stripSign_digit hdigit,isNumeral_decimal,if_true,hread,
      Bool.false_eq_true,hvalue]

theorem isNumberChar_of_isDigit {c : Char} (h : c.isDigit = true) : isNumberChar c = true := by
  simp [isNumberChar,h]

theorem span_append {text rest : Text} (htext : text.all isNumberChar = true) (hrest : Stops rest) :
    (text++rest).takeWhile isNumberChar = text ∧ (text++rest).dropWhile isNumberChar = rest := by
  have htext : ∀ c ∈ text, isNumberChar c = true := by simpa using htext
  have htake : rest.takeWhile isNumberChar = [] := by
    cases rest with
    | nil => rfl
    | cons c rest => simp [hrest c (by simp)]
  have hdrop : rest.dropWhile isNumberChar = rest := by
    cases rest with
    | nil => rfl
    | cons c rest => simp [hrest c (by simp)]
  rw [List.takeWhile_append_of_pos htext,List.dropWhile_append_of_pos htext,htake,hdrop]
  simp

/-- A token that starts as a number is no word. -/
def StartsNumber (text : Text) : Prop :=
  ∃ d rest, d.isDigit = true ∧ (text = d :: rest ∨ text = '-' :: d :: rest)

theorem readWord_number {text : Text} (h : StartsNumber text) (rest : Text) :
    readWord (text++rest) = none := by
  obtain ⟨d,tail,hd,rfl | rfl⟩ := h <;>
    simp only [readWord,Option.map_eq_none_iff,List.find?_eq_none,words,List.cons_append] <;>
    · intro w hw hprefix
      have hne : ∀ c : Char, c.isDigit = false → c ≠ d := fun c hc h => by simp [h,hd] at hc
      have h₁ := hne 'n' (by decide)
      have h₂ := hne 't' (by decide)
      have h₃ := hne 'N' (by decide)
      have h₄ := hne 'I' (by decide)
      have h₅ := hne '-' (by decide)
      simp only [List.mem_cons,List.not_mem_nil,or_false] at hw
      obtain rfl | rfl | rfl | rfl | rfl | rfl := hw <;> simp_all [List.isPrefixOf]

theorem startsNumber_of_isNumeral {digits : Text} (h : isNumeral digits = true) :
    ∃ d rest, d.isDigit = true ∧ digits = d :: rest := by
  simp only [isNumeral,Bool.and_eq_true,decide_eq_true_eq,List.all_eq_true] at h
  cases digits with
  | nil => exact absurd h.2.symm (decimal_ne_nil _)
  | cons d rest => exact ⟨d,rest,h.1 d (by simp),rfl⟩

theorem startsNumber_of_stripSign {text : Text} {d : Char} {rest : Text} (hd : d.isDigit = true)
    (h : (stripSign text).2 = d :: rest) : StartsNumber text := by
  unfold stripSign at h
  split at h
  · exact ⟨d,rest,hd,.inr (by rw [← h])⟩
  · exact ⟨d,rest,hd,.inl h⟩

theorem startsNumber_writeInt (n : ℤ) : StartsNumber (writeInt n) := by
  obtain ⟨d,rest,hd,hdigits⟩ := startsNumber_of_isNumeral (isNumeral_decimal n.natAbs)
  unfold writeInt
  rw [hdigits]
  split
  · exact ⟨d,rest,hd,.inr rfl⟩
  · exact ⟨d,rest,hd,.inl rfl⟩

theorem writeInt_isNumberChar (n : ℤ) : (writeInt n).all isNumberChar = true := by
  have hdigits : ∀ c ∈ Text.decimal n.natAbs, isNumberChar c = true := fun c hc =>
    isNumberChar_of_isDigit (decimal_isDigit hc)
  rw [List.all_eq_true]
  unfold writeInt
  split
  · intro c hc
    obtain rfl | hc := List.mem_cons.mp hc
    · decide
    · exact hdigits c hc
  · exact hdigits

/-- A float starts as a number and is no integer. -/
theorem isFloat_spec {text : Text} (h : isFloat text = true) : StartsNumber text ∧ readInt text = none := by
  simp only [isFloat,Bool.and_eq_true] at h
  obtain ⟨hwhole,hrest⟩ := h
  obtain ⟨d,rest,hd,hdigits⟩ := startsNumber_of_isNumeral hwhole
  have hbody := List.takeWhile_append_dropWhile (p:=Char.isDigit) (l:=(stripSign text).2)
  rw [hdigits,List.cons_append] at hbody
  refine ⟨startsNumber_of_stripSign hd hbody.symm,?_⟩
  have hmore : ((stripSign text).2.dropWhile Char.isDigit) ≠ [] := by
    intro hnil
    rw [hnil] at hrest
    cases hrest
  have hall : isNumeral (stripSign text).2 = false := by
    by_contra hnumeral
    simp only [Bool.not_eq_false,isNumeral,Bool.and_eq_true] at hnumeral
    exact hmore (List.dropWhile_eq_nil_iff.mpr (by simpa using hnumeral.1))
  simp [readInt,hall]

theorem readNumber_int (n : ℤ) {rest : Text} (hrest : Stops rest) :
    readNumber (writeInt n++rest) = some (.int n,rest) := by
  obtain ⟨htoken,hdrop⟩ := span_append (writeInt_isNumberChar n) hrest
  simp only [readNumber,htoken,hdrop,readInt_write]

theorem readNumber_float (f : FloatText) (hchars : f.text.all isNumberChar = true)
    (hfloat : isFloat f.text = true) {rest : Text} (hrest : Stops rest) :
    readNumber (f.text++rest) = some (.float f,rest) := by
  obtain ⟨htoken,hdrop⟩ := span_append hchars hrest
  simp [readNumber,htoken,hdrop,(isFloat_spec hfloat).2,f.valid]

theorem readValue_number {text : Text} (h : StartsNumber text) (rest : Text) (fuel : ℕ) :
    readValue (fuel+1) (text++rest) = readNumber (text++rest) := by
  have hword := readWord_number h rest
  obtain ⟨d,tail,hd,rfl | rfl⟩ := h
  · have hne : ∀ c : Char, c.isDigit = false → d ≠ c := fun c hc h => by simp [← h,hd] at hc
    rw [List.cons_append] at hword ⊢
    rw [readValue,if_neg (hne _ (by decide)),if_neg (hne _ (by decide)),if_neg (hne _ (by decide)),hword]
  · rw [List.cons_append] at hword ⊢
    rw [readValue,if_neg (by decide),if_neg (by decide),if_neg (by decide),hword]

theorem readValue_word {w : Text × Value} (hw : w ∈ words) (rest : Text) (fuel : ℕ) :
    readValue (fuel+1) (w.1++rest) = some (w.2,rest) := by
  simp only [words,List.mem_cons,List.not_mem_nil,or_false] at hw
  obtain rfl | rfl | rfl | rfl | rfl | rfl := hw <;> rfl

theorem readValue_float (f : FloatText) {rest : Text} (hrest : Stops rest) (fuel : ℕ) :
    readValue (fuel+1) (f.text++rest) = some (.float f,rest) := by
  have hvalid := f.valid
  simp only [isFloatText,Bool.or_eq_true,Bool.and_eq_true] at hvalid
  obtain hword | ⟨hchars,hfloat⟩ := hvalid
  · obtain ⟨text,hvalid⟩ := f
    simp only [floatWords,List.contains_cons,List.contains_nil,Bool.or_false,Bool.or_eq_true,
      beq_iff_eq] at hword
    obtain rfl | rfl | rfl := hword <;> rfl
  · rw [readValue_number (isFloat_spec hfloat).1,readNumber_float f hchars hfloat hrest]

/-- A value that was written starts with no space and no closing bracket. -/
theorem write_head (v : Value) : ∃ c rest, write v = c :: rest ∧ isSpace c = false ∧ c ≠ ']' := by
  have hnumber : ∀ {text : Text}, StartsNumber text →
      ∃ c rest, text = c :: rest ∧ isSpace c = false ∧ c ≠ ']' := by
    intro text h
    obtain ⟨d,rest,hd,rfl | rfl⟩ := h
    · refine ⟨d,rest,rfl,?_,fun h => by simp [h] at hd⟩
      by_contra hspace
      simp only [isSpace,Bool.not_eq_false,Bool.or_eq_true,decide_eq_true_eq] at hspace
      obtain ((rfl | rfl) | rfl) | rfl := hspace <;> simp at hd
    · exact ⟨'-',d :: rest,rfl,by decide,by decide⟩
  cases v with
  | null => exact ⟨'n',_,by rw [write]; rfl,by decide,by decide⟩
  | bool b =>
    cases b
    · exact ⟨'f',_,by rw [write]; rfl,by decide,by decide⟩
    · exact ⟨'t',_,by rw [write]; rfl,by decide,by decide⟩
  | int n =>
    rw [write]
    exact hnumber (startsNumber_writeInt n)
  | float f =>
    rw [write]
    have hvalid := f.valid
    simp only [isFloatText,Bool.or_eq_true,Bool.and_eq_true] at hvalid
    obtain hword | ⟨-,hfloat⟩ := hvalid
    · simp only [floatWords,List.contains_cons,List.contains_nil,Bool.or_false,Bool.or_eq_true,
        beq_iff_eq] at hword
      obtain h | h | h := hword <;> rw [h]
      · exact ⟨'N',_,rfl,by decide,by decide⟩
      · exact ⟨'I',_,rfl,by decide,by decide⟩
      · exact ⟨'-',_,rfl,by decide,by decide⟩
    · exact hnumber (isFloat_spec hfloat).1
  | str s => exact ⟨quote,_,by rw [write]; rfl,by decide,by decide⟩
  | arr items =>
    cases items with
    | nil => exact ⟨'[',_,by rw [write],by decide,by decide⟩
    | cons v items => exact ⟨'[',_,by rw [write]; rfl,by decide,by decide⟩
  | obj members =>
    cases members with
    | nil => exact ⟨'\x7b',_,by rw [write],by decide,by decide⟩
    | cons m members => exact ⟨'\x7b',_,by rw [write]; rfl,by decide,by decide⟩

theorem skipSpace_cons {c : Char} {rest : Text} (h : isSpace c = false) :
    skipSpace (c :: rest) = c :: rest := by
  simp [skipSpace,h]

theorem skipSpace_write (v : Value) (rest : Text) : skipSpace (write v++rest) = write v++rest := by
  obtain ⟨c,tail,hwrite,hspace,-⟩ := write_head v
  rw [hwrite,List.cons_append,skipSpace_cons hspace]

theorem writeString_head (s : Text) : ∃ rest, writeString s = quote :: rest := ⟨_,rfl⟩

theorem skipSpace_writeString (s rest : Text) : skipSpace (writeString s++rest) = writeString s++rest := by
  obtain ⟨tail,htail⟩ := writeString_head s
  rw [htail,List.cons_append,skipSpace_cons (by decide)]

theorem stops_writeItems (items : List Value) (rest : Text) : Stops (writeItems items++rest) := by
  cases items <;> rw [writeItems] <;> exact stops_cons (by decide)

theorem stops_writeMembers (members : List (Text × Value)) (rest : Text) :
    Stops (writeMembers members++rest) := by
  cases members with
  | nil =>
    rw [writeMembers]
    exact stops_cons (by decide)
  | cons m members =>
    rw [writeMembers]
    exact stops_cons (by decide)

theorem readMember_write (name : Text) {v : Value} {rest : Text} {fuel : ℕ}
    (h : readValue fuel (write v++rest) = some (v,rest)) :
    readMember (fuel+1) (writeString name++ ':' :: write v++rest) = some ((name,v),rest) := by
  have hcolon : skipSpace (':' :: (write v++rest)) = ':' :: (write v++rest) := skipSpace_cons (by decide)
  rw [List.append_assoc,readMember,readString_write]
  simp only [Option.bind_some,List.cons_append,hcolon,skipSpace_write,h]
  rfl

mutual

/-- Enough fuel is the length of the text. -/
theorem readValue_write (v : Value) (fuel : ℕ) (rest : Text) (hfuel : (write v).length ≤ fuel)
    (hrest : Stops rest) : readValue fuel (write v++rest) = some (v,rest) := by
  obtain ⟨fuel,rfl⟩ : ∃ n, fuel = n+1 := by
    obtain ⟨c,tail,hwrite,-⟩ := write_head v
    rw [hwrite] at hfuel
    exact ⟨fuel-1,by simp at hfuel; omega⟩
  match v with
  | .null =>
    rw [write]
    exact readValue_word (w:=("null".toList,.null)) (by simp [words]) rest fuel
  | .bool true =>
    rw [write]
    exact readValue_word (w:=("true".toList,.bool true)) (by simp [words]) rest fuel
  | .bool false =>
    rw [write]
    exact readValue_word (w:=("false".toList,.bool false)) (by simp [words]) rest fuel
  | .int n =>
    rw [write,readValue_number (startsNumber_writeInt n),readNumber_int n hrest]
  | .float f =>
    rw [write]
    exact readValue_float f hrest fuel
  | .str s =>
    rw [write]
    have hread := readString_write s rest
    obtain ⟨tail,htail⟩ := writeString_head s
    rw [htail,List.cons_append] at hread ⊢
    rw [readValue,if_pos rfl,hread]
    rfl
  | .arr [] =>
    rw [write,List.cons_append,List.cons_append,List.nil_append,readValue,if_neg (by decide),if_pos rfl,
      skipSpace_cons (by decide)]
    rfl
  | .arr (v :: items) =>
    rw [write] at hfuel ⊢
    simp only [List.length_append,List.length_cons] at hfuel
    have hv := readValue_write v fuel (writeItems items++rest) (by omega) (stops_writeItems items rest)
    have hitems := readItems_write items fuel rest (by omega)
    obtain ⟨c,tail,hwrite,-,hclose⟩ := write_head v
    rw [List.append_assoc,List.cons_append,readValue,if_neg (by decide),if_pos rfl,skipSpace_write]
    split
    · next heq =>
      rw [hwrite,List.cons_append] at heq
      exact absurd (List.cons.inj heq).1 hclose
    · rw [hv]
      simp only [Option.bind_some,hitems]
      rfl
  | .obj [] =>
    rw [write,List.cons_append,List.cons_append,List.nil_append,readValue,if_neg (by decide),
      if_neg (by decide),if_pos rfl,skipSpace_cons (by decide)]
    rfl
  | .obj ((name,v) :: members) =>
    rw [write] at hfuel ⊢
    simp only [List.length_append,List.length_cons] at hfuel
    obtain ⟨fuel,rfl⟩ : ∃ n, fuel = n+1 := ⟨fuel-1,by omega⟩
    have hv := readValue_write v fuel (writeMembers members++rest) (by omega)
      (stops_writeMembers members rest)
    have hmember := readMember_write name hv
    have hmembers := readMembers_write members (fuel+1) rest (by omega)
    obtain ⟨tail,htail⟩ := writeString_head name
    have htext : '\x7b' :: writeString name++ ':' :: write v++writeMembers members++rest =
        '\x7b' :: (writeString name++ ':' :: write v++(writeMembers members++rest)) := by simp
    have hspace : skipSpace (writeString name++ ':' :: write v++(writeMembers members++rest)) =
        writeString name++ ':' :: write v++(writeMembers members++rest) := by
      rw [List.append_assoc]
      exact skipSpace_writeString name _
    rw [htext,readValue,if_neg (by decide),if_neg (by decide),if_pos rfl,hspace]
    split
    · next heq =>
      rw [htail] at heq
      exact absurd (List.cons.inj heq).1 (by decide)
    · rw [hmember]
      simp only [Option.bind_some,hmembers]
      rfl

theorem readItems_write (items : List Value) (fuel : ℕ) (rest : Text)
    (hfuel : (writeItems items).length ≤ fuel) :
    readItems fuel (writeItems items++rest) = some (items,rest) := by
  match items with
  | [] =>
    rw [writeItems] at hfuel ⊢
    obtain ⟨fuel,rfl⟩ : ∃ n, fuel = n+1 := ⟨fuel-1,by simp at hfuel; omega⟩
    rw [List.cons_append,List.nil_append,readItems,skipSpace_cons (by decide)]
    rfl
  | v :: items =>
    rw [writeItems] at hfuel ⊢
    simp only [List.length_append,List.length_cons] at hfuel
    obtain ⟨fuel,rfl⟩ : ∃ n, fuel = n+1 := ⟨fuel-1,by omega⟩
    have hv := readValue_write v fuel (writeItems items++rest) (by omega) (stops_writeItems items rest)
    have hitems := readItems_write items fuel rest (by omega)
    rw [List.append_assoc,List.cons_append,readItems,skipSpace_cons (by decide)]
    simp only [skipSpace_write,hv,Option.bind_some,hitems]
    rfl

theorem readMembers_write (members : List (Text × Value)) (fuel : ℕ) (rest : Text)
    (hfuel : (writeMembers members).length ≤ fuel) :
    readMembers fuel (writeMembers members++rest) = some (members,rest) := by
  match members with
  | [] =>
    rw [writeMembers] at hfuel ⊢
    obtain ⟨fuel,rfl⟩ : ∃ n, fuel = n+1 := ⟨fuel-1,by simp at hfuel; omega⟩
    rw [List.cons_append,List.nil_append,readMembers,skipSpace_cons (by decide)]
    rfl
  | (name,v) :: members =>
    rw [writeMembers] at hfuel ⊢
    simp only [List.length_append,List.length_cons] at hfuel
    obtain ⟨fuel,rfl⟩ : ∃ n, fuel = n+2 := ⟨fuel-2,by omega⟩
    have hv := readValue_write v fuel (writeMembers members++rest) (by omega)
      (stops_writeMembers members rest)
    have hmember := readMember_write name hv
    have hmembers := readMembers_write members (fuel+1) rest (by omega)
    have htext : ',' :: writeString name++ ':' :: write v++writeMembers members++rest =
        ',' :: (writeString name++ ':' :: write v++(writeMembers members++rest)) := by simp
    have hspace : skipSpace (writeString name++ ':' :: write v++(writeMembers members++rest)) =
        writeString name++ ':' :: write v++(writeMembers members++rest) := by
      rw [List.append_assoc]
      exact skipSpace_writeString name _
    rw [htext,readMembers,skipSpace_cons (by decide)]
    simp only [hspace,hmember,Option.bind_some,hmembers]
    rfl

end

/-- `json.loads(json.dumps(v))` is `v`. -/
theorem loads_write (v : Value) : loads (write v) = some v := by
  have hspace : skipSpace (write v) = write v := by simpa using skipSpace_write v []
  have hread := readValue_write v ((write v).length+1) [] (Nat.le_succ _) stops_nil
  rw [List.append_nil] at hread
  rw [loads,hspace,hread]
  rfl

theorem hexDigit_printable : ∀ n < 16, 32 ≤ (hexDigit n).toNat := by decide

theorem escapeLetters_printable : ∀ e ∈ escapeLetters, 32 ≤ e.2.toNat := by decide

theorem escapeChar_printable (c : Char) : ∀ d ∈ escapeChar c, 32 ≤ d.toNat := by
  have hbackslash : 32 ≤ backslash.toNat := by decide
  unfold escapeChar
  intro d hd
  split at hd
  · next e he =>
    obtain rfl | rfl := by simpa using hd
    · exact hbackslash
    · exact escapeLetters_printable e (List.mem_of_find?_eq_some he)
  · split at hd
    · obtain rfl | rfl | rfl | rfl | rfl := by simpa using hd
      · exact hbackslash
      · decide
      · decide
      · exact hexDigit_printable _ (by omega)
      · exact hexDigit_printable _ (by omega)
    · obtain rfl := by simpa using hd
      omega

theorem writeString_printable (s : Text) : ∀ c ∈ writeString s, 32 ≤ c.toNat := by
  intro c hc
  simp only [writeString,List.mem_append,List.mem_cons,List.mem_flatMap,List.not_mem_nil,or_false] at hc
  obtain (rfl | ⟨d,-,hd⟩) | rfl := hc
  · decide
  · exact escapeChar_printable d c hd
  · decide

theorem isNumberChar_printable {c : Char} (h : isNumberChar c = true) : 32 ≤ c.toNat := by
  simp only [isNumberChar,Bool.or_eq_true,decide_eq_true_eq] at h
  obtain ((((h | rfl) | rfl) | rfl) | rfl) | rfl := h
  · have hdigit := (Char.isDigit_iff_toNat.mp h).1
    simp at hdigit
    omega
  all_goals decide

mutual

/-- What is written stands on one line. -/
theorem write_printable (v : Value) : ∀ c ∈ write v, 32 ≤ c.toNat := by
  match v with
  | .null =>
    rw [write]
    decide
  | .bool true =>
    rw [write]
    decide
  | .bool false =>
    rw [write]
    decide
  | .int n =>
    rw [write]
    exact fun c hc => isNumberChar_printable (List.all_eq_true.mp (writeInt_isNumberChar n) c hc)
  | .float f =>
    rw [write]
    have hvalid := f.valid
    simp only [isFloatText,Bool.or_eq_true,Bool.and_eq_true,floatWords,List.contains_cons,
      List.contains_nil,Bool.or_false,beq_iff_eq] at hvalid
    obtain (h | h | h) | ⟨hchars,-⟩ := hvalid
    · rw [h]
      decide
    · rw [h]
      decide
    · rw [h]
      decide
    · exact fun c hc => isNumberChar_printable (List.all_eq_true.mp hchars c hc)
  | .str s =>
    rw [write]
    exact writeString_printable s
  | .arr [] =>
    rw [write]
    decide
  | .arr (v :: items) =>
    rw [write]
    intro c hc
    obtain rfl | hc | hc := by simpa [or_assoc] using hc
    · decide
    · exact write_printable v c hc
    · exact writeItems_printable items c hc
  | .obj [] =>
    rw [write]
    decide
  | .obj ((name,v) :: members) =>
    rw [write]
    intro c hc
    obtain rfl | hc | rfl | hc | hc := by simpa [or_assoc] using hc
    · decide
    · exact writeString_printable name c hc
    · decide
    · exact write_printable v c hc
    · exact writeMembers_printable members c hc

theorem writeItems_printable (items : List Value) : ∀ c ∈ writeItems items, 32 ≤ c.toNat := by
  match items with
  | [] =>
    rw [writeItems]
    decide
  | v :: items =>
    rw [writeItems]
    intro c hc
    obtain rfl | hc | hc := by simpa [or_assoc] using hc
    · decide
    · exact write_printable v c hc
    · exact writeItems_printable items c hc

theorem writeMembers_printable (members : List (Text × Value)) :
    ∀ c ∈ writeMembers members, 32 ≤ c.toNat := by
  match members with
  | [] =>
    rw [writeMembers]
    decide
  | (name,v) :: members =>
    rw [writeMembers]
    intro c hc
    obtain rfl | hc | rfl | hc | hc := by simpa [or_assoc] using hc
    · decide
    · exact writeString_printable name c hc
    · decide
    · exact write_printable v c hc
    · exact writeMembers_printable members c hc

end

end Json
end FakeNetNG
