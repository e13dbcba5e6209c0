import Mathlib.Data.Char
import Mathlib.Data.List.DropRight
import Mathlib.Data.List.Lex
import Mathlib.Tactic

/-!
# Texts and the addresses in them

Text helpers with the meaning of the string methods of the source's language, and the reading
of `ipaddress`: dotted IPv4 addresses and the colon form of IPv6 addresses.
-/

namespace FakeNetNG

abbrev Text := List Char

namespace Text

/-- A quantifier over the characters of a text is decided along the text, not over all characters there are. -/
instance (priority := high) decidableForallMem (p : Char → Prop) [DecidablePred p] (text : Text) :
    Decidable (∀ c ∈ text, p c) :=
  List.decidableBAll p text

instance (priority := high) lawfulBEq : LawfulBEq Text := inferInstance

/-- `c.isspace()`, which is also what `\s` matches. -/
def isSpace (c : Char) : Bool :=
  c = ' ' ∨ (9 ≤ c.toNat ∧ c.toNat ≤ 13) ∨ (28 ≤ c.toNat ∧ c.toNat ≤ 31) ∨
    (0x2000 ≤ c.toNat ∧ c.toNat ≤ 0x200a) ∨
      c.toNat ∈ [0x85,0xa0,0x1680,0x2028,0x2029,0x202f,0x205f,0x3000]

/-- `text.strip()`. -/
def strip (text : Text) : Text := (text.dropWhile isSpace).rdropWhile isSpace

/-- `text.split(separator)`. -/
def split (separator : Char) (text : Text) : List Text := text.splitOn separator

/-- `separator.join(texts)`. -/
def join (separator : Text) (texts : List Text) : Text := separator.intercalate texts

/-- `str(n)`. -/
def decimal (n : ℕ) : Text := Nat.toDigits 10 n

/-- `int(text)` for a text of ASCII digits. -/
def readDecimal (text : Text) : ℕ := Nat.ofDigitChars 10 text 0

def zeros : List ℕ :=
  [0x30,0x660,0x6f0,0x7c0,0x966,0x9e6,0xa66,0xae6,0xb66,0xbe6,0xc66,0xce6,0xd66,0xde6,0xe50,0xed0,
    0xf20,0x1040,0x1090,0x17e0,0x1810,0x1946,0x19d0,0x1a80,0x1a90,0x1b50,0x1bb0,0x1c40,0x1c50,
    0xa620,0xa8d0,0xa900,0xa9d0,0xa9f0,0xaa50,0xabf0,0xff10,0x104a0,0x10d30,0x11066,0x110f0,
    0x11136,0x111d0,0x112f0,0x11450,0x114d0,0x11650,0x116c0,0x11730,0x118e0,0x11950,0x11c50,
    0x11d50,0x11da0,0x16a60,0x16ac0,0x16b50,0x1d7ce,0x1d7d8,0x1d7e2,0x1d7ec,0x1d7f6,0x1e140,
    0x1e2f0,0x1e950,0x1fbf0]

def digitValue (c : Char) : Option ℕ :=
  (zeros.find? fun first => first ≤ c.toNat ∧ c.toNat ≤ first+9).map (c.toNat-·)

/-- What `\d` matches. -/
def isDigit (c : Char) : Bool := (digitValue c).isSome

def numeral (text : Text) : ℕ := text.foldl (fun value c => 10*value+(digitValue c).getD 0) 0

/-- `int(text)` for a text of decimal digits, with nothing for its limit of 4300 of them. -/
def readDigits (text : Text) : Option ℕ :=
  if 4300 < text.length then none else some (numeral text)

/-- `text.isascii() and text.isdigit()`. Unlike `isdigit` alone it takes no digit of another script. -/
def isDecimal (text : Text) : Bool := text ≠ [] ∧ text.all Char.isDigit

/-- `text.find(part)`, with nothing for -1. -/
def find (part : Text) : Text → Option ℕ
  | [] => if part = [] then some 0 else none
  | c :: rest => if part <+: c :: rest then some 0 else (find part rest).map (·+1)

theorem isDigit_of_mem_decimal {n : ℕ} {c : Char} (h : c ∈ decimal n) : c.isDigit = true :=
  Nat.isDigit_of_mem_toDigits (by omega) (by omega) h

theorem decimal_ne_nil (n : ℕ) : decimal n ≠ [] := Nat.toDigits_ne_nil

@[simp] theorem readDecimal_decimal (n : ℕ) : readDecimal (decimal n) = n :=
  Nat.ofDigitChars_ten_toDigits

theorem isDecimal_decimal (n : ℕ) : isDecimal (decimal n) = true := by
  simp only [isDecimal,decimal_ne_nil,ne_eq,not_false_eq_true,true_and,decide_eq_true_eq,
    List.all_eq_true]
  exact fun c hc => isDigit_of_mem_decimal hc

theorem digitValue_of_isDigit {c : Char} (h : c.isDigit = true) :
    digitValue c = some (c.toNat-48) := by
  have hbounds : 48 ≤ c.toNat ∧ c.toNat ≤ 57 := by
    simp only [Char.isDigit,Bool.and_eq_true,decide_eq_true_eq] at h
    exact ⟨h.1,h.2⟩
  have hfirst : zeros.find? (fun first => first ≤ c.toNat ∧ c.toNat ≤ first+9) = some 48 := by
    rw [zeros,List.find?_cons_of_pos (by simpa using hbounds)]
  rw [digitValue,hfirst]
  rfl

theorem isDigit_of_ascii {c : Char} (h : c.isDigit = true) : isDigit c = true := by
  rw [isDigit,digitValue_of_isDigit h]
  rfl

theorem readDigits_eq {text : Text} (h : ∀ c ∈ text, c.isDigit = true)
    (hlength : text.length ≤ 4300) : readDigits text = some (readDecimal text) := by
  have hfold : ∀ start, text.foldl (fun value c => 10*value+(digitValue c).getD 0) start =
      Nat.ofDigitChars 10 text start := by
    induction text with
    | nil => exact fun _ => rfl
    | cons c rest ih =>
      intro start
      have hrest := ih (fun d hd => h d (List.mem_cons_of_mem _ hd)) (by simp at hlength; omega)
      rw [List.foldl_cons,digitValue_of_isDigit (h c List.mem_cons_self),hrest]
      rfl
  rw [readDigits,if_neg (by omega),numeral,hfold]
  rfl

theorem readDigits_decimal {n : ℕ} (h : (decimal n).length ≤ 4300) :
    readDigits (decimal n) = some n := by
  rw [readDigits_eq (fun _ hc => isDigit_of_mem_decimal hc) h,readDecimal_decimal]

theorem decimal_length_le {n k : ℕ} (hk : 0 < k) (h : n < 10^k) : (decimal n).length ≤ k :=
  (Nat.length_toDigits_le_iff (by omega) hk).mpr h

theorem isSpace_of_isDigit {c : Char} (h : c.isDigit = true) : isSpace c = false := by
  have hbounds : 48 ≤ c.toNat ∧ c.toNat ≤ 57 := by
    simp only [Char.isDigit,Bool.and_eq_true,decide_eq_true_eq] at h
    exact ⟨h.1,h.2⟩
  have hne : c ≠ ' ' := by
    rintro rfl
    exact absurd hbounds.1 (by decide)
  simp only [isSpace,hne,false_or,decide_eq_false_iff_not,not_or,not_and,List.mem_cons,
    List.not_mem_nil,or_false]
  omega

theorem strip_eq_self {text : Text} (hhead : ∀ c ∈ text.head?, isSpace c = false)
    (hlast : ∀ c ∈ text.getLast?, isSpace c = false) : strip text = text := by
  have hfront : text.dropWhile isSpace = text := by
    cases text with
    | nil => rfl
    | cons c rest => simp [hhead c (by simp)]
  rw [strip,hfront,List.rdropWhile_eq_self_iff]
  intro hne
  have hspace := hlast _ (List.getLast_mem_getLast? hne)
  simp [hspace]

theorem strip_of_all {text : Text} (h : ∀ c ∈ text, isSpace c = false) : strip text = text :=
  strip_eq_self (fun c hc => h c (List.mem_of_mem_head? hc))
    (fun c hc => h c (List.mem_of_mem_getLast? hc))

theorem split_join {separator : Char} {texts : List Text} (hne : texts ≠ [])
    (h : ∀ text ∈ texts, separator ∉ text) : split separator (join [separator] texts) = texts :=
  List.splitOn_intercalate separator h hne

theorem mem_split {separator c : Char} {text : Text} :
    (∃ part ∈ split separator text, c ∈ part) ↔ c ∈ text ∧ c ≠ separator := by
  unfold split
  induction text with
  | nil => simp
  | cons d text ih =>
    rw [List.splitOn_cons_eq_if_modifyHead]
    by_cases hd : d = separator
    · subst hd
      simp only [beq_self_eq_true,if_true,List.mem_cons,or_and_right,exists_or,exists_eq_left,ih,
        List.not_mem_nil,false_or]
      constructor
      · exact .inr
      · exact fun h => h.resolve_left fun h => h.2 h.1
    · rw [if_neg (by simpa using hd)]
      cases hparts : text.splitOn separator with
      | nil => exact absurd hparts (List.splitOn_ne_nil _ _)
      | cons part parts =>
        rw [hparts] at ih
        simp only [List.modifyHead_cons,List.mem_cons,or_and_right,exists_or,exists_eq_left] at ih ⊢
        rw [or_assoc,ih]
        refine or_congr_left ?_
        constructor
        · rintro rfl
          exact ⟨rfl,hd⟩
        · exact And.left

theorem join_cons {separator text other : Text} {rest : List Text} :
    join separator (text :: other :: rest) = text++separator++join separator (other :: rest) := by
  simp only [join]
  rw [List.intercalate_cons_of_ne_nil (List.cons_ne_nil _ _)]

@[simp] theorem join_singleton {separator text : Text} : join separator [text] = text := by
  simp [join]

theorem mem_join {separator : Text} {texts : List Text} {c : Char} (h : c ∈ join separator texts) :
    c ∈ separator ∨ ∃ text ∈ texts, c ∈ text := by
  induction texts with
  | nil => cases h
  | cons text rest ih =>
    cases rest with
    | nil =>
      rw [join_singleton] at h
      exact Or.inr ⟨text,List.mem_cons_self,h⟩
    | cons other rest =>
      rw [join_cons,List.mem_append,List.mem_append] at h
      rcases h with (h | h) | h
      · exact Or.inr ⟨text,List.mem_cons_self,h⟩
      · exact Or.inl h
      · exact (ih h).imp_right fun ⟨t,ht,hc⟩ => ⟨t,List.mem_cons_of_mem _ ht,hc⟩

theorem not_mem_join {separator : Text} {texts : List Text} {c : Char} (hseparator : c ∉ separator)
    (htexts : ∀ text ∈ texts, c ∉ text) : c ∉ join separator texts := fun h => by
  rcases mem_join h with h | ⟨text,htext,h⟩
  · exact hseparator h
  · exact htexts text htext h

theorem not_infix_of_mem {part text : Text} {c : Char} (hpart : c ∈ part) (htext : c ∉ text) :
    ¬ part <:+: text := fun h => htext (h.subset hpart)

theorem find_eq_none {part text : Text} (h : ¬ part <:+: text) : find part text = none := by
  induction text with
  | nil =>
    have hne : part ≠ [] := by
      rintro rfl
      exact h (List.nil_infix)
    simp [find,hne]
  | cons c rest ih =>
    have hstarts : ¬ part <+: c :: rest := fun hp => h hp.isInfix
    have hrest := ih fun hr => h (hr.trans (List.suffix_cons c rest).isInfix)
    rw [find,if_neg hstarts,hrest]
    rfl

theorem find_append {part front text : Text} (hpart : part ≠ []) (htext : part <+: text)
    (h : ∀ back, back <:+ front → back ≠ [] → ¬ part <+: back++text) :
    find part (front++text) = some front.length := by
  induction front with
  | nil =>
    cases text with
    | nil => exact absurd (List.prefix_nil.mp htext) hpart
    | cons c rest =>
      rw [List.nil_append,find,if_pos htext]
      rfl
  | cons c rest ih =>
    have hhere : ¬ part <+: c :: (rest++text) := h (c :: rest) List.suffix_rfl (List.cons_ne_nil _ _)
    have hrest := ih fun back hback => h back (hback.trans (List.suffix_cons c rest))
    rw [List.cons_append,find,if_neg hhere,hrest]
    rfl

end Text

inductive IpAddress
  | v4 (bits : BitVec 32)
  | v6 (bits : BitVec 128)
  deriving DecidableEq

namespace IpAddress

open Text

def octets (bits : BitVec 32) : List ℕ :=
  [bits.toNat/2^24,bits.toNat/2^16%256,bits.toNat/2^8%256,bits.toNat%256]

/-- `str` of an IPv4 address. -/
def dotted (bits : BitVec 32) : Text := join ['.'] ((octets bits).map decimal)

/-- One number of a dotted address: at most three digits, without a leading zero, up to 255. -/
def readOctet (text : Text) : Option ℕ :=
  if isDecimal text ∧ text.length ≤ 3 ∧ (text.length = 1 ∨ text.head? ≠ some '0') ∧
      readDecimal text ≤ 255 then
    some (readDecimal text)
  else
    none

def readV4 (text : Text) : Option (BitVec 32) :=
  match (split '.' text).map readOctet with
  | [some a,some b,some c,some d] => some (BitVec.ofNat 32 (((a*256+b)*256+c)*256+d))
  | _ => none

def hexDigit (c : Char) : Option ℕ :=
  if c.isDigit then some (c.toNat-48)
  else if 97 ≤ c.toNat ∧ c.toNat ≤ 102 then some (c.toNat-87)
  else if 65 ≤ c.toNat ∧ c.toNat ≤ 70 then some (c.toNat-55)
  else none

def readHextet (text : Text) : Option ℕ :=
  if text = [] ∨ 4 < text.length then
    none
  else
    text.foldl (fun value c => do return (← value)*16+(← hexDigit c)) (some 0)

def expandSuffix (parts : List Text) : Option (List Text) :=
  match parts.getLast? with
  | none => none
  | some last =>
      if '.' ∈ last then do
        let bits ← readV4 last
        return parts.dropLast++[Nat.toDigits 16 (bits.toNat/65536),Nat.toDigits 16 (bits.toNat%65536)]
      else
        some parts

/-- The positions of empty groups other than the first and the last. -/
def skips (parts : List Text) : List ℕ :=
  (List.range parts.length).filter fun i => 0 < i ∧ i+1 < parts.length ∧ parts[i]? = some []

/-- How many groups stand before and after the `::`. -/
def groupCounts (parts : List Text) : Option (ℕ × ℕ) :=
  match skips parts with
  | [] =>
      if parts.length = 8 ∧ parts.head? ≠ some [] ∧ parts.getLast? ≠ some [] then some (8,0) else none
  | [skip] =>
      let high := if parts.head? = some [] then skip-1 else skip
      let low := if parts.getLast? = some [] then parts.length-skip-2 else parts.length-skip-1
      if (parts.head? = some [] ∧ high ≠ 0) ∨ (parts.getLast? = some [] ∧ low ≠ 0) ∨
          8 ≤ high+low then
        none
      else
        some (high,low)
  | _ => none

def readGroups (parts : List Text) : Option ℕ :=
  parts.foldl (fun value part => do return (← value)*65536+(← readHextet part)) (some 0)

def readV6 (text : Text) : Option (BitVec 128) := do
  let address := text.takeWhile (· ≠ '%')
  let scope := text.drop address.length
  if '/' ∈ text ∨ scope = ['%'] ∨ '%' ∈ scope.tail then
    none
  else
    let parts := split ':' address
    if parts.length < 3 then
      none
    else
      let parts ← expandSuffix parts
      if 9 < parts.length then
        none
      else
        let (high,low) ← groupCounts parts
        let front ← readGroups (parts.take high)
        let back ← readGroups (parts.drop (parts.length-low))
        return BitVec.ofNat 128 (front*65536^(8-high)+back)

/-- `ip_address(text)`. -/
def read (text : Text) : Option IpAddress :=
  match readV4 text with
  | some bits => some (.v4 bits)
  | none => (readV6 text).map .v6

theorem mem_octets_lt {bits : BitVec 32} {n : ℕ} (h : n ∈ octets bits) : n < 256 := by
  have hlt := bits.isLt
  simp only [octets,List.mem_cons,List.not_mem_nil,or_false] at h
  omega

set_option maxRecDepth 4000 in
theorem readOctet_decimal {n : ℕ} (h : n < 256) : readOctet (decimal n) = some n := by
  revert h
  revert n
  decide

theorem dot_not_mem_decimal (n : ℕ) : '.' ∉ decimal n := fun h => by
  have hdigit := isDigit_of_mem_decimal h
  revert hdigit
  decide

theorem readV4_dotted (bits : BitVec 32) : readV4 (dotted bits) = some bits := by
  have hsplit : split '.' (dotted bits) = (octets bits).map decimal := by
    refine split_join (by simp [octets]) fun text htext => ?_
    obtain ⟨n,-,rfl⟩ := List.mem_map.mp htext
    exact dot_not_mem_decimal n
  have hread : ∀ n ∈ octets bits, readOctet (decimal n) = some n := fun n hn =>
    readOctet_decimal (mem_octets_lt hn)
  have hlt := bits.isLt
  have hmap : (octets bits).map (readOctet ∘ decimal) = (octets bits).map some :=
    List.map_congr_left hread
  rw [readV4,hsplit,List.map_map,hmap]
  simp only [octets,List.map_cons,List.map_nil]
  congr 1
  apply BitVec.eq_of_toNat_eq
  rw [BitVec.toNat_ofNat]
  omega

theorem read_dotted (bits : BitVec 32) : read (dotted bits) = some (.v4 bits) := by
  rw [read,readV4_dotted]

theorem mem_dotted {bits : BitVec 32} {c : Char} (h : c ∈ dotted bits) :
    c.isDigit = true ∨ c = '.' := by
  rcases mem_join h with h | ⟨text,htext,hc⟩
  · exact Or.inr (List.mem_singleton.mp h)
  · obtain ⟨n,-,rfl⟩ := List.mem_map.mp htext
    exact Or.inl (isDigit_of_mem_decimal hc)

theorem mem_of_readV4 {text : Text} {bits : BitVec 32} (h : readV4 text = some bits) {c : Char}
    (hc : c ∈ text) : c.isDigit = true ∨ c = '.' := by
  have hoctet : ∀ part ∈ split '.' text, (readOctet part).isSome = true := by
    unfold readV4 at h
    split at h
    · next hparts =>
      intro part hpart
      have hmem := List.mem_map_of_mem (f:=readOctet) hpart
      rw [hparts] at hmem
      simp only [List.mem_cons,List.not_mem_nil,or_false] at hmem
      rcases hmem with h | h | h | h <;> rw [h] <;> rfl
    · cases h
  have hjoin : join ['.'] (split '.' text) = text := List.intercalate_splitOn '.'
  rw [← hjoin] at hc
  rcases mem_join hc with h | ⟨part,hpart,hmem⟩
  · exact Or.inr (List.mem_singleton.mp h)
  · have hdecimal : isDecimal part = true := by
      have hsome := hoctet part hpart
      unfold readOctet at hsome
      split at hsome
      · next hread => exact hread.1
      · cases hsome
    simp only [isDecimal,decide_eq_true_eq,List.all_eq_true] at hdecimal
    exact Or.inl (hdecimal.2 c hmem)

theorem dotted_ne_nil (bits : BitVec 32) : dotted bits ≠ [] := by
  intro h
  have hread := readV4_dotted bits
  have hnil : readV4 [] = none := by decide
  rw [h,hnil] at hread
  cases hread

theorem isSpace_of_mem_dotted {bits : BitVec 32} {c : Char} (h : c ∈ dotted bits) :
    isSpace c = false := by
  rcases mem_dotted h with h | rfl
  · exact isSpace_of_isDigit h
  · decide

theorem dotted_length_le (bits : BitVec 32) : (dotted bits).length ≤ 15 := by
  have hlength : ∀ n ∈ octets bits, (decimal n).length ≤ 3 := fun n hn =>
    decimal_length_le (by omega) (lt_trans (mem_octets_lt hn) (by norm_num))
  simp only [octets,List.forall_mem_cons] at hlength
  simp only [dotted,join,octets,List.map_cons,List.map_nil,List.intercalate,List.intersperse,
    List.flatten_cons,List.flatten_nil,List.length_append,List.length_singleton,List.length_nil]
  omega

end IpAddress
end FakeNetNG
