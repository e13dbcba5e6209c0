import FakeNetNG.Base64
import FakeNetNG.JsonTokens

/-!
# The data of the payload report

`safe_json_dumps` writes the model of the report as JSON and then replaces five characters in the whole
text by their escapes. `inert_render` moves the replacements into the strings: no other part of the text
has one of these characters, so they only change how the characters of the strings are escaped.
-/

namespace FakeNetNG
namespace ReportJson

open Json (FloatText quote backslash floatWords)
open JsonTokens

/-- A value of the model. The keys of a mapping are given as `str` makes them. -/
inductive PyValue
  | none
  | bool (b : Bool)
  | int (n : ℤ)
  | float (f : FloatText)
  | str (s : PyText)
  | bytes (raw : List UInt8)
  /-- A list, a tuple or a set. -/
  | items (values : List PyValue)
  | dict (members : List (PyText × PyValue))
  /-- Anything else, with its `str`. -/
  | other (text : PyText)

def setMember (name : PyText) (v : Value) : List (PyText × Value) → List (PyText × Value)
  | [] => [(name,v)]
  | m :: members => if m.1 = name then (name,v) :: members else m :: setMember name v members

def payloadReportEncoding : PyText := ofText "base64".toList

mutual

def jsonSafe : PyValue → Value
  | .none => .lit .null
  | .bool b => .lit (.bool b)
  | .int n => .lit (.int n)
  | .float f => .lit (.float f)
  | .str s => .str s
  | .bytes raw => .obj [(ofText "encoding".toList,.str payloadReportEncoding),
      (ofText "value".toList,.str (ofText (Base64.plainEncode raw)))]
  | .items values => .arr (jsonSafeItems values)
  | .dict members => .obj (jsonSafeMembers members [])
  | .other text => .str text

def jsonSafeItems : List PyValue → List Value
  | [] => []
  | v :: values => jsonSafe v :: jsonSafeItems values

def jsonSafeMembers : List (PyText × PyValue) → List (PyText × Value) → List (PyText × Value)
  | [],safe => safe
  | (name,v) :: members,safe => jsonSafeMembers members (setMember name (jsonSafe v) safe)

end

/-- With `allow_nan=False` a float that is not a number or not finite raises. -/
def allowed : Token → Bool
  | .lit (.float f) => !floatWords.contains f.text
  | _ => true

/-- `json.dumps` with the arguments of `safe_json_dumps`. -/
def dumps (v : Value) : Option PyText := if (tokens v).all allowed then some (write v) else none

/-- `str.replace` for a pattern of one character. -/
def replace (c : Char) (word : Text) (text : PyText) : PyText :=
  text.flatMap fun d => if d = .scalar c then ofText word else [d]

def lineSeparator : Char := Char.ofNat 0x2028

def paragraphSeparator : Char := Char.ofNat 0x2029

def safeJsonDumps (v : PyValue) : Option PyText :=
  (dumps (jsonSafe v)).map fun encoded =>
    replace paragraphSeparator "\\u2029".toList (replace lineSeparator "\\u2028".toList
      (replace '>' "\\u003e".toList (replace '<' "\\u003c".toList (replace '&' "\\u0026".toList encoded))))

/-- The characters that the report must not hold. -/
def active : List Char := ['&','<','>',lineSeparator,paragraphSeparator]

/-- A character after all five replacements. -/
def inertChar : PyChar → PyText
  | .scalar c => if c ∈ active then ofText (backslash :: 'u' :: hexText c) else [.scalar c]
  | .surrogate n => [.surrogate n]

def inert (text : PyText) : PyText := text.flatMap inertChar

theorem inertChar_active : ∀ c ∈ active, inertChar (.scalar c) = ofText (backslash :: 'u' :: hexText c) := by
  decide

theorem inertChar_eq_self {c : PyChar} (hc : ∀ d ∈ active, c ≠ .scalar d) : inertChar c = [c] := by
  cases c with
  | surrogate n => rfl
  | scalar c =>
    have hactive : c ∉ active := fun h => hc c h rfl
    rw [inertChar,if_neg hactive]

theorem inert_eq_self {text : PyText} (htext : ∀ c ∈ text, ∀ d ∈ active, c ≠ .scalar d) : inert text = text := by
  induction text with
  | nil => rfl
  | cons c text ih =>
    have hrest := ih fun d hd => htext d (by simp [hd])
    rw [inert] at hrest ⊢
    rw [List.flatMap_cons,hrest,inertChar_eq_self (htext c (by simp))]
    rfl

theorem replace_active : ∀ c ∈ active,
    replace paragraphSeparator "\\u2029".toList (replace lineSeparator "\\u2028".toList
      (replace '>' "\\u003e".toList (replace '<' "\\u003c".toList (replace '&' "\\u0026".toList [.scalar c])))) =
        inertChar (.scalar c) := by
  decide

theorem replace_other {c : Char} {word : Text} {d : PyChar} (h : d ≠ .scalar c) : replace c word [d] = [d] := by
  simp [replace,h]

theorem replace_cons (c : Char) (word : Text) (d : PyChar) (text : PyText) :
    replace c word (d :: text) = replace c word [d]++replace c word text := by
  simp [replace]

theorem replace_append (c : Char) (word : Text) (front rest : PyText) :
    replace c word (front++rest) = replace c word front++replace c word rest := by
  simp [replace]

theorem replace_eq_inert (text : PyText) :
    replace paragraphSeparator "\\u2029".toList (replace lineSeparator "\\u2028".toList
      (replace '>' "\\u003e".toList (replace '<' "\\u003c".toList (replace '&' "\\u0026".toList text)))) =
        inert text := by
  induction text with
  | nil => rfl
  | cons d text ih =>
    rw [replace_cons '&',replace_append '<',replace_append '>',replace_append lineSeparator,
      replace_append paragraphSeparator,ih,inert,inert,List.flatMap_cons]
    congr 1
    by_cases hd : ∃ c ∈ active, d = .scalar c
    · obtain ⟨c,hc,rfl⟩ := hd
      exact replace_active c hc
    · have hne : ∀ c ∈ active, d ≠ .scalar c := fun c hc h => hd ⟨c,hc,h⟩
      rw [replace_other (hne '&' (by decide)),replace_other (hne '<' (by decide)),
        replace_other (hne '>' (by decide)),replace_other (hne lineSeparator (by decide)),
        replace_other (hne paragraphSeparator (by decide)),inertChar_eq_self hne]

theorem active_notMem_inert (text : PyText) : ∀ c ∈ active, .scalar c ∉ inert text := by
  have hescape : ∀ a ∈ active, ∀ c ∈ active, PyChar.scalar c ∉ inertChar (.scalar a) := by decide
  intro c hc hmem
  obtain ⟨d,-,hd⟩ := List.mem_flatMap.mp hmem
  by_cases hactive : ∃ a ∈ active, d = .scalar a
  · obtain ⟨a,ha,rfl⟩ := hactive
    exact hescape a ha c hc hd
  · have hne : ∀ a ∈ active, d ≠ .scalar a := fun a ha h => hactive ⟨a,ha,h⟩
    rw [inertChar_eq_self hne,List.mem_singleton] at hd
    exact hne c hc hd.symm

def inertEscape (c : PyChar) : PyText := inert (escape c)

theorem inert_append (front rest : PyText) : inert (front++rest) = inert front++inert rest := by
  simp [inert]

theorem isLiteralChar_active : ∀ c ∈ active, isLiteralChar (.scalar c) = false := by decide

theorem inert_text_of_literal {text : PyText} (htext : ∀ c ∈ text, isLiteralChar c = true) : inert text = text := by
  refine inert_eq_self fun c hc d hd heq => ?_
  have hliteral := htext c hc
  rw [heq,isLiteralChar_active d hd] at hliteral
  cases hliteral

theorem inert_token (t : Token) : inert (t.text escape) = t.text inertEscape := by
  cases t with
  | punct p => cases p <;> decide
  | str s =>
    have hquote : inertChar (.scalar quote) = [.scalar quote] := by decide
    have hchars : inert (s.flatMap escape) = s.flatMap inertEscape := List.flatMap_assoc
    rw [Token.text,Token.text,inert_append,← hchars]
    simp [inert,hquote]
  | lit l =>
    rw [Token.text,Token.text]
    refine inert_text_of_literal fun c hc => ?_
    obtain ⟨d,hd,rfl⟩ := List.mem_map.mp hc
    exact (literal_text l).2 d hd

theorem inert_render (ts : List Token) : inert (render escape ts) = render inertEscape ts := by
  induction ts with
  | nil => rfl
  | cons t ts ih =>
    rw [render] at ih ⊢
    rw [List.flatMap_cons,inert_append,inert_token,ih]
    rfl

theorem hexDigit_isLiteralChar : ∀ n < 16, isLiteralChar (.scalar (Json.hexDigit n)) = true := by decide

theorem escape_cases (c : PyChar) :
    inertEscape c = escape c ∨ (∃ a ∈ active, c = .scalar a ∧ inertEscape c = inertChar (.scalar a)) := by
  by_cases hactive : ∃ a ∈ active, c = .scalar a
  · obtain ⟨a,ha,rfl⟩ := hactive
    have hescape : ∀ a ∈ active, inertEscape (.scalar a) = inertChar (.scalar a) := by decide
    exact .inr ⟨a,ha,rfl,hescape a ha⟩
  · refine .inl ?_
    cases c with
    | surrogate n => rfl
    | scalar c =>
      have hletters : ∀ e ∈ Json.escapeLetters, inert (ofText [backslash,e.2]) = ofText [backslash,e.2] := by decide
      rw [inertEscape,escape]
      obtain ⟨e,he,-,hescape⟩ | ⟨hcontrol,hescape⟩ | ⟨-,-,-,hescape⟩ := escapeChar_cases c
      · rw [hescape]
        exact hletters e he
      · have hhex : inert (ofText (hexText c)) = ofText (hexText c) := by
          refine inert_text_of_literal fun d hd => ?_
          simp only [ofText,hexText,List.map_cons,List.map_nil,List.mem_cons,List.not_mem_nil,or_false] at hd
          obtain rfl | rfl | rfl | rfl := hd
          · exact hexDigit_isLiteralChar _ (by omega)
          · exact hexDigit_isLiteralChar _ (by omega)
          · exact hexDigit_isLiteralChar _ (by omega)
          · exact hexDigit_isLiteralChar _ (by omega)
        have hstart : inert (ofText [backslash,'u']) = ofText [backslash,'u'] := by decide
        rw [hescape]
        show inert (ofText [backslash,'u']++ofText (hexText c)) = ofText [backslash,'u']++ofText (hexText c)
        rw [inert_append,hstart,hhex]
      · rw [hescape]
        refine inert_eq_self fun d hd a ha heq => hactive ⟨a,ha,?_⟩
        have hself : d = .scalar c := by simpa [ofText] using hd
        rw [← hself,heq]

theorem reads_inertEscape : Reads inertEscape := by
  refine ⟨fun c fuel rest => ?_,fun c => ?_⟩
  · obtain hsame | ⟨a,ha,rfl,hescape⟩ := escape_cases c
    · rw [hsame]
      exact reads_escape.char c fuel rest
    · have hvalue : ∀ a ∈ active, a.toNat < 0xd800 := by decide
      rw [hescape,inertChar_active a ha]
      exact readChars_escaped (ofText ('u' :: hexText a)) fuel (readEscape_hex (hvalue a ha) rest)
  · obtain hsame | ⟨a,ha,-,hescape⟩ := escape_cases c
    · rw [hsame]
      exact reads_escape.ne_nil c
    · rw [hescape,inertChar_active a ha]
      exact List.cons_ne_nil _ _

/-- What a reader of the page takes for the end of the element: it begins with `<`. -/
structure EndTag where
  recognises : PyText → Bool
  opens : ∀ text, recognises text = true → text.head? = some (.scalar '<')

def EndTag.element (tag : EndTag) : PyText → PyText
  | [] => []
  | c :: rest => if tag.recognises (c :: rest) then [] else c :: tag.element rest

theorem EndTag.element_append (tag : EndTag) {text rest : PyText} (htext : .scalar '<' ∉ text)
    (hrest : tag.recognises rest = true) : tag.element (text++rest) = text := by
  induction text with
  | nil =>
    cases rest with
    | nil => rfl
    | cons c rest => simp [EndTag.element,hrest]
  | cons c text ih =>
    obtain ⟨hc,htail⟩ : PyChar.scalar '<' ≠ c ∧ PyChar.scalar '<' ∉ text := by simpa using htext
    have hgoes : tag.recognises (c :: (text++rest)) = false := by
      cases hend : tag.recognises (c :: (text++rest)) with
      | false => rfl
      | true => exact absurd (Option.some.inj (tag.opens _ hend)).symm hc
    rw [List.cons_append,EndTag.element,hgoes,ih htail]
    rfl

/-- The data of the report holds none of the five characters, ends where the page ends it and reads
back as the data that was written. -/
theorem report_json_inert (v : PyValue) {out : PyText} (hout : safeJsonDumps v = some out) :
    (∀ c ∈ ['<','>','&',Char.ofNat 0x2028,Char.ofNat 0x2029], .scalar c ∉ out) ∧
    (∃ encoded, dumps (jsonSafe v) = some encoded ∧ loads encoded = some (jsonSafe v) ∧ loads out = loads encoded) ∧
    ∀ (tag : EndTag) (rest : PyText), tag.recognises rest = true → tag.element (out++rest) = out := by
  obtain ⟨encoded,hencoded,rfl⟩ := Option.map_eq_some_iff.mp hout
  have hwrite : encoded = write (jsonSafe v) := by
    rw [dumps] at hencoded
    split at hencoded
    · exact (Option.some.inj hencoded).symm
    · cases hencoded
  rw [replace_eq_inert]
  have hclean := active_notMem_inert encoded
  refine ⟨fun c hc => hclean c ?_,⟨encoded,hencoded,?_,?_⟩,fun tag rest hrest => ?_⟩
  · have hperm : ∀ c ∈ ['<','>','&',Char.ofNat 0x2028,Char.ofNat 0x2029], c ∈ active := by decide
    exact hperm c hc
  · rw [hwrite]
    exact loads_render reads_escape (jsonSafe v)
  · rw [hwrite,write,inert_render,loads_render reads_inertEscape,loads_render reads_escape]
  · exact tag.element_append (hclean '<' (by decide)) hrest

/-- A process name that would end the element. -/
def hostileModel : PyValue :=
  .dict [(ofText "process".toList,.str (ofText "</script>&\\".toList)),(ofText "payload".toList,.bytes [251,255])]

/-- The end tag without its closing bracket. -/
def plainTag : EndTag :=
  ⟨fun text => decide (ofText "</script".toList <+: text),fun text htext => by
    obtain ⟨rest,rfl⟩ := of_decide_eq_true htext
    rfl⟩

theorem report_json_inert_example : ∃ out, safeJsonDumps hostileModel = some out ∧ PyChar.scalar '<' ∉ out ∧
    loads out = some (jsonSafe hostileModel) ∧ plainTag.element (out++ofText "</script>".toList) = out := by
  have hsome : (safeJsonDumps hostileModel).isSome = true := by decide
  obtain ⟨out,hout⟩ := Option.isSome_iff_exists.mp hsome
  obtain ⟨hclean,⟨encoded,-,hplain,hsame⟩,hend⟩ := report_json_inert hostileModel hout
  exact ⟨out,hout,hclean '<' (by decide),hsame.trans hplain,hend plainTag _ (by decide)⟩

end ReportJson
end FakeNetNG
