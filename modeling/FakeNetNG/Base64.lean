import Mathlib.Data.List.DropRight
import Mathlib.Tactic

/-!
# Base64 with the URL-safe alphabet

Three bytes become four characters. The decoder reads characters one at a time, skips those
that are not of the alphabet and stops at a padding that completes a group, as the binary
module of the standard library does when it is not strict.
-/

namespace FakeNetNG
namespace Base64

def alphabet : List Char :=
  "ABCDEFGHIJKLMNOPQRSTUVWXYZabcdefghijklmnopqrstuvwxyz0123456789-_".toList

def symbol (n : ℕ) : Char := alphabet.getD n 'A'

/-- The value of a character; those of the plain alphabet are read as well. -/
def value (c : Char) : Option ℕ :=
  if c = '+' then some 62
  else if c = '/' then some 63
  else if c ∈ alphabet then some (alphabet.idxOf c)
  else none

def encode : List UInt8 → List Char
  | [] => []
  | [a] => [symbol (a.toNat/4),symbol (a.toNat%4*16),'=','=']
  | [a,b] =>
      [symbol (a.toNat/4),symbol (a.toNat%4*16+b.toNat/16),symbol (b.toNat%16*4),'=']
  | a :: b :: c :: rest =>
      symbol (a.toNat/4) :: symbol (a.toNat%4*16+b.toNat/16) ::
        symbol (b.toNat%16*4+c.toNat/64) :: symbol (c.toNat%64) :: encode rest

/-- `b64encode`, which has `+` and `/` in the last two places of the alphabet. -/
def plainEncode (raw : List UInt8) : List Char :=
  (encode raw).map fun c => if c = '-' then '+' else if c = '_' then '/' else c

/-- The decoder in the middle of a group: how many of its characters were read, the bits that
are left of them, and the padding characters seen. -/
def decodeFrom : List Char → ℕ → ℕ → ℕ → List UInt8 → Option (List UInt8)
  | [],position,_,_,out => if position = 0 then some out else none
  | c :: rest,position,left,pads,out =>
      if c = '=' then
        if 2 ≤ position ∧ 4 ≤ position+(pads+1) then
          some out
        else
          decodeFrom rest position left (if 2 ≤ position then pads+1 else pads) out
      else
        match value c with
        | none => decodeFrom rest position left pads out
        | some v =>
            if position = 0 then
              decodeFrom rest 1 v 0 out
            else if position = 1 then
              decodeFrom rest 2 (v%16) 0 (out++[UInt8.ofNat (left*4+v/16)])
            else if position = 2 then
              decodeFrom rest 3 (v%4) 0 (out++[UInt8.ofNat (left*16+v/4)])
            else
              decodeFrom rest 0 0 0 (out++[UInt8.ofNat (left*64+v)])

/-- A text with a character outside ASCII is not decoded at all. -/
def decode (text : List Char) : Option (List UInt8) :=
  if text.all fun c => c.toNat < 128 then decodeFrom text 0 0 0 [] else none

set_option maxRecDepth 4000 in
theorem symbol_spec : ∀ n < 64, value (symbol n) = some n ∧ symbol n ≠ '=' ∧ (symbol n).toNat < 128 := by
  decide

theorem value_symbol {n : ℕ} (h : n < 64) : value (symbol n) = some n := (symbol_spec n h).1

theorem symbol_ne_padding {n : ℕ} (h : n < 64) : symbol n ≠ '=' := (symbol_spec n h).2.1

theorem symbol_ascii {n : ℕ} (h : n < 64) : (symbol n).toNat < 128 := (symbol_spec n h).2.2

section Groups

variable {position left pads : ℕ} {out : List UInt8} {rest : List Char}

theorem decodeFrom_symbol {n : ℕ} (h : n < 64) :
    decodeFrom (symbol n :: rest) position left pads out =
      if position = 0 then
        decodeFrom rest 1 n 0 out
      else if position = 1 then
        decodeFrom rest 2 (n%16) 0 (out++[UInt8.ofNat (left*4+n/16)])
      else if position = 2 then
        decodeFrom rest 3 (n%4) 0 (out++[UInt8.ofNat (left*16+n/4)])
      else
        decodeFrom rest 0 0 0 (out++[UInt8.ofNat (left*64+n)]) := by
  rw [decodeFrom,if_neg (symbol_ne_padding h),value_symbol h]

theorem first_byte (a : UInt8) (n : ℕ) (h : n < 16) :
    UInt8.ofNat (a.toNat/4*4+(a.toNat%4*16+n)/16) = a := by
  have he : a.toNat/4*4+(a.toNat%4*16+n)/16 = a.toNat := by omega
  rw [he,UInt8.ofNat_toNat]

theorem second_byte (a b : UInt8) (n : ℕ) (h : n < 4) :
    UInt8.ofNat ((a.toNat%4*16+b.toNat/16)%16*16+(b.toNat%16*4+n)/4) = b := by
  have hb := b.toNat_lt
  have he : (a.toNat%4*16+b.toNat/16)%16*16+(b.toNat%16*4+n)/4 = b.toNat := by omega
  rw [he,UInt8.ofNat_toNat]

theorem third_byte (b c : UInt8) :
    UInt8.ofNat ((b.toNat%16*4+c.toNat/64)%4*64+c.toNat%64) = c := by
  have hc := c.toNat_lt
  have he : (b.toNat%16*4+c.toNat/64)%4*64+c.toNat%64 = c.toNat := by omega
  rw [he,UInt8.ofNat_toNat]

end Groups

theorem decodeFrom_encode (raw out : List UInt8) :
    decodeFrom (encode raw) 0 0 0 out = some (out++raw) := by
  induction raw using encode.induct generalizing out with
  | case1 => simp [encode,decodeFrom]
  | case2 a =>
    have ha := a.toNat_lt
    have hbyte := first_byte a 0 (by omega)
    rw [encode,decodeFrom_symbol (by omega),if_pos rfl,decodeFrom_symbol (by omega)]
    rw [Nat.add_zero] at hbyte
    rw [if_neg (by omega),if_pos rfl,hbyte]
    rfl
  | case3 a b =>
    have ha := a.toNat_lt
    have hb := b.toNat_lt
    have hfirst := first_byte a (b.toNat/16) (by omega)
    have hsecond := second_byte a b 0 (by omega)
    rw [encode,decodeFrom_symbol (by omega),if_pos rfl,decodeFrom_symbol (by omega),
      if_neg (by omega),if_pos rfl,decodeFrom_symbol (by omega)]
    rw [Nat.add_zero] at hsecond
    rw [if_neg (by omega),if_neg (by omega),if_pos rfl,hfirst,hsecond,List.append_assoc]
    rfl
  | case4 a b c rest ih =>
    have ha := a.toNat_lt
    have hb := b.toNat_lt
    have hc := c.toNat_lt
    have hfirst := first_byte a (b.toNat/16) (by omega)
    have hsecond := second_byte a b (c.toNat/64) (by omega)
    have hthird := third_byte b c
    rw [encode,decodeFrom_symbol (by omega),if_pos rfl,decodeFrom_symbol (by omega),
      if_neg (by omega),if_pos rfl,decodeFrom_symbol (by omega),if_neg (by omega),
      if_neg (by omega),if_pos rfl,decodeFrom_symbol (by omega),if_neg (by omega),
      if_neg (by omega),if_neg (by omega),ih,hfirst,hsecond,hthird]
    simp only [List.append_assoc,List.cons_append,List.nil_append]

theorem encode_ascii (raw : List UInt8) : (encode raw).all (fun c => c.toNat < 128) = true := by
  induction raw using encode.induct with
  | case1 => rfl
  | case2 a =>
    have ha := a.toNat_lt
    simp [encode,symbol_ascii (n:=a.toNat/4) (by omega),symbol_ascii (n:=a.toNat%4*16) (by omega)]
  | case3 a b =>
    have ha := a.toNat_lt
    have hb := b.toNat_lt
    simp [encode,symbol_ascii (n:=a.toNat/4) (by omega),
      symbol_ascii (n:=a.toNat%4*16+b.toNat/16) (by omega),
      symbol_ascii (n:=b.toNat%16*4) (by omega)]
  | case4 a b c rest ih =>
    have ha := a.toNat_lt
    have hb := b.toNat_lt
    have hc := c.toNat_lt
    simp only [encode,List.all_cons,ih,symbol_ascii (n:=a.toNat/4) (by omega),
      symbol_ascii (n:=a.toNat%4*16+b.toNat/16) (by omega),
      symbol_ascii (n:=b.toNat%16*4+c.toNat/64) (by omega),
      symbol_ascii (n:=c.toNat%64) (by omega)]
    rfl

theorem decode_encode (raw : List UInt8) : decode (encode raw) = some raw := by
  rw [decode,if_pos (encode_ascii raw),decodeFrom_encode]
  rfl

/-- `text.rstrip('=')`. -/
def strip (text : List Char) : List Char := text.rdropWhile fun c => c = '='

/-- `body + '=' * (-len(body) % 4)`. -/
def pad (body : List Char) : List Char := body++List.replicate ((4-body.length%4)%4) '='

theorem encode_shape (raw : List UInt8) :
    ∃ body, encode raw = body++List.replicate ((4-body.length%4)%4) '=' ∧ ∀ c ∈ body, c ≠ '=' := by
  induction raw using encode.induct with
  | case1 => exact ⟨[],rfl,by simp⟩
  | case2 a =>
    have ha := a.toNat_lt
    refine ⟨[symbol (a.toNat/4),symbol (a.toNat%4*16)],rfl,?_⟩
    simp [symbol_ne_padding (n:=a.toNat/4) (by omega),symbol_ne_padding (n:=a.toNat%4*16) (by omega)]
  | case3 a b =>
    have ha := a.toNat_lt
    have hb := b.toNat_lt
    refine ⟨[symbol (a.toNat/4),symbol (a.toNat%4*16+b.toNat/16),symbol (b.toNat%16*4)],rfl,?_⟩
    simp [symbol_ne_padding (n:=a.toNat/4) (by omega),
      symbol_ne_padding (n:=a.toNat%4*16+b.toNat/16) (by omega),
      symbol_ne_padding (n:=b.toNat%16*4) (by omega)]
  | case4 a b c rest ih =>
    have ha := a.toNat_lt
    have hb := b.toNat_lt
    have hc := c.toNat_lt
    obtain ⟨body,hbody,hplain⟩ := ih
    refine ⟨symbol (a.toNat/4) :: symbol (a.toNat%4*16+b.toNat/16) ::
      symbol (b.toNat%16*4+c.toNat/64) :: symbol (c.toNat%64) :: body,?_,?_⟩
    · have hlength : (4-(body.length+1+1+1+1)%4)%4 = (4-body.length%4)%4 := by omega
      simp only [encode,List.length_cons,hlength,List.cons_append,hbody]
    · simp only [List.mem_cons]
      rintro d (rfl | rfl | rfl | rfl | hd)
      · exact symbol_ne_padding (by omega)
      · exact symbol_ne_padding (by omega)
      · exact symbol_ne_padding (by omega)
      · exact symbol_ne_padding (by omega)
      · exact hplain d hd

theorem strip_append_replicate {body : List Char} (h : ∀ c ∈ body, c ≠ '=') (n : ℕ) :
    strip (body++List.replicate n '=') = body := by
  induction n with
  | zero =>
    rw [List.replicate_zero,List.append_nil,strip,List.rdropWhile_eq_self_iff]
    intro hne
    simpa using h _ (List.getLast_mem hne)
  | succ n ih =>
    rw [List.replicate_succ',← List.append_assoc,strip,List.rdropWhile_concat_pos _ _ _ (by simp)]
    exact ih

theorem pad_strip_encode (raw : List UInt8) : pad (strip (encode raw)) = encode raw := by
  obtain ⟨body,hbody,hplain⟩ := encode_shape raw
  have hstrip : strip (encode raw) = body := by
    rw [hbody]
    exact strip_append_replicate hplain _
  rw [hstrip,pad,← hbody]

theorem decode_pad_strip (raw : List UInt8) : decode (pad (strip (encode raw))) = some raw := by
  rw [pad_strip_encode,decode_encode]

end Base64
end FakeNetNG
