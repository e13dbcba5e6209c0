import FakeNetNG.IpText

/-!
# Texts as bytes

UTF-8 as a function between texts and bytes, and where the line ends are in it.
-/

namespace FakeNetNG
namespace Utf8

def encode (text : Text) : List UInt8 := text.flatMap String.utf8EncodeChar

/-- `bytes.decode('utf-8')`. -/
def decode (bytes : List UInt8) : Option Text := bytes.toByteArray.utf8Decode?.map Array.toList

theorem toByteArray_encode (text : Text) : (encode text).toByteArray = text.utf8Encode := rfl

theorem decode_encode (text : Text) : decode (encode text) = some text := by
  rw [decode,toByteArray_encode,List.utf8Decode?_utf8Encode]
  simp

theorem encode_of_decode {bytes : List UInt8} {text : Text} (h : decode bytes = some text) :
    bytes = encode text := by
  obtain ⟨chars,hchars,rfl⟩ := Option.map_eq_some_iff.mp h
  have hsome : (bytes.toByteArray.utf8Decode?).isSome := by rw [hchars]; rfl
  have hbytes := ByteArray.utf8Encode_get_utf8Decode? (h:=hsome)
  simp only [hchars,Option.get_some] at hbytes
  have hlist := congrArg (fun b : ByteArray => b.data.toList) hbytes
  simpa [List.utf8Encode,encode] using hlist.symm

@[simp] theorem encode_append (s t : Text) : encode (s++t) = encode s++encode t := List.flatMap_append

@[simp] theorem encode_nil : encode [] = [] := rfl

/-- The line end. -/
def newline : UInt8 := 10

theorem encode_newline : encode ['\n'] = [newline] := by decide

theorem newline_mem_encodeChar {c : Char} : newline ∈ String.utf8EncodeChar c ↔ c = '\n' := by
  constructor
  · intro h
    obtain ⟨i,hi,hbyte⟩ := List.getElem_of_mem h
    have hfirst : ((String.utf8EncodeChar c)[i]).IsUTF8FirstByte := by
      rw [hbyte]
      decide
    obtain rfl := UInt8.isUTF8FirstByte_getElem_utf8EncodeChar.mp hfirst
    obtain ⟨rest,hrest⟩ : ∃ rest, String.utf8EncodeChar c = newline :: rest := by
      cases hc : String.utf8EncodeChar c with
      | nil => simp [hc] at hi
      | cons b rest => exact ⟨rest,by simp [← hbyte,hc]⟩
    have hread := ByteArray.utf8DecodeChar?_utf8EncodeChar_append (b:=ByteArray.empty) (c:=c)
    have hread' := ByteArray.utf8DecodeChar?_utf8EncodeChar_append (b:=rest.toByteArray) (c:= '\n')
    have heq : (String.utf8EncodeChar c).toByteArray++ByteArray.empty =
        (String.utf8EncodeChar '\n').toByteArray++rest.toByteArray := by
      rw [hrest,ByteArray.append_empty,← List.toByteArray_append]
      rfl
    rw [heq,hread'] at hread
    exact (Option.some.inj hread).symm
  · rintro rfl
    decide

theorem count_encode (text : Text) : (encode text).count newline = text.count '\n' := by
  induction text with
  | nil => rfl
  | cons c text ih =>
    rw [encode,List.flatMap_cons,List.count_append,← encode,ih,List.count_cons]
    by_cases hc : c = '\n'
    · subst hc
      have hone : (String.utf8EncodeChar '\n').count newline = 1 := by decide
      simp [hone,Nat.add_comm]
    · have hzero : (String.utf8EncodeChar c).count newline = 0 :=
        List.count_eq_zero_of_not_mem fun h => hc (newline_mem_encodeChar.mp h)
      simp [hzero,hc]

theorem encode_injective {s t : Text} (h : encode s = encode t) : s = t := by
  have hs := decode_encode s
  rw [h,decode_encode t] at hs
  exact (Option.some.inj hs).symm

/-- The lines, each with its end. -/
def unlines (lines : List Text) : Text := lines.flatMap (·++['\n'])

/-- `text.split('\n')[:-1]`. -/
def linesOf (text : Text) : List Text := (Text.split '\n' text).dropLast

theorem length_linesOf (text : Text) : (linesOf text).length = text.count '\n' := by
  have hsplit : (Text.split '\n' text).length = text.count '\n'+1 := by
    unfold Text.split
    induction text with
    | nil => rfl
    | cons c text ih =>
      rw [List.splitOn_cons_eq_if_modifyHead,List.count_cons]
      split <;> simp [ih]
  rw [linesOf,List.length_dropLast,hsplit,Nat.add_sub_cancel]

theorem linesOf_unlines {lines : List Text} (h : ∀ line ∈ lines, '\n' ∉ line) :
    linesOf (unlines lines) = lines := by
  have hsplit : Text.split '\n' (unlines lines) = lines++[[]] := by
    unfold Text.split
    induction lines with
    | nil => rfl
    | cons line lines ih =>
      have htext : unlines (line :: lines) = line++ '\n' :: unlines lines := by simp [unlines]
      rw [htext,List.splitOn_append_cons_self_of_not_mem (h line (by simp)),
        ih fun l hl => h l (by simp [hl])]
      rfl
  rw [linesOf,hsplit,List.dropLast_concat]

/-- What an append that may fail leaves of a line. -/
structure Torn where
  line : List UInt8
  chunk : List UInt8
  oneLine : newline ∉ line
  isPrefix : chunk <+: line++[newline]

namespace Torn

def Whole (t : Torn) : Prop := t.chunk = t.line++[newline]

theorem count_chunk (t : Torn) : t.chunk.count newline ≤ 1 ∧ (t.chunk.count newline = 1 → t.Whole) := by
  have hline : t.line.count newline = 0 := List.count_eq_zero_of_not_mem t.oneLine
  obtain hwhole | hpart := List.prefix_concat_iff.mp t.isPrefix
  · exact ⟨by simp [hwhole,hline],fun _ => hwhole⟩
  · have hzero : t.chunk.count newline = 0 :=
      List.count_eq_zero_of_not_mem fun h => t.oneLine (hpart.subset h)
    exact ⟨by omega,fun h => by omega⟩

theorem whole_of_count (torn : List Torn) (h : torn.length ≤ (torn.flatMap Torn.chunk).count newline) :
    ∀ t ∈ torn, t.Whole := by
  have hle : ∀ torn : List Torn, (torn.flatMap Torn.chunk).count newline ≤ torn.length := by
    intro torn
    induction torn with
    | nil => simp
    | cons t torn ih =>
      have ht := t.count_chunk.1
      rw [List.flatMap_cons,List.count_append,List.length_cons]
      omega
  induction torn with
  | nil => simp
  | cons t torn ih =>
    have hcount := t.count_chunk
    have hrest := hle torn
    rw [List.flatMap_cons,List.count_append,List.length_cons] at h
    intro t' ht'
    obtain rfl | ht' := List.mem_cons.mp ht'
    · exact hcount.2 (by omega)
    · exact ih (by omega) t' ht'

end Torn

end Utf8
end FakeNetNG
