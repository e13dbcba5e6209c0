import Mathlib.Algebra.Order.Round
import Mathlib.Tactic

/-!
# The PCAP format

What a capture takes from the library that writes and reads PCAP files: the headers that it packs,
the times that are computed in floating point, and the reader. `Documented` says what is relied on,
and `littleEndian` is the format with exact times.
-/

namespace FakeNetNG
namespace Pcap

abbrev Bytes := List UInt8

inductive LinkType
  | raw
  | ethernet

structure Record where
  seconds : ℤ
  subseconds : ℤ
  data : Bytes

structure Format where
  /-- The file header for a link type and a snapshot length. -/
  fileHeader : LinkType → ℕ → Bytes
  /-- `_pack_hdr`, which raises where a number does not fit its field. -/
  packHdr : ℤ → ℤ → ℕ → ℕ → Option Bytes
  /-- `timestamp % 1 * multiplier` in floating point. -/
  subseconds : ℚ → ℚ
  /-- The time that the reader makes of seconds and microseconds. -/
  time : ℤ → ℤ → ℚ
  read : Bytes → Option (List (ℚ × Bytes))

/-- `round`, which takes the even one of two nearest integers. -/
def intround (x : ℚ) : ℤ :=
  if Int.fract x < 1/2 then ⌊x⌋
  else if 1/2 < Int.fract x then ⌊x⌋+1
  else if ⌊x⌋ % 2 = 0 then ⌊x⌋ else ⌊x⌋+1

/-- `int`. -/
def truncate (x : ℚ) : ℤ := if 0 ≤ x then ⌊x⌋ else ⌈x⌉

theorem abs_intround_sub (x : ℚ) : |(intround x:ℚ)-x| ≤ 1/2 := by
  have hfloor : (⌊x⌋:ℚ)+Int.fract x = x := Int.floor_add_fract x
  have hnonneg : 0 ≤ Int.fract x := Int.fract_nonneg x
  have hlt : Int.fract x < 1 := Int.fract_lt_one x
  rw [abs_le]
  unfold intround
  split
  · constructor <;> linarith
  · split
    · push_cast
      constructor <;> linarith
    · split
      · constructor <;> linarith
      · push_cast
        constructor <;> linarith

namespace Format

/-- The header and the data of a record. -/
def pack (f : Format) (r : Record) : Option Bytes :=
  (f.packHdr r.seconds r.subseconds r.data.length r.data.length).map (·++r.data)

def packAll (f : Format) : List Record → Option Bytes
  | [] => some []
  | r :: records => (f.pack r).bind fun head => (f.packAll records).map (head++·)

variable {f : Format}

theorem packAll_snoc {records : List Record} {r : Record} {bytes last : Bytes}
    (hbytes : f.packAll records = some bytes) (hlast : f.pack r = some last) :
    f.packAll (records++[r]) = some (bytes++last) := by
  induction records generalizing bytes with
  | nil =>
    cases hbytes
    simp [packAll,hlast]
  | cons r' records ih =>
    obtain ⟨head,hhead,hmap⟩ := Option.bind_eq_some_iff.mp hbytes
    obtain ⟨tail,htail,rfl⟩ := Option.map_eq_some_iff.mp hmap
    show (f.pack r').bind _ = _
    simp [hhead,ih htail]

/-- What the capture relies on: the reader inverts the packing, up to a quarter of a microsecond,
and the product is as near to the exact one as a microsecond needs. -/
structure Documented (f : Format) : Prop where
  read_packAll : ∀ link snaplen records bytes, f.packAll records = some bytes →
    f.read (f.fileHeader link snaplen++bytes) =
      some (records.map fun r => (f.time r.seconds r.subseconds,r.data))
  time_near : ∀ seconds subseconds caplen len header,
    f.packHdr seconds subseconds caplen len = some header →
      |f.time seconds subseconds-(seconds+subseconds/1000000)| ≤ 1/4000000
  subseconds_near : ∀ t, |f.subseconds t-Int.fract t*1000000| ≤ 1/8

/-- A record with the time `t` is read with a time that is less than a microsecond away. -/
theorem Documented.time_sub (hf : f.Documented) {t : ℚ} (ht : 0 ≤ t) {caplen len : ℕ} {header : Bytes}
    (hheader : f.packHdr (truncate t) (intround (f.subseconds t)) caplen len = some header) :
    |t-f.time (truncate t) (intround (f.subseconds t))| ≤ 7/8000000 := by
  rw [truncate,if_pos ht] at hheader ⊢
  have htime := abs_le.mp (hf.time_near _ _ _ _ _ hheader)
  have hround := abs_le.mp (abs_intround_sub (f.subseconds t))
  have hnear := abs_le.mp (hf.subseconds_near t)
  have hfloor : (⌊t⌋:ℚ)+Int.fract t = t := Int.floor_add_fract t
  rw [abs_le]
  constructor <;> linarith [htime.1,htime.2,hround.1,hround.2,hnear.1,hnear.2]

end Format

def word (n : ℕ) : Bytes :=
  [UInt8.ofNat n,UInt8.ofNat (n/256),UInt8.ofNat (n/65536),UInt8.ofNat (n/16777216)]

def ofWord : Bytes → ℕ
  | [] => 0
  | b :: bytes => b.toNat+256*ofWord bytes

@[simp] theorem length_word (n : ℕ) : (word n).length = 4 := rfl

theorem ofWord_word {n : ℕ} (hn : n < 2^32) : ofWord (word n) = n := by
  simp only [word,ofWord,UInt8.toNat_ofNat']
  omega

def packWord (n : ℤ) : Option Bytes :=
  if 0 ≤ n ∧ n < 2^32 then some (word n.toNat) else none

theorem packWord_eq_some {n : ℤ} {bytes : Bytes} (h : packWord n = some bytes) :
    bytes.length = 4 ∧ (ofWord bytes:ℤ) = n := by
  unfold packWord at h
  split at h
  · next hn =>
    cases h
    refine ⟨rfl,?_⟩
    rw [ofWord_word (by omega)]
    omega
  · cases h

def exactTime (seconds subseconds : ℤ) : ℚ := seconds+subseconds/1000000

/-- Records up to the end of the file. A header that is cut short raises. -/
def readRecords : ℕ → Bytes → Option (List (ℚ × Bytes))
  | _,[] => some []
  | 0,_ => none
  | fuel+1,bytes =>
    if bytes.length < 16 then none
    else
      let caplen := ofWord ((bytes.drop 8).take 4)
      let time := exactTime (ofWord (bytes.take 4)) (ofWord ((bytes.drop 4).take 4))
      (readRecords fuel ((bytes.drop 16).drop caplen)).map
        ((time,(bytes.drop 16).take caplen) :: ·)

def magic : Bytes := word 0xa1b2c3d4

def littleEndian : Format where
  fileHeader link snaplen :=
    magic++([2,0,4,0]:Bytes)++word 0++word 0++word snaplen++
      word (match link with | .raw => 12 | .ethernet => 1)
  packHdr seconds subseconds caplen len :=
    (packWord seconds).bind fun a => (packWord subseconds).bind fun b =>
      (packWord caplen).bind fun c => (packWord len).map fun d => a++b++c++d
  subseconds t := Int.fract t*1000000
  time := exactTime
  read bytes :=
    if bytes.length < 24 ∨ bytes.take 4 ≠ magic then none
    else readRecords bytes.length (bytes.drop 24)

theorem packHdr_eq_some {seconds subseconds : ℤ} {caplen len : ℕ} {header : Bytes}
    (h : littleEndian.packHdr seconds subseconds caplen len = some header) :
    ∃ a b c d, header = a++(b++(c++d)) ∧ a.length = 4 ∧ b.length = 4 ∧ c.length = 4 ∧ d.length = 4 ∧
      (ofWord a:ℤ) = seconds ∧ (ofWord b:ℤ) = subseconds ∧ ofWord c = caplen := by
  obtain ⟨a,ha,h⟩ := Option.bind_eq_some_iff.mp h
  obtain ⟨b,hb,h⟩ := Option.bind_eq_some_iff.mp h
  obtain ⟨c,hc,h⟩ := Option.bind_eq_some_iff.mp h
  obtain ⟨d,hd,rfl⟩ := Option.map_eq_some_iff.mp h
  obtain ⟨halen,ha⟩ := packWord_eq_some ha
  obtain ⟨hblen,hb⟩ := packWord_eq_some hb
  obtain ⟨hclen,hc⟩ := packWord_eq_some hc
  obtain ⟨hdlen,-⟩ := packWord_eq_some hd
  exact ⟨a,b,c,d,by simp,halen,hblen,hclen,hdlen,ha,hb,by exact_mod_cast hc⟩

theorem readRecords_pack {r : Record} {head : Bytes} (hhead : littleEndian.pack r = some head)
    (tail : Bytes) (fuel : ℕ) :
    readRecords (fuel+1) (head++tail) =
      (readRecords fuel tail).map ((exactTime r.seconds r.subseconds,r.data) :: ·) := by
  obtain ⟨header,hheader,rfl⟩ := Option.map_eq_some_iff.mp hhead
  obtain ⟨a,b,c,d,rfl,halen,hblen,hclen,hdlen,ha,hb,hc⟩ := packHdr_eq_some hheader
  have hassoc : a++(b++(c++d))++r.data++tail = a++(b++(c++(d++(r.data++tail)))) := by
    simp only [List.append_assoc]
  have hdrop (n : ℕ) {x y : Bytes} (hx : x.length = 4) : (x++y).drop (n+4) = y.drop n := by
    rw [Nat.add_comm,← List.drop_drop,List.drop_left' hx]
  rw [hassoc,readRecords]
  · rw [if_neg (by simp; omega),hdrop 12 halen,hdrop 8 hblen,hdrop 4 hclen,hdrop 0 hdlen,
      hdrop 4 halen,hdrop 0 hblen,hdrop 0 halen]
    simp only [List.drop_zero]
    rw [List.take_left' halen,List.take_left' hblen,List.take_left' hclen,ha,hb,hc]
    simp
  · intro h
    have hnil : a = [] := (List.append_eq_nil_iff.mp h).1
    simp [hnil] at halen

theorem readRecords_packAll {records : List Record} {bytes : Bytes}
    (hbytes : littleEndian.packAll records = some bytes) {fuel : ℕ} (hfuel : records.length ≤ fuel) :
    readRecords fuel bytes = some (records.map fun r => (exactTime r.seconds r.subseconds,r.data)) := by
  induction records generalizing bytes fuel with
  | nil =>
    cases hbytes
    cases fuel <;> rfl
  | cons r records ih =>
    obtain ⟨head,hhead,hmap⟩ := Option.bind_eq_some_iff.mp hbytes
    obtain ⟨tail,htail,rfl⟩ := Option.map_eq_some_iff.mp hmap
    obtain ⟨fuel,rfl⟩ : ∃ n, fuel = n+1 := ⟨fuel-1,by simp at hfuel; omega⟩
    rw [readRecords_pack hhead,ih htail (by simpa using hfuel)]
    rfl

theorem length_le_of_packAll {records : List Record} {bytes : Bytes}
    (hbytes : littleEndian.packAll records = some bytes) : records.length ≤ bytes.length := by
  induction records generalizing bytes with
  | nil => simp
  | cons r records ih =>
    obtain ⟨head,hhead,hmap⟩ := Option.bind_eq_some_iff.mp hbytes
    obtain ⟨tail,htail,rfl⟩ := Option.map_eq_some_iff.mp hmap
    obtain ⟨header,hheader,rfl⟩ := Option.map_eq_some_iff.mp hhead
    obtain ⟨a,b,c,d,rfl,halen,-⟩ := packHdr_eq_some hheader
    have := ih htail
    simp
    omega

theorem littleEndian_documented : littleEndian.Documented where
  read_packAll link snaplen records bytes hbytes := by
    have hlength : (littleEndian.fileHeader link snaplen).length = 24 := by
      simp [littleEndian,magic]
    have hmagic : (littleEndian.fileHeader link snaplen++bytes).take 4 = magic := by
      simp only [littleEndian,List.append_assoc]
      exact List.take_left' rfl
    show (if (littleEndian.fileHeader link snaplen++bytes).length < 24 ∨
      (littleEndian.fileHeader link snaplen++bytes).take 4 ≠ magic then none
      else readRecords _ _) = _
    rw [if_neg (by simp [hlength,hmagic]),List.drop_left' hlength]
    refine readRecords_packAll hbytes ?_
    have := length_le_of_packAll hbytes
    simp
    omega
  time_near seconds subseconds _ _ _ _ := by simp [littleEndian,exactTime]
  subseconds_near t := by simp [littleEndian]

end Pcap
end FakeNetNG
