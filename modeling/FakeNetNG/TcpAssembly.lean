import Mathlib.Data.List.MinMax
import FakeNetNG.Fallible
import FakeNetNG.Pieces
import FakeNetNG.StreamGrouping

/-!
# Reassembly of a stream

Sequence numbers are unwrapped around the segment that was observed first, and the payloads
are laid out from the left. The loop keeps the union of the segments that it has taken: it
fails on a gap, on a conflict and on a FIN beyond the end, and there is no union then.
-/

namespace FakeNetNG
namespace Report

inductive PayloadReportError
  | gap (cursor start : ℤ)
  | conflictingOverlap (start : ℤ)
  | conflictingRetransmission (start : ℤ)
  | terminalGap (cursor position : ℤ)
  deriving DecidableEq

def PayloadReportError.message : PayloadReportError → String
  | gap cursor start => s!"TCP internal sequence gap between {cursor} and {start}"
  | conflictingOverlap start => s!"TCP conflicting overlap at sequence {start}"
  | conflictingRetransmission start => s!"TCP conflicting retransmission at sequence {start}"
  | terminalGap cursor position => s!"TCP terminal sequence gap after {cursor} before {position}"

/-- A segment with its sequence number unwrapped. -/
structure Normalized where
  start : ℤ
  payload : List UInt8
  fin : Bool
  ordinal : ℕ
  deriving DecidableEq

namespace Normalized

def stop (item : Normalized) : ℤ := item.start+item.payload.length

def piece (item : Normalized) : Piece UInt8 := ⟨item.start,item.payload⟩

@[simp] theorem start_piece (item : Normalized) : item.piece.start = item.start := rfl

@[simp] theorem data_piece (item : Normalized) : item.piece.data = item.payload := rfl

@[simp] theorem stop_piece (item : Normalized) : item.piece.stop = item.stop := rfl

/-- The order of the keys `(start, ordinal)`. -/
def keyLe (a b : Normalized) : Bool := a.start < b.start ∨ a.start = b.start ∧ a.ordinal ≤ b.ordinal

theorem keyLe_trans (a b c : Normalized) (hab : keyLe a b) (hbc : keyLe b c) : keyLe a c := by
  simp only [keyLe,decide_eq_true_eq] at *
  omega

theorem keyLe_total (a b : Normalized) : (keyLe a b || keyLe b a) = true := by
  simp only [keyLe,Bool.or_eq_true,decide_eq_true_eq]
  omega

theorem start_le_of_keyLe {a b : Normalized} (h : keyLe a b) : a.start ≤ b.start := by
  simp only [keyLe,decide_eq_true_eq] at h
  omega

end Normalized

def relative (reference raw : ℤ) : ℤ :=
  (raw-reference+tcpSequenceHalf) % tcpSequenceModulus-tcpSequenceHalf

def normalizeTcpSegments (segments : List Segment) : List Normalized :=
  match segments.argmin Segment.ordinal with
  | none => []
  | some first =>
    let reference : ℤ := (first.start % tcpSequenceModulus : ℕ)
    segments.map fun original =>
      let raw : ℤ := (original.start % tcpSequenceModulus : ℕ)
      ⟨reference+relative reference raw,original.payload,original.fin,original.ordinal⟩

/-- The state of the loop: the bytes so far, from where they start up to the cursor. -/
structure Assembly where
  baseStart : ℤ
  cursor : ℤ
  output : List UInt8
  reaches : cursor = baseStart+output.length

namespace Assembly

/-- The bytes of the output between two indices. -/
def slice (a : Assembly) (lo hi : ℤ) : List UInt8 := (a.output.drop lo.toNat).take (hi-lo).toNat

def start (segment : Normalized) : Assembly := ⟨segment.start,segment.stop,segment.payload,rfl⟩

theorem reaches_extend (a : Assembly) {segment : Normalized} (hgap : ¬segment.start > a.cursor)
    (hnew : a.cursor-segment.start < segment.payload.length) :
    segment.stop = a.baseStart+
      ((a.output++segment.payload.drop (a.cursor-segment.start).toNat).length : ℕ) := by
  have hreaches := a.reaches
  simp only [Normalized.stop,List.length_append,List.length_drop]
  omega

/-- One round of the loop. The segments come sorted, so that the indices of the slices are natural
numbers. -/
def add (a : Assembly) (segment : Normalized) : Except PayloadReportError Assembly :=
  if hgap : segment.start > a.cursor then .error (.gap a.cursor segment.start)
  else
    let overlap := a.cursor-segment.start
    let offset := segment.start-a.baseStart
    if hnew : overlap < segment.payload.length then
      if a.slice offset (offset+overlap) ≠ segment.payload.take overlap.toNat then
        .error (.conflictingOverlap segment.start)
      else
        .ok ⟨a.baseStart,segment.stop,a.output++segment.payload.drop overlap.toNat,
          a.reaches_extend hgap hnew⟩
    else if segment.payload ≠ [] ∧ a.slice offset (offset+segment.payload.length) ≠ segment.payload then
      .error (.conflictingRetransmission segment.start)
    else .ok a

/-- A FIN at the cursor is complete, and one beyond it denotes a missing range. -/
def close (a : Assembly) (finPositions : List ℤ) : Except PayloadReportError (List UInt8 × Option ℤ) :=
  match (finPositions.filter (a.cursor < ·)).min? with
  | some position => .error (.terminalGap a.cursor position)
  | none => .ok (a.output,some a.cursor)

end Assembly

def ordered (segments : List Normalized) : List Normalized :=
  (segments.filter fun item => item.payload ≠ []).mergeSort Normalized.keyLe

def finPositions (segments : List Normalized) : List ℤ :=
  (segments.filter Normalized.fin).map Normalized.stop

/-- The bytes and the cursor, which is `none` where no segment carries a payload. -/
def assembleTcp (segments : List Segment) : Except PayloadReportError (List UInt8 × Option ℤ) :=
  if segments = [] then .ok ([],none)
  else
    let segments := normalizeTcpSegments segments
    match ordered segments with
    | [] => .ok ([],none)
    | first :: rest => do
      let a ← rest.foldlM Assembly.add (.start first)
      a.close (finPositions segments)

namespace Assembly

variable {a b : Assembly} {s : Normalized} {ps : List (Piece UInt8)}

def piece (a : Assembly) : Piece UInt8 := ⟨a.baseStart,a.output⟩

@[simp] theorem start_piece (a : Assembly) : a.piece.start = a.baseStart := rfl

@[simp] theorem data_piece (a : Assembly) : a.piece.data = a.output := rfl

@[simp] theorem stop_piece (a : Assembly) : a.piece.stop = a.cursor := a.reaches.symm

def ofPiece (u : Piece UInt8) : Assembly := ⟨u.start,u.stop,u.data,rfl⟩

theorem eq_of_piece (h : a.piece = b.piece) : a = b := by
  have hcursor : a.cursor = b.cursor := by rw [← stop_piece,h,stop_piece]
  obtain ⟨hstart,houtput⟩ := Piece.mk.injEq .. ▸ h
  cases a
  cases b
  simp_all

theorem slice_eq_iff (hle : a.baseStart ≤ s.start) (n : ℕ)
    (hn : (n : ℤ) = min (a.cursor-s.start) s.payload.length) :
    a.slice (s.start-a.baseStart) (s.start-a.baseStart+n) = s.payload.take n ↔
      ∀ x, a.piece.Covers x → s.piece.Covers x → a.piece.at? x = s.piece.at? x := by
  have h := Piece.slice_eq_iff (u:=a.piece) (q:=s.piece) hle n (by simpa using hn)
  simpa [slice] using h

theorem extend_piece (a : Assembly) (s : Normalized) :
    a.piece.extend s.piece = ⟨a.baseStart,a.output++s.payload.drop (a.cursor-s.start).toNat⟩ := by
  simp [Piece.extend]

theorem eq_iff_piece : a = b ↔ b.piece = a.piece :=
  ⟨fun h => by rw [h],fun h => (eq_of_piece h).symm⟩

theorem add_eq_ok_iff (hle : a.baseStart ≤ s.start) :
    a.add s = .ok b ↔ s.start ≤ a.cursor ∧
      (∀ x, a.piece.Covers x → s.piece.Covers x → a.piece.at? x = s.piece.at? x) ∧
      b.piece = a.piece.extend s.piece := by
  by_cases hgap : s.start > a.cursor
  · simp [add,hgap,not_le.mpr hgap]
  have hstart := not_lt.mp hgap
  by_cases hnew : a.cursor-s.start < s.payload.length
  · have hslice := slice_eq_iff hle (a.cursor-s.start).toNat (by omega)
    rw [Int.toNat_of_nonneg (by omega)] at hslice
    simp only [add,hgap,hnew,dite_false,dite_true,extend_piece,← hslice]
    split_ifs with hne
    · exact iff_of_false (by simp) fun h => hne h.2.1
    · have hagree := not_not.mp hne
      rw [Except.ok.injEq,eq_iff_piece]
      exact ⟨fun h => ⟨hstart,hagree,h⟩,fun h => h.2.2⟩
  · have hslice := slice_eq_iff hle s.payload.length (by omega)
    rw [List.take_length] at hslice
    have hself : a.piece.extend s.piece = a.piece := by
      rw [extend_piece,List.drop_eq_nil_of_le (by omega),List.append_nil]
      rfl
    simp only [add,hgap,hnew,dite_false,hself,← hslice]
    split_ifs with hne
    · exact iff_of_false (by simp) fun h => hne.2 h.2.1
    · have hagree : a.slice (s.start-a.baseStart) (s.start-a.baseStart+s.payload.length) = s.payload := by
        by_cases hnil : s.payload = []
        · simp [hnil,slice]
        · exact not_not.mp fun h => hne ⟨hnil,h⟩
      rw [Except.ok.injEq,eq_iff_piece]
      exact ⟨fun h => ⟨hstart,hagree,h⟩,fun h => h.2.2⟩

/-- The loop over sorted segments ends with the union of what it began with and the segments, or
there is none. -/
theorem foldlM_add_eq_ok_iff (rest : List Normalized) (hunion : Piece.Union ps a.piece)
    (houtput : a.output ≠ []) (hbase : ∀ s ∈ rest, a.baseStart ≤ s.start)
    (hsorted : rest.Pairwise fun s t => s.start ≤ t.start) (hcarry : ∀ s ∈ rest, s.payload ≠ []) :
    rest.foldlM add a = .ok b ↔ Piece.Union (ps++rest.map Normalized.piece) b.piece := by
  induction rest generalizing a ps with
  | nil =>
    rw [List.foldlM_nil,List.map_nil,List.append_nil]
    constructor
    · rintro ⟨⟩
      exact hunion
    · intro h
      rw [eq_of_piece (hunion.unique h houtput)]
      rfl
  | cons s rest ih =>
    have hle := hbase s List.mem_cons_self
    obtain ⟨hfirst,hsorted⟩ := List.pairwise_cons.mp hsorted
    have hstep : ∀ c, a.add s = .ok c → (rest.foldlM add c = .ok b ↔
        Piece.Union (ps++(s :: rest).map Normalized.piece) b.piece) := by
      intro c hadd
      obtain ⟨hstart,hagree,hpiece⟩ := (add_eq_ok_iff hle).mp hadd
      have hnext : Piece.Union (ps++[s.piece]) c.piece := by
        rw [hpiece]
        exact hunion.extend hle (by simpa using hstart) hagree
      have hbase' : c.baseStart = a.baseStart := by rw [← start_piece,hpiece,extend_piece]
      have houtput' : c.output ≠ [] := by
        rw [← data_piece,hpiece,extend_piece]
        simp [houtput]
      rw [ih hnext houtput' (fun t ht => hbase' ▸ hbase t (List.mem_cons_of_mem _ ht)) hsorted
        fun t ht => hcarry t (List.mem_cons_of_mem _ ht)]
      simp
    rw [List.foldlM_cons]
    constructor
    · intro h
      cases hadd : a.add s with
      | error e => simp [hadd,bind,Except.bind] at h
      | ok c =>
        rw [hadd] at h
        exact (hstep c hadd).mp h
    · intro h
      -- A gap would leave a hole in the union, and a conflict two values at one position.
      have hstart : s.start ≤ a.cursor := by
        by_contra hgap
        refine Piece.not_union_of_gap hunion houtput (fun q hq => ?_)
          (q:=s.piece) (by simp) (hcarry s List.mem_cons_self) h
        obtain ⟨t,ht,rfl⟩ := List.mem_map.mp hq
        rw [stop_piece]
        rcases List.mem_cons.mp ht with rfl | ht
        · exact not_le.mp hgap
        · exact (not_le.mp hgap).trans_le (hfirst t ht)
      have hagree : ∀ x, a.piece.Covers x → s.piece.Covers x → a.piece.at? x = s.piece.at? x :=
        fun x hx hs => Piece.agree_of_union hunion h hx hs
      have hadd := (add_eq_ok_iff (b:=ofPiece (a.piece.extend s.piece)) hle).mpr
        ⟨hstart,hagree,rfl⟩
      rw [hadd]
      exact (hstep _ hadd).mpr h

end Assembly

variable {items : List Normalized} {u : Piece UInt8} {bytes : List UInt8} {c : Option ℤ}

theorem mem_ordered {item : Normalized} : item ∈ ordered items ↔ item ∈ items ∧ item.payload ≠ [] := by
  simp [ordered]

theorem pairwise_ordered (items : List Normalized) :
    (ordered items).Pairwise fun s t => s.start ≤ t.start :=
  (List.pairwise_mergeSort Normalized.keyLe_trans Normalized.keyLe_total _).imp
    Normalized.start_le_of_keyLe

theorem union_ordered :
    Piece.Union ((ordered items).map Normalized.piece) u ↔ Piece.Union (items.map Normalized.piece) u := by
  have hperm := (List.mergeSort_perm (items.filter fun item => item.payload ≠ []) Normalized.keyLe).map
    Normalized.piece
  have hfilter : (items.filter fun item => item.payload ≠ []).map Normalized.piece =
      (items.map Normalized.piece).filter fun p => p.data ≠ [] := by
    rw [List.filter_map]
    rfl
  have hdata : Piece.Union ((items.map Normalized.piece).filter fun p => p.data ≠ []) u ↔
      Piece.Union (items.map Normalized.piece) u := Piece.Union.filter_iff
  rw [← hdata,← hfilter]
  exact ⟨fun h => h.perm hperm,fun h => h.perm hperm.symm⟩

theorem forall_finPositions {cursor : ℤ} :
    (∀ position ∈ finPositions items, position ≤ cursor) ↔ ∀ item ∈ items, item.fin → item.stop ≤ cursor := by
  simp only [finPositions,List.mem_map,List.mem_filter]
  constructor
  · intro h item hitem hfin
    exact h _ ⟨item,⟨hitem,hfin⟩,rfl⟩
  · rintro h _ ⟨item,⟨hitem,hfin⟩,rfl⟩
    exact h item hitem hfin

theorem Assembly.close_eq_ok_iff {a : Assembly} {positions : List ℤ} :
    a.close positions = .ok (bytes,c) ↔
      (∀ position ∈ positions, position ≤ a.cursor) ∧ bytes = a.output ∧ c = some a.cursor := by
  have hfilter : positions.filter (a.cursor < ·) = [] ↔ ∀ position ∈ positions, position ≤ a.cursor := by
    simp [List.filter_eq_nil_iff]
  rw [← hfilter,← List.min?_eq_none_iff,close]
  cases (positions.filter (a.cursor < ·)).min? with
  | none => simp [eq_comm]
  | some position => simp

/-- The source's function returns the union of the normalized segments, if they have one and no FIN
lies beyond it. -/
theorem assembleTcp_eq_ok_iff {segments : List Segment} (hitems : normalizeTcpSegments segments = items)
    (hcarry : ∃ item ∈ items, item.payload ≠ []) :
    assembleTcp segments = .ok (bytes,c) ↔ ∃ u, Piece.Union (items.map Normalized.piece) u ∧
      (∀ item ∈ items, item.fin → item.stop ≤ u.stop) ∧ bytes = u.data ∧ c = some u.stop := by
  have hne : segments ≠ [] := by
    rintro rfl
    obtain ⟨item,hitem,-⟩ := hcarry
    simp [← hitems,normalizeTcpSegments] at hitem
  simp only [assembleTcp,hne,if_false,hitems]
  cases hordered : ordered items with
  | nil =>
    obtain ⟨item,hitem⟩ := hcarry
    have hmem := mem_ordered.mpr hitem
    simp [hordered] at hmem
  | cons first rest =>
    have hsorted := pairwise_ordered items
    have hcarries : ∀ s ∈ first :: rest, s.payload ≠ [] := fun s hs => (mem_ordered.mp (hordered ▸ hs)).2
    rw [hordered,List.pairwise_cons] at hsorted
    have hloop : ∀ b, rest.foldlM Assembly.add (.start first) = .ok b ↔
        Piece.Union (items.map Normalized.piece) b.piece := by
      intro b
      rw [← union_ordered,hordered]
      exact Assembly.foldlM_add_eq_ok_iff rest Piece.Union.single (hcarries first List.mem_cons_self)
        hsorted.1 hsorted.2 fun s hs => hcarries s (List.mem_cons_of_mem _ hs)
    constructor
    · intro h
      obtain ⟨a,ha,hclose⟩ := ok_of_bind h
      obtain ⟨hfins,hbytes,hcursor⟩ := Assembly.close_eq_ok_iff.mp hclose
      refine ⟨a.piece,(hloop a).mp ha,forall_finPositions.mp ?_,hbytes,?_⟩ <;> simpa
    · rintro ⟨u,hunion,hfins,hbytes,hcursor⟩
      have hfold := (hloop (.ofPiece u)).mpr hunion
      show (rest.foldlM Assembly.add (.start first) >>= fun a => a.close (finPositions items)) = _
      rw [hfold]
      exact Assembly.close_eq_ok_iff.mpr ⟨forall_finPositions.mpr hfins,hbytes,hcursor⟩

/-- Where the segments lie on a line whose positions are sequence numbers modulo `2^32`, all of
them within `2^31` of the segment that was observed first. -/
structure Unwrapping (segments : List Segment) where
  position : Segment → ℤ
  modEq : ∀ s ∈ segments, position s ≡ s.start [ZMOD tcpSequenceModulus]
  near : ∀ first ∈ segments.argmin Segment.ordinal, ∀ s ∈ segments,
    position first-tcpSequenceHalf ≤ position s ∧ position s < position first+tcpSequenceHalf

variable {segments : List Segment}

theorem relative_eq {reference raw d : ℤ} (hmod : raw-reference ≡ d [ZMOD tcpSequenceModulus])
    (hlo : -tcpSequenceHalf ≤ d) (hhi : d < tcpSequenceHalf) : relative reference raw = d := by
  have h : (raw-reference+tcpSequenceHalf) % tcpSequenceModulus =
      (d+tcpSequenceHalf) % tcpSequenceModulus := hmod.add_right _
  rw [relative,h,Int.emod_eq_of_lt]
  · omega
  · omega
  · simp only [tcpSequenceHalf,tcpSequenceModulus] at *
    omega

namespace Unwrapping

def place (p : Unwrapping segments) (k : ℤ) (s : Segment) : Normalized :=
  ⟨p.position s+k,s.payload,s.fin,s.ordinal⟩

/-- The source unwraps the sequence numbers like any other unwrapping, up to a common distance. -/
theorem normalize_eq (p : Unwrapping segments) :
    ∃ k, normalizeTcpSegments segments = segments.map (p.place k) := by
  unfold normalizeTcpSegments
  cases hfirst : segments.argmin Segment.ordinal with
  | none => exact ⟨0,by simp [List.argmin_eq_none.mp hfirst]⟩
  | some first =>
    refine ⟨(first.start % tcpSequenceModulus : ℕ)-p.position first,List.map_congr_left fun s hs => ?_⟩
    have hmod := (p.modEq s hs).symm.sub (p.modEq first (List.argmin_mem hfirst)).symm
    have hnear := p.near first hfirst s hs
    have hrelative : relative (first.start % tcpSequenceModulus : ℕ) (s.start % tcpSequenceModulus : ℕ) =
        p.position s-p.position first := by
      refine relative_eq (.trans ?_ hmod) (by omega) (by omega)
      push_cast
      exact (Int.mod_modEq _ _).sub (Int.mod_modEq _ _)
    simp only [place,hrelative]
    congr 1
    omega

theorem relative_modEq (reference raw : ℤ) :
    relative reference raw ≡ raw-reference [ZMOD tcpSequenceModulus] := by
  have h : (raw-reference+tcpSequenceHalf) % tcpSequenceModulus-tcpSequenceHalf ≡
      raw-reference+tcpSequenceHalf-tcpSequenceHalf [ZMOD tcpSequenceModulus] :=
    (Int.mod_modEq _ _).sub_right _
  rwa [add_sub_cancel_right] at h

theorem relative_bounds (reference raw : ℤ) :
    -tcpSequenceHalf ≤ relative reference raw ∧ relative reference raw < tcpSequenceHalf := by
  simp only [relative,tcpSequenceHalf,tcpSequenceModulus]
  omega

theorem relative_self (reference : ℤ) : relative reference reference = 0 :=
  relative_eq (by simp) (by simp [tcpSequenceHalf]) (by simp [tcpSequenceHalf])

def around (segments : List Segment) (first : Segment) (hfirst : first ∈ segments.argmin Segment.ordinal) :
    Unwrapping segments where
  position s := first.start+relative first.start s.start
  modEq s _ := by
    have h := (relative_modEq first.start s.start).add_left first.start
    rwa [add_sub_cancel] at h
  near first' hfirst' s _ := by
    obtain rfl := Option.mem_unique hfirst' hfirst
    have h := relative_bounds first'.start s.start
    rw [relative_self]
    omega

def pieces (p : Unwrapping segments) : List (Piece UInt8) := segments.map fun s => ⟨p.position s,s.payload⟩

/-- The payloads cover one interval and agree on it, and no FIN lies beyond. -/
structure Whole (p : Unwrapping segments) (lo hi : ℤ) : Prop where
  spans : Piece.Spans p.pieces lo hi
  agree : Piece.Agree p.pieces
  fins : ∀ s ∈ segments, s.fin → p.position s+s.payload.length ≤ hi

/-- The bytes of the interval, which every payload matches at its position. -/
structure Spells (p : Unwrapping segments) (lo hi : ℤ) (bytes : List UInt8) : Prop where
  length : bytes.length = hi-lo
  fits : ∀ s ∈ segments, ∀ i < s.payload.length, ∀ n : ℕ, lo+n = p.position s+i →
    bytes[n]? = s.payload[i]?

variable {p : Unwrapping segments} {lo hi : ℤ}

theorem Whole.union (hwhole : p.Whole lo hi) (h : p.Spells lo hi bytes) :
    Piece.Union p.pieces ⟨lo,bytes⟩ := by
  have hstop : Piece.stop ⟨lo,bytes⟩ = hi := by simp [Piece.stop,h.length]
  refine ⟨fun x hx => (hwhole.spans x).mpr ⟨hx.1,hx.2.trans_eq hstop⟩,fun q hq x hqx => ?_⟩
  obtain ⟨hlo,hhi⟩ := (hwhole.spans x).mp ⟨q,hq,hqx⟩
  refine ⟨⟨hlo,hhi.trans_eq hstop.symm⟩,?_⟩
  obtain ⟨s,hs,rfl⟩ := List.mem_map.mp hq
  simp only [Piece.Covers,Piece.stop] at hqx
  exact h.fits s hs (x-p.position s).toNat (by omega) (x-lo).toNat (by omega)

theorem spells_of_union {u : Piece UInt8} (h : Piece.Union p.pieces u) :
    p.Spells u.start u.stop u.data := by
  refine ⟨by simp [Piece.stop],fun s hs i hi n hn => ?_⟩
  have hx := (h.fits ⟨p.position s,s.payload⟩ (List.mem_map_of_mem hs) (p.position s+i)
    ⟨by simp,by simpa [Piece.stop] using hi⟩).2
  simp only [Piece.at?] at hx
  have hleft : (p.position s+i-u.start).toNat = n := by omega
  have hright : (p.position s+i-p.position s).toNat = i := by omega
  rwa [hleft,hright] at hx

theorem lt_of_spans (hcarry : ∃ s ∈ segments, s.payload ≠ []) (h : Piece.Spans p.pieces lo hi) : lo < hi := by
  obtain ⟨s,hs,hpayload⟩ := hcarry
  have hcovers : Piece.Covers ⟨p.position s,s.payload⟩ (p.position s) := Piece.covers_start hpayload
  have hin := (h (p.position s)).mp ⟨_,List.mem_map_of_mem hs,hcovers⟩
  exact hin.1.trans_lt hin.2

/-- The source's function returns the union of the segments at the positions of an unwrapping. -/
theorem assembleTcp_eq_ok_iff (p : Unwrapping segments) (hcarry : ∃ s ∈ segments, s.payload ≠ []) :
    (∃ cursor, assembleTcp segments = .ok (bytes,cursor)) ↔ ∃ u, Piece.Union p.pieces u ∧
      (∀ s ∈ segments, s.fin → p.position s+s.payload.length ≤ u.stop) ∧ bytes = u.data := by
  obtain ⟨k,hk⟩ := p.normalize_eq
  have hcarry' : ∃ item ∈ segments.map (p.place k), item.payload ≠ [] := by
    obtain ⟨s,hs,hpayload⟩ := hcarry
    exact ⟨_,List.mem_map_of_mem hs,hpayload⟩
  have hpieces : (segments.map (p.place k)).map Normalized.piece = p.pieces.map (Piece.shift k) := by
    simp [pieces,Piece.shift,place,Normalized.piece]
  simp only [Report.assembleTcp_eq_ok_iff hk hcarry',hpieces]
  constructor
  · rintro ⟨_,u,hunion,hfins,hbytes,-⟩
    have hback := hunion.shift (-k)
    rw [List.map_map,show Piece.shift (-k) ∘ Piece.shift k = (id : Piece UInt8 → _) by funext q; simp,
      List.map_id] at hback
    refine ⟨u.shift (-k),hback,fun s hs hfin => ?_,hbytes⟩
    have hle := hfins _ (List.mem_map_of_mem hs) hfin
    simp only [Normalized.stop,place] at hle
    rw [Piece.stop_shift]
    omega
  · rintro ⟨u,hunion,hfins,hbytes⟩
    refine ⟨_,u.shift k,hunion.shift k,fun item hitem hfin => ?_,hbytes,rfl⟩
    obtain ⟨s,hs,rfl⟩ := List.mem_map.mp hitem
    have hle := hfins s hs hfin
    simp only [Normalized.stop,place,Piece.stop_shift]
    omega

end Unwrapping

/-- Reassembly returns bytes exactly where the payloads cover one interval, agree on it and no FIN
lies beyond it. The bytes are then the ones that all payloads match, and otherwise it fails. -/
theorem assembleTcp_exact (segments : List Segment) (hne : segments ≠ []) (p : Unwrapping segments) :
    ((∀ s ∈ segments, s.payload = []) → assembleTcp segments = .ok ([],none)) ∧
      ((∃ s ∈ segments, s.payload ≠ []) →
        (∀ bytes, (∃ cursor, assembleTcp segments = .ok (bytes,cursor)) ↔
          ∃ lo hi, p.Whole lo hi ∧ p.Spells lo hi bytes) ∧
        (∀ lo hi, p.Whole lo hi → ∃! bytes, p.Spells lo hi bytes) ∧
        ((¬∃ lo hi, p.Whole lo hi) → ∃ e, assembleTcp segments = .error e)) := by
  refine ⟨fun hempty => ?_,fun hcarry => ?_⟩
  · obtain ⟨k,hk⟩ := p.normalize_eq
    have hordered : ordered (segments.map (p.place k)) = [] := by
      refine List.eq_nil_iff_forall_not_mem.mpr fun item hitem => ?_
      obtain ⟨hmem,hpayload⟩ := mem_ordered.mp hitem
      obtain ⟨s,hs,rfl⟩ := List.mem_map.mp hmem
      exact hpayload (hempty s hs)
    simp [assembleTcp,hne,hk,hordered]
  have hexists : ∀ lo hi, p.Whole lo hi → ∃ bytes, p.Spells lo hi bytes := by
    intro lo hi hwhole
    obtain ⟨u,rfl,rfl,hunion⟩ :=
      Piece.exists_union (p.lt_of_spans hcarry hwhole.spans).le hwhole.spans hwhole.agree
    exact ⟨_,p.spells_of_union hunion⟩
  have hiff : ∀ bytes, (∃ cursor, assembleTcp segments = .ok (bytes,cursor)) ↔
      ∃ lo hi, p.Whole lo hi ∧ p.Spells lo hi bytes := by
    intro bytes
    rw [p.assembleTcp_eq_ok_iff hcarry]
    constructor
    · rintro ⟨u,hunion,hfins,rfl⟩
      exact ⟨_,_,⟨hunion.spans,hunion.agree,hfins⟩,p.spells_of_union hunion⟩
    · rintro ⟨lo,hi,hwhole,hspells⟩
      have hstop : Piece.stop ⟨lo,bytes⟩ = hi := by simp [Piece.stop,hspells.length]
      exact ⟨_,hwhole.union hspells,hstop ▸ hwhole.fins,rfl⟩
  refine ⟨hiff,fun lo hi hwhole => ?_,fun hnone => ?_⟩
  · obtain ⟨bytes,hspells⟩ := hexists lo hi hwhole
    refine ⟨bytes,hspells,fun bytes' hspells' => ?_⟩
    have hlt := p.lt_of_spans hcarry hwhole.spans
    have hdata : bytes' ≠ [] := by
      rintro rfl
      have hlength := hspells'.length
      simp at hlength
      omega
    exact congrArg Piece.data ((hwhole.union hspells').unique (hwhole.union hspells) hdata)
  · cases h : assembleTcp segments with
    | error e => exact ⟨e,rfl⟩
    | ok result =>
      obtain ⟨lo,hi,hwhole,-⟩ := (hiff result.1).mp ⟨result.2,h⟩
      exact absurd ⟨lo,hi,hwhole⟩ hnone

theorem exists_normalized {s : Segment} (hs : s ∈ segments) :
    ∃ item ∈ normalizeTcpSegments segments, item.payload = s.payload ∧
      item.start ≡ s.start [ZMOD tcpSequenceModulus] := by
  unfold normalizeTcpSegments
  cases hfirst : segments.argmin Segment.ordinal with
  | none =>
    rw [List.argmin_eq_none.mp hfirst] at hs
    cases hs
  | some first =>
    refine ⟨_,List.mem_map_of_mem hs,rfl,?_⟩
    have h := (Unwrapping.relative_modEq (first.start % tcpSequenceModulus : ℕ)
      (s.start % tcpSequenceModulus : ℕ)).add_left ((first.start % tcpSequenceModulus : ℕ) : ℤ)
    rw [add_sub_cancel] at h
    refine h.trans ?_
    push_cast
    exact Int.mod_modEq _ _

theorem assembleTcp_contains {s : Segment} (hs : s ∈ segments) {i : ℕ} (hi : i < s.payload.length)
    (h : assembleTcp segments = .ok (bytes,c)) : ∃ cursor, c = some cursor ∧ ∃ n < bytes.length,
      cursor-bytes.length+n ≡ s.start+i [ZMOD tcpSequenceModulus] := by
  obtain ⟨item,hitem,hpayload,hstart⟩ := exists_normalized hs
  have hcarry : item.payload ≠ [] := List.ne_nil_of_length_pos (by rw [hpayload]; omega)
  obtain ⟨u,hunion,-,rfl,rfl⟩ := (assembleTcp_eq_ok_iff rfl ⟨item,hitem,hcarry⟩).mp h
  obtain ⟨⟨hlo,hhi⟩,-⟩ := hunion.fits item.piece (List.mem_map_of_mem hitem) (item.start+i)
    ⟨by simp,by simp [Normalized.stop,hpayload,hi]⟩
  refine ⟨_,rfl,(item.start+i-u.start).toNat,?_,?_⟩
  · simp only [Piece.stop] at hhi
    omega
  · have hposition : u.stop-u.data.length+(item.start+i-u.start).toNat = item.start+i := by
      simp only [Piece.stop]
      omega
    rw [hposition]
    exact hstart.add_right _

/-- A stream that crosses `0xffffffff`. The second segment repeats a byte of the first. -/
def crossing : List Segment := [⟨2^32-2,[1,2,3],false,7⟩,⟨0,[3,4],true,9⟩]

theorem assembleTcp_crossing : assembleTcp crossing = .ok ([1,2,3,4],some (2^32+2)) := by
  have hordered : ordered (normalizeTcpSegments crossing) = normalizeTcpSegments crossing := by
    rw [ordered,List.filter_eq_self.mpr (by decide),List.mergeSort_of_pairwise (by decide)]
  simp only [assembleTcp,hordered,if_neg (show crossing ≠ [] by decide)]
  decide

theorem assembleTcp_exact_example : ∃ p : Unwrapping crossing, ∃ lo hi, p.Whole lo hi ∧
    p.Spells lo hi [1,2,3,4] ∧ ∀ bytes, p.Spells lo hi bytes → bytes = [1,2,3,4] := by
  have hfirst : (⟨2^32-2,[1,2,3],false,7⟩ : Segment) ∈ crossing.argmin Segment.ordinal := by decide
  have h := assembleTcp_exact crossing (by decide) (.around _ _ hfirst)
  obtain ⟨hiff,hunique,-⟩ := h.2 ⟨_,List.mem_cons_self,by decide⟩
  obtain ⟨lo,hi,hwhole,hspells⟩ := (hiff [1,2,3,4]).mp ⟨_,assembleTcp_crossing⟩
  exact ⟨_,lo,hi,hwhole,hspells,fun bytes hbytes => (hunique lo hi hwhole).unique hbytes hspells⟩

end Report
end FakeNetNG
