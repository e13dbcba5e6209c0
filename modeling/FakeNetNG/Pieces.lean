import Mathlib.Data.List.Basic
import Mathlib.Tactic

/-!
# Pieces of a line

A piece is a list placed on the integers. Pieces that cover one interval and agree where
they overlap have a union, and it is the only one. A union grows from the left: the next
piece begins inside it or at its end, and what lies beyond the end is appended.
-/

namespace FakeNetNG

@[ext] structure Piece (α : Type) where
  start : ℤ
  data : List α

namespace Piece

variable {α : Type} {p q u u' : Piece α} {ps qs : List (Piece α)} {x : ℤ}

def stop (p : Piece α) : ℤ := p.start+p.data.length

def Covers (p : Piece α) (x : ℤ) : Prop := p.start ≤ x ∧ x < p.stop

/-- What a piece has at a position that it covers. -/
def at? (p : Piece α) (x : ℤ) : Option α := p.data[(x-p.start).toNat]?

/-- `u` covers what the pieces cover and has what they have. -/
structure Union (ps : List (Piece α)) (u : Piece α) : Prop where
  covered : ∀ x, u.Covers x → ∃ p ∈ ps, p.Covers x
  fits : ∀ p ∈ ps, ∀ x, p.Covers x → u.Covers x ∧ u.at? x = p.at? x

theorem covers_start (h : p.data ≠ []) : p.Covers p.start := by
  have hlen := List.length_pos_of_ne_nil h
  refine ⟨le_rfl,?_⟩
  unfold stop
  omega

theorem covers_last (h : p.data ≠ []) : p.Covers (p.stop-1) := by
  have hlen := List.length_pos_of_ne_nil h
  unfold Covers stop
  omega

theorem data_ne_nil (h : p.Covers x) : p.data ≠ [] := by
  intro hnil
  simp only [Covers,stop,hnil,List.length_nil] at h
  omega

theorem eq_of_at? (hstart : u.start = u'.start) (hstop : u.stop = u'.stop)
    (hat : ∀ x, u.Covers x → u.at? x = u'.at? x) : u = u' := by
  refine Piece.ext hstart (List.ext_getElem? fun i => ?_)
  have hlength : u.data.length = u'.data.length := by
    simp only [stop] at hstop
    omega
  by_cases hi : i < u.data.length
  · have hx := hat (u.start+i) ⟨by omega,by simp only [stop]; omega⟩
    simpa [at?,hstart] using hx
  · rw [List.getElem?_eq_none (by omega),List.getElem?_eq_none (by omega)]

namespace Union

theorem covers_iff (h : Union ps u) (x : ℤ) : u.Covers x ↔ ∃ p ∈ ps, p.Covers x :=
  ⟨h.covered x,fun ⟨p,hp,hx⟩ => (h.fits p hp x hx).1⟩

theorem single : Union [p] p where
  covered x hx := ⟨p,by simp,hx⟩
  fits q hq x hx := by
    obtain rfl := List.mem_singleton.mp hq
    exact ⟨hx,rfl⟩

theorem unique (h : Union ps u) (h' : Union ps u') (hne : u.data ≠ []) : u = u' := by
  have hcovers : ∀ x, u.Covers x ↔ u'.Covers x := fun x => (h.covers_iff x).trans (h'.covers_iff x).symm
  have hne' : u'.data ≠ [] := data_ne_nil ((hcovers _).mp (covers_start hne))
  have hfirst := (hcovers _).mp (covers_start hne)
  have hfirst' := (hcovers _).mpr (covers_start hne')
  have hlast := (hcovers _).mp (covers_last hne)
  have hlast' := (hcovers _).mpr (covers_last hne')
  unfold Covers at hfirst hfirst' hlast hlast'
  refine eq_of_at? (by omega) (by omega) fun x hx => ?_
  obtain ⟨p,hp,hpx⟩ := h.covered x hx
  rw [(h.fits p hp x hpx).2,(h'.fits p hp x hpx).2]

theorem at?_eq (h : Union ps u) (h' : Union qs u') (hsub : ps ⊆ qs) (hx : u.Covers x) :
    u'.Covers x ∧ u.at? x = u'.at? x := by
  obtain ⟨p,hp,hpx⟩ := h.covered x hx
  obtain ⟨hcovers,hat⟩ := h'.fits p (hsub hp) x hpx
  exact ⟨hcovers,by rw [(h.fits p hp x hpx).2,hat]⟩

theorem perm (h : Union ps u) (hperm : ps.Perm qs) : Union qs u where
  covered x hx := by
    obtain ⟨p,hp,hpx⟩ := h.covered x hx
    exact ⟨p,hperm.mem_iff.mp hp,hpx⟩
  fits p hp := h.fits p (hperm.mem_iff.mpr hp)

theorem filter_iff [DecidableEq α] :
    Union (ps.filter fun p => p.data ≠ []) u ↔ Union ps u := by
  have hmem : ∀ p x, p.Covers x → (p ∈ ps.filter (fun p => p.data ≠ []) ↔ p ∈ ps) := by
    intro p x hx
    simp [data_ne_nil hx]
  constructor
  · intro h
    refine ⟨fun x hx => ?_,fun p hp x hx => h.fits p ((hmem p x hx).mpr hp) x hx⟩
    obtain ⟨p,hp,hpx⟩ := h.covered x hx
    exact ⟨p,(hmem p x hpx).mp hp,hpx⟩
  · intro h
    refine ⟨fun x hx => ?_,fun p hp x hx => h.fits p ((hmem p x hx).mp hp) x hx⟩
    obtain ⟨p,hp,hpx⟩ := h.covered x hx
    exact ⟨p,(hmem p x hpx).mpr hp,hpx⟩

end Union

def shift (k : ℤ) (p : Piece α) : Piece α := ⟨p.start+k,p.data⟩

@[simp] theorem stop_shift (k : ℤ) (p : Piece α) : (p.shift k).stop = p.stop+k := by
  simp only [shift,stop]
  omega

@[simp] theorem shift_shift (k l : ℤ) (p : Piece α) : (p.shift k).shift l = p.shift (k+l) := by
  simp [shift,add_assoc]

@[simp] theorem shift_zero (p : Piece α) : p.shift 0 = p := by simp [shift]

theorem covers_shift (k : ℤ) : (p.shift k).Covers x ↔ p.Covers (x-k) := by
  unfold Covers
  rw [stop_shift]
  constructor <;> rintro ⟨hlo,hhi⟩ <;> exact ⟨by simp only [shift] at *; omega,by omega⟩

theorem at?_shift (k : ℤ) : (p.shift k).at? x = p.at? (x-k) := by
  simp [at?,shift,sub_sub,add_comm]

theorem Union.shift (h : Union ps u) (k : ℤ) : Union (ps.map (Piece.shift k)) (u.shift k) where
  covered x hx := by
    obtain ⟨p,hp,hpx⟩ := h.covered _ ((covers_shift k).mp hx)
    exact ⟨p.shift k,List.mem_map_of_mem hp,(covers_shift k).mpr hpx⟩
  fits p hp x hpx := by
    obtain ⟨q,hq,rfl⟩ := List.mem_map.mp hp
    obtain ⟨hu,hat⟩ := h.fits q hq _ ((covers_shift k).mp hpx)
    exact ⟨(covers_shift k).mpr hu,by rw [at?_shift,at?_shift,hat]⟩

/-- Append what `q` has beyond the end of `u`. -/
def extend (u q : Piece α) : Piece α := ⟨u.start,u.data++q.data.drop (u.stop-q.start).toNat⟩

theorem stop_extend (h : q.start ≤ u.stop) : (u.extend q).stop = max u.stop q.stop := by
  simp only [stop,extend,List.length_append,List.length_drop] at h ⊢
  omega

theorem at?_extend_left (h : u.Covers x) : (u.extend q).at? x = u.at? x := by
  have hi : (x-u.start).toNat < u.data.length := by
    simp only [Covers,stop] at h
    omega
  simp only [at?,extend]
  rw [List.getElem?_append_left hi]

theorem at?_extend_right (hstart : q.start ≤ u.stop) (hx : u.stop ≤ x) :
    (u.extend q).at? x = q.at? x := by
  have hi : u.data.length ≤ (x-u.start).toNat := by
    simp only [stop] at hx
    omega
  simp only [at?,extend]
  rw [List.getElem?_append_right hi,List.getElem?_drop]
  congr 1
  simp only [stop] at hstart hx ⊢
  omega

/-- The next piece begins inside the union or at its end and agrees with it. -/
theorem Union.extend (h : Union ps u) (hle : u.start ≤ q.start) (hstart : q.start ≤ u.stop)
    (hagree : ∀ x, u.Covers x → q.Covers x → u.at? x = q.at? x) : Union (ps++[q]) (u.extend q) where
  covered x hx := by
    by_cases hu : x < u.stop
    · obtain ⟨p,hp,hpx⟩ := h.covered x ⟨hx.1,hu⟩
      exact ⟨p,by simp [hp],hpx⟩
    · have hstop := hx.2
      rw [stop_extend hstart] at hstop
      exact ⟨q,by simp,by omega,by omega⟩
  fits p hp x hpx := by
    have hcovers : ∀ y, u.start ≤ y → y < max u.stop q.stop → (u.extend q).Covers y := by
      intro y hy hstop
      rw [← stop_extend hstart] at hstop
      exact ⟨hy,hstop⟩
    rcases List.mem_append.mp hp with hp | hp
    · obtain ⟨hu,hat⟩ := h.fits p hp x hpx
      exact ⟨hcovers x hu.1 (lt_max_of_lt_left hu.2),by rw [at?_extend_left hu,hat]⟩
    · obtain rfl := List.mem_singleton.mp hp
      refine ⟨hcovers x (hle.trans hpx.1) (lt_max_of_lt_right hpx.2),?_⟩
      by_cases hu : x < u.stop
      · have hux : u.Covers x := ⟨hle.trans hpx.1,hu⟩
        rw [at?_extend_left hux,hagree x hux hpx]
      · exact at?_extend_right hstart (not_lt.mp hu)

/-- No piece covers the position after the union of the first pieces, and the next ones begin
beyond it. -/
theorem not_union_of_gap (h : Union ps u) (hne : u.data ≠ []) (hgap : ∀ q ∈ qs, u.stop < q.start)
    (hq : q ∈ qs) (hqne : q.data ≠ []) : ¬Union (ps++qs) u' := by
  intro h'
  have hleft := (h.at?_eq h' (by simp) (covers_last hne)).1
  have hright := (h'.fits q (by simp [hq]) _ (covers_start hqne)).1
  have hmiddle : u'.Covers u.stop := ⟨by have := hleft.1; omega,(hgap q hq).trans hright.2⟩
  obtain ⟨p,hp,hpx⟩ := h'.covered _ hmiddle
  rcases List.mem_append.mp hp with hp | hp
  · exact absurd (h.fits p hp _ hpx).1.2 (lt_irrefl _)
  · exact absurd hpx.1 (not_le.mpr (hgap p hp))

/-- The next piece agrees with the first ones if there is a union at all. -/
theorem agree_of_union (h : Union ps u) (h' : Union (ps++q :: qs) u') (hu : u.Covers x)
    (hq : q.Covers x) : u.at? x = q.at? x := by
  rw [(h.at?_eq h' (by simp) hu).2,(h'.fits q (by simp) x hq).2]

/-- Two lists agree on the overlap exactly when the slices are equal. -/
theorem slice_eq_iff (hle : u.start ≤ q.start) (n : ℕ)
    (hn : (n : ℤ) = min (u.stop-q.start) q.data.length) :
    (u.data.drop (q.start-u.start).toNat).take n = q.data.take n ↔
      ∀ x, u.Covers x → q.Covers x → u.at? x = q.at? x := by
  constructor
  · intro h x hu hq
    have hi := congrArg (·[(x-q.start).toNat]?) h
    simp only [Covers,stop] at hu hq hn
    have hlt : (x-q.start).toNat < n := by omega
    simp only [List.getElem?_take,hlt,if_true,List.getElem?_drop] at hi
    rw [at?,at?,← hi]
    congr 1
    omega
  · intro h
    refine List.ext_getElem? fun i => ?_
    by_cases hlt : i < n
    · simp only [List.getElem?_take,hlt,if_true,List.getElem?_drop]
      have hx := h (q.start+i) ⟨by omega,by omega⟩ ⟨by omega,by simp only [stop]; omega⟩
      simp only [at?] at hx
      have hleft : (q.start+i-u.start).toNat = (q.start-u.start).toNat+i := by omega
      have hright : (q.start+i-q.start).toNat = i := by omega
      rwa [hleft,hright] at hx
    · simp [hlt]

/-- The pieces cover the interval from `lo` to `hi`. -/
def Spans (ps : List (Piece α)) (lo hi : ℤ) : Prop := ∀ x, (∃ p ∈ ps, p.Covers x) ↔ lo ≤ x ∧ x < hi

/-- The pieces have the same where they overlap. -/
def Agree (ps : List (Piece α)) : Prop :=
  ∀ p ∈ ps, ∀ q ∈ ps, ∀ x, p.Covers x → q.Covers x → p.at? x = q.at? x

theorem Union.spans (h : Union ps u) : Spans ps u.start u.stop := fun x => (h.covers_iff x).symm

theorem Union.agree (h : Union ps u) : Agree ps := by
  intro p hp q hq x hpx hqx
  rw [← (h.fits p hp x hpx).2,(h.fits q hq x hqx).2]

theorem at?_isSome (h : p.Covers x) : ∃ a, p.at? x = some a := by
  have hi : (x-p.start).toNat < p.data.length := by
    simp only [Covers,stop] at h
    omega
  exact ⟨_,List.getElem?_eq_getElem hi⟩

theorem exists_union {lo hi : ℤ} (hle : lo ≤ hi) (hspans : Spans ps lo hi) (hagree : Agree ps) :
    ∃ u : Piece α, u.start = lo ∧ u.stop = hi ∧ Union ps u := by
  have hhas : ∀ i : Fin (hi-lo).toNat, ∃ a, ∃ p ∈ ps, p.Covers (lo+i) ∧ p.at? (lo+i) = some a := by
    intro i
    obtain ⟨p,hp,hpx⟩ := (hspans (lo+i)).mpr ⟨by omega,by omega⟩
    obtain ⟨a,ha⟩ := at?_isSome hpx
    exact ⟨a,p,hp,hpx,ha⟩
  choose f hf using hhas
  have hstop : stop ⟨lo,List.ofFn f⟩ = hi := by
    simp only [stop,List.length_ofFn]
    omega
  refine ⟨⟨lo,List.ofFn f⟩,rfl,hstop,fun x hx => ?_,fun p hp x hpx => ?_⟩
  · exact (hspans x).mpr ⟨hx.1,hstop ▸ hx.2⟩
  · obtain ⟨hlo,hhi⟩ := (hspans x).mp ⟨p,hp,hpx⟩
    refine ⟨⟨hlo,hhi.trans_eq hstop.symm⟩,?_⟩
    have hi : (x-lo).toNat < (hi-lo).toNat := by omega
    obtain ⟨q,hq,hqx,hat⟩ := hf ⟨(x-lo).toNat,hi⟩
    have hx : lo+((x-lo).toNat : ℤ) = x := by omega
    simp only [hx] at hqx hat
    rw [hagree p hp q hq x hpx hqx,hat,at?]
    simp [hi]

end Piece
end FakeNetNG
