import FakeNetNG.Fallible

/-!
# Reading an input block by block

A step reads one block off the front of an input. A scan repeats it until the input is used up or a block cannot
be read, and keeps the state it had reached. `Reads` says which blocks lead from one state to another: what a
scan reaches is the end of the longest run of blocks that can be read.
-/

namespace FakeNetNG
namespace BlockScan

variable {σ β ε : Type}

/-- The state after the blocks that were read, and what was wrong with the next one. -/
def scan (step : σ → List β → Except ε (σ × List β)) : ℕ → σ → List β → σ × Option ε
  | 0, s, _ => (s,none)
  | fuel+1, s, input =>
    if input.isEmpty then (s,none)
    else match step s input with
      | .error e => (s,some e)
      | .ok (s',rest) => scan step fuel s' rest

/-- A step takes a block off the input and does not look behind it. -/
def Local (step : σ → List β → Except ε (σ × List β)) : Prop :=
  ∀ s s' input rest, step s input = .ok (s',rest) →
    ∃ block, block ≠ [] ∧ input = block++rest ∧ ∀ more, step s (block++more) = .ok (s',more)

/-- The blocks lead from one state to the other, whatever comes after them. -/
inductive Reads (step : σ → List β → Except ε (σ × List β)) : σ → List (List β) → σ → Prop
  | nil (s : σ) : Reads step s [] s
  | cons {s s' s'' : σ} {block : List β} {blocks : List (List β)} (hne : block ≠ [])
      (hstep : ∀ more, step s (block++more) = .ok (s',more)) (htail : Reads step s' blocks s'') :
      Reads step s (block :: blocks) s''

variable {step : σ → List β → Except ε (σ × List β)} {s s' : σ} {blocks : List (List β)}
  {input rest : List β} {fuel : ℕ}

theorem Reads.related {r : σ → σ → Prop} (hrefl : ∀ s, r s s) (htrans : ∀ a b c, r a b → r b c → r a c)
    (hstep : ∀ s s' input rest, step s input = .ok (s',rest) → r s s') (h : Reads step s blocks s') : r s s' := by
  induction h with
  | nil s => exact hrefl s
  | cons _ hblock _ ih => exact htrans _ _ _ (hstep _ _ _ _ (hblock [])) ih

theorem Reads.length_le (h : Reads step s blocks s') : blocks.length ≤ blocks.flatten.length := by
  induction h with
  | nil s => exact le_rfl
  | cons hne _ _ ih =>
    have hpos := List.length_pos_iff.mpr hne
    simp only [List.length_cons,List.flatten_cons,List.length_append]
    omega

theorem scan_append (h : Reads step s blocks s') (rest : List β) :
    scan step (blocks.length+fuel) s (blocks.flatten++rest) = scan step fuel s' rest := by
  induction h with
  | nil s => simp
  | @cons s s' s'' block blocks hne hblock _ ih =>
    have hinput : ((block :: blocks).flatten++rest).isEmpty = false := by
      simp [hne]
    rw [List.length_cons,Nat.add_right_comm,scan,hinput]
    simp only [List.flatten_cons,List.append_assoc,hblock,Bool.false_eq_true,if_false]
    exact ih

/-- What a scan reaches is read block by block, and without a fault the blocks are all of the input. -/
theorem scan_reads (hlocal : Local step) (hfuel : input.length ≤ fuel) :
    ∃ blocks rest, input = blocks.flatten++rest ∧ Reads step s blocks (scan step fuel s input).1 ∧
      ((scan step fuel s input).2 = none → rest = []) := by
  induction fuel generalizing s input with
  | zero =>
    obtain rfl : input = [] := List.length_eq_zero_iff.mp (Nat.le_zero.mp hfuel)
    exact ⟨[],[],rfl,.nil s,fun _ => rfl⟩
  | succ fuel ih =>
    rw [scan]
    by_cases hempty : input.isEmpty = true
    · rw [if_pos hempty]
      exact ⟨[],[],List.isEmpty_iff.mp hempty,.nil s,fun _ => rfl⟩
    rw [if_neg hempty]
    cases hstep : step s input with
    | error e => exact ⟨[],input,rfl,.nil s,fun h => nomatch h⟩
    | ok next =>
      obtain ⟨s',rest⟩ := next
      obtain ⟨block,hne,rfl,hblock⟩ := hlocal s s' input rest hstep
      have hpos := List.length_pos_iff.mpr hne
      have hrest : rest.length ≤ fuel := by
        simp only [List.length_append] at hfuel
        omega
      obtain ⟨blocks,rest',rfl,hreads,hdone⟩ := ih (s:=s') hrest
      exact ⟨block :: blocks,rest',by simp,.cons hne hblock hreads,hdone⟩

/-- Nothing that can be read off the front of an input is beyond what a scan of it reaches. -/
theorem reads_before_scan {r : σ → σ → Prop} (hlocal : Local step) (hrefl : ∀ s, r s s)
    (htrans : ∀ a b c, r a b → r b c → r a c) (hstep : ∀ s s' input rest, step s input = .ok (s',rest) → r s s')
    (h : Reads step s blocks s') (hfuel : (blocks.flatten++rest).length ≤ fuel) :
    r s' (scan step fuel s (blocks.flatten++rest)).1 := by
  have hlength := h.length_le
  simp only [List.length_append] at hfuel
  obtain ⟨more,rfl⟩ := Nat.exists_eq_add_of_le (show blocks.length ≤ fuel by omega)
  rw [scan_append h]
  obtain ⟨_,_,_,hreads,_⟩ := scan_reads hlocal (s:=s') (show rest.length ≤ more by omega)
  exact hreads.related hrefl htrans hstep

end BlockScan
end FakeNetNG
