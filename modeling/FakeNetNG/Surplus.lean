import Mathlib.Data.List.Count
import Mathlib.Data.List.Dedup
import Mathlib.Tactic

/-!
# What a list has more often than another

The elements that occur more often in one list than in another, as often as they do. Two lists without a surplus
on either side count alike.
-/

namespace FakeNetNG

variable {α : Type} [DecidableEq α]

/-- The surplus of the first list, in the order of the first occurrences. -/
def surplus (l l' : List α) : List α := l.eraseDups.flatMap fun a => List.replicate (l.count a-l'.count a) a

variable {l l' : List α} {a : α}

theorem mem_surplus : a ∈ surplus l l' ↔ l'.count a < l.count a := by
  rw [surplus,List.mem_flatMap]
  constructor
  · rintro ⟨b,-,hmem⟩
    obtain ⟨hne,rfl⟩ := List.mem_replicate.mp hmem
    omega
  · intro hlt
    have hmem : a ∈ l := List.count_pos_iff.mp (Nat.zero_lt_of_lt hlt)
    exact ⟨a,List.mem_eraseDups.mpr hmem,List.mem_replicate.mpr ⟨by omega,rfl⟩⟩

/-- A different number of elements with a property comes from an element that occurs a different number of times. -/
theorem exists_count_ne {p : α → Bool} (h : l.countP p ≠ l'.countP p) : ∃ a, p a = true ∧ l.count a ≠ l'.count a := by
  by_contra hno
  push Not at hno
  have hperm : (l.filter p).Perm (l'.filter p) := by
    refine List.perm_iff_count.mpr fun a => ?_
    by_cases ha : p a = true
    · rw [List.count_filter ha,List.count_filter ha,hno a ha]
    · have hout : ∀ l : List α, (l.filter p).count a = 0 := by
        intro l
        exact List.count_eq_zero.mpr fun hmem => ha (List.mem_filter.mp hmem).2
      rw [hout,hout]
  refine h ?_
  rw [List.countP_eq_length_filter,List.countP_eq_length_filter,hperm.length_eq]

theorem exists_surplus {p : α → Bool} (h : l.countP p ≠ l'.countP p) : ∃ a, p a = true ∧ (a ∈ surplus l l' ∨ a ∈ surplus l' l) := by
  obtain ⟨a,ha,hne⟩ := exists_count_ne h
  refine ⟨a,ha,?_⟩
  rw [mem_surplus,mem_surplus]
  omega

end FakeNetNG
