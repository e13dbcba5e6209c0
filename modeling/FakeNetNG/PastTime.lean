import Mathlib.Data.List.Basic
import Mathlib.Tactic

/-!
# What has held since an event

Histories are lists of events with the newest first. `Since keeps marks log` says that
some event of the history satisfies `marks` and every later one satisfies `keeps`.
-/

namespace FakeNetNG

section

variable {ε : Type}

/-- Past-time `since` on a history with the newest event first. -/
def Since (keeps marks : ε → Prop) (log : List ε) : Prop :=
  ∃ later e earlier, log = later++e::earlier ∧ marks e ∧ ∀ e' ∈ later, keeps e'

variable {keeps marks : ε → Prop} {e : ε} {log : List ε}

@[simp] theorem not_since_nil : ¬Since keeps marks [] := by
  rintro ⟨later,e,earlier,he,-⟩
  simp at he

/-- How one more event changes what has held since. -/
theorem since_cons : Since keeps marks (e::log) ↔ marks e ∨ keeps e ∧ Since keeps marks log := by
  constructor
  · rintro ⟨later,e',earlier,he,hm,hk⟩
    cases later with
    | nil =>
      cases he
      exact .inl hm
    | cons x later =>
      cases he
      exact .inr ⟨hk _ (by simp),later,e',earlier,rfl,hm,fun y hy => hk y (by simp [hy])⟩
  · rintro (hm | ⟨hk,later,e',earlier,rfl,hm,hall⟩)
    · exact ⟨[],e,log,rfl,hm,by simp⟩
    · refine ⟨e::later,e',earlier,rfl,hm,?_⟩
      intro y hy
      rcases List.mem_cons.mp hy with rfl | hy
      · exact hk
      · exact hall y hy

theorem since_cons_of_keeps (hk : keeps e) (hm : ¬marks e) :
    Since keeps marks (e::log) ↔ Since keeps marks log := by
  simp [since_cons,hk,hm]

theorem since_cons_of_not_keeps (hk : ¬keeps e) : Since keeps marks (e::log) ↔ marks e := by
  simp [since_cons,hk]

end
end FakeNetNG
