import Mathlib.Data.List.Basic
import Mathlib.Tactic

/-!
# Systems that refuse an event or take it

A system is given by what each event does to a state, where an event that the state does not allow
has no result. A run takes its events in turn; the rules here carry what one event preserves over
the runs of any length, for all events and for the events of one kind.
-/

namespace FakeNetNG
namespace GuardedSteps

variable {σ ε α : Type*} {step : σ → ε → Option σ} {s t u : σ} {e : ε} {events : List ε}

/-- What a condition on the state permits. -/
def allow (p : Prop) [Decidable p] (t : σ) : Option σ := if p then some t else none

theorem allow_eq_some {p : Prop} [Decidable p] : allow p t = some u ↔ p ∧ t = u := by
  unfold allow
  split_ifs with hp <;> simp [hp]

/-- The events in turn. There is no result when one of them is refused. -/
def run (step : σ → ε → Option σ) (s : σ) (events : List ε) : Option σ := events.foldlM step s

theorem run_cons_some (h : run step s (e::events) = some t) :
    ∃ u, step s e = some u ∧ run step u events = some t := Option.bind_eq_some_iff.mp h

def Reaches (step : σ → ε → Option σ) (s t : σ) : Prop := ∃ events, run step s events = some t

/-- What every event keeps holds of all that is reached. -/
theorem Reaches.invariant {I : σ → Prop} (h : Reaches step s t) (hs : I s)
    (hstep : ∀ s e t, I s → step s e = some t → I t) : I t := by
  obtain ⟨events,hrun⟩ := h
  induction events generalizing s with
  | nil =>
    cases hrun
    exact hs
  | cons e events ih =>
    obtain ⟨u,he,hrest⟩ := run_cons_some hrun
    exact ih (hstep s e u hs he) hrest

/-- Under an invariant of the system, what the events of a kind keep and leave unchanged is kept and
left unchanged by a run of such events. -/
theorem run_frame {I J : σ → Prop} {ok : ε → Prop} {f : σ → α}
    (hinv : ∀ s e t, I s → step s e = some t → I t)
    (hstep : ∀ s e t, I s → J s → ok e → step s e = some t → J t ∧ f t = f s) (hi : I s) (hj : J s)
    (hok : ∀ e ∈ events, ok e) (hrun : run step s events = some t) : J t ∧ f t = f s := by
  induction events generalizing s with
  | nil =>
    cases hrun
    exact ⟨hj,rfl⟩
  | cons e events ih =>
    obtain ⟨u,he,hrest⟩ := run_cons_some hrun
    rw [List.forall_mem_cons] at hok
    obtain ⟨hju,hfu⟩ := hstep s e u hi hj hok.1 he
    obtain ⟨hjt,hft⟩ := ih (hinv s e u hi he) hju hok.2 hrest
    exact ⟨hjt,hft.trans hfu⟩

end GuardedSteps
end FakeNetNG
