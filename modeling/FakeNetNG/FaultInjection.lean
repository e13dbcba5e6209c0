import FakeNetNG.Fallible

/-!
# Computations whose steps may fail

Each step takes the next fault from a list: it succeeds, raises, or is the last one before a
crash, and a failed step leaves its effect or not. `Meets` is the specification of a computation
under all faults: what holds if it returns, what holds wherever it stops, and that it returns when
there are no faults to come.
-/

namespace FakeNetNG

/-- How a step goes. A step that fails may have had its effect. -/
inductive StepFault
  | none
  | raises (applied : Bool)
  | crashes (applied : Bool)

inductive Halt
  | raised (message : String)
  | crashed

/-- The faults of the coming steps are part of the state, and a step without one succeeds. -/
abbrev Faulty (σ : Type) := Fallible (σ × List StepFault) Halt

namespace Faulty

open Fallible

variable {σ α β : Type}

def attempt (f : σ → α × σ) : Faulty σ α := fun s =>
  match s.2 with
  | [] => (.ok (f s.1).1,(f s.1).2,[])
  | .none :: faults => (.ok (f s.1).1,(f s.1).2,faults)
  | .raises applied :: faults =>
      (.error (.raised "OSError"),if applied then (f s.1).2 else s.1,faults)
  | .crashes applied :: faults => (.error .crashed,if applied then (f s.1).2 else s.1,faults)

/-- A look at the state that cannot fail. -/
def state : Faulty σ σ := fun s => (.ok s.1,s)

/-- From `s` the computation returns with `post` or stops with `fail`, and only the first if
`healthy` says that no fault is left. -/
def Meets (healthy : Prop) (m : Faulty σ α) (post : α → σ → Prop) (fail : σ → Prop) (s : σ) : Prop :=
  ∀ faults, (healthy → faults = []) →
    wp m (fun a t => post a t.1 ∧ (healthy → t.2 = [])) (fun _ t => fail t.1 ∧ ¬healthy) (s,faults)

variable {healthy : Prop} {Q : α → σ → Prop} {R : σ → Prop} {s : σ}

theorem meets_pure {a : α} (h : Q a s) : Meets healthy (pure a) Q R s :=
  fun _ hfaults => ⟨h,hfaults⟩

theorem meets_raise {e : Halt} (hunhealthy : ¬healthy) (h : R s) :
    Meets healthy (raise e) Q R s := fun _ _ => ⟨h,hunhealthy⟩

theorem meets_state {Q : σ → σ → Prop} (h : Q s s) : Meets healthy state Q R s :=
  fun _ hfaults => ⟨h,hfaults⟩

theorem meets_attempt {f : σ → α × σ} (h : Q (f s).1 (f s).2)
    (hfail : ¬healthy → R s ∧ R (f s).2) : Meets healthy (attempt f) Q R s := by
  intro faults hfaults
  have hstop : ∀ applied : Bool, ¬healthy → R (if applied then (f s).2 else s) := by
    intro applied hunhealthy
    cases applied
    · exact (hfail hunhealthy).1
    · exact (hfail hunhealthy).2
  unfold wp attempt
  cases faults with
  | nil => exact ⟨h,fun _ => rfl⟩
  | cons fault faults =>
    have hunhealthy : ¬healthy := fun hh => by cases hfaults hh
    cases fault with
    | none => exact ⟨h,fun hh => absurd hh hunhealthy⟩
    | raises applied => exact ⟨hstop applied hunhealthy,hunhealthy⟩
    | crashes applied => exact ⟨hstop applied hunhealthy,hunhealthy⟩

theorem Meets.bind {P : α → σ → Prop} {Q : β → σ → Prop} {m : Faulty σ α} {k : α → Faulty σ β}
    (hm : Meets healthy m P R s) (hk : ∀ a t, P a t → Meets healthy (k a) Q R t) :
    Meets healthy (m >>= k) Q R s := by
  intro faults hfaults
  rw [wp_bind]
  refine wp_mono (hm faults hfaults) (fun a t ht => ?_) fun _ _ h => h
  exact hk a t.1 ht.1 t.2 ht.2

theorem Meets.mono {Q' : α → σ → Prop} {R' : σ → Prop} {m : Faulty σ α}
    (hm : Meets healthy m Q R s) (hpost : ∀ a t, Q a t → Q' a t)
    (hfail : ∀ t, R t → R' t) : Meets healthy m Q' R' s := by
  intro faults hfaults
  refine wp_mono (hm faults hfaults) (fun a t ht => ?_) fun _ t ht => ?_
  · exact ⟨hpost a t.1 ht.1,ht.2⟩
  · exact ⟨hfail t.1 ht.1,ht.2⟩

theorem meets_tryExcept {P : σ → Prop} {m : Faulty σ α} {handler : Halt → Faulty σ α}
    (hm : Meets healthy m Q P s)
    (hhandler : ¬healthy → ∀ e t, P t → Meets healthy (handler e) Q R t) :
    Meets healthy (tryExcept m handler) Q R s := by
  intro faults hfaults
  rw [wp_tryExcept]
  refine wp_mono (hm faults hfaults) (fun _ _ h => h) fun e t ht => ?_
  exact hhandler ht.2 e t.1 ht.1 t.2 fun hh => absurd hh ht.2

/-- What a computation leaves when anything may R. -/
theorem Meets.final {inv : σ → Prop} {m : Faulty σ α}
    (hm : Meets False m (fun _ => inv) inv s) (faults : List StepFault) :
    inv (m (s,faults)).2.1 := by
  have hwp := hm faults False.elim
  unfold wp at hwp
  generalize m (s,faults) = r at hwp ⊢
  obtain ⟨_ | _,_⟩ := r
  · exact hwp.1
  · exact hwp.1

theorem Meets.of_ok {m : Faulty σ α} (hm : Meets False m Q R s) {faults : List StepFault} {a : α}
    (ha : (m (s,faults)).1 = .ok a) : Q a (m (s,faults)).2.1 := by
  have hwp := hm faults False.elim
  unfold wp at hwp
  generalize m (s,faults) = r at hwp ha ⊢
  obtain ⟨_ | _,_⟩ := r
  · cases ha
  · cases ha
    exact hwp.1

theorem Meets.returns {m : Faulty σ α} (hm : Meets True m Q R s) :
    ∃ a, (m (s,[])).1 = .ok a := by
  have hwp := hm [] fun _ => rfl
  unfold wp at hwp
  generalize m (s,[]) = r at hwp ⊢
  obtain ⟨e | a,_⟩ := r
  · exact absurd trivial hwp.2
  · exact ⟨a,rfl⟩

end Faulty
end FakeNetNG
