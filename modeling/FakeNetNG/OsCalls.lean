import FakeNetNG.Fallible

/-!
# Programs that call the system

A call of the system has its effect or is refused, and a refused call leaves some damage. `Spec` is the
specification of a program under all outcomes of its calls, with one postcondition for returning and one
for raising; `Smooth` says where the program ends when no call is refused.
-/

namespace FakeNetNG

inductive Outcome (δ : Type)
  | done
  | refused (damage : δ)

/-- The outcomes of the coming calls are part of the state. After the last of them no call is refused. -/
abbrev OsProgram (σ δ ε : Type) := Fallible (σ × List (Outcome δ)) ε

namespace OsProgram

open Fallible

variable {σ δ ε α β : Type}

def call (e : ε) (f : σ → σ) (damaged : δ → σ → σ) : OsProgram σ δ ε Unit := fun w =>
  match w.2 with
  | [] => (.ok (),f w.1,[])
  | .done :: later => (.ok (),f w.1,later)
  | .refused damage :: later => (.error e,damaged damage w.1,later)

/-- A look at the state, which the system does not refuse. -/
def look : OsProgram σ δ ε σ := fun w => (.ok w.1,w)

/-- An assignment to a variable of the program. -/
def assign (f : σ → σ) : OsProgram σ δ ε Unit := modify fun w => (f w.1,w.2)

/-- A check that needs no call. -/
def check (m : Except ε α) : OsProgram σ δ ε α := ofExcept m

def Spec (m : OsProgram σ δ ε α) (Q : α → σ → Prop) (E : ε → σ → Prop) (s : σ) : Prop :=
  ∀ later, wp m (fun a w => Q a w.1) (fun e w => E e w.1) (s,later)

variable {Q : α → σ → Prop} {E : ε → σ → Prop} {s t : σ}

theorem spec_pure {a : α} (h : Q a s) : Spec (pure a : OsProgram σ δ ε α) Q E s := fun _ => h

theorem spec_raise {e : ε} (h : E e s) : Spec (raise e : OsProgram σ δ ε α) Q E s := fun _ => h

theorem spec_look {Q : σ → σ → Prop} (h : Q s s) : Spec (look : OsProgram σ δ ε σ) Q E s := fun _ => h

theorem spec_assign {Q : Unit → σ → Prop} {f : σ → σ} (h : Q () (f s)) :
    Spec (assign f : OsProgram σ δ ε Unit) Q E s := fun _ => h

theorem spec_check {m : Except ε α} (hok : ∀ a, m = .ok a → Q a s) (herror : ∀ e, m = .error e → E e s) :
    Spec (check m : OsProgram σ δ ε α) Q E s := by
  intro later
  rw [check,wp_ofExcept]
  exact ⟨hok,herror⟩

theorem spec_call {Q : Unit → σ → Prop} {e : ε} {f : σ → σ} {damaged : δ → σ → σ} (hdone : Q () (f s))
    (hrefused : ∀ damage, E e (damaged damage s)) : Spec (call e f damaged) Q E s := by
  intro later
  unfold wp call
  cases later with
  | nil => exact hdone
  | cons outcome later =>
    cases outcome with
    | done => exact hdone
    | refused damage => exact hrefused damage

theorem Spec.bind {P : α → σ → Prop} {Q : β → σ → Prop} {m : OsProgram σ δ ε α} {k : α → OsProgram σ δ ε β}
    (hm : Spec m P E s) (hk : ∀ a t, P a t → Spec (k a) Q E t) : Spec (m >>= k) Q E s := by
  intro later
  rw [wp_bind]
  refine wp_mono (hm later) (fun a w hw => ?_) fun _ _ h => h
  exact hk a w.1 hw w.2

/-- `try: m; except e: handler e`. -/
theorem spec_tryExcept {P : ε → σ → Prop} {m : OsProgram σ δ ε α} {handler : ε → OsProgram σ δ ε α}
    (hm : Spec m Q P s) (hhandler : ∀ e t, P e t → Spec (handler e) Q E t) :
    Spec (tryExcept m handler) Q E s := by
  intro later
  rw [wp_tryExcept]
  refine wp_mono (hm later) (fun _ _ h => h) fun e w hw => ?_
  exact hhandler e w.1 hw w.2

theorem Spec.mono {Q' : α → σ → Prop} {E' : ε → σ → Prop} {m : OsProgram σ δ ε α} (hm : Spec m Q E s)
    (hq : ∀ a t, Q a t → Q' a t) (he : ∀ e t, E e t → E' e t) : Spec m Q' E' s :=
  fun later => wp_mono (hm later) (fun a w h => hq a w.1 h) fun e w h => he e w.1 h

theorem Spec.of_ok {m : OsProgram σ δ ε α} (hm : Spec m Q E s) {later : List (Outcome δ)} {a : α}
    (ha : (m (s,later)).1 = .ok a) : Q a (m (s,later)).2.1 := by
  have hwp := hm later
  unfold wp at hwp
  generalize m (s,later) = r at hwp ha ⊢
  obtain ⟨e | a',w⟩ := r
  · cases ha
  · cases ha
    exact hwp

theorem Spec.of_error {m : OsProgram σ δ ε α} (hm : Spec m Q E s) {later : List (Outcome δ)} {e : ε}
    (he : (m (s,later)).1 = .error e) : E e (m (s,later)).2.1 := by
  have hwp := hm later
  unfold wp at hwp
  generalize m (s,later) = r at hwp he ⊢
  obtain ⟨e' | a,w⟩ := r
  · cases he
    exact hwp
  · cases he

/-- The program returns `a` and leaves `t`. -/
def Smooth (m : OsProgram σ δ ε α) (a : α) (s t : σ) : Prop := m (s,[]) = (.ok a,t,[])

theorem smooth_pure (a : α) : Smooth (pure a : OsProgram σ δ ε α) a s s := rfl

theorem smooth_look : Smooth (look : OsProgram σ δ ε σ) s s s := rfl

theorem smooth_assign (f : σ → σ) : Smooth (assign f : OsProgram σ δ ε Unit) () s (f s) := rfl

theorem smooth_check {m : Except ε α} {a : α} (h : m = .ok a) : Smooth (check m : OsProgram σ δ ε α) a s s := by
  rw [h]
  rfl

theorem smooth_call (e : ε) (f : σ → σ) (damaged : δ → σ → σ) : Smooth (call e f damaged) () s (f s) := rfl

theorem Smooth.bind {m : OsProgram σ δ ε α} {k : α → OsProgram σ δ ε β} {a : α} {b : β} {u : σ}
    (hm : Smooth m a s t) (hk : Smooth (k a) b t u) : Smooth (m >>= k) b s u := by
  show Fallible.bind m k (s,[]) = _
  rw [Fallible.bind,show m (s,[]) = _ from hm]
  exact hk

theorem Smooth.bind_exists {m : OsProgram σ δ ε α} {k : α → OsProgram σ δ ε β} {a : α} {b : β}
    (hm : Smooth m a s t) (hk : ∃ u, Smooth (k a) b t u) : ∃ u, Smooth (m >>= k) b s u := by
  obtain ⟨u,hu⟩ := hk
  exact ⟨u,hm.bind hu⟩

theorem Smooth.tryExcept {m : OsProgram σ δ ε α} {handler : ε → OsProgram σ δ ε α} {a : α}
    (hm : Smooth m a s t) : Smooth (tryExcept m handler) a s t := by
  unfold Smooth Fallible.tryExcept
  rw [show m (s,[]) = _ from hm]

end OsProgram
end FakeNetNG
