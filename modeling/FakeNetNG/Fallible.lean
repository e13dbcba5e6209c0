import Mathlib.Logic.Basic
import Mathlib.Tactic

/-!
# Computations that may raise

A computation over a state returns a value or raises, and the state it reached stands
either way. `wp` is the weakest precondition with one postcondition for returning and
one for raising; its rules follow the way a computation is put together.
-/

namespace FakeNetNG

/-- A chain of `Except` returns only through the values of its links. -/
theorem ok_of_bind {ε α β : Type} {m : Except ε α} {k : α → Except ε β} {b : β}
    (h : (m >>= k) = .ok b) : ∃ a, m = .ok a ∧ k a = .ok b := by
  cases m with
  | error e => cases h
  | ok a => exact ⟨a,rfl,h⟩

theorem error_of_bind {ε α β : Type} {m : Except ε α} {k : α → Except ε β} {e : ε} (h : (m >>= k) = .error e) :
    m = .error e ∨ ∃ a, m = .ok a ∧ k a = .error e := by
  cases m with
  | error e' =>
    cases h
    exact .inl rfl
  | ok a => exact .inr ⟨a,rfl,h⟩

theorem isOk_iff {ε α : Type} {e : Except ε α} : e.isOk = true ↔ ∃ a, e = .ok a := by
  cases e <;> simp [Except.isOk,Except.toBool]

theorem isOk_mapM {ε α β : Type} {f : α → Except ε β} {l : List α} :
    (l.mapM f).isOk = true ↔ ∀ a ∈ l, (f a).isOk = true := by
  induction l with
  | nil => simp [Except.isOk,Except.toBool,pure,Except.pure]
  | cons a l ih =>
    rw [List.mapM_cons,List.forall_mem_cons,← ih]
    cases f a <;> cases l.mapM f <;>
      simp [Except.isOk,Except.toBool,bind,Except.bind,pure,Except.pure]

def Fallible (σ ε α : Type) := σ → Except ε α × σ

namespace Fallible

variable {σ ε α β : Type}

def bind (m : Fallible σ ε α) (k : α → Fallible σ ε β) : Fallible σ ε β := fun s =>
  match m s with
  | (.ok a,s) => k a s
  | (.error e,s) => (.error e,s)

instance : Monad (Fallible σ ε) where
  pure a := fun s => (.ok a,s)
  bind := bind

def get : Fallible σ ε σ := fun s => (.ok s,s)

def modify (f : σ → σ) : Fallible σ ε Unit := fun s => (.ok (),f s)

def raise (e : ε) : Fallible σ ε α := fun s => (.error e,s)

/-- A computation that does not look at the state. -/
def ofExcept (m : Except ε α) : Fallible σ ε α := fun s => (m,s)

/-- `try: m; except e: handler e`. -/
def tryExcept (m : Fallible σ ε α) (handler : ε → Fallible σ ε α) : Fallible σ ε α := fun s =>
  match m s with
  | (.ok a,s) => (.ok a,s)
  | (.error e,s) => handler e s

/-- What must hold before `m` so that `Q` holds if it returns and `E` if it raises. -/
def wp (m : Fallible σ ε α) (Q : α → σ → Prop) (E : ε → σ → Prop) (s : σ) : Prop :=
  match m s with
  | (.ok a,s) => Q a s
  | (.error e,s) => E e s

variable {Q : α → σ → Prop} {E : ε → σ → Prop} {s : σ}

@[simp] theorem wp_pure (a : α) : wp (pure a) Q E s ↔ Q a s := Iff.rfl

@[simp] theorem wp_get {Q : σ → σ → Prop} : wp get Q E s ↔ Q s s := Iff.rfl

@[simp] theorem wp_modify {Q : Unit → σ → Prop} (f : σ → σ) :
    wp (modify f) Q E s ↔ Q () (f s) := Iff.rfl

@[simp] theorem wp_raise (e : ε) : wp (raise e) Q E s ↔ E e s := Iff.rfl

theorem wp_ofExcept (m : Except ε α) :
    wp (ofExcept m) Q E s ↔ (∀ a, m = .ok a → Q a s) ∧ ∀ e, m = .error e → E e s := by
  cases m with
  | error e => simp [wp,ofExcept]
  | ok a => simp [wp,ofExcept]

@[simp] theorem wp_bind {Q : β → σ → Prop} (m : Fallible σ ε α) (k : α → Fallible σ ε β) :
    wp (m >>= k) Q E s ↔ wp m (fun a => wp (k a) Q E) E s := by
  change wp (m.bind k) Q E s ↔ _
  unfold wp bind
  rcases m s with ⟨_ | _,_⟩ <;> rfl

@[simp] theorem wp_tryExcept (m : Fallible σ ε α) (handler : ε → Fallible σ ε α) :
    wp (m.tryExcept handler) Q E s ↔ wp m Q (fun e => wp (handler e) Q E) s := by
  unfold wp tryExcept
  rcases m s with ⟨_ | _,_⟩ <;> rfl

theorem wp_mono {Q' : α → σ → Prop} {E' : ε → σ → Prop} {m : Fallible σ ε α} (h : wp m Q E s)
    (hq : ∀ a s, Q a s → Q' a s) (he : ∀ e s, E e s → E' e s) : wp m Q' E' s := by
  unfold wp at h ⊢
  generalize m s = r at h ⊢
  rcases r with ⟨_ | _,_⟩
  · exact he _ _ h
  · exact hq _ _ h

/-- A chain returns only through the values of its links. -/
theorem run_of_bind {m : Fallible σ ε α} {k : α → Fallible σ ε β} {b : β} {s s' : σ}
    (h : (m >>= k) s = (.ok b,s')) : ∃ a t, m s = (.ok a,t) ∧ k a t = (.ok b,s') := by
  change m.bind k s = _ at h
  unfold bind at h
  rcases hm : m s with ⟨_ | a,t⟩
  · rw [hm] at h
    cases h
  · rw [hm] at h
    exact ⟨a,t,rfl,h⟩

theorem returns_of_wp {m : Fallible σ ε α} (h : wp m Q (fun _ _ => False) s) :
    ∃ a s', m s = (.ok a,s') ∧ Q a s' := by
  unfold wp at h
  generalize m s = r at h ⊢
  rcases r with ⟨_ | a,s'⟩
  · exact h.elim
  · exact ⟨a,s',rfl,h⟩

/-- The state that the computation leaves, returned from or raised in. -/
def final (m : Fallible σ ε α) (s : σ) : σ := (m s).2

theorem final_of_wp {I : σ → Prop} {m : Fallible σ ε α}
    (h : wp m (fun _ => I) (fun _ => I) s) : I (m.final s) := by
  unfold wp at h
  unfold final
  generalize m s = r at h ⊢
  rcases r with ⟨_ | _,_⟩ <;> exact h

end Fallible
end FakeNetNG
