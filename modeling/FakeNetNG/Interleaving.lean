import Mathlib.Logic.Relation
import Mathlib.Logic.Function.Basic
import Mathlib.Order.Monotone.Basic
import Mathlib.Data.Rat.Init
import Mathlib.Algebra.Order.Field.Rat
import Mathlib.Tactic

/-!
# Programs of atomic sections

A program over a shared state is a tree of atomic steps. One step is what a thread
does between taking and releasing the lock, or one unlocked read. `run` is the
execution of one program without interruption and `Pool.Step` the arbitrary
interleaving of any number of calls. `Ensures` and `Late` are invariant rules for
programs whose sections keep an invariant in every state, and `Safe` is the
rely-guarantee form for a thread that depends on what the other threads do not do.
-/

namespace FakeNetNG

/-- A non-decreasing clock and the number of readings taken from it so far. -/
structure Clock where
  readings : ℕ → ℚ
  mono : Monotone readings
  tick : ℕ

namespace Clock

/-- What the next call of the clock returns. -/
def now (c : Clock) : ℚ := c.readings c.tick

def next (c : Clock) : Clock := { c with tick := c.tick+1 }

/-- Every earlier reading, so what it dominates has been passed by the clock. -/
def Seen (c : Clock) (t : ℚ) : Prop := ∃ i < c.tick, t ≤ c.readings i

theorem now_le_next (c : Clock) : c.now ≤ c.next.now := c.mono (Nat.le_succ _)

theorem seen_le_now {c : Clock} {t : ℚ} (h : c.Seen t) : t ≤ c.now := by
  obtain ⟨i,hi,ht⟩ := h
  exact ht.trans (c.mono hi.le)

theorem le_now_of_seen_next {c : Clock} {t : ℚ} (h : c.next.Seen t) : t ≤ c.now := by
  obtain ⟨i,hi,ht⟩ := h
  exact ht.trans (c.mono (Nat.le_of_lt_succ hi))

theorem seen_next {c : Clock} {t : ℚ} (h : c.Seen t) : c.next.Seen t := by
  obtain ⟨i,hi,ht⟩ := h
  exact ⟨i,Nat.lt_succ_of_lt hi,ht⟩

theorem seen_next_of_le {c : Clock} {t : ℚ} (h : t ≤ c.now) : c.next.Seen t :=
  ⟨c.tick,Nat.lt_succ_self _,h⟩

/-- A clock that gains `period` seconds at each reading. -/
def every (period : ℕ) : Clock :=
  ⟨fun i => (period*i : ℕ),fun _ _ h => Nat.cast_le.mpr (Nat.mul_le_mul_left period h),0⟩

end Clock

/-- `step f k` updates the shared state by `f` and goes on with `k`, which sees the state
before the step. -/
inductive Prog (σ α : Type)
  | done (a : α)
  | step (f : σ → σ) (k : σ → Prog σ α)

namespace Prog

variable {σ α β : Type}

def bind : Prog σ α → (α → Prog σ β) → Prog σ β
  | done a, g => g a
  | step f k, g => step f fun s => (k s).bind g

instance : Monad (Prog σ) where
  pure := done
  bind := bind

@[simp] theorem pure_eq (a : α) : (pure a : Prog σ α) = done a := rfl
@[simp] theorem bind_eq (p : Prog σ α) (g : α → Prog σ β) : p >>= g = p.bind g := rfl
@[simp] theorem bind_done (a : α) (g : α → Prog σ β) : (done a : Prog σ α).bind g = g a := rfl

def locked (m : σ → α × σ) : Prog σ α :=
  step (fun s => (m s).2) fun s => done (m s).1

def read (f : σ → α) : Prog σ α := locked fun s => (f s,s)

/-- Execution of one program with no other thread in between. -/
def run : Prog σ α → σ → α × σ
  | done a, s => (a,s)
  | step f k, s => (k s).run (f s)

@[simp] theorem run_done (a : α) (s : σ) : (done a : Prog σ α).run s = (a,s) := rfl

@[simp] theorem run_bind (p : Prog σ α) (g : α → Prog σ β) (s : σ) :
    (p.bind g).run s = (g (p.run s).1).run (p.run s).2 := by
  induction p generalizing s with
  | done a => rfl
  | step f k ih => exact ih s (f s)

@[simp] theorem run_locked (m : σ → α × σ) (s : σ) : (locked m).run s = m s := rfl
@[simp] theorem run_read (f : σ → α) (s : σ) : (read f).run s = (f s,s) := rfl

/-- What the program returns when its `i`-th section finds the state `found i`, whatever
the other threads did in between. -/
def under : Prog σ α → (ℕ → σ) → α
  | done a, _ => a
  | step _ k, found => (k (found 0)).under fun i => found (i+1)

@[simp] theorem under_done (a : α) (found : ℕ → σ) : (done a : Prog σ α).under found = a := rfl
@[simp] theorem under_locked (m : σ → α × σ) (found : ℕ → σ) :
    (locked m).under found = (m (found 0)).1 := rfl
@[simp] theorem under_read (f : σ → α) (found : ℕ → σ) : (read f).under found = f (found 0) := rfl

/-- Every section keeps `I`, and whatever is returned satisfies `Q`. -/
def Ensures (I : σ → Prop) (Q : α → Prop) : Prog σ α → Prop
  | done a => Q a
  | step f k => ∀ s, I s → I (f s) ∧ (k s).Ensures I Q

theorem ensures_locked {I : σ → Prop} {Q : α → Prop} {m : σ → α × σ}
    (h : ∀ s, I s → I (m s).2 ∧ Q (m s).1) : (locked m).Ensures I Q := h

theorem ensures_read {I : σ → Prop} {Q : α → Prop} {f : σ → α} (h : ∀ s, I s → Q (f s)) :
    (read f).Ensures I Q := fun s hs => ⟨hs,h s hs⟩

theorem Ensures.bind {I : σ → Prop} {Q : α → Prop} {Q' : β → Prop} {p : Prog σ α}
    {g : α → Prog σ β} (hp : p.Ensures I Q) (hg : ∀ a, Q a → (g a).Ensures I Q') :
    (p.bind g).Ensures I Q' := by
  induction p with
  | done a => exact hg a hp
  | step f k ih =>
    intro s hs
    obtain ⟨hi,hk⟩ := hp s hs
    exact ⟨hi,ih s hk⟩

theorem Ensures.mono {I : σ → Prop} {Q Q' : α → Prop} {p : Prog σ α} (hp : p.Ensures I Q)
    (hq : ∀ a, Q a → Q' a) : p.Ensures I Q' := by
  induction p with
  | done a => exact hq a hp
  | step f k ih =>
    intro s hs
    obtain ⟨hi,hk⟩ := hp s hs
    exact ⟨hi,ih s hk⟩

theorem Ensures.run {I : σ → Prop} {Q : α → Prop} {p : Prog σ α} {s : σ}
    (hp : p.Ensures I Q) (hs : I s) : I (p.run s).2 ∧ Q (p.run s).1 := by
  induction p generalizing s with
  | done a => exact ⟨hs,hp⟩
  | step f k ih =>
    obtain ⟨hi,hk⟩ := hp s hs
    exact ih s hk hi

theorem Ensures.under {Q : α → Prop} {p : Prog σ α} (hp : p.Ensures (fun _ => True) Q)
    (found : ℕ → σ) : Q (p.under found) := by
  induction p generalizing found with
  | done a => exact hp
  | step f k ih => exact ih _ (hp _ trivial).2 _

/-- From wherever the program stands, unless it has returned already, what it will
return satisfies `Q` once `I` holds. -/
def Late (I : σ → Prop) (Q : α → Prop) : Prog σ α → Prop
  | done _ => True
  | step f k => (step f k).Ensures I Q ∧ ∀ s, (k s).Late I Q

theorem Late.ensures {I : σ → Prop} {Q : α → Prop} {p : Prog σ α} (hp : p.Late I Q) :
    p.Ensures I fun _ => True := by
  cases p with
  | done a => trivial
  | step f k => exact hp.1.mono fun _ _ => trivial

/-- Every section of the program, in whatever state it is reached, satisfies `P`. -/
def Each (P : (σ → σ) → Prop) : Prog σ α → Prop
  | done _ => True
  | step f k => P f ∧ ∀ s, (k s).Each P

theorem each_locked {P : (σ → σ) → Prop} {m : σ → α × σ} (h : P fun s => (m s).2) :
    (locked m).Each P := ⟨h,fun _ => trivial⟩

theorem each_read {P : (σ → σ) → Prop} {f : σ → α} (h : P id) : (read f).Each P := each_locked h

theorem Each.bind {P : (σ → σ) → Prop} {p : Prog σ α} {g : α → Prog σ β} (hp : p.Each P)
    (hg : ∀ a, (g a).Each P) : (p.bind g).Each P := by
  induction p with
  | done a => exact hg a
  | step f k ih => exact ⟨hp.1,fun s => ih s (hp.2 s)⟩

theorem Each.mono {P Q : (σ → σ) → Prop} {p : Prog σ α} (hp : p.Each P)
    (h : ∀ f, P f → Q f) : p.Each Q := by
  induction p with
  | done a => trivial
  | step f k ih => exact ⟨h f hp.1,fun s => ih s (hp.2 s)⟩

theorem Each.ensures {I : σ → Prop} {p : Prog σ α} (hp : p.Each fun f => ∀ s, I s → I (f s)) :
    p.Ensures I fun _ => True := by
  induction p with
  | done a => trivial
  | step f k ih => exact fun s hs => ⟨hp.1 s hs,ih s (hp.2 s)⟩

theorem Each.late {I : σ → Prop} {p : Prog σ α} (hp : p.Each fun f => ∀ s, I s → I (f s)) :
    p.Late I fun _ => True := by
  induction p with
  | done a => trivial
  | step f k ih => exact ⟨Each.ensures hp,fun s => ih s (hp.2 s)⟩

/-- Each section, found in a state that the others reached along `R` and that satisfies `I`,
satisfies `φ` there. -/
def Brings (I : σ → Prop) (R : σ → σ → Prop) (φ : (σ → σ) → σ → Prop) : Prog σ α → σ → Prop
  | done _, _ => True
  | step f k, s => ∀ s', R s s' → I s' → φ f s' ∧ (k s').Brings I R φ (f s')

section Brings

variable {I : σ → Prop} {R : σ → σ → Prop} {φ : (σ → σ) → σ → Prop} {s : σ}

theorem brings_locked {m : σ → α × σ} (h : ∀ s', R s s' → I s' → φ (fun s => (m s).2) s') :
    (locked m).Brings I R φ s := fun s' hr hi => ⟨h s' hr hi,trivial⟩

theorem brings_locked_bind {m : σ → α × σ} {g : α → Prog σ β}
    (h : ∀ s', R s s' → I s' → φ (fun s => (m s).2) s' ∧ (g (m s').1).Brings I R φ (m s').2) :
    ((locked m).bind g).Brings I R φ s := h

theorem Brings.bind {p : Prog σ α} {g : α → Prog σ β} (hp : p.Brings I R φ s)
    (hg : ∀ a s, (g a).Brings I R φ s) : (p.bind g).Brings I R φ s := by
  induction p generalizing s with
  | done a => exact hg a s
  | step f k ih =>
    intro s' hr hi
    obtain ⟨hf,hk⟩ := hp s' hr hi
    exact ⟨hf,ih s' hk⟩

theorem Brings.rely (htrans : ∀ a b c, R a b → R b c → R a c) {p : Prog σ α} {s' : σ}
    (h : p.Brings I R φ s) (hr : R s s') : p.Brings I R φ s' := by
  cases p with
  | done a => trivial
  | step f k => exact fun s'' hr' hi => h s'' (htrans _ _ _ hr hr') hi

theorem Each.brings {P : (σ → σ) → Prop} {p : Prog σ α} (hp : p.Each P)
    (h : ∀ f, P f → ∀ s, φ f s) : p.Brings I R φ s := by
  induction p generalizing s with
  | done a => trivial
  | step f k ih => exact fun s' _ _ => ⟨h f hp.1 s',ih s' (hp.2 s')⟩

/-- What a section that is the last one returns satisfies `Q` together with the state that the
section finds. -/
def Answers (I : σ → Prop) (R : σ → σ → Prop) (Q : α → σ → Prop) : Prog σ α → σ → Prop
  | done _, _ => True
  | step f k, s => ∀ s', R s s' → I s' → (∀ a, k s' = done a → Q a s') ∧ (k s').Answers I R Q (f s')

theorem Answers.rely {Q : α → σ → Prop} (htrans : ∀ a b c, R a b → R b c → R a c) {p : Prog σ α}
    {s' : σ} (h : p.Answers I R Q s) (hr : R s s') : p.Answers I R Q s' := by
  cases p with
  | done a => trivial
  | step f k => exact fun s'' hr' hi => h s'' (htrans _ _ _ hr hr') hi

theorem answers_locked_bind {Q : β → σ → Prop} {m : σ → α × σ} {g : α → Prog σ β}
    (h : ∀ s', R s s' → I s' → (∀ b, g (m s').1 = done b → Q b s') ∧
      (g (m s').1).Answers I R Q (m s').2) :
    ((locked m).bind g).Answers I R Q s := h

theorem bind_eq_done {p : Prog σ α} {g : α → Prog σ β} {b : β} :
    p.bind g = done b ↔ ∃ a, p = done a ∧ g a = done b := by
  constructor
  · intro h
    cases p with
    | done a => exact ⟨a,rfl,h⟩
    | step f k => cases h
  · rintro ⟨a,rfl,h⟩
    exact h

theorem Answers.map {Q : β → σ → Prop} {p : Prog σ α} {g : α → β}
    (h : p.Answers I R (fun a => Q (g a)) s) : (p.bind fun a => done (g a)).Answers I R Q s := by
  induction p generalizing s with
  | done a => trivial
  | step f k ih =>
    intro s' hr hi
    obtain ⟨hlast,hk⟩ := h s' hr hi
    refine ⟨fun b hb => ?_,ih s' hk⟩
    obtain ⟨a,ha,hab⟩ := bind_eq_done.mp hb
    cases hab
    exact hlast a ha

theorem answers_bind {Q : β → σ → Prop} {p : Prog σ α} {g : α → Prog σ β}
    (hg : ∀ a s, (∀ b, g a = done b → Q b s) ∧ (g a).Answers I R Q s) :
    (p.bind g).Answers I R Q s := by
  induction p generalizing s with
  | done a => exact (hg a s).2
  | step f k ih =>
    intro s' _ _
    refine ⟨fun b hb => ?_,ih s'⟩
    obtain ⟨a,-,ha⟩ := bind_eq_done.mp hb
    exact (hg a s').1 b ha

end Brings

/-- A sequence of calls, each run to its end. -/
def runAll {κ : Type} (body : κ → Prog σ α) (s : σ) (calls : List κ) : σ :=
  calls.foldl (fun s c => ((body c).run s).2) s

@[simp] theorem runAll_nil {κ : Type} (body : κ → Prog σ α) (s : σ) : runAll body s [] = s := rfl

@[simp] theorem runAll_append {κ : Type} (body : κ → Prog σ α) (s : σ) (l l' : List κ) :
    runAll body s (l++l') = runAll body (runAll body s l) l' := List.foldl_append

@[simp] theorem runAll_cons {κ : Type} (body : κ → Prog σ α) (s : σ) (c : κ) (l : List κ) :
    runAll body s (c::l) = runAll body ((body c).run s).2 l := rfl

/-- Each call of the sequence satisfies `ok` in the state that it finds. -/
def AllAt {κ : Type} (body : κ → Prog σ α) (ok : σ → κ → Prop) : σ → List κ → Prop
  | _, [] => True
  | s, c::l => ok s c ∧ AllAt body ok ((body c).run s).2 l

theorem runAll_take_succ {κ : Type} {body : κ → Prog σ α} {s : σ} {calls : List κ} {j : ℕ} {c : κ}
    (h : calls[j]? = some c) : runAll body s (calls.take (j+1)) =
      ((body c).run (runAll body s (calls.take j))).2 := by
  rw [List.take_add_one,h,runAll_append]
  rfl

theorem AllAt.at {κ : Type} {body : κ → Prog σ α} {ok : σ → κ → Prop} {s : σ} {calls : List κ}
    (h : AllAt body ok s calls) {j : ℕ} {c : κ} (hc : calls[j]? = some c) :
    ok (runAll body s (calls.take j)) c := by
  induction calls generalizing s j with
  | nil => cases hc
  | cons d l ih =>
    cases j with
    | zero =>
      cases hc
      exact h.1
    | succ j => exact ih h.2 hc

end Prog

/-- The shared state and the calls in flight, each with the rest of its program. -/
structure Pool (σ κ ρ : Type) where
  shared : σ
  threads : ℕ → Option (κ × Prog σ ρ)

namespace Pool

variable {σ κ ρ : Type}

def start (s : σ) : Pool σ κ ρ := ⟨s,fun _ => none⟩

/-- The pool after thread `t` went on to `x`. -/
def move (P : Pool σ κ ρ) (s : σ) (t : ℕ) (x : Option (κ × Prog σ ρ)) : Pool σ κ ρ :=
  ⟨s,Function.update P.threads t x⟩

/-- One scheduler step: a new call, one section of a call, or a return. -/
inductive Step (body : κ → Prog σ ρ) (allows : Pool σ κ ρ → κ → Prop) :
    Pool σ κ ρ → Pool σ κ ρ → Prop
  | call {P} (t c) : P.threads t = none → allows P c →
      Step body allows P (P.move P.shared t (some (c,body c)))
  | exec {P} (t c f k) : P.threads t = some (c,.step f k) →
      Step body allows P (P.move (f P.shared) t (some (c,k P.shared)))
  | ret {P} (t c a) : P.threads t = some (c,.done a) → Step body allows P (P.move P.shared t none)

abbrev Steps (body : κ → Prog σ ρ) (allows : Pool σ κ ρ → κ → Prop) :=
  Relation.ReflTransGen (Step body allows)

/-- The default scheduler lets in any number of calls of any kind. -/
abbrev anyCall : Pool σ κ ρ → κ → Prop := fun _ _ => True

theorem move_threads_self (P : Pool σ κ ρ) (s : σ) (t : ℕ) (x : Option (κ × Prog σ ρ)) :
    (P.move s t x).threads t = x := by
  simp [move]

theorem move_threads_of_ne (P : Pool σ κ ρ) (s : σ) {t u : ℕ} (x : Option (κ × Prog σ ρ))
    (h : u ≠ t) : (P.move s t x).threads u = P.threads u := by
  simp [move,h]

theorem forall_threads_move {P : Pool σ κ ρ} {φ : κ → Prog σ ρ → Prop}
    (h : ∀ t c p, P.threads t = some (c,p) → φ c p) (s : σ) (t : ℕ)
    (x : Option (κ × Prog σ ρ)) (hx : ∀ c p, x = some (c,p) → φ c p) :
    ∀ u c p, (P.move s t x).threads u = some (c,p) → φ c p := by
  intro u c p hu
  by_cases hut : u = t
  · subst hut
    rw [move_threads_self] at hu
    exact hx c p hu
  · rw [move_threads_of_ne _ _ _ hut] at hu
    exact h u c p hu

section Sequential

variable {body : κ → Prog σ ρ} {allows : Pool σ κ ρ → κ → Prop}

theorem move_move (P : Pool σ κ ρ) (s s' : σ) (t : ℕ) (x y : Option (κ × Prog σ ρ)) :
    (P.move s t x).move s' t y = P.move s' t y := by
  simp [move]

theorem steps_run (P : Pool σ κ ρ) (t : ℕ) (c : κ) (p : Prog σ ρ) (s : σ) :
    Steps body allows (P.move s t (some (c,p))) (P.move (p.run s).2 t none) := by
  induction p generalizing s with
  | done a =>
    have hret : Step body allows _ _ :=
      Step.ret t c a (move_threads_self P s t (some (c,.done a)))
    rw [move_move] at hret
    exact .single hret
  | step f k ih =>
    have hexec : Step body allows _ _ := Step.exec t c f k
      (move_threads_self P s t (some (c,.step f k)))
    rw [move_move] at hexec
    exact (Relation.ReflTransGen.single hexec).trans (ih s (f s))

theorem steps_runAll (hallows : ∀ P c, (∀ t, P.threads t = none) → allows P c) (s : σ)
    (calls : List κ) :
    Steps body allows (start s) (start (Prog.runAll body s calls)) := by
  induction calls generalizing s with
  | nil => exact .refl
  | cons c calls ih =>
    have hcall : Step body allows (start s) ((start s).move s 0 (some (c,body c))) :=
      Step.call 0 c rfl (hallows _ c fun _ => rfl)
    have hrun : Steps body allows _ _ := steps_run (start s) 0 c (body c) s
    have hidle : (start s : Pool σ κ ρ).move ((body c).run s).2 0 none =
        start ((body c).run s).2 := by
      simp [move,start]
    rw [hidle] at hrun
    exact (Relation.ReflTransGen.single hcall).trans (hrun.trans (ih _))

end Sequential

section Schedules

/-- What a scheduler may do: start a call on a thread, or let a thread go on. -/
inductive Turn (κ : Type)
  | call (t : ℕ) (c : κ)
  | go (t : ℕ)

def turn (body : κ → Prog σ ρ) (P : Pool σ κ ρ) : Turn κ → Pool σ κ ρ
  | .call t c =>
    match P.threads t with
    | none => P.move P.shared t (some (c,body c))
    | some _ => P
  | .go t =>
    match P.threads t with
    | none => P
    | some (c,.step f k) => P.move (f P.shared) t (some (c,k P.shared))
    | some (_,.done _) => P.move P.shared t none

/-- The pool after a fixed schedule. -/
def schedule (body : κ → Prog σ ρ) (P : Pool σ κ ρ) (turns : List (Turn κ)) : Pool σ κ ρ :=
  turns.foldl (turn body) P

variable {body : κ → Prog σ ρ}

variable (body) in
theorem turn_step (P : Pool σ κ ρ) (a : Turn κ) :
    turn body P a = P ∨ Step body anyCall P (turn body P a) := by
  cases a with
  | call t c =>
    unfold turn
    dsimp only
    split
    · rename_i h
      exact .inr (.call t c h trivial)
    · exact .inl rfl
  | go t =>
    unfold turn
    dsimp only
    split
    · exact .inl rfl
    · rename_i c f k h
      exact .inr (.exec t c f k h)
    · rename_i c a h
      exact .inr (.ret t c a h)

theorem schedule_steps (P : Pool σ κ ρ) (turns : List (Turn κ)) :
    Steps body anyCall P (schedule body P turns) := by
  induction turns generalizing P with
  | nil => exact .refl
  | cons a turns ih =>
    have hturn : turn body P a = P ∨ _ := turn_step _ P a
    rcases hturn with h | h
    · change Steps body anyCall P (schedule body (turn body P a) turns)
      rw [h]
      exact ih P
    · exact (Relation.ReflTransGen.single h).trans (ih _)

/-- The call of a thread that is about to return, and what it returns. -/
def returning (P : Pool σ κ ρ) (t : ℕ) : Option (κ × ρ) :=
  match P.threads t with
  | some (c,.done a) => some (c,a)
  | _ => none

theorem returning_eq_some_iff (P : Pool σ κ ρ) (t : ℕ) (c : κ) (a : ρ) :
    P.returning t = some (c,a) ↔ P.threads t = some (c,.done a) := by
  unfold returning
  split
  · rename_i h
    simp [h]
  · rename_i h
    constructor
    · intro hn
      cases hn
    · intro hd
      exact absurd hd (h c a)

end Schedules

section Guarded

/-- A scheduler step that changes the shared state in a permitted way. -/
def GuardedStep (body : κ → Prog σ ρ) (allows : Pool σ κ ρ → κ → Prop) (ok : σ → σ → Prop)
    (P P' : Pool σ κ ρ) : Prop :=
  Step body allows P P' ∧ ok P.shared P'.shared

variable {body : κ → Prog σ ρ} {allows : Pool σ κ ρ → κ → Prop} {ok : σ → σ → Prop}

theorem GuardedStep.steps {P P' : Pool σ κ ρ}
    (h : Relation.ReflTransGen (GuardedStep body allows ok) P P') : Steps body allows P P' := by
  induction h with
  | refl => exact .refl
  | tail _ h ih => exact ih.tail h.1

theorem guarded_induction {I : σ → Prop}
    (hb : ∀ c, (body c).Each fun f => ∀ s, I s → ok s (f s) → I (f s)) {s : σ} {P : Pool σ κ ρ}
    (h : Relation.ReflTransGen (GuardedStep body allows ok) (start s) P) (hs : I s) :
    I P.shared ∧ ∀ t c p, P.threads t = some (c,p) →
      p.Each fun f => ∀ s, I s → ok s (f s) → I (f s) := by
  induction h with
  | refl =>
    refine ⟨hs,fun t c p ht => ?_⟩
    cases ht
  | tail _ h ih =>
    obtain ⟨hi,hth⟩ := ih
    obtain ⟨h,hok⟩ := h
    cases h with
    | call t c hn ha =>
      refine ⟨hi,forall_threads_move hth _ _ _ ?_⟩
      rintro c' p ⟨⟩
      exact hb c
    | exec t c f k he =>
      have hk := hth t c _ he
      refine ⟨hk.1 _ hi hok,forall_threads_move hth _ _ _ ?_⟩
      rintro c' p ⟨⟩
      exact hk.2 _
    | ret t c a he =>
      refine ⟨hi,forall_threads_move hth _ _ _ ?_⟩
      rintro c' p ⟨⟩

theorem schedule_guarded (P : Pool σ κ ρ) (turns : List (Turn κ))
    (h : ∀ i < turns.length, ok (schedule body P (turns.take i)).shared
      (schedule body P (turns.take (i+1))).shared) :
    Relation.ReflTransGen (GuardedStep body anyCall ok) P (schedule body P turns) := by
  induction turns generalizing P with
  | nil => exact .refl
  | cons a turns ih =>
    have hrest := ih (turn body P a) fun i hi => h (i+1) (Nat.succ_lt_succ hi)
    have hturn : turn body P a = P ∨ _ := turn_step _ P a
    rcases hturn with he | he
    · rw [he] at hrest
      change Relation.ReflTransGen _ P (schedule body (turn body P a) turns)
      rw [he]
      exact hrest
    · exact (Relation.ReflTransGen.single ⟨he,h 0 (Nat.succ_pos _)⟩).trans hrest

end Guarded

section Checked

/-- A scheduler step whose section, if it runs one, is permitted on the state it finds. -/
inductive CheckedStep (body : κ → Prog σ ρ) (allows : Pool σ κ ρ → κ → Prop)
    (ok : (σ → σ) → σ → Prop) : Pool σ κ ρ → Pool σ κ ρ → Prop
  | call {P} (t c) : P.threads t = none → allows P c →
      CheckedStep body allows ok P (P.move P.shared t (some (c,body c)))
  | exec {P} (t c f k) : P.threads t = some (c,.step f k) → ok f P.shared →
      CheckedStep body allows ok P (P.move (f P.shared) t (some (c,k P.shared)))
  | ret {P} (t c a) : P.threads t = some (c,.done a) →
      CheckedStep body allows ok P (P.move P.shared t none)

abbrev CheckedSteps (body : κ → Prog σ ρ) (allows : Pool σ κ ρ → κ → Prop)
    (ok : (σ → σ) → σ → Prop) :=
  Relation.ReflTransGen (CheckedStep body allows ok)

variable {body : κ → Prog σ ρ} {allows : Pool σ κ ρ → κ → Prop} {ok : (σ → σ) → σ → Prop}

theorem CheckedStep.step {P P' : Pool σ κ ρ} (h : CheckedStep body allows ok P P') :
    Step body allows P P' := by
  cases h with
  | call t c hn ha => exact .call t c hn ha
  | exec t c f k he hok => exact .exec t c f k he
  | ret t c a he => exact .ret t c a he

theorem CheckedSteps.steps {P P' : Pool σ κ ρ} (h : CheckedSteps body allows ok P P') :
    Steps body allows P P' := by
  induction h with
  | refl => exact .refl
  | tail _ h ih => exact ih.tail h.step

theorem each_steps {φ : (σ → σ) → Prop} (hb : ∀ c, (body c).Each φ) {P P' : Pool σ κ ρ}
    (h : Steps body allows P P') (ht : ∀ t c p, P.threads t = some (c,p) → p.Each φ) :
    ∀ t c p, P'.threads t = some (c,p) → p.Each φ := by
  induction h with
  | refl => exact ht
  | tail _ h ih =>
    cases h with
    | call t c hn ha =>
      refine forall_threads_move ih _ _ _ ?_
      rintro c' p ⟨⟩
      exact hb c
    | exec t c f k he =>
      refine forall_threads_move ih _ _ _ ?_
      rintro c' p ⟨⟩
      exact (ih t c _ he).2 _
    | ret t c a he =>
      refine forall_threads_move ih _ _ _ ?_
      rintro c' p ⟨⟩

theorem checked_induction {φ : (σ → σ) → Prop} {I : σ → Prop} (hb : ∀ c, (body c).Each φ)
    (hstep : ∀ f s, φ f → ok f s → I s → I (f s)) {P P' : Pool σ κ ρ}
    (h : CheckedSteps body allows ok P P')
    (ht : ∀ t c p, P.threads t = some (c,p) → p.Each φ) (hs : I P.shared) : I P'.shared := by
  induction h with
  | refl => exact hs
  | tail hsteps h ih =>
    cases h with
    | call t c hn ha => exact ih
    | exec t c f k he hok =>
      have heach := each_steps hb (CheckedSteps.steps hsteps) ht t c _ he
      exact hstep f _ heach.1 hok ih
    | ret t c a he => exact ih

theorem schedule_checked (P : Pool σ κ ρ) (turns : List (Turn κ))
    (h : ∀ i < turns.length, ∀ f, ok f (schedule body P (turns.take i)).shared) :
    CheckedSteps body anyCall ok P (schedule body P turns) := by
  induction turns generalizing P with
  | nil => exact .refl
  | cons a turns ih =>
    have hrest := ih (turn body P a) fun i hi f => h (i+1) (Nat.succ_lt_succ hi) f
    have hnow : ∀ f, ok f P.shared := h 0 (Nat.succ_pos _)
    have hturn : turn body P a = P ∨ _ := turn_step _ P a
    rcases hturn with he | he
    · rw [he] at hrest
      change CheckedSteps body anyCall ok P (schedule body (turn body P a) turns)
      rw [he]
      exact hrest
    · have hchecked : CheckedStep body anyCall ok P (turn body P a) := by
        generalize turn body P a = P' at he
        cases he with
        | call t c hn ha => exact .call t c hn ha
        | exec t c f k he => exact .exec t c f k he (hnow f)
        | ret t c a he => exact .ret t c a he
      exact (Relation.ReflTransGen.single hchecked).trans hrest

end Checked

section Ensures

variable {body : κ → Prog σ ρ} {allows : Pool σ κ ρ → κ → Prop} {I : σ → Prop}
  {Q : κ → ρ → Prop}

theorem ensures_steps (hb : ∀ P c, allows P c → (body c).Ensures I (Q c)) {P P' : Pool σ κ ρ}
    (h : Steps body allows P P') (hs : I P.shared)
    (ht : ∀ t c p, P.threads t = some (c,p) → p.Ensures I (Q c)) :
    I P'.shared ∧ ∀ t c p, P'.threads t = some (c,p) → p.Ensures I (Q c) := by
  induction h with
  | refl => exact ⟨hs,ht⟩
  | tail _ h ih =>
    obtain ⟨hi,hth⟩ := ih
    cases h with
    | call t c hn ha =>
      refine ⟨hi,forall_threads_move hth _ _ _ ?_⟩
      rintro c' p ⟨⟩
      exact hb _ c ha
    | exec t c f k he =>
      have hk := hth t c _ he _ hi
      refine ⟨hk.1,forall_threads_move hth _ _ _ ?_⟩
      rintro c' p ⟨⟩
      exact hk.2
    | ret t c a he =>
      refine ⟨hi,forall_threads_move hth _ _ _ ?_⟩
      rintro c' p ⟨⟩

theorem late_steps (hb : ∀ P c, allows P c → (body c).Late I (Q c)) {P P' : Pool σ κ ρ}
    (h : Steps body allows P P')
    (ht : ∀ t c p, P.threads t = some (c,p) → p.Late I (Q c)) :
    ∀ t c p, P'.threads t = some (c,p) → p.Late I (Q c) := by
  induction h with
  | refl => exact ht
  | tail _ h ih =>
    cases h with
    | call t c hn ha =>
      refine forall_threads_move ih _ _ _ ?_
      rintro c' p ⟨⟩
      exact hb _ c ha
    | exec t c f k he =>
      have hk := (ih t c _ he).2
      refine forall_threads_move ih _ _ _ ?_
      rintro c' p ⟨⟩
      exact hk _
    | ret t c a he =>
      refine forall_threads_move ih _ _ _ ?_
      rintro c' p ⟨⟩

end Ensures

section Safe

/-- Rely-guarantee safety of a thread that tolerates `R`: whenever it is scheduled in a
state satisfying `I`, its section keeps `I` and is a `G` step, and what it returns
satisfies `Q`. -/
def Safe (I : σ → Prop) (R G : σ → σ → Prop) (Q : ρ → σ → Prop) : Prog σ ρ → σ → Prop
  | .done a, s => Q a s
  | .step f k, s => ∀ s', R s s' → I s' → I (f s') ∧ G s' (f s') ∧ Safe I R G Q (k s') (f s')

theorem Safe.rely {I : σ → Prop} {R G : σ → σ → Prop} {Q : ρ → σ → Prop}
    (htrans : ∀ a b c, R a b → R b c → R a c) (hstable : ∀ a s s', Q a s → R s s' → Q a s')
    {p : Prog σ ρ} {s s' : σ} (h : Safe I R G Q p s) (hr : R s s') : Safe I R G Q p s' := by
  cases p with
  | done a => exact hstable a s s' h hr
  | step f k =>
    intro s'' hr' hi
    exact h s'' (htrans _ _ _ hr hr') hi

theorem safe_locked {I : σ → Prop} {R G : σ → σ → Prop} {Q : ρ → σ → Prop} {m : σ → ρ × σ} {s : σ}
    (h : ∀ s', R s s' → I s' → I (m s').2 ∧ G s' (m s').2 ∧ Q (m s').1 (m s').2) :
    Safe I R G Q (.locked m) s := h

/-- What the first program leaves behind, under interference, is where the second starts. -/
theorem Safe.bind {τ : Type} {I : σ → Prop} {R G : σ → σ → Prop} {Q : τ → σ → Prop}
    {Q' : ρ → σ → Prop} {p : Prog σ τ} {g : τ → Prog σ ρ} {s : σ} (hp : Safe I R G Q p s)
    (hg : ∀ a s, Q a s → Safe I R G Q' (g a) s) : Safe I R G Q' (p.bind g) s := by
  induction p generalizing s with
  | done a => exact hg a s hp
  | step f k ih =>
    intro s' hr hi
    obtain ⟨hi',hg',hk⟩ := hp s' hr hi
    exact ⟨hi',hg',ih s' hk⟩

theorem Safe.mono {I : σ → Prop} {R G : σ → σ → Prop} {Q Q' : ρ → σ → Prop} {p : Prog σ ρ} {s : σ}
    (hp : Safe I R G Q p s) (hq : ∀ a s, Q a s → Q' a s) : Safe I R G Q' p s := by
  induction p generalizing s with
  | done a => exact hq a s hp
  | step f k ih =>
    intro s' hr hi
    obtain ⟨hi',hg',hk⟩ := hp s' hr hi
    exact ⟨hi',hg',ih s' hk⟩

variable {body : κ → Prog σ ρ} {allows : Pool σ κ ρ → κ → Prop} {I : σ → Prop}
  {R G : κ → σ → σ → Prop} {Q : κ → ρ → σ → Prop} {compat : κ → κ → Prop}

/-- The invariant that carries rely-guarantee reasoning through a run. -/
structure Protected (I : σ → Prop) (R G : κ → σ → σ → Prop) (Q : κ → ρ → σ → Prop)
    (compat : κ → κ → Prop) (P : Pool σ κ ρ) : Prop where
  shared : I P.shared
  safe : ∀ t c p, P.threads t = some (c,p) → Safe I (R c) (G c) (Q c) p P.shared
  compat : ∀ t u c p d q, t ≠ u → P.threads t = some (c,p) → P.threads u = some (d,q) → compat c d

theorem protected_start {s : σ} (h : I s) :
    Protected I R G Q compat (start s : Pool σ κ ρ) :=
  ⟨h,by intro t c p h; simp [start] at h,by intro t u c p d q _ h; simp [start] at h⟩

theorem compat_move {P : Pool σ κ ρ} {compat : κ → κ → Prop}
    (h : ∀ t u c p d q, t ≠ u → P.threads t = some (c,p) → P.threads u = some (d,q) → compat c d)
    (s : σ) (t : ℕ) (x : Option (κ × Prog σ ρ))
    (hx : ∀ c p, x = some (c,p) → ∀ u d q, u ≠ t → P.threads u = some (d,q) →
      compat c d ∧ compat d c) :
    ∀ t' u c p d q, t' ≠ u → (P.move s t x).threads t' = some (c,p) →
      (P.move s t x).threads u = some (d,q) → compat c d := by
  intro t' u c p d q hne h₁ h₂
  by_cases ht : t' = t
  · subst ht
    rw [move_threads_self] at h₁
    rw [move_threads_of_ne _ _ _ hne.symm] at h₂
    exact (hx c p h₁ u d q hne.symm h₂).1
  · rw [move_threads_of_ne _ _ _ ht] at h₁
    by_cases hu : u = t
    · subst hu
      rw [move_threads_self] at h₂
      exact (hx d q h₂ t' c p ht h₁).2
    · rw [move_threads_of_ne _ _ _ hu] at h₂
      exact h t' u c p d q hne h₁ h₂

/-- The proof obligations of rely-guarantee reasoning: interference composes, what one call
guarantees its companions rely on, and every body is safe from the start. -/
structure Sound (body : κ → Prog σ ρ) (allows : Pool σ κ ρ → κ → Prop) (I : σ → Prop)
    (R G : κ → σ → σ → Prop) (Q : κ → ρ → σ → Prop) (compat : κ → κ → Prop) : Prop where
  refl : ∀ c s, R c s s
  trans : ∀ c a b d, R c a b → R c b d → R c a d
  stable : ∀ c a s s', Q c a s → R c s s' → Q c a s'
  guar : ∀ c d, compat c d → ∀ s s', G c s s' → R d s s'
  body : ∀ c s, I s → Safe I (R c) (G c) (Q c) (body c) s
  allows : ∀ P c, allows P c → ∀ t d q, P.threads t = some (d,q) → compat c d ∧ compat d c

theorem protected_step (hsound : Sound body allows I R G Q compat) {P P' : Pool σ κ ρ}
    (h : Step body allows P P') (hp : Protected I R G Q compat P) :
    Protected I R G Q compat P' := by
  obtain ⟨hi,hs,hc⟩ := hp
  cases h with
  | call t c hn ha =>
    refine ⟨hi,forall_threads_move hs _ _ _ ?_,compat_move hc _ _ _ ?_⟩
    · rintro c' p ⟨⟩
      exact hsound.body c _ hi
    · rintro c' p ⟨⟩ u d q _ hu
      exact hsound.allows _ c ha u d q hu
  | exec t c f k he =>
    obtain ⟨hi',hg,hk⟩ := hs t c _ he _ (hsound.refl c _) hi
    refine ⟨hi',?_,compat_move hc _ _ _ ?_⟩
    · intro u d q hu
      by_cases hut : u = t
      · subst hut
        rw [move_threads_self] at hu
        obtain ⟨rfl,rfl⟩ := Prod.mk.inj (Option.some.inj hu)
        exact hk
      · rw [move_threads_of_ne _ _ _ hut] at hu
        have hcd : compat c d := hc t u c _ d q (Ne.symm hut) he hu
        exact (hs u d q hu).rely (hsound.trans d) (hsound.stable d) (hsound.guar c d hcd _ _ hg)
    · rintro c' p ⟨⟩ u d q hut hu
      exact ⟨hc t u c _ d q (Ne.symm hut) he hu,hc u t d q c _ hut hu he⟩
  | ret t c a he =>
    refine ⟨hi,forall_threads_move hs _ _ _ ?_,compat_move hc _ _ _ ?_⟩
    · rintro c' p ⟨⟩
    · rintro c' p ⟨⟩

theorem protected_steps (hsound : Sound body allows I R G Q compat) {P P' : Pool σ κ ρ}
    (h : Steps body allows P P') (hp : Protected I R G Q compat P) :
    Protected I R G Q compat P' := by
  induction h with
  | refl => exact hp
  | tail _ h ih => exact protected_step hsound h ih

end Safe

section Outline

/-- A proof outline: `T c p s` is what is known in the state `s` of a call `c` with `p` left to
run, and no section of another call takes it away. -/
structure Outline (body : κ → Prog σ ρ) (allows : Pool σ κ ρ → κ → Prop) (I : σ → Prop)
    (T : κ → Prog σ ρ → σ → Prop) (compat : κ → κ → Prop) : Prop where
  call : ∀ P c, allows P c → I P.shared → T c (body c) P.shared
  exec : ∀ c f k s, T c (.step f k) s → I s → I (f s) ∧ T c (k s) (f s)
  frame : ∀ c f k d q s, compat c d → T c (.step f k) s → I s → T d q s → T d q (f s)
  allows : ∀ P c, allows P c → ∀ t d q, P.threads t = some (d,q) → compat c d ∧ compat d c

/-- A pool that has kept to the outline so far. -/
structure Outlined (I : σ → Prop) (T : κ → Prog σ ρ → σ → Prop) (compat : κ → κ → Prop)
    (P : Pool σ κ ρ) : Prop where
  shared : I P.shared
  threads : ∀ t c p, P.threads t = some (c,p) → T c p P.shared
  compat : ∀ t u c p d q, t ≠ u → P.threads t = some (c,p) → P.threads u = some (d,q) → compat c d

variable {body : κ → Prog σ ρ} {allows : Pool σ κ ρ → κ → Prop} {I : σ → Prop}
  {T : κ → Prog σ ρ → σ → Prop} {compat : κ → κ → Prop}

theorem outlined_start {s : σ} (h : I s) : Outlined I T compat (start s : Pool σ κ ρ) :=
  ⟨h,fun t c p ht => (by cases ht),fun t u c p d q _ ht => (by cases ht)⟩

theorem outlined_step (houtline : Outline body allows I T compat) {P P' : Pool σ κ ρ}
    (h : Step body allows P P') (hp : Outlined I T compat P) : Outlined I T compat P' := by
  obtain ⟨hi,ht,hc⟩ := hp
  cases h with
  | call t c hn ha =>
    refine ⟨hi,forall_threads_move ht _ _ _ ?_,compat_move hc _ _ _ ?_⟩
    · rintro c' p ⟨⟩
      exact houtline.call _ c ha hi
    · rintro c' p ⟨⟩ u d q _ hu
      exact houtline.allows _ c ha u d q hu
  | exec t c f k he =>
    obtain ⟨hi',hk⟩ := houtline.exec c f k _ (ht t c _ he) hi
    refine ⟨hi',fun u d q hu => ?_,compat_move hc _ _ _ ?_⟩
    · by_cases hut : u = t
      · subst hut
        rw [move_threads_self] at hu
        obtain ⟨rfl,rfl⟩ := Prod.mk.inj (Option.some.inj hu)
        exact hk
      · rw [move_threads_of_ne _ _ _ hut] at hu
        have hcd : compat c d := hc t u c _ d q (Ne.symm hut) he hu
        exact houtline.frame c f k d q _ hcd (ht t c _ he) hi (ht u d q hu)
    · rintro c' p ⟨⟩ u d q hut hu
      exact ⟨hc t u c _ d q (Ne.symm hut) he hu,hc u t d q c _ hut hu he⟩
  | ret t c a he =>
    refine ⟨hi,forall_threads_move ht _ _ _ ?_,compat_move hc _ _ _ ?_⟩
    · rintro c' p ⟨⟩
    · rintro c' p ⟨⟩

theorem outlined_steps (houtline : Outline body allows I T compat) {P P' : Pool σ κ ρ}
    (h : Steps body allows P P') (hp : Outlined I T compat P) : Outlined I T compat P' := by
  induction h with
  | refl => exact hp
  | tail _ h ih => exact outlined_step houtline h ih

end Outline

end Pool

/-- Every event of a history is justified by the events before it. -/
def Justified {ε : Type} (φ : List ε → ε → Prop) (log : List ε) : Prop :=
  ∀ past e rest, log = past++e::rest → φ past e

theorem justified_nil {ε : Type} (φ : List ε → ε → Prop) : Justified φ [] := by
  intro past e rest h
  simp at h

theorem Justified.snoc {ε : Type} {φ : List ε → ε → Prop} {log : List ε} {e : ε}
    (h : Justified φ log) (he : φ log e) : Justified φ (log++[e]) := by
  intro past e' rest heq
  rcases List.eq_nil_or_concat rest with rfl | ⟨rest',e'',rfl⟩
  · obtain ⟨rfl,hlast⟩ := List.append_inj' heq rfl
    cases hlast
    exact he
  · have heq' : log++[e] = (past++e'::rest')++[e''] := by
      rw [heq]
      simp
    obtain ⟨hlog,-⟩ := List.append_inj' heq' rfl
    exact h past e' rest' hlog

theorem Justified.of_append {ε : Type} {φ : List ε → ε → Prop} {log log' : List ε}
    (h : Justified φ (log++log')) : Justified φ log := by
  intro past e rest heq
  exact h past e (rest++log') (by simp [heq])

theorem Justified.of_mem {ε : Type} {φ : List ε → ε → Prop} {log : List ε} {e : ε}
    (h : Justified φ log) (he : e ∈ log) : ∃ past rest, log = past++e::rest ∧ φ past e := by
  obtain ⟨past,rest,heq⟩ := List.append_of_mem he
  exact ⟨past,rest,heq,h past e rest heq⟩

end FakeNetNG
