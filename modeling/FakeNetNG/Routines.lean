import FakeNetNG.Interleaving

/-!
# Threads with local variables and exceptions

A routine runs atomic sections on a shared state, assigns its local variables and may raise. `Triple`
is the specification of a part of it under interference: what holds of the local variables and the
shared state before, when it returns, and when it raises.
-/

namespace FakeNetNG

namespace Pool

variable {σ κ ρ : Type} {body : κ → Prog σ ρ} {allows : Pool σ κ ρ → κ → Prop} {I : σ → Prop}
  {R G : κ → σ → σ → Prop} {Q : κ → ρ → σ → Prop} {compat : κ → κ → Prop}

/-- Rely-guarantee reasoning where a call is safe from the states that it is let in. -/
theorem outline_of_safe (hrefl : ∀ c s, R c s s) (htrans : ∀ c a b d, R c a b → R c b d → R c a d)
    (hstable : ∀ c a s s', Q c a s → R c s s' → Q c a s')
    (hguar : ∀ c d, compat c d → ∀ s s', G c s s' → R d s s')
    (hbody : ∀ P c, allows P c → I P.shared → Safe I (R c) (G c) (Q c) (body c) P.shared)
    (hallows : ∀ P c, allows P c → ∀ t d q, P.threads t = some (d,q) → compat c d ∧ compat d c) :
    Outline body allows I (fun c p s => Safe I (R c) (G c) (Q c) p s) compat where
  call := hbody
  exec c _ _ s h hs := ⟨(h s (hrefl c s) hs).1,(h s (hrefl c s) hs).2.2⟩
  frame c f _ d _ s hcompat h hs hd :=
    hd.rely (htrans d) (hstable d) (hguar c d hcompat s (f s) (h s (hrefl c s) hs).2.1)
  allows := hallows

end Pool

def Routine (σ Λ ε α : Type) := Λ → Prog σ (Except ε α × Λ)

namespace Routine

variable {σ Λ ε α β : Type}

def bind (m : Routine σ Λ ε α) (k : α → Routine σ Λ ε β) : Routine σ Λ ε β := fun l =>
  (m l).bind fun r =>
    match r with
    | (.ok a,l) => k a l
    | (.error e,l) => .done (.error e,l)

instance : Monad (Routine σ Λ ε) where
  pure a := fun l => .done (.ok a,l)
  bind := bind

/-- What is answered from outside, without a look at the shared state. -/
def answer (r : Except ε α) : Routine σ Λ ε α := fun l => .done (r,l)

def raise (e : ε) : Routine σ Λ ε α := answer (.error e)

def locals : Routine σ Λ ε Λ := fun l => .done (.ok l,l)

def assign (f : Λ → Λ) : Routine σ Λ ε Unit := fun l => .done (.ok (),f l)

/-- One section under a lock. -/
def locked (m : σ → α × σ) : Routine σ Λ ε α := fun l =>
  (Prog.locked m).bind fun a => .done (.ok a,l)

def read (f : σ → α) : Routine σ Λ ε α := locked fun s => (f s,s)

def modify (f : σ → σ) : Routine σ Λ ε Unit := locked fun s => ((),f s)

/-- `try: m; except e: handler e`. -/
def tryExcept (m : Routine σ Λ ε α) (handler : ε → Routine σ Λ ε α) : Routine σ Λ ε α := fun l =>
  (m l).bind fun r =>
    match r with
    | (.ok a,l) => .done (.ok a,l)
    | (.error e,l) => handler e l

/-- `try: m; finally: last`. What `last` raises takes the place of what `m` raised. -/
def tryFinally (m : Routine σ Λ ε α) (last : Routine σ Λ ε Unit) : Routine σ Λ ε α := fun l =>
  (m l).bind fun r => (last r.2).bind fun r' =>
    match r' with
    | (.ok _,l) => .done (r.1,l)
    | (.error e,l) => .done (.error e,l)

@[simp] theorem raise_bind (e : ε) (k : α → Routine σ Λ ε β) : raise e >>= k = raise e := rfl

variable {I : σ → Prop} {R G : σ → σ → Prop} {pre : Λ → σ → Prop} {post : α → Λ → σ → Prop}
  {fail : Λ → σ → Prop}

/-- From `pre` the routine returns with `post` or raises with `fail`, each of its sections keeps `I`
and is a `G` step, and the other threads take `R` steps in between. -/
def Triple (I : σ → Prop) (R G : σ → σ → Prop) (pre : Λ → σ → Prop) (m : Routine σ Λ ε α)
    (post : α → Λ → σ → Prop) (fail : Λ → σ → Prop) : Prop :=
  ∀ l s, pre l s → Pool.Safe I R G (fun r s => (∀ a, r.1 = .ok a → post a r.2 s) ∧
    ∀ e, r.1 = .error e → fail r.2 s) (m l) s

theorem triple_pure {a : α} (h : ∀ l s, pre l s → post a l s) :
    Triple I R G pre (pure a : Routine σ Λ ε α) post fail := by
  intro l s hs
  refine ⟨?_,fun e he => by cases he⟩
  rintro b ⟨⟩
  exact h l s hs

theorem triple_answer {r : Except ε α} (h : ∀ a l s, pre l s → post a l s)
    (hfail : ∀ l s, pre l s → fail l s) : Triple I R G pre (answer r) post fail :=
  fun l s hs => ⟨fun a _ => h a l s hs,fun _ _ => hfail l s hs⟩

theorem triple_raise {e : ε} (h : ∀ l s, pre l s → fail l s) :
    Triple I R G pre (raise e : Routine σ Λ ε α) post fail :=
  fun l s hs => ⟨fun a ha => (by cases ha),fun _ _ => h l s hs⟩

theorem triple_locals {post : Λ → Λ → σ → Prop} (h : ∀ l s, pre l s → post l l s) :
    Triple I R G pre (locals : Routine σ Λ ε Λ) post fail := by
  intro l s hs
  refine ⟨?_,fun e he => by cases he⟩
  rintro b ⟨⟩
  exact h l s hs

theorem triple_assign {f : Λ → Λ} {post : Unit → Λ → σ → Prop} (h : ∀ l s, pre l s → post () (f l) s) :
    Triple I R G pre (assign f : Routine σ Λ ε Unit) post fail :=
  fun l s hs => ⟨fun _ _ => h l s hs,fun e he => by cases he⟩

theorem triple_locked {m : σ → α × σ} (hstable : ∀ l s s', pre l s → R s s' → pre l s')
    (h : ∀ l s, pre l s → I s → I (m s).2 ∧ G s (m s).2 ∧ post (m s).1 l (m s).2) :
    Triple I R G pre (locked m : Routine σ Λ ε α) post fail := by
  intro l s hs s' hr hi
  obtain ⟨hi',hg,hpost⟩ := h l s' (hstable l s s' hs hr) hi
  refine ⟨hi',hg,?_,fun e he => by cases he⟩
  rintro a ⟨⟩
  exact hpost

theorem Triple.bind {m : Routine σ Λ ε α} {k : α → Routine σ Λ ε β} {Q : α → Λ → σ → Prop} {post' : β → Λ → σ → Prop}
    (hm : Triple I R G pre m Q fail) (hk : ∀ a, Triple I R G (Q a) (k a) post' fail) :
    Triple I R G pre (m >>= k) post' fail := by
  intro l s hs
  refine Pool.Safe.bind (hm l s hs) ?_
  rintro ⟨e | a,l'⟩ s' ⟨hpost,hfail⟩
  · exact ⟨fun b hb => (by cases hb),fun _ _ => hfail e rfl⟩
  · exact hk a l' s' (hpost a rfl)

/-- A section whose result is put in the local variables at once. -/
theorem triple_locked_bind {m : σ → α × σ} {k : α → Routine σ Λ ε β} {post : β → Λ → σ → Prop}
    (hstable : ∀ l s s', pre l s → R s s' → pre l s')
    (h : ∀ l s, pre l s → I s → I (m s).2 ∧ G s (m s).2)
    (hk : ∀ l s, pre l s → I s → Triple I R G (fun l' s' => l' = l ∧ s' = (m s).2) (k (m s).1) post fail) :
    Triple I R G pre (locked m >>= k) post fail := by
  intro l s hs s' hr hi
  have hs' := hstable l s s' hs hr
  exact ⟨(h l s' hs' hi).1,(h l s' hs' hi).2,hk l s' hs' hi l _ ⟨rfl,rfl⟩⟩

theorem Triple.mono {pre' : Λ → σ → Prop} {post' : α → Λ → σ → Prop} {fail' : Λ → σ → Prop}
    {m : Routine σ Λ ε α} (hm : Triple I R G pre m post fail) (hpre : ∀ l s, pre' l s → pre l s)
    (hpost : ∀ a l s, post a l s → post' a l s) (hfail : ∀ l s, fail l s → fail' l s) :
    Triple I R G pre' m post' fail' := fun l s hs =>
  (hm l s (hpre l s hs)).mono fun _ _ hr =>
    ⟨fun a ha => hpost a _ _ (hr.1 a ha),fun e he => hfail _ _ (hr.2 e he)⟩

theorem triple_ite {b : Prop} [Decidable b] {m m' : Routine σ Λ ε α} (hm : b → Triple I R G pre m post fail)
    (hm' : ¬b → Triple I R G pre m' post fail) : Triple I R G pre (if b then m else m') post fail := by
  split_ifs with h
  · exact hm h
  · exact hm' h

theorem triple_tryExcept {m : Routine σ Λ ε α} {handler : ε → Routine σ Λ ε α} {raised : Λ → σ → Prop}
    (hm : Triple I R G pre m post raised) (hhandler : ∀ e, Triple I R G raised (handler e) post fail) :
    Triple I R G pre (m.tryExcept handler) post fail := by
  intro l s hs
  refine Pool.Safe.bind (hm l s hs) ?_
  rintro ⟨e | a,l'⟩ s' ⟨hpost,hraised⟩
  · exact hhandler e l' s' (hraised e rfl)
  · exact ⟨fun b hb => (by cases hb; exact hpost a rfl),fun e he => by cases he⟩

theorem triple_tryFinally {m : Routine σ Λ ε α} {last : Routine σ Λ ε Unit} {mid final : Λ → σ → Prop}
    (hm : Triple I R G pre m (fun _ => mid) mid) (hlast : Triple I R G mid last (fun _ => final) final) :
    Triple I R G pre (m.tryFinally last) (fun _ => final) final := by
  intro l s hs
  refine Pool.Safe.bind (hm l s hs) fun r s' hr => ?_
  have hmid : mid r.2 s' := by
    cases hr' : r.1 with
    | error e => exact hr.2 e hr'
    | ok a => exact hr.1 a hr'
  refine Pool.Safe.bind (hlast r.2 s' hmid) ?_
  rintro ⟨e | _,l'⟩ s'' ⟨hpost,hfail⟩
  · exact ⟨fun b hb => (by cases hb),fun _ _ => hfail e rfl⟩
  · exact ⟨fun _ _ => hpost () rfl,fun _ _ => hpost () rfl⟩

end Routine
end FakeNetNG
