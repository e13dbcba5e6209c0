import Mathlib.Algebra.Order.Ring.Defs
import Mathlib.Data.List.Basic
import Mathlib.Tactic

/-!
# Token buckets

A bucket is refilled when a token is asked for, at a rate and up to a capacity. What was taken since a time
and what is left is at most the capacity and the refill since then; the bound on every window follows.
-/

namespace FakeNetNG
namespace TokenBucket

variable {R : Type} [Field R] [LinearOrder R] [IsStrictOrderedRing R]

structure Bucket (R : Type) where
  tokens : R
  refillAt : R

/-- The tokens at a later time. -/
def Bucket.refilled (capacity rate now : R) (bucket : Bucket R) : R :=
  min capacity (bucket.tokens+max 0 (now-bucket.refillAt)*rate)

def Bucket.take (capacity rate now : R) (bucket : Bucket R) : Bool × Bucket R :=
  let tokens := bucket.refilled capacity rate now
  if tokens < 1 then (false,⟨tokens,now⟩) else (true,⟨tokens-1,now⟩)

omit [IsStrictOrderedRing R] in
theorem take_refillAt (capacity rate now : R) (bucket : Bucket R) :
    (bucket.take capacity rate now).2.refillAt = now := by
  rw [Bucket.take]
  split <;> rfl

def since (first : R) (times : List R) : ℕ := times.countP fun time => decide (first ≤ time)

def within (first last : R) (times : List R) : ℕ :=
  times.countP fun time => decide (first ≤ time ∧ time ≤ last)

/-- A bucket that gave a token at each of the times. -/
structure Spent (capacity rate : R) (bucket : Bucket R) (times : List R) : Prop where
  nonneg : 0 ≤ bucket.tokens
  capped : bucket.tokens ≤ capacity
  past : ∀ time ∈ times, time ≤ bucket.refillAt
  since : ∀ first ≤ bucket.refillAt, since first times+bucket.tokens ≤ capacity+rate*(bucket.refillAt-first)
  within : ∀ first last, first ≤ last → within first last times ≤ capacity+rate*(last-first)

variable {capacity rate now first last : R} {bucket : Bucket R} {times : List R}

theorem full_spent (hcapacity : 0 ≤ capacity) (hrate : 0 ≤ rate) : Spent capacity rate ⟨capacity,now⟩ [] where
  nonneg := hcapacity
  capped := le_rfl
  past := by simp
  since := by
    intro first hfirst
    have hrefill := mul_nonneg hrate (sub_nonneg.mpr hfirst)
    simpa [TokenBucket.since] using hrefill
  within := by
    intro first last hfirst
    have hrefill := mul_nonneg hrate (sub_nonneg.mpr hfirst)
    have hall := add_nonneg hcapacity hrefill
    simpa [TokenBucket.within] using hall

omit [IsStrictOrderedRing R] [Field R] in
theorem since_eq_zero (h : ∀ time ∈ times, time < first) : since first times = 0 := by
  rw [since,List.countP_eq_zero]
  intro time htime hfirst
  exact absurd (of_decide_eq_true hfirst) (not_le.mpr (h time htime))

omit [IsStrictOrderedRing R] [Field R] in
theorem within_le_since (first last : R) (times : List R) : within first last times ≤ since first times := by
  refine List.countP_mono_left fun time _ hwithin => ?_
  have hboth : first ≤ time ∧ time ≤ last := of_decide_eq_true hwithin
  simpa using hboth.1

theorem Spent.refilled_nonneg (h : Spent capacity rate bucket times) (hrate : 0 ≤ rate) :
    0 ≤ bucket.refilled capacity rate now := by
  have hcapacity := h.nonneg.trans h.capped
  have hgain : 0 ≤ max 0 (now-bucket.refillAt)*rate := mul_nonneg (le_max_left ..) hrate
  exact le_min hcapacity (add_nonneg h.nonneg hgain)

/-- What was taken and what the bucket has after a refill. -/
theorem Spent.since_refilled (h : Spent capacity rate bucket times) (hrate : 0 ≤ rate) (hnow : bucket.refillAt ≤ now)
    (hfirst : first ≤ now) :
    TokenBucket.since first times+bucket.refilled capacity rate now ≤ capacity+rate*(now-first) := by
  by_cases hrecent : first ≤ bucket.refillAt
  · have hbefore := h.since first hrecent
    have hgain : bucket.refilled capacity rate now ≤ bucket.tokens+(now-bucket.refillAt)*rate := by
      rw [Bucket.refilled,max_eq_right (sub_nonneg.mpr hnow)]
      exact min_le_right ..
    calc (TokenBucket.since first times : R)+bucket.refilled capacity rate now
        ≤ TokenBucket.since first times+bucket.tokens+(now-bucket.refillAt)*rate := by linarith
      _ ≤ capacity+rate*(bucket.refillAt-first)+(now-bucket.refillAt)*rate := by linarith
      _ = capacity+rate*(now-first) := by ring
  · have hzero : TokenBucket.since first times = 0 :=
      since_eq_zero fun time htime => (h.past time htime).trans_lt (not_le.mp hrecent)
    have hcapped : bucket.refilled capacity rate now ≤ capacity := min_le_left ..
    have hrefill := mul_nonneg hrate (sub_nonneg.mpr hfirst)
    rw [hzero,Nat.cast_zero]
    linarith

omit [IsStrictOrderedRing R] [Field R] in
theorem since_snoc_le (first now : R) (times : List R) :
    since first (times++[now]) ≤ since first times+1 := by
  rw [since,List.countP_append]
  exact Nat.add_le_add_left List.countP_le_length _

theorem Spent.refused (h : Spent capacity rate bucket times) (hrate : 0 ≤ rate) (hnow : bucket.refillAt ≤ now) :
    Spent capacity rate ⟨bucket.refilled capacity rate now,now⟩ times where
  nonneg := h.refilled_nonneg hrate
  capped := min_le_left ..
  past := fun time htime => (h.past time htime).trans hnow
  since := fun _ hfirst => h.since_refilled hrate hnow hfirst
  within := h.within

theorem Spent.taken (h : Spent capacity rate bucket times) (hrate : 0 ≤ rate) (hnow : bucket.refillAt ≤ now)
    (htokens : 1 ≤ bucket.refilled capacity rate now) :
    Spent capacity rate ⟨bucket.refilled capacity rate now-1,now⟩ (times++[now]) := by
  have hcapped : bucket.refilled capacity rate now ≤ capacity := min_le_left ..
  have hsince : ∀ first ≤ now, (TokenBucket.since first (times++[now]) : R)+(bucket.refilled capacity rate now-1) ≤
      capacity+rate*(now-first) := by
    intro first hfirst
    have hbefore := h.since_refilled hrate hnow hfirst
    have hsnoc : (TokenBucket.since first (times++[now]) : R) ≤ TokenBucket.since first times+1 := by
      exact_mod_cast since_snoc_le first now times
    linarith
  constructor
  · exact sub_nonneg.mpr htokens
  · show bucket.refilled capacity rate now-1 ≤ capacity
    linarith
  · intro time htime
    obtain hbefore | hthis := List.mem_append.mp htime
    · exact (h.past time hbefore).trans hnow
    · exact (List.mem_singleton.mp hthis).le
  · exact hsince
  · intro first last hle
    by_cases hlast : now ≤ last
    · by_cases hfirst : first ≤ now
      · have hall := hsince first hfirst
        have hwithin : (TokenBucket.within first last (times++[now]) : R) ≤ TokenBucket.since first (times++[now]) := by
          exact_mod_cast within_le_since first last (times++[now])
        have hlater : rate*(now-first) ≤ rate*(last-first) := mul_le_mul_of_nonneg_left (by linarith) hrate
        linarith
      · have hbefore : ∀ time ∈ times++[now], time < first := by
          intro time htime
          obtain hold | hthis := List.mem_append.mp htime
          · exact ((h.past time hold).trans hnow).trans_lt (not_le.mp hfirst)
          · rw [List.mem_singleton.mp hthis]
            exact not_le.mp hfirst
        have hzero : TokenBucket.within first last (times++[now]) = 0 :=
          Nat.le_zero.mp ((within_le_since ..).trans (since_eq_zero hbefore).le)
        have hrefill := mul_nonneg hrate (sub_nonneg.mpr hle)
        have hcapacity := h.nonneg.trans h.capped
        rw [hzero,Nat.cast_zero]
        exact add_nonneg hcapacity hrefill
    · have hsame : TokenBucket.within first last (times++[now]) = TokenBucket.within first last times := by
        simp [TokenBucket.within,hlast]
      rw [hsame]
      exact h.within first last hle

/-- One request at a time that is not in the past. -/
theorem Spent.take (h : Spent capacity rate bucket times) (hrate : 0 ≤ rate) (hnow : bucket.refillAt ≤ now) :
    Spent capacity rate (bucket.take capacity rate now).2
      (times++if (bucket.take capacity rate now).1 then [now] else []) := by
  rw [Bucket.take]
  by_cases htokens : bucket.refilled capacity rate now < 1
  · rw [if_pos htokens]
    simpa using h.refused hrate hnow
  · rw [if_neg htokens]
    exact h.taken hrate hnow (not_lt.mp htokens)

end TokenBucket
end FakeNetNG
