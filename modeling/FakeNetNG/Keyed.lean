import Mathlib.Data.List.Nodup
import Mathlib.Tactic

/-!
# Lists with a key

A record is put in the place of the one with its key, or after the others. The lemmas say what becomes of
the first record with a property and of the number of records with it.
-/

namespace FakeNetNG
namespace Keyed

variable {α κ : Type} [DecidableEq κ] {key : α → κ}

@[grind] def put (key : α → κ) (a : α) : List α → List α
  | [] => [a]
  | b :: rest => if key b = key a then a :: rest else b :: put key a rest

variable {a s : α} {l : List α} {q : α → Bool}

theorem map_put (a : α) (l : List α) :
    (put key a l).map key = if key a ∈ l.map key then l.map key else l.map key++[key a] := by
  induction l with
  | nil => simp [put]
  | cons b rest ih =>
    rw [put]
    by_cases hkey : key b = key a
    · rw [if_pos hkey,List.map_cons,List.map_cons,hkey,if_pos (by simp)]
    · rw [if_neg hkey,List.map_cons,List.map_cons,ih]
      by_cases hmem : key a ∈ rest.map key
      · rw [if_pos hmem,if_pos (List.mem_cons_of_mem _ hmem)]
      · rw [if_neg hmem,if_neg (by simpa [Ne.symm hkey] using hmem)]
        rfl

theorem nodup_put (h : (l.map key).Nodup) : ((put key a l).map key).Nodup := by
  rw [map_put]
  split
  · exact h
  · next hmem =>
    rw [← List.concat_eq_append]
    exact h.concat hmem

theorem find?_put_of_ne (hs : l.find? q = some s) (hkey : key s ≠ key a)
    (ha : q a = true → ∀ b ∈ l, key b = key a → q b = true) : (put key a l).find? q = some s := by
  induction l with
  | nil => cases hs
  | cons b rest ih =>
    rw [put]
    by_cases hb : q b = true
    · obtain rfl : b = s := by simpa [hb] using hs
      rw [if_neg hkey,List.find?_cons_of_pos hb]
    · rw [List.find?_cons_of_neg hb] at hs
      by_cases hsame : key b = key a
      · have hqa : ¬q a = true := fun h => hb (ha h b (by simp) hsame)
        rw [if_pos hsame,List.find?_cons_of_neg hqa,hs]
      · rw [if_neg hsame,List.find?_cons_of_neg hb]
        exact ih hs fun h c hc => ha h c (List.mem_cons_of_mem _ hc)

theorem find?_put_of_eq (hl : (l.map key).Nodup) (hs : l.find? q = some s) (hkey : key s = key a)
    (ha : q a = true) : (put key a l).find? q = some a := by
  induction l with
  | nil => cases hs
  | cons b rest ih =>
    rw [put]
    by_cases hb : q b = true
    · obtain rfl : b = s := by simpa [hb] using hs
      rw [if_pos hkey,List.find?_cons_of_pos ha]
    · rw [List.find?_cons_of_neg hb] at hs
      rw [List.map_cons,List.nodup_cons] at hl
      have hsame : key b ≠ key a := by
        intro h
        refine hl.1 ?_
        rw [h,← hkey]
        exact List.mem_map_of_mem (List.mem_of_find?_eq_some hs)
      rw [if_neg hsame,List.find?_cons_of_neg hb]
      exact ih hl.2 hs

theorem find?_put_of_none (hl : l.find? q = none) (ha : q a = true) : (put key a l).find? q = some a := by
  induction l with
  | nil => simp [put,ha]
  | cons b rest ih =>
    have hb : ¬q b = true := by simpa using List.find?_eq_none.mp hl b (by simp)
    rw [List.find?_cons_of_neg hb] at hl
    rw [put]
    split
    · rw [List.find?_cons_of_pos ha]
    · rw [List.find?_cons_of_neg hb]
      exact ih hl

/-- The record with another key is found as before. -/
theorem find?_key_put {k : κ} (hk : k ≠ key a) :
    ((put key a l).find? fun b => decide (key b = k)) = l.find? fun b => decide (key b = k) := by
  induction l with
  | nil => simp [put,Ne.symm hk]
  | cons b rest ih =>
    rw [put]
    by_cases hsame : key b = key a
    · rw [if_pos hsame,List.find?_cons_of_neg (by simp [Ne.symm hk]),List.find?_cons_of_neg (by simp [hsame,Ne.symm hk])]
    · rw [if_neg hsame,List.find?_cons,List.find?_cons,ih]

theorem find?_key_put_self {k : κ} (hk : k = key a) :
    ((put key a l).find? fun b => decide (key b = k)) = some a := by
  induction l with
  | nil => simp [put,hk]
  | cons b rest ih =>
    rw [put]
    by_cases hsame : key b = key a
    · rw [if_pos hsame,List.find?_cons_of_pos (by simp [hk])]
    · rw [if_neg hsame,List.find?_cons_of_neg (by simpa [hk] using hsame)]
      exact ih

/-- A record that is not looked for hides the one it takes the place of. -/
theorem find?_put_of_not (hl : (l.map key).Nodup) (ha : q a = false) :
    (put key a l).find? q = l.find? fun b => q b && decide (key b ≠ key a) := by
  induction l with
  | nil => simp [put,ha]
  | cons b rest ih =>
    rw [List.map_cons,List.nodup_cons] at hl
    rw [put]
    by_cases hsame : key b = key a
    · have hrest : ∀ c ∈ rest, key c ≠ key a := by
        intro c hc hkey
        refine hl.1 ?_
        rw [hsame,← hkey]
        exact List.mem_map_of_mem hc
      rw [if_pos hsame,List.find?_cons_of_neg (by simp [ha]),List.find?_cons_of_neg (by simp [hsame])]
      refine List.find?_congr fun c hc => ?_
      simp [hrest c hc]
    · rw [if_neg hsame,List.find?_cons,List.find?_cons,ih hl.2]
      simp [hsame]

omit [DecidableEq κ] in
/-- The only record with a property that fixes the key. -/
theorem find?_unique (hl : (l.map key).Nodup) (hs : s ∈ l) (hq : q s = true) (hkey : ∀ b, q b = true → key b = key s) :
    l.find? q = some s := by
  cases hfind : l.find? q with
  | none => exact absurd hq (List.find?_eq_none.mp hfind s hs)
  | some b =>
    have hb := hkey b (List.find?_some hfind)
    rw [List.inj_on_of_nodup_map hl (List.mem_of_find?_eq_some hfind) hs hb]

theorem put_eq_self (hl : (l.map key).Nodup) (ha : a ∈ l) : put key a l = l := by
  induction l with
  | nil => cases ha
  | cons b rest ih =>
    rw [List.map_cons,List.nodup_cons] at hl
    rw [put]
    obtain rfl | hrest := List.mem_cons.mp ha
    · rw [if_pos rfl]
    · have hne : key b ≠ key a := by
        intro h
        exact hl.1 (h ▸ List.mem_map_of_mem hrest)
      rw [if_neg hne,ih hl.2 hrest]

theorem mem_put (a : α) (l : List α) : a ∈ put key a l := by
  induction l with
  | nil => simp [put]
  | cons b rest ih =>
    rw [put]
    split
    · simp
    · exact List.mem_cons_of_mem _ ih

/-- The record that was replaced counts no more. -/
theorem countP_put (key : α → κ) (q : α → Bool) (a : α) (l : List α) :
    (put key a l).countP q+(((l.find? fun b => decide (key b = key a)).filter q).elim 0 fun _ => 1) =
      l.countP q+if q a then 1 else 0 := by
  induction l with
  | nil => simp [put,List.countP_cons]
  | cons b rest ih =>
    rw [put]
    by_cases hsame : key b = key a
    · rw [if_pos hsame,List.find?_cons_of_pos (by simpa using hsame),List.countP_cons,List.countP_cons]
      by_cases hb : q b = true
      · simp [Option.filter,hb]
        omega
      · simp [Option.filter,hb]
    · rw [if_neg hsame,List.find?_cons_of_neg (by simpa using hsame),List.countP_cons,List.countP_cons]
      omega

theorem mem_put_of_ne (hs : s ∈ l) (hkey : key s ≠ key a) : s ∈ put key a l := by
  induction l with
  | nil => cases hs
  | cons b rest ih =>
    rw [put]
    obtain rfl | hrest := List.mem_cons.mp hs
    · rw [if_neg hkey]
      exact List.mem_cons_self
    · split
      · exact List.mem_cons_of_mem _ hrest
      · exact List.mem_cons_of_mem _ (ih hrest)

theorem find?_key (hl : (l.map key).Nodup) (ha : a ∈ l) : (l.find? fun b => decide (key b = key a)) = some a :=
  find?_unique hl ha (by simp) fun b hb => by simpa using hb

theorem countP_put_mem (hl : (l.map key).Nodup) (hs : s ∈ l) (hkey : key s = key a) :
    (put key a l).countP q+(if q s then 1 else 0) = l.countP q+if q a then 1 else 0 := by
  have h := countP_put key q a l
  rw [← hkey,find?_key hl hs] at h
  cases hqs : q s with
  | false => simpa [Option.filter,hqs] using h
  | true => simpa [Option.filter,hqs] using h

theorem countP_put_le (ha : q a = false) : (put key a l).countP q ≤ l.countP q := by
  have h := countP_put key q a l
  rw [ha,if_neg (by simp)] at h
  omega

/-- A record that does not count takes no place of one that does. -/
theorem countP_put_of_not (ha : q a = false) (hold : ∀ b ∈ l, key b = key a → q b = false) :
    (put key a l).countP q = l.countP q := by
  have h := countP_put key q a l
  have hnone : (l.find? fun b => decide (key b = key a)).filter q = none := by
    rw [Option.filter_eq_none_iff]
    intro b hb
    simpa using hold b (List.mem_of_find?_eq_some hb) (by simpa using List.find?_some hb)
  rw [ha,hnone,if_neg (by simp)] at h
  exact h

theorem countP_put_of_mem (hl : (l.map key).Nodup) (hs : s ∈ l) (hkey : key s = key a) (hq : q s = q a) :
    (put key a l).countP q = l.countP q := by
  have h := countP_put_mem (q:=q) hl hs hkey
  rw [hq] at h
  exact Nat.add_right_cancel h

theorem countP_put_of_none (hl : l.find? q = none) (ha : q a = true) : (put key a l).countP q = 1 := by
  have h := countP_put key q a l
  have hzero : l.countP q = 0 := by
    rw [List.countP_eq_zero]
    exact fun b hb => List.find?_eq_none.mp hl b hb
  have hnone : (l.find? fun b => decide (key b = key a)).filter q = none := by
    rw [Option.filter_eq_none_iff]
    exact fun b hb => List.find?_eq_none.mp hl b (List.mem_of_find?_eq_some hb)
  rw [ha,hnone,hzero,if_pos rfl] at h
  exact h

end Keyed
end FakeNetNG
