import Mathlib.Data.List.Nodup
import Mathlib.Data.List.Basic
import Mathlib.Tactic

/-!
# Insertion-ordered dictionaries

A dictionary is a list of entries without a repeated key. Assigning to a present
key keeps its position and assigning to a new key appends it, so that iteration
order is the order of first insertion. `get?_set`, `get?_pop` and `get?_filter`
say what each operation does to a lookup, and the `countP` lemmas what it does to
the number of entries with a property.
-/

namespace FakeNetNG

structure Dict (κ ν : Type) where
  entries : List (κ × ν)
  nodup : (entries.map Prod.fst).Nodup

namespace Dict

variable {κ ν : Type}

def empty : Dict κ ν := ⟨[],by simp⟩

def size (d : Dict κ ν) : ℕ := d.entries.length

def keys (d : Dict κ ν) : List κ := d.entries.map Prod.fst

def values (d : Dict κ ν) : List ν := d.entries.map Prod.snd

@[grind] def countP (d : Dict κ ν) (p : ν → Bool) : ℕ := d.entries.countP fun e => p e.2

@[simp] theorem size_empty : (empty : Dict κ ν).size = 0 := rfl
@[simp] theorem countP_empty (p : ν → Bool) : (empty : Dict κ ν).countP p = 0 := rfl

theorem size_eq_countP (d : Dict κ ν) : d.size = d.countP fun _ => true := by
  simp [size,countP]

theorem countP_eq_length (d : Dict κ ν) (p : ν → Bool) :
    d.countP p = (d.values.filter p).length := by
  rw [← List.countP_eq_length_filter,values,List.countP_map,countP]
  rfl

theorem filter_nodup {l : List (κ × ν)} (h : (l.map Prod.fst).Nodup) (p : κ × ν → Bool) :
    ((l.filter p).map Prod.fst).Nodup :=
  h.sublist ((List.filter_sublist (p:=p)).map Prod.fst)

@[grind] def filter (d : Dict κ ν) (p : κ → ν → Bool) : Dict κ ν :=
  ⟨d.entries.filter fun e => p e.1 e.2,filter_nodup d.nodup _⟩

theorem keys_filter (d : Dict κ ν) (p : κ → Bool) :
    (d.filter fun k _ => p k).keys = d.keys.filter p := by
  simp only [keys,filter,List.filter_map]
  rfl

theorem size_filter_le (d : Dict κ ν) (p : κ → ν → Bool) : (d.filter p).size ≤ d.size :=
  List.length_filter_le _ _

theorem countP_filter_le (d : Dict κ ν) (q : κ → ν → Bool) (p : ν → Bool) :
    (d.filter q).countP p ≤ d.countP p :=
  (List.filter_sublist (p:=_)).countP_le

variable [DecidableEq κ]

def get? (d : Dict κ ν) (k : κ) : Option ν := (d.entries.find? fun e => e.1 = k).map Prod.snd

def contains (d : Dict κ ν) (k : κ) : Bool := (d.get? k).isSome

def pop (d : Dict κ ν) (k : κ) : Dict κ ν := d.filter fun k' _ => k' ≠ k

def mapValues {μ : Type} (d : Dict κ ν) (f : κ → ν → μ) : Dict κ μ :=
  ⟨d.entries.map fun e => (e.1,f e.1 e.2),by
    simpa only [List.map_map,Function.comp_def] using d.nodup⟩

theorem get?_eq_none_iff (d : Dict κ ν) (k : κ) : d.get? k = none ↔ k ∉ d.keys := by
  simp only [get?,keys,Option.map_eq_none_iff,List.find?_eq_none,List.mem_map,decide_eq_true_eq,
    not_exists,not_and]

/-- Lookup and membership agree because no key is repeated. -/
theorem get?_eq_some_iff (d : Dict κ ν) (k : κ) (v : ν) :
    d.get? k = some v ↔ (k,v) ∈ d.entries := by
  rcases d with ⟨l,h⟩
  simp only [get?]
  induction l with
  | nil => simp
  | cons e l ih =>
    rcases e with ⟨k',v'⟩
    simp only [List.map_cons,List.nodup_cons] at h
    by_cases hk : k' = k
    · subst hk
      have hn : (k',v) ∉ l := fun hm => h.1 (List.mem_map.mpr ⟨_,hm,rfl⟩)
      simp [hn,eq_comm]
    · have hne : (k,v) ≠ (k',v') := fun he => hk (Prod.ext_iff.mp he).1.symm
      simp only [List.find?_cons,hk,decide_false,List.mem_cons,hne,false_or]
      exact ih h.2

theorem contains_iff (d : Dict κ ν) (k : κ) : d.contains k = true ↔ ∃ v, d.get? k = some v := by
  simp [contains,Option.isSome_iff_exists]

theorem contains_eq_false_iff (d : Dict κ ν) (k : κ) : d.contains k = false ↔ d.get? k = none := by
  simp [contains]

theorem mem_values_iff (d : Dict κ ν) (v : ν) : v ∈ d.values ↔ ∃ k, d.get? k = some v := by
  simp only [values,List.mem_map,get?_eq_some_iff,Prod.exists]
  constructor
  · rintro ⟨k,w,hm,rfl⟩
    exact ⟨k,hm⟩
  · rintro ⟨k,hm⟩
    exact ⟨k,v,hm,rfl⟩

/-- A relation between the values under any two different keys. -/
theorem pairwise_values {d : Dict κ ν} {R : ν → ν → Prop}
    (h : ∀ i j t u, d.get? i = some t → d.get? j = some u → i ≠ j → R t u) :
    d.values.Pairwise R := by
  rw [values,List.pairwise_map]
  have hnodup := d.nodup
  rw [List.Nodup,List.pairwise_map] at hnodup
  refine hnodup.imp_of_mem fun {a b} ha hb hne => ?_
  exact h a.1 b.1 a.2 b.2 ((get?_eq_some_iff _ _ _).mpr ha) ((get?_eq_some_iff _ _ _).mpr hb) hne

@[simp] theorem get?_empty (k : κ) : (empty : Dict κ ν).get? k = none := rfl
@[simp] theorem contains_empty (k : κ) : (empty : Dict κ ν).contains k = false := rfl
theorem get?_filter (d : Dict κ ν) (p : κ → ν → Bool) (k : κ) :
    (d.filter p).get? k = (d.get? k).filter (p k) := by
  apply Option.ext
  intro v
  rw [get?_eq_some_iff,Option.filter_eq_some_iff,get?_eq_some_iff]
  simp [filter]

theorem get?_filter_eq_some (d : Dict κ ν) (p : κ → ν → Bool) (k : κ) (v : ν) :
    (d.filter p).get? k = some v ↔ d.get? k = some v ∧ p k v = true := by
  rw [get?_filter,Option.filter_eq_some_iff]

theorem get?_pop (d : Dict κ ν) (k k' : κ) :
    (d.pop k).get? k' = if k' = k then none else d.get? k' := by
  rw [pop,get?_filter]
  by_cases h : k' = k <;> cases d.get? k' <;> simp [h]

@[simp] theorem get?_pop_self (d : Dict κ ν) (k : κ) : (d.pop k).get? k = none := by
  simp [get?_pop]

theorem get?_pop_of_ne (d : Dict κ ν) {k k' : κ} (h : k' ≠ k) : (d.pop k).get? k' = d.get? k' := by
  simp [get?_pop,h]

theorem get?_pop_eq_some (d : Dict κ ν) (k k' : κ) (v : ν) :
    (d.pop k).get? k' = some v ↔ k' ≠ k ∧ d.get? k' = some v := by
  rw [get?_pop]
  by_cases h : k' = k <;> simp [h]

/-- An absent key is popped without effect. -/
theorem pop_of_get?_none (d : Dict κ ν) (k : κ) (h : d.get? k = none) : d.pop k = d := by
  have he : d.entries.filter (fun e => decide (e.1 ≠ k)) = d.entries := by
    apply List.filter_eq_self.mpr
    intro e hm
    simp only [decide_eq_true_eq]
    rintro rfl
    exact (get?_eq_none_iff d e.1).mp h (List.mem_map.mpr ⟨e,hm,rfl⟩)
  rcases d with ⟨l,hn⟩
  simpa only [pop,filter,Dict.mk.injEq] using he

/-- `if d.get(k) is v: d.pop(k)`. -/
def popIf [DecidableEq ν] (d : Dict κ ν) (k : κ) (v : ν) : Dict κ ν :=
  if d.get? k = some v then d.pop k else d

theorem get?_popIf_eq_some [DecidableEq ν] (d : Dict κ ν) (k k' : κ) (v w : ν) :
    (d.popIf k v).get? k' = some w ↔ d.get? k' = some w ∧ ¬(k' = k ∧ w = v) := by
  unfold popIf
  split
  · rename_i h
    rw [get?_pop_eq_some]
    constructor
    · rintro ⟨hne,hw⟩
      exact ⟨hw,fun hk => hne hk.1⟩
    · rintro ⟨hw,hn⟩
      refine ⟨?_,hw⟩
      rintro rfl
      rw [h] at hw
      exact hn ⟨rfl,(Option.some.inj hw).symm⟩
  · rename_i h
    constructor
    · intro hw
      refine ⟨hw,?_⟩
      rintro ⟨rfl,rfl⟩
      exact h hw
    · exact fun hw => hw.1

theorem get?_mapValues {μ : Type} (d : Dict κ ν) (f : κ → ν → μ) (k : κ) :
    (d.mapValues f).get? k = (d.get? k).map (f k) := by
  apply Option.ext
  intro v
  simp only [get?_eq_some_iff,Option.map_eq_some_iff,mapValues,List.mem_map,Prod.exists,
    Prod.mk.injEq]
  constructor
  · rintro ⟨k',w,hm,rfl,rfl⟩
    exact ⟨w,hm,rfl⟩
  · rintro ⟨w,hm,rfl⟩
    exact ⟨k,w,hm,rfl,rfl⟩

theorem set_nodup (d : Dict κ ν) (k : κ) (v : ν) :
    ((if d.contains k then d.entries.map fun e => if e.1 = k then (k,v) else e
      else d.entries ++ [(k,v)]).map Prod.fst).Nodup := by
  split
  · have hkeys : (d.entries.map fun e => if e.1 = k then (k,v) else e).map Prod.fst =
        d.entries.map Prod.fst := by
      rw [List.map_map]
      apply List.map_congr_left
      intro e hm
      by_cases h : e.1 = k <;> simp [h]
    rw [hkeys]
    exact d.nodup
  · rename_i h
    have hk : k ∉ d.keys := (get?_eq_none_iff d k).mp (by simpa [contains] using h)
    rw [List.map_append]
    refine List.nodup_append.mpr ⟨d.nodup,by simp,?_⟩
    intro a ha b hb
    simp only [List.map_cons,List.map_nil,List.mem_singleton] at hb
    subst hb
    rintro rfl
    exact hk ha

/-- Assignment: in place for a present key, at the end for a new one. -/
def set (d : Dict κ ν) (k : κ) (v : ν) : Dict κ ν :=
  ⟨if d.contains k then d.entries.map fun e => if e.1 = k then (k,v) else e
    else d.entries ++ [(k,v)],set_nodup d k v⟩

theorem set_entries_of_new (d : Dict κ ν) (k : κ) (v : ν) (h : d.get? k = none) :
    (d.set k v).entries = d.entries ++ [(k,v)] := by
  simp [set,contains,h]

theorem contains_iff_mem_keys (d : Dict κ ν) (k : κ) : d.contains k = true ↔ k ∈ d.keys := by
  have hnone := get?_eq_none_iff d k
  rw [← contains_eq_false_iff] at hnone
  by_cases h : k ∈ d.keys <;> simp_all

theorem keys_set_of_contains (d : Dict κ ν) {k : κ} (v : ν) (h : d.contains k = true) :
    (d.set k v).keys = d.keys := by
  simp only [keys,set,h,if_true,List.map_map]
  refine List.map_congr_left fun e _ => ?_
  by_cases he : e.1 = k <;> simp [he]

theorem keys_set_of_new (d : Dict κ ν) {k : κ} (v : ν) (h : d.contains k = false) :
    (d.set k v).keys = d.keys++[k] := by
  simp [keys,set_entries_of_new d k v ((contains_eq_false_iff d k).mp h)]

theorem get?_set (d : Dict κ ν) (k k' : κ) (v : ν) :
    (d.set k v).get? k' = if k' = k then some v else d.get? k' := by
  apply Option.ext
  intro w
  rw [get?_eq_some_iff]
  cases hc : d.get? k with
  | none =>
    rw [set_entries_of_new d k v hc,List.mem_append,List.mem_singleton,← get?_eq_some_iff]
    by_cases h : k' = k
    · subst h
      simp [hc,eq_comm]
    · simp [h]
  | some u =>
    simp only [set,contains,hc,Option.isSome_some,if_true,List.mem_map,Prod.exists]
    by_cases h : k' = k
    · subst h
      simp only [if_true,Option.some.injEq]
      constructor
      · rintro ⟨a,b,hm,he⟩
        by_cases ha : a = k'
        · simpa [ha] using he
        · rw [if_neg ha] at he
          exact absurd (Prod.mk.inj he).1 ha
      · rintro rfl
        exact ⟨k',u,(get?_eq_some_iff d k' u).mp hc,by simp⟩
    · simp only [h,if_false,get?_eq_some_iff]
      constructor
      · rintro ⟨a,b,hm,he⟩
        by_cases ha : a = k
        · simp only [ha,if_true,Prod.mk.injEq] at he
          exact absurd he.1.symm h
        · simpa [ha,← he] using hm
      · intro hm
        exact ⟨k',w,hm,by simp [h]⟩

theorem contains_set (d : Dict κ ν) (k k' : κ) (v : ν) :
    (d.set k v).contains k' = (decide (k' = k) || d.contains k') := by
  rw [contains,get?_set]
  by_cases h : k' = k <;> simp [h,contains]

@[simp] theorem get?_set_self (d : Dict κ ν) (k : κ) (v : ν) : (d.set k v).get? k = some v := by
  simp [get?_set]

theorem get?_set_of_ne (d : Dict κ ν) {k k' : κ} (v : ν) (h : k' ≠ k) :
    (d.set k v).get? k' = d.get? k' := by
  simp [get?_set,h]

theorem get?_set_eq_some (d : Dict κ ν) (k k' : κ) (v w : ν) :
    (d.set k v).get? k' = some w ↔ (k' = k ∧ w = v) ∨ (k' ≠ k ∧ d.get? k' = some w) := by
  rw [get?_set]
  by_cases h : k' = k <;> simp [h,eq_comm]

theorem size_pop_le (d : Dict κ ν) (k : κ) : (d.pop k).size ≤ d.size := size_filter_le _ _

theorem countP_pop_le (d : Dict κ ν) (k : κ) (p : ν → Bool) : (d.pop k).countP p ≤ d.countP p :=
  countP_filter_le _ _ _

theorem size_set_of_new (d : Dict κ ν) (k : κ) (v : ν) (h : d.get? k = none) :
    (d.set k v).size = d.size+1 := by
  simp [size,set_entries_of_new d k v h]

theorem countP_set_of_new (d : Dict κ ν) (k : κ) (v : ν) (p : ν → Bool) (h : d.get? k = none) :
    (d.set k v).countP p = d.countP p + if p v then 1 else 0 := by
  simp [countP,set_entries_of_new d k v h,List.countP_append,List.countP_cons]

theorem countP_congr (d : Dict κ ν) (p q : ν → Bool)
    (h : ∀ k v, d.get? k = some v → p v = q v) : d.countP p = d.countP q := by
  apply List.countP_congr
  rintro ⟨k,v⟩ hm
  rw [h k v ((get?_eq_some_iff d k v).mpr hm)]

/-- Removing one entry lowers a count by exactly that entry. -/
theorem countP_pop (d : Dict κ ν) (k : κ) (v : ν) (p : ν → Bool) (h : d.get? k = some v) :
    (d.pop k).countP p + (if p v then 1 else 0) = d.countP p := by
  rcases d with ⟨l,hn⟩
  rw [get?_eq_some_iff] at h
  simp only [pop,filter,countP] at *
  induction l with
  | nil => simp at h
  | cons e l ih =>
    rcases e with ⟨k',v'⟩
    simp only [List.map_cons,List.nodup_cons] at hn
    rcases List.mem_cons.mp h with he | hm
    · obtain ⟨rfl,rfl⟩ := Prod.mk.inj he
      have hf : l.filter (fun e => decide (e.1 ≠ k)) = l := by
        apply List.filter_eq_self.mpr
        intro e hm
        simp only [decide_eq_true_eq]
        rintro rfl
        exact hn.1 (List.mem_map.mpr ⟨e,hm,rfl⟩)
      simp only [List.filter_cons,ne_eq,not_true_eq_false,decide_false,Bool.false_eq_true,if_false,
        List.countP_cons] at hf ⊢
      rw [hf]
    · have hk : k' ≠ k := by
        rintro rfl
        exact hn.1 (List.mem_map.mpr ⟨_,hm,rfl⟩)
      have hh := ih hn.2 hm
      simp only [List.filter_cons,ne_eq,hk,not_false_eq_true,decide_true,if_true,List.countP_cons]
      simp only [ne_eq] at hh
      omega

end Dict
end FakeNetNG
