import FakeNetNG.Fallible
import Mathlib.Data.List.Lex
import Mathlib.Data.Prod.Lex
import Mathlib.Tactic

/-!
# Tables of rows with a key

Rows are read one after the other into a table. A row that cannot be read, or whose key the table has already,
ends the reading. Whether it ends and what the table holds in the order of the keys depend on the rows alone,
not on their order.
-/

namespace FakeNetNG
namespace KeyedTable

variable {α ε κ ν : Type} [DecidableEq κ]

/-- The rows behind the ones in the table. -/
@[grind] def fill (read : α → Except ε (κ × ν)) (duplicate : ε) : List α → List (κ × ν) → Except ε (List (κ × ν))
  | [], entries => .ok entries
  | row :: rest, entries => do
    let entry ← read row
    if entry.1 ∈ entries.map Prod.fst then .error duplicate
    else fill read duplicate rest (entries++[entry])

/-- What the rows hold that can be read. -/
def readable (read : α → Except ε (κ × ν)) (rows : List α) : List (κ × ν) := rows.filterMap fun row => (read row).toOption

variable {read : α → Except ε (κ × ν)} {duplicate : ε} {rows rows' : List α} {entries table : List (κ × ν)}

theorem fill_spec (h : (entries.map Prod.fst).Nodup) : fill read duplicate rows entries = .ok table ↔
    (∀ row ∈ rows, (read row).isOk = true) ∧ table = entries++readable read rows ∧ (table.map Prod.fst).Nodup := by
  induction rows generalizing entries with
  | nil =>
    rw [fill,readable,List.filterMap_nil,List.append_nil]
    constructor
    · intro htable
      cases htable
      exact ⟨fun _ hrow => (nomatch hrow),rfl,h⟩
    · rintro ⟨-,rfl,-⟩
      rfl
  | cons row rest ih =>
    rw [fill,List.forall_mem_cons]
    cases hread : read row with
    | error fault =>
      constructor
      · intro htable
        cases htable
      · rintro ⟨⟨hok,-⟩,-⟩
        cases hok
    | ok entry =>
      have hreadable : readable read (row :: rest) = entry :: readable read rest := by
        rw [readable,List.filterMap_cons,hread]
        rfl
      rw [hreadable]
      show (if entry.1 ∈ entries.map Prod.fst then _ else _) = _ ↔ _
      by_cases hmem : entry.1 ∈ entries.map Prod.fst
      · rw [if_pos hmem]
        constructor
        · intro htable
          cases htable
        · rintro ⟨-,rfl,hnodup⟩
          rw [List.map_append,List.nodup_append] at hnodup
          exact absurd rfl (hnodup.2.2 entry.1 hmem entry.1 (by simp))
      · have hnext : ((entries++[entry]).map Prod.fst).Nodup := by
          rw [List.map_append,List.map_singleton,← List.concat_eq_append]
          exact h.concat hmem
        rw [if_neg hmem,ih hnext,List.append_assoc,List.singleton_append]
        simp [Except.isOk,Except.toBool]

theorem fill_nil_spec : fill read duplicate rows [] = .ok table ↔
    (∀ row ∈ rows, (read row).isOk = true) ∧ table = readable read rows ∧ (table.map Prod.fst).Nodup :=
  fill_spec (by simp)

theorem fill_error {fault : ε} (h : fill read duplicate rows entries = .error fault) :
    fault = duplicate ∨ ∃ row ∈ rows, read row = .error fault := by
  induction rows generalizing entries with
  | nil => cases h
  | cons row rest ih =>
    rw [fill] at h
    cases hread : read row with
    | error fault' =>
      rw [hread] at h
      cases h
      exact .inr ⟨row,List.mem_cons_self,hread⟩
    | ok entry =>
      rw [hread] at h
      change (if entry.1 ∈ entries.map Prod.fst then _ else _) = _ at h
      by_cases hmem : entry.1 ∈ entries.map Prod.fst
      · rw [if_pos hmem] at h
        cases h
        exact .inl rfl
      · rw [if_neg hmem] at h
        obtain hsame | ⟨row',hrow',herror⟩ := ih h
        · exact .inl hsame
        · exact .inr ⟨row',List.mem_cons_of_mem row hrow',herror⟩

/-- The rows in another order make a table with the same entries. -/
theorem fill_perm (hperm : rows.Perm rows') (h : fill read duplicate rows [] = .ok table) :
    ∃ table', fill read duplicate rows' [] = .ok table' ∧ table.Perm table' := by
  obtain ⟨hok,rfl,hnodup⟩ := fill_nil_spec.mp h
  have hreadable : (readable read rows).Perm (readable read rows') := hperm.filterMap _
  refine ⟨readable read rows',fill_nil_spec.mpr ⟨fun row hrow => hok row (hperm.mem_iff.mpr hrow),rfl,?_⟩,hreadable⟩
  exact (hreadable.map Prod.fst).nodup_iff.mp hnodup

theorem fill_nodup (h : fill read duplicate rows [] = .ok table) : (table.map Prod.fst).Nodup :=
  (fill_nil_spec.mp h).2.2

/-- An entry is what one of the rows holds, and each row has one. -/
theorem mem_fill (h : fill read duplicate rows [] = .ok table) {entry : κ × ν} :
    entry ∈ table ↔ ∃ row ∈ rows, read row = .ok entry := by
  obtain ⟨-,rfl,-⟩ := fill_nil_spec.mp h
  rw [readable,List.mem_filterMap]
  refine exists_congr fun row => and_congr_right fun _ => ?_
  cases read row <;> simp [Except.toOption]

theorem fill_row (h : fill read duplicate rows [] = .ok table) {row : α} (hrow : row ∈ rows) :
    ∃ entry ∈ table, read row = .ok entry := by
  have hok := (fill_nil_spec.mp h).1 row hrow
  obtain ⟨entry,hentry⟩ := isOk_iff.mp hok
  exact ⟨entry,(mem_fill h).mpr ⟨row,hrow,hentry⟩,hentry⟩

theorem map_key_fill (h : fill read duplicate rows [] = .ok table) {key : α → Option κ}
    (hkey : ∀ row entry, read row = .ok entry → key row = some entry.1) :
    rows.map key = (table.map Prod.fst).map some := by
  obtain ⟨hok,rfl,-⟩ := fill_nil_spec.mp h
  clear h
  induction rows with
  | nil => rfl
  | cons row rest ih =>
    rw [List.forall_mem_cons] at hok
    obtain ⟨entry,hentry⟩ := isOk_iff.mp hok.1
    have hreadable : readable read (row :: rest) = entry :: readable read rest := by
      rw [readable,List.filterMap_cons,hentry]
      rfl
    rw [hreadable,List.map_cons,List.map_cons,List.map_cons,hkey row entry hentry,ih hok.2]

theorem lookup_eq_some_iff {k : κ} {v : ν} (h : (table.map Prod.fst).Nodup) : table.lookup k = some v ↔ (k,v) ∈ table := by
  induction table with
  | nil => simp
  | cons entry rest ih =>
    rw [List.map_cons,List.nodup_cons] at h
    rw [List.lookup_cons,List.mem_cons]
    by_cases hkey : k = entry.1
    · have hother : (k,v) ∉ rest := fun hmem => h.1 (hkey ▸ List.mem_map_of_mem hmem)
      have hbeq : (k == entry.1) = true := by simp [hkey]
      rw [hbeq,or_iff_left hother]
      constructor
      · intro hv
        cases hv
        rw [hkey]
      · rintro rfl
        rfl
    · have hbeq : (k == entry.1) = false := by simp [hkey]
      have hne : (k,v) ≠ entry := fun heq => hkey (by rw [← heq])
      rw [hbeq,or_iff_right hne]
      exact ih h.2

theorem lookup_congr {table' : List (κ × ν)} (hperm : table.Perm table') (h : (table.map Prod.fst).Nodup) (k : κ) :
    table.lookup k = table'.lookup k := by
  have h' : (table'.map Prod.fst).Nodup := (hperm.map Prod.fst).nodup_iff.mp h
  refine Option.ext fun v => ?_
  rw [lookup_eq_some_iff h,lookup_eq_some_iff h',hperm.mem_iff]

section Sorted

variable {κ : Type} [LinearOrder κ] {entries entries' : List (κ × ν)}

/-- The entries in the order of their keys. -/
def sorted (entries : List (κ × ν)) : List (κ × ν) := entries.mergeSort fun a b => decide (a.1 ≤ b.1)

theorem sorted_congr (hperm : entries.Perm entries') (hnodup : (entries.map Prod.fst).Nodup) :
    sorted entries = sorted entries' := by
  have htrans : ∀ a b c : κ × ν, decide (a.1 ≤ b.1) → decide (b.1 ≤ c.1) → decide (a.1 ≤ c.1) := fun a b c hab hbc =>
    decide_eq_true ((of_decide_eq_true hab).trans (of_decide_eq_true hbc))
  have htotal : ∀ a b : κ × ν, decide (a.1 ≤ b.1) || decide (b.1 ≤ a.1) := fun a b => by simpa using le_total a.1 b.1
  have hself : (sorted entries).Perm entries := List.mergeSort_perm entries _
  have hother : (sorted entries').Perm entries' := List.mergeSort_perm entries' _
  -- entries with one key are one entry
  have hantisymm : ∀ a b, a ∈ sorted entries → b ∈ sorted entries' → decide (a.1 ≤ b.1) → decide (b.1 ≤ a.1) → a = b := by
    intro a b ha hb hab hba
    have hkey : a.1 = b.1 := (of_decide_eq_true hab).antisymm (of_decide_eq_true hba)
    have hmem : b ∈ entries := hperm.mem_iff.mpr (hother.mem_iff.mp hb)
    exact List.inj_on_of_nodup_map hnodup (hself.mem_iff.mp ha) hmem hkey
  exact ((hself.trans hperm).trans hother.symm).eq_of_pairwise hantisymm
    (List.pairwise_mergeSort htrans htotal entries) (List.pairwise_mergeSort htrans htotal entries')

end Sorted

end KeyedTable
end FakeNetNG
