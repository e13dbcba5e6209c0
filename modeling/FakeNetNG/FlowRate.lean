import FakeNetNG.Keyed
import Mathlib.Algebra.Order.Ring.Rat
import Mathlib.Data.List.TakeWhile

/-!
# The rate of new relay flows

Every source has the times of its last admissions, and a table of them is kept for all sources. The history
of an admission is what was dropped from its deque followed by the deque; what was dropped is older than the
window, whichever of the two clean-ups dropped it.
-/

namespace FakeNetNG
namespace FlowRate

section Samples

/-- The deque after its old samples were taken from the left. -/
def recent (now : ℚ) (samples : List ℚ) : List ℚ :=
  samples.dropWhile fun time => decide (10 ≤ now-time)

def spent (now : ℚ) (samples : List ℚ) : List ℚ :=
  samples.takeWhile fun time => decide (10 ≤ now-time)

theorem spent_append_recent (now : ℚ) (samples : List ℚ) : spent now samples++recent now samples = samples :=
  List.takeWhile_append_dropWhile

theorem spent_old {now time : ℚ} {samples : List ℚ} (h : time ∈ spent now samples) : 10 ≤ now-time := by
  simpa using List.mem_takeWhile_imp h

/-- On samples in order all that are kept count. -/
theorem recent_young {now : ℚ} {samples : List ℚ} (h : samples.Pairwise (· ≤ ·)) :
    ∀ time ∈ recent now samples, now-time < 10 := by
  induction samples with
  | nil => simp [recent]
  | cons head rest ih =>
    rw [List.pairwise_cons] at h
    rw [recent,List.dropWhile_cons]
    by_cases hold : 10 ≤ now-head
    · rw [if_pos (by simpa using hold)]
      exact ih h.2
    · rw [if_neg (by simpa using hold)]
      intro time htime
      have hle : head ≤ time := by
        obtain rfl | hrest := List.mem_cons.mp htime
        · exact le_rfl
        · exact h.1 time hrest
      linarith

/-- The times between two bounds. -/
def within (first last : ℚ) (times : List ℚ) : List ℚ :=
  times.filter fun time => decide (first ≤ time ∧ time ≤ last)

theorem within_append (first last : ℚ) (a b : List ℚ) :
    within first last (a++b) = within first last a++within first last b :=
  List.filter_append ..

theorem within_eq_nil {first last : ℚ} {times : List ℚ} (h : ∀ time ∈ times, time < first ∨ last < time) :
    within first last times = [] := by
  rw [within,List.filter_eq_nil_iff]
  intro time htime hin
  have hbounds : first ≤ time ∧ time ≤ last := by simpa using hin
  obtain hlow | hhigh := h time htime
  · exact absurd hbounds.1 (not_le.mpr hlow)
  · exact absurd hbounds.2 (not_le.mpr hhigh)

theorem length_within_le (first last : ℚ) (times : List ℚ) : (within first last times).length ≤ times.length :=
  List.length_filter_le ..

end Samples

variable {κ : Type} [DecidableEq κ]

abbrev Flows (κ : Type) := κ × List ℚ

/-- The defaultdict of deques, one for each source. -/
structure Table (κ : Type) where
  entries : List (Flows κ)
  distinct : (entries.map Prod.fst).Nodup

def Table.empty (κ : Type) : Table κ := ⟨[],by simp⟩

def Table.samples (table : Table κ) (source : κ) : List ℚ :=
  ((table.entries.find? fun entry => decide (entry.1 = source)).map Prod.snd).getD []

def Table.put (table : Table κ) (source : κ) (samples : List ℚ) : Table κ :=
  ⟨Keyed.put Prod.fst (source,samples) table.entries,Keyed.nodup_put table.distinct⟩

/-- Is there a sample of the last minute? -/
def live (now : ℚ) (entry : Flows κ) : Bool :=
  match entry.2.getLast? with
  | none => false
  | some last => decide (now-last < 60)

def Table.prune (table : Table κ) (now : ℚ) : Table κ :=
  ⟨table.entries.filter (live now),table.distinct.sublist (List.filter_sublist.map _)⟩

def allowNewFlowRate (table : Table κ) (source : κ) (now : ℚ) : Bool × Table κ :=
  let samples := recent now (table.samples source)
  if 64 ≤ samples.length then (false,table.put source samples)
  else
    let table := table.put source (samples++[now])
    (true,if 1024 < table.entries.length then table.prune now else table)

@[simp] theorem Table.samples_empty (source : κ) : (Table.empty κ).samples source = [] := rfl

theorem Table.samples_put (table : Table κ) (source other : κ) (samples : List ℚ) :
    (table.put source samples).samples other = if other = source then samples else table.samples other := by
  rw [Table.samples,Table.put]
  by_cases hother : other = source
  · rw [if_pos hother,Keyed.find?_key_put_self hother]
    rfl
  · rw [if_neg hother,Keyed.find?_key_put hother]
    rfl

omit [DecidableEq κ] in
theorem live_of_young {now time : ℚ} {entry : Flows κ} (hsorted : entry.2.Pairwise (· ≤ ·)) (htime : time ∈ entry.2)
    (hyoung : now-time < 10) : live now entry = true := by
  rw [live]
  obtain hnone | ⟨last,hlast⟩ : entry.2.getLast? = none ∨ ∃ last, entry.2.getLast? = some last := by
    cases entry.2.getLast? <;> simp
  · rw [List.getLast?_eq_none_iff.mp hnone] at htime
    cases htime
  · obtain ⟨before,hsplit⟩ := List.getLast?_eq_some_iff.mp hlast
    have hle : time ≤ last := by
      rw [hsplit,List.pairwise_append] at hsorted
      rw [hsplit,List.mem_append] at htime
      obtain hbefore | hthis := htime
      · exact hsorted.2.2 time hbefore last (by simp)
      · exact (List.mem_singleton.mp hthis).le
    simp only [hlast,decide_eq_true_eq]
    linarith

/-- A pruned table has the deque of a source as before, or has lost one in which nothing counts. -/
theorem Table.samples_prune (table : Table κ) (now : ℚ) (source : κ) (hsorted : (table.samples source).Pairwise (· ≤ ·)) :
    (table.prune now).samples source = table.samples source ∨
      (table.prune now).samples source = [] ∧ ∀ time ∈ table.samples source, 10 ≤ now-time := by
  cases hfind : table.entries.find? fun entry => decide (entry.1 = source) with
  | none =>
    left
    have hpruned : (table.entries.filter (live now)).find? (fun entry => decide (entry.1 = source)) = none := by
      rw [List.find?_eq_none] at hfind ⊢
      exact fun entry hentry => hfind entry (List.mem_of_mem_filter hentry)
    rw [Table.samples,Table.samples,Table.prune,hpruned,hfind]
  | some entry =>
    have hmem := List.mem_of_find?_eq_some hfind
    have hkey : entry.1 = source := by simpa using List.find?_some hfind
    have hsamples : table.samples source = entry.2 := by
      rw [Table.samples,hfind]
      rfl
    by_cases hlive : live now entry = true
    · left
      have hpruned : entry ∈ table.entries.filter (live now) := List.mem_filter.mpr ⟨hmem,hlive⟩
      rw [hsamples,Table.samples,← hkey,Keyed.find?_key (table.prune now).distinct hpruned]
      rfl
    · right
      have hpruned : (table.entries.filter (live now)).find? (fun entry => decide (entry.1 = source)) = none := by
        rw [List.find?_eq_none]
        intro other hother hsame
        have hboth := List.mem_filter.mp hother
        have heq : other = entry :=
          List.inj_on_of_nodup_map table.distinct hboth.1 hmem ((by simpa using hsame : other.1 = source).trans hkey.symm)
        exact hlive (heq ▸ hboth.2)
      constructor
      · rw [Table.samples,Table.prune,hpruned]
        rfl
      · intro time htime
        by_contra hyoung
        rw [hsamples] at hsorted htime
        exact hlive (live_of_young hsorted htime (not_le.mp hyoung))

structure Verdict (κ : Type) where
  source : κ
  time : ℚ
  allowed : Bool

structure Gate (κ : Type) where
  table : Table κ
  log : List (Verdict κ)

def Gate.start (κ : Type) : Gate κ := ⟨Table.empty κ,[]⟩

def Gate.call (gate : Gate κ) (call : κ × ℚ) : Gate κ :=
  let (allowed,table) := allowNewFlowRate gate.table call.1 call.2
  ⟨table,gate.log++[⟨call.1,call.2,allowed⟩]⟩

def Gate.run (gate : Gate κ) (calls : List (κ × ℚ)) : Gate κ := calls.foldl Gate.call gate

/-- The times at which a source was let in. -/
def admitted (log : List (Verdict κ)) (source : κ) : List ℚ :=
  (log.filter fun verdict => verdict.allowed && decide (verdict.source = source)).map Verdict.time

theorem admitted_snoc (log : List (Verdict κ)) (verdict : Verdict κ) (source : κ) :
    admitted (log++[verdict]) source =
      admitted log source++if verdict.allowed = true ∧ verdict.source = source then [verdict.time] else [] := by
  rw [admitted,List.filter_append,List.map_append]
  congr 1
  by_cases hcounts : verdict.allowed = true ∧ verdict.source = source
  · simp [hcounts]
  · rw [if_neg hcounts,List.filter_cons_of_neg (by simpa using hcounts)]
    rfl

/-- What the table knows at a time: nothing that counts was dropped. -/
structure Kept (table : Table κ) (log : List (Verdict κ)) (now : ℚ) : Prop where
  sorted : ∀ source, (admitted log source).Pairwise (· ≤ ·)
  past : ∀ source, ∀ time ∈ admitted log source, time ≤ now
  split : ∀ source, ∃ dropped, admitted log source = dropped++table.samples source ∧ ∀ time ∈ dropped, 10 ≤ now-time

structure RateLimited (log : List (Verdict κ)) : Prop where
  bounded : ∀ source first last, last-first < 10 → (within first last (admitted log source)).length ≤ 64
  justified : ∀ before verdict after, log = before++verdict::after → verdict.allowed = false →
    64 ≤ ((admitted before verdict.source).filter fun time => decide (verdict.time-time < 10)).length

variable {table : Table κ} {log : List (Verdict κ)} {now : ℚ} {source : κ}

theorem Kept.mono {later : ℚ} (h : Kept table log now) (hnow : now ≤ later) : Kept table log later where
  sorted := h.sorted
  past := fun source time htime => (h.past source time htime).trans hnow
  split := by
    intro source
    obtain ⟨dropped,hsplit,hold⟩ := h.split source
    refine ⟨dropped,hsplit,fun time htime => ?_⟩
    have := hold time htime
    linarith

theorem Kept.samples_sorted (h : Kept table log now) (source : κ) : (table.samples source).Pairwise (· ≤ ·) := by
  obtain ⟨dropped,hsplit,-⟩ := h.split source
  have hsorted := h.sorted source
  rw [hsplit,List.pairwise_append] at hsorted
  exact hsorted.2.1

/-- The deque without its old samples still holds all that counts. -/
theorem Kept.recent (h : Kept table log now) (source : κ) :
    ∃ dropped, admitted log source = dropped++recent now (table.samples source) ∧ ∀ time ∈ dropped, 10 ≤ now-time := by
  obtain ⟨dropped,hsplit,hold⟩ := h.split source
  refine ⟨dropped++spent now (table.samples source),?_,fun time htime => ?_⟩
  · rw [List.append_assoc,spent_append_recent,hsplit]
  · obtain hdropped | hspent := List.mem_append.mp htime
    · exact hold time hdropped
    · exact spent_old hspent

theorem Kept.prune (h : Kept table log now) : Kept (table.prune now) log now where
  sorted := h.sorted
  past := h.past
  split := by
    intro source
    obtain ⟨dropped,hsplit,hold⟩ := h.split source
    obtain hsame | ⟨hnil,hspent⟩ := table.samples_prune now source (h.samples_sorted source)
    · exact ⟨dropped,by rw [hsame,hsplit],hold⟩
    · refine ⟨dropped++table.samples source,by rw [hnil,List.append_nil,hsplit],fun time htime => ?_⟩
      obtain hdropped | hkept := List.mem_append.mp htime
      · exact hold time hdropped
      · exact hspent time hkept

theorem Kept.refuse (h : Kept table log now) (source : κ) :
    Kept (table.put source (FlowRate.recent now (table.samples source))) (log++[⟨source,now,false⟩]) now := by
  have hsame : ∀ other, admitted (log++[⟨source,now,false⟩]) other = admitted log other := by
    intro other
    simp [admitted_snoc]
  constructor
  · intro other
    rw [hsame]
    exact h.sorted other
  · intro other
    rw [hsame]
    exact h.past other
  · intro other
    rw [hsame,Table.samples_put]
    by_cases hother : other = source
    · rw [if_pos hother,hother]
      exact h.recent source
    · rw [if_neg hother]
      exact h.split other

theorem Kept.admission (h : Kept table log now) (source : κ) :
    Kept (table.put source (FlowRate.recent now (table.samples source)++[now])) (log++[⟨source,now,true⟩]) now := by
  have hsnoc : ∀ other, admitted (log++[⟨source,now,true⟩]) other =
      admitted log other++if source = other then [now] else [] := by
    intro other
    simp [admitted_snoc]
  constructor
  · intro other
    rw [hsnoc,List.pairwise_append]
    refine ⟨h.sorted other,by split <;> simp,fun time htime this hthis => ?_⟩
    have hnow : this = now := by
      split at hthis
      · simpa using hthis
      · cases hthis
    rw [hnow]
    exact h.past other time htime
  · intro other time htime
    rw [hsnoc,List.mem_append] at htime
    obtain hbefore | hthis := htime
    · exact h.past other time hbefore
    · split at hthis
      · exact (List.mem_singleton.mp hthis).le
      · cases hthis
  · intro other
    rw [hsnoc,Table.samples_put]
    by_cases hother : other = source
    · obtain ⟨dropped,hsplit,hold⟩ := h.recent source
      refine ⟨dropped,?_,hold⟩
      rw [if_pos hother,if_pos hother.symm,hother,hsplit,List.append_assoc]
    · rw [if_neg hother,if_neg (Ne.symm hother),List.append_nil]
      exact h.split other

/-- A short window that reaches the present has only samples of the deque. -/
theorem Kept.length_within (h : Kept table log now) {first last : ℚ} (hshort : last-first < 10) (hnow : now ≤ last) :
    (within first last (admitted log source)).length ≤ (FlowRate.recent now (table.samples source)).length := by
  obtain ⟨dropped,hsplit,hold⟩ := h.recent source
  have hnone : within first last dropped = [] := by
    refine within_eq_nil fun time htime => .inl ?_
    have := hold time htime
    linarith
  rw [hsplit,within_append,hnone,List.nil_append]
  exact length_within_le ..

omit [DecidableEq κ] in
/-- A verdict of a longer log is an earlier one, or the last. -/
theorem snoc_split {verdict last : Verdict κ} {before after : List (Verdict κ)}
    (h : log++[last] = before++verdict::after) :
    (∃ between, log = before++verdict::between) ∨ before = log ∧ verdict = last := by
  induction after using List.reverseRecOn with
  | nil =>
    obtain ⟨hbefore,hlast⟩ := List.append_inj' h rfl
    exact .inr ⟨hbefore.symm,(List.cons.inj hlast).1.symm⟩
  | append_singleton between _ _ =>
    left
    rw [← List.cons_append,← List.append_assoc] at h
    exact ⟨between,(List.append_inj' h rfl).1⟩

theorem RateLimited.refuse (h : RateLimited log) (hkept : Kept table log now)
    (hfull : 64 ≤ (recent now (table.samples source)).length) : RateLimited (log++[⟨source,now,false⟩]) := by
  constructor
  · intro other first last hshort
    have hsame : admitted (log++[⟨source,now,false⟩]) other = admitted log other := by simp [admitted_snoc]
    rw [hsame]
    exact h.bounded other first last hshort
  · intro before verdict after hlog hrefused
    obtain ⟨between,hsplit⟩ | ⟨rfl,rfl⟩ := snoc_split hlog
    · exact h.justified before verdict between hsplit hrefused
    · obtain ⟨dropped,hsplit,-⟩ := hkept.recent source
      have hyoung : (recent now (table.samples source)).filter (fun time => decide (now-time < 10)) =
          recent now (table.samples source) := by
        rw [List.filter_eq_self]
        intro time htime
        simpa using recent_young (hkept.samples_sorted source) time htime
      rw [hsplit,List.filter_append,List.length_append,hyoung]
      exact hfull.trans (Nat.le_add_left ..)

theorem RateLimited.admission (h : RateLimited log) (hkept : Kept table log now)
    (hroom : (recent now (table.samples source)).length < 64) : RateLimited (log++[⟨source,now,true⟩]) := by
  constructor
  · intro other first last hshort
    have hsnoc : admitted (log++[⟨source,now,true⟩]) other =
        admitted log other++if source = other then [now] else [] := by simp [admitted_snoc]
    rw [hsnoc,within_append,List.length_append]
    by_cases hother : source = other
    · rw [if_pos hother]
      by_cases hnow : now ≤ last
      · have hbefore := (hkept.length_within hshort hnow : (within first last (admitted log other)).length ≤ _)
        have hthis := length_within_le first last [now]
        rw [hother] at hroom
        rw [List.length_singleton] at hthis
        omega
      · have hnone : within first last [now] = [] := by
          refine within_eq_nil fun time htime => .inr ?_
          rw [List.mem_singleton.mp htime]
          exact not_le.mp hnow
        rw [hnone,List.length_nil,Nat.add_zero]
        exact h.bounded other first last hshort
    · rw [if_neg hother]
      exact h.bounded other first last hshort
  · intro before verdict after hlog hrefused
    obtain ⟨between,hsplit⟩ | ⟨rfl,rfl⟩ := snoc_split hlog
    · exact h.justified before verdict between hsplit hrefused
    · cases hrefused

structure Good (gate : Gate κ) (now : ℚ) : Prop where
  kept : Kept gate.table gate.log now
  limited : RateLimited gate.log

theorem start_good (now : ℚ) : Good (Gate.start κ) now where
  kept := ⟨fun _ => .nil,fun _ _ h => (nomatch h),fun _ => ⟨[],rfl,fun _ h => (nomatch h)⟩⟩
  limited := by
    constructor
    · intro source first last _
      simp [Gate.start,admitted,within]
    · intro before verdict after hlog
      simp [Gate.start] at hlog

theorem call_good {gate : Gate κ} {call : κ × ℚ} (h : Good gate now) (hnow : now ≤ call.2) :
    Good (gate.call call) call.2 := by
  have hkept := h.kept.mono hnow
  rw [Gate.call,allowNewFlowRate]
  by_cases hfull : 64 ≤ (recent call.2 (gate.table.samples call.1)).length
  · rw [if_pos hfull]
    exact ⟨hkept.refuse call.1,h.limited.refuse hkept hfull⟩
  · rw [if_neg hfull]
    refine ⟨?_,h.limited.admission hkept (not_le.mp hfull)⟩
    show Kept (if _ then _ else _) _ _
    split
    · exact (hkept.admission call.1).prune
    · exact hkept.admission call.1

theorem run_good (calls : List (κ × ℚ)) {gate : Gate κ} (h : Good gate now)
    (htimes : (now::calls.map Prod.snd).Pairwise (· ≤ ·)) : ∃ last, Good (gate.run calls) last := by
  induction calls generalizing gate now with
  | nil => exact ⟨now,h⟩
  | cons call rest ih =>
    rw [List.map_cons,List.pairwise_cons] at htimes
    have hnow : now ≤ call.2 := htimes.1 call.2 (by simp)
    exact ih (call_good h hnow) htimes.2

/-- In every run under a clock that does not go back, a source has at most 64 admissions in less than ten
seconds, and is refused only after as many. -/
theorem run_rateLimited (calls : List (κ × ℚ)) (htimes : (calls.map Prod.snd).Pairwise (· ≤ ·)) :
    RateLimited ((Gate.start κ).run calls).log := by
  cases calls with
  | nil => exact (start_good 0).limited
  | cons call rest =>
    have hfirst : (call.2::(call::rest).map Prod.snd).Pairwise (· ≤ ·) := by
      rw [List.map_cons,List.pairwise_cons]
      refine ⟨fun time htime => ?_,htimes⟩
      rw [List.map_cons,List.pairwise_cons] at htimes
      obtain rfl | hrest := List.mem_cons.mp htime
      · exact le_rfl
      · exact htimes.1 time hrest
    obtain ⟨last,hgood⟩ := run_good (call::rest) (start_good call.2) hfirst
    exact hgood.limited

theorem run_rateLimited_two : RateLimited ((Gate.start Bool).run [(true,0),(false,1/2),(true,20)]).log :=
  run_rateLimited [(true,0),(false,1/2),(true,20)] (by norm_num)

end FlowRate
end FakeNetNG
