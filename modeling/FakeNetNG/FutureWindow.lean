import Mathlib.Logic.Relation
import Mathlib.Tactic

/-!
# Windows of futures

One thread submits its tasks in order to a pool of workers, has at most one unconsumed future for each worker,
and consumes the results in order; the workers finish in any order. What is left to do, done serially, gives in
every state the result of the serial loop. No run goes on forever, and none stops before its result.
-/

namespace FakeNetNG
namespace FutureWindow

variable {α σ κ β ρ ε : Type}

/-- What the main thread makes of an item, what a worker computes, and the row of a result. -/
structure Plan (α σ κ β ρ ε : Type) where
  context : α → σ → κ × σ
  work : κ → Except ε β
  row : κ → β → ρ

def Plan.serial (plan : Plan α σ κ β ρ ε) : List α → σ → Except ε (List ρ)
  | [], _ => .ok []
  | a::rest, s =>
    let (context,s) := plan.context a s
    match plan.work context with
    | .error e => .error e
    | .ok b => (plan.serial rest s).map (plan.row context b::·)

/-- A submitted task, with its number. -/
abbrev Future (κ : Type) := ℕ × κ

inductive Phase (κ ρ ε : Type)
  | filling
  | awaiting (future : Future κ)
  | closing (result : Except ε (List ρ))
  | joining (result : Except ε (List ρ))
  | finished (result : Except ε (List ρ))

structure State (α σ κ ρ ε : Type) where
  rest : List α
  contexts : σ
  index : ℕ
  window : List (Future κ)
  queue : List (Future κ)
  running : List (Future κ)
  done : List (Future κ)
  rows : List ρ
  phase : Phase κ ρ ε

def State.start (items : List α) (contexts : σ) : State α σ κ ρ ε := ⟨items,contexts,0,[],[],[],[],[],.filling⟩

/-- The future whose result the main thread waits for. -/
def Phase.awaited : Phase κ ρ ε → List (Future κ)
  | .awaiting future => [future]
  | _ => []

def Phase.working : Phase κ ρ ε → Bool
  | .filling | .awaiting _ => true
  | _ => false

def State.unconsumed (s : State α σ κ ρ ε) : List (Future κ) := s.phase.awaited++s.window

/-- The steps of the main thread and of the workers. -/
inductive Step (plan : Plan α σ κ β ρ ε) (limit : ℕ) : State α σ κ ρ ε → State α σ κ ρ ε → Prop
  | submit (s a rest) : s.phase = .filling → s.window.length < limit → s.rest = a::rest →
      Step plan limit s { s with
        rest := rest
        contexts := (plan.context a s.contexts).2
        index := s.index+1
        window := s.window++[(s.index,(plan.context a s.contexts).1)]
        queue := s.queue++[(s.index,(plan.context a s.contexts).1)] }
  | take (s future window) : s.phase = .filling → limit ≤ s.window.length ∨ s.rest = [] → s.window = future::window →
      Step plan limit s { s with window := window, phase := .awaiting future }
  | stop (s) : s.phase = .filling → limit ≤ s.window.length ∨ s.rest = [] → s.window = [] →
      Step plan limit s { s with phase := .closing (.ok s.rows) }
  | result (s future b) : s.phase = .awaiting future → future ∈ s.done → plan.work future.2 = .ok b →
      Step plan limit s { s with rows := s.rows++[plan.row future.2 b], phase := .filling }
  | fail (s future e) : s.phase = .awaiting future → future ∈ s.done → plan.work future.2 = .error e →
      Step plan limit s { s with phase := .closing (.error e) }
  | cancel (s r) : s.phase = .closing r → Step plan limit s { s with queue := [], phase := .joining r }
  | join (s r) : s.phase = .joining r → s.running = [] → Step plan limit s { s with phase := .finished r }
  | start (s future queue) : s.queue = future::queue → s.running.length < limit →
      Step plan limit s { s with queue := queue, running := s.running++[future] }
  | finish (s before future after) : s.running = before++future::after →
      Step plan limit s { s with running := before++after, done := s.done++[future] }

variable {plan : Plan α σ κ β ρ ε} {limit : ℕ} {s s' : State α σ κ ρ ε} {whole : Except ε (List ρ)}

/-- The results of futures in order, and then the others. -/
@[grind] def Plan.drain (plan : Plan α σ κ β ρ ε) : List (Future κ) → Except ε (List ρ) → Except ε (List ρ)
  | [], tail => tail
  | future::rest, tail =>
    match plan.work future.2 with
    | .error e => .error e
    | .ok b => (plan.drain rest tail).map (plan.row future.2 b::·)

theorem drain_snoc (futures : List (Future κ)) (a : α) (rest : List α) (contexts : σ) (index : ℕ) :
    plan.drain (futures++[(index,(plan.context a contexts).1)]) (plan.serial rest (plan.context a contexts).2) =
      plan.drain futures (plan.serial (a::rest) contexts) := by
  induction futures with
  | nil => rfl
  | cons future futures ih =>
    rw [List.cons_append,Plan.drain,Plan.drain,ih]

/-- The whole result from what is done and what is left. -/
@[grind] def Plan.rest (plan : Plan α σ κ β ρ ε) (s : State α σ κ ρ ε) : Except ε (List ρ) :=
  match s.phase with
  | .filling | .awaiting _ => (plan.drain s.unconsumed (plan.serial s.rest s.contexts)).map (s.rows++·)
  | .closing r | .joining r | .finished r => r

structure Inv (plan : Plan α σ κ β ρ ε) (limit : ℕ) (whole : Except ε (List ρ)) (s : State α σ κ ρ ε) : Prop where
  result : plan.rest s = whole
  bounded : s.unconsumed.length ≤ limit
  crew : s.running.length ≤ limit
  placed : s.phase.working = true →
    ∀ future ∈ s.unconsumed, future ∈ s.queue ∨ future ∈ s.running ∨ future ∈ s.done
  cancelled : ∀ r, s.phase = .joining r ∨ s.phase = .finished r → s.queue = []

theorem start_inv (items : List α) (contexts : σ) :
    Inv plan limit (plan.serial items contexts) (.start items contexts) where
  result := by
    show (plan.serial items contexts).map ([]++·) = _
    cases plan.serial items contexts <;> rfl
  bounded := Nat.zero_le _
  crew := Nat.zero_le _
  placed := fun _ _ hfuture => (nomatch hfuture)
  cancelled := by
    rintro r (h | h) <;> cases h

theorem map_append_cons (rows : List ρ) (row : ρ) (r : Except ε (List ρ)) :
    (r.map (row::·)).map (rows++·) = r.map (rows++[row]++·) := by
  cases r with
  | error e => rfl
  | ok tail => simp [Except.map]

theorem Inv.workers (h : Inv plan limit whole s) {queue running done : List (Future κ)} (hcrew : running.length ≤ limit)
    (hplaced : ∀ future, future ∈ s.queue ∨ future ∈ s.running ∨ future ∈ s.done →
      future ∈ queue ∨ future ∈ running ∨ future ∈ done)
    (hcancelled : s.queue = [] → queue = []) :
    Inv plan limit whole { s with queue := queue, running := running, done := done } where
  result := h.result
  bounded := h.bounded
  crew := hcrew
  placed := fun hworking future hfuture => hplaced future (h.placed hworking future hfuture)
  cancelled := fun r hr => hcancelled (h.cancelled r hr)

theorem submit_inv (h : Inv plan limit whole s) (hphase : s.phase = .filling) (hroom : s.window.length < limit) {a : α}
    {rest : List α} (hrest : s.rest = a::rest) : Inv plan limit whole { s with
      rest := rest
      contexts := (plan.context a s.contexts).2
      index := s.index+1
      window := s.window++[(s.index,(plan.context a s.contexts).1)]
      queue := s.queue++[(s.index,(plan.context a s.contexts).1)] } := by
  obtain ⟨hresult,-,hcrew,hplaced,-⟩ := h
  simp only [Plan.rest,State.unconsumed,hphase,Phase.awaited,List.nil_append] at hresult hplaced
  constructor
  · simp only [Plan.rest,State.unconsumed,hphase,Phase.awaited,List.nil_append]
    rw [drain_snoc,← hrest,hresult]
  · simpa [State.unconsumed,hphase,Phase.awaited] using hroom
  · exact hcrew
  · intro hworking future hfuture
    simp only [State.unconsumed,hphase,Phase.awaited,List.nil_append,List.mem_append] at hfuture
    obtain hbefore | hthis := hfuture
    · exact (hplaced rfl future hbefore).imp_left (List.mem_append_left _)
    · exact .inl (List.mem_append_right _ hthis)
  · rintro r (hr | hr) <;> rw [hphase] at hr <;> cases hr

theorem take_inv (h : Inv plan limit whole s) (hphase : s.phase = .filling) {future : Future κ} {window : List (Future κ)}
    (hwindow : s.window = future::window) : Inv plan limit whole { s with window := window, phase := .awaiting future } := by
  have hsame : { s with window := window, phase := (Phase.awaiting future : Phase κ ρ ε) }.unconsumed = s.unconsumed := by
    simp [State.unconsumed,hphase,Phase.awaited,hwindow]
  obtain ⟨hresult,hbounded,hcrew,hplaced,-⟩ := h
  simp only [Plan.rest,hphase] at hresult hplaced
  constructor
  · simp only [Plan.rest,hsame]
    exact hresult
  · rw [hsame]
    exact hbounded
  · exact hcrew
  · rw [hsame]
    exact fun _ => hplaced rfl
  · rintro r (hr | hr) <;> cases hr

theorem stop_inv (hlimit : 0 < limit) (h : Inv plan limit whole s) (hphase : s.phase = .filling)
    (hfilled : limit ≤ s.window.length ∨ s.rest = []) (hwindow : s.window = []) :
    Inv plan limit whole { s with phase := .closing (.ok s.rows) } := by
  have hrest : s.rest = [] := hfilled.resolve_left (by rw [hwindow]; exact not_le.mpr hlimit)
  obtain ⟨hresult,hbounded,hcrew,-,-⟩ := h
  simp only [Plan.rest,State.unconsumed,hphase,Phase.awaited,List.nil_append,hwindow,hrest,Plan.drain,Plan.serial] at hresult
  constructor
  · simpa [Plan.rest,Except.map] using hresult
  · simp [State.unconsumed,Phase.awaited,hwindow]
  · exact hcrew
  · intro hworking
    cases hworking
  · rintro r (hr | hr) <;> cases hr

theorem result_inv (h : Inv plan limit whole s) {future : Future κ} (hphase : s.phase = .awaiting future) {b : β}
    (hwork : plan.work future.2 = .ok b) :
    Inv plan limit whole { s with rows := s.rows++[plan.row future.2 b], phase := .filling } := by
  obtain ⟨hresult,hbounded,hcrew,hplaced,-⟩ := h
  simp only [Plan.rest,State.unconsumed,hphase,Phase.awaited,List.singleton_append,Plan.drain,hwork,
    map_append_cons] at hresult hbounded hplaced
  constructor
  · exact hresult
  · exact (Nat.le_succ _).trans hbounded
  · exact hcrew
  · exact fun _ other hother => hplaced rfl other (List.mem_cons_of_mem _ hother)
  · rintro r (hr | hr) <;> cases hr

theorem fail_inv (h : Inv plan limit whole s) {future : Future κ} (hphase : s.phase = .awaiting future) {e : ε}
    (hwork : plan.work future.2 = .error e) : Inv plan limit whole { s with phase := .closing (.error e) } := by
  obtain ⟨hresult,hbounded,hcrew,-,-⟩ := h
  simp only [Plan.rest,State.unconsumed,hphase,Phase.awaited,List.singleton_append,Plan.drain,hwork] at hresult hbounded
  constructor
  · exact hresult
  · exact (Nat.le_succ _).trans hbounded
  · exact hcrew
  · intro hworking
    cases hworking
  · rintro r (hr | hr) <;> cases hr

theorem step_inv (hlimit : 0 < limit) (h : Inv plan limit whole s) (hstep : Step plan limit s s') :
    Inv plan limit whole s' := by
  cases hstep with
  | submit a rest hphase hroom hrest => exact submit_inv h hphase hroom hrest
  | take future window hphase _ hwindow => exact take_inv h hphase hwindow
  | stop hphase hfilled hwindow => exact stop_inv hlimit h hphase hfilled hwindow
  | result future b hphase _ hwork => exact result_inv h hphase hwork
  | fail future e hphase _ hwork => exact fail_inv h hphase hwork
  | cancel r hphase =>
    have hresult := h.result
    have hbounded := h.bounded
    simp only [Plan.rest,State.unconsumed,hphase,Phase.awaited] at hresult hbounded
    exact ⟨hresult,hbounded,h.crew,fun hworking => (nomatch hworking),fun _ _ => rfl⟩
  | join r hphase _ =>
    have hresult := h.result
    have hbounded := h.bounded
    simp only [Plan.rest,State.unconsumed,hphase,Phase.awaited] at hresult hbounded
    exact ⟨hresult,hbounded,h.crew,fun hworking => (nomatch hworking),fun _ _ => h.cancelled r (.inl hphase)⟩
  | start future queue hqueue hfree =>
    refine h.workers (by simpa using hfree) (fun other hother => ?_) (fun hnil => by rw [hqueue] at hnil; cases hnil)
    rw [hqueue,List.mem_cons] at hother
    rw [List.mem_append,List.mem_singleton]
    tauto
  | finish before future after hrunning =>
    have hcrew := h.crew
    rw [hrunning] at hcrew
    refine h.workers ?_ (fun other hother => ?_) id
    · simp only [List.length_append,List.length_cons] at hcrew ⊢
      omega
    · rw [hrunning] at hother
      simp only [List.mem_append,List.mem_cons,List.not_mem_nil,or_false] at hother ⊢
      tauto

/-- The steps that are left to the main thread when nothing is submitted any more. -/
def Phase.left : Phase κ ρ ε → ℕ
  | .filling => 3
  | .awaiting _ => 4
  | .closing _ => 2
  | .joining _ => 1
  | .finished _ => 0

@[grind] def State.left (s : State α σ κ ρ ε) : ℕ :=
  5*s.rest.length+2*s.window.length+2*s.queue.length+s.running.length+s.phase.left

theorem step_left (h : Step plan limit s s') : s'.left < s.left := by
  cases h with
  | submit a rest hphase _ hrest =>
    simp only [State.left,hrest,List.length_append,List.length_cons,List.length_nil]
    omega
  | take future window hphase _ hwindow =>
    simp only [State.left,hphase,hwindow,List.length_cons,Phase.left]
    omega
  | stop hphase =>
    simp only [State.left,hphase,Phase.left]
    omega
  | result future b hphase =>
    simp only [State.left,hphase,Phase.left]
    omega
  | fail future e hphase =>
    simp only [State.left,hphase,Phase.left]
    omega
  | cancel r hphase =>
    simp only [State.left,hphase,Phase.left,List.length_nil]
    omega
  | join r hphase =>
    simp only [State.left,hphase,Phase.left]
    omega
  | start future queue hqueue =>
    simp only [State.left,hqueue,List.length_append,List.length_cons,List.length_nil]
    omega
  | finish before future after hrunning =>
    simp only [State.left,hrunning,List.length_append,List.length_cons]
    omega

theorem Inv.progress (hlimit : 0 < limit) (h : Inv plan limit whole s) :
    s.phase = .finished whole ∨ ∃ s', Step plan limit s s' := by
  have hrunning : s.running = [] ∨ ∃ s', Step plan limit s s' := by
    cases hr : s.running with
    | nil => exact .inl rfl
    | cons future after => exact .inr ⟨_,.finish s [] future after hr⟩
  cases hphase : s.phase with
  | filling =>
    right
    by_cases hfilled : limit ≤ s.window.length ∨ s.rest = []
    · cases hwindow : s.window with
      | nil => exact ⟨_,.stop s hphase hfilled hwindow⟩
      | cons future window => exact ⟨_,.take s future window hphase hfilled hwindow⟩
    · rw [not_or,not_le] at hfilled
      obtain ⟨a,rest,hrest⟩ := List.exists_cons_of_ne_nil hfilled.2
      exact ⟨_,.submit s a rest hphase hfilled.1 hrest⟩
  | awaiting future =>
    right
    obtain hidle | hgo := hrunning
    · have hplaced := h.placed (by rw [hphase]; rfl) future (by simp [State.unconsumed,hphase,Phase.awaited])
      obtain hqueue | hrun | hdone := hplaced
      · obtain ⟨first,queue,hfirst⟩ := List.exists_cons_of_ne_nil (List.ne_nil_of_mem hqueue)
        exact ⟨_,.start s first queue hfirst (by simpa [hidle] using hlimit)⟩
      · rw [hidle] at hrun
        cases hrun
      · cases hwork : plan.work future.2 with
        | error e => exact ⟨_,.fail s future e hphase hdone hwork⟩
        | ok b => exact ⟨_,.result s future b hphase hdone hwork⟩
    · exact hgo
  | closing r => exact .inr ⟨_,.cancel s r hphase⟩
  | joining r =>
    right
    obtain hidle | hgo := hrunning
    · exact ⟨_,.join s r hphase hidle⟩
    · exact hgo
  | finished r =>
    left
    have hresult := h.result
    simp only [Plan.rest,hphase] at hresult
    rw [hresult]

abbrev Steps (plan : Plan α σ κ β ρ ε) (limit : ℕ) := Relation.ReflTransGen (Step plan limit)

theorem steps_inv (hlimit : 0 < limit) (h : Inv plan limit whole s) (hsteps : Steps plan limit s s') :
    Inv plan limit whole s' := by
  induction hsteps with
  | refl => exact h
  | tail _ hstep ih => exact step_inv hlimit ih hstep

/-- From every state the run can be brought to its end, and has to come to it. -/
theorem Inv.finishes (hlimit : 0 < limit) (h : Inv plan limit whole s) :
    ∃ s', Steps plan limit s s' ∧ s'.phase = .finished whole := by
  induction hleft : s.left using Nat.strong_induction_on generalizing s with
  | _ n ih =>
    obtain hfinished | ⟨next,hnext⟩ := h.progress hlimit
    · exact ⟨s,.refl,hfinished⟩
    · obtain ⟨s',hsteps,hend⟩ := ih next.left (hleft ▸ step_left hnext) (step_inv hlimit h hnext) rfl
      exact ⟨s',.head hnext hsteps,hend⟩

end FutureWindow
end FakeNetNG
