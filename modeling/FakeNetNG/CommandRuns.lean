import FakeNetNG.CommandCache

/-!
# Commands are executed at most once

A command that ends last in the cache is protected until as many others have ended as the
cache holds. One that others overtook is not.
-/

namespace FakeNetNG
namespace Coordination

namespace Event

/-- The command whose execution an event ends. -/
def ended : Event → Option String
  | .submit _ => none
  | .failed op _ => some op.commandId
  | .completed op _ => some op.commandId
  | .call _ => none

end Event

/-- The other commands whose executions end in the course of the events. -/
def othersEnded (commandId : String) (events : List Event) : Finset String :=
  ((events.filterMap Event.ended).filter (· ≠ commandId)).toFinset

theorem mem_othersEnded {commandId key : String} {events : List Event} :
    key ∈ othersEnded commandId events ↔ (∃ event ∈ events, event.ended = some key) ∧
      key ≠ commandId := by
  simp [othersEnded]

namespace World

variable {w w' : World} {commandId : String} {finished : Finset String}

theorem held_or_limit_mono {s : Coordinator} {others : Finset String} (hsubset : finished ⊆ others)
    (h : commandCacheLimit ≤ finished.card ∨ s.Held commandId finished) :
    commandCacheLimit ≤ others.card ∨ s.Held commandId others :=
  h.imp (fun h => le_trans h (Finset.card_le_card hsubset)) (fun h => h.mono hsubset)

theorem held_step (hw : w.Invariant) {event : Event} (h : w.step event = some w')
    (hheld : w.coordinator.Held commandId finished)
    (hended : ∀ key, event.ended = some key → key ≠ commandId → key ∈ finished) :
    commandCacheLimit ≤ finished.card ∨ w'.coordinator.Held commandId finished := by
  have hne : ∀ op ∈ w.inflight, op.commandId ≠ commandId := by
    intro op hop he
    have hactive := hw.contains_of_mem hop
    rw [Dict.contains,he,hheld.inactive] at hactive
    cases hactive
  rcases step_cases h with ⟨q,rfl,haccepted,rfl⟩ | ⟨q,-,-,rfl⟩ | ⟨op,exception,rfl,hop,rfl⟩ |
    ⟨op,result,rfl,hop,rfl⟩ | ⟨method,-,rfl⟩
  · exact Or.inr (hheld.accept haccepted)
  · exact Or.inr hheld
  · exact hheld.fail _ _ (Or.inr (hended _ rfl (hne op hop)))
  · exact hheld.complete _ _ (Or.inr (hended _ rfl (hne op hop)))
  · exact Or.inr (hheld.congr (Coordinator.call_commands _ _) (Coordinator.call_activeOperations _ _))

theorem held_run (events : List Event) (hw : w.Invariant) (h : w.run events = some w')
    (hheld : commandCacheLimit ≤ finished.card ∨ w.coordinator.Held commandId finished) :
    commandCacheLimit ≤ (finished ∪ othersEnded commandId events).card ∨
      w'.coordinator.Held commandId (finished ∪ othersEnded commandId events) := by
  induction events generalizing w finished with
  | nil =>
    rw [← Option.some.inj h]
    exact held_or_limit_mono Finset.subset_union_left hheld
  | cons event rest ih =>
    obtain ⟨w₁,h₁,hrest⟩ := Option.bind_eq_some_iff.mp h
    have hstep : commandCacheLimit ≤ (finished ∪ othersEnded commandId [event]).card ∨
        w₁.coordinator.Held commandId (finished ∪ othersEnded commandId [event]) := by
      rcases held_or_limit_mono Finset.subset_union_left hheld with hlimit | hheld
      · exact Or.inl hlimit
      · refine held_step hw h₁ hheld fun key hkey hne => Finset.mem_union_right _ ?_
        exact mem_othersEnded.mpr ⟨⟨event,List.mem_singleton_self _,hkey⟩,hne⟩
    refine held_or_limit_mono ?_ (ih (hw.step h₁) hrest hstep)
    intro key hkey
    simp only [Finset.mem_union,mem_othersEnded] at hkey ⊢
    rcases hkey with (hkey | ⟨⟨e,hmem,he⟩,hne⟩) | ⟨⟨e,hmem,he⟩,hne⟩
    · exact Or.inl hkey
    · rw [List.mem_singleton.mp hmem] at he
      exact Or.inr ⟨⟨event,List.mem_cons_self,he⟩,hne⟩
    · exact Or.inr ⟨⟨e,List.mem_cons_of_mem _ hmem,he⟩,hne⟩

/-- Every cached record carries the controller of the last accepted submission of its command,
and the operations that execute are the last accepted ones, with the records made then. -/
structure Recorded (w : World) : Prop where
  controller : ∀ key record, w.coordinator.commands.get? key = some record →
    ∃ op, w.accepted.find? (fun op => op.commandId = key) = some op ∧
      record.controller = op.request.controller
  latest : ∀ op ∈ w.inflight, w.accepted.find? (fun other => other.commandId = op.commandId) = some op
  original : ∀ op ∈ w.inflight, ∃ s : Coordinator, op.record = s.progressRecord op.request

theorem recorded_start : start.Recorded where
  controller key record h := by
    rw [start,Coordinator.start,Dict.get?_empty] at h
    cases h
  latest op hop := by cases hop
  original op hop := by cases hop

theorem Recorded.accept (hw : w.Recorded) (hinv : w.Invariant) {q : Request}
    (h : (w.coordinator.submit q).1 = .accepted) : (w.accept q).Recorded where
  controller key record hrecord := by
    simp only [World.accept,Coordinator.accept] at hrecord ⊢
    rcases (Dict.get?_set_eq_some _ _ _ _ _).mp hrecord with ⟨rfl,rfl⟩ | ⟨hne,hkey⟩
    · exact ⟨⟨q,w.coordinator.progressRecord q⟩,by simp [Operation.commandId],rfl⟩
    · obtain ⟨op,hop,hcontroller⟩ := hw.controller key record hkey
      refine ⟨op,?_,hcontroller⟩
      simpa [Operation.commandId,Ne.symm hne] using hop
  latest op hop := by
    simp only [World.accept,List.mem_append,List.mem_singleton] at hop ⊢
    rcases hop with hop | rfl
    · have hne := Ne.symm (hinv.ne_of_accepted h hop)
      rw [List.find?_cons_of_neg]
      · exact hw.latest op hop
      · simp only [decide_eq_true_eq]
        exact hne
    · simp
  original op hop := by
    simp only [World.accept,List.mem_append,List.mem_singleton] at hop
    rcases hop with hop | rfl
    · exact hw.original op hop
    · exact ⟨w.coordinator,rfl⟩

theorem Recorded.erase (hw : w.Recorded) {op : Operation} (hop : op ∈ w.inflight) {s : Coordinator}
    (hcommands : ∀ key record, s.commands.get? key = some record →
      w.coordinator.commands.get? key = some record ∨
        key = op.commandId ∧ record.controller = op.request.controller) :
    Recorded ⟨s,w.inflight.erase op,w.accepted⟩ where
  controller key record hrecord := by
    rcases hcommands key record hrecord with hkey | ⟨rfl,hcontroller⟩
    · exact hw.controller key record hkey
    · exact ⟨op,hw.latest op hop,hcontroller⟩
  latest other hother := hw.latest other (List.mem_of_mem_erase hother)
  original other hother := hw.original other (List.mem_of_mem_erase hother)

theorem Recorded.step (hw : w.Recorded) (hinv : w.Invariant) {event : Event}
    (h : w.step event = some w') : w'.Recorded := by
  rcases step_cases h with ⟨q,-,haccepted,rfl⟩ | ⟨q,-,-,rfl⟩ | ⟨op,exception,-,hop,rfl⟩ |
    ⟨op,result,-,hop,rfl⟩ | ⟨method,-,rfl⟩
  · exact hw.accept hinv haccepted
  · exact hw
  · refine hw.erase hop fun key record hrecord => ?_
    rcases Coordinator.get?_of_fail hrecord with hkey | ⟨rfl,old,hold,hcontroller⟩
    · exact Or.inl hkey
    · have hcached := hinv.cached op hop
      rw [Operation.commandId,hold,Option.some.injEq] at hcached
      obtain ⟨s,horiginal⟩ := hw.original op hop
      refine Or.inr ⟨rfl,hcontroller.trans ?_⟩
      rw [hcached,horiginal]
      rfl
  · exact hw.erase hop fun key record hrecord => Coordinator.get?_of_complete hrecord
  · refine ⟨fun key record hrecord => hw.controller key record ?_,hw.latest,hw.original⟩
    rwa [Coordinator.call_commands] at hrecord

theorem Reachable.recorded (h : w.Reachable) : w.Recorded := by
  obtain ⟨events,hrun⟩ := h
  have hboth : w.Invariant ∧ w.Recorded :=
    run_induction (P:=fun w => w.Invariant ∧ w.Recorded)
      (fun _ _ _ hw hstep => ⟨hw.1.step hstep,hw.2.step hw.1 hstep⟩) events
      ⟨invariant_start,recorded_start⟩ hrun
  exact hboth.2

/-- A command ends with no finished command behind it in the cache, or it succeeds behind so
many that its record is stored anew at the end. -/
def EndsLast (w : World) : Event → Prop
  | .failed op _ => w.coordinator.behind op.commandId = []
  | .completed op _ =>
      w.coordinator.behind op.commandId = [] ∨
        commandCacheLimit ≤ (w.coordinator.behind op.commandId).length
  | .submit _ => True
  | .call _ => True

theorem held_of_endsLast (hw : w.Invariant) {event : Event} (h : w.step event = some w')
    (hlast : w.EndsLast event) (hended : event.ended = some commandId) :
    w'.coordinator.Held commandId ∅ := by
  have hmem : ∀ op ∈ w.inflight, op.commandId ∈ w.coordinator.commands.keys := by
    intro op hop
    rw [← Dict.contains_iff_mem_keys,Dict.contains_iff]
    exact ⟨_,hw.cached op hop⟩
  rcases step_cases h with ⟨q,rfl,-,rfl⟩ | ⟨q,rfl,-,rfl⟩ | ⟨op,exception,rfl,hop,rfl⟩ |
    ⟨op,result,rfl,hop,rfl⟩ | ⟨method,rfl,rfl⟩
  · cases hended
  · cases hended
  · rw [← Option.some.inj hended]
    exact Coordinator.held_fail exception (hmem op hop) hlast
  · rw [← Option.some.inj hended]
    exact Coordinator.held_complete result (hmem op hop) hlast
  · cases hended

end World

/-- Of a reachable world: a command that ends last is not executed again before as many others
as the cache holds have ended; a command that executes is found with the record made at its
acceptance, which a resubmission gets if it gets anything; and a cached command is answered
to no other controller than that of its last accepted submission. -/
theorem commands_at_most_once (w : World) (h : w.Reachable) :
    (∀ event w₁ commandId, w.step event = some w₁ → event.ended = some commandId →
      w.EndsLast event → ∀ events w₂, w₁.run events = some w₂ →
        ∀ q : Request, q.commandId = commandId → (w₂.coordinator.submit q).1 = .accepted →
          commandCacheLimit ≤ (othersEnded commandId events).card) ∧
    (∀ op ∈ w.inflight, w.coordinator.commands.get? op.commandId = some op.record ∧
      op.record.response.inProgress = true ∧ op.record.exception = none ∧
      ∀ q : Request, q.commandId = op.commandId →
        (w.coordinator.submit q).1 ≠ .accepted ∧ (w.coordinator.submit q).2 = w.coordinator ∧
        (w.coordinator.gate q = none →
          (w.coordinator.submit q).1 = Coordinator.replay op.record q)) ∧
    ∀ (q : Request) (op : Operation), w.coordinator.commands.contains q.commandId = true →
      w.accepted.find? (fun op => op.commandId = q.commandId) = some op →
      q.controller ≠ op.request.controller →
        ∃ rejection, (w.coordinator.submit q).1 = .rejected rejection := by
  have hinv := h.invariant
  have hrecorded := h.recorded
  refine ⟨?_,?_,?_⟩
  · intro event w₁ commandId hstep hended hlast events w₂ hrun q hq haccepted
    have hheld := World.held_of_endsLast hinv hstep hlast hended
    rcases World.held_run events (hinv.step hstep) hrun (Or.inr hheld) with hlimit | hheld₂
    · rwa [Finset.empty_union] at hlimit
    · have hnone := (Coordinator.accepted_iff.mp haccepted).2.1
      rw [hq] at hnone
      exact absurd hheld₂.cached ((Dict.get?_eq_none_iff _ _).mp hnone)
  · intro op hop
    have hcached := hinv.cached op hop
    obtain ⟨s,horiginal⟩ := hrecorded.original op hop
    refine ⟨hcached,by rw [horiginal]; rfl,by rw [horiginal]; rfl,fun q hq => ?_⟩
    have hnot : (w.coordinator.submit q).1 ≠ .accepted := fun haccepted =>
      hinv.ne_of_accepted haccepted hop hq.symm
    refine ⟨hnot,Coordinator.submit_snd_of_not_accepted hnot,fun hgate => ?_⟩
    rw [← hq] at hcached
    rw [Coordinator.submit,hgate]
    simp only [hcached]
  · intro q op hcontains hop hne
    obtain ⟨record,hrecord⟩ := (Dict.contains_iff _ _).mp hcontains
    obtain ⟨other,hother,hcontroller⟩ := hrecorded.controller _ _ hrecord
    rw [hop,Option.some.injEq] at hother
    subst hother
    unfold Coordinator.submit
    cases hgate : w.coordinator.gate q with
    | some rejection => exact ⟨rejection,rfl⟩
    | none =>
      have hforeign : record.controller ≠ q.controller := fun he => hne (he.symm.trans hcontroller)
      exact ⟨.foreignCommand,by simp [hrecord,Coordinator.replay,hforeign]⟩

/-- An edit with the record of its acceptance, for the runs below. -/
def longOperation : Operation := ⟨edit "x" 1 "x",Coordinator.start.progressRecord (edit "x" 1 "x")⟩

/-- Two edits of different files execute. -/
def twoEdits : World := (World.start.accept (edit "x" 1 "x")).accept (edit "y" 2 "y")

def laterOperation : Operation :=
  ⟨edit "y" 2 "y",(World.start.accept (edit "x" 1 "x")).coordinator.progressRecord (edit "y" 2 "y")⟩

/-- The later one fails and is protected after that, the other one is not accepted again, and no other
controller gets an answer for either. -/
theorem commands_at_most_once_edit :
    twoEdits.EndsLast (.failed laterOperation "busy") ∧
      (∀ events w₂, (World.mk (twoEdits.coordinator.fail (edit "y" 2 "y") "busy") [longOperation]
          twoEdits.accepted).run events = some w₂ →
        ∀ q : Request, q.commandId = "y" → (w₂.coordinator.submit q).1 = .accepted →
          commandCacheLimit ≤ (othersEnded "y" events).card) ∧
      (∀ q : Request, q.commandId = "x" → (twoEdits.coordinator.submit q).1 ≠ .accepted) ∧
      ∃ rejection, (twoEdits.coordinator.submit { edit "y" 3 "y" with controller := none }).1 =
        .rejected rejection := by
  have hreachable : twoEdits.Reachable := ⟨[.submit (edit "x" 1 "x"),.submit (edit "y" 2 "y")],rfl⟩
  obtain ⟨hprotected,hflight,hforeign⟩ := commands_at_most_once twoEdits hreachable
  refine ⟨rfl,hprotected (.failed laterOperation "busy") _ "y" rfl rfl rfl,fun q hq => ?_,?_⟩
  · exact ((hflight longOperation (List.mem_cons_self)).2.2.2 q hq).1
  · exact hforeign { edit "y" 3 "y" with controller := none } laterOperation rfl rfl (by decide)

def shortId (n : ℕ) : String := String.ofList (List.replicate (n+2) 'y')

theorem shortId_length (n : ℕ) : (shortId n).length = n+2 := by
  rw [shortId,String.length_ofList,List.length_replicate]

theorem shortId_injective : Function.Injective shortId := by
  intro a b h
  have hlength := congrArg String.length h
  rw [shortId_length,shortId_length] at hlength
  omega

theorem shortId_ne (n : ℕ) : shortId n ≠ "x" := by
  intro h
  have hlength := congrArg String.length h
  rw [shortId_length] at hlength
  have hone : "x".length = 1 := by decide
  omega

/-- A result that changes nothing. -/
def unchanged : Result := ⟨none,none,none,none,none,none,none,none,none,none,none,none⟩

namespace Coordinator

variable {s : Coordinator}

theorem completed_length_le {first : String} {rest : List String}
    (hkeys : s.commands.keys = first :: rest) (hfirst : s.activeOperations.contains first = true) :
    s.completed.length ≤ rest.length := by
  rw [completed,hkeys,List.filter_cons]
  simp only [hfirst,Bool.not_true,Bool.false_eq_true,if_false]
  exact List.length_filter_le _ _

theorem trim_keys_of_small (h : s.completed.length ≤ commandCacheLimit) :
    s.trim.commands.keys = s.commands.keys := by
  have hevicted : s.evicted = [] := by
    rw [evicted,Nat.sub_eq_zero_of_le h,List.take_zero]
  rw [trim_keys,hevicted]
  simp

theorem finishOperation_keys_of_small {first key : String} {rest : List String}
    (hkeys : s.commands.keys = first :: rest)
    (hfirst : (s.activeOperations.pop key).contains first = true)
    (hlength : rest.length ≤ commandCacheLimit) :
    (s.finishOperation key).commands.keys = s.commands.keys := by
  have hpopped : (s.popActive key).dispatchIdleRecovery.commands = s.commands :=
    dispatchIdleRecovery_commands _
  have hactive : (s.popActive key).dispatchIdleRecovery.activeOperations =
      s.activeOperations.pop key :=
    dispatchIdleRecovery_activeOperations _
  unfold finishOperation
  rw [trim_keys_of_small,hpopped]
  have hcompleted := completed_length_le (s:=(s.popActive key).dispatchIdleRecovery)
    (hpopped ▸ hkeys) (hactive ▸ hfirst)
  exact le_trans hcompleted hlength

theorem finishOperation_frame (s : Coordinator) (key : String) :
    (s.finishOperation key).state = s.state ∧ (s.finishOperation key).controller = s.controller ∧
      (s.finishOperation key).draining = s.draining ∧
      (s.finishOperation key).idleRecovery = s.idleRecovery ∧
      (s.finishOperation key).exitFenced = s.exitFenced := by
  unfold finishOperation trim dispatchIdleRecovery
  split <;> exact ⟨rfl,rfl,rfl,rfl,rfl⟩

theorem fail_frame (s : Coordinator) (q : Request) (exception : String) :
    (s.fail q exception).state = s.state ∧ (s.fail q exception).controller = s.controller ∧
      (s.fail q exception).draining = s.draining ∧
      (s.fail q exception).idleRecovery = s.idleRecovery := by
  unfold fail
  split
  · exact ⟨rfl,rfl,rfl,rfl⟩
  · simp [finishOperation_frame]

theorem complete_unchanged_frame {q : Request} (h : s.exitFenced = ∅) :
    (s.complete q unchanged).state = s.state ∧
      (s.complete q unchanged).controller = s.controller ∧
      (s.complete q unchanged).draining = s.draining ∧
      (s.complete q unchanged).idleRecovery = s.idleRecovery ∧
      (s.complete q unchanged).exitFenced = ∅ := by
  simp [complete,h,apply,unchanged,finishOperation_frame]

end Coordinator

theorem World.run_append (w : World) (events others : List Event) :
    w.run (events++others) = (w.run events).bind fun w => w.run others := by
  induction events generalizing w with
  | nil => rfl
  | cons event rest ih =>
    rw [List.cons_append,run,run,Option.bind_assoc]
    exact congrArg _ (funext fun w => ih w)

/-- A long command executes while the first `n` short ones came and ended. -/
structure Overtaken (w : World) (n : ℕ) : Prop where
  reachable : w.Reachable
  inflight : w.inflight = [longOperation]
  keys : w.coordinator.commands.keys = "x" :: (List.range n).map shortId
  active : ∀ key, w.coordinator.activeOperations.get? key =
    if key = "x" then some (some {"x"}) else none
  state : w.coordinator.state = .stopped
  controller : w.coordinator.controller = none
  draining : w.coordinator.draining = false
  idleRecovery : w.coordinator.idleRecovery = false
  exitFenced : w.coordinator.exitFenced = ∅
  version : w.coordinator.stateVersion = n+2

theorem overtaken_zero : Overtaken (World.start.accept (edit "x" 1 "x")) 0 where
  reachable := ⟨[.submit (edit "x" 1 "x")],rfl⟩
  inflight := rfl
  keys := rfl
  active _ := Dict.get?_set _ _ _ _
  state := rfl
  controller := rfl
  draining := rfl
  idleRecovery := rfl
  exitFenced := rfl
  version := rfl

namespace Overtaken

variable {w : World} {n : ℕ}

theorem gate_edit (h : Overtaken w n) (commandId : String) (version : ℤ) (name : String) :
    w.coordinator.gate (edit commandId version name) = none := by
  simp [Coordinator.gate,h.draining,h.state,h.idleRecovery,h.controller,Coordinator.gate.gateRequest,
    edit]

theorem accepted_short (h : Overtaken w n) :
    (w.coordinator.submit (edit (shortId n) (n+2) "y")).1 = .accepted := by
  refine Coordinator.accepted_iff.mpr ⟨h.gate_edit _ _ _,?_,?_,h.version.symm⟩
  · rw [Dict.get?_eq_none_iff,h.keys]
    simp only [List.mem_cons,List.mem_map,List.mem_range,not_or,not_exists,not_and]
    refine ⟨shortId_ne n,fun m hm he => ?_⟩
    have heq := shortId_injective he
    omega
  · refine Coordinator.activeConflicts_eq_false_iff.mpr (Or.inr ⟨h.state,h.controller,?_⟩)
    intro others hothers
    obtain ⟨key,hkey⟩ := (Dict.mem_values_iff _ _).mp hothers
    rw [h.active] at hkey
    split_ifs at hkey
    rw [← Option.some.inj hkey]
    change Coordinator.conflict (some {"x"}) (some {"y"}) = false
    decide

theorem succ (h : Overtaken w n) (hn : n < commandCacheLimit) : ∃ w', Overtaken w' (n+1) := by
  set q := edit (shortId n) (n+2) "y" with hq
  have haccepted : (w.coordinator.submit q).1 = .accepted := h.accepted_short
  set op : Operation := ⟨q,w.coordinator.progressRecord q⟩ with hop
  set s := w.coordinator.accept q with hs
  have hactive : ∀ key, (s.activeOperations.pop q.commandId).get? key =
      if key = "x" then some (some {"x"}) else none := by
    intro key
    change ((w.coordinator.activeOperations.set q.commandId q.conflictNames).pop q.commandId).get? key = _
    rw [Dict.get?_pop,Dict.get?_set,h.active]
    have hne : q.commandId ≠ "x" := shortId_ne n
    by_cases hkey : key = q.commandId <;> simp [hkey,hne]
  have hlong : (s.activeOperations.pop q.commandId).contains "x" = true := by
    rw [Dict.contains,hactive]
    rfl
  have hkeys : s.commands.keys = "x" :: (List.range (n+1)).map shortId := by
    have hnew := (Dict.contains_eq_false_iff _ _).mpr (Coordinator.accepted_iff.mp haccepted).2.1
    change (w.coordinator.commands.set q.commandId _).keys = _
    rw [Dict.keys_set_of_new _ _ hnew,h.keys,List.range_succ,List.map_append]
    rfl
  have hlength : ((List.range (n+1)).map shortId).length ≤ commandCacheLimit := by
    rw [List.length_map,List.length_range]
    exact hn
  have hcompleted : (s.complete q unchanged).commands.keys = s.commands.keys := by
    obtain ⟨middle,record,hcommands,hmiddle,-,heq⟩ := Coordinator.complete_shape s q unchanged
    have hfirst : middle.commands.keys = "x" :: (List.range (n+1)).map shortId := by
      rw [hcommands,Coordinator.finishOperation_keys_of_small hkeys hlong hlength,hkeys]
    have hcontains : middle.commands.contains q.commandId = true := by
      rw [Dict.contains_iff_mem_keys,hfirst]
      refine List.mem_cons_of_mem _ (List.mem_map.mpr ⟨n,?_,rfl⟩)
      simp
    have hset := (Dict.keys_set_of_contains middle.commands record hcontains).trans hfirst
    rw [heq,Coordinator.finishOperation_keys_of_small hset _ hlength,hset,hkeys]
    change (middle.activeOperations.pop q.commandId).contains "x" = true
    rw [hmiddle,Dict.pop_of_get?_none _ _ (Dict.get?_pop_self _ _)]
    exact hlong
  have hfields := Coordinator.complete_unchanged_frame (s:=s) (q:=q) h.exitFenced
  have hstep : (w.accept q).step (.completed op unchanged) =
      some ⟨s.complete q unchanged,[longOperation],op :: w.accepted⟩ := by
    have hmem : op ∈ (w.accept q).inflight := List.mem_append_right _ (List.mem_singleton_self op)
    have herase : (w.accept q).inflight.erase op = [longOperation] := by
      have hne : longOperation ≠ op := by
        intro he
        exact shortId_ne n (congrArg Operation.commandId he).symm
      change (w.inflight++[op]).erase op = _
      rw [h.inflight]
      simp [hne]
    rw [World.step,if_pos hmem,herase]
    rfl
  refine ⟨⟨s.complete q unchanged,[longOperation],op :: w.accepted⟩,?_⟩
  refine ⟨?_,rfl,hcompleted.trans hkeys,?_,hfields.1.trans h.state,hfields.2.1.trans h.controller,
    hfields.2.2.1.trans h.draining,hfields.2.2.2.1.trans h.idleRecovery,hfields.2.2.2.2,?_⟩
  · obtain ⟨events,hrun⟩ := h.reachable
    refine ⟨events++[.submit q,.completed op unchanged],?_⟩
    rw [World.run_append,hrun,Option.bind_some,World.run,World.step,haccepted]
    simp only [Option.bind_some,World.run,hstep]
  · intro key
    rw [Coordinator.complete_activeOperations,hactive]
  · rw [Coordinator.complete_stateVersion]
    change w.coordinator.stateVersion+1 = _
    rw [h.version]
    push_cast
    ring

end Overtaken

theorem overtaken (n : ℕ) (hn : n ≤ commandCacheLimit) : ∃ w, Overtaken w n := by
  induction n with
  | zero => exact ⟨_,overtaken_zero⟩
  | succ n ih =>
    obtain ⟨w,hw⟩ := ih (by omega)
    exact hw.succ (by omega)

theorem Coordinator.not_mem_fail {s : Coordinator} {q : Request} (exception : String)
    (hcached : q.commandId ∈ s.commands.keys)
    (hbehind : commandCacheLimit ≤ (s.behind q.commandId).length) :
    q.commandId ∉ (s.fail q exception).commands.keys := by
  have hcontains := (Dict.contains_iff_mem_keys _ _).mpr hcached
  obtain ⟨record,hrecord⟩ := (Dict.contains_iff _ _).mp hcontains
  have hkeys := fun record : Record => Dict.keys_set_of_contains s.commands record hcontains
  unfold Coordinator.fail
  rw [hrecord]
  refine Coordinator.not_mem_finishOperation ?_ ?_
  · change _ ∈ (s.commands.set _ _).keys
    rw [hkeys]
    exact hcached
  · unfold Coordinator.behind at hbehind ⊢
    rw [hkeys]
    exact hbehind

namespace Overtaken

variable {w : World} {n : ℕ}

theorem behind_long (h : Overtaken w n) : (w.coordinator.behind "x").length = n := by
  have hkeys : w.coordinator.commands.keys = []++"x" :: _ := h.keys
  rw [Coordinator.behind_eq hkeys List.not_mem_nil,List.filter_eq_self.mpr]
  · rw [List.length_map,List.length_range]
  · intro key hkey
    obtain ⟨m,-,rfl⟩ := List.mem_map.mp hkey
    rw [Dict.contains,h.active,if_neg (shortId_ne m)]
    rfl

theorem accepted_again (h : Overtaken w n)
    (hgone : "x" ∉ (w.coordinator.fail longOperation.request "unreadable").commands.keys) :
    ((w.coordinator.fail longOperation.request "unreadable").submit (edit "x" (n+2) "x")).1 =
      .accepted := by
  have hcached : w.coordinator.commands.contains "x" = true := by
    rw [Dict.contains_iff_mem_keys,h.keys]
    exact List.mem_cons_self
  obtain ⟨record,hrecord⟩ := (Dict.contains_iff _ _).mp hcached
  have hactive := Coordinator.fail_activeOperations w.coordinator longOperation.request "unreadable"
    hrecord
  set s := w.coordinator.fail longOperation.request "unreadable" with hs
  obtain ⟨hstate,hcontroller,hdraining,hrecovery⟩ :=
    Coordinator.fail_frame w.coordinator longOperation.request "unreadable"
  rw [← hs,h.state] at hstate
  rw [← hs,h.controller] at hcontroller
  rw [← hs,h.draining] at hdraining
  rw [← hs,h.idleRecovery] at hrecovery
  refine Coordinator.accepted_iff.mpr ⟨?_,(Dict.get?_eq_none_iff _ _).mpr hgone,?_,?_⟩
  · simp [Coordinator.gate,hdraining,hstate,hrecovery,hcontroller,Coordinator.gate.gateRequest,edit]
  · refine Coordinator.activeConflicts_eq_false_iff.mpr (Or.inr ⟨hstate,hcontroller,?_⟩)
    intro others hothers
    obtain ⟨key,hkey⟩ := (Dict.mem_values_iff _ _).mp hothers
    rw [hactive,Dict.get?_pop_eq_some,h.active] at hkey
    obtain ⟨hne,hkey⟩ := hkey
    have hlong : key ≠ "x" := hne
    rw [if_neg hlong] at hkey
    cases hkey
  · rw [hs,Coordinator.fail_stateVersion]
    exact h.version.symm

end Overtaken

/-- The long command fails when the cache is full of shorter ones, and then it is executed
again at once. -/
theorem overtaken_command_repeats :
    ¬ ∀ w : World, w.Reachable → ∀ (event : Event) (w₁ : World) (op : Operation),
      op ∈ w.inflight → w.step event = some w₁ → event.ended = some op.commandId →
      ∀ events w₂, w₁.run events = some w₂ →
        ∀ q : Request, q.commandId = op.commandId → q.controller = op.request.controller →
          (w₂.coordinator.submit q).1 = .accepted →
            commandCacheLimit ≤ (othersEnded op.commandId events).card := by
  intro hclaim
  obtain ⟨w,hw⟩ := overtaken commandCacheLimit le_rfl
  have hmem : longOperation ∈ w.inflight := by
    rw [hw.inflight]
    exact List.mem_singleton_self _
  have hstep : w.step (.failed longOperation "unreadable") =
      some ⟨w.coordinator.fail longOperation.request "unreadable",w.inflight.erase longOperation,
        w.accepted⟩ := by
    rw [World.step,if_pos hmem]
  have hgone : "x" ∉ (w.coordinator.fail longOperation.request "unreadable").commands.keys := by
    refine Coordinator.not_mem_fail (q:=longOperation.request) _ ?_ ?_
    · rw [hw.keys]
      exact List.mem_cons_self
    · exact hw.behind_long.ge
  have hzero := hclaim w hw.reachable _ _ longOperation hmem hstep rfl [] _ rfl
    (edit "x" (commandCacheLimit+2) "x") rfl rfl ?_
  · exact absurd hzero (by decide)
  · exact hw.accepted_again hgone

end Coordination
end FakeNetNG
