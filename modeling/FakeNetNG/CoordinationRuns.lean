import FakeNetNG.Coordination

/-!
# Runs of the coordinator

An event is one locked section. Between the acceptance of an operation and its end any other
events may come. A run keeps the operations whose callbacks are executing and, newest first,
all that were ever accepted.
-/

namespace FakeNetNG
namespace Coordination

/-- An accepted submission with the record it put into the cache. -/
structure Operation where
  request : Request
  record : Record
  deriving DecidableEq

namespace Operation

def commandId (op : Operation) : String := op.request.commandId

/-- The version that the acceptance made. -/
def version (op : Operation) : ℤ := op.record.response.stateVersion

end Operation

inductive Event
  | submit (q : Request)
  | failed (op : Operation) (exception : String)
  | completed (op : Operation) (result : Result)
  | call (method : Coordinator.Method)

structure World where
  coordinator : Coordinator
  inflight : List Operation
  accepted : List Operation

namespace World

def start : World := ⟨.start,[],[]⟩

def accept (w : World) (q : Request) : World :=
  let op := ⟨q,w.coordinator.progressRecord q⟩
  ⟨w.coordinator.accept q,w.inflight++[op],op :: w.accepted⟩

/-- An event, where it is possible: an operation ends while it is executing, and the recovery
thread ends while it is running. -/
def step (w : World) : Event → Option World
  | .submit q =>
      match (w.coordinator.submit q).1 with
      | .accepted => some (w.accept q)
      | _ => some w
  | .failed op exception =>
      if op ∈ w.inflight then
        some ⟨w.coordinator.fail op.request exception,w.inflight.erase op,w.accepted⟩
      else
        none
  | .completed op result =>
      if op ∈ w.inflight then
        some ⟨w.coordinator.complete op.request result,w.inflight.erase op,w.accepted⟩
      else
        none
  | .call .recoveryDone =>
      if w.coordinator.idleRecoveryRunning then
        some { w with coordinator := Coordinator.Method.recoveryDone.call w.coordinator }
      else
        none
  | .call method => some { w with coordinator := method.call w.coordinator }

def run (w : World) : List Event → Option World
  | [] => some w
  | event :: rest => (w.step event).bind fun w => w.run rest

def Reachable (w : World) : Prop := ∃ events, start.run events = some w

end World

namespace Coordinator

variable {s : Coordinator} {q : Request}

theorem accepted_iff : (s.submit q).1 = .accepted ↔
    s.gate q = none ∧ s.commands.get? q.commandId = none ∧
      s.activeConflicts q.conflictNames = false ∧ q.expectedVersion = s.stateVersion := by
  unfold submit
  cases hgate : s.gate q with
  | some rejection => simp
  | none =>
    cases hcached : s.commands.get? q.commandId with
    | some cached =>
      simp only [true_and,reduceCtorEq,false_and,iff_false]
      unfold replay replay.answer
      split_ifs
      · simp
      · simp
      · repeat' split
        all_goals simp
    | none =>
      cases hconflict : s.activeConflicts q.conflictNames
      · by_cases hversion : q.expectedVersion = s.stateVersion <;> simp [hversion]
      · simp

theorem submit_snd_of_not_accepted (h : (s.submit q).1 ≠ .accepted) : (s.submit q).2 = s := by
  unfold submit at h ⊢
  split
  · rfl
  · split
    · rfl
    · rename_i hgate _ hcached
      rw [hgate,hcached] at h
      simp only at h
      split_ifs at h ⊢
      · rfl
      · rfl
      · exact absurd rfl h

theorem submit_snd_of_accepted (h : (s.submit q).1 = .accepted) : (s.submit q).2 = s.accept q := by
  obtain ⟨hgate,hcached,hconflict,hversion⟩ := accepted_iff.mp h
  simp [submit,hgate,hcached,hconflict,hversion]

/-- Who owns the run is checked before everything but the shutdown and the header. -/
theorem controller_of_gate_none {active : String} (h : s.gate q = none)
    (hactive : s.controller = some active) : q.controller = some active := by
  unfold gate at h
  rw [hactive] at h
  simp only at h
  split_ifs at h with hshutdown hvalid hcontroller
  exact not_not.mp hcontroller

theorem activeConflicts_eq_false_iff {names : Option (Finset String)} :
    s.activeConflicts names = false ↔ s.activeOperations.size = 0 ∨
      s.state = .stopped ∧ s.controller = none ∧
        ∀ others ∈ s.activeOperations.values, conflict others names = false := by
  unfold activeConflicts
  split_ifs with hsize hstate
  · simp [hsize]
  · simp only [hsize,false_or,false_iff]
    rintro ⟨hstopped,hcontroller,-⟩
    rcases hstate with h | h
    · exact h hstopped
    · exact h hcontroller
  · push Not at hstate
    simp [hsize,hstate.1,hstate.2]

@[simp] theorem dispatchIdleRecovery_commands (s : Coordinator) :
    s.dispatchIdleRecovery.commands = s.commands := by
  unfold dispatchIdleRecovery
  split <;> rfl

@[simp] theorem dispatchIdleRecovery_activeOperations (s : Coordinator) :
    s.dispatchIdleRecovery.activeOperations = s.activeOperations := by
  unfold dispatchIdleRecovery
  split <;> rfl

@[simp] theorem dispatchIdleRecovery_stateVersion (s : Coordinator) :
    s.dispatchIdleRecovery.stateVersion = s.stateVersion := by
  unfold dispatchIdleRecovery
  split <;> rfl

@[simp] theorem finishOperation_activeOperations (s : Coordinator) (commandId : String) :
    (s.finishOperation commandId).activeOperations = s.activeOperations.pop commandId := by
  simp [finishOperation,trim,popActive]

@[simp] theorem finishOperation_stateVersion (s : Coordinator) (commandId : String) :
    (s.finishOperation commandId).stateVersion = s.stateVersion := by
  simp [finishOperation,trim,popActive]

theorem call_commands (method : Method) (s : Coordinator) :
    (method.call s).commands = s.commands := by
  cases method <;> simp [Method.call,recordTerminalFailure,restoreResponsibility,failControlledExit,
    updateHealthState]

theorem call_activeOperations (method : Method) (s : Coordinator) :
    (method.call s).activeOperations = s.activeOperations := by
  cases method <;> simp [Method.call,recordTerminalFailure,restoreResponsibility,failControlledExit,
    updateHealthState]

theorem call_stateVersion (method : Method) (s : Coordinator) :
    (method.call s).stateVersion = s.stateVersion := by
  cases method <;> simp [Method.call,recordTerminalFailure,restoreResponsibility,failControlledExit,
    updateHealthState]

@[simp] theorem fail_stateVersion (s : Coordinator) (q : Request) (exception : String) :
    (s.fail q exception).stateVersion = s.stateVersion := by
  unfold fail
  split
  · rfl
  · rw [finishOperation_stateVersion]

@[simp] theorem complete_stateVersion (s : Coordinator) (q : Request) (result : Result) :
    (s.complete q result).stateVersion = s.stateVersion := by
  simp [complete,apply]

theorem fail_activeOperations (s : Coordinator) (q : Request) (exception : String) {record : Record}
    (h : s.commands.get? q.commandId = some record) :
    (s.fail q exception).activeOperations = s.activeOperations.pop q.commandId := by
  unfold fail
  rw [h]
  simp

theorem complete_activeOperations (s : Coordinator) (q : Request) (result : Result) :
    (s.complete q result).activeOperations = s.activeOperations.pop q.commandId := by
  have htwice : (s.activeOperations.pop q.commandId).pop q.commandId =
      s.activeOperations.pop q.commandId := Dict.pop_of_get?_none _ _ (by simp)
  simp [complete,apply,htwice]

/-- What trimming deletes. -/
def evicted (s : Coordinator) : List String :=
  s.completed.take (s.completed.length-commandCacheLimit)

theorem get?_trim (s : Coordinator) (key : String) :
    s.trim.commands.get? key = if key ∈ s.evicted then none else s.commands.get? key := by
  change (s.commands.filter fun key _ => decide (key ∉ s.evicted)).get? key = _
  rw [Dict.get?_filter]
  by_cases h : key ∈ s.evicted
  · simp only [h,not_true_eq_false,decide_false,if_true]
    cases s.commands.get? key <;> rfl
  · simp only [h,not_false_eq_true,decide_true,if_false]
    cases s.commands.get? key <;> rfl

/-- An operation that goes on executing keeps its record. -/
theorem get?_finishOperation_of_active (s : Coordinator) {commandId key : String}
    (hne : key ≠ commandId) (h : s.activeOperations.contains key = true) :
    (s.finishOperation commandId).commands.get? key = s.commands.get? key := by
  unfold finishOperation
  rw [get?_trim,if_neg]
  · simp [popActive]
  · intro hmem
    have hcompleted := List.mem_of_mem_take hmem
    have hactive : (s.activeOperations.pop commandId).contains key = true := by
      rw [Dict.contains] at h ⊢
      rwa [Dict.get?_pop_of_ne _ hne]
    simp [completed,popActive,hactive] at hcompleted

theorem get?_fail_of_active (s : Coordinator) (q : Request) (exception : String) {key : String}
    (hne : key ≠ q.commandId) (h : s.activeOperations.contains key = true) :
    (s.fail q exception).commands.get? key = s.commands.get? key := by
  unfold fail
  split
  · rfl
  · refine (get?_finishOperation_of_active _ hne ?_).trans (Dict.get?_set_of_ne _ _ hne)
    exact h

theorem get?_complete_of_active (s : Coordinator) (q : Request) (result : Result) {key : String}
    (hne : key ≠ q.commandId) (h : s.activeOperations.contains key = true) :
    (s.complete q result).commands.get? key = s.commands.get? key := by
  have hactive : (s.activeOperations.pop q.commandId).contains key = true := by
    rw [Dict.contains] at h ⊢
    rwa [Dict.get?_pop_of_ne _ hne]
  unfold complete
  rw [get?_finishOperation_of_active _ hne]
  · rw [Dict.get?_set_of_ne _ _ hne]
    exact get?_finishOperation_of_active _ hne h
  · simpa [apply] using hactive

end Coordinator

namespace World

/-- The table of active operations is that of the executing callbacks, each of them has its
record in the cache, and no two of them conflict. -/
structure Invariant (w : World) : Prop where
  nodup : (w.inflight.map Operation.commandId).Nodup
  active : ∀ key names, w.coordinator.activeOperations.get? key = some names ↔
    ∃ op ∈ w.inflight, op.commandId = key ∧ op.request.conflictNames = names
  cached : ∀ op ∈ w.inflight, w.coordinator.commands.get? op.commandId = some op.record
  disjoint : w.inflight.Pairwise fun a b =>
    Coordinator.conflict a.request.conflictNames b.request.conflictNames = false

theorem invariant_start : start.Invariant where
  nodup := List.nodup_nil
  active key names := by simp [start,Coordinator.start]
  cached := by simp [start]
  disjoint := List.Pairwise.nil

namespace Invariant

variable {w : World} {q : Request} {op : Operation}

theorem contains_of_mem (hw : w.Invariant) (hop : op ∈ w.inflight) :
    w.coordinator.activeOperations.contains op.commandId = true :=
  (Dict.contains_iff _ _).mpr ⟨_,(hw.active _ _).mpr ⟨op,hop,rfl,rfl⟩⟩

theorem eq_of_commandId (hw : w.Invariant) {a b : Operation} (ha : a ∈ w.inflight)
    (hb : b ∈ w.inflight) (h : a.commandId = b.commandId) : a = b :=
  List.inj_on_of_nodup_map hw.nodup ha hb h

theorem ne_of_accepted (hw : w.Invariant) (h : (w.coordinator.submit q).1 = .accepted)
    (hop : op ∈ w.inflight) : op.commandId ≠ q.commandId := by
  intro he
  have hnone := (Coordinator.accepted_iff.mp h).2.1
  rw [← he,hw.cached op hop] at hnone
  cases hnone

/-- With another operation executing, acceptance needs a stopped service without an owner and
disjoint scopes. -/
theorem gate_of_accepted (hw : w.Invariant) (h : (w.coordinator.submit q).1 = .accepted)
    (hop : op ∈ w.inflight) :
    w.coordinator.state = .stopped ∧ w.coordinator.controller = none ∧
      Coordinator.conflict op.request.conflictNames q.conflictNames = false := by
  have hvalue := (hw.active _ _).mpr ⟨op,hop,rfl,rfl⟩
  rcases Coordinator.activeConflicts_eq_false_iff.mp (Coordinator.accepted_iff.mp h).2.2.1 with
    hsize | ⟨hstate,hcontroller,hscopes⟩
  · have hmem := (Dict.get?_eq_some_iff _ _ _).mp hvalue
    rw [Dict.size,List.length_eq_zero_iff] at hsize
    rw [hsize] at hmem
    cases hmem
  · exact ⟨hstate,hcontroller,hscopes _ ((Dict.mem_values_iff _ _).mpr ⟨_,hvalue⟩)⟩

theorem accept (hw : w.Invariant) (h : (w.coordinator.submit q).1 = .accepted) :
    (w.accept q).Invariant where
  nodup := by
    simp only [World.accept,List.map_append,List.map_cons,List.map_nil]
    refine List.nodup_append.mpr ⟨hw.nodup,List.nodup_singleton _,?_⟩
    intro key hkey other hother
    obtain ⟨op,hop,rfl⟩ := List.mem_map.mp hkey
    rw [List.mem_singleton.mp hother]
    exact hw.ne_of_accepted h hop
  active key names := by
    simp only [World.accept,Coordinator.accept,List.mem_append,List.mem_singleton]
    rw [Dict.get?_set_eq_some,hw.active]
    constructor
    · rintro (⟨rfl,rfl⟩ | ⟨-,op,hop,hkey,hnames⟩)
      · exact ⟨_,Or.inr rfl,rfl,rfl⟩
      · exact ⟨op,Or.inl hop,hkey,hnames⟩
    · rintro ⟨op,hop | rfl,hkey,hnames⟩
      · exact Or.inr ⟨hkey ▸ hw.ne_of_accepted h hop,op,hop,hkey,hnames⟩
      · exact Or.inl ⟨hkey.symm,hnames.symm⟩
  cached op hop := by
    simp only [World.accept,Coordinator.accept,List.mem_append,List.mem_singleton] at hop ⊢
    rcases hop with hop | rfl
    · rw [Dict.get?_set_of_ne _ _ (hw.ne_of_accepted h hop)]
      exact hw.cached op hop
    · exact Dict.get?_set_self _ _ _
  disjoint := by
    refine List.pairwise_append.mpr ⟨hw.disjoint,List.pairwise_singleton _ _,?_⟩
    intro other hother op hop
    rw [List.mem_singleton.mp hop]
    exact (hw.gate_of_accepted h hother).2.2

/-- The end of an operation leaves the others as they were. -/
theorem erase (hw : w.Invariant) (hop : op ∈ w.inflight) {s : Coordinator}
    (hactive : s.activeOperations = w.coordinator.activeOperations.pop op.commandId)
    (hcached : ∀ key, key ≠ op.commandId → w.coordinator.activeOperations.contains key = true →
      s.commands.get? key = w.coordinator.commands.get? key) :
    Invariant ⟨s,w.inflight.erase op,w.accepted⟩ where
  nodup := hw.nodup.sublist (List.erase_sublist.map _)
  active key names := by
    rw [hactive,Dict.get?_pop_eq_some,hw.active]
    constructor
    · rintro ⟨hne,other,hother,rfl,rfl⟩
      refine ⟨other,(List.mem_erase_of_ne ?_).mpr hother,rfl,rfl⟩
      rintro rfl
      exact hne rfl
    · rintro ⟨other,hother,rfl,rfl⟩
      have hmem := List.mem_of_mem_erase hother
      refine ⟨fun he => ?_,other,hmem,rfl,rfl⟩
      rw [hw.eq_of_commandId hmem hop he] at hother
      exact (hw.nodup.of_map _).not_mem_erase hother
  cached other hother := by
    have hmem := List.mem_of_mem_erase hother
    rw [hcached _ (fun he => ?_) (hw.contains_of_mem hmem)]
    · exact hw.cached other hmem
    · rw [hw.eq_of_commandId hmem hop he] at hother
      exact (hw.nodup.of_map _).not_mem_erase hother
  disjoint := hw.disjoint.sublist List.erase_sublist

theorem call (hw : w.Invariant) (method : Coordinator.Method) :
    Invariant { w with coordinator := method.call w.coordinator } where
  nodup := hw.nodup
  active key names := by
    rw [Coordinator.call_activeOperations]
    exact hw.active key names
  cached op hop := by
    rw [Coordinator.call_commands]
    exact hw.cached op hop
  disjoint := hw.disjoint

end Invariant

/-- How a world changes: by an accepted submission, by the end of an operation, by another
method, or not at all. -/
theorem step_cases {w w' : World} {event : Event} (h : w.step event = some w') :
    (∃ q, event = .submit q ∧ (w.coordinator.submit q).1 = .accepted ∧ w' = w.accept q) ∨
    (∃ q, event = .submit q ∧ (w.coordinator.submit q).1 ≠ .accepted ∧ w' = w) ∨
    (∃ op exception, event = .failed op exception ∧ op ∈ w.inflight ∧
      w' = ⟨w.coordinator.fail op.request exception,w.inflight.erase op,w.accepted⟩) ∨
    (∃ op result, event = .completed op result ∧ op ∈ w.inflight ∧
      w' = ⟨w.coordinator.complete op.request result,w.inflight.erase op,w.accepted⟩) ∨
    (∃ method, event = .call method ∧ w' = { w with coordinator := method.call w.coordinator }) := by
  cases event with
  | submit q =>
    by_cases haccepted : (w.coordinator.submit q).1 = .accepted
    · rw [step,haccepted] at h
      exact Or.inl ⟨q,rfl,haccepted,(Option.some.inj h).symm⟩
    · refine Or.inr (Or.inl ⟨q,rfl,haccepted,?_⟩)
      rw [step] at h
      split at h
      · exact absurd ‹_› haccepted
      · exact (Option.some.inj h).symm
  | failed op exception =>
    rw [step] at h
    split_ifs at h with hop
    exact Or.inr (Or.inr (Or.inl ⟨op,exception,rfl,hop,(Option.some.inj h).symm⟩))
  | completed op result =>
    rw [step] at h
    split_ifs at h with hop
    exact Or.inr (Or.inr (Or.inr (Or.inl ⟨op,result,rfl,hop,(Option.some.inj h).symm⟩)))
  | call method =>
    refine Or.inr (Or.inr (Or.inr (Or.inr ⟨method,rfl,?_⟩)))
    cases method with
    | recoveryDone =>
      rw [step] at h
      split_ifs at h
      exact (Option.some.inj h).symm
    | _ => exact (Option.some.inj h).symm

theorem Invariant.step {w w' : World} (hw : w.Invariant) {event : Event}
    (h : w.step event = some w') : w'.Invariant := by
  rcases step_cases h with ⟨q,-,haccepted,rfl⟩ | ⟨q,-,-,rfl⟩ | ⟨op,exception,-,hop,rfl⟩ |
    ⟨op,result,-,hop,rfl⟩ | ⟨method,-,rfl⟩
  · exact hw.accept haccepted
  · exact hw
  · exact hw.erase hop (Coordinator.fail_activeOperations _ _ _ (hw.cached op hop))
      fun key hne hkey => Coordinator.get?_fail_of_active _ _ _ hne hkey
  · exact hw.erase hop (Coordinator.complete_activeOperations _ _ _)
      fun key hne hkey => Coordinator.get?_complete_of_active _ _ _ hne hkey
  · exact hw.call method

theorem run_induction {P : World → Prop} (hstep : ∀ w w' event, P w → w.step event = some w' → P w')
    {w w' : World} (events : List Event) (hw : P w) (h : w.run events = some w') : P w' := by
  induction events generalizing w with
  | nil => exact Option.some.inj h ▸ hw
  | cons event rest ih =>
    obtain ⟨w₁,h₁,hrest⟩ := Option.bind_eq_some_iff.mp h
    exact ih (hstep w w₁ event hw h₁) hrest

theorem Reachable.invariant {w : World} (h : w.Reachable) : w.Invariant := by
  obtain ⟨events,hrun⟩ := h
  exact run_induction (fun _ _ _ hw hstep => hw.step hstep) events invariant_start hrun

/-- Newest first, the versions of the accepted operations fall, and each is one above what
its submission expected. -/
structure Versioned (w : World) : Prop where
  decreasing : w.accepted.Pairwise fun a b => b.version < a.version
  le : ∀ op ∈ w.accepted, op.version ≤ w.coordinator.stateVersion
  expected : ∀ op ∈ w.accepted, op.version = op.request.expectedVersion+1

theorem versioned_start : start.Versioned := ⟨List.Pairwise.nil,by simp [start],by simp [start]⟩

theorem Versioned.accept {w : World} (hw : w.Versioned) {q : Request}
    (h : (w.coordinator.submit q).1 = .accepted) : (w.accept q).Versioned where
  decreasing := by
    refine List.pairwise_cons.mpr ⟨fun op hop => ?_,hw.decreasing⟩
    have hle := hw.le op hop
    change op.version < w.coordinator.stateVersion+1
    omega
  le op hop := by
    change op.version ≤ w.coordinator.stateVersion+1
    rcases List.mem_cons.mp hop with rfl | hop
    · exact le_refl _
    · have hle := hw.le op hop
      omega
  expected op hop := by
    rcases List.mem_cons.mp hop with rfl | hop
    · have hversion := (Coordinator.accepted_iff.mp h).2.2.2
      change w.coordinator.stateVersion+1 = q.expectedVersion+1
      rw [hversion]
    · exact hw.expected op hop

theorem Versioned.of_eq {w w' : World} (hw : w.Versioned) (haccepted : w'.accepted = w.accepted)
    (hversion : w'.coordinator.stateVersion = w.coordinator.stateVersion) : w'.Versioned where
  decreasing := haccepted ▸ hw.decreasing
  le := by rw [haccepted,hversion]; exact hw.le
  expected := haccepted ▸ hw.expected

theorem Versioned.step {w w' : World} (hw : w.Versioned) {event : Event}
    (h : w.step event = some w') : w'.Versioned := by
  rcases step_cases h with ⟨q,-,haccepted,rfl⟩ | ⟨q,-,-,rfl⟩ | ⟨op,exception,-,hop,rfl⟩ |
    ⟨op,result,-,hop,rfl⟩ | ⟨method,-,rfl⟩
  · exact hw.accept haccepted
  · exact hw
  · exact hw.of_eq rfl (Coordinator.fail_stateVersion _ _ _)
  · exact hw.of_eq rfl (Coordinator.complete_stateVersion _ _ _)
  · exact hw.of_eq rfl (Coordinator.call_stateVersion _ _)

theorem Reachable.versioned {w : World} (h : w.Reachable) : w.Versioned := by
  obtain ⟨events,hrun⟩ := h
  exact run_induction (fun _ _ _ hw hstep => hw.step hstep) events versioned_start hrun

end World

/-- In every reachable world the executing operations have disjoint scopes and are those of the
table, the versions of all accepted operations fall from the newest to the oldest, each being
one above what was expected, and a submission is accepted only at the current version, by the
owner of the run if there is one, and beside another operation only in a stopped service
without an owner. -/
theorem mutations_serialised (w : World) (h : w.Reachable) :
    (w.inflight.Pairwise fun a b =>
      Coordinator.conflict a.request.conflictNames b.request.conflictNames = false) ∧
    (∀ key names, w.coordinator.activeOperations.get? key = some names ↔
      ∃ op ∈ w.inflight, op.commandId = key ∧ op.request.conflictNames = names) ∧
    (w.accepted.Pairwise fun a b => b.version < a.version) ∧
    (∀ op ∈ w.accepted, op.version = op.request.expectedVersion+1) ∧
    ∀ q, (w.coordinator.submit q).1 = .accepted →
      (w.inflight ≠ [] → w.coordinator.state = .stopped ∧ w.coordinator.controller = none) ∧
      q.expectedVersion = w.coordinator.stateVersion ∧
      (w.coordinator.submit q).2.stateVersion = w.coordinator.stateVersion+1 ∧
      ∀ owner, w.coordinator.controller = some owner → q.controller = some owner := by
  have hinv := h.invariant
  have hver := h.versioned
  refine ⟨hinv.disjoint,hinv.active,hver.decreasing,hver.expected,fun q haccepted => ?_⟩
  obtain ⟨hgate,-,-,hversion⟩ := Coordinator.accepted_iff.mp haccepted
  refine ⟨fun hne => ?_,hversion,?_,fun owner howner => ?_⟩
  · obtain ⟨op,hop⟩ := List.exists_mem_of_ne_nil _ hne
    have hothers := hinv.gate_of_accepted haccepted hop
    exact ⟨hothers.1,hothers.2.1⟩
  · rw [Coordinator.submit_snd_of_accepted haccepted]
    rfl
  · exact Coordinator.controller_of_gate_none hgate howner

/-- A configuration change of a client, for the runs below. -/
def edit (commandId : String) (expectedVersion : ℤ) (name : String) : Request where
  commandId := commandId
  expectedVersion := expectedVersion
  controller := some "11111111-2222-4333-8444-555555555555"
  controllerValid := true
  kind := "edit"
  verificationId := none
  internal := false
  conflictNames := some {name}
  requestIdentity := none

/-- Two edits of different files execute at once. -/
theorem mutations_serialised_edits :
    ((World.start.accept (edit "a" 1 "x")).accept (edit "b" 2 "y")).inflight.Pairwise fun a b =>
      Coordinator.conflict a.request.conflictNames b.request.conflictNames = false :=
  (mutations_serialised _ ⟨[.submit (edit "a" 1 "x"),.submit (edit "b" 2 "y")],rfl⟩).1

end Coordination
end FakeNetNG
