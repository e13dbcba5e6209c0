import FakeNetNG.ServiceStop

/-!
# Runs of the service stop

When the stop is authorised, and which of the published reports of an attempt are final.
-/

namespace FakeNetNG
namespace Coordination

open Coordinator

namespace Coordinator

variable {s : Coordinator}

theorem finishOperation_draining (s : Coordinator) (commandId : String) :
    (s.finishOperation commandId).draining = s.draining := by
  unfold finishOperation dispatchIdleRecovery
  split <;> rfl

theorem fail_draining (s : Coordinator) (q : Request) (exception : String) :
    (s.fail q exception).draining = s.draining := by
  unfold fail
  split
  · rfl
  · rw [finishOperation_draining]

theorem complete_draining (s : Coordinator) (q : Request) (result : Result) :
    (s.complete q result).draining = s.draining := by
  simp only [complete,finishOperation_draining,apply]

theorem call_draining (method : Method) (h : s.draining = true) : (method.call s).draining = true := by
  cases method with
  | recoverWhenIdle =>
    simp only [Method.call,dispatchIdleRecovery]
    split <;> exact h
  | beginDraining | failControlledExit => rfl
  | _ => exact h

/-- A coordinator that drains takes nothing from a client. -/
theorem submit_draining (h : s.draining = true) {q : Request} (hq : q.internal = false) :
    (s.submit q).1 = .rejected .controlledShutdown := by
  simp [submit,gate,h,hq]

end Coordinator

namespace World

variable {w v : World} {event : Event}

theorem step_draining (h : w.coordinator.draining = true) (hv : w.step event = some v) :
    v.coordinator.draining = true := by
  obtain ⟨q,-,-,rfl⟩ | ⟨q,-,-,rfl⟩ | ⟨op,exception,-,-,rfl⟩ | ⟨op,result,-,-,rfl⟩ | ⟨method,-,rfl⟩ := step_cases hv
  · exact h
  · exact h
  · exact (Coordinator.fail_draining _ _ _).trans h
  · exact (Coordinator.complete_draining _ _ _).trans h
  · exact Coordinator.call_draining method h

/-- Nothing of a client is in flight. -/
def Quiet (w : World) : Prop := ∀ op ∈ w.inflight, op.request.internal = true

theorem step_quiet (h : w.coordinator.draining = true) (hw : w.Quiet) (hv : w.step event = some v) : v.Quiet := by
  obtain ⟨q,-,haccepted,rfl⟩ | ⟨q,-,-,rfl⟩ | ⟨op,exception,-,-,rfl⟩ | ⟨op,result,-,-,rfl⟩ | ⟨method,-,rfl⟩ := step_cases hv
  · intro op hop
    obtain hop | hop := List.mem_append.mp hop
    · exact hw op hop
    · rw [List.mem_singleton.mp hop]
      change q.internal = true
      by_contra hclient
      rw [Coordinator.submit_draining h (Bool.eq_false_iff.mpr hclient)] at haccepted
      cases haccepted
  · exact hw
  · exact fun op' hop => hw op' (List.mem_of_mem_erase hop)
  · exact fun op' hop => hw op' (List.mem_of_mem_erase hop)
  · exact hw

theorem quiet_of_idle (hw : w.Invariant) (h : w.coordinator.activeOperations.size = 0) : w.Quiet := by
  intro op hop
  have hkey := (Dict.contains_iff_mem_keys _ _).mp (hw.contains_of_mem hop)
  have hempty : w.coordinator.activeOperations.entries = [] := List.length_eq_zero_iff.mp h
  rw [Dict.keys,hempty] at hkey
  cases hkey

end World
end Coordination

namespace ServiceStop

open Coordination GuardedSteps

/-- The worker has the lock. -/
def Stage.holds : Stage → Bool
  | .publishing | .writing | .written => true
  | _ => false

/-- The worker has seen what is left of the run. -/
def Stage.agrees : Stage → Bool
  | .agreed | .publishing | .writing | .written => true
  | _ => false

/-- The worker has found no operation in flight. -/
def Stage.idles : Stage → Bool
  | .converging | .checking | .agreed | .publishing | .writing | .written => true
  | _ => false

/-- The attempt is over, but for the end of the thread. -/
def Stage.ends : Stage → Bool
  | .leaving | .ended => true
  | _ => false

def Watching.holds : Watching → Bool
  | .seized | .cleared | .told => true
  | _ => false

def Watching.clears : Watching → Bool
  | .cleared | .told => true
  | _ => false

theorem Watching.holds_of_clears {w : Watching} (h : w.clears = true) : w.holds = true := by
  cases w <;> simp_all [Watching.clears,Watching.holds]

theorem Stage.agrees_of_holds {stage : Stage} (h : stage.holds = true) : stage.agrees = true := by
  cases stage <;> simp_all [Stage.holds,Stage.agrees]

theorem Stage.idles_of_agrees {stage : Stage} (h : stage.agrees = true) : stage.idles = true := by
  cases stage <;> simp_all [Stage.agrees,Stage.idles]

theorem Stage.not_ends_of_idles {stage : Stage} (h : stage.idles = true) : stage.ends = false := by
  cases stage <;> simp_all [Stage.idles,Stage.ends]

theorem Stage.not_idles_of_ends {stage : Stage} (h : stage.ends = true) : stage.idles = false := by
  cases stage <;> simp_all [Stage.idles,Stage.ends]

theorem Stage.not_agrees_of_ends {stage : Stage} (h : stage.ends = true) : stage.agrees = false :=
  Bool.eq_false_iff.mpr fun hagrees => by
    cases (idles_of_agrees hagrees).symm.trans (not_idles_of_ends h)

theorem Stage.not_holds_of_ends {stage : Stage} (h : stage.ends = true) : stage.holds = false :=
  Bool.eq_false_iff.mpr fun hholds => by
    cases (agrees_of_holds hholds).symm.trans (not_agrees_of_ends h)

namespace Service

variable {s t : Service} {e : Event}

/-- Only the holder of the lock publishes, and the flags of a success are set from the published success on. -/
structure Sound (s : Service) : Prop where
  world : s.world.Invariant
  worker_lock : s.lock = some .worker ↔ s.worker.holds = true
  watch_lock : ∀ n, s.lock = some (.watchdog n) ↔ (s.watch n).watching.holds = true
  worker_attempt : s.worker ≠ .ended → s.attempt ≠ 0
  entered : s.worker = .entered → s.current.watching = .idle
  draining : s.attempt ≠ 0 → s.world.coordinator.draining = true
  quiet : s.worker.idles = true ∨ s.committed = true → s.world.Quiet
  seen : s.worker.agrees = true ∨ s.committed = true →
    ∃ c, s.seen = some (s.attempt,c) ∧ released c = true ∧ c.draining = true
  committed_ends : s.committed = true → s.worker.ends = true ∧ s.attempt ≠ 0
  cleared : ∀ n, (s.watch n).watching.clears = true → s.committed = false
  success : s.worker = .written ∨ s.committed = true → s.result = ⟨s.attempt,.succeeded,none,s.deadline⟩

theorem sound_start (budget : ℕ) : (start budget).Sound := by
  constructor <;> simp [start,Stage.holds,Stage.idles,Stage.agrees,Watching.holds,Watching.clears,World.invariant_start]

theorem Sound.svcStop (h : s.Sound) : s.svcStop.Sound := by
  unfold Service.svcStop
  split
  · exact { h with }
  · exact h

theorem Sound.world_step (h : s.Sound) {event : Coordination.Event} {w : World} (hw : s.world.step event = some w) :
    { s with world := w }.Sound :=
  { h with
    world := h.world.step hw
    draining := fun hne => World.step_draining (h.draining hne) hw
    quiet := fun hor => by
      have hne : s.attempt ≠ 0 := by
        obtain hidles | hcommitted := hor
        · exact h.worker_attempt fun hended => by rw [hended] at hidles; cases hidles
        · exact (h.committed_ends hcommitted).2
      exact World.step_quiet (h.draining hne) (h.quiet hor) hw }

theorem Sound.call (h : s.Sound) (method : Coordinator.Method) (hmethod : method ≠ .recoveryDone) : (s.call method).Sound :=
  h.world_step (show s.world.step (.call method) = some _ by cases method <;> first | rfl | exact absurd rfl hmethod)

theorem forall_watchdog {P : ℕ → Watch → Prop} {n : ℕ} {watch : Watch} (hn : P n watch)
    (h : ∀ m, m ≠ n → P m (s.watch m)) : ∀ m, P m ((s.watchdog n watch).watch m) :=
  (Function.forall_update_iff s.watch P).mpr ⟨hn,h⟩

theorem Sound.free (h : s.Sound) (hlock : s.lock = none) : s.worker.holds = false ∧ ∀ n, (s.watch n).watching.holds = false := by
  refine ⟨Bool.eq_false_iff.mpr fun hholds => ?_,fun n => Bool.eq_false_iff.mpr fun hholds => ?_⟩
  · rw [h.worker_lock.mpr hholds] at hlock
    cases hlock
  · rw [(h.watch_lock n).mpr hholds] at hlock
    cases hlock

theorem Sound.request (h : s.Sound) {writes : Bool} (hv : s.request writes = some t) : t.Sound := by
  obtain ⟨⟨hlock,-⟩,rfl⟩ := allow_eq_some.mp hv
  split
  · exact h
  · rename_i hgo
    have hended : s.worker = .ended := by
      by_contra hne
      exact hgo (.inr (.inl hne))
    have hcall := h.call .beginDraining (by simp)
    have hidle : s.worker.idles = false := by rw [hended]; rfl
    have hagrees : s.worker.agrees = false := by rw [hended]; rfl
    dsimp only
    split
    · exact { hcall with
        worker_lock := by simp [write,watchdog,Service.call,hlock,Stage.holds]
        watch_lock := forall_watchdog (P:=fun n watch => s.lock = some (.watchdog n) ↔ watch.watching.holds = true)
          (by simp [hlock,Watching.holds]) fun n _ => h.watch_lock n
        worker_attempt := fun _ => Nat.succ_ne_zero _
        entered := fun _ => by simp [current,watchdog,write]
        draining := fun _ => rfl
        quiet := fun hor => by rcases hor with hor | hor <;> cases hor
        seen := fun hor => by rcases hor with hor | hor <;> cases hor
        committed_ends := fun hcommitted => by cases hcommitted
        cleared := fun _ _ => rfl
        success := fun hor => by rcases hor with hor | hor <;> cases hor }
    · exact { hcall with
        worker_attempt := fun _ => Nat.succ_ne_zero _
        entered := fun hyes => by
          change s.worker = _ at hyes
          rw [hended] at hyes
          cases hyes
        draining := fun _ => rfl
        quiet := fun hor => hor.elim (fun hyes => by change s.worker.idles = true at hyes; rw [hidle] at hyes; cases hyes)
          fun hyes => by cases hyes
        seen := fun hor => hor.elim (fun hyes => by change s.worker.agrees = true at hyes; rw [hagrees] at hyes; cases hyes)
          fun hyes => by cases hyes
        committed_ends := fun hcommitted => by cases hcommitted
        cleared := fun _ _ => rfl
        success := fun hor => hor.elim (fun hyes => by change s.worker = _ at hyes; rw [hended] at hyes; cases hyes)
          fun hyes => by cases hyes }

/-- A worker without the lock goes on. -/
theorem Sound.move (h : s.Sound) (stage : Stage) (hstage : stage ≠ .entered) (hfrom : s.worker.holds = false) (hto : stage.holds = false)
    (hrunning : s.worker ≠ .ended) (hcommitted : s.committed = false)
    (hidles : stage.idles = true → s.world.Quiet)
    (hagrees : stage.agrees = true → ∃ c, s.seen = some (s.attempt,c) ∧ released c = true ∧ c.draining = true) :
    { s with worker := stage }.Sound :=
  { h with
    worker_lock := by
      have hlock := h.worker_lock
      rw [hfrom] at hlock
      rw [hto]
      exact hlock
    worker_attempt := fun _ => h.worker_attempt hrunning
    entered := fun hyes => absurd hyes hstage
    quiet := fun hor => hor.elim hidles fun hyes => by rw [hcommitted] at hyes; cases hyes
    seen := fun hor => hor.elim hagrees fun hyes => by rw [hcommitted] at hyes; cases hyes
    committed_ends := fun hyes => by rw [hcommitted] at hyes; cases hyes
    success := fun hor => hor.elim (fun hyes => by change stage = _ at hyes; rw [hyes] at hto; cases hto)
      fun hyes => by rw [hcommitted] at hyes; cases hyes }

theorem Sound.uncommitted (h : s.Sound) (hends : s.worker.ends = false) : s.committed = false := by
  rw [Bool.eq_false_iff]
  intro hcommitted
  rw [(h.committed_ends hcommitted).1] at hends
  cases hends

/-- No watchdog is under the lock that the worker holds. -/
theorem Sound.watches_free (h : s.Sound) (hholds : s.worker.holds = true) (n : ℕ) : (s.watch n).watching.holds = false := by
  rw [Bool.eq_false_iff]
  intro hyes
  have hlock := h.worker_lock.mpr hholds
  rw [(h.watch_lock n).mpr hyes] at hlock
  cases hlock

/-- An exception under the lock. -/
theorem Sound.raises (h : s.Sound) (hholds : s.worker.holds = true) (reason : String) : (s.raises reason).Sound := by
  have hlock : s.lock = some .worker := h.worker_lock.mpr hholds
  have hrunning : s.worker ≠ .ended := by
    intro hended
    rw [hended] at hholds
    cases hholds
  have huncommitted : s.committed = false := h.uncommitted (by
    cases hworker : s.worker <;> rw [hworker] at hholds <;> first | rfl | cases hholds)
  exact { h with
    worker_lock := by simp [Service.raises,fails,Stage.holds]
    watch_lock := fun n => by
      have hother := h.watch_lock n
      rw [hlock] at hother
      simpa [Service.raises,fails] using hother
    worker_attempt := fun _ => h.worker_attempt hrunning
    entered := fun hyes => by cases hyes
    quiet := fun hor => hor.elim (fun hyes => by cases hyes) fun hyes => h.quiet (.inr hyes)
    seen := fun hor => hor.elim (fun hyes => by cases hyes) fun hyes => h.seen (.inr hyes)
    committed_ends := fun hyes => by
      change s.committed = true at hyes
      rw [huncommitted] at hyes
      cases hyes
    success := fun hor => hor.elim (fun hyes => by cases hyes) fun hyes => h.success (.inr hyes) }

theorem Sound.fails (h : s.Sound) (hholds : s.worker.holds = false) (hends : s.worker.ends = false) (reason : String) :
    (s.fails reason).Sound :=
  h.move _ (by simp) hholds rfl (fun hended => by rw [hended] at hends; cases hends) (h.uncommitted hends)
    (fun hyes => by cases hyes) fun hyes => by cases hyes

/-- What a watchdog, or its worker, notes in the watch. -/
theorem Sound.rewatch (h : s.Sound) {n : ℕ} {watch : Watch}
    (hholds : watch.watching.holds = (s.watch n).watching.holds)
    (hclears : watch.watching.clears = true → s.committed = false)
    (hentered : s.worker = .entered → n = s.attempt → watch.watching = .idle) : (s.watchdog n watch).Sound :=
  { h with
    watch_lock := forall_watchdog (P:=fun n watch => s.lock = some (.watchdog n) ↔ watch.watching.holds = true)
      (by rw [hholds]; exact h.watch_lock n) fun n _ => h.watch_lock n
    entered := fun hyes => forall_watchdog (P:=fun n watch => n = s.attempt → watch.watching = .idle) (hentered hyes)
      (fun n _ hn => by rw [hn]; exact h.entered hyes) s.attempt rfl
    cleared := forall_watchdog (P:=fun _ watch => watch.watching.clears = true → s.committed = false) hclears
      fun n _ => h.cleared n }

theorem Sound.enter (h : s.Sound) (hv : s.enter = some t) : t.Sound := by
  obtain ⟨hentered,rfl⟩ := allow_eq_some.mp hv
  have hcommitted : s.committed = false := h.uncommitted (by rw [hentered]; rfl)
  have hwaits := h.move .waiting (by simp) (by rw [hentered]; rfl) rfl (by rw [hentered]; simp) hcommitted
    (fun hyes => by cases hyes) fun hyes => by cases hyes
  have hmoved : { s with worker := .waiting, deadline := some (s.now+s.budget) }.Sound :=
    { hwaits with
      success := fun hor => hor.elim (fun hyes => by cases hyes) fun hyes => by
        change s.committed = true at hyes
        rw [hcommitted] at hyes
        cases hyes }
  exact hmoved.rewatch (by change _ = s.current.watching.holds; rw [h.entered hentered]; rfl) (fun hyes => by cases hyes)
    fun hyes => by cases hyes

theorem Sound.idled (h : s.Sound) (hv : s.idled = some t) : t.Sound := by
  obtain ⟨hwaiting,rfl⟩ := allow_eq_some.mp hv
  have hcommitted : s.committed = false := h.uncommitted (by rw [hwaiting]; rfl)
  have hrunning : s.worker ≠ .ended := by rw [hwaiting]; simp
  split
  · rename_i hidle
    exact h.move _ (by simp) (by rw [hwaiting]; rfl) rfl hrunning hcommitted
      (fun _ => World.quiet_of_idle h.world (of_decide_eq_true hidle)) fun hyes => by cases hyes
  · exact h.move _ (by simp) (by rw [hwaiting]; rfl) rfl hrunning hcommitted (fun hyes => by cases hyes) fun hyes => by cases hyes

theorem Sound.converged (h : s.Sound) {outcome : Except String (ServiceState × Option String)}
    (hv : s.converged outcome = some t) : t.Sound := by
  obtain ⟨hconverging,rfl⟩ := allow_eq_some.mp hv
  have hholds : s.worker.holds = false := by rw [hconverging]; rfl
  have hends : s.worker.ends = false := by rw [hconverging]; rfl
  split
  · exact h.fails hholds hends _
  · split
    · exact h.fails hholds hends _
    · split
      · exact h.fails hholds hends _
      · exact h.move _ (by simp) hholds rfl (by rw [hconverging]; simp) (h.uncommitted hends)
          (fun _ => h.quiet (.inl (by rw [hconverging]; rfl))) fun hyes => by cases hyes

theorem Sound.snapshot (h : s.Sound) (hv : s.snapshot = some t) : t.Sound := by
  obtain ⟨hchecking,rfl⟩ := allow_eq_some.mp hv
  have hholds : s.worker.holds = false := by rw [hchecking]; rfl
  have hends : s.worker.ends = false := by rw [hchecking]; rfl
  have hrunning : s.worker ≠ .ended := by rw [hchecking]; simp
  split
  · rename_i hreleased
    have hseen : { s with seen := some (s.attempt,s.world.coordinator) }.Sound :=
      { h with seen := fun _ => ⟨_,rfl,hreleased,h.draining (h.worker_attempt hrunning)⟩ }
    exact hseen.move _ (by simp) hholds rfl hrunning (h.uncommitted hends) (fun _ => h.quiet (.inl (by rw [hchecking]; rfl)))
      fun _ => ⟨_,rfl,hreleased,h.draining (h.worker_attempt hrunning)⟩
  · exact h.fails hholds hends _

/-- A worker that goes on under the lock. -/
theorem Sound.hold (h : s.Sound) (stage : Stage) (ready : Bool) (hlock : s.lock = none ∨ s.lock = some .worker) (hto : stage.holds = true)
    (hfrom : s.worker.agrees = true)
    (hsuccess : stage = .written → s.result = ⟨s.attempt,.succeeded,none,s.deadline⟩) :
    { s with lock := some .worker, ready := ready, worker := stage }.Sound := by
  have hends : s.worker.ends = false := Stage.not_ends_of_idles (Stage.idles_of_agrees hfrom)
  have hcommitted := h.uncommitted hends
  exact { h with
    worker_lock := by simp [hto]
    watch_lock := fun n => by
      have hold := h.watch_lock n
      rcases hlock with hlock | hlock <;> rw [hlock] at hold <;> simpa using hold
    worker_attempt := fun _ => h.worker_attempt fun hended => by rw [hended] at hends; cases hends
    entered := fun hyes => by
      change stage = _ at hyes
      rw [hyes] at hto
      cases hto
    quiet := fun _ => h.quiet (.inl (Stage.idles_of_agrees hfrom))
    seen := fun _ => h.seen (.inl hfrom)
    committed_ends := fun hyes => by
      change s.committed = true at hyes
      rw [hcommitted] at hyes
      cases hyes
    success := fun hor => hor.elim hsuccess fun hyes => by
      change s.committed = true at hyes
      rw [hcommitted] at hyes
      cases hyes }

theorem Sound.acquire (h : s.Sound) (hv : s.acquire = some t) : t.Sound := by
  obtain ⟨⟨hagreed,hlock⟩,rfl⟩ := allow_eq_some.mp hv
  split
  · exact h.fails (by rw [hagreed]; rfl) (by rw [hagreed]; rfl) _
  · exact h.hold _ _ (.inl hlock) rfl (by rw [hagreed]; rfl) fun hyes => by cases hyes

theorem Sound.published (h : s.Sound) {outcome : Except String Unit} (hv : s.published outcome = some t) : t.Sound := by
  obtain ⟨hpublishing,rfl⟩ := allow_eq_some.mp hv
  have hholds : s.worker.holds = true := by rw [hpublishing]; rfl
  have hlock : s.lock = some .worker := h.worker_lock.mpr hholds
  split
  · exact h.raises hholds _
  · split
    · exact h.raises hholds _
    · have hheld := h.hold .writing s.ready (.inr hlock) rfl (by rw [hpublishing]; rfl) fun hyes => by cases hyes
      rw [← hlock] at hheld
      exact hheld

theorem Sound.write (h : s.Sound) (phase : Phase) (reason : Option String)
    (hsuccess : s.worker = .written ∨ s.committed = true → phase = .succeeded ∧ reason = none) : (s.write phase reason).Sound :=
  { h with
    success := fun hor => by
      obtain ⟨rfl,rfl⟩ := hsuccess hor
      rfl }

theorem Sound.writeSuccess (h : s.Sound) {outcome : Except String Unit} (hv : s.writeSuccess outcome = some t) : t.Sound := by
  obtain ⟨hwriting,rfl⟩ := allow_eq_some.mp hv
  have hholds : s.worker.holds = true := by rw [hwriting]; rfl
  have hlock : s.lock = some .worker := h.worker_lock.mpr hholds
  split
  · exact h.raises hholds _
  · have hheld := (h.write .succeeded none fun _ => ⟨rfl,rfl⟩).hold .written s.ready
      (.inr hlock) rfl (by change s.worker.agrees = true; rw [hwriting]; rfl) fun _ => rfl
    change ({ (s.write .succeeded none) with lock := some .worker, worker := .written } : Service).Sound at hheld
    rw [← hlock] at hheld
    exact hheld

theorem Sound.commit (h : s.Sound) (hv : s.commit = some t) : t.Sound := by
  obtain ⟨hwritten,rfl⟩ := allow_eq_some.mp hv
  have hholds : s.worker.holds = true := by rw [hwritten]; rfl
  have hattempt : s.attempt ≠ 0 := h.worker_attempt (by rw [hwritten]; simp)
  have hfree : ∀ n, (s.watch n).watching.holds = false := h.watches_free hholds
  split
  · exact h.raises hholds _
  · have hnoted : (s.watchdog s.attempt { s.current with complete := true }).Sound := h.rewatch rfl (h.cleared s.attempt)
      fun hyes => by rw [hwritten] at hyes; cases hyes
    exact { hnoted with
      worker_lock := by simp [Stage.holds]
      watch_lock := forall_watchdog (P:=fun n watch => none = some (Owner.watchdog n) ↔ watch.watching.holds = true)
        (by simpa [current] using hfree s.attempt) fun n _ => by simpa using hfree n
      worker_attempt := fun _ => hattempt
      entered := fun hyes => by cases hyes
      quiet := fun _ => h.quiet (.inl (by rw [hwritten]; rfl))
      seen := fun _ => h.seen (.inl (by rw [hwritten]; rfl))
      committed_ends := fun _ => ⟨rfl,hattempt⟩
      cleared := forall_watchdog (P:=fun _ watch => watch.watching.clears = true → true = false)
        (fun hyes => (Watching.holds_of_clears hyes).symm.trans (hfree s.attempt))
        fun n _ hyes => (Watching.holds_of_clears hyes).symm.trans (hfree n)
      success := fun _ => h.success (.inl hwritten) }

theorem Sound.clear (h : s.Sound) {failure : Failure} (hv : s.clear failure = some t) : t.Sound := by
  obtain ⟨hfailing,rfl⟩ := allow_eq_some.mp hv
  have hcommitted : s.committed = false := h.uncommitted (by rw [hfailing]; rfl)
  have hmoved := h.move (.cleared failure) (by simp) (by rw [hfailing]; rfl) rfl (by rw [hfailing]; simp) hcommitted
    (fun hyes => by cases hyes) fun hyes => by cases hyes
  change ({ s with ready := false, committed := false, worker := .cleared failure } : Service).Sound
  rw [← hcommitted]
  exact { hmoved with }

theorem Sound.tell (h : s.Sound) {failure : Failure} (hv : s.tell failure = some t) : t.Sound := by
  obtain ⟨hcleared,rfl⟩ := allow_eq_some.mp hv
  exact (h.call (.failControlledExit failure.reason) (by simp)).move _ (by simp) (by change s.worker.holds = false; rw [hcleared]; rfl)
    rfl (by change s.worker ≠ .ended; rw [hcleared]; simp) (h.uncommitted (by rw [hcleared]; rfl))
    (fun hyes => by cases hyes) fun hyes => by cases hyes

theorem Sound.report (h : s.Sound) {failure : Failure} {writes : Bool} (hv : s.report failure writes = some t) : t.Sound := by
  obtain ⟨⟨htold,-⟩,rfl⟩ := allow_eq_some.mp hv
  have hcommitted : s.committed = false := h.uncommitted (by rw [htold]; rfl)
  have hrunning : s.worker ≠ .ended := by rw [htold]; simp
  have hholds : s.worker.holds = false := by rw [htold]; rfl
  have hmoved : ∀ stage : Stage, stage.ends = true → { s with worker := stage }.Sound := fun stage hends =>
    h.move _ (by rintro rfl; cases hends) hholds (Stage.not_holds_of_ends hends) hrunning hcommitted
      (fun hyes => by cases hyes.symm.trans (Stage.not_idles_of_ends hends))
      fun hyes => by cases hyes.symm.trans (Stage.not_agrees_of_ends hends)
  split
  · have hwritten := (hmoved .leaving rfl).write .failed (some failure.reason) fun hor => by
      rcases hor with hyes | hyes
      · cases hyes
      · change s.committed = true at hyes
        rw [hcommitted] at hyes
        cases hyes
    exact { hwritten with }
  · split
    · exact { hmoved .leaving rfl with }
    · exact { hmoved .ended rfl with }

theorem Sound.leave (h : s.Sound) (hv : s.leave = some t) : t.Sound := by
  obtain ⟨hleaving,rfl⟩ := allow_eq_some.mp hv
  have hended : { s with worker := .ended }.Sound :=
    { h with
      worker_lock := by
        have hlock := h.worker_lock
        rw [hleaving] at hlock
        exact hlock
      worker_attempt := fun hne => absurd rfl hne
      entered := fun hyes => by cases hyes
      quiet := fun hor => hor.elim (fun hyes => by cases hyes) fun hyes => h.quiet (.inr hyes)
      seen := fun hor => hor.elim (fun hyes => by cases hyes) fun hyes => h.seen (.inr hyes)
      committed_ends := fun hyes => ⟨rfl,(h.committed_ends hyes).2⟩
      success := fun hor => hor.elim (fun hyes => by cases hyes) fun hyes => h.success (.inr hyes) }
  refine hended.rewatch ?_ (fun hyes => h.cleared s.attempt ?_) fun hyes => by cases hyes
  · change _ = s.current.watching.holds
    split
    · rename_i harmed
      rw [harmed]
      rfl
    · rfl
  · change s.current.watching.clears = true
    dsimp only at hyes
    split at hyes
    · cases hyes
    · exact hyes

/-- A watchdog gives the lock back. -/
theorem Sound.unseize (h : s.Sound) {n : ℕ} {watch : Watch} (hlock : s.lock = some (.watchdog n))
    (hwatch : watch.watching.holds = false) (hentered : s.worker = .entered → n = s.attempt → watch.watching = .idle) :
    { s.watchdog n watch with ready := false, lock := none }.Sound :=
  { h with
    worker_lock := by
      have hold := h.worker_lock
      rw [hlock] at hold
      change none = some Owner.worker ↔ s.worker.holds = true
      simpa using hold
    watch_lock := forall_watchdog (P:=fun n watch => none = some (Owner.watchdog n) ↔ watch.watching.holds = true)
      (by simp [hwatch]) fun m hm => by
        have hold := h.watch_lock m
        rw [hlock] at hold
        simpa [Ne.symm hm] using hold
    entered := fun hyes => forall_watchdog (P:=fun n watch => n = s.attempt → watch.watching = .idle) (hentered hyes)
      (fun n _ hn => by rw [hn]; exact h.entered hyes) s.attempt rfl
    cleared := forall_watchdog (P:=fun _ watch => watch.watching.clears = true → s.committed = false)
      (fun hyes => by cases (Watching.holds_of_clears hyes).symm.trans hwatch)
      fun n _ => h.cleared n }

/-- A watchdog that is not idle is not the one of an attempt whose worker has just begun. -/
theorem Sound.idle_of_entered (h : s.Sound) {n : ℕ} (hn : (s.watch n).watching ≠ .idle) (hentered : s.worker = .entered) :
    n ≠ s.attempt := by
  rintro rfl
  exact hn (h.entered hentered)

theorem Sound.fire (h : s.Sound) {n : ℕ} (hv : s.fire n = some t) : t.Sound := by
  obtain ⟨⟨harmed,-⟩,rfl⟩ := allow_eq_some.mp hv
  exact h.rewatch (by rw [harmed]; rfl) (fun hyes => by cases hyes) fun hentered hn =>
    absurd hn (h.idle_of_entered (by rw [harmed]; simp) hentered)

theorem Sound.seize (h : s.Sound) {n : ℕ} (hv : s.seize n = some t) : t.Sound := by
  obtain ⟨⟨hfired,hlock⟩,rfl⟩ := allow_eq_some.mp hv
  have hentered : s.worker = .entered → n ≠ s.attempt := h.idle_of_entered (by rw [hfired]; simp)
  split
  · exact h.rewatch (by rw [hfired]; rfl) (fun hyes => by cases hyes) fun hyes hn => absurd hn (hentered hyes)
  · obtain ⟨hworker,hfree⟩ := h.free hlock
    exact { h with
      worker_lock := by
        change some (Owner.watchdog n) = some Owner.worker ↔ s.worker.holds = true
        simp [hworker]
      watch_lock := forall_watchdog (P:=fun m watch => some (Owner.watchdog n) = some (.watchdog m) ↔ watch.watching.holds = true)
        (by simp [Watching.holds]) fun m hm => by simp [hfree m,Ne.symm hm]
      entered := fun hyes => forall_watchdog (P:=fun n watch => n = s.attempt → watch.watching = .idle)
        (fun hn => absurd hn (hentered hyes)) (fun n _ hn => by rw [hn]; exact h.entered hyes) s.attempt rfl
      cleared := forall_watchdog (P:=fun _ watch => watch.watching.clears = true → s.committed = false)
        (fun hyes => by cases hyes) fun n _ => h.cleared n }

/-- The flags of a success are taken back. -/
theorem Sound.reset (h : s.Sound) (hfree : s.worker.holds = false) : { s with ready := false, committed := false }.Sound :=
  { h with
    quiet := fun hor => hor.elim (fun hyes => h.quiet (.inl hyes)) fun hyes => by cases hyes
    seen := fun hor => hor.elim (fun hyes => h.seen (.inl hyes)) fun hyes => by cases hyes
    committed_ends := fun hyes => by cases hyes
    cleared := fun _ _ => rfl
    success := fun hor => hor.elim (fun hyes => by
      change s.worker = _ at hyes
      rw [hyes] at hfree
      cases hfree) fun hyes => by cases hyes }

theorem Sound.seized (h : s.Sound) {n : ℕ} (hholds : (s.watch n).watching.holds = true) :
    s.lock = some (.watchdog n) ∧ s.worker.holds = false := by
  have hlock := (h.watch_lock n).mpr hholds
  refine ⟨hlock,Bool.eq_false_iff.mpr fun hyes => ?_⟩
  rw [h.worker_lock.mpr hyes] at hlock
  cases hlock

theorem Sound.watchClear (h : s.Sound) {n : ℕ} (hv : s.watchClear n = some t) : t.Sound := by
  obtain ⟨hseized,rfl⟩ := allow_eq_some.mp hv
  have hworker := (h.seized (n:=n) (by rw [hseized]; rfl)).2
  exact (h.reset hworker).rewatch (by change _ = (s.watch n).watching.holds; rw [hseized]; rfl) (fun _ => rfl)
    fun hentered hn => absurd hn (h.idle_of_entered (by rw [hseized]; simp) hentered)

theorem Sound.watchTell (h : s.Sound) {n : ℕ} (hv : s.watchTell n = some t) : t.Sound := by
  obtain ⟨hcleared,rfl⟩ := allow_eq_some.mp hv
  exact (h.call (.failControlledExit exhausted) (by simp)).rewatch
    (by change _ = (s.watch n).watching.holds; rw [hcleared]; rfl) (fun _ => h.cleared n (by rw [hcleared]; rfl))
    fun hentered hn => absurd hn (h.idle_of_entered (by rw [hcleared]; simp) hentered)

theorem Sound.watchReport (h : s.Sound) {n : ℕ} {writes : Bool} (hv : s.watchReport n writes = some t) : t.Sound := by
  obtain ⟨htold,rfl⟩ := allow_eq_some.mp hv
  obtain ⟨hlock,hworker⟩ := h.seized (n:=n) (by rw [htold]; rfl)
  have hcommitted : s.committed = false := h.cleared n (by rw [htold]; rfl)
  have hentered : s.worker = .entered → n = s.attempt → Watching.done = .idle := fun hyes hn =>
    absurd hn (h.idle_of_entered (by rw [htold]; simp) hyes)
  cases writes with
  | true =>
    refine (h.write .failed (some exhausted) fun hor => ?_).unseize hlock rfl hentered
    rcases hor with hyes | hyes
    · rw [hyes] at hworker
      cases hworker
    · rw [hcommitted] at hyes
      cases hyes
  | false => exact h.unseize hlock rfl hentered

theorem Sound.step (h : s.Sound) (hv : s.step e = some t) : t.Sound := by
  cases e with
  | request writes => exact h.request hv
  | svcStop =>
    cases hv
    exact h.svcStop
  | enter => exact h.enter hv
  | idled => exact h.idled hv
  | converged outcome => exact h.converged hv
  | snapshot => exact h.snapshot hv
  | acquire => exact h.acquire hv
  | published outcome => exact h.published hv
  | writeSuccess outcome => exact h.writeSuccess hv
  | commit => exact h.commit hv
  | clear failure => exact h.clear hv
  | tell failure => exact h.tell hv
  | report failure writes => exact h.report hv
  | leave => exact h.leave hv
  | fire n => exact h.fire hv
  | seize n => exact h.seize hv
  | watchClear n => exact h.watchClear hv
  | watchTell n => exact h.watchTell hv
  | watchReport n writes => exact h.watchReport hv
  | coordinator event =>
    obtain ⟨w,hw,rfl⟩ := Option.map_eq_some_iff.mp hv
    exact h.world_step hw
  | tick passed =>
    cases hv
    exact { h with }

theorem Reachable.sound (h : s.Reachable) : s.Sound := by
  obtain ⟨budget,hreaches⟩ := h
  exact hreaches.invariant (sound_start budget) fun _ _ _ => Sound.step

/-- Whenever a stop is authorised, in whatever order the worker, the watchdogs, the handlers and the clients
came: the published report says that the current attempt succeeded, its worker saw a stopped coordinator
without a run or a controller, no mutation of a client is in flight and none is taken. -/
theorem stop_authorized_sound (h : s.Reachable) (ha : s.stopAuthorized = true) :
    s.result = ⟨s.attempt,.succeeded,none,s.deadline⟩ ∧ s.result.validSuccess s.now = true ∧
      (∃ c, s.seen = some (s.attempt,c) ∧ released c = true ∧ c.draining = true) ∧
      (∀ op ∈ s.world.inflight, op.request.internal = true) ∧
      ∀ q, q.internal = false → (s.world.coordinator.submit q).1 = .rejected .controlledShutdown := by
  have hsound := h.sound
  simp only [stopAuthorized,Bool.and_eq_true] at ha
  have hresult := hsound.success (.inr ha.1.2)
  refine ⟨hresult,?_,hsound.seen (.inr ha.1.2),hsound.quiet (.inr ha.1.2),fun q hq => ?_⟩
  · rw [hresult,Report.validSuccess]
    simp [ha.2]
  · exact Coordinator.submit_draining (hsound.draining (hsound.committed_ends ha.1.2).2) hq

/-- An attempt without any trouble, up to its commit. -/
def cleanAttempt : List Event :=
  [.request true,.enter,.idled,.converged (.ok (.stopped,none)),.snapshot,.acquire,.published (.ok ()),
    .writeSuccess (.ok ()),.commit]

theorem cleanAttempt_runs : (run step (start 480) cleanAttempt).isSome = true := by decide

def succeeded : Service := (run step (start 480) cleanAttempt).get cleanAttempt_runs

theorem stop_authorized_sound_clean :
    succeeded.result = ⟨succeeded.attempt,.succeeded,none,succeeded.deadline⟩ ∧
      succeeded.result.validSuccess succeeded.now = true ∧
      (∃ c, succeeded.seen = some (succeeded.attempt,c) ∧ released c = true ∧ c.draining = true) ∧
      (∀ op ∈ succeeded.world.inflight, op.request.internal = true) ∧
      ∀ q, q.internal = false → (succeeded.world.coordinator.submit q).1 = .rejected .controlledShutdown :=
  stop_authorized_sound ⟨480,cleanAttempt,(Option.some_get cleanAttempt_runs).symm⟩ (by decide)

end Service
end ServiceStop
end FakeNetNG
