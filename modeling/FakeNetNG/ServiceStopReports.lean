import FakeNetNG.ServiceStopRuns

/-!
# The reports of a service stop

Which report of an attempt is its last word, where every failure of an attempt can be reported. The watchdog
of an attempt whose failure was lost outlives it and fails a later one.
-/

namespace FakeNetNG
namespace ServiceStop

open Coordination GuardedSteps

/-- The only report that must not get lost is the one of operations that were still in flight. -/
def Event.Reported : Event → Prop
  | .report failure writes => failure.handled = true ∨ writes = true
  | _ => True

/-- How a report may come after another one: it starts or ends a later attempt, or it ends the same attempt,
which stays failed once it has failed. -/
def Report.Follows (r r' : Report) : Prop :=
  r.attempt ≤ r'.attempt ∧ (r.attempt = r'.attempt → r'.phase ≠ .draining ∧ (r.phase = .failed → r'.phase = .failed))

/-- The worker is on its way out, or has gone. -/
def Stage.fails : Stage → Bool
  | .failing _ | .cleared _ | .told _ | .leaving | .ended => true
  | _ => false

/-- Nothing more comes from the watchdog. -/
def Watch.Rests (watch : Watch) : Prop := watch.complete = true ∨ watch.watching = .idle ∨ watch.watching = .done

namespace Service

variable {s t : Service} {e : Event}

/-- The current attempt has failed. -/
def Failed (s : Service) : Prop := ∃ r ∈ s.written, r.attempt = s.attempt ∧ r.phase = .failed

/-- Only the watchdog of the current attempt can still fail something, and an attempt that has failed cannot
publish a success any more. -/
structure Settled (s : Service) : Prop where
  fresh : ∀ n, s.attempt < n → (s.watch n).watching = .idle
  rests : ∀ n, n ≠ s.attempt ∨ s.worker = .ended → (s.watch n).Rests
  held : ∀ n, (s.watch n).watching.holds = true → n = s.attempt
  expired : ∀ n, (s.watch n).watching = .fired ∨ (s.watch n).watching.holds = true → (s.watch n).expired = true
  sealed : s.committed = true → s.current.complete = true ∧ ∀ n, (s.watch n).watching.holds = false
  failed : s.Failed → s.committed = false ∧ s.worker.holds = false ∧ (s.current.expired = true ∨ s.worker.fails = true)
  written_le : ∀ r ∈ s.written, r.attempt ≤ s.attempt
  order : s.written.Pairwise Report.Follows
  pending : s.stopPending = true → s.committed = true
  last : s.written.getLast? = some s.result

theorem settled_start (budget : ℕ) : (start budget).Settled := by
  constructor <;> simp [start,Watch.Rests,Watching.holds,Failed]

theorem Settled.write (h : s.Settled) (phase : Phase) (reason : Option String)
    (hphase : phase ≠ .draining) (hfailed : s.Failed → phase = .failed)
    (hnew : phase = .failed → s.committed = false ∧ s.worker.holds = false ∧ (s.current.expired = true ∨ s.worker.fails = true)) :
    (s.write phase reason).Settled :=
  { h with
    failed := by
      rintro ⟨r,hr,hattempt,hr'⟩
      obtain hr | hr := List.mem_append.mp hr
      · exact h.failed ⟨r,hr,hattempt,hr'⟩
      · rw [List.mem_singleton.mp hr] at hr'
        exact hnew hr'
    written_le := fun r hr => by
      obtain hr | hr := List.mem_append.mp hr
      · exact h.written_le r hr
      · rw [List.mem_singleton.mp hr]
        exact le_rfl
    order := List.pairwise_append.mpr ⟨h.order,List.pairwise_singleton _ _,fun r hr r' hr' => by
      rw [List.mem_singleton.mp hr']
      exact ⟨h.written_le r hr,fun hsame => ⟨hphase,fun hr' => hfailed ⟨r,hr,hsame,hr'⟩⟩⟩⟩
    last := List.getLast?_concat }

theorem Settled.move (h : s.Settled) (stage : Stage) (hholds : stage.holds = false) (hended : stage ≠ .ended)
    (hfails : s.worker.fails = true → stage.fails = true) : { s with worker := stage }.Settled :=
  { h with
    rests := fun n hor => h.rests n (.inl (hor.resolve_right hended))
    failed := fun hfailed => by
      obtain ⟨hcommitted,-,hor⟩ := h.failed hfailed
      exact ⟨hcommitted,hholds,hor.imp_right hfails⟩ }

/-- A worker that is not on its way out goes on to its next call. -/
theorem Settled.proceed (h : s.Settled) (stage : Stage) (hfrom : s.worker.fails = false) (hholds : stage.holds = false)
    (hended : stage ≠ .ended) : { s with worker := stage }.Settled :=
  h.move stage hholds hended fun hyes => by cases hfrom.symm.trans hyes

theorem Settled.fails (h : s.Settled) (reason : String) : (s.fails reason).Settled := h.move _ rfl (by simp) fun _ => rfl

theorem Settled.raises (h : s.Settled) (reason : String) : (s.raises reason).Settled := { h.fails reason with }

theorem Settled.rewatch (h : s.Settled) {n : ℕ} {watch : Watch} (hfresh : s.attempt < n → watch.watching = .idle)
    (hrests : n ≠ s.attempt ∨ s.worker = .ended → watch.Rests)
    (hheld : watch.watching.holds = true → n = s.attempt ∧ s.committed = false)
    (hexpired : watch.watching = .fired ∨ watch.watching.holds = true → watch.expired = true)
    (hkeeps : (s.watch n).expired = true → watch.expired = true)
    (hcomplete : (s.watch n).complete = true → watch.complete = true) : (s.watchdog n watch).Settled := by
  have hcurrent : ∀ P : Watch → Prop, (n = s.attempt → P watch) → P s.current → P (s.watchdog n watch).current :=
    fun P hwatch hold => forall_watchdog (P:=fun m watch => m = s.attempt → P watch) hwatch
      (fun m _ hm => by rw [hm]; exact hold) s.attempt rfl
  exact { h with
    fresh := forall_watchdog (P:=fun n watch => s.attempt < n → watch.watching = .idle) hfresh fun m _ => h.fresh m
    rests := forall_watchdog (P:=fun n watch => n ≠ s.attempt ∨ s.worker = .ended → watch.Rests) hrests fun m _ => h.rests m
    held := forall_watchdog (P:=fun n watch => watch.watching.holds = true → n = s.attempt) (fun hyes => (hheld hyes).1)
      fun m _ => h.held m
    expired := forall_watchdog (P:=fun _ watch => watch.watching = .fired ∨ watch.watching.holds = true → watch.expired = true)
      hexpired fun m _ => h.expired m
    sealed := fun hcommitted => by
      obtain ⟨hdone,hfree⟩ := h.sealed hcommitted
      refine ⟨hcurrent (fun watch => watch.complete = true) (fun hn => hcomplete (by rw [hn]; exact hdone)) hdone,
        forall_watchdog (P:=fun _ watch => watch.watching.holds = false) ?_ fun m _ => hfree m⟩
      rw [Bool.eq_false_iff]
      intro hyes
      change s.committed = true at hcommitted
      rw [(hheld hyes).2] at hcommitted
      cases hcommitted
    failed := fun hfailed => by
      obtain ⟨hcommitted,hholds,hor⟩ := h.failed hfailed
      refine ⟨hcommitted,hholds,hor.imp_left fun hold => ?_⟩
      exact hcurrent (fun watch => watch.expired = true) (fun hn => hkeeps (by rw [hn]; exact hold)) hold }

theorem Settled.rewatch_free (h : s.Settled) {n : ℕ} {watch : Watch} (hfresh : s.attempt < n → watch.watching = .idle)
    (hrests : n ≠ s.attempt ∨ s.worker = .ended → watch.Rests) (hfree : watch.watching.holds = false)
    (hexpired : watch.watching = .fired → watch.expired = true) (hkeeps : (s.watch n).expired = true → watch.expired = true)
    (hcomplete : (s.watch n).complete = true → watch.complete = true) : (s.watchdog n watch).Settled :=
  h.rewatch hfresh hrests (fun hyes => by cases hyes.symm.trans hfree)
    (fun hor => hor.elim hexpired fun hyes => by cases hyes.symm.trans hfree) hkeeps hcomplete

theorem Settled.request (h : s.Settled) (hs : s.Sound) {writes : Bool} (hv : s.request writes = some t) : t.Settled := by
  obtain ⟨⟨hlock,hpending⟩,rfl⟩ := allow_eq_some.mp hv
  split
  · exact h
  · rename_i hgo
    have hended : s.worker = .ended := by
      by_contra hne
      exact hgo (.inr (.inl hne))
    have hfree := (hs.free hlock).2
    have hold : ∀ r ∈ s.written, r.attempt ≠ s.attempt+1 := fun r hr => by
      have hle := h.written_le r hr
      omega
    dsimp only
    split
    · exact { h with
        fresh := forall_watchdog (P:=fun n watch => s.attempt+1 < n → watch.watching = .idle) (fun _ => rfl)
          fun n _ hn => h.fresh n (by omega)
        rests := forall_watchdog (P:=fun n watch => n ≠ s.attempt+1 ∨ Stage.entered = .ended → watch.Rests)
          (fun _ => .inr (.inl rfl)) fun n _ _ => h.rests n (.inr hended)
        held := forall_watchdog (P:=fun n watch => watch.watching.holds = true → n = s.attempt+1) (fun _ => rfl)
          fun n _ hyes => by cases hyes.symm.trans (hfree n)
        expired := forall_watchdog (P:=fun _ watch => watch.watching = .fired ∨ watch.watching.holds = true → watch.expired = true)
          (by simp [Watching.holds]) fun n _ => h.expired n
        sealed := fun hyes => by cases hyes
        failed := by
          rintro ⟨r,hr,hattempt,hfailed⟩
          obtain hr | hr := List.mem_append.mp hr
          · exact absurd hattempt (hold r hr)
          · rw [List.mem_singleton.mp hr] at hfailed
            cases hfailed
        written_le := fun r hr => by
          obtain hr | hr := List.mem_append.mp hr
          · exact (h.written_le r hr).trans (Nat.le_succ _)
          · rw [List.mem_singleton.mp hr]
            exact le_rfl
        order := List.pairwise_append.mpr ⟨h.order,List.pairwise_singleton _ _,fun r hr r' hr' => by
          rw [List.mem_singleton.mp hr']
          exact ⟨(h.written_le r hr).trans (Nat.le_succ _),fun hsame => absurd hsame (hold r hr)⟩⟩
        pending := fun hyes => by cases hyes.symm.trans hpending
        last := List.getLast?_concat }
    · exact { h with
        fresh := fun n hn => h.fresh n ((Nat.lt_succ_self _).trans hn)
        rests := fun n _ => h.rests n (.inr hended)
        held := fun n hyes => by cases hyes.symm.trans (hfree n)
        sealed := fun hyes => by cases hyes
        failed := by
          rintro ⟨r,hr,hattempt,-⟩
          exact absurd hattempt (hold r hr)
        written_le := fun r hr => (h.written_le r hr).trans (Nat.le_succ _)
        pending := fun hyes => by cases hyes.symm.trans hpending }

theorem Settled.enter (h : s.Settled) (hv : s.enter = some t) : t.Settled := by
  obtain ⟨hentered,rfl⟩ := allow_eq_some.mp hv
  have hmoved := h.proceed .waiting (by rw [hentered]; rfl) rfl (by simp)
  have hwatched : ({ s with worker := .waiting : Service }.watchdog s.attempt
      { s.current with deadline := s.now+s.budget, watching := .armed }).Settled := hmoved.rewatch_free
    (fun hlt => absurd hlt (lt_irrefl _)) (fun hor => hor.elim (absurd rfl) fun hyes => by cases hyes) rfl
    (fun hyes => by cases hyes) id id
  exact { hwatched with }

theorem Settled.hold (h : s.Settled) (stage : Stage) (hended : stage ≠ .ended) (hopen : ¬ s.Failed) :
    { s with worker := stage }.Settled :=
  { h with
    rests := fun n hor => h.rests n (.inl (hor.resolve_right hended))
    failed := fun hfailed => absurd hfailed hopen }

theorem Settled.not_failed (h : s.Settled) (hholds : s.worker.holds = true) : ¬ s.Failed := fun hfailed => by
  cases hholds.symm.trans (h.failed hfailed).2.1

theorem Settled.acquire (h : s.Settled) (hv : s.acquire = some t) : t.Settled := by
  obtain ⟨⟨hagreed,-⟩,rfl⟩ := allow_eq_some.mp hv
  split
  · exact h.fails _
  · rename_i htime
    have hopen : ¬ s.Failed := fun hfailed => by
      obtain ⟨-,-,hexpired | hfails⟩ := h.failed hfailed
      · exact htime (by rw [late,hexpired]; rfl)
      · rw [hagreed] at hfails
        cases hfails
    have hheld := h.hold .publishing (by simp) hopen
    exact { hheld with }

theorem Settled.published (h : s.Settled) {outcome : Except String Unit} (hv : s.published outcome = some t) : t.Settled := by
  obtain ⟨hpublishing,rfl⟩ := allow_eq_some.mp hv
  split
  · exact h.raises _
  · split
    · exact h.raises _
    · exact h.hold _ (by simp) (h.not_failed (by rw [hpublishing]; rfl))

theorem Settled.writeSuccess (h : s.Settled) {outcome : Except String Unit} (hv : s.writeSuccess outcome = some t) :
    t.Settled := by
  obtain ⟨hwriting,rfl⟩ := allow_eq_some.mp hv
  split
  · exact h.raises _
  · have hopen := h.not_failed (by rw [hwriting]; rfl)
    have hwritten := h.write .succeeded none (by simp) (fun hfailed => absurd hfailed hopen)
      fun hyes => by cases hyes
    exact hwritten.hold _ (by simp) (hwritten.not_failed (by change s.worker.holds = true; rw [hwriting]; rfl))

theorem Settled.commit (h : s.Settled) (hs : s.Sound) (hv : s.commit = some t) : t.Settled := by
  obtain ⟨hwritten,rfl⟩ := allow_eq_some.mp hv
  have hfree : ∀ n, (s.watch n).watching.holds = false := hs.watches_free (by rw [hwritten]; rfl)
  split
  · exact h.raises _
  · have hnoted : (s.watchdog s.attempt { s.current with complete := true }).Settled := h.rewatch_free
      (fun hlt => absurd hlt (lt_irrefl _)) (fun _ => .inl rfl) (hfree s.attempt)
      (fun hyes => h.expired s.attempt (.inl hyes)) id fun _ => rfl
    exact { hnoted with
      rests := fun n hor => hnoted.rests n (.inl (hor.resolve_right (by simp)))
      sealed := fun _ => ⟨by simp [current,watchdog],
        forall_watchdog (P:=fun _ watch => watch.watching.holds = false) (hfree s.attempt) fun n _ => hfree n⟩
      failed := fun hfailed => by
        have hholds := (h.failed hfailed).2.1
        rw [hwritten] at hholds
        cases hholds
      pending := fun _ => rfl }

theorem Settled.report (h : s.Settled) (hs : s.Sound) {failure : Failure} {writes : Bool}
    (hreported : failure.handled = true ∨ writes = true) (hv : s.report failure writes = some t) : t.Settled := by
  obtain ⟨⟨htold,-⟩,rfl⟩ := allow_eq_some.mp hv
  have hcommitted : s.committed = false := hs.uncommitted (by rw [htold]; rfl)
  have hleaves := h.move .leaving rfl (by simp) fun _ => rfl
  split
  · have hwritten := hleaves.write .failed (some failure.reason) (by simp) (fun _ => rfl)
      fun _ => ⟨hcommitted,rfl,.inr rfl⟩
    exact { hwritten with }
  · rename_i hlost
    rw [if_pos (hreported.resolve_right hlost)]
    exact { hleaves with }

/-- A watchdog under the lock belongs to an attempt that has not succeeded. -/
theorem Settled.uncommitted (h : s.Settled) {n : ℕ} (hholds : (s.watch n).watching.holds = true) :
    n = s.attempt ∧ s.committed = false :=
  ⟨h.held n hholds,Bool.eq_false_iff.mpr fun hcommitted => by
    cases hholds.symm.trans ((h.sealed hcommitted).2 n)⟩

theorem Settled.leave (h : s.Settled) (hv : s.leave = some t) : t.Settled := by
  obtain ⟨hleaving,rfl⟩ := allow_eq_some.mp hv
  have hnoted : (s.watchdog s.attempt { s.current with
      complete := true, watching := if s.current.watching = .armed then .done else s.current.watching }).Settled := by
    refine h.rewatch (fun hlt => absurd hlt (lt_irrefl _)) (fun _ => .inl rfl) (fun hyes => h.uncommitted ?_)
      (fun hyes => h.expired s.attempt ?_) id fun _ => rfl
    · change s.current.watching.holds = true
      dsimp only at hyes
      split at hyes
      · cases hyes
      · exact hyes
    · change s.current.watching = .fired ∨ s.current.watching.holds = true
      dsimp only at hyes
      split at hyes
      · rcases hyes with hyes | hyes <;> cases hyes
      · exact hyes
  exact { hnoted with
    rests := forall_watchdog (P:=fun n watch => n ≠ s.attempt ∨ Stage.ended = .ended → watch.Rests)
      (fun _ => .inl rfl) fun n hn _ => h.rests n (.inl hn)
    failed := fun hfailed => by
      obtain ⟨hcommitted,-,-⟩ := h.failed hfailed
      exact ⟨hcommitted,rfl,.inr rfl⟩ }

/-- A watchdog that is under way belongs to the current attempt. -/
theorem Settled.current_of_active (h : s.Settled) {n : ℕ} (hidle : (s.watch n).watching ≠ .idle) : ¬ s.attempt < n :=
  fun hlt => hidle (h.fresh n hlt)

theorem Settled.complete_of_active (h : s.Settled) {n : ℕ} (hidle : (s.watch n).watching ≠ .idle)
    (hdone : (s.watch n).watching ≠ .done) (hor : n ≠ s.attempt ∨ s.worker = .ended) : (s.watch n).complete = true :=
  (h.rests n hor).resolve_right fun hrest => hrest.elim hidle hdone

theorem Settled.fire (h : s.Settled) {n : ℕ} (hv : s.fire n = some t) : t.Settled := by
  obtain ⟨⟨harmed,-⟩,rfl⟩ := allow_eq_some.mp hv
  have hidle : (s.watch n).watching ≠ .idle := by rw [harmed]; simp
  have hdone : (s.watch n).watching ≠ .done := by rw [harmed]; simp
  exact h.rewatch_free (fun hlt => absurd hlt (h.current_of_active hidle))
    (fun hor => .inl (h.complete_of_active hidle hdone hor)) rfl (fun _ => rfl) (fun _ => rfl) id

theorem Settled.seize (h : s.Settled) {n : ℕ} (hv : s.seize n = some t) : t.Settled := by
  obtain ⟨⟨hfired,-⟩,rfl⟩ := allow_eq_some.mp hv
  have hidle : (s.watch n).watching ≠ .idle := by rw [hfired]; simp
  have hdone : (s.watch n).watching ≠ .done := by rw [hfired]; simp
  have hpast : ¬ s.attempt < n := h.current_of_active hidle
  split
  · exact h.rewatch_free (fun hlt => absurd hlt hpast) (fun _ => .inr (.inr rfl)) rfl (fun hyes => by cases hyes) id id
  · rename_i hopen
    -- A complete watch is left alone, so this one is of the attempt whose worker is running.
    have hcurrent : n = s.attempt := by
      by_contra hne
      exact hopen (h.complete_of_active hidle hdone (.inl hne))
    have hcommitted : s.committed = false := Bool.eq_false_iff.mpr fun hcommitted => hopen (by
      rw [hcurrent]
      exact (h.sealed hcommitted).1)
    have hseized : (s.watchdog n { s.watch n with watching := .seized }).Settled := h.rewatch (fun hlt => absurd hlt hpast)
      (fun hor => absurd (h.complete_of_active hidle hdone hor) hopen) (fun _ => ⟨hcurrent,hcommitted⟩)
      (fun _ => h.expired n (.inl hfired)) id id
    exact { hseized with }

theorem Settled.advance (h : s.Settled) {n : ℕ} (watching : Watching) (hfrom : (s.watch n).watching.holds = true) :
    (s.watchdog n { s.watch n with watching := watching }).Settled := by
  have hidle : (s.watch n).watching ≠ .idle := fun hyes => by
    rw [hyes] at hfrom
    cases hfrom
  have hdone : (s.watch n).watching ≠ .done := fun hyes => by
    rw [hyes] at hfrom
    cases hfrom
  exact h.rewatch (fun hlt => absurd hlt (h.current_of_active hidle))
    (fun hor => .inl (h.complete_of_active hidle hdone hor)) (fun _ => h.uncommitted hfrom)
    (fun _ => h.expired n (.inr hfrom)) id id

theorem Settled.watchClear (h : s.Settled) {n : ℕ} (hv : s.watchClear n = some t) : t.Settled := by
  obtain ⟨hseized,rfl⟩ := allow_eq_some.mp hv
  have hholds : (s.watch n).watching.holds = true := by rw [hseized]; rfl
  have hadvanced := h.advance .cleared hholds
  have hcommitted := (h.uncommitted hholds).2
  change ({ s.watchdog n { s.watch n with watching := .cleared } with ready := false, committed := false } : Service).Settled
  rw [← hcommitted]
  exact { hadvanced with }

theorem Settled.watchTell (h : s.Settled) {n : ℕ} (hv : s.watchTell n = some t) : t.Settled := by
  obtain ⟨hcleared,rfl⟩ := allow_eq_some.mp hv
  have hadvanced := h.advance .told (by rw [hcleared]; rfl)
  exact { hadvanced with }

theorem Settled.watchReport (h : s.Settled) (hs : s.Sound) {n : ℕ} {writes : Bool} (hv : s.watchReport n writes = some t) :
    t.Settled := by
  obtain ⟨htold,rfl⟩ := allow_eq_some.mp hv
  have hholds : (s.watch n).watching.holds = true := by rw [htold]; rfl
  obtain ⟨hcurrent,hcommitted⟩ := h.uncommitted hholds
  have hexpired : s.current.expired = true := by
    change (s.watch s.attempt).expired = true
    rw [← hcurrent]
    exact h.expired n (.inr hholds)
  cases writes with
  | true =>
    have hwritten := h.write .failed (some exhausted) (by simp) (fun _ => rfl)
      fun _ => ⟨hcommitted,(hs.seized hholds).2,.inl hexpired⟩
    have hadvanced := hwritten.advance (n:=n) .done hholds
    exact { hadvanced with }
  | false =>
    have hadvanced := h.advance .done hholds
    exact { hadvanced with }

theorem Settled.step (h : s.Settled) (hs : s.Sound) (hreported : e.Reported) (hv : s.step e = some t) : t.Settled := by
  cases e with
  | request writes => exact h.request hs hv
  | svcStop =>
    cases hv
    unfold svcStop
    split
    · rename_i ha
      simp only [stopAuthorized,Bool.and_eq_true] at ha
      exact { h with pending := fun _ => ha.1.2 }
    · exact h
  | enter => exact h.enter hv
  | idled =>
    obtain ⟨hwaiting,rfl⟩ := allow_eq_some.mp hv
    split
    · exact h.proceed _ (by rw [hwaiting]; rfl) rfl (by simp)
    · exact h.move _ rfl (by simp) fun _ => rfl
  | converged outcome =>
    obtain ⟨hconverging,rfl⟩ := allow_eq_some.mp hv
    split
    · exact h.fails _
    · split
      · exact h.fails _
      · split
        · exact h.fails _
        · exact h.proceed _ (by rw [hconverging]; rfl) rfl (by simp)
  | snapshot =>
    obtain ⟨hchecking,rfl⟩ := allow_eq_some.mp hv
    split
    · have hmoved := h.proceed .agreed (by rw [hchecking]; rfl) rfl (by simp)
      exact { hmoved with }
    · exact h.fails _
  | acquire => exact h.acquire hv
  | published outcome => exact h.published hv
  | writeSuccess outcome => exact h.writeSuccess hv
  | commit => exact h.commit hs hv
  | clear failure =>
    obtain ⟨hfailing,rfl⟩ := allow_eq_some.mp hv
    have hmoved := h.move (.cleared failure) rfl (by simp) fun _ => rfl
    have hcommitted : s.committed = false := hs.uncommitted (by rw [hfailing]; rfl)
    change ({ s with ready := false, committed := false, worker := .cleared failure } : Service).Settled
    rw [← hcommitted]
    exact { hmoved with }
  | tell failure =>
    obtain ⟨-,rfl⟩ := allow_eq_some.mp hv
    have hmoved := h.move (.told failure) rfl (by simp) fun _ => rfl
    exact { hmoved with }
  | report failure writes => exact h.report hs hreported hv
  | leave => exact h.leave hv
  | fire n => exact h.fire hv
  | seize n => exact h.seize hv
  | watchClear n => exact h.watchClear hv
  | watchTell n => exact h.watchTell hv
  | watchReport n writes => exact h.watchReport hs hv
  | coordinator event =>
    obtain ⟨w,hw,rfl⟩ := Option.map_eq_some_iff.mp hv
    exact { h with }
  | tick passed =>
    cases hv
    exact { h with }

/-- Where no report of operations in flight gets lost, an attempt reports its draining first and stays failed once
it has failed, no report of an earlier attempt comes later, and after the stop was taken the published report
stays the success of the attempt. -/
theorem reports_final {budget : ℕ} {events : List Event} (hreported : ∀ e ∈ events, e.Reported)
    (hrun : run step (start budget) events = some s) :
    s.written.Pairwise Report.Follows ∧ s.written.getLast? = some s.result ∧
      (s.stopPending = true → s.result = ⟨s.attempt,.succeeded,none,s.deadline⟩) := by
  have hsettled := (run_frame (I:=Sound) (J:=Settled) (f:=fun _ => ())
    (fun _ _ _ => Sound.step) (fun _ e _ hs h (hok : e.Reported) hv => ⟨h.step hs hok hv,rfl⟩) (sound_start budget)
    (settled_start budget) hreported hrun).1
  have hsound : s.Sound := Reachable.sound ⟨budget,events,hrun⟩
  exact ⟨hsettled.order,hsettled.last,fun hpending => hsound.success (.inr (hsettled.pending hpending))⟩

def cleanStop : List Event := cleanAttempt++[.svcStop]

theorem cleanStop_reported : ∀ e ∈ cleanStop, e.Reported := by simp [cleanStop,cleanAttempt,Event.Reported]

theorem cleanStop_runs : (run step (start 480) cleanStop).isSome = true := by decide

def stopped : Service := (run step (start 480) cleanStop).get cleanStop_runs

theorem reports_final_clean :
    stopped.written.Pairwise Report.Follows ∧ stopped.written.getLast? = some stopped.result ∧
      (stopped.stopPending = true → stopped.result = ⟨stopped.attempt,.succeeded,none,stopped.deadline⟩) :=
  reports_final cleanStop_reported (Option.some_get cleanStop_runs).symm

def mutation : Coordination.Request where
  commandId := "load"
  expectedVersion := 1
  controller := some "controller"
  controllerValid := true
  kind := "config"
  internal := false
  conflictNames := none
  requestIdentity := none
  verificationId := none

/-- The first attempt finds a mutation in flight and cannot write that down. While the worker of the second one
is about to publish, the watchdog of the first fails it, and the worker goes on. -/
def lostReport : List Event :=
  [.coordinator (.submit mutation),.request true,.enter,.idled,.clear ⟨"inflight_timeout",false⟩,
    .tell ⟨"inflight_timeout",false⟩,.report ⟨"inflight_timeout",false⟩ false,
    .coordinator (.failed ⟨mutation,World.start.coordinator.progressRecord mutation⟩ ""),
    .coordinator (.call (.restoreResponsibility none .stopped none none)),.tick 480,.request true,.enter,.idled,
    .converged (.ok (.stopped,none)),.snapshot,.fire 1,.seize 1,.watchClear 1,.watchTell 1,.watchReport 1 true,
    .acquire,.published (.ok ()),.writeSuccess (.ok ()),.commit]

example : (run step (start 480) lostReport).any (fun s =>
    s.stopAuthorized && decide (s.world.coordinator.state = .failed) &&
      decide (⟨2,.failed,some exhausted,some 960⟩ ∈ s.written)) = true := by
  decide +kernel

end Service
end ServiceStop
end FakeNetNG
