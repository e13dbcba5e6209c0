import FakeNetNG.NetPolicyOperations

/-!
# IPv6 isolation over a sequence of mode switches

The mode flag is set last, so it may stand for rules that are gone again. A run carries the
chain over which the flag was last set.
-/

namespace FakeNetNG
namespace NetPolicy

open Fallible

section Modes

variable {endpoints : List ControlEndpoint} {s : State} {mode : String}
  (takeoverPause takeoverResume : Option Takeover)

theorem setMode_wp_unchanged {m : Mode} (hmode : parseMode mode = some m) (hflag : s.mode = some m) :
    wp (setMode endpoints mode takeoverPause takeoverResume) (fun _ s' => Same s s')
      (fun _ s' => Same s s') s := by
  simp only [setMode,hmode,wp_bind,wp_get,hflag,if_true]
  exact evidence_wp s

theorem setMode_wp_real (hmode : parseMode mode = some .real) (hflag : s.mode ≠ some .real) :
    wp (setMode endpoints mode takeoverPause takeoverResume)
      (fun _ s' => s'.tables .ip6Output ⊆ s.tables .ip6Output ∧ s'.mode = some .real)
      (fun _ s' => s'.tables .ip6Output ⊆ s.tables .ip6Output ∧
        (s'.mode = s.mode ∨ s'.mode = some .real)) s := by
  simp only [setMode,hmode,wp_bind,wp_get,hflag,if_false,switchMode]
  refine wp_mono (removeAllOwned_wp s) ?_ (fun _ _ h => ⟨h.1,Or.inl h.2⟩)
  intro _ s' hremoved
  refine wp_mono (call_wp s' takeoverPause) ?_ ?_
  · intro _ s'' hcalled
    have hshrinks := hremoved.trans hcalled.shrinks
    rw [wp_bind,wp_modify]
    refine wp_mono (evidence_wp _) ?_ ?_
    · exact fun _ _ h => ⟨by rw [h.1]; exact hshrinks.1,h.2⟩
    · exact fun _ _ h => ⟨by rw [h.1]; exact hshrinks.1,Or.inr h.2⟩
  · intro _ s'' hcalled
    have hshrinks := hremoved.trans hcalled.shrinks
    exact ⟨hshrinks.1,Or.inl hshrinks.2⟩

theorem setMode_wp_isolated (hmode : parseMode mode = some .isolated)
    (hflag : s.mode ≠ some .isolated) (hall : s.tables .ip6Output ⊆ v6Chain endpoints) :
    wp (setMode endpoints mode takeoverPause takeoverResume)
      (fun _ s' => s'.mode = some .isolated ∧
        s'.tables .ip6Output = installed (s.tables .ip6Output) (v6Chain endpoints))
      (fun _ s' => s'.mode = s.mode ∧ s'.tables .ip6Output ⊆ v6Chain endpoints ∨
        s'.mode = some .isolated ∧
          s'.tables .ip6Output = installed (s.tables .ip6Output) (v6Chain endpoints)) s := by
  have hraised : ∀ s', Same s s' → s'.mode = s.mode ∧ s'.tables .ip6Output ⊆ v6Chain endpoints :=
    fun s' h => ⟨h.2,by rw [h.1]; exact hall⟩
  simp only [setMode,hmode,wp_bind,wp_get,hflag,if_false,switchMode]
  refine wp_mono (call_wp s takeoverResume) ?_ (fun _ s' h => Or.inl (hraised s' h))
  intro _ s₁ h₁
  rw [wp_bind]
  refine wp_mono (installControlExclusionsV4_wp endpoints s₁) ?_
    (fun _ s' h => Or.inl (hraised s' (h₁.trans h)))
  intro _ s₂ h
  have h₂ := h₁.trans h
  rw [wp_bind]
  refine wp_mono (blockIpv6_wp endpoints s₂ (hraised s₂ h₂).2) ?_
    (fun _ s' h => Or.inl ⟨h.1.trans h₂.2,h.2⟩)
  rintro _ s₃ ⟨-,htables⟩
  rw [h₂.1] at htables
  rw [wp_pure,wp_bind,wp_modify]
  refine wp_mono (evidence_wp _) ?_ ?_
  · exact fun _ _ h => ⟨h.2,h.1.trans htables⟩
  · exact fun _ _ h => Or.inr ⟨h.2,h.1.trans htables⟩

end Modes

/-- One call of `set_mode`, with what becomes of the commands it runs. -/
structure Call where
  mode : String
  takeoverPause : Option Takeover
  takeoverResume : Option Takeover
  outcomes : List Outcome

def Call.result (endpoints : List ControlEndpoint) (call : Call) (s : State) :
    Except Fault Evidence × State :=
  setMode endpoints call.mode call.takeoverPause call.takeoverResume { s with outcomes := call.outcomes }

def Call.isolated (call : Call) : Prop := parseMode call.mode = some .isolated

instance (call : Call) : Decidable call.isolated := inferInstanceAs (Decidable (_ = _))

def returned : Except Fault Evidence → Prop
  | .ok _ => True
  | .error _ => False

instance : DecidablePred returned
  | .ok _ => isTrue trivial
  | .error _ => isFalse id

def start (tables : Tables) : State := ⟨tables,[],none,[]⟩

def IsolatesAlong (endpoints : List ControlEndpoint) : State → List Call → Prop
  | _, [] => True
  | s, call :: rest =>
      (call.isolated → returned (call.result endpoints s).1 →
        Isolates endpoints ((call.result endpoints s).2.tables .ip6Output)) ∧
      IsolatesAlong endpoints (call.result endpoints s).2 rest

/-- The chain at the time when the flag last became `isolated`. -/
def flaggedAfter (flagged : List Rule) (s s' : State) : List Rule :=
  if s'.mode = some .isolated ∧ s.mode ≠ some .isolated then s'.tables .ip6Output else flagged

/-- A call that asks for isolation is careful when the chain is ready for the rules, or, with
the flag already set, when the chain still decides as it did when the flag was set. -/
def Careful (endpoints : List ControlEndpoint) (flagged : List Rule) (s : State) (call : Call) :
    Prop :=
  call.isolated →
    (s.mode ≠ some .isolated → Ready endpoints (s.tables .ip6Output)) ∧
    (s.mode = some .isolated → ∀ pkt, evaluate (s.tables .ip6Output) pkt = evaluate flagged pkt)

def CarefulAlong (endpoints : List ControlEndpoint) : List Rule → State → List Call → Prop
  | _, _, [] => True
  | flagged, s, call :: rest =>
      Careful endpoints flagged s call ∧
      CarefulAlong endpoints (flaggedAfter flagged s (call.result endpoints s).2)
        (call.result endpoints s).2 rest

/-- Only the policy's own rules are in the chain, and with the flag set the chain of that time
isolated. -/
structure Invariant (endpoints : List ControlEndpoint) (flagged : List Rule) (s : State) : Prop where
  subset : s.tables .ip6Output ⊆ v6Chain endpoints
  isolates : s.mode = some .isolated → Isolates endpoints flagged

section Runs

variable {endpoints : List ControlEndpoint} {flagged : List Rule} {s : State} {call : Call}

theorem isolates_congr {chain : List Rule} (h : ∀ pkt, evaluate chain pkt = evaluate flagged pkt)
    (hflagged : Isolates endpoints flagged) : Isolates endpoints chain := by
  intro pkt
  rw [h pkt]
  exact hflagged pkt

theorem Invariant.of_same_mode {s' : State} (hinv : Invariant endpoints flagged s)
    (hsubset : s'.tables .ip6Output ⊆ v6Chain endpoints) (hmode : s'.mode = s.mode) :
    Invariant endpoints (flaggedAfter flagged s s') s' := by
  have hflagged : flaggedAfter flagged s s' = flagged := by
    rw [flaggedAfter,if_neg]
    rintro ⟨h,h'⟩
    exact h' (hmode ▸ h)
  rw [hflagged]
  exact ⟨hsubset,fun h => hinv.isolates (hmode ▸ h)⟩

theorem Invariant.of_flagged {s' : State} (hsubset : s'.tables .ip6Output ⊆ v6Chain endpoints)
    (hbefore : s.mode ≠ some .isolated) (hmode : s'.mode = some .isolated)
    (hisolates : Isolates endpoints (s'.tables .ip6Output)) :
    Invariant endpoints (flaggedAfter flagged s s') s' := by
  rw [flaggedAfter,if_pos ⟨hmode,hbefore⟩]
  exact ⟨hsubset,fun _ => hisolates⟩

theorem Invariant.of_real {s' : State} (hsubset : s'.tables .ip6Output ⊆ v6Chain endpoints)
    (hmode : s'.mode = some .real) : Invariant endpoints (flaggedAfter flagged s s') s' :=
  ⟨hsubset,fun h => by rw [hmode] at h; cases h⟩

theorem setMode_step (hinv : Invariant endpoints flagged s)
    (hcareful : Careful endpoints flagged s call) :
    wp (setMode endpoints call.mode call.takeoverPause call.takeoverResume)
      (fun _ s' => Invariant endpoints (flaggedAfter flagged s s') s' ∧
        (call.isolated → Isolates endpoints (s'.tables .ip6Output)))
      (fun _ s' => Invariant endpoints (flaggedAfter flagged s s') s')
      { s with outcomes := call.outcomes } := by
  cases hmode : parseMode call.mode with
  | none =>
    simp only [setMode,hmode,wp_raise]
    exact hinv.of_same_mode hinv.subset rfl
  | some m =>
    by_cases hflag : s.mode = some m
    · refine wp_mono (setMode_wp_unchanged _ _ hmode hflag) ?_ ?_
      · intro _ s' h
        refine ⟨hinv.of_same_mode (by rw [h.1]; exact hinv.subset) h.2,fun hisolated => ?_⟩
        have hisolatedMode : s.mode = some .isolated := hflag.trans (hmode.symm.trans hisolated)
        rw [h.1]
        exact isolates_congr ((hcareful hisolated).2 hisolatedMode) (hinv.isolates hisolatedMode)
      · exact fun _ s' h => hinv.of_same_mode (by rw [h.1]; exact hinv.subset) h.2
    · cases m with
      | real =>
        refine wp_mono (setMode_wp_real _ _ hmode hflag) ?_ ?_
        · rintro _ s' ⟨hsubset,hreal⟩
          have hall := List.Subset.trans hsubset hinv.subset
          refine ⟨Invariant.of_real hall hreal,fun hisolated => ?_⟩
          rw [Call.isolated,hmode] at hisolated
          cases hisolated
        · rintro _ s' ⟨hsubset,hsame | hreal⟩
          · exact hinv.of_same_mode (List.Subset.trans hsubset hinv.subset) hsame
          · exact Invariant.of_real (List.Subset.trans hsubset hinv.subset) hreal
      | isolated =>
        have hisolates := (isolates_installed_iff hinv.subset).mpr ((hcareful hmode).1 hflag)
        have hinstalled : installed (s.tables .ip6Output) (v6Chain endpoints) ⊆ v6Chain endpoints :=
          installed_subset hinv.subset (fun _ h => h)
        refine wp_mono (setMode_wp_isolated _ _ hmode hflag hinv.subset) ?_ ?_
        · rintro _ s' ⟨hset,htables⟩
          rw [← htables] at hisolates hinstalled
          exact ⟨Invariant.of_flagged hinstalled hflag hset hisolates,fun _ => hisolates⟩
        · rintro _ s' (⟨hsame,hsubset⟩ | ⟨hset,htables⟩)
          · exact hinv.of_same_mode hsubset hsame
          · rw [← htables] at hisolates hinstalled
            exact Invariant.of_flagged hinstalled hflag hset hisolates

theorem isolatesAlong_of_invariant (calls : List Call) (flagged : List Rule) (s : State)
    (hinv : Invariant endpoints flagged s) (hcareful : CarefulAlong endpoints flagged s calls) :
    IsolatesAlong endpoints s calls := by
  induction calls generalizing flagged s with
  | nil => trivial
  | cons call rest ih =>
    obtain ⟨hcall,hrest⟩ := hcareful
    have hstep := setMode_step hinv hcall
    unfold IsolatesAlong
    rcases hresult : call.result endpoints s with ⟨_ | evidence,s'⟩
    · rw [hresult] at hrest
      rw [wp,← Call.result,hresult] at hstep
      exact ⟨fun _ h => h.elim,ih _ s' hstep hrest⟩
    · rw [hresult] at hrest
      rw [wp,← Call.result,hresult] at hstep
      exact ⟨fun h _ => hstep.2 h,ih _ s' hstep.1 hrest⟩

end Runs

/-- From any leftovers of the policy's own rules, whatever commands fail and whatever
callbacks raise: if every call that asks for isolation is careful, every such call that
returns isolates. -/
theorem isolatesAlong_of_carefulAlong (endpoints : List ControlEndpoint) (tables : Tables)
    (calls : List Call) (htables : tables .ip6Output ⊆ v6Chain endpoints)
    (hcareful : CarefulAlong endpoints [] (start tables) calls) :
    IsolatesAlong endpoints (start tables) calls :=
  isolatesAlong_of_invariant calls [] (start tables) ⟨htables,fun h => by cases h⟩ hcareful

def sampleEndpoint : ControlEndpoint :=
  ⟨"FE80::1",.v6 0xfe800000000000000000000000000001#128,2222,by decide⟩

/-- Isolation, first with a command that fails, and then the way to `real` and back. -/
def sampleCalls : List Call :=
  [⟨"isolated",none,none,[.done,.failed]⟩,⟨"Isolated",none,none,[]⟩,⟨"real",none,none,[]⟩,
    ⟨"isolated",none,none,[]⟩]

theorem isolatesAlong_of_carefulAlong_sample :
    IsolatesAlong [sampleEndpoint] (start fun _ => []) sampleCalls := by
  refine isolatesAlong_of_carefulAlong _ _ _ (List.nil_subset _) ?_
  have hready : ∀ s : State, s.tables .ip6Output = [] → Ready [sampleEndpoint] (s.tables .ip6Output) :=
    fun s h => h ▸ ready_nil _
  refine ⟨fun _ => ⟨fun _ => ready_nil _,fun h => by cases h⟩,?_⟩
  refine ⟨fun _ => ⟨fun _ => hready _ (by decide +kernel),fun h => absurd h (by decide +kernel)⟩,?_⟩
  refine ⟨fun h => absurd h (by decide +kernel),?_⟩
  exact ⟨fun _ => ⟨fun _ => hready _ (by decide +kernel),fun h => absurd h (by decide +kernel)⟩,trivial⟩

/-- The way to `real` stops in the callback: the rules are gone and the flag is not. -/
def interruptedCalls : List Call :=
  [⟨"isolated",none,none,[]⟩,⟨"real",some ⟨id,fun _ => rfl,true⟩,none,[]⟩,⟨"isolated",none,none,[]⟩]

theorem interrupted_switch_unblocked :
    ¬ (∀ (endpoints : List ControlEndpoint) (tables : Tables) (calls : List Call),
      tables .ip6Output ⊆ v6Chain endpoints → IsolatesAlong endpoints (start tables) calls) := by
  intro h
  obtain ⟨-,-,hlast,-⟩ := h [] (fun _ => []) interruptedCalls (List.nil_subset _)
  have hisolates := hlast (by decide +kernel) (by decide +kernel)
  have hexempt : ¬ Exempt [] ⟨2#128,none,false⟩ := by
    rintro (h | ⟨endpoint,hendpoint,-⟩)
    · exact absurd h (by decide)
    · cases hendpoint
  exact absurd ((hisolates ⟨2#128,none,false⟩).2 hexempt) (by decide +kernel)

end NetPolicy
end FakeNetNG
