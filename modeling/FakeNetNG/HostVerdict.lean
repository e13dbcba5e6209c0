import FakeNetNG.Fallible
import FakeNetNG.HostMerge

/-!
# Failures in the merged verdict

A failed row, positive or final read makes the merged verdict a failure, unless the probe does not
say when it was done and no check of the contract fails by itself.
-/

namespace FakeNetNG
namespace Egress

theorem matrixStepIds_subset {id : String} (h : id ∈ matrixStepIds) :
    id ∈ ipv4RequiredIds ∨ id ∈ ipv6DiagnosticIds := List.mem_append.mp h

theorem required_subset {id : String} (h : id ∈ ipv4RequiredIds) : id ∈ matrixStepIds :=
  List.mem_append_left _ h

theorem outcomeOf_eq {steps : List MatrixStep} (hids : (steps.map (·.id)).Nodup) {step : MatrixStep}
    (h : step ∈ steps) : outcomeOf steps step.id = some step.outcome := by
  obtain ⟨found,hfound⟩ : ∃ found, steps.find? (·.id = step.id) = some found := by
    rw [← Option.isSome_iff_exists,List.find?_isSome]
    exact ⟨step,h,by simp⟩
  have hid : found.id = step.id := by simpa using List.find?_some hfound
  have heq : found = step := List.inj_on_of_nodup_map hids (List.mem_of_find?_eq_some hfound) h hid
  rw [outcomeOf,hfound,heq]
  rfl

theorem mem_withOutcome {steps : List MatrixStep} {ids : List String} {outcomes : List Outcome}
    {id : String} : id ∈ withOutcome steps ids outcomes ↔
      id ∈ ids ∧ ∃ outcome ∈ outcomes, outcomeOf steps id = some outcome := by
  simp [withOutcome,Option.any_eq_true,and_comm]

section Completeness

variable {expected : List String} {steps : List MatrixStep} {positive : Option Record}
  {producerMatch finalConsistency : Scalar} {c : Completeness}

theorem completeness_inv
    (h : evaluateVerificationCompleteness expected steps positive producerMatch finalConsistency = .ok c) :
    (steps.map (·.id)).Nodup ∧ (∀ step ∈ steps, step.id ∈ expected) ∧
      c.status = completenessStatus (failedSteps expected steps positive producerMatch finalConsistency)
        (unknownSteps expected steps positive producerMatch finalConsistency) ∧
      c.complete = decide (c.status = .complete) ∧ c.requiredIds = ipv4RequiredIds ∧
      c.diagnosticIds = ipv6DiagnosticIds := by
  unfold evaluateVerificationCompleteness at h
  split at h
  · cases h
  · split at h
    · cases h
    · rename_i hnodup
      split at h
      · cases h
      · rename_i hplanned
        cases h
        refine ⟨not_not.mp hnodup,fun step hstep => ?_,rfl,rfl,rfl,rfl⟩
        by_contra hmem
        exact hplanned (List.any_eq_true.mpr ⟨step,hstep,by simpa using hmem⟩)

theorem invalid_of_failed
    (h : evaluateVerificationCompleteness expected steps positive producerMatch finalConsistency = .ok c)
    (hfailed : (∃ step ∈ steps, step.outcome = .fail) ∨ positiveFailed positive producerMatch = true ∨
      finalConsistency.isFalse = true) : c.status = .invalidEnvironment := by
  obtain ⟨hnodup,hplanned,hstatus,-⟩ := completeness_inv h
  rw [hstatus]
  refine completenessStatus_eq_invalid fun hempty => ?_
  simp only [failedSteps,List.append_eq_nil_iff] at hempty
  obtain ⟨⟨⟨⟨hrequired,hdiagnostic⟩,hpositive⟩,hfinal⟩,hprofile⟩ := hempty
  rcases hfailed with ⟨step,hstep,houtcome⟩ | hfailed | hfailed
  · have hfound : outcomeOf steps step.id = some .fail := by
      rw [outcomeOf_eq hnodup hstep,houtcome]
    have hexpected : expected = matrixStepIds := by
      by_contra hne
      simp [hne] at hprofile
    rcases matrixStepIds_subset (hexpected ▸ hplanned step hstep) with hmem | hmem
    · exact List.eq_nil_iff_forall_not_mem.mp hrequired step.id
        (mem_withOutcome.mpr ⟨hmem,.fail,by simp,hfound⟩)
    · exact List.eq_nil_iff_forall_not_mem.mp hdiagnostic step.id
        (mem_withOutcome.mpr ⟨hmem,.fail,by simp,hfound⟩)
  · simp [hfailed] at hpositive
  · simp [hfailed] at hfinal

theorem passed_of_complete
    (h : evaluateVerificationCompleteness expected steps positive producerMatch finalConsistency = .ok c)
    (hcomplete : c.status = .complete) :
    (∀ id ∈ ipv4RequiredIds, outcomeOf steps id = some .pass) ∧
      (nonceMatch positive).isTrue = true ∧ producerMatch.isTrue = true ∧
      finalConsistency.isTrue = true := by
  obtain ⟨-,-,hstatus,-⟩ := completeness_inv h
  rw [hstatus,completenessStatus_eq_complete] at hcomplete
  obtain ⟨hfailed,hunknown⟩ := hcomplete
  simp only [failedSteps,List.append_eq_nil_iff] at hfailed
  simp only [unknownSteps,List.append_eq_nil_iff] at hunknown
  obtain ⟨⟨⟨⟨hrequired,-⟩,hpositive⟩,hfinal⟩,hprofile⟩ := hfailed
  obtain ⟨⟨⟨hrows,hpositive'⟩,hfinal'⟩,hmissing⟩ := hunknown
  have hexpected : expected = matrixStepIds := by
    by_contra hne
    simp [hne] at hprofile
  have hboth : (nonceMatch positive).isTrue = true ∧ producerMatch.isTrue = true := by
    by_contra hnot
    by_cases hfails : positiveFailed positive producerMatch = true
    · simp [hfails] at hpositive
    · simp_all
  refine ⟨fun id hid => ?_,hboth.1,hboth.2,?_⟩
  · cases houtcome : outcomeOf steps id with
    | none =>
      refine absurd (List.mem_filter.mpr ⟨?_,by simp [houtcome]⟩)
        (List.eq_nil_iff_forall_not_mem.mp hmissing id)
      rw [hexpected]
      exact required_subset hid
    | some outcome =>
      have hnot : ∀ outcomes, withOutcome steps ipv4RequiredIds outcomes = [] → outcome ∉ outcomes :=
        fun outcomes hnil hmem => List.eq_nil_iff_forall_not_mem.mp hnil id
          (mem_withOutcome.mpr ⟨hid,outcome,hmem,houtcome⟩)
      have hfail := hnot _ hrequired
      have hother := hnot _ hrows
      cases outcome with
      | pass => rfl
      | fail => exact absurd (by simp) hfail
      | unknown => exact absurd (by simp) hother
      | notRun => exact absurd (by simp) hother
  · by_contra hnot
    by_cases hfalse : finalConsistency.isFalse = true
    · simp [hfalse] at hfinal
    · simp_all

end Completeness

section Contract

variable {checks : CheckName → Check}

/-- The value is the opposite of what is wanted. -/
def Opposed (value : Scalar) (key : CheckName) : Prop := value = .bool (!key.wanted)

theorem judge_inv {key : CheckName} {check : Check} {judgement : Judgement}
    (h : judge key check = .ok judgement) :
    (judgement = .failed ↔ Opposed check.value key) ∧
      (judgement = .fine ↔ check.value = .bool key.wanted) := by
  unfold judge at h
  unfold Opposed
  split at h
  · rename_i hvalue
    cases h
    simp [hvalue]
  · rename_i b hvalue
    split at h
    · cases h
    · split at h
      · rename_i hb
        cases h
        simp [hvalue,hb]
      · rename_i hb
        cases h
        cases b <;> cases hw : key.wanted <;> simp_all
  · cases h

theorem judgeAll_inv {keys : List CheckName} {failed unknown : List String}
    (h : judgeAll checks keys = .ok (failed,unknown)) :
    (failed ≠ [] ↔ ∃ key ∈ keys, Opposed (checks key).value key) ∧
      (failed = [] ∧ unknown = [] ↔ ∀ key ∈ keys, (checks key).value = .bool key.wanted) := by
  induction keys generalizing failed unknown with
  | nil =>
    cases h
    simp
  | cons key keys ih =>
    obtain ⟨judgement,hjudge,h⟩ := ok_of_bind h
    obtain ⟨⟨failed',unknown'⟩,hrest,h⟩ := ok_of_bind h
    obtain ⟨hfailed,hfine⟩ := judge_inv hjudge
    obtain ⟨ihfailed,ihfine⟩ := ih hrest
    cases judgement with
    | fine =>
      cases h
      have hvalue : (checks key).value = .bool key.wanted := hfine.mp rfl
      have hnot : ¬Opposed (checks key).value key := fun ho => by simpa using hfailed.mpr ho
      constructor
      · rw [ihfailed]
        simp only [List.mem_cons,exists_eq_or_imp]
        tauto
      · rw [ihfine]
        simp only [List.mem_cons,forall_eq_or_imp]
        tauto
    | unknown =>
      cases h
      have hnot : ¬Opposed (checks key).value key := fun ho => by simpa using hfailed.mpr ho
      have hvalue : (checks key).value ≠ .bool key.wanted := fun hv => by simpa using hfine.mpr hv
      simp [ihfailed,hvalue,hnot]
    | failed =>
      cases h
      have hopposed : Opposed (checks key).value key := hfailed.mp rfl
      have hvalue : (checks key).value ≠ .bool key.wanted := fun hv => by simpa using hfine.mpr hv
      simp [hopposed,hvalue]

theorem entryIf_eq_nil {wanted judgement : Judgement} {name : String} :
    entryIf wanted judgement name = [] ↔ judgement ≠ wanted := by
  unfold entryIf
  split <;> simp_all

/-- What makes an assessment fail. -/
structure Faultless (plan : Plan) (o : Observation) : Prop where
  guard : judgeGuard o.guard o.recomputed ≠ .failed
  checks : ∀ key, ¬Opposed (o.checks key).value key
  nonce : (o.checks .localInterceptionObserved).value.isTrue = true →
    o.responseNonce = plan.probeNonce
  ids : o.completeness.requiredIds = ipv4RequiredIds ∧
    o.completeness.diagnosticIds = ipv6DiagnosticIds
  completeness : judgeCompleteness o.completeness ≠ .ok .failed
  ports : judgePorts plan.requiredControlPorts o.effectivePorts ≠ .ok .failed

theorem qualification_inv {plan : Plan} {o : Observation} {conclusion : Conclusion}
    (h : evaluateInterceptionQualification plan o = .ok conclusion) :
    (conclusion.stopRemainingProbes = true ↔ ¬Faultless plan o) ∧
      (conclusion.status = .selfBlockedEnvironment ∨ conclusion.status = .invalidEnvironment ↔
        ¬Faultless plan o) ∧
      (conclusion.status = .qualifiedInScope → ∀ key, (o.checks key).value = .bool key.wanted) ∧
      ∃ judgement, judgeCompleteness o.completeness = .ok judgement := by
  unfold evaluateInterceptionQualification at h
  obtain ⟨-,-,h⟩ := ok_of_bind h
  dsimp only at h
  split at h
  · cases h
  · split at h
    · cases h
    · obtain ⟨⟨failedChecks,unknownChecks⟩,hchecks,h⟩ := ok_of_bind h
      obtain ⟨completeness,hcompleteness,h⟩ := ok_of_bind h
      obtain ⟨ports,hports,h⟩ := ok_of_bind h
      obtain ⟨hfailed,hfine⟩ := judgeAll_inv hchecks
      cases h
      have hfaultless : ∀ failed, failed = entryIf .failed (judgeGuard o.guard o.recomputed)
            "scope_guard"++failedChecks++
          (if (o.checks .localInterceptionObserved).value.isTrue = true ∧
            o.responseNonce ≠ plan.probeNonce then ["response_nonce_mismatch"] else [])++
          (if o.completeness.requiredIds ≠ ipv4RequiredIds ∨
            o.completeness.diagnosticIds ≠ ipv6DiagnosticIds then ["matrix_profile_scope"] else [])++
          entryIf .failed completeness "matrix_completeness"++
          entryIf .failed ports "missing_control_exclusion_ports" →
          (failed ≠ [] ↔ ¬Faultless plan o) := by
        rintro failed rfl
        refine not_congr ?_
        simp only [List.append_eq_nil_iff]
        constructor
        · rintro ⟨⟨⟨⟨⟨hguard,hnone⟩,hnonce⟩,hids⟩,hcomplete⟩,hport⟩
          refine ⟨entryIf_eq_nil.mp hguard,fun key hopposed => ?_,fun hlocal => ?_,?_,?_,?_⟩
          · exact hfailed.mpr ⟨key,CheckName.mem_all key,hopposed⟩ hnone
          · by_contra hne
            simp [hlocal,hne] at hnonce
          · by_contra hne
            rw [if_pos (not_and_or.mp hne)] at hids
            cases hids
          · rw [hcompleteness]
            exact fun heq => entryIf_eq_nil.mp hcomplete (Except.ok.inj heq)
          · rw [hports]
            exact fun heq => entryIf_eq_nil.mp hport (Except.ok.inj heq)
        · rintro ⟨hguard,hnone,hnonce,hids,hcomplete,hport⟩
          refine ⟨⟨⟨⟨⟨entryIf_eq_nil.mpr hguard,?_⟩,?_⟩,?_⟩,?_⟩,?_⟩
          · by_contra hne
            obtain ⟨key,-,hopposed⟩ := hfailed.mp hne
            exact hnone key hopposed
          · exact if_neg fun h => h.2 (hnonce h.1)
          · exact if_neg (not_or.mpr ⟨not_not.mpr hids.1,not_not.mpr hids.2⟩)
          · rw [hcompleteness] at hcomplete
            exact entryIf_eq_nil.mpr fun heq => hcomplete (congrArg Except.ok heq)
          · rw [hports] at hport
            exact entryIf_eq_nil.mpr fun heq => hport (congrArg Except.ok heq)
      refine ⟨conclude_failure.1.trans (hfaultless _ rfl),
        conclude_failure.2.trans (hfaultless _ rfl),fun hqualified key => ?_,completeness,hcompleteness⟩
      obtain ⟨hnone,hnone'⟩ := conclude_qualified hqualified
      simp only [List.append_eq_nil_iff] at hnone hnone'
      exact hfine.mp ⟨hnone.1.1.1.1.2,hnone'.1.1.2⟩ key (CheckName.mem_all key)

end Contract

variable {Exposure : Type} {env : MergeEnv Exposure} {input : MergeInput Exposure} {r : HostResult}

/-- The positive failed for the completeness or as a step of its own. -/
def PositiveFails (input : MergeInput Exposure) : Prop :=
  positiveFailed input.probe.positive (guestValue input.guest (·.producerMatch)) = true ∨
    localValue input = some false

def Fails (env : MergeEnv Exposure) (input : MergeInput Exposure) : Prop :=
  (∃ step ∈ matrixSteps env.lower input.probe input.expected, step.outcome = .fail) ∨
    PositiveFails input ∨ input.probe.finalConsistency.isFalse = true

def Dominates (env : MergeEnv Exposure) (input : MergeInput Exposure) (r : HostResult) : Prop :=
  Fails env input → (r.status = .selfBlockedEnvironment ∨ r.status = .invalidEnvironment) ∧
    r.stopRemainingProbes = true

/-- Everything that a qualification asks for. -/
structure Passed (env : MergeEnv Exposure) (input : MergeInput Exposure) (r : HostResult) : Prop where
  rows : ∀ id ∈ ipv4RequiredIds, outcomeOf r.steps id = some .pass
  positive : positiveMatch input.probe = true
  producer : (guestValue input.guest (·.producerMatch)).isTrue = true
  final : input.probe.finalConsistency.isTrue = true
  checks : ∀ key, checkValue env input key = .bool key.wanted
  completion : completionPresent input.probe = true

/-- A required control port is not among the effective exclusions. -/
def PortsMissing (input : MergeInput Exposure) : Prop :=
  judgePorts input.request.requiredControlPorts (input.guest.elim .missing (·.effectivePorts)) =
    .ok .failed

/-- The contract fails without looking at the completeness. -/
def Contradicted (env : MergeEnv Exposure) (input : MergeInput Exposure) : Prop :=
  (∃ key, Opposed (checkValue env input key) key) ∨ PortsMissing input

theorem scopeGuard_not_failed (env : MergeEnv Exposure) (probe : ProbeResult Exposure) :
    judgeGuard (scopeGuard env probe) (normalizeIpv6Exposure env probe.ipv6Exposure) ≠ .failed := by
  have hnormal : (normalizeIpv6Exposure env probe.ipv6Exposure).value ≠ some false := by
    unfold normalizeIpv6Exposure
    split
    · simp
    · dsimp only
      split <;> simp
  unfold judgeGuard
  split
  · simp
  · split
    · rename_i hfalse
      simp only [Bool.and_eq_true,decide_eq_true_eq] at hfalse
      rw [hfalse.2] at hfalse
      exact absurd hfalse.1 hnormal
    · simp

theorem judgeCompleteness_failed {c : Completeness} (h : judgeCompleteness c = .ok .failed) :
    c.status = .invalidEnvironment := by
  unfold judgeCompleteness at h
  split at h
  · cases h
  · split at h
    · split at h <;> cases h
    · split at h
      · cases h
      · split at h
        · assumption
        · cases h

theorem judgeCompleteness_invalid {c : Completeness} {judgement : Judgement}
    (h : judgeCompleteness c = .ok judgement) (hcomplete : c.complete = decide (c.status = .complete))
    (hstatus : c.status = .invalidEnvironment) : judgement = .failed := by
  unfold judgeCompleteness at h
  rw [hcomplete,hstatus] at h
  split at h
  · cases h
  · cases h
    rfl

theorem withCompletion_complete {probe : ProbeResult Exposure} {c : Completeness}
    (h : c.complete = decide (c.status = .complete)) :
    (withCompletion probe c).complete = decide ((withCompletion probe c).status = .complete) := by
  unfold withCompletion
  split
  · exact h
  · rfl

theorem merge_inv (h : buildHostResult env input = .ok r) :
    ∃ evaluated conclusion,
      evaluateVerificationCompleteness (input.expected.map (·.1))
          (matrixSteps env.lower input.probe input.expected) input.probe.positive
          (guestValue input.guest (·.producerMatch)) input.probe.finalConsistency = .ok evaluated ∧
        r = mergeStatus (matrixSteps env.lower input.probe input.expected)
          (withCompletion input.probe evaluated) conclusion ∧
        (conclusion.stopRemainingProbes = true ↔ Contradicted env input ∨
          (withCompletion input.probe evaluated).status = .invalidEnvironment) ∧
        (conclusion.status = .selfBlockedEnvironment ∨ conclusion.status = .invalidEnvironment ↔
          Contradicted env input ∨
            (withCompletion input.probe evaluated).status = .invalidEnvironment) ∧
        (conclusion.status = .qualifiedInScope →
          ∀ key, checkValue env input key = .bool key.wanted) := by
  unfold buildHostResult at h
  obtain ⟨evaluated,hevaluated,h⟩ := ok_of_bind h
  obtain ⟨conclusion,hconclusion,h⟩ := ok_of_bind h
  obtain ⟨hstop,hstatus,hqualified,judgement,hjudgement⟩ := qualification_inv hconclusion
  obtain ⟨-,-,-,hcomplete,hrequired,hdiagnostic⟩ := completeness_inv hevaluated
  cases h
  have hids : (withCompletion input.probe evaluated).requiredIds = ipv4RequiredIds ∧
      (withCompletion input.probe evaluated).diagnosticIds = ipv6DiagnosticIds := by
    unfold withCompletion
    split
    · exact ⟨hrequired,hdiagnostic⟩
    · exact ⟨hrequired,hdiagnostic⟩
  have hfaults : ¬Faultless (mergePlan input)
        (mergeObservation env input (withCompletion input.probe evaluated)) ↔ Contradicted env input ∨
      (withCompletion input.probe evaluated).status = .invalidEnvironment := by
    constructor
    · intro hfault
      by_contra hnot
      obtain ⟨hcontradicted,hvalid⟩ := not_or.mp hnot
      obtain ⟨hchecks,hports⟩ := not_or.mp hcontradicted
      refine hfault ⟨scopeGuard_not_failed env input.probe,fun key hopposed =>
        hchecks ⟨key,hopposed⟩,fun hlocal => ?_,hids,fun hfailed =>
        hvalid (judgeCompleteness_failed hfailed),hports⟩
      have hmatch : positiveMatch input.probe = true := by
        have hvalue : localValue input = some true := Scalar.ofOption_isTrue.mp hlocal
        by_contra hnot
        simp [localValue,hnot] at hvalue
      exact if_pos hmatch
    · rintro (hcontradicted | hinvalid) hfaultless
      · rcases hcontradicted with ⟨key,hopposed⟩ | hports
        · exact hfaultless.checks key hopposed
        · exact hfaultless.ports hports
      · refine hfaultless.completeness ?_
        rw [hjudgement,judgeCompleteness_invalid hjudgement (withCompletion_complete hcomplete) hinvalid]
  exact ⟨evaluated,conclusion,hevaluated,rfl,hstop.trans hfaults,hstatus.trans hfaults,hqualified⟩

theorem mergeStatus_failure (steps : List MatrixStep) {c : Completeness} {conclusion : Conclusion}
    {fault : Prop} (hstop : conclusion.stopRemainingProbes = true ↔ fault ∨ c.status = .invalidEnvironment)
    (hstatus : conclusion.status = .selfBlockedEnvironment ∨ conclusion.status = .invalidEnvironment ↔
      fault ∨ c.status = .invalidEnvironment) :
    (((mergeStatus steps c conclusion).status = .selfBlockedEnvironment ∨
        (mergeStatus steps c conclusion).status = .invalidEnvironment) ∧
      (mergeStatus steps c conclusion).stopRemainingProbes = true) ↔
      fault ∨ c.status = .invalidEnvironment := by
  have hsame : (mergeStatus steps c conclusion).status = .selfBlockedEnvironment ∨
      (mergeStatus steps c conclusion).status = .invalidEnvironment ↔
        c.status = .invalidEnvironment ∨ conclusion.status = .selfBlockedEnvironment ∨
          conclusion.status = .invalidEnvironment := by
    unfold mergeStatus
    dsimp only
    cases c.status <;> cases conclusion.status <;> cases c.complete <;> simp
  constructor
  · rintro ⟨hfailure,-⟩
    rcases hsame.mp hfailure with hinvalid | hfailure
    · exact Or.inr hinvalid
    · exact hstatus.mp hfailure
  · intro hfault
    exact ⟨hsame.mpr (Or.inr (hstatus.mpr hfault)),by simp [mergeStatus,hstop.mpr hfault]⟩

theorem mergeStatus_qualified {steps : List MatrixStep} {c : Completeness} {conclusion : Conclusion}
    (h : (mergeStatus steps c conclusion).status = .qualifiedInScope) :
    conclusion.status = .qualifiedInScope ∧ c.complete = true := by
  unfold mergeStatus at h
  dsimp only at h
  cases hc : c.status <;> cases hs : conclusion.status <;> cases hcomplete : c.complete <;>
    simp_all

theorem contradicted_of_local (h : localValue input = some false) : Contradicted env input := by
  refine Or.inl ⟨.localInterceptionObserved,?_⟩
  simp [Opposed,checkValue,h,Scalar.ofOption,CheckName.wanted]

/-- `build_host_result`: of a result that is returned, failures dominate and a qualification has
everything, if and only if the probe says when it was done, nothing failed, or a check of the
contract fails by itself. -/
theorem failures_dominate_iff (env : MergeEnv Exposure) (input : MergeInput Exposure) (r : HostResult)
    (h : buildHostResult env input = .ok r) :
    (Dominates env input r ∧ (r.status = .qualifiedInScope → Passed env input r)) ↔
      (completionPresent input.probe = true ∨ ¬Fails env input ∨ Contradicted env input) := by
  obtain ⟨evaluated,conclusion,hevaluated,rfl,hstop,hstatus,hchecks⟩ := merge_inv h
  have hfailure := mergeStatus_failure (matrixSteps env.lower input.probe input.expected)
    hstop hstatus
  have hqualified : (mergeStatus (matrixSteps env.lower input.probe input.expected)
      (withCompletion input.probe evaluated) conclusion).status = .qualifiedInScope →
      Passed env input (mergeStatus (matrixSteps env.lower input.probe input.expected)
        (withCompletion input.probe evaluated) conclusion) := by
    intro hqualified
    obtain ⟨hconclusion,hcomplete⟩ := mergeStatus_qualified hqualified
    have hpresent : completionPresent input.probe = true := by
      by_contra habsent
      rw [withCompletion,if_neg habsent] at hcomplete
      cases hcomplete
    rw [withCompletion,if_pos hpresent] at hcomplete
    obtain ⟨-,-,-,hdecide,-⟩ := completeness_inv hevaluated
    rw [hdecide,decide_eq_true_eq] at hcomplete
    obtain ⟨hrows,hnonce,hproducer,hfinal⟩ := passed_of_complete hevaluated hcomplete
    exact ⟨hrows,hnonce,hproducer,hfinal,hchecks hconclusion,hpresent⟩
  constructor
  · rintro ⟨hdominates,-⟩
    by_contra hnot
    obtain ⟨habsent,hnot⟩ := not_or.mp hnot
    obtain ⟨hfails,hcontradicted⟩ := not_or.mp hnot
    rcases hfailure.mp (hdominates (not_not.mp hfails)) with hfault | hinvalid
    · exact hcontradicted hfault
    · rw [withCompletion,if_neg habsent] at hinvalid
      cases hinvalid
  · intro hcondition
    refine ⟨fun hfails => hfailure.mpr ?_,hqualified⟩
    rcases hcondition with hpresent | hnone | hcontradicted
    · rw [withCompletion,if_pos hpresent]
      rcases hfails with hrow | (hpositive | hlocal) | hfinal
      · exact Or.inr (invalid_of_failed hevaluated (Or.inl hrow))
      · exact Or.inr (invalid_of_failed hevaluated (Or.inr (Or.inl hpositive)))
      · exact Or.inl (contradicted_of_local hlocal)
      · exact Or.inr (invalid_of_failed hevaluated (Or.inr (Or.inr hfinal)))
    · exact absurd hfails hnone
    · exact Or.inl hcontradicted

def sampleEnv : MergeEnv Unit := ⟨fun _ => [],fun _ => "",fun text => text⟩

def emptyRecord : Record := fun _ => .none

/-- Nothing ran, and the last read of the host differs from the first one. -/
def inconsistentProbe (completedAt : Scalar) : ProbeResult Unit where
  steps := []
  matrixRun := .bool false
  notRunReason := none
  probeInstance := emptyRecord
  identity := emptyRecord
  positive := none
  firewall := []
  firewallError := .none
  finalConsistency := .bool false
  completedAt := completedAt
  ipv6Exposure := none
  runningObservation := ⟨.none,.none,[],emptyRecord,[]⟩

def sampleRequest : MergeRequest where
  get := fun key => if key = "probe_nonce" ∨ bindingKeys.contains key then .text key else .none
  requiredControlPorts := .list [.int 28787]
  processRulesEquivalent := none

def inconsistentInput (completedAt : Scalar) : MergeInput Unit where
  request := sampleRequest
  guest := none
  probe := inconsistentProbe completedAt
  expected := matrixStepIds.map fun id => (id,⟨emptyRecord,"local_fake"⟩)
  sample := none
  channels := emptyRecord
  evidence := ⟨none,none,none,none⟩

/-- The status of a merge and whether the rest is to be stopped. -/
def verdictOf (input : MergeInput Unit) : Option (Status × Bool) :=
  (buildHostResult sampleEnv input).toOption.map fun r => (r.status,r.stopRemainingProbes)

theorem exists_of_verdictOf {input : MergeInput Unit} {status : Status} {stop : Bool}
    (h : verdictOf input = some (status,stop)) :
    ∃ r, buildHostResult sampleEnv input = .ok r ∧ r.status = status ∧ r.stopRemainingProbes = stop := by
  unfold verdictOf at h
  cases hr : buildHostResult sampleEnv input with
  | error e =>
    rw [hr] at h
    cases h
  | ok r =>
    rw [hr] at h
    cases h
    exact ⟨r,rfl,rfl,rfl⟩

/-- The verdict of the failed last read is one of missing evidence. -/
theorem missing_completion_hides_failure :
    ∃ r, buildHostResult sampleEnv (inconsistentInput .none) = .ok r ∧
      r.status = .underdetermined ∧ r.stopRemainingProbes = false ∧
      ¬Dominates sampleEnv (inconsistentInput .none) r := by
  have hverdict : verdictOf (inconsistentInput .none) = some (.underdetermined,false) := by
    decide +kernel
  obtain ⟨r,hr,hstatus,hstop⟩ := exists_of_verdictOf hverdict
  refine ⟨r,hr,hstatus,hstop,fun hdominates => ?_⟩
  obtain ⟨-,htrue⟩ := hdominates (Or.inr (Or.inr rfl))
  rw [hstop] at htrue
  cases htrue

theorem failures_dominate_iff_completed :
    ∃ r, buildHostResult sampleEnv (inconsistentInput (.text "2026-01-01T00:00:00Z")) = .ok r ∧
      r.status = .invalidEnvironment ∧
      Dominates sampleEnv (inconsistentInput (.text "2026-01-01T00:00:00Z")) r := by
  have hverdict : verdictOf (inconsistentInput (.text "2026-01-01T00:00:00Z")) =
      some (.invalidEnvironment,true) := by
    decide
  obtain ⟨r,hr,hstatus,-⟩ := exists_of_verdictOf hverdict
  exact ⟨r,hr,hstatus,((failures_dominate_iff sampleEnv _ r hr).mpr (Or.inl (by decide))).1⟩

end Egress
end FakeNetNG
