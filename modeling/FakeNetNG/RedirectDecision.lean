import FakeNetNG.ProcessRedirect

/-!
# Decisions on outbound packets

Whatever states the sections of `prepare` find, an outbound packet keeps its source,
and the only destination it can be given is the target of the rule.
-/

namespace FakeNetNG

namespace ProcessRedirectRule

/-- What the engine may decide on an outbound packet. -/
def OutboundDecision (rule : ProcessRedirectRule) (p : PreparedRedirect) : Prop :=
  p.decision.action ≠ .rewriteInbound ∧
    (p.decision.action = .rewriteOutbound → p.decision.rewriteTargetIpv4 = some rule.targetIpv4)

variable {rule : ProcessRedirectRule}

theorem outboundDecision_drop (reason : String) : rule.OutboundDecision (.drop reason) :=
  ⟨fun h => (by cases h),fun h => (by cases h)⟩

theorem outboundDecision_pass (reason : String) : rule.OutboundDecision (.pass reason) :=
  ⟨fun h => (by cases h),fun h => (by cases h)⟩

theorem outboundDecision_notApplicable : rule.OutboundDecision .notApplicable :=
  ⟨fun h => (by cases h),fun h => (by cases h)⟩

theorem createMapping_outboundDecision (packet : PacketTuple) (owner : ProcessOwnerIdentity)
    (answers : RedirectAnswers) (s : ProcessRedirectEngine) :
    rule.OutboundDecision (rule.createMapping packet owner answers s).1 := by
  unfold createMapping
  split_ifs
  · exact outboundDecision_drop _
  · exact outboundDecision_drop _
  · exact outboundDecision_drop _
  · exact outboundDecision_drop _
  · dsimp only
    split_ifs
    · exact outboundDecision_drop _
    · exact ⟨fun h => (by cases h),fun _ => rfl⟩

theorem beginUnmapped_outboundDecision {packet : PacketTuple} {now : ℚ}
    {s : ProcessRedirectEngine} {p : PreparedRedirect}
    (h : (beginUnmapped packet now s).1 = .decided p) : rule.OutboundDecision p := by
  unfold beginUnmapped at h
  split at h
  · cases h
    exact outboundDecision_drop _
  · split_ifs at h
    · cases h
      exact outboundDecision_pass _
    · cases h
      exact outboundDecision_drop _

theorem beginSyn_outboundDecision {key : RedirectKey} {s : ProcessRedirectEngine}
    {p : PreparedRedirect} (h : (rule.beginSyn key s).1 = .decided p) : rule.OutboundDecision p := by
  have hdrop : ∀ reason, p = .drop reason → rule.OutboundDecision p := by
    rintro reason rfl
    exact outboundDecision_drop reason
  unfold beginSyn at h
  split at h
  · exact hdrop _ (by cases h; rfl)
  · split at h
    · exact hdrop _ (by cases h; rfl)
    · split at h
      · exact hdrop _ (by cases h; rfl)
      · split at h
        · cases h
        · split at h
          · exact hdrop _ (by cases h; rfl)
          · dsimp only at h
            split at h
            · cases h
            · exact hdrop _ (by cases h; rfl)

theorem beginPrepare_outboundDecision {packet : PacketTuple} {s : ProcessRedirectEngine}
    {p : PreparedRedirect} (h : (rule.beginPrepare packet s).1 = .decided p) :
    rule.OutboundDecision p := by
  unfold beginPrepare at h
  dsimp only at h
  split at h
  · cases h
    exact outboundDecision_drop _
  · split at h
    · cases h
      exact outboundDecision_drop _
    · split at h
      · split at h
        · cases h
          exact outboundDecision_drop _
        · cases h
          exact ⟨fun h => (by cases h),fun _ => rfl⟩
      · split at h
        · exact beginSyn_outboundDecision h
        · exact beginUnmapped_outboundDecision h

theorem prepareTarget_outboundDecision (packet : PacketTuple) (answers : RedirectAnswers)
    (owner : ProcessOwnerIdentity) :
    (rule.prepareTarget packet answers owner).Ensures (fun _ => True) rule.OutboundDecision := by
  refine Prog.Ensures.bind (Prog.ensures_locked (Q:=fun _ => True) fun _ _ => ⟨trivial,trivial⟩) fun _ _ => ?_
  split
  · exact Prog.Ensures.bind (Prog.ensures_locked (Q:=fun _ => True) fun _ _ => ⟨trivial,trivial⟩)
      fun _ _ => outboundDecision_drop _
  · split
    · exact Prog.Ensures.bind (Prog.ensures_locked (Q:=fun _ => True) fun _ _ => ⟨trivial,trivial⟩)
        fun _ _ => outboundDecision_drop _
    · split
      · exact outboundDecision_drop _
      · exact outboundDecision_drop _
      · exact Prog.ensures_locked fun s _ => ⟨trivial,createMapping_outboundDecision packet owner answers s⟩

theorem prepareQueried_outboundDecision (packet : PacketTuple) (answers : RedirectAnswers)
    (cached : OwnerReply) :
    (rule.prepareQueried packet answers cached).Ensures (fun _ => True) rule.OutboundDecision := by
  have hresolve : (resolveOwner packet.key answers cached).Ensures (fun _ => True) fun _ => True :=
    ((@resolveOwner_each rule packet.key answers cached).mono fun _ _ _ _ => trivial).ensures
  refine hresolve.bind fun reply _ => ?_
  cases reply with
  | none => exact outboundDecision_drop _
  | some reply =>
    cases reply with
    | nothing => exact outboundDecision_drop _
    | invalid => exact outboundDecision_drop _
    | resolution r =>
      dsimp only
      split
      · exact outboundDecision_drop _
      · split
        · exact Prog.ensures_locked fun _ _ => ⟨trivial,outboundDecision_pass _⟩
        · exact prepareTarget_outboundDecision packet answers _

/-- An outbound packet is never given a new source, and a new destination is the target. -/
theorem prepare_outboundDecision {packet : PacketTuple} (hout : packet.direction = .outbound)
    (answers : RedirectAnswers) :
    (rule.prepare packet answers).Ensures (fun _ => True) rule.OutboundDecision := by
  unfold prepare
  rw [hout]
  split
  · exact outboundDecision_notApplicable
  · dsimp only
    split
    · exact outboundDecision_notApplicable
    · split
      · exact outboundDecision_drop _
      · have hbegin : (Prog.locked (rule.beginPrepare packet)).Ensures (fun _ => True)
            fun stage => ∀ p, stage = .decided p → rule.OutboundDecision p :=
          Prog.ensures_locked fun s _ => ⟨trivial,fun p hp => beginPrepare_outboundDecision hp⟩
        refine hbegin.bind fun stage hstage => ?_
        cases stage with
        | decided p => exact hstage p rfl
        | query cached =>
          refine (prepareQueried_outboundDecision packet answers cached).bind fun p hp => ?_
          exact Prog.ensures_locked fun _ _ => ⟨trivial,hp⟩

end ProcessRedirectRule
end FakeNetNG
