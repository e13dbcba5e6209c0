import FakeNetNG.RedirectHistory

/-!
# Flows of other processes

The SYN of a process that is not under review opens a pass for its flow, and later
packets keep it open. Nothing closes it when a SYN of the same flow is found to belong
to the reviewed process: once the mapping of that SYN is gone and its tombstone has
expired, the old pass lets packets through again. Without a live pass at the moment
of such a decision the last owner decision is the one that a pass rests on.
-/

namespace FakeNetNG
namespace ProcessRedirectRule

open ProcessRedirectEngine

variable {rule : ProcessRedirectRule} {s s' : ProcessRedirectEngine}

/-- The most recent owner decision on a SYN of the flow: whether it was the reviewed
process. -/
def lastOwner (key : RedirectKey) (log : List RedirectEvent) : Option Bool :=
  log.foldl (fun last e =>
    match e with
    | .ownerDecided k target => if k = key then some target else last
    | _ => last) none

theorem lastOwner_decided (key k : RedirectKey) (target : Bool) (log : List RedirectEvent) :
    lastOwner key (log++[.ownerDecided k target]) =
      if k = key then some target else lastOwner key log := by
  simp [lastOwner,List.foldl_append]

/-- What a decision to pass a later packet of a flow rests on. -/
def PassesOther (past : List RedirectEvent) : RedirectEvent → Prop
  | .decided packet prepared =>
    prepared.decision.action = .passUnchanged → lastOwner packet.key past = some false
  | _ => True

def isSilent : RedirectEvent → Bool
  | .ownerDecided _ _ => false
  | .decided _ prepared => prepared.decision.action ≠ .passUnchanged
  | _ => true

theorem lastOwner_silent (key : RedirectKey) {e : RedirectEvent} (he : isSilent e = true)
    (log : List RedirectEvent) : lastOwner key (log++[e]) = lastOwner key log := by
  cases e with
  | ownerDecided k target => cases he
  | _ => simp [lastOwner,List.foldl_append]

theorem passesOther_silent {e : RedirectEvent} (he : isSilent e = true) (log : List RedirectEvent) :
    PassesOther log e := by
  cases e with
  | decided packet prepared => exact fun hp => by simp [isSilent,hp] at he
  | _ => trivial

/-- A pass that has not expired was opened by the last owner decision on its flow. -/
structure PassInv (s : ProcessRedirectEngine) : Prop where
  live : ∀ key expires, s.aPass.get? key = some expires →
    lastOwner key s.log = some false ∨ expires ≤ s.now
  justified : Justified PassesOther s.log

theorem init_passInv (clock : Clock) : PassInv (.init clock) :=
  ⟨by simp [ProcessRedirectEngine.init],justified_nil _⟩

theorem PassInv.lessens (h : PassInv s) (hl : Lessens s s') : PassInv s' := by
  refine ⟨fun key expires hk => ?_,hl.log ▸ h.justified⟩
  rw [hl.log]
  exact (h.live key expires (hl.aPass key expires hk)).imp_right fun he => he.trans hl.now

theorem PassInv.record (h : PassInv s) {e : RedirectEvent} (he : isSilent e = true) :
    PassInv (s.record e) := by
  refine ⟨fun key expires hk => ?_,h.justified.snoc (passesOther_silent he _)⟩
  rw [ProcessRedirectEngine.record,lastOwner_silent key he]
  exact h.live key expires hk

theorem PassInv.congr (h : PassInv s) (ha : s'.aPass = s.aPass) (hl : s'.log = s.log)
    (hn : s.now ≤ s'.now) : PassInv s' := by
  refine ⟨fun key expires hk => ?_,hl ▸ h.justified⟩
  rw [ha] at hk
  rw [hl]
  exact (h.live key expires hk).imp_right fun he => he.trans hn

theorem PassInv.setAPass (h : PassInv s) {key : RedirectKey} (hl : lastOwner key s.log = some false)
    (expires : ℚ) : PassInv { s with aPass := s.aPass.set key expires } := by
  refine ⟨fun k t hk => ?_,h.justified⟩
  rcases (Dict.get?_set_eq_some _ _ _ _ _).mp hk with ⟨rfl,-⟩ | ⟨-,hk⟩
  · exact .inl hl
  · exact h.live k t hk

theorem PassInv.rewrite (h : PassInv s) (m : RedirectMapping) (packet : PacketTuple) (new : Bool)
    {decision : ProcessRedirectDecision} (hd : decision.action ≠ .passUnchanged) :
    PassInv (rewrite m packet new decision s).2 := by
  rw [rewrite_eq]
  have he : isSilent (.decided packet ⟨decision,some (s.token+1)⟩) = true := by simpa [isSilent] using hd
  exact (h.record he).congr rfl rfl (now_le_ticked s)

theorem beginPrepare_passInv (h : PassInv s) (packet : PacketTuple) :
    PassInv (rule.beginPrepare packet s).2 := by
  have hless : Lessens s (rule.cleanup s.now s.ticked) :=
    (lessens_ticked s).trans (lessens_cleanup _ _)
  have hclean := h.lessens hless
  have hbegins := beginPrepare_begins rule packet s
  generalize rule.beginPrepare packet s = r at hbegins ⊢
  cases hbegins with
  | dropped reason s' hq => exact hclean.lessens hq.lessens
  | existing m hs hm hroom => exact hclean.rewrite m packet false (by simp [outboundDecision])
  | query cached s' hsyn hq hcached hquiet => exact hclean.lessens hquiet.lessens
  | passed expires hf hsyn hpass hlive =>
    -- the entry was already there before the section read the clock
    have hlast : lastOwner packet.key (rule.cleanup s.now s.ticked).log = some false := by
      rw [hless.log]
      rcases h.live _ _ (hless.aPass _ _ hpass) with hl | he
      · exact hl
      · exact absurd hlive (not_lt.mpr he)
    have hset := hclean.setAPass hlast (s.now+aPassIdleSeconds)
    refine ⟨fun key t hk => ?_,hset.justified.snoc fun _ => hlast⟩
    have hsame : lastOwner key ((rule.cleanup s.now s.ticked).log++[.decided packet
        (.pass "non_target_flow")]) = lastOwner key (rule.cleanup s.now s.ticked).log := by
      simp [lastOwner,List.foldl_append]
    rw [ProcessRedirectEngine.record,hsame]
    exact hset.live key t hk

theorem passNonTarget_passInv (h : PassInv s) (key : RedirectKey) : PassInv (passNonTarget key s) := by
  refine ⟨fun k t hk => ?_,h.justified.snoc trivial⟩
  rw [passNonTarget,ProcessRedirectEngine.record,lastOwner_decided]
  rcases (Dict.get?_set_eq_some _ _ _ _ _).mp hk with ⟨rfl,-⟩ | ⟨hne,hk⟩
  · exact .inl (if_pos rfl)
  · rw [if_neg (Ne.symm hne)]
    exact (h.live k t hk).imp_right fun he => he.trans (now_le_ticked s)

/-- The flows that a step finds to belong to the reviewed process. -/
def targetsDecided (s s' : ProcessRedirectEngine) : List RedirectKey :=
  (s'.log.drop s.log.length).filterMap fun e =>
    match e with
    | .ownerDecided key true => some key
    | _ => none

/-- A decision for the reviewed process is only made on a flow without a live pass. -/
def Clear (s s' : ProcessRedirectEngine) : Prop :=
  ∀ key ∈ targetsDecided s s', ∀ expires ∈ s.aPass.get? key, expires ≤ s.now

instance (s s' : ProcessRedirectEngine) : Decidable (Clear s s') :=
  inferInstanceAs (Decidable
    (∀ key ∈ targetsDecided s s', ∀ expires ∈ s.aPass.get? key, expires ≤ s.now))

theorem recordTarget_passInv (h : PassInv s) {key : RedirectKey} (hc : Clear s (recordTarget key s)) :
    PassInv (recordTarget key s) := by
  refine ⟨fun k t hk => ?_,h.justified.snoc trivial⟩
  rw [recordTarget,ProcessRedirectEngine.record,lastOwner_decided]
  by_cases hkey : key = k
  · subst hkey
    exact .inr (hc key (by simp [targetsDecided,recordTarget,ProcessRedirectEngine.record]) t hk)
  · rw [if_neg hkey]
    exact h.live k t hk

theorem createMapping_passInv (h : PassInv s) (packet : PacketTuple) (owner : ProcessOwnerIdentity)
    (answers : RedirectAnswers) : PassInv (rule.createMapping packet owner answers s).2 := by
  have hcreates := createMapping_creates rule packet owner answers s
  generalize rule.createMapping packet owner answers s = r at hcreates ⊢
  cases hcreates with
  | dropped reason s' hq => exact h.lessens hq.lessens
  | created s' hq hs hgen htotal hpid hclient hend =>
    have hcell : PassInv (s'.setCell (freshMapping packet owner s)
        ⟨(freshMapping packet owner s).createdAt,false,false,none⟩) :=
      (h.lessens hq.lessens).congr rfl rfl le_rfl
    exact (hcell.record rfl).rewrite _ packet true (by simp [outboundDecision])

theorem inboundLocked_passInv (h : PassInv s) (packet : PacketTuple) :
    PassInv (rule.inboundLocked packet s).2 := by
  have hclean : PassInv (rule.cleanup s.now s.ticked) :=
    h.lessens ((lessens_ticked s).trans (lessens_cleanup _ _))
  unfold inboundLocked
  dsimp only
  split
  · exact hclean
  · split
    · exact hclean
    · split
      · exact hclean
      · split
        · exact hclean
        · exact hclean.rewrite _ packet false (by simp [inboundDecision])

theorem commitLocked_passInv (h : PassInv s) (token : ℕ) (outcome : Bool) :
    PassInv (rule.commitLocked token outcome s).2 := by
  unfold commitLocked
  split
  · exact h
  · have hpop := (h.lessens (lessens_popTransaction token s)).record
      (e:=.committed token outcome) rfl
    split
    · unfold confirm
      dsimp only
      refine PassInv.lessens ?_ ((lessens_touch _ _).trans (lessens_observeTcp _ _ _))
      split
      · exact hpop.congr rfl rfl le_rfl
      · exact hpop
    · exact hpop.lessens (lessens_retire _ _ _ _)

theorem suspendLocked_passInv (h : PassInv s) (reason : String) :
    PassInv (rule.suspendLocked reason s).2 := by
  unfold suspendLocked
  split
  · exact h
  · have hflag : PassInv
        { s with suspended := true, suspendReason := s.suspendReason.or (some reason) } :=
      h.congr rfl rfl le_rfl
    have hfold := hflag.lessens (lessens_foldl (f:=fun s m => rule.retire m 240 "suspended" s)
      (fun s m => lessens_retire m 240 _ s) s.forward.values _)
    exact (hfold.record (e:=.suspended) rfl).congr rfl rfl le_rfl

theorem section_passInv (sec : RedirectSection) (h : PassInv s) (hc : Clear s (sec.apply rule s)) :
    PassInv (sec.apply rule s) := by
  cases sec with
  | beginPrepare packet => exact beginPrepare_passInv h packet
  | cacheResolution key reply =>
    exact (h.record (e:=.answered key reply) rfl).congr rfl rfl (now_le_ticked s)
  | passNonTarget key => exact passNonTarget_passInv h key
  | recordTarget key => exact recordTarget_passInv h hc
  | createMapping packet owner answers => exact createMapping_passInv h packet owner answers
  | releaseReservation key => exact h.congr rfl rfl le_rfl
  | inbound packet => exact inboundLocked_passInv h packet
  | commit token outcome => exact commitLocked_passInv h token outcome
  | abort token => exact h.lessens (abortLocked_lessens token s)
  | close =>
    have hempty : PassInv { s with aPass := Dict.empty } := ⟨by simp,h.justified⟩
    exact PassInv.congr (hempty.record (e:=.closed) rfl) rfl rfl le_rfl
  | suspend reason => exact suspendLocked_passInv h reason
  | resume =>
    unfold RedirectSection.apply resumeLocked
    dsimp only
    split
    · exact h
    · exact (h.record (e:=.resumed) rfl).congr rfl rfl le_rfl

end ProcessRedirectRule

open ProcessRedirectRule in
/-- In a run whose decisions for the reviewed process all find no live pass of their flow, a
later packet is only passed when the last owner decision on its flow was for another
process, and so it is wherever the log has this decision. -/
theorem pass_follows_owner_of_clear (rule : ProcessRedirectRule) (clock : Clock)
    (P : Pool ProcessRedirectEngine RedirectCall RedirectReply)
    (h : Relation.ReflTransGen (Pool.GuardedStep (RedirectCall.body rule) Pool.anyCall Clear)
      (Pool.start (.init clock)) P)
    (t : ℕ) (packet : PacketTuple) (answers : RedirectAnswers) (prepared : PreparedRedirect)
    (ht : P.returning t = some (.prepare packet answers,.prepared prepared))
    (hout : packet.direction = .outbound) (hsyn : packet.newSyn = false)
    (hpass : prepared.decision.action = .passUnchanged) :
    .decided packet prepared ∈ P.shared.log ∧
      ∀ past rest, P.shared.log = past++.decided packet prepared::rest →
        lastOwner packet.key past = some false := by
  have hinv : PassInv P.shared := by
    refine (Pool.guarded_induction (fun c => ?_) h (init_passInv clock)).1
    refine (c.body_each rule).mono fun f hf s hs hc => ?_
    obtain ⟨sec,rfl⟩ := hf
    exact section_passInv sec hs hc
  have hprotected := Pool.protected_steps (RedirectCall.traced_sound rule)
    (Pool.GuardedStep.steps h) (Pool.protected_start (init_traced clock))
  have hlogged := hprotected.safe t _ _ ((Pool.returning_eq_some_iff _ _ _ _).mp ht)
  exact ⟨hlogged (.inr ⟨hout,hsyn,hpass⟩),fun past rest heq => hinv.justified past _ rest heq hpass⟩

def RedirectCall.otherProcess : List (Pool.Turn RedirectCall) :=
  [.call 0 (.prepare (.toOriginal thSyn) (.ownedBy 7)),.go 0,.go 0,.go 0,.go 0,.go 0,
    .call 1 (.prepare (.toOriginal thAck) (.ownedBy 7)),.go 1]

theorem pass_follows_owner_of_clear_otherProcess :
    .decided (.toOriginal thAck) (.pass "non_target_flow") ∈
        (Pool.schedule (RedirectCall.body .sample) (Pool.start (.init (Clock.every 1)))
          RedirectCall.otherProcess).shared.log ∧
      ∀ past rest, (Pool.schedule (RedirectCall.body .sample) (Pool.start (.init (Clock.every 1)))
          RedirectCall.otherProcess).shared.log =
            past++.decided (.toOriginal thAck) (.pass "non_target_flow")::rest →
        ProcessRedirectRule.lastOwner (PacketTuple.toOriginal thAck).key past = some false :=
  pass_follows_owner_of_clear .sample (Clock.every 1) _
    (Pool.schedule_guarded _ RedirectCall.otherProcess (by decide +kernel)) 1 (.toOriginal thAck)
    (.ownedBy 7) (.pass "non_target_flow") (by decide +kernel) rfl rfl rfl

/-- A port is used by another process and then by the reviewed one, whose SYN cannot be
injected. -/
def RedirectCall.reusedPort : List RedirectCall :=
  [.prepare (.toOriginal thSyn) (.ownedBy 7),.prepare (.toOriginal thSyn) (.ownedBy 42),
    .commit 1 false]

/-- Four seconds later the next packet of the reviewed process goes out unchanged. -/
theorem reused_port_passes_target :
    ((ProcessRedirectRule.sample.prepare (.toOriginal thAck) (.ownedBy 42)).run
        (Prog.runAll (RedirectCall.body .sample) (.init (Clock.every 4))
          RedirectCall.reusedPort)).1 = .pass "non_target_flow" ∧
      ProcessRedirectRule.lastOwner (PacketTuple.toOriginal thAck).key
        (Prog.runAll (RedirectCall.body .sample) (.init (Clock.every 4))
          RedirectCall.reusedPort).log = some true := by
  decide +kernel

end FakeNetNG
