import FakeNetNG.StopIntent

/-!
# One normal exit for each intent

Whatever calls are in flight and whichever steps on the file fail, the history of the object is
that of an authority that is given by a publication, used once and taken away by a revocation.
-/

namespace FakeNetNG
namespace StopIntent

open ExitEvent

variable {s s' : StopIntent}

def authorityStep (standing : Option (Intent × Bool)) : ExitEvent → Option (Intent × Bool)
  | .published intent => some (intent,false)
  | .invalidated => none
  | .revoked => none
  | .accepted intent => standing.map fun (i,used) => (i,used || i = intent)
  | _ => standing

/-- The intent that is published at the end of a history, and whether it was accepted since. -/
def authority (log : List ExitEvent) : Option (Intent × Bool) := log.foldl authorityStep none

theorem authority_snoc (log : List ExitEvent) (e : ExitEvent) :
    authority (log++[e]) = authorityStep (authority log) e := by
  rw [authority,List.foldl_append]
  rfl

/-- The events that take the place of a published intent. -/
def displaces : ExitEvent → Bool
  | .published _ => true
  | .invalidated => true
  | .revoked => true
  | _ => false

/-- The intent is published and was not revoked or replaced since. -/
def Standing (log : List ExitEvent) (intent : Intent) (used : Bool) : Prop :=
  ∃ before after, log = before++.published intent :: after ∧ (∀ e ∈ after, displaces e = false) ∧
    (used = true → .accepted intent ∈ after)

theorem Standing.snoc {log : List ExitEvent} {i : Intent} {used : Bool} {e : ExitEvent}
    (h : Standing log i used) (he : displaces e = false)
    {after : Bool} (hused : after = true → used = true ∨ e = .accepted i) :
    Standing (log++[e]) i after := by
  obtain ⟨front,back,rfl,hquiet,haccepted⟩ := h
  refine ⟨front,back++[e],by simp,fun x hx => ?_,fun hafter => ?_⟩
  · rcases List.mem_append.mp hx with hx | hx
    · exact hquiet x hx
    · rw [List.mem_singleton.mp hx]
      exact he
  · rcases hused hafter with hused | rfl
    · exact List.mem_append_left _ (haccepted hused)
    · simp

theorem standing_of_authority {log : List ExitEvent} {i : Intent} {used : Bool}
    (h : authority log = some (i,used)) : Standing log i used := by
  induction log using List.reverseRecOn generalizing i used with
  | nil => cases h
  | append_singleton log e ih =>
    rw [authority_snoc] at h
    cases e with
    | published j =>
      cases h
      exact ⟨log,[],rfl,by simp,by simp⟩
    | invalidated => cases h
    | revoked => cases h
    | accepted j =>
      obtain ⟨⟨k,b⟩,hk,hpair⟩ := Option.map_eq_some_iff.mp h
      cases hpair
      refine (ih hk).snoc rfl fun hb => ?_
      simp only [Bool.or_eq_true,decide_eq_true_eq] at hb
      exact hb.imp_right fun heq => by rw [heq]
    | confirmed j now => exact (ih h).snoc rfl Or.inl
    | returned c reply => exact (ih h).snoc rfl Or.inl

/-- The claim that a call was granted, when the event is its return. -/
def grantOf : ExitEvent → Option Intent
  | .returned call reply =>
      match call.request,reply with
      | .acceptNormal claim _ _,.verdict true => claim
      | _,_ => none
  | _ => none

theorem returned_of_grantOf {e : ExitEvent} {i : Intent} (h : grantOf e = some i) :
    ∃ thread observed fault,
      e = .returned ⟨thread,.acceptNormal (some i) observed fault⟩ (.verdict true) := by
  unfold grantOf at h
  split at h
  · rename_i call reply
    obtain ⟨thread,request⟩ := call
    dsimp only at h
    split at h
    · cases h
      exact ⟨thread,_,_,rfl⟩
    · cases h
  · cases h

/-- The intents for which `accept_normal` returned true. -/
def granted (log : List ExitEvent) : List Intent := log.filterMap grantOf

@[simp] theorem granted_snoc (log : List ExitEvent) (e : ExitEvent) :
    granted (log++[e]) = granted log++(grantOf e).toList := by
  cases h : grantOf e <;> simp [granted,h]

/-- What has to precede an event. -/
def Authorised (past : List ExitEvent) : ExitEvent → Prop
  | .published i => .published i ∉ past
  | .accepted i => authority past = some (i,false) ∧ .accepted i ∉ past
  | .confirmed i now => authority past = some (i,true) ∧ i.issuedMonotonic ≤ now ∧
      now < i.expiresMonotonic
  | .returned call (.verdict true) =>
      match call.request with
      | .acceptNormal claim _ _ => ∃ i, claim = some i ∧ .accepted i ∈ past ∧ i ∉ granted past
      | .normalIsValid claim => ∃ i now before, claim = some i ∧ past = before++[.confirmed i now]
      | _ => True
  | _ => True

structure Inv (s : StopIntent) : Prop where
  current : (authority s.log).map Prod.fst = s.current
  consumed : ∀ i used, authority s.log = some (i,used) → s.consumed = used
  published : ∀ i, .published i ∈ s.log → i.sequence ≤ s.sequence
  publishing : ∀ i, s.publishing = some i → i.sequence ≤ s.sequence ∧ .published i ∉ s.log
  accepted : ∀ i, .accepted i ∈ s.log → .published i ∈ s.log
  unaccepted : ∀ i, s.current = some i → s.consumed = false → .accepted i ∉ s.log
  owed : ∀ t i, (t,i) ∈ s.owed → .accepted i ∈ s.log ∧ i ∉ granted s.log
  unique : (s.owed.map Prod.snd).Nodup
  justified : Justified Authorised s.log

theorem init_inv (identity : ExitIdentity) (clock : Clock) : Inv (init identity clock) := by
  refine ⟨rfl,nofun,nofun,nofun,nofun,nofun,nofun,List.nodup_nil,justified_nil _⟩

theorem Inv.congr (h : Inv s) (hstate : s'.sequence = s.sequence ∧ s'.current = s.current ∧
      s'.consumed = s.consumed ∧ s'.publishing = s.publishing)
    (hhistory : s'.log = s.log ∧ s'.owed = s.owed) : Inv s' := by
  obtain ⟨hsequence,hcurrent,hconsumed,hpublishing⟩ := hstate
  obtain ⟨hlog,howed⟩ := hhistory
  constructor
  · rw [hlog,hcurrent]
    exact h.current
  · rw [hlog,hconsumed]
    exact h.consumed
  · rw [hlog,hsequence]
    exact h.published
  · rw [hlog,hsequence,hpublishing]
    exact h.publishing
  · rw [hlog]
    exact h.accepted
  · rw [hlog,hcurrent,hconsumed]
    exact h.unaccepted
  · rw [hlog,howed]
    exact h.owed
  · rw [howed]
    exact h.unique
  · rw [hlog]
    exact h.justified

theorem Inv.ticked (h : Inv s) : Inv s.ticked := h.congr ⟨rfl,rfl,rfl,rfl⟩ ⟨rfl,rfl⟩

theorem current_published (h : Inv s) {i : Intent} (hi : s.current = some i) :
    ∃ used, authority s.log = some (i,used) ∧ s.consumed = used ∧ .published i ∈ s.log := by
  rw [← h.current] at hi
  obtain ⟨⟨j,used⟩,hj,rfl⟩ := Option.map_eq_some_iff.mp hi
  obtain ⟨front,back,hlog,-⟩ := standing_of_authority hj
  exact ⟨used,hj,h.consumed _ _ hj,by simp [hlog]⟩

theorem beginPublish_inv (h : Inv s) (graceDeadline : Option ℚ) (nonce : List Char) (issuedTime : ℚ) :
    Inv (beginPublish graceDeadline nonce issuedTime s).2 := by
  unfold beginPublish
  split
  · exact h
  · split
    · exact h.ticked
    · split
      · exact h.ticked
      · refine ⟨h.current,h.consumed,fun i hi => (h.published i hi).trans (Nat.le_succ _),?_,
          h.accepted,h.unaccepted,h.owed,h.unique,h.justified⟩
        rintro i ⟨⟩
        -- the number is above every published one
        refine ⟨le_rfl,fun hi => ?_⟩
        exact absurd (h.published _ hi) (Nat.not_succ_le_self _)

theorem finishPublish_inv (h : Inv s) (intent : Intent) : Inv (finishPublish intent s).2 := by
  unfold finishPublish
  split
  · exact h
  · rename_i hpublishing
    split
    · exact h.ticked
    · obtain ⟨hle,hnew⟩ := h.publishing intent (not_not.mp hpublishing)
      have hunaccepted : .accepted intent ∉ s.log := fun ha => hnew (h.accepted _ ha)
      constructor
      · exact congrArg (Option.map Prod.fst) (authority_snoc _ _)
      · intro i used hi
        have hsnoc := (authority_snoc s.log (.published intent)).symm.trans hi
        cases hsnoc
        rfl
      · intro i hi
        rcases List.mem_append.mp hi with hi | hi
        · exact h.published i hi
        · cases List.mem_singleton.mp hi
          exact hle
      · exact nofun
      · intro i hi
        rcases List.mem_append.mp hi with hi | hi
        · exact List.mem_append_left _ (h.accepted i hi)
        · cases List.mem_singleton.mp hi
      · rintro i ⟨⟩ -
        simpa [record,StopIntent.ticked] using hunaccepted
      · intro t i hi
        obtain ⟨ha,hr⟩ := h.owed t i hi
        exact ⟨List.mem_append_left _ ha,by simpa [record,StopIntent.ticked,grantOf] using hr⟩
      · exact h.unique
      · exact h.justified.snoc hnew

theorem Inv.revoked (h : Inv s) {e : ExitEvent} (he : e = .invalidated ∨ e = .revoked)
    (hlog : s'.log = s.log++[e]) (hcurrent : s'.current = none) (hsequence : s'.sequence = s.sequence)
    (hpublishing : ∀ i, s'.publishing = some i → s.publishing = some i)
    (howed : s'.owed.Sublist s.owed) : Inv s' := by
  have hauthority : authority s'.log = none := by
    rw [hlog,authority_snoc]
    rcases he with rfl | rfl <;> rfl
  have hpublished : ∀ i, .published i ∈ s'.log ↔ .published i ∈ s.log := by
    rcases he with rfl | rfl <;> simp [hlog]
  have haccepted : ∀ i, .accepted i ∈ s'.log ↔ .accepted i ∈ s.log := by
    rcases he with rfl | rfl <;> simp [hlog]
  have hgranted : granted s'.log = granted s.log := by
    rcases he with rfl | rfl <;> simp [hlog,grantOf]
  constructor
  · rw [hauthority,hcurrent]
    rfl
  · rw [hauthority]
    exact nofun
  · intro i hi
    rw [hsequence]
    exact h.published i ((hpublished i).mp hi)
  · intro i hi
    obtain ⟨hle,hnew⟩ := h.publishing i (hpublishing i hi)
    rw [hsequence,hpublished]
    exact ⟨hle,hnew⟩
  · intro i hi
    rw [haccepted] at hi
    exact (hpublished i).mpr (h.accepted i hi)
  · rw [hcurrent]
    exact nofun
  · intro t i hi
    rw [haccepted,hgranted]
    exact h.owed t i (howed.subset hi)
  · exact h.unique.sublist (howed.map _)
  · rw [hlog]
    exact h.justified.snoc (by rcases he with rfl | rfl <;> trivial)

theorem abandon_inv (h : Inv s) (intent : Intent) : Inv (abandon intent s) := by
  refine h.revoked (Or.inr rfl) rfl rfl rfl (fun i hi => ?_) (List.Sublist.refl _)
  unfold abandon at hi
  dsimp only [record] at hi
  split at hi
  · cases hi
  · exact hi

theorem revoke_inv (h : Inv s) : Inv (revoke s) :=
  h.revoked (Or.inl rfl) rfl rfl rfl nofun (List.Sublist.refl _)

theorem withdraw_inv (h : Inv s) (thread : ℕ) : Inv (withdraw thread s) :=
  h.revoked (Or.inr rfl) rfl rfl rfl (fun _ hi => hi) List.filter_sublist

theorem accepted_of_granted {log : List ExitEvent} (h : Justified Authorised log) {i : Intent}
    (hi : i ∈ granted log) : .accepted i ∈ log := by
  obtain ⟨e,he,hgrant⟩ := List.mem_filterMap.mp hi
  obtain ⟨past,rest,rfl,hauthorised⟩ := h.of_mem he
  obtain ⟨thread,observed,fault,rfl⟩ := returned_of_grantOf hgrant
  obtain ⟨j,hj,haccepted,-⟩ := hauthorised
  cases hj
  exact List.mem_append_left _ haccepted

theorem checkClaim_inv (h : Inv s) (thread : ℕ) (claim : Option Intent) (observed : ObservedExit) :
    Inv (checkClaim thread claim observed s).2 := by
  unfold checkClaim
  split
  · exact h
  · rename_i intent hcurrent
    split
    · exact h
    · rename_i hunused
      simp only [Bool.or_eq_true,not_or,Bool.not_eq_true] at hunused
      split
      · obtain ⟨used,hauthority,hconsumed,hpublished⟩ := current_published h hcurrent
        have hfresh : .accepted intent ∉ s.log := h.unaccepted intent hcurrent hunused.1
        rw [hunused.1] at hconsumed
        rw [← hconsumed] at hauthority
        have hafter : authority (s.log++[.accepted intent]) = some (intent,true) := by
          rw [authority_snoc,hauthority]
          simp [authorityStep]
        constructor
        · exact (congrArg (Option.map Prod.fst) hafter).trans hcurrent.symm
        · intro i used hi
          have hsame := hafter.symm.trans hi
          cases hsame
          rfl
        · intro i hi
          exact h.published i (by simpa [record,StopIntent.ticked] using hi)
        · intro i hi
          obtain ⟨hle,hnew⟩ := h.publishing i hi
          exact ⟨hle,by simpa [record,StopIntent.ticked] using hnew⟩
        · intro i hi
          rcases List.mem_append.mp hi with hi | hi
          · exact List.mem_append_left _ (h.accepted i hi)
          · cases List.mem_singleton.mp hi
            exact List.mem_append_left _ hpublished
        · exact nofun
        · intro t i hi
          rcases List.mem_cons.mp hi with hi | hi
          · cases hi
            refine ⟨by simp [record],fun hr => hfresh ?_⟩
            exact accepted_of_granted h.justified
              (by simpa [record,StopIntent.ticked,grantOf] using hr)
          · obtain ⟨ha,hr⟩ := h.owed t i hi
            exact ⟨List.mem_append_left _ ha,by simpa [record,StopIntent.ticked,grantOf] using hr⟩
        · refine List.nodup_cons.mpr ⟨fun hi => ?_,h.unique⟩
          obtain ⟨⟨t,i⟩,hmem,rfl⟩ := List.mem_map.mp hi
          exact hfresh (h.owed t _ hmem).1
        · exact h.justified.snoc ⟨hauthority,hfresh⟩
      · exact h.ticked

/-- What the invariant needs of an event that leaves the authority as it is. -/
theorem Inv.logged (h : Inv s) {e : ExitEvent}
    (he : (∃ i now, e = .confirmed i now) ∨ ∃ call reply, e = .returned call reply)
    (hstate : s'.sequence = s.sequence ∧ s'.current = s.current ∧ s'.consumed = s.consumed ∧
      s'.publishing = s.publishing) (hlog : s'.log = s.log++[e]) (howed : s'.owed.Sublist s.owed)
    (hgrant : ∀ t i, (t,i) ∈ s'.owed → grantOf e ≠ some i) (hauthorised : Authorised s.log e) :
    Inv s' := by
  obtain ⟨hsequence,hcurrent,hconsumed,hpublishing⟩ := hstate
  have hauthority : authority s'.log = authority s.log := by
    rw [hlog,authority_snoc]
    rcases he with ⟨i,now,rfl⟩ | ⟨call,reply,rfl⟩ <;> rfl
  have hpublished : ∀ i, .published i ∈ s'.log ↔ .published i ∈ s.log := by
    rcases he with ⟨i,now,rfl⟩ | ⟨call,reply,rfl⟩ <;> simp [hlog]
  have haccepted : ∀ i, .accepted i ∈ s'.log ↔ .accepted i ∈ s.log := by
    rcases he with ⟨i,now,rfl⟩ | ⟨call,reply,rfl⟩ <;> simp [hlog]
  constructor
  · rw [hauthority,hcurrent]
    exact h.current
  · rw [hauthority,hconsumed]
    exact h.consumed
  · simp only [hpublished,hsequence]
    exact h.published
  · simp only [hpublished,hsequence,hpublishing]
    exact h.publishing
  · simp only [hpublished,haccepted]
    exact h.accepted
  · simp only [haccepted,hcurrent,hconsumed]
    exact h.unaccepted
  · intro t i hi
    obtain ⟨ha,hr⟩ := h.owed t i (howed.subset hi)
    refine ⟨(haccepted i).mpr ha,?_⟩
    rw [hlog,granted_snoc,List.mem_append,Option.mem_toList]
    exact not_or.mpr ⟨hr,hgrant t i hi⟩
  · exact h.unique.sublist (howed.map _)
  · rw [hlog]
    exact h.justified.snoc hauthorised

theorem Inv.refused (h : Inv s) (call : ExitCall) :
    Inv (s.record (.returned call (.verdict false))) := by
  refine h.logged (Or.inr ⟨call,_,rfl⟩) ⟨rfl,rfl,rfl,rfl⟩ rfl (List.Sublist.refl _)
    (fun t i _ hi => ?_) trivial
  simp [grantOf] at hi

theorem confirmClaim_inv (h : Inv s) {call : ExitCall} {claim : Option Intent}
    (hcall : call.request = .normalIsValid claim) : Inv (confirmClaim call claim s).2 := by
  unfold confirmClaim
  split
  · rename_i hused
    simp only [Bool.and_eq_true,decide_eq_true_eq] at hused
    split
    · exact h.ticked.refused call
    · rename_i intent hcurrent
      split
      · rename_i hlive
        obtain ⟨used,hauthority,hconsumed,-⟩ := current_published h hcurrent
        rw [hused.1] at hconsumed
        rw [← hconsumed] at hauthority
        simp only [isLive,Bool.and_eq_true,decide_eq_true_eq] at hlive
        have hconfirmed : Inv (s.ticked.record (.confirmed intent s.clock.now)) := by
          refine h.ticked.logged (Or.inl ⟨intent,_,rfl⟩) ⟨rfl,rfl,rfl,rfl⟩ rfl
            (List.Sublist.refl _) nofun ⟨hauthority,hlive.1.2,hlive.2⟩
        refine hconfirmed.logged (Or.inr ⟨call,_,rfl⟩) ⟨rfl,rfl,rfl,rfl⟩ rfl
          (List.Sublist.refl _) (fun t i _ hi => ?_) ?_
        · simp [grantOf,hcall] at hi
        · rw [Authorised,hcall]
          exact ⟨intent,_,_,hused.2.symm.trans hcurrent,rfl⟩
      · exact h.ticked.refused call
  · exact h.refused call

/-- What a call that returns has earned. -/
def Earned (call : ExitCall) (reply : ExitReply) (s : StopIntent) : Prop :=
  reply = .verdict true → ∃ i observed fault,
    call.request = .acceptNormal (some i) observed fault ∧ (call.thread,i) ∈ s.owed

theorem answer_inv (h : Inv s) {call : ExitCall} {reply : ExitReply}
    (hearned : Earned call reply s) : Inv (answer call reply s).2 := by
  have howed : (s.owed.filter (·.1 ≠ call.thread)).Sublist s.owed := List.filter_sublist
  refine h.logged (Or.inr ⟨call,reply,rfl⟩) ⟨rfl,rfl,rfl,rfl⟩ rfl howed (fun t i hi hgrant => ?_) ?_
  · obtain ⟨hmem,hne⟩ := List.mem_filter.mp hi
    obtain ⟨thread,observed,fault,hreturned⟩ := returned_of_grantOf hgrant
    cases hreturned
    obtain ⟨j,_,_,hrequest,hown⟩ := hearned rfl
    cases hrequest
    -- no other thread is owed the same intent
    have hpair : (t,i) = (thread,i) := List.inj_on_of_nodup_map h.unique hmem hown rfl
    cases hpair
    simp at hne
  · by_cases hreply : reply = .verdict true
    · obtain ⟨i,observed,fault,hrequest,hown⟩ := hearned hreply
      obtain ⟨haccepted,hnew⟩ := h.owed _ _ hown
      rw [hreply,Authorised,hrequest]
      exact ⟨i,rfl,haccepted,hnew⟩
    · unfold Authorised
      split <;> simp_all

theorem saveFile_inv (h : Inv s) (intent : Intent) (fault : FileFault) :
    Inv (saveFile intent fault s).2 := by
  unfold saveFile
  dsimp only
  split
  · exact h.congr ⟨rfl,rfl,rfl,rfl⟩ ⟨rfl,rfl⟩
  · exact h

theorem removeFile_inv (h : Inv s) (fault : FileFault) : Inv (removeFile fault s).2 := by
  unfold removeFile
  dsimp only
  split
  · exact h.congr ⟨rfl,rfl,rfl,rfl⟩ ⟨rfl,rfl⟩
  · exact h

/-- What the other threads leave alone. -/
def Relies (call : ExitCall) (s s' : StopIntent) : Prop :=
  s.log <+: s'.log ∧ ∀ i, (call.thread,i) ∈ s.owed → (call.thread,i) ∈ s'.owed

def Guarantees (call : ExitCall) (s s' : StopIntent) : Prop :=
  s.log <+: s'.log ∧ ∀ t i, t ≠ call.thread → (t,i) ∈ s.owed → (t,i) ∈ s'.owed

theorem guarantees_of_owed {call : ExitCall} (hlog : s.log <+: s'.log) (howed : s'.owed = s.owed) :
    Guarantees call s s' := ⟨hlog,fun _ _ _ hi => howed ▸ hi⟩

theorem guarantees_refl (call : ExitCall) (s : StopIntent) : Guarantees call s s :=
  guarantees_of_owed (List.prefix_refl _) rfl

theorem guarantees_ticked (call : ExitCall) (s : StopIntent) : Guarantees call s s.ticked :=
  guarantees_of_owed (List.prefix_refl _) rfl

theorem guarantees_filter {call : ExitCall} (hlog : s.log <+: s'.log)
    (howed : s'.owed = s.owed.filter (·.1 ≠ call.thread)) : Guarantees call s s' := by
  refine ⟨hlog,fun t i ht hi => ?_⟩
  rw [howed]
  exact List.mem_filter.mpr ⟨hi,by simpa using ht⟩

theorem beginPublish_guarantees (call : ExitCall) (graceDeadline : Option ℚ) (nonce : List Char)
    (issuedTime : ℚ) (s : StopIntent) :
    Guarantees call s (beginPublish graceDeadline nonce issuedTime s).2 := by
  unfold beginPublish
  split
  · exact guarantees_refl call s
  · split
    · exact guarantees_ticked call s
    · split
      · exact guarantees_ticked call s
      · exact guarantees_of_owed (List.prefix_refl _) rfl

theorem finishPublish_guarantees (call : ExitCall) (intent : Intent) (s : StopIntent) :
    Guarantees call s (finishPublish intent s).2 := by
  unfold finishPublish
  split
  · exact guarantees_refl call s
  · split
    · exact guarantees_ticked call s
    · exact guarantees_of_owed (List.prefix_append _ _) rfl

theorem checkClaim_guarantees (call : ExitCall) (claim : Option Intent) (observed : ObservedExit)
    (s : StopIntent) : Guarantees call s (checkClaim call.thread claim observed s).2 := by
  unfold checkClaim
  split
  · exact guarantees_refl call s
  · split
    · exact guarantees_refl call s
    · split
      · exact ⟨List.prefix_append _ _,fun t i _ hi => List.mem_cons_of_mem _ hi⟩
      · exact guarantees_ticked call s

theorem checkClaim_grants {thread : ℕ} {claim : Option Intent} {observed : ObservedExit} {i : Intent}
    (h : (checkClaim thread claim observed s).1 = some i) :
    claim = some i ∧ (thread,i) ∈ (checkClaim thread claim observed s).2.owed := by
  unfold checkClaim at h ⊢
  split at h
  · cases h
  · rename_i intent hcurrent
    split at h
    · cases h
    · rename_i hunused
      split at h
      · rename_i hlive
        cases h
        simp only [Bool.or_eq_true,not_or,decide_eq_true_eq,not_not] at hunused
        exact ⟨hunused.2,by simp [hunused,hlive]⟩
      · cases h

theorem confirmClaim_guarantees (call : ExitCall) (claim : Option Intent) (s : StopIntent) :
    Guarantees call s (confirmClaim call claim s).2 := by
  unfold confirmClaim
  split
  · split
    · exact guarantees_of_owed (List.prefix_append _ _) rfl
    · split
      · exact guarantees_of_owed ((List.prefix_append _ _).trans (List.prefix_append _ _)) rfl
      · exact guarantees_of_owed (List.prefix_append _ _) rfl
  · exact guarantees_of_owed (List.prefix_append _ _) rfl

theorem saveFile_guarantees (call : ExitCall) (intent : Intent) (fault : FileFault)
    (s : StopIntent) : Guarantees call s (saveFile intent fault s).2 := by
  unfold saveFile
  dsimp only
  split
  · exact guarantees_of_owed (List.prefix_refl _) rfl
  · exact guarantees_refl call s

theorem removeFile_guarantees (call : ExitCall) (fault : FileFault) (s : StopIntent) :
    Guarantees call s (removeFile fault s).2 := by
  unfold removeFile
  dsimp only
  split
  · exact guarantees_of_owed (List.prefix_refl _) rfl
  · exact guarantees_refl call s

/-- The program keeps the invariant and the promises of its call. -/
abbrev CallSafe {α : Type} (call : ExitCall) (Q : α → StopIntent → Prop) :
    Prog StopIntent α → StopIntent → Prop :=
  Pool.Safe Inv (Relies call) (Guarantees call) Q

/-- A reply that is no verdict needs no claim. -/
def Plain (reply : ExitReply) (_ : StopIntent) : Prop := ∀ v, reply ≠ .verdict v

theorem safe_section {α β : Type} {call : ExitCall} {Q : β → StopIntent → Prop}
    {m : StopIntent → α × StopIntent} {g : α → Prog StopIntent β}
    (hm : ∀ s, Inv s → Inv (m s).2 ∧ Guarantees call s (m s).2)
    (hg : ∀ a s, CallSafe call Q (g a) s) (s : StopIntent) :
    CallSafe call Q ((Prog.locked m).bind g) s := by
  refine Pool.Safe.bind (Q:=fun _ _ => True) (Pool.safe_locked fun s' _ hi => ?_) fun a s _ => hg a s
  obtain ⟨hinv,hguarantees⟩ := hm s' hi
  exact ⟨hinv,hguarantees,trivial⟩

theorem writeIntent_safe (call : ExitCall) (io : Bool) (intent : Intent) (save : FileFault)
    (readBack : Bool) (s : StopIntent) :
    CallSafe call (fun _ _ => True) (writeIntent io intent save readBack) s := by
  refine safe_section (fun s hi => ⟨saveFile_inv hi intent save,
    saveFile_guarantees call intent save s⟩) (fun raised s => ?_) s
  split
  · trivial
  · split
    · trivial
    · refine safe_section (fun s hi => ⟨hi,guarantees_refl call s⟩) (fun file s => ?_) s
      split
      · trivial
      · split <;> trivial

theorem publish_safe (call : ExitCall) (io : Bool) (graceDeadline : Option ℚ) (nonce : List Char)
    (issuedTime : ℚ) (save : FileFault) (readBack : Bool) (s : StopIntent) :
    CallSafe call Plain (publish io graceDeadline nonce issuedTime save readBack) s := by
  have habandon : ∀ intent message s, CallSafe call Plain
      ((Prog.locked fun s => ((),abandon intent s)).bind fun _ => .done (.raised message)) s :=
    fun intent message => safe_section (fun s hi => ⟨abandon_inv hi intent,
      guarantees_of_owed (List.prefix_append _ _) rfl⟩) fun _ s v => by simp
  refine safe_section (fun s hi => ⟨beginPublish_inv hi graceDeadline nonce issuedTime,
    beginPublish_guarantees call graceDeadline nonce issuedTime s⟩) (fun begun s => ?_) s
  cases begun with
  | error message => exact fun v => by simp
  | ok intent =>
    refine Pool.Safe.bind (writeIntent_safe call io intent save readBack s) fun raised s _ => ?_
    cases raised with
    | some message => exact habandon intent message s
    | none =>
      refine safe_section (fun s hi => ⟨finishPublish_inv hi intent,
        finishPublish_guarantees call intent s⟩) (fun finished s => ?_) s
      cases finished with
      | ok intent => exact fun v => by simp
      | error message => exact habandon intent message s

/-- The removal of the file leaves what the thread is owed. -/
theorem remove_safe {call : ExitCall} (owing : StopIntent → Prop) (io : Bool) (fault : FileFault)
    (howing : ∀ s s', owing s → Relies call s s' → owing s')
    (hkeep : ∀ s s', owing s → s'.owed = s.owed → owing s') {s : StopIntent} (h : owing s) :
    CallSafe call (fun _ => owing) (remove io fault) s := by
  have hremove : ∀ s, owing s →
      CallSafe call (fun _ => owing) (Prog.locked (removeFile fault)) s := by
    intro s hs
    refine Pool.safe_locked fun s' hrely hi => ⟨removeFile_inv hi fault,
      removeFile_guarantees call fault s',hkeep _ _ (howing _ _ hs hrely) ?_⟩
    unfold removeFile
    dsimp only
    split <;> rfl
  unfold remove
  split
  · refine Pool.Safe.bind (Q:=fun _ => owing) (Pool.safe_locked fun s' hrely hi => ?_)
      fun _ s hs => hremove s hs
    exact ⟨hi.ticked,guarantees_ticked call s',hkeep _ _ (howing _ _ h hrely) rfl⟩
  · exact hremove s h

theorem invalidate_safe (call : ExitCall) (io : Bool) (fault : FileFault) (s : StopIntent) :
    CallSafe call Plain (invalidate io fault) s := by
  refine safe_section (fun s hi => ⟨revoke_inv hi,
    guarantees_of_owed (List.prefix_append _ _) rfl⟩) (fun _ s => ?_) s
  refine Pool.Safe.bind (remove_safe (fun _ => True) io fault (fun _ _ h _ => h)
    (fun _ _ h _ => h) trivial) fun _ s _ v => ?_
  simp

theorem acceptNormal_safe {call : ExitCall} {claim : Option Intent} {observed : ObservedExit}
    {fault : FileFault} (hcall : call.request = .acceptNormal claim observed fault) (io : Bool)
    (s : StopIntent) :
    CallSafe call (Earned call) (acceptNormal io call.thread claim observed fault) s := by
  refine Pool.Safe.bind (Q:=fun granted s => ∀ i, granted = some i →
      claim = some i ∧ (call.thread,i) ∈ s.owed)
    (Pool.safe_locked fun s' _ hi => ⟨checkClaim_inv hi call.thread claim observed,
      checkClaim_guarantees call claim observed s',fun i hi => checkClaim_grants hi⟩)
    fun granted s hgranted => ?_
  refine Pool.Safe.bind (remove_safe (fun s => ∀ i, granted = some i →
      claim = some i ∧ (call.thread,i) ∈ s.owed) io fault (fun s s' h hrely i hi => ?_)
    (fun s s' h howed i hi => ?_) hgranted) fun raised s hgranted => ?_
  · exact ⟨(h i hi).1,hrely.2 i (h i hi).2⟩
  · exact ⟨(h i hi).1,howed ▸ (h i hi).2⟩
  · cases raised with
    | true =>
      refine safe_section (fun s hi => ⟨withdraw_inv hi call.thread,
        guarantees_filter (List.prefix_append _ _) rfl⟩) (fun _ s => ?_) s
      intro hverdict
      cases hverdict
    | false =>
      intro hverdict
      cases granted with
      | none => cases hverdict
      | some i =>
        obtain ⟨rfl,howed⟩ := hgranted i rfl
        exact ⟨i,observed,fault,hcall,howed⟩

/-- The reply of a call that is about to return stands in the history. -/
def Logged (call : ExitCall) (reply : ExitReply) (s : StopIntent) : Prop :=
  .returned call reply ∈ s.log

theorem answered_safe {call : ExitCall} {p : Prog StopIntent ExitReply} {s : StopIntent}
    (h : CallSafe call (Earned call) p s) : CallSafe call (Logged call) (answered call p) s := by
  refine Pool.Safe.bind h fun reply s hearned => Pool.safe_locked fun s' hrely hi => ?_
  refine ⟨answer_inv hi fun hreply => ?_,guarantees_filter (List.prefix_append _ _) rfl,?_⟩
  · obtain ⟨i,observed,fault,hrequest,howed⟩ := hearned hreply
    exact ⟨i,observed,fault,hrequest,hrely.2 i howed⟩
  · exact List.mem_append_right _ (List.mem_singleton.mpr rfl)

theorem answered_safe_of_plain {call : ExitCall} {p : Prog StopIntent ExitReply} {s : StopIntent}
    (h : CallSafe call Plain p s) : CallSafe call (Logged call) (answered call p) s := by
  refine answered_safe (h.mono fun reply s hplain hreply => ?_)
  exact absurd hreply (hplain true)

theorem body_safe (io : Bool) (call : ExitCall) (s : StopIntent) :
    CallSafe call (Logged call) (body io call) s := by
  unfold body
  split
  · exact answered_safe_of_plain (publish_safe call io _ _ _ _ _ s)
  · exact answered_safe_of_plain (invalidate_safe call io _ s)
  · exact answered_safe_of_plain (invalidate_safe call false _ s)
  · rename_i hcall
    exact answered_safe (acceptNormal_safe hcall io s)
  · rename_i claim hcall
    refine Pool.safe_locked fun s' _ hi => ⟨confirmClaim_inv hi hcall,
      confirmClaim_guarantees call claim s',?_⟩
    unfold Logged confirmClaim
    split
    · split
      · simp [record]
      · split <;> simp [record]
    · simp [record]

theorem sound (io : Bool) :
    Pool.Sound (body io) oneCall Inv Relies Guarantees Logged (fun c d => c.thread ≠ d.thread) where
  refl _ _ := ⟨List.prefix_refl _,fun _ h => h⟩
  trans _ _ _ _ h h' := ⟨h.1.trans h'.1,fun i hi => h'.2 i (h.2 i hi)⟩
  stable _ _ _ _ h hrely := hrely.1.subset h
  guar _ d hne _ _ h := ⟨h.1,fun i hi => h.2 d.thread i (Ne.symm hne) hi⟩
  body c _ _ := body_safe io c _
  allows _ _ ha t d q hd := ⟨(ha t d q hd).symm,ha t d q hd⟩

/-- What a history has to say before an event. The intents that are published are distinct. -/
def Entitled (past : List ExitEvent) : ExitEvent → Prop
  | .published i => .published i ∉ past
  | .accepted i => Standing past i false
  | .confirmed i now => Standing past i true ∧ i.issuedMonotonic ≤ now ∧ now < i.expiresMonotonic
  | .returned call (.verdict true) =>
      match call.request with
      | .acceptNormal claim _ _ => ∃ i, claim = some i ∧ .published i ∈ past ∧ .accepted i ∈ past ∧
          i ∉ granted past
      | .normalIsValid claim => ∃ i now before, claim = some i ∧ past = before++[.confirmed i now]
      | _ => True
  | _ => True

theorem published_of_accepted {log : List ExitEvent} (h : Justified Authorised log) {i : Intent}
    (hi : .accepted i ∈ log) : .published i ∈ log := by
  obtain ⟨past,rest,rfl,hauthority,-⟩ := h.of_mem hi
  obtain ⟨front,back,rfl,-⟩ := standing_of_authority hauthority
  simp

theorem Inv.entitled (h : Inv s) : Justified Entitled s.log := by
  intro past e rest hlog
  have hauthorised : Authorised past e := h.justified past e rest hlog
  have hwhole : Justified Authorised (past++e :: rest) := hlog ▸ h.justified
  have hpast : Justified Authorised past := hwhole.of_append
  cases e with
  | published i => exact hauthorised
  | invalidated => trivial
  | revoked => trivial
  | accepted i => exact standing_of_authority hauthorised.1
  | confirmed i now => exact ⟨standing_of_authority hauthorised.1,hauthorised.2⟩
  | returned call reply =>
    by_cases hreply : reply = .verdict true
    · rw [hreply] at hauthorised ⊢
      obtain ⟨thread,request⟩ := call
      cases request with
      | acceptNormal claim observed fault =>
        obtain ⟨i,hi,haccepted,hnew⟩ := hauthorised
        exact ⟨i,hi,published_of_accepted hpast haccepted,haccepted,hnew⟩
      | normalIsValid claim => exact hauthorised
      | publish _ _ _ _ _ => trivial
      | invalidate _ => trivial
      | invalidateLocal _ => trivial
    · unfold Entitled
      split <;> simp_all

/-- `StopIntent`: however calls of `publish`, `invalidate`, `invalidate_local`, `accept_normal` and
`normal_is_valid` interleave and whichever steps on the file fail, at most one `accept_normal`
returns true for a published intent, and `normal_is_valid` confirms only the standing one. -/
theorem normal_exit_once (io : Bool) (identity : ExitIdentity) (clock : Clock)
    {P : Pool StopIntent ExitCall ExitReply}
    (h : Pool.Steps (body io) oneCall (Pool.start (init identity clock)) P) :
    Justified Entitled P.shared.log ∧
      ∀ t call reply, P.returning t = some (call,reply) → .returned call reply ∈ P.shared.log := by
  have hprotected := Pool.protected_steps (sound io) h
    (Pool.protected_start (init_inv identity clock))
  refine ⟨hprotected.shared.entitled,fun t call reply hreturning => ?_⟩
  rw [Pool.returning_eq_some_iff] at hreturning
  exact hprotected.safe t call _ hreturning

def sampleIdentity : ExitIdentity := ⟨"r1",42,7,9,5,"i1"⟩

/-- The intent of the first publication of a run whose clock starts at zero. -/
def sampleIntent : Intent :=
  ⟨schemaText,sampleIdentity,1,List.replicate 64 'a',0,0,30⟩

/-- One stop whose exit is observed twice. -/
def sampleCalls : List ExitCall :=
  [⟨0,.publish (some 30) (List.replicate 64 'a') 0 .none false⟩,
    ⟨0,.acceptNormal (some sampleIntent) ⟨some 42,some 42,some 0⟩ .none⟩,
    ⟨0,.normalIsValid (some sampleIntent)⟩,
    ⟨0,.acceptNormal (some sampleIntent) ⟨some 42,some 42,some 0⟩ .none⟩]

theorem normal_exit_once_twoExits :
    Justified Entitled
        (Prog.runAll (body false) (init sampleIdentity (Clock.every 1)) sampleCalls).log ∧
      granted (Prog.runAll (body false) (init sampleIdentity (Clock.every 1)) sampleCalls).log =
        [sampleIntent] :=
  ⟨(normal_exit_once false sampleIdentity (Clock.every 1)
    (Pool.steps_runAll (fun _ _ hidle t _ _ ht => by simp [hidle t] at ht) _ sampleCalls)).1,
    by decide⟩

end StopIntent
end FakeNetNG
