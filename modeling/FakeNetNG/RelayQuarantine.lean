import FakeNetNG.PolicySections
import FakeNetNG.PolicyShutdown

/-!
# The quarantine of relay clients

A mapping leaves the client table with a tombstone for its client, on every path but the
two that shut the policy. The tombstone outlasts every later section until the clock has
passed it: nothing else is filed for this client in the meantime, so nothing of this
client can be removed and write an earlier deadline over it.
-/

namespace FakeNetNG
namespace RelayNat

variable {n n' n'' : RelayNat} {m : RelayNatMapping} {now : ℚ}

/-- The generation table names its mappings, and the client table names them too. -/
structure Paired (n : RelayNat) : Prop where
  key : ∀ g x, n.generation.get? g = some x → x.generation = g
  client : ∀ g x, n.generation.get? g = some x → n.client.get? x.clientKey = some x

/-- A client without a mapping that is blocked until `deadline` or longer. -/
def Held (n : RelayNat) (client : Addr × ℕ) (deadline : ℚ) : Prop :=
  n.client.get? client = none ∧ ∃ e, n.clientTombstones.get? client = some e ∧ deadline ≤ e

/-- A step with the reading `now` lets no client out that is held for longer, and holds the
client of every mapping that it removes. -/
structure Guards (now : ℚ) (n n' : RelayNat) : Prop where
  paired : n'.Paired
  held : ∀ client deadline, n.Held client deadline → n'.Held client deadline ∨ deadline ≤ now
  lost : ∀ client m, n.client.get? client = some m →
    n'.client.get? client = some m ∨ n'.Held client (now+relayTombstoneSeconds)

theorem Guards.trans (h : Guards now n n') (h' : Guards now n' n'') : Guards now n n'' := by
  refine ⟨h'.paired,fun client deadline hh => ?_,fun client m hm => ?_⟩
  · rcases h.held client deadline hh with hh | hle
    · exact h'.held client deadline hh
    · exact .inr hle
  · rcases h.lost client m hm with hm | hh
    · exact h'.lost client m hm
    · rcases h'.held client _ hh with hh | hle
      · exact .inr hh
      · have hpos : (0 : ℚ) < relayTombstoneSeconds := by norm_num [relayTombstoneSeconds]
        exact absurd hle (not_le.mpr (lt_add_of_pos_right now hpos))

theorem Paired.guards (h : n.Paired) (hg : n'.generation = n.generation) (hc : n'.client = n.client)
    (ht : n'.clientTombstones = n.clientTombstones) : Guards now n n' := by
  refine ⟨⟨?_,?_⟩,fun client deadline hh => .inl ?_,fun client m hm => .inl ?_⟩
  · rw [hg]
    exact h.key
  · rw [hg,hc]
    exact h.client
  · unfold Held
    rw [hc,ht]
    exact hh
  · rw [hc]
    exact hm

theorem guards_of_tombstone (h : n.Paired) (hm : n.generation.get? m.generation = some m)
    (hg : n'.generation = n.generation.pop m.generation)
    (hc : ∀ client x, n'.client.get? client = some x ↔
      n.client.get? client = some x ∧ client ≠ m.clientKey)
    (ht : n'.clientTombstones = n.clientTombstones.set m.clientKey (now+relayTombstoneSeconds)) :
    Guards now n n' := by
  have hnone : ∀ client, n.client.get? client = none ∨ client = m.clientKey →
      n'.client.get? client = none := by
    intro client hclient
    cases hx : n'.client.get? client with
    | none => rfl
    | some x =>
      obtain ⟨hx,hne⟩ := (hc client x).mp hx
      rcases hclient with hn | he
      · rw [hn] at hx
        cases hx
      · exact absurd he hne
  have hfiled := h.client _ m hm
  refine ⟨⟨fun g x hx => ?_,fun g x hx => ?_⟩,fun client deadline hh => .inl ?_,fun client x hx => ?_⟩
  · rw [hg,Dict.get?_pop_eq_some] at hx
    exact h.key g x hx.2
  · rw [hg,Dict.get?_pop_eq_some] at hx
    have hx' := h.client g x hx.2
    refine (hc _ x).mpr ⟨hx',fun he => hx.1 ?_⟩
    rw [he,hfiled] at hx'
    rw [← h.key g x hx.2,← Option.some.inj hx']
  · obtain ⟨hn,e,he,hle⟩ := hh
    refine ⟨hnone client (.inl hn),e,?_,hle⟩
    have hne : client ≠ m.clientKey := by
      rintro rfl
      rw [hn] at hfiled
      cases hfiled
    rw [ht,Dict.get?_set_of_ne _ _ hne]
    exact he
  · by_cases he : client = m.clientKey
    · subst he
      refine .inr ⟨hnone _ (.inr rfl),_,?_,le_rfl⟩
      rw [ht,Dict.get?_set_self]
    · exact .inl ((hc client x).mpr ⟨hx,he⟩)

theorem Paired.remove_guards (h : n.Paired) (hm : n.generation.get? m.generation = some m) :
    Guards now n (n.remove m now) := by
  have hfiled := h.client _ m hm
  refine guards_of_tombstone h hm ?_ (fun client x => ?_) ?_
  · simp [remove,addTombstones]
  · simp only [remove,addTombstones,releaseQuota_client,Dict.get?_popIf_eq_some]
    refine and_congr_right fun hx => not_congr ⟨And.left,fun he => ⟨he,?_⟩⟩
    rw [he,hfiled] at hx
    exact (Option.some.inj hx).symm
  · simp [remove,addTombstones]

theorem Paired.retain_guards (h : n.Paired) (hm : n.generation.get? m.generation = some m)
    (grace : ℚ) : Guards now n (n.retain m now grace) := by
  refine guards_of_tombstone h hm ?_ (fun client x => ?_) ?_
  · simp [retain,addTombstones,RelayNat.setCell]
  · simp only [retain,addTombstones,RelayNat.setCell,releaseQuota_client,Dict.get?_pop_eq_some]
    exact and_comm
  · simp [retain,addTombstones,RelayNat.setCell]

theorem Paired.foldl_remove_guards {l : List RelayNatMapping} (h : n.Paired)
    (hl : ∀ x ∈ l, n.generation.get? x.generation = some x)
    (hd : l.Pairwise fun x y => x.generation ≠ y.generation) :
    Guards now n (l.foldl (fun n m => n.remove m now) n) := by
  induction l generalizing n with
  | nil => exact h.guards rfl rfl rfl
  | cons a l ih =>
    obtain ⟨ha,hd⟩ := List.pairwise_cons.mp hd
    have hstep : Guards now n (n.remove a now) := h.remove_guards (hl a List.mem_cons_self)
    refine hstep.trans (ih hstep.paired (fun x hx => ?_) hd)
    simp only [remove,addTombstones,releaseQuota_generation,Dict.get?_pop_eq_some]
    exact ⟨(ha x hx).symm,hl x (List.mem_cons_of_mem _ hx)⟩

theorem Paired.drop_guards (h : n.Paired) (p : RelayNatMapping → Bool) :
    Guards now n (n.drop now p) := by
  refine h.foldl_remove_guards (fun x hx => ?_) (List.Pairwise.filter _ ?_)
  · obtain ⟨g,hg⟩ := (Dict.mem_values_iff _ _).mp (List.mem_of_mem_filter hx)
    rw [h.key g x hg]
    exact hg
  · refine Dict.pairwise_values fun i j x y hx hy hne => ?_
    rw [h.key i x hx,h.key j y hy]
    exact hne

theorem Paired.cleanup_guards (h : n.Paired) : Guards now n (n.cleanup now) := by
  have hdrop : Guards now n (n.drop now fun m => (n.cell m).expiresAt ≤ now) := h.drop_guards _
  refine hdrop.trans ⟨⟨hdrop.paired.key,hdrop.paired.client⟩,fun client deadline hh => ?_,
    fun client m hm => .inl hm⟩
  obtain ⟨hn,e,he,hle⟩ := hh
  by_cases hlt : now < e
  · exact .inl ⟨hn,e,(Dict.get?_filter_eq_some _ _ _ _).mpr ⟨he,by simpa using hlt⟩,hle⟩
  · exact .inr (hle.trans (not_lt.mp hlt))

theorem Paired.insert_guards (h : n.Paired) (hc : n.client.get? m.clientKey = none)
    (ht : (n.clientTombstones.get? m.clientKey).getD 0 ≤ now) (g : ℕ) :
    Guards now n ({ n with lastGeneration := g }.insert m now) := by
  refine ⟨⟨fun g x hx => ?_,fun g x hx => ?_⟩,fun client deadline hh => ?_,fun client x hx => .inl ?_⟩
  · rcases (Dict.get?_set_eq_some _ _ _ _ _).mp hx with ⟨rfl,rfl⟩ | ⟨-,hx⟩
    · rfl
    · exact h.key g x hx
  · rcases (Dict.get?_set_eq_some _ _ _ _ _).mp hx with ⟨rfl,rfl⟩ | ⟨-,hx⟩
    · exact Dict.get?_set_self _ _ _
    · have hx' := h.client g x hx
      refine (Dict.get?_set_of_ne _ _ fun he => ?_).trans hx'
      rw [he,hc] at hx'
      cases hx'
  · obtain ⟨hn,e,he,hle⟩ := hh
    by_cases heq : client = m.clientKey
    · subst heq
      rw [he] at ht
      exact .inr (hle.trans ht)
    · exact .inl ⟨(Dict.get?_set_of_ne _ _ heq).trans hn,e,he,hle⟩
  · refine (Dict.get?_set_of_ne _ _ fun he => ?_).trans hx
    rw [he,hc] at hx
    cases hx

theorem empty_paired : (empty : RelayNat).Paired :=
  ⟨fun _ _ h => (by cases h),fun _ _ h => (by cases h)⟩

theorem clear_paired (n : RelayNat) : n.clear.Paired :=
  ⟨fun _ _ h => (by cases h),fun _ _ h => (by cases h)⟩

theorem Change.guards {off passed : Prop} (h : Change off passed now n n') (hn : n.Paired) :
    n'.Paired ∧ (off ∨ n' = n ∨ passed ∧ Guards now n n') := by
  have hclean : Guards now n (n.cleanup now) := hn.cleanup_guards
  have hguards : passed → Guards now n n' → n'.Paired ∧ (off ∨ n' = n ∨ passed ∧ Guards now n n') :=
    fun hp hg => ⟨hg.paired,.inr (.inr ⟨hp,hg⟩)⟩
  cases h with
  | same => exact ⟨hn,.inr (.inl rfl)⟩
  | clear hoff => exact ⟨n.clear_paired,.inl hoff⟩
  | close hoff => exact ⟨⟨n.clear_paired.key,n.clear_paired.client⟩,.inl hoff⟩
  | drop p hp => exact hguards hp (hn.drop_guards p)
  | clean hp => exact hguards hp hclean
  | spend hp => exact hguards hp (hclean.trans (hclean.paired.guards rfl rfl rfl))
  | insert m hp hg hc ht => exact hguards hp (hclean.trans (hclean.paired.insert_guards hc ht _))
  | refresh m hp => exact hguards hp (hclean.trans (hclean.paired.guards rfl rfl rfl))
  | consume m hp => exact hguards hp (hclean.trans (hclean.paired.guards rfl rfl rfl))
  | activate m hp =>
    have hg : (n.activate m now).generation = n.generation := releasePending_generation
    have hc : (n.activate m now).client = n.client := releasePending_client
    have ht : (n.activate m now).clientTombstones = n.clientTombstones :=
      releasePending_clientTombstones
    exact hguards hp (hn.guards hg hc ht)
  | retain g m grace hp hm =>
    rw [← hn.key g m hm] at hm
    exact hguards hp (hn.retain_guards hm grace)
  | remove g m hp hm =>
    rw [← hn.key g m hm] at hm
    exact hguards hp (hn.remove_guards hm)

end RelayNat

namespace EgressPolicy

variable {s : EgressPolicy}

/-- No mapping of `client` can be made until the clock has passed `deadline`, or ever. -/
def Quarantined (client : Addr × ℕ) (deadline : ℚ) (s : EgressPolicy) : Prop :=
  s.Off ∨ s.clock.Seen deadline ∨ s.nat.Held client deadline

theorem Off.ensureOpen (h : s.Off) : ∃ e, s.ensureOpen = some e :=
  Option.ne_none_iff_exists'.mp fun hnone => s.ensureOpen_eq_none_iff.mp hnone h

theorem Off.section (h : s.Off) (sec : PolicySection) : (sec.apply s).Off := by
  rcases sec.flags s with hs | ⟨hc,he⟩
  · exact hs.off
  · unfold Off
    rw [hc,he]
    exact h

theorem Quarantined.section {client : Addr × ℕ} {deadline : ℚ} (h : s.Quarantined client deadline)
    (hn : s.nat.Paired) (sec : PolicySection) (hfits : sec.Fits s) :
    (sec.apply s).Quarantined client deadline := by
  rcases h with hoff | hseen | hheld
  · exact .inl (hoff.section sec)
  · exact .inr (.inl (sec.seen s hseen))
  · obtain ⟨-,hoff | hsame | ⟨hpassed,hguards⟩⟩ := (sec.change s).guards hn
    · exact .inl hoff
    · refine .inr (.inr ?_)
      rw [hsame]
      exact hheld
    · rcases hguards.held client deadline hheld with hheld | hle
      · exact .inr (.inr hheld)
      · obtain ⟨i,hi,hreading⟩ := hpassed hfits
        exact .inr (.inl ⟨i,hi,hle.trans hreading⟩)

theorem lost_held {m : RelayNatMapping} {client : Addr × ℕ} (hn : s.nat.Paired)
    (sec : PolicySection) (hfits : sec.Fits s) (hm : s.nat.client.get? client = some m)
    (hgone : (sec.apply s).nat.client.get? client ≠ some m) :
    (sec.apply s).Off ∨ (sec.apply s).clock.Seen (sec.reading s) ∧
      (sec.apply s).nat.Held client (sec.reading s+relayTombstoneSeconds) := by
  obtain ⟨-,hoff | hsame | ⟨hpassed,hguards⟩⟩ := (sec.change s).guards hn
  · exact .inl hoff
  · rw [hsame] at hgone
    exact absurd hm hgone
  · rcases hguards.lost client m hm with hm | hheld
    · exact absurd hm hgone
    · exact .inr ⟨hpassed hfits,hheld⟩

theorem createRelayMappingLocked_off (lease : Lease) (sampleIp : Addr) (samplePort : ℕ) (serverIp : Addr)
    (serverPort : ℕ) (relayIp : Addr) (relayPort : ℕ) (now : ℚ) (h : s.Off) :
    ∃ e, (createRelayMappingLocked lease sampleIp samplePort serverIp serverPort relayIp relayPort
      now s).1 = .error e := by
  obtain ⟨e,he⟩ := h.ensureOpen
  unfold createRelayMappingLocked
  rw [he]
  exact ⟨e,rfl⟩

theorem createRelayMappingLocked_error (lease : Lease) {sampleIp : Addr} {samplePort : ℕ}
    (serverIp : Addr) (serverPort : ℕ) (relayIp : Addr) (relayPort : ℕ) {now deadline : ℚ}
    (hn : s.nat.Paired) (h : s.Quarantined (sampleIp,samplePort) deadline)
    (hearly : ¬s.clock.Seen deadline) (hnow : s.clock.Seen now) :
    ∃ e, (createRelayMappingLocked lease sampleIp samplePort serverIp serverPort relayIp relayPort
      now s).1 = .error e := by
  have hlt : now < deadline := by
    by_contra hle
    obtain ⟨i,hi,hreading⟩ := hnow
    exact hearly ⟨i,hi,(not_lt.mp hle).trans hreading⟩
  rcases h with hoff | hseen | hheld
  · exact createRelayMappingLocked_off lease _ _ _ _ _ _ _ hoff
  · exact absurd hseen hearly
  · unfold createRelayMappingLocked
    obtain ⟨-,e,he,hle⟩ : (s.nat.cleanup now).Held (sampleIp,samplePort) deadline := by
      have hclean : RelayNat.Guards now s.nat (s.nat.cleanup now) := hn.cleanup_guards
      rcases hclean.held _ deadline hheld with hheld | hle
      · exact hheld
      · exact absurd hlt (not_lt.mpr hle)
    cases hopen : s.ensureOpen with
    | some e => exact ⟨e,rfl⟩
    | none =>
      dsimp only
      split
      · exact ⟨_,rfl⟩
      · rw [cleanupLocked_nat,he]
        split_ifs with hexp hdup htomb
        · exact ⟨_,rfl⟩
        · exact ⟨_,rfl⟩
        · exact ⟨_,rfl⟩
        all_goals exact absurd (.inr (hlt.trans_le hle)) htomb

/-- What a call of `create_relay_mapping` returns from a section that finds `s`: an error, or
the outcome of the last section with a reading that the clock has passed. -/
def Answer (sampleIp : Addr) (samplePort : ℕ) (reply : Reply) (s : EgressPolicy) : Prop :=
  (∃ e, reply = .raised e) ∨ ∃ lease serverIp serverPort relayIp relayPort now,
    s.clock.Seen now ∧ reply = mappingReply (createRelayMappingLocked lease sampleIp samplePort
      serverIp serverPort relayIp relayPort now s).1

/-- The rest of a call of `create_relay_mapping` for this client. -/
abbrev Answering (sampleIp : Addr) (samplePort : ℕ) (p : Prog EgressPolicy Reply)
    (s : EgressPolicy) : Prop :=
  p.Answers (fun s => s.nat.Numbered) Later (Answer sampleIp samplePort) s

theorem createRelayMapping_answers (sampleIp : Addr) (samplePort : ℕ) (serverIp : Addr)
    (serverPort : ℕ) (relayIp : Addr) (relayPort : ℕ) (s : EgressPolicy) :
    Answering sampleIp samplePort
      (PolicyCall.createRelayMapping sampleIp samplePort serverIp serverPort relayIp
        relayPort).body s := by
  have hraise : ∀ e s r, (Prog.done (.error e) : Prog EgressPolicy _) = Prog.done r →
      Answer sampleIp samplePort (mappingReply r) s := by
    intro e s r h
    cases h
    exact .inl ⟨e,rfl⟩
  refine Prog.Answers.map (Prog.answers_bind fun lease s => ?_)
  cases lease with
  | none => exact ⟨hraise _ s,trivial⟩
  | some lease =>
    refine ⟨fun _ h => (by cases h),Prog.answers_bind fun sampleLocal s => ?_⟩
    split_ifs
    · exact ⟨hraise _ s,trivial⟩
    · refine ⟨fun _ h => (by cases h),Prog.answers_bind fun relayLocal s => ?_⟩
      split_ifs
      · exact ⟨hraise _ s,trivial⟩
      · refine ⟨fun _ h => (by cases h),Prog.answers_bind fun cfg s => ?_⟩
        split_ifs
        · exact ⟨hraise _ s,trivial⟩
        · refine ⟨fun _ h => (by cases h),fun s₁ _ _ => ⟨fun _ h => (by cases h),?_⟩⟩
          intro s₂ hr _
          have hseen : s₂.clock.Seen s₁.now := hr.seen _ (Clock.seen_next_of_le le_rfl)
          refine ⟨fun r h => .inr ⟨lease,serverIp,serverPort,relayIp,relayPort,s₁.now,hseen,?_⟩,
            trivial⟩
          cases h
          rfl

theorem Answer.raised {sampleIp : Addr} {samplePort : ℕ} {reply : Reply} {deadline : ℚ}
    (h : Answer sampleIp samplePort reply s) (hn : s.nat.Paired)
    (hq : s.Quarantined (sampleIp,samplePort) deadline) (hearly : ¬s.clock.Seen deadline) :
    ∃ e, reply = .raised e := by
  rcases h with hraised | ⟨lease,serverIp,serverPort,relayIp,relayPort,now,hseen,rfl⟩
  · exact hraised
  · obtain ⟨e,he⟩ := createRelayMappingLocked_error lease serverIp serverPort relayIp relayPort hn hq
      hearly hseen
    exact ⟨e,by rw [he]; rfl⟩

theorem Answer.raised_of_off {sampleIp : Addr} {samplePort : ℕ} {reply : Reply}
    (h : Answer sampleIp samplePort reply s) (hoff : s.Off) : ∃ e, reply = .raised e := by
  rcases h with hraised | ⟨lease,serverIp,serverPort,relayIp,relayPort,now,-,rfl⟩
  · exact hraised
  · obtain ⟨e,he⟩ := createRelayMappingLocked_off lease sampleIp samplePort serverIp serverPort relayIp
      relayPort now hoff
    exact ⟨e,by rw [he]; rfl⟩

/-- What is known of a call in flight: its sections find values that fit, and it returns what
`create_relay_mapping` may return. -/
def InFlight (c : PolicyCall) (p : Prog EgressPolicy Reply) (s : EgressPolicy) : Prop :=
  Fitted False c p s ∧ ∀ sampleIp samplePort serverIp serverPort relayIp relayPort,
    c = .createRelayMapping sampleIp samplePort serverIp serverPort relayIp relayPort →
      Answering sampleIp samplePort p s

theorem inFlight_outline {J : EgressPolicy → Prop}
    (hJ : ∀ c f s, Brought False c f s → s.nat.Numbered → J s → J (f s)) :
    Pool.Outline PolicyCall.body Pool.anyCall (fun s => s.nat.Numbered ∧ J s) InFlight
      (Apart False) where
  call P c _ _ := by
    refine ⟨body_fitted c False.elim,?_⟩
    rintro sampleIp samplePort serverIp serverPort relayIp relayPort rfl
    exact createRelayMapping_answers ..
  exec c f k s hp hs := by
    obtain ⟨hf,hk⟩ := hp.1 s (rely_refl False c s) hs.1
    refine ⟨⟨brought_numbered hf hs.1,hJ c f s hf hs.1 hs.2⟩,hk,?_⟩
    intro sampleIp samplePort serverIp serverPort relayIp relayPort hc
    exact (hp.2 _ _ _ _ _ _ hc s (.refl s) hs.1).2
  frame c f k d q s hcd hp hs hq := by
    obtain ⟨hf,-⟩ := hp.1 s (rely_refl False c s) hs.1
    refine ⟨Prog.Brings.rely (R:=Rely False d) (fun _ _ _ => rely_trans) hq.1
      (brought_rely hf hcd),?_⟩
    intro sampleIp samplePort serverIp serverPort relayIp relayPort hd
    exact Prog.Answers.rely (R:=Later) (fun _ _ _ => Later.trans) (hq.2 _ _ _ _ _ _ hd)
      (brought_later hf)
  allows P c _ t d q _ := ⟨False.elim,False.elim⟩

theorem brought_paired {c : PolicyCall} {f : EgressPolicy → EgressPolicy}
    (h : Brought False c f s) (hn : s.nat.Paired) : (f s).nat.Paired := by
  rcases h with rfl | ⟨sec,rfl,-⟩
  · exact hn
  · exact ((sec.change s).guards hn).1

end EgressPolicy

namespace EgressPolicy

/-- Only a section of the policy takes a mapping out of the client table, and it leaves the client held. -/
theorem exists_section_of_lost {P P' : Pool EgressPolicy PolicyCall Reply}
    (hP : Pool.Outlined (fun s => s.nat.Numbered ∧ s.nat.Paired) InFlight (Apart False) P)
    (hstep : Pool.Step PolicyCall.body Pool.anyCall P P') {client : Addr × ℕ} {m : RelayNatMapping}
    (hclient : P.shared.nat.client.get? client = some m) (hlost : P'.shared.nat.client.get? client ≠ some m) :
    ∃ sec : PolicySection, P'.shared = sec.apply P.shared ∧
      (P'.shared.Off ∨ P'.shared.clock.Seen (sec.reading P.shared) ∧
        P'.shared.nat.Held client (sec.reading P.shared+relayTombstoneSeconds)) := by
  obtain ⟨c,f,hf,hshared⟩ : ∃ c f, Brought False c f P.shared ∧ P'.shared = f P.shared := by
    cases hstep with
    | call t c hn ha => exact ⟨c,id,brought_id,rfl⟩
    | exec t c f k he =>
      exact ⟨c,f,((hP.threads t c _ he).1 _ (rely_refl False c P.shared) hP.shared.1).1,rfl⟩
    | ret t c a he => exact ⟨c,id,brought_id,rfl⟩
  obtain rfl | ⟨sec,rfl,hfits,-⟩ := hf
  · rw [hshared] at hlost
    exact absurd hclient hlost
  refine ⟨sec,hshared,?_⟩
  rw [hshared] at hlost ⊢
  exact lost_held hP.shared.2 sec hfits hclient hlost

theorem quarantined_stays {client : Addr × ℕ} {deadline : ℚ} {c : PolicyCall} {f : EgressPolicy → EgressPolicy}
    {s : EgressPolicy} (hf : Brought False c f s) (hs : s.nat.Paired ∧ s.Quarantined client deadline) :
    (f s).nat.Paired ∧ (f s).Quarantined client deadline := by
  refine ⟨brought_paired hf hs.1,?_⟩
  rcases hf with rfl | ⟨sec,rfl,hfits,-⟩
  · exact hs.2
  · exact hs.2.section hs.1 sec hfits

theorem clientKey_of_sameFlow {m : RelayNatMapping} {sampleIp serverIp : Addr} {samplePort serverPort : ℕ}
    (h : (sampleIp,samplePort) = m.clientKey ∨
      (⟨.tcp,sampleIp,samplePort,serverIp,serverPort⟩ : FlowKey) = m.forwardKey) :
    m.clientKey = (sampleIp,samplePort) := by
  rcases h with hclient | hforward
  · exact hclient.symm
  · simp only [RelayNatMapping.forwardKey,FlowKey.mk.injEq] at hforward
    rw [RelayNatMapping.clientKey,hforward.2.1,hforward.2.2.1]

theorem quarantine_of_lost {cfg : PolicyConfig} {localIpv4 : List Addr} {clock : Clock}
    {P P' P'' : Pool EgressPolicy PolicyCall Reply}
    (hrun : Pool.Steps PolicyCall.body Pool.anyCall (Pool.start (init cfg localIpv4 clock)) P)
    (hstep : Pool.Step PolicyCall.body Pool.anyCall P P')
    (hlater : Pool.Steps PolicyCall.body Pool.anyCall P' P'')
    {m : RelayNatMapping} (hm : m ∈ P.shared.nat.client.values)
    (hgone : m ∉ P'.shared.nat.client.values) :
    ∃ sec : PolicySection, P'.shared = sec.apply P.shared ∧
      (P'.shared.Off ∨ P'.shared.clock.Seen (sec.reading P.shared)) ∧
      (¬P''.shared.clock.Seen (sec.reading P.shared+relayTombstoneSeconds) →
        P''.shared.nat.client.get? m.clientKey = none ∧
        ∀ u sampleIp samplePort serverIp serverPort relayIp relayPort f k reply,
          (sampleIp,samplePort) = m.clientKey ∨
            (⟨.tcp,sampleIp,samplePort,serverIp,serverPort⟩ : FlowKey) = m.forwardKey →
          P''.threads u = some (.createRelayMapping sampleIp samplePort serverIp serverPort
            relayIp relayPort,.step f k) →
          k P''.shared = .done reply → ∃ e, reply = .raised e) := by
  have hpaired : ∀ c f s, Brought False c f s → s.nat.Numbered → s.nat.Paired →
      (f s).nat.Paired := fun c f s hf _ hn => brought_paired hf hn
  have hP := Pool.outlined_steps (inFlight_outline hpaired) hrun
    (Pool.outlined_start ⟨RelayNat.Numbered.empty,RelayNat.empty_paired⟩)
  have hP' := Pool.outlined_step (inFlight_outline hpaired) hstep hP
  obtain ⟨client,hclient⟩ := (Dict.mem_values_iff _ _).mp hm
  have hkey : client = m.clientKey := hP.shared.1.clientKey client m hclient
  subst hkey
  have hlost : P'.shared.nat.client.get? m.clientKey ≠ some m :=
    fun h => hgone ((Dict.mem_values_iff _ _).mpr ⟨_,h⟩)
  obtain ⟨sec,hshared,hheld⟩ := exists_section_of_lost hP hstep hclient hlost
  have hq : P'.shared.Quarantined m.clientKey (sec.reading P.shared+relayTombstoneSeconds) :=
    hheld.imp_right fun h => .inr h.2
  have hP'' := Pool.outlined_steps (inFlight_outline fun c f s hf _ hs => quarantined_stays hf hs) hlater
    ⟨⟨hP'.shared.1,hP'.shared.2,hq⟩,hP'.threads,hP'.compat⟩
  obtain ⟨hnumbered,hpaired'',hq''⟩ := hP''.shared
  refine ⟨sec,hshared,hheld.imp_right And.left,fun hearly => ⟨?_,?_⟩⟩
  · rcases hq'' with hoff | hseen | hheld''
    · rw [(shut_of_steps ((hrun.tail hstep).trans hlater) hoff).nat.client]
      rfl
    · exact absurd hseen hearly
    · exact hheld''.1
  · intro u sampleIp samplePort serverIp serverPort relayIp relayPort f k reply hsame hu hk
    rw [clientKey_of_sameFlow hsame] at hq''
    have hanswer := ((hP''.threads u _ _ hu).2 _ _ _ _ _ _ rfl P''.shared (.refl _) hnumbered).1
    exact (hanswer reply hk).raised hpaired'' hq'' hearly

end EgressPolicy

open EgressPolicy in
/-- When a step takes a mapping out of the client table, with the reading `t` of its section,
no call for this client or this forward key gets a mapping until the clock has passed
`t + RELAY_TOMBSTONE_SECONDS`, whatever the call did before and however the calls interleave. In a
policy that is suspended or closed no call gets one at all. -/
theorem relay_quarantine (cfg : PolicyConfig) (localIpv4 : List Addr) (clock : Clock)
    (P : Pool EgressPolicy PolicyCall Reply)
    (hrun : Pool.Steps PolicyCall.body Pool.anyCall (Pool.start (init cfg localIpv4 clock)) P) :
    (∀ P' P'' : Pool EgressPolicy PolicyCall Reply, Pool.Step PolicyCall.body Pool.anyCall P P' →
      Pool.Steps PolicyCall.body Pool.anyCall P' P'' →
      ∀ m ∈ P.shared.nat.client.values, m ∉ P'.shared.nat.client.values →
        ∃ sec : PolicySection, P'.shared = sec.apply P.shared ∧
          (P'.shared.Off ∨ P'.shared.clock.Seen (sec.reading P.shared)) ∧
          (¬P''.shared.clock.Seen (sec.reading P.shared+relayTombstoneSeconds) →
            P''.shared.nat.client.get? m.clientKey = none ∧
            ∀ u sampleIp samplePort serverIp serverPort relayIp relayPort f k reply,
              (sampleIp,samplePort) = m.clientKey ∨
                (⟨.tcp,sampleIp,samplePort,serverIp,serverPort⟩ : FlowKey) = m.forwardKey →
              P''.threads u = some (.createRelayMapping sampleIp samplePort serverIp serverPort
                relayIp relayPort,.step f k) →
              k P''.shared = .done reply → ∃ e, reply = .raised e)) ∧
      (P.shared.Off →
        ∀ u sampleIp samplePort serverIp serverPort relayIp relayPort f k reply,
          P.threads u = some (.createRelayMapping sampleIp samplePort serverIp serverPort
            relayIp relayPort,.step f k) →
          k P.shared = .done reply → ∃ e, reply = .raised e) := by
  refine ⟨fun P' P'' hstep hlater m hm hgone => quarantine_of_lost hrun hstep hlater hm hgone,?_⟩
  intro hoff u sampleIp samplePort serverIp serverPort relayIp relayPort f k reply hu hk
  have hP := Pool.outlined_steps (inFlight_outline (J:=fun _ => True) fun _ _ _ _ _ _ => trivial) hrun
    (Pool.outlined_start ⟨RelayNat.Numbered.empty,trivial⟩)
  have hanswer := ((hP.threads u _ _ hu).2 _ _ _ _ _ _ rfl P.shared (.refl _) hP.shared.1).1
  exact (hanswer reply hk).raised_of_off hoff

def PolicyCall.alone (c : PolicyCall) (steps : ℕ) : List (Pool.Turn PolicyCall) :=
  .call 0 c::List.replicate (steps+1) (.go 0)

def PolicyCall.connect : PolicyCall :=
  .createRelayMapping (.dotted 10 0 0 5) 50000 (.dotted 93 184 216 34) 443 (.dotted 10 0 0 5) 8443

def PolicyCall.leased (ttl : ℤ) : List (Pool.Turn PolicyCall) :=
  (PolicyCall.replaceLeases "a.test" [(.dotted 93 184 216 34,ttl)]).alone 3++
    PolicyCall.connect.alone 7

/-- The relay is about to close the mapping, has closed it, and the sample connects again. -/
def closing : Pool EgressPolicy PolicyCall EgressPolicy.Reply :=
  Pool.schedule PolicyCall.body
    (Pool.start (EgressPolicy.init .twoDomains [.dotted 10 0 0 5] (.every 1)))
    (PolicyCall.leased 1000++[.call 1 (.closeRelayMapping 1 none)])

def closedMapping : Pool EgressPolicy PolicyCall EgressPolicy.Reply :=
  Pool.turn PolicyCall.body closing (.go 1)

def reconnecting : Pool EgressPolicy PolicyCall EgressPolicy.Reply :=
  Pool.schedule PolicyCall.body closedMapping (.call 0 .connect::List.replicate 6 (.go 0))

/-- The policy is suspended while a connection stands before its last section. -/
def suspendedConnecting : Pool EgressPolicy PolicyCall EgressPolicy.Reply :=
  Pool.schedule PolicyCall.body
    (Pool.start (EgressPolicy.init .twoDomains [.dotted 10 0 0 5] (.every 1)))
    ((PolicyCall.replaceLeases "a.test" [(.dotted 93 184 216 34,1000)]).alone 3++
      .call 0 .connect::List.replicate 6 (.go 0)++[.call 1 .suspend,.go 1])

theorem relay_quarantine_closing :
    (∃ sec : PolicySection, closedMapping.shared = sec.apply closing.shared ∧
      (closedMapping.shared.Off ∨ closedMapping.shared.clock.Seen (sec.reading closing.shared)) ∧
      (¬reconnecting.shared.clock.Seen (sec.reading closing.shared+relayTombstoneSeconds) →
        reconnecting.shared.nat.client.get? (.dotted 10 0 0 5,50000) = none ∧
        ∀ u sampleIp samplePort serverIp serverPort relayIp relayPort f k reply,
          (sampleIp,samplePort) = (.dotted 10 0 0 5,50000) ∨
            (⟨.tcp,sampleIp,samplePort,serverIp,serverPort⟩ : FlowKey) =
              ⟨.tcp,.dotted 10 0 0 5,50000,.dotted 93 184 216 34,443⟩ →
          reconnecting.threads u = some (.createRelayMapping sampleIp samplePort serverIp
            serverPort relayIp relayPort,.step f k) →
          k reconnecting.shared = .done reply → ∃ e, reply = .raised e)) ∧
      ∀ u sampleIp samplePort serverIp serverPort relayIp relayPort f k reply,
        suspendedConnecting.threads u = some (.createRelayMapping sampleIp samplePort serverIp
          serverPort relayIp relayPort,.step f k) →
        k suspendedConnecting.shared = .done reply → ∃ e, reply = .raised e := by
  have hgone : closedMapping.shared.nat.client.size = 0 := by decide +kernel
  have hthere : closing.shared.nat.client.size = 1 := by decide +kernel
  have hstep := (closing.turn_step PolicyCall.body (.go 1)).resolve_left fun h => by
    change closedMapping = closing at h
    rw [h,hthere] at hgone
    cases hgone
  refine ⟨(relay_quarantine _ _ _ closing (Pool.schedule_steps _ _)).1 closedMapping reconnecting hstep
    (Pool.schedule_steps _ _) ⟨1,"a.test",.dotted 10 0 0 5,50000,.dotted 93 184 216 34,443,
      .dotted 10 0 0 5,8443,2⟩ (by decide +kernel) (by decide +kernel),?_⟩
  exact (relay_quarantine _ _ _ suspendedConnecting (Pool.schedule_steps _ _)).2 (.inr (by decide +kernel))

def Clock.stalls : Clock where
  readings i := if i < 3 then 0 else if i < 4 then 50 else 350
  mono := by
    intro i j hij
    dsimp only
    split_ifs <;> first | omega | norm_num
  tick := 0

/-- A forward lookup has read 50, and another call 350, before the lookup gets the lock. -/
def staleLookup : Pool EgressPolicy PolicyCall EgressPolicy.Reply :=
  Pool.schedule PolicyCall.body
    (Pool.start (EgressPolicy.init .twoDomains [.dotted 10 0 0 5] .stalls))
    (PolicyCall.leased 1000++[
      .call 0 (.matchRelayForward ⟨.tcp,.dotted 10 0 0 5,50000,.dotted 93 184 216 34,443⟩),.go 0,
      .call 1 (.relayClientMappingState (.dotted 10 0 0 5) 50000),.go 1])

def staleSwept : Pool EgressPolicy PolicyCall EgressPolicy.Reply :=
  Pool.turn PolicyCall.body staleLookup (.go 0)

def rebound : Pool EgressPolicy PolicyCall EgressPolicy.Reply :=
  Pool.schedule PolicyCall.body staleSwept (.call 2 .connect::List.replicate 7 (.go 2))

/-- The expired mapping is removed at 350 or later, but its tombstone is reckoned from 50, so
that the client gets another mapping at 350. -/
theorem stale_sweep_rebinds :
    Pool.Steps PolicyCall.body Pool.anyCall
        (Pool.start (EgressPolicy.init .twoDomains [.dotted 10 0 0 5] .stalls)) staleLookup ∧
      Pool.Step PolicyCall.body Pool.anyCall staleLookup staleSwept ∧
      Pool.Steps PolicyCall.body Pool.anyCall staleSwept rebound ∧
      staleLookup.shared.clock.Seen 350 ∧ (∀ i, Clock.stalls.readings i ≤ 350) ∧
      (350 : ℚ) < 350+relayTombstoneSeconds ∧
      staleLookup.shared.nat.client.contains (.dotted 10 0 0 5,50000) = true ∧
      staleSwept.shared.nat.client.contains (.dotted 10 0 0 5,50000) = false ∧
      (rebound.shared.nat.client.get? (.dotted 10 0 0 5,50000)).map (·.createdAt) = some 350 := by
  have hbefore : staleLookup.shared.nat.client.contains (.dotted 10 0 0 5,50000) = true := by
    decide +kernel
  have hafter : staleSwept.shared.nat.client.contains (.dotted 10 0 0 5,50000) = false := by
    decide +kernel
  have hstep := (staleLookup.turn_step PolicyCall.body (.go 0)).resolve_left fun h => by
    change staleSwept = staleLookup at h
    rw [h,hbefore] at hafter
    cases hafter
  refine ⟨Pool.schedule_steps _ _,hstep,Pool.schedule_steps _ _,⟨4,by decide +kernel,
    by decide +kernel⟩,fun i => ?_,by norm_num [relayTombstoneSeconds],hbefore,hafter,
    by decide +kernel⟩
  simp only [Clock.stalls]
  split_ifs <;> norm_num

end FakeNetNG
