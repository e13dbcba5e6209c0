import FakeNetNG.NetPolicy

/-!
# What the policy's operations do to the IPv6 output chain

Of each operation we say what becomes of the IPv6 output chain and of the mode flag. Rules
are installed into a chain that may hold some of them already, wherever those stand.
-/

namespace FakeNetNG
namespace NetPolicy

open Fallible

/-- The packets that isolation lets out. -/
def Exempt (endpoints : List ControlEndpoint) (pkt : Packet) : Prop :=
  pkt.destination = loopback6 ∨
    ∃ endpoint ∈ endpoints, endpoint.address = .v6 pkt.destination ∧
      ∃ dport, pkt.tcp = some (endpoint.port,dport)

/-- First-match evaluation drops all packets but the exempt ones, which it accepts. -/
def Isolates (endpoints : List ControlEndpoint) (chain : List Rule) : Prop :=
  ∀ pkt, (Exempt endpoints pkt → evaluate chain pkt = some .accept) ∧
    (¬ Exempt endpoints pkt → evaluate chain pkt = some .drop)

def v6Chain (endpoints : List ControlEndpoint) : List Rule := (v6Rules endpoints).map OwnedRule.rule

/-- The rules above the fallback. -/
def exceptions (endpoints : List ControlEndpoint) : List Rule :=
  loopbackRule.rule :: (endpoints.flatMap endpointRules6).map OwnedRule.rule

theorem v6Chain_eq (endpoints : List ControlEndpoint) :
    v6Chain endpoints = dropRule.rule :: exceptions endpoints := rfl

section Chains

variable {endpoints : List ControlEndpoint} {chain : List Rule} {pkt : Packet} {rule : Rule}

theorem mem_exceptions_iff : rule ∈ exceptions endpoints ↔ rule = loopbackRule.rule ∨
    ∃ endpoint ∈ endpoints, ∃ ip, endpoint.address = .v6 ip ∧
      rule = ⟨.ip6Output,[.tcp,.destination6 ip,.sport endpoint.port],true,.accept⟩ := by
  simp only [exceptions,List.mem_cons,List.mem_map,List.mem_flatMap]
  refine or_congr_right ⟨?_,?_⟩
  · rintro ⟨owned,⟨endpoint,hendpoint,howned⟩,rfl⟩
    unfold endpointRules6 at howned
    cases haddress : endpoint.address with
    | v4 ip => simp [haddress] at howned
    | v6 ip =>
      simp only [haddress,List.mem_singleton] at howned
      exact ⟨endpoint,hendpoint,ip,haddress,by rw [howned]; rfl⟩
  · rintro ⟨endpoint,hendpoint,ip,haddress,rfl⟩
    refine ⟨tagged .ip6Output [.tcp,.destination6 ip,.sport endpoint.port] endpoint.ip.toLower .accept,
      ⟨endpoint,hendpoint,?_⟩,rfl⟩
    simp [endpointRules6,haddress]

theorem target_of_mem_exceptions (h : rule ∈ exceptions endpoints) : rule.target = .accept := by
  rcases mem_exceptions_iff.mp h with rfl | ⟨endpoint,hendpoint,ip,haddress,rfl⟩ <;> rfl

theorem chain_of_mem_v6Chain (h : rule ∈ v6Chain endpoints) : rule.chain = .ip6Output := by
  rw [v6Chain_eq,List.mem_cons] at h
  rcases h with rfl | h
  · rfl
  · rcases mem_exceptions_iff.mp h with rfl | ⟨endpoint,hendpoint,ip,haddress,rfl⟩ <;> rfl

theorem dropRule_matches (pkt : Packet) : dropRule.rule.matches pkt = true := rfl

theorem dropRule_not_mem_exceptions : dropRule.rule ∉ exceptions endpoints := by
  intro h
  have htarget := target_of_mem_exceptions h
  cases htarget

theorem exempt_iff : Exempt endpoints pkt ↔ ∃ rule ∈ exceptions endpoints, rule.matches pkt := by
  constructor
  · rintro (h | ⟨endpoint,hendpoint,haddress,dport,htcp⟩)
    · refine ⟨loopbackRule.rule,mem_exceptions_iff.mpr (Or.inl rfl),?_⟩
      simp [Rule.matches,loopbackRule,tagged,Criterion.matches,h]
    · refine ⟨_,mem_exceptions_iff.mpr (Or.inr ⟨endpoint,hendpoint,_,haddress,rfl⟩),?_⟩
      simp [Rule.matches,Criterion.matches,htcp]
  · rintro ⟨rule,hrule,hmatch⟩
    rcases mem_exceptions_iff.mp hrule with rfl | ⟨endpoint,hendpoint,ip,haddress,rfl⟩
    · left
      simpa [Rule.matches,loopbackRule,tagged,Criterion.matches] using hmatch
    · right
      simp only [Rule.matches,List.all_cons,List.all_nil,Bool.and_true,Bool.and_eq_true,
        Criterion.matches,beq_iff_eq] at hmatch
      obtain ⟨-,hip,hport⟩ := hmatch
      rcases htcp : pkt.tcp with _ | ⟨sport,dport⟩
      · simp [htcp] at hport
      · simp only [htcp,Option.any_some,beq_iff_eq] at hport
        exact ⟨endpoint,hendpoint,by rw [haddress,hip],dport,by rw [hport]⟩

theorem evaluate_append (new chain : List Rule) (pkt : Packet) :
    evaluate (new++chain) pkt = (evaluate new pkt).or (evaluate chain pkt) := by
  unfold evaluate
  rw [List.find?_append]
  cases new.find? (Rule.matches pkt) <;> rfl

/-- Among exceptions, a packet is accepted when one of them matches and otherwise goes on. -/
theorem evaluate_of_subset_exceptions (h : chain ⊆ exceptions endpoints) (pkt : Packet) :
    evaluate chain pkt = if ∃ rule ∈ chain, rule.matches pkt then some .accept else none := by
  unfold evaluate
  cases hfind : chain.find? (Rule.matches pkt) with
  | none =>
    have hnone := List.find?_eq_none.mp hfind
    rw [if_neg]
    · rfl
    · rintro ⟨rule,hrule,hmatch⟩
      exact hnone rule hrule hmatch
  | some rule =>
    have hrule := List.mem_of_find?_eq_some hfind
    rw [if_pos ⟨rule,hrule,List.find?_some hfind⟩]
    exact congrArg some (target_of_mem_exceptions (h hrule))

theorem evaluate_of_not_exempt (hchain : chain ⊆ v6Chain endpoints)
    (hdrop : dropRule.rule ∈ chain) (h : ¬ Exempt endpoints pkt) :
    evaluate chain pkt = some .drop := by
  unfold evaluate
  cases hfind : chain.find? (Rule.matches pkt) with
  | none =>
    have hnone := List.find?_eq_none.mp hfind dropRule.rule hdrop
    exact absurd (dropRule_matches pkt) hnone
  | some rule =>
    have hrule := hchain (List.mem_of_find?_eq_some hfind)
    rw [v6Chain_eq,List.mem_cons] at hrule
    rcases hrule with rfl | hrule
    · rfl
    · exact absurd (exempt_iff.mpr ⟨rule,hrule,List.find?_some hfind⟩) h

end Chains

/-- What installing does to a chain: each rule that is missing goes to its head. -/
def installed (chain : List Rule) : List Rule → List Rule
  | [] => chain
  | rule :: rest => installed (if rule ∈ chain then chain else rule :: chain) rest

theorem installed_eq_append (rules chain : List Rule) :
    ∃ new, installed chain rules = new++chain ∧
      ∀ rule, rule ∈ new ↔ rule ∈ rules ∧ rule ∉ chain := by
  induction rules generalizing chain with
  | nil => exact ⟨[],rfl,by simp⟩
  | cons rule rest ih =>
    by_cases hmem : rule ∈ chain
    · obtain ⟨new,heq,hnew⟩ := ih chain
      refine ⟨new,by simpa [installed,hmem] using heq,fun other => ?_⟩
      rw [hnew,List.mem_cons]
      constructor
      · exact fun h => ⟨Or.inr h.1,h.2⟩
      · rintro ⟨rfl | h,hother⟩
        · exact absurd hmem hother
        · exact ⟨h,hother⟩
    · obtain ⟨new,heq,hnew⟩ := ih (rule :: chain)
      refine ⟨new++[rule],by simpa [installed,hmem] using heq,fun other => ?_⟩
      rw [List.mem_append,hnew,List.mem_singleton,List.mem_cons,List.mem_cons]
      by_cases hother : other = rule
      · simp [hother,hmem]
      · simp [hother]

theorem installed_subset {rules chain all : List Rule} (hchain : chain ⊆ all) (hrules : rules ⊆ all) :
    installed chain rules ⊆ all := by
  obtain ⟨new,heq,hnew⟩ := installed_eq_append rules chain
  rw [heq]
  intro rule hrule
  rcases List.mem_append.mp hrule with h | h
  · exact hrules ((hnew rule).mp h).1
  · exact hchain h

/-- What makes a chain ready for the rules: for an exempt packet, an exception is missing and
will be put at the head, or the packet gets through to an exception above the fallback. -/
def Ready (endpoints : List ControlEndpoint) (chain : List Rule) : Prop :=
  ∀ pkt, Exempt endpoints pkt →
    (∃ rule ∈ exceptions endpoints, rule.matches pkt ∧ rule ∉ chain) ∨
      (dropRule.rule ∈ chain ∧ evaluate chain pkt = some .accept)

theorem ready_nil (endpoints : List ControlEndpoint) : Ready endpoints [] := by
  intro pkt h
  obtain ⟨rule,hrule,hmatch⟩ := exempt_iff.mp h
  exact Or.inl ⟨rule,hrule,hmatch,List.not_mem_nil⟩

theorem isolates_installed_iff {endpoints : List ControlEndpoint} {chain : List Rule}
    (hchain : chain ⊆ v6Chain endpoints) :
    Isolates endpoints (installed chain (v6Chain endpoints)) ↔ Ready endpoints chain := by
  -- the chain with the fallback, before the exceptions go in
  set base := if dropRule.rule ∈ chain then chain else dropRule.rule :: chain with hbase
  have hdrop : dropRule.rule ∈ base := by
    by_cases h : dropRule.rule ∈ chain <;> simp [hbase,h]
  have hsubset : base ⊆ v6Chain endpoints := by
    intro rule hrule
    by_cases h : dropRule.rule ∈ chain
    · exact hchain (by simpa [hbase,h] using hrule)
    · rw [hbase,if_neg h,List.mem_cons] at hrule
      rcases hrule with rfl | hrule
      · simp [v6Chain_eq]
      · exact hchain hrule
  have hmissing : ∀ rule ∈ exceptions endpoints, (rule ∉ base ↔ rule ∉ chain) := by
    intro rule hrule
    have hne : rule ≠ dropRule.rule := fun h => dropRule_not_mem_exceptions (h ▸ hrule)
    by_cases h : dropRule.rule ∈ chain <;> simp [hbase,h,hne]
  have hinstalled : installed chain (v6Chain endpoints) = installed base (exceptions endpoints) := by
    rw [v6Chain_eq]
    rfl
  obtain ⟨new,heq,hnew⟩ := installed_eq_append (exceptions endpoints) base
  have hexceptions : new ⊆ exceptions endpoints := fun rule hrule => ((hnew rule).mp hrule).1
  have hevaluate : ∀ pkt, evaluate (installed chain (v6Chain endpoints)) pkt =
      if ∃ rule ∈ new, rule.matches pkt then some .accept else evaluate base pkt := by
    intro pkt
    rw [hinstalled,heq,evaluate_append,evaluate_of_subset_exceptions hexceptions]
    by_cases h : ∃ rule ∈ new, rule.matches pkt <;> simp [h]
  constructor
  · intro h pkt hpkt
    have haccept := (h pkt).1 hpkt
    rw [hevaluate] at haccept
    by_cases hnone : ∃ rule ∈ new, rule.matches pkt
    · obtain ⟨rule,hrule,hmatch⟩ := hnone
      have hmem := (hnew rule).mp hrule
      exact Or.inl ⟨rule,hmem.1,hmatch,(hmissing rule hmem.1).mp hmem.2⟩
    · right
      rw [if_neg hnone] at haccept
      by_cases hmem : dropRule.rule ∈ chain
      · rw [hbase,if_pos hmem] at haccept
        exact ⟨hmem,haccept⟩
      · rw [hbase,if_neg hmem] at haccept
        cases haccept
  · intro h pkt
    refine ⟨fun hpkt => ?_,fun hpkt => ?_⟩
    · rw [hevaluate]
      rcases h pkt hpkt with ⟨rule,hrule,hmatch,hrest⟩ | ⟨hmem,haccept⟩
      · have hmem : rule ∈ new := (hnew rule).mpr ⟨hrule,(hmissing rule hrule).mpr hrest⟩
        rw [if_pos ⟨rule,hmem,hmatch⟩]
      · rw [hbase,if_pos hmem,haccept,ite_self]
    · rw [hevaluate,if_neg]
      · exact evaluate_of_not_exempt hsubset hdrop hpkt
      · rintro ⟨rule,hrule,hmatch⟩
        exact hpkt (exempt_iff.mpr ⟨rule,hexceptions hrule,hmatch⟩)

/-- The IPv6 output chain and the mode flag are as they were. -/
def Same (s s' : State) : Prop :=
  s'.tables .ip6Output = s.tables .ip6Output ∧ s'.mode = s.mode

theorem Same.refl (s : State) : Same s s := ⟨rfl,rfl⟩

theorem Same.trans {s₁ s₂ s₃ : State} (h₁ : Same s₁ s₂) (h₂ : Same s₂ s₃) : Same s₁ s₃ :=
  ⟨h₂.1.trans h₁.1,h₂.2.trans h₁.2⟩

/-- Rules may have gone from the chain, and the flag is as it was. -/
def Shrinks (s s' : State) : Prop :=
  s'.tables .ip6Output ⊆ s.tables .ip6Output ∧ s'.mode = s.mode

theorem Same.shrinks {s s' : State} (h : Same s s') : Shrinks s s' := ⟨by rw [h.1]; simp,h.2⟩

theorem Shrinks.trans {s₁ s₂ s₃ : State} (h₁ : Shrinks s₁ s₂) (h₂ : Shrinks s₂ s₃) :
    Shrinks s₁ s₃ :=
  ⟨List.Subset.trans h₂.1 h₁.1,h₂.2.trans h₁.2⟩

section Operations

variable (endpoints : List ControlEndpoint) (owned : OwnedRule) (s : State)

/-- A command takes effect or leaves the tables; the policy object is not touched. -/
theorem run_wp (command : Command) :
    wp (run command)
      (fun code s' => s'.owned = s.owned ∧ s'.mode = s.mode ∧
        (code = command.returncode s.tables ∧ s'.tables = command.apply s.tables ∨
          code = 2 ∧ s'.tables = s.tables))
      (fun _ s' => s'.owned = s.owned ∧ s'.mode = s.mode ∧
        (s'.tables = command.apply s.tables ∨ s'.tables = s.tables)) s := by
  unfold wp run
  rcases s.outcomes with _ | ⟨_ | _ | (_ | _),rest⟩ <;> simp

theorem present_wp :
    wp owned.present
      (fun found s' => (found = decide (owned.rule ∈ s.tables owned.rule.chain)) ∧ Same s s')
      (fun _ s' => Same s s') s := by
  unfold OwnedRule.present
  rw [wp_bind]
  refine wp_mono (run_wp s _) ?_ ?_
  · rintro code s' ⟨-,hmode,⟨hcode,htables⟩ | ⟨hcode,htables⟩⟩
    · have hsame : Same s s' := ⟨congrFun htables _,hmode⟩
      by_cases hmem : owned.rule ∈ s.tables owned.rule.chain
      · have hzero : code = 0 := by simpa [Command.returncode,hmem] using hcode
        simp [hzero,hmem,hsame]
      · have hone : code = 1 := by simpa [Command.returncode,hmem] using hcode
        simp [hone,hmem,hsame]
    · have hsame : Same s s' := ⟨congrFun htables _,hmode⟩
      simp [hcode,hsame]
  · rintro _ s' ⟨-,hmode,htables | htables⟩ <;> exact ⟨congrFun htables _,hmode⟩

theorem remove_wp :
    wp owned.remove (fun _ s' => Shrinks s s') (fun _ s' => Shrinks s s') s := by
  have herase : (Command.delete owned.rule).apply s.tables .ip6Output ⊆ s.tables .ip6Output := by
    by_cases h : owned.rule.chain = .ip6Output
    · rw [Command.apply,h,Function.update_self]
      exact List.erase_subset
    · rw [Command.apply,Function.update_of_ne (Ne.symm h)]
      exact fun _ h => h
  unfold OwnedRule.remove
  rw [wp_bind]
  refine wp_mono (run_wp s _) ?_ ?_
  · rintro _ s' ⟨-,hmode,⟨-,htables⟩ | ⟨-,htables⟩⟩
    · exact ⟨by rw [htables]; exact herase,hmode⟩
    · exact ⟨by rw [htables]; simp,hmode⟩
  · rintro _ s' ⟨-,hmode,htables | htables⟩
    · exact ⟨by rw [htables]; exact herase,hmode⟩
    · exact ⟨by rw [htables]; simp,hmode⟩

theorem anyPresent_wp (rules : List OwnedRule) :
    wp (anyPresent rules) (fun _ s' => Same s s') (fun _ s' => Same s s') s := by
  induction rules generalizing s with
  | nil => exact Same.refl s
  | cons owned rest ih =>
    unfold anyPresent
    rw [wp_bind]
    refine wp_mono (present_wp owned s) ?_ (fun _ _ h => h)
    rintro found s' ⟨-,hsame⟩
    cases found with
    | true => exact hsame
    | false => exact wp_mono (ih s') (fun _ _ h => hsame.trans h) (fun _ _ h => hsame.trans h)

theorem refuseLegacy_wp (family : Family) :
    wp (refuseLegacy endpoints family) (fun _ s' => Same s s') (fun _ s' => Same s s') s := by
  unfold refuseLegacy
  rw [wp_bind]
  refine wp_mono (anyPresent_wp s _) ?_ (fun _ _ h => h)
  intro found s' hsame
  cases found <;> exact hsame

theorem own_same : Same s (own owned s) := by
  unfold own
  split
  · exact Same.refl s
  · exact ⟨rfl,rfl⟩

/-- A rule of the IPv6 output chain is there afterwards, at the head if it was missing. -/
theorem installRule_wp (hchain : owned.rule.chain = .ip6Output) :
    wp (installRule owned)
      (fun _ s' => s'.mode = s.mode ∧ s'.tables .ip6Output =
        if owned.rule ∈ s.tables .ip6Output then s.tables .ip6Output
        else owned.rule :: s.tables .ip6Output)
      (fun _ s' => s'.mode = s.mode ∧ s'.tables .ip6Output ⊆
        owned.rule :: s.tables .ip6Output) s := by
  unfold installRule
  rw [wp_bind]
  refine wp_mono (present_wp owned s) ?_ (fun _ s' h => ⟨h.2,by rw [h.1]; simp⟩)
  rintro found s' ⟨hfound,hsame⟩
  rw [hchain] at hfound
  by_cases hmem : owned.rule ∈ s.tables .ip6Output
  · have hown := hsame.trans (own_same owned s')
    simp only [hfound,hmem,decide_true,if_true,wp_modify]
    exact ⟨hown.2,hown.1⟩
  · have hinsert : (Command.insert owned.rule).apply s'.tables .ip6Output =
        owned.rule :: s.tables .ip6Output := by
      rw [Command.apply,hchain,Function.update_self,hsame.1]
    simp only [hfound,hmem,decide_false,Bool.false_eq_true,if_false,wp_bind]
    refine wp_mono (run_wp s' _) ?_ ?_
    · rintro code s'' ⟨-,hmode,⟨hcode,htables⟩ | ⟨hcode,htables⟩⟩
      · have hzero : code = 0 := hcode
        have hown := own_same owned s''
        simp only [hzero,if_true,wp_modify]
        exact ⟨hown.2.trans (hmode.trans hsame.2),by rw [hown.1,htables,hinsert]⟩
      · have htwo : code ≠ 0 := by omega
        simp only [htwo,if_false,wp_raise]
        exact ⟨hmode.trans hsame.2,by rw [htables,hsame.1]; simp⟩
    · rintro _ s'' ⟨-,hmode,htables | htables⟩
      · exact ⟨hmode.trans hsame.2,by rw [htables,hinsert]; simp⟩
      · exact ⟨hmode.trans hsame.2,by rw [htables,hsame.1]; simp⟩

theorem installRule_same (hchain : owned.rule.chain ≠ .ip6Output) :
    wp (installRule owned) (fun _ s' => Same s s') (fun _ s' => Same s s') s := by
  unfold installRule
  rw [wp_bind]
  refine wp_mono (present_wp owned s) ?_ (fun _ _ h => h)
  rintro found s' ⟨-,hsame⟩
  cases found with
  | true => exact hsame.trans (own_same owned s')
  | false =>
    have hinsert : (Command.insert owned.rule).apply s'.tables .ip6Output = s.tables .ip6Output := by
      rw [Command.apply,Function.update_of_ne (Ne.symm hchain),hsame.1]
    simp only [Bool.false_eq_true,if_false,wp_bind]
    refine wp_mono (run_wp s' _) ?_ ?_
    · rintro code s'' ⟨-,hmode,⟨hcode,htables⟩ | ⟨hcode,htables⟩⟩
      · have hzero : code = 0 := hcode
        have hown := own_same owned s''
        simp only [hzero,if_true,wp_modify]
        exact ⟨by rw [hown.1,htables,hinsert],hown.2.trans (hmode.trans hsame.2)⟩
      · have htwo : code ≠ 0 := by omega
        simp only [htwo,if_false,wp_raise]
        exact ⟨by rw [htables,hsame.1],hmode.trans hsame.2⟩
    · rintro _ s'' ⟨-,hmode,htables | htables⟩
      · exact ⟨by rw [htables,hinsert],hmode.trans hsame.2⟩
      · exact ⟨by rw [htables,hsame.1],hmode.trans hsame.2⟩

theorem install_wp (rules : List OwnedRule) (hchain : ∀ owned ∈ rules, owned.rule.chain = .ip6Output)
    {all : List Rule} (hall : s.tables .ip6Output ⊆ all) (hrules : rules.map OwnedRule.rule ⊆ all) :
    wp (install rules)
      (fun _ s' => s'.mode = s.mode ∧
        s'.tables .ip6Output = installed (s.tables .ip6Output) (rules.map OwnedRule.rule))
      (fun _ s' => s'.mode = s.mode ∧ s'.tables .ip6Output ⊆ all) s := by
  induction rules generalizing s with
  | nil => exact ⟨rfl,rfl⟩
  | cons owned rest ih =>
    have hrule : owned.rule ∈ all := hrules (by simp)
    have hcons : owned.rule :: s.tables .ip6Output ⊆ all := List.cons_subset.mpr ⟨hrule,hall⟩
    unfold install
    rw [wp_bind]
    refine wp_mono (installRule_wp owned s (hchain owned (by simp))) ?_
      (fun _ s' h => ⟨h.1,List.Subset.trans h.2 hcons⟩)
    rintro _ s' ⟨hmode,htables⟩
    have hall' : s'.tables .ip6Output ⊆ all := by
      rw [htables]
      split
      · exact hall
      · exact hcons
    have hrest : rest.map OwnedRule.rule ⊆ all :=
      fun _ h => hrules (by rw [List.map_cons]; exact List.mem_cons_of_mem _ h)
    refine wp_mono (ih s' (fun o h => hchain o (List.mem_cons_of_mem _ h)) hall' hrest) ?_
      (fun _ s'' h => ⟨h.1.trans hmode,h.2⟩)
    rintro _ s'' ⟨hmode',htables'⟩
    refine ⟨hmode'.trans hmode,?_⟩
    rw [htables',htables]
    rfl

theorem install_same (rules : List OwnedRule)
    (hchain : ∀ owned ∈ rules, owned.rule.chain ≠ .ip6Output) :
    wp (install rules) (fun _ s' => Same s s') (fun _ s' => Same s s') s := by
  induction rules generalizing s with
  | nil => exact Same.refl s
  | cons owned rest ih =>
    unfold install
    rw [wp_bind]
    refine wp_mono (installRule_same owned s (hchain owned (by simp))) ?_ (fun _ _ h => h)
    intro _ s' hsame
    exact wp_mono (ih s' fun o h => hchain o (List.mem_cons_of_mem _ h))
      (fun _ _ h => hsame.trans h) (fun _ _ h => hsame.trans h)

theorem chain_of_mem_v4Rules (h : owned ∈ v4Rules endpoints) : owned.rule.chain ≠ .ip6Output := by
  simp only [v4Rules,List.cons_append,List.nil_append,List.mem_cons,List.mem_flatMap] at h
  rcases h with rfl | rfl | ⟨endpoint,-,h⟩
  · decide
  · decide
  · unfold endpointRules4 at h
    cases haddress : endpoint.address with
    | v4 ip =>
      simp only [haddress,List.mem_cons,List.not_mem_nil,or_false] at h
      rcases h with rfl | rfl <;> exact Chain.noConfusion
    | v6 ip => simp [haddress] at h

theorem installControlExclusionsV4_wp :
    wp (installControlExclusionsV4 endpoints) (fun _ s' => Same s s') (fun _ s' => Same s s') s := by
  unfold installControlExclusionsV4
  rw [wp_bind]
  refine wp_mono (refuseLegacy_wp endpoints s .four) ?_ (fun _ _ h => h)
  intro _ s' hsame
  rw [wp_bind]
  exact wp_mono (install_same s' _ fun o h => chain_of_mem_v4Rules endpoints o h)
    (fun _ _ h => hsame.trans h) (fun _ _ h => hsame.trans h)

theorem blockIpv6_wp (hall : s.tables .ip6Output ⊆ v6Chain endpoints) :
    wp (blockIpv6 endpoints)
      (fun _ s' => s'.mode = s.mode ∧
        s'.tables .ip6Output = installed (s.tables .ip6Output) (v6Chain endpoints))
      (fun _ s' => s'.mode = s.mode ∧ s'.tables .ip6Output ⊆ v6Chain endpoints) s := by
  unfold blockIpv6
  rw [wp_bind]
  refine wp_mono (refuseLegacy_wp endpoints s .six) ?_ (fun _ s' h => ⟨h.2,by rw [h.1]; exact hall⟩)
  intro _ s' hsame
  have hchain : ∀ owned ∈ v6Rules endpoints, owned.rule.chain = .ip6Output :=
    fun owned h => chain_of_mem_v6Chain (List.mem_map_of_mem h)
  have hall' : s'.tables .ip6Output ⊆ v6Chain endpoints := by
    rw [hsame.1]
    exact hall
  rw [wp_bind]
  refine wp_mono (install_wp s' _ hchain hall' (fun _ h => h)) ?_
    (fun _ s'' h => ⟨h.1.trans hsame.2,h.2⟩)
  rintro _ s'' ⟨hmode,htables⟩
  rw [hsame.1] at htables
  exact ⟨hmode.trans hsame.2,htables⟩

theorem removeOwned_wp :
    wp (removeOwned owned) (fun _ s' => Shrinks s s') (fun _ s' => Shrinks s s') s := by
  have hpresent : ∀ s', Shrinks s s' →
      wp owned.present (fun _ s'' => Shrinks s s'') (fun _ s'' => Shrinks s s'') s' :=
    fun s' h => wp_mono (present_wp owned s') (fun _ _ h' => h.trans h'.2.shrinks)
      (fun _ _ h' => h.trans h'.shrinks)
  unfold removeOwned
  simp only [wp_tryExcept,wp_bind]
  refine wp_mono (present_wp owned s) ?_ (fun _ _ h => h.shrinks)
  rintro found s' ⟨-,hsame⟩
  cases found with
  | true =>
    simp only [if_true,wp_bind]
    refine wp_mono (remove_wp owned s') ?_ (fun _ _ h => hsame.shrinks.trans h)
    exact fun _ s'' h => hpresent s'' (hsame.shrinks.trans h)
  | false => exact hpresent s' hsame.shrinks

theorem removeEach_wp (rules : List OwnedRule) :
    wp (removeEach rules) (fun _ s' => Shrinks s s') (fun _ s' => Shrinks s s') s := by
  induction rules generalizing s with
  | nil => exact (Same.refl s).shrinks
  | cons owned rest ih =>
    unfold removeEach
    rw [wp_bind]
    refine wp_mono (removeOwned_wp owned s) ?_ (fun _ _ h => h)
    intro _ s' hshrinks
    rw [wp_bind]
    exact wp_mono (ih s') (fun _ _ h => hshrinks.trans h) (fun _ _ h => hshrinks.trans h)

theorem removeAllOwned_wp :
    wp removeAllOwned (fun _ s' => Shrinks s s') (fun _ s' => Shrinks s s') s := by
  unfold removeAllOwned
  simp only [wp_bind,wp_get]
  refine wp_mono (removeEach_wp s s.owned) ?_ (fun _ _ h => h)
  intro remaining s' hshrinks
  by_cases h : remaining = []
  · simp only [h,ne_eq,not_true_eq_false,if_false]
    exact hshrinks
  · simp only [h,ne_eq,not_false_eq_true,if_true]
    exact hshrinks

theorem listing_wp (chain : Chain) :
    wp (listing chain) (fun _ s' => Same s s') (fun _ s' => Same s s') s := by
  unfold listing
  rw [wp_bind]
  refine wp_mono (run_wp s _) ?_ ?_
  · rintro _ s' ⟨-,hmode,⟨-,htables⟩ | ⟨-,htables⟩⟩ <;> exact ⟨congrFun htables _,hmode⟩
  · rintro _ s' ⟨-,hmode,htables | htables⟩ <;> exact ⟨congrFun htables _,hmode⟩

theorem evidence_wp : wp evidence (fun _ s' => Same s s') (fun _ s' => Same s s') s := by
  unfold evidence
  simp only [wp_bind,wp_get]
  refine wp_mono (listing_wp s .ip6Output) ?_ (fun _ _ h => h)
  intro _ s' hsame
  rw [wp_bind]
  exact wp_mono (listing_wp s' .filterOutput) (fun _ _ h => hsame.trans h)
    (fun _ _ h => hsame.trans h)

theorem call_wp (takeover : Option Takeover) :
    wp (Takeover.call takeover) (fun _ s' => Same s s') (fun _ s' => Same s s') s := by
  cases takeover with
  | none => exact Same.refl s
  | some takeover =>
    have hsame : Same s { s with tables := takeover.rewrite s.tables } :=
      ⟨takeover.keepsIp6 s.tables,rfl⟩
    unfold Takeover.call
    simp only [wp_bind,wp_modify]
    cases takeover.raises <;> exact hsame

end Operations

section Cleanup

variable (endpoints : List ControlEndpoint) (owned : OwnedRule) (s : State)

/-- What a probe that finds nothing says of the IPv6 output chain. -/
theorem present_wp_missing :
    wp owned.present
      (fun found s' => Same s s' ∧ (found = false → owned.rule.chain = .ip6Output →
        owned.rule ∉ s'.tables .ip6Output))
      (fun _ s' => Same s s') s := by
  refine wp_mono (present_wp owned s) ?_ (fun _ _ h => h)
  rintro found s' ⟨hfound,hsame⟩
  refine ⟨hsame,fun hmissing hchain => ?_⟩
  rw [hmissing,hchain] at hfound
  rw [hsame.1]
  exact of_decide_eq_false hfound.symm

/-- When `stop` reports success, the fallback is out of the chain. -/
theorem stop_wp :
    wp stop
      (fun result s' => Shrinks s s' ∧ (result.stopped → dropRule.rule ∉ s'.tables .ip6Output))
      (fun _ s' => Shrinks s s') s := by
  unfold stop
  rw [wp_bind]
  refine wp_mono (removeAllOwned_wp s) ?_ (fun _ _ h => h)
  intro _ s' hshrinks
  rw [wp_bind]
  refine wp_mono (present_wp_missing dropRule s') ?_ (fun _ _ h => hshrinks.trans h.shrinks)
  rintro found s'' ⟨hsame,hmissing⟩
  refine ⟨hshrinks.trans hsame.shrinks,fun hstopped => hmissing ?_ rfl⟩
  simpa using hstopped

theorem adoptRule_wp :
    wp (adoptRule owned)
      (fun _ s' => Shrinks s s' ∧ (owned.rule.chain = .ip6Output →
        owned.rule ∉ s'.tables .ip6Output))
      (fun _ s' => Shrinks s s') s := by
  unfold adoptRule
  rw [wp_bind]
  refine wp_mono (present_wp_missing owned s) ?_ (fun _ _ h => h.shrinks)
  rintro found s₁ ⟨hsame₁,hmissing₁⟩
  cases found with
  | false => exact ⟨hsame₁.shrinks,hmissing₁ rfl⟩
  | true =>
    simp only [if_true,wp_bind]
    refine wp_mono (remove_wp owned s₁) ?_ (fun _ _ h => hsame₁.shrinks.trans h)
    intro removed s₂ h₂
    have hshrinks := hsame₁.shrinks.trans h₂
    cases removed with
    | false => exact hshrinks
    | true =>
      simp only [if_true,wp_bind]
      refine wp_mono (present_wp_missing owned s₂) ?_ (fun _ _ h => hshrinks.trans h.shrinks)
      rintro remains s₃ ⟨hsame₃,hmissing₃⟩
      cases remains with
      | true => exact hshrinks.trans hsame₃.shrinks
      | false => exact ⟨hshrinks.trans hsame₃.shrinks,hmissing₃ rfl⟩

theorem adoptEach_wp (rules : List OwnedRule) :
    wp (adoptEach rules)
      (fun _ s' => Shrinks s s' ∧ ∀ owned ∈ rules, owned.rule.chain = .ip6Output →
        owned.rule ∉ s'.tables .ip6Output)
      (fun _ s' => Shrinks s s') s := by
  induction rules generalizing s with
  | nil => exact ⟨(Same.refl s).shrinks,by simp⟩
  | cons owned rest ih =>
    unfold adoptEach
    rw [wp_bind]
    refine wp_mono (adoptRule_wp owned s) ?_ (fun _ _ h => h)
    rintro _ s' ⟨hshrinks,hgone⟩
    rw [wp_bind]
    refine wp_mono (ih s') ?_ (fun _ _ h => hshrinks.trans h)
    rintro _ s'' ⟨hshrinks',hrest⟩
    refine ⟨hshrinks.trans hshrinks',fun other hother hchain => ?_⟩
    rcases List.mem_cons.mp hother with rfl | hother
    · exact fun h => hgone hchain (hshrinks'.1 h)
    · exact hrest other hother hchain

/-- After the leftovers are adopted the chain is ready for the rules. -/
theorem adoptLeftovers_ready (hall : s.tables .ip6Output ⊆ v6Chain endpoints) :
    wp (adoptLeftovers endpoints)
      (fun _ s' => Ready endpoints (s'.tables .ip6Output) ∧ s'.mode = s.mode)
      (fun _ s' => Shrinks s s') s := by
  refine wp_mono (adoptEach_wp s _) ?_ (fun _ _ h => h)
  rintro _ s' ⟨hshrinks,hgone⟩
  have hempty : s'.tables .ip6Output = [] := by
    refine List.eq_nil_iff_forall_not_mem.mpr fun rule hrule => ?_
    have hmem := hall (hshrinks.1 hrule)
    obtain ⟨owned,howned,rfl⟩ := List.mem_map.mp hmem
    exact hgone owned (by simp [howned]) (chain_of_mem_v6Chain hmem) hrule
  rw [hempty]
  exact ⟨ready_nil endpoints,hshrinks.2⟩

end Cleanup

end NetPolicy
end FakeNetNG
