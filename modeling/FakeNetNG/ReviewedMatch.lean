import FakeNetNG.ReviewedRules
import FakeNetNG.PolicySections

/-!
# Matching packets against the reviewed rules

The index has a rule in place of a table where the rule is for all ports. It finds what a scan of the
rules finds.
-/

namespace FakeNetNG
namespace Reviewed

open Text EgressPolicy

/-- The rule is for packets of the protocol to the address and the port. -/
structure Covers (rule : ReviewedIPv4Rule) (protocol : Proto) (ipv4 : Addr) (port : ℕ) : Prop where
  protocol : rule.protocol = protocol
  ipv4 : rule.ipv4 = ipv4
  port : rule.port = none ∨ rule.port = some port

instance (rule : ReviewedIPv4Rule) (protocol : Proto) (ipv4 : Addr) (port : ℕ) :
    Decidable (Covers rule protocol ipv4 port) :=
  decidable_of_iff (rule.protocol = protocol ∧ rule.ipv4 = ipv4 ∧ (rule.port = none ∨ rule.port = some port))
    ⟨fun h => ⟨h.1,h.2.1,h.2.2⟩,fun h => ⟨h.1,h.2,h.3⟩⟩

def lookup (index : Dict (Proto × Addr) ReviewedTarget) (protocol : Proto) (ipv4 : Addr) (port : ℕ) :
    Option ReviewedIPv4Rule :=
  match index.get? (protocol,ipv4) with
  | none => none
  | some (.all rule) => some rule
  | some (.ports table) => table.get? port

variable {sha256 : Text → Text} {rule other : ReviewedIPv4Rule} {rules : List ReviewedIPv4Rule}
  {index : Dict (Proto × Addr) ReviewedTarget} {protocol : Proto} {ipv4 : Addr} {port : ℕ}

theorem Covers.unique (h : Covers rule protocol ipv4 port) (hother : Covers other protocol ipv4 port)
    (hapart : rule ≠ other → Apart rule other) : rule = other := by
  by_contra hne
  obtain ⟨hrule,hport⟩ := (hapart hne).ports (h.protocol.trans hother.protocol.symm) (h.ipv4.trans hother.ipv4.symm)
  refine (hapart hne).texts ?_
  rw [normalized,normalized,h.protocol,h.ipv4,hother.protocol,hother.ipv4,h.port.resolve_left hrule,
    hother.port.resolve_left hport]

/-- A rule in the place of a table is one of the rules. -/
def Grounded (index : Dict (Proto × Addr) ReviewedTarget) (rules : List ReviewedIPv4Rule) : Prop :=
  ∀ key rule, index.get? key = some (.all rule) → rule ∈ rules ∧ key = (rule.protocol,rule.ipv4) ∧ rule.port = none

theorem indexStep_get? (index : Dict (Proto × Addr) ReviewedTarget) (rule : ReviewedIPv4Rule)
    {key : Proto × Addr} (h : key ≠ (rule.protocol,rule.ipv4)) : (indexStep index rule).get? key = index.get? key := by
  unfold indexStep
  dsimp only
  split
  · exact Dict.get?_set_of_ne _ _ h
  · split
    · exact Dict.get?_set_of_ne _ _ h
    · exact Dict.get?_set_of_ne _ _ h
    · rfl

theorem Grounded.step (h : Grounded index rules) (rule : ReviewedIPv4Rule) :
    Grounded (indexStep index rule) (rules++[rule]) := by
  intro key r hr
  by_cases hkey : key = (rule.protocol,rule.ipv4)
  · subst hkey
    unfold indexStep at hr
    dsimp only at hr
    split at hr
    · next hport =>
      rw [Dict.get?_set_self] at hr
      cases hr
      exact ⟨by simp,rfl,hport⟩
    · split at hr
      · rw [Dict.get?_set_self] at hr
        cases hr
      · rw [Dict.get?_set_self] at hr
        cases hr
      · obtain ⟨hmem,hkey,hport⟩ := h _ _ hr
        exact ⟨List.mem_append_left _ hmem,hkey,hport⟩
  · rw [indexStep_get? _ _ hkey] at hr
    obtain ⟨hmem,hrest⟩ := h key r hr
    exact ⟨List.mem_append_left _ hmem,hrest⟩

/-- A rule that is apart from those in the index is found for what it covers, and changes nothing else. -/
theorem lookup_indexStep (hgrounded : Grounded index rules) (hapart : ∀ r ∈ rules, Apart r rule) :
    lookup (indexStep index rule) protocol ipv4 port =
      if Covers rule protocol ipv4 port then some rule else lookup index protocol ipv4 port := by
  by_cases hkey : (protocol,ipv4) = (rule.protocol,rule.ipv4)
  · obtain ⟨rfl,rfl⟩ := Prod.mk.inj hkey
    unfold lookup indexStep
    dsimp only
    cases hport : rule.port with
    | none =>
      rw [if_pos ⟨rfl,rfl,.inl hport⟩]
      simp
    | some n =>
      by_cases hn : n = port
      · subst hn
        rw [if_pos ⟨rfl,rfl,.inr hport⟩]
        cases hget : index.get? (rule.protocol,rule.ipv4) with
        | none => simp
        | some target =>
          cases target with
          | ports table => simp
          | all r =>
            obtain ⟨hmem,hkey,hnone⟩ := hgrounded _ r hget
            obtain ⟨hprotocol,hipv4⟩ := Prod.mk.inj hkey
            exact absurd hnone ((hapart r hmem).ports hprotocol.symm hipv4.symm).1
      · have hcovers : ¬Covers rule rule.protocol rule.ipv4 port := by
          rintro ⟨-,-,h | h⟩
          · simp [hport] at h
          · exact hn (Option.some.inj (hport.symm.trans h))
        rw [if_neg hcovers]
        cases hget : index.get? (rule.protocol,rule.ipv4) with
        | none => simp [Dict.get?_set_of_ne _ _ (Ne.symm hn)]
        | some target =>
          cases target with
          | ports table => simp [Dict.get?_set_of_ne _ _ (Ne.symm hn)]
          | all r => simp [hget]
  · have hcovers : ¬Covers rule protocol ipv4 port := fun h => hkey (Prod.ext h.protocol.symm h.ipv4.symm)
    rw [if_neg hcovers]
    unfold lookup
    rw [indexStep_get? _ _ hkey]

theorem grounded_matchIndex (rules : List ReviewedIPv4Rule) : Grounded (matchIndex rules) rules := by
  induction rules using List.reverseRecOn with
  | nil => exact fun key rule h => by cases h
  | append_singleton rules rule ih =>
    rw [matchIndex,List.foldl_append]
    exact ih.step rule

theorem lookup_matchIndex (hrules : rules.Pairwise Apart) :
    lookup (matchIndex rules) protocol ipv4 port = some rule ↔ rule ∈ rules ∧ Covers rule protocol ipv4 port := by
  induction rules using List.reverseRecOn with
  | nil => exact iff_of_false (fun h => by cases h) fun h => by cases h.1
  | append_singleton rules last ih =>
    obtain ⟨hinit,-,hlast⟩ := List.pairwise_append.mp hrules
    have hapart : ∀ r ∈ rules, Apart r last := fun r hr => hlast r hr last (List.mem_singleton.mpr rfl)
    have hindex : matchIndex (rules++[last]) = indexStep (matchIndex rules) last := by
      rw [matchIndex,List.foldl_append]
      rfl
    rw [hindex,lookup_indexStep (grounded_matchIndex rules) hapart,List.mem_append,List.mem_singleton]
    by_cases hcovers : Covers last protocol ipv4 port
    · rw [if_pos hcovers]
      constructor
      · intro h
        cases h
        exact ⟨.inr rfl,hcovers⟩
      · rintro ⟨hmem | rfl,h⟩
        · exact congrArg some (hcovers.unique h fun _ => (hapart rule hmem).symm)
        · rfl
    · rw [if_neg hcovers,ih hinit]
      constructor
      · exact fun ⟨hmem,h⟩ => ⟨.inl hmem,h⟩
      · rintro ⟨hmem | rfl,h⟩
        · exact ⟨hmem,h⟩
        · exact absurd h hcovers

theorem covers_unique (hrules : rules.Pairwise Apart) (hrule : rule ∈ rules) (hother : other ∈ rules)
    (h : Covers rule protocol ipv4 port) (h' : Covers other protocol ipv4 port) : rule = other := by
  have hfind := (lookup_matchIndex hrules).mpr ⟨hrule,h⟩
  rw [(lookup_matchIndex hrules).mpr ⟨hother,h'⟩] at hfind
  exact (Option.some.inj hfind).symm

theorem lookup_eq_find? (hrules : rules.Pairwise Apart) : lookup (matchIndex rules) protocol ipv4 port =
    rules.find? fun rule => Covers rule protocol ipv4 port := by
  cases hfind : rules.find? fun rule => decide (Covers rule protocol ipv4 port) with
  | some rule =>
    exact (lookup_matchIndex hrules).mpr ⟨List.mem_of_find?_eq_some hfind,by simpa using List.find?_some hfind⟩
  | none =>
    refine Option.eq_none_iff_forall_ne_some.mpr fun rule hrule => ?_
    obtain ⟨hmem,hcovers⟩ := (lookup_matchIndex hrules).mp hrule
    exact List.find?_eq_none.mp hfind rule hmem (decide_eq_true hcovers)

/-- Every binding is filed under its target. -/
structure Bindings (cfg : PolicyConfig) (s : EgressPolicy) : Prop where
  cfg : s.cfg = cfg
  keyed : ∀ ip binding, s.reviewedRouteBindings.get? ip = some binding → binding.targetIpv4 = ip

variable {cfg : PolicyConfig} {s : EgressPolicy}

theorem bindings_section (sec : PolicySection) (hsec : ∀ prepared, sec ≠ .activateRoutes prepared) :
    (sec.apply s).reviewedRouteBindings = s.reviewedRouteBindings := by
  by_cases hc : sec.isControl = false
  · exact (sec.sameControl s hc).reviewedRouteBindings
  · cases sec with
    | updateLocalIpv4 addresses =>
      rcases updateLocalIpv4Locked_cases addresses s with hu | ⟨-,hu⟩
      · rw [PolicySection.apply,hu]
        rfl
      · exact hu.reviewedRouteBindings
    | activateRoutes prepared => exact absurd rfl (hsec prepared)
    | suspendTakeover reason =>
      simp only [PolicySection.apply,suspendTakeover]
      split_ifs <;> rfl
    | suspend => rfl
    | close => rfl
    | _ => exact absurd rfl hc

theorem read_bindings {α : Type} (f : EgressPolicy → α) :
    (Prog.read f).Ensures (Bindings cfg) fun _ => True := Prog.ensures_read fun _ _ => trivial

theorem prepareBindings_keyed (items : List RouteItem) (prepared : Dict Addr ReviewedRouteBinding)
    (h : ∀ ip binding, prepared.get? ip = some binding → binding.targetIpv4 = ip) :
    (prepareBindings items prepared).Ensures (Bindings cfg) fun r => ∀ prepared, r = .ok prepared →
      ∀ ip binding, prepared.get? ip = some binding → binding.targetIpv4 = ip := by
  induction items generalizing prepared with
  | nil =>
    intro prepared' he
    cases he
    exact h
  | cons item items ih =>
    cases item with
    | error e => exact fun _ he => by cases he
    | ok b =>
      unfold prepareBindings
      split
      · split_ifs
        · exact fun _ he => by cases he
        · exact fun _ he => by cases he
        · refine Prog.Ensures.bind (read_bindings _) fun sourceLocal _ => ?_
          cases sourceLocal with
          | false => exact fun _ he => by cases he
          | true =>
            refine Prog.Ensures.bind (read_bindings _) fun targetLocal _ => ?_
            cases targetLocal with
            | true => exact fun _ he => by cases he
            | false =>
              refine ih _ fun ip binding hb => ?_
              rcases (Dict.get?_set_eq_some _ _ _ _ _).mp hb with ⟨rfl,rfl⟩ | ⟨-,hb⟩
              · rfl
              · exact h ip binding hb
      · exact fun _ he => by cases he

theorem activateReviewedIpRoutes_keyed (items : List RouteItem) :
    (activateReviewedIpRoutes items).Ensures (Bindings cfg) fun _ => True := by
  refine Prog.Ensures.bind (prepareBindings_keyed items Dict.empty fun _ _ h => by cases h) fun r hr => ?_
  cases r with
  | error e => trivial
  | ok prepared =>
    refine Prog.Ensures.bind (read_bindings _) fun cfg _ => ?_
    split
    · refine Prog.ensures_locked fun s hs => ⟨?_,trivial⟩
      unfold activateRoutesLocked
      split
      · exact hs
      · split_ifs
        · exact hs
        · exact ⟨hs.cfg,hr prepared rfl⟩
    · trivial

theorem body_bindings (c : PolicyCall) : c.body.Ensures (Bindings cfg) fun _ => True := by
  by_cases hc : ∃ items, c = .activateReviewedIpRoutes items
  · obtain ⟨items,rfl⟩ := hc
    exact activateReviewedIpRoutes_keyed items
  · refine (c.body_keeps fun sec hu s hs => ⟨(sec.cfg s).trans hs.cfg,?_⟩).ensures
    rw [bindings_section sec]
    · exact hs.keyed
    · rintro prepared rfl
      cases c with
      | activateReviewedIpRoutes items => exact hc ⟨items,rfl⟩
      | _ => simp [PolicyCall.Uses] at hu

theorem bindings_of_steps {localIpv4 : List Addr} {clock : Clock}
    {allows : Pool EgressPolicy PolicyCall EgressPolicy.Reply → PolicyCall → Prop}
    {P : Pool EgressPolicy PolicyCall EgressPolicy.Reply}
    (h : Pool.Steps PolicyCall.body allows (Pool.start (EgressPolicy.init cfg localIpv4 clock)) P) :
    Bindings cfg P.shared :=
  (Pool.ensures_steps (fun _ c _ => body_bindings c) h ⟨rfl,fun _ _ h => by cases h⟩ fun t c p ht => by
    cases ht).1

/-- The route bindings are active. -/
structure Active (s : EgressPolicy) : Prop where
  closed : s.closed = false
  egressSuspended : s.egressSuspended = false
  activated : s.reviewedRoutesActivated = true

/-- The packet takes the route that its target is bound to. -/
def Bound (s : EgressPolicy) (packet : ReviewedPacketTuple) : Prop :=
  ∃ binding, s.reviewedRouteBindings.get? packet.targetIpv4 = some binding ∧
    packet.sourceIpv4 = binding.sourceIpv4 ∧ packet.interfaceIndex = binding.interfaceIndex

/-- A packet that leaves, with two ports. -/
structure Sent (packet : ReviewedPacketTuple) : Prop where
  outbound : packet.outbound = true
  sourcePort : validPort packet.sourcePort = true
  targetPort : validPort packet.targetPort = true

theorem matchReviewedIpLocked_eq_some {packet : ReviewedPacketTuple} (hs : Bindings cfg s)
    (hprotocol : ∀ rule ∈ rules, rule.protocol = .tcp ∨ rule.protocol = .udp) (hrules : rules.Pairwise Apart)
    (hindex : cfg.reviewedMatchIndex = matchIndex rules) :
    matchReviewedIpLocked packet s = some rule ↔ (Active s ∧ Sent packet ∧ Bound s packet) ∧
      rule ∈ rules ∧ Covers rule packet.protocol packet.targetIpv4 packet.targetPort := by
  rw [← lookup_matchIndex hrules,← hindex,← hs.cfg]
  unfold matchReviewedIpLocked
  constructor
  · intro h
    split_ifs at h with hguard
    simp only [Bool.or_eq_true,not_or,Bool.not_eq_true] at hguard
    obtain ⟨⟨⟨⟨⟨⟨hclosed,hsuspended⟩,hactive⟩,houtbound⟩,-⟩,hsource⟩,htarget⟩ := hguard
    split at h
    · cases h
    · next binding hbinding =>
      split_ifs at h with hroute
      obtain ⟨hsourceIpv4,hinterface⟩ := not_or.mp hroute
      rw [hs.keyed _ _ hbinding] at h
      exact ⟨⟨⟨hclosed,hsuspended,by simpa using hactive⟩,
        ⟨by simpa using houtbound,by simpa using hsource,by simpa using htarget⟩,
        binding,hbinding,not_not.mp hsourceIpv4,not_not.mp hinterface⟩,h⟩
  · rintro ⟨⟨hactive,hsent,binding,hbinding,hsource,hinterface⟩,h⟩
    have hnamed : packet.protocol = .tcp ∨ packet.protocol = .udp := by
      rw [hs.cfg,hindex,lookup_matchIndex hrules] at h
      rw [← h.2.protocol]
      exact hprotocol rule h.1
    have hguard : ¬(s.closed || s.egressSuspended || !s.reviewedRoutesActivated || !packet.outbound ||
        !(packet.protocol = .tcp || packet.protocol = .udp) ||
        !validPort packet.sourcePort || !validPort packet.targetPort) = true := by
      rcases hnamed with hname | hname <;>
        simp [hactive.closed,hactive.egressSuspended,hactive.activated,hsent.outbound,hsent.sourcePort,
          hsent.targetPort,hname]
    rw [if_neg hguard,hbinding]
    dsimp only
    rw [if_neg (by simp [hsource,hinterface]),hs.keyed _ _ hbinding]
    exact h

variable {py : CaseMap} {configKeys : List Text} {raw : Text} {parsed : Parsed}

/-- What the parser has checked of its rules. -/
structure Parsed.Checked (sha256 : Text → Text) (parsed : Parsed) : Prop where
  apart : parsed.rules.Pairwise Apart
  known : ∀ rule ∈ parsed.rules, Known sha256 rule
  index : parsed.index = matchIndex parsed.rules

theorem checked_of_parse (h : parseReviewedIpv4Rules sha256 py configKeys raw = .ok parsed) :
    parsed.Checked sha256 := by
  unfold parseReviewedIpv4Rules at h
  split_ifs at h
  · obtain ⟨haccepted,rfl⟩ := parseText_eq_ok_iff.mp h
    have hperm := sortRules_perm ((split ',' raw).filterMap (readRule sha256))
    exact ⟨(hperm.pairwise_iff Apart.symm).mpr haccepted.apart,
      fun rule hrule => known_of_mem (hperm.mem_iff.mp hrule),rfl⟩
  · cases h
    exact ⟨List.Pairwise.nil,fun rule hrule => (by cases hrule),rfl⟩

theorem Parsed.Checked.named (h : parsed.Checked sha256) :
    ∀ rule ∈ parsed.rules, rule.protocol = .tcp ∨ rule.protocol = .udp := by
  intro rule hrule
  obtain ⟨protocol,bits,port,hsayable,rfl⟩ := h.known rule hrule
  exact hsayable.protocol

theorem parseReviewedIpv4Rules_perm {tokens : List Text} (hperm : tokens.Perm (split ',' raw)) (parsed : Parsed) :
    parseReviewedIpv4Rules sha256 py configKeys (join [','] tokens) = .ok parsed ↔
      parseReviewedIpv4Rules sha256 py configKeys raw = .ok parsed := by
  unfold parseReviewedIpv4Rules
  split_ifs
  · rfl
  · exact parseText_perm hperm parsed
  · rfl

theorem parseReviewedIpv4Rules_normalizedConfig (h : parseReviewedIpv4Rules sha256 py configKeys raw = .ok parsed) :
    parseReviewedIpv4Rules sha256 py configKeys (normalizedConfig parsed.rules) = .ok parsed := by
  unfold parseReviewedIpv4Rules at h ⊢
  split_ifs at h ⊢
  · exact parseText_normalizedConfig h
  · exact h

/-- The order of the tokens does not matter, the normalised text says the same rules, and a policy with
the rules finds for a packet that leaves by its bound route the one rule that covers it. -/
theorem reviewed_rules_exact (sha256 : Text → Text) (py : CaseMap) (configKeys : List Text) (raw : Text) :
    (∀ tokens : List Text, tokens.Perm (split ',' raw) → ∀ parsed,
      parseReviewedIpv4Rules sha256 py configKeys (join [','] tokens) = .ok parsed ↔
        parseReviewedIpv4Rules sha256 py configKeys raw = .ok parsed) ∧
    ∀ parsed, parseReviewedIpv4Rules sha256 py configKeys raw = .ok parsed →
      parseReviewedIpv4Rules sha256 py configKeys (normalizedConfig parsed.rules) = .ok parsed ∧
      (∀ protocol ipv4 port, lookup parsed.index protocol ipv4 port =
        parsed.rules.find? fun rule => Covers rule protocol ipv4 port) ∧
      (∀ rule ∈ parsed.rules, ∀ other ∈ parsed.rules, ∀ protocol ipv4 port,
        Covers rule protocol ipv4 port → Covers other protocol ipv4 port → rule = other) ∧
      ∀ (cfg : PolicyConfig), cfg.reviewedIpv4Rules = parsed.rules → cfg.reviewedMatchIndex = parsed.index →
        ∀ (localIpv4 : List Addr) (clock : Clock)
          (allows : Pool EgressPolicy PolicyCall EgressPolicy.Reply → PolicyCall → Prop)
          (P : Pool EgressPolicy PolicyCall EgressPolicy.Reply),
          Pool.Steps PolicyCall.body allows (Pool.start (EgressPolicy.init cfg localIpv4 clock)) P →
          ∀ (packet : ReviewedPacketTuple) (rule : ReviewedIPv4Rule),
            matchReviewedIpLocked packet P.shared = some rule ↔
              (Active P.shared ∧ Sent packet ∧ Bound P.shared packet) ∧
                rule ∈ parsed.rules ∧ Covers rule packet.protocol packet.targetIpv4 packet.targetPort := by
  refine ⟨fun tokens hperm parsed => parseReviewedIpv4Rules_perm hperm parsed,fun parsed hparsed => ?_⟩
  have hchecked := checked_of_parse hparsed
  refine ⟨parseReviewedIpv4Rules_normalizedConfig hparsed,fun protocol ipv4 port => ?_,
    fun rule hrule other hother protocol ipv4 port hcovers hcovers' => ?_,
    fun cfg _ hindex localIpv4 clock allows P hrun packet rule => ?_⟩
  · rw [hchecked.index]
    exact lookup_eq_find? hchecked.apart
  · exact covers_unique hchecked.apart hrule hother hcovers hcovers'
  · exact matchReviewedIpLocked_eq_some (bindings_of_steps hrun) hchecked.named hchecked.apart
      (hindex.trans hchecked.index)

def exampleDigest : Text → Text :=
  fun _ => "2a600da7cbbb1b52d451d0d6dd122eae51333bf441381566d9bfb5a7229362ee".toList

def exampleRule : ReviewedIPv4Rule := ruleOf exampleDigest .tcp (.dotted 93 184 216 34) (some 443)

def exampleText : Text := "TCP/93.184.216.34/443".toList

/-- A policy with the rule, its route bound to `10.0.0.5` on interface 7. -/
def exampleConfig : PolicyConfig :=
  { PolicyConfig.twoDomains with
    reviewedIpv4Rules := [exampleRule]
    reviewedMatchIndex := matchIndex [exampleRule] }

def examplePolicy : EgressPolicy :=
  Prog.runAll PolicyCall.body (EgressPolicy.init exampleConfig [.dotted 10 0 0 5] (.every 1))
    [.activateReviewedIpRoutes [.ok ⟨.dotted 93 184 216 34,.dotted 10 0 0 5,7⟩]]

def examplePacket (outbound : Bool) : ReviewedPacketTuple :=
  ⟨.tcp,.dotted 10 0 0 5,50000,.dotted 93 184 216 34,443,7,0,outbound⟩

theorem example_sorted : sortRules [exampleRule] = [exampleRule] := List.mergeSort_singleton _

theorem example_parsed : parseReviewedIpv4Rules exampleDigest .ascii [field] exampleText =
    .ok (finish exampleDigest [exampleRule]) := by
  have hparts : split ',' exampleText = [exampleText] := by decide
  have hread : [exampleText].filterMap (readRule exampleDigest) = [exampleRule] := by decide
  have haccepted : Accepted exampleDigest [exampleText] := by
    refine ⟨by decide,by decide,by decide,?_,?_⟩
    · rw [hread]
      exact List.pairwise_singleton _ _
    · rw [hread]
      decide
  have hfragment : ¬∃ key ∈ [field], ∃ fragment ∈ fragments, fragment <+: CaseMap.ascii.lower (strip key) := by
    decide
  rw [parseReviewedIpv4Rules,if_neg (by simp),if_neg hfragment]
  refine parseText_eq_ok_iff.mpr ?_
  rw [hparts,hread]
  exact ⟨haccepted,rfl⟩

theorem example_steps : Pool.Steps PolicyCall.body Pool.anyCall
    (Pool.start (EgressPolicy.init exampleConfig [.dotted 10 0 0 5] (.every 1))) (Pool.start examplePolicy) :=
  Pool.steps_runAll (fun _ _ _ => trivial) _ _

theorem example_active : Active examplePolicy := ⟨by decide,by decide,by decide⟩

theorem example_bound (outbound : Bool) : Bound examplePolicy (examplePacket outbound) := by
  have hbinding : examplePolicy.reviewedRouteBindings.get? (.dotted 93 184 216 34) =
      some ⟨.dotted 93 184 216 34,.dotted 10 0 0 5,7⟩ := by decide
  exact ⟨_,hbinding,rfl,rfl⟩

theorem reviewed_rules_exact_example :
    parseReviewedIpv4Rules exampleDigest .ascii [field] (normalizedConfig (sortRules [exampleRule])) =
        .ok (finish exampleDigest [exampleRule]) ∧
      matchReviewedIpLocked (examplePacket true) examplePolicy = some exampleRule := by
  have hexact := (reviewed_rules_exact exampleDigest .ascii [field] exampleText).2 _ example_parsed
  have hrule : exampleRule ∈ (finish exampleDigest [exampleRule]).rules := by
    rw [finish_rules,example_sorted]
    exact List.mem_singleton.mpr rfl
  refine ⟨hexact.1,(hexact.2.2.2 exampleConfig example_sorted.symm ?_ _ _ _ _ example_steps
    (examplePacket true) exampleRule).mpr ⟨⟨example_active,?_,example_bound true⟩,hrule,?_⟩⟩
  · rw [finish,example_sorted]
    rfl
  · exact ⟨rfl,by decide,by decide⟩
  · exact ⟨rfl,rfl,.inr rfl⟩

/-- A packet that comes in is not matched, although a rule covers it and the bindings are active. -/
theorem inbound_not_matched : ¬∀ (sha256 : Text → Text) (py : CaseMap) (configKeys : List Text) (raw : Text)
    (parsed : Parsed), parseReviewedIpv4Rules sha256 py configKeys raw = .ok parsed →
    ∀ (cfg : PolicyConfig), cfg.reviewedIpv4Rules = parsed.rules → cfg.reviewedMatchIndex = parsed.index →
      ∀ (localIpv4 : List Addr) (clock : Clock) (P : Pool EgressPolicy PolicyCall EgressPolicy.Reply),
        Pool.Steps PolicyCall.body Pool.anyCall (Pool.start (EgressPolicy.init cfg localIpv4 clock)) P →
        ∀ packet : ReviewedPacketTuple, Active P.shared → Bound P.shared packet →
          ((matchReviewedIpLocked packet P.shared).isSome = true ↔
            ∃ rule ∈ parsed.rules, Covers rule packet.protocol packet.targetIpv4 packet.targetPort) := by
  intro h
  have hindex : exampleConfig.reviewedMatchIndex = (finish exampleDigest [exampleRule]).index := by
    rw [finish,example_sorted]
    rfl
  have hmatch := h _ _ _ _ _ example_parsed exampleConfig example_sorted.symm hindex _ _ _ example_steps
    (examplePacket false) example_active (example_bound false)
  have hnone : matchReviewedIpLocked (examplePacket false) examplePolicy = none := by decide
  rw [show (Pool.start examplePolicy : Pool EgressPolicy PolicyCall EgressPolicy.Reply).shared = examplePolicy from rfl,
    hnone] at hmatch
  refine absurd (hmatch.mpr ⟨exampleRule,?_,rfl,rfl,.inr rfl⟩) Bool.false_ne_true
  rw [finish_rules,example_sorted]
  exact List.mem_singleton.mpr rfl

end Reviewed
end FakeNetNG
