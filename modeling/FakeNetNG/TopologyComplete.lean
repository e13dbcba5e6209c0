import FakeNetNG.TopologySlots

/-!
# The provisioned topology is complete

A model with at most one relay and at most one listener for DNS of each protocol ends up with one of each
just when every listener that is made over is made up for by one that is enabled because of its name.
-/

namespace FakeNetNG
namespace Validator

variable {py : CaseMap} {m : ConfigModel} {kind : Section → Bool} {good : Section → Prop} {relay udp tcp : Section}

def count (py : CaseMap) (kind : Section → Bool) (m : ConfigModel) : ℕ := m.sections.countP (serving py kind)

theorem eq_first_of_count (hone : count py kind m = 1) {first sec : Section}
    (hfirst : m.sections.find? (serving py kind) = some first) (hsec : sec ∈ m.sections)
    (hserves : serving py kind sec = true) : sec = first := by
  rw [count,List.countP_eq_length_filter,List.length_eq_one_iff] at hone
  obtain ⟨only,honly⟩ := hone
  have hmem : ∀ s ∈ m.sections, serving py kind s = true → s = only := by
    intro s hs hserves
    have hfilter := List.mem_filter.mpr ⟨hs,hserves⟩
    rw [honly,List.mem_singleton] at hfilter
    exact hfilter
  rw [hmem sec hsec hserves,hmem first (List.mem_of_find?_eq_some hfirst) (List.find?_some hfirst)]

theorem serving_of_not {sec : Section} (h : kind sec = false) : serving py kind sec = false := by
  rw [serving,h,Bool.and_false,Bool.and_false]

theorem count_put_mem (py : CaseMap) (kind : Section → Bool) (hm : Named m) {sec old : Section} (hold : old ∈ m.sections)
    (hname : old.name = sec.name) :
    count py kind (m.put sec)+(if serving py kind old then 1 else 0) =
      count py kind m+if serving py kind sec then 1 else 0 := Keyed.countP_put_mem hm hold hname

theorem count_put_slot (hm : Named m) (hone : count py kind m = 1) {slot : Text}
    (hfirst : First py kind (fun sec => good sec ∧ sec.name = slot) m) {sec : Section} (hkind : kind sec = false) :
    count py kind (m.put sec) = if slot = sec.name then 0 else 1 := by
  obtain ⟨first,hfirst,-,hname⟩ := hfirst
  have hmem := List.mem_of_find?_eq_some hfirst
  split
  · next hslot =>
    have hput := count_put_mem py kind hm hmem (hname.trans hslot)
    rw [List.find?_some hfirst,serving_of_not hkind,hone,if_pos rfl,if_neg (by simp)] at hput
    exact Nat.succ_injective hput
  · next hslot =>
    rw [← hone]
    refine Keyed.countP_put_of_not (serving_of_not hkind) fun b hb hsame => ?_
    rw [Bool.eq_false_iff]
    intro hserves
    obtain rfl := eq_first_of_count hone hfirst hb hserves
    exact hslot (hname.symm.trans hsame)

theorem count_put_serving (hm : Named m) (hle : count py kind m ≤ 1) {sec : Section}
    (hserves : serving py kind sec = true)
    (hfirst : ∀ first, m.sections.find? (serving py kind) = some first → first.name = sec.name) :
    count py kind (m.put sec) = 1 := by
  cases hfind : m.sections.find? (serving py kind) with
  | none => exact Keyed.countP_put_of_none hfind hserves
  | some first =>
    have hmem := List.mem_of_find?_eq_some hfind
    have hfirstServes := List.find?_some hfind
    have hpos : 0 < count py kind m := List.countP_pos_iff.mpr ⟨first,hmem,hfirstServes⟩
    have hsame : count py kind (m.put sec) = count py kind m :=
      Keyed.countP_put_of_mem hm hmem (hfirst first hfind) (hfirstServes.trans hserves.symm)
    omega

theorem HttpOutcome.count (hkind : Kind py kind good) (hm : Named m) {name : String} {port : ℤ} {m' : ConfigModel}
    (h : HttpOutcome py name port m m') (hname : (⟨name.toList,[]⟩ : Section).isListener = true) :
    count py kind m' = count py kind m+(enabledFor py name port m).toList.countP kind := by
  cases h with
  | kept hfirst hsame =>
    rw [hsame,enabledFor,if_pos hfirst]
    rfl
  | enabled old hfirst hold holdName hput =>
    have hlistener := isListener_of_name holdName hname
    have hafter : serving py kind (old.set py "Enabled" "True".toList) = kind old := by
      have hlistener' : (old.set py "Enabled" "True".toList).isListener = true := hlistener
      rw [serving,hlistener',isEnabled_set,hkind.kind_enabled,Bool.true_and,Bool.true_and]
    have hsum : Validator.count py kind (m.put (old.set py "Enabled" "True".toList))+(if serving py kind old then 1 else 0) =
        Validator.count py kind m+if serving py kind (old.set py "Enabled" "True".toList) then 1 else 0 :=
      count_put_mem py kind hm hold rfl
    rw [hafter,serving,hlistener,Bool.true_and] at hsum
    rw [hput,enabledFor_eq_some hm hfirst hold holdName]
    by_cases henabled : isEnabled py old = true
    · rw [henabled,Bool.true_and] at hsum
      rw [if_pos henabled]
      exact Nat.add_right_cancel hsum
    · rw [if_neg henabled,Option.toList_some,List.countP_singleton]
      rw [Bool.not_eq_true] at henabled
      rw [henabled,Bool.false_and,if_neg (by simp)] at hsum
      exact hsum
  | made sec hsec habsent hlistener _ hput =>
    have hnone : enabledFor py name port m = none := by
      rw [enabledFor]
      split
      · rfl
      · refine List.find?_eq_none.mpr fun old hold h => habsent old hold ?_
        simp only [Bool.and_eq_true,decide_eq_true_eq] at h
        exact h.1
    rw [hput,hnone]
    refine Keyed.countP_put_of_not (serving_of_not ?_) fun b hb hsame => absurd (hsame.trans hsec) (habsent b hb)
    rw [hkind.kind_enabled]
    exact hkind.not_http sec hlistener

theorem count_ensureSections (m : ConfigModel) : count py kind m.ensureSections = count py kind m := by
  have hput : ∀ (m : ConfigModel) (name : String), (⟨name.toList,[]⟩ : Section).isListener = false →
      count py kind (m.put (m.ensureSection name)) = count py kind m := by
    intro m name hname
    have hnot : ∀ sec : Section, sec.name = name.toList → serving py kind sec = false := by
      intro sec hsec
      have hlistener : sec.isListener = false := by
        rw [Section.isListener,hsec]
        exact hname
      rw [serving,hlistener,Bool.false_and]
    refine Keyed.countP_put_of_not (hnot _ (name_ensureSection m name)) fun b _ hsame => ?_
    exact hnot b (hsame.trans (name_ensureSection m name))
  rw [ConfigModel.ensureSections,hput _ "Diverter" (by decide),hput _ "FakeNet" (by decide)]

structure AtMostOne (py : CaseMap) (m : ConfigModel) : Prop where
  relay : ((enabledListeners py m).filter (isRelay py)).length ≤ 1
  udp : dnsCount py (enabledListeners py m) "UDP" ≤ 1
  tcp : dnsCount py (enabledListeners py m) "TCP" ≤ 1

/-- One relay, which is on its port, and one listener for DNS of each protocol. -/
structure Complete (py : CaseMap) (m : ConfigModel) : Prop where
  relay : ((enabledListeners py m).filter (isRelay py)).length = 1
  udp : dnsCount py (enabledListeners py m) "UDP" = 1
  tcp : dnsCount py (enabledListeners py m) "TCP" = 1
  port : ∀ sec ∈ (enabledListeners py m).filter (isRelay py), portText py sec = requiredRelayPort py m

/-- The sections that were provisioned and then made over. -/
def relayLost (py : CaseMap) (m : ConfigModel) : Bool := relaySlot py m = udpSlot py m ∨ relaySlot py m = tcpSlot py m

def udpLost (py : CaseMap) (m : ConfigModel) : Bool := udpSlot py m = tcpSlot py m

namespace Trace

theorem count_relay (h : Trace py m relay udp tcp) (hm : Named m) (hle : count py (isRelay py) m ≤ 1) :
    count py (isRelay py) (afterTcp py m) = if relayLost py m then 0 else 1 := by
  have hone : count py (isRelay py) (afterRelay py m) = 1 := by
    rw [h.relay_put]
    refine count_put_serving hm.ensureSections (by rwa [count_ensureSections]) h.relay_serves fun first hfirst => ?_
    rw [h.relay_slot,relaySlot,firstRelay_eq,hfirst]
  have hudp := count_put_slot (h.named_relay hm) hone (h.relay_first hm) (relay_of_dns h.udp_serves)
  rw [← h.udp_put,h.relay_name hm,h.udp_name hm] at hudp
  rw [h.tcp_put]
  by_cases hslot : relaySlot py m = udpSlot py m
  · rw [if_pos hslot] at hudp
    have hle : count py (isRelay py) ((afterUdp py m).put tcp) ≤ 0 :=
      le_trans (Keyed.countP_put_le (serving_of_not (relay_of_dns h.tcp_serves))) (le_of_eq hudp)
    rw [relayLost,if_pos (by simp [hslot])]
    exact Nat.le_zero.mp hle
  · rw [if_neg hslot] at hudp
    have hfirst := (h.relay_first hm).put_apart (relay_of_dns h.udp_serves)
      (by rwa [h.relay_name hm,h.udp_name hm])
    rw [← h.udp_put] at hfirst
    have htcp := count_put_slot (h.named_udp hm) hudp hfirst (relay_of_dns h.tcp_serves)
    rw [htcp,h.relay_name hm,h.tcp_name hm,relayLost]
    simp [hslot]

theorem count_dns_relay (h : Trace py m relay udp tcp) (protocol : String) (hle : count py (servesPort py protocol) m ≤ 1) :
    count py (servesPort py protocol) (afterRelay py m) ≤ 1 := by
  rw [h.relay_put]
  refine le_trans (Keyed.countP_put_le ?_) (by rwa [← count_ensureSections] at hle)
  exact serving_of_not (kind_isRelay_not_dns (serving_iff.mp h.relay_serves).2.2 protocol)

theorem count_udp (h : Trace py m relay udp tcp) (hm : Named m) (hle : count py (servesPort py "UDP") m ≤ 1) :
    count py (servesPort py "UDP") (afterTcp py m) = if udpLost py m then 0 else 1 := by
  have hone : count py (servesPort py "UDP") (afterUdp py m) = 1 := by
    rw [h.udp_put]
    refine count_put_serving (h.named_relay hm) (h.count_dns_relay "UDP" hle) h.udp_serves fun first hfirst => ?_
    rw [h.udp_slot,dnsSlot,firstDns_eq,hfirst]
  have hfirst := first_dns_after (h.named_relay hm) h.udp_serves h.udp_filled h.udp_slot
  rw [← h.udp_put] at hfirst
  rw [h.tcp_put,count_put_slot (h.named_udp hm) hone hfirst (udp_of_tcp h.tcp_serves),h.udp_name hm,h.tcp_name hm,udpLost]
  simp

theorem count_tcp (h : Trace py m relay udp tcp) (hm : Named m) (hle : count py (servesPort py "TCP") m ≤ 1) :
    count py (servesPort py "TCP") (afterTcp py m) = 1 := by
  have hudp : count py (servesPort py "TCP") (afterUdp py m) ≤ 1 := by
    rw [h.udp_put]
    refine le_trans (Keyed.countP_put_le (serving_of_not ?_)) (h.count_dns_relay "TCP" hle)
    rw [servesPort,not_tcp_of_udp udp (serving_iff.mp h.udp_serves).2.2,Bool.false_and]
  rw [h.tcp_put]
  refine count_put_serving (h.named_udp hm) hudp h.tcp_serves fun first hfirst => ?_
  rw [h.tcp_slot,dnsSlot,firstDns_eq,hfirst]

/-- The steps for HTTP add the sections that they enable because of their names. -/
theorem count_http (h : Trace py m relay udp tcp) (hm : Named m) (hkind : Kind py kind good) :
    count py kind (ensureEgressControlTopology py m).1 =
      count py kind (afterTcp py m)+(enabledByName py m).countP kind := by
  rw [h.secure.count hkind (h.plain.named (h.named_tcp hm)) (by decide),
    h.plain.count hkind (h.named_tcp hm) (by decide),h.enabledFor_plain hm,h.enabledFor_secure hm,enabledByName,
    List.countP_append,Nat.add_assoc]

theorem quiet (h : Trace py m relay udp tcp) (hm : Named m) (hnone : ∀ sec ∈ enabledByName py m, kind sec = false) :
    Quiet py kind m := by
  rw [Quiet,h.enabledFor_plain hm,h.enabledFor_secure hm]
  refine ⟨fun sec hsec => hnone sec ?_,fun sec hsec => hnone sec ?_⟩
  · exact List.mem_append_left _ (Option.mem_toList.mpr hsec)
  · exact List.mem_append_right _ (Option.mem_toList.mpr hsec)

end Trace

theorem HttpOutcome.mem_enabled {name : String} {port : ℤ} {m' : ConfigModel} (h : HttpOutcome py name port m m')
    (hm : Named m) {sec : Section} (hsec : sec ∈ enabledFor py name port m) :
    sec.set py "Enabled" "True".toList ∈ m'.sections := by
  rw [Option.mem_def] at hsec
  have hfound : sec ∈ m.sections ∧ sec.name = name.toList ∧ firstHttp py port m = none := by
    rw [enabledFor] at hsec
    split at hsec
    · cases hsec
    · next hfirst =>
      have hprop := List.find?_some hsec
      simp only [Bool.and_eq_true,decide_eq_true_eq] at hprop
      exact ⟨List.mem_of_find?_eq_some hsec,hprop.1,by simpa using hfirst⟩
  obtain ⟨hmem,hname,hnone⟩ := hfound
  cases h with
  | kept hfirst _ =>
    rw [hnone] at hfirst
    cases hfirst
  | enabled old _ hold holdName hput =>
    obtain rfl : old = sec := List.inj_on_of_nodup_map hm hold hmem (holdName.trans hname.symm)
    rw [hput]
    exact Keyed.mem_put _ _
  | made _ _ habsent _ _ _ => exact absurd hname (habsent sec hmem)

theorem HttpOutcome.mem_other {name : String} {port : ℤ} {m' : ConfigModel} (h : HttpOutcome py name port m m')
    {sec : Section} (hsec : sec ∈ m.sections) (hname : sec.name ≠ name.toList) : sec ∈ m'.sections := by
  cases h with
  | kept _ hsame => rwa [hsame]
  | enabled old _ _ hold hput =>
    rw [hput]
    refine Keyed.mem_put_of_ne hsec ?_
    rw [Section.name_set,hold]
    exact hname
  | made made hmade _ _ _ hput =>
    rw [hput]
    refine Keyed.mem_put_of_ne hsec ?_
    rw [Section.name_set,hmade]
    exact hname

theorem name_of_enabledFor {name : String} {port : ℤ} {sec : Section} (h : sec ∈ enabledFor py name port m) :
    sec.name = name.toList := by
  rw [Option.mem_def,enabledFor] at h
  split at h
  · cases h
  · have hprop := List.find?_some h
    simp only [Bool.and_eq_true,decide_eq_true_eq] at hprop
    exact hprop.1

theorem Trace.serving_of_enabled (h : Trace py m relay udp tcp) (hm : Named m) (hkind : Kind py kind good) {sec : Section}
    (hsec : sec ∈ enabledByName py m) (hsecKind : kind sec = true) :
    sec.set py "Enabled" "True".toList ∈ (ensureEgressControlTopology py m).1.sections ∧
      serving py kind (sec.set py "Enabled" "True".toList) = true := by
  have hserves : sec.isListener = true → serving py kind (sec.set py "Enabled" "True".toList) = true := by
    intro hlistener
    exact serving_iff.mpr ⟨hlistener,isEnabled_set sec,(hkind.kind_enabled sec).trans hsecKind⟩
  rw [enabledByName,← h.enabledFor_plain hm,← h.enabledFor_secure hm] at hsec
  obtain hsec | hsec := List.mem_append.mp hsec
  · rw [Option.mem_toList] at hsec
    have hname := name_of_enabledFor hsec
    refine ⟨h.secure.mem_other (h.plain.mem_enabled (h.named_tcp hm) hsec) ?_,
      hserves (isListener_of_name hname (by decide))⟩
    rw [Section.name_set,hname]
    decide
  · rw [Option.mem_toList] at hsec
    exact ⟨h.secure.mem_enabled (h.plain.named (h.named_tcp hm)) hsec,
      hserves (isListener_of_name (name_of_enabledFor hsec) (by decide))⟩

/-- As many sections of a kind are enabled because of their names as have been made over, and they are as
the step for the kind would leave them. -/
structure Balanced (py : CaseMap) (kind : Section → Bool) (good : Section → Prop) (lost : Bool) (m : ConfigModel) :
    Prop where
  count : (enabledByName py m).countP kind = if lost then 1 else 0
  good : ∀ sec ∈ enabledByName py m, kind sec = true → good sec

theorem Trace.first_of_balanced (h : Trace py m relay udp tcp) (hm : Named m) (hkind : Kind py kind good) {lost : Bool}
    (hbalanced : Balanced py kind good lost m) (hcount : count py kind (afterTcp py m) = if lost then 0 else 1)
    (hkept : lost = false → Quiet py kind m → First py kind good (ensureEgressControlTopology py m).1) :
    First py kind good (ensureEgressControlTopology py m).1 := by
  have hone := h.count_http hm hkind
  rw [hcount,hbalanced.count] at hone
  cases lost with
  | false =>
    refine hkept rfl (h.quiet hm fun sec hsec => ?_)
    rw [Bool.eq_false_iff]
    exact List.countP_eq_zero.mp hbalanced.count sec hsec
  | true =>
    obtain ⟨sec,hsec,hsecKind⟩ : ∃ sec ∈ enabledByName py m, kind sec = true := by
      rw [← List.countP_pos_iff,hbalanced.count]
      exact Nat.one_pos
    obtain ⟨hmem,hserves⟩ := h.serving_of_enabled hm hkind hsec hsecKind
    cases hfirst : (ensureEgressControlTopology py m).1.sections.find? (serving py kind) with
    | none => exact absurd hserves (List.find?_eq_none.mp hfirst _ hmem)
    | some first =>
      refine ⟨first,hfirst,?_⟩
      rw [← eq_first_of_count hone hfirst hmem hserves]
      exact hkind.good_enabled sec (hbalanced.good sec hsec hsecKind)

/-- A model in which each kind is balanced. -/
structure MadeUpFor (py : CaseMap) (m : ConfigModel) : Prop where
  relay : Balanced py (isRelay py) (fun sec => portText py sec = requiredRelayPort py m) (relayLost py m) m
  udp : Balanced py (servesPort py "UDP") (Filled py (takeoverIp py m)) (udpLost py m) m
  tcp : Balanced py (servesPort py "TCP") (Filled py (takeoverIp py m)) false m

/-- Three sections are put back, and nothing but a listener for HTTP is enabled because of its name. -/
structure Undisturbed (py : CaseMap) (m : ConfigModel) : Prop where
  slots : (slots py m).Nodup
  quiet : ∀ sec ∈ enabledByName py m,
    isRelay py sec = false ∧ servesPort py "UDP" sec = false ∧ servesPort py "TCP" sec = false

/-- Provisioning is idempotent, and completes a topology that has at most one of each. -/
structure Provisions (py : CaseMap) (m : ConfigModel) : Prop where
  idempotent : ensureEgressControlTopology py (ensureEgressControlTopology py m).1 =
    ((ensureEgressControlTopology py m).1,[])
  complete : AtMostOne py m → Complete py (ensureEgressControlTopology py m).1

theorem Undisturbed.madeUpFor (h : Undisturbed py m) : MadeUpFor py m := by
  have hslots := h.slots
  simp only [Validator.slots,List.nodup_cons,List.mem_cons,List.not_mem_nil,or_false,not_or] at hslots
  have hnone : ∀ {kind : Section → Bool} {good : Section → Prop} {lost : Bool}, lost = false →
      (∀ sec ∈ enabledByName py m, kind sec = false) → Balanced py kind good lost m := by
    intro kind good lost hlost hquiet
    refine ⟨?_,fun sec hsec hkind => ?_⟩
    · rw [hlost]
      exact List.countP_eq_zero.mpr fun sec hsec => by simp [hquiet sec hsec]
    · rw [hquiet sec hsec] at hkind
      cases hkind
  refine ⟨hnone ?_ fun sec hsec => (h.quiet sec hsec).1,hnone ?_ fun sec hsec => (h.quiet sec hsec).2.1,
    hnone rfl fun sec hsec => (h.quiet sec hsec).2.2⟩
  · exact decide_eq_false fun hlost => hlost.elim hslots.1.1 hslots.1.2
  · exact decide_eq_false hslots.2.1

theorem Trace.settled_of_undisturbed (h : Trace py m relay udp tcp) (hm : Named m) (hu : Undisturbed py m) :
    Settled py (ensureEgressControlTopology py m).1 := by
  have hslots := hu.slots
  rw [Validator.slots,← h.relay_name hm,← h.udp_name hm,← h.tcp_name hm] at hslots
  simp only [List.nodup_cons,List.mem_cons,List.not_mem_nil,or_false,not_or] at hslots
  refine h.settled hm (h.first_relay hm hslots.1.1 hslots.1.2 (h.quiet hm fun sec hsec => (hu.quiet sec hsec).1)) ?_ ?_
  · exact h.first_udp hm hslots.2.1 (h.quiet hm fun sec hsec => (hu.quiet sec hsec).2.1)
  · exact h.first_tcp hm (h.quiet hm fun sec hsec => (hu.quiet sec hsec).2.2)

section AtMostOne

variable (h : Trace py m relay udp tcp) (hm : Named m) (hone : AtMostOne py m)

include h hm hone

theorem Trace.counts :
    count py (isRelay py) (ensureEgressControlTopology py m).1 =
        (if relayLost py m then 0 else 1)+(enabledByName py m).countP (isRelay py) ∧
      count py (servesPort py "UDP") (ensureEgressControlTopology py m).1 =
        (if udpLost py m then 0 else 1)+(enabledByName py m).countP (servesPort py "UDP") ∧
      count py (servesPort py "TCP") (ensureEgressControlTopology py m).1 =
        1+(enabledByName py m).countP (servesPort py "TCP") := by
  refine ⟨?_,?_,?_⟩
  · rw [h.count_http hm (kind_relay []),h.count_relay hm (by rw [count,← length_filter_enabled]; exact hone.relay)]
  · rw [h.count_http hm (kind_dns "UDP" []),h.count_udp hm (by rw [count,← dnsCount_eq]; exact hone.udp)]
  · rw [h.count_http hm (kind_dns "TCP" []),h.count_tcp hm (by rw [count,← dnsCount_eq]; exact hone.tcp)]

theorem Trace.complete_of_counts (hsettled : Settled py (ensureEgressControlTopology py m).1) (hmade : MadeUpFor py m) :
    Complete py (ensureEgressControlTopology py m).1 := by
  obtain ⟨hrelay,hudp,htcp⟩ := h.counts hm hone
  rw [hmade.relay.count] at hrelay
  rw [hmade.udp.count] at hudp
  rw [hmade.tcp.count] at htcp
  have hrelay' : count py (isRelay py) (ensureEgressControlTopology py m).1 = 1 := by
    rw [hrelay]
    split <;> rfl
  refine ⟨by rw [length_filter_enabled]; exact hrelay',?_,by rw [dnsCount_eq]; exact htcp,fun sec hsec => ?_⟩
  · rw [dnsCount_eq]
    refine hudp.trans ?_
    split <;> rfl
  · obtain ⟨first,hfirst,hport⟩ := hsettled.relay
    obtain ⟨henabled,hkind⟩ := List.mem_filter.mp hsec
    obtain ⟨hlistener,henabled⟩ := List.mem_filter.mp henabled
    obtain ⟨hmem,hlistener⟩ := List.mem_filter.mp hlistener
    rw [eq_first_of_count hrelay' hfirst hmem (serving_iff.mpr ⟨hlistener,henabled,hkind⟩)]
    exact hport

theorem Trace.madeUpFor_of_complete (hquiet : (ensureEgressControlTopology py (ensureEgressControlTopology py m).1).2 = [])
    (hcomplete : Complete py (ensureEgressControlTopology py m).1) : MadeUpFor py m := by
  obtain ⟨hrelay,hudp,htcp⟩ := h.counts hm hone
  have hudp' : count py (servesPort py "UDP") (ensureEgressControlTopology py m).1 = 1 := by
    rw [count,← dnsCount_eq]
    exact hcomplete.udp
  rw [count,← length_filter_enabled,hcomplete.relay] at hrelay
  rw [hudp'] at hudp
  rw [count,← dnsCount_eq,hcomplete.tcp] at htcp
  have hmade : ∀ {kind : Section → Bool} (lost : Bool), 1 = (if lost then 0 else 1)+(enabledByName py m).countP kind →
      (enabledByName py m).countP kind = if lost then 1 else 0 := by
    intro kind lost hcount
    cases lost with
    | false => exact (Nat.add_left_cancel (n:= 1) hcount).symm
    | true => exact (hcount.trans (Nat.zero_add _)).symm
  have htcp' := hmade false htcp
  refine ⟨⟨hmade _ hrelay,fun sec hsec hkind => ?_⟩,⟨hmade _ hudp,fun sec hsec hkind => ?_⟩,htcp',fun sec hsec hkind => ?_⟩
  · obtain ⟨hmem,hserves⟩ := h.serving_of_enabled hm (kind_relay []) hsec hkind
    obtain ⟨hlistener,henabled,hrelay⟩ := serving_iff.mp hserves
    have hport := hcomplete.port _ (List.mem_filter.mpr ⟨List.mem_filter.mpr
      ⟨List.mem_filter.mpr ⟨hmem,hlistener⟩,henabled⟩,hrelay⟩)
    rw [h.base.requiredRelayPort,portText,Section.get_set_of_apart sec _ (by decide)] at hport
    exact hport
  · obtain ⟨hmem,hserves⟩ := h.serving_of_enabled hm (kind_dns "UDP" []) hsec hkind
    cases hfirst : firstDns py "UDP" (ensureEgressControlTopology py m).1 with
    | none =>
      rw [firstDns_eq] at hfirst
      exact absurd hserves (List.find?_eq_none.mp hfirst _ hmem)
    | some first =>
      have hfilled := filled_of_idempotent (h.named hm) (h.names (ensureSections_names m).1)
        (h.names (ensureSections_names m).2) hquiet hfirst
      rw [firstDns_eq] at hfirst
      rw [← eq_first_of_count hudp' hfirst hmem hserves,h.base.takeoverIp,Filled,Section.stripped,
        Section.getOr_set_of_apart sec _ "" (by decide)] at hfilled
      exact hfilled
  · exact absurd hkind (List.countP_eq_zero.mp htcp' sec hsec)

end AtMostOne

/-- Provisioning does what it is for when no step disturbs an earlier one, and for at most one of each just
when what was disturbed is made up for. -/
theorem provisions_iff (py : CaseMap) (m : ConfigModel) (hm : (m.sections.map Section.name).Nodup) :
    (Undisturbed py m → Provisions py m) ∧ (AtMostOne py m → (Provisions py m ↔ MadeUpFor py m)) := by
  obtain ⟨relay,udp,tcp,trace⟩ := exists_trace py hm
  refine ⟨fun hu => ?_,fun hone => ⟨fun h => ?_,fun hmade => ?_⟩⟩
  · have hsettled := trace.settled_of_undisturbed hm hu
    exact ⟨ensure_of_settled hsettled,fun hone => trace.complete_of_counts hm hone hsettled hu.madeUpFor⟩
  · exact trace.madeUpFor_of_complete hm hone (by rw [h.idempotent]) (h.complete hone)
  · have hrelay : First py (isRelay py) (fun sec => portText py sec = requiredRelayPort py m)
        (ensureEgressControlTopology py m).1 := by
      refine trace.first_of_balanced hm (kind_relay _) hmade.relay
        (trace.count_relay hm (by rw [count,← length_filter_enabled]; exact hone.relay)) fun hlost hquiet => ?_
      simp only [relayLost,decide_eq_false_iff_not,not_or] at hlost
      rw [← trace.relay_name hm,← trace.udp_name hm,← trace.tcp_name hm] at hlost
      exact trace.first_relay hm hlost.1 hlost.2 hquiet
    have hudp : First py (servesPort py "UDP") (Filled py (takeoverIp py m)) (ensureEgressControlTopology py m).1 := by
      refine trace.first_of_balanced hm (kind_dns "UDP" _) hmade.udp
        (trace.count_udp hm (by rw [count,← dnsCount_eq]; exact hone.udp)) fun hlost hquiet => ?_
      have hslot := of_decide_eq_false hlost
      rw [← trace.udp_name hm,← trace.tcp_name hm] at hslot
      exact trace.first_udp hm hslot hquiet
    have htcp : First py (servesPort py "TCP") (Filled py (takeoverIp py m)) (ensureEgressControlTopology py m).1 :=
      trace.first_of_balanced hm (kind_dns "TCP" _) hmade.tcp
        (trace.count_tcp hm (by rw [count,← dnsCount_eq]; exact hone.tcp)) fun _ hquiet => trace.first_tcp hm hquiet
    have hsettled := trace.settled hm hrelay hudp htcp
    exact ⟨ensure_of_settled hsettled,fun _ => trace.complete_of_counts hm hone hsettled hmade⟩

def sampleRelay : Section :=
  ⟨"Relay".toList,[("Listener".toList,"DomainEgressRelay".toList),("Protocol".toList,"TCP".toList),
    ("Port".toList,"38927".toList),("Enabled".toList,"True".toList)]⟩

def sampleDns (name : String) : Section :=
  ⟨name.toList,[("Listener".toList,"DNSListener".toList),("Protocol".toList,"UDP".toList),
    ("Port".toList,"53".toList),("Enabled".toList,"True".toList)]⟩

/-- The listener for UDP has its own name, and the one for TCP is made. -/
theorem provisions_iff_sample : Provisions CaseMap.ascii ⟨[sampleRelay,sampleDns "Names"]⟩ := by
  refine (provisions_iff _ _ (by decide)).1 ⟨by decide,fun sec hsec => ?_⟩
  rw [show enabledByName CaseMap.ascii ⟨[sampleRelay,sampleDns "Names"]⟩ = [] by decide +kernel] at hsec
  cases hsec

/-- The listener for UDP has the name that the one for TCP is made under. -/
theorem udp_listener_made_over : ¬Provisions CaseMap.ascii ⟨[sampleRelay,sampleDns "DNS TCP Server"]⟩ := by
  intro h
  have hudp := (h.complete ⟨by decide +kernel,by decide +kernel,by decide +kernel⟩).udp
  revert hudp
  decide +kernel

end Validator
end FakeNetNG
