import FakeNetNG.TopologySettled

/-!
# The sections that a topology is provisioned in

Three sections are put back as the relay and the listeners for DNS, and at most two are enabled because
of their names. Which ones is read off the model that provisioning starts from.
-/

namespace FakeNetNG
namespace Validator

variable {py : CaseMap} {m : ConfigModel} {kind : Section → Bool} {taken : List Text}

/-- A section of a kind that no earlier step has taken. -/
def spare (taken : List Text) (kind : Section → Bool) (sec : Section) : Bool :=
  kind sec && decide (sec.name ∉ taken)

section Slots

variable (py) (m)

/-- The name of the section for a protocol of DNS. -/
def spareDnsSlot (protocol name : String) (taken : List Text) : Text :=
  match m.sections.find? (spare taken (serving py (servesPort py protocol))) with
  | some sec => sec.name
  | none =>
    match m.sections.find? (spare taken fun sec => sec.isListener && isDns py protocol sec) with
    | some sec => sec.name
    | none => name.toList

def udpSlot : Text := spareDnsSlot py m "UDP" "DNS Server" [relaySlot py m]

def tcpSlot : Text := spareDnsSlot py m "TCP" "DNS TCP Server" [relaySlot py m,udpSlot py m]

def slots : List Text := [relaySlot py m,udpSlot py m,tcpSlot py m]

/-- The disabled section that is enabled for its name because nothing serves HTTP on its port. -/
def enabledPlain : Option Section :=
  if (m.sections.find? (spare (slots py m) (serving py (servesHttp py 80)))).isSome then none
  else m.sections.find? (spare (slots py m) fun sec =>
    decide (sec.name = "HTTPListener80".toList) && !isEnabled py sec)

/-- The same for HTTPS, which the section that was enabled before may serve. -/
def enabledSecure : Option Section :=
  if (enabledPlain py m).any (servesHttp py 443) then none
  else if (m.sections.find? (spare (slots py m) (serving py (servesHttp py 443)))).isSome then none
  else m.sections.find? (spare (slots py m) fun sec =>
    decide (sec.name = "HTTPListener443".toList) && !isEnabled py sec)

/-- The sections that are enabled because of their names. -/
def enabledByName : List Section := (enabledPlain py m).toList++(enabledSecure py m).toList

end Slots

theorem find?_spare_put (hm : Named m) {sec : Section} (hkind : kind sec = false) :
    (m.put sec).sections.find? (spare taken kind) = m.sections.find? (spare (sec.name :: taken) kind) := by
  have hspare : spare taken kind sec = false := by rw [spare,hkind,Bool.false_and]
  rw [ConfigModel.put,Keyed.find?_put_of_not hm hspare]
  congr 1
  funext other
  by_cases hname : other.name = sec.name
  · simp [spare,hname]
  · simp [spare,hname]

theorem find?_ensureSections (hm : Named m) (hkind : ∀ sec, kind sec = true → sec.isListener = true) :
    m.ensureSections.sections.find? kind = m.sections.find? kind := by
  have hput : ∀ (m : ConfigModel) (name : String), Named m → (⟨name.toList,[]⟩ : Section).isListener = false →
      (m.put (m.ensureSection name)).sections.find? kind = m.sections.find? kind := by
    intro m name hm hname
    have hnot : ∀ sec : Section, sec.name = name.toList → kind sec = false := by
      intro sec hsec
      rw [Bool.eq_false_iff]
      intro h
      have hlistener := hkind sec h
      rw [Section.isListener,hsec] at hlistener
      rw [Section.isListener,hlistener] at hname
      cases hname
    rw [ConfigModel.put,Keyed.find?_put_of_not hm (hnot _ (name_ensureSection m name))]
    congr 1
    funext sec
    by_cases hsec : sec.name = name.toList
    · simp [hnot sec hsec]
    · simp [name_ensureSection,hsec]
  rw [ConfigModel.ensureSections,hput _ "Diverter" (hm.put _) (by decide),
    hput _ "FakeNet" hm (by decide)]

theorem spare_nil (kind : Section → Bool) : spare [] kind = kind := by
  funext sec
  simp [spare]

theorem find?_listeners (m : ConfigModel) (kind : Section → Bool) :
    m.listenerSections.find? kind = m.sections.find? fun sec => sec.isListener && kind sec := by
  rw [ConfigModel.listenerSections,List.find?_filter]
  congr 1
  funext sec
  simp

theorem isListener_of_spare {taken : List Text} {sec : Section} (hkind : kind sec = true → sec.isListener = true)
    (h : spare taken kind sec = true) : sec.isListener = true := by
  rw [spare,Bool.and_eq_true] at h
  exact hkind h.1

theorem isListener_of_serving {sec : Section} (h : serving py kind sec = true) : sec.isListener = true :=
  (serving_iff.mp h).1

theorem relaySlot_ensureSections (hm : Named m) : relaySlot py m.ensureSections = relaySlot py m := by
  rw [relaySlot,relaySlot,firstRelay_eq,firstRelay_eq,find?_listeners,find?_listeners,
    find?_ensureSections hm fun _ => isListener_of_serving,find?_ensureSections hm fun sec h => ?_]
  rw [Bool.and_eq_true] at h
  exact h.1

theorem dnsSlot_eq (protocol name : String) (m : ConfigModel) :
    dnsSlot py protocol name m = spareDnsSlot py m protocol name [] := by
  rewrite [dnsSlot,spareDnsSlot,firstDns_eq,find?_listeners,spare_nil,spare_nil]
  rfl

theorem spareDnsSlot_put (hm : Named m) {protocol name : String} {sec : Section} (hsec : isDns py protocol sec = false) :
    spareDnsSlot py (m.put sec) protocol name taken = spareDnsSlot py m protocol name (sec.name :: taken) := by
  have hserves : serving py (servesPort py protocol) sec = false := by
    rw [serving,servesPort,hsec,Bool.false_and,Bool.and_false,Bool.and_false]
  have hlistener : (sec.isListener && isDns py protocol sec) = false := by rw [hsec,Bool.and_false]
  rw [spareDnsSlot,spareDnsSlot,find?_spare_put hm hserves,find?_spare_put hm hlistener]

theorem spareDnsSlot_ensureSections (hm : Named m) (protocol name : String) :
    spareDnsSlot py m.ensureSections protocol name taken = spareDnsSlot py m protocol name taken := by
  rw [spareDnsSlot,spareDnsSlot,
    find?_ensureSections hm fun sec => isListener_of_spare isListener_of_serving,
    find?_ensureSections hm fun sec => isListener_of_spare fun h => ?_]
  rw [Bool.and_eq_true] at h
  exact h.1

theorem isDns_of_serving {protocol : String} {sec : Section} (h : serving py (servesPort py protocol) sec = true) :
    isDns py protocol sec = true := by
  have hport := (serving_iff.mp h).2.2
  rw [servesPort,Bool.and_eq_true] at hport
  exact hport.1

theorem not_http {port : ℤ} {sec : Section} {listener : String} (h : listensAs py sec listener = true)
    (hne : listener ≠ "HTTPListener") : servesHttp py port sec = false := by
  have hother : listensAs py sec "HTTPListener" = false := by
    rw [listensAs,listener_eq h]
    exact decide_eq_false fun heq => hne (String.toList_injective heq)
  rw [servesHttp,hother,Bool.false_and]

namespace Trace

variable {relay udp tcp : Section}

theorem relay_name (h : Trace py m relay udp tcp) (hm : Named m) : relay.name = relaySlot py m :=
  h.relay_slot.trans (relaySlot_ensureSections hm)

theorem udp_name (h : Trace py m relay udp tcp) (hm : Named m) : udp.name = udpSlot py m := by
  have hrelay := not_dns_of_isRelay (serving_iff.mp h.relay_serves).2.2 "UDP"
  rw [h.udp_slot,dnsSlot_eq,h.relay_put,spareDnsSlot_put hm.ensureSections hrelay,spareDnsSlot_ensureSections hm,
    h.relay_name hm,udpSlot]

theorem tcp_name (h : Trace py m relay udp tcp) (hm : Named m) : tcp.name = tcpSlot py m := by
  have hrelay := not_dns_of_isRelay (serving_iff.mp h.relay_serves).2.2 "TCP"
  have hudp := not_tcp_of_udp udp (serving_iff.mp h.udp_serves).2.2
  rw [h.tcp_slot,dnsSlot_eq,h.udp_put,spareDnsSlot_put (h.named_relay hm) hudp,h.relay_put,
    spareDnsSlot_put hm.ensureSections hrelay,spareDnsSlot_ensureSections hm,h.relay_name hm,h.udp_name hm,tcpSlot]

/-- A listener that is none of the three is found as it was. -/
theorem find?_afterTcp (h : Trace py m relay udp tcp) (hm : Named m)
    (hkind : ∀ sec, kind sec = true → sec.isListener = true) (hrelay : kind relay = false) (hudp : kind udp = false)
    (htcp : kind tcp = false) :
    (afterTcp py m).sections.find? kind = m.sections.find? (spare (slots py m) kind) := by
  rw [← spare_nil kind,h.tcp_put,find?_spare_put (h.named_udp hm) htcp,h.udp_put,find?_spare_put (h.named_relay hm) hudp,
    h.relay_put,find?_spare_put hm.ensureSections hrelay,
    find?_ensureSections hm fun sec => isListener_of_spare (hkind sec),h.relay_name hm,h.udp_name hm,h.tcp_name hm,
    spare_nil,slots]

theorem enabledFor_afterTcp (h : Trace py m relay udp tcp) (hm : Named m) {name : String} (port : ℤ)
    (hname : (⟨name.toList,[]⟩ : Section).isListener = true) : enabledFor py name port (afterTcp py m) =
      if (m.sections.find? (spare (slots py m) (serving py (servesHttp py port)))).isSome then none
      else m.sections.find? (spare (slots py m) fun sec => decide (sec.name = name.toList) && !isEnabled py sec) := by
  have hserves : ∀ (sec : Section) (listener : String), listensAs py sec listener = true → listener ≠ "HTTPListener" →
      serving py (servesHttp py port) sec = false := by
    intro sec listener hlistens hne
    rw [serving,not_http hlistens hne,Bool.and_false,Bool.and_false]
  have hdns : ∀ (sec : Section) (protocol : String), serving py (servesPort py protocol) sec = true →
      listensAs py sec "DNSListener" = true := by
    intro sec protocol hsec
    have h := isDns_of_serving hsec
    rw [isDns,Bool.and_eq_true] at h
    exact h.1
  have henabled : ∀ (kind : Section → Bool) (sec : Section), serving py kind sec = true →
      (decide (sec.name = name.toList) && !isEnabled py sec) = false := by
    intro kind sec hsec
    rw [(serving_iff.mp hsec).2.1,Bool.not_true,Bool.and_false]
  have hrelay := (serving_iff.mp h.relay_serves).2.2
  rw [enabledFor,firstHttp_eq]
  rw [h.find?_afterTcp hm (fun _ => isListener_of_serving) (hserves relay _ hrelay (by decide))
    (hserves udp _ (hdns udp _ h.udp_serves) (by decide)) (hserves tcp _ (hdns tcp _ h.tcp_serves) (by decide))]
  rw [h.find?_afterTcp hm (fun sec hsec => ?_) (henabled _ relay h.relay_serves) (henabled _ udp h.udp_serves)
    (henabled _ tcp h.tcp_serves)]
  simp only [Bool.and_eq_true,decide_eq_true_eq] at hsec
  exact isListener_of_name hsec.1 hname

theorem enabledFor_plain (h : Trace py m relay udp tcp) (hm : Named m) :
    enabledFor py "HTTPListener80" 80 (afterTcp py m) = enabledPlain py m :=
  h.enabledFor_afterTcp hm 80 (by decide)

end Trace

/-- The step for another port has at most enabled a section that serves this one too. -/
theorem HttpOutcome.enabledFor_other {name other : String} {port port' : ℤ} {m' : ConfigModel}
    (h : HttpOutcome py name port m m') (hm : Named m) (hname : (⟨name.toList,[]⟩ : Section).isListener = true)
    (hne : name.toList ≠ other.toList) (hport : port' ≠ port) : enabledFor py other port' m' =
      if (enabledFor py name port m).any (servesHttp py port') then none else enabledFor py other port' m := by
  -- a section with the one name is not looked for under the other
  have hnamed : ∀ sec : Section, sec.name = name.toList →
      (m.put sec).sections.find? (fun sec => decide (sec.name = other.toList) && !isEnabled py sec) =
        m.sections.find? fun sec => decide (sec.name = other.toList) && !isEnabled py sec := by
    intro sec hsec
    rw [ConfigModel.put,Keyed.find?_put_of_not hm (by simp [hsec,hne])]
    congr 1
    funext b
    by_cases hb : b.name = other.toList
    · simp [hb,hsec,Ne.symm hne]
    · simp [hb]
  have hserves : ∀ sec : Section, sec.name = name.toList → serving py (servesHttp py port') sec = false →
      (∀ b ∈ m.sections, b.name = name.toList → serving py (servesHttp py port') b = false) →
      enabledFor py other port' (m.put sec) = enabledFor py other port' m := by
    intro sec hsec hnot hold
    have hfirst : firstHttp py port' (m.put sec) = firstHttp py port' m := by
      rw [firstHttp_eq,firstHttp_eq,ConfigModel.put,Keyed.find?_put_of_not hm hnot]
      refine List.find?_congr fun b hb => ?_
      by_cases hsame : b.name = name.toList
      · rw [hold b hb hsame,Bool.false_and]
      · simp [hsame,hsec]
    rw [enabledFor,enabledFor,hfirst,hnamed sec hsec]
  cases h with
  | kept hfirst hsame =>
    have hnone : enabledFor py name port m = none := by rw [enabledFor,if_pos hfirst]
    rw [hsame,hnone]
    rfl
  | enabled old hfirst hold holdName hput =>
    rw [hput,enabledFor_eq_some hm hfirst hold holdName]
    have hlistener := isListener_of_name holdName hname
    cases hold' : servesHttp py port' old with
    | true =>
      have hsome : ∀ {m : ConfigModel} {sec : Section}, sec ∈ m.sections → serving py (servesHttp py port') sec = true →
          enabledFor py other port' m = none := by
        intro m sec hmem hsec
        rw [enabledFor,firstHttp_eq,if_pos (List.find?_isSome.mpr ⟨sec,hmem,hsec⟩)]
      have hafter : serving py (servesHttp py port') (old.set py "Enabled" "True".toList) = true := by
        refine serving_iff.mpr ⟨hlistener,isEnabled_set old,?_⟩
        rw [servesHttp,listensAs_set_of_apart old _ _ (by decide),
          portIs_set_of_apart old _ _ (by decide)]
        exact hold'
      have hput' : enabledFor py other port' (m.put (old.set py "Enabled" "True".toList)) = none :=
        hsome (Keyed.mem_put _ _) hafter
      rw [hput']
      by_cases henabled : isEnabled py old = true
      · rw [hsome hold (serving_iff.mpr ⟨hlistener,henabled,hold'⟩)]
        simp
      · rw [if_neg henabled,Option.any_some,hold',if_pos rfl]
    | false =>
      have hany : (if isEnabled py old = true then none else some old).any (servesHttp py port') = false := by
        split
        · rfl
        · rw [Option.any_some,hold']
      rw [hany,if_neg (by simp)]
      refine hserves _ holdName ?_ fun b hb hsame => ?_
      · rw [serving,servesHttp,listensAs_set_of_apart old _ _ (by decide),
          portIs_set_of_apart old _ _ (by decide)]
        rw [servesHttp] at hold'
        rw [hold',Bool.and_false,Bool.and_false]
      · obtain rfl : b = old := List.inj_on_of_nodup_map hm hb hold (hsame.trans holdName.symm)
        rw [serving,hold',Bool.and_false,Bool.and_false]
  | made sec hsec habsent _ hports hput =>
    have hnone : enabledFor py name port m = none := by
      rw [enabledFor]
      split
      · rfl
      · refine List.find?_eq_none.mpr fun old hold h => habsent old hold ?_
        simp only [Bool.and_eq_true,decide_eq_true_eq] at h
        exact h.1
    rw [hput,hnone]
    refine hserves _ hsec ?_ fun b hb hsame => absurd hsame (habsent b hb)
    rw [serving,servesHttp,portIs_set_of_apart sec _ _ (by decide),hports,decide_eq_false hport,Bool.and_false,
      Bool.and_false,Bool.and_false]

theorem Trace.enabledFor_secure {relay udp tcp : Section} (h : Trace py m relay udp tcp) (hm : Named m) :
    enabledFor py "HTTPListener443" 443 (afterPlain py m) = enabledSecure py m := by
  rw [h.plain.enabledFor_other (h.named_tcp hm) (by decide) (by decide) (by decide),h.enabledFor_plain hm,
    h.enabledFor_afterTcp hm 443 (by decide)]
  rfl

end Validator
end FakeNetNG
