import FakeNetNG.TopologyProvisioning

/-!
# The provisioned topology is settled

Each step puts back one section that then serves (`provisionRelay_spec`, `provisionDns_spec`,
`provisionHttp_spec`). A model in which each step finds its section as it would leave it has nothing to
provision, and it keeps that as long as no later step puts another section in the place of an earlier one.
-/

namespace FakeNetNG
namespace Validator

open Section

variable {py : CaseMap}

theorem isEnabled_set_of_apart (sec : Section) {key : String} (value : Text) (h : apart key "Enabled" = true) :
    isEnabled py (sec.set py key value) = isEnabled py sec := by
  rw [isEnabled,isEnabled,stripped,stripped,getOr_set_of_apart sec value "" h]

theorem isEnabled_of_getOr {sec : Section} (h : sec.getOr py "Enabled" "" = "True".toList) :
    isEnabled py sec = true := by
  have htrue : Text.strip "True".toList = "True".toList := by decide
  rw [isEnabled,stripped,h,htrue,py.lower_ascii _ (by decide)]
  decide

theorem isEnabled_set (sec : Section) : isEnabled py (sec.set py "Enabled" "True".toList) = true :=
  isEnabled_of_getOr (getOr_set_self sec "Enabled" "" (by decide))

theorem listensAs_set_of_apart (sec : Section) {key : String} (value : Text) (listener : String)
    (h : apart key "Listener" = true) : listensAs py (sec.set py key value) listener = listensAs py sec listener := by
  rw [listensAs,listensAs,getOr_set_of_apart sec value "" h]

theorem isRelay_set_of_apart (sec : Section) {key : String} (value : Text) (h : apart key "Listener" = true) :
    isRelay py (sec.set py key value) = isRelay py sec := listensAs_set_of_apart sec value _ h

theorem isDns_set_of_apart (sec : Section) {key : String} (value : Text) (protocol : String)
    (h : apart key "Listener" = true) (h' : apart key "Protocol" = true) :
    isDns py protocol (sec.set py key value) = isDns py protocol sec := by
  rw [isDns,isDns,listensAs_set_of_apart sec value _ h,hasProtocol,hasProtocol,getOr_set_of_apart sec value "" h']

theorem portIs_set_of_apart (sec : Section) {key : String} (value : Text) (port : ℤ)
    (h : apart key "Port" = true) : portIs py (sec.set py key value) port = portIs py sec port := by
  rw [portIs,portIs,getOr_set_of_apart sec value "" h]

theorem portIs_set (sec : Section) : portIs py (sec.set py "Port" "53".toList) 53 = true := by
  rw [portIs,getOr_set_self sec "Port" "" (by decide)]
  decide

theorem portText_set (sec : Section) (port : Text) : portText py (sec.set py "Port" port) = Text.strip port := by
  rw [portText,get_set_self]
  rfl

/-- An enabled listener of some kind. -/
def serving (py : CaseMap) (kind : Section → Bool) (sec : Section) : Bool :=
  sec.isListener && (isEnabled py sec && kind sec)

theorem serving_iff {kind : Section → Bool} {sec : Section} :
    serving py kind sec = true ↔ sec.isListener = true ∧ isEnabled py sec = true ∧ kind sec = true := by
  simp [serving]

theorem find?_enabled (m : ConfigModel) (kind : Section → Bool) :
    (enabledListeners py m).find? kind = m.sections.find? (serving py kind) := by
  rw [enabledListeners,ConfigModel.listenerSections,List.find?_filter,List.find?_filter]
  congr 1
  funext sec
  simp [serving]

theorem length_filter_enabled (m : ConfigModel) (kind : Section → Bool) :
    ((enabledListeners py m).filter kind).length = m.sections.countP (serving py kind) := by
  rw [enabledListeners,ConfigModel.listenerSections,List.filter_filter,List.filter_filter,
    ← List.countP_eq_length_filter]
  congr 1
  funext sec
  rw [serving,Bool.and_comm sec.isListener,Bool.and_comm (isEnabled py sec),Bool.and_assoc]

def servesPort (py : CaseMap) (protocol : String) (sec : Section) : Bool := isDns py protocol sec && portIs py sec 53

def servesHttp (py : CaseMap) (port : ℤ) (sec : Section) : Bool :=
  listensAs py sec "HTTPListener" && portIs py sec port

theorem firstRelay_eq (m : ConfigModel) : firstRelay py m = m.sections.find? (serving py (isRelay py)) :=
  find?_enabled m _

theorem firstDns_eq (protocol : String) (m : ConfigModel) :
    firstDns py protocol m = m.sections.find? (serving py (servesPort py protocol)) := find?_enabled m _

theorem firstHttp_eq (port : ℤ) (m : ConfigModel) :
    firstHttp py port m = m.sections.find? (serving py (servesHttp py port)) := find?_enabled m _

theorem dnsCount_eq (protocol : String) (m : ConfigModel) :
    dnsCount py (enabledListeners py m) protocol = m.sections.countP (serving py (servesPort py protocol)) := by
  rw [dnsCount,← length_filter_enabled]
  congr 2
  funext sec
  rw [servesPort,isDns,servesDns,portIs,Bool.and_assoc,Bool.and_assoc,Bool.and_comm (hasProtocol py protocol sec)]

/-- A section is of one kind. -/
theorem not_dns_of_isRelay {sec : Section} (h : isRelay py sec = true) (protocol : String) :
    isDns py protocol sec = false := by
  have hlistener : sec.getOr py "Listener" "" = "DomainEgressRelay".toList := of_decide_eq_true h
  have hother : listensAs py sec "DNSListener" = false := by
    rw [listensAs,hlistener]
    decide
  rw [isDns,hother,Bool.false_and]

theorem not_relay_of_isDns {sec : Section} {protocol : String} (h : isDns py protocol sec = true) :
    isRelay py sec = false := by
  cases hrelay : isRelay py sec with
  | false => rfl
  | true =>
    rw [not_dns_of_isRelay hrelay] at h
    cases h

theorem not_isDns_of_isDns {sec : Section} {protocol other : String} (h : isDns py protocol sec = true)
    (hne : protocol ≠ other) : isDns py other sec = false := by
  have hprotocol : py.upper (sec.getOr py "Protocol" "") = protocol.toList := by
    simp only [isDns,Bool.and_eq_true,hasProtocol,decide_eq_true_eq] at h
    exact h.2
  have hother : hasProtocol py other sec = false := by
    rw [hasProtocol,hprotocol]
    exact decide_eq_false fun heq => hne (String.toList_injective heq)
  rw [isDns,hother,Bool.and_false]

/-- The sections are kept by their names. -/
def Named (m : ConfigModel) : Prop := (m.sections.map Section.name).Nodup

variable {m : ConfigModel}

theorem Named.put (hm : Named m) (sec : Section) : Named (m.put sec) := Keyed.nodup_put hm

theorem put_self (hm : Named m) {sec : Section} (h : sec ∈ m.sections) : m.put sec = m := by
  rw [ConfigModel.put,Keyed.put_eq_self hm h]

theorem name_ensureSection (m : ConfigModel) (name : String) : (m.ensureSection name).name = name.toList := by
  rw [ConfigModel.ensureSection]
  cases hfind : m.sections.find? fun sec => sec.name = name.toList with
  | none => rfl
  | some sec => simpa using List.find?_some hfind

theorem strip_requiredRelayPort (m : ConfigModel) :
    Text.strip (requiredRelayPort py m) = requiredRelayPort py m := by
  rw [requiredRelayPort]
  split
  · decide
  · exact Text.strip_strip _

/-- The name of the section that the relay is provisioned in. -/
def relaySlot (py : CaseMap) (m : ConfigModel) : Text :=
  match firstRelay py m with
  | some sec => sec.name
  | none =>
    match m.listenerSections.find? (isRelay py) with
    | some sec => sec.name
    | none => "Domain Egress Relay".toList

/-- The relay is the first that is enabled, or is enabled by the step. -/
theorem provisionRelay_spec (py : CaseMap) (hm : Named m) : ∃ sec, (provisionRelay py m).1 = m.put sec ∧
    serving py (isRelay py) sec = true ∧ portText py sec = requiredRelayPort py m ∧ sec.name = relaySlot py m := by
  rw [relaySlot]
  unfold provisionRelay
  cases hfirst : firstRelay py m with
  | some relay =>
    rw [firstRelay_eq] at hfirst
    have hserves := List.find?_some hfirst
    obtain ⟨hlistener,henabled,hrelay⟩ := serving_iff.mp hserves
    dsimp only
    by_cases hport : portText py relay ≠ requiredRelayPort py m
    · rw [if_pos hport]
      refine ⟨relay.set py "Port" (requiredRelayPort py m),rfl,serving_iff.mpr ⟨hlistener,?_,?_⟩,?_,?_⟩
      · rw [isEnabled_set_of_apart relay _ (by decide)]
        exact henabled
      · rw [isRelay_set_of_apart relay _ (by decide)]
        exact hrelay
      · rw [portText_set,strip_requiredRelayPort]
      · rfl
    · rw [if_neg hport]
      exact ⟨relay,(put_self hm (List.mem_of_find?_eq_some hfirst)).symm,hserves,not_not.mp hport,rfl⟩
  | none =>
    dsimp only
    -- what is set last makes the section serve, whatever section it is
    have hset : ∀ sec : Section, sec.isListener = true → isRelay py sec = true →
        serving py (isRelay py) (sec.setAll py [("Enabled","True".toList),("Port",requiredRelayPort py m)]) = true ∧
          portText py (sec.setAll py [("Enabled","True".toList),("Port",requiredRelayPort py m)]) =
            requiredRelayPort py m := by
      intro sec hlistener hrelay
      show serving py (isRelay py) ((sec.set py "Enabled" "True".toList).set py "Port" _) = true ∧
        portText py ((sec.set py "Enabled" "True".toList).set py "Port" _) = _
      refine ⟨serving_iff.mpr ⟨hlistener,?_,?_⟩,?_⟩
      · rw [isEnabled_set_of_apart _ _ (by decide)]
        exact isEnabled_set sec
      · rw [isRelay_set_of_apart _ _ (by decide),isRelay_set_of_apart _ _ (by decide)]
        exact hrelay
      · rw [portText_set,strip_requiredRelayPort]
    cases hfound : m.listenerSections.find? (isRelay py) with
    | some sec =>
      have hlistener : sec.isListener = true := (List.mem_filter.mp (List.mem_of_find?_eq_some hfound)).2
      obtain ⟨hserves,hport⟩ := hset sec hlistener (List.find?_some hfound)
      exact ⟨_,rfl,hserves,hport,name_setAll _ _⟩
    | none =>
      have hlistener : ((m.ensureSection "Domain Egress Relay").setAll py relayFields).isListener = true := by
        rw [isListener,name_setAll,name_ensureSection]
        decide
      have hrelay : isRelay py ((m.ensureSection "Domain Egress Relay").setAll py relayFields) = true := by
        refine decide_eq_true ?_
        exact getOr_setAll _ [] "" (by decide) (by decide)
      obtain ⟨hserves,hport⟩ := hset _ hlistener hrelay
      refine ⟨_,rfl,hserves,hport,?_⟩
      rw [name_setAll,name_setAll,name_ensureSection]

/-- The two protocols of DNS. -/
structure IsProtocol (py : CaseMap) (protocol : String) : Prop where
  ne_nil : protocol.toList ≠ []
  upper : py.upper protocol.toList = protocol.toList

theorem isProtocol_udp : IsProtocol py "UDP" :=
  ⟨by decide,(py.upper_ascii _ (by decide)).trans (by decide)⟩

theorem isProtocol_tcp : IsProtocol py "TCP" :=
  ⟨by decide,(py.upper_ascii _ (by decide)).trans (by decide)⟩

/-- The name of the section that a listener for DNS is provisioned in. -/
def dnsSlot (py : CaseMap) (protocol name : String) (m : ConfigModel) : Text :=
  match firstDns py protocol m with
  | some sec => sec.name
  | none =>
    match m.listenerSections.find? (isDns py protocol) with
    | some sec => sec.name
    | none => name.toList

theorem isDns_created {protocol : String} (hprotocol : IsProtocol py protocol) (sec : Section) :
    isDns py protocol (sec.setAll py (dnsFields protocol)) = true := by
  have hback : ∀ key ∈ ["Listener","Protocol"], (if protocol = "TCP" then [("Timeout","5".toList)] else []).all
      fun item : String × Text => apart item.1 key := by
    intro key hkey
    split
    · revert key
      decide
    · rfl
  have hlistener : (sec.setAll py (dnsFields protocol)).getOr py "Listener" "" = "DNSListener".toList := by
    refine getOr_setAll _ [] "" (by decide) ?_
    rw [List.append_eq,List.all_append,hback _ (by simp),Bool.and_true]
    dsimp only [List.all_cons,List.all_nil]
    decide
  have hprotocol' : (sec.setAll py (dnsFields protocol)).getOr py "Protocol" "" = protocol.toList := by
    refine getOr_setAll _ [("Listener","DNSListener".toList)] "" hprotocol.ne_nil ?_
    rw [List.append_eq,List.all_append,hback _ (by simp),Bool.and_true]
    decide
  rw [isDns,listensAs,hlistener,hasProtocol,hprotocol',hprotocol.upper]
  simp

/-- A listener for DNS that is enabled and put on the port, as `serveDns` does. -/
theorem serveDns_enabled {protocol : String} {sec : Section} (hlistener : sec.isListener = true)
    (hdns : isDns py protocol sec = true) :
    serving py (servesPort py protocol) (if portIs py (sec.set py "Enabled" "True".toList) 53 then
      sec.set py "Enabled" "True".toList
    else (sec.set py "Enabled" "True".toList).set py "Port" "53".toList) = true := by
  have hdns' : isDns py protocol (sec.set py "Enabled" "True".toList) = true := by
    rw [isDns_set_of_apart _ _ _ (by decide) (by decide)]
    exact hdns
  split
  · next hport =>
    refine serving_iff.mpr ⟨hlistener,isEnabled_set sec,?_⟩
    rw [servesPort,hdns',hport,Bool.true_and]
  · refine serving_iff.mpr ⟨hlistener,?_,?_⟩
    · rw [isEnabled_set_of_apart _ _ (by decide)]
      exact isEnabled_set sec
    · rw [servesPort,isDns_set_of_apart _ _ _ (by decide) (by decide),hdns',portIs_set,Bool.true_and]

theorem serveDns_spec {protocol name : String} (hprotocol : IsProtocol py protocol)
    (hname : (⟨name.toList,[]⟩ : Section).isListener = true) :
    serving py (servesPort py protocol) (serveDns py protocol name m).1 = true ∧
      (serveDns py protocol name m).1.name = dnsSlot py protocol name m := by
  rw [dnsSlot]
  unfold serveDns
  cases hfirst : firstDns py protocol m with
  | some sec =>
    refine ⟨?_,rfl⟩
    rw [firstDns_eq] at hfirst
    exact List.find?_some hfirst
  | none =>
    dsimp only
    cases hfound : m.listenerSections.find? (isDns py protocol) with
    | some sec =>
      obtain ⟨hmem,hlistener⟩ := List.mem_filter.mp (List.mem_of_find?_eq_some hfound)
      have hserves := serveDns_enabled hlistener (List.find?_some hfound)
      dsimp only at hserves ⊢
      split at hserves
      · next hport =>
        rw [if_pos hport]
        exact ⟨hserves,rfl⟩
      · next hport =>
        rw [if_neg hport]
        exact ⟨hserves,rfl⟩
    | none =>
      have hnamed : ((m.ensureSection name).setAll py (dnsFields protocol)).name = name.toList := by
        rw [name_setAll,name_ensureSection]
      have hlistener : ((m.ensureSection name).setAll py (dnsFields protocol)).isListener = true := by
        rw [isListener,hnamed]
        exact hname
      have hserves := serveDns_enabled hlistener (isDns_created hprotocol _)
      dsimp only at hserves ⊢
      split at hserves
      · next hport =>
        rw [if_pos hport]
        exact ⟨hserves,(name_set _ _ _).trans hnamed⟩
      · next hport =>
        rw [if_neg hport]
        exact ⟨hserves,(name_set _ _ _).trans ((name_set _ _ _).trans hnamed)⟩

/-- The section has an address if there is one to fill in. -/
def Filled (py : CaseMap) (sink : Text) (sec : Section) : Prop := sink = [] ∨ sec.stripped py "ResponseA" ≠ []

theorem provisionDns_spec {sink : Text} {protocol name : String} (hprotocol : IsProtocol py protocol)
    (hname : (⟨name.toList,[]⟩ : Section).isListener = true) (hsink : Text.strip sink = sink) :
    ∃ sec, (provisionDns py sink protocol name m).1 = m.put sec ∧
      serving py (servesPort py protocol) sec = true ∧ Filled py sink sec ∧
      sec.name = dnsSlot py protocol name m := by
  obtain ⟨hserves,hslot⟩ := serveDns_spec (m:=m) hprotocol hname
  unfold provisionDns
  dsimp only
  by_cases hfill : sink ≠ [] ∧ (serveDns py protocol name m).1.stripped py "ResponseA" = []
  · rw [if_pos hfill]
    refine ⟨_,rfl,?_,.inr ?_,hslot⟩
    · obtain ⟨hlistener,henabled,hport⟩ := serving_iff.mp hserves
      refine serving_iff.mpr ⟨hlistener,?_,?_⟩
      · rw [isEnabled_set_of_apart _ _ (by decide)]
        exact henabled
      · rw [servesPort,isDns_set_of_apart _ _ _ (by decide) (by decide),
          portIs_set_of_apart _ _ _ (by decide)]
        exact hport
    · rw [stripped,getOr_set_self _ "ResponseA" "" hfill.1,hsink]
      exact hfill.1
  · rw [if_neg hfill]
    refine ⟨_,rfl,hserves,?_,hslot⟩
    by_cases hempty : sink = []
    · exact .inl hempty
    · exact .inr fun h => hfill ⟨hempty,h⟩

/-- What a step for HTTP does. -/
inductive HttpOutcome (py : CaseMap) (name : String) (port : ℤ) (m m' : ConfigModel) : Prop
  | kept (hfirst : (firstHttp py port m).isSome = true) (hsame : m' = m)
  | enabled (old : Section) (hfirst : firstHttp py port m = none) (hold : old ∈ m.sections)
      (hname : old.name = name.toList) (hput : m' = m.put (old.set py "Enabled" "True".toList))
  | made (sec : Section) (hname : sec.name = name.toList) (habsent : ∀ old ∈ m.sections, old.name ≠ name.toList)
      (hlistener : listensAs py sec "HTTPListener" = true)
      (hport : ∀ other, portIs py sec other = decide (other = port))
      (hput : m' = m.put (sec.set py "Enabled" "True".toList))

theorem provisionHttp_spec {name portName useSsl : String} {port : ℤ}
    (hname : (⟨name.toList,[]⟩ : Section).isListener = true) (hempty : portName.toList ≠ [])
    (hport : ConfigModel.expandPorts portName.toList = some [port]) :
    HttpOutcome py name port m (provisionHttp py name port portName useSsl m).1 := by
  unfold provisionHttp
  cases hfirst : firstHttp py port m with
  | some sec => exact .kept (by rw [hfirst]; rfl) rfl
  | none =>
    dsimp only
    cases hfound : m.listenerSections.find? fun sec => sec.name = name.toList with
    | some sec =>
      have hmem := (List.mem_filter.mp (List.mem_of_find?_eq_some hfound)).1
      exact .enabled sec hfirst hmem (by simpa using List.find?_some hfound) rfl
    | none =>
      refine .made _ ?_ (fun old hold hnamed => ?_) ?_ (fun other => ?_) rfl
      · rw [name_setAll,name_ensureSection]
      · have hlistener : old.isListener = true := by
          rw [isListener,hnamed]
          exact hname
        exact List.find?_eq_none.mp hfound old (List.mem_filter.mpr ⟨hold,hlistener⟩) (by simpa using hnamed)
      · refine decide_eq_true ?_
        refine getOr_setAll _ [] "" (by decide) ?_
        dsimp only [List.all_cons,List.all_nil]
        decide
      · have hget : ((m.ensureSection name).setAll py (httpFields portName useSsl)).getOr py "Port" "" =
            portName.toList := by
          refine getOr_setAll _ [("Listener","HTTPListener".toList),("Protocol","TCP".toList)] "" hempty ?_
          dsimp only [List.all_cons,List.all_nil]
          decide
        rw [portIs,hget,hport]
        simp

theorem ensureSection_put {name : String} {sec : Section} (h : name.toList ≠ sec.name) :
    (m.put sec).ensureSection name = m.ensureSection name := by
  rw [ConfigModel.ensureSection,ConfigModel.ensureSection,ConfigModel.put,Keyed.find?_key_put h]

theorem ensureSection_put_of_listener {name : String} {sec : Section} (hlistener : sec.isListener = true)
    (hname : (⟨name.toList,[]⟩ : Section).isListener = false) :
    (m.put sec).ensureSection name = m.ensureSection name := by
  refine ensureSection_put fun h => ?_
  rw [isListener,h] at hname
  rw [isListener,hname] at hlistener
  cases hlistener

/-- A kind of section that an assignment to `Enabled` does not touch, such as `isRelay`. -/
structure Kind (py : CaseMap) (kind : Section → Bool) (good : Section → Prop) : Prop where
  kind_enabled : ∀ sec, kind (sec.set py "Enabled" "True".toList) = kind sec
  good_enabled : ∀ sec, good sec → good (sec.set py "Enabled" "True".toList)
  not_http : ∀ sec, listensAs py sec "HTTPListener" = true → kind sec = false

theorem listener_eq {sec : Section} {listener : String} (h : listensAs py sec listener = true) :
    sec.getOr py "Listener" "" = listener.toList := of_decide_eq_true h

theorem kind_relay (port : Text) : Kind py (isRelay py) fun sec => portText py sec = port where
  kind_enabled sec := isRelay_set_of_apart sec _ (by decide)
  good_enabled sec h := by
    rw [portText,get_set_of_apart sec _ (by decide)]
    exact h
  not_http sec h := by
    rw [isRelay,listensAs,listener_eq h]
    decide

theorem kind_dns (protocol : String) (sink : Text) : Kind py (servesPort py protocol) (Filled py sink) where
  kind_enabled sec := by
    rw [servesPort,servesPort,isDns_set_of_apart sec _ _ (by decide) (by decide),
      portIs_set_of_apart sec _ _ (by decide)]
  good_enabled sec h := by
    rw [Filled,stripped,getOr_set_of_apart sec _ "" (by decide)]
    exact h
  not_http sec h := by
    have hlistener : listensAs py sec "DNSListener" = false := by
      rw [listensAs,listener_eq h]
      decide
    rw [servesPort,isDns,hlistener,Bool.false_and,Bool.false_and]

/-- The first section of a kind that serves, with what was found out about it. -/
def First (py : CaseMap) (kind : Section → Bool) (good : Section → Prop) (m : ConfigModel) : Prop :=
  ∃ sec, m.sections.find? (serving py kind) = some sec ∧ good sec

variable {kind : Section → Bool} {good : Section → Prop}

theorem First.put_other (h : First py kind good m) {sec : Section} (hkind : kind sec = false)
    (hname : ∀ first, m.sections.find? (serving py kind) = some first → first.name ≠ sec.name) :
    First py kind good (m.put sec) := by
  obtain ⟨first,hfirst,hgood⟩ := h
  refine ⟨first,Keyed.find?_put_of_ne hfirst (hname first hfirst) fun hserves => ?_,hgood⟩
  rw [(serving_iff.mp hserves).2.2] at hkind
  cases hkind

/-- A section that is enabled by its name does no harm if it was enabled or is of no kind. -/
theorem First.put_enabled (hkind : Kind py kind good) (hm : Named m) (h : First py kind good m) {old : Section}
    (hold : old ∈ m.sections) (hneutral : isEnabled py old = true ∨ kind old = false) :
    First py kind good (m.put (old.set py "Enabled" "True".toList)) := by
  obtain ⟨first,hfirst,hgood⟩ := h
  obtain ⟨hlistener,-,hfirstKind⟩ := serving_iff.mp (List.find?_some hfirst)
  by_cases hname : first.name = old.name
  · obtain rfl : first = old := List.inj_on_of_nodup_map hm (List.mem_of_find?_eq_some hfirst) hold hname
    refine ⟨_,Keyed.find?_put_of_eq hm hfirst rfl ?_,hkind.good_enabled first hgood⟩
    exact serving_iff.mpr ⟨hlistener,isEnabled_set first,(hkind.kind_enabled first).trans hfirstKind⟩
  · refine ⟨first,Keyed.find?_put_of_ne hfirst hname fun hserves b hb hsame => ?_,hgood⟩
    obtain rfl : b = old := List.inj_on_of_nodup_map hm hb hold hsame
    obtain ⟨hlistener',-,hold'⟩ := serving_iff.mp hserves
    rw [hkind.kind_enabled] at hold'
    have henabled := hneutral.resolve_right (by simp [hold'])
    exact serving_iff.mpr ⟨hlistener',henabled,hold'⟩

/-- The section of a kind that has been found stays when another one is put back. -/
theorem First.put_apart {slot : Text} (h : First py kind (fun sec => good sec ∧ sec.name = slot) m) {sec : Section}
    (hkind : kind sec = false) (hslot : slot ≠ sec.name) :
    First py kind (fun sec => good sec ∧ sec.name = slot) (m.put sec) := by
  refine h.put_other hkind fun other hother => ?_
  obtain ⟨first,hfirst,-,hname⟩ := h
  obtain rfl := Option.some.inj (hfirst.symm.trans hother)
  rwa [hname]

theorem First.imp {good' : Section → Prop} (h : First py kind good m) (himp : ∀ sec, good sec → good' sec) :
    First py kind good' m := by
  obtain ⟨first,hfirst,hgood⟩ := h
  exact ⟨first,hfirst,himp first hgood⟩

/-- The disabled section that a step for HTTP enables by its name. -/
def enabledFor (py : CaseMap) (name : String) (port : ℤ) (m : ConfigModel) : Option Section :=
  if (firstHttp py port m).isSome then none
  else m.sections.find? fun sec => decide (sec.name = name.toList) && !isEnabled py sec

theorem enabledFor_eq_some (hm : Named m) {name : String} {port : ℤ} {old : Section}
    (hfirst : firstHttp py port m = none) (hold : old ∈ m.sections) (hname : old.name = name.toList) :
    enabledFor py name port m = if isEnabled py old then none else some old := by
  rw [enabledFor,hfirst,if_neg (by simp)]
  split
  · next henabled =>
    refine List.find?_eq_none.mpr fun sec hsec h => ?_
    simp only [Bool.and_eq_true,decide_eq_true_eq,Bool.not_eq_true'] at h
    obtain rfl : sec = old := List.inj_on_of_nodup_map hm hsec hold (h.1.trans hname.symm)
    rw [henabled] at h
    cases h.2
  · next hdisabled =>
    refine Keyed.find?_unique hm hold ?_ fun sec h => ?_
    · simp [hname,hdisabled]
    · simp only [Bool.and_eq_true,decide_eq_true_eq] at h
      exact h.1.trans hname.symm

theorem First.provisionHttp (hkind : Kind py kind good) (h : First py kind good m) (hm : Named m) {name : String}
    {port : ℤ} {m' : ConfigModel} (houtcome : HttpOutcome py name port m m')
    (hquiet : ∀ sec ∈ enabledFor py name port m, kind sec = false) : First py kind good m' := by
  cases houtcome with
  | kept _ hsame => rwa [hsame]
  | enabled old hfirst hold hname hput =>
    rw [hput]
    rw [enabledFor_eq_some hm hfirst hold hname] at hquiet
    refine h.put_enabled hkind hm hold ?_
    by_cases henabled : isEnabled py old = true
    · exact .inl henabled
    · exact .inr (hquiet old (by rw [if_neg henabled,Option.mem_some]))
  | made sec hname habsent hlistener _ hput =>
    rw [hput]
    refine h.put_other ?_ fun first hfirst hsame => ?_
    · rw [hkind.kind_enabled]
      exact hkind.not_http sec hlistener
    · exact habsent first (List.mem_of_find?_eq_some hfirst) (hsame.trans hname)

/-- Nothing is left to do for a port of HTTP. -/
def HttpDone (py : CaseMap) (name : String) (port : ℤ) (m : ConfigModel) : Prop :=
  (firstHttp py port m).isSome = true ∨
    ∃ sec ∈ m.sections, sec.name = name.toList ∧ sec.set py "Enabled" "True".toList = sec

theorem HttpOutcome.done {name : String} {port : ℤ} {m' : ConfigModel} (h : HttpOutcome py name port m m') :
    HttpDone py name port m' := by
  cases h with
  | kept hfirst hsame =>
    rw [hsame]
    exact .inl hfirst
  | enabled old _ _ hname hput =>
    rw [hput]
    exact .inr ⟨_,Keyed.mem_put _ _,hname,set_set old _ _⟩
  | made sec hname _ _ _ hput =>
    rw [hput]
    exact .inr ⟨_,Keyed.mem_put _ _,hname,set_set sec _ _⟩

theorem serving_http_enabled {port : ℤ} {sec : Section} (h : serving py (servesHttp py port) sec = true) :
    serving py (servesHttp py port) (sec.set py "Enabled" "True".toList) = true := by
  obtain ⟨hlistener,-,hport⟩ := serving_iff.mp h
  refine serving_iff.mpr ⟨hlistener,isEnabled_set sec,?_⟩
  rw [servesHttp,listensAs_set_of_apart sec _ _ (by decide),portIs_set_of_apart sec _ _ (by decide)]
  exact hport

/-- The step for another name keeps what was done. -/
theorem HttpDone.provisionHttp {name other : String} {port port' : ℤ} {m' : ConfigModel}
    (h : HttpDone py name port m) (hm : Named m) (houtcome : HttpOutcome py other port' m m')
    (hne : name.toList ≠ other.toList) : HttpDone py name port m' := by
  have hput : ∀ sec : Section, sec.name = other.toList →
      (∀ old ∈ m.sections, old.name = sec.name → serving py (servesHttp py port) old = true →
        serving py (servesHttp py port) sec = true) → HttpDone py name port (m.put sec) := by
    intro sec hname hserves
    obtain hfirst | ⟨done,hdone,hdoneName,hset⟩ := h
    · refine .inl ?_
      rw [firstHttp_eq,List.find?_isSome] at hfirst ⊢
      obtain ⟨first,hmem,hfirst⟩ := hfirst
      by_cases hsame : first.name = sec.name
      · exact ⟨sec,Keyed.mem_put sec _,hserves first hmem hsame hfirst⟩
      · exact ⟨first,Keyed.mem_put_of_ne hmem hsame,hfirst⟩
    · refine .inr ⟨done,Keyed.mem_put_of_ne hdone ?_,hdoneName,hset⟩
      rw [hdoneName,hname]
      exact hne
  cases houtcome with
  | kept _ hsame => rwa [hsame]
  | enabled old _ hold hname hput' =>
    rw [hput']
    refine hput _ hname fun b hb hsame hserves => ?_
    obtain rfl : b = old := List.inj_on_of_nodup_map hm hb hold hsame
    exact serving_http_enabled hserves
  | made sec hname habsent _ _ hput' =>
    rw [hput']
    exact hput _ hname fun b hb hsame _ => absurd (hsame.trans hname) (habsent b hb)

theorem mem_names_put {name : Text} (sec : Section) (h : name ∈ m.sections.map Section.name) :
    name ∈ (m.put sec).sections.map Section.name := by
  rw [ConfigModel.put,Keyed.map_put]
  split
  · exact h
  · exact List.mem_append_left _ h

theorem put_ensureSection (hm : Named m) {name : String} (h : name.toList ∈ m.sections.map Section.name) :
    m.put (m.ensureSection name) = m := by
  refine put_self hm ?_
  obtain ⟨sec,hsec,hname⟩ := List.mem_map.mp h
  rw [ConfigModel.ensureSection,← hname,Keyed.find?_key hm hsec]
  exact hsec

theorem ensureSections_eq (hm : Named m) (hfakenet : "FakeNet".toList ∈ m.sections.map Section.name)
    (hdiverter : "Diverter".toList ∈ m.sections.map Section.name) : m.ensureSections = m := by
  rw [ConfigModel.ensureSections,put_ensureSection hm hfakenet,put_ensureSection hm hdiverter]

theorem ensureSections_names (m : ConfigModel) : "FakeNet".toList ∈ m.ensureSections.sections.map Section.name ∧
    "Diverter".toList ∈ m.ensureSections.sections.map Section.name := by
  have hput : ∀ (m : ConfigModel) (name : String),
      name.toList ∈ (m.put (m.ensureSection name)).sections.map Section.name := by
    intro m name
    rw [← name_ensureSection m name]
    exact List.mem_map_of_mem (Keyed.mem_put _ _)
  exact ⟨mem_names_put _ (hput m "FakeNet"),hput _ "Diverter"⟩

theorem Named.ensureSections (hm : Named m) : Named m.ensureSections := (hm.put _).put _

/-- Each step finds its section as it would leave it. -/
structure Settled (py : CaseMap) (m : ConfigModel) : Prop where
  named : Named m
  fakenet : "FakeNet".toList ∈ m.sections.map Section.name
  diverter : "Diverter".toList ∈ m.sections.map Section.name
  relay : First py (isRelay py) (fun sec => portText py sec = requiredRelayPort py m) m
  udp : First py (servesPort py "UDP") (Filled py (takeoverIp py m)) m
  tcp : First py (servesPort py "TCP") (Filled py (takeoverIp py m)) m
  plain : HttpDone py "HTTPListener80" 80 m
  secure : HttpDone py "HTTPListener443" 443 m

theorem provisionRelay_settled (h : First py (isRelay py) (fun sec => portText py sec = requiredRelayPort py m) m) :
    provisionRelay py m = (m,[]) := by
  obtain ⟨sec,hfirst,hport⟩ := h
  rw [provisionRelay,firstRelay_eq,hfirst]
  dsimp only
  rw [if_neg (not_not.mpr hport)]

theorem provisionDns_settled (hm : Named m) {sink : Text} {protocol : String} (name : String)
    (h : First py (servesPort py protocol) (Filled py sink) m) : provisionDns py sink protocol name m = (m,[]) := by
  obtain ⟨sec,hfirst,hfilled⟩ := h
  have hserve : serveDns py protocol name m = (sec,[]) := by rw [serveDns,firstDns_eq,hfirst]
  have hfill : ¬(sink ≠ [] ∧ sec.stripped py "ResponseA" = []) := by
    rintro ⟨hsink,hempty⟩
    obtain h | h := hfilled
    · exact hsink h
    · exact h hempty
  rw [provisionDns,hserve]
  dsimp only
  rw [if_neg hfill,put_self hm (List.mem_of_find?_eq_some hfirst)]

theorem provisionHttp_settled (hm : Named m) {name : String} {port : ℤ} (portName useSsl : String)
    (hname : (⟨name.toList,[]⟩ : Section).isListener = true) (h : HttpDone py name port m) :
    provisionHttp py name port portName useSsl m = (m,[]) := by
  rw [provisionHttp]
  cases hfirst : firstHttp py port m with
  | some sec => rfl
  | none =>
    rw [HttpDone,hfirst] at h
    obtain ⟨sec,hsec,hsecName,hset⟩ := h.resolve_left (by simp)
    have hfound : (m.listenerSections.find? fun sec => sec.name = name.toList) = some sec := by
      have hsame : (fun old : Section => decide (old.isListener = true ∧ decide (old.name = name.toList) = true)) =
          fun old => decide (old.name = sec.name) := by
        funext old
        rw [hsecName,decide_eq_decide,decide_eq_true_eq,and_iff_right_iff_imp]
        intro hold
        rw [isListener,hold]
        exact hname
      rw [ConfigModel.listenerSections,List.find?_filter,hsame]
      exact Keyed.find?_key hm hsec
    dsimp only
    rw [hfound]
    dsimp only
    rw [hset,put_self hm hsec]

/-- A settled model has nothing to provision. -/
theorem ensure_of_settled (h : Settled py m) : ensureEgressControlTopology py m = (m,[]) := by
  rw [ensureEgressControlTopology,ensureSections_eq h.named h.fakenet h.diverter]
  rw [provisionRelay_settled h.relay,provisionDns_settled h.named _ h.udp,provisionDns_settled h.named _ h.tcp,
    provisionHttp_settled h.named _ _ (by decide) h.plain,
    provisionHttp_settled h.named _ _ (by decide) h.secure]
  rfl

theorem provisionRelay_quiet (h : (provisionRelay py m).2 = []) : (provisionRelay py m).1 = m := by
  unfold provisionRelay at h ⊢
  cases hfirst : firstRelay py m with
  | none =>
    rw [hfirst] at h
    cases h
  | some relay =>
    rw [hfirst] at h
    dsimp only at h ⊢
    split
    · next hport =>
      rw [if_pos hport] at h
      cases h
    · rfl

/-- A step for DNS that reports nothing has found an address in its section. -/
theorem filled_of_quiet {sink : Text} {protocol name : String} {sec : Section}
    (h : (provisionDns py sink protocol name m).2 = []) (hfirst : firstDns py protocol m = some sec) :
    Filled py sink sec := by
  have hserve : serveDns py protocol name m = (sec,[]) := by rw [serveDns,hfirst]
  rw [provisionDns,hserve] at h
  dsimp only at h
  by_cases hfill : sink ≠ [] ∧ sec.stripped py "ResponseA" = []
  · rw [if_pos hfill] at h
    cases h
  · rw [not_and_or,not_not] at hfill
    exact hfill

/-- Nor has a listener for UDP been left without one when nothing is reported at all. -/
theorem filled_of_idempotent (hm : Named m) (hfakenet : "FakeNet".toList ∈ m.sections.map Section.name)
    (hdiverter : "Diverter".toList ∈ m.sections.map Section.name) (h : (ensureEgressControlTopology py m).2 = [])
    {sec : Section} (hfirst : firstDns py "UDP" m = some sec) : Filled py (takeoverIp py m) sec := by
  rw [ensureEgressControlTopology,ensureSections_eq hm hfakenet hdiverter] at h
  simp only [List.append_eq_nil_iff] at h
  obtain ⟨⟨⟨⟨hrelay,hudp⟩,-⟩,-⟩,-⟩ := h
  rw [provisionRelay_quiet hrelay] at hudp
  exact filled_of_quiet hudp hfirst

section Steps

variable (py) (m)

def afterRelay : ConfigModel := (provisionRelay py m.ensureSections).1

def afterUdp : ConfigModel :=
  (provisionDns py (takeoverIp py (afterRelay py m)) "UDP" "DNS Server" (afterRelay py m)).1

def afterTcp : ConfigModel :=
  (provisionDns py (takeoverIp py (afterRelay py m)) "TCP" "DNS TCP Server" (afterUdp py m)).1

def afterPlain : ConfigModel := (provisionHttp py "HTTPListener80" 80 "80" "No" (afterTcp py m)).1

end Steps

theorem HttpOutcome.named {name : String} {port : ℤ} {m' : ConfigModel} (h : HttpOutcome py name port m m')
    (hm : Named m) : Named m' := by
  cases h with
  | kept _ hsame => rwa [hsame]
  | enabled old _ _ _ hput =>
    rw [hput]
    exact hm.put _
  | made sec _ _ _ _ hput =>
    rw [hput]
    exact hm.put _

/-- A model in which the same sections hold the settings of the diverter. -/
structure SameBase (m m' : ConfigModel) : Prop where
  diverter : m'.diverter = m.diverter
  names : ∀ name ∈ m.sections.map Section.name, name ∈ m'.sections.map Section.name

theorem sameBase_refl (m : ConfigModel) : SameBase m m := ⟨rfl,fun _ h => h⟩

theorem SameBase.trans {m' m'' : ConfigModel} (h : SameBase m m') (h' : SameBase m' m'') : SameBase m m'' :=
  ⟨h'.diverter.trans h.diverter,fun name hname => h'.names name (h.names name hname)⟩

theorem sameBase_put {sec : Section} (hlistener : sec.isListener = true) : SameBase m (m.put sec) :=
  ⟨ensureSection_put_of_listener hlistener (by decide),fun _ h => mem_names_put sec h⟩

theorem isListener_of_name {sec : Section} {name : Text} (h : sec.name = name)
    (hname : (⟨name,[]⟩ : Section).isListener = true) : sec.isListener = true := by
  rw [isListener,h]
  exact hname

theorem HttpOutcome.sameBase {name : String} {port : ℤ} {m' : ConfigModel} (h : HttpOutcome py name port m m')
    (hname : (⟨name.toList,[]⟩ : Section).isListener = true) : SameBase m m' := by
  cases h with
  | kept _ hsame =>
    rw [hsame]
    exact sameBase_refl m
  | enabled old _ _ hold hput =>
    rw [hput]
    exact sameBase_put (isListener_of_name hold hname)
  | made sec hsec _ _ _ hput =>
    rw [hput]
    exact sameBase_put (isListener_of_name hsec hname)

theorem SameBase.takeoverIp {m' : ConfigModel} (h : SameBase m m') : takeoverIp py m' = takeoverIp py m := by
  rw [Validator.takeoverIp,h.diverter]
  rfl

theorem SameBase.requiredRelayPort {m' : ConfigModel} (h : SameBase m m') :
    requiredRelayPort py m' = requiredRelayPort py m := by
  rw [Validator.requiredRelayPort,h.diverter]
  rfl

theorem diverter_ensureSections (m : ConfigModel) : m.ensureSections.diverter = m.diverter := by
  have hfakenet : (m.put (m.ensureSection "FakeNet")).ensureSection "Diverter" = m.ensureSection "Diverter" := by
    refine ensureSection_put ?_
    rw [name_ensureSection]
    decide
  rw [ConfigModel.ensureSections,ConfigModel.diverter,ConfigModel.diverter,ConfigModel.ensureSection,ConfigModel.put,
    hfakenet,Keyed.find?_key_put_self (name_ensureSection m "Diverter").symm]
  rfl

theorem sameBase_ensureSections (m : ConfigModel) : SameBase m m.ensureSections :=
  ⟨diverter_ensureSections m,fun _ h => mem_names_put _ (mem_names_put _ h)⟩

theorem kind_isRelay_not_dns {sec : Section} (h : isRelay py sec = true) (protocol : String) :
    servesPort py protocol sec = false := by
  rw [servesPort,not_dns_of_isRelay h protocol,Bool.false_and]

theorem not_tcp_of_udp (old : Section) (h : servesPort py "UDP" old = true) : isDns py "TCP" old = false := by
  rw [servesPort,Bool.and_eq_true] at h
  exact not_isDns_of_isDns h.1 (by decide)

/-- What the steps have done one after another, with the section that each of the first three puts back. -/
structure Trace (py : CaseMap) (m : ConfigModel) (relay udp tcp : Section) : Prop where
  relay_put : afterRelay py m = m.ensureSections.put relay
  relay_serves : serving py (isRelay py) relay = true
  relay_port : portText py relay = requiredRelayPort py m
  relay_slot : relay.name = relaySlot py m.ensureSections
  udp_put : afterUdp py m = (afterRelay py m).put udp
  udp_serves : serving py (servesPort py "UDP") udp = true
  udp_filled : Filled py (takeoverIp py m) udp
  udp_slot : udp.name = dnsSlot py "UDP" "DNS Server" (afterRelay py m)
  tcp_put : afterTcp py m = (afterUdp py m).put tcp
  tcp_serves : serving py (servesPort py "TCP") tcp = true
  tcp_filled : Filled py (takeoverIp py m) tcp
  tcp_slot : tcp.name = dnsSlot py "TCP" "DNS TCP Server" (afterUdp py m)
  plain : HttpOutcome py "HTTPListener80" 80 (afterTcp py m) (afterPlain py m)
  secure : HttpOutcome py "HTTPListener443" 443 (afterPlain py m) (ensureEgressControlTopology py m).1

theorem ensure_eq (m : ConfigModel) : (ensureEgressControlTopology py m).1 =
    (provisionHttp py "HTTPListener443" 443 "443" "Yes" (afterPlain py m)).1 := by
  rw [ensureEgressControlTopology,afterPlain,afterTcp,afterUdp,afterRelay]

theorem exists_trace (py : CaseMap) (hm : Named m) : ∃ relay udp tcp, Trace py m relay udp tcp := by
  obtain ⟨relay,hrelayPut,hrelay,hport,hrelaySlot⟩ := provisionRelay_spec py hm.ensureSections
  have hbase : SameBase m (afterRelay py m) := by
    refine (sameBase_ensureSections m).trans ?_
    rw [afterRelay,hrelayPut]
    exact sameBase_put (serving_iff.mp hrelay).1
  have hsink : Text.strip (takeoverIp py (afterRelay py m)) = takeoverIp py (afterRelay py m) := by
    rw [takeoverIp,stripped,Text.strip_strip]
  have hudp : ∃ sec, afterUdp py m = (afterRelay py m).put sec ∧ serving py (servesPort py "UDP") sec = true ∧
      Filled py (takeoverIp py m) sec ∧ sec.name = dnsSlot py "UDP" "DNS Server" (afterRelay py m) := by
    rw [afterUdp,← hbase.takeoverIp]
    exact provisionDns_spec isProtocol_udp (by decide) hsink
  have htcp : ∃ sec, afterTcp py m = (afterUdp py m).put sec ∧ serving py (servesPort py "TCP") sec = true ∧
      Filled py (takeoverIp py m) sec ∧ sec.name = dnsSlot py "TCP" "DNS TCP Server" (afterUdp py m) := by
    rw [afterTcp,← hbase.takeoverIp]
    exact provisionDns_spec isProtocol_tcp (by decide) hsink
  have hplain : HttpOutcome py "HTTPListener80" 80 (afterTcp py m) (afterPlain py m) := by
    rw [afterPlain]
    exact provisionHttp_spec (by decide) (by decide) (by decide)
  have hsecure : HttpOutcome py "HTTPListener443" 443 (afterPlain py m) (ensureEgressControlTopology py m).1 := by
    rw [ensure_eq]
    exact provisionHttp_spec (by decide) (by decide) (by decide)
  obtain ⟨udp,hudpPut,hudpServes,hudpFilled,hudpSlot⟩ := hudp
  obtain ⟨tcp,htcpPut,htcpServes,htcpFilled,htcpSlot⟩ := htcp
  rw [(sameBase_ensureSections m).requiredRelayPort] at hport
  exact ⟨relay,udp,tcp,hrelayPut,hrelay,hport,hrelaySlot,hudpPut,hudpServes,hudpFilled,hudpSlot,htcpPut,htcpServes,
    htcpFilled,htcpSlot,hplain,hsecure⟩

variable {relay udp tcp : Section}

namespace Trace

theorem named_relay (h : Trace py m relay udp tcp) (hm : Named m) : Named (afterRelay py m) := by
  rw [h.relay_put]
  exact hm.ensureSections.put relay

theorem named_udp (h : Trace py m relay udp tcp) (hm : Named m) : Named (afterUdp py m) := by
  rw [h.udp_put]
  exact (h.named_relay hm).put udp

theorem named_tcp (h : Trace py m relay udp tcp) (hm : Named m) : Named (afterTcp py m) := by
  rw [h.tcp_put]
  exact (h.named_udp hm).put tcp

theorem base (h : Trace py m relay udp tcp) : SameBase m (ensureEgressControlTopology py m).1 := by
  have hrelay : SameBase m.ensureSections (afterRelay py m) := by
    rw [h.relay_put]
    exact sameBase_put (serving_iff.mp h.relay_serves).1
  have hudp : SameBase (afterRelay py m) (afterUdp py m) := by
    rw [h.udp_put]
    exact sameBase_put (serving_iff.mp h.udp_serves).1
  have htcp : SameBase (afterUdp py m) (afterTcp py m) := by
    rw [h.tcp_put]
    exact sameBase_put (serving_iff.mp h.tcp_serves).1
  have hhttp := (h.plain.sameBase (by decide)).trans (h.secure.sameBase (by decide))
  exact (((sameBase_ensureSections m).trans hrelay).trans (hudp.trans htcp)).trans hhttp

theorem relay_first (h : Trace py m relay udp tcp) (hm : Named m) :
    First py (isRelay py) (fun sec => portText py sec = requiredRelayPort py m ∧ sec.name = relay.name)
      (afterRelay py m) := by
  have hslot := h.relay_slot
  rw [h.relay_put]
  rw [relaySlot] at hslot
  cases hfirst : firstRelay py m.ensureSections with
  | none =>
    rw [firstRelay_eq] at hfirst
    exact ⟨relay,Keyed.find?_put_of_none hfirst h.relay_serves,h.relay_port,rfl⟩
  | some old =>
    rw [hfirst] at hslot
    rw [firstRelay_eq] at hfirst
    exact ⟨relay,Keyed.find?_put_of_eq hm.ensureSections hfirst hslot.symm h.relay_serves,h.relay_port,rfl⟩

end Trace

/-- After a step for DNS its section is the first that answers. -/
theorem first_dns_after (hm : Named m) {protocol name : String} {sink : Text} {sec : Section}
    (hserves : serving py (servesPort py protocol) sec = true) (hfilled : Filled py sink sec)
    (hslot : sec.name = dnsSlot py protocol name m) :
    First py (servesPort py protocol) (fun s => Filled py sink s ∧ s.name = sec.name) (m.put sec) := by
  rw [dnsSlot] at hslot
  cases hfirst : firstDns py protocol m with
  | none =>
    rw [firstDns_eq] at hfirst
    exact ⟨sec,Keyed.find?_put_of_none hfirst hserves,hfilled,rfl⟩
  | some old =>
    rw [hfirst] at hslot
    rw [firstDns_eq] at hfirst
    exact ⟨sec,Keyed.find?_put_of_eq hm hfirst hslot.symm hserves,hfilled,rfl⟩

theorem relay_of_dns {protocol : String} {sec : Section} (h : serving py (servesPort py protocol) sec = true) :
    isRelay py sec = false := by
  have hport := (serving_iff.mp h).2.2
  rw [servesPort,Bool.and_eq_true] at hport
  exact not_relay_of_isDns hport.1

theorem udp_of_tcp {sec : Section} (h : serving py (servesPort py "TCP") sec = true) :
    servesPort py "UDP" sec = false := by
  have hport := (serving_iff.mp h).2.2
  rw [servesPort,Bool.and_eq_true] at hport
  rw [servesPort,not_isDns_of_isDns hport.1 (by decide),Bool.false_and]

/-- No step for HTTP enables a section of a kind for its name. -/
def Quiet (py : CaseMap) (kind : Section → Bool) (m : ConfigModel) : Prop :=
  (∀ sec ∈ enabledFor py "HTTPListener80" 80 (afterTcp py m), kind sec = false) ∧
    ∀ sec ∈ enabledFor py "HTTPListener443" 443 (afterPlain py m), kind sec = false

namespace Trace

/-- The first section of a kind, once the listeners for DNS are there, outlasts the steps for HTTP. -/
theorem first_http (h : Trace py m relay udp tcp) (hm : Named m) {kind : Section → Bool} {good : Section → Prop}
    (hkind : Kind py kind good) (hfirst : First py kind good (afterTcp py m)) (hquiet : Quiet py kind m) :
    First py kind good (ensureEgressControlTopology py m).1 :=
  (hfirst.provisionHttp hkind (h.named_tcp hm) h.plain hquiet.1).provisionHttp hkind
    (h.plain.named (h.named_tcp hm)) h.secure hquiet.2

theorem first_relay (h : Trace py m relay udp tcp) (hm : Named m) (hudp : relay.name ≠ udp.name)
    (htcp : relay.name ≠ tcp.name) (hquiet : Quiet py (isRelay py) m) :
    First py (isRelay py) (fun sec => portText py sec = requiredRelayPort py m) (ensureEgressControlTopology py m).1 := by
  have hfirst := (h.relay_first hm).put_apart (relay_of_dns h.udp_serves) hudp
  rw [← h.udp_put] at hfirst
  have hfirst := hfirst.put_apart (relay_of_dns h.tcp_serves) htcp
  rw [← h.tcp_put] at hfirst
  exact h.first_http hm (kind_relay _) (hfirst.imp fun _ h => h.1) hquiet

theorem first_udp (h : Trace py m relay udp tcp) (hm : Named m) (htcp : udp.name ≠ tcp.name)
    (hquiet : Quiet py (servesPort py "UDP") m) :
    First py (servesPort py "UDP") (Filled py (takeoverIp py m)) (ensureEgressControlTopology py m).1 := by
  have hfirst := first_dns_after (h.named_relay hm) h.udp_serves h.udp_filled h.udp_slot
  rw [← h.udp_put] at hfirst
  have hfirst := hfirst.put_apart (udp_of_tcp h.tcp_serves) htcp
  rw [← h.tcp_put] at hfirst
  exact h.first_http hm (kind_dns "UDP" _) (hfirst.imp fun _ h => h.1) hquiet

theorem first_tcp (h : Trace py m relay udp tcp) (hm : Named m) (hquiet : Quiet py (servesPort py "TCP") m) :
    First py (servesPort py "TCP") (Filled py (takeoverIp py m)) (ensureEgressControlTopology py m).1 := by
  have hfirst := first_dns_after (h.named_udp hm) h.tcp_serves h.tcp_filled h.tcp_slot
  rw [← h.tcp_put] at hfirst
  exact h.first_http hm (kind_dns "TCP" _) (hfirst.imp fun _ h => h.1) hquiet

theorem names (h : Trace py m relay udp tcp) {name : Text} (hname : name ∈ m.ensureSections.sections.map Section.name) :
    name ∈ (ensureEgressControlTopology py m).1.sections.map Section.name := by
  refine (h.plain.sameBase (by decide)).trans (h.secure.sameBase (by decide)) |>.names name ?_
  rw [h.tcp_put,h.udp_put,h.relay_put]
  exact mem_names_put _ (mem_names_put _ (mem_names_put _ hname))

theorem named (h : Trace py m relay udp tcp) (hm : Named m) : Named (ensureEgressControlTopology py m).1 :=
  h.secure.named (h.plain.named (h.named_tcp hm))

/-- The model is settled once the first section of each kind is as the step for it leaves it. -/
theorem settled (h : Trace py m relay udp tcp) (hm : Named m)
    (hrelay : First py (isRelay py) (fun sec => portText py sec = requiredRelayPort py m)
      (ensureEgressControlTopology py m).1)
    (hudp : First py (servesPort py "UDP") (Filled py (takeoverIp py m)) (ensureEgressControlTopology py m).1)
    (htcp : First py (servesPort py "TCP") (Filled py (takeoverIp py m)) (ensureEgressControlTopology py m).1) :
    Settled py (ensureEgressControlTopology py m).1 := by
  refine ⟨h.named hm,h.names (ensureSections_names m).1,h.names (ensureSections_names m).2,?_,?_,?_,?_,h.secure.done⟩
  · rw [h.base.requiredRelayPort]
    exact hrelay
  · rw [h.base.takeoverIp]
    exact hudp
  · rw [h.base.takeoverIp]
    exact htcp
  · exact h.plain.done.provisionHttp (h.plain.named (h.named_tcp hm)) h.secure (by decide)

end Trace

end Validator
end FakeNetNG
