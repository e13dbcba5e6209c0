import FakeNetNG.IpText

/-!
# The filter of the Windows diverter

The main filter is a text in the packet filter language. The diverter builds its base, and
the control link and the loopback exclusion rewrite the text of the shapes they know.
-/

namespace FakeNetNG
namespace ControlFilter

open Text

inductive Fault
  | controlFilterError (message : String)
  | policyConfigError (message : String)
  deriving DecidableEq

def legacyBase : Text := "outbound and ip".toList

def dualBase : Text := "outbound and (ip or ipv6)".toList

def loopbackV4Clause : Text := "(ip.DstAddr < 127.0.0.0 or ip.DstAddr > 127.255.255.255)".toList

def loopbackV6Clause : Text := "ipv6.DstAddr != ::1".toList

/-- The part of a filter that takes the answers to redirected connections. -/
def redirectTail (target «local» : Text) : Text :=
  " or (inbound and ip and ip.SrcAddr == ".toList++target++" and ip.DstAddr == ".toList++«local»++
    " and ip.Protocol == 6)".toList

def parenthesized (text : Text) : Text := '(' :: text++[')']

/-- An address must be written as `ip_address` would write it. -/
def isCanonicalV4 (address : IpAddress) (text : Text) : Bool :=
  match address with
  | .v4 bits => IpAddress.dotted bits = text
  | .v6 _ => false

def buildEgressControlFilter (targetIpv4 frozenLocalIpv4 : Option Text) : Except Fault Text :=
  match targetIpv4,frozenLocalIpv4 with
  | none,none => .ok dualBase
  | _,_ =>
      let targetText := targetIpv4.getD "None".toList
      let localText := frozenLocalIpv4.getD "None".toList
      match IpAddress.read targetText,IpAddress.read localText with
      | some target,some frozen =>
          if isCanonicalV4 target targetText ∧ isCanonicalV4 frozen localText then
            .ok (parenthesized dualBase++redirectTail targetText localText)
          else
            .error (.policyConfigError "process redirect filter requires canonical IPv4 addresses")
      | _,_ => .error (.policyConfigError "process redirect filter contains an invalid IPv4")

/-- The bases that the diverter starts from. -/
inductive Shape
  | legacy
  | dual
  | redirect (target «local» : BitVec 32)
  deriving DecidableEq

/-- How the diverter gets each of them. -/
def Shape.base : Shape → Except Fault Text
  | .legacy => .ok legacyBase
  | .dual => buildEgressControlFilter none none
  | .redirect target frozen =>
      buildEgressControlFilter (some (IpAddress.dotted target)) (some (IpAddress.dotted frozen))

/-- `' and '.join('tcp.SrcPort != %s' % port for port in ports)`. -/
def keepPort (ports : List Text) : Text :=
  join " and ".toList (ports.map fun port => "tcp.SrcPort != ".toList++port)

def negative (excludeIp : Text) (ports : List Text) : Text :=
  "(ip.DstAddr != ".toList++excludeIp++" or (".toList++keepPort ports++"))".toList

def buildControlLinkExclusionClause (excludeIp excludePort : Option Text) :
    Except Fault (Option Text) :=
  let ip := strip (excludeIp.getD [])
  let ports := (split ',' (excludePort.getD [])).map strip
  if ip = [] ∧ ports.all (· = []) then
    .ok none
  else if ip = [] ∨ ports.all (· = []) then
    .error (.controlFilterError "ControlLink exclusion requires ControlLinkExcludeIp and numeric ControlLinkExcludePort (fail closed)")
  else if ¬ ports.all isDecimal then
    .error (.controlFilterError "ControlLinkExcludePort entries must be numeric (fail closed)")
  else
    match IpAddress.read ip with
    | none => .error (.controlFilterError "ControlLinkExcludeIp is not a valid IP address")
    | some address =>
        if isCanonicalV4 address ip then
          .ok (some (negative ip ports))
        else
          .error (.controlFilterError "ControlLinkExcludeIp must be a canonical IPv4 address (fail closed)")

/-- The dual base with the exclusion in its IPv4 arm. -/
def excludedDual (clause : Text) : Text :=
  "(outbound and ip and ".toList++clause++") or (outbound and ipv6)".toList

def applyControlLinkExclusion (filter : Text) (excludeIp excludePort : Option Text) :
    Except Fault Text := do
  match ← buildControlLinkExclusionClause excludeIp excludePort with
  | none => return filter
  | some _ =>
      let ports := ((split ',' (strip (excludePort.getD []))).map strip).filter (· ≠ [])
      let clause := negative (strip (excludeIp.getD [])) ports
      if clause <:+: filter then
        return filter
      else if filter = legacyBase then
        return "outbound and ip and ".toList++clause
      else if filter = dualBase then
        return excludedDual clause
      else if dualBase <+: filter then
        return excludedDual clause++filter.drop dualBase.length
      else if parenthesized dualBase <+: filter then
        return excludedDual clause++filter.drop (parenthesized dualBase).length
      else
        throw (.controlFilterError "unrecognized main filter shape for control-link exclusion")

def loopbackDual : Text :=
  "(outbound and ip and ".toList++loopbackV4Clause++") or (outbound and ipv6 and ".toList++
    loopbackV6Clause++[')']

def separator : Text := " or (outbound and ipv6".toList

def marker : Text := "(outbound and ipv6".toList

/-- The clause goes inside a parenthesis that closes the part before the separator. -/
def extendHead (head : Text) : Text :=
  if head.head? = some '(' ∧ head.getLast? = some ')' then
    head.dropLast++" and ".toList++loopbackV4Clause++[')']
  else
    head++" and ".toList++loopbackV4Clause

def extendRest (rest : Text) : Text :=
  rest.take marker.length++" and ".toList++loopbackV6Clause++rest.drop marker.length

def applyLoopbackExclusion (filter : Text) : Except Fault Text :=
  if loopbackV4Clause <:+: filter then
    .ok filter
  else if filter = dualBase then
    .ok loopbackDual
  else if parenthesized dualBase <+: filter then
    .ok (loopbackDual++filter.drop (parenthesized dualBase).length)
  else
    match find separator filter with
    | some index =>
        .ok (extendHead (filter.take index)++" or ".toList++
          extendRest (filter.drop (index+" or ".toList.length)))
    | none =>
        if legacyBase <+: filter then
          .ok (filter++" and ".toList++loopbackV4Clause)
        else
          .error (.controlFilterError "unrecognized main filter shape for loopback exemption")

/-- What the diverter does to its filter before the handle is opened. -/
def finalFilter (shape : Shape) (excludeIp excludePort : Option Text) : Except Fault Text := do
  let base ← shape.base
  applyLoopbackExclusion (← applyControlLinkExclusion base excludeIp excludePort)

/-- `','.join(str(port) for port in ports)`. -/
def portText (ports : List ℕ) : Text := join [','] (ports.map decimal)

/-- The control clause for an address and ports. -/
def clause (control : BitVec 32) (ports : List ℕ) : Text :=
  negative (IpAddress.dotted control) (ports.map decimal)

def finalLegacy (control : BitVec 32) (ports : List ℕ) : Text :=
  "outbound and ip and ".toList++clause control ports++" and ".toList++loopbackV4Clause

def finalDual (control : BitVec 32) (ports : List ℕ) : Text :=
  "(outbound and ip and ".toList++clause control ports++" and ".toList++loopbackV4Clause++
    ") or (outbound and ipv6 and ".toList++loopbackV6Clause++[')']

def finalText (control : BitVec 32) (ports : List ℕ) : Shape → Text
  | .legacy => finalLegacy control ports
  | .dual => finalDual control ports
  | .redirect target frozen =>
      finalDual control ports++redirectTail (IpAddress.dotted target) (IpAddress.dotted frozen)

section Texts

variable {control : BitVec 32} {ports : List ℕ}

theorem strip_decimal (n : ℕ) : strip (decimal n) = decimal n :=
  strip_of_all fun _ hc => isSpace_of_isDigit (isDigit_of_mem_decimal hc)

theorem strip_dotted (bits : BitVec 32) : strip (IpAddress.dotted bits) = IpAddress.dotted bits :=
  strip_of_all fun _ hc => IpAddress.isSpace_of_mem_dotted hc

theorem comma_not_mem_decimal (n : ℕ) : ',' ∉ decimal n := fun h => by
  have hdigit := isDigit_of_mem_decimal h
  revert hdigit
  decide

theorem split_portText (hports : ports ≠ []) : split ',' (portText ports) = ports.map decimal := by
  refine split_join (by simpa using hports) fun text htext => ?_
  obtain ⟨n,-,rfl⟩ := List.mem_map.mp htext
  exact comma_not_mem_decimal n

theorem strip_portText : strip (portText ports) = portText ports := by
  refine strip_of_all fun c hc => ?_
  rcases mem_join hc with hc | ⟨text,htext,hc⟩
  · rw [List.mem_singleton.mp hc]
    decide
  · obtain ⟨n,-,rfl⟩ := List.mem_map.mp htext
    exact isSpace_of_isDigit (isDigit_of_mem_decimal hc)

theorem buildControlLinkExclusionClause_eq (hports : ports ≠ []) :
    buildControlLinkExclusionClause (some (IpAddress.dotted control)) (some (portText ports)) =
      .ok (some (clause control ports)) := by
  have hentries : (split ',' (portText ports)).map strip = ports.map decimal := by
    rw [split_portText hports,List.map_map]
    exact List.map_congr_left fun n _ => strip_decimal n
  have hempty : (ports.map decimal).all (· = []) = false := by
    obtain ⟨n,hn⟩ := List.exists_mem_of_ne_nil _ hports
    rw [List.all_eq_false]
    exact ⟨decimal n,List.mem_map_of_mem hn,by simpa using decimal_ne_nil n⟩
  have hdecimal : (ports.map decimal).all isDecimal = true := by
    simp [isDecimal_decimal]
  simp only [buildControlLinkExclusionClause,Option.getD_some,hentries,strip_dotted,hempty,
    IpAddress.dotted_ne_nil,hdecimal,IpAddress.read_dotted,isCanonicalV4,clause,false_and,
    Bool.false_eq_true,if_false,or_self,not_true_eq_false,decide_true,if_true]

theorem not_mem_of_isDigit {text : Text} {c : Char} (h : ∀ d ∈ text, d.isDigit = true ∨ d = '.')
    (hc : c.isDigit = false) (hdot : c ≠ '.') : c ∉ text := fun hmem => by
  rcases h c hmem with h | h
  · rw [hc] at h
    cases h
  · exact hdot h

theorem not_mem_dotted {bits : BitVec 32} {c : Char} (hc : c.isDigit = false) (hdot : c ≠ '.') :
    c ∉ IpAddress.dotted bits :=
  not_mem_of_isDigit (fun _ => IpAddress.mem_dotted) hc hdot

theorem not_mem_decimal {n : ℕ} {c : Char} (hc : c.isDigit = false) : c ∉ decimal n := fun h => by
  rw [isDigit_of_mem_decimal h] at hc
  cases hc

/-- The texts around the numbers of the clause. -/
def clauseWords : Text :=
  "(ip.DstAddr != ".toList++" or (".toList++(" and ".toList++"tcp.SrcPort != ".toList)++"))".toList

theorem not_mem_keepPort {c : Char} (h : c ∉ " and ".toList++"tcp.SrcPort != ".toList)
    (hc : c.isDigit = false) : c ∉ keepPort (ports.map decimal) := by
  rw [List.mem_append,not_or] at h
  refine not_mem_join h.1 fun text htext => ?_
  obtain ⟨port,hport,rfl⟩ := List.mem_map.mp htext
  obtain ⟨n,-,rfl⟩ := List.mem_map.mp hport
  rw [List.mem_append,not_or]
  exact ⟨h.2,not_mem_decimal hc⟩

theorem not_mem_clause {c : Char} (h : c ∉ clauseWords) (hc : c.isDigit = false) (hdot : c ≠ '.') :
    c ∉ clause control ports := by
  unfold clauseWords at h
  rw [List.mem_append,List.mem_append,List.mem_append,not_or,not_or,not_or] at h
  obtain ⟨⟨⟨hopen,hor⟩,hkeep⟩,hclose⟩ := h
  unfold clause negative
  rw [List.mem_append,List.mem_append,List.mem_append,List.mem_append]
  simp only [hopen,hor,hclose,not_mem_keepPort hkeep hc,not_mem_dotted hc hdot,or_self,
    not_false_eq_true]

theorem bang_mem_clause : '!' ∈ clause control ports := by
  unfold clause negative
  rw [List.append_assoc,List.append_assoc,List.append_assoc]
  exact List.mem_append_left _ (by decide)

def redirectWords : Text :=
  " or (inbound and ip and ip.SrcAddr == ".toList++" and ip.DstAddr == ".toList++
    " and ip.Protocol == 6)".toList

theorem not_mem_redirectTail {target frozen : BitVec 32} {c : Char} (h : c ∉ redirectWords)
    (hc : c.isDigit = false) (hdot : c ≠ '.') :
    c ∉ redirectTail (IpAddress.dotted target) (IpAddress.dotted frozen) := by
  unfold redirectWords at h
  rw [List.mem_append,List.mem_append,not_or,not_or] at h
  obtain ⟨⟨hsource,hdestination⟩,hprotocol⟩ := h
  unfold redirectTail
  rw [List.mem_append,List.mem_append,List.mem_append,List.mem_append]
  simp only [hsource,hdestination,hprotocol,not_mem_dotted hc hdot,or_self,not_false_eq_true]

/-- In the part of a text before the separator no parenthesis but the first opens on an `o`. -/
def Calm (text : Text) : Prop := text.IsChain fun c d => ¬ (c = '(' ∧ d = 'o')

theorem calm_of_not_mem {text : Text} (h : '(' ∉ text) : Calm text := by
  refine List.Pairwise.isChain ?_
  refine List.pairwise_iff_getElem.mpr fun i j hi hj hij hpair => ?_
  exact h (hpair.1 ▸ List.getElem_mem hi)

theorem Calm.append {front back : Text} (hfront : Calm front) (hback : Calm back)
    (h : front.getLast? ≠ some '(' ∨ back.head? ≠ some 'o') : Calm (front++back) := by
  refine List.isChain_append.mpr ⟨hfront,hback,fun c hc d hd hpair => ?_⟩
  rw [hpair.1] at hc
  rw [hpair.2] at hd
  rcases h with h | h
  · exact h hc
  · exact h hd

theorem getLast?_ne_of_not_mem {text : Text} {c : Char} (h : c ∉ text) : text.getLast? ≠ some c :=
  fun hlast => h (List.mem_of_getLast? hlast)

/-- The dual text after the control link, up to the separator. -/
def dualHead (control : BitVec 32) (ports : List ℕ) : Text :=
  "outbound and ip and ".toList++clause control ports++[')']

instance (text : Text) : Decidable (Calm text) :=
  inferInstanceAs (Decidable (text.IsChain _))

theorem calm_dualHead (hports : ports ≠ []) : Calm (dualHead control ports++" or (".toList) := by
  obtain ⟨port,rest,rfl⟩ := List.exists_cons_of_ne_nil hports
  set ip : Text := IpAddress.dotted control++" or ".toList with hip
  set keep : Text := keepPort ((port :: rest).map decimal)++"))) or ".toList with hkeep
  have hipPlain : '(' ∉ ip := by
    rw [hip,List.mem_append,not_or]
    exact ⟨not_mem_dotted (by decide) (by decide),by decide⟩
  have hkeepPlain : '(' ∉ keep := by
    rw [hkeep,List.mem_append,not_or]
    exact ⟨not_mem_keepPort (by decide) (by decide),by decide⟩
  have hkeepHead : keep.head? = some 't' := by
    cases rest with
    | nil => simp [hkeep,keepPort]
    | cons other rest => simp [hkeep,keepPort,join_cons]
  have hor : " or (".toList = " or ".toList++['('] := by decide
  have hclose : "))) or ".toList = "))".toList++([')']++" or ".toList) := by decide
  have htext : dualHead control (port :: rest)++" or (".toList =
      ("outbound and ip and ".toList++"(ip.DstAddr != ".toList)++(ip++(['(']++(keep++['(']))) := by
    unfold dualHead clause negative
    simp only [hor,hclose,hip,hkeep,List.append_assoc]
  have hend : Calm (keep++['(']) :=
    Calm.append (calm_of_not_mem hkeepPlain) (by decide)
      (Or.inl (getLast?_ne_of_not_mem hkeepPlain))
  have hmiddle : Calm (['(']++(keep++['('])) := by
    refine Calm.append (by decide) hend (Or.inr ?_)
    rw [List.head?_append,hkeepHead]
    decide
  have htail : Calm (ip++(['(']++(keep++['(']))) :=
    Calm.append (calm_of_not_mem hipPlain) hmiddle (Or.inl (getLast?_ne_of_not_mem hipPlain))
  rw [htext]
  exact Calm.append (by decide) htail (Or.inl (by decide))

/-- The separator begins with a parenthesis before an `o`, so it is in no calm text. -/
theorem separator_not_at {back text : Text} (hcalm : Calm (back++" or (".toList))
    (hback : back ≠ []) (htext : " or (".toList <+: text) : ¬ separator <+: back++text := by
  intro h
  have hstart : " or (o".toList <+: back++text := by
    refine List.IsPrefix.trans ?_ h
    exact List.prefix_iff_eq_take.mpr (by decide)
  have hfront : back++" or (".toList <+: back++text := (List.prefix_append_right_inj back).mpr htext
  have hlength : " or (o".toList.length ≤ (back++" or (".toList).length := by
    have hpos := List.length_pos_iff.mpr hback
    have hsix : " or (o".toList.length = 6 := by decide
    have hfive : " or (".toList.length = 5 := by decide
    rw [List.length_append]
    omega
  obtain ⟨rest,hrest⟩ := List.prefix_of_prefix_length_le hstart hfront hlength
  rw [← hrest] at hcalm
  have hstartCalm : Calm " or (o".toList := List.IsChain.left_of_append hcalm
  revert hstartCalm
  decide

theorem Calm.suffix {front back : Text} (h : Calm front) (hback : back <:+ front) : Calm back := by
  obtain ⟨start,rfl⟩ := hback
  exact List.IsChain.right_of_append h

theorem find_separator (hports : ports ≠ []) {text : Text} (htext : separator <+: text) :
    find separator ('(' :: dualHead control ports++text) =
      some ('(' :: dualHead control ports).length := by
  refine find_append (by decide) htext fun back hback hne => ?_
  have hor : " or (".toList <+: text :=
    List.IsPrefix.trans (List.prefix_iff_eq_take.mpr (by decide)) htext
  rcases List.suffix_cons_iff.mp hback with rfl | hback
  · have hseparator : separator = ' ' :: separator.tail := by decide
    intro h
    rw [hseparator,List.cons_append,List.cons_prefix_cons] at h
    exact absurd h.1 (by decide)
  · obtain ⟨start,hstart⟩ := hback
    refine separator_not_at ?_ hne hor
    have hcalm : Calm (dualHead control ports++" or (".toList) := calm_dualHead hports
    refine hcalm.suffix ⟨start,?_⟩
    rw [← List.append_assoc,hstart]

/-- What the control link does to a filter without an exclusion. -/
theorem applyControlLinkExclusion_eq (hports : ports ≠ []) {filter : Text} (hbang : '!' ∉ filter) :
    applyControlLinkExclusion filter (some (IpAddress.dotted control)) (some (portText ports)) =
      if filter = legacyBase then
        .ok ("outbound and ip and ".toList++clause control ports)
      else if filter = dualBase then
        .ok (excludedDual (clause control ports))
      else if dualBase <+: filter then
        .ok (excludedDual (clause control ports)++filter.drop dualBase.length)
      else if parenthesized dualBase <+: filter then
        .ok (excludedDual (clause control ports)++filter.drop (parenthesized dualBase).length)
      else
        .error (.controlFilterError "unrecognized main filter shape for control-link exclusion") := by
  have hentries : ((split ',' (strip (portText ports))).map strip).filter (· ≠ []) =
      ports.map decimal := by
    rw [strip_portText,split_portText hports,List.map_map]
    have hstrip : ports.map (strip ∘ decimal) = ports.map decimal :=
      List.map_congr_left fun n _ => strip_decimal n
    rw [hstrip,List.filter_eq_self]
    intro text htext
    obtain ⟨n,-,rfl⟩ := List.mem_map.mp htext
    simpa using decimal_ne_nil n
  have habsent : ¬ clause control ports <:+: filter := not_infix_of_mem bang_mem_clause hbang
  unfold applyControlLinkExclusion
  rw [buildControlLinkExclusionClause_eq hports]
  simp only [bind,Except.bind,Option.getD_some,hentries,strip_dotted]
  rw [show negative (IpAddress.dotted control) (ports.map decimal) = clause control ports from rfl,
    if_neg habsent]
  rfl

theorem applyControlLinkExclusion_legacy (hports : ports ≠ []) :
    applyControlLinkExclusion legacyBase (some (IpAddress.dotted control)) (some (portText ports)) =
      .ok ("outbound and ip and ".toList++clause control ports) := by
  rw [applyControlLinkExclusion_eq hports (by decide),if_pos rfl]

theorem applyControlLinkExclusion_dual (hports : ports ≠ []) :
    applyControlLinkExclusion dualBase (some (IpAddress.dotted control)) (some (portText ports)) =
      .ok (excludedDual (clause control ports)) := by
  rw [applyControlLinkExclusion_eq hports (by decide),if_neg (by decide),if_pos rfl]

/-- A text is no prefix when it already differs in the first part. -/
theorem not_prefix_append {part front text : Text} (h : ¬ part.take front.length <+: front) :
    ¬ part <+: front++text := fun hstarts => by
  have htake := (List.take_prefix front.length part).trans hstarts
  exact h (List.prefix_of_prefix_length_le htake (List.prefix_append front text)
    (List.length_take_le _ _))

theorem applyControlLinkExclusion_parenthesized (hports : ports ≠ []) {tail : Text}
    (hbang : '!' ∉ tail) :
    applyControlLinkExclusion (parenthesized dualBase++tail) (some (IpAddress.dotted control))
        (some (portText ports)) =
      .ok (excludedDual (clause control ports)++tail) := by
  have hplain : '!' ∉ parenthesized dualBase++tail := by
    rw [List.mem_append,not_or]
    exact ⟨by decide,hbang⟩
  have hdual : ¬ dualBase <+: parenthesized dualBase++tail :=
    not_prefix_append (by decide)
  have hlegacy : ¬ legacyBase <+: parenthesized dualBase++tail :=
    not_prefix_append (by decide)
  have hdualNe : parenthesized dualBase++tail ≠ dualBase := fun h => hdual (by rw [h])
  have hlegacyNe : parenthesized dualBase++tail ≠ legacyBase := fun h => hlegacy (by rw [h])
  rw [applyControlLinkExclusion_eq hports hplain,if_neg hlegacyNe,if_neg hdualNe,if_neg hdual,
    if_pos (List.prefix_append _ _),List.drop_left]

theorem separator_absent {text : Text} (hcalm : Calm text) : ¬ separator <:+: text := by
  rintro ⟨front,back,rfl⟩
  have hseparator : Calm separator :=
    List.IsChain.right_of_append (List.IsChain.left_of_append hcalm)
  revert hseparator
  decide

theorem loopbackV4Clause_absent {text : Text} (h : '<' ∉ text) : ¬ loopbackV4Clause <:+: text :=
  not_infix_of_mem (by decide) h

theorem applyLoopbackExclusion_legacy (hports : ports ≠ []) :
    applyLoopbackExclusion ("outbound and ip and ".toList++clause control ports) =
      .ok (finalLegacy control ports) := by
  have habsent : ¬ loopbackV4Clause <:+: "outbound and ip and ".toList++clause control ports := by
    refine loopbackV4Clause_absent ?_
    rw [List.mem_append,not_or]
    exact ⟨by decide,not_mem_clause (by decide) (by decide) (by decide)⟩
  have hdual : ¬ dualBase <+: "outbound and ip and ".toList++clause control ports :=
    not_prefix_append (by decide)
  have hdualNe : "outbound and ip and ".toList++clause control ports ≠ dualBase :=
    fun h => hdual (by rw [h])
  have hopen : ¬ parenthesized dualBase <+: "outbound and ip and ".toList++clause control ports :=
    not_prefix_append (by decide)
  have hfind : find separator ("outbound and ip and ".toList++clause control ports) = none := by
    have hcalm : Calm (dualHead control ports++" or (".toList) := calm_dualHead hports
    refine find_eq_none (separator_absent ?_)
    exact List.IsChain.left_of_append (List.IsChain.left_of_append hcalm)
  have hlegacy : legacyBase <+: "outbound and ip and ".toList++clause control ports :=
    List.IsPrefix.trans (List.prefix_iff_eq_take.mpr (by decide)) (List.prefix_append _ _)
  unfold applyLoopbackExclusion
  rw [if_neg habsent,if_neg hdualNe,if_neg hopen,hfind]
  exact if_pos hlegacy

theorem extendHead_dualHead :
    extendHead ('(' :: dualHead control ports) =
      "(outbound and ip and ".toList++clause control ports++" and ".toList++loopbackV4Clause++[')'] := by
  have hopen : "(outbound and ip and ".toList = '(' :: "outbound and ip and ".toList := by
    decide
  have hhead : '(' :: dualHead control ports =
      "(outbound and ip and ".toList++clause control ports++[')'] := by
    rw [hopen]
    rfl
  have hfirst : ('(' :: dualHead control ports).head? = some '(' := rfl
  have hlast : ('(' :: dualHead control ports).getLast? = some ')' := by
    rw [hhead,List.getLast?_concat]
  unfold extendHead
  rw [if_pos ⟨hfirst,hlast⟩,hhead,List.dropLast_concat]

theorem extendRest_ipv6 (tail : Text) :
    extendRest ("(outbound and ipv6)".toList++tail) =
      "(outbound and ipv6 and ".toList++loopbackV6Clause++[')']++tail := by
  have hmarker : "(outbound and ipv6)".toList = marker++[')'] := by decide
  have hfront : "(outbound and ipv6 and ".toList = marker++" and ".toList := by decide
  have htext : "(outbound and ipv6)".toList++tail = marker++([')']++tail) := by
    rw [hmarker,List.append_assoc]
  unfold extendRest
  rw [htext,hfront,List.take_left,List.drop_left]
  simp only [List.append_assoc]

/-- The two arms of a dual text get their clauses. -/
theorem applyLoopbackExclusion_dual (hports : ports ≠ []) {tail : Text} (hless : '<' ∉ tail) :
    applyLoopbackExclusion (excludedDual (clause control ports)++tail) =
      .ok (finalDual control ports++tail) := by
  have htext : excludedDual (clause control ports)++tail =
      '(' :: dualHead control ports++(" or ".toList++("(outbound and ipv6)".toList++tail)) := by
    have hopen : "(outbound and ip and ".toList = '(' :: "outbound and ip and ".toList := by
      decide
    have hclose : ") or (outbound and ipv6)".toList =
        [')']++(" or ".toList++"(outbound and ipv6)".toList) := by decide
    unfold excludedDual dualHead
    rw [hopen,hclose]
    simp only [List.append_assoc,List.cons_append]
  have habsent : ¬ loopbackV4Clause <:+: excludedDual (clause control ports)++tail := by
    refine loopbackV4Clause_absent ?_
    unfold excludedDual
    rw [List.mem_append,List.mem_append,List.mem_append,not_or,not_or,not_or]
    exact ⟨⟨⟨by decide,not_mem_clause (by decide) (by decide) (by decide)⟩,
      by decide⟩,hless⟩
  have hfront : excludedDual (clause control ports)++tail = "(outbound and ip and ".toList++
      (clause control ports++(") or (outbound and ipv6)".toList++tail)) := by
    unfold excludedDual
    simp only [List.append_assoc]
  have hopen : ¬ parenthesized dualBase <+: excludedDual (clause control ports)++tail := by
    rw [hfront]
    exact not_prefix_append (by decide)
  have hdual : ¬ dualBase <+: excludedDual (clause control ports)++tail := by
    rw [hfront]
    exact not_prefix_append (by decide)
  have hdualNe : excludedDual (clause control ports)++tail ≠ dualBase := fun h => hdual (by rw [h])
  have hstarts : separator <+: " or ".toList++("(outbound and ipv6)".toList++tail) := by
    rw [← List.append_assoc]
    exact List.IsPrefix.trans (List.prefix_iff_eq_take.mpr (by decide))
      (List.prefix_append _ _)
  have hfind : find separator ('(' :: dualHead control ports++
      (" or ".toList++("(outbound and ipv6)".toList++tail))) =
      some ('(' :: dualHead control ports).length := find_separator hports hstarts
  have hdrop : ('(' :: dualHead control ports++
      (" or ".toList++("(outbound and ipv6)".toList++tail))).drop
        (('(' :: dualHead control ports).length+" or ".toList.length) =
      "(outbound and ipv6)".toList++tail := by
    rw [← List.append_assoc,← List.length_append,List.drop_left]
  unfold applyLoopbackExclusion
  rw [if_neg habsent,if_neg hdualNe,if_neg hopen,htext,hfind]
  simp only [hdrop,List.take_left,extendHead_dualHead,extendRest_ipv6]
  have hmiddle : ") or (outbound and ipv6 and ".toList =
      [')']++(" or ".toList++"(outbound and ipv6 and ".toList) := by decide
  unfold finalDual
  rw [hmiddle]
  simp only [List.append_assoc]

theorem redirect_base (target frozen : BitVec 32) :
    (Shape.redirect target frozen).base = .ok (parenthesized dualBase++
      redirectTail (IpAddress.dotted target) (IpAddress.dotted frozen)) := by
  unfold Shape.base buildEgressControlFilter
  simp only [Option.getD_some,IpAddress.read_dotted,isCanonicalV4,decide_true,and_self,if_true]

/-- The text of the base of each shape. -/
def baseText : Shape → Text
  | .legacy => legacyBase
  | .dual => dualBase
  | .redirect target frozen => parenthesized dualBase++
      redirectTail (IpAddress.dotted target) (IpAddress.dotted frozen)

theorem base_eq (shape : Shape) : shape.base = .ok (baseText shape) := by
  cases shape with
  | legacy => rfl
  | dual => rfl
  | redirect target frozen => exact redirect_base target frozen

theorem finalFilter_eq (hports : ports ≠ []) (shape : Shape) :
    finalFilter shape (some (IpAddress.dotted control)) (some (portText ports)) =
      .ok (finalText control ports shape) := by
  unfold finalFilter
  rw [base_eq]
  cases shape with
  | legacy =>
    show (applyControlLinkExclusion legacyBase _ _).bind applyLoopbackExclusion = _
    rw [applyControlLinkExclusion_legacy hports]
    exact applyLoopbackExclusion_legacy hports
  | dual =>
    have hloopback : applyLoopbackExclusion (excludedDual (clause control ports)++[]) =
      .ok (finalDual control ports++[]) := applyLoopbackExclusion_dual hports List.not_mem_nil
    show (applyControlLinkExclusion dualBase _ _).bind applyLoopbackExclusion = _
    rw [applyControlLinkExclusion_dual hports]
    rw [List.append_nil,List.append_nil] at hloopback
    exact hloopback
  | redirect target frozen =>
    show (applyControlLinkExclusion (parenthesized dualBase++_) _ _).bind applyLoopbackExclusion = _
    rw [applyControlLinkExclusion_parenthesized hports
      (not_mem_redirectTail (by decide) (by decide) (by decide))]
    exact applyLoopbackExclusion_dual hports
      (not_mem_redirectTail (by decide) (by decide) (by decide))

end Texts
end ControlFilter
end FakeNetNG
