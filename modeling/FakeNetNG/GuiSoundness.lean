import FakeNetNG.GuiValidator
import FakeNetNG.Fallible

/-!
# What the engine refuses of a valid configuration

The engine parses the ports, the allowed domains and the takeover options again when it starts. Of the
configurations without an error it accepts those that are plain.
-/

namespace FakeNetNG

open Text

namespace EgressConfig

/-- A configuration as the engine reads it: its keys in lower case. -/
abbrev Options := List (Text × Text)

def optionsOf (py : CaseMap) (sec : Section) : Options :=
  sec.items.map fun item => (py.lower item.1,item.2)

def get (config : Options) (key : String) : Option Text :=
  (config.find? fun item => item.1 = key.toList).map Prod.snd

def splitCsv (value : Text) : List Text := ((split ',' value).map strip).filter (· ≠ [])

def normalizeAllowedDomain (idna : String → Option String) (value : Text) : Except PolicyError Text :=
  let value := strip value
  if Validator.wildcardPrefix <+: value then
    (Hostname.normalizeHostname idna (String.ofList (value.drop 2))).map fun name =>
      Validator.wildcardPrefix++name.toList
  else (Hostname.normalizeHostname idna (String.ofList value)).map String.toList

/-- `_parse_allowed_domains`: the exact names and the wildcards. -/
def parseAllowedDomains (idna : String → Option String) (raw : Text) :
    Except PolicyError (List Text × List Text) :=
  ((splitCsv raw).mapM (normalizeAllowedDomain idna)).map
    (·.partition fun entry => ¬Validator.wildcardPrefix <+: entry)

def rfc1918Networks : List (BitVec 32 × ℕ) :=
  [Addr.network 10 0 0 0 8,Addr.network 172 16 0 0 12,Addr.network 192 168 0 0 16]

/-- The address is in one of the private networks. -/
def inRfc1918 (bits : BitVec 32) : Bool := rfc1918Networks.any (Addr.inNetwork bits)

def parseTakeoverIpv4 (value : Text) : Except PolicyError Text :=
  let raw := strip value
  if raw = [] ∨ ['/',':',',','-'].any raw.contains then
    .error (.policyConfig "ExternalTakeoverIPv4 must be one dotted-decimal IPv4 address")
  else
    match IpAddress.read raw with
    | none => .error (.policyConfig "ExternalTakeoverIPv4 must be a valid IPv4 address")
    | some (.v6 _) => .error (.policyConfig "ExternalTakeoverIPv4 must be an RFC1918 IPv4 address")
    | some (.v4 bits) =>
      if ¬inRfc1918 bits then
        .error (.policyConfig "ExternalTakeoverIPv4 must be an RFC1918 IPv4 address")
      else if Addr.isLoopbackBits bits || Addr.isLinkLocal bits || Addr.isMulticast bits ||
          Addr.isUnspecified bits || Addr.isReserved bits ||
          IpAddress.dotted bits = "255.255.255.255".toList then
        .error (.policyConfig "ExternalTakeoverIPv4 is not a usable sink")
      else .ok (IpAddress.dotted bits)

/-- `^\d+$`, for a stripped text. -/
def isDigits (text : Text) : Bool := text ≠ [] && text.all isDigit

def tooLong : PolicyError := .value "Exceeds the limit for integer string conversion"

def parseProbePorts : List Text → List ℕ → Except PolicyError (List ℕ)
  | [],ports => .ok ports
  | part :: parts,ports =>
    if ¬isDigits (strip part) then
      .error (.policyConfig "ExternalTakeoverProbeTCPPorts must contain decimal ports")
    else
      match readDigits (strip part) with
      | none => .error tooLong
      | some port =>
        if ¬(1 ≤ port ∧ port ≤ 65535) then
          .error (.policyConfig "ExternalTakeoverProbeTCPPorts contains an invalid port")
        else if port ∈ ports then
          .error (.policyConfig "ExternalTakeoverProbeTCPPorts contains a duplicate port")
        else parseProbePorts parts (ports++[port])

def checkProbePorts (config : Options) : Except PolicyError Unit :=
  let raw := strip ((get config "externaltakeoverprobetcpports").getD [])
  if raw = [] then .ok ()
  else if (split ',' raw).any (strip · = []) then
    .error (.policyConfig "ExternalTakeoverProbeTCPPorts contains an empty item")
  else
    match parseProbePorts (split ',' raw) [] with
    | .error e => .error e
    | .ok ports =>
      if 64 < ports.length then
        .error (.policyConfig "ExternalTakeoverProbeTCPPorts permits at most 64 ports")
      else .ok ()

def checkProbeTimeout (config : Options) : Except PolicyError Unit :=
  let raw := strip ((get config "externaltakeoverprobetimeoutms").getD "500".toList)
  if ¬isDigits raw then .error (.policyConfig "ExternalTakeoverProbeTimeoutMs must be an integer")
  else
    match readDigits raw with
    | none => .error tooLong
    | some timeout =>
      if 100 ≤ timeout ∧ timeout ≤ 5000 then .ok ()
      else .error (.policyConfig "ExternalTakeoverProbeTimeoutMs must be between 100 and 5000")

def validateTakeoverProbeConfig (config : Options) : Except PolicyError Unit :=
  match checkProbePorts config with
  | .error e => .error e
  | .ok () => checkProbeTimeout config

end EgressConfig

open EgressConfig

/-- The engine reads every section, expands the ports of every listener that is enabled and parses the
policy. The takeover is parsed if its address is given. -/
structure EngineAccepts (py : CaseMap) (idna : String → Option String) (m : ConfigModel) : Prop where
  options : ∀ sec ∈ m.sections, ((optionsOf py sec).map Prod.fst).Nodup
  ports : ∀ sec ∈ Validator.enabledListeners py m,
    ∃ spec, get (optionsOf py sec) "port" = some spec ∧ (Fakenet.expandPorts spec).isSome
  domains : (parseAllowedDomains idna
    ((get (optionsOf py m.diverter) "externalalloweddomains").getD [])).isOk
  takeover : ∀ value, get (optionsOf py m.diverter) "externaltakeoveripv4" = some value →
    (parseTakeoverIpv4 value).isOk ∧ (validateTakeoverProbeConfig (optionsOf py m.diverter)).isOk

def dropDot (name : Text) : Text := if name.getLast? = some '.' then name.dropLast else name

/-- A name of letters, digits and hyphens, with hyphens only inside of its labels. -/
structure PlainName (idna : String → Option String) (name : Text) : Prop where
  noSpace : ¬(Hostname.strip name).any Hostname.isSpace
  labels : ∃ encoded, idna (String.ofList (dropDot (Hostname.strip name))) = some encoded ∧
    encoded.toList.length ≤ 253 ∧
      ∀ label ∈ (encoded.toList.map Char.toLower).splitOn '.', Hostname.validLabel label

/-- Decimal ports without ranges and blank items, each of them once. -/
structure PlainProbe (ports : Text) : Prop where
  digits : ∀ part ∈ split ',' ports, isDigits (strip part)
  nodup : ((split ',' ports).map fun part => numeral (strip part)).Nodup

structure PlainConfig (py : CaseMap) (idna : String → Option String) (m : ConfigModel) : Prop where
  options : ∀ sec ∈ m.sections, ((optionsOf py sec).map Prod.fst).Nodup
  ports : ∀ sec ∈ Validator.enabledListeners py m, ∀ spec, sec.get py "Port" = some spec → PlainPorts spec
  domains : ∀ domain ∈ Validator.allowedDomains py m.diverter,
    PlainName idna (Validator.candidateOf domain)
  sink : ∀ value bits, m.diverter.get py "ExternalTakeoverIPv4" = some value →
    IpAddress.read (strip value) = some (.v4 bits) → inRfc1918 bits
  probePorts : Validator.requested py m.diverter →
    m.diverter.stripped py "ExternalTakeoverProbeTCPPorts" ≠ [] →
      PlainProbe (m.diverter.stripped py "ExternalTakeoverProbeTCPPorts")
  probeTimeout : Validator.requested py m.diverter → ∀ value,
    m.diverter.get py "ExternalTakeoverProbeTimeoutMs" = some value → isDigits (strip value)

section Options

variable {py : CaseMap} {sec : Section}

theorem get_optionsOf {key : String} {name : String} (h : py.lower key.toList = name.toList) :
    get (optionsOf py sec) name = sec.get py key := by
  unfold EgressConfig.get optionsOf Section.get
  rw [List.find?_map,Option.map_map,h]
  rfl

theorem lower_key (py : CaseMap) {key name : String} (h : ∀ c ∈ key.toList, c.toNat < 128)
    (hname : key.toList.map Char.toLower = name.toList) : py.lower key.toList = name.toList := by
  rw [py.lower_ascii _ h,hname]

theorem getOr_empty (key : String) : sec.getOr py key "" = (sec.get py key).getD [] := by
  unfold Section.getOr
  cases sec.get py key with
  | none => rfl
  | some value => cases value <;> rfl

theorem errorIf_eq_nil {wrong : Prop} [Decidable wrong] {location : Text} {key : String} :
    Validator.errorIf wrong location key = [] ↔ ¬wrong := by
  unfold Validator.errorIf
  split <;> simp [*]

end Options

theorem isDigit_hyphen : isDigit '-' = false ∧ isDigit '+' = false ∧ isDigit '_' = false := by
  decide

theorem not_mem_digits {text : Text} (h : isDigits text = true) {c : Char} (hc : isDigit c = false) :
    c ∉ text := by
  simp only [isDigits,Bool.and_eq_true] at h
  intro hmem
  have hdigit := List.all_eq_true.mp h.2 c hmem
  rw [hc] at hdigit
  cases hdigit

theorem strip_digits {text : Text} (h : isDigits text = true) : strip text = text := by
  simp only [isDigits,Bool.and_eq_true] at h
  exact strip_of_all fun c hc => isSpace_of_digit (List.all_eq_true.mp h.2 c hc)

theorem readInt_digits {text : Text} (h : isDigits text = true) :
    readInt text = (readDigits text).map fun n : ℕ => (n:ℤ) := by
  have hgroups : readDigitGroups text = readDigits text := by
    have hsplit : split '_' text = [text] :=
      List.splitOn_eq_singleton (not_mem_digits h isDigit_hyphen.2.2)
    simp only [isDigits,Bool.and_eq_true,decide_eq_true_eq] at h
    simp [readDigitGroups,hsplit,h]
  have hclean : intStrip text = text := by
    have hstrip := clean_strip text
    rw [strip_digits h] at hstrip
    rw [hstrip,strip_digits h]
  rw [readInt,hclean]
  unfold readSigned
  split
  · exact absurd List.mem_cons_self (not_mem_digits h isDigit_hyphen.1)
  · exact absurd List.mem_cons_self (not_mem_digits h isDigit_hyphen.2.1)
  · rw [hgroups]

theorem readDigits_some {text : Text} {n : ℕ} (h : readDigits text = some n) : n = numeral text := by
  unfold readDigits at h
  split at h
  · cases h
  · cases h
    rfl

theorem expandToken_digits {item : Text} (h : isDigits (strip item) = true) {ports : List ℤ}
    (hports : ConfigModel.expandToken item = some ports) :
    readDigits (strip item) = some (numeral (strip item)) ∧ ports = [(numeral (strip item):ℤ)] := by
  have hne : strip item ≠ [] := by
    simp only [isDigits,Bool.and_eq_true,decide_eq_true_eq] at h
    exact h.1
  unfold ConfigModel.expandToken at hports
  simp only [hne,if_false,not_mem_digits h isDigit_hyphen.1,readInt_digits h] at hports
  obtain ⟨port,hport,rfl⟩ := Option.map_eq_some_iff.mp hports
  obtain ⟨n,hn,rfl⟩ := Option.map_eq_some_iff.mp hport
  obtain rfl := readDigits_some hn
  exact ⟨hn,rfl⟩

theorem expandTokens_digits {parts : List Text} (h : ∀ part ∈ parts, isDigits (strip part) = true)
    {ports : List (List ℤ)} (hports : parts.mapM ConfigModel.expandToken = some ports) :
    (∀ part ∈ parts, readDigits (strip part) = some (numeral (strip part))) ∧
      ports.flatten = parts.map fun part => (numeral (strip part):ℤ) := by
  induction parts generalizing ports with
  | nil =>
    simp at hports
    subst hports
    simp
  | cons part parts ih =>
    simp only [List.mapM_cons,Option.bind_eq_bind,Option.bind_eq_some_iff,Option.pure_def,
      Option.some.injEq] at hports
    obtain ⟨first,hfirst,rest,hrest,rfl⟩ := hports
    obtain ⟨hread,rfl⟩ := expandToken_digits (h part (by simp)) hfirst
    obtain ⟨hreads,hflatten⟩ := ih (fun p hp => h p (by simp [hp])) hrest
    refine ⟨List.forall_mem_cons.mpr ⟨hread,hreads⟩,?_⟩
    simp [hflatten]

theorem parseProbePorts_ok {parts : List Text} {ports result : List ℕ} (hports : ports.Nodup)
    (h : parseProbePorts parts ports = .ok result) :
    (∀ part ∈ parts, isDigits (strip part)) ∧
      result = ports++parts.map (fun part => numeral (strip part)) ∧ result.Nodup := by
  induction parts generalizing ports with
  | nil =>
    cases h
    simpa using hports
  | cons part parts ih =>
    unfold parseProbePorts at h
    split at h
    · cases h
    · next hdigits =>
      split at h
      · cases h
      · next port hport =>
        split at h
        · cases h
        · split at h
          · cases h
          · next hnew =>
            have hnodup : (ports++[port]).Nodup := by
              rw [List.nodup_append]
              refine ⟨hports,by simp,fun p hp q hq heq => hnew ?_⟩
              rw [← List.mem_singleton.mp hq,← heq]
              exact hp
            obtain ⟨hrest,hresult,hresultNodup⟩ := ih hnodup h
            obtain rfl := readDigits_some hport
            refine ⟨List.forall_mem_cons.mpr ⟨by simpa using hdigits,hrest⟩,?_,hresultNodup⟩
            simpa using hresult

theorem parseProbePorts_of {parts : List Text} (ports : List ℕ)
    (hdigits : ∀ part ∈ parts, isDigits (strip part) = true)
    (hread : ∀ part ∈ parts, readDigits (strip part) = some (numeral (strip part)))
    (hvalid : ∀ part ∈ parts, 1 ≤ numeral (strip part) ∧ numeral (strip part) ≤ 65535)
    (hnodup : (ports++parts.map fun part => numeral (strip part)).Nodup) :
    parseProbePorts parts ports = .ok (ports++parts.map fun part => numeral (strip part)) := by
  induction parts generalizing ports with
  | nil => simp [parseProbePorts]
  | cons part parts ih =>
    have hnew : numeral (strip part) ∉ ports := by
      intro hmem
      rw [List.nodup_append] at hnodup
      exact hnodup.2.2 _ hmem _ (by simp) rfl
    have hrest := ih (ports++[numeral (strip part)]) (fun p hp => hdigits p (by simp [hp]))
      (fun p hp => hread p (by simp [hp])) (fun p hp => hvalid p (by simp [hp])) (by simpa using hnodup)
    unfold parseProbePorts
    simp only [hdigits part (by simp),hread part (by simp),hvalid part (by simp),hnew,not_true_eq_false,
      and_self,if_false,hrest]
    simp

section Takeover

variable {py : CaseMap} {diverter : Section}

theorem checkProbePorts_nil (h : Validator.checkProbePorts py diverter = [])
    (hne : diverter.stripped py "ExternalTakeoverProbeTCPPorts" ≠ []) :
    ∃ expanded, ConfigModel.expandPorts (diverter.stripped py "ExternalTakeoverProbeTCPPorts") =
      some expanded ∧ expanded.length ≤ 64 ∧ ∀ port ∈ expanded, Validator.validPort port := by
  have hports := errorIf_eq_nil.mp h
  by_contra hnone
  exact hports ⟨hne,fun ⟨expanded,hexpanded,hfacts⟩ => hnone ⟨expanded,hexpanded,hfacts⟩⟩

theorem probePorts_key : get (optionsOf py diverter) "externaltakeoverprobetcpports" =
    diverter.get py "ExternalTakeoverProbeTCPPorts" :=
  get_optionsOf (lower_key py (by decide) (by decide))

theorem probeTimeout_key : get (optionsOf py diverter) "externaltakeoverprobetimeoutms" =
    diverter.get py "ExternalTakeoverProbeTimeoutMs" :=
  get_optionsOf (lower_key py (by decide) (by decide))

/-- The engine takes the ports of the probe that are plain. -/
theorem checkProbePorts_iff (h : Validator.checkProbePorts py diverter = []) :
    (EgressConfig.checkProbePorts (optionsOf py diverter)).isOk ↔
      (diverter.stripped py "ExternalTakeoverProbeTCPPorts" ≠ [] →
        PlainProbe (diverter.stripped py "ExternalTakeoverProbeTCPPorts")) := by
  have hraw : strip ((get (optionsOf py diverter) "externaltakeoverprobetcpports").getD []) =
      diverter.stripped py "ExternalTakeoverProbeTCPPorts" := by
    rw [probePorts_key,Section.stripped,getOr_empty]
  unfold EgressConfig.checkProbePorts
  simp only [hraw]
  by_cases hne : diverter.stripped py "ExternalTakeoverProbeTCPPorts" = []
  · simp [hne,Except.isOk,Except.toBool]
  obtain ⟨expanded,hexpanded,hlength,hvalid⟩ := checkProbePorts_nil h hne
  generalize diverter.stripped py "ExternalTakeoverProbeTCPPorts" = raw at *
  obtain ⟨tokens,htokens,rfl⟩ := Option.map_eq_some_iff.mp hexpanded
  simp only [hne,if_false,ne_eq,not_false_eq_true,forall_const]
  constructor
  · intro hok
    split at hok
    · cases hok
    · cases hparse : parseProbePorts (split ',' raw) [] with
      | error e =>
        rw [hparse] at hok
        cases hok
      | ok ports =>
        obtain ⟨hdigits,hports,hnodup⟩ := parseProbePorts_ok List.nodup_nil hparse
        rw [hports] at hnodup
        exact ⟨hdigits,by simpa using hnodup⟩
  · rintro ⟨hdigits,hnodup⟩
    obtain ⟨hread,hflatten⟩ := expandTokens_digits hdigits htokens
    have hrange : ∀ part ∈ split ',' raw, 1 ≤ numeral (strip part) ∧ numeral (strip part) ≤ 65535 := by
      intro part hpart
      have hport := hvalid (numeral (strip part)) (by rw [hflatten]; exact List.mem_map_of_mem hpart)
      simp only [Validator.validPort,decide_eq_true_eq] at hport
      omega
    have hparse := parseProbePorts_of [] hdigits hread hrange (by simpa using hnodup)
    have hblank : ¬(split ',' raw).any (strip · = []) := by
      simp only [List.any_eq_true,decide_eq_true_eq,not_exists,not_and]
      intro part hpart hnil
      have hdigit := hdigits part hpart
      rw [hnil] at hdigit
      cases hdigit
    have hcount : ¬64 < (split ',' raw).length := by
      rw [hflatten] at hlength
      simpa using hlength
    simp only [List.nil_append] at hparse
    simp [hblank,hparse,hcount,Except.isOk,Except.toBool]

theorem readBetween_some {low high n : ℤ} {text : Text} (h : Validator.readBetween low high text = some n) :
    readInt text = some n ∧ low ≤ n ∧ n ≤ high := by
  obtain ⟨hread,hbounds⟩ := Option.filter_eq_some_iff.mp h
  exact ⟨hread,by simpa using hbounds⟩

/-- The engine takes a timeout that is given in digits, or is not given. -/
theorem checkProbeTimeout_iff (h : Validator.checkProbeTimeout py diverter = []) :
    (EgressConfig.checkProbeTimeout (optionsOf py diverter)).isOk ↔
      ∀ value, diverter.get py "ExternalTakeoverProbeTimeoutMs" = some value → isDigits (strip value) := by
  have hread := errorIf_eq_nil.mp h
  unfold EgressConfig.checkProbeTimeout
  rw [probeTimeout_key]
  cases hvalue : diverter.get py "ExternalTakeoverProbeTimeoutMs" with
  | none =>
    refine ⟨fun _ value hsome => absurd hsome (by simp),fun _ => ?_⟩
    decide
  | some value =>
    simp only [Option.getD_some,Option.some.injEq,forall_eq']
    by_cases hdigits : isDigits (strip value) = true
    · have hvalueNe : value ≠ [] := by
        rintro rfl
        cases hdigits
      have hgetOr : diverter.getOr py "ExternalTakeoverProbeTimeoutMs" "500" = value := by
        unfold Section.getOr
        rw [hvalue]
        cases value with
        | nil => exact absurd rfl hvalueNe
        | cons c value => rfl
      rw [hgetOr] at hread
      obtain ⟨n,hn⟩ := Option.ne_none_iff_exists'.mp hread
      obtain ⟨hint,hlow,hhigh⟩ := readBetween_some hn
      rw [readInt_digits hdigits] at hint
      obtain ⟨k,hk,rfl⟩ := Option.map_eq_some_iff.mp hint
      have hbounds : 100 ≤ k ∧ k ≤ 5000 := by omega
      simp [hdigits,hk,hbounds,Except.isOk,Except.toBool]
    · simp [hdigits,Except.isOk,Except.toBool]

end Takeover

theorem inNetwork_iff {bits : BitVec 32} {network : BitVec 32 × ℕ} :
    Addr.inNetwork bits network = true ↔
      bits.toNat/2^(32-network.2) = network.1.toNat/2^(32-network.2) := by
  simp [Addr.inNetwork]

/-- An address of the private networks is of no other kind. -/
theorem usable_of_inRfc1918 {bits : BitVec 32} (h : inRfc1918 bits = true) :
    (Addr.isLoopbackBits bits || Addr.isLinkLocal bits || Addr.isMulticast bits ||
      Addr.isUnspecified bits || Addr.isReserved bits) = false := by
  simp only [inRfc1918,rfc1918Networks,List.any_cons,List.any_nil,Bool.or_false,Bool.or_eq_true,
    inNetwork_iff,Addr.network,BitVec.toNat_ofNat] at h
  rw [Bool.eq_false_iff]
  intro hother
  simp only [Addr.isLoopbackBits,Addr.isLinkLocal,Addr.isMulticast,Addr.isUnspecified,Addr.isReserved,
    Bool.or_eq_true,inNetwork_iff,Addr.network,BitVec.toNat_ofNat] at hother
  obtain (((hother | hother) | hother) | hother) | hother := hother
  · omega
  · omega
  · omega
  · rw [beq_iff_eq.mp hother] at h
    simp at h
  · omega

theorem dotted_of_inRfc1918 {bits : BitVec 32} (h : inRfc1918 bits = true) :
    IpAddress.dotted bits ≠ "255.255.255.255".toList := by
  intro heq
  have hread := IpAddress.readV4_dotted bits
  rw [heq] at hread
  obtain rfl : bits = BitVec.ofNat 32 0xffffffff := by
    have hbroadcast : IpAddress.readV4 "255.255.255.255".toList = some (BitVec.ofNat 32 0xffffffff) := by
      decide
    exact Option.some.inj (hread.symm.trans hbroadcast)
  exact absurd h (by decide)

theorem readV4_of_read {text : Text} {bits : BitVec 32} (h : IpAddress.read text = some (.v4 bits)) :
    IpAddress.readV4 text = some bits := by
  unfold IpAddress.read at h
  split at h
  · next hread =>
    cases h
    exact hread
  · cases hread : IpAddress.readV6 text <;> simp [hread] at h

/-- The engine takes an address that the editor read, if it is in the private networks. -/
theorem parseTakeoverIpv4_iff {value : Text} {bits : BitVec 32}
    (h : IpAddress.read (strip value) = some (.v4 bits)) :
    (parseTakeoverIpv4 value).isOk ↔ inRfc1918 bits := by
  have hread := readV4_of_read h
  have hne : strip value ≠ [] := by
    intro hnil
    have hempty : IpAddress.readV4 [] = none := by decide
    rw [hnil,hempty] at hread
    cases hread
  have hpunctuation : ¬['/',':',',','-'].any (strip value).contains := by
    simp only [List.any_eq_true,List.contains_iff_mem,not_exists,not_and]
    intro c hc hmem
    rcases IpAddress.mem_of_readV4 hread hmem with hdigit | rfl
    · simp only [List.mem_cons,List.not_mem_nil,or_false] at hc
      rcases hc with rfl | rfl | rfl | rfl <;> exact absurd hdigit (by decide)
    · exact absurd hc (by decide)
  unfold parseTakeoverIpv4
  dsimp only
  rw [if_neg (not_or.mpr ⟨hne,hpunctuation⟩),h]
  dsimp only
  by_cases hnetwork : inRfc1918 bits = true
  · have hkind := usable_of_inRfc1918 hnetwork
    rw [if_neg (not_not.mpr hnetwork),if_neg]
    · exact ⟨fun _ => hnetwork,fun _ => rfl⟩
    · rw [hkind,Bool.false_or,decide_eq_true_eq]
      exact dotted_of_inRfc1918 hnetwork
  · rw [if_pos hnetwork]
    exact ⟨fun hok => absurd hok (by simp [Except.isOk,Except.toBool]),fun hin => absurd hin hnetwork⟩

theorem hostname_isSpace : Hostname.isSpace = isSpace := by
  funext c
  have hblank : c = ' ' ↔ c.toNat = 32 :=
    ⟨fun h => by rw [h]; rfl,fun h => by rw [← Char.ofNat_toNat c,h]⟩
  rw [Bool.eq_iff_iff]
  simp only [Hostname.isSpace,isSpace,hblank,Bool.or_eq_true,Bool.and_eq_true,decide_eq_true_eq,
    List.contains_iff_mem]
  constructor
  · rintro (((h | h) | h) | h)
    · exact .inr (.inl h)
    · by_cases hspace : c.toNat = 32
      · exact .inl hspace
      · exact .inr (.inr (.inl (by omega)))
    · exact .inr (.inr (.inr (.inl h)))
    · exact .inr (.inr (.inr (.inr h)))
  · rintro (h | h | h | h | h)
    · exact .inl (.inl (.inr (by omega)))
    · exact .inl (.inl (.inl h))
    · exact .inl (.inl (.inr (by omega)))
    · exact .inl (.inr h)
    · exact .inr h

theorem hostname_strip (text : Text) : Hostname.strip text = strip text := by
  rw [Hostname.strip,hostname_isSpace]
  rfl

section Domains

variable {idna : String → Option String}

/-- What the validator forbids in a host name covers what the engine does, apart from the blanks. -/
theorem not_forbidden_of_valid {name : Text} (hvalid : Validator.validHostname idna name = true) {c : Char}
    (hc : c ∈ strip name) : c ≠ '/' ∧ c ≠ '*' ∧ c ≠ ':' := by
  simp only [Validator.validHostname,Bool.and_eq_true] at hvalid
  have hmem : c ∈ name := by
    by_contra hnot
    exact not_mem_strip hnot hc
  have hchar : ¬Validator.hostnameForbidden.contains c := by
    intro hcontains
    have hany : name.any (Validator.hostnameForbidden.contains ·) = true :=
      List.any_eq_true.mpr ⟨c,hmem,hcontains⟩
    rw [hany] at hvalid
    exact absurd hvalid.1.2 (by decide)
  refine ⟨?_,?_,?_⟩ <;>
    · rintro rfl
      exact hchar (by decide)

theorem malformed_of_valid {name : Text} (hvalid : Validator.validHostname idna name = true) (hne : strip name ≠ []) :
    Hostname.malformed (strip name) = (strip name).any Hostname.isSpace := by
  have hchars : ['/','*',':'].any ((strip name).contains ·) = false := by
    rw [List.any_eq_false]
    intro c hc hcontains
    have hfacts := not_forbidden_of_valid hvalid (List.contains_iff_mem.mp hcontains)
    simp only [List.mem_cons,List.not_mem_nil,or_false] at hc
    rcases hc with rfl | rfl | rfl <;> simp at hfacts
  have hempty : (strip name).isEmpty = false := by simpa using hne
  unfold Hostname.malformed
  rw [hchars,hempty]
  simp

theorem normalizeHostname_iff {name : Text} (hvalid : Validator.validHostname idna name = true)
    (hne : strip name ≠ []) :
    (Hostname.normalizeHostname idna (String.ofList name)).isOk ↔ PlainName idna name := by
  unfold Hostname.normalizeHostname
  simp only [String.toList_ofList,hostname_strip,malformed_of_valid hvalid hne]
  by_cases hspace : (strip name).any Hostname.isSpace = true
  · rw [if_pos hspace]
    constructor
    · intro h
      cases h
    · intro hplain
      have hno := hplain.noSpace
      rw [hostname_strip] at hno
      exact absurd hspace hno
  rw [if_neg hspace]
  have hdrop : (if (strip name).getLast? = some '.' then (strip name).dropLast else strip name) =
      dropDot (strip name) := rfl
  rw [hdrop]
  cases hencoded : idna (String.ofList (dropDot (strip name))) with
  | none =>
    constructor
    · intro h
      cases h
    · intro hplain
      obtain ⟨encoded,hsome,-⟩ := hplain.labels
      rw [hostname_strip,hencoded] at hsome
      cases hsome
  | some encoded =>
    dsimp only
    rw [List.length_map]
    split
    · next hbad =>
      constructor
      · intro h
        cases h
      · intro hplain
        obtain ⟨encoded',hsome,hlength,hlabels⟩ := hplain.labels
        rw [hostname_strip,hencoded] at hsome
        cases hsome
        simp only [Bool.or_eq_true,decide_eq_true_eq,List.any_eq_true] at hbad
        obtain hlong | ⟨label,hlabel,hbad⟩ := hbad
        · omega
        · simp [hlabels label hlabel] at hbad
    · next hgood =>
      simp only [Bool.or_eq_true,decide_eq_true_eq,List.any_eq_true,not_or,not_exists,not_and] at hgood
      refine ⟨fun _ => ⟨?_,encoded,?_,by omega,fun label hlabel => ?_⟩,fun _ => rfl⟩
      · rw [hostname_strip]
        exact hspace
      · rw [hostname_strip,hencoded]
      · simpa using hgood.2 label hlabel

theorem strip_candidate_ne_nil {domain : Text} (hdomain : strip domain = domain) (hne : domain ≠ [])
    (hcandidate : Validator.candidateOf domain ≠ []) : strip (Validator.candidateOf domain) ≠ [] := by
  unfold Validator.candidateOf at hcandidate ⊢
  split
  · next hprefix =>
    rw [if_pos hprefix] at hcandidate
    obtain ⟨rest,rfl⟩ := hprefix
    have hdrop : (Validator.wildcardPrefix++rest).drop 2 = rest := rfl
    rw [hdrop] at hcandidate ⊢
    intro hblank
    obtain ⟨front,back,hfront,hback,hrest⟩ := strip_parts rest
    have hspaces : ∀ c ∈ rest, isSpace c = true := by
      intro c hc
      rw [hrest,hblank] at hc
      simp only [List.append_nil,List.mem_append] at hc
      exact hc.elim (hfront c) (hback c)
    have hpad : strip ([]++Validator.wildcardPrefix++rest) = strip Validator.wildcardPrefix :=
      strip_pad (by simp) hspaces
    have hwildcard : strip Validator.wildcardPrefix = Validator.wildcardPrefix := by decide
    rw [List.nil_append,hdomain,hwildcard] at hpad
    exact hcandidate (List.append_right_eq_self.mp hpad)
  · rw [hdomain]
    exact hne

end Domains

section Valid

variable {py : CaseMap} {idna : String → Option String} {isFile : Text → Bool} {m : ConfigModel}

theorem checkListeners_nil {sections : List Section} {names : Dict Text Text}
    {bindings : Dict (Text × ℤ) Text} (h : Validator.checkListeners py sections names bindings = some []) :
    ∀ sec ∈ sections, Validator.checkListenerSection py sec = [] := by
  induction sections generalizing names bindings with
  | nil => simp
  | cons sec sections ih =>
    unfold Validator.checkListeners at h
    obtain ⟨expanded,-,h⟩ := Option.bind_eq_some_iff.mp h
    obtain ⟨bound,-,h⟩ := Option.bind_eq_some_iff.mp h
    obtain ⟨rest,hrest,h⟩ := Option.map_eq_some_iff.mp h
    simp only [List.append_eq_nil_iff] at h
    obtain ⟨⟨⟨hsec,-⟩,-⟩,rfl⟩ := h
    exact List.forall_mem_cons.mpr ⟨hsec,ih hrest⟩

theorem expandPorts_of_valid {sec : Section} (h : Validator.checkListenerSection py sec = []) :
    ∃ spec ports, sec.get py "Port" = some spec ∧ ConfigModel.expandPorts spec = some ports := by
  simp only [Validator.checkListenerSection,List.append_eq_nil_iff] at h
  have hport := h.1.1.2
  unfold Validator.checkPort at hport
  cases hspec : sec.get py "Port" with
  | none =>
    rw [hspec] at hport
    cases hport
  | some spec =>
    simp only [hspec] at hport
    split at hport
    · cases hport
    · cases hexpand : ConfigModel.expandPorts spec with
      | none =>
        rw [hexpand] at hport
        cases hport
      | some ports => exact ⟨spec,ports,rfl,hexpand⟩

/-- What a configuration without an error gives, where the policy is on. -/
structure Checked (py : CaseMap) (idna : String → Option String) (m : ConfigModel) : Prop where
  listeners : ∀ sec ∈ m.listenerSections, Validator.checkListenerSection py sec = []
  domains : Validator.checkDomains py idna m.diverter = []
  takeover : (Validator.checkTakeover py m).1 = []

theorem validate_nil (hvalid : Validator.validate py idna isFile m = some [])
    (hpolicy : Validator.policyActive py m = true) : Checked py idna m := by
  unfold Validator.validate at hvalid
  obtain ⟨listeners,hlisteners,h⟩ := Option.bind_eq_some_iff.mp hvalid
  obtain ⟨defaults,-,h⟩ := Option.bind_eq_some_iff.mp h
  obtain ⟨policy,hchecked,h⟩ := Option.map_eq_some_iff.mp h
  simp only [List.append_eq_nil_iff] at h
  obtain ⟨⟨⟨⟨⟨⟨⟨-,rfl⟩,-⟩,-⟩,-⟩,hpolicyNil⟩,-⟩,-⟩ := h
  unfold Validator.checkPolicy at hchecked
  rw [if_pos hpolicy] at hchecked
  obtain ⟨reviewed,-,rfl⟩ := Option.map_eq_some_iff.mp hchecked
  simp only [List.append_eq_nil_iff] at hpolicyNil
  obtain ⟨⟨hcore,htakeover⟩,-⟩ := hpolicyNil
  simp only [Validator.checkPolicyCore,List.append_eq_nil_iff] at hcore
  exact ⟨checkListeners_nil hlisteners,hcore.1.1.1.1.2,htakeover⟩

/-- What the takeover checks give, where the takeover is requested. -/
theorem checkTakeover_nil (h : (Validator.checkTakeover py m).1 = []) {value : Text}
    (hvalue : m.diverter.get py "ExternalTakeoverIPv4" = some value) :
    (∃ bits, IpAddress.read (strip value) = some (.v4 bits)) ∧
      Validator.checkProbePorts py m.diverter = [] ∧ Validator.checkProbeTimeout py m.diverter = [] := by
  have hrequested : Validator.requested py m.diverter = true := by simp [Validator.requested,hvalue]
  have hstripped : m.diverter.stripped py "ExternalTakeoverIPv4" = strip value := by
    rw [Section.stripped,getOr_empty,hvalue]
    rfl
  unfold Validator.checkTakeover at h
  simp only [hrequested,if_true] at h
  cases hsink : Validator.takeoverSink py m.diverter with
  | none =>
    rw [hsink] at h
    cases h
  | some sink =>
    rw [hsink] at h
    simp only [List.append_eq_nil_iff] at h
    refine ⟨?_,h.1.1.1.2,h.1.1.2⟩
    unfold Validator.takeoverSink at hsink
    rw [hstripped] at hsink
    cases hread : IpAddress.read (strip value) with
    | none =>
      rw [hread] at hsink
      cases hsink
    | some address =>
      cases address with
      | v4 bits => exact ⟨bits,rfl⟩
      | v6 bits =>
        rw [hread] at hsink
        cases hsink

theorem allowedDomains_eq : splitCsv ((get (optionsOf py m.diverter) "externalalloweddomains").getD []) =
    Validator.allowedDomains py m.diverter := by
  have hkey : py.lower "ExternalAllowedDomains".toList = "externalalloweddomains".toList :=
    lower_key py (by decide) (by decide)
  rw [get_optionsOf hkey,Validator.allowedDomains,getOr_empty]
  rfl

theorem normalizeAllowedDomain_iff {domain : Text}
    (hmem : domain ∈ Validator.allowedDomains py m.diverter)
    (hvalid : Validator.validHostname idna (Validator.candidateOf domain) = true) :
    (normalizeAllowedDomain idna domain).isOk ↔ PlainName idna (Validator.candidateOf domain) := by
  obtain ⟨hitem,hne⟩ := List.mem_filter.mp hmem
  obtain ⟨item,-,rfl⟩ := List.mem_map.mp hitem
  have hcandidate : Validator.candidateOf (strip item) ≠ [] := by
    intro hnil
    rw [hnil] at hvalid
    simp [Validator.validHostname] at hvalid
  have hnormal := normalizeHostname_iff hvalid
    (strip_candidate_ne_nil (strip_strip item) (by simpa using hne) hcandidate)
  have hmap : ∀ (name : String) (k : String → Text),
      ((Hostname.normalizeHostname idna name).map k).isOk = (Hostname.normalizeHostname idna name).isOk := by
    intro name k
    cases Hostname.normalizeHostname idna name <;> rfl
  rw [← hnormal]
  unfold normalizeAllowedDomain Validator.candidateOf
  simp only [strip_strip]
  split
  · rw [hmap]
  · rw [hmap]

theorem parseAllowedDomains_iff (hdomains : Validator.checkDomains py idna m.diverter = []) :
    (parseAllowedDomains idna ((get (optionsOf py m.diverter) "externalalloweddomains").getD [])).isOk ↔
      ∀ domain ∈ Validator.allowedDomains py m.diverter, PlainName idna (Validator.candidateOf domain) := by
  have hmap : (parseAllowedDomains idna
      ((get (optionsOf py m.diverter) "externalalloweddomains").getD [])).isOk =
      ((Validator.allowedDomains py m.diverter).mapM (normalizeAllowedDomain idna)).isOk := by
    rw [parseAllowedDomains,allowedDomains_eq]
    cases (Validator.allowedDomains py m.diverter).mapM (normalizeAllowedDomain idna) <;> rfl
  rw [hmap,isOk_mapM]
  refine forall₂_congr fun domain hdomain => normalizeAllowedDomain_iff hdomain ?_
  have hchecked := List.flatMap_eq_nil_iff.mp hdomains domain hdomain
  exact not_not.mp (errorIf_eq_nil.mp hchecked)

theorem validateTakeoverProbeConfig_iff (config : Options) : (validateTakeoverProbeConfig config).isOk ↔
    (EgressConfig.checkProbePorts config).isOk ∧ (EgressConfig.checkProbeTimeout config).isOk := by
  unfold validateTakeoverProbeConfig
  cases EgressConfig.checkProbePorts config <;> simp [Except.isOk,Except.toBool]

/-- Of the configurations without an error, the engine accepts exactly the plain ones. -/
theorem engineAccepts_iff (hvalid : Validator.validate py idna isFile m = some [])
    (hpolicy : Validator.policyActive py m = true) :
    EngineAccepts py idna m ↔ PlainConfig py idna m := by
  obtain ⟨hlisteners,hdomains,htakeover⟩ := validate_nil hvalid hpolicy
  have hport : ∀ sec : Section, get (optionsOf py sec) "port" = sec.get py "Port" := fun sec =>
    get_optionsOf (lower_key py (by decide) (by decide))
  have haddress : get (optionsOf py m.diverter) "externaltakeoveripv4" =
      m.diverter.get py "ExternalTakeoverIPv4" := get_optionsOf (lower_key py (by decide) (by decide))
  have hsections : ∀ sec ∈ Validator.enabledListeners py m, ∃ spec ports,
      sec.get py "Port" = some spec ∧ ConfigModel.expandPorts spec = some ports := fun sec hsec =>
    expandPorts_of_valid (hlisteners sec (List.mem_filter.mp hsec).1)
  have hnames := parseAllowedDomains_iff hdomains
  constructor
  · intro haccepts
    have hrequest : Validator.requested py m.diverter = true →
        (EgressConfig.checkProbePorts (optionsOf py m.diverter)).isOk ∧
          (EgressConfig.checkProbeTimeout (optionsOf py m.diverter)).isOk ∧
          Validator.checkProbePorts py m.diverter = [] ∧ Validator.checkProbeTimeout py m.diverter = [] := by
      intro hrequested
      obtain ⟨value,hvalue⟩ := Option.isSome_iff_exists.mp hrequested
      obtain ⟨-,hports,htimeout⟩ := checkTakeover_nil htakeover hvalue
      have hok := (validateTakeoverProbeConfig_iff _).mp (haccepts.takeover value (haddress.trans hvalue)).2
      exact ⟨hok.1,hok.2,hports,htimeout⟩
    refine ⟨haccepts.options,fun sec hsec spec hspec => ?_,hnames.mp haccepts.domains,
      fun value bits hvalue hread => ?_,fun hrequested => ?_,fun hrequested => ?_⟩
    · obtain ⟨spec',ports,hspec',hports⟩ := hsections sec hsec
      obtain rfl : spec = spec' := Option.some.inj (hspec.symm.trans hspec')
      obtain ⟨spec',hspec',hok⟩ := haccepts.ports sec hsec
      obtain rfl : spec = spec' := Option.some.inj (hspec.symm.trans ((hport sec).symm.trans hspec'))
      exact (expandPorts_iff hports).mp hok
    · exact (parseTakeoverIpv4_iff hread).mp (haccepts.takeover value (haddress.trans hvalue)).1
    · obtain ⟨hok,-,hports,-⟩ := hrequest hrequested
      exact (checkProbePorts_iff hports).mp hok
    · obtain ⟨-,hok,-,htimeout⟩ := hrequest hrequested
      exact (checkProbeTimeout_iff htimeout).mp hok
  · intro hplain
    refine ⟨hplain.options,fun sec hsec => ?_,hnames.mpr hplain.domains,fun value hvalue => ?_⟩
    · obtain ⟨spec,ports,hspec,hports⟩ := hsections sec hsec
      exact ⟨spec,(hport sec).trans hspec,(expandPorts_iff hports).mpr (hplain.ports sec hsec spec hspec)⟩
    · rw [haddress] at hvalue
      have hrequested : Validator.requested py m.diverter = true := by simp [Validator.requested,hvalue]
      obtain ⟨⟨bits,hread⟩,hports,htimeout⟩ := checkTakeover_nil htakeover hvalue
      refine ⟨(parseTakeoverIpv4_iff hread).mpr (hplain.sink value bits hvalue hread),
        (validateTakeoverProbeConfig_iff _).mpr ⟨?_,?_⟩⟩
      · exact (checkProbePorts_iff hports).mpr (hplain.probePorts hrequested)
      · exact (checkProbeTimeout_iff htimeout).mpr (hplain.probeTimeout hrequested)

end Valid

def sectionOf (name : String) (items : List (String × String)) : Section :=
  ⟨name.toList,items.map fun item => (item.1.toList,item.2.toList)⟩

/-- The smallest topology of the policy, and a listener whose ports end in a comma. -/
def trailingComma : ConfigModel where
  sections :=
    [sectionOf "FakeNet" [("DivertTraffic","Yes")],
      sectionOf "Diverter" [("NetworkMode","SingleHost"),("ExternalAccessPolicy","EgressControl"),
        ("ExternalAllowedTCPPorts","443"),("ExternalDnsServer","192.168.204.2")],
      sectionOf "Relay" [("Enabled","True"),("Port","38927"),("Protocol","TCP"),
        ("Listener","DomainEgressRelay")],
      sectionOf "DNSUDP" [("Enabled","True"),("Port","53"),("Protocol","UDP"),
        ("Listener","DNSListener")],
      sectionOf "DNSTCP" [("Enabled","True"),("Port","53"),("Protocol","TCP"),
        ("Listener","DNSListener")],
      sectionOf "HTTP" [("Enabled","True"),("Port","80,"),("Protocol","TCP"),
        ("Listener","HTTPListener")]]

theorem trailingComma_valid :
    Validator.validate CaseMap.ascii some (fun _ => false) trailingComma = some [] := by decide +kernel

theorem trailingComma_policy : Validator.policyActive CaseMap.ascii trailingComma = true := by
  decide

theorem engineAccepts_iff_trailingComma :
    EngineAccepts CaseMap.ascii some trailingComma ↔ PlainConfig CaseMap.ascii some trailingComma :=
  engineAccepts_iff trailingComma_valid trailingComma_policy

/-- The editor skips the blank item, on which the engine fails. -/
theorem trailingComma_refused :
    Validator.validate CaseMap.ascii some (fun _ => false) trailingComma = some [] ∧
    Validator.policyActive CaseMap.ascii trailingComma = true ∧
    trailingComma.diverter.get CaseMap.ascii "ExternalDnsServer" = some "192.168.204.2".toList ∧
    ¬EngineAccepts CaseMap.ascii some trailingComma := by
  refine ⟨trailingComma_valid,trailingComma_policy,by decide +kernel,fun haccepts => ?_⟩
  have hsec : ∃ sec ∈ Validator.enabledListeners CaseMap.ascii trailingComma,
      get (optionsOf CaseMap.ascii sec) "port" = some "80,".toList := by
    refine ⟨sectionOf "HTTP" [("Enabled","True"),("Port","80,"),("Protocol","TCP"),
      ("Listener","HTTPListener")],?_,by decide +kernel⟩
    refine List.mem_filter.mpr ⟨List.mem_filter.mpr ⟨?_,by decide +kernel⟩,by decide +kernel⟩
    simp [trailingComma]
  obtain ⟨sec,hsec,hget⟩ := hsec
  obtain ⟨spec,hspec,hok⟩ := haccepts.ports sec hsec
  rw [hget] at hspec
  cases hspec
  exact absurd hok (by decide +kernel)

end FakeNetNG
