import FakeNetNG.EgressPolicy
import FakeNetNG.GuiSoundness
import FakeNetNG.DnsAnswer

/-!
# Reviewed IPv4 rules

The rules are parsed one token after the other, and no two of them may cover the same packet. What
is made of them afterwards goes through the sorted list, so that the order of the tokens is lost.
-/

namespace FakeNetNG
namespace Reviewed

open Text

def protocolText : Proto → Text
  | .tcp => "TCP".toList
  | .udp => "UDP".toList
  | .other name => name.toList

def addressText : Addr → Text
  | .v4 bits => IpAddress.dotted bits
  | .text s => s.toList

def portText : Option ℕ → Text
  | none => ['*']
  | some n => decimal n

def normalizedText (protocol : Proto) (ipv4 : Addr) (port : Option ℕ) : Text :=
  join ['/'] [protocolText protocol,addressText ipv4,portText port]

/-- `rule.normalized`. -/
def normalized (rule : ReviewedIPv4Rule) : Text := normalizedText rule.protocol rule.ipv4 rule.port

def readProtocol (text : Text) : Option Proto :=
  if text = "TCP".toList then some .tcp else if text = "UDP".toList then some .udp else none

def readPort (raw : Text) : Except PolicyError (Option ℕ) :=
  if raw = ['*'] then .ok none
  else if ¬EgressConfig.isDigits raw then
    .error (.policyConfig "reviewed IPv4 rule port must be * or decimal")
  else
    match readDigits raw with
    | none => .error EgressConfig.tooLong
    | some port =>
      if 1 ≤ port ∧ port ≤ 65535 then .ok (some port)
      else .error (.policyConfig "reviewed IPv4 rule port must be between 1 and 65535")

/-- A global unicast address in its canonical form. -/
def readAddress (raw : Text) : Except PolicyError (BitVec 32) :=
  if raw ≠ strip raw ∨ raw = [] then .error (.policyConfig "reviewed IPv4 address is invalid")
  else
    match IpAddress.read raw with
    | none => .error (.policyConfig "reviewed IPv4 rule requires one canonical IPv4 address")
    | some (.v6 _) => .error (.policyConfig "reviewed IPv4 rule requires a global unicast IPv4 address")
    | some (.v4 bits) =>
      if IpAddress.dotted bits ≠ raw ∨ ¬(Addr.v4 bits).isGlobalIpv4 then
        .error (.policyConfig "reviewed IPv4 rule requires a global unicast IPv4 address")
      else .ok bits

variable (sha256 : Text → Text)

/-- The rule with the identifier that its text has. -/
def ruleOf (protocol : Proto) (ipv4 : Addr) (port : Option ℕ) : ReviewedIPv4Rule where
  ruleId := String.ofList ((sha256 (normalizedText protocol ipv4 port)).take 16)
  protocol := protocol
  ipv4 := ipv4
  port := port

/-- The checks of one token. -/
def parseToken (part : Text) : Except PolicyError ReviewedIPv4Rule :=
  match split '/' (strip part) with
  | [protocol,rawIpv4,rawPort] =>
    match readProtocol protocol with
    | none => .error (.policyConfig "reviewed IPv4 rule protocol must be TCP or UDP")
    | some protocol => do
      let bits ← readAddress rawIpv4
      let port ← readPort rawPort
      return ruleOf sha256 protocol (.v4 bits) port
  | _ => .error (.policyConfig "reviewed IPv4 rules must use PROTOCOL/IPv4/PORT")

/-- The ports of the rules so far for the protocol and the address. -/
def previousScopes (parsed : List ReviewedIPv4Rule) (rule : ReviewedIPv4Rule) : List (Option ℕ) :=
  (parsed.filter fun r => r.protocol = rule.protocol ∧ r.ipv4 = rule.ipv4).map ReviewedIPv4Rule.port

/-- One round of the loop, after the rules of the tokens before. -/
def parseStep (parsed : List ReviewedIPv4Rule) (part : Text) : Except PolicyError (List ReviewedIPv4Rule) := do
  let rule ← parseToken sha256 part
  let scopes := previousScopes parsed rule
  if normalized rule ∈ parsed.map normalized then
    .error (.policyConfig "ExternalAllowedIPv4Rules contains a duplicate rule")
  else if (rule.port = none ∧ scopes ≠ []) ∨ (rule.port ≠ none ∧ none ∈ scopes) then
    .error (.policyConfig "reviewed IPv4 wildcard and exact ports conflict")
  else return parsed++[rule]

def sortRules (parsed : List ReviewedIPv4Rule) : List ReviewedIPv4Rule :=
  parsed.mergeSort fun a b => decide (normalized a ≤ normalized b)

/-- A rule for all ports takes the place of the key, another one its own place in the table. The
parser lets no rule for all ports stand beside another rule of its key. -/
def indexStep (index : Dict (Proto × Addr) ReviewedTarget) (rule : ReviewedIPv4Rule) :
    Dict (Proto × Addr) ReviewedTarget :=
  let key := (rule.protocol,rule.ipv4)
  match rule.port with
  | none => index.set key (.all rule)
  | some port =>
    match index.get? key with
    | none => index.set key (.ports (Dict.empty.set port rule))
    | some (.ports table) => index.set key (.ports (table.set port rule))
    | some (.all _) => index

def matchIndex (rules : List ReviewedIPv4Rule) : Dict (Proto × Addr) ReviewedTarget :=
  rules.foldl indexStep Dict.empty

def ruleIdsByIp (rules : List ReviewedIPv4Rule) : Dns.RuleIds :=
  (rules.foldl (fun (ids : Dns.RuleIds) rule =>
    ids.set rule.ipv4 ((ids.get? rule.ipv4).getD []++[rule.ruleId])) Dict.empty).mapValues
      fun _ ruleIds => ruleIds.mergeSort fun a b => decide (a ≤ b)

def normalizedConfig (rules : List ReviewedIPv4Rule) : Text := join [','] (rules.map normalized)

/-- What the parser returns; the protected targets are the keys of the index. -/
structure Parsed where
  rules : List ReviewedIPv4Rule
  index : Dict (Proto × Addr) ReviewedTarget
  ruleIds : Dns.RuleIds
  targetProtocols : List (Proto × Addr)
  configSha256 : Text

def Parsed.empty : Parsed := ⟨[],Dict.empty,Dict.empty,[],[]⟩

def finish (parsed : List ReviewedIPv4Rule) : Parsed :=
  let rules := sortRules parsed
  ⟨rules,matchIndex rules,ruleIdsByIp rules,(matchIndex rules).keys,sha256 (normalizedConfig rules)⟩

/-- The text of the rules. -/
def parseText (raw : Text) : Except PolicyError Parsed :=
  let parts := split ',' raw
  if strip raw = [] ∨ ∃ part ∈ parts, strip part = [] then
    .error (.policyConfig "ExternalAllowedIPv4Rules contains an empty rule")
  else if 32 < parts.length then
    .error (.policyConfig "ExternalAllowedIPv4Rules permits at most 32 rules")
  else do
    let parsed ← parts.foldlM (parseStep sha256) []
    if 16 < (parsed.map ReviewedIPv4Rule.ipv4).dedup.length then
      .error (.policyConfig "ExternalAllowedIPv4Rules permits at most 16 IPv4 addresses")
    else return finish sha256 parsed

def field : Text := "externalallowedipv4rules".toList

def fragments : List Text := ["tcp/".toList,"udp/".toList]

def parseReviewedIpv4Rules (py : CaseMap) (configKeys : List Text) (raw : Text) :
    Except PolicyError Parsed :=
  if field ∉ configKeys then .ok .empty
  else if ∃ key ∈ configKeys, ∃ fragment ∈ fragments, fragment <+: py.lower (strip key) then
    .error (.policyConfig "reviewed IPv4 rule fragments cannot be separate options")
  else parseText sha256 raw

variable {sha256} {part : Text} {rule : ReviewedIPv4Rule}

/-- What a token can say: the protocol, a global address and a port. -/
structure Sayable (protocol : Proto) (bits : BitVec 32) (port : Option ℕ) : Prop where
  protocol : protocol = .tcp ∨ protocol = .udp
  isGlobal : (Addr.v4 bits).isGlobalIpv4 = true
  port : ∀ n ∈ port, 1 ≤ n ∧ n ≤ 65535

theorem readPort_ok {raw : Text} {port : Option ℕ} (h : readPort raw = .ok port) :
    ∀ n ∈ port, 1 ≤ n ∧ n ≤ 65535 := by
  unfold readPort at h
  split_ifs at h
  · cases h
    intro n hn
    cases hn
  · split at h
    · cases h
    · split_ifs at h with hvalid
      cases h
      intro n hn
      cases hn
      exact hvalid

theorem readAddress_ok {raw : Text} {bits : BitVec 32} (h : readAddress raw = .ok bits) :
    (Addr.v4 bits).isGlobalIpv4 = true := by
  unfold readAddress at h
  split_ifs at h
  split at h
  · cases h
  · cases h
  · split_ifs at h with hbad
    cases h
    exact not_not.mp (not_or.mp hbad).2

theorem readProtocol_some {text : Text} {protocol : Proto} (h : readProtocol text = some protocol) :
    protocol = .tcp ∨ protocol = .udp := by
  unfold readProtocol at h
  split_ifs at h
  · exact .inl (Option.some.inj h).symm
  · exact .inr (Option.some.inj h).symm

theorem exists_of_parseToken (h : parseToken sha256 part = .ok rule) :
    ∃ protocol bits port, Sayable protocol bits port ∧ rule = ruleOf sha256 protocol (.v4 bits) port := by
  unfold parseToken at h
  split at h
  · split at h
    · cases h
    · next hprotocol =>
      obtain ⟨bits,hbits,h⟩ := ok_of_bind h
      obtain ⟨port,hport,h⟩ := ok_of_bind h
      cases h
      exact ⟨_,bits,port,⟨readProtocol_some hprotocol,readAddress_ok hbits,readPort_ok hport⟩,rfl⟩
  · cases h

theorem readPort_portText {port : Option ℕ} (h : ∀ n ∈ port, 1 ≤ n ∧ n ≤ 65535) :
    readPort (portText port) = .ok port := by
  cases port with
  | none => rfl
  | some n =>
    obtain ⟨hlow,hhigh⟩ := h n rfl
    have hlength : (decimal n).length ≤ 5 := decimal_length_le (by omega) (by omega)
    have hstar : decimal n ≠ ['*'] := by
      intro heq
      have hdigit := isDigit_of_mem_decimal (n:=n) (c:= '*') (by simp [heq])
      exact absurd hdigit (by decide)
    have hdigits : EgressConfig.isDigits (decimal n) = true := by
      rw [EgressConfig.isDigits,Bool.and_eq_true,List.all_eq_true]
      exact ⟨by simpa using decimal_ne_nil n,fun c hc => isDigit_of_ascii (isDigit_of_mem_decimal hc)⟩
    simp [readPort,portText,hstar,hdigits,readDigits_decimal (n:=n) (by omega),hlow,hhigh]

theorem readAddress_dotted {bits : BitVec 32} (h : (Addr.v4 bits).isGlobalIpv4 = true) :
    readAddress (IpAddress.dotted bits) = .ok bits := by
  have hstrip : strip (IpAddress.dotted bits) = IpAddress.dotted bits :=
    strip_of_all fun c hc => IpAddress.isSpace_of_mem_dotted hc
  simp [readAddress,hstrip,IpAddress.dotted_ne_nil,IpAddress.read_dotted,h]

/-- A character that no part of a rule's text is cut or stripped at. -/
def Plain (c : Char) : Prop := isSpace c = false ∧ c ≠ ',' ∧ c ≠ '/'

theorem plain_of_isDigit {c : Char} (h : c.isDigit = true) : Plain c := by
  refine ⟨isSpace_of_isDigit h,?_,?_⟩ <;>
    · rintro rfl
      exact absurd h (by decide)

theorem plain_protocolText {protocol : Proto} (h : protocol = .tcp ∨ protocol = .udp) :
    ∀ c ∈ protocolText protocol, Plain c := by
  unfold Plain
  obtain rfl | rfl := h
  · decide
  · decide

theorem plain_dotted (bits : BitVec 32) : ∀ c ∈ IpAddress.dotted bits, Plain c := by
  intro c hc
  obtain h | rfl := IpAddress.mem_dotted hc
  · exact plain_of_isDigit h
  · exact ⟨by decide,by decide,by decide⟩

theorem plain_portText (port : Option ℕ) : ∀ c ∈ portText port, Plain c := by
  intro c hc
  cases port with
  | none =>
    obtain rfl := List.mem_singleton.mp hc
    exact ⟨by decide,by decide,by decide⟩
  | some n => exact plain_of_isDigit (isDigit_of_mem_decimal hc)

section Sayable

variable {protocol : Proto} {bits : BitVec 32} {port : Option ℕ} (h : Sayable protocol bits port)

include h

theorem plain_parts : ∀ text ∈ [protocolText protocol,IpAddress.dotted bits,portText port],
    ∀ c ∈ text, Plain c := by
  intro text htext
  simp only [List.mem_cons,List.not_mem_nil,or_false] at htext
  rcases htext with rfl | rfl | rfl
  · exact plain_protocolText h.protocol
  · exact plain_dotted bits
  · exact plain_portText port

theorem mem_normalizedText {c : Char} (hc : c ∈ normalizedText protocol (.v4 bits) port) :
    isSpace c = false ∧ c ≠ ',' := by
  obtain hslash | ⟨text,htext,hmem⟩ := mem_join hc
  · obtain rfl := List.mem_singleton.mp hslash
    exact ⟨by decide,by decide⟩
  · have hplain := plain_parts h text htext c hmem
    exact ⟨hplain.1,hplain.2.1⟩

theorem strip_normalizedText : strip (normalizedText protocol (.v4 bits) port) =
    normalizedText protocol (.v4 bits) port :=
  strip_of_all fun _ hc => (mem_normalizedText h hc).1

theorem split_normalizedText : split '/' (normalizedText protocol (.v4 bits) port) =
    [protocolText protocol,IpAddress.dotted bits,portText port] :=
  split_join (List.cons_ne_nil _ _) fun text htext hslash => (plain_parts h text htext _ hslash).2.2 rfl

theorem parseToken_normalizedText : parseToken sha256 (normalizedText protocol (.v4 bits) port) =
    .ok (ruleOf sha256 protocol (.v4 bits) port) := by
  have hprotocol : readProtocol (protocolText protocol) = some protocol := by
    obtain rfl | rfl := h.protocol <;> decide
  simp only [parseToken,strip_normalizedText h,split_normalizedText h,hprotocol,readAddress_dotted h.isGlobal,
    readPort_portText h.port]
  rfl

theorem normalizedText_ne_nil : normalizedText protocol (.v4 bits) port ≠ [] := by
  intro hnil
  have hparts := split_normalizedText h
  rw [hnil] at hparts
  simp [split] at hparts

end Sayable

/-- The rule of a token that is accepted. -/
def readRule (sha256 : Text → Text) (part : Text) : Option ReviewedIPv4Rule := (parseToken sha256 part).toOption

theorem readRule_eq_some : readRule sha256 part = some rule ↔ parseToken sha256 part = .ok rule := by
  unfold readRule
  cases parseToken sha256 part <;> simp [Except.toOption]

/-- The rules cover different packets. -/
structure Apart (a b : ReviewedIPv4Rule) : Prop where
  texts : normalized a ≠ normalized b
  ports : a.protocol = b.protocol → a.ipv4 = b.ipv4 → a.port ≠ none ∧ b.port ≠ none

theorem Apart.symm {a b : ReviewedIPv4Rule} (h : Apart a b) : Apart b a :=
  ⟨h.texts.symm,fun hprotocol hipv4 => (h.ports hprotocol.symm hipv4.symm).symm⟩

variable {parsed rules : List ReviewedIPv4Rule} {parts : List Text}

theorem mem_previousScopes {scope : Option ℕ} : scope ∈ previousScopes parsed rule ↔
    ∃ r ∈ parsed, r.protocol = rule.protocol ∧ r.ipv4 = rule.ipv4 ∧ r.port = scope := by
  simp [previousScopes,and_assoc]

theorem forall_apart_iff : (∀ r ∈ parsed, Apart r rule) ↔ normalized rule ∉ parsed.map normalized ∧
    ¬((rule.port = none ∧ previousScopes parsed rule ≠ []) ∨
      (rule.port ≠ none ∧ none ∈ previousScopes parsed rule)) := by
  constructor
  · intro h
    refine ⟨fun hmem => ?_,?_⟩
    · obtain ⟨r,hr,htext⟩ := List.mem_map.mp hmem
      exact (h r hr).texts htext
    · rintro (⟨hport,hne⟩ | ⟨-,hnone⟩)
      · obtain ⟨scope,hscope⟩ := List.exists_mem_of_ne_nil _ hne
        obtain ⟨r,hr,hprotocol,hipv4,-⟩ := mem_previousScopes.mp hscope
        exact ((h r hr).ports hprotocol hipv4).2 hport
      · obtain ⟨r,hr,hprotocol,hipv4,hport⟩ := mem_previousScopes.mp hnone
        exact ((h r hr).ports hprotocol hipv4).1 hport
  · rintro ⟨htexts,hscopes⟩ r hr
    obtain ⟨hall,hexact⟩ := not_or.mp hscopes
    refine ⟨fun htext => htexts (List.mem_map.mpr ⟨r,hr,htext⟩),fun hprotocol hipv4 => ?_⟩
    have hscope : r.port ∈ previousScopes parsed rule := mem_previousScopes.mpr ⟨r,hr,hprotocol,hipv4,rfl⟩
    have hport : rule.port ≠ none := fun hport => hall ⟨hport,List.ne_nil_of_mem hscope⟩
    refine ⟨fun hnone => hexact ⟨hport,?_⟩,hport⟩
    rwa [hnone] at hscope

theorem parseStep_eq_ok_iff {next : List ReviewedIPv4Rule} : parseStep sha256 parsed part = .ok next ↔
    ∃ rule, readRule sha256 part = some rule ∧ (∀ r ∈ parsed, Apart r rule) ∧ next = parsed++[rule] := by
  simp only [readRule_eq_some,forall_apart_iff]
  unfold parseStep
  cases parseToken sha256 part with
  | error e => exact iff_of_false (fun h => by cases h) fun ⟨rule,h,_⟩ => by cases h
  | ok rule =>
    show (if normalized rule ∈ parsed.map normalized then _ else if _ then _ else _) = _ ↔ _
    simp only [Except.ok.injEq,exists_eq_left']
    split_ifs with hduplicate hconflict
    · simp [hduplicate]
    · exact iff_of_false (by simp) fun h => h.1.2 hconflict
    · exact ⟨fun h => ⟨⟨hduplicate,hconflict⟩,(Except.ok.inj h).symm⟩,fun h => by rw [h.2]; rfl⟩

/-- The loop accepts tokens that say rules which cover different packets. -/
theorem parseLoop_eq_ok_iff (parts : List Text) (hparsed : parsed.Pairwise Apart) :
    parts.foldlM (parseStep sha256) parsed = .ok rules ↔ (∀ part ∈ parts, (readRule sha256 part).isSome) ∧
      rules = parsed++parts.filterMap (readRule sha256) ∧ rules.Pairwise Apart := by
  induction parts generalizing parsed with
  | nil =>
    simp only [List.foldlM_nil,List.filterMap_nil,List.append_nil]
    constructor
    · intro h
      cases h
      exact ⟨by simp,rfl,hparsed⟩
    · rintro ⟨-,rfl,-⟩
      rfl
  | cons part parts ih =>
    rw [List.foldlM_cons]
    constructor
    · intro h
      obtain ⟨next,hstep,hrest⟩ := ok_of_bind h
      obtain ⟨rule,hrule,hapart,rfl⟩ := parseStep_eq_ok_iff.mp hstep
      have hnext : (parsed++[rule]).Pairwise Apart := by
        refine List.pairwise_append.mpr ⟨hparsed,List.pairwise_singleton _ _,fun r hr r' hr' => ?_⟩
        obtain rfl := List.mem_singleton.mp hr'
        exact hapart r hr
      obtain ⟨hsome,hrules,hpairwise⟩ := (ih hnext).mp hrest
      refine ⟨List.forall_mem_cons.mpr ⟨by simp [hrule],hsome⟩,?_,hpairwise⟩
      rw [hrules,List.filterMap_cons_some hrule]
      simp
    · rintro ⟨hsome,hrules,hpairwise⟩
      obtain ⟨hpart,hsome⟩ := List.forall_mem_cons.mp hsome
      obtain ⟨rule,hrule⟩ := Option.isSome_iff_exists.mp hpart
      rw [List.filterMap_cons_some hrule] at hrules
      have hsplit : rules = (parsed++[rule])++parts.filterMap (readRule sha256) := by rw [hrules]; simp
      have hnext : (parsed++[rule]).Pairwise Apart := by
        rw [hsplit] at hpairwise
        exact (List.pairwise_append.mp hpairwise).1
      have hapart : ∀ r ∈ parsed, Apart r rule := fun r hr =>
        (List.pairwise_append.mp hnext).2.2 r hr rule (List.mem_singleton.mpr rfl)
      rw [parseStep_eq_ok_iff.mpr ⟨rule,hrule,hapart,rfl⟩]
      exact (ih hnext).mpr ⟨hsome,hsplit,hpairwise⟩

/-- What is accepted, up to the order of the tokens. -/
structure Accepted (sha256 : Text → Text) (parts : List Text) : Prop where
  nonempty : ∀ part ∈ parts, strip part ≠ []
  few : parts.length ≤ 32
  readable : ∀ part ∈ parts, (readRule sha256 part).isSome
  apart : (parts.filterMap (readRule sha256)).Pairwise Apart
  addresses : ((parts.filterMap (readRule sha256)).map ReviewedIPv4Rule.ipv4).dedup.length ≤ 16

theorem strip_ne_nil_of_part {raw : Text} (h : ∀ part ∈ split ',' raw, strip part ≠ []) : strip raw ≠ [] := by
  intro hblank
  have hcomma : ',' ∉ raw := by
    obtain ⟨front,back,hfront,hback,hraw⟩ := strip_parts raw
    rw [hblank,List.append_nil] at hraw
    intro hmem
    rw [hraw] at hmem
    obtain hmem | hmem := List.mem_append.mp hmem
    · exact absurd (hfront _ hmem) (by decide)
    · exact absurd (hback _ hmem) (by decide)
  have hsplit : split ',' raw = [raw] := by
    have hjoin : join [','] [raw] = raw := join_singleton
    conv_lhs => rw [← hjoin]
    exact split_join (List.cons_ne_nil _ _) (by simpa using hcomma)
  exact h raw (by simp [hsplit]) hblank

theorem parseText_eq_ok_iff {raw : Text} {result : Parsed} : parseText sha256 raw = .ok result ↔
    Accepted sha256 (split ',' raw) ∧ result = finish sha256 ((split ',' raw).filterMap (readRule sha256)) := by
  unfold parseText
  constructor
  · intro h
    dsimp only at h
    split_ifs at h with hempty hmany
    obtain ⟨parsed,hloop,h⟩ := ok_of_bind h
    obtain ⟨hsome,hparsed,hapart⟩ := (parseLoop_eq_ok_iff _ List.Pairwise.nil).mp hloop
    rw [List.nil_append] at hparsed
    subst hparsed
    split_ifs at h with haddresses
    refine ⟨⟨fun part hpart hblank => hempty (.inr ⟨part,hpart,hblank⟩),not_lt.mp hmany,hsome,hapart,
      not_lt.mp haddresses⟩,?_⟩
    exact (Except.ok.inj h).symm
  · rintro ⟨haccepted,rfl⟩
    have hempty : ¬(strip raw = [] ∨ ∃ part ∈ split ',' raw, strip part = []) := by
      rintro (hblank | ⟨part,hpart,hblank⟩)
      · exact strip_ne_nil_of_part haccepted.nonempty hblank
      · exact haccepted.nonempty part hpart hblank
    have hloop := (parseLoop_eq_ok_iff (split ',' raw) List.Pairwise.nil).mpr
      ⟨haccepted.readable,rfl,haccepted.apart⟩
    rw [List.nil_append] at hloop
    dsimp only
    rw [if_neg hempty,if_neg (not_lt.mpr haccepted.few),hloop]
    show (if _ then _ else _) = _
    rw [if_neg (not_lt.mpr haccepted.addresses)]
    rfl

/-- A rule that a token can say, with the identifier of its text. -/
def Known (sha256 : Text → Text) (rule : ReviewedIPv4Rule) : Prop :=
  ∃ protocol bits port, Sayable protocol bits port ∧ rule = ruleOf sha256 protocol (.v4 bits) port

theorem known_of_mem (h : rule ∈ parts.filterMap (readRule sha256)) : Known sha256 rule := by
  obtain ⟨part,-,hpart⟩ := List.mem_filterMap.mp h
  exact exists_of_parseToken (readRule_eq_some.mp hpart)

theorem Known.readRule (h : Known sha256 rule) : readRule sha256 (normalized rule) = some rule := by
  obtain ⟨protocol,bits,port,hsayable,rfl⟩ := h
  exact readRule_eq_some.mpr (parseToken_normalizedText hsayable)

theorem Known.ext {a b : ReviewedIPv4Rule} (ha : Known sha256 a) (hb : Known sha256 b)
    (h : normalized a = normalized b) : a = b := by
  have hread := ha.readRule
  rw [h,hb.readRule] at hread
  exact (Option.some.inj hread).symm

theorem sortRules_perm (parsed : List ReviewedIPv4Rule) : (sortRules parsed).Perm parsed :=
  List.mergeSort_perm _ _

theorem sortRules_sorted (parsed : List ReviewedIPv4Rule) :
    (sortRules parsed).Pairwise fun a b => normalized a ≤ normalized b := by
  have htrans : ∀ a b c : ReviewedIPv4Rule, decide (normalized a ≤ normalized b) → decide (normalized b ≤ normalized c) →
      decide (normalized a ≤ normalized c) := fun a b c hab hbc =>
    decide_eq_true (le_trans (of_decide_eq_true hab) (of_decide_eq_true hbc))
  have htotal : ∀ a b : ReviewedIPv4Rule, decide (normalized a ≤ normalized b) || decide (normalized b ≤ normalized a) :=
    fun a b => by simpa using le_total (normalized a) (normalized b)
  have hsorted := List.pairwise_mergeSort htrans htotal parsed
  exact hsorted.imp of_decide_eq_true

theorem sortRules_eq_of_perm {parsed' : List ReviewedIPv4Rule} (hperm : parsed.Perm parsed')
    (hknown : ∀ rule ∈ parsed, Known sha256 rule) : sortRules parsed = sortRules parsed' := by
  refine List.Perm.eq_of_pairwise (fun a b ha hb hab hba => ?_) (sortRules_sorted parsed)
    (sortRules_sorted parsed') ((sortRules_perm _).trans (hperm.trans (sortRules_perm _).symm))
  have hb' : b ∈ parsed := hperm.mem_iff.mpr ((sortRules_perm _).mem_iff.mp hb)
  exact (hknown a ((sortRules_perm _).mem_iff.mp ha)).ext (hknown b hb') (le_antisymm hab hba)

@[simp] theorem finish_rules (parsed : List ReviewedIPv4Rule) : (finish sha256 parsed).rules = sortRules parsed := rfl

theorem finish_eq_of_perm {parsed' : List ReviewedIPv4Rule} (hperm : parsed.Perm parsed')
    (hknown : ∀ rule ∈ parsed, Known sha256 rule) : finish sha256 parsed = finish sha256 parsed' := by
  unfold finish
  rw [sortRules_eq_of_perm hperm hknown]

theorem Accepted.perm {parts' : List Text} (h : Accepted sha256 parts) (hperm : parts.Perm parts') :
    Accepted sha256 parts' where
  nonempty part hpart := h.nonempty part (hperm.mem_iff.mpr hpart)
  few := hperm.length_eq ▸ h.few
  readable part hpart := h.readable part (hperm.mem_iff.mpr hpart)
  apart := ((hperm.filterMap _).pairwise_iff Apart.symm).mp h.apart
  addresses := by
    rw [← ((hperm.filterMap (Reviewed.readRule sha256)).map ReviewedIPv4Rule.ipv4).dedup.length_eq]
    exact h.addresses

/-- The tokens of an accepted text in another order give the same result. -/
theorem parseText_perm {raw : Text} {tokens : List Text} (hperm : tokens.Perm (split ',' raw))
    (result : Parsed) : parseText sha256 (join [','] tokens) = .ok result ↔ parseText sha256 raw = .ok result := by
  have hne : tokens ≠ [] := fun hnil => List.splitOn_ne_nil ',' raw (List.nil_perm.mp (hnil ▸ hperm))
  have hsplit : split ',' (join [','] tokens) = tokens := split_join hne fun token htoken hcomma =>
    (mem_split.mp ⟨token,hperm.mem_iff.mp htoken,hcomma⟩).2 rfl
  rw [parseText_eq_ok_iff,parseText_eq_ok_iff,hsplit,finish_eq_of_perm (hperm.filterMap _) fun _ => known_of_mem]
  exact and_congr_left fun _ => ⟨fun h => h.perm hperm,fun h => h.perm hperm.symm⟩

theorem Known.text (h : Known sha256 rule) : normalized rule ≠ [] ∧ ∀ c ∈ normalized rule, isSpace c = false ∧ c ≠ ',' := by
  obtain ⟨protocol,bits,port,hsayable,rfl⟩ := h
  exact ⟨normalizedText_ne_nil hsayable,fun c hc => mem_normalizedText hsayable hc⟩

theorem filterMap_readRule (h : ∀ rule ∈ rules, Known sha256 rule) :
    (rules.map normalized).filterMap (readRule sha256) = rules := by
  have hread : ∀ rule ∈ rules, (readRule sha256 ∘ normalized) rule = some rule := fun rule hrule =>
    (h rule hrule).readRule
  rw [List.filterMap_map,List.filterMap_congr hread,List.filterMap_some]

theorem parseText_normalizedConfig {raw : Text} {result : Parsed} (h : parseText sha256 raw = .ok result) :
    parseText sha256 (normalizedConfig result.rules) = .ok result := by
  obtain ⟨haccepted,rfl⟩ := parseText_eq_ok_iff.mp h
  have hparts := List.splitOn_ne_nil ',' raw
  have hlength : ((split ',' raw).filterMap (readRule sha256)).length = (split ',' raw).length :=
    List.filterMap_length_eq_length.mpr haccepted.readable
  have hknown : ∀ rule ∈ (split ',' raw).filterMap (readRule sha256), Known sha256 rule := fun _ => known_of_mem
  have hfew := haccepted.few
  have hapart := haccepted.apart
  have haddresses := haccepted.addresses
  generalize (split ',' raw).filterMap (readRule sha256) = parsed at hlength hknown hapart haddresses
  have hperm := sortRules_perm parsed
  have hsorted : ∀ rule ∈ sortRules parsed, Known sha256 rule := fun rule hrule =>
    hknown rule (hperm.mem_iff.mp hrule)
  have hsplit : split ',' (normalizedConfig (sortRules parsed)) = (sortRules parsed).map normalized := by
    refine split_join ?_ fun text htext hcomma => ?_
    · intro hnil
      have hzero : (sortRules parsed).length = 0 := by simpa using congrArg List.length hnil
      rw [hperm.length_eq,hlength] at hzero
      exact hparts (List.length_eq_zero_iff.mp hzero)
    · obtain ⟨rule,hrule,rfl⟩ := List.mem_map.mp htext
      exact ((hsorted rule hrule).text.2 _ hcomma).2 rfl
  rw [parseText_eq_ok_iff,finish_rules,hsplit]
  refine ⟨?_,?_⟩
  · refine ⟨fun part hpart => ?_,?_,fun part hpart => ?_,?_,?_⟩
    · obtain ⟨rule,hrule,rfl⟩ := List.mem_map.mp hpart
      rw [strip_of_all fun c hc => ((hsorted rule hrule).text.2 c hc).1]
      exact (hsorted rule hrule).text.1
    · rw [List.length_map,hperm.length_eq,hlength]
      exact hfew
    · obtain ⟨rule,hrule,rfl⟩ := List.mem_map.mp hpart
      rw [(hsorted rule hrule).readRule]
      rfl
    · rw [filterMap_readRule hsorted]
      exact (hperm.pairwise_iff Apart.symm).mpr hapart
    · rw [filterMap_readRule hsorted,(hperm.map ReviewedIPv4Rule.ipv4).dedup.length_eq]
      exact haddresses
  · rw [filterMap_readRule hsorted]
    exact finish_eq_of_perm hperm.symm hknown

end Reviewed
end FakeNetNG
