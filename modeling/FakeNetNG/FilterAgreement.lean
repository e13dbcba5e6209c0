import FakeNetNG.FilterLetters

/-!
# The diverter and the verification

The verification reads the final filters that it knows the words of, and finds the ports of the
control link excluded.
-/

namespace FakeNetNG
namespace Verification

open Text BoolFilter ControlFilter

section Agreement

variable {control : BitVec 32} {port : ℕ} {others : List ℕ}

theorem atoms_conjunction (first : Clause) (others : List Clause) :
    (conjunction first others).atoms = first :: others := by
  have hfold : ∀ (others : List Clause) (start : Source Clause .conjunction),
      (others.foldl addClause start).atoms = start.atoms++others := by
    intro others
    induction others with
    | nil =>
      intro start
      rw [List.foldl_nil,List.append_nil]
    | cons next others ih =>
      intro start
      rw [List.foldl_cons,ih,addClause,Source.atoms,Source.atoms,List.append_assoc,
        List.singleton_append]
  rw [conjunction,hfold]
  rfl

theorem atoms_ipv4Arm : (ipv4Arm control port others).atoms =
    [.outbound,.ip,.destination .notEqual control]++(port :: others).map .port++
      [.destination .less loopbackFirst,.destination .greater loopbackLast] := by
  simp only [ipv4Arm,controlSource,loopbackV4Source,grouped,Source.atoms,atoms_conjunction,
    List.map_cons,List.cons_append,List.nil_append]

theorem atoms_dualSource : (dualSource control port others).atoms =
    (ipv4Arm control port others).atoms++[.outbound,.ipv6,.notLoopbackV6] := by
  simp only [dualSource,grouped,Source.atoms,atoms_conjunction]

theorem known_ipv4Arm : ∀ a ∈ (ipv4Arm control port others).atoms, known a = true := by
  intro a ha
  rw [atoms_ipv4Arm,List.mem_append,List.mem_append] at ha
  rcases ha with (ha | ha) | ha
  · simp only [List.mem_cons,List.not_mem_nil,or_false] at ha
    rcases ha with rfl | rfl | rfl <;> rfl
  · obtain ⟨n,-,rfl⟩ := List.mem_map.mp ha
    rfl
  · simp only [List.mem_cons,List.not_mem_nil,or_false] at ha
    rcases ha with rfl | rfl <;> rfl

theorem known_dualSource : ∀ a ∈ (dualSource control port others).atoms, known a = true := by
  intro a ha
  rw [atoms_dualSource,List.mem_append] at ha
  rcases ha with ha | ha
  · exact known_ipv4Arm a ha
  · simp only [List.mem_cons,List.not_mem_nil,or_false] at ha
    rcases ha with rfl | rfl | rfl <;> rfl

theorem map_toLower_print (s : Source Clause .disjunction) :
    (s.print Clause.text).map Char.toLower = s.print lowered :=
  Source.map_print (by decide) (by decide) (by decide) (by decide) _ s

theorem tokenize_print {s : Source Clause .disjunction} (hknown : ∀ a ∈ s.atoms, known a = true)
    {rest : Text} {ending : Option (List (Token Lexeme))} (hrest : Delimited rest)
    (h : Reads ending rest []) :
    tokenize none (s.print lowered++rest) = ending.map (s.tokens clauseLexeme++·) := by
  have hreads : Reads ending (s.print lowered++rest) (s.tokens clauseLexeme++[]) :=
    reading.print (fun a ha _ _ hdelimited hafter => hafter.clause hdelimited (hknown a ha)) hrest h
  rw [hreads none rfl,List.append_nil]

theorem tokenize_known {s : Source Clause .disjunction} (hknown : ∀ a ∈ s.atoms, known a = true) :
    tokenize none ((s.print Clause.text).map Char.toLower) = some (s.tokens clauseLexeme) := by
  have hnil : Reads (some []) [] [] := fun previous _ => by rw [tokenize]; rfl
  have htokens := tokenize_print hknown (Or.inl rfl) hnil
  rw [List.append_nil] at htokens
  rw [map_toLower_print,htokens,Option.map_some,List.append_nil]

theorem reads_inbound (tail : Text) : Reads none ("inbound".toList++ ' ' :: tail) [] := by
  intro previous hprevious
  have hmatch : matchToken previous ("inbound".toList++ ' ' :: tail) = none := by
    rw [matchToken_name hprevious (by decide) (by decide),
      matchPort_eq_none (by decide),matchPort_eq_none (by decide),
      matchAddress_eq_none (by decide),matchAddress_eq_none (by decide)]
    rfl
  have hcons : "inbound".toList++ ' ' :: tail = 'i' :: ("nbound".toList++ ' ' :: tail) := by
    have hliteral : "inbound".toList = 'i' :: "nbound".toList := by decide
    rw [hliteral,List.cons_append]
  rw [hcons] at hmatch ⊢
  exact tokenize_unknown (by decide) hmatch

theorem print_redirectSource_lowered (target frozen : BitVec 32) :
    ∃ tail, (redirectSource target frozen).print lowered = '(' :: ("inbound".toList++ ' ' :: tail) := by
  have hand : " and ".toList = ' ' :: "and ".toList := by decide
  have hinbound : lowered .inbound = "inbound".toList := by decide
  refine ⟨"and ".toList++(join " and ".toList ([.ip,.source target,.destination .equal frozen,
    .isTcp].map lowered)++[')']),?_⟩
  simp only [redirectSource,grouped,Source.print,print_conjunction,List.map_cons,List.map_nil,
    join_cons,hinbound,hand]
  simp only [List.append_assoc,List.cons_append]

theorem tokenize_redirect (target frozen : BitVec 32) :
    tokenize none (((finalSource control port others (.redirect target frozen)).print Clause.text).map
      Char.toLower) = none := by
  obtain ⟨tail,htail⟩ := print_redirectSource_lowered target frozen
  have hreads : Reads none (" or ".toList++('(' :: ("inbound".toList++ ' ' :: tail))) [] :=
    reading.or (reading.opening (reads_inbound tail))
  rw [map_toLower_print]
  show tokenize none ((dualSource control port others).print lowered++" or ".toList++
    (redirectSource target frozen).print lowered) = none
  rw [htail,List.append_assoc,tokenize_print known_dualSource (delimited_or _) hreads]
  rfl

/-- What a test becomes when the address of the control link is known. -/
def clauseMeaning (control : BitVec 32) : Clause → Ast ℕ
  | .outbound => .const true
  | .ip => .const true
  | .destination comparison address => .const (comparison.compare control.toNat address.toNat)
  | .port n => .not (.var n)
  | _ => .const false

theorem atom_clause {a : Clause} (hknown : known a = true)
    (hport : ∀ n, a = .port n → 1 ≤ n ∧ n ≤ 65535) :
    atom (some (.v4 control)) (clauseLexeme a) = .ok (clauseMeaning control a) := by
  cases a with
  | outbound => rfl
  | ip => rfl
  | ipv6 => rfl
  | destination comparison address =>
    simp only [clauseLexeme,atom,IpAddress.read_dotted,version,ne_eq,not_true_eq_false,if_false]
    rfl
  | notLoopbackV6 =>
    have hread : IpAddress.read "::1".toList = some (.v6 1) := by decide
    simp only [clauseLexeme,atom,hread,version]
    rfl
  | port n =>
    have hrange := hport n rfl
    have hlength : (decimal n).length ≤ 5 := decimal_length_le (by omega)
      (lt_of_le_of_lt hrange.2 (by norm_num))
    simp only [clauseLexeme,atom,readDigits_decimal (le_trans hlength (by norm_num)),if_pos hrange,
      if_true]
    rfl
  | inbound => cases hknown
  | source address => cases hknown
  | isTcp => cases hknown

theorem variables_ports (ports : List ℕ) :
    ((ports.map Clause.port).flatMap fun a => (clauseMeaning control a).variables) = ports := by
  induction ports with
  | nil => rfl
  | cons n ports ih =>
    rw [List.map_cons,List.flatMap_cons,ih]
    rfl

theorem variables_ipv4Arm :
    ((ipv4Arm control port others).ast (clauseMeaning control)).variables = port :: others := by
  rw [Source.variables_ast,atoms_ipv4Arm,List.flatMap_append,List.flatMap_append,variables_ports]
  simp [clauseMeaning,Ast.variables]

theorem variables_dualSource :
    ((dualSource control port others).ast (clauseMeaning control)).variables = port :: others := by
  have harm : ((ipv4Arm control port others).ast (clauseMeaning control)).variables = port :: others :=
    variables_ipv4Arm
  rw [Source.variables_ast] at harm ⊢
  rw [atoms_dualSource,List.flatMap_append,harm]
  simp [clauseMeaning,Ast.variables]

/-- A packet to the control link from one of the ports is kept by no arm. -/
theorem eval_ipv4Arm {ports : ℕ → Bool} {target : ℕ} (htarget : target ∈ port :: others)
    (hports : ports target = true) :
    ((ipv4Arm control port others).ast (clauseMeaning control)).eval ports = false := by
  have hport : (.port port :: others.map .port : List Clause).all
      (fun a => (clauseMeaning control a).eval ports) = false := by
    rw [← List.map_cons (f := Clause.port),List.all_eq_false]
    refine ⟨.port target,List.mem_map_of_mem htarget,?_⟩
    simp [clauseMeaning,Ast.eval,hports]
  rw [Source.eval_ast]
  simp only [ipv4Arm,controlSource,grouped,Source.holds,holds_conjunction,hport]
  simp [clauseMeaning,Ast.eval,Comparison.compare]

theorem eval_dualSource {ports : ℕ → Bool} {target : ℕ} (htarget : target ∈ port :: others)
    (hports : ports target = true) :
    ((dualSource control port others).ast (clauseMeaning control)).eval ports = false := by
  have harm : ((ipv4Arm control port others).ast (clauseMeaning control)).eval ports = false :=
    eval_ipv4Arm htarget hports
  rw [Source.eval_ast] at harm ⊢
  simp only [dualSource,grouped,Source.holds,holds_conjunction,harm]
  simp [clauseMeaning,Ast.eval]

theorem portVariables_perm (node : Ast ℕ) : (portVariables node).Perm node.variables.dedup :=
  List.mergeSort_perm _ _

theorem mem_portVariables {node : Ast ℕ} {n : ℕ} : n ∈ portVariables node ↔ n ∈ node.variables := by
  rw [(portVariables_perm node).mem_iff,List.mem_dedup]

/-- A tree of few ports that keeps nothing from any of them is accepted. -/
theorem verdict_eq {a : Ast ℕ} (hlength : a.variables.dedup.length ≤ 12)
    (heval : ∀ target ∈ a.variables, ∀ values : ℕ → Bool, values target = true →
      a.eval values = false) :
    verdict a = ⟨true,"restricted_filter_control_excluded",(portVariables a).mergeSort⟩ := by
  have hexcludes : excludesControl a (portVariables a) = true := by
    refine List.all_eq_true.mpr fun target htarget => List.all_eq_true.mpr fun bits _ => ?_
    have hself : assignment target ((portVariables a).filter (· ≠ target)) bits target = true :=
      if_pos rfl
    rw [heval target (mem_portVariables.mp htarget) _ hself]
    rfl
  unfold verdict
  dsimp only
  rw [if_neg (by rw [(portVariables_perm a).length_eq]; omega),if_pos hexcludes]

theorem chooseControl_eq (raw : Text) {controlIp : Text} {address : IpAddress}
    (h : IpAddress.read controlIp = some address) :
    chooseControl raw (some controlIp) = .ok (.ok (some address)) := by
  have hnil : IpAddress.read [] = none := by decide
  cases controlIp with
  | nil =>
    rw [hnil] at h
    cases h
  | cons c rest =>
    unfold chooseControl
    simp only [h]

theorem parseControlFilter_eq {s : Source Clause .disjunction}
    (hknown : ∀ a ∈ s.atoms, known a = true)
    (hrange : ∀ n, .port n ∈ s.atoms → 1 ≤ n ∧ n ≤ 65535) (hsome : .port port ∈ s.atoms)
    (hstrip : strip (s.print Clause.text) = s.print Clause.text)
    (hne : s.print Clause.text ≠ []) (hlength : (s.print Clause.text).length ≤ 8192) :
    parseControlFilter (some (s.print Clause.text)) (some (IpAddress.dotted control)) =
      .ok (verdict (s.ast (clauseMeaning control))) := by
  have hdestination : (s.tokens clauseLexeme).any (isPort .destination) = false := by
    rw [Source.any_tokens ⟨rfl,rfl,rfl,rfl,rfl⟩,List.any_eq_false]
    intro a _
    cases a <;> exact Bool.false_ne_true
  have hsource : (s.tokens clauseLexeme).any (isPort .source) = true := by
    rw [Source.any_tokens ⟨rfl,rfl,rfl,rfl,rfl⟩,List.any_eq_true]
    exact ⟨.port port,hsome,rfl⟩
  have hparse : parse (atom (some (.v4 control))) (s.tokens clauseLexeme) =
      .ok (s.ast (clauseMeaning control)) := by
    refine Source.parse_tokens s fun a ha => atom_clause (hknown a ha) fun n hn => ?_
    rw [hn] at ha
    exact hrange n ha
  unfold parseControlFilter
  simp only [Option.getD_some,hstrip]
  rw [if_neg (not_or.mpr ⟨hne,by omega⟩),lex_of_tokenize (tokenize_known hknown)]
  simp only [hdestination,hsource,chooseControl_eq _ (IpAddress.read_dotted control),hparse,Bool.false_eq_true,not_true_eq_false,
    if_false]

theorem keepPort_length_le {ports : List ℕ} (h : ∀ n ∈ ports, n ≤ 65535) :
    (keepPort (ports.map decimal)).length ≤ 25*ports.length := by
  have hname : "tcp.SrcPort != ".toList.length = 15 := by decide
  have hand : " and ".toList.length = 5 := by decide
  unfold keepPort
  rw [List.map_map]
  induction ports with
  | nil => exact Nat.zero_le _
  | cons n ports ih =>
    have hdigits : (decimal n).length ≤ 5 := decimal_length_le (by omega)
      (lt_of_le_of_lt (h n List.mem_cons_self) (by norm_num))
    have hrest := ih fun m hm => h m (List.mem_cons_of_mem _ hm)
    cases ports with
    | nil =>
      simp only [List.map_cons,List.map_nil,Function.comp,join_singleton,List.length_append,
        List.length_cons,List.length_nil,hname]
      omega
    | cons m ports =>
      simp only [List.map_cons,Function.comp,join_cons,List.length_append,List.length_cons,hname,
        hand] at hrest ⊢
      omega

theorem clause_length_le {ports : List ℕ} (h : ∀ n ∈ ports, n ≤ 65535) (hlength : ports.length ≤ 12) :
    (clause control ports).length ≤ 400 := by
  have hkeep := keepPort_length_le h
  have haddress := IpAddress.dotted_length_le control
  have hopen : "(ip.DstAddr != ".toList.length = 15 := by decide
  have hor : " or (".toList.length = 5 := by decide
  have hclose : "))".toList.length = 2 := by decide
  unfold clause negative
  rw [List.length_append,List.length_append,List.length_append,List.length_append,hopen,hor,hclose]
  omega

theorem finalLegacy_length_le {ports : List ℕ} (h : ∀ n ∈ ports, n ≤ 65535)
    (hlength : ports.length ≤ 12) : (finalLegacy control ports).length ≤ 500 := by
  have hclause : (clause control ports).length ≤ 400 := clause_length_le h hlength
  have hfront : "outbound and ip and ".toList.length = 20 := by decide
  have hand : " and ".toList.length = 5 := by decide
  have hloopback : loopbackV4Clause.length = 56 := by decide
  unfold finalLegacy
  rw [List.length_append,List.length_append,List.length_append,hfront,hand,hloopback]
  omega

theorem finalDual_length_le {ports : List ℕ} (h : ∀ n ∈ ports, n ≤ 65535)
    (hlength : ports.length ≤ 12) : (finalDual control ports).length ≤ 600 := by
  have hclause : (clause control ports).length ≤ 400 := clause_length_le h hlength
  have hfront : "(outbound and ip and ".toList.length = 21 := by decide
  have hand : " and ".toList.length = 5 := by decide
  have hloopback : loopbackV4Clause.length = 56 := by decide
  have hmiddle : ") or (outbound and ipv6 and ".toList.length = 28 := by decide
  have hloopbackV6 : loopbackV6Clause.length = 19 := by decide
  unfold finalDual
  rw [List.length_append,List.length_append,List.length_append,List.length_append,
    List.length_append,List.length_append,hfront,hand,hloopback,hmiddle,hloopbackV6,
    List.length_singleton]
  omega

/-- Stripping keeps a text between two texts without spaces at their outer ends. -/
theorem strip_between {front middle back : Text} (hfront : front ≠ []) (hback : back ≠ [])
    (hhead : front.head?.any isSpace = false) (hlast : back.getLast?.any isSpace = false) :
    strip (front++middle++back) = front++middle++back := by
  refine strip_eq_self (fun c hc => ?_) (fun c hc => ?_)
  · rw [List.append_assoc,List.head?_append_of_ne_nil _ hfront] at hc
    rw [Option.mem_def.mp hc] at hhead
    simpa using hhead
  · rw [List.getLast?_append_of_ne_nil _ hback] at hc
    rw [Option.mem_def.mp hc] at hlast
    simpa using hlast

theorem strip_finalLegacy (control : BitVec 32) (ports : List ℕ) :
    strip (finalLegacy control ports) = finalLegacy control ports := by
  have htext : finalLegacy control ports = "outbound and ip and ".toList++
      (clause control ports++" and ".toList)++loopbackV4Clause := by
    unfold finalLegacy
    simp only [List.append_assoc]
  rw [htext]
  exact strip_between (by decide) (by decide) (by decide) (by decide)

theorem strip_finalDual (control : BitVec 32) (ports : List ℕ) :
    strip (finalDual control ports) = finalDual control ports := by
  have htext : finalDual control ports = "(outbound and ip and ".toList++
      (clause control ports++(" and ".toList++(loopbackV4Clause++(") or (outbound and ipv6 and ".toList++
        loopbackV6Clause))))++[')'] := by
    unfold finalDual
    simp only [List.append_assoc]
  rw [htext]
  exact strip_between (by decide) (by decide) (by decide) (by decide)

theorem strip_finalRedirect (control target frozen : BitVec 32) (ports : List ℕ) :
    strip (finalText control ports (.redirect target frozen)) =
      finalText control ports (.redirect target frozen) := by
  have htext : finalText control ports (.redirect target frozen) = "(outbound and ip and ".toList++
      (clause control ports++(" and ".toList++(loopbackV4Clause++(") or (outbound and ipv6 and ".toList++
        (loopbackV6Clause++([')']++(" or (inbound and ip and ip.SrcAddr == ".toList++
          (IpAddress.dotted target++(" and ip.DstAddr == ".toList++IpAddress.dotted frozen))))))))) ++
      " and ip.Protocol == 6)".toList := by
    unfold finalText
    dsimp only
    unfold finalDual redirectTail
    simp only [List.append_assoc]
  rw [htext]
  exact strip_between (by decide) (by decide) (by decide) (by decide)

/-- The verification succeeds and reports these ports. -/
def Verifies (final : Text) (control : BitVec 32) (ports : List ℕ) : Prop :=
  ∃ result, parseControlFilter (some final) (some (IpAddress.dotted control)) = .ok result ∧
    result.ok = true ∧ ∀ n, n ∈ result.ports ↔ n ∈ ports

/-- A filter of known tests that keeps nothing from the ports is verified. -/
theorem verifies_of_source {s : Source Clause .disjunction} (hknown : ∀ a ∈ s.atoms, known a = true)
    (hvariables : (s.ast (clauseMeaning control)).variables = port :: others)
    (heval : ∀ target ∈ port :: others, ∀ values : ℕ → Bool, values target = true →
      (s.ast (clauseMeaning control)).eval values = false)
    (hstrip : strip (s.print Clause.text) = s.print Clause.text)
    (hne : s.print Clause.text ≠ []) (hsize : (s.print Clause.text).length ≤ 8192)
    (hnodup : (port :: others).Nodup) (hlength : (port :: others).length ≤ 12)
    (hrange : ∀ n ∈ port :: others, 1 ≤ n ∧ n ≤ 65535) :
    Verifies (s.print Clause.text) control (port :: others) := by
  have hatoms : ∀ n, .port n ∈ s.atoms ↔ n ∈ port :: others := by
    intro n
    rw [← hvariables,Source.variables_ast,List.mem_flatMap]
    constructor
    · intro h
      exact ⟨.port n,h,List.mem_cons_self⟩
    · rintro ⟨a,ha,hn⟩
      cases a with
      | port m =>
        rw [List.mem_singleton.mp hn]
        exact ha
      | _ => cases hn
  have hverdict := verdict_eq (a:=s.ast (clauseMeaning control))
    (by rw [hvariables,hnodup.dedup]; exact hlength) (by rw [hvariables]; exact heval)
  refine ⟨_,parseControlFilter_eq hknown (fun n hn => hrange n ((hatoms n).mp hn))
    ((hatoms port).mpr List.mem_cons_self) hstrip hne hsize,?_,fun n => ?_⟩
  · rw [hverdict]
  · rw [hverdict]
    rw [(List.mergeSort_perm _ _).mem_iff,mem_portVariables,hvariables]

theorem verifies_legacy (hnodup : (port :: others).Nodup) (hlength : (port :: others).length ≤ 12)
    (hrange : ∀ n ∈ port :: others, 1 ≤ n ∧ n ≤ 65535) :
    Verifies (finalLegacy control (port :: others)) control (port :: others) := by
  have hprint : (finalSource control port others .legacy).print Clause.text =
    finalLegacy control (port :: others) := print_finalSource control port others .legacy
  have hsize : (finalLegacy control (port :: others)).length ≤ 500 :=
    finalLegacy_length_le (fun n hn => (hrange n hn).2) hlength
  have hne : finalLegacy control (port :: others) ≠ [] := by
    unfold finalLegacy
    exact List.append_ne_nil_of_right_ne_nil _ (by decide)
  rw [← hprint] at hsize hne ⊢
  refine verifies_of_source known_ipv4Arm variables_ipv4Arm (fun target ht values hv =>
    eval_ipv4Arm ht hv) ?_ hne (by omega) hnodup hlength hrange
  rw [hprint,strip_finalLegacy]

theorem verifies_dual (hnodup : (port :: others).Nodup) (hlength : (port :: others).length ≤ 12)
    (hrange : ∀ n ∈ port :: others, 1 ≤ n ∧ n ≤ 65535) :
    Verifies (finalDual control (port :: others)) control (port :: others) := by
  have hprint : (finalSource control port others .dual).print Clause.text =
    finalDual control (port :: others) := print_finalSource control port others .dual
  have hsize : (finalDual control (port :: others)).length ≤ 600 :=
    finalDual_length_le (fun n hn => (hrange n hn).2) hlength
  have hne : finalDual control (port :: others) ≠ [] := by
    unfold finalDual
    exact List.append_ne_nil_of_right_ne_nil _ (by decide)
  rw [← hprint] at hsize hne ⊢
  refine verifies_of_source known_dualSource variables_dualSource (fun target ht values hv =>
    eval_dualSource ht hv) ?_ hne (by omega) hnodup hlength hrange
  rw [hprint,strip_finalDual]

/-- The base of a process redirect. -/
def isRedirect : Shape → Bool
  | .redirect _ _ => true
  | _ => false

/-- Whatever its length, the filter of a process redirect is not accepted. -/
theorem parseControlFilter_redirect (control target frozen : BitVec 32) (port : ℕ) (others : List ℕ) :
    parseControlFilter (some (finalText control (port :: others) (.redirect target frozen)))
        (some (IpAddress.dotted control)) =
      .ok (refuse (if finalText control (port :: others) (.redirect target frozen) = [] ∨
        8192 < (finalText control (port :: others) (.redirect target frozen)).length then
          "filter_missing" else "filter_token_unknown") []) := by
  have htokens : lex none (finalText control (port :: others) (.redirect target frozen)) = none := by
    rw [← print_finalSource,lex_of_plain (plain_print _)]
    exact tokenize_redirect target frozen
  unfold parseControlFilter
  simp only [Option.getD_some,strip_finalRedirect,htokens]
  split <;> rfl

theorem not_verifies_redirect (control target frozen : BitVec 32) (port : ℕ) (others ports : List ℕ) :
    ¬ Verifies (finalText control (port :: others) (.redirect target frozen)) control ports := by
  rintro ⟨result,hresult,hok,-⟩
  rw [parseControlFilter_redirect] at hresult
  injection hresult with hresult
  rw [← hresult] at hok
  cases hok

end Agreement

/-- The verification of a final filter succeeds, with the ports of the control link, exactly when
the base is not that of a process redirect. -/
theorem final_verifies_iff (shape : Shape) (control : BitVec 32) {ports : List ℕ} (hports : ports ≠ [])
    (hlength : ports.length ≤ 12) (hnodup : ports.Nodup) (hrange : ∀ n ∈ ports, 1 ≤ n ∧ n ≤ 65535) :
    ∃ final, finalFilter shape (some (IpAddress.dotted control)) (some (portText ports)) = .ok final ∧
      (Verifies final control ports ↔ isRedirect shape = false) := by
  refine ⟨finalText control ports shape,finalFilter_eq hports shape,?_⟩
  obtain ⟨port,others,rfl⟩ := List.exists_cons_of_ne_nil hports
  cases shape with
  | legacy => exact ⟨fun _ => rfl,fun _ => verifies_legacy hnodup hlength hrange⟩
  | dual => exact ⟨fun _ => rfl,fun _ => verifies_dual hnodup hlength hrange⟩
  | redirect target frozen =>
    refine ⟨fun h => ?_,fun h => by cases h⟩
    exact absurd h (not_verifies_redirect control target frozen port others _)

/-- Two ports of the control link of a dual filter. -/
theorem final_verifies_two_ports :
    ∃ final, finalFilter .dual (some (IpAddress.dotted 0xC0A83801)) (some (portText [8123,443])) =
        .ok final ∧
      (Verifies final 0xC0A83801 [8123,443] ↔ isRedirect .dual = false) :=
  final_verifies_iff .dual 0xC0A83801 (List.cons_ne_nil 8123 [443]) (by decide) (by decide) (by decide)

/-- The filter of a process redirect from 10.0.0.2 to 10.0.0.1 is refused. -/
theorem redirect_filter_refused :
    ∃ final, finalFilter (.redirect 0x0A000001 0x0A000002) (some "192.168.56.1".toList)
        (some "8123".toList) = .ok final ∧
      parseControlFilter (some final) (some "192.168.56.1".toList) =
        .ok ⟨false,"filter_token_unknown",[]⟩ ∧
      ¬ Verifies final 0xC0A83801 [8123] := by
  have haddress : "192.168.56.1".toList = IpAddress.dotted 0xC0A83801 := by decide +kernel
  have hport : "8123".toList = portText [8123] := by decide +kernel
  refine ⟨finalText 0xC0A83801 [8123] (.redirect 0x0A000001 0x0A000002),?_,?_,
    not_verifies_redirect _ _ _ 8123 [] _⟩
  · rw [haddress,hport]
    exact finalFilter_eq (List.cons_ne_nil 8123 []) _
  · have hsize : ¬ (finalText 0xC0A83801 [8123] (.redirect 0x0A000001 0x0A000002) = [] ∨
        8192 < (finalText 0xC0A83801 [8123] (.redirect 0x0A000001 0x0A000002)).length) := by
      decide +kernel
    rw [haddress,parseControlFilter_redirect,if_neg hsize]
    rfl

end Verification
end FakeNetNG
