import FakeNetNG.BoolStack
import FakeNetNG.Fallible
import FakeNetNG.FilterExclusion

/-!
# What the verification raises

`parse_control_filter` handles the `ValueError`s of its parser and no others. An address that a filter names
is read before, and neither the parser nor the walks over its tree may have more calls open than the
interpreter allows.
-/

namespace FakeNetNG
namespace Verification

open Text BoolFilter WinDivert

inductive Raised
  | value (message : String)
  | recursion
  deriving DecidableEq

def verdictIn (frames : ℕ) (node : Ast ℕ) : Except Raised Verdict :=
  match node.variablesIn frames with
  | none => .error .recursion
  | some names =>
      let required := names.dedup.mergeSort fun a b => decide (decimal a ≤ decimal b)
      if 12 < required.length then
        .ok (refuse "filter_too_complex" [])
      else
        let excludes := required.allM fun target =>
          let others := required.filter (· ≠ target)
          (List.range (2^others.length)).allM fun bits =>
            (node.evalIn (assignment target others bits) frames).map (!·)
        match excludes with
        | none => .error .recursion
        | some true => .ok ⟨true,"restricted_filter_control_excluded",required.mergeSort⟩
        | some false => .ok (refuse "filter_control_not_excluded" required)

/-- `parse_control_filter` when the parser, or a walk, may have so many calls open. -/
def parseControlFilterIn (frames : ℕ) (text controlIp : Option Text) : Except Raised Verdict :=
  let raw := strip (text.getD [])
  if raw = [] ∨ 8192 < raw.length then
    .ok (refuse "filter_missing" [])
  else
    match lex none raw with
    | none => .ok (refuse "filter_token_unknown" [])
    | some tokens =>
        if tokens.any (isPort .destination) then
          .ok (refuse "filter_inbound_direction" [])
        else if ¬ tokens.any (isPort .source) then
          .ok (refuse "filter_no_ports" [])
        else
          match chooseControl (raw.map caseless) controlIp with
          | .error message => .error (.value message)
          | .ok (.error reason) => .ok (refuse reason [])
          | .ok (.ok control) =>
              match parseIn (atom control) frames tokens with
              | .error .overflow => .error .recursion
              | .error (.fault fault) => .ok (refuse (parseReason fault) [])
              | .ok node => verdictIn frames node

theorem verdictIn_eq (frames : ℕ) (node : Ast ℕ) :
    verdictIn frames node = if node.height ≤ frames then .ok (verdict node) else .error .recursion := by
  rw [verdictIn,Ast.variablesIn_eq]
  by_cases h : node.height ≤ frames
  · have heval : ∀ assignment, (node.evalIn assignment frames).map (!·) = pure (!node.eval assignment) := by
      intro assignment
      rw [Ast.evalIn_eq assignment h]
      rfl
    rw [if_pos h,if_pos h]
    simp only [heval,List.allM_pure]
    rw [verdict,portVariables]
    by_cases hfew : 12 < (node.variables.dedup.mergeSort fun a b => decide (decimal a ≤ decimal b)).length
    · rw [if_pos hfew,if_pos hfew]
    · rw [if_neg hfew,if_neg hfew]
      cases hall : excludesControl node (node.variables.dedup.mergeSort fun a b => decide (decimal a ≤ decimal b)) with
      | true =>
        rw [excludesControl] at hall
        rw [hall]
        rfl
      | false =>
        rw [excludesControl] at hall
        rw [hall]
        rfl
  · rw [if_neg h,if_neg h]

structure Examined (text : Option Text) (tokens : List (Token Lexeme)) : Prop where
  ne_nil : strip (text.getD []) ≠ []
  length_le : (strip (text.getD [])).length ≤ 8192
  read : lex none (strip (text.getD [])) = some tokens
  destination : tokens.any (isPort .destination) = false
  source : tokens.any (isPort .source) = true

def WellFormed (text : Option Text) : Prop :=
  ∃ s : Source Lexeme .disjunction, lex none (strip (text.getD [])) = some (s.tokens id)

def Rejects (frames : ℕ) (text controlIp : Option Text) : Prop :=
  ∃ result, parseControlFilterIn frames text controlIp = .ok result ∧ (¬WellFormed text → result.ok = false)

structure Readable (frames : ℕ) (text controlIp : Option Text) (tokens : List (Token Lexeme)) : Prop where
  addresses : controlIp.getD [] = [] → ∀ value ∈ namedAddresses ((strip (text.getD [])).map caseless),
    (IpAddress.read value).isSome = true
  calls : ∀ control, chooseControl ((strip (text.getD [])).map caseless) controlIp = .ok (.ok control) →
    fits (atom control) frames tokens = true
  height : ∀ control, chooseControl ((strip (text.getD [])).map caseless) controlIp = .ok (.ok control) →
    ∀ (s : Source Lexeme .disjunction) (node : Ast ℕ), s.tokens id = tokens → Source.IsTree (atom control) s node →
      node.height ≤ frames

theorem not_examined (frames : ℕ) {text : Option Text} (controlIp : Option Text) (h : ∀ tokens, ¬Examined text tokens) :
    ∃ result, parseControlFilterIn frames text controlIp = .ok result ∧ result.ok = false := by
  rw [parseControlFilterIn]
  by_cases hraw : strip (text.getD []) = [] ∨ 8192 < (strip (text.getD [])).length
  · exact ⟨_,if_pos hraw,rfl⟩
  · rw [if_neg hraw]
    rw [not_or] at hraw
    cases htokens : lex none (strip (text.getD [])) with
    | none => exact ⟨_,rfl,rfl⟩
    | some tokens =>
      dsimp only
      by_cases hdestination : tokens.any (isPort .destination) = true
      · exact ⟨_,if_pos hdestination,rfl⟩
      · rw [if_neg hdestination]
        by_cases hsource : tokens.any (isPort .source) = true
        · refine absurd ⟨hraw.1,by omega,htokens,?_,hsource⟩ (h tokens)
          simpa using hdestination
        · exact ⟨_,if_pos hsource,rfl⟩

theorem Examined.run {frames : ℕ} {text : Option Text} {tokens : List (Token Lexeme)} (h : Examined text tokens)
    (controlIp : Option Text) : parseControlFilterIn frames text controlIp =
      match chooseControl ((strip (text.getD [])).map caseless) controlIp with
      | .error message => .error (.value message)
      | .ok (.error reason) => .ok (refuse reason [])
      | .ok (.ok control) =>
          match parseIn (atom control) frames tokens with
          | .error .overflow => .error .recursion
          | .error (.fault fault) => .ok (refuse (parseReason fault) [])
          | .ok node => verdictIn frames node := by
  have hlength := h.length_le
  rw [parseControlFilterIn]
  rw [if_neg (not_or.mpr ⟨h.ne_nil,by omega⟩),h.read]
  dsimp only
  rw [h.destination,h.source,if_neg (by decide),if_neg (by decide)]

theorem chooseControl_raises (raw : Text) (controlIp : Option Text) :
    (∃ message, chooseControl raw controlIp = .error message) ↔
      ¬(controlIp.getD [] = [] → ∀ value ∈ namedAddresses raw, (IpAddress.read value).isSome = true) := by
  have hnamed : ∀ controlIp : Option Text, controlIp.getD [] = [] →
      ((∃ message, chooseControl raw controlIp = .error message) ↔
        ¬∀ value ∈ namedAddresses raw, (IpAddress.read value).isSome = true) := by
    intro controlIp hnone
    have hchoose : chooseControl raw controlIp = chooseControl raw none := by
      cases controlIp with
      | none => rfl
      | some text =>
        cases text with
        | nil => rfl
        | cons c rest => cases hnone
    obtain ⟨readNamed,choose,hread,hreturns,hraw⟩ : ∃ (readNamed : Text → Except String IpAddress)
        (choose : List IpAddress → Except String (Except String (Option IpAddress))),
        (∀ text, (readNamed text).isOk = (IpAddress.read text).isSome) ∧
        (∀ addresses message, choose addresses ≠ .error message) ∧
        chooseControl raw none = (namedAddresses raw).mapM readNamed >>= choose := by
      refine ⟨_,_,fun text => ?_,fun addresses message h => ?_,rfl⟩
      · cases IpAddress.read text <;> rfl
      · split at h <;> cases h
    have hall := isOk_mapM (l:=namedAddresses raw) (f:=readNamed)
    simp only [hread] at hall
    rw [hchoose,← hall,hraw]
    cases (namedAddresses raw).mapM readNamed with
    | error message => exact ⟨fun _ => Bool.false_ne_true,fun _ => ⟨message,rfl⟩⟩
    | ok addresses =>
      refine ⟨?_,fun h => absurd rfl h⟩
      rintro ⟨message,hmessage⟩
      exact absurd hmessage (hreturns addresses message)
  by_cases hnone : controlIp.getD [] = []
  · rw [hnamed controlIp hnone,not_iff_not]
    exact ⟨fun h _ => h,fun h => h hnone⟩
  · refine ⟨?_,fun h => absurd (fun hnil => absurd hnil hnone) h⟩
    rintro ⟨message,hmessage⟩
    obtain ⟨c,rest,hcons⟩ := List.exists_cons_of_ne_nil hnone
    have hsome : controlIp = some (c :: rest) := by
      cases controlIp with
      | none => cases hcons
      | some text => exact congrArg some hcons
    rw [hsome,chooseControl] at hmessage
    split at hmessage <;> cases hmessage

theorem rejects_of_readable (frames : ℕ) (text controlIp : Option Text)
    (hreadable : ∀ tokens, Examined text tokens → Readable frames text controlIp tokens) : Rejects frames text controlIp := by
  by_cases hexamined : ∃ tokens, Examined text tokens
  · obtain ⟨tokens,hexamined⟩ := hexamined
    have hread := hreadable tokens hexamined
    rw [Rejects,hexamined.run]
    cases hcontrol : chooseControl ((strip (text.getD [])).map caseless) controlIp with
    | error message => exact absurd hread.addresses ((chooseControl_raises _ _).mp ⟨message,hcontrol⟩)
    | ok choice =>
      cases choice with
      | error reason => exact ⟨_,rfl,fun _ => rfl⟩
      | ok control =>
        dsimp only
        rw [parseIn_eq,if_pos (hread.calls control hcontrol)]
        cases hparse : parse (atom control) tokens with
        | error fault => exact ⟨_,rfl,fun _ => rfl⟩
        | ok node =>
          obtain ⟨s,hs,htree⟩ := Source.exists_of_parse hparse
          refine ⟨verdict node,?_,fun hnot => ?_⟩
          · show verdictIn frames node = _
            rw [verdictIn_eq,if_pos (hread.height control hcontrol s node hs htree)]
          · exact absurd ⟨s,by rw [hs]; exact hexamined.read⟩ hnot
  · obtain ⟨result,hresult,hok⟩ := not_examined frames controlIp (not_exists.mp hexamined)
    exact ⟨result,hresult,fun _ => hok⟩

/-- The verification returns, and rejects what is no expression, just when the addresses that an examined text
names can be read and its calls fit. -/
theorem rejects_iff (frames : ℕ) (text controlIp : Option Text) :
    Rejects frames text controlIp ↔ ∀ tokens, Examined text tokens → Readable frames text controlIp tokens := by
  refine ⟨?_,rejects_of_readable frames text controlIp⟩
  rintro ⟨result,hresult,-⟩ tokens hexamined
  rw [hexamined.run] at hresult
  refine ⟨?_,fun control hcontrol => ?_,fun control hcontrol s node hs htree => ?_⟩
  · by_contra haddresses
    obtain ⟨message,hmessage⟩ := (chooseControl_raises _ _).mpr haddresses
    rw [hmessage] at hresult
    cases hresult
  · by_contra hfits
    rw [hcontrol] at hresult
    dsimp only at hresult
    rw [parseIn_eq,if_neg hfits] at hresult
    cases hresult
  · by_contra hheight
    have hparse : parse (atom control) tokens = .ok node := by
      rw [← hs,htree.2]
      refine Source.parse_tokens s fun a ha => ?_
      obtain ⟨tree,hread⟩ := htree.1 a ha
      rw [Source.treeOf,id,hread]
      rfl
    rw [hcontrol] at hresult
    dsimp only at hresult
    rw [parseIn_eq,hparse] at hresult
    split at hresult
    · cases hresult
    · next hfound =>
      split at hfound
      · cases hfound
      · cases hfound
    · next found hfound =>
      split at hfound
      · cases hfound
        rw [verdictIn_eq,if_neg hheight] at hresult
        cases hresult
      · cases hfound

def shortAddress : Text := "ip.DstAddr == 1.2 and tcp.SrcPort != 80".toList

theorem examined_shortAddress : Examined (some shortAddress) [.atom (.address .ip .equal "1.2".toList),.and,
    .atom (.port .source .notEqual "80".toList)] := by
  have hstrip : strip shortAddress = shortAddress := by decide
  have hlower : shortAddress.map Char.toLower =
      'i' :: "p.dstaddr == 1.2 and tcp.srcport != 80".toList := by decide
  have haddress : matchToken none ('i' :: "p.dstaddr == 1.2 and tcp.srcport != 80".toList) =
      some (.atom (.address .ip .equal "1.2".toList),' ' :: 'a' :: "nd tcp.srcport != 80".toList) := by decide
  have hand : matchToken (some ' ') ('a' :: "nd tcp.srcport != 80".toList) =
      some (.and,' ' :: 't' :: "cp.srcport != 80".toList) := by decide
  have hport : matchToken (some ' ') ('t' :: "cp.srcport != 80".toList) =
      some (.atom (.port .source .notEqual "80".toList),[]) := by decide
  refine ⟨by decide,by decide,?_,by decide,by decide⟩
  rw [Option.getD_some,hstrip]
  refine lex_of_tokenize ?_
  rw [hlower,tokenize_token (by decide) haddress,tokenize_space,tokenize_token (by decide) hand,
    tokenize_space,tokenize_token (by decide) hport,tokenize]
  rfl

/-- Without an address of the control link the short one is read before the parser, and nothing is returned. -/
theorem short_address_raises : ¬Rejects 1000 (some shortAddress) none := by
  rintro ⟨result,hresult,-⟩
  obtain ⟨message,hmessage⟩ := (chooseControl_raises ((strip shortAddress).map caseless) none).mpr fun h =>
    absurd (h rfl "1.2".toList (by decide)) (by decide)
  rw [examined_shortAddress.run,Option.getD_some,hmessage] at hresult
  cases hresult

theorem parseControlFilter_of_in {frames : ℕ} {text controlIp : Option Text} {result : Verdict}
    (h : parseControlFilterIn frames text controlIp = .ok result) : parseControlFilter text controlIp = .ok result := by
  rw [parseControlFilterIn] at h
  rw [parseControlFilter]
  by_cases hraw : strip (text.getD []) = [] ∨ 8192 < (strip (text.getD [])).length
  · rw [if_pos hraw] at h ⊢
    cases h
    rfl
  rw [if_neg hraw] at h ⊢
  cases hlex : lex none (strip (text.getD [])) with
  | none =>
    rw [hlex] at h
    cases h
    rfl
  | some tokens =>
    rw [hlex] at h
    dsimp only at h ⊢
    by_cases hdestination : tokens.any (isPort .destination) = true
    · rw [if_pos hdestination] at h ⊢
      cases h
      rfl
    rw [if_neg hdestination] at h ⊢
    by_cases hsource : ¬tokens.any (isPort .source) = true
    · rw [if_pos hsource] at h ⊢
      cases h
      rfl
    rw [if_neg hsource] at h ⊢
    cases hcontrol : chooseControl ((strip (text.getD [])).map caseless) controlIp with
    | error message =>
      rw [hcontrol] at h
      cases h
    | ok choice =>
      rw [hcontrol] at h
      cases choice with
      | error reason =>
        cases h
        rfl
      | ok control =>
        dsimp only at h ⊢
        rw [parseIn_eq] at h
        by_cases hfits : fits (atom control) frames tokens = true
        · rw [if_pos hfits] at h
          cases hparse : parse (atom control) tokens with
          | error fault =>
            rw [hparse] at h
            cases h
            rfl
          | ok node =>
            rw [hparse] at h
            change verdictIn frames node = .ok result at h
            rw [verdictIn_eq] at h
            split at h
            · cases h
              rfl
            · cases h
        · rw [if_neg hfits] at h
          cases h

/-- What the verification accepts is a filter that is false for what answers on the control link from one of the
reported ports. It accepts, with its ports, each filter of at most 8192 characters that is false whenever one of
its ports matches, if the calls of the parser and of the walks over the tree fit on the stack. -/
theorem accepted_filter_excludes (frames : ℕ) {text controlIp : Text} {control : BitVec 32}
    (hcontrol : IpAddress.read controlIp = some (.v4 control)) :
    (∀ result, parseControlFilterIn frames (some text) (some controlIp) = .ok result → result.ok = true →
      (∃ s, Writes s text) ∧
      ∀ s, Writes s text → (∀ a ∈ s.atoms, a.isLiteral = true) →
        ∀ (source : BitVec 32) (sourcePort destinationPort : BitVec 16),
          sourcePort.toNat ∈ result.ports →
          s.holds (lexemeHolds ⟨true,.v4 source control (.tcp sourcePort)⟩ destinationPort) = false) ∧
    (∀ s, Writes s text → Excluding control s → (strip text).length ≤ 8192 →
      fits (atom (some (.v4 control))) frames (s.tokens id) = true →
      (s.ast (Source.treeOf (atom (some (.v4 control))))).height ≤ frames →
      ∃ result, parseControlFilterIn frames (some text) (some controlIp) = .ok result ∧ result.ok = true ∧
        ∀ n, n ∈ result.ports ↔ n ∈ portsOf s) := by
  obtain ⟨hsound,hcomplete⟩ := accepted_excludes text hcontrol
  refine ⟨fun result hresult => hsound result (parseControlFilter_of_in hresult),fun s hs hexcluding hlength hfits hheight => ?_⟩
  obtain ⟨result,hresult,hok,hports⟩ := hcomplete s hs hexcluding hlength
  have hchoose : ∀ choice, chooseControl ((strip text).map caseless) (some controlIp) = .ok (.ok choice) →
      choice = some (.v4 control) := by
    intro choice hchoice
    rw [chooseControl_eq _ hcontrol] at hchoice
    cases hchoice
    rfl
  have hreadable : ∀ tokens, Examined (some text) tokens → Readable frames (some text) (some controlIp) tokens := by
    intro tokens hexamined
    have hread := hexamined.read
    rw [Option.getD_some,lex_of_tokenize hs] at hread
    obtain rfl := Option.some.inj hread
    refine ⟨?_,fun choice hchoice => ?_,fun choice hchoice s' node hs' htree => ?_⟩
    · by_contra haddresses
      obtain ⟨message,hmessage⟩ := (chooseControl_raises _ _).mpr haddresses
      rw [chooseControl_eq _ hcontrol] at hmessage
      cases hmessage
    · rw [hchoose choice hchoice]
      exact hfits
    · rw [htree.2,hchoose choice hchoice,Source.ast_eq_of_tokens hs']
      exact hheight
  obtain ⟨result',hresult',-⟩ := rejects_of_readable frames (some text) (some controlIp) hreadable
  have hsame := hresult.symm.trans (parseControlFilter_of_in hresult')
  cases hsame
  exact ⟨result,hresult',hok,hports⟩

/-- `tcp.SrcPort != 80`. -/
def notPort80 : Source Lexeme .disjunction :=
  .conjunction (.factor (.atom (.port .source .notEqual "80".toList)))

theorem excluding_notPort80 (control : BitVec 32) : Excluding control notPort80 where
  literals := by decide
  ports := by decide
  some := by decide
  few := by decide
  false := by
    have hports : portsOf notPort80 = [80] := by decide
    have hnumeral : numeral "80".toList = 80 := by decide
    rintro values ⟨n,hn,hvalue⟩
    rw [hports,List.mem_singleton] at hn
    rw [hn] at hvalue
    simp only [notPort80,Source.holds,lexemeUnder,hnumeral,if_true,hvalue,Bool.not_true]

def spaced (n : ℕ) : Text := "tcp.srcport".toList++(List.replicate n ' '++"!= 80".toList)

theorem strip_spaced (n : ℕ) : strip (spaced n) = spaced n := by
  unfold spaced
  rw [← List.append_assoc]
  exact strip_between (by decide) (by decide) (by decide) (by decide)

theorem writes_spaced (n : ℕ) : Writes notPort80 (spaced n) := by
  have hlower : (spaced n).map Char.toLower = spaced n := by
    have hname : "tcp.srcport".toList.map Char.toLower = "tcp.srcport".toList := by decide
    have hvalue : "!= 80".toList.map Char.toLower = "!= 80".toList := by decide
    unfold spaced
    rw [List.map_append,List.map_append,List.map_replicate,hname,hvalue]
    rfl
  have hdrop : (List.replicate n ' '++"!= 80".toList).dropWhile isSpace = "!= 80".toList := by
    rw [List.dropWhile_append_of_pos fun c hc => by rw [List.eq_of_mem_replicate hc]; decide]
    decide
  have htest : matchTest Side.source.name [.notEqual,.equal] Text.isDigit (spaced n) =
      some (.notEqual,"80".toList,[]) := by
    have hname : Side.source.name = "tcp.srcport".toList := rfl
    unfold matchTest spaced
    rw [hname,if_pos (List.prefix_append _ _),List.drop_left]
    dsimp only
    rw [hdrop]
    decide
  have hmatch : matchToken none (spaced n) = some (.atom (.port .source .notEqual "80".toList),[]) := by
    have hkeyword : matchKeyword none (spaced n) = none := rfl
    have hport : matchPort .source (spaced n) =
        some (.atom (.port .source .notEqual "80".toList),[]) := by
      rw [matchPort,htest]
      rfl
    rw [matchToken_of_head ⟨by exact nofun,by exact nofun⟩,matchWord,hkeyword,hport]
    rfl
  have hcons : spaced n = 't' :: ("cp.srcport".toList++(List.replicate n ' '++"!= 80".toList)) := rfl
  rw [Writes,strip_spaced,hlower]
  rw [hcons] at hmatch ⊢
  rw [tokenize_token (by decide) hmatch,tokenize]
  rfl

theorem fits_notPort80 : fits (atom (some (.v4 0xC0A83801))) 1000 (notPort80.tokens id) = true := by decide

theorem height_notPort80 : (notPort80.ast (Source.treeOf (atom (some (.v4 0xC0A83801))))).height ≤ 1000 := by decide +kernel

/-- The filter is accepted, and false for an answer from port 80. -/
theorem accepted_filter_excludes_port80 :
    ∃ result, parseControlFilterIn 1000 (some (spaced 1)) (some "192.168.56.1".toList) = .ok result ∧
      result.ok = true ∧ 80 ∈ result.ports ∧
      notPort80.holds (lexemeHolds ⟨true,.v4 0x0A000001 0xC0A83801 (.tcp 80)⟩ 50000) = false := by
  have hcontrol : IpAddress.read "192.168.56.1".toList = some (.v4 0xC0A83801) := by decide
  obtain ⟨result,hresult,hok,hports⟩ := (accepted_filter_excludes 1000 hcontrol).2 notPort80
    (writes_spaced 1) (excluding_notPort80 _) (by decide) fits_notPort80 height_notPort80
  have hmem : 80 ∈ result.ports := (hports 80).mpr (by decide)
  exact ⟨result,hresult,hok,hmem,((accepted_filter_excludes 1000 hcontrol).1 result hresult hok).2
    notPort80 (writes_spaced 1) (by decide) 0x0A000001 80 50000 hmem⟩

/-- With 8192 spaces the same filter is refused. -/
theorem long_filter_refused :
    Writes notPort80 (spaced 8192) ∧ Excluding 0xC0A83801 notPort80 ∧
      parseControlFilterIn 1000 (some (spaced 8192)) (some "192.168.56.1".toList) =
        .ok ⟨false,"filter_missing",[]⟩ := by
  refine ⟨writes_spaced 8192,excluding_notPort80 _,?_⟩
  have hname : "tcp.srcport".toList.length = 11 := by decide
  have hvalue : "!= 80".toList.length = 5 := by decide
  have hlength : 8192 < (spaced 8192).length := by
    unfold spaced
    rw [List.length_append,List.length_append,List.length_replicate,hname,hvalue]
    omega
  unfold parseControlFilterIn
  simp only [Option.getD_some,strip_spaced]
  rw [if_pos (Or.inr hlength)]
  rfl

end Verification
end FakeNetNG
