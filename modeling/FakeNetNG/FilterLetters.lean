import FakeNetNG.FilterTokens

/-!
# Letters without regard to case

A text without odd letters is read as it is in lower case, and a text whose tokens are all known has none.
-/

namespace FakeNetNG
namespace Verification

open Text BoolFilter ControlFilter

def Plain (text : Text) : Prop := ∀ c ∈ text, isOdd c = false

instance (text : Text) : Decidable (Plain text) := inferInstanceAs (Decidable (∀ c ∈ text, isOdd c = false))

theorem Plain.append {text rest : Text} (h : Plain text) (hrest : Plain rest) : Plain (text++rest) :=
  fun c hc => (List.mem_append.mp hc).elim (h c) (hrest c)

theorem isOdd_cases {c : Char} (h : isOdd c = true) : c = '\u017f' ∨ c = '\u0131' ∨ c = '\u0130' := by
  simpa [isOdd,or_assoc] using h

theorem not_odd_of_space {c : Char} (h : isSpace c = true) : isOdd c = false := by
  rw [Bool.eq_false_iff]
  intro hodd
  rcases isOdd_cases hodd with rfl | rfl | rfl <;> revert h <;> decide

theorem not_odd_of_digit {c : Char} (h : Text.isDigit c = true) : isOdd c = false := by
  rw [Bool.eq_false_iff]
  intro hodd
  rcases isOdd_cases hodd with rfl | rfl | rfl <;> revert h <;> decide

theorem not_odd_of_address {c : Char} (h : isAddressChar c = true) : isOdd c = false := by
  rw [Bool.eq_false_iff]
  intro hodd
  rcases isOdd_cases hodd with rfl | rfl | rfl <;> revert h <;> decide

theorem caseless_of_not_odd {c : Char} (h : isOdd c = false) : caseless c = c.toLower := by
  have hlong : c ≠ '\u017f' := by
    rintro rfl
    revert h
    decide
  rw [caseless,if_neg hlong,h,if_neg (by decide)]

theorem map_caseless {text : Text} (h : Plain text) : text.map caseless = text.map Char.toLower :=
  List.map_congr_left fun c hc => caseless_of_not_odd (h c hc)

theorem toLower_of_odd {c : Char} (h : isOdd c = true) : c.toLower = c := by
  rcases isOdd_cases h with rfl | rfl | rfl <;> decide

theorem plain_of_map {text : Text} (h : Plain (text.map Char.toLower)) : Plain text := by
  intro c hc
  rw [Bool.eq_false_iff]
  intro hodd
  have hlower := h c.toLower (List.mem_map_of_mem hc)
  rw [toLower_of_odd hodd,hodd] at hlower
  cases hlower

theorem isSpace_toLower (c : Char) : isSpace c.toLower = isSpace c := by
  by_cases hupper : c.val ≥ 'A'.val ∧ c.val ≤ 'Z'.val
  · have hletters : ∀ n ∈ List.range 26, isSpace (Char.ofNat (65+n)) = false ∧
        isSpace (Char.ofNat (65+n)).toLower = false := by decide
    have hlow : 65 ≤ c.toNat := hupper.1
    have hhigh : c.toNat ≤ 90 := hupper.2
    have hletter := hletters (c.toNat-65) (List.mem_range.mpr (by omega))
    rw [show 65+(c.toNat-65) = c.toNat by omega,Char.ofNat_toNat] at hletter
    rw [hletter.1,hletter.2]
  · have hsame : c.toLower = c := dif_neg hupper
    rw [hsame]

theorem plain_takeWhile {isValue : Char → Bool} (text : Text) (hvalue : ∀ c, isValue c = true → isOdd c = false) :
    Plain (text.takeWhile isValue) := fun c hc => hvalue c (List.mem_takeWhile_imp hc)

theorem matchTest_used {name : Text} {operators : List Comparison} {isValue : Char → Bool}
    {text value rest : Text} {operator : Comparison} (hname : Plain name)
    (hvalue : ∀ c, isValue c = true → isOdd c = false)
    (h : matchTest name operators isValue text = some (operator,value,rest)) :
    ∃ used, text = used++rest ∧ Plain used := by
  unfold matchTest at h
  split at h
  · next hstarts =>
    obtain ⟨afterName,rfl⟩ := hstarts
    rw [List.drop_left] at h
    obtain ⟨found,-,hfound⟩ := List.exists_of_findSome?_eq_some h
    split at hfound
    · next hoperator =>
      obtain ⟨afterOperator,hafter⟩ := hoperator
      dsimp only at hfound
      rw [← hafter,List.drop_left] at hfound
      split at hfound
      · cases hfound
      · simp only [Option.some.injEq,Prod.mk.injEq] at hfound
        obtain ⟨-,-,rfl⟩ := hfound
        refine ⟨name++(afterName.takeWhile isSpace++(found.text++(afterOperator.takeWhile isSpace++
          (afterOperator.dropWhile isSpace).takeWhile isValue))),?_,?_⟩
        · rw [List.append_assoc,List.append_assoc,List.append_assoc,List.append_assoc,List.takeWhile_append_dropWhile,
            List.takeWhile_append_dropWhile,hafter,List.takeWhile_append_dropWhile]
        · have hoperator : Plain found.text := by cases found <;> decide
          have hspaces : ∀ text : Text, Plain (text.takeWhile isSpace) :=
            fun text => plain_takeWhile text fun _ => not_odd_of_space
          exact hname.append ((hspaces _).append (hoperator.append ((hspaces _).append (plain_takeWhile _ hvalue))))
    · cases hfound
  · cases h

theorem matchKeyword_used {previous : Option Char} {text rest : Text} {token : Token Lexeme}
    (h : matchKeyword previous text = some (token,rest)) : ∃ used, text = used++rest ∧ Plain used := by
  have hplain : ∀ entry ∈ keywords, Plain entry.1 := by decide
  unfold matchKeyword at h
  split at h
  · cases h
  · obtain ⟨⟨word,found⟩,hentry,hfound⟩ := List.exists_of_findSome?_eq_some h
    dsimp only at hfound
    split at hfound
    · next hstarts =>
      obtain ⟨after,rfl⟩ := hstarts.1
      rw [List.drop_left] at hfound
      simp only [Option.some.injEq,Prod.mk.injEq] at hfound
      obtain ⟨-,rfl⟩ := hfound
      exact ⟨word,rfl,hplain (word,found) hentry⟩
    · cases hfound

theorem matchPort_used {side : Side} {text rest : Text} {token : Token Lexeme}
    (h : matchPort side text = some (token,rest)) : ∃ used, text = used++rest ∧ Plain used := by
  obtain ⟨⟨operator,value,after⟩,hmatch,hfound⟩ := Option.map_eq_some_iff.mp h
  simp only [Prod.mk.injEq] at hfound
  obtain ⟨-,rfl⟩ := hfound
  exact matchTest_used (by cases side <;> decide) (fun _ => not_odd_of_digit) hmatch

theorem matchAddress_used {family : Family} {text rest : Text} {token : Token Lexeme}
    (h : matchAddress family text = some (token,rest)) : ∃ used, text = used++rest ∧ Plain used := by
  obtain ⟨⟨operator,value,after⟩,hmatch,hfound⟩ := Option.map_eq_some_iff.mp h
  simp only [Prod.mk.injEq] at hfound
  obtain ⟨-,rfl⟩ := hfound
  exact matchTest_used (by cases family <;> decide) (fun _ => not_odd_of_address) hmatch

theorem matchToken_used {previous : Option Char} {text rest : Text} {token : Token Lexeme}
    (h : matchToken previous text = some (token,rest)) : ∃ used, text = used++rest ∧ Plain used := by
  unfold matchToken at h
  split at h
  · simp only [Option.some.injEq,Prod.mk.injEq] at h
    obtain ⟨-,rfl⟩ := h
    exact ⟨['('],rfl,by decide⟩
  · simp only [Option.some.injEq,Prod.mk.injEq] at h
    obtain ⟨-,rfl⟩ := h
    exact ⟨[')'],rfl,by decide⟩
  · simp only [matchWord,Option.orElse_eq_orElse,Option.orElse_eq_or,Option.or_eq_some_iff] at h
    rcases h with h | ⟨-,h | ⟨-,h | ⟨-,h | ⟨-,h⟩⟩⟩⟩
    · exact matchKeyword_used h
    · exact matchPort_used h
    · exact matchPort_used h
    · exact matchAddress_used h
    · exact matchAddress_used h

theorem plain_of_tokenize {previous : Option Char} {text : Text} {tokens : List (Token Lexeme)}
    (h : tokenize previous text = some tokens) : Plain text := by
  fun_induction tokenize previous text generalizing tokens with
  | case1 => exact nofun
  | case2 previous c rest hspace ih =>
    intro b hb
    obtain rfl | hb := List.mem_cons.mp hb
    · exact not_odd_of_space hspace
    · exact ih h b hb
  | case3 => cases h
  | case4 previous c rest hspace token after hmatch hle ih =>
    obtain ⟨others,hothers,-⟩ := Option.map_eq_some_iff.mp h
    obtain ⟨used,hused,hplain⟩ := matchToken_used hmatch
    rw [hused]
    exact hplain.append (ih hothers)

/-- A text without odd letters is read in lower case. -/
theorem lex_of_plain {previous : Option Char} {text : Text} (h : Plain text) :
    lex previous text = tokenize previous (text.map Char.toLower) := by
  fun_induction lex previous text with
  | case1 previous => rw [List.map_nil,tokenize]
  | case2 previous c rest hspace ih =>
    have hc := h c List.mem_cons_self
    rw [ih fun b hb => h b (List.mem_cons_of_mem c hb),List.map_cons,tokenize,
      if_pos (by rw [isSpace_toLower]; exact hspace),caseless_of_not_odd hc]
  | case3 previous c rest hspace hnone =>
    rw [map_caseless h,List.map_cons] at hnone
    rw [List.map_cons]
    exact (tokenize_unknown (by rw [isSpace_toLower]; simpa using hspace) hnone).symm
  | case4 previous c rest hspace token after hmatch hle size ih =>
    have hplain : ((c :: rest).take size).any isOdd = false := by
      rw [List.any_eq_false]
      intro b hb
      rw [h b (List.mem_of_mem_take hb)]
      exact Bool.false_ne_true
    have hafter : ((c :: rest).drop size).map Char.toLower = after := by
      obtain ⟨used,hused,-⟩ := matchToken_used hmatch
      have hlength := congrArg List.length hused
      rw [List.length_map,List.length_cons,List.length_append] at hlength
      rw [List.map_drop,← map_caseless h,hused,List.drop_left' (by omega)]
    rw [ih fun b hb => h b (List.mem_of_mem_drop hb),hafter,hplain,if_neg (by decide),map_caseless h]
    rw [map_caseless h,List.map_cons] at hmatch
    rw [List.map_cons,tokenize_token (by rw [isSpace_toLower]; simpa using hspace) hmatch,List.length_map]

/-- A text whose tokens are all known has no odd letters. -/
theorem plain_of_lex {previous : Option Char} {text : Text} {tokens : List (Token Lexeme)}
    (h : lex previous text = some tokens) (hknown : .atom .unknown ∉ tokens) : Plain text := by
  fun_induction lex previous text generalizing tokens with
  | case1 => exact nofun
  | case2 previous c rest hspace ih =>
    intro b hb
    obtain rfl | hb := List.mem_cons.mp hb
    · exact not_odd_of_space hspace
    · exact ih h hknown b hb
  | case3 => cases h
  | case4 previous c rest hspace token after hmatch hle size =>
    rename_i ih
    obtain ⟨others,hothers,rfl⟩ := Option.map_eq_some_iff.mp h
    rw [List.mem_cons,not_or] at hknown
    have htake : Plain ((c :: rest).take (rest.length+1-after.length)) := by
      intro b hb
      rw [Bool.eq_false_iff]
      intro hodd
      refine hknown.1 ?_
      rw [if_pos (List.any_eq_true.mpr ⟨b,hb,hodd⟩)]
    rw [← List.take_append_drop (rest.length+1-after.length) (c :: rest)]
    exact htake.append (ih hothers hknown.2)

/-- The tokens of a text that is read in lower case. -/
theorem lex_of_tokenize {text : Text} {tokens : List (Token Lexeme)}
    (h : tokenize none (text.map Char.toLower) = some tokens) : lex none text = some tokens := by
  rw [lex_of_plain (plain_of_map (plain_of_tokenize h)),h]

theorem tokenize_of_lex {text : Text} {tokens : List (Token Lexeme)} (h : lex none text = some tokens)
    (hknown : .atom .unknown ∉ tokens) : tokenize none (text.map Char.toLower) = some tokens := by
  rw [← lex_of_plain (plain_of_lex h hknown),h]

theorem plain_dotted (address : BitVec 32) : Plain (IpAddress.dotted address) := by
  intro c hc
  obtain hdigit | rfl := IpAddress.mem_dotted hc
  · exact not_odd_of_digit (isDigit_of_ascii hdigit)
  · decide

theorem plain_decimal (n : ℕ) : Plain (decimal n) :=
  fun _ hc => not_odd_of_digit (isDigit_of_ascii (isDigit_of_mem_decimal hc))

theorem plain_clause (a : Clause) : Plain a.text := by
  have htest : ∀ {name comparison value : Text}, Plain name → Plain comparison → Plain value →
      Plain (name++ ' ' :: comparison++ ' ' :: value) := by
    intro name comparison value hname hcomparison hvalue
    have hspace : ∀ {text : Text}, Plain text → Plain (' ' :: text) := fun {text} h => Plain.append (show Plain [' '] by decide) h
    exact (hname.append (hspace hcomparison)).append (hspace hvalue)
  cases a with
  | destination comparison address =>
    exact htest (by decide) (by cases comparison <;> decide) (plain_dotted address)
  | source address => exact htest (by decide) (by decide) (plain_dotted address)
  | port n => exact htest (by decide) (by decide) (plain_decimal n)
  | _ => decide

theorem plain_print {level : Level} (s : Source Clause level) : Plain (s.print Clause.text) := by
  induction s with
  | atom a => exact plain_clause a
  | group s ih =>
    have hopening : Plain ['('] := by decide
    exact (hopening.append ih).append (by decide)
  | not s ih => exact Plain.append (by decide) ih
  | factor s ih => exact ih
  | and s t ihs iht => exact (ihs.append (by decide)).append iht
  | conjunction s ih => exact ih
  | or s t ihs iht => exact (ihs.append (by decide)).append iht

end Verification
end FakeNetNG
