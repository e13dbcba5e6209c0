import FakeNetNG.IpText

/-!
# Port specifications

The engine and its editor each expand a port specification. The editor strips the items, skips the
blank ones and splits a range once; the engine does none of this.
-/

namespace FakeNetNG
namespace Text

/-- The blanks around a number. `int` does not take the four separators that `strip` takes. -/
def isIntSpace (c : Char) : Bool := isSpace c && !(28 ≤ c.toNat && c.toNat ≤ 31)

def intStrip (text : Text) : Text := (text.dropWhile isIntSpace).rdropWhile isIntSpace

/-- Decimal digits, with single underscores between them. -/
def readDigitGroups (text : Text) : Option ℕ :=
  let groups := split '_' text
  if groups.all fun group => group ≠ [] && group.all isDigit then readDigits groups.flatten else none

def readSigned : Text → Option ℤ
  | '-' :: digits => (readDigitGroups digits).map fun n : ℕ => -(n:ℤ)
  | '+' :: digits => (readDigitGroups digits).map fun n : ℕ => (n:ℤ)
  | digits => (readDigitGroups digits).map fun n : ℕ => (n:ℤ)

/-- `int(text)`. -/
def readInt (text : Text) : Option ℤ := readSigned (intStrip text)

example : readInt " 6_0 ".toList = some 60 := by decide
example : readInt "5-".toList = none := by decide

/-- No blank around the text is one that `int` refuses. -/
def Clean (text : Text) : Prop := intStrip text = strip text

instance (text : Text) : Decidable (Clean text) := decEq _ _

theorem isSpace_of_isIntSpace {c : Char} (h : isIntSpace c = true) : isSpace c = true := by
  simp only [isIntSpace,Bool.and_eq_true] at h
  exact h.1

theorem isSpace_of_digit {c : Char} (h : isDigit c = true) : isSpace c = false := by
  have hzeros : ∀ first ∈ zeros, ∀ k < 10, first+k ≠ 32 ∧ ¬(9 ≤ first+k ∧ first+k ≤ 13) ∧
      ¬(28 ≤ first+k ∧ first+k ≤ 31) ∧ ¬(0x2000 ≤ first+k ∧ first+k ≤ 0x200a) ∧
      first+k ∉ [0x85,0xa0,0x1680,0x2028,0x2029,0x202f,0x205f,0x3000] := by decide
  obtain ⟨value,hvalue⟩ := Option.isSome_iff_exists.mp h
  obtain ⟨first,hfirst,-⟩ := Option.map_eq_some_iff.mp hvalue
  have hmem := List.mem_of_find?_eq_some hfirst
  have hbounds := List.find?_some hfirst
  simp only [decide_eq_true_eq] at hbounds
  have hfacts := hzeros first hmem (c.toNat-first) (by omega)
  rw [Nat.add_sub_cancel' hbounds.1] at hfacts
  have hblank : c ≠ ' ' := by
    rintro rfl
    exact hfacts.1 rfl
  simp only [isSpace,hblank,false_or,decide_eq_false_iff_not,not_or]
  exact ⟨hfacts.2.1,hfacts.2.2.1,hfacts.2.2.2.1,hfacts.2.2.2.2⟩

def isNumberChar (c : Char) : Bool := isDigit c || c = '_' || c = '-' || c = '+'

theorem isSpace_of_isNumberChar {c : Char} (h : isNumberChar c = true) : isSpace c = false := by
  simp only [isNumberChar,Bool.or_eq_true,decide_eq_true_eq] at h
  obtain ((h | rfl) | rfl) | rfl := h
  · exact isSpace_of_digit h
  · decide
  · decide
  · decide

theorem isNumberChar_of_groups {text : Text} (h : (readDigitGroups text).isSome) :
    ∀ c ∈ text, isNumberChar c = true := by
  intro c hc
  unfold readDigitGroups at h
  simp only at h
  split at h
  · next hgroups =>
    have hjoin : List.intercalate ['_'] (text.splitOn '_') = text := List.intercalate_splitOn '_'
    rw [← hjoin] at hc
    obtain hc | ⟨group,hgroup,hc⟩ := mem_join hc
    · obtain rfl := List.mem_singleton.mp hc
      decide
    · have hall := List.all_eq_true.mp hgroups group hgroup
      simp only [Bool.and_eq_true] at hall
      have hdigit := List.all_eq_true.mp hall.2 c hc
      simp [isNumberChar,hdigit]
  · cases h

theorem isNumberChar_of_readSigned {text : Text} (h : (readSigned text).isSome) :
    ∀ c ∈ text, isNumberChar c = true := by
  unfold readSigned at h
  split at h
  all_goals
    rw [Option.isSome_map] at h
    have hdigits := isNumberChar_of_groups h
  · exact List.forall_mem_cons.mpr ⟨by decide,hdigits⟩
  · exact List.forall_mem_cons.mpr ⟨by decide,hdigits⟩
  · exact hdigits

theorem dropWhile_append_of_all {α : Type} {p : α → Bool} {front rest : List α}
    (h : ∀ a ∈ front, p a = true) : (front++rest).dropWhile p = rest.dropWhile p := by
  induction front with
  | nil => rfl
  | cons a front ih => simp [h a (by simp),ih fun b hb => h b (by simp [hb])]

theorem rdropWhile_append_of_all {α : Type} {p : α → Bool} {front rest : List α}
    (h : ∀ a ∈ rest, p a = true) : (front++rest).rdropWhile p = front.rdropWhile p := by
  unfold List.rdropWhile
  rw [List.reverse_append,dropWhile_append_of_all fun a ha => h a (List.mem_reverse.mp ha)]

theorem strip_pad {front text back : Text} (hfront : ∀ c ∈ front, isSpace c = true)
    (hback : ∀ c ∈ back, isSpace c = true) : strip (front++text++back) = strip text := by
  unfold strip
  rw [List.append_assoc,dropWhile_append_of_all hfront]
  by_cases hblank : ∀ c ∈ text, isSpace c = true
  · have hnil : text.dropWhile isSpace = [] := List.dropWhile_eq_nil_iff.mpr hblank
    rw [dropWhile_append_of_all hblank,hnil,List.dropWhile_eq_nil_iff.mpr hback]
  · have hdrop : (text++back).dropWhile isSpace = text.dropWhile isSpace++back := by
      induction text with
      | nil => exact absurd (by simp) hblank
      | cons c text ih =>
        by_cases hc : isSpace c = true
        · have hrest : ¬∀ c ∈ text, isSpace c = true := fun hall =>
            hblank (List.forall_mem_cons.mpr ⟨hc,hall⟩)
          simp [hc,ih hrest]
        · simp [hc]
    rw [hdrop,rdropWhile_append_of_all hback]

theorem dropWhile_parts {α : Type} (p : α → Bool) (l : List α) :
    ∃ front, (∀ a ∈ front, p a = true) ∧ l = front++l.dropWhile p :=
  ⟨l.takeWhile p,fun _ ha => List.mem_takeWhile_imp ha,List.takeWhile_append_dropWhile.symm⟩

theorem rdropWhile_parts {α : Type} (p : α → Bool) (l : List α) :
    ∃ back, (∀ a ∈ back, p a = true) ∧ l = l.rdropWhile p++back := by
  refine ⟨(l.reverse.takeWhile p).reverse,fun a ha => ?_,?_⟩
  · exact List.mem_takeWhile_imp (List.mem_reverse.mp ha)
  · unfold List.rdropWhile
    rw [← List.reverse_append,List.takeWhile_append_dropWhile,List.reverse_reverse]

theorem intStrip_parts (text : Text) : ∃ front back, (∀ c ∈ front, isSpace c = true) ∧
    (∀ c ∈ back, isSpace c = true) ∧ text = front++intStrip text++back := by
  obtain ⟨front,hfront,hdrop⟩ := dropWhile_parts isIntSpace text
  obtain ⟨back,hback,hrdrop⟩ := rdropWhile_parts isIntSpace (text.dropWhile isIntSpace)
  refine ⟨front,back,fun c hc => isSpace_of_isIntSpace (hfront c hc),
    fun c hc => isSpace_of_isIntSpace (hback c hc),?_⟩
  rw [List.append_assoc]
  nth_rewrite 1 [hdrop]
  rw [intStrip]
  exact congrArg (front++·) hrdrop

theorem strip_parts (text : Text) : ∃ front back, (∀ c ∈ front, isSpace c = true) ∧
    (∀ c ∈ back, isSpace c = true) ∧ text = front++strip text++back := by
  obtain ⟨front,hfront,hdrop⟩ := dropWhile_parts isSpace text
  obtain ⟨back,hback,hrdrop⟩ := rdropWhile_parts isSpace (text.dropWhile isSpace)
  refine ⟨front,back,hfront,hback,?_⟩
  rw [List.append_assoc]
  nth_rewrite 1 [hdrop]
  rw [strip]
  exact congrArg (front++·) hrdrop

@[simp] theorem strip_strip (text : Text) : strip (strip text) = strip text := by
  obtain ⟨front,back,hfront,hback,htext⟩ := strip_parts text
  nth_rewrite 2 [htext]
  rw [strip_pad hfront hback]

theorem strip_intStrip (text : Text) : strip (intStrip text) = strip text := by
  obtain ⟨front,back,hfront,hback,htext⟩ := intStrip_parts text
  nth_rewrite 2 [htext]
  rw [strip_pad hfront hback]

theorem clean_strip (text : Text) : Clean (strip text) := by
  have hself := strip_strip text
  unfold Clean
  rw [hself]
  generalize strip text = word at hself
  have hfront : word.dropWhile isIntSpace = word := by
    cases word with
    | nil => rfl
    | cons c rest =>
      have hc : isSpace c = false := by
        by_contra hspace
        have hlength := congrArg List.length hself
        have hle : (strip (c :: rest)).length ≤ rest.length := by
          unfold strip
          rw [List.dropWhile_cons_of_pos (by simpa using hspace)]
          exact (List.rdropWhile_prefix _ _).length_le.trans (List.dropWhile_sublist _).length_le
        simp at hlength
        omega
      simp [isIntSpace,hc]
  unfold intStrip
  rw [hfront,List.rdropWhile_eq_self_iff]
  intro hne hlast
  have hspace := isSpace_of_isIntSpace hlast
  have hstrip : word.rdropWhile isSpace ≠ word := by
    rw [ne_eq,List.rdropWhile_eq_self_iff]
    exact fun h => h hne hspace
  have hdrop : word.dropWhile isSpace = word := by
    have hsuffix := List.dropWhile_suffix (l:=word) isSpace
    refine hsuffix.eq_of_length_le ?_
    have hlength := congrArg List.length hself
    unfold strip at hlength
    have hle := (List.rdropWhile_prefix isSpace (word.dropWhile isSpace)).length_le
    omega
  unfold strip at hself
  rw [hdrop] at hself
  exact hstrip hself

/-- `int` reads a text if and only if it reads the stripped text and refuses none of the blanks. -/
theorem readInt_iff {text : Text} {n : ℤ} :
    readInt text = some n ↔ Clean text ∧ readInt (strip text) = some n := by
  have hstripped : readInt (strip text) = readSigned (strip text) := by
    rw [readInt,clean_strip,strip_strip]
  rw [hstripped]
  constructor
  · intro h
    have hchars : ∀ c ∈ intStrip text, isNumberChar c = true :=
      isNumberChar_of_readSigned (by rw [← readInt,h]; rfl)
    have hself : strip (intStrip text) = intStrip text :=
      strip_of_all fun c hc => isSpace_of_isNumberChar (hchars c hc)
    have hclean : Clean text := by
      rw [Clean,← hself,strip_intStrip]
    exact ⟨hclean,by rw [← hclean,← readInt,h]⟩
  · rintro ⟨hclean,h⟩
    rw [readInt,hclean,h]

/-- `text.split(separator, 1)`, for a text with the separator. -/
def splitFirst (separator : Char) (text : Text) : Text × Text :=
  (text.takeWhile (· ≠ separator),(text.dropWhile (· ≠ separator)).drop 1)

theorem splitFirst_eq {separator : Char} {front : Text} (h : separator ∉ front) (rest : Text) :
    splitFirst separator (front++separator :: rest) = (front,rest) := by
  have hfront : ∀ c ∈ front, decide (c ≠ separator) = true := by
    intro c hc
    simpa using fun heq : c = separator => h (heq ▸ hc)
  unfold splitFirst
  rw [List.takeWhile_append_of_pos hfront,dropWhile_append_of_all hfront]
  simp

theorem split_eq_pair {separator : Char} {front back : Text} (hfront : separator ∉ front)
    (hback : separator ∉ back) : split separator (front++separator :: back) = [front,back] := by
  rw [split,List.splitOn_append_cons_self_of_not_mem hfront,List.splitOn_eq_singleton hback]

theorem split_eq_three {separator : Char} {front middle : Text} (back : Text) (hfront : separator ∉ front)
    (hmiddle : separator ∉ middle) :
    ∃ last more, split separator (front++separator :: (middle++separator :: back)) =
      front :: middle :: last :: more := by
  obtain ⟨last,more,hlast⟩ := List.exists_cons_of_ne_nil (List.splitOn_ne_nil separator back)
  refine ⟨last,more,?_⟩
  rw [split,List.splitOn_append_cons_self_of_not_mem hfront,
    List.splitOn_append_cons_self_of_not_mem hmiddle,hlast]

end Text

open Text

/-- `range(low, high + 1)`. -/
def portRange (low high : ℤ) : List ℤ := (List.range (high+1-low).toNat).map fun i : ℕ => low+i

namespace Fakenet

def expandItem (item : Text) : Option (List ℤ) :=
  if '-' ∉ item then (readInt item).map ([·])
  else
    match split '-' item with
    | [low,high] => (readInt low).bind fun low => (readInt high).map (portRange low)
    | _ => none

/-- `Fakenet.expand_ports`. -/
def expandPorts (portsList : Text) : Option (List ℤ) :=
  ((split ',' portsList).mapM expandItem).map List.flatten

end Fakenet

namespace ConfigModel

def expandToken (token : Text) : Option (List ℤ) :=
  let token := strip token
  if token = [] then some []
  else if '-' ∈ token then
    let ends := splitFirst '-' token
    (readInt ends.1).bind fun low => (readInt ends.2).map (portRange low)
  else (readInt token).map ([·])

/-- `configmodel.expand_ports`. -/
def expandPorts (portsSpec : Text) : Option (List ℤ) :=
  ((split ',' portsSpec).mapM expandToken).map List.flatten

end ConfigModel

/-- An item that needs none of what the editor does more than the engine: it is not blank, it has at
most one hyphen, and the blanks around its numbers are blanks of a number. -/
structure PlainItem (item : Text) : Prop where
  notBlank : strip item ≠ []
  oneHyphen : item.count '-' ≤ 1
  clean : ∀ number ∈ split '-' item, Clean number

theorem isSome_readInt {text : Text} (h : (readInt (strip text)).isSome) :
    (readInt text).isSome ↔ Clean text := by
  obtain ⟨n,hn⟩ := Option.isSome_iff_exists.mp h
  constructor
  · intro hread
    obtain ⟨m,hm⟩ := Option.isSome_iff_exists.mp hread
    exact (readInt_iff.mp hm).1
  · intro hclean
    rw [readInt_iff.mpr ⟨hclean,hn⟩]
    rfl

theorem isSome_readInt_strip {text : Text} (h : (readInt text).isSome) : (readInt (strip text)).isSome := by
  obtain ⟨n,hn⟩ := Option.isSome_iff_exists.mp h
  rw [(readInt_iff.mp hn).2]
  rfl

theorem not_mem_strip {c : Char} {text : Text} (h : c ∉ text) : c ∉ strip text := by
  obtain ⟨front,back,-,-,htext⟩ := strip_parts text
  intro hc
  refine h ?_
  rw [htext]
  simp [hc]

theorem hyphen_not_mem_blank {blank : Text} (h : ∀ c ∈ blank, isSpace c = true) : '-' ∉ blank :=
  fun hmem => absurd (h '-' hmem) (by decide)

theorem expandItem_iff {item : Text} {ports : List ℤ} (h : ConfigModel.expandToken item = some ports) :
    (Fakenet.expandItem item).isSome ↔ PlainItem item := by
  obtain ⟨front,back,hfront,hback,hitem⟩ := strip_parts item
  by_cases hblank : strip item = []
  · have hhyphen : '-' ∉ item := by
      rw [hitem,hblank]
      simp [hyphen_not_mem_blank hfront,hyphen_not_mem_blank hback]
    have hread : readInt item = none := by
      by_contra hsome
      have hstrip := isSome_readInt_strip (Option.isSome_iff_ne_none.mpr hsome)
      rw [hblank] at hstrip
      exact absurd hstrip (by decide)
    simp only [Fakenet.expandItem,hhyphen,not_false_eq_true,if_true,hread]
    exact ⟨fun hsome => absurd hsome (by simp),fun hplain => absurd hblank hplain.notBlank⟩
  unfold ConfigModel.expandToken at h
  simp only [hblank,if_false] at h
  by_cases hhyphen : '-' ∈ strip item
  · obtain ⟨low,high,htoken,hlow⟩ := List.eq_append_cons_of_mem hhyphen
    rw [if_pos hhyphen,htoken,splitFirst_eq hlow] at h
    obtain ⟨m,hm,h⟩ := Option.bind_eq_some_iff.mp h
    obtain ⟨n,hn,-⟩ := Option.map_eq_some_iff.mp h
    have hends : item = (front++low)++ '-' :: (high++back) := by
      rw [hitem,htoken]
      simp
    have hlow' : '-' ∉ front++low := by simp [hyphen_not_mem_blank hfront,hlow]
    have hmem : '-' ∈ item := by simp [hends]
    unfold Fakenet.expandItem
    rw [if_neg (not_not.mpr hmem)]
    by_cases hhigh : '-' ∈ high
    · obtain ⟨middle,rest,hhigh',hmiddle⟩ := List.eq_append_cons_of_mem hhigh
      obtain ⟨last,more,hsplit⟩ := split_eq_three (rest++back) hlow' hmiddle
      have hitem' : item = (front++low)++ '-' :: (middle++ '-' :: (rest++back)) := by
        rw [hends,hhigh']
        simp
      rw [hitem',hsplit]
      refine ⟨fun hsome => absurd hsome (by simp),fun hplain => ?_⟩
      have hcount := hplain.oneHyphen
      simp only [List.count_append,List.count_cons_self] at hcount
      omega
    · have hhigh' : '-' ∉ high++back := by simp [hyphen_not_mem_blank hback,hhigh]
      have hsplit : split '-' item = [front++low,high++back] := by
        rw [hends,split_eq_pair hlow' hhigh']
      have hstripLow : strip (front++low) = strip low := by
        simpa using (strip_pad hfront (by simp) : strip (front++low++[]) = strip low)
      have hstripHigh : strip (high++back) = strip high := by
        simpa using (strip_pad (by simp) hback : strip ([]++high++back) = strip high)
      have hcleanLow : (readInt (front++low)).isSome ↔ Clean (front++low) :=
        isSome_readInt (by rw [hstripLow]; exact isSome_readInt_strip (by rw [hm]; rfl))
      have hcleanHigh : (readInt (high++back)).isSome ↔ Clean (high++back) :=
        isSome_readInt (by rw [hstripHigh]; exact isSome_readInt_strip (by rw [hn]; rfl))
      have hcount : item.count '-' ≤ 1 := by
        rw [hends,List.count_append,List.count_cons_self,List.count_eq_zero_of_not_mem hlow',
          List.count_eq_zero_of_not_mem hhigh']
      have hsome : ((readInt (front++low)).bind fun low =>
          (readInt (high++back)).map (portRange low)).isSome ↔
          (readInt (front++low)).isSome ∧ (readInt (high++back)).isSome := by
        cases readInt (front++low) <;> simp
      rw [hsplit]
      show ((readInt (front++low)).bind fun low => (readInt (high++back)).map (portRange low)).isSome ↔ _
      rw [hsome,hcleanLow,hcleanHigh]
      refine ⟨fun hclean => ⟨hblank,hcount,?_⟩,fun hplain => ?_⟩
      · rw [hsplit]
        simpa using hclean
      · have hclean := hplain.clean
        rw [hsplit] at hclean
        simpa using hclean
  · rw [if_neg hhyphen] at h
    obtain ⟨n,hn,-⟩ := Option.map_eq_some_iff.mp h
    have hhyphen' : '-' ∉ item := by
      rw [hitem]
      simp [hyphen_not_mem_blank hfront,hyphen_not_mem_blank hback,hhyphen]
    have hclean : (readInt item).isSome ↔ Clean item := isSome_readInt (by rw [hn]; rfl)
    have hsplit : split '-' item = [item] := List.splitOn_eq_singleton hhyphen'
    unfold Fakenet.expandItem
    rw [if_pos hhyphen',Option.isSome_map,hclean]
    refine ⟨fun hc => ⟨hblank,?_,?_⟩,fun hplain => ?_⟩
    · rw [List.count_eq_zero_of_not_mem hhyphen']
      exact Nat.zero_le 1
    · rw [hsplit]
      simpa using hc
    · have hc := hplain.clean
      rw [hsplit] at hc
      simpa using hc

theorem isSome_mapM {α β : Type} {f : α → Option β} {l : List α} :
    (l.mapM f).isSome ↔ ∀ a ∈ l, (f a).isSome := by
  induction l with
  | nil => simp
  | cons a l ih =>
    rw [List.mapM_cons,List.forall_mem_cons,← ih]
    cases f a <;> cases l.mapM f <;> simp

/-- The specifications that the engine expands, among those that the editor expands. -/
def PlainPorts (portsSpec : Text) : Prop := ∀ item ∈ split ',' portsSpec, PlainItem item

theorem expandPorts_iff {portsSpec : Text} {ports : List ℤ}
    (h : ConfigModel.expandPorts portsSpec = some ports) :
    (Fakenet.expandPorts portsSpec).isSome ↔ PlainPorts portsSpec := by
  have htokens : ∀ item ∈ split ',' portsSpec, (ConfigModel.expandToken item).isSome := by
    rw [← isSome_mapM,← Option.isSome_map (f:=List.flatten)]
    exact Option.isSome_of_eq_some h
  rw [Fakenet.expandPorts,Option.isSome_map,isSome_mapM]
  refine forall₂_congr fun item hitem => ?_
  obtain ⟨ports,hports⟩ := Option.isSome_iff_exists.mp (htokens item hitem)
  exact expandItem_iff hports

end FakeNetNG
