import FakeNetNG.EgressPolicy
import FakeNetNG.GuiSoundness
import FakeNetNG.WireName

/-!
# Hostnames as sequences of labels

What `normalize_hostname` accepts, label by label, and the entries of the allow list that cover a
name. Wildcards are matched by the end of the text, which is the end of the sequence of labels
because the compared end begins with a dot.
-/

namespace FakeNetNG

namespace Hostname

variable {beyondAscii : String → Option String} {value name suffix : List Char}

/-- Letters, digits and inner hyphens. -/
structure IsLabel (label : List Char) : Prop where
  nonempty : label ≠ []
  length : label.length ≤ 63
  chars : ∀ c ∈ label, c.isAlphanum = true ∨ c = '-'
  first : label.head? ≠ some '-'
  last : label.getLast? ≠ some '-'

structure IsName (name : List Char) : Prop where
  length : name.length ≤ 253
  labels : ∀ label ∈ name.splitOn '.', IsLabel label

def Ascii (value : List Char) : Prop := ∀ c ∈ value, c.toNat < 128

def lower (value : List Char) : List Char := value.map Char.toLower

/-- Without white space around and without one dot at the end. -/
def trimmed (value : List Char) : List Char := dropDot (strip value)

theorem toLower_facts : ∀ n < 128, isLabelChar (Char.ofNat n).toLower = (Char.ofNat n).isAlphanum ∧
    ((Char.ofNat n).toLower = '-' ↔ Char.ofNat n = '-') ∧
    ((Char.ofNat n).toLower = '.' ↔ Char.ofNat n = '.') ∧
    isSpace (Char.ofNat n).toLower = isSpace (Char.ofNat n) ∧
    (Char.ofNat n).toLower.toLower = (Char.ofNat n).toLower ∧ (Char.ofNat n).toLower.toNat < 128 := by
  decide

section Ascii

variable {c : Char} (hc : c.toNat < 128)

include hc

theorem isLabelChar_toLower : isLabelChar c.toLower = c.isAlphanum := by
  simpa using (toLower_facts c.toNat hc).1

theorem toLower_eq_hyphen : c.toLower = '-' ↔ c = '-' := by simpa using (toLower_facts c.toNat hc).2.1

theorem toLower_eq_dot : c.toLower = '.' ↔ c = '.' := by simpa using (toLower_facts c.toNat hc).2.2.1

theorem isSpace_toLower : isSpace c.toLower = isSpace c := by
  simpa using (toLower_facts c.toNat hc).2.2.2.1

theorem toLower_toLower : c.toLower.toLower = c.toLower := by
  have hfacts := (toLower_facts c.toNat hc).2.2.2.2.1
  rw [Char.ofNat_toNat] at hfacts
  exact hfacts

theorem toLower_lt : c.toLower.toNat < 128 := by simpa using (toLower_facts c.toNat hc).2.2.2.2.2

end Ascii

theorem Ascii.of_subset {text : List Char} (h : Ascii value) (hsub : ∀ c ∈ text, c ∈ value) : Ascii text :=
  fun c hc => h c (hsub c hc)

theorem Ascii.label {label : List Char} (h : Ascii value) (hlabel : label ∈ value.splitOn '.') : Ascii label :=
  h.of_subset fun _ hc => (Text.mem_split.mp ⟨label,hlabel,hc⟩).1

theorem Ascii.lower (h : Ascii value) : Ascii (lower value) := by
  intro c hc
  obtain ⟨d,hd,rfl⟩ := List.mem_map.mp hc
  exact toLower_lt (h d hd)

theorem lower_lower (h : Ascii value) : lower (lower value) = lower value := by
  simp only [Hostname.lower,List.map_map]
  exact List.map_congr_left fun c hc => toLower_toLower (h c hc)

theorem splitOn_lower (h : Ascii value) : (lower value).splitOn '.' = (value.splitOn '.').map lower := by
  induction value with
  | nil => rfl
  | cons c value ih =>
    have ih := ih (h.of_subset fun c hc => List.mem_cons_of_mem _ hc)
    have hdot : (c.toLower == '.') = (c == '.') := by
      rw [Bool.eq_iff_iff,beq_iff_eq,beq_iff_eq]
      exact toLower_eq_dot (h c List.mem_cons_self)
    show (c.toLower :: Hostname.lower value).splitOn '.' = _
    rw [List.splitOn_cons_eq_if_modifyHead,List.splitOn_cons_eq_if_modifyHead,hdot,ih]
    split
    · rfl
    · cases value.splitOn '.' <;> rfl

theorem any_toLower_iff {text : List Char} {t : Option Char} (h : Ascii text)
    (hend : ∀ c ∈ t, c ∈ text ∧ (c.isAlphanum = true ∨ c = '-')) :
    (t.map Char.toLower).any isLabelChar = true ↔ t.isSome ∧ t ≠ some '-' := by
  cases t with
  | none => simp
  | some c =>
    obtain ⟨hc,hchar⟩ := hend c rfl
    simp only [Option.map_some,Option.any_some,isLabelChar_toLower (h c hc),Option.isSome_some,true_and,
      ne_eq,Option.some.injEq]
    constructor
    · rintro halpha rfl
      exact absurd halpha (by decide)
    · exact hchar.resolve_right

theorem validLabel_lower {label : List Char} (h : Ascii label) :
    validLabel (lower label) = true ↔ IsLabel label := by
  have hall : (lower label).all (fun c => isLabelChar c || c == '-') = true ↔
      ∀ c ∈ label, c.isAlphanum = true ∨ c = '-' := by
    simp only [lower,List.all_map,List.all_eq_true,Function.comp,Bool.or_eq_true,beq_iff_eq]
    refine forall₂_congr fun c hc => ?_
    rw [isLabelChar_toLower (h c hc),toLower_eq_hyphen (h c hc)]
  have hfirst := fun (hchars : ∀ c ∈ label, c.isAlphanum = true ∨ c = '-') => any_toLower_iff h (t:=label.head?) fun c hc =>
    ⟨List.mem_of_mem_head? hc,hchars c (List.mem_of_mem_head? hc)⟩
  have hlast := fun (hchars : ∀ c ∈ label, c.isAlphanum = true ∨ c = '-') => any_toLower_iff h (t:=label.getLast?) fun c hc =>
    ⟨List.mem_of_mem_getLast? hc,hchars c (List.mem_of_mem_getLast? hc)⟩
  simp only [validLabel,Bool.and_eq_true,hall,decide_eq_true_eq]
  simp only [lower,List.length_map,List.head?_map,List.getLast?_map]
  constructor
  · rintro ⟨⟨⟨hlength,hf⟩,hl⟩,hchars⟩
    obtain ⟨hsome,hf⟩ := (hfirst hchars).mp hf
    exact ⟨by simpa using hsome,hlength,hchars,hf,((hlast hchars).mp hl).2⟩
  · intro hlabel
    refine ⟨⟨⟨hlabel.length,(hfirst hlabel.chars).mpr ⟨?_,hlabel.first⟩⟩,
      (hlast hlabel.chars).mpr ⟨?_,hlabel.last⟩⟩,hlabel.chars⟩
    · simpa using hlabel.nonempty
    · simpa using hlabel.nonempty

theorem IsName.chars (h : IsName name) {c : Char} (hc : c ∈ name) : c.isAlphanum = true ∨ c = '-' ∨ c = '.' := by
  by_cases hdot : c = '.'
  · exact .inr (.inr hdot)
  · obtain ⟨label,hlabel,hmem⟩ := Text.mem_split.mpr ⟨hc,hdot⟩
    exact ((h.labels label hlabel).chars c hmem).imp_right .inl

/-- A name does not end in a dot: an empty label would follow. -/
theorem IsName.getLast?_ne (h : IsName name) : name.getLast? ≠ some '.' := by
  intro hlast
  obtain ⟨front,rfl⟩ := List.getLast?_eq_some_iff.mp hlast
  have hlabel : [] ∈ (front++['.']).splitOn '.' := by
    rw [List.splitOn_append_cons_self]
    simp
  exact (h.labels [] hlabel).nonempty rfl

theorem IsName.ne_nil (h : IsName name) : name ≠ [] := by
  rintro rfl
  exact (h.labels [] (by simp)).nonempty rfl

theorem isName_lower (h : Ascii value) : IsName (lower value) ↔ IsName value := by
  have hlabels : (∀ label ∈ (lower value).splitOn '.', IsLabel label) ↔
      ∀ label ∈ value.splitOn '.', IsLabel label := by
    rw [splitOn_lower h,List.forall_mem_map]
    refine forall₂_congr fun label hlabel => ?_
    have hascii := h.label hlabel
    rw [← validLabel_lower hascii.lower,lower_lower hascii,validLabel_lower hascii]
  constructor
  · exact fun hname => ⟨by simpa [lower] using hname.length,hlabels.mp hname.labels⟩
  · exact fun hname => ⟨by simpa [lower] using hname.length,hlabels.mpr hname.labels⟩

theorem lt_of_isAlphanum {c : Char} (h : c.isAlphanum = true) : c.toNat < 128 := by
  obtain halpha | hdigit := Bool.or_eq_true_iff.mp h
  · obtain hupper | hlower := Bool.or_eq_true_iff.mp halpha
    · exact (UInt32.le_iff_toNat_le.mp (of_decide_eq_true hupper).2).trans_lt (by decide)
    · exact (UInt32.le_iff_toNat_le.mp (of_decide_eq_true (Bool.and_eq_true_iff.mp hlower).2)).trans_lt (by decide)
  · exact (UInt32.le_iff_toNat_le.mp (of_decide_eq_true (Bool.and_eq_true_iff.mp hdigit).2)).trans_lt (by decide)

theorem nameChar_facts : ∀ n < 128, (Char.ofNat n).isAlphanum = true ∨ Char.ofNat n = '-' ∨ Char.ofNat n = '.' →
    isSpace (Char.ofNat n) = false ∧ Char.ofNat n ≠ '/' ∧ Char.ofNat n ≠ '*' ∧ Char.ofNat n ≠ ':' := by
  decide

theorem lt_of_nameChar {c : Char} (h : c.isAlphanum = true ∨ c = '-' ∨ c = '.') : c.toNat < 128 := by
  obtain h | rfl | rfl := h
  · exact lt_of_isAlphanum h
  · decide
  · decide

theorem isName_chars {c : Char} (h : c.isAlphanum = true ∨ c = '-' ∨ c = '.') :
    isSpace c = false ∧ c ≠ '/' ∧ c ≠ '*' ∧ c ≠ ':' := by
  have hfacts := nameChar_facts c.toNat (lt_of_nameChar h)
  rw [Char.ofNat_toNat] at hfacts
  exact hfacts h

theorem dropDot_mem {c : Char} (hc : c ∈ value) (hdot : c ≠ '.') : c ∈ dropDot value := by
  unfold dropDot
  split
  · next hlast =>
    obtain ⟨front,rfl⟩ := List.getLast?_eq_some_iff.mp hlast
    simpa [hdot] using hc
  · exact hc

theorem malformed_eq_false (h : IsName (dropDot value)) : malformed value = false := by
  have hne : value ≠ [] := by
    rintro rfl
    exact h.ne_nil rfl
  have hchars : ∀ c ∈ value, isSpace c = false ∧ c ≠ '/' ∧ c ≠ '*' ∧ c ≠ ':' := by
    intro c hc
    by_cases hdot : c = '.'
    · exact isName_chars (.inr (.inr hdot))
    · exact isName_chars (h.chars (dropDot_mem hc hdot))
  have hspace : value.any isSpace = false := List.any_eq_false.mpr fun c hc => by simp [(hchars c hc).1]
  have hslash : '/' ∉ value := fun hc => (hchars _ hc).2.1 rfl
  have hstar : '*' ∉ value := fun hc => (hchars _ hc).2.2.1 rfl
  have hcolon : ':' ∉ value := fun hc => (hchars _ hc).2.2.2 rfl
  simp [malformed,hne,hspace,hslash,hstar,hcolon]

theorem encodeAscii_of_isName (h : IsName name) : encodeAscii name = some (String.ofList name) := by
  have hdots : (name.splitOn '.').dropLast.any (fun label => label.isEmpty || 64 ≤ label.length) = false := by
    refine List.any_eq_false.mpr fun label hlabel => ?_
    have hvalid := h.labels label (List.dropLast_subset _ hlabel)
    have hlength := hvalid.length
    simp [hvalid.nonempty]
    omega
  have hlast : (name.splitOn '.').getLast?.any (64 ≤ ·.length) = false := by
    cases hlabel : (name.splitOn '.').getLast? with
    | none => rfl
    | some label =>
      have hlength := (h.labels label (List.mem_of_getLast? hlabel)).length
      simp
      omega
  simp [encodeAscii,hdots,hlast]

theorem ascii_strip (h : Ascii value) : Ascii (strip value) := h.of_subset fun _ hc => strip_subset hc

theorem ascii_dropDot (h : Ascii value) : Ascii (dropDot value) := by
  refine h.of_subset fun c hc => ?_
  unfold dropDot at hc
  split at hc
  · exact List.dropLast_subset _ hc
  · exact hc

theorem ascii_trimmed (h : Ascii value) : Ascii (trimmed value) := ascii_dropDot (ascii_strip h)

theorem validLabels_iff (h : Ascii value) :
    ((lower value).splitOn '.').any (!validLabel ·) = false ↔ ∀ label ∈ value.splitOn '.', IsLabel label := by
  rw [List.any_eq_false,splitOn_lower h,List.forall_mem_map]
  refine forall₂_congr fun label hlabel => ?_
  rw [← validLabel_lower (h.label hlabel)]
  simp

/-- The last check: the length and the labels of the encoded name. -/
theorem labelCheck_iff (h : Ascii value) :
    (253 < (lower value).length || ((lower value).splitOn '.').any (!validLabel ·)) = false ↔ IsName value := by
  rw [Bool.or_eq_false_iff,validLabels_iff h,decide_eq_false_iff_not,not_lt,lower,List.length_map]
  exact ⟨fun hvalid => ⟨hvalid.1,hvalid.2⟩,fun hname => ⟨hname.length,hname.labels⟩⟩

theorem normalizeHostname_eq (idna : String → Option String) (value : String) :
    normalizeHostname idna value =
      if malformed (strip value.toList) then
        .error (.policyConfig "domain must be a hostname without scheme, port, path or wildcard")
      else
        match idna (String.ofList (trimmed value.toList)) with
        | none => .error (.policyConfig "domain is not valid IDNA")
        | some encoded =>
          if 253 < (lower encoded.toList).length ||
              ((lower encoded.toList).splitOn '.').any (!validLabel ·) then
            .error (.policyConfig "domain has invalid labels")
          else .ok (String.ofList (lower encoded.toList)) := rfl

/-- A text below 128 is accepted if it is a name between the white space, and the name is its lower
case. -/
theorem normalizeHostname_eq_ok_iff {value : String} (hascii : Ascii value.toList) (name : String) :
    normalizeHostname (idnaCodec beyondAscii) value = .ok name ↔
      IsName (trimmed value.toList) ∧ name.toList = lower (trimmed value.toList) := by
  have htrimmed := ascii_trimmed hascii
  rw [normalizeHostname_eq]
  constructor
  · intro h
    split_ifs at h
    cases hidna : idnaCodec beyondAscii (String.ofList (trimmed value.toList)) with
    | none => simp [hidna] at h
    | some encoded =>
      have hencoded := idnaCodec_ascii htrimmed hidna
      simp only [hidna,hencoded] at h
      split at h
      · cases h
      · next hcheck =>
        cases h
        exact ⟨(labelCheck_iff htrimmed).mp (Bool.not_eq_true _ ▸ hcheck),by simp⟩
  · rintro ⟨hvalid,hname⟩
    have hidna : idnaCodec beyondAscii (String.ofList (trimmed value.toList)) =
        some (String.ofList (trimmed value.toList)) := by
      rw [idnaCodec,if_pos (by simpa [Ascii] using htrimmed),String.toList_ofList,encodeAscii_of_isName hvalid]
    have hcheck := (labelCheck_iff htrimmed).mpr hvalid
    rw [← hname] at hcheck
    simp only [malformed_eq_false hvalid,hidna,String.toList_ofList,← hname,hcheck,String.ofList_toList,
      Bool.false_eq_true,if_false]

theorem dropWhile_lower (h : Ascii value) : (lower value).dropWhile isSpace = lower (value.dropWhile isSpace) := by
  induction value with
  | nil => rfl
  | cons c value ih =>
    have hspace := isSpace_toLower (h c List.mem_cons_self)
    show List.dropWhile isSpace (c.toLower :: lower value) = _
    rw [List.dropWhile_cons,List.dropWhile_cons,hspace]
    split
    · exact ih (h.of_subset fun c hc => List.mem_cons_of_mem _ hc)
    · rfl

theorem lower_reverse (value : List Char) : lower value.reverse = (lower value).reverse := List.map_reverse

theorem strip_lower (h : Ascii value) : strip (lower value) = lower (strip value) := by
  have hdrop : Ascii (value.dropWhile isSpace) := h.of_subset fun _ hc => (List.dropWhile_sublist _).subset hc
  have hreverse : Ascii (value.dropWhile isSpace).reverse := hdrop.of_subset fun _ hc => List.mem_reverse.mp hc
  rw [strip,dropWhile_lower h,← lower_reverse,dropWhile_lower hreverse,← lower_reverse]
  rfl

theorem dropDot_lower (h : Ascii value) : dropDot (lower value) = lower (dropDot value) := by
  have hlast : (lower value).getLast? = some '.' ↔ value.getLast? = some '.' := by
    rw [lower,List.getLast?_map,Option.map_eq_some_iff]
    constructor
    · rintro ⟨c,hc,hdot⟩
      rw [hc,(toLower_eq_dot (h c (List.mem_of_getLast? hc))).mp hdot]
    · exact fun hdot => ⟨'.',hdot,rfl⟩
  unfold dropDot
  simp only [hlast]
  split
  · exact List.map_dropLast.symm
  · rfl

theorem trimmed_lower (h : Ascii value) : trimmed (lower value) = lower (trimmed value) := by
  rw [trimmed,strip_lower h,dropDot_lower (ascii_strip h)]
  rfl

/-- Normalising a text does what normalising its lower case does. -/
theorem normalizeHostname_lower {value other : String} (hvalue : Ascii value.toList)
    (hother : Ascii other.toList) (h : lower other.toList = lower value.toList) :
    (normalizeHostname (idnaCodec beyondAscii) other).toOption =
      (normalizeHostname (idnaCodec beyondAscii) value).toOption := by
  have htrimmed : lower (trimmed other.toList) = lower (trimmed value.toList) := by
    rw [← trimmed_lower hother,h,trimmed_lower hvalue]
  have hiff : ∀ name, normalizeHostname (idnaCodec beyondAscii) other = .ok name ↔
      normalizeHostname (idnaCodec beyondAscii) value = .ok name := by
    intro name
    rw [normalizeHostname_eq_ok_iff hother,normalizeHostname_eq_ok_iff hvalue,
      ← isName_lower (ascii_trimmed hother),htrimmed,isName_lower (ascii_trimmed hvalue)]
  have hmem : ∀ (result : Except PolicyError String) name, result.toOption = some name ↔ result = .ok name := by
    intro result name
    cases result <;> simp [Except.toOption]
  refine Option.ext fun name => ?_
  rw [hmem,hmem,hiff]

theorem normalizeHostname_idem {value name : String} (hascii : Ascii value.toList)
    (h : normalizeHostname (idnaCodec beyondAscii) value = .ok name) :
    normalizeHostname (idnaCodec beyondAscii) name = .ok name := by
  have htrimmed := ascii_trimmed hascii
  obtain ⟨hvalid,hname⟩ := (normalizeHostname_eq_ok_iff hascii name).mp h
  have hlower : IsName name.toList := hname ▸ (isName_lower htrimmed).mpr hvalid
  have hsame : trimmed name.toList = name.toList := by
    have hspace : ∀ c ∈ name.toList, isSpace c = false := fun c hc => (isName_chars (hlower.chars hc)).1
    rw [trimmed,strip_eq_self (fun c hc => hspace c (List.mem_of_mem_head? hc))
      (fun c hc => hspace c (List.mem_of_mem_getLast? hc)),dropDot,if_neg hlower.getLast?_ne]
  refine (normalizeHostname_eq_ok_iff (hname ▸ htrimmed.lower) name).mpr ⟨?_,?_⟩
  · rwa [hsame]
  · rw [hsame,hname,lower_lower htrimmed]

/-- The suffix of a wildcard. -/
def wildcard (suffix : String) : String := "*."++suffix

/-- The labels of the name end in those of the suffix, and there are more. -/
def StrictlyExtends (name suffix : List Char) : Prop :=
  ∃ front ≠ [], name.splitOn '.' = front++suffix.splitOn '.'

theorem intercalate_append {front labels : List (List Char)} (hfront : front ≠ []) (hlabels : labels ≠ []) :
    ['.'].intercalate (front++labels) = ['.'].intercalate front ++ '.' :: ['.'].intercalate labels := by
  induction front with
  | nil => exact absurd rfl hfront
  | cons label front ih =>
    by_cases hmore : front = []
    · simp [hmore,List.intercalate_cons_of_ne_nil hlabels]
    · have htail : front++labels ≠ [] := by simp [hmore]
      rw [List.cons_append,List.intercalate_cons_of_ne_nil htail,ih hmore,
        List.intercalate_cons_of_ne_nil hmore]
      simp

/-- For names without an empty label the end of the text is the end of the labels. -/
theorem strictlyExtends_iff (h : ∀ label ∈ name.splitOn '.', label ≠ []) :
    StrictlyExtends name suffix ↔ '.' :: suffix <:+ name ∧ ('.' :: suffix).length < name.length := by
  constructor
  · rintro ⟨front,hfront,hname⟩
    have htext : name = ['.'].intercalate front ++ '.' :: suffix := by
      have hsplit : name = ['.'].intercalate (name.splitOn '.') := (List.intercalate_splitOn '.').symm
      rw [hsplit,hname,intercalate_append hfront (List.splitOn_ne_nil _ _),
        List.intercalate_splitOn]
    obtain ⟨label,front,rfl⟩ := List.exists_cons_of_ne_nil hfront
    have hlabel : label ≠ [] := h label (by simp [hname])
    have hpos : 0 < (['.'].intercalate (label :: front)).length := by
      have hlength := List.length_pos_of_ne_nil hlabel
      cases front with
      | nil => simpa using hlength
      | cons second front =>
        rw [List.intercalate_cons_of_ne_nil (by simp),List.length_append,List.length_append]
        omega
    rw [htext]
    refine ⟨List.suffix_append _ _,?_⟩
    rw [List.length_append]
    omega
  · rintro ⟨⟨front,rfl⟩,hlength⟩
    exact ⟨front.splitOn '.',List.splitOn_ne_nil _ _,List.splitOn_append_cons_self _ _⟩

theorem validLabels_of_ok {idna : String → Option String} {value name : String}
    (h : normalizeHostname idna value = .ok name) : ∀ label ∈ name.toList.splitOn '.', validLabel label = true := by
  rw [normalizeHostname_eq] at h
  split_ifs at h
  split at h
  · cases h
  split at h
  · cases h
  next hcheck =>
  cases h
  rw [String.toList_ofList]
  intro label hlabel
  rw [Bool.not_eq_true,Bool.or_eq_false_iff,List.any_eq_false] at hcheck
  simpa using hcheck.2 label hlabel

/-- The labels of every normalised name have a character. -/
theorem labels_ne_nil {idna : String → Option String} {value name : String}
    (h : normalizeHostname idna value = .ok name) : ∀ label ∈ name.toList.splitOn '.', label ≠ [] := by
  rintro label hlabel rfl
  simpa [validLabel] using validLabels_of_ok h [] hlabel

end Hostname

namespace PolicyConfig

variable (cfg : PolicyConfig) {name : String}

/-- The configuration with these entries. -/
def withDomains (exact suffixes : List String) : PolicyConfig :=
  { cfg with allowedDomains := exact, allowedWildcards := suffixes.map Hostname.wildcard }

theorem wildcard_suffix (suffix : String) : (Hostname.wildcard suffix).toList.drop 1 = '.' :: suffix.toList := by
  simp [Hostname.wildcard]

/-- A name is covered by its own entry or by a wildcard whose labels it extends. -/
theorem matchAllowedDomain_iff (exact suffixes : List String)
    (h : ∀ label ∈ name.toList.splitOn '.', label ≠ []) :
    (∃ entry, (cfg.withDomains exact suffixes).matchAllowedDomain name = some entry) ↔
      name ∈ exact ∨ ∃ suffix ∈ suffixes, Hostname.StrictlyExtends name.toList suffix.toList := by
  have hcovers : ∀ suffix, Hostname.StrictlyExtends name.toList suffix.toList ↔
      ((Hostname.wildcard suffix).toList.drop 1).isSuffixOf name.toList = true ∧
        ((Hostname.wildcard suffix).toList.drop 1).length < name.toList.length := by
    intro suffix
    rw [Hostname.strictlyExtends_iff h,wildcard_suffix,List.isSuffixOf_iff_suffix]
  by_cases hexact : name ∈ exact
  · simp [matchAllowedDomain,withDomains,hexact]
  · simp only [matchAllowedDomain,withDomains,hexact,if_false,false_or,hcovers]
    rw [← Option.isSome_iff_exists,List.find?_isSome]
    simp

theorem matchAllowedDomain_entry (exact suffixes : List String)
    (h : ∀ label ∈ name.toList.splitOn '.', label ≠ []) {entry : String}
    (hentry : (cfg.withDomains exact suffixes).matchAllowedDomain name = some entry) :
    entry = name ∧ name ∈ exact ∨ ∃ suffix ∈ suffixes, entry = Hostname.wildcard suffix ∧
      Hostname.StrictlyExtends name.toList suffix.toList := by
  by_cases hexact : name ∈ exact
  · simp only [matchAllowedDomain,withDomains,hexact,if_true,Option.some.injEq] at hentry
    exact .inl ⟨hentry.symm,hexact⟩
  · simp only [matchAllowedDomain,withDomains,hexact,if_false] at hentry
    obtain ⟨suffix,hsuffix,rfl⟩ := List.mem_map.mp (List.mem_of_find?_eq_some hentry)
    have hfound := List.find?_some hentry
    rw [wildcard_suffix,Bool.and_eq_true,List.isSuffixOf_iff_suffix,decide_eq_true_eq] at hfound
    exact .inr ⟨suffix,hsuffix,rfl,(Hostname.strictlyExtends_iff h).mpr hfound⟩

end PolicyConfig

namespace EgressConfig

variable {idna : String → Option String}

/-- The text is a name that was normalised. -/
def Normalised (idna : String → Option String) (name : Text) : Prop :=
  ∃ value, Hostname.normalizeHostname idna value = .ok (String.ofList name)

theorem ok_of_map {ε α β : Type} {m : Except ε α} {f : α → β} {b : β} (h : m.map f = .ok b) :
    ∃ a, m = .ok a ∧ f a = b := by
  cases m with
  | error e => cases h
  | ok a => exact ⟨a,rfl,Except.ok.inj h⟩

theorem normalizeAllowedDomain_ok {value entry : Text} (h : normalizeAllowedDomain idna value = .ok entry) :
    Normalised idna entry ∨ ∃ suffix, entry = Validator.wildcardPrefix++suffix ∧ Normalised idna suffix := by
  simp only [normalizeAllowedDomain] at h
  split at h
  · obtain ⟨name,hname,rfl⟩ := ok_of_map h
    exact .inr ⟨name.toList,rfl,_,by simpa using hname⟩
  · obtain ⟨name,hname,rfl⟩ := ok_of_map h
    exact .inl ⟨_,by simpa using hname⟩

theorem mem_of_mapM_ok {ε α β : Type} {f : α → Except ε β} {l : List α} {l' : List β} (h : l.mapM f = .ok l')
    {b : β} (hb : b ∈ l') : ∃ a ∈ l, f a = .ok b := by
  induction l generalizing l' with
  | nil =>
    cases h
    cases hb
  | cons a l ih =>
    rw [List.mapM_cons] at h
    obtain ⟨c,hc,hrest⟩ := ok_of_bind h
    obtain ⟨l'',hl,hlast⟩ := ok_of_bind hrest
    cases hlast
    rcases List.mem_cons.mp hb with rfl | hb
    · exact ⟨a,List.mem_cons_self,hc⟩
    · obtain ⟨d,hd,hdb⟩ := ih hl hb
      exact ⟨d,List.mem_cons_of_mem _ hd,hdb⟩

theorem not_normalised_wildcard {suffix : Text} : ¬Normalised idna (Validator.wildcardPrefix++suffix) := by
  rintro ⟨value,h⟩
  have hlabels := Hostname.validLabels_of_ok h
  have hsplit : (Validator.wildcardPrefix++suffix).splitOn '.' = ['*'] :: suffix.splitOn '.' :=
    List.splitOn_append_cons_self ['*'] suffix
  rw [String.toList_ofList,hsplit] at hlabels
  exact absurd (hlabels ['*'] List.mem_cons_self) (by decide)

/-- The exact entries are names, and the wildcards are `*.` before a name. -/
theorem parseAllowedDomains_entries {raw : Text} {exact wildcards : List Text}
    (h : parseAllowedDomains idna raw = .ok (exact,wildcards)) :
    (∀ entry ∈ exact, Normalised idna entry) ∧
      ∀ entry ∈ wildcards, ∃ suffix, entry = Validator.wildcardPrefix++suffix ∧ Normalised idna suffix := by
  obtain ⟨entries,hentries,hpartition⟩ := ok_of_map h
  rw [List.partition_eq_filter_filter,Prod.mk.injEq] at hpartition
  obtain ⟨rfl,rfl⟩ := hpartition
  have hparsed : ∀ entry ∈ entries, Normalised idna entry ∨
      ∃ suffix, entry = Validator.wildcardPrefix++suffix ∧ Normalised idna suffix := by
    intro entry hentry
    obtain ⟨item,-,hitem⟩ := mem_of_mapM_ok hentries hentry
    exact normalizeAllowedDomain_ok hitem
  constructor
  · intro entry hentry
    obtain ⟨hmem,hshape⟩ := List.mem_filter.mp hentry
    obtain hname | ⟨suffix,rfl,-⟩ := hparsed entry hmem
    · exact hname
    · simp at hshape
  · intro entry hentry
    obtain ⟨hmem,hshape⟩ := List.mem_filter.mp hentry
    obtain hname | ⟨suffix,rfl,hsuffix⟩ := hparsed entry hmem
    · simp only [Function.comp,decide_not,Bool.not_not,decide_eq_true_eq] at hshape
      obtain ⟨suffix,rfl⟩ := hshape
      exact absurd hname not_normalised_wildcard
    · exact ⟨suffix,rfl,hsuffix⟩

end EgressConfig

/-- Names are normalised and matched label by label. -/
theorem hostname_exact (beyondAscii : String → Option String) (cfg : PolicyConfig) :
    (∀ value : String, Hostname.Ascii value.toList →
      (∀ name, Hostname.normalizeHostname (Hostname.idnaCodec beyondAscii) value = .ok name ↔
        Hostname.IsName (Hostname.trimmed value.toList) ∧
          name.toList = Hostname.lower (Hostname.trimmed value.toList)) ∧
      (∀ name, Hostname.normalizeHostname (Hostname.idnaCodec beyondAscii) value = .ok name →
        Hostname.normalizeHostname (Hostname.idnaCodec beyondAscii) name = .ok name) ∧
      ∀ other : String, Hostname.Ascii other.toList →
        Hostname.lower other.toList = Hostname.lower value.toList →
        (Hostname.normalizeHostname (Hostname.idnaCodec beyondAscii) other).toOption =
          (Hostname.normalizeHostname (Hostname.idnaCodec beyondAscii) value).toOption) ∧
    ∀ value name : String, Hostname.normalizeHostname (Hostname.idnaCodec beyondAscii) value = .ok name →
      ∀ exact suffixes : List String,
        ((∃ entry, (cfg.withDomains exact suffixes).matchAllowedDomain name = some entry) ↔
          name ∈ exact ∨ ∃ suffix ∈ suffixes, Hostname.StrictlyExtends name.toList suffix.toList) ∧
        ∀ entry, (cfg.withDomains exact suffixes).matchAllowedDomain name = some entry →
          entry = name ∧ name ∈ exact ∨ ∃ suffix ∈ suffixes, entry = Hostname.wildcard suffix ∧
            Hostname.StrictlyExtends name.toList suffix.toList := by
  refine ⟨fun value hvalue => ⟨Hostname.normalizeHostname_eq_ok_iff hvalue,
    fun name => Hostname.normalizeHostname_idem hvalue,
    fun other hother => Hostname.normalizeHostname_lower hvalue hother⟩,fun value name hname exact suffixes => ?_⟩
  have hlabels := Hostname.labels_ne_nil hname
  exact ⟨cfg.matchAllowedDomain_iff exact suffixes hlabels,
    fun entry => cfg.matchAllowedDomain_entry exact suffixes hlabels⟩

/-- A strict subdomain of a wildcard, and a name that only ends like one. -/
theorem hostname_exact_example :
    Hostname.normalizeHostname (Hostname.idnaCodec fun _ => none) "api.example.com" = .ok "api.example.com" ∧
      ¬∃ entry, ((⟨[],[],.drop,8443,.dotted 8 8 8 8,none,[],Dict.empty,fun _ => none⟩ :
        PolicyConfig).withDomains [] ["example.com"]).matchAllowedDomain "evil-example.com" = some entry := by
  have h := hostname_exact (fun _ => none) ⟨[],[],.drop,8443,.dotted 8 8 8 8,none,[],Dict.empty,fun _ => none⟩
  refine ⟨(h.1 " API.Example.com. " (by unfold Hostname.Ascii; decide)).2.1 "api.example.com" (by decide),?_⟩
  rw [(h.2 "evil-example.com" "evil-example.com" (by decide) [] ["example.com"]).1]
  rintro (hexact | ⟨suffix,hsuffix,front,hne,hfront⟩)
  · cases hexact
  · obtain rfl := List.mem_singleton.mp hsuffix
    have hlength := congrArg List.length hfront
    have hname : ("evil-example.com".toList.splitOn '.').length = 2 := by decide
    have hsuffix : ("example.com".toList.splitOn '.').length = 2 := by decide
    rw [List.length_append,hname,hsuffix] at hlength
    exact hne (List.length_eq_zero_iff.mp (by omega))

end FakeNetNG
