import FakeNetNG.ClientHelloGrammar
import FakeNetNG.ClientHelloSplits

/-!
# The server name on the wire

The egress decision is made on the normalised name while the relay forwards the bytes as
they came. The two are the same name up to letter case and one trailing dot exactly when
the bytes carry no white space at their ends, which the normaliser strips.
-/

namespace FakeNetNG

namespace Hostname

/-- What the `idna` codec does with text below 128: it checks the lengths of the labels and
leaves the text as it is. -/
def encodeAscii (value : List Char) : Option String :=
  let labels := value.splitOn '.'
  if labels.dropLast.any (fun label => label.isEmpty || 64 ≤ label.length) ||
      labels.getLast?.any (64 ≤ ·.length) then none
  else some (String.ofList value)

/-- The `idna` codec; other text goes through `beyondAscii`. -/
def idnaCodec (beyondAscii : String → Option String) (value : String) : Option String :=
  if value.toList.all (·.toNat < 128) then encodeAscii value.toList else beyondAscii value

theorem idnaCodec_ascii {beyondAscii : String → Option String} {value : List Char} {encoded : String}
    (hascii : ∀ c ∈ value, c.toNat < 128)
    (h : idnaCodec beyondAscii (String.ofList value) = some encoded) : encoded.toList = value := by
  have hall : (String.ofList value).toList.all (·.toNat < 128) = true := by
    simpa using hascii
  rw [idnaCodec,if_pos hall,encodeAscii] at h
  split at h
  · cases h
  · simpa using (congrArg String.toList (Option.some.inj h)).symm

theorem strip_subset {value : List Char} {c : Char} (h : c ∈ strip value) : c ∈ value := by
  rw [strip,List.mem_reverse] at h
  have hfront := (List.dropWhile_sublist _).subset h
  exact (List.dropWhile_sublist _).subset (List.mem_reverse.mp hfront)

theorem strip_eq_self {value : List Char} (hhead : ∀ c ∈ value.head?, isSpace c = false)
    (hlast : ∀ c ∈ value.getLast?, isSpace c = false) : strip value = value := by
  have hfix : ∀ text : List Char, (∀ c ∈ text.head?, isSpace c = false) →
      text.dropWhile isSpace = text := by
    intro text h
    cases text with
    | nil => rfl
    | cons c text => simp [h c (by simp)]
  rw [strip,hfix value hhead,hfix,List.reverse_reverse]
  rwa [List.head?_reverse]

theorem normalizeHostname_ok {idna : String → Option String} {value : String} {d : String}
    (h : normalizeHostname idna value = .ok d) : ∃ encoded,
      (∀ c ∈ strip value.toList, isSpace c = false) ∧
      idna (String.ofList (if (strip value.toList).getLast? = some '.' then (strip value.toList).dropLast
        else strip value.toList)) = some encoded ∧ d.toList = encoded.toList.map Char.toLower := by
  unfold normalizeHostname at h
  dsimp only at h
  by_cases hbad : malformed (strip value.toList) = true
  · rw [if_pos hbad] at h
    cases h
  · rw [if_neg hbad] at h
    have hspace : ∀ c ∈ strip value.toList, isSpace c = false := by
      simp only [malformed,Bool.or_eq_true,not_or,Bool.not_eq_true,List.any_eq_false] at hbad
      exact hbad.2
    split at h
    · cases h
    · rename_i encoded hidna
      split_ifs at h
      refine ⟨encoded,hspace,hidna,?_⟩
      simpa using (congrArg String.toList (Except.ok.inj h)).symm

end Hostname

namespace ClientHello

/-- The bytes of ASCII white space. -/
def blank (b : UInt8) : Bool := (9 ≤ b && b ≤ 13) || (28 ≤ b && b ≤ 32)

def Unpadded (raw : List UInt8) : Prop :=
  (∀ b ∈ raw.head?, blank b = false) ∧ ∀ b ∈ raw.getLast?, blank b = false

/-- The bytes are the name, up to letter case and one trailing dot. -/
def SameName (raw : List UInt8) (d : String) : Prop :=
  (asciiText raw).toList.map Char.toLower = d.toList.map Char.toLower ∨
    (asciiText raw).toList.map Char.toLower = (d.toList++['.']).map Char.toLower

theorem toLower_ascii : ∀ n < 128, Hostname.isSpace (Char.ofNat n).toLower = blank (UInt8.ofNat n) ∧
    Hostname.isSpace (Char.ofNat n) = blank (UInt8.ofNat n) ∧
      (Char.ofNat n).toLower.toLower = (Char.ofNat n).toLower ∧ (Char.ofNat n).toNat = n := by
  decide

theorem toLower_byte {b : UInt8} (h : b < 128) :
    Hostname.isSpace (Char.ofNat b.toNat).toLower = blank b ∧
      Hostname.isSpace (Char.ofNat b.toNat) = blank b ∧
        (Char.ofNat b.toNat).toLower.toLower = (Char.ofNat b.toNat).toLower ∧
          (Char.ofNat b.toNat).toNat < 128 := by
  obtain ⟨hlower,hspace,htwice,hval⟩ := toLower_ascii b.toNat h
  rw [UInt8.ofNat_toNat] at hlower hspace
  exact ⟨hlower,hspace,htwice,hval.trans_lt h⟩

theorem sameName_iff_unpadded {beyondAscii : String → Option String} {raw : List UInt8} {d : String}
    (h : Names (Hostname.idnaCodec beyondAscii) raw d) : SameName raw d ↔ Unpadded raw := by
  obtain ⟨hraw,hnorm⟩ := h
  have hbyte : ∀ b ∈ raw, b < 128 := by simpa using hraw
  obtain ⟨encoded,hspace,hidna,hd⟩ := Hostname.normalizeHostname_ok hnorm
  have htext : (asciiText raw).toList = raw.map fun b => Char.ofNat b.toNat := by
    simp [asciiText]
  unfold SameName
  rw [htext] at hspace hidna ⊢
  generalize hvalue : (if (Hostname.strip (raw.map fun b => Char.ofNat b.toNat)).getLast? = some '.'
    then (Hostname.strip (raw.map fun b => Char.ofNat b.toNat)).dropLast
    else Hostname.strip (raw.map fun b => Char.ofNat b.toNat)) = value at hidna
  have hstrip : ∀ c ∈ value, c ∈ Hostname.strip (raw.map fun b => Char.ofNat b.toNat) := by
    intro c hc
    rw [← hvalue] at hc
    split_ifs at hc
    · exact List.mem_of_mem_dropLast hc
    · exact hc
  have hsource : ∀ c ∈ value, ∃ b ∈ raw, Char.ofNat b.toNat = c := by
    intro c hc
    simpa using Hostname.strip_subset (hstrip c hc)
  have hascii : ∀ c ∈ value, c.toNat < 128 := by
    intro c hc
    obtain ⟨b,hb,rfl⟩ := hsource c hc
    exact (toLower_byte (hbyte b hb)).2.2.2
  have hname : d.toList = value.map Char.toLower := by
    rw [hd,Hostname.idnaCodec_ascii hascii hidna]
  have htwice : d.toList.map Char.toLower = value.map Char.toLower := by
    rw [hname,List.map_map]
    refine List.map_congr_left fun c hc => ?_
    obtain ⟨b,hb,rfl⟩ := hsource c hc
    exact (toLower_byte (hbyte b hb)).2.2.1
  rw [List.map_append,htwice]
  constructor
  · intro hsame
    -- white space would survive lower-casing, and the name has none
    have hblank : ∀ b ∈ raw, blank b = false := by
      intro b hb
      have hmem : (Char.ofNat b.toNat).toLower ∈ value.map Char.toLower++['.'] := by
        have hin : (Char.ofNat b.toNat).toLower ∈
            (raw.map fun b => Char.ofNat b.toNat).map Char.toLower :=
          List.mem_map_of_mem (List.mem_map_of_mem hb)
        obtain hsame | hsame := hsame
        · rw [hsame] at hin
          exact List.mem_append_left _ hin
        · rwa [hsame] at hin
      rw [← (toLower_byte (hbyte b hb)).1]
      obtain hin | hdot := List.mem_append.mp hmem
      · obtain ⟨c,hc,heq⟩ := List.mem_map.mp hin
        have hclear := hspace c (hstrip c hc)
        obtain ⟨b',hb',rfl⟩ := hsource c hc
        rw [← heq,(toLower_byte (hbyte b' hb')).1,← (toLower_byte (hbyte b' hb')).2.1]
        exact hclear
      · rw [List.mem_singleton.mp hdot]
        decide
    exact ⟨fun b hb => hblank b (List.mem_of_mem_head? hb),
      fun b hb => hblank b (List.mem_of_mem_getLast? hb)⟩
  · rintro ⟨hhead,hlast⟩
    have hwhole : Hostname.strip (raw.map fun b => Char.ofNat b.toNat) =
        raw.map fun b => Char.ofNat b.toNat := by
      apply Hostname.strip_eq_self
      · intro c hc
        rw [List.head?_map] at hc
        obtain ⟨b,hb,rfl⟩ := Option.mem_map.mp hc
        rw [(toLower_byte (hbyte b (List.mem_of_mem_head? hb))).2.1]
        exact hhead b hb
      · intro c hc
        rw [List.getLast?_map] at hc
        obtain ⟨b,hb,rfl⟩ := Option.mem_map.mp hc
        rw [(toLower_byte (hbyte b (List.mem_of_mem_getLast? hb))).2.1]
        exact hlast b hb
    rw [hwhole] at hvalue
    by_cases hdot : (raw.map fun b => Char.ofNat b.toNat).getLast? = some '.'
    · right
      rw [if_pos hdot] at hvalue
      rw [← List.dropLast_append_getLast? _ hdot,hvalue,List.map_append]
    · left
      rw [if_neg hdot] at hvalue
      rw [hvalue]

/-- `n.to_bytes(3, 'big')`. -/
def toBytes3 (n : ℕ) : List UInt8 := [UInt8.ofNat (n/65536),UInt8.ofNat (n/256),UInt8.ofNat n]

theorem fromBytes_toBytes3 {n : ℕ} (h : n < 16777216) : fromBytes (toBytes3 n) = n := by
  simp only [fromBytes,toBytes3,List.foldl_cons,List.foldl_nil,UInt8.toNat_ofNat']
  omega

theorem toBytes3_fromBytes (a b c : UInt8) : toBytes3 (fromBytes [a,b,c]) = [a,b,c] := by
  have hb := b.toNat_lt
  have hc := c.toNat_lt
  have hvalue : fromBytes [a,b,c] = (a.toNat*256+b.toNat)*256+c.toNat := by simp [fromBytes]
  simp only [toBytes3,hvalue,List.cons.injEq,and_true]
  refine ⟨?_,?_,?_⟩
  all_goals
    apply UInt8.toNat_inj.mp
    rw [UInt8.toNat_ofNat']
    have ha := a.toNat_lt
    omega

/-- The records at the front of `data` carry the handshake message of `h`. -/
def Carries (data : List UInt8) (h : Hello) : Prop :=
  ∃ records tail extra, data = encodeRecords records++tail ∧ 4+h.encode.length ≤ 65536 ∧
    carried records = 1::(toBytes3 h.encode.length++h.encode++extra)

variable {idna : String → Option String}

theorem messageResult_hello (h : Hello) (hfits : 4+h.encode.length ≤ 65536) (extra : List UInt8) :
    messageResult idna (1::(toBytes3 h.encode.length++h.encode++extra)) =
      (parseClientHelloBody idna h.encode).map .ok := by
  have hlength : fromBytes (toBytes3 h.encode.length) = h.encode.length :=
    fromBytes_toBytes3 (by omega)
  have hannounce : announce (1::(toBytes3 h.encode.length++h.encode++extra)) none =
      .ok (some (4+h.encode.length)) := by
    have hheader : ((1::(toBytes3 h.encode.length++h.encode++extra)).take 4).drop 1 =
        toBytes3 h.encode.length := rfl
    rw [announce,if_pos ⟨by simp [toBytes3],rfl⟩,if_neg (by simp),hheader,hlength,
      if_neg (not_lt.mpr hfits)]
  have hbody : ((1::(toBytes3 h.encode.length++h.encode++extra)).take (4+h.encode.length)).drop 4 =
      h.encode := by
    rw [List.drop_take,Nat.add_sub_cancel_left]
    show (h.encode++extra).take h.encode.length = h.encode
    exact List.take_left
  have hdone : (some (4+h.encode.length)).any
      (· ≤ (1::(toBytes3 h.encode.length++h.encode++extra)).length) = true := by
    simp only [Option.any_some,decide_eq_true_eq,List.length_cons,List.length_append,toBytes3,
      List.length_nil]
    omega
  simp only [messageResult,hannounce,hdone,if_true,Option.getD_some,hbody]

theorem parseClientHello_of_carries {data : List UInt8} {h : Hello} (hcarries : Carries data h) :
    parseClientHello idna data = (parseClientHelloBody idna h.encode).map .ok := by
  obtain ⟨records,tail,extra,rfl,hfits,hcarried⟩ := hcarries
  have hrecords : parseClientHello idna (encodeRecords records) =
      (parseClientHelloBody idna h.encode).map .ok := by
    rw [parseClientHello,parseRecords_encode records rfl,List.nil_append,hcarried,
      messageResult_hello h hfits]
  have hfinal : parseClientHello idna (encodeRecords records) ≠ .ok .needMore := by
    rw [hrecords]
    cases parseClientHelloBody idna h.encode <;> simp [Except.map]
  rw [← hrecords]
  exact parseRecords_append tail hfinal

theorem exists_records (handshake : List UInt8) {data : List UInt8} {required : Option ℕ} {d : String}
    (ha : announce handshake none = .ok required)
    (h : parseRecords idna handshake required data = .ok (.ok d)) :
    ∃ records tail, data = encodeRecords records++tail ∧
      messageResult idna (handshake++carried records) = .ok (.ok d) := by
  induction hn : data.length using Nat.strong_induction_on generalizing handshake required data with
  | h n ih =>
    cases hd : required.any (· ≤ handshake.length) with
    | true =>
      refine ⟨[],data,rfl,?_⟩
      rw [messageResult_done ha hd,← parseRecords_done hd data,h]
    | false =>
      by_cases hs : data.length < 5
      · rw [parseRecords_short hd hs] at h
        cases h
      · obtain ⟨contentType,major,minor,hi,lo,rest,rfl⟩ := exists_header (not_lt.mp hs)
        rw [parseRecords_cons hd] at h
        have htype : ¬(contentType ≠ 22 ∨ major ≠ 3) := by
          intro hbad
          rw [if_pos hbad] at h
          cases h
        have hlong : ¬18432 < fromBytes [hi,lo] := by
          intro hbad
          rw [if_neg htype,if_pos hbad] at h
          cases h
        have hmore : ¬rest.length < fromBytes [hi,lo] := by
          intro hbad
          rw [if_neg htype,if_neg hlong,if_pos hbad] at h
          cases h
        rw [if_neg htype,if_neg hlong,if_neg hmore] at h
        obtain ⟨rfl,rfl⟩ : contentType = 22 ∧ major = 3 := by simpa [not_or] using htype
        have hlen : (rest.take (fromBytes [hi,lo])).length = fromBytes [hi,lo] :=
          List.length_take_of_le (not_lt.mp hmore)
        cases hnext : announce (handshake++rest.take (fromBytes [hi,lo])) required with
        | error e =>
          rw [hnext] at h
          cases h
        | ok required' =>
          rw [hnext] at h
          have hsmaller : (rest.drop (fromBytes [hi,lo])).length < n := by
            simp only [List.length_cons] at hn
            rw [List.length_drop]
            omega
          rw [announce_append ha] at hnext
          obtain ⟨records,tail,htail,hresult⟩ := ih _ hsmaller _ hnext h rfl
          let record : HandshakeRecord := ⟨minor,rest.take (fromBytes [hi,lo]),by omega⟩
          refine ⟨record::records,tail,?_,?_⟩
          · have hpair : [UInt8.ofNat (fromBytes [hi,lo]/256),UInt8.ofNat (fromBytes [hi,lo] % 256)] =
                [hi,lo] := toBytes_fromBytes hi lo
            simp only [List.cons.injEq,and_true] at hpair
            have hrecord : record.encode = 22::3::minor::hi::lo::rest.take (fromBytes [hi,lo]) := by
              show 22::3::minor::UInt8.ofNat ((rest.take (fromBytes [hi,lo])).length/256)::
                UInt8.ofNat ((rest.take (fromBytes [hi,lo])).length % 256)::_ = _
              rw [hlen,hpair.1,hpair.2]
            rw [encodeRecords,List.flatMap_cons,hrecord,List.append_assoc]
            show _ = 22::3::minor::hi::lo::(rest.take (fromBytes [hi,lo])++(encodeRecords records++tail))
            rw [← htail,List.take_append_drop]
          · have hcarried : carried (record::records) = rest.take (fromBytes [hi,lo])++carried records :=
              List.flatMap_cons
            rw [hcarried,← List.append_assoc]
            exact hresult

theorem exists_of_announce {handshake : List UInt8} {k : ℕ}
    (h : announce handshake none = .ok (some k)) : ∃ a b c rest,
      handshake = 1::a::b::c::rest ∧ k = 4+fromBytes [a,b,c] ∧ k ≤ 65536 := by
  unfold announce at h
  by_cases hlen : 4 ≤ handshake.length
  · rw [if_pos ⟨hlen,rfl⟩] at h
    by_cases hhead : handshake.head? ≠ some 1
    · rw [if_pos hhead] at h
      cases h
    · rw [if_neg hhead] at h
      match handshake, hlen with
      | first::a::b::c::rest, _ =>
        obtain rfl : first = 1 := Option.some.inj (not_not.mp hhead)
        by_cases hlarge : 65536 < 4+fromBytes [a,b,c]
        · have hbad : 65536 < 4+fromBytes (((1::a::b::c::rest).take 4).drop 1) := hlarge
          rw [if_pos hbad] at h
          cases h
        · have hok : ¬65536 < 4+fromBytes (((1::a::b::c::rest).take 4).drop 1) := hlarge
          rw [if_neg hok] at h
          obtain rfl := Option.some.inj (Except.ok.inj h)
          exact ⟨a,b,c,rest,rfl,rfl,not_lt.mp hlarge⟩
  · rw [if_neg fun hc => hlen hc.1] at h
    cases h

theorem exists_carries {data : List UInt8} {d : String}
    (h : parseClientHello idna data = .ok (.ok d)) : ∃ hello, Carries data hello := by
  obtain ⟨records,tail,hdata,hresult⟩ := exists_records [] rfl h
  rw [List.nil_append,messageResult] at hresult
  cases hannounce : announce (carried records) none with
  | error e =>
    rw [hannounce] at hresult
    cases hresult
  | ok required =>
    rw [hannounce] at hresult
    dsimp only at hresult
    by_cases hdone : required.any (· ≤ (carried records).length) = true
    · rw [if_pos hdone] at hresult
      obtain ⟨k,rfl,hk⟩ : ∃ k, required = some k ∧ k ≤ (carried records).length := by
        cases required with
        | none => cases hdone
        | some k => exact ⟨k,rfl,of_decide_eq_true hdone⟩
      obtain ⟨a,b,c,rest,hcarried,rfl,hmax⟩ := exists_of_announce hannounce
      have hbody : ((carried records).take (4+fromBytes [a,b,c])).drop 4 =
          rest.take (fromBytes [a,b,c]) := by
        rw [List.drop_take,hcarried,Nat.add_sub_cancel_left]
        rfl
      have hlen : (rest.take (fromBytes [a,b,c])).length = fromBytes [a,b,c] := by
        rw [hcarried] at hk
        simp only [List.length_cons] at hk
        exact List.length_take_of_le (by omega)
      rw [Option.getD_some,hbody] at hresult
      cases hparse : parseClientHelloBody idna (rest.take (fromBytes [a,b,c])) with
      | error e =>
        rw [hparse] at hresult
        cases hresult
      | ok name =>
        obtain ⟨hello,hencode⟩ := exists_hello hparse
        refine ⟨hello,records,tail,rest.drop (fromBytes [a,b,c]),hdata,?_,?_⟩
        · rw [hencode,hlen]
          exact hmax
        · rw [hencode,hlen,toBytes3_fromBytes,hcarried,List.append_assoc,List.take_append_drop]
          rfl
    · rw [if_neg hdone] at hresult
      cases hresult

/-- For every accepted ClientHello, the host name on the wire is the accepted name exactly when
no white space stands at its ends. -/
theorem wireName_iff (beyondAscii : String → Option String) (data : List UInt8) (d : String)
    (hok : parseClientHello (Hostname.idnaCodec beyondAscii) data = .ok (.ok d)) :
    (∃ h, Carries data h) ∧
      ∀ h, Carries data h → ∃ raw, h.hostNames = [raw] ∧ (SameName raw d ↔ Unpadded raw) := by
  refine ⟨exists_carries hok,fun h hcarries => ?_⟩
  rw [parseClientHello_of_carries hcarries] at hok
  cases hparse : parseClientHelloBody (Hostname.idnaCodec beyondAscii) h.encode with
  | error e =>
    rw [hparse] at hok
    cases hok
  | ok name =>
    rw [hparse] at hok
    obtain rfl : name = d := Status.ok.inj (Except.ok.inj hok)
    obtain ⟨-,raw,hraw,hname⟩ := (parseClientHelloBody_encode h name).mp hparse
    exact ⟨raw,hraw,sameName_iff_unpadded hname⟩

theorem nameLength_fits {raw : List UInt8} (h : raw.length < 256) : raw.length < 65536 := by omega

theorem nameList_fits {raw : List UInt8} (h : raw.length < 256) :
    (vector16 (List.flatMap ServerName.encode [⟨0,raw,nameLength_fits h⟩])).length < 65536 := by
  simp only [vector16,ServerName.encode,toBytes,List.flatMap_cons,List.flatMap_nil,
    List.append_nil,List.length_append,List.length_cons,List.length_nil]
  omega

theorem nameExtension_fits {raw : List UInt8} (h : raw.length < 256) :
    (List.flatMap Extension.encode [.serverName [⟨0,raw,nameLength_fits h⟩] (nameList_fits h)]).length < 65536 := by
  simp only [Extension.encode,Extension.data,vector16,ServerName.encode,toBytes,
    List.flatMap_cons,List.flatMap_nil,List.append_nil,List.length_append,List.length_cons,
    List.length_nil]
  omega

theorem emptyVector_fits : ([] : List UInt8).length < 256 := by decide

theorem oneSuite_fits : ([19,1] : List UInt8).length < 65536 := by decide

theorem oneSuite_even : 2 ≤ ([19,1] : List UInt8).length ∧ ([19,1] : List UInt8).length % 2 = 0 := by decide

theorem nullCompression_fits : ([0] : List UInt8).length < 256 := by decide

def Hello.naming (raw : List UInt8) (h : raw.length < 256) : Hello where
  version := [3,3]
  version_length := rfl
  random := List.replicate 32 0
  random_length := rfl
  sessionId := []
  sessionId_fits := emptyVector_fits
  cipherSuites := [19,1]
  cipherSuites_fits := oneSuite_fits
  cipherSuites_even := oneSuite_even
  compression := [0]
  compression_fits := nullCompression_fits
  extensions := [.serverName [⟨0,raw,nameLength_fits h⟩] (nameList_fits h)]
  extensions_fit := nameExtension_fits h

/-- One record with the message of a hello. -/
def Hello.record (h : Hello) (legal : 4+h.encode.length ≤ 18432) : HandshakeRecord :=
  ⟨1,1::(toBytes3 h.encode.length++h.encode),by
    simp only [toBytes3,List.length_cons,List.length_append,List.length_nil]
    omega⟩

def aTest : List UInt8 := [97,46,116,101,115,116]

theorem wireName_iff_plain :
    (∃ h, Carries (encodeRecords [⟨1,sampleHello,by decide⟩]) h) ∧
      ∀ h, Carries (encodeRecords [⟨1,sampleHello,by decide⟩]) h →
        ∃ raw, h.hostNames = [raw] ∧ (SameName raw "a.test" ↔ Unpadded raw) :=
  wireName_iff (fun _ => none) (encodeRecords [⟨1,sampleHello,by decide⟩]) "a.test"
    (by decide +kernel)

/-- A hello for ` a.test` is accepted as one for `a.test`. -/
theorem padded_name_accepted :
    let h := Hello.naming (32::aTest) (by decide)
    let data := encodeRecords [h.record (by decide +kernel)]
    parseClientHello (Hostname.idnaCodec fun _ => none) data = .ok (.ok "a.test") ∧
      Carries data h ∧ h.hostNames = [32::aTest] ∧ ¬SameName (32::aTest) "a.test" := by
  refine ⟨by decide +kernel,⟨_,[],[],(List.append_nil _).symm,by decide +kernel,by decide +kernel⟩,rfl,?_⟩
  unfold SameName
  decide +kernel

end ClientHello
end FakeNetNG
