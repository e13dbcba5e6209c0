import FakeNetNG.ClientHelloOffsets
import FakeNetNG.Fallible

/-!
# The grammar of the ClientHello body

The messages that `_parse_client_hello_body` has to accept, as a type of their own: a
`Hello` can be built only when its vectors fit their length fields. The reader returns a
name exactly on the encodings of the hellos that carry one host name and no ECH.
-/

namespace FakeNetNG
namespace ClientHello

/-- `n.to_bytes(2, 'big')`. -/
def toBytes (n : ℕ) : List UInt8 := [UInt8.ofNat (n/256),UInt8.ofNat (n % 256)]

theorem fromBytes_toBytes {n : ℕ} (h : n < 65536) : fromBytes (toBytes n) = n := by
  simp only [fromBytes,toBytes,List.foldl_cons,List.foldl_nil,UInt8.toNat_ofNat']
  omega

theorem fromBytes_pair_lt (hi lo : UInt8) : fromBytes [hi,lo] < 65536 := by
  have hhi := hi.toNat_lt
  have hlo := lo.toNat_lt
  simp only [fromBytes,List.foldl_cons,List.foldl_nil]
  omega

theorem toBytes_fromBytes (hi lo : UInt8) : toBytes (fromBytes [hi,lo]) = [hi,lo] := by
  have hlo := lo.toNat_lt
  have hdiv : fromBytes [hi,lo]/256 = hi.toNat := by
    simp only [fromBytes,List.foldl_cons,List.foldl_nil]
    omega
  have hmod : fromBytes [hi,lo] % 256 = lo.toNat := by
    simp only [fromBytes,List.foldl_cons,List.foldl_nil]
    omega
  rw [toBytes,hdiv,hmod,UInt8.ofNat_toNat,UInt8.ofNat_toNat]

def vector8 (data : List UInt8) : List UInt8 := UInt8.ofNat data.length::data

/-- A vector behind a length of two bytes. -/
def vector16 (data : List UInt8) : List UInt8 := toBytes data.length++data

/-- An entry of a `server_name` extension. -/
structure ServerName where
  nameType : UInt8
  name : List UInt8
  fits : name.length < 65536

def ServerName.encode (e : ServerName) : List UInt8 := e.nameType::vector16 e.name

inductive Extension
  | serverName (names : List ServerName)
      (fits : (vector16 (names.flatMap ServerName.encode)).length < 65536)
  | other (extType : ℕ) (data : List UInt8) (kind : extType ≠ 0 ∧ extType < 65536)
      (fits : data.length < 65536)

namespace Extension

def extType : Extension → ℕ
  | serverName .. => 0
  | other extType .. => extType

def data : Extension → List UInt8
  | serverName names _ => vector16 (names.flatMap ServerName.encode)
  | other _ data .. => data

def encode (e : Extension) : List UInt8 := toBytes e.extType++vector16 e.data

/-- The bytes of the entries of type `host_name`. -/
def hostNames : Extension → List (List UInt8)
  | serverName names _ => (names.filter (·.nameType = 0)).map ServerName.name
  | other .. => []

/-- An encrypted hello, in the standard or the draft number. -/
def IsEch (e : Extension) : Prop := e.extType = 0xfe0d ∨ e.extType = 0xffce

theorem extType_lt (e : Extension) : e.extType < 65536 := by
  cases e with
  | serverName names fits => simp [extType]
  | other extType data kind fits => exact kind.2

theorem data_length_lt (e : Extension) : e.data.length < 65536 := by
  cases e with
  | serverName names fits => exact fits
  | other extType data kind fits => exact fits

end Extension

/-- A ClientHello without its handshake header. -/
structure Hello where
  version : List UInt8
  version_length : version.length = 2
  random : List UInt8
  random_length : random.length = 32
  sessionId : List UInt8
  sessionId_fits : sessionId.length < 256
  cipherSuites : List UInt8
  cipherSuites_fits : cipherSuites.length < 65536
  cipherSuites_even : 2 ≤ cipherSuites.length ∧ cipherSuites.length % 2 = 0
  compression : List UInt8
  compression_fits : compression.length < 256
  extensions : List Extension
  extensions_fit : (extensions.flatMap Extension.encode).length < 65536

namespace Hello

def encode (h : Hello) : List UInt8 :=
  h.version++h.random++vector8 h.sessionId++vector16 h.cipherSuites++vector8 h.compression++
    vector16 (h.extensions.flatMap Extension.encode)

/-- The bytes of all entries of type `host_name`, over all extensions. -/
def hostNames (h : Hello) : List (List UInt8) := h.extensions.flatMap Extension.hostNames

end Hello

/-- `d` is what the bytes of a host name stand for. -/
def Names (idna : String → Option String) (raw : List UInt8) (d : String) : Prop :=
  raw.all (· < 128) ∧ Hostname.normalizeHostname idna (asciiText raw) = .ok d

variable {idna : String → Option String}

theorem decodeName_eq_ok {raw : List UInt8} {d : String} :
    decodeName idna raw = .ok d ↔ Names idna raw d := by
  unfold decodeName Names
  by_cases hascii : raw.all (· < 128)
  · rw [if_pos hascii]
    simp only [hascii,true_and]
    rw [show String.ofList (raw.map fun b => Char.ofNat b.toNat) = asciiText raw from rfl]
    cases Hostname.normalizeHostname idna (asciiText raw) <;> simp
  · rw [if_neg hascii]
    simp [hascii]

theorem parseNames_cons (names : List String) (nameType hi lo : UInt8) (rest : List UInt8) :
    parseNames idna names (nameType::hi::lo::rest) =
      if rest.length < fromBytes [hi,lo] then .error "truncated ClientHello"
      else if nameType = 0 then
        match decodeName idna (rest.take (fromBytes [hi,lo])) with
        | .error e => .error e
        | .ok name => parseNames idna (names++[name]) (rest.drop (fromBytes [hi,lo]))
      else parseNames idna names (rest.drop (fromBytes [hi,lo])) := by
  exact (parseNames.eq_def idna names _).trans rfl

theorem exists_serverNames {names out : List String} {data : List UInt8}
    (h : parseNames idna names data = .ok out) :
    ∃ entries : List ServerName, entries.flatMap ServerName.encode = data := by
  induction hn : data.length using Nat.strong_induction_on generalizing names data with
  | h n ih =>
    match data, h with
    | [], _ => exact ⟨[],rfl⟩
    | [_], h =>
      rw [parseNames.eq_def] at h
      cases h
    | [_,_], h =>
      rw [parseNames.eq_def] at h
      cases h
    | nameType::hi::lo::rest, h =>
      rw [parseNames_cons] at h
      by_cases hshort : rest.length < fromBytes [hi,lo]
      · rw [if_pos hshort] at h
        cases h
      · rw [if_neg hshort] at h
        have hlen : (rest.take (fromBytes [hi,lo])).length = fromBytes [hi,lo] :=
          List.length_take_of_le (not_lt.mp hshort)
        have hrest : ∃ names, parseNames idna names (rest.drop (fromBytes [hi,lo])) = .ok out := by
          by_cases htype : nameType = 0
          · rw [if_pos htype] at h
            cases hd : decodeName idna (rest.take (fromBytes [hi,lo])) with
            | error e =>
              rw [hd] at h
              cases h
            | ok name =>
              rw [hd] at h
              exact ⟨_,h⟩
          · rw [if_neg htype] at h
            exact ⟨_,h⟩
        obtain ⟨names',hrest⟩ := hrest
        have hsmaller : (rest.drop (fromBytes [hi,lo])).length < n := by
          simp only [List.length_cons] at hn
          rw [List.length_drop]
          omega
        obtain ⟨entries,hentries⟩ := ih _ hsmaller hrest rfl
        have hfits : (rest.take (fromBytes [hi,lo])).length < 65536 := by
          rw [hlen]
          exact fromBytes_pair_lt hi lo
        refine ⟨⟨nameType,rest.take (fromBytes [hi,lo]),hfits⟩::entries,?_⟩
        rw [List.flatMap_cons,hentries,ServerName.encode,vector16,hlen,toBytes_fromBytes]
        simp

theorem parseNames_encode (entries : List ServerName) (names out : List String) :
    parseNames idna names (entries.flatMap ServerName.encode) = .ok out ↔
      ∃ ds, List.Forall₂ (Names idna) ((entries.filter (·.nameType = 0)).map ServerName.name) ds ∧
        out = names++ds := by
  induction entries generalizing names with
  | nil =>
    rw [List.flatMap_nil,parseNames.eq_def]
    simp [eq_comm]
  | cons e entries ih =>
    have hbytes : (e::entries).flatMap ServerName.encode = e.nameType::
        UInt8.ofNat (e.name.length/256)::UInt8.ofNat (e.name.length % 256)::
          (e.name++entries.flatMap ServerName.encode) := List.flatMap_cons
    have hlen : fromBytes [UInt8.ofNat (e.name.length/256),UInt8.ofNat (e.name.length % 256)] =
        e.name.length := fromBytes_toBytes e.fits
    rw [hbytes,parseNames_cons,hlen,if_neg (by simp),List.take_left,List.drop_left]
    by_cases htype : e.nameType = 0
    · rw [if_pos htype,List.filter_cons_of_pos (by simpa using htype),List.map_cons]
      cases hd : decodeName idna e.name with
      | error error =>
        have hnone : ∀ d, ¬Names idna e.name d := by
          intro d hnames
          rw [decodeName_eq_ok.mpr hnames] at hd
          cases hd
        simp [List.forall₂_cons_left_iff,hnone]
      | ok name =>
        have hname := decodeName_eq_ok.mp hd
        have huniq : ∀ d, Names idna e.name d → d = name := by
          intro d hnames
          rw [decodeName_eq_ok.mpr hnames] at hd
          exact Except.ok.inj hd
        dsimp only
        rw [ih]
        constructor
        · rintro ⟨ds,hds,rfl⟩
          exact ⟨name::ds,.cons hname hds,by simp⟩
        · rintro ⟨ds,hds,rfl⟩
          obtain ⟨d,ds',hd',hds',rfl⟩ := List.forall₂_cons_left_iff.mp hds
          rw [huniq d hd']
          exact ⟨ds',hds',by simp⟩
    · rw [if_neg htype,List.filter_cons_of_neg (by simpa using htype)]
      exact ih names

theorem exists_extension {names out : List String} {extType : ℕ} {data : List UInt8}
    (htype : extType < 65536) (hfits : data.length < 65536)
    (h : parseExtension idna names extType data = .ok out) :
    ∃ e : Extension, e.extType = extType ∧ e.data = data := by
  by_cases hzero : extType = 0
  · subst hzero
    rw [parseExtension,if_neg (by simp),if_pos rfl] at h
    by_cases hlist : data.length < 2 ∨ fromBytes (data.take 2) ≠ data.length-2
    · rw [if_pos hlist] at h
      cases h
    · rw [if_neg hlist] at h
      obtain ⟨hlong,hlen⟩ := not_or.mp hlist
      obtain ⟨entries,hentries⟩ := exists_serverNames h
      match data, hlong with
      | [_], hlong => simp at hlong
      | hi::lo::rest, _ =>
        have hrest : entries.flatMap ServerName.encode = rest := hentries
        have hbytes : vector16 (entries.flatMap ServerName.encode) = hi::lo::rest := by
          have hfrom : fromBytes [hi,lo] = rest.length := not_not.mp hlen
          rw [hrest,vector16,← hfrom,toBytes_fromBytes]
          rfl
        exact ⟨.serverName entries (by rwa [hbytes]),rfl,hbytes⟩
  · exact ⟨.other extType data ⟨hzero,htype⟩ hfits,rfl,rfl⟩

theorem parseExtension_encode (e : Extension) (names out : List String) :
    parseExtension idna names e.extType e.data = .ok out ↔
      ¬e.IsEch ∧ ∃ ds, List.Forall₂ (Names idna) e.hostNames ds ∧ out = names++ds := by
  cases e with
  | serverName entries fits =>
    have hlen : (vector16 (entries.flatMap ServerName.encode)).length =
        (entries.flatMap ServerName.encode).length+2 := by
      rw [vector16,List.length_append]
      exact Nat.add_comm _ _
    have hfrom : fromBytes (toBytes (entries.flatMap ServerName.encode).length) =
        (entries.flatMap ServerName.encode).length := fromBytes_toBytes (by omega)
    have hlist : ¬((vector16 (entries.flatMap ServerName.encode)).length < 2 ∨
        fromBytes ((vector16 (entries.flatMap ServerName.encode)).take 2) ≠
          (vector16 (entries.flatMap ServerName.encode)).length-2) := by
      rw [hlen]
      show ¬(_ ∨ fromBytes (toBytes (entries.flatMap ServerName.encode).length) ≠ _)
      rw [hfrom]
      omega
    rw [parseExtension,Extension.extType,Extension.data,if_neg (by simp),if_pos rfl,if_neg hlist]
    show parseNames idna names (entries.flatMap ServerName.encode) = .ok out ↔ _
    rw [parseNames_encode]
    simp [Extension.IsEch,Extension.extType,Extension.hostNames]
  | other extType data kind fits =>
    rw [parseExtension,Extension.extType]
    by_cases hech : extType = 0xfe0d ∨ extType = 0xffce
    · rw [if_pos hech]
      have hyes : (Extension.other extType data kind fits).IsEch := hech
      simp [hyes]
    · rw [if_neg hech,if_neg kind.1]
      have hno : ¬(Extension.other extType data kind fits).IsEch := hech
      simp [hno,Extension.hostNames,eq_comm]

theorem parseExtensions_cons (names : List String) (t₁ t₂ l₁ l₂ : UInt8) (rest : List UInt8) :
    parseExtensions idna names (t₁::t₂::l₁::l₂::rest) =
      if rest.length < fromBytes [l₁,l₂] then .error "truncated ClientHello"
      else
        match parseExtension idna names (fromBytes [t₁,t₂]) (rest.take (fromBytes [l₁,l₂])) with
        | .error e => .error e
        | .ok names => parseExtensions idna names (rest.drop (fromBytes [l₁,l₂])) := by
  exact (parseExtensions.eq_def idna names _).trans rfl

theorem exists_extensions {names out : List String} {data : List UInt8}
    (h : parseExtensions idna names data = .ok out) :
    ∃ extensions : List Extension, extensions.flatMap Extension.encode = data := by
  induction hn : data.length using Nat.strong_induction_on generalizing names data with
  | h n ih =>
    match data, h with
    | [], _ => exact ⟨[],rfl⟩
    | [_], h | [_,_], h | [_,_,_], h =>
      rw [parseExtensions.eq_def] at h
      cases h
    | t₁::t₂::l₁::l₂::rest, h =>
      rw [parseExtensions_cons] at h
      by_cases hshort : rest.length < fromBytes [l₁,l₂]
      · rw [if_pos hshort] at h
        cases h
      · rw [if_neg hshort] at h
        have hlen : (rest.take (fromBytes [l₁,l₂])).length = fromBytes [l₁,l₂] :=
          List.length_take_of_le (not_lt.mp hshort)
        cases hext : parseExtension idna names (fromBytes [t₁,t₂]) (rest.take (fromBytes [l₁,l₂])) with
        | error e =>
          rw [hext] at h
          cases h
        | ok names' =>
          rw [hext] at h
          have hsmaller : (rest.drop (fromBytes [l₁,l₂])).length < n := by
            simp only [List.length_cons] at hn
            rw [List.length_drop]
            omega
          obtain ⟨extensions,hextensions⟩ := ih _ hsmaller h rfl
          obtain ⟨e,htype,hdata⟩ := exists_extension (fromBytes_pair_lt t₁ t₂)
            (hlen.trans_lt (fromBytes_pair_lt l₁ l₂)) hext
          refine ⟨e::extensions,?_⟩
          rw [List.flatMap_cons,hextensions,Extension.encode,htype,hdata,vector16,hlen,
            toBytes_fromBytes,toBytes_fromBytes]
          simp

theorem parseExtensions_encode (extensions : List Extension) (names out : List String) :
    parseExtensions idna names (extensions.flatMap Extension.encode) = .ok out ↔
      (∀ e ∈ extensions, ¬e.IsEch) ∧
        ∃ ds, List.Forall₂ (Names idna) (extensions.flatMap Extension.hostNames) ds ∧
          out = names++ds := by
  induction extensions generalizing names with
  | nil =>
    rw [List.flatMap_nil,parseExtensions.eq_def]
    simp only [List.flatMap_nil,List.forall₂_nil_left_iff,exists_eq_left,List.append_nil,
      List.not_mem_nil,false_implies,implies_true,true_and,Except.ok.injEq]
    exact eq_comm
  | cons e extensions ih =>
    have hbytes : (e::extensions).flatMap Extension.encode = UInt8.ofNat (e.extType/256)::
        UInt8.ofNat (e.extType % 256)::UInt8.ofNat (e.data.length/256)::
          UInt8.ofNat (e.data.length % 256)::(e.data++extensions.flatMap Extension.encode) :=
      List.flatMap_cons
    have htype : fromBytes [UInt8.ofNat (e.extType/256),UInt8.ofNat (e.extType % 256)] = e.extType :=
      fromBytes_toBytes e.extType_lt
    have hlen : fromBytes [UInt8.ofNat (e.data.length/256),UInt8.ofNat (e.data.length % 256)] =
        e.data.length := fromBytes_toBytes e.data_length_lt
    rw [hbytes,parseExtensions_cons,htype,hlen,if_neg (by simp),List.take_left,List.drop_left,
      List.flatMap_cons,List.forall_mem_cons]
    constructor
    · intro h
      cases hext : parseExtension idna names e.extType e.data with
      | error error =>
        rw [hext] at h
        cases h
      | ok names' =>
        rw [hext] at h
        obtain ⟨hech,ds,hds,rfl⟩ := (parseExtension_encode e names names').mp hext
        obtain ⟨hechs,ds',hds',rfl⟩ := (ih _).mp h
        exact ⟨⟨hech,hechs⟩,ds++ds',List.rel_append hds hds',by simp⟩
    · rintro ⟨⟨hech,hechs⟩,all,hall,rfl⟩
      obtain ⟨ds,ds',hds,hds',rfl⟩ : ∃ ds ds', List.Forall₂ (Names idna) e.hostNames ds ∧
          List.Forall₂ (Names idna) (extensions.flatMap Extension.hostNames) ds' ∧ all = ds++ds' :=
        ⟨_,_,(List.forall₂_take_append _ _ _ hall.flip).flip,
          (List.forall₂_drop_append _ _ _ hall.flip).flip,(List.take_append_drop _ _).symm⟩
      rw [(parseExtension_encode e names (names++ds)).mpr ⟨hech,ds,hds,rfl⟩]
      exact (ih _).mpr ⟨hechs,ds',hds',by simp⟩

theorem take_append_bind {α : Type} {a : List UInt8} {n : ℕ} (h : a.length = n)
    (b : List UInt8) (k : List UInt8 × List UInt8 → Except String α) :
    (take (a++b) n >>= k) = k (a,b) := by
  subst h
  rw [take,if_neg (by simp),List.take_left,List.drop_left]
  rfl

theorem exists_of_take {α : Type} {data : List UInt8} {count : ℕ} {c : α}
    {k : List UInt8 × List UInt8 → Except String α} (h : (take data count >>= k) = .ok c) :
    ∃ a b, data = a++b ∧ a.length = count ∧ k (a,b) = .ok c := by
  obtain ⟨p,htake,hk⟩ := ok_of_bind h
  unfold take at htake
  by_cases hshort : data.length < count
  · rw [if_pos hshort] at htake
    cases htake
  · rw [if_neg hshort] at htake
    obtain rfl := Except.ok.inj htake
    exact ⟨_,_,(List.take_append_drop count data).symm,List.length_take_of_le (not_lt.mp hshort),hk⟩

theorem vector16_of_length {raw data : List UInt8} (hraw : raw.length = 2)
    (h : data.length = fromBytes raw) : raw++data = vector16 data ∧ data.length < 65536 := by
  obtain ⟨hi,lo,rfl⟩ := List.length_eq_two.mp hraw
  rw [vector16,h,toBytes_fromBytes]
  exact ⟨rfl,fromBytes_pair_lt hi lo⟩

theorem vector8_of_length {b : UInt8} {data : List UInt8} (h : data.length = b.toNat) :
    b::data = vector8 data ∧ data.length < 256 := by
  rw [vector8,h,UInt8.ofNat_toNat]
  exact ⟨rfl,b.toNat_lt⟩

theorem parseClientHelloBody_encode (h : Hello) (d : String) :
    parseClientHelloBody idna h.encode = .ok d ↔
      (∀ e ∈ h.extensions, ¬e.IsEch) ∧ ∃ raw, h.hostNames = [raw] ∧ Names idna raw d := by
  have hstart : (h.version++h.random).length = 2+32 := by
    rw [List.length_append,h.version_length,h.random_length]
  have hsession : h.sessionId.length = (UInt8.ofNat h.sessionId.length).toNat := by
    rw [UInt8.toNat_ofNat',Nat.mod_eq_of_lt h.sessionId_fits]
  have hcipher := fromBytes_toBytes h.cipherSuites_fits
  have hcompression : h.compression.length = fromBytes [UInt8.ofNat h.compression.length] := by
    rw [fromBytes,List.foldl_cons,List.foldl_nil,UInt8.toNat_ofNat',
      Nat.mod_eq_of_lt h.compression_fits]
    omega
  have hextensions := fromBytes_toBytes h.extensions_fit
  have hbytes : h.encode = (h.version++h.random)++(UInt8.ofNat h.sessionId.length::(h.sessionId++
      (toBytes h.cipherSuites.length++(h.cipherSuites++([UInt8.ofNat h.compression.length]++
        (h.compression++(toBytes (h.extensions.flatMap Extension.encode).length++
          (h.extensions.flatMap Extension.encode++[])))))))) := by
    simp [Hello.encode,vector8,vector16]
  have hvector : ¬(h.cipherSuites.length < 2 ∨ h.cipherSuites.length % 2 ≠ 0) := by
    have heven := h.cipherSuites_even
    omega
  rw [hbytes,parseClientHelloBody,take_append_bind hstart]
  dsimp only
  rw [take_append_bind hsession]
  dsimp only
  rw [take_append_bind (a:=toBytes h.cipherSuites.length) (n:=2) rfl]
  dsimp only
  rw [hcipher,if_neg hvector,take_append_bind rfl]
  dsimp only
  rw [take_append_bind (a:=[UInt8.ofNat h.compression.length]) (n:=1) rfl]
  dsimp only
  rw [take_append_bind hcompression]
  dsimp only
  rw [take_append_bind (a:=toBytes (h.extensions.flatMap Extension.encode).length) (n:=2) rfl]
  dsimp only
  rw [hextensions,take_append_bind rfl]
  dsimp only
  rw [if_neg (by simp)]
  constructor
  · intro hok
    obtain ⟨names,hnames,hone⟩ := ok_of_bind hok
    obtain ⟨hech,ds,hds,hsame⟩ := (parseExtensions_encode h.extensions [] names).mp hnames
    obtain rfl : names = ds := hsame
    rcases names with _ | ⟨name,_ | ⟨second,rest⟩⟩
    · cases hone
    · obtain ⟨raw,raws,hname,hnil,hraw⟩ := List.forall₂_cons_right_iff.mp hds
      obtain rfl := List.forall₂_nil_right_iff.mp hnil
      rw [← Except.ok.inj hone]
      exact ⟨hech,raw,hraw,hname⟩
    · cases hone
  · rintro ⟨hech,raw,hraw,hname⟩
    have hds : List.Forall₂ (Names idna) (h.extensions.flatMap Extension.hostNames) [d] := by
      show List.Forall₂ (Names idna) h.hostNames [d]
      rw [hraw]
      exact .cons hname .nil
    rw [(parseExtensions_encode h.extensions [] [d]).mpr ⟨hech,[d],hds,rfl⟩]
    rfl

theorem exists_hello {body : List UInt8} {d : String}
    (hok : parseClientHelloBody idna body = .ok d) : ∃ h : Hello, h.encode = body := by
  unfold parseClientHelloBody at hok
  obtain ⟨start,rest,rfl,hstart,hbody⟩ := exists_of_take hok
  clear hok
  match rest, hbody with
  | sessionLength::rest, hbody =>
    obtain ⟨sessionId,_,rfl,hsession,hafter⟩ := exists_of_take hbody
    obtain ⟨cipherLenRaw,_,rfl,hcipherLen,hciphers⟩ := exists_of_take hafter
    dsimp only at hciphers
    by_cases hvector : fromBytes cipherLenRaw < 2 ∨ fromBytes cipherLenRaw % 2 ≠ 0
    · rw [if_pos hvector] at hciphers
      cases hciphers
    · rw [if_neg hvector] at hciphers
      obtain ⟨cipherSuites,_,rfl,hcipher,hmethods⟩ := exists_of_take hciphers
      obtain ⟨compressionLenRaw,_,rfl,hcompressionLen,hmethod⟩ := exists_of_take hmethods
      obtain ⟨compression,_,rfl,hcompression,hlen⟩ := exists_of_take hmethod
      obtain ⟨extensionsLenRaw,_,rfl,hextensionsLen,hblock⟩ := exists_of_take hlen
      obtain ⟨extensions,rest,rfl,hextensions,hlast⟩ := exists_of_take hblock
      dsimp only at hlast
      by_cases hend : rest ≠ []
      · rw [if_pos hend] at hlast
        cases hlast
      · rw [if_neg hend] at hlast
        obtain rfl := not_not.mp hend
        obtain ⟨names,hnames,-⟩ := ok_of_bind hlast
        obtain ⟨exts,rfl⟩ := exists_extensions hnames
        obtain ⟨compressionLength,rfl⟩ := List.length_eq_one_iff.mp hcompressionLen
        have hone : fromBytes [compressionLength] = compressionLength.toNat := by simp [fromBytes]
        obtain ⟨hs,hsfits⟩ := vector8_of_length hsession
        obtain ⟨hc,hcfits⟩ := vector16_of_length hcipherLen hcipher
        obtain ⟨hm,hmfits⟩ := vector8_of_length (hcompression.trans hone)
        obtain ⟨he,hefits⟩ := vector16_of_length hextensionsLen hextensions
        have hversion : (start.take 2).length = 2 := List.length_take_of_le (by omega)
        have hrandom : (start.drop 2).length = 32 := by
          rw [List.length_drop,hstart]
        have heven : 2 ≤ cipherSuites.length ∧ cipherSuites.length % 2 = 0 := by
          rw [hcipher]
          omega
        refine ⟨⟨start.take 2,hversion,start.drop 2,hrandom,sessionId,hsfits,cipherSuites,hcfits,
          heven,compression,hmfits,exts,hefits⟩,?_⟩
        simp only [Hello.encode,← hs,← hc,← hm,← he]
        simp

/-- The reader returns a name exactly on the hellos without ECH whose one host name
normalises to it, and raises a `ClientHelloError` on everything else. -/
theorem parseBody_exact (idna : String → Option String) (body : List UInt8) :
    (∀ d, parseBody idna body = .ok d ↔ ∃ h : Hello, h.encode = body ∧
      (∀ e ∈ h.extensions, ¬e.IsEch) ∧ ∃ raw, h.hostNames = [raw] ∧ Names idna raw d) ∧
    ((∃ d, parseBody idna body = .ok d) ∨
      ∃ message, parseBody idna body = .error (.clientHello message)) := by
  rw [parseBody_eq]
  constructor
  · intro d
    have hlift : lifted (parseClientHelloBody idna body) = .ok d ↔
        parseClientHelloBody idna body = .ok d := by
      cases parseClientHelloBody idna body <;> simp
    rw [hlift]
    constructor
    · intro hok
      obtain ⟨h,rfl⟩ := exists_hello hok
      exact ⟨h,rfl,(parseClientHelloBody_encode h d).mp hok⟩
    · rintro ⟨h,rfl,hnames⟩
      exact (parseClientHelloBody_encode h d).mpr hnames
  · cases parseClientHelloBody idna body with
    | error message => exact .inr ⟨message,rfl⟩
    | ok d => exact .inl ⟨d,rfl⟩

end ClientHello
end FakeNetNG
