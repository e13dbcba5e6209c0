import FakeNetNG.ClientHello

/-!
# Segmentation of the ClientHello

A decision of the parser is final: more bytes do not change it. So neither the chunks in
which the bytes arrive nor the records that carry the handshake message matter.
-/

namespace FakeNetNG
namespace ClientHello

variable {idna : String → Option String} {handshake : List UInt8} {required : Option ℕ}

theorem parseRecords_done (h : required.any (· ≤ handshake.length) = true) (data : List UInt8) :
    parseRecords idna handshake required data =
      (parseClientHelloBody idna ((handshake.take (required.getD 0)).drop 4)).map .ok := by
  rw [parseRecords.eq_def,if_pos h]

theorem parseRecords_cons (h : required.any (· ≤ handshake.length) = false)
    (contentType major minor hi lo : UInt8) (rest : List UInt8) :
    parseRecords idna handshake required (contentType::major::minor::hi::lo::rest) =
      if contentType ≠ 22 ∨ major ≠ 3 then .error "not a TLS handshake record"
      else if 18432 < fromBytes [hi,lo] then .error "TLS record exceeds protocol limit"
      else if rest.length < fromBytes [hi,lo] then .ok .needMore
      else
        match announce (handshake++rest.take (fromBytes [hi,lo])) required with
        | .error e => .error e
        | .ok required => parseRecords idna (handshake++rest.take (fromBytes [hi,lo])) required
            (rest.drop (fromBytes [hi,lo])) := by
  refine (parseRecords.eq_def idna handshake required _).trans ?_
  exact (if_neg (by simp [h])).trans rfl

theorem parseRecords_short (h : required.any (· ≤ handshake.length) = false) {data : List UInt8}
    (hs : data.length < 5) : parseRecords idna handshake required data = .ok .needMore := by
  rw [parseRecords.eq_def,if_neg (by simp [h])]
  split
  · simp only [List.length_cons] at hs
    omega
  · rfl

theorem exists_header {data : List UInt8} (h : 5 ≤ data.length) :
    ∃ contentType major minor hi lo rest, data = contentType::major::minor::hi::lo::rest := by
  match data, h with
  | a::b::c::d::e::rest, _ => exact ⟨a,b,c,d,e,rest,rfl⟩

theorem parseRecords_append {data : List UInt8} (t : List UInt8)
    (h : parseRecords idna handshake required data ≠ .ok .needMore) :
    parseRecords idna handshake required (data++t) = parseRecords idna handshake required data := by
  induction hn : data.length using Nat.strong_induction_on generalizing handshake required data with
  | h n ih =>
    cases hd : required.any (· ≤ handshake.length) with
    | true => rw [parseRecords_done hd,parseRecords_done hd]
    | false =>
      by_cases hs : data.length < 5
      · exact absurd (parseRecords_short hd hs) h
      · obtain ⟨contentType,major,minor,hi,lo,rest,rfl⟩ := exists_header (not_lt.mp hs)
        simp only [List.cons_append]
        rw [parseRecords_cons hd] at h ⊢
        rw [parseRecords_cons hd]
        by_cases htype : contentType ≠ 22 ∨ major ≠ 3
        · rw [if_pos htype,if_pos htype]
        · rw [if_neg htype] at h ⊢
          rw [if_neg htype]
          by_cases hlong : 18432 < fromBytes [hi,lo]
          · rw [if_pos hlong,if_pos hlong]
          · rw [if_neg hlong] at h ⊢
            rw [if_neg hlong]
            by_cases hmore : rest.length < fromBytes [hi,lo]
            · rw [if_pos hmore] at h
              exact absurd rfl h
            · have hmore' : ¬(rest++t).length < fromBytes [hi,lo] := by
                rw [List.length_append]
                omega
              rw [if_neg hmore] at h ⊢
              rw [if_neg hmore',List.take_append_of_le_length (not_lt.mp hmore),
                List.drop_append_of_le_length (not_lt.mp hmore)]
              cases ha : announce (handshake++rest.take (fromBytes [hi,lo])) required with
              | error e => rfl
              | ok required' =>
                rw [ha] at h
                refine ih (rest.drop (fromBytes [hi,lo])).length ?_ h rfl
                rw [← hn]
                simp only [List.length_drop,List.length_cons]
                omega

theorem parseRecords_zeros (k : ℕ) (hk : 5 ≤ k) :
    parseRecords idna handshake required (List.replicate k 0) ≠ .ok .needMore := by
  cases hd : required.any (· ≤ handshake.length) with
  | true =>
    rw [parseRecords_done hd]
    cases parseClientHelloBody idna ((handshake.take (required.getD 0)).drop 4) <;>
      simp [Except.map]
  | false =>
    obtain ⟨m,rfl⟩ : ∃ m, k = m+5 := ⟨k-5,by omega⟩
    simp only [List.replicate_succ]
    rw [parseRecords_cons hd,if_pos (by decide)]
    simp

/-- Enough zero bytes bring every input to a decision: they fill up the record that is
open and then are no record. -/
theorem parseRecords_filled (data : List UInt8) :
    parseRecords idna handshake required (data++List.replicate 18442 0) ≠ .ok .needMore := by
  induction hn : data.length using Nat.strong_induction_on generalizing handshake required data with
  | h n ih =>
    cases hd : required.any (· ≤ handshake.length) with
    | true =>
      rw [parseRecords_done hd,← parseRecords_done hd (List.replicate 5 0)]
      exact parseRecords_zeros 5 le_rfl
    | false =>
      have hlen : 5 ≤ (data++List.replicate 18442 (0 : UInt8)).length := by
        rw [List.length_append,List.length_replicate]
        omega
      obtain ⟨contentType,major,minor,hi,lo,rest,he⟩ := exists_header hlen
      rw [he,parseRecords_cons hd]
      split_ifs with htype hlong hmore
      · simp
      · simp
      · have htotal := congrArg List.length he
        simp only [List.length_append,List.length_replicate,List.length_cons] at htotal
        omega
      · cases announce (handshake++rest.take (fromBytes [hi,lo])) required with
        | error e => simp
        | ok required' =>
          have hrest : rest.drop (fromBytes [hi,lo]) =
              (data++List.replicate 18442 0).drop (5+fromBytes [hi,lo]) := by
            rw [he,← List.drop_drop]
            rfl
          dsimp only
          rw [hrest,List.drop_append,List.drop_replicate]
          by_cases hin : 5+fromBytes [hi,lo] ≤ data.length
          · have hzero : 5+fromBytes [hi,lo]-data.length = 0 := by omega
            rw [hzero]
            refine ih _ ?_ _ rfl
            rw [← hn,List.length_drop]
            omega
          · rw [List.drop_eq_nil_of_le (by omega),List.nil_append]
            exact parseRecords_zeros _ (by omega)

/-- The chunks that `recv` may give when `n` bytes were read before: none is empty, and none
is longer than what was asked for. -/
def Delivers (helloMaxBytes : ℕ) : ℕ → List Chunk → Prop
  | _, [] => True
  | n, chunk::chunks => chunk.bytes ≠ [] ∧
      (n < helloMaxBytes → chunk.bytes.length ≤ min 16384 (helloMaxBytes-n)) ∧
      Delivers helloMaxBytes (n+chunk.bytes.length) chunks

def stream (chunks : List Chunk) : List UInt8 := chunks.flatMap Chunk.bytes

def outcome (idna : String → Option String) (helloMaxBytes : ℕ) (s : List UInt8) :
    Except String String :=
  match parseClientHello idna (s.take helloMaxBytes) with
  | .error e => .error e
  | .ok (.ok sni) => .ok sni
  | .ok .needMore =>
    if helloMaxBytes ≤ s.length then .error "ClientHello size limit exceeded"
    else .error "EOF before ClientHello"

theorem parseClientHello_take (idna : String → Option String) {n m : ℕ} (s : List UInt8) (hnm : n ≤ m)
    (h : parseClientHello idna (s.take n) ≠ .ok .needMore) :
    parseClientHello idna (s.take m) = parseClientHello idna (s.take n) := by
  have hsplit : s.take m = s.take n++(s.take m).drop n := by
    have hboth := (List.take_append_drop n (s.take m)).symm
    rwa [List.take_take,min_eq_left hnm] at hboth
  rw [hsplit]
  exact parseRecords_append _ h

theorem readClientHello_outcome {helloMaxBytes : ℕ} {deadline eofAt : ℚ} {data : List UInt8}
    {chunks : List Chunk} (hdata : data.length ≤ helloMaxBytes)
    (hmore : parseClientHello idna data = .ok .needMore)
    (hchunks : Delivers helloMaxBytes data.length chunks)
    (htime : ∀ chunk ∈ chunks, chunk.now < deadline) (heof : eofAt < deadline) :
    (readClientHello idna helloMaxBytes deadline eofAt data chunks).map Prod.snd =
      outcome idna helloMaxBytes (data++stream chunks) := by
  induction chunks generalizing data with
  | nil =>
    rw [stream,List.flatMap_nil,List.append_nil,outcome,List.take_of_length_le hdata,hmore]
    unfold readClientHello
    simp only [if_neg (not_le.mpr heof)]
    split_ifs <;> rfl
  | cons chunk chunks ih =>
    obtain ⟨hne,hsize,hrest⟩ := hchunks
    have hnow : chunk.now < deadline := htime chunk (by simp)
    have hstream : stream (chunk::chunks) = chunk.bytes++stream chunks := List.flatMap_cons
    unfold readClientHello
    rw [if_neg (not_le.mpr hnow),if_neg hne]
    split_ifs with hfull
    · -- the limit is reached exactly, so the parser sees no more of the stream
      have hlen : data.length = helloMaxBytes := le_antisymm hdata hfull
      have htake : (data++stream (chunk::chunks)).take helloMaxBytes = data := by
        rw [← hlen,List.take_left]
      rw [outcome,htake,hmore]
      simp only [List.length_append,hlen,Nat.le_add_right,if_true]
      rfl
    · have hbound := hsize (not_le.mp hfull)
      have hdata' : (data++chunk.bytes).length ≤ helloMaxBytes := by
        rw [List.length_append]
        omega
      have htake : (data++stream (chunk::chunks)).take (data++chunk.bytes).length =
          data++chunk.bytes := by
        rw [hstream,← List.append_assoc,List.take_left]
      cases hp : parseClientHello idna (data++chunk.bytes) with
      | error e =>
        have hfinal := parseClientHello_take idna (data++stream (chunk::chunks)) hdata'
        rw [htake,hp] at hfinal
        rw [outcome,hfinal (by simp)]
        rfl
      | ok status =>
        cases status with
        | ok sni =>
          have hfinal := parseClientHello_take idna (data++stream (chunk::chunks)) hdata'
          rw [htake,hp] at hfinal
          rw [outcome,hfinal (by simp)]
          rfl
        | needMore =>
          have hrest' : Delivers helloMaxBytes (data++chunk.bytes).length chunks := by
            rwa [List.length_append]
          have hih := ih hdata' hp hrest' fun c hc => htime c (by simp [hc])
          rw [hstream,← List.append_assoc]
          exact hih

/-- A legal handshake record: any minor version and a payload within the limit. -/
structure HandshakeRecord where
  minor : UInt8
  payload : List UInt8
  legal : payload.length ≤ 18432

def HandshakeRecord.encode (r : HandshakeRecord) : List UInt8 :=
  22::3::r.minor::UInt8.ofNat (r.payload.length/256)::UInt8.ofNat (r.payload.length % 256)::r.payload

def encodeRecords (records : List HandshakeRecord) : List UInt8 :=
  records.flatMap HandshakeRecord.encode

def carried (records : List HandshakeRecord) : List UInt8 :=
  records.flatMap HandshakeRecord.payload

def messageResult (idna : String → Option String) (handshake : List UInt8) : Except String Status :=
  match announce handshake none with
  | .error e => .error e
  | .ok required =>
    if required.any (· ≤ handshake.length) then
      (parseClientHelloBody idna ((handshake.take (required.getD 0)).drop 4)).map .ok
    else .ok .needMore

theorem fromBytes_length {n : ℕ} (h : n ≤ 18432) :
    fromBytes [UInt8.ofNat (n/256),UInt8.ofNat (n % 256)] = n := by
  simp only [fromBytes,List.foldl_cons,List.foldl_nil,UInt8.toNat_ofNat']
  omega

theorem announce_append_of_le (h : 4 ≤ handshake.length) (payload : List UInt8) :
    announce (handshake++payload) none = announce handshake none := by
  have hlen : 4 ≤ (handshake++payload).length := by
    rw [List.length_append]
    omega
  have hhead : (handshake++payload).head? = handshake.head? := by
    cases handshake with
    | nil => simp at h
    | cons b handshake => rfl
  simp only [announce,h,hlen,hhead,List.take_append_of_le_length h]

theorem announce_append (h : announce handshake none = .ok required) (payload : List UInt8) :
    announce (handshake++payload) required = announce (handshake++payload) none := by
  cases required with
  | none => rfl
  | some k =>
    have hlen : 4 ≤ handshake.length := by
      by_contra hshort
      simp [announce,hshort] at h
    rw [announce_append_of_le hlen,h]
    simp [announce]

theorem messageResult_done (h : announce handshake none = .ok required)
    (hd : required.any (· ≤ handshake.length) = true) (payload : List UInt8) :
    messageResult idna (handshake++payload) =
      (parseClientHelloBody idna ((handshake.take (required.getD 0)).drop 4)).map .ok := by
  obtain ⟨k,rfl⟩ : ∃ k, required = some k := by
    cases required with
    | none => cases hd
    | some k => exact ⟨k,rfl⟩
  have hk : k ≤ handshake.length := of_decide_eq_true hd
  have hann : announce (handshake++payload) none = .ok (some k) := by
    rw [← announce_append h]
    simp [announce]
  have hk' : k ≤ (handshake++payload).length := by
    rw [List.length_append]
    omega
  simp only [messageResult,hann,Option.any_some,hk',decide_true,if_true,Option.getD_some,
    List.take_append_of_le_length hk]

theorem parseRecords_encode (records : List HandshakeRecord)
    (h : announce handshake none = .ok required) :
    parseRecords idna handshake required (encodeRecords records) =
      messageResult idna (handshake++carried records) := by
  induction records generalizing handshake required with
  | nil =>
    cases hd : required.any (· ≤ handshake.length) with
    | true => rw [parseRecords_done hd,messageResult_done h hd]
    | false =>
      rw [parseRecords_short hd (by decide),carried,List.flatMap_nil,List.append_nil,messageResult,h]
      simp [hd]
  | cons r records ih =>
    have hcarried : carried (r::records) = r.payload++carried records := List.flatMap_cons
    cases hd : required.any (· ≤ handshake.length) with
    | true => rw [parseRecords_done hd,messageResult_done h hd]
    | false =>
      have hbytes : encodeRecords (r::records) = 22::3::r.minor::UInt8.ofNat (r.payload.length/256)::
          UInt8.ofNat (r.payload.length % 256)::(r.payload++encodeRecords records) := List.flatMap_cons
      have hlegal := r.legal
      rw [hbytes,parseRecords_cons hd,fromBytes_length hlegal,if_neg (by simp),if_neg (by omega),
        if_neg (by rw [List.length_append]; omega),List.take_left,List.drop_left,announce_append h,
        hcarried,← List.append_assoc]
      cases ha : announce (handshake++r.payload) none with
      | ok required' => exact ih ha
      | error e =>
        have hlen : 4 ≤ (handshake++r.payload).length := by
          by_contra hshort
          rw [announce,if_neg fun hc => hshort hc.1] at ha
          cases ha
        rw [messageResult,announce_append_of_le hlen,ha]

/-- Neither the arrival of the bytes in chunks nor their layout in records changes what the
reader makes of them. -/
theorem segmentation_irrelevant (idna : String → Option String) :
    (∀ s t, parseClientHello idna s ≠ .ok .needMore →
      parseClientHello idna (s++t) = parseClientHello idna s) ∧
    (∀ s, parseClientHello idna s = .ok .needMore →
      ∃ t ≠ [], parseClientHello idna (s++t) ≠ .ok .needMore) ∧
    (∀ helloMaxBytes deadline eofAt eofAt' chunks chunks',
      stream chunks = stream chunks' →
      Delivers helloMaxBytes 0 chunks → Delivers helloMaxBytes 0 chunks' →
      (∀ chunk ∈ chunks++chunks', chunk.now < deadline) → eofAt < deadline → eofAt' < deadline →
      (readClientHello idna helloMaxBytes deadline eofAt [] chunks).map Prod.snd =
        (readClientHello idna helloMaxBytes deadline eofAt' [] chunks').map Prod.snd) ∧
    (∀ records records', carried records = carried records' →
      parseClientHello idna (encodeRecords records) =
        parseClientHello idna (encodeRecords records')) := by
  have hstart : parseClientHello idna [] = .ok .needMore := parseRecords_short rfl (by decide)
  have hnone : announce [] none = .ok none := rfl
  refine ⟨fun s t h => parseRecords_append t h,?_,?_,?_⟩
  · intro s _
    refine ⟨List.replicate 18442 0,?_,parseRecords_filled s⟩
    rw [ne_eq,List.replicate_eq_nil_iff]
    decide
  · intro helloMaxBytes deadline eofAt eofAt' chunks chunks' hstream hc hc' htime heof heof'
    rw [readClientHello_outcome (Nat.zero_le _) hstart hc
        (fun c hm => htime c (List.mem_append_left _ hm)) heof,
      readClientHello_outcome (Nat.zero_le _) hstart hc'
        (fun c hm => htime c (List.mem_append_right _ hm)) heof',hstream]
  · intro records records' h
    rw [parseClientHello,parseClientHello,parseRecords_encode records hnone,
      parseRecords_encode records' hnone,h]

/-- A ClientHello for `a.test`, without its record. -/
def sampleHello : List UInt8 :=
  [1,0,0,58,3,3,0,0,0,0,0,0,0,0,0,0,0,0,0,0,0,0,0,0,0,0,0,0,0,0,0,0,0,0,0,0,0,0,0,0,2,19,1,1,0,0,15,0,0,0,11,0,9,0,0,6,97,46,116,101,115,116]

example : parseClientHello some (encodeRecords [⟨1,sampleHello,by decide⟩]) = .ok (.ok "a.test") := by
  decide +kernel

/-- The sample in one record that arrives in three chunks, and in two records. -/
theorem segmentation_irrelevant_sample :
    (readClientHello some 65536 10 3 [] [⟨0,[22]⟩,⟨1,[3,1,0]⟩,⟨2,62::sampleHello⟩]).map Prod.snd =
      .ok "a.test" ∧
    parseClientHello some (encodeRecords [⟨1,sampleHello.take 3,by decide⟩,
      ⟨3,sampleHello.drop 3,by decide⟩]) = .ok (.ok "a.test") := by
  obtain ⟨-,-,hchunks,hrecords⟩ := segmentation_irrelevant some
  constructor
  · have hsame := hchunks 65536 10 3 3 [⟨0,[22]⟩,⟨1,[3,1,0]⟩,⟨2,62::sampleHello⟩]
      [⟨0,22::3::1::0::62::sampleHello⟩] rfl
      ⟨by decide,by decide,by decide,by decide,by decide,by decide,trivial⟩
      ⟨by decide,by decide,trivial⟩ (by decide) (by norm_num) (by norm_num)
    exact hsame.trans (by decide +kernel)
  · have hsame := hrecords [⟨1,sampleHello.take 3,by decide⟩,⟨3,sampleHello.drop 3,by decide⟩]
      [⟨1,sampleHello,by decide⟩] rfl
    exact hsame.trans (by decide +kernel)

end ClientHello
end FakeNetNG
