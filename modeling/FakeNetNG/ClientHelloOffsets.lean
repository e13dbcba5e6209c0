import FakeNetNG.ClientHello

/-!
# The offsets of the ClientHello reader

`_parse_client_hello_body` with the offsets and the indexing of the source, where every
exception has a kind of its own. It is the reader on the bytes that are left, so no index
is out of range and nothing but a `ClientHelloError` leaves it.
-/

namespace FakeNetNG
namespace ClientHello

/-- What `_parse_client_hello_body` may leave with. -/
inductive BodyError
  | clientHello (message : String)
  | index
  | unicodeDecode
  | policy (e : PolicyError)
  deriving DecidableEq

/-- `_take` at an offset; the offset after it is `offset+count`. -/
def takeAt (data : List UInt8) (offset count : ℕ) : Except BodyError (List UInt8) :=
  if data.length < offset+count then .error (.clientHello "truncated ClientHello")
  else .ok ((data.drop offset).take count)

def byteAt (data : List UInt8) (offset : ℕ) : Except BodyError UInt8 :=
  match data[offset]? with
  | none => .error .index
  | some b => .ok b

def asciiText (raw : List UInt8) : String := String.ofList (raw.map fun b => Char.ofNat b.toNat)

def decodeAscii (raw : List UInt8) : Except BodyError String :=
  if raw.all (· < 128) then .ok (asciiText raw) else .error .unicodeDecode

variable (idna : String → Option String)

/-- `normalize_hostname(name_raw.decode('ascii'))`. -/
def normalizeRaw (raw : List UInt8) : Except BodyError String := do
  let text ← decodeAscii raw
  match Hostname.normalizeHostname idna text with
  | .ok name => .ok name
  | .error e => .error (.policy e)

/-- The `except (UnicodeDecodeError, ValueError)` around one name. -/
def rescueName : Except BodyError String → Except BodyError String
  | .error .unicodeDecode | .error (.policy (.policyConfig _)) | .error (.policy (.value _)) =>
    .error (.clientHello "invalid SNI hostname")
  | result => result

def namesLoop (extData : List UInt8) (nameOffset : ℕ) (names : List String) :
    Except BodyError (List String) :=
  if nameOffset < extData.length then do
    let nameType ← byteAt extData nameOffset
    let lengthRaw ← takeAt extData (nameOffset+1) 2
    let nameLen := fromBytes lengthRaw
    let nameRaw ← takeAt extData (nameOffset+3) nameLen
    if nameType = 0 then
      let name ← rescueName (normalizeRaw idna nameRaw)
      namesLoop extData (nameOffset+3+nameLen) (names++[name])
    else namesLoop extData (nameOffset+3+nameLen) names
  else .ok names
termination_by extData.length-nameOffset

def extensionsLoop (extensions : List UInt8) (extOffset : ℕ) (names : List String) :
    Except BodyError (List String) :=
  if extOffset < extensions.length then do
    let header ← takeAt extensions extOffset 4
    let extType := fromBytes (header.take 2)
    let extLen := fromBytes (header.drop 2)
    let extData ← takeAt extensions (extOffset+4) extLen
    if extType = 0xfe0d ∨ extType = 0xffce then
      .error (.clientHello "ECH extension is not allowed")
    else if extType = 0 then
      if extData.length < 2 ∨ fromBytes (extData.take 2) ≠ extData.length-2 then
        .error (.clientHello "invalid server_name extension")
      else
        let names ← namesLoop idna extData 2 names
        extensionsLoop extensions (extOffset+4+extLen) names
    else extensionsLoop extensions (extOffset+4+extLen) names
  else .ok names
termination_by extensions.length-extOffset

/-- `_parse_client_hello_body`. -/
def parseBody (body : List UInt8) : Except BodyError String := do
  let _ ← takeAt body 0 (2+32)
  if 34 < body.length then
    let sessionLength ← byteAt body 34
    let offset := 35
    let _ ← takeAt body offset sessionLength.toNat
    let offset := offset+sessionLength.toNat
    let cipherLenRaw ← takeAt body offset 2
    let cipherLen := fromBytes cipherLenRaw
    let offset := offset+2
    if cipherLen < 2 ∨ cipherLen % 2 ≠ 0 then .error (.clientHello "invalid cipher suite vector")
    else
      let _ ← takeAt body offset cipherLen
      let offset := offset+cipherLen
      let compressionLenRaw ← takeAt body offset 1
      let compressionLen ← byteAt compressionLenRaw 0
      let offset := offset+1
      let _ ← takeAt body offset compressionLen.toNat
      let offset := offset+compressionLen.toNat
      let extensionsLenRaw ← takeAt body offset 2
      let extensionsLen := fromBytes extensionsLenRaw
      let offset := offset+2
      let extensions ← takeAt body offset extensionsLen
      let offset := offset+extensionsLen
      if offset ≠ body.length then .error (.clientHello "trailing ClientHello bytes")
      else
        let names ← extensionsLoop idna extensions 0 []
        match names with
        | [name] => .ok name
        | _ => .error (.clientHello "exactly one cleartext SNI hostname is required")
  else .error (.clientHello "missing session id")

variable {idna}

def lifted {α : Type} (r : Except String α) : Except BodyError α := r.mapError .clientHello

@[simp] theorem lifted_ok {α : Type} (a : α) : lifted (.ok a) = .ok a := rfl

@[simp] theorem lifted_error {α : Type} (e : String) :
    lifted (.error e : Except String α) = .error (.clientHello e) := rfl

theorem lifted_bind {α β : Type} (r : Except String α) (f : α → Except String β) :
    lifted (r >>= f) = lifted r >>= fun a => lifted (f a) := by
  cases r <;> rfl

theorem byteAt_drop {data rest : List UInt8} {offset : ℕ} {b : UInt8}
    (h : data.drop offset = b::rest) : byteAt data offset = .ok b := by
  have hb : data[offset]? = some b := by
    rw [← List.head?_drop,h]
    rfl
  simp only [byteAt,hb]

theorem drop_succ_of_drop {data rest : List UInt8} {offset : ℕ} {b : UInt8}
    (h : data.drop offset = b::rest) : data.drop (offset+1) = rest := by
  rw [← List.drop_drop,h]
  rfl

theorem takeAt_drop {data : List UInt8} {offset : ℕ} (h : offset ≤ data.length) (count : ℕ) :
    takeAt data offset count = if (data.drop offset).length < count then
      .error (.clientHello "truncated ClientHello") else .ok ((data.drop offset).take count) := by
  have hiff : data.length < offset+count ↔ (data.drop offset).length < count := by
    rw [List.length_drop]
    omega
  simp only [takeAt,hiff]

/-- `rest` is what is left of `data` at an offset. -/
def Left (data : List UInt8) (offset : ℕ) (rest : List UInt8) : Prop :=
  offset ≤ data.length ∧ data.drop offset = rest

theorem Left.advance {data rest : List UInt8} {offset count : ℕ} (h : Left data offset rest)
    (hcount : count ≤ rest.length) : Left data (offset+count) (rest.drop count) := by
  obtain ⟨hle,hdrop⟩ := h
  have hlen := congrArg List.length hdrop
  rw [List.length_drop] at hlen
  constructor
  · omega
  · rw [← List.drop_drop,hdrop]

theorem takeAt_bind {α : Type} {data rest : List UInt8} {offset count : ℕ}
    {f : List UInt8 → Except BodyError α} {g : List UInt8 × List UInt8 → Except String α}
    (h : Left data offset rest)
    (hfg : Left data (offset+count) (rest.drop count) → count ≤ rest.length →
      f (rest.take count) = lifted (g (rest.take count,rest.drop count))) :
    (takeAt data offset count >>= f) = lifted (take rest count >>= g) := by
  rw [takeAt_drop h.1,h.2,take]
  by_cases hshort : rest.length < count
  · rw [if_pos hshort,if_pos hshort]
    rfl
  · rw [if_neg hshort,if_neg hshort]
    have hcount : count ≤ rest.length := not_lt.mp hshort
    exact hfg (h.advance hcount) hcount

theorem Left.ite_end {α : Type} {data rest : List UInt8} {offset : ℕ} (h : Left data offset rest)
    (e : String) {x : Except BodyError α} {y : Except String α} (hxy : x = lifted y) :
    (if offset ≠ data.length then .error (.clientHello e) else x) =
      lifted (if rest ≠ [] then .error e else y) := by
  have hiff : offset ≠ data.length ↔ rest ≠ [] := by
    rw [← h.2,ne_eq,ne_eq,List.drop_eq_nil_iff]
    have hle := h.1
    omega
  by_cases hend : rest ≠ []
  · rw [if_pos (hiff.mpr hend),if_pos hend,lifted_error]
  · rw [if_neg fun h => hend (hiff.mp h),if_neg hend,hxy]

theorem rescueName_normalizeRaw (raw : List UInt8) :
    rescueName (normalizeRaw idna raw) = lifted (decodeName idna raw) := by
  have hkind : ∀ value e, Hostname.normalizeHostname idna value = .error e →
      ∃ message, e = .policyConfig message := by
    intro value e he
    unfold Hostname.normalizeHostname at he
    dsimp only at he
    split at he
    · cases he
      exact ⟨_,rfl⟩
    · split at he
      · cases he
        exact ⟨_,rfl⟩
      · split at he
        · cases he
          exact ⟨_,rfl⟩
        · cases he
  unfold normalizeRaw decodeAscii decodeName
  by_cases hascii : raw.all (· < 128)
  · rw [if_pos hascii,if_pos hascii]
    show rescueName (match Hostname.normalizeHostname idna (asciiText raw) with
      | .ok name => .ok name
      | .error e => .error (.policy e)) = lifted (match Hostname.normalizeHostname idna (asciiText raw) with
        | .ok name => .ok name
        | .error _ => .error "invalid SNI hostname")
    cases hn : Hostname.normalizeHostname idna (asciiText raw) with
    | ok name => rfl
    | error e =>
      obtain ⟨message,rfl⟩ := hkind _ e hn
      rfl
  · rw [if_neg hascii,if_neg hascii]
    rfl

theorem namesLoop_eq (extData : List UInt8) (nameOffset : ℕ) (names : List String) :
    namesLoop idna extData nameOffset names =
      lifted (parseNames idna names (extData.drop nameOffset)) := by
  induction hn : extData.length-nameOffset using Nat.strong_induction_on
    generalizing nameOffset names with
  | h n ih =>
    rw [namesLoop.eq_def]
    by_cases hin : nameOffset < extData.length
    · rw [if_pos hin]
      obtain ⟨nameType,tail,hdrop⟩ : ∃ b tail, extData.drop nameOffset = b::tail :=
        ⟨_,_,List.drop_eq_getElem_cons hin⟩
      have htail := drop_succ_of_drop hdrop
      rw [byteAt_drop hdrop,hdrop]
      show (takeAt extData (nameOffset+1) 2 >>= _) = _
      rw [takeAt_drop (by omega),htail]
      match tail, htail with
      | [], _ => 
        rw [parseNames.eq_def]
        rfl
      | [_], _ => 
        rw [parseNames.eq_def]
        rfl
      | hi::lo::rest, htail =>
        have hrest : extData.drop (nameOffset+3) = rest := by
          have h₂ := drop_succ_of_drop (drop_succ_of_drop htail)
          exact h₂
        have hlong : nameOffset+3 ≤ extData.length := by
          have hlen := congrArg List.length htail
          rw [List.length_drop,List.length_cons,List.length_cons] at hlen
          omega
        rw [if_neg (by simp),parseNames.eq_def]
        show (takeAt extData (nameOffset+3) (fromBytes [hi,lo]) >>= _) = _
        rw [takeAt_drop hlong,hrest]
        dsimp only
        by_cases hshort : rest.length < fromBytes [hi,lo]
        · rw [if_pos hshort,if_pos hshort]
          rfl
        · rw [if_neg hshort,if_neg hshort]
          have hnext : extData.drop (nameOffset+3+fromBytes [hi,lo]) = rest.drop (fromBytes [hi,lo]) := by
            rw [← List.drop_drop,hrest]
          by_cases htype : nameType = 0
          · rw [if_pos htype]
            show (if nameType = 0 then _ else _) = _
            rw [if_pos htype,rescueName_normalizeRaw]
            cases decodeName idna (rest.take (fromBytes [hi,lo])) with
            | error e => rfl
            | ok name =>
              have hih := ih _ (by omega) (nameOffset+3+fromBytes [hi,lo]) (names++[name]) rfl
              rw [hnext] at hih
              exact hih
          · rw [if_neg htype]
            show (if nameType = 0 then _ else _) = _
            rw [if_neg htype]
            have hih := ih _ (by omega) (nameOffset+3+fromBytes [hi,lo]) names rfl
            rw [hnext] at hih
            exact hih
    · rw [if_neg hin,List.drop_eq_nil_of_le (not_lt.mp hin),parseNames.eq_def]
      rfl

theorem extensionsLoop_eq (extensions : List UInt8) (extOffset : ℕ) (names : List String) :
    extensionsLoop idna extensions extOffset names =
      lifted (parseExtensions idna names (extensions.drop extOffset)) := by
  induction hn : extensions.length-extOffset using Nat.strong_induction_on
    generalizing extOffset names with
  | h n ih =>
    rw [extensionsLoop.eq_def]
    by_cases hin : extOffset < extensions.length
    · rw [if_pos hin,takeAt_drop hin.le]
      have hne : extensions.drop extOffset ≠ [] := by
        rw [ne_eq,List.drop_eq_nil_iff]
        omega
      match hdrop : extensions.drop extOffset, hne with
      | [_], _ =>
        rw [parseExtensions.eq_def]
        rfl
      | [_,_], _ =>
        rw [parseExtensions.eq_def]
        rfl
      | [_,_,_], _ =>
        rw [parseExtensions.eq_def]
        rfl
      | t₁::t₂::l₁::l₂::rest, _ =>
        have hrest : extensions.drop (extOffset+4) = rest := by
          have h₂ := drop_succ_of_drop (drop_succ_of_drop hdrop)
          exact drop_succ_of_drop (drop_succ_of_drop h₂)
        have hlong : extOffset+4 ≤ extensions.length := by
          have hlen := congrArg List.length hdrop
          simp only [List.length_drop,List.length_cons] at hlen
          omega
        rw [if_neg (by simp),parseExtensions.eq_def]
        show (takeAt extensions (extOffset+4) (fromBytes [l₁,l₂]) >>= _) = _
        rw [takeAt_drop hlong,hrest]
        dsimp only
        by_cases hshort : rest.length < fromBytes [l₁,l₂]
        · rw [if_pos hshort,if_pos hshort]
          rfl
        · rw [if_neg hshort,if_neg hshort]
          have hnext : extensions.drop (extOffset+4+fromBytes [l₁,l₂]) =
              rest.drop (fromBytes [l₁,l₂]) := by
            rw [← List.drop_drop,hrest]
          have hih := fun names => ih (extensions.length-(extOffset+4+fromBytes [l₁,l₂])) (by omega)
            (extOffset+4+fromBytes [l₁,l₂]) names rfl
          rw [hnext] at hih
          show (if fromBytes [t₁,t₂] = 0xfe0d ∨ fromBytes [t₁,t₂] = 0xffce then _ else _) = _
          unfold parseExtension
          by_cases hech : fromBytes [t₁,t₂] = 0xfe0d ∨ fromBytes [t₁,t₂] = 0xffce
          · rw [if_pos hech,if_pos hech]
            rfl
          · rw [if_neg hech,if_neg hech]
            show (if fromBytes [t₁,t₂] = 0 then _ else _) = _
            by_cases htype : fromBytes [t₁,t₂] = 0
            · rw [if_pos htype,if_pos htype]
              by_cases hlist : (rest.take (fromBytes [l₁,l₂])).length < 2 ∨
                  fromBytes ((rest.take (fromBytes [l₁,l₂])).take 2) ≠
                    (rest.take (fromBytes [l₁,l₂])).length-2
              · rw [if_pos hlist,if_pos hlist]
                rfl
              · rw [if_neg hlist,if_neg hlist,namesLoop_eq]
                cases parseNames idna names ((rest.take (fromBytes [l₁,l₂])).drop 2) with
                | error e => rfl
                | ok names => exact hih names
            · rw [if_neg htype,if_neg htype]
              exact hih names
    · rw [if_neg hin,List.drop_eq_nil_of_le (not_lt.mp hin),parseExtensions.eq_def]
      rfl

theorem parseBody_eq (body : List UInt8) :
    parseBody idna body = lifted (parseClientHelloBody idna body) := by
  unfold parseBody parseClientHelloBody
  refine takeAt_bind ⟨Nat.zero_le _,rfl⟩ fun h _ => ?_
  rw [Nat.zero_add] at h
  match hrest : body.drop (2+32) with
  | [] =>
    have hlen : ¬34 < body.length := by
      have := List.drop_eq_nil_iff.mp hrest
      omega
    rw [if_neg hlen]
    rfl
  | sessionLength::rest =>
    have hsession : Left body 35 rest := by
      have hnext : Left body (34+1) ((body.drop 34).drop 1) := h.advance (by simp [hrest])
      rwa [hrest] at hnext
    have hlen : 34 < body.length := hsession.1
    rw [if_pos hlen,byteAt_drop hrest]
    refine takeAt_bind hsession fun h _ => ?_
    refine takeAt_bind h fun h _ => ?_
    dsimp only
    generalize hcipher : fromBytes ((rest.drop sessionLength.toNat).take 2) = cipherLen
    by_cases hvector : cipherLen < 2 ∨ cipherLen % 2 ≠ 0
    · rw [if_pos hvector,if_pos hvector]
      rfl
    · rw [if_neg hvector,if_neg hvector]
      refine takeAt_bind h fun h _ => ?_
      refine takeAt_bind h fun h hone => ?_
      dsimp only
      obtain ⟨compressionLen,hcompression⟩ := List.length_eq_one_iff.mp
        (List.length_take_of_le hone)
      have hbyte : byteAt [compressionLen] 0 = .ok compressionLen := rfl
      have hfrom : fromBytes [compressionLen] = compressionLen.toNat := by
        simp [fromBytes]
      rw [hcompression,hbyte,hfrom]
      refine takeAt_bind h fun h _ => ?_
      refine takeAt_bind h fun h _ => ?_
      refine takeAt_bind h fun h _ => ?_
      dsimp only
      refine h.ite_end _ ?_
      rw [extensionsLoop_eq,List.drop_zero,lifted_bind]
      congr 1
      funext names
      match names with
      | [] => rfl
      | [name] => rfl
      | _::_::_ => rfl

end ClientHello
end FakeNetNG
