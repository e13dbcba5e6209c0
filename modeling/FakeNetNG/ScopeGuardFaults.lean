import FakeNetNG.ScopeGuardOrder

/-!
# When the IPv6 scope guard keeps its promise

Two things go wrong. `str` of a row's field that nests too deep raises a `RecursionError`, which no handler
catches. And where the canonical record has no text, since half of a surrogate pair has no UTF-8, the fingerprint
is that of the reasons, and these stand in the order of the interfaces.
-/

namespace FakeNetNG
namespace ScopeGuard

open JsonTokens (PyChar PyText Value Literal Token ofText toText tokens)
open KeyedTable

variable {py : Runtime} {facts facts' : Value} {tables : Tables}

/-- A text with UTF-8. -/
def Encodable (text : PyText) : Prop := text.any PyChar.isSurrogate = false

theorem encodable_ofText (text : Text) : Encodable (ofText text) := by
  rw [Encodable,ofText,List.any_map]
  simp [Function.comp_def,PyChar.isSurrogate]

/-- A token that is written and encoded. -/
def Token.Plain : Token → Prop
  | .punct _ => True
  | .str s => Encodable s
  | .lit (.int n) => ScopeGuard.isLong n = false
  | .lit _ => True

theorem encodable_append {a b : PyText} : Encodable (a++b) ↔ Encodable a ∧ Encodable b := by
  rw [Encodable,List.any_append,Bool.or_eq_false_iff]
  rfl

theorem encodable_flatMap {α : Type} {f : α → PyText} {l : List α} :
    Encodable (l.flatMap f) ↔ ∀ a ∈ l, Encodable (f a) := by
  induction l with
  | nil => simp [Encodable]
  | cons a l ih => rw [List.flatMap_cons,encodable_append,ih,List.forall_mem_cons]

theorem encodable_escape (c : PyChar) : Encodable (JsonTokens.escape c) ↔ c.isSurrogate = false := by
  cases c with
  | scalar c => exact iff_of_true (encodable_ofText _) rfl
  | surrogate n => simp [Encodable,JsonTokens.escape,PyChar.isSurrogate]

theorem encodable_text (t : Token) : Encodable (t.text JsonTokens.escape) ↔ ∀ s, t = .str s → Encodable s := by
  cases t with
  | punct p => exact iff_of_true (by simp [Encodable,JsonTokens.Token.text,PyChar.isSurrogate]) (by simp)
  | lit l => exact iff_of_true (encodable_ofText _) (by simp)
  | str s =>
    have hquote : PyChar.isSurrogate (.scalar Json.quote) = false := rfl
    have hchars : Encodable (s.flatMap JsonTokens.escape) ↔ Encodable s := by
      rw [encodable_flatMap,Encodable,List.any_eq_false]
      simp only [encodable_escape,Bool.not_eq_true]
    simp only [JsonTokens.Token.text,Token.str.injEq,forall_eq']
    rw [← hchars,Encodable,Encodable,List.cons_append,List.any_cons,List.any_append,List.any_cons,hquote]
    simp

/-- A value with a canonical text that has UTF-8. -/
def Plain (v : Value) : Prop := ∀ t ∈ tokens (sortKeys v), Token.Plain t

theorem encodable_write {v : Value} (h : Plain v) : Encodable (JsonTokens.write (sortKeys v)) := by
  refine encodable_flatMap.mpr fun t ht => (encodable_text t).mpr ?_
  rintro s rfl
  exact h _ ht

theorem fingerprint_of_plain {v : Value} (h : Plain v) (sha256 : Text → Text) :
    fingerprint sha256 v = .ok (sha256 (toText (JsonTokens.write (sortKeys v)))) := by
  have hlong : (tokens (sortKeys v)).any Token.isLong = false := by
    rw [List.any_eq_false]
    intro t ht
    have hplain := h t ht
    cases t with
    | lit l =>
      cases l with
      | int n =>
        rw [Token.isLong,Bool.not_eq_true]
        exact hplain
      | _ => exact Bool.false_ne_true
    | _ => exact Bool.false_ne_true
  rw [fingerprint,canonicalJson,hlong]
  show sha256Text sha256 _ = _
  rw [sha256Text,encodable_write h]
  rfl

theorem fingerprint_of_not_plain {v : Value} (h : ¬Plain v) (sha256 : Text → Text) :
    fingerprint sha256 v = .error .valueError := by
  rw [fingerprint,canonicalJson]
  cases hlong : (tokens (sortKeys v)).any Token.isLong with
  | true => rfl
  | false =>
    show sha256Text sha256 _ = _
    rw [sha256Text]
    cases htext : (JsonTokens.write (sortKeys v)).any PyChar.isSurrogate with
    | true => rfl
    | false =>
      refine absurd (fun t ht => ?_) h
      cases t with
      | punct p => trivial
      | str s => exact (encodable_text _).mp (encodable_flatMap.mp htext _ ht) s rfl
      | lit l =>
        cases l with
        | int n =>
          rw [List.any_eq_false] at hlong
          simpa [Token.isLong,Token.Plain] using hlong _ ht
        | _ => trivial

theorem forall_itemTokens {p : Token → Prop} (hp : ∀ c, p (.punct c)) (items : List Value) :
    (∀ t ∈ JsonTokens.itemTokens items, p t) ↔ ∀ v ∈ items, ∀ t ∈ tokens v, p t := by
  induction items with
  | nil => simp [JsonTokens.itemTokens,hp]
  | cons v items ih =>
    rw [JsonTokens.itemTokens,List.cons_append,List.forall_mem_cons,List.forall_mem_append,List.forall_mem_cons,ih,
      and_iff_right (hp _)]

theorem forall_tokens_arr {p : Token → Prop} (hp : ∀ c, p (.punct c)) (items : List Value) :
    (∀ t ∈ tokens (.arr items), p t) ↔ ∀ v ∈ items, ∀ t ∈ tokens v, p t := by
  cases items with
  | nil => simp [tokens,hp]
  | cons v items =>
    rw [tokens,List.cons_append,List.forall_mem_cons,List.forall_mem_append,List.forall_mem_cons,forall_itemTokens hp]
    exact and_iff_right (hp _)

theorem forall_memberTokens {p : Token → Prop} (hp : ∀ c, p (.punct c)) (members : List (PyText × Value)) :
    (∀ t ∈ JsonTokens.memberTokens members, p t) ↔ ∀ m ∈ members, p (.str m.1) ∧ ∀ t ∈ tokens m.2, p t := by
  induction members with
  | nil => simp [JsonTokens.memberTokens,hp]
  | cons m members ih =>
    rw [JsonTokens.memberTokens,List.cons_append,List.cons_append,List.cons_append,List.forall_mem_cons,
      List.forall_mem_cons,List.forall_mem_cons,List.forall_mem_append,List.forall_mem_cons,ih,and_iff_right (hp _),
      and_iff_right (hp _),and_assoc]

theorem forall_tokens_obj {p : Token → Prop} (hp : ∀ c, p (.punct c)) (members : List (PyText × Value)) :
    (∀ t ∈ tokens (.obj members), p t) ↔ ∀ m ∈ members, p (.str m.1) ∧ ∀ t ∈ tokens m.2, p t := by
  cases members with
  | nil => simp [tokens,hp]
  | cons m members =>
    rw [tokens,List.cons_append,List.cons_append,List.cons_append,List.forall_mem_cons,
      List.forall_mem_cons,List.forall_mem_cons,List.forall_mem_append,List.forall_mem_cons,forall_memberTokens hp,
      and_iff_right (hp _),and_iff_right (hp _),and_assoc]

@[simp] theorem plain_arr (items : List Value) : Plain (.arr items) ↔ ∀ v ∈ items, Plain v := by
  rw [Plain,sortKeys_arr,forall_tokens_arr fun _ => trivial,List.forall_mem_map]
  rfl

@[simp] theorem plain_obj (members : List (PyText × Value)) :
    Plain (.obj members) ↔ ∀ m ∈ members, Encodable m.1 ∧ Plain m.2 := by
  rw [Plain,sortKeys_obj,forall_tokens_obj fun _ => trivial]
  simp only [List.mem_mergeSort,List.mem_map]
  constructor
  · intro h m hm
    exact h _ ⟨m,hm,rfl⟩
  · rintro h - ⟨m,hm,rfl⟩
    exact h m hm

@[simp] theorem plain_str (s : PyText) : Plain (.str s) ↔ Encodable s := by
  simp [Plain,tokens,Token.Plain]

@[simp] theorem plain_int (n : ℤ) : Plain (.lit (.int n)) ↔ isLong n = false := by
  simp [Plain,tokens,Token.Plain]

@[simp] theorem plain_null : Plain (.lit .null) := by simp [Plain,tokens,Token.Plain]

@[simp] theorem plain_bool (b : Bool) : Plain (.lit (.bool b)) := by simp [Plain,tokens,Token.Plain]

@[simp] theorem plain_word (text : String) : Plain (word text) := (plain_str _).mpr (encodable_ofText _)

/-- The names of a record are words of the source. -/
theorem plain_members (members : List (String × Value)) :
    Plain (.obj (members.map fun m => member m.1 m.2)) ↔ ∀ m ∈ members, Plain m.2 := by
  rw [plain_obj,List.forall_mem_map]
  exact forall₂_congr fun m _ => and_iff_right (encodable_ofText _)

theorem plain_reasonsRecord (reasons : List String) : Plain (reasonsRecord reasons) := by
  refine (plain_members [("schema",word schema),("reasons",.arr (reasons.map word))]).mpr ?_
  simp

/-- The record of the tables has a text. -/
structure Written (tables : Tables) : Prop where
  inter : ∀ entry ∈ tables.inter, isLong entry.1 = false ∧ Encodable entry.2.forwarding ∧ Encodable entry.2.connectionState
  mapping : ∀ entry ∈ tables.mapping, Encodable entry.2
  addressRows : ∀ row ∈ tables.addressRows, Encodable (ofLex (ofLex row.1).2).1 ∧ Encodable row.2
  routeRows : ∀ row ∈ tables.routeRows, Encodable (ofLex (ofLex row.1).2).1 ∧ Encodable (ofLex (ofLex row.1).2).2

theorem plain_canonicalAddress (row : (ℕ ×ₗ PyText ×ₗ ℕ) × PyText) : Plain (canonicalAddress row) ↔
    isLong (ofLex row.1).1 = false ∧ Encodable (ofLex (ofLex row.1).2).1 ∧ isLong (ofLex (ofLex row.1).2).2 = false ∧
      Encodable row.2 := by
  refine (plain_members [("interface_index",_),("address",_),("prefix_length",_),("state",_)]).trans ?_
  simp

theorem plain_canonicalRoute (row : (ℕ ×ₗ PyText ×ₗ PyText) × Unit) : Plain (canonicalRoute row) ↔
    isLong (ofLex row.1).1 = false ∧ Encodable (ofLex (ofLex row.1).2).1 ∧ Encodable (ofLex (ofLex row.1).2).2 := by
  refine (plain_members [("interface_index",_),("prefix",_),("next_hop",_)]).trans ?_
  simp

theorem plain_canonicalType (entry : ℕ × PyText) : Plain (canonicalType entry) ↔
    isLong entry.1 = false ∧ Encodable entry.2 := by
  refine (plain_members [("index",_),("type",_)]).trans ?_
  simp

theorem plain_canonicalInterface (entry : ℕ × Interface) : Plain (canonicalInterface tables entry) ↔
    isLong entry.1 = false ∧ Encodable entry.2.forwarding ∧ Encodable entry.2.connectionState ∧
      ∀ type, tables.mapping.lookup entry.1 = some type → Encodable type := by
  refine (plain_members [("index",_),("forwarding",_),("connection_state",_),("type",_)]).trans ?_
  cases tables.mapping.lookup entry.1 <;> simp

theorem mem_sorted {κ ν : Type} [LinearOrder κ] {entries : List (κ × ν)} {entry : κ × ν} :
    entry ∈ sorted entries ↔ entry ∈ entries := List.mem_mergeSort

theorem plain_canonical : Plain (canonical tables) ↔ (∀ entry ∈ tables.inter, Plain (canonicalInterface tables entry)) ∧
    (∀ row ∈ tables.addressRows, Plain (canonicalAddress row)) ∧ (∀ row ∈ tables.routeRows, Plain (canonicalRoute row)) ∧
    ∀ entry ∈ tables.mapping, Plain (canonicalType entry) := by
  refine (plain_members [("schema",_),("complete",_),("errors",_),("interfaces",_),("addresses",_),("routes",_),
    ("os_map",_)]).trans ?_
  have hschema : Plain (.str (ofText schema.toList)) := plain_word schema
  simp only [List.forall_mem_cons,plain_arr,plain_bool,List.forall_mem_map,mem_sorted,hschema,List.not_mem_nil,
    IsEmpty.forall_iff,implies_true,true_and,and_true]

theorem isLong_of_le {n : ℕ} (h : n ≤ 128) : isLong n = false := by
  have hlength : (Text.decimal n).length ≤ 3 := Text.decimal_length_le (by omega) (by omega)
  rw [isLong,Int.natAbs_natCast]
  simp only [decide_eq_false_iff_not]
  omega

variable {interfaces addresses routes osMap : List Value}

/-- Every index stands in the table of the interfaces, and a prefix length is short. -/
theorem plain_canonical_iff (hread : Read py interfaces addresses routes osMap tables) :
    Plain (canonical tables) ↔ Written tables := by
  rw [plain_canonical]
  simp only [plain_canonicalInterface,plain_canonicalAddress,plain_canonicalRoute,plain_canonicalType]
  constructor
  · rintro ⟨hinter,haddress,hroute,htype⟩
    refine ⟨fun entry hentry => ?_,fun entry hentry => (htype entry hentry).2,fun row hrow => ?_,fun row hrow => ?_⟩
    · obtain ⟨hindex,hforwarding,hstate,-⟩ := hinter entry hentry
      exact ⟨hindex,hforwarding,hstate⟩
    · obtain ⟨-,haddr,-,hstate⟩ := haddress row hrow
      exact ⟨haddr,hstate⟩
    · exact (hroute row hrow).2
  · rintro ⟨hinter,htype,haddress,hroute⟩
    have hindexes : ∀ idx ∈ indexes tables.inter, isLong idx = false := by
      intro idx hidx
      obtain ⟨entry,hentry,rfl⟩ := List.mem_map.mp hidx
      exact (hinter entry hentry).1
    refine ⟨fun entry hentry => ?_,fun row hrow => ?_,fun row hrow => ?_,fun entry hentry => ?_⟩
    · obtain ⟨hindex,hforwarding,hstate⟩ := hinter entry hentry
      refine ⟨hindex,hforwarding,hstate,fun type hlookup => ?_⟩
      exact htype _ ((lookup_eq_some_iff (fill_nodup hread.mapping)).mp hlookup)
    · obtain ⟨source,-,hsource⟩ := (mem_fill hread.addressRows).mp hrow
      obtain ⟨hmem,-,hbound,-⟩ := readAddress_ok hsource
      exact ⟨hindexes _ hmem,(haddress row hrow).1,isLong_of_le hbound,(haddress row hrow).2⟩
    · obtain ⟨source,-,hsource⟩ := (mem_fill hread.routeRows).mp hrow
      exact ⟨hindexes _ (readRoute_ok hsource).1,hroute row hrow⟩
    · have hmem : entry.1 ∈ indexes tables.mapping := List.mem_map_of_mem hentry
      exact ⟨hindexes _ ((hread.coincide entry.1).mp hmem),htype entry hentry⟩

/-- The texts of the rows have UTF-8, and the indexes are not too long to be written. -/
structure Encodes (py : Runtime) (facts : Value) : Prop where
  index : ∀ row ∈ rowsOf facts "interfaces", ∀ idx, index? (get row "index") = some idx → isLong idx = false
  forwarding : ∀ row ∈ rowsOf facts "interfaces", ∀ text, forwarding py row = .ok text → Encodable text
  connectionState : ∀ row ∈ rowsOf facts "interfaces", ∀ text, connectionState py row = .ok text → Encodable text
  osType : ∀ row ∈ rowsOf facts "os_map", ∀ text, osType py row = .ok text → Encodable text
  address : ∀ row ∈ rowsOf facts "addresses", ∀ addr, get row "address" = .str addr → Encodable (py.lower addr)
  state : ∀ row ∈ rowsOf facts "addresses", ∀ text, strOr py (get row "state") = .ok text → Encodable text
  network : ∀ row ∈ rowsOf facts "routes", ∀ text network, get row "prefix" = .str text → readNetwork text = some network →
    Encodable network
  nextHop : ∀ row ∈ rowsOf facts "routes", ∀ nextHop, get row "next_hop" = .str nextHop → Encodable (py.lower nextHop)

theorem ok_unique {ε α : Type} {m : Except ε α} {a b : α} (ha : m = .ok a) (hb : m = .ok b) : a = b :=
  Except.ok.inj (ha.symm.trans hb)

theorem str_unique {v : Value} {s t : PyText} (hs : v = .str s) (ht : v = .str t) : s = t :=
  Value.str.inj (hs.symm.trans ht)

theorem Written.encodes (hread : Tabled py facts tables) (h : Written tables) : Encodes py facts := by
  constructor
  · intro row hrow idx hidx
    obtain ⟨entry,hmem,hentry⟩ := fill_row hread.inter hrow
    rw [← Option.some.inj ((readInterface_ok hentry).1.symm.trans hidx)]
    exact (h.inter entry hmem).1
  · intro row hrow text htext
    obtain ⟨entry,hmem,hentry⟩ := fill_row hread.inter hrow
    rw [ok_unique htext (readInterface_ok hentry).2.1]
    exact (h.inter entry hmem).2.1
  · intro row hrow text htext
    obtain ⟨entry,hmem,hentry⟩ := fill_row hread.inter hrow
    rw [ok_unique htext (readInterface_ok hentry).2.2]
    exact (h.inter entry hmem).2.2
  · intro row hrow text htext
    obtain ⟨entry,hmem,hentry⟩ := fill_row hread.mapping hrow
    rw [ok_unique htext (readOsMap_ok hentry).2]
    exact h.mapping entry hmem
  · intro row hrow addr haddr
    obtain ⟨entry,hmem,hentry⟩ := fill_row hread.addressRows hrow
    obtain ⟨-,-,-,-,addr',haddr',hlower⟩ := readAddress_ok hentry
    rw [str_unique haddr haddr',← hlower]
    exact (h.addressRows entry hmem).1
  · intro row hrow text htext
    obtain ⟨entry,hmem,hentry⟩ := fill_row hread.addressRows hrow
    rw [ok_unique htext (readAddress_ok hentry).2.1]
    exact (h.addressRows entry hmem).2
  · intro row hrow text network htext hnetwork
    obtain ⟨entry,hmem,hentry⟩ := fill_row hread.routeRows hrow
    obtain ⟨-,text',nextHop,htext',hnetwork',-⟩ := readRoute_ok hentry
    rw [str_unique htext htext',hnetwork'] at hnetwork
    rw [← Option.some.inj hnetwork]
    exact (h.routeRows entry hmem).1
  · intro row hrow nextHop hhop
    obtain ⟨entry,hmem,hentry⟩ := fill_row hread.routeRows hrow
    obtain ⟨-,text,nextHop',-,-,hhop',hlower⟩ := readRoute_ok hentry
    rw [str_unique hhop hhop',← hlower]
    exact (h.routeRows entry hmem).2

theorem Encodes.written (hread : Tabled py facts tables) (h : Encodes py facts) : Written tables := by
  refine ⟨fun entry hentry => ?_,fun entry hentry => ?_,fun entry hentry => ?_,fun entry hentry => ?_⟩
  · obtain ⟨row,hrow,hread⟩ := (mem_fill hread.inter).mp hentry
    obtain ⟨hindex,hforwarding,hstate⟩ := readInterface_ok hread
    exact ⟨h.index row hrow _ hindex,h.forwarding row hrow _ hforwarding,h.connectionState row hrow _ hstate⟩
  · obtain ⟨row,hrow,hread⟩ := (mem_fill hread.mapping).mp hentry
    exact h.osType row hrow _ (readOsMap_ok hread).2
  · obtain ⟨row,hrow,hread⟩ := (mem_fill hread.addressRows).mp hentry
    obtain ⟨-,hstate,-,-,addr,haddr,hlower⟩ := readAddress_ok hread
    rw [hlower]
    exact ⟨h.address row hrow addr haddr,h.state row hrow _ hstate⟩
  · obtain ⟨row,hrow,hread⟩ := (mem_fill hread.routeRows).mp hentry
    obtain ⟨-,text,nextHop,htext,hnetwork,hhop,hlower⟩ := readRoute_ok hread
    rw [hlower]
    exact ⟨h.network row hrow text _ htext hnetwork,h.nextHop row hrow nextHop hhop⟩

/-- What the strict check finds in an interface, in the order of its checks. -/
def interfaceFaults (py : Runtime) (type forwarding state : PyText) : List String :=
  addIf (!isUp state) "ipv6_interface_state_not_up"
    (addIf (!isDisabled forwarding) "ipv6_forwarding_enabled"
      (addIf (!isLoopbackType py type) "ipv6_nonloopback_interface" []))

def entryFaults (py : Runtime) (tables : Tables) (entry : ℕ × Interface) : List String :=
  interfaceFaults py (tables.typeOf entry.1) entry.2.forwarding entry.2.connectionState

theorem interfaceFaults_nodup (type forwarding state : PyText) : (interfaceFaults py type forwarding state).Nodup := by
  unfold interfaceFaults
  cases !isUp state <;> cases !isDisabled forwarding <;> cases !isLoopbackType py type <;> decide

theorem add_eq (reason : String) (reasons : List String) : add reason reasons = reasons++[reason].filter (· ∉ reasons) := by
  rw [add]
  by_cases hmem : reason ∈ reasons <;> simp [hmem]

theorem addIf_filter {condition : Bool} {reason : String} {reasons faults : List String} (h : reason ∉ faults) :
    addIf condition reason (reasons++faults.filter (· ∉ reasons)) =
      reasons++(addIf condition reason faults).filter (· ∉ reasons) := by
  cases condition with
  | false => rfl
  | true =>
    simp only [addIf,if_true,add_eq]
    by_cases hmem : reason ∈ reasons <;> simp [hmem,h]

theorem not_mem_addIf {condition : Bool} {reason reason' : String} {reasons : List String} (hne : reason' ≠ reason)
    (h : reason' ∉ reasons) : reason' ∉ addIf condition reason reasons := by
  cases condition with
  | false => exact h
  | true =>
    rw [addIf,if_pos rfl,add_eq,List.mem_append,List.mem_filter,List.mem_singleton]
    exact not_or.mpr ⟨h,fun hmem => hne hmem.1⟩

/-- The faults that no reason names yet come behind the reasons. -/
theorem interfaceReasons_eq (reasons : List String) (entry : ℕ × Interface) : interfaceReasons py tables reasons entry =
    reasons++(entryFaults py tables entry).filter (· ∉ reasons) := by
  have hstart : reasons = reasons++([] : List String).filter (· ∉ reasons) := by simp
  rw [interfaceReasons,entryFaults,interfaceFaults]
  nth_rewrite 1 [hstart]
  rw [addIf_filter (by simp),addIf_filter (not_mem_addIf (by decide) (by simp)),
    addIf_filter (not_mem_addIf (by decide) (not_mem_addIf (by decide) (by simp)))]

theorem filter_filter_append {reasons faults more : List String} (h : (faults++more).Nodup) :
    (faults++more).filter (· ∉ reasons++faults.filter (· ∉ reasons)) = more.filter (· ∉ reasons) := by
  have hfaults : faults.filter (· ∉ reasons++faults.filter (· ∉ reasons)) = [] := by
    rw [List.filter_eq_nil_iff]
    intro fault hfault
    simp only [List.mem_append,List.mem_filter,decide_eq_true_eq,not_not,hfault,true_and]
    exact em (fault ∈ reasons)
  rw [List.filter_append,hfaults,List.nil_append]
  refine List.filter_congr fun fault hfault => ?_
  have hother : fault ∉ faults := fun hmem => List.disjoint_of_nodup_append h hmem hfault
  simp [hother]

theorem filter_filter_begins {reasons faults more : List String} :
    faults.filter (· ∉ reasons++(faults++more).filter (· ∉ reasons)) = [] := by
  rw [List.filter_eq_nil_iff]
  intro fault hfault
  simp only [List.mem_append,List.mem_filter,decide_eq_true_eq,not_not,hfault,true_or,true_and]
  exact em (fault ∈ reasons)

/-- Of two lists of faults one begins with the other. -/
def Alike (faults faults' : List String) : Prop := faults <+: faults' ∨ faults' <+: faults

theorem interfaceReasons_comm_of_begins {entry entry' : ℕ × Interface}
    (h : entryFaults py tables entry <+: entryFaults py tables entry') (reasons : List String) :
    interfaceReasons py tables (interfaceReasons py tables reasons entry) entry' =
      interfaceReasons py tables (interfaceReasons py tables reasons entry') entry := by
  obtain ⟨more,hmore⟩ := h
  have hnodup : (entryFaults py tables entry++more).Nodup := by
    rw [hmore]
    exact interfaceFaults_nodup _ _ _
  simp only [interfaceReasons_eq,← hmore]
  rw [filter_filter_append hnodup,filter_filter_begins,List.append_nil,List.filter_append,List.append_assoc]

theorem interfaceReasons_comm {entry entry' : ℕ × Interface}
    (h : Alike (entryFaults py tables entry) (entryFaults py tables entry')) (reasons : List String) :
    interfaceReasons py tables (interfaceReasons py tables reasons entry) entry' =
      interfaceReasons py tables (interfaceReasons py tables reasons entry') entry := by
  obtain h | h := h
  · exact interfaceReasons_comm_of_begins h reasons
  · exact (interfaceReasons_comm_of_begins h reasons).symm

theorem addIf_grows (condition : Bool) (reason : String) (reasons : List String) :
    reasons <+: addIf condition reason reasons := by
  rw [addIf,add_eq]
  split
  · exact List.prefix_append _ _
  · exact List.prefix_rfl

theorem foldl_grows {α : Type} {f : List String → α → List String} (hf : ∀ reasons a, reasons <+: f reasons a) (l : List α)
    (reasons : List String) : reasons <+: l.foldl f reasons := by
  induction l generalizing reasons with
  | nil => exact List.prefix_rfl
  | cons a rest ih => exact (hf reasons a).trans (ih _)

/-- What is found in the first interface stands in front. -/
theorem faults_grows {entry : ℕ × Interface} {rest : List (ℕ × Interface)} (h : tables.inter = entry :: rest) :
    entryFaults py tables entry <+: strictReasons py tables := by
  have hfirst : interfaceReasons py tables [] entry = entryFaults py tables entry := by
    rw [interfaceReasons_eq]
    simp
  have hinter : entryFaults py tables entry <+: tables.inter.foldl (interfaceReasons py tables) [] := by
    rw [h,List.foldl_cons,hfirst]
    refine foldl_grows (fun reasons entry' => ?_) _ _
    rw [interfaceReasons_eq]
    exact List.prefix_append _ _
  rw [strictReasons]
  refine .trans ?_ (foldl_grows (fun reasons row => addIf_grows _ _ _) _ _)
  refine .trans ?_ (addIf_grows _ _ _)
  refine .trans ?_ (foldl_grows (fun reasons row => addIf_grows _ _ _) _ _)
  exact hinter.trans (addIf_grows _ _ _)

theorem addIf_comm (condition condition' : Bool) (reason : String) (reasons : List String) :
    addIf condition' reason (addIf condition reason reasons) = addIf condition reason (addIf condition' reason reasons) := by
  cases condition <;> cases condition' <;> rfl

theorem typeOf_reorder {tables' : Tables} (hread : Read py interfaces addresses routes osMap tables)
    (hsame : Reordered tables tables') (idx : ℕ) : tables'.typeOf idx = tables.typeOf idx := by
  rw [Tables.typeOf,Tables.typeOf,lookup_congr hsame.mapping (fill_nodup hread.mapping)]

theorem strictReasons_reorder {tables' : Tables} (hread : Read py interfaces addresses routes osMap tables)
    (hsame : Reordered tables tables')
    (halike : ∀ entry ∈ tables.inter, ∀ entry' ∈ tables.inter, Alike (entryFaults py tables entry) (entryFaults py tables entry')) :
    strictReasons py tables' = strictReasons py tables := by
  have hstep : interfaceReasons py tables' = interfaceReasons py tables := by
    funext reasons entry
    rw [interfaceReasons,interfaceReasons,typeOf_reorder hread hsame]
  have hinter : tables'.inter.foldl (interfaceReasons py tables) [] = tables.inter.foldl (interfaceReasons py tables) [] :=
    (hsame.inter.foldl_eq' (fun entry hentry entry' hentry' reasons =>
      interfaceReasons_comm (halike entry hentry entry' hentry') reasons) []).symm
  have hany : (tables'.addressRows.any fun row => isLoopbackAddress row.1) =
      tables.addressRows.any fun row => isLoopbackAddress row.1 := hsame.addressRows.symm.any_eq
  have hempty : tables'.routeRows.isEmpty = tables.routeRows.isEmpty := by
    rw [Bool.eq_iff_iff,List.isEmpty_iff_length_eq_zero,List.isEmpty_iff_length_eq_zero,hsame.routeRows.length_eq]
  rw [strictReasons,strictReasons,hstep,hinter,hany,hempty,
    hsame.addressRows.symm.foldl_eq' (fun row _ row' _ reasons => addIf_comm _ _ _ _),
    hsame.routeRows.symm.foldl_eq' (fun row _ row' _ reasons => addIf_comm _ _ _ _)]

/-- The type of an interface in the rows of the OS map. -/
def typeOfRow (py : Runtime) (osMap : List Value) (row : Value) : PyText :=
  ((osMap.find? fun row' => index? (get row' "index") = index? (get row "index")).bind fun row' =>
    (osType py row').toOption).getD []

/-- What the strict check finds in the row of an interface. -/
def rowFaults (py : Runtime) (facts row : Value) : List String :=
  interfaceFaults py (typeOfRow py (rowsOf facts "os_map") row) ((forwarding py row).toOption.getD [])
    ((connectionState py row).toOption.getD [])

theorem rowFaults_eq (hread : Tabled py facts tables) {row : Value} {entry : ℕ × Interface} (hmem : entry ∈ tables.inter)
    (h : readInterface py row = .ok entry) : rowFaults py facts row = entryFaults py tables entry := by
  obtain ⟨hindex,hforwarding,hstate⟩ := readInterface_ok h
  have htype : typeOfRow py (rowsOf facts "os_map") row = tables.typeOf entry.1 := by
    obtain ⟨mapped,hmapped,hsame⟩ := List.mem_map.mp ((hread.coincide entry.1).mpr (List.mem_map_of_mem hmem))
    obtain ⟨source,hsource,hentry⟩ := (mem_fill hread.mapping).mp hmapped
    rw [typeOfRow]
    cases hfind : (rowsOf facts "os_map").find? fun row' => index? (get row' "index") = index? (get row "index") with
    | none =>
      have hnone := List.find?_eq_none.mp hfind source hsource
      rw [(readOsMap_ok hentry).1,hindex,hsame] at hnone
      simp at hnone
    | some row' =>
      have hindex' : index? (get row' "index") = some entry.1 := by
        have hfound := List.find?_some hfind
        rw [decide_eq_true_eq] at hfound
        exact hfound.trans hindex
      obtain ⟨mapped',hmapped',hentry'⟩ := fill_row hread.mapping (List.mem_of_find?_eq_some hfind)
      obtain ⟨hkey,hmappedType⟩ := readOsMap_ok hentry'
      have hlookup := typeOf_of_mem hread hmapped'
      rw [← Option.some.inj (hindex'.symm.trans hkey)] at hlookup
      rw [Option.bind_some,hmappedType,hlookup]
      rfl
  rw [rowFaults,htype,hforwarding,hstate]
  rfl

/-- Of any two interfaces the faults of one begin with those of the other. -/
def FaultsAlike (py : Runtime) (facts : Value) : Prop :=
  ∀ row ∈ rowsOf facts "interfaces", ∀ row' ∈ rowsOf facts "interfaces", Alike (rowFaults py facts row) (rowFaults py facts row')

theorem faultsAlike_iff (hread : Tabled py facts tables) : FaultsAlike py facts ↔
    ∀ entry ∈ tables.inter, ∀ entry' ∈ tables.inter, Alike (entryFaults py tables entry) (entryFaults py tables entry') := by
  constructor
  · intro h entry hentry entry' hentry'
    obtain ⟨row,hrow,hsource⟩ := (mem_fill hread.inter).mp hentry
    obtain ⟨row',hrow',hsource'⟩ := (mem_fill hread.inter).mp hentry'
    rw [← rowFaults_eq hread hentry hsource,← rowFaults_eq hread hentry' hsource']
    exact h row hrow row' hrow'
  · intro h row hrow row' hrow'
    obtain ⟨entry,hentry,hsource⟩ := fill_row hread.inter hrow
    obtain ⟨entry',hentry',hsource'⟩ := fill_row hread.inter hrow'
    rw [rowFaults_eq hread hentry hsource,rowFaults_eq hread hentry' hsource']
    exact h entry hentry entry' hentry'

/-- No field that is read raises a `RecursionError`. -/
structure Bounded (py : Runtime) (facts : Value) : Prop where
  interface : ∀ row ∈ rowsOf facts "interfaces", readInterface py row ≠ .error .recursionError
  osMap : ∀ inter, fill (readInterface py) .valueError (rowsOf facts "interfaces") [] = .ok inter →
    ∀ row ∈ rowsOf facts "os_map", readOsMap py row ≠ .error .recursionError
  address : ∀ inter mapping, fill (readInterface py) .valueError (rowsOf facts "interfaces") [] = .ok inter →
    fill (readOsMap py) .valueError (rowsOf facts "os_map") [] = .ok mapping →
    (∀ idx, idx ∈ indexes mapping ↔ idx ∈ indexes inter) →
    ∀ row ∈ rowsOf facts "addresses", readAddress py (indexes inter) row ≠ .error .recursionError

theorem ensure_error {fault fault' : Fault} {condition : Bool} (h : ensure fault condition = .error fault') :
    fault' = fault ∧ condition = false := by
  cases condition with
  | false =>
    cases h
    exact ⟨rfl,rfl⟩
  | true => cases h

theorem need_error {α : Type} {fault fault' : Fault} {value : Option α} (h : need fault value = .error fault') :
    fault' = fault := by
  cases value with
  | none =>
    cases h
    rfl
  | some a => cases h

theorem readRoute_bounded (inter : List ℕ) (row : Value) : readRoute py inter row ≠ .error .recursionError := by
  intro h
  obtain h | ⟨-,-,h⟩ := error_of_bind h
  · cases (ensure_error h).1
  obtain h | ⟨idx,-,h⟩ := error_of_bind h
  · cases need_error h
  obtain h | ⟨netText,-,h⟩ := error_of_bind h
  · cases need_error h
  cases hhop : get row "next_hop" with
  | str nextHop =>
    rw [hhop] at h
    obtain h | ⟨network,-,h⟩ := error_of_bind h
    · cases need_error h
    · cases h
  | _ =>
    rw [hhop] at h
    cases h

theorem fill_bounded {κ ν : Type} [DecidableEq κ] {read : Value → Except Fault (κ × ν)} {rows : List Value}
    (h : ∀ row ∈ rows, read row ≠ .error .recursionError) : fill read .valueError rows [] ≠ .error .recursionError := by
  intro herror
  obtain hsame | ⟨row,hrow,hread⟩ := fill_error herror
  · cases hsame
  · exact h row hrow hread

/-- The first row that is read raises. -/
theorem fill_raises {κ ν : Type} [DecidableEq κ] {read : Value → Except Fault (κ × ν)} {row : Value} {rest : List Value}
    {fault : Fault} (h : read row = .error fault) : fill read .valueError (row :: rest) [] = .error fault := by
  rw [fill,h]
  rfl

theorem readFacts_bounded (h : Bounded py facts) : readFacts py facts ≠ .error .recursionError := by
  intro hfatal
  obtain hfatal | ⟨inter,hinter,hfatal⟩ := error_of_bind hfatal
  · exact fill_bounded h.interface hfatal
  obtain hfatal | ⟨mapping,hmapping,hfatal⟩ := error_of_bind hfatal
  · exact fill_bounded (h.osMap inter hinter) hfatal
  obtain hfatal | ⟨⟨⟩,hensure,hfatal⟩ := error_of_bind hfatal
  · cases (ensure_error hfatal).1
  have hsame := of_decide_eq_true (ensure_eq_ok hensure)
  obtain hfatal | ⟨addressRows,-,hfatal⟩ := error_of_bind hfatal
  · have hcoincide : ∀ idx, idx ∈ indexes mapping ↔ idx ∈ indexes inter := fun idx => ⟨fun h => hsame.1 h,fun h => hsame.2 h⟩
    exact fill_bounded (h.address inter mapping hinter hmapping hcoincide) hfatal
  obtain hfatal | ⟨routeRows,-,hfatal⟩ := error_of_bind hfatal
  · exact fill_bounded (fun row _ => readRoute_bounded _ row) hfatal
  · cases hfatal

theorem fault_caught {fault : Fault} (h : fault ≠ .recursionError) : fault.caught = true := by
  cases fault with
  | recursionError => exact absurd rfl h
  | _ => rfl

theorem Permuted.bounded (hsame : Permuted facts facts') (h : Bounded py facts) : Bounded py facts' := by
  have hinterRows := hsame.interfaces.rows.2
  have hosRows := hsame.osMap.rows.2
  have haddressRows := hsame.addresses.rows.2
  constructor
  · exact fun row hrow => h.interface row (hinterRows.mem_iff.mpr hrow)
  · intro inter hinter row hrow
    obtain ⟨inter',hinter',-⟩ := fill_perm hinterRows.symm hinter
    exact h.osMap inter' hinter' row (hosRows.mem_iff.mpr hrow)
  · intro inter mapping hinter hmapping hcoincide row hrow
    obtain ⟨inter',hinter',hperm⟩ := fill_perm hinterRows.symm hinter
    obtain ⟨mapping',hmapping',hpermMap⟩ := fill_perm hosRows.symm hmapping
    have hindexes : ∀ idx, idx ∈ indexes inter ↔ idx ∈ indexes inter' := fun idx => (hperm.map Prod.fst).mem_iff
    have htypes : ∀ idx, idx ∈ indexes mapping ↔ idx ∈ indexes mapping' := fun idx => (hpermMap.map Prod.fst).mem_iff
    rw [readAddress_congr hindexes]
    refine h.address inter' mapping' hinter' hmapping' (fun idx => ?_) row (haddressRows.mem_iff.mpr hrow)
    rw [← htypes,← hindexes]
    exact hcoincide idx

def setRows (facts : Value) (name : String) (rows : List Value) : Value :=
  match facts with
  | .obj members => .obj (members.filter (fun m => m.1 ≠ ofText name.toList)++[member name (.arr rows)])
  | v => v

theorem ofText_injective {text text' : Text} (h : ofText text = ofText text') : text = text' := by
  rw [← JsonTokens.toText_ofText text,h,JsonTokens.toText_ofText]

theorem get_setRows_self (h : isMapping facts = true) (name : String) (rows : List Value) :
    get (setRows facts name rows) name = .arr rows := by
  cases facts with
  | obj members => simp [setRows,get,member]
  | _ => cases h

theorem get_setRows_ne {name name' : String} (hne : name' ≠ name) (rows : List Value) :
    get (setRows facts name rows) name' = get facts name' := by
  cases facts with
  | obj members =>
    have hnames : ofText name.toList ≠ ofText name'.toList := fun h => hne (String.toList_inj.mp (ofText_injective h)).symm
    have hfind : (members.filter fun m => m.1 ≠ ofText name.toList).reverse.find? (fun m => m.1 = ofText name'.toList) =
        members.reverse.find? fun m => m.1 = ofText name'.toList := by
      rw [← List.filter_reverse,List.find?_filter]
      refine List.find?_congr fun m _ => ?_
      by_cases hname : m.1 = ofText name'.toList
      · simp [hname,hnames.symm]
      · simp [hname]
    simp only [setRows,get,List.reverse_append,List.reverse_singleton,List.singleton_append,member]
    rw [List.find?_cons_of_neg (by simpa using hnames),hfind]
  | _ => rfl

theorem permuted_setRows {name : String} {rows rows' : List Value} (h : isMapping facts = true)
    (hname : name ∉ ["schema","complete","errors"]) (hrows : get facts name = .arr rows) (hperm : rows.Perm rows') :
    Permuted facts (setRows facts name rows') := by
  have hsame : ∀ name', SameRows (get facts name') (get (setRows facts name rows') name') := by
    intro name'
    by_cases hne : name' = name
    · rw [hne,get_setRows_self h]
      exact .inr ⟨rows,rows',hrows,rfl,hperm⟩
    · rw [get_setRows_ne hne]
      exact .inl rfl
  have hother : ∀ name' ∈ ["schema","complete","errors"], get facts name' = get (setRows facts name rows') name' := by
    intro name' hname'
    have hne : name' ≠ name := fun hsame => hname (hsame ▸ hname')
    rw [get_setRows_ne hne]
  refine ⟨?_,hother _ (by simp),hother _ (by simp),hother _ (by simp),hsame _,hsame _,hsame _,hsame _⟩
  cases facts with
  | obj members => rfl
  | _ => rfl

theorem rowsOf_setRows_self {name : String} {rows' : List Value} (h : isMapping facts = true)
    (hrows : (rows? (get facts name)).isSome = true) (hperm : (rowsOf facts name).Perm rows') :
    rowsOf (setRows facts name rows') name = rows' := by
  obtain ⟨items,hitems⟩ := Option.isSome_iff_exists.mp hrows
  have hvalue := (rowsOf_spec hrows).1
  rw [hvalue,rows?] at hrows
  have hbounds : ¬(rowsOf facts name = [] ∨ 256 < (rowsOf facts name).length) := by
    intro hout
    rw [if_pos hout] at hrows
    cases hrows
  have hbounds' : ¬(rows' = [] ∨ 256 < rows'.length) := by
    rw [← hperm.length_eq,← List.length_eq_zero_iff,← hperm.length_eq,List.length_eq_zero_iff]
    exact hbounds
  rw [rowsOf,get_setRows_self h,rows?,if_neg hbounds',Option.getD_some]

theorem rowsOf_setRows_ne {name name' : String} (hne : name' ≠ name) (rows : List Value) :
    rowsOf (setRows facts name rows) name' = rowsOf facts name' := by rw [rowsOf,rowsOf,get_setRows_ne hne]

/-- The text that is hashed for the reasons alone. -/
def reasonsText (reasons : List String) : Text := toText (JsonTokens.write (sortKeys (reasonsRecord reasons)))

/-- The text that is hashed for the tables. -/
def tablesText (tables : Tables) : Text := toText (JsonTokens.write (sortKeys (canonical tables)))

variable {sha256 : Text → Text}

theorem refused_spec (sha256 : Text → Text) (reasons : List String) : ∃ guard, refused sha256 reasons = .ok guard ∧ guard.value = none ∧
    guard.fingerprint = some (sha256 (reasonsText reasons)) := by
  rw [refused,fingerprint_of_plain (plain_reasonsRecord reasons)]
  exact ⟨_,rfl,rfl,rfl⟩

/-- The guard's value and what it is the fingerprint of. -/
def Answers (sha256 : Text → Text) (py : Runtime) (facts : Value) (value : Option Bool) (text : Option Text) : Prop :=
  ∃ guard, normalizeIpv6Exposure sha256 py facts = .ok guard ∧ guard.value = value ∧ guard.fingerprint = text.map sha256

theorem answers_of_not_mapping (h : isMapping facts = false) : Answers sha256 py facts none none := by
  refine ⟨invalid,?_,rfl,rfl⟩
  rw [normalizeIpv6Exposure,h]
  rfl

theorem answers_of_reasons (h : isMapping facts = true) (hreasons : factReasons facts ≠ []) :
    Answers sha256 py facts none (some (reasonsText (factReasons facts))) := by
  obtain ⟨guard,hguard,hvalue,hfingerprint⟩ := refused_spec sha256 (factReasons facts)
  refine ⟨guard,?_,hvalue,hfingerprint⟩
  rw [normalizeIpv6Exposure,h,if_neg (by simp),if_pos hreasons,hguard]

theorem readFacts_iff : readFacts py facts = .ok tables ↔ Tabled py facts tables := readTables_iff

theorem normalize_of_error (h : isMapping facts = true) (hreasons : factReasons facts = []) {fault : Fault}
    (hread : readFacts py facts = .error fault) : normalizeIpv6Exposure sha256 py facts = malformed sha256 [] fault := by
  rw [normalizeIpv6Exposure,h,if_neg (by simp),if_neg (by simp [hreasons]),hread]

theorem answers_of_unread (h : isMapping facts = true) (hreasons : factReasons facts = []) (hbounded : Bounded py facts)
    (hread : ¬∃ tables, Tabled py facts tables) :
    Answers sha256 py facts none (some (reasonsText ["ipv6_facts_malformed"])) := by
  obtain ⟨guard,hguard,hvalue,hfingerprint⟩ := refused_spec sha256 ["ipv6_facts_malformed"]
  refine ⟨guard,?_,hvalue,hfingerprint⟩
  cases htables : readFacts py facts with
  | ok tables => exact absurd ⟨tables,readFacts_iff.mp htables⟩ hread
  | error fault =>
    have hcaught : fault.caught = true := fault_caught fun hsame => readFacts_bounded hbounded (hsame ▸ htables)
    rw [normalize_of_error h hreasons htables,malformed,if_pos hcaught]
    exact hguard

theorem raises_of_fatal (h : isMapping facts = true) (hreasons : factReasons facts = [])
    (hfatal : readFacts py facts = .error .recursionError) : normalizeIpv6Exposure sha256 py facts = .error .recursionError :=
  normalize_of_error h hreasons hfatal

theorem answers_of_written (h : isMapping facts = true) (hreasons : factReasons facts = []) (hread : Tabled py facts tables)
    (hwritten : Written tables) : Answers sha256 py facts (if (strictReasons py tables).isEmpty then some true else none)
      (some (tablesText tables)) := by
  have hassessed : ∃ guard, assessed sha256 py tables = .ok guard ∧
      guard.value = (if (strictReasons py tables).isEmpty then some true else none) ∧
      guard.fingerprint = some (sha256 (tablesText tables)) := by
    rw [assessed,fingerprint_of_plain ((plain_canonical_iff hread).mpr hwritten)]
    exact ⟨_,rfl,rfl,rfl⟩
  obtain ⟨guard,hguard,hvalue,hfingerprint⟩ := hassessed
  refine ⟨guard,?_,hvalue,hfingerprint⟩
  rw [normalizeIpv6Exposure,h,if_neg (by simp),if_neg (by simp [hreasons]),readFacts_iff.mpr hread]
  simp only [hguard]

/-- The handler adds its reason to those of the strict check. -/
theorem answers_of_not_written (h : isMapping facts = true) (hreasons : factReasons facts = [])
    (hread : Tabled py facts tables) (hwritten : ¬Written tables) : Answers sha256 py facts none
      (some (reasonsText (add "ipv6_facts_malformed" (strictReasons py tables)))) := by
  have hassessed : assessed sha256 py tables = .error .valueError := by
    rw [assessed,fingerprint_of_not_plain fun hplain => hwritten ((plain_canonical_iff hread).mp hplain)]
    rfl
  obtain ⟨guard,hguard,hvalue,hfingerprint⟩ := refused_spec sha256
    (add "ipv6_facts_malformed" (strictReasons py tables))
  refine ⟨guard,?_,hvalue,hfingerprint⟩
  rw [normalizeIpv6Exposure,h,if_neg (by simp),if_neg (by simp [hreasons]),readFacts_iff.mpr hread]
  simp only [hassessed,malformed,Fault.caught,if_true,hguard]

theorem written_reorder {tables' : Tables} (hread : Tabled py facts tables) (hread' : Tabled py facts' tables')
    (hreordered : Reordered tables tables') : Written tables' ↔ Written tables := by
  rw [← plain_canonical_iff hread',← canonical_reorder hread hreordered,plain_canonical_iff hread]

/-- The guard returns, has a value only for the loopback alone, and gives the same value and fingerprint for the
rows in any order, whatever the hash of the fingerprint is. -/
def FailClosed (py : Runtime) (facts : Value) : Prop := ∀ sha256 : Text → Text, ∃ guard,
  normalizeIpv6Exposure sha256 py facts = .ok guard ∧
  (guard.value = some true → ∃ interfaces addresses routes osMap, LoopbackOnly py facts interfaces addresses routes osMap) ∧
  ∀ facts', Permuted facts facts' → ∃ guard', normalizeIpv6Exposure sha256 py facts' = .ok guard' ∧
    guard'.value = guard.value ∧ guard'.fingerprint = guard.fingerprint

theorem Permuted.refl (facts : Value) : Permuted facts facts :=
  ⟨rfl,rfl,rfl,rfl,.inl rfl,.inl rfl,.inl rfl,.inl rfl⟩

theorem failClosed_of_answers (value : Option Bool) (text : Option Text)
    (hself : value = some true → ∃ interfaces addresses routes osMap, LoopbackOnly py facts interfaces addresses routes osMap)
    (h : ∀ facts', Permuted facts facts' → ∀ sha256, Answers sha256 py facts' value text) : FailClosed py facts := by
  intro sha256
  obtain ⟨guard,hguard,hvalue,hfingerprint⟩ := h facts (.refl facts) sha256
  refine ⟨guard,hguard,fun htrue => hself (hvalue.symm.trans htrue),fun facts' hsame => ?_⟩
  obtain ⟨guard',hguard',hvalue',hfingerprint'⟩ := h facts' hsame sha256
  exact ⟨guard',hguard',hvalue'.trans hvalue.symm,hfingerprint'.trans hfingerprint.symm⟩

/-- When the rows can be read, either their record has a text or the order of the interfaces does not show. -/
structure Careful (py : Runtime) (facts : Value) : Prop where
  bounded : Bounded py facts
  encodes : ∀ tables, Tabled py facts tables → Encodes py facts ∨ FaultsAlike py facts

theorem mapping_of_permuted (hmapping : isMapping facts = true) (hsame : Permuted facts facts') : isMapping facts' = true :=
  hsame.mapping.symm.trans hmapping

theorem factReasons_of_permuted (hreasons : factReasons facts = []) (hsame : Permuted facts facts') :
    factReasons facts' = [] :=
  (factReasons_permuted hsame).symm.trans hreasons

theorem failClosed_of_written (hmapping : isMapping facts = true) (hreasons : factReasons facts = [])
    (hread : Tabled py facts tables) (hwritten : Written tables) : FailClosed py facts := by
  refine failClosed_of_answers (if (strictReasons py tables).isEmpty then some true else none)
    (some (tablesText tables)) (fun htrue => ?_) (fun facts' hsame sha256 => ?_)
  · have hstrict : Strict py tables := by
      rw [← strictReasons_eq_nil,← List.isEmpty_iff]
      by_contra hempty
      rw [if_neg hempty] at htrue
      cases htrue
    exact ⟨_,_,_,_,loopbackOnly (factReasons_eq_nil.mp hreasons) hread hstrict⟩
  · obtain ⟨tables',hread',hreordered⟩ := hsame.tabled hread
    have hstrict : Strict py tables ↔ Strict py tables' :=
      ⟨fun h => h.reorder hreordered (fill_nodup hread.mapping),
        fun h => h.reorder hreordered.symm (fill_nodup hread'.mapping)⟩
    have hvalue : (strictReasons py tables').isEmpty = (strictReasons py tables).isEmpty := by
      rw [Bool.eq_iff_iff,List.isEmpty_iff,List.isEmpty_iff,strictReasons_eq_nil,strictReasons_eq_nil,hstrict]
    rw [← hvalue,tablesText,canonical_reorder hread hreordered]
    exact answers_of_written (mapping_of_permuted hmapping hsame) (factReasons_of_permuted hreasons hsame) hread'
      ((written_reorder hread hread' hreordered).mpr hwritten)

theorem failClosed_of_faultsAlike (hmapping : isMapping facts = true) (hreasons : factReasons facts = [])
    (hread : Tabled py facts tables) (hwritten : ¬Written tables) (halike : FaultsAlike py facts) : FailClosed py facts := by
  refine failClosed_of_answers none (some (reasonsText (add "ipv6_facts_malformed" (strictReasons py tables))))
    (fun htrue => by cases htrue) (fun facts' hsame sha256 => ?_)
  obtain ⟨tables',hread',hreordered⟩ := hsame.tabled hread
  have hwritten' : ¬Written tables' := by
    rwa [written_reorder hread hread' hreordered]
  rw [← strictReasons_reorder hread hreordered ((faultsAlike_iff hread).mp halike)]
  exact answers_of_not_written (mapping_of_permuted hmapping hsame) (factReasons_of_permuted hreasons hsame) hread' hwritten'

theorem failClosed_of_unread (hmapping : isMapping facts = true) (hreasons : factReasons facts = [])
    (hbounded : Bounded py facts) (hread : ¬∃ tables, Tabled py facts tables) : FailClosed py facts := by
  refine failClosed_of_answers none (some (reasonsText ["ipv6_facts_malformed"]))
    (fun htrue => by cases htrue) (fun facts' hsame sha256 => ?_)
  refine answers_of_unread (mapping_of_permuted hmapping hsame) (factReasons_of_permuted hreasons hsame)
    (hsame.bounded hbounded) ?_
  rintro ⟨tables',hread'⟩
  obtain ⟨tables,htables,-⟩ := hsame.symm.tabled hread'
  exact hread ⟨tables,htables⟩

theorem failClosed_of_careful (hmapping : isMapping facts = true) (hreasons : factReasons facts = [])
    (h : Careful py facts) : FailClosed py facts := by
  by_cases hread : ∃ tables, Tabled py facts tables
  · obtain ⟨tables,hread⟩ := hread
    by_cases hwritten : Written tables
    · exact failClosed_of_written hmapping hreasons hread hwritten
    · have halike : FaultsAlike py facts := (h.encodes tables hread).resolve_left fun hencodes =>
        hwritten (hencodes.written hread)
      exact failClosed_of_faultsAlike hmapping hreasons hread hwritten halike
  · exact failClosed_of_unread hmapping hreasons h.bounded hread

theorem FailClosed.returns (h : FailClosed py facts) (hsame : Permuted facts facts') (sha256 : Text → Text) :
    normalizeIpv6Exposure sha256 py facts' ≠ .error .recursionError := by
  obtain ⟨guard,-,-,hall⟩ := h sha256
  obtain ⟨guard',hguard',-⟩ := hall facts' hsame
  rw [hguard']
  exact fun herror => by cases herror

theorem exists_front {rows : List Value} {row : Value} (h : row ∈ rows) : ∃ rest, rows.Perm (row :: rest) := by
  obtain ⟨front,back,rfl⟩ := List.append_of_mem h
  exact ⟨front++back,List.perm_middle⟩

/-- A row that raises does so at the latest when it is the first of its list. -/
theorem bounded_of_failClosed (hmapping : isMapping facts = true) (hreasons : factReasons facts = [])
    (h : FailClosed py facts) : Bounded py facts := by
  have hfacts := factReasons_eq_nil.mp hreasons
  have hreads : ∀ facts', Permuted facts facts' → readFacts py facts' ≠ .error .recursionError := fun facts' hsame hfatal =>
    h.returns hsame id (raises_of_fatal (mapping_of_permuted hmapping hsame) (factReasons_of_permuted hreasons hsame) hfatal)
  constructor
  · intro row hrow hread
    obtain ⟨rest,hperm⟩ := exists_front hrow
    refine hreads _ (permuted_setRows hmapping (by decide) (rowsOf_spec hfacts.interfaces).1 hperm) ?_
    rw [readFacts,readTables,rowsOf_setRows_self hmapping hfacts.interfaces hperm,fill_raises hread]
    rfl
  · intro inter hinter row hrow hread
    obtain ⟨rest,hperm⟩ := exists_front hrow
    refine hreads _ (permuted_setRows hmapping (by decide) (rowsOf_spec hfacts.osMap).1 hperm) ?_
    rw [readFacts,readTables,rowsOf_setRows_ne (by decide),hinter,rowsOf_setRows_self hmapping hfacts.osMap hperm]
    show (fill _ _ _ _ >>= _) = _
    rw [fill_raises hread]
    rfl
  · intro inter mapping hinter hmappingRead hcoincide row hrow hread
    obtain ⟨rest,hperm⟩ := exists_front hrow
    refine hreads _ (permuted_setRows hmapping (by decide) (rowsOf_spec hfacts.addresses).1 hperm) ?_
    have hsubset : indexes mapping ⊆ indexes inter ∧ indexes inter ⊆ indexes mapping :=
      ⟨fun idx => (hcoincide idx).mp,fun idx => (hcoincide idx).mpr⟩
    rw [readFacts,readTables,rowsOf_setRows_ne (by decide),rowsOf_setRows_ne (by decide),hinter,
      rowsOf_setRows_self hmapping hfacts.addresses hperm]
    show (fill _ _ _ _ >>= _) = _
    rw [hmappingRead]
    show (ensure _ _ >>= _) = _
    rw [decide_eq_true hsubset]
    show (fill _ _ _ _ >>= _) = _
    rw [fill_raises hread]
    rfl

theorem ofText_toText {text : PyText} (h : Encodable text) : ofText (toText text) = text := by
  induction text with
  | nil => rfl
  | cons c rest ih =>
    rw [Encodable,List.any_cons,Bool.or_eq_false_iff] at h
    cases c with
    | scalar c =>
      have hrest := ih h.2
      rw [ofText] at hrest
      rw [toText,ofText,List.map_cons,hrest]
    | surrogate n => cases h.1

theorem word_injective {text text' : String} (h : word text = word text') : text = text' :=
  String.toList_inj.mp (ofText_injective (Value.str.inj h))

theorem sortKeys_reasonsRecord (reasons : List String) : sortKeys (reasonsRecord reasons) =
    .obj ([member "schema" (word schema),member "reasons" (.arr (reasons.map word))].mergeSort
      fun a b => decide (a.1 ≤ b.1)) := by
  have hitems : (reasons.map word).map sortKeys = reasons.map word := by
    rw [List.map_map]
    exact List.map_congr_left fun _ _ => rfl
  rw [reasonsRecord,sortKeys_obj,List.map_cons,List.map_cons,List.map_nil]
  simp only [member,word,sortKeys_str,sortKeys_arr,hitems]

theorem reasonsText_injective {reasons reasons' : List String} (h : reasonsText reasons = reasonsText reasons') :
    reasons = reasons' := by
  have hwrite : JsonTokens.write (sortKeys (reasonsRecord reasons)) = JsonTokens.write (sortKeys (reasonsRecord reasons')) := by
    rw [← ofText_toText (encodable_write (plain_reasonsRecord reasons)),
      ← ofText_toText (encodable_write (plain_reasonsRecord reasons'))]
    exact congrArg ofText h
  have hloads := congrArg JsonTokens.loads hwrite
  rw [JsonTokens.write,JsonTokens.write,JsonTokens.loads_render JsonTokens.reads_escape,
    JsonTokens.loads_render JsonTokens.reads_escape,Option.some.injEq] at hloads
  -- the members of the record stand in the order of their names, and `reasons` is one of them
  rw [sortKeys_reasonsRecord,sortKeys_reasonsRecord,Value.obj.injEq] at hloads
  have hmem : member "reasons" (.arr (reasons.map word)) ∈ [member "schema" (word schema),
      member "reasons" (.arr (reasons'.map word))] := by
    rw [← List.mem_mergeSort,← hloads,List.mem_mergeSort]
    simp
  rw [List.mem_cons,List.mem_singleton] at hmem
  obtain hmem | hmem := hmem
  · have hnames : ofText "reasons".toList ≠ ofText "schema".toList := by decide
    exact absurd (congrArg Prod.fst hmem) hnames
  · exact (List.map_injective_iff.mpr fun _ _ => word_injective) (Value.arr.inj (congrArg Prod.snd hmem))

/-- Each interface can be made the first, and its faults are then the first reasons. -/
theorem exists_reasons (hmapping : isMapping facts = true) (hreasons : factReasons facts = []) (hread : Tabled py facts tables)
    (hwritten : ¬Written tables) {row : Value} (hrow : row ∈ rowsOf facts "interfaces") :
    ∃ facts' reasons, Permuted facts facts' ∧ rowFaults py facts row <+: reasons ∧
      ∀ sha256, Answers sha256 py facts' none (some (reasonsText reasons)) := by
  have hfacts := factReasons_eq_nil.mp hreasons
  obtain ⟨rest,hperm⟩ := exists_front hrow
  have hsame := permuted_setRows hmapping (by decide) (rowsOf_spec hfacts.interfaces).1 hperm
  obtain ⟨tables',hread',hreordered⟩ := hsame.tabled hread
  obtain ⟨entry,hentry,hsource⟩ := fill_row hread.inter hrow
  have hfirst : tables'.inter = entry :: readable (readInterface py) rest := by
    have hinter := hread'.inter
    rw [rowsOf_setRows_self hmapping hfacts.interfaces hperm] at hinter
    rw [(fill_nil_spec.mp hinter).2.1,readable,List.filterMap_cons,hsource]
    rfl
  have hfaults : rowFaults py facts row = entryFaults py tables' entry := by
    rw [rowFaults_eq hread hentry hsource,entryFaults,entryFaults,typeOf_reorder hread hreordered]
  have hwritten' : ¬Written tables' := by
    rwa [written_reorder hread hread' hreordered]
  refine ⟨_,add "ipv6_facts_malformed" (strictReasons py tables'),hsame,?_,fun sha256 => ?_⟩
  · rw [hfaults]
    exact (faults_grows hfirst).trans (addIf_grows true _ _)
  · exact answers_of_not_written (mapping_of_permuted hmapping hsame) (factReasons_of_permuted hreasons hsame) hread' hwritten'

theorem faultsAlike_of_failClosed (hmapping : isMapping facts = true) (hreasons : factReasons facts = [])
    (hread : Tabled py facts tables) (hencodes : ¬Encodes py facts) (h : FailClosed py facts) : FaultsAlike py facts := by
  have hwritten : ¬Written tables := fun hwritten => hencodes (hwritten.encodes hread)
  obtain ⟨guard,-,-,hall⟩ := h id
  have hfingerprint : ∀ row ∈ rowsOf facts "interfaces", ∃ reasons, rowFaults py facts row <+: reasons ∧
      guard.fingerprint = some (reasonsText reasons) := by
    intro row hrow
    obtain ⟨facts',reasons,hsame,hbegins,hanswers⟩ := exists_reasons hmapping hreasons hread hwritten hrow
    obtain ⟨guard',hguard',-,htext⟩ := hanswers id
    obtain ⟨guard'',hguard'',-,hequal⟩ := hall facts' hsame
    rw [ok_unique hguard'' hguard',htext] at hequal
    exact ⟨reasons,hbegins,hequal.symm⟩
  intro row hrow row' hrow'
  obtain ⟨reasons,hbegins,htext⟩ := hfingerprint row hrow
  obtain ⟨reasons',hbegins',htext'⟩ := hfingerprint row' hrow'
  have hsame : reasons = reasons' := reasonsText_injective (Option.some.inj (htext.symm.trans htext'))
  rw [← hsame] at hbegins'
  exact List.prefix_or_prefix_of_prefix hbegins hbegins'

/-- The guard keeps its promise exactly when nothing that is read nests too deep and, for facts that can be read, the
texts have UTF-8 or the faults of the interfaces are alike. -/
theorem normalizeIpv6Exposure_failClosed_iff (py : Runtime) (facts : Value) :
    FailClosed py facts ↔ (isMapping facts = true → factReasons facts = [] → Careful py facts) := by
  constructor
  · intro h hmapping hreasons
    refine ⟨bounded_of_failClosed hmapping hreasons h,fun tables hread => ?_⟩
    by_cases hencodes : Encodes py facts
    · exact .inl hencodes
    · exact .inr (faultsAlike_of_failClosed hmapping hreasons hread hencodes h)
  · intro h
    cases hmapping : isMapping facts with
    | false =>
      refine failClosed_of_answers none none (fun htrue => by cases htrue) (fun facts' hsame sha256 => ?_)
      exact answers_of_not_mapping (hsame.mapping.symm.trans hmapping)
    | true =>
      by_cases hreasons : factReasons facts = []
      · exact failClosed_of_careful hmapping hreasons (h hmapping hreasons)
      · refine failClosed_of_answers none (some (reasonsText (factReasons facts))) (fun htrue => by cases htrue)
          (fun facts' hsame sha256 => ?_)
        rw [factReasons_permuted hsame]
        refine answers_of_reasons (mapping_of_permuted hmapping hsame) ?_
        rw [← factReasons_permuted hsame]
        exact hreasons

section Sample

def sampleRow (members : List (String × Value)) : Value := .obj (members.map fun m => member m.1 m.2)

def sampleInterface (index : ℕ) (forwarding : String) : Value := sampleRow
  [("index",number index),("forwarding",word forwarding),("connection_state",word "Connected")]

def sampleFacts (interfaces osMap : List Value) (state : Value) : Value := sampleRow
  [("schema",word "fakenetng.ipv6-exposure.v1"),("complete",.lit (.bool true)),("errors",.arr []),
    ("interfaces",.arr interfaces),
    ("addresses",.arr [sampleRow [("interface_index",number 1),("address",word "::1"),("prefix_length",number 128),
      ("state",state)]]),
    ("routes",.arr [sampleRow [("interface_index",number 1),("prefix",word "FF00:0::/8"),("next_hop",word "::")],
      sampleRow [("interface_index",number 1),("prefix",word "::1/128"),("next_hop",word "::")]]),
    ("os_map",.arr osMap)]

def lowerChar : PyChar → PyChar
  | .scalar c => .scalar c.toLower
  | c => c

def sampleRuntime : Runtime where
  lower := List.map lowerChar
  repr _ := .ok (ofText "[...]".toList)

def loopbackFacts : Value := sampleFacts [sampleInterface 1 "Disabled"]
  [sampleRow [("index",number 1),("type",word "Loopback")]] (word "Preferred")

/-- The facts of a machine without an IPv6 network pass. -/
example : ((readFacts sampleRuntime loopbackFacts).toOption.map (strictReasons sampleRuntime)) = some [] := by decide

/-- Half of a surrogate pair as the state of an address, an interface that is no loopback and one that forwards. -/
def unpairedFacts : Value := sampleFacts [sampleInterface 1 "Enabled",sampleInterface 2 "Disabled"]
  [sampleRow [("index",number 1),("type",word "Loopback")],sampleRow [("index",number 2),("type",word "Ethernet")]]
  (.str [.surrogate 0])

theorem unpaired_not_failClosed : ¬FailClosed sampleRuntime unpairedFacts := by
  intro h
  have hread : ∃ tables, Tabled sampleRuntime unpairedFacts tables := by
    obtain ⟨tables,htables⟩ := isOk_iff.mp (show (readFacts sampleRuntime unpairedFacts).isOk = true by decide)
    exact ⟨tables,readFacts_iff.mp htables⟩
  obtain ⟨tables,hread⟩ := hread
  have hencodes : ¬Encodes sampleRuntime unpairedFacts := by
    intro hencodes
    have hstate := hencodes.state _ List.mem_cons_self [.surrogate 0] rfl
    cases hstate
  have halike := faultsAlike_of_failClosed rfl (by decide) hread hencodes h
  have hfaults := halike _ List.mem_cons_self _ (List.mem_cons_of_mem _ List.mem_cons_self)
  exact absurd hfaults (by unfold Alike; decide)

end Sample

end ScopeGuard
end FakeNetNG
