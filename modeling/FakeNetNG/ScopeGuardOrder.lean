import FakeNetNG.ScopeGuard

/-!
# What the IPv6 scope guard promises

A guard has a value only when the loopback interface with its address and its routes is all that the facts
show, and the tables that are read, with the canonical record of them, do not depend on the order of the rows.
-/

namespace FakeNetNG
namespace ScopeGuard

open JsonTokens (PyText Value ofText)
open KeyedTable

variable {py : Runtime}

/-- How the tables were read. -/
structure Read (py : Runtime) (interfaces addresses routes osMap : List Value) (tables : Tables) : Prop where
  inter : fill (readInterface py) .valueError interfaces [] = .ok tables.inter
  mapping : fill (readOsMap py) .valueError osMap [] = .ok tables.mapping
  coincide : ∀ idx, idx ∈ indexes tables.mapping ↔ idx ∈ indexes tables.inter
  addressRows : fill (readAddress py (indexes tables.inter)) .valueError addresses [] = .ok tables.addressRows
  routeRows : fill (readRoute py (indexes tables.inter)) .valueError routes [] = .ok tables.routeRows

variable {interfaces addresses routes osMap : List Value} {tables : Tables}

theorem ensure_eq_ok {fault : Fault} {condition : Bool} (h : ensure fault condition = .ok ()) : condition = true := by
  cases condition with
  | false => cases h
  | true => rfl

theorem readTables_iff : readTables py interfaces addresses routes osMap = .ok tables ↔
    Read py interfaces addresses routes osMap tables := by
  constructor
  · intro h
    obtain ⟨inter,hinter,h⟩ := ok_of_bind h
    obtain ⟨mapping,hmapping,h⟩ := ok_of_bind h
    obtain ⟨⟨⟩,hcoincide,h⟩ := ok_of_bind h
    obtain ⟨addressRows,haddressRows,h⟩ := ok_of_bind h
    obtain ⟨routeRows,hrouteRows,h⟩ := ok_of_bind h
    cases h
    refine ⟨hinter,hmapping,?_,haddressRows,hrouteRows⟩
    have hsame := of_decide_eq_true (ensure_eq_ok hcoincide)
    exact fun idx => ⟨fun h => hsame.1 h,fun h => hsame.2 h⟩
  · rintro ⟨hinter,hmapping,hcoincide,haddressRows,hrouteRows⟩
    have hsame : indexes tables.mapping ⊆ indexes tables.inter ∧ indexes tables.inter ⊆ indexes tables.mapping :=
      ⟨fun idx => (hcoincide idx).mp,fun idx => (hcoincide idx).mpr⟩
    rw [readTables,hinter]
    show (fill _ _ _ _ >>= _) = _
    rw [hmapping]
    show (ensure _ _ >>= _) = _
    rw [decide_eq_true hsame]
    show (fill _ _ _ _ >>= _) = _
    rw [haddressRows]
    show (fill _ _ _ _ >>= _) = _
    rw [hrouteRows]
    rfl

theorem need_eq_ok {α : Type} {fault : Fault} {value : Option α} {a : α} (h : need fault value = .ok a) : value = some a := by
  cases value with
  | none => cases h
  | some a' =>
    cases h
    rfl

theorem readInterface_ok {row : Value} {entry : ℕ × Interface} (h : readInterface py row = .ok entry) :
    index? (get row "index") = some entry.1 ∧ forwarding py row = .ok entry.2.forwarding ∧
    connectionState py row = .ok entry.2.connectionState := by
  obtain ⟨-,-,h⟩ := ok_of_bind h
  obtain ⟨idx,hidx,h⟩ := ok_of_bind h
  obtain ⟨forwarding,hforwarding,h⟩ := ok_of_bind h
  obtain ⟨state,hstate,h⟩ := ok_of_bind h
  by_cases hempty : forwarding = [] ∨ state = []
  · rw [if_pos hempty] at h
    cases h
  · rw [if_neg hempty] at h
    cases h
    exact ⟨need_eq_ok hidx,hforwarding,hstate⟩

theorem readOsMap_ok {row : Value} {entry : ℕ × PyText} (h : readOsMap py row = .ok entry) :
    index? (get row "index") = some entry.1 ∧ osType py row = .ok entry.2 := by
  obtain ⟨-,-,h⟩ := ok_of_bind h
  obtain ⟨type,htype,h⟩ := ok_of_bind h
  obtain ⟨idx,hidx,h⟩ := ok_of_bind h
  by_cases hempty : type = []
  · rw [if_pos hempty] at h
    cases h
  · rw [if_neg hempty] at h
    cases h
    exact ⟨need_eq_ok hidx,htype⟩

theorem text?_eq_some {v : Value} {s : PyText} (h : text? v = some s) : v = .str s := by
  cases v with
  | str s' =>
    rw [text?] at h
    split at h
    · cases h
    · cases h
      rfl
  | _ => cases h

theorem index?_eq_some {v : Value} {n : ℕ} (h : index? v = some n) : v = number n := by
  cases v with
  | lit l =>
    cases l with
    | int m =>
      rw [index?] at h
      split at h
      · cases h
      · next hm =>
        cases h
        rw [number,Int.toNat_of_nonneg (not_lt.mp hm)]
    | _ => cases h
  | _ => cases h

theorem readAddress_ok {inter : List ℕ} {row : Value} {entry : (ℕ ×ₗ PyText ×ₗ ℕ) × PyText}
    (h : readAddress py inter row = .ok entry) : (ofLex entry.1).1 ∈ inter ∧ strOr py (get row "state") = .ok entry.2 ∧
      (ofLex (ofLex entry.1).2).2 ≤ 128 ∧ get row "prefix_length" = number (ofLex (ofLex entry.1).2).2 ∧
      ∃ addr, get row "address" = .str addr ∧ (ofLex (ofLex entry.1).2).1 = py.lower addr := by
  obtain ⟨-,-,h⟩ := ok_of_bind h
  obtain ⟨state,hstate,h⟩ := ok_of_bind h
  obtain ⟨idx,hidx,h⟩ := ok_of_bind h
  obtain ⟨addr,haddr,h⟩ := ok_of_bind h
  obtain ⟨prefixlen,hbits,h⟩ := ok_of_bind h
  by_cases hempty : state = []
  · rw [if_pos hempty] at h
    cases h
  · rw [if_neg hempty] at h
    obtain ⟨-,-,h⟩ := ok_of_bind h
    cases h
    have hmem := (Option.filter_eq_some_iff.mp (need_eq_ok hidx)).2
    obtain ⟨hlength,hbound⟩ := Option.filter_eq_some_iff.mp (need_eq_ok hbits)
    exact ⟨by simpa using hmem,hstate,by simpa using hbound,index?_eq_some hlength,addr,text?_eq_some (need_eq_ok haddr),rfl⟩

theorem readRoute_ok {inter : List ℕ} {row : Value} {entry : (ℕ ×ₗ PyText ×ₗ PyText) × Unit}
    (h : readRoute py inter row = .ok entry) : (ofLex entry.1).1 ∈ inter ∧ ∃ text nextHop, get row "prefix" = .str text ∧
      readNetwork text = some (ofLex (ofLex entry.1).2).1 ∧ get row "next_hop" = .str nextHop ∧
      (ofLex (ofLex entry.1).2).2 = py.lower nextHop := by
  obtain ⟨-,-,h⟩ := ok_of_bind h
  obtain ⟨idx,hidx,h⟩ := ok_of_bind h
  obtain ⟨text,htext,h⟩ := ok_of_bind h
  cases hhop : get row "next_hop" with
  | str nextHop =>
    rw [hhop] at h
    obtain ⟨network,hnetwork,h⟩ := ok_of_bind h
    cases h
    have hmem := (Option.filter_eq_some_iff.mp (need_eq_ok hidx)).2
    exact ⟨by simpa using hmem,text,nextHop,text?_eq_some (need_eq_ok htext),need_eq_ok hnetwork,rfl,rfl⟩
  | _ =>
    rw [hhop] at h
    cases h

/-- The facts show the loopback interface and nothing else. -/
structure LoopbackOnly (py : Runtime) (facts : Value) (interfaces addresses routes osMap : List Value) : Prop where
  lists : get facts "interfaces" = .arr interfaces ∧ get facts "addresses" = .arr addresses ∧
    get facts "routes" = .arr routes ∧ get facts "os_map" = .arr osMap
  complete : get facts "complete" = .lit (.bool true)
  errors : get facts "errors" = .arr []
  interfaceIndexes : (interfaces.map fun row => index? (get row "index")).Nodup
  osIndexes : (osMap.map fun row => index? (get row "index")).Nodup
  coincide : ∀ idx : Option ℕ, idx ∈ (interfaces.map fun row => index? (get row "index")) ↔
    idx ∈ (osMap.map fun row => index? (get row "index"))
  indexed : ∀ row ∈ interfaces, (index? (get row "index")).isSome = true
  interface : ∀ row ∈ interfaces, ∃ text state, forwarding py row = .ok text ∧ isDisabled text = true ∧
    connectionState py row = .ok state ∧ isUp state = true
  loopback : ∀ row ∈ osMap, ∃ type, osType py row = .ok type ∧ isLoopbackType py type = true
  addressed : addresses ≠ []
  address : ∀ row ∈ addresses, ∃ addr, get row "address" = .str addr ∧ py.lower addr = loopbackText ∧
    get row "prefix_length" = number 128
  route : ∀ row ∈ routes, ∃ text network nextHop, get row "prefix" = .str text ∧ readNetwork text = some network ∧
    (network = loopbackNetwork ∨ network = multicastNetwork) ∧ get row "next_hop" = .str nextHop ∧ py.lower nextHop = unspecified

theorem addIf_eq_nil {condition : Bool} {reason : String} {reasons : List String} :
    addIf condition reason reasons = [] ↔ condition = false ∧ reasons = [] := by
  cases condition with
  | false => simp [addIf]
  | true =>
    rw [addIf,if_pos rfl,add]
    split
    · next hmem =>
      have hne : reasons ≠ [] := List.ne_nil_of_mem hmem
      simp [hne]
    · simp

theorem foldl_eq_nil {α : Type} {f : List String → α → List String} {good : α → Prop}
    (hf : ∀ reasons a, f reasons a = [] ↔ reasons = [] ∧ good a) {l : List α} {reasons : List String} :
    l.foldl f reasons = [] ↔ reasons = [] ∧ ∀ a ∈ l, good a := by
  induction l generalizing reasons with
  | nil => simp
  | cons a rest ih => rw [List.foldl_cons,ih,hf,List.forall_mem_cons,and_assoc]

/-- What the strict check asks of the tables, which names each row. -/
structure Strict (py : Runtime) (tables : Tables) : Prop where
  inter : ∀ entry ∈ tables.inter, isLoopbackType py (tables.typeOf entry.1) = true ∧
    isDisabled entry.2.forwarding = true ∧ isUp entry.2.connectionState = true
  addressed : ∃ row ∈ tables.addressRows, isLoopbackAddress row.1 = true
  address : ∀ row ∈ tables.addressRows, isLoopbackAddress row.1 = true
  routed : tables.routeRows ≠ []
  route : ∀ row ∈ tables.routeRows, isLoopbackRoute row.1 = true

theorem interfaceReasons_eq_nil (reasons : List String) (entry : ℕ × Interface) :
    interfaceReasons py tables reasons entry = [] ↔ reasons = [] ∧ (isLoopbackType py (tables.typeOf entry.1) = true ∧
      isDisabled entry.2.forwarding = true ∧ isUp entry.2.connectionState = true) := by
  rw [interfaceReasons,addIf_eq_nil,addIf_eq_nil,addIf_eq_nil]
  simp only [Bool.not_eq_false']
  tauto

theorem strictReasons_eq_nil : strictReasons py tables = [] ↔ Strict py tables := by
  have hroute : ∀ reasons (row : (ℕ ×ₗ PyText ×ₗ PyText) × Unit),
      addIf (!isLoopbackRoute row.1) "ipv6_nonloopback_route" reasons = [] ↔
        reasons = [] ∧ isLoopbackRoute row.1 = true := by
    intro reasons row
    rw [addIf_eq_nil,Bool.not_eq_false',and_comm]
  have haddress : ∀ reasons (row : (ℕ ×ₗ PyText ×ₗ ℕ) × PyText),
      addIf (!isLoopbackAddress row.1) "ipv6_nonloopback_address" reasons = [] ↔
        reasons = [] ∧ isLoopbackAddress row.1 = true := by
    intro reasons row
    rw [addIf_eq_nil,Bool.not_eq_false',and_comm]
  rw [strictReasons]
  rw [foldl_eq_nil hroute,addIf_eq_nil,foldl_eq_nil haddress,addIf_eq_nil,foldl_eq_nil interfaceReasons_eq_nil]
  constructor
  · rintro ⟨⟨hrouted,⟨haddressed,-,hinter⟩,haddress⟩,hroute⟩
    refine ⟨hinter,?_,haddress,?_,hroute⟩
    · simpa using haddressed
    · simpa using hrouted
  · rintro ⟨hinter,⟨row,hrow,hself⟩,haddress,hrouted,hroute⟩
    refine ⟨⟨by simpa using hrouted,⟨?_,rfl,hinter⟩,haddress⟩,hroute⟩
    rw [Bool.not_eq_false',List.any_eq_true]
    exact ⟨row,hrow,hself⟩

theorem rows?_eq_some {v : Value} {items : List Value} (h : rows? v = some items) : v = .arr items ∧ items ≠ [] := by
  cases v with
  | arr items' =>
    rw [rows?] at h
    split at h
    · cases h
    · next hbounds =>
      cases h
      exact ⟨rfl,fun hnil => hbounds (.inl hnil)⟩
  | _ => cases h

/-- The facts as a whole have no defect. -/
structure WellFormed (facts : Value) : Prop where
  schema : schemaValid facts = true
  complete : isComplete facts = true
  errors : noErrors facts = true
  interfaces : (rows? (get facts "interfaces")).isSome = true
  addresses : (rows? (get facts "addresses")).isSome = true
  routes : (rows? (get facts "routes")).isSome = true
  osMap : (rows? (get facts "os_map")).isSome = true

theorem factReasons_eq_nil {facts : Value} : factReasons facts = [] ↔ WellFormed facts := by
  rw [factReasons,addIf_eq_nil,addIf_eq_nil,addIf_eq_nil,addIf_eq_nil,addIf_eq_nil,addIf_eq_nil,addIf_eq_nil]
  simp only [Bool.not_eq_false',Option.isNone_eq_false_iff]
  constructor
  · rintro ⟨hosMap,hroutes,haddresses,hinterfaces,herrors,hcomplete,hschema,-⟩
    exact ⟨hschema,hcomplete,herrors,hinterfaces,haddresses,hroutes,hosMap⟩
  · rintro ⟨hschema,hcomplete,herrors,hinterfaces,haddresses,hroutes,hosMap⟩
    exact ⟨hosMap,hroutes,haddresses,hinterfaces,herrors,hcomplete,hschema,trivial⟩

theorem rowsOf_spec {facts : Value} {name : String} (h : (rows? (get facts name)).isSome = true) :
    get facts name = .arr (rowsOf facts name) ∧ rowsOf facts name ≠ [] := by
  obtain ⟨items,hitems⟩ := Option.isSome_iff_exists.mp h
  have hrows : rowsOf facts name = items := by rw [rowsOf,hitems,Option.getD_some]
  rw [hrows]
  exact rows?_eq_some hitems

theorem isComplete_iff {facts : Value} : isComplete facts = true ↔ get facts "complete" = .lit (.bool true) := by
  rw [isComplete]
  cases get facts "complete" with
  | lit l => cases l <;> simp
  | _ => simp

theorem noErrors_iff {facts : Value} : noErrors facts = true ↔ get facts "errors" = .arr [] := by
  rw [noErrors]
  cases get facts "errors" <;> simp

theorem typeOf_of_mem (hread : Read py interfaces addresses routes osMap tables) {entry : ℕ × PyText}
    (h : entry ∈ tables.mapping) : tables.typeOf entry.1 = entry.2 := by
  have hlookup : tables.mapping.lookup entry.1 = some entry.2 := (lookup_eq_some_iff (fill_nodup hread.mapping)).mpr h
  rw [Tables.typeOf,hlookup,Option.getD_some]

theorem loopbackOnly {facts : Value} (hfacts : WellFormed facts)
    (hread : Read py (rowsOf facts "interfaces") (rowsOf facts "addresses") (rowsOf facts "routes") (rowsOf facts "os_map") tables)
    (hstrict : Strict py tables) : LoopbackOnly py facts (rowsOf facts "interfaces") (rowsOf facts "addresses")
      (rowsOf facts "routes") (rowsOf facts "os_map") := by
  have hinterKeys : ((rowsOf facts "interfaces").map fun row => index? (get row "index")) = (indexes tables.inter).map some :=
    map_key_fill hread.inter fun _ _ hrow => (readInterface_ok hrow).1
  have hosKeys : ((rowsOf facts "os_map").map fun row => index? (get row "index")) = (indexes tables.mapping).map some :=
    map_key_fill hread.mapping fun _ _ hrow => (readOsMap_ok hrow).1
  constructor
  · exact ⟨(rowsOf_spec hfacts.interfaces).1,(rowsOf_spec hfacts.addresses).1,(rowsOf_spec hfacts.routes).1,
      (rowsOf_spec hfacts.osMap).1⟩
  · exact isComplete_iff.mp hfacts.complete
  · exact noErrors_iff.mp hfacts.errors
  · rw [hinterKeys]
    exact (fill_nodup hread.inter).map (Option.some_injective ℕ)
  · rw [hosKeys]
    exact (fill_nodup hread.mapping).map (Option.some_injective ℕ)
  · intro idx
    rw [hinterKeys,hosKeys,List.mem_map,List.mem_map]
    exact exists_congr fun i => and_congr_left fun _ => (hread.coincide i).symm
  · intro row hrow
    obtain ⟨entry,-,hentry⟩ := fill_row hread.inter hrow
    rw [(readInterface_ok hentry).1]
    rfl
  · intro row hrow
    obtain ⟨entry,hmem,hentry⟩ := fill_row hread.inter hrow
    obtain ⟨-,hforwarding,hstate⟩ := readInterface_ok hentry
    obtain ⟨-,hdisabled,hup⟩ := hstrict.inter entry hmem
    exact ⟨_,_,hforwarding,hdisabled,hstate,hup⟩
  · intro row hrow
    obtain ⟨entry,hmem,hentry⟩ := fill_row hread.mapping hrow
    obtain ⟨interface,hinterface,hsame⟩ := List.mem_map.mp ((hread.coincide entry.1).mp (List.mem_map_of_mem hmem))
    have hloopback := (hstrict.inter interface hinterface).1
    rw [hsame,typeOf_of_mem hread hmem] at hloopback
    exact ⟨entry.2,(readOsMap_ok hentry).2,hloopback⟩
  · exact (rowsOf_spec hfacts.addresses).2
  · intro row hrow
    obtain ⟨entry,hmem,hentry⟩ := fill_row hread.addressRows hrow
    obtain ⟨-,-,-,hlength,addr,haddr,hlower⟩ := readAddress_ok hentry
    have hself := hstrict.address entry hmem
    rw [isLoopbackAddress,Bool.and_eq_true,decide_eq_true_eq,decide_eq_true_eq,hlower] at hself
    rw [hself.2] at hlength
    exact ⟨addr,haddr,hself.1,hlength⟩
  · intro row hrow
    obtain ⟨entry,hmem,hentry⟩ := fill_row hread.routeRows hrow
    obtain ⟨-,text,nextHop,htext,hnetwork,hhop,hlower⟩ := readRoute_ok hentry
    have hself := hstrict.route entry hmem
    simp only [isLoopbackRoute,hlower,Bool.or_eq_true,Bool.and_eq_true,decide_eq_true_eq] at hself
    obtain ⟨hnet,hnext⟩ | ⟨hnet,hnext⟩ := hself
    · exact ⟨text,_,nextHop,htext,hnetwork,.inl hnet,hhop,hnext⟩
    · exact ⟨text,_,nextHop,htext,hnetwork,.inr hnet,hhop,hnext⟩

theorem readAddress_congr {inter inter' : List ℕ} (h : ∀ idx, idx ∈ inter ↔ idx ∈ inter') :
    readAddress py inter = readAddress py inter' := by
  funext row
  rw [readAddress,readAddress]
  simp only [h]

theorem readRoute_congr {inter inter' : List ℕ} (h : ∀ idx, idx ∈ inter ↔ idx ∈ inter') :
    readRoute py inter = readRoute py inter' := by
  funext row
  rw [readRoute,readRoute]
  simp only [h]

/-- Two readings of the same rows. -/
structure Reordered (tables tables' : Tables) : Prop where
  inter : tables.inter.Perm tables'.inter
  mapping : tables.mapping.Perm tables'.mapping
  addressRows : tables.addressRows.Perm tables'.addressRows
  routeRows : tables.routeRows.Perm tables'.routeRows

theorem Read.reorder {interfaces' addresses' routes' osMap' : List Value} (h : Read py interfaces addresses routes osMap tables)
    (hinterfaces : interfaces.Perm interfaces') (haddresses : addresses.Perm addresses') (hroutes : routes.Perm routes')
    (hosMap : osMap.Perm osMap') : ∃ tables', Read py interfaces' addresses' routes' osMap' tables' ∧ Reordered tables tables' := by
  obtain ⟨inter',hinter',hinter⟩ := fill_perm hinterfaces h.inter
  obtain ⟨mapping',hmapping',hmapping⟩ := fill_perm hosMap h.mapping
  have hindexes : ∀ idx, idx ∈ indexes tables.inter ↔ idx ∈ indexes inter' := fun idx => (hinter.map Prod.fst).mem_iff
  have htypes : ∀ idx, idx ∈ indexes tables.mapping ↔ idx ∈ indexes mapping' := fun idx => (hmapping.map Prod.fst).mem_iff
  obtain ⟨addressRows',haddressRows',haddressRows⟩ := fill_perm haddresses h.addressRows
  obtain ⟨routeRows',hrouteRows',hrouteRows⟩ := fill_perm hroutes h.routeRows
  rw [readAddress_congr hindexes] at haddressRows'
  rw [readRoute_congr hindexes] at hrouteRows'
  refine ⟨⟨inter',mapping',addressRows',routeRows'⟩,⟨hinter',hmapping',fun idx => ?_,haddressRows',hrouteRows'⟩,
    ⟨hinter,hmapping,haddressRows,hrouteRows⟩⟩
  rw [← htypes,← hindexes]
  exact h.coincide idx

theorem Strict.reorder {tables' : Tables} (h : Strict py tables) (hsame : Reordered tables tables')
    (hmapping : (tables.mapping.map Prod.fst).Nodup) : Strict py tables' := by
  have htype : ∀ idx, tables'.typeOf idx = tables.typeOf idx := by
    intro idx
    rw [Tables.typeOf,Tables.typeOf,lookup_congr hsame.mapping hmapping]
  constructor
  · intro entry hentry
    rw [htype]
    exact h.inter entry (hsame.inter.mem_iff.mpr hentry)
  · obtain ⟨row,hrow,hself⟩ := h.addressed
    exact ⟨row,hsame.addressRows.mem_iff.mp hrow,hself⟩
  · exact fun row hrow => h.address row (hsame.addressRows.mem_iff.mpr hrow)
  · intro hnil
    have hperm := hsame.routeRows
    rw [hnil,List.perm_nil] at hperm
    exact h.routed hperm
  · exact fun row hrow => h.route row (hsame.routeRows.mem_iff.mpr hrow)

theorem canonical_reorder {tables' : Tables} (hread : Read py interfaces addresses routes osMap tables)
    (hsame : Reordered tables tables') : canonical tables = canonical tables' := by
  have hinterface : canonicalInterface tables = canonicalInterface tables' := by
    funext entry
    rw [canonicalInterface,canonicalInterface,lookup_congr hsame.mapping (fill_nodup hread.mapping)]
  rw [canonical,canonical,hinterface,sorted_congr hsame.inter (fill_nodup hread.inter),
    sorted_congr hsame.mapping (fill_nodup hread.mapping),sorted_congr hsame.addressRows (fill_nodup hread.addressRows),
    sorted_congr hsame.routeRows (fill_nodup hread.routeRows)]

theorem Reordered.symm {tables' : Tables} (h : Reordered tables tables') : Reordered tables' tables :=
  ⟨h.inter.symm,h.mapping.symm,h.addressRows.symm,h.routeRows.symm⟩

/-- The same rows, perhaps in another order. -/
def SameRows (v v' : Value) : Prop :=
  v = v' ∨ ∃ items items', v = .arr items ∧ v' = .arr items' ∧ items.Perm items'

/-- The same facts but for the order of the rows in the four lists. -/
structure Permuted (facts facts' : Value) : Prop where
  mapping : isMapping facts = isMapping facts'
  schema : get facts "schema" = get facts' "schema"
  complete : get facts "complete" = get facts' "complete"
  errors : get facts "errors" = get facts' "errors"
  interfaces : SameRows (get facts "interfaces") (get facts' "interfaces")
  addresses : SameRows (get facts "addresses") (get facts' "addresses")
  routes : SameRows (get facts "routes") (get facts' "routes")
  osMap : SameRows (get facts "os_map") (get facts' "os_map")

theorem SameRows.rows {v v' : Value} (h : SameRows v v') :
    (rows? v).isNone = (rows? v').isNone ∧ ((rows? v).getD []).Perm ((rows? v').getD []) := by
  obtain rfl | ⟨items,items',rfl,rfl,hperm⟩ := h
  · exact ⟨rfl,.refl _⟩
  · rw [rows?,rows?]
    by_cases hbounds : items = [] ∨ 256 < items.length
    · have hbounds' : items' = [] ∨ 256 < items'.length := by
        rw [← hperm.length_eq]
        refine hbounds.imp_left fun hnil => ?_
        rw [hnil,List.nil_perm] at hperm
        exact hperm
      rw [if_pos hbounds,if_pos hbounds']
      exact ⟨rfl,.refl _⟩
    · have hbounds' : ¬(items' = [] ∨ 256 < items'.length) := by
        rw [← hperm.length_eq]
        rintro (hnil | hlong)
        · rw [hnil,List.perm_nil] at hperm
          exact hbounds (.inl hperm)
        · exact hbounds (.inr hlong)
      rw [if_neg hbounds,if_neg hbounds']
      exact ⟨rfl,hperm⟩

theorem factReasons_permuted {facts facts' : Value} (h : Permuted facts facts') : factReasons facts = factReasons facts' := by
  rw [factReasons,factReasons,schemaValid,schemaValid,isComplete,isComplete,noErrors,noErrors,h.schema,h.complete,h.errors,
    h.interfaces.rows.1,h.addresses.rows.1,h.routes.rows.1,h.osMap.rows.1]

/-- The tables of the facts were read. -/
abbrev Tabled (py : Runtime) (facts : Value) (tables : Tables) : Prop :=
  Read py (rowsOf facts "interfaces") (rowsOf facts "addresses") (rowsOf facts "routes") (rowsOf facts "os_map") tables

variable {facts facts' : Value}

theorem Permuted.tabled (h : Permuted facts facts') (htabled : Tabled py facts tables) :
    ∃ tables', Tabled py facts' tables' ∧ Reordered tables tables' :=
  Read.reorder htabled h.interfaces.rows.2 h.addresses.rows.2 h.routes.rows.2 h.osMap.rows.2

theorem SameRows.symm {v v' : Value} (h : SameRows v v') : SameRows v' v := by
  obtain rfl | ⟨items,items',hitems,hitems',hperm⟩ := h
  · exact .inl rfl
  · exact .inr ⟨items',items,hitems',hitems,hperm.symm⟩

theorem Permuted.symm (h : Permuted facts facts') : Permuted facts' facts :=
  ⟨h.mapping.symm,h.schema.symm,h.complete.symm,h.errors.symm,h.interfaces.symm,h.addresses.symm,h.routes.symm,h.osMap.symm⟩

end ScopeGuard
end FakeNetNG
