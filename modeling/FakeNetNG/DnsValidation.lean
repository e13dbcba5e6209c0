import FakeNetNG.DnsAnswer
import FakeNetNG.WireName

/-!
# What the DNS listener accepts

An upstream message is accepted if and only if its names can be read, its three sections
are what the sample may be told, and the response can be packed. What is installed then is
a function of the message, and a message that is refused leaves no trace.
-/

namespace FakeNetNG
namespace Dns

variable {idna : String → Option String}

def HasName (idna : String → Option String) (name : DNSLabel) : Prop :=
  ∃ text, normName idna name.toText = .ok text

structure Host where
  owner : String
  address : BitVec 32
  ttl : ℕ
  deriving DecidableEq

def link? (idna : String → Option String) (rr : RR) : Option Link :=
  match rr.rdata with
  | .cname label => do
    let owner ← (normName idna rr.rname.toText).toOption
    let target ← (normName idna label.toText).toOption
    some ⟨owner,target,rr.ttl⟩
  | _ => none

def host? (idna : String → Option String) (rr : RR) : Option Host :=
  match rr.rdata with
  | .a address => do
    let owner ← (normName idna rr.rname.toText).toOption
    some ⟨owner,address,rr.ttl⟩
  | _ => none

def links (idna : String → Option String) (rrs : List RR) : List Link := rrs.filterMap (link? idna)

def hosts (idna : String → Option String) (rrs : List RR) : List Host := rrs.filterMap (host? idna)

/-- The links lead from a name, each to the owner of the next. -/
def Path : String → List Link → Prop
  | _, [] => True
  | name, link :: chain => link.owner = name ∧ Path link.target chain

@[grind] def pathEnd : String → List Link → String
  | name, [] => name
  | _, link :: chain => pathEnd link.target chain

def nodes (start : String) (chain : List Link) : List String := start :: chain.map Link.target

/-- The lifetime of an address at the end of a chain. -/
def effectiveTtl (chain : List Link) (ttl : ℕ) : ℕ := minTtl (chain.map Link.ttl++[ttl])

/-- The addresses that have time left, and how much. -/
def positives (chain : List Link) (hs : List (BitVec 32 × ℕ)) : List (BitVec 32 × ℕ) :=
  (hs.map fun h => (h.1,effectiveTtl chain h.2)).filter fun h => 0 < h.2

def Host.content (h : Host) : BitVec 32 × ℕ := (h.address,h.ttl)

/-- A name server of a zone above a name on the chain. -/
def ServesParent (idna : String → Option String) (auth : List RR) (names : List String)
    (server : String) : Prop :=
  ∃ rr ∈ auth, ∃ label zone, rr.rdata = .ns label ∧ normName idna rr.rname.toText = .ok zone ∧
    (∃ name ∈ names, isBelow name zone = true) ∧ normName idna label.toText = .ok server

/-- The sections hold what they may hold: `chain` is the chain of CNAME records. -/
structure Admissible (idna : String → Option String) (upstream : DNSRecord) (start : String)
    (chain : List Link) : Prop where
  answer : ∀ rr ∈ upstream.rr, (∃ address, rr.rdata = .a address) ∨ ∃ label, rr.rdata = .cname label
  path : Path start chain
  acyclic : (nodes start chain).Nodup
  short : chain.length ≤ 16
  whole : (links idna upstream.rr).Perm chain
  addresses : ∀ h ∈ hosts idna upstream.rr, h.owner = pathEnd start chain ∧
    Addr.isGlobal h.address = true
  authority : ∀ rr ∈ upstream.auth, (∀ address, rr.rdata ≠ .a address) ∧
    ∀ label, rr.rdata ≠ .cname label
  additional : ∀ rr ∈ upstream.ar, (∀ label, rr.rdata ≠ .cname label) ∧
    ∀ address, rr.rdata = .a address → ∃ owner, normName idna rr.rname.toText = .ok owner ∧
      ServesParent idna upstream.auth (nodes start chain) owner ∧ owner ∉ nodes start chain ∧
      Addr.isGlobal address = true

/-- There is an address with time left, or no address and an alias. -/
structure Acceptable (idna : String → Option String) (upstream : DNSRecord) (start : String)
    (chain : List Link) : Prop extends Admissible idna upstream start chain where
  answered : (∃ h ∈ hosts idna upstream.rr, 0 < effectiveTtl chain h.ttl) ∨
    hosts idna upstream.rr = [] ∧ chain ≠ []

/-- The names that the checks read have an IDNA form. -/
structure Readable (idna : String → Option String) (upstream : DNSRecord) (names : List String) :
    Prop where
  answer : ∀ rr ∈ upstream.rr, HasName idna rr.rname ∧
    ∀ label, rr.rdata = .cname label → HasName idna label
  authority : ∀ rr ∈ upstream.auth, ∀ label, rr.rdata = .ns label →
    ∃ zone, normName idna rr.rname.toText = .ok zone ∧
      ((∃ name ∈ names, isBelow name zone = true) → HasName idna label)

/-- `dnslib` makes a label of the text. -/
def Builds (idna : String → Option String) (text : String) : Prop :=
  ∃ label, DNSLabel.ofText idna text = .ok label

/-- `dnslib` makes labels of the names in the response. -/
def Encodable (idna : String → Option String) (start : String) (chain : List Link)
    (hs : List (BitVec 32 × ℕ)) : Prop :=
  (∀ link ∈ chain, Builds idna link.owner ∧ Builds idna link.target) ∧
    (positives chain hs ≠ [] → Builds idna (pathEnd start chain))

def labelOf (idna : String → Option String) (text : String) : DNSLabel :=
  (DNSLabel.ofText idna text).toOption.getD ⟨[]⟩

def response (idna : String → Option String) (request : DNSRecord) (start : String)
    (chain : List Link) (hs : List (BitVec 32 × ℕ)) : DNSRecord :=
  ⟨⟨request.header.id,true,false,true,request.header.rd,0⟩,request.q,
    chain.map (fun link => ⟨labelOf idna link.owner,link.ttl,.cname (labelOf idna link.target)⟩)++
      (positives chain hs).map (fun h => ⟨labelOf idna (pathEnd start chain),h.2,.a h.1⟩),[],[]⟩

/-- The records given to `replace_leases`. -/
def leasesOf (chain : List Link) (hs : List (BitVec 32 × ℕ)) : List (Addr × ℤ) :=
  (positives chain hs).map fun h => (.v4 h.1,(h.2 : ℤ))

/-- What is installed. -/
inductive Install
  | leases (domain : String) (records : List (Addr × ℤ))
  | alias (domain name : String) (ttl : ℤ)
  deriving DecidableEq

def granted (allowedRoot start : String) (chain : List Link) (hs : List (BitVec 32 × ℕ)) :
    List Install :=
  if hs ≠ [] then [.leases allowedRoot (leasesOf chain hs)]
  else if 0 < minTtl (chain.map Link.ttl) then
    [.alias allowedRoot (pathEnd start chain) (minTtl (chain.map Link.ttl))]
  else []

theorem nodes_eq {start : String} {chain : List Link} (h : Path start chain) :
    chain.map Link.owner++[pathEnd start chain] = nodes start chain := by
  induction chain generalizing start with
  | nil => rfl
  | cons link chain ih =>
    obtain ⟨rfl,hpath⟩ := h
    simp only [List.map_cons,List.cons_append,pathEnd,ih hpath,nodes]

theorem checkAuthority_eq_ok (rrs : List RR) : checkAuthority rrs = .ok () ↔
    ∀ rr ∈ rrs, (∀ address, rr.rdata ≠ .a address) ∧ ∀ label, rr.rdata ≠ .cname label := by
  induction rrs with
  | nil => simp [checkAuthority]
  | cons rr rest ih =>
    unfold checkAuthority
    cases hdata : rr.rdata with
    | a address => simp [hdata]
    | cname label => simp [hdata]
    | ns label => simp [hdata,ih]
    | other => simp [hdata,ih]

/-- An answer record that the loop can read. -/
def ReadableAnswer (idna : String → Option String) (rr : RR) : Prop :=
  HasName idna rr.rname ∧ ((∃ address, rr.rdata = .a address) ∨
    ∃ label, rr.rdata = .cname label ∧ HasName idna label)

def fileLinks (cnames : Dict String (String × ℕ)) (chain : List Link) : Dict String (String × ℕ) :=
  chain.foldl (fun d link => d.set link.owner (link.target,link.ttl)) cnames

def fileHosts (addresses : Dict String (List (BitVec 32 × ℕ))) (hs : List Host) :
    Dict String (List (BitVec 32 × ℕ)) :=
  hs.foldl (fun d h => d.set h.owner ((d.get? h.owner).getD []++[h.content])) addresses

theorem links_cons (rr : RR) (rest : List RR) :
    links idna (rr :: rest) = (link? idna rr).toList++links idna rest := by
  unfold links
  rw [List.filterMap_cons]
  cases link? idna rr <;> rfl

theorem hosts_cons (rr : RR) (rest : List RR) :
    hosts idna (rr :: rest) = (host? idna rr).toList++hosts idna rest := by
  unfold hosts
  rw [List.filterMap_cons]
  cases host? idna rr <;> rfl

theorem readAnswers_eq_ok (rrs : List RR) (cnames : Dict String (String × ℕ))
    (addresses : Dict String (List (BitVec 32 × ℕ))) (found : _ × _) :
    readAnswers idna rrs cnames addresses = .ok found ↔
      (∀ rr ∈ rrs, ReadableAnswer idna rr) ∧
      (∀ link ∈ links idna rrs, cnames.contains link.owner = false) ∧
      ((links idna rrs).map Link.owner).Nodup ∧
      (fileLinks cnames (links idna rrs),fileHosts addresses (hosts idna rrs)) = found := by
  induction rrs generalizing cnames addresses with
  | nil => simp [readAnswers,links,hosts,fileLinks,fileHosts]
  | cons rr rest ih =>
    rw [links_cons,hosts_cons,List.forall_mem_cons,readAnswers]
    cases howner : normName idna rr.rname.toText with
    | error e =>
      have hread : ¬ReadableAnswer idna rr := by simp [ReadableAnswer,HasName,howner]
      simp only [hread,false_and,iff_false]
      intro h
      cases h
    | ok owner =>
      cases hdata : rr.rdata with
      | a address =>
        have hread : ReadableAnswer idna rr := by simp [ReadableAnswer,HasName,howner,hdata]
        have hlink : link? idna rr = none := by simp [link?,hdata]
        have hhost : host? idna rr = some ⟨owner,address,rr.ttl⟩ := by
          simp [host?,hdata,howner,Except.toOption]
        simp only [hread,hlink,hhost,true_and,Option.toList_none,Option.toList_some,List.nil_append]
        exact ih _ _
      | cname label =>
        have hhost : host? idna rr = none := by simp [host?,hdata]
        cases htarget : normName idna label.toText with
        | error e =>
          have hread : ¬ReadableAnswer idna rr := by
            simp [ReadableAnswer,HasName,howner,hdata,htarget]
          simp only [hread,false_and,iff_false]
          intro h
          change (if cnames.contains owner = true then _ else _) = _ at h
          split_ifs at h
          rw [htarget] at h
          cases h
        | ok target =>
          have hread : ReadableAnswer idna rr := by
            simp [ReadableAnswer,HasName,howner,hdata,htarget]
          have hlink : link? idna rr = some ⟨owner,target,rr.ttl⟩ := by
            simp [link?,hdata,howner,htarget,Except.toOption]
          change (if cnames.contains owner = true then _ else _) = _ ↔ _
          simp only [hread,hlink,hhost,true_and,Option.toList_none,Option.toList_some,
            List.nil_append,List.singleton_append,List.map_cons,List.nodup_cons,List.forall_mem_cons]
          by_cases hdouble : cnames.contains owner = true
          · rw [if_pos hdouble]
            simp [hdouble]
          · rw [if_neg hdouble,htarget]
            simp only [Bool.not_eq_true] at hdouble
            change readAnswers idna rest (cnames.set owner (target,rr.ttl)) addresses = _ ↔ _
            rw [ih]
            have hfresh : (∀ link ∈ links idna rest,
                (cnames.set owner (target,rr.ttl)).contains link.owner = false) ↔
                (∀ link ∈ links idna rest, cnames.contains link.owner = false) ∧
                  owner ∉ (links idna rest).map Link.owner := by
              simp only [Dict.contains_set,Bool.or_eq_false_iff,decide_eq_false_iff_not,List.mem_map,
                not_exists,not_and]
              exact ⟨fun h => ⟨fun link hlink => (h link hlink).2,fun link hlink => (h link hlink).1⟩,
                fun h link hlink => ⟨h.2 link hlink,h.1 link hlink⟩⟩
            rw [hfresh]
            simp only [hdouble,true_and,and_assoc,fileLinks,List.foldl_cons]
      | ns label =>
        have hread : ¬ReadableAnswer idna rr := by simp [ReadableAnswer,hdata]
        simp only [hread,false_and,iff_false]
        intro h
        cases h
      | other =>
        have hread : ¬ReadableAnswer idna rr := by simp [ReadableAnswer,hdata]
        simp only [hread,false_and,iff_false]
        intro h
        cases h

theorem contains_foldl_set {α β : Type} (f : α → String) (g : Dict String β → α → β) (xs : List α)
    (d : Dict String β) (o : String) : (xs.foldl (fun d x => d.set (f x) (g d x)) d).contains o = true ↔
      d.contains o = true ∨ ∃ x ∈ xs, f x = o := by
  induction xs generalizing d with
  | nil => simp
  | cons x xs ih =>
    rw [List.foldl_cons,ih,Dict.contains_set,Bool.or_eq_true,decide_eq_true_iff]
    simp only [List.mem_cons,exists_eq_or_imp]
    constructor
    · rintro ((rfl | h) | h)
      · exact .inr (.inl rfl)
      · exact .inl h
      · exact .inr (.inr h)
    · rintro (h | rfl | h)
      · exact .inl (.inr h)
      · exact .inl (.inl rfl)
      · exact .inr h

theorem fileLinks_get? {d : Dict String (String × ℕ)} {ls : List Link}
    (hfresh : ∀ link ∈ ls, d.contains link.owner = false) (hnodup : (ls.map Link.owner).Nodup)
    (o : String) (x : String × ℕ) : (fileLinks d ls).get? o = some x ↔
      d.get? o = some x ∨ (⟨o,x.1,x.2⟩ : Link) ∈ ls := by
  induction ls generalizing d with
  | nil => simp [fileLinks]
  | cons link ls ih =>
    rw [List.map_cons,List.nodup_cons] at hnodup
    have hnew : ∀ l ∈ ls, (d.set link.owner (link.target,link.ttl)).contains l.owner = false := by
      intro l hl
      have hne : l.owner ≠ link.owner := fun he => hnodup.1 (List.mem_map.mpr ⟨l,hl,he⟩)
      simp [Dict.contains_set,hne,hfresh l (by simp [hl])]
    have hnone : d.get? link.owner = none :=
      (Dict.contains_eq_false_iff _ _).mp (hfresh link (by simp))
    have hrest := ih hnew hnodup.2
    rw [fileLinks,List.foldl_cons]
    rw [fileLinks] at hrest
    rw [hrest,Dict.get?_set_eq_some,List.mem_cons]
    constructor
    · rintro ((⟨rfl,rfl⟩ | ⟨-,hd⟩) | hmem)
      · exact .inr (.inl rfl)
      · exact .inl hd
      · exact .inr (.inr hmem)
    · rintro (hd | rfl | hmem)
      · refine .inl (.inr ⟨fun he => ?_,hd⟩)
        rw [he,hnone] at hd
        cases hd
      · exact .inl (.inl ⟨rfl,rfl⟩)
      · exact .inr hmem

theorem fileHosts_get? (d : Dict String (List (BitVec 32 × ℕ))) (hs : List Host) (o : String) :
    ((fileHosts d hs).get? o).getD [] =
      (d.get? o).getD []++(hs.filter (·.owner = o)).map Host.content := by
  induction hs generalizing d with
  | nil => simp [fileHosts]
  | cons h hs ih =>
    rw [fileHosts,List.foldl_cons,← fileHosts,ih,Dict.get?_set]
    by_cases ho : o = h.owner
    · subst ho
      simp
    · simp [ho,Ne.symm ho]

def Walks (cnames : Dict String (String × ℕ)) : List String → String → List Link → Prop
  | _, name, [] => cnames.get? name = none
  | visited, name, link :: chain => link.owner = name ∧
      cnames.get? name = some (link.target,link.ttl) ∧ name ∉ visited ∧ visited.length < 16 ∧
      Walks cnames (visited++[name]) link.target chain

theorem walk_eq_ok (cnames : Dict String (String × ℕ)) (name : String) (before : List Link)
    (found : String × List Link) : walk cnames name before = .ok found ↔
      ∃ chain, Walks cnames (before.map Link.owner) name chain ∧
        (pathEnd name chain,before++chain) = found := by
  induction name, before using walk.induct cnames with
  | case1 name before hnone =>
    rw [walk]
    simp only [hnone]
    constructor
    · rintro ⟨⟩
      exact ⟨[],hnone,by simp [pathEnd]⟩
    · rintro ⟨chain,hwalks,rfl⟩
      cases chain with
      | nil => simp [pathEnd]
      | cons link chain =>
        rw [Walks,hnone] at hwalks
        cases hwalks.2.1
  | case2 name before target ttl hsome hstop =>
    rw [walk]
    simp only [hsome,hstop,if_true]
    constructor
    · rintro ⟨⟩
    · rintro ⟨chain,hwalks,-⟩
      cases chain with
      | nil =>
        rw [Walks,hsome] at hwalks
        cases hwalks
      | cons link chain =>
        obtain ⟨-,-,hnew,hroom,-⟩ := hwalks
        rw [List.length_map] at hroom
        exact absurd hstop (by simp [hnew,hroom])
  | case3 name before target ttl hsome hgo ih =>
    rw [walk]
    simp only [hsome,hgo,if_false]
    rw [ih]
    simp only [not_or,not_le] at hgo
    constructor
    · rintro ⟨chain,hwalks,rfl⟩
      refine ⟨⟨name,target,ttl⟩ :: chain,⟨rfl,hsome,hgo.1,by simpa using hgo.2,?_⟩,by simp [pathEnd]⟩
      simpa using hwalks
    · rintro ⟨chain,hwalks,rfl⟩
      cases chain with
      | nil =>
        rw [Walks,hsome] at hwalks
        cases hwalks
      | cons link chain =>
        obtain ⟨rfl,hlink,-,-,hrest⟩ := hwalks
        rw [hsome] at hlink
        obtain ⟨rfl,rfl⟩ := Prod.mk.inj (Option.some.inj hlink)
        exact ⟨chain,by simpa using hrest,by simp [pathEnd]⟩

theorem walks_iff (cnames : Dict String (String × ℕ)) (visited : List String) (name : String)
    (chain : List Link) : Walks cnames visited name chain ↔
      Path name chain ∧ (∀ link ∈ chain, cnames.get? link.owner = some (link.target,link.ttl)) ∧
      cnames.get? (pathEnd name chain) = none ∧ (∀ link ∈ chain, link.owner ∉ visited) ∧
      (chain.map Link.owner).Nodup ∧ (chain = [] ∨ visited.length+chain.length ≤ 16) := by
  induction chain generalizing visited name with
  | nil => simp [Walks,Path,pathEnd]
  | cons link chain ih =>
    rw [Walks,ih,Path,pathEnd,List.map_cons,List.nodup_cons]
    simp only [List.forall_mem_cons,List.mem_append,List.mem_singleton,not_or,List.length_append,
      List.length_cons,List.length_nil,reduceCtorEq,false_or,List.mem_map,not_exists,not_and]
    constructor
    · rintro ⟨rfl,hlink,hnew,hroom,hpath,hlinks,hend,hfresh,hnodup,hshort⟩
      refine ⟨⟨rfl,hpath⟩,⟨hlink,hlinks⟩,hend,⟨hnew,fun l hl => (hfresh l hl).1⟩,
        ⟨fun l hl => (hfresh l hl).2,hnodup⟩,?_⟩
      rcases hshort with rfl | hshort
      · simpa using hroom
      · omega
    · rintro ⟨⟨rfl,hpath⟩,⟨hlink,hlinks⟩,hend,⟨hnew,hfresh⟩,⟨hother,hnodup⟩,hshort⟩
      exact ⟨rfl,hlink,hnew,by omega,hpath,hlinks,hend,fun l hl => ⟨hfresh l hl,hother l hl⟩,
        hnodup,.inr (by omega)⟩

theorem owners_nodup {start : String} {chain : List Link} (hpath : Path start chain)
    (h : (nodes start chain).Nodup) : (chain.map Link.owner).Nodup := by
  rw [← nodes_eq hpath] at h
  exact (List.nodup_append.mp h).1

theorem walks_whole {ls : List Link} (hnodup : (ls.map Link.owner).Nodup) (start : String)
    (chain : List Link) :
    (Walks (fileLinks Dict.empty ls) [] start chain ∧
      ∀ link ∈ ls, link.owner ∈ nodes start chain) ↔
    Path start chain ∧ (nodes start chain).Nodup ∧ chain.length ≤ 16 ∧ ls.Perm chain := by
  have hget : ∀ o x, (fileLinks Dict.empty ls).get? o = some x ↔ (⟨o,x.1,x.2⟩ : Link) ∈ ls := by
    intro o x
    rw [fileLinks_get? (by simp) hnodup]
    simp
  have hself : ∀ link : Link, (fileLinks Dict.empty ls).get? link.owner = some (link.target,link.ttl) ↔
      link ∈ ls := fun link => hget link.owner (link.target,link.ttl)
  have hnone : ∀ o, (fileLinks Dict.empty ls).get? o = none ↔ ∀ link ∈ ls, link.owner ≠ o := by
    intro o
    rw [Option.eq_none_iff_forall_ne_some]
    constructor
    · rintro h link hlink rfl
      exact h _ ((hself link).mpr hlink)
    · intro h x hx
      exact h _ ((hget o x).mp hx) rfl
  rw [walks_iff]
  simp only [hself,hnone,List.not_mem_nil,not_false_eq_true,implies_true,true_and,List.length_nil,
    zero_add]
  constructor
  · rintro ⟨⟨hpath,hlinks,hend,howners,hshort⟩,hrelevant⟩
    have hnodes : (nodes start chain).Nodup := by
      rw [← nodes_eq hpath,List.nodup_append]
      refine ⟨howners,by simp,fun a ha b hb => ?_⟩
      obtain ⟨link,hlink,rfl⟩ := List.mem_map.mp ha
      rw [List.mem_singleton.mp hb]
      exact hend link (hlinks link hlink)
    refine ⟨hpath,hnodes,?_,?_⟩
    · rcases hshort with rfl | hshort
      · simp
      · exact hshort
    · rw [List.perm_ext_iff_of_nodup hnodup.of_map howners.of_map]
      refine fun link => ⟨fun hlink => ?_,fun hlink => hlinks link hlink⟩
      have hmem := hrelevant link hlink
      rw [← nodes_eq hpath,List.mem_append,List.mem_singleton] at hmem
      obtain ⟨l,hl,howner⟩ := List.mem_map.mp (hmem.resolve_right (hend link hlink))
      rwa [← List.inj_on_of_nodup_map hnodup (hlinks l hl) hlink howner]
  · rintro ⟨hpath,hnodes,hshort,hperm⟩
    have howners := owners_nodup hpath hnodes
    rw [← nodes_eq hpath,List.nodup_append] at hnodes
    refine ⟨⟨hpath,fun link hlink => hperm.mem_iff.mpr hlink,fun link hlink he => ?_,howners,
      .inr hshort⟩,fun link hlink => ?_⟩
    · refine hnodes.2.2 _ (List.mem_map_of_mem (hperm.mem_iff.mp hlink)) _ ?_ he
      simp
    · rw [← nodes_eq hpath]
      simp [List.mem_map.mpr ⟨link,hperm.mem_iff.mp hlink,rfl⟩]

/-- A record of the authority section whose names can be read as far as they are. -/
def ReadableServer (idna : String → Option String) (names : List String) (rr : RR) : Prop :=
  ∀ label, rr.rdata = .ns label → ∃ zone, normName idna rr.rname.toText = .ok zone ∧
    ((∃ name ∈ names, isBelow name zone = true) → HasName idna label)

def server? (idna : String → Option String) (names : List String) (rr : RR) : Option String :=
  match rr.rdata with
  | .ns label => do
    let zone ← (normName idna rr.rname.toText).toOption
    if names.any (isBelow · zone) then (normName idna label.toText).toOption else none
  | _ => none

theorem server?_ns {names : List String} {rr : RR} {label : DNSLabel} {zone : String}
    (hdata : rr.rdata = .ns label) (hzone : normName idna rr.rname.toText = .ok zone) :
    server? idna names rr =
      if names.any (isBelow · zone) then (normName idna label.toText).toOption else none := by
  unfold server?
  rw [hdata,hzone]
  rfl

theorem readableServer_ns {names : List String} {rr : RR} {label : DNSLabel} {zone : String}
    (hdata : rr.rdata = .ns label) (hzone : normName idna rr.rname.toText = .ok zone) :
    ReadableServer idna names rr ↔ (names.any (isBelow · zone) = true → HasName idna label) := by
  unfold ReadableServer
  rw [hdata,hzone]
  constructor
  · intro h hbelow
    obtain ⟨z,hz,hname⟩ := h label rfl
    obtain rfl := Except.ok.inj hz
    exact hname (List.any_eq_true.mp hbelow)
  · rintro h _ ⟨⟩
    exact ⟨zone,rfl,fun hbelow => h (List.any_eq_true.mpr hbelow)⟩

theorem glueNames_eq_ok (names : List String) (rrs : List RR) (glue : List String) :
    glueNames idna names rrs = .ok glue ↔
      (∀ rr ∈ rrs, ReadableServer idna names rr) ∧ rrs.filterMap (server? idna names) = glue := by
  induction rrs generalizing glue with
  | nil => simp [glueNames]
  | cons rr rest ih =>
    rw [List.forall_mem_cons,glueNames,List.filterMap_cons]
    cases hdata : rr.rdata with
    | ns label =>
      cases hzone : normName idna rr.rname.toText with
      | error e =>
        have hread : ¬ReadableServer idna names rr := by simp [ReadableServer,hdata,hzone]
        simp only [hread,false_and,iff_false]
        rintro ⟨⟩
      | ok zone =>
        rw [server?_ns hdata hzone,readableServer_ns hdata hzone]
        change (if names.any (isBelow · zone) = true then _ else _) = _ ↔ _
        by_cases hbelow : names.any (isBelow · zone) = true
        · rw [if_pos hbelow,if_pos hbelow]
          cases hlabel : normName idna label.toText with
          | error e =>
            have hname : ¬HasName idna label := by simp [HasName,hlabel]
            simp only [hbelow,hname,forall_const,false_and,iff_false]
            rintro ⟨⟩
          | ok server =>
            have hname : HasName idna label := ⟨server,hlabel⟩
            simp only [hname,implies_true,true_and]
            change (glueNames idna names rest >>= fun more => pure (server :: more)) = _ ↔
              _ ∧ server :: _ = _
            constructor
            · intro h
              obtain ⟨more,hmore,hglue⟩ := ok_of_bind h
              obtain ⟨hall,rfl⟩ := (ih more).mp hmore
              exact ⟨hall,Except.ok.inj hglue⟩
            · rintro ⟨hall,rfl⟩
              rw [(ih _).mpr ⟨hall,rfl⟩]
              rfl
        · rw [if_neg hbelow,if_neg hbelow,ih]
          simp only [hbelow,false_implies,true_and,reduceCtorEq]
    | _ => simp [ih,ReadableServer,server?,hdata]

theorem mem_servers (names : List String) (rrs : List RR) (server : String) :
    server ∈ rrs.filterMap (server? idna names) ↔ ServesParent idna rrs names server := by
  rw [List.mem_filterMap,ServesParent]
  refine exists_congr fun rr => and_congr_right fun _ => ?_
  cases hdata : rr.rdata with
  | ns label =>
    cases hzone : normName idna rr.rname.toText with
    | error e => simp [server?,hdata,hzone,Except.toOption]
    | ok zone =>
      cases hlabel : normName idna label.toText with
      | error e => simp [server?,hdata,hzone,hlabel,Except.toOption]
      | ok text => simp [server?,hdata,hzone,hlabel,Except.toOption]
  | _ => simp [server?,hdata]

theorem checkAdditional_eq_ok (names glue : List String) (rrs : List RR) :
    checkAdditional idna names glue rrs = .ok () ↔
      ∀ rr ∈ rrs, (∀ label, rr.rdata ≠ .cname label) ∧ ∀ address, rr.rdata = .a address →
        ∃ owner, normName idna rr.rname.toText = .ok owner ∧ owner ∈ glue ∧ owner ∉ names ∧
          Addr.isGlobal address = true := by
  induction rrs with
  | nil => simp [checkAdditional]
  | cons rr rest ih =>
    rw [List.forall_mem_cons,← ih,checkAdditional]
    cases hdata : rr.rdata with
    | a address =>
      cases howner : normName idna rr.rname.toText with
      | error e =>
        simp only [reduceCtorEq,false_and,exists_false,RData.a.injEq,forall_eq',and_false,iff_false]
        rintro ⟨⟩
      | ok owner =>
        change (if owner ∉ glue ∨ owner ∈ names ∨ _ then _ else _) = _ ↔ _
        by_cases hbad : owner ∉ glue ∨ owner ∈ names ∨ (!Addr.isGlobal address) = true
        · rw [if_pos hbad]
          simp only [reduceCtorEq,false_iff,not_and]
          rintro ⟨-,hgood⟩ -
          obtain ⟨o,ho,hglue,hout,hglobal⟩ := hgood address rfl
          obtain rfl := Except.ok.inj ho
          simp [hglue,hout,hglobal] at hbad
        · rw [if_neg hbad]
          simp only [not_or,not_not,Bool.not_eq_true,Bool.not_eq_false'] at hbad
          simp [hbad]
    | cname label => simp
    | _ => simp

theorem labelOf_eq {text : String} {label : DNSLabel} (h : DNSLabel.ofText idna text = .ok label) :
    labelOf idna text = label := by
  simp [labelOf,h,Except.toOption]

theorem not_builds {text : String} {e : DnsError} (h : DNSLabel.ofText idna text = .error e) :
    ¬Builds idna text := by
  simp [Builds,h]

theorem cnameAnswers_eq_ok (chain : List Link) (answers : List RR) :
    cnameAnswers idna chain = .ok answers ↔
      (∀ link ∈ chain, Builds idna link.owner ∧ Builds idna link.target) ∧
      chain.map (fun link => ⟨labelOf idna link.owner,link.ttl,.cname (labelOf idna link.target)⟩) =
        answers := by
  induction chain generalizing answers with
  | nil => simp [cnameAnswers]
  | cons link rest ih =>
    rw [List.forall_mem_cons,List.map_cons,cnameAnswers]
    cases htarget : DNSLabel.ofText idna link.target with
    | error e =>
      simp only [not_builds htarget,and_false,false_and,iff_false]
      rintro ⟨⟩
    | ok target =>
      cases howner : DNSLabel.ofText idna link.owner with
      | error e =>
        simp only [not_builds howner,false_and,iff_false]
        rintro ⟨⟩
      | ok owner =>
        rw [labelOf_eq htarget,labelOf_eq howner]
        have hbuilds : Builds idna link.owner ∧ Builds idna link.target := ⟨⟨_,howner⟩,⟨_,htarget⟩⟩
        simp only [hbuilds,and_self,true_and]
        change (cnameAnswers idna rest >>= fun more =>
          pure (⟨owner,link.ttl,.cname target⟩ :: more)) = _ ↔ _
        constructor
        · intro h
          obtain ⟨more,hmore,hanswers⟩ := ok_of_bind h
          obtain ⟨hall,rfl⟩ := (ih more).mp hmore
          exact ⟨hall,Except.ok.inj hanswers⟩
        · rintro ⟨hall,rfl⟩
          rw [(ih _).mpr ⟨hall,rfl⟩]
          rfl

theorem positives_cons (chain : List Link) (h : BitVec 32 × ℕ) (hs : List (BitVec 32 × ℕ)) :
    positives chain (h :: hs) =
      if 0 < effectiveTtl chain h.2 then (h.1,effectiveTtl chain h.2) :: positives chain hs
      else positives chain hs := by
  simp [positives,List.filter_cons]

theorem addressAnswers_eq_ok (current : String) (chain : List Link) (hs : List (BitVec 32 × ℕ))
    (found : List (Addr × ℤ) × List RR) :
    addressAnswers idna current (chain.map Link.ttl) hs = .ok found ↔
      (∀ h ∈ hs, Addr.isGlobal h.1 = true) ∧ (positives chain hs ≠ [] → Builds idna current) ∧
      (leasesOf chain hs,(positives chain hs).map fun h => ⟨labelOf idna current,h.2,.a h.1⟩) =
        found := by
  induction hs generalizing found with
  | nil => simp [addressAnswers,positives,leasesOf]
  | cons h rest ih =>
    obtain ⟨address,ttl⟩ := h
    have heffective : minTtl (chain.map Link.ttl++[ttl]) = effectiveTtl chain ttl := rfl
    rw [List.forall_mem_cons,leasesOf,positives_cons,addressAnswers]
    simp only [heffective]
    by_cases hglobal : Addr.isGlobal address = true
    · rw [hglobal]
      simp only [Bool.not_true,Bool.false_eq_true,if_false,true_and]
      by_cases hpositive : 0 < effectiveTtl chain ttl
      · rw [if_pos hpositive,if_neg (not_le.mpr hpositive)]
        simp only [ne_eq,reduceCtorEq,not_false_eq_true,forall_const]
        cases hlabel : DNSLabel.ofText idna current with
        | error e =>
          simp only [not_builds hlabel,false_and,and_false,iff_false]
          rintro ⟨⟩
        | ok label =>
          have hbuilds : Builds idna current := ⟨label,hlabel⟩
          rw [labelOf_eq hlabel] at ih ⊢
          simp only [hbuilds,true_and,implies_true] at ih ⊢
          change (addressAnswers idna current (chain.map Link.ttl) rest >>= fun more =>
            pure (_ :: more.1,_ :: more.2)) = _ ↔ _
          constructor
          · intro h
            obtain ⟨more,hmore,hfound⟩ := ok_of_bind h
            obtain ⟨hall,rfl⟩ := (ih more).mp hmore
            exact ⟨hall,Except.ok.inj hfound⟩
          · rintro ⟨hall,rfl⟩
            rw [(ih _).mpr ⟨hall,rfl⟩]
            rfl
      · rw [if_neg hpositive,if_pos (not_lt.mp hpositive),ih,leasesOf]
    · simp [hglobal]

def contents (idna : String → Option String) (upstream : DNSRecord) : List (BitVec 32 × ℕ) :=
  (hosts idna upstream.rr).map Host.content

theorem related_iff (ls : List Link) (hs : List Host) (names : List String) (current : String) :
    ((fileLinks Dict.empty ls).keys.any (· ∉ names) ||
      (fileHosts Dict.empty hs).keys.any (· ≠ current)) = false ↔
    (∀ link ∈ ls, link.owner ∈ names) ∧ ∀ h ∈ hs, h.owner = current := by
  have hlinks : ∀ o, o ∈ (fileLinks Dict.empty ls).keys ↔ ∃ link ∈ ls, link.owner = o := by
    intro o
    rw [← Dict.contains_iff_mem_keys,fileLinks,contains_foldl_set]
    simp
  have hhosts : ∀ o, o ∈ (fileHosts Dict.empty hs).keys ↔ ∃ h ∈ hs, h.owner = o := by
    intro o
    rw [← Dict.contains_iff_mem_keys,fileHosts,
      contains_foldl_set Host.owner fun d h => (d.get? h.owner).getD []++[h.content]]
    simp
  rw [Bool.or_eq_false_iff,List.any_eq_false,List.any_eq_false]
  simp [hlinks,hhosts]

theorem getD_fileHosts {upstream : DNSRecord} {current : String} (h : ∀ x ∈ hosts idna upstream.rr, x.owner = current) :
    ((fileHosts Dict.empty (hosts idna upstream.rr)).get? current).getD [] = contents idna upstream := by
  rw [fileHosts_get?,List.filter_eq_self.mpr (by simpa using h)]
  simp [contents]

theorem admissible_of_synthesize {request upstream : DNSRecord} {qname : String} {v : Synthesis}
    (h : synthesize idna request upstream qname = .ok v) :
    ∃ start chain, normName idna qname = .ok start ∧
      Readable idna upstream (nodes start chain) ∧ Admissible idna upstream start chain ∧
      Encodable idna start chain (contents idna upstream) ∧
      (⟨pathEnd start chain,chain,contents idna upstream,leasesOf chain (contents idna upstream),
        response idna request start chain (contents idna upstream)⟩ : Synthesis) = v := by
  obtain ⟨_,hauthority,h⟩ := ok_of_bind h
  obtain ⟨found,hread,h⟩ := ok_of_bind h
  obtain ⟨hanswers,-,hnodup,rfl⟩ := (readAnswers_eq_ok _ _ _ _).mp hread
  obtain ⟨start,hstart,h⟩ := ok_of_bind h
  obtain ⟨walked,hwalk,h⟩ := ok_of_bind h
  obtain ⟨chain,hwalks,rfl⟩ := (walk_eq_ok _ _ _ _).mp hwalk
  rw [List.nil_append] at h
  dsimp only at h
  by_cases hrelated : ((fileLinks Dict.empty (links idna upstream.rr)).keys.any
      (· ∉ chain.map Link.owner++[pathEnd start chain]) ||
    (fileHosts Dict.empty (hosts idna upstream.rr)).keys.any (· ≠ pathEnd start chain)) = true
  · rw [if_pos hrelated] at h
    cases h
  · rw [if_neg hrelated] at h
    rw [Bool.not_eq_true,related_iff,nodes_eq ((walks_iff _ _ _ _).mp hwalks).1] at hrelated
    rw [nodes_eq ((walks_iff _ _ _ _).mp hwalks).1] at h
    obtain ⟨hpath,hacyclic,hshort,hwhole⟩ :=
      (walks_whole hnodup start chain).mp ⟨hwalks,hrelated.1⟩
    obtain ⟨glue,hglue,h⟩ := ok_of_bind h
    obtain ⟨hservers,rfl⟩ := (glueNames_eq_ok _ _ _).mp hglue
    obtain ⟨_,hadditional,h⟩ := ok_of_bind h
    obtain ⟨aliases,haliases,h⟩ := ok_of_bind h
    obtain ⟨hlabels,rfl⟩ := (cnameAnswers_eq_ok _ _).mp haliases
    obtain ⟨answers,hanswered,h⟩ := ok_of_bind h
    rw [getD_fileHosts hrelated.2] at hanswered h
    obtain ⟨hglobal,hlabel,rfl⟩ := (addressAnswers_eq_ok _ _ _ _).mp hanswered
    refine ⟨start,chain,hstart,⟨fun rr hrr => ⟨(hanswers rr hrr).1,fun label hlabel => ?_⟩,hservers⟩,
      ⟨fun rr hrr => ?_,hpath,hacyclic,hshort,hwhole,fun x hx => ⟨hrelated.2 x hx,?_⟩,
        (checkAuthority_eq_ok _).mp hauthority,fun rr hrr => ?_⟩,⟨hlabels,hlabel⟩,Except.ok.inj h⟩
    · obtain ⟨-,⟨address,ha⟩ | ⟨l,hl,hname⟩⟩ := hanswers rr hrr
      · rw [ha] at hlabel
        cases hlabel
      · obtain rfl := RData.cname.inj (hl.symm.trans hlabel)
        exact hname
    · obtain ⟨-,ha | ⟨l,hl,-⟩⟩ := hanswers rr hrr
      · exact .inl ha
      · exact .inr ⟨l,hl⟩
    · exact hglobal x.content (List.mem_map_of_mem hx)
    · obtain ⟨hcname,ha⟩ := (checkAdditional_eq_ok _ _ _).mp hadditional rr hrr
      simpa only [mem_servers] using And.intro hcname ha

theorem synthesize_of_admissible (request : DNSRecord) {upstream : DNSRecord} {qname start : String} {chain : List Link}
    (hstart : normName idna qname = .ok start) (hread : Readable idna upstream (nodes start chain))
    (hadmissible : Admissible idna upstream start chain) (hencodable : Encodable idna start chain (contents idna upstream)) :
    synthesize idna request upstream qname = .ok ⟨pathEnd start chain,chain,contents idna upstream,
      leasesOf chain (contents idna upstream),response idna request start chain (contents idna upstream)⟩ := by
  have hanswers : ∀ rr ∈ upstream.rr, ReadableAnswer idna rr := by
    intro rr hrr
    obtain ⟨hname,hlabel⟩ := hread.answer rr hrr
    exact ⟨hname,(hadmissible.answer rr hrr).imp_right fun ⟨l,hl⟩ => ⟨l,hl,hlabel l hl⟩⟩
  have hnodup : ((links idna upstream.rr).map Link.owner).Nodup :=
    (hadmissible.whole.map _).nodup_iff.mpr (owners_nodup hadmissible.path hadmissible.acyclic)
  obtain ⟨hwalks,hrelevant⟩ := (walks_whole hnodup start chain).mpr
    ⟨hadmissible.path,hadmissible.acyclic,hadmissible.short,hadmissible.whole⟩
  have howners : ∀ h ∈ hosts idna upstream.rr, h.owner = pathEnd start chain :=
    fun h hh => (hadmissible.addresses h hh).1
  have hrelated := (related_iff _ _ _ _).mpr ⟨hrelevant,howners⟩
  have hadditional : checkAdditional idna (nodes start chain)
      (upstream.auth.filterMap (server? idna (nodes start chain))) upstream.ar = .ok () := by
    rw [checkAdditional_eq_ok]
    simpa only [mem_servers] using hadmissible.additional
  have hanswered := (addressAnswers_eq_ok (pathEnd start chain) chain (contents idna upstream) _).mpr
    ⟨by simpa [contents,Host.content] using fun h hh => (hadmissible.addresses h hh).2,
      hencodable.2,rfl⟩
  unfold synthesize
  rw [(checkAuthority_eq_ok _).mpr hadmissible.authority,
    (readAnswers_eq_ok _ _ _ _).mpr ⟨hanswers,by simp,hnodup,rfl⟩,hstart]
  change (walk _ start [] >>= _) = _
  rw [(walk_eq_ok _ _ _ _).mpr ⟨chain,hwalks,rfl⟩]
  change (if _ then _ else _) = _
  rw [List.nil_append,nodes_eq hadmissible.path,if_neg (by rw [hrelated]; simp),
    (glueNames_eq_ok _ _ _).mpr ⟨hread.authority,rfl⟩]
  change (checkAdditional _ _ _ _ >>= _) = _
  rw [hadditional]
  change (cnameAnswers _ _ >>= _) = _
  rw [(cnameAnswers_eq_ok _ _).mpr ⟨hencodable.1,rfl⟩,getD_fileHosts howners]
  change (addressAnswers _ _ _ _ >>= _) = _
  rw [hanswered]
  rfl

theorem synthesize_eq_ok (request upstream : DNSRecord) (qname : String) (v : Synthesis) :
    synthesize idna request upstream qname = .ok v ↔
      ∃ start chain, normName idna qname = .ok start ∧
        Readable idna upstream (nodes start chain) ∧ Admissible idna upstream start chain ∧
        Encodable idna start chain (contents idna upstream) ∧
        (⟨pathEnd start chain,chain,contents idna upstream,leasesOf chain (contents idna upstream),
          response idna request start chain (contents idna upstream)⟩ : Synthesis) = v := by
  constructor
  · exact admissible_of_synthesize
  · rintro ⟨start,chain,hstart,hread,hadmissible,hencodable,rfl⟩
    exact synthesize_of_admissible request hstart hread hadmissible hencodable

/-- The callbacks return, `replace_leases` answers with addresses it was given, and `installs`
is what they have installed. -/
structure Callbacks.Notes {σ : Type} (cb : Callbacks σ) (installs : σ → List Install) : Prop where
  replaceDnsLeases : ∀ domain records s, Fallible.wp (cb.replaceDnsLeases domain records)
    (fun installed s' => installs s' = installs s++[.leases domain records] ∧
      ∀ a ∈ installed, ∃ r ∈ records, r.1 = a) (fun _ _ => False) s
  registerDnsAlias : ∀ domain name ttl s, Fallible.wp (cb.registerDnsAlias domain name ttl)
    (fun _ s' => installs s' = installs s++[.alias domain name ttl]) (fun _ _ => False) s
  logEgressEvent : ∀ event s, Fallible.wp (cb.logEgressEvent event)
    (fun _ s' => installs s' = installs s) (fun _ _ => False) s

section Install

variable {σ : Type} {cb : Callbacks σ} {installs : σ → List Install}

theorem logLeases_wp (hcb : cb.Notes installs) (reviewed : RuleIds) (allowedRoot : String)
    (records : List (Addr × ℤ)) {addresses : List Addr}
    (h : ∀ a ∈ addresses, ∃ r ∈ records, r.1 = a) (s : σ) :
    Fallible.wp (logLeases cb reviewed allowedRoot records addresses)
      (fun _ s' => installs s' = installs s) (fun _ _ => False) s := by
  induction addresses generalizing s with
  | nil => simp [logLeases]
  | cons address rest ih =>
    rw [List.forall_mem_cons] at h
    obtain ⟨⟨r,hr,haddress⟩,hrest⟩ := h
    have hfound : (records.find? (·.1 = address)).isSome = true := by
      rw [List.find?_isSome]
      exact ⟨r,hr,by simpa using haddress⟩
    obtain ⟨⟨ip,ttl⟩,hfind⟩ := Option.isSome_iff_exists.mp hfound
    rw [logLeases,hfind]
    dsimp only
    rw [Fallible.wp_bind]
    refine Fallible.wp_mono (hcb.logEgressEvent _ s) (fun _ t ht => ?_) fun _ _ h => h
    split
    · exact Fallible.wp_mono (ih hrest t) (fun _ _ hu => hu.trans ht) fun _ _ h => h
    · rw [Fallible.wp_bind,Fallible.wp_tryExcept]
      refine Fallible.wp_mono (hcb.logEgressEvent _ t) (fun _ u hu => ?_) fun _ _ h => h.elim
      exact Fallible.wp_mono (ih hrest u) (fun _ _ hv => hv.trans (hu.trans ht)) fun _ _ h => h

theorem leasesOf_eq_nil (chain : List Link) (hs : List (BitVec 32 × ℕ)) :
    leasesOf chain hs = [] ↔ positives chain hs = [] := List.map_eq_nil_iff

theorem positives_ne_nil (chain : List Link) (hs : List (BitVec 32 × ℕ)) :
    positives chain hs ≠ [] ↔ ∃ h ∈ hs, 0 < effectiveTtl chain h.2 := by
  simp [positives,List.filter_eq_nil_iff,Nat.pos_iff_ne_zero]

theorem install_wp (hcb : cb.Notes installs) (reviewed : RuleIds) (allowedRoot start : String)
    (chain : List Link) (hs : List (BitVec 32 × ℕ)) (r : DNSRecord)
    (h : (∃ h ∈ hs, 0 < effectiveTtl chain h.2) ∨ hs = [] ∧ chain ≠ []) (s : σ) :
    Fallible.wp (install cb reviewed allowedRoot ⟨pathEnd start chain,chain,hs,leasesOf chain hs,r⟩)
      (fun _ s' => installs s' = installs s++granted allowedRoot start chain hs)
      (fun _ _ => False) s := by
  unfold install granted
  rcases h with hpositive | ⟨rfl,hchain⟩
  · have hrecords : leasesOf chain hs ≠ [] := by
      rwa [Ne,leasesOf_eq_nil,← Ne,positives_ne_nil]
    have hhosts : hs ≠ [] := by
      rintro rfl
      simp at hpositive
    rw [if_pos hrecords,if_pos hhosts,Fallible.wp_bind]
    refine Fallible.wp_mono (hcb.replaceDnsLeases _ _ s) (fun _ t ht => ?_) fun _ _ h => h
    exact Fallible.wp_mono (logLeases_wp hcb _ _ _ ht.2 t) (fun _ _ hu => hu.trans ht.1) fun _ _ h => h
  · have hrecords : ¬leasesOf chain [] ≠ [] := by simp [leasesOf,positives]
    have hnone : ¬([] : List (BitVec 32 × ℕ)) ≠ [] := by simp
    rw [if_neg hrecords,if_neg hnone,if_pos hchain,if_neg hnone]
    by_cases httl : 0 < minTtl (chain.map Link.ttl)
    · rw [if_pos httl,if_pos httl]
      exact hcb.registerDnsAlias _ _ _ s
    · rw [if_neg httl,if_neg httl]
      simp

theorem install_raises (reviewed : RuleIds) (allowedRoot : String) (v : Synthesis)
    (hrecords : v.records = []) (h : ¬(v.hosts = [] ∧ v.chain ≠ [])) (s : σ) :
    ∃ e, install cb reviewed allowedRoot v s = (.error e,s) := by
  unfold install
  rw [if_neg (by simp [hrecords])]
  by_cases hhosts : v.hosts = []
  · have hchain : v.chain = [] := by
      by_contra hne
      exact h ⟨hhosts,hne⟩
    rw [if_neg (by simp [hhosts]),if_neg (by simp [hchain])]
    exact ⟨_,rfl⟩
  · rw [if_pos hhosts]
    exact ⟨_,rfl⟩

/-- An upstream message is accepted with this chain. -/
structure Accepts (idna : String → Option String) (upstream : DNSRecord) (qname start : String)
    (chain : List Link) : Prop where
  question : normName idna qname = .ok start
  readable : Readable idna upstream (nodes start chain)
  acceptable : Acceptable idna upstream start chain
  encodable : Encodable idna start chain (contents idna upstream)

theorem answered_iff (upstream : DNSRecord) (chain : List Link) :
    ((∃ h ∈ contents idna upstream, 0 < effectiveTtl chain h.2) ∨
      contents idna upstream = [] ∧ chain ≠ []) ↔
    ((∃ h ∈ hosts idna upstream.rr, 0 < effectiveTtl chain h.ttl) ∨
      hosts idna upstream.rr = [] ∧ chain ≠ []) := by
  simp [contents,Host.content]

theorem validate_of_ok {reviewed : RuleIds} {request upstream : DNSRecord} {qname allowedRoot : String}
    {v : Synthesis} (hv : synthesize idna request upstream qname = .ok v) {s s' : σ}
    (h : install cb reviewed allowedRoot v s = (.ok (),s')) :
    validateAndSynthesize idna cb reviewed request upstream qname allowedRoot s =
      (v.response.pack,s') := by
  change Fallible.bind _ _ s = _
  simp only [Fallible.bind,Fallible.ofExcept,hv]
  change Fallible.bind _ _ s = _
  simp only [Fallible.bind,h]
  rfl

theorem validate_of_raises {reviewed : RuleIds} {request upstream : DNSRecord}
    {qname allowedRoot : String} {s : σ}
    (h : ∀ v, synthesize idna request upstream qname = .ok v →
      ∃ e, install cb reviewed allowedRoot v s = (.error e,s)) :
    ∃ e, validateAndSynthesize idna cb reviewed request upstream qname allowedRoot s =
      (.error e,s) := by
  cases hv : synthesize idna request upstream qname with
  | error e =>
    refine ⟨e,?_⟩
    change Fallible.bind _ _ s = _
    simp only [Fallible.bind,Fallible.ofExcept,hv]
  | ok v =>
    obtain ⟨e,he⟩ := h v hv
    refine ⟨e,?_⟩
    change Fallible.bind _ _ s = _
    simp only [Fallible.bind,Fallible.ofExcept,hv]
    change Fallible.bind _ _ s = _
    simp only [Fallible.bind,he]

theorem validate_of_accepts (hcb : cb.Notes installs) (reviewed : RuleIds) (request : DNSRecord)
    {upstream : DNSRecord} {qname start : String} {chain : List Link} (allowedRoot : String)
    (h : Accepts idna upstream qname start chain) (s : σ) : ∃ s',
    validateAndSynthesize idna cb reviewed request upstream qname allowedRoot s =
      ((response idna request start chain (contents idna upstream)).pack,s') ∧
    installs s' = installs s++granted allowedRoot start chain (contents idna upstream) := by
  have hv := (synthesize_eq_ok request upstream qname _).mpr
    ⟨start,chain,h.question,h.readable,h.acceptable.toAdmissible,h.encodable,rfl⟩
  have hinstall := install_wp hcb reviewed allowedRoot start chain (contents idna upstream)
    (response idna request start chain (contents idna upstream))
    ((answered_iff upstream chain).mpr h.acceptable.answered) s
  obtain ⟨_,s',hrun,hs'⟩ := Fallible.returns_of_wp hinstall
  exact ⟨s',validate_of_ok hv hrun,hs'⟩

theorem validate_of_not_accepts (cb : Callbacks σ) (reviewed : RuleIds) (request : DNSRecord)
    {upstream : DNSRecord} {qname : String} (allowedRoot : String)
    (h : ¬∃ start chain, Accepts idna upstream qname start chain) (s : σ) :
    ∃ e, validateAndSynthesize idna cb reviewed request upstream qname allowedRoot s =
      (.error e,s) := by
  refine validate_of_raises fun v hv => ?_
  obtain ⟨start,chain,hstart,hread,hadmissible,hencodable,rfl⟩ := (synthesize_eq_ok _ _ _ _).mp hv
  have hanswered : ¬((∃ h ∈ contents idna upstream, 0 < effectiveTtl chain h.2) ∨
      contents idna upstream = [] ∧ chain ≠ []) := by
    rw [answered_iff]
    exact fun hanswered => h ⟨start,chain,hstart,hread,⟨hadmissible,hanswered⟩,hencodable⟩
  rw [not_or,← positives_ne_nil,not_not,← leasesOf_eq_nil] at hanswered
  exact install_raises reviewed allowedRoot _ hanswered.1 hanswered.2 s

/-- A message is answered exactly when it is accepted and the response can be packed; what is
installed then is `granted`. A message that is not accepted raises and leaves the state. -/
theorem validation_exact (hcb : cb.Notes installs) (reviewed : RuleIds)
    (request upstream : DNSRecord) (qname allowedRoot : String) (s : σ) :
    (∀ bytes, (validateAndSynthesize idna cb reviewed request upstream qname allowedRoot s).1 =
        .ok bytes ↔
      ∃ start chain, Accepts idna upstream qname start chain ∧
        (response idna request start chain (contents idna upstream)).pack = .ok bytes) ∧
    (∀ bytes start chain, Accepts idna upstream qname start chain →
      (validateAndSynthesize idna cb reviewed request upstream qname allowedRoot s).1 = .ok bytes →
      installs (validateAndSynthesize idna cb reviewed request upstream qname allowedRoot s).2 =
        installs s++granted allowedRoot start chain (contents idna upstream)) ∧
    ((¬∃ start chain, Accepts idna upstream qname start chain) →
      ∃ e, validateAndSynthesize idna cb reviewed request upstream qname allowedRoot s =
        (.error e,s)) := by
  refine ⟨fun bytes => ⟨fun h => ?_,?_⟩,fun bytes start chain haccepts _ => ?_,
    fun h => validate_of_not_accepts cb reviewed request allowedRoot h s⟩
  · by_cases haccepts : ∃ start chain, Accepts idna upstream qname start chain
    · obtain ⟨start,chain,haccepts⟩ := haccepts
      obtain ⟨s',hrun,-⟩ := validate_of_accepts hcb reviewed request allowedRoot haccepts s
      rw [hrun] at h
      exact ⟨start,chain,haccepts,h⟩
    · obtain ⟨e,he⟩ := validate_of_not_accepts cb reviewed request allowedRoot haccepts s
      rw [he] at h
      cases h
  · rintro ⟨start,chain,haccepts,hpack⟩
    obtain ⟨s',hrun,-⟩ := validate_of_accepts hcb reviewed request allowedRoot haccepts s
    rw [hrun,hpack]
  · obtain ⟨s',hrun,hs'⟩ := validate_of_accepts hcb reviewed request allowedRoot haccepts s
    rw [hrun,hs']

end Install

def noting : Callbacks (List Install) where
  replaceDnsLeases domain records := fun s => (.ok (records.map Prod.fst),s++[.leases domain records])
  registerDnsAlias domain name ttl := fun s => (.ok (),s++[.alias domain name ttl])
  logEgressEvent _ := pure ()

theorem noting_notes : noting.Notes id where
  replaceDnsLeases domain records s := ⟨rfl,by simp⟩
  registerDnsAlias _ _ _ _ := rfl
  logEgressEvent _ _ := rfl

def asciiCodec : String → Option String := Hostname.idnaCodec fun _ => none

def name (labels : List String) : DNSLabel :=
  ⟨labels.map fun l => l.toList.map fun c => UInt8.ofNat c.toNat⟩

/-- A query of type A for `a.test`. -/
def exampleQuery : DNSRecord :=
  ⟨⟨7,false,false,false,true,0⟩,⟨name ["a","test"],1,1⟩,[],[],[]⟩

/-- `a.test` is an alias for 30 seconds of `B.test`, whose address lives 60 seconds. -/
def exampleAnswer : DNSRecord :=
  ⟨⟨7,true,false,true,true,0⟩,⟨name ["a","test"],1,1⟩,
    [⟨name ["a","test"],30,.cname (name ["B","test"])⟩,⟨name ["b","test"],60,.a 0x08080808⟩],[],[]⟩

theorem validation_exact_example : ∃ bytes start chain,
    (validateAndSynthesize asciiCodec noting Dict.empty exampleQuery exampleAnswer "a.test" "test"
      []).1 = .ok bytes ∧
    Accepts asciiCodec exampleAnswer "a.test" start chain ∧
    (validateAndSynthesize asciiCodec noting Dict.empty exampleQuery exampleAnswer "a.test" "test"
      []).2 = granted "test" start chain (contents asciiCodec exampleAnswer) := by
  have hexact := @validation_exact asciiCodec _ noting id noting_notes Dict.empty exampleQuery
    exampleAnswer "a.test" "test" []
  have hok : (validateAndSynthesize asciiCodec noting Dict.empty exampleQuery exampleAnswer "a.test"
      "test" []).1.toOption.isSome = true := by decide +kernel
  cases hrun : (validateAndSynthesize asciiCodec noting Dict.empty exampleQuery exampleAnswer "a.test"
      "test" []).1 with
  | error e =>
    rw [hrun] at hok
    cases hok
  | ok bytes =>
    obtain ⟨start,chain,haccepts,-⟩ := (hexact.1 bytes).mp hrun
    exact ⟨bytes,start,chain,rfl,haccepts,hexact.2.1 bytes start chain haccepts hrun⟩

/-- The authority section names a zone by a label that `str` writes with 64 characters. -/
def escapedAuthority : DNSRecord :=
  ⟨⟨7,true,false,true,true,0⟩,⟨name ["a","test"],1,1⟩,[⟨name ["a","test"],60,.a 0x08080808⟩],
    [⟨⟨[List.replicate 16 1]⟩,60,.ns (name ["ns","test"])⟩],[]⟩

/-- The sections are all right, and the codec raises on a name that plays no part. -/
theorem escaped_authority_refused : normName asciiCodec "a.test" = .ok "a.test" ∧
    Acceptable asciiCodec escapedAuthority "a.test" [] ∧
    validateAndSynthesize asciiCodec noting Dict.empty exampleQuery escapedAuthority "a.test" "test"
      [] = (.error .unicode,[]) := by
  have hhosts : hosts asciiCodec escapedAuthority.rr = [⟨"a.test",0x08080808,60⟩] := by decide +kernel
  have hlinks : links asciiCodec escapedAuthority.rr = [] := by decide +kernel
  refine ⟨by decide +kernel,⟨⟨?_,trivial,by decide +kernel,by decide,by rw [hlinks],?_,?_,?_⟩,?_⟩,
    by decide +kernel⟩
  · simp [escapedAuthority]
  · rw [hhosts]
    simp only [List.mem_singleton,forall_eq,pathEnd,true_and]
    decide +kernel
  · simp [escapedAuthority]
  · simp [escapedAuthority]
  · rw [hhosts]
    exact .inl ⟨⟨"a.test",0x08080808,60⟩,by simp,by decide⟩

end Dns
end FakeNetNG
