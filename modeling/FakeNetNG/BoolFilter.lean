import Mathlib.Tactic

/-!
# Boolean filters

Filters over tests of any kind: a recursive descent parser for `or`, `and`, `not` and
parentheses, the trees it gives, and concrete filters whose tokens and texts it reads back.
-/

namespace BoolFilter

inductive Token (α : Type)
  | opening
  | closing
  | and
  | or
  | not
  | atom (a : α)
  deriving DecidableEq

inductive Ast (β : Type)
  | const (value : Bool)
  | var (x : β)
  | not (node : Ast β)
  | and (left right : Ast β)
  | or (left right : Ast β)
  deriving DecidableEq

def Ast.eval {β : Type} (assignment : β → Bool) : Ast β → Bool
  | .const value => value
  | .var x => assignment x
  | .not node => !node.eval assignment
  | .and left right => left.eval assignment && right.eval assignment
  | .or left right => left.eval assignment || right.eval assignment

/-- The variables of a tree from left to right. -/
def Ast.variables {β : Type} : Ast β → List β
  | .const _ => []
  | .var x => [x]
  | .not node => node.variables
  | .and left right => left.variables++right.variables
  | .or left right => left.variables++right.variables

inductive ParseFault (ε : Type)
  | unexpectedEnd
  | parenthesis
  | keyword
  | trailingTokens
  | outOfFuel
  | atom (fault : ε)
  deriving DecidableEq

section Parser

variable {α β ε : Type} (read : α → Except ε (Ast β))

mutual

def parseOr : ℕ → List (Token α) → Except (ParseFault ε) (Ast β × List (Token α))
  | 0,_ => .error .outOfFuel
  | fuel+1,tokens => do
      let (node,rest) ← parseAnd fuel tokens
      orLoop fuel node rest

def orLoop : ℕ → Ast β → List (Token α) → Except (ParseFault ε) (Ast β × List (Token α))
  | 0,_,_ => .error .outOfFuel
  | fuel+1,node,.or :: rest => do
      let (right,rest) ← parseAnd fuel rest
      orLoop fuel (.or node right) rest
  | _+1,node,rest => .ok (node,rest)

def parseAnd : ℕ → List (Token α) → Except (ParseFault ε) (Ast β × List (Token α))
  | 0,_ => .error .outOfFuel
  | fuel+1,tokens => do
      let (node,rest) ← parseNot fuel tokens
      andLoop fuel node rest

def andLoop : ℕ → Ast β → List (Token α) → Except (ParseFault ε) (Ast β × List (Token α))
  | 0,_,_ => .error .outOfFuel
  | fuel+1,node,.and :: rest => do
      let (right,rest) ← parseNot fuel rest
      andLoop fuel (.and node right) rest
  | _+1,node,rest => .ok (node,rest)

def parseNot : ℕ → List (Token α) → Except (ParseFault ε) (Ast β × List (Token α))
  | 0,_ => .error .outOfFuel
  | fuel+1,.not :: rest => do
      let (node,rest) ← parseNot fuel rest
      return (.not node,rest)
  | fuel+1,tokens => parsePrimary fuel tokens

def parsePrimary : ℕ → List (Token α) → Except (ParseFault ε) (Ast β × List (Token α))
  | 0,_ => .error .outOfFuel
  | _+1,[] => .error .unexpectedEnd
  | fuel+1,.opening :: rest => do
      match ← parseOr fuel rest with
      | (node,.closing :: rest) => return (node,rest)
      | _ => throw .parenthesis
  | _+1,.closing :: _ => .error .parenthesis
  | _+1,.atom a :: rest =>
      match read a with
      | .ok node => .ok (node,rest)
      | .error fault => .error (.atom fault)
  | _+1,_ => .error .keyword

end

/-- Every call of the parser uses up fuel, at most four for each token. -/
def parse (tokens : List (Token α)) : Except (ParseFault ε) (Ast β) := do
  match ← parseOr read (4*tokens.length+4) tokens with
  | (node,[]) => return node
  | _ => throw .trailingTokens

/-- A result that is not for want of fuel, with at most so many tokens left. -/
def Settles (bound : ℕ) : Except (ParseFault ε) (Ast β × List (Token α)) → Prop
  | .ok (_,rest) => rest.length ≤ bound
  | .error fault => fault ≠ .outOfFuel

theorem Settles.bind {bound after : ℕ} {result : Except (ParseFault ε) (Ast β × List (Token α))}
    {next : Ast β × List (Token α) → Except (ParseFault ε) (Ast β × List (Token α))}
    (hresult : Settles bound result)
    (hnext : ∀ node rest, rest.length ≤ bound → Settles after (next (node,rest))) :
    Settles after (result >>= next) := by
  cases result with
  | error fault => exact hresult
  | ok pair => exact hnext pair.1 pair.2 hresult

/-- What fuel each part of the parser needs. -/
structure EnoughFuel (fuel : ℕ) : Prop where
  or : ∀ tokens, 4*tokens.length+4 ≤ fuel → Settles (tokens.length-1) (parseOr read fuel tokens)
  orLoop : ∀ node tokens, 4*tokens.length+1 ≤ fuel →
    Settles tokens.length (orLoop read fuel node tokens)
  and : ∀ tokens, 4*tokens.length+3 ≤ fuel → Settles (tokens.length-1) (parseAnd read fuel tokens)
  andLoop : ∀ node tokens, 4*tokens.length+1 ≤ fuel →
    Settles tokens.length (andLoop read fuel node tokens)
  not : ∀ tokens, 4*tokens.length+2 ≤ fuel → Settles (tokens.length-1) (parseNot read fuel tokens)
  primary : ∀ tokens, 4*tokens.length+1 ≤ fuel →
    Settles (tokens.length-1) (parsePrimary read fuel tokens)

theorem Settles.mono {bound after : ℕ} {result : Except (ParseFault ε) (Ast β × List (Token α))}
    (h : Settles bound result) (hle : bound ≤ after) : Settles after result := by
  cases result with
  | error fault => exact h
  | ok pair => exact le_trans h hle

variable {read}

theorem orLoop_stop {fuel : ℕ} {node : Ast β} {tokens : List (Token α)} (hfuel : 0 < fuel)
    (h : tokens.head? ≠ some .or) : orLoop read fuel node tokens = .ok (node,tokens) := by
  obtain ⟨fuel,rfl⟩ := Nat.exists_eq_add_of_lt hfuel
  cases tokens with
  | nil => rfl
  | cons head rest =>
    cases head with
    | or => exact absurd rfl h
    | _ => rfl

theorem andLoop_stop {fuel : ℕ} {node : Ast β} {tokens : List (Token α)} (hfuel : 0 < fuel)
    (h : tokens.head? ≠ some .and) : andLoop read fuel node tokens = .ok (node,tokens) := by
  obtain ⟨fuel,rfl⟩ := Nat.exists_eq_add_of_lt hfuel
  cases tokens with
  | nil => rfl
  | cons head rest =>
    cases head with
    | and => exact absurd rfl h
    | _ => rfl

theorem EnoughFuel.orLoop_succ {fuel : ℕ} (ih : EnoughFuel read fuel) (node : Ast β)
    (tokens : List (Token α)) (h : 4*tokens.length+1 ≤ fuel+1) :
    Settles tokens.length (BoolFilter.orLoop read (fuel+1) node tokens) := by
  by_cases hhead : tokens.head? = some .or
  · obtain ⟨rest,rfl⟩ := List.head?_eq_some_iff.mp hhead
    rw [List.length_cons] at h ⊢
    rw [BoolFilter.orLoop]
    refine Settles.bind (ih.and rest (by omega)) fun right after hafter => ?_
    exact (ih.orLoop _ after (by omega)).mono (by omega)
  · rw [orLoop_stop (by omega) hhead]
    exact le_rfl

theorem EnoughFuel.andLoop_succ {fuel : ℕ} (ih : EnoughFuel read fuel) (node : Ast β)
    (tokens : List (Token α)) (h : 4*tokens.length+1 ≤ fuel+1) :
    Settles tokens.length (BoolFilter.andLoop read (fuel+1) node tokens) := by
  by_cases hhead : tokens.head? = some .and
  · obtain ⟨rest,rfl⟩ := List.head?_eq_some_iff.mp hhead
    rw [List.length_cons] at h ⊢
    rw [BoolFilter.andLoop]
    refine Settles.bind (ih.not rest (by omega)) fun right after hafter => ?_
    exact (ih.andLoop _ after (by omega)).mono (by omega)
  · rw [andLoop_stop (by omega) hhead]
    exact le_rfl

theorem parseNot_of_head {fuel : ℕ} {tokens : List (Token α)} (h : tokens.head? ≠ some .not) :
    parseNot read (fuel+1) tokens = parsePrimary read fuel tokens := by
  cases tokens with
  | nil => rfl
  | cons head rest =>
    cases head with
    | not => exact absurd rfl h
    | _ => rfl

theorem EnoughFuel.not_succ {fuel : ℕ} (ih : EnoughFuel read fuel) (tokens : List (Token α))
    (h : 4*tokens.length+2 ≤ fuel+1) :
    Settles (tokens.length-1) (parseNot read (fuel+1) tokens) := by
  by_cases hhead : tokens.head? = some .not
  · obtain ⟨rest,rfl⟩ := List.head?_eq_some_iff.mp hhead
    rw [List.length_cons] at h ⊢
    rw [parseNot]
    refine Settles.bind (ih.not rest (by omega)) fun node after hafter => ?_
    show after.length ≤ _
    omega
  · rw [parseNot_of_head hhead]
    exact ih.primary tokens (by omega)

theorem EnoughFuel.primary_succ {fuel : ℕ} (ih : EnoughFuel read fuel) (tokens : List (Token α))
    (h : 4*tokens.length+1 ≤ fuel+1) :
    Settles (tokens.length-1) (parsePrimary read (fuel+1) tokens) := by
  cases tokens with
  | nil => exact nofun
  | cons head rest =>
    rw [List.length_cons] at h ⊢
    cases head with
    | opening =>
      rw [parsePrimary]
      refine Settles.bind (ih.or rest (by omega)) fun node after hafter => ?_
      cases after with
      | nil => exact nofun
      | cons next after =>
        rw [List.length_cons] at hafter
        cases next with
        | closing =>
          show after.length ≤ _
          omega
        | _ => exact nofun
    | atom a =>
      rw [parsePrimary]
      cases hread : read a with
      | ok node => exact le_rfl
      | error fault => exact nofun
    | _ => exact nofun

/-- The parser never stops for want of fuel when it gets what its tokens need. -/
theorem enoughFuel (fuel : ℕ) : EnoughFuel read fuel := by
  induction fuel with
  | zero => constructor <;> intros <;> omega
  | succ fuel ih =>
    refine ⟨?_,ih.orLoop_succ,?_,ih.andLoop_succ,ih.not_succ,ih.primary_succ⟩
    · intro tokens h
      rw [parseOr]
      refine Settles.bind (ih.and tokens (by omega)) fun node rest hrest => ?_
      exact (ih.orLoop node rest (by omega)).mono hrest
    · intro tokens h
      rw [parseAnd]
      refine Settles.bind (ih.not tokens (by omega)) fun node rest hrest => ?_
      exact (ih.andLoop node rest (by omega)).mono hrest

theorem parse_ne_outOfFuel (tokens : List (Token α)) : parse read tokens ≠ .error .outOfFuel := by
  have hsettles : Settles (tokens.length-1) (parseOr read (4*tokens.length+4) tokens) :=
    (enoughFuel _).or tokens le_rfl
  unfold parse
  cases hresult : parseOr read (4*tokens.length+4) tokens with
  | error fault =>
    rw [hresult] at hsettles
    intro h
    injection h with h
    exact hsettles h
  | ok pair =>
    obtain ⟨node,rest⟩ := pair
    cases rest <;> exact nofun

end Parser

inductive Level
  | factor
  | conjunction
  | disjunction

/-- A filter as it is written, with its parentheses. -/
inductive Source (α : Type) : Level → Type
  | atom (a : α) : Source α .factor
  | group (s : Source α .disjunction) : Source α .factor
  | not (s : Source α .factor) : Source α .factor
  | factor (s : Source α .factor) : Source α .conjunction
  | and (s : Source α .conjunction) (t : Source α .factor) : Source α .conjunction
  | conjunction (s : Source α .conjunction) : Source α .disjunction
  | or (s : Source α .disjunction) (t : Source α .conjunction) : Source α .disjunction

namespace Source

variable {α τ β ε : Type} {level : Level}

/-- The tokens of a filter, for a token of each test. -/
@[grind] def tokens (token : α → τ) {level : Level} : Source α level → List (Token τ)
  | .atom a => [.atom (token a)]
  | .group s => .opening :: s.tokens token++[.closing]
  | .not s => .not :: s.tokens token
  | .factor s => s.tokens token
  | .and s t => s.tokens token++.and :: t.tokens token
  | .conjunction s => s.tokens token
  | .or s t => s.tokens token++.or :: t.tokens token

@[grind] def atoms {level : Level} : Source α level → List α
  | .atom a => [a]
  | .group s => s.atoms
  | .not s => s.atoms
  | .factor s => s.atoms
  | .and s t => s.atoms++t.atoms
  | .conjunction s => s.atoms
  | .or s t => s.atoms++t.atoms

/-- The tree of a filter, for a tree of each test. -/
@[grind] def ast (meaning : α → Ast β) {level : Level} : Source α level → Ast β
  | .atom a => meaning a
  | .group s => s.ast meaning
  | .not s => .not (s.ast meaning)
  | .factor s => s.ast meaning
  | .and s t => .and (s.ast meaning) (t.ast meaning)
  | .conjunction s => s.ast meaning
  | .or s t => .or (s.ast meaning) (t.ast meaning)

/-- What a filter says, for what each test says. -/
@[grind] def holds (truth : α → Bool) {level : Level} : Source α level → Bool
  | .atom a => truth a
  | .group s => s.holds truth
  | .not s => !s.holds truth
  | .factor s => s.holds truth
  | .and s t => s.holds truth && t.holds truth
  | .conjunction s => s.holds truth
  | .or s t => s.holds truth || t.holds truth

theorem holds_congr {truth other : α → Bool} {s : Source α level}
    (h : ∀ a ∈ s.atoms, truth a = other a) : s.holds truth = s.holds other := by
  induction s with
  | atom a => exact h a List.mem_cons_self
  | group s ih => exact ih h
  | not s ih => rw [holds,holds,ih h]
  | factor s ih => exact ih h
  | and s t ihs iht =>
    rw [holds,holds,ihs fun a ha => h a (List.mem_append_left _ ha),
      iht fun a ha => h a (List.mem_append_right _ ha)]
  | conjunction s ih => exact ih h
  | or s t ihs iht =>
    rw [holds,holds,ihs fun a ha => h a (List.mem_append_left _ ha),
      iht fun a ha => h a (List.mem_append_right _ ha)]

theorem eval_ast (meaning : α → Ast β) (assignment : β → Bool) (s : Source α level) :
    (s.ast meaning).eval assignment = s.holds fun a => (meaning a).eval assignment := by
  induction s with
  | atom a => rfl
  | group s ih => exact ih
  | not s ih => rw [ast,Ast.eval,ih,holds]
  | factor s ih => exact ih
  | and s t ihs iht => rw [ast,Ast.eval,ihs,iht,holds]
  | conjunction s ih => exact ih
  | or s t ihs iht => rw [ast,Ast.eval,ihs,iht,holds]

theorem variables_ast (meaning : α → Ast β) (s : Source α level) :
    (s.ast meaning).variables = s.atoms.flatMap fun a => (meaning a).variables := by
  induction s with
  | atom a => simp [ast,atoms]
  | group s ih => exact ih
  | not s ih => exact ih
  | factor s ih => exact ih
  | and s t ihs iht => rw [ast,Ast.variables,ihs,iht,atoms,List.flatMap_append]
  | conjunction s ih => exact ih
  | or s t ihs iht => rw [ast,Ast.variables,ihs,iht,atoms,List.flatMap_append]

theorem any_tokens {p : Token τ → Bool} (hp : p .opening = false ∧ p .closing = false ∧
      p .and = false ∧ p .or = false ∧ p .not = false) (token : α → τ) (s : Source α level) :
    (s.tokens token).any p = s.atoms.any fun a => p (.atom (token a)) := by
  obtain ⟨hopening,hclosing,hand,hor,hnot⟩ := hp
  induction s with
  | atom a => rfl
  | group s ih => simp [tokens,atoms,hopening,hclosing,ih]
  | not s ih => simp [tokens,atoms,hnot,ih]
  | factor s ih => exact ih
  | and s t ihs iht => simp [tokens,atoms,hand,ihs,iht]
  | conjunction s ih => exact ih
  | or s t ihs iht => simp [tokens,atoms,hor,ihs,iht]

/-- How often the loop of its level runs. -/
@[grind] def joins {level : Level} : Source α level → ℕ
  | .and s _ => s.joins+1
  | .or s _ => s.joins+1
  | _ => 0

theorem joins_lt_length (token : α → τ) (s : Source α level) : 2*s.joins < (s.tokens token).length := by
  induction s with
  | atom a => simp [joins,tokens]
  | group s ih => simp [joins,tokens]
  | not s ih => simp [joins,tokens]
  | factor s ih => exact lt_of_le_of_lt (Nat.zero_le _) ih
  | and s t ihs iht =>
    rw [joins,tokens,List.length_append,List.length_cons]
    omega
  | conjunction s ih => exact lt_of_le_of_lt (Nat.zero_le _) ih
  | or s t ihs iht =>
    rw [joins,tokens,List.length_append,List.length_cons]
    omega

/-- What the parser does with a filter of each level. -/
def Parses (read : τ → Except ε (Ast β)) (token : α → τ) (meaning : α → Ast β) :
    {level : Level} → Source α level → Prop
  | .factor,s => ∀ fuel rest, 4*(s.tokens token).length ≤ fuel+2 →
      parseNot read fuel (s.tokens token++rest) = .ok (s.ast meaning,rest)
  | .conjunction,s => ∀ fuel rest, 4*(s.tokens token).length ≤ fuel+1 →
      parseAnd read fuel (s.tokens token++rest) = andLoop read (fuel-1-s.joins) (s.ast meaning) rest
  | .disjunction,s => ∀ fuel rest, 4*(s.tokens token).length ≤ fuel → rest.head? ≠ some .and →
      parseOr read fuel (s.tokens token++rest) = orLoop read (fuel-1-s.joins) (s.ast meaning) rest

variable {read : τ → Except ε (Ast β)} {token : α → τ} {meaning : α → Ast β}

theorem parses_atom {a : α} (h : read (token a) = .ok (meaning a)) : Parses read token meaning (atom a) := by
  intro fuel rest hfuel
  have htwo : 2 ≤ fuel := by
    rw [tokens,List.length_singleton] at hfuel
    omega
  obtain ⟨k,rfl⟩ := Nat.exists_eq_add_of_le' htwo
  rw [tokens,List.singleton_append,parseNot_of_head (by simp),parsePrimary,h]
  rfl

theorem Parses.group {s : Source α .disjunction} (h : Parses read token meaning s) :
    Parses read token meaning s.group := by
  intro fuel rest hfuel
  have hjoins := s.joins_lt_length token
  have hlength : (s.group.tokens token).length = (s.tokens token).length+2 := by
    rw [tokens,List.length_append,List.length_cons,List.length_singleton]
  have htwo : 2 ≤ fuel := by omega
  obtain ⟨k,rfl⟩ := Nat.exists_eq_add_of_le' htwo
  have hinner : parseOr read k (s.tokens token++.closing :: rest) =
      .ok (s.ast meaning,.closing :: rest) := by
    rw [h k _ (by omega) (by simp),orLoop_stop (by omega) (by simp)]
  have htokens : s.group.tokens token++rest = .opening :: (s.tokens token++.closing :: rest) := by
    simp [tokens]
  rw [htokens,parseNot_of_head (by simp),parsePrimary,hinner]
  rfl

theorem Parses.not {s : Source α .factor} (h : Parses read token meaning s) :
    Parses read token meaning s.not := by
  intro fuel rest hfuel
  have hlength : (s.not.tokens token).length = (s.tokens token).length+1 := rfl
  have hjoins := s.joins_lt_length token
  have hone : 1 ≤ fuel := by omega
  obtain ⟨k,rfl⟩ := Nat.exists_eq_add_of_le' hone
  rw [tokens,List.cons_append,parseNot,h k rest (by omega)]
  rfl

theorem Parses.factor {s : Source α .factor} (h : Parses read token meaning s) :
    Parses read token meaning s.factor := by
  intro fuel rest hfuel
  have hlength : (s.factor.tokens token).length = (s.tokens token).length := rfl
  have hjoins := s.joins_lt_length token
  have hone : 1 ≤ fuel := by omega
  obtain ⟨k,rfl⟩ := Nat.exists_eq_add_of_le' hone
  rw [tokens,parseAnd,h k rest (by omega)]
  rfl

theorem Parses.and {s : Source α .conjunction} {t : Source α .factor} (hs : Parses read token meaning s)
    (ht : Parses read token meaning t) : Parses read token meaning (s.and t) := by
  intro fuel rest hfuel
  have hlength : ((s.and t).tokens token).length =
      (s.tokens token).length+((t.tokens token).length+1) := by
    rw [tokens,List.length_append,List.length_cons]
  have hjoins := s.joins_lt_length token
  have htjoins := t.joins_lt_length token
  have hloop : fuel-1-s.joins = (fuel-1-(s.and t).joins)+1 := by
    rw [joins]
    omega
  rw [tokens,List.append_assoc,List.cons_append,hs fuel _ (by omega),hloop,andLoop,
    ht _ rest (by rw [joins]; omega)]
  rfl

theorem Parses.conjunction {s : Source α .conjunction} (h : Parses read token meaning s) :
    Parses read token meaning s.conjunction := by
  intro fuel rest hfuel hrest
  have hlength : (s.conjunction.tokens token).length = (s.tokens token).length := rfl
  have hjoins := s.joins_lt_length token
  have hone : 1 ≤ fuel := by omega
  obtain ⟨k,rfl⟩ := Nat.exists_eq_add_of_le' hone
  rw [tokens,parseOr,h k rest (by omega),andLoop_stop (by omega) hrest]
  rfl

theorem Parses.or {s : Source α .disjunction} {t : Source α .conjunction}
    (hs : Parses read token meaning s) (ht : Parses read token meaning t) : Parses read token meaning (s.or t) := by
  intro fuel rest hfuel hrest
  have hlength : ((s.or t).tokens token).length =
      (s.tokens token).length+((t.tokens token).length+1) := by
    rw [tokens,List.length_append,List.length_cons]
  have hjoins := s.joins_lt_length token
  have htjoins := t.joins_lt_length token
  have hloop : fuel-1-s.joins = (fuel-1-(s.or t).joins)+1 := by
    rw [joins]
    omega
  have hright : parseAnd read (fuel-1-(s.or t).joins) (t.tokens token++rest) =
      .ok (t.ast meaning,rest) := by
    rw [ht _ rest (by rw [joins]; omega),andLoop_stop (by rw [joins]; omega) hrest]
  rw [tokens,List.append_assoc,List.cons_append,hs fuel _ (by omega) (by simp),hloop,orLoop,hright]
  rfl

theorem parses (s : Source α level) (h : ∀ a ∈ s.atoms, read (token a) = .ok (meaning a)) :
    Parses read token meaning s := by
  induction s with
  | atom a => exact parses_atom (h a List.mem_cons_self)
  | group s ih => exact (ih h).group
  | not s ih => exact (ih h).not
  | factor s ih => exact (ih h).factor
  | and s t ihs iht =>
    exact (ihs fun a ha => h a (List.mem_append_left _ ha)).and
      (iht fun a ha => h a (List.mem_append_right _ ha))
  | conjunction s ih => exact (ih h).conjunction
  | or s t ihs iht =>
    exact (ihs fun a ha => h a (List.mem_append_left _ ha)).or
      (iht fun a ha => h a (List.mem_append_right _ ha))

theorem parse_tokens (s : Source α .disjunction) (h : ∀ a ∈ s.atoms, read (token a) = .ok (meaning a)) :
    parse read (s.tokens token) = .ok (s.ast meaning) := by
  have hjoins := s.joins_lt_length token
  have hparse : parseOr read (4*(s.tokens token).length+4) (s.tokens token) = .ok (s.ast meaning,[]) := by
    have happend := parses s h (4*(s.tokens token).length+4) [] (by omega) (by simp)
    rw [List.append_nil] at happend
    rw [happend,orLoop_stop (by omega) (by simp)]
  rw [parse,hparse]
  rfl

/-- The tree of a test that can be read. -/
def treeOf (read : α → Except ε (Ast β)) (a : α) : Ast β := (read a).toOption.getD (.const false)

/-- A tree of a concrete filter all of whose tests can be read. -/
def IsTree (read : α → Except ε (Ast β)) (s : Source α level) (node : Ast β) : Prop :=
  (∀ a ∈ s.atoms, ∃ tree, read a = .ok tree) ∧ node = s.ast (treeOf read)

section Soundness

variable {read : α → Except ε (Ast β)}

theorem isTree_atom {a : α} {tree : Ast β} (h : read a = .ok tree) : IsTree read (atom a) tree := by
  refine ⟨fun b hb => ?_,?_⟩
  · rw [List.mem_singleton.mp hb]
    exact ⟨tree,h⟩
  · simp [ast,treeOf,h,Except.toOption]

theorem IsTree.not {s : Source α .factor} {node : Ast β} (h : IsTree read s node) :
    IsTree read s.not (.not node) :=
  ⟨h.1,by rw [ast,h.2]⟩

theorem IsTree.and {s : Source α .conjunction} {t : Source α .factor} {left right : Ast β}
    (hs : IsTree read s left) (ht : IsTree read t right) : IsTree read (s.and t) (.and left right) :=
  ⟨fun a ha => (List.mem_append.mp ha).elim (hs.1 a) (ht.1 a),by rw [ast,hs.2,ht.2]⟩

theorem IsTree.or {s : Source α .disjunction} {t : Source α .conjunction} {left right : Ast β}
    (hs : IsTree read s left) (ht : IsTree read t right) : IsTree read (s.or t) (.or left right) :=
  ⟨fun a ha => (List.mem_append.mp ha).elim (hs.1 a) (ht.1 a),by rw [ast,hs.2,ht.2]⟩

/-- A result that is the tree of a filter at the beginning of the tokens. -/
def Derives (read : α → Except ε (Ast β)) (level : Level) (tokens : List (Token α)) (node : Ast β)
    (rest : List (Token α)) : Prop :=
  ∃ s : Source α level, s.tokens id++rest = tokens ∧ IsTree read s node

theorem Derives.conjunction {tokens rest : List (Token α)} {node : Ast β}
    (h : Derives read .factor tokens node rest) : Derives read .conjunction tokens node rest := by
  obtain ⟨s,htokens,htree⟩ := h
  exact ⟨.factor s,htokens,htree⟩

theorem Derives.disjunction {tokens rest : List (Token α)} {node : Ast β}
    (h : Derives read .conjunction tokens node rest) : Derives read .disjunction tokens node rest := by
  obtain ⟨s,htokens,htree⟩ := h
  exact ⟨.conjunction s,htokens,htree⟩

theorem Derives.not {tokens rest : List (Token α)} {node : Ast β}
    (h : Derives read .factor tokens node rest) :
    Derives read .factor (.not :: tokens) (.not node) rest := by
  obtain ⟨s,rfl,htree⟩ := h
  exact ⟨.not s,rfl,htree.not⟩

theorem Derives.group {tokens rest : List (Token α)} {node : Ast β}
    (h : Derives read .disjunction tokens node (.closing :: rest)) :
    Derives read .factor (.opening :: tokens) node rest := by
  obtain ⟨s,rfl,htree⟩ := h
  refine ⟨.group s,?_,htree⟩
  simp [Source.tokens]

theorem Derives.and {tokens middle rest : List (Token α)} {left right : Ast β}
    (hleft : Derives read .conjunction tokens left (.and :: middle))
    (hright : Derives read .factor middle right rest) :
    Derives read .conjunction tokens (.and left right) rest := by
  obtain ⟨s,rfl,hs⟩ := hleft
  obtain ⟨t,rfl,ht⟩ := hright
  refine ⟨.and s t,?_,hs.and ht⟩
  simp [Source.tokens]

theorem Derives.or {tokens middle rest : List (Token α)} {left right : Ast β}
    (hleft : Derives read .disjunction tokens left (.or :: middle))
    (hright : Derives read .conjunction middle right rest) :
    Derives read .disjunction tokens (.or left right) rest := by
  obtain ⟨s,rfl,hs⟩ := hleft
  obtain ⟨t,rfl,ht⟩ := hright
  refine ⟨.or s t,?_,hs.or ht⟩
  simp [Source.tokens]

/-- What each part of the parser returns. A loop extends what stands before it. -/
structure ParserSound (read : α → Except ε (Ast β)) (fuel : ℕ) : Prop where
  or : ∀ {tokens node rest}, parseOr read fuel tokens = .ok (node,rest) →
    Derives read .disjunction tokens node rest
  orLoop : ∀ {tokens middle left node rest}, Derives read .disjunction tokens left middle →
    orLoop read fuel left middle = .ok (node,rest) → Derives read .disjunction tokens node rest
  and : ∀ {tokens node rest}, parseAnd read fuel tokens = .ok (node,rest) →
    Derives read .conjunction tokens node rest
  andLoop : ∀ {tokens middle left node rest}, Derives read .conjunction tokens left middle →
    andLoop read fuel left middle = .ok (node,rest) → Derives read .conjunction tokens node rest
  not : ∀ {tokens node rest}, parseNot read fuel tokens = .ok (node,rest) →
    Derives read .factor tokens node rest
  primary : ∀ {tokens node rest}, parsePrimary read fuel tokens = .ok (node,rest) →
    Derives read .factor tokens node rest

theorem bind_eq_ok {γ δ : Type} {m : Except (ParseFault ε) γ} {k : γ → Except (ParseFault ε) δ} {d : δ}
    (h : m >>= k = .ok d) : ∃ c, m = .ok c ∧ k c = .ok d := by
  cases m with
  | error fault => cases h
  | ok c => exact ⟨c,rfl,h⟩

theorem ParserSound.orLoop_succ {fuel : ℕ} (ih : ParserSound read fuel)
    {tokens middle rest : List (Token α)} {left node : Ast β}
    (hleft : Derives read .disjunction tokens left middle)
    (h : BoolFilter.orLoop read (fuel+1) left middle = .ok (node,rest)) :
    Derives read .disjunction tokens node rest := by
  by_cases hhead : middle.head? = some .or
  · obtain ⟨after,rfl⟩ := List.head?_eq_some_iff.mp hhead
    rw [BoolFilter.orLoop] at h
    obtain ⟨⟨right,next⟩,hright,hloop⟩ := bind_eq_ok h
    exact ih.orLoop (hleft.or (ih.and hright)) hloop
  · rw [orLoop_stop (by omega) hhead] at h
    cases h
    exact hleft

theorem ParserSound.andLoop_succ {fuel : ℕ} (ih : ParserSound read fuel)
    {tokens middle rest : List (Token α)} {left node : Ast β}
    (hleft : Derives read .conjunction tokens left middle)
    (h : BoolFilter.andLoop read (fuel+1) left middle = .ok (node,rest)) :
    Derives read .conjunction tokens node rest := by
  by_cases hhead : middle.head? = some .and
  · obtain ⟨after,rfl⟩ := List.head?_eq_some_iff.mp hhead
    rw [BoolFilter.andLoop] at h
    obtain ⟨⟨right,next⟩,hright,hloop⟩ := bind_eq_ok h
    exact ih.andLoop (hleft.and (ih.not hright)) hloop
  · rw [andLoop_stop (by omega) hhead] at h
    cases h
    exact hleft

theorem ParserSound.not_succ {fuel : ℕ} (ih : ParserSound read fuel) {tokens rest : List (Token α)}
    {node : Ast β} (h : parseNot read (fuel+1) tokens = .ok (node,rest)) :
    Derives read .factor tokens node rest := by
  by_cases hhead : tokens.head? = some .not
  · obtain ⟨after,rfl⟩ := List.head?_eq_some_iff.mp hhead
    rw [parseNot] at h
    obtain ⟨⟨inner,next⟩,hinner,hpure⟩ := bind_eq_ok h
    cases hpure
    exact (ih.not hinner).not
  · rw [parseNot_of_head hhead] at h
    exact ih.primary h

theorem ParserSound.primary_succ {fuel : ℕ} (ih : ParserSound read fuel)
    {tokens rest : List (Token α)} {node : Ast β}
    (h : parsePrimary read (fuel+1) tokens = .ok (node,rest)) :
    Derives read .factor tokens node rest := by
  cases tokens with
  | nil => cases h
  | cons head after =>
    cases head with
    | opening =>
      rw [parsePrimary] at h
      obtain ⟨⟨inner,next⟩,hinner,hclose⟩ := bind_eq_ok h
      cases next with
      | nil => cases hclose
      | cons token next =>
        cases token with
        | closing =>
          cases hclose
          exact (ih.or hinner).group
        | _ => cases hclose
    | atom a =>
      rw [parsePrimary] at h
      cases hread : read a with
      | error fault =>
        rw [hread] at h
        cases h
      | ok tree =>
        rw [hread] at h
        cases h
        exact ⟨.atom a,rfl,isTree_atom hread⟩
    | _ => cases h

/-- What the parser returns is the tree of a concrete filter that its tokens write. -/
theorem parserSound (fuel : ℕ) : ParserSound read fuel := by
  induction fuel with
  | zero => constructor <;> intros <;> contradiction
  | succ fuel ih =>
    refine ⟨?_,ih.orLoop_succ,?_,ih.andLoop_succ,ih.not_succ,ih.primary_succ⟩
    · intro tokens node rest h
      rw [parseOr] at h
      obtain ⟨⟨left,middle⟩,hleft,hloop⟩ := bind_eq_ok h
      exact ih.orLoop (ih.and hleft).disjunction hloop
    · intro tokens node rest h
      rw [parseAnd] at h
      obtain ⟨⟨left,middle⟩,hleft,hloop⟩ := bind_eq_ok h
      exact ih.andLoop (ih.not hleft).conjunction hloop

theorem exists_of_parse {tokens : List (Token α)} {node : Ast β} (h : parse read tokens = .ok node) :
    ∃ s : Source α .disjunction, s.tokens id = tokens ∧ IsTree read s node := by
  unfold parse at h
  obtain ⟨⟨tree,rest⟩,htree,hend⟩ := bind_eq_ok h
  cases rest with
  | cons token rest => cases hend
  | nil =>
    cases hend
    obtain ⟨s,htokens,hs⟩ := (parserSound _).or htree
    rw [List.append_nil] at htokens
    exact ⟨s,htokens,hs⟩

end Soundness

theorem mem_atoms_iff (s : Source α level) (a : α) : a ∈ s.atoms ↔ .atom a ∈ s.tokens id := by
  induction s with
  | atom b => simp [atoms,tokens]
  | group s ih => simp [atoms,tokens,ih]
  | not s ih => simp [atoms,tokens,ih]
  | factor s ih => exact ih
  | and s t ihs iht => simp [atoms,tokens,ihs,iht]
  | conjunction s ih => exact ih
  | or s t ihs iht => simp [atoms,tokens,ihs,iht]

theorem ast_eq_of_tokens {s t : Source α .disjunction} (h : s.tokens id = t.tokens id)
    (meaning : α → Ast β) : s.ast meaning = t.ast meaning := by
  have hread : ∀ u : Source α .disjunction,
      parse (fun a => (.ok (meaning a) : Except Unit (Ast β))) (u.tokens id) = .ok (u.ast meaning) :=
    fun u => parse_tokens u fun _ _ => rfl
  have hs := hread s
  rw [h,hread t] at hs
  injection hs with hs
  exact hs.symm

def print (text : α → List Char) {level : Level} : Source α level → List Char
  | .atom a => text a
  | .group s => '(' :: s.print text++[')']
  | .not s => "not ".toList++s.print text
  | .factor s => s.print text
  | .and s t => s.print text++" and ".toList++t.print text
  | .conjunction s => s.print text
  | .or s t => s.print text++" or ".toList++t.print text

/-- A change of letters that keeps the words of a filter changes the texts of its tests. -/
theorem map_print {change : Char → Char} (hparentheses : change '(' = '(' ∧ change ')' = ')')
    (hand : " and ".toList.map change = " and ".toList)
    (hor : " or ".toList.map change = " or ".toList)
    (hnot : "not ".toList.map change = "not ".toList) (text : α → List Char) (s : Source α level) :
    (s.print text).map change = s.print fun a => (text a).map change := by
  induction s with
  | atom a => rfl
  | group s ih =>
    simp only [print,List.cons_append,List.map_cons,List.map_append,List.map_nil,ih,hparentheses]
  | not s ih => simp only [print,List.map_append,ih,hnot]
  | factor s ih => exact ih
  | and s t ihs iht => simp only [print,List.map_append,ihs,iht,hand]
  | conjunction s ih => exact ih
  | or s t ihs iht => simp only [print,List.map_append,ihs,iht,hor]

end Source

/-- A test ends before a space, a closing parenthesis or the end of the text. -/
def Delimited (rest : List Char) : Prop := rest.head? = none ∨ rest.head? = some ' ' ∨ rest.head? = some ')'

/-- A way to read texts as tokens that knows the words of a filter. -/
structure Reading {α : Type} (Reads : List Char → List (Token α) → Prop) : Prop where
  opening : ∀ {rest tokens}, Reads rest tokens → Reads ('(' :: rest) (.opening :: tokens)
  closing : ∀ {rest tokens}, Reads rest tokens → Reads (')' :: rest) (.closing :: tokens)
  and : ∀ {rest tokens}, Reads rest tokens → Reads (" and ".toList++rest) (.and :: tokens)
  or : ∀ {rest tokens}, Reads rest tokens → Reads (" or ".toList++rest) (.or :: tokens)
  not : ∀ {rest tokens}, Reads rest tokens → Reads ("not ".toList++rest) (.not :: tokens)

theorem delimited_and (rest : List Char) : Delimited (" and ".toList++rest) := Or.inr (Or.inl rfl)

theorem delimited_or (rest : List Char) : Delimited (" or ".toList++rest) := Or.inr (Or.inl rfl)

/-- The text of a filter is read as its tokens when the texts of its tests are. -/
theorem Reading.print {α τ : Type} {Reads : List Char → List (Token τ) → Prop}
    (hreads : Reading Reads) {text : α → List Char} {token : α → τ} {level : Level} {s : Source α level}
    (hatom : ∀ a ∈ s.atoms, ∀ rest tokens, Delimited rest → Reads rest tokens →
      Reads (text a++rest) (.atom (token a) :: tokens))
    {rest : List Char} {tokens : List (Token τ)} (hrest : Delimited rest)
    (h : Reads rest tokens) : Reads (s.print text++rest) (s.tokens token++tokens) := by
  induction s generalizing rest tokens with
  | atom a => exact hatom a List.mem_cons_self rest tokens hrest h
  | group s ih =>
    have hinner := ih hatom (Or.inr (Or.inr rfl)) (hreads.closing h)
    have hgroup := hreads.opening hinner
    simpa [Source.print,Source.tokens] using hgroup
  | not s ih =>
    have hnot := hreads.not (ih hatom hrest h)
    rw [Source.print,List.append_assoc]
    exact hnot
  | factor s ih => exact ih hatom hrest h
  | and s t ihs iht =>
    have hright := iht (fun a ha => hatom a (List.mem_append_right _ ha)) hrest h
    have hleft := ihs (fun a ha => hatom a (List.mem_append_left _ ha)) (delimited_and _)
      (hreads.and hright)
    rw [Source.print,Source.tokens,List.append_assoc,List.append_assoc,List.append_assoc]
    exact hleft
  | conjunction s ih => exact ih hatom hrest h
  | or s t ihs iht =>
    have hright := iht (fun a ha => hatom a (List.mem_append_right _ ha)) hrest h
    have hleft := ihs (fun a ha => hatom a (List.mem_append_left _ ha)) (delimited_or _)
      (hreads.or hright)
    rw [Source.print,Source.tokens,List.append_assoc,List.append_assoc,List.append_assoc]
    exact hleft

end BoolFilter
