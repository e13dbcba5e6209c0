import FakeNetNG.BoolFilter

/-!
# Boolean filters on a bounded stack

The parser and the walks over its trees when only so many calls may be open at once. Whether they get
through is read off the tokens and the height of the tree.
-/

namespace BoolFilter

variable {α β ε : Type}

/-- Either too many calls are open or the parser has found a fault. -/
inductive Halt (ε : Type)
  | overflow
  | fault (fault : ParseFault ε)
  deriving DecidableEq

section Parser

variable (read : α → Except ε (Ast β))

/-- The call that reads a test. -/
def readIn (frames : ℕ) (a : α) : Except (Halt ε) (Ast β) :=
  if frames = 0 then .error .overflow else (read a).mapError fun fault => .fault (.atom fault)

/-- The same call for a word that is no test. -/
def keywordIn {γ : Type} (frames : ℕ) : Except (Halt ε) γ :=
  .error (if frames = 0 then .overflow else .fault .keyword)

mutual

/-- A call takes one of the `frames` that are left. -/
def parseOrIn : ℕ → ℕ → List (Token α) → Except (Halt ε) (Ast β × List (Token α))
  | 0,_,_ => .error (.fault .outOfFuel)
  | _+1,0,_ => .error .overflow
  | fuel+1,frames+1,tokens => do
      let (node,rest) ← parseAndIn fuel frames tokens
      orLoopIn fuel frames node rest
termination_by structural fuel => fuel

def orLoopIn : ℕ → ℕ → Ast β → List (Token α) → Except (Halt ε) (Ast β × List (Token α))
  | 0,_,_,_ => .error (.fault .outOfFuel)
  | fuel+1,frames,node,.or :: rest => do
      let (right,rest) ← parseAndIn fuel frames rest
      orLoopIn fuel frames (.or node right) rest
  | _+1,_,node,rest => .ok (node,rest)
termination_by structural fuel => fuel

def parseAndIn : ℕ → ℕ → List (Token α) → Except (Halt ε) (Ast β × List (Token α))
  | 0,_,_ => .error (.fault .outOfFuel)
  | _+1,0,_ => .error .overflow
  | fuel+1,frames+1,tokens => do
      let (node,rest) ← parseNotIn fuel frames tokens
      andLoopIn fuel frames node rest
termination_by structural fuel => fuel

def andLoopIn : ℕ → ℕ → Ast β → List (Token α) → Except (Halt ε) (Ast β × List (Token α))
  | 0,_,_,_ => .error (.fault .outOfFuel)
  | fuel+1,frames,node,.and :: rest => do
      let (right,rest) ← parseNotIn fuel frames rest
      andLoopIn fuel frames (.and node right) rest
  | _+1,_,node,rest => .ok (node,rest)
termination_by structural fuel => fuel

def parseNotIn : ℕ → ℕ → List (Token α) → Except (Halt ε) (Ast β × List (Token α))
  | 0,_,_ => .error (.fault .outOfFuel)
  | _+1,0,_ => .error .overflow
  | fuel+1,frames+1,.not :: rest => do
      let (node,rest) ← parseNotIn fuel frames rest
      return (.not node,rest)
  | fuel+1,frames+1,tokens => parsePrimaryIn fuel frames tokens
termination_by structural fuel => fuel

def parsePrimaryIn : ℕ → ℕ → List (Token α) → Except (Halt ε) (Ast β × List (Token α))
  | 0,_,_ => .error (.fault .outOfFuel)
  | _+1,0,_ => .error .overflow
  | _+1,_+1,[] => .error (.fault .unexpectedEnd)
  | fuel+1,frames+1,.opening :: rest => do
      match ← parseOrIn fuel frames rest with
      | (node,.closing :: rest) => return (node,rest)
      | _ => throw (.fault .parenthesis)
  | _+1,_+1,.closing :: _ => .error (.fault .parenthesis)
  | _+1,frames+1,.atom a :: rest => do return (← readIn read frames a,rest)
  | _+1,frames+1,_ => keywordIn frames
termination_by structural fuel => fuel

end

def parseIn (frames : ℕ) (tokens : List (Token α)) : Except (Halt ε) (Ast β) := do
  match ← parseOrIn read (4*tokens.length+4) frames tokens with
  | (node,[]) => return node
  | _ => throw (.fault .trailingTokens)

variable (limit : ℕ)

mutual

/-- The calls that are open before an operand are `used`, and `base` before the operands that it stands
among; `outer` are those of the parentheses around. -/
@[grind] def operandFits (outer : List ℕ) (base used : ℕ) : List (Token α) → Bool
  | .not :: rest => decide (used ≤ limit) && operandFits outer base (used+1) rest
  | .opening :: rest => decide (used ≤ limit) && operandFits (base :: outer) (used+1) (used+4) rest
  | .atom a :: rest => decide (used+2 ≤ limit) &&
      match read a with
      | .ok _ => operatorFits outer base rest
      | .error _ => true
  | .and :: _ => decide (used+2 ≤ limit)
  | .or :: _ => decide (used+2 ≤ limit)
  | .closing :: _ => decide (used+1 ≤ limit)
  | [] => decide (used+1 ≤ limit)

def operatorFits (outer : List ℕ) (base : ℕ) : List (Token α) → Bool
  | .and :: rest => operandFits outer base (base+3) rest
  | .or :: rest => operandFits outer base (base+3) rest
  | .closing :: rest =>
      match outer with
      | [] => true
      | base :: outer => operatorFits outer base rest
  | _ => true

end

/-- The calls of the parser fit. -/
def fits (tokens : List (Token α)) : Bool := operandFits read limit [] 0 3 tokens

variable {read} {limit}

theorem used_le_of_operandFits {outer : List ℕ} {base used : ℕ} {tokens : List (Token α)}
    (h : limit < used) : operandFits read limit outer base used tokens = false := by
  have hused : ∀ extra, decide (used+extra ≤ limit) = false := fun extra => decide_eq_false (by omega)
  cases tokens with
  | nil => rw [operandFits,hused]
  | cons token rest =>
    cases token with
    | not => rw [operandFits,decide_eq_false (by omega),Bool.false_and]
    | opening => rw [operandFits,decide_eq_false (by omega),Bool.false_and]
    | atom a => rw [operandFits,hused,Bool.false_and]
    | and => rw [operandFits,hused]
    | or => rw [operandFits,hused]
    | closing => rw [operandFits,hused]

abbrev Result (α β : Type) := Ast β × List (Token α)

/-- What a part of the parser does on the stack: it stops, or does what it does without. -/
def Simulates (scan : Bool) (after : List (Token α) → Bool) (bounded : Except (Halt ε) (Result α β))
    (full : Except (ParseFault ε) (Result α β)) : Prop :=
  full = .error .outOfFuel ∨ ∃ enough : Bool,
    bounded = (if enough then full.mapError .fault else .error .overflow) ∧
      scan = (enough && (full.toOption.elim true fun result => after result.2))

theorem simulates_ok {scan : Bool} {after : List (Token α) → Bool} {node : Ast β} {rest : List (Token α)}
    (h : scan = after rest) : Simulates scan after (.ok (node,rest) : Except (Halt ε) (Result α β)) (.ok (node,rest)) :=
  .inr ⟨true,rfl,h⟩

theorem simulates_fault {scan : Bool} (after : List (Token α) → Bool) (fault : ParseFault ε) (h : scan = true) :
    Simulates scan after (.error (.fault fault) : Except (Halt ε) (Result α β)) (.error fault) :=
  .inr ⟨true,rfl,h⟩

theorem simulates_overflow {scan : Bool} (after : List (Token α) → Bool)
    (full : Except (ParseFault ε) (Result α β)) (h : scan = false) : Simulates scan after (.error .overflow) full :=
  .inr ⟨false,rfl,h⟩

theorem Simulates.bind {scan : Bool} {middle after : List (Token α) → Bool}
    {bounded : Except (Halt ε) (Result α β)} {full : Except (ParseFault ε) (Result α β)}
    {nextBounded : Result α β → Except (Halt ε) (Result α β)}
    {next : Result α β → Except (ParseFault ε) (Result α β)} (h : Simulates scan middle bounded full)
    (hnext : ∀ node rest, full = .ok (node,rest) →
      Simulates (middle rest) after (nextBounded (node,rest)) (next (node,rest))) :
    Simulates scan after (bounded >>= nextBounded) (full >>= next) := by
  obtain rfl | ⟨enough,rfl,rfl⟩ := h
  · exact .inl rfl
  cases full with
  | error fault =>
    refine .inr ⟨enough,?_,rfl⟩
    cases enough <;> rfl
  | ok result =>
    obtain ⟨node,rest⟩ := result
    obtain hfuel | ⟨further,hbounded,hscan⟩ := hnext node rest rfl
    · exact .inl hfuel
    · refine .inr ⟨enough && further,?_,?_⟩
      · cases enough with
        | false => rfl
        | true => exact hbounded
      · show (enough && middle rest) = _
        rw [hscan,Bool.and_assoc]
        rfl

theorem head_of_andLoop {fuel : ℕ} {node result : Ast β} {tokens rest : List (Token α)}
    (h : andLoop read fuel node tokens = .ok (result,rest)) : rest.head? ≠ some .and := by
  induction fuel generalizing node tokens with
  | zero => cases h
  | succ fuel ih =>
    by_cases hhead : tokens.head? = some .and
    · obtain ⟨after,rfl⟩ := List.head?_eq_some_iff.mp hhead
      rw [andLoop] at h
      obtain ⟨⟨right,next⟩,-,hloop⟩ := Source.bind_eq_ok h
      exact ih hloop
    · rw [andLoop_stop (by omega) hhead] at h
      cases h
      exact hhead

theorem head_of_parseAnd {fuel : ℕ} {node : Ast β} {tokens rest : List (Token α)}
    (h : parseAnd read fuel tokens = .ok (node,rest)) : rest.head? ≠ some .and := by
  cases fuel with
  | zero => cases h
  | succ fuel =>
    rw [parseAnd] at h
    obtain ⟨⟨left,next⟩,-,hloop⟩ := Source.bind_eq_ok h
    exact head_of_andLoop hloop

theorem head_of_orLoop {fuel : ℕ} {node result : Ast β} {tokens rest : List (Token α)}
    (hhead : tokens.head? ≠ some .and) (h : orLoop read fuel node tokens = .ok (result,rest)) :
    rest.head? ≠ some .and ∧ rest.head? ≠ some .or := by
  induction fuel generalizing node tokens with
  | zero => cases h
  | succ fuel ih =>
    by_cases hor : tokens.head? = some .or
    · obtain ⟨after,rfl⟩ := List.head?_eq_some_iff.mp hor
      rw [orLoop] at h
      obtain ⟨⟨right,next⟩,hright,hloop⟩ := Source.bind_eq_ok h
      exact ih (head_of_parseAnd hright) hloop
    · rw [orLoop_stop (by omega) hor] at h
      cases h
      exact ⟨hhead,hor⟩

theorem head_of_parseOr {fuel : ℕ} {node : Ast β} {tokens rest : List (Token α)}
    (h : parseOr read fuel tokens = .ok (node,rest)) : rest.head? ≠ some .and ∧ rest.head? ≠ some .or := by
  cases fuel with
  | zero => cases h
  | succ fuel =>
    rw [parseOr] at h
    obtain ⟨⟨left,next⟩,hleft,hloop⟩ := Source.bind_eq_ok h
    exact head_of_orLoop (head_of_parseAnd hleft) hloop

/-- `base` or `used` calls are open when a part is called. -/
structure PartsFit (read : α → Except ε (Ast β)) (limit fuel : ℕ) : Prop where
  or : ∀ outer base tokens, Simulates (operandFits read limit outer base (base+3) tokens)
    (operatorFits read limit outer base) (parseOrIn read fuel (limit-base) tokens) (parseOr read fuel tokens)
  orLoop : ∀ outer base node tokens, Simulates (operatorFits read limit outer base tokens)
    (operatorFits read limit outer base) (orLoopIn read fuel (limit-(base+1)) node tokens)
    (orLoop read fuel node tokens)
  and : ∀ outer base tokens, Simulates (operandFits read limit outer base (base+3) tokens)
    (operatorFits read limit outer base) (parseAndIn read fuel (limit-(base+1)) tokens) (parseAnd read fuel tokens)
  andLoop : ∀ outer base node tokens, Simulates (operatorFits read limit outer base tokens)
    (operatorFits read limit outer base) (andLoopIn read fuel (limit-(base+2)) node tokens)
    (andLoop read fuel node tokens)
  not : ∀ outer base used tokens, Simulates (operandFits read limit outer base (used+1) tokens)
    (operatorFits read limit outer base) (parseNotIn read fuel (limit-used) tokens) (parseNot read fuel tokens)
  primary : ∀ outer base used tokens, tokens.head? ≠ some .not →
    Simulates (operandFits read limit outer base used tokens) (operatorFits read limit outer base)
      (parsePrimaryIn read fuel (limit-used) tokens) (parsePrimary read fuel tokens)

theorem frames_cases (limit used : ℕ) : limit ≤ used ∨ limit-used = limit-(used+1)+1 := by omega

theorem PartsFit.or_succ {fuel : ℕ} (ih : PartsFit read limit fuel) (outer : List ℕ) (base : ℕ)
    (tokens : List (Token α)) : Simulates (operandFits read limit outer base (base+3) tokens)
      (operatorFits read limit outer base) (parseOrIn read (fuel+1) (limit-base) tokens)
      (parseOr read (fuel+1) tokens) := by
  obtain hle | hframes := frames_cases limit base
  · rw [Nat.sub_eq_zero_of_le hle,parseOrIn]
    exact simulates_overflow _ _ (used_le_of_operandFits (by omega))
  · rw [hframes,parseOrIn,parseOr]
    exact (ih.and outer base tokens).bind fun node rest _ => ih.orLoop outer base node rest

theorem PartsFit.orLoop_succ {fuel : ℕ} (ih : PartsFit read limit fuel) (outer : List ℕ) (base : ℕ) (node : Ast β)
    (tokens : List (Token α)) : Simulates (operatorFits read limit outer base tokens)
      (operatorFits read limit outer base) (orLoopIn read (fuel+1) (limit-(base+1)) node tokens)
      (BoolFilter.orLoop read (fuel+1) node tokens) := by
  by_cases hhead : tokens.head? = some .or
  · obtain ⟨rest,rfl⟩ := List.head?_eq_some_iff.mp hhead
    rw [orLoopIn,BoolFilter.orLoop,operatorFits]
    exact (ih.and outer base rest).bind fun right after _ => ih.orLoop outer base _ after
  · rw [orLoop_stop (by omega) hhead,show orLoopIn read (fuel+1) (limit-(base+1)) node tokens = .ok (node,tokens) from ?_]
    · exact simulates_ok rfl
    · cases tokens with
      | nil => rfl
      | cons token rest =>
        cases token with
        | or => exact absurd rfl hhead
        | _ => rfl

theorem PartsFit.and_succ {fuel : ℕ} (ih : PartsFit read limit fuel) (outer : List ℕ) (base : ℕ)
    (tokens : List (Token α)) : Simulates (operandFits read limit outer base (base+3) tokens)
      (operatorFits read limit outer base) (parseAndIn read (fuel+1) (limit-(base+1)) tokens)
      (parseAnd read (fuel+1) tokens) := by
  obtain hle | hframes := frames_cases limit (base+1)
  · rw [Nat.sub_eq_zero_of_le hle,parseAndIn]
    exact simulates_overflow _ _ (used_le_of_operandFits (by omega))
  · rw [hframes,parseAndIn,parseAnd]
    exact (ih.not outer base (base+2) tokens).bind fun node rest _ => ih.andLoop outer base node rest

theorem PartsFit.andLoop_succ {fuel : ℕ} (ih : PartsFit read limit fuel) (outer : List ℕ) (base : ℕ) (node : Ast β)
    (tokens : List (Token α)) : Simulates (operatorFits read limit outer base tokens)
      (operatorFits read limit outer base) (andLoopIn read (fuel+1) (limit-(base+2)) node tokens)
      (BoolFilter.andLoop read (fuel+1) node tokens) := by
  by_cases hhead : tokens.head? = some .and
  · obtain ⟨rest,rfl⟩ := List.head?_eq_some_iff.mp hhead
    rw [andLoopIn,BoolFilter.andLoop,operatorFits]
    exact (ih.not outer base (base+2) rest).bind fun right after _ => ih.andLoop outer base _ after
  · rw [andLoop_stop (by omega) hhead,
      show andLoopIn read (fuel+1) (limit-(base+2)) node tokens = .ok (node,tokens) from ?_]
    · exact simulates_ok rfl
    · cases tokens with
      | nil => rfl
      | cons token rest =>
        cases token with
        | and => exact absurd rfl hhead
        | _ => rfl

theorem PartsFit.not_succ {fuel : ℕ} (ih : PartsFit read limit fuel) (outer : List ℕ) (base used : ℕ)
    (tokens : List (Token α)) : Simulates (operandFits read limit outer base (used+1) tokens)
      (operatorFits read limit outer base) (parseNotIn read (fuel+1) (limit-used) tokens)
      (parseNot read (fuel+1) tokens) := by
  obtain hle | hframes := frames_cases limit used
  · rw [Nat.sub_eq_zero_of_le hle,parseNotIn]
    exact simulates_overflow _ _ (used_le_of_operandFits (by omega))
  · rw [hframes]
    by_cases hhead : tokens.head? = some .not
    · obtain ⟨rest,rfl⟩ := List.head?_eq_some_iff.mp hhead
      rw [parseNotIn,parseNot,operandFits,decide_eq_true (by omega),Bool.true_and]
      exact (ih.not outer base (used+1) rest).bind fun node after _ => simulates_ok rfl
    · rw [parseNot_of_head hhead,
        show parseNotIn read (fuel+1) (limit-(used+1)+1) tokens = parsePrimaryIn read fuel (limit-(used+1)) tokens from ?_]
      · exact ih.primary outer base (used+1) tokens hhead
      · cases tokens with
        | nil => rfl
        | cons token rest =>
          cases token with
          | not => exact absurd rfl hhead
          | _ => rfl

theorem simulates_keyword {used : ℕ} {after : List (Token α) → Bool} (h : used+1 ≤ limit) :
    Simulates (decide (used+2 ≤ limit)) after (keywordIn (limit-(used+1)) : Except (Halt ε) (Result α β))
      (.error .keyword) := by
  rw [keywordIn]
  by_cases hlt : used+2 ≤ limit
  · rw [if_neg (by omega),decide_eq_true hlt]
    exact simulates_fault _ _ rfl
  · rw [if_pos (by omega),decide_eq_false hlt]
    exact simulates_overflow _ _ rfl

theorem simulates_atom {a : α} (outer : List ℕ) (base : ℕ) {used : ℕ} (h : used+1 ≤ limit) (rest : List (Token α)) :
    Simulates (operandFits read limit outer base used (.atom a :: rest)) (operatorFits read limit outer base)
      (do return (← readIn read (limit-(used+1)) a,rest))
      (match read a with
        | .ok node => .ok (node,rest)
        | .error fault => .error (.atom fault)) := by
  rw [readIn,operandFits]
  by_cases hlt : used+2 ≤ limit
  · rw [if_neg (by omega),decide_eq_true hlt,Bool.true_and]
    cases read a with
    | ok node => exact simulates_ok rfl
    | error fault => exact simulates_fault _ _ rfl
  · rw [if_pos (by omega),decide_eq_false hlt,Bool.false_and]
    exact simulates_overflow _ _ rfl

theorem PartsFit.primary_succ {fuel : ℕ} (ih : PartsFit read limit fuel) (outer : List ℕ) (base used : ℕ)
    (tokens : List (Token α)) (hhead : tokens.head? ≠ some .not) :
    Simulates (operandFits read limit outer base used tokens) (operatorFits read limit outer base)
      (parsePrimaryIn read (fuel+1) (limit-used) tokens) (parsePrimary read (fuel+1) tokens) := by
  obtain hle | hframes := frames_cases limit used
  · rw [Nat.sub_eq_zero_of_le hle,parsePrimaryIn]
    refine simulates_overflow _ _ ?_
    cases tokens with
    | nil => exact decide_eq_false (by omega)
    | cons token rest =>
      cases token with
      | not => exact absurd rfl hhead
      | opening => rw [operandFits,used_le_of_operandFits (by omega),Bool.and_false]
      | atom a => rw [operandFits,decide_eq_false (by omega),Bool.false_and]
      | _ => exact decide_eq_false (by omega)
  · have hlt : used+1 ≤ limit := by omega
    rw [hframes]
    cases tokens with
    | nil => exact simulates_fault _ _ (decide_eq_true hlt)
    | cons token rest =>
      cases token with
      | not => exact absurd rfl hhead
      | closing => exact simulates_fault _ _ (decide_eq_true hlt)
      | and => exact simulates_keyword hlt
      | or => exact simulates_keyword hlt
      | atom a => exact simulates_atom outer base hlt rest
      | opening =>
        rw [parsePrimaryIn,parsePrimary,operandFits,decide_eq_true (by omega),Bool.true_and]
        refine (ih.or (base :: outer) (used+1) rest).bind fun node after hafter => ?_
        obtain ⟨hand,hor⟩ := head_of_parseOr hafter
        cases after with
        | nil => exact simulates_fault _ _ rfl
        | cons token after =>
          cases token with
          | closing => exact simulates_ok rfl
          | and => exact absurd rfl hand
          | or => exact absurd rfl hor
          | _ => exact simulates_fault _ _ rfl

theorem partsFit (read : α → Except ε (Ast β)) (limit fuel : ℕ) : PartsFit read limit fuel := by
  induction fuel with
  | zero => exact ⟨fun _ _ _ => .inl rfl,fun _ _ _ _ => .inl rfl,fun _ _ _ => .inl rfl,fun _ _ _ _ => .inl rfl,
      fun _ _ _ _ => .inl rfl,fun _ _ _ _ _ => .inl rfl⟩
  | succ fuel ih => exact ⟨ih.or_succ,ih.orLoop_succ,ih.and_succ,ih.andLoop_succ,ih.not_succ,ih.primary_succ⟩

theorem parseIn_eq (read : α → Except ε (Ast β)) (limit : ℕ) (tokens : List (Token α)) :
    parseIn read limit tokens =
      if fits read limit tokens then (parse read tokens).mapError .fault else .error .overflow := by
  have hfuel : Settles (tokens.length-1) (parseOr read (4*tokens.length+4) tokens) := (enoughFuel _).or tokens le_rfl
  obtain hout | ⟨enough,hbounded,hscan⟩ := (partsFit read limit (4*tokens.length+4)).or [] 0 tokens
  · rw [hout] at hfuel
    exact absurd rfl hfuel
  · rw [Nat.sub_zero] at hbounded
    rw [parseIn,parse,hbounded,fits,hscan]
    cases hparse : parseOr read (4*tokens.length+4) tokens with
    | error fault => cases enough <;> rfl
    | ok result =>
      obtain ⟨node,rest⟩ := result
      obtain ⟨hand,hor⟩ := head_of_parseOr hparse
      have hrest : operatorFits read limit [] 0 rest = true := by
        cases rest with
        | nil => rfl
        | cons token rest =>
          cases token with
          | and => exact absurd rfl hand
          | or => exact absurd rfl hor
          | _ => rfl
      have hafter : ((Except.ok (node,rest) : Except (ParseFault ε) (Result α β)).toOption.elim true
          fun result => operatorFits read limit [] 0 result.2) = true := hrest
      rw [hafter,Bool.and_true]
      cases enough with
      | false => rfl
      | true => cases rest <;> rfl

end Parser

namespace Ast

/-- The calls that a walk over a tree has open at once. -/
@[grind] def height : Ast β → ℕ
  | .const _ => 1
  | .var _ => 1
  | .not node => node.height+1
  | .and left right => max left.height right.height+1
  | .or left right => max left.height right.height+1

/-- The variables, unless too many calls are open. -/
def variablesIn : ℕ → Ast β → Option (List β)
  | 0,_ => none
  | _+1,.const _ => some []
  | _+1,.var x => some [x]
  | frames+1,.not node => node.variablesIn frames
  | frames+1,.and left right => do
      let front ← left.variablesIn frames
      let back ← right.variablesIn frames
      return front++back
  | frames+1,.or left right => do
      let front ← left.variablesIn frames
      let back ← right.variablesIn frames
      return front++back

/-- The value, where the right side is left out when the left one decides. -/
@[grind] def evalIn (assignment : β → Bool) : ℕ → Ast β → Option Bool
  | 0,_ => none
  | _+1,.const value => some value
  | _+1,.var x => some (assignment x)
  | frames+1,.not node => (node.evalIn assignment frames).map (!·)
  | frames+1,.and left right => do
      if ← left.evalIn assignment frames then right.evalIn assignment frames else return false
  | frames+1,.or left right => do
      if ← left.evalIn assignment frames then return true else right.evalIn assignment frames

theorem variablesIn_join (frames : ℕ) {left right : Ast β}
    (hleft : left.variablesIn frames = if left.height ≤ frames then some left.variables else none)
    (hright : right.variablesIn frames = if right.height ≤ frames then some right.variables else none) :
    (do
      let front ← left.variablesIn frames
      let back ← right.variablesIn frames
      return front++back) =
      if max left.height right.height+1 ≤ frames+1 then some (left.variables++right.variables) else none := by
  rw [hleft,hright]
  by_cases h : left.height ≤ frames
  · by_cases h' : right.height ≤ frames
    · rw [if_pos h,if_pos h',if_pos (by omega)]
      rfl
    · rw [if_pos h,if_neg h',if_neg (by omega)]
      rfl
  · have hmax : ¬max left.height right.height+1 ≤ frames+1 := by omega
    rw [if_neg h,if_neg hmax]
    rfl

theorem variablesIn_eq (frames : ℕ) (node : Ast β) :
    node.variablesIn frames = if node.height ≤ frames then some node.variables else none := by
  induction node generalizing frames with
  | const value => cases frames <;> rfl
  | var x => cases frames <;> rfl
  | not node ih =>
    cases frames with
    | zero => rfl
    | succ frames =>
      rw [variablesIn,ih,height]
      simp only [Nat.add_le_add_iff_right]
      rfl
  | and left right ihl ihr =>
    cases frames with
    | zero => rfl
    | succ frames => exact variablesIn_join frames (ihl frames) (ihr frames)
  | or left right ihl ihr =>
    cases frames with
    | zero => rfl
    | succ frames => exact variablesIn_join frames (ihl frames) (ihr frames)

theorem evalIn_eq (assignment : β → Bool) {frames : ℕ} {node : Ast β} (h : node.height ≤ frames) :
    node.evalIn assignment frames = some (node.eval assignment) := by
  induction node generalizing frames with
  | const value =>
    cases frames with
    | zero => exact absurd h (Nat.not_succ_le_zero 0)
    | succ frames => rfl
  | var x =>
    cases frames with
    | zero => exact absurd h (Nat.not_succ_le_zero 0)
    | succ frames => rfl
  | not node ih =>
    cases frames with
    | zero => exact absurd h (Nat.not_succ_le_zero _)
    | succ frames =>
      rw [height] at h
      rw [evalIn,ih (by omega)]
      rfl
  | and left right ihl ihr =>
    cases frames with
    | zero => exact absurd h (Nat.not_succ_le_zero _)
    | succ frames =>
      rw [height] at h
      rw [evalIn,ihl (by omega),ihr (by omega),eval]
      cases left.eval assignment <;> rfl
  | or left right ihl ihr =>
    cases frames with
    | zero => exact absurd h (Nat.not_succ_le_zero _)
    | succ frames =>
      rw [height] at h
      rw [evalIn,ihl (by omega),ihr (by omega),eval]
      cases left.eval assignment <;> rfl

end Ast

end BoolFilter
