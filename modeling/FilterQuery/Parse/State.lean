import FilterQuery.Parse.Error
import FilterQuery.Policy
import FilterQuery.Predicate

/-!
# FilterQuery.Parse.State

Reading the tokens of a query one by one.  The grammar is

```
expression  := conjunction (OR conjunction)*
conjunction := operand (AND operand)*
operand     := '(' expression ')' | field operator value
```

and both chains group to the left.  Within each group that is open, at most one
`OR` and one `AND` wait for their right operands, so a stack of such levels and
what was read since the last connective is all there is to remember.

A connective is joined with its operands as soon as the right one is complete:
`AND` at the end of that operand, `OR` at the first token that does not prolong
the conjunction.
-/

namespace FilterQuery.Parse

/-! ## states -/

/-- A predicate that was read and its height. -/
structure Operand where
  tree : Predicate
  height : Nat
deriving DecidableEq

/-- The left operand of a connective, and where that connective stands. -/
structure Pending where
  operand : Operand
  position : Nat
deriving DecidableEq

/-- The connectives of one group that wait for their right operands. -/
structure Level where
  disjunction : Option Pending
  conjunction : Option Pending
deriving DecidableEq

/-- No connective waits. -/
def Level.empty : Level := ⟨none, none⟩

/-- What was read since the last connective or open parenthesis. -/
inductive Phase where
  /-- Nothing: an operand has to start. -/
  | operand
  /-- A field: its operator has to follow. -/
  | field (name : String)
  /-- A field and its operator: a value has to follow. -/
  | comparison (name : String) (relation : Relation)
  /-- A conjunction, which may go on or end. -/
  | connective (conjunction : Operand)
deriving DecidableEq

/-- The levels of the groups around, innermost first, the level of the
innermost group itself, and what was last read in it. -/
structure State where
  outer : List Level
  level : Level
  phase : Phase
deriving DecidableEq

namespace State

/-- Nothing has been read. -/
def start : State := ⟨[], .empty, .operand⟩

/-- The number of groups that are open. -/
def depth (s : State) : Nat := s.outer.length

/-! ## errors -/

/-- What may come next. -/
def expected (s : State) : List Expectation :=
  match s.phase with
  | .operand => [.expression]
  | .field _ => [.operator]
  | .comparison .. => [.value]
  | .connective _ => [.connective, if s.outer.isEmpty then .endOfInput else .closeGroup]

/-- The error that something else was found. -/
def unexpected (s : State) (found : Lookahead) : ParseError :=
  .unexpected ⟨found.position, s.expected, found⟩

end State

/-! ## joining operands -/

/-- Join a connective with its operands, unless the result is too high. -/
def join (policy : Policy) (connective : Connective) (left : Pending) (right : Operand) :
    Except ParseError Operand :=
  let height := max left.operand.height right.height + 1
  match Policy.exceeded? policy.maxHeight height with
  | some limit => .error (.tooHigh left.position limit)
  | none => .ok ⟨.logical connective left.operand.tree right.tree, height⟩

/-- Join the connective that waits for the operand, if one does. -/
def joinPending (policy : Policy) (connective : Connective) (left : Option Pending)
    (right : Operand) : Except ParseError Operand :=
  match left with
  | none => .ok right
  | some left => join policy connective left right

namespace State

/-- An operand of a conjunction is complete. -/
def complete (policy : Policy) (s : State) (operand : Operand) : Except ParseError State :=
  (joinPending policy .and s.level.conjunction operand).map fun conjunction =>
    ⟨s.outer, { s.level with conjunction := none }, .connective conjunction⟩

/-- A conjunction is complete, and with it the expression so far. -/
def expression (policy : Policy) (s : State) (conjunction : Operand) :
    Except ParseError Operand :=
  joinPending policy .or s.level.disjunction conjunction

/-! ## reading tokens -/

/-- The value of a literal.  Only what stands without quotes may denote
anything but its own text. -/
def value (quoted : Bool) (text : String) : Literal :=
  if quoted then .string text else .ofUnquoted text

/-- Read one token. -/
def next (policy : Policy) (s : State) (t : Token) : Except ParseError State :=
  match s.phase, t.kind with
  | .operand, .openGroup =>
    match Policy.exceeded? policy.maxDepth (s.depth + 1) with
    | some limit => .error (.tooDeep t.position limit)
    | none => .ok ⟨s.level :: s.outer, .empty, .operand⟩
  | .operand, .field => .ok { s with phase := .field t.text }
  | .field name, .operator op => .ok { s with phase := .comparison name op.relation }
  | .comparison name relation, .literal quoted =>
    if policy.allows name then
      s.complete policy ⟨.comparison name relation (value quoted t.text), 1⟩
    else .error (.fieldNotAllowed name)
  | .connective conjunction, .keyword .and =>
    .ok ⟨s.outer, { s.level with conjunction := some ⟨conjunction, t.position⟩ }, .operand⟩
  | .connective conjunction, kind =>
    match s.expression policy conjunction with
    | .error e => .error e
    | .ok expression =>
      match kind, s.outer with
      | .keyword .or, _ => .ok ⟨s.outer, ⟨some ⟨expression, t.position⟩, none⟩, .operand⟩
      | .closeGroup, level :: outer => complete policy ⟨outer, level, .operand⟩ expression
      | _, _ => .error (s.unexpected (.token t))
  | _, _ => .error (s.unexpected (.token t))

/-- Read tokens in order. -/
def run (policy : Policy) (s : State) (tokens : List Token) : Except ParseError State :=
  tokens.foldlM (fun s t => s.next policy t) s

@[simp] theorem run_nil (policy : Policy) (s : State) : s.run policy [] = .ok s := rfl

@[simp] theorem run_cons (policy : Policy) (s : State) (t : Token) (ts : List Token) :
    s.run policy (t :: ts) = (s.next policy t).bind fun s => s.run policy ts := rfl

/-- Tokens may be read in two parts. -/
theorem run_append (policy : Policy) (s : State) (ts us : List Token) :
    s.run policy (ts ++ us) = (s.run policy ts).bind fun s => s.run policy us := by
  simp only [run, List.foldlM_append]; rfl

/-- The query ends, at byte `position`. -/
def finish (policy : Policy) (s : State) (position : Nat) : Except ParseError Predicate :=
  match s.phase with
  | .connective conjunction =>
    match s.expression policy conjunction with
    | .error e => .error e
    | .ok expression =>
      if s.outer.isEmpty then .ok expression.tree
      else .error (s.unexpected (.endOfInput position))
  | _ => .error (s.unexpected (.endOfInput position))

end State

end FilterQuery.Parse
