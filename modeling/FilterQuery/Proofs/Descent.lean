import FilterQuery.Proofs.Grammar

/-!
# FilterQuery.Proofs.Descent

The reader of `FilterQuery.Parse.State` once more, by recursive descent: a call for each
phrase of the grammar, and a loop for the rest of a chain.  All calls share where they
stand in the tokens and how many groups are open, and leave a trail of it.

* `call`, `query` — the calls, as deep inside one another as they are allowed to be;
* `Settles` — how a call ends: there is a depth that suffices;
* `Returns` — how a call returns, one rule for each way through it;
* `Returns.settles` — what these rules say is what the call computes.
-/

namespace FilterQuery

/-- The token at an index; what is not before the end is the end. -/
def TokenStream.lookahead (stream : TokenStream) (i : Nat) : Lookahead :=
  match stream.tokens[i]? with
  | some t => .token t
  | none => .endOfInput stream.size

/-- The kind of a token; the end of the input has none. -/
def Lookahead.kind? : Lookahead → Option Token.Kind
  | .token t => some t.kind
  | .endOfInput _ => none

@[simp] theorem Lookahead.kind?_token (t : Token) : (token t).kind? = some t.kind := rfl

@[simp] theorem Lookahead.kind?_endOfInput (position : Nat) :
    (endOfInput position).kind? = none := rfl

namespace Parse

/-! ## where calls stand -/

/-- The index of the next token, how many groups are open, and how many calls for a
group, one inside the other, have found that it may be opened. -/
structure Moment where
  next : Nat
  depth : Nat
  calls : Nat
deriving DecidableEq

/-- Where the calls stand and where they stood before, last first. -/
structure Trail where
  now : Moment
  past : List Moment
deriving DecidableEq

namespace Trail

/-- Where a first call is made: no other call is under way. -/
def start (next depth : Nat) : Trail := ⟨⟨next, depth, 0⟩, []⟩

/-- All that the calls went through. -/
def moments (trail : Trail) : List Moment := trail.now :: trail.past

/-- Go on. -/
def move (step : Moment → Moment) (trail : Trail) : Trail := ⟨step trail.now, trail.moments⟩

/-- Go past the next token. -/
def advance : Trail → Trail := move fun m => { m with next := m.next + 1 }

/-- Count one more open group. -/
def enter : Trail → Trail := move fun m => { m with depth := m.depth + 1, calls := m.calls + 1 }

/-- Count one open group less. -/
def leave : Trail → Trail := move fun m => { m with depth := m.depth - 1 }

/-- Come back from the call for a group. -/
def exit : Trail → Trail := move fun m => { m with calls := m.calls - 1 }

@[simp] theorem now_advance (t : Trail) :
    t.advance.now = ⟨t.now.next + 1, t.now.depth, t.now.calls⟩ := rfl

@[simp] theorem now_enter (t : Trail) :
    t.enter.now = ⟨t.now.next, t.now.depth + 1, t.now.calls + 1⟩ := rfl

@[simp] theorem now_leave (t : Trail) :
    t.leave.now = ⟨t.now.next, t.now.depth - 1, t.now.calls⟩ := rfl

@[simp] theorem now_exit (t : Trail) :
    t.exit.now = ⟨t.now.next, t.now.depth, t.now.calls - 1⟩ := rfl

end Trail

/-! ## calls -/

/-- A call leaves a trail and may fail; `none` is no result. -/
abbrev Descent := ExceptT ParseError (StateT Trail Option)

/-- The next token, which stays. -/
def peek (stream : TokenStream) : Descent Lookahead :=
  return stream.lookahead (← get).now.next

namespace Descent

variable {α β : Type}

/-- Give up. -/
def stuck : Descent α := ExceptT.mk fun _ => none

/-- What is computed behind a trail, and the trail that is left. -/
def after (x : Descent α) (trail : Trail) : Option (Except ParseError α × Trail) :=
  x.run.run trail

@[simp] theorem after_pure (a : α) (t : Trail) : (pure a : Descent α).after t = some (.ok a, t) :=
  rfl

@[simp] theorem after_throw (e : ParseError) (t : Trail) :
    (throw e : Descent α).after t = some (.error e, t) :=
  rfl

@[simp] theorem after_get (t : Trail) : (get : Descent Trail).after t = some (.ok t, t) := rfl

@[simp] theorem after_modify (step : Trail → Trail) (t : Trail) :
    (modify step : Descent Unit).after t = some (.ok (), step t) :=
  rfl

@[simp] theorem after_peek (stream : TokenStream) (t : Trail) :
    (peek stream).after t = some (.ok (stream.lookahead t.now.next), t) :=
  rfl

/-- What follows goes on behind the trail, unless there is an error. -/
@[simp] theorem after_bind (x : Descent α) (f : α → Descent β) (t : Trail) :
    (x >>= f).after t =
      match x.after t with
      | some (.ok a, t') => (f a).after t'
      | some (.error e, t') => some (.error e, t')
      | none => none := by
  simp only [after, ExceptT.run_bind, StateT.run_bind]
  cases x.run.run t with
  | none => rfl
  | some out =>
    obtain ⟨_ | _, t'⟩ := out <;> rfl

/-- What is made of a result leaves the trail as it is. -/
@[simp] theorem after_map (f : α → β) (x : Descent α) (t : Trail) :
    (f <$> x).after t = (x.after t).map fun out => (out.1.map f, out.2) := by
  rw [map_eq_pure_bind, after_bind]
  cases x.after t with
  | none => rfl
  | some out =>
    obtain ⟨_ | _, t'⟩ := out <;> rfl

end Descent

/-- Something else was found than what is expected. -/
def unexpected (expected : List Expectation) (found : Lookahead) : ParseError :=
  .unexpected ⟨found.position, expected, found⟩

/-- What is called: a phrase of the grammar, the rest of a chain behind `left`, or one of
the two operands once its first token is known. -/
inductive Routine where
  | phrase (loosest : Option Connective)
  | rest (k : Connective) (left : Operand)
  | group
  | comparison

/-- Carry out a call, with at most so many calls inside one another.  A group is refused
before anything in it is read, and a field is not looked up before its value is read. -/
def call (policy : Policy) (stream : TokenStream) : Nat → Routine → Descent Operand
  | 0, _ => .stuck
  | nesting + 1, .phrase (some k) => do
    let left ← call policy stream nesting (.phrase k.tighter)
    call policy stream nesting (.rest k left)
  | nesting + 1, .rest k left => do
    let keyword ← peek stream
    if keyword.kind? = some (.keyword k) then
      modify Trail.advance
      let right ← call policy stream nesting (.phrase k.tighter)
      match join policy k ⟨left, keyword.position⟩ right with
      | .error e => throw e
      | .ok joined => call policy stream nesting (.rest k joined)
    else return left
  | nesting + 1, .phrase none => do
    let first ← peek stream
    match first.kind? with
    | some .openGroup => call policy stream nesting .group
    | some .field => call policy stream nesting .comparison
    | _ => throw (unexpected [.expression] first)
  | nesting + 1, .group => do
    let opening ← peek stream
    modify Trail.advance
    match Policy.exceeded? policy.maxDepth ((← get).now.depth + 1) with
    | some limit => throw (.tooDeep opening.position limit)
    | none =>
      modify Trail.enter
      let inner ← call policy stream nesting (.phrase (some .or))
      modify Trail.leave
      let closing ← peek stream
      if closing.kind? = some .closeGroup then
        modify Trail.advance
        modify Trail.exit
        return inner
      else throw (unexpected [.connective, .closeGroup] closing)
  | _ + 1, .comparison => do
    let field ← peek stream
    modify Trail.advance
    let operator ← peek stream
    match operator.kind? with
    | some (.operator op) =>
      modify Trail.advance
      let value ← peek stream
      match value.kind? with
      | some (.literal quoted) =>
        modify Trail.advance
        if policy.allows field.text then
          return ⟨.comparison field.text op.relation (State.value quoted value.text), 1⟩
        else throw (.fieldNotAllowed field.text)
      | _ => throw (unexpected [.value] value)
    | _ => throw (unexpected [.operator] operator)

/-- Read a query: an expression, and nothing behind it. -/
def query (policy : Policy) (stream : TokenStream) (nesting : Nat) : Descent Predicate := do
  let expression ← call policy stream nesting (.phrase (some .or))
  match ← peek stream with
  | .endOfInput _ => return expression.tree
  | found => throw (unexpected [.connective, .endOfInput] found)

variable {policy : Policy} {stream : TokenStream} {routine : Routine} {t t' : Trail}
  {r : Except ParseError Operand}

/-- The call ends with the result `r` and the trail `t'`: that is what it computes wherever
calls may be nested deep enough. -/
def Settles (policy : Policy) (stream : TokenStream) (routine : Routine) (t : Trail)
    (r : Except ParseError Operand) (t' : Trail) : Prop :=
  ∃ enough, ∀ nesting ≥ enough, (call policy stream nesting routine).after t = some (r, t')

/-- It is enough to look at the calls that a call makes. -/
theorem Settles.of_succ (enough : Nat)
    (h : ∀ nesting ≥ enough, (call policy stream (nesting + 1) routine).after t = some (r, t')) :
    Settles policy stream routine t r t' := by
  refine ⟨enough + 1, fun nesting hnesting => ?_⟩
  obtain ⟨n, rfl⟩ := Nat.exists_eq_add_of_le' (Nat.le_of_add_left_le hnesting)
  exact h n (Nat.le_of_succ_le_succ hnesting)

/-- A call ends in one way only. -/
theorem Settles.unique {r' : Except ParseError Operand} {t'' : Trail}
    (h : Settles policy stream routine t r t') (h' : Settles policy stream routine t r' t'') :
    r = r' ∧ t' = t'' := by
  obtain ⟨m, hm⟩ := h
  obtain ⟨n, hn⟩ := h'
  have hsame := (hm _ (Nat.le_max_left m n)).symm.trans (hn _ (Nat.le_max_right m n))
  exact Prod.mk.inj (Option.some.inj hsame)

/-! ## how calls return -/

/-- The ways through a call: from where, with what result, and to where. -/
inductive Returns (policy : Policy) (stream : TokenStream) :
    Routine → Trail → Except ParseError Operand → Trail → Prop
  | chain {k : Connective} {left : Operand} {r : Except ParseError Operand} {t t₁ t₂ : Trail}
      (hlink : Returns policy stream (.phrase k.tighter) t (.ok left) t₁)
      (hrest : Returns policy stream (.rest k left) t₁ r t₂) :
      Returns policy stream (.phrase (some k)) t r t₂
  | chainError {k : Connective} {e : ParseError} {t t₁ : Trail}
      (hlink : Returns policy stream (.phrase k.tighter) t (.error e) t₁) :
      Returns policy stream (.phrase (some k)) t (.error e) t₁
  | last {k : Connective} {left : Operand} {t : Trail}
      (hnext : (stream.lookahead t.now.next).kind? ≠ some (.keyword k)) :
      Returns policy stream (.rest k left) t (.ok left) t
  | more {k : Connective} {left right joined : Operand} {keyword : Token}
      {r : Except ParseError Operand} {t t₁ t₂ : Trail}
      (hnext : stream.lookahead t.now.next = .token keyword)
      (hkeyword : keyword.kind = .keyword k)
      (hlink : Returns policy stream (.phrase k.tighter) t.advance (.ok right) t₁)
      (hjoin : join policy k ⟨left, keyword.position⟩ right = .ok joined)
      (hrest : Returns policy stream (.rest k joined) t₁ r t₂) :
      Returns policy stream (.rest k left) t r t₂
  | moreError {k : Connective} {left : Operand} {keyword : Token} {e : ParseError} {t t₁ : Trail}
      (hnext : stream.lookahead t.now.next = .token keyword)
      (hkeyword : keyword.kind = .keyword k)
      (hlink : Returns policy stream (.phrase k.tighter) t.advance (.error e) t₁) :
      Returns policy stream (.rest k left) t (.error e) t₁
  | tooHigh {k : Connective} {left right : Operand} {keyword : Token} {e : ParseError}
      {t t₁ : Trail} (hnext : stream.lookahead t.now.next = .token keyword)
      (hkeyword : keyword.kind = .keyword k)
      (hlink : Returns policy stream (.phrase k.tighter) t.advance (.ok right) t₁)
      (hjoin : join policy k ⟨left, keyword.position⟩ right = .error e) :
      Returns policy stream (.rest k left) t (.error e) t₁
  | group {opening : Token} {r : Except ParseError Operand} {t t₁ : Trail}
      (hnext : stream.lookahead t.now.next = .token opening)
      (hopening : opening.kind = .openGroup) (hgroup : Returns policy stream .group t r t₁) :
      Returns policy stream (.phrase none) t r t₁
  | comparison {field : Token} {r : Except ParseError Operand} {t t₁ : Trail}
      (hnext : stream.lookahead t.now.next = .token field) (hfield : field.kind = .field)
      (hcomparison : Returns policy stream .comparison t r t₁) :
      Returns policy stream (.phrase none) t r t₁
  | noOperand {t : Trail}
      (hgroup : (stream.lookahead t.now.next).kind? ≠ some .openGroup)
      (hfield : (stream.lookahead t.now.next).kind? ≠ some .field) :
      Returns policy stream (.phrase none) t
        (.error (unexpected [.expression] (stream.lookahead t.now.next))) t
  | tooDeep {opening : Token} {limit : Nat} {t : Trail}
      (hnext : stream.lookahead t.now.next = .token opening)
      (hopening : opening.kind = .openGroup)
      (hdepth : Policy.exceeded? policy.maxDepth (t.now.depth + 1) = some limit) :
      Returns policy stream .group t (.error (.tooDeep opening.position limit)) t.advance
  | groupError {opening : Token} {e : ParseError} {t t₁ : Trail}
      (hnext : stream.lookahead t.now.next = .token opening)
      (hopening : opening.kind = .openGroup)
      (hdepth : Policy.exceeded? policy.maxDepth (t.now.depth + 1) = none)
      (hinner : Returns policy stream (.phrase (some .or)) t.advance.enter (.error e) t₁) :
      Returns policy stream .group t (.error e) t₁
  | unclosed {opening : Token} {inner : Operand} {t t₁ : Trail}
      (hnext : stream.lookahead t.now.next = .token opening)
      (hopening : opening.kind = .openGroup)
      (hdepth : Policy.exceeded? policy.maxDepth (t.now.depth + 1) = none)
      (hinner : Returns policy stream (.phrase (some .or)) t.advance.enter (.ok inner) t₁)
      (hclosing : (stream.lookahead t₁.now.next).kind? ≠ some .closeGroup) :
      Returns policy stream .group t
        (.error (unexpected [.connective, .closeGroup] (stream.lookahead t₁.now.next))) t₁.leave
  | closed {opening closing : Token} {inner : Operand} {t t₁ : Trail}
      (hnext : stream.lookahead t.now.next = .token opening)
      (hopening : opening.kind = .openGroup)
      (hdepth : Policy.exceeded? policy.maxDepth (t.now.depth + 1) = none)
      (hinner : Returns policy stream (.phrase (some .or)) t.advance.enter (.ok inner) t₁)
      (hnext' : stream.lookahead t₁.now.next = .token closing)
      (hclosing : closing.kind = .closeGroup) :
      Returns policy stream .group t (.ok inner) t₁.leave.advance.exit
  | noOperator {field : Token} {t : Trail} (hnext : stream.lookahead t.now.next = .token field)
      (hfield : field.kind = .field)
      (hoperator : ∀ op, (stream.lookahead (t.now.next + 1)).kind? ≠ some (.operator op)) :
      Returns policy stream .comparison t
        (.error (unexpected [.operator] (stream.lookahead (t.now.next + 1)))) t.advance
  | noValue {field operator : Token} {op : Operator} {t : Trail}
      (hnext : stream.lookahead t.now.next = .token field) (hfield : field.kind = .field)
      (hnext₁ : stream.lookahead (t.now.next + 1) = .token operator)
      (hoperator : operator.kind = .operator op)
      (hvalue : ∀ quoted, (stream.lookahead (t.now.next + 2)).kind? ≠ some (.literal quoted)) :
      Returns policy stream .comparison t
        (.error (unexpected [.value] (stream.lookahead (t.now.next + 2)))) t.advance.advance
  | notAllowed {field operator value : Token} {op : Operator} {quoted : Bool} {t : Trail}
      (hnext : stream.lookahead t.now.next = .token field) (hfield : field.kind = .field)
      (hnext₁ : stream.lookahead (t.now.next + 1) = .token operator)
      (hoperator : operator.kind = .operator op)
      (hnext₂ : stream.lookahead (t.now.next + 2) = .token value)
      (hvalue : value.kind = .literal quoted) (hname : policy.allows field.text = false) :
      Returns policy stream .comparison t (.error (.fieldNotAllowed field.text))
        t.advance.advance.advance
  | value {field operator value : Token} {op : Operator} {quoted : Bool} {t : Trail}
      (hnext : stream.lookahead t.now.next = .token field) (hfield : field.kind = .field)
      (hnext₁ : stream.lookahead (t.now.next + 1) = .token operator)
      (hoperator : operator.kind = .operator op)
      (hnext₂ : stream.lookahead (t.now.next + 2) = .token value)
      (hvalue : value.kind = .literal quoted) (hname : policy.allows field.text = true) :
      Returns policy stream .comparison t
        (.ok ⟨.comparison field.text op.relation (State.value quoted value.text), 1⟩)
        t.advance.advance.advance

/-- A call that returns by the rules ends so. -/
theorem Returns.settles (h : Returns policy stream routine t r t') :
    Settles policy stream routine t r t' := by
  induction h with
  | chain hlink hrest ihlink ihrest =>
    obtain ⟨m, hm⟩ := ihlink
    obtain ⟨n, hn⟩ := ihrest
    refine .of_succ (max m n) fun nesting h => ?_
    simp [call, hm nesting (by omega), hn nesting (by omega)]
  | chainError hlink ihlink =>
    obtain ⟨n, hn⟩ := ihlink
    refine .of_succ n fun nesting h => ?_
    simp [call, hn nesting h]
  | last hnext => exact .of_succ 0 fun nesting h => by simp [call, hnext]
  | more hnext hkeyword hlink hjoin hrest ihlink ihrest =>
    obtain ⟨m, hm⟩ := ihlink
    obtain ⟨n, hn⟩ := ihrest
    refine .of_succ (max m n) fun nesting h => ?_
    simp [call, hnext, hkeyword, Lookahead.position, hm nesting (by omega), hjoin,
      hn nesting (by omega)]
  | moreError hnext hkeyword hlink ihlink =>
    obtain ⟨n, hn⟩ := ihlink
    refine .of_succ n fun nesting h => ?_
    simp [call, hnext, hkeyword, hn nesting h]
  | tooHigh hnext hkeyword hlink hjoin ihlink =>
    obtain ⟨n, hn⟩ := ihlink
    refine .of_succ n fun nesting h => ?_
    simp [call, hnext, hkeyword, Lookahead.position, hn nesting h, hjoin]
  | group hnext hopening hgroup ih =>
    obtain ⟨n, hn⟩ := ih
    refine .of_succ n fun nesting h => ?_
    simp [call, hnext, hopening, hn nesting h]
  | comparison hnext hfield hcomparison ih =>
    obtain ⟨n, hn⟩ := ih
    refine .of_succ n fun nesting h => ?_
    simp [call, hnext, hfield, hn nesting h]
  | noOperand hgroup hfield => exact .of_succ 0 fun nesting h => by simp [call]
  | tooDeep hnext hopening hdepth =>
    exact .of_succ 0 fun nesting h => by simp [call, hnext, Lookahead.position, hdepth]
  | groupError hnext hopening hdepth hinner ih =>
    obtain ⟨n, hn⟩ := ih
    refine .of_succ n fun nesting h => ?_
    simp [call, hdepth, hn nesting h]
  | unclosed hnext hopening hdepth hinner hclosing ih =>
    obtain ⟨n, hn⟩ := ih
    refine .of_succ n fun nesting h => ?_
    simp [call, hdepth, hn nesting h, hclosing]
  | closed hnext hopening hdepth hinner hnext' hclosing ih =>
    obtain ⟨n, hn⟩ := ih
    refine .of_succ n fun nesting h => ?_
    simp [call, hdepth, hn nesting h, hnext', hclosing, Except.map]
  | noOperator hnext hfield hoperator => exact .of_succ 0 fun nesting h => by simp [call]
  | noValue hnext hfield hnext₁ hoperator hvalue =>
    exact .of_succ 0 fun nesting h => by simp [call, hnext₁, hoperator]
  | notAllowed hnext hfield hnext₁ hoperator hnext₂ hvalue hname =>
    refine .of_succ 0 fun nesting h => ?_
    simp [call, hnext, hnext₁, hoperator, hnext₂, hvalue, Lookahead.text, hname]
  | value hnext hfield hnext₁ hoperator hnext₂ hvalue hname =>
    refine .of_succ 0 fun nesting h => ?_
    simp [call, hnext, hnext₁, hoperator, hnext₂, hvalue, Lookahead.text, hname, Except.map]

end Parse

end FilterQuery
