import FilterQuery.Parse

/-!
# FilterQuery.Proofs.Relabelling

What the reader of tokens depends on.  All that a token contributes to a predicate
is its `Role`; where it stands and how it is written only shows in errors.  So a
`Relabelling`, which moves tokens or writes them differently, but keeps their
roles, does the same to the outcome as to the tokens.

* `State.next_operand` to `State.next_connective` — what the reader does with a
  token, by the role of the token;
* `next_relabelled`, `run_relabelled` — reading relabelled tokens is relabelling
  what is read, token by token and over a whole run;
* `parseTokens_relabelled` — the same for token streams;
* `exists_lookahead_of_position?` — hence errors point at tokens or at the end:
  what is relabelled nowhere else is not relabelled in them.
-/

namespace FilterQuery

open Parse

/-! ## roles -/

/-- What a token contributes to a predicate. -/
inductive Token.Role where
  | openGroup
  | closeGroup
  | field (name : String)
  | relation (relation : Relation)
  | connective (k : Connective)
  | value (value : Literal)

/-- The role of a token. -/
def Token.role (t : Token) : Role :=
  match t.kind with
  | .openGroup => .openGroup
  | .closeGroup => .closeGroup
  | .field => .field t.text
  | .operator op => .relation op.relation
  | .keyword k => .connective k
  | .literal quoted => .value (State.value quoted t.text)

namespace Parse.State

variable (policy : Policy) (outer : List Level) (level : Level) (t : Token)

/-- Where an operand has to start, a group is opened or a comparison starts. -/
theorem next_operand : State.next policy ⟨outer, level, .operand⟩ t =
    match t.role with
    | .openGroup =>
      match Policy.exceeded? policy.maxDepth (outer.length + 1) with
      | some limit => .error (.tooDeep t.position limit)
      | none => .ok ⟨level :: outer, .empty, .operand⟩
    | .field name => .ok ⟨outer, level, .field name⟩
    | _ => .error (.unexpected ⟨t.position, [.expression], .token t⟩) := by
  unfold next Token.role
  cases t.kind <;> rfl

/-- A field is followed by an operator. -/
theorem next_field (name : String) : State.next policy ⟨outer, level, .field name⟩ t =
    match t.role with
    | .relation relation => .ok ⟨outer, level, .comparison name relation⟩
    | _ => .error (.unexpected ⟨t.position, [.operator], .token t⟩) := by
  unfold next Token.role
  cases t.kind <;> rfl

/-- An operator is followed by a value, and then the field is checked. -/
theorem next_comparison (name : String) (relation : Relation) :
    State.next policy ⟨outer, level, .comparison name relation⟩ t =
    match t.role with
    | .value value =>
      if policy.allows name then
        complete policy ⟨outer, level, .operand⟩ ⟨.comparison name relation value, 1⟩
      else .error (.fieldNotAllowed name)
    | _ => .error (.unexpected ⟨t.position, [.value], .token t⟩) := by
  unfold next Token.role
  cases t.kind <;> rfl

/-- What follows a conjunction prolongs it, or else the conjunction is complete. -/
theorem next_connective (conjunction : Operand) :
    State.next policy ⟨outer, level, .connective conjunction⟩ t =
    match t.role with
    | .connective .and =>
      .ok ⟨outer, ⟨level.disjunction, some ⟨conjunction, t.position⟩⟩, .operand⟩
    | role =>
      match joinPending policy .or level.disjunction conjunction with
      | .error e => .error e
      | .ok expression =>
        match role, outer with
        | .connective .or, _ => .ok ⟨outer, ⟨some ⟨expression, t.position⟩, none⟩, .operand⟩
        | .closeGroup, around :: outer =>
          complete policy ⟨outer, around, .operand⟩ expression
        | _, _ => .error (State.unexpected ⟨outer, level, .connective conjunction⟩ (.token t)) := by
  unfold next Token.role
  cases hkind : t.kind with
  | keyword k => cases k <;> rfl
  | closeGroup => cases outer <;> rfl
  | _ => rfl

end Parse.State

/-! ## relabellings -/

/-- A way to move tokens and to write them differently, which keeps what each of
them contributes. -/
structure Relabelling where
  token : Token → Token
  position : Nat → Nat
  position_token : ∀ t, (token t).position = position t.position
  role_token : ∀ t, (token t).role = t.role

namespace Relabelling

variable (g : Relabelling)

/-- What comes next, relabelled; the end of the input can only move. -/
def lookahead : Lookahead → Lookahead
  | .token t => .token (g.token t)
  | .endOfInput position => .endOfInput (g.position position)

/-- A token stream, relabelled. -/
def stream (stream : TokenStream) : TokenStream :=
  ⟨stream.tokens.map g.token, g.position stream.size⟩

/-- An error, relabelled: it points elsewhere, and so does the token found. -/
def error : ParseError → ParseError
  | .scan e => .scan ⟨g.position e.position, e.reason⟩
  | .unexpected e => .unexpected ⟨g.position e.position, e.expected, g.lookahead e.found⟩
  | .fieldNotAllowed field => .fieldNotAllowed field
  | .tooDeep position limit => .tooDeep (g.position position) limit
  | .tooHigh position limit => .tooHigh (g.position position) limit

/-- A connective that waits, moved. -/
def pending (pending : Pending) : Pending := ⟨pending.operand, g.position pending.position⟩

/-- The connectives that wait in a group, moved. -/
def level (level : Level) : Level :=
  ⟨level.disjunction.map g.pending, level.conjunction.map g.pending⟩

/-- A state with the connectives that wait in it, moved. -/
def state (s : State) : State := ⟨s.outer.map g.level, g.level s.level, s.phase⟩

@[simp] theorem position_lookahead (l : Lookahead) :
    (g.lookahead l).position = g.position l.position := by
  cases l with
  | token t => exact g.position_token t
  | endOfInput position => rfl

@[simp] theorem position?_error (e : ParseError) :
    (g.error e).position? = e.position?.map g.position := by
  cases e <;> rfl

/-- At the start nothing waits. -/
@[simp] theorem state_start : g.state State.start = State.start := rfl

/-- A relabelled state expects what the state expects. -/
theorem unexpected_state (s : State) (found : Lookahead) :
    (g.state s).unexpected (g.lookahead found) = g.error (s.unexpected found) := by
  obtain ⟨outer, level, phase⟩ := s
  simp only [State.unexpected, position_lookahead, error]
  cases phase with
  | connective conjunction => simp [State.expected, state]
  | _ => rfl

/-! ## reading relabelled tokens -/

variable (policy : Policy)

/-- Joining fails where the connective stands. -/
theorem joinPending_relabelled (k : Connective) (left : Option Pending) (right : Operand) :
    joinPending policy k (left.map g.pending) right =
      (joinPending policy k left right).mapError g.error := by
  cases left with
  | none => rfl
  | some left =>
    simp only [joinPending, Option.map_some, join, pending]
    split <;> rfl

/-- Completing an operand fails in the same way. -/
theorem complete_relabelled (s : State) (operand : Operand) :
    (g.state s).complete policy operand =
      ((s.complete policy operand).map g.state).mapError g.error := by
  have hjoin := g.joinPending_relabelled policy .and s.level.conjunction operand
  simp only [State.complete, state, level, hjoin]
  cases joinPending policy .and s.level.conjunction operand <;> rfl

/-- Reading a relabelled token is relabelling what is read. -/
theorem next_relabelled (s : State) (t : Token) :
    (g.state s).next policy (g.token t) = ((s.next policy t).map g.state).mapError g.error := by
  obtain ⟨outer, level, phase⟩ := s
  have hposition := g.position_token t
  cases phase with
  | operand =>
    rw [state, State.next_operand, State.next_operand, g.role_token, hposition, List.length_map]
    cases t.role with
    | openGroup => cases Policy.exceeded? policy.maxDepth (outer.length + 1) <;> rfl
    | _ => rfl
  | field name =>
    rw [state, State.next_field, State.next_field, g.role_token, hposition]
    cases t.role <;> rfl
  | comparison name relation =>
    rw [state, State.next_comparison, State.next_comparison, g.role_token, hposition]
    cases t.role with
    | value value =>
      cases policy.allows name with
      | true => exact g.complete_relabelled policy ⟨outer, level, .operand⟩ _
      | false => rfl
    | _ => rfl
  | connective conjunction =>
    have hunexpected := g.unexpected_state ⟨outer, level, .connective conjunction⟩ (.token t)
    have hjoin := g.joinPending_relabelled policy .or level.disjunction conjunction
    rw [state, State.next_connective, State.next_connective, g.role_token, hposition,
      Relabelling.level]
    cases t.role with
    | connective k =>
      cases k with
      | and => rfl
      | or =>
        simp only [hjoin]
        cases joinPending policy .or level.disjunction conjunction <;> rfl
    | closeGroup =>
      simp only [hjoin]
      cases joinPending policy .or level.disjunction conjunction with
      | error e => rfl
      | ok expression =>
        cases outer with
        | nil => exact congrArg Except.error hunexpected
        | cons around outer =>
          exact g.complete_relabelled policy ⟨outer, around, .operand⟩ expression
    | _ =>
      simp only [hjoin]
      cases joinPending policy .or level.disjunction conjunction with
      | error e => rfl
      | ok expression => exact congrArg Except.error hunexpected

/-- Reading relabelled tokens is relabelling what is read. -/
theorem run_relabelled (s : State) (ts : List Token) :
    (g.state s).run policy (ts.map g.token) =
      ((s.run policy ts).map g.state).mapError g.error := by
  induction ts generalizing s with
  | nil => rfl
  | cons t ts ih =>
    rw [List.map_cons, State.run_cons, State.run_cons, g.next_relabelled]
    cases s.next policy t with
    | error e => rfl
    | ok s' => exact ih s'

/-- The end of a relabelled query. -/
theorem finish_relabelled (s : State) (position : Nat) :
    (g.state s).finish policy (g.position position) =
      (s.finish policy position).mapError g.error := by
  obtain ⟨outer, level, phase⟩ := s
  have hunexpected := g.unexpected_state ⟨outer, level, phase⟩ (.endOfInput position)
  cases phase with
  | connective conjunction =>
    have hjoin := g.joinPending_relabelled policy .or level.disjunction conjunction
    simp only [State.finish, State.expression, state, Relabelling.level, hjoin]
    cases joinPending policy .or level.disjunction conjunction with
    | error e => rfl
    | ok expression =>
      cases outer with
      | nil => rfl
      | cons around outer => exact congrArg Except.error hunexpected
  | _ => exact congrArg Except.error hunexpected

/-- **The outcome of a relabelled token stream is the relabelled outcome.** -/
theorem parseTokens_relabelled (stream : TokenStream) :
    policy.parseTokens (g.stream stream) = (policy.parseTokens stream).mapError g.error := by
  have hrun := g.run_relabelled policy State.start stream.tokens
  rw [g.state_start] at hrun
  rw [Policy.parseTokens, Policy.parseTokens, Relabelling.stream, hrun]
  cases State.start.run policy stream.tokens with
  | error e => rfl
  | ok s => exact g.finish_relabelled policy s stream.size

/-! ## tokens elsewhere -/

/-- Tokens that only stand elsewhere. -/
def moving (position : Nat → Nat) : Relabelling where
  token t := { t with position := position t.position }
  position := position
  position_token _ := rfl
  role_token _ := rfl

/-- A token stream stays where it is if none of its tokens moves. -/
theorem stream_moving {position : Nat → Nat} {stream : TokenStream}
    (h : ∀ l ∈ stream.lookaheads, position l.position = l.position) :
    (moving position).stream stream = stream := by
  obtain ⟨tokens, size⟩ := stream
  have hsize : position size = size := h (.endOfInput size) (by simp [TokenStream.lookaheads])
  have htokens : tokens.map (moving position).token = tokens := by
    rw [List.map_congr_left (g := id), List.map_id]
    intro t ht
    have ht' := h (.token t) (by simp [TokenStream.lookaheads, ht])
    exact congrArg (Token.mk t.kind t.text) ht'
  rw [Relabelling.stream, htokens]
  exact congrArg (TokenStream.mk tokens) hsize

end Relabelling

/-- Errors point at tokens or at the end. -/
theorem exists_lookahead_of_position? {policy : Policy} {stream : TokenStream} {e : ParseError}
    (h : policy.parseTokens stream = .error e) {p : Nat} (hp : e.position? = some p) :
    ∃ l ∈ stream.lookaheads, l.position = p := by
  -- All places but those of the tokens are moved: the stream is the same, so the
  -- error is, and it points at none of the places that were moved.
  let elsewhere (q : Nat) : Nat := if ∃ l ∈ stream.lookaheads, l.position = q then q else q + 1
  have hstream : (Relabelling.moving elsewhere).stream stream = stream := by
    refine Relabelling.stream_moving fun l hl => ?_
    exact if_pos ⟨l, hl, rfl⟩
  have hparse := (Relabelling.moving elsewhere).parseTokens_relabelled policy stream
  rw [hstream, h] at hparse
  have herror : e = (Relabelling.moving elsewhere).error e := Except.error.inj hparse
  have hmoved : elsewhere p = p := by
    have hposition := (Relabelling.moving elsewhere).position?_error e
    rw [← herror, hp] at hposition
    exact (Option.some.inj hposition).symm
  by_cases hfound : ∃ l ∈ stream.lookaheads, l.position = p
  · exact hfound
  · rw [show elsewhere p = p + 1 from if_neg hfound] at hmoved
    omega

end FilterQuery
