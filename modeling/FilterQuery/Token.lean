import FilterQuery.Connective
import FilterQuery.Operator

/-!
# FilterQuery.Token

The tokens of a query.  A query is a run of tokens followed by its end;
whatever comes next to a reader is a `Lookahead`, one token or that end.
-/

namespace FilterQuery

/-! ## tokens -/

/-- What a token is.  A literal records whether it stood in quotes, since a
quoted value is never anything but a string. -/
inductive Token.Kind where
  | field
  | operator (op : Operator)
  | keyword (connective : Connective)
  | openGroup
  | closeGroup
  | literal (quoted : Bool)
deriving DecidableEq

/-- A token with the text it denotes and the byte at which it starts. -/
structure Token where
  kind : Token.Kind
  text : String
  position : Nat
deriving DecidableEq

namespace Token

/-- After an operator, and nowhere else, a value is awaited. -/
def Kind.awaitsValue : Kind → Bool
  | .operator _ => true
  | _ => false

/-- What a token says, wherever it stands. -/
def content (t : Token) : Kind × String := (t.kind, t.text)

/-- How messages refer to a token. -/
def describe (t : Token) : String :=
  match t.kind with
  | .field => "field `" ++ t.text ++ "`"
  | .operator _ => "operator `" ++ t.text ++ "`"
  | .keyword _ => "keyword `" ++ t.text ++ "`"
  | .openGroup => "`(`"
  | .closeGroup => "`)`"
  | .literal true => "value `\"" ++ t.text ++ "\"`"
  | .literal false => "value `" ++ t.text ++ "`"

end Token

/-! ## the end of a query -/

/-- What a reader of tokens sees next. -/
inductive Lookahead where
  | token (t : Token)
  | endOfInput (position : Nat)
deriving DecidableEq

namespace Lookahead

/-- The byte at which it starts. -/
def position : Lookahead → Nat
  | .token t => t.position
  | .endOfInput position => position

/-- Its text, empty for the end of the input. -/
def text : Lookahead → String
  | .token t => t.text
  | .endOfInput _ => ""

/-- How messages refer to it. -/
def describe : Lookahead → String
  | .token t => t.describe
  | .endOfInput _ => "end of input"

end Lookahead

/-- The tokens of a query and the length of its text in bytes. -/
structure TokenStream where
  tokens : List Token
  size : Nat
deriving DecidableEq

/-- All that a reader of the tokens sees, the end included. -/
def TokenStream.lookaheads (stream : TokenStream) : List Lookahead :=
  stream.tokens.map .token ++ [.endOfInput stream.size]

end FilterQuery
