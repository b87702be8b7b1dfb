import FilterQuery.Parse.State

/-!
# FilterQuery.Parse

From the text of a query to its predicate, under a policy.  A text that cannot
be split into tokens is rejected as such, whatever stands before that place.
-/

namespace FilterQuery

/-- The outcome of reading a query. -/
abbrev Outcome := Except ParseError Predicate

namespace Policy

/-- The predicate of a token stream. -/
def parseTokens (policy : Policy) (stream : TokenStream) : Outcome :=
  match Parse.State.start.run policy stream.tokens with
  | .error e => .error e
  | .ok s => s.finish policy stream.size

/-- The predicate of a query. -/
def parse (policy : Policy) (source : String) : Outcome :=
  match TokenStream.scan source with
  | .error e => .error (.scan e)
  | .ok stream => policy.parseTokens stream

end Policy

namespace Outcome

/-- Equality of outcomes: equal predicates, or the same error. -/
def equals : Outcome → Outcome → Bool
  | .ok p, .ok q => p.equals q
  | .error d, .error e => d == e
  | _, _ => false

end Outcome

end FilterQuery
