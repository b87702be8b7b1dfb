import FilterQuery.Parse
import FilterQuery.Token.Dump

/-!
# FilterQuery.Log

What can be told about the reading of a query, from warnings to the last
detail.
-/

namespace FilterQuery.Log

/-! ## records -/

/-- How much detail a record gives. -/
inductive Level where
  | warning
  | debug
  | trace
deriving DecidableEq

namespace Level

/-- The name under which records of the level are listed. -/
def name : Level → String
  | .warning => "WARN"
  | .debug => "DEBUG"
  | .trace => "TRACE"

/-- Warnings are the least detailed. -/
def detail : Level → Nat
  | .warning => 0
  | .debug => 1
  | .trace => 2

end Level

/-- A message and how much detail it gives. -/
structure Record where
  level : Level
  message : String
deriving DecidableEq

/-- The records up to a level of detail. -/
def upTo (level : Level) (records : List Record) : List Record :=
  records.filter fun record => record.level.detail ≤ level.detail

/-! ## what is recorded -/

/-- A warning for each name of a whitelist that no query can mention. -/
def warnings (allowed : FieldSet) : List Record :=
  allowed.unreachable.map fun name =>
    ⟨.warning, "allowed field `" ++ name ++ "` is not a valid identifier and will never match"⟩

/-- What a policy permits, in a phrase. -/
def describeAllowed : Option FieldSet → String
  | none => "unrestricted"
  | some fields => toString fields.size ++ " allowed fields"

/-- The records of reading a query: its size, its tokens if it has any, and the
error if it is rejected. -/
def ofParse (policy : Policy) (source : String) : List Record :=
  let opening : Record := ⟨.debug, "parsing query of " ++ toString source.utf8ByteSize ++
    " bytes (" ++ describeAllowed policy.allowed ++ ")"⟩
  let tokens : List Record :=
    match TokenStream.scan source with
    | .ok stream => [⟨.trace, "tokens: " ++ stream.dump.inline⟩]
    | .error _ => []
  let rejection : List Record :=
    match policy.parse source with
    | .ok _ => []
    | .error e => [⟨.debug, "query rejected: " ++ e.message⟩]
  opening :: tokens ++ rejection

/-- All records of setting up a policy and reading one query under it. -/
def ofQuery (policy : Policy) (source : String) : List Record :=
  (policy.allowed.map warnings).getD [] ++ ofParse policy source

end FilterQuery.Log
