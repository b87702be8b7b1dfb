import FilterQuery.Command.Diagnostic
import FilterQuery.Command.Settings
import FilterQuery.Parse
import FilterQuery.Predicate.Canonical
import FilterQuery.Predicate.Dump
import FilterQuery.Predicate.Json
import FilterQuery.Token.Dump
import FilterQuery.Token.Json

/-!
# FilterQuery.Command.Report

What the commands print.

* `check` says whether a query is admitted;
* `parse` shows its predicate, as canonical text and dump or as JSON;
* `tokens` shows its tokens, whatever the policy.

A rejected query leaves nothing on the standard output but the dump of its
tokens that was asked for.
-/

namespace FilterQuery.Command

/-! ## requests and reports -/

/-- How data is shown. -/
inductive Format where
  | plain
  | json
deriving DecidableEq

/-- The commands; those that show data can do so in two formats. -/
inductive Action where
  | check
  | parse (format : Format)
  | tokens (format : Format)
deriving DecidableEq

/-- What to do, under which policy, and how to show it. -/
structure Request where
  action : Action
  settings : Settings
  debug : Bool
  color : Bool

/-- What a command leaves behind. -/
structure Report where
  exitCode : UInt8
  stdout : String
  stderr : String
deriving DecidableEq

/-- The words of a query are joined by single spaces. -/
def sourceOfWords (words : List String) : String := " ".intercalate words

/-! ## tokens -/

/-- All tokens, one dump a line, under a heading; nothing if there are none
because of a character that starts none. -/
def renderTokenDump (color : Bool) (source : String) : String :=
  match TokenStream.scan source with
  | .error _ => ""
  | .ok stream =>
    Style.strong.paint color "Tokens:" ++ "\n" ++
      String.join (stream.lookaheads.map fun found => found.dump.inline ++ "\n") ++ "\n"

/-- Pad with spaces on the left. -/
def padLeft (width : Nat) (text : String) : String :=
  String.ofList (List.leftpad width ' ' text.toList)

/-- Pad with spaces on the right. -/
def padRight (width : Nat) (text : String) : String :=
  String.ofList (List.rightpad width ' ' text.toList)

/-- A row of the token table: position, kind and text. -/
def renderTokenRow (color : Bool) (found : Lookahead) : String :=
  Style.faint.paint color (padLeft 4 (toString found.position)) ++ "  " ++
    padRight 24 found.kindDump.inline ++ " " ++ Style.strong.paint color found.text ++ "\n"

/-- The tokens of a query. -/
def renderTokens (color : Bool) (stream : TokenStream) : Format → String
  | .plain => String.join (stream.lookaheads.map (renderTokenRow color))
  | .json => stream.toJson.pretty ++ "\n"

/-! ## predicates -/

/-- The predicate of a query. -/
def renderPredicate (color : Bool) (p : Predicate) : Format → String
  | .plain => Style.strong.paint color p.text ++ "\n\n" ++ p.dump.pretty ++ "\n"
  | .json => p.toJson.pretty ++ "\n"

/-! ## commands -/

/-- A rejected query. -/
def failure (color : Bool) (source output : String) (e : ParseError) : Report :=
  ⟨1, output, renderError color source e⟩

/-- Read a query and show what is made of its predicate. -/
def withPredicate (request : Request) (source : String) (display : Predicate → String) : Report :=
  let dump := if request.debug then renderTokenDump request.color source else ""
  match request.settings.policy.parse source with
  | .error e => failure request.color source dump e
  | .ok p => ⟨0, dump ++ display p, ""⟩

/-- Carry out a command. -/
def run (request : Request) (source : String) : Report :=
  match request.action with
  | .check => withPredicate request source fun _ =>
      Style.success.paint request.color "Query is valid" ++ "\n"
  | .parse format => withPredicate request source fun p => renderPredicate request.color p format
  | .tokens format =>
    match TokenStream.scan source with
    | .error e => failure request.color source "" (.scan e)
    | .ok stream => ⟨0, renderTokens request.color stream format, ""⟩

end FilterQuery.Command
