import FilterQuery.Command.Report

/-!
# FilterQuery.Command.Arguments

The arguments of the program: a command, options in any place, and the words of
a query.  After `--` every argument is a word.  An option that takes a value has
it behind an equals sign or as the next argument.

Options before the command and options behind it are two levels, and those
behind prevail.  On one level lists of fields are put together, but no other
option is given twice.  The error messages are this library's own.
-/

namespace FilterQuery.Command

/-! ## errors -/

/-- Why arguments cannot be understood. -/
inductive UsageError where
  | noCommand
  | unknownCommand (name : String)
  | unknownOption (text : String)
  | repeatedOption (option : String)
  | noValue (option : String)
  | invalidLimit (option value : String)
  | noQuery
deriving DecidableEq

/-- The error in words. -/
def UsageError.message : UsageError → String
  | .noCommand => "a command is required: check, parse or tokens"
  | .unknownCommand name => "unrecognized command '" ++ name ++ "'"
  | .unknownOption text => "unexpected argument '" ++ text ++ "'"
  | .repeatedOption option => "'" ++ option ++ "' is given more than once"
  | .noValue option => "a value is required for '" ++ option ++ "'"
  | .invalidLimit option value => "invalid value '" ++ value ++ "' for '" ++ option ++ "'"
  | .noQuery => "a query is required"

/-! ## options -/

/-- The options of one level. -/
structure Options where
  settings : Settings
  json : Bool
  debug : Bool
deriving DecidableEq

namespace Options

/-- No option is given. -/
def empty : Options := ⟨.empty, false, false⟩

/-- The options that take a value. -/
def valued : List String := ["--allow", "--max-depth", "--max-height"]

/-- A limit given for an option or variable. -/
def limit (option value : String) : Except UsageError Nat :=
  match Settings.limit? value with
  | some n => .ok n
  | none => .error (.invalidLimit option value)

/-- A limit given for an option that has none yet. -/
def firstLimit (option value : String) : Option Nat → Except UsageError Nat
  | none => limit option value
  | some _ => .error (.repeatedOption option)

/-- An option with its value.  A further list of fields is one with more names. -/
def set (option value : String) (options : Options) : Except UsageError Options :=
  let settings := options.settings
  if option = "--allow" then
    let list := match settings.allow with
      | none => value
      | some list => list ++ "," ++ value
    .ok { options with settings := { settings with allow := some list } }
  else if option = "--max-depth" then
    (firstLimit option value settings.maxDepth).map fun n =>
      { options with settings := { settings with maxDepth := some n } }
  else if option = "--max-height" then
    (firstLimit option value settings.maxHeight).map fun n =>
      { options with settings := { settings with maxHeight := some n } }
  else .error (.unknownOption option)

end Options

/-! ## arguments -/

/-- What the arguments say so far: the options before the command, and those of
the level that is being read. -/
structure Arguments where
  command : Option String
  before : Options
  options : Options
  words : List String
deriving DecidableEq

namespace Arguments

/-- Nothing was said. -/
def empty : Arguments := ⟨none, .empty, .empty, []⟩

/-- An option with its value. -/
def setOption (option value : String) (arguments : Arguments) : Except UsageError Arguments :=
  (arguments.options.set option value).map fun options => { arguments with options := options }

/-- The value behind an equals sign. -/
def valueOf? (option argument : String) : Option String :=
  (List.isPrefixOf? (option ++ "=").toList argument.toList).map String.ofList

/-- A single argument that needs no other.  The format is chosen behind the
command only. -/
def readOne (argument : String) (arguments : Arguments) : Except UsageError Arguments :=
  let options := arguments.options
  match Options.valued.findSome? fun option =>
    (valueOf? option argument).map fun value => (option, value)
  with
  | some (option, value) => arguments.setOption option value
  | none =>
    if argument = "--json" ∧ arguments.command.isSome then
      if options.json then .error (.repeatedOption argument)
      else .ok { arguments with options := { options with json := true } }
    else if argument = "--debug" ∨ argument = "-d" then
      if options.debug then .error (.repeatedOption argument)
      else .ok { arguments with options := { options with debug := true } }
    else if argument.toList.head? = some '-' ∧ argument ≠ "-" then
      .error (.unknownOption argument)
    else if arguments.command.isNone then
      .ok { arguments with command := some argument, before := options, options := .empty }
    else .ok { arguments with words := arguments.words ++ [argument] }

/-- Read all arguments. -/
def read (arguments : Arguments) : List String → Except UsageError Arguments
  | [] => .ok arguments
  | "--" :: words => .ok { arguments with words := arguments.words ++ words }
  | [argument] =>
    if argument ∈ Options.valued then .error (.noValue argument) else arguments.readOne argument
  | argument :: next :: rest =>
    if argument ∈ Options.valued then
      match arguments.setOption argument next with
      | .error e => .error e
      | .ok arguments => arguments.read rest
    else
      match arguments.readOne argument with
      | .error e => .error e
      | .ok arguments => arguments.read (next :: rest)

/-! ## requests -/

/-- The command that was named; only the commands that show data have a JSON
form. -/
def action (arguments : Arguments) : Except UsageError Action :=
  let json := arguments.options.json
  let format : Format := if json then .json else .plain
  match arguments.command with
  | none => .error .noCommand
  | some "check" => if json then .error (.unknownOption "--json") else .ok .check
  | some "parse" => .ok (.parse format)
  | some "tokens" => .ok (.tokens format)
  | some name => .error (.unknownCommand name)

/-- The request and the query, where options prevail over the environment. -/
def request (arguments : Arguments) (environment : Settings) (color : Bool) :
    Except UsageError (Request × String) := do
  let action ← arguments.action
  if arguments.words.isEmpty then .error .noQuery
  else
    let settings := (arguments.options.settings.orElse arguments.before.settings).orElse environment
    let debug := arguments.options.debug || arguments.before.debug
    .ok (⟨action, settings, debug, color⟩, sourceOfWords arguments.words)

/- Lists of one level are put together, and those behind the command prevail. -/
example : ((empty.read ["--allow", "a", "--allow=b", "check", "--debug", "c:1"]).bind
    (request · ⟨some "c", none, none⟩ false)).map (fun (request, source) =>
      (request.settings.allow, request.debug, source)) = .ok (some "a,b", true, "c:1") := by
  cbv

end Arguments

end FilterQuery.Command
