import FilterQuery.Command.Arguments

/-!
# FilterQuery.Main

The program: arguments and environment in, report out.
-/

namespace FilterQuery.Command

/-- Restrictions from the environment. -/
def environmentSettings : IO (Except UsageError Settings) := do
  let allow ← IO.getEnv "QFILTER_ALLOWED_FIELDS"
  let depth ← IO.getEnv "QFILTER_MAX_DEPTH"
  let height ← IO.getEnv "QFILTER_MAX_HEIGHT"
  return do
    let maxDepth ← depth.mapM (Options.limit "--max-depth")
    let maxHeight ← height.mapM (Options.limit "--max-height")
    return ⟨allow, maxDepth, maxHeight⟩

/-- Colour is used on terminals, unless the environment forbids or forces it. -/
def useColor : IO Bool := do
  let force ← IO.getEnv "CLICOLOR_FORCE"
  let forbid ← IO.getEnv "NO_COLOR"
  let color ← IO.getEnv "CLICOLOR"
  if force.any (· != "0") then return true
  else if forbid.isSome then return false
  else if color == some "0" then return false
  else (← IO.getStdout).isTty

end FilterQuery.Command

open FilterQuery.Command in
/-- Print the report of the request that the arguments make.  Arguments that make none are
answered by an error message and exit code 2. -/
def main (arguments : List String) : IO UInt32 := do
  let environment ← environmentSettings
  let color ← useColor
  let request := do (← Arguments.empty.read arguments).request (← environment) color
  match request with
  | .error e =>
    IO.eprintln ("error: " ++ e.message)
    return 2
  | .ok (request, source) =>
    let report := run request source
    IO.print report.stdout
    IO.eprint report.stderr
    return report.exitCode.toUInt32
