import FilterQuery.Binary64.Shortest
import FilterQuery.Text.Printable

/-!
# FilterQuery.Dump

Dumps show data structures to people who debug queries: constructor names with
their arguments in parentheses or their fields in braces, on one line or
indented, with a comma after every item of the indented form.

A string escapes the quote, the backslash and all characters that would not
stand out on the page by themselves.
-/

namespace FilterQuery

/-- The structure of what is shown. -/
inductive Dump where
  /-- A number or a bare name. -/
  | atom (text : String)
  | string (s : String)
  | list (items : List Dump)
  /-- A name and its arguments. -/
  | tuple (name : String) (arguments : List Dump)
  /-- A name and its named fields. -/
  | fields (name : String) (members : List (String × Dump))

namespace Dump

/-! ## atoms and strings -/

/-- A count or a position in decimal. -/
def ofNat (n : Nat) : Dump := .atom (toString n)

/-- A truth value by its name. -/
def ofBool (b : Bool) : Dump := .atom (if b then "true" else "false")

/-- A float is written positionally from `10 ^ -4` to below `10 ^ 16`. -/
def floatLayout : Binary64.Layout where
  tie := .up
  positionalOrders := some (-4, 15)
  plus := ""
  infinity := "inf"
  nan := "NaN"

/-- A float in the layout of dumps. -/
def ofBinary64 (x : Binary64) : Dump := .atom (String.ofList (x.text floatLayout))

/- Of two shortest decimals that are equally near the greater one is written,
and a power of ten has no plus sign. -/
example : (Binary64.ofBits 0x3E60000000000000).text floatLayout =
    "2.9802322387695313e-8".toList := by decide +kernel

example : (Binary64.ofBits 0x4341C37937E08000).text floatLayout = "1e16".toList := by
  decide +kernel

/-- How a character is written inside a string. -/
def escapeChar (c : Char) : List Char :=
  if c = '"' then ['\\', '"']
  else if c = '\\' then ['\\', '\\']
  else if c = '\n' then ['\\', 'n']
  else if c = '\r' then ['\\', 'r']
  else if c = '\t' then ['\\', 't']
  else if c = '\x00' then ['\\', '0']
  else if Text.isPrintable c then [c]
  else ['\\', 'u', '\x7b'] ++ Nat.toDigits 16 c.toNat ++ ['\x7d']

/-- A string in quotes. -/
def quote (s : String) : String :=
  String.ofList ('"' :: s.toList.flatMap escapeChar ++ ['"'])

/-! ## on one line -/

mutual

/-- The dump on one line. -/
def inline : Dump → String
  | atom text => text
  | string s => quote s
  | list items => "[" ++ ", ".intercalate (inlineItems items) ++ "]"
  | tuple name arguments => name ++ "(" ++ ", ".intercalate (inlineItems arguments) ++ ")"
  | fields name members =>
    name ++ " \x7b " ++ ", ".intercalate (inlineMembers members) ++ " \x7d"

/-- The items of a list on one line. -/
def inlineItems : List Dump → List String
  | [] => []
  | item :: items => inline item :: inlineItems items

/-- The named fields on one line. -/
def inlineMembers : List (String × Dump) → List String
  | [] => []
  | member :: members => inlineMember member :: inlineMembers members

/-- A name, a colon, a space and a value. -/
def inlineMember : String × Dump → String
  | (name, value) => name ++ ": " ++ inline value

end

/-! ## indented -/

/-- A new line at the given depth; each level is four spaces wide. -/
def newline (depth : Nat) : String := "\n" ++ String.ofList (List.replicate (4 * depth) ' ')

mutual

/-- Append the indented dump of what starts at the given depth. -/
def writeIndented (out : String) (depth : Nat) : Dump → String
  | atom text => out ++ text
  | string s => out ++ quote s
  | list [] => out ++ "[]"
  | list items => writeItems (out ++ "[") (depth + 1) items ++ newline depth ++ "]"
  | tuple name arguments =>
    writeItems (out ++ name ++ "(") (depth + 1) arguments ++ newline depth ++ ")"
  | fields name members =>
    writeMembers (out ++ name ++ " \x7b") (depth + 1) members ++ newline depth ++ "\x7d"

/-- Append the items of a list, each on a line of its own with a comma behind. -/
def writeItems (out : String) (depth : Nat) : List Dump → String
  | [] => out
  | item :: items =>
    writeItems (writeIndented (out ++ newline depth) depth item ++ ",") depth items

/-- Append named fields, each on a line of its own with a comma behind. -/
def writeMembers (out : String) (depth : Nat) : List (String × Dump) → String
  | [] => out
  | member :: members =>
    writeMembers (writeMember (out ++ newline depth) depth member ++ ",") depth members

/-- Append a name, a colon, a space and a value. -/
def writeMember (out : String) (depth : Nat) : String × Dump → String
  | (name, value) => writeIndented (out ++ name ++ ": ") depth value

end

/-- The indented dump. -/
def pretty (dump : Dump) : String := writeIndented "" 0 dump

end Dump

end FilterQuery
