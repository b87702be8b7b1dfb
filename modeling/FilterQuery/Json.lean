import FilterQuery.Binary64.Shortest

/-!
# FilterQuery.Json

JSON values and their two texts: compact, without a single blank, and indented,
with each item of an array or object on a line of its own.  Both are written by
appending to what stands before, in one pass (`write_append`).

A string escapes the quote, the backslash and the control characters below
U+0020, and nothing else.
-/

namespace FilterQuery

/-- A JSON value.  The members of an object keep their order. -/
inductive Json where
  | null
  | boolean (b : Bool)
  | integer (n : Int)
  | float (x : Binary64)
  | string (s : String)
  | array (items : List Json)
  | object (members : List (String × Json))

namespace Json

/-! ## numbers and strings -/

/-- A float is written positionally from `10 ^ -5` to below `10 ^ 16`. -/
def floatLayout : Binary64.Layout where
  tie := .even
  positionalOrders := some (-5, 15)
  plus := "+"
  infinity := "null"
  nan := "null"

/-- The text of a float, which is that of null if the float is not finite. -/
def floatText (x : Binary64) : String :=
  if x.isFinite then String.ofList (x.text floatLayout) else "null"

/- Of two shortest decimals that are equally near the even one is written, and
the mantissa of one digit has no point. -/
example : floatText (.ofBits 0x3E60000000000000) = "2.9802322387695312e-8" := by decide +kernel

example : floatText (.ofBits 0x4341C37937E08000) = "1e+16" := by decide +kernel

example : floatText (.ofBits 0x3EE4F8B588E368F1) = "0.00001" := by decide +kernel

/-- How a character is written inside a string. -/
def escapeChar (c : Char) : List Char :=
  if c = '"' then ['\\', '"']
  else if c = '\\' then ['\\', '\\']
  else if c = '\x08' then ['\\', 'b']
  else if c = '\t' then ['\\', 't']
  else if c = '\n' then ['\\', 'n']
  else if c = '\x0c' then ['\\', 'f']
  else if c = '\r' then ['\\', 'r']
  else if c.toNat < 0x20 then
    ['\\', 'u'] ++ List.leftpad 4 '0' (Nat.toDigits 16 c.toNat)
  else [c]

/-- A string in quotes. -/
def quote (s : String) : String :=
  String.ofList ('"' :: s.toList.flatMap escapeChar ++ ['"'])

/-! ## texts -/

/-- What stands between the parts of an array or object. -/
structure Spacing where
  /-- What precedes an item, or the bracket that closes at this depth. -/
  newline : Nat → String
  /-- What stands between the name of a member and its value. -/
  colon : String

/-- Without blanks. -/
def Spacing.compact : Spacing where
  newline _ := ""
  colon := ":"

/-- Each item is on a line of its own; each level is two spaces wide. -/
def Spacing.indented : Spacing where
  newline depth := "\n" ++ String.ofList (List.replicate (2 * depth) ' ')
  colon := ": "

mutual

/-- Append the text of a value that starts at the given depth.  Nothing at all
stands between the brackets of an empty array or object. -/
def write (spacing : Spacing) (out : String) (depth : Nat) : Json → String
  | null => out ++ "null"
  | boolean b => out ++ if b then "true" else "false"
  | integer n => out ++ Int.repr n
  | float x => out ++ floatText x
  | string s => out ++ quote s
  | array [] => out ++ "[]"
  | array items =>
    writeItems spacing (out ++ "[") (depth + 1) items ++ spacing.newline depth ++ "]"
  | object [] => out ++ "\x7b\x7d"
  | object members =>
    writeMembers spacing (out ++ "\x7b") (depth + 1) members ++ spacing.newline depth ++ "\x7d"

/-- Append the items of an array, with commas between them. -/
def writeItems (spacing : Spacing) (out : String) (depth : Nat) : List Json → String
  | [] => out
  | [item] => write spacing (out ++ spacing.newline depth) depth item
  | item :: items =>
    writeItems spacing (write spacing (out ++ spacing.newline depth) depth item ++ ",") depth items

/-- Append the members of an object, with commas between them. -/
def writeMembers (spacing : Spacing) (out : String) (depth : Nat) :
    List (String × Json) → String
  | [] => out
  | [member] => writeMember spacing (out ++ spacing.newline depth) depth member
  | member :: members =>
    writeMembers spacing
      (writeMember spacing (out ++ spacing.newline depth) depth member ++ ",") depth members

/-- Append a name, a colon and a value. -/
def writeMember (spacing : Spacing) (out : String) (depth : Nat) : String × Json → String
  | (name, value) => write spacing (out ++ quote name ++ spacing.colon) depth value

end

/-- The text without blanks. -/
def compact (value : Json) : String := write .compact "" 0 value

/-- The indented text. -/
def pretty (value : Json) : String := write .indented "" 0 value

/-! ## writing appends -/

mutual

/-- What was written before only precedes the text of the value. -/
theorem write_append (spacing : Spacing) (a b : String) (depth : Nat) :
    (value : Json) → write spacing (a ++ b) depth value = a ++ write spacing b depth value
  | null | boolean _ | integer _ | float _ | string _ | array [] | object [] => by
    simp [write, String.append_assoc]
  | array (item :: items) => by
    simp only [write, String.append_assoc, writeItems_append]
  | object (member :: members) => by
    simp only [write, String.append_assoc, writeMembers_append]

/-- The same for items. -/
theorem writeItems_append (spacing : Spacing) (a b : String) (depth : Nat) :
    (items : List Json) →
      writeItems spacing (a ++ b) depth items = a ++ writeItems spacing b depth items
  | [] => by simp [writeItems]
  | [item] => by simp only [writeItems, String.append_assoc, write_append]
  | item :: next :: items => by
    simp only [writeItems, String.append_assoc, write_append]
    rw [writeItems_append]

/-- The same for members. -/
theorem writeMembers_append (spacing : Spacing) (a b : String) (depth : Nat) :
    (members : List (String × Json)) →
      writeMembers spacing (a ++ b) depth members = a ++ writeMembers spacing b depth members
  | [] => by simp [writeMembers]
  | [member] => by simp only [writeMembers, String.append_assoc, writeMember_append]
  | member :: next :: members => by
    simp only [writeMembers, String.append_assoc, writeMember_append]
    rw [writeMembers_append]

/-- The same for a member. -/
theorem writeMember_append (spacing : Spacing) (a b : String) (depth : Nat) :
    (member : String × Json) →
      writeMember spacing (a ++ b) depth member = a ++ writeMember spacing b depth member
  | (name, value) => by simp only [writeMember, String.append_assoc, write_append]

end

end Json

end FilterQuery
