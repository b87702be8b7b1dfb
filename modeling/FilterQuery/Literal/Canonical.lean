import FilterQuery.Binary64.Shortest
import FilterQuery.Literal.Unquoted
import FilterQuery.Text.Blank
import FilterQuery.Text.Quoted

/-!
# FilterQuery.Literal.Canonical

The text of a value in a query.  Numbers and constants stand as they are; a
string stands bare where that reads back as the same string after every
operator, and in quotes otherwise.
-/

namespace FilterQuery

/-! ## numbers -/

/-- In a query every float is written positionally. -/
def Number.layout : Binary64.Layout where
  tie := .up
  positionalOrders := none
  plus := ""
  infinity := "inf.0"
  nan := "NaN.0"

/-- The numeral of a number. -/
def Number.text : Number → List Char
  | .integer n => (Int.repr n.toInt).toList
  | .float x => x.text layout

/- Small numbers and large ones are written positionally too. -/
example : (Number.float (.ofBits 0x3E60000000000000)).text =
    "0.000000029802322387695313".toList := by decide +kernel

example : (Number.float (.ofBits 0xC341C37937E08000)).text = "-10000000000000000.0".toList := by
  decide +kernel

/-! ## strings -/

/-- May the string stand without quotes?  It must not be empty; nor start with
a quote, which would open a quoted value, or with `=`, which would lengthen the
operator before it; nor hold a blank or `)`, which would end it; nor denote
another value. -/
def isBare (text : String) : Bool :=
  let cs := text.toList
  !cs.isEmpty && cs.head? != some '"' && cs.head? != some '=' &&
    !(cs.any fun c => Text.isBlank c || c == ')') &&
    Literal.ofUnquoted text == .string text

/-- The string in quotes. -/
def quote (text : String) : String :=
  String.ofList ('"' :: Text.escape text.toList ++ ['"'])

/-! ## values -/

/-- The text of a value. -/
def Literal.text : Literal → String
  | .string s => if isBare s then s else quote s
  | .number n => String.ofList n.text
  | .boolean true => "true"
  | .boolean false => "false"
  | .null => "null"

end FilterQuery
