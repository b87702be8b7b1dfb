import FilterQuery.Decimal
import FilterQuery.Policy
import FilterQuery.Text.Blank
import FilterQuery.Text.Parts

/-!
# FilterQuery.Command.Settings

The restrictions that a user chose, by options or by environment variables.
-/

namespace FilterQuery.Command

/-- What was chosen; what is absent keeps its standard value. -/
structure Settings where
  allow : Option String
  maxDepth : Option Nat
  maxHeight : Option Nat
deriving DecidableEq

namespace Settings

/-- Nothing was chosen. -/
def empty : Settings := ⟨none, none, none⟩

/-- The names in a list with commas; blanks around names do not count, nor do
empty names. -/
def names (list : String) : List String :=
  (((Text.splitAt ',' list.toList).map Text.trim).filter fun name => !name.isEmpty).map
    String.ofList

/-- Choices of the first settings prevail over those of the second. -/
def orElse (first second : Settings) : Settings where
  allow := first.allow <|> second.allow
  maxDepth := first.maxDepth <|> second.maxDepth
  maxHeight := first.maxHeight <|> second.maxHeight

/-- The policy chosen.  A list without any name allows no field. -/
def policy (settings : Settings) : Policy where
  allowed := settings.allow.map fun list => FieldSet.ofNames (names list)
  maxDepth := settings.maxDepth <|> Policy.standard.maxDepth
  maxHeight := settings.maxHeight <|> Policy.standard.maxHeight

/-! ## numbers -/

/-- A limit is written in digits, with or without a plus sign. -/
def limit? (text : String) : Option Nat :=
  let digits :=
    match text.toList with
    | '+' :: digits => digits
    | digits => digits
  if digits ≠ [] ∧ digits.all Char.isDigit then
    let n := Decimal.ofDigits digits
    if n < 2 ^ 64 then some n else none
  else none

end Settings

end FilterQuery.Command
