/-!
# FilterQuery.Operator

Comparison operators as they are written, and the relations they denote.
There are eight operators but seven relations, as `:` and `:=` mean the same.

No lexeme extends another one that stands before it in `Operator.all`, so the
first operator of that list that fits is the longest.
-/

namespace FilterQuery

/-! ## relations -/

/-- What a comparison asserts of a field and a value.  `contains` disregards
letter case; how a value is compared is up to whoever evaluates the query. -/
inductive Relation where
  | equal
  | contains
  | notEqual
  | greater
  | less
  | greaterEqual
  | lessEqual
deriving DecidableEq

namespace Relation

/-- The name in JSON. -/
def code : Relation → String
  | .equal => "eq"
  | .contains => "icontains"
  | .notEqual => "neq"
  | .greater => "gt"
  | .less => "lt"
  | .greaterEqual => "gte"
  | .lessEqual => "lte"

/-- The name in a dump. -/
def name : Relation → String
  | .equal => "Eq"
  | .contains => "IContains"
  | .notEqual => "Neq"
  | .greater => "Gt"
  | .less => "Lt"
  | .greaterEqual => "Gte"
  | .lessEqual => "Lte"

end Relation

/-! ## operators -/

/-- The comparison operators; `equalAlias` is a second way to write `equal`. -/
inductive Operator where
  | equal
  | equalAlias
  | contains
  | notEqual
  | greater
  | less
  | greaterEqual
  | lessEqual
deriving DecidableEq

namespace Operator

/-- How the operator is written. -/
def lexeme : Operator → String
  | .equal => ":"
  | .equalAlias => ":="
  | .contains => "~="
  | .notEqual => "!="
  | .greater => ">"
  | .less => "<"
  | .greaterEqual => ">="
  | .lessEqual => "<="

/-- The name in JSON and in a dump. -/
def name : Operator → String
  | .equal => "Eq"
  | .equalAlias => "EqAlias"
  | .contains => "IContains"
  | .notEqual => "NotEqual"
  | .greater => "Greater"
  | .less => "Lesser"
  | .greaterEqual => "GreaterOrEqual"
  | .lessEqual => "LesserOrEqual"

/-- All operators, those with longer lexemes first. -/
def all : List Operator :=
  [equalAlias, greaterEqual, lessEqual, notEqual, contains, equal, greater, less]

theorem mem_all (op : Operator) : op ∈ all := by
  cases op <;> decide

/-- The operator written exactly so. -/
def ofLexeme? (text : String) : Option Operator :=
  all.find? fun op => op.lexeme == text

/-- The operator at the start of a text, the longest one if several fit. -/
def leading? (cs : List Char) : Option Operator :=
  all.find? fun op => op.lexeme.toList.isPrefixOf cs

/-- The text starts with the lexeme of the operator found there. -/
theorem lexeme_append_drop {op : Operator} {cs : List Char} (h : leading? cs = some op) :
    op.lexeme.toList ++ cs.drop op.lexeme.toList.length = cs := by
  have := List.find?_some h
  exact List.prefix_iff_eq_append.mp (List.isPrefixOf_iff_prefix.mp this)

/-- No lexeme is empty. -/
theorem lexeme_ne_nil (op : Operator) : op.lexeme.toList ≠ [] := by
  cases op <;> decide

/-- The relation that the operator denotes. -/
def relation : Operator → Relation
  | .equal => .equal
  | .equalAlias => .equal
  | .contains => .contains
  | .notEqual => .notEqual
  | .greater => .greater
  | .less => .less
  | .greaterEqual => .greaterEqual
  | .lessEqual => .lessEqual

end Operator

namespace Relation

/-- The operator by which the canonical text of a query writes the relation. -/
def operator : Relation → Operator
  | .equal => .equal
  | .contains => .contains
  | .notEqual => .notEqual
  | .greater => .greater
  | .less => .less
  | .greaterEqual => .greaterEqual
  | .lessEqual => .lessEqual

/-- That operator denotes the relation. -/
@[simp] theorem relation_operator (r : Relation) : r.operator.relation = r := by
  cases r <;> rfl

end Relation

end FilterQuery
