import FilterQuery.Proofs.JsonReading
import FilterQuery.Proofs.JsonScalars

/-!
# FilterQuery.Proofs.JsonText

Compact texts are written by the laws (`writesCompactly_compact`).  Without blanks it does
not matter how deep a value stands (`write_compact_depth`), so an item or member is written
like a value of its own behind what precedes it.
-/

namespace FilterQuery

namespace Json

/-! ## compact texts -/

@[simp] theorem newline_compact (depth : Nat) : Spacing.compact.newline depth = "" := rfl

@[simp] theorem colon_compact : Spacing.compact.colon = ":" := rfl

mutual

/-- Without blanks it does not matter how deep a value stands. -/
theorem write_compact_depth (out : String) (depth depth' : Nat) :
    (value : Json) → write .compact out depth value = write .compact out depth' value
  | null | boolean _ | integer _ | float _ | string _ | array [] | object [] => by
    simp only [write]
  | array (item :: items) => by
    simp only [write, newline_compact]
    rw [writeItems_compact_depth _ (depth + 1) (depth' + 1)]
  | object (member :: members) => by
    simp only [write, newline_compact]
    rw [writeMembers_compact_depth _ (depth + 1) (depth' + 1)]

/-- The same for items. -/
theorem writeItems_compact_depth (out : String) (depth depth' : Nat) :
    (items : List Json) → writeItems .compact out depth items = writeItems .compact out depth' items
  | [] => by simp only [writeItems]
  | [item] => by
    simp only [writeItems, newline_compact]
    rw [write_compact_depth]
  | item :: next :: items => by
    simp only [writeItems, newline_compact]
    rw [write_compact_depth _ depth depth', writeItems_compact_depth]

/-- The same for members. -/
theorem writeMembers_compact_depth (out : String) (depth depth' : Nat) :
    (members : List (String × Json)) →
      writeMembers .compact out depth members = writeMembers .compact out depth' members
  | [] => by simp only [writeMembers]
  | [(name, value)] => by
    simp only [writeMembers, writeMember, newline_compact]
    rw [write_compact_depth]
  | (name, value) :: next :: members => by
    simp only [writeMembers, writeMember, newline_compact]
    rw [write_compact_depth _ depth depth', writeMembers_compact_depth]

end

/-- A value is written behind what precedes it. -/
theorem toList_write (out : String) (depth : Nat) (value : Json) :
    (write .compact out depth value).toList = out.toList ++ chars compact value := by
  have happend := write_append .compact out "" depth value
  rw [String.append_empty] at happend
  rw [happend, write_compact_depth "" depth 0, String.toList_append]
  rfl

/-- A string is written in quotes. -/
theorem chars_string (s : String) : chars compact (.string s) = (quote s).toList := by
  simp [chars, compact, write]

/-- The items of an array are written behind what precedes them. -/
theorem toList_writeItems (out : String) (depth : Nat) (items : List Json) :
    (writeItems .compact out depth items ++ "]").toList =
      out.toList ++ bracketedChars ']' (chars compact) items := by
  induction items generalizing out with
  | nil => simp [writeItems, bracketedChars]
  | cons item items ih =>
    cases items with
    | nil => simp [writeItems, toList_write, bracketedChars, followingChars]
    | cons next items =>
      rw [writeItems, ih]
      · simp [toList_write, bracketedChars, followingChars]
      · simp

/-- The members of an object are written behind what precedes them. -/
theorem toList_writeMembers (out : String) (depth : Nat) (members : List (String × Json)) :
    (writeMembers .compact out depth members ++ "\x7d").toList =
      out.toList ++ bracketedChars '\x7d' (memberChars compact) members := by
  have hmember (out : String) (member : String × Json) :
      (writeMember .compact out depth member).toList = out.toList ++ memberChars compact member := by
    obtain ⟨name, value⟩ := member
    simp [writeMember, toList_write, memberChars, chars_string]
  induction members generalizing out with
  | nil => simp [writeMembers, bracketedChars]
  | cons member members ih =>
    cases members with
    | nil => simp [writeMembers, hmember, bracketedChars, followingChars]
    | cons next members =>
      rw [writeMembers, ih]
      · simp [hmember, bracketedChars, followingChars]
      · simp

/-! ## the laws -/

/-- The text of an array is that of its items, with commas between them. -/
theorem compact_array (items : List Json) :
    compact (array items) = "[" ++ ",".intercalate (items.map compact) ++ "]" := by
  have hitems : _ = bracketedChars ']' (chars compact) items := toList_intercalate ']' compact items
  rw [← String.toList_inj]
  cases items with
  | nil => simp [compact, write]
  | cons item items =>
    rw [compact, write, newline_compact, String.append_empty, toList_writeItems, ← hitems]
    · simp
    · simp

/-- The text of an object is that of its members, with commas between them. -/
theorem compact_object (members : List (String × Json)) :
    compact (object members) = "\x7b" ++ ",".intercalate (members.map fun (name, value) =>
      compact (.string name) ++ ":" ++ compact value) ++ "\x7d" := by
  have hmembers := toList_members compact members
  rw [← String.toList_inj]
  cases members with
  | nil => simp [compact, write]
  | cons member members =>
    rw [compact, write, newline_compact, String.append_empty, toList_writeMembers, ← hmembers]
    · simp
    · simp

/-- **Compact texts are written by the laws.** -/
theorem writesCompactly_compact : WritesCompactly compact where
  null := by simp [compact, write]
  boolean b := by simp [compact, write]
  integer n := by simpa [compact, write] using integerNumeral_repr n.toInt
  float x h := by simpa [compact, write] using isFloatText_floatText h
  string s := by simpa [compact, write] using isStringText_quote s
  array := compact_array
  object := compact_object

end Json

end FilterQuery
