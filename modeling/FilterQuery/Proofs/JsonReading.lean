import FilterQuery.Proofs.JsonLaws

/-!
# FilterQuery.Proofs.JsonReading

A compact JSON text determines its value, whoever wrote it by the laws.  A text is read
from its start: the first character tells the kind of value, and a value can be told from
whatever follows it (`Separable`), since a string ends at its closing quote, an array or
object at its closing bracket, and a number where no character of numbers follows.

* `WritesCompactly.chars_array`, `WritesCompactly.chars_object` — the texts of arrays and
  objects, item by item;
* `eq_of_bracketedChars` — items can be told from each other and from what follows
  them if each of them can be told from what follows it;
* `WritesCompactly.separable`, `WritesCompactly.eq_of_write` — all values.
-/

namespace FilterQuery

namespace Json

/-! ## items -/

section

variable {α : Type}

/-- What follows the first item: a comma and the next item, or a closing bracket. -/
def followingChars (close : Char) (text : α → List Char) : List α → List Char
  | [] => [close]
  | item :: items => ',' :: (text item ++ followingChars close text items)

/-- Items, with commas between them, and a closing bracket. -/
def bracketedChars (close : Char) (text : α → List Char) : List α → List Char
  | [] => [close]
  | item :: items => text item ++ followingChars close text items

/-- The commas stand between the items. -/
theorem bracketedChars_eq (close : Char) (text : α → List Char) (items : List α) :
    bracketedChars close text items = [','].intercalate (items.map text) ++ [close] := by
  induction items with
  | nil => rfl
  | cons item items ih =>
    cases items with
    | nil => simp [bracketedChars, followingChars]
    | cons next items =>
      simp only [bracketedChars, followingChars, List.map_cons] at ih ⊢
      simp [ih]

/-- So the texts of items, put together, are these characters. -/
theorem toList_intercalate (close : Char) (text : α → String) (items : List α) :
    (",".intercalate (items.map text)).toList ++ [close] =
      bracketedChars close (fun item => (text item).toList) items := by
  simp [bracketedChars_eq, String.toList_intercalate, Function.comp_def]

end

variable {write : Json → String}

/-- The characters of the text of a value. -/
def chars (write : Json → String) (value : Json) : List Char := (write value).toList

/-- The text of an array, character by character. -/
theorem WritesCompactly.chars_array (hwrite : WritesCompactly write) (items : List Json) :
    chars write (.array items) = '[' :: bracketedChars ']' (chars write) items := by
  have hitems : _ = bracketedChars ']' (chars write) items := toList_intercalate ']' write items
  rw [← hitems, chars, hwrite.array]
  simp

/-- The characters of a member of an object. -/
def memberChars (write : Json → String) (member : String × Json) : List Char :=
  chars write (.string member.1) ++ ':' :: chars write member.2

/-- The members of an object, put together, are these characters. -/
theorem toList_members (write : Json → String) (members : List (String × Json)) :
    (",".intercalate (members.map fun (name, value) =>
      write (.string name) ++ ":" ++ write value)).toList ++ ['\x7d'] =
      bracketedChars '\x7d' (memberChars write) members := by
  have hmember : memberChars write = fun member : String × Json =>
      (write (.string member.1) ++ ":" ++ write member.2).toList := by
    funext member
    simp [memberChars, chars]
  rw [hmember]
  exact toList_intercalate _ _ _

/-- The text of an object, character by character. -/
theorem WritesCompactly.chars_object (hwrite : WritesCompactly write)
    (members : List (String × Json)) :
    chars write (.object members) =
      '\x7b' :: bracketedChars '\x7d' (memberChars write) members := by
  rw [← toList_members, chars, hwrite.object]
  simp

/-! ## numbers -/

/-- The characters of numbers. -/
def isNumberPart (c : Char) : Bool :=
  c.isDigit || c == '.' || c == 'e' || c == 'E' || c == '+' || c == '-'

/-- A number starts with a digit or its sign, and holds no character that could follow
it. -/
structure IsNumber (text : List Char) : Prop where
  head : ∃ c rest, text = c :: rest ∧ (c.isDigit = true ∨ c = '-')
  parts : ∀ c ∈ text, isNumberPart c = true

/-- Digits are characters of numbers. -/
theorem isNumberPart_of_isDigit {c : Char} (hc : c.isDigit = true) : isNumberPart c = true := by
  simp [isNumberPart, hc]

/-- A sign, perhaps, and digits, and what else there may be. -/
theorem IsNumber.of_digits (negative : Bool) {digits rest : List Char} (hdigits : IsDigits digits)
    (hrest : ∀ c ∈ rest, isNumberPart c = true) :
    IsNumber ((if negative then ['-'] else []) ++ (digits ++ rest)) := by
  have hparts : ∀ c ∈ digits ++ rest, isNumberPart c = true := by
    intro c hc
    obtain hc | hc := List.mem_append.mp hc
    · exact isNumberPart_of_isDigit (hdigits.2 c hc)
    · exact hrest c hc
  cases negative with
  | true => exact ⟨⟨'-', _, rfl, .inr rfl⟩, List.forall_mem_cons.mpr ⟨by decide, hparts⟩⟩
  | false =>
    obtain ⟨c, cs, rfl, hc⟩ := hdigits.exists_cons
    exact ⟨⟨c, _, rfl, .inl hc⟩, hparts⟩

/-- The text of an integer is a number. -/
theorem isNumber_of_integerNumeral {text : List Char} {v : Int} (h : IntegerNumeral text v) :
    IsNumber text := by
  obtain ⟨negative, digits, rfl, hdigits, -⟩ := h
  rw [← List.append_nil digits]
  exact .of_digits negative hdigits (by simp)

/-- A power of ten is made of characters of numbers. -/
theorem IsPower.parts {power : List Char} {exponent : Int} (h : IsPower power exponent) :
    ∀ c ∈ power, isNumberPart c = true := by
  have hmark {mark : Char} (hmark : mark = 'e' ∨ mark = 'E') : isNumberPart mark = true := by
    obtain rfl | rfl := hmark
    · decide
    · decide
  have hdigits {digits : List Char} (h : IsDigits digits) :
      ∀ c ∈ digits, isNumberPart c = true := fun c hc => isNumberPart_of_isDigit (h.2 c hc)
  cases h with
  | absent => simp
  | unsigned hm h => exact List.forall_mem_cons.mpr ⟨hmark hm, hdigits h⟩
  | plus hm h =>
    exact List.forall_mem_cons.mpr ⟨hmark hm, List.forall_mem_cons.mpr ⟨by decide, hdigits h⟩⟩
  | minus hm h =>
    exact List.forall_mem_cons.mpr ⟨hmark hm, List.forall_mem_cons.mpr ⟨by decide, hdigits h⟩⟩

/-- The text of a float is a number. -/
theorem IsFloatText.isNumber {x : Binary64} {text : List Char} (h : IsFloatText x text) :
    IsNumber text := by
  obtain ⟨whole, fraction, power, digits, exponent, rfl, hwhole, hfraction, hpower, -⟩ := h
  rw [List.append_assoc whole]
  refine .of_digits x.negative hwhole fun c hc => ?_
  obtain hc | hc := List.mem_append.mp hc
  · obtain hdigit | rfl := hfraction.parts c hc
    · exact isNumberPart_of_isDigit hdigit
    · decide
  · exact hpower.parts c hc

variable {rest rest' : List Char}

/-- What follows a value does not prolong a number. -/
def EndsNumbers (rest : List Char) : Prop := ∀ c ∈ rest.head?, isNumberPart c = false

/-- A number can be told from what follows it. -/
theorem IsNumber.eq_of_append {cs ds : List Char} (hcs : IsNumber cs) (hds : IsNumber ds)
    (hrest : EndsNumbers rest) (hrest' : EndsNumbers rest') (h : cs ++ rest = ds ++ rest') :
    cs = ds ∧ rest = rest' :=
  eq_of_run hcs.parts hds.parts hrest hrest' h

/-! ## kinds of values -/

/-- A value with numbers that a writer can write: integers of 64 bits and finite floats. -/
inductive IsEncodable : Json → Prop where
  | null : IsEncodable null
  | boolean {b : Bool} : IsEncodable (boolean b)
  | integer {n : Int64} : IsEncodable (integer n.toInt)
  | float {x : Binary64} (h : x.isFinite = true) : IsEncodable (float x)
  | string {s : String} : IsEncodable (string s)
  | array {items : List Json} (h : ∀ item ∈ items, IsEncodable item) : IsEncodable (array items)
  | object {members : List (String × Json)} (h : ∀ member ∈ members, IsEncodable member.2) :
      IsEncodable (object members)

/-- The kinds of values that differ in the first character. -/
inductive Kind where
  | null
  | boolean (b : Bool)
  | number
  | string
  | array
  | object
deriving DecidableEq

/-- The kind of a value. -/
def kind : Json → Kind
  | null => .null
  | boolean b => .boolean b
  | integer _ => .number
  | float _ => .number
  | string _ => .string
  | array _ => .array
  | object _ => .object

/-- The kind of values that start with the character. -/
def Kind.ofHead? (c : Char) : Option Kind :=
  if c = 'n' then some .null
  else if c = 't' then some (.boolean true)
  else if c = 'f' then some (.boolean false)
  else if c = '"' then some .string
  else if c = '[' then some .array
  else if c = '\x7b' then some .object
  else if c.isDigit || c == '-' then some .number
  else none

/-- Numbers start with a digit or their sign. -/
theorem ofHead?_number {c : Char} (hc : c.isDigit = true ∨ c = '-') :
    Kind.ofHead? c = some .number := by
  obtain hc | rfl := hc
  · have hne {d : Char} (hd : d.isDigit = false) : c ≠ d := by
      rintro rfl
      rw [hc] at hd
      cases hd
    rw [Kind.ofHead?, if_neg (hne (by decide)), if_neg (hne (by decide)), if_neg (hne (by decide)),
      if_neg (hne (by decide)), if_neg (hne (by decide)), if_neg (hne (by decide)),
      if_pos (by simp [hc])]
  · decide

namespace WritesCompactly

variable {v w : Json}

/-- An integer and a float are numbers. -/
theorem isNumber (hwrite : WritesCompactly write) (h : v.IsEncodable)
    (hkind : v.kind = .number) : IsNumber (chars write v) := by
  cases h with
  | @integer n => exact isNumber_of_integerNumeral (hwrite.integer n)
  | @float x h => exact (hwrite.float x h).isNumber
  | _ => cases hkind

/-- A number is determined by its text, and so is whether it is a float. -/
theorem number_eq (hwrite : WritesCompactly write) (hv : v.IsEncodable) (hw : w.IsEncodable)
    (hkind : v.kind = .number) (hkind' : w.kind = .number) (h : chars write v = chars write w) :
    v = w := by
  rw [chars, chars] at h
  cases hv with
  | @integer m =>
    have hm := hwrite.integer m
    rw [h] at hm
    cases hw with
    | @integer n => rw [hm.eq (hwrite.integer n)]
    | @float y hy => exact absurd (hwrite.float y hy) (IsFloatText.not_integerNumeral hm)
    | _ => cases hkind'
  | @float x hx =>
    have hfloat := hwrite.float x hx
    rw [h] at hfloat
    cases hw with
    | @integer n => exact absurd hfloat (IsFloatText.not_integerNumeral (hwrite.integer n))
    | @float y hy => rw [hfloat.eq (hwrite.float y hy)]
    | _ => cases hkind'
  | _ => cases hkind

/-- The first character of a value tells its kind. -/
theorem exists_head (hwrite : WritesCompactly write) {value : Json} (h : value.IsEncodable) :
    ∃ c cs, chars write value = c :: cs ∧ Kind.ofHead? c = some value.kind := by
  cases h with
  | null => exact ⟨'n', "ull".toList, by rw [chars, hwrite.null]; decide, by decide⟩
  | @boolean b =>
    rw [chars, hwrite.boolean]
    cases b with
    | true => exact ⟨'t', "rue".toList, by decide, by decide⟩
    | false => exact ⟨'f', "alse".toList, by decide, by decide⟩
  | @integer n =>
    obtain ⟨c, cs, htext, hc⟩ := (hwrite.isNumber (v := .integer n.toInt) .integer rfl).head
    exact ⟨c, cs, htext, ofHead?_number hc⟩
  | @float x h =>
    obtain ⟨c, cs, htext, hc⟩ := (hwrite.isNumber (.float h) rfl).head
    exact ⟨c, cs, htext, ofHead?_number hc⟩
  | @string s =>
    obtain ⟨quoted, htext, -⟩ := hwrite.string s
    exact ⟨'"', quoted, htext, rfl⟩
  | @array items => exact ⟨'[', _, hwrite.chars_array items, rfl⟩
  | @object members => exact ⟨'\x7b', _, hwrite.chars_object members, rfl⟩

/-- Values that start alike are of one kind. -/
theorem kind_eq (hwrite : WritesCompactly write) (hv : v.IsEncodable)
    (hw : w.IsEncodable) (h : chars write v ++ rest = chars write w ++ rest') :
    v.kind = w.kind := by
  obtain ⟨c, cs, htext, hc⟩ := hwrite.exists_head hv
  obtain ⟨d, ds, htext', hd⟩ := hwrite.exists_head hw
  rw [htext, htext'] at h
  obtain ⟨rfl, -⟩ := List.cons.inj h
  rw [hc] at hd
  exact Option.some.inj hd

end WritesCompactly

/-! ## unique readability -/

section

variable {α : Type}

/-- Each of the two items can be told from what follows it. -/
def Separable (text : α → List Char) (a b : α) : Prop :=
  ∀ {rest rest' : List Char}, EndsNumbers rest → EndsNumbers rest' →
    text a ++ rest = text b ++ rest' → a = b ∧ rest = rest'

variable {close : Char} {text : α → List Char} {as bs : List α}

/-- Behind an item stands no part of a number. -/
theorem endsNumbers_followingChars (hclose : isNumberPart close = false) (as : List α)
    (rest : List Char) : EndsNumbers (followingChars close text as ++ rest) := by
  intro c hc
  cases as with
  | nil =>
    cases hc
    exact hclose
  | cons a as =>
    cases hc
    decide

/-- Further items can be told from what follows the bracket that closes them. -/
theorem eq_of_followingChars (hclose : isNumberPart close = false) (hcomma : close ≠ ',')
    (hitems : ∀ a ∈ as, ∀ b ∈ bs, Separable text a b)
    (h : followingChars close text as ++ rest = followingChars close text bs ++ rest') :
    as = bs ∧ rest = rest' := by
  induction as generalizing bs with
  | nil =>
    cases bs with
    | nil => exact ⟨rfl, (List.cons.inj h).2⟩
    | cons b bs => exact absurd (List.cons.inj h).1 hcomma
  | cons a as ih =>
    cases bs with
    | nil => exact absurd (List.cons.inj h).1.symm hcomma
    | cons b bs =>
      have hends (as : List α) (rest : List Char) :
          EndsNumbers (followingChars close text as ++ rest) :=
        endsNumbers_followingChars hclose as rest
      have htail : text a ++ followingChars close text as ++ rest =
          text b ++ followingChars close text bs ++ rest' := (List.cons.inj h).2
      rw [List.append_assoc, List.append_assoc] at htail
      obtain ⟨rfl, hothers⟩ := hitems a List.mem_cons_self b List.mem_cons_self (hends as rest)
        (hends bs rest') htail
      obtain ⟨rfl, hrest⟩ := ih (fun a ha b hb => hitems a (List.mem_cons_of_mem _ ha) b
        (List.mem_cons_of_mem _ hb)) hothers
      exact ⟨rfl, hrest⟩

/-- Items can be told from what follows the bracket that closes them. -/
theorem eq_of_bracketedChars (hclose : isNumberPart close = false) (hcomma : close ≠ ',')
    (hitems : ∀ a ∈ as, ∀ b ∈ bs, Separable text a b)
    (hhead : ∀ a, a ∈ as ∨ a ∈ bs → ∃ c cs, text a = c :: cs ∧ c ≠ close)
    (h : bracketedChars close text as ++ rest = bracketedChars close text bs ++ rest') :
    as = bs ∧ rest = rest' := by
  cases as with
  | nil =>
    cases bs with
    | nil => exact ⟨rfl, (List.cons.inj h).2⟩
    | cons b bs =>
      obtain ⟨c, cs, hchars, hc⟩ := hhead b (.inr List.mem_cons_self)
      rw [bracketedChars, bracketedChars, hchars] at h
      exact absurd (List.cons.inj h).1.symm hc
  | cons a as =>
    cases bs with
    | nil =>
      obtain ⟨c, cs, hchars, hc⟩ := hhead a (.inl List.mem_cons_self)
      rw [bracketedChars, bracketedChars, hchars] at h
      exact absurd (List.cons.inj h).1 hc
    | cons b bs =>
      -- With a comma in front of them these are further items.
      have hfollowing : followingChars close text (a :: as) ++ rest =
          followingChars close text (b :: bs) ++ rest' := congrArg (',' :: ·) h
      exact eq_of_followingChars hclose hcomma hitems hfollowing

end

/-- A number can be told from what follows it. -/
theorem WritesCompactly.separable_number (hwrite : WritesCompactly write) {v w : Json}
    (hv : v.IsEncodable) (hw : w.IsEncodable) (hkind : v.kind = .number)
    (hkind' : w.kind = .number) : Separable (chars write) v w := by
  intro rest rest' hrest hrest' h
  obtain ⟨htext, hsame⟩ := (hwrite.isNumber hv hkind).eq_of_append (hwrite.isNumber hw hkind')
    hrest hrest' h
  exact ⟨hwrite.number_eq hv hw hkind hkind' htext, hsame⟩

/-- A member can be told from what follows it if its value can. -/
theorem WritesCompactly.separable_memberChars (hwrite : WritesCompactly write)
    {m n : String × Json} (h : Separable (chars write) m.2 n.2) :
    Separable (memberChars write) m n := by
  obtain ⟨name, v⟩ := m
  obtain ⟨name', w⟩ := n
  intro rest rest' hrest hrest' hchars
  simp only [memberChars, List.append_assoc, List.cons_append] at hchars
  obtain ⟨rfl, hvalue⟩ := (hwrite.string name).eq_of_append (hwrite.string name') hchars
  obtain ⟨rfl, hsame⟩ := h hrest hrest' (List.cons.inj hvalue).2
  exact ⟨rfl, hsame⟩

/-- **A value can be told from what follows it**, unless that prolongs a number. -/
theorem WritesCompactly.separable (hwrite : WritesCompactly write) {v w : Json}
    (hv : v.IsEncodable) (hw : w.IsEncodable) :
    Separable (chars write) v w := by
  intro rest rest' hrest hrest' h
  have hkind := hwrite.kind_eq hv hw h
  induction hv generalizing w rest rest' with
  | null =>
    cases hw with
    | null => exact ⟨rfl, List.append_cancel_left h⟩
    | _ => cases hkind
  | boolean =>
    cases hw with
    | boolean =>
      cases hkind
      exact ⟨rfl, List.append_cancel_left h⟩
    | _ => cases hkind
  | integer =>
    exact hwrite.separable_number .integer hw rfl hkind.symm hrest hrest' h
  | float hx =>
    exact hwrite.separable_number (.float hx) hw rfl hkind.symm hrest hrest' h
  | @string s =>
    cases hw with
    | @string t =>
      obtain ⟨rfl, hsame⟩ := (hwrite.string s).eq_of_append (hwrite.string t) h
      exact ⟨rfl, hsame⟩
    | _ => cases hkind
  | @array items hitems ih =>
    cases hw with
    | @array items' hitems' =>
      rw [hwrite.chars_array, hwrite.chars_array] at h
      have hseparable : ∀ a ∈ items, ∀ b ∈ items',
          Separable (chars write) a b :=
        fun a ha b hb _ _ hrest hrest' h =>
          ih a ha (hitems' b hb) hrest hrest' h (hwrite.kind_eq (hitems a ha) (hitems' b hb) h)
      have hhead : ∀ a, a ∈ items ∨ a ∈ items' →
          ∃ c cs, chars write a = c :: cs ∧ c ≠ ']' := by
        intro a ha
        obtain ⟨c, cs, htext, hc⟩ := hwrite.exists_head (ha.elim (hitems a) (hitems' a))
        refine ⟨c, cs, htext, ?_⟩
        rintro rfl
        cases hc
      obtain ⟨rfl, hsame⟩ := eq_of_bracketedChars (by decide) (by decide) hseparable hhead
        (List.cons.inj h).2
      exact ⟨rfl, hsame⟩
    | _ => cases hkind
  | @object members hmembers ih =>
    cases hw with
    | @object members' hmembers' =>
      rw [hwrite.chars_object, hwrite.chars_object] at h
      have hseparable : ∀ m ∈ members, ∀ n ∈ members', Separable (memberChars write) m n :=
        fun m hm n hn => hwrite.separable_memberChars fun hrest hrest' h =>
          ih m hm (hmembers' n hn) hrest hrest' h
            (hwrite.kind_eq (hmembers m hm) (hmembers' n hn) h)
      have hhead : ∀ m, m ∈ members ∨ m ∈ members' →
          ∃ c cs, memberChars write m = c :: cs ∧ c ≠ '\x7d' := by
        intro m _
        obtain ⟨quoted, htext, -⟩ := hwrite.string m.1
        exact ⟨'"', _, by rw [memberChars, chars, htext, List.cons_append], by decide⟩
      obtain ⟨rfl, hsame⟩ := eq_of_bracketedChars (by decide) (by decide) hseparable hhead
        (List.cons.inj h).2
      exact ⟨rfl, hsame⟩
    | _ => cases hkind

/-- The compact text of a value determines the value. -/
theorem WritesCompactly.eq_of_write (hwrite : WritesCompactly write) {v w : Json}
    (hv : v.IsEncodable) (hw : w.IsEncodable) (h : write v = write w) : v = w := by
  have htext : chars write v ++ [] = chars write w ++ [] := by rw [chars, chars, h]
  have hend : EndsNumbers [] := by
    intro c hc
    cases hc
  exact (hwrite.separable hv hw hend hend htext).1

end Json

end FilterQuery
