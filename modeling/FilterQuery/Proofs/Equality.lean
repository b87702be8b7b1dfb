import FilterQuery.Proofs.Provenance

/-!
# FilterQuery.Proofs.Equality

When two accepted predicates are equal, read off their canonical texts.  The text of a
predicate belongs to no other one (`Predicate.text_inj`), since it reads back.  Equality
of predicates identifies the two zeros and is the identity otherwise
(`Predicate.equals_iff`), while the texts `0.0` and `-0.0` differ.  So predicates are
equal when their texts are the same but for the signs of zeros.
-/

namespace FilterQuery

/-! ## zeros without a sign -/

/-- The same number, but zero without its sign. -/
def Binary64.unsignedZero (x : Binary64) : Binary64 :=
  if x.magnitude.val = 0 then ⟨false, x.magnitude⟩ else x

/-- The same value, but zero without its sign. -/
def Literal.unsignedZero : Literal → Literal
  | .number (.float x) => .number (.float x.unsignedZero)
  | value => value

/-- The same predicate, but every zero without its sign. -/
def Predicate.unsignedZeros : Predicate → Predicate
  | comparison field relation value => comparison field relation value.unsignedZero
  | logical connective left right =>
    logical connective left.unsignedZeros right.unsignedZeros

/-- A sign is not what makes a number infinite. -/
@[simp] theorem Binary64.isFinite_unsignedZero (x : Binary64) :
    x.unsignedZero.isFinite = x.isFinite := by
  unfold unsignedZero
  split <;> rfl

/-- What is finite stays finite. -/
@[simp] theorem Literal.isFinite_unsignedZero (value : Literal) :
    value.unsignedZero.isFinite = value.isFinite := by
  cases value with
  | number n =>
    cases n with
    | integer m => rfl
    | float x => exact x.isFinite_unsignedZero
  | _ => rfl

/-- What can be written can be written without the signs of zeros. -/
@[simp] theorem Predicate.wellFormed_unsignedZeros (p : Predicate) :
    p.unsignedZeros.wellFormed = p.wellFormed := by
  induction p with
  | comparison field relation value => simp [unsignedZeros, wellFormed]
  | logical connective left right ihl ihr => simp [unsignedZeros, wellFormed, ihl, ihr]

/-! ## equality -/

/-- Finite numbers are equal as numbers if they differ at most in the sign of zero. -/
theorem Binary64.equals_iff {x y : Binary64} (hx : x.isFinite = true) (hy : y.isFinite = true) :
    x.equals y = true ↔ x.unsignedZero = y.unsignedZero := by
  simp only [equals, isNaN_of_isFinite hx, isNaN_of_isFinite hy, unsignedZero]
  obtain ⟨negative, m⟩ := x
  obtain ⟨negative', n⟩ := y
  by_cases hm : m.val = 0 <;> by_cases hn : n.val = 0
  · have heq : m = n := Fin.ext (hm.trans hn.symm)
    simp [heq, hn]
  · have hne : m ≠ n := fun heq => hn (heq ▸ hm)
    simp [hm, hn, hne]
  · have hne : m ≠ n := fun heq => hm (heq ▸ hn)
    simp [hm, hn, hne]
  · simp [hm, hn]

/-- Values are equal if they differ at most in the sign of zero. -/
theorem Literal.equals_iff {v w : Literal} (hv : v.isFinite = true) (hw : w.isFinite = true) :
    v.equals w = true ↔ v.unsignedZero = w.unsignedZero := by
  cases v with
  | number m =>
    cases w with
    | number n =>
      cases m <;> cases n
      · simp [equals, Number.equals, unsignedZero]
      · simp [equals, Number.equals, unsignedZero]
      · simp [equals, Number.equals, unsignedZero]
      · simpa [equals, Number.equals, unsignedZero] using Binary64.equals_iff hv hw
    | _ => cases m <;> simp [equals, unsignedZero]
  | _ =>
    cases w with
    | number n => cases n <;> simp [equals, unsignedZero]
    | _ => simp [equals, unsignedZero]

/-- Predicates are equal if they differ at most in the signs of zeros. -/
theorem Predicate.equals_iff {p q : Predicate} (hp : p.wellFormed = true)
    (hq : q.wellFormed = true) : p.equals q = true ↔ p.unsignedZeros = q.unsignedZeros := by
  induction p generalizing q with
  | comparison field relation value =>
    cases q with
    | comparison field' relation' value' =>
      have hvalue := (Bool.and_eq_true_iff.mp hp).2
      have hvalue' := (Bool.and_eq_true_iff.mp hq).2
      simp [equals, unsignedZeros, Literal.equals_iff hvalue hvalue', and_assoc]
    | logical => simp [equals, unsignedZeros]
  | logical connective left right ihl ihr =>
    cases q with
    | comparison => simp [equals, unsignedZeros]
    | logical connective' left' right' =>
      obtain ⟨hleft, hright⟩ := Bool.and_eq_true_iff.mp hp
      obtain ⟨hleft', hright'⟩ := Bool.and_eq_true_iff.mp hq
      simp [equals, unsignedZeros, ihl hleft hleft', ihr hright hright', and_assoc]

/-! ## texts -/

namespace Predicate

/-- Without restrictions the canonical text reads back. -/
theorem parse_unrestricted_text {p : Predicate} (hp : p.wellFormed = true) :
    Policy.unrestricted.parse p.text = .ok p := by
  have hreads : Reads false p.text.toList (p.written.map Token.content) := by
    simpa using p.reads_text hp (fun c hc => by cases hc) (.nil false)
  exact Parse.parse_unrestricted_iff.mpr ⟨p.written, hreads, (derives_written hp).toExpression⟩

/-- No two predicates have the same text. -/
theorem text_inj {p q : Predicate} (hp : p.wellFormed = true) (hq : q.wellFormed = true) :
    p.text = q.text ↔ p = q := by
  refine ⟨fun htext => ?_, congrArg text⟩
  have hparse := parse_unrestricted_text hp
  rw [htext, parse_unrestricted_text hq] at hparse
  exact (Except.ok.inj hparse).symm

/-- The two zeros are equal, and so are these predicates, but their texts differ. -/
theorem exists_equals_text_ne :
    ∃ p q, Policy.standard.parse "x:0.0" = .ok p ∧ Policy.standard.parse "x:-0.0" = .ok q ∧
      p.equals q = true ∧ p.text ≠ q.text := by
  let zero : Predicate := .comparison "x" .equal (.number (.float (.ofBits 0)))
  let negativeZero : Predicate :=
    .comparison "x" .equal (.number (.float (.ofBits 0x8000000000000000)))
  have hzero : Policy.standard.parse "x:0.0" = .ok zero := eq_ok_of_toOption (by decide +kernel)
  have hnegative : Policy.standard.parse "x:-0.0" = .ok negativeZero :=
    eq_ok_of_toOption (by decide +kernel)
  exact ⟨zero, negativeZero, hzero, hnegative, by decide +kernel, by decide +kernel⟩

/-- **The canonical text decides equality, up to the signs of zeros**: two accepted
predicates have the same text only if they are the same, and they are equal exactly if
their texts agree once every negative zero is written `0.0`.  Where there is none, the
texts themselves decide. -/
theorem equals_iff_text {policy policy' : Policy} {source source' : String} {p q : Predicate}
    (hp : policy.parse source = .ok p) (hq : policy'.parse source' = .ok q) :
    (p.text = q.text ↔ p = q) ∧
      (p.equals q = true ↔ p.unsignedZeros.text = q.unsignedZeros.text) ∧
      (p.unsignedZeros = p → q.unsignedZeros = q → (p.equals q = true ↔ p.text = q.text)) := by
  have hp := wellFormed_of_parse hp
  have hq := wellFormed_of_parse hq
  have hequals : p.equals q = true ↔ p.unsignedZeros.text = q.unsignedZeros.text := by
    rw [equals_iff hp hq, text_inj (by simpa using hp) (by simpa using hq)]
  refine ⟨text_inj hp hq, hequals, fun hzero hzero' => ?_⟩
  rw [hequals, hzero, hzero']

/-- Two spellings of one query but for the sign of a zero. -/
theorem equals_iff_text_spelling :
    let x : Binary64 := .ofBits 0x8000000000000000
    let y : Binary64 := .ofBits 0
    let tree (z : Binary64) : Predicate := .logical .and (.comparison "a" .equal (.string "x"))
      (.comparison "b" .greater (.number (.float z)))
    Policy.standard.parse "(a:=\"x\" and b>-0.00)" = .ok (tree x) ∧
      Policy.unrestricted.parse "a:x AND b>0.0" = .ok (tree y) ∧
      ((tree x).equals (tree y) = true ↔
        (tree x).unsignedZeros.text = (tree y).unsignedZeros.text) ∧
      ((tree y).equals (tree y) = true ↔ (tree y).text = (tree y).text) := by
  intro x y tree
  have hx : Policy.standard.parse "(a:=\"x\" and b>-0.00)" = .ok (tree x) :=
    eq_ok_of_toOption (by decide +kernel)
  have hy : Policy.unrestricted.parse "a:x AND b>0.0" = .ok (tree y) :=
    eq_ok_of_toOption (by decide +kernel)
  have hzero : (tree y).unsignedZeros = tree y := by decide +kernel
  exact ⟨hx, hy, (equals_iff_text hx hy).2.1, (equals_iff_text hy hy).2.2 hzero hzero⟩

end Predicate

end FilterQuery
