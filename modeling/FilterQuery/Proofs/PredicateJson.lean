import FilterQuery.Predicate.Json
import FilterQuery.Proofs.JsonText
import FilterQuery.Proofs.RoundTrip

/-!
# FilterQuery.Proofs.PredicateJson

The JSON form of a predicate loses no information: predicates that differ have
different forms (`Predicate.toJson_injective`), and these have different texts, whoever
writes them by the laws (`Json.WritesCompactly.eq_of_write`).  A number does not carry its
form as a name, but integers and floats are written differently; and the value null is
written as a string, but other strings are members of an object.
-/

namespace FilterQuery

/-! ## parts -/

/-- Relations have different names. -/
theorem Relation.code_injective {r s : Relation} (h : r.code = s.code) : r = s := by
  revert h
  cases r <;> cases s <;> decide

/-- Connectives have different names. -/
theorem Connective.code_injective {k l : Connective} (h : k.code = l.code) : k = l := by
  revert h
  cases k <;> cases l <;> decide

/-- Numbers keep their form in JSON. -/
theorem Number.toJson_injective {m n : Number} (h : m.toJson = n.toJson) : m = n := by
  cases m with
  | integer m =>
    cases n with
    | integer n => rw [Int64.toInt_inj.mp (Json.integer.inj h)]
    | float y => cases h
  | float x =>
    cases n with
    | integer n => cases h
    | float y => rw [Json.float.inj h]

/-- A finite number can be written. -/
theorem Number.isEncodable_toJson {n : Number} (h : n.isFinite = true) :
    n.toJson.IsEncodable := by
  cases n with
  | integer n => exact .integer
  | float x => exact .float h

/-- A value with a finite number, or without any, can be written. -/
theorem Literal.isEncodable_toJson {value : Literal} (h : value.isFinite = true) :
    value.toJson.IsEncodable := by
  have hmember {name : String} {json : Json} (hjson : json.IsEncodable) :
      (Json.object [(name, json)]).IsEncodable := .object (List.forall_mem_singleton.mpr hjson)
  cases value with
  | string s => exact hmember .string
  | number n => exact hmember (Number.isEncodable_toJson h)
  | boolean b => exact hmember .boolean
  | null => exact .string

/-- Values have different forms in JSON. -/
theorem Literal.toJson_injective {v w : Literal} (h : v.toJson = w.toJson) : v = w := by
  cases v with
  | string s =>
    cases w with
    | string t => simpa [toJson] using h
    | _ => simp [toJson] at h
  | number m =>
    cases w with
    | number n =>
      have hnumber : m.toJson = n.toJson := by simpa [toJson] using h
      rw [Number.toJson_injective hnumber]
    | _ => simp [toJson] at h
  | boolean b =>
    cases w with
    | boolean c => simpa [toJson] using h
    | _ => simp [toJson] at h
  | null =>
    cases w with
    | null => rfl
    | _ => simp [toJson] at h

/-! ## predicates -/

namespace Predicate

/-- Are all floats of the predicate finite? -/
def isFinite : Predicate → Bool
  | comparison _ _ value => value.isFinite
  | logical _ left right => left.isFinite && right.isFinite

/-- Predicates have different forms in JSON. -/
theorem toJson_injective {p q : Predicate} (h : p.toJson = q.toJson) : p = q := by
  induction p generalizing q with
  | comparison field relation value =>
    cases q with
    | comparison field' relation' value' =>
      obtain ⟨rfl, hrelation, hvalue⟩ : field = field' ∧ relation.code = relation'.code ∧
          value.toJson = value'.toJson := by
        simpa [toJson] using h
      rw [Relation.code_injective hrelation, Literal.toJson_injective hvalue]
    | logical => simp [toJson] at h
  | logical connective left right ihleft ihright =>
    cases q with
    | comparison => simp [toJson] at h
    | logical connective' left' right' =>
      obtain ⟨hconnective, hleft, hright⟩ : connective.code = connective'.code ∧
          left.toJson = left'.toJson ∧ right.toJson = right'.toJson := by
        simpa [toJson] using h
      rw [Connective.code_injective hconnective, ihleft hleft, ihright hright]

/-- A predicate with finite floats can be written. -/
theorem isEncodable_toJson {p : Predicate} (h : p.isFinite = true) : p.toJson.IsEncodable := by
  have hmembers {kind : String} {members : List (String × Json)}
      (hall : ∀ member ∈ members, member.2.IsEncodable) :
      (Json.object [(kind, .object members)]).IsEncodable :=
    .object (List.forall_mem_singleton.mpr (.object hall))
  induction p with
  | comparison field relation value =>
    exact hmembers (by simp [Json.IsEncodable.string, Literal.isEncodable_toJson h])
  | logical connective left right ihleft ihright =>
    obtain ⟨hleft, hright⟩ := Bool.and_eq_true_iff.mp h
    exact hmembers (by simp [Json.IsEncodable.string, ihleft hleft, ihright hright])

/-- **The JSON form of a predicate loses no information.**  Whoever writes compact texts by
the laws, predicates whose floats are finite have different texts if they differ at all, be
it in the form of a number or in the sign of a zero. -/
theorem eq_of_compact_toJson {write : Json → String} (hwrite : Json.WritesCompactly write)
    {p q : Predicate} (hp : p.isFinite = true) (hq : q.isFinite = true)
    (h : write p.toJson = write q.toJson) : p = q :=
  toJson_injective (hwrite.eq_of_write (isEncodable_toJson hp) (isEncodable_toJson hq) h)

/-- The text of `a:1.0` is that of a float, and not that of an integer. -/
theorem eq_of_compact_toJson_forms :
    let one : Predicate := .comparison "a" .equal (.number (.float (.ofBits 0x3FF0000000000000)))
    let read : Predicate := .comparison "a" .equal (.ofUnquoted "1.0")
    let integer : Predicate := .comparison "a" .equal (.number (.integer 1))
    Json.WritesCompactly Json.compact ∧ one.toJson.compact =
        "\x7b\"comparison\":\x7b\"field\":\"a\",\"op\":\"eq\"," ++
          "\"value\":\x7b\"number\":1.0\x7d\x7d\x7d" ∧
      read.toJson.compact = one.toJson.compact ∧ read = one ∧
      integer.toJson.compact ≠ one.toJson.compact := by
  intro one read integer
  have hone : one.isFinite = true := by decide
  have hread : read.isFinite = true := by decide +kernel
  have htext : read.toJson.compact = one.toJson.compact := by decide +kernel
  refine ⟨Json.writesCompactly_compact, by decide +kernel, htext,
    eq_of_compact_toJson Json.writesCompactly_compact hread hone htext, ?_⟩
  intro h
  have hsame : integer = one :=
    eq_of_compact_toJson Json.writesCompactly_compact rfl hone h
  exact absurd hsame (by decide)

end Predicate

end FilterQuery
