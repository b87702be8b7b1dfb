import FilterQuery.Proofs.ByteOrder
import FilterQuery.Proofs.LetterCase
import FilterQuery.Proofs.Provenance

/-!
# FilterQuery.Proofs.Reachable

Which names of a set of allowed fields no query can mention.  Those that are not
identifiers are listed, in the order of their bytes; but a reserved word is an identifier
and yet never a field, and it is not listed.

* `exists_scan_of_isFieldName`, `parse_of_isFieldName` — a name that may be mentioned is a
  query's field, and a policy that allows it accepts such a query;
* `FieldSet.isFieldName_eq_false_iff` — the other names are those listed and the reserved
  words;
* `FieldSet.mem_unreachable_or_reserved_iff` — so these are the names without a query.
-/

namespace FilterQuery

open Token Parse

variable {name : String} {fields : FieldSet}

/-! ## queries for a name -/

/-- A name that may be mentioned is a query of one field. -/
theorem exists_scan_of_isFieldName (h : isFieldName name = true) :
    ∃ source stream, TokenStream.scan source = .ok stream ∧
      ∃ t ∈ stream.tokens, t.kind = .field ∧ t.text = name := by
  obtain ⟨stream, hscan, hcontents⟩ := TokenStream.reads_iff.mp (reads_field h)
  have hmem : (Kind.field, name) ∈ stream.tokens.map content := by simp [hcontents]
  obtain ⟨t, ht, hcontent⟩ := List.mem_map.mp hmem
  exact ⟨name, stream, hscan, t, ht, congrArg Prod.fst hcontent, congrArg Prod.snd hcontent⟩

/-- Where such a name is allowed, a query that mentions it is accepted, whatever the limits
are. -/
theorem parse_of_isFieldName {policy : Policy} (h : isFieldName name = true)
    (hallowed : policy.allows name = true) :
    ∃ source p, policy.parse source = .ok p ∧ name ∈ p.fields := by
  let p : Predicate := .comparison name .equal .null
  have hp : p.wellFormed = true := by simp [p, Predicate.wellFormed, h, Literal.isFinite]
  have hreads : Reads false p.text.toList (p.written.map content) := by
    simpa using p.reads_text hp (fun c hc => by cases hc) (.nil false)
  obtain ⟨stream, hscan, hcontents⟩ := TokenStream.reads_iff.mp hreads
  have hderives : Derives .expression stream.tokens p :=
    (Predicate.derives_written hp).toExpression.of_contents_eq hcontents
  have hnesting : stream.nesting = 0 := nestingFrom_congr hcontents 0
  have hparse : policy.parseTokens stream = .ok p := parseTokens_restricted_iff.mpr
    ⟨parseTokens_of_derives hderives, fun limit _ => hnesting ▸ Nat.zero_le limit,
      Policy.admits_comparison.mpr hallowed⟩
  exact ⟨p.text, p, parse_eq_ok_iff.mpr ⟨stream, hscan, hparse⟩,
    Predicate.mem_fields_comparison.mpr rfl⟩

/-- A field of an accepted query has a name that may be mentioned. -/
theorem isFieldName_of_parse {policy : Policy} {source : String} {p : Predicate}
    (h : policy.parse source = .ok p) (hname : name ∈ p.fields) : isFieldName name = true := by
  obtain ⟨relation, value, hmem⟩ := Predicate.mem_fields_iff.mp hname
  exact (Predicate.wellFormed_iff.mp (wellFormed_of_parse h) _ _ _ hmem).1

/-- No query has such a name as a field if and only if it may not be mentioned. -/
theorem isFieldName_eq_false_iff_scan :
    isFieldName name = false ↔ ∀ source stream, TokenStream.scan source = .ok stream →
      ∀ t ∈ stream.tokens, t.kind = .field → t.text ≠ name := by
  constructor
  · intro h source stream hscan t ht hfield hname
    rw [← hname, isFieldName_of_scan hscan ht hfield] at h
    cases h
  · intro h
    refine Bool.not_eq_true _ ▸ fun hname => ?_
    obtain ⟨source, stream, hscan, t, ht, hfield, htext⟩ := exists_scan_of_isFieldName hname
    exact h source stream hscan t ht hfield htext

/-- No accepted query mentions such a name if and only if it may not be mentioned, given
that the policy allows it. -/
theorem isFieldName_eq_false_iff_parse {policy : Policy} (hallowed : policy.allows name = true) :
    isFieldName name = false ↔
      ∀ source p, policy.parse source = .ok p → name ∉ p.fields := by
  constructor
  · intro h source p hparse hname
    rw [isFieldName_of_parse hparse hname] at h
    cases h
  · intro h
    refine Bool.not_eq_true _ ▸ fun hname => ?_
    obtain ⟨source, p, hparse, hmem⟩ := parse_of_isFieldName hname hallowed
    exact h source p hparse hmem

/-! ## reserved words -/

/-- The name spells a reserved word. -/
def Reserved (name : String) : Prop :=
  ∃ reserved ∈ reservedWords, Text.spells reserved name.toList = true

/-- Letter case does not matter for identifiers. -/
theorem isIdentifier_lowerCase (cs : List Char) :
    isIdentifier (Text.lowerCase cs) = isIdentifier cs := by
  cases cs with
  | nil => rfl
  | cons c cs => simp [isIdentifier, Text.lowerCase, List.all_map, Function.comp_def]

/-- A reserved word is an identifier. -/
theorem isIdentifier_of_reserved (h : Reserved name) : isIdentifier name.toList = true := by
  obtain ⟨reserved, hmem, hspells⟩ := h
  have hreserved : ∀ reserved ∈ reservedWords, isIdentifier reserved.toList = true := by
    decide +kernel
  rw [← isIdentifier_lowerCase, eq_of_beq hspells]
  exact hreserved reserved hmem

/-! ## what is listed -/

namespace FieldSet

/-- The names of a set that may not be mentioned are those listed and the reserved
words. -/
theorem isFieldName_eq_false_iff (hname : name ∈ fields) :
    isFieldName name = false ↔ name ∈ unreachable fields ∨ Reserved name := by
  rw [mem_unreachable, and_iff_right hname, isFieldName, Bool.and_eq_false_iff,
    Bool.not_eq_false', List.any_eq_true]
  rfl

/-- The names are listed in the order of their bytes. -/
theorem pairwise_unreachable (fields : FieldSet) :
    (unreachable fields).Pairwise fun a b => Text.utf8 a < Text.utf8 b :=
  fields.pairwise_utf8.filter _

/-- **What is listed cannot be mentioned, and only reserved words are missing**: a name of
the set is no field of any query, nor of any predicate that is accepted where the set is
allowed, if and only if it is listed or spells a reserved word.  A reserved word is never
listed.  What is listed is in the set, each name once and in the order of the bytes. -/
theorem mem_unreachable_or_reserved_iff (fields : FieldSet) :
    (∀ name ∈ fields,
      (name ∈ unreachable fields ∨ Reserved name ↔
        ∀ source stream, TokenStream.scan source = .ok stream →
          ∀ t ∈ stream.tokens, t.kind = .field → t.text ≠ name) ∧
      (∀ policy : Policy, policy.allowed = some fields →
        (name ∈ unreachable fields ∨ Reserved name ↔
          ∀ source p, policy.parse source = .ok p → name ∉ p.fields)) ∧
      (Reserved name → name ∉ unreachable fields)) ∧
    (∀ name ∈ unreachable fields, name ∈ fields) ∧
    (unreachable fields).Pairwise fun a b => Text.utf8 a < Text.utf8 b := by
  refine ⟨fun name hname => ⟨?_, fun policy hallowed => ?_, fun hreserved hlisted => ?_⟩,
    fun name hlisted => (mem_unreachable.mp hlisted).1, pairwise_unreachable fields⟩
  · rw [← isFieldName_eq_false_iff hname, isFieldName_eq_false_iff_scan]
  · have hallows : policy.allows name = true := by
      rw [Policy.allows_iff, hallowed]
      simpa using hname
    rw [← isFieldName_eq_false_iff hname, isFieldName_eq_false_iff_parse hallows]
  · have hidentifier := (mem_unreachable.mp hlisted).2
    rw [isIdentifier_of_reserved hreserved] at hidentifier
    cases hidentifier

/-- A name with a sign in it is listed; a reserved word in capitals is not. -/
theorem mem_unreachable_or_reserved_iff_mixed :
    let fields := ofNames ["user-name", "AND", "id"]
    "user-name" ∈ fields ∧ "AND" ∈ fields ∧
      (∀ source stream, TokenStream.scan source = .ok stream →
        ∀ t ∈ stream.tokens, t.kind = .field → t.text ≠ "user-name") ∧
      (∀ source p, { Policy.standard with allowed := some fields }.parse source = .ok p →
        "AND" ∉ p.fields) ∧
      "AND" ∉ unreachable fields := by
  intro fields
  have hsign : "user-name" ∈ fields := by simp [fields]
  have hand : "AND" ∈ fields := by simp [fields]
  have hreserved : Reserved "AND" := ⟨"and", by decide, by decide⟩
  have hlisted : "user-name" ∈ unreachable fields :=
    mem_unreachable.mpr ⟨hsign, by decide⟩
  obtain ⟨hnames, -⟩ := mem_unreachable_or_reserved_iff fields
  obtain ⟨hscan, -⟩ := hnames "user-name" hsign
  obtain ⟨-, hparse, hmissing⟩ := hnames "AND" hand
  exact ⟨hsign, hand, hscan.mp (.inl hlisted), (hparse _ rfl).mp (.inr hreserved),
    hmissing hreserved⟩

/-- So what is listed is not all that cannot be mentioned. -/
theorem exists_missing_unreachable :
    let fields := ofNames ["and"]
    "and" ∈ fields ∧ "and" ∉ unreachable fields ∧
      ∀ source stream, TokenStream.scan source = .ok stream →
        ∀ t ∈ stream.tokens, t.kind = .field → t.text ≠ "and" := by
  intro fields
  have hand : "and" ∈ fields := by simp [fields]
  refine ⟨hand, fun hlisted => ?_, isFieldName_eq_false_iff_scan.mp (by decide)⟩
  have hidentifier := (mem_unreachable.mp hlisted).2
  exact absurd hidentifier (by decide)

end FieldSet

end FilterQuery
