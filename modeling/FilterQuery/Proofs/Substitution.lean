import FilterQuery.Proofs.Leaves
import FilterQuery.Proofs.Recognition
import FilterQuery.Proofs.Scanning

/-!
# FilterQuery.Proofs.Substitution

What becomes of a query when one of its comparisons is replaced by another query
in parentheses: the comparison in its tree is replaced by the tree of the other
query, and nothing else changes.

A comparison of a text `Occurs` between two bytes.  The text may be cut there
(`Scans.split`), its tokens derive the same with any operand in that place
(`Derivation.exists_site`), and neither of the parentheses prolongs a token.
-/

namespace FilterQuery

open Token Parse

/-! ## replacing a part of a text -/

/-- The text with the bytes from `start` to `stop` replaced. -/
def Text.replaceBytes (start stop : Nat) (insertion cs : List Char) : List Char :=
  charsBefore start cs ++ insertion ++ cs.drop (charsBefore stop cs).length

/-- What stands before the part and behind it stays. -/
theorem Text.replaceBytes_append (front middle behind insertion : List Char) :
    replaceBytes (byteWidth front) (byteWidth (front ++ middle)) insertion
      (front ++ middle ++ behind) = front ++ insertion ++ behind := by
  have hstart : charsBefore (byteWidth front) (front ++ middle ++ behind) = front := by
    rw [List.append_assoc, charsBefore_byteWidth_append]
  rw [replaceBytes, hstart, charsBefore_byteWidth_append, List.drop_left]

/-! ## parentheses -/

variable {source inserted : String} {p q : Predicate}

/-- A query in parentheses means the same. -/
theorem Policy.parse_group (h : Policy.unrestricted.parse source = .ok p) :
    Policy.unrestricted.parse ("(" ++ source ++ ")") = .ok p := by
  obtain ⟨ts, hreads, hderives⟩ := parse_unrestricted_iff.mp h
  have hgroup : Reads false ("(" ++ source ++ ")").toList ((grouped ts).map content) := by
    simpa using reads_grouped hreads (.nil false)
  exact parse_unrestricted_iff.mpr
    ⟨_, hgroup, (derives_grouped hderives).toExpression⟩

/-- Two queries in parentheses may be joined by `AND`. -/
theorem Policy.parse_and_groups (hp : Policy.unrestricted.parse source = .ok p)
    (hq : Policy.unrestricted.parse inserted = .ok q) :
    Policy.unrestricted.parse ("(" ++ source ++ ") AND (" ++ inserted ++ ")") =
      .ok (.logical .and p q) := by
  obtain ⟨ts, htext, hts⟩ := parse_unrestricted_iff.mp hp
  obtain ⟨us, hinserted, hus⟩ := parse_unrestricted_iff.mp hq
  let keyword : Token := ⟨.keyword .and, "AND", 0⟩
  have hright : Reads false ('(' :: (inserted.toList ++ [')'])) ((grouped us).map content) := by
    simpa using reads_grouped hinserted (.nil false)
  have hreads : Reads false ("(" ++ source ++ ") AND (" ++ inserted ++ ")").toList
      ((grouped ts ++ keyword :: grouped us).map content) := by
    simpa [Connective.keyword, keyword, content] using reads_grouped htext (hright.keyword .and)
  have hderives : Derives .conjunction (grouped ts ++ keyword :: grouped us) (.logical .and p q) :=
    ((derives_grouped hts).promote _).snoc rfl (derives_grouped hus)
  exact parse_unrestricted_iff.mpr ⟨_, hreads, hderives.toExpression⟩

/-! ## comparisons of a text -/

/-- Comparison number `n` of a text, counted from the left, which denotes `leaf`,
goes from the first byte of its field to the end of its value. -/
inductive Occurs (cs : List Char) : Nat → Predicate → Nat → Nat → Prop
  | mk {before after : List Piece} {field operator value : Piece} {op : Operator} {quoted : Bool}
      (hscan : Scans false 0 cs (before ++ field :: operator :: value :: after))
      (hfield : field.token.kind = .field) (hoperator : operator.token.kind = .operator op)
      (hvalue : value.token.kind = .literal quoted) :
      Occurs cs (before.countP (·.token.isField))
        (.comparison field.token.text op.denoted (.denoted quoted value.token.text))
        field.token.position value.stop

/-- Behind a token that opens an operand no value is awaited, and a parenthesis
does not prolong it. -/
theorem behind_opensOperand {kind : Kind} (h : kind.opensOperand = true) :
    kind.awaitsValue = false ∧ kind.prolongedBy '(' = false := by
  cases kind with
  | openGroup => decide
  | keyword k => cases k <;> decide
  | _ => cases h

/-- A group may stand behind what leads to a comparison. -/
theorem Reads.append_group {loosest : Option Connective} {cs rest : List Char}
    {ts : List Token} {contents : List (Kind × String)}
    (hlead : (Category.phrase loosest).Leads ts) (h : Reads false cs (ts.map content))
    (hrest : Reads false ('(' :: rest) contents) :
    Reads false (cs ++ '(' :: rest) (ts.map content ++ contents) := by
  obtain rfl | ⟨init, t, rfl⟩ := List.eq_nil_or_concat ts
  · exact h.append (fun _ hkind => by cases hkind) hrest
  · rw [List.concat_eq_append] at hlead h ⊢
    obtain ⟨hawaits, hprolonged⟩ := behind_opensOperand (hlead t (by simp))
    have hkinds : ((init ++ [t]).map content).map Prod.fst = init.map Token.kind ++ [t.kind] := by
      simp [content]
    refine h.append ?_ ?_
    · intro kind hkind c hc
      cases hc
      rw [hkinds, List.getLast?_concat] at hkind
      cases hkind
      exact hprolonged
    · rwa [hkinds, awaitedAfter_concat, hawaits]

/-- The text in front of a run of pieces, its own text, and the text behind it. -/
theorem Scans.split_run {cs : List Char} {before between after : List Piece}
    {first last : Piece} (h : Scans false 0 cs (before ++ first :: (between ++ last :: after))) :
    ∃ front middle behind, cs = front ++ middle ++ behind ∧
      first.token.position = Text.byteWidth front ∧
      last.stop = Text.byteWidth (front ++ middle) ∧
      Scans false 0 front before ∧ Scans last.token.kind.awaitsValue last.stop behind after := by
  obtain ⟨front, back, rfl, hfirst, hfront, hback⟩ := h.split
  obtain ⟨inner, behind, rfl, hlast, -, hbehind⟩ := hback.split
  refine ⟨front, first.span ++ inner ++ last.span, behind, by simp, by simpa using hfirst, ?_,
    hfront, hbehind⟩
  simp only [Piece.stop, Text.byteWidth_append] at hlast ⊢
  omega

/-- A comparison of a query has its place in the derivation and in the text. -/
theorem Occurs.exists_site (hp : Policy.unrestricted.parse source = .ok p) {n start stop : Nat}
    {leaf : Predicate} (h : Occurs source.toList n leaf start stop) :
    ∃ (d : Derivation .expression) (before after : List Token) (front middle behind : List Char),
      d.meaning = p ∧ n = before.countP isField ∧ d.Site before leaf after ∧
      source.toList = front ++ middle ++ behind ∧ start = Text.byteWidth front ∧
      stop = Text.byteWidth (front ++ middle) ∧ Reads false front (before.map content) ∧
      Reads false behind (after.map content) := by
  obtain @⟨before, after, field, operator, value, op, quoted, hscan, hfield, hoperator, hvalue⟩ := h
  obtain ⟨stream, hstream, hparse⟩ := parse_eq_ok_iff.mp hp
  rw [TokenStream.scan_eq_ok_iff.mpr ⟨_, hscan, rfl⟩] at hstream
  cases hstream
  obtain ⟨d, htokens, hmeaning⟩ := derives_of_parseTokens hparse
  rw [List.map_append, List.map_cons] at htokens
  obtain ⟨_, _, op', quoted', _, hrest, hoperator', hvalue', hsite⟩ :=
    d.exists_site hfield htokens
  simp only [List.map_cons, List.cons.injEq] at hrest
  obtain ⟨rfl, rfl, rfl⟩ := hrest
  obtain rfl : op = op' := by simpa [hoperator] using hoperator'
  obtain rfl : quoted = quoted' := by simpa [hvalue] using hvalue'
  obtain ⟨front, middle, behind, hsource, hstart, hstop, hfront, hbehind⟩ :=
    @Scans.split_run source.toList before [operator] after field value hscan
  rw [hvalue] at hbehind
  refine ⟨d, before.map Piece.token, after.map Piece.token, front, middle, behind, hmeaning, ?_,
    hsite, hsource, hstart, hstop, ?_, ?_⟩
  · rw [List.countP_map]
    rfl
  · rw [List.map_map]
    exact hfront.reads
  · rw [List.map_map]
    exact hbehind.reads

/-- A comparison of a query is a leaf of its tree. -/
theorem Occurs.getElem?_leaves (hp : Policy.unrestricted.parse source = .ok p)
    {n start stop : Nat} {leaf : Predicate} (h : Occurs source.toList n leaf start stop) :
    p.leaves[n]? = some leaf := by
  obtain ⟨d, before, after, -, -, -, rfl, rfl, hsite, -⟩ := h.exists_site hp
  rw [d.leaves_meaning]
  exact hsite.leaf

/-- Every leaf of a query's tree is a comparison of its text. -/
theorem exists_occurs (hp : Policy.unrestricted.parse source = .ok p) {n : Nat}
    (h : n < p.leaves.length) : ∃ leaf start stop, Occurs source.toList n leaf start stop := by
  obtain ⟨stream, hstream, hparse⟩ := parse_eq_ok_iff.mp hp
  obtain ⟨pieces, hscan, rfl⟩ := TokenStream.scan_eq_ok_iff.mp hstream
  obtain ⟨d, htokens, rfl⟩ := derives_of_parseTokens hparse
  rw [d.leaves_meaning, d.length_leaves, htokens, List.countP_map] at h
  obtain ⟨before, field, rest, rfl, hfield, rfl⟩ := exists_of_lt_countP h
  replace hfield : field.token.kind = .field := by simpa [isField] using hfield
  rw [List.map_append, List.map_cons] at htokens
  obtain ⟨_, _, op, quoted, _, hrest, hoperator, hvalue, -⟩ := d.exists_site hfield htokens
  obtain ⟨operator, rest, rfl, rfl, hvalues⟩ := List.map_eq_cons_iff.mp hrest
  obtain ⟨value, after, rfl, rfl, -⟩ := List.map_eq_cons_iff.mp hvalues
  exact ⟨_, _, _, .mk hscan hfield hoperator hvalue⟩

/-! ## substitution -/

/-- Any query in parentheses may stand in the place of a comparison. -/
theorem Occurs.parse_replaceBytes (hp : Policy.unrestricted.parse source = .ok p)
    (hq : Policy.unrestricted.parse inserted = .ok q) {n start stop : Nat} {leaf : Predicate}
    (h : Occurs source.toList n leaf start stop) :
    Policy.unrestricted.parse (String.ofList (Text.replaceBytes start stop
      ('(' :: (inserted.toList ++ [')'])) source.toList)) = .ok (p.replaceLeaf n q) := by
  obtain ⟨d, before, after, front, middle, behind, rfl, rfl, hsite, hsource, rfl, rfl, hfront,
    hbehind⟩ := h.exists_site hp
  obtain ⟨us, hinserted, hus⟩ := parse_unrestricted_iff.mp hq
  have hreads : Reads false (front ++ '(' :: (inserted.toList ++ ')' :: behind))
      ((before ++ grouped us ++ after).map content) := by
    simpa using hfront.append_group hsite.leads (reads_grouped hinserted hbehind)
  refine parse_unrestricted_iff.mpr ⟨_, ?_, hsite.replace (derives_grouped hus)⟩
  rw [String.toList_ofList, hsource, Text.replaceBytes_append]
  simpa using hreads

/-- **Substitution in the text is substitution in the tree**: the leaves of a
query's tree are the comparisons of its text, and another query in parentheses
in the place of a comparison puts its tree in the place of that leaf.  Parentheses
around a query change nothing, and around two queries keep what `AND` joins. -/
theorem Policy.parse_substitute (hp : Policy.unrestricted.parse source = .ok p)
    (hq : Policy.unrestricted.parse inserted = .ok q) :
    (∀ n leaf, p.leaves[n]? = some leaf ↔
      ∃ start stop, Occurs source.toList n leaf start stop) ∧
    (∀ n leaf start stop, Occurs source.toList n leaf start stop →
      Policy.unrestricted.parse (String.ofList (Text.replaceBytes start stop
        ('(' :: (inserted.toList ++ [')'])) source.toList)) = .ok (p.replaceLeaf n q)) ∧
    Policy.unrestricted.parse ("(" ++ source ++ ")") = .ok p ∧
    Policy.unrestricted.parse ("(" ++ source ++ ") AND (" ++ inserted ++ ")") =
      .ok (.logical .and p q) := by
  refine ⟨fun n leaf => ⟨fun hleaf => ?_, ?_⟩, fun n leaf start stop hoccurs => ?_,
    parse_group hp, parse_and_groups hp hq⟩
  · obtain ⟨leaf', start, stop, hoccurs⟩ :=
      exists_occurs hp (List.getElem?_eq_some_iff.mp hleaf).1
    obtain rfl : leaf = leaf' :=
      Option.some.inj (hleaf.symm.trans (hoccurs.getElem?_leaves hp))
    exact ⟨start, stop, hoccurs⟩
  · intro h
    obtain ⟨start, stop, hoccurs⟩ := h
    exact hoccurs.getElem?_leaves hp
  · exact hoccurs.parse_replaceBytes hp hq

/-- The second comparison of `a:1 OR b:2` makes room for `c>3`. -/
theorem Policy.parse_substitute_second :
    ∃ start stop, Occurs "a:1 OR b:2".toList 1 (.comparison "b" .equal (.number (.integer 2)))
        start stop ∧
      Policy.unrestricted.parse (String.ofList (Text.replaceBytes start stop
        ('(' :: ("c>3".toList ++ [')'])) "a:1 OR b:2".toList)) =
          .ok (.logical .or (.comparison "a" .equal (.number (.integer 1)))
            (.comparison "c" .greater (.number (.integer 3)))) := by
  have hp : Policy.unrestricted.parse "a:1 OR b:2" =
      .ok (.logical .or (.comparison "a" .equal (.number (.integer 1)))
        (.comparison "b" .equal (.number (.integer 2)))) :=
    eq_ok_of_toOption (by decide +kernel)
  have hq : Policy.unrestricted.parse "c>3" =
      .ok (.comparison "c" .greater (.number (.integer 3))) :=
    eq_ok_of_toOption (by decide +kernel)
  obtain ⟨hleaves, hreplace, -⟩ := Policy.parse_substitute hp hq
  obtain ⟨start, stop, hoccurs⟩ := (hleaves 1 _).mp rfl
  exact ⟨start, stop, hoccurs, hreplace 1 _ start stop hoccurs⟩

end FilterQuery
