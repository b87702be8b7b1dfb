import FilterQuery.Command.Report
import FilterQuery.Proofs.Lists
import FilterQuery.Proofs.Relabelling
import FilterQuery.Proofs.Spans
import FilterQuery.Proofs.Trimming

/-!
# FilterQuery.Proofs.Carets

The caret stands below the character that the error points at, since no error points
at a blank (`Text.IsPlace`): all that is cut off at the end of a line, the line feed
included, are blanks.

* `Policy.isPlace_of_parse` — an error points at a character that is not blank, or at
  the end;
* `Cut.locate_eq` — the place of a byte, by the line that is cut out around it;
* `run_eq` — a command fails exactly with the error that it reports;
* `run_caret` — what it prints then.
-/

namespace FilterQuery

open Token

/-! ## where errors point -/

/-- At byte `position` a character starts that is not blank, or the text ends. -/
def Text.IsPlace (cs : List Char) (position : Nat) : Prop :=
  ∃ front back, cs = front ++ back ∧ byteWidth front = position ∧
    ∀ c ∈ back.head?, isBlank c = false

/-- A text that cannot be split into tokens is rejected at a character that is not
blank. -/
theorem isPlace_of_scan {source : String} {e : ScanError}
    (h : TokenStream.scan source = .error e) : Text.IsPlace source.toList e.position := by
  unfold TokenStream.scan at h
  cases hscan : scanFrom [] false 0 source.toList with
  | ok tokens =>
    rw [hscan] at h
    cases h
  | error e' =>
    rw [hscan] at h
    cases h
    obtain ⟨front, c, back, _, hsource, hc, hposition, -, -⟩ := scans_of_scanFrom_error hscan
    refine ⟨front, c :: back, hsource, by rw [hposition, Nat.zero_add], ?_⟩
    intro d hd
    cases hd
    exact hc

/-- **An error points at a character that is not blank, or at the end.** -/
theorem Policy.isPlace_of_parse {policy : Policy} {source : String} {e : ParseError}
    (h : policy.parse source = .error e) {p : Nat} (hp : e.position? = some p) :
    Text.IsPlace source.toList p := by
  unfold parse at h
  cases hscan : TokenStream.scan source with
  | error e' =>
    rw [hscan] at h
    cases h
    cases hp
    exact isPlace_of_scan hscan
  | ok stream =>
    rw [hscan] at h
    obtain ⟨l, hl, rfl⟩ := exists_lookahead_of_position? h hp
    obtain ⟨pieces, hpieces, rfl⟩ := TokenStream.scan_eq_ok_iff.mp hscan
    rw [← Text.byteWidth_toList] at hl
    obtain ⟨front, back, _, _, hsource, -, hposition, hback, -, -⟩ := hpieces.exists_cut hl
    exact ⟨front, back, hsource, hposition.symm, hback⟩

/-! ## lines -/

namespace Command

/-- A text is cut at a place: into the lines above, the line with the place between two
of its characters, and the lines below. -/
structure Cut (cs above start rest below : List Char) : Prop where
  text : cs = (above ++ start) ++ (rest ++ below)
  line : '\n' ∉ start ++ rest
  above : ∀ c ∈ above.getLast?, c = '\n'
  below : ∀ c ∈ below.head?, c = '\n'

/-- The line around a place starts behind the last line feed before it and ends in front
of the next one. -/
theorem exists_cut (front back : List Char) :
    ∃ above start rest below, front = above ++ start ∧ back = rest ++ below ∧
      Cut (front ++ back) above start rest below := by
  have hinside (cs : List Char) : '\n' ∉ cs.takeWhile (· != '\n') := by
    intro hmem
    exact absurd (List.all_eq_true.mp List.all_takeWhile _ hmem) (by decide)
  have hstop (cs : List Char) : ∀ c ∈ (cs.dropWhile (· != '\n')).head?, c = '\n' := by
    intro c hc
    simpa using Text.head?_dropWhile c hc
  have hfront : front = (front.reverse.dropWhile (· != '\n')).reverse ++
      (front.reverse.takeWhile (· != '\n')).reverse := by
    rw [← List.reverse_append, List.takeWhile_append_dropWhile, List.reverse_reverse]
  have hback : back = back.takeWhile (· != '\n') ++ back.dropWhile (· != '\n') :=
    List.takeWhile_append_dropWhile.symm
  refine ⟨_, _, _, _, hfront, hback, by rw [← hfront, ← hback], ?_, ?_, hstop back⟩
  · rw [List.mem_append, List.mem_reverse, not_or]
    exact ⟨hinside _, hinside _⟩
  · rw [List.getLast?_reverse]
    exact hstop _

/-- A line ends at a line feed. -/
theorem takeWhile_line {line others : List Char} (hline : '\n' ∉ line)
    (hothers : ∀ c ∈ others.head?, c = '\n') :
    (line ++ others).takeWhile (· != '\n') = line := by
  refine takeWhile_run (fun c hc => ?_) (fun c hc => by simp [hothers c hc])
  rw [bne_iff_ne]
  rintro rfl
  exact hline hc

/-- The place of a byte: the number of its line, the characters before it on that line,
and the line itself. -/
theorem Cut.locate_eq {cs above start rest below : List Char}
    (h : Cut cs above start rest below) :
    locate cs (Text.byteWidth (above ++ start)) =
      ⟨(above ++ start).count '\n' + 1, start.length, Text.trimRight (start ++ rest)⟩ := by
  obtain ⟨hstart, hrest⟩ : '\n' ∉ start ∧ '\n' ∉ rest := by
    rw [← not_or, ← List.mem_append]
    exact h.line
  have hbefore : ((above ++ start).reverse.takeWhile (· != '\n')).reverse = start := by
    rw [List.reverse_append, takeWhile_line, List.reverse_reverse]
    · rwa [List.mem_reverse]
    · rw [List.head?_reverse]
      exact h.above
  have hafter := takeWhile_line hrest h.below
  simp only [locate, h.text, Text.charsBefore_byteWidth_append, List.drop_left, hbefore, hafter]

/-! ## reports -/

/-- The error that a command reports. -/
def reported? (request : Request) (source : String) : Option ParseError :=
  match request.action with
  | .tokens _ =>
    match TokenStream.scan source with
    | .error e => some (.scan e)
    | .ok _ => none
  | _ =>
    match request.settings.policy.parse source with
    | .error e => some e
    | .ok _ => none

/-- A command fails with the error that it reports, and else it succeeds. -/
theorem run_eq (request : Request) (source : String) :
    match reported? request source with
    | some e => ∃ output, run request source = failure request.color source output e
    | none => ∃ output, run request source = ⟨0, output, ""⟩ := by
  obtain ⟨action, settings, debug, color⟩ := request
  cases action with
  | tokens format =>
    simp only [run, reported?]
    cases TokenStream.scan source with
    | error e => exact ⟨_, rfl⟩
    | ok stream => exact ⟨_, rfl⟩
  | _ =>
    simp only [run, reported?, withPredicate]
    cases settings.policy.parse source with
    | error e => exact ⟨_, rfl⟩
    | ok p => exact ⟨_, rfl⟩

/-- What a command reports is why the policy rejects the query. -/
theorem parse_of_reported? {request : Request} {source : String} {e : ParseError}
    (h : reported? request source = some e) : request.settings.policy.parse source = .error e := by
  obtain ⟨action, settings, debug, color⟩ := request
  cases action with
  | tokens format =>
    -- A text without tokens is rejected by every policy.
    simp only [reported?] at h
    cases hscan : TokenStream.scan source with
    | error e' =>
      rw [hscan] at h
      cases h
      rw [Policy.parse, hscan]
    | ok stream =>
      rw [hscan] at h
      cases h
  | _ =>
    simp only [reported?] at h
    cases hparse : settings.policy.parse source with
    | error e' =>
      rw [hparse] at h
      exact congrArg Except.error (Option.some.inj h)
    | ok p =>
      rw [hparse] at h
      cases h

/-- What stands in front of a line of the query. -/
def label (number : Nat) : String := "line " ++ toString number ++ ":  "

/-- The picture of a place, without colour. -/
theorem renderLocation_false (place : Location) :
    renderLocation false place = label place.line ++ String.ofList place.text ++ "\n" ++
      String.ofList (List.replicate ((label place.line).length + place.column) ' ') ++ "^\n" := by
  have hindent : place.column + (toString place.line).length + "line ".length + ":  ".length =
      (label place.line).length + place.column := by
    simp only [label, String.length_append]
    omega
  have hmarker : "^" ++ "\n" = "^\n" := by decide
  simp only [renderLocation, Style.paint_false, hindent]
  rw [label, ← hmarker, ← String.append_assoc]

/-- The character at a place is on its line, where the caret shows it, and is not among the
blanks that are left out at the end. -/
theorem Cut.getElem?_line {cs above start rest below kept : List Char}
    (h : Cut cs above start rest below) (hkept : Text.TrimmedRight (start ++ rest) kept)
    (hblank : ∀ c ∈ (rest ++ below).head?, Text.isBlank c = false) :
    ∀ c ∈ (rest ++ below).head?, kept[start.length]? = some c := by
  intro c hc
  cases rest with
  | nil =>
    -- A line that ends here ends with a line feed, which is blank.
    obtain rfl := h.below c hc
    exact absurd (hblank _ hc) (by decide)
  | cons d rest =>
    cases hc
    obtain ⟨blanks, hblanks, hall⟩ := hkept.dropped
    have hplace : (kept ++ blanks)[start.length]? = some c := by simp [← hblanks]
    by_cases hlength : start.length < kept.length
    · rwa [List.getElem?_append_left hlength] at hplace
    · rw [List.getElem?_append_right (Nat.le_of_not_lt hlength)] at hplace
      have hmem := hall c (List.mem_of_getElem? hplace)
      rw [hblank c rfl] at hmem
      cases hmem

/-- **The caret points at the offending character.**  Where a command reports an error
that has a position, a character starts there or the query ends.  The first line of the
report shows the line of the query around it, after its number, without the blanks at its
end.  In the second line stands the caret, as far in as that character is in the first. -/
theorem run_caret {request : Request} (hcolor : request.color = false) {source : String}
    {e : ParseError} (he : reported? request source = some e)
    {position : Nat} (hposition : e.position? = some position) :
    ∃ above start rest below line : List Char, Cut source.toList above start rest below ∧
      Text.byteWidth (above ++ start) = position ∧ Text.TrimmedRight (start ++ rest) line ∧
      let front := label ((above ++ start).count '\n' + 1)
      let shown := front.toList ++ line
      let indent := front.length + start.length
      (run request source).exitCode = 1 ∧
      (run request source).stderr = String.ofList shown ++ "\n" ++
        String.ofList (List.replicate indent ' ') ++ "^\n" ++
        "error: " ++ describeError e ++ "\n" ∧
      ∀ c ∈ (rest ++ below).head?, shown[indent]? = some c := by
  obtain ⟨front, back, hsource, rfl, hblank⟩ :=
    Policy.isPlace_of_parse (parse_of_reported? he) hposition
  obtain ⟨above, start, rest, below, rfl, rfl, hcut⟩ := exists_cut front back
  rw [← hsource] at hcut
  have hline := Text.trimmedRight_trimRight (start ++ rest)
  refine ⟨above, start, rest, below, _, hcut, rfl, hline, ?_⟩
  intro front shown indent
  have hrun := run_eq request source
  rw [he] at hrun
  obtain ⟨output, hrun⟩ := hrun
  refine ⟨by rw [hrun]; rfl, ?_, ?_⟩
  · rw [hrun, failure, hcolor]
    simp only [renderError, hposition, hcut.locate_eq, renderLocation_false, Style.paint_false]
    simp [shown, indent, front, String.append_assoc, String.ofList_append]
  · intro c hc
    have hlength : front.toList.length = front.length := String.length_toList
    have hindent : indent - front.toList.length = start.length := by
      rw [hlength]
      exact Nat.add_sub_cancel_left ..
    rw [List.getElem?_append_right (by omega), hindent, hcut.getElem?_line hline hblank c hc]

/-- A letter that starts no token, on the second of three lines, which ends in blanks and a
carriage return: none of them is shown. -/
theorem run_caret_second_line :
    let request : Request := ⟨.check, .empty, false, false⟩
    let source := "a:1 AND \t\r\n ü:2 \u3000\r\n b:3"
    reported? request source = some (.scan ⟨12, .unexpected 'ü'⟩) ∧
      (run request source).stderr =
        "line 2:   ü:2\n          ^\nerror: unrecognized character `ü`\n" ∧
      ∃ above start rest below line : List Char, Cut source.toList above start rest below ∧
        Text.byteWidth (above ++ start) = 12 ∧ Text.TrimmedRight (start ++ rest) line ∧
        let front := label ((above ++ start).count '\n' + 1)
        let shown := front.toList ++ line
        let indent := front.length + start.length
        (run request source).exitCode = 1 ∧
        (run request source).stderr = String.ofList shown ++ "\n" ++
          String.ofList (List.replicate indent ' ') ++ "^\n" ++
          "error: " ++ "unrecognized character `ü`" ++ "\n" ∧
        ∀ c ∈ (rest ++ below).head?, shown[indent]? = some c := by
  intro request source
  have he : reported? request source = some (.scan ⟨12, .unexpected 'ü'⟩) := by decide +kernel
  exact ⟨he, by decide +kernel, run_caret rfl he rfl⟩

end Command

end FilterQuery
