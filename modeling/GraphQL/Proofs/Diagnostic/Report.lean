import GraphQL.Diagnostic.Report
import GraphQL.Proofs.Text.Position

/-! # Source lines in reports

A report of a diagnostic shows the source line of each place inside the text that it points at,
`Diagnostic.render_shows`. Together with what is known of lines and places this is
`Diagnostic.lines_indexed`. -/

namespace GraphQL.Diagnostic

set_option autoImplicit false

open Text

variable {source : Text}

/-- A source line behind its number. -/
def numbered (gutter line : Nat) (content : Text) : Text :=
  " " ++ (Text.ofNat line).padLeft gutter ++ " | " ++ content

theorem annotate_eq {span : Span} {line : Text}
    (found : source.line? (source.position span.start).line = some line) (gutter : Nat)
    (mark : CodeUnit) (message : Option Text) :
    ∃ marks, annotate source gutter span mark message =
      [numbered gutter (source.position span.start).line line, marks] := by
  simp only [annotate, found]
  exact ⟨_, rfl⟩

/-- A line between others stands between separators. -/
theorem infix_intercalate (separator : Text) {before : List Text} (some : before ≠ [])
    (line next : Text) (after : List Text) :
    separator ++ line ++ separator <:+:
      List.intercalate separator (before ++ line :: next :: after) := by
  induction before with
  | nil => exact absurd rfl some
  | cons first before ih =>
    cases before with
    | nil =>
      rw [List.singleton_append, List.intercalate_cons_cons, List.intercalate_cons_cons]
      exact ⟨first, List.intercalate separator (next :: after), by simp only [List.append_assoc]⟩
    | cons second before =>
      rw [List.cons_append, List.cons_append, List.intercalate_cons_cons]
      exact (ih (List.cons_ne_nil _ _)).trans (List.suffix_append _ _).isInfix

/-- The lines of a report that show a place. -/
def context (source : Text) (gutter : Nat) (d : Diagnostic) : List Text :=
  annotate source gutter d.span (unit '^') d.entry.label ++
    d.labels.flatMap fun label => annotate source gutter label.span (unit '-') (some label.message)

/-- The source line of each place is among these lines, with one of marks behind it. -/
theorem context_shows (gutter : Nat) (d : Diagnostic) {span : Span}
    (mem : span ∈ d.span :: d.labels.map Label.span) {line : Text}
    (found : source.line? (source.position span.start).line = some line) :
    ∃ before marks after, context source gutter d = before ++
      numbered gutter (source.position span.start).line line :: marks :: after := by
  rcases List.mem_cons.1 mem with rfl | mem
  · obtain ⟨marks, own⟩ := annotate_eq found gutter (unit '^') d.entry.label
    rw [context, own]
    exact ⟨[], marks, _, rfl⟩
  · obtain ⟨label, hl, rfl⟩ := List.mem_map.1 mem
    obtain ⟨marks, own⟩ := annotate_eq found gutter (unit '-') (some label.message)
    obtain ⟨front, back, split⟩ := List.append_of_mem hl
    rw [context, split, List.flatMap_append, List.flatMap_cons, own, ← List.append_assoc]
    exact ⟨_, marks, _, rfl⟩

/-- The width of the line numbers of a report. -/
def gutter (source : Text) (d : Diagnostic) : Nat :=
  (Text.ofNat ((d.labels.map fun label => (source.position label.span.start).line).foldl max
    (source.position d.span.start).line)).length

theorem render_eq (filename : Text) {d : Diagnostic}
    (shown : (context source (gutter source d) d).isEmpty = false) :
    ∃ header location separator help, d.render source filename = List.intercalate (ofString "\n")
      (header :: location :: separator :: (context source (gutter source d) d ++ help)) :=
  ⟨_, _, _, _, if_neg (Bool.eq_false_iff.1 shown)⟩

/-- A report shows the source line of each place in the text that it points at. -/
theorem render_shows (filename : Text) (d : Diagnostic) {span : Span}
    (mem : span ∈ d.span :: d.labels.map Label.span) {line : Text}
    (found : source.line? (source.position span.start).line = some line) :
    ofString "\n" ++ numbered (gutter source d) (source.position span.start).line line ++
      ofString "\n" <:+: d.render source filename := by
  obtain ⟨before, marks, after, split⟩ := context_shows (gutter source d) d mem found
  have shown : (context source (gutter source d) d).isEmpty = false := by
    rw [split]
    cases before <;> rfl
  obtain ⟨header, location, separator, help, rendered⟩ := render_eq filename shown
  have lines : header :: location :: separator :: (context source (gutter source d) d ++ help) =
      (header :: location :: separator :: before) ++
        numbered (gutter source d) (source.position span.start).line line ::
          marks :: (after ++ help) := by
    rw [split]
    simp only [List.cons_append, List.append_assoc]
  rw [rendered, lines]
  exact infix_intercalate _ (List.cons_ne_nil _ _) _ _ _

/-! ## Places inside the text -/

/-- Nothing stands in the way of marking places inside a text, unless it is longer than any text that
marks can be put under. -/
theorem obstacle?_eq_none {d : Diagnostic} (short : source.length ≤ maxLength)
    (inside : ∀ span ∈ d.span :: d.labels.map Label.span,
      0 ≤ span.start ∧ span.start ≤ source.length) : d.obstacle? source = none := by
  refine List.findSome?_eq_none_iff.2 fun span mem => ?_
  obtain ⟨first, last⟩ := inside span mem
  obtain ⟨offset, same⟩ := Int.eq_ofNat_of_zero_le first
  have bounds := column_bounds source offset
  have indent_eq : indent source span = (source.position offset).column - 1 := by
    rw [indent, same]
  have left : ¬indent source span < 0 := by omega
  have right : ¬(maxLength : Int) < indent source span := by omega
  rw [obstacleAt?, if_neg left, if_neg right]

/-- For every text: the line of an offset is one more than the number of line terminators that end at
or before it, and its column one more than the distance from the end of the last of them; so a later
offset has a later place. The lines that are looked up by number make up the text, each but the last
with its terminator, and the line of an offset is among them: every report shows the source lines of
the places that it points at. -/
theorem lines_indexed (source : Text) :
    (∀ offset : Nat, source.position offset = ⟨(source.terminated offset).length + 1,
      offset - ((source.terminated offset).getLast?.getD 0 : Nat) + 1⟩) ∧
    (∀ a b : Nat, a < b → (source.position a).Before (source.position b)) ∧
    (∃ lines, Lines lines source ∧ ∀ n, source.line? (n + 1) = lines[n]?) ∧
    (∀ offset : Nat, ∃ line, source.line? (source.position offset).line = some line) ∧
    ∀ (filename : Text) (d : Diagnostic), (∀ span ∈ d.span :: d.labels.map Label.span,
        0 ≤ span.start ∧ span.start ≤ source.length) →
      (source.length ≤ maxLength → d.obstacle? source = none) ∧
      ∀ span ∈ d.span :: d.labels.map Label.span, ∃ line gutter,
        source.line? (source.position span.start).line = some line ∧
        ofString "\n" ++ numbered gutter (source.position span.start).line line ++ ofString "\n" <:+:
          d.render source filename := by
  refine ⟨position_eq source, fun a b => position_before source, ⟨_, lines_splitLines source,
    line?_eq (lines_splitLines source)⟩, exists_line source, fun filename d inside =>
      ⟨fun short => obstacle?_eq_none short inside, fun span mem => ?_⟩⟩
  obtain ⟨offset, same⟩ := Int.eq_ofNat_of_zero_le (inside span mem).1
  obtain ⟨line, found⟩ := exists_line source offset
  rw [← same] at found
  exact ⟨line, gutter source d, found, render_shows filename d mem found⟩

/-- A text with a terminator of two units and a lone carriage return. -/
def mixedText : Text := "a\r\nb\rc"

/-- A diagnostic in the second line of that text, with a label in the first. -/
def mixedDiagnostic : Diagnostic :=
  .make ⟨"X", .error, "here", [], none, none, none⟩ ⟨1, 3, 4⟩ [⟨"there", ⟨1, 2, 3⟩⟩] []

/-- The offset between the two units of a terminator is on the line that they end. -/
theorem mixedText_indexed :
    (mixedText.position 2 = ⟨1, 3⟩ ∧ mixedText.position 3 = ⟨2, 1⟩ ∧
      mixedText.position 5 = ⟨3, 1⟩) ∧
    (2 < 3 ∧ (mixedText.position (2 : Nat)).Before (mixedText.position (3 : Nat))) ∧
    Lines [ofString "a", ofString "b", ofString "c"] mixedText ∧
    (∀ span ∈ mixedDiagnostic.span :: mixedDiagnostic.labels.map Label.span,
      0 ≤ span.start ∧ span.start ≤ mixedText.length) ∧
    mixedDiagnostic.obstacle? mixedText = none ∧
    ∃ gutter, ofString "\n" ++ numbered gutter 2 "b" ++ ofString "\n" <:+:
      mixedDiagnostic.render mixedText "f" := by
  obtain ⟨places, order, ⟨lines, whole, numbers⟩, -, reports⟩ := lines_indexed mixedText
  have second : mixedText.position 3 = ⟨2, 1⟩ := (places 3).trans (by decide)
  have inside : ∀ span ∈ mixedDiagnostic.span :: mixedDiagnostic.labels.map Label.span,
      0 ≤ span.start ∧ span.start ≤ mixedText.length := by decide
  have three : lines = [ofString "a", ofString "b", ofString "c"] := by
    refine List.ext_getElem? fun n => (numbers n).symm.trans ?_
    match n with
    | 0 | 1 | 2 => decide
    | n + 3 => rfl
  obtain ⟨clear, shown⟩ := reports "f" mixedDiagnostic inside
  obtain ⟨line, gutter, found, report⟩ := shown ⟨1, 3, 4⟩ List.mem_cons_self
  have place : mixedText.position (⟨1, 3, 4⟩ : Span).start = ⟨2, 1⟩ := second
  rw [place] at found report
  obtain rfl : ofString "b" = line := Option.some.inj found
  exact ⟨⟨(places 2).trans (by decide), second, (places 5).trans (by decide)⟩,
    ⟨by decide, order 2 3 (by decide)⟩, three ▸ whole, inside, clear (by decide), gutter, report⟩

end GraphQL.Diagnostic
