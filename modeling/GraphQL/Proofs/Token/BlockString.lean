import Mathlib.Data.List.DropRight
import GraphQL.Proofs.Text.Lines
import GraphQL.Proofs.Token.Local
import GraphQL.Token.StringValue

/-! # The value of a block string

The value of a block string is what is left of its lines: those at both ends that are blank go, and
all but the first lose the indentation that they have in common.

* `Replaced` says what the text is in which escaped fences are written plain,
* `dedent_eq` and `trimBlank_split` say what the two steps leave of the lines,
* `Dedented` compares the lines with what is left of them,
* `blockStringValue_dedents` is about any text between fences. -/

namespace GraphQL

set_option autoImplicit false

open Lexer Text

variable {line : Text} {lines : List Text} {n : Nat}

/-! ## Escaped fences -/

/-- The second text is the first with every `old` in it replaced by `new`. -/
def Replaced (old new t t' : Text) : Prop :=
  ∃ first rest, (∀ piece ∈ first :: rest, ¬old <:+: piece) ∧
    t = List.intercalate old (first :: rest) ∧ t' = List.intercalate new (first :: rest)

theorem intercalate_push (sep : Text) (u : CodeUnit) (first : Text) (rest : List Text) :
    List.intercalate sep ((u :: first) :: rest) = u :: List.intercalate sep (first :: rest) := by
  cases rest with
  | nil => rw [List.intercalate_singleton, List.intercalate_singleton]
  | cons next rest =>
    rw [List.intercalate_cons_cons, List.intercalate_cons_cons, List.cons_append, List.cons_append]

theorem prefix_intercalate (sep first : Text) (rest : List Text) :
    first <+: List.intercalate sep (first :: rest) := by
  cases rest with
  | nil => exact ⟨[], by rw [List.append_nil, List.intercalate_singleton]⟩
  | cons next rest =>
    rw [List.intercalate_cons_cons, List.append_assoc]
    exact List.prefix_append _ _

theorem Replaced.nil {old new : Text} (some : old ≠ []) : Replaced old new [] [] := by
  refine ⟨[], [], List.forall_mem_singleton.2 fun inside => ?_, rfl, rfl⟩
  exact some (List.infix_nil.1 inside)

theorem Replaced.replace {old new t t' : Text} (h : Replaced old new t t') (some : old ≠ []) :
    Replaced old new (old ++ t) (new ++ t') := by
  obtain ⟨first, rest, free, rfl, rfl⟩ := h
  refine ⟨[], first :: rest, List.forall_mem_cons.2 ⟨fun inside => ?_, free⟩, ?_, ?_⟩
  · exact some (List.infix_nil.1 inside)
  · rw [List.intercalate_cons_cons, List.nil_append]
  · rw [List.intercalate_cons_cons, List.nil_append]

theorem Replaced.push {old new t t' : Text} {u : CodeUnit} (h : Replaced old new t t')
    (other : ¬old <+: u :: t) : Replaced old new (u :: t) (u :: t') := by
  obtain ⟨first, rest, free, rfl, rfl⟩ := h
  obtain ⟨freeFirst, freeRest⟩ := List.forall_mem_cons.1 free
  refine ⟨u :: first, rest, List.forall_mem_cons.2 ⟨fun inside => ?_, freeRest⟩, ?_, ?_⟩
  · obtain here | later := List.infix_cons_iff.1 inside
    · have front := (List.prefix_cons_inj u).2 (prefix_intercalate old first rest)
      exact other (here.trans front)
    · exact freeFirst later
  · rw [intercalate_push]
  · rw [intercalate_push]

/-- Escaped fences, from the left, are replaced by plain ones. -/
theorem unescapeFences_replaced (raw : Text) :
    Replaced escapedFence fence raw (unescapeFences raw) := by
  have some : escapedFence ≠ [] := List.cons_ne_nil _ _
  fun_induction unescapeFences raw with
  | case1 => exact .nil some
  | case2 u rest escaped ih =>
    obtain ⟨behind, split⟩ := List.isPrefixOf_iff_prefix.1 escaped
    have dropped : rest.drop 3 = behind := by
      have := congrArg (List.drop 4) split
      exact this.symm
    rw [dropped] at ih ⊢
    rw [← split]
    exact ih.replace some
  | case3 u rest plain ih =>
    exact ih.push fun here => plain (List.isPrefixOf_iff_prefix.2 here)

/-! ## Indentation -/

/-- The line without the spaces and tabs that it begins with. -/
def unindented (line : Text) : Text := line.dropWhile isIndent

theorem isBlank_iff : isBlank line = true ↔ unindented line = [] := by
  rw [isBlank, unindented, List.dropWhile_eq_nil_iff, List.all_eq_true]

/-- Indentation that is cut off is not seen by what cuts off all of it. -/
theorem unindented_drop (h : n ≤ indentLength line) :
    unindented (line.drop n) = unindented line := by
  have split : line.drop n = (line.takeWhile isIndent).drop n ++ line.dropWhile isIndent := by
    rw [← List.drop_append_of_le_length h, List.takeWhile_append_dropWhile]
  have blank : ∀ u ∈ (line.takeWhile isIndent).drop n, isIndent u = true := fun u hu =>
    List.mem_takeWhile_imp (List.mem_of_mem_drop hu)
  rw [unindented, split, List.dropWhile_append_of_pos blank]
  exact List.dropWhile_idempotent _ _

/-- Less indentation makes no line blank that was not. -/
theorem isBlank_drop (h : isBlank line = false → n ≤ indentLength line) :
    isBlank (line.drop n) = isBlank line := by
  cases blank : isBlank line with
  | true =>
    have each := List.all_eq_true.1 blank
    exact List.all_eq_true.2 fun u hu => each u (List.mem_of_mem_drop hu)
  | false =>
    rw [← Bool.not_eq_true, isBlank_iff] at blank ⊢
    rwa [unindented_drop (h (Bool.eq_false_iff.2 (mt isBlank_iff.1 blank)))]

/-- The lines that are not blank. -/
def nonBlank (lines : List Text) : List Text := lines.filter (!isBlank ·)

theorem mem_nonBlank : line ∈ nonBlank lines ↔ line ∈ lines ∧ isBlank line = false := by
  rw [nonBlank, List.mem_filter, Bool.not_eq_true']

/-- So much indentation have all lines in common that are not blank, and no more. -/
structure Common (n : Nat) (lines : List Text) : Prop where
  le : ∀ line ∈ nonBlank lines, n ≤ indentLength line
  least : nonBlank lines ≠ [] → ∃ line ∈ nonBlank lines, indentLength line = n

theorem Common.isBlank_drop (h : Common n lines) :
    (lines.map (·.drop n)).map isBlank = lines.map isBlank := by
  rw [List.map_map]
  refine List.map_congr_left fun line hl => ?_
  exact GraphQL.isBlank_drop fun some => h.le line (mem_nonBlank.2 ⟨hl, some⟩)

theorem Common.nonBlank_drop (h : Common n lines) :
    nonBlank (lines.map (·.drop n)) = (nonBlank lines).map (·.drop n) := by
  rw [nonBlank, List.filter_map]
  refine congrArg (List.map (List.drop n)) (List.filter_congr fun line hl => ?_)
  refine congrArg (!·) ?_
  exact GraphQL.isBlank_drop fun some => h.le line (mem_nonBlank.2 ⟨hl, some⟩)

/-- All lines but the first lose the indentation that they have in common. -/
theorem dedent_eq (lines : List Text) :
    ∃ n, Common n (lines.drop 1) ∧
      dedent lines = lines.take 1 ++ (lines.drop 1).map (·.drop n) := by
  cases lines with
  | nil => exact ⟨0, ⟨fun _ _ => Nat.zero_le _, fun some => absurd rfl some⟩, rfl⟩
  | cons first rest =>
    rw [dedent, List.drop_one, List.tail_cons]
    split
    next none =>
      have blank : nonBlank rest = [] := List.map_eq_nil_iff.1 (List.min?_eq_none_iff.1 none)
      refine ⟨0, ⟨fun _ _ => Nat.zero_le _, fun some => absurd blank some⟩, ?_⟩
      have whole : rest.map (·.drop 0) = rest := List.map_id rest
      rw [whole]
      rfl
    next n found =>
      obtain ⟨attained, least⟩ := List.min?_eq_some_iff.1 found
      refine ⟨n, ⟨fun line hl => least _ (List.mem_map_of_mem hl), fun _ => ?_⟩, rfl⟩
      exact List.mem_map.1 attained

/-! ## Blank lines at both ends -/

theorem trimBlank_eq (lines : List Text) :
    trimBlank lines = (lines.dropWhile isBlank).rdropWhile isBlank := rfl

theorem trimBlank_split (lines : List Text) :
    ∃ before after, lines = before ++ (trimBlank lines ++ after) ∧
      (∀ line ∈ before, isBlank line = true) ∧ ∀ line ∈ after, isBlank line = true := by
  refine ⟨lines.takeWhile isBlank, (lines.dropWhile isBlank).rtakeWhile isBlank, ?_,
    fun _ => List.mem_takeWhile_imp, fun _ => List.mem_rtakeWhile_imp⟩
  rw [trimBlank_eq, List.rdropWhile_append_rtakeWhile, List.takeWhile_append_dropWhile]

/-- Neither the first line nor the last is blank. -/
structure Framed (lines : List Text) : Prop where
  first : ∃ line ∈ lines.head?, isBlank line = false
  last : ∃ line ∈ lines.getLast?, isBlank line = false

theorem trimBlank_framed (some : trimBlank lines ≠ []) : Framed (trimBlank lines) := by
  constructor
  · have front : trimBlank lines <+: lines.dropWhile isBlank := List.rdropWhile_prefix isBlank _
    obtain ⟨behind, split⟩ := front
    have head := List.head?_dropWhile_not isBlank lines
    rw [← split] at head
    cases kept : trimBlank lines with
    | nil => exact absurd kept some
    | cons first more =>
      rw [kept] at head
      exact ⟨first, rfl, head⟩
  · refine ⟨_, List.getLast?_eq_some_getLast some, ?_⟩
    exact Bool.eq_false_iff.2 (List.rdropWhile_last_not isBlank _ some)

/-- Of the lines that are not blank, each but the last: how many blank lines stand behind it before
the next one. -/
def blankRuns : List Bool → List Nat
  | [] => []
  | blank :: rest =>
    if blank || rest.all id then blankRuns rest else (rest.takeWhile id).length :: blankRuns rest

theorem blankRuns_append {before : List Bool} (h : ∀ blank ∈ before, blank = true)
    (l : List Bool) : blankRuns (before ++ l) = blankRuns l := by
  induction before with
  | nil => rfl
  | cons blank before ih =>
    obtain ⟨rfl, more⟩ := List.forall_mem_cons.1 h
    rw [List.cons_append, blankRuns, Bool.true_or, if_pos rfl, ih more]

theorem blankRuns_append_right {after : List Bool} (h : ∀ blank ∈ after, blank = true)
    (l : List Bool) : blankRuns (l ++ after) = blankRuns l := by
  induction l with
  | nil =>
    have none := blankRuns_append h []
    rwa [List.append_nil] at none
  | cons blank l ih =>
    have blanks : after.all id = true := List.all_eq_true.2 h
    have all : (l ++ after).all id = l.all id := by
      rw [List.all_append, blanks, Bool.and_true]
    rw [List.cons_append, blankRuns, blankRuns, all, ih]
    split
    · rfl
    next more =>
      -- a line that is not blank follows, so that the run ends in front of `after`
      have short : (l.takeWhile id).length ≠ l.length := fun same => by
        have whole := (List.takeWhile_prefix id).eq_of_length same
        have blank := List.all_eq_true.2 (List.takeWhile_eq_self_iff.1 whole)
        exact more (by rw [blank, Bool.or_true])
      rw [List.takeWhile_append, if_neg short]

/-! ## Values -/

/-- What is kept of the lines of a block string, against all its lines. -/
structure Dedented (lines kept : List Text) : Prop where
  /-- The lines that are not blank are kept, in order and up to indentation. -/
  contents : (nonBlank kept).map unindented = (nonBlank lines).map unindented
  /-- As many blank lines stand between one of them and the next. -/
  runs : blankRuns (kept.map isBlank) = blankRuns (lines.map isBlank)
  /-- The first line is kept as it is, unless it is blank. -/
  first : ∀ line ∈ lines.head?, isBlank line = false → kept.head? = some line
  /-- The others lose as many spaces and tabs as all of them begin with, so that some is left with
  none, and the first line loses none. -/
  others : ∃ n,
    nonBlank kept = nonBlank (lines.take 1) ++ (nonBlank (lines.drop 1)).map (·.drop n) ∧
    (∀ line ∈ nonBlank (lines.drop 1), n ≤ indentLength line) ∧
    (nonBlank (lines.drop 1) ≠ [] →
      ∃ line ∈ nonBlank (lines.drop 1), headIs isIndent (line.drop n) = false)

theorem nonBlank_append (a b : List Text) : nonBlank (a ++ b) = nonBlank a ++ nonBlank b :=
  List.filter_append a b

theorem nonBlank_of_blank (h : ∀ line ∈ lines, isBlank line = true) : nonBlank lines = [] := by
  refine List.filter_eq_nil_iff.2 fun line hl => ?_
  rw [h line hl]
  exact Bool.false_ne_true

theorem map_isBlank (h : ∀ line ∈ lines, isBlank line = true) :
    ∀ blank ∈ lines.map isBlank, blank = true := by
  intro blank hb
  obtain ⟨line, hl, rfl⟩ := List.mem_map.1 hb
  exact h line hl

theorem nonBlank_trimBlank (lines : List Text) : nonBlank (trimBlank lines) = nonBlank lines := by
  obtain ⟨before, after, split, blankBefore, blankAfter⟩ := trimBlank_split lines
  have whole := congrArg nonBlank split
  rw [nonBlank_append, nonBlank_append, nonBlank_of_blank blankBefore,
    nonBlank_of_blank blankAfter, List.append_nil, List.nil_append] at whole
  exact whole.symm

theorem blankRuns_trimBlank (lines : List Text) :
    blankRuns ((trimBlank lines).map isBlank) = blankRuns (lines.map isBlank) := by
  obtain ⟨before, after, split, blankBefore, blankAfter⟩ := trimBlank_split lines
  have whole := congrArg (fun l => blankRuns (l.map isBlank)) split
  simp only [List.map_append] at whole
  rw [blankRuns_append (map_isBlank blankBefore), blankRuns_append_right (map_isBlank blankAfter)]
    at whole
  exact whole.symm

/-- A first line that is not blank stays first. -/
theorem head_trimBlank (h : isBlank line = false) (lines : List Text) :
    (trimBlank (line :: lines)).head? = some line := by
  obtain ⟨before, after, split, blankBefore, blankAfter⟩ := trimBlank_split (line :: lines)
  cases before with
  | cons other before =>
    obtain rfl : line = other := (List.cons.inj split).1
    rw [blankBefore line List.mem_cons_self] at h
    cases h
  | nil =>
    cases kept : trimBlank (line :: lines) with
    | nil =>
      rw [kept] at split
      have last : line ∈ after := by
        rw [List.nil_append, List.nil_append] at split
        exact split ▸ List.mem_cons_self
      rw [blankAfter line last] at h
      cases h
    | cons first more =>
      rw [kept] at split
      exact congrArg some (List.cons.inj split).1.symm

theorem dedented_trimBlank (lines : List Text) : Dedented lines (trimBlank (dedent lines)) := by
  obtain ⟨n, common, same⟩ := dedent_eq lines
  have left : nonBlank (trimBlank (dedent lines)) =
      nonBlank (lines.take 1) ++ (nonBlank (lines.drop 1)).map (·.drop n) := by
    rw [nonBlank_trimBlank, same, nonBlank_append, common.nonBlank_drop]
  refine ⟨?_, ?_, ?_, n, left, common.le, ?_⟩
  · have each : ((nonBlank (lines.drop 1)).map (·.drop n)).map unindented =
        (nonBlank (lines.drop 1)).map unindented := by
      rw [List.map_map]
      exact List.map_congr_left fun line hl => unindented_drop (common.le line hl)
    rw [left, List.map_append, each, ← List.map_append, ← nonBlank_append, List.take_append_drop]
  · rw [blankRuns_trimBlank, same, List.map_append, common.isBlank_drop, ← List.map_append,
      List.take_append_drop]
  · intro line head filled
    cases lines with
    | nil => cases head
    | cons first rest =>
      obtain rfl : first = line := Option.some.inj head
      rw [same]
      exact head_trimBlank filled _
  · intro filled
    obtain ⟨line, hl, rfl⟩ := common.least filled
    exact ⟨line, hl, headIs_drop_takeWhile isIndent line⟩

/-- Where nothing is kept there is one empty line. -/
theorem Dedented.none (h : Dedented lines []) : Dedented lines [[]] where
  contents := h.contents
  runs := h.runs
  first line head filled := nomatch h.first line head filled
  others := h.others

theorem dedent_oneLine (plain : ∀ line ∈ lines, OneLine line) :
    ∀ line ∈ dedent lines, OneLine line := by
  obtain ⟨n, -, same⟩ := dedent_eq lines
  intro line hl
  rw [same] at hl
  obtain hl | hl := List.mem_append.1 hl
  · exact plain line (List.mem_of_mem_take hl)
  · obtain ⟨whole, hw, rfl⟩ := List.mem_map.1 hl
    exact (plain whole (List.mem_of_mem_drop hw)).drop n

theorem trimBlank_subset (lines : List Text) : trimBlank lines ⊆ lines := by
  obtain ⟨before, after, split, -, -⟩ := trimBlank_split lines
  intro line hl
  rw [split]
  exact List.mem_append_right _ (List.mem_append_left _ hl)

theorem carriage_not_mem_intercalate (plain : ∀ line ∈ lines, OneLine line) :
    unit '\r' ∉ List.intercalate [unit '\n'] lines := by
  induction lines with
  | nil => exact List.not_mem_nil
  | cons line lines ih =>
    obtain ⟨here, plain⟩ := List.forall_mem_cons.1 plain
    cases lines with
    | nil =>
      rw [List.intercalate_singleton]
      exact here.carriage
    | cons next lines =>
      have feed : unit '\r' ∉ [unit '\n'] := by decide
      rw [List.intercalate_cons_cons, List.mem_append, List.mem_append]
      exact fun hm => hm.elim (fun hm => hm.elim here.carriage feed) (ih plain)

/-- A block string stands for nothing, or for lines of which the first and the last are not blank.
They are its lines without escapes of fences and without the indentation that they share. -/
theorem blockStringValue_dedents (raw : Text) :
    ∃ plain lines kept, Replaced escapedFence fence raw plain ∧ Lines lines plain ∧
      Lines kept (blockStringValue raw) ∧ unit '\r' ∉ blockStringValue raw ∧
      (blockStringValue raw = [] ∨ Framed kept) ∧ Dedented lines kept := by
  have whole := lines_splitLines (unescapeFences raw)
  generalize found : splitLines (unescapeFences raw) = lines at whole
  have value : blockStringValue raw =
      List.intercalate [unit '\n'] (trimBlank (dedent lines)) := by
    rw [← found]
    rfl
  have plain : ∀ line ∈ trimBlank (dedent lines), OneLine line := fun line hl =>
    dedent_oneLine whole.oneLine line (trimBlank_subset _ hl)
  have carriage := carriage_not_mem_intercalate plain
  have dedented := dedented_trimBlank lines
  rw [value]
  by_cases none : trimBlank (dedent lines) = []
  · rw [none] at carriage dedented ⊢
    exact ⟨_, lines, [[]], unescapeFences_replaced raw, whole, .last oneLine_nil, carriage,
      .inl rfl, dedented.none⟩
  · exact ⟨_, lines, _, unescapeFences_replaced raw, whole, lines_intercalate none plain, carriage,
      .inr (trimBlank_framed none), dedented⟩

example : blockStringValue "\n    hello\n      world\n  " = "hello\n  world" := by decide +kernel

end GraphQL
