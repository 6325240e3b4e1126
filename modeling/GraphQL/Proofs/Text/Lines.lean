import GraphQL.Text.Lines

/-! # Texts and their lines

`Lines` says what it is for a text to have some lines: put together with a terminator behind each
but the last they are the text. `splitLines` finds them, `lines_splitLines`, and lines that are
joined by line feeds are those of the text that comes about, `lines_intercalate`. -/

namespace GraphQL.Text

set_option autoImplicit false

variable {line rest t : Text} {lines : List Text} {u : CodeUnit}

/-- A line feed, a carriage return with a line feed, and a lone carriage return. -/
def terminators : List Text := [[unit '\n'], [unit '\r', unit '\n'], [unit '\r']]

theorem mem_terminators {terminator : Text} : terminator ∈ terminators ↔
    terminator = [unit '\n'] ∨ terminator = [unit '\r', unit '\n'] ∨ terminator = [unit '\r'] := by
  simp [terminators]

/-- The text has no line end. -/
structure OneLine (line : Text) : Prop where
  feed : unit '\n' ∉ line
  carriage : unit '\r' ∉ line

theorem oneLine_nil : OneLine [] := ⟨List.not_mem_nil, List.not_mem_nil⟩

theorem OneLine.cons (h : OneLine line) (feed : u ≠ unit '\n') (carriage : u ≠ unit '\r') :
    OneLine (u :: line) where
  feed hm := (List.mem_cons.1 hm).elim (fun same => feed same.symm) h.feed
  carriage hm := (List.mem_cons.1 hm).elim (fun same => carriage same.symm) h.carriage

theorem OneLine.drop (h : OneLine line) (n : Nat) : OneLine (line.drop n) :=
  ⟨fun hm => h.feed (List.mem_of_mem_drop hm), fun hm => h.carriage (List.mem_of_mem_drop hm)⟩

/-- The text is the lines, each but the last with a terminator behind it. A carriage return that a
line feed follows is one terminator with it. -/
inductive Lines : List Text → Text → Prop where
  | last {line : Text} (plain : OneLine line) : Lines [line] line
  | cons {line terminator rest : Text} {lines : List Text} (plain : OneLine line)
      (ends : terminator ∈ terminators)
      (whole : terminator = [unit '\r'] → rest.head? ≠ some (unit '\n'))
      (more : Lines lines rest) : Lines (line :: lines) (line ++ (terminator ++ rest))

theorem Lines.oneLine (h : Lines lines t) : ∀ line ∈ lines, OneLine line := by
  induction h with
  | last plain => exact List.forall_mem_singleton.2 plain
  | cons plain _ _ _ ih => exact List.forall_mem_cons.2 ⟨plain, ih⟩

/-- One more unit in front is in the first line. -/
theorem Lines.push (h : Lines (line :: lines) t) (feed : u ≠ unit '\n') (carriage : u ≠ unit '\r') :
    Lines ((u :: line) :: lines) (u :: t) := by
  cases h with
  | last plain => exact .last (plain.cons feed carriage)
  | cons plain ends whole more => exact .cons (plain.cons feed carriage) ends whole more

/-- A carriage return in front of a line feed is one terminator with it. -/
theorem Lines.carriage (h : Lines lines (unit '\n' :: rest)) :
    Lines lines (unit '\r' :: unit '\n' :: rest) := by
  generalize split : unit '\n' :: rest = t at h
  cases h with
  | last plain => exact absurd (split ▸ List.mem_cons_self) plain.feed
  | @cons line terminator behind lines plain ends whole more =>
    cases line with
    | cons u line =>
      obtain rfl : unit '\n' = u := (List.cons.inj split).1
      exact absurd List.mem_cons_self plain.feed
    | nil =>
      obtain rfl | rfl | rfl := mem_terminators.1 ends
      · obtain rfl : rest = behind := (List.cons.inj split).2
        have pair : [unit '\r', unit '\n'] ≠ [unit '\r'] := by decide
        exact .cons oneLine_nil (by decide) (fun same => absurd same pair) more
      · exact absurd (List.cons.inj split).1 (by decide)
      · exact absurd (List.cons.inj split).1 (by decide)

theorem endsLine_eq_true (h : endsLine u rest = true) :
    u = unit '\n' ∨ u = unit '\r' ∧ rest.head? ≠ some (unit '\n') := by
  simpa [endsLine] using h

theorem endsLine_eq_false (h : ¬endsLine u rest = true) :
    u ≠ unit '\n' ∧ (u = unit '\r' → rest.head? = some (unit '\n')) := by
  simpa [endsLine] using h

/-- A text is found to have the lines that it has. -/
theorem lines_splitLines (t : Text) : Lines (splitLines t) t := by
  fun_induction splitLines t with
  | case1 => exact .last oneLine_nil
  | case2 u t ends ih =>
    obtain rfl | ⟨rfl, alone⟩ := endsLine_eq_true ends
    · have feed : [unit '\n'] ∈ terminators := by decide
      have other : [unit '\n'] ≠ [unit '\r'] := by decide
      exact .cons oneLine_nil feed (fun same => absurd same other) ih
    · have carriage : [unit '\r'] ∈ terminators := by decide
      exact .cons oneLine_nil carriage (fun _ => alone) ih
  | case3 u t ends carriage ih =>
    obtain rfl := beq_iff_eq.1 carriage
    have feed := (endsLine_eq_false ends).2 rfl
    cases t with
    | nil => cases feed
    | cons v t =>
      obtain rfl : v = unit '\n' := Option.some.inj feed
      exact ih.carriage
  | case4 u t ends carriage none ih =>
    rw [none] at ih
    cases ih
  | case5 u t ends carriage line lines split ih =>
    rw [split] at ih
    exact ih.push (endsLine_eq_false ends).1 fun same => carriage (beq_iff_eq.2 same)

/-- Lines that are joined by line feeds are the lines of the text. -/
theorem lines_intercalate (some : lines ≠ []) (plain : ∀ line ∈ lines, OneLine line) :
    Lines lines (List.intercalate [unit '\n'] lines) := by
  induction lines with
  | nil => exact absurd rfl some
  | cons line lines ih =>
    obtain ⟨here, plain⟩ := List.forall_mem_cons.1 plain
    cases lines with
    | nil =>
      rw [List.intercalate_singleton]
      exact .last here
    | cons next lines =>
      have feed : [unit '\n'] ≠ [unit '\r'] := by decide
      rw [List.intercalate_cons_cons, List.append_assoc]
      exact .cons here (by decide) (fun same => absurd same feed)
        (ih (List.cons_ne_nil _ _) plain)

end GraphQL.Text
