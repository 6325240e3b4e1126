import GraphQL.Layout.Document
import GraphQL.Proofs.Document.WellFormed
import GraphQL.Proofs.Token.Legible

/-! # Layouts spell out tokens

A text spells tokens if just these are read from it, in this order, as long as nothing follows that
would go on with the last of them. Punctuators need no separation from what follows them; any two
texts may stand one behind the other if a gap or a punctuator stands between them.

The file holds one rule for each shape that constructs are laid out in. -/

namespace GraphQL

set_option autoImplicit false

open Lexer Outline

namespace Layout

variable {α : Type} {a b : Text} {s t : Token} {ss ts : List Token}

/-- Where the tokens are legible, they are what is read from the text. -/
def Spells (text : Text) (tokens : List Token) : Prop :=
  (∀ t ∈ tokens, t.Legible) → ∀ rest, Stops rest →
    lexemes (text ++ rest) = tokens.map Token.lexeme ++ lexemes rest

/-! ## Tokens, gaps and juxtaposition -/

theorem Spells.nil : Spells [] [] := fun _ _ _ => rfl

theorem Spells.token (t : Token) : Spells t.text [t] := fun legible rest stops =>
  legible t List.mem_cons_self rest fun _ => stops

theorem text_of_isName {word : Text} (h : t.isName word = true) : t.text = word := by
  rw [Token.isName, Bool.and_eq_true, beq_iff_eq, beq_iff_eq] at h
  exact h.2

theorem text_of_isPunctuator {mark : Text} (h : t.isPunctuator mark = true) : t.text = mark := by
  rw [Token.isPunctuator, Bool.and_eq_true, beq_iff_eq, beq_iff_eq] at h
  exact h.2

theorem Spells.word {word : Text} (h : t.isName word = true) : Spells word [t] :=
  text_of_isName h ▸ Spells.token t

theorem Spells.mark {mark : Text} (h : t.isPunctuator mark = true) : Spells mark [t] :=
  text_of_isPunctuator h ▸ Spells.token t

/-- A text of no units spells nothing. -/
theorem Spells.eq_nil (h : Spells [] ts) (legible : ∀ t ∈ ts, t.Legible) : ts = [] := by
  have := congrArg List.length (h legible [] stops_nil)
  rw [List.nil_append, List.length_append, List.length_map] at this
  exact List.length_eq_zero_iff.1 (by omega)

theorem Spells.append (ha : Spells a ss) (hb : Spells b ts) (stops : Stops b) :
    Spells (a ++ b) (ss ++ ts) := by
  intro legible rest hr
  rw [List.forall_mem_append] at legible
  rw [List.append_assoc, ha legible.1 _ (stops.append hr), hb legible.2 rest hr, List.map_append,
    List.append_assoc]

/-- A punctuator may be followed by anything. -/
theorem Spells.behindMark {mark : Text} (h : t.isPunctuator mark = true) (ha : Spells a ts) :
    Spells (mark ++ a) (t :: ts) := by
  intro legible rest hr
  rw [List.forall_mem_cons] at legible
  have kind : t.kind = .punctuator := by
    rw [Token.isPunctuator, Bool.and_eq_true, beq_iff_eq] at h
    exact h.1
  rw [List.append_assoc, ← text_of_isPunctuator h, legible.1 _ fun other => absurd kind other,
    ha legible.2 rest hr]
  rfl

theorem Spells.behindGap {gap : Text} (h : IsGap gap) (ha : Spells a ts) : Spells (gap ++ a) ts := by
  intro legible rest hr
  rw [List.append_assoc, lexemes_gap h, ha legible rest hr]

/-- A gap that is not empty separates any two texts. -/
theorem Spells.spaced {gap : Text} (ha : Spells a ss) (h : IsGap gap) (some : gap ≠ [])
    (hb : Spells b ts) : Spells (a ++ (gap ++ b)) (ss ++ ts) :=
  ha.append (hb.behindGap h) (stops_gap h some b)

theorem Spells.closed {mark : Text} (ha : Spells a ts) (h : t.isPunctuator mark = true)
    (stops : Stops mark) : Spells (a ++ mark) (ts ++ [t]) := ha.append (Spells.mark h) stops

theorem Spells.optional {layout : α → Text} {tokens : α → List Token} {o : Option α}
    (h : ∀ x ∈ o, Spells (layout x) (tokens x)) :
    Spells (Layout.optional layout o) (o.elim [] tokens) := by
  cases o with
  | none => exact Spells.nil
  | some x => exact h x rfl

@[simp] theorem slot_present (layout : α → Text) (x : α) : slot layout (.present x) = layout x := rfl

@[simp] theorem tokenSlot_present (t : Token) : tokenSlot (.present t) = t.text := rfl

theorem stops_head (h : Stops a) (some : a ≠ []) : Stops (a ++ b) := by
  cases a with
  | nil => exact absurd rfl some
  | cons u a => exact h

theorem stops_optional {layout : α → Text} {o : Option α} (h : ∀ x ∈ o, Stops (layout x)) :
    Stops (Layout.optional layout o) := by
  cases o with
  | none => rfl
  | some x => exact h x rfl

/-! ## Several texts -/

theorem separated_cons_cons (separator a b : Text) (rest : List Text) :
    separated separator (a :: b :: rest) = a ++ (separator ++ separated separator (b :: rest)) := by
  simp [separated, List.intercalate]

theorem separated_singleton (separator a : Text) : separated separator [a] = a := by
  simp [separated, List.intercalate]

theorem Spells.separated {separator : Text} (gap : IsGap separator) (some : separator ≠ [])
    {layout : α → Text} {tokens : α → List Token} {items : List α}
    (h : ∀ x ∈ items, Spells (layout x) (tokens x)) :
    Spells (separated separator (items.map layout)) (items.flatMap tokens) := by
  induction items with
  | nil => exact Spells.nil
  | cons x items ih =>
    rw [List.forall_mem_cons] at h
    have later := ih h.2
    cases items with
    | nil =>
      rw [List.map_cons, List.map_nil, separated_singleton, List.flatMap_cons, List.flatMap_nil,
        List.append_nil]
      exact h.1
    | cons y items =>
      rw [List.map_cons, List.map_cons, separated_cons_cons, List.flatMap_cons]
      exact h.1.spaced gap some later

theorem Spells.listed {layout : α → Text} {tokens : α → List Token} {items : List α}
    (h : ∀ x ∈ items, Spells (layout x) (tokens x)) :
    Spells (listed (items.map layout)) (items.flatMap tokens) :=
  Spells.separated (by decide) (by decide) h

theorem words_cons (a : Text) (rest : List Text) :
    words (a :: rest) =
      if a.isEmpty then words rest
      else if (words rest).isEmpty then a else a ++ (" " ++ words rest) := by
  unfold words
  cases ha : a.isEmpty with
  | true => simp [ha]
  | false =>
    rw [List.filter_cons_of_pos (by simp [ha])]
    cases hrest : rest.filter fun part => !part.isEmpty with
    | nil => simp [Layout.separated, List.intercalate]
    | cons b more =>
      have some : b.isEmpty = false := by
        have : b ∈ rest.filter fun part => !part.isEmpty := hrest ▸ List.mem_cons_self
        simpa using (List.mem_filter.1 this).2
      have long : (Layout.separated " " (b :: more)).isEmpty = false := by
        cases more with
        | nil => rw [separated_singleton, some]
        | cons c more =>
          rw [separated_cons_cons]
          cases b with
          | nil => cases some
          | cons u b => rfl
      rw [separated_cons_cons, long]
      rfl

theorem Spells.words_nil : Spells (words []) [] := Spells.nil

/-- Words are kept apart; those without text are left out. -/
theorem Spells.words_cons {rest : List Text} (ha : Spells a ss) (hr : Spells (words rest) ts) :
    Spells (words (a :: rest)) (ss ++ ts) := by
  rw [Layout.words_cons]
  intro legible more stops
  have both := List.forall_mem_append.1 legible
  split
  next none =>
    rw [List.isEmpty_iff] at none
    subst none
    rw [ha.eq_nil both.1, List.nil_append]
    exact hr both.2 more stops
  split
  next none =>
    rw [List.isEmpty_iff] at none
    rw [none] at hr
    rw [hr.eq_nil both.2, List.append_nil]
    exact ha both.1 more stops
  next => exact ha.spaced (by decide) (by decide) hr legible more stops

/-! ## Brackets and lines -/

theorem Spells.enclosed {opening closing : Text} (ho : s.isPunctuator opening = true)
    (ha : Spells a ts) (hc : t.isPunctuator closing = true) (stops : Stops closing) :
    Spells (opening ++ a ++ closing) (s :: (ts ++ [t])) := by
  rw [List.append_assoc]
  exact (ha.closed hc stops).behindMark ho

/-- A colon and a blank. -/
theorem Spells.colon (ha : Spells a ss)
    (h : t.isPunctuator ":" = true) (hb : Spells b ts) : Spells (a ++ ": " ++ b) (ss ++ t :: ts) := by
  have behind : Spells (":" ++ (" " ++ b)) (t :: ts) :=
    Spells.behindMark h (hb.behindGap (by decide))
  rw [List.append_assoc]
  exact ha.append behind (stops_head (a := ":") (by decide) (by decide))

theorem isGap_step {indent : Text} (h : IsGap indent) : IsGap (indent ++ step) :=
  h.append (by decide)

theorem isGap_lineEnd {indent : Text} (h : IsGap indent) : IsGap ("\n" ++ indent) :=
  IsGap.append (by decide) h

theorem lineEnd_ne_nil (indent : Text) : ("\n" : Text) ++ indent ≠ [] :=
  List.append_ne_nil_of_left_ne_nil (by decide) indent

/-- Items on one line, between two punctuators. -/
theorem Spells.delimited {opening closing : Text} {wf : α → Bool} {layout : α → Text}
    {outline : α → Outline} {items : Delimited α} (h : items.isWellFormed opening closing wf = true)
    (each : ∀ x ∈ items.items, wf x = true → Spells (layout x) (outline x).tokens)
    (stops : Stops closing) :
    Spells (opening ++ Layout.listed (items.items.map layout) ++ closing)
      (tokensOf (Outline.delimited outline items)) := by
  obtain ⟨first, items, last⟩ := items
  simp only [Delimited.isWellFormed, Bool.and_eq_true, List.all_eq_true] at h
  obtain ⟨ho, hi, hc⟩ := h
  obtain ⟨last, rfl, hc⟩ := exists_of_filled hc
  have inner := Spells.listed fun x hx => each x hx (hi x hx)
  simpa [Outline.delimited] using inner.enclosed ho hc stops

/-- Items on lines of their own, between two punctuators. -/
theorem Spells.lines {opening closing indent : Text} {layout : α → Text} {tokens : α → List Token}
    {items : List α} (ho : s.isPunctuator opening = true) (gap : IsGap indent)
    (h : ∀ x ∈ items, Spells (layout x) (tokens x)) (hc : t.isPunctuator closing = true) :
    Spells (opening ++ "\n" ++
        Layout.separated "\n" (items.map fun x => indent ++ step ++ layout x) ++ "\n" ++ indent ++
        closing)
      (s :: (items.flatMap tokens ++ [t])) := by
  have each : ∀ x ∈ items, Spells (indent ++ step ++ layout x) (tokens x) := fun x hx =>
    (h x hx).behindGap (isGap_step gap)
  have lineEnd : IsGap "\n" := by decide
  have inner := (Spells.separated lineEnd (by decide) each).spaced (isGap_lineEnd gap)
    (lineEnd_ne_nil indent) (Spells.mark hc)
  simpa only [List.append_assoc] using Spells.behindMark ho (inner.behindGap lineEnd)

theorem Spells.block {indent : Text} {layout : α → Text} {tokens : α → List Token}
    {items : List α} (ho : s.isPunctuator "\x7b" = true) (gap : IsGap indent)
    (h : ∀ x ∈ items, Spells (layout x) (tokens x)) (hc : t.isPunctuator "\x7d" = true) :
    Spells (block indent (items.map layout)) (s :: (items.flatMap tokens ++ [t])) := by
  cases items with
  | nil => exact Spells.behindMark ho (Spells.mark hc)
  | cons x items =>
    have lines := Spells.lines ho gap h hc
    rw [Layout.block, if_neg (by simp), List.map_map]
    exact lines

theorem Spells.described {description : Option Token} {indent : Text} (gap : IsGap indent)
    (ha : Spells a ts) :
    Spells (described description indent a) ((description.elim [] fun t => [t]) ++ ts) := by
  cases description with
  | none => exact ha
  | some t =>
    have : Spells (t.text ++ (("\n" ++ indent) ++ a)) ([t] ++ ts) :=
      (Spells.token t).spaced (isGap_lineEnd gap) (lineEnd_ne_nil indent) ha
    rw [Layout.described, Option.elim_some]
    simpa only [List.append_assoc] using this

end Layout

end GraphQL
