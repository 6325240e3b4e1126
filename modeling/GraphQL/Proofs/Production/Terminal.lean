import GraphQL.Proofs.Production.Lead

/-! # Reading terminals

What the parsers of tokens read, and the shapes that many productions share: delimited lists and
lists of members. -/

namespace GraphQL

set_option autoImplicit false

open Recovery (Chain Cursor ParseError Parser)
open Recovery.Parser (token_takes token_guarded token_refuses)

variable {α : Type} {t : Token} {rest : List Token}

namespace Production

open Outline

/-! ## Single tokens -/

theorem punctuator_takes {mark : Text} (h : t.isPunctuator mark = true) :
    (punctuator mark).Takes [] [t] t := token_takes (if_pos h)

theorem punctuator_guarded (mark : Text) : (punctuator mark).Guarded [.mark mark] := by
  refine token_guarded fun t ht => if_neg ?_
  rw [show t.isPunctuator mark = false from ht _ List.mem_cons_self]
  exact Bool.false_ne_true

theorem keyword_takes {word : Text} (h : t.isName word = true) : (keyword word).Takes [] [t] t :=
  token_takes (if_pos h)

theorem keyword_guarded (word : Text) : (keyword word).Guarded [.word word] := by
  refine token_guarded fun t ht => if_neg ?_
  rw [show t.isName word = false from ht _ List.mem_cons_self]
  exact Bool.false_ne_true

theorem ofKind_takes (what : Text) {kind : TokenKind} (h : (t.kind == kind) = true) :
    (ofKind what kind).Takes [] [t] t := token_takes (if_pos h)

theorem ofKind_guarded (what : Text) (kind : TokenKind) : (ofKind what kind).Guarded [.kind kind] := by
  refine token_guarded fun t ht => if_neg ?_
  rw [show (t.kind == kind) = false from ht _ List.mem_cons_self]
  exact Bool.false_ne_true

theorem name_takes (h : t.isAnyName = true) : name.Takes [] [t] t := ofKind_takes "name" h

theorem name_guarded : name.Guarded [.kind .name] := ofKind_guarded "name" .name

theorem stringToken_takes (h : t.isString = true) : stringToken.Takes [] [t] t :=
  ofKind_takes "string" h

theorem stringToken_guarded : stringToken.Guarded [.kind .string] := ofKind_guarded "string" .string

theorem nameExcept_takes {reserved : List Text} (h : t.isNameExcept reserved = true) :
    (nameExcept reserved).Takes [] [t] t := token_takes (if_pos h)

theorem nameExcept_guarded (reserved : List Text) : (nameExcept reserved).Guarded [.kind .name] := by
  refine token_guarded fun t ht => if_neg ?_
  rw [show (t.kind == .name) = false from ht _ List.mem_cons_self, Bool.false_and]
  exact Bool.false_ne_true

/-! ## Two tokens -/

/-- What is read in one go is recognized where it is read. -/
theorem terminal_recognize (read : Cursor Token → Except ParseError (α × Cursor Token))
    (c : Cursor Token) (recovery : Recovery.Recognizer Token) :
    (Parser.terminal read).recognize c = ((Parser.terminal read).parse c recovery).isOk := by
  show (read c).isOk = ((read c).map _).isOk
  cases read c <;> rfl

theorem readToken_accepted {what : Text} {accept : Token → Bool} {c : Cursor Token}
    (hc : c.ahead = t :: rest) (h : accept t = true) :
    readToken what accept c = .ok (t, c.past [t]) := by
  unfold readToken
  rw [c.peek_eq_head?, hc, List.head?_cons]
  exact if_pos h

theorem readToken_refused {what : Text} {accept : Token → Bool} {c : Cursor Token}
    (h : ∀ t ∈ c.ahead.head?, accept t = false) : ∃ e, readToken what accept c = .error e := by
  unfold readToken
  rw [c.peek_eq_head?]
  cases hp : c.ahead.head? with
  | none => exact ⟨.incomplete, rfl⟩
  | some t =>
    refine ⟨.expected what, if_neg ?_⟩
    rw [h t hp]
    exact Bool.false_ne_true

/-- A terminal that reads some tokens wherever they are ahead. -/
theorem terminal_takes {read : Cursor Token → Except ParseError (α × Cursor Token)}
    {leaves : List Token} {v : α} {stops : List Lead} (some : leaves ≠ [])
    (h : ∀ (c : Cursor Token) rest, c.ahead = leaves ++ rest → read c = .ok (v, c.past leaves)) :
    (Parser.terminal read).Takes stops leaves v where
  some := some
  reads :=
    { parses := by
        intro c rest recovery hc _ _
        show (read c).map _ = _
        rw [h c rest hc]
        rfl
      recognizes := by
        intro _ c rest hc _
        show (read c).isOk = true
        rw [h c rest hc]
        rfl }

theorem terminal_unrecognized {read : Cursor Token → Except ParseError (α × Cursor Token)}
    {c : Cursor Token} (h : ∃ e, read c = .error e) : (Parser.terminal read).recognize c = false := by
  obtain ⟨e, he⟩ := h
  show (read c).isOk = false
  rw [he]
  rfl

theorem terminal_guarded {read : Cursor Token → Except ParseError (α × Cursor Token)}
    {leads : List Lead}
    (h : ∀ c : Cursor Token, Avoids leads c.ahead → ∃ e, read c = .error e) :
    (Parser.terminal read).Guarded leads where
  recognize := fun c hc => terminal_unrecognized (h c hc)
  refuses := by
    intro ahead ha c recovery hc
    obtain ⟨e, he⟩ := h c (hc ▸ ha)
    refine ⟨e, ?_⟩
    show (read c).map _ = _
    rw [he]
    rfl

theorem extension_takes {extend k : Token} {word : Text} (he : extend.isName "extend" = true)
    (hk : k.isName word = true) : (extension word).Takes [] [extend, k] (extend, k) := by
  refine terminal_takes (List.cons_ne_nil _ _) fun c rest hc => ?_
  have next : (c.past [extend]).ahead = k :: rest := Cursor.ahead_past hc
  rw [readToken_accepted hc he]
  dsimp only
  rw [readToken_accepted next hk]
  rfl

theorem extension_guarded (word : Text) : (extension word).Guarded [.word "extend"] := by
  refine terminal_guarded fun c hc => ?_
  have first : ∃ e, readToken "extend" (·.isName "extend") c = .error e :=
    readToken_refused fun t ht => hc t ht _ List.mem_cons_self
  obtain ⟨e, he⟩ := first
  rw [he]
  exact ⟨e, rfl⟩

/-- `extend` in front of another keyword is not recognized. -/
theorem extension_unrecognized {extend k : Token} {word : Text} {c : Cursor Token}
    (hc : c.ahead = extend :: k :: rest) (he : extend.isName "extend" = true)
    (hk : k.isName word = false) : (extension word).recognize c = false := by
  refine terminal_unrecognized ?_
  have next : (c.past [extend]).ahead = k :: rest := Cursor.ahead_past hc
  have second : ∃ e, readToken word (·.isName word) (c.past [extend]) = .error e :=
    readToken_refused fun t ht => by
      rw [next] at ht
      rw [← Option.some.inj ht, hk]
  obtain ⟨e, h⟩ := second
  rw [readToken_accepted hc he]
  dsimp only
  rw [h]
  exact ⟨e, rfl⟩

theorem fieldAlias_takes {name colon : Token} (hn : name.isAnyName = true)
    (hc : colon.isPunctuator ":" = true) :
    fieldAlias.Takes [] [name, colon] ⟨name, colon⟩ := by
  refine terminal_takes (List.cons_ne_nil _ _) fun c rest h => ?_
  have next : (c.past [name]).ahead = colon :: rest := Cursor.ahead_past h
  have named : (name.kind == .name) = true := hn
  rw [readToken_accepted h named]
  dsimp only
  rw [readToken_accepted next hc]
  rfl

theorem fieldAlias_guarded : fieldAlias.Guarded [.kind .name] := by
  refine terminal_guarded fun c hc => ?_
  have first : ∃ e, readToken "alias" (·.kind == .name) c = .error e :=
    readToken_refused fun t ht => hc t ht _ List.mem_cons_self
  obtain ⟨e, he⟩ := first
  rw [he]
  exact ⟨e, rfl⟩

/-- A name without a colon behind it is no alias. -/
theorem fieldAlias_unrecognized {name : Token} {c : Cursor Token} (hc : c.ahead = name :: rest)
    (hn : name.isAnyName = true) (h : Avoids [.mark ":"] rest) :
    fieldAlias.recognize c = false := by
  refine terminal_unrecognized ?_
  have next : (c.past [name]).ahead = rest := Cursor.ahead_past hc
  have second : ∃ e, readToken ":" (·.isPunctuator ":") (c.past [name]) = .error e :=
    readToken_refused fun t ht => h t (next ▸ ht) _ List.mem_cons_self
  obtain ⟨e, he⟩ := second
  have named : (name.kind == .name) = true := hn
  rw [readToken_accepted hc named]
  dsimp only
  rw [he]
  exact ⟨e, rfl⟩

def FragmentNameAhead (ahead : List Token) : Prop :=
  ahead.head?.any (Token.isNameExcept ["on"]) = true

instance (ahead : List Token) : Decidable (FragmentNameAhead ahead) :=
  inferInstanceAs (Decidable (_ = true))

theorem isFragmentName_eq :
    (fun t : Token => t.kind == .name && !t.isName "on") = Token.isNameExcept ["on"] := by
  funext t
  unfold Token.isNameExcept Token.isName
  cases t.kind == .name with
  | false => rfl
  | true =>
    rw [Bool.true_and, Bool.true_and, Bool.true_and, List.contains_cons, List.contains_nil,
      Bool.or_false]

theorem spreadDots_parse {dots : Token} {c : Cursor Token} (recovery : Recovery.Recognizer Token)
    (hc : c.ahead = dots :: rest) (h : dots.isPunctuator "..." = true) :
    spreadDots.parse c recovery = if FragmentNameAhead rest then
      .ok ⟨dots, (c.past [dots]).position, []⟩ else .error (.expected "fragment name") := by
  have next : (c.past [dots]).ahead = rest := Cursor.ahead_past hc
  dsimp only [spreadDots, Parser.terminal]
  rw [readToken_accepted hc h]
  dsimp only
  rw [(c.past [dots]).peek_eq_head?, next, isFragmentName_eq]
  by_cases named : FragmentNameAhead rest
  · rw [if_pos named]
    exact congrArg (Except.map _) (if_pos named)
  · rw [if_neg named]
    exact congrArg (Except.map _) (if_neg named)

theorem spreadDots_recognize {dots : Token} {c : Cursor Token} (hc : c.ahead = dots :: rest)
    (h : dots.isPunctuator "..." = true) :
    spreadDots.recognize c = decide (FragmentNameAhead rest) := by
  rw [spreadDots, terminal_recognize _ c fun _ => false, ← spreadDots, spreadDots_parse _ hc h]
  by_cases named : FragmentNameAhead rest
  · rw [if_pos named, decide_eq_true named]
    rfl
  · rw [if_neg named, decide_eq_false named]
    rfl

/-- Dots in front of a fragment name. -/
theorem spreadDots_reads {dots : Token} (h : dots.isPunctuator "..." = true) :
    (Chain.of spreadDots).Reads [dots] dots FragmentNameAhead where
  some := List.cons_ne_nil _ _
  runs := by
    intro c rest recovery hc hr _
    exact (spreadDots_parse recovery hc h).trans (if_pos hr)
  headed := by
    intro c rest hc hr
    exact (spreadDots_recognize hc h).trans (decide_eq_true hr)

theorem spreadDots_guarded : spreadDots.Guarded [.mark "..."] := by
  refine terminal_guarded fun c hc => ?_
  have first : ∃ e, readToken "..." (·.isPunctuator "...") c = .error e :=
    readToken_refused fun t ht => hc t ht _ List.mem_cons_self
  obtain ⟨e, he⟩ := first
  rw [he]
  exact ⟨e, rfl⟩

/-! ## Lists -/

section Lists

variable {item : Parser Token α} {leads stops : List Lead} {leavesOf : α → List Token}
  {items : List α}

/-- The items fit one another, and behind them the list ends. -/
theorem items_end (each : ∀ x ∈ items, item.Takes stops (leavesOf x) x) (led : item.LedBy leads)
    (apart : Lead.allApart leads stops = true) (hr : Avoids (stops ++ leads) rest) :
    Parser.Fits leavesOf (fun _ => Avoids stops) items rest ∧ item.Declines rest := by
  rw [avoids_append] at hr
  have behind : ∀ x ∈ items, ∀ more, Avoids stops more → Avoids stops (leavesOf x ++ more) :=
    fun x hx _ hm => ((each x hx).begins led hm).avoids apart
  exact ⟨(Parser.fits_of_behind behind hr.1).2, led.declines rest hr.2⟩

theorem many0_takes (each : ∀ x ∈ items, item.Takes stops (leavesOf x) x) (led : item.LedBy leads)
    (apart : Lead.allApart leads stops = true) :
    item.many0.Reads (items.flatMap leavesOf) items (Avoids (stops ++ leads)) :=
  (Parser.many0_reads fun x hx => (each x hx).reads.item (each x hx).some).mono
    fun _ hr => items_end each led apart hr

theorem many1_takes (each : ∀ x ∈ items, item.Takes stops (leavesOf x) x) (led : item.LedBy leads)
    (apart : Lead.allApart leads stops = true) (some : items ≠ []) :
    item.many1.Takes (stops ++ leads) (items.flatMap leavesOf) items where
  some := by
    obtain ⟨x, xs, rfl⟩ := List.exists_cons_of_ne_nil some
    exact List.append_ne_nil_of_left_ne_nil (each x List.mem_cons_self).some _
  reads := (Parser.many1_reads (fun x hx => (each x hx).reads.item (each x hx).some) some).mono
    fun _ hr => items_end each led apart hr

end Lists

/-! ## Shared shapes -/

theorem closing_reads {chain : Chain Token α} {stops : List Lead} {leaves : List Token} {v : α}
    {mark : Text} (h : chain.Reads leaves v (Avoids stops)) (ht : t.isPunctuator mark = true)
    (apart : Lead.allApart [.mark mark] stops = true) (missing : α → Expectation) :
    (chain.andRecover (punctuator mark) missing).Reads (leaves ++ [t]) (v, .present t) (Avoids []) :=
  h.andRecover (punctuator_takes ht).reads
    (fun _ _ => avoids_cons (l := .mark mark) ht apart) missing

section Shapes

variable {item : Parser Token α} {leads stops : List Lead} {outline : α → Outline}
  {test : α → Bool}

theorem delimited_takes {opening closing : Text} {items : Delimited α}
    (h : items.isWellFormed opening closing test = true) (code : SyntaxCode)
    (each : ∀ x ∈ items.items, test x = true → item.Takes stops (outline x).tokens x)
    (led : item.LedBy leads) (apart : Lead.allApart leads stops = true)
    (closes : Lead.allApart [.mark closing] (stops ++ leads) = true) :
    (delimited opening closing item code).Takes [] (tokensOf (Outline.delimited outline items))
      items := by
  obtain ⟨opens, xs, close⟩ := items
  simp only [Delimited.isWellFormed, Bool.and_eq_true, List.all_eq_true] at h
  obtain ⟨ho, hi, hc⟩ := h
  obtain ⟨close, rfl, hc⟩ := exists_of_filled hc
  have body := many0_takes (fun x hx => each x hx (hi x hx)) led apart
  have inner := (Chain.of_takes (punctuator_takes ho)).and body fun _ _ => avoids_none _
  have whole := closing_reads inner hc closes fun left => unclosed code left.1
  have leaves : tokensOf (Outline.delimited outline ⟨opens, xs, .present close⟩) =
      [opens] ++ (xs.flatMap fun x => (outline x).tokens) ++ [close] := by
    simp [Outline.delimited]
  rw [leaves]
  exact whole.takes _

/-- The node of a list that does not nest. -/
theorem delimitedNode_takes {opening closing : Text} {items : Delimited α} {role : Role}
    {node : Node} {levels : Nat} (plain : node.kind.nests = false)
    (h : items.isWellFormed opening closing test = true)
    (nests : (Outline.node role node (Outline.delimited outline items)).nesting ≤ levels)
    (code : SyntaxCode)
    (each : ∀ {x : α}, test x = true → (outline x).nesting ≤ levels →
      item.Takes stops (outline x).tokens x)
    (led : item.LedBy leads) (apart : Lead.allApart leads stops = true)
    (closes : Lead.allApart [.mark closing] (stops ++ leads) = true) :
    (delimited opening closing item code).Takes []
      (Outline.node role node (Outline.delimited outline items)).tokens items := by
  have deep := inside_of_plain plain nests
  rw [nestingOf_delimited_le] at deep
  rw [tokens_node]
  exact delimited_takes h code (fun x hx wf => each wf (deep x hx)) led apart closes

theorem delimited_guarded (opening closing : Text) (item : Parser Token α) (code : SyntaxCode) :
    (delimited opening closing item code).Guarded [.mark opening] :=
  Chain.map_guarded (punctuator_guarded opening).recognize _

/-- A separator and the member behind it. -/
theorem member_takes {mark : Text} {entry : Token × Required α}
    (hs : entry.1.isPunctuator mark = true) (ha : filled test entry.2 = true)
    (each : ∀ a, test a = true → item.Takes [] (outline a).tokens a) (led : item.LedBy leads)
    (code : SyntaxCode) :
    (andSlot (Chain.of (punctuator mark)) item code).toParser.Takes []
      (tokensOf [.token entry.1, single outline entry.2]) entry := by
  obtain ⟨separator, member⟩ := entry
  obtain ⟨a, rfl, ha⟩ := exists_of_filled ha
  have chain := (Chain.of_takes (punctuator_takes hs)).andSlot (each a ha) led
    (Lead.allApart_nil _) code
  have leaves : tokensOf [.token separator, single outline (.present a)] =
      [separator] ++ (outline a).tokens := by simp
  rw [leaves]
  exact ⟨chain.some, chain.toParser⟩

theorem memberList_takes {intro : Parser Token Token} {isIntro : Token → Bool} {mark : Text}
    {members : MemberList α}
    (h : members.isWellFormed isIntro (·.isPunctuator mark) test = true) (first next : SyntaxCode)
    (intros : ∀ t, isIntro t = true → intro.Takes [] [t] t)
    (each : ∀ a, test a = true → item.Takes [] (outline a).tokens a) (led : item.LedBy leads)
    (apart : Lead.allApart leads [.mark mark] = true) :
    (memberList intro (punctuator mark) item first next).Takes [.mark mark]
      (tokensOf (Outline.members outline members)) members := by
  obtain ⟨start, leading, member, more⟩ := members
  simp only [MemberList.isWellFormed, Bool.and_eq_true, List.all_eq_true, Option.all_eq_true] at h
  obtain ⟨hi, hl, ha, hm⟩ := h
  obtain ⟨a, rfl, ha⟩ := exists_of_filled ha
  have marked : (punctuator mark).LedBy [.mark mark] := (punctuator_guarded mark).led
  have head := ((Chain.of_takes (intros start hi)).andOpt
    (fun t ht => punctuator_takes (hl t ht)) marked (Lead.allApart_nil _)).andSlot (each a ha) led
    apart first
  have entries := many0_takes
    (fun entry he => member_takes (hm entry he).1 (hm entry he).2 each led next)
    (Chain.toParser_guarded (punctuator_guarded mark).recognize).led (Lead.allApart_nil _)
  have whole := head.and entries fun _ _ => avoids_none _
  have leaves : tokensOf (Outline.members outline ⟨start, leading, .present a, more⟩) =
      [start] ++ (leading.elim [] fun t => [t]) ++ (outline a).tokens ++
        more.flatMap fun entry => tokensOf [.token entry.1, single outline entry.2] := by
    simp [Outline.members]
  rw [leaves]
  exact whole.takes _

theorem memberList_guarded {intro : Parser Token Token} (h : intro.Guarded leads)
    (separator : Parser Token Token) (item : Parser Token α) (first next : SyntaxCode) :
    (memberList intro separator item first next).Guarded leads :=
  Chain.map_guarded h.recognize _

end Shapes

end Production

end GraphQL
