import Mathlib.Data.List.Forall2
import GraphQL.Production.Terminal
import GraphQL.Proofs.Document.WellFormed
import GraphQL.Proofs.Recovery.Reading

/-! # What constructs begin with

A `Lead` is a class of tokens that constructs begin with. One token of look-ahead tells most
alternatives and options apart: a parser that is led by some leads fails elsewhere, and leaves that
it reads begin with one of them.

* `Avoids` and `Begins` say what stands ahead,
* `Parser.LedBy` and `Parser.Guarded` say what a parser needs there,
* `Chain.Reads.andOpt` adds an option to a chain, whether it is there or not. -/

namespace GraphQL

set_option autoImplicit false

/-- Tokens that a construct begins with. -/
inductive Lead where
  | mark (text : Text)
  | word (text : Text)
  | kind (kind : TokenKind)

namespace Lead

def accepts : Lead → Token → Bool
  | .mark text, t => t.isPunctuator text
  | .word text, t => t.isName text
  | .kind k, t => t.kind == k

/-- No token is of both classes. -/
def apart : Lead → Lead → Bool
  | .mark a, .mark b => a != b
  | .word a, .word b => a != b
  | .mark _, .word _ => true
  | .word _, .mark _ => true
  | .mark _, .kind k => k != .punctuator
  | .kind k, .mark _ => k != .punctuator
  | .word _, .kind k => k != .name
  | .kind k, .word _ => k != .name
  | .kind a, .kind b => a != b

theorem kind_of_mark {t : Token} {text : Text} (h : t.isPunctuator text = true) :
    t.kind = .punctuator ∧ t.text = text := by
  simpa [Token.isPunctuator] using h

theorem kind_of_word {t : Token} {text : Text} (h : t.isName text = true) :
    t.kind = .name ∧ t.text = text := by
  simpa [Token.isName] using h

theorem accepts_of_apart {a b : Lead} {t : Token} (h : a.apart b = true) (ha : a.accepts t = true) :
    b.accepts t = false := by
  cases a with
  | mark x =>
    obtain ⟨hk, rfl⟩ := kind_of_mark ha
    cases b with
    | mark y => simpa [apart, accepts, Token.isPunctuator, hk] using h
    | word y => simp [accepts, Token.isName, hk]
    | kind k =>
      rw [accepts, hk]
      exact beq_false_of_ne (bne_iff_ne.1 h).symm
  | word x =>
    obtain ⟨hk, rfl⟩ := kind_of_word ha
    cases b with
    | mark y => simp [accepts, Token.isPunctuator, hk]
    | word y => simpa [apart, accepts, Token.isName, hk] using h
    | kind k =>
      rw [accepts, hk]
      exact beq_false_of_ne (bne_iff_ne.1 h).symm
  | kind k =>
    have hk : t.kind = k := by simpa [accepts] using ha
    subst hk
    cases b with
    | mark y => exact Bool.and_eq_false_iff.2 (.inl (beq_false_of_ne (bne_iff_ne.1 h)))
    | word y => exact Bool.and_eq_false_iff.2 (.inl (beq_false_of_ne (bne_iff_ne.1 h)))
    | kind k => exact beq_false_of_ne (bne_iff_ne.1 h)

/-- No token is of a class here and of a class there. -/
def allApart (leads stops : List Lead) : Bool := leads.all fun a => stops.all a.apart

theorem allApart_nil (leads : List Lead) : allApart leads [] = true := List.all_eq_true.2 fun _ _ => rfl

end Lead

/-- The next token is of none of the classes. -/
def Avoids (leads : List Lead) (ahead : List Token) : Prop :=
  ∀ t ∈ ahead.head?, ∀ l ∈ leads, l.accepts t = false

/-- There is a next token, and it is of one of the classes. -/
def Begins (leads : List Lead) (ahead : List Token) : Prop :=
  ∃ t ∈ ahead.head?, ∃ l ∈ leads, l.accepts t = true

variable {leads leads' stops stops' : List Lead} {ahead rest : List Token} {t : Token}

theorem avoids_nil (leads : List Lead) : Avoids leads [] := fun _ h => nomatch h

theorem avoids_none (ahead : List Token) : Avoids [] ahead := fun _ _ _ h => nomatch h

theorem avoids_append : Avoids (leads ++ leads') ahead ↔ Avoids leads ahead ∧ Avoids leads' ahead := by
  unfold Avoids
  simp only [List.forall_mem_append, forall_and]

theorem Avoids.sub (h : Avoids leads ahead) (sub : leads' ⊆ leads) : Avoids leads' ahead :=
  fun t ht l hl => h t ht l (sub hl)

theorem begins_cons {l : Lead} (hl : l ∈ leads) (h : l.accepts t = true) : Begins leads (t :: rest) :=
  ⟨t, rfl, l, hl, h⟩

theorem Begins.sub (h : Begins leads ahead) (sub : leads ⊆ leads') : Begins leads' ahead := by
  obtain ⟨t, ht, l, hl, accepted⟩ := h
  exact ⟨t, ht, l, sub hl, accepted⟩

theorem Begins.avoids (h : Begins leads ahead) (apart : Lead.allApart leads stops = true) :
    Avoids stops ahead := by
  intro t ht b hb
  obtain ⟨t', ht', a, ha, accepted⟩ := h
  have same : t = t' := Option.some.inj (ht.symm.trans ht')
  subst same
  exact Lead.accepts_of_apart (List.all_eq_true.1 (List.all_eq_true.1 apart a ha) b hb) accepted

/-- A token that begins no option. -/
theorem avoids_cons {l : Lead} (h : l.accepts t = true) (apart : Lead.allApart [l] stops = true) :
    Avoids stops (t :: rest) := (begins_cons List.mem_cons_self h).avoids apart

theorem begins_of_not_avoids (h : ¬Avoids leads ahead) : Begins leads ahead := by
  refine Classical.byContradiction fun none => h fun t ht l hl => ?_
  cases accepted : l.accepts t with
  | false => rfl
  | true => exact absurd ⟨t, ht, l, hl, accepted⟩ none

namespace Recovery

variable {α β : Type} {p : Parser Token α} {leaves more : List Token} {v : α} {fit : List Token → Prop}

/-! ## Parsers with leads -/

/-- Without one of the leads ahead the parser is not recognized, and fails at a recovery point. -/
structure Parser.LedBy (p : Parser Token α) (leads : List Lead) : Prop where
  recognize : ∀ c : Cursor Token, Avoids leads c.ahead → p.recognize c = false
  declines : ∀ ahead, Avoids leads ahead → p.Declines ahead

/-- Without one of the leads ahead the parser is not recognized, and fails. -/
structure Parser.Guarded (p : Parser Token α) (leads : List Lead) : Prop where
  recognize : ∀ c : Cursor Token, Avoids leads c.ahead → p.recognize c = false
  refuses : ∀ ahead, Avoids leads ahead → p.Refuses ahead

namespace Parser

theorem Guarded.led (h : p.Guarded leads) : p.LedBy leads :=
  ⟨h.recognize, fun ahead ha => (h.refuses ahead ha).declines⟩

theorem Guarded.map (h : p.Guarded leads) (f : α → β) : (p.map f).Guarded leads :=
  ⟨h.recognize, fun ahead ha => (h.refuses ahead ha).map f⟩

theorem LedBy.many1 (h : p.LedBy leads) : p.many1.LedBy leads :=
  ⟨h.recognize, fun ahead ha => (h.declines ahead ha).many1⟩

theorem token_guarded {what : Text} {accept : Token → Option α}
    (h : ∀ t, (∀ l ∈ leads, l.accepts t = false) → accept t = none) :
    (token what accept).Guarded leads where
  recognize := by
    intro c hc
    show (c.peek.bind accept).isSome = false
    rw [c.peek_eq_head?]
    cases hp : c.ahead.head? with
    | none => rfl
    | some t => rw [Option.bind_some, h t (hc t hp), Option.isSome_none]
  refuses := fun _ ha => token_refuses fun t ht => h t (ha t ht)

theorem alt_guarded {alternatives : List (Parser Token α)} {guards : List (List Lead)}
    (h : List.Forall₂ Guarded alternatives guards) : (alt alternatives).Guarded guards.flatten where
  recognize := by
    intro c hc
    show alternatives.any (·.recognize c) = false
    induction h with
    | nil => rfl
    | cons first _ ih =>
      rw [List.flatten_cons, avoids_append] at hc
      rw [List.any_cons, first.recognize c hc.1, ih hc.2, Bool.or_false]
  refuses := by
    intro ahead ha
    refine alt_refuses ?_
    induction h with
    | nil => simp
    | cons first _ ih =>
      rw [List.flatten_cons, avoids_append] at ha
      rw [List.forall_mem_cons]
      exact ⟨first.refuses ahead ha.1, ih ha.2⟩

theorem Guarded.suffixed (h : p.Guarded leads) (s : Parser Token β) : (p.suffixed s).Guarded leads :=
  ⟨h.recognize, fun ahead ha => (h.refuses ahead ha).suffixed s⟩

theorem tooDeep_guarded {recognize : Recognizer Token}
    (h : ∀ c : Cursor Token, Avoids leads c.ahead → recognize c = false) :
    (tooDeep recognize : Parser Token α).Guarded leads := ⟨h, fun _ _ => refuses_tooDeep recognize⟩

/-- Where a parser is recognized there is one of its leads. -/
theorem LedBy.begins (led : p.LedBy leads)
    (h : ∀ c : Cursor Token, c.ahead = ahead → p.recognize c = true) : Begins leads ahead := by
  refine begins_of_not_avoids fun avoids => ?_
  obtain ⟨c, hc⟩ := Cursor.exists_ahead ahead
  have recognized := h c hc
  rw [led.recognize c (hc ▸ avoids)] at recognized
  cases recognized

theorem Reads.begins (h : p.Reads leaves v fit) (led : p.LedBy leads) (some : leaves ≠ [])
    (hr : fit rest) : Begins leads (leaves ++ rest) :=
  led.begins fun c hc => h.recognizes some c rest hc hr

theorem ReadsItem.begins (h : p.ReadsItem leaves v fit) (led : p.LedBy leads) (hr : fit rest) :
    Begins leads (leaves ++ rest) := led.begins fun c hc => h.recognizes c rest hc hr

/-- The leaves are some, and are read where none of the stops follows. -/
structure Takes (p : Parser Token α) (stops : List Lead) (leaves : List Token) (value : α) :
    Prop where
  some : leaves ≠ []
  reads : p.Reads leaves value (Avoids stops)

theorem Takes.map (h : p.Takes stops leaves v) (f : α → β) : (p.map f).Takes stops leaves (f v) :=
  ⟨h.some, h.reads.map f⟩

theorem Takes.mono (h : p.Takes stops leaves v) (sub : stops ⊆ stops') : p.Takes stops' leaves v :=
  ⟨h.some, h.reads.mono fun _ hr => hr.sub sub⟩

theorem Takes.begins (h : p.Takes stops leaves v) (led : p.LedBy leads) (hr : Avoids stops rest) :
    Begins leads (leaves ++ rest) := h.reads.begins led h.some hr

theorem Takes.alt_head (h : p.Takes stops leaves v) (others : List (Parser Token α)) :
    (alt (p :: others)).Takes stops leaves v := ⟨h.some, h.reads.alt_head others⟩

theorem Takes.alt_cons {others : List (Parser Token α)} (h : (alt others).Takes stops leaves v)
    (refuses : ∀ rest, Avoids stops rest → p.Refuses (leaves ++ rest)) :
    (alt (p :: others)).Takes stops leaves v := ⟨h.some, h.reads.alt_cons refuses⟩

theorem begins_option {o : Option α} {f : α → List Token}
    (ho : ∀ a ∈ o, p.Takes stops (f a) a) (led : p.LedBy leads)
    (behind : Begins leads' rest) (apart : Lead.allApart leads' stops = true) :
    Begins (leads ++ leads') (o.elim [] f ++ rest) := by
  cases o with
  | none => exact behind.sub (List.subset_append_right leads leads')
  | some a =>
    exact ((ho a rfl).begins led (behind.avoids apart)).sub (List.subset_append_left leads leads')

/-- An alternative is taken where those in front of it have no lead. -/
theorem alt_takes {alternatives : List (Parser Token α)} {guards : List (List Lead)} {i : Nat}
    (guarded : List.Forall₂ Guarded alternatives guards) (here : alternatives[i]? = .some p)
    (h : p.Takes stops leaves v)
    (earlier : ∀ rest, Avoids stops rest → Avoids (guards.take i).flatten (leaves ++ rest)) :
    (alt alternatives).Takes stops leaves v := by
  induction guarded generalizing i with
  | nil => cases here
  | @cons q leads others guards first _ ih =>
    cases i with
    | zero =>
      cases here
      exact h.alt_head others
    | succ i =>
      simp only [List.take_succ_cons, List.flatten_cons, avoids_append] at earlier
      exact (ih here fun rest hr => (earlier rest hr).2).alt_cons
        fun rest hr => first.refuses _ (earlier rest hr).1

theorem token_takes {what : Text} {accept : Token → Option α} (h : accept t = some v) :
    (token what accept).Takes [] [t] v :=
  ⟨List.cons_ne_nil t [], (token_reads h).mono fun _ _ => trivial⟩

end Parser

/-! ## Chains -/

namespace Chain

variable {chain : Chain Token α} {next : Parser Token β} {w : β}

theorem of_takes (h : p.Takes stops leaves v) : (Chain.of p).Reads leaves v (Avoids stops) :=
  of_reads h.reads h.some

theorem Reads.takes (h : chain.Reads leaves v (Avoids stops)) (f : α → β) :
    (chain.map f).Takes stops leaves (f v) := ⟨h.some, h.map f⟩

theorem toParser_guarded (h : ∀ c : Cursor Token, Avoids leads c.ahead → chain.head c = false) :
    chain.toParser.Guarded leads := ⟨h, fun _ ha => toParser_refuses fun c hc => h c (hc ▸ ha)⟩

theorem map_guarded (h : ∀ c : Cursor Token, Avoids leads c.ahead → chain.head c = false)
    (f : α → β) : (chain.map f).Guarded leads := by
  have same : ∀ c : Cursor Token, Avoids leads c.ahead → (chain.onValue f).head c = false := h
  exact toParser_guarded same

/-- One more part that is there, where its leads are no stops of the chain. -/
theorem Reads.andSlot (h : chain.Reads leaves v (Avoids stops)) (hn : next.Takes stops' more w)
    (led : next.LedBy leads) (apart : Lead.allApart leads stops = true) (code : SyntaxCode) :
    (Production.andSlot chain next code).Reads (leaves ++ more) (v, .present w) (Avoids stops') :=
  h.andRecover hn.reads (fun _ hr => (hn.begins led hr).avoids apart) _

/-- One more option that is there. -/
theorem Reads.andThere (h : chain.Reads leaves v (Avoids stops)) (hn : next.Takes stops' more w)
    (led : next.LedBy leads) (apart : Lead.allApart leads stops = true) :
    (chain.and next.opt).Reads (leaves ++ more) (v, .some w) (Avoids stops') :=
  h.and hn.reads.opt fun _ hr => (hn.begins led hr).avoids apart

/-- One more option, whether it is there or not. -/
theorem Reads.andOpt (h : chain.Reads leaves v (Avoids stops)) {o : Option β} {f : β → List Token}
    (ho : ∀ b ∈ o, next.Takes stops' (f b) b) (led : next.LedBy leads)
    (apart : Lead.allApart leads stops = true) :
    (chain.and next.opt).Reads (leaves ++ o.elim [] f) (v, o)
      (Avoids (stops ++ (leads ++ stops'))) := by
  cases o with
  | none =>
    refine (h.and (Parser.opt_lacking next |>.mono fun rest hr => ?_) fun rest hr => ?_)
    · exact led.declines rest (avoids_append.1 (avoids_append.1 hr).2).1
    · exact (avoids_append.1 hr).1
  | some b =>
    refine (h.andThere (ho b rfl) led apart).mono fun rest hr => ?_
    exact (avoids_append.1 (avoids_append.1 hr).2).2

end Chain

end Recovery

end GraphQL
