import GraphQL.Proofs.Document.Relocation
import GraphQL.Proofs.Recovery.Outcome
import Mathlib.Data.List.Forall2

/-! # Parsing at another place

A `Relocation` puts tokens in front of a buffer and gives the tokens of the buffer new places. A
parser is *equivariant* if it reads there what it reads in the buffer alone, relocated: the same
tokens are recognized, read and passed over, and what is read has its spans mapped.

Only gaps look back, at the token in front of them. So a parser that records a gap before it has
read anything is equivariant only where a token stands in front of it already
(`Parser.EquivariantInside`); a chain reads its head first. Each combinator has its lemma. -/

namespace GraphQL

set_option autoImplicit false

open Recovery (Chain Cursor ParseError Parser Reading Recognizer Search Slot)

variable {α β γ : Type}

/-- Tokens in front of a buffer, and the places that the tokens of the buffer get. -/
structure Relocation where
  front : Array Token
  place : Span → Span
  place_between : ∀ a b, place (Span.between a b) = Span.between (place a) (place b)
  place_atStop : ∀ a, place a.atStop = (place a).atStop
  place_join : ∀ a b, place (a.join b) = (place a).join (place b)

/-- A token stands in front of the cursor. -/
def Recovery.Cursor.Started (c : Cursor Token) : Prop := ∃ t, c.previous = some t

namespace Relocation

variable (m : Relocation) {c : Cursor Token}

def token (t : Token) : Token := t.mapSpans m.place

/-- The same place of the buffer, with the tokens in front of it. -/
def cursor (c : Cursor Token) : Cursor Token :=
  ⟨m.front ++ c.tokens.map m.token, m.front.size + c.position⟩

def positions (passed : List Nat) : List Nat := passed.map (m.front.size + ·)

def reading (f : α → β) (r : Reading α) : Reading β :=
  ⟨f r.value, m.front.size + r.position, m.positions r.skipped⟩

def search (f : α → β) : Search α → Search β
  | .found r passed => .found (m.reading f r) (m.positions passed)
  | .recovered stop passed => .recovered (m.front.size + stop) (m.positions passed)
  | .exhausted => .exhausted

/-- Recovery points that recognize the same. -/
def Same (moved recovery : Recognizer Token) : Prop := ∀ c, moved (m.cursor c) = recovery c

/-! ## Cursors -/

theorem positions_append (passed more : List Nat) :
    m.positions (passed ++ more) = m.positions passed ++ m.positions more := List.map_append

theorem getElem?_cursor (c : Cursor Token) (i : Nat) :
    (m.cursor c).tokens[m.front.size + i]? = c.tokens[i]?.map m.token := by
  show (m.front ++ c.tokens.map m.token)[m.front.size + i]? = _
  rw [Array.getElem?_append_right (Nat.le_add_right _ _), Nat.add_sub_cancel_left,
    Array.getElem?_map]

theorem size_cursor (c : Cursor Token) :
    (m.cursor c).tokens.size = m.front.size + c.tokens.size := by
  simp [cursor]

theorem peek_cursor (c : Cursor Token) : (m.cursor c).peek = c.peek.map m.token :=
  m.getElem?_cursor c c.position

theorem moveTo_cursor (c : Cursor Token) (position : Nat) :
    (m.cursor c).moveTo (m.front.size + position) = m.cursor (c.moveTo position) := rfl

theorem advance_cursor (c : Cursor Token) : (m.cursor c).advance = m.cursor c.advance := rfl

theorem inside_cursor (c : Cursor Token) :
    (m.cursor c).position < (m.cursor c).tokens.size ↔ c.position < c.tokens.size := by
  rw [size_cursor]
  exact Nat.add_lt_add_iff_left

theorem remaining_cursor (c : Cursor Token) : (m.cursor c).remaining = c.remaining := by
  rw [Cursor.remaining, size_cursor]
  exact Nat.add_sub_add_left _ _ _

theorem previous_cursor {t : Token} (h : c.previous = some t) :
    (m.cursor c).previous = some (m.token t) := by
  obtain ⟨tokens, position⟩ := c
  cases position with
  | zero => cases h
  | succ position =>
    have here : tokens[position]? = some t := h
    have moved := m.getElem?_cursor ⟨tokens, position⟩ position
    rw [here] at moved
    exact moved

/-- Between tokens that are there, the gap is the relocated gap. -/
theorem gapSpan_cursor (h : c.Started) : (m.cursor c).gapSpan = m.place c.gapSpan := by
  obtain ⟨last, here⟩ := h
  rw [Cursor.gapSpan, Cursor.gapSpan, m.previous_cursor here, here, peek_cursor]
  cases c.peek with
  | none => exact (m.place_atStop _).symm
  | some next => exact (m.place_between _ _).symm

theorem same_endOfInput : m.Same Recognizer.endOfInput Recognizer.endOfInput := by
  intro c
  show decide _ = decide _
  rw [size_cursor]
  exact decide_eq_decide.2 Nat.add_le_add_iff_left

end Relocation

/-! ## Started cursors -/

namespace Recovery.Cursor

variable {c : Cursor Token}

theorem started_advance (h : c.position < c.tokens.size) : c.advance.Started :=
  ⟨c.tokens[c.position], by
    show (if c.position + 1 = 0 then none else c.tokens[c.position]?) = _
    rw [if_neg (Nat.succ_ne_zero _), Array.getElem?_eq_getElem h]⟩

theorem started_of_peek {t : Token} (h : c.peek = some t) : (c.moveTo (c.position + 1)).Started :=
  started_advance (Array.getElem?_eq_some_iff.1 h).1

end Recovery.Cursor

/-! ## Equivariance -/

variable {m : Relocation} {f : α → α} {g : β → β}

/-- Wherever a token stands in front, `p` reads at the new place what it reads here. It stops where
a token stands in front. -/
structure Recovery.Parser.EquivariantInside (m : Relocation) (f : α → α) (p : Parser Token α) :
    Prop where
  recognize : ∀ c, p.recognize (m.cursor c) = p.recognize c
  parse : ∀ {c recovery moved}, c.Started → m.Same moved recovery →
    p.parse (m.cursor c) moved = (p.parse c recovery).map (m.reading f)
  started : ∀ {c recovery r}, c.Started → p.parse c recovery = .ok r →
    (c.moveTo r.position).Started

/-- Wherever it stands, `p` reads at the new place what it reads here. -/
structure Recovery.Parser.Equivariant (m : Relocation) (f : α → α) (p : Parser Token α) : Prop where
  recognize : ∀ c, p.recognize (m.cursor c) = p.recognize c
  parse : ∀ {c recovery moved}, m.Same moved recovery →
    p.parse (m.cursor c) moved = (p.parse c recovery).map (m.reading f)
  started : ∀ {c recovery r}, c.Started → p.parse c recovery = .ok r →
    (c.moveTo r.position).Started

theorem Recovery.Parser.Equivariant.inside {p : Parser Token α} (hp : p.Equivariant m f) :
    p.EquivariantInside m f := ⟨hp.recognize, fun _ same => hp.parse same, hp.started⟩

/-- Whatever the parser reads, some token is read. -/
def Recovery.Parser.Consumes (p : Parser Token α) : Prop :=
  ∀ {c recovery r}, p.parse c recovery = .ok r → (c.moveTo r.position).Started

/-- Wherever it begins, the chain reads at the new place what it reads here, and it reads some
token. -/
structure Recovery.Chain.Equivariant (m : Relocation) (f : α → α) (chain : Chain Token α) :
    Prop where
  head : ∀ c, chain.head (m.cursor c) = chain.head c
  run : ∀ {c recovery moved}, m.Same moved recovery →
    chain.run (m.cursor c) moved = (chain.run c recovery).map (m.reading f)
  started : ∀ {c recovery r}, chain.run c recovery = .ok r → (c.moveTo r.position).Started

theorem Relocation.Same.or {moved recovery : Recognizer Token} (h : m.Same moved recovery)
    {p : Parser Token β} (hp : p.EquivariantInside m g) :
    m.Same (moved.or p.recognize) (recovery.or p.recognize) := by
  intro c
  show (moved _ || p.recognize _) = (recovery _ || p.recognize _)
  rw [h c, hp.recognize c]

namespace Recovery.Parser

variable {p : Parser Token α} {c : Cursor Token} {recovery moved itemRecovery itemMoved :
  Recognizer Token}

/-! ### Passing over tokens -/

theorem search_moved {P : Cursor Token → Prop}
    (step : ∀ c : Cursor Token, c.position < c.tokens.size → P c.advance)
    (parse : ∀ c, P c → p.parse (m.cursor c) itemMoved = (p.parse c itemRecovery).map (m.reading f))
    (same : m.Same moved recovery) (h : P c) :
    p.search itemMoved moved (m.cursor c) = m.search f (p.search itemRecovery recovery c) := by
  fun_induction Parser.search p itemRecovery recovery c with
  | case1 c reading found =>
    rw [search, parse c h, found]
    rfl
  | case2 c e failed waiting =>
    rw [search, parse c h, failed]
    simp only [Except.map, same c, waiting, if_true]
    rfl
  | case3 c e failed waiting inside ih =>
    rw [search, parse c h, failed]
    simp only [Except.map, same c, waiting, if_false, m.inside_cursor, inside, if_true,
      m.advance_cursor, ih (step c inside), Bool.false_eq_true]
    cases search p itemRecovery recovery c.advance <;> rfl
  | case4 c e failed waiting outside =>
    rw [search, parse c h, failed]
    simp only [Except.map, same c, waiting, if_false, m.inside_cursor, outside, Bool.false_eq_true]
    rfl

theorem EquivariantInside.search_moved (hp : p.EquivariantInside m f)
    (item : m.Same itemMoved itemRecovery) (same : m.Same moved recovery) (h : c.Started) :
    p.search itemMoved moved (m.cursor c) = m.search f (p.search itemRecovery recovery c) :=
  Parser.search_moved (fun _ inside => Cursor.started_advance inside)
    (fun _ started => hp.parse started item) same h

theorem Equivariant.search_anywhere (hp : p.Equivariant m f)
    (item : m.Same itemMoved itemRecovery) (same : m.Same moved recovery) :
    p.search itemMoved moved (m.cursor c) = m.search f (p.search itemRecovery recovery c) :=
  Parser.search_moved (P := fun _ => True) (fun _ _ => trivial) (fun _ _ => hp.parse item) same
    trivial

/-- Whether the item was found or the recovery point was, a token stands in front. -/
theorem EquivariantInside.search_started (hp : p.EquivariantInside m f)
    (itemRecovery recovery : Recognizer Token) (h : c.Started) :
    match p.search itemRecovery recovery c with
    | .found r _ => (c.moveTo r.position).Started
    | .recovered stop _ => (c.moveTo stop).Started
    | .exhausted => True := by
  fun_induction Parser.search p itemRecovery recovery c with
  | case1 c reading found => exact hp.started h found
  | case2 c e failed waiting => exact h
  | case3 c e failed waiting inside ih =>
    have later := ih (Cursor.started_advance inside)
    cases hs : search p itemRecovery recovery c.advance with
    | found r passed =>
      rw [hs] at later
      exact later
    | recovered stop passed =>
      rw [hs] at later
      exact later
    | exhausted => trivial
  | case4 => trivial

theorem EquivariantInside.found_started (hp : p.EquivariantInside m f) (h : c.Started)
    {r : Reading α} {passed : List Nat}
    (hs : p.search itemRecovery recovery c = .found r passed) : (c.moveTo r.position).Started := by
  have both := hp.search_started itemRecovery recovery h
  rw [hs] at both
  exact both

theorem EquivariantInside.recovered_started (hp : p.EquivariantInside m f) (h : c.Started)
    {stop : Nat} {passed : List Nat}
    (hs : p.search itemRecovery recovery c = .recovered stop passed) :
    (c.moveTo stop).Started := by
  have both := hp.search_started itemRecovery recovery h
  rw [hs] at both
  exact both

/-! ### Combinators -/

variable {q : Parser Token β}

theorem token_equivariant {what : Text} {accept : Token → Option α}
    (h : ∀ t, accept (m.token t) = (accept t).map f) : (token what accept).Equivariant m f where
  recognize c := by
    show ((m.cursor c).peek.bind accept).isSome = (c.peek.bind accept).isSome
    rw [m.peek_cursor]
    cases c.peek with
    | none => rfl
    | some t => rw [Option.map_some, Option.bind_some, h, Option.isSome_map, Option.bind_some]
  parse {c _ _} _ := by
    simp only [token, m.peek_cursor]
    cases c.peek with
    | none => rfl
    | some t =>
      simp only [Option.map_some, h]
      cases accept t <;> rfl
  started _ h := by
    obtain ⟨t, a, here, -, rfl⟩ := token_ok h
    exact Cursor.started_of_peek here

theorem token_consumes {what : Text} {accept : Token → Option α} :
    (token what accept).Consumes := by
  intro c recovery r h
  obtain ⟨t, a, here, -, rfl⟩ := token_ok h
  exact Cursor.started_of_peek here

theorem Equivariant.map (hp : p.Equivariant m f) {k : α → β} (h : ∀ a, k (f a) = g (k a)) :
    (p.map k).Equivariant m g where
  recognize := hp.recognize
  parse {c recovery moved} same := by
    simp only [Parser.map, hp.parse same]
    cases p.parse c recovery with
    | error e => rfl
    | ok r => simp only [Except.map, Relocation.reading, h]
  started start hr := by
    obtain ⟨s, hs, rfl⟩ := map_ok hr
    exact hp.started start hs

theorem Consumes.map (hp : p.Consumes) (k : α → β) : (p.map k).Consumes := by
  intro c recovery r hr
  obtain ⟨s, hs, rfl⟩ := map_ok hr
  exact hp hs

theorem alt_equivariant {ps : List (Parser Token α)} (h : ∀ p ∈ ps, p.Equivariant m f) :
    (alt ps).Equivariant m f where
  recognize c := by
    show ps.any (·.recognize (m.cursor c)) = ps.any (·.recognize c)
    induction ps with
    | nil => rfl
    | cons p ps ih =>
      rw [List.forall_mem_cons] at h
      rw [List.any_cons, List.any_cons, h.1.recognize, ih h.2]
  parse {c recovery moved} same := by
    show firstOf (m.cursor c) moved ps = (firstOf c recovery ps).map _
    induction ps with
    | nil => rfl
    | cons p ps ih =>
      rw [List.forall_mem_cons] at h
      rw [firstOf, firstOf, h.1.parse same]
      cases p.parse c recovery with
      | error e => exact ih h.2
      | ok r => rfl
  started start hr := by
    obtain ⟨p, hp, hr⟩ := alt_ok hr
    exact (h p hp).started start hr

theorem alt_consumes {ps : List (Parser Token α)} (h : ∀ p ∈ ps, p.Consumes) :
    (alt ps).Consumes := by
  intro c recovery r hr
  obtain ⟨p, hp, hr⟩ := alt_ok hr
  exact h p hp hr

theorem Equivariant.opt (hp : p.Equivariant m f) : p.opt.Equivariant m (Option.map f) where
  recognize := hp.recognize
  parse {c recovery moved} same := by
    simp only [Parser.opt, hp.search_anywhere same same]
    cases p.search recovery recovery c with
    | found r passed =>
      simp only [Relocation.search, Except.map, Relocation.reading, Option.map_some,
        m.positions_append]
    | recovered stop passed => rfl
    | exhausted => rfl
  started start hr := by
    obtain ⟨s, passed, hs, rfl⟩ | ⟨-, rfl⟩ := opt_ok hr
    · exact hp.inside.found_started start hs
    · exact start

/-- The gap is looked for where a token stands in front already. -/
theorem Equivariant.recover (hp : p.Equivariant m f) {missing : Expectation}
    (plain : missing.opening = none) :
    (p.recover missing).EquivariantInside m (mapSlot m.place f) where
  recognize := hp.recognize
  parse {c recovery moved} start same := by
    simp only [Parser.recover, hp.search_anywhere same same]
    cases hs : p.search recovery recovery c with
    | found r passed =>
      simp only [Relocation.search, Except.map, Relocation.reading, mapSlot, m.positions_append]
    | recovered stop passed =>
      have behind := hp.inside.recovered_started start hs
      have lacking : mapGap m.place ((c.moveTo stop).gap missing) =
          ((m.cursor c).moveTo (m.front.size + stop)).gap missing := by
        rw [m.moveTo_cursor, Cursor.gap, Cursor.gap, mapGap, m.gapSpan_cursor behind, plain,
          Option.map_none, ← plain]
      simp only [Relocation.search, Except.map, Relocation.reading, mapSlot, lacking]
    | exhausted => rfl
  started start hr := by
    obtain ⟨s, passed, hs, rfl⟩ | ⟨stop, passed, hs, rfl⟩ := recover_ok hr
    · exact hp.inside.found_started start hs
    · exact hp.inside.recovered_started start hs

theorem Equivariant.itemsFrom_moved (hp : p.Equivariant m f)
    (item : m.Same itemMoved itemRecovery) (same : m.Same moved recovery) :
    itemsFrom p itemMoved moved (m.cursor c) =
      m.reading (List.map f) (itemsFrom p itemRecovery recovery c) := by
  fun_induction Parser.itemsFrom p itemRecovery recovery c with
  | case1 c r passed found progress rest ih =>
    have progress' : ((m.cursor c).moveTo (m.front.size + r.position)).remaining <
        (m.cursor c).remaining := by
      rw [m.moveTo_cursor, m.remaining_cursor, m.remaining_cursor]
      exact progress
    rw [itemsFrom, hp.search_anywhere item same, found]
    simp only [Relocation.search, Relocation.reading, progress', if_true]
    rw [m.moveTo_cursor, ih]
    simp only [Relocation.reading, List.map_cons, m.positions_append, rest]
  | case2 c r passed found stuck =>
    have stuck' : ¬ ((m.cursor c).moveTo (m.front.size + r.position)).remaining <
        (m.cursor c).remaining := by
      rw [m.moveTo_cursor, m.remaining_cursor, m.remaining_cursor]
      exact stuck
    rw [itemsFrom, hp.search_anywhere item same, found]
    simp only [Relocation.search, Relocation.reading, stuck', if_false, List.map_cons,
      List.map_nil, m.positions_append]
  | case3 c stop passed found =>
    rw [itemsFrom, hp.search_anywhere item same, found]
    rfl
  | case4 c found =>
    rw [itemsFrom, hp.search_anywhere item same, found]
    rfl

theorem Equivariant.itemsFrom_started (hp : p.Equivariant m f) (start : c.Started) :
    (c.moveTo (itemsFrom p itemRecovery recovery c).position).Started := by
  fun_induction Parser.itemsFrom p itemRecovery recovery c with
  | case1 c r passed found progress rest ih => exact ih (hp.inside.found_started start found)
  | case2 c r passed found stuck => exact hp.inside.found_started start found
  | case3 => exact start
  | case4 => exact start

theorem Equivariant.many0 (hp : p.Equivariant m f) : p.many0.Equivariant m (List.map f) where
  recognize := hp.recognize
  parse {c recovery moved} same := by
    simp only [Parser.many0, hp.itemsFrom_moved (same.or hp.inside) same]
    rfl
  started start hr := by
    obtain rfl := many0_ok hr
    exact hp.itemsFrom_started start

theorem Equivariant.many1 (hp : p.Equivariant m f) : p.many1.Equivariant m (List.map f) where
  recognize := hp.recognize
  parse {c recovery moved} same := by
    simp only [Parser.many1, hp.itemsFrom_moved (same.or hp.inside) same, Relocation.reading,
      List.isEmpty_map]
    split <;> rfl
  started start hr := by
    obtain ⟨rfl, -⟩ := many1_ok hr
    exact hp.itemsFrom_started start

theorem Equivariant.suffixed (hp : p.Equivariant m f) (hq : q.Equivariant m g) :
    (p.suffixed q).Equivariant m (Prod.map f (Option.map g)) where
  recognize := hp.recognize
  parse {c recovery moved} same := by
    simp only [Parser.suffixed, hp.parse (same.or hq.inside)]
    cases p.parse c (recovery.or q.recognize) with
    | error e => rfl
    | ok b =>
      simp only [Except.map, Relocation.reading, m.moveTo_cursor, hq.parse same]
      cases q.parse (c.moveTo b.position) recovery with
      | error e => rfl
      | ok s => simp only [Prod.map, Option.map_some, m.positions_append]
  started {c recovery r} start hr := by
    obtain ⟨b, hb, rfl | ⟨s, hs, rfl⟩⟩ := suffixed_ok hr
    · exact hp.started start hb
    · have behind : ((c.moveTo b.position).moveTo s.position).Started :=
        hq.started (hp.started start hb) hs
      exact behind

theorem tooDeep_equivariant {recognize : Recognizer Token}
    (h : ∀ c, recognize (m.cursor c) = recognize c) :
    (tooDeep recognize : Parser Token α).Equivariant m f where
  recognize := h
  parse _ := rfl
  started _ hr := nomatch hr

end Recovery.Parser

/-! ## Chains -/

namespace Recovery.Chain

variable {chain : Chain Token α} {p : Parser Token β} {h : γ → γ} {r : Parser Token γ}

theorem of_equivariant {p : Parser Token α} (hp : p.Equivariant m f) (some : p.Consumes) :
    (Chain.of p).Equivariant m f := ⟨hp.recognize, hp.parse, some⟩

theorem Equivariant.ofParser {p : Parser Token α} (hc : (Chain.of p).Equivariant m f) :
    p.Equivariant m f := ⟨hc.head, hc.run, fun _ => hc.started⟩

theorem Equivariant.required (hc : chain.Equivariant m f) (hp : p.EquivariantInside m g)
    {c : Cursor Token} {recovery moved : Recognizer Token} (same : m.Same moved recovery) :
    chain.required p (m.cursor c) moved =
      (chain.required p c recovery).map (m.reading (Prod.map f g)) := by
  simp only [Chain.required, hc.run (same.or hp)]
  cases hl : chain.run c (recovery.or p.recognize) with
  | error e => rfl
  | ok left =>
    simp only [Except.map, Relocation.reading, m.moveTo_cursor,
      hp.search_moved same same (hc.started hl)]
    cases p.search recovery recovery (c.moveTo left.position) with
    | found r passed =>
      simp only [Relocation.search, Relocation.reading, Prod.map, m.positions_append]
    | recovered stop passed => rfl
    | exhausted => rfl

theorem Equivariant.required_started (hc : chain.Equivariant m f) (hp : p.EquivariantInside m g)
    {c : Cursor Token} {recovery : Recognizer Token} {r : Reading (α × β)}
    (hr : chain.required p c recovery = .ok r) : (c.moveTo r.position).Started := by
  obtain ⟨left, s, passed, hl, hs, rfl⟩ := required_ok hr
  exact hp.found_started (hc.started hl) hs

theorem Equivariant.andInside (hc : chain.Equivariant m f) (hp : p.EquivariantInside m g) :
    (chain.and p).Equivariant m (Prod.map f g) :=
  ⟨hc.head, hc.required hp, hc.required_started hp⟩

theorem Equivariant.and (hc : chain.Equivariant m f) (hp : p.Equivariant m g) :
    (chain.and p).Equivariant m (Prod.map f g) := hc.andInside hp.inside

theorem Equivariant.andRecover (hc : chain.Equivariant m f) (hp : p.Equivariant m g)
    {missing : α → Expectation}
    (hm : ∀ a, missing (f a) = ⟨(missing a).code, (missing a).opening.map m.place⟩) :
    (chain.andRecover p missing).Equivariant m (Prod.map f (mapSlot m.place g)) where
  head := hc.head
  run {c recovery moved} same := by
    simp only [Chain.andRecover, hc.run (same.or hp.inside)]
    cases hl : chain.run c (recovery.or p.recognize) with
    | error e => rfl
    | ok left =>
      simp only [Except.map, Relocation.reading, m.moveTo_cursor,
        hp.inside.search_moved same same (hc.started hl)]
      cases hs : p.search recovery recovery (c.moveTo left.position) with
      | found r passed =>
        simp only [Relocation.search, Relocation.reading, Prod.map, mapSlot, m.positions_append]
      | recovered stop passed =>
        have behind := hp.inside.recovered_started (hc.started hl) hs
        have lacking : mapGap m.place (((c.moveTo left.position).moveTo stop).gap
              (missing left.value)) =
            ((m.cursor (c.moveTo left.position)).moveTo (m.front.size + stop)).gap
              (missing (f left.value)) := by
          rw [m.moveTo_cursor, Cursor.gap, Cursor.gap, mapGap, m.gapSpan_cursor behind, hm]
        simp only [Relocation.search, Prod.map, mapSlot, m.positions_append, lacking]
      | exhausted => rfl
  started {c recovery r} hr := by
    obtain ⟨left, hl, ⟨s, passed, hs, rfl⟩ | ⟨stop, passed, hs, rfl⟩⟩ := andRecover_ok hr
    · exact hp.inside.found_started (hc.started hl) hs
    · exact hp.inside.recovered_started (hc.started hl) hs

/-- A first part that may be lacking, and a second by which the chain is recognized too. -/
theorem opt_andRecognize_equivariant {p : Parser Token α} (hp : p.Equivariant m f)
    {q : Parser Token β} (hq : q.Equivariant m g) (some : q.Consumes) :
    ((Chain.of p.opt).andRecognize q).Equivariant m (Prod.map (Option.map f) g) where
  head c := by
    show (p.recognize _ || q.recognize _) = (p.recognize _ || q.recognize _)
    rw [hp.recognize, hq.recognize]
  run {c recovery moved} same := by
    simp only [Chain.andRecognize, Chain.required, Chain.of, hp.opt.parse (same.or hq.inside)]
    cases p.opt.parse c (recovery.or q.recognize) with
    | error e => rfl
    | ok left =>
      simp only [Except.map, Relocation.reading, m.moveTo_cursor, hq.search_anywhere same same]
      cases q.search recovery recovery (c.moveTo left.position) with
      | found r passed =>
        simp only [Relocation.search, Relocation.reading, Prod.map, m.positions_append]
      | recovered stop passed => rfl
      | exhausted => rfl
  started {c recovery r} hr := by
    obtain ⟨left, s, passed, -, hs, rfl⟩ := required_ok hr
    obtain ⟨stop, -, parsed⟩ := Parser.passes_of_found hs
    have behind : (((c.moveTo left.position).moveTo stop).moveTo s.position).Started := some parsed
    exact behind

theorem Equivariant.onValue (hc : chain.Equivariant m f) {k : α → β} (h : ∀ a, k (f a) = g (k a)) :
    (chain.onValue k).Equivariant m g where
  head := hc.head
  run {c recovery moved} same := by
    simp only [Chain.onValue, hc.run same]
    cases chain.run c recovery with
    | error e => rfl
    | ok r => simp only [Except.map, Relocation.reading, h]
  started hr := by
    obtain ⟨s, hs, rfl⟩ := onValue_ok hr
    exact hc.started hs

theorem Equivariant.toParser (hc : chain.Equivariant m f) : chain.toParser.Equivariant m f where
  recognize := hc.head
  parse {c recovery moved} same := by
    simp only [Chain.toParser, hc.head]
    split
    · exact hc.run same
    · rfl
  started _ hr := hc.started (toParser_ok hr)

theorem Equivariant.map (hc : chain.Equivariant m f) {k : α → β} (h : ∀ a, k (f a) = g (k a)) :
    (chain.map k).Equivariant m g := (hc.onValue h).toParser

theorem Equivariant.map_consumes (hc : chain.Equivariant m f) (k : α → β) :
    (chain.map k).Consumes := by
  intro c recovery r hr
  obtain ⟨s, hs, rfl⟩ := onValue_ok (toParser_ok hr)
  exact hc.started hs

/-- What a chain reads may be the head of another. -/
theorem Equivariant.mapChain (hc : chain.Equivariant m f) {k : α → β}
    (h : ∀ a, k (f a) = g (k a)) : (Chain.of (chain.map k)).Equivariant m g :=
  of_equivariant (hc.map h) (hc.map_consumes k)

end Recovery.Chain

end GraphQL
