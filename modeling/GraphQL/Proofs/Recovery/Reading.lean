import GraphQL.Recovery.Chain

/-! # Reading without recovery

A parser *reads* some leaves if, wherever they are ahead, it parses just them and passes over
nothing. What follows the leaves must be fit, so that no option takes it, and the recovery point
must hold there, so that no option looks further.

* `Parser.Reads` and `Chain.Reads` say this of parsers and chains, with one lemma for each
  combinator,
* `Parser.Refuses` and `Parser.Declines` say when an alternative fails and when an option is
  taken to be lacking. -/

namespace GraphQL.Recovery

set_option autoImplicit false

variable {τ α β γ μ : Type}

/-! ## What is ahead -/

namespace Cursor

variable {c : Cursor τ} {leaves rest : List τ} {t : τ}

/-- The tokens that are still to come. -/
def ahead (c : Cursor τ) : List τ := c.tokens.toList.drop c.position

/-- The cursor behind some tokens. -/
def past (c : Cursor τ) (leaves : List τ) : Cursor τ := c.moveTo (c.position + leaves.length)

theorem past_nil (c : Cursor τ) : c.past [] = c := rfl

theorem moveTo_past (c : Cursor τ) (leaves : List τ) :
    c.moveTo (c.past leaves).position = c.past leaves := rfl

theorem past_append (c : Cursor τ) (leaves more : List τ) :
    c.past (leaves ++ more) = (c.past leaves).past more := by
  unfold past moveTo
  rw [List.length_append, Nat.add_assoc]

theorem ahead_past (h : c.ahead = leaves ++ rest) : (c.past leaves).ahead = rest := by
  unfold ahead past moveTo at *
  rw [← List.drop_drop, h, List.drop_left]

theorem peek_eq_head? (c : Cursor τ) : c.peek = c.ahead.head? := by
  unfold peek ahead
  rw [List.head?_drop, Array.getElem?_toList]

theorem remaining_eq_length (c : Cursor τ) : c.remaining = c.ahead.length := by
  unfold remaining ahead
  rw [List.length_drop, Array.length_toList]

theorem exists_ahead (tokens : List τ) : ∃ c : Cursor τ, c.ahead = tokens := ⟨start tokens.toArray, rfl⟩

theorem remaining_past_lt (h : c.ahead = leaves ++ rest) (some : leaves ≠ []) :
    (c.past leaves).remaining < c.remaining := by
  have := List.length_pos_iff.2 some
  rw [remaining_eq_length, remaining_eq_length, ahead_past h, h, List.length_append]
  omega

end Cursor

/-- The same reading with items in front of what was read. -/
def Reading.behind (items : List α) (r : Reading (List α)) : Reading (List α) :=
  ⟨items ++ r.value, r.position, r.skipped⟩

/-! ## Parsers that fail -/

namespace Parser

variable {p q : Parser τ α} {c : Cursor τ} {recovery itemRecovery : Recognizer τ}
  {ahead leaves rest : List τ} {v : α}

/-- The parser fails where some tokens are ahead. -/
def Refuses (p : Parser τ α) (ahead : List τ) : Prop :=
  ∀ (c : Cursor τ) recovery, c.ahead = ahead → ∃ e, p.parse c recovery = .error e

/-- The parser fails at a recovery point where some tokens are ahead. -/
def Declines (p : Parser τ α) (ahead : List τ) : Prop :=
  ∀ (c : Cursor τ) recovery, c.ahead = ahead → recovery c = true →
    ∃ e, p.parse c recovery = .error e

theorem Refuses.declines (h : p.Refuses ahead) : p.Declines ahead :=
  fun c recovery hc _ => h c recovery hc

theorem Refuses.map (h : p.Refuses ahead) (f : α → β) : (p.map f).Refuses ahead := by
  intro c recovery hc
  obtain ⟨e, he⟩ := h c recovery hc
  refine ⟨e, ?_⟩
  show (p.parse c recovery).map _ = _
  rw [he]
  rfl

theorem Refuses.suffixed (h : p.Refuses ahead) (s : Parser τ β) : (p.suffixed s).Refuses ahead := by
  intro c recovery hc
  obtain ⟨e, he⟩ := h c (recovery.or s.recognize) hc
  refine ⟨e, ?_⟩
  unfold Parser.suffixed
  dsimp only
  rw [he]

theorem refuses_tooDeep (recognize : Recognizer τ) : (tooDeep recognize : Parser τ α).Refuses ahead :=
  fun _ _ _ => ⟨.refused, rfl⟩

theorem firstOf_refuses {alternatives : List (Parser τ α)} (hc : c.ahead = ahead)
    (h : ∀ p ∈ alternatives, p.Refuses ahead) : ∃ e, firstOf c recovery alternatives = .error e := by
  induction alternatives with
  | nil => exact ⟨.noAlternative, rfl⟩
  | cons p rest ih =>
    rw [List.forall_mem_cons] at h
    obtain ⟨e, he⟩ := h.1 c recovery hc
    rw [firstOf, he]
    exact ih h.2

theorem alt_refuses {alternatives : List (Parser τ α)}
    (h : ∀ p ∈ alternatives, p.Refuses ahead) : (alt alternatives).Refuses ahead :=
  fun _ _ hc => firstOf_refuses hc h

theorem search_of_ok {r : Reading α} (h : p.parse c itemRecovery = .ok r) :
    p.search itemRecovery recovery c = .found r [] := by
  unfold search
  rw [h]

theorem search_of_error {e : ParseError} (h : p.parse c itemRecovery = .error e)
    (here : recovery c = true) : p.search itemRecovery recovery c = .recovered c.position [] := by
  unfold search
  rw [h]
  exact if_pos here

/-- The parser fails at `c` as long as the recovery point holds at `stop`. -/
def Stuck (p : Parser τ α) (c stop : Cursor τ) : Prop :=
  ∀ recovery : Recognizer τ, recovery stop = true → ∃ e, p.parse c recovery = .error e

theorem Refuses.stuck {stop : Cursor τ} (h : p.Refuses c.ahead) : p.Stuck c stop :=
  fun recovery _ => h c recovery rfl

theorem Stuck.map {stop : Cursor τ} (h : p.Stuck c stop) (f : α → β) : (p.map f).Stuck c stop := by
  intro recovery here
  obtain ⟨e, he⟩ := h recovery here
  refine ⟨e, ?_⟩
  show (p.parse c recovery).map _ = _
  rw [he]
  rfl

theorem Declines.many1 (h : p.Declines ahead) : p.many1.Declines ahead := by
  intro c recovery hc here
  have wide : (recovery.or p.recognize) c = true := by
    show (recovery c || p.recognize c) = true
    rw [here, Bool.true_or]
  obtain ⟨e, he⟩ := h c _ hc wide
  refine ⟨.noItem, ?_⟩
  unfold Parser.many1
  dsimp only
  rw [itemsFrom, search_of_error he here]
  rfl

/-! ## Parsers that read -/

/-- Where the leaves are ahead, what follows is fit and the recovery point holds there, exactly the
leaves are parsed. Leaves that are some are recognized. -/
structure Reads (p : Parser τ α) (leaves : List τ) (value : α) (fit : List τ → Prop) : Prop where
  parses : ∀ (c : Cursor τ) rest recovery, c.ahead = leaves ++ rest → fit rest →
    recovery (c.past leaves) = true →
    p.parse c recovery = .ok ⟨value, (c.past leaves).position, []⟩
  recognizes : leaves ≠ [] → ∀ (c : Cursor τ) rest, c.ahead = leaves ++ rest → fit rest →
    p.recognize c = true

variable {fit fit' : List τ → Prop}

theorem Reads.mono (h : p.Reads leaves v fit) (sub : ∀ rest, fit' rest → fit rest) :
    p.Reads leaves v fit' where
  parses := fun c rest recovery hc hr => h.parses c rest recovery hc (sub rest hr)
  recognizes := fun some c rest hc hr => h.recognizes some c rest hc (sub rest hr)

theorem token_reads {what : Text} {accept : τ → Option α} {t : τ} (h : accept t = some v) :
    (token what accept).Reads [t] v fun _ => True where
  parses := by
    intro c rest recovery hc _ _
    unfold token
    dsimp only
    rw [c.peek_eq_head?, hc, List.singleton_append, List.head?_cons]
    dsimp only
    rw [h]
    rfl
  recognizes := by
    intro _ c rest hc _
    show (c.peek.bind accept).isSome = true
    rw [c.peek_eq_head?, hc, List.singleton_append, List.head?_cons, Option.bind_some, h]
    rfl

theorem token_refuses {what : Text} {accept : τ → Option α}
    (h : ∀ t ∈ ahead.head?, accept t = none) : (token what accept).Refuses ahead := by
  intro c recovery hc
  unfold token
  dsimp only
  rw [c.peek_eq_head?, hc]
  cases hp : ahead.head? with
  | none => exact ⟨.incomplete, rfl⟩
  | some t =>
    dsimp only
    rw [h t hp]
    exact ⟨.expected what, rfl⟩

theorem Reads.map (h : p.Reads leaves v fit) (f : α → β) : (p.map f).Reads leaves (f v) fit where
  parses := by
    intro c rest recovery hc hr here
    show (p.parse c recovery).map _ = _
    rw [h.parses c rest recovery hc hr here]
    rfl
  recognizes := h.recognizes

theorem Reads.alt_head (h : p.Reads leaves v fit) (others : List (Parser τ α)) :
    (alt (p :: others)).Reads leaves v fit where
  parses := by
    intro c rest recovery hc hr here
    show firstOf c recovery (p :: others) = _
    rw [firstOf, h.parses c rest recovery hc hr here]
  recognizes := by
    intro some c rest hc hr
    show (p.recognize c || others.any _) = true
    rw [h.recognizes some c rest hc hr, Bool.true_or]

theorem Reads.alt_cons {others : List (Parser τ α)} (h : (alt others).Reads leaves v fit)
    (refuses : ∀ rest, fit rest → p.Refuses (leaves ++ rest)) :
    (alt (p :: others)).Reads leaves v fit where
  parses := by
    intro c rest recovery hc hr here
    show firstOf c recovery (p :: others) = _
    obtain ⟨e, he⟩ := refuses rest hr c recovery hc
    rw [firstOf, he]
    exact h.parses c rest recovery hc hr here
  recognizes := by
    intro some c rest hc hr
    have later : others.any (·.recognize c) = true := h.recognizes some c rest hc hr
    show (p.recognize c || others.any _) = true
    rw [later, Bool.or_true]

theorem Reads.opt (h : p.Reads leaves v fit) : p.opt.Reads leaves (some v) fit where
  parses := by
    intro c rest recovery hc hr here
    unfold Parser.opt
    dsimp only
    rw [search_of_ok (h.parses c rest recovery hc hr here)]
    rfl
  recognizes := h.recognizes

/-- An option that is lacking reads nothing. -/
theorem opt_lacking (p : Parser τ α) : p.opt.Reads [] none p.Declines where
  parses := by
    intro c rest recovery hc hr here
    rw [List.nil_append] at hc
    obtain ⟨e, he⟩ := hr c recovery hc here
    unfold Parser.opt
    dsimp only
    rw [search_of_error he here]
    rfl
  recognizes := fun some => absurd rfl some

theorem Reads.recover [HasSpan τ] (h : p.Reads leaves v fit) (missing : μ) :
    (p.recover missing).Reads leaves (.present v) fit where
  parses := by
    intro c rest recovery hc hr here
    unfold Parser.recover
    dsimp only
    rw [search_of_ok (h.parses c rest recovery hc hr here)]
    rfl
  recognizes := h.recognizes

theorem or_left {a b : Recognizer τ} (h : a c = true) : (a.or b) c = true := by
  show (a c || b c) = true
  rw [h, Bool.true_or]

theorem or_right {a b : Recognizer τ} (h : b c = true) : (a.or b) c = true := by
  show (a c || b c) = true
  rw [h, Bool.or_true]

theorem Reads.suffixed_lacking (h : p.Reads leaves v fit) (s : Parser τ β) :
    (p.suffixed s).Reads leaves (v, none) fun rest => fit rest ∧ s.Refuses rest where
  parses := by
    intro c rest recovery hc hr here
    obtain ⟨e, he⟩ := hr.2 (c.past leaves) recovery (Cursor.ahead_past hc)
    unfold Parser.suffixed
    dsimp only
    rw [h.parses c rest _ hc hr.1 (or_left here)]
    dsimp only
    rw [Cursor.moveTo_past, he]
  recognizes := fun some c rest hc hr => h.recognizes some c rest hc hr.1

theorem Reads.suffixed {s : Parser τ β} {more : List τ} {w : β} (h : p.Reads leaves v fit)
    (hs : s.Reads more w fit') (some : leaves ≠ []) (some' : more ≠ [])
    (fits : ∀ rest, fit' rest → fit (more ++ rest)) :
    (p.suffixed s).Reads (leaves ++ more) (v, .some w) fit' where
  parses := by
    intro c rest recovery hc hr here
    rw [List.append_assoc] at hc
    rw [Cursor.past_append] at here ⊢
    have next := Cursor.ahead_past hc
    unfold Parser.suffixed
    dsimp only
    rw [h.parses c _ _ hc (fits rest hr) (or_right (hs.recognizes some' _ rest next hr))]
    dsimp only
    rw [Cursor.moveTo_past, hs.parses _ rest recovery next hr here]
    rfl
  recognizes := by
    intro _ c rest hc hr
    rw [List.append_assoc] at hc
    exact h.recognizes some c _ hc (fits rest hr)

/-! ## Lists -/

/-- The parser reads the leaves as an item of a list: what it waits for includes another item. -/
structure ReadsItem (p : Parser τ α) (leaves : List τ) (value : α) (fit : List τ → Prop) :
    Prop where
  some : leaves ≠ []
  parses : ∀ (c : Cursor τ) rest (recovery : Recognizer τ), c.ahead = leaves ++ rest → fit rest →
    (recovery.or p.recognize) (c.past leaves) = true →
    p.parse c (recovery.or p.recognize) = .ok ⟨value, (c.past leaves).position, []⟩
  recognizes : ∀ (c : Cursor τ) rest, c.ahead = leaves ++ rest → fit rest → p.recognize c = true

theorem Reads.item (h : p.Reads leaves v fit) (some : leaves ≠ []) : p.ReadsItem leaves v fit where
  some := some
  parses := fun c rest _ hc hr here => h.parses c rest _ hc hr here
  recognizes := h.recognizes some

/-- What follows each item is fit for it. -/
def Fits (leaves : α → List τ) (fit : α → List τ → Prop) : List α → List τ → Prop
  | [], _ => True
  | x :: xs, rest => fit x (xs.flatMap leaves ++ rest) ∧ Fits leaves fit xs rest

section Items

variable {leavesOf : α → List τ} {fitOf : α → List τ → Prop} {items : List α}

/-- Items fit one another if what is fit stays so behind each of them. -/
theorem fits_of_behind {fit : List τ → Prop}
    (behind : ∀ x ∈ items, ∀ more, fit more → fit (leavesOf x ++ more)) (last : fit rest) :
    fit (items.flatMap leavesOf ++ rest) ∧ Fits leavesOf (fun _ => fit) items rest := by
  induction items with
  | nil => exact ⟨last, trivial⟩
  | cons x items ih =>
    rw [List.forall_mem_cons] at behind
    obtain ⟨later, fits⟩ := ih behind.2
    rw [List.flatMap_cons, List.append_assoc]
    exact ⟨behind.1 _ later, later, fits⟩

/-- An item is read where the recovery point or another item stands behind it, and the list goes on
there. -/
theorem itemsFrom_item {fit : List τ → Prop} (item : p.ReadsItem leaves v fit)
    (hc : c.ahead = leaves ++ rest) (hr : fit rest)
    (here : (recovery.or p.recognize) (c.past leaves) = true) :
    itemsFrom p (recovery.or p.recognize) recovery c =
      (itemsFrom p (recovery.or p.recognize) recovery (c.past leaves)).behind [v] := by
  have parsed := item.parses c rest recovery hc hr here
  rw [itemsFrom, search_of_ok parsed]
  dsimp only
  rw [Cursor.moveTo_past, if_pos (Cursor.remaining_past_lt hc item.some)]
  rfl

/-- Items are read up to where the recovery point or another item stands, and the list goes on
there. -/
theorem itemsFrom_continues (each : ∀ x ∈ items, p.ReadsItem (leavesOf x) x (fitOf x))
    (hc : c.ahead = items.flatMap leavesOf ++ rest) (fits : Fits leavesOf fitOf items rest)
    (here : (recovery.or p.recognize) (c.past (items.flatMap leavesOf)) = true) :
    itemsFrom p (recovery.or p.recognize) recovery c =
      (itemsFrom p (recovery.or p.recognize) recovery
        (c.past (items.flatMap leavesOf))).behind items := by
  induction items generalizing c with
  | nil => rfl
  | cons x items ih =>
    rw [List.forall_mem_cons] at each
    rw [List.flatMap_cons, Cursor.past_append] at here ⊢
    rw [List.flatMap_cons, List.append_assoc] at hc
    have next := Cursor.ahead_past hc
    -- behind the item stands the next one, or what stands behind them all
    have wide : (recovery.or p.recognize) (c.past (leavesOf x)) = true := by
      cases items with
      | nil => exact here
      | cons y items =>
        rw [List.flatMap_cons, List.append_assoc] at next
        exact or_right ((each.2 y List.mem_cons_self).recognizes _ _ next fits.2.1)
    rw [itemsFrom_item each.1 hc fits.1 wide, ih each.2 next fits.2 here]
    rfl

theorem itemsFrom_reads (each : ∀ x ∈ items, p.ReadsItem (leavesOf x) x (fitOf x))
    (hc : c.ahead = items.flatMap leavesOf ++ rest) (fits : Fits leavesOf fitOf items rest)
    (last : p.Declines rest) (here : recovery (c.past (items.flatMap leavesOf)) = true) :
    itemsFrom p (recovery.or p.recognize) recovery c =
      ⟨items, (c.past (items.flatMap leavesOf)).position, []⟩ := by
  obtain ⟨e, he⟩ := last _ (recovery.or p.recognize) (Cursor.ahead_past hc) (or_left here)
  rw [itemsFrom_continues each hc fits (or_left here), itemsFrom, search_of_error he here]
  exact congrArg (Reading.mk · _ _) (List.append_nil items)

theorem many0_reads (each : ∀ x ∈ items, p.ReadsItem (leavesOf x) x (fitOf x)) :
    p.many0.Reads (items.flatMap leavesOf) items fun rest =>
      Fits leavesOf fitOf items rest ∧ p.Declines rest where
  parses := by
    intro c rest recovery hc hr here
    unfold many0
    dsimp only
    rw [itemsFrom_reads each hc hr.1 hr.2 here]
  recognizes := by
    intro some c rest hc hr
    cases items with
    | nil => exact absurd rfl some
    | cons x items =>
      rw [List.flatMap_cons, List.append_assoc] at hc
      exact (each x List.mem_cons_self).recognizes c _ hc hr.1.1

theorem many1_reads (each : ∀ x ∈ items, p.ReadsItem (leavesOf x) x (fitOf x))
    (some : items ≠ []) :
    p.many1.Reads (items.flatMap leavesOf) items fun rest =>
      Fits leavesOf fitOf items rest ∧ p.Declines rest where
  parses := by
    intro c rest recovery hc hr here
    unfold many1
    dsimp only
    rw [itemsFrom_reads each hc hr.1 hr.2 here]
    cases items with
    | nil => exact absurd rfl some
    | cons x items => rfl
  recognizes := (many0_reads each).recognizes

end Items

/-! ## Whole buffers -/

theorem Reads.parseAll [HasSpan τ] (h : p.Reads leaves v fit) (last : fit []) :
    p.parseAll leaves.toArray = some (v, []) := by
  have whole : (Cursor.start leaves.toArray).ahead = leaves ++ [] := by
    rw [List.append_nil]
    rfl
  have stop : ((Cursor.start leaves.toArray).past leaves).position = leaves.length := Nat.zero_add _
  have finished : Recognizer.endOfInput ((Cursor.start leaves.toArray).past leaves) = true := by
    have size : leaves.toArray.size = leaves.length := List.size_toArray
    exact decide_eq_true (Nat.le_of_eq (size.trans stop.symm))
  have none : Cursor.unaccounted (⟨leaves.toArray, leaves.length⟩ : Cursor τ) [] = [] := by
    unfold Cursor.unaccounted
    rw [List.size_toArray, List.filter_eq_nil_iff]
    intro i hi
    have := List.mem_range.1 hi
    simp only [List.contains_nil, Bool.or_false, decide_eq_true_iff]
    omega
  unfold Parser.parseAll
  rw [h.parses _ [] _ whole last finished, stop]
  dsimp only
  rw [Cursor.runs, none]
  rfl

end Parser

/-! ## Chains -/

namespace Chain

/-- Where the leaves are ahead, what follows is fit and the recovery point holds there, the steps
of the chain parse exactly the leaves. -/
structure Reads (chain : Chain τ α) (leaves : List τ) (value : α) (fit : List τ → Prop) :
    Prop where
  some : leaves ≠ []
  runs : ∀ (c : Cursor τ) rest recovery, c.ahead = leaves ++ rest → fit rest →
    recovery (c.past leaves) = true →
    chain.run c recovery = .ok ⟨value, (c.past leaves).position, []⟩
  headed : ∀ (c : Cursor τ) rest, c.ahead = leaves ++ rest → fit rest → chain.head c = true

variable {chain : Chain τ α} {next : Parser τ β} {leaves more : List τ} {v : α} {w : β}
  {fit fit' : List τ → Prop}

theorem of_reads {p : Parser τ α} (h : p.Reads leaves v fit) (some : leaves ≠ []) :
    (Chain.of p).Reads leaves v fit := ⟨some, h.parses, h.recognizes some⟩

theorem Reads.mono (h : chain.Reads leaves v fit) (sub : ∀ rest, fit' rest → fit rest) :
    chain.Reads leaves v fit' where
  some := h.some
  runs := fun c rest recovery hc hr => h.runs c rest recovery hc (sub rest hr)
  headed := fun c rest hc hr => h.headed c rest hc (sub rest hr)

theorem Reads.onValue (h : chain.Reads leaves v fit) (f : α → β) :
    (chain.onValue f).Reads leaves (f v) fit where
  some := h.some
  runs := by
    intro c rest recovery hc hr here
    show (chain.run c recovery).map _ = _
    rw [h.runs c rest recovery hc hr here]
    rfl
  headed := h.headed

theorem Reads.toParser (h : chain.Reads leaves v fit) : chain.toParser.Reads leaves v fit where
  parses := by
    intro c rest recovery hc hr here
    unfold Chain.toParser
    dsimp only
    rw [if_pos (h.headed c rest hc hr), h.runs c rest recovery hc hr here]
  recognizes := fun _ => h.headed

theorem Reads.map (h : chain.Reads leaves v fit) (f : α → β) :
    (chain.map f).Reads leaves (f v) fit := (h.onValue f).toParser

/-- Behind the steps so far stands the next part, or the recovery point. -/
theorem wide_behind {recovery : Recognizer τ} {c : Cursor τ} {rest : List τ}
    (hn : next.Reads more w fit') (hc : c.ahead = leaves ++ (more ++ rest)) (hr : fit' rest)
    (here : recovery ((c.past leaves).past more) = true) :
    (recovery.or next.recognize) (c.past leaves) = true := by
  by_cases some : more = []
  · rw [some, Cursor.past_nil] at here
    exact Parser.or_left here
  · exact Parser.or_right (hn.recognizes some _ rest (Cursor.ahead_past hc) hr)

theorem required_reads {c : Cursor τ} {rest : List τ} {recovery : Recognizer τ}
    (runs : chain.run c (recovery.or next.recognize) = .ok ⟨v, (c.past leaves).position, []⟩)
    (hn : next.Reads more w fit') (hc : c.ahead = leaves ++ (more ++ rest)) (hr : fit' rest)
    (here : recovery ((c.past leaves).past more) = true) :
    chain.required next c recovery = .ok ⟨(v, w), ((c.past leaves).past more).position, []⟩ := by
  have found := hn.parses _ rest recovery (Cursor.ahead_past hc) hr here
  unfold Chain.required
  rw [runs]
  dsimp only
  rw [Cursor.moveTo_past, Parser.search_of_ok found]
  rfl

theorem Reads.and (h : chain.Reads leaves v fit) (hn : next.Reads more w fit')
    (fits : ∀ rest, fit' rest → fit (more ++ rest)) :
    (chain.and next).Reads (leaves ++ more) (v, w) fit' where
  some := List.append_ne_nil_of_left_ne_nil h.some _
  runs := by
    intro c rest recovery hc hr here
    rw [List.append_assoc] at hc
    rw [Cursor.past_append] at here ⊢
    exact required_reads (h.runs c _ _ hc (fits rest hr) (wide_behind hn hc hr here)) hn hc hr here
  headed := by
    intro c rest hc hr
    rw [List.append_assoc] at hc
    exact h.headed c _ hc (fits rest hr)

/-- A first part that may be lacking, and a required part that the chain is recognized by too. -/
theorem of_andRecognize {first : Parser τ α} (h : first.Reads leaves v fit)
    (hn : next.Reads more w fit') (some : more ≠ [])
    (fits : ∀ rest, fit' rest → fit (more ++ rest)) :
    ((Chain.of first).andRecognize next).Reads (leaves ++ more) (v, w) fit' where
  some := List.append_ne_nil_of_right_ne_nil _ some
  runs := by
    intro c rest recovery hc hr here
    rw [List.append_assoc] at hc
    rw [Cursor.past_append] at here ⊢
    exact required_reads (h.parses c _ _ hc (fits rest hr) (wide_behind hn hc hr here)) hn hc hr here
  headed := by
    intro c rest hc hr
    rw [List.append_assoc] at hc
    by_cases lacking : leaves = []
    · rw [lacking, List.nil_append] at hc
      exact Parser.or_right (hn.recognizes some c rest hc hr)
    · exact Parser.or_left (h.recognizes lacking c _ hc (fits rest hr))

theorem Reads.andRecover [HasSpan τ] (h : chain.Reads leaves v fit) (hn : next.Reads more w fit')
    (fits : ∀ rest, fit' rest → fit (more ++ rest)) (missing : α → μ) :
    (chain.andRecover next missing).Reads (leaves ++ more) (v, .present w) fit' where
  some := List.append_ne_nil_of_left_ne_nil h.some _
  runs := by
    intro c rest recovery hc hr here
    rw [List.append_assoc] at hc
    rw [Cursor.past_append] at here ⊢
    have found := hn.parses _ rest recovery (Cursor.ahead_past hc) hr here
    unfold Chain.andRecover
    dsimp only
    rw [h.runs c _ _ hc (fits rest hr) (wide_behind hn hc hr here)]
    dsimp only
    rw [Cursor.moveTo_past, Parser.search_of_ok found]
    rfl
  headed := by
    intro c rest hc hr
    rw [List.append_assoc] at hc
    exact h.headed c _ hc (fits rest hr)

theorem toParser_refuses {ahead : List τ} (h : ∀ c : Cursor τ, c.ahead = ahead → chain.head c = false) :
    chain.toParser.Refuses ahead := by
  intro c recovery hc
  refine ⟨.refused, ?_⟩
  unfold Chain.toParser
  dsimp only
  rw [h c hc]
  rfl

/-! ## Chains that fail -/

/-- The steps fail at `c` as long as the recovery point holds at `stop`. -/
def Stuck (chain : Chain τ α) (c stop : Cursor τ) : Prop :=
  ∀ recovery : Recognizer τ, recovery stop = true → ∃ e, chain.run c recovery = .error e

/-- The chain begins with the steps of another one. -/
structure Extends (chain : Chain τ β) (first : Chain τ α) : Prop where
  head : chain.head = first.head
  stuck : ∀ c stop, first.Stuck c stop → chain.Stuck c stop

variable {first : Chain τ γ}

theorem Extends.refl (chain : Chain τ α) : chain.Extends chain := ⟨rfl, fun _ _ h => h⟩

theorem Extends.trans {chain : Chain τ α} {middle : Chain τ β} (h : chain.Extends middle)
    (h' : middle.Extends first) : chain.Extends first :=
  ⟨h.head.trans h'.head, fun c stop hs => h.stuck c stop (h'.stuck c stop hs)⟩

theorem Extends.onValue (h : chain.Extends first) (f : α → β) : (chain.onValue f).Extends first where
  head := h.head
  stuck := by
    intro c stop hs recovery here
    obtain ⟨e, he⟩ := h.stuck c stop hs recovery here
    refine ⟨e, ?_⟩
    show (chain.run c recovery).map _ = _
    rw [he]
    rfl

theorem Extends.and (h : chain.Extends first) (next : Parser τ β) :
    (chain.and next).Extends first where
  head := h.head
  stuck := by
    intro c stop hs recovery here
    obtain ⟨e, he⟩ := h.stuck c stop hs (recovery.or next.recognize) (Parser.or_left here)
    refine ⟨e, ?_⟩
    show chain.required next c recovery = _
    unfold Chain.required
    rw [he]

theorem Extends.andRecover [HasSpan τ] (h : chain.Extends first) (next : Parser τ β)
    (missing : α → μ) : (chain.andRecover next missing).Extends first where
  head := h.head
  stuck := by
    intro c stop hs recovery here
    obtain ⟨e, he⟩ := h.stuck c stop hs (recovery.or next.recognize) (Parser.or_left here)
    refine ⟨e, ?_⟩
    unfold Chain.andRecover
    dsimp only
    rw [he]

theorem Stuck.map {c stop : Cursor τ} (h : chain.Stuck c stop) (f : α → β) :
    (chain.map f).Stuck c stop := by
  intro recovery here
  by_cases headed : chain.head c = true
  · obtain ⟨e, he⟩ := h recovery here
    refine ⟨e, ?_⟩
    show (if chain.head c = true then (chain.run c recovery).map _ else _) = _
    rw [if_pos headed, he]
    rfl
  · exact ⟨.refused, if_neg headed⟩

end Chain

end GraphQL.Recovery
