import GraphQL.Proofs.Recovery.Outcome

/-! # Accounting for tokens

A parser moves over a stretch of the buffer. `Accounts` says that every token of the stretch is used
exactly once: it is a leaf of what was read, or its position is passed over; gaps lie in between, at
the place their span tells.

* `Parser.Conserves` and `Chain.Conserves`: every successful parse accounts for its stretch,
* one lemma for each combinator says that it keeps this of its parts. -/

namespace GraphQL.Recovery

set_option autoImplicit false

variable {τ α β γ μ : Type}

/-! ## Marks -/

/-- What stands for tokens in a construct: a leaf, or a gap where some are lacking. -/
inductive Mark (τ μ : Type) where
  | leaf (token : τ)
  | gap (gap : Gap μ)

namespace Mark

/-- The token of a leaf. -/
def leaf? : Mark τ μ → Option τ
  | .leaf t => some t
  | .gap _ => none

def gap? : Mark τ μ → Option (Gap μ)
  | .leaf _ => none
  | .gap g => some g

/-- The mark of a token. -/
def one (t : τ) : List (Mark τ μ) := [.leaf t]

variable (f : α → List (Mark τ μ)) (g : β → List (Mark τ μ))

/-- The marks of two parts, one behind the other. -/
def pair (x : α × β) : List (Mark τ μ) := f x.1 ++ g x.2

/-- The marks of a part that may be lacking. -/
def option : Option α → List (Mark τ μ)
  | none => []
  | some a => f a

/-- The marks of a required part. -/
def slot : Slot μ α → List (Mark τ μ)
  | .present a => f a
  | .missing lacking => [.gap lacking]

/-- The marks without the gaps. -/
def leaves (marks : List (Mark τ μ)) : List (Mark τ μ) := (marks.filterMap leaf?).map .leaf

theorem leaves_append (marks more : List (Mark τ μ)) :
    leaves (marks ++ more) = leaves marks ++ leaves more := by
  simp [leaves]

end Mark

/-! ## Stretches -/

variable [HasSpan τ] {legal : τ → Prop} {tokens : Array τ}

/-- The tokens from one position up to another are the leaves among the marks, which are legal, and
those at the positions passed over, both in order. -/
inductive Accounts (legal : τ → Prop) (tokens : Array τ) :
    Nat → Nat → List Nat → List (Mark τ μ) → Prop where
  | done (p : Nat) : Accounts legal tokens p p [] []
  | keep {p q : Nat} {passed : List Nat} {marks : List (Mark τ μ)} {t : τ}
      (here : tokens[p]? = some t) (ok : legal t)
      (rest : Accounts legal tokens (p + 1) q passed marks) :
      Accounts legal tokens p q passed (.leaf t :: marks)
  | pass {p q : Nat} {passed : List Nat} {marks : List (Mark τ μ)} (here : p < tokens.size)
      (rest : Accounts legal tokens (p + 1) q passed marks) :
      Accounts legal tokens p q (p :: passed) marks
  | lack {p q : Nat} {passed : List Nat} {marks : List (Mark τ μ)} {gap : Gap μ}
      (here : gap.span = (Cursor.mk tokens p).gapSpan)
      (rest : Accounts legal tokens p q passed marks) :
      Accounts legal tokens p q passed (.gap gap :: marks)

namespace Accounts

variable {p q r : Nat} {passed passed' : List Nat} {marks marks' : List (Mark τ μ)}

/-- Two stretches, one behind the other. -/
theorem trans (h : Accounts legal tokens p q passed marks)
    (h' : Accounts legal tokens q r passed' marks') :
    Accounts legal tokens p r (passed ++ passed') (marks ++ marks') := by
  induction h with
  | done p => exact h'
  | keep here ok _ ih => exact .keep here ok (ih h')
  | pass here _ ih => exact .pass here (ih h')
  | lack here _ ih => exact .lack here (ih h')

theorem le (h : Accounts legal tokens p q passed marks) : p ≤ q := by
  induction h with
  | done p => exact Nat.le_refl p
  | keep _ _ _ ih => omega
  | pass _ _ ih => omega
  | lack _ _ ih => exact ih

theorem le_size (h : Accounts legal tokens p q passed marks) (inside : p ≤ tokens.size) :
    q ≤ tokens.size := by
  induction h with
  | done p => exact inside
  | @keep p q _ _ t here _ _ ih =>
    have : p < tokens.size := (Array.getElem?_eq_some_iff.1 here).1
    exact ih this
  | pass here _ ih => exact ih here
  | lack _ _ ih => exact ih inside

theorem one {t : τ} (here : tokens[p]? = some t) (ok : legal t) :
    Accounts legal tokens p (p + 1) [] (Mark.one (μ := μ) t) :=
  .keep here ok (.done _)

/-- Gaps use no tokens. -/
theorem leaves (h : Accounts legal tokens p q passed marks) :
    Accounts legal tokens p q passed (Mark.leaves marks) := by
  induction h with
  | done p => exact .done p
  | keep here ok _ ih => exact .keep here ok ih
  | pass here _ ih => exact .pass here ih
  | lack _ _ ih => exact ih

end Accounts

/-! ## Readings -/

/-- A reading begun at a cursor uses every token of its stretch once. -/
def Reading.Accounted (legal : τ → Prop) (marks : α → List (Mark τ μ)) (c : Cursor τ)
    (r : Reading α) : Prop :=
  ∃ passed, passed.Perm r.skipped ∧
    Accounts legal c.tokens c.position r.position passed (marks r.value)

/-- Every parse that succeeds uses every token of its stretch once. -/
def Parser.Conserves (legal : τ → Prop) (marks : α → List (Mark τ μ)) (p : Parser τ α) : Prop :=
  ∀ c recovery r, p.parse c recovery = .ok r → r.Accounted legal marks c

def Chain.Conserves (legal : τ → Prop) (marks : α → List (Mark τ μ)) (chain : Chain τ α) : Prop :=
  ∀ c recovery r, chain.run c recovery = .ok r → r.Accounted legal marks c

variable {f : α → List (Mark τ μ)} {g : β → List (Mark τ μ)} {c : Cursor τ}

theorem Reading.Accounted.leaves {r : Reading α} (h : r.Accounted legal f c) :
    r.Accounted legal (fun a => Mark.leaves (f a)) c := by
  obtain ⟨passed, hperm, ha⟩ := h
  exact ⟨passed, hperm, ha.leaves⟩

theorem Parser.Conserves.leaves {p : Parser τ α} (hp : p.Conserves legal f) :
    p.Conserves legal fun a => Mark.leaves (f a) :=
  fun c recovery r hr => (hp c recovery r hr).leaves

theorem Chain.Conserves.leaves {chain : Chain τ α} (hc : chain.Conserves legal f) :
    chain.Conserves legal fun a => Mark.leaves (f a) :=
  fun c recovery r hr => (hc c recovery r hr).leaves

/-- A second reading behind the first, after tokens that were passed over in between. -/
theorem Reading.Accounted.behind {a : Reading α} {b : Reading β} {mid : Nat} {passed : List Nat}
    (left : a.Accounted legal f c)
    (between : Accounts (μ := μ) legal c.tokens a.position mid passed [])
    (right : b.Accounted legal g (c.moveTo mid)) :
    ∃ all, all.Perm (a.skipped ++ (b.skipped ++ passed)) ∧
      Accounts legal c.tokens c.position b.position all (f a.value ++ g b.value) := by
  obtain ⟨s, hs, ha⟩ := left
  obtain ⟨s', hs', hb⟩ := right
  have h := ha.trans (between.trans hb)
  refine ⟨s ++ (passed ++ s'), ?_, h⟩
  exact hs.append ((List.perm_append_comm).trans (hs'.append_right passed))

/-- A reading behind tokens that were passed over. -/
theorem Reading.Accounted.after {mid : Nat} {passed : List Nat} {a : Reading α}
    (before : Accounts (μ := μ) legal c.tokens c.position mid passed [])
    (h : a.Accounted legal f (c.moveTo mid)) :
    ∃ all, all.Perm (a.skipped ++ passed) ∧
      Accounts legal c.tokens c.position a.position all (f a.value) := by
  obtain ⟨s, hs, ha⟩ := h
  exact ⟨passed ++ s, List.perm_append_comm.trans (hs.append_right passed), before.trans ha⟩

namespace Parser

/-! ## Passing over tokens -/

/-- Tokens passed over, one behind the other. -/
theorem accounts_range' (p n : Nat) (inside : ∀ i ∈ List.range' p n, i < tokens.size) :
    Accounts (μ := μ) legal tokens p (p + n) (List.range' p n) [] := by
  induction n generalizing p with
  | zero => exact .done p
  | succ n ih =>
    rw [List.range'_succ, List.forall_mem_cons] at inside
    have rest := ih (p + 1) inside.2
    rw [List.range'_succ, Nat.add_comm n 1, ← Nat.add_assoc]
    exact .pass inside.1 rest

theorem Passes.accounts {item : Parser τ α} {itemRecovery recovery : Recognizer τ} {stop : Nat}
    {passed : List Nat} (h : item.Passes itemRecovery recovery c stop passed) :
    Accounts (μ := μ) legal c.tokens c.position stop passed [] := by
  have inside := h.inside
  have length : stop = c.position + (stop - c.position) := (Nat.add_sub_cancel' h.le).symm
  rw [h.passed_eq] at inside ⊢
  rw [length, Nat.add_sub_cancel_left]
  rw [length, Nat.add_sub_cancel_left] at inside
  exact accounts_range' c.position _ inside

theorem search_found {p : Parser τ α} (hp : p.Conserves legal f) {itemRecovery recovery : Recognizer τ}
    {r : Reading α} {passed : List Nat} (h : p.search itemRecovery recovery c = .found r passed) :
    ∃ mid, Accounts (μ := μ) legal c.tokens c.position mid passed [] ∧
      r.Accounted legal f (c.moveTo mid) := by
  obtain ⟨stop, passes, parsed⟩ := passes_of_found h
  exact ⟨stop, passes.accounts, hp _ _ _ parsed⟩

theorem search_recovered {p : Parser τ α} {itemRecovery recovery : Recognizer τ} {stop : Nat}
    {passed : List Nat} (h : p.search itemRecovery recovery c = .recovered stop passed) :
    Accounts (μ := μ) legal c.tokens c.position stop passed [] :=
  (passes_of_recovered h).1.accounts

/-! ## Combinators -/

theorem token_conserves {what : Text} {accept : τ → Option α}
    (h : ∀ t a, accept t = some a → legal t ∧ f a = Mark.one t) :
    (token what accept).Conserves legal f := by
  intro c recovery r hr
  obtain ⟨t, a, here, ha, rfl⟩ := token_ok hr
  obtain ⟨ok, hf⟩ := h t a ha
  exact ⟨[], .refl _, hf ▸ Accounts.one here ok⟩

theorem Conserves.map {g : β → List (Mark τ μ)} {p : Parser τ α} (hp : p.Conserves legal f)
    {fn : α → β} (h : ∀ a, g (fn a) = f a) : (p.map fn).Conserves legal g := by
  intro c recovery r hr
  obtain ⟨s, hs, rfl⟩ := map_ok hr
  obtain ⟨passed, hperm, ha⟩ := hp _ _ _ hs
  exact ⟨passed, hperm, by rw [h]; exact ha⟩

theorem alt_conserves {ps : List (Parser τ α)} (h : ∀ p ∈ ps, p.Conserves legal f) :
    (alt ps).Conserves legal f := by
  intro c recovery r hr
  obtain ⟨p, hp, hr⟩ := alt_ok hr
  exact h p hp _ _ _ hr

theorem Conserves.opt {p : Parser τ α} (hp : p.Conserves legal f) :
    p.opt.Conserves legal (Mark.option f) := by
  intro c recovery r hr
  obtain ⟨s, passed, hs, rfl⟩ | ⟨-, rfl⟩ := opt_ok hr
  · obtain ⟨mid, hm, ha⟩ := search_found hp hs
    exact ha.after hm
  · exact ⟨[], .refl _, .done _⟩

theorem Conserves.recover {p : Parser τ α} (hp : p.Conserves legal f) (missing : μ) :
    (p.recover missing).Conserves legal (Mark.slot f) := by
  intro c recovery r hr
  obtain ⟨s, passed, hs, rfl⟩ | ⟨stop, passed, hs, rfl⟩ := recover_ok hr
  · obtain ⟨mid, hm, ha⟩ := search_found hp hs
    exact ha.after hm
  · have gap : Accounts legal c.tokens stop stop [] [.gap ((c.moveTo stop).gap missing)] :=
      .lack rfl (.done stop)
    have h := (search_recovered hs).trans gap
    exact ⟨passed ++ [], by simp, h⟩

theorem itemsFrom_accounted {p : Parser τ α} (hp : p.Conserves legal f)
    (itemRecovery recovery : Recognizer τ) (c : Cursor τ) :
    (itemsFrom p itemRecovery recovery c).Accounted legal (List.flatMap f) c := by
  induction c using itemsFrom.induct p itemRecovery recovery with
  | case1 c r passed hs less ih =>
    rw [itemsFrom, hs]
    simp only [less, if_true]
    obtain ⟨mid, hm, ha⟩ := search_found hp hs
    obtain ⟨first, hfirst, hr⟩ := ha.after hm
    obtain ⟨others, hothers, hrest⟩ := ih
    exact ⟨first ++ others, hfirst.append hothers, hr.trans hrest⟩
  | case2 c r passed hs less =>
    rw [itemsFrom, hs]
    simp only [less, if_false]
    obtain ⟨mid, hm, ha⟩ := search_found hp hs
    obtain ⟨all, hall, hr⟩ := ha.after hm
    exact ⟨all, hall, by simpa using hr⟩
  | case3 c stop passed hs =>
    rw [itemsFrom, hs]
    exact ⟨[], .refl _, .done _⟩
  | case4 c hs =>
    rw [itemsFrom, hs]
    exact ⟨[], .refl _, .done _⟩

theorem Conserves.many0 {p : Parser τ α} (hp : p.Conserves legal f) :
    p.many0.Conserves legal (List.flatMap f) := by
  intro c recovery r hr
  obtain rfl := many0_ok hr
  exact itemsFrom_accounted hp _ _ _

theorem Conserves.many1 {p : Parser τ α} (hp : p.Conserves legal f) :
    p.many1.Conserves legal (List.flatMap f) := by
  intro c recovery r hr
  obtain ⟨rfl, -⟩ := many1_ok hr
  exact itemsFrom_accounted hp _ _ _

theorem Conserves.suffixed {p : Parser τ α} {q : Parser τ β} (hp : p.Conserves legal f)
    (hq : q.Conserves legal g) : (p.suffixed q).Conserves legal (Mark.pair f (Mark.option g)) := by
  intro c recovery r hr
  obtain ⟨b, hb, h⟩ := suffixed_ok hr
  obtain ⟨left, hleft, ha⟩ := hp _ _ _ hb
  obtain rfl | ⟨s, hs, rfl⟩ := h
  · exact ⟨left, hleft, by simpa [Mark.pair, Mark.option] using ha⟩
  · obtain ⟨right, hright, ha'⟩ := hq _ _ _ hs
    exact ⟨left ++ right, hleft.append hright, ha.trans ha'⟩

theorem tooDeep_conserves (recognize : Recognizer τ) :
    (tooDeep recognize : Parser τ α).Conserves legal f := by
  intro c recovery r hr
  cases hr

end Parser

/-! ## Chains -/

namespace Chain

theorem of_conserves {p : Parser τ α} (hp : p.Conserves legal f) : (of p).Conserves legal f := hp

theorem Conserves.required {chain : Chain τ α} (hc : chain.Conserves legal f) {p : Parser τ β}
    (hp : p.Conserves legal g) {recovery : Recognizer τ} {r : Reading (α × β)}
    (hr : chain.required p c recovery = .ok r) : r.Accounted legal (Mark.pair f g) c := by
  obtain ⟨left, s, passed, hl, hs, rfl⟩ := required_ok hr
  obtain ⟨mid, hm, ha⟩ := Parser.search_found hp hs
  exact (hc _ _ _ hl).behind hm ha

theorem Conserves.and {chain : Chain τ α} (hc : chain.Conserves legal f) {p : Parser τ β}
    (hp : p.Conserves legal g) : (chain.and p).Conserves legal (Mark.pair f g) :=
  fun _ _ _ hr => hc.required hp hr

theorem Conserves.andRecognize {chain : Chain τ α} (hc : chain.Conserves legal f) {p : Parser τ β}
    (hp : p.Conserves legal g) : (chain.andRecognize p).Conserves legal (Mark.pair f g) :=
  fun _ _ _ hr => hc.required hp hr

theorem Conserves.andRecover {chain : Chain τ α} (hc : chain.Conserves legal f) {p : Parser τ β}
    (hp : p.Conserves legal g) (missing : α → μ) :
    (chain.andRecover p missing).Conserves legal (Mark.pair f (Mark.slot g)) := by
  intro c recovery r hr
  obtain ⟨left, hl, h⟩ := andRecover_ok hr
  obtain ⟨s, passed, hs, rfl⟩ | ⟨stop, passed, hs, rfl⟩ := h
  · obtain ⟨mid, hm, ha⟩ := Parser.search_found hp hs
    exact (hc _ _ _ hl).behind hm ha
  · obtain ⟨before, hbefore, ha⟩ := hc _ _ _ hl
    have gap : Accounts legal c.tokens stop stop []
        [.gap ((c.moveTo stop).gap (missing left.value))] := .lack rfl (.done stop)
    have h := ha.trans ((Parser.search_recovered hs).trans gap)
    exact ⟨before ++ (passed ++ []), by simpa using hbefore.append_right passed, h⟩

theorem Conserves.onValue {chain : Chain τ α} (hc : chain.Conserves legal f)
    {g : β → List (Mark τ μ)} {fn : α → β} (h : ∀ a, g (fn a) = f a) :
    (chain.onValue fn).Conserves legal g := by
  intro c recovery r hr
  obtain ⟨s, hs, rfl⟩ := onValue_ok hr
  obtain ⟨passed, hperm, ha⟩ := hc _ _ _ hs
  exact ⟨passed, hperm, by rw [h]; exact ha⟩

theorem Conserves.toParser {chain : Chain τ α} (hc : chain.Conserves legal f) :
    chain.toParser.Conserves legal f :=
  fun _ _ _ hr => hc _ _ _ (toParser_ok hr)

theorem Conserves.map {chain : Chain τ α} (hc : chain.Conserves legal f)
    {g : β → List (Mark τ μ)} {fn : α → β} (h : ∀ a, g (fn a) = f a) :
    (chain.map fn).Conserves legal g :=
  (hc.onValue h).toParser

end Chain

end GraphQL.Recovery
