import GraphQL.Proofs.Recovery.Outcome

/-! # Heeding the recovery point

A parser *heeds* the recovery point if it passes over no token at which that is recognized. A
combinator that waits for something itself may only widen the recovery point of its parts, so its
parts heed what it was given too.

* `Recognizer.Widens` compares recovery points,
* `Parser.Heeds` and `Chain.Heeds`, with one lemma for each combinator. -/

namespace GraphQL.Recovery

set_option autoImplicit false

variable {τ α β γ μ : Type}

/-! ## Recovery points -/

/-- The wide recovery point recognizes what the narrow one does. -/
def Recognizer.Widens (wide narrow : Recognizer τ) : Prop := ∀ c, narrow c = true → wide c = true

namespace Recognizer.Widens

variable {wide narrow : Recognizer τ}

theorem refl (recovery : Recognizer τ) : recovery.Widens recovery := fun _ h => h

theorem or (recovery more : Recognizer τ) : (recovery.or more).Widens recovery := by
  intro c h
  show (recovery c || more c) = true
  rw [h, Bool.true_or]

/-- What the wide recovery point does not recognize the narrow one does not either. -/
theorem eq_false (h : wide.Widens narrow) {c : Cursor τ} (hc : wide c = false) :
    narrow c = false := by
  cases hn : narrow c with
  | false => rfl
  | true => rw [h c hn] at hc; cases hc

end Recognizer.Widens

/-- None of the positions is one where the recovery point is recognized. -/
def Heeded (tokens : Array τ) (recovery : Recognizer τ) (positions : List Nat) : Prop :=
  ∀ i ∈ positions, recovery ⟨tokens, i⟩ = false

namespace Heeded

variable {tokens : Array τ} {recovery wide : Recognizer τ} {a b : List Nat}

theorem nil : Heeded tokens recovery [] := by
  intro i hi
  cases hi

theorem append (ha : Heeded tokens recovery a) (hb : Heeded tokens recovery b) :
    Heeded tokens recovery (a ++ b) :=
  List.forall_mem_append.2 ⟨ha, hb⟩

theorem narrow (h : Heeded tokens wide a) (widens : wide.Widens recovery) :
    Heeded tokens recovery a :=
  fun i hi => widens.eq_false (h i hi)

end Heeded

/-- No parse that succeeds has passed over the recovery point. -/
def Parser.Heeds (p : Parser τ α) : Prop :=
  ∀ c recovery r, p.parse c recovery = .ok r → Heeded c.tokens recovery r.skipped

def Chain.Heeds (chain : Chain τ α) : Prop :=
  ∀ c recovery r, chain.run c recovery = .ok r → Heeded c.tokens recovery r.skipped

variable {c : Cursor τ} {recovery itemRecovery : Recognizer τ}

namespace Parser

/-! ## Passing over tokens -/

theorem Passes.heeded {item : Parser τ α} {stop : Nat} {passed : List Nat}
    (h : item.Passes itemRecovery recovery c stop passed) : Heeded c.tokens recovery passed :=
  fun i hi => (h.misses i hi).2

/-- What an item passes over and what the search for it passed over before. -/
theorem search_heeds {p : Parser τ α} (hp : p.Heeds) (widens : itemRecovery.Widens recovery)
    {r : Reading α} {passed : List Nat}
    (h : p.search itemRecovery recovery c = .found r passed) :
    Heeded c.tokens recovery (r.skipped ++ passed) := by
  obtain ⟨stop, passes, parsed⟩ := passes_of_found h
  have inner : Heeded c.tokens itemRecovery r.skipped := hp (c.moveTo stop) _ _ parsed
  exact (inner.narrow widens).append passes.heeded

theorem search_recovered_heeds {p : Parser τ α} {stop : Nat} {passed : List Nat}
    (h : p.search itemRecovery recovery c = .recovered stop passed) :
    Heeded c.tokens recovery passed :=
  (passes_of_recovered h).1.heeded

/-! ## Combinators -/

theorem token_heeds (what : Text) (accept : τ → Option α) : (token what accept).Heeds := by
  intro c recovery r hr
  obtain ⟨t, a, -, -, rfl⟩ := token_ok hr
  exact .nil

theorem Heeds.map {p : Parser τ α} (hp : p.Heeds) (f : α → β) : (p.map f).Heeds := by
  intro c recovery r hr
  obtain ⟨s, hs, rfl⟩ := map_ok hr
  exact hp _ _ _ hs

theorem alt_heeds {ps : List (Parser τ α)} (h : ∀ p ∈ ps, p.Heeds) : (alt ps).Heeds := by
  intro c recovery r hr
  obtain ⟨p, hp, hr⟩ := alt_ok hr
  exact h p hp _ _ _ hr

theorem Heeds.opt {p : Parser τ α} (hp : p.Heeds) : p.opt.Heeds := by
  intro c recovery r hr
  obtain ⟨s, passed, hs, rfl⟩ | ⟨-, rfl⟩ := opt_ok hr
  · exact search_heeds hp (.refl recovery) hs
  -- the tokens in front of the recovery point are given back
  · exact .nil

theorem Heeds.recover [HasSpan τ] {p : Parser τ α} (hp : p.Heeds) (missing : μ) :
    (p.recover missing).Heeds := by
  intro c recovery r hr
  obtain ⟨s, passed, hs, rfl⟩ | ⟨stop, passed, hs, rfl⟩ := recover_ok hr
  · exact search_heeds hp (.refl recovery) hs
  · exact search_recovered_heeds hs

theorem itemsFrom_heeds {p : Parser τ α} (hp : p.Heeds) (widens : itemRecovery.Widens recovery)
    (c : Cursor τ) : Heeded c.tokens recovery (itemsFrom p itemRecovery recovery c).skipped := by
  induction c using itemsFrom.induct p itemRecovery recovery with
  | case1 c r passed hs less ih =>
    rw [itemsFrom, hs]
    simp only [less, if_true]
    exact (search_heeds hp widens hs).append ih
  | case2 c r passed hs less =>
    rw [itemsFrom, hs]
    simp only [less, if_false]
    exact search_heeds hp widens hs
  | case3 c stop passed hs =>
    rw [itemsFrom, hs]
    exact .nil
  | case4 c hs =>
    rw [itemsFrom, hs]
    exact .nil

theorem Heeds.many0 {p : Parser τ α} (hp : p.Heeds) : p.many0.Heeds := by
  intro c recovery r hr
  obtain rfl := many0_ok hr
  exact itemsFrom_heeds hp (.or recovery p.recognize) c

theorem Heeds.many1 {p : Parser τ α} (hp : p.Heeds) : p.many1.Heeds := by
  intro c recovery r hr
  obtain ⟨rfl, -⟩ := many1_ok hr
  exact itemsFrom_heeds hp (.or recovery p.recognize) c

theorem Heeds.suffixed {p : Parser τ α} {q : Parser τ β} (hp : p.Heeds) (hq : q.Heeds) :
    (p.suffixed q).Heeds := by
  intro c recovery r hr
  obtain ⟨b, hb, h⟩ := suffixed_ok hr
  have base : Heeded c.tokens recovery b.skipped := (hp _ _ _ hb).narrow (.or recovery q.recognize)
  obtain rfl | ⟨s, hs, rfl⟩ := h
  · exact base
  · have suffix := hq _ _ _ hs
    exact base.append suffix

theorem tooDeep_heeds (recognize : Recognizer τ) : (tooDeep recognize : Parser τ α).Heeds := by
  intro c recovery r hr
  cases hr

end Parser

/-! ## Chains -/

namespace Chain

theorem of_heeds {p : Parser τ α} (hp : p.Heeds) : (of p).Heeds := hp

theorem Heeds.required {chain : Chain τ α} (hc : chain.Heeds) {p : Parser τ β} (hp : p.Heeds)
    {r : Reading (α × β)} (hr : chain.required p c recovery = .ok r) :
    Heeded c.tokens recovery r.skipped := by
  obtain ⟨left, s, passed, hl, hs, rfl⟩ := required_ok hr
  have before : Heeded c.tokens recovery left.skipped :=
    (hc _ _ _ hl).narrow (.or recovery p.recognize)
  have next := Parser.search_heeds hp (.refl recovery) hs
  exact before.append next

theorem Heeds.and {chain : Chain τ α} (hc : chain.Heeds) {p : Parser τ β} (hp : p.Heeds) :
    (chain.and p).Heeds :=
  fun _ _ _ hr => hc.required hp hr

theorem Heeds.andRecognize {chain : Chain τ α} (hc : chain.Heeds) {p : Parser τ β}
    (hp : p.Heeds) : (chain.andRecognize p).Heeds :=
  fun _ _ _ hr => hc.required hp hr

theorem Heeds.andRecover [HasSpan τ] {chain : Chain τ α} (hc : chain.Heeds) {p : Parser τ β}
    (hp : p.Heeds) (missing : α → μ) : (chain.andRecover p missing).Heeds := by
  intro c recovery r hr
  obtain ⟨left, hl, h⟩ := andRecover_ok hr
  have before : Heeded c.tokens recovery left.skipped :=
    (hc _ _ _ hl).narrow (.or recovery p.recognize)
  obtain ⟨s, passed, hs, rfl⟩ | ⟨stop, passed, hs, rfl⟩ := h
  · have next := Parser.search_heeds hp (.refl recovery) hs
    exact before.append next
  · have next := Parser.search_recovered_heeds hs
    exact before.append next

theorem Heeds.onValue {chain : Chain τ α} (hc : chain.Heeds) (f : α → β) :
    (chain.onValue f).Heeds := by
  intro c recovery r hr
  obtain ⟨s, hs, rfl⟩ := onValue_ok hr
  exact hc _ _ _ hs

theorem Heeds.toParser {chain : Chain τ α} (hc : chain.Heeds) : chain.toParser.Heeds :=
  fun _ _ _ hr => hc _ _ _ (toParser_ok hr)

theorem Heeds.map {chain : Chain τ α} (hc : chain.Heeds) (f : α → β) : (chain.map f).Heeds :=
  (hc.onValue f).toParser

end Chain

end GraphQL.Recovery
