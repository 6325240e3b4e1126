import GraphQL.Proofs.Recovery.Outcome

/-! # What parsers yield

`Parser.Yields` says that whatever a parser reads has a property, wherever it stands and whatever it
recovers to. Each combinator yields what is told by the properties that its parts yield. -/

namespace GraphQL.Recovery

set_option autoImplicit false

variable {τ α β μ : Type} {P : α → Prop} {Q : β → Prop}

/-- Every value that is read has the property. -/
def Parser.Yields (P : α → Prop) (p : Parser τ α) : Prop :=
  ∀ c recovery r, p.parse c recovery = .ok r → P r.value

def Chain.Yields (P : α → Prop) (chain : Chain τ α) : Prop :=
  ∀ c recovery r, chain.run c recovery = .ok r → P r.value

/-- The property holds of a part if that is there. -/
def Slot.Holds (P : α → Prop) (slot : Slot μ α) : Prop := ∀ a, slot = .present a → P a

theorem Slot.holds_present {a : α} (h : P a) : (Slot.present a : Slot μ α).Holds P := by
  rintro b ⟨⟩
  exact h

theorem Slot.holds_missing (gap : Gap μ) : (Slot.missing gap : Slot μ α).Holds P := by
  rintro b ⟨⟩

namespace Parser

variable {p : Parser τ α} {q : Parser τ β} {c : Cursor τ} {itemRecovery recovery : Recognizer τ}

/-- Wherever an item is found, it was read there. -/
theorem Yields.found {r : Reading α} {passed : List Nat} (hp : p.Yields P)
    (h : p.search itemRecovery recovery c = .found r passed) : P r.value := by
  obtain ⟨stop, -, parsed⟩ := passes_of_found h
  exact hp _ _ _ parsed

theorem token_yields {what : Text} {accept : τ → Option α} (h : ∀ t a, accept t = some a → P a) :
    (token what accept).Yields P := by
  intro c recovery r hr
  obtain ⟨t, a, -, ha, rfl⟩ := token_ok hr
  exact h t a ha

theorem Yields.map (hp : p.Yields P) {f : α → β} (h : ∀ a, P a → Q (f a)) : (p.map f).Yields Q := by
  intro c recovery r hr
  obtain ⟨s, hs, rfl⟩ := map_ok hr
  exact h _ (hp _ _ _ hs)

theorem alt_yields {ps : List (Parser τ α)} (h : ∀ p ∈ ps, p.Yields P) : (alt ps).Yields P := by
  intro c recovery r hr
  obtain ⟨p, hp, hr⟩ := alt_ok hr
  exact h p hp _ _ _ hr

theorem Yields.opt (hp : p.Yields P) : p.opt.Yields fun a => ∀ x ∈ a, P x := by
  intro c recovery r hr
  obtain ⟨s, passed, hs, rfl⟩ | ⟨-, rfl⟩ := opt_ok hr
  · rintro x ⟨⟩
    exact hp.found hs
  · rintro x ⟨⟩

theorem Yields.recover [HasSpan τ] (hp : p.Yields P) (missing : μ) :
    (p.recover missing).Yields (Slot.Holds P) := by
  intro c recovery r hr
  obtain ⟨s, passed, hs, rfl⟩ | ⟨stop, passed, hs, rfl⟩ := recover_ok hr
  · exact Slot.holds_present (hp.found hs)
  · exact Slot.holds_missing _

theorem Yields.itemsFrom (hp : p.Yields P) (c : Cursor τ) :
    ∀ a ∈ (itemsFrom p itemRecovery recovery c).value, P a := by
  induction c using itemsFrom.induct p itemRecovery recovery with
  | case1 c r passed hs less ih =>
    rw [Parser.itemsFrom, hs]
    simp only [less, if_true]
    exact List.forall_mem_cons.2 ⟨hp.found hs, ih⟩
  | case2 c r passed hs less =>
    rw [Parser.itemsFrom, hs]
    simp only [less, if_false]
    exact List.forall_mem_singleton.2 (hp.found hs)
  | case3 c stop passed hs =>
    rw [Parser.itemsFrom, hs]
    exact List.forall_mem_nil _
  | case4 c hs =>
    rw [Parser.itemsFrom, hs]
    exact List.forall_mem_nil _

theorem Yields.many0 (hp : p.Yields P) : p.many0.Yields fun as => ∀ a ∈ as, P a := by
  intro c recovery r hr
  obtain rfl := many0_ok hr
  exact hp.itemsFrom c

theorem Yields.many1 (hp : p.Yields P) :
    p.many1.Yields fun as => as.isEmpty = false ∧ ∀ a ∈ as, P a := by
  intro c recovery r hr
  obtain ⟨rfl, some⟩ := many1_ok hr
  exact ⟨some, hp.itemsFrom c⟩

theorem Yields.suffixed (hp : p.Yields P) (hq : q.Yields Q) :
    (p.suffixed q).Yields fun x => P x.1 ∧ ∀ b ∈ x.2, Q b := by
  intro c recovery r hr
  obtain ⟨b, hb, h⟩ := suffixed_ok hr
  have base := hp _ _ _ hb
  obtain rfl | ⟨s, hs, rfl⟩ := h
  · refine ⟨base, ?_⟩
    rintro x ⟨⟩
  · refine ⟨base, ?_⟩
    rintro x ⟨⟩
    exact hq _ _ _ hs

theorem tooDeep_yields (recognize : Recognizer τ) : (tooDeep recognize : Parser τ α).Yields P := by
  intro c recovery r hr
  cases hr

end Parser

namespace Chain

variable {chain : Chain τ α} {p : Parser τ β}

theorem of_yields {p : Parser τ α} (hp : p.Yields P) : (of p).Yields P := hp

theorem Yields.and (hc : chain.Yields P) (hp : p.Yields Q) :
    (chain.and p).Yields fun x => P x.1 ∧ Q x.2 := by
  intro c recovery r hr
  obtain ⟨left, s, passed, hl, hs, rfl⟩ := required_ok hr
  exact ⟨hc _ _ _ hl, hp.found hs⟩

theorem Yields.andRecognize (hc : chain.Yields P) (hp : p.Yields Q) :
    (chain.andRecognize p).Yields fun x => P x.1 ∧ Q x.2 :=
  hc.and hp

theorem Yields.andRecover [HasSpan τ] (hc : chain.Yields P) (hp : p.Yields Q) (missing : α → μ) :
    (chain.andRecover p missing).Yields fun x => P x.1 ∧ x.2.Holds Q := by
  intro c recovery r hr
  obtain ⟨left, hl, h⟩ := andRecover_ok hr
  have before := hc _ _ _ hl
  obtain ⟨s, passed, hs, rfl⟩ | ⟨stop, passed, hs, rfl⟩ := h
  · exact ⟨before, Slot.holds_present (hp.found hs)⟩
  · exact ⟨before, Slot.holds_missing _⟩

theorem Yields.onValue (hc : chain.Yields P) {f : α → β} (h : ∀ a, P a → Q (f a)) :
    (chain.onValue f).Yields Q := by
  intro c recovery r hr
  obtain ⟨s, hs, rfl⟩ := onValue_ok hr
  exact h _ (hc _ _ _ hs)

theorem Yields.toParser (hc : chain.Yields P) : chain.toParser.Yields P :=
  fun _ _ _ hr => hc _ _ _ (toParser_ok hr)

theorem Yields.map (hc : chain.Yields P) {f : α → β} (h : ∀ a, P a → Q (f a)) :
    (chain.map f).Yields Q :=
  (hc.onValue h).toParser

end Chain

end GraphQL.Recovery
