import GraphQL.Proofs.Recovery.Search
import GraphQL.Recovery.Chain

/-! # What a successful parse has done

One lemma for each combinator tells from a successful parse what its parts have read, and where. All
properties of readings that combinators keep are proved from these. -/

namespace GraphQL.Recovery

set_option autoImplicit false

variable {τ α β μ : Type} {c : Cursor τ} {recovery : Recognizer τ}

namespace Parser

variable {p : Parser τ α}

theorem token_ok {what : Text} {accept : τ → Option α} {r : Reading α}
    (h : (token what accept).parse c recovery = .ok r) :
    ∃ t a, c.peek = some t ∧ accept t = some a ∧ r = ⟨a, c.position + 1, []⟩ := by
  simp only [token] at h
  cases hp : c.peek with
  | none => simp [hp] at h
  | some t =>
    cases ha : accept t with
    | none => simp [hp, ha] at h
    | some a =>
      simp only [hp, ha, Except.ok.injEq] at h
      exact ⟨t, a, rfl, ha, h.symm⟩

theorem map_ok {f : α → β} {r : Reading β} (h : (p.map f).parse c recovery = .ok r) :
    ∃ s, p.parse c recovery = .ok s ∧ r = ⟨f s.value, s.position, s.skipped⟩ := by
  simp only [Parser.map] at h
  cases hs : p.parse c recovery with
  | error e => simp [hs, Except.map] at h
  | ok s =>
    simp only [hs, Except.map, Except.ok.injEq] at h
    exact ⟨s, rfl, h.symm⟩

theorem alt_ok {ps : List (Parser τ α)} {r : Reading α} (h : (alt ps).parse c recovery = .ok r) :
    ∃ p ∈ ps, p.parse c recovery = .ok r := by
  simp only [alt] at h
  induction ps with
  | nil => simp [firstOf] at h
  | cons p ps ih =>
    rw [firstOf] at h
    cases hs : p.parse c recovery with
    | error e =>
      rw [hs] at h
      obtain ⟨q, hq, hr⟩ := ih h
      exact ⟨q, List.mem_cons_of_mem p hq, hr⟩
    | ok s =>
      rw [hs] at h
      exact ⟨p, List.mem_cons_self, hs.trans h⟩

/-- Either the item was found, or the recovery point was and nothing is passed over. -/
theorem opt_ok {r : Reading (Option α)} (h : p.opt.parse c recovery = .ok r) :
    (∃ s passed, p.search recovery recovery c = .found s passed ∧
      r = ⟨some s.value, s.position, s.skipped ++ passed⟩) ∨
    (∃ stop passed, p.search recovery recovery c = .recovered stop passed) ∧
      r = ⟨none, c.position, []⟩ := by
  simp only [Parser.opt] at h
  cases hs : p.search recovery recovery c with
  | found s passed =>
    simp only [hs, Except.ok.injEq] at h
    exact .inl ⟨s, passed, rfl, h.symm⟩
  | recovered stop passed =>
    simp only [hs, Except.ok.injEq] at h
    exact .inr ⟨⟨stop, passed, rfl⟩, h.symm⟩
  | exhausted => simp [hs] at h

/-- Either the item was found, or the recovery point was and the gap is there. -/
theorem recover_ok [HasSpan τ] {missing : μ} {r : Reading (Slot μ α)}
    (h : (p.recover missing).parse c recovery = .ok r) :
    (∃ s passed, p.search recovery recovery c = .found s passed ∧
      r = ⟨.present s.value, s.position, s.skipped ++ passed⟩) ∨
    ∃ stop passed, p.search recovery recovery c = .recovered stop passed ∧
      r = ⟨.missing ((c.moveTo stop).gap missing), stop, passed⟩ := by
  simp only [Parser.recover] at h
  cases hs : p.search recovery recovery c with
  | found s passed =>
    simp only [hs, Except.ok.injEq] at h
    exact .inl ⟨s, passed, rfl, h.symm⟩
  | recovered stop passed =>
    simp only [hs, Except.ok.injEq] at h
    exact .inr ⟨stop, passed, rfl, h.symm⟩
  | exhausted => simp [hs] at h

theorem many0_ok {r : Reading (List α)} (h : p.many0.parse c recovery = .ok r) :
    r = itemsFrom p (recovery.or p.recognize) recovery c := by
  simp only [Parser.many0, Except.ok.injEq] at h
  exact h.symm

theorem many1_ok {r : Reading (List α)} (h : p.many1.parse c recovery = .ok r) :
    r = itemsFrom p (recovery.or p.recognize) recovery c ∧ r.value.isEmpty = false := by
  simp only [Parser.many1] at h
  split at h
  · cases h
  next some =>
    cases h
    exact ⟨rfl, by simpa using some⟩

theorem suffixed_ok {q : Parser τ β} {r : Reading (α × Option β)}
    (h : (p.suffixed q).parse c recovery = .ok r) :
    ∃ b, p.parse c (recovery.or q.recognize) = .ok b ∧
      (r = ⟨(b.value, none), b.position, b.skipped⟩ ∨
        ∃ s, q.parse (c.moveTo b.position) recovery = .ok s ∧
          r = ⟨(b.value, some s.value), s.position, b.skipped ++ s.skipped⟩) := by
  simp only [Parser.suffixed] at h
  cases hb : p.parse c (recovery.or q.recognize) with
  | error e => simp [hb] at h
  | ok b =>
    cases hs : q.parse (c.moveTo b.position) recovery with
    | error e =>
      simp only [hb, hs, Except.ok.injEq] at h
      exact ⟨b, rfl, .inl h.symm⟩
    | ok s =>
      simp only [hb, hs, Except.ok.injEq] at h
      exact ⟨b, rfl, .inr ⟨s, hs, h.symm⟩⟩

end Parser

namespace Chain

variable {chain : Chain τ α} {p : Parser τ β}

theorem required_ok {r : Reading (α × β)} (h : chain.required p c recovery = .ok r) :
    ∃ left s passed, chain.run c (recovery.or p.recognize) = .ok left ∧
      p.search recovery recovery (c.moveTo left.position) = .found s passed ∧
      r = ⟨(left.value, s.value), s.position, left.skipped ++ (s.skipped ++ passed)⟩ := by
  simp only [Chain.required] at h
  cases hl : chain.run c (recovery.or p.recognize) with
  | error e => simp [hl] at h
  | ok left =>
    cases hs : p.search recovery recovery (c.moveTo left.position) with
    | found s passed =>
      simp only [hl, hs, Except.ok.injEq] at h
      exact ⟨left, s, passed, rfl, hs, h.symm⟩
    | recovered stop passed => simp [hl, hs] at h
    | exhausted => simp [hl, hs] at h

theorem andRecover_ok [HasSpan τ] {missing : α → μ} {r : Reading (α × Slot μ β)}
    (h : (chain.andRecover p missing).run c recovery = .ok r) :
    ∃ left, chain.run c (recovery.or p.recognize) = .ok left ∧
      ((∃ s passed, p.search recovery recovery (c.moveTo left.position) = .found s passed ∧
        r = ⟨(left.value, .present s.value), s.position, left.skipped ++ (s.skipped ++ passed)⟩) ∨
      ∃ stop passed, p.search recovery recovery (c.moveTo left.position) = .recovered stop passed ∧
        r = ⟨(left.value, .missing ((c.moveTo stop).gap (missing left.value))), stop,
          left.skipped ++ passed⟩) := by
  simp only [Chain.andRecover] at h
  cases hl : chain.run c (recovery.or p.recognize) with
  | error e => simp [hl] at h
  | ok left =>
    cases hs : p.search recovery recovery (c.moveTo left.position) with
    | found s passed =>
      simp only [hl, hs, Except.ok.injEq] at h
      exact ⟨left, rfl, .inl ⟨s, passed, hs, h.symm⟩⟩
    | recovered stop passed =>
      simp only [hl, hs, Except.ok.injEq] at h
      exact ⟨left, rfl, .inr ⟨stop, passed, hs, h.symm⟩⟩
    | exhausted => simp [hl, hs] at h

theorem onValue_ok {f : α → β} {r : Reading β} (h : (chain.onValue f).run c recovery = .ok r) :
    ∃ s, chain.run c recovery = .ok s ∧ r = ⟨f s.value, s.position, s.skipped⟩ := by
  simp only [Chain.onValue] at h
  cases hs : chain.run c recovery with
  | error e => simp [hs, Except.map] at h
  | ok s =>
    simp only [hs, Except.map, Except.ok.injEq] at h
    exact ⟨s, rfl, h.symm⟩

theorem toParser_ok {r : Reading α} (h : chain.toParser.parse c recovery = .ok r) :
    chain.run c recovery = .ok r := by
  simp only [Chain.toParser] at h
  split at h
  · exact h
  · cases h

end Chain

end GraphQL.Recovery
