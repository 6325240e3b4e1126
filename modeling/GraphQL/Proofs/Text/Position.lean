import GraphQL.Proofs.Text.Lines

/-! # Places of a text

`Text.terminated` lists the offsets at which line terminators end, told by the units around each
offset alone. The rows of a text and the search among them are compared with it:

* `position_eq`: the line of an offset counts the terminators that end at or before it, the column is
  the distance to the last of them,
* `position_before`: a later offset has a later place,
* `line?_eq`: the lines that are looked up by number are the lines of the text,
* `exists_line`: the line of an offset is there. -/

namespace GraphQL.Text

set_option autoImplicit false

variable {t line rest terminator : Text} {lines : List Text} {starts : List Nat}

/-! ## Terminators -/

/-- A line terminator ends at the offset: behind a line feed, or behind a carriage return that no
line feed follows. -/
def endsAt (t : Text) (offset : Nat) : Bool :=
  decide (0 < offset) && (t[offset - 1]? == some (unit '\n') ||
    (t[offset - 1]? == some (unit '\r') && t[offset]? != some (unit '\n')))

/-- The offsets up to the given one at which line terminators end. -/
def terminated (t : Text) (offset : Nat) : List Nat := (List.range (offset + 1)).filter t.endsAt

theorem endsAt_cons (u : CodeUnit) (t : Text) (i : Nat) :
    endsAt (u :: t) (i + 1) = if i = 0 then endsLine u t else endsAt t i := by
  cases i with
  | zero => simp [endsAt, endsLine, List.head?_eq_getElem?]
  | succ i => simp [endsAt]

theorem lt_of_mem_startsAfter {offset start : Nat} (h : start ∈ startsAfter offset t) :
    offset < start := by
  fun_induction startsAfter offset t with
  | case1 => cases h
  | case2 offset u t ends ih =>
    rcases List.mem_cons.1 h with rfl | h
    · exact Nat.lt_succ_self offset
    · exact Nat.lt_of_succ_lt (ih h)
  | case3 offset u t ends ih => exact Nat.lt_of_succ_lt (ih h)

theorem startsAfter_pairwise (offset : Nat) (t : Text) :
    (startsAfter offset t).Pairwise (· < ·) := by
  fun_induction startsAfter offset t with
  | case1 => exact List.Pairwise.nil
  | case2 offset u t ends ih => exact .cons (fun start h => lt_of_mem_startsAfter h) ih
  | case3 offset u t ends ih => exact ih

theorem mem_startsAfter {offset i : Nat} :
    offset + (i + 1) ∈ startsAfter offset t ↔ t.endsAt (i + 1) = true := by
  induction t generalizing offset i with
  | nil => simp [startsAfter, endsAt]
  | cons u t ih =>
    have here : offset + 1 ∉ startsAfter (offset + 1) t :=
      fun h => Nat.lt_irrefl _ (lt_of_mem_startsAfter h)
    rw [startsAfter, endsAt_cons]
    cases i with
    | zero =>
      rw [if_pos rfl]
      split
      · next ends => simp [ends]
      · next stays => simp [stays, here]
    | succ i =>
      have next : offset + (i + 1 + 1) = offset + 1 + (i + 1) := by omega
      rw [if_neg (Nat.succ_ne_zero i), ← @ih (offset + 1) i, next]
      split
      · simp
      · rfl

/-- Up to an offset the lines behind the first start where terminators end. -/
theorem filter_startsAfter (t : Text) (offset : Nat) :
    (startsAfter 0 t).filter (fun start => decide (start ≤ offset)) = t.terminated offset := by
  have asymm : ∀ i j : Nat, i ∈ (startsAfter 0 t).filter (fun start => decide (start ≤ offset)) →
      j ∈ t.terminated offset → i < j → j < i → i = j :=
    fun i j _ _ lt gt => absurd lt (Nat.lt_asymm gt)
  have sorted := (startsAfter_pairwise 0 t).filter fun start => decide (start ≤ offset)
  have sorted' : (t.terminated offset).Pairwise (· < ·) := List.pairwise_lt_range.filter t.endsAt
  refine List.Perm.eq_of_pairwise asymm sorted sorted' ?_
  rw [List.perm_ext_iff_of_nodup (sorted.imp Nat.ne_of_lt) (sorted'.imp Nat.ne_of_lt)]
  intro i
  rw [terminated, List.mem_filter, List.mem_filter, List.mem_range, Nat.lt_succ_iff,
    decide_eq_true_iff, and_comm]
  refine and_congr_right fun _ => ?_
  cases i with
  | zero => exact iff_of_false (fun h => Nat.lt_irrefl 0 (lt_of_mem_startsAfter h)) (by simp [endsAt])
  | succ i => rw [← @mem_startsAfter t 0 i, Nat.zero_add]

/-! ## The search -/

theorem length_lineStarts (t : Text) : t.lineStarts.length = (startsAfter 0 t).length + 1 := rfl

theorem lineStarts_pairwise (t : Text) : t.lineStarts.Pairwise (· < ·) :=
  .cons (fun _ h => lt_of_mem_startsAfter h) (startsAfter_pairwise 0 t)

/-- The row at `low` starts at or before the offset, and all rows behind `high` start after it. -/
structure Between (starts : List Nat) (offset : Int) (low high : Nat) : Prop where
  le : low ≤ high
  lt : high < starts.length
  before : ((starts[low]?.getD 0 : Nat) : Int) ≤ offset
  behind : ∀ i, high < i → i < starts.length → offset < (starts[i]?.getD 0 : Nat)

theorem getD_le_of_le (sorted : starts.Pairwise (· < ·)) {i j : Nat} (le : i ≤ j)
    (lt : j < starts.length) : starts[i]?.getD 0 ≤ starts[j]?.getD 0 := by
  rw [List.getElem?_eq_getElem lt, List.getElem?_eq_getElem (Nat.lt_of_le_of_lt le lt)]
  rcases Nat.eq_or_lt_of_le le with rfl | less
  · exact Nat.le_refl _
  · exact Nat.le_of_lt (List.pairwise_iff_getElem.1 sorted i j _ lt less)

/-- Halving keeps the row between its bounds. -/
theorem Between.rowAt {offset : Int} {low high : Nat} (sorted : starts.Pairwise (· < ·))
    (h : Between starts offset low high) :
    Between starts offset (rowAt starts offset low high) (rowAt starts offset low high) := by
  fun_induction Text.rowAt starts offset low high with
  | case1 low high less middle start before ih =>
    exact ih ⟨by omega, h.lt, before, h.behind⟩
  | case2 low high less middle start before ih =>
    refine ih ⟨by omega, by have := h.lt; omega, h.before, fun i behind lt => ?_⟩
    have later : start ≤ starts[i]?.getD 0 := getD_le_of_le sorted (by omega) lt
    omega
  | case3 low high less =>
    have same : high = low := Nat.le_antisymm (Nat.le_of_not_lt less) h.le
    exact ⟨Nat.le_refl _, same ▸ h.lt, h.before, same ▸ h.behind⟩

/-- The row in which an offset is found. -/
def row (t : Text) (offset : Int) : Nat := rowAt t.lineStarts offset 0 (t.lineStarts.length - 1)

theorem row_between (t : Text) (offset : Nat) :
    Between t.lineStarts offset (t.row offset) (t.row offset) := by
  have nonempty : 0 < t.lineStarts.length := Nat.succ_pos _
  refine Between.rowAt (lineStarts_pairwise t) ⟨Nat.zero_le _, by omega, ?_, fun i hi lt => ?_⟩
  · exact Int.natCast_nonneg offset
  · omega

theorem filter_eq_take {l : List Nat} {p : Nat → Bool} {n : Nat}
    (first : ∀ i (h : i < l.length), i < n → p l[i] = true)
    (later : ∀ i (h : i < l.length), n ≤ i → ¬p l[i] = true) : l.filter p = l.take n := by
  have front : (l.take n).filter p = l.take n := by
    refine List.filter_eq_self.2 fun a ha => ?_
    obtain ⟨i, hi, rfl⟩ := List.mem_take_iff_getElem.1 ha
    exact first i (by omega) (by omega)
  have back : (l.drop n).filter p = [] := by
    refine List.filter_eq_nil_iff.2 fun a ha => ?_
    obtain ⟨i, hi, rfl⟩ := List.mem_drop_iff_getElem.1 ha
    exact later (n + i) (by omega) (by omega)
  have whole := congrArg (List.filter p) (List.take_append_drop n l)
  rw [List.filter_append, front, back, List.append_nil] at whole
  exact whole.symm

/-- As many terminators end up to an offset as there are rows above its own. -/
theorem terminated_eq_take (t : Text) (offset : Nat) :
    t.terminated offset = (startsAfter 0 t).take (t.row offset) := by
  have between := row_between t offset
  have length := t.length_lineStarts
  have start_eq (i : Nat) (h : i < (startsAfter 0 t).length) :
      t.lineStarts[i + 1]?.getD 0 = (startsAfter 0 t)[i] := by
    rw [lineStarts, List.getElem?_cons_succ, List.getElem?_eq_getElem h, Option.getD_some]
  rw [← filter_startsAfter]
  refine filter_eq_take (fun i h lt => decide_eq_true ?_) fun i h le => ?_
  · have le := getD_le_of_le (lineStarts_pairwise t) (Nat.succ_le_of_lt lt) between.lt
    have := between.before
    rw [start_eq i h] at le
    omega
  · have behind := between.behind (i + 1) (Nat.lt_succ_of_le le) (by omega)
    rw [start_eq i h] at behind
    rw [decide_eq_true_iff]
    omega

theorem length_terminated (t : Text) (offset : Nat) :
    (t.terminated offset).length = t.row offset := by
  have lt := (row_between t offset).lt
  have length := t.length_lineStarts
  rw [terminated_eq_take, List.length_take]
  omega

theorem getLast_terminated (t : Text) (offset : Nat) :
    (t.terminated offset).getLast?.getD 0 = t.lineStarts[t.row offset]?.getD 0 := by
  have lt := (row_between t offset).lt
  have length := t.length_lineStarts
  rw [terminated_eq_take, lineStarts]
  cases h : t.row offset with
  | zero => rfl
  | succ n =>
    have inside : n < (startsAfter 0 t).length := by omega
    rw [List.getElem?_cons_succ, List.getLast?_take, if_neg (Nat.succ_ne_zero n),
      Nat.add_sub_cancel, List.getElem?_eq_getElem inside]
    rfl

/-! ## Places -/

/-- The line of an offset counts the line terminators that end at or before it, and the column the
units behind the last of them. -/
theorem position_eq (t : Text) (offset : Nat) :
    t.position offset = ⟨(t.terminated offset).length + 1,
      offset - ((t.terminated offset).getLast?.getD 0 : Nat) + 1⟩ := by
  rw [length_terminated, getLast_terminated]
  rfl

/-- Columns inside a text are counted from 1, and no line is longer than what is in front. -/
theorem column_bounds (t : Text) (offset : Nat) :
    1 ≤ (t.position offset).column ∧ (t.position offset).column ≤ offset + 1 := by
  have before := (row_between t offset).before
  show (1 : Int) ≤ offset - (t.lineStarts[t.row offset]?.getD 0 : Nat) + 1 ∧
    offset - (t.lineStarts[t.row offset]?.getD 0 : Nat) + 1 ≤ (offset : Int) + 1
  omega

/-- One place is on an earlier line than the other, or on the same line and further left. -/
def Position.Before (a b : Position) : Prop :=
  a.line < b.line ∨ a.line = b.line ∧ a.column < b.column

/-- A later offset has a later place. -/
theorem position_before (t : Text) {a b : Nat} (less : a < b) :
    (t.position a).Before (t.position b) := by
  have split : t.terminated b =
      t.terminated a ++ (List.range' (a + 1) (b - a)).filter t.endsAt := by
    have whole : b + 1 = a + 1 + (b - a) := by omega
    rw [terminated, terminated, ← List.filter_append, whole, List.range_add, List.range'_eq_map_range]
  rw [position_eq, position_eq, split]
  cases more : (List.range' (a + 1) (b - a)).filter t.endsAt with
  | nil =>
    refine .inr ⟨by rw [List.append_nil], ?_⟩
    rw [List.append_nil]
    show (a : Int) - _ + 1 < b - _ + 1
    omega
  | cons stop stops =>
    refine .inl ?_
    show (t.terminated a).length + 1 < (t.terminated a ++ stop :: stops).length + 1
    rw [List.length_append, List.length_cons]
    omega

/-! ## Lines by their number -/

theorem endsLine_of_oneLine {u : CodeUnit} (plain : OneLine (u :: line)) (rest : Text) :
    endsLine u rest = false := by
  have feed : u ≠ unit '\n' := fun same => plain.feed (same ▸ List.mem_cons_self)
  have carriage : u ≠ unit '\r' := fun same => plain.carriage (same ▸ List.mem_cons_self)
  simp [endsLine, feed, carriage]

theorem startsAfter_line (plain : OneLine line) (offset : Nat) (rest : Text) :
    startsAfter offset (line ++ rest) = startsAfter (offset + line.length) rest := by
  induction line generalizing offset with
  | nil => rfl
  | cons u line ih =>
    have stays : ¬endsLine u (line ++ rest) = true := by
      rw [endsLine_of_oneLine plain]
      exact Bool.false_ne_true
    rw [List.cons_append, startsAfter, if_neg stays, ih (plain.drop 1), List.length_cons]
    congr 1
    omega

theorem startsAfter_terminator (ends : terminator ∈ terminators)
    (whole : terminator = [unit '\r'] → rest.head? ≠ some (unit '\n')) (offset : Nat) :
    startsAfter offset (terminator ++ rest) =
      (offset + terminator.length) :: startsAfter (offset + terminator.length) rest := by
  obtain rfl | rfl | rfl := mem_terminators.1 ends
  · rfl
  · rfl
  · have lone : endsLine (unit '\r') rest = true := by simp [endsLine, whole rfl]
    rw [List.singleton_append, startsAfter, if_pos lone]
    rfl

theorem startsAfter_add (t : Text) (k offset : Nat) :
    startsAfter (k + offset) t = (startsAfter offset t).map (k + ·) := by
  fun_induction startsAfter offset t with
  | case1 => rfl
  | case2 offset u t ends ih =>
    rw [startsAfter, if_pos ends, List.map_cons, ← ih]
    rfl
  | case3 offset u t ends ih =>
    rw [startsAfter, if_neg ends, ← ih]
    rfl

theorem lineStarts_of_oneLine (plain : OneLine line) : line.lineStarts = [0] := by
  have none := startsAfter_line plain 0 []
  rw [List.append_nil] at none
  rw [lineStarts, none]
  rfl

/-- Behind a terminated line the lines start where they do in the rest. -/
theorem lineStarts_cons (plain : OneLine line) (ends : terminator ∈ terminators)
    (whole : terminator = [unit '\r'] → rest.head? ≠ some (unit '\n')) :
    lineStarts (line ++ (terminator ++ rest)) =
      0 :: rest.lineStarts.map ((line.length + terminator.length) + ·) := by
  rw [lineStarts, startsAfter_line plain, startsAfter_terminator ends whole, Nat.zero_add,
    lineStarts, List.map_cons, ← startsAfter_add, Nat.add_zero]

theorem chomp_of_oneLine (plain : OneLine t) : chomp t = t := by
  have feed : t.getLast? ≠ some (unit '\n') := fun h => plain.feed (List.mem_of_getLast? h)
  have carriage : t.getLast? ≠ some (unit '\r') := fun h => plain.carriage (List.mem_of_getLast? h)
  have pair : [unit '\r', unit '\n'].isSuffixOf t = false := by
    refine Bool.eq_false_iff.2 fun h => ?_
    exact plain.feed ((List.isSuffixOf_iff_suffix.1 h).subset (by simp))
  simp [chomp, pair, feed, carriage]

theorem chomp_terminated (plain : OneLine line) (ends : terminator ∈ terminators) :
    chomp (line ++ terminator) = line := by
  obtain rfl | rfl | rfl := mem_terminators.1 ends
  · have pair : [unit '\r', unit '\n'].isSuffixOf (line ++ [unit '\n']) = false := by
      refine Bool.eq_false_iff.2 fun h => ?_
      obtain ⟨front, same⟩ := List.isSuffixOf_iff_suffix.1 h
      have pair_eq : [unit '\r', unit '\n'] = [unit '\r'] ++ [unit '\n'] := rfl
      rw [pair_eq, ← List.append_assoc] at same
      have front_eq := List.append_cancel_right same
      exact plain.carriage (front_eq ▸ List.mem_append_right front List.mem_cons_self)
    simp [chomp, pair]
  · have pair : [unit '\r', unit '\n'].isSuffixOf (line ++ [unit '\r', unit '\n']) = true :=
      List.isSuffixOf_iff_suffix.2 (List.suffix_append line _)
    rw [chomp, if_pos pair, List.length_append]
    exact List.take_left' (by simp)
  · have pair : [unit '\r', unit '\n'].isSuffixOf (line ++ [unit '\r']) = false := by
      refine Bool.eq_false_iff.2 fun h => ?_
      obtain ⟨front, same⟩ := List.isSuffixOf_iff_suffix.1 h
      have last := congrArg List.getLast? same
      rw [List.getLast?_append, List.getLast?_append] at last
      have other : some (unit '\n') ≠ some (unit '\r') := by decide
      exact other last
    simp [chomp, pair]

theorem line?_succ (t : Text) (n : Nat) : t.line? (n + 1) = t.lineStarts[n]?.map fun start =>
    chomp ((t.take (t.lineStarts[n + 1]?.getD t.length)).drop start) := rfl

/-- Lines are looked up by their number. -/
theorem line?_eq (h : Lines lines t) (n : Nat) : t.line? (n + 1) = lines[n]? := by
  induction h generalizing n with
  | @last line plain =>
    rw [line?_succ, lineStarts_of_oneLine plain]
    cases n with
    | zero => simp [chomp_of_oneLine plain]
    | succ n => simp
  | @cons line terminator rest lines plain ends whole more ih =>
    have starts := lineStarts_cons plain ends whole
    generalize hk : line.length + terminator.length = k at starts
    have front : (line ++ (terminator ++ rest)).take k = line ++ terminator := by
      rw [← List.append_assoc]
      exact List.take_left' (by rw [List.length_append, hk])
    have back (stop start : Nat) : ((line ++ (terminator ++ rest)).take (k + stop)).drop (k + start) =
        (rest.take stop).drop start := by
      rw [← List.append_assoc, ← hk, ← List.length_append, List.take_length_add_append,
        List.drop_length_add_append]
    have whole_length : (line ++ (terminator ++ rest)).length = k + rest.length := by
      rw [List.length_append, List.length_append, ← Nat.add_assoc, hk]
    rw [line?_succ, starts]
    cases n with
    | zero =>
      have second : (0 :: rest.lineStarts.map (k + ·))[0 + 1]? = some k := rfl
      rw [second, List.getElem?_cons_zero, Option.map_some, Option.getD_some, List.drop_zero, front,
        chomp_terminated plain ends, List.getElem?_cons_zero]
    | succ n =>
      have stop : (0 :: rest.lineStarts.map (k + ·))[n + 1 + 1]?.getD (k + rest.length) =
          k + rest.lineStarts[n + 1]?.getD rest.length := by
        rw [List.getElem?_cons_succ, List.getElem?_map]
        exact Option.getD_map (k + ·) rest.length _
      rw [whole_length, stop, List.getElem?_cons_succ, List.getElem?_map, Option.map_map,
        List.getElem?_cons_succ, ← ih n, line?_succ]
      congr 1
      funext start
      exact congrArg chomp (back _ _)

/-- The line of an offset is there. -/
theorem exists_line (t : Text) (offset : Nat) :
    ∃ line, t.line? (t.position offset).line = some line := by
  have lt := (row_between t offset).lt
  refine Option.isSome_iff_exists.1 ?_
  show (t.line? (t.row offset + 1)).isSome = true
  rw [line?_succ, List.getElem?_eq_getElem lt]
  rfl

end GraphQL.Text
