/-
# Edit distances in two rows

A table of distances can be kept in two rows of memory. Each round of the
outer loop writes one of them, place by place, and reads the other, and then the
rows change roles, so that the row that is written next still holds the entries
of two rounds ago. Lists of which one is empty are settled before.

| after | first row | second row |
| --- | --- | --- |
| `j` places of a round | the row of the elements before | `j + 1` new entries, then old ones |
| a whole round | the row of one more element | whatever was written before |

The old entries are never read, and no place outside a row is touched. So the
result is `editDistance` (`twoRowDistance?_eq`).
-/

import ModulePolicy.Proofs.Similarity.LeastEdits

namespace ModulePolicy

variable {α : Type} [DecidableEq α]

/-- Writes an entry of a row, if the row has that place. -/
def writeEntry (row : List Nat) (place entry : Nat) : Option (List Nat) :=
  if place < row.length then some (row.set place entry) else none

/-- The inner loop, from a place on: writes the entry after each place from the
one before it and from the row of the last round. -/
def writeRow (x : α) (last : List Nat) : List α → Nat → List Nat → Option (List Nat)
  | [], _, row => some row
  | y :: b, place, row => do
    let left ← row[place]?
    let up ← last[place + 1]?
    let diagonal ← last[place]?
    let cost := if x = y then 0 else 1
    let row ← writeEntry row (place + 1) (min (min (left + 1) (up + 1)) (diagonal + cost))
    writeRow x last b (place + 1) row

/-- The row of the last round, and the one that is written next. -/
structure TwoRows where
  last : List Nat
  next : List Nat

namespace TwoRows

/-- One round of the outer loop, after which the rows change roles. -/
def round (rows : TwoRows) (b : List α) (count : Nat) (x : α) : Option TwoRows := do
  let row ← writeEntry rows.next 0 (count + 1)
  let row ← writeRow x rows.last b 0 row
  return ⟨row, rows.last⟩

/-- The outer loop, after a number of rounds. -/
def rounds (b : List α) : List α → Nat → TwoRows → Option TwoRows
  | [], _, rows => some rows
  | x :: a, count, rows => do
    let rows ← rows.round b count x
    rounds b a (count + 1) rows

end TwoRows

/-- The edit distance in two rows. -/
def twoRowDistance? (a b : List α) : Option Nat :=
  if a = [] then some b.length
  else if b = [] then some a.length
  else do
    let rows ← TwoRows.rounds b a 0
      ⟨List.range (b.length + 1), List.replicate (b.length + 1) 0⟩
    rows.last[b.length]?

theorem writeEntry_of_lt {row : List Nat} {place : Nat} (h : place < row.length) (entry : Nat) :
    writeEntry row place entry = some (row.set place entry) :=
  if_pos h

theorem length_sweepRow (x : α) :
    ∀ {b : List α} {left diagonal : Nat} {above : List Nat}, above.length = b.length →
      (sweepRow x b left diagonal above).length = b.length
  | [], _, _, _, _ => rfl
  | _ :: b, _, _, up :: above, h => by
    have habove : above.length = b.length := Nat.succ.inj h
    rw [sweepRow, List.length_cons, List.length_cons, length_sweepRow x habove]

/-- **The inner loop** leaves alone what is written, and puts the rest of the
next row in the place of what is old. -/
theorem writeRow_eq (x : α) :
    ∀ {b : List α} {left diagonal : Nat} {before written above old : List Nat},
      written.length = before.length → above.length = b.length → old.length = b.length →
        writeRow x (before ++ diagonal :: above) b before.length (written ++ left :: old) =
          some (written ++ left :: sweepRow x b left diagonal above)
  | [], left, _, _, written, _, old, _, _, hold => by
    rw [List.length_eq_zero_iff.1 hold]
    rfl
  | y :: b, left, diagonal, before, written, up :: above, stale :: old, hwritten, habove, hold => by
    have hleft : (written ++ left :: stale :: old)[before.length]? = some left := by
      simp [← hwritten]
    have hup : (before ++ diagonal :: up :: above)[before.length + 1]? = some up := by simp
    have hdiagonal : (before ++ diagonal :: up :: above)[before.length]? = some diagonal := by simp
    have hplace : before.length + 1 < (written ++ left :: stale :: old).length := by
      simp [hwritten]
    -- all that is read is new or of the last round: `stale` stands behind the place
    rw [writeRow, hleft, hup, hdiagonal, sweepRow]
    simp only [Option.bind_eq_bind, Option.bind_some, writeEntry_of_lt hplace]
    generalize min (min (left + 1) (up + 1)) (diagonal + if x = y then 0 else 1) = entry
    have hset : (written ++ left :: stale :: old).set (before.length + 1) entry =
        (written ++ [left]) ++ entry :: old := by
      simp [← hwritten]
    have hlength : (written ++ [left]).length = (before ++ [diagonal]).length := by
      simp [hwritten]
    have ih : writeRow x ((before ++ [diagonal]) ++ up :: above) b (before ++ [diagonal]).length
        ((written ++ [left]) ++ entry :: old) =
          some ((written ++ [left]) ++ entry :: sweepRow x b entry up above) :=
      writeRow_eq x hlength (Nat.succ.inj habove) (Nat.succ.inj hold)
    rw [hset]
    simpa using ih

namespace TwoRows

/-- The first row is a row with `count` as its first entry, and the second has
as many places. -/
structure Holds (rows : TwoRows) (b : List α) (count : Nat) (above : List Nat) : Prop where
  last_eq : rows.last = count :: above
  length_above : above.length = b.length
  length_next : rows.next.length = b.length + 1

variable {rows : TwoRows} {b : List α} {count : Nat} {above : List Nat}

/-- **A round makes the row of one more element.** -/
theorem Holds.round (h : rows.Holds b count above) (x : α) :
    ∃ rows', rows.round b count x = some rows' ∧ rows'.last = nextRow b rows.last x ∧
      rows'.Holds b (count + 1) (sweepRow x b (count + 1) count above) := by
  obtain ⟨last, next⟩ := rows
  obtain ⟨rfl, habove, hnext⟩ := h
  cases next with
  | nil => cases hnext
  | cons stale old =>
    have hold : old.length = b.length := Nat.succ.inj hnext
    have hrow : writeRow x ([] ++ count :: above) b ([] : List Nat).length
        ([] ++ (count + 1) :: old) =
          some ([] ++ (count + 1) :: sweepRow x b (count + 1) count above) :=
      writeRow_eq x rfl habove hold
    refine ⟨⟨(count + 1) :: sweepRow x b (count + 1) count above, count :: above⟩, ?_, rfl,
      rfl, length_sweepRow x habove, congrArg Nat.succ habove⟩
    have hfirst : writeEntry (stale :: old) 0 (count + 1) = some ([] ++ (count + 1) :: old) :=
      writeEntry_of_lt (Nat.succ_pos _) _
    rw [TwoRows.round, hfirst]
    simp only [Option.bind_eq_bind, Option.bind_some]
    exact congrArg (Option.bind · _) hrow

/-- **The rounds make the rows one after the other.** -/
theorem Holds.rounds (a : List α) (h : rows.Holds b count above) :
    ∃ rows' above', TwoRows.rounds b a count rows = some rows' ∧
      rows'.last = a.foldl (nextRow b) rows.last ∧ rows'.Holds b (count + a.length) above' := by
  induction a generalizing rows count above with
  | nil => exact ⟨rows, above, rfl, rfl, h⟩
  | cons x a ih =>
    obtain ⟨rows₁, hround, hlast₁, h₁⟩ := h.round x
    obtain ⟨rows₂, above₂, hrounds, hlast₂, h₂⟩ := ih h₁
    refine ⟨rows₂, above₂, ?_, ?_, ?_⟩
    · rw [TwoRows.rounds, hround]
      exact hrounds
    · rw [hlast₂, hlast₁, List.foldl_cons]
    · rwa [List.length_cons, Nat.add_comm a.length 1, ← Nat.add_assoc]

end TwoRows

/-- **Two rows are enough.** No place outside them is touched, and what is left
over in them does not show. -/
theorem twoRowDistance?_eq (a b : List α) : twoRowDistance? a b = some (editDistance a b) := by
  unfold twoRowDistance?
  split
  · rename_i ha
    subst ha
    rw [Aligned.nil_left_iff.1 (leastCost_editDistance [] b).1]
  split
  · rename_i hb
    subst hb
    rw [Aligned.nil_right_iff.1 (leastCost_editDistance a []).1]
  have hstart : TwoRows.Holds ⟨List.range (b.length + 1), List.replicate (b.length + 1) 0⟩ b 0
      (List.range' 1 b.length) :=
    { last_eq := by rw [List.range_eq_range', List.range'_succ]
      length_above := List.length_range'
      length_next := List.length_replicate }
  obtain ⟨rows, above, hrounds, hlast, hholds⟩ := hstart.rounds a
  have hdistance : editDistance a b = rows.last.getLastD 0 := by rw [hlast]; rfl
  have hentry : rows.last[b.length]? = some (rows.last.getLastD 0) := by
    rw [hholds.last_eq, ← hholds.length_above, List.getLastD_eq_getLast?,
      List.getLast?_eq_getElem?]
    simp
  rw [hrounds, hdistance]
  exact hentry

/-- **The distance of two texts is the least number of edits** of single
characters, in any places and any order, that lead from one to the other. Two
rows that are written in turn come to the same number. -/
theorem textDistance_isLeast_edits (a b : String) :
    IsLeast {n | Edits a.toList b.toList n} (textDistance a b) ∧
      twoRowDistance? a.toList b.toList = some (textDistance a b) :=
  ⟨editDistance_isLeast a.toList b.toList, twoRowDistance?_eq a.toList b.toList⟩

/-! Three edits lead from one word to the other, and no fewer. -/

example : twoRowDistance? "kitten".toList "sitting".toList = some 3 := by decide

end ModulePolicy
