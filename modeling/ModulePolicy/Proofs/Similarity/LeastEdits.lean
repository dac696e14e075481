/-
# Rows hold cheapest alignments

The row of `a` against `b` has an entry for each start of `b`, the cost of a
cheapest alignment of `a` with it (`leastCosts_distanceRow`). The first row costs
one insertion for each element, and the entries of the next row are cheapest
since each looks at its three neighbours (`LeastCost.concat`). So the distance of
two lists is the least number of edits that lead from one to the other
(`editDistance_isLeast`), and no distance exceeds the length of the longer text
(`textDistance_le`).
-/

import ModulePolicy.Proofs.Similarity.Alignment

namespace ModulePolicy

variable {α : Type} [DecidableEq α]

/-- The entries of a row against `start` and against `start` with more and more
of `b` behind it. -/
inductive LeastCosts (a : List α) : (start b : List α) → List Nat → Prop
  | last {start : List α} {d : Nat} : LeastCost a start d → LeastCosts a start [] [d]
  | next {start b : List α} {y : α} {d : Nat} {row : List Nat} : LeastCost a start d →
      LeastCosts a (start ++ [y]) b row → LeastCosts a start (y :: b) (d :: row)

namespace LeastCosts

variable {a start b : List α} {d : Nat} {row : List Nat}

theorem head (h : LeastCosts a start b (d :: row)) : LeastCost a start d := by
  cases h with
  | last h => exact h
  | next h _ => exact h

theorem getLastD (h : LeastCosts a start b row) (k : Nat) :
    LeastCost a (start ++ b) (row.getLastD k) := by
  induction h generalizing k with
  | last h => rwa [List.append_nil]
  | @next start b y d row _ _ ih =>
    rw [List.getLastD_cons, List.append_cons]
    exact ih d

/-- **What a sweep finds is cheapest,** if the entry before it and the row above
it are. -/
theorem sweep (x : α) :
    ∀ {b start : List α} {left diagonal : Nat} {above : List Nat},
      LeastCosts a start b (diagonal :: above) → LeastCost (a ++ [x]) start left →
        LeastCosts (a ++ [x]) start b (left :: sweepRow x b left diagonal above)
  | [], _, _, _, _, _, hleft => .last hleft
  | y :: b, start, left, diagonal, above, .next hdiagonal habove, hleft => by
    cases above with
    | nil => cases habove
    | cons up above =>
      have hentry : LeastCost (a ++ [x]) (start ++ [y])
          (min (min (left + 1) (up + 1)) (diagonal + mismatch x y)) :=
        hleft.concat habove.head hdiagonal
      exact .next hleft (habove.sweep x hentry)

theorem nextRow (x : α) (h : LeastCosts a [] b row) :
    LeastCosts (a ++ [x]) [] b (nextRow b row x) := by
  cases row with
  | nil => cases h
  | cons first above =>
    have hlength : first = a.length := Aligned.nil_right_iff.1 h.head.1
    have hfirst : LeastCost (a ++ [x]) [] (first + 1) := by
      simpa [hlength] using LeastCost.nil_right (a ++ [x])
    exact h.sweep x hfirst

theorem foldl_nextRow (c : List α) (h : LeastCosts a [] b row) :
    LeastCosts (a ++ c) [] b (c.foldl (ModulePolicy.nextRow b) row) := by
  induction c generalizing a row with
  | nil => rwa [List.append_nil]
  | cons x c ih =>
    rw [List.foldl_cons, List.append_cons]
    exact ih (h.nextRow x)

/-- The row of nothing counts the elements. -/
theorem range' : ∀ start b : List α,
    LeastCosts [] start b (List.range' start.length (b.length + 1))
  | start, [] => .last (.nil_left start)
  | start, y :: b => by
    have h := range' (start ++ [y]) b
    rw [List.length_append] at h
    exact .next (.nil_left start) h

end LeastCosts

/-- **A row holds cheapest alignments.** -/
theorem leastCosts_distanceRow (a b : List α) : LeastCosts a [] b (distanceRow a b) := by
  have hstart : LeastCosts [] [] b (List.range (b.length + 1)) := by
    rw [List.range_eq_range']
    exact .range' [] b
  exact hstart.foldl_nextRow a

theorem leastCost_editDistance (a b : List α) : LeastCost a b (editDistance a b) :=
  (leastCosts_distanceRow a b).getLastD 0

/-- **The distance of two lists is the least number of edits** that lead from
one to the other. -/
theorem editDistance_isLeast (a b : List α) : IsLeast {n | Edits a b n} (editDistance a b) :=
  (leastCost_editDistance a b).isLeast_edits

theorem editDistance_le (a b : List α) : editDistance a b ≤ max a.length b.length := by
  obtain ⟨n, hn, haligned⟩ := Aligned.exists_le a b
  exact Nat.le_trans ((leastCost_editDistance a b).2 haligned) hn

/-- **Only equal lists need no edits.** -/
theorem editDistance_eq_zero_iff {a b : List α} : editDistance a b = 0 ↔ a = b := by
  obtain ⟨haligned, hleast⟩ := leastCost_editDistance a b
  constructor
  · intro hzero
    rw [hzero] at haligned
    exact haligned.eq_of_zero
  · rintro rfl
    exact Nat.le_zero.1 (hleast (.refl a))

theorem textDistance_eq_zero_iff {a b : String} : textDistance a b = 0 ↔ a = b :=
  editDistance_eq_zero_iff.trans String.toList_inj

/-- **An edit distance does not exceed the longer length.** -/
theorem textDistance_le (a b : String) : textDistance a b ≤ max a.length b.length :=
  editDistance_le a.toList b.toList

end ModulePolicy
