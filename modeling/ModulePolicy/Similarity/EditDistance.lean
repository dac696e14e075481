/-
# Edit distance

The distance of two lists is the least number of single insertions, deletions
and substitutions that lead from one to the other (`Edits` counts the edits of
one way there). It is computed row by row: the row of a list `a` against `b`
holds the distance of `a` to every start of `b`, and one more element of `a`
turns it into the next row.
-/

namespace ModulePolicy

/-- `Edits a b n`: there is a way from `a` to `b` with `n` edits. -/
inductive Edits {α : Type} : List α → List α → Nat → Prop
  | refl (a : List α) : Edits a a 0
  | insert {a u v : List α} {x : α} {n : Nat} : Edits a (u ++ v) n → Edits a (u ++ x :: v) (n + 1)
  | delete {a u v : List α} {x : α} {n : Nat} : Edits a (u ++ x :: v) n → Edits a (u ++ v) (n + 1)
  | substitute {a u v : List α} {x y : α} {n : Nat} :
      Edits a (u ++ x :: v) n → Edits a (u ++ y :: v) (n + 1)

section

variable {α : Type} [DecidableEq α]

/-- The rest of the next row. `left` is the entry just found, `diagonal` the
entry of the last row above it, and `above` the last row from there on. -/
def sweepRow (x : α) : (b : List α) → (left diagonal : Nat) → (above : List Nat) → List Nat
  | y :: b, left, diagonal, up :: above =>
    let cost := if x = y then 0 else 1
    let entry := min (min (left + 1) (up + 1)) (diagonal + cost)
    entry :: sweepRow x b entry up above
  | _, _, _, _ => []

/-- The row of a list with `x` added at its end. -/
def nextRow (b : List α) (row : List Nat) (x : α) : List Nat :=
  match row with
  | first :: above => (first + 1) :: sweepRow x b (first + 1) first above
  | [] => []

/-- The row of `a` against `b`. -/
def distanceRow (a b : List α) : List Nat :=
  a.foldl (nextRow b) (List.range (b.length + 1))

/-- The edit distance of two lists. -/
def editDistance (a b : List α) : Nat := (distanceRow a b).getLastD 0

end

/-- The edit distance of two texts, in characters. -/
def textDistance (a b : String) : Nat := editDistance a.toList b.toList

end ModulePolicy
