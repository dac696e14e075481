/-
# Alignments

A way from one list to another may touch the same place many times and in any
order. An alignment goes through both lists once, from the left: each element of
either list is inserted, deleted, or set against one of the other list, at no
cost if the two are the same. Alignments are as good as any other way:

* an alignment is a way with as many edits as it costs (`Aligned.edits`);
* one more edit of the second list costs an alignment at most one more, since it
  can be cut at the place of the edit (`Aligned.exists_split`), so every way has
  an alignment that costs no more than its edits (`Edits.exists_aligned`).

The last column of an alignment is one of three (`Aligned.concat_cases`), and the
cheapest alignment of two longer lists is the cheapest of three
(`LeastCost.concat`).
-/

import Mathlib.Order.Bounds.Defs
import Mathlib.Order.MinMax
import ModulePolicy.Similarity.EditDistance

namespace ModulePolicy

variable {α : Type}

namespace Edits

variable {a b c : List α} {m n : Nat}

theorem trans (h : Edits a b m) (h' : Edits b c n) : Edits a c (m + n) := by
  induction h' with
  | refl => exact h
  | insert _ ih => exact .insert ih
  | delete _ ih => exact .delete ih
  | substitute _ ih => exact .substitute ih

theorem cons (x : α) (h : Edits a b n) : Edits (x :: a) (x :: b) n := by
  induction h with
  | refl => exact .refl (x :: a)
  | insert _ ih => exact .insert (u := x :: _) ih
  | delete _ ih => exact .delete (u := x :: _) ih
  | substitute _ ih => exact .substitute (u := x :: _) ih

end Edits

section

variable [DecidableEq α]

/-- What it costs to set an element against another. -/
def mismatch (x y : α) : Nat := if x = y then 0 else 1

theorem mismatch_self (x : α) : mismatch x x = 0 := if_pos rfl

theorem mismatch_comm (x y : α) : mismatch x y = mismatch y x := by
  simp only [mismatch, eq_comm]

theorem mismatch_le_one (x y : α) : mismatch x y ≤ 1 := by
  unfold mismatch
  split <;> omega

/-- Alignments of two lists by their cost. -/
inductive Aligned : List α → List α → Nat → Prop
  | nil : Aligned [] [] 0
  | insert {a b : List α} {n : Nat} (y : α) : Aligned a b n → Aligned a (y :: b) (n + 1)
  | delete {a b : List α} {n : Nat} (x : α) : Aligned a b n → Aligned (x :: a) b (n + 1)
  | replace {a b : List α} {n : Nat} (x y : α) :
      Aligned a b n → Aligned (x :: a) (y :: b) (n + mismatch x y)

namespace Aligned

variable {a b a' b' u v : List α} {m n : Nat} {x y : α}

theorem refl : ∀ a : List α, Aligned a a 0
  | [] => .nil
  | x :: a => by
    have h := (refl a).replace x x
    rwa [mismatch_self] at h

/-- An alignment that costs nothing sets every element against itself. -/
theorem eq_of_zero (h : Aligned a b 0) : a = b := by
  generalize hn : 0 = n at h
  induction h with
  | nil => rfl
  | insert y _ _ => omega
  | delete x _ _ => omega
  | @replace a b n x y _ ih =>
    unfold mismatch at hn
    split at hn
    · next hxy => rw [hxy, ih hn]
    · omega

theorem append (h : Aligned a b m) (h' : Aligned a' b' n) :
    Aligned (a ++ a') (b ++ b') (m + n) := by
  induction h with
  | nil => rwa [Nat.zero_add]
  | insert y _ ih =>
    rw [Nat.add_right_comm]
    exact ih.insert y
  | delete x _ ih =>
    rw [Nat.add_right_comm]
    exact ih.delete x
  | replace x y _ ih =>
    rw [Nat.add_right_comm]
    exact ih.replace x y

theorem reverse (h : Aligned a b n) : Aligned a.reverse b.reverse n := by
  induction h with
  | nil => exact .nil
  | insert y _ ih =>
    have hlast : Aligned [] [y] 1 := .insert y .nil
    simpa using ih.append hlast
  | delete x _ ih =>
    have hlast : Aligned [x] [] 1 := .delete x .nil
    simpa using ih.append hlast
  | replace x y _ ih =>
    have hlast : Aligned [x] [y] (0 + mismatch x y) := .replace x y .nil
    simpa using ih.append hlast

/-- Read from the other list, insertions are deletions. -/
theorem symm (h : Aligned a b n) : Aligned b a n := by
  induction h with
  | nil => exact .nil
  | insert y _ ih => exact ih.delete y
  | delete x _ ih => exact ih.insert x
  | replace x y _ ih =>
    rw [mismatch_comm]
    exact ih.replace y x

/-- **An alignment can be cut** at any place of the second list. -/
theorem exists_split (h : Aligned a (u ++ v) n) :
    ∃ a₁ a₂ m₁ m₂, a = a₁ ++ a₂ ∧ n = m₁ + m₂ ∧ Aligned a₁ u m₁ ∧ Aligned a₂ v m₂ := by
  generalize hb : u ++ v = b at h
  -- the first column that takes an element of `v` opens the second part, so a
  -- deletion always goes with what is before it
  induction h generalizing u with
  | nil =>
    obtain ⟨rfl, rfl⟩ := List.append_eq_nil_iff.1 hb
    exact ⟨[], [], 0, 0, rfl, rfl, .nil, .nil⟩
  | @insert a b n y h ih =>
    cases u with
    | nil =>
      obtain rfl : v = y :: b := hb
      exact ⟨[], a, 0, n + 1, rfl, by omega, .nil, h.insert y⟩
    | cons z u =>
      obtain ⟨rfl, rfl⟩ := List.cons.inj hb
      obtain ⟨a₁, a₂, m₁, m₂, rfl, rfl, h₁, h₂⟩ := ih rfl
      exact ⟨a₁, a₂, m₁ + 1, m₂, rfl, by omega, h₁.insert z, h₂⟩
  | @delete a b n x h ih =>
    obtain ⟨a₁, a₂, m₁, m₂, rfl, rfl, h₁, h₂⟩ := ih hb
    exact ⟨x :: a₁, a₂, m₁ + 1, m₂, rfl, by omega, h₁.delete x, h₂⟩
  | @replace a b n x y h ih =>
    cases u with
    | nil =>
      obtain rfl : v = y :: b := hb
      exact ⟨[], x :: a, 0, n + mismatch x y, rfl, by omega, .nil, h.replace x y⟩
    | cons z u =>
      obtain ⟨rfl, rfl⟩ := List.cons.inj hb
      obtain ⟨a₁, a₂, m₁, m₂, rfl, rfl, h₁, h₂⟩ := ih rfl
      exact ⟨x :: a₁, a₂, m₁ + mismatch x z, m₂, rfl, by omega, h₁.replace x z, h₂⟩

theorem length_le (h : Aligned a b n) : a.length ≤ b.length + n := by
  induction h with
  | nil => exact Nat.zero_le _
  | insert _ _ ih =>
    rw [List.length_cons]
    omega
  | delete _ _ ih =>
    rw [List.length_cons]
    omega
  | replace _ _ _ ih =>
    rw [List.length_cons, List.length_cons]
    omega

theorem nil_left_iff : Aligned [] b n ↔ n = b.length := by
  induction b generalizing n with
  | nil =>
    constructor
    · rintro ⟨⟩
      rfl
    · rintro rfl
      exact .nil
  | cons y b ih =>
    constructor
    · intro h
      cases h with
      | insert _ h => rw [ih.1 h, List.length_cons]
    · rintro rfl
      exact (ih.2 rfl).insert y

theorem nil_right_iff : Aligned a [] n ↔ n = a.length :=
  ⟨fun h => nil_left_iff.1 h.symm, fun h => (nil_left_iff.2 h).symm⟩

/-- Setting the lists against each other place by place costs no more than the
longer one has elements. -/
theorem exists_le : ∀ a b : List α, ∃ n ≤ max a.length b.length, Aligned a b n
  | [], b => ⟨b.length, Nat.le_max_right 0 _, nil_left_iff.2 rfl⟩
  | x :: a, [] => ⟨(x :: a).length, Nat.le_max_left _ 0, nil_right_iff.2 rfl⟩
  | x :: a, y :: b => by
    obtain ⟨n, hn, h⟩ := exists_le a b
    have hcost := mismatch_le_one x y
    refine ⟨n + mismatch x y, ?_, h.replace x y⟩
    rw [List.length_cons, List.length_cons]
    omega

/-! ### One more edit of the second list

The edited element stands against a piece of the first list, and only this piece
has to be aligned anew. -/

theorem exists_delete (h : Aligned a [x] n) : ∃ m ≤ n + 1, Aligned a [] m := by
  have hlength : a.length ≤ 1 + n := h.length_le
  exact ⟨a.length, by omega, nil_right_iff.2 rfl⟩

theorem exists_replace (y : α) (h : Aligned a [x] n) : ∃ m ≤ n + 1, Aligned a [y] m := by
  cases a with
  | nil => exact ⟨1, by omega, .insert y .nil⟩
  | cons z a =>
    have hlength : a.length + 1 ≤ 1 + n := h.length_le
    have hcost := mismatch_le_one z y
    exact ⟨a.length + mismatch z y, by omega, (nil_right_iff.2 rfl).replace z y⟩

theorem exists_of_edit {t : List α} (h : Aligned a (u ++ x :: v) n)
    (ht : ∀ {a : List α} {k : Nat}, Aligned a [x] k → ∃ m ≤ k + 1, Aligned a t m) :
    ∃ m ≤ n + 1, Aligned a (u ++ (t ++ v)) m := by
  obtain ⟨a₁, _, m₁, _, rfl, rfl, h₁, hrest⟩ := h.exists_split
  obtain ⟨a₂, a₃, m₂, m₃, rfl, rfl, h₂, h₃⟩ := exists_split (u := [x]) hrest
  obtain ⟨m, hm, h₂⟩ := ht h₂
  exact ⟨m₁ + (m + m₃), by omega, h₁.append (h₂.append h₃)⟩

end Aligned

/-- **Every way has an alignment** that costs no more than its edits. -/
theorem Edits.exists_aligned {a b : List α} {n : Nat} (h : Edits a b n) :
    ∃ m ≤ n, Aligned a b m := by
  -- on the way: its last edit is worked into the alignment of what came before
  induction h with
  | refl => exact ⟨0, le_rfl, .refl a⟩
  | @insert u v x n _ ih =>
    obtain ⟨_, hm, h⟩ := ih
    obtain ⟨a₁, a₂, m₁, m₂, rfl, rfl, h₁, h₂⟩ := h.exists_split
    exact ⟨m₁ + (m₂ + 1), by omega, h₁.append (h₂.insert x)⟩
  | @delete u v x n _ ih =>
    obtain ⟨k, hk, h⟩ := ih
    obtain ⟨m, hm, h⟩ := h.exists_of_edit Aligned.exists_delete
    exact ⟨m, by omega, h⟩
  | @substitute u v x y n _ ih =>
    obtain ⟨k, hk, h⟩ := ih
    obtain ⟨m, hm, h⟩ := h.exists_of_edit (Aligned.exists_replace y)
    exact ⟨m, by omega, h⟩

/-- **An alignment is a way** with as many edits as it costs. -/
theorem Aligned.edits {a b : List α} {n : Nat} (h : Aligned a b n) : Edits a b n := by
  induction h with
  | nil => exact .refl []
  | insert y _ ih => exact .insert (u := []) ih
  | @delete a b n x _ ih =>
    have hdelete : Edits (x :: a) a 1 := .delete (u := []) (.refl (x :: a))
    rw [Nat.add_comm]
    exact hdelete.trans ih
  | replace x y _ ih =>
    by_cases hxy : x = y
    · subst hxy
      rw [mismatch_self]
      exact ih.cons x
    · rw [mismatch, if_neg hxy]
      exact .substitute (u := []) (ih.cons x)

/-- **The last column of an alignment** is an insertion, a deletion or a pair. -/
theorem Aligned.concat_cases {a b : List α} {x y : α} {n : Nat}
    (h : Aligned (a ++ [x]) (b ++ [y]) n) :
    (∃ m, Aligned (a ++ [x]) b m ∧ n = m + 1) ∨ (∃ m, Aligned a (b ++ [y]) m ∧ n = m + 1) ∨
      ∃ m, Aligned a b m ∧ n = m + mismatch x y := by
  have hreverse : Aligned (x :: a.reverse) (y :: b.reverse) n := by simpa using h.reverse
  cases hreverse with
  | insert _ hrest => exact .inl ⟨_, by simpa using hrest.reverse, rfl⟩
  | delete _ hrest => exact .inr (.inl ⟨_, by simpa using hrest.reverse, rfl⟩)
  | replace _ _ hrest => exact .inr (.inr ⟨_, by simpa using hrest.reverse, rfl⟩)

/-! ### Cheapest alignments -/

/-- The cost of a cheapest alignment. -/
def LeastCost (a b : List α) (d : Nat) : Prop := IsLeast {n | Aligned a b n} d

namespace LeastCost

variable {a b : List α} {l u d : Nat} {x y : α}

/-- **A cheapest alignment is a shortest way.** -/
theorem isLeast_edits (h : LeastCost a b d) : IsLeast {n | Edits a b n} d := by
  refine ⟨h.1.edits, fun n hn => ?_⟩
  obtain ⟨m, hm, haligned⟩ := Edits.exists_aligned hn
  exact Nat.le_trans (h.2 haligned) hm

theorem nil_left (b : List α) : LeastCost [] b b.length :=
  ⟨Aligned.nil_left_iff.2 rfl, fun _ h => (Aligned.nil_left_iff.1 h).ge⟩

theorem nil_right (a : List α) : LeastCost a [] a.length :=
  ⟨Aligned.nil_right_iff.2 rfl, fun _ h => (Aligned.nil_right_iff.1 h).ge⟩

/-- **The cheapest alignment of two lists** that are one element longer ends in
the cheapest of the three columns. -/
theorem concat (hl : LeastCost (a ++ [x]) b l) (hu : LeastCost a (b ++ [y]) u)
    (hd : LeastCost a b d) :
    LeastCost (a ++ [x]) (b ++ [y]) (min (min (l + 1) (u + 1)) (d + mismatch x y)) := by
  have hinsert : Aligned (a ++ [x]) (b ++ [y]) (l + 1) := by
    simpa using hl.1.append (.insert y .nil)
  have hdelete : Aligned (a ++ [x]) (b ++ [y]) (u + 1) := by
    simpa using hu.1.append (.delete x .nil)
  have hreplace : Aligned (a ++ [x]) (b ++ [y]) (d + mismatch x y) := by
    simpa using hd.1.append (.replace x y .nil)
  constructor
  · rcases min_choice (min (l + 1) (u + 1)) (d + mismatch x y) with h | h
    · rcases min_choice (l + 1) (u + 1) with h' | h'
      · rwa [h, h']
      · rwa [h, h']
    · rwa [h]
  · intro n hn
    rcases Aligned.concat_cases hn with ⟨m, hm, rfl⟩ | ⟨m, hm, rfl⟩ | ⟨m, hm, rfl⟩
    · have hle : l ≤ m := hl.2 hm
      omega
    · have hle : u ≤ m := hu.2 hm
      omega
    · have hle : d ≤ m := hd.2 hm
      omega

end LeastCost

end

end ModulePolicy
