/-
# The order of binary64 numbers

Numbers compare as their ranks do, and not-a-number has no rank, so it stands in
no relation. Between `0` and `1` a clamped number is the number itself, and
clamping reaches `1` only from there on up (`one_le_clampToUnit_iff`).
-/

import ModulePolicy.Number.Binary64

namespace ModulePolicy

namespace Magnitude

variable (x y : Magnitude)

theorem max_eq : x.max y = x ∨ x.max y = y := by
  unfold Magnitude.max
  split
  · exact .inr rfl
  · exact .inl rfl

theorem code_le_max_left : x.code ≤ (x.max y).code := by
  unfold Magnitude.max
  split
  · assumption
  · exact Nat.le_refl _

theorem code_le_max_right : y.code ≤ (x.max y).code := by
  unfold Magnitude.max
  split
  · exact Nat.le_refl _
  · exact Nat.le_of_not_le ‹_›

end Magnitude

namespace Binary64

variable {x y z : Binary64}

theorem le_iff : x.le y ↔ ∃ i j, x.rank? = some i ∧ y.rank? = some j ∧ i ≤ j := by
  unfold le
  cases x.rank? <;> cases y.rank? <;> simp

theorem lt_iff : x.lt y ↔ ∃ i j, x.rank? = some i ∧ y.rank? = some j ∧ i < j := by
  unfold lt
  cases x.rank? <;> cases y.rank? <;> simp

theorem le_trans (hxy : x.le y) (hyz : y.le z) : x.le z := by
  obtain ⟨i, j, hi, hj, hij⟩ := le_iff.1 hxy
  obtain ⟨j', k, hj', hk, hjk⟩ := le_iff.1 hyz
  obtain rfl := Option.some.inj (hj.symm.trans hj')
  exact le_iff.2 ⟨i, k, hi, hk, Int.le_trans hij hjk⟩

theorem le_of_lt (h : x.lt y) : x.le y := by
  obtain ⟨i, j, hi, hj, hij⟩ := lt_iff.1 h
  exact le_iff.2 ⟨i, j, hi, hj, Int.le_of_lt hij⟩

theorem not_lt_of_le (h : x.le y) : ¬ y.lt x := by
  intro hlt
  obtain ⟨i, j, hi, hj, hij⟩ := le_iff.1 h
  obtain ⟨j', i', hj', hi', hji⟩ := lt_iff.1 hlt
  obtain rfl := Option.some.inj (hi.symm.trans hi')
  obtain rfl := Option.some.inj (hj.symm.trans hj')
  omega

theorem ofMagnitude_le_iff {m n : Magnitude} :
    (ofMagnitude m).le (ofMagnitude n) ↔ m.code ≤ n.code := by
  simp [le, ofMagnitude, rank?]

theorem ofMagnitude_lt_iff {m n : Magnitude} :
    (ofMagnitude m).lt (ofMagnitude n) ↔ m.code < n.code := by
  simp [lt, ofMagnitude, rank?]

/-- No magnitude lies below either zero. -/
theorem le_ofMagnitude_of_numericallyEq_zero (h : x.numericallyEq zero) (m : Magnitude) :
    x.le (ofMagnitude m) := by
  unfold numericallyEq at h
  split at h
  · rename_i i j hi hj
    obtain rfl : (0 : Int) = j := Option.some.inj hj
    obtain rfl := of_decide_eq_true h
    exact le_iff.2 ⟨0, m.code, hi, rfl, Int.natCast_nonneg _⟩
  · cases h

/-- Of the numbers from `1` on only `1` is not above `1`. -/
theorem eq_one_of_one_le (h : one.le x) (hnot : ¬ one.lt x) : x = one := by
  obtain ⟨i, j, hi, hj, hij⟩ := le_iff.1 h
  have hji : j ≤ i := Int.not_lt.1 fun hlt => hnot (lt_iff.2 ⟨i, j, hi, hj, hlt⟩)
  obtain rfl : (Magnitude.one.code : Int) = i := Option.some.inj hi
  have hone : 0 < Magnitude.one.code := by decide
  cases x with
  | nan => cases hj
  | signed negative m =>
    cases negative with
    | true =>
      obtain rfl : -(m.code : Int) = j := Option.some.inj hj
      omega
    | false =>
      obtain rfl : (m.code : Int) = j := Option.some.inj hj
      have hcode : m.code = Magnitude.one.code := by omega
      rw [Magnitude.ext hcode]
      rfl

theorem lt_one_or_eq_one_of_le (h : x.le one) : x.lt one ∨ x = one := by
  by_cases hone : one.le x
  · exact .inr (eq_one_of_one_le hone (not_lt_of_le h))
  · obtain ⟨i, j, hi, hj, hij⟩ := le_iff.1 h
    have hlt : i < j := Int.not_le.1 fun hji => hone (le_iff.2 ⟨j, i, hj, hi, hji⟩)
    exact .inl (lt_iff.2 ⟨i, j, hi, hj, hlt⟩)

/-- What becomes of a number that is moved between `0` and `1`: not-a-number
becomes zero, what lies outside the end that is nearer, and all else stays. -/
inductive ClampsTo (x : Binary64) : Binary64 → Prop
  | nan : x = nan → ClampsTo x zero
  | below : x.lt zero → ClampsTo x zero
  | above : one.lt x → ClampsTo x one
  | within : zero.le x → x.le one → ClampsTo x x

theorem clampsTo_clampToUnit (x : Binary64) : x.ClampsTo x.clampToUnit := by
  unfold clampToUnit
  split
  · exact .nan ‹_›
  rename_i hnan
  obtain ⟨i, hi⟩ : ∃ i, x.rank? = some i := by
    cases x with
    | nan => exact absurd rfl hnan
    | signed negative m => cases negative <;> exact ⟨_, rfl⟩
  split
  · exact .below ‹_›
  rename_i hzero
  split
  · exact .above ‹_›
  rename_i hone
  refine .within (le_iff.2 ⟨_, i, rfl, hi, ?_⟩) (le_iff.2 ⟨i, _, hi, rfl, ?_⟩)
  · exact Int.not_lt.1 fun hlt => hzero (lt_iff.2 ⟨i, _, hi, rfl, hlt⟩)
  · exact Int.not_lt.1 fun hlt => hone (lt_iff.2 ⟨_, i, rfl, hi, hlt⟩)

theorem ClampsTo.eq_clampToUnit (h : x.ClampsTo y) : y = x.clampToUnit := by
  unfold clampToUnit
  cases h with
  | nan hnan => rw [if_pos hnan]
  | below hlt => rw [if_pos hlt, ite_self]
  | above hlt =>
    have hnan : x ≠ Binary64.nan := by
      rintro rfl
      cases hlt
    have hzero : ¬ x.lt zero := not_lt_of_le (le_trans (by decide) (le_of_lt hlt))
    rw [if_neg hnan, if_neg hzero, if_pos hlt]
  | within hzero hone =>
    have hnan : x ≠ Binary64.nan := by
      rintro rfl
      cases hone
    rw [if_neg hnan, if_neg (not_lt_of_le hzero), if_neg (not_lt_of_le hone)]

/-- **Clamping** is what `clampToUnit` does. -/
theorem clampsTo_iff : x.ClampsTo y ↔ y = x.clampToUnit :=
  ⟨ClampsTo.eq_clampToUnit, fun h => h ▸ x.clampsTo_clampToUnit⟩

/-- A number is between zero and one, or it is none at all, or it lies outside. -/
theorem not_within_unit_iff : ¬ (zero.le x ∧ x.le one) ↔ x = nan ∨ x.lt zero ∨ one.lt x := by
  constructor
  · intro hnot
    generalize hy : x.clampToUnit = y
    cases clampsTo_iff.2 hy.symm with
    | nan h => exact .inl h
    | below h => exact .inr (.inl h)
    | above h => exact .inr (.inr h)
    | within hzero hone => exact absurd ⟨hzero, hone⟩ hnot
  · rintro (rfl | hzero | hone) ⟨hle, hle'⟩
    · cases hle
    · exact not_lt_of_le hle hzero
    · exact not_lt_of_le hle' hone

theorem numericallyEq_self (h : x ≠ nan) : x.numericallyEq x := by
  cases x with
  | nan => exact absurd rfl h
  | signed negative m => cases negative <;> simp [numericallyEq, rank?]

theorem clampToUnit_of_one_le (h : one.le x) : x.clampToUnit = one := by
  by_cases hlt : one.lt x
  · exact (ClampsTo.above hlt).eq_clampToUnit.symm
  · obtain rfl := eq_one_of_one_le h hlt
    rfl

/-- **A clamped number is a number between zero and one.** -/
theorem zero_le_clampToUnit_le_one (x : Binary64) :
    zero.le x.clampToUnit ∧ x.clampToUnit.le one := by
  generalize hy : x.clampToUnit = y
  cases clampsTo_iff.2 hy.symm with
  | nan _ => decide
  | below _ => decide
  | above _ => decide
  | within hzero hone => exact ⟨hzero, hone⟩

/-- **Clamping reaches one only from one on.** -/
theorem one_le_clampToUnit_iff : one.le x.clampToUnit ↔ one.le x := by
  constructor
  · intro h
    generalize hy : x.clampToUnit = y at h
    cases clampsTo_iff.2 hy.symm with
    | nan _ => cases h
    | below _ => cases h
    | above hlt => exact le_of_lt hlt
    | within _ _ => exact h
  · intro h
    rw [clampToUnit_of_one_le h]
    decide

end Binary64

end ModulePolicy
