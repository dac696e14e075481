/-
# Rounding keeps the order

A quotient is rounded in two parts, the exponent of the step between neighbours
at its place and the rounded count of such steps. The count stays between `2^52`
and `2^53`, below `2^52` only where steps are smallest, so the code that the two
make up grows with the quotient even where the step changes (`ofRatio_mono`).

A quotient of a magnitude by one that is no less is therefore at most one
(`div_ofNat_le_one`), and nothing is cut off when it is taken from one.
-/

import Mathlib.Data.Nat.Log
import ModulePolicy.Number.Magnitude

namespace ModulePolicy

section RoundHalfEven

variable {m n d : Nat}

theorem div_le_roundHalfEven (n d : Nat) : n / d ≤ roundHalfEven n d := by
  simp only [roundHalfEven]
  split
  · exact Nat.le_refl _
  · split <;> omega

theorem roundHalfEven_le_div_succ (n d : Nat) : roundHalfEven n d ≤ n / d + 1 := by
  simp only [roundHalfEven]
  split
  · omega
  · split <;> omega

theorem roundHalfEven_mono (d : Nat) (h : m ≤ n) : roundHalfEven m d ≤ roundHalfEven n d := by
  rcases Nat.lt_or_eq_of_le (Nat.div_le_div_right (c := d) h) with hlt | heq
  · exact (roundHalfEven_le_div_succ m d).trans (hlt.trans_le (div_le_roundHalfEven n d))
  · have hm := Nat.div_add_mod m d
    have hn := Nat.div_add_mod n d
    rw [heq] at hm
    have hmod : m % d ≤ n % d := by omega
    simp only [roundHalfEven, heq]
    split
    · exact div_le_roundHalfEven n d
    · split
      · rw [if_neg (by omega), if_pos (by omega)]
      · rw [if_neg (by omega)]
        split <;> omega

theorem roundHalfEven_mul (hd : 0 < d) (m : Nat) : roundHalfEven (d * m) d = m := by
  simp only [roundHalfEven, Nat.mul_div_cancel_left m hd, Nat.mul_mod_right, Nat.mul_zero, if_pos hd]

/-- Rounding does not pass a whole number. -/
theorem roundHalfEven_le_of_le_mul (hd : 0 < d) (h : n ≤ d * m) : roundHalfEven n d ≤ m :=
  (roundHalfEven_mono d h).trans_eq (roundHalfEven_mul hd m)

end RoundHalfEven

namespace Magnitude

theorem ofCode_mono {c c' : Nat} (h : c ≤ c') : (ofCode c).code ≤ (ofCode c').code := by
  simp only [ofCode]
  omega

theorem shiftLeft_pos {d : Nat} (hd : 0 < d) (k : Nat) : 0 < d <<< k := by
  rw [Nat.shiftLeft_eq]
  exact Nat.mul_pos hd (Nat.two_pow_pos k)

theorem shiftLeft_eq_mul (d k : Nat) : d <<< k = d * 1 <<< k := by
  rw [Nat.shiftLeft_eq, Nat.one_shiftLeft]

theorem unitsPerOne_pos : 0 < unitsPerOne := shiftLeft_pos Nat.one_pos 1074

/-- The step between neighbours at the place of `n / d` is `2` to this power. -/
def stepExponent (n d : Nat) : Nat := Nat.log2 (n * unitsPerOne / d) - 52

/-- The rounded count of steps in `n / d`. -/
def steps (n d : Nat) : Nat := roundHalfEven (n * unitsPerOne) (d <<< stepExponent n d)

theorem ofRatio_eq (n d : Nat) :
    ofRatio n d = ofCode (steps n d + stepExponent n d * 0x10000000000000) := rfl

section OfRatio

variable {m n d : Nat}

theorem stepExponent_mono (d : Nat) (h : m ≤ n) : stepExponent m d ≤ stepExponent n d := by
  have hquotient : m * unitsPerOne / d ≤ n * unitsPerOne / d :=
    Nat.div_le_div_right (Nat.mul_le_mul_right _ h)
  have hlog := Nat.log_mono_right (b := 2) hquotient
  rw [← Nat.log2_eq_log_two, ← Nat.log2_eq_log_two] at hlog
  exact Nat.sub_le_sub_right hlog 52

variable (hd : 0 < d)

include hd

/-- There are never more than `2^53` steps. -/
theorem steps_le (n : Nat) : steps n d ≤ 0x20000000000000 := by
  have hlog : n * unitsPerOne / d < 2 ^ (Nat.log2 (n * unitsPerOne / d) + 1) := Nat.lt_log2_self
  have hpow : 2 ^ (Nat.log2 (n * unitsPerOne / d) + 1) ≤ 2 ^ (stepExponent n d + 53) :=
    Nat.pow_le_pow_right Nat.two_pos (by unfold stepExponent; omega)
  refine roundHalfEven_le_of_le_mul (shiftLeft_pos hd _) ?_
  calc n * unitsPerOne
      ≤ 2 ^ (stepExponent n d + 53) * d :=
        ((Nat.div_lt_iff_lt_mul hd).1 (hlog.trans_le hpow)).le
    _ = d <<< stepExponent n d * 2 ^ 53 := by
        rw [Nat.shiftLeft_eq, Nat.mul_assoc, ← Nat.pow_add, Nat.mul_comm]

/-- Where steps are not the smallest there are at least `2^52` of them. -/
theorem le_steps (h : 0 < stepExponent n d) : 0x10000000000000 ≤ steps n d := by
  have hlog : stepExponent n d + 52 = Nat.log2 (n * unitsPerOne / d) := by
    unfold stepExponent at h ⊢
    omega
  have hne : n * unitsPerOne / d ≠ 0 := by
    intro hzero
    rw [hzero, Nat.log2_zero] at hlog
    omega
  have hpow : 2 ^ (stepExponent n d + 52) ≤ n * unitsPerOne / d := (Nat.le_log2 hne).1 hlog.le
  refine ((Nat.le_div_iff_mul_le (shiftLeft_pos hd _)).2 ?_).trans (div_le_roundHalfEven _ _)
  calc 2 ^ 52 * d <<< stepExponent n d
      = 2 ^ (stepExponent n d + 52) * d := by
        rw [Nat.shiftLeft_eq, Nat.mul_comm, Nat.mul_assoc, ← Nat.pow_add, Nat.mul_comm]
    _ ≤ n * unitsPerOne := (Nat.le_div_iff_mul_le hd).1 hpow

/-- **Rounding a quotient keeps the order.** -/
theorem ofRatio_mono (h : m ≤ n) : (ofRatio m d).code ≤ (ofRatio n d).code := by
  rw [ofRatio_eq, ofRatio_eq]
  refine ofCode_mono ?_
  rcases Nat.lt_or_eq_of_le (stepExponent_mono d h) with hlt | heq
  · -- the greater quotient has a greater step, and enough steps to make up for it
    have hm := steps_le hd m
    have hn := le_steps (n := n) hd (by omega)
    omega
  · have hsteps : steps m d ≤ steps n d := by
      unfold steps
      rw [heq]
      exact roundHalfEven_mono _ (Nat.mul_le_mul_right _ h)
    rw [heq]
    omega

/-- At one there are `2^52` steps of `2^1022` units. -/
theorem ofRatio_self : ofRatio d d = one := by
  have hlog : Nat.log2 unitsPerOne = 1074 := by decide +kernel
  have hexponent : stepExponent d d = 1022 := by
    rw [stepExponent, Nat.mul_div_cancel_left _ hd, hlog]
  have hunits : unitsPerOne = 1 <<< 1022 * 0x10000000000000 := rfl
  have hsteps : steps d d = 0x10000000000000 := by
    rw [steps, hexponent, hunits, ← Nat.mul_assoc, ← shiftLeft_eq_mul]
    exact roundHalfEven_mul (shiftLeft_pos hd 1022) _
  rw [ofRatio_eq, hsteps, hexponent]
  rfl

/-- **A quotient of a number by one that is no less** is at most one. -/
theorem ofRatio_le_one (h : n ≤ d) : (ofRatio n d).code ≤ one.code :=
  (ofRatio_mono hd h).trans_eq (congrArg code (ofRatio_self hd))

end OfRatio

theorem units_of_lt {x : Magnitude} (h : x.code < 0x10000000000000) : x.units = x.code := if_pos h

/-- From `2^52` on a code is split into an exponent and a count of steps. -/
theorem units_of_le {x : Magnitude} (h : 0x10000000000000 ≤ x.code) :
    x.units = (0x10000000000000 + x.code % 0x10000000000000) <<<
      (x.code / 0x10000000000000 - 1) :=
  if_neg (Nat.not_lt.2 h)

/-- **Greater magnitudes hold more units.** -/
theorem units_mono {x y : Magnitude} (h : x.code ≤ y.code) : x.units ≤ y.units := by
  rcases Nat.lt_or_ge y.code 0x10000000000000 with hy | hy
  · rw [units_of_lt hy, units_of_lt (h.trans_lt hy)]
    exact h
  rw [units_of_le hy, Nat.shiftLeft_eq]
  rcases Nat.lt_or_ge x.code 0x10000000000000 with hx | hx
  · rw [units_of_lt hx]
    exact (Nat.le_add_right_of_le hx.le).trans (Nat.le_mul_of_pos_right _ (Nat.two_pow_pos _))
  rw [units_of_le hx, Nat.shiftLeft_eq]
  rcases Nat.lt_or_eq_of_le (Nat.div_le_div_right (c := 0x10000000000000) h) with hlt | heq
  · have hexponent : x.code / 0x10000000000000 - 1 + 1 ≤ y.code / 0x10000000000000 - 1 := by omega
    calc (0x10000000000000 + x.code % 0x10000000000000) * 2 ^ (x.code / 0x10000000000000 - 1)
        ≤ (0x10000000000000 * 2) * 2 ^ (x.code / 0x10000000000000 - 1) :=
          Nat.mul_le_mul_right _ (by omega)
      _ = 0x10000000000000 * 2 ^ (x.code / 0x10000000000000 - 1 + 1) := by
          rw [Nat.pow_succ', Nat.mul_assoc]
      _ ≤ (0x10000000000000 + y.code % 0x10000000000000) *
            2 ^ (y.code / 0x10000000000000 - 1) :=
          Nat.mul_le_mul (by omega) (Nat.pow_le_pow_right Nat.two_pos hexponent)
  · rw [heq]
    exact Nat.mul_le_mul_right _ (by omega)

theorem units_one : one.units = unitsPerOne := rfl

theorem ofNat_mono {m n : Nat} (h : m ≤ n) : (ofNat m).code ≤ (ofNat n).code :=
  ofRatio_mono Nat.one_pos h

theorem one_le_ofNat {n : Nat} (h : 0 < n) : one.code ≤ (ofNat n).code :=
  (congrArg code (ofRatio_self Nat.one_pos)).symm.trans_le (ofNat_mono h)

theorem units_ofNat_pos {n : Nat} (hn : 0 < n) : 0 < (ofNat n).units :=
  (units_one ▸ unitsPerOne_pos).trans_le (units_mono (one_le_ofNat hn))

/-- **A quotient of natural numbers is at most one,** as rounded, if the divisor
is no less. -/
theorem div_ofNat_le_one {m n : Nat} (hn : 0 < n) (h : m ≤ n) :
    ((ofNat m).div (ofNat n)).code ≤ one.code :=
  ofRatio_le_one (units_ofNat_pos hn) (units_mono (ofNat_mono h))

end Magnitude

end ModulePolicy
