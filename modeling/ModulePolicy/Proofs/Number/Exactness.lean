/-
# Rounding a ratio

What a quotient is rounded to depends on its value alone, not on the two numbers it
is written with (`ofRatio_congr`), so quotients with different divisors compare as
their values do (`ofRatio_le_of_mul_le`, `div_mono`). A magnitude is its own rounding
(`ofRatio_units`).

Decimals are such quotients: the exponents that are answered at once lie so far out
that rounding would give the same (`ofDecimal_eq_ofRatio`). So a decimal may be
written with more or fewer zeros at its end (`ofDecimal_mul_tenTo`).
-/

import ModulePolicy.Proofs.Number.Rounding

namespace ModulePolicy

theorem roundHalfEven_mul_mul {c : Nat} (hc : 0 < c) (n d : Nat) :
    roundHalfEven (n * c) (d * c) = roundHalfEven n d := by
  have hlt : ∀ a b : Nat, a * c < b * c ↔ a < b := fun a b => Nat.mul_lt_mul_right hc
  simp only [roundHalfEven, Nat.mul_div_mul_right n d hc, Nat.mul_mod_mul_right,
    ← Nat.mul_assoc, hlt]

theorem tenTo_pos (k : Nat) : 0 < tenTo k := Nat.pow_pos (Nat.succ_pos 9)

theorem tenTo_add (j k : Nat) : tenTo (j + k) = tenTo j * tenTo k := Nat.pow_add 10 j k

theorem tenTo_mono {j k : Nat} (h : j ≤ k) : tenTo j ≤ tenTo k :=
  Nat.pow_le_pow_right (Nat.succ_pos 9) h

theorem le_tenTo_log2 (n : Nat) : n ≤ tenTo (Nat.log2 n + 1) :=
  Nat.lt_log2_self.le.trans (Nat.pow_le_pow_left (by decide) _)

namespace Magnitude

section Ratio

variable {m n d d' : Nat}

theorem ofRatio_mul_mul {c : Nat} (hc : 0 < c) (n d : Nat) :
    ofRatio (n * c) (d * c) = ofRatio n d := by
  have hexponent : stepExponent (n * c) (d * c) = stepExponent n d := by
    rw [stepExponent, stepExponent, Nat.mul_right_comm, Nat.mul_div_mul_right _ _ hc]
  have hsteps : steps (n * c) (d * c) = steps n d := by
    have hdivisor : ∀ k : Nat, (d * c) <<< k = d <<< k * c := fun k => by
      rw [Nat.shiftLeft_eq, Nat.shiftLeft_eq, Nat.mul_right_comm]
    rw [steps, steps, hexponent, Nat.mul_right_comm, hdivisor, roundHalfEven_mul_mul hc]
  rw [ofRatio_eq, ofRatio_eq, hexponent, hsteps]

/-- **Rounding depends on the value of a quotient alone.** -/
theorem ofRatio_congr (hd : 0 < d) (hd' : 0 < d') (h : n * d' = m * d) :
    ofRatio n d = ofRatio m d' := by
  rw [← ofRatio_mul_mul hd' n d, ← ofRatio_mul_mul hd m d', h, Nat.mul_comm d]

/-- **Rounded quotients compare as their values do.** -/
theorem ofRatio_le_of_mul_le (hd : 0 < d) (hd' : 0 < d') (h : n * d' ≤ m * d) :
    (ofRatio n d).code ≤ (ofRatio m d').code := by
  rw [← ofRatio_mul_mul hd' n d, ← ofRatio_mul_mul hd m d', Nat.mul_comm d' d]
  exact ofRatio_mono (Nat.mul_pos hd hd') h

theorem ofRatio_zero (hd : 0 < d) : ofRatio 0 d = zero := by
  have hexponent : stepExponent 0 d = 0 := by simp [stepExponent]
  have hsteps : steps 0 d = 0 := by
    rw [steps, Nat.zero_mul]
    exact roundHalfEven_mul (shiftLeft_pos hd _) 0
  rw [ofRatio_eq, hexponent, hsteps]
  rfl

end Ratio

theorem ofCode_code (x : Magnitude) : ofCode x.code = x :=
  ext (Nat.min_eq_left x.code_le)

section Operations

variable {x x' y y' : Magnitude}

/-- A quotient grows with what is divided and with a lesser divisor. -/
theorem div_mono (hx : x.code ≤ x'.code) (hy : y'.code ≤ y.code) (hpos : 0 < y'.units) :
    (x.div y).code ≤ (x'.div y').code :=
  ofRatio_le_of_mul_le (hpos.trans_le (units_mono hy)) hpos
    (Nat.mul_le_mul (units_mono hx) (units_mono hy))

/-- The more is taken from one, the less is left. -/
theorem complement_anti (h : x.code ≤ y.code) : y.complement.code ≤ x.complement.code :=
  ofRatio_mono unitsPerOne_pos (Nat.sub_le_sub_left (units_mono h) _)

theorem complement_le_one (x : Magnitude) : x.complement.code ≤ one.code :=
  ofRatio_le_one unitsPerOne_pos (Nat.sub_le _ _)

theorem complement_zero : zero.complement = one := ofRatio_self unitsPerOne_pos

theorem zero_div (hpos : 0 < y.units) : zero.div y = zero := ofRatio_zero hpos

theorem ofNat_zero : ofNat 0 = zero := ofRatio_zero Nat.one_pos

end Operations

/-- A count of steps is found again where the exponent is. -/
theorem ofRatio_shiftLeft {m k : Nat} (h : Nat.log2 (m <<< k) - 52 = k) :
    ofRatio (m <<< k) unitsPerOne = ofCode (m + k * 0x10000000000000) := by
  have hexponent : stepExponent (m <<< k) unitsPerOne = k := by
    rw [stepExponent, Nat.mul_div_cancel _ unitsPerOne_pos, h]
  have hunits : m <<< k * unitsPerOne = unitsPerOne <<< k * m := by
    rw [Nat.shiftLeft_eq, Nat.shiftLeft_eq, Nat.mul_comm m, Nat.mul_right_comm,
      Nat.mul_comm (2 ^ k)]
  rw [ofRatio_eq, steps, hexponent, hunits, roundHalfEven_mul (shiftLeft_pos unitsPerOne_pos k)]

theorem log2_shiftLeft {m : Nat} (hm : 0x10000000000000 ≤ m) (hm' : m < 0x20000000000000)
    (k : Nat) : Nat.log2 (m <<< k) = 52 + k := by
  rw [Nat.shiftLeft_eq, Nat.log2_eq_iff (Nat.mul_pos (by omega) (Nat.two_pow_pos k)).ne']
  constructor
  · rw [Nat.pow_add]
    exact Nat.mul_le_mul_right _ hm
  · rw [Nat.add_right_comm, Nat.pow_add]
    exact Nat.mul_lt_mul_of_pos_right hm' (Nat.two_pow_pos k)

/-- The code of a magnitude is a count of steps with their exponent. -/
theorem exists_steps (x : Magnitude) : ∃ m k, x.units = m <<< k ∧
    Nat.log2 (m <<< k) - 52 = k ∧ m + k * 0x10000000000000 = x.code := by
  rcases Nat.lt_or_ge x.code 0x10000000000000 with hlt | hle
  · refine ⟨x.code, 0, units_of_lt hlt, ?_, by omega⟩
    have hpow : x.code < 2 ^ 52 := hlt.trans_eq (by decide)
    rw [Nat.shiftLeft_zero, Nat.sub_eq_zero_iff_le]
    rcases Nat.eq_zero_or_pos x.code with hzero | hpos
    · rw [hzero, Nat.log2_zero]
      exact Nat.zero_le 52
    · exact ((Nat.log2_lt hpos.ne').2 hpow).le
  · refine ⟨_, _, units_of_le hle, ?_, by omega⟩
    rw [log2_shiftLeft (by omega) (by omega)]
    omega

/-- **A magnitude is its own rounding.** -/
theorem ofRatio_units (x : Magnitude) : ofRatio x.units unitsPerOne = x := by
  obtain ⟨m, k, hunits, hlog, hcode⟩ := x.exists_steps
  rw [hunits, ofRatio_shiftLeft hlog, hcode, ofCode_code]

/-- **The exponents answered at once** get what rounding would give. -/
theorem ofDecimal_eq_ofRatio (digits : Nat) (e : Int) :
    ofDecimal digits e = ofRatio (digits * tenTo e.toNat) (tenTo (-e).toNat) := by
  unfold ofDecimal
  split
  · next hzero => rw [hzero, Nat.zero_mul, ofRatio_zero (tenTo_pos _)]
  next hne =>
  split
  · next hbig =>
    have htop : ofRatio (tenTo 310) 1 = infinity := by decide +kernel
    have hle : tenTo 310 ≤ digits * tenTo e.toNat :=
      (tenTo_mono (by omega)).trans (Nat.le_mul_of_pos_left _ (Nat.pos_of_ne_zero hne))
    have hcode := ofRatio_mono Nat.one_pos hle
    rw [htop] at hcode
    rw [show (-e).toNat = 0 by omega]
    exact ext (Nat.le_antisymm hcode (code_le _))
  split
  · next hsmall =>
    have hbottom : ofRatio 1 (tenTo 330) = zero := by decide +kernel
    have hle : digits * tenTo 330 ≤ 1 * tenTo (-e).toNat := by
      calc digits * tenTo 330
          ≤ tenTo (Nat.log2 digits + 1) * tenTo 330 := Nat.mul_le_mul_right _ (le_tenTo_log2 _)
        _ = tenTo (Nat.log2 digits + 1 + 330) := (tenTo_add ..).symm
        _ ≤ tenTo (-e).toNat := tenTo_mono (by omega)
        _ = 1 * tenTo (-e).toNat := (Nat.one_mul _).symm
    have hcode := ofRatio_le_of_mul_le (tenTo_pos _) (tenTo_pos _) hle
    rw [hbottom] at hcode
    rw [show e.toNat = 0 by omega, show tenTo 0 = 1 from rfl, Nat.mul_one]
    exact (ext (Nat.le_zero.1 hcode)).symm
  · rfl

/-- **Zeros at the end** of a decimal change the exponent only. -/
theorem ofDecimal_mul_tenTo (n k : Nat) (e : Int) :
    ofDecimal (n * tenTo k) (e - k) = ofDecimal n e := by
  rw [ofDecimal_eq_ofRatio, ofDecimal_eq_ofRatio]
  refine ofRatio_congr (tenTo_pos _) (tenTo_pos _) ?_
  have hsum : k + (e - k).toNat + (-e).toNat = e.toNat + (-(e - k)).toNat := by omega
  calc n * tenTo k * tenTo (e - k).toNat * tenTo (-e).toNat
      = n * tenTo (k + (e - k).toNat + (-e).toNat) := by
        rw [tenTo_add, tenTo_add, Nat.mul_assoc, Nat.mul_assoc, Nat.mul_assoc]
    _ = n * tenTo e.toNat * tenTo (-(e - k)).toNat := by rw [hsum, tenTo_add, Nat.mul_assoc]

end Magnitude

end ModulePolicy
