/-
# Shortest decimals read back

The shortest decimal of a magnitude is one of three, and each reads back to it
(`nearest_shortest`):

| decimal | reads back because |
| --- | --- |
| the multiple below on some grid | this is tested before it is taken |
| the multiple above on some grid | this is tested before it is taken |
| the exact decimal | a unit is `5^1074 · 10^(-1074)`, and nothing is rounded |

Written positionally a decimal keeps its value: the digits of the whole part and of
the fraction are its digits with the zeros that its exponent stands for, and zeros at
the end of the fraction make no difference (`Decimal.ofPlaces_pointedFraction`).
-/

import ModulePolicy.Number.Decimal
import ModulePolicy.Proofs.Number.Exactness

namespace ModulePolicy

namespace Magnitude

/-- The magnitude nearest to a decimal. -/
def nearest (d : Decimal) : Magnitude := ofDecimal d.digits d.exponent

variable {x : Magnitude} {d : Decimal}

theorem nearest_of_onGrid? {e : Int} (h : x.onGrid? e = some d) : nearest d = x := by
  simp only [onGrid?] at h
  split at h
  · next hbelow =>
    obtain rfl := Option.some.inj h
    exact hbelow.1
  split at h
  · next habove =>
    obtain rfl := Option.some.inj h
    exact habove
  · cases h

/-- **Nothing is rounded** in the exact decimal. -/
theorem nearest_exactDecimal (x : Magnitude) : nearest x.exactDecimal = x := by
  have hunit : Nat.pow 5 1074 * unitsPerOne = tenTo 1074 := by decide +kernel
  calc nearest x.exactDecimal
      = ofRatio (x.units * Nat.pow 5 1074 * tenTo 0) (tenTo 1074) := ofDecimal_eq_ofRatio _ _
    _ = ofRatio x.units unitsPerOne := by
        refine ofRatio_congr (tenTo_pos _) unitsPerOne_pos ?_
        rw [← hunit, show tenTo 0 = 1 from rfl, Nat.mul_one, Nat.mul_assoc]
    _ = x := ofRatio_units x

/-- **The shortest decimal reads back.** -/
theorem nearest_shortest (x : Magnitude) : nearest x.shortest = x := by
  unfold shortest
  split
  · next hzero => rw [hzero]; rfl
  dsimp only
  cases hfound : (List.range 17).findSome? fun (i : Nat) =>
      x.onGrid? (x.decimalScale - 1 - (i : Int)) with
  | none => exact nearest_exactDecimal x
  | some d =>
    obtain ⟨i, -, hi⟩ := List.exists_of_findSome?_eq_some hfound
    exact nearest_of_onGrid? hi

/-! The digits of a number before and behind a point. -/

/-- The magnitude that is written with digits before and behind a point. -/
def ofPlaces (whole fraction : List Char) : Magnitude :=
  ofDecimal (Nat.ofDigitChars 10 (whole ++ fraction) 0) (-(fraction.length : Int))

/-- **Zeros behind the point** make no difference at the end. -/
theorem ofPlaces_zeros (whole fraction : List Char) (k : Nat) :
    ofPlaces whole (fraction ++ List.replicate k '0') = ofPlaces whole fraction := by
  have hdigits : Nat.ofDigitChars 10 (whole ++ (fraction ++ List.replicate k '0')) 0 =
      Nat.ofDigitChars 10 (whole ++ fraction) 0 * tenTo k := by
    rw [← List.append_assoc, Nat.ofDigitChars_append, Nat.ofDigitChars_replicate_zero,
      Nat.mul_comm]
    rfl
  have hplaces : (-((fraction ++ List.replicate k '0').length : Int)) =
      -(fraction.length : Int) - k := by
    rw [List.length_append, List.length_replicate]
    omega
  rw [ofPlaces, ofPlaces, hdigits, hplaces, ofDecimal_mul_tenTo]

end Magnitude

namespace Decimal

theorem value_paddedDigits (width n : Nat) :
    Nat.ofDigitChars 10 (paddedDigits width n) 0 = n := by
  rw [paddedDigits, Nat.ofDigitChars_append, Nat.ofDigitChars_replicate_zero, Nat.mul_zero,
    Nat.ofDigitChars_ten_toDigits]

theorem length_paddedDigits {width n : Nat} (hwidth : 0 < width) (hn : n < tenTo width) :
    (paddedDigits width n).length = width := by
  have hlength : (Nat.toDigits 10 n).length ≤ width :=
    (Nat.length_toDigits_le_iff (by decide) hwidth).2 hn
  rw [paddedDigits, List.length_append, List.length_replicate]
  omega

variable (d : Decimal)

theorem length_fraction : d.fraction.length = d.places := by
  unfold fraction
  split
  · next hnone => rw [hnone]; rfl
  · next hsome =>
    exact length_paddedDigits (Nat.pos_of_ne_zero hsome) (Nat.mod_lt _ (tenTo_pos _))

/-- A decimal has places or stands on zeros, not both. -/
theorem value_fraction : Nat.ofDigitChars 10 d.fraction 0 =
    d.digits * tenTo d.exponent.toNat % tenTo d.places := by
  unfold fraction
  split
  · next hnone => rw [hnone]; exact (Nat.mod_one _).symm
  · next hsome =>
    have hexponent : d.exponent.toNat = 0 := by
      unfold places at hsome
      omega
    rw [value_paddedDigits, hexponent, show tenTo 0 = 1 from rfl, Nat.mul_one]

/-- **The written digits** are those of the decimal, with zeros for a positive
exponent. -/
theorem value_written : Nat.ofDigitChars 10 (Nat.toDigits 10 d.whole ++ d.fraction) 0 =
    d.digits * tenTo d.exponent.toNat := by
  rw [Nat.ofDigitChars_append, Nat.ofDigitChars_ten_toDigits,
    Nat.ofDigitChars_eq_ofDigitChars_zero, length_fraction, value_fraction]
  exact Nat.div_add_mod _ _

theorem ofPlaces_fraction :
    Magnitude.ofPlaces (Nat.toDigits 10 d.whole) d.fraction = Magnitude.nearest d := by
  have hexponent : -(d.places : Int) = d.exponent - d.exponent.toNat := by
    unfold places
    omega
  rw [Magnitude.ofPlaces, value_written, length_fraction, hexponent, Magnitude.ofDecimal_mul_tenTo]
  rfl

theorem isDigit_of_mem_fraction {c : Char} (h : c ∈ d.fraction) : c.isDigit := by
  unfold fraction at h
  split at h
  · cases h
  rcases List.mem_append.1 h with h | h
  · rw [List.eq_of_mem_replicate h]
    rfl
  · exact Nat.isDigit_of_mem_toDigits (by decide) (by decide) h

/-- What is trimmed off a fraction are zeros. -/
theorem exists_fraction_eq :
    ∃ k, d.fraction = d.trimmedFraction ++ List.replicate k '0' := by
  refine ⟨(d.fraction.reverse.takeWhile (· = '0')).length, ?_⟩
  have hzeros : d.fraction.reverse.takeWhile (· = '0') =
      List.replicate (d.fraction.reverse.takeWhile (· = '0')).length '0' :=
    List.eq_replicate_iff.2
      ⟨rfl, fun c hc => of_decide_eq_true (List.all_eq_true.1 List.all_takeWhile c hc)⟩
  rw [← List.reverse_replicate, ← hzeros, trimmedFraction, ← List.reverse_append,
    List.takeWhile_append_dropWhile, List.reverse_reverse]

/-- The fraction behind a point that is never missing. -/
def pointedFraction : List Char := if d.trimmedFraction = [] then ['0'] else d.trimmedFraction

theorem pointedFraction_ne_nil : d.pointedFraction ≠ [] := by
  unfold pointedFraction
  split
  · exact List.cons_ne_nil _ _
  · assumption

theorem isDigit_of_mem_pointedFraction {c : Char} (h : c ∈ d.pointedFraction) : c.isDigit := by
  unfold pointedFraction at h
  split at h
  · rw [List.mem_singleton.1 h]
    rfl
  · obtain ⟨k, hk⟩ := d.exists_fraction_eq
    exact d.isDigit_of_mem_fraction (hk ▸ List.mem_append_left _ h)

/-- **A decimal that is written reads back** to the magnitude nearest to it. -/
theorem ofPlaces_pointedFraction :
    Magnitude.ofPlaces (Nat.toDigits 10 d.whole) d.pointedFraction = Magnitude.nearest d := by
  obtain ⟨k, hk⟩ := d.exists_fraction_eq
  have htrimmed := d.ofPlaces_fraction
  rw [hk, Magnitude.ofPlaces_zeros] at htrimmed
  unfold pointedFraction
  split
  · next hempty =>
    rw [hempty] at htrimmed
    exact (Magnitude.ofPlaces_zeros _ [] 1).trans htrimmed
  · exact htrimmed

end Decimal

theorem Binary64.toList_render_pointed {x : Magnitude} (hx : x.isFinite) (negative : Bool) :
    (render .pointed (.signed negative x)).toList =
      sign negative ++ (Nat.toDigits 10 x.shortest.whole ++ '.' :: x.shortest.pointedFraction) := by
  simp only [render, hx, if_true, String.toList_ofList, List.append_assoc, Decimal.pointedFraction]
  split <;> rfl

end ModulePolicy
