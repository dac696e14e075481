/-
# Words that values are written as

| value | word |
| --- | --- |
| a boolean | `true` or `false` |
| a natural number | its decimal digits |
| a finite number | a sign perhaps, digits, a point, digits |
| any other number | `inf`, `-inf` or `nan` |

Each word is read as the value it was written for (`writes_boolean`, `writes_toDigits`,
`writes_render`), a natural number as long as it is one of the integers of the format.
The readers are tried in turn, so this also takes that those before the right one refuse
the word. A number is no boolean, being written without letters, and with a point it is
no integer.
-/

import Mathlib.Data.List.TakeWhile
import ModulePolicy.Proofs.Collection.List
import ModulePolicy.Proofs.Number.Shortest
import ModulePolicy.Toml.Scalar

namespace ModulePolicy.Toml

/-- Decimal digits, at least one. -/
structure IsDigits (cs : List Char) : Prop where
  ne_nil : cs ≠ []
  isDigit : ∀ c ∈ cs, c.isDigit

/-- A character of a kind is none of those that are not. -/
theorem ne_of_kind {p : Char → Bool} {c d : Char} (hc : p c) (hd : p d = false) : c ≠ d := by
  rintro rfl
  exact Bool.false_ne_true (hd.symm.trans hc)

/-- A text that begins with characters of a kind begins with no other. -/
theorem append_ne_cons {p : Char → Bool} {cs : List Char} (hne : cs ≠ []) (hcs : cs.all p)
    {c : Char} (hc : p c = false) (rest s : List Char) : cs ++ rest ≠ c :: s := by
  obtain ⟨d, ds, rfl⟩ := List.exists_cons_of_ne_nil hne
  have hd : p d := List.all_eq_true.1 hcs d List.mem_cons_self
  exact fun h => ne_of_kind hd hc (List.cons.inj h).1

section Digits

variable {cs : List Char}

theorem isDigits_toDigits (n : Nat) : IsDigits (Nat.toDigits 10 n) :=
  ⟨Nat.toDigits_ne_nil, fun _ => Nat.isDigit_of_mem_toDigits (by decide) (by decide)⟩

theorem isDigits_pointedFraction (d : Decimal) : IsDigits d.pointedFraction :=
  ⟨d.pointedFraction_ne_nil, fun _ => d.isDigit_of_mem_pointedFraction⟩

theorem groupedDigits?_of_isDigits (h : IsDigits cs) :
    groupedDigits? Char.isDigit cs = some cs := by
  obtain ⟨hne, h⟩ := h
  fun_induction groupedDigits? Char.isDigit cs with
  | case1 => exact absurd rfl hne
  | case2 c hc => rfl
  | case3 c hc => exact absurd (h c List.mem_cons_self) hc
  | case4 c cs hc ih => exact absurd (h '_' (by simp)) (by decide)
  | case5 c cs hc => exact absurd (h c List.mem_cons_self) hc
  | case6 c d cs _ hc ih =>
    rw [ih (List.cons_ne_nil _ _) fun x hx => h x (List.mem_cons_of_mem _ hx)]
    rfl
  | case7 c d cs _ hc => exact absurd (h c List.mem_cons_self) hc

/-- Grouped digits hold nothing but digits and underscores. -/
theorem of_groupedDigits? {p : Char → Bool} {ds : List Char} (h : groupedDigits? p cs = some ds) :
    ∀ c ∈ cs, p c ∨ c = '_' := by
  fun_induction groupedDigits? p cs generalizing ds with
  | case1 => cases h
  | case2 c hc => simpa using .inl hc
  | case3 c hc => cases h
  | case4 c cs hc ih =>
    obtain ⟨ds', hds', rfl⟩ := Option.map_eq_some_iff.1 h
    simpa [hc] using ih hds'
  | case5 c cs hc => cases h
  | case6 c d cs _ hc ih =>
    obtain ⟨ds', hds', rfl⟩ := Option.map_eq_some_iff.1 h
    simpa [hc] using ih hds'
  | case7 c d cs _ hc => cases h

/-- The digits of a positive number do not begin with zero. -/
theorem head?_toDigits {n : Nat} (hn : 0 < n) : (Nat.toDigits 10 n).head? ≠ some '0' := by
  induction n using Nat.strongRecOn with
  | ind n ih =>
    rcases Nat.lt_or_ge n 10 with hlt | hge
    · have hdigit : ∀ k < 10, 0 < k → [Nat.digitChar k].head? ≠ some '0' := by decide
      rw [Nat.toDigits_of_lt_base hlt]
      exact hdigit n hlt hn
    · have hquotient := ih (n / 10) (Nat.div_lt_self hn (by decide)) (Nat.div_pos hge (by decide))
      rw [Nat.toDigits_of_base_le (by decide) hge,
        List.head?_append_of_ne_nil _ Nat.toDigits_ne_nil]
      exact hquotient

/-- **The digits of a number are whole digits.** -/
theorem wholeDigits?_toDigits (n : Nat) :
    wholeDigits? (Nat.toDigits 10 n) = some (Nat.toDigits 10 n) := by
  rw [wholeDigits?, groupedDigits?_of_isDigits (isDigits_toDigits n)]
  split
  · next c rest h =>
    have hdigits : Nat.toDigits 10 n = '0' :: c :: rest := Option.some.inj h
    rcases Nat.eq_zero_or_pos n with rfl | hpos
    · cases hdigits
    · exact absurd (congrArg List.head? hdigits) (head?_toDigits hpos)
  · rfl

end Digits

/-! A number is written with digits, a point and a minus sign, and so without letters. -/

section Numeric

/-- The characters of numbers. -/
def isNumberChar (c : Char) : Bool := c.isDigit || c = '.' || c = '-'

/-- A text of such characters. -/
def Numeric (cs : List Char) : Prop := ∀ c ∈ cs, isNumberChar c

theorem IsDigits.numeric {cs : List Char} (h : IsDigits cs) : Numeric cs := fun c hc => by
  simp [isNumberChar, h.isDigit c hc]

variable {cs : List Char} (h : Numeric cs)

include h

theorem Numeric.not_mem {c : Char} (hc : isNumberChar c = false) : c ∉ cs := fun hmem =>
  ne_of_kind (h c hmem) hc rfl

theorem Numeric.ne_of_mem {c : Char} {word : List Char} (hc : isNumberChar c = false)
    (hmem : c ∈ word) : cs ≠ word := by
  rintro rfl
  exact h.not_mem hc hmem

/-- No letter tells of another base than ten. -/
theorem Numeric.unboundedInteger?_eq : unboundedInteger? cs =
    (wholeDigits? (splitSign cs).2).map fun ds =>
      if (splitSign cs).1 then -(Nat.ofDigitChars 10 ds 0 : Int)
      else Nat.ofDigitChars 10 ds 0 := by
  unfold unboundedInteger?
  split
  · exact absurd (by simp) (h.not_mem (c := 'x') (by decide))
  · exact absurd (by simp) (h.not_mem (c := 'o') (by decide))
  · exact absurd (by simp) (h.not_mem (c := 'b') (by decide))
  · rfl

/-- A numeric word is no boolean, so it is taken for an integer first. -/
theorem Numeric.valueOfWord?_integer {i : Int} (hi : integer? cs = some i) :
    valueOfWord? cs = some (.integer i) := by
  rw [valueOfWord?, if_neg (h.ne_of_mem (c := 'e') (by decide) (by decide)),
    if_neg (h.ne_of_mem (c := 'e') (by decide) (by decide)), hi]

theorem Numeric.valueOfWord?_float {x : Binary64} (hi : integer? cs = none)
    (hx : float? cs = some x) : valueOfWord? cs = some (.float x) := by
  rw [valueOfWord?, if_neg (h.ne_of_mem (c := 'e') (by decide) (by decide)),
    if_neg (h.ne_of_mem (c := 'e') (by decide) (by decide)), hi, hx]

end Numeric

/-! What a number is read from: a sign, digits before the point, digits behind it. -/

section Number

theorem splitSign_of_isDigits {whole : List Char} (hwhole : IsDigits whole) (cs : List Char) :
    splitSign (whole ++ cs) = (false, whole ++ cs) := by
  have hdigits : whole.all Char.isDigit := List.all_eq_true.2 hwhole.isDigit
  generalize hs : whole ++ cs = s
  unfold splitSign
  split
  · exact absurd hs (append_ne_cons hwhole.ne_nil hdigits (by decide) _ _)
  · exact absurd hs (append_ne_cons hwhole.ne_nil hdigits (by decide) _ _)
  · rfl

/-- **Digits are read as their number,** up to the greatest integer. -/
theorem integer?_toDigits {n : Nat} (hn : n ≤ 0x7FFFFFFFFFFFFFFF) :
    integer? (Nat.toDigits 10 n) = some (n : Int) := by
  have hdigits := isDigits_toDigits n
  have hsplit : splitSign (Nat.toDigits 10 n) = (false, Nat.toDigits 10 n) := by
    simpa only [List.append_nil] using splitSign_of_isDigits hdigits []
  have hunbounded : unboundedInteger? (Nat.toDigits 10 n) = some (n : Int) := by
    rw [hdigits.numeric.unboundedInteger?_eq, hsplit, wholeDigits?_toDigits, Option.map_some,
      Nat.ofDigitChars_ten_toDigits]
    rfl
  rw [integer?, hunbounded]
  exact if_pos (by omega)

/-- A number with a point. -/
def pointed (negative : Bool) (whole fraction : List Char) : List Char :=
  Binary64.sign negative ++ (whole ++ '.' :: fraction)

variable {negative : Bool} {whole fraction : List Char}
  (hwhole : IsDigits whole) (hfraction : IsDigits fraction)

include hwhole

theorem splitSign_pointed :
    splitSign (pointed negative whole fraction) = (negative, whole ++ '.' :: fraction) := by
  cases negative with
  | true => rfl
  | false => exact splitSign_of_isDigits hwhole _

include hfraction

theorem numeric_pointed : Numeric (pointed negative whole fraction) := by
  intro c hc
  rcases List.mem_append.1 hc with hc | hc
  · cases negative with
    | true => rw [List.mem_singleton.1 hc]; rfl
    | false => cases hc
  rcases List.mem_append.1 hc with hc | hc
  · exact hwhole.numeric c hc
  rcases List.mem_cons.1 hc with rfl | hc
  · rfl
  · exact hfraction.numeric c hc

/-- **A number with a point is no integer.** -/
theorem integer?_pointed : integer? (pointed negative whole fraction) = none := by
  have hdigits : groupedDigits? Char.isDigit (whole ++ '.' :: fraction) = none := by
    rw [Option.eq_none_iff_forall_not_mem]
    intro ds hds
    rcases of_groupedDigits? hds '.' (by simp) with h | h
    · exact absurd h (by decide)
    · exact absurd h (by decide)
  rw [integer?, (numeric_pointed hwhole hfraction).unboundedInteger?_eq,
    splitSign_pointed hwhole, wholeDigits?, hdigits]
  rfl

/-- **A number with a point is read as what its digits write.** -/
theorem decimal?_pointed (hleading : wholeDigits? whole = some whole)
    (hfinite : (Magnitude.ofPlaces whole fraction).isFinite) :
    decimal? (pointed negative whole fraction) =
      some (.signed negative (.ofPlaces whole fraction)) := by
  have hmark : ∀ {c : Char}, c.isDigit → isExponentMark c = false := fun {c} hc => by
    simp [isExponentMark, ne_of_kind hc (d := 'e') (by decide),
      ne_of_kind hc (d := 'E') (by decide)]
  have hbefore : (whole ++ '.' :: fraction).takeWhile (fun c => !(c = '.' || isExponentMark c)) =
      whole := by
    refine takeWhile_append_cons (fun c hc => ?_) (by decide) fraction
    have hdigit := hwhole.isDigit c hc
    simp [ne_of_kind hdigit (d := '.') (by decide), hmark hdigit]
  have hbehind : fraction? ('.' :: fraction) = some fraction := by
    have hall : fraction.takeWhile (fun c => !isExponentMark c) = fraction :=
      List.takeWhile_eq_self_iff.2 fun c hc => by simp [hmark (hfraction.isDigit c hc)]
    rw [fraction?, hall, groupedDigits?_of_isDigits hfraction]
  have hexponent : ('.' :: fraction).dropWhile (fun c => !isExponentMark c) = [] := by
    rw [List.dropWhile_eq_nil_iff]
    intro c hc
    rcases List.mem_cons.1 hc with rfl | hc
    · rfl
    · simp [hmark (hfraction.isDigit c hc)]
  have hread : Magnitude.ofDecimal (Nat.ofDigitChars 10 (whole ++ fraction) 0)
      (0 - (fraction.length : Int)) = .ofPlaces whole fraction := by
    rw [Int.zero_sub]
    rfl
  have hnone : exponent? [] = some 0 := rfl
  unfold decimal?
  rw [splitSign_pointed hwhole]
  simp only [hbefore, List.drop_left, hexponent, hbehind, hleading, hnone, hread, hfinite,
    List.cons_ne_nil, if_false, Bool.true_or, if_true]

theorem float?_pointed (hleading : wholeDigits? whole = some whole)
    (hfinite : (Magnitude.ofPlaces whole fraction).isFinite) :
    float? (pointed negative whole fraction) =
      some (.signed negative (.ofPlaces whole fraction)) := by
  have hunsigned : Numeric (pointed false whole fraction) := numeric_pointed hwhole hfraction
  have hnumeric : Numeric (whole ++ '.' :: fraction) := hunsigned
  rw [float?, splitSign_pointed hwhole]
  split
  · next h =>
    exact absurd (Prod.mk.inj h).2 (hnumeric.ne_of_mem (c := 'n') (by decide) (by decide))
  · next h =>
    exact absurd (Prod.mk.inj h).2 (hnumeric.ne_of_mem (c := 'n') (by decide) (by decide))
  · exact decimal?_pointed hwhole hfraction hleading hfinite

end Number

/-! The three kinds of words. -/

/-- A word that is read as a value, and as one word. -/
structure Writes (word : List Char) (v : Value) : Prop where
  valueOfWord?_eq : valueOfWord? word = some v
  all_isWordChar : word.all isWordChar

theorem Numeric.all_isWordChar {cs : List Char} (h : Numeric cs) : cs.all isWordChar := by
  rw [List.all_eq_true]
  intro c hc
  have hchar := h c hc
  simp only [isNumberChar, Bool.or_eq_true, decide_eq_true_eq] at hchar
  rcases hchar with (hdigit | rfl) | rfl
  · simp [isWordChar, Char.isAlphanum, hdigit]
  · rfl
  · rfl

theorem writes_boolean (b : Bool) : Writes (if b then "true" else "false").toList (.boolean b) := by
  cases b with
  | true => exact ⟨by decide, by decide⟩
  | false => exact ⟨by decide, by decide⟩

theorem writes_toDigits {n : Nat} (hn : n ≤ 0x7FFFFFFFFFFFFFFF) :
    Writes (Nat.toDigits 10 n) (.integer n) where
  valueOfWord?_eq := (isDigits_toDigits n).numeric.valueOfWord?_integer (integer?_toDigits hn)
  all_isWordChar := (isDigits_toDigits n).numeric.all_isWordChar

theorem writes_pointed (negative : Bool) {whole fraction : List Char} (hwhole : IsDigits whole)
    (hfraction : IsDigits fraction) (hleading : wholeDigits? whole = some whole)
    (hfinite : (Magnitude.ofPlaces whole fraction).isFinite) :
    Writes (pointed negative whole fraction)
      (.float (.signed negative (.ofPlaces whole fraction))) where
  valueOfWord?_eq := (numeric_pointed hwhole hfraction).valueOfWord?_float
    (integer?_pointed hwhole hfraction) (float?_pointed hwhole hfraction hleading hfinite)
  all_isWordChar := (numeric_pointed hwhole hfraction).all_isWordChar

/-- **Every number is read back.** -/
theorem writes_render (x : Binary64) : Writes (x.render .pointed).toList (.float x) := by
  cases x with
  | nan => exact ⟨by decide, by decide⟩
  | signed negative x =>
    by_cases hx : x.isFinite
    · have hread : Magnitude.ofPlaces (Nat.toDigits 10 x.shortest.whole)
          x.shortest.pointedFraction = x :=
        x.shortest.ofPlaces_pointedFraction.trans x.nearest_shortest
      have h := writes_pointed negative (isDigits_toDigits x.shortest.whole)
        (isDigits_pointedFraction x.shortest) (wholeDigits?_toDigits _) (hread.symm ▸ hx)
      rw [hread] at h
      rw [Binary64.toList_render_pointed hx]
      exact h
    · have hcode : x.code = 0x7FF0000000000000 := by
        have := x.code_le
        simp only [Magnitude.isFinite, decide_eq_true_eq] at hx
        omega
      obtain rfl : x = .infinity := Magnitude.ext hcode
      cases negative with
      | true => exact ⟨by decide, by decide⟩
      | false => exact ⟨by decide, by decide⟩

end ModulePolicy.Toml
