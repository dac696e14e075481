/-
# Perfect scores

A similarity is computed with rounding, so a distance might be lost when it is taken
from one. It is not: the least that two different texts can be apart is one edit over
the length of the longer one, and up to `2^54 - 2` characters what that leaves of one
is rounded to less than one (`leastDistance_complement_lt_one`). So only equal texts
have the similarity one (`similarity_eq_one_iff`).

Texts of less than `2^53` characters have at most `2^54 - 2` in lowercase. Among
those a score is one where the query is one of the texts it is compared with, and
less than one where it is not (`score_eq_one_iff`).
-/

import ModulePolicy.Proofs.Number.Exactness
import ModulePolicy.Proofs.Similarity.Score

namespace ModulePolicy

/-- The longest texts whose similarity tells whether they are equal. -/
def longestTold : Nat := 0x3FFFFFFFFFFFFE

/-- How far two texts are apart at least that differ and are not too long. -/
def leastDistance : Magnitude := (Magnitude.ofNat 1).div (.ofNat longestTold)

theorem leastDistance_complement_lt_one : leastDistance.complement.code < Magnitude.one.code := by
  decide +kernel

section Similarity

variable {a b : String}

theorem leastDistance_le (hne : a ≠ b) (hlong : max a.length b.length ≤ longestTold) :
    leastDistance.code ≤ (relativeDistance a b).code := by
  have hedits : 0 < textDistance a b := Nat.pos_of_ne_zero (mt textDistance_eq_zero_iff.1 hne)
  have hlength : 0 < max a.length b.length := hedits.trans_le (textDistance_le a b)
  exact Magnitude.div_mono (Magnitude.ofNat_mono hedits) (Magnitude.ofNat_mono hlong)
    (Magnitude.units_ofNat_pos hlength)

theorem similarity_self (a : String) : similarity a a = .one := by
  simp only [similarity]
  split
  · rfl
  · next hne =>
    rw [textDistance_eq_zero_iff.2 rfl, Magnitude.ofNat_zero,
      Magnitude.zero_div (Magnitude.units_ofNat_pos (Nat.pos_of_ne_zero hne)),
      Magnitude.complement_zero]

theorem similarity_le_one (a b : String) : (similarity a b).code ≤ Magnitude.one.code := by
  simp only [similarity]
  split
  · exact Nat.le_refl _
  · exact Magnitude.complement_le_one _

/-- **No distance is lost** by rounding. -/
theorem similarity_lt_one (hne : a ≠ b) (hlong : max a.length b.length ≤ longestTold) :
    (similarity a b).code < Magnitude.one.code := by
  have hedits : textDistance a b ≠ 0 := mt textDistance_eq_zero_iff.1 hne
  have hlength : 0 < max a.length b.length :=
    (Nat.pos_of_ne_zero hedits).trans_le (textDistance_le a b)
  rw [(similarity_eq hlength).1]
  exact (Magnitude.complement_anti (leastDistance_le hne hlong)).trans_lt
    leastDistance_complement_lt_one

/-- **Only a text itself is perfectly similar** to it. -/
theorem similarity_eq_one_iff (hlong : max a.length b.length ≤ longestTold) :
    similarity a b = .one ↔ a = b := by
  constructor
  · intro hone
    by_contra hne
    exact (similarity_lt_one hne hlong).ne (congrArg Magnitude.code hone)
  · rintro rfl
    exact similarity_self a

end Similarity

section Score

variable {query : String} {id : ModuleId}

theorem length_le_of_mem_comparedTexts {text : String} (h : text ∈ id.comparedTexts) :
    text.length ≤ 2 * id.text.length := by
  rcases List.mem_cons.1 h with rfl | h
  · exact length_lowercase_le id.text
  · obtain ⟨segment, hsegment, rfl⟩ := List.mem_map.1 h
    exact (length_lowercase_le segment).trans
      (Nat.mul_le_mul_left 2 (length_le_of_mem_segments hsegment))

theorem score_le_one (query : String) (id : ModuleId) :
    (id.score query).code ≤ Magnitude.one.code := by
  obtain ⟨⟨text, _, hscore⟩, _⟩ := score_greatest query id
  rw [← hscore]
  exact similarity_le_one _ _

/-- The identifier or one of its segments is the query, case set aside. -/
def ModuleId.Named (query : String) (id : ModuleId) : Prop :=
  lowercase id.text = lowercase query ∨ ∃ s ∈ id.segments, lowercase s = lowercase query

theorem named_iff_mem : id.Named query ↔ lowercase query ∈ id.comparedTexts := by
  rw [ModuleId.Named, ModuleId.comparedTexts, List.mem_cons, List.mem_map, eq_comm]

/-- **A perfect score is a name of the module.** -/
theorem score_eq_one_iff (hquery : query.length < 0x20000000000000)
    (hid : id.text.length < 0x20000000000000) : id.score query = .one ↔ id.Named query := by
  obtain ⟨⟨text, htext, hscore⟩, hgreatest⟩ := score_greatest query id
  rw [named_iff_mem]
  constructor
  · intro hone
    have hlong : max (lowercase query).length text.length ≤ longestTold := by
      have hlowered := length_lowercase_le query
      have hlength := length_le_of_mem_comparedTexts htext
      unfold longestTold
      omega
    rw [(similarity_eq_one_iff hlong).1 (hscore.trans hone)]
    exact htext
  · intro hmem
    have hone := hgreatest _ hmem
    rw [similarity_self] at hone
    exact Magnitude.ext (Nat.le_antisymm (score_le_one query id) hone)

/-- A score that is not perfect lies below one. -/
theorem score_lt_one (hne : id.score query ≠ .one) :
    (id.score query).code < Magnitude.one.code :=
  Nat.lt_of_le_of_ne (score_le_one query id) fun hcode => hne (Magnitude.ext hcode)

end Score

end ModulePolicy
