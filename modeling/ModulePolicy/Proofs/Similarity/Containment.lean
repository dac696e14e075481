/-
# The shortest identifier that contains a query

An identifier and a query are nested if one contains the other, case set aside.
Of the identifiers nested with a query `shortestContaining?` finds the shortest
in bytes, and of several shortest ones the smallest; it finds none only if none
is nested (`shortestContaining?_eq_some_iff`, `shortestContaining?_eq_none_iff`).
-/

import Mathlib.Data.Prod.Lex
import Mathlib.Data.String.Basic
import ModulePolicy.Similarity.Ranking

namespace ModulePolicy

/-- One of the two contains the other, case set aside. -/
def ModuleId.NestedWith (id : ModuleId) (query : String) : Prop :=
  (lowercase query).toList <:+: (lowercase id.text).toList ∨
    (lowercase id.text).toList <:+: (lowercase query).toList

/-- The length of an identifier in bytes, then its text. -/
def sizeKey (id : ModuleId) : Lex (ℕ × String) := toLex (id.text.utf8ByteSize, id.text)

theorem shorterBefore_iff {a b : ModuleId} : shorterBefore a b ↔ sizeKey a ≤ sizeKey b := by
  simp only [shorterBefore, ModuleId.le, sizeKey, Prod.Lex.toLex_le_toLex, Bool.or_eq_true,
    Bool.and_eq_true, decide_eq_true_eq]

theorem sizeKey_injective : Function.Injective sizeKey := fun _ _ h =>
  ModuleId.ext (congrArg (·.2) (toLex.injective h))

theorem firstShortest_eq_none_iff {l : List ModuleId} : firstShortest l = none ↔ l = [] := by
  cases l with
  | nil => exact ⟨fun _ => rfl, fun _ => rfl⟩
  | cons a l =>
    unfold firstShortest
    cases firstShortest l <;> simp

/-- What is found is the first of the list in the order. -/
theorem firstShortest_spec {a : ModuleId} :
    ∀ {l : List ModuleId}, firstShortest l = some a → a ∈ l ∧ ∀ b ∈ l, sizeKey a ≤ sizeKey b
  | c :: l, h => by
    unfold firstShortest at h
    cases hl : firstShortest l with
    | none =>
      rw [hl] at h
      obtain rfl := Option.some.inj h
      obtain rfl := firstShortest_eq_none_iff.1 hl
      simp
    | some d =>
      rw [hl] at h
      obtain rfl := Option.some.inj h
      obtain ⟨hd, hall⟩ := firstShortest_spec hl
      by_cases hcd : shorterBefore c d
      · rw [if_pos hcd]
        exact ⟨List.mem_cons_self, List.forall_mem_cons.2
          ⟨le_rfl, fun b hb => (shorterBefore_iff.1 hcd).trans (hall b hb)⟩⟩
      · rw [if_neg hcd]
        have hdc : sizeKey d ≤ sizeKey c := le_of_not_ge fun h => hcd (shorterBefore_iff.2 h)
        exact ⟨List.mem_cons_of_mem c hd, List.forall_mem_cons.2 ⟨hdc, hall⟩⟩

theorem firstShortest_eq_some_iff {a : ModuleId} {l : List ModuleId} :
    firstShortest l = some a ↔ a ∈ l ∧ ∀ b ∈ l, sizeKey a ≤ sizeKey b := by
  refine ⟨firstShortest_spec, fun ⟨ha, hall⟩ => ?_⟩
  cases hl : firstShortest l with
  | none => simp [firstShortest_eq_none_iff.1 hl] at ha
  | some b =>
    obtain ⟨hb, hall'⟩ := firstShortest_spec hl
    rw [sizeKey_injective (le_antisymm (hall' a ha) (hall b hb))]

section Containment

variable {query : String} {ids : List ModuleId}

/-- The candidates that are compared are the nested identifiers. -/
theorem mem_nested_iff {id : ModuleId} :
    id ∈ ((ids.map Candidate.ofId).filter fun c =>
        containsText (lowercase query) c.lowered || containsText c.lowered (lowercase query)).map
          (·.id) ↔
      id ∈ ids ∧ id.NestedWith query := by
  simp only [List.mem_map, List.mem_filter, Bool.or_eq_true, containsText_iff]
  constructor
  · rintro ⟨_, ⟨⟨id, hid, rfl⟩, hnested⟩, rfl⟩
    exact ⟨hid, hnested⟩
  · rintro ⟨hid, hnested⟩
    exact ⟨.ofId id, ⟨⟨id, hid, rfl⟩, hnested⟩, rfl⟩

/-- **The shortest nested identifier is found,** the smallest of several. -/
theorem shortestContaining?_eq_some_iff {id : ModuleId} :
    shortestContaining? query (ids.map Candidate.ofId) = some id ↔
      id ∈ ids ∧ id.NestedWith query ∧
        ∀ other ∈ ids, other.NestedWith query → sizeKey id ≤ sizeKey other := by
  unfold shortestContaining?
  rw [firstShortest_eq_some_iff, mem_nested_iff, and_assoc]
  simp only [mem_nested_iff, and_imp]

theorem shortestContaining?_eq_none_iff :
    shortestContaining? query (ids.map Candidate.ofId) = none ↔
      ∀ id ∈ ids, ¬ id.NestedWith query := by
  unfold shortestContaining?
  rw [firstShortest_eq_none_iff, List.eq_nil_iff_forall_not_mem]
  simp only [mem_nested_iff, not_and]

end Containment

end ModulePolicy
