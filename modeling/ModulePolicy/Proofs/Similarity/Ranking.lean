/-
# The ranking behind suggestions

Identifiers are ranked for a query by their scores, the best first, and those
with equal scores by their order (`RanksBefore`). The least score asked for and
the limit only decide how much of the ranking is shown: those that reach the
least score stand at its front (`suggestions_eq_take`).
-/

import Mathlib.Data.Prod.Lex
import Mathlib.Data.String.Basic
import ModulePolicy.Proofs.Collection.List
import ModulePolicy.Proofs.Similarity.Score
import ModulePolicy.Similarity.Ranking

namespace ModulePolicy

theorem scoredBefore_iff {a b : Magnitude × ModuleId} :
    scoredBefore a b ↔
      b.1.code < a.1.code ∨ a.1.code = b.1.code ∧ a.2.text ≤ b.2.text := by
  simp only [scoredBefore, ModuleId.le, Bool.or_eq_true, Bool.and_eq_true, decide_eq_true_eq]

section Ranking

variable (query : String) {a b : ModuleId}

/-- An identifier with its score. -/
def scored (id : ModuleId) : Magnitude × ModuleId := (id.score query, id)

/-- Ranks before, or is the same. -/
def ranksBefore (a b : ModuleId) : Bool := scoredBefore (scored query a) (scored query b)

/-- The first identifier stands before the second in the ranking: its score is
better, or it is equal and the identifier smaller. -/
def RanksBefore (a b : ModuleId) : Prop :=
  (b.score query).code < (a.score query).code ∨ a.score query = b.score query ∧ a.text < b.text

/-- The place of an identifier in the ranking: the greater score counts as less,
then comes the text. -/
def rankKey (id : ModuleId) : Lex (ℕᵒᵈ × String) :=
  toLex (OrderDual.toDual (id.score query).code, id.text)

theorem ranksBefore_iff : ranksBefore query a b ↔ rankKey query a ≤ rankKey query b := by
  rw [rankKey, rankKey, Prod.Lex.toLex_le_toLex]
  exact scoredBefore_iff

theorem ranksBefore_iff_lt : RanksBefore query a b ↔ rankKey query a < rankKey query b := by
  simp only [RanksBefore, rankKey, Prod.Lex.toLex_lt_toLex, OrderDual.toDual_lt_toDual,
    OrderDual.toDual_inj, Magnitude.ext_iff]

theorem rankKey_injective : Function.Injective (rankKey query) := fun _ _ h =>
  ModuleId.ext (congrArg (·.2) (toLex.injective h))

theorem ranksBefore_trans (a b c : ModuleId) (hab : ranksBefore query a b)
    (hbc : ranksBefore query b c) : ranksBefore query a c := by
  rw [ranksBefore_iff] at hab hbc ⊢
  exact hab.trans hbc

theorem ranksBefore_total (a b : ModuleId) : ranksBefore query a b || ranksBefore query b a := by
  rw [Bool.or_eq_true, ranksBefore_iff, ranksBefore_iff]
  exact le_total _ _

theorem ranksBefore_antisymm (a b : ModuleId) (hab : ranksBefore query a b)
    (hba : ranksBefore query b a) : a = b := by
  rw [ranksBefore_iff] at hab hba
  exact rankKey_injective query (le_antisymm hab hba)

/-- Some identifiers, best first. -/
def ranking (ids : List ModuleId) : List ModuleId := ids.mergeSort (ranksBefore query)

theorem ranking_perm (ids : List ModuleId) : (ranking query ids).Perm ids :=
  List.mergeSort_perm _ _

/-- The ranking depends on nothing but which identifiers there are. -/
theorem ranking_congr {ids ids' : List ModuleId} (h : ids.Perm ids') :
    ranking query ids = ranking query ids' :=
  ((ranking_perm query ids).trans (h.trans (ranking_perm query ids').symm)).eq_of_pairwise
    (fun a b _ _ => ranksBefore_antisymm query a b)
    (List.pairwise_mergeSort (ranksBefore_trans query) (ranksBefore_total query) ids)
    (List.pairwise_mergeSort (ranksBefore_trans query) (ranksBefore_total query) ids')

theorem pairwise_rankKey_ranking (ids : List ModuleId) :
    (ranking query ids).Pairwise fun a b => rankKey query a ≤ rankKey query b :=
  (List.pairwise_mergeSort (ranksBefore_trans query) (ranksBefore_total query) ids).imp
    (ranksBefore_iff query).1

/-- **A ranking leaves no ties** if no identifier stands in it twice. -/
theorem pairwise_ranking {ids : List ModuleId} (h : ids.Nodup) :
    (ranking query ids).Pairwise (RanksBefore query) := by
  have hnodup : (ranking query ids).Pairwise (· ≠ ·) := (ranking_perm query ids).nodup_iff.2 h
  refine (pairwise_rankKey_ranking query ids).imp₂ (fun a b hle hne => ?_) hnodup
  exact (ranksBefore_iff_lt query).2 (lt_of_le_of_ne hle ((rankKey_injective query).ne hne))

/-- The first of a ranking is the one that stands before all others. -/
theorem head?_ranking {ids : List ModuleId} {first : ModuleId}
    (h : (ranking query ids).head? = some first) :
    first ∈ ids ∧ ∀ other ∈ ids, rankKey query first ≤ rankKey query other := by
  obtain ⟨rest, hranking⟩ := List.head?_eq_some_iff.1 h
  have hsorted := pairwise_rankKey_ranking query ids
  have hperm := ranking_perm query ids
  rw [hranking] at hsorted hperm
  refine ⟨hperm.mem_iff.1 List.mem_cons_self, fun other hother => ?_⟩
  rcases List.mem_cons.1 (hperm.mem_iff.2 hother) with rfl | hrest
  · exact le_rfl
  · exact (List.pairwise_cons.1 hsorted).1 other hrest

/-- Whether the score of an identifier is at least the given one. -/
def reaches (least : Binary64) (id : ModuleId) : Bool :=
  least.le (.ofMagnitude (id.score query))

/-- What reaches a score stands at the front of a ranking. -/
theorem filter_ranking (least : Binary64) (ids : List ModuleId) :
    (ranking query ids).filter (reaches query least) =
      (ranking query ids).take (ids.countP (reaches query least)) := by
  rw [← (ranking_perm query ids).countP_eq]
  refine filter_eq_take_countP ((pairwise_rankKey_ranking query ids).imp fun {a b} hab hb => ?_)
  have hcode : (b.score query).code ≤ (a.score query).code := Prod.Lex.monotone_fst _ _ hab
  exact Binary64.le_trans hb (Binary64.ofMagnitude_le_iff.2 hcode)

/-- **Suggestions are a start of the ranking,** as long as the limit and the
number of identifiers with a sufficient score allow. -/
theorem suggestions_eq_take (ids : List ModuleId) (limit : Nat) (least : Binary64) :
    suggestions query (ids.map Candidate.ofId) limit least =
      (ranking query ids).take (min limit (ids.countP (reaches query least))) := by
  have hsorted : ((ids.filter (reaches query least)).map (scored query)).mergeSort scoredBefore =
      ((ranking query ids).filter (reaches query least)).map (scored query) := by
    rw [← List.map_mergeSort (r := ranksBefore query) (s := scoredBefore) (f := scored query)
        fun _ _ _ _ => rfl,
      mergeSort_filter (ranksBefore_trans query) (ranksBefore_total query)
        (ranksBefore_antisymm query)]
    rfl
  have hkept : ((ids.map Candidate.ofId).map fun c => (c.score (lowercase query), c.id)).filter
      (fun s => least.le (.ofMagnitude s.1)) =
        (ids.filter (reaches query least)).map (scored query) := by
    rw [List.map_map, List.filter_map]
    rfl
  calc suggestions query (ids.map Candidate.ofId) limit least
      = ((((ids.filter (reaches query least)).map (scored query)).mergeSort scoredBefore).take
          limit).map (·.2) := by rw [← hkept]; rfl
    _ = ((ranking query ids).filter (reaches query least)).take limit := by
        rw [hsorted, ← List.map_take, List.map_map]
        exact List.map_id'' (fun _ => rfl) _
    _ = (ranking query ids).take (min limit (ids.countP (reaches query least))) := by
        rw [filter_ranking, List.take_take]

end Ranking

end ModulePolicy
