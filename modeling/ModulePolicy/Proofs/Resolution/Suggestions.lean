/-
# What is suggested

An answer of less than full confidence suggests a start of the ranking of all
declared identifiers. Its length is the limit on suggestions or the number of
identifiers whose score is sufficient, whichever is less, so other settings only
lengthen or shorten it (`suggestions_exact`).
-/

import ModulePolicy.Proofs.Resolution.Answer
import ModulePolicy.Proofs.Similarity.Ranking

namespace ModulePolicy

section

variable {p : Policy} {aliases : Option AliasTable} {settings : Settings} {query : String}
  {r : Resolution}

/-- How many identifiers may be suggested. -/
def suggestionCount (p : Policy) (settings : Settings) (query : String) : Nat :=
  min settings.maxSuggestions (p.ids.countP (reaches query settings.minScore))

theorem suggested_eq_take (p : Policy) (settings : Settings) (query : String) :
    Resolution.suggested (.ofPolicy p) settings query =
      (ranking query p.ids).take (suggestionCount p settings query) := by
  unfold Resolution.suggested
  rw [Roster.candidates, suggestions_eq_take, ranking_congr query (Roster.ids_perm p),
    (Roster.ids_perm p).countP_eq, suggestionCount]

theorem suggestions_of_resolve (h : resolve p aliases settings query = .ok r)
    (hr : r.confidence.lt .one) :
    r.suggestions = (ranking query p.ids).take (suggestionCount p settings query) := by
  obtain ⟨-, -, rfl⟩ := resolve_eq_ok_iff.1 h
  rw [Resolution.suggestions_answer hr, suggested_eq_take]

/-- A greater limit and a smaller least score allow more suggestions. -/
theorem suggestionCount_mono {s t : Settings} (hlimit : s.maxSuggestions ≤ t.maxSuggestions)
    (hleast : t.minScore.le s.minScore) :
    suggestionCount p s query ≤ suggestionCount p t query := by
  have hcount : p.ids.countP (reaches query s.minScore) ≤
      p.ids.countP (reaches query t.minScore) :=
    List.countP_mono_left fun id _ h => Binary64.le_trans hleast h
  unfold suggestionCount
  omega

/-- Every score reaches zero. -/
theorem suggestionCount_of_zero (h : settings.minScore.numericallyEq .zero) :
    suggestionCount p settings query = min settings.maxSuggestions p.size := by
  have hall : p.ids.countP (reaches query settings.minScore) = p.ids.length :=
    List.countP_eq_length.2 fun id _ => Binary64.le_ofMagnitude_of_numericallyEq_zero h _
  rw [suggestionCount, hall, Policy.ids, List.length_map, Policy.size]

theorem length_ranking (query : String) (p : Policy) : (ranking query p.ids).length = p.size := by
  rw [(ranking_perm query p.ids).length_eq, Policy.ids, List.length_map, Policy.size]

/-- Without aliases and the substring tier nothing certain is found for a text
that is not an identifier. -/
theorem lt_one_of_resolve_unknown (hunknown : ∀ id ∈ p.ids, id.text ≠ query)
    (hallow : settings.allowSubstring = false) (h : resolve p none settings query = .ok r) :
    r.confidence.lt .one := by
  obtain ⟨-, -, rfl⟩ := resolve_eq_ok_iff.1 h
  rw [Resolution.answer_of_find?_none (Roster.find?_eq_none_iff.2 hunknown),
    Resolution.untrusted_of_none rfl fun hallow' => absurd hallow' (hallow ▸ Bool.false_ne_true)]
  rfl

end

/-- **Suggestions are the exact start of the ranking.** The ranking lists every
declared identifier once, by score and then by text, the score being the greatest
similarity to the identifier or a segment of it. A similarity is one minus a
distance that is at most one. An answer of less than full confidence suggests as
many identifiers from the front as the limit and the least score allow. So
stricter settings only shorten the list, and with the least score zero the limit
alone does. -/
theorem suggestions_exact (p : Policy) (query : String) :
    (ranking query p.ids).Perm p.ids ∧ (ranking query p.ids).Pairwise (RanksBefore query) ∧
      (∀ id : ModuleId,
        (∃ text ∈ id.comparedTexts, similarity (lowercase query) text = id.score query) ∧
          ∀ text ∈ id.comparedTexts,
            (similarity (lowercase query) text).code ≤ (id.score query).code) ∧
      (∀ a b : String, 0 < max a.length b.length →
        similarity a b = (relativeDistance a b).complement ∧
          (relativeDistance a b).code ≤ Magnitude.one.code) ∧
      (∀ aliases settings, settings.validate = .ok () → query ≠ "" →
        ∃ r, resolve p aliases settings query = .ok r ∧ (r.confidence.lt .one →
          r.suggestions = (ranking query p.ids).take
            (min settings.maxSuggestions (p.ids.countP (reaches query settings.minScore))))) ∧
      (∀ aliases₁ aliases₂ s₁ s₂ r₁ r₂, resolve p aliases₁ s₁ query = .ok r₁ →
        resolve p aliases₂ s₂ query = .ok r₂ → r₁.confidence.lt .one → r₂.confidence.lt .one →
          s₁.maxSuggestions ≤ s₂.maxSuggestions → s₂.minScore.le s₁.minScore →
            r₁.suggestions <+: r₂.suggestions) ∧
      ∀ aliases settings r, resolve p aliases settings query = .ok r → r.confidence.lt .one →
        settings.minScore.numericallyEq .zero →
          r.suggestions.length = min settings.maxSuggestions p.size := by
  refine ⟨ranking_perm query p.ids, pairwise_ranking query p.nodup_ids, score_greatest query,
    fun a b => similarity_eq, ?_, ?_, ?_⟩
  · intro aliases settings hvalid hne
    have h : resolve p aliases settings query = .ok _ := resolve_of_ne hvalid hne
    exact ⟨_, h, suggestions_of_resolve h⟩
  · intro aliases₁ aliases₂ s₁ s₂ r₁ r₂ h₁ h₂ hr₁ hr₂ hlimit hleast
    rw [suggestions_of_resolve h₁ hr₁, suggestions_of_resolve h₂ hr₂]
    exact List.take_prefix_take_left (suggestionCount_mono hlimit hleast)
  · intro aliases settings r h hr hzero
    rw [suggestions_of_resolve h hr, suggestionCount_of_zero hzero, List.length_take,
      length_ranking, Nat.min_assoc, Nat.min_self]

/-! Two modules of a shop, and a query that is neither of them. -/

def shopPolicy : Policy :=
  .ofList [(⟨"shop/cart", by decide⟩, {}), (⟨"shop/till", by decide⟩, {})]

/-- No more than one suggestion. -/
def oneSuggestion : Settings := { maxSuggestions := 1 }

/-- Neither module is called a card, so nothing certain is found. -/
theorem lt_one_of_resolve_card {settings : Settings} {r : Resolution}
    (hallow : settings.allowSubstring = false)
    (h : resolve shopPolicy none settings "card" = .ok r) : r.confidence.lt .one :=
  lt_one_of_resolve_unknown (by decide) hallow h

theorem suggestions_exact_shop :
    ∃ r₁ r₂, resolve shopPolicy none oneSuggestion "card" = .ok r₁ ∧
      resolve shopPolicy none .strict "card" = .ok r₂ ∧
        r₁.suggestions <+: r₂.suggestions ∧ r₁.suggestions.length = 1 ∧
          r₂.suggestions.length = 2 := by
  obtain ⟨-, -, -, -, exists_resolve, start, length⟩ := suggestions_exact shopPolicy "card"
  obtain ⟨r₁, h₁, -⟩ := exists_resolve none oneSuggestion rfl (by decide)
  obtain ⟨r₂, h₂, -⟩ := exists_resolve none .strict rfl (by decide)
  have hr₁ := lt_one_of_resolve_card rfl h₁
  have hr₂ := lt_one_of_resolve_card rfl h₂
  exact ⟨r₁, r₂, h₁, h₂, start none none _ _ r₁ r₂ h₁ h₂ hr₁ hr₂ (by decide) (by decide),
    length none _ r₁ h₁ hr₁ (by decide), length none _ r₂ h₂ hr₂ (by decide)⟩

end ModulePolicy
