/-
# What is suggested first

The settings of a resolver may keep suggestions out by a least score, but only one
that a perfect score reaches, and they allow for one suggestion at least. So the
first of the ranking is suggested whenever its score is perfect. It is if any
identifier has the query for a name, case set aside, and then it is the smallest of
these (`named_is_suggested_first`).
-/

import ModulePolicy.Proofs.Resolution.Suggestions
import ModulePolicy.Proofs.Similarity.PerfectScore

namespace ModulePolicy

section

variable {p : Policy} {settings : Settings} {query : String} {id first : ModuleId}

/-- A perfect score is shown under all settings that may be used. -/
theorem suggestionCount_pos (hvalid : settings.validate = .ok ()) (hid : id ∈ p.ids)
    (hone : id.score query = .one) : 0 < suggestionCount p settings query := by
  obtain ⟨hlimit, -, hleast⟩ := Settings.validate_eq_ok_iff.1 hvalid
  have hreaches : reaches query settings.minScore id := by
    rw [reaches, hone]
    exact hleast
  have hcount : 0 < p.ids.countP (reaches query settings.minScore) :=
    List.countP_pos_iff.2 ⟨id, hid, hreaches⟩
  exact Nat.lt_min.2 ⟨hlimit, hcount⟩

/-- The smallest of the identifiers with a perfect score. -/
def BestOf (p : Policy) (query : String) (first : ModuleId) : Prop :=
  first ∈ p.ids ∧ first.score query = .one ∧
    ∀ other ∈ p.ids, other.score query = .one → first.text ≤ other.text

/-- Where scores are perfect, the first of the ranking is the smallest of them. -/
theorem bestOf_of_head?_ranking (h : (ranking query p.ids).head? = some first) (hid : id ∈ p.ids)
    (hone : id.score query = .one) : BestOf p query first := by
  obtain ⟨hmem, hfirst⟩ := head?_ranking query h
  have hperfect : first.score query = .one := by
    have hcode : (id.score query).code ≤ (first.score query).code :=
      Prod.Lex.monotone_fst _ _ (hfirst id hid)
    rw [hone] at hcode
    exact Magnitude.ext (Nat.le_antisymm (score_le_one query first) hcode)
  refine ⟨hmem, hperfect, fun other hother hother_one => ?_⟩
  have hkey := hfirst other hother
  simp only [rankKey, hperfect, hother_one] at hkey
  rcases Prod.Lex.toLex_le_toLex.1 hkey with hlt | ⟨_, htext⟩
  · exact absurd hlt (lt_irrefl _)
  · exact htext

/-- **A perfect score comes first.** -/
theorem head?_suggestions {aliases : Option AliasTable} {r : Resolution}
    (h : resolve p aliases settings query = .ok r) (hr : r.confidence.lt .one)
    (hvalid : settings.validate = .ok ()) (hid : id ∈ p.ids) (hone : id.score query = .one) :
    ∃ first, r.suggestions.head? = some first ∧ BestOf p query first := by
  have hmem : id ∈ ranking query p.ids := (ranking_perm query p.ids).mem_iff.2 hid
  obtain ⟨first, hfirst⟩ :=
    Option.isSome_iff_exists.1 (List.isSome_head?.2 (List.ne_nil_of_mem hmem))
  refine ⟨first, ?_, bestOf_of_head?_ranking hfirst hid hone⟩
  rw [suggestions_of_resolve h hr, List.head?_take,
    if_neg (suggestionCount_pos hvalid hid hone).ne', hfirst]

end

/-- **Who is named is suggested first.** Among texts of less than `2^53` characters
exactly the identifiers that have the query for a name score one, case set aside, and
all others score less, but not below zero: a score is one minus a relative distance
that is at most one. An answer of less than full confidence then suggests the smallest
of those with the score one before all else. -/
theorem named_is_suggested_first {p : Policy} {settings : Settings} {query : String}
    (aliases : Option AliasTable) (hvalid : settings.validate = .ok ()) (hquery : query ≠ "")
    (hlength : query.length < 0x20000000000000)
    (hids : ∀ id ∈ p.ids, id.text.length < 0x20000000000000) :
    (∀ id ∈ p.ids, (id.score query = .one ↔
        lowercase id.text = lowercase query ∨ ∃ s ∈ id.segments, lowercase s = lowercase query) ∧
      (∃ text ∈ id.comparedTexts,
        id.score query = (relativeDistance (lowercase query) text).complement ∧
          (relativeDistance (lowercase query) text).code ≤ Magnitude.one.code) ∧
        (id.score query ≠ .one → (Binary64.ofMagnitude (id.score query)).lt .one)) ∧
    ∃ r, resolve p aliases settings query = .ok r ∧
      (r.confidence.lt .one → (∃ id ∈ p.ids, id.score query = .one) →
        ∃ first, r.suggestions.head? = some first ∧ BestOf p query first) := by
  refine ⟨fun id hid => ⟨score_eq_one_iff hlength (hids id hid),
    exists_score_eq_complement hquery id, fun hne => ?_⟩, ?_⟩
  · exact Binary64.ofMagnitude_lt_iff.2 (score_lt_one hne)
  · have h : resolve p aliases settings query = .ok _ := resolve_of_ne hvalid hquery
    exact ⟨_, h, fun hr ⟨id, hid, hone⟩ => head?_suggestions h hr hvalid hid hone⟩

/-! Two tills, one of them in a bakery, and a query that shouts. -/

def kioskTill : ModuleId := ⟨"kiosk/till", by decide⟩

def kioskRack : ModuleId := ⟨"kiosk/rack", by decide⟩

def bakeryTill : ModuleId := ⟨"bakery/till", by decide⟩

def tillPolicy : Policy := .ofList [(kioskTill, {}), (kioskRack, {}), (bakeryTill, {})]

theorem named_is_suggested_first_till :
    ∃ r, resolve tillPolicy none .strict "TILL" = .ok r ∧ r.suggestions.head? = some bakeryTill := by
  have hvalid : Settings.strict.validate = .ok () := rfl
  have hshort : ∀ id ∈ tillPolicy.ids, id.text.length < 0x20000000000000 := by decide
  obtain ⟨scores, r, h, first_of⟩ :=
    named_is_suggested_first none hvalid (by decide : "TILL" ≠ "") (by decide) hshort
  have hr : r.confidence.lt .one := lt_one_of_resolve_unknown (by decide) rfl h
  have hbakery : bakeryTill.score "TILL" = .one :=
    (scores bakeryTill (by decide)).1.2 (.inr ⟨"till", by decide, by decide +kernel⟩)
  obtain ⟨first, hfirst, hmem, hone, hleast⟩ := first_of hr ⟨bakeryTill, by decide, hbakery⟩
  have hids : tillPolicy.ids = [kioskTill, kioskRack, bakeryTill] := rfl
  refine ⟨r, h, hfirst.trans ?_⟩
  rw [hids] at hmem
  rcases List.mem_cons.1 hmem with rfl | hmem
  · exact absurd (hleast bakeryTill (by decide) hbakery) (by decide)
  rcases List.mem_cons.1 hmem with rfl | hmem
  · exact absurd ((scores kioskRack (by decide)).1.1 hone) (by decide +kernel)
  rw [List.mem_singleton.1 hmem]

end ModulePolicy
