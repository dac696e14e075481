/-
# Suggestions repair a batch

Strict validation asks for no score, so as long as a policy declares anything,
whatever it rejects gets a suggestion. A suggestion is a declared identifier, and
as a query it is answered by itself, even if it is an alias as well. So a batch is
repaired by putting for each rejected query one of its suggestions, whichever it
is (`suggestions_repair_batches`):

| query | in the repaired batch | resolves to |
| --- | --- | --- |
| not rejected | stays (`Mends.kept`) | what it did before (`Settles.kept`) |
| rejected | a suggestion (`Mends.replaced`) | that suggestion (`Settles.replaced`) |
-/

import ModulePolicy.Proofs.Resolution.Batch
import ModulePolicy.Proofs.Resolution.WellFormed

namespace ModulePolicy

namespace BatchReport

/-- What stands for a query in a repaired batch. -/
inductive Mends (report : BatchReport) : String → String → Prop
  | kept {query : String} : (∀ r ∈ report.rejected, r.query ≠ query) → Mends report query query
  | replaced {r : Rejection} {id : ModuleId} : r ∈ report.rejected → id ∈ r.suggestions →
      Mends report r.query id.text

/-- What the place of a query resolves to in a repaired batch. -/
inductive Settles (report : BatchReport) : String → String × ModuleId → Prop
  | kept {query : String} {id : ModuleId} : (query, id) ∈ report.resolved →
      Settles report query (query, id)
  | replaced {r : Rejection} {id : ModuleId} : r ∈ report.rejected → id ∈ r.suggestions →
      Settles report r.query (id.text, id)

/-- Every rejected query has suggestions, and any of them repairs it. -/
structure Repairable (report : BatchReport) (p : Policy) (aliases : Option AliasTable)
    (queries : List String) : Prop where
  suggestions_ne_nil : ∀ r ∈ report.rejected, r.suggestions ≠ []
  suggestible : ∀ r ∈ report.rejected, Suggestible p 5 r.suggestions
  repair : ∀ repaired, List.Forall₂ report.Mends queries repaired →
    ∃ resolved, validateBatch (.ofPolicy p) aliases .strict repaired = .ok ⟨[], resolved⟩ ∧
      List.Forall₂ report.Settles queries resolved ∧ resolved.map (·.1) = repaired

end BatchReport

open Resolution

section

variable {roster : Roster} {aliases : Option AliasTable} {settings : Settings}
  {queries : List String}

/-- **A batch of early answers is accepted,** each query with its module. -/
theorem validateBatch_of_trusted {entries : List (String × ModuleId)}
    (hne : ∀ e ∈ entries, e.1 ≠ "")
    (htrusted : ∀ e ∈ entries, trustedModule? roster aliases e.1 = some e.2) :
    validateBatch roster aliases settings (entries.map (·.1)) = .ok ⟨[], entries⟩ := by
  have hempty : "" ∉ entries.map (·.1) := fun h => by
    obtain ⟨e, he, htext⟩ := List.mem_map.1 h
    exact hne e he htext
  have hrejected : (entries.map (·.1)).filter
      (fun q => (trustedModule? roster aliases q).isNone) = [] := by
    refine List.filter_eq_nil_iff.2 (List.forall_mem_map.2 fun e he => ?_)
    rw [htrusted e he]
    exact Bool.false_ne_true
  have hresolved : (entries.map (·.1)).filterMap
      (fun q => (trustedModule? roster aliases q).map (q, ·)) = entries := by
    rw [List.filterMap_map]
    refine (List.filterMap_congr fun e he => ?_).trans List.filterMap_some
    simp only [Function.comp_apply, htrusted e he, Option.map_some]
  rw [validateBatch_of_not_mem hempty, hrejected, hresolved, List.map_nil]

variable {report : BatchReport}
  (hreport : validateBatch roster aliases settings queries = .ok report)

include hreport

theorem not_mem_of_validateBatch : "" ∉ queries := fun h => by
  rw [validateBatch, triage_of_mem h] at hreport
  cases hreport

/-- **What is resolved** are the queries with an early answer. -/
theorem mem_resolved_iff {query : String} {id : ModuleId} :
    (query, id) ∈ report.resolved ↔
      query ∈ queries ∧ trustedModule? roster aliases query = some id := by
  rw [validateBatch_of_not_mem (not_mem_of_validateBatch hreport)] at hreport
  obtain rfl := Except.ok.inj hreport
  simp only [List.mem_filterMap, Option.map_eq_some_iff, Prod.mk.injEq]
  constructor
  · rintro ⟨q, hq, _, hid, rfl, rfl⟩
    exact ⟨hq, hid⟩
  · rintro ⟨hq, hid⟩
    exact ⟨query, hq, id, hid, rfl, rfl⟩

/-- **What is rejected** are the queries without an early answer. -/
theorem mem_rejected_iff {r : Rejection} :
    r ∈ report.rejected ↔
      ∃ query ∈ queries, trustedModule? roster aliases query = none ∧
        r = .ofResolution query
          (answer roster aliases { settings with allowSubstring := false } query) := by
  rw [validateBatch_of_not_mem (not_mem_of_validateBatch hreport)] at hreport
  obtain rfl := Except.ok.inj hreport
  simp only [List.mem_map, List.mem_filter, Option.isNone_iff_eq_none]
  constructor
  · rintro ⟨q, ⟨hq, hnone⟩, rfl⟩
    exact ⟨q, hq, hnone, rfl⟩
  · rintro ⟨q, hq, hnone, rfl⟩
    exact ⟨q, ⟨hq, hnone⟩, rfl⟩

end

section

variable {p : Policy} {aliases : Option AliasTable} {settings : Settings} {query : String}

/-- **A declared identifier is answered by itself,** whatever aliases there are. -/
theorem trustedModule?_of_mem {id : ModuleId} (hid : id ∈ p.ids) :
    trustedModule? (.ofPolicy p) aliases id.text = some id := by
  have hfind : (Roster.ofPolicy p).find? id.text = some id := Roster.find?_eq_some_iff.2 ⟨hid, rfl⟩
  simp only [trustedModule?, trusted?, hfind, Option.bind_some, canonical?]

/-- A query without an early answer gets what is suggested for it. -/
theorem suggestions_of_trustedModule?_none
    (h : trustedModule? (.ofPolicy p) aliases query = none) :
    (answer (.ofPolicy p) aliases settings query).suggestions =
      suggested (.ofPolicy p) settings query := by
  have hwf := wellFormed_answer aliases settings query p
  have hcertain : ¬ (answer (.ofPolicy p) aliases settings query).isCertain := by
    rw [isCertain_answer_eq_isSome, h]
    exact Bool.false_ne_true
  refine suggestions_answer ?_
  rcases Binary64.lt_one_or_eq_one_of_le hwf.confidence_le_one with hlt | hone
  · exact hlt
  · exact absurd (hwf.isCertain_iff.2 hone) hcertain

/-- **Without a least score there is always a suggestion.** -/
theorem suggested_ne_nil (hp : p.ids ≠ []) (hlimit : 0 < settings.maxSuggestions)
    (hleast : settings.minScore.numericallyEq .zero) :
    suggested (.ofPolicy p) settings query ≠ [] := by
  have hsize : 0 < p.size := by
    rw [Policy.size, ← List.length_map (f := (·.1))]
    exact List.length_pos_iff.2 hp
  have hlength : (suggested (.ofPolicy p) settings query).length =
      min settings.maxSuggestions p.size := by
    rw [suggested_eq_take, suggestionCount_of_zero hleast, List.length_take, length_ranking,
      Nat.min_assoc, Nat.min_self]
  exact List.ne_nil_of_length_pos (by omega)

end

section

variable {p : Policy} {aliases : Option AliasTable} {queries : List String} {report : BatchReport}
  (hreport : validateBatch (.ofPolicy p) aliases .strict queries = .ok report)

include hreport

/-- What is suggested with a rejection. -/
theorem suggestions_of_mem_rejected {r : Rejection} (hr : r ∈ report.rejected) :
    ∃ query, r.suggestions = suggested (.ofPolicy p) .strict query := by
  obtain ⟨query, -, hnone, rfl⟩ := (mem_rejected_iff hreport).1 hr
  exact ⟨query, suggestions_of_trustedModule?_none hnone⟩

theorem suggestible_of_mem_rejected {r : Rejection} (hr : r ∈ report.rejected) :
    Suggestible p 5 r.suggestions := by
  obtain ⟨query, hquery⟩ := suggestions_of_mem_rejected hreport hr
  exact hquery ▸ suggestible_suggested p .strict query

/-- What the place of a query resolves to is an early answer. -/
theorem trustedModule?_of_settles {query : String} {e : String × ModuleId}
    (h : report.Settles query e) :
    e.1 ≠ "" ∧ trustedModule? (.ofPolicy p) aliases e.1 = some e.2 := by
  cases h with
  | kept hmem =>
    obtain ⟨hquery, hid⟩ := (mem_resolved_iff hreport).1 hmem
    exact ⟨fun hempty => not_mem_of_validateBatch hreport (hempty ▸ hquery), hid⟩
  | replaced hr hid =>
    have hdeclared := (suggestible_of_mem_rejected hreport hr).declared _ hid
    exact ⟨ModuleId.text_ne_empty _, trustedModule?_of_mem hdeclared⟩

/-- A text that stands for a query of the batch resolves to something. -/
theorem exists_settles_of_mends {query text : String} (hquery : query ∈ queries)
    (h : report.Mends query text) :
    ∃ e : String × ModuleId, report.Settles query e ∧ e.1 = text := by
  cases h with
  | replaced hr hid => exact ⟨_, .replaced hr hid, rfl⟩
  | kept hnot =>
    cases htrusted : trustedModule? (.ofPolicy p) aliases query with
    | some id => exact ⟨_, .kept ((mem_resolved_iff hreport).2 ⟨hquery, htrusted⟩), rfl⟩
    | none =>
      have hrejected := (mem_rejected_iff hreport).2 ⟨query, hquery, htrusted, rfl⟩
      exact absurd rfl (hnot _ hrejected)

/-- **A batch that is repaired place by place is accepted.** -/
theorem validateBatch_of_mends {repaired : List String}
    (h : List.Forall₂ report.Mends queries repaired) :
    ∃ resolved, validateBatch (.ofPolicy p) aliases .strict repaired = .ok ⟨[], resolved⟩ ∧
      List.Forall₂ report.Settles queries resolved ∧ resolved.map (·.1) = repaired := by
  obtain ⟨resolved, hsettles, rfl⟩ := exists_map_of_forall₂ h fun query hquery text hmends =>
    exists_settles_of_mends hreport hquery hmends
  have htrusted : ∀ e ∈ resolved,
      e.1 ≠ "" ∧ trustedModule? (.ofPolicy p) aliases e.1 = some e.2 := fun e he => by
    obtain ⟨query, -, he⟩ := exists_mem_of_forall₂ hsettles he
    exact trustedModule?_of_settles hreport he
  refine ⟨resolved, validateBatch_of_trusted ?_ ?_, hsettles, rfl⟩
  · exact fun e he => (htrusted e he).1
  · exact fun e he => (htrusted e he).2

end

/-- **Suggestions repair a batch.** Under a policy that declares something, a
batch without empty queries has a report in which every rejection has
suggestions: different declared identifiers, five of them at most. Put for each
rejected query any of its suggestions, and the batch is accepted; the places that
were changed resolve to the suggestions, all others as before. Validation through
the shared cache gives the same reports, after any run of commands. -/
theorem suggestions_repair_batches [PatternEngine] {p : Policy} (hp : p.ids ≠ [])
    (aliases : Option AliasTable) {queries : List String} (hqueries : "" ∉ queries) :
    (∃ report, validateBatch (.ofPolicy p) aliases .strict queries = .ok report ∧
      report.Repairable p aliases queries) ∧
      ∀ (w : Workspace) policy table stored t, w.Reachable →
        w.policies.get? policy = some stored → w.namedTable? table = some t →
          stored.content = p → t.map (·.content) = aliases → ∀ batch,
            (w.perform (.sharedValidate policy table batch)).1 =
              .report (validateBatch (.ofPolicy p) aliases .strict batch) := by
  constructor
  · have hreport : validateBatch (.ofPolicy p) aliases .strict queries = .ok _ :=
      validateBatch_of_not_mem hqueries
    refine ⟨_, hreport, ?_, fun r hr => suggestible_of_mem_rejected hreport hr,
      fun repaired => validateBatch_of_mends hreport⟩
    intro r hr
    obtain ⟨query, hquery⟩ := suggestions_of_mem_rejected hreport hr
    exact hquery ▸ suggested_ne_nil hp (by decide) (by decide)
  · rintro w policy table stored t hw hstored ht rfl rfl batch
    exact hw.sharedValidate_fst hstored ht batch

/-! In a batch stands an alias of no confidence, beside one of full confidence
for a module that the policy does not declare. The first is repaired by what is
suggested for it, and the second stays. -/

def kitchenPolicy : Policy := .ofList [(⟨"kitchen/sink", by decide⟩, {})]

def drainId : ModuleId := ⟨"plumbing/drain", by decide⟩

def kitchenAliases : AliasTable :=
  .ofList [("sink", { canonical := drainId, confidence := .nan }),
    ("drain", { canonical := drainId })]

theorem suggestions_repair_batches_kitchen :
    ∃ report, validateBatch (.ofPolicy kitchenPolicy) (some kitchenAliases) .strict
        ["sink", "drain"] = .ok report ∧ report.rejected.map (·.query) = ["sink"] ∧
      ∃ resolved, validateBatch (.ofPolicy kitchenPolicy) (some kitchenAliases) .strict
          ["kitchen/sink", "drain"] = .ok ⟨[], resolved⟩ ∧
        resolved.map (·.1) = ["kitchen/sink", "drain"] := by
  obtain ⟨⟨report, hreport, hrepairable⟩, -⟩ := suggestions_repair_batches
    (show kitchenPolicy.ids ≠ [] by decide) (some kitchenAliases)
    (show "" ∉ ["sink", "drain"] by decide)
  have hsink : trustedModule? (.ofPolicy kitchenPolicy) (some kitchenAliases) "sink" = none := by
    decide +kernel
  have hdrain : trustedModule? (.ofPolicy kitchenPolicy) (some kitchenAliases) "drain" =
      some drainId := by decide +kernel
  have hrejected : report.rejected.map (·.query) = ["sink"] := by
    rw [validateBatch_of_not_mem (by decide)] at hreport
    obtain rfl := Except.ok.inj hreport
    simp only [List.filter_cons, List.filter_nil, hsink, hdrain, Option.isNone_none,
      Option.isNone_some, if_true, Bool.false_eq_true, if_false]
    rfl
  -- the one module that is declared is all that can be suggested
  obtain ⟨r, hr, hquery⟩ := List.mem_map.1 (hrejected ▸ List.mem_singleton_self "sink")
  obtain ⟨id, hid⟩ := List.exists_mem_of_ne_nil _ (hrepairable.suggestions_ne_nil r hr)
  have hdeclared : id ∈ kitchenPolicy.ids := (hrepairable.suggestible r hr).declared id hid
  have htext : id.text = "kitchen/sink" := congrArg ModuleId.text (List.mem_singleton.1 hdeclared)
  have hkept : ∀ r ∈ report.rejected, r.query ≠ "drain" := fun r hr heq => by
    have hmem : "drain" ∈ report.rejected.map (·.query) := List.mem_map.2 ⟨r, hr, heq⟩
    rw [hrejected] at hmem
    exact absurd hmem (by decide)
  obtain ⟨resolved, haccepted, -, htexts⟩ := hrepairable.repair ["kitchen/sink", "drain"]
    (.cons (htext ▸ hquery ▸ .replaced hr hid) (.cons (.kept hkept) .nil))
  exact ⟨report, hreport, hrejected, resolved, haccepted, htexts⟩

end ModulePolicy
