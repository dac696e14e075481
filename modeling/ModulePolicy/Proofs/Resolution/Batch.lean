/-
# Batches against single resolutions

A batch is validated in two rounds: first the early answers, then the late ones
for the queries that are left. The report is still the one that the resolutions
of the single queries make up (`BatchReport.MadeUpBy`):

| part | content, in the order of the batch |
| --- | --- |
| `resolved` | the queries with a certain resolution, with its module |
| `rejected` | all others, with the reason and the suggestions of the resolution |

There is no report only if some query is empty (`validateBatch_agrees`).
-/

import ModulePolicy.Proofs.Resolution.Answer
import ModulePolicy.Proofs.Workspace.Reachable

namespace ModulePolicy

/-- The report that given resolutions of the queries of a batch make up. The
reason for a rejection is never asked of an exact or substring answer. -/
structure BatchReport.MadeUpBy (report : BatchReport) (queries : List String)
    (res : String → Resolution) : Prop where
  resolved : report.resolved.map (fun e => (e.1, some e.2)) =
    (queries.filter fun q => (res q).isCertain).map fun q => (q, (res q).canonical?)
  rejected : report.rejected = (queries.filter fun q => !(res q).isCertain).map fun q =>
    ⟨q, Rejection.reason q (res q), (res q).suggestions⟩
  isValid : report.isValid = true ↔ ∀ q ∈ queries, (res q).isCertain = true
  tier : ∀ q ∈ queries, (res q).isCertain = false →
    (res q).tier = .aliased ∨ (res q).tier = .fuzzy

/-- The answer to a batch is the fault of an empty query if there is one, else
the report that the single resolutions without the substring tier make up. -/
structure AgreesWithResolve (p : Policy) (aliases : Option AliasTable) (settings : Settings)
    (queries : List String) (answer : Except QueryFault BatchReport) : Prop where
  emptyQuery_iff : answer = .error .emptyQuery ↔ "" ∈ queries
  report : "" ∉ queries → ∃ report res, answer = .ok report ∧
    (∀ q ∈ queries,
      resolve p aliases { settings with allowSubstring := false } q = .ok (res q)) ∧
    report.MadeUpBy queries res

open Resolution

section

variable {roster : Roster} {aliases : Option AliasTable} {settings : Settings}
  {queries : List String}

namespace Resolution

/-- The module of an early answer. -/
def trustedModule? (roster : Roster) (aliases : Option AliasTable) (query : String) :
    Option ModuleId :=
  (trusted? roster aliases query).bind (·.canonical?)

/-- An early answer names its module. -/
theorem isSome_trustedModule? (roster : Roster) (aliases : Option AliasTable) (query : String) :
    (trustedModule? roster aliases query).isSome = (trusted? roster aliases query).isSome := by
  unfold trustedModule?
  cases h : trusted? roster aliases query with
  | none => rfl
  | some r =>
    obtain ⟨-, id, hid⟩ := certain_of_trusted? h
    exact congrArg Option.isSome hid

theorem isCertain_answer_eq_isSome (query : String) :
    (answer roster aliases settings query).isCertain =
      (trustedModule? roster aliases query).isSome :=
  isCertain_answer.trans (isSome_trustedModule? roster aliases query).symm

/-- The module of an early answer is that of the answer. -/
theorem canonical?_answer {query : String} {id : ModuleId}
    (h : trustedModule? roster aliases query = some id) :
    (answer roster aliases settings query).canonical? = some id := by
  obtain ⟨r, hr, hid⟩ := Option.bind_eq_some_iff.1 h
  rwa [answer_of_trusted? hr]

/-- Without an early answer the late one is the answer. -/
theorem answer_of_trustedModule?_none {query : String}
    (h : trustedModule? roster aliases query = none) :
    answer roster aliases settings query = untrusted roster aliases settings query := by
  cases ht : trusted? roster aliases query with
  | none => exact answer_of_trusted?_none ht
  | some r =>
    have hsome := isSome_trustedModule? roster aliases query
    rw [h, ht] at hsome
    cases hsome

/-- Without the substring tier a late answer is an alias or fuzzy. -/
theorem tier_untrusted (hallow : settings.allowSubstring = false) (query : String) :
    (untrusted roster aliases settings query).tier = .aliased ∨
      (untrusted roster aliases settings query).tier = .fuzzy := by
  cases hentry : aliasEntry? aliases query with
  | some entry => exact .inl (by rw [untrusted_of_alias hentry]; rfl)
  | none =>
    rw [untrusted_of_none hentry fun h => absurd (hallow.symm.trans h) Bool.false_ne_true]
    exact .inr rfl

end Resolution

theorem triage_of_mem (h : "" ∈ queries) : triage roster aliases queries = .error .emptyQuery := by
  induction queries with
  | nil => exact absurd h List.not_mem_nil
  | cons q queries ih =>
    unfold triage
    by_cases hq : q = ""
    · rw [if_pos hq]
    · rw [if_neg hq, ih ((List.mem_cons.1 h).resolve_left (Ne.symm hq))]

/-- **The first round** sorts the batch by whether there is an early answer,
each part in the order of the batch. -/
theorem triage_of_not_mem (h : "" ∉ queries) :
    triage roster aliases queries =
      .ok (queries.filterMap fun q => (trustedModule? roster aliases q).map (q, ·),
        queries.filter fun q => (trustedModule? roster aliases q).isNone) := by
  induction queries with
  | nil => rfl
  | cons q queries ih =>
    obtain ⟨hq, hqueries⟩ := List.ne_and_not_mem_of_not_mem_cons h
    unfold triage
    rw [if_neg (Ne.symm hq), ih hqueries]
    cases hid : trustedModule? roster aliases q with
    | none =>
      have hbind : (trusted? roster aliases q).bind (·.canonical?) = none := hid
      simp only [hbind, hid, List.filterMap_cons, Option.map_none, List.filter_cons,
        Option.isNone_none, if_true]
    | some id =>
      have hbind : (trusted? roster aliases q).bind (·.canonical?) = some id := hid
      simp only [hbind, hid, List.filterMap_cons, Option.map_some, List.filter_cons,
        Option.isNone_some, Bool.false_eq_true, if_false]

/-- **The report of a batch** without empty queries, in terms of the answers. -/
theorem validateBatch_of_not_mem (h : "" ∉ queries) :
    validateBatch roster aliases settings queries = .ok
      ⟨(queries.filter fun q => (trustedModule? roster aliases q).isNone).map fun q =>
          .ofResolution q (answer roster aliases { settings with allowSubstring := false } q),
        queries.filterMap fun q => (trustedModule? roster aliases q).map (q, ·)⟩ := by
  unfold validateBatch
  rw [triage_of_not_mem h]
  refine congrArg (fun rejected => Except.ok (BatchReport.mk rejected _)) ?_
  refine List.map_congr_left fun q hq => ?_
  rw [answer_of_trustedModule?_none (Option.isNone_iff_eq_none.1 (List.mem_filter.1 hq).2)]

section MadeUpBy

variable (hallow : settings.allowSubstring = false)

theorem map_resolved (queries : List String) :
    (queries.filterMap fun q => (trustedModule? roster aliases q).map (q, ·)).map
        (fun e => (e.1, some e.2)) =
      (queries.filter fun q => (answer roster aliases settings q).isCertain).map fun q =>
        (q, (answer roster aliases settings q).canonical?) := by
  induction queries with
  | nil => rfl
  | cons q queries ih =>
    cases hid : trustedModule? roster aliases q with
    | none =>
      have hcertain : (answer roster aliases settings q).isCertain = false := by
        rw [isCertain_answer_eq_isSome, hid]
        rfl
      simpa [hid, hcertain] using ih
    | some id =>
      have hcertain : (answer roster aliases settings q).isCertain = true := by
        rw [isCertain_answer_eq_isSome, hid]
        rfl
      simpa [hid, hcertain, canonical?_answer hid] using ih

include hallow

/-- **What the two rounds report is what the answers make up.** -/
theorem madeUpBy_answer (queries : List String) :
    BatchReport.MadeUpBy
      ⟨(queries.filter fun q => (trustedModule? roster aliases q).isNone).map fun q =>
          .ofResolution q (answer roster aliases settings q),
        queries.filterMap fun q => (trustedModule? roster aliases q).map (q, ·)⟩
      queries (answer roster aliases settings) where
  resolved := map_resolved queries
  rejected := by
    simp only [isCertain_answer_eq_isSome, Option.not_isSome]
    rfl
  isValid := by
    simp only [BatchReport.isValid, List.isEmpty_iff, List.map_eq_nil_iff, List.filter_eq_nil_iff,
      isCertain_answer_eq_isSome, Option.isNone_iff_eq_none, Option.isSome_iff_ne_none, ne_eq]
  tier q _ hcertain := by
    have hnone : trustedModule? roster aliases q = none := by
      rw [isCertain_answer_eq_isSome] at hcertain
      exact Option.not_isSome_iff_eq_none.1 (Bool.eq_false_iff.1 hcertain)
    rw [answer_of_trustedModule?_none hnone]
    exact tier_untrusted hallow q

end MadeUpBy

/-- A validation with new lookups agrees with resolution. -/
theorem agreesWithResolve_validateBatch (hvalid : settings.validate = .ok ()) (p : Policy)
    (aliases : Option AliasTable) (queries : List String) :
    AgreesWithResolve p aliases settings queries
      (validateBatch (.ofPolicy p) aliases settings queries) where
  emptyQuery_iff := by
    constructor
    · intro h
      by_contra hempty
      rw [validateBatch_of_not_mem hempty] at h
      cases h
    · intro hempty
      rw [validateBatch, triage_of_mem hempty]
  report hempty := by
    have hoff : Settings.validate { settings with allowSubstring := false } = .ok () := hvalid
    refine ⟨_, _, validateBatch_of_not_mem hempty, fun q hq => ?_, madeUpBy_answer rfl queries⟩
    exact resolve_of_ne hoff fun h => hempty (h ▸ hq)

end

/-- **Batches agree with single resolutions.** With new lookups, through the
shared cache and through the cache of any resolver after any run of commands, a
batch is refused if one of its queries is empty, and else its report is what the
resolutions of its queries without the substring tier make up. -/
theorem validateBatch_agrees [PatternEngine] {settings : Settings}
    (hvalid : settings.validate = .ok ()) (p : Policy) (aliases : Option AliasTable)
    (queries : List String) :
    AgreesWithResolve p aliases settings queries
        (validateBatch (.ofPolicy p) aliases settings queries) ∧
      ∀ (w : Workspace) policy table stored t, w.Reachable →
        w.policies.get? policy = some stored → w.namedTable? table = some t →
          (∃ answer, (w.perform (.sharedValidate policy table queries)).1 = .report answer ∧
            AgreesWithResolve stored.content (t.map (·.content)) .strict queries answer) ∧
          ∀ resolver r, w.resolvers.get? resolver = some r →
            ∃ answer,
              (w.perform (.validate resolver policy table queries)).1 = .report answer ∧
              AgreesWithResolve stored.content (t.map (·.content)) r.settings queries answer := by
  refine ⟨agreesWithResolve_validateBatch hvalid p aliases queries, ?_⟩
  intro w policy table stored t hw hp ht
  refine ⟨⟨_, hw.sharedValidate_fst hp ht queries, ?_⟩, fun resolver r hr => ?_⟩
  · exact agreesWithResolve_validateBatch rfl stored.content _ queries
  · exact ⟨_, hw.validate_fst hp ht hr queries,
      agreesWithResolve_validateBatch r.valid stored.content _ queries⟩

/-! A resolver that allows substrings still rejects an alias of less than full
confidence in a batch. -/

def payId : ModuleId := ⟨"billing/pay", by decide⟩

/-- An alias with confidence `0.5`. -/
def payEntry : AliasEntry :=
  { canonical := payId, confidence := .ofMagnitude (.ofCode 0x3FE0000000000000) }

def payCommands : List Command :=
  [.newPolicy "policy" [(payId, {})], .newTable "table" [("pay", payEntry)],
    .newResolver "resolver" .permissive]

theorem validateBatch_agrees_pay :
    ∃ report, ((({} : Workspace).after payCommands).perform
        (.validate "resolver" "policy" (some "table") ["billing/pay", "pay"])).1 =
          .report (.ok report) ∧
      ∃ res : String → Resolution, res "billing/pay" = .exact payId ∧
        (res "pay").tier = .aliased ∧ (res "pay").isCertain = false ∧
          report.MadeUpBy ["billing/pay", "pay"] res := by
  obtain ⟨-, cached⟩ := validateBatch_agrees (show Settings.validate .strict = .ok () from rfl)
    .empty none ["billing/pay", "pay"]
  obtain ⟨-, own⟩ := cached (({} : Workspace).after payCommands) "policy" (some "table")
    ⟨1, .ofList [(payId, {})]⟩ (some ⟨1, .ofList [("pay", payEntry)]⟩) ⟨_, rfl⟩ rfl rfl
  obtain ⟨answer, hanswer, hagrees⟩ := own "resolver" ⟨.permissive, rfl, .empty⟩ rfl
  obtain ⟨report, res, rfl, hres, hreport⟩ := hagrees.report (by decide)
  have hexact := (hres "billing/pay" (by decide)).symm.trans (resolve_of_ne rfl (by decide))
  have hweak := (hres "pay" (by decide)).symm.trans (resolve_of_ne rfl (by decide))
  rw [answer_of_find? (Roster.find?_eq_some_iff.2 (show payId ∈ _ ∧ _ by decide))] at hexact
  rw [answer_of_find?_none (Roster.find?_eq_none_iff.2 (by decide)),
    untrusted_of_alias (show aliasEntry? _ _ = some payEntry from rfl)] at hweak
  refine ⟨report, hanswer, res, Except.ok.inj hexact, ?_, ?_, hreport⟩
  · rw [Except.ok.inj hweak]
    rfl
  · rw [Except.ok.inj hweak]
    decide

end ModulePolicy
