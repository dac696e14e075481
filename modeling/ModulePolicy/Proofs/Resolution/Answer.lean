/-
# What a resolution answers

A query that is not empty is answered by `Resolution.answer`: a declared
identifier by itself, anything else by what `Resolution.untrusted` says.

The alias tier is served twice, an alias of full confidence by
`Resolution.trusted?` and every other by `Resolution.untrusted`. Both give the
answer of `Resolution.ofAlias`, so the early one changes nothing
(`untrusted_of_one_le`). What is answered early is what strict validation
accepts (`isCertain_answer`).
-/

import ModulePolicy.Proofs.Collection.List
import ModulePolicy.Proofs.Number.Order
import ModulePolicy.Resolution.Basic

namespace ModulePolicy

namespace Roster

variable {p : Policy} {text : String} {id : ModuleId}

theorem ids_perm (p : Policy) : (ofPolicy p).ids.Perm p.ids := List.mergeSort_perm _ _

theorem mem_ids : id ∈ (ofPolicy p).ids ↔ id ∈ p.ids := List.mem_mergeSort

theorem find?_eq_none_iff : (ofPolicy p).find? text = none ↔ ∀ id ∈ p.ids, id.text ≠ text := by
  simp only [find?, List.find?_eq_none, mem_ids, decide_eq_true_eq, ne_eq]

/-- An identifier is found by its text. -/
theorem find?_eq_some_iff_mem {r : Roster} :
    r.find? text = some id ↔ id ∈ r.ids ∧ id.text = text :=
  find?_key_eq_some_iff ModuleId.text fun _ _ _ _ => ModuleId.ext

theorem find?_eq_some_iff : (ofPolicy p).find? text = some id ↔ id ∈ p.ids ∧ id.text = text := by
  rw [find?_eq_some_iff_mem, mem_ids]

end Roster

namespace Resolution

variable {roster : Roster} {aliases : Option AliasTable} {settings : Settings} {query : String}

/-- What is suggested for a query. -/
def suggested (roster : Roster) (settings : Settings) (query : String) : List ModuleId :=
  ModulePolicy.suggestions query roster.candidates settings.maxSuggestions settings.minScore

/-- The answer to a query that is not empty. -/
def answer (roster : Roster) (aliases : Option AliasTable) (settings : Settings)
    (query : String) : Resolution :=
  match roster.find? query with
  | some id => exact id
  | none => untrusted roster aliases settings query

theorem answer_of_find? {id : ModuleId} (h : roster.find? query = some id) :
    answer roster aliases settings query = exact id := by
  rw [answer, h]

theorem answer_of_find?_none (h : roster.find? query = none) :
    answer roster aliases settings query = untrusted roster aliases settings query := by
  rw [answer, h]

section Untrusted

variable {entry : AliasEntry}

theorem untrusted_of_alias (h : aliasEntry? aliases query = some entry) :
    untrusted roster aliases settings query =
      ofAlias entry.canonical entry.confidence (suggested roster settings query) := by
  simp only [untrusted, h, suggested]

theorem untrusted_of_substring (h : aliasEntry? aliases query = none)
    (hallow : settings.allowSubstring = true) {id : ModuleId}
    (hid : shortestContaining? query roster.candidates = some id) :
    untrusted roster aliases settings query =
      substring id (suggested roster settings query) := by
  simp only [untrusted, h, hallow, if_true, hid, suggested]

theorem untrusted_of_none (h : aliasEntry? aliases query = none)
    (hnone : settings.allowSubstring = true → shortestContaining? query roster.candidates = none) :
    untrusted roster aliases settings query = fuzzy (suggested roster settings query) := by
  cases hallow : settings.allowSubstring with
  | false => simp only [untrusted, h, hallow, Bool.false_eq_true, if_false, suggested]
  | true => simp only [untrusted, h, hallow, if_true, hnone hallow, suggested]

theorem ofAlias_of_one_le (id : ModuleId) {confidence : Binary64}
    (h : Binary64.one.le confidence) (suggestions : List ModuleId) :
    ofAlias id confidence suggestions = aliased id .one [] := by
  have hlt : ¬ Binary64.one.lt .one := by decide
  simp only [ofAlias, Binary64.clampToUnit_of_one_le h, if_neg hlt]

/-- **An alias of full confidence is answered alike early and late.** -/
theorem untrusted_of_one_le (h : aliasEntry? aliases query = some entry)
    (hone : Binary64.one.le entry.confidence) :
    untrusted roster aliases settings query = aliased entry.canonical .one [] :=
  (untrusted_of_alias h).trans (ofAlias_of_one_le _ hone _)

end Untrusted

section Trusted

variable (roster aliases query)

/-- **The early answer** is a declared identifier or an alias of full
confidence, and is missing for all else. -/
theorem trusted?_cases :
    (∃ id, roster.find? query = some id ∧ trusted? roster aliases query = some (exact id)) ∨
    (roster.find? query = none ∧ ∃ entry, aliasEntry? aliases query = some entry ∧
      Binary64.one.le entry.confidence ∧
        trusted? roster aliases query = some (aliased entry.canonical .one [])) ∨
    (roster.find? query = none ∧
      (∀ entry, aliasEntry? aliases query = some entry → ¬ Binary64.one.le entry.confidence) ∧
        trusted? roster aliases query = none) := by
  unfold trusted?
  cases roster.find? query with
  | some id => exact .inl ⟨id, rfl, rfl⟩
  | none =>
    refine .inr ?_
    cases aliasEntry? aliases query with
    | none => exact .inr ⟨rfl, fun _ h => (Option.some_ne_none _ h.symm).elim, rfl⟩
    | some entry =>
      by_cases hone : Binary64.one.le entry.confidence
      · exact .inl ⟨rfl, entry, rfl, hone, if_pos hone⟩
      · exact .inr ⟨rfl, fun _ h => Option.some.inj h ▸ hone, if_neg hone⟩

variable {roster aliases query}

/-- An early answer is the answer. -/
theorem answer_of_trusted? {r : Resolution} (h : trusted? roster aliases query = some r) :
    answer roster aliases settings query = r := by
  rcases trusted?_cases roster aliases query with
    ⟨id, hid, hr⟩ | ⟨hnone, entry, hentry, hone, hr⟩ | ⟨-, -, hr⟩
  · obtain rfl := Option.some.inj (hr.symm.trans h)
    exact answer_of_find? hid
  · obtain rfl := Option.some.inj (hr.symm.trans h)
    exact (answer_of_find?_none hnone).trans (untrusted_of_one_le hentry hone)
  · cases hr.symm.trans h

/-- Without an early answer the late one is the answer. -/
theorem answer_of_trusted?_none (h : trusted? roster aliases query = none) :
    answer roster aliases settings query = untrusted roster aliases settings query := by
  rcases trusted?_cases roster aliases query with ⟨id, -, hr⟩ | ⟨-, entry, -, -, hr⟩ | ⟨hnone, -, -⟩
  · cases hr.symm.trans h
  · cases hr.symm.trans h
  · exact answer_of_find?_none hnone

/-- An early answer is certain and names a module. -/
theorem certain_of_trusted? {r : Resolution} (h : trusted? roster aliases query = some r) :
    r.isCertain = true ∧ ∃ id, r.canonical? = some id := by
  rcases trusted?_cases roster aliases query with
    ⟨id, -, hr⟩ | ⟨-, entry, -, -, hr⟩ | ⟨-, -, hr⟩
  · obtain rfl := Option.some.inj (hr.symm.trans h)
    exact ⟨rfl, id, rfl⟩
  · obtain rfl := Option.some.inj (hr.symm.trans h)
    exact ⟨rfl, entry.canonical, rfl⟩
  · cases hr.symm.trans h

/-- A late answer is not certain. -/
theorem isCertain_untrusted (h : trusted? roster aliases query = none) :
    (untrusted roster aliases settings query).isCertain = false := by
  rcases trusted?_cases roster aliases query with
    ⟨id, -, hr⟩ | ⟨-, entry, -, -, hr⟩ | ⟨-, hweak, -⟩
  · cases hr.symm.trans h
  · cases hr.symm.trans h
  · cases hentry : aliasEntry? aliases query with
    | some entry =>
      rw [untrusted_of_alias hentry]
      exact Bool.and_eq_false_imp.2 fun hone =>
        absurd (Binary64.one_le_clampToUnit_iff.1 hone) (hweak entry hentry)
    | none =>
      simp only [untrusted, hentry]
      split <;> exact Bool.and_false _

/-- **What is answered early is what is certain.** -/
theorem isCertain_answer :
    (answer roster aliases settings query).isCertain =
      (trusted? roster aliases query).isSome := by
  cases h : trusted? roster aliases query with
  | none =>
    rw [answer_of_trusted?_none h]
    exact isCertain_untrusted h
  | some r =>
    rw [answer_of_trusted? h]
    exact (certain_of_trusted? h).1

end Trusted

/-- **A query that is not empty has an answer.** -/
theorem ofQuery_of_ne (h : query ≠ "") :
    ofQuery roster aliases settings query = .ok (answer roster aliases settings query) := by
  unfold ofQuery
  rw [if_neg h]
  cases hr : trusted? roster aliases query with
  | none => rw [answer_of_trusted?_none hr]
  | some r => rw [answer_of_trusted? hr]

/-- **Suggestions come with every answer of less than full confidence.** -/
theorem suggestions_answer (h : (answer roster aliases settings query).confidence.lt .one) :
    (answer roster aliases settings query).suggestions = suggested roster settings query := by
  cases hid : roster.find? query with
  | some id =>
    rw [answer_of_find? hid] at h
    cases h
  | none =>
    rw [answer_of_find?_none hid] at h ⊢
    cases hentry : aliasEntry? aliases query with
    | some entry =>
      rw [untrusted_of_alias hentry] at h ⊢
      exact if_pos h
    | none =>
      simp only [untrusted, hentry]
      split <;> rfl

end Resolution

section Resolve

variable {p : Policy} {aliases : Option AliasTable} {settings : Settings} {query : String}

theorem resolve_of_error {fault : SettingsFault} (h : settings.validate = .error fault) :
    resolve p aliases settings query = .error (.settings fault) := by
  rw [resolve, h]

theorem resolve_empty (h : settings.validate = .ok ()) :
    resolve p aliases settings "" = .error .emptyQuery := by
  rw [resolve, h]
  rfl

/-- **Under valid settings every query but the empty one is answered.** -/
theorem resolve_of_ne (h : settings.validate = .ok ()) (hne : query ≠ "") :
    resolve p aliases settings query =
      .ok (Resolution.answer (.ofPolicy p) aliases settings query) := by
  rw [resolve, h]
  exact Resolution.ofQuery_of_ne hne

theorem resolve_eq_ok_iff {r : Resolution} :
    resolve p aliases settings query = .ok r ↔
      settings.validate = .ok () ∧ query ≠ "" ∧
        r = Resolution.answer (.ofPolicy p) aliases settings query := by
  constructor
  · intro h
    cases hvalid : settings.validate with
    | error fault =>
      rw [resolve_of_error hvalid] at h
      cases h
    | ok _ =>
      have hne : query ≠ "" := by
        rintro rfl
        rw [resolve_empty hvalid] at h
        cases h
      rw [resolve_of_ne hvalid hne] at h
      exact ⟨rfl, hne, (Except.ok.inj h).symm⟩
  · rintro ⟨hvalid, hne, rfl⟩
    exact resolve_of_ne hvalid hne

end Resolve

end ModulePolicy
