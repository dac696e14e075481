/-
# Dangling aliases

The findings of an alias table are about its entries, without any query. They
foretell what resolution will do:

* a query that is no identifier but an alias is answered with the module of the
  entry, declared or not (`Resolution.canonical?_answer_of_alias`), so the alias
  is found to dangle if it is answered with a module that is not declared;
* a module that a query is answered with is declared or that of the entry
  (`Resolution.declared_or_aliased`), since the substring tier only looks at
  declared identifiers. So a table without such a finding leads to declared
  modules only, and these stand for themselves.

An alias that is also an identifier may have a finding and never be followed.
-/

import ModulePolicy.Proofs.Resolution.Content
import ModulePolicy.Proofs.Resolution.Tiers

namespace ModulePolicy

variable {p : Policy} {table : AliasTable} {settings : Settings} {query name : String}
  {id target : ModuleId}

theorem Policy.contains_text_iff : p.contains id.text ↔ id ∈ p.ids := by
  rw [contains_iff]
  constructor
  · rintro ⟨other, hother, htext⟩
    exact ModuleId.ext htext ▸ hother
  · exact fun hid => ⟨id, hid, rfl⟩

namespace AliasTable

theorem danglingTarget_mem_lintEntry_iff {entry : AliasEntry} {key : String} :
    .danglingTarget name target ∈ lintEntry (some p) key entry ↔
      name = key ∧ target = entry.canonical ∧ entry.canonical ∉ p.ids := by
  simp only [lintEntry, List.mem_append, Policy.contains_text_iff]
  constructor
  · rintro (h | h)
    · split at h <;> simp at h
    · split at h
      · simp at h
      · rename_i hundeclared
        obtain ⟨rfl, rfl⟩ := AliasFinding.danglingTarget.inj (List.mem_singleton.1 h)
        exact ⟨rfl, rfl, hundeclared⟩
  · rintro ⟨rfl, rfl, hundeclared⟩
    rw [if_neg hundeclared]
    exact .inr (List.mem_singleton_self _)

/-- **An alias is found to dangle** if the module of its entry is not declared. -/
theorem danglingTarget_mem_lint_iff :
    .danglingTarget name target ∈ table.lint (some p) ↔
      ∃ entry, table.get? name = some entry ∧ entry.canonical = target ∧ target ∉ p.ids := by
  simp only [lint, List.mem_flatMap, danglingTarget_mem_lintEntry_iff, OrderedMap.get?_eq_some_iff]
  constructor
  · rintro ⟨⟨key, entry⟩, he, rfl, rfl, hundeclared⟩
    exact ⟨entry, he, rfl, hundeclared⟩
  · rintro ⟨entry, he, rfl, hundeclared⟩
    exact ⟨(name, entry), he, rfl, rfl, hundeclared⟩

end AliasTable

namespace Resolution

variable {aliases : Option AliasTable}

/-- An alias that is no identifier is answered with the module of its entry. -/
theorem canonical?_answer_of_alias {entry : AliasEntry} (hnone : ∀ id ∈ p.ids, id.text ≠ query)
    (hentry : aliasEntry? aliases query = some entry) :
    (answer (.ofPolicy p) aliases settings query).canonical? = some entry.canonical := by
  rw [answer_of_find?_none (Roster.find?_eq_none_iff.2 hnone), untrusted_of_alias hentry]
  rfl

/-- **Whatever a query is answered with** is declared or the module of an alias. -/
theorem declared_or_aliased
    (h : (answer (.ofPolicy p) aliases settings query).canonical? = some id) :
    id ∈ p.ids ∨ ∃ entry, aliasEntry? aliases query = some entry ∧ entry.canonical = id := by
  obtain ⟨tier, canonical, confidence, hrow⟩ :=
    TierRow.exists_row p aliases settings.allowSubstring query
  obtain ⟨-, hcanonical, -⟩ := hrow.answer_eq
  rw [h] at hcanonical
  cases hrow with
  | declared hid => exact .inl (Option.some.inj hcanonical ▸ hid)
  | aliased _ hentry => exact .inr ⟨_, hentry, (Option.some.inj hcanonical).symm⟩
  | nested _ _ _ hnested => exact .inl (Option.some.inj hcanonical ▸ hnested.declared)
  | unknown => cases hcanonical

end Resolution

/-- **Declared modules stand for themselves.** -/
theorem resolve_text_of_mem (hvalid : settings.validate = .ok ()) (hid : id ∈ p.ids)
    (aliases : Option AliasTable) : resolve p aliases settings id.text = .ok (.exact id) := by
  rw [resolve_of_ne hvalid id.text_ne_empty,
    Resolution.answer_of_find? (Roster.find?_eq_some_iff.2 ⟨hid, rfl⟩)]

/-- **A finding is an answer that is not declared.** -/
theorem danglingTarget_iff_resolve (hvalid : settings.validate = .ok ()) (hname : name ∈ table.keys)
    (hne : name ≠ "") (hnone : ∀ id ∈ p.ids, id.text ≠ name) :
    .danglingTarget name target ∈ table.lint (some p) ↔
      ∃ r, resolve p (some table) settings name = .ok r ∧ r.canonical? = some target ∧
        target ∉ p.ids := by
  obtain ⟨entry, hentry⟩ := Option.isSome_iff_exists.1 (OrderedMap.mem_keys_iff.1 hname)
  have hcanonical : (Resolution.answer (.ofPolicy p) (some table) settings name).canonical? =
      some entry.canonical := Resolution.canonical?_answer_of_alias hnone hentry
  rw [AliasTable.danglingTarget_mem_lint_iff, resolve_of_ne hvalid hne]
  constructor
  · rintro ⟨other, hother, rfl, hundeclared⟩
    obtain rfl : entry = other := Option.some.inj (hentry.symm.trans hother)
    exact ⟨_, rfl, hcanonical, hundeclared⟩
  · rintro ⟨r, hr, htarget, hundeclared⟩
    obtain rfl := Except.ok.inj hr
    exact ⟨entry, hentry, Option.some.inj (hcanonical.symm.trans htarget), hundeclared⟩

/-- **Without findings every answer is declared.** -/
theorem mem_ids_of_no_dangling
    (hclean : ∀ name target, .danglingTarget name target ∉ table.lint (some p)) {r : Resolution}
    (hr : resolve p (some table) settings query = .ok r) (hid : r.canonical? = some id) :
    id ∈ p.ids := by
  obtain ⟨-, -, rfl⟩ := resolve_eq_ok_iff.1 hr
  rcases Resolution.declared_or_aliased hid with hid | ⟨entry, hentry, rfl⟩
  · exact hid
  · by_contra hundeclared
    exact hclean query _
      (AliasTable.danglingTarget_mem_lint_iff.2 ⟨entry, hentry, rfl, hundeclared⟩)

/-- **Findings foretell answers.** An alias that is not empty and no identifier
is found to dangle, with its target, exactly if it is answered with that target
and the target is not declared. If no alias is found to dangle, every module that
any query is answered with is declared and is answered with itself. The same
answers are given through the shared cache and that of a resolver, whatever they
have seen. -/
theorem lint_foretells_answers [PatternEngine] (p : Policy) (table : AliasTable)
    {settings : Settings} (hvalid : settings.validate = .ok ()) :
    (∀ name ∈ table.keys, name ≠ "" → (∀ id ∈ p.ids, id.text ≠ name) → ∀ target,
      .danglingTarget name target ∈ table.lint (some p) ↔
        ∃ r, resolve p (some table) settings name = .ok r ∧ r.canonical? = some target ∧
          target ∉ p.ids) ∧
    ((∀ name target, .danglingTarget name target ∉ table.lint (some p)) →
      ∀ query r id, resolve p (some table) settings query = .ok r → r.canonical? = some id →
        id ∈ p.ids ∧ resolve p (some table) settings id.text = .ok (.exact id)) ∧
    ∀ w policy aliases, Workspace.Offers w policy aliases p (some table) → ∀ query,
      (w.perform (.sharedResolve settings policy aliases query)).1 =
        .resolution (resolve p (some table) settings query) ∧
      ∀ name resolver, w.resolvers.get? name = some resolver → resolver.settings = settings →
        (w.perform (.resolve name policy aliases query)).1 =
          .resolution (resolve p (some table) settings query) := by
  refine ⟨fun name hname hne hnone target => ?_, fun hclean query r id hr hid => ?_,
    fun w policy aliases hw query => ?_⟩
  · exact danglingTarget_iff_resolve hvalid hname hne hnone
  · have hmem : id ∈ p.ids := mem_ids_of_no_dangling hclean hr hid
    exact ⟨hmem, resolve_text_of_mem hvalid hmem (some table)⟩
  · obtain ⟨stored, hstored, rfl⟩ := hw.exists_policy
    obtain ⟨t, ht, hcontent⟩ := hw.exists_table
    rw [hw.reachable.sharedResolve_fst hstored ht, hcontent]
    refine ⟨rfl, fun name resolver hresolver hsettings => ?_⟩
    rw [hw.reachable.resolve_fst hstored ht hresolver, hcontent, hsettings]

/-! A depot with a truck. An alias of no confidence at all points at a van that
is not declared. -/

def truckId : ModuleId := ⟨"depot/truck", by decide⟩

def vanId : ModuleId := ⟨"depot/van", by decide⟩

def depotPolicy : Policy := .ofList [(truckId, {})]

def truckTable : AliasTable := .ofList [("truck", { canonical := truckId })]

def vanTable : AliasTable :=
  truckTable.insert "van" { canonical := vanId, confidence := .nan }

theorem truckTable_clean (name : String) (target : ModuleId) :
    .danglingTarget name target ∉ truckTable.lint (some depotPolicy) := by
  rw [AliasTable.danglingTarget_mem_lint_iff]
  rintro ⟨entry, hentry, rfl, hundeclared⟩
  obtain ⟨-, rfl⟩ : name = "truck" ∧ entry = { canonical := truckId } := by
    simpa [truckTable, OrderedMap.get?_ofList, lookup_cons_eq, eq_comm] using hentry
  exact hundeclared (by decide)

theorem lint_foretells_answers_depot :
    Settings.permissive.validate = .ok () ∧
      .danglingTarget "van" vanId ∈ vanTable.lint (some depotPolicy) ∧
      (∃ r, resolve depotPolicy (some vanTable) .permissive "van" = .ok r ∧
        r.canonical? = some vanId ∧ vanId ∉ depotPolicy.ids) ∧
      ∃ r, resolve depotPolicy (some truckTable) .permissive "truck" = .ok r ∧
        r.canonical? = some truckId ∧
          resolve depotPolicy (some truckTable) .permissive "depot/truck" =
            .ok (.exact truckId) := by
  have hvalid : Settings.permissive.validate = .ok () := rfl
  have hvan : .danglingTarget "van" vanId ∈ vanTable.lint (some depotPolicy) :=
    AliasTable.danglingTarget_mem_lint_iff.2 ⟨_, rfl, rfl, by decide⟩
  obtain ⟨findings, -, -⟩ := lint_foretells_answers depotPolicy vanTable hvalid
  obtain ⟨-, clean, -⟩ := lint_foretells_answers depotPolicy truckTable hvalid
  have hnone : ∀ id ∈ depotPolicy.ids, id.text ≠ "truck" := by decide
  have hentry : aliasEntry? (some truckTable) "truck" = some { canonical := truckId } := rfl
  have hcanonical : (Resolution.answer (.ofPolicy depotPolicy) (some truckTable) .permissive
      "truck").canonical? = some truckId := Resolution.canonical?_answer_of_alias hnone hentry
  have htruck : resolve depotPolicy (some truckTable) .permissive "truck" =
      .ok (.answer (.ofPolicy depotPolicy) (some truckTable) .permissive "truck") :=
    resolve_of_ne hvalid (by decide)
  exact ⟨hvalid, hvan, (findings "van" (by decide) (by decide) (by decide) vanId).1 hvan,
    _, htruck, hcanonical, (clean truckTable_clean "truck" _ truckId htruck hcanonical).2⟩

end ModulePolicy
