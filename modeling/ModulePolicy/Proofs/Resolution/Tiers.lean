/-
# The table of tiers

What an answer says of a query, by the first row that applies:

| row | applies if | tier | canonical | confidence |
| --- | --- | --- | --- | --- |
| `declared` | the query is a declared identifier | exact | the query | `1` |
| `aliased` | it is an alias | alias | that of the entry | that of the entry, moved between `0` and `1` |
| `nested` | substrings are allowed and an identifier is nested with it | substring | the shortest of these | `0.9` |
| `unknown` | none of these | fuzzy | none | `0` |

Every answer says what its row says, and nothing else is answered, with a cache
or without (`resolve_follows_tiers`).
-/

import ModulePolicy.Proofs.Resolution.Answer
import ModulePolicy.Proofs.Similarity.Containment
import ModulePolicy.Proofs.Workspace.Reachable

namespace ModulePolicy

/-- Of the declared identifiers nested with a query, the shortest in bytes, and
the smallest of several. -/
structure Policy.ShortestNested (p : Policy) (query : String) (id : ModuleId) : Prop where
  declared : id ∈ p.ids
  nested : id.NestedWith query
  first : ∀ other ∈ p.ids, other.NestedWith query →
    id.text.utf8ByteSize < other.text.utf8ByteSize ∨
      id.text.utf8ByteSize = other.text.utf8ByteSize ∧ id.text ≤ other.text

/-- The rows of the table, with tier, canonical and confidence. -/
inductive TierRow (p : Policy) (aliases : Option AliasTable) (allowSubstring : Bool)
    (query : String) : Tier → Option ModuleId → Binary64 → Prop
  | declared {id : ModuleId} : id ∈ p.ids → id.text = query →
      TierRow p aliases allowSubstring query .exact (some id) .one
  | aliased {entry : AliasEntry} {confidence : Binary64} : (∀ id ∈ p.ids, id.text ≠ query) →
      aliasEntry? aliases query = some entry → entry.confidence.ClampsTo confidence →
      TierRow p aliases allowSubstring query .aliased (some entry.canonical) confidence
  | nested {id : ModuleId} : (∀ id ∈ p.ids, id.text ≠ query) →
      aliasEntry? aliases query = none → allowSubstring = true → p.ShortestNested query id →
      TierRow p aliases allowSubstring query .substring (some id) (.ofDecimal false 9 (-1))
  | unknown : (∀ id ∈ p.ids, id.text ≠ query) → aliasEntry? aliases query = none →
      (allowSubstring = true → ∀ id ∈ p.ids, ¬ id.NestedWith query) →
      TierRow p aliases allowSubstring query .fuzzy none .zero

/-- The answer to a query is a fault of the settings, else the fault of an empty
query, else what the row of the query says. -/
structure FollowsTiers (p : Policy) (aliases : Option AliasTable) (settings : Settings)
    (query : String) (answer : Except QueryFault Resolution) : Prop where
  settings_iff : ∀ fault, answer = .error (.settings fault) ↔ settings.validate = .error fault
  emptyQuery_iff : answer = .error .emptyQuery ↔ settings.validate = .ok () ∧ query = ""
  row : settings.validate = .ok () → query ≠ "" → ∃ r, answer = .ok r ∧
    ∀ tier canonical confidence,
      TierRow p aliases settings.allowSubstring query tier canonical confidence ↔
        r.tier = tier ∧ r.canonical? = canonical ∧ r.confidence = confidence

section

variable {p : Policy} {aliases : Option AliasTable} {settings : Settings} {query : String}

theorem shortestNested_iff {id : ModuleId} :
    p.ShortestNested query id ↔
      shortestContaining? query (Roster.ofPolicy p).candidates = some id := by
  rw [Roster.candidates, shortestContaining?_eq_some_iff, Roster.mem_ids]
  simp only [Roster.mem_ids, sizeKey, Prod.Lex.toLex_le_toLex]
  constructor
  · rintro ⟨hid, hnested, hfirst⟩
    exact ⟨hid, hnested, hfirst⟩
  · rintro ⟨hid, hnested, hfirst⟩
    exact ⟨hid, hnested, hfirst⟩

theorem none_nested_iff :
    (∀ id ∈ p.ids, ¬ id.NestedWith query) ↔
      shortestContaining? query (Roster.ofPolicy p).candidates = none := by
  rw [Roster.candidates, shortestContaining?_eq_none_iff]
  simp only [Roster.mem_ids]

namespace TierRow

variable {tier : Tier} {canonical : Option ModuleId} {confidence : Binary64}

/-- **An answer says what any row says that applies.** -/
theorem answer_eq (h : TierRow p aliases settings.allowSubstring query tier canonical confidence) :
    (Resolution.answer (.ofPolicy p) aliases settings query).tier = tier ∧
      (Resolution.answer (.ofPolicy p) aliases settings query).canonical? = canonical ∧
        (Resolution.answer (.ofPolicy p) aliases settings query).confidence = confidence := by
  cases h with
  | declared hid htext =>
    rw [Resolution.answer_of_find? (Roster.find?_eq_some_iff.2 ⟨hid, htext⟩)]
    exact ⟨rfl, rfl, rfl⟩
  | aliased hnone hentry hclamps =>
    rw [Resolution.answer_of_find?_none (Roster.find?_eq_none_iff.2 hnone),
      Resolution.untrusted_of_alias hentry]
    exact ⟨rfl, rfl, hclamps.eq_clampToUnit.symm⟩
  | nested hnone hentry hallow hid =>
    rw [Resolution.answer_of_find?_none (Roster.find?_eq_none_iff.2 hnone),
      Resolution.untrusted_of_substring hentry hallow (shortestNested_iff.1 hid)]
    exact ⟨rfl, rfl, rfl⟩
  | unknown hnone hentry hnested =>
    rw [Resolution.answer_of_find?_none (Roster.find?_eq_none_iff.2 hnone),
      Resolution.untrusted_of_none hentry fun hallow => none_nested_iff.1 (hnested hallow)]
    exact ⟨rfl, rfl, rfl⟩

/-- **Some row applies to every query.** -/
theorem exists_row (p : Policy) (aliases : Option AliasTable) (allowSubstring : Bool)
    (query : String) : ∃ tier canonical confidence,
      TierRow p aliases allowSubstring query tier canonical confidence := by
  by_cases hid : ∃ id ∈ p.ids, id.text = query
  · obtain ⟨id, hid, htext⟩ := hid
    exact ⟨_, _, _, .declared hid htext⟩
  have hnone : ∀ id ∈ p.ids, id.text ≠ query := fun id hmem htext => hid ⟨id, hmem, htext⟩
  cases hentry : aliasEntry? aliases query with
  | some entry =>
    exact ⟨_, _, _, .aliased hnone hentry (Binary64.clampsTo_clampToUnit entry.confidence)⟩
  | none =>
    cases hshortest : shortestContaining? query (Roster.ofPolicy p).candidates with
    | none => exact ⟨_, _, _, .unknown hnone hentry fun _ => none_nested_iff.2 hshortest⟩
    | some id =>
      cases allowSubstring with
      | false => exact ⟨_, _, _, .unknown hnone hentry fun h => absurd h Bool.false_ne_true⟩
      | true => exact ⟨_, _, _, .nested hnone hentry rfl (shortestNested_iff.2 hshortest)⟩

/-- A row applies if it says what the answer says. -/
theorem iff_answer :
    TierRow p aliases settings.allowSubstring query tier canonical confidence ↔
      (Resolution.answer (.ofPolicy p) aliases settings query).tier = tier ∧
        (Resolution.answer (.ofPolicy p) aliases settings query).canonical? = canonical ∧
          (Resolution.answer (.ofPolicy p) aliases settings query).confidence = confidence := by
  refine ⟨answer_eq, ?_⟩
  rintro ⟨rfl, rfl, rfl⟩
  obtain ⟨tier, canonical, confidence, hrow⟩ :=
    exists_row p aliases settings.allowSubstring query
  obtain ⟨htier, hcanonical, hconfidence⟩ := hrow.answer_eq
  rwa [htier, hcanonical, hconfidence]

end TierRow

/-- An uncached resolution follows the tiers. -/
theorem followsTiers_resolve (p : Policy) (aliases : Option AliasTable) (settings : Settings)
    (query : String) :
    FollowsTiers p aliases settings query (resolve p aliases settings query) := by
  cases hvalid : settings.validate with
  | error fault =>
    rw [resolve_of_error hvalid]
    exact
      { settings_iff := fun other => by simp [hvalid]
        emptyQuery_iff := by simp [hvalid]
        row := fun h => by simp [hvalid] at h }
  | ok _ =>
    by_cases hquery : query = ""
    · subst hquery
      rw [resolve_empty hvalid]
      exact
        { settings_iff := fun fault => by simp [hvalid]
          emptyQuery_iff := by simp [hvalid]
          row := fun _ hne => absurd rfl hne }
    · rw [resolve_of_ne hvalid hquery]
      exact
        { settings_iff := fun fault => by simp [hvalid]
          emptyQuery_iff := by simp [hquery]
          row := fun _ _ => ⟨_, rfl, fun _ _ _ => TierRow.iff_answer⟩ }

/-- An answer with the substring tier is the one without it, or the latter is
fuzzy and the former a substring answer with the same suggestions. -/
theorem answer_allowSubstring (roster : Roster) (aliases : Option AliasTable)
    (settings : Settings) (query : String) :
    Resolution.answer roster aliases { settings with allowSubstring := true } query =
        Resolution.answer roster aliases { settings with allowSubstring := false } query ∨
      ∃ id suggestions,
        Resolution.answer roster aliases { settings with allowSubstring := false } query =
          .fuzzy suggestions ∧
        Resolution.answer roster aliases { settings with allowSubstring := true } query =
          .substring id suggestions := by
  cases hid : roster.find? query with
  | some id => exact .inl (by rw [Resolution.answer_of_find? hid, Resolution.answer_of_find? hid])
  | none =>
    rw [Resolution.answer_of_find?_none hid, Resolution.answer_of_find?_none hid]
    cases hentry : aliasEntry? aliases query with
    | some entry =>
      exact .inl (by rw [Resolution.untrusted_of_alias hentry,
        Resolution.untrusted_of_alias hentry]; rfl)
    | none =>
      have hoff : Resolution.untrusted roster aliases { settings with allowSubstring := false }
          query = .fuzzy (Resolution.suggested roster settings query) :=
        Resolution.untrusted_of_none hentry fun h => nomatch h
      rw [hoff]
      cases hshortest : shortestContaining? query roster.candidates with
      | some id => exact .inr ⟨id, _, rfl, Resolution.untrusted_of_substring hentry rfl hshortest⟩
      | none => exact .inl (Resolution.untrusted_of_none hentry fun _ => hshortest)

/-- **Allowing substrings turns fuzzy answers into substring answers** and
changes nothing else. -/
theorem resolve_allowSubstring (p : Policy) (aliases : Option AliasTable) (settings : Settings)
    (query : String) :
    resolve p aliases { settings with allowSubstring := true } query =
        resolve p aliases { settings with allowSubstring := false } query ∨
      ∃ id suggestions,
        resolve p aliases { settings with allowSubstring := false } query =
          .ok (.fuzzy suggestions) ∧
        resolve p aliases { settings with allowSubstring := true } query =
          .ok (.substring id suggestions) := by
  have hvalidate (allow : Bool) :
      Settings.validate { settings with allowSubstring := allow } = settings.validate := rfl
  cases hvalid : settings.validate with
  | error fault =>
    exact .inl ((resolve_of_error ((hvalidate true).trans hvalid)).trans
      (resolve_of_error ((hvalidate false).trans hvalid)).symm)
  | ok _ =>
    by_cases hquery : query = ""
    · subst hquery
      exact .inl ((resolve_empty ((hvalidate true).trans hvalid)).trans
        (resolve_empty ((hvalidate false).trans hvalid)).symm)
    · rw [resolve_of_ne ((hvalidate true).trans hvalid) hquery,
        resolve_of_ne ((hvalidate false).trans hvalid) hquery]
      rcases answer_allowSubstring (.ofPolicy p) aliases settings query with
        h | ⟨id, suggestions, hoff, hon⟩
      · exact .inl (congrArg Except.ok h)
      · exact .inr ⟨id, suggestions, congrArg Except.ok hoff, congrArg Except.ok hon⟩

end

/-- **Resolution follows the tiers.** Without a cache, and through the shared
cache after any run of commands, a query is answered by the fault of the
settings, else by that of an empty query, else by what its row of the table
says. Allowing substrings only turns fuzzy answers into substring answers. -/
theorem resolve_follows_tiers [PatternEngine] (p : Policy) (aliases : Option AliasTable)
    (settings : Settings) (query : String) :
    FollowsTiers p aliases settings query (resolve p aliases settings query) ∧
      (∀ (w : Workspace) policy table stored t, w.Reachable →
        w.policies.get? policy = some stored → w.namedTable? table = some t →
          ∃ answer, (w.perform (.sharedResolve settings policy table query)).1 =
              .resolution answer ∧
            FollowsTiers stored.content (t.map (·.content)) settings query answer) ∧
      (resolve p aliases { settings with allowSubstring := true } query =
          resolve p aliases { settings with allowSubstring := false } query ∨
        ∃ id suggestions,
          resolve p aliases { settings with allowSubstring := false } query =
            .ok (.fuzzy suggestions) ∧
          resolve p aliases { settings with allowSubstring := true } query =
            .ok (.substring id suggestions)) := by
  refine ⟨followsTiers_resolve p aliases settings query, ?_,
    resolve_allowSubstring p aliases settings query⟩
  intro w policy table stored t hw hp ht
  exact ⟨_, hw.sharedResolve_fst hp ht settings query, followsTiers_resolve _ _ settings query⟩

/-! An alias of doubtful confidence stands before the identifier that contains
the query. -/

def ordersId : ModuleId := ⟨"store/orders", by decide⟩

def salesId : ModuleId := ⟨"sales", by decide⟩

def ordersEntry : AliasEntry := { canonical := salesId, confidence := .nan }

def ordersCommands : List Command :=
  [.newPolicy "policy" [(ordersId, {})], .newTable "table" [("orders", ordersEntry)]]

theorem resolve_follows_tiers_orders :
    ∃ r, ((({} : Workspace).after ordersCommands).perform
        (.sharedResolve .permissive "policy" (some "table") "orders")).1 = .resolution (.ok r) ∧
      r.tier = .aliased ∧ r.canonical? = some salesId ∧ r.confidence = .zero := by
  obtain ⟨-, cached, -⟩ := resolve_follows_tiers .empty none .permissive "orders"
  obtain ⟨answer, hanswer, hfollows⟩ := cached (({} : Workspace).after ordersCommands) "policy"
    (some "table") ⟨1, .ofList [(ordersId, {})]⟩ (some ⟨1, .ofList [("orders", ordersEntry)]⟩)
    ⟨_, rfl⟩ rfl rfl
  obtain ⟨r, rfl, hrow⟩ := hfollows.row rfl (by decide)
  have aliased : TierRow (.ofList [(ordersId, {})]) (some (.ofList [("orders", ordersEntry)])) true
      "orders" .aliased (some salesId) .zero :=
    .aliased (by decide) (show aliasEntry? _ _ = some ordersEntry from rfl) (.nan rfl)
  exact ⟨r, hanswer, (hrow _ _ _).1 aliased⟩

end ModulePolicy
