/-
# Well-formed answers

Whatever the confidence in an alias table, not-a-number and the infinities
included, and by whichever route an answer comes about, its confidence is a
number from `0` to `1`, and it is `1` for the answers that strict validation
accepts and for no others. Those carry no suggestions. Any other answer carries
different declared identifiers, as many as the settings allow at most.

An answer comes about by one of four routes (`answer_cases`), and each of them
leads to well-formed answers. The two routes by which an alias can be answered
meet in `Resolution.ofAlias`.
-/

import ModulePolicy.Proofs.Resolution.Suggestions
import ModulePolicy.Proofs.Workspace.Reachable

namespace ModulePolicy

/-- Different declared identifiers, no more of them than a limit. -/
structure Suggestible (p : Policy) (limit : Nat) (ids : List ModuleId) : Prop where
  length_le : ids.length ≤ limit
  declared : ∀ id ∈ ids, id ∈ p.ids
  nodup : ids.Nodup

theorem suggestible_nil (p : Policy) (limit : Nat) : Suggestible p limit [] :=
  ⟨Nat.zero_le limit, fun _ h => absurd h List.not_mem_nil, .nil⟩

/-- **What is suggested is declared,** each identifier once. -/
theorem suggestible_suggested (p : Policy) (settings : Settings) (query : String) :
    Suggestible p settings.maxSuggestions
      (Resolution.suggested (.ofPolicy p) settings query) := by
  have hranking : (ranking query p.ids).Perm p.ids := ranking_perm query p.ids
  rw [suggested_eq_take]
  exact
    { length_le := Nat.le_trans (List.length_take_le _ _) (Nat.min_le_left _ _)
      declared := fun id hid => hranking.mem_iff.1 (List.mem_of_mem_take hid)
      nodup := (hranking.nodup_iff.2 p.nodup_ids).sublist (List.take_sublist _ _) }

namespace Resolution

/-- An answer says what its tier may say, under the given settings. -/
structure WellFormed (p : Policy) (settings : Settings) (r : Resolution) : Prop where
  zero_le_confidence : Binary64.zero.le r.confidence
  confidence_le_one : r.confidence.le .one
  isCertain_iff : r.isCertain ↔ r.confidence = .one
  trusted_of_one : r.confidence = .one →
    (r.tier = .exact ∨ r.tier = .aliased) ∧ r.suggestions = []
  canonical?_eq_none_iff : r.canonical? = none ↔ r.tier = .fuzzy
  allowed_of_substring : r.tier = .substring → settings.allowSubstring = true
  suggestible : Suggestible p settings.maxSuggestions r.suggestions

theorem canonical?_eq_none_iff_fuzzy (r : Resolution) : r.canonical? = none ↔ r.tier = .fuzzy := by
  cases r <;> simp [canonical?, tier]

/-- An answer of a trusted tier is certain at full confidence. -/
theorem isCertain_iff_of_trusted {r : Resolution} (htier : r.tier.isTrusted = true)
    (hone : r.confidence.le .one) : r.isCertain ↔ r.confidence = .one := by
  rw [isCertain, htier, Bool.and_true]
  constructor
  · exact fun hle => Binary64.eq_one_of_one_le hle (Binary64.not_lt_of_le hone)
  · intro heq
    rw [heq]
    decide

/-- An answer of another tier is not certain, and its confidence is less. -/
theorem isCertain_iff_of_untrusted {r : Resolution} (htier : r.tier.isTrusted = false)
    (hne : r.confidence ≠ .one) : r.isCertain ↔ r.confidence = .one := by
  rw [isCertain, htier, Bool.and_false]
  exact ⟨fun h => absurd h Bool.false_ne_true, fun h => absurd h hne⟩

/-- The confidence of the substring tier lies between zero and one. -/
theorem substring_confidence_bounds :
    Binary64.zero.le (.ofDecimal false 9 (-1)) ∧
      (Binary64.ofDecimal false 9 (-1)).le .one ∧ Binary64.ofDecimal false 9 (-1) ≠ .one := by
  decide +kernel

section Routes

variable {p : Policy} {settings : Settings} {suggestions : List ModuleId}

theorem wellFormed_exact (id : ModuleId) : (exact id).WellFormed p settings where
  zero_le_confidence := rfl
  confidence_le_one := rfl
  isCertain_iff := isCertain_iff_of_trusted rfl rfl
  trusted_of_one _ := ⟨.inl rfl, rfl⟩
  canonical?_eq_none_iff := canonical?_eq_none_iff_fuzzy _
  allowed_of_substring h := by cases h
  suggestible := suggestible_nil p _

/-- **An alias is answered well-formed, whatever its confidence.** -/
theorem wellFormed_ofAlias (id : ModuleId) (confidence : Binary64)
    (h : Suggestible p settings.maxSuggestions suggestions) :
    (ofAlias id confidence suggestions).WellFormed p settings := by
  obtain ⟨hzero, hone⟩ := confidence.zero_le_clampToUnit_le_one
  have hsuggestions : (ofAlias id confidence suggestions).suggestions =
      if confidence.clampToUnit.lt .one then suggestions else [] := rfl
  exact
    { zero_le_confidence := hzero
      confidence_le_one := hone
      isCertain_iff := isCertain_iff_of_trusted rfl hone
      trusted_of_one := fun heq => by
        have hfull : confidence.clampToUnit = .one := heq
        have hlt : ¬ confidence.clampToUnit.lt .one := by
          rw [hfull]
          decide
        exact ⟨.inr rfl, hsuggestions.trans (if_neg hlt)⟩
      canonical?_eq_none_iff := canonical?_eq_none_iff_fuzzy _
      allowed_of_substring := fun h => by cases h
      suggestible := by
        rw [hsuggestions]
        split
        · exact h
        · exact suggestible_nil p _ }

theorem wellFormed_substring (id : ModuleId) (hallow : settings.allowSubstring = true)
    (h : Suggestible p settings.maxSuggestions suggestions) :
    (substring id suggestions).WellFormed p settings := by
  obtain ⟨hzero, hone, hne⟩ := substring_confidence_bounds
  exact
    { zero_le_confidence := hzero
      confidence_le_one := hone
      isCertain_iff := isCertain_iff_of_untrusted rfl hne
      trusted_of_one := fun heq => absurd heq hne
      canonical?_eq_none_iff := canonical?_eq_none_iff_fuzzy _
      allowed_of_substring := fun _ => hallow
      suggestible := h }

theorem wellFormed_fuzzy (h : Suggestible p settings.maxSuggestions suggestions) :
    (fuzzy suggestions).WellFormed p settings := by
  have hne : (fuzzy suggestions).confidence ≠ .one :=
    show Binary64.zero ≠ .one by decide
  exact
    { zero_le_confidence := rfl
      confidence_le_one := rfl
      isCertain_iff := isCertain_iff_of_untrusted rfl hne
      trusted_of_one := fun heq => absurd heq hne
      canonical?_eq_none_iff := canonical?_eq_none_iff_fuzzy _
      allowed_of_substring := fun h => by cases h
      suggestible := h }

end Routes

variable (roster : Roster) (aliases : Option AliasTable) (settings : Settings) (query : String)

/-- **The four routes to an answer.** -/
theorem answer_cases :
    (∃ id, answer roster aliases settings query = exact id) ∨
    (∃ entry : AliasEntry, answer roster aliases settings query =
      ofAlias entry.canonical entry.confidence (suggested roster settings query)) ∨
    (∃ id, settings.allowSubstring = true ∧ answer roster aliases settings query =
      substring id (suggested roster settings query)) ∨
    answer roster aliases settings query = fuzzy (suggested roster settings query) := by
  cases hid : roster.find? query with
  | some id => exact .inl ⟨id, answer_of_find? hid⟩
  | none =>
    rw [answer_of_find?_none hid]
    cases hentry : aliasEntry? aliases query with
    | some entry => exact .inr (.inl ⟨entry, untrusted_of_alias hentry⟩)
    | none =>
      cases hshortest : shortestContaining? query roster.candidates with
      | none => exact .inr (.inr (.inr (untrusted_of_none hentry fun _ => hshortest)))
      | some id =>
        cases hallow : settings.allowSubstring with
        | true => exact .inr (.inr (.inl ⟨id, rfl, untrusted_of_substring hentry hallow hshortest⟩))
        | false =>
          exact .inr (.inr (.inr (untrusted_of_none hentry fun h => by simp [hallow] at h)))

theorem wellFormed_answer (p : Policy) :
    (answer (.ofPolicy p) aliases settings query).WellFormed p settings := by
  have hsuggested := suggestible_suggested p settings query
  rcases answer_cases (.ofPolicy p) aliases settings query with
    ⟨id, h⟩ | ⟨entry, h⟩ | ⟨id, hallow, h⟩ | h
  · exact h ▸ wellFormed_exact id
  · exact h ▸ wellFormed_ofAlias entry.canonical entry.confidence hsuggested
  · exact h ▸ wellFormed_substring id hallow hsuggested
  · exact h ▸ wellFormed_fuzzy hsuggested

end Resolution

theorem wellFormed_of_resolve {p : Policy} {aliases : Option AliasTable} {settings : Settings}
    {query : String} {r : Resolution} (h : resolve p aliases settings query = .ok r) :
    r.WellFormed p settings := by
  obtain ⟨-, -, rfl⟩ := resolve_eq_ok_iff.1 h
  exact Resolution.wellFormed_answer aliases settings query p

/-- **Every answer is well-formed,** for any policy, aliases, settings and query:
without a cache, and after any run of commands through the shared cache or that
of a resolver. -/
theorem resolutions_wellFormed [PatternEngine] (p : Policy) (aliases : Option AliasTable)
    (settings : Settings) (query : String) :
    (∀ r, resolve p aliases settings query = .ok r → r.WellFormed p settings) ∧
      ∀ (w : Workspace) policy table stored t, w.Reachable →
        w.policies.get? policy = some stored → w.namedTable? table = some t →
          (∀ r, (w.perform (.sharedResolve settings policy table query)).1 =
              .resolution (.ok r) → r.WellFormed stored.content settings) ∧
          ∀ name resolver, w.resolvers.get? name = some resolver →
            ∀ r, (w.perform (.resolve name policy table query)).1 = .resolution (.ok r) →
              r.WellFormed stored.content resolver.settings := by
  refine ⟨fun r => wellFormed_of_resolve, ?_⟩
  intro w policy table stored t hw hp ht
  constructor
  · intro r hr
    rw [hw.sharedResolve_fst hp ht] at hr
    exact wellFormed_of_resolve (CommandAnswer.resolution.inj hr)
  · intro name resolver hresolver r hr
    rw [hw.resolve_fst hp ht hresolver] at hr
    exact wellFormed_of_resolve (CommandAnswer.resolution.inj hr)

/-! An alias of confidence minus infinity is answered with confidence zero. -/

def boxId : ModuleId := ⟨"archive/box", by decide⟩

def boxEntry : AliasEntry := { canonical := boxId, confidence := .signed true .infinity }

def boxCommands : List Command :=
  [.newPolicy "policy" [(boxId, {})], .newTable "table" [("box", boxEntry)]]

theorem resolutions_wellFormed_box :
    ∃ r, ((({} : Workspace).after boxCommands).perform
        (.sharedResolve .permissive "policy" (some "table") "box")).1 = .resolution (.ok r) ∧
      r.tier = .aliased ∧ r.confidence = .zero ∧
        r.WellFormed (.ofList [(boxId, {})]) .permissive := by
  have hw : (({} : Workspace).after boxCommands).Reachable := ⟨_, rfl⟩
  obtain ⟨-, cached⟩ := resolutions_wellFormed .empty none .permissive "box"
  obtain ⟨shared, -⟩ := cached _ "policy" (some "table") ⟨1, .ofList [(boxId, {})]⟩
    (some ⟨1, .ofList [("box", boxEntry)]⟩) hw rfl rfl
  have hanswer : ((({} : Workspace).after boxCommands).perform
      (.sharedResolve .permissive "policy" (some "table") "box")).1 =
        .resolution (resolve (.ofList [(boxId, {})]) (some (.ofList [("box", boxEntry)]))
          .permissive "box") :=
    hw.sharedResolve_fst (p := ⟨1, _⟩) (t := some ⟨1, _⟩) rfl rfl .permissive "box"
  rw [resolve_of_ne rfl (by decide), Resolution.answer_of_find?_none
      (Roster.find?_eq_none_iff.2 (by decide)),
    Resolution.untrusted_of_alias (show aliasEntry? _ _ = some boxEntry from rfl)] at hanswer
  exact ⟨_, hanswer, rfl, rfl, shared _ hanswer⟩

end ModulePolicy
