/-
# Answers depend on content alone

Policies and tables may hold the same and still have come about differently:

| what may differ | where |
| --- | --- |
| the order of declaration, and what was declared again | two policies |
| the specifications of the modules | two policies |
| the order of the aliases, and the entries that were replaced | two tables |
| the order in which identifiers or aliases are listed | two look-ups of one |

None of it shows in a resolution, a report of a batch or the findings of a table
(`answers_depend_on_content`). What is looked up is found by its text, which is
that of one identifier, and where several identifiers compete their order leaves
no ties.
-/

import ModulePolicy.Proofs.Module.History
import ModulePolicy.Proofs.Resolution.Batch
import ModulePolicy.Proofs.Resolution.Suggestions
import ModulePolicy.Proofs.Similarity.Containment

namespace ModulePolicy

/-! ### Rosters in any order -/

namespace Roster

variable {r r' : Roster} (h : r.ids.Perm r'.ids)

include h

theorem find?_of_perm (text : String) : r.find? text = r'.find? text :=
  Option.ext fun id => by rw [find?_eq_some_iff_mem, find?_eq_some_iff_mem, h.mem_iff]

theorem suggestions_of_perm (query : String) (limit : Nat) (least : Binary64) :
    suggestions query r.candidates limit least = suggestions query r'.candidates limit least := by
  rw [candidates, candidates, suggestions_eq_take, suggestions_eq_take, ranking_congr query h,
    h.countP_eq]

theorem shortestContaining?_of_perm (query : String) :
    shortestContaining? query r.candidates = shortestContaining? query r'.candidates :=
  Option.ext fun id => by
    rw [candidates, candidates, shortestContaining?_eq_some_iff, shortestContaining?_eq_some_iff]
    simp only [h.mem_iff]

end Roster

/-! ### Answers to queries -/

section Answers

variable {r r' : Roster} {s t : Option AliasTable} {settings : Settings}
  (hids : r.ids.Perm r'.ids) (haliases : ∀ name, aliasEntry? s name = aliasEntry? t name)

include hids haliases

namespace Resolution

theorem trusted?_of_perm (query : String) : trusted? r s query = trusted? r' t query := by
  rw [trusted?, trusted?, Roster.find?_of_perm hids, haliases]

theorem untrusted_of_perm (query : String) :
    untrusted r s settings query = untrusted r' t settings query := by
  unfold untrusted
  rw [haliases]
  simp only [Roster.suggestions_of_perm hids, Roster.shortestContaining?_of_perm hids]

theorem ofQuery_of_perm (query : String) :
    ofQuery r s settings query = ofQuery r' t settings query := by
  rw [ofQuery, ofQuery, trusted?_of_perm hids haliases, untrusted_of_perm hids haliases]

end Resolution

theorem triage_of_perm (queries : List String) : triage r s queries = triage r' t queries := by
  induction queries with
  | nil => rfl
  | cons q queries ih =>
    rw [triage, triage, ih, Resolution.trusted?_of_perm hids haliases]

theorem validateBatch_of_perm (queries : List String) :
    validateBatch r s settings queries = validateBatch r' t settings queries := by
  unfold validateBatch
  rw [triage_of_perm hids haliases]
  simp only [Resolution.untrusted_of_perm hids haliases]

end Answers

/-! ### Findings of a table -/

namespace AliasTable

/-- The findings of a table whose aliases are listed in any order: the list is
sorted, and each alias in it looked up. -/
def lintListed (names : List String) (table : AliasTable) (policy : Option Policy) :
    List AliasFinding :=
  (names.mergeSort fun a b => a ≤ b).flatMap fun name =>
    match table.get? name with
    | none => []
    | some entry => lintEntry policy name entry

theorem lintListed_eq_lint {names : List String} {table : AliasTable}
    (h : names.Perm table.keys) (policy : Option Policy) :
    lintListed names table policy = table.lint policy := by
  have hascending : table.keys.Pairwise fun a b => a ≤ b :=
    List.pairwise_map.2 (table.ascending.imp fun hlt => le_of_lt hlt)
  have hsorted : (names.mergeSort fun a b => a ≤ b) = table.keys :=
    ((List.mergeSort_perm names _).trans h).eq_of_pairwise
      (fun a b _ _ hab hba => String.le_antisymm hab hba)
      (pairwise_mergeSort_key id names) hascending
  rw [lintListed, hsorted, OrderedMap.keys, List.flatMap_map, lint]
  refine List.flatMap_congr fun e he => ?_
  rw [OrderedMap.get?_eq_some_iff.2 he]

theorem lint_congr {p q : Policy} (table : AliasTable)
    (h : ∀ text, p.contains text = q.contains text) :
    table.lint (some p) = table.lint (some q) := by
  simp only [lint, lintEntry, h]

end AliasTable

/-! ### Policies and tables with the same content -/

/-- The same identifiers are declared, and the same aliases have the same
entries. -/
structure SameContent (p q : Policy) (s t : Option AliasTable) : Prop where
  mem_ids_iff : ∀ id, id ∈ p.ids ↔ id ∈ q.ids
  aliasEntry?_eq : ∀ name, aliasEntry? s name = aliasEntry? t name

/-- A run has led to the workspace, and under the names it has the policy and
the table, or no table is named. -/
structure Workspace.Offers [PatternEngine] (w : Workspace) (policy : String)
    (table : Option String) (p : Policy) (s : Option AliasTable) : Prop where
  reachable : w.Reachable
  exists_policy : ∃ x, w.policies.get? policy = some x ∧ x.content = p
  exists_table : ∃ x, w.namedTable? table = some x ∧ x.map (·.content) = s

/-- Histories in which the same modules are declared, and lists in which the
last entries of the aliases are the same, leave the same content. -/
theorem sameContent_ofList {history history' : List (ModuleId × ModuleSpec)}
    {entries entries' : List (String × AliasEntry)}
    (hids : ∀ id, id ∈ history.map (·.1) ↔ id ∈ history'.map (·.1))
    (hlast : ∀ name, entries.reverse.lookup name = entries'.reverse.lookup name) :
    SameContent (.ofList history) (.ofList history') (some (.ofList entries))
      (some (.ofList entries')) where
  mem_ids_iff id := by
    rw [Policy.ids_ofList, Policy.ids_ofList, List.mem_eraseDups, List.mem_eraseDups]
    exact hids id
  aliasEntry?_eq name := by
    show (OrderedMap.ofList entries).get? name = (OrderedMap.ofList entries').get? name
    rw [OrderedMap.get?_ofList, OrderedMap.get?_ofList, hlast]

namespace SameContent

variable {p q : Policy} {s t : Option AliasTable} (h : SameContent p q s t)

include h

theorem ids_perm : p.ids.Perm q.ids :=
  (List.perm_ext_iff_of_nodup p.nodup_ids q.nodup_ids).2 h.mem_ids_iff

theorem contains_eq (text : String) : p.contains text = q.contains text := by
  rw [Bool.eq_iff_iff, Policy.contains_iff, Policy.contains_iff]
  simp only [h.mem_ids_iff]

theorem rosters_perm : (Roster.ofPolicy p).ids.Perm (Roster.ofPolicy q).ids :=
  (Roster.ids_perm p).trans (h.ids_perm.trans (Roster.ids_perm q).symm)

theorem resolve_eq (settings : Settings) (query : String) :
    resolve p s settings query = resolve q t settings query := by
  rw [resolve, resolve]
  simp only [Resolution.ofQuery_of_perm h.rosters_perm h.aliasEntry?_eq]

theorem tables_eq {a b : AliasTable} (hs : s = some a) (ht : t = some b) : a = b :=
  OrderedMap.ext_get? fun name => by simpa [hs, ht, aliasEntry?] using h.aliasEntry?_eq name

/-- **The findings are the same.** -/
theorem lint_eq {a b : AliasTable} (hs : s = some a) (ht : t = some b) :
    a.lint (some p) = b.lint (some q) := by
  rw [h.tables_eq hs ht, b.lint_congr h.contains_eq]

/-- **So are the answers of workspaces,** whatever their caches hold. -/
theorem perform_fst_eq [PatternEngine] {w w' : Workspace} {policy policy' : String}
    {table table' : Option String}
    (hw : w.Offers policy table p s) (hw' : w'.Offers policy' table' q t) :
    (∀ settings query, (w.perform (.sharedResolve settings policy table query)).1 =
        (w'.perform (.sharedResolve settings policy' table' query)).1) ∧
      ∀ queries, (w.perform (.sharedValidate policy table queries)).1 =
        (w'.perform (.sharedValidate policy' table' queries)).1 := by
  obtain ⟨hreachable, ⟨x, hx, rfl⟩, ⟨y, hy, rfl⟩⟩ := hw
  obtain ⟨hreachable', ⟨x', hx', rfl⟩, ⟨y', hy', rfl⟩⟩ := hw'
  refine ⟨fun settings query => ?_, fun queries => ?_⟩
  · rw [hreachable.sharedResolve_fst hx hy, hreachable'.sharedResolve_fst hx' hy', h.resolve_eq]
  · rw [hreachable.sharedValidate_fst hx hy, hreachable'.sharedValidate_fst hx' hy',
      validateBatch_of_perm h.rosters_perm h.aliasEntry?_eq]

end SameContent

/-- **Answers depend on content alone.** Two policies that declare the same
identifiers, and two tables with the same entries or none, give the same
resolution of every query under all settings, the same report of every batch and
the same findings in the same order. It does not matter in which order the
identifiers and the aliases come out of what they are kept in, nor what the
caches of a workspace have seen before. -/
theorem answers_depend_on_content [PatternEngine] {p q : Policy} {s t : Option AliasTable}
    (h : SameContent p q s t) :
    (∀ settings query, resolve p s settings query = resolve q t settings query) ∧
      (∀ r r' : Roster, r.ids.Perm p.ids → r'.ids.Perm q.ids →
        (∀ settings query,
          Resolution.ofQuery r s settings query = Resolution.ofQuery r' t settings query) ∧
        ∀ settings queries,
          validateBatch r s settings queries = validateBatch r' t settings queries) ∧
      (∀ a b, s = some a → t = some b → a.lint (some p) = b.lint (some q) ∧
        ∀ names names' : List String, names.Perm a.keys → names'.Perm b.keys →
          AliasTable.lintListed names a (some p) = AliasTable.lintListed names' b (some q)) ∧
      ∀ w w' policy policy' table table', Workspace.Offers w policy table p s →
        Workspace.Offers w' policy' table' q t →
          (∀ settings query, (w.perform (.sharedResolve settings policy table query)).1 =
            (w'.perform (.sharedResolve settings policy' table' query)).1) ∧
          ∀ queries, (w.perform (.sharedValidate policy table queries)).1 =
            (w'.perform (.sharedValidate policy' table' queries)).1 := by
  refine ⟨h.resolve_eq, fun r r' hr hr' => ?_, fun a b hs ht => ?_,
    fun w w' _ _ _ _ hw hw' => h.perform_fst_eq hw hw'⟩
  · have hids : r.ids.Perm r'.ids := hr.trans (h.ids_perm.trans hr'.symm)
    exact ⟨fun settings => Resolution.ofQuery_of_perm hids h.aliasEntry?_eq,
      fun settings => validateBatch_of_perm hids h.aliasEntry?_eq⟩
  · refine ⟨h.lint_eq hs ht, fun names names' ha hb => ?_⟩
    rw [AliasTable.lintListed_eq_lint ha, AliasTable.lintListed_eq_lint hb, h.lint_eq hs ht]

/-! A market that is declared at once, and one that comes about by trial: its
modules stand in the other order, one of them is declared twice, and one alias
has stood for something else. -/

def stallId : ModuleId := ⟨"market/stall", by decide⟩

def coinId : ModuleId := ⟨"market/coin", by decide⟩

def marketModules : List (ModuleId × ModuleSpec) := [(stallId, {}), (coinId, {})]

def triedModules : List (ModuleId × ModuleSpec) :=
  [(coinId, {}), (stallId, { ownsPaths := ["market/**"] }), (coinId, { notes := "gold" })]

def marketAliases : List (String × AliasEntry) :=
  [("stall", { canonical := stallId }), ("coin", { canonical := coinId })]

def triedAliases : List (String × AliasEntry) :=
  [("coin", { canonical := stallId }), ("stall", { canonical := stallId }),
    ("coin", { canonical := coinId })]

theorem sameContent_market :
    SameContent (.ofList marketModules) (.ofList triedModules) (some (.ofList marketAliases))
      (some (.ofList triedAliases)) := by
  refine sameContent_ofList (fun id => ?_) fun name => ?_
  · simp [marketModules, triedModules, or_comm]
  · simp only [marketAliases, triedAliases, List.reverse_cons, List.reverse_nil, List.nil_append,
      List.cons_append, lookup_cons_eq, List.lookup_nil]
    split <;> simp_all

/-- A workspace with a policy and a table. -/
def marketCommands (modules : List (ModuleId × ModuleSpec)) (entries : List (String × AliasEntry)) :
    List Command :=
  [.newPolicy "market" modules, .newTable "names" entries]

theorem offers_market [PatternEngine] (modules : List (ModuleId × ModuleSpec))
    (entries : List (String × AliasEntry)) :
    Workspace.Offers (({} : Workspace).after (marketCommands modules entries)) "market"
      (some "names") (.ofList modules) (some (.ofList entries)) where
  reachable := ⟨_, rfl⟩
  exists_policy := ⟨⟨1, .ofList modules⟩, rfl, rfl⟩
  exists_table := ⟨some ⟨1, .ofList entries⟩, rfl, rfl⟩

theorem answers_depend_on_content_market :
    Policy.ofList marketModules ≠ .ofList triedModules ∧
      (∀ settings query,
        resolve (.ofList marketModules) (some (.ofList marketAliases)) settings query =
          resolve (.ofList triedModules) (some (.ofList triedAliases)) settings query) ∧
      AliasTable.lint (.ofList marketAliases) (some (.ofList marketModules)) =
        AliasTable.lint (.ofList triedAliases) (some (.ofList triedModules)) ∧
      ∀ queries,
        ((({} : Workspace).after (marketCommands marketModules marketAliases)).perform
            (.sharedValidate "market" (some "names") queries)).1 =
          ((({} : Workspace).after (marketCommands triedModules triedAliases)).perform
            (.sharedValidate "market" (some "names") queries)).1 := by
  obtain ⟨hresolve, -, hlint, hworkspaces⟩ := answers_depend_on_content sameContent_market
  obtain ⟨-, hvalidate⟩ := hworkspaces _ _ _ _ _ _ (offers_market marketModules marketAliases)
    (offers_market triedModules triedAliases)
  exact ⟨by decide, hresolve, (hlint _ _ rfl rfl).1, hvalidate⟩

end ModulePolicy
