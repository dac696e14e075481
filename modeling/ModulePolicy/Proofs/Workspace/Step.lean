/-
# What a command does

Policies stand on one shelf and tables on another, each with the stamp that is
drawn next, and every cache belongs to the workspace or to a resolver. A command
puts one policy or one table at most (`policyPut?`, `tablePut?`), or else makes one
call of one cache, with the policy and the table that stand under their names at
that moment (`call?`):

| command | policy or table | under | call of a cache |
| --- | --- | --- | --- |
| `newPolicy`, `newTable` | one that is made from a list | the new name | |
| `insertModule`, `insertAlias` | the named one, changed | its own name | |
| `clonePolicy`, `cloneTable` | the named one | the new name | |
| `newResolver` | | | `make` of the resolver's, under valid settings |
| `resolve`, `validate`, `clearResolver` | | | `resolve`, `validate`, `clear` of the resolver's |
| `sharedResolve`, `sharedValidate` | | | `resolve`, `validate` of the shared one |
| `clearShared`, `resetShared` | | | `clear`, `resetTally` of the shared one |
| any other | | | |

A command that names what is not there does neither. This is all that there is to
a command (`effect_perform`), and the one place where commands are gone through:
what stamps stand for, what caches hold, what they count and what is answered only
depends on what is put and what is called.
-/

import ModulePolicy.Workspace

namespace ModulePolicy

/-! ### Shelves -/

/-- Stamped values under names, with the stamp that is drawn next. -/
structure Shelf (α : Type) where
  items : OrderedMap (Stamped α)
  next : Nat

namespace Shelf

variable {α : Type}

/-- Puts a value under a name, with a new stamp. -/
def put (s : Shelf α) (name : String) (x : α) : Shelf α :=
  ⟨s.items.insert name ⟨s.next, x⟩, s.next + 1⟩

/-- Puts a value if there is one. -/
def putSome (s : Shelf α) : Option (String × α) → Shelf α
  | none => s
  | some e => s.put e.1 e.2

end Shelf

/-! ### Calls of caches -/

/-- One call of a cache. -/
inductive CacheCall
  | make
  | resolve (settings : Settings) (policy : Stamped Policy) (table : Option (Stamped AliasTable))
      (query : String)
  | validate (settings : Settings) (policy : Stamped Policy) (table : Option (Stamped AliasTable))
      (queries : List String)
  | clear
  | resetTally

namespace LookupCache

/-- The cache that a call leaves. -/
def call (c : LookupCache) : CacheCall → LookupCache
  | .make => .empty
  | .resolve settings policy table query => (c.resolveChecked settings policy table query).2
  | .validate settings policy table queries => (c.validate settings policy table queries).2
  | .clear => c.clear
  | .resetTally => c.resetTally

/-- The answer to a call. -/
def answer (c : LookupCache) : CacheCall → CommandAnswer
  | .resolve settings policy table query =>
    .resolution (c.resolveChecked settings policy table query).1
  | .validate settings policy table queries => .report (c.validate settings policy table queries).1
  | _ => .done

end LookupCache

/-- The answer to a call without a cache. -/
def CacheCall.uncachedAnswer : CacheCall → CommandAnswer
  | .resolve settings policy table query =>
    .resolution (ModulePolicy.resolve policy.content (table.map (·.content)) settings query)
  | .validate settings policy table queries =>
    .report (validateBatch (.ofPolicy policy.content) (table.map (·.content)) settings queries)
  | _ => .done

/-- Whose cache it is. -/
inductive CacheOwner
  | shared
  | resolver (name : String)
deriving DecidableEq

/-- What a call is about stands in the workspace under some name. -/
def CacheCall.StandsIn (w : Workspace) : CacheCall → Prop
  | .resolve _ policy table _ =>
    (∃ name, w.policies.get? name = some policy) ∧ ∃ name, w.namedTable? name = some table
  | .validate _ policy table _ =>
    (∃ name, w.policies.get? name = some policy) ∧ ∃ name, w.namedTable? name = some table
  | _ => True

namespace Workspace

def policyShelf (w : Workspace) : Shelf Policy := ⟨w.policies, w.nextPolicyStamp⟩

def tableShelf (w : Workspace) : Shelf AliasTable := ⟨w.tables, w.nextTableStamp⟩

/-- The cache of an owner. A resolver that is not there counts as one with an
empty cache. -/
def cacheOf (w : Workspace) : CacheOwner → LookupCache
  | .shared => w.sharedCache
  | .resolver name => ((w.resolvers.get? name).map (·.cache)).getD .empty

/-- The policy that a command makes, changes or copies, and its name. -/
def policyPut? (w : Workspace) : Command → Option (String × Policy)
  | .newPolicy name modules => some (name, .ofList modules)
  | .insertModule policy id spec =>
    (w.policies.get? policy).map fun p => (policy, (p.content.insert id spec).2)
  | .clonePolicy policy name => (w.policies.get? policy).map fun p => (name, p.content)
  | _ => none

/-- The table that a command makes, changes or copies, and its name. -/
def tablePut? (w : Workspace) : Command → Option (String × AliasTable)
  | .newTable name entries => some (name, .ofList entries)
  | .insertAlias table name entry =>
    (w.tables.get? table).map fun t => (table, t.content.insert name entry)
  | .cloneTable table name => (w.tables.get? table).map fun t => (name, t.content)
  | _ => none

/-- The call that a command makes, and of whose cache. -/
def call? (w : Workspace) : Command → Option (CacheOwner × CacheCall)
  | .newResolver name settings =>
    match settings.validate with
    | .ok () => some (.resolver name, .make)
    | .error _ => none
  | .resolve resolver policy table query => do
    let r ← w.resolvers.get? resolver
    let p ← w.policies.get? policy
    let t ← w.namedTable? table
    pure (.resolver resolver, .resolve r.settings p t query)
  | .validate resolver policy table queries => do
    let r ← w.resolvers.get? resolver
    let p ← w.policies.get? policy
    let t ← w.namedTable? table
    pure (.resolver resolver, .validate r.settings p t queries)
  | .clearResolver resolver => (w.resolvers.get? resolver).map fun _ => (.resolver resolver, .clear)
  | .sharedResolve settings policy table query => do
    let p ← w.policies.get? policy
    let t ← w.namedTable? table
    pure (.shared, .resolve settings p t query)
  | .sharedValidate policy table queries => do
    let p ← w.policies.get? policy
    let t ← w.namedTable? table
    pure (.shared, .validate .strict p t queries)
  | .clearShared => some (.shared, .clear)
  | .resetShared => some (.shared, .resetTally)
  | _ => none

/-- What a call leaves of the cache of an owner: nothing else if it is not of
this cache. -/
def cacheAfter (w : Workspace) (owner : CacheOwner) : Option (CacheOwner × CacheCall) → LookupCache
  | none => w.cacheOf owner
  | some e => if e.1 = owner then (w.cacheOf owner).call e.2 else w.cacheOf owner

/-- The answer to a command when each resolution and each validation builds its
own lookups from the policy and the table it names. -/
def uncachedAnswer [PatternEngine] (w : Workspace) : Command → CommandAnswer
  | .resolve resolver policy table query =>
    match w.resolvers.get? resolver, w.policies.get? policy, w.namedTable? table with
    | some r, some p, some t =>
      .resolution (ModulePolicy.resolve p.content (t.map (·.content)) r.settings query)
    | _, _, _ => .unknownName
  | .validate resolver policy table queries =>
    match w.resolvers.get? resolver, w.policies.get? policy, w.namedTable? table with
    | some r, some p, some t =>
      .report (validateBatch (.ofPolicy p.content) (t.map (·.content)) r.settings queries)
    | _, _, _ => .unknownName
  | .sharedResolve settings policy table query =>
    match w.policies.get? policy, w.namedTable? table with
    | some p, some t =>
      .resolution (ModulePolicy.resolve p.content (t.map (·.content)) settings query)
    | _, _ => .unknownName
  | .sharedValidate policy table queries =>
    match w.policies.get? policy, w.namedTable? table with
    | some p, some t =>
      .report (validateBatch (.ofPolicy p.content) (t.map (·.content)) .strict queries)
    | _, _ => .unknownName
  | c => (w.perform c).1

/-- The workspace that some commands leave, one performed after the other. -/
def after [PatternEngine] (w : Workspace) (commands : List Command) : Workspace :=
  commands.foldl (fun w c => (w.perform c).2) w

/-- What a command does to what is stamped and cached, and where its answer comes
from. -/
structure Effect [PatternEngine] (w : Workspace) (c : Command) (r : CommandAnswer × Workspace) :
    Prop where
  policyShelf : r.2.policyShelf = w.policyShelf.putSome (w.policyPut? c)
  tableShelf : r.2.tableShelf = w.tableShelf.putSome (w.tablePut? c)
  cacheOf : ∀ owner, r.2.cacheOf owner = w.cacheAfter owner (w.call? c)
  answer_of_call : ∀ e, w.call? c = some e → e.2.StandsIn w ∧
    r.1 = (w.cacheOf e.1).answer e.2 ∧ w.uncachedAnswer c = e.2.uncachedAnswer
  answer_of_none : w.call? c = none → r.1 = w.uncachedAnswer c

section Put

variable (w : Workspace) (owner : CacheOwner)

theorem cacheOf_putResolver (name : String) (r : Resolver) :
    (w.putResolver name r).cacheOf owner =
      if CacheOwner.resolver name = owner then r.cache else w.cacheOf owner := by
  cases owner with
  | shared => rfl
  | resolver other =>
    simp only [cacheOf, putResolver, OrderedMap.get?_insert, CacheOwner.resolver.injEq,
      eq_comm (a := name)]
    split <;> rfl

/-- A call of the cache of a resolver that is there. -/
theorem cacheOf_putResolver_call {name : String} {r : Resolver}
    (hr : w.resolvers.get? name = some r) {r' : Resolver} {call : CacheCall}
    (hcall : r'.cache = r.cache.call call) :
    (w.putResolver name r').cacheOf owner = w.cacheAfter owner (some (.resolver name, call)) := by
  rw [cacheOf_putResolver, cacheAfter, hcall]
  split
  · rename_i howner
    subst howner
    simp only [cacheOf, hr, Option.map_some, Option.getD_some]
  · rfl

theorem cacheOf_putSharedCache_call (call : CacheCall) :
    { w with sharedCache := w.sharedCache.call call }.cacheOf owner =
      w.cacheAfter owner (some (.shared, call)) := by
  cases owner <;> rfl

end Put

/-- Under valid settings a resolution is one that checks them. -/
theorem resolve_eq_resolveChecked (r : Resolver) (p : Stamped Policy)
    (t : Option (Stamped AliasTable)) (query : String) :
    r.cache.resolve r.settings p t query = r.cache.resolveChecked r.settings p t query := by
  simp only [LookupCache.resolveChecked, r.valid]

section Step

variable [PatternEngine] {w : Workspace} {c : Command}

/-- A command that makes no call. -/
theorem effect_of_no_call {w' : Workspace} (hperform : (w.perform c).2 = w')
    (hcall : w.call? c = none) (hanswer : (w.perform c).1 = w.uncachedAnswer c)
    (hpolicies : w'.policyShelf = w.policyShelf.putSome (w.policyPut? c))
    (htables : w'.tableShelf = w.tableShelf.putSome (w.tablePut? c))
    (hcaches : ∀ owner, w'.cacheOf owner = w.cacheOf owner) : w.Effect c (w.perform c) where
  policyShelf := hperform ▸ hpolicies
  tableShelf := hperform ▸ htables
  cacheOf := by rw [hperform, hcall]; exact hcaches
  answer_of_call e he := by rw [hcall] at he; cases he
  answer_of_none _ := hanswer

/-- A command that does not find what it names. -/
theorem effect_of_unknown (hunknown : w.perform? c = none) (hpolicy : w.policyPut? c = none)
    (htable : w.tablePut? c = none) (hcall : w.call? c = none)
    (hanswer : w.uncachedAnswer c = .unknownName) : w.Effect c (w.perform c) := by
  have hperform : w.perform c = (.unknownName, w) := by rw [perform, hunknown]; rfl
  exact effect_of_no_call (congrArg Prod.snd hperform) hcall (by rw [hperform, hanswer])
    (by rw [hpolicy]; rfl) (by rw [htable]; rfl) fun _ => rfl

/-- A command that puts a policy, if there is one to put. -/
theorem effect_of_policyPut
    (hput : w.perform? c = (w.policyPut? c).map fun e => ((w.perform c).1, w.putPolicy e.1 e.2))
    (htable : w.tablePut? c = none) (hcall : w.call? c = none)
    (hanswer : w.uncachedAnswer c = (w.perform c).1) : w.Effect c (w.perform c) := by
  cases hpolicy : w.policyPut? c with
  | none =>
    rw [hpolicy] at hput
    exact effect_of_unknown hput hpolicy htable hcall (hanswer.trans (by rw [perform, hput]; rfl))
  | some e =>
    rw [hpolicy] at hput
    have hperform : (w.perform c).2 = w.putPolicy e.1 e.2 := by rw [perform, hput]; rfl
    exact effect_of_no_call hperform hcall hanswer.symm (by rw [hpolicy]; rfl)
      (by rw [htable]; rfl) fun owner => by cases owner <;> rfl

/-- A command that puts a table, if there is one to put. -/
theorem effect_of_tablePut
    (hput : w.perform? c = (w.tablePut? c).map fun e => ((w.perform c).1, w.putTable e.1 e.2))
    (hpolicy : w.policyPut? c = none) (hcall : w.call? c = none)
    (hanswer : w.uncachedAnswer c = (w.perform c).1) : w.Effect c (w.perform c) := by
  cases htable : w.tablePut? c with
  | none =>
    rw [htable] at hput
    exact effect_of_unknown hput hpolicy htable hcall (hanswer.trans (by rw [perform, hput]; rfl))
  | some e =>
    rw [htable] at hput
    have hperform : (w.perform c).2 = w.putTable e.1 e.2 := by rw [perform, hput]; rfl
    exact effect_of_no_call hperform hcall hanswer.symm (by rw [hpolicy]; rfl)
      (by rw [htable]; rfl) fun owner => by cases owner <;> rfl

/-- A command that makes a call. -/
theorem effect_of_call {owner : CacheOwner} {call : CacheCall} {w' : Workspace}
    (hpolicy : w.policyPut? c = none) (htable : w.tablePut? c = none)
    (hcall : w.call? c = some (owner, call))
    (hperform : w.perform? c = some ((w.cacheOf owner).answer call, w'))
    (hpolicies : w'.policyShelf = w.policyShelf) (htables : w'.tableShelf = w.tableShelf)
    (hcaches : ∀ other, w'.cacheOf other = w.cacheAfter other (some (owner, call)))
    (hstands : call.StandsIn w) (huncached : w.uncachedAnswer c = call.uncachedAnswer) :
    w.Effect c (w.perform c) := by
  rw [perform, hperform, Option.getD_some]
  exact
    { policyShelf := by rw [hpolicy]; exact hpolicies
      tableShelf := by rw [htable]; exact htables
      cacheOf := by rw [hcall]; exact hcaches
      answer_of_call := fun e he => by
        obtain rfl := Option.some.inj (hcall.symm.trans he)
        exact ⟨hstands, rfl, huncached⟩
      answer_of_none := fun hnone => by rw [hcall] at hnone; cases hnone }

/-- A command that makes a call of the cache of a resolver, with a policy and a
table. -/
theorem effect_of_resolver_call {resolver policy : String} {table : Option String}
    (call : Resolver → Stamped Policy → Option (Stamped AliasTable) → CacheCall)
    (hpolicy : w.policyPut? c = none) (htable : w.tablePut? c = none)
    (hcall : w.call? c = do
      let r ← w.resolvers.get? resolver
      let p ← w.policies.get? policy
      let t ← w.namedTable? table
      pure (.resolver resolver, call r p t))
    (hperform : w.perform? c = do
      let r ← w.resolvers.get? resolver
      let p ← w.policies.get? policy
      let t ← w.namedTable? table
      pure (r.cache.answer (call r p t),
        w.putResolver resolver { r with cache := r.cache.call (call r p t) }))
    (hstands : ∀ r p t, w.policies.get? policy = some p → w.namedTable? table = some t →
      (call r p t).StandsIn w)
    (huncached : w.uncachedAnswer c =
      match w.resolvers.get? resolver, w.policies.get? policy, w.namedTable? table with
      | some r, some p, some t => (call r p t).uncachedAnswer
      | _, _, _ => .unknownName) : w.Effect c (w.perform c) := by
  rcases hr : w.resolvers.get? resolver with _ | r
  · rw [hr] at hcall hperform huncached
    exact effect_of_unknown hperform hpolicy htable hcall huncached
  rcases hp : w.policies.get? policy with _ | p
  · rw [hr, hp] at hcall hperform huncached
    exact effect_of_unknown hperform hpolicy htable hcall huncached
  rcases ht : w.namedTable? table with _ | t
  · rw [hr, hp, ht] at hcall hperform huncached
    exact effect_of_unknown hperform hpolicy htable hcall huncached
  rw [hr, hp, ht] at hcall hperform huncached
  have hcache : w.cacheOf (.resolver resolver) = r.cache := by
    rw [cacheOf, hr, Option.map_some, Option.getD_some]
  have hfound : w.perform? c = some ((w.cacheOf (.resolver resolver)).answer (call r p t),
      w.putResolver resolver { r with cache := r.cache.call (call r p t) }) := by
    rw [hcache]
    exact hperform
  exact effect_of_call hpolicy htable hcall hfound rfl rfl
    (fun other => w.cacheOf_putResolver_call other hr rfl) (hstands r p t hp ht) huncached

/-- A command that makes a call of the shared cache, with a policy and a table. -/
theorem effect_of_shared_call {policy : String} {table : Option String}
    (call : Stamped Policy → Option (Stamped AliasTable) → CacheCall)
    (hpolicy : w.policyPut? c = none) (htable : w.tablePut? c = none)
    (hcall : w.call? c = do
      let p ← w.policies.get? policy
      let t ← w.namedTable? table
      pure (.shared, call p t))
    (hperform : w.perform? c = do
      let p ← w.policies.get? policy
      let t ← w.namedTable? table
      pure (w.sharedCache.answer (call p t),
        { w with sharedCache := w.sharedCache.call (call p t) }))
    (hstands : ∀ p t, w.policies.get? policy = some p → w.namedTable? table = some t →
      (call p t).StandsIn w)
    (huncached : w.uncachedAnswer c =
      match w.policies.get? policy, w.namedTable? table with
      | some p, some t => (call p t).uncachedAnswer
      | _, _ => .unknownName) : w.Effect c (w.perform c) := by
  rcases hp : w.policies.get? policy with _ | p
  · rw [hp] at hcall hperform huncached
    exact effect_of_unknown hperform hpolicy htable hcall huncached
  rcases ht : w.namedTable? table with _ | t
  · rw [hp, ht] at hcall hperform huncached
    exact effect_of_unknown hperform hpolicy htable hcall huncached
  rw [hp, ht] at hcall hperform huncached
  exact effect_of_call hpolicy htable hcall hperform rfl rfl
    (fun other => w.cacheOf_putSharedCache_call other _) (hstands p t hp ht) huncached

/-- **All that a command does.** -/
theorem effect_perform (w : Workspace) (c : Command) : w.Effect c (w.perform c) := by
  cases c with
  | newPolicy name modules => exact effect_of_policyPut rfl rfl rfl rfl
  | insertModule policy id spec =>
    refine effect_of_policyPut ?_ rfl rfl rfl
    cases hp : w.policies.get? policy <;> simp [perform, perform?, policyPut?, hp]
  | clonePolicy policy name =>
    refine effect_of_policyPut ?_ rfl rfl rfl
    cases hp : w.policies.get? policy <;> simp [perform, perform?, policyPut?, hp]
  | newTable name entries => exact effect_of_tablePut rfl rfl rfl rfl
  | insertAlias table name entry =>
    refine effect_of_tablePut ?_ rfl rfl rfl
    cases ht : w.tables.get? table <;> simp [perform, perform?, tablePut?, ht]
  | cloneTable table name =>
    refine effect_of_tablePut ?_ rfl rfl rfl
    cases ht : w.tables.get? table <;> simp [perform, perform?, tablePut?, ht]
  | newResolver name settings =>
    -- `perform?` keeps the proof that the settings are valid, so its match is split, not rewritten
    cases hvalid : settings.validate with
    | error fault =>
      have hperform : (w.perform (.newResolver name settings)).2 = w := by
        simp only [perform, perform?]
        split <;> simp_all
      exact effect_of_no_call hperform (by simp only [call?, hvalid]) rfl rfl rfl fun _ => rfl
    | ok _ =>
      have hcall : w.call? (.newResolver name settings) = some (.resolver name, .make) := by
        simp only [call?, hvalid]
      have hperform : w.perform? (.newResolver name settings) =
          some ((w.cacheOf (.resolver name)).answer .make,
            w.putResolver name ⟨settings, hvalid, .empty⟩) := by
        simp only [perform?]
        split <;> simp_all [LookupCache.answer]
      have huncached : w.uncachedAnswer (.newResolver name settings) = .done := by
        simp only [uncachedAnswer, perform, hperform]
        rfl
      exact effect_of_call rfl rfl hcall hperform rfl rfl
        (fun other => w.cacheOf_putResolver other name _) trivial huncached
  | newGraph policy name =>
    rcases hp : w.policies.get? policy with _ | p
    · have hperform : (w.perform (.newGraph policy name)).2 = w := by simp [perform, perform?, hp]
      exact effect_of_no_call hperform rfl rfl rfl rfl fun _ => rfl
    have hperform : (w.perform (.newGraph policy name)).2 =
        { w with graphs := w.graphs.insert name (.ofPolicy p.content) } := by
      simp [perform, perform?, hp]
    exact effect_of_no_call hperform rfl rfl rfl rfl fun owner => by cases owner <;> rfl
  | newChecker policy name =>
    rcases hp : w.policies.get? policy with _ | p
    · have hperform : (w.perform (.newChecker policy name)).2 = w := by simp [perform, perform?, hp]
      exact effect_of_no_call hperform rfl rfl rfl rfl fun _ => rfl
    cases hc : Checker.ofPolicy p.content with
    | error fault =>
      have hperform : (w.perform (.newChecker policy name)).2 = w := by
        simp [perform, perform?, hp, hc]
      exact effect_of_no_call hperform rfl rfl rfl rfl fun _ => rfl
    | ok checker =>
      have hperform : (w.perform (.newChecker policy name)).2 =
          { w with checkers := w.checkers.insert name checker } := by
        simp [perform, perform?, hp, hc]
      exact effect_of_no_call hperform rfl rfl rfl rfl fun owner => by cases owner <;> rfl
  | resolve resolver policy table query =>
    -- the settings of a resolver are valid, so its cache may as well check them
    refine effect_of_resolver_call (fun r p t => .resolve r.settings p t query) rfl rfl rfl ?_
      (fun r p t hp ht => ⟨⟨_, hp⟩, _, ht⟩) rfl
    simp only [perform?, resolve_eq_resolveChecked]
    rfl
  | validate resolver policy table queries =>
    exact effect_of_resolver_call (fun r p t => .validate r.settings p t queries) rfl rfl rfl rfl
      (fun r p t hp ht => ⟨⟨_, hp⟩, _, ht⟩) rfl
  | clearResolver resolver =>
    rcases hr : w.resolvers.get? resolver with _ | r
    · have hperform : (w.perform (.clearResolver resolver)).2 = w := by simp [perform, perform?, hr]
      exact effect_of_no_call hperform (by simp only [call?, hr, Option.map_none]) rfl rfl rfl
        fun _ => rfl
    have hcall : w.call? (.clearResolver resolver) = some (.resolver resolver, .clear) := by
      simp only [call?, hr, Option.map_some]
    have hperform : w.perform? (.clearResolver resolver) =
        some ((w.cacheOf (.resolver resolver)).answer .clear,
          w.putResolver resolver { r with cache := r.cache.clear }) := by
      simp [perform?, hr, LookupCache.answer]
    have huncached : w.uncachedAnswer (.clearResolver resolver) = .done := by
      simp only [uncachedAnswer, perform, hperform]
      rfl
    exact effect_of_call rfl rfl hcall hperform rfl rfl
      (fun other => w.cacheOf_putResolver_call other hr rfl) trivial huncached
  | sharedResolve settings policy table query =>
    exact effect_of_shared_call (fun p t => .resolve settings p t query) rfl rfl rfl rfl
      (fun p t hp ht => ⟨⟨_, hp⟩, _, ht⟩) rfl
  | sharedValidate policy table queries =>
    exact effect_of_shared_call (fun p t => .validate .strict p t queries) rfl rfl rfl rfl
      (fun p t hp ht => ⟨⟨_, hp⟩, _, ht⟩) rfl
  | clearShared =>
    exact effect_of_call rfl rfl rfl rfl rfl rfl
      (fun other => w.cacheOf_putSharedCache_call other .clear) trivial rfl
  | resetShared =>
    exact effect_of_call rfl rfl rfl rfl rfl rfl
      (fun other => w.cacheOf_putSharedCache_call other .resetTally) trivial rfl

end Step

end Workspace

end ModulePolicy
