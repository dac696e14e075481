/-
# Policies of a workspace are what was declared in them

A run of commands declares modules in many policies, copies some of them and
goes on declaring in both. The history of a policy is all that was declared in
it, or in what it is a copy of, in that order (`historiesAfter`):

| command | history |
| --- | --- |
| `newPolicy` | the modules of the command |
| `insertModule` | one declaration more |
| `clonePolicy` | that of the original |

Nothing else has a part in what a policy is (`policies_follow_histories`).
-/

import ModulePolicy.Proofs.Module.Slots
import ModulePolicy.Proofs.Workspace.Stamps

namespace ModulePolicy

/-- What a policy answers is what its history says. -/
structure Policy.Follows (p : Policy) (history : List (ModuleId × ModuleSpec)) : Prop where
  declarations_eq : p.declarations = withoutRepetitions history
  ids_eq : p.ids = (history.map (·.1)).eraseDups
  size_eq : p.size = (history.map (·.1)).toFinset.card
  spec?_eq : ∀ text, p.spec? text = (lastDeclaration? history text).map (·.2)
  moduleId?_eq : ∀ text, p.moduleId? text = (lastDeclaration? history text).map (·.1)
  contains_eq : ∀ text, p.contains text = (lastDeclaration? history text).isSome
  insert_fst : ∀ id spec, (p.insert id spec).1 = (lastDeclaration? history id.text).map (·.2)
  stored : ∃ s, SlotPolicy.ofList history = some s ∧ s.AnswersAs p

/-- The owners, the checks, the graph and the resolutions of two policies are the
same. -/
structure Policy.ActsAs (p q : Policy) : Prop where
  ownership_eq : ∀ [PatternEngine], OwnershipIndex.ofPolicy p = OwnershipIndex.ofPolicy q
  checker_eq : ∀ [PatternEngine], Checker.ofPolicy p = Checker.ofPolicy q
  graph_eq : PolicyGraph.ofPolicy p = PolicyGraph.ofPolicy q
  resolve_eq : ∀ aliases settings query,
    resolve p aliases settings query = resolve q aliases settings query
  validateBatch_eq : ∀ aliases settings queries,
    validateBatch (.ofPolicy p) aliases settings queries =
      validateBatch (.ofPolicy q) aliases settings queries

theorem Policy.ActsAs.refl (p : Policy) : p.ActsAs p :=
  ⟨rfl, rfl, rfl, fun _ _ _ => rfl, fun _ _ _ => rfl⟩

theorem Policy.follows_ofList (history : List (ModuleId × ModuleSpec)) :
    (ofList history).Follows history where
  declarations_eq := declarations_ofList history
  ids_eq := ids_ofList history
  size_eq := size_ofList history
  spec?_eq text := by rw [spec?, find?_ofList]
  moduleId?_eq text := by rw [moduleId?, find?_ofList]
  contains_eq text := by rw [contains, find?_ofList]
  insert_fst := insert_fst_ofList history
  stored := by
    obtain ⟨s, hs, h⟩ := SlotPolicy.exists_ofList history
    exact ⟨s, hs, h.answersAs⟩

namespace Shelf

variable {α : Type}

/-- What stands under a name. -/
def content? (s : Shelf α) (name : String) : Option α := (s.items.get? name).map (·.content)

theorem content?_put (s : Shelf α) (name : String) (x : α) (n : String) :
    (s.put name x).content? n = if n = name then some x else s.content? n := by
  unfold content? put
  rw [OrderedMap.get?_insert]
  split <;> rfl

end Shelf

namespace Workspace

/-- The histories of the policies, by name. -/
abbrev Histories := OrderedMap (List (ModuleId × ModuleSpec))

/-- The history that a command makes, and the name of the policy. -/
def Histories.put? (h : Histories) : Command → Option (String × List (ModuleId × ModuleSpec))
  | .newPolicy name modules => some (name, modules)
  | .insertModule policy id spec =>
    (h.get? policy).map fun history => (policy, history ++ [(id, spec)])
  | .clonePolicy policy name => (h.get? policy).map fun history => (name, history)
  | _ => none

def Histories.record (h : Histories) (c : Command) : Histories :=
  match h.put? c with
  | none => h
  | some e => h.insert e.1 e.2

/-- The histories after a run from an empty workspace. -/
def historiesAfter (commands : List Command) : Histories := commands.foldl Histories.record .empty

/-- Each policy is made of its history, and there are no others. -/
def Tracks (w : Workspace) (h : Histories) : Prop :=
  ∀ name, w.policyShelf.content? name = (h.get? name).map .ofList

namespace Tracks

variable {w : Workspace} {h : Histories}

/-- **A command puts the policy of the history that it makes.** -/
theorem policyPut?_eq (ht : w.Tracks h) (c : Command) :
    w.policyPut? c = (h.put? c).map fun e => (e.1, .ofList e.2) := by
  have hcontent : ∀ name, (w.policies.get? name).map (·.content) = (h.get? name).map .ofList := ht
  cases c with
  | newPolicy name modules => rfl
  | insertModule policy id spec =>
    have := congrArg (Option.map fun p => (policy, (Policy.insert p id spec).2)) (hcontent policy)
    simpa [policyPut?, Histories.put?, Function.comp_def, Policy.ofList_concat] using this
  | clonePolicy policy name =>
    have := congrArg (Option.map fun p => (name, p)) (hcontent policy)
    simpa [policyPut?, Histories.put?, Function.comp_def] using this
  | _ => rfl

theorem perform [PatternEngine] (ht : w.Tracks h) (c : Command) :
    (w.perform c).2.Tracks (h.record c) := by
  intro name
  rw [policyShelf_perform, ht.policyPut?_eq, Histories.record]
  cases h.put? c with
  | none => exact ht name
  | some e =>
    show (w.policyShelf.put e.1 (.ofList e.2)).content? name = _
    rw [Shelf.content?_put, OrderedMap.get?_insert]
    split
    · rfl
    · exact ht name

theorem after [PatternEngine] (ht : w.Tracks h) (commands : List Command) :
    (w.after commands).Tracks (commands.foldl Histories.record h) := by
  induction commands generalizing w h with
  | nil => exact ht
  | cons c commands ih => exact ih (ht.perform c)

end Tracks

theorem tracks_historiesAfter [PatternEngine] (commands : List Command) :
    (({} : Workspace).after commands).Tracks (historiesAfter commands) :=
  Tracks.after (fun _ => rfl) commands

/-- The commands that make an empty policy and declare modules in it, one by
one. -/
def declaring (name : String) (history : List (ModuleId × ModuleSpec)) : List Command :=
  .newPolicy name [] :: history.map fun d => .insertModule name d.1 d.2

theorem get?_foldl_record {h : Histories} {name : String}
    {earlier : List (ModuleId × ModuleSpec)} (hname : h.get? name = some earlier)
    (later : List (ModuleId × ModuleSpec)) :
    ((later.map fun d => Command.insertModule name d.1 d.2).foldl Histories.record h).get? name =
      some (earlier ++ later) := by
  induction later generalizing h earlier with
  | nil => simpa using hname
  | cons d later ih =>
    have hnext : (h.record (.insertModule name d.1 d.2)).get? name = some (earlier ++ [d]) := by
      simp [Histories.record, Histories.put?, hname, OrderedMap.get?_insert]
    simpa using ih hnext

/-- **Every list of declarations is a history,** also if they are made one by
one. -/
theorem historiesAfter_declaring (name : String) (history : List (ModuleId × ModuleSpec)) :
    (historiesAfter (declaring name history)).get? name = some history := by
  have hempty : (Histories.record .empty (.newPolicy name [])).get? name = some [] := by
    simp [Histories.record, Histories.put?, OrderedMap.get?_insert]
  exact get?_foldl_record hempty history

/-- **A policy is what was declared in it.** After any run of commands from an
empty workspace, the policy under a name follows its history. It answers the
next declaration with the last one of that module, and all that is built from it
is what is built from its history without the repetitions. -/
theorem policies_follow_histories [PatternEngine] (commands : List Command) (name : String) :
    let w := ({} : Workspace).after commands
    w.policies.contains name = (historiesAfter commands).contains name ∧
      ∀ p history, w.policies.get? name = some p →
        (historiesAfter commands).get? name = some history →
          p.content.Follows history ∧
            (∀ id spec, (w.perform (.insertModule name id spec)).1 =
              .previousSpec ((lastDeclaration? history id.text).map (·.2))) ∧
            p.content.ActsAs (.ofList (withoutRepetitions history)) := by
  intro w
  have htracks : (w.policies.get? name).map (·.content) =
    ((historiesAfter commands).get? name).map .ofList := tracks_historiesAfter commands name
  refine ⟨?_, fun p history hp hhistory => ?_⟩
  · have := congrArg Option.isSome htracks
    simpa [OrderedMap.contains] using this
  · have hcontent : p.content = .ofList history := by simpa [hp, hhistory] using htracks
    rw [hcontent]
    refine ⟨Policy.follows_ofList history, fun id spec => ?_, ?_⟩
    · simp [Workspace.perform, perform?, hp, hcontent, Policy.insert_fst_ofList]
    · rw [Policy.ofList_withoutRepetitions]
      exact .refl _

/-! A policy is made with two modules and copied, and the first of them is
declared again in the copy. -/

def shopId : ModuleId := ⟨"shop", by decide⟩

def tillId : ModuleId := ⟨"till", by decide⟩

def redeclaredRun : List Command :=
  [.newPolicy "a" [(shopId, {}), (tillId, {})], .clonePolicy "a" "b",
    .insertModule "b" shopId { notes := "sold" }]

theorem policies_follow_histories_redeclared :
    let history := [(shopId, {}), (tillId, {}), (shopId, { notes := "sold" })]
    (historiesAfter redeclaredRun).get? "b" = some history ∧
      ∃ p, (({} : Workspace).after redeclaredRun).policies.get? "b" = some p ∧
        p.content.declarations = [(shopId, { notes := "sold" }), (tillId, {})] ∧
          ((({} : Workspace).after redeclaredRun).perform (.insertModule "b" shopId {})).1 =
            .previousSpec (some { notes := "sold" }) := by
  intro history
  have hhistory : (historiesAfter redeclaredRun).get? "b" = some history := rfl
  obtain ⟨-, hfollows⟩ := policies_follow_histories redeclaredRun "b"
  obtain ⟨follows, hprevious, -⟩ := hfollows _ history rfl hhistory
  exact ⟨hhistory, _, rfl, follows.declarations_eq, hprevious shopId {}⟩

end Workspace

end ModulePolicy
