/-
# Policies and their histories

A policy comes about by declarations, one after the other, of modules some of
which have been declared before. Of such a history it keeps

| what | from |
| --- | --- |
| the identifiers, in their order | the first declaration of each |
| the specification of a module | its last declaration |

which is the history without its repetitions (`declarations_ofList`). Declaring
again what a policy holds makes the same policy (`ofList_declarations`), so a
history and the one without repetitions cannot be told apart.
-/

import Mathlib.Data.Finset.Card
import Mathlib.Data.List.Induction
import ModulePolicy.Module.Policy
import ModulePolicy.Proofs.Collection.List

namespace ModulePolicy

/-- The last declaration, in a history, of the module with a given text. -/
def lastDeclaration? (history : List (ModuleId × ModuleSpec)) (text : String) :
    Option (ModuleId × ModuleSpec) :=
  history.reverse.find? (·.1.text = text)

/-- Each module of a history at the place of its first declaration, with the
specification of its last. -/
def withoutRepetitions (history : List (ModuleId × ModuleSpec)) : List (ModuleId × ModuleSpec) :=
  (history.map (·.1)).eraseDups.filterMap fun id => lastDeclaration? history id.text

section

variable {id : ModuleId} {spec : ModuleSpec} {history : List (ModuleId × ModuleSpec)}

theorem lastDeclaration?_concat (history : List (ModuleId × ModuleSpec)) (id : ModuleId)
    (spec : ModuleSpec) (text : String) :
    lastDeclaration? (history ++ [(id, spec)]) text =
      if id.text = text then some (id, spec) else lastDeclaration? history text := by
  unfold lastDeclaration?
  by_cases h : id.text = text <;> simp [h]

/-- In a list without repetitions a module has one declaration. -/
theorem find?_eq_some_iff_of_nodup (h : (history.map (·.1)).Nodup) {text : String}
    {d : ModuleId × ModuleSpec} :
    history.find? (·.1.text = text) = some d ↔ d ∈ history ∧ d.1.text = text :=
  find?_key_eq_some_iff (·.1.text) fun _ hd _ he htext =>
    List.inj_on_of_nodup_map h hd he (ModuleId.ext htext)

/-- A module keeps its place when it is declared again, and else comes last. -/
theorem map_fst_declare :
    ∀ l : List (ModuleId × ModuleSpec), (declare id spec l).2.map (·.1) =
      if id ∈ l.map (·.1) then l.map (·.1) else l.map (·.1) ++ [id]
  | [] => rfl
  | d :: rest => by
    unfold declare
    by_cases h : d.1 = id
    · simp [h]
    · simp only [if_neg h, List.map_cons, map_fst_declare rest, List.mem_cons, Ne.symm h, false_or]
      split <;> rfl

end

namespace Policy

variable {p q : Policy}

theorem ids_insert (p : Policy) (id : ModuleId) (spec : ModuleSpec) :
    (p.insert id spec).2.ids = if id ∈ p.ids then p.ids else p.ids ++ [id] :=
  map_fst_declare p.declarations

theorem ofList_concat (history : List (ModuleId × ModuleSpec)) (id : ModuleId)
    (spec : ModuleSpec) :
    ofList (history ++ [(id, spec)]) = ((ofList history).insert id spec).2 :=
  List.foldl_concat ..

/-- **What a policy finds is the last declaration.** -/
theorem find?_ofList (history : List (ModuleId × ModuleSpec)) (text : String) :
    (ofList history).find? text = lastDeclaration? history text := by
  induction history using List.reverseRecOn with
  | nil => rfl
  | append_singleton history d ih => rw [ofList_concat, find?_insert, ih, lastDeclaration?_concat]

/-- **The identifiers stand in the order of their first declarations.** -/
theorem ids_ofList (history : List (ModuleId × ModuleSpec)) :
    (ofList history).ids = (history.map (·.1)).eraseDups := by
  induction history using List.reverseRecOn with
  | nil => rfl
  | append_singleton history d ih =>
    have hmem : d.1 ∈ (ofList history).ids ↔ d.1 ∈ history.map (·.1) := by
      rw [ih, List.mem_eraseDups]
    rw [ofList_concat, ids_insert, List.map_append, List.eraseDups_append, ← ih]
    by_cases h : d.1 ∈ history.map (·.1)
    · simp [hmem.2 h, List.removeAll, h]
    · simp [mt hmem.1 h, List.removeAll, h, List.eraseDups_cons]

theorem find?_eq_some_iff {text : String} {d : ModuleId × ModuleSpec} :
    p.find? text = some d ↔ d ∈ p.declarations ∧ d.1.text = text :=
  find?_eq_some_iff_of_nodup p.nodup_ids

theorem contains_iff {text : String} : p.contains text ↔ ∃ id ∈ p.ids, id.text = text := by
  simp [contains, find?, ids]

/-- A policy is its identifiers and what it finds under them. -/
theorem declarations_eq_filterMap (p : Policy) :
    p.declarations = p.ids.filterMap fun id => p.find? id.text := by
  have hfind : ∀ d ∈ p.declarations, p.find? d.1.text = some d := fun d hd =>
    find?_eq_some_iff.2 ⟨hd, rfl⟩
  rw [ids, List.filterMap_map]
  exact (List.filterMap_some.symm).trans (List.filterMap_congr hfind).symm

theorem ext_find? (hids : p.ids = q.ids) (hfind : ∀ text, p.find? text = q.find? text) :
    p = q := by
  have hdeclarations : p.declarations = q.declarations := by
    rw [declarations_eq_filterMap p, declarations_eq_filterMap q, hids]
    simp only [hfind]
  cases p; cases q; cases hdeclarations; rfl

/-- **A policy holds its history without the repetitions.** -/
theorem declarations_ofList (history : List (ModuleId × ModuleSpec)) :
    (ofList history).declarations = withoutRepetitions history := by
  rw [declarations_eq_filterMap, ids_ofList]
  simp only [find?_ofList]
  rfl

/-- **Declaring what a policy holds makes the same policy.** -/
theorem ofList_declarations (p : Policy) : ofList p.declarations = p := by
  refine ext_find? ?_ fun text => Option.ext fun d => ?_
  · rw [ids_ofList]
    exact eraseDups_of_nodup p.nodup_ids
  · have hreverse : (p.declarations.reverse.map (·.1)).Nodup := by
      rw [List.map_reverse]
      exact List.nodup_reverse.2 p.nodup_ids
    rw [find?_ofList, lastDeclaration?, find?_eq_some_iff_of_nodup hreverse, List.mem_reverse,
      find?_eq_some_iff]

theorem ofList_withoutRepetitions (history : List (ModuleId × ModuleSpec)) :
    ofList (withoutRepetitions history) = ofList history := by
  rw [← declarations_ofList, ofList_declarations]

/-- **There are as many modules as different identifiers.** -/
theorem size_ofList (history : List (ModuleId × ModuleSpec)) :
    (ofList history).size = (history.map (·.1)).toFinset.card := by
  have hsame : (history.map (·.1)).toFinset = (ofList history).ids.toFinset := by
    ext id
    rw [List.mem_toFinset, List.mem_toFinset, ids_ofList, List.mem_eraseDups]
  have hcard : (ofList history).ids.toFinset.card = (ofList history).ids.length :=
    List.toFinset_card_of_nodup (ofList history).nodup_ids
  rw [hsame, hcard]
  exact (List.length_map _).symm

/-- Declaring a module answers the specification it was last declared with. -/
theorem insert_fst_ofList (history : List (ModuleId × ModuleSpec)) (id : ModuleId)
    (spec : ModuleSpec) :
    ((ofList history).insert id spec).1 = (lastDeclaration? history id.text).map (·.2) := by
  rw [insert_fst, spec?, find?_ofList]

end Policy

end ModulePolicy
