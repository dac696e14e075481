/-
# Policies in slots

A policy can be stored as a row of slots, one for each declared module, with an
index that names the slot of each identifier. Nothing is searched then:

| operation | what happens |
| --- | --- |
| look up a text | the slot that the index names is read |
| declare a known module | its specification is replaced in its slot |
| declare a new module | a slot is added at the end and entered into the index |

A slot that is named but does not exist would leave an operation without an
answer. None ever is: the slots of a stored policy are its declarations, and its
index names each of them under its identifier and nothing else (`Represents`),
whatever has been declared on the way (`exists_ofList`). So a policy in slots
answers as the policy does (`Represents.answersAs`).
-/

import ModulePolicy.Collection.OrderedMap
import ModulePolicy.Proofs.Module.History

namespace ModulePolicy

/-- Declarations in slots, and the slot of each identifier by its text. -/
structure SlotPolicy where
  slots : List (ModuleId × ModuleSpec)
  index : OrderedMap Nat

namespace SlotPolicy

def empty : SlotPolicy := ⟨[], .empty⟩

/-- The declaration that the index names for a text, if it names one. -/
def lookup (s : SlotPolicy) (text : String) : Option (Option (ModuleId × ModuleSpec)) :=
  match s.index.get? text with
  | none => some none
  | some slot => s.slots[slot]?.map some

/-- Declares a module. Also answers the specification it had before. -/
def insert (s : SlotPolicy) (id : ModuleId) (spec : ModuleSpec) :
    Option (Option ModuleSpec × SlotPolicy) :=
  match s.index.get? id.text with
  | none => some (none, ⟨s.slots ++ [(id, spec)], s.index.insert id.text s.slots.length⟩)
  | some slot =>
    s.slots[slot]?.map fun d => (some d.2, { s with slots := s.slots.set slot (d.1, spec) })

/-- Declares the modules of a history one after the other. -/
def insertAll (s : SlotPolicy) : List (ModuleId × ModuleSpec) → Option SlotPolicy
  | [] => some s
  | d :: rest => (s.insert d.1 d.2).bind fun r => r.2.insertAll rest

def ofList (history : List (ModuleId × ModuleSpec)) : Option SlotPolicy := empty.insertAll history

/-- The slots hold the declarations of the policy, and the index names the slot
of each identifier. -/
structure Represents (s : SlotPolicy) (p : Policy) : Prop where
  slots_eq : s.slots = p.declarations
  index_eq : ∀ text, s.index.get? text = p.ids.findIdx? (·.text = text)

theorem represents_empty : empty.Represents .empty := ⟨rfl, fun _ => rfl⟩

/-- The index names the slots that there are, each under what it holds, and all
that is asked of the slots is answered as the policy answers it. -/
structure AnswersAs (s : SlotPolicy) (p : Policy) : Prop where
  slots_eq : s.slots = p.declarations
  index_iff : ∀ text slot, s.index.get? text = some slot ↔
    ∃ d, s.slots[slot]? = some d ∧ d.1.text = text
  lookup_eq : ∀ text, s.lookup text = some (p.find? text)
  contains_eq : ∀ text, s.index.contains text = p.contains text
  insert_fst : ∀ id spec, (s.insert id spec).map (·.1) = some (p.insert id spec).1

end SlotPolicy

/-! ### Declaring in a list -/

section Declare

variable {id : ModuleId} {spec : ModuleSpec}

theorem declare_of_not_mem :
    ∀ {l : List (ModuleId × ModuleSpec)}, id ∉ l.map (·.1) →
      declare id spec l = (none, l ++ [(id, spec)])
  | [], _ => rfl
  | d :: rest, h => by
    obtain ⟨hne, hrest⟩ := List.ne_and_not_mem_of_not_mem_cons h
    unfold declare
    rw [if_neg (Ne.symm hne), declare_of_not_mem hrest]
    rfl

/-- A declared module keeps its slot. -/
theorem declare_of_getElem? {d : ModuleId × ModuleSpec} (hid : d.1 = id) :
    ∀ {l : List (ModuleId × ModuleSpec)} {slot : Nat}, (l.map (·.1)).Nodup → l[slot]? = some d →
      declare id spec l = (some d.2, l.set slot (id, spec))
  | e :: rest, 0, _, h => by
    obtain rfl : e = d := Option.some.inj h
    unfold declare
    rw [if_pos hid]
    rfl
  | e :: rest, slot + 1, hnodup, h => by
    obtain ⟨hnot, hnodup⟩ := List.nodup_cons.1 hnodup
    rw [List.getElem?_cons_succ] at h
    have hne : e.1 ≠ id := fun he =>
      hnot (List.mem_map.2 ⟨d, List.mem_of_getElem? h, hid.trans he.symm⟩)
    unfold declare
    rw [if_neg hne, declare_of_getElem? hid hnodup h]
    rfl

end Declare

namespace SlotPolicy
namespace Represents

variable {s : SlotPolicy} {p : Policy} (h : s.Represents p)

include h

/-- **The index names a slot under the identifier it holds,** and only then. -/
theorem index_get?_iff {text : String} {slot : Nat} :
    s.index.get? text = some slot ↔ ∃ d, s.slots[slot]? = some d ∧ d.1.text = text := by
  rw [h.index_eq, h.slots_eq, List.findIdx?_eq_some_iff_getElem, Policy.ids]
  simp only [List.length_map, List.getElem_map, decide_eq_true_eq]
  constructor
  · rintro ⟨hlt, htext, -⟩
    exact ⟨_, List.getElem?_eq_getElem hlt, htext⟩
  · rintro ⟨d, hd, htext⟩
    obtain ⟨hlt, rfl⟩ := List.getElem?_eq_some_iff.1 hd
    refine ⟨hlt, htext, fun j hj hj' => ?_⟩
    -- an earlier slot with this text would hold the same identifier
    have hjlt : j < p.declarations.length := hj.trans hlt
    have hids : p.ids[j]? = p.ids[slot]? := by
      rw [Policy.ids, List.getElem?_map, List.getElem?_map, List.getElem?_eq_getElem hjlt,
        List.getElem?_eq_getElem hlt, Option.map_some, Option.map_some,
        ModuleId.ext (hj'.trans htext.symm)]
    have hjlt' : j < p.ids.length := by rwa [Policy.ids, List.length_map]
    exact absurd ((List.getElem?_inj hjlt' p.nodup_ids).1 hids) (Nat.ne_of_lt hj)

/-- **A look-up through the index finds what the policy finds.** -/
theorem lookup_eq (text : String) : s.lookup text = some (p.find? text) := by
  unfold lookup
  cases hslot : s.index.get? text with
  | none =>
    rw [h.index_eq, Policy.ids, List.findIdx?_map, List.findIdx?_eq_none_iff] at hslot
    have hnone : p.find? text = none := List.find?_eq_none.2 fun d hd => by simpa using hslot d hd
    rw [hnone]
  | some slot =>
    obtain ⟨d, hd, htext⟩ := h.index_get?_iff.1 hslot
    have hmem : d ∈ p.declarations := h.slots_eq ▸ List.mem_of_getElem? hd
    simp only [hd, Option.map_some, Policy.find?_eq_some_iff.2 ⟨hmem, htext⟩]

theorem contains_eq (text : String) : s.index.contains text = p.contains text := by
  have hlookup := h.lookup_eq text
  unfold lookup at hlookup
  unfold OrderedMap.contains Policy.contains
  cases hslot : s.index.get? text with
  | none =>
    rw [hslot] at hlookup
    rw [← Option.some.inj hlookup]
    rfl
  | some slot =>
    obtain ⟨d, hd, -⟩ := h.index_get?_iff.1 hslot
    simp only [hslot, hd, Option.map_some] at hlookup
    rw [← Option.some.inj hlookup]
    rfl

/-- **Declaring a module goes on representing.** It answers what the policy
answers. -/
theorem exists_insert (id : ModuleId) (spec : ModuleSpec) :
    ∃ s', s.insert id spec = some ((p.insert id spec).1, s') ∧
      s'.Represents (p.insert id spec).2 := by
  unfold insert
  cases hslot : s.index.get? id.text with
  | none =>
    have hnot : id ∉ p.ids := fun hid => by
      rw [h.index_eq, List.findIdx?_eq_none_iff] at hslot
      simpa using hslot id hid
    have hdeclare : declare id spec p.declarations = _ := declare_of_not_mem hnot
    have hprevious : (p.insert id spec).1 = none := congrArg Prod.fst hdeclare
    refine ⟨_, by rw [hprevious], ?_, fun text => ?_⟩
    · rw [h.slots_eq]
      exact (congrArg Prod.snd hdeclare).symm
    · have hlength : s.slots.length = p.ids.length := by
        rw [h.slots_eq, Policy.ids, List.length_map]
      rw [OrderedMap.get?_insert, Policy.ids_insert, if_neg hnot, List.findIdx?_append,
        ← h.index_eq, hlength]
      by_cases htext : text = id.text
      · simp [htext, hslot]
      · simp [htext, Ne.symm htext]
  | some slot =>
    obtain ⟨d, hd, htext⟩ := h.index_get?_iff.1 hslot
    have hid : d.1 = id := ModuleId.ext htext
    have hd' : p.declarations[slot]? = some d := h.slots_eq ▸ hd
    have hmem : id ∈ p.ids := hid ▸ List.mem_map_of_mem (List.mem_of_getElem? hd')
    have hdeclare : declare id spec p.declarations = _ := declare_of_getElem? hid p.nodup_ids hd'
    have hprevious : (p.insert id spec).1 = some d.2 := congrArg Prod.fst hdeclare
    refine ⟨{ s with slots := s.slots.set slot (d.1, spec) }, ?_, ?_, fun text => ?_⟩
    · rw [hprevious]
      simp only [hd, Option.map_some]
    · rw [h.slots_eq, hid]
      exact (congrArg Prod.snd hdeclare).symm
    · rw [Policy.ids_insert, if_pos hmem]
      exact h.index_eq text

theorem answersAs : s.AnswersAs p where
  slots_eq := h.slots_eq
  index_iff _ _ := h.index_get?_iff
  lookup_eq := h.lookup_eq
  contains_eq := h.contains_eq
  insert_fst id spec := by
    obtain ⟨_, hinsert, -⟩ := h.exists_insert id spec
    rw [hinsert, Option.map_some]

/-- **So does declaring a whole history.** -/
theorem exists_insertAll (history : List (ModuleId × ModuleSpec)) :
    ∃ s', s.insertAll history = some s' ∧
      s'.Represents (history.foldl (fun p d => (p.insert d.1 d.2).2) p) := by
  induction history generalizing s p with
  | nil => exact ⟨s, rfl, h⟩
  | cons d rest ih =>
    obtain ⟨s', hs', h'⟩ := h.exists_insert d.1 d.2
    obtain ⟨s'', hs'', h''⟩ := ih h'
    exact ⟨s'', by rw [insertAll, hs', Option.bind_some, hs''], h''⟩

end Represents

/-- **Every history can be stored,** and what is stored represents its policy. -/
theorem exists_ofList (history : List (ModuleId × ModuleSpec)) :
    ∃ s, ofList history = some s ∧ s.Represents (.ofList history) :=
  represents_empty.exists_insertAll history

end SlotPolicy

end ModulePolicy
