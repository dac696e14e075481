/-
# Policies

A policy is the list of declared modules, each with its specification. The
order is the order of first declaration: declaring a module again replaces its
specification and leaves it at its place. Overlapping claims of ownership are
settled by this order.
-/

import ModulePolicy.Module.Id
import ModulePolicy.Module.Spec

namespace ModulePolicy

/-- Declares a module in a list of declarations. Also answers the specification
it had there before. -/
def declare (id : ModuleId) (spec : ModuleSpec) :
    List (ModuleId × ModuleSpec) → Option ModuleSpec × List (ModuleId × ModuleSpec)
  | [] => (none, [(id, spec)])
  | d :: rest =>
    if d.1 = id then (some d.2, (id, spec) :: rest)
    else
      let r := declare id spec rest
      (r.1, d :: r.2)

theorem mem_ids_declare {id x : ModuleId} {spec : ModuleSpec} :
    ∀ {l : List (ModuleId × ModuleSpec)},
      x ∈ (declare id spec l).2.map (·.1) ↔ x = id ∨ x ∈ l.map (·.1)
  | [] => by simp [declare]
  | d :: rest => by
    unfold declare
    split
    · rename_i h
      simp only [List.map_cons, List.mem_cons, h, ← or_assoc, or_self]
    · simp only [List.map_cons, List.mem_cons, mem_ids_declare]
      exact or_left_comm

theorem nodup_ids_declare {id : ModuleId} {spec : ModuleSpec} :
    ∀ {l : List (ModuleId × ModuleSpec)}, (l.map (·.1)).Nodup →
      ((declare id spec l).2.map (·.1)).Nodup
  | [], _ => by simp [declare]
  | d :: rest, h => by
    obtain ⟨hd, hrest⟩ := List.nodup_cons.1 h
    unfold declare
    split
    · rename_i heq
      exact List.nodup_cons.2 ⟨heq ▸ hd, hrest⟩
    · rename_i hne
      refine List.nodup_cons.2 ⟨fun hm => ?_, nodup_ids_declare hrest⟩
      rcases mem_ids_declare.1 hm with hm | hm
      · exact hne hm
      · exact hd hm

theorem find?_declare (id : ModuleId) (spec : ModuleSpec) (x : String) :
    ∀ l : List (ModuleId × ModuleSpec),
      (declare id spec l).2.find? (·.1.text = x) =
        if id.text = x then some (id, spec) else l.find? (·.1.text = x)
  | [] => by by_cases h : id.text = x <;> simp [declare, h]
  | d :: rest => by
    have ih := find?_declare id spec x rest
    unfold declare
    split
    · by_cases h : id.text = x <;> simp_all
    · by_cases h : d.1.text = x
      · have hne : id.text ≠ x := fun e => by
          rename_i hd
          exact hd (ModuleId.ext (h.trans e.symm))
        simp [h, hne]
      · simp [h, ih]

theorem declare_fst (id : ModuleId) (spec : ModuleSpec) :
    ∀ l : List (ModuleId × ModuleSpec),
      (declare id spec l).1 = (l.find? (·.1.text = id.text)).map (·.2)
  | [] => rfl
  | d :: rest => by
    have ih := declare_fst id spec rest
    unfold declare
    split
    · simp_all
    · rename_i hd
      have : d.1.text ≠ id.text := fun e => hd (ModuleId.ext e)
      simp [this, ih]

/-- Modules in the order of their first declaration, none of them twice. -/
structure Policy where
  declarations : List (ModuleId × ModuleSpec)
  nodup_ids : (declarations.map (·.1)).Nodup
deriving DecidableEq

namespace Policy

def empty : Policy := ⟨[], .nil⟩

/-- Declares a module. Also answers the specification it had before. -/
def insert (p : Policy) (id : ModuleId) (spec : ModuleSpec) : Option ModuleSpec × Policy :=
  let r := declare id spec p.declarations
  (r.1, ⟨r.2, nodup_ids_declare p.nodup_ids⟩)

/-- The policy that declares the modules of a list one after the other. -/
def ofList (l : List (ModuleId × ModuleSpec)) : Policy :=
  l.foldl (fun p d => (p.insert d.1 d.2).2) empty

/-- The declaration of the module with a given text. -/
def find? (p : Policy) (text : String) : Option (ModuleId × ModuleSpec) :=
  p.declarations.find? fun d => d.1.text = text

def spec? (p : Policy) (text : String) : Option ModuleSpec := (p.find? text).map (·.2)

def moduleId? (p : Policy) (text : String) : Option ModuleId := (p.find? text).map (·.1)

def contains (p : Policy) (text : String) : Bool := (p.find? text).isSome

def ids (p : Policy) : List ModuleId := p.declarations.map (·.1)

def size (p : Policy) : Nat := p.declarations.length

theorem find?_insert (p : Policy) (id : ModuleId) (spec : ModuleSpec) (x : String) :
    (p.insert id spec).2.find? x = if id.text = x then some (id, spec) else p.find? x :=
  find?_declare id spec x p.declarations

theorem insert_fst (p : Policy) (id : ModuleId) (spec : ModuleSpec) :
    (p.insert id spec).1 = p.spec? id.text :=
  declare_fst id spec p.declarations

end Policy

end ModulePolicy
