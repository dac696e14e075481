/-
# Finds at the same places

Two searches go through the same places, in the same order. At each place either
may find something, so their lists of finds need not have the same length.
`PlaceByPlace R` says that there are such places, with `R` for what the one finds
and what the other finds at each of them:

| `R` allows | the second list |
| --- | --- |
| the same, or nothing instead | is a sublist of the first (`sublist`) |
| what a condition cannot tell apart | is the same after selecting by it (`filter_eq`) |

If both lists ascend by a key it is enough to compare the parts with the same key
(`of_filter_key`), which is how such lists are compared after sorting.
-/

import Mathlib.Data.Finset.Sort
import Mathlib.Data.String.Basic
import ModulePolicy.Proofs.Collection.List

namespace ModulePolicy

variable {α β : Type}

/-- The finds of two searches at the same places. -/
inductive PlaceByPlace (R : Option α → Option α → Prop) : List α → List α → Prop
  | nil : PlaceByPlace R [] []
  | cons {a b : Option α} {l m : List α} :
      R a b → PlaceByPlace R l m → PlaceByPlace R (a.toList ++ l) (b.toList ++ m)

/-- A list that ascends by a key is, key after key, its members with that key. -/
theorem flatMap_filter_key (key : α → String) :
    ∀ {ks : List String} {l : List α}, ks.Pairwise (· < ·) →
      l.Pairwise (fun a b => key a ≤ key b) → (∀ a ∈ l, key a ∈ ks) →
        ks.flatMap (fun k => l.filter fun a => key a = k) = l
  | [], l, _, _, hl => (List.eq_nil_iff_forall_not_mem.2 fun a ha => by simpa using hl a ha).symm
  | k :: ks, l, hks, hsorted, hl => by
    obtain ⟨hleast, hks⟩ := List.pairwise_cons.1 hks
    have hge : ∀ a ∈ l, k ≤ key a := fun a ha => by
      rcases List.mem_cons.1 (hl a ha) with h | h
      · exact h ▸ String.le_refl _
      · exact Std.le_of_lt (hleast _ h)
    -- `k` is the least key, so its members come first
    have hfirst : l.Pairwise fun a b => decide (key b = k) → decide (key a = k) :=
      hsorted.imp_of_mem fun {a b} ha _ hab hb => by
        rw [decide_eq_true_iff] at hb ⊢
        exact String.le_antisymm (hb ▸ hab) (hge a ha)
    have ih := flatMap_filter_key key (l := l.filter fun a => !decide (key a = k)) hks
      (hsorted.filter _) fun a ha => by
        obtain ⟨ha, hne⟩ := List.mem_filter.1 ha
        exact (List.mem_cons.1 (hl a ha)).resolve_left (by simpa using hne)
    have hrest : ks.flatMap (fun k' => l.filter fun a => key a = k') =
        l.filter fun a => !decide (key a = k) := by
      refine Eq.trans (List.flatMap_congr fun k' hk' => ?_) ih
      rw [List.filter_filter]
      refine List.filter_congr fun a _ => ?_
      have hne : k ≠ k' := fun h => String.lt_irrefl k (h ▸ hleast k' hk')
      by_cases ha : key a = k' <;> simp [ha, hne.symm]
    rw [List.flatMap_cons, hrest, filter_append_filter_not hfirst]

namespace PlaceByPlace

variable {R : Option α → Option α → Prop} {l m : List α}

theorem append {l' m' : List α} (h : PlaceByPlace R l m) (h' : PlaceByPlace R l' m') :
    PlaceByPlace R (l ++ l') (m ++ m') := by
  induction h with
  | nil => exact h'
  | cons hR _ ih =>
    rw [List.append_assoc, List.append_assoc]
    exact .cons hR ih

theorem single {a b : Option α} (h : R a b) : PlaceByPlace R a.toList b.toList := by
  simpa only [List.append_nil] using cons h nil

theorem refl (hR : ∀ o, R o o) : ∀ l : List α, PlaceByPlace R l l
  | [] => .nil
  | a :: l => .cons (hR (some a)) (refl hR l)

theorem flatMap {f g : β → List α} (h : ∀ b, PlaceByPlace R (f b) (g b)) :
    ∀ l : List β, PlaceByPlace R (l.flatMap f) (l.flatMap g)
  | [] => .nil
  | b :: l => by
    rw [List.flatMap_cons, List.flatMap_cons]
    exact (h b).append (flatMap h l)

theorem filterMap {f g : β → Option α} (h : ∀ b, R (f b) (g b)) (l : List β) :
    PlaceByPlace R (l.filterMap f) (l.filterMap g) := by
  rw [List.filterMap_eq_flatMap_toList, List.filterMap_eq_flatMap_toList]
  exact flatMap (fun b => single (h b)) l

/-- **Lists that ascend by a key** are compared key by key. -/
theorem of_filter_key (key : α → String) (hl : l.Pairwise fun a b => key a ≤ key b)
    (hm : m.Pairwise fun a b => key a ≤ key b)
    (h : ∀ k, PlaceByPlace R (l.filter fun a => key a = k) (m.filter fun a => key a = k)) :
    PlaceByPlace R l m := by
  let ks := ((l ++ m).map key).toFinset.sort (· ≤ ·)
  have hks : ks.Pairwise (· < ·) := (Finset.sortedLT_sort _).pairwise
  have hmem : ∀ a ∈ l ++ m, key a ∈ ks := fun a ha => by
    rw [Finset.mem_sort, List.mem_toFinset]
    exact List.mem_map_of_mem ha
  obtain ⟨hkl, hkm⟩ := List.forall_mem_append.1 hmem
  rw [← flatMap_filter_key key hks hl hkl, ← flatMap_filter_key key hks hm hkm]
  exact flatMap h ks

/-- **Where finds are only lost, a sublist is left.** -/
theorem sublist (hR : ∀ a b, R a b → b = a ∨ b = none) (h : PlaceByPlace R l m) :
    m.Sublist l := by
  induction h with
  | nil => exact .slnil
  | @cons a b l m hab _ ih =>
    rcases hR a b hab with rfl | rfl
    · exact (List.Sublist.refl _).append ih
    · exact ih.trans (List.sublist_append_right _ _)

/-- **What a condition selects is the same** if it is at each place. -/
theorem filter_eq {q : α → Bool} (hR : ∀ a b, R a b → a.filter q = b.filter q)
    (h : PlaceByPlace R l m) : l.filter q = m.filter q := by
  induction h with
  | nil => rfl
  | cons hab _ ih =>
    rw [List.filter_append, List.filter_append, ih, ← Option.toList_filter, ← Option.toList_filter,
      hR _ _ hab]

end PlaceByPlace

end ModulePolicy
