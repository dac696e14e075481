/-
# Lists that are compiled, filtered and sorted

| lemma | about |
| --- | --- |
| `bind_eq_ok_iff`, `mapM_eq_ok_iff`, `exists_mapM_iff` | compiling all members of a list, which fails if one does |
| `faultOf?_bind`, `faultOf?_mapM` | the fault that compiling a list ends with, the first one there is |
| `lookup_of_forall₂` | looking up in a list compiled entry by entry |
| `filter_mergeSort`, `filter_mergeSort_key` | a stable sort leaves alone what is sorted already |
| `mergeSort_filter` | sorting a selection, against selecting from the sorted list |
| `filter_append_filter_not`, `filter_eq_take_countP` | a selection that only takes members from the front |
| `map_key_mergeSort_of_perm` | the keys of a sorted list, whatever the order before |
| `find?_key_eq_some_iff` | looking up a member by a key that it alone has |
| `findSome?_of_perm` | the first find in a list, where there is one at most |
| `findSome?_middle` | the first find in a list with one more member |
| `findSome?_of_forall₂` | the first find in two lists that correspond |
| `findSome?_flatMap` | the first find in a list put together from several |
| `eraseDups_of_nodup` | erasing repetitions where there are none |
| `filter_eq_singleton` | selecting one member of a list without repetitions |
| `exists_mem_of_forall₂` | members that correspond |
| `forall₂_filterMap` | what a partial function finds, against where it finds something |
| `exists_map_of_forall₂` | a choice made place by place |
| `takeWhile_append_cons` | taking members of a kind up to one that is not |
-/

import Mathlib.Data.List.Forall2

namespace ModulePolicy

variable {α β ε : Type}

theorem bind_eq_ok_iff {x : Except ε α} {f : α → Except ε β} {b : β} :
    x >>= f = .ok b ↔ ∃ a, x = .ok a ∧ f a = .ok b := by
  constructor
  · intro h
    cases x with
    | error e => cases h
    | ok a => exact ⟨a, rfl, h⟩
  · rintro ⟨a, rfl, h⟩
    exact h

/-- All members of a list are compiled, each to the result at its place. -/
theorem mapM_eq_ok_iff {f : α → Except ε β} :
    ∀ {l : List α} {r : List β}, l.mapM f = .ok r ↔ List.Forall₂ (fun a b => f a = .ok b) l r
  | [], r => by
    rw [List.mapM_nil, List.forall₂_nil_left_iff]
    exact ⟨fun h => (Except.ok.inj h).symm, fun h => h ▸ rfl⟩
  | a :: l, r => by
    rw [List.mapM_cons, bind_eq_ok_iff, List.forall₂_cons_left_iff]
    constructor
    · rintro ⟨b, hb, h⟩
      obtain ⟨bs, hbs, h⟩ := bind_eq_ok_iff.1 h
      exact ⟨b, bs, hb, mapM_eq_ok_iff.1 hbs, (Except.ok.inj h).symm⟩
    · rintro ⟨b, bs, hb, hbs, rfl⟩
      exact ⟨b, hb, bind_eq_ok_iff.2 ⟨bs, mapM_eq_ok_iff.2 hbs, rfl⟩⟩

/-- A list compiles if all of its members do. -/
theorem exists_mapM_iff {f : α → Except ε β} :
    ∀ {l : List α}, (∃ r, l.mapM f = .ok r) ↔ ∀ a ∈ l, ∃ b, f a = .ok b
  | [] => ⟨by simp, fun _ => ⟨[], rfl⟩⟩
  | a :: l => by
    have ih := exists_mapM_iff (f := f) (l := l)
    simp only [mapM_eq_ok_iff, List.forall₂_cons_left_iff] at ih ⊢
    rw [List.forall_mem_cons, ← ih]
    constructor
    · rintro ⟨_, b, bs, hb, hbs, rfl⟩
      exact ⟨⟨b, hb⟩, bs, hbs⟩
    · rintro ⟨⟨b, hb⟩, bs, hbs⟩
      exact ⟨_, b, bs, hb, hbs, rfl⟩

/-- The fault of what has failed. -/
def faultOf? : Except ε α → Option ε
  | .ok _ => none
  | .error e => some e

theorem faultOf?_eq_some_iff {x : Except ε α} {e : ε} : faultOf? x = some e ↔ x = .error e := by
  cases x <;> simp [faultOf?]

/-- What comes second can only fail if what comes first has not. -/
theorem faultOf?_bind {x : Except ε α} {f : α → Except ε β} {later : Option ε}
    (h : ∀ a, faultOf? (f a) = later) : faultOf? (x >>= f) = (faultOf? x).or later := by
  cases x with
  | ok a => exact h a
  | error e => rfl

/-- What is made of a result does not fail. -/
theorem faultOf?_bind_pure {x : Except ε α} (f : α → β) :
    faultOf? (x >>= fun a => pure (f a)) = faultOf? x := by
  cases x <;> rfl

/-- **The fault of a list is the first one** that a member has. -/
theorem faultOf?_mapM (f : α → Except ε β) :
    ∀ l : List α, faultOf? (l.mapM f) = l.findSome? fun a => faultOf? (f a)
  | [] => rfl
  | a :: l => by
    have hrest : ∀ b, faultOf? (l.mapM f >>= fun bs => pure (b :: bs)) =
        l.findSome? fun a => faultOf? (f a) := fun b => by
      rw [faultOf?_bind_pure, faultOf?_mapM f l]
    rw [List.mapM_cons, faultOf?_bind hrest, List.findSome?_cons]
    cases faultOf? (f a) <;> rfl

/-- What is found under a key that no other entry has was compiled from the
entry with that key. -/
theorem lookup_of_forall₂ {κ : Type} [DecidableEq κ] {R : α → β → Prop} {k : κ} {a : α} :
    ∀ {l : List (κ × α)} {r : List (κ × β)},
      List.Forall₂ (fun d e => e.1 = d.1 ∧ R d.2 e.2) l r → (l.map (·.1)).Nodup → (k, a) ∈ l →
        ∃ b, r.lookup k = some b ∧ R a b
  | _ :: l, (k', b) :: r, .cons ⟨hk, hR⟩ hrest, hnodup, hmem => by
    obtain ⟨hnot, hnodup⟩ := List.nodup_cons.1 hnodup
    rcases List.mem_cons.1 hmem with rfl | hmem
    · exact ⟨b, by rw [show k' = k from hk, List.lookup_cons_self], hR⟩
    · obtain ⟨b', hb', hR'⟩ := lookup_of_forall₂ hrest hnodup hmem
      have hne : k ≠ k' := fun h => hnot (List.mem_map.2 ⟨_, hmem, h.trans hk⟩)
      exact ⟨b', by rw [List.lookup_cons, beq_false_of_ne hne]; exact hb', hR'⟩

/-- **A stable sort leaves alone what is sorted already,** be it scattered over
the list. -/
theorem filter_mergeSort {le : α → α → Bool} (trans : ∀ a b c, le a b → le b c → le a c)
    (total : ∀ a b, le a b || le b a) {q : α → Bool} {l : List α}
    (h : (l.filter q).Pairwise fun a b => le a b) :
    (l.mergeSort le).filter q = l.filter q := by
  -- what is sorted survives in its order; as many members remain, so it is all of them
  have hsub : (l.filter q).Sublist (l.mergeSort le) :=
    List.sublist_mergeSort trans total h List.filter_sublist
  have hlength : (l.filter q).length = ((l.mergeSort le).filter q).length :=
    ((List.mergeSort_perm l le).symm.filter q).length_eq
  have hsub' : (l.filter q).Sublist ((l.mergeSort le).filter q) := by
    simpa only [List.filter_filter, Bool.and_self] using hsub.filter q
  exact (hsub'.eq_of_length hlength).symm

/-- Where an order leaves no ties, what is selected comes out in the same order
whether it is sorted before or after. -/
theorem mergeSort_filter {le : α → α → Bool} (trans : ∀ a b c, le a b → le b c → le a c)
    (total : ∀ a b, le a b || le b a) (antisymm : ∀ a b, le a b → le b a → a = b)
    (q : α → Bool) (l : List α) : (l.filter q).mergeSort le = (l.mergeSort le).filter q := by
  have hperm : ((l.filter q).mergeSort le).Perm ((l.mergeSort le).filter q) :=
    (List.mergeSort_perm _ _).trans ((List.mergeSort_perm l le).symm.filter q)
  exact hperm.eq_of_pairwise (fun a b _ _ => antisymm a b)
    (List.pairwise_mergeSort trans total _) ((List.pairwise_mergeSort trans total l).filter q)

/-- Members that are selected whenever a later one is come first, the others
behind them. -/
theorem filter_append_filter_not {q : α → Bool} :
    ∀ {l : List α}, l.Pairwise (fun a b => q b → q a) →
      l.filter q ++ l.filter (fun a => !q a) = l
  | [], _ => rfl
  | a :: l, h => by
    obtain ⟨hhead, hrest⟩ := List.pairwise_cons.1 h
    by_cases ha : q a
    · rw [List.filter_cons_of_pos ha, List.filter_cons_of_neg (by simp [ha]), List.cons_append,
        filter_append_filter_not hrest]
    · have hnone : ∀ b ∈ a :: l, ¬ q b :=
        List.forall_mem_cons.2 ⟨ha, fun b hb hqb => ha (hhead b hb hqb)⟩
      rw [List.filter_eq_nil_iff.2 hnone, List.nil_append]
      exact List.filter_eq_self.2 fun b hb => by simpa using hnone b hb

/-- Members that are selected whenever a later one is make up a start of the
list. -/
theorem filter_eq_take_countP {q : α → Bool} {l : List α}
    (h : l.Pairwise fun a b => q b → q a) : l.filter q = l.take (l.countP q) := by
  have hparts := filter_append_filter_not h
  calc l.filter q = (l.filter q ++ l.filter fun a => !q a).take (l.filter q).length :=
        List.take_left.symm
    _ = l.take (l.countP q) := by rw [hparts, List.countP_eq_length_filter]

section Keys

variable (key : α → String)

theorem keyLe_trans (a b c : α) (hab : decide (key a ≤ key b)) (hbc : decide (key b ≤ key c)) :
    decide (key a ≤ key c) :=
  decide_eq_true (String.le_trans (of_decide_eq_true hab) (of_decide_eq_true hbc))

theorem keyLe_total (a b : α) : decide (key a ≤ key b) || decide (key b ≤ key a) := by
  rw [Bool.or_eq_true, decide_eq_true_iff, decide_eq_true_iff]
  exact String.le_total _ _

/-- A member is found by its key if no other has that key. -/
theorem find?_key_eq_some_iff {l : List α} (h : ∀ a ∈ l, ∀ b ∈ l, key a = key b → a = b)
    {k : String} {a : α} : l.find? (fun b => key b = k) = some a ↔ a ∈ l ∧ key a = k := by
  constructor
  · intro ha
    exact ⟨List.mem_of_find?_eq_some ha, by simpa using List.find?_some ha⟩
  · rintro ⟨ha, hk⟩
    cases hb : l.find? (fun b => key b = k) with
    | none => exact absurd hk (by simpa using List.find?_eq_none.1 hb a ha)
    | some b =>
      have hkey : key b = k := by simpa using List.find?_some hb
      rw [h b (List.mem_of_find?_eq_some hb) a ha (hkey.trans hk.symm)]

/-- A list sorted by a key ascends by it. -/
theorem pairwise_mergeSort_key (l : List α) :
    (l.mergeSort fun a b => key a ≤ key b).Pairwise fun a b => key a ≤ key b :=
  (List.pairwise_mergeSort (keyLe_trans key) (keyLe_total key) l).imp of_decide_eq_true

/-- Members that ascend by a key keep their order when the list is sorted by it. -/
theorem filter_mergeSort_key {q : α → Bool} {l : List α}
    (h : (l.filter q).Pairwise fun a b => key a ≤ key b) :
    (l.mergeSort fun a b => key a ≤ key b).filter q = l.filter q :=
  filter_mergeSort (keyLe_trans key) (keyLe_total key) (h.imp decide_eq_true)

/-- Lists with the same members have the same keys once they are sorted. -/
theorem map_key_mergeSort_of_perm {l m : List α} (h : l.Perm m) :
    (l.mergeSort fun a b => key a ≤ key b).map key =
      (m.mergeSort fun a b => key a ≤ key b).map key := by
  have hperm : (l.mergeSort fun a b => key a ≤ key b).Perm (m.mergeSort fun a b => key a ≤ key b) :=
    (List.mergeSort_perm l _).trans (h.trans (List.mergeSort_perm m _).symm)
  refine (hperm.map key).eq_of_pairwise (fun a b _ _ hab hba => String.le_antisymm hab hba) ?_ ?_
  · exact List.pairwise_map.2 (pairwise_mergeSort_key key l)
  · exact List.pairwise_map.2 (pairwise_mergeSort_key key m)

end Keys

theorem one_lt_length_of_mem {l : List α} {a b : α} (ha : a ∈ l) (hb : b ∈ l) (hne : a ≠ b) :
    1 < l.length := by
  match l, ha, hb with
  | [c], ha, hb => exact absurd ((List.mem_singleton.1 ha).trans (List.mem_singleton.1 hb).symm) hne
  | _ :: _ :: _, _, _ => exact Nat.one_lt_succ_succ _

/-- The order does not matter to a search that one member at most can end. -/
theorem findSome?_of_perm {f : α → Option β} {l m : List α} (h : l.Perm m)
    (hone : (l.filterMap f).length ≤ 1) : l.findSome? f = m.findSome? f := by
  have hfound : (l.filterMap f).Perm (m.filterMap f) := h.filterMap f
  rw [← List.head?_filterMap, ← List.head?_filterMap]
  match l.filterMap f, hone, hfound with
  | [], _, hfound => rw [← hfound.nil_eq]
  | [b], _, hfound => rw [List.perm_singleton.1 hfound.symm]

/-- With one more member in a list a search ends where it did, or there. -/
theorem findSome?_middle (f : α → Option β) (l₁ l₂ : List α) (a : α) :
    (l₁ ++ a :: l₂).findSome? f = (l₁ ++ l₂).findSome? f ∨
      ∃ b, f a = some b ∧ (l₁ ++ a :: l₂).findSome? f = some b := by
  rw [List.findSome?_append, List.findSome?_append, List.findSome?_cons]
  cases l₁.findSome? f with
  | some b => exact .inl rfl
  | none =>
    cases ha : f a with
    | none => exact .inl rfl
    | some b => exact .inr ⟨b, rfl, rfl⟩

theorem findSome?_of_forall₂ {γ : Type} {f : α → Option γ} {g : β → Option γ} {l : List α}
    {r : List β} (h : List.Forall₂ (fun a b => g b = f a) l r) :
    r.findSome? g = l.findSome? f := by
  induction h with
  | nil => rfl
  | cons hab _ ih => rw [List.findSome?_cons, List.findSome?_cons, hab, ih]

theorem findSome?_flatMap {γ : Type} (f : β → Option γ) (g : α → List β) :
    ∀ l : List α, (l.flatMap g).findSome? f = l.findSome? fun a => (g a).findSome? f
  | [] => rfl
  | a :: l => by
    rw [List.flatMap_cons, List.findSome?_append, List.findSome?_cons, findSome?_flatMap f g l]
    cases (g a).findSome? f <;> rfl

/-- A list without repetitions has none to erase. -/
theorem eraseDups_of_nodup [DecidableEq α] : ∀ {l : List α}, l.Nodup → l.eraseDups = l
  | [], _ => rfl
  | a :: l, h => by
    obtain ⟨hnot, hnodup⟩ := List.nodup_cons.1 h
    have hfilter : l.filter (fun b => !b == a) = l :=
      List.filter_eq_self.2 fun b hb => by simpa using fun heq : b = a => hnot (heq ▸ hb)
    rw [List.eraseDups_cons, hfilter, eraseDups_of_nodup hnodup]

/-- A condition that one member alone meets selects it once. -/
theorem filter_eq_singleton [DecidableEq α] {l : List α} {q : α → Bool} {a : α} (h : l.Nodup)
    (ha : a ∈ l) (hq : ∀ b ∈ l, q b ↔ b = a) : l.filter q = [a] := by
  refine List.perm_singleton.1 ((List.perm_ext_iff_of_nodup (h.filter q) ?_).2 fun b => ?_)
  · exact List.pairwise_singleton _ a
  · rw [List.mem_filter, List.mem_singleton]
    exact ⟨fun ⟨hb, hqb⟩ => (hq b hb).1 hqb, fun hb => hb ▸ ⟨ha, (hq a ha).2 rfl⟩⟩

theorem exists_mem_of_forall₂ {R : α → β → Prop} {b : β} :
    ∀ {l : List α} {r : List β}, List.Forall₂ R l r → b ∈ r → ∃ a ∈ l, R a b
  | _, _, .cons hab hrest, hmem => by
    rcases List.mem_cons.1 hmem with rfl | hmem
    · exact ⟨_, List.mem_cons_self, hab⟩
    · obtain ⟨a, ha, hR⟩ := exists_mem_of_forall₂ hrest hmem
      exact ⟨a, List.mem_cons_of_mem _ ha, hR⟩

/-- What can be chosen at each place can be chosen at all of them. -/
theorem exists_map_of_forall₂ {γ : Type} {R : α → β → Prop} {S : α → γ → Prop} {f : γ → β} :
    ∀ {l : List α} {r : List β}, List.Forall₂ R l r →
      (∀ a ∈ l, ∀ b, R a b → ∃ c, S a c ∧ f c = b) →
        ∃ cs : List γ, List.Forall₂ S l cs ∧ cs.map f = r
  | _, _, .nil, _ => ⟨[], .nil, rfl⟩
  | a :: l, b :: r, .cons hab hrest, h => by
    obtain ⟨hhead, htail⟩ := List.forall_mem_cons.1 h
    obtain ⟨c, hc, hb⟩ := hhead b hab
    obtain ⟨cs, hcs, hr⟩ := exists_map_of_forall₂ hrest htail
    exact ⟨c :: cs, .cons hc hcs, by rw [List.map_cons, hb, hr]⟩

open Classical in
/-- What a partial function finds in a list, one after the other, belongs to
the members at which it finds something. -/
theorem forall₂_filterMap {f : α → Option β} {R : α → β → Prop}
    (h : ∀ a b, f a = some b ↔ R a b) :
    ∀ l : List α,
      List.Forall₂ (fun b a => R a b) (l.filterMap f) (l.filter fun a => ∃ b, R a b)
  | [] => .nil
  | a :: l => by
    have ih := forall₂_filterMap h l
    cases ha : f a with
    | none =>
      have hnot : ¬ ∃ b, R a b := fun ⟨b, hb⟩ => by
        rw [(h a b).2 hb] at ha
        cases ha
      rwa [List.filterMap_cons_none ha, List.filter_cons_of_neg (by simpa using hnot)]
    | some b =>
      have hb : R a b := (h a b).1 ha
      rw [List.filterMap_cons_some ha, List.filter_cons_of_pos (by simpa using ⟨b, hb⟩)]
      exact .cons hb ih

/-- What is taken ends before the first member of another kind. -/
theorem takeWhile_append_cons {p : α → Bool} {l : List α} {a : α} (hl : ∀ b ∈ l, p b)
    (ha : p a = false) (rest : List α) : (l ++ a :: rest).takeWhile p = l := by
  rw [List.takeWhile_append_of_pos hl, List.takeWhile_cons_of_neg (Bool.eq_false_iff.1 ha),
    List.append_nil]

end ModulePolicy
