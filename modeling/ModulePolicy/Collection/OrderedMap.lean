/-
# Maps and sets in the order of their keys

A map from texts keeps its entries in strictly ascending order of the keys, so
a map is determined by what it answers, and its listing by its content.

| operation | effect |
| --- | --- |
| `get? k` | the value at `k`, if there is one |
| `insert k v` | `v` at `k`, whatever was there before |
| `keys`, `entries` | everything, ascending by key |

An `OrderedSet` is such a map without values.
-/

namespace ModulePolicy

/-- Entries with strictly ascending keys. -/
structure OrderedMap (α : Type) where
  entries : List (String × α)
  ascending : entries.Pairwise fun a b => a.1 < b.1

/-- Puts an entry at its place in a list ascending by key, in place of the
entry with the same key. -/
def insertEntry {α : Type} (k : String) (v : α) : List (String × α) → List (String × α)
  | [] => [(k, v)]
  | (k', v') :: rest =>
    if k < k' then (k, v) :: (k', v') :: rest
    else if k = k' then (k, v) :: rest
    else (k', v') :: insertEntry k v rest

theorem eq_or_mem_of_mem_insertEntry {α : Type} {k : String} {v : α} {e : String × α} :
    ∀ {l : List (String × α)}, e ∈ insertEntry k v l → e = (k, v) ∨ e ∈ l
  | [], h => by simpa [insertEntry] using h
  | (k', v') :: rest, h => by
    unfold insertEntry at h
    split at h
    · simpa using h
    · split at h
      · rcases List.mem_cons.1 h with h | h
        · exact .inl h
        · exact .inr (List.mem_cons_of_mem _ h)
      · rcases List.mem_cons.1 h with h | h
        · exact .inr (h ▸ List.mem_cons_self)
        · exact (eq_or_mem_of_mem_insertEntry h).imp_right (List.mem_cons_of_mem _)

theorem pairwise_insertEntry {α : Type} (k : String) (v : α) :
    ∀ {l : List (String × α)}, l.Pairwise (fun a b => a.1 < b.1) →
      (insertEntry k v l).Pairwise fun a b => a.1 < b.1
  | [], _ => by simp [insertEntry]
  | (k', v') :: rest, h => by
    obtain ⟨hhead, hrest⟩ := List.pairwise_cons.1 h
    unfold insertEntry
    split
    · rename_i hlt
      refine List.pairwise_cons.2 ⟨fun e he => ?_, h⟩
      rcases List.mem_cons.1 he with rfl | he
      · exact hlt
      · exact String.lt_trans hlt (hhead e he)
    · split
      · rename_i heq
        exact List.pairwise_cons.2 ⟨fun e he => heq ▸ hhead e he, hrest⟩
      · rename_i hnlt hne
        refine List.pairwise_cons.2 ⟨fun e he => ?_, pairwise_insertEntry k v hrest⟩
        rcases eq_or_mem_of_mem_insertEntry he with rfl | he
        · exact Std.lt_of_le_of_ne (Std.not_lt.1 hnlt) (fun h => hne h.symm)
        · exact hhead e he

theorem lookup_cons_eq {α : Type} (x k : String) (v : α) (l : List (String × α)) :
    ((k, v) :: l).lookup x = if x = k then some v else l.lookup x := by
  by_cases h : x = k
  · simp [h]
  · rw [List.lookup_cons, if_neg h, beq_false_of_ne h]

theorem lookup_insertEntry {α : Type} {k : String} {v : α} {x : String} :
    ∀ {l : List (String × α)},
      (insertEntry k v l).lookup x = if x = k then some v else l.lookup x
  | [] => by simp [insertEntry, lookup_cons_eq]
  | (k', v') :: rest => by
    unfold insertEntry
    split
    · rw [lookup_cons_eq]
    · split
      · rename_i heq
        subst heq
        simp only [lookup_cons_eq]
        split <;> rfl
      · rename_i hne
        simp only [lookup_cons_eq, lookup_insertEntry]
        split
        · rename_i h
          rw [if_neg (h ▸ fun e => hne e.symm)]
        · rfl

/-- Putting an entry in makes a list one longer unless its key is there. -/
theorem length_insertEntry {α : Type} (k : String) (v : α) :
    ∀ {l : List (String × α)}, l.Pairwise (fun a b => a.1 < b.1) →
      (insertEntry k v l).length = l.length + if (l.lookup k).isSome then 0 else 1
  | [], _ => rfl
  | (k', v') :: rest, h => by
    obtain ⟨hhead, hrest⟩ := List.pairwise_cons.1 h
    unfold insertEntry
    rw [lookup_cons_eq]
    split
    · rename_i hlt
      -- every key from here on is above `k`
      have hnone : rest.lookup k = none := List.lookup_eq_none_iff.2 fun e he => by
        have hke := String.lt_trans hlt (hhead e he)
        simpa using fun heq : k = e.1 => String.lt_irrefl k (heq ▸ hke)
      have hne : k ≠ k' := fun heq => String.lt_irrefl k (heq ▸ hlt)
      simp [hne, hnone]
    · split
      · simp
      · simp only [List.length_cons, length_insertEntry k v hrest]
        omega

theorem lookup_eq_some_iff_mem {α : Type} {k : String} {v : α} :
    ∀ {l : List (String × α)}, l.Pairwise (fun a b => a.1 < b.1) →
      (l.lookup k = some v ↔ (k, v) ∈ l)
  | [], _ => by simp
  | (k', v') :: rest, h => by
    obtain ⟨hhead, hrest⟩ := List.pairwise_cons.1 h
    rw [lookup_cons_eq, List.mem_cons, Prod.mk.injEq]
    split
    · rename_i hk
      subst hk
      have hnot : (k, v) ∉ rest := fun hm => String.lt_irrefl k (hhead _ hm)
      simp [hnot, eq_comm]
    · rename_i hk
      simp [hk, lookup_eq_some_iff_mem hrest]

namespace OrderedMap

variable {α : Type}

@[ext] theorem ext {m n : OrderedMap α} (h : m.entries = n.entries) : m = n := by
  cases m; cases n; cases h; rfl

instance [DecidableEq α] : DecidableEq (OrderedMap α) := fun m n =>
  decidable_of_iff (m.entries = n.entries) ⟨ext, fun h => h ▸ rfl⟩

def empty : OrderedMap α := ⟨[], .nil⟩

def get? (m : OrderedMap α) (k : String) : Option α := m.entries.lookup k

def contains (m : OrderedMap α) (k : String) : Bool := (m.get? k).isSome

def insert (m : OrderedMap α) (k : String) (v : α) : OrderedMap α :=
  ⟨insertEntry k v m.entries, pairwise_insertEntry k v m.ascending⟩

def keys (m : OrderedMap α) : List String := m.entries.map (·.1)

def size (m : OrderedMap α) : Nat := m.entries.length

/-- The map in which later entries of a list replace earlier ones. -/
def ofList (l : List (String × α)) : OrderedMap α :=
  l.foldl (fun m e => m.insert e.1 e.2) empty

theorem get?_insert (m : OrderedMap α) (k : String) (v : α) (x : String) :
    (m.insert k v).get? x = if x = k then some v else m.get? x :=
  lookup_insertEntry

theorem get?_eq_some_iff {m : OrderedMap α} {k : String} {v : α} :
    m.get? k = some v ↔ (k, v) ∈ m.entries :=
  lookup_eq_some_iff_mem m.ascending

theorem get?_empty (k : String) : (empty : OrderedMap α).get? k = none := rfl

/-- What holds of a new entry and of all others holds of every entry then. -/
theorem forall_get?_insert {P : String → α → Prop} {m : OrderedMap α} {k : String} {v : α}
    (hnew : P k v) (hold : ∀ x u, m.get? x = some u → P x u) :
    ∀ x u, (m.insert k v).get? x = some u → P x u := by
  intro x u hu
  rw [get?_insert] at hu
  split at hu
  · rename_i hx
    exact hx ▸ Option.some.inj hu ▸ hnew
  · exact hold x u hu

theorem get?_foldl_insert (k : String) :
    ∀ (l : List (String × α)) (m : OrderedMap α),
      (l.foldl (fun m e => m.insert e.1 e.2) m).get? k = (l.reverse.lookup k).or (m.get? k)
  | [], _ => rfl
  | e :: l, m => by
    rw [List.foldl_cons, get?_foldl_insert k l, get?_insert, List.reverse_cons,
      List.lookup_append, Option.or_assoc, lookup_cons_eq]
    split <;> rfl

/-- **The last entry for a key is the one that counts.** -/
theorem get?_ofList (l : List (String × α)) (k : String) :
    (ofList l).get? k = l.reverse.lookup k :=
  (get?_foldl_insert k l empty).trans Option.or_none

theorem contains_insert (m : OrderedMap α) (k : String) (v : α) (x : String) :
    (m.insert k v).contains x ↔ k = x ∨ m.contains x := by
  unfold contains
  rw [get?_insert]
  by_cases h : x = k
  · simp [h]
  · simp [h, Ne.symm h]

theorem contains_iff {m : OrderedMap α} {k : String} : m.contains k ↔ ∃ v, m.get? k = some v :=
  Option.isSome_iff_exists

theorem size_insert (m : OrderedMap α) (k : String) (v : α) :
    (m.insert k v).size = m.size + if m.contains k then 0 else 1 :=
  length_insertEntry k v m.ascending

theorem nodup_keys (m : OrderedMap α) : m.keys.Nodup :=
  List.pairwise_map.2 (m.ascending.imp fun {a b} h (e : a.1 = b.1) =>
    String.lt_irrefl b.1 (e ▸ h))

theorem length_keys (m : OrderedMap α) : m.keys.length = m.size := List.length_map _

theorem mem_keys_iff {m : OrderedMap α} {k : String} : k ∈ m.keys ↔ (m.get? k).isSome := by
  simp [keys, Option.isSome_iff_exists, get?_eq_some_iff]

theorem mem_keys {m : OrderedMap α} {k : String} : k ∈ m.keys ↔ m.contains k := mem_keys_iff

theorem ascending_keys (m : OrderedMap α) : m.keys.Pairwise (· < ·) :=
  List.pairwise_map.2 m.ascending

/-- There is one ascending order of the same keys. -/
theorem keys_eq {β : Type} {m : OrderedMap α} {n : OrderedMap β}
    (h : ∀ k, k ∈ m.keys ↔ k ∈ n.keys) : m.keys = n.keys := by
  have hperm : m.keys.Perm n.keys := (List.perm_ext_iff_of_nodup m.nodup_keys n.nodup_keys).2 h
  refine hperm.eq_of_pairwise (fun a b _ _ hab hba => ?_) m.ascending_keys n.ascending_keys
  exact absurd (String.lt_trans hab hba) (String.lt_irrefl _)

/-- **A map is determined by what it answers.** Its entries are then the same
ones, and there is one ascending order of them. -/
theorem ext_get? {m n : OrderedMap α} (h : ∀ k, m.get? k = n.get? k) : m = n := by
  have hmem : ∀ e, e ∈ m.entries ↔ e ∈ n.entries := fun e => by
    rw [← get?_eq_some_iff, h, get?_eq_some_iff]
  have hperm : m.entries.Perm n.entries := by
    refine (List.perm_ext_iff_of_nodup ?_ ?_).2 hmem
    · exact m.ascending.imp fun {a b} h (e : a = b) => String.lt_irrefl b.1 (e ▸ h)
    · exact n.ascending.imp fun {a b} h (e : a = b) => String.lt_irrefl b.1 (e ▸ h)
  refine ext (hperm.eq_of_pairwise (fun a b _ _ hab hba => ?_) m.ascending n.ascending)
  exact absurd (String.lt_trans hab hba) (String.lt_irrefl _)

end OrderedMap

/-- A set of texts, listed in ascending order. -/
abbrev OrderedSet := OrderedMap Unit

namespace OrderedSet

def add (s : OrderedSet) (x : String) : OrderedSet := s.insert x ()

def ofList (l : List String) : OrderedSet := l.foldl add .empty

theorem contains_add (s : OrderedSet) (x y : String) :
    (s.add x).contains y ↔ x = y ∨ s.contains y :=
  s.contains_insert x () y

end OrderedSet

end ModulePolicy
