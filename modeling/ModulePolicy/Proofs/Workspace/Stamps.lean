/-
# Stamps identify content

A policy or a table is stamped when it is made, changed or copied, and at no
other time: a command puts one value under one name at most (`Effect.policyShelf`,
`Effect.tableShelf`). A ledger that vouches for a shelf is kept by this, with the
new stamp recorded (`Shelf.KeptBy.exists_putSome`).

A stamp is never drawn twice. What was seen under it once is therefore what is
seen under it ever after, in whatever order policies and tables are made,
changed, copied and replaced (`stamps_identify_content`). It makes no difference
if a policy is made empty and its modules are declared one by one, with a stamp
for each: that is a run as well.
-/

import ModulePolicy.Proofs.Workspace.CacheCoherence
import ModulePolicy.Proofs.Workspace.Step

namespace ModulePolicy

variable {α : Type}

namespace Shelf

/-- On two shelves one stamp stands for one content. -/
def Agrees (s t : Shelf α) : Prop :=
  ∀ m n x y, s.items.get? m = some x → t.items.get? n = some y →
    x.stamp = y.stamp → x.content = y.content

/-- No two names have the same stamp. -/
def Distinct (s : Shelf α) : Prop :=
  ∀ m n x y, s.items.get? m = some x → s.items.get? n = some y → x.stamp = y.stamp → m = n

/-- All stamps are below a given one. -/
def Below (s : Shelf α) (stamp : Nat) : Prop :=
  ∀ name x, s.items.get? name = some x → x.stamp < stamp

theorem Agrees.symm {s t : Shelf α} (h : s.Agrees t) : t.Agrees s :=
  fun m n x y hx hy hstamp => (h n m y x hy hx hstamp.symm).symm

/-- The ledger vouches for all that stands on the shelf. -/
structure KeptBy (s : Shelf α) (l : Ledger α) : Prop where
  next_eq : s.next = l.next
  vouches : ∀ name x, s.items.get? name = some x → l.Vouches id x
  distinct : s.Distinct

theorem keptBy_empty (content : Nat → α) : (⟨.empty, 1⟩ : Shelf α).KeptBy ⟨1, content⟩ where
  next_eq := rfl
  vouches _ _ h := by simp [OrderedMap.get?_empty] at h
  distinct _ _ _ _ h := by simp [OrderedMap.get?_empty] at h

end Shelf

namespace Shelf.KeptBy

variable {s t : Shelf α} {l l' : Ledger α}

/-- **A value that is put keeps all others apart from it.** -/
theorem put (h : s.KeptBy l) (name : String) (x : α) : (s.put name x).KeptBy (l.record x) where
  next_eq := congrArg (· + 1) h.next_eq
  vouches := OrderedMap.forall_get?_insert (h.next_eq ▸ l.vouches_record_self x)
    fun n y hy => (h.vouches n y hy).record x
  distinct m n y z hy hz hstamp := by
    -- what was there before has a stamp below the new one
    have hold : ∀ k u, s.items.get? k = some u → u.stamp ≠ s.next := fun k u hu =>
      h.next_eq ▸ Nat.ne_of_lt (h.vouches k u hu).1
    rw [Shelf.put, OrderedMap.get?_insert] at hy hz
    split at hy <;> split at hz
    · rename_i hm hn
      exact hm.trans hn.symm
    · obtain rfl := Option.some.inj hy
      exact absurd hstamp.symm (hold n z hz)
    · obtain rfl := Option.some.inj hz
      exact absurd hstamp (hold m y hy)
    · exact h.distinct m n y z hy hz hstamp

theorem exists_putSome (h : s.KeptBy l) (e : Option (String × α)) :
    ∃ l', l.Within l' ∧ (s.putSome e).KeptBy l' := by
  cases e with
  | none => exact ⟨l, fun _ hx => hx, h⟩
  | some e => exact ⟨l.record e.2, fun _ hx => hx.record e.2, h.put e.1 e.2⟩

/-- A shelf agrees with what it becomes. -/
theorem agrees (h : s.KeptBy l) (h' : t.KeptBy l') (hl : l.Within l') : s.Agrees t :=
  fun m n x y hx hy hstamp => (hl x (h.vouches m x hx)).content_eq (h'.vouches n y hy) hstamp

/-- What was ever on a shelf is below the stamp that is drawn next. -/
theorem below (h : s.KeptBy l) (h' : t.KeptBy l') (hl : l.Within l') : s.Below t.next :=
  fun m x hx => h'.next_eq ▸ (hl x (h.vouches m x hx)).1

end Shelf.KeptBy

namespace Workspace

section Moments

variable [PatternEngine]

theorem policyShelf_perform (w : Workspace) (c : Command) :
    (w.perform c).2.policyShelf = w.policyShelf.putSome (w.policyPut? c) :=
  (w.effect_perform c).policyShelf

theorem tableShelf_perform (w : Workspace) (c : Command) :
    (w.perform c).2.tableShelf = w.tableShelf.putSome (w.tablePut? c) :=
  (w.effect_perform c).tableShelf

/-- The workspace after the first `i` commands of a run from an empty one. -/
def moment (commands : List Command) (i : Nat) : Workspace :=
  ({} : Workspace).after (commands.take i)

theorem moment_add (commands : List Command) (i k : Nat) :
    moment commands (i + k) = (moment commands i).after ((commands.drop i).take k) := by
  simp only [moment, after, List.take_add, List.foldl_append]

section Run

variable {shelf : Workspace → Shelf α} {putBy : Workspace → Command → Option (String × α)}
  (hstep : ∀ w c, shelf (w.perform c).2 = (shelf w).putSome (putBy w c))

include hstep

/-- **A run keeps what a ledger vouches for.** -/
theorem exists_keptBy_after {w : Workspace} {l : Ledger α} (h : (shelf w).KeptBy l)
    (commands : List Command) : ∃ l', l.Within l' ∧ (shelf (w.after commands)).KeptBy l' := by
  induction commands generalizing w l with
  | nil => exact ⟨l, fun _ hx => hx, h⟩
  | cons c commands ih =>
    obtain ⟨l₁, hl₁, h₁⟩ := h.exists_putSome (putBy w c)
    rw [← hstep] at h₁
    obtain ⟨l₂, hl₂, h₂⟩ := ih h₁
    exact ⟨l₂, fun x hx => hl₂ x (hl₁ x hx), h₂⟩

variable {l : Ledger α} (h : (shelf {}).KeptBy l) (commands : List Command)

include h

theorem exists_keptBy_moments {i j : Nat} (hij : i ≤ j) :
    ∃ l₁ l₂, l₁.Within l₂ ∧ (shelf (moment commands i)).KeptBy l₁ ∧
      (shelf (moment commands j)).KeptBy l₂ := by
  obtain ⟨k, rfl⟩ := Nat.exists_eq_add_of_le hij
  obtain ⟨l₁, -, h₁⟩ := exists_keptBy_after hstep h (commands.take i)
  obtain ⟨l₂, hl, h₂⟩ := exists_keptBy_after hstep h₁ ((commands.drop i).take k)
  exact ⟨l₁, l₂, hl, h₁, by rwa [moment_add]⟩

theorem agrees_moment (i j : Nat) :
    (shelf (moment commands i)).Agrees (shelf (moment commands j)) := by
  rcases Nat.le_total i j with hij | hij
  · obtain ⟨_, _, hl, h₁, h₂⟩ := exists_keptBy_moments hstep h commands hij
    exact h₁.agrees h₂ hl
  · obtain ⟨_, _, hl, h₁, h₂⟩ := exists_keptBy_moments hstep h commands hij
    exact (h₁.agrees h₂ hl).symm

theorem distinct_moment (i : Nat) : (shelf (moment commands i)).Distinct := by
  obtain ⟨_, _, -, h', -⟩ := exists_keptBy_moments hstep h commands (Nat.le_refl i)
  exact h'.distinct

/-- **What a command puts is there,** under a stamp that nothing had before. -/
theorem exists_fresh_put {i j : Nat} (hij : i ≤ j) {c : Command} {name : String} {x : α}
    (hput : putBy (moment commands j) c = some (name, x)) :
    ∃ stamp, (shelf ((moment commands j).perform c).2).items.get? name = some ⟨stamp, x⟩ ∧
      (shelf (moment commands i)).Below stamp := by
  obtain ⟨_, _, hl, h₁, h₂⟩ := exists_keptBy_moments hstep h commands hij
  refine ⟨(shelf (moment commands j)).next, ?_, h₁.below h₂ hl⟩
  rw [hstep, hput]
  exact (OrderedMap.get?_insert ..).trans (if_pos rfl)

end Run

/-- **Stamps identify content.** In any run from an empty workspace, policies
seen at any two moments under one stamp declare the same modules in the same
order, tables seen under one stamp hold the same entries, and at no moment do
two names have one stamp. A command that makes, changes or copies something
leaves it under a stamp above all that were seen till then. -/
theorem stamps_identify_content (commands : List Command) (i j : Nat) :
    (moment commands i).policyShelf.Agrees (moment commands j).policyShelf ∧
      (moment commands i).tableShelf.Agrees (moment commands j).tableShelf ∧
      (moment commands i).policyShelf.Distinct ∧ (moment commands i).tableShelf.Distinct ∧
      (i ≤ j → ∀ c name,
        (∀ p, (moment commands j).policyPut? c = some (name, p) → ∃ stamp,
          ((moment commands j).perform c).2.policies.get? name = some ⟨stamp, p⟩ ∧
            (moment commands i).policyShelf.Below stamp) ∧
        ∀ t, (moment commands j).tablePut? c = some (name, t) → ∃ stamp,
          ((moment commands j).perform c).2.tables.get? name = some ⟨stamp, t⟩ ∧
            (moment commands i).tableShelf.Below stamp) := by
  have hp : (policyShelf {}).KeptBy ⟨1, fun _ => .empty⟩ := Shelf.keptBy_empty _
  have ht : (tableShelf {}).KeptBy ⟨1, fun _ => .empty⟩ := Shelf.keptBy_empty _
  refine ⟨agrees_moment policyShelf_perform hp commands i j,
    agrees_moment tableShelf_perform ht commands i j,
    distinct_moment policyShelf_perform hp commands i,
    distinct_moment tableShelf_perform ht commands i, fun hij c name => ⟨fun p hput => ?_, ?_⟩⟩
  · exact exists_fresh_put policyShelf_perform hp commands hij hput
  · exact fun t hput => exists_fresh_put tableShelf_perform ht commands hij hput

end Moments

/-! An empty policy is copied, and then a module is declared in the original. The
three contents have three stamps, and under the second of them the copy is still
seen as it was. A copy of the copy gets a stamp of its own. -/

def copiedRun : List Command :=
  [.newPolicy "a" [], .clonePolicy "a" "b", .insertModule "a" ⟨"desk", by decide⟩ {}]

theorem stamps_identify_content_copied :
    let stamps i := (moment copiedRun i).policies.entries.map fun e => (e.1, e.2.stamp)
    stamps 1 = [("a", 1)] ∧ stamps 2 = [("a", 1), ("b", 2)] ∧ stamps 3 = [("a", 3), ("b", 2)] ∧
      (∀ p, (moment copiedRun 3).policies.get? "b" = some p → p.stamp = 2 → p.content = .empty) ∧
      ∃ stamp, ((moment copiedRun 3).perform (.clonePolicy "b" "c")).2.policies.get? "c" =
        some ⟨stamp, .empty⟩ ∧ (moment copiedRun 2).policyShelf.Below stamp := by
  obtain ⟨hagrees, -, -, -, hfresh⟩ := stamps_identify_content copiedRun 2 3
  refine ⟨rfl, rfl, rfl, fun p hp hstamp => ?_, ?_⟩
  · exact (hagrees "b" "b" ⟨2, .empty⟩ p rfl hp hstamp.symm).symm
  · exact (hfresh (by decide) (.clonePolicy "b" "c") "c").1 .empty rfl

end Workspace

end ModulePolicy
