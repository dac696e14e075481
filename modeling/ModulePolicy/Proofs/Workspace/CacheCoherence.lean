/-
# Coherent lookup caches

A cache slot answers for the stamp it was filled under. Whether it answers
rightly depends on what that stamp stands for, and this is written down in a
ledger: one content for each stamp that was drawn. A stamped value is vouched
for if its stamp was drawn and its content is the one in the ledger, or is built
from it.

A cache whose two slots are vouched for is coherent. A lookup of a vouched-for
policy or table in a coherent cache gives what a lookup without a cache would
give (`Coherent.lookup_fst`), whether it hits or not, and leaves the cache
coherent.
-/

import Mathlib.Logic.Function.Basic
import ModulePolicy.Resolution.LookupCache

namespace ModulePolicy

variable {α β : Type}

/-- What each stamp below `next` stands for. -/
structure Ledger (α : Type) where
  next : Nat
  content : Nat → α

namespace Ledger

/-- Draws the next stamp for a content. -/
def record (l : Ledger α) (x : α) : Ledger α :=
  ⟨l.next + 1, Function.update l.content l.next x⟩

/-- The stamp of `x` was drawn, and `x` holds what `build` makes of the content
the stamp stands for. -/
def Vouches (l : Ledger α) (build : α → β) (x : Stamped β) : Prop :=
  x.stamp < l.next ∧ x.content = build (l.content x.stamp)

theorem vouches_record_self (l : Ledger α) (x : α) : (l.record x).Vouches id ⟨l.next, x⟩ :=
  ⟨Nat.lt_succ_self _, by simp [record]⟩

theorem record_content_of_lt {l : Ledger α} {stamp : Nat} (h : stamp < l.next) (x : α) :
    (l.record x).content stamp = l.content stamp :=
  Function.update_of_ne (Nat.ne_of_lt h) _ _

/-- **Drawing a stamp does not touch the earlier ones.** -/
theorem Vouches.record {l : Ledger α} {build : α → β} {x : Stamped β} (h : l.Vouches build x)
    (y : α) : (l.record y).Vouches build x := by
  obtain ⟨hlt, hx⟩ := h
  refine ⟨Nat.lt_succ_of_lt hlt, ?_⟩
  rw [hx, record_content_of_lt hlt]

/-- Equal stamps stand for one content. -/
theorem Vouches.content_eq {l : Ledger α} {build : α → β} {kept : Stamped β} {x : Stamped α}
    (hkept : l.Vouches build kept) (hx : l.Vouches id x) (h : kept.stamp = x.stamp) :
    kept.content = build x.content := by
  rw [hkept.2, hx.2, h, id_eq]

end Ledger

namespace Ledger

/-- What a ledger vouches for, a later one does as well. -/
def Within (l l' : Ledger α) : Prop := ∀ x : Stamped α, l.Vouches id x → l'.Vouches id x

/-- Also what is built from a content is vouched for by a later ledger. -/
theorem Vouches.within {l l' : Ledger α} {build : α → β} {x : Stamped β} (h : l.Vouches build x)
    (hl : l.Within l') : l'.Vouches build x := by
  obtain ⟨hlt, hx⟩ := h
  obtain ⟨hlt', hcontent⟩ := hl ⟨x.stamp, l.content x.stamp⟩ ⟨hlt, rfl⟩
  exact ⟨hlt', by rw [hx]; exact congrArg build hcontent⟩

end Ledger

section Fetch

variable {l : Ledger α} {build : α → β} {slot : Option (Stamped β)} {x : Stamped α}

theorem fetch_stamp (build : α → β) (slot : Option (Stamped β)) (x : Stamped α) :
    (fetch build slot x).2.stamp = x.stamp := by
  unfold fetch
  split
  · rfl
  · split
    · rename_i h
      exact h
    · rfl

/-- A vouched-for slot is as good as a new value. -/
theorem fetch_content (hslot : ∀ kept, slot = some kept → l.Vouches build kept)
    (hx : l.Vouches id x) : (fetch build slot x).2.content = build x.content := by
  unfold fetch
  split
  · rfl
  · rename_i kept
    split
    · rename_i h
      exact (hslot kept rfl).content_eq hx h
    · rfl

theorem fetch_vouched (hslot : ∀ kept, slot = some kept → l.Vouches build kept)
    (hx : l.Vouches id x) : l.Vouches build (fetch build slot x).2 := by
  refine ⟨fetch_stamp build slot x ▸ hx.1, ?_⟩
  rw [fetch_content hslot hx, fetch_stamp, hx.2, id_eq]

end Fetch

namespace LookupCache

/-- Both slots hold what the ledgers say of their stamps. -/
structure Coherent (policies : Ledger Policy) (tables : Ledger AliasTable) (c : LookupCache) :
    Prop where
  policySlot : ∀ kept, c.policySlot = some kept → policies.Vouches Roster.ofPolicy kept
  aliasSlot : ∀ kept, c.aliasSlot = some kept → tables.Vouches id kept

variable {policies : Ledger Policy} {tables : Ledger AliasTable} {c : LookupCache}

theorem coherent_of_slots_eq {d : LookupCache} (h : c.Coherent policies tables)
    (hp : d.policySlot = c.policySlot) (ha : d.aliasSlot = c.aliasSlot) :
    d.Coherent policies tables :=
  ⟨hp ▸ h.policySlot, ha ▸ h.aliasSlot⟩

theorem coherent_of_slots_none (hp : c.policySlot = none) (ha : c.aliasSlot = none) :
    c.Coherent policies tables :=
  ⟨fun _ h => by simp [hp] at h, fun _ h => by simp [ha] at h⟩

namespace Coherent

/-- Stamps that are drawn later leave a cache coherent. -/
theorem within (h : c.Coherent policies tables) {policies' : Ledger Policy}
    {tables' : Ledger AliasTable} (hp : policies.Within policies') (ht : tables.Within tables') :
    c.Coherent policies' tables' :=
  ⟨fun kept hk => (h.policySlot kept hk).within hp, fun kept hk => (h.aliasSlot kept hk).within ht⟩

theorem roster_fst (h : c.Coherent policies tables) {p : Stamped Policy}
    (hp : policies.Vouches id p) : (c.roster p).1 = Roster.ofPolicy p.content :=
  fetch_content h.policySlot hp

theorem roster_snd (h : c.Coherent policies tables) {p : Stamped Policy}
    (hp : policies.Vouches id p) : (c.roster p).2.Coherent policies tables :=
  ⟨fun _ hk => Option.some.inj hk ▸ fetch_vouched h.policySlot hp, h.aliasSlot⟩

theorem aliasTable_fst (h : c.Coherent policies tables) {t : Stamped AliasTable}
    (ht : tables.Vouches id t) : (c.aliasTable t).1 = t.content :=
  fetch_content h.aliasSlot ht

theorem aliasTable_snd (h : c.Coherent policies tables) {t : Stamped AliasTable}
    (ht : tables.Vouches id t) : (c.aliasTable t).2.Coherent policies tables :=
  ⟨h.policySlot, fun _ hk => Option.some.inj hk ▸ fetch_vouched h.aliasSlot ht⟩

section Lookup

variable {p : Stamped Policy} {t : Option (Stamped AliasTable)} (h : c.Coherent policies tables)
  (hp : policies.Vouches id p) (ht : ∀ x, t = some x → tables.Vouches id x)

include h hp ht

/-- **A lookup gives what the policy and the table are now.** -/
theorem lookup_fst : (c.lookup p t).1 = (Roster.ofPolicy p.content, t.map (·.content)) := by
  cases t with
  | none => exact Prod.ext (h.roster_fst hp) rfl
  | some x =>
    exact Prod.ext (h.roster_fst hp)
      (congrArg some ((h.roster_snd hp).aliasTable_fst (ht x rfl)))

theorem lookup_snd : (c.lookup p t).2.Coherent policies tables := by
  cases t with
  | none => exact h.roster_snd hp
  | some x => exact (h.roster_snd hp).aliasTable_snd (ht x rfl)

theorem resolve_fst (settings : Settings) (query : String) :
    (c.resolve settings p t query).1 =
      Resolution.ofQuery (.ofPolicy p.content) (t.map (·.content)) settings query := by
  unfold LookupCache.resolve
  simp only [h.lookup_fst hp ht]

theorem resolve_snd (settings : Settings) (query : String) :
    (c.resolve settings p t query).2.Coherent policies tables :=
  h.lookup_snd hp ht

/-- **A cached resolution is an uncached one,** a fault of the settings
included. -/
theorem resolveChecked_fst (settings : Settings) (query : String) :
    (c.resolveChecked settings p t query).1 =
      ModulePolicy.resolve p.content (t.map (·.content)) settings query := by
  unfold LookupCache.resolveChecked ModulePolicy.resolve
  cases settings.validate with
  | error fault => rfl
  | ok _ => exact h.resolve_fst hp ht settings query

theorem resolveChecked_snd (settings : Settings) (query : String) :
    (c.resolveChecked settings p t query).2.Coherent policies tables := by
  unfold LookupCache.resolveChecked
  cases settings.validate with
  | error fault => exact h
  | ok _ => exact h.resolve_snd hp ht settings query

/-- **A cached validation is one with new lookups.** -/
theorem validate_fst (settings : Settings) (queries : List String) :
    (c.validate settings p t queries).1 =
      validateBatch (.ofPolicy p.content) (t.map (·.content)) settings queries := by
  unfold LookupCache.validate
  simp only [h.lookup_fst hp ht]
  cases validateBatch (.ofPolicy p.content) (t.map (·.content)) settings queries <;> rfl

theorem validate_snd (settings : Settings) (queries : List String) :
    (c.validate settings p t queries).2.Coherent policies tables := by
  unfold LookupCache.validate
  dsimp only
  split
  · exact h.lookup_snd hp ht
  · exact coherent_of_slots_eq (h.lookup_snd hp ht) rfl rfl

end Lookup

end Coherent

end LookupCache

end ModulePolicy
