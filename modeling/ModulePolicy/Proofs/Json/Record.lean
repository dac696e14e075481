/-
# Records that lose nothing

Carrying a field of a record `r` over from `x` to `y` means that what is written
of it is read into `x` with the outcome `y`, and that `y` is `x` where nothing is
written (`RecordField.Carries`):

| field | carries over |
| --- | --- |
| `always` | whatever `x` is |
| `optional` | if `x` has no text there |
| `unlessEmpty` | if `x` has nothing on the list there |

So a field that is left out comes back as the blank record has it. A record is
read back if its fields carry it over from the blank record and are known apart
by their names (`Codec.Lossless.record`).
-/

import Mathlib.Data.List.Nodup
import ModulePolicy.Proofs.Json.Lossless

namespace ModulePolicy.Json

variable {α ρ : Type}

/-- Carrying the field of a record `r` over from `x` to `y`: what is written is
read into `x` with the outcome `y`, and what is not written makes no change. -/
structure RecordField.Carries (f : RecordField ρ) (r x y : ρ) : Prop where
  read_write : ∀ v, f.write? r = some v → ∀ rest, f.read x (v ++ rest) = .ok (y, rest)
  eq_of_none : f.write? r = none → y = x
  of_required : f.required → (f.write? r).isSome

/-- Carrying the fields over one after the other. -/
inductive CarriesAll (r : ρ) : List (RecordField ρ) → ρ → ρ → Prop
  | nil {x : ρ} : CarriesAll r [] x x
  | cons {f : RecordField ρ} {fields : List (RecordField ρ)} {x y z : ρ} :
      f.Carries r x y → CarriesAll r fields y z → CarriesAll r (f :: fields) x z

namespace RecordField.Carries

variable {name : String} {r x : ρ}

theorem always {codec : Codec α} (h : codec.Lossless) {get : ρ → α} {put : ρ → α → ρ}
    {required : Bool} :
    (RecordField.always name codec get put required).Carries r x (put x (get r)) where
  read_write v hv rest := by
    obtain rfl := Option.some.inj hv
    exact map_of_ok (put x) (h.read_write (get r) rest)
  eq_of_none hv := by cases hv
  of_required _ := rfl

theorem optional {get : ρ → Option String} {put : ρ → Option String → ρ}
    (hblank : put x none = x) :
    (RecordField.optional name get put).Carries r x (put x (get r)) where
  read_write v hv rest := by
    obtain ⟨s, hs, rfl⟩ := Option.map_eq_some_iff.1 hv
    rw [hs]
    exact map_of_ok (put x) (readOptionalText_quote s rest)
  eq_of_none hv := by rw [Option.map_eq_none_iff.1 hv, hblank]
  of_required h := by cases h

theorem unlessEmpty {item : Codec α} (h : item.Lossless) {get : ρ → List α}
    {put : ρ → List α → ρ} (hblank : put x [] = x) :
    (RecordField.unlessEmpty name item get put).Carries r x (put x (get r)) where
  read_write v hv rest := by
    simp only [RecordField.unlessEmpty] at hv
    split at hv
    · cases hv
    · obtain rfl := Option.some.inj hv
      exact map_of_ok (put x) (h.list.read_write (get r) rest)
  eq_of_none hv := by
    simp only [RecordField.unlessEmpty] at hv
    split at hv
    · rename_i hempty
      rw [List.isEmpty_iff.1 hempty, hblank]
    · cases hv
  of_required h := by cases h

end RecordField.Carries

/-! A field that is written makes an entry, and each entry is read by one step. -/

/-- What is written of a record's fields, each with its name. -/
def writtenEntries (fields : List (RecordField ρ)) (r : ρ) : List (List Char) :=
  fields.filterMap fun f => (f.write? r).map fun v => quote f.name ++ ':' :: v

theorem writtenEntries_of_none {f : RecordField ρ} {r : ρ} (h : f.write? r = none)
    (fields : List (RecordField ρ)) : writtenEntries (f :: fields) r = writtenEntries fields r :=
  List.filterMap_cons_none (by rw [h]; rfl)

theorem writtenEntries_of_some {f : RecordField ρ} {r : ρ} {v : List Char}
    (h : f.write? r = some v) (fields : List (RecordField ρ)) :
    writtenEntries (f :: fields) r =
      (quote f.name ++ ':' :: v) :: writtenEntries fields r :=
  List.filterMap_cons_some (by rw [h]; rfl)

theorem ne_nil_of_mem_writtenEntries {fields : List (RecordField ρ)} {r : ρ} {x : List Char}
    (h : x ∈ writtenEntries fields r) : x ≠ [] := by
  obtain ⟨f, -, hx⟩ := List.mem_filterMap.1 h
  obtain ⟨v, -, rfl⟩ := Option.map_eq_some_iff.1 hx
  exact List.cons_ne_nil _ _

theorem writeRecord_append (fields : List (RecordField ρ)) (r : ρ) (rest : List Char) :
    writeRecord fields r ++ rest =
      '{' :: (separated true (writtenEntries fields r) ++ '}' :: rest) := by
  rw [writeRecord, joinCommas_eq, List.cons_append, List.append_assoc]
  rfl

/-- A field is found by its name if no other has this name. -/
theorem find?_name {f : RecordField ρ} :
    ∀ {fields : List (RecordField ρ)}, (fields.map (·.name)).Nodup → f ∈ fields →
      (fields.map (·.toFieldReader)).find? (·.name = f.name) = some f.toFieldReader
  | g :: fields, hnames, hmem => by
    obtain ⟨hg, hnames⟩ := List.nodup_cons.1 hnames
    rcases List.mem_cons.1 hmem with rfl | hmem
    · exact List.find?_cons_of_pos (decide_eq_true rfl)
    · have hne : g.name ≠ f.name := fun h => hg (List.mem_map.2 ⟨f, hmem, h.symm⟩)
      rw [List.map_cons, List.find?_cons_of_neg (by simpa using hne), find?_name hnames hmem]

/-- One step takes one entry, the field of which has not been seen. -/
theorem readEntries_entry {fields : List (FieldReader ρ)} {f : FieldReader ρ}
    (hfind : fields.find? (·.name = f.name) = some f) {seen : List String}
    (hseen : f.name ∉ seen) {x y : ρ} {v more : List Char}
    (hread : f.read x (v ++ more) = .ok (y, more)) (n : Nat) (first : Bool) :
    readEntries fields (n + 1) first seen x
        (separator first ++ (quote f.name ++ ':' :: v ++ more)) =
      readEntries fields n false (f.name :: seen) y more := by
  have hkey : nextKey first (separator first ++ (quote f.name ++ ':' :: v ++ more)) =
      .ok (true, quote f.name ++ (':' :: (v ++ more))) := by
    rw [List.append_assoc, List.cons_append, quote_append]
    exact nextKey_separator first _
  have hcolon : expect ':' (':' :: (v ++ more)) = .ok ((), v ++ more) := rfl
  rw [readEntries, bind_of_ok hkey, if_pos rfl, bind_of_ok (readText_quote f.name _)]
  simp only [hfind, List.contains_iff_mem, hseen, if_false, bind_of_ok hcolon, bind_of_ok hread]

/-- Reading what was written of the last fields, after others have been seen. A
step takes an entry; a field that is left out takes none. -/
theorem readEntries_writtenEntries {all : List (RecordField ρ)} {r : ρ} (rest : List Char)
    (hall : (all.map (·.name)).Nodup) {todo : List (RecordField ρ)} {x z : ρ}
    (hcarries : CarriesAll r todo x z) :
    ∀ n first seen, (writtenEntries todo r).length < n → (∀ f ∈ todo, f ∈ all) →
      (todo.map (·.name) ++ seen).Nodup →
        ∃ seen', readEntries (all.map (·.toFieldReader)) n first seen x
            (separated first (writtenEntries todo r) ++ '}' :: rest) = .ok ((seen', z), rest) ∧
          seen ⊆ seen' ∧ ∀ f ∈ todo, (f.write? r).isSome → f.name ∈ seen' := by
  induction hcarries with
  | nil =>
    intro n first seen hn _ _
    obtain ⟨n, rfl⟩ := Nat.exists_eq_add_one_of_ne_zero (Nat.ne_zero_of_lt hn)
    refine ⟨seen, ?_, List.Subset.refl seen, by simp⟩
    rw [readEntries]
    exact bind_of_ok (nextKey_end first rest)
  | @cons f todo x y z hf _ ih =>
    intro n first seen hn hmem hnodup
    obtain ⟨hmem, hmem'⟩ := List.forall_mem_cons.1 hmem
    obtain ⟨hnew, hnodup'⟩ := List.nodup_cons.1 hnodup
    cases hv : f.write? r with
    | none =>
      obtain rfl := hf.eq_of_none hv
      rw [writtenEntries_of_none hv] at hn ⊢
      obtain ⟨seen', hread, hsubset, hseen'⟩ := ih n first seen hn hmem' hnodup'
      refine ⟨seen', hread, hsubset, List.forall_mem_cons.2 ⟨fun h => ?_, hseen'⟩⟩
      rw [hv] at h
      cases h
    | some v =>
      rw [writtenEntries_of_some hv] at hn ⊢
      obtain ⟨n, rfl⟩ := Nat.exists_eq_add_one_of_ne_zero (Nat.ne_zero_of_lt hn)
      have hfind := find?_name hall hmem
      have hunseen : f.name ∉ seen := fun h => hnew (List.mem_append_right _ h)
      obtain ⟨seen', hread, hsubset, hseen'⟩ := ih n false (f.name :: seen)
        (Nat.lt_of_succ_lt_succ hn) hmem' (List.nodup_middle.2 hnodup)
      refine ⟨seen', ?_, fun s hs => hsubset (List.mem_cons_of_mem _ hs),
        List.forall_mem_cons.2 ⟨fun _ => hsubset List.mem_cons_self, hseen'⟩⟩
      rw [separated, List.append_assoc, List.append_assoc,
        readEntries_entry hfind hunseen (hf.read_write v hv _), hread]

theorem CarriesAll.of_required {r : ρ} {fields : List (RecordField ρ)} {x y : ρ}
    (h : CarriesAll r fields x y) : ∀ f ∈ fields, f.required → (f.write? r).isSome := by
  induction h with
  | nil => exact fun f hf => absurd hf List.not_mem_nil
  | cons hf _ ih => exact List.forall_mem_cons.2 ⟨hf.of_required, ih⟩

theorem readRecord_brace (fields : List (FieldReader ρ)) (blank : ρ) {s rest : List Char}
    {seen : List String} {r : ρ}
    (h : readEntries fields (s.length + 1) true [] blank s = .ok ((seen, r), rest))
    (hseen : ∀ f ∈ fields, f.required → f.name ∈ seen) :
    readRecord fields blank ('{' :: s) = .ok (r, rest) := by
  have hall : (fields.all fun f => !f.required || seen.contains f.name) = true := by
    refine List.all_eq_true.2 fun f hf => ?_
    cases hrequired : f.required with
    | false => rfl
    | true => simpa using hseen f hf hrequired
  have hread : readRecord fields blank ('{' :: s) =
      (readEntries fields (s.length + 1) true [] blank >>= fun e =>
        if fields.all fun f => !f.required || e.1.contains f.name then pure e.2
        else throw .mismatched : Reader ρ) s := rfl
  rw [hread, bind_of_ok h, if_pos hall]
  rfl

/-- **Records are read back** if their fields carry them over from the blank
record. -/
theorem Codec.Lossless.record {fields : List (RecordField ρ)} {blank : ρ}
    (hnames : (fields.map (·.name)).Nodup)
    (h : ∀ r, CarriesAll r fields blank r) : (Codec.record fields blank).Lossless where
  opens _ := ⟨'{', _, rfl, .inr (.inr rfl)⟩
  read_write r rest := by
    have hne : ∀ e ∈ writtenEntries fields r, e ≠ [] := fun _ => ne_nil_of_mem_writtenEntries
    have hlength : (writtenEntries fields r).length <
        (separated true (writtenEntries fields r) ++ '}' :: rest).length + 1 := by
      have := length_le_separated hne true
      rw [List.length_append]
      omega
    obtain ⟨seen, hread, -, hseen⟩ := readEntries_writtenEntries rest hnames (h r) _ true []
      hlength (fun _ hf => hf) (by rwa [List.append_nil])
    have hwrite : (Codec.record fields blank).write r = writeRecord fields r := rfl
    rw [hwrite, writeRecord_append]
    refine readRecord_brace _ blank hread fun g hg hrequired => ?_
    obtain ⟨f, hf, rfl⟩ := List.mem_map.1 hg
    exact hseen f hf ((h r).of_required f hf hrequired)

end ModulePolicy.Json
