/-
# Text with separators

| function | rule |
| --- | --- |
| `segments` | the pieces between slashes, empty pieces left out |
| `withSlashes c` | every `c` becomes a slash |
| `startsWith`, `containsText` | one text at the start of, or anywhere in, another |
| `commaList` | texts with a comma and a blank between them |
-/

namespace ModulePolicy

/-- The pieces of a text between slashes, empty ones included. -/
def splitAtSlashes : List Char → List (List Char)
  | [] => [[]]
  | '/' :: cs => [] :: splitAtSlashes cs
  | c :: cs =>
    match splitAtSlashes cs with
    | piece :: pieces => (c :: piece) :: pieces
    | [] => [[c]]

/-- The pieces of a text between slashes that are not empty. -/
def segments (s : String) : List String :=
  ((splitAtSlashes s.toList).filter (· ≠ [])).map String.ofList

theorem length_le_of_mem_splitAtSlashes {cs piece : List Char} (h : piece ∈ splitAtSlashes cs) :
    piece.length ≤ cs.length := by
  fun_induction splitAtSlashes cs generalizing piece with
  | case1 => exact Nat.le_of_eq (congrArg List.length (List.mem_singleton.1 h))
  | case2 cs ih =>
    rcases List.mem_cons.1 h with rfl | h
    · exact Nat.zero_le _
    · exact Nat.le_trans (ih h) (Nat.le_succ _)
  | case3 c cs _ first rest heq ih =>
    rw [heq] at ih
    rcases List.mem_cons.1 h with rfl | h
    · exact Nat.succ_le_succ (ih List.mem_cons_self)
    · exact Nat.le_trans (ih (List.mem_cons_of_mem _ h)) (Nat.le_succ _)
  | case4 c cs _ heq ih =>
    rw [List.mem_singleton.1 h]
    exact Nat.succ_le_succ (Nat.zero_le _)

theorem length_le_of_mem_segments {s piece : String} (h : piece ∈ segments s) :
    piece.length ≤ s.length := by
  obtain ⟨cs, hcs, rfl⟩ := List.mem_map.1 h
  rw [String.length_ofList, ← String.length_toList]
  exact length_le_of_mem_splitAtSlashes (List.mem_filter.1 hcs).1

/-- The text with a slash for every `c`. -/
def withSlashes (c : Char) (s : String) : String :=
  String.ofList (s.toList.map fun d => if d = c then '/' else d)

theorem withSlashes_withSlashes (c : Char) (s : String) :
    withSlashes c (withSlashes c s) = withSlashes c s := by
  have hchar : ∀ d : Char, (if (if d = c then '/' else d) = c then '/' else
      if d = c then '/' else d) = if d = c then '/' else d := fun d => by
    by_cases h : d = c <;> simp [h]
  simp only [withSlashes, String.toList_ofList, List.map_map, Function.comp_def, hchar]

theorem not_mem_withSlashes {c : Char} (hc : c ≠ '/') (s : String) :
    c ∉ (withSlashes c s).toList := by
  simp only [withSlashes, String.toList_ofList, List.mem_map, not_exists, not_and]
  intro d _ h
  split at h
  · exact hc h.symm
  · exact absurd h ‹_›

def startsWith (start s : String) : Bool := start.toList.isPrefixOf s.toList

def occursIn (part : List Char) : List Char → Bool
  | [] => part.isEmpty
  | c :: cs => part.isPrefixOf (c :: cs) || occursIn part cs

/-- Whether `part` stands somewhere in `s`. -/
def containsText (part s : String) : Bool := occursIn part.toList s.toList

theorem occursIn_iff {part : List Char} : ∀ {s : List Char}, occursIn part s ↔ part <:+: s
  | [] => by simp [occursIn]
  | c :: cs => by
    rw [occursIn, Bool.or_eq_true, List.isPrefixOf_iff_prefix, occursIn_iff, List.infix_cons_iff]

theorem containsText_iff {part s : String} : containsText part s ↔ part.toList <:+: s.toList :=
  occursIn_iff

def commaList (texts : List String) : String := ", ".intercalate texts

end ModulePolicy
