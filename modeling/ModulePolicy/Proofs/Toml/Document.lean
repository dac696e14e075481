/-
# Documents of entries

An entry is a bare key with a word for its value, and its line is `key = word`. Each
reader takes its part of the line off the front of the text and leaves what follows
(`Entry.line_text`), so a document of such lines is read as these entries, if no key
stands in it twice (`readDocument_documentOf`).
-/

import ModulePolicy.Proofs.Toml.Word
import ModulePolicy.Toml.Document

namespace ModulePolicy.Toml

section Reader

variable {α β : Type} {x : Reader α} {s t : List Char} {a : α}

theorem bind_of_some (h : x s = some (a, t)) (f : α → Reader β) : (x >>= f) s = f a t := by
  change (x s).bind (fun p => f p.1 p.2) = f a t
  rw [h]
  rfl

theorem get_apply (s : List Char) : (get : Reader (List Char)) s = some (s, s) := rfl

/-- Where no blank stands none is skipped. -/
theorem skipBlanks_of_ne (h : ∀ c rest, isBlank c → s ≠ c :: rest) :
    skipBlanks s = some ((), s) := by
  cases s with
  | nil => rfl
  | cons c rest =>
    have hc : ¬ isBlank c := fun hc => h c rest hc rfl
    rw [skipBlanks, List.dropWhile_cons_of_neg hc]

theorem expect_cons (c : Char) (s : List Char) : expect c (c :: s) = some ((), s) := if_pos rfl

theorem lineEnd_newline (s : List Char) : lineEnd ('\n' :: s) = some ((), s) := rfl

/-- No key and no word begins with a blank. -/
theorem kinds_of_blank {c : Char} (hc : isBlank c) :
    isBareKeyChar c = false ∧ isWordChar c = false := by
  simp only [isBlank, Bool.or_eq_true, decide_eq_true_eq] at hc
  rcases hc with rfl | rfl <;> decide

end Reader

/-- A bare key with a word for its value. -/
structure Entry where
  name : String
  word : List Char
  value : Value
  name_ne_empty : name ≠ ""
  bare : name.toList.all isBareKeyChar
  writes : Writes word value

namespace Entry

variable (e : Entry) (rest : List Char)

/-- What follows the equals sign and its blank. -/
def afterBlank : List Char := e.word ++ '\n' :: rest

/-- The line of an entry, before what follows it. -/
def text : List Char := e.name.toList ++ ' ' :: '=' :: ' ' :: e.afterBlank rest

/-- What the line does. -/
def line : Line := .assign [] e.name e.value

theorem name_ne_nil : e.name.toList ≠ [] := mt String.toList_eq_nil_iff.1 e.name_ne_empty

theorem word_ne_nil : e.word ≠ [] := by
  intro h
  have hnone : valueOfWord? [] = none := by decide
  rw [← h, e.writes.valueOfWord?_eq] at hnone
  cases hnone

theorem text_ne_nil : e.text rest ≠ [] :=
  List.append_ne_nil_of_right_ne_nil _ (List.cons_ne_nil _ _)

theorem text_ne_cons {c : Char} (hc : isBareKeyChar c = false) (s : List Char) :
    e.text rest ≠ c :: s :=
  append_ne_cons e.name_ne_nil e.bare hc _ s

theorem afterBlank_ne_cons {c : Char} (hc : isWordChar c = false) (s : List Char) :
    e.afterBlank rest ≠ c :: s :=
  append_ne_cons e.word_ne_nil e.writes.all_isWordChar hc _ s

theorem simpleKey_text :
    simpleKey (e.text rest) = some (e.name, ' ' :: '=' :: ' ' :: e.afterBlank rest) := by
  have htake : (e.text rest).takeWhile isBareKeyChar = e.name.toList :=
    takeWhile_append_cons (List.all_eq_true.1 e.bare) rfl _
  have hdrop : (e.text rest).drop e.name.toList.length = ' ' :: '=' :: ' ' :: e.afterBlank rest :=
    List.drop_left
  generalize hs : e.text rest = s at htake hdrop ⊢
  unfold simpleKey
  split
  · exact absurd hs (e.text_ne_cons rest (by decide) _)
  · exact absurd hs (e.text_ne_cons rest (by decide) _)
  · simp only [htake, hdrop, if_neg e.name_ne_nil, String.ofList_toList]

theorem skipBlanks_text : skipBlanks (e.text rest) = some ((), e.text rest) :=
  skipBlanks_of_ne fun _ s hc => e.text_ne_cons rest (kinds_of_blank hc).1 s

theorem skipBlanks_afterBlank :
    skipBlanks (' ' :: e.afterBlank rest) = some ((), e.afterBlank rest) :=
  skipBlanks_of_ne fun _ s hc => e.afterBlank_ne_cons rest (kinds_of_blank hc).2 s

theorem key_text :
    key (e.text rest) = some (([], e.name), '=' :: ' ' :: e.afterBlank rest) := by
  rw [key, nestingLimit, keyParts, bind_of_some (e.skipBlanks_text rest),
    bind_of_some (e.simpleKey_text rest)]
  rfl

theorem word_afterBlank : Toml.word (e.afterBlank rest) = some (e.value, '\n' :: rest) := by
  have htake : (e.word ++ '\n' :: rest).takeWhile isWordChar = e.word :=
    takeWhile_append_cons (List.all_eq_true.1 e.writes.all_isWordChar) rfl rest
  simp [Toml.word, afterBlank, htake, e.writes.valueOfWord?_eq]

/-- A word is no other kind of value. -/
theorem valueAround_afterBlank (inside : Option (Reader Value)) :
    valueAround inside (e.afterBlank rest) = some (e.value, '\n' :: rest) := by
  have hword := e.word_afterBlank rest
  generalize hs : e.afterBlank rest = s at hword ⊢
  rw [valueAround, bind_of_some (get_apply _)]
  split
  case h_5 => exact hword
  all_goals exact absurd hs (e.afterBlank_ne_cons rest (by decide) _)

theorem value_afterBlank (depth : Nat) :
    Toml.value depth (e.afterBlank rest) = some (e.value, '\n' :: rest) := by
  cases depth with
  | zero => exact e.valueAround_afterBlank rest none
  | succ depth => exact e.valueAround_afterBlank rest (some (Toml.value depth))

/-- **A line is read as its entry.** -/
theorem line_text : Toml.line (e.text rest) = some (e.line, rest) := by
  have hkey := e.key_text rest
  generalize hs : e.text rest = s at hkey ⊢
  rw [Toml.line, bind_of_some (get_apply _)]
  split
  · exact absurd hs (e.text_ne_cons rest (by decide) _)
  · exact absurd hs (e.text_ne_cons rest (by decide) _)
  · rw [bind_of_some hkey]
    dsimp only
    rw [bind_of_some (expect_cons '=' _), bind_of_some (e.skipBlanks_afterBlank rest),
      bind_of_some (e.value_afterBlank rest _), bind_of_some (lineEnd_newline rest)]
    rfl

/-- The node that the line sets. -/
def node : String × Node := (e.name, .value e.value)

end Entry

/-- The document that sets some entries, one on each line. -/
def documentOf : List Entry → List Char
  | [] => []
  | e :: entries => e.text (documentOf entries)

theorem length_le_documentOf (entries : List Entry) :
    entries.length ≤ (documentOf entries).length := by
  induction entries with
  | nil => exact Nat.le_refl 0
  | cons e entries ih =>
    simp only [documentOf, Entry.text, Entry.afterBlank, List.length_cons, List.length_append]
    omega

/-- **The lines of a document** are read one after the other, if there is a step for each. -/
theorem lines_documentOf : ∀ {entries : List Entry} {n : Nat}, entries.length < n →
    lines n (documentOf entries) = some (entries.map Entry.line, [])
  | [], n + 1, _ => rfl
  | e :: entries, n + 1, hn => by
    have hskip := e.skipBlanks_text (documentOf entries)
    have hline := e.line_text (documentOf entries)
    have hrest := lines_documentOf (Nat.lt_of_succ_lt_succ hn)
    rw [documentOf, lines, bind_of_some hskip, bind_of_some (get_apply _)]
    generalize hs : e.text (documentOf entries) = s at hline ⊢
    split
    · exact absurd hs (e.text_ne_nil _)
    · exact absurd hs (e.text_ne_cons _ (by decide) _)
    · exact absurd hs (e.text_ne_cons _ (by decide) _)
    · exact absurd hs (e.text_ne_cons _ (by decide) _)
    · rw [bind_of_some hline, bind_of_some hrest]
      rfl

namespace Table

theorem setEntry_of_not_mem {key : String} (node : Node) : ∀ {entries : List (String × Node)},
    key ∉ entries.map (·.1) → setEntry key node entries = entries ++ [(key, node)]
  | [], _ => rfl
  | e :: entries, h => by
    obtain ⟨hne, hrest⟩ := not_or.1 (mt List.mem_cons.2 h)
    rw [setEntry, if_neg (Ne.symm hne), setEntry_of_not_mem node hrest, List.cons_append]

/-- A key that is not there yet is set behind all others. -/
theorem assign_of_not_mem {t : Table} {key : String} (v : Value) (horigin : t.origin = .header)
    (h : key ∉ t.entries.map (·.1)) :
    t.assign [] key v = some ⟨t.origin, t.entries ++ [(key, .value v)]⟩ := by
  have hget : t.get? key = none := by
    rw [get?, List.lookup_eq_none_iff]
    exact fun e he => bne_iff_ne.2 fun hkey => h (hkey ▸ List.mem_map_of_mem he)
  have hplace : ¬ ((t.origin = .onKeyWay) ↔ ([] : List String) = []) := by simp [horigin]
  rw [assign, editAt, if_neg hplace, addNew, hget]
  exact congrArg (fun entries => some (Table.mk t.origin entries)) (setEntry_of_not_mem _ h)

end Table

/-- Lines that set different keys add their nodes one behind the other. -/
theorem addLines_line : ∀ {entries : List Entry} {t : Table}, t.origin = .header →
    (t.entries.map (·.1) ++ entries.map (·.name)).Nodup →
      addLines [] (entries.map Entry.line) t =
        some ⟨t.origin, t.entries ++ entries.map Entry.node⟩
  | [], t, _, _ => by
    rw [List.map_nil, List.map_nil, List.append_nil]
    rfl
  | e :: entries, t, horigin, hnames => by
    have hnew : e.name ∉ t.entries.map (·.1) := fun hmem =>
      (List.nodup_append.1 hnames).2.2 _ hmem _ List.mem_cons_self rfl
    have hline : t.editAt false (Table.assign [] e.name e.value) [] =
        some ⟨t.origin, t.entries ++ [e.node]⟩ := Table.assign_of_not_mem e.value horigin hnew
    have hrest : addLines [] (entries.map Entry.line) ⟨t.origin, t.entries ++ [e.node]⟩ =
        some ⟨t.origin, t.entries ++ [e.node] ++ entries.map Entry.node⟩ := by
      refine addLines_line horigin ?_
      rw [List.map_append, List.append_assoc]
      exact hnames
    rw [List.map_cons, Entry.line, addLines, hline]
    rw [List.append_assoc] at hrest
    exact hrest

/-- **A document of entries is read as the table of them.** -/
theorem readDocument_documentOf {entries : List Entry} (hnames : (entries.map (·.name)).Nodup) :
    readDocument (String.ofList (documentOf entries)) =
      some ⟨.header, entries.map Entry.node⟩ := by
  have hlines := lines_documentOf (Nat.lt_succ_of_le (length_le_documentOf entries))
  have hadd : addLines [] (entries.map Entry.line) .root =
      some ⟨.header, entries.map Entry.node⟩ := addLines_line rfl hnames
  -- no key begins with a byte order mark, so none is skipped
  have hmark : ∀ s, documentOf entries ≠ '\uFEFF' :: s := by
    cases entries with
    | nil => exact fun _ => (List.cons_ne_nil _ _).symm
    | cons e entries => exact e.text_ne_cons _ (by decide)
  simp only [readDocument, String.toList_ofList, hlines, hadd]

end ModulePolicy.Toml
