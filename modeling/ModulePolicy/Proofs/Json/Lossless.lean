/-
# Codecs that lose nothing

A codec is lossless if it reads back what it writes, whatever follows, and if
what it writes begins like a value (`Codec.Lossless`). So a whole text holds the
value and nothing else (`Codec.Lossless.readAll_write`).

| codec | lossless if |
| --- | --- |
| `text` | always |
| `list` | its items are |
| `choice` | the name of each choice finds it |

Reading is followed step by step: a step that succeeds takes what was written for
it off the text and leaves the rest to the next (`bind_of_ok`).
-/

import ModulePolicy.Json.Codec
import ModulePolicy.Proofs.Json.Quoted

namespace ModulePolicy.Json

variable {α β : Type}

theorem bind_of_ok {x : Reader α} {f : α → Reader β} {s rest : List Char} {a : α}
    (h : x s = .ok (a, rest)) : (x >>= f) s = f a rest := by
  simp only [bind, StateT.bind, Except.bind, h]

theorem map_of_ok {x : Reader α} (f : α → β) {s rest : List Char} {a : α}
    (h : x s = .ok (a, rest)) : (f <$> x) s = .ok (f a, rest) := by
  simp only [Functor.map, StateT.map, bind, Except.bind, h, pure, Except.pure]

theorem get_eq (s : List Char) : (get : Reader (List Char)) s = .ok (s, s) := rfl

theorem set_eq (s t : List Char) : (set s : Reader PUnit) t = .ok (⟨⟩, s) := rfl

/-- What is written before an element, be it the first. -/
def separator (first : Bool) : List Char := if first then [] else [',']

/-- Elements with what is written before them. -/
def separated : Bool → List (List Char) → List Char
  | _, [] => []
  | first, x :: xs => separator first ++ (x ++ separated false xs)

theorem joinCommas_eq : ∀ xs : List (List Char), joinCommas xs = separated true xs
  | [] => rfl
  | [x] => (List.append_nil x).symm
  | x :: y :: rest => by
    rw [joinCommas, joinCommas_eq (y :: rest)]
    rfl

theorem length_le_separated {xs : List (List Char)} (h : ∀ x ∈ xs, x ≠ []) :
    ∀ first, xs.length ≤ (separated first xs).length := by
  induction xs with
  | nil => exact fun _ => Nat.le_refl 0
  | cons x xs ih =>
    obtain ⟨hx, hxs⟩ := List.forall_mem_cons.1 h
    intro first
    have hpos := List.length_pos_iff.2 hx
    have htail := ih hxs false
    simp only [separated, List.length_append, List.length_cons]
    omega

/-- Whether a list, a record or a text begins with this character. -/
def OpensValue (c : Char) : Prop := c = '"' ∨ c = '[' ∨ c = '{'

theorem skipBlanks_opens {c : Char} (h : OpensValue c) (s : List Char) :
    skipBlanks (c :: s) = .ok ((), c :: s) := by
  rcases h with rfl | rfl | rfl <;> rfl

theorem nextElement_separator (first : Bool) {c : Char} (h : OpensValue c) (s : List Char) :
    nextElement first (separator first ++ c :: s) = .ok (true, c :: s) := by
  rcases h with rfl | rfl | rfl <;> cases first <;> rfl

theorem nextElement_end (first : Bool) (s : List Char) :
    nextElement first (']' :: s) = .ok (false, s) := rfl

theorem nextKey_separator (first : Bool) (s : List Char) :
    nextKey first (separator first ++ '"' :: s) = .ok (true, '"' :: s) := by
  cases first <;> rfl

theorem nextKey_end (first : Bool) (s : List Char) : nextKey first ('}' :: s) = .ok (false, s) :=
  rfl

theorem readList_bracket (item : Reader α) (s : List Char) :
    readList item ('[' :: s) = readElements item (s.length + 1) true s := rfl

theorem writeList_append (item : α → List Char) (as : List α) (rest : List Char) :
    writeList item as ++ rest = '[' :: (separated true (as.map item) ++ ']' :: rest) := by
  rw [writeList, joinCommas_eq, List.cons_append, List.append_assoc]
  rfl

theorem quote_append (s : String) (rest : List Char) :
    quote s ++ rest = '"' :: (s.toList.flatMap escapeChar ++ '"' :: rest) := by
  simp [quote]

theorem readText_quote (s : String) (rest : List Char) :
    readText (quote s ++ rest) = .ok (s, rest) := by
  rw [quote_append]
  exact readQuoted_write s rest

theorem readOptionalText_quote (s : String) (rest : List Char) :
    readOptionalText (quote s ++ rest) = .ok (some s, rest) := by
  have hread := map_of_ok some (readText_quote s rest)
  rw [quote_append] at hread ⊢
  exact hread

/-- Reading what was written gives the value back and takes nothing more. -/
structure Codec.Lossless (c : Codec α) : Prop where
  opens : ∀ a, ∃ o s, c.write a = o :: s ∧ OpensValue o
  read_write : ∀ a rest, c.read (c.write a ++ rest) = .ok (a, rest)

namespace Codec.Lossless

variable {c : Codec α}

theorem write_ne_nil (h : c.Lossless) (a : α) : c.write a ≠ [] := by
  obtain ⟨o, s, hs, -⟩ := h.opens a
  rw [hs]
  exact List.cons_ne_nil o s

/-- **A text that was written is read as the value it was written for.** -/
theorem readAll_write (h : c.Lossless) (a : α) :
    readAll c.read (String.ofList (c.write a)) = .ok a := by
  have hread := h.read_write a []
  rw [List.append_nil] at hread
  simp only [readAll, String.toList_ofList, hread, List.all_nil, if_true]

theorem text : Codec.text.Lossless where
  opens _ := ⟨'"', _, rfl, .inl rfl⟩
  read_write := readText_quote

theorem nextElement_write (h : c.Lossless) (first : Bool) (a : α) (rest : List Char) :
    nextElement first (separator first ++ (c.write a ++ rest)) = .ok (true, c.write a ++ rest) := by
  obtain ⟨o, s, hs, ho⟩ := h.opens a
  rw [hs]
  exact nextElement_separator first ho (s ++ rest)

/-- One step takes one element, and one more the bracket. -/
theorem readElements_separated (h : c.Lossless) (rest : List Char) (as : List α) :
    ∀ n first, as.length < n →
      readElements c.read n first (separated first (as.map c.write) ++ ']' :: rest) =
        .ok (as, rest) := by
  induction as with
  | nil =>
    intro n first hn
    obtain ⟨n, rfl⟩ := Nat.exists_eq_add_one_of_ne_zero (Nat.ne_zero_of_lt hn)
    rw [readElements]
    exact bind_of_ok (nextElement_end first rest)
  | cons a as ih =>
    intro n first hn
    obtain ⟨n, rfl⟩ := Nat.exists_eq_add_one_of_ne_zero (Nat.ne_zero_of_lt hn)
    have htail := ih n false (Nat.lt_of_succ_lt_succ hn)
    simp only [List.map_cons, separated, List.append_assoc, readElements]
    rw [bind_of_ok (nextElement_write h first a _), if_pos rfl, bind_of_ok (h.read_write a _),
      bind_of_ok htail]
    rfl

/-- **Lists of what is read back are read back.** -/
theorem list (h : c.Lossless) : (Codec.list c).Lossless where
  opens _ := ⟨'[', _, rfl, .inr (.inl rfl)⟩
  read_write as rest := by
    have hlength : as.length ≤ (separated true (as.map c.write)).length := by
      rw [← List.length_map (f := c.write)]
      refine length_le_separated ?_ true
      exact List.forall_mem_map.2 fun a _ => h.write_ne_nil a
    simp only [Codec.list]
    rw [writeList_append, readList_bracket]
    refine readElements_separated h rest as _ true ?_
    rw [List.length_append]
    omega

/-- **Choices are read back** if each is found by its name. -/
theorem choice {name : α → String} {all : List α}
    (h : ∀ a, all.find? (name · = name a) = some a) : (Codec.choice name all).Lossless where
  opens _ := ⟨'"', _, rfl, .inl rfl⟩
  read_write a rest := by
    have hwrite : (Codec.choice name all).write a = quote (name a) := rfl
    rw [hwrite, quote_append, Codec.choice]
    simp only
    rw [bind_of_ok (skipBlanks_opens (.inl rfl) _), bind_of_ok (get_eq _)]
    simp only
    rw [bind_of_ok (set_eq _ _), bind_of_ok (readQuoted_write (name a) rest), h a]
    rfl

end Codec.Lossless

end ModulePolicy.Json
