/-
# Quoted text read back

Writing a text and reading it gives the text back, whatever stands behind the
closing quote (`readQuoted_write`). Each character has one written form, which
is read as this character (`readQuotedRest_escapeChar`):

| character | written form |
| --- | --- |
| quote, backslash, and the five controls with a letter | a backslash and one character |
| any other control below U+0020 | `\u00`, two hexadecimal digits |
| any other | itself |
-/

import ModulePolicy.Json.Quoted

namespace ModulePolicy.Json

/-- An escape is read as its character, then the text goes on. -/
theorem readQuotedRest_escape {s rest : List Char} {c : Char} (h : readEscape s = .ok (c, rest)) :
    readQuotedRest ('\\' :: s) = (readQuotedRest rest).map fun r => (c :: r.1, r.2) := by
  rw [readQuotedRest]
  split
  · rename_i fault hfault
    rw [h] at hfault
    cases hfault
  · rename_i d s' hs'
    rw [h] at hs'
    obtain ⟨rfl, rfl⟩ := Prod.mk.inj (Except.ok.inj hs')
    rfl

/-- A character that needs no escape stands for itself. -/
theorem readQuotedRest_plain {c : Char} (hquote : c ≠ '"') (hbackslash : c ≠ '\\')
    (hcontrol : ¬ c.toNat < 0x20) (s : List Char) :
    readQuotedRest (c :: s) = (readQuotedRest s).map fun r => (c :: r.1, r.2) := by
  rw [readQuotedRest, if_neg hcontrol]
  · exact hquote
  · exact hbackslash

theorem hexNumber?_control : ∀ n < 0x20, hexNumber? ('0' :: '0' :: hexDigits n) = some n := by
  decide

theorem readHex4_control {n : Nat} (h : n < 0x20) (rest : List Char) :
    readHex4 ('0' :: '0' :: (hexDigits n ++ rest)) = .ok (n, rest) := by
  have hnumber := hexNumber?_control n h
  rw [hexDigits] at hnumber ⊢
  rw [List.cons_append, List.cons_append, List.nil_append, readHex4, hnumber]

theorem readEscape_control {c : Char} (h : c.toNat < 0x20) (rest : List Char) :
    readEscape ('u' :: '0' :: '0' :: (hexDigits c.toNat ++ rest)) = .ok (c, rest) := by
  have hhigh : ¬ (0xD800 ≤ c.toNat ∧ c.toNat ≤ 0xDBFF) := by omega
  have hlow : ¬ (0xDC00 ≤ c.toNat ∧ c.toNat ≤ 0xDFFF) := by omega
  simp only [readEscape, bind, StateT.bind, Except.bind, readHex4_control h, if_neg hhigh,
    if_neg hlow, Char.ofNat_toNat]
  rfl

/-- **The written form of a character is read as this character.** -/
theorem readQuotedRest_escapeChar (c : Char) (s : List Char) :
    readQuotedRest (escapeChar c ++ s) = (readQuotedRest s).map fun r => (c :: r.1, r.2) := by
  unfold escapeChar
  -- the characters that are escaped by one more character
  iterate 7
    split
    · subst c
      exact readQuotedRest_escape rfl
  split
  · rename_i hcontrol
    rw [List.append_assoc]
    exact readQuotedRest_escape (readEscape_control hcontrol s)
  · rename_i hquote hbackslash _ _ _ _ _ hcontrol
    exact readQuotedRest_plain hquote hbackslash hcontrol s

theorem readQuotedRest_write (cs rest : List Char) :
    readQuotedRest (cs.flatMap escapeChar ++ '"' :: rest) = .ok (cs, rest) := by
  induction cs with
  | nil =>
    rw [List.flatMap_nil, List.nil_append, readQuotedRest]
  | cons c cs ih =>
    rw [List.flatMap_cons, List.append_assoc, readQuotedRest_escapeChar, ih]
    rfl

/-- **A text is read back** from behind its opening quote on. -/
theorem readQuoted_write (s : String) (rest : List Char) :
    readQuoted (s.toList.flatMap escapeChar ++ '"' :: rest) = .ok (s, rest) := by
  rw [readQuoted, readQuotedRest_write, Except.map, String.ofList_toList]

end ModulePolicy.Json
