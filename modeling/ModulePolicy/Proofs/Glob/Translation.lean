/-
# The language of a compiled glob

A matcher that a standard engine gives for the translation of a pattern accepts
the texts that the tokens of the pattern cover (`StandardEngine.matcher_iff`):
token by token the translation is the text of an item with the language of the
token. Rows answer the same question, so the compiled glob, the free function
and such a matcher agree (`Glob.language_of_compile`).

`exactEngine` reads the items of a translation back. It is standard, so there
is something to assume.
-/

import ModulePolicy.Glob.Translation
import ModulePolicy.Proofs.Glob.Compiling
import ModulePolicy.Proofs.Glob.Matching

namespace ModulePolicy

open Computability in
/-- Repetitions of a class of characters are the texts over that class. -/
theorem mem_kstar_charClass_iff {p : Char → Prop} {s : List Char} :
    s ∈ (charClass p)∗ ↔ ∀ c ∈ s, p c := by
  rw [Language.mem_kstar]
  constructor
  · rintro ⟨pieces, rfl, h⟩ c hc
    obtain ⟨piece, hpiece, hc⟩ := List.mem_flatten.1 hc
    obtain ⟨d, hd, rfl⟩ := h piece hpiece
    obtain rfl := List.mem_singleton.1 hc
    exact hd
  · intro h
    refine ⟨s.map fun c => [c], by simp [← List.flatMap_def], fun piece hpiece => ?_⟩
    obtain ⟨c, hc, rfl⟩ := List.mem_map.1 hpiece
    exact ⟨c, h c hc, rfl⟩

namespace GlobToken

variable {mode : GlobMode}

/-- The item that a token is translated to. -/
def item (mode : GlobMode) : GlobToken → RegexItem
  | literal c => .char c
  | star =>
    match mode with
    | .path => .slashlessRun
    | .identifier => .anyRun
  | doubleStar => .anyRun

/-- An item stands for the pieces that its token takes. -/
theorem mem_language_item_iff {t : GlobToken} {piece : List Char} :
    piece ∈ (t.item mode).language ↔ t.Takes mode piece := by
  have any : piece ∈ RegexItem.anyRun.language :=
    mem_kstar_charClass_iff.2 fun _ _ => trivial
  cases t with
  | literal c => exact Iff.rfl
  | doubleStar => exact ⟨fun _ => trivial, fun _ => any⟩
  | star =>
    cases mode with
    | path =>
      refine mem_kstar_charClass_iff.trans ?_
      simp only [Takes, starAdmits, decide_eq_true_eq]
    | identifier => exact ⟨fun _ _ _ => rfl, fun _ => any⟩

/-- The product of the languages of the tokens holds the texts they cover. -/
theorem mem_prod_language_iff {ts : List GlobToken} {s : List Char} :
    s ∈ ((ts.map (item mode)).map RegexItem.language).prod ↔ Covers mode ts s := by
  induction ts generalizing s with
  | nil => exact (Language.mem_one s).trans covers_nil_iff.symm
  | cons t ts ih =>
    rw [List.map_cons, List.map_cons, List.prod_cons, Language.mem_mul, covers_cons_iff]
    simp only [mem_language_item_iff, ih]
    constructor
    · rintro ⟨piece, ht, rest, hrest, rfl⟩
      exact ⟨piece, rest, rfl, ht, hrest⟩
    · rintro ⟨piece, rest, rfl, ht, hrest⟩
      exact ⟨piece, ht, rest, hrest, rfl⟩

end GlobToken

/-- A translation is the items of its tokens one after the other. -/
theorem translateChars_eq (mode : GlobMode) (cs : List Char) :
    translateChars mode cs =
      ((GlobToken.ofChars cs).map (GlobToken.item mode)).flatMap RegexItem.text := by
  have star : RegexItem.text (GlobToken.star.item mode) = starRegex mode := by
    cases mode <;> rfl
  fun_induction translateChars mode cs with
  | case1 cs ih => simp [GlobToken.ofChars, GlobToken.item, RegexItem.text, ih]
  | case2 cs hne ih => simp [GlobToken.ofChars, star, ih]
  | case3 c cs hne hstar ih => simp [GlobToken.ofChars, GlobToken.item, RegexItem.text, ih]
  | case4 => rfl

/-- **A standard engine finds the language of the tokens in a translation.** -/
theorem StandardEngine.matcher_iff {engine : String → Option (String → Bool)}
    (h : StandardEngine engine) {mode : GlobMode} {pattern : String} {matcher : String → Bool}
    (hm : engine (translate mode pattern) = some matcher) (s : String) :
    matcher s = true ↔ Covers mode (GlobToken.ofChars pattern.toList) s.toList := by
  rw [translate, translateChars_eq] at hm
  exact (h _ matcher hm s).trans GlobToken.mem_prod_language_iff

/-- The items of a regular expression, as far as its closing anchor. -/
def readItems : List Char → List RegexItem
  | '\\' :: c :: cs => .char c :: readItems cs
  | '.' :: '*' :: cs => .anyRun :: readItems cs
  | '[' :: '^' :: '/' :: ']' :: '*' :: cs => .slashlessRun :: readItems cs
  | '$' :: _ => []
  | c :: cs => .char c :: readItems cs
  | [] => []

theorem readItems_escape (c : Char) (cs : List Char) :
    readItems (escape c ++ cs) = .char c :: readItems cs := by
  unfold escape
  split
  · rfl
  · rename_i hc
    -- A character that starts another item would have been escaped.
    rw [List.singleton_append, readItems] <;>
      · intros
        subst c
        simp [metaCharacters] at hc

theorem readItems_flatMap_text (items : List RegexItem) :
    readItems (items.flatMap RegexItem.text ++ ['$']) = items := by
  induction items with
  | nil => rfl
  | cons item items ih =>
    rw [List.flatMap_cons, List.append_assoc]
    cases item with
    | char c => rw [RegexItem.text, readItems_escape, ih]
    | anyRun => exact congrArg _ ih
    | slashlessRun => exact congrArg _ ih

/-- The token of a path pattern that is translated to an item. -/
def RegexItem.token : RegexItem → GlobToken
  | char c => .literal c
  | anyRun => .doubleStar
  | slashlessRun => .star

/-- An engine for translations that never refuses. -/
def exactEngine (regex : String) : Option (String → Bool) :=
  let tokens := (readItems (regex.toList.drop 5)).map RegexItem.token
  some fun s => (Glob.coveredSuffixes .path tokens s.toList).headD false

/-- There is a standard engine. -/
theorem standardEngine_exactEngine : StandardEngine exactEngine := by
  intro items matcher h s
  have read : readItems ((anchored (items.flatMap RegexItem.text)).toList.drop 5) = items := by
    simp only [anchored, String.toList_append, String.toList_ofList, List.append_assoc]
    exact readItems_flatMap_text items
  have items_eq : (items.map RegexItem.token).map (GlobToken.item .path) = items := by
    rw [List.map_map]
    refine List.map_id'' (fun item => ?_) items
    cases item <;> rfl
  rw [exactEngine, read, Option.some.injEq] at h
  rw [← h, (Glob.answers_coveredSuffixes .path s.toList _).headD_iff,
    ← GlobToken.mem_prod_language_iff, items_eq]

namespace Glob

/-- **The language of a compiled glob**, whichever engine has accepted it: the
texts that can be cut into one piece per token. The free function answers the
same, and so does every matcher that a standard engine gives for the translation
of the pattern. -/
theorem language_of_compile [PatternEngine] {mode : GlobMode} {pattern : String} {g : Glob}
    (h : compile mode pattern = .ok g) (s : String) :
    (g.isMatch s = true ↔ Covers mode (GlobToken.ofChars pattern.toList) s.toList) ∧
      globMatches mode pattern s = g.isMatch s ∧
      ∀ engine, StandardEngine engine → ∀ matcher,
        engine (translate mode pattern) = some matcher → matcher s = g.isMatch s := by
  have covers : g.isMatch s = true ↔ Covers mode (GlobToken.ofChars pattern.toList) s.toList := by
    rw [isMatch_iff_covers, eq_of_compile h]
  refine ⟨covers, globMatches_of_compile h s, fun engine standard matcher hm => ?_⟩
  exact Bool.eq_iff_iff.2 ((standard.matcher_iff hm s).trans covers.symm)

/-- Three stars are a run of anything and a run without slashes, so they may
take several segments. -/
theorem language_of_compile_three_stars :
    Covers .path (GlobToken.ofChars "src/***.rs".toList) "src/a/b.rs".toList ∧
      ¬ Covers .path (GlobToken.ofChars "src/***.rs".toList) "src/a/b.r".toList ∧
      ∃ matcher, exactEngine (translate .path "src/***.rs") = some matcher ∧
        matcher "src/a/b.rs" = true := by
  have compiles : compile .path "src/***.rs" =
      .ok ⟨"src/***.rs", .path, GlobToken.ofChars "src/***.rs".toList⟩ := by decide
  obtain ⟨covers, -, engines⟩ := language_of_compile compiles "src/a/b.rs"
  obtain ⟨covers', -, -⟩ := language_of_compile compiles "src/a/b.r"
  refine ⟨covers.1 (by decide), fun h => ?_, _, rfl, ?_⟩
  · exact absurd (covers'.2 h) (by decide)
  · rw [engines exactEngine standardEngine_exactEngine _ rfl]
    decide

end Glob

end ModulePolicy
