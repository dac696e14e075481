/-
# Path globs without double stars

If no two stars of a pattern are adjacent, all of its stars are lone ones, and in
a path these do not run over slashes. So the slashes of the text are taken by the
slashes of the pattern, the first by the first and so on, and what stands between
them is matched for itself: the pattern matches a text if the two have as many
pieces between slashes and each piece of the pattern matches the piece of the
text at its place (`Glob.isMatch_iff_pieces`).

The proofs go from the front, one slash at a time (`slash_induction`): a text has
no slash, or it is a text without slashes, a slash and the rest.
-/

import ModulePolicy.Proofs.Glob.Compiling
import ModulePolicy.Text.Slashed

namespace ModulePolicy

/-- The pieces of a text between slashes, empty ones included. -/
def pieces (s : String) : List String := (splitAtSlashes s.toList).map String.ofList

section Pieces

/-- A text that has a slash goes on after the first. -/
theorem slash_induction {P : List Char → Prop} (single : ∀ a, '/' ∉ a → P a)
    (slash : ∀ a b, '/' ∉ a → P b → P (a ++ '/' :: b)) (cs : List Char) : P cs := by
  by_cases h : '/' ∈ cs
  · obtain ⟨a, b, hcs, ha⟩ := List.eq_append_cons_of_mem h
    exact hcs ▸ slash a b ha (slash_induction single slash b)
  · exact single cs h
termination_by cs.length
decreasing_by
  rw [hcs, List.length_append, List.length_cons]
  omega

theorem splitAtSlashes_of_not_mem : ∀ {a : List Char}, '/' ∉ a → splitAtSlashes a = [a]
  | [], _ => rfl
  | c :: a, h => by
    obtain ⟨hc, ha⟩ := not_or.1 (mt List.mem_cons.2 h)
    rw [splitAtSlashes.eq_3 c a (Ne.symm hc), splitAtSlashes_of_not_mem ha]

/-- What stands before the first slash is the first piece. -/
theorem splitAtSlashes_append (b : List Char) :
    ∀ {a : List Char}, '/' ∉ a → splitAtSlashes (a ++ '/' :: b) = a :: splitAtSlashes b
  | [], _ => rfl
  | c :: a, h => by
    obtain ⟨hc, ha⟩ := not_or.1 (mt List.mem_cons.2 h)
    rw [List.cons_append, splitAtSlashes.eq_3 c _ (Ne.symm hc), splitAtSlashes_append b ha]

/-- There is one piece more than there are slashes. -/
theorem length_splitAtSlashes (cs : List Char) :
    (splitAtSlashes cs).length = cs.count '/' + 1 := by
  induction cs using slash_induction with
  | single a ha => rw [splitAtSlashes_of_not_mem ha, List.count_eq_zero.2 ha, List.length_singleton]
  | slash a b ha ih =>
    rw [splitAtSlashes_append b ha, List.length_cons, ih, List.count_append, List.count_cons_self,
      List.count_eq_zero.2 ha, Nat.zero_add]

theorem splitAtSlashes_ne_nil (cs : List Char) : splitAtSlashes cs ≠ [] :=
  List.ne_nil_of_length_eq_add_one (length_splitAtSlashes cs)

/-- A text is its first piece, or that piece, a slash and a text with the other
pieces. -/
theorem eq_or_exists_of_splitAtSlashes {s a : List Char} {rest : List (List Char)}
    (h : splitAtSlashes s = a :: rest) :
    s = a ∧ rest = [] ∨ ∃ b, s = a ++ '/' :: b ∧ rest = splitAtSlashes b := by
  induction s using slash_induction with
  | single x hx =>
    rw [splitAtSlashes_of_not_mem hx] at h
    obtain ⟨rfl, rfl⟩ := List.cons.inj h
    exact .inl ⟨rfl, rfl⟩
  | slash x b hx _ =>
    rw [splitAtSlashes_append b hx] at h
    obtain ⟨rfl, rfl⟩ := List.cons.inj h
    exact .inr ⟨b, rfl, rfl⟩

end Pieces

/-- No two stars of a pattern are adjacent. -/
def LoneStars (cs : List Char) : Prop := ¬ ['*', '*'] <:+: cs

instance (cs : List Char) : Decidable (LoneStars cs) := inferInstanceAs (Decidable (¬ _))

theorem LoneStars.of_infix {a cs : List Char} (h : LoneStars cs) (ha : a <:+: cs) : LoneStars a :=
  fun hstars => h (hstars.trans ha)

namespace GlobToken

/-- A slash stands for itself, whatever is around it. -/
theorem ofChars_append_slash (a b : List Char) :
    ofChars (a ++ '/' :: b) = ofChars a ++ literal '/' :: ofChars b := by
  have hhead : ('/' :: b).head? ≠ some '*' := by simp
  rw [ofChars_append hhead, ofChars_literal (by decide)]

/-- A piece of a pattern has no more wildcards than the pattern. -/
theorem countP_isWildcard_le {q cs : List Char} (hq : q ∈ splitAtSlashes cs) :
    (ofChars q).countP isWildcard ≤ (ofChars cs).countP isWildcard := by
  induction cs using slash_induction with
  | single a ha =>
    rw [splitAtSlashes_of_not_mem ha, List.mem_singleton] at hq
    rw [hq]
  | slash a b ha ih =>
    rw [splitAtSlashes_append b ha, List.mem_cons] at hq
    rw [ofChars_append_slash, List.countP_append, List.countP_cons]
    rcases hq with rfl | hq
    · exact Nat.le_add_right _ _
    · have := ih hq
      omega

/-- A piece without adjacent stars is read into lone stars and literals other
than slashes. -/
theorem of_mem_ofChars {cs : List Char} (hstars : LoneStars cs) (hslash : '/' ∉ cs)
    {t : GlobToken} (ht : t ∈ ofChars cs) : t = star ∨ ∃ c, c ≠ '/' ∧ t = literal c := by
  fun_induction ofChars cs with
  | case1 cs _ => exact absurd (List.prefix_append ['*', '*'] cs).isInfix hstars
  | case2 cs _ ih =>
    rcases List.mem_cons.1 ht with rfl | ht
    · exact .inl rfl
    · exact ih (hstars.of_infix (List.suffix_cons '*' cs).isInfix)
        (fun h => hslash (List.mem_cons_of_mem _ h)) ht
  | case3 c cs _ _ ih =>
    rcases List.mem_cons.1 ht with rfl | ht
    · exact .inr ⟨c, fun hc => hslash (hc ▸ List.mem_cons_self), rfl⟩
    · exact ih (hstars.of_infix (List.suffix_cons c cs).isInfix)
        (fun h => hslash (List.mem_cons_of_mem _ h)) ht
  | case4 => cases ht

end GlobToken

open GlobToken

section Covers

variable {mode : GlobMode} {ts us : List GlobToken} {s : List Char}

/-- Tokens one after the other cover a text in two parts. -/
theorem covers_append_iff :
    Covers mode (ts ++ us) s ↔ ∃ a b, s = a ++ b ∧ Covers mode ts a ∧ Covers mode us b := by
  induction ts generalizing s with
  | nil =>
    constructor
    · intro h
      exact ⟨[], s, rfl, .nil, h⟩
    · rintro ⟨a, b, rfl, ha, hb⟩
      obtain rfl := covers_nil_iff.1 ha
      exact hb
  | cons t ts ih =>
    rw [List.cons_append, covers_cons_iff]
    constructor
    · rintro ⟨piece, rest, rfl, ht, hrest⟩
      obtain ⟨a, b, rfl, ha, hb⟩ := ih.1 hrest
      exact ⟨piece ++ a, b, (List.append_assoc _ _ _).symm, .cons ht ha, hb⟩
    · rintro ⟨a, b, rfl, ha, hb⟩
      obtain ⟨piece, rest, rfl, ht, hrest⟩ := covers_cons_iff.1 ha
      exact ⟨piece, rest ++ b, List.append_assoc _ _ _, ht, ih.2 ⟨rest, b, rfl, hrest, hb⟩⟩

/-- **Lone stars and literals other than slashes cover no slash.** -/
theorem slash_not_mem_of_covers (h : Covers .path ts s)
    (hts : ∀ t ∈ ts, t = star ∨ ∃ c, c ≠ '/' ∧ t = literal c) : '/' ∉ s := by
  induction h with
  | nil => exact List.not_mem_nil
  | @cons t ts piece rest hpiece _ ih =>
    obtain ⟨ht, hts⟩ := List.forall_mem_cons.1 hts
    refine fun hmem => (List.mem_append.1 hmem).elim (fun hslash => ?_) (ih hts)
    rcases ht with rfl | ⟨c, hc, rfl⟩
    · exact absurd (hpiece '/' hslash) (by decide)
    · obtain rfl := hpiece
      exact hc (List.mem_singleton.1 hslash).symm

/-- **Without adjacent stars a pattern covers a text piece by piece.** The first
piece of the pattern covers no slash, so what follows its slash in the pattern
covers what follows the first slash of the text. -/
theorem covers_iff_forall₂_pieces {cs : List Char} (hstars : LoneStars cs) :
    Covers .path (ofChars cs) s ↔
      List.Forall₂ (fun q piece => Covers .path (ofChars q) piece) (splitAtSlashes cs)
        (splitAtSlashes s) := by
  induction cs using slash_induction generalizing s with
  | single a ha =>
    rw [splitAtSlashes_of_not_mem ha, List.forall₂_cons_left_iff]
    simp only [List.forall₂_nil_left_iff]
    constructor
    · intro h
      have hs : '/' ∉ s := slash_not_mem_of_covers h fun t => of_mem_ofChars hstars ha
      exact ⟨s, [], h, rfl, splitAtSlashes_of_not_mem hs⟩
    · rintro ⟨piece, _, h, rfl, hs⟩
      rcases eq_or_exists_of_splitAtSlashes hs with ⟨rfl, -⟩ | ⟨b, -, hb⟩
      · exact h
      · exact absurd hb.symm (splitAtSlashes_ne_nil b)
  | slash a b ha ih =>
    have hleft : LoneStars a := hstars.of_infix (List.prefix_append a _).isInfix
    have hright : LoneStars b :=
      hstars.of_infix (((List.suffix_cons '/' b).trans (List.suffix_append a _)).isInfix)
    rw [splitAtSlashes_append b ha, List.forall₂_cons_left_iff, ofChars_append_slash,
      covers_append_iff]
    constructor
    · rintro ⟨x, y, rfl, hx, hy⟩
      obtain ⟨rest, rfl, hrest⟩ := covers_literal_iff.1 hy
      have hx' : '/' ∉ x := slash_not_mem_of_covers hx fun t => of_mem_ofChars hleft ha
      exact ⟨x, splitAtSlashes rest, hx, (ih hright).1 hrest, splitAtSlashes_append rest hx'⟩
    · rintro ⟨x, rest, hx, hrest, hs⟩
      rcases eq_or_exists_of_splitAtSlashes hs with ⟨-, rfl⟩ | ⟨y, rfl, rfl⟩
      · exact absurd (List.forall₂_nil_right_iff.1 hrest) (splitAtSlashes_ne_nil b)
      · exact ⟨x, '/' :: y, rfl, hx, covers_literal_iff.2 ⟨y, rfl, (ih hright).2 hrest⟩⟩

end Covers

/-- The engine accepts the pieces of a path glob that it accepts. -/
def PatternEngine.AcceptsPieces [PatternEngine] : Prop :=
  ∀ pattern, accepts .path pattern → ∀ piece ∈ pieces pattern, accepts .path piece

/-- A limit on wildcards is kept by the pieces. -/
theorem acceptsPieces_wildcardLimit : PatternEngine.AcceptsPieces := by
  intro pattern hpattern piece hpiece
  obtain ⟨q, hq, rfl⟩ := List.mem_map.1 hpiece
  refine decide_eq_true ?_
  rw [String.toList_ofList]
  exact (countP_isWildcard_le hq).trans (of_decide_eq_true hpattern)

namespace Glob

section AnyEngine

variable [PatternEngine] {pattern : String} {g : Glob} {s : String}

theorem exists_mapM_pieces (haccepts : PatternEngine.AcceptsPieces)
    (h : compile .path pattern = .ok g) :
    ∃ gs, (pieces pattern).mapM (compile .path) = .ok gs :=
  exists_mapM_iff.2 fun piece hpiece =>
    compiles_iff.2 (haccepts pattern (compiles_iff.1 ⟨g, h⟩) piece hpiece)

/-- A match of the pattern, in terms of its pieces and those of the text. -/
theorem isMatch_iff_forall₂_covers (hstars : LoneStars pattern.toList)
    (h : compile .path pattern = .ok g) :
    g.isMatch s = true ↔ List.Forall₂ (fun q piece => Covers .path (ofChars q) piece)
      (splitAtSlashes pattern.toList) (splitAtSlashes s.toList) := by
  rw [isMatch_iff_of_compile h, covers_iff_forall₂_pieces hstars]

theorem count_slash_of_isMatch (hstars : LoneStars pattern.toList)
    (h : compile .path pattern = .ok g) (hs : g.isMatch s = true) :
    s.toList.count '/' = pattern.toList.count '/' := by
  have hlength := ((isMatch_iff_forall₂_covers hstars h).1 hs).length_eq
  rw [length_splitAtSlashes, length_splitAtSlashes] at hlength
  exact (Nat.succ.inj hlength).symm

/-- **Without adjacent stars a path glob matches piece by piece.** Where the
pieces of such a pattern compile, the pattern matches a text if the text has as
many pieces and each is matched by the piece of the pattern at its place. In any
case it matches no text with another number of slashes. The pieces compile if the
engine accepts the pieces of what it accepts. -/
theorem isMatch_iff_pieces (hstars : LoneStars pattern.toList)
    (h : compile .path pattern = .ok g) (s : String) :
    (∀ gs, (pieces pattern).mapM (compile .path) = .ok gs →
      (g.isMatch s = true ↔
        List.Forall₂ (fun q piece => q.isMatch piece = true) gs (pieces s))) ∧
      (g.isMatch s = true → s.toList.count '/' = pattern.toList.count '/') ∧
      (PatternEngine.AcceptsPieces → ∃ gs, (pieces pattern).mapM (compile .path) = .ok gs) := by
  refine ⟨fun gs hgs => ?_, count_slash_of_isMatch hstars h, fun haccepts =>
    exists_mapM_pieces haccepts h⟩
  rw [isMatch_iff_forall₂_covers hstars h, eq_map_of_mapM hgs, pieces, pieces, List.map_map,
    List.forall₂_map_left_iff, List.forall₂_map_right_iff]
  simp only [isMatch_iff_covers, Function.comp_apply, String.toList_ofList]

end AnyEngine

/-- Empty pieces count: a slash at either end and two in a row are matched by
themselves. -/
theorem isMatch_iff_pieces_ends :
    LoneStars "/*/src*/".toList ∧ ∃ gs, (pieces "/*/src*/").mapM (compile .path) = .ok gs ∧
      List.Forall₂ (fun q piece => q.isMatch piece = true) gs (pieces "//src/") ∧
      ¬ List.Forall₂ (fun q piece => q.isMatch piece = true) gs (pieces "/a/b/src/") := by
  have hstars : LoneStars "/*/src*/".toList := by decide
  have compiles : compile .path "/*/src*/" =
      .ok ⟨"/*/src*/", .path, GlobToken.ofChars "/*/src*/".toList⟩ := by decide
  obtain ⟨hmatch, -, hpieces⟩ := isMatch_iff_pieces hstars compiles "//src/"
  obtain ⟨hmatch', -, -⟩ := isMatch_iff_pieces hstars compiles "/a/b/src/"
  obtain ⟨gs, hgs⟩ := hpieces acceptsPieces_wildcardLimit
  exact ⟨hstars, gs, hgs, (hmatch gs hgs).1 (by decide),
    fun h => absurd ((hmatch' gs hgs).2 h) (by decide)⟩

end Glob

end ModulePolicy
