/-
# Matching decides covering

A row answers one question about every suffix of the text. Without tokens the
question is whether the suffix is empty; a sweep turns the question whether the
tokens behind cover a suffix into the question whether they do with one more
token in front. So the head of the last row answers for the whole text
(`isMatch_iff_covers`).

The idea of the sweep over a wildcard is that its piece is empty or starts with
a character it may run over, after which the wildcard is still there.
-/

import Mathlib.Data.List.Forall2
import Mathlib.Data.List.Infix
import ModulePolicy.Glob.Matching

namespace ModulePolicy

section Covers

variable {mode : GlobMode} {t : GlobToken} {ts : List GlobToken} {s : List Char}

theorem covers_nil_iff : Covers mode [] s ↔ s = [] := by
  constructor
  · rintro ⟨⟩
    rfl
  · rintro rfl
    exact .nil

theorem covers_cons_iff :
    Covers mode (t :: ts) s ↔
      ∃ piece rest, s = piece ++ rest ∧ t.Takes mode piece ∧ Covers mode ts rest := by
  constructor
  · rintro ⟨⟩
    exact ⟨_, _, rfl, ‹_›, ‹_›⟩
  · rintro ⟨piece, rest, rfl, ht, hrest⟩
    exact .cons ht hrest

theorem covers_literal_iff {c : Char} :
    Covers mode (.literal c :: ts) s ↔ ∃ rest, s = c :: rest ∧ Covers mode ts rest := by
  rw [covers_cons_iff]
  constructor
  · rintro ⟨piece, rest, rfl, rfl, hrest⟩
    exact ⟨rest, rfl, hrest⟩
  · rintro ⟨rest, rfl, hrest⟩
    exact ⟨[c], rest, rfl, rfl, hrest⟩

/-- **A pattern covers its own text,** wildcards the stars they are written
with. -/
theorem covers_ofChars_self (mode : GlobMode) (cs : List Char) :
    Covers mode (GlobToken.ofChars cs) cs := by
  fun_induction GlobToken.ofChars cs with
  | case1 cs ih =>
    have takes : GlobToken.doubleStar.Takes mode ['*', '*'] := trivial
    exact .cons takes ih
  | case2 cs _ ih =>
    -- a star is no slash, so a lone one is taken in both modes
    have takes : GlobToken.star.Takes mode ['*'] := by
      intro c hc
      obtain rfl := List.mem_singleton.1 hc
      cases mode <;> rfl
    exact .cons takes ih
  | case3 c cs _ _ ih => exact covers_literal_iff.2 ⟨cs, rfl, ih⟩
  | case4 => exact .nil

/-- A literal is in every text that is covered with it. -/
theorem mem_of_covers_literal {c : Char} (h : Covers mode ts s) (hc : .literal c ∈ ts) : c ∈ s := by
  induction h with
  | nil => cases hc
  | @cons t ts piece rest hpiece _ ih =>
    rcases List.mem_cons.1 hc with rfl | hc
    · exact List.mem_append_left _ (hpiece ▸ List.mem_singleton_self c)
    · exact List.mem_append_right _ (ih hc)

/-- All characters of a pattern but the stars are literals. -/
theorem literal_mem_ofChars {c : Char} (hstar : c ≠ '*') {cs : List Char} (hc : c ∈ cs) :
    .literal c ∈ GlobToken.ofChars cs := by
  fun_induction GlobToken.ofChars cs with
  | case1 cs ih =>
    have hrest : c ∈ cs := by simpa [hstar] using hc
    exact List.mem_cons_of_mem _ (ih hrest)
  | case2 cs _ ih =>
    have hrest : c ∈ cs := by simpa [hstar] using hc
    exact List.mem_cons_of_mem _ (ih hrest)
  | case3 d cs _ _ ih =>
    rcases List.mem_cons.1 hc with rfl | hc
    · exact List.mem_cons_self
    · exact List.mem_cons_of_mem _ (ih hc)
  | case4 => cases hc

end Covers

/-- A piece of admitted characters in front of a text with a property. -/
def RunsInto (admits : Char → Bool) (P : List Char → Prop) (s : List Char) : Prop :=
  ∃ piece rest, s = piece ++ rest ∧ (∀ c ∈ piece, admits c) ∧ P rest

section RunsInto

variable {admits : Char → Bool} {P : List Char → Prop}

theorem runsInto_nil_iff : RunsInto admits P [] ↔ P [] := by
  constructor
  · rintro ⟨piece, rest, h, -, hP⟩
    obtain ⟨-, rfl⟩ := List.append_eq_nil_iff.1 h.symm
    exact hP
  · intro hP
    exact ⟨[], [], rfl, by simp, hP⟩

/-- The run is empty or goes on after its first character. -/
theorem runsInto_cons_iff {d : Char} {s : List Char} :
    RunsInto admits P (d :: s) ↔ P (d :: s) ∨ admits d ∧ RunsInto admits P s := by
  constructor
  · rintro ⟨piece, rest, h, hpiece, hP⟩
    cases piece with
    | nil =>
      rw [List.nil_append] at h
      exact .inl (h ▸ hP)
    | cons c piece =>
      obtain ⟨rfl, rfl⟩ := List.cons.inj h
      obtain ⟨hc, hpiece⟩ := List.forall_mem_cons.1 hpiece
      exact .inr ⟨hc, piece, rest, rfl, hpiece, hP⟩
  · rintro (hP | ⟨hd, piece, rest, rfl, hpiece, hP⟩)
    · exact ⟨[], _, rfl, by simp, hP⟩
    · exact ⟨d :: piece, rest, rfl, List.forall_mem_cons.2 ⟨hd, hpiece⟩, hP⟩

theorem covers_star_iff {mode : GlobMode} {ts : List GlobToken} {s : List Char} :
    Covers mode (.star :: ts) s ↔
      RunsInto (GlobToken.starAdmits mode) (Covers mode ts) s :=
  covers_cons_iff

theorem covers_doubleStar_iff {mode : GlobMode} {ts : List GlobToken} {s : List Char} :
    Covers mode (.doubleStar :: ts) s ↔ RunsInto (fun _ => true) (Covers mode ts) s := by
  rw [covers_cons_iff]
  simp only [RunsInto, GlobToken.Takes, implies_true]

end RunsInto

namespace Glob

/-- A row answers whether a property holds, for each suffix of a text. -/
def Answers (P : List Char → Prop) (s : List Char) (row : List Bool) : Prop :=
  List.Forall₂ (fun suffix answer => answer = true ↔ P suffix) s.tails row

section Answers

variable {P : List Char → Prop} {s : List Char} {row : List Bool}

theorem answers_nil_iff : Answers P [] row ↔ ∃ b, (b = true ↔ P []) ∧ row = [b] := by
  simp only [Answers, List.tails, List.forall₂_cons_left_iff, List.forall₂_nil_left_iff]
  constructor
  · rintro ⟨b, _, hb, rfl, rfl⟩
    exact ⟨b, hb, rfl⟩
  · rintro ⟨b, hb, rfl⟩
    exact ⟨b, [], hb, rfl, rfl⟩

theorem answers_cons_iff {d : Char} :
    Answers P (d :: s) row ↔
      ∃ b rest, (b = true ↔ P (d :: s)) ∧ Answers P s rest ∧ row = b :: rest := by
  simp only [Answers, List.tails_cons, List.forall₂_cons_left_iff]

theorem Answers.congr {Q : List Char → Prop} (h : Answers P s row) (hPQ : ∀ s, P s ↔ Q s) :
    Answers Q s row :=
  h.imp fun suffix _ hb => hb.trans (hPQ suffix)

/-- The head of a row answers for the whole text. -/
theorem Answers.headD_iff (h : Answers P s row) : row.headD false = true ↔ P s := by
  cases s with
  | nil =>
    obtain ⟨b, hb, rfl⟩ := answers_nil_iff.1 h
    exact hb
  | cons d s =>
    obtain ⟨b, rest, hb, -, rfl⟩ := answers_cons_iff.1 h
    exact hb

theorem answers_emptyRow : ∀ s, Answers (· = []) s (emptyRow s)
  | [] => answers_nil_iff.2 ⟨true, by simp, rfl⟩
  | _ :: s => answers_cons_iff.2 ⟨false, _, by simp, answers_emptyRow s, rfl⟩

theorem Answers.sweepLiteral (c : Char) (h : Answers P s row) :
    Answers (fun s => ∃ rest, s = c :: rest ∧ P rest) s (sweepLiteral c s row) := by
  induction s generalizing row with
  | nil => exact answers_nil_iff.2 ⟨false, by simp, rfl⟩
  | cons d s ih =>
    obtain ⟨b, rest, -, hrest, rfl⟩ := answers_cons_iff.1 h
    refine answers_cons_iff.2 ⟨_, _, ?_, ih hrest, rfl⟩
    rw [Bool.and_eq_true, decide_eq_true_iff, hrest.headD_iff]
    constructor
    · rintro ⟨rfl, hP⟩
      exact ⟨s, rfl, hP⟩
    · rintro ⟨_, h, hP⟩
      obtain ⟨rfl, rfl⟩ := List.cons.inj h
      exact ⟨rfl, hP⟩

/-- One sweep over a wildcard. Its row is read from the right, so the answer for
the rest of the text is there when the wildcard may run over a character. -/
theorem Answers.sweepWildcard (admits : Char → Bool) (h : Answers P s row) :
    Answers (RunsInto admits P) s (sweepWildcard admits s row) := by
  induction s generalizing row with
  | nil =>
    obtain ⟨b, hb, rfl⟩ := answers_nil_iff.1 h
    exact answers_nil_iff.2 ⟨b, hb.trans runsInto_nil_iff.symm, rfl⟩
  | cons d s ih =>
    obtain ⟨b, rest, hb, hrest, rfl⟩ := answers_cons_iff.1 h
    refine answers_cons_iff.2 ⟨_, _, ?_, ih hrest, rfl⟩
    rw [Bool.or_eq_true, Bool.and_eq_true, hb, (ih hrest).headD_iff, runsInto_cons_iff]

theorem Answers.sweep {mode : GlobMode} {ts : List GlobToken} (t : GlobToken)
    (h : Answers (Covers mode ts) s row) :
    Answers (Covers mode (t :: ts)) s (sweep mode s t row) := by
  cases t with
  | literal c => exact (h.sweepLiteral c).congr fun _ => covers_literal_iff.symm
  | star => exact (h.sweepWildcard _).congr fun _ => covers_star_iff.symm
  | doubleStar => exact (h.sweepWildcard _).congr fun _ => covers_doubleStar_iff.symm

/-- **All rows answer rightly,** one token after the other from the last. -/
theorem answers_coveredSuffixes (mode : GlobMode) (s : List Char) :
    ∀ ts, Answers (Covers mode ts) s (coveredSuffixes mode ts s)
  | [] => (answers_emptyRow s).congr fun _ => covers_nil_iff.symm
  | t :: ts => (answers_coveredSuffixes mode s ts).sweep t

end Answers

/-- **A glob matches the texts that its tokens cover**, and no others. -/
theorem isMatch_iff_covers (g : Glob) (s : String) :
    g.isMatch s = true ↔ Covers g.mode g.tokens s.toList :=
  (answers_coveredSuffixes g.mode s.toList g.tokens).headD_iff

end Glob

end ModulePolicy
