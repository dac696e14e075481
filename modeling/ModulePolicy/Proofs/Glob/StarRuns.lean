/-
# Runs of stars

Stars are read in pairs from the left, so the tokens of a run depend on whether
its length is even. What the run takes does not:

| mode | a run that takes any text | a shorter one |
| --- | --- | --- |
| path | two stars or more | one star takes any text without slashes |
| identifier | one star or more | none |

For behind two stars further ones have nothing left to take
(`runsInto_stars_iff`). So runs of at least `GlobMode.leastRun` stars can stand
for each other, whatever is around them, more stars included
(`covers_exchange_iff`).

The modes differ in the slashes that a lone star may take. So a pattern matches
more texts as an identifier than as a path, but none more without slashes.
-/

import ModulePolicy.Proofs.Glob.Compiling

namespace ModulePolicy

open GlobToken

/-- How many stars in a row take any text. -/
def GlobMode.leastRun : GlobMode → Nat
  | .path => 2
  | .identifier => 1

section Runs

variable {mode : GlobMode} {admits : Char → Bool} {P Q : List Char → Prop} {s : List Char}

theorem runsInto_congr (h : ∀ s, P s ↔ Q s) : RunsInto admits P s ↔ RunsInto admits Q s := by
  simp only [RunsInto, h]

/-- **A run of anything takes the run behind it as well.** -/
theorem runsInto_runsInto_iff :
    RunsInto (fun _ => true) (RunsInto admits P) s ↔ RunsInto (fun _ => true) P s := by
  constructor
  · rintro ⟨piece, _, rfl, -, piece', rest, rfl, -, hP⟩
    exact ⟨piece ++ piece', rest, (List.append_assoc _ _ _).symm, fun _ _ => rfl, hP⟩
  · rintro ⟨piece, rest, rfl, -, hP⟩
    exact ⟨piece, rest, rfl, fun _ _ => rfl, [], rest, rfl, by simp, hP⟩

/-- Behind a run of anything a star has nothing left to take, be it read alone
or with the star after it. -/
theorem runsInto_star_iff (cs : List Char) :
    RunsInto (fun _ => true) (Covers mode (ofChars ('*' :: cs))) s ↔
      RunsInto (fun _ => true) (Covers mode (ofChars cs)) s := by
  induction cs generalizing s with
  | nil => exact (runsInto_congr fun _ => covers_star_iff).trans runsInto_runsInto_iff
  | cons c cs ih =>
    by_cases hc : c = '*'
    · subst hc
      rw [ofChars, ih]
      exact (runsInto_congr fun _ => covers_doubleStar_iff).trans runsInto_runsInto_iff
    · have hhead : (c :: cs).head? ≠ some '*' := by simpa using hc
      rw [ofChars_star hhead]
      exact (runsInto_congr fun _ => covers_star_iff).trans runsInto_runsInto_iff

theorem runsInto_stars_iff (n : Nat) (cs : List Char) :
    RunsInto (fun _ => true) (Covers mode (ofChars (List.replicate n '*' ++ cs))) s ↔
      RunsInto (fun _ => true) (Covers mode (ofChars cs)) s := by
  induction n with
  | zero => rfl
  | succ n ih => rw [List.replicate_succ, List.cons_append, runsInto_star_iff, ih]

/-- In an identifier one star is enough. -/
theorem covers_star_identifier_iff (cs : List Char) :
    Covers .identifier (ofChars ('*' :: cs)) s ↔
      RunsInto (fun _ => true) (Covers .identifier (ofChars cs)) s := by
  by_cases h : cs.head? = some '*'
  · obtain ⟨cs, rfl⟩ := List.head?_eq_some_iff.1 h
    rw [ofChars, covers_doubleStar_iff, runsInto_star_iff]
  · rw [ofChars_star h, covers_star_iff]
    rfl

/-- **A run of enough stars takes any text,** however they are paired. -/
theorem covers_run_iff {n : Nat} (hn : mode.leastRun ≤ n) (cs : List Char) :
    Covers mode (ofChars (List.replicate n '*' ++ cs)) s ↔
      RunsInto (fun _ => true) (Covers mode (ofChars cs)) s := by
  match mode, n, hn with
  | _, n + 2, _ =>
    rw [List.replicate_succ, List.replicate_succ, List.cons_append, List.cons_append, ofChars,
      covers_doubleStar_iff, runsInto_stars_iff]
  | .identifier, 1, _ => exact covers_star_identifier_iff cs

theorem covers_cons_congr {t : GlobToken} {ts us : List GlobToken}
    (h : ∀ s, Covers mode ts s ↔ Covers mode us s) :
    Covers mode (t :: ts) s ↔ Covers mode (t :: us) s := by
  simp only [covers_cons_iff, h]

/-- **Runs of enough stars can be exchanged.** The induction is on what stands in
front of the run, as it is read; a last star of it makes the run longer by one. -/
theorem covers_exchange_iff {m n : Nat} (hm : mode.leastRun ≤ m) (hn : mode.leastRun ≤ n)
    (before after : List Char) :
    Covers mode (ofChars (before ++ (List.replicate m '*' ++ after))) s ↔
      Covers mode (ofChars (before ++ (List.replicate n '*' ++ after))) s := by
  induction before using ofChars.induct generalizing s with
  | case1 cs ih =>
    simp only [List.cons_append, ofChars]
    exact covers_cons_congr fun _ => ih
  | case2 cs hne ih =>
    cases cs with
    | nil =>
      have hrun : ∀ {k}, mode.leastRun ≤ k →
          (Covers mode (ofChars ('*' :: (List.replicate k '*' ++ after))) s ↔
            RunsInto (fun _ => true) (Covers mode (ofChars after)) s) := fun {k} hk =>
        covers_run_iff (Nat.le_succ_of_le hk) after
      exact (hrun hm).trans (hrun hn).symm
    | cons c cs =>
      have hc : c ≠ '*' := fun h => hne cs (by rw [h])
      have lone : ∀ rest, ofChars ('*' :: c :: cs ++ rest) = star :: ofChars (c :: cs ++ rest) :=
        fun rest => ofChars_star (by simpa using hc)
      rw [lone, lone]
      exact covers_cons_congr fun _ => ih
  | case3 c cs _ hc ih =>
    rw [List.cons_append, List.cons_append, ofChars_literal hc, ofChars_literal hc]
    exact covers_cons_congr fun _ => ih
  | case4 => exact (covers_run_iff hm after).trans (covers_run_iff hn after).symm

end Runs

section Modes

variable {t : GlobToken} {ts : List GlobToken} {s : List Char}

theorem GlobToken.Takes.identifier (h : t.Takes .path s) : t.Takes .identifier s := by
  cases t with
  | literal c => exact h
  | star => exact fun _ _ => rfl
  | doubleStar => trivial

theorem GlobToken.Takes.path (h : t.Takes .identifier s) (hs : '/' ∉ s) : t.Takes .path s := by
  cases t with
  | literal c => exact h
  | star => exact fun c hc => decide_eq_true fun heq : c = '/' => hs (heq ▸ hc)
  | doubleStar => trivial

/-- **What is covered in a path is covered in an identifier.** -/
theorem Covers.identifier (h : Covers .path ts s) : Covers .identifier ts s := by
  induction h with
  | nil => exact .nil
  | cons ht _ ih => exact .cons ht.identifier ih

/-- **Without slashes in the text the modes agree.** -/
theorem covers_path_iff_identifier (hs : '/' ∉ s) :
    Covers .path ts s ↔ Covers .identifier ts s := by
  refine ⟨Covers.identifier, fun h => ?_⟩
  induction h with
  | nil => exact .nil
  | cons ht _ ih =>
    exact .cons (ht.path fun h => hs (List.mem_append_left _ h))
      (ih fun h => hs (List.mem_append_right _ h))

end Modes

namespace Glob

/-- So many stars in a row. -/
def stars (n : Nat) : String := String.ofList (List.replicate n '*')

/-- **Runs of stars have one meaning.** Where a run of at least two stars stands
in a path pattern, or of at least one in a pattern for identifiers, any other such
run can stand as well, as long as both patterns compile. A pattern that compiles
in both modes matches as an identifier whatever it matches as a path, and the same
among texts without slashes. -/
theorem star_runs_have_one_meaning [PatternEngine] :
    (∀ {mode : GlobMode} {m n : Nat}, mode.leastRun ≤ m → mode.leastRun ≤ n →
      ∀ {before after : String} {g g' : Glob}, compile mode (before ++ stars m ++ after) = .ok g →
        compile mode (before ++ stars n ++ after) = .ok g' → ∀ s, g.isMatch s = g'.isMatch s) ∧
    ∀ {pattern : String} {g g' : Glob}, compile .path pattern = .ok g →
      compile .identifier pattern = .ok g' → ∀ s,
        (g.isMatch s = true → g'.isMatch s = true) ∧
          ('/' ∉ s.toList → g.isMatch s = g'.isMatch s) := by
  constructor
  · intro mode m n hm hn before after g g' h h' s
    have toList : ∀ k, (before ++ stars k ++ after).toList =
        before.toList ++ (List.replicate k '*' ++ after.toList) := fun k => by
      simp only [stars, String.toList_append, String.toList_ofList, List.append_assoc]
    rw [Bool.eq_iff_iff, isMatch_iff_of_compile h, isMatch_iff_of_compile h', toList, toList]
    exact covers_exchange_iff hm hn _ _
  · intro pattern g g' h h' s
    have hpath := isMatch_iff_of_compile h s
    have hidentifier := isMatch_iff_of_compile h' s
    refine ⟨fun hs => hidentifier.2 (hpath.1 hs).identifier, fun hs => ?_⟩
    rw [Bool.eq_iff_iff, hpath, hidentifier, covers_path_iff_identifier hs]

/-- Three stars are two tokens and two are one. A lone star stops at a slash in a
path but not in an identifier. -/
theorem star_runs_have_one_meaning_source :
    (∃ g g', compile .path ("src/" ++ stars 3 ++ ".rs") = .ok g ∧
      compile .path ("src/" ++ stars 2 ++ ".rs") = .ok g' ∧ g.tokens ≠ g'.tokens ∧
        g.isMatch "src/a/b.rs" = true ∧ g'.isMatch "src/a/b.rs" = true) ∧
    ∃ g g', compile .path "src*.rs" = .ok g ∧ compile .identifier "src*.rs" = .ok g' ∧
      g.isMatch "src/b.rs" ≠ g'.isMatch "src/b.rs" ∧ '/' ∉ "src_b.rs".toList ∧
        g.isMatch "src_b.rs" = g'.isMatch "src_b.rs" := by
  obtain ⟨runs, modes⟩ := star_runs_have_one_meaning
  have three : compile .path ("src/" ++ stars 3 ++ ".rs") =
    .ok ⟨"src/***.rs", .path, GlobToken.ofChars "src/***.rs".toList⟩ := by decide
  have two : compile .path ("src/" ++ stars 2 ++ ".rs") =
    .ok ⟨"src/**.rs", .path, GlobToken.ofChars "src/**.rs".toList⟩ := by decide
  have path : compile .path "src*.rs" =
    .ok ⟨"src*.rs", .path, GlobToken.ofChars "src*.rs".toList⟩ := by decide
  have identifier : compile .identifier "src*.rs" =
    .ok ⟨"src*.rs", .identifier, GlobToken.ofChars "src*.rs".toList⟩ := by decide
  have hslash : '/' ∉ "src_b.rs".toList := by decide
  refine ⟨⟨_, _, three, two, by decide, ?_, by decide⟩,
    _, _, path, identifier, by decide, hslash, (modes path identifier _).2 hslash⟩
  rw [runs (by decide) (by decide) three two]
  decide

end Glob

end ModulePolicy
