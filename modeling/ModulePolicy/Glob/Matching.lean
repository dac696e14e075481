/-
# Compiled globs and matching

A glob compiles if the engine for patterns accepts it (`PatternEngine`). Nothing
else is asked of the engine: what a compiled glob matches is in its tokens.

Matching works from the last token to the first. For the tokens seen so far it
keeps a row of answers, one for each suffix of the text, the whole text first:
whether those tokens cover that suffix. A token turns the row of the tokens
after it into the row with it in one sweep, so the work is the number of tokens
times the length of the text, however many wildcards there are.
-/

import ModulePolicy.Glob.Language
import ModulePolicy.Module.Fault

namespace ModulePolicy

/-- What decides which patterns compile. -/
class PatternEngine where
  accepts : GlobMode → String → Bool

/-- A pattern that has been read, with its text as written. -/
structure Glob where
  source : String
  mode : GlobMode
  tokens : List GlobToken
deriving DecidableEq

namespace Glob

/-- How many wildcards a pattern may hold where no other engine is given. -/
def maxWildcards : Nat := 9000

/-- The engine with a limit on wildcards. -/
instance (priority := low) wildcardLimit : PatternEngine where
  accepts _ pattern :=
    decide ((GlobToken.ofChars pattern.toList).countP GlobToken.isWildcard ≤ maxWildcards)

def compile [PatternEngine] (mode : GlobMode) (source : String) : Except PolicyFault Glob :=
  if PatternEngine.accepts mode source then .ok ⟨source, mode, GlobToken.ofChars source.toList⟩
  else .error (.patternTooLarge source)

/-- The row without tokens: only the empty suffix is covered. -/
def emptyRow : List Char → List Bool
  | [] => [true]
  | _ :: s => false :: emptyRow s

/-- A literal covers a suffix if it is its first character and the row covers
what follows. -/
def sweepLiteral (c : Char) : List Char → List Bool → List Bool
  | d :: s, _ :: row => (d = c && row.headD false) :: sweepLiteral c s row
  | _, _ => [false]

/-- A wildcard covers a suffix if the row does, or if it may run over the first
character and covers what follows. -/
def sweepWildcard (admits : Char → Bool) : List Char → List Bool → List Bool
  | d :: s, covered :: row =>
    let swept := sweepWildcard admits s row
    (covered || admits d && swept.headD false) :: swept
  | _, row => row

/-- The row of `t` and the tokens after it, from the row of the tokens after it. -/
def sweep (mode : GlobMode) (s : List Char) (t : GlobToken) (row : List Bool) : List Bool :=
  match t with
  | .literal c => sweepLiteral c s row
  | .star => sweepWildcard (GlobToken.starAdmits mode) s row
  | .doubleStar => sweepWildcard (fun _ => true) s row

/-- For each suffix of `s`, the whole first: whether the tokens cover it. -/
def coveredSuffixes (mode : GlobMode) (tokens : List GlobToken) (s : List Char) : List Bool :=
  tokens.foldr (sweep mode s) (emptyRow s)

/-- Whether the glob matches the whole of a text. -/
def isMatch (g : Glob) (s : String) : Bool :=
  (coveredSuffixes g.mode g.tokens s.toList).headD false

end Glob

/-- Whether a pattern matches the whole of a text; one that does not compile
matches nothing. -/
def globMatches [PatternEngine] (mode : GlobMode) (pattern s : String) : Bool :=
  match Glob.compile mode pattern with
  | .ok g => g.isMatch s
  | .error _ => false

end ModulePolicy
