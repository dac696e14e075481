/-
# The language of a glob

A glob is read from left to right into tokens, two adjacent stars before a lone
one:

| token | written | piece of the text it takes |
| --- | --- | --- |
| `doubleStar` | `**` | any |
| `star` | `*` | any without a slash in path mode, any in identifier mode |
| `literal c` | `c` | the character `c` |

A text is matched if it can be cut into one piece per token, in order and with
nothing left over (`Covers`).
-/

namespace ModulePolicy

/-- What a lone star may run over: anything but slashes in a path, anything in
an identifier. -/
inductive GlobMode
  | path
  | identifier
deriving DecidableEq

inductive GlobToken
  | literal (c : Char)
  | star
  | doubleStar
deriving DecidableEq

namespace GlobToken

/-- The tokens of a pattern. -/
def ofChars : List Char → List GlobToken
  | '*' :: '*' :: cs => doubleStar :: ofChars cs
  | '*' :: cs => star :: ofChars cs
  | c :: cs => literal c :: ofChars cs
  | [] => []

theorem ofChars_literal {c : Char} (hc : c ≠ '*') (cs : List Char) :
    ofChars (c :: cs) = literal c :: ofChars cs :=
  ofChars.eq_3 c cs (fun _ h => absurd h hc) hc

theorem ofChars_star {cs : List Char} (h : cs.head? ≠ some '*') :
    ofChars ('*' :: cs) = star :: ofChars cs :=
  ofChars.eq_2 cs fun rest hcs => h (by rw [hcs, List.head?_cons])

/-- What does not start with a star is read for itself. -/
theorem ofChars_append {b : List Char} (hb : b.head? ≠ some '*') (a : List Char) :
    ofChars (a ++ b) = ofChars a ++ ofChars b := by
  fun_induction ofChars a with
  | case1 cs ih => rw [List.cons_append, List.cons_append, ofChars, ih, List.cons_append]
  | case2 cs hne ih =>
    have hhead : (cs ++ b).head? ≠ some '*' := by
      cases cs with
      | nil => exact hb
      | cons c cs => exact fun h => hne cs (by rw [Option.some.inj h])
    rw [List.cons_append, ofChars_star hhead, ih, List.cons_append]
  | case3 c cs _ hc ih => rw [List.cons_append, ofChars_literal hc, ih, List.cons_append]
  | case4 => rfl

def isWildcard : GlobToken → Bool
  | literal _ => false
  | star => true
  | doubleStar => true

/-- Whether a lone star may run over a character. -/
def starAdmits : GlobMode → Char → Bool
  | .path, c => c ≠ '/'
  | .identifier, _ => true

/-- The pieces of text that a token takes. -/
def Takes (mode : GlobMode) : GlobToken → List Char → Prop
  | literal c, piece => piece = [c]
  | star, piece => ∀ c ∈ piece, starAdmits mode c
  | doubleStar, _ => True

end GlobToken

/-- A text cut into one piece per token. -/
inductive Covers (mode : GlobMode) : List GlobToken → List Char → Prop
  | nil : Covers mode [] []
  | cons {t : GlobToken} {ts : List GlobToken} {piece rest : List Char} :
      t.Takes mode piece → Covers mode ts rest → Covers mode (t :: ts) (piece ++ rest)

end ModulePolicy
