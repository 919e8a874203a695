/-!
# Quoted text

Arguments of tags may hold text in single or double quotes. A quote of either kind opens quoted
text, only the same quote closes it, and there is no escape inside.

## Main definitions

* `Text.Quoting`, `Quoting.next`: the quote that is open after a prefix of a text.
* `Text.splitUnquoted`: the pieces of a text between separators outside quotes.
* `Text.unquote?`: the text between matching quotes.
-/

namespace Stencil.Text

def isQuote (c : Char) : Bool :=
  c == '\'' || c == '"'

/-- The quote that is open at some point of a text, if any. -/
abbrev Quoting := Option Char

/-- The quote that is open after `c`. -/
def Quoting.next (open? : Quoting) (c : Char) : Quoting :=
  match open? with
  | some q => if c = q then none else some q
  | none => if isQuote c then some c else none

/-- The piece that `s` starts with, possibly empty, and the pieces after it, when the quote `open?`
is open before `s`. Pieces are cut at the characters outside quotes that satisfy `separates`. -/
def piecesFrom (separates : Char → Bool) (open? : Quoting) :
    List Char → List Char × List (List Char)
  | [] => ([], [])
  | c :: s =>
    if open?.isNone && !isQuote c && separates c then
      let (piece, later) := piecesFrom separates none s
      ([], piece :: later)
    else
      let (piece, later) := piecesFrom separates (open?.next c) s
      (c :: piece, later)

/-- The non-empty pieces of `s` between separators outside quotes. Quotes stay on the pieces. -/
def splitUnquoted (separates : Char → Bool) (s : List Char) : List (List Char) :=
  let (piece, later) := piecesFrom separates none s
  (piece :: later).filter fun p => !p.isEmpty

/-- The text between two quotes `q` that are the ends of `s` and its only quotes `q`. -/
def unquoteBy? (q : Char) (s : List Char) : Option (List Char) :=
  match s with
  | [] => none
  | c :: rest =>
    if c = q ∧ rest.getLast? = some q ∧ q ∉ rest.dropLast then some rest.dropLast else none

/-- The text between matching single or double quotes. -/
def unquote? (s : List Char) : Option (List Char) :=
  (unquoteBy? '\'' s).orElse fun _ => unquoteBy? '"' s

end Stencil.Text
