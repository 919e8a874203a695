import Stencil.Text.Blank
import Stencil.Text.Quoted

/-!
# Tokens of conditions

Tokens are separated by white space outside quotes, and comparison operators are tokens of their own
with or without white space around them. A lone equals sign is cut out like an operator, so that it
is never part of a path; a lone exclamation mark is not.

## Main definitions

* `Condition.cutOperators`: a word with its operators cut out.
* `Condition.tokens`: the tokens of a condition.
-/

namespace Stencil.Condition

def isSingleOperator (c : Char) : Bool :=
  c == '=' || c == '<' || c == '>'

def isDoubledOperator (c : Char) : Bool :=
  isSingleOperator c || c == '!'

/-- The token that a word starts with, possibly empty, and the tokens after it, when the quote
`open?` is open before the word. -/
def tokensFrom (open? : Text.Quoting) : List Char → List Char × List (List Char)
  | [] => ([], [])
  | c :: '=' :: s =>
    if open?.isNone && isDoubledOperator c then
      let (token, later) := tokensFrom none s
      ([], [c, '='] :: token :: later)
    else
      let (token, later) := tokensFrom (open?.next c) ('=' :: s)
      (c :: token, later)
  | c :: s =>
    if open?.isNone && isSingleOperator c then
      let (token, later) := tokensFrom none s
      ([], [c] :: token :: later)
    else
      let (token, later) := tokensFrom (open?.next c) s
      (c :: token, later)

/-- The non-empty tokens of a word: its operators outside quotes, and what stands between them. -/
def cutOperators (word : List Char) : List (List Char) :=
  let (token, later) := tokensFrom none word
  (token :: later).filter fun t => !t.isEmpty

def tokens (s : List Char) : List (List Char) :=
  (Text.splitUnquoted Text.isBlank s).flatMap cutOperators

end Stencil.Condition
