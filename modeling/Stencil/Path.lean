import Stencil.Number.Numeral
import Stencil.Text.Alphanumeric
import Stencil.Text.Runs
import Stencil.Value.Basic

/-!
# Paths

A path addresses a value inside another. Its segments are the maximal runs of word characters, so
dots, brackets and blanks all separate them and `a.b[1]` is the same path as `a b 1`.

## Main definitions

* `Path.segments`: the segments of a path.
* `Value.walk`: the value reached by a list of segments.
* `Value.resolve?`: the value that the text of a path addresses.
-/

namespace Stencil

namespace Path

/-- Whether `c` may occur in a segment or a name. -/
def isWordChar (c : Char) : Bool :=
  Text.isAlphanumeric c || c == '_' || c == '$'

/-- Whether `s` is a name: one or more word characters. -/
def isName (s : List Char) : Bool :=
  !s.isEmpty && s.all isWordChar

def segments (path : List Char) : List String :=
  (Text.runs isWordChar path).map String.ofList

/-- The position in an array that a segment of decimal digits denotes. Positions have 64 bits. -/
def position? (segment : String) : Option Nat :=
  let digits := segment.toList
  if digits.isEmpty || !digits.all isDigit then none
  else
    let n := digitsValue digits
    if n < Nat.pow 2 64 then some n else none

end Path

namespace Value

/-- The value one segment below `v`: a field of an object or an item of an array. -/
def child? (v : Value) (segment : String) : Option Value :=
  match v with
  | object fields => Table.get? fields segment
  | array items => (Path.position? segment).bind fun i => items[i]?
  | null | bool _ | number _ | string _ => none

/-- The value reached from `v` along a list of segments. -/
def walk (v : Value) : List String → Option Value
  | [] => some v
  | segment :: rest => (v.child? segment).bind fun below => below.walk rest

/-- The value that a path addresses in `v`. A path without segments addresses nothing. -/
def resolve? (v : Value) (path : List Char) : Option Value :=
  match Path.segments path with
  | [] => none
  | segments => v.walk segments

end Value

end Stencil
