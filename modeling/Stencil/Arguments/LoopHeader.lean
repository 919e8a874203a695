import Stencil.Arguments.Fault

/-!
# Headers of loops

The header of a loop says which list to go through and what to call the item, its key and its index
on each pass. It is written `list as item, key, index`, or `item, key, index in list`, with any of
the names left out from the right, or is just the list.

## Main definitions

* `LoopHeader`: the list and the three names.
* `LoopHeader.read`: the header that a text denotes.
-/

namespace Stencil

/-- The list of a loop, and the names that each pass binds. -/
structure LoopHeader where
  list : List Char
  item : String
  key : String
  index : String
deriving DecidableEq, Repr

namespace LoopHeader

/-- The name of the item of a pass, unless the header gives one. -/
def defaultItem : String := "this"

/-- The name of the key of a pass, unless the header gives one. -/
def defaultKey : String := "key"

/-- The name of the index of a pass, unless the header gives one. -/
def defaultIndex : String := "index"

/-- The text before the first `word` that stands between white space, and the text after it. The
first argument tells whether white space precedes the text. -/
def cutAtWord? (afterBlank : Bool) (word : List Char) :
    List Char → Option (List Char × List Char)
  | [] => none
  | c :: s =>
    let rest := (c :: s).drop word.length
    if afterBlank && word.isPrefixOf (c :: s) && rest.head?.any Text.isBlank then some ([], rest)
    else (cutAtWord? (Text.isBlank c) word s).map fun (before, after) => (c :: before, after)

/-- The texts around the first `word` that stands between white space, trimmed. -/
def splitAtWord? (word s : List Char) : Option (List Char × List Char) :=
  (cutAtWord? false word s).map fun (before, after) => (Text.trim before, Text.trim after)

/-- The list of a header, and its names if it has any. -/
def parts (s : List Char) : List Char × Option (List Char) :=
  match splitAtWord? ['a', 's'] s with
  | some (list, names) => (list, some names)
  | none =>
    match splitAtWord? ['i', 'n'] s with
    | some (names, list) => (list, some names)
    | none => (Text.trim s, none)

/-- The piece that `s` starts with, and the pieces after it, cut at commas. -/
def piecesFrom : List Char → List Char × List (List Char)
  | [] => ([], [])
  | c :: s =>
    let (piece, later) := piecesFrom s
    if c = ',' then ([], piece :: later) else (c :: piece, later)

/-- The names of a list of names, trimmed. -/
def splitNames (s : List Char) : List (List Char) :=
  let (piece, later) := piecesFrom s
  (piece :: later).map Text.trim

/-- The header with a list and at most three names. -/
def ofNames (list : List Char) (names : List (List Char)) : LoopHeader where
  list := list
  item := (names[0]?.map String.ofList).getD defaultItem
  key := (names[1]?.map String.ofList).getD defaultKey
  index := (names[2]?.map String.ofList).getD defaultIndex

/-- The header that a text denotes. A list must be one word, and is looked at before the names. -/
def read (s : List Char) : Except ArgumentFault LoopHeader :=
  let (list, names?) := parts s
  let names := (names?.map splitNames).getD []
  if list.isEmpty || list.any Text.isBlank then .error (.noList s)
  else if 3 < names.length then .error .tooManyNames
  else
    match names.find? (!Path.isName ·) with
    | some name => .error (.invalidName name)
    | none => .ok (ofNames list names)

end LoopHeader

end Stencil
