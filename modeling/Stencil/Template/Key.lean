import Stencil.Text.Alphanumeric
import Stencil.Text.Blank

/-!
# Keys of tags

The content of a tag starts with a key, and the rest are its arguments. A key starts with a letter,
a digit or an underscore. Keys of interpolations are paths and may start with a dollar sign; keys
of blocks are names of helpers and partials.

## Main definitions

* `Key.split`: the key and the rest of the content of a tag.
* `Key.arguments?`: the rest, if there is any.
-/

namespace Stencil.Key

def isStart (c : Char) : Bool :=
  Text.isAlphanumeric c || c == '_'

def isBlockChar (c : Char) : Bool :=
  Text.isAlphanumeric c || c == '_' || c == '-' || c == '/'

def isPathChar (c : Char) : Bool :=
  Text.isAlphanumeric c || c == '_' || c == '.' || c == '[' || c == ']'

/-- The key that `s` starts with, and the rest of `s`. Without a start of a key it is empty. -/
def splitWord (isKeyChar : Char → Bool) (s : List Char) : List Char × List Char :=
  match s with
  | [] => ([], s)
  | c :: _ => if isStart c then (s.takeWhile isKeyChar, s.dropWhile isKeyChar) else ([], s)

/-- The key of a block, and the rest of the content of its tag. -/
def splitBlock (content : List Char) : List Char × List Char :=
  splitWord isBlockChar (Text.trimLeft content)

/-- The key of an interpolation, and the rest of the content of its tag. A dollar sign belongs to
the key only if a key follows it. -/
def splitPath (content : List Char) : List Char × List Char :=
  match Text.trimLeft content with
  | '$' :: s =>
    match splitWord isPathChar s with
    | ([], _) => ([], '$' :: s)
    | (key, rest) => ('$' :: key, rest)
  | s => splitWord isPathChar s

/-- The arguments in the rest of the content of a tag. -/
def arguments? (rest : List Char) : Option String :=
  let s := Text.trim rest
  if s.isEmpty then none else some (String.ofList s)

end Stencil.Key
