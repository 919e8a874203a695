/-!
# Nodes

A parsed template is a flat list of nodes: stretches of text and tags. Blocks are not nested. The
node that opens a block and the node that closes it carry the same key and the same depth.

## Main definitions

* `Span`: where in its template a tag stands.
* `Node`: a text or a tag.
* `Node.opensBlock`, `Node.closes`, `Node.isMarker`: the part a node plays for blocks.
-/

namespace Stencil

/-- A range of bytes of a template, up to and not including `stop`. -/
structure Span where
  start : Nat := 0
  stop : Nat := 0
deriving DecidableEq, Repr, Inhabited

namespace Span

/-- The number of bytes; a span that stops before it starts has none. -/
def length (span : Span) : Nat :=
  span.stop - span.start

def isEmpty (span : Span) : Bool :=
  span.length == 0

end Span

/-- An element of a parsed template. Tags carry their whole source text. -/
inductive Node where
  /-- Text that is rendered as it is. -/
  | text (text : String)
  /-- An interpolation that is escaped for HTML. -/
  | interpolation (key source : String) (span : Span) (arguments : Option String)
  /-- An interpolation that is not escaped. -/
  | raw (key source : String) (span : Span)
  /-- Inclusion of a partial; what stands before the matching close is its content. -/
  | inclusion (key source : String) (span : Span) (depth : Nat) (arguments : Option String)
  /-- Invocation of a helper; what stands before the matching close is its body. -/
  | helper (key source : String) (span : Span) (depth : Nat) (arguments : Option String)
  /-- The end of the block with the same key and depth. -/
  | close (key source : String) (span : Span) (depth : Nat)
  /-- A comment, which renders nothing. -/
  | comment (key source : String) (span : Span)
deriving DecidableEq, Repr, Inhabited

namespace Node

def key? : Node → Option String
  | text _ => none
  | interpolation key .. | raw key .. | inclusion key .. | helper key .. | close key ..
  | comment key .. => some key

def span? : Node → Option Span
  | text _ => none
  | interpolation _ _ span _ | raw _ _ span | inclusion _ _ span _ _ | helper _ _ span _ _
  | close _ _ span _ | comment _ _ span => some span

/-- What follows the key in a tag that can have arguments. -/
def arguments? : Node → Option String
  | interpolation _ _ _ arguments | inclusion _ _ _ _ arguments
  | helper _ _ _ _ arguments => arguments
  | text _ | raw .. | close .. | comment .. => none

/-- The text of the template that a node was read from. -/
def source : Node → String
  | text s => s
  | interpolation _ source .. | raw _ source .. | inclusion _ source .. | helper _ source ..
  | close _ source .. | comment _ source .. => source

/-- Whether a close may end a block that starts here. -/
def opensBlock : Node → Bool
  | inclusion .. | helper .. => true
  | _ => false

def isClose : Node → Bool
  | close .. => true
  | _ => false

/-- Whether the node is a tag at a boundary of a block. -/
def isBlockTag (node : Node) : Bool :=
  node.opensBlock || node.isClose

/-- Whether the node ends the block with this key and depth. -/
def closes (node : Node) (key : String) (depth : Nat) : Bool :=
  match node with
  | close k _ _ d => k == key && d == depth
  | _ => false

/-- Whether the node is an interpolation of just `word`, as an `else` between two branches. -/
def isMarker (node : Node) (word : String) : Bool :=
  match node with
  | interpolation key _ _ none => key == word
  | _ => false

end Node

end Stencil
