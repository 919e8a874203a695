import Stencil.Template.Node

/-!
# Blocks of a flat list

The body of a block is found by looking for the first close with its key and depth. A block without
such a close is a bare tag with an empty body. A marker that divides a block is looked for only before
the first and after the last tag at a boundary of a block, so that nested blocks keep their own.

## Main definitions

* `Node.body`: the body of the block that a node opens.
* `Node.closedBy`: whether one node closes the block that another opens.
* `Segment`, `Node.segments`: a list of nodes as a sequence of single nodes and whole blocks.
* `Node.markerIndex?`: where a marker of a list stands.
-/

namespace Stencil

namespace Node

/-- The nodes before the first close of a block, and those after it. -/
def splitAtClose? (key : String) (depth : Nat) : List Node → Option (List Node × List Node)
  | [] => none
  | node :: rest =>
    if node.closes key depth then some ([], rest)
    else (splitAtClose? key depth rest).map fun (before, after) => (node :: before, after)

/-- The body of the block that `node` opens before `rest`, with the number of nodes up to and
including its close. Both are empty for a node that opens no block. -/
def body (node : Node) (rest : List Node) : List Node × Nat :=
  match node with
  | inclusion key _ _ depth _ | helper key _ _ depth _ =>
    match splitAtClose? key depth rest with
    | some (before, _) => (before, before.length + 1)
    | none => ([], 0)
  | _ => ([], 0)

end Node

/-- A node with the body of the block it opens, empty if it opens none. -/
structure Segment where
  node : Node
  body : List Node
deriving DecidableEq, Repr

namespace Node

/-- The segments of a list of nodes after its first `skipped` nodes. -/
def segmentsAfter (skipped : Nat) : List Node → List Segment
  | [] => []
  | node :: rest =>
    match skipped with
    | k + 1 => segmentsAfter k rest
    | 0 =>
      let (body, count) := node.body rest
      ⟨node, body⟩ :: segmentsAfter count rest

/-- A list of nodes as a sequence of single nodes and whole blocks. -/
def segments (nodes : List Node) : List Segment :=
  segmentsAfter 0 nodes

/-- Skipping nodes is dropping them. -/
theorem segmentsAfter_eq (skipped : Nat) (nodes : List Node) :
    segmentsAfter skipped nodes = segments (nodes.drop skipped) := by
  induction nodes generalizing skipped with
  | nil => simp [segments, segmentsAfter]
  | cons node rest ih =>
    cases skipped with
    | zero => rfl
    | succ k => simpa [segmentsAfter] using ih k

@[simp] theorem segments_nil : segments [] = [] := rfl

/-- A list of nodes starts with the segment of its first node and goes on behind its block. -/
theorem segments_cons (node : Node) (rest : List Node) :
    segments (node :: rest) =
      ⟨node, (node.body rest).1⟩ :: segments (rest.drop (node.body rest).2) := by
  rw [← segmentsAfter_eq]
  rfl

/-- Whether `other` closes the block that `node` opens. -/
def closedBy (node other : Node) : Bool :=
  match node with
  | inclusion key _ _ depth _ | helper key _ _ depth _ => other.closes key depth
  | _ => false

theorem opensBlock_of_closedBy {node close : Node} (h : node.closedBy close) :
    node.opensBlock := by
  cases node <;> simp_all [closedBy, opensBlock]

theorem isClose_of_closedBy {node close : Node} (h : node.closedBy close) : close.isClose := by
  cases node <;> cases close <;> simp_all [closedBy, closes, isClose]

theorem splitAtClose?_eq_none {key : String} {depth : Nat} {nodes : List Node}
    (h : ∀ node ∈ nodes, node.closes key depth = false) : splitAtClose? key depth nodes = none := by
  induction nodes <;> simp_all [splitAtClose?]

theorem splitAtClose?_eq_some {key : String} {depth : Nat} {before after : List Node} {close : Node}
    (hclose : close.closes key depth) (h : ∀ node ∈ before, node.closes key depth = false) :
    splitAtClose? key depth (before ++ close :: after) = some (before, after) := by
  induction before <;> simp_all [splitAtClose?]

/-- A block that nothing closes has no body. -/
theorem body_eq_nil {node : Node} {rest : List Node}
    (h : ∀ other ∈ rest, node.closedBy other = false) : node.body rest = ([], 0) := by
  cases node <;> simp_all [body, closedBy, splitAtClose?_eq_none]

/-- The body of a block ends at the first node that closes it. -/
theorem body_eq_of_closedBy {node close : Node} {inner after : List Node}
    (hclose : node.closedBy close) (h : ∀ other ∈ inner, node.closedBy other = false) :
    node.body (inner ++ close :: after) = (inner, inner.length + 1) := by
  cases node <;> simp_all [body, closedBy, splitAtClose?_eq_some]

/-- Either nothing closes a block, or something closes it first. -/
theorem closedBy_cases (node : Node) (rest : List Node) :
    (∀ other ∈ rest, node.closedBy other = false) ∨
      ∃ inner close after, rest = inner ++ close :: after ∧ node.closedBy close ∧
        ∀ other ∈ inner, node.closedBy other = false := by
  induction rest with
  | nil => simp
  | cons head tail ih =>
    cases hhead : node.closedBy head with
    | true => exact .inr ⟨[], head, tail, rfl, hhead, by simp⟩
    | false =>
      rcases ih with hnone | ⟨inner, close, after, rfl, hclose, hinner⟩
      · exact .inl (by simp_all)
      · exact .inr ⟨head :: inner, close, after, rfl, hclose, by simp_all⟩

/-- The nodes before the first tag at a boundary of a block. -/
def leadingRun (nodes : List Node) : List Node :=
  nodes.takeWhile fun node => !node.isBlockTag

/-- The nodes after the last tag at a boundary of a block. -/
def trailingRun (nodes : List Node) : List Node :=
  (nodes.reverse.takeWhile fun node => !node.isBlockTag).reverse

/-- The position of the first marker `word` of the leading run, or else of the trailing run. -/
def markerIndex? (nodes : List Node) (word : String) : Option Nat :=
  match (leadingRun nodes).findIdx? (·.isMarker word) with
  | some i => some i
  | none =>
    let run := trailingRun nodes
    (run.findIdx? (·.isMarker word)).map (· + (nodes.length - run.length))

/-- The nodes before the marker `word`, and those after it. -/
def splitAtMarker? (nodes : List Node) (word : String) : Option (List Node × List Node) :=
  (markerIndex? nodes word).map fun i => (nodes.take i, nodes.drop (i + 1))

end Node

end Stencil
