import Mathlib.Data.List.Induction
import Mathlib.Tactic.SplitIfs
import Stencil.Template.Block
import Stencil.Template.Parse

/-!
# Blocks pair like parentheses

For each key by itself, the tags that open and close blocks pair like parentheses: a close ends the
block with its key that was opened last and is still open. Here the pairing is read off a stack of
positions. A parsed template numbers its blocks so that looking for the first close with the key and
depth of a block finds just the close that the stack pairs with it.

## Main definitions

* `Node.unclosed`: the stack of open blocks with a key.
* `Node.Partners`: the positions of a block and of the close that the stack pairs with it.
* `Node.Numbered`: nodes whose depths are the heights of these stacks.
* `Node.Paired`: numbering and bodies of blocks agree with the stacks.
-/

namespace Stencil

namespace Node

variable {key : String} {nodes before inner after : List Node} {node : Node}

/-! ## The stack of open blocks -/

/-- Whether the node opens a block with this key. -/
def opens (node : Node) (key : String) : Bool :=
  node.opensBlock && node.key? == some key

/-- Whether the node ends a block with this key. -/
def ends (node : Node) (key : String) : Bool :=
  node.isClose && node.key? == some key

/-- The depth of a tag at a boundary of a block. -/
def depth? : Node → Option Nat
  | inclusion _ _ _ depth _ | helper _ _ _ depth _ | close _ _ _ depth => some depth
  | _ => none

/-- The stack of open blocks with a key behind a node at a position. -/
def stackAfter (key : String) (stack : List Nat) (node : Node) (position : Nat) : List Nat :=
  if node.opens key then position :: stack else if node.ends key then stack.tail else stack

/-- The positions of the blocks with a key that are open behind nodes, the last one first. -/
def unclosed (key : String) (nodes : List Node) : List Nat :=
  nodes.zipIdx.foldl (fun stack (node, position) => stackAfter key stack node position) []

@[simp] theorem unclosed_nil (key : String) : unclosed key [] = [] := rfl

theorem unclosed_concat (key : String) (nodes : List Node) (node : Node) :
    unclosed key (nodes ++ [node]) = stackAfter key (unclosed key nodes) node nodes.length := by
  simp [unclosed, List.zipIdx_append]

theorem stackAfter_of_opens {stack : List Nat} {position : Nat} (h : node.opens key) :
    stackAfter key stack node position = position :: stack := if_pos h

theorem not_opens_of_ends (h : node.ends key) : node.opens key = false := by
  cases node <;> simp_all [ends, opens, opensBlock, isClose]

theorem stackAfter_of_ends {stack : List Nat} {position : Nat} (h : node.ends key) :
    stackAfter key stack node position = stack.tail := by
  simp [stackAfter, not_opens_of_ends h, h]

theorem mem_of_mem_stackAfter {stack : List Nat} {position i : Nat}
    (h : i ∈ stackAfter key stack node position) : i = position ∨ i ∈ stack := by
  unfold stackAfter at h
  split_ifs at h
  · exact List.mem_cons.1 h
  · exact .inr (List.mem_of_mem_tail h)
  · exact .inr h

theorem mem_unclosed_append (first second : List Node) {i : Nat}
    (h : i ∈ unclosed key (first ++ second)) : i ∈ unclosed key first ∨ first.length ≤ i := by
  induction second using List.reverseRecOn with
  | nil => simp_all
  | append_singleton second node ih =>
    rw [← List.append_assoc, unclosed_concat] at h
    rcases mem_of_mem_stackAfter h with rfl | h
    · exact .inr (by simp)
    · exact ih h

theorem lt_of_mem_unclosed {i : Nat} (h : i ∈ unclosed key nodes) : i < nodes.length := by
  induction nodes using List.reverseRecOn with
  | nil => simp at h
  | append_singleton nodes node ih =>
    rw [unclosed_concat] at h
    rw [List.length_append, List.length_singleton]
    rcases mem_of_mem_stackAfter h with rfl | h
    · omega
    · have := ih h
      omega

/-- Later blocks lie above earlier ones. -/
theorem pairwise_unclosed (key : String) (nodes : List Node) :
    (unclosed key nodes).Pairwise (· > ·) := by
  induction nodes using List.reverseRecOn with
  | nil => simp
  | append_singleton nodes node ih =>
    rw [unclosed_concat]
    unfold stackAfter
    split_ifs
    · exact List.pairwise_cons.2 ⟨fun i hi => lt_of_mem_unclosed hi, ih⟩
    · exact ih.tail
    · exact ih

/-! ## Numbered nodes -/

/-- Depths count open blocks with the same key: an opening tag counts those around it, and a close
those that it leaves open. -/
structure Numbered (nodes : List Node) : Prop where
  depth_of_opens : ∀ before node after key, nodes = before ++ node :: after → node.opens key →
    node.depth? = some (unclosed key before).length
  depth_of_ends : ∀ before node after key, nodes = before ++ node :: after → node.ends key →
    node.depth?.map (· + 1) = some (unclosed key before).length

theorem Numbered.of_append {first second : List Node} (h : Numbered (first ++ second)) :
    Numbered first where
  depth_of_opens before node after key hsplit :=
    h.depth_of_opens before node (after ++ second) key (by simp [hsplit])
  depth_of_ends before node after key hsplit :=
    h.depth_of_ends before node (after ++ second) key (by simp [hsplit])

theorem numbered_nil : Numbered [] where
  depth_of_opens := by simp
  depth_of_ends := by simp

theorem append_singleton_eq_cases {other : Node} (h : nodes ++ [node] = before ++ other :: after) :
    (nodes = before ∧ node = other) ∨ ∃ more, nodes = before ++ other :: more := by
  rcases List.eq_nil_or_concat after with rfl | ⟨more, last, rfl⟩
  · exact .inl (by simpa using List.append_inj' h rfl)
  · have h' : nodes ++ [node] = (before ++ other :: more) ++ [last] := by simpa using h
    exact .inr ⟨more, (List.append_inj' h' rfl).1⟩

theorem Numbered.concat (h : Numbered nodes)
    (hopens : ∀ key, node.opens key → node.depth? = some (unclosed key nodes).length)
    (hends : ∀ key, node.ends key →
      node.depth?.map (· + 1) = some (unclosed key nodes).length) :
    Numbered (nodes ++ [node]) where
  depth_of_opens before other after key hsplit hopen := by
    rcases append_singleton_eq_cases hsplit with ⟨rfl, rfl⟩ | ⟨more, hnodes⟩
    · exact hopens key hopen
    · exact h.depth_of_opens before other more key hnodes hopen
  depth_of_ends before other after key hsplit hend := by
    rcases append_singleton_eq_cases hsplit with ⟨rfl, rfl⟩ | ⟨more, hnodes⟩
    · exact hends key hend
    · exact h.depth_of_ends before other more key hnodes hend

/-- A block on a stack opens with its key, and its depth is the number of blocks below it. -/
theorem Numbered.exists_opens (h : Numbered nodes) {i : Nat} {below : List Nat}
    (hs : i :: below <:+ unclosed key nodes) :
    ∃ opener, nodes[i]? = some opener ∧ opener.opens key ∧ opener.depth? = some below.length := by
  induction nodes using List.reverseRecOn with
  | nil => simp at hs
  | append_singleton nodes node ih =>
    have hold (hs : i :: below <:+ unclosed key nodes) : ∃ opener, (nodes ++ [node])[i]? =
        some opener ∧ opener.opens key ∧ opener.depth? = some below.length := by
      obtain ⟨opener, hget, hopener⟩ := ih h.of_append hs
      exact ⟨opener, List.getElem?_append_left (lt_of_mem_unclosed (hs.mem (List.mem_cons_self))) ▸
        hget, hopener⟩
    rw [unclosed_concat] at hs
    unfold stackAfter at hs
    split_ifs at hs with hopen
    · rcases List.suffix_cons_iff.1 hs with heq | hs
      · obtain ⟨rfl, rfl⟩ := List.cons.inj heq
        exact ⟨node, by simp, hopen, h.depth_of_opens nodes node [] key rfl hopen⟩
      · exact hold hs
    · exact hold (hs.trans (List.tail_suffix _))
    · exact hold hs

theorem closedBy_iff (hopen : node.opens key) (other : Node) :
    node.closedBy other ↔ other.ends key ∧ other.depth? = node.depth? := by
  cases node <;> cases other <;>
    simp_all [opens, ends, opensBlock, isClose, key?, closedBy, closes, depth?]

theorem Numbered.closedBy_of_unclosed_eq {close : Node}
    (h : Numbered (before ++ node :: inner ++ close :: after)) (hopen : node.opens key)
    (hends : close.ends key)
    (hstack : unclosed key (before ++ node :: inner) = before.length :: unclosed key before) :
    node.closedBy close := by
  have hnode := h.depth_of_opens before node (inner ++ close :: after) key (by simp) hopen
  have hclose := h.depth_of_ends _ close after key rfl hends
  rw [hstack] at hclose
  obtain ⟨depth, hdepth, hheight⟩ := Option.map_eq_some_iff.1 hclose
  obtain rfl : depth = (unclosed key before).length := by simpa using hheight
  exact (closedBy_iff hopen close).2 ⟨hends, hdepth.trans hnode.symm⟩

/-- A block stays on its stack as long as nothing closes it. -/
theorem Numbered.suffix_unclosed (h : Numbered (before ++ node :: inner)) (hopen : node.opens key)
    (hinner : ∀ other ∈ inner, node.closedBy other = false) :
    before.length :: unclosed key before <:+ unclosed key (before ++ node :: inner) := by
  induction inner using List.reverseRecOn with
  | nil =>
    have hstack := (unclosed_concat key before node).trans (stackAfter_of_opens hopen)
    exact hstack ▸ List.suffix_rfl
  | append_singleton inner other ih =>
    have hsplit : before ++ node :: (inner ++ [other]) = (before ++ node :: inner) ++ [other] := by
      simp
    rw [hsplit] at h ⊢
    obtain ⟨above, habove⟩ := ih h.of_append (fun o ho => hinner o (by simp [ho]))
    rw [unclosed_concat, ← habove]
    unfold stackAfter
    split_ifs with hother hends
    · exact (List.suffix_append above _).trans (List.suffix_cons _ _)
    · cases above with
      | nil =>
        have hclosed := h.closedBy_of_unclosed_eq hopen hends habove.symm
        simp [hinner other (by simp)] at hclosed
      | cons top above => exact List.suffix_append above _
    · exact List.suffix_append above _

/-- Where a block is closed first, it is on top of its stack. -/
theorem Numbered.unclosed_eq {close : Node}
    (h : Numbered (before ++ node :: inner ++ close :: after)) (hopen : node.opens key)
    (hclose : node.closedBy close) (hinner : ∀ other ∈ inner, node.closedBy other = false) :
    unclosed key (before ++ node :: inner) = before.length :: unclosed key before := by
  obtain ⟨above, habove⟩ := h.of_append.suffix_unclosed hopen hinner
  obtain ⟨hends, hdepth⟩ := (closedBy_iff hopen close).1 hclose
  have hnode := h.depth_of_opens before node (inner ++ close :: after) key (by simp) hopen
  have hlength := h.depth_of_ends _ close after key rfl hends
  rw [hdepth, hnode, ← habove] at hlength
  have : above.length = 0 := by
    simp only [Option.map_some, Option.some.injEq, List.length_append, List.length_cons] at hlength
    omega
  rw [← habove, List.length_eq_zero_iff.1 this, List.nil_append]

/-- Once closed, a block is never on its stack again: only later blocks are added. -/
theorem Numbered.not_mem_unclosed {close : Node}
    (h : Numbered (before ++ node :: inner ++ close :: after)) (hopen : node.opens key)
    (hclose : node.closedBy close) (hinner : ∀ other ∈ inner, node.closedBy other = false) :
    before.length ∉ unclosed key (before ++ node :: inner ++ close :: after) := by
  intro hmem
  rw [List.append_cons _ close] at hmem
  rcases mem_unclosed_append _ _ hmem with hmem | hle
  · rw [unclosed_concat, stackAfter_of_ends ((closedBy_iff hopen close).1 hclose).1,
      h.unclosed_eq hopen hclose hinner] at hmem
    exact Nat.lt_irrefl _ (lt_of_mem_unclosed hmem)
  · simp only [List.length_append, List.length_cons] at hle
    omega

/-- A close that finds a block on top of the stack is the first one to close it. -/
theorem Numbered.closedBy_of_head? {close : Node}
    (h : Numbered (before ++ node :: inner ++ close :: after)) (hopen : node.opens key)
    (hends : close.ends key)
    (htop : (unclosed key (before ++ node :: inner)).head? = some before.length) :
    node.closedBy close ∧ ∀ other ∈ inner, node.closedBy other = false := by
  obtain ⟨below, hstack⟩ := List.head?_eq_some_iff.1 htop
  have hinner : ∀ other ∈ inner, node.closedBy other = false := by
    rcases closedBy_cases node inner with hnone | ⟨first, c, second, rfl, hc, hfirst⟩
    · exact hnone
    · exfalso
      have hpre : Numbered (before ++ node :: first ++ c :: second) := by
        simpa using h.of_append
      exact hpre.not_mem_unclosed hopen hc hfirst (by simp [hstack])
  refine ⟨?_, hinner⟩
  obtain ⟨above, habove⟩ := h.of_append.suffix_unclosed hopen hinner
  have hbelow : below = unclosed key before := by
    cases above with
    | nil => exact (List.cons.inj (habove.trans hstack)).2.symm
    | cons top above =>
      -- A stack does not hold a position twice.
      exfalso
      obtain ⟨rfl, hrest⟩ := List.cons.inj (habove.trans hstack)
      have hsorted := hstack ▸ pairwise_unclosed key (before ++ node :: inner)
      exact Nat.lt_irrefl _ (List.rel_of_pairwise_cons hsorted (by simp [← hrest]))
  exact h.closedBy_of_unclosed_eq hopen hends (hbelow ▸ hstack)

/-! ## Blocks and their closes -/

/-- The close at `j` ends the block with this key that opens at `i`: it finds it on top of the
stack. -/
def Partners (key : String) (nodes : List Node) (i j : Nat) : Prop :=
  ∃ close, nodes[j]? = some close ∧ close.ends key ∧ (unclosed key (nodes.take j)).head? = some i

theorem exists_append_of_getElem? {i : Nat} (h : nodes[i]? = some node) :
    ∃ before after, nodes = before ++ node :: after ∧ before.length = i := by
  obtain ⟨hi, rfl⟩ := List.getElem?_eq_some_iff.1 h
  refine ⟨nodes.take i, nodes.drop (i + 1), ?_, by simp; omega⟩
  rw [← List.drop_eq_getElem_cons hi, List.take_append_drop]

theorem Partners.exists_append {j : Nat}
    (h : Partners key (before ++ node :: after) before.length j) :
    ∃ inner close rest, after = inner ++ close :: rest ∧ j = before.length + 1 + inner.length ∧
      close.ends key ∧ (unclosed key (before ++ node :: inner)).head? = some before.length := by
  obtain ⟨close, hget, hends, htop⟩ := h
  obtain ⟨front, rest, hsplit, rfl⟩ := exists_append_of_getElem? hget
  rw [hsplit, List.take_left] at htop
  have hlt := lt_of_mem_unclosed (List.mem_of_head? htop)
  rcases List.append_eq_append_iff.1 hsplit with ⟨more, hfront, hmore⟩ | ⟨more, hbefore, -⟩
  · cases more with
    | nil => simp [hfront] at hlt
    | cons head inner =>
      obtain ⟨rfl, rfl⟩ := List.cons.inj hmore
      exact ⟨inner, close, rest, rfl, by simp [hfront]; omega, hends, hfront ▸ htop⟩
  · rw [hbefore, List.length_append] at hlt
    omega

/-- The numbers and the bodies of the blocks in a list of nodes agree with the stacks of their
keys. -/
structure Paired (nodes : List Node) : Prop where
  /-- A block has as many blocks around it as its depth says. -/
  depth_of_opens : ∀ key i node, nodes[i]? = some node → node.opens key →
    node.depth? = some (unclosed key (nodes.take i)).length
  /-- A close ends the block that was opened last, and has its depth. -/
  partner_of_ends : ∀ key j close, nodes[j]? = some close → close.ends key →
    ∃ i node, Partners key nodes i j ∧ nodes[i]? = some node ∧ node.opens key ∧
      node.depth? = close.depth?
  /-- The body of a block is what stands between it and its partner. -/
  body_of_partners : ∀ key i j node, nodes[i]? = some node → node.opens key →
    Partners key nodes i j →
      node.body (nodes.drop (i + 1)) = ((nodes.drop (i + 1)).take (j - (i + 1)), j - i)
  /-- A block is a bare tag if the stack keeps it to the end. -/
  body_eq_nil_iff : ∀ key i node, nodes[i]? = some node → node.opens key →
    (node.body (nodes.drop (i + 1)) = ([], 0) ↔ i ∈ unclosed key nodes)
  /-- Any other block has a partner. -/
  mem_unclosed_iff : ∀ key i node, nodes[i]? = some node → node.opens key →
    (i ∈ unclosed key nodes ↔ ∀ j, ¬ Partners key nodes i j)

theorem Numbered.partners_iff (h : Numbered (before ++ node :: after)) (hopen : node.opens key)
    {j : Nat} :
    Partners key (before ++ node :: after) before.length j ↔
      ∃ inner close rest, after = inner ++ close :: rest ∧ j = before.length + 1 + inner.length ∧
        node.closedBy close ∧ ∀ other ∈ inner, node.closedBy other = false := by
  constructor
  · intro hp
    obtain ⟨inner, close, rest, rfl, hj, hends, htop⟩ := hp.exists_append
    have h : Numbered (before ++ node :: inner ++ close :: rest) := by simpa using h
    exact ⟨inner, close, rest, rfl, hj, h.closedBy_of_head? hopen hends htop⟩
  · rintro ⟨inner, close, rest, rfl, rfl, hclose, hinner⟩
    have h : Numbered (before ++ node :: inner ++ close :: rest) := by simpa using h
    have hlength : before.length + 1 + inner.length = (before ++ node :: inner).length := by
      simp; omega
    refine ⟨close, ?_, ((closedBy_iff hopen close).1 hclose).1, ?_⟩
    · rw [hlength, ← List.cons_append, ← List.append_assoc,
        List.getElem?_append_right (Nat.le_refl _)]
      simp
    · rw [hlength, ← List.cons_append, ← List.append_assoc, List.take_left,
        h.unclosed_eq hopen hclose hinner]
      rfl

theorem Numbered.paired (h : Numbered nodes) : Paired nodes := by
  constructor
  case depth_of_opens =>
    intro key i node hget hopen
    obtain ⟨before, after, rfl, rfl⟩ := exists_append_of_getElem? hget
    rw [List.take_left]
    exact h.depth_of_opens before node after key rfl hopen
  case partner_of_ends =>
    intro key j close hget hends
    obtain ⟨before, after, rfl, rfl⟩ := exists_append_of_getElem? hget
    have hdepth := h.depth_of_ends before close after key rfl hends
    cases hstack : unclosed key before with
    | nil => simp [hstack] at hdepth
    | cons i below =>
      have hsuffix : i :: below <:+ unclosed key before := hstack ▸ List.suffix_rfl
      obtain ⟨node, hi, hopen, hnode⟩ := h.of_append.exists_opens hsuffix
      refine ⟨i, node, ⟨close, hget, hends, by simp [hstack]⟩, ?_, hopen, ?_⟩
      · rw [List.getElem?_append_left (List.getElem?_eq_some_iff.1 hi).1, hi]
      · rw [hstack] at hdepth
        obtain ⟨depth, hclose, hheight⟩ := Option.map_eq_some_iff.1 hdepth
        obtain rfl : depth = below.length := by simpa using hheight
        rw [hnode, hclose]
  case body_of_partners =>
    intro key i j node hget hopen hp
    obtain ⟨before, after, rfl, rfl⟩ := exists_append_of_getElem? hget
    obtain ⟨inner, close, rest, rfl, rfl, hclose, hinner⟩ := (h.partners_iff hopen).1 hp
    have hdrop : (before ++ node :: (inner ++ close :: rest)).drop (before.length + 1) =
        inner ++ close :: rest := by simp
    rw [hdrop, body_eq_of_closedBy hclose hinner]
    simp
    omega
  case body_eq_nil_iff =>
    intro key i node hget hopen
    obtain ⟨before, after, rfl, rfl⟩ := exists_append_of_getElem? hget
    have hdrop : (before ++ node :: after).drop (before.length + 1) = after := by simp
    rw [hdrop]
    rcases closedBy_cases node after with hnone | ⟨inner, close, rest, rfl, hclose, hinner⟩
    · have := (h.suffix_unclosed hopen hnone).mem List.mem_cons_self
      simp [body_eq_nil hnone, this]
    · have h : Numbered (before ++ node :: inner ++ close :: rest) := by simpa using h
      have := h.not_mem_unclosed hopen hclose hinner
      simp_all [body_eq_of_closedBy hclose hinner]
  case mem_unclosed_iff =>
    intro key i node hget hopen
    obtain ⟨before, after, rfl, rfl⟩ := exists_append_of_getElem? hget
    simp only [h.partners_iff hopen]
    rcases closedBy_cases node after with hnone | ⟨inner, close, rest, rfl, hclose, hinner⟩
    · have := (h.suffix_unclosed hopen hnone).mem List.mem_cons_self
      refine ⟨fun _ j => ?_, fun _ => this⟩
      rintro ⟨inner, close, rest, rfl, -, hclose, -⟩
      simp [hnone close (by simp)] at hclose
    · have h' : Numbered (before ++ node :: inner ++ close :: rest) := by simpa using h
      refine ⟨fun hmem => ?_, fun hnot => absurd ⟨inner, close, rest, rfl, rfl, hclose, hinner⟩
        (hnot _)⟩
      exact absurd (by simpa using hmem) (h'.not_mem_unclosed hopen hclose hinner)

end Node

/-! ## Parsed templates -/

namespace Template

variable {position : Position} {opened opened' : Opened} {tag : Tag} {node : Node}

/-- The open blocks with a key are counted as their stack grows and shrinks. -/
theorem numbers_of_nodeOf (h : nodeOf position opened tag = .ok (node, opened')) (key : String) :
    (node.opens key → node.depth? = some (opened.count key)) ∧
      (node.ends key → node.depth?.map (· + 1) = some (opened.count key)) ∧
      ∀ stack : List Nat, opened.count key = stack.length → ∀ i,
        opened'.count key = (Node.stackAfter key stack node i).length := by
  cases hkind : tag.kind with
  | close =>
    simp only [nodeOf, hkind] at h
    split at h
    · next hmem =>
      obtain ⟨rfl, rfl⟩ := Prod.mk.inj (Except.ok.inj h)
      have := List.count_pos_iff.2 hmem
      by_cases hkey : String.ofList (Text.trim tag.content) = key
      · subst hkey
        simp [Node.opens, Node.ends, Node.opensBlock, Node.isClose, Node.key?, Node.depth?,
          Node.stackAfter]
        exact ⟨by omega, fun stack hstack => by omega⟩
      · simp [Node.opens, Node.ends, Node.opensBlock, Node.isClose, Node.key?, Node.stackAfter,
          hkey, Ne.symm hkey]
    · contradiction
  | helper | inclusion =>
    simp only [nodeOf, hkind] at h
    obtain ⟨rfl, rfl⟩ := Prod.mk.inj (Except.ok.inj h)
    by_cases hkey : String.ofList (Key.splitBlock tag.content).1 = key
    · subst hkey
      simp [Node.opens, Node.ends, Node.opensBlock, Node.isClose, Node.key?, Node.depth?,
        Node.stackAfter]
    · simp [Node.opens, Node.ends, Node.opensBlock, Node.isClose, Node.key?, Node.stackAfter,
        hkey]
  | raw | comment | interpolation =>
    simp only [nodeOf, hkind] at h
    obtain ⟨rfl, rfl⟩ := Prod.mk.inj (Except.ok.inj h)
    simp [Node.opens, Node.ends, Node.opensBlock, Node.isClose, Node.stackAfter]

/-- The depths of nodes read behind others count the blocks that are open all along. -/
theorem numbered_of_nodesOf {before nodes : List Node} {tokens : List Token}
    (h : nodesOf position opened tokens = .ok nodes) (hbefore : Node.Numbered before)
    (hopened : ∀ key, opened.count key = (Node.unclosed key before).length) :
    Node.Numbered (before ++ nodes) := by
  induction tokens generalizing position opened before nodes with
  | nil =>
    obtain rfl := Except.ok.inj h
    simpa using hbefore
  | cons token rest ih =>
    cases token with
    | text s =>
      obtain ⟨tail, htail, rfl⟩ := nodesOf_text_eq_ok_iff.1 h
      rw [List.append_cons]
      refine ih htail (hbefore.concat ?_ ?_) fun key => ?_
      · simp [Node.opens, Node.opensBlock]
      · simp [Node.ends, Node.isClose]
      · simp [Node.unclosed_concat, Node.stackAfter, Node.opens, Node.ends, Node.opensBlock,
          Node.isClose, hopened]
    | tag t =>
      obtain ⟨node, opened', tail, hnode, htail, rfl⟩ := nodesOf_tag_eq_ok_iff.1 h
      rw [List.append_cons]
      refine ih htail (hbefore.concat ?_ ?_) fun key => ?_
      · exact fun key hopen => hopened key ▸ (numbers_of_nodeOf hnode key).1 hopen
      · exact fun key hends => hopened key ▸ (numbers_of_nodeOf hnode key).2.1 hends
      · rw [Node.unclosed_concat]
        exact (numbers_of_nodeOf hnode key).2.2 _ (hopened key) _

theorem numbered_of_parse {dialect : Dialect} {template : String} {nodes : List Node}
    (h : parse dialect template = .ok nodes) : Node.Numbered nodes :=
  numbered_of_nodesOf h Node.numbered_nil (by simp)

/-- The blocks of a template pair like parentheses, and their bodies are what stands between. -/
theorem paired_of_parse {dialect : Dialect} {template : String} {nodes : List Node}
    (h : parse dialect template = .ok nodes) : Node.Paired nodes :=
  (numbered_of_parse h).paired

/-- A bare tag before a helper around a partial with the same key, then a crossing block and a
sibling. -/
theorem paired_of_parse_crossing :
    let template := "[#a][#a][> a]x[/a][#b][/a][/b][#a][/a]"
    let nodes : List Node := [.helper "a" "[#a]" ⟨0, 4⟩ 0 none, .helper "a" "[#a]" ⟨4, 8⟩ 1 none,
      .inclusion "a" "[> a]" ⟨8, 13⟩ 2 none, .text "x", .close "a" "[/a]" ⟨14, 18⟩ 2,
      .helper "b" "[#b]" ⟨18, 22⟩ 0 none, .close "a" "[/a]" ⟨22, 26⟩ 1,
      .close "b" "[/b]" ⟨26, 30⟩ 0, .helper "a" "[#a]" ⟨30, 34⟩ 1 none,
      .close "a" "[/a]" ⟨34, 38⟩ 1]
    parse { delimiters := ⟨"[", "]"⟩ } template = .ok nodes ∧ Node.Paired nodes := by
  intro template nodes
  have h : parse { delimiters := ⟨"[", "]"⟩ } template = .ok nodes := by decide +kernel
  exact ⟨h, paired_of_parse h⟩

end Template

end Stencil
