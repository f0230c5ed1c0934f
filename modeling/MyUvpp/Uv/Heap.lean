import Mathlib.Algebra.Order.Ring.Int
import Mathlib.Logic.Function.Basic

/-! # The heap of libuv (`heap-inl.h`)

A binary min heap of nodes that are linked by pointers. A pointer to a node is its address, or `none` for
`NULL`; a pointer to a pointer to a node is a `HeapLink`. An operation that follows a null pointer has no
result. -/

namespace MyUvpp

/-- `struct heap_node`, with `none` for the null pointer. -/
@[ext]
structure HeapNode where
  left : Option ℕ
  right : Option ℕ
  parent : Option ℕ
  deriving DecidableEq, Repr

/-- `struct heap`, and the nodes in memory. -/
structure UvHeap where
  min : Option ℕ
  nelts : ℕ
  /-- The node at each address. -/
  nodes : ℕ → HeapNode

/-- What a `struct heap_node**` points to: the root, or a child pointer of a node. -/
inductive HeapLink where
  | min
  | left (addr : ℕ)
  | right (addr : ℕ)

namespace UvHeap

variable (h : UvHeap)

/-- `heap_init`: an empty heap, whatever is in the memory of the nodes. -/
def init (nodes : ℕ → HeapNode) : UvHeap := ⟨none, 0, nodes⟩

/-- `node->left = v`. -/
def setLeft (addr : ℕ) (v : Option ℕ) : UvHeap :=
  { h with nodes := Function.update h.nodes addr { h.nodes addr with left := v } }

/-- `node->right = v`. -/
def setRight (addr : ℕ) (v : Option ℕ) : UvHeap :=
  { h with nodes := Function.update h.nodes addr { h.nodes addr with right := v } }

/-- `node->parent = v`. -/
def setParent (addr : ℕ) (v : Option ℕ) : UvHeap :=
  { h with nodes := Function.update h.nodes addr { h.nodes addr with parent := v } }

/-- `if (p != NULL) p->parent = v;` -/
def setParentOf (p : Option ℕ) (v : ℕ) : UvHeap :=
  match p with
  | none => h
  | some addr => h.setParent addr v

/-- `*link`, the node that the link points to. -/
def deref : HeapLink → Option ℕ
  | .min => h.min
  | .left addr => (h.nodes addr).left
  | .right addr => (h.nodes addr).right

/-- `*link = v;`, which makes the link point to another node. -/
def assign (link : HeapLink) (v : Option ℕ) : UvHeap :=
  match link with
  | .min => { h with min := v }
  | .left addr => h.setLeft addr v
  | .right addr => h.setRight addr v

/-- What points to `old`, a child of the node at `parent` or the root, points to `new` then. -/
def replaceChild (parent : Option ℕ) (old new : ℕ) : UvHeap :=
  match parent with
  | none => { h with min := some new }
  | some addr =>
    if (h.nodes addr).left = some old then h.setLeft addr new else h.setRight addr new

/-- The part of `heap_node_swap` that exchanges the two nodes, and the other child of the parent. -/
def exchange (parent child : ℕ) : UvHeap × Option ℕ :=
  let t := h.nodes parent
  let h := { h with nodes := Function.update h.nodes parent (h.nodes child) }
  let h := { h with nodes := Function.update h.nodes child t }
  let h := h.setParent parent child
  if (h.nodes child).left = some child then (h.setLeft child parent, (h.nodes child).right)
  else (h.setRight child parent, (h.nodes child).left)

/-- `heap_node_swap`: a child and its parent exchange their places, and the nodes around them are told. -/
def heapNodeSwap (parent child : ℕ) : UvHeap :=
  let (h, sibling) := h.exchange parent child
  let h := h.setParentOf sibling child
  let h := h.setParentOf (h.nodes parent).left parent
  let h := h.setParentOf (h.nodes parent).right parent
  h.replaceChild (h.nodes child).parent parent child

/-- The loop that calculates the path from the root to the node number `n` of the tree. -/
def pathLoop (path k n : ℕ) : ℕ × ℕ :=
  if 2 ≤ n then pathLoop (path <<< 1 ||| n &&& 1) (k + 1) (n / 2) else (path, k)

/-- The loop that follows a path of `k` steps: the link it ends at and the one before. -/
def descend : ℕ → ℕ → HeapLink → HeapLink → Option (HeapLink × HeapLink)
  | 0, _, parent, child => some (parent, child)
  | k + 1, path, _, child =>
    (h.deref child).bind fun addr =>
      descend k (path >>> 1) child (if path &&& 1 ≠ 0 then .right addr else .left addr)

variable (lessThan : ℕ → ℕ → Bool)

/-- The loop that walks up the tree, in at most `fuel` steps. -/
def siftUp : ℕ → UvHeap → ℕ → Option UvHeap
  | 0, _, _ => none
  | fuel + 1, h, node =>
    match (h.nodes node).parent with
    | some parent =>
      if lessThan node parent then siftUp fuel (h.heapNodeSwap parent node) node else some h
    | none => some h

/-- `if (p != NULL && less_than(p, smallest)) smallest = p;` -/
def lesser (p : Option ℕ) (smallest : ℕ) : ℕ :=
  match p with
  | some addr => if lessThan addr smallest then addr else smallest
  | none => smallest

/-- The smallest of a node and its children. -/
def smallest (child : ℕ) : ℕ :=
  lesser lessThan (h.nodes child).right (lesser lessThan (h.nodes child).left child)

/-- The loop that walks down the tree, in at most `fuel` steps. -/
def siftDown : ℕ → UvHeap → ℕ → Option UvHeap
  | 0, _, _ => none
  | fuel + 1, h, child =>
    let s := h.smallest lessThan child
    if s = child then some h else siftDown fuel (h.heapNodeSwap child s) child

/-- `heap_min`, the root. -/
def heapMin : Option ℕ := h.min

/-- `heap_insert`: the node goes to the next free position, down the path in the bits of its number, and
then up. -/
def heapInsert (newnode : ℕ) : Option UvHeap :=
  let h := { h with nodes := Function.update h.nodes newnode ⟨none, none, none⟩ }
  let (path, k) := pathLoop 0 0 ((1 + h.nelts) % 2 ^ 32)
  (h.descend k path .min .min).bind fun (parent, child) =>
    let h := h.setParent newnode (h.deref parent)
    let h := h.assign child newnode
    let h := { h with nelts := (h.nelts + 1) % 2 ^ 32 }
    siftUp lessThan (h.nelts + 1) h newnode

/-- The part of `heap_remove` that puts the node at `child` in the place of another one. -/
def replaceNode (node child : ℕ) : UvHeap :=
  let n := h.nodes node
  let h := { h with nodes := Function.update h.nodes child ⟨n.left, n.right, n.parent⟩ }
  let h := h.setParentOf (h.nodes child).left child
  let h := h.setParentOf (h.nodes child).right child
  h.replaceChild (h.nodes node).parent node child

/-- `heap_remove`: the last node takes the place of the one removed, and goes down and then up from there.
-/
def heapRemove (node : ℕ) : Option UvHeap :=
  if h.nelts = 0 then some h
  else
    let (path, k) := pathLoop 0 0 h.nelts
    (h.descend k path .min .min).bind fun (_, max) =>
      let h := { h with nelts := h.nelts - 1 }
      -- unlink the max node
      (h.deref max).bind fun child =>
        let h := h.assign max none
        if child = node then
          some (if some child = h.min then { h with min := none } else h)
        else
          (siftDown lessThan (h.nelts + 1) (h.replaceNode node child) child).bind fun h =>
            siftUp lessThan (h.nelts + 1) h child

end UvHeap

end MyUvpp
